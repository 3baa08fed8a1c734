import LowLatencyExchange.Common.Logger
import LowLatencyExchange.Exchange.Messages
import Mathlib.Data.List.Forall2
import Mathlib.Data.List.Sort

/-!
# The FIFO sequencer

`Exchange::FIFOSequencer` collects the client requests of one round of the order server and
publishes them in the order of their receive times. Nothing resets its fill count, so every
round publishes whatever the rounds before it have added once more.
-/

namespace LowLatencyExchange

def ME_MAX_PENDING_REQUESTS : Nat := 1024

structure RecvTimeClientRequest where
  recvTime : Nanos := 0
  request : MEClientRequest := {}
  deriving DecidableEq, Repr

/-- What `std::sort` guarantees with `operator<`. It need not be stable. -/
structure StdSort where
  sort : List RecvTimeClientRequest → List RecvTimeClientRequest
  perm : ∀ requests, (sort requests).Perm requests
  sorted : ∀ requests, (sort requests).Pairwise fun r r' => ¬r'.recvTime < r.recvTime

/-- A merge sort by receive time is one of the sorts `std::sort` may be. -/
def StdSort.merge : StdSort where
  sort requests := requests.mergeSort fun r r' => decide (r.recvTime ≤ r'.recvTime)
  perm := fun requests => List.mergeSort_perm requests _
  sorted := fun requests => by
    have htrans : ∀ a b c : RecvTimeClientRequest, decide (a.recvTime ≤ b.recvTime) = true →
        decide (b.recvTime ≤ c.recvTime) = true → decide (a.recvTime ≤ c.recvTime) = true := by
      intro a b c hab hbc
      exact decide_eq_true (Int.le_trans (of_decide_eq_true hab) (of_decide_eq_true hbc))
    have htotal : ∀ a b : RecvTimeClientRequest,
        (decide (a.recvTime ≤ b.recvTime) || decide (b.recvTime ≤ a.recvTime)) = true := by
      intro a b
      simpa using Int.le_total a.recvTime b.recvTime
    exact (List.pairwise_mergeSort htrans htotal requests).imp fun hle =>
      Int.not_lt.mpr (of_decide_eq_true hle)

/-- A sort that can be evaluated. -/
def StdSort.insertion : StdSort where
  sort requests := requests.insertionSort fun r r' => r.recvTime ≤ r'.recvTime
  perm := fun requests => List.perm_insertionSort _ requests
  sorted := fun requests => by
    have : Std.Total fun r r' : RecvTimeClientRequest => r.recvTime ≤ r'.recvTime := ⟨fun _ _ => Int.le_total _ _⟩
    have : IsTrans RecvTimeClientRequest fun r r' => r.recvTime ≤ r'.recvTime := ⟨fun _ _ _ => Int.le_trans⟩
    exact (List.pairwise_insertionSort _ requests).imp Int.not_lt.mpr

structure FIFOSequencer where
  pendingClientRequests : List RecvTimeClientRequest := List.replicate ME_MAX_PENDING_REQUESTS {}
  pendingSize : Nat := 0
  timeStr : String := ""

namespace FIFOSequencer

def logAt (s : FIFOSequencer) (line : Nat) (format : String) (args : List LogValue) : Except Fault Unit :=
  Logger.log format ([.text "fifo_sequencer.h", .number line, .text "sequenceAndPublish", .text s.timeStr] ++ args)

def addClientRequest (s : FIFOSequencer) (rxTime : Nanos) (request : MEClientRequest) :
    Except Fault FIFOSequencer :=
  if s.pendingClientRequests.length ≤ s.pendingSize then .error (.fatal "Too many pending requests")
  else .ok { s with
    pendingClientRequests := s.pendingClientRequests.set s.pendingSize ⟨rxTime, request⟩
    pendingSize := s.pendingSize + 1 }

/-- The loop that writes the sorted requests to `incoming_requests_`. -/
def publish (s : FIFOSequencer) : List RecvTimeClientRequest → Except Fault (List MEClientRequest)
  | [] => pure []
  | clientRequest :: rest => do
    s.logAt 33 "%:% %() % Writing RX:% Req:% to FIFO.\n.\n"
      [.text (toString clientRequest.recvTime), .text clientRequest.request.toString]
    let written ← s.publish rest
    pure (clientRequest.request :: written)

def sequenceAndPublish (std : StdSort) (s : FIFOSequencer) :
    Except Fault (FIFOSequencer × List MEClientRequest) := do
  if s.pendingSize = 0 then pure (s, [])
  else
    s.logAt 28 "%:% %() % Processing % requests.\n" [.number s.pendingSize]
    let sorted := std.sort (s.pendingClientRequests.take s.pendingSize)
    let s := { s with
      pendingClientRequests := sorted ++ s.pendingClientRequests.drop s.pendingSize }
    let written ← s.publish (s.pendingClientRequests.take s.pendingSize)
    pure (s, written)

/-- The calls of `OrderServer::recvCallback` in one round. -/
def addAll (s : FIFOSequencer) (requests : List RecvTimeClientRequest) : Except Fault FIFOSequencer :=
  requests.foldlM (fun s r => s.addClientRequest r.recvTime r.request) s

/-- Rounds of the order server: requests arrive, then `recvFinishedCallback` publishes. The
result lists what each round wrote. -/
def runRounds (std : StdSort) (s : FIFOSequencer) :
    List (List RecvTimeClientRequest) → Except Fault (FIFOSequencer × List (List MEClientRequest))
  | [] => pure (s, [])
  | round :: rounds => do
    let s ← s.addAll round
    let (s, written) ← s.sequenceAndPublish std
    let (s, batches) ← runRounds std s rounds
    pure (s, written :: batches)

/-- Every round writes exactly the requests that were added in it. -/
def PublishesOnce (std : StdSort) (s : FIFOSequencer) (rounds : List (List RecvTimeClientRequest)) : Prop :=
  ∃ s' batches, s.runRounds std rounds = .ok (s', batches) ∧
    List.Forall₂ List.Perm batches (rounds.map fun round => round.map RecvTimeClientRequest.request)

/-- The first `pendingSize` places hold the requests `added` so far, in some order. -/
structure Holds (s : FIFOSequencer) (added : List RecvTimeClientRequest) : Prop where
  length : s.pendingClientRequests.length = ME_MAX_PENDING_REQUESTS
  size : s.pendingSize = added.length
  fits : added.length ≤ ME_MAX_PENDING_REQUESTS
  perm : (s.pendingClientRequests.take s.pendingSize).Perm added

lemma holds_fresh : Holds {} [] where
  length := List.length_replicate
  size := rfl
  fits := Nat.zero_le _
  perm := .refl _

variable {std : StdSort} {s s' : FIFOSequencer} {added : List RecvTimeClientRequest}

/-- A request is added behind the pending ones. -/
lemma addClientRequest_cases {r : RecvTimeClientRequest} (hrun : s.addClientRequest r.recvTime r.request = .ok s') :
    s.pendingSize < s.pendingClientRequests.length ∧ s'.pendingSize = s.pendingSize + 1 ∧
      s'.pendingClientRequests.length = s.pendingClientRequests.length ∧
      s'.pendingClientRequests.take s'.pendingSize = s.pendingClientRequests.take s.pendingSize ++ [r] := by
  unfold FIFOSequencer.addClientRequest at hrun
  split at hrun
  · cases hrun
  · rename_i hroom
    have hlt := Nat.not_le.mp hroom
    cases hrun
    refine ⟨hlt, rfl, List.length_set, ?_⟩
    rw [List.take_add_one, List.take_set_of_le (Nat.le_refl _), List.getElem?_set_self hlt]
    rfl

lemma Holds.addClientRequest (h : s.Holds added) {r : RecvTimeClientRequest}
    (hrun : s.addClientRequest r.recvTime r.request = .ok s') : s'.Holds (added ++ [r]) := by
  obtain ⟨hlt, hsize, hlength, htake⟩ := addClientRequest_cases hrun
  refine ⟨hlength.trans h.length, ?_, ?_, ?_⟩
  · rw [hsize, h.size, List.length_append, List.length_singleton]
  · rw [List.length_append, List.length_singleton, ← h.size, ← h.length]
    exact hlt
  · rw [htake]
    exact h.perm.append_right [r]

lemma Holds.addClientRequest_returns (h : s.Holds added) (r : RecvTimeClientRequest)
    (hroom : added.length < ME_MAX_PENDING_REQUESTS) :
    ∃ s', s.addClientRequest r.recvTime r.request = .ok s' := by
  unfold FIFOSequencer.addClientRequest
  rw [if_neg (by rw [h.length, h.size]; omega)]
  exact ⟨_, rfl⟩

lemma Holds.addAll (h : s.Holds added) {requests : List RecvTimeClientRequest}
    (hrun : s.addAll requests = .ok s') : s'.Holds (added ++ requests) := by
  induction requests generalizing s added with
  | nil =>
    cases hrun
    rwa [List.append_nil]
  | cons r requests ih =>
    simp only [FIFOSequencer.addAll, List.foldlM_cons] at hrun
    obtain ⟨s₁, hfirst, hrest⟩ := bind_eq_ok hrun
    have hall := ih (h.addClientRequest hfirst) hrest
    rwa [List.append_assoc, List.singleton_append] at hall

lemma Holds.addAll_returns (h : s.Holds added) {requests : List RecvTimeClientRequest}
    (hroom : added.length + requests.length ≤ ME_MAX_PENDING_REQUESTS) : ∃ s', s.addAll requests = .ok s' := by
  induction requests generalizing s added with
  | nil => exact ⟨s, rfl⟩
  | cons r requests ih =>
    rw [List.length_cons] at hroom
    obtain ⟨s₁, hfirst⟩ := h.addClientRequest_returns r (by omega)
    obtain ⟨s₂, hrest⟩ := ih (h.addClientRequest hfirst) (by simp; omega)
    refine ⟨s₂, ?_⟩
    simp only [FIFOSequencer.addAll, List.foldlM_cons, hfirst, ok_bind]
    exact hrest

lemma publish_eq (s : FIFOSequencer) (requests : List RecvTimeClientRequest) :
    s.publish requests = .ok (requests.map RecvTimeClientRequest.request) := by
  induction requests with
  | nil => rfl
  | cons r requests ih =>
    have hlog : s.logAt 33 "%:% %() % Writing RX:% Req:% to FIFO.\n.\n"
        [.text (toString r.recvTime), .text r.request.toString] = .ok () := Logger.log_eq_ok rfl
    rw [publish, hlog, ok_bind, ih, ok_bind, pure_eq_ok, List.map_cons]

/-- A publication sorts what is pending, and writes it. -/
lemma sequenceAndPublish_eq (std : StdSort) (hsize : s.pendingSize ≤ s.pendingClientRequests.length) :
    ∃ s', s.sequenceAndPublish std =
        .ok (s', (std.sort (s.pendingClientRequests.take s.pendingSize)).map RecvTimeClientRequest.request) ∧
      s'.pendingSize = s.pendingSize ∧ s'.pendingClientRequests.length = s.pendingClientRequests.length ∧
      s'.pendingClientRequests.take s'.pendingSize = std.sort (s.pendingClientRequests.take s.pendingSize) := by
  have hperm := std.perm (s.pendingClientRequests.take s.pendingSize)
  unfold FIFOSequencer.sequenceAndPublish
  by_cases hnone : s.pendingSize = 0
  · rw [hnone, List.take_zero] at hperm ⊢
    rw [List.perm_nil.mp hperm, if_pos rfl]
    refine ⟨s, rfl, hnone, rfl, ?_⟩
    rw [hnone, List.take_zero]
  · have hlog : s.logAt 28 "%:% %() % Processing % requests.\n" [.number s.pendingSize] = .ok () :=
      Logger.log_eq_ok rfl
    rw [if_neg hnone, hlog, ok_bind]
    generalize std.sort (s.pendingClientRequests.take s.pendingSize) = sorted at *
    have hlen : sorted.length = s.pendingSize := by
      rw [hperm.length_eq, List.length_take, Nat.min_eq_left hsize]
    have htake : (sorted ++ s.pendingClientRequests.drop s.pendingSize).take s.pendingSize = sorted := by
      rw [← hlen, List.take_left]
    simp only [publish_eq, htake]
    refine ⟨_, rfl, rfl, ?_, htake⟩
    rw [List.length_append, List.length_drop, hlen]
    exact Nat.add_sub_of_le hsize

/-- A round's publication writes everything that was ever added, and keeps it. -/
theorem Holds.sequenceAndPublish (h : s.Holds added) (std : StdSort) :
    ∃ s' written, s.sequenceAndPublish std = .ok (s', written) ∧ s'.Holds added ∧
      written.Perm (added.map RecvTimeClientRequest.request) := by
  have hle : s.pendingSize ≤ s.pendingClientRequests.length := by
    rw [h.length, h.size]
    exact h.fits
  obtain ⟨s', hrun, hsize, hlength, htake⟩ := sequenceAndPublish_eq std hle
  have hperm := (std.perm (s.pendingClientRequests.take s.pendingSize)).trans h.perm
  refine ⟨s', _, hrun, ⟨hlength.trans h.length, hsize.trans h.size, h.fits, ?_⟩, hperm.map _⟩
  rw [htake]
  exact hperm

/-- The rounds after `added` are published once just when there are none, or nothing was added
before the last of them. -/
theorem Holds.publishesOnce_iff (h : s.Holds added) (std : StdSort)
    {rounds : List (List RecvTimeClientRequest)}
    (hrounds : ∀ round ∈ rounds, round.length ≤ ME_MAX_PENDING_REQUESTS) :
    s.PublishesOnce std rounds ↔ rounds = [] ∨ (added = [] ∧ ∀ round ∈ rounds.dropLast, round = []) := by
  induction rounds generalizing s added with
  | nil => exact ⟨fun _ => .inl rfl, fun _ => ⟨s, [], rfl, .nil⟩⟩
  | cons round rounds ih =>
    have hrest : ∀ r ∈ rounds, r.length ≤ ME_MAX_PENDING_REQUESTS := fun r hr =>
      hrounds r (List.mem_cons_of_mem _ hr)
    constructor
    · rintro ⟨s', batches, hrun, hpublished⟩
      right
      obtain ⟨s₁, hadd, hrun⟩ := bind_eq_ok hrun
      have hholds := h.addAll hadd
      obtain ⟨s₂, written, hsequence, hholds₂, hwritten⟩ := hholds.sequenceAndPublish std
      obtain ⟨⟨_, _⟩, hsequence', hrun⟩ := bind_eq_ok hrun
      rw [hsequence] at hsequence'
      cases hsequence'
      obtain ⟨⟨s₃, batches'⟩, hrun', hresult⟩ := bind_eq_ok hrun
      cases hresult
      obtain ⟨hbatch, hbatches⟩ := List.forall₂_cons.mp hpublished
      have hnone : added = [] := by
        have hlen := (hwritten.symm.trans hbatch).length_eq
        simp only [List.length_map, List.length_append] at hlen
        exact List.length_eq_zero_iff.mp (by omega)
      subst hnone
      refine ⟨rfl, ?_⟩
      rcases (ih hholds₂ hrest).mp ⟨s', batches', hrun', hbatches⟩ with rfl | ⟨hround, hlater⟩
      · simp
      · cases rounds with
        | nil => simp
        | cons next rounds =>
          intro r hr
          rcases List.mem_cons.mp hr with rfl | hr
          · exact hround
          · exact hlater r hr
    · rintro (hnil | ⟨rfl, hempty⟩)
      · cases hnil
      have hroom : ([] : List RecvTimeClientRequest).length + round.length ≤ ME_MAX_PENDING_REQUESTS := by
        simpa using hrounds round List.mem_cons_self
      obtain ⟨s₁, hadd⟩ := h.addAll_returns hroom
      obtain ⟨s₂, written, hsequence, hholds, hwritten⟩ := (h.addAll hadd).sequenceAndPublish std
      have hlater : s₂.PublishesOnce std rounds := by
        apply (ih hholds hrest).mpr
        cases rounds with
        | nil => exact .inl rfl
        | cons next rounds =>
          refine .inr ⟨hempty round List.mem_cons_self, fun r hr => hempty r (List.mem_cons_of_mem _ hr)⟩
      obtain ⟨s₃, batches, hrun, hbatches⟩ := hlater
      refine ⟨s₃, written :: batches, ?_, .cons hwritten hbatches⟩
      simp only [runRounds, hadd, hsequence, hrun, ok_bind, pure_eq_ok]

end FIFOSequencer

/-- From a fresh sequencer, every round publishes exactly its own requests just when no round
but the last adds any. -/
theorem publishes_once_iff (std : StdSort) {rounds : List (List RecvTimeClientRequest)}
    (hrounds : ∀ round ∈ rounds, round.length ≤ ME_MAX_PENDING_REQUESTS) :
    FIFOSequencer.PublishesOnce std {} rounds ↔ ∀ round ∈ rounds.dropLast, round = [] := by
  rw [FIFOSequencer.holds_fresh.publishesOnce_iff std hrounds]
  constructor
  · rintro (rfl | ⟨-, hempty⟩)
    · simp
    · exact hempty
  · exact fun hempty => .inr ⟨rfl, hempty⟩

/-- One request in the first of two rounds, none in the second: it is written twice. -/
theorem publishes_once_fails : ¬FIFOSequencer.PublishesOnce StdSort.merge {} [[⟨10, {}⟩], []] := by
  intro h
  have hbounds : ∀ round ∈ ([[⟨10, {}⟩], []] : List (List RecvTimeClientRequest)),
      round.length ≤ ME_MAX_PENDING_REQUESTS := by decide
  rcases (FIFOSequencer.holds_fresh.publishesOnce_iff _ hbounds).mp h with hnil | ⟨-, hempty⟩
  · cases hnil
  · exact absurd (hempty [⟨10, {}⟩] (by simp)) (by simp)

/-- Two requests in the last round. -/
theorem publishes_once_last :
    FIFOSequencer.PublishesOnce StdSort.merge {} [[], [⟨20, {}⟩, ⟨10, {}⟩]] :=
  (publishes_once_iff StdSort.merge (by decide)).mpr (by decide)

end LowLatencyExchange
