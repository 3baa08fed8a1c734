import LowLatencyExchange.Trading.MarketDataConsumer

/-!
# What the completeness test does

One specification for each function of the consumer. They hold for the real logger as well
as for a silent one, since every call but the last one of a recovery passes as many arguments
as its format takes.
-/

namespace LowLatencyExchange

namespace MarketDataConsumer

/-- The completeness test: numbered `0, 1, 2, …`, first a `START`, last an `END`. -/
structure IsComplete (entries : List (Nat × MEMarketUpdate)) : Prop where
  numbers : entries.map Prod.fst = List.range entries.length
  start : ∃ x, entries.head? = some x ∧ x.2.type = .snapshotStart
  finish : ∃ x, entries.getLast? = some x ∧ x.2.type = .snapshotEnd

variable {log : Log} {c : MarketDataConsumer}

lemma logAt_ok (hlog : log.Counts) {line : Nat} {function format : String} {args : List LogValue}
    (h : Logger.placeholders format.toList = args.length + 4) :
    c.logAt log line function format args = .ok () := by
  refine hlog _ _ (h.trans ?_)
  rw [List.length_append, Nat.add_comm]
  rfl

lemma scanSnapshot_eq (hlog : log.Counts) (entries : List (Nat × MEMarketUpdate)) (k : Nat) :
    c.scanSnapshot log entries k =
      .ok (if entries.map Prod.fst = List.range' k entries.length then
        some ((entries.map Prod.snd).filter MEMarketUpdate.forwarded) else none) := by
  induction entries generalizing k with
  | nil => rfl
  | cons x entries ih =>
    obtain ⟨seq, u⟩ := x
    rw [scanSnapshot, logAt_ok hlog rfl, ok_bind]
    by_cases hseq : seq = k
    · subst hseq
      rw [if_neg (by simp), ih, ok_bind, pure_eq_ok, List.length_cons, List.range'_succ, List.map_cons,
        List.map_cons]
      simp only [List.cons.injEq, true_and, List.filter_cons]
      split <;> split <;> rfl
    · rw [if_pos hseq, logAt_ok hlog rfl, ok_bind, pure_eq_ok, List.length_cons, List.range'_succ,
        List.map_cons, if_neg]
      simp [hseq]

/-- The consumer once it has recovered from the snapshot that ends with `last`. -/
def recovered (c : MarketDataConsumer) (last : MEMarketUpdate) : MarketDataConsumer :=
  { c with
    nextExpIncSeqInc := wrap64 (last.orderId + 1), inRecovery := false
    snapshotQueuedMsgs := .empty, incrementalQueuedMsgs := .empty }

/-- A complete snapshot is handed out, unless the last call of the logger ends the process. -/
theorem checkSnapshotSync_complete (hlog : log.Counts) (h : IsComplete c.snapshotQueuedMsgs.entries)
    (hincremental : c.incrementalQueuedMsgs = .empty) {last : Nat × MEMarketUpdate}
    (hlast : c.snapshotQueuedMsgs.entries.getLast? = some last) :
    c.checkSnapshotSync log = (do
      c.logAt log 186 "checkSnapshotSync" "%:% %() % Recovered snapshot and % incremental orders.\n"
        [.number (c.snapshotQueuedMsgs.entries.length - 2), .number 0]
      pure (c.recovered last.2,
        (c.snapshotQueuedMsgs.entries.map Prod.snd).filter MEMarketUpdate.forwarded)) := by
  obtain ⟨hnumbers, ⟨x, hx, hstart⟩, ⟨y, hy, hend⟩⟩ := h
  obtain rfl : last = y := by simpa [hlast] using hy
  unfold checkSnapshotSync
  cases he : c.snapshotQueuedMsgs.entries with
  | nil => simp [he] at hx
  | cons first rest =>
    rw [he] at hnumbers hx hlast
    obtain rfl : first = x := by simpa using hx
    have hnumbers' : (first :: rest).map Prod.fst = List.range' 0 (first :: rest).length := by
      rw [hnumbers, List.range_eq_range']
    rw [List.getLast?_cons, Option.some.injEq] at hlast
    simp only [ne_eq, hstart, not_true_eq_false, if_false, scanSnapshot_eq hlog, hnumbers', if_true, ok_bind,
      hlast, hend, hincremental, SortedMap.entries_empty, scanIncrementals, pure_eq_ok, List.append_nil,
      Bool.true_eq_false]
    rfl

/-- Without a complete snapshot nothing is handed out, and the queue stays or is dropped. -/
theorem checkSnapshotSync_incomplete (hlog : log.Counts) (h : ¬IsComplete c.snapshotQueuedMsgs.entries) :
    ∃ q, c.checkSnapshotSync log = .ok ({ c with snapshotQueuedMsgs := q }, []) ∧
      (q = c.snapshotQueuedMsgs ∨ q = .empty) := by
  unfold checkSnapshotSync
  cases he : c.snapshotQueuedMsgs.entries with
  | nil => exact ⟨c.snapshotQueuedMsgs, rfl, .inl rfl⟩
  | cons first rest =>
    rw [he] at h
    by_cases hstart : first.2.type = .snapshotStart
    · simp only [ne_eq, hstart, not_true_eq_false, if_false, scanSnapshot_eq hlog, ok_bind]
      by_cases hnumbers : (first :: rest).map Prod.fst = List.range' 0 (first :: rest).length
      · have hend : (rest.getLast?.getD first).2.type ≠ .snapshotEnd := by
          intro hend
          refine h ⟨by rw [hnumbers, List.range_eq_range'], ⟨first, rfl, hstart⟩, _, ?_, hend⟩
          rw [List.getLast?_cons]
        simp only [hnumbers, if_true, hend, not_false_eq_true]
        rw [logAt_ok hlog rfl]
        exact ⟨c.snapshotQueuedMsgs, rfl, .inl rfl⟩
      · simp only [hnumbers, if_false]
        rw [logAt_ok hlog rfl]
        exact ⟨.empty, rfl, .inr rfl⟩
    · simp only [ne_eq, hstart, not_false_eq_true, if_true]
      rw [logAt_ok hlog rfl]
      exact ⟨.empty, rfl, .inr rfl⟩

/-- The beginning of a snapshot stays queued until its `END` arrives. -/
theorem checkSnapshotSync_waits (hlog : log.Counts)
    (hnumbers : c.snapshotQueuedMsgs.entries.map Prod.fst = List.range c.snapshotQueuedMsgs.entries.length)
    (hstart : ∀ x, c.snapshotQueuedMsgs.entries.head? = some x → x.2.type = .snapshotStart)
    (hend : ∀ x, c.snapshotQueuedMsgs.entries.getLast? = some x → x.2.type ≠ .snapshotEnd) :
    c.checkSnapshotSync log = .ok (c, []) := by
  unfold checkSnapshotSync
  cases he : c.snapshotQueuedMsgs.entries with
  | nil => rfl
  | cons first rest =>
    rw [he] at hnumbers hstart hend
    rw [List.range_eq_range'] at hnumbers
    have hlast := hend _ List.getLast?_cons
    simp only [ne_eq, hstart first rfl, not_true_eq_false, if_false, scanSnapshot_eq hlog, ok_bind, hnumbers,
      if_true, hlast, not_false_eq_true]
    rw [logAt_ok hlog rfl]
    rfl

/-- The queue after a snapshot message: a number that is there already starts it afresh. -/
def enqueue (q : QueuedMarketUpdates) (message : MDPMarketUpdate) : QueuedMarketUpdates :=
  (if q.contains message.seqNum then .empty else q).insert message.seqNum message.meMarketUpdate

/-- The consumer as a gap has just put it into recovery. -/
def entered (c : MarketDataConsumer) : MarketDataConsumer :=
  { c with inRecovery := true, snapshotQueuedMsgs := .empty, incrementalQueuedMsgs := .empty }

@[simp] lemma recvMessages_nil (isSnapshot : Bool) :
    recvMessages log isSnapshot [] c = .ok (c, []) := rfl

lemma recvCallback_eq {isSnapshot : Bool} (h : isSnapshot = false ∨ c.inRecovery = true)
    (requests : List MDPMarketUpdate) :
    c.recvCallback log isSnapshot requests = recvMessages log isSnapshot requests c := by
  unfold recvCallback
  rcases h with h | h <;> simp [h]

/-- The queue that holds the messages of a snapshot from its beginning on. -/
def queued (us : List MEMarketUpdate) : List (Nat × MEMarketUpdate) := us.zipIdx.map Prod.swap

section Queued
variable (us : List MEMarketUpdate) (u : MEMarketUpdate)

lemma queued_append : queued (us ++ [u]) = queued us ++ [(us.length, u)] := by
  simp [queued, List.zipIdx_append]

@[simp] lemma length_queued : (queued us).length = us.length := by simp [queued]

@[simp] lemma queued_snd : (queued us).map Prod.snd = us := by
  simp [queued, Function.comp_def]

lemma queued_fst : (queued us).map Prod.fst = List.range us.length := by
  simp [queued, Function.comp_def, List.range_eq_range']

lemma queued_sorted : (queued us).Pairwise fun x y => x.1 < y.1 := by
  have h : ((queued us).map Prod.fst).Pairwise (· < ·) := queued_fst us ▸ List.pairwise_lt_range
  exact List.pairwise_map.mp h

lemma mem_queued {x : Nat × MEMarketUpdate} : x ∈ queued us ↔ us[x.1]? = some x.2 := by
  obtain ⟨i, v⟩ := x
  simp only [queued, List.mem_map, Prod.exists, Prod.swap_prod_mk, Prod.mk.injEq]
  constructor
  · rintro ⟨w, j, hmem, rfl, rfl⟩
    exact List.mem_zipIdx_iff_getElem?.mp hmem
  · exact fun h => ⟨v, i, List.mem_zipIdx_iff_getElem?.mpr h, rfl, rfl⟩

/-- The next message of a snapshot joins the queue at its end. -/
lemma enqueue_queued {q : QueuedMarketUpdates} (h : q.entries = queued us) :
    (enqueue q ⟨us.length, u⟩).entries = queued (us ++ [u]) := by
  have hfresh : q.contains us.length = false := by
    apply Bool.eq_false_iff.mpr
    intro hc
    obtain ⟨v, hv⟩ := SortedMap.contains_iff.mp hc
    rw [h, mem_queued] at hv
    simp at hv
  apply SortedMap.entries_eq_of_mem (queued_sorted _)
  intro x
  rw [enqueue, hfresh, if_neg Bool.false_ne_true, SortedMap.mem_insert_of_fresh hfresh, h, queued_append,
    List.mem_append, List.mem_singleton, or_comm]

/-- A whole snapshot in its order passes the test. -/
lemma isComplete_queued {body : List MEMarketUpdate} {first last : MEMarketUpdate}
    (hfirst : first.type = .snapshotStart) (hlast : last.type = .snapshotEnd) :
    IsComplete (queued (first :: body ++ [last])) where
  numbers := by rw [queued_fst, length_queued]
  start := ⟨(0, first), rfl, hfirst⟩
  finish := ⟨_, by rw [queued_append, List.getLast?_concat], hlast⟩

end Queued

section Receive
variable (hlog : log.Counts) {m : MDPMarketUpdate}
include hlog

lemma queueMessage_snapshot : c.queueMessage log true m =
    .ok ({ c with snapshotQueuedMsgs := enqueue c.snapshotQueuedMsgs m }, []) := by
  simp only [queueMessage, enqueue, if_true]
  split
  · rw [logAt_ok hlog rfl]
    rfl
  · rfl

lemma queueMessage_incremental : c.queueMessage log false m = c.checkSnapshotSync log := by
  simp only [queueMessage, Bool.false_eq_true, if_false]
  rw [logAt_ok hlog rfl, ok_bind]

lemma recvMessage_inRecovery (hrecovery : c.inRecovery = true) (isSnapshot : Bool) :
    c.recvMessage log isSnapshot m = c.queueMessage log isSnapshot m := by
  rw [recvMessage, logAt_ok hlog rfl, ok_bind]
  simp only [hrecovery, Bool.true_or, if_true, Bool.not_true, Bool.false_eq_true, if_false, pure_eq_ok, ok_bind]
  cases c
  simp_all

/-- The five things one message can do. -/
lemma recvCallback_discards (hrecovery : c.inRecovery = false) (requests : List MDPMarketUpdate) :
    c.recvCallback log true requests = .ok (c, []) := by
  simp only [recvCallback, hrecovery, Bool.not_false, Bool.and_self, if_true]
  rw [logAt_ok hlog rfl]
  rfl

lemma recvCallback_queues (hrecovery : c.inRecovery = true) : c.recvCallback log true [m] =
    .ok ({ c with snapshotQueuedMsgs := enqueue c.snapshotQueuedMsgs m }, []) := by
  rw [recvCallback_eq (.inr hrecovery), recvMessages, recvMessage_inRecovery hlog hrecovery,
    queueMessage_snapshot hlog]
  rfl

lemma recvCallback_checks (hrecovery : c.inRecovery = true) :
    c.recvCallback log false [m] = c.checkSnapshotSync log := by
  rw [recvCallback_eq (.inl rfl), recvMessages, recvMessage_inRecovery hlog hrecovery,
    queueMessage_incremental hlog]
  cases c.checkSnapshotSync log <;> simp

lemma recvCallback_enters (hrecovery : c.inRecovery = false)
    (hgap : m.seqNum ≠ c.nextExpIncSeqInc) :
    c.recvCallback log false [m] = .ok (c.entered, []) := by
  rw [recvCallback_eq (.inl rfl), recvMessages, recvMessage, logAt_ok hlog rfl, ok_bind]
  simp only [hrecovery, hgap, ne_eq, not_false_eq_true, decide_true, Bool.or_true, Bool.not_false, if_true]
  rw [logAt_ok hlog rfl]
  simp only [pure_eq_ok, ok_bind]
  rw [queueMessage_incremental hlog]
  rfl

lemma recvCallback_forwards (hrecovery : c.inRecovery = false)
    (hnext : m.seqNum = c.nextExpIncSeqInc) :
    c.recvCallback log false [m] =
      .ok ({ c with nextExpIncSeqInc := wrap64 (c.nextExpIncSeqInc + 1) }, [m.meMarketUpdate]) := by
  rw [recvCallback_eq (.inl rfl), recvMessages, recvMessage, logAt_ok hlog rfl, ok_bind]
  simp only [hrecovery, hnext, ne_eq, not_true_eq_false, decide_false, Bool.or_false, Bool.false_eq_true,
    if_false, Bool.not_false, if_true]
  rw [logAt_ok hlog rfl]
  simp

/-- A buffer of messages is received like its messages one by one. -/
theorem recvCallback_cons (isSnapshot : Bool) (request : MDPMarketUpdate)
    (requests : List MDPMarketUpdate) :
    c.recvCallback log isSnapshot (request :: requests) = (do
      let (c, written) ← c.recvCallback log isSnapshot [request]
      let (c, written') ← c.recvCallback log isSnapshot requests
      pure (c, written ++ written')) := by
  by_cases hdiscard : isSnapshot = true ∧ c.inRecovery = false
  · obtain ⟨rfl, hrecovery⟩ := hdiscard
    simp only [recvCallback_discards hlog hrecovery, ok_bind, pure_eq_ok, List.append_nil]
  · have hmode : isSnapshot = false ∨ c.inRecovery = true := by
      cases isSnapshot <;> cases hr : c.inRecovery <;> simp_all
    rw [recvCallback_eq hmode, recvCallback_eq hmode, recvMessages, recvMessages]
    cases hrun : c.recvMessage log isSnapshot request with
    | error e => rfl
    | ok r =>
      -- a snapshot message does not end a recovery
      have hmode' : isSnapshot = false ∨ r.1.inRecovery = true := by
        cases isSnapshot with
        | false => exact .inl rfl
        | true =>
          have hrecovery := hmode.resolve_left (by simp)
          rw [recvMessage_inRecovery hlog hrecovery, queueMessage_snapshot hlog] at hrun
          cases hrun
          exact .inr hrecovery
      simp [recvMessages, recvCallback_eq hmode']

end Receive

end MarketDataConsumer

/-- A message, and the socket it arrives on. -/
structure Delivery where
  isSnapshot : Bool
  message : MDPMarketUpdate

/-- One message arrives, and logging has no effect. -/
def MarketDataConsumer.deliver (c : MarketDataConsumer) (d : Delivery) :
    Except Fault (MarketDataConsumer × List MEMarketUpdate) :=
  c.recvCallback Logger.silent d.isSnapshot [d.message]

end LowLatencyExchange
