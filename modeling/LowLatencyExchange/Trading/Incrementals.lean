import LowLatencyExchange.Trading.InSync
import Mathlib.Data.List.Infix

/-!
# Incremental messages during recovery

An incremental message that arrives in recovery is not queued, it only triggers the check.
So the updates after a snapshot reach the client exactly when they all arrive after its
`SNAPSHOT_END`, behind one older message that triggers the recovery.
-/

namespace LowLatencyExchange
open MarketDataConsumer LoggedRun

/-- An update as it arrives on the incremental socket, and the messages of a snapshot. -/
def incremental (update : Nat → MEMarketUpdate) (k : Nat) : Delivery := ⟨false, ⟨k, update k⟩⟩

def snapshotFrom (k : Nat) (us : List MEMarketUpdate) : List MDPMarketUpdate :=
  (us.zipIdx k).map fun p => ⟨p.2, p.1⟩

/-- A recovery from its trigger on, up to a check after the last message. -/
def MarketDataConsumer.recover (c : MarketDataConsumer) (ds : List Delivery) :
    Except Fault (MarketDataConsumer × List MEMarketUpdate) := do
  let (c, written) ← execute deliver c ds
  let (c, written') ← c.checkSnapshotSync Logger.silent
  pure (c, written ++ written')

namespace MarketDataConsumer
variable {c c' : MarketDataConsumer} {written : List MEMarketUpdate}

lemma deliver_queues (h : c.inRecovery = true) (message : MDPMarketUpdate) :
    c.deliver ⟨true, message⟩ =
      .ok ({ c with snapshotQueuedMsgs := enqueue c.snapshotQueuedMsgs message }, []) :=
  recvCallback_queues Logger.counts_silent h

lemma deliver_checks (h : c.inRecovery = true) (message : MDPMarketUpdate) :
    c.deliver ⟨false, message⟩ = c.checkSnapshotSync Logger.silent :=
  recvCallback_checks Logger.counts_silent h

/-- Until the `END` of a snapshot arrives its messages queue up, and incremental messages
change nothing. -/
theorem execute_open {ds : List Delivery} {done more : List MEMarketUpdate} (h : c.inRecovery = true)
    (hqueue : c.snapshotQueuedMsgs.entries = queued done)
    (hmore : (ds.filter Delivery.isSnapshot).map Delivery.message = snapshotFrom done.length more)
    (hstart : ∀ u, (done ++ more).head? = some u → u.type = .snapshotStart)
    (hopen : ∀ u ∈ done ++ more, u.type ≠ .snapshotEnd) :
    ∃ q, execute deliver c ds = .ok ({ c with snapshotQueuedMsgs := q }, []) ∧
      q.entries = queued (done ++ more) := by
  induction ds generalizing c done more with
  | nil =>
    obtain rfl : more = [] := by simpa [snapshotFrom] using hmore
    exact ⟨c.snapshotQueuedMsgs, rfl, by rwa [List.append_nil]⟩
  | cons d ds ih =>
    obtain ⟨isSnapshot, message⟩ := d
    cases isSnapshot with
    | true =>
      cases more with
      | nil => simp [snapshotFrom] at hmore
      | cons u more =>
        rw [List.filter_cons_of_pos rfl, List.map_cons, snapshotFrom, List.zipIdx_cons, List.map_cons,
          List.cons.injEq] at hmore
        obtain ⟨rfl, hmore⟩ := hmore
        have hlater : (ds.filter Delivery.isSnapshot).map Delivery.message =
            snapshotFrom (done ++ [u]).length more := by
          simpa [snapshotFrom] using hmore
        obtain ⟨q, hrun, hq⟩ := ih
          (c := { c with snapshotQueuedMsgs := enqueue c.snapshotQueuedMsgs ⟨done.length, u⟩ }) h
          (enqueue_queued done u hqueue) hlater (by simpa using hstart) (by simpa using hopen)
        exact ⟨q, execute_cons (deliver_queues h _) hrun, by simpa using hq⟩
    | false =>
      have hwaits : c.checkSnapshotSync Logger.silent = .ok (c, []) := by
        refine checkSnapshotSync_waits Logger.counts_silent ?_ (fun x hx => ?_) (fun x hx => ?_)
        · rw [hqueue, queued_fst, length_queued]
        · rw [hqueue] at hx
          apply hstart x.2
          have hhead : ((queued done).map Prod.snd).head? = some x.2 := by
            rw [List.head?_map, hx]
            rfl
          rw [queued_snd] at hhead
          rw [List.head?_append, hhead]
          rfl
        · rw [hqueue] at hx
          have hmem : x.2 ∈ (queued done).map Prod.snd := List.mem_map_of_mem (List.mem_of_getLast? hx)
          rw [queued_snd] at hmem
          exact hopen x.2 (List.mem_append_left _ hmem)
      rw [List.filter_cons_of_neg (by simp)] at hmore
      obtain ⟨q, hrun, hq⟩ := ih h hqueue hmore hstart hopen
      exact ⟨q, execute_cons ((deliver_checks h message).trans hwaits) hrun, hq⟩

/-- With nothing of a snapshot queued, a recovery goes on. -/
lemma execute_stuck (h : c.inRecovery = true) (hqueue : c.snapshotQueuedMsgs = .empty)
    (update : Nat → MEMarketUpdate) (ks : List Nat) :
    execute deliver c (ks.map (incremental update)) = .ok (c, []) := by
  have hcheck : c.checkSnapshotSync Logger.silent = .ok (c, []) := by
    simp only [checkSnapshotSync, hqueue, SortedMap.entries_empty, pure_eq_ok]
  induction ks with
  | nil => rfl
  | cons k ks ih => exact execute_cons ((deliver_checks h _).trans hcheck) ih

/-- The updates that follow without gap are handed out. -/
lemma execute_follows (h : c.inRecovery = false) (update : Nat → MEMarketUpdate) (len : Nat)
    (hlen : c.nextExpIncSeqInc + len < 18446744073709551616) :
    execute deliver c ((List.range' c.nextExpIncSeqInc len).map (incremental update)) =
      .ok ({ c with nextExpIncSeqInc := c.nextExpIncSeqInc + len },
        (List.range' c.nextExpIncSeqInc len).map update) := by
  induction len generalizing c with
  | zero => rfl
  | succ len ih =>
    have hstep : c.deliver (incremental update c.nextExpIncSeqInc) =
        .ok ({ c with nextExpIncSeqInc := wrap64 (c.nextExpIncSeqInc + 1) }, [update c.nextExpIncSeqInc]) :=
      recvCallback_forwards Logger.counts_silent h rfl
    rw [wrap64_of_lt (by omega)] at hstep
    have hrest := ih (c := { c with nextExpIncSeqInc := c.nextExpIncSeqInc + 1 }) h (by grind)
    rw [List.range'_succ, List.map_cons, List.map_cons]
    apply (execute_cons hstep hrest).trans
    simp only [List.singleton_append, Nat.add_assoc, Nat.add_comm 1 len]

/-- When incremental messages leave the consumer outside recovery, they followed without gap. -/
lemma execute_follows_inv (h : c.inRecovery = false) {update : Nat → MEMarketUpdate} {ks : List Nat}
    (hrun : execute deliver c (ks.map (incremental update)) = .ok (c', written))
    (hrecovered : c'.inRecovery = false) : written.length = ks.length ∧
      (c.nextExpIncSeqInc + ks.length < 18446744073709551616 →
        ks = List.range' c.nextExpIncSeqInc ks.length) := by
  induction ks generalizing c written with
  | nil =>
    cases hrun
    exact ⟨rfl, fun _ => rfl⟩
  | cons k ks ih =>
    obtain ⟨c₁, es₁, es₂, hstep, hrest, rfl⟩ := execute_cons_ok hrun
    by_cases hk : k = c.nextExpIncSeqInc
    · have hforward := recvCallback_forwards (m := ⟨k, update k⟩) Logger.counts_silent h hk
      obtain ⟨rfl, rfl⟩ : _ ∧ _ := by simpa [deliver, incremental, hforward] using hstep
      obtain ⟨hlen, hks⟩ := ih (c := { c with nextExpIncSeqInc := wrap64 (c.nextExpIncSeqInc + 1) }) h hrest
      refine ⟨by simp [hlen], fun hbound => ?_⟩
      rw [List.length_cons] at hbound ⊢
      have hwrap : wrap64 (c.nextExpIncSeqInc + 1) = c.nextExpIncSeqInc + 1 := wrap64_of_lt (by omega)
      simp only [hwrap] at hks
      rw [List.range'_succ, ← hks (by omega), hk]
    · -- a gap: from here on the consumer is stuck in a recovery
      have henter := recvCallback_enters (m := ⟨k, update k⟩) Logger.counts_silent h hk
      obtain ⟨rfl, rfl⟩ : _ ∧ _ := by simpa [deliver, incremental, henter] using hstep
      have hstuck := execute_stuck (c := c.entered) rfl rfl update ks
      rw [hstuck] at hrest
      cases hrest
      cases hrecovered

/-- Incremental messages queue nothing. -/
lemma execute_keeps_empty {update : Nat → MEMarketUpdate} {ks : List Nat}
    (hqueue : c.snapshotQueuedMsgs = .empty)
    (hrun : execute deliver c (ks.map (incremental update)) = .ok (c', written)) :
    c'.snapshotQueuedMsgs = .empty := by
  induction ks generalizing c written with
  | nil =>
    cases hrun
    exact hqueue
  | cons k ks ih =>
    obtain ⟨c₁, es₁, es₂, hstep, hrest, rfl⟩ := execute_cons_ok hrun
    refine ih ?_ hrest
    have hlog := Logger.counts_silent
    cases h : c.inRecovery with
    | true =>
      have hcheck : c.checkSnapshotSync Logger.silent = .ok (c, []) := by
        simp only [checkSnapshotSync, hqueue, SortedMap.entries_empty, pure_eq_ok]
      obtain ⟨rfl, -⟩ : _ ∧ _ := by simpa [incremental, deliver_checks h, hcheck] using hstep
      exact hqueue
    | false =>
      by_cases hk : k = c.nextExpIncSeqInc
      · have hforward := recvCallback_forwards (m := ⟨k, update k⟩) hlog h hk
        obtain ⟨rfl, -⟩ : _ ∧ _ := by simpa [deliver, incremental, hforward] using hstep
        exact hqueue
      · have henter := recvCallback_enters (m := ⟨k, update k⟩) hlog h hk
        obtain ⟨rfl, -⟩ : _ ∧ _ := by simpa [deliver, incremental, henter] using hstep
        rfl

end MarketDataConsumer

/-- What a recovery receives: after its trigger one snapshot, complete and in order, and the
incremental messages by increasing number, `n + 1` to `m` among them and none above. -/
structure Episode (c : MarketDataConsumer) (update : Nat → MEMarketUpdate) (body : List MEMarketUpdate)
    (n m trigger : Nat) (ds : List Delivery) : Prop where
  before : c.inRecovery = false
  gap : trigger ≠ c.nextExpIncSeqInc
  kinds : ∀ u ∈ body, u.type = .clear ∨ u.type = .add
  snapshot : (ds.filter Delivery.isSnapshot).map Delivery.message =
    snapshotFrom 0 (snapshotStart n :: body ++ [snapshotEnd n])
  incrementals : ∃ ks, ds.filter (fun d => !d.isSnapshot) = ks.map (incremental update) ∧
    (trigger :: ks).Pairwise (· < ·) ∧ (∀ k ∈ trigger :: ks, k ≤ m) ∧
    ∀ k, n < k → k ≤ m → k ∈ trigger :: ks
  later : n < m
  bound : m + 1 < 18446744073709551616

/-- What arrives after the last snapshot message. -/
def afterSnapshot (ds : List Delivery) : List Delivery :=
  (ds.reverse.takeWhile fun d => !d.isSnapshot).reverse

/-- The updates of the snapshot and then `n + 1` to `m` are handed out, and the recovery is
over. -/
def NoLoss (c : MarketDataConsumer) (update : Nat → MEMarketUpdate) (body : List MEMarketUpdate)
    (n m trigger : Nat) (ds : List Delivery) : Prop :=
  ∃ c', c.recover (incremental update trigger :: ds) =
      .ok (c', body ++ (List.range' (n + 1) (m - n)).map update) ∧
    c'.nextExpIncSeqInc = m + 1 ∧ c'.inRecovery = false

lemma incremental_injective (update : Nat → MEMarketUpdate) : Function.Injective (incremental update) :=
  fun _ _ h => congrArg (fun d : Delivery => d.message.seqNum) h

lemma afterSnapshot_split {before after : List Delivery} {d : Delivery} (hd : d.isSnapshot = true)
    (hafter : ∀ x ∈ after, x.isSnapshot = false) : afterSnapshot (before ++ d :: after) = after := by
  have hreverse : ∀ x ∈ after.reverse, (!x.isSnapshot) = true := fun x hx => by
    simp [hafter x (List.mem_reverse.mp hx)]
  rw [afterSnapshot, List.reverse_append, List.reverse_cons, List.append_assoc, List.singleton_append,
    List.takeWhile_append_of_pos hreverse, List.takeWhile_cons_of_neg (by simp [hd]), List.append_nil,
    List.reverse_reverse]

/-- A recovery up to its `SNAPSHOT_END`: the snapshot is queued, nothing was handed out, and the
rest are incremental messages by increasing number. -/
structure Collected (c₁ : MarketDataConsumer) (body : List MEMarketUpdate) (n : Nat) : Prop where
  recovering : c₁.inRecovery = true
  queue : c₁.snapshotQueuedMsgs.entries = queued (snapshotStart n :: body ++ [snapshotEnd n])
  noneQueued : c₁.incrementalQueuedMsgs = .empty

section Episodes
variable {c : MarketDataConsumer} {update : Nat → MEMarketUpdate} {body : List MEMarketUpdate}
  {n m trigger : Nat} {ds : List Delivery}

/-- The snapshot's messages and the later incremental messages. -/
lemma Episode.split (h : Episode c update body n m trigger ds) : ∃ (before : List Delivery) (ks : List Nat),
    ds = before ++ ⟨true, ⟨body.length + 1, snapshotEnd n⟩⟩ :: ks.map (incremental update) ∧
    (before.filter Delivery.isSnapshot).map Delivery.message = snapshotFrom 0 (snapshotStart n :: body) ∧
    ks.Pairwise (· < ·) := by
  have hsnapshot := h.snapshot
  have hend : snapshotFrom 0 (snapshotStart n :: body ++ [snapshotEnd n]) =
      snapshotFrom 0 (snapshotStart n :: body) ++ [⟨body.length + 1, snapshotEnd n⟩] := by
    simp [snapshotFrom, List.zipIdx_append, Nat.add_comm]
  rw [hend] at hsnapshot
  obtain ⟨open_, last, hfilter, hopen, hlast⟩ := List.map_eq_append_iff.mp hsnapshot
  obtain ⟨d, rfl, hd⟩ := List.map_eq_singleton_iff.mp hlast
  obtain ⟨early, late, rfl, hearly, hlate⟩ := List.filter_eq_append_iff.mp hfilter
  obtain ⟨between, after, rfl, hbetween, hsnap, hafter⟩ := List.filter_eq_cons_iff.mp hlate
  obtain ⟨ks, hks, hsorted, -⟩ := h.incrementals
  have hincremental : after = after.filter fun d => !d.isSnapshot := by
    refine (List.filter_eq_self.mpr fun x hx => ?_).symm
    simpa using List.filter_eq_nil_iff.mp hafter x hx
  have hall : (early ++ between).filter (fun d => !d.isSnapshot) ++ after = ks.map (incremental update) := by
    rw [← hks, hincremental]
    simp [List.filter_append, hsnap]
  obtain ⟨ks₁, ks₂, rfl, -, hks₂⟩ := List.map_eq_append_iff.mp hall.symm
  refine ⟨early ++ between, ks₂, ?_, ?_, ?_⟩
  · obtain ⟨isSnapshot, message⟩ := d
    obtain rfl : isSnapshot = true := hsnap
    obtain rfl : message = ⟨body.length + 1, snapshotEnd n⟩ := hd
    rw [hks₂, List.append_assoc]
  · have hnone : between.filter Delivery.isSnapshot = [] :=
      List.filter_eq_nil_iff.mpr fun x hx => by simpa using hbetween x hx
    rw [List.filter_append, hnone, List.append_nil, hearly, hopen]
  · exact (List.pairwise_append.mp (List.pairwise_cons.mp hsorted).2).2.1

/-- Up to `SNAPSHOT_END`. -/
lemma Episode.collect (h : Episode c update body n m trigger ds) {before : List Delivery}
    (hbefore : (before.filter Delivery.isSnapshot).map Delivery.message =
      snapshotFrom 0 (snapshotStart n :: body)) :
    ∃ c₁, Collected c₁ body n ∧ execute deliver c (incremental update trigger ::
      (before ++ [⟨true, ⟨body.length + 1, snapshotEnd n⟩⟩])) = .ok (c₁, []) := by
  have henter : c.deliver (incremental update trigger) = .ok (c.entered, []) :=
    recvCallback_enters Logger.counts_silent h.before h.gap
  have hopen : ∀ u ∈ [] ++ snapshotStart n :: body, u.type ≠ .snapshotEnd := by
    intro u hu
    rcases List.mem_cons.mp hu with rfl | hu
    · simp [snapshotStart]
    · rcases h.kinds u hu with htype | htype <;> simp [htype]
  have hempty : c.entered.snapshotQueuedMsgs.entries = queued [] := rfl
  obtain ⟨q, hrun, hq⟩ := execute_open (c := c.entered) rfl hempty hbefore
    (fun u hu => by obtain rfl : snapshotStart n = u := by simpa using hu
                    rfl) hopen
  have hlast := deliver_queues (c := { c.entered with snapshotQueuedMsgs := q }) rfl
    ⟨body.length + 1, snapshotEnd n⟩
  refine ⟨_, ⟨rfl, ?_, rfl⟩, execute_cons henter (execute_append hrun (execute_cons hlast rfl))⟩
  exact enqueue_queued (snapshotStart n :: body) (snapshotEnd n) hq

/-- The first check after `SNAPSHOT_END` hands out the snapshot. -/
lemma Collected.check {c₁ : MarketDataConsumer} (h : Collected c₁ body n)
    (hkinds : ∀ u ∈ body, u.type = .clear ∨ u.type = .add) :
    c₁.checkSnapshotSync Logger.silent = .ok (c₁.recovered (snapshotEnd n), body) := by
  have hforwarded : ∀ u ∈ body, u.forwarded = true := fun u hu => by
    rcases hkinds u hu with htype | htype <;> simp [MEMarketUpdate.forwarded, htype]
  have hlast : c₁.snapshotQueuedMsgs.entries.getLast? = some ((snapshotStart n :: body).length, snapshotEnd n) := by
    rw [h.queue, queued_append, List.getLast?_concat]
  have hcomplete : IsComplete c₁.snapshotQueuedMsgs.entries := h.queue ▸ isComplete_queued rfl rfl
  rw [checkSnapshotSync_complete Logger.counts_silent hcomplete h.noneQueued hlast, h.queue, queued_snd,
    filter_forwarded hforwarded]
  rfl

lemma check_empty {c₁ : MarketDataConsumer} (h : c₁.snapshotQueuedMsgs = .empty) :
    c₁.checkSnapshotSync Logger.silent = .ok (c₁, []) := by
  simp only [checkSnapshotSync, h, SortedMap.entries_empty, pure_eq_ok]

/-- After `SNAPSHOT_END`: one message that triggers the recovery, and exactly the updates
that follow the snapshot. -/
lemma Collected.noLoss_iff {c₁ : MarketDataConsumer} (h : Collected c₁ body n)
    (hkinds : ∀ u ∈ body, u.type = .clear ∨ u.type = .add) (hlater : n < m)
    (hbound : m + 1 < 18446744073709551616) (ks : List Nat) :
    (∃ c', c₁.recover (ks.map (incremental update)) =
        .ok (c', body ++ (List.range' (n + 1) (m - n)).map update) ∧
      c'.nextExpIncSeqInc = m + 1 ∧ c'.inRecovery = false) ↔
    ∃ k, ks = k :: List.range' (n + 1) (m - n) := by
  have hcheck := h.check hkinds
  have hnext : (c₁.recovered (snapshotEnd n)).nextExpIncSeqInc = n + 1 :=
    wrap64_of_lt (show n + 1 < 18446744073709551616 by omega)
  constructor
  · rintro ⟨c', hrecover, -, hrecovered⟩
    obtain ⟨⟨c₂, es⟩, hexecute, hlast⟩ := bind_eq_ok hrecover
    obtain ⟨⟨c₃, es'⟩, hfinal, hresult⟩ := bind_eq_ok hlast
    obtain ⟨rfl, hwritten⟩ : c₃ = c' ∧ es ++ es' = body ++ (List.range' (n + 1) (m - n)).map update := by
      simpa using hresult
    cases ks with
    | nil =>
      cases hexecute
      rw [hcheck] at hfinal
      cases hfinal
      have hlen := congrArg List.length hwritten
      simp at hlen
      omega
    | cons k ks =>
      obtain ⟨c₄, es₁, es₂, hfirst, hrest, rfl⟩ := execute_cons_ok hexecute
      rw [incremental, deliver_checks h.recovering, hcheck] at hfirst
      cases hfirst
      have hqueue := execute_keeps_empty rfl hrest
      rw [check_empty hqueue] at hfinal
      cases hfinal
      obtain ⟨hlen, hks⟩ := execute_follows_inv rfl hrest hrecovered
      have hwritten' : es₂ = (List.range' (n + 1) (m - n)).map update := by simpa using hwritten
      have hcount : ks.length = m - n := by rw [← hlen, hwritten', List.length_map, List.length_range']
      rw [hnext, hcount] at hks
      exact ⟨k, by rw [hks (by omega)]⟩
  · rintro ⟨k, rfl⟩
    have hfirst : c₁.deliver (incremental update k) = .ok (c₁.recovered (snapshotEnd n), body) :=
      (deliver_checks h.recovering _).trans hcheck
    have hrest := execute_follows (c := c₁.recovered (snapshotEnd n)) rfl update (m - n)
      (by rw [hnext]; omega)
    rw [hnext] at hrest
    refine ⟨{ c₁.recovered (snapshotEnd n) with nextExpIncSeqInc := n + 1 + (m - n) }, ?_, ?_, rfl⟩
    · rw [MarketDataConsumer.recover, List.map_cons, execute_cons hfirst hrest]
      simp only [ok_bind]
      rw [check_empty rfl, ok_bind, pure_eq_ok, List.append_nil]
    · show n + 1 + (m - n) = m + 1
      omega

/-- Nothing is lost exactly when what arrives after the snapshot is one message numbered at most
`n`, and then `n + 1` to `m`. -/
theorem no_loss_iff (h : Episode c update body n m trigger ds) :
    NoLoss c update body n m trigger ds ↔ ∃ k ≤ n,
      afterSnapshot ds = (k :: List.range' (n + 1) (m - n)).map (incremental update) := by
  obtain ⟨before, ks, rfl, hbefore, hsorted⟩ := h.split
  obtain ⟨c₁, hc₁, hrun₁⟩ := h.collect hbefore
  have hafter : afterSnapshot (before ++ ⟨true, ⟨body.length + 1, snapshotEnd n⟩⟩ ::
      ks.map (incremental update)) = ks.map (incremental update) := by
    apply afterSnapshot_split rfl
    intro x hx
    obtain ⟨k, -, rfl⟩ := List.mem_map.mp hx
    rfl
  have hsplit : c.recover (incremental update trigger ::
      (before ++ ⟨true, ⟨body.length + 1, snapshotEnd n⟩⟩ :: ks.map (incremental update))) =
      c₁.recover (ks.map (incremental update)) := by
    have hlist : incremental update trigger :: (before ++ ⟨true, ⟨body.length + 1, snapshotEnd n⟩⟩ ::
        ks.map (incremental update)) = (incremental update trigger ::
          (before ++ [⟨true, ⟨body.length + 1, snapshotEnd n⟩⟩])) ++ ks.map (incremental update) := by simp
    rw [hlist, MarketDataConsumer.recover, MarketDataConsumer.recover, execute_append_eq hrun₁]
    cases execute deliver c₁ (ks.map (incremental update)) <;> simp
  rw [NoLoss, hsplit, hc₁.noLoss_iff h.kinds h.later h.bound, hafter]
  constructor
  · rintro ⟨k, rfl⟩
    refine ⟨k, ?_, rfl⟩
    have hlt := (List.pairwise_cons.mp hsorted).1 (n + 1)
      (List.mem_range'_1.mpr ⟨Nat.le_refl _, by have := h.later; omega⟩)
    omega
  · rintro ⟨k, -, hks⟩
    exact ⟨k, List.map_injective_iff.mpr (incremental_injective update) hks⟩

end Episodes

/-- What a client is handed of the snapshot of one order. -/
def loneBody (qty : Qty) : List MEMarketUpdate := ((loneSnapshot 0 qty).drop 1).dropLast

/-- A snapshot after `n` updates, and then incremental messages. -/
def lateDeliveries (n : Nat) (qty : Qty) (ks : List Nat) : List Delivery :=
  snapshotDeliveries (loneSnapshot n qty) ++ ks.map (incremental shrinkingFeed.update)

/-- Update 1 is lost, update 2 enters recovery, and update 3 arrives after the snapshot of update
1. Neither 2 nor 3 is handed out. -/
theorem no_loss_fails :
    Episode {} shrinkingFeed.update (loneBody 10) 1 3 2 (lateDeliveries 1 10 [3]) ∧
      ¬NoLoss {} shrinkingFeed.update (loneBody 10) 1 3 2 (lateDeliveries 1 10 [3]) := by
  refine ⟨⟨rfl, by decide, by decide, rfl, ⟨[3], rfl, by decide, by decide, ?_⟩, by decide, by decide⟩, ?_⟩
  · intro k hlow hhigh
    have hk : k = 2 ∨ k = 3 := by omega
    simpa using hk
  · rintro ⟨c', hrun, -, -⟩
    have hlost : ∃ c₁, MarketDataConsumer.recover {} (incremental shrinkingFeed.update 2 ::
        lateDeliveries 1 10 [3]) = .ok (c₁, loneBody 10) := ⟨_, rfl⟩
    obtain ⟨c₁, hlost⟩ := hlost
    rw [hlost] at hrun
    simp at hrun

/-- After a snapshot of updates 1 to 3 the late update 3 is the one to spare. -/
theorem no_loss_late : NoLoss {} shrinkingFeed.update (loneBody 5) 3 4 2 (lateDeliveries 3 5 [3, 4]) := by
  have hepisode : Episode {} shrinkingFeed.update (loneBody 5) 3 4 2 (lateDeliveries 3 5 [3, 4]) := by
    refine ⟨rfl, by decide, by decide, rfl, ⟨[3, 4], rfl, by decide, by decide, ?_⟩, by decide, by decide⟩
    intro k hlow hhigh
    obtain rfl : k = 4 := by omega
    decide
  exact (no_loss_iff hepisode).mpr ⟨3, by decide, rfl⟩

end LowLatencyExchange
