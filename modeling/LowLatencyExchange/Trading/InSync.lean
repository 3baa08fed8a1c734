import LowLatencyExchange.Library.Run
import LowLatencyExchange.MarketData.Snapshot
import LowLatencyExchange.Trading.Recovery

/-!
# A consumer that is not in recovery is in sync

Deliveries of incremental messages and of snapshot messages, in any order and with any
losses. What the consumer has handed out leads to the publisher's map at its next expected
number, as long as no check takes a queue that mixes two snapshots for one. The messages of
two snapshots share one queue and are told apart by their position only, so such a mixture
can pass the completeness test: the last section follows one.
-/

namespace LowLatencyExchange
open MarketDataConsumer LoggedRun

/-- The publisher's updates, from number 1 on. -/
structure Feed where
  update : Nat → MEMarketUpdate
  inTable : ∀ k, OrderMap.InTable (update k)

namespace Feed

/-- The map after the first `n` updates. -/
def after (U : Feed) (n : Nat) : OrderMap :=
  OrderMap.empty.applyAll ((List.range n).map fun k => U.update (k + 1))

/-- The snapshot that is published after `n` updates. -/
def snapshot (U : Feed) (n : Nat) : List MEMarketUpdate := (U.after n).snapshot n

lemma after_succ (U : Feed) (n : Nat) : U.after (n + 1) = (U.after n).apply (U.update (n + 1)) := by
  simp [after, List.range_succ]

lemma after_proper (U : Feed) (n : Nat) : (U.after n).Proper := by
  apply OrderMap.proper_empty.applyAll
  intro u hu
  obtain ⟨k, -, rfl⟩ := List.mem_map.mp hu
  exact U.inTable (k + 1)

end Feed

/-- The message is one of a published snapshot, or of the incremental stream. -/
def Feed.Sends (U : Feed) (d : Delivery) : Prop :=
  if d.isSnapshot then
    ∃ n, n + 1 < 18446744073709551616 ∧
      (U.snapshot n)[d.message.seqNum]? = some d.message.meMarketUpdate
  else d.message.seqNum + 1 < 18446744073709551616 ∧ d.message.meMarketUpdate = U.update d.message.seqNum

lemma Feed.sends_update (U : Feed) {k : Nat} (hk : k + 1 < 18446744073709551616) :
    U.Sends ⟨false, ⟨k, U.update k⟩⟩ := ⟨hk, rfl⟩

/-- When an incremental message triggers the check and the queued snapshot passes for complete,
its messages are those of one snapshot. -/
def OneSnapshot (U : Feed) (c : MarketDataConsumer) (d : Delivery) : Prop :=
  d.isSnapshot = false → c.inRecovery = true → IsComplete c.snapshotQueuedMsgs.entries →
    ∃ n, n + 1 < 18446744073709551616 ∧
      ∀ x ∈ c.snapshotQueuedMsgs.entries, (U.snapshot n)[x.1]? = some x.2

/-- Everything handed out leads to the publisher's map. -/
def Synced (U : Feed) (c : MarketDataConsumer) (written : List MEMarketUpdate) : Prop :=
  ∃ m, c.nextExpIncSeqInc = m + 1 ∧ OrderMap.empty.applyAll written = U.after m

/-- `START` and `END` are all that is not handed out. -/
lemma filter_forwarded {body : List MEMarketUpdate} (hbody : ∀ u ∈ body, u.forwarded = true) (n : Nat) :
    (snapshotStart n :: body ++ [snapshotEnd n]).filter MEMarketUpdate.forwarded = body := by
  rw [List.filter_append, List.filter_cons, List.filter_eq_self.mpr hbody]
  simp [MEMarketUpdate.forwarded, snapshotStart, snapshotEnd]

namespace OrderMap
variable {m : OrderMap} {n : Nat}

lemma forwarded_bookUpdates (hm : m.Proper) : ∀ u ∈ m.bookUpdates, u.forwarded = true := by
  intro u hu
  rcases mem_bookUpdates hm hu with ⟨t, rfl⟩ | ⟨htype, -⟩
  · rfl
  · simp [MEMarketUpdate.forwarded, htype]

lemma filter_snapshot (hm : m.Proper) (n : Nat) :
    (m.snapshot n).filter MEMarketUpdate.forwarded = m.bookUpdates :=
  filter_forwarded (forwarded_bookUpdates hm) n

/-- The `END` of a snapshot is its last message. -/
lemma end_of_snapshot (hm : m.Proper) {i : Nat} {u : MEMarketUpdate} (hu : (m.snapshot n)[i]? = some u)
    (htype : u.type = .snapshotEnd) : i + 1 = (m.snapshot n).length ∧ u.orderId = n := by
  have hlen : (m.snapshot n).length = m.bookUpdates.length + 2 := by simp [snapshot]
  have hi : i < (m.snapshot n).length := (List.getElem?_eq_some_iff.mp hu).1
  rcases Nat.lt_or_ge i (m.bookUpdates.length + 1) with hlt | hge
  · rw [snapshot, List.getElem?_append_left (by simpa using hlt)] at hu
    rcases List.mem_cons.mp (List.mem_of_getElem? hu) with rfl | hmem
    · cases htype
    · have hforwarded := forwarded_bookUpdates hm u hmem
      simp [MEMarketUpdate.forwarded, htype] at hforwarded
  · obtain rfl : i = m.bookUpdates.length + 1 := by omega
    refine ⟨hlen.symm, ?_⟩
    rw [snapshot, List.getElem?_append_right (by simp)] at hu
    obtain rfl : _ = u := by simpa using hu
    rfl

end OrderMap

namespace MarketDataConsumer
variable {U : Feed}

/-- A queue that passes for complete and is of one snapshot is that snapshot. -/
lemma IsComplete.eq_snapshot {entries : List (Nat × MEMarketUpdate)} (h : IsComplete entries) {m : OrderMap}
    (hm : m.Proper) {n : Nat} (hone : ∀ x ∈ entries, (m.snapshot n)[x.1]? = some x.2) :
    entries.map Prod.snd = m.snapshot n ∧ ∃ x, entries.getLast? = some x ∧ x.2.orderId = n := by
  obtain ⟨hnumbers, -, x, hx, hend⟩ := h
  have hget : ∀ i (hi : i < entries.length), (m.snapshot n)[i]? = some entries[i].2 := by
    intro i hi
    have hfst : (entries.map Prod.fst)[i]? = some i := by
      rw [hnumbers, List.getElem?_range hi]
    rw [List.getElem?_map, List.getElem?_eq_getElem hi] at hfst
    have hone' := hone entries[i] (List.getElem_mem hi)
    rwa [Option.some.inj hfst] at hone'
  have hpos : 0 < entries.length := List.length_pos_of_mem (List.mem_of_getLast? hx)
  have hlast : entries[entries.length - 1] = x := by
    rw [List.getLast?_eq_getElem?, List.getElem?_eq_getElem (by omega)] at hx
    exact Option.some.inj hx
  obtain ⟨hlen, hid⟩ := OrderMap.end_of_snapshot hm (hget (entries.length - 1) (by omega))
    (by rw [hlast]; exact hend)
  refine ⟨List.ext_getElem? fun i => ?_, x, hx, hlast ▸ hid⟩
  rcases Nat.lt_or_ge i entries.length with hi | hi
  · rw [hget i hi, List.getElem?_map, List.getElem?_eq_getElem hi]
    rfl
  · rw [List.getElem?_eq_none (by simpa using hi), List.getElem?_eq_none (by omega)]

/-- What every run keeps. In recovery nothing is promised of what was handed out before. -/
structure Tracking (U : Feed) (written : List MEMarketUpdate) (c : MarketDataConsumer) : Prop where
  proper : (OrderMap.empty.applyAll written).Proper
  incremental : c.incrementalQueuedMsgs = .empty
  synced : c.inRecovery = false → Synced U c written

variable {written es : List MEMarketUpdate} {c c' : MarketDataConsumer}

/-- A check that takes a complete snapshot hands out all of it. -/
lemma check_recovers (h : IsComplete c.snapshotQueuedMsgs.entries) (hempty : c.incrementalQueuedMsgs = .empty)
    {m : OrderMap} (hm : m.Proper) {n : Nat}
    (hone : ∀ x ∈ c.snapshotQueuedMsgs.entries, (m.snapshot n)[x.1]? = some x.2) :
    ∃ last : MEMarketUpdate, last.orderId = n ∧
      c.checkSnapshotSync Logger.silent = .ok (c.recovered last, m.bookUpdates) := by
  obtain ⟨hentries, x, hx, hid⟩ := h.eq_snapshot hm hone
  refine ⟨x.2, hid, ?_⟩
  rw [checkSnapshotSync_complete Logger.counts_silent h hempty hx, hentries, OrderMap.filter_snapshot hm]
  rfl

/-- One delivery. -/
theorem Tracking.deliver (h : Tracking U written c) {d : Delivery} (hsends : U.Sends d)
    (hone : OneSnapshot U c d) (hrun : c.deliver d = .ok (c', es)) : Tracking U (written ++ es) c' := by
  obtain ⟨isSnapshot, message⟩ := d
  have hlog := Logger.counts_silent
  unfold MarketDataConsumer.deliver at hrun
  cases isSnapshot with
  | true =>
    cases hrecovery : c.inRecovery with
    | false =>
      rw [recvCallback_discards hlog hrecovery] at hrun
      cases hrun
      rwa [List.append_nil]
    | true =>
      rw [recvCallback_queues hlog hrecovery] at hrun
      cases hrun
      rw [List.append_nil]
      exact ⟨h.proper, h.incremental, fun hno => by simp [hrecovery] at hno⟩
  | false =>
    cases hrecovery : c.inRecovery with
    | false =>
      by_cases hnext : message.seqNum = c.nextExpIncSeqInc
      · -- the next update of the stream
        rw [recvCallback_forwards hlog hrecovery hnext] at hrun
        cases hrun
        obtain ⟨m, hm, hwritten⟩ := h.synced hrecovery
        obtain ⟨hlt, hupdate⟩ : message.seqNum + 1 < 18446744073709551616 ∧
          message.meMarketUpdate = U.update message.seqNum := hsends
        have hwrap : wrap64 (c.nextExpIncSeqInc + 1) = m + 1 + 1 := by
          rw [hnext] at hlt
          rw [wrap64_of_lt hlt, hm]
        have happly : OrderMap.empty.applyAll (written ++ [message.meMarketUpdate]) = U.after (m + 1) := by
          rw [OrderMap.applyAll_append, hwritten, hupdate, hnext, hm, U.after_succ]
          rfl
        refine ⟨?_, h.incremental, fun _ => ⟨m + 1, hwrap, happly⟩⟩
        rw [happly]
        exact U.after_proper (m + 1)
      · rw [recvCallback_enters hlog hrecovery hnext] at hrun
        cases hrun
        rw [List.append_nil]
        exact ⟨h.proper, rfl, fun hno => by cases hno⟩
    | true =>
      rw [recvCallback_checks hlog hrecovery] at hrun
      by_cases hcomplete : IsComplete c.snapshotQueuedMsgs.entries
      · -- the updates of one snapshot replace whatever the client had
        obtain ⟨n, hn, hentries⟩ := hone rfl hrecovery hcomplete
        obtain ⟨last, hid, hcheck⟩ := check_recovers hcomplete h.incremental (U.after_proper n) hentries
        rw [hcheck] at hrun
        cases hrun
        have happly : OrderMap.empty.applyAll (written ++ (U.after n).bookUpdates) = U.after n := by
          rw [OrderMap.applyAll_append]
          exact OrderMap.applyAll_bookUpdates (U.after_proper n) h.proper
        have hnext : (c.recovered last).nextExpIncSeqInc = n + 1 := by
          rw [recovered, hid]
          exact wrap64_of_lt hn
        refine ⟨?_, rfl, fun _ => ⟨n, hnext, happly⟩⟩
        rw [happly]
        exact U.after_proper n
      · obtain ⟨q, hcheck, -⟩ := checkSnapshotSync_incomplete hlog hcomplete
        rw [hcheck] at hrun
        cases hrun
        rw [List.append_nil]
        exact ⟨h.proper, h.incremental, fun hno => by simp [hrecovery] at hno⟩

end MarketDataConsumer

/-- What is asked of a delivery. -/
structure DeliveryStep (U : Feed) (_ : List (Delivery × List MEMarketUpdate)) (c : MarketDataConsumer)
    (d : Delivery) (_ : List MEMarketUpdate) : Prop where
  sends : U.Sends d
  oneSnapshot : OneSnapshot U c d

/-- In every run of a fresh consumer, whatever is lost, repeated or out of order: outside
recovery the consumer is in sync. -/
theorem in_sync {U : Feed} {log : List (Delivery × List MEMarketUpdate)} {c : MarketDataConsumer}
    (hrun : Reached MarketDataConsumer.deliver (DeliveryStep U) {} log c)
    (hrecovery : c.inRecovery = false) : Synced U c (sent log) := by
  have hinit : Tracking U (sent ([] : List (Delivery × List MEMarketUpdate))) {} :=
    ⟨OrderMap.proper_empty, rfl, fun _ => ⟨0, rfl, rfl⟩⟩
  have htracking := hrun.invariant (fun log c => Tracking U (sent log) c) hinit
    fun log c d c' es h hstep hrun => by
      rw [sent_append, sent_singleton]
      exact h.deliver hstep.sends hstep.oneSnapshot hrun
  exact htracking.synced hrecovery

/-! ## A mixture of two snapshots -/

/-- The messages of a published snapshot. -/
def Feed.snapshotMessages (U : Feed) (n : Nat) : List MDPMarketUpdate :=
  (U.snapshot n).zipIdx.map fun p => ⟨p.2, p.1⟩

/-- Deliveries of two streams that lose messages and keep their order. -/
structure Lossy (U : Feed) (ds : List Delivery) : Prop where
  incrementals : ∃ ks : List Nat, ks.Pairwise (· < ·) ∧ (∀ k ∈ ks, k + 1 < 18446744073709551616) ∧
    (ds.filter fun d => !d.isSnapshot).map Delivery.message = ks.map fun k => ⟨k, U.update k⟩
  snapshots : ∃ ns : List Nat, ns.Pairwise (· < ·) ∧ (∀ n ∈ ns, n + 1 < 18446744073709551616) ∧
    ((ds.filter Delivery.isSnapshot).map Delivery.message).Sublist (ns.flatMap U.snapshotMessages)

lemma Lossy.sends {U : Feed} {ds : List Delivery} (h : Lossy U ds) {d : Delivery} (hd : d ∈ ds) :
    U.Sends d := by
  obtain ⟨isSnapshot, message⟩ := d
  cases isSnapshot with
  | true =>
    obtain ⟨ns, -, hns, hsub⟩ := h.snapshots
    have hmem := hsub.subset (List.mem_map_of_mem (List.mem_filter.mpr ⟨hd, rfl⟩))
    obtain ⟨n, hn, hmem⟩ := List.mem_flatMap.mp hmem
    obtain ⟨p, hp, he⟩ := List.mem_map.mp hmem
    obtain rfl : (⟨p.2, p.1⟩ : MDPMarketUpdate) = message := he
    exact ⟨n, hns n hn, List.mem_zipIdx_iff_getElem?.mp hp⟩
  | false =>
    obtain ⟨ks, -, hks, he⟩ := h.incrementals
    have hmem : message ∈ (ds.filter fun d => !d.isSnapshot).map Delivery.message :=
      List.mem_map_of_mem (f := Delivery.message) (List.mem_filter.mpr ⟨hd, rfl⟩)
    rw [he] at hmem
    obtain ⟨k, hk, rfl⟩ := List.mem_map.mp hmem
    exact ⟨hks k hk, rfl⟩

/-- An order of 10 that shrinks to 5, and trades. -/
def shrinkingFeed : Feed where
  update := fun k =>
    if k = 1 then ⟨.add, 1, 0, .buy, 100, 10, 1⟩
    else if k = 2 then ⟨.modify, 1, 0, .buy, 100, 5, 1⟩
    else { type := .trade, tickerId := 0, side := .sell, price := 100, qty := 5 }
  inTable := fun k => by
    unfold OrderMap.InTable
    split_ifs
    · exact fun _ => ⟨by decide, by decide⟩
    · exact fun h => by cases h
    · exact fun h => by cases h

/-- A snapshot whose only order is order 1 of ticker 0. -/
def loneSnapshot (n : Nat) (qty : Qty) : List MEMarketUpdate :=
  [{ type := .snapshotStart, orderId := n }, { type := .clear, tickerId := 0 },
    ⟨.add, 1, 0, .buy, 100, qty, 1⟩, { type := .clear, tickerId := 1 }, { type := .clear, tickerId := 2 },
    { type := .clear, tickerId := 3 }, { type := .clear, tickerId := 4 }, { type := .clear, tickerId := 5 },
    { type := .clear, tickerId := 6 }, { type := .clear, tickerId := 7 },
    { type := .snapshotEnd, orderId := n }]

lemma range_filterMap_single {α : Type} {f : Nat → Option α} {i n : Nat} (hi : i < n)
    (hf : ∀ j, j ≠ i → f j = none) : (List.range n).filterMap f = (f i).toList := by
  have hnone : ∀ k ≤ i, (List.range k).filterMap f = [] := fun k hk =>
    List.filterMap_eq_nil_iff.mpr fun j hj => hf j (Nat.ne_of_lt (lt_of_lt_of_le (List.mem_range.mp hj) hk))
  induction n with
  | zero => omega
  | succ n ih =>
    rw [List.range_succ, List.filterMap_append]
    rcases Nat.lt_or_ge i n with hlt | hge
    · rw [ih hlt, List.filterMap_cons, hf n (Nat.ne_of_gt hlt)]
      simp
    · obtain rfl : i = n := by omega
      rw [hnone i (Nat.le_refl i)]
      cases h : f i <;> simp [h]

lemma snapshot_lone {m : OrderMap} {qty : Qty}
    (hm : m = OrderMap.empty.set 0 1 (some ⟨.add, 1, 0, .buy, 100, qty, 1⟩)) (n : Nat) :
    m.snapshot n = loneSnapshot n qty := by
  have hrow : ∀ t, t ≠ 0 → m.tickerUpdates t = [{ type := .clear, tickerId := t }] := by
    intro t ht
    have hnone : (List.range ME_MAX_ORDER_IDS).filterMap (m t) = [] :=
      List.filterMap_eq_nil_iff.mpr fun i _ => by
        rw [hm, OrderMap.set_apply, if_neg (fun h => ht h.1)]
        rfl
    rw [OrderMap.tickerUpdates, hnone]
  have hfirst : m.tickerUpdates 0 = [{ type := .clear, tickerId := 0 }, ⟨.add, 1, 0, .buy, 100, qty, 1⟩] := by
    have hone : (List.range ME_MAX_ORDER_IDS).filterMap (m 0) = (m 0 1).toList :=
      range_filterMap_single (by decide) fun j hj => by
        rw [hm, OrderMap.set_apply, if_neg (fun h => hj h.2)]
        rfl
    rw [OrderMap.tickerUpdates, hone, hm]
    rfl
  have htickers : List.range ME_MAX_TICKERS = [0, 1, 2, 3, 4, 5, 6, 7] := by decide
  rw [OrderMap.snapshot, OrderMap.bookUpdates, htickers]
  simp [hfirst, hrow, loneSnapshot, snapshotStart, snapshotEnd]

lemma shrinkingFeed_snapshot_one : shrinkingFeed.snapshot 1 = loneSnapshot 1 10 := snapshot_lone rfl 1

lemma shrinkingFeed_snapshot_two : shrinkingFeed.snapshot 2 = loneSnapshot 2 5 := by
  refine snapshot_lone ?_ 2
  have hshrunk : shrinkingFeed.after 2 =
      (shrinkingFeed.after 1).set 0 1 (some ⟨.add, 1, 0, .buy, 100, 5, 1⟩) := rfl
  have hadded : shrinkingFeed.after 1 = OrderMap.empty.set 0 1 (some ⟨.add, 1, 0, .buy, 100, 10, 1⟩) := rfl
  rw [hshrunk, hadded, OrderMap.set_set]

/-- The messages of a snapshot, as they arrive on the snapshot socket. -/
def snapshotDeliveries (us : List MEMarketUpdate) : List Delivery :=
  us.zipIdx.map fun p => ⟨true, ⟨p.2, p.1⟩⟩

/-- Update 1 is lost. Of the snapshot after one update the end is lost, of the one after two
updates the beginning. -/
def mixedDeliveries : List Delivery :=
  ⟨false, ⟨2, shrinkingFeed.update 2⟩⟩ ::
    ((snapshotDeliveries (loneSnapshot 1 10)).take 6 ++ (snapshotDeliveries (loneSnapshot 2 5)).drop 6 ++
      [⟨false, ⟨3, shrinkingFeed.update 3⟩⟩])

lemma mixedDeliveries_lossy : Lossy shrinkingFeed mixedDeliveries where
  incrementals := ⟨[2, 3], by decide, by decide, rfl⟩
  snapshots := by
    refine ⟨[1, 2], by decide, by decide, ?_⟩
    simp only [List.flatMap_cons, List.flatMap_nil, Feed.snapshotMessages, shrinkingFeed_snapshot_one,
      shrinkingFeed_snapshot_two]
    decide

/-- The mixture passes for the snapshot after two updates, and hands out the order of 10. -/
theorem in_sync_fails : ∃ log c,
    Reached MarketDataConsumer.deliver (fun _ _ d _ => shrinkingFeed.Sends d) {} log c ∧
    Lossy shrinkingFeed (log.map Prod.fst) ∧ c.inRecovery = false ∧ ¬Synced shrinkingFeed c (sent log) := by
  have hrun : ∃ c written, execute MarketDataConsumer.deliver {} mixedDeliveries = .ok (c, written) ∧
      c.inRecovery = false ∧ c.nextExpIncSeqInc = 3 ∧
      OrderMap.empty.applyAll written 0 1 = some ⟨.add, 1, 0, .buy, 100, 10, 1⟩ :=
    ⟨_, _, rfl, rfl, rfl, rfl⟩
  obtain ⟨c, written, hrun, hrecovery, hnext, hheld⟩ := hrun
  obtain ⟨log, hreached, rfl, hlog⟩ :=
    reached_execute (fun _ _ d hd _ => mixedDeliveries_lossy.sends hd) .start hrun
  refine ⟨log, c, hreached, hlog ▸ mixedDeliveries_lossy, hrecovery, ?_⟩
  rintro ⟨m, hm, hsynced⟩
  obtain rfl : m = 2 := by omega
  rw [hsynced] at hheld
  have hafter : shrinkingFeed.after 2 0 1 = some ⟨.add, 1, 0, .buy, 100, 5, 1⟩ := rfl
  rw [hafter] at hheld
  cases hheld

/-- With the beginning of the second snapshot in place of the first one's, the consumer
recovers. -/
theorem in_sync_recovers : ∃ log c,
    Reached MarketDataConsumer.deliver (DeliveryStep shrinkingFeed) {} log c ∧ c.inRecovery = false ∧
      Synced shrinkingFeed c (sent log) := by
  have hsends : ∀ d ∈ snapshotDeliveries (loneSnapshot 2 5), d.isSnapshot = true ∧ shrinkingFeed.Sends d := by
    intro d hd
    obtain ⟨p, hp, rfl⟩ := List.mem_map.mp hd
    refine ⟨rfl, 2, by decide, ?_⟩
    rw [shrinkingFeed_snapshot_two]
    exact List.mem_zipIdx_iff_getElem?.mp hp
  have hgap : Reached MarketDataConsumer.deliver (DeliveryStep shrinkingFeed) {} _ _ :=
    .next .start ⟨shrinkingFeed.sends_update (k := 2) (by decide), fun _ hno => by cases hno⟩ rfl
  have hqueued : ∃ c written, execute MarketDataConsumer.deliver (entered {})
      (snapshotDeliveries (loneSnapshot 2 5)) = .ok (c, written) ∧
      c.snapshotQueuedMsgs.entries = (loneSnapshot 2 5).zipIdx.map Prod.swap ∧
      ∃ c' es, c.deliver ⟨false, ⟨3, shrinkingFeed.update 3⟩⟩ = .ok (c', es) ∧ c'.inRecovery = false :=
    ⟨_, _, rfl, rfl, _, _, rfl, rfl⟩
  obtain ⟨c, written, hrun, hentries, c', es, hlast, hrecovery⟩ := hqueued
  obtain ⟨log, hwaiting, -, -⟩ := reached_execute (fun _ _ d hd _ =>
    ⟨(hsends d hd).2, fun hno => by simp [(hsends d hd).1] at hno⟩) hgap hrun
  have hone : OneSnapshot shrinkingFeed c ⟨false, ⟨3, shrinkingFeed.update 3⟩⟩ := by
    intro _ _ _
    refine ⟨2, by decide, fun x hx => ?_⟩
    rw [hentries] at hx
    obtain ⟨p, hp, rfl⟩ := List.mem_map.mp hx
    rw [shrinkingFeed_snapshot_two]
    exact List.mem_zipIdx_iff_getElem?.mp hp
  have hrecovered := hwaiting.next ⟨shrinkingFeed.sends_update (by decide), hone⟩ hlast
  exact ⟨_, c', hrecovered, hrecovery, in_sync hrecovered hrecovery⟩

end LowLatencyExchange
