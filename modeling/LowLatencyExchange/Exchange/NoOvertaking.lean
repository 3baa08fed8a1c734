import LowLatencyExchange.Exchange.Refinement

/-!
# No order overtakes another

A statement about two moments of one run: the orders that came before the first moment and still rest at the
second stand in the order in which they stood. It is proved for the queues, where it is plain, and holds for the
heap of `MEOrderBook` because the heap refines them.
-/

namespace LowLatencyExchange
open PriceBook LoggedRun

namespace QueueBook
variable {q : QueueBook} {s t : Side} {next : OrderId}

def marketOrderIds (orders : List MEOrder) : List OrderId := orders.map fun x => x.ids.marketOrderId

/-- The market order ids of a queue that were drawn before `next`. -/
def idsBefore (next : OrderId) (orders : List MEOrder) : List OrderId :=
  (marketOrderIds orders).filter fun id => id < next

lemma idsBefore_sublist {orders orders' : List MEOrder}
    (h : (marketOrderIds orders).Sublist (marketOrderIds orders')) :
    (idsBefore next orders).Sublist (idsBefore next orders') := h.filter _

/-- A newcomer changes nothing among the orders before it. -/
lemma idsBefore_place {order : MEOrder} (h : next ≤ order.ids.marketOrderId) (orders : List MEOrder) :
    idsBefore next (place s order orders) = idsBefore next orders := by
  have hnew : decide (order.ids.marketOrderId < next) = false := decide_eq_false (Nat.not_lt.mpr h)
  unfold place idsBefore marketOrderIds
  induction orders with
  | nil => rw [List.orderedInsert_nil, List.map_singleton, List.filter_singleton, hnew, cond_false, List.map_nil,
      List.filter_nil]
  | cons x orders ih =>
    rw [List.orderedInsert_cons]
    split
    · rw [List.map_cons, List.filter_cons_of_neg (by simpa using h)]
    · rw [List.map_cons, List.map_cons, List.filter_cons, List.filter_cons, ih]

/-- A walk takes orders out from the front. -/
lemma walk_ids (a : Aggressor) (orders : List MEOrder) (qty : Qty) :
    (marketOrderIds (a.walk orders qty).rest).Sublist (marketOrderIds orders) := by
  induction orders generalizing qty with
  | nil => exact List.Sublist.refl _
  | cons x orders ih =>
    unfold Aggressor.walk
    split
    · exact List.Sublist.refl _
    · split
      · exact (ih (qty - x.qty)).trans (List.sublist_cons_self _ _)
      · exact List.Sublist.refl _

/-- What a walk leaves of the other side, and the own side next to it. -/
lemma matched_ids (ht : t.Trading) (hs : s.Trading) {q₁ : QueueBook} (hsame : q₁.queue t = q.queue t) {a : Aggressor}
    (hside : a.side = t) : (marketOrderIds ((q₁.setQueue t.opposite (q.walk a).rest).queue s)).Sublist
      (marketOrderIds (q.queue s)) := by
  subst hside
  rcases ht.eq_or_opposite hs with he | he
  · rw [he, queue_setQueue_of_ne ht.opposite ht ht.opposite_ne.symm, hsame]
  · rw [he, queue_setQueue_self]
    apply walk_ids

/-- No call moves an order ahead of another. -/
lemma idsBefore_call {call : BookCall} (haccepts : q.Accepts call) (hnext : next ≤ q.nextMarketOrderId)
    (hs : s.Trading) : (idsBefore next ((q.call call).1.queue s)).Sublist (idsBefore next (q.queue s)) := by
  cases call with
  | add clientId clientOrderId tickerId side price qty =>
    have hside : side.Trading := haccepts.1
    unfold QueueBook.call add
    dsimp only
    split
    · apply idsBefore_sublist
      apply matched_ids hside hs
      · rfl
      · rfl
    · rcases hside.eq_or_opposite hs with he | he
      · rw [he, queue_setQueue_self, idsBefore_place hnext]
      · rw [he, queue_setQueue_of_ne hside hside.opposite hside.opposite_ne]
        apply idsBefore_sublist
        apply matched_ids hside hside.opposite
        · rfl
        · rfl
  | cancel clientId orderId tickerId =>
    unfold QueueBook.call cancel
    dsimp only
    split
    · exact List.Sublist.refl _
    · apply idsBefore_sublist
      apply List.Sublist.map
      rcases hs with rfl | rfl
      · exact List.filter_sublist
      · exact List.filter_sublist

end QueueBook

open QueueBook MEOrderBook

/-- Between two moments of a run of the queues the older orders keep their order. -/
lemma idsBefore_run {tickerId : TickerId} {log more : List (BookCall × List Event)} {b' : MEOrderBook}
    (h : QueueRun tickerId (log ++ more) b') (hids : (log ++ more).length < 18446744073709551615) {s : Side}
    (hs : s.Trading) :
    (after (log.map Prod.fst)).1.nextMarketOrderId ≤ (after ((log ++ more).map Prod.fst)).1.nextMarketOrderId ∧
      (idsBefore (after (log.map Prod.fst)).1.nextMarketOrderId ((after ((log ++ more).map Prod.fst)).1.queue s)).Sublist
        (marketOrderIds ((after (log.map Prod.fst)).1.queue s)) := by
  -- one more call at a time after the first moment
  apply h.invariant (fun past _ => ∀ more, past = log ++ more → past.length < 18446744073709551615 →
    (after (log.map Prod.fst)).1.nextMarketOrderId ≤ (after (past.map Prod.fst)).1.nextMarketOrderId ∧
      (idsBefore (after (log.map Prod.fst)).1.nextMarketOrderId ((after (past.map Prod.fst)).1.queue s)).Sublist
        (marketOrderIds ((after (log.map Prod.fst)).1.queue s))) _ _ more rfl hids
  · intro more hlog _
    obtain ⟨rfl, -⟩ := List.append_eq_nil_iff.mp hlog.symm
    exact ⟨Nat.le_refl _, List.filter_sublist⟩
  · intro past b call b₁ es ih haccepts _ more hlog hlength
    rcases List.eq_nil_or_concat more with rfl | ⟨more, last, rfl⟩
    · rw [List.append_nil] at hlog
      subst hlog
      exact ⟨Nat.le_refl _, List.filter_sublist⟩
    · rw [List.concat_eq_append, ← List.append_assoc] at hlog
      obtain ⟨rfl, -⟩ := List.append_inj' hlog rfl
      rw [List.length_append, List.length_singleton] at hlength
      obtain ⟨hnext, hkept⟩ := ih more rfl (by omega)
      have hbound := nextMarketOrderId_after ((log ++ more).map Prod.fst)
      rw [List.length_map] at hbound
      have hcall := idsBefore_call haccepts hnext hs
      have hdraws := nextMarketOrderId_call (after ((log ++ more).map Prod.fst)).1 call
      rw [wrap64_of_lt ((Nat.succ_le_succ hbound).trans_lt (by omega))] at hdraws
      have hafter : (after ((log ++ more ++ [(call, es)]).map Prod.fst)).1 =
          ((after ((log ++ more).map Prod.fst)).1.call call).1 := by
        unfold after
        rw [List.map_append, List.map_singleton, replay_append]
      rw [hafter]
      refine ⟨?_, hcall.trans hkept⟩
      rcases hdraws with hsame | hdrawn
      · exact hsame ▸ hnext
      · exact hdrawn ▸ Nat.le_succ_of_le hnext

/-- At two moments of a run, the orders of a side that came before the first and wait at the second wait in the order
in which they waited. No newcomer, fill or cancel moves one order ahead of another, as long as market order ids last. -/
theorem never_overtaken {tickerId : TickerId} {log more : List (BookCall × List Event)} {b b' : MEOrderBook}
    (h : QueueRun tickerId log b) (h' : QueueRun tickerId (log ++ more) b')
    (hids : (log ++ more).length < 18446744073709551615) :
    ∃ q q', b.Holds q ∧ b'.Holds q' ∧ ∀ s : Side, s.Trading →
      (idsBefore b.nextMarketOrderId (q'.queue s)).Sublist (marketOrderIds (q.queue s)) := by
  have hholds := h.refines.2
  have hnext := hholds.nextMarketOrderId
  refine ⟨_, _, hholds, h'.refines.2, ?_⟩
  intro s hs
  rw [← hnext]
  exact (idsBefore_run h' hids hs).2

/-- The first sell of the queue goes, and its client comes back with another. -/
def returningLog : List (BookCall × List Event) :=
  [(.cancel 1 1 0, [.update ⟨.cancel, 1, 0, .sell, 100, 0, 1⟩,
      .response ⟨.canceled, 1, 0, 1, 1, .sell, 100, Qty_INVALID, 1⟩]),
   (.add 1 2 0 .sell 100 4,
    [.response ⟨.accepted, 1, 0, 2, 3, .sell, 100, 0, 4⟩, .update ⟨.add, 3, 0, .sell, 100, 3, 3⟩])]

lemma queuedLog_queueRun : ∃ b, QueueRun 0 queuedLog b ∧ ∃ b', QueueRun 0 (queuedLog ++ returningLog) b' ∧
    b.nextMarketOrderId = 3 := by
  refine ⟨_, .next (.next .start ?_ rfl) ?_ rfl, _, .next (.next (.next (.next .start ?_ rfl) ?_ rfl) ?_ rfl) ?_ rfl, rfl⟩
  all_goals decide

theorem never_overtaken_queued : ∃ b b', QueueRun 0 queuedLog b ∧ QueueRun 0 (queuedLog ++ returningLog) b' ∧
    ∃ q q', b.Holds q ∧ b'.Holds q' ∧ (idsBefore 3 (q'.queue .sell)).Sublist (marketOrderIds (q.queue .sell)) := by
  obtain ⟨b, hrun, b', hrun', hnext⟩ := queuedLog_queueRun
  obtain ⟨q, q', hholds, hholds', hkept⟩ := never_overtaken hrun hrun' (by decide)
  rw [hnext] at hkept
  exact ⟨b, b', hrun, hrun', q, q', hholds, hholds', hkept .sell (.inr rfl)⟩

end LowLatencyExchange
