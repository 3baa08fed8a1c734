import LowLatencyExchange.Exchange.PriceTime

/-!
# What a cancel takes out

On a well-formed book a cancel takes out the order that its client has under its identifier, with
the level when the order was alone in it, and nothing else. A cancel that names no resting order
leaves the book as it was.
-/

namespace LowLatencyExchange
open PriceBook
namespace MEOrderBook
variable {b b' : MEOrderBook} {sh : Shape} {clientId : ClientId} {orderId : OrderId} {o : Nat}

/-- The resting order of a client under an identifier. -/
structure Names (b : MEOrderBook) (sh : Shape) (clientId : ClientId) (orderId : OrderId) (o : Nat) :
    Prop where
  inTable : clientId < ME_MAX_NUM_CLIENTS
  mem : o ∈ sh.orders
  clientId : (b.book.order o).ids.clientId = clientId
  orderId : (b.book.order o).ids.clientOrderId = orderId

/-- The book without order `o`: the other orders and levels keep their fields and their places,
and the level of `o` goes with it when `o` was alone there. -/
structure TakenOut (b : MEOrderBook) (sh : Shape) (o : Nat) (b' : MEOrderBook) : Prop where
  wellFormed : b'.book.WellFormed (sh.keep fun q => q ≠ o)
  tickerId : b'.tickerId = b.tickerId
  nextMarketOrderId : b'.nextMarketOrderId = b.nextMarketOrderId
  order : ∀ q, (b'.book.order q).unlinked = (b.book.order q).unlinked
  orderUsed : ∀ q, b'.book.orderPool.Used q ↔ b.book.orderPool.Used q ∧ q ≠ o
  key : ∀ k, b'.book.orderTable k = if k = OrderKey.key (b.book.order o).ids then none else b.book.orderTable k
  levelSide : ∀ p, (b'.book.level p).side = (b.book.level p).side
  levelPrice : ∀ p, (b'.book.level p).price = (b.book.level p).price
  levelFirst : ∀ l ∈ sh.levels, o ∉ l.orders →
    (b'.book.level l.ptr).firstOrder = (b.book.level l.ptr).firstOrder
  levelUsed : ∀ p, b'.book.ordersAtPricePool.Used p ↔
    b.book.ordersAtPricePool.Used p ∧ ⟨p, [o]⟩ ∉ sh.levels
  top : ∀ s : Side, s.Trading →
    b'.book.top s = ((sh.keep fun q => q ≠ o).side s).head?.map LevelShape.ptr

/-- A cancel finds exactly the orders its client has resting. -/
lemma lookupOrder_iff (h : b.book.WellFormed sh) (horder : orderId < ME_MAX_ORDER_IDS) :
    b.lookupOrder clientId orderId = .ok (some o) ↔ Names b sh clientId orderId o := by
  rw [lookupOrder_eq b clientId horder, Except.ok.injEq]
  constructor
  · intro hfound
    split at hfound
    · rename_i hclient
      obtain ⟨ho, hkey⟩ := (h.keys _ o).mp hfound
      exact ⟨hclient, ho, (Prod.mk.inj hkey).1, (Prod.mk.inj hkey).2⟩
    · cases hfound
  · intro hnames
    rw [if_pos hnames.inTable]
    apply (h.keys _ o).mpr
    exact ⟨hnames.mem, Prod.ext hnames.clientId hnames.orderId⟩

/-- The removal of an order, as the book sees it. -/
lemma takenOut_of_removeOrder (h : b.book.WellFormed sh) (ho : o ∈ sh.orders) :
    ∃ book, b.book.removeOrder o = .ok book ∧ TakenOut b sh o { b with book := book } := by
  obtain ⟨book, hremove, hwf⟩ := removeOrder_keep h ho
  have hframe := removeOrder_frame hremove
  have hlevels := removeOrder_levels hremove
  obtain ⟨s, hs, lvl, hlvl, holvl⟩ := Shape.mem_orders.mp ho
  have hget := h.getOrdersAtPrice_order hs hlvl holvl
  refine ⟨book, hremove, hwf, rfl, rfl, hframe.order, fun q => ?_, fun k => ?_, hlevels.side, hlevels.price,
    fun l hl hol => ?_, h.levelUsed_keep hwf, fun t ht => ?_⟩
  · rw [hframe.used]
    exact and_comm
  · rw [hframe.table, Function.update_apply]
  · apply hlevels.first
    rw [hget]
    intro hptr
    obtain rfl := h.level_eq (Shape.mem_levels_of_side hs hlvl) hl (Option.some.inj hptr)
    exact hol holvl
  · rw [(hwf.side t ht).top, List.head?_map]

/-- A cancel of a resting order takes it out and nothing else, with one `CANCEL` for the market and
one `CANCELED` for the client. Any other cancel changes nothing and is rejected. No cancel touches
an order of another client. -/
theorem cancel_executes (h : b.book.WellFormed sh) (clientId : ClientId) {orderId : OrderId}
    (tickerId : TickerId) (horder : orderId < ME_MAX_ORDER_IDS) :
    (∀ o, Names b sh clientId orderId o → ∃ b', b.cancel clientId orderId tickerId =
      .ok (b', canceled (b.book.order o) clientId orderId tickerId) ∧ TakenOut b sh o b') ∧
    ((∀ o, ¬Names b sh clientId orderId o) → b.cancel clientId orderId tickerId =
      .ok (b, [cancelRejected clientId orderId tickerId])) ∧
    (∀ b' es, b.cancel clientId orderId tickerId = .ok (b', es) →
      ∀ q ∈ sh.orders, (b.book.order q).ids.clientId ≠ clientId →
        b'.book.orderPool.Used q ∧ (b'.book.order q).unlinked = (b.book.order q).unlinked) := by
  have htaken : ∀ o, Names b sh clientId orderId o → ∃ b', b.cancel clientId orderId tickerId =
      .ok (b', canceled (b.book.order o) clientId orderId tickerId) ∧ TakenOut b sh o b' := by
    intro o hnames
    obtain ⟨book, hremove, htaken⟩ := takenOut_of_removeOrder h hnames.mem
    exact ⟨_, cancel_eq_canceled tickerId ((lookupOrder_iff h horder).mpr hnames) hremove, htaken⟩
  have hrejected : (∀ o, ¬Names b sh clientId orderId o) → b.cancel clientId orderId tickerId =
      .ok (b, [cancelRejected clientId orderId tickerId]) := by
    intro hnone
    apply cancel_eq_rejected
    have hlookup := b.lookupOrder_eq clientId horder
    cases hfound : (if clientId < ME_MAX_NUM_CLIENTS then b.book.orderTable (clientId, orderId) else none) with
    | none => rw [hlookup, hfound]
    | some o =>
      rw [hfound] at hlookup
      exact absurd ((lookupOrder_iff h horder).mp hlookup) (hnone o)
  refine ⟨htaken, hrejected, fun b' es hrun q hq hother => ?_⟩
  have hused := (h.orderUsed q).mpr hq
  by_cases hnames : ∃ o, Names b sh clientId orderId o
  · obtain ⟨o, ho⟩ := hnames
    obtain ⟨b₁, hb₁, hout⟩ := htaken o ho
    obtain rfl : b₁ = b' := (Prod.mk.inj (Except.ok.inj (hb₁.symm.trans hrun))).1
    have hqo : q ≠ o := fun he => hother (he ▸ ho.clientId)
    exact ⟨(hout.orderUsed q).mpr ⟨hused, hqo⟩, hout.order q⟩
  · have hb := hrejected fun o ho => hnames ⟨o, ho⟩
    obtain rfl : b = b' := (Prod.mk.inj (Except.ok.inj (hb.symm.trans hrun))).1
    exact ⟨hused, rfl⟩

end MEOrderBook

open MEOrderBook

/-- Two sells of different clients queue at one price. -/
def queuedLog : List (BookCall × List Event) :=
  [(.add 1 1 0 .sell 100 5,
    [.response ⟨.accepted, 1, 0, 1, 1, .sell, 100, 0, 5⟩, .update ⟨.add, 1, 0, .sell, 100, 1, 1⟩]),
   (.add 2 1 0 .sell 100 7,
    [.response ⟨.accepted, 2, 0, 1, 2, .sell, 100, 0, 7⟩, .update ⟨.add, 2, 0, .sell, 100, 2, 2⟩])]

lemma queuedLog_run : ∃ b, LadderRun 0 queuedLog b ∧ b.book.orderTable (1, 1) = some 0 ∧
    b.book.orderTable (2, 1) = some 1 ∧
    canceled (b.book.order 0) 1 1 0 = [.update ⟨.cancel, 1, 0, .sell, 100, 0, 1⟩,
      .response ⟨.canceled, 1, 0, 1, 1, .sell, 100, Qty_INVALID, 1⟩] := by
  refine ⟨_, .next (.next .start ⟨⟨?_, ?_⟩, ?_⟩ rfl) ⟨⟨?_, ?_⟩, ?_⟩ rfl, rfl, rfl, rfl⟩
  all_goals decide

/-- The older of the two goes, and the younger is alone at the price. -/
theorem cancel_executes_queued : ∃ b b', LadderRun 0 queuedLog b ∧
    b.cancel 1 1 0 = .ok (b', [.update ⟨.cancel, 1, 0, .sell, 100, 0, 1⟩,
      .response ⟨.canceled, 1, 0, 1, 1, .sell, 100, Qty_INVALID, 1⟩]) ∧
    ¬b'.book.orderPool.Used 0 ∧ b'.book.orderPool.Used 1 := by
  obtain ⟨b, hrun, hfirst, hsecond, hmessages⟩ := queuedLog_run
  obtain ⟨sh, hin⟩ := hrun.inStep
  obtain ⟨h, -, -⟩ := hin
  have hnames : Names b sh 1 1 0 := (lookupOrder_iff h (by decide)).mp (congrArg Except.ok hfirst)
  obtain ⟨hmem, -⟩ := (h.keys _ 1).mp hsecond
  obtain ⟨b', hcancel, hout⟩ := (cancel_executes h 1 0 (by decide)).1 0 hnames
  refine ⟨b, b', hrun, hmessages ▸ hcancel, fun hused => ?_, ?_⟩
  · exact ((hout.orderUsed 0).mp hused).2 rfl
  · exact (hout.orderUsed 1).mpr ⟨(h.orderUsed 1).mpr hmem, by decide⟩

end LowLatencyExchange
