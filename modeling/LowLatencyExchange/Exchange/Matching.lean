import LowLatencyExchange.Exchange.MEOrderBook
import LowLatencyExchange.Book.Quantity

/-!
# What a call on the book can do

One inversion for each function of `MEOrderBook`, for an arbitrary heap, and the induction
rule of the matching loop. Everything that is proved about whole calls goes through these.
-/

namespace LowLatencyExchange

/-- What `checkForMatch` passes on to every fill. -/
structure Aggressor where
  tickerId : TickerId
  clientId : ClientId
  side : Side
  price : Price
  clientOrderId : OrderId
  newMarketOrderId : OrderId

/-- The four messages of one fill, in the order they are sent. -/
structure Fill where
  aggressor : MEClientResponse
  passive : MEClientResponse
  trade : MEMarketUpdate
  bookUpdate : MEMarketUpdate

def Fill.events (f : Fill) : List Event :=
  [.response f.aggressor, .response f.passive, .update f.trade, .update f.bookUpdate]

/-- The fill of a resting order by an aggressor with `leavesQty` left. -/
def Aggressor.fill (a : Aggressor) (order : MEOrder) (leavesQty : Qty) : Fill where
  aggressor := ⟨.filled, a.clientId, a.tickerId, a.clientOrderId, a.newMarketOrderId, a.side,
    order.price, min leavesQty order.qty, leavesQty - min leavesQty order.qty⟩
  passive := ⟨.filled, order.ids.clientId, a.tickerId, order.ids.clientOrderId,
    order.ids.marketOrderId, order.side, order.price, min leavesQty order.qty,
    order.qty - min leavesQty order.qty⟩
  trade := ⟨.trade, OrderId_INVALID, a.tickerId, a.side, order.price, min leavesQty order.qty,
    Priority_INVALID⟩
  bookUpdate :=
    if order.qty ≤ leavesQty then
      ⟨.cancel, order.ids.marketOrderId, a.tickerId, order.side, order.price, order.qty,
        Priority_INVALID⟩
    else
      ⟨.modify, order.ids.marketOrderId, a.tickerId, order.side, order.price,
        order.qty - leavesQty, order.priority⟩

/-- The order that rests what an aggressor has left. -/
def Aggressor.resting (a : Aggressor) (marketOrderId : OrderId) (leavesQty : Qty)
    (priority : Priority) : MEOrder :=
  ⟨⟨a.tickerId, a.clientId, a.clientOrderId, marketOrderId⟩, a.side, a.price, leavesQty, priority,
    none, none⟩

namespace MEOrderBook

/-- What a fill does to the book: the order leaves when nothing is left of it, otherwise
its quantity shrinks and the aggressor is done. -/
def FillsOrder (b : MEOrderBook) (itr : Nat) (leavesQty : Qty) (b' : MEOrderBook)
    (leavesQty' : Qty) : Prop :=
  ((b.book.order itr).qty ≤ leavesQty ∧ leavesQty' = leavesQty - (b.book.order itr).qty ∧
    ∃ book, (b.book.setQty itr 0).removeOrder itr = .ok book ∧ b' = { b with book := book }) ∨
  (leavesQty < (b.book.order itr).qty ∧ leavesQty' = 0 ∧
    b' = { b with book := b.book.setQty itr ((b.book.order itr).qty - leavesQty) })

lemma matchOrder_full (a : Aggressor) {b : MEOrderBook} {itr : Nat} {leavesQty : Qty}
    (hqty : (b.book.order itr).qty ≤ leavesQty) :
    b.matchOrder a.tickerId a.clientId a.side a.clientOrderId a.newMarketOrderId itr leavesQty =
      (do
        let book ← (b.book.setQty itr 0).removeOrder itr
        pure ({ b with book := book }, leavesQty - (b.book.order itr).qty,
          (a.fill (b.book.order itr) leavesQty).events)) := by
  simp [matchOrder, Aggressor.fill, Fill.events, hqty]

lemma matchOrder_remainder (a : Aggressor) {b : MEOrderBook} {itr : Nat} {leavesQty : Qty}
    (hqty : leavesQty < (b.book.order itr).qty) :
    b.matchOrder a.tickerId a.clientId a.side a.clientOrderId a.newMarketOrderId itr leavesQty =
      .ok ({ b with book := b.book.setQty itr ((b.book.order itr).qty - leavesQty) }, 0,
        (a.fill (b.book.order itr) leavesQty).events) := by
  have hmin : min leavesQty (b.book.order itr).qty = leavesQty := min_eq_left hqty.le
  have hne : (b.book.order itr).qty - leavesQty ≠ 0 := Nat.sub_ne_zero_of_lt hqty
  simp [matchOrder, Aggressor.fill, Fill.events, hmin, hne, hqty]

lemma matchOrder_cases (a : Aggressor) {b b' : MEOrderBook} {itr : Nat} {leavesQty leavesQty' : Qty}
    {es : List Event}
    (h : b.matchOrder a.tickerId a.clientId a.side a.clientOrderId a.newMarketOrderId itr leavesQty =
      .ok (b', leavesQty', es)) :
    b.FillsOrder itr leavesQty b' leavesQty' ∧ es = (a.fill (b.book.order itr) leavesQty).events := by
  rcases Nat.lt_or_ge leavesQty (b.book.order itr).qty with hqty | hqty
  · rw [matchOrder_remainder a hqty] at h
    cases h
    exact ⟨.inr ⟨hqty, rfl, rfl⟩, rfl⟩
  · rw [matchOrder_full a hqty] at h
    obtain ⟨book, hbook, h⟩ := bind_eq_ok h
    cases h
    exact ⟨.inl ⟨hqty, rfl, book, hbook, rfl⟩, rfl⟩

/-- One round of the matching loop. -/
structure MatchStep (a : Aggressor) (b : MEOrderBook) (leavesQty : Qty) (itr : Nat)
    (b' : MEOrderBook) (leavesQty' : Qty) : Prop where
  leaves : leavesQty ≠ 0
  first : ∃ lvl, b.book.top a.side.opposite = some lvl ∧ (b.book.level lvl).firstOrder = some itr
  limit : limitMissed a.side a.price (b.book.order itr).price = false
  fills : b.FillsOrder itr leavesQty b' leavesQty'

/-- Why the matching loop ends. -/
def MatchDone (a : Aggressor) (b : MEOrderBook) (leavesQty : Qty) : Prop :=
  leavesQty = 0 ∨ b.book.top a.side.opposite = none ∨
    ∃ lvl itr, b.book.top a.side.opposite = some lvl ∧
      (b.book.level lvl).firstOrder = some itr ∧
      limitMissed a.side a.price (b.book.order itr).price = true

/-- What every round keeps holds when the loop ends. -/
theorem checkForMatchLoop_rule (a : Aggressor) {P : MEOrderBook → Qty → List Fill → Prop}
    (hstep : ∀ b leavesQty fills itr b' leavesQty', P b leavesQty fills →
      MatchStep a b leavesQty itr b' leavesQty' →
      P b' leavesQty' (fills ++ [a.fill (b.book.order itr) leavesQty]))
    (fuel : Nat) {b b' : MEOrderBook} {leavesQty leavesQty' : Qty} {es : List Event}
    (fills : List Fill) (hinit : P b leavesQty fills)
    (h : checkForMatchLoop a.tickerId a.clientId a.side a.price a.clientOrderId a.newMarketOrderId
      fuel b leavesQty = .ok (b', leavesQty', es)) :
    ∃ more : List Fill, es = more.flatMap Fill.events ∧ P b' leavesQty' (fills ++ more) ∧
      MatchDone a b' leavesQty' := by
  induction fuel generalizing b leavesQty es fills with
  | zero => simp [checkForMatchLoop] at h
  | succ fuel ih =>
    rw [checkForMatchLoop] at h
    by_cases hleaves : leavesQty = 0
    · rw [if_pos hleaves] at h
      cases h
      exact ⟨[], rfl, by simpa using hinit, .inl hleaves⟩
    rw [if_neg hleaves] at h
    cases htop : b.book.top a.side.opposite with
    | none =>
      simp only [htop] at h
      cases h
      exact ⟨[], rfl, by simpa using hinit, .inr (.inl htop)⟩
    | some lvl =>
      simp only [htop] at h
      obtain ⟨itr, hitr, h⟩ := bind_eq_ok h
      have hfirst := deref_eq_ok hitr
      by_cases hlimit : limitMissed a.side a.price (b.book.order itr).price = true
      · rw [if_pos hlimit] at h
        cases h
        exact ⟨[], rfl, by simpa using hinit, .inr (.inr ⟨lvl, itr, htop, hfirst, hlimit⟩)⟩
      · rw [if_neg hlimit] at h
        obtain ⟨⟨b₁, leaves₁, es₁⟩, hmatch, h⟩ := bind_eq_ok h
        obtain ⟨⟨b₂, leaves₂, es₂⟩, hrest, h⟩ := bind_eq_ok h
        cases h
        obtain ⟨hfill, rfl⟩ := matchOrder_cases a hmatch
        have hround : MatchStep a b leavesQty itr b₁ leaves₁ :=
          ⟨hleaves, ⟨lvl, htop, hfirst⟩, by simpa using hlimit, hfill⟩
        obtain ⟨more, rfl, hP, hdone⟩ := ih _ (hstep _ _ _ _ _ _ hinit hround) hrest
        exact ⟨a.fill (b.book.order itr) leavesQty :: more, by simp, by simpa using hP, hdone⟩

/-- What every round keeps holds after `checkForMatch`. Only a trading side has rounds. -/
theorem checkForMatch_rule (a : Aggressor) {P : MEOrderBook → Qty → List Fill → Prop}
    (hstep : a.side.Trading → ∀ b leavesQty fills itr b' leavesQty', P b leavesQty fills →
      MatchStep a b leavesQty itr b' leavesQty' →
      P b' leavesQty' (fills ++ [a.fill (b.book.order itr) leavesQty]))
    {b b' : MEOrderBook} {qty leavesQty : Qty} {es : List Event} (hinit : P b qty [])
    (h : b.checkForMatch a.tickerId a.clientId a.side a.price a.clientOrderId a.newMarketOrderId qty =
      .ok (b', leavesQty, es)) :
    ∃ fills : List Fill, es = fills.flatMap Fill.events ∧ P b' leavesQty fills ∧
      (a.side.Trading → MatchDone a b' leavesQty) := by
  unfold checkForMatch at h
  split at h
  · rename_i hside
    obtain ⟨fills, hes, hP, hdone⟩ := checkForMatchLoop_rule a (hstep hside) _ [] hinit h
    exact ⟨fills, hes, by simpa using hP, fun _ => hdone⟩
  · rename_i hside
    cases h
    exact ⟨[], rfl, hinit, fun hs => absurd hs hside⟩

/-- The messages of `add` before and after its fills. -/
def accepted (a : Aggressor) (marketOrderId : OrderId) (qty : Qty) : Event :=
  .response ⟨.accepted, a.clientId, a.tickerId, a.clientOrderId, marketOrderId, a.side, a.price, 0, qty⟩

def rested (a : Aggressor) (marketOrderId : OrderId) (leavesQty : Qty) (priority : Priority) : Event :=
  .update ⟨.add, marketOrderId, a.tickerId, a.side, a.price, leavesQty, priority⟩

/-- The aggressor that `add` makes of its arguments. Its fills carry the quantity in place of
the market order id. -/
def addAggressor (clientId : ClientId) (clientOrderId : OrderId) (tickerId : TickerId) (side : Side)
    (price : Price) (qty : Qty) : Aggressor :=
  ⟨tickerId, clientId, side, price, clientOrderId, qty⟩

/-- The book with its next market order id drawn. -/
def drawn (b : MEOrderBook) : MEOrderBook := b.generateNewMarketOrderId.2

/-- The remainder of an aggressor rests in block `o` of the order pool. -/
structure Rests (a : Aggressor) (b : MEOrderBook) (marketOrderId : OrderId) (leavesQty : Qty)
    (priority : Priority) (o : Nat) (b' : MEOrderBook) : Prop where
  next : b.getNextPriority a.price = .ok priority
  placed : ∃ pool book,
    b.book.orderPool.allocate (a.resting marketOrderId leavesQty priority) = .ok (pool, o) ∧
    (b.book.setOrderPool pool).addOrder o = .ok book ∧ b' = { b with book := book }

lemma restOrder_cases (a : Aggressor) {b b' : MEOrderBook} {marketOrderId : OrderId} {leavesQty : Qty}
    {es : List Event}
    (h : b.restOrder a.clientId a.clientOrderId a.tickerId a.side a.price marketOrderId leavesQty =
      .ok (b', es)) :
    ∃ priority o, Rests a b marketOrderId leavesQty priority o b' ∧
      es = [rested a marketOrderId leavesQty priority] := by
  obtain ⟨priority, hpriority, h⟩ := bind_eq_ok h
  obtain ⟨⟨pool, o⟩, halloc, h⟩ := bind_eq_ok h
  obtain ⟨book, hbook, h⟩ := bind_eq_ok h
  cases h
  exact ⟨priority, o, ⟨hpriority, pool, book, halloc, hbook, rfl⟩, rfl⟩

/-- What `add` can do: match, with the market order id for a quantity, and rest the remainder. -/
theorem add_cases {b b' : MEOrderBook} {clientId : ClientId} {clientOrderId : OrderId}
    {tickerId : TickerId} {side : Side} {price : Price} {qty : Qty} {es : List Event}
    (h : b.add clientId clientOrderId tickerId side price qty = .ok (b', es)) :
    let a := addAggressor clientId clientOrderId tickerId side price qty
    ∃ b₁ leavesQty fills,
      b.drawn.checkForMatch a.tickerId a.clientId a.side a.price a.clientOrderId a.newMarketOrderId
        (wrap32 b.nextMarketOrderId) = .ok (b₁, leavesQty, fills) ∧
      ((leavesQty = 0 ∧ b' = b₁ ∧ es = accepted a b.nextMarketOrderId qty :: fills) ∨
       (leavesQty ≠ 0 ∧ ∃ priority o, Rests a b₁ b.nextMarketOrderId leavesQty priority o b' ∧
        es = accepted a b.nextMarketOrderId qty :: fills ++
          [rested a b.nextMarketOrderId leavesQty priority])) := by
  intro a
  simp only [add] at h
  obtain ⟨⟨b₁, leavesQty, fills⟩, hmatch, h⟩ := bind_eq_ok h
  refine ⟨b₁, leavesQty, fills, hmatch, ?_⟩
  by_cases hleaves : leavesQty = 0
  · rw [if_pos hleaves] at h
    cases h
    exact .inl ⟨hleaves, rfl, rfl⟩
  · rw [if_neg hleaves] at h
    obtain ⟨⟨b₂, rest⟩, hrest, h⟩ := bind_eq_ok h
    cases h
    obtain ⟨priority, o, hrests, rfl⟩ := restOrder_cases a hrest
    exact .inr ⟨hleaves, priority, o, hrests, rfl⟩

/-- The messages of a successful cancel. -/
def canceled (order : MEOrder) (clientId : ClientId) (orderId : OrderId) (tickerId : TickerId) :
    List Event :=
  [.update ⟨.cancel, order.ids.marketOrderId, tickerId, order.side, order.price, 0, order.priority⟩,
   .response ⟨.canceled, clientId, tickerId, orderId, order.ids.marketOrderId, order.side, order.price,
     Qty_INVALID, order.qty⟩]

def cancelRejected (clientId : ClientId) (orderId : OrderId) (tickerId : TickerId) : Event :=
  .response ⟨.cancelRejected, clientId, tickerId, orderId, OrderId_INVALID, .invalid, Price_INVALID,
    Qty_INVALID, Qty_INVALID⟩

lemma lookupOrder_eq_some {b : MEOrderBook} {clientId : ClientId} {orderId : OrderId} {o : Nat}
    (h : b.lookupOrder clientId orderId = .ok (some o)) : b.book.orderTable (clientId, orderId) = some o := by
  simp only [lookupOrder] at h
  split at h
  · split at h
    · simpa using h
    · cases h
  · simp at h

/-- What `cancel` can do: reject, or take out the order that the key table gives. -/
theorem cancel_cases {b b' : MEOrderBook} {clientId : ClientId} {orderId : OrderId} {tickerId : TickerId}
    {es : List Event} (h : b.cancel clientId orderId tickerId = .ok (b', es)) :
    (b.lookupOrder clientId orderId = .ok none ∧ b' = b ∧ es = [cancelRejected clientId orderId tickerId]) ∨
    (∃ o book, b.book.orderTable (clientId, orderId) = some o ∧ b.book.removeOrder o = .ok book ∧
      b' = { b with book := book } ∧ es = canceled (b.book.order o) clientId orderId tickerId) := by
  obtain ⟨found, hfound, h⟩ := bind_eq_ok h
  cases found with
  | none =>
    cases h
    exact .inl ⟨hfound, rfl, rfl⟩
  | some o =>
    obtain ⟨book, hbook, h⟩ := bind_eq_ok h
    cases h
    exact .inr ⟨o, book, lookupOrder_eq_some hfound, hbook, rfl, rfl⟩

/-- What a fill leaves alone, and what it does to the order it fills. -/
structure FillFrame (b : MEOrderBook) (itr : Nat) (leavesQty : Qty) (b' : MEOrderBook) : Prop where
  tickerId : b'.tickerId = b.tickerId
  nextMarketOrderId : b'.nextMarketOrderId = b.nextMarketOrderId
  order : ∀ q, q ≠ itr → (b'.book.order q).unlinked = (b.book.order q).unlinked
  filled : (b'.book.order itr).unlinked = { (b.book.order itr).unlinked with
    qty := (b.book.order itr).qty - min leavesQty (b.book.order itr).qty }
  used : ∀ q, b'.book.orderPool.Used q ↔
    b.book.orderPool.Used q ∧ (q = itr → leavesQty < (b.book.order itr).qty)
  table : b'.book.orderTable = if (b.book.order itr).qty ≤ leavesQty then
    Function.update b.book.orderTable (OrderKey.key (b.book.order itr).ids) none
    else b.book.orderTable
  orderRoom : b.book.orderPool.HasRoom → b'.book.orderPool.HasRoom
  levelRoom : b.book.ordersAtPricePool.HasRoom → b'.book.ordersAtPricePool.HasRoom

lemma FillFrame.ids {b b' : MEOrderBook} {itr : Nat} {leavesQty : Qty}
    (h : FillFrame b itr leavesQty b') (q : Nat) : (b'.book.order q).ids = (b.book.order q).ids := by
  by_cases hq : q = itr
  · have hids := congrArg BookOrder.ids h.filled
    exact hq ▸ hids
  · exact (BookOrder.unlinked_eq_iff.mp (h.order q hq)).1

lemma FillFrame.price {b b' : MEOrderBook} {itr : Nat} {leavesQty : Qty}
    (h : FillFrame b itr leavesQty b') (q : Nat) : (b'.book.order q).price = (b.book.order q).price := by
  by_cases hq : q = itr
  · have hprice := congrArg BookOrder.price h.filled
    exact hq ▸ hprice
  · exact (BookOrder.unlinked_eq_iff.mp (h.order q hq)).2.2.1

lemma FillFrame.qty {b b' : MEOrderBook} {itr : Nat} {leavesQty : Qty}
    (h : FillFrame b itr leavesQty b') : (b'.book.order itr).qty =
      (b.book.order itr).qty - min leavesQty (b.book.order itr).qty :=
  congrArg BookOrder.qty h.filled

theorem FillsOrder.frame {b b' : MEOrderBook} {itr : Nat} {leavesQty leavesQty' : Qty}
    (h : b.FillsOrder itr leavesQty b' leavesQty') : FillFrame b itr leavesQty b' := by
  rcases h with ⟨hqty, -, book, hbook, rfl⟩ | ⟨hqty, -, rfl⟩
  · have hf := PriceBook.removeOrder_frame hbook
    refine ⟨rfl, rfl, fun q hq => ?_, ?_, fun q => ?_, ?_, fun hroom => ?_, fun hroom => ?_⟩
    · rw [hf.order q, PriceBook.order_modifyOrder, if_neg hq]
    · rw [hf.order itr, PriceBook.order_modifyOrder, if_pos rfl, min_eq_right hqty, Nat.sub_self]
      rfl
    · rw [hf.used q]
      have hused : (b.book.setQty itr 0).orderPool.Used q ↔ b.book.orderPool.Used q := by simp
      have hnot : ¬leavesQty < (b.book.order itr).qty := Nat.not_lt.mpr hqty
      rw [hused]
      tauto
    · rw [if_pos hqty, hf.table, PriceBook.ids_setQty]
      rfl
    · exact hf.orderRoom (hroom.modify _ _)
    · exact hf.levelRoom.room hroom
  · refine ⟨rfl, rfl, fun q hq => ?_, ?_, fun q => ?_, ?_, fun hroom => ?_, id⟩
    · rw [PriceBook.order_modifyOrder, if_neg hq]
    · rw [PriceBook.order_modifyOrder, if_pos rfl, min_eq_left hqty.le]
      rfl
    · simp [hqty]
    · rw [if_neg (Nat.not_le.mpr hqty)]
      rfl
    · exact hroom.modify _ _

/-- The block and the key that a resting remainder takes. -/
structure RestFrame (a : Aggressor) (b : MEOrderBook) (marketOrderId : OrderId) (leavesQty : Qty)
    (priority : Priority) (o : Nat) (b' : MEOrderBook) : Prop where
  tickerId : b'.tickerId = b.tickerId
  nextMarketOrderId : b'.nextMarketOrderId = b.nextMarketOrderId
  order : ∀ q, q ≠ o → (b'.book.order q).unlinked = (b.book.order q).unlinked
  placed : (b'.book.order o).unlinked = a.resting marketOrderId leavesQty priority
  wasFree : ¬b.book.orderPool.Used o
  used : ∀ q, b'.book.orderPool.Used q ↔ q = o ∨ b.book.orderPool.Used q
  table : b'.book.orderTable = Function.update b.book.orderTable (a.clientId, a.clientOrderId) (some o)

theorem Rests.frame {a : Aggressor} {b b' : MEOrderBook} {marketOrderId : OrderId} {leavesQty : Qty}
    {priority : Priority} {o : Nat} (h : Rests a b marketOrderId leavesQty priority o b') :
    RestFrame a b marketOrderId leavesQty priority o b' := by
  obtain ⟨pool, book, halloc, hadd, rfl⟩ := h.placed
  obtain ⟨rfl, hfree, k, rfl⟩ := MemPool.allocate_eq_ok halloc
  have hf := PriceBook.addOrder_frame hadd
  have hself : (b.book.orderPool.take b.book.orderPool.nextFreeIndex
      (a.resting marketOrderId leavesQty priority)).object b.book.orderPool.nextFreeIndex =
      a.resting marketOrderId leavesQty priority := by simp
  refine ⟨rfl, rfl, fun q hq => ?_, ?_, hfree, fun q => ?_, ?_⟩
  · rw [hf.order q]
    exact congrArg BookOrder.unlinked ((MemPool.object_take _ _ _ _).trans (if_neg hq))
  · rw [hf.order]
    exact congrArg BookOrder.unlinked hself
  · rw [hf.used q]
    exact MemPool.used_take _ _ _ _
  · rw [hf.table]
    exact congrArg (fun k => Function.update b.book.orderTable k _)
      (congrArg (fun x : MEOrder => OrderKey.key x.ids) hself)

end MEOrderBook

/-- The market order ids of the resting orders are distinct and below `next`. -/
structure IdsBelow (next : OrderId) (b : MEOrderBook) : Prop where
  distinct : ∀ o q, b.book.orderPool.Used o → b.book.orderPool.Used q →
    (b.book.order o).ids.marketOrderId = (b.book.order q).ids.marketOrderId → o = q
  below : ∀ o, b.book.orderPool.Used o → (b.book.order o).ids.marketOrderId < next

section Ids
variable {b b' : MEOrderBook} {o : Nat} {next : OrderId}
open MEOrderBook

/-- The ids survive a step that takes no new block and renames no order. -/
lemma IdsBelow.congr (h : IdsBelow next b)
    (hused : ∀ q, b'.book.orderPool.Used q → b.book.orderPool.Used q)
    (hid : ∀ q, (b'.book.order q).ids = (b.book.order q).ids) : IdsBelow next b' where
  distinct := fun p q hp hq he => by
    rw [hid p, hid q] at he
    exact h.distinct p q (hused p hp) (hused q hq) he
  below := fun q hq => by
    rw [hid q]
    exact h.below q (hused q hq)

/-- The remainder of an aggressor rests under the id drawn last. -/
lemma IdsBelow.add (h : IdsBelow next b) {a : Aggressor} {leavesQty : Qty} {priority : Priority}
    (hf : RestFrame a b next leavesQty priority o b') : IdsBelow (next + 1) b' := by
  have hidO : (b'.book.order o).ids.marketOrderId = next :=
    congrArg (fun x : MEOrder => x.ids.marketOrderId) hf.placed
  have hid : ∀ q, b.book.orderPool.Used q →
      (b'.book.order q).ids.marketOrderId = (b.book.order q).ids.marketOrderId := fun q hq => by
    rw [(BookOrder.unlinked_eq_iff.mp (hf.order q fun he => hf.wasFree (he ▸ hq))).1]
  have hlt : ∀ q, b.book.orderPool.Used q → (b'.book.order q).ids.marketOrderId < next := fun q hq =>
    (hid q hq).symm ▸ h.below q hq
  refine ⟨fun p q hp hq he => ?_, fun q hq => ?_⟩
  · rcases (hf.used p).mp hp with rfl | hp <;> rcases (hf.used q).mp hq with rfl | hq
    · rfl
    · exact absurd (hidO.symm.trans he) (Nat.ne_of_gt (hlt q hq))
    · exact absurd (he.trans hidO) (Nat.ne_of_lt (hlt p hp))
    · rw [hid p hp, hid q hq] at he
      exact h.distinct p q hp hq he
  · rcases (hf.used q).mp hq with rfl | hq
    · rw [hidO]
      exact Nat.lt_succ_self next
    · exact Nat.lt_succ_of_lt (hlt q hq)

end Ids

end LowLatencyExchange
