import LowLatencyExchange.Common.MemPool

/-!
# The intrusive limit order book

`Exchange::MEOrderBook` and `Trading::MarketOrderBook` carry the same private helpers over
the same intrusive structure: price levels in a circular doubly linked ladder per side, the
orders of a level in a circular doubly linked ring, a table from price to level and a table
from an order's key to the order. They differ in the identifiers an order carries and in the
key. Both are instances of the definitions of this file, which follow the text of
`me_order_book.h` and `market_order_book.h`. A pointer is the index of a pool block, and the
null pointer is `none`.
-/

namespace LowLatencyExchange

/-- `MEOrder` and `MarketOrder`. Their identifiers are `ids`, the other fields agree. -/
structure BookOrder (I : Type) where
  ids : I
  side : Side
  price : Price
  qty : Qty
  priority : Priority
  prevOrder : Option Nat
  nextOrder : Option Nat
  deriving DecidableEq

/-- `MEOrdersAtPrice` and `MarketOrdersAtPrice`. `firstOrder` is `first_me_order_`, and
`first_mkt_order_` on the trading side. -/
structure OrdersAtPrice where
  side : Side
  price : Price
  firstOrder : Option Nat
  prevEntry : Option Nat
  nextEntry : Option Nat
  deriving DecidableEq

/-- The default level of a fresh pool. -/
def OrdersAtPrice.default : OrdersAtPrice :=
  ⟨.invalid, Price_INVALID, none, none, none⟩

/-- How an order is found again from outside: its key, and the keys `.at()` accepts. -/
class OrderKey (I : Type) (K : outParam Type) where
  key : I → K
  inTable : K → Bool

structure PriceBook (I K : Type) where
  ordersAtPricePool : MemPool OrdersAtPrice
  bidsByPrice : Option Nat
  asksByPrice : Option Nat
  priceOrdersAtPrice : Nat → Option Nat
  orderPool : MemPool (BookOrder I)
  orderTable : K → Option Nat

def priceToIndex (price : Price) : Nat := price % ME_MAX_PRICE_LEVELS

/-- The comparison `addOrdersAtPrice` writes out four times: `price` is worse than `other`. -/
def addAfter (side : Side) (price other : Price) : Bool :=
  (side = .sell && other < price) || (side = .buy && price < other)

namespace PriceBook
variable {I K : Type}

def level (b : PriceBook I K) (p : Nat) : OrdersAtPrice := b.ordersAtPricePool.object p
def order (b : PriceBook I K) (p : Nat) : BookOrder I := b.orderPool.object p

def modifyLevel (b : PriceBook I K) (p : Nat) (f : OrdersAtPrice → OrdersAtPrice) : PriceBook I K :=
  { b with ordersAtPricePool := b.ordersAtPricePool.modify p f }

def modifyOrder (b : PriceBook I K) (p : Nat) (f : BookOrder I → BookOrder I) : PriceBook I K :=
  { b with orderPool := b.orderPool.modify p f }

abbrev setNextEntry (b : PriceBook I K) (p : Nat) (q : Option Nat) : PriceBook I K :=
  b.modifyLevel p fun l => { l with nextEntry := q }
abbrev setPrevEntry (b : PriceBook I K) (p : Nat) (q : Option Nat) : PriceBook I K :=
  b.modifyLevel p fun l => { l with prevEntry := q }
abbrev setFirstOrder (b : PriceBook I K) (p : Nat) (q : Option Nat) : PriceBook I K :=
  b.modifyLevel p fun l => { l with firstOrder := q }
abbrev setNextOrder (b : PriceBook I K) (p : Nat) (q : Option Nat) : PriceBook I K :=
  b.modifyOrder p fun o => { o with nextOrder := q }
abbrev setPrevOrder (b : PriceBook I K) (p : Nat) (q : Option Nat) : PriceBook I K :=
  b.modifyOrder p fun o => { o with prevOrder := q }
abbrev setQty (b : PriceBook I K) (p : Nat) (qty : Qty) : PriceBook I K :=
  b.modifyOrder p fun o => { o with qty := qty }

def setLevelPool (b : PriceBook I K) (pool : MemPool OrdersAtPrice) : PriceBook I K :=
  { b with ordersAtPricePool := pool }
def setOrderPool (b : PriceBook I K) (pool : MemPool (BookOrder I)) : PriceBook I K :=
  { b with orderPool := pool }

/-- `(side == Side::BUY ? bids_by_price_ : asks_by_price_)`. -/
def top (b : PriceBook I K) (side : Side) : Option Nat :=
  if side = .buy then b.bidsByPrice else b.asksByPrice

def setTop (b : PriceBook I K) (side : Side) (p : Option Nat) : PriceBook I K :=
  if side = .buy then { b with bidsByPrice := p } else { b with asksByPrice := p }

def getOrdersAtPrice (b : PriceBook I K) (price : Price) : Option Nat :=
  b.priceOrdersAtPrice (priceToIndex price)

def setOrdersAtPrice (b : PriceBook I K) (price : Price) (p : Option Nat) : PriceBook I K :=
  { b with priceOrdersAtPrice := Function.update b.priceOrdersAtPrice (priceToIndex price) p }

/-- The `while` loop of the target scan. A ladder has at most as many levels as the pool has
blocks, so a longer walk never ends. -/
def findTargetLoop (b : PriceBook I K) (side : Side) (price : Price) (best : Nat) :
    Nat → Nat → Bool → Except Fault (Nat × Bool)
  | 0, _, _ => .error .diverges
  | fuel + 1, target, after =>
    if after && target ≠ best then
      if addAfter side price (b.level target).price then do
        let next ← deref (b.level target).nextEntry
        b.findTargetLoop side price best fuel next true
      else .ok (target, false)
    else .ok (target, after)

/-- The two tests before the loop, and the loop. -/
def findTarget (b : PriceBook I K) (side : Side) (price : Price) (best : Nat) :
    Except Fault (Nat × Bool) := do
  if addAfter side price (b.level best).price then
    let second ← deref (b.level best).nextEntry
    b.findTargetLoop side price best (b.ordersAtPricePool.size + 1) second
      (addAfter side price (b.level second).price)
  else
    b.findTargetLoop side price best (b.ordersAtPricePool.size + 1) best false

/-- "add new_orders_at_price after target". -/
def insertAfter (b : PriceBook I K) (new target : Nat) : Except Fault (PriceBook I K) := do
  let b := b.setPrevEntry new (some target)
  let after ← deref (b.level target).nextEntry
  let b := b.setPrevEntry after (some new)
  let b := b.setNextEntry new (b.level target).nextEntry
  pure (b.setNextEntry target (some new))

/-- "add new_orders_at_price before target". -/
def insertBefore (b : PriceBook I K) (new target : Nat) : Except Fault (PriceBook I K) := do
  let b := b.setPrevEntry new (b.level target).prevEntry
  let b := b.setNextEntry new (some target)
  let before ← deref (b.level target).prevEntry
  let b := b.setNextEntry before (some new)
  pure (b.setPrevEntry target (some new))

def addOrdersAtPrice (b : PriceBook I K) (new : Nat) : Except Fault (PriceBook I K) := do
  let side := (b.level new).side
  let price := (b.level new).price
  let b := b.setOrdersAtPrice price (some new)
  match b.top side with
  | none =>
    pure (((b.setTop side (some new)).setPrevEntry new (some new)).setNextEntry new (some new))
  | some best =>
    let (target, after) ← b.findTarget side price best
    if after then
      let target ← if target = best then deref (b.level best).prevEntry else pure target
      b.insertAfter new target
    else
      let b ← b.insertBefore new target
      -- the source moves the top when the new price is worse than the best one
      if addAfter side price (b.level best).price then
        let b := b.setNextEntry target
          (if (b.level target).nextEntry = some best then some new else (b.level target).nextEntry)
        pure (b.setTop side (some new))
      else pure b

/-- `removeOrdersAtPrice`, up to the reset of the price table and the pool. -/
def unlinkOrdersAtPrice (b : PriceBook I K) (side : Side) (lvl : Nat) : Except Fault (PriceBook I K) := do
  let best := b.top side
  if (b.level lvl).nextEntry = some lvl then
    pure (b.setTop side none)
  else
    let before ← deref (b.level lvl).prevEntry
    let b := b.setNextEntry before (b.level lvl).nextEntry
    let after ← deref (b.level lvl).nextEntry
    let b := b.setPrevEntry after (b.level lvl).prevEntry
    let b := if some lvl = best then b.setTop side (b.level lvl).nextEntry else b
    pure ((b.setPrevEntry lvl none).setNextEntry lvl none)

def removeOrdersAtPrice (b : PriceBook I K) (side : Side) (price : Price) :
    Except Fault (PriceBook I K) := do
  let lvl ← deref (b.getOrdersAtPrice price)
  let b ← b.unlinkOrdersAtPrice side lvl
  let b := b.setOrdersAtPrice price none
  let pool ← b.ordersAtPricePool.deallocate lvl
  pure (b.setLevelPool pool)

/-- The place of an order in its level: a level of its own, or the end of the level's ring. -/
def linkOrder (b : PriceBook I K) (o : Nat) : Except Fault (PriceBook I K) := do
  match b.getOrdersAtPrice (b.order o).price with
  | none =>
    let b := (b.setPrevOrder o (some o)).setNextOrder o (some o)
    let (pool, lvl) ← b.ordersAtPricePool.allocate
      ⟨(b.order o).side, (b.order o).price, some o, none, none⟩
    (b.setLevelPool pool).addOrdersAtPrice lvl
  | some lvl =>
    let first ← deref (b.level lvl).firstOrder
    let last ← deref (b.order first).prevOrder
    let b := b.setNextOrder last (some o)
    let b := b.setPrevOrder o (b.order first).prevOrder
    let b := b.setNextOrder o (some first)
    pure (b.setPrevOrder first (some o))

/-- `removeOrder`, up to the reset of the key table and the pool. -/
def unlinkOrder (b : PriceBook I K) (o : Nat) : Except Fault (PriceBook I K) := do
  let lvl := b.getOrdersAtPrice (b.order o).price
  if (b.order o).prevOrder = some o then
    b.removeOrdersAtPrice (b.order o).side (b.order o).price
  else
    let before ← deref (b.order o).prevOrder
    let orderAfter := (b.order o).nextOrder
    let b := b.setNextOrder before orderAfter
    let after ← deref orderAfter
    let b := b.setPrevOrder after (some before)
    let lvl ← deref lvl
    let b := if (b.level lvl).firstOrder = some o then b.setFirstOrder lvl orderAfter else b
    pure ((b.setPrevOrder o none).setNextOrder o none)

variable [DecidableEq K]

def setKey (b : PriceBook I K) (k : K) (p : Option Nat) : PriceBook I K :=
  { b with orderTable := Function.update b.orderTable k p }

variable [OrderKey I K]

/-- `.at(key) = p` on the key table. -/
def setOrderTable (b : PriceBook I K) (k : K) (p : Option Nat) : Except Fault (PriceBook I K) :=
  if OrderKey.inTable I k then .ok (b.setKey k p) else .error .outOfRange

def addOrder (b : PriceBook I K) (o : Nat) : Except Fault (PriceBook I K) := do
  let b ← b.linkOrder o
  b.setOrderTable (OrderKey.key (b.order o).ids) (some o)

def removeOrder (b : PriceBook I K) (o : Nat) : Except Fault (PriceBook I K) := do
  let b ← b.unlinkOrder o
  let b ← b.setOrderTable (OrderKey.key (b.order o).ids) none
  let pool ← b.orderPool.deallocate o
  pure (b.setOrderPool pool)

omit [DecidableEq K] [OrderKey I K]

section Fields
variable (b : PriceBook I K) (p q : Nat) (v : Option Nat) (s t : Side) (price : Price) (qty : Qty)
  {f : OrdersAtPrice → OrdersAtPrice} {g : BookOrder I → BookOrder I}

lemma level_modifyLevel (f : OrdersAtPrice → OrdersAtPrice) :
    (b.modifyLevel p f).level q = if q = p then f (b.level q) else b.level q :=
  MemPool.object_modify _ _ _ _

lemma order_modifyOrder (g : BookOrder I → BookOrder I) :
    (b.modifyOrder p g).order q = if q = p then g (b.order q) else b.order q :=
  MemPool.object_modify _ _ _ _

@[simp] lemma nextEntry_setNextEntry :
    ((b.setNextEntry p v).level q).nextEntry = if q = p then v else (b.level q).nextEntry := by
  rw [level_modifyLevel]; split <;> rfl

@[simp] lemma prevEntry_setPrevEntry :
    ((b.setPrevEntry p v).level q).prevEntry = if q = p then v else (b.level q).prevEntry := by
  rw [level_modifyLevel]; split <;> rfl

@[simp] lemma firstOrder_setFirstOrder :
    ((b.setFirstOrder p v).level q).firstOrder = if q = p then v else (b.level q).firstOrder := by
  rw [level_modifyLevel]; split <;> rfl

@[simp] lemma nextOrder_setNextOrder :
    ((b.setNextOrder p v).order q).nextOrder = if q = p then v else (b.order q).nextOrder := by
  rw [order_modifyOrder]; split <;> rfl

@[simp] lemma prevOrder_setPrevOrder :
    ((b.setPrevOrder p v).order q).prevOrder = if q = p then v else (b.order q).prevOrder := by
  rw [order_modifyOrder]; split <;> rfl

@[simp] lemma qty_setQty :
    ((b.setQty p qty).order q).qty = if q = p then qty else (b.order q).qty := by
  rw [order_modifyOrder]; split <;> rfl

@[simp] lemma nextEntry_modifyLevel (h : ∀ l, (f l).nextEntry = l.nextEntry) :
    ((b.modifyLevel p f).level q).nextEntry = (b.level q).nextEntry := by
  rw [level_modifyLevel]; split <;> simp [h]

@[simp] lemma prevEntry_modifyLevel (h : ∀ l, (f l).prevEntry = l.prevEntry) :
    ((b.modifyLevel p f).level q).prevEntry = (b.level q).prevEntry := by
  rw [level_modifyLevel]; split <;> simp [h]

@[simp] lemma firstOrder_modifyLevel (h : ∀ l, (f l).firstOrder = l.firstOrder) :
    ((b.modifyLevel p f).level q).firstOrder = (b.level q).firstOrder := by
  rw [level_modifyLevel]; split <;> simp [h]

@[simp] lemma levelSide_modifyLevel (h : ∀ l, (f l).side = l.side) :
    ((b.modifyLevel p f).level q).side = (b.level q).side := by
  rw [level_modifyLevel]; split <;> simp [h]

@[simp] lemma levelPrice_modifyLevel (h : ∀ l, (f l).price = l.price) :
    ((b.modifyLevel p f).level q).price = (b.level q).price := by
  rw [level_modifyLevel]; split <;> simp [h]

@[simp] lemma nextOrder_modifyOrder (h : ∀ o, (g o).nextOrder = o.nextOrder) :
    ((b.modifyOrder p g).order q).nextOrder = (b.order q).nextOrder := by
  rw [order_modifyOrder]; split <;> simp [h]

@[simp] lemma prevOrder_modifyOrder (h : ∀ o, (g o).prevOrder = o.prevOrder) :
    ((b.modifyOrder p g).order q).prevOrder = (b.order q).prevOrder := by
  rw [order_modifyOrder]; split <;> simp [h]

@[simp] lemma ids_modifyOrder (h : ∀ o, (g o).ids = o.ids) :
    ((b.modifyOrder p g).order q).ids = (b.order q).ids := by
  rw [order_modifyOrder]; split <;> simp [h]

@[simp] lemma side_modifyOrder (h : ∀ o, (g o).side = o.side) :
    ((b.modifyOrder p g).order q).side = (b.order q).side := by
  rw [order_modifyOrder]; split <;> simp [h]

@[simp] lemma price_modifyOrder (h : ∀ o, (g o).price = o.price) :
    ((b.modifyOrder p g).order q).price = (b.order q).price := by
  rw [order_modifyOrder]; split <;> simp [h]

@[simp] lemma qty_modifyOrder (h : ∀ o, (g o).qty = o.qty) :
    ((b.modifyOrder p g).order q).qty = (b.order q).qty := by
  rw [order_modifyOrder]; split <;> simp [h]

@[simp] lemma priority_modifyOrder (h : ∀ o, (g o).priority = o.priority) :
    ((b.modifyOrder p g).order q).priority = (b.order q).priority := by
  rw [order_modifyOrder]; split <;> simp [h]

@[simp] lemma level_modifyOrder : (b.modifyOrder p g).level q = b.level q := rfl
@[simp] lemma order_modifyLevel : (b.modifyLevel p f).order q = b.order q := rfl
@[simp] lemma orderPool_modifyLevel : (b.modifyLevel p f).orderPool = b.orderPool := rfl
@[simp] lemma ordersAtPricePool_modifyLevel :
    (b.modifyLevel p f).ordersAtPricePool = b.ordersAtPricePool.modify p f := rfl
@[simp] lemma orderPool_modifyOrder : (b.modifyOrder p g).orderPool = b.orderPool.modify p g := rfl
@[simp] lemma ordersAtPricePool_modifyOrder :
    (b.modifyOrder p g).ordersAtPricePool = b.ordersAtPricePool := rfl
@[simp] lemma top_modifyLevel : (b.modifyLevel p f).top s = b.top s := rfl
@[simp] lemma top_modifyOrder : (b.modifyOrder p g).top s = b.top s := rfl
@[simp] lemma table_modifyLevel : (b.modifyLevel p f).orderTable = b.orderTable := rfl
@[simp] lemma table_modifyOrder : (b.modifyOrder p g).orderTable = b.orderTable := rfl
@[simp] lemma prices_modifyLevel :
    (b.modifyLevel p f).priceOrdersAtPrice = b.priceOrdersAtPrice := rfl
@[simp] lemma prices_modifyOrder :
    (b.modifyOrder p g).priceOrdersAtPrice = b.priceOrdersAtPrice := rfl

@[simp] lemma top_setTop_self : (b.setTop s v).top s = v := by
  simp only [top, setTop]; split <;> rfl
lemma top_setTop : (b.setTop s v).top t = if (t = .buy ↔ s = .buy) then v else b.top t := by
  by_cases hs : s = .buy <;> by_cases ht : t = .buy <;> simp [top, setTop, hs, ht]
@[simp] lemma level_setTop : (b.setTop s v).level q = b.level q := by
  simp only [setTop]; split <;> rfl
@[simp] lemma order_setTop : (b.setTop s v).order q = b.order q := by
  simp only [setTop]; split <;> rfl
@[simp] lemma orderPool_setTop : (b.setTop s v).orderPool = b.orderPool := by
  simp only [setTop]; split <;> rfl
@[simp] lemma ordersAtPricePool_setTop : (b.setTop s v).ordersAtPricePool = b.ordersAtPricePool := by
  simp only [setTop]; split <;> rfl
@[simp] lemma table_setTop : (b.setTop s v).orderTable = b.orderTable := by
  simp only [setTop]; split <;> rfl
@[simp] lemma prices_setTop : (b.setTop s v).priceOrdersAtPrice = b.priceOrdersAtPrice := by
  simp only [setTop]; split <;> rfl

@[simp] lemma level_setOrdersAtPrice : (b.setOrdersAtPrice price v).level q = b.level q := rfl
@[simp] lemma order_setOrdersAtPrice : (b.setOrdersAtPrice price v).order q = b.order q := rfl
@[simp] lemma orderPool_setOrdersAtPrice : (b.setOrdersAtPrice price v).orderPool = b.orderPool := rfl
@[simp] lemma ordersAtPricePool_setOrdersAtPrice :
    (b.setOrdersAtPrice price v).ordersAtPricePool = b.ordersAtPricePool := rfl
@[simp] lemma top_setOrdersAtPrice : (b.setOrdersAtPrice price v).top s = b.top s := rfl
@[simp] lemma table_setOrdersAtPrice : (b.setOrdersAtPrice price v).orderTable = b.orderTable := rfl
@[simp] lemma prices_setOrdersAtPrice : (b.setOrdersAtPrice price v).priceOrdersAtPrice =
    Function.update b.priceOrdersAtPrice (priceToIndex price) v := rfl

variable (levels : MemPool OrdersAtPrice) (orders : MemPool (BookOrder I))

@[simp] lemma level_setLevelPool : (b.setLevelPool levels).level q = levels.object q := rfl
@[simp] lemma order_setLevelPool : (b.setLevelPool levels).order q = b.order q := rfl
@[simp] lemma orderPool_setLevelPool : (b.setLevelPool levels).orderPool = b.orderPool := rfl
@[simp] lemma ordersAtPricePool_setLevelPool : (b.setLevelPool levels).ordersAtPricePool = levels := rfl
@[simp] lemma top_setLevelPool : (b.setLevelPool levels).top s = b.top s := rfl
@[simp] lemma table_setLevelPool : (b.setLevelPool levels).orderTable = b.orderTable := rfl
@[simp] lemma prices_setLevelPool :
    (b.setLevelPool levels).priceOrdersAtPrice = b.priceOrdersAtPrice := rfl
@[simp] lemma level_setOrderPool : (b.setOrderPool orders).level q = b.level q := rfl
@[simp] lemma order_setOrderPool : (b.setOrderPool orders).order q = orders.object q := rfl
@[simp] lemma orderPool_setOrderPool : (b.setOrderPool orders).orderPool = orders := rfl
@[simp] lemma ordersAtPricePool_setOrderPool :
    (b.setOrderPool orders).ordersAtPricePool = b.ordersAtPricePool := rfl
@[simp] lemma top_setOrderPool : (b.setOrderPool orders).top s = b.top s := rfl
@[simp] lemma table_setOrderPool : (b.setOrderPool orders).orderTable = b.orderTable := rfl
@[simp] lemma prices_setOrderPool :
    (b.setOrderPool orders).priceOrdersAtPrice = b.priceOrdersAtPrice := rfl

variable [DecidableEq K] (k : K)

@[simp] lemma level_setKey : (b.setKey k v).level q = b.level q := rfl
@[simp] lemma order_setKey : (b.setKey k v).order q = b.order q := rfl
@[simp] lemma orderPool_setKey : (b.setKey k v).orderPool = b.orderPool := rfl
@[simp] lemma ordersAtPricePool_setKey :
    (b.setKey k v).ordersAtPricePool = b.ordersAtPricePool := rfl
@[simp] lemma top_setKey : (b.setKey k v).top s = b.top s := rfl
@[simp] lemma table_setKey : (b.setKey k v).orderTable = Function.update b.orderTable k v := rfl
@[simp] lemma prices_setKey : (b.setKey k v).priceOrdersAtPrice = b.priceOrdersAtPrice := rfl

end Fields

end PriceBook
end LowLatencyExchange
