import LowLatencyExchange.Exchange.Messages
import LowLatencyExchange.Book.PriceBook

/-!
# The matching engine's order book

`Exchange::MEOrderBook`: one book per ticker, with the matching loop, and the two calls the
matching engine makes on it. Every call returns the book together with the messages it sent.
-/

namespace LowLatencyExchange

structure MEOrderIds where
  tickerId : TickerId
  clientId : ClientId
  clientOrderId : OrderId
  marketOrderId : OrderId
  deriving DecidableEq

abbrev MEOrder := BookOrder MEOrderIds

/-- `MEOrder()`. -/
def MEOrder.default : MEOrder :=
  ⟨⟨TickerId_INVALID, ClientId_INVALID, OrderId_INVALID, OrderId_INVALID⟩, .invalid, Price_INVALID,
    Qty_INVALID, Price_INVALID, none, none⟩

/-- `cid_oid_to_order_.at(client_id).at(client_order_id)`. -/
instance : OrderKey MEOrderIds (ClientId × OrderId) where
  key ids := (ids.clientId, ids.clientOrderId)
  inTable k := k.1 < ME_MAX_NUM_CLIENTS && k.2 < ME_MAX_ORDER_IDS

structure MEOrderBook where
  tickerId : TickerId
  book : PriceBook MEOrderIds (ClientId × OrderId)
  nextMarketOrderId : OrderId

namespace MEOrderBook

/-- A fresh book, with all tables null. -/
def create (tickerId : TickerId) : MEOrderBook where
  tickerId := tickerId
  book := {
    ordersAtPricePool := MemPool.create OrdersAtPrice.default ME_MAX_PRICE_LEVELS
    bidsByPrice := none
    asksByPrice := none
    priceOrdersAtPrice := fun _ => none
    orderPool := MemPool.create MEOrder.default ME_MAX_ORDER_IDS
    orderTable := fun _ => none }
  nextMarketOrderId := 1

/-- `next_market_order_id_++`. -/
def generateNewMarketOrderId (b : MEOrderBook) : OrderId × MEOrderBook :=
  (b.nextMarketOrderId, { b with nextMarketOrderId := wrap64 (b.nextMarketOrderId + 1) })

def getNextPriority (b : MEOrderBook) (price : Price) : Except Fault Priority :=
  match b.book.getOrdersAtPrice price with
  | none => pure 1
  | some lvl => do
    let first ← deref (b.book.level lvl).firstOrder
    let last ← deref (b.book.order first).prevOrder
    pure (wrap64 ((b.book.order last).priority + 1))

/-- `MEOrderBook::match`, a fill of the passive order `itr`. -/
def matchOrder (b : MEOrderBook) (tickerId : TickerId) (clientId : ClientId) (side : Side)
    (clientOrderId newMarketOrderId : OrderId) (itr : Nat) (leavesQty : Qty) :
    Except Fault (MEOrderBook × Qty × List Event) := do
  let orderQty := (b.book.order itr).qty
  let fillQty := min leavesQty orderQty
  let leavesQty := leavesQty - fillQty
  let book := b.book.setQty itr (orderQty - fillQty)
  let order := book.order itr
  let fills : List Event := [
    .response ⟨.filled, clientId, tickerId, clientOrderId, newMarketOrderId, side, order.price,
      fillQty, leavesQty⟩,
    .response ⟨.filled, order.ids.clientId, tickerId, order.ids.clientOrderId,
      order.ids.marketOrderId, order.side, order.price, fillQty, order.qty⟩,
    .update ⟨.trade, OrderId_INVALID, tickerId, side, order.price, fillQty, Priority_INVALID⟩]
  if order.qty = 0 then
    let cancel : Event := .update ⟨.cancel, order.ids.marketOrderId, tickerId, order.side,
      order.price, orderQty, Priority_INVALID⟩
    let book ← book.removeOrder itr
    pure ({ b with book := book }, leavesQty, fills ++ [cancel])
  else
    let modify : Event := .update ⟨.modify, order.ids.marketOrderId, tickerId, order.side,
      order.price, order.qty, order.priority⟩
    pure ({ b with book := book }, leavesQty, fills ++ [modify])

/-- The test that leaves the matching loop: the passive price is beyond the limit. -/
def limitMissed (side : Side) (limit passive : Price) : Bool :=
  if side = .buy then limit < passive else passive < limit

lemma limitMissed_self (side : Side) (price : Price) : limitMissed side price price = false := by
  unfold limitMissed
  split <;> exact decide_eq_false (Nat.lt_irrefl price)

/-- The `while` loop over the opposite side. Every round but the last frees an order, so the
pool's size bounds the number of rounds. -/
def checkForMatchLoop (tickerId : TickerId) (clientId : ClientId) (side : Side) (price : Price)
    (clientOrderId newMarketOrderId : OrderId) :
    Nat → MEOrderBook → Qty → Except Fault (MEOrderBook × Qty × List Event)
  | 0, _, _ => .error .diverges
  | fuel + 1, b, leavesQty =>
    if leavesQty = 0 then pure (b, leavesQty, [])
    else
      match b.book.top side.opposite with
      | none => pure (b, leavesQty, [])
      | some lvl => do
        let itr ← deref (b.book.level lvl).firstOrder
        if limitMissed side price (b.book.order itr).price then pure (b, leavesQty, [])
        else
          let (b, leavesQty, es) ←
            b.matchOrder tickerId clientId side clientOrderId newMarketOrderId itr leavesQty
          let (b, leavesQty, es') ← checkForMatchLoop tickerId clientId side price clientOrderId
            newMarketOrderId fuel b leavesQty
          pure (b, leavesQty, es ++ es')

/-- A side that is neither `BUY` nor `SELL` enters neither loop. -/
def checkForMatch (b : MEOrderBook) (tickerId : TickerId) (clientId : ClientId) (side : Side)
    (price : Price) (clientOrderId newMarketOrderId : OrderId) (qty : Qty) :
    Except Fault (MEOrderBook × Qty × List Event) :=
  if side.Trading then
    checkForMatchLoop tickerId clientId side price clientOrderId newMarketOrderId
      (b.book.orderPool.size + 2) b qty
  else pure (b, qty, [])

/-- The second half of `add`: the remainder rests. -/
def restOrder (b : MEOrderBook) (clientId : ClientId) (clientOrderId : OrderId) (tickerId : TickerId)
    (side : Side) (price : Price) (newMarketOrderId : OrderId) (leavesQty : Qty) :
    Except Fault (MEOrderBook × List Event) := do
  let priority ← b.getNextPriority price
  let (pool, order) ← b.book.orderPool.allocate
    ⟨⟨tickerId, clientId, clientOrderId, newMarketOrderId⟩, side, price, leavesQty, priority, none, none⟩
  let book ← (b.book.setOrderPool pool).addOrder order
  pure ({ b with book := book },
    [.update ⟨.add, newMarketOrderId, tickerId, side, price, leavesQty, priority⟩])

/-- `MEOrderBook::add`. The call of `checkForMatch` passes the quantity where the market order
id is expected and the market order id where the quantity is expected, so the id is narrowed
to the 32 bits of a quantity. -/
def add (b : MEOrderBook) (clientId : ClientId) (clientOrderId : OrderId) (tickerId : TickerId)
    (side : Side) (price : Price) (qty : Qty) : Except Fault (MEOrderBook × List Event) := do
  let (newMarketOrderId, b) := b.generateNewMarketOrderId
  let accepted : Event := .response ⟨.accepted, clientId, tickerId, clientOrderId, newMarketOrderId,
    side, price, 0, qty⟩
  let (b, leavesQty, fills) ←
    b.checkForMatch tickerId clientId side price clientOrderId qty (wrap32 newMarketOrderId)
  if leavesQty = 0 then pure (b, accepted :: fills)
  else
    let (b, rest) ←
      b.restOrder clientId clientOrderId tickerId side price newMarketOrderId leavesQty
    pure (b, accepted :: fills ++ rest)

/-- `.at(order_id)` of the client's own table, for a client the table has. -/
def lookupOrder (b : MEOrderBook) (clientId : ClientId) (orderId : OrderId) :
    Except Fault (Option Nat) :=
  if clientId < ME_MAX_NUM_CLIENTS then
    if orderId < ME_MAX_ORDER_IDS then pure (b.book.orderTable (clientId, orderId))
    else .error .outOfRange
  else pure none

def cancel (b : MEOrderBook) (clientId : ClientId) (orderId : OrderId) (tickerId : TickerId) :
    Except Fault (MEOrderBook × List Event) := do
  match ← b.lookupOrder clientId orderId with
  | none =>
    pure (b, [.response ⟨.cancelRejected, clientId, tickerId, orderId, OrderId_INVALID, .invalid,
      Price_INVALID, Qty_INVALID, Qty_INVALID⟩])
  | some exchangeOrder =>
    let order := b.book.order exchangeOrder
    let canceled : Event := .response ⟨.canceled, clientId, tickerId, orderId,
      order.ids.marketOrderId, order.side, order.price, Qty_INVALID, order.qty⟩
    let update : Event := .update ⟨.cancel, order.ids.marketOrderId, tickerId, order.side,
      order.price, 0, order.priority⟩
    let book ← b.book.removeOrder exchangeOrder
    pure ({ b with book := book }, [update, canceled])

end MEOrderBook

/-- The two calls of `MatchingEngine::processClientRequest` on a book. -/
inductive BookCall
  | add (clientId : ClientId) (clientOrderId : OrderId) (tickerId : TickerId) (side : Side)
      (price : Price) (qty : Qty)
  | cancel (clientId : ClientId) (orderId : OrderId) (tickerId : TickerId)
  deriving DecidableEq, Repr

def MEOrderBook.call (b : MEOrderBook) : BookCall → Except Fault (MEOrderBook × List Event)
  | .add clientId clientOrderId tickerId side price qty =>
    b.add clientId clientOrderId tickerId side price qty
  | .cancel clientId orderId tickerId => b.cancel clientId orderId tickerId

end LowLatencyExchange
