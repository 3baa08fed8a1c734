import LowLatencyExchange.Common.Logger
import LowLatencyExchange.Exchange.Messages
import LowLatencyExchange.Book.PriceBook

/-!
# The trading client's order book

`Trading::MarketOrderBook` rebuilds the exchange's book from market updates and keeps the
best prices of both sides. `TradeEngine` is declared but its source is empty, so a call into
it is an output of the model. The engine's pointer is taken to be set.
-/

namespace LowLatencyExchange

structure MarketOrderIds where
  orderId : OrderId
  deriving DecidableEq

abbrev MarketOrder := BookOrder MarketOrderIds

/-- `MarketOrder()`. -/
def MarketOrder.default : MarketOrder :=
  ⟨⟨OrderId_INVALID⟩, .invalid, Price_INVALID, Qty_INVALID, Price_INVALID, none, none⟩

/-- `oid_to_order_.at(order_id)`. -/
instance : OrderKey MarketOrderIds OrderId where
  key ids := ids.orderId
  inTable k := k < ME_MAX_ORDER_IDS

structure BBO where
  bidPrice : Price := Price_INVALID
  askPrice : Price := Price_INVALID
  bidQty : Qty := Qty_INVALID
  askQty : Qty := Qty_INVALID
  deriving DecidableEq, Repr

def BBO.toString (bbo : BBO) : String :=
  "BBO\x7b" ++ qtyToString bbo.bidQty ++ "@" ++ priceToString bbo.bidPrice ++ "X" ++
    qtyToString bbo.askQty ++ "@" ++ priceToString bbo.askPrice ++ "\x7d"

/-- What the book tells the trade engine. -/
inductive EngineCall
  | onTradeUpdate (update : MEMarketUpdate)
  | onOrderBookUpdate (tickerId : TickerId) (price : Price) (side : Side)
  deriving DecidableEq, Repr

abbrev MarketBook := PriceBook MarketOrderIds OrderId

/-- `time_str_` is what the clock gives at the next call of the logger. -/
structure MarketOrderBook where
  tickerId : TickerId
  book : MarketBook
  bbo : BBO := {}
  timeStr : String := ""

namespace MarketOrderBook

/-- A fresh book, with all tables null. -/
def create (tickerId : TickerId) : MarketOrderBook where
  tickerId := tickerId
  book := {
    ordersAtPricePool := MemPool.create OrdersAtPrice.default ME_MAX_PRICE_LEVELS
    bidsByPrice := none
    asksByPrice := none
    priceOrdersAtPrice := fun _ => none
    orderPool := MemPool.create MarketOrder.default ME_MAX_ORDER_IDS
    orderTable := fun _ => none }

/-- The loop that adds up the quantities of a level, from `order` until it is back at `first`. -/
def sumQtyLoop (b : MarketBook) (first : Nat) : Nat → Option Nat → Qty → Except Fault Qty
  | 0, _, _ => .error .diverges
  | fuel + 1, order, qty =>
    if order = some first then pure qty
    else do
      let itr ← deref order
      sumQtyLoop b first fuel (b.order itr).nextOrder (wrap32 (qty + (b.order itr).qty))

/-- Price and quantity of a side's top level. -/
def bestOf (b : MarketBook) (side : Side) : Except Fault (Price × Qty) :=
  match b.top side with
  | none => pure (Price_INVALID, Qty_INVALID)
  | some best => do
    let first ← deref (b.level best).firstOrder
    let qty ← sumQtyLoop b first (b.orderPool.size + 1) (b.order first).nextOrder (b.order first).qty
    pure ((b.level best).price, qty)

def updateBBO (b : MarketBook) (bbo : BBO) (updateBid updateAsk : Bool) : Except Fault BBO := do
  let bbo ←
    if updateBid then do
      let (price, qty) ← bestOf b .buy
      pure { bbo with bidPrice := price, bidQty := qty }
    else pure bbo
  if updateAsk then do
    let (price, qty) ← bestOf b .sell
    pure { bbo with askPrice := price, askQty := qty }
  else pure bbo

/-- `oid_to_order_.at(order_id)`. -/
def lookupOrder (b : MarketBook) (orderId : OrderId) : Except Fault (Option Nat) :=
  if orderId < ME_MAX_ORDER_IDS then pure (b.orderTable orderId) else .error .outOfRange

/-- `order_pool_.deallocate` for every order in the table, and the reset of the table. -/
def clearOrders (b : MarketBook) : Except Fault MarketBook := do
  let pool ← (List.range ME_MAX_ORDER_IDS).foldlM (fun pool orderId =>
    match b.orderTable orderId with
    | some order => pool.deallocate order
    | none => pure pool) b.orderPool
  pure { b with orderPool := pool, orderTable := fun _ => none }

/-- The loop over a ladder on `CLEAR`. Its header names `bid->next_entry_` but assigns nothing,
so it frees the same level again. -/
def clearLevelsLoop (best itr : Nat) : Nat → MemPool OrdersAtPrice → Except Fault (MemPool OrdersAtPrice)
  | 0, _ => .error .diverges
  | fuel + 1, pool =>
    if itr = best then pure pool
    else do
      let pool ← pool.deallocate itr
      clearLevelsLoop best itr fuel pool

/-- The levels of one side are freed. -/
def clearLevels (b : MarketBook) (side : Side) : Except Fault MarketBook :=
  match b.top side with
  | none => pure b
  | some best =>
    match (b.level best).nextEntry with
    | none => .error (.assert "Element being dealoocated does not belong to this memory pool.")
    | some second => do
      let pool ← clearLevelsLoop best second (b.ordersAtPricePool.size + 1) b.ordersAtPricePool
      let pool ← pool.deallocate best
      pure (b.setLevelPool pool)

/-- The branches of the `switch`. `CLEAR` leaves the table of price levels as it is. -/
def applyUpdate (b : MarketBook) (u : MEMarketUpdate) : Except Fault MarketBook :=
  match u.type with
  | .add => do
    let (pool, order) ← b.orderPool.allocate
      ⟨⟨u.orderId⟩, u.side, u.price, u.qty, u.priority, none, none⟩
    (b.setOrderPool pool).addOrder order
  | .modify => do
    let order ← deref (← lookupOrder b u.orderId)
    pure (b.setQty order u.qty)
  | .cancel => do
    let order ← deref (← lookupOrder b u.orderId)
    b.removeOrder order
  | .clear => do
    let b ← clearOrders b
    let b ← clearLevels b .buy
    let b ← clearLevels b .sell
    pure { b with bidsByPrice := none, asksByPrice := none }
  | _ => pure b

/-- `bid_updated` and `ask_updated`: the update is at the top of its side or above it. -/
def bestUpdated (b : MarketBook) (side : Side) (u : MEMarketUpdate) : Bool :=
  match b.top side with
  | none => false
  | some best => u.side = side && (b.level best).price ≤ u.price

def onMarketUpdate (b : MarketOrderBook) (u : MEMarketUpdate) :
    Except Fault (MarketOrderBook × List EngineCall) :=
  let bidUpdated := bestUpdated b.book .buy u
  let askUpdated := bestUpdated b.book .sell u
  if u.type = .trade then pure (b, [.onTradeUpdate u])
  else do
    let book ← applyUpdate b.book u
    let bbo ← updateBBO book b.bbo bidUpdated askUpdated
    Logger.log "%:% %() % % %\n"
      [.text "market_order_book.cpp", .number 81, .text "onMarketUpdate", .text b.timeStr,
        .text u.toString, .text bbo.toString]
    pure ({ b with book := book, bbo := bbo }, [.onOrderBookUpdate u.tickerId u.price u.side])

end MarketOrderBook
end LowLatencyExchange
