import LowLatencyExchange.Common.Types

/-!
# Messages

The records that travel between the order server, the matching engine, the market data
publisher and the clients, with the defaults and the texts of the source. The enumerations
are read off the wire, so each keeps the bytes that have no name.
-/

namespace LowLatencyExchange

inductive ClientRequestType
  | invalid
  | new
  | cancel
  | other (value : UInt8)
  deriving DecidableEq, Repr, Inhabited

def clientRequestTypeToString : ClientRequestType → String
  | .new => "NEW"
  | .cancel => "CANCEL"
  | .invalid => "INVALID"
  | .other _ => "UNKNOWN"

structure MEClientRequest where
  type : ClientRequestType := .invalid
  clientId : ClientId := ClientId_INVALID
  tickerId : TickerId := TickerId_INVALID
  orderId : OrderId := OrderId_INVALID
  side : Side := .invalid
  price : Price := Price_INVALID
  qty : Qty := Qty_INVALID
  deriving DecidableEq, Repr

def MEClientRequest.toString (r : MEClientRequest) : String :=
  "MEClientRequest [type:" ++ clientRequestTypeToString r.type ++
    " client:" ++ clientIdToString r.clientId ++ " ticker:" ++ tickerIdToString r.tickerId ++
    " oid:" ++ orderIdToString r.orderId ++ " side:" ++ sideToString r.side ++
    " price:" ++ priceToString r.price ++ " qty:" ++ qtyToString r.qty ++ "]"

inductive ClientResponseType
  | invalid
  | accepted
  | canceled
  | filled
  | cancelRejected
  | other (value : UInt8)
  deriving DecidableEq, Repr, Inhabited

def clientResponseTypeToString : ClientResponseType → String
  | .accepted => "ACCEPTED"
  | .canceled => "CANCELED"
  | .filled => "FILLED"
  | .cancelRejected => "CANCEL_REJECTED"
  | .invalid => "INVALID"
  | .other _ => "UNKNOWN"

structure MEClientResponse where
  type : ClientResponseType := .invalid
  clientId : ClientId := ClientId_INVALID
  tickerId : TickerId := TickerId_INVALID
  clientOrderId : OrderId := OrderId_INVALID
  marketOrderId : OrderId := OrderId_INVALID
  side : Side := .invalid
  price : Price := Price_INVALID
  execQty : Qty := Qty_INVALID
  leavesQty : Qty := Qty_INVALID
  deriving DecidableEq, Repr

def MEClientResponse.toString (r : MEClientResponse) : String :=
  "MEClientResponse [type:" ++ clientResponseTypeToString r.type ++
    " client:" ++ clientIdToString r.clientId ++ " ticker:" ++ tickerIdToString r.tickerId ++
    " coid:" ++ orderIdToString r.clientOrderId ++ " moid:" ++ orderIdToString r.marketOrderId ++
    " side:" ++ sideToString r.side ++ " price:" ++ priceToString r.price ++
    " exec_qty:" ++ qtyToString r.execQty ++ " leaves_qty:" ++ qtyToString r.leavesQty ++ "]"

inductive MarketUpdateType
  | invalid
  | clear
  | add
  | modify
  | cancel
  | trade
  | snapshotStart
  | snapshotEnd
  | other (value : UInt8)
  deriving DecidableEq, Repr, Inhabited

def marketUpdateTypeToString : MarketUpdateType → String
  | .clear => "CLEAR"
  | .add => "ADD"
  | .modify => "MODIFY"
  | .cancel => "CANCEL"
  | .trade => "TRADE"
  | .snapshotStart => "SNAPSHOT_START"
  | .snapshotEnd => "SNAPSHOT_END"
  | .invalid => "INVALID"
  | .other _ => "UNKNOWN"

structure MEMarketUpdate where
  type : MarketUpdateType := .invalid
  orderId : OrderId := OrderId_INVALID
  tickerId : TickerId := TickerId_INVALID
  side : Side := .invalid
  price : Price := Price_INVALID
  qty : Qty := Qty_INVALID
  priority : Priority := Priority_INVALID
  deriving DecidableEq, Repr

/-- The priority is printed by `qtyToString`, which narrows it to 32 bits. -/
def MEMarketUpdate.toString (u : MEMarketUpdate) : String :=
  "MEMarketUpdate [type:" ++ marketUpdateTypeToString u.type ++
    " ticker:" ++ tickerIdToString u.tickerId ++ " oid:" ++ orderIdToString u.orderId ++
    " side:" ++ sideToString u.side ++ " price:" ++ priceToString u.price ++
    " qty:" ++ qtyToString u.qty ++ " priority:" ++ qtyToString (wrap32 u.priority) ++ "]"

structure MDPMarketUpdate where
  seqNum : Nat := 0
  meMarketUpdate : MEMarketUpdate := {}
  deriving DecidableEq, Repr

def MDPMarketUpdate.toString (u : MDPMarketUpdate) : String :=
  "MDPMarketUpdate [ seq:" ++ ToString.toString u.seqNum ++ " " ++ u.meMarketUpdate.toString ++ "]"

/-- What the matching engine sends, on its two outgoing rings, in the order it sends it. -/
inductive Event
  | response (r : MEClientResponse)
  | update (u : MEMarketUpdate)
  deriving DecidableEq, Repr

def Event.response? : Event → Option MEClientResponse
  | .response r => some r
  | .update _ => none

def Event.update? : Event → Option MEMarketUpdate
  | .response _ => none
  | .update u => some u

/-- The messages of one ring. -/
def responses (es : List Event) : List MEClientResponse := es.filterMap Event.response?
def updates (es : List Event) : List MEMarketUpdate := es.filterMap Event.update?

@[simp] lemma responses_nil : responses [] = [] := rfl
@[simp] lemma updates_nil : updates [] = [] := rfl
@[simp] lemma responses_cons_response (r : MEClientResponse) (es : List Event) :
    responses (.response r :: es) = r :: responses es := rfl
@[simp] lemma responses_cons_update (u : MEMarketUpdate) (es : List Event) :
    responses (.update u :: es) = responses es := rfl
@[simp] lemma updates_cons_response (r : MEClientResponse) (es : List Event) :
    updates (.response r :: es) = updates es := rfl
@[simp] lemma updates_cons_update (u : MEMarketUpdate) (es : List Event) :
    updates (.update u :: es) = u :: updates es := rfl
@[simp] lemma responses_append (es es' : List Event) :
    responses (es ++ es') = responses es ++ responses es' := List.filterMap_append
@[simp] lemma updates_append (es es' : List Event) :
    updates (es ++ es') = updates es ++ updates es' := List.filterMap_append

end LowLatencyExchange
