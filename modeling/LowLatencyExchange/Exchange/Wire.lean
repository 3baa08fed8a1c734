import LowLatencyExchange.Exchange.Messages
import LowLatencyExchange.Library.ByteStream

/-!
# Messages as bytes

The packed structs of `client_request.h`, `client_response.h` and `market_update.h`. All of
them cross the wire as they stand in memory.
-/

namespace LowLatencyExchange
open ByteStream

/-- An enumeration with an underlying byte. -/
class ByteEnum (T : Type) where
  toByte : T → UInt8
  ofByte : UInt8 → T
  toByte_ofByte : ∀ v, toByte (ofByte v) = v

/-- One byte. A value fits when its byte does not have another name. -/
def ByteEnum.packed (T : Type) [ByteEnum T] : Packed T where
  sizeof := 1
  encode t := [toByte t]
  decode
    | [v] => ofByte v
    | _ => ofByte 0
  Fits t := ofByte (toByte t) = t
  length_encode := fun _ => rfl
  decode_encode := fun _ h => h
  encode_decode := fun xs h => by
    obtain ⟨v, rfl⟩ := List.length_eq_one_iff.mp h
    exact congrArg (fun w => [w]) (toByte_ofByte v)
  fits_decode := fun xs h => by
    obtain ⟨v, rfl⟩ := List.length_eq_one_iff.mp h
    exact congrArg ofByte (toByte_ofByte v)

instance : ByteEnum Side where
  toByte
    | .invalid => 0
    | .buy => 1
    | .sell => 255
    | .other value => value
  ofByte v :=
    if v = 0 then .invalid
    else if v = 1 then .buy
    else if v = 255 then .sell
    else .other v
  toByte_ofByte := fun v => by
    by_cases h0 : v = 0
    · simp [h0]
    by_cases h1 : v = 1
    · simp [h1]
    by_cases h255 : v = 255
    · simp [h255]
    · simp [h0, h1, h255]

instance : ByteEnum ClientRequestType where
  toByte
    | .invalid => 0
    | .new => 1
    | .cancel => 2
    | .other value => value
  ofByte v :=
    if v = 0 then .invalid
    else if v = 1 then .new
    else if v = 2 then .cancel
    else .other v
  toByte_ofByte := fun v => by
    by_cases h0 : v = 0
    · simp [h0]
    by_cases h1 : v = 1
    · simp [h1]
    by_cases h2 : v = 2
    · simp [h2]
    · simp [h0, h1, h2]

instance : ByteEnum ClientResponseType where
  toByte
    | .invalid => 0
    | .accepted => 1
    | .canceled => 2
    | .filled => 3
    | .cancelRejected => 4
    | .other value => value
  ofByte v :=
    if v = 0 then .invalid
    else if v = 1 then .accepted
    else if v = 2 then .canceled
    else if v = 3 then .filled
    else if v = 4 then .cancelRejected
    else .other v
  toByte_ofByte := fun v => by
    split_ifs with h0 h1 h2 h3 h4
    · exact h0.symm
    · exact h1.symm
    · exact h2.symm
    · exact h3.symm
    · exact h4.symm
    · rfl

instance : ByteEnum MarketUpdateType where
  toByte
    | .invalid => 0
    | .clear => 1
    | .add => 2
    | .modify => 3
    | .cancel => 4
    | .trade => 5
    | .snapshotStart => 6
    | .snapshotEnd => 7
    | .other value => value
  ofByte v :=
    if v = 0 then .invalid
    else if v = 1 then .clear
    else if v = 2 then .add
    else if v = 3 then .modify
    else if v = 4 then .cancel
    else if v = 5 then .trade
    else if v = 6 then .snapshotStart
    else if v = 7 then .snapshotEnd
    else .other v
  toByte_ofByte := fun v => by
    split_ifs with h0 h1 h2 h3 h4 h5 h6 h7
    · exact h0.symm
    · exact h1.symm
    · exact h2.symm
    · exact h3.symm
    · exact h4.symm
    · exact h5.symm
    · exact h6.symm
    · exact h7.symm
    · rfl

/-- `sizeof(MEClientRequest)` is 30. -/
def MEClientRequest.packed : Packed MEClientRequest :=
  ((ByteEnum.packed ClientRequestType).prod ((Packed.nat 4).prod ((Packed.nat 4).prod ((Packed.nat 8).prod
    ((ByteEnum.packed Side).prod ((Packed.nat 8).prod (Packed.nat 4))))))).equiv {
  toFun x := ⟨x.1, x.2.1, x.2.2.1, x.2.2.2.1, x.2.2.2.2.1, x.2.2.2.2.2.1, x.2.2.2.2.2.2⟩
  invFun r := (r.type, r.clientId, r.tickerId, r.orderId, r.side, r.price, r.qty)
  left_inv := fun _ => rfl
  right_inv := fun _ => rfl }

/-- `sizeof(MEClientResponse)` is 42. -/
def MEClientResponse.packed : Packed MEClientResponse :=
  ((ByteEnum.packed ClientResponseType).prod ((Packed.nat 4).prod ((Packed.nat 4).prod ((Packed.nat 8).prod
    ((Packed.nat 8).prod ((ByteEnum.packed Side).prod ((Packed.nat 8).prod ((Packed.nat 4).prod
    (Packed.nat 4))))))))).equiv {
  toFun x := ⟨x.1, x.2.1, x.2.2.1, x.2.2.2.1, x.2.2.2.2.1, x.2.2.2.2.2.1, x.2.2.2.2.2.2.1, x.2.2.2.2.2.2.2.1,
    x.2.2.2.2.2.2.2.2⟩
  invFun r := (r.type, r.clientId, r.tickerId, r.clientOrderId, r.marketOrderId, r.side, r.price, r.execQty,
    r.leavesQty)
  left_inv := fun _ => rfl
  right_inv := fun _ => rfl }

/-- `sizeof(MEMarketUpdate)` is 34. -/
def MEMarketUpdate.packed : Packed MEMarketUpdate :=
  ((ByteEnum.packed MarketUpdateType).prod ((Packed.nat 8).prod ((Packed.nat 4).prod ((ByteEnum.packed Side).prod
    ((Packed.nat 8).prod ((Packed.nat 4).prod (Packed.nat 8))))))).equiv {
  toFun x := ⟨x.1, x.2.1, x.2.2.1, x.2.2.2.1, x.2.2.2.2.1, x.2.2.2.2.2.1, x.2.2.2.2.2.2⟩
  invFun u := (u.type, u.orderId, u.tickerId, u.side, u.price, u.qty, u.priority)
  left_inv := fun _ => rfl
  right_inv := fun _ => rfl }

structure OMClientRequest where
  seqNum : Nat := 0
  meClientRequest : MEClientRequest := {}
  deriving DecidableEq, Repr

def OMClientRequest.toString (r : OMClientRequest) : String :=
  "OMClientRequest [ seq:" ++ ToString.toString r.seqNum ++ " " ++ r.meClientRequest.toString ++ "]"

structure OMClientResponse where
  seqNum : Nat := 0
  meClientResponse : MEClientResponse := {}
  deriving DecidableEq, Repr

def OMClientResponse.toString (r : OMClientResponse) : String :=
  "OMClientResponse [ seq:" ++ ToString.toString r.seqNum ++ " " ++ r.meClientResponse.toString ++ "]"

/-- `sizeof(OMClientRequest)` is 38. -/
def OMClientRequest.packed : Packed OMClientRequest :=
  ((Packed.nat 8).prod MEClientRequest.packed).equiv {
  toFun x := ⟨x.1, x.2⟩
  invFun r := (r.seqNum, r.meClientRequest)
  left_inv := fun _ => rfl
  right_inv := fun _ => rfl }

/-- `sizeof(OMClientResponse)` is 50. -/
def OMClientResponse.packed : Packed OMClientResponse :=
  ((Packed.nat 8).prod MEClientResponse.packed).equiv {
  toFun x := ⟨x.1, x.2⟩
  invFun r := (r.seqNum, r.meClientResponse)
  left_inv := fun _ => rfl
  right_inv := fun _ => rfl }

/-- `sizeof(MDPMarketUpdate)` is 42. -/
def MDPMarketUpdate.packed : Packed MDPMarketUpdate :=
  ((Packed.nat 8).prod MEMarketUpdate.packed).equiv {
  toFun x := ⟨x.1, x.2⟩
  invFun u := (u.seqNum, u.meMarketUpdate)
  left_inv := fun _ => rfl
  right_inv := fun _ => rfl }

example : MEClientRequest.packed.sizeof = 30 ∧ MEClientResponse.packed.sizeof = 42 ∧
    MEMarketUpdate.packed.sizeof = 34 := by decide

end LowLatencyExchange
