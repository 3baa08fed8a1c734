import Mathlib.Logic.Function.Basic
import Mathlib.Tactic.Common

/-!
# Common types

Identifiers, limits and the two trading sides, shared by the exchange and the trading
client. The unsigned machine integers of the source are natural numbers here. Wherever the
source can wrap or narrow a value, the definitions apply the modulus explicitly.
-/

namespace LowLatencyExchange

def ME_MAX_TICKERS : Nat := 8
def ME_MAX_CLIENT_UPDATES : Nat := 256 * 1024
def ME_MAX_MARKET_UPDATES : Nat := 256 * 1024
def ME_MAX_NUM_CLIENTS : Nat := 256
def ME_MAX_ORDER_IDS : Nat := 1024 * 1024
def ME_MAX_PRICE_LEVELS : Nat := 256

abbrev OrderId := Nat
abbrev TickerId := Nat
abbrev ClientId := Nat
abbrev Price := Nat
abbrev Qty := Nat
abbrev Priority := Nat

/-- `Nanos` is `int64_t`. -/
abbrev Nanos := Int

/-- `OrderId`, `Price` and `Priority` are `uint64_t`. -/
def wrap64 (n : Nat) : Nat := n % 18446744073709551616

/-- `TickerId`, `ClientId` and `Qty` are `uint32_t`. -/
def wrap32 (n : Nat) : Nat := n % 4294967296

lemma wrap64_of_lt {n : Nat} (h : n < 18446744073709551616) : wrap64 n = n := Nat.mod_eq_of_lt h

lemma wrap64_le (n : Nat) : wrap64 n ≤ n := Nat.mod_le n _

lemma wrap64_succ (n : Nat) : wrap64 (wrap64 n + 1) = wrap64 (n + 1) := by
  unfold wrap64
  omega

def OrderId_INVALID : OrderId := 18446744073709551615
def TickerId_INVALID : TickerId := 4294967295
def ClientId_INVALID : ClientId := 4294967295
def Price_INVALID : Price := 18446744073709551615
def Qty_INVALID : Qty := 4294967295
def Priority_INVALID : Priority := 18446744073709551615

/-- Every `xToString` of the source prints `INVALID` for the sentinel of its type. -/
def idToString (invalid n : Nat) : String :=
  if n = invalid then "INVALID" else toString n

def orderIdToString (orderId : OrderId) : String := idToString OrderId_INVALID orderId
def tickerIdToString (tickerId : TickerId) : String := idToString TickerId_INVALID tickerId
def clientIdToString (clientId : ClientId) : String := idToString ClientId_INVALID clientId
def priceToString (price : Price) : String := idToString Price_INVALID price
def qtyToString (qty : Qty) : String := idToString Qty_INVALID qty
def priorityToString (priority : Priority) : String := idToString Priority_INVALID priority

/-- `enum class Side : int8_t`. A value read off the wire can be any byte, so the
enumeration keeps the remaining values of its underlying type. -/
inductive Side
  | invalid
  | buy
  | sell
  | other (value : UInt8)
  deriving DecidableEq, Repr, Inhabited

def sideToString : Side → String
  | .buy => "BUY"
  | .sell => "SELL"
  | .invalid => "INVALID"
  | .other _ => "UNKNOWN"

/-- The two sides a book trades on. -/
def Side.Trading (side : Side) : Prop := side = .buy ∨ side = .sell

instance (side : Side) : Decidable side.Trading := inferInstanceAs (Decidable (_ ∨ _))

/-- The side whose resting orders an order of this side trades against. -/
def Side.opposite : Side → Side
  | .buy => .sell
  | .sell => .buy
  | side => side

@[simp] lemma Side.trading_buy : Side.Trading .buy := Or.inl rfl
@[simp] lemma Side.trading_sell : Side.Trading .sell := Or.inr rfl

lemma Side.Trading.opposite {side : Side} (h : side.Trading) : side.opposite.Trading := by
  rcases h with rfl | rfl <;> simp [Side.opposite]

lemma Side.Trading.opposite_ne {side : Side} (h : side.Trading) : side.opposite ≠ side := by
  rcases h with rfl | rfl <;> simp [Side.opposite]

lemma Side.Trading.eq_or_opposite {s t : Side} (hs : s.Trading) (ht : t.Trading) :
    t = s ∨ t = s.opposite := by
  rcases hs with rfl | rfl <;> rcases ht with rfl | rfl <;> simp [Side.opposite]

/-- How the process ends when a call does not return. `ASSERT` and `FATAL` print their
message and exit, an exception leaving a `noexcept` function terminates. -/
inductive Fault
  | assert (msg : String)
  | fatal (msg : String)
  | outOfRange
  | nullDereference
  | diverges
  deriving DecidableEq, Repr

/-- Following a pointer that may be null. -/
def deref {α : Type} : Option α → Except Fault α
  | some p => .ok p
  | none => .error .nullDereference

@[simp] lemma deref_some {α : Type} (p : α) : deref (some p) = .ok p := rfl

/-- `ASSERT(cond, msg)`. -/
def assertThat (cond : Bool) (msg : String) : Except Fault Unit :=
  if cond then .ok () else .error (.assert msg)

@[simp] lemma assertThat_true (msg : String) : assertThat true msg = .ok () := rfl

lemma deref_eq_ok {α : Type} {p : Option α} {q : α} (h : deref p = .ok q) : p = some q := by
  cases p with
  | none => cases h
  | some p => cases h; rfl

lemma assertThat_eq_ok {cond : Bool} {msg : String} (h : assertThat cond msg = .ok ()) :
    cond = true := by
  cases cond with
  | false => cases h
  | true => rfl

/-- A successful sequence of two computations splits at its middle value. -/
lemma bind_eq_ok {α β : Type} {x : Except Fault α} {f : α → Except Fault β} {r : β}
    (h : (x >>= f) = .ok r) : ∃ a, x = .ok a ∧ f a = .ok r := by
  cases x with
  | error e => cases h
  | ok a => exact ⟨a, rfl, h⟩

@[simp] lemma ok_bind {α β : Type} (a : α) (f : α → Except Fault β) :
    ((Except.ok a : Except Fault α) >>= f) = f a := rfl

@[simp] lemma error_bind {α β : Type} (e : Fault) (f : α → Except Fault β) :
    ((Except.error e : Except Fault α) >>= f) = .error e := rfl

@[simp] lemma pure_eq_ok {α : Type} (a : α) : (pure a : Except Fault α) = .ok a := rfl

end LowLatencyExchange
