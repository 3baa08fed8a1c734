import LowLatencyExchange.Exchange.Messages

/-!
# Order maps

What the market data stream says about the live orders of every ticker. The snapshot
synthesizer keeps such a map in its arrays, and a client rebuilds it from the updates it is
handed. `apply` is the meaning of one update.
-/

namespace LowLatencyExchange

abbrev OrderMap := TickerId → OrderId → Option MEMarketUpdate

namespace OrderMap

def empty : OrderMap := fun _ _ => none

def set (m : OrderMap) (tickerId : TickerId) (orderId : OrderId) (v : Option MEMarketUpdate) : OrderMap :=
  Function.update m tickerId (Function.update (m tickerId) orderId v)

/-- `ADD` inserts, `MODIFY` sets quantity and price, `CANCEL` removes, `CLEAR` empties its
ticker, and the other types do nothing. -/
def apply (m : OrderMap) (u : MEMarketUpdate) : OrderMap :=
  match u.type with
  | .add => m.set u.tickerId u.orderId (some u)
  | .modify => m.set u.tickerId u.orderId
      ((m u.tickerId u.orderId).map fun x => { x with qty := u.qty, price := u.price })
  | .cancel => m.set u.tickerId u.orderId none
  | .clear => Function.update m u.tickerId fun _ => none
  | _ => m

def applyAll (m : OrderMap) (us : List MEMarketUpdate) : OrderMap := us.foldl apply m

@[simp] lemma applyAll_nil (m : OrderMap) : m.applyAll [] = m := rfl
@[simp] lemma applyAll_cons (m : OrderMap) (u : MEMarketUpdate) (us : List MEMarketUpdate) :
    m.applyAll (u :: us) = (m.apply u).applyAll us := rfl
@[simp] lemma applyAll_append (m : OrderMap) (us us' : List MEMarketUpdate) :
    m.applyAll (us ++ us') = (m.applyAll us).applyAll us' := List.foldl_append

lemma set_apply (m : OrderMap) (t t' : TickerId) (i i' : OrderId) (v : Option MEMarketUpdate) :
    m.set t i v t' i' = if t' = t ∧ i' = i then v else m t' i' := by
  unfold set
  by_cases ht : t' = t
  · subst ht
    by_cases hi : i' = i <;> simp [hi]
  · simp [ht]

@[simp] lemma set_self (m : OrderMap) (t : TickerId) (i : OrderId) : m.set t i (m t i) = m := by
  simp [set]

@[simp] lemma set_set (m : OrderMap) (t : TickerId) (i : OrderId) (v w : Option MEMarketUpdate) :
    (m.set t i v).set t i w = m.set t i w := by
  funext t' i'
  simp only [set_apply]
  split <;> rfl

/-- An update a faithful follower of the stream can take: an id is free at `ADD`, and known
with its side at `MODIFY` and `CANCEL`. -/
def Accepts (m : OrderMap) (u : MEMarketUpdate) : Prop :=
  u.tickerId < ME_MAX_TICKERS ∧
  match u.type with
  | .add => u.orderId < ME_MAX_ORDER_IDS ∧ m u.tickerId u.orderId = none
  | .modify | .cancel => ∃ x, m u.tickerId u.orderId = some x ∧ x.side = u.side
  | .clear => False
  | _ => True

def AcceptsAll (m : OrderMap) : List MEMarketUpdate → Prop
  | [] => True
  | u :: us => m.Accepts u ∧ (m.apply u).AcceptsAll us

lemma AcceptsAll.append {m : OrderMap} {us us' : List MEMarketUpdate} (h : m.AcceptsAll us)
    (h' : (m.applyAll us).AcceptsAll us') : m.AcceptsAll (us ++ us') := by
  induction us generalizing m with
  | nil => exact h'
  | cons u us ih => exact ⟨h.1, ih h.2 h'⟩

end OrderMap

/-- No `ADD` stands before the end. -/
def AddsLast (us : List MEMarketUpdate) : Prop := ∀ u ∈ us.dropLast, u.type ≠ .add

/-- Updates numbered from `n + 1` on, as `MarketDataPublisher::run` passes them on. -/
def numbered (n : Nat) : List MEMarketUpdate → List MDPMarketUpdate
  | [] => []
  | u :: us => ⟨wrap64 (n + 1), u⟩ :: numbered (wrap64 (n + 1)) us

lemma numbered_congr {m n : Nat} (h : wrap64 (m + 1) = wrap64 (n + 1)) (us : List MEMarketUpdate) :
    numbered m us = numbered n us := by
  cases us with
  | nil => rfl
  | cons u us => rw [numbered, numbered, h]

lemma numbered_append (n : Nat) (us vs : List MEMarketUpdate) :
    numbered n (us ++ vs) = numbered n us ++ numbered (n + us.length) vs := by
  induction us generalizing n with
  | nil => rfl
  | cons u us ih =>
    have hnext : wrap64 (wrap64 (n + 1) + us.length + 1) = wrap64 (n + (u :: us).length + 1) := by
      rw [List.length_cons]
      simp only [wrap64]
      omega
    rw [List.cons_append, numbered, numbered, ih, List.cons_append, numbered_congr hnext]

lemma meMarketUpdate_numbered (n : Nat) (us : List MEMarketUpdate) :
    (numbered n us).map MDPMarketUpdate.meMarketUpdate = us := by
  induction us generalizing n with
  | nil => rfl
  | cons u us ih => rw [numbered, List.map_cons, ih]

end LowLatencyExchange
