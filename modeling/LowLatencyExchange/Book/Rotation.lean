import LowLatencyExchange.Book.PriceBook
import LowLatencyExchange.Library.Simulation
import Mathlib.Data.Set.Insert
import Mathlib.Data.Nat.ModEq

/-!
# Two books whose pools start at different blocks

A pool that was emptied goes on from where it stopped, and its free blocks keep what was last in them.
`Turned ρ τ L O b c` says that `c` is `b` with its levels moved on by `ρ` and its orders by `τ`, as far
as blocks were handed out: the blocks in `L` and `O` hold the same with their pointers moved, and no
table, top or pointer of such a block leads out of `L` and `O`. Every helper of the book keeps this on
corresponding arguments, or stops with the same fault on both sides. No helper needs a well-formed book.
-/

namespace LowLatencyExchange
open Simulation

/-- A pool of `size` blocks, moved on by `places` around its end. -/
structure Rotation where
  size : Nat
  places : Nat

namespace Rotation
variable (ρ : Rotation) {i j p p' q q' : Nat} {L L' : Set Nat}

def place (i : Nat) : Nat := if i < ρ.size then (i + ρ.places) % ρ.size else i

lemma place_lt_iff : ρ.place i < ρ.size ↔ i < ρ.size := by
  unfold place
  split
  · rename_i hi
    exact iff_of_true (Nat.mod_lt _ (Nat.zero_lt_of_lt hi)) hi
  · exact Iff.rfl

lemma place_injective : Function.Injective ρ.place := by
  intro i j hij
  have hlt : i < ρ.size ↔ j < ρ.size := by
    rw [← ρ.place_lt_iff, hij, ρ.place_lt_iff]
  unfold place at hij
  by_cases hi : i < ρ.size
  · have hj := hlt.mp hi
    rw [if_pos hi, if_pos hj] at hij
    have hmod : i % ρ.size = j % ρ.size := (Nat.ModEq.add_right_cancel' (n := ρ.size) ρ.places hij)
    rwa [Nat.mod_eq_of_lt hi, Nat.mod_eq_of_lt hj] at hmod
  · rwa [if_neg hi, if_neg (fun hj => hi (hlt.mpr hj))] at hij

/-- The step of the circular scan is the same from the moved block. -/
lemma place_next (hi : i < ρ.size) : ρ.place (if i + 1 = ρ.size then 0 else i + 1) =
    if ρ.place i + 1 = ρ.size then 0 else ρ.place i + 1 := by
  have hnext : ∀ j, j < ρ.size → (if j + 1 = ρ.size then 0 else j + 1) = (j + 1) % ρ.size := by
    intro j hj
    split
    · rename_i he
      rw [he, Nat.mod_self]
    · exact (Nat.mod_eq_of_lt (by omega)).symm
  have hplace : ρ.place i < ρ.size := ρ.place_lt_iff.mpr hi
  have hmod : (i + 1) % ρ.size < ρ.size := Nat.mod_lt _ (Nat.zero_lt_of_lt hi)
  rw [hnext i hi, hnext _ hplace, place, if_pos hmod, place, if_pos hi, Nat.mod_add_mod, Nat.mod_add_mod]
  congr 1
  omega

/-- Corresponding pointers, into the blocks of `L`. -/
def Moved (L : Set Nat) (p q : Nat) : Prop := p ∈ L ∧ q = ρ.place p

variable {ρ}

lemma Moved.eq_iff (h : ρ.Moved L p q) (h' : ρ.Moved L p' q') : p = p' ↔ q = q' := by
  rw [h.2, h'.2, ρ.place_injective.eq_iff]

lemma Moved.mono (h : ρ.Moved L p q) (hL : L ⊆ L') : ρ.Moved L' p q := ⟨hL h.1, h.2⟩

end Rotation

lemma rel_mono {A B : Type} {P P' : A → B → Prop} {v : Option A} {w : Option B} (h : Option.Rel P v w)
    (hP : ∀ p q, P p q → P' p q) : Option.Rel P' v w := by
  cases h with
  | none => exact .none
  | some hpq => exact .some (hP _ _ hpq)

/-- Comparing two pointers gives the same on both sides. -/
lemma moved_eq_iff {ρ : Rotation} {L : Set Nat} {v v' w w' : Option Nat} (h : Option.Rel (ρ.Moved L) v w)
    (h' : Option.Rel (ρ.Moved L) v' w') : v = v' ↔ w = w' := by
  cases h with
  | none => cases h' <;> simp
  | some hpq =>
    cases h' with
    | none => simp
    | some hpq' => simpa using hpq.eq_iff hpq'

/-- The same end of the process, up to the number of the block that an assertion of a pool names. -/
inductive Fault.Turned (ρ : Rotation) : Fault → Fault → Prop
  | same (e : Fault) : Fault.Turned ρ e e
  | expectedFree (i : Nat) : Fault.Turned ρ (.assert ("Expected free ObjectBlock at index:" ++ toString i))
      (.assert ("Expected free ObjectBlock at index:" ++ toString (ρ.place i)))
  | expectedInUse (i : Nat) : Fault.Turned ρ (.assert ("Expected in-use ObjectBlock at index:" ++ toString i))
      (.assert ("Expected in-use ObjectBlock at index:" ++ toString (ρ.place i)))

namespace MemPool
variable {T : Type} {ρ : Rotation} {L : Set Nat} {R R' : T → T → Prop} {p q : MemPool T}

lemma isFree_congr {i j : Nat} (h : q.Used j ↔ p.Used i) : (q.store j).isFree = (p.store i).isFree :=
  Bool.eq_iff_iff.mpr (by simpa [Used] using not_congr h)

/-- `q` is `p` moved on by `ρ`. What a block holds is related by `R` where it was handed out before. -/
structure Turned (ρ : Rotation) (L : Set Nat) (R : T → T → Prop) (p q : MemPool T) : Prop where
  size : p.size = ρ.size
  size' : q.size = ρ.size
  next : q.nextFreeIndex = ρ.place p.nextFreeIndex
  free : ∀ i, (q.store (ρ.place i)).isFree = (p.store i).isFree
  used : ∀ i, p.Used i → i ∈ L
  object : ∀ i ∈ L, R (p.object i) (q.object (ρ.place i))

namespace Turned
variable (h : Turned ρ L R p q)
include h

lemma used_iff (i : Nat) : q.Used (ρ.place i) ↔ p.Used i := by
  unfold Used
  rw [h.free]

lemma modify (i : Nat) {f g : T → T} (hfg : ∀ a b, R a b → R (f a) (g b)) :
    Turned ρ L R (p.modify i f) (q.modify (ρ.place i) g) := by
  refine ⟨h.size, h.size', h.next, fun j => ?_, fun j hj => ?_, fun j hj => ?_⟩
  · have hiff : (q.modify (ρ.place i) g).Used (ρ.place j) ↔ (p.modify i f).Used j := by
      rw [used_modify, used_modify, h.used_iff]
    exact isFree_congr hiff
  · exact h.used j ((used_modify p i j f).mp hj)
  · simp only [object_modify, ρ.place_injective.eq_iff]
    split
    · exact hfg _ _ (h.object j hj)
    · exact h.object j hj

lemma release (i : Nat) : Turned ρ L R (p.release i) (q.release (ρ.place i)) := by
  refine ⟨h.size, h.size', h.next, fun j => ?_, fun j hj => ?_, fun j hj => ?_⟩
  · have hiff : (q.release (ρ.place i)).Used (ρ.place j) ↔ (p.release i).Used j := by
      rw [used_release, used_release, h.used_iff, Ne, ρ.place_injective.eq_iff]
    exact isFree_congr hiff
  · exact h.used j ((used_release p i j).mp hj).2
  · rw [object_release, object_release]
    exact h.object j hj

lemma take (i : Nat) {a b : T} (hR : ∀ a b, R a b → R' a b) (hab : R' a b) :
    Turned ρ (insert i L) R' (p.take i a) (q.take (ρ.place i) b) := by
  refine ⟨h.size, h.size', h.next, fun j => ?_, fun j hj => ?_, fun j hj => ?_⟩
  · have hiff : (q.take (ρ.place i) b).Used (ρ.place j) ↔ (p.take i a).Used j := by
      rw [used_take, used_take, h.used_iff, ρ.place_injective.eq_iff]
    exact isFree_congr hiff
  · exact ((used_take p i j a).mp hj).imp id (h.used j)
  · simp only [object_take, ρ.place_injective.eq_iff]
    split
    · exact hab
    · rename_i hne
      exact hR _ _ (h.object j (hj.resolve_left hne))

/-- Freeing corresponding blocks. -/
lemma deallocate (i : Nat) :
    Matches (Turned ρ L R) (Fault.Turned ρ) (p.deallocate i) (q.deallocate (ρ.place i)) := by
  unfold MemPool.deallocate
  rw [h.size, h.size', h.free i]
  by_cases hi : i < ρ.size
  · rw [decide_eq_true hi, decide_eq_true (ρ.place_lt_iff.mpr hi), assertThat_true, ok_bind, ok_bind]
    cases (p.store i).isFree with
    | false => exact matches_pure (h.release i)
    | true => exact .error (.expectedInUse i)
  · rw [decide_eq_false hi, decide_eq_false (mt ρ.place_lt_iff.mp hi)]
    exact .error (.same _)

/-- The circular scans meet free blocks at corresponding places. -/
lemma updateNextFreeIndexLoop (start fuel i : Nat) :
    Matches (fun j j' => j' = ρ.place j) (Fault.Turned ρ) (p.updateNextFreeIndexLoop start fuel i)
      (q.updateNextFreeIndexLoop (ρ.place start) fuel (ρ.place i)) := by
  induction fuel generalizing i with
  | zero => exact .error (.same _)
  | succ fuel ih =>
    rw [MemPool.updateNextFreeIndexLoop, MemPool.updateNextFreeIndexLoop, h.size, h.size', h.free i]
    apply Matches.ite
    · rw [← not_lt, ← not_lt, ρ.place_lt_iff]
    · intro _
      exact .error (.same _)
    · intro hi
      apply Matches.ite Iff.rfl
      · intro _
        exact .ok rfl
      · intro _
        simp only [← ρ.place_next (not_le.mp hi)]
        apply Matches.ite ρ.place_injective.eq_iff.symm
        · intro _
          exact .error (.same _)
        · intro _
          exact ih _

/-- Both allocations take the next block of their pool. -/
lemma allocate {a b : T} (hR : ∀ a b, R a b → R' a b) (hab : R' a b) :
    Matches (fun r r' => r.2 = p.nextFreeIndex ∧ r'.2 = ρ.place r.2 ∧
        Turned ρ (insert p.nextFreeIndex L) R' r.1 r'.1)
      (Fault.Turned ρ) (p.allocate a) (q.allocate b) := by
  unfold MemPool.allocate
  simp only [h.next, h.free]
  have hfirst : Matches (fun _ _ => True) (Fault.Turned ρ)
      (assertThat (p.store p.nextFreeIndex).isFree ("Expected free ObjectBlock at index:" ++ toString p.nextFreeIndex))
      (assertThat (p.store p.nextFreeIndex).isFree
        ("Expected free ObjectBlock at index:" ++ toString (ρ.place p.nextFreeIndex))) := by
    cases (p.store p.nextFreeIndex).isFree with
    | true => exact .ok trivial
    | false => exact .error (.expectedFree _)
  have htaken := h.take p.nextFreeIndex hR hab
  apply hfirst.bind
  intro _ _ _
  unfold updateNextFreeIndex
  simp only [nextFreeIndex_take, size_take, h.next, h.size, h.size', bind_assoc, pure_bind]
  apply (htaken.updateNextFreeIndexLoop p.nextFreeIndex (ρ.size + 1) p.nextFreeIndex).bind
  intro j j' hj
  exact matches_pure ⟨rfl, rfl, rfl, rfl, hj, htaken.free, htaken.used, htaken.object⟩

end Turned
end MemPool

/-- Levels with the same contents and corresponding pointers. -/
structure OrdersAtPrice.Turned (P Q : Nat → Nat → Prop) (l l' : OrdersAtPrice) : Prop where
  side : l'.side = l.side
  price : l'.price = l.price
  firstOrder : Option.Rel Q l.firstOrder l'.firstOrder
  prevEntry : Option.Rel P l.prevEntry l'.prevEntry
  nextEntry : Option.Rel P l.nextEntry l'.nextEntry

/-- Orders with the same contents and corresponding pointers. -/
structure BookOrder.Turned {I : Type} (Q : Nat → Nat → Prop) (o o' : BookOrder I) : Prop where
  ids : o'.ids = o.ids
  side : o'.side = o.side
  price : o'.price = o.price
  qty : o'.qty = o.qty
  priority : o'.priority = o.priority
  prevOrder : Option.Rel Q o.prevOrder o'.prevOrder
  nextOrder : Option.Rel Q o.nextOrder o'.nextOrder

lemma OrdersAtPrice.Turned.mono {P P' Q Q' : Nat → Nat → Prop} {l l' : OrdersAtPrice}
    (h : OrdersAtPrice.Turned P Q l l') (hP : ∀ p q, P p q → P' p q) (hQ : ∀ p q, Q p q → Q' p q) :
    OrdersAtPrice.Turned P' Q' l l' :=
  ⟨h.side, h.price, rel_mono h.firstOrder hQ, rel_mono h.prevEntry hP, rel_mono h.nextEntry hP⟩

lemma BookOrder.Turned.mono {I : Type} {Q Q' : Nat → Nat → Prop} {o o' : BookOrder I}
    (h : BookOrder.Turned Q o o') (hQ : ∀ p q, Q p q → Q' p q) : BookOrder.Turned Q' o o' :=
  ⟨h.ids, h.side, h.price, h.qty, h.priority, rel_mono h.prevOrder hQ, rel_mono h.nextOrder hQ⟩

/-- The same end of the process, up to the number of a level's or an order's block. -/
def FaultsTurned (ρ τ : Rotation) (e e' : Fault) : Prop := e.Turned ρ e' ∨ e.Turned τ e'

namespace PriceBook
variable {I K : Type}

/-- `c` is `b` with its levels moved on by `ρ` and its orders by `τ`. The blocks in `L` and `O` are those
handed out so far. -/
structure Turned (ρ τ : Rotation) (L O : Set Nat) (b c : PriceBook I K) : Prop where
  levels : b.ordersAtPricePool.Turned ρ L (OrdersAtPrice.Turned (ρ.Moved L) (τ.Moved O)) c.ordersAtPricePool
  orders : b.orderPool.Turned τ O (BookOrder.Turned (τ.Moved O)) c.orderPool
  top : ∀ s, Option.Rel (ρ.Moved L) (b.top s) (c.top s)
  prices : ∀ i, Option.Rel (ρ.Moved L) (b.priceOrdersAtPrice i) (c.priceOrdersAtPrice i)
  table : ∀ k, Option.Rel (τ.Moved O) (b.orderTable k) (c.orderTable k)

variable {ρ τ : Rotation} {L O : Set Nat} {b c : PriceBook I K} {p q : Nat} {v w : Option Nat}

lemma matches_deref {P : Nat → Nat → Prop} (h : Option.Rel P v w) :
    Matches P (FaultsTurned ρ τ) (deref v) (deref w) := by
  cases h with
  | none => exact .error (.inl (.same _))
  | some hpq => exact .ok hpq

namespace Turned

section Writes
variable (h : Turned ρ τ L O b c)
include h

lemma level (hp : ρ.Moved L p q) : OrdersAtPrice.Turned (ρ.Moved L) (τ.Moved O) (b.level p) (c.level q) := by
  rw [hp.2]
  exact h.levels.object p hp.1

lemma order (hp : τ.Moved O p q) : BookOrder.Turned (τ.Moved O) (b.order p) (c.order q) := by
  rw [hp.2]
  exact h.orders.object p hp.1

lemma modifyLevel (hp : ρ.Moved L p q) {f g : OrdersAtPrice → OrdersAtPrice}
    (hfg : ∀ l l', OrdersAtPrice.Turned (ρ.Moved L) (τ.Moved O) l l' →
      OrdersAtPrice.Turned (ρ.Moved L) (τ.Moved O) (f l) (g l')) :
    Turned ρ τ L O (b.modifyLevel p f) (c.modifyLevel q g) := by
  rw [hp.2]
  exact ⟨h.levels.modify p hfg, h.orders, h.top, h.prices, h.table⟩

lemma modifyOrder (hp : τ.Moved O p q) {f g : BookOrder I → BookOrder I}
    (hfg : ∀ o o', BookOrder.Turned (τ.Moved O) o o' → BookOrder.Turned (τ.Moved O) (f o) (g o')) :
    Turned ρ τ L O (b.modifyOrder p f) (c.modifyOrder q g) := by
  rw [hp.2]
  exact ⟨h.levels, h.orders.modify p hfg, h.top, h.prices, h.table⟩

lemma setNextEntry (hp : ρ.Moved L p q) (hv : Option.Rel (ρ.Moved L) v w) :
    Turned ρ τ L O (b.setNextEntry p v) (c.setNextEntry q w) :=
  h.modifyLevel hp fun _ _ hl => ⟨hl.side, hl.price, hl.firstOrder, hl.prevEntry, hv⟩

lemma setPrevEntry (hp : ρ.Moved L p q) (hv : Option.Rel (ρ.Moved L) v w) :
    Turned ρ τ L O (b.setPrevEntry p v) (c.setPrevEntry q w) :=
  h.modifyLevel hp fun _ _ hl => ⟨hl.side, hl.price, hl.firstOrder, hv, hl.nextEntry⟩

lemma setFirstOrder (hp : ρ.Moved L p q) (hv : Option.Rel (τ.Moved O) v w) :
    Turned ρ τ L O (b.setFirstOrder p v) (c.setFirstOrder q w) :=
  h.modifyLevel hp fun _ _ hl => ⟨hl.side, hl.price, hv, hl.prevEntry, hl.nextEntry⟩

lemma setNextOrder (hp : τ.Moved O p q) (hv : Option.Rel (τ.Moved O) v w) :
    Turned ρ τ L O (b.setNextOrder p v) (c.setNextOrder q w) :=
  h.modifyOrder hp fun _ _ ho => ⟨ho.ids, ho.side, ho.price, ho.qty, ho.priority, ho.prevOrder, hv⟩

lemma setPrevOrder (hp : τ.Moved O p q) (hv : Option.Rel (τ.Moved O) v w) :
    Turned ρ τ L O (b.setPrevOrder p v) (c.setPrevOrder q w) :=
  h.modifyOrder hp fun _ _ ho => ⟨ho.ids, ho.side, ho.price, ho.qty, ho.priority, hv, ho.nextOrder⟩

lemma setQty (hp : τ.Moved O p q) (qty : Qty) : Turned ρ τ L O (b.setQty p qty) (c.setQty q qty) :=
  h.modifyOrder hp fun _ _ ho => ⟨ho.ids, ho.side, ho.price, rfl, ho.priority, ho.prevOrder, ho.nextOrder⟩

lemma setTop (s : Side) (hv : Option.Rel (ρ.Moved L) v w) :
    Turned ρ τ L O (b.setTop s v) (c.setTop s w) := by
  refine ⟨?_, ?_, fun t => ?_, ?_, ?_⟩
  · simpa only [ordersAtPricePool_setTop] using h.levels
  · simpa only [orderPool_setTop] using h.orders
  · rw [top_setTop, top_setTop]
    split
    · exact hv
    · exact h.top t
  · simpa only [prices_setTop] using h.prices
  · simpa only [table_setTop] using h.table

lemma setOrdersAtPrice (price : Price) (hv : Option.Rel (ρ.Moved L) v w) :
    Turned ρ τ L O (b.setOrdersAtPrice price v) (c.setOrdersAtPrice price w) := by
  refine ⟨h.levels, h.orders, h.top, fun i => ?_, h.table⟩
  rw [prices_setOrdersAtPrice, prices_setOrdersAtPrice, Function.update_apply, Function.update_apply]
  split
  · exact hv
  · exact h.prices i

lemma setKey [DecidableEq K] (k : K) (hv : Option.Rel (τ.Moved O) v w) :
    Turned ρ τ L O (b.setKey k v) (c.setKey k w) := by
  refine ⟨h.levels, h.orders, h.top, h.prices, fun i => ?_⟩
  rw [table_setKey, table_setKey, Function.update_apply, Function.update_apply]
  split
  · exact hv
  · exact h.table i

lemma deallocateLevel (hp : ρ.Moved L p q) :
    Matches (Turned ρ τ L O) (FaultsTurned ρ τ)
      (b.ordersAtPricePool.deallocate p >>= fun pool => pure (b.setLevelPool pool))
      (c.ordersAtPricePool.deallocate q >>= fun pool => pure (c.setLevelPool pool)) := by
  rw [hp.2]
  apply ((h.levels.deallocate p).mono (fun _ _ => id) fun _ _ => .inl).bind
  intro pool pool' hpool
  exact matches_pure ⟨hpool, h.orders, h.top, h.prices, h.table⟩

lemma deallocateOrder (hp : τ.Moved O p q) :
    Matches (Turned ρ τ L O) (FaultsTurned ρ τ)
      (b.orderPool.deallocate p >>= fun pool => pure (b.setOrderPool pool))
      (c.orderPool.deallocate q >>= fun pool => pure (c.setOrderPool pool)) := by
  rw [hp.2]
  apply ((h.orders.deallocate p).mono (fun _ _ => id) fun _ _ => .inr).bind
  intro pool pool' hpool
  exact matches_pure ⟨h.levels, hpool, h.top, h.prices, h.table⟩

/-- A new level's block counts as handed out from here on. -/
lemma allocateLevel {l l' : OrdersAtPrice} (hl : OrdersAtPrice.Turned (ρ.Moved L) (τ.Moved O) l l') :
    Matches (fun r r' => ∃ L', ρ.Moved L' r.2 r'.2 ∧
        Turned ρ τ L' O (b.setLevelPool r.1) (c.setLevelPool r'.1))
      (FaultsTurned ρ τ) (b.ordersAtPricePool.allocate l) (c.ordersAtPricePool.allocate l') := by
  have hgrow : ∀ p q, ρ.Moved L p q → ρ.Moved (insert b.ordersAtPricePool.nextFreeIndex L) p q :=
    fun p q hp => hp.mono (Set.subset_insert _ _)
  have hnew := hl.mono hgrow fun _ _ => id
  have hboth := h.levels.allocate (fun _ _ hl => hl.mono hgrow fun _ _ => id) hnew
  apply hboth.mono
  · rintro ⟨pool, i⟩ ⟨pool', i'⟩ ⟨hi, hi', hpool⟩
    refine ⟨_, ⟨?_, hi'⟩, hpool, h.orders, fun s => rel_mono (h.top s) hgrow, fun i => rel_mono (h.prices i) hgrow,
      h.table⟩
    exact hi ▸ Set.mem_insert _ _
  · exact fun _ _ => .inl

/-- A new order's block counts as handed out from here on. -/
lemma allocateOrder {o o' : BookOrder I} (ho : BookOrder.Turned (τ.Moved O) o o') :
    Matches (fun r r' => ∃ O', τ.Moved O' r.2 r'.2 ∧
        Turned ρ τ L O' (b.setOrderPool r.1) (c.setOrderPool r'.1))
      (FaultsTurned ρ τ) (b.orderPool.allocate o) (c.orderPool.allocate o') := by
  have hgrow : ∀ p q, τ.Moved O p q → τ.Moved (insert b.orderPool.nextFreeIndex O) p q :=
    fun p q hp => hp.mono (Set.subset_insert _ _)
  have hnew := ho.mono hgrow
  have hboth := h.orders.allocate (fun _ _ ho => ho.mono hgrow) hnew
  apply hboth.mono
  · rintro ⟨pool, i⟩ ⟨pool', i'⟩ ⟨hi, hi', hpool⟩
    refine ⟨_, ⟨?_, hi'⟩, ?_, hpool, h.top, h.prices, fun k => rel_mono (h.table k) hgrow⟩
    · exact hi ▸ Set.mem_insert _ _
    · exact ⟨h.levels.size, h.levels.size', h.levels.next, h.levels.free, h.levels.used, fun j hj =>
        (h.levels.object j hj).mono (fun _ _ => id) hgrow⟩
  · exact fun _ _ => .inr

end Writes

section Helpers
variable (h : Turned ρ τ L O b c)
include h

/-- The target scan walks both ladders in step. -/
lemma findTargetLoop (side : Side) (price : Price) {best best' : Nat} (hbest : ρ.Moved L best best') (fuel : Nat)
    {target target' : Nat} (htarget : ρ.Moved L target target') (after : Bool) :
    Matches (fun r r' => ρ.Moved L r.1 r'.1 ∧ r'.2 = r.2) (FaultsTurned ρ τ)
      (b.findTargetLoop side price best fuel target after) (c.findTargetLoop side price best' fuel target' after) := by
  induction fuel generalizing target target' after with
  | zero => exact .error (.inl (.same _))
  | succ fuel ih =>
    rw [PriceBook.findTargetLoop, PriceBook.findTargetLoop]
    apply Matches.ite
    · simp [htarget.eq_iff hbest]
    · intro _
      rw [(h.level htarget).price]
      apply Matches.ite Iff.rfl
      · intro _
        apply (matches_deref (h.level htarget).nextEntry).bind
        intro next next' hnext
        exact ih hnext true
      · intro _
        exact .ok ⟨htarget, rfl⟩
    · intro _
      exact .ok ⟨htarget, rfl⟩

lemma findTarget (side : Side) (price : Price) {best best' : Nat} (hbest : ρ.Moved L best best') :
    Matches (fun r r' => ρ.Moved L r.1 r'.1 ∧ r'.2 = r.2) (FaultsTurned ρ τ)
      (b.findTarget side price best) (c.findTarget side price best') := by
  unfold PriceBook.findTarget
  rw [(h.level hbest).price, h.levels.size, h.levels.size']
  apply Matches.ite Iff.rfl
  · intro _
    apply (matches_deref (h.level hbest).nextEntry).bind
    intro second second' hsecond
    rw [(h.level hsecond).price]
    exact h.findTargetLoop side price hbest _ hsecond _
  · intro _
    exact h.findTargetLoop side price hbest _ hbest _

lemma insertAfter {new new' target target' : Nat} (hnew : ρ.Moved L new new') (htarget : ρ.Moved L target target') :
    Matches (Turned ρ τ L O) (FaultsTurned ρ τ) (b.insertAfter new target) (c.insertAfter new' target') := by
  unfold PriceBook.insertAfter
  have h₁ := h.setPrevEntry hnew (.some htarget)
  apply (matches_deref (h₁.level htarget).nextEntry).bind
  intro after after' hafter
  have h₂ := h₁.setPrevEntry hafter (.some hnew)
  have h₃ := h₂.setNextEntry hnew (h₂.level htarget).nextEntry
  exact matches_pure (h₃.setNextEntry htarget (.some hnew))

lemma insertBefore {new new' target target' : Nat} (hnew : ρ.Moved L new new') (htarget : ρ.Moved L target target') :
    Matches (Turned ρ τ L O) (FaultsTurned ρ τ) (b.insertBefore new target) (c.insertBefore new' target') := by
  unfold PriceBook.insertBefore
  have h₁ := h.setPrevEntry hnew (h.level htarget).prevEntry
  have h₂ := h₁.setNextEntry hnew (.some htarget)
  apply (matches_deref (h₂.level htarget).prevEntry).bind
  intro before before' hbefore
  have h₃ := h₂.setNextEntry hbefore (.some hnew)
  exact matches_pure (h₃.setPrevEntry htarget (.some hnew))

/-- A new level goes to the same place of both ladders, torn or not. -/
theorem addOrdersAtPrice {new new' : Nat} (hnew : ρ.Moved L new new') :
    Matches (Turned ρ τ L O) (FaultsTurned ρ τ) (b.addOrdersAtPrice new) (c.addOrdersAtPrice new') := by
  unfold PriceBook.addOrdersAtPrice
  simp only [(h.level hnew).side, (h.level hnew).price]
  generalize (b.level new).side = side
  generalize (b.level new).price = price
  have h₀ := h.setOrdersAtPrice price (.some hnew)
  have htop := h₀.top side
  revert htop
  generalize b.setOrdersAtPrice price (some new) = b₀ at h₀ ⊢
  generalize c.setOrdersAtPrice price (some new') = c₀ at h₀ ⊢
  generalize b₀.top side = v
  generalize c₀.top side = w
  intro htop
  cases htop with
  | none =>
    have h₁ := h₀.setTop side (.some hnew)
    exact matches_pure ((h₁.setPrevEntry hnew (.some hnew)).setNextEntry hnew (.some hnew))
  | @some best best' hbest =>
    apply (h₀.findTarget side price hbest).bind
    rintro ⟨target, after⟩ ⟨target', after'⟩ ⟨htarget, hafter⟩
    simp only at htarget hafter
    subst hafter
    apply Matches.ite Iff.rfl
    · intro _
      apply Matches.ite (htarget.eq_iff hbest)
      · intro _
        apply (matches_deref (h₀.level hbest).prevEntry).bind
        intro last last' hlast
        exact h₀.insertAfter hnew hlast
      · intro _
        exact h₀.insertAfter hnew htarget
    · intro _
      apply (h₀.insertBefore hnew htarget).bind
      intro b₁ c₁ h₁
      rw [(h₁.level hbest).price]
      apply Matches.ite Iff.rfl
      · intro _
        have hnext : Option.Rel (ρ.Moved L)
            (if (b₁.level target).nextEntry = some best then some new else (b₁.level target).nextEntry)
            (if (c₁.level target').nextEntry = some best' then some new' else (c₁.level target').nextEntry) := by
          have hsame := moved_eq_iff (h₁.level htarget).nextEntry (.some hbest)
          by_cases hat : (b₁.level target).nextEntry = some best
          · rw [if_pos hat, if_pos (hsame.mp hat)]
            exact .some hnew
          · rw [if_neg hat, if_neg (mt hsame.mpr hat)]
            exact (h₁.level htarget).nextEntry
        exact matches_pure ((h₁.setNextEntry htarget hnext).setTop side (.some hnew))
      · intro _
        exact matches_pure h₁

lemma unlinkOrdersAtPrice (side : Side) {lvl lvl' : Nat} (hlvl : ρ.Moved L lvl lvl') :
    Matches (Turned ρ τ L O) (FaultsTurned ρ τ) (b.unlinkOrdersAtPrice side lvl)
      (c.unlinkOrdersAtPrice side lvl') := by
  unfold PriceBook.unlinkOrdersAtPrice
  apply Matches.ite (moved_eq_iff (h.level hlvl).nextEntry (.some hlvl))
  · intro _
    exact matches_pure (h.setTop side .none)
  · intro _
    apply (matches_deref (h.level hlvl).prevEntry).bind
    intro before before' hbefore
    have h₁ := h.setNextEntry hbefore (h.level hlvl).nextEntry
    apply (matches_deref (h₁.level hlvl).nextEntry).bind
    intro after after' hafter
    have h₂ := h₁.setPrevEntry hafter (h₁.level hlvl).prevEntry
    have hsame := moved_eq_iff (.some hlvl) (h.top side)
    by_cases hbest : some lvl = b.top side
    · simp only [if_pos hbest, if_pos (hsame.mp hbest)]
      have h₃ := h₂.setTop side (h₂.level hlvl).nextEntry
      exact matches_pure ((h₃.setPrevEntry hlvl .none).setNextEntry hlvl .none)
    · simp only [if_neg hbest, if_neg (mt hsame.mpr hbest)]
      exact matches_pure ((h₂.setPrevEntry hlvl .none).setNextEntry hlvl .none)

theorem removeOrdersAtPrice (side : Side) (price : Price) :
    Matches (Turned ρ τ L O) (FaultsTurned ρ τ) (b.removeOrdersAtPrice side price)
      (c.removeOrdersAtPrice side price) := by
  unfold PriceBook.removeOrdersAtPrice
  apply (matches_deref (h.prices (priceToIndex price))).bind
  intro lvl lvl' hlvl
  apply (h.unlinkOrdersAtPrice side hlvl).bind
  intro b₁ c₁ h₁
  exact (h₁.setOrdersAtPrice price .none).deallocateLevel hlvl

/-- An order goes to the end of its level's ring in both books, or to a level of its own. -/
theorem linkOrder {o o' : Nat} (ho : τ.Moved O o o') :
    Matches (fun b' c' => ∃ L', Turned ρ τ L' O b' c') (FaultsTurned ρ τ) (b.linkOrder o) (c.linkOrder o') := by
  unfold PriceBook.linkOrder PriceBook.getOrdersAtPrice
  rw [(h.order ho).price]
  have hslot := h.prices (priceToIndex (b.order o).price)
  revert hslot
  generalize b.priceOrdersAtPrice (priceToIndex (b.order o).price) = v
  generalize c.priceOrdersAtPrice (priceToIndex (b.order o).price) = w
  intro hslot
  cases hslot with
  | none =>
    have h₁ := (h.setPrevOrder ho (.some ho)).setNextOrder ho (.some ho)
    have hlevel : OrdersAtPrice.Turned (ρ.Moved L) (τ.Moved O)
        ⟨(((b.setPrevOrder o (some o)).setNextOrder o (some o)).order o).side,
          (((b.setPrevOrder o (some o)).setNextOrder o (some o)).order o).price, some o, none, none⟩
        ⟨(((c.setPrevOrder o' (some o')).setNextOrder o' (some o')).order o').side,
          (((c.setPrevOrder o' (some o')).setNextOrder o' (some o')).order o').price, some o', none, none⟩ :=
      ⟨(h₁.order ho).side, (h₁.order ho).price, .some ho, .none, .none⟩
    apply (h₁.allocateLevel hlevel).bind
    rintro ⟨pool, lvl⟩ ⟨pool', lvl'⟩ ⟨L', hlvl, h₂⟩
    exact (h₂.addOrdersAtPrice hlvl).mono (fun _ _ h => ⟨L', h⟩) fun _ _ => id
  | @some lvl lvl' hlvl =>
    apply (matches_deref (h.level hlvl).firstOrder).bind
    intro first first' hfirst
    apply (matches_deref (h.order hfirst).prevOrder).bind
    intro last last' hlast
    have h₁ := h.setNextOrder hlast (.some ho)
    have h₂ := h₁.setPrevOrder ho (h₁.order hfirst).prevOrder
    have h₃ := h₂.setNextOrder ho (.some hfirst)
    exact matches_pure ⟨L, h₃.setPrevOrder hfirst (.some ho)⟩

theorem unlinkOrder {o o' : Nat} (ho : τ.Moved O o o') :
    Matches (Turned ρ τ L O) (FaultsTurned ρ τ) (b.unlinkOrder o) (c.unlinkOrder o') := by
  unfold PriceBook.unlinkOrder PriceBook.getOrdersAtPrice
  rw [(h.order ho).price, (h.order ho).side]
  apply Matches.ite (moved_eq_iff (h.order ho).prevOrder (.some ho))
  · intro _
    exact h.removeOrdersAtPrice _ _
  · intro _
    apply (matches_deref (h.order ho).prevOrder).bind
    intro before before' hbefore
    have h₁ := h.setNextOrder hbefore (h.order ho).nextOrder
    apply (matches_deref (h.order ho).nextOrder).bind
    intro after after' hafter
    have h₂ := h₁.setPrevOrder hafter (.some hbefore)
    apply (matches_deref (h.prices _)).bind
    intro lvl lvl' hlvl
    have hsame := moved_eq_iff (h₂.level hlvl).firstOrder (.some ho)
    by_cases hfirst : (((b.setNextOrder before (b.order o).nextOrder).setPrevOrder after (some before)).level
        lvl).firstOrder = some o
    · simp only [if_pos hfirst, if_pos (hsame.mp hfirst)]
      have h₃ := h₂.setFirstOrder hlvl (h.order ho).nextOrder
      exact matches_pure ((h₃.setPrevOrder ho .none).setNextOrder ho .none)
    · simp only [if_neg hfirst, if_neg (mt hsame.mpr hfirst)]
      exact matches_pure ((h₂.setPrevOrder ho .none).setNextOrder ho .none)

variable [DecidableEq K] [OrderKey I K]

lemma setOrderTable (k : K) (hv : Option.Rel (τ.Moved O) v w) :
    Matches (Turned ρ τ L O) (FaultsTurned ρ τ) (b.setOrderTable k v) (c.setOrderTable k w) := by
  unfold PriceBook.setOrderTable
  apply Matches.ite Iff.rfl
  · intro _
    exact .ok (h.setKey k hv)
  · intro _
    exact .error (.inl (.same _))

theorem addOrder {o o' : Nat} (ho : τ.Moved O o o') :
    Matches (fun b' c' => ∃ L', Turned ρ τ L' O b' c') (FaultsTurned ρ τ) (b.addOrder o) (c.addOrder o') := by
  unfold PriceBook.addOrder
  apply (h.linkOrder ho).bind
  rintro b₁ c₁ ⟨L', h₁⟩
  rw [(h₁.order ho).ids]
  exact (h₁.setOrderTable _ (.some ho)).mono (fun _ _ h => ⟨L', h⟩) fun _ _ => id

theorem removeOrder {o o' : Nat} (ho : τ.Moved O o o') :
    Matches (Turned ρ τ L O) (FaultsTurned ρ τ) (b.removeOrder o) (c.removeOrder o') := by
  unfold PriceBook.removeOrder
  apply (h.unlinkOrder ho).bind
  intro b₁ c₁ h₁
  rw [(h₁.order ho).ids]
  apply (h₁.setOrderTable _ .none).bind
  intro b₂ c₂ h₂
  exact h₂.deallocateOrder ho

end Helpers

end Turned
end PriceBook
end LowLatencyExchange
