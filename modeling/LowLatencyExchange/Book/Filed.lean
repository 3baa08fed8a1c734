import LowLatencyExchange.Book.Remove
import LowLatencyExchange.Book.Place
import LowLatencyExchange.Book.Quantity

/-!
# The slots of the price table

Whatever the ladders look like, every slot of the price table is null or gives the one live
level of that slot, and this level carries the ring of exactly those orders whose price falls
into the slot. `Filed b rings` says so. Adding and removing an order keep it, also when
prices or sides share a slot.
-/

namespace LowLatencyExchange
open CircularList
namespace PriceBook
variable {I K : Type} {b b' : PriceBook I K} {rings : Nat → List Nat}

structure Filed (b : PriceBook I K) (rings : Nat → List Nat) : Prop where
  level : ∀ i p, b.priceOrdersAtPrice i = some p ↔
    b.ordersAtPricePool.Used p ∧ priceToIndex (b.level p).price = i
  empty : ∀ i, b.priceOrdersAtPrice i = none ↔ rings i = []
  first : ∀ i p, b.priceOrdersAtPrice i = some p → (b.level p).firstOrder = (rings i).head?
  ring : ∀ i, Ring (fun o => (b.order o).nextOrder) (fun o => (b.order o).prevOrder) (rings i)
  nodup : ∀ i, (rings i).Nodup
  mem : ∀ i o, o ∈ rings i ↔ b.orderPool.Used o ∧ priceToIndex (b.order o).price = i

/-- The order stands in the ring of the level. -/
def StandsIn (b : PriceBook I K) (o lvl : Nat) : Prop :=
  b.ordersAtPricePool.Used lvl ∧
    ∃ n, follow (fun q => (b.order q).nextOrder) n (b.level lvl).firstOrder = some o

/-- The order rests in the book: some live level has it in its ring. -/
def Resting (b : PriceBook I K) (o : Nat) : Prop := ∃ lvl, b.StandsIn o lvl

lemma filed_empty {levels : MemPool OrdersAtPrice} {orders : MemPool (BookOrder I)}
    (hnoLevel : ∀ p, ¬levels.Used p) (hnoOrder : ∀ o, ¬orders.Used o) :
    (⟨levels, none, none, fun _ => none, orders, fun _ => none⟩ : PriceBook I K).Filed fun _ => [] where
  level := fun i p => by simp [hnoLevel]
  empty := fun i => by simp
  first := fun i p h => by simp at h
  ring := fun i => ring_nil
  nodup := fun i => .nil
  mem := fun i o => by simp [hnoOrder]

/-- A ring stays among its own elements. -/
lemma follow_mem {P : Type} {next prev : P → Option P} {l : List P} (h : Ring next prev l) {n : Nat} {a x : P}
    (ha : a ∈ l) (hx : follow next n (some a) = some x) : x ∈ l := by
  induction n generalizing a with
  | zero =>
    obtain rfl : a = x := Option.some.inj hx
    exact ha
  | succ n ih =>
    obtain ⟨c, hc, hj⟩ := h.exists_next ha
    apply ih hc
    rwa [follow, Option.bind_some, hj.1] at hx

/-- An order of a slot stands in the slot's level and in no other. -/
lemma Filed.standsIn_iff (h : b.Filed rings) {o lvl : Nat} : b.StandsIn o lvl ↔
    b.orderPool.Used o ∧ b.getOrdersAtPrice (b.order o).price = some lvl := by
  constructor
  · rintro ⟨hused, n, hn⟩
    have hget := (h.level _ lvl).mpr ⟨hused, rfl⟩
    rw [h.first _ lvl hget] at hn
    cases hring : rings (priceToIndex (b.level lvl).price) with
    | nil =>
      have hnone := (h.empty _).mpr hring
      rw [hnone] at hget
      cases hget
    | cons x rest =>
      rw [hring, List.head?_cons] at hn
      have hmem := follow_mem (h.ring (priceToIndex (b.level lvl).price)) (by rw [hring]; exact List.mem_cons_self) hn
      obtain ⟨hoUsed, hindex⟩ := (h.mem _ o).mp hmem
      refine ⟨hoUsed, ?_⟩
      rw [getOrdersAtPrice, hindex]
      exact hget
  · rintro ⟨hused, hget⟩
    have hmem := (h.mem _ o).mpr ⟨hused, rfl⟩
    obtain ⟨n, hn, hno⟩ := List.getElem_of_mem hmem
    refine ⟨((h.level _ lvl).mp hget).1, n, ?_⟩
    rw [h.first _ lvl hget, (h.ring _).follow hn, List.getElem?_eq_getElem hn, hno]

/-- The resting orders are the blocks in use. -/
lemma Filed.resting_iff (h : b.Filed rings) {o : Nat} : b.Resting o ↔ b.orderPool.Used o := by
  constructor
  · rintro ⟨lvl, hstands⟩
    exact (h.standsIn_iff.mp hstands).1
  · intro hused
    have hmem := (h.mem _ o).mpr ⟨hused, rfl⟩
    cases hget : b.getOrdersAtPrice (b.order o).price with
    | none =>
      rw [(h.empty _).mp hget] at hmem
      cases hmem
    | some lvl => exact ⟨lvl, h.standsIn_iff.mpr ⟨hused, hget⟩⟩

/-- Taking an order out of its ring: what is left of slot `i` is `rest`. -/
structure Unfiled (b : PriceBook I K) (o i : Nat) (rest : List Nat) (b' : PriceBook I K) : Prop where
  ring : Ring (fun q => (b'.order q).nextOrder) (fun q => (b'.order q).prevOrder) rest
  away : ∀ q ∉ o :: rest, b'.order q = b.order q
  price : ∀ q, (b'.level q).price = (b.level q).price
  side : ∀ q, (b'.level q).side = (b.level q).side
  first : ∀ q, (b'.level q).firstOrder =
    if rest ≠ [] ∧ b.priceOrdersAtPrice i = some q then rest.head? else (b.level q).firstOrder
  prices : b'.priceOrdersAtPrice =
    if rest = [] then Function.update b.priceOrdersAtPrice i none else b.priceOrdersAtPrice
  used : ∀ q, b'.ordersAtPricePool.Used q ↔
    b.ordersAtPricePool.Used q ∧ (rest = [] → b.priceOrdersAtPrice i ≠ some q)

lemma removeOrdersAtPrice_ok {side : Side} {price : Price} (h : b.removeOrdersAtPrice side price = .ok b') :
    ∃ lvl b₁, b.getOrdersAtPrice price = some lvl ∧ UnlinkFrame b b₁ ∧
      b' = (b₁.setOrdersAtPrice price none).setLevelPool (b₁.ordersAtPricePool.release lvl) := by
  obtain ⟨lvl, hlvl, h⟩ := bind_eq_ok h
  obtain ⟨b₁, hb₁, h⟩ := bind_eq_ok h
  obtain ⟨pool, hpool, h⟩ := bind_eq_ok h
  cases h
  obtain ⟨-, rfl⟩ := MemPool.deallocate_eq_ok hpool
  exact ⟨lvl, b₁, deref_eq_ok hlvl, unlinkOrdersAtPrice_unlink hb₁, rfl⟩

lemma Filed.unlinkOrder (h : b.Filed rings) {o : Nat} (ho : b.orderPool.Used o)
    (hrun : b.unlinkOrder o = .ok b') :
    Unfiled b o (priceToIndex (b.order o).price)
      ((rings (priceToIndex (b.order o).price)).erase o) b' := by
  generalize hi : priceToIndex (b.order o).price = i
  have hmem : o ∈ rings i := (h.mem i o).mpr ⟨ho, hi⟩
  obtain ⟨l, m, hring⟩ := List.append_of_mem hmem
  have hd := h.nodup i
  have hlinks := h.ring i
  rw [hring] at hd hlinks
  have hnot : o ∉ l := fun hl => List.disjoint_of_nodup_append hd hl List.mem_cons_self
  have herase : (rings i).erase o = l ++ m := by
    rw [hring, List.erase_append_right _ hnot, List.erase_cons_head]
  rw [herase]
  obtain ⟨p, hp⟩ : ∃ p, b.priceOrdersAtPrice i = some p := by
    cases hget : b.priceOrdersAtPrice i with
    | none =>
      rw [(h.empty i).mp hget] at hmem
      cases hmem
    | some p => exact ⟨p, rfl⟩
  have hget : b.getOrdersAtPrice (b.order o).price = some p := by
    rw [getOrdersAtPrice, hi]
    exact hp
  have hself : (b.order o).prevOrder = some o ↔ l = [] ∧ m = [] := hlinks.prev_self_iff hd
  by_cases halone : l = [] ∧ m = []
  · obtain ⟨rfl, rfl⟩ := halone
    have hprev : (b.order o).prevOrder = some o := hself.mpr ⟨rfl, rfl⟩
    simp only [PriceBook.unlinkOrder, hprev, if_true] at hrun
    obtain ⟨lvl, b₁, hlvl, hf, rfl⟩ := removeOrdersAtPrice_ok hrun
    obtain rfl : p = lvl := Option.some.inj (hget.symm.trans hlvl)
    have hdata := fun q => OrdersAtPrice.unlinked_eq_iff.mp (hf.data q)
    refine ⟨ring_nil, fun q hq => ?_, fun q => ?_, fun q => ?_, fun q => ?_, ?_, fun q => ?_⟩
    · simp [order, hf.orderPool]
    · exact (congrArg OrdersAtPrice.price (MemPool.object_release b₁.ordersAtPricePool p q)).trans (hdata q).2.1
    · exact (congrArg OrdersAtPrice.side (MemPool.object_release b₁.ordersAtPricePool p q)).trans (hdata q).1
    · rw [if_neg (by simp)]
      exact (congrArg OrdersAtPrice.firstOrder (MemPool.object_release b₁.ordersAtPricePool p q)).trans (hdata q).2.2
    · simp [hf.prices, hi]
    · rw [ordersAtPricePool_setLevelPool, MemPool.used_release, hf.used, hp]
      simp [eq_comm, and_comm]
  · obtain ⟨b₂, hb₂, hu⟩ := unlinkOrder_spec hlinks hd halone hget (hring ▸ h.first i p hp)
    obtain rfl : b₂ = b' := Except.ok.inj (hb₂.symm.trans hrun)
    have hne : l ++ m ≠ [] := by simpa using halone
    refine ⟨hu.ring, hu.away, fun q => ?_, fun q => ?_, fun q => ?_, ?_, fun q => ?_⟩
    · rw [hu.level]
      split <;> rfl
    · rw [hu.level]
      split <;> rfl
    · rw [hu.level, hp]
      by_cases hq : q = p
      · subst hq
        simp [hne]
      · simp [hq, Ne.symm hq]
    · rw [if_neg hne, hu.prices]
    · rw [hu.used]
      exact ⟨fun hq => ⟨hq, fun he => absurd he hne⟩, fun hq => hq.1⟩

/-- The slots after an order is out of its ring and its block is free. -/
lemma Unfiled.filed (h : b.Filed rings) {o i : Nat} (hi : priceToIndex (b.order o).price = i)
    (hu : Unfiled b o i ((rings i).erase o) b') {b'' : PriceBook I K}
    (hlevel : ∀ q, b''.level q = b'.level q) (horder : ∀ q, b''.order q = b'.order q)
    (hprices : b''.priceOrdersAtPrice = b'.priceOrdersAtPrice)
    (hused : ∀ q, b''.ordersAtPricePool.Used q ↔ b'.ordersAtPricePool.Used q)
    (hdata : ∀ q, (b'.order q).price = (b.order q).price)
    (hfree : ∀ q, b''.orderPool.Used q ↔ q ≠ o ∧ b.orderPool.Used q) :
    b''.Filed (Function.update rings i ((rings i).erase o)) := by
  have hother : ∀ j, j ≠ i → ∀ q ∈ rings j, q ∉ o :: (rings i).erase o := by
    intro j hj q hq hmem
    have hqj := ((h.mem j q).mp hq).2
    rcases List.mem_cons.mp hmem with rfl | hmem
    · exact hj (hqj.symm.trans hi)
    · exact hj (hqj.symm.trans ((h.mem i q).mp (List.mem_of_mem_erase hmem)).2)
  generalize hrest : (rings i).erase o = rest at *
  have hsub : ∀ q, q ∈ rest ↔ q ≠ o ∧ q ∈ rings i := fun q => by
    rw [← hrest, (h.nodup i).mem_erase_iff]
  have hprice : ∀ q, (b''.order q).price = (b.order q).price := fun q => by rw [horder, hdata]
  refine ⟨fun j p => ?_, fun j => ?_, fun j p hp => ?_, fun j => ?_, fun j => ?_, fun j q => ?_⟩
  · rw [hprices, hu.prices, hused, hu.used, hlevel, hu.price, and_right_comm, ← h.level]
    by_cases hnil : rest = []
    · rw [if_pos hnil, Function.update_apply]
      by_cases hj : j = i
      · subst hj
        simp [hnil]
      · rw [if_neg hj]
        refine ⟨fun hp => ⟨hp, fun _ hpi => ?_⟩, fun hp => hp.1⟩
        exact hj (((h.level j p).mp hp).2.symm.trans ((h.level i p).mp hpi).2)
    · rw [if_neg hnil]
      simp [hnil]
  · rw [hprices, hu.prices]
    by_cases hj : j = i
    · subst hj
      rw [Function.update_self]
      by_cases hnil : rest = []
      · rw [if_pos hnil, Function.update_self]
        simp [hnil]
      · rw [if_neg hnil, h.empty]
        refine ⟨fun hring => absurd ?_ hnil, fun he => absurd he hnil⟩
        rw [← hrest, hring, List.erase_nil]
    · rw [Function.update_of_ne hj, ← h.empty]
      split
      · rw [Function.update_of_ne hj]
      · rfl
  · have hold : b.priceOrdersAtPrice j = some p ∧ (j = i → rest ≠ []) := by
      rw [hprices, hu.prices] at hp
      split at hp
      · rename_i hnil
        rw [Function.update_apply] at hp
        split at hp
        · cases hp
        · rename_i hj
          exact ⟨hp, fun he => absurd he hj⟩
      · rename_i hnil
        exact ⟨hp, fun _ => hnil⟩
    rw [hlevel, hu.first]
    by_cases hj : j = i
    · subst hj
      rw [Function.update_self, if_pos ⟨hold.2 rfl, hold.1⟩]
    · have hpi : b.priceOrdersAtPrice i ≠ some p := fun hpi =>
        hj (((h.level j p).mp hold.1).2.symm.trans ((h.level i p).mp hpi).2)
      rw [Function.update_of_ne hj, if_neg (fun he => hpi he.2)]
      exact h.first j p hold.1
  · by_cases hj : j = i
    · subst hj
      rw [Function.update_self]
      simpa only [horder] using hu.ring
    · rw [Function.update_of_ne hj]
      refine (h.ring j).congr (fun q hq => ?_) (fun q hq => ?_) <;>
        rw [horder, hu.away q (hother j hj q hq)]
  · by_cases hj : j = i
    · subst hj
      rw [Function.update_self, ← hrest]
      exact (h.nodup j).erase o
    · rw [Function.update_of_ne hj]
      exact h.nodup j
  · rw [hfree, hprice, and_assoc, ← h.mem]
    by_cases hj : j = i
    · subst hj
      rw [Function.update_self, hsub]
    · rw [Function.update_of_ne hj]
      refine ⟨fun hq => ⟨fun he => ?_, hq⟩, fun hq => hq.2⟩
      exact hother j hj q hq (he ▸ List.mem_cons_self)

lemma Filed.setQty (h : b.Filed rings) (o : Nat) (qty : Qty) : (b.setQty o qty).Filed rings where
  level := h.level
  empty := h.empty
  first := h.first
  ring := fun i => (h.ring i).congr (fun q _ => by simp) (fun q _ => by simp)
  nodup := h.nodup
  mem := fun i q => by
    rw [h.mem, orderPool_modifyOrder, MemPool.used_modify, price_modifyOrder]
    exact fun _ => rfl

/-- Putting an order at the end of slot `i`, under level `n`. A level of its own is opened for it
when the slot is null. -/
structure PutUnder (b : PriceBook I K) (rings : Nat → List Nat) (o i n : Nat) (b' : PriceBook I K) : Prop where
  ring : Ring (fun q => (b'.order q).nextOrder) (fun q => (b'.order q).prevOrder) (rings i ++ [o])
  away : ∀ q ∉ rings i ++ [o], b'.order q = b.order q
  origin : (b.priceOrdersAtPrice i = none ∧ ¬b.ordersAtPricePool.Used n ∧
      (b'.level n).side = (b.order o).side ∧ (b'.level n).price = (b.order o).price) ∨
    (b.priceOrdersAtPrice i = some n ∧ b'.level n = b.level n)
  first : (b'.level n).firstOrder = (rings i ++ [o]).head?
  data : ∀ q, q ≠ n → (b'.level q).unlinked = (b.level q).unlinked
  prices : b'.priceOrdersAtPrice = Function.update b.priceOrdersAtPrice i (some n)
  used : ∀ q, b'.ordersAtPricePool.Used q ↔ q = n ∨ b.ordersAtPricePool.Used q

/-- `b` is a filed book whose order pool has handed out block `o`. -/
structure Filing (b₀ : PriceBook I K) (rings : Nat → List Nat) (o : Nat) (b : PriceBook I K) : Prop where
  filed : b₀.Filed rings
  level : ∀ q, b.level q = b₀.level q
  prices : b.priceOrdersAtPrice = b₀.priceOrdersAtPrice
  levelUsed : ∀ q, b.ordersAtPricePool.Used q ↔ b₀.ordersAtPricePool.Used q
  order : ∀ q, q ≠ o → b.order q = b₀.order q
  fresh : ¬b₀.orderPool.Used o
  orderUsed : ∀ q, b.orderPool.Used q ↔ q = o ∨ b₀.orderPool.Used q

lemma Filed.filing (h : b.Filed rings) {obj : BookOrder I} {pool : MemPool (BookOrder I)} {o : Nat}
    (halloc : b.orderPool.allocate obj = .ok (pool, o)) :
    Filing b rings o (b.setOrderPool pool) ∧ (b.setOrderPool pool).order o = obj := by
  obtain ⟨rfl, hfree, k, rfl⟩ := MemPool.allocate_eq_ok halloc
  refine ⟨⟨h, fun q => rfl, rfl, fun q => .rfl, fun q hq => ?_, hfree, fun q => ?_⟩, ?_⟩
  · exact (MemPool.object_take _ _ _ _).trans (if_neg hq)
  · exact MemPool.used_take _ _ _ _
  · exact (MemPool.object_take _ _ _ _).trans (if_pos rfl)

section Filing
variable {b₀ : PriceBook I K} {o : Nat}

lemma Filing.ne_of_mem (h : Filing b₀ rings o b) {i q : Nat} (hq : q ∈ rings i) : q ≠ o :=
  fun he => h.fresh (he ▸ ((h.filed.mem i q).mp hq).1)

lemma Filing.slot (h : Filing b₀ rings o b) (i p : Nat) : b.priceOrdersAtPrice i = some p ↔
    b.ordersAtPricePool.Used p ∧ priceToIndex (b.level p).price = i := by
  rw [h.prices, h.levelUsed, h.level]
  exact h.filed.level i p

lemma Filing.ring (h : Filing b₀ rings o b) (i : Nat) :
    Ring (fun q => (b.order q).nextOrder) (fun q => (b.order q).prevOrder) (rings i) :=
  (h.filed.ring i).congr (fun q hq => by rw [h.order q (h.ne_of_mem hq)])
    (fun q hq => by rw [h.order q (h.ne_of_mem hq)])

/-- An order whose slot is null opens a level. -/
lemma Filing.opens (h : Filing b₀ rings o b) {i : Nat} (hi : priceToIndex (b.order o).price = i)
    (hnone : b.getOrdersAtPrice (b.order o).price = none) (hrun : b.linkOrder o = .ok b') :
    ∃ n, PutUnder b rings o i n b' := by
  have hget : b.priceOrdersAtPrice i = none := by
    rw [getOrdersAtPrice, hi] at hnone
    exact hnone
  have hnil : rings i = [] := (h.filed.empty i).mp (h.prices ▸ hget)
  simp only [PriceBook.linkOrder, hnone] at hrun
  obtain ⟨⟨pool, n⟩, hpool, hrun⟩ := bind_eq_ok hrun
  dsimp only at hrun
  obtain ⟨hn, hfree, k, rfl⟩ := MemPool.allocate_eq_ok hpool
  have hladder := addOrdersAtPrice_ladder hrun
  have hheap := addOrdersAtPrice_frame hrun
  have hprices := addOrdersAtPrice_prices hrun
  generalize hb₁ : ((b.setPrevOrder o (some o)).setNextOrder o (some o)).setLevelPool _ = b₁ at *
  have hself : b₁.level n = ⟨(b.order o).side, (b.order o).price, some o, none, none⟩ := by
    rw [← hb₁, hn]
    refine (MemPool.object_take b.ordersAtPricePool _ _ _).trans ((if_pos rfl).trans ?_)
    simp
  have hother : ∀ q, q ≠ n → b₁.level q = b.level q := fun q hq => by
    rw [← hb₁]
    exact (MemPool.object_take b.ordersAtPricePool _ q _).trans (if_neg (hn ▸ hq))
  have horder : ∀ q, b₁.order q =
      if q = o then { b.order o with prevOrder := some o, nextOrder := some o } else b.order q := fun q => by
    rw [← hb₁, order_setLevelPool, order_modifyOrder, order_modifyOrder]
    by_cases hq : q = o <;> simp [hq]
  have hused : ∀ q, b₁.ordersAtPricePool.Used q ↔ q = n ∨ b.ordersAtPricePool.Used q := fun q => by
    rw [← hb₁, hn]
    exact MemPool.used_take b.ordersAtPricePool _ q _
  have horder' : ∀ q, b'.order q = b₁.order q := fun q => by simp only [PriceBook.order, hheap.1]
  have hdata := OrdersAtPrice.unlinked_eq_iff.mp (hladder.data n)
  rw [hself] at hdata hprices
  refine ⟨n, ?_, fun q hq => ?_, .inl ⟨hget, hfree, hdata.1, hdata.2.1⟩, ?_, fun q hq => ?_, ?_, fun q => ?_⟩
  · rw [hnil, List.nil_append, ring_singleton]
    simp [horder', horder]
  · rw [hnil, List.nil_append, List.mem_singleton] at hq
    rw [horder', horder, if_neg hq]
  · rw [hnil]
    exact hdata.2.2
  · rw [hladder.data, hother q hq]
  · rw [hprices, ← hb₁, hi]
    rfl
  · rw [hladder.used, hused]

/-- An order whose slot has a level goes to the end of its ring. -/
lemma Filing.joins (h : Filing b₀ rings o b) {i n : Nat} (hi : priceToIndex (b.order o).price = i)
    (hsome : b.getOrdersAtPrice (b.order o).price = some n) (hrun : b.linkOrder o = .ok b') :
    PutUnder b rings o i n b' := by
  have hget : b.priceOrdersAtPrice i = some n := by
    rw [getOrdersAtPrice, hi] at hsome
    exact hsome
  have hget₀ : b₀.priceOrdersAtPrice i = some n := h.prices ▸ hget
  have hfirst : (b.level n).firstOrder = (rings i).head? := by rw [h.level, h.filed.first i n hget₀]
  have hring := h.ring i
  have hd := h.filed.nodup i
  have hne : ∀ q ∈ rings i, q ≠ o := fun q hq => h.ne_of_mem hq
  obtain ⟨x, t, hxt⟩ : ∃ x t, rings i = x :: t := by
    apply List.exists_cons_of_ne_nil
    intro hnil
    rw [(h.filed.empty i).mpr hnil] at hget₀
    cases hget₀
  obtain ⟨y, hy, hj⟩ := hring.exists_prev (a := x) (by rw [hxt]; exact List.mem_cons_self)
  have hx : x ∈ rings i := by rw [hxt]; exact List.mem_cons_self
  have hxo := hne x hx
  have hyo := hne y hy
  have hlink := linkOrder_join hsome (by rw [hfirst, hxt]; rfl) hj.2
  obtain rfl : b.appendOrder o x y = b' := Except.ok.inj (hlink.symm.trans hrun)
  have hnext : ∀ q, ((b.appendOrder o x y).order q).nextOrder =
      if q = o then some x else if q = y then some o else (b.order q).nextOrder := fun q => by
    simp [appendOrder]
  have hprev : ∀ q, ((b.appendOrder o x y).order q).prevOrder =
      if q = x then some o else if q = o then some y else (b.order q).prevOrder := fun q => by
    simp [appendOrder]
  refine ⟨?_, fun q hq => ?_, .inr ⟨hget, rfl⟩, ?_, fun q _ => rfl, ?_, fun q => ?_⟩
  · rw [hxt] at hring hd hne ⊢
    refine hring.concat hd hj.2 (fun q hq hqy => ?_) (fun q hq hqx => ?_) ⟨?_, ?_⟩ ⟨?_, ?_⟩
    · rw [hnext, if_neg (hne q hq), if_neg hqy]
    · rw [hprev, if_neg hqx, if_neg (hne q hq)]
    · exact (hnext y).trans (by rw [if_neg hyo, if_pos rfl])
    · exact (hprev o).trans (by rw [if_neg (Ne.symm hxo), if_pos rfl])
    · exact (hnext o).trans (if_pos rfl)
    · exact (hprev x).trans (if_pos rfl)
  · have hqx : q ≠ x := fun e => hq (List.mem_append_left _ (e ▸ hx))
    have hqy : q ≠ y := fun e => hq (List.mem_append_left _ (e ▸ hy))
    have hqo : q ≠ o := fun e => hq (by rw [e]; exact List.mem_append_right _ (List.mem_singleton_self o))
    simp [appendOrder, order_modifyOrder, hqx, hqy, hqo]
  · rw [hxt]
    exact hfirst.trans (by rw [hxt]; rfl)
  · rw [show (b.appendOrder o x y).priceOrdersAtPrice = b.priceOrdersAtPrice from rfl, ← hget,
      Function.update_eq_self]
  · refine ⟨.inr, ?_⟩
    rintro (rfl | hq)
    · exact (h.levelUsed q).mpr ((h.filed.level i q).mp hget₀).1
    · exact hq

lemma Filing.linkOrder (h : Filing b₀ rings o b) (hrun : b.linkOrder o = .ok b') :
    ∃ n, PutUnder b rings o (priceToIndex (b.order o).price) n b' := by
  cases hget : b.getOrdersAtPrice (b.order o).price with
  | none => exact h.opens rfl hget hrun
  | some n => exact ⟨n, h.joins rfl hget hrun⟩

end Filing

/-- The level of the slot an order was put in stands in no other slot. -/
lemma PutUnder.slot_eq {b₀ : PriceBook I K} {o i n j : Nat} (h : Filing b₀ rings o b)
    (hp : PutUnder b rings o i n b') (hj : b.priceOrdersAtPrice j = some n) : j = i := by
  rcases hp.origin with ⟨-, hfree, -⟩ | ⟨hsome, -⟩
  · exact absurd ((h.slot j n).mp hj).1 hfree
  · exact ((h.slot j n).mp hj).2.symm.trans ((h.slot i n).mp hsome).2

/-- The slots after an order was put at the end of one. -/
lemma PutUnder.filed {b₀ : PriceBook I K} {o i n : Nat} (h : Filing b₀ rings o b)
    (hi : priceToIndex (b.order o).price = i) (hp : PutUnder b rings o i n b')
    (hused : ∀ q, b'.orderPool.Used q ↔ b.orderPool.Used q)
    (hdata : ∀ q, (b'.order q).unlinked = (b.order q).unlinked) : b'.Filed (Function.update rings i (rings i ++ [o])) := by
  have hprice : ∀ q, (b'.level q).price = if q = n then (b'.level n).price else (b.level q).price := by
    intro q
    split
    · rename_i hq
      rw [hq]
    · rename_i hq
      exact (OrdersAtPrice.unlinked_eq_iff.mp (hp.data q hq)).2.1
  have hlevel := h.slot
  have hindex : priceToIndex (b'.level n).price = i := by
    rcases hp.origin with ⟨-, -, -, hprice⟩ | ⟨hsome, hsame⟩
    · rw [hprice, hi]
    · rw [hsame]
      exact ((hlevel i n).mp hsome).2
  have honly : ∀ q, q ≠ n → b.priceOrdersAtPrice i ≠ some q := by
    intro q hq hqi
    rcases hp.origin with ⟨hnone, -⟩ | ⟨hsome, -⟩
    · rw [hnone] at hqi
      cases hqi
    · exact hq (Option.some.inj (hqi.symm.trans hsome))
  have hfresh : ∀ j, b.priceOrdersAtPrice j = some n → j = i := fun j hj => hp.slot_eq h hj
  have hmem : ∀ j q, q ∈ rings j ↔ q ≠ o ∧ b.orderPool.Used q ∧ priceToIndex (b.order q).price = j := by
    intro j q
    rw [h.orderUsed]
    by_cases hq : q = o
    · refine ⟨fun hqj => absurd hq (h.ne_of_mem hqj), fun hqj => absurd hq hqj.1⟩
    · rw [h.order q hq, h.filed.mem]
      simp [hq]
  refine ⟨fun j p => ?_, fun j => ?_, fun j p hjp => ?_, fun j => ?_, fun j => ?_, fun j q => ?_⟩
  · rw [hp.prices, hp.used, hprice, Function.update_apply]
    by_cases hpn : p = n
    · subst hpn
      rw [if_pos rfl, hindex]
      split
      · rename_i hj
        simp [hj]
      · rename_i hj
        exact ⟨fun hjp => absurd (hfresh j hjp) hj, fun hij => absurd hij.2.symm hj⟩
    · rw [if_neg hpn, or_iff_right hpn, ← hlevel]
      split
      · rename_i hj
        subst hj
        exact ⟨fun he => absurd (Option.some.inj he).symm hpn, fun he => absurd he (honly p hpn)⟩
      · rfl
  · rw [hp.prices, Function.update_apply, Function.update_apply]
    split
    · simp
    · rw [h.prices]
      exact h.filed.empty j
  · rw [hp.prices, Function.update_apply] at hjp
    rw [Function.update_apply]
    by_cases hj : j = i
    · rw [if_pos hj] at hjp ⊢
      obtain rfl := Option.some.inj hjp
      exact hp.first
    · rw [if_neg hj] at hjp ⊢
      have hpn : p ≠ n := fun he => hj (hfresh j (he ▸ hjp))
      rw [(OrdersAtPrice.unlinked_eq_iff.mp (hp.data p hpn)).2.2, h.level]
      exact h.filed.first j p (h.prices ▸ hjp)
  · rw [Function.update_apply]
    split
    · exact hp.ring
    · rename_i hj
      have hout : ∀ q ∈ rings j, q ∉ rings i ++ [o] := by
        intro q hq hqi
        obtain ⟨hqo, -, hqj⟩ := (hmem j q).mp hq
        rcases List.mem_append.mp hqi with hqi | hqi
        · exact hj (hqj.symm.trans ((hmem i q).mp hqi).2.2)
        · exact hqo (List.mem_singleton.mp hqi)
      exact (h.ring j).congr (fun q hq => by rw [hp.away q (hout q hq)])
        (fun q hq => by rw [hp.away q (hout q hq)])
  · rw [Function.update_apply]
    split
    · apply (h.filed.nodup i).append (List.nodup_singleton o)
      intro q hq hqo
      exact h.ne_of_mem hq (List.mem_singleton.mp hqo)
    · exact h.filed.nodup j
  · rw [hused, (BookOrder.unlinked_eq_iff.mp (hdata q)).2.2.1, Function.update_apply]
    have ho : b.orderPool.Used o := (h.orderUsed o).mpr (.inl rfl)
    split
    · rename_i hj
      rw [List.mem_append, List.mem_singleton, hmem, hj]
      constructor
      · rintro (⟨-, hq⟩ | rfl)
        · exact hq
        · exact ⟨ho, hi⟩
      · intro hq
        by_cases hqo : q = o
        · exact .inr hqo
        · exact .inl ⟨hqo, hq⟩
    · rename_i hj
      rw [hmem]
      refine ⟨fun hq => hq.2, fun hq => ⟨fun he => ?_, hq⟩⟩
      exact hj (hq.2.symm.trans (he ▸ hi))

section Keys
variable [DecidableEq K] [OrderKey I K]

lemma Filed.removeOrder_unlink (h : b.Filed rings) {o : Nat} (hrun : b.removeOrder o = .ok b') :
    ∃ b₁, Unfiled b o (priceToIndex (b.order o).price)
        ((rings (priceToIndex (b.order o).price)).erase o) b₁ ∧
      (∀ q, b'.level q = b₁.level q) ∧ (∀ q, b'.order q = b₁.order q) ∧
      b'.priceOrdersAtPrice = b₁.priceOrdersAtPrice ∧
      ∀ q, b'.ordersAtPricePool.Used q ↔ b₁.ordersAtPricePool.Used q := by
  have hf := removeOrder_frame hrun
  obtain ⟨b₁, hb₁, hrun⟩ := bind_eq_ok hrun
  obtain ⟨b₂, hb₂, hrun⟩ := bind_eq_ok hrun
  obtain ⟨pool, hpool, hrun⟩ := bind_eq_ok hrun
  cases hrun
  unfold setOrderTable at hb₂
  split at hb₂
  · cases hb₂
    obtain ⟨-, rfl⟩ := MemPool.deallocate_eq_ok hpool
    refine ⟨b₁, h.unlinkOrder hf.wasUsed hb₁, fun q => rfl, fun q => ?_, rfl, fun q => .rfl⟩
    exact MemPool.object_release b₁.orderPool o q
  · cases hb₂

/-- Removing an order takes it out of its slot. -/
theorem Filed.removeOrder (h : b.Filed rings) {o : Nat} (hrun : b.removeOrder o = .ok b') :
    b'.Filed (Function.update rings (priceToIndex (b.order o).price)
      ((rings (priceToIndex (b.order o).price)).erase o)) := by
  have hf := removeOrder_frame hrun
  obtain ⟨b₁, hu, hlevel, horder, hprices, hused⟩ := h.removeOrder_unlink hrun
  refine hu.filed h rfl hlevel horder hprices hused (fun q => ?_) hf.used
  rw [← horder]
  exact (BookOrder.unlinked_eq_iff.mp (hf.order q)).2.2.1

/-- The levels that are left are levels of before. -/
lemma Filed.removeOrder_level (h : b.Filed rings) {o : Nat} (hrun : b.removeOrder o = .ok b') {i p : Nat}
    (hp : b'.priceOrdersAtPrice i = some p) : b.priceOrdersAtPrice i = some p ∧
      (b'.level p).price = (b.level p).price ∧ (b'.level p).side = (b.level p).side := by
  obtain ⟨b₁, hu, hlevel, -, hprices, -⟩ := h.removeOrder_unlink hrun
  refine ⟨?_, by rw [hlevel, hu.price], by rw [hlevel, hu.side]⟩
  rw [hprices, hu.prices] at hp
  split at hp
  · rw [Function.update_apply] at hp
    split at hp
    · cases hp
    · exact hp
  · exact hp

lemma Filed.addOrder_put (h : b.Filed rings) {obj : BookOrder I} {pool : MemPool (BookOrder I)} {o : Nat}
    (halloc : b.orderPool.allocate obj = .ok (pool, o)) (hrun : (b.setOrderPool pool).addOrder o = .ok b') :
    ∃ n, PutUnder (b.setOrderPool pool) rings o (priceToIndex obj.price) n b' ∧
      Filing b rings o (b.setOrderPool pool) ∧ (b.setOrderPool pool).order o = obj := by
  obtain ⟨hfiling, hobj⟩ := h.filing halloc
  obtain ⟨b₁, hb₁, rfl⟩ := addOrder_ok hrun
  obtain ⟨n, hput⟩ := hfiling.linkOrder hb₁
  rw [hobj] at hput
  exact ⟨n, ⟨hput.ring, hput.away, hput.origin, hput.first, hput.data, hput.prices, hput.used⟩, hfiling, hobj⟩

/-- Adding an order puts it at the end of its slot. -/
theorem Filed.addOrder (h : b.Filed rings) {obj : BookOrder I} {pool : MemPool (BookOrder I)} {o : Nat}
    (halloc : b.orderPool.allocate obj = .ok (pool, o)) (hrun : (b.setOrderPool pool).addOrder o = .ok b') :
    b'.Filed (Function.update rings (priceToIndex obj.price) (rings (priceToIndex obj.price) ++ [o])) := by
  obtain ⟨n, hput, hfiling, hobj⟩ := h.addOrder_put halloc hrun
  have hf := addOrder_frame hrun
  exact hput.filed hfiling (congrArg (fun x : BookOrder I => priceToIndex x.price) hobj) hf.used hf.order

/-- Every order in use has its own price and side on the level of its slot. -/
def OwnLevels (b : PriceBook I K) : Prop :=
  ∀ o p, b.orderPool.Used o → b.getOrdersAtPrice (b.order o).price = some p →
    (b.level p).price = (b.order o).price ∧ (b.level p).side = (b.order o).side

omit [DecidableEq K] [OrderKey I K] in
lemma OwnLevels.setQty (h : b.OwnLevels) (o : Nat) (qty : Qty) : (b.setQty o qty).OwnLevels := by
  intro q p hq hp
  have hused : b.orderPool.Used q := by simpa using hq
  rw [price_setQty] at hp ⊢
  rw [side_setQty]
  exact h q p hused hp

lemma Filed.removeOrder_own (h : b.Filed rings) (hown : b.OwnLevels) {o : Nat}
    (hrun : b.removeOrder o = .ok b') : b'.OwnLevels := by
  have hf := removeOrder_frame hrun
  intro q p hq hp
  obtain ⟨-, hside, hprice, -⟩ := BookOrder.unlinked_eq_iff.mp (hf.order q)
  rw [hprice] at hp ⊢
  obtain ⟨hold, hprice', hside'⟩ := h.removeOrder_level hrun hp
  rw [hside, hprice', hside']
  exact hown q p ((hf.used q).mp hq).2 hold

/-- A new order has its own price and side on the level of its slot just when this level had them,
or is new as well. -/
lemma Filed.addOrder_own_iff (h : b.Filed rings) (hown : b.OwnLevels) {obj : BookOrder I}
    {pool : MemPool (BookOrder I)} {o : Nat} (halloc : b.orderPool.allocate obj = .ok (pool, o))
    (hrun : (b.setOrderPool pool).addOrder o = .ok b') :
    b'.OwnLevels ↔ ∀ p, b.getOrdersAtPrice obj.price = some p →
      (b.level p).price = obj.price ∧ (b.level p).side = obj.side := by
  obtain ⟨n, hput, hfiling, hobj⟩ := h.addOrder_put halloc hrun
  have hf := addOrder_frame hrun
  have hself := BookOrder.unlinked_eq_iff.mp (hf.order o)
  rw [hobj] at hself
  have hslot : b'.getOrdersAtPrice obj.price = some n := by
    rw [getOrdersAtPrice, hput.prices, Function.update_self]
  constructor
  · intro hown' p hp
    rcases hput.origin with ⟨hnone, -⟩ | ⟨hsome, hsame⟩
    · cases hp.symm.trans hnone
    · obtain rfl : n = p := Option.some.inj (hsome.symm.trans hp)
      have hlevel := hown' o n ((hf.used o).mpr ((hfiling.orderUsed o).mpr (.inl rfl)))
        (by rw [hself.2.2.1]; exact hslot)
      rw [hsame, hself.2.1, hself.2.2.1] at hlevel
      exact hlevel
  · intro hcond q p hq hp
    have hdata := BookOrder.unlinked_eq_iff.mp (hf.order q)
    rw [hdata.2.2.1] at hp ⊢
    rw [hdata.2.1]
    rcases (hfiling.orderUsed q).mp ((hf.used q).mp hq) with rfl | hq
    · rw [hobj] at hp ⊢
      obtain rfl : n = p := Option.some.inj (hslot.symm.trans hp)
      rcases hput.origin with ⟨-, -, hside, hprice⟩ | ⟨hsome, hsame⟩
      · exact ⟨hprice.trans (by rw [hobj]), hside.trans (by rw [hobj])⟩
      · rw [hsame]
        exact hcond n hsome
    · have hqo : q ≠ o := fun he => hfiling.fresh (he ▸ hq)
      rw [hfiling.order q hqo] at hp ⊢
      have hp' : Function.update b.priceOrdersAtPrice (priceToIndex obj.price) (some n)
          (priceToIndex (b.order q).price) = some p := hput.prices ▸ hp
      rw [Function.update_apply] at hp'
      split at hp'
      · rename_i hindex
        obtain rfl := Option.some.inj hp'
        rcases hput.origin with ⟨hnone, -⟩ | ⟨hsome, hsame⟩
        · have hmem := (h.mem _ q).mpr ⟨hq, hindex⟩
          rw [(h.empty _).mp hnone] at hmem
          cases hmem
        · rw [hsame]
          exact hown q n hq (by rw [getOrdersAtPrice, hindex]; exact hsome)
      · rename_i hindex
        have hpn : p ≠ n := fun he => hindex (hput.slot_eq hfiling (he ▸ hp'))
        have hlevel := OrdersAtPrice.unlinked_eq_iff.mp (hput.data p hpn)
        rw [hlevel.1, hlevel.2.1]
        exact hown q p hq hp'

end Keys

end PriceBook
end LowLatencyExchange
