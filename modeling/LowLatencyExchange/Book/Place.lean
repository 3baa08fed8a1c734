import LowLatencyExchange.Book.Insert

/-!
# Placing an order

An order that was just allocated is in use but not linked. `addOrder` then links it, into
the ring of the level at its price or into a new level at the end of the ladder, and the
book is well-formed again.
-/

namespace LowLatencyExchange
open CircularList
namespace PriceBook
variable {I K : Type} {b : PriceBook I K} {s : Side} {o : Nat} [DecidableEq K] [OrderKey I K]
  {sh : Shape}

/-- Well-formed but for the order `o`, which is in use and stands in no level yet. -/
structure Pending (b : PriceBook I K) (sh : Shape) (o : Nat) : Prop where
  side : ∀ s : Side, s.Trading → b.SideOk s (sh.side s)
  levelsNodup : sh.levelPtrs.Nodup
  ordersNodup : sh.orders.Nodup
  levelPool : b.ordersAtPricePool.Sound
  orderPool : b.orderPool.Sound
  levelUsed : ∀ p, b.ordersAtPricePool.Used p ↔ p ∈ sh.levelPtrs
  orderUsed : ∀ q, b.orderPool.Used q ↔ q = o ∨ q ∈ sh.orders
  fresh : o ∉ sh.orders
  prices : ∀ i p, b.priceOrdersAtPrice i = some p ↔
    p ∈ sh.levelPtrs ∧ priceToIndex (b.level p).price = i
  keys : ∀ k q, b.orderTable k = some q ↔ q ∈ sh.orders ∧ OrderKey.key (b.order q).ids = k
  inTable : ∀ q ∈ sh.orders, OrderKey.inTable I (OrderKey.key (b.order q).ids) = true

/-- An order that may rest: its key is inside the table and not in use. -/
structure Placeable (b : PriceBook I K) (obj : BookOrder I) : Prop where
  keyIn : OrderKey.inTable I (OrderKey.key obj.ids) = true
  keyFree : b.orderTable (OrderKey.key obj.ids) = none

omit [DecidableEq K] in
/-- The order pool hands out a block that no order of the book holds. -/
lemma WellFormed.pending (h : b.WellFormed sh) {obj : BookOrder I} {pool : MemPool (BookOrder I)}
    (halloc : b.orderPool.allocate obj = .ok (pool, o)) :
    Pending (b.setOrderPool pool) sh o ∧ (b.setOrderPool pool).order o = obj ∧
      ∀ q, q ≠ o → (b.setOrderPool pool).order q = b.order q := by
  rcases MemPool.allocate_spec h.orderPool obj with ⟨-, herr⟩ | ⟨-, k, hok, hk, hkne, hkfree⟩
  · rw [herr] at halloc
    cases halloc
  · rw [hok] at halloc
    cases halloc
    have hfresh : b.orderPool.nextFreeIndex ∉ sh.orders :=
      fun hm => h.orderPool.next_free ((h.orderUsed _).mpr hm)
    have hne : ∀ q ∈ sh.orders, q ≠ b.orderPool.nextFreeIndex := fun q hq e => hfresh (e ▸ hq)
    generalize hb1 : b.setOrderPool
      { b.orderPool.take b.orderPool.nextFreeIndex obj with nextFreeIndex := k } = b1
    have horder : ∀ q, q ≠ b.orderPool.nextFreeIndex → b1.order q = b.order q := by
      intro q hq
      rw [← hb1]
      exact (MemPool.object_take b.orderPool _ q obj).trans (if_neg hq)
    have hlevel : ∀ q, b1.level q = b.level q := fun q => by simp [← hb1]
    refine ⟨⟨?_, h.levelsNodup, h.ordersNodup, ?_, ?_, ?_, ?_, hfresh, ?_, ?_, ?_⟩, ?_, horder⟩
    · intro s hs
      refine (h.side s hs).congr (by simp [← hb1]) (fun l _ => hlevel _) fun l hl q hq => ?_
      exact horder q (hne q (Shape.mem_orders_of_side hs hl hq))
    · simpa [← hb1] using h.levelPool
    · rw [← hb1]
      exact h.orderPool.allocated obj hk hkne hkfree
    · simpa [← hb1] using h.levelUsed
    · intro q
      rw [← hb1]
      change (b.orderPool.take b.orderPool.nextFreeIndex obj).Used q ↔ _
      rw [MemPool.used_take, h.orderUsed]
    · simpa [hlevel, ← hb1] using h.prices
    · intro k' q
      have htable : b1.orderTable = b.orderTable := by simp [← hb1]
      rw [htable, h.keys]
      exact and_congr_right fun hq => by rw [horder q (hne q hq)]
    · exact fun q hq => by rw [horder q (hne q hq)]; exact h.inTable q hq
    · rw [← hb1]
      exact (MemPool.object_take b.orderPool _ _ obj).trans (if_pos rfl)

/-- The key table after the order's key was entered. -/
lemma Pending.keys_addOrder (h : Pending b sh o) (hobj : Placeable b (b.order o)) {b' : PriceBook I K}
    (hf : AddFrame b o b') {sh' : Shape} (hperm : sh'.orders.Perm (o :: sh.orders)) :
    (∀ q, b'.orderPool.Used q ↔ q ∈ sh'.orders) ∧
    (∀ k q, b'.orderTable k = some q ↔ q ∈ sh'.orders ∧ OrderKey.key (b'.order q).ids = k) ∧
    (∀ q ∈ sh'.orders, OrderKey.inTable I (OrderKey.key (b'.order q).ids) = true) := by
  have hmem : ∀ q, q ∈ sh'.orders ↔ q = o ∨ q ∈ sh.orders := fun q => by simp [hperm.mem_iff]
  have hids : ∀ q, (b'.order q).ids = (b.order q).ids := fun q =>
    (BookOrder.unlinked_eq_iff.mp (hf.order q)).1
  refine ⟨fun q => ?_, fun k q => ?_, fun q hq => ?_⟩
  · rw [hf.used, h.orderUsed, hmem]
  · rw [hf.table, hids, Function.update_apply, hmem]
    by_cases hk : k = OrderKey.key (b.order o).ids
    · rw [if_pos hk, hk]
      constructor
      · rintro hq
        have hoq : o = q := by simpa using hq
        exact ⟨Or.inl hoq.symm, by rw [hoq]⟩
      · rintro ⟨rfl | hq, hkey⟩
        · rfl
        · have hq' := (h.keys _ q).mpr ⟨hq, hkey⟩
          rw [hobj.keyFree] at hq'
          cases hq'
    · rw [if_neg hk, h.keys]
      constructor
      · exact fun hq => ⟨Or.inr hq.1, hq.2⟩
      · rintro ⟨rfl | hq, hkey⟩
        · exact absurd hkey.symm hk
        · exact ⟨hq, hkey⟩
  · rw [hids]
    rcases (hmem q).mp hq with rfl | hq
    · exact hobj.keyIn
    · exact h.inTable q hq

/-- The writes that put order `o` between the last order `y` and the first order `x`. -/
def appendOrder (b : PriceBook I K) (o x y : Nat) : PriceBook I K :=
  (((b.setNextOrder y (some o)).setPrevOrder o (some y)).setNextOrder o (some x)).setPrevOrder x (some o)

omit [DecidableEq K] [OrderKey I K] in
lemma linkOrder_join {p x y : Nat} (hget : b.getOrdersAtPrice (b.order o).price = some p)
    (hfirst : (b.level p).firstOrder = some x) (hlast : (b.order x).prevOrder = some y) :
    b.linkOrder o = .ok (b.appendOrder o x y) := by
  simp [linkOrder, hget, hfirst, hlast, appendOrder]

omit [DecidableEq K] [OrderKey I K] in
/-- The level with the order behind its others. -/
lemma LevelOk.appendOrder {p x y : Nat} {os : List Nat} (h : b.LevelOk s ⟨p, os⟩) (hnodup : os.Nodup) (hfresh : o ∉ os)
    (hside : (b.order o).side = s) (hprice : (b.level p).price = (b.order o).price) (hfirst : os.head? = some x)
    (hlast : (b.order x).prevOrder = some y) : (b.appendOrder o x y).LevelOk s ⟨p, os ++ [o]⟩ := by
  obtain ⟨t, rfl⟩ := List.head?_eq_some_iff.mp hfirst
  have hxo : x ≠ o := fun e => hfresh (e ▸ List.mem_cons_self)
  have hlevel : ∀ q, (b.appendOrder o x y).level q = b.level q := fun q => by simp [PriceBook.appendOrder]
  have hnext : ∀ q, ((b.appendOrder o x y).order q).nextOrder =
      if q = o then some x else if q = y then some o else (b.order q).nextOrder := fun q => by
    simp [PriceBook.appendOrder]
  have hprev : ∀ q, ((b.appendOrder o x y).order q).prevOrder =
      if q = x then some o else if q = o then some y else (b.order q).prevOrder := fun q => by
    simp [PriceBook.appendOrder]
  have hsame : ∀ q, ((b.appendOrder o x y).order q).side = (b.order q).side ∧
      ((b.appendOrder o x y).order q).price = (b.order q).price := fun q => by
    simp [PriceBook.appendOrder]
  have hne : ∀ q ∈ x :: t, q ≠ o := fun q hq e => hfresh (e ▸ hq)
  have hyo : y ≠ o := by
    obtain ⟨z, hz, hj⟩ := h.ring.exists_prev (a := x) List.mem_cons_self
    rintro rfl
    exact hne z hz (Option.some.inj (hj.2.symm.trans hlast))
  refine ⟨?_, ?_, by simp, ?_, ?_, ?_⟩
  · rw [hlevel]
    exact h.side
  · rw [hlevel, h.first]
    rfl
  · apply h.ring.concat hnodup hlast
    · exact fun q hq hqy => by simp [hnext, hqy, hne q hq]
    · exact fun q hq hqx => by simp [hprev, hqx, hne q hq]
    · exact ⟨by simp [hnext, hyo], by simp [hprev, hxo.symm]⟩
    · exact ⟨by simp [hnext], by simp [hprev]⟩
  · intro q hq
    rw [(hsame q).1]
    rcases List.mem_append.mp hq with hq | hq
    · exact h.orderSide q hq
    · rw [List.mem_singleton.mp hq]
      exact hside
  · intro q hq
    rw [(hsame q).2, hlevel]
    rcases List.mem_append.mp hq with hq | hq
    · exact h.orderPrice q hq
    · rw [List.mem_singleton.mp hq]
      exact hprice.symm

/-- The order joins the level at its price, behind all others. -/
theorem addOrder_joins (h : Pending b sh o) (hobj : Placeable b (b.order o)) (hs : s.Trading)
    (hside : (b.order o).side = s) {pre post : List LevelShape} {p : Nat} {os : List Nat}
    (hlevel : sh.side s = pre ++ ⟨p, os⟩ :: post) (hprice : (b.level p).price = (b.order o).price) :
    ∃ b', b.addOrder o = .ok b' ∧
      b'.WellFormed (sh.setSide s (pre ++ ⟨p, os ++ [o]⟩ :: post)) := by
  have hmem : (⟨p, os⟩ : LevelShape) ∈ sh.side s := by simp [hlevel]
  have hok := (h.side s hs).level _ hmem
  have hpmem : p ∈ sh.levelPtrs := Shape.mem_levelPtrs_of_side hs hmem
  have hget : b.getOrdersAtPrice (b.order o).price = some p := (h.prices _ p).mpr ⟨hpmem, by rw [hprice]⟩
  have hosub : ∀ q ∈ os, q ∈ sh.orders := fun q hq => Shape.mem_orders_of_side hs hmem hq
  have hne : ∀ q ∈ sh.orders, q ≠ o := fun q hq e => h.fresh (e ▸ hq)
  have hnd := (Shape.orders_perm hs sh).nodup_iff.mp h.ordersNodup
  have hosnd : os.Nodup := by
    have hd := (List.nodup_append.mp hnd).1
    rw [hlevel, List.flatMap_append, List.flatMap_cons] at hd
    exact (List.nodup_append.mp (List.nodup_append.mp hd).2.1).1
  obtain ⟨x, t, hxt⟩ : ∃ x t, os = x :: t := List.exists_cons_of_ne_nil hok.nonempty
  have hxmem : x ∈ os := by simp [hxt]
  obtain ⟨y, hymem, hj⟩ := hok.ring.exists_prev hxmem
  have hlink := linkOrder_join hget (by rw [hok.first]; simp [hxt]) hj.2
  have hrun : b.addOrder o = .ok ((b.appendOrder o x y).setKey (OrderKey.key (b.order o).ids) (some o)) := by
    have hids := (linkOrder_frame hlink).ids o
    simp [addOrder, hlink, setOrderTable, hids, hobj.keyIn]
  refine ⟨_, hrun, ?_⟩
  have hf := addOrder_frame hrun
  have hperm : (sh.setSide s (pre ++ ⟨p, os ++ [o]⟩ :: post)).orders.Perm (o :: sh.orders) := by
    refine (Shape.orders_setSide_perm hs sh _).trans (.trans ?_ ((Shape.orders_perm hs sh).symm.cons o))
    rw [hlevel, List.perm_iff_count]
    intro a
    simp [List.count_cons]
    omega
  have hptrs : (sh.setSide s (pre ++ ⟨p, os ++ [o]⟩ :: post)).levelPtrs.Perm sh.levelPtrs := by
    refine (Shape.levelPtrs_setSide_perm hs sh _).trans (.trans ?_ (Shape.levelPtrs_perm hs sh).symm)
    simp [hlevel]
  obtain ⟨hused, hkeys, hin⟩ := h.keys_addOrder hobj hf hperm
  generalize hb' : (b.appendOrder o x y).setKey (OrderKey.key (b.order o).ids) (some o) = b'
    at hused hkeys hin ⊢
  have hlvl : ∀ q, b'.level q = b.level q := fun q => by simp [← hb', appendOrder]
  have haway : ∀ q, q ∉ os → q ≠ o → b'.order q = b.order q := by
    intro q hq hqo
    have hqx : q ≠ x := fun e => hq (e ▸ hxmem)
    have hqy : q ≠ y := fun e => hq (e ▸ hymem)
    simp [← hb', appendOrder, order_modifyOrder, hqx, hqy, hqo]
  have hother : ∀ t : Side, t.Trading → ∀ l' ∈ sh.side t, l'.ptr ≠ p → ∀ q ∈ l'.orders,
      b'.order q = b.order q := by
    intro t ht l' hl' hlp q hq
    refine haway q (fun hq' => hlp ?_) (hne q (Shape.mem_orders_of_side ht hl' hq))
    have h1 := ((h.side t ht).level l' hl').orderPrice q hq
    have h2 := hok.orderPrice q hq'
    have hl1 := (h.prices _ l'.ptr).mpr ⟨Shape.mem_levelPtrs_of_side ht hl', rfl⟩
    have hl2 := (h.prices _ p).mpr ⟨hpmem, rfl⟩
    rw [← h1, h2] at hl1
    simpa using hl1.symm.trans hl2
  have hptrs' : (pre ++ (⟨p, os ++ [o]⟩ : LevelShape) :: post).map LevelShape.ptr =
      (sh.side s).map LevelShape.ptr := by simp [hlevel]
  have hlnd := (Shape.levelPtrs_perm hs sh).nodup_iff.mp h.levelsNodup
  have hptrNe : ∀ l' ∈ pre ++ post, l'.ptr ≠ p := by
    have hd := (List.nodup_append.mp hlnd).1
    simp only [hlevel, List.map_append, List.map_cons] at hd
    intro l' hl' e
    apply (List.nodup_middle.mp hd).notMem
    rw [← e, ← List.map_append]
    exact List.mem_map_of_mem hl'
  constructor
  · intro t ht
    rcases hs.eq_or_opposite ht with rfl | rfl
    · rw [Shape.side_setSide_self]
      refine ⟨?_, ?_, ?_, ?_⟩
      · rw [hptrs']
        simpa [hlvl] using (h.side t ht).ring
      · rw [hptrs', ← (h.side t ht).top]
        simp [← hb', appendOrder]
      · rw [hptrs']
        simpa [hlvl] using (h.side t ht).sorted
      · intro l' hl'
        by_cases hlp : l' ∈ pre ++ post
        · have hl'' : l' ∈ sh.side t := by rw [hlevel]; simp at hlp ⊢; tauto
          exact ((h.side t ht).level l' hl'').congr (by rw [hlvl])
            (hother t ht l' hl'' (hptrNe l' hlp))
        · have hl'' : l' = ⟨p, os ++ [o]⟩ := by simp at hl' hlp; tauto
          have hfresh : o ∉ os := fun ho => h.fresh (hosub o ho)
          have hlevelOk := hok.appendOrder hosnd hfresh hside hprice (by simp [hxt]) hj.2
          rw [hl'', ← hb']
          exact hlevelOk.congr (by rw [level_setKey]) fun q _ => by rw [order_setKey]
    · have hne' := hs.opposite_ne
      rw [Shape.side_setSide_of_ne hs ht hne']
      refine (h.side _ ht).congr (by simp [← hb', appendOrder]) (fun l' _ => hlvl _) fun l' hl' => ?_
      have hptr : l'.ptr ≠ p := by
        have hd := (List.nodup_append.mp hlnd).2.2
        exact fun e => hd p (List.mem_map_of_mem hmem) _ (List.mem_map_of_mem hl') e.symm
      exact hother _ ht l' hl' hptr
  · exact hptrs.nodup_iff.mpr h.levelsNodup
  · exact hperm.nodup_iff.mpr (List.nodup_cons.mpr ⟨h.fresh, h.ordersNodup⟩)
  · simpa [← hb', appendOrder] using h.levelPool
  · simpa [← hb', appendOrder] using h.orderPool
  · intro q
    rw [hptrs.mem_iff, ← h.levelUsed]
    simp [← hb', appendOrder]
  · exact hused
  · intro i q
    rw [hptrs.mem_iff, hlvl, ← h.prices]
    simp [← hb', appendOrder]
  · exact hkeys
  · exact hin

/-- The book between the allocation of a level for order `o` and its insertion. -/
structure Opened (b : PriceBook I K) (o n : Nat) (b' : PriceBook I K) : Prop where
  level : b'.level n = ⟨(b.order o).side, (b.order o).price, some o, none, none⟩
  otherLevel : ∀ q, q ≠ n → b'.level q = b.level q
  order : ∀ q, b'.order q =
    if q = o then { b.order o with prevOrder := some o, nextOrder := some o } else b.order q
  top : ∀ t, b'.top t = b.top t
  prices : b'.priceOrdersAtPrice = b.priceOrdersAtPrice
  used : ∀ q, b'.ordersAtPricePool.Used q ↔ q = n ∨ b.ordersAtPricePool.Used q
  wasFree : ¬b.ordersAtPricePool.Used n
  size : b'.ordersAtPricePool.size = b.ordersAtPricePool.size
  sound : b'.ordersAtPricePool.Sound
  orderSound : b.orderPool.Sound → b'.orderPool.Sound

omit [DecidableEq K] [OrderKey I K] in
/-- An order without a level gets one, unless the level pool is out of space. -/
lemma linkOrder_open (hpool : b.ordersAtPricePool.Sound)
    (hget : b.getOrdersAtPrice (b.order o).price = none) :
    (¬b.ordersAtPricePool.HasRoom ∧ b.linkOrder o = .error MemPool.outOfSpace) ∨
    (b.ordersAtPricePool.HasRoom ∧
      ∃ n b', Opened b o n b' ∧ b.linkOrder o = b'.addOrdersAtPrice n) := by
  let fresh : OrdersAtPrice := ⟨(b.order o).side, (b.order o).price, some o, none, none⟩
  rcases MemPool.allocate_spec hpool fresh with ⟨hroom, herr⟩ | ⟨hroom, k, hok, hk, hkne, hkfree⟩
  · left
    refine ⟨hroom, ?_⟩
    simp [linkOrder, hget, fresh] at herr ⊢
    simp [herr]
  · right
    refine ⟨hroom, b.ordersAtPricePool.nextFreeIndex, ((b.setPrevOrder o (some o)).setNextOrder o
      (some o)).setLevelPool { b.ordersAtPricePool.take b.ordersAtPricePool.nextFreeIndex fresh with
        nextFreeIndex := k }, ?_, ?_⟩
    · refine ⟨?_, ?_, ?_, ?_, ?_, ?_, ?_, ?_, ?_, ?_⟩
      · exact (MemPool.object_take b.ordersAtPricePool _ _ _).trans (if_pos rfl)
      · exact fun q hq => (MemPool.object_take b.ordersAtPricePool _ q _).trans (if_neg hq)
      · intro q
        rw [order_setLevelPool, order_modifyOrder, order_modifyOrder]
        by_cases hq : q = o <;> simp [hq]
      · simp
      · simp
      · exact fun q => MemPool.used_take b.ordersAtPricePool _ q _
      · exact hpool.next_free
      · rfl
      · exact hpool.allocated _ hk hkne hkfree
      · intro h
        simpa using h
    · simp only [fresh] at hok ⊢
      simp [linkOrder, hget, hok]

omit [DecidableEq K] in
/-- The ladder of an opened level's side is ready for the insertion. -/
lemma Pending.ladderReady (h : Pending b sh o) (hs : s.Trading) (hside : (b.order o).side = s) {n : Nat}
    {b' : PriceBook I K} (hopen : Opened b o n b') :
    b'.LadderReady s ((sh.side s).map LevelShape.ptr) n := by
  have hfresh : n ∉ sh.levelPtrs := fun hm => hopen.wasFree ((h.levelUsed n).mpr hm)
  have hmem : ∀ q ∈ (sh.side s).map LevelShape.ptr, q ∈ sh.levelPtrs := by
    intro q hq
    obtain ⟨l, hl, rfl⟩ := List.mem_map.mp hq
    exact Shape.mem_levelPtrs_of_side hs hl
  have hnd := (List.nodup_append.mp ((Shape.levelPtrs_perm hs sh).nodup_iff.mp h.levelsNodup)).1
  have hsame : ∀ q ∈ (sh.side s).map LevelShape.ptr, b'.level q = b.level q := fun q hq =>
    hopen.otherLevel q fun e => hfresh (e ▸ hmem q hq)
  refine ⟨?_, ?_, ?_, hnd, fun hn => hfresh (hmem n hn), ?_⟩
  · rw [hopen.level, hside]
  · exact (h.side s hs).ring.congr (fun q hq => by rw [hsame q hq]) (fun q hq => by rw [hsame q hq])
  · rw [hopen.top, (h.side s hs).top]
  · rw [hopen.size]
    exact length_le_of_nodup_of_lt hnd fun q hq =>
      h.levelPool.used_lt q ((h.levelUsed q).mpr (hmem q hq))

/-- `addOrder` returns whatever the price of the order, unless the level pool is out of space. -/
theorem addOrder_returns (h : Pending b sh o) (hs : (b.order o).side.Trading)
    (hkey : OrderKey.inTable I (OrderKey.key (b.order o).ids) = true) :
    (b.addOrder o = .error MemPool.outOfSpace ∧ ¬b.ordersAtPricePool.HasRoom) ∨
      ∃ b', b.addOrder o = .ok b' := by
  have hlast : ∀ b1, b.linkOrder o = .ok b1 → ∃ b', b.addOrder o = .ok b' := by
    intro b1 hb1
    refine ⟨b1.setKey (OrderKey.key (b.order o).ids) (some o), ?_⟩
    simp [addOrder, hb1, setOrderTable, (linkOrder_frame hb1).ids, hkey]
  cases hget : b.getOrdersAtPrice (b.order o).price with
  | none =>
    rcases linkOrder_open h.levelPool hget with ⟨hroom, herr⟩ | ⟨-, n, b1, hopen, hlink⟩
    · left
      exact ⟨by simp [addOrder, herr], hroom⟩
    · right
      obtain ⟨b2, hb2⟩ := addOrdersAtPrice_returns (h.ladderReady hs rfl hopen)
      exact hlast b2 (hlink.trans hb2)
  | some p =>
    right
    have hp := ((h.prices _ p).mp hget).1
    obtain ⟨l, hl, rfl⟩ := List.mem_map.mp hp
    obtain ⟨t, ht, hl⟩ := Shape.mem_levels.mp hl
    have hok := (h.side t ht).level l hl
    obtain ⟨x, os, hxt⟩ := List.exists_cons_of_ne_nil hok.nonempty
    obtain ⟨y, -, hj⟩ := hok.ring.exists_prev (a := x) (by simp [hxt])
    exact hlast _ (linkOrder_join hget (by rw [hok.first]; simp [hxt]) hj.2)

omit [DecidableEq K] [OrderKey I K] in
/-- A level with a single order at the end of a side. -/
lemma SideOk.concat {ls : List LevelShape} {n : Nat} {b' : PriceBook I K} (h : b.SideOk s ls)
    (hring : Ring (fun p => (b'.level p).nextEntry) (fun p => (b'.level p).prevEntry) (ls.map LevelShape.ptr ++ [n]))
    (htop : b'.top s = (ls.map LevelShape.ptr ++ [n]).head?)
    (hlevel : ∀ l ∈ ls, (b'.level l.ptr).unlinked = (b.level l.ptr).unlinked)
    (horder : ∀ l ∈ ls, ∀ q ∈ l.orders, b'.order q = b.order q) (hnew : b'.LevelOk s ⟨n, [o]⟩)
    (hworst : ∀ q ∈ ls.map LevelShape.ptr, addAfter s (b'.level n).price (b.level q).price) :
    b'.SideOk s (ls ++ [⟨n, [o]⟩]) := by
  have hptrs : (ls ++ [(⟨n, [o]⟩ : LevelShape)]).map LevelShape.ptr = ls.map LevelShape.ptr ++ [n] := by simp
  have hprice : ∀ q ∈ ls.map LevelShape.ptr, (b'.level q).price = (b.level q).price := by
    intro q hq
    obtain ⟨l, hl, rfl⟩ := List.mem_map.mp hq
    exact (OrdersAtPrice.unlinked_eq_iff.mp (hlevel l hl)).2.1
  refine ⟨by rwa [hptrs], by rwa [hptrs], ?_, ?_⟩
  · rw [hptrs, List.pairwise_append]
    refine ⟨?_, by simp, ?_⟩
    · refine h.sorted.imp_of_mem fun {p q} hp hq hpq => ?_
      rwa [hprice p hp, hprice q hq]
    · intro p hp q hq
      rw [List.mem_singleton.mp hq, hprice p hp]
      exact hworst p hp
  · intro l hl
    rcases List.mem_append.mp hl with hl | hl
    · exact (h.level l hl).congr (hlevel l hl) (horder l hl)
    · rwa [List.mem_singleton.mp hl]

omit [DecidableEq K] in
/-- The price table with a new level in the slot of its price. -/
lemma Pending.prices_opened (h : Pending b sh o) {price : Price} (hget : b.getOrdersAtPrice price = none) {n : Nat}
    {b' : PriceBook I K} (hprices : b'.priceOrdersAtPrice =
      Function.update b.priceOrdersAtPrice (priceToIndex price) (some n))
    (hnew : (b'.level n).price = price) (hprice : ∀ q ∈ sh.levelPtrs, (b'.level q).price = (b.level q).price)
    (i q : Nat) : b'.priceOrdersAtPrice i = some q ↔
      (q = n ∨ q ∈ sh.levelPtrs) ∧ priceToIndex (b'.level q).price = i := by
  rw [hprices, Function.update_apply]
  by_cases hi : i = priceToIndex price
  · rw [if_pos hi]
    constructor
    · intro hq
      have hnq : n = q := by simpa using hq
      exact ⟨Or.inl hnq.symm, by rw [← hnq, hnew, hi]⟩
    · rintro ⟨rfl | hq, hqi⟩
      · rfl
      · rw [hprice q hq, hi] at hqi
        have hslot := (h.prices _ q).mpr ⟨hq, hqi⟩
        cases hslot.symm.trans hget
  · rw [if_neg hi, h.prices]
    constructor
    · exact fun hq => ⟨Or.inr hq.1, by rw [hprice q hq.1]; exact hq.2⟩
    · rintro ⟨rfl | hq, hqi⟩
      · exact absurd (by rw [← hqi, hnew]) hi
      · exact ⟨hq, by rw [← hprice q hq]; exact hqi⟩

/-- The order opens a level at the end of its ladder. -/
theorem addOrder_opens (h : Pending b sh o) (hobj : Placeable b (b.order o)) (hs : s.Trading)
    (hside : (b.order o).side = s) (hget : b.getOrdersAtPrice (b.order o).price = none)
    (hworst : ∀ q ∈ (sh.side s).map LevelShape.ptr, addAfter s (b.order o).price (b.level q).price)
    {b' : PriceBook I K} (hrun : b.addOrder o = .ok b') :
    ∃ n, b'.WellFormed (sh.setSide s (sh.side s ++ [⟨n, [o]⟩])) := by
  obtain ⟨b3, hlink, hb'⟩ := addOrder_ok hrun
  have hf := addOrder_frame hrun
  rcases linkOrder_open h.levelPool hget with ⟨-, herr⟩ | ⟨-, n, b1, hopen, hopenRun⟩
  · rw [herr] at hlink
    cases hlink
  · refine ⟨n, ?_⟩
    have hready := h.ladderReady hs hside hopen
    have hfresh : n ∉ sh.levelPtrs := fun hm => hopen.wasFree ((h.levelUsed n).mpr hm)
    have hne : ∀ q ∈ sh.levelPtrs, q ≠ n := fun q hq e => hfresh (e ▸ hq)
    have hmem : ∀ q ∈ (sh.side s).map LevelShape.ptr, q ∈ sh.levelPtrs := by
      intro q hq
      obtain ⟨l, hl, rfl⟩ := List.mem_map.mp hq
      exact Shape.mem_levelPtrs_of_side hs hl
    obtain ⟨b2, hb2, hu⟩ := addOrdersAtPrice_worst hs hready (fun q hq => by
      rw [hopen.level, hopen.otherLevel q (hne q (hmem q hq))]
      exact hworst q hq)
    have hb3 : b3 = b2 := by
      rw [hopenRun, hb2] at hlink
      cases hlink
      rfl
    subst hb3
    have hheap := addOrdersAtPrice_frame hb2
    have hperm : (sh.setSide s (sh.side s ++ [⟨n, [o]⟩])).orders.Perm (o :: sh.orders) := by
      refine (Shape.orders_setSide_perm hs sh _).trans (.trans ?_ ((Shape.orders_perm hs sh).symm.cons o))
      rw [List.perm_iff_count]
      intro a
      simp [List.count_cons]
      omega
    have hptrs : (sh.setSide s (sh.side s ++ [⟨n, [o]⟩])).levelPtrs.Perm (n :: sh.levelPtrs) := by
      refine (Shape.levelPtrs_setSide_perm hs sh _).trans
        (.trans ?_ ((Shape.levelPtrs_perm hs sh).symm.cons n))
      rw [List.perm_iff_count]
      intro a
      simp [List.count_cons]
      omega
    obtain ⟨hused, hkeys, hin⟩ := h.keys_addOrder hobj hf hperm
    have hlvl : ∀ q, b'.level q = b3.level q := fun q => by simp [hb']
    have hord : ∀ q, b'.order q = b1.order q := fun q => by simp [hb', order, hheap.1]
    have hordOther : ∀ q ∈ sh.orders, b'.order q = b.order q := by
      intro q hq
      have hqo : q ≠ o := fun e => h.fresh (e ▸ hq)
      rw [hord, hopen.order, if_neg hqo]
    have hordSelf : b'.order o = { b.order o with prevOrder := some o, nextOrder := some o } := by
      rw [hord, hopen.order, if_pos rfl]
    have hdata : ∀ q ∈ sh.levelPtrs, (b'.level q).unlinked = (b.level q).unlinked := by
      intro q hq
      rw [hlvl, hu.data, hopen.otherLevel q (hne q hq)]
    have hdataSelf := OrdersAtPrice.unlinked_eq_iff.mp (hu.data n)
    rw [hopen.level] at hdataSelf
    have htop : ∀ t, b'.top t = b3.top t := fun t => by simp [hb']
    have hprice : ∀ q ∈ sh.levelPtrs, (b'.level q).price = (b.level q).price := fun q hq =>
      (OrdersAtPrice.unlinked_eq_iff.mp (hdata q hq)).2.1
    have hpriceSelf : (b'.level n).price = (b.order o).price := by
      rw [hlvl]
      exact hdataSelf.2.1
    constructor
    · intro t ht
      rcases hs.eq_or_opposite ht with rfl | rfl
      · rw [Shape.side_setSide_self]
        have hnew : b'.LevelOk t ⟨n, [o]⟩ := by
          refine ⟨?_, ?_, by simp, by simp [hordSelf], by simpa [hordSelf] using hside, by simp [hordSelf, hpriceSelf]⟩
          · rw [hlvl, hdataSelf.1, hside]
          · rw [hlvl, hdataSelf.2.2]
            rfl
        apply (h.side t ht).concat
        · simpa [hlvl] using hu.ring
        · rw [htop]
          exact hu.top
        · exact fun l hl => hdata _ (Shape.mem_levelPtrs_of_side ht hl)
        · exact fun l hl q hq => hordOther q (Shape.mem_orders_of_side ht hl hq)
        · exact hnew
        · rwa [hpriceSelf]
      · have hne' := hs.opposite_ne
        rw [Shape.side_setSide_of_ne hs ht hne']
        refine (h.side _ ht).congr ?_ (fun l hl => ?_) fun l hl q hq =>
          hordOther q (Shape.mem_orders_of_side ht hl hq)
        · rw [htop, hu.otherTop _ ht hne', hopen.top]
        · have hlmem := Shape.mem_levelPtrs_of_side ht hl
          rw [hlvl, hu.away, hopen.otherLevel _ (hne _ hlmem)]
          intro hin'
          rcases List.mem_append.mp hin' with hin' | hin'
          · have hd := (List.nodup_append.mp ((Shape.levelPtrs_perm hs sh).nodup_iff.mp h.levelsNodup)).2.2
            exact hd _ hin' _ (List.mem_map_of_mem hl) rfl
          · exact hne _ hlmem (by simpa using hin')
    · exact hptrs.nodup_iff.mpr (List.nodup_cons.mpr ⟨hfresh, h.levelsNodup⟩)
    · exact hperm.nodup_iff.mpr (List.nodup_cons.mpr ⟨h.fresh, h.ordersNodup⟩)
    · simpa [hb'] using hu.sound hopen.sound
    · simpa [hb', hheap.1] using hopen.orderSound h.orderPool
    · intro q
      have hq : b'.ordersAtPricePool.Used q ↔ b3.ordersAtPricePool.Used q := by simp [hb']
      rw [hq, hu.used, hopen.used, h.levelUsed, hptrs.mem_iff, List.mem_cons]
    · exact hused
    · intro i q
      have hprices : b'.priceOrdersAtPrice =
          Function.update b.priceOrdersAtPrice (priceToIndex (b.order o).price) (some n) := by
        simp [hb', hu.prices, hopen.prices, hopen.level]
      rw [h.prices_opened hget hprices hpriceSelf hprice, hptrs.mem_iff, List.mem_cons]
    · exact hkeys
    · exact hin

end PriceBook
end LowLatencyExchange
