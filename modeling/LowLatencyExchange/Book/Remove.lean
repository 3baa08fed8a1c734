import LowLatencyExchange.Book.Frames

/-!
# Removal from a well-formed book

`removeOrder` on an order of a well-formed book returns, and leaves the book well-formed
with that order taken out of its ring. A level whose only order leaves is taken out of its
ladder, wherever it stands, and the top moves on when it was the top.
-/

namespace LowLatencyExchange
open CircularList
namespace PriceBook
variable {I K : Type} {b : PriceBook I K} {s : Side}

/-- The ladder after the splice that takes level `p` out. -/
structure LevelUnlinked (b : PriceBook I K) (s : Side) (rest : List Nat) (p : Nat)
    (b' : PriceBook I K) : Prop where
  ring : Ring (fun q => (b'.level q).nextEntry) (fun q => (b'.level q).prevEntry) rest
  top : b'.top s = rest.head?
  otherTop : ∀ t : Side, t.Trading → t ≠ s → b'.top t = b.top t
  data : ∀ q, (b'.level q).unlinked = (b.level q).unlinked
  away : ∀ q ∉ p :: rest, b'.level q = b.level q
  prices : b'.priceOrdersAtPrice = b.priceOrdersAtPrice
  used : ∀ q, b'.ordersAtPricePool.Used q ↔ b.ordersAtPricePool.Used q
  sound : b.ordersAtPricePool.Sound → b'.ordersAtPricePool.Sound

/-- The writes that join the neighbours `x` and `y` of level `p`. -/
def spliceLevel (b : PriceBook I K) (s : Side) (x p y : Nat) : PriceBook I K :=
  let joined := (b.setNextEntry x (some y)).setPrevEntry y (some x)
  let moved := if some p = b.top s then joined.setTop s (some y) else joined
  (moved.setPrevEntry p none).setNextEntry p none

lemma nextEntry_spliceLevel (b : PriceBook I K) (s : Side) {x p y q : Nat} (hq : q ≠ p) :
    ((b.spliceLevel s x p y).level q).nextEntry = if q = x then some y else (b.level q).nextEntry := by
  simp only [spliceLevel]; split <;> simp [hq]

lemma prevEntry_spliceLevel (b : PriceBook I K) (s : Side) {x p y q : Nat} (hq : q ≠ p) :
    ((b.spliceLevel s x p y).level q).prevEntry = if q = y then some x else (b.level q).prevEntry := by
  simp only [spliceLevel]; split <;> simp [hq]

lemma top_spliceLevel (b : PriceBook I K) (s : Side) (x p y : Nat) :
    (b.spliceLevel s x p y).top s = if some p = b.top s then some y else b.top s := by
  simp only [spliceLevel]; split <;> simp

theorem unlinkOrdersAtPrice_spec (hs : s.Trading) {l m : List Nat} {p : Nat}
    (hring : Ring (fun q => (b.level q).nextEntry) (fun q => (b.level q).prevEntry) (l ++ p :: m))
    (hd : (l ++ p :: m).Nodup) (htop : b.top s = (l ++ p :: m).head?) :
    ∃ b', b.unlinkOrdersAtPrice s p = .ok b' ∧ LevelUnlinked b s (l ++ m) p b' := by
  have hself := hring.next_self_iff hd
  by_cases halone : l = [] ∧ m = []
  · obtain ⟨rfl, rfl⟩ := halone
    have hnext : (b.level p).nextEntry = some p := hself.mpr ⟨rfl, rfl⟩
    refine ⟨b.setTop s none, by simp [unlinkOrdersAtPrice, hnext], ⟨?_, ?_, ?_, ?_, ?_, ?_, ?_, ?_⟩⟩
    · simp
    · simp
    · exact fun t ht hts => otherTop_setTop b none hs ht hts
    all_goals simp
  · obtain ⟨x, hx, hxp⟩ := hring.exists_prev (a := p) (by simp)
    obtain ⟨y, hy, hpy⟩ := hring.exists_next (a := p) (by simp)
    have hnext : (b.level p).nextEntry ≠ some p := fun e => halone (hself.mp e)
    have hyp : y ≠ p := fun e => hnext (e ▸ hpy.1)
    have hpx : p ≠ x := fun e => hnext (by have := hxp.1; rwa [← e] at this)
    have hpn : (b.level p).nextEntry = some y := hpy.1
    have hpp : (b.level p).prevEntry = some x := hxp.2
    have hrun : b.unlinkOrdersAtPrice s p = .ok (b.spliceLevel s x p y) := by
      have hsome : ¬some y = some p := by simpa using hyp
      simp [unlinkOrdersAtPrice, spliceLevel, hpp, hpn, hsome]
    have hne : ∀ q ∈ l ++ m, q ≠ p := by
      rintro q hq rfl
      exact (List.nodup_middle.mp hd).notMem hq
    refine ⟨_, hrun, ⟨?_, ?_, ?_, ?_, ?_, ?_, ?_, ?_⟩⟩
    · refine hring.erase hd halone hpp hpn ?_ ?_ ⟨?_, ?_⟩
      · exact fun q hq hqx => by rw [nextEntry_spliceLevel b s (hne q hq), if_neg hqx]
      · exact fun q hq hqy => by rw [prevEntry_spliceLevel b s (hne q hq), if_neg hqy]
      · exact (nextEntry_spliceLevel b s (Ne.symm hpx)).trans (if_pos rfl)
      · exact (prevEntry_spliceLevel b s hyp).trans (if_pos rfl)
    · rw [top_spliceLevel, htop]
      cases l with
      | nil =>
        cases m with
        | nil => simp at halone
        | cons z m =>
          have hz : some y = some z := hpn.symm.trans (Ring.joined (l := []) hring).1
          simpa using hz
      | cons z l =>
        have hz : p ≠ z := (hne z (by simp)).symm
        simp [hz]
    · intro t ht hts
      simp only [spliceLevel]
      split <;> simp [otherTop_setTop _ _ hs ht hts]
    · intro q
      simp only [spliceLevel]
      split <;> simp [OrdersAtPrice.unlinked]
    · intro q hq
      have hqx : q ≠ x := fun e => hq (by simp at hx ⊢; grind)
      have hqy : q ≠ y := fun e => hq (by simp at hy ⊢; grind)
      have hqp : q ≠ p := fun e => hq (by simp [e])
      simp only [spliceLevel]
      split <;> simp [level_modifyLevel, hqx, hqy, hqp]
    · simp only [spliceLevel]
      split <;> simp
    · intro q
      simp only [spliceLevel]
      split <;> simp
    · intro hsound
      simp only [spliceLevel]
      split <;> simpa using hsound

/-- The order heap after the splice that takes order `o` out of the ring of level `p`. -/
structure OrderUnlinked (b : PriceBook I K) (p : Nat) (rest : List Nat) (o : Nat)
    (b' : PriceBook I K) : Prop where
  ring : Ring (fun q => (b'.order q).nextOrder) (fun q => (b'.order q).prevOrder) rest
  level : ∀ q, b'.level q = if q = p then { b.level q with firstOrder := rest.head? } else b.level q
  away : ∀ q ∉ o :: rest, b'.order q = b.order q
  top : ∀ t, b'.top t = b.top t
  prices : b'.priceOrdersAtPrice = b.priceOrdersAtPrice
  used : ∀ q, b'.ordersAtPricePool.Used q ↔ b.ordersAtPricePool.Used q
  sound : b.ordersAtPricePool.Sound → b'.ordersAtPricePool.Sound
  orderSound : b.orderPool.Sound → b'.orderPool.Sound

/-- The writes that join the neighbours `x` and `y` of order `o` in level `p`. -/
def spliceOrder (b : PriceBook I K) (p x o y : Nat) : PriceBook I K :=
  let joined := (b.setNextOrder x (some y)).setPrevOrder y (some x)
  let moved := if (b.level p).firstOrder = some o then joined.setFirstOrder p (some y) else joined
  (moved.setPrevOrder o none).setNextOrder o none

lemma nextOrder_spliceOrder (b : PriceBook I K) (p : Nat) {x o y q : Nat} (hq : q ≠ o) :
    ((b.spliceOrder p x o y).order q).nextOrder = if q = x then some y else (b.order q).nextOrder := by
  simp only [spliceOrder]; split <;> simp [hq]

lemma prevOrder_spliceOrder (b : PriceBook I K) (p : Nat) {x o y q : Nat} (hq : q ≠ o) :
    ((b.spliceOrder p x o y).order q).prevOrder = if q = y then some x else (b.order q).prevOrder := by
  simp only [spliceOrder]; split <;> simp [hq]

theorem unlinkOrder_spec {l m : List Nat} {o p : Nat}
    (hring : Ring (fun q => (b.order q).nextOrder) (fun q => (b.order q).prevOrder) (l ++ o :: m))
    (hd : (l ++ o :: m).Nodup) (halone : ¬(l = [] ∧ m = []))
    (hlevel : b.getOrdersAtPrice (b.order o).price = some p)
    (hfirst : (b.level p).firstOrder = (l ++ o :: m).head?) :
    ∃ b', b.unlinkOrder o = .ok b' ∧ OrderUnlinked b p (l ++ m) o b' := by
  have hself := hring.prev_self_iff hd
  obtain ⟨x, hx, hxo⟩ := hring.exists_prev (a := o) (by simp)
  obtain ⟨y, hy, hoy⟩ := hring.exists_next (a := o) (by simp)
  have hprev : (b.order o).prevOrder ≠ some o := fun e => halone (hself.mp e)
  have hxne : x ≠ o := fun e => hprev (e ▸ hxo.2)
  have hyne : y ≠ o := fun e => hprev (by have := hoy.2; rwa [e] at this)
  have hon : (b.order o).nextOrder = some y := hoy.1
  have hop : (b.order o).prevOrder = some x := hxo.2
  have hrun : b.unlinkOrder o = .ok (b.spliceOrder p x o y) := by
    simp [unlinkOrder, spliceOrder, hop, hon, hxne, hlevel]
  have hne : ∀ q ∈ l ++ m, q ≠ o := by
    rintro q hq rfl
    exact (List.nodup_middle.mp hd).notMem hq
  refine ⟨_, hrun, ⟨?_, ?_, ?_, ?_, ?_, ?_, ?_, ?_⟩⟩
  · refine hring.erase hd halone hop hon ?_ ?_ ⟨?_, ?_⟩
    · exact fun q hq hqx => by rw [nextOrder_spliceOrder b p (hne q hq), if_neg hqx]
    · exact fun q hq hqy => by rw [prevOrder_spliceOrder b p (hne q hq), if_neg hqy]
    · exact (nextOrder_spliceOrder b p hxne).trans (if_pos rfl)
    · exact (prevOrder_spliceOrder b p hyne).trans (if_pos rfl)
  · intro q
    have hhead : (l ++ m).head? = if (b.level p).firstOrder = some o then some y
        else (b.level p).firstOrder := by
      rw [hfirst]
      cases l with
      | nil =>
        cases m with
        | nil => simp at halone
        | cons z m =>
          have hz : some y = some z := hon.symm.trans (Ring.joined (l := []) hring).1
          simpa using hz.symm
      | cons z l =>
        have hz : z ≠ o := hne z (by simp)
        simp [hz]
    rw [hhead]
    simp only [spliceOrder]
    by_cases hq : q = p
    · subst hq
      split <;> simp [level_modifyLevel]
    · split <;> simp [level_modifyLevel, hq]
  · intro q hq
    have hqx : q ≠ x := fun e => hq (by simp at hx ⊢; grind)
    have hqy : q ≠ y := fun e => hq (by simp at hy ⊢; grind)
    have hqo : q ≠ o := fun e => hq (by simp [e])
    simp only [spliceOrder]
    split <;> simp [order_modifyOrder, hqx, hqy, hqo]
  · intro t
    simp only [spliceOrder]
    split <;> simp
  · simp only [spliceOrder]
    split <;> simp
  · intro q
    simp only [spliceOrder]
    split <;> simp
  · intro hsound
    simp only [spliceOrder]
    split <;> simpa using hsound
  · intro hsound
    simp only [spliceOrder]
    split <;> simpa using hsound

end PriceBook

/-- What is left of a level once an order is out: nothing, or the remaining ring. -/
def LevelShape.remaining (p : Nat) (rest : List Nat) : List LevelShape :=
  if rest = [] then [] else [⟨p, rest⟩]

namespace Shape
variable {sh : Shape} {s : Side} {pre post : List LevelShape} {p o : Nat} {l m : List Nat}

/-- The shape without order `o` of level `p`. -/
def dropOrder (sh : Shape) (s : Side) (pre post : List LevelShape) (p : Nat) (rest : List Nat) : Shape :=
  sh.setSide s (pre ++ LevelShape.remaining p rest ++ post)

lemma dropOrder_side : (sh.dropOrder s pre post p l).side s =
    pre ++ LevelShape.remaining p l ++ post := side_setSide_self _ _ _

lemma orders_dropOrder_perm (hs : s.Trading) (hside : sh.side s = pre ++ ⟨p, l ++ o :: m⟩ :: post) :
    sh.orders.Perm (o :: (sh.dropOrder s pre post p (l ++ m)).orders) := by
  have hrest : (LevelShape.remaining p (l ++ m)).flatMap LevelShape.orders = l ++ m := by
    unfold LevelShape.remaining
    split <;> simp_all
  refine (orders_perm hs sh).trans (.trans ?_ ((orders_setSide_perm hs sh _).symm.cons o))
  rw [hside, List.perm_iff_count]
  intro a
  simp [hrest, List.count_cons]
  omega

lemma levelPtrs_dropOrder_perm (hs : s.Trading) (hside : sh.side s = pre ++ ⟨p, l⟩ :: post)
    (hne : m ≠ []) : (sh.dropOrder s pre post p m).levelPtrs.Perm sh.levelPtrs := by
  refine (levelPtrs_setSide_perm hs sh _).trans (.trans ?_ (levelPtrs_perm hs sh).symm)
  simp [hside, LevelShape.remaining, hne]

lemma levelPtrs_dropLevel_perm (hs : s.Trading) (hside : sh.side s = pre ++ ⟨p, l⟩ :: post) :
    sh.levelPtrs.Perm (p :: (sh.dropOrder s pre post p []).levelPtrs) := by
  refine (levelPtrs_perm hs sh).trans (.trans ?_ ((levelPtrs_setSide_perm hs sh _).symm.cons p))
  rw [hside, List.perm_iff_count]
  intro a
  simp [LevelShape.remaining, List.count_cons]
  omega

lemma orders_dropFirst_perm (hs : s.Trading) (hside : sh.side s = ⟨p, o :: m⟩ :: post) :
    sh.orders.Perm (o :: (sh.dropOrder s [] post p m).orders) := by
  have hsplit : sh.side s = [] ++ ⟨p, [] ++ o :: m⟩ :: post := hside
  have hperm := orders_dropOrder_perm hs hsplit
  rwa [List.nil_append] at hperm

/-- Each level left is a level of before, without the order. -/
lemma mem_dropOrder (hs : s.Trading) (hside : sh.side s = pre ++ ⟨p, l ++ o :: m⟩ :: post)
    (hnodup : sh.orders.Nodup) {t : Side} (ht : t.Trading) {x : LevelShape}
    (hx : x ∈ (sh.dropOrder s pre post p (l ++ m)).side t) :
    ∃ y ∈ sh.side t, x.ptr = y.ptr ∧ x.orders = y.orders.filter (· ≠ o) := by
  have hgone : o ∉ (sh.dropOrder s pre post p (l ++ m)).orders :=
    (List.nodup_cons.mp ((orders_dropOrder_perm hs hside).nodup_iff.mp hnodup)).1
  have hox : o ∉ x.orders := fun ho => hgone (mem_orders_of_side ht hx ho)
  have hkept : x ∈ sh.side t → ∃ y ∈ sh.side t, x.ptr = y.ptr ∧ x.orders = y.orders.filter (· ≠ o) :=
    fun hmem => ⟨x, hmem, rfl, (List.filter_eq_self.mpr fun q hq => by
      have hne : q ≠ o := fun he => hox (he ▸ hq)
      simpa using hne).symm⟩
  by_cases hts : t = s
  · subst hts
    rw [dropOrder_side] at hx
    rcases List.mem_append.mp hx with hx | hx
    · rcases List.mem_append.mp hx with hx | hx
      · exact hkept (by simp [hside, hx])
      · unfold LevelShape.remaining at hx
        split at hx
        · simp at hx
        · obtain rfl := List.mem_singleton.mp hx
          refine ⟨⟨p, l ++ o :: m⟩, by simp [hside], rfl, ?_⟩
          have hl : ∀ q ∈ l, q ≠ o := fun q hq he => hox (by simp [← he, hq])
          have hm : ∀ q ∈ m, q ≠ o := fun q hq he => hox (by simp [← he, hq])
          rw [List.filter_append, List.filter_cons,
            List.filter_eq_self.mpr (fun q hq => by simpa using hl q hq),
            List.filter_eq_self.mpr (fun q hq => by simpa using hm q hq)]
          simp
    · exact hkept (by simp [hside, hx])
  · rw [dropOrder, side_setSide_of_ne hs ht hts] at hx
    exact hkept hx

end Shape

namespace PriceBook
variable {I K : Type} {b : PriceBook I K} {s : Side} [DecidableEq K] [OrderKey I K]
  {sh : Shape} {pre post : List LevelShape} {p o : Nat} {l m : List Nat}

/-- Whatever the splice of the ladder or the ring did, the key table and the order pool stay
exact when the order's key is cleared and its block freed. -/
lemma WellFormed.keys_dropOrder (h : b.WellFormed sh) {b' : PriceBook I K} (hf : RemoveFrame b o b')
    {sh' : Shape} (hperm : sh.orders.Perm (o :: sh'.orders)) :
    (∀ q, b'.orderPool.Used q ↔ q ∈ sh'.orders) ∧
    (∀ k q, b'.orderTable k = some q ↔ q ∈ sh'.orders ∧ OrderKey.key (b'.order q).ids = k) ∧
    (∀ q ∈ sh'.orders, OrderKey.inTable I (OrderKey.key (b'.order q).ids) = true) := by
  have hnd := (hperm.nodup_iff).mp h.ordersNodup
  have hmem : ∀ q, q ∈ sh.orders ↔ q = o ∨ q ∈ sh'.orders := fun q => by simp [hperm.mem_iff]
  have hids : ∀ q, (b'.order q).ids = (b.order q).ids := fun q =>
    (BookOrder.unlinked_eq_iff.mp (hf.order q)).1
  have hoo : o ∉ sh'.orders := (List.nodup_cons.mp hnd).1
  refine ⟨fun q => ?_, fun k q => ?_, fun q hq => ?_⟩
  · rw [hf.used, h.orderUsed, hmem]
    constructor
    · rintro ⟨hne, rfl | hq⟩
      · exact absurd rfl hne
      · exact hq
    · exact fun hq => ⟨fun e => hoo (e ▸ hq), Or.inr hq⟩
  · rw [hf.table, hids, Function.update_apply]
    by_cases hk : k = OrderKey.key (b.order o).ids
    · rw [if_pos hk]
      refine ⟨fun e => by simp at e, ?_⟩
      rintro ⟨hq, hkey⟩
      have ho := (h.keys k o).mpr ⟨(hmem o).mpr (Or.inl rfl), hk.symm⟩
      have hq' := (h.keys k q).mpr ⟨(hmem q).mpr (Or.inr hq), hkey⟩
      have hoq : o = q := by simpa using ho.symm.trans hq'
      exact absurd (hoq ▸ hq) hoo
    · rw [if_neg hk, h.keys, hmem]
      constructor
      · rintro ⟨rfl | hq, hkey⟩
        · exact absurd hkey.symm hk
        · exact ⟨hq, hkey⟩
      · exact fun hq => ⟨Or.inr hq.1, hq.2⟩
  · rw [hids]
    exact h.inTable q ((hmem q).mpr (Or.inr hq))

omit [DecidableEq K] in
/-- The price table once the level `p` is out of its slot. -/
lemma WellFormed.prices_dropLevel (h : b.WellFormed sh) {price : Price} (hget : b.getOrdersAtPrice price = some p)
    {b' : PriceBook I K} (hprices : b'.priceOrdersAtPrice =
      Function.update b.priceOrdersAtPrice (priceToIndex price) none)
    (hprice : ∀ q, (b'.level q).price = (b.level q).price) {ptrs : List Nat} (hperm : sh.levelPtrs.Perm (p :: ptrs))
    (i q : Nat) : b'.priceOrdersAtPrice i = some q ↔ q ∈ ptrs ∧ priceToIndex (b'.level q).price = i := by
  have hmem : ∀ q, q ∈ sh.levelPtrs ↔ q = p ∨ q ∈ ptrs := fun q => by simp [hperm.mem_iff]
  have hout : p ∉ ptrs := (List.nodup_cons.mp (hperm.nodup_iff.mp h.levelsNodup)).1
  have hindex := ((h.prices _ p).mp hget).2
  rw [hprices, Function.update_apply, hprice]
  by_cases hi : i = priceToIndex price
  · rw [if_pos hi]
    refine ⟨fun e => by simp at e, ?_⟩
    rintro ⟨hq, hqi⟩
    have hslot := (h.prices i q).mpr ⟨(hmem q).mpr (Or.inr hq), hqi⟩
    rw [hi] at hslot
    have hqp : q = p := Option.some.inj (hslot.symm.trans hget)
    exact absurd (hqp ▸ hq) hout
  · rw [if_neg hi, h.prices, hmem]
    constructor
    · rintro ⟨rfl | hq, hqi⟩
      · exact absurd (hqi.symm.trans hindex) hi
      · exact ⟨hq, hqi⟩
    · exact fun hq => ⟨Or.inr hq.1, hq.2⟩

/-- The only order of its level goes, and the level with it. -/
theorem removeOrder_alone (h : b.WellFormed sh) (hs : s.Trading)
    (hside : sh.side s = pre ++ ⟨p, [o]⟩ :: post) :
    ∃ b', b.removeOrder o = .ok b' ∧ b'.WellFormed (sh.dropOrder s pre post p []) := by
  have hmem : (⟨p, [o]⟩ : LevelShape) ∈ sh.side s := by simp [hside]
  have hok := (h.side s hs).level _ hmem
  have hprev : (b.order o).prevOrder = some o := ((ring_singleton o).mp hok.ring).2
  have hget : b.getOrdersAtPrice (b.order o).price = some p :=
    h.getOrdersAtPrice_order hs hmem (by simp)
  have horderSide : (b.order o).side = s := hok.orderSide o (by simp)
  have hrest : (sh.dropOrder s pre post p []).side s = pre ++ post := by
    simp [Shape.dropOrder_side, LevelShape.remaining]
  have hnd := (List.nodup_append.mp (h.side_nodup hs)).1
  simp only [hside, List.map_append, List.map_cons] at hnd
  obtain ⟨b1, hb1, hu⟩ := unlinkOrdersAtPrice_spec hs
    (by simpa [hside] using (h.side s hs).ring) hnd (by simpa [hside] using (h.side s hs).top)
  obtain ⟨hpool1, htable1⟩ := (unlinkOrdersAtPrice_frame hb1).1
  have hpused : b1.ordersAtPricePool.Used p :=
    (hu.used p).mpr ((h.levelUsed p).mpr (Shape.mem_levelPtrs_of_side hs hmem))
  have hdealloc := MemPool.deallocate_spec (hu.sound h.levelPool) hpused
  have hoall : o ∈ sh.orders := Shape.mem_orders_of_side hs hmem (by simp)
  have hodealloc := MemPool.deallocate_spec h.orderPool ((h.orderUsed o).mpr hoall)
  have hkey := h.inTable o hoall
  have horder1 : ∀ q, b1.order q = b.order q := fun q => by simp only [order, hpool1]
  have hrun : b.removeOrder o = .ok ((((b1.setOrdersAtPrice (b.order o).price none).setLevelPool
      (b1.ordersAtPricePool.release p)).setKey (OrderKey.key (b.order o).ids) none).setOrderPool
      (b.orderPool.release o)) := by
    simp [removeOrder, unlinkOrder, hprev, removeOrdersAtPrice, hget, horderSide, hb1, hdealloc,
      setOrderTable, horder1, hkey, hpool1, hodealloc]
  refine ⟨_, hrun, ?_⟩
  have hf := removeOrder_frame hrun
  obtain ⟨hused, hkeys, hin⟩ := h.keys_dropOrder hf
    (Shape.orders_dropOrder_perm (l := []) (m := []) hs hside)
  generalize hb' : (((b1.setOrdersAtPrice (b.order o).price none).setLevelPool
      (b1.ordersAtPricePool.release p)).setKey (OrderKey.key (b.order o).ids) none).setOrderPool
      (b.orderPool.release o) = b' at hused hkeys hin ⊢
  have hlevel : ∀ q, b'.level q = b1.level q := fun q => by simp [← hb', level]
  have horder : ∀ q, b'.order q = b.order q := fun q => by simp [← hb', order]
  have htop : ∀ t, b'.top t = b1.top t := fun t => by simp [← hb']
  have hpperm := Shape.levelPtrs_dropLevel_perm hs hside
  have hpmem : ∀ q, q ∈ sh.levelPtrs ↔ q = p ∨ q ∈ (sh.dropOrder s pre post p []).levelPtrs :=
    fun q => by simp [hpperm.mem_iff]
  have hpnd := (hpperm.nodup_iff).mp h.levelsNodup
  have hpout := (List.nodup_cons.mp hpnd).1
  have hprice : ∀ q, (b'.level q).price = (b.level q).price := fun q => by
    rw [hlevel]
    exact (OrdersAtPrice.unlinked_eq_iff.mp (hu.data q)).2.1
  constructor
  · intro t ht
    rcases hs.eq_or_opposite ht with rfl | rfl
    · rw [hrest]
      have hsub : (pre ++ post).Sublist (sh.side t) := by rw [hside]; simp
      refine ⟨?_, ?_, ?_, ?_⟩
      · simpa [hlevel] using hu.ring
      · simpa [htop] using hu.top
      · refine ((h.side t ht).sorted.sublist (hsub.map _)).imp fun {a c} hac => ?_
        rwa [hprice, hprice]
      · intro l' hl'
        refine ((h.side t ht).level l' (hsub.subset hl')).congr ?_ fun q _ => horder q
        rw [hlevel]
        exact hu.data _
    · have hne := hs.opposite_ne
      rw [Shape.dropOrder, Shape.side_setSide_of_ne hs ht hne]
      refine (h.side _ ht).congr ?_ (fun l' hl' => ?_) fun _ _ q _ => horder q
      · rw [htop]
        exact hu.otherTop _ ht hne
      · rw [hlevel]
        apply hu.away
        intro hmem'
        have hin : l'.ptr ∈ (sh.side s).map LevelShape.ptr := by
          rw [hside]
          simp only [List.mem_cons, List.mem_append, List.map_append, List.map_cons] at hmem' ⊢
          rcases hmem' with ha | ha | ha <;> simp only [ha, or_true, true_or]
        obtain ⟨m', hm', he⟩ := List.mem_map.mp hin
        exact h.ptr_ne_of_opposite hs hm' hl' he.symm
  · exact (List.nodup_cons.mp hpnd).2
  · exact (List.nodup_cons.mp (((Shape.orders_dropOrder_perm (l := []) (m := []) hs hside).nodup_iff).mp
      h.ordersNodup)).2
  · rw [← hb']
    exact (hu.sound h.levelPool).release p
  · rw [← hb']
    exact h.orderPool.release o
  · intro q
    have hq : b'.ordersAtPricePool.Used q ↔ q ≠ p ∧ b1.ordersAtPricePool.Used q := by simp [← hb']
    rw [hq, hu.used, h.levelUsed, hpmem]
    constructor
    · rintro ⟨hqp, rfl | hq'⟩
      · exact absurd rfl hqp
      · exact hq'
    · exact fun hq' => ⟨fun e => hpout (e ▸ hq'), Or.inr hq'⟩
  · exact hused
  · intro i q
    have hprices : b'.priceOrdersAtPrice =
        Function.update b.priceOrdersAtPrice (priceToIndex (b.order o).price) none := by
      simp [← hb', hu.prices]
    exact h.prices_dropLevel hget hprices hprice hpperm i q
  · exact hkeys
  · exact hin

omit [DecidableEq K] [OrderKey I K] in
/-- The level without the order. -/
lemma OrderUnlinked.levelOk {b' : PriceBook I K} (hu : OrderUnlinked b p (l ++ m) o b') (hframe : SameOrders b b')
    (h : b.LevelOk s ⟨p, l ++ o :: m⟩) (hne : l ++ m ≠ []) : b'.LevelOk s ⟨p, l ++ m⟩ := by
  have hsub : ∀ q ∈ l ++ m, q ∈ l ++ o :: m := fun q hq =>
    List.perm_middle.mem_iff.mpr (List.mem_cons_of_mem o hq)
  have hlevel := hu.level p
  rw [if_pos rfl] at hlevel
  refine ⟨?_, ?_, hne, hu.ring, ?_, ?_⟩
  · rw [hlevel]
    exact h.side
  · rw [hlevel]
  · intro q hq
    rw [hframe.side]
    exact h.orderSide q (hsub q hq)
  · intro q hq
    rw [hframe.price, hlevel]
    exact h.orderPrice q (hsub q hq)

/-- An order goes whose level keeps others. -/
theorem removeOrder_shared (h : b.WellFormed sh) (hs : s.Trading)
    (hside : sh.side s = pre ++ ⟨p, l ++ o :: m⟩ :: post) (hne : ¬(l = [] ∧ m = [])) :
    ∃ b', b.removeOrder o = .ok b' ∧ b'.WellFormed (sh.dropOrder s pre post p (l ++ m)) := by
  have hmem : (⟨p, l ++ o :: m⟩ : LevelShape) ∈ sh.side s := by simp [hside]
  have hok := (h.side s hs).level _ hmem
  have hget : b.getOrdersAtPrice (b.order o).price = some p :=
    h.getOrdersAtPrice_order hs hmem (by simp)
  have hne' : l ++ m ≠ [] := by simpa using hne
  have hnd : (l ++ o :: m).Nodup := by
    have hd := (List.nodup_append.mp (h.side_orders_nodup hs)).1
    rw [hside, List.flatMap_append, List.flatMap_cons] at hd
    exact (List.nodup_append.mp (List.nodup_append.mp hd).2.1).1
  obtain ⟨b1, hb1, hu⟩ := unlinkOrder_spec hok.ring hnd hne hget hok.first
  have hf1 := (unlinkOrder_frame hb1).1
  have hoall : o ∈ sh.orders := Shape.mem_orders_of_side hs hmem (by simp)
  have hodealloc := MemPool.deallocate_spec (hu.orderSound h.orderPool)
    ((hf1.used o).mpr ((h.orderUsed o).mpr hoall))
  have hkey := h.inTable o hoall
  have hrun : b.removeOrder o = .ok ((b1.setKey (OrderKey.key (b.order o).ids) none).setOrderPool
      (b1.orderPool.release o)) := by
    simp [removeOrder, hb1, setOrderTable, hf1.ids, hkey, hodealloc]
  refine ⟨_, hrun, ?_⟩
  have hf := removeOrder_frame hrun
  have hoperm := Shape.orders_dropOrder_perm hs hside
  obtain ⟨hused, hkeys, hin⟩ := h.keys_dropOrder hf hoperm
  generalize hb' : (b1.setKey (OrderKey.key (b.order o).ids) none).setOrderPool
      (b1.orderPool.release o) = b' at hused hkeys hin ⊢
  have hlevel : ∀ q, b'.level q = b1.level q := fun q => by simp [← hb']
  have horder : ∀ q, b'.order q = b1.order q := fun q => by simp [← hb', order]
  have htop : ∀ t, b'.top t = b.top t := fun t => by simp [← hb', hu.top]
  have hpperm : (sh.dropOrder s pre post p (l ++ m)).levelPtrs.Perm sh.levelPtrs :=
    Shape.levelPtrs_dropOrder_perm hs hside hne'
  have hlevelNe : ∀ q, q ≠ p → b'.level q = b.level q := fun q hq => by
    rw [hlevel, hu.level, if_neg hq]
  have hnextEntry : ∀ q, (b'.level q).nextEntry = (b.level q).nextEntry := fun q => by
    rw [hlevel, hu.level]; split <;> rfl
  have hprevEntry : ∀ q, (b'.level q).prevEntry = (b.level q).prevEntry := fun q => by
    rw [hlevel, hu.level]; split <;> rfl
  have hprice : ∀ q, (b'.level q).price = (b.level q).price := fun q => by
    rw [hlevel, hu.level]; split <;> rfl
  have haway : ∀ (t : Side), t.Trading → ∀ l' ∈ sh.side t, l'.ptr ≠ p →
      ∀ q ∈ l'.orders, b'.order q = b.order q := by
    intro t ht l' hl' hlp q hq
    rw [horder]
    refine hu.away q fun hq' => hlp ?_
    apply h.order_mem_unique ht hs hl' hmem hq
    exact List.perm_middle.mem_iff.mpr hq'
  have hrest : (sh.dropOrder s pre post p (l ++ m)).side s = pre ++ ⟨p, l ++ m⟩ :: post := by
    simp [Shape.dropOrder_side, LevelShape.remaining, hne]
  have hptrs : (pre ++ (⟨p, l ++ m⟩ : LevelShape) :: post).map LevelShape.ptr =
      (sh.side s).map LevelShape.ptr := by simp [hside]
  have hother : ∀ l' ∈ pre ++ post, l'.ptr ≠ p := by
    have hd := (List.nodup_append.mp (h.side_nodup hs)).1
    simp only [hside, List.map_append, List.map_cons] at hd
    intro l' hl' e
    apply (List.nodup_middle.mp hd).notMem
    rw [← e, ← List.map_append]
    exact List.mem_map_of_mem hl'
  constructor
  · intro t ht
    rcases hs.eq_or_opposite ht with rfl | rfl
    · rw [hrest]
      refine ⟨?_, ?_, ?_, ?_⟩
      · rw [hptrs]
        exact (h.side t ht).ring.congr (fun q _ => hnextEntry q) (fun q _ => hprevEntry q)
      · rw [hptrs, htop]
        exact (h.side t ht).top
      · rw [hptrs]
        exact (h.side t ht).sorted.imp fun {a c} hac => by rwa [hprice, hprice]
      · intro l' hl'
        by_cases hlp : l' ∈ pre ++ post
        · have hl'' : l' ∈ sh.side t := by
            rw [hside]
            exact List.perm_middle.mem_iff.mpr (List.mem_cons_of_mem _ hlp)
          exact ((h.side t ht).level l' hl'').congr (by rw [hlevelNe _ (hother l' hlp)])
            (haway t ht l' hl'' (hother l' hlp))
        · have hl'' : l' = ⟨p, l ++ m⟩ :=
            (List.mem_cons.mp (List.perm_middle.mem_iff.mp hl')).resolve_right hlp
          rw [hl'']
          exact (hu.levelOk hf1 hok hne').congr (by rw [hlevel]) fun q _ => horder q
    · have hne'' := hs.opposite_ne
      rw [Shape.dropOrder, Shape.side_setSide_of_ne hs ht hne'']
      refine (h.side _ ht).congr (htop _) (fun l' hl' => ?_) fun l' hl' => ?_
      · exact hlevelNe _ (h.ptr_ne_of_opposite hs hmem hl')
      · exact haway _ ht l' hl' (h.ptr_ne_of_opposite hs hmem hl')
  · exact (hpperm.nodup_iff).mpr h.levelsNodup
  · exact (List.nodup_cons.mp ((hoperm.nodup_iff).mp h.ordersNodup)).2
  · rw [← hb']
    exact hu.sound h.levelPool
  · rw [← hb']
    exact (hu.orderSound h.orderPool).release o
  · intro q
    have hq : b'.ordersAtPricePool.Used q ↔ b1.ordersAtPricePool.Used q := by simp [← hb']
    rw [hq, hu.used, h.levelUsed, hpperm.mem_iff]
  · exact hused
  · intro i q
    have hprices : b'.priceOrdersAtPrice = b.priceOrdersAtPrice := by simp [← hb', hu.prices]
    rw [hprices, hprice, h.prices, hpperm.mem_iff]
  · exact hkeys
  · exact hin

/-- Removal of any order of a well-formed book. -/
theorem removeOrder_spec (h : b.WellFormed sh) (hs : s.Trading)
    (hside : sh.side s = pre ++ ⟨p, l ++ o :: m⟩ :: post) :
    ∃ b', b.removeOrder o = .ok b' ∧ b'.WellFormed (sh.dropOrder s pre post p (l ++ m)) := by
  by_cases hne : l = [] ∧ m = []
  · obtain ⟨rfl, rfl⟩ := hne
    exact removeOrder_alone h hs hside
  · exact removeOrder_shared h hs hside hne

/-- The removal of the first order of the best level. -/
theorem removeFirst_spec (h : b.WellFormed sh) (hs : s.Trading)
    (hside : sh.side s = ⟨p, o :: m⟩ :: post) :
    ∃ b', b.removeOrder o = .ok b' ∧ b'.WellFormed (sh.dropOrder s [] post p m) :=
  removeOrder_spec h hs (show sh.side s = [] ++ ⟨p, [] ++ o :: m⟩ :: post from hside)

end PriceBook
end LowLatencyExchange
