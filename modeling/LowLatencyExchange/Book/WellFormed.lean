import LowLatencyExchange.Book.PriceBook
import LowLatencyExchange.Library.Ring
import Mathlib.Data.List.Nodup

/-!
# Well-formed books

A shape lists the live levels of each side, best price first, and the orders of each level
in arrival order. `WellFormed b sh` says that the heap of `b` holds exactly this shape: the
ladders and the order rings are circular, sorted and non-empty, the two tables point to what
is in the shape and to nothing else, and the blocks in use are those of the shape.
-/

namespace LowLatencyExchange
open CircularList

structure LevelShape where
  ptr : Nat
  orders : List Nat

structure Shape where
  bids : List LevelShape
  asks : List LevelShape

namespace Shape

def side (sh : Shape) (s : Side) : List LevelShape := if s = .buy then sh.bids else sh.asks

def setSide (sh : Shape) (s : Side) (ls : List LevelShape) : Shape :=
  if s = .buy then { sh with bids := ls } else { sh with asks := ls }

def levels (sh : Shape) : List LevelShape := sh.bids ++ sh.asks

def levelPtrs (sh : Shape) : List Nat := sh.levels.map LevelShape.ptr

def orders (sh : Shape) : List Nat := sh.levels.flatMap LevelShape.orders

@[simp] lemma side_setSide_self (sh : Shape) (s : Side) (ls : List LevelShape) :
    (sh.setSide s ls).side s = ls := by
  simp only [side, setSide]; split <;> rfl

lemma side_setSide_of_ne {s t : Side} (hs : s.Trading) (ht : t.Trading) (hst : t ≠ s) (sh : Shape)
    (ls : List LevelShape) : (sh.setSide s ls).side t = sh.side t := by
  rcases hs with rfl | rfl <;> rcases ht with rfl | rfl <;> simp_all [side, setSide]

lemma mem_levels {sh : Shape} {l : LevelShape} :
    l ∈ sh.levels ↔ ∃ s : Side, s.Trading ∧ l ∈ sh.side s := by
  constructor
  · intro h
    rcases List.mem_append.mp h with h | h
    · exact ⟨.buy, by simp, h⟩
    · exact ⟨.sell, by simp, h⟩
  · rintro ⟨s, rfl | rfl, h⟩
    · exact List.mem_append_left _ h
    · exact List.mem_append_right _ h

lemma mem_levels_of_side {sh : Shape} {s : Side} (hs : s.Trading) {l : LevelShape}
    (hl : l ∈ sh.side s) : l ∈ sh.levels := mem_levels.mpr ⟨s, hs, hl⟩

lemma mem_levelPtrs_of_side {sh : Shape} {s : Side} (hs : s.Trading) {l : LevelShape}
    (hl : l ∈ sh.side s) : l.ptr ∈ sh.levelPtrs :=
  List.mem_map_of_mem (mem_levels_of_side hs hl)

lemma mem_orders {sh : Shape} {o : Nat} :
    o ∈ sh.orders ↔ ∃ s : Side, s.Trading ∧ ∃ l ∈ sh.side s, o ∈ l.orders := by
  simp only [orders, List.mem_flatMap]
  constructor
  · rintro ⟨l, hl, ho⟩
    obtain ⟨s, hs, hl⟩ := mem_levels.mp hl
    exact ⟨s, hs, l, hl, ho⟩
  · rintro ⟨s, hs, l, hl, ho⟩
    exact ⟨l, mem_levels_of_side hs hl, ho⟩

lemma mem_orders_of_side {sh : Shape} {s : Side} (hs : s.Trading) {l : LevelShape}
    (hl : l ∈ sh.side s) {o : Nat} (ho : o ∈ l.orders) : o ∈ sh.orders :=
  mem_orders.mpr ⟨s, hs, l, hl, ho⟩

/-- Where an order of the shape stands. -/
lemma exists_split {sh : Shape} {o : Nat} (ho : o ∈ sh.orders) : ∃ s : Side, s.Trading ∧ ∃ pre p l m post,
    sh.side s = pre ++ ⟨p, l ++ o :: m⟩ :: post := by
  obtain ⟨s, hs, ⟨p, os⟩, hl, hos⟩ := mem_orders.mp ho
  obtain ⟨pre, post, hside⟩ := List.append_of_mem hl
  obtain ⟨l, m, rfl⟩ := List.append_of_mem hos
  exact ⟨s, hs, pre, p, l, m, post, hside⟩

/-- The levels of a side stand next to those of the other side, in one order or the other. -/
lemma levels_perm {s : Side} (hs : s.Trading) (sh : Shape) :
    sh.levels.Perm (sh.side s ++ sh.side s.opposite) := by
  rcases hs with rfl | rfl
  · exact .refl _
  · exact List.perm_append_comm

lemma levels_setSide_perm {s : Side} (hs : s.Trading) (sh : Shape) (ls : List LevelShape) :
    (sh.setSide s ls).levels.Perm (ls ++ sh.side s.opposite) := by
  rcases hs with rfl | rfl
  · exact .refl _
  · exact List.perm_append_comm

lemma orders_setSide_perm {s : Side} (hs : s.Trading) (sh : Shape) (ls : List LevelShape) :
    (sh.setSide s ls).orders.Perm
      (ls.flatMap LevelShape.orders ++ (sh.side s.opposite).flatMap LevelShape.orders) := by
  have h := (levels_setSide_perm hs sh ls).flatMap_right LevelShape.orders
  rwa [List.flatMap_append] at h

lemma orders_perm {s : Side} (hs : s.Trading) (sh : Shape) : sh.orders.Perm
    ((sh.side s).flatMap LevelShape.orders ++ (sh.side s.opposite).flatMap LevelShape.orders) := by
  have h := (levels_perm hs sh).flatMap_right LevelShape.orders
  rwa [List.flatMap_append] at h

lemma levelPtrs_setSide_perm {s : Side} (hs : s.Trading) (sh : Shape) (ls : List LevelShape) :
    (sh.setSide s ls).levelPtrs.Perm
      (ls.map LevelShape.ptr ++ (sh.side s.opposite).map LevelShape.ptr) := by
  have h := (levels_setSide_perm hs sh ls).map LevelShape.ptr
  rwa [List.map_append] at h

lemma levelPtrs_perm {s : Side} (hs : s.Trading) (sh : Shape) : sh.levelPtrs.Perm
    ((sh.side s).map LevelShape.ptr ++ (sh.side s.opposite).map LevelShape.ptr) := by
  have h := (levels_perm hs sh).map LevelShape.ptr
  rwa [List.map_append] at h

end Shape

namespace PriceBook
variable {I K : Type}

/-- A level holds the orders of its ring, first in first out. -/
structure LevelOk (b : PriceBook I K) (s : Side) (l : LevelShape) : Prop where
  side : (b.level l.ptr).side = s
  first : (b.level l.ptr).firstOrder = l.orders.head?
  nonempty : l.orders ≠ []
  ring : Ring (fun o => (b.order o).nextOrder) (fun o => (b.order o).prevOrder) l.orders
  orderSide : ∀ o ∈ l.orders, (b.order o).side = s
  orderPrice : ∀ o ∈ l.orders, (b.order o).price = (b.level l.ptr).price

/-- The ladder of a side is a ring, best price first, read from its top. -/
structure SideOk (b : PriceBook I K) (s : Side) (ls : List LevelShape) : Prop where
  ring : Ring (fun p => (b.level p).nextEntry) (fun p => (b.level p).prevEntry) (ls.map LevelShape.ptr)
  top : b.top s = (ls.map LevelShape.ptr).head?
  sorted : (ls.map LevelShape.ptr).Pairwise fun p q => addAfter s (b.level q).price (b.level p).price
  level : ∀ l ∈ ls, b.LevelOk s l

structure WellFormed [OrderKey I K] (b : PriceBook I K) (sh : Shape) : Prop where
  side : ∀ s : Side, s.Trading → b.SideOk s (sh.side s)
  levelsNodup : sh.levelPtrs.Nodup
  ordersNodup : sh.orders.Nodup
  levelPool : b.ordersAtPricePool.Sound
  orderPool : b.orderPool.Sound
  levelUsed : ∀ p, b.ordersAtPricePool.Used p ↔ p ∈ sh.levelPtrs
  orderUsed : ∀ o, b.orderPool.Used o ↔ o ∈ sh.orders
  prices : ∀ i p, b.priceOrdersAtPrice i = some p ↔
    p ∈ sh.levelPtrs ∧ priceToIndex (b.level p).price = i
  keys : ∀ k o, b.orderTable k = some o ↔ o ∈ sh.orders ∧ OrderKey.key (b.order o).ids = k
  inTable : ∀ o ∈ sh.orders, OrderKey.inTable I (OrderKey.key (b.order o).ids) = true

end PriceBook

/-- The fields of an order that no splice touches. -/
def BookOrder.unlinked {I : Type} (o : BookOrder I) : BookOrder I :=
  { o with prevOrder := none, nextOrder := none }

def OrdersAtPrice.unlinked (l : OrdersAtPrice) : OrdersAtPrice :=
  { l with prevEntry := none, nextEntry := none }

section Unlinked
variable {I : Type} {o o' : BookOrder I} {l l' : OrdersAtPrice}

lemma BookOrder.unlinked_eq_iff : o.unlinked = o'.unlinked ↔ o.ids = o'.ids ∧ o.side = o'.side ∧
    o.price = o'.price ∧ o.qty = o'.qty ∧ o.priority = o'.priority := by
  simp [BookOrder.unlinked]

lemma OrdersAtPrice.unlinked_eq_iff : l.unlinked = l'.unlinked ↔ l.side = l'.side ∧
    l.price = l'.price ∧ l.firstOrder = l'.firstOrder := by
  simp [OrdersAtPrice.unlinked]

end Unlinked

namespace PriceBook
variable {I K : Type} {b b' : PriceBook I K} {s : Side}

lemma otherTop_setTop (b : PriceBook I K) (v : Option Nat) (hs : s.Trading) {t : Side}
    (ht : t.Trading) (hts : t ≠ s) : (b.setTop s v).top t = b.top t := by
  rw [top_setTop]
  rcases hs with rfl | rfl <;> rcases ht with rfl | rfl <;> simp_all

lemma LevelOk.congr {l : LevelShape} (h : b.LevelOk s l)
    (hl : (b'.level l.ptr).unlinked = (b.level l.ptr).unlinked)
    (ho : ∀ o ∈ l.orders, b'.order o = b.order o) : b'.LevelOk s l := by
  obtain ⟨hside, hprice, hfirst⟩ := OrdersAtPrice.unlinked_eq_iff.mp hl
  refine ⟨hside.trans h.side, hfirst.trans h.first, h.nonempty, ?_, ?_, ?_⟩
  · exact h.ring.congr (fun o hm => by rw [ho o hm]) (fun o hm => by rw [ho o hm])
  · exact fun o hm => by rw [ho o hm]; exact h.orderSide o hm
  · exact fun o hm => by rw [ho o hm, hprice]; exact h.orderPrice o hm

lemma SideOk.congr {ls : List LevelShape} (h : b.SideOk s ls) (htop : b'.top s = b.top s)
    (hl : ∀ l ∈ ls, b'.level l.ptr = b.level l.ptr)
    (ho : ∀ l ∈ ls, ∀ o ∈ l.orders, b'.order o = b.order o) : b'.SideOk s ls := by
  refine ⟨?_, htop.trans h.top, ?_, ?_⟩
  · refine h.ring.congr (fun p hp => ?_) (fun p hp => ?_) <;>
    · obtain ⟨l, hm, rfl⟩ := List.mem_map.mp hp
      rw [hl l hm]
  · refine h.sorted.imp_of_mem fun {p q} hp hq hpq => ?_
    obtain ⟨l, hm, rfl⟩ := List.mem_map.mp hp
    obtain ⟨m, hm', rfl⟩ := List.mem_map.mp hq
    rwa [hl l hm, hl m hm']
  · exact fun l hm => (h.level l hm).congr (by rw [hl l hm]) (ho l hm)

/-- Both tops are levels of the shape. -/
lemma exists_level_of_top {sh : Shape} (h : ∀ t : Side, t.Trading → b.SideOk t (sh.side t)) {p : Nat}
    (htop : b.top s = some p) : ∃ t : Side, t.Trading ∧ ∃ l ∈ sh.side t, l.ptr = p := by
  have htrading : ∀ t : Side, t.Trading → b.top t = some p → ∃ l ∈ sh.side t, l.ptr = p := by
    intro t ht htop
    have hhead := (h t ht).top.symm.trans htop
    exact List.mem_map.mp (List.mem_of_head? hhead)
  by_cases hs : s = .buy
  · exact ⟨.buy, by simp, htrading .buy (by simp) (hs ▸ htop)⟩
  · refine ⟨.sell, by simp, htrading .sell (by simp) ?_⟩
    simpa [top, hs] using htop

variable [OrderKey I K] {sh : Shape}

/-- A book with nothing in it. -/
lemma wellFormed_empty {levels : MemPool OrdersAtPrice} {orders : MemPool (BookOrder I)}
    (hlevels : levels.Sound) (horders : orders.Sound) (hnoLevel : ∀ p, ¬levels.Used p)
    (hnoOrder : ∀ o, ¬orders.Used o) :
    (⟨levels, none, none, fun _ => none, orders, fun _ => none⟩ : PriceBook I K).WellFormed ⟨[], []⟩ where
  side := by
    rintro s (rfl | rfl) <;> exact ⟨ring_nil, rfl, .nil, by simp [Shape.side]⟩
  levelsNodup := .nil
  ordersNodup := .nil
  levelPool := hlevels
  orderPool := horders
  levelUsed := fun p => by simp [hnoLevel, Shape.levelPtrs, Shape.levels]
  orderUsed := fun o => by simp [hnoOrder, Shape.orders, Shape.levels]
  prices := fun i p => by simp [Shape.levelPtrs, Shape.levels]
  keys := fun k o => by simp [Shape.orders, Shape.levels]
  inTable := fun o ho => by simp [Shape.orders, Shape.levels] at ho

lemma WellFormed.getOrdersAtPrice_level (h : b.WellFormed sh) {p : Nat} (hp : p ∈ sh.levelPtrs) :
    b.getOrdersAtPrice (b.level p).price = some p :=
  (h.prices _ p).mpr ⟨hp, rfl⟩

/-- Two live levels whose prices share a slot of the price table are the same. -/
lemma WellFormed.level_ext (h : b.WellFormed sh) {p q : Nat} (hp : p ∈ sh.levelPtrs)
    (hq : q ∈ sh.levelPtrs) (hpq : priceToIndex (b.level p).price = priceToIndex (b.level q).price) :
    p = q := by
  have hp' := (h.prices _ p).mpr ⟨hp, hpq⟩
  have hq' := (h.prices _ q).mpr ⟨hq, rfl⟩
  simpa using hp'.symm.trans hq'

/-- The level that the price table gives for an order of the shape is the order's own. -/
lemma WellFormed.getOrdersAtPrice_order (h : b.WellFormed sh) (hs : s.Trading) {l : LevelShape}
    (hl : l ∈ sh.side s) {o : Nat} (ho : o ∈ l.orders) :
    b.getOrdersAtPrice (b.order o).price = some l.ptr := by
  rw [((h.side s hs).level l hl).orderPrice o ho]
  exact h.getOrdersAtPrice_level (Shape.mem_levelPtrs_of_side hs hl)

lemma WellFormed.side_nodup (h : b.WellFormed sh) (hs : s.Trading) :
    ((sh.side s).map LevelShape.ptr ++ (sh.side s.opposite).map LevelShape.ptr).Nodup :=
  ((Shape.levelPtrs_perm hs sh).nodup_iff).mp h.levelsNodup

lemma WellFormed.side_orders_nodup (h : b.WellFormed sh) (hs : s.Trading) :
    ((sh.side s).flatMap LevelShape.orders ++ (sh.side s.opposite).flatMap LevelShape.orders).Nodup :=
  ((Shape.orders_perm hs sh).nodup_iff).mp h.ordersNodup

/-- The levels of one side are not among those of the other. -/
lemma WellFormed.ptr_ne_of_opposite (h : b.WellFormed sh) (hs : s.Trading) {l' m' : LevelShape}
    (hl : l' ∈ sh.side s) (hm : m' ∈ sh.side s.opposite) : m'.ptr ≠ l'.ptr := by
  have hd := (List.nodup_append.mp (h.side_nodup hs)).2.2
  exact fun e => hd _ (List.mem_map_of_mem hl) _ (List.mem_map_of_mem hm) e.symm

/-- An order stands in one level only. -/
lemma WellFormed.order_mem_unique (h : b.WellFormed sh) {t : Side} (hs : s.Trading) (ht : t.Trading)
    {l' m' : LevelShape} (hl : l' ∈ sh.side s) (hm : m' ∈ sh.side t) {q : Nat} (hq : q ∈ l'.orders)
    (hq' : q ∈ m'.orders) : l'.ptr = m'.ptr := by
  have hpl := h.getOrdersAtPrice_order hs hl hq
  have hpm := h.getOrdersAtPrice_order ht hm hq'
  simpa using hpl.symm.trans hpm

end PriceBook
end LowLatencyExchange
