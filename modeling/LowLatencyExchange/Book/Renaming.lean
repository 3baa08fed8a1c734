import LowLatencyExchange.Book.Frames
import LowLatencyExchange.Library.Simulation

/-!
# Two books with the same heap

`Renamed φ ψ f b c` says that the live part of `c` is the live part of `b` with its levels
moved by `φ` and its orders by `ψ`. Contents and links are the same up to these moves, and
`f` reads the identifiers of `c` off those of `b`. The two books may differ in their tables
of orders. Every helper of the book keeps this when both books run it on corresponding
arguments.
-/

namespace LowLatencyExchange
open Simulation

/-- A level with its pointers moved. -/
def OrdersAtPrice.rename (φ ψ : Nat → Nat) (l : OrdersAtPrice) : OrdersAtPrice :=
  ⟨l.side, l.price, l.firstOrder.map ψ, l.prevEntry.map φ, l.nextEntry.map φ⟩

/-- An order with its pointers moved and its identifiers read by `f`. -/
def BookOrder.rename {I J : Type} (ψ : Nat → Nat) (f : I → J) (o : BookOrder I) : BookOrder J :=
  ⟨f o.ids, o.side, o.price, o.qty, o.priority, o.prevOrder.map ψ, o.nextOrder.map ψ⟩

namespace Shape

/-- A shape with its pointers moved. -/
def rename (φ ψ : Nat → Nat) (sh : Shape) : Shape :=
  ⟨sh.bids.map fun l => ⟨φ l.ptr, l.orders.map ψ⟩, sh.asks.map fun l => ⟨φ l.ptr, l.orders.map ψ⟩⟩

variable (φ ψ : Nat → Nat) (sh : Shape)

lemma side_rename (s : Side) : (sh.rename φ ψ).side s = (sh.side s).map fun l => ⟨φ l.ptr, l.orders.map ψ⟩ := by
  unfold side
  split <;> rfl

lemma levels_rename : (sh.rename φ ψ).levels = sh.levels.map fun l => ⟨φ l.ptr, l.orders.map ψ⟩ :=
  List.map_append.symm

lemma levelPtrs_rename : (sh.rename φ ψ).levelPtrs = sh.levelPtrs.map φ := by
  unfold levelPtrs
  rw [levels_rename, List.map_map, List.map_map]
  rfl

lemma orders_rename : (sh.rename φ ψ).orders = sh.orders.map ψ := by
  unfold orders
  rw [levels_rename, List.flatMap_map, List.map_flatMap]

end Shape

lemma follows_deref {φ : Nat → Nat} (v : Option Nat) :
    Follows (fun p q => q = φ p) (deref v) (deref (v.map φ)) := by
  intro p hp
  rw [deref_eq_ok hp]
  exact ⟨φ p, rfl, rfl⟩

namespace PriceBook
variable {I J K L : Type}

/-- The pointers of live blocks lead to live blocks. -/
structure Closed (b : PriceBook I K) : Prop where
  top : ∀ s p, b.top s = some p → b.ordersAtPricePool.Used p
  prices : ∀ i p, b.priceOrdersAtPrice i = some p → b.ordersAtPricePool.Used p
  entries : ∀ p q, b.ordersAtPricePool.Used p →
    (b.level p).nextEntry = some q ∨ (b.level p).prevEntry = some q → b.ordersAtPricePool.Used q
  first : ∀ p o, b.ordersAtPricePool.Used p → (b.level p).firstOrder = some o → b.orderPool.Used o
  orders : ∀ o q, b.orderPool.Used o →
    (b.order o).nextOrder = some q ∨ (b.order o).prevOrder = some q → b.orderPool.Used q

lemma WellFormed.closed [OrderKey I K] {b : PriceBook I K} {sh : Shape} (h : b.WellFormed sh) :
    b.Closed := by
  have hside : ∀ s : Side, ∀ p, b.top s = some p → b.ordersAtPricePool.Used p := by
    intro s p hp
    obtain ⟨t, ht, l, hl, rfl⟩ := exists_level_of_top h.side hp
    exact (h.levelUsed _).mpr (Shape.mem_levelPtrs_of_side ht hl)
  have hlevel : ∀ p, b.ordersAtPricePool.Used p → ∃ s : Side, s.Trading ∧ ∃ l ∈ sh.side s, l.ptr = p := by
    intro p hp
    obtain ⟨l, hl, rfl⟩ := List.mem_map.mp ((h.levelUsed p).mp hp)
    obtain ⟨s, hs, hl⟩ := Shape.mem_levels.mp hl
    exact ⟨s, hs, l, hl, rfl⟩
  have hused : ∀ s : Side, s.Trading → ∀ q ∈ (sh.side s).map LevelShape.ptr,
      b.ordersAtPricePool.Used q := by
    intro s hs q hq
    obtain ⟨l, hl, rfl⟩ := List.mem_map.mp hq
    exact (h.levelUsed _).mpr (Shape.mem_levelPtrs_of_side hs hl)
  refine ⟨hside, fun i p hp => (h.levelUsed p).mpr ((h.prices i p).mp hp).1, ?_, ?_, ?_⟩
  · rintro p q hp hpq
    obtain ⟨s, hs, l, hl, rfl⟩ := hlevel p hp
    have hring := (h.side s hs).ring
    have hmem : l.ptr ∈ (sh.side s).map LevelShape.ptr := List.mem_map_of_mem hl
    rcases hpq with hnext | hprev
    · obtain ⟨x, hx, hj⟩ := hring.exists_next hmem
      obtain rfl : x = q := by simpa [hnext] using hj.1.symm
      exact hused s hs x hx
    · obtain ⟨x, hx, hj⟩ := hring.exists_prev hmem
      obtain rfl : x = q := by simpa [hprev] using hj.2.symm
      exact hused s hs x hx
  · intro p o hp ho
    obtain ⟨s, hs, l, hl, rfl⟩ := hlevel p hp
    have hhead := ((h.side s hs).level l hl).first.symm.trans ho
    exact (h.orderUsed o).mpr (Shape.mem_orders_of_side hs hl (List.mem_of_head? hhead))
  · intro o q ho hoq
    obtain ⟨s, hs, l, hl, hol⟩ := Shape.mem_orders.mp ((h.orderUsed o).mp ho)
    have hring := ((h.side s hs).level l hl).ring
    rcases hoq with hnext | hprev
    · obtain ⟨x, hx, hj⟩ := hring.exists_next hol
      obtain rfl : x = q := by simpa [hnext] using hj.1.symm
      exact (h.orderUsed x).mpr (Shape.mem_orders_of_side hs hl hx)
    · obtain ⟨x, hx, hj⟩ := hring.exists_prev hol
      obtain rfl : x = q := by simpa [hprev] using hj.2.symm
      exact (h.orderUsed x).mpr (Shape.mem_orders_of_side hs hl hx)

/-- A fresh order points nowhere. -/
lemma Closed.takeOrder {b : PriceBook I K} (h : b.Closed) {o : BookOrder I} (hnext : o.nextOrder = none)
    (hprev : o.prevOrder = none) (i k : Nat) :
    (b.setOrderPool { b.orderPool.take i o with nextFreeIndex := k }).Closed := by
  have hused : ∀ q, b.orderPool.Used q →
      MemPool.Used { b.orderPool.take i o with nextFreeIndex := k } q :=
    fun q hq => (MemPool.used_take b.orderPool i q o).mpr (.inr hq)
  refine ⟨h.top, h.prices, h.entries, fun p q hp hq => hused q (h.first p q hp hq), ?_⟩
  intro p q hp hpq
  have hobj := MemPool.object_take b.orderPool i p o
  by_cases hpi : p = i
  · have horder := hobj.trans (if_pos hpi)
    rcases hpq with hpq | hpq
    · have hnone := (congrArg BookOrder.nextOrder horder).symm.trans hpq
      rw [hnext] at hnone
      cases hnone
    · have hnone := (congrArg BookOrder.prevOrder horder).symm.trans hpq
      rw [hprev] at hnone
      cases hnone
  · have horder := hobj.trans (if_neg hpi)
    have hp' : b.orderPool.Used p := ((MemPool.used_take b.orderPool i p o).mp hp).resolve_left hpi
    refine hused q (h.orders p q hp' ?_)
    exact hpq.imp (congrArg BookOrder.nextOrder horder).symm.trans
      (congrArg BookOrder.prevOrder horder).symm.trans

structure Renamed (φ ψ : Equiv.Perm Nat) (f : I → J) (b : PriceBook I K) (c : PriceBook J L) : Prop where
  level : ∀ p, b.ordersAtPricePool.Used p → c.level (φ p) = (b.level p).rename φ ψ
  order : ∀ o, b.orderPool.Used o → c.order (ψ o) = (b.order o).rename ψ f
  top : ∀ s, c.top s = (b.top s).map φ
  prices : ∀ i, c.priceOrdersAtPrice i = (b.priceOrdersAtPrice i).map φ
  levelUsed : ∀ p, c.ordersAtPricePool.Used (φ p) ↔ b.ordersAtPricePool.Used p
  orderUsed : ∀ o, c.orderPool.Used (ψ o) ↔ b.orderPool.Used o
  levelSize : c.ordersAtPricePool.size = b.ordersAtPricePool.size
  levelSound : c.ordersAtPricePool.Sound
  orderSound : c.orderPool.Sound

variable {φ ψ : Equiv.Perm Nat} {f : I → J} {b b' : PriceBook I K} {c c' : PriceBook J L}

section Writes
variable (h : Renamed φ ψ f b c)
include h

lemma Renamed.modifyLevel (p : Nat) {g g' : OrdersAtPrice → OrdersAtPrice}
    (hg : ∀ l, g' (l.rename φ ψ) = (g l).rename φ ψ) :
    Renamed φ ψ f (b.modifyLevel p g) (c.modifyLevel (φ p) g') := by
  refine ⟨fun q hq => ?_, h.order, h.top, h.prices, fun q => ?_, h.orderUsed, h.levelSize,
    h.levelSound.modify _ _, h.orderSound⟩
  · have hused : b.ordersAtPricePool.Used q := by simpa using hq
    simp only [level_modifyLevel, φ.injective.eq_iff, h.level q hused]
    split
    · exact hg _
    · rfl
  · simpa using h.levelUsed q

lemma Renamed.modifyOrder (p : Nat) {g : BookOrder I → BookOrder I} {g' : BookOrder J → BookOrder J}
    (hg : ∀ o, g' (o.rename ψ f) = (g o).rename ψ f) :
    Renamed φ ψ f (b.modifyOrder p g) (c.modifyOrder (ψ p) g') := by
  refine ⟨h.level, fun q hq => ?_, h.top, h.prices, h.levelUsed, fun q => ?_, h.levelSize,
    h.levelSound, h.orderSound.modify _ _⟩
  · have hused : b.orderPool.Used q := by simpa using hq
    simp only [order_modifyOrder, ψ.injective.eq_iff, h.order q hused]
    split
    · exact hg _
    · rfl
  · simpa using h.orderUsed q

lemma Renamed.setNextEntry (p : Nat) (v : Option Nat) :
    Renamed φ ψ f (b.setNextEntry p v) (c.setNextEntry (φ p) (v.map φ)) :=
  h.modifyLevel p fun _ => rfl

lemma Renamed.setPrevEntry (p : Nat) (v : Option Nat) :
    Renamed φ ψ f (b.setPrevEntry p v) (c.setPrevEntry (φ p) (v.map φ)) :=
  h.modifyLevel p fun _ => rfl

lemma Renamed.setFirstOrder (p : Nat) (v : Option Nat) :
    Renamed φ ψ f (b.setFirstOrder p v) (c.setFirstOrder (φ p) (v.map ψ)) :=
  h.modifyLevel p fun _ => rfl

lemma Renamed.setNextOrder (p : Nat) (v : Option Nat) :
    Renamed φ ψ f (b.setNextOrder p v) (c.setNextOrder (ψ p) (v.map ψ)) :=
  h.modifyOrder p fun _ => rfl

lemma Renamed.setPrevOrder (p : Nat) (v : Option Nat) :
    Renamed φ ψ f (b.setPrevOrder p v) (c.setPrevOrder (ψ p) (v.map ψ)) :=
  h.modifyOrder p fun _ => rfl

lemma Renamed.setQty (p : Nat) (qty : Qty) :
    Renamed φ ψ f (b.setQty p qty) (c.setQty (ψ p) qty) :=
  h.modifyOrder p fun _ => rfl

lemma Renamed.setTop (s : Side) (v : Option Nat) :
    Renamed φ ψ f (b.setTop s v) (c.setTop s (v.map φ)) := by
  refine ⟨?_, ?_, fun t => ?_, ?_, ?_, ?_, ?_, ?_, ?_⟩
  · simpa using h.level
  · simpa using h.order
  · rw [top_setTop, top_setTop, h.top t]
    split <;> rfl
  · simpa using h.prices
  · simpa using h.levelUsed
  · simpa using h.orderUsed
  · simpa using h.levelSize
  · simpa using h.levelSound
  · simpa using h.orderSound

lemma Renamed.setOrdersAtPrice (price : Price) (v : Option Nat) :
    Renamed φ ψ f (b.setOrdersAtPrice price v) (c.setOrdersAtPrice price (v.map φ)) := by
  refine ⟨h.level, h.order, h.top, fun i => ?_, h.levelUsed, h.orderUsed, h.levelSize, h.levelSound,
    h.orderSound⟩
  simp only [prices_setOrdersAtPrice, Function.update_apply, h.prices i]
  split <;> rfl

/-- A write to the table of orders on either side. -/
lemma Renamed.setKey [DecidableEq K] [DecidableEq L] (k : K) (l : L) (v w : Option Nat) :
    Renamed φ ψ f (b.setKey k v) (c.setKey l w) :=
  ⟨h.level, h.order, h.top, h.prices, h.levelUsed, h.orderUsed, h.levelSize, h.levelSound,
    h.orderSound⟩

lemma Renamed.releaseLevel (p : Nat) :
    Renamed φ ψ f (b.setLevelPool (b.ordersAtPricePool.release p))
      (c.setLevelPool (c.ordersAtPricePool.release (φ p))) := by
  refine ⟨fun q hq => ?_, h.order, h.top, h.prices, fun q => ?_, h.orderUsed, h.levelSize,
    h.levelSound.release _, h.orderSound⟩
  · have hused : b.ordersAtPricePool.Used q := ((MemPool.used_release _ _ _).mp hq).2
    rw [level_setLevelPool, level_setLevelPool, MemPool.object_release, MemPool.object_release]
    exact h.level q hused
  · simp [h.levelUsed q]

lemma Renamed.releaseOrder (p : Nat) :
    Renamed φ ψ f (b.setOrderPool (b.orderPool.release p))
      (c.setOrderPool (c.orderPool.release (ψ p))) := by
  refine ⟨h.level, fun q hq => ?_, h.top, h.prices, h.levelUsed, fun q => ?_, h.levelSize,
    h.levelSound, h.orderSound.release _⟩
  · have hused : b.orderPool.Used q := ((MemPool.used_release _ _ _).mp hq).2
    rw [order_setOrderPool, order_setOrderPool, MemPool.object_release, MemPool.object_release]
    exact h.order q hused
  · simp [h.orderUsed q]

/-- Corresponding blocks are taken for corresponding levels. -/
lemma Renamed.takeLevel {p k k' : Nat} {l : OrdersAtPrice}
    (hsound : MemPool.Sound { c.ordersAtPricePool.take (φ p) (l.rename φ ψ) with nextFreeIndex := k' }) :
    Renamed φ ψ f (b.setLevelPool { b.ordersAtPricePool.take p l with nextFreeIndex := k })
      (c.setLevelPool { c.ordersAtPricePool.take (φ p) (l.rename φ ψ) with nextFreeIndex := k' }) := by
  refine ⟨fun q hq => ?_, h.order, h.top, h.prices, fun q => ?_, h.orderUsed, h.levelSize, hsound,
    h.orderSound⟩
  · have hq' : q = p ∨ b.ordersAtPricePool.Used q := (MemPool.used_take _ _ _ _).mp hq
    apply (MemPool.object_take c.ordersAtPricePool (φ p) (φ q) _).trans
    refine Eq.trans ?_ (congrArg (OrdersAtPrice.rename φ ψ)
      (MemPool.object_take b.ordersAtPricePool p q l).symm)
    simp only [φ.injective.eq_iff]
    by_cases hqp : q = p
    · rw [if_pos hqp, if_pos hqp]
    · rw [if_neg hqp, if_neg hqp]
      exact h.level q (hq'.resolve_left hqp)
  · apply (MemPool.used_take c.ordersAtPricePool (φ p) (φ q) _).trans
    rw [φ.injective.eq_iff, h.levelUsed q]
    exact (MemPool.used_take b.ordersAtPricePool p q l).symm

lemma Renamed.takeOrder {p k k' : Nat} {o : BookOrder I} {o' : BookOrder J} (ho : o' = o.rename ψ f)
    (hsound : MemPool.Sound { c.orderPool.take (ψ p) o' with nextFreeIndex := k' }) :
    Renamed φ ψ f (b.setOrderPool { b.orderPool.take p o with nextFreeIndex := k })
      (c.setOrderPool { c.orderPool.take (ψ p) o' with nextFreeIndex := k' }) := by
  subst ho
  refine ⟨h.level, fun q hq => ?_, h.top, h.prices, h.levelUsed, fun q => ?_, h.levelSize, h.levelSound,
    hsound⟩
  · have hq' : q = p ∨ b.orderPool.Used q := (MemPool.used_take _ _ _ _).mp hq
    apply (MemPool.object_take c.orderPool (ψ p) (ψ q) _).trans
    refine Eq.trans ?_ (congrArg (BookOrder.rename ψ f)
      (MemPool.object_take b.orderPool p q o).symm)
    simp only [ψ.injective.eq_iff]
    by_cases hqp : q = p
    · rw [if_pos hqp, if_pos hqp]
    · rw [if_neg hqp, if_neg hqp]
      exact h.order q (hq'.resolve_left hqp)
  · apply (MemPool.used_take c.orderPool (ψ p) (ψ q) _).trans
    rw [ψ.injective.eq_iff, h.orderUsed q]
    exact (MemPool.used_take b.orderPool p q o).symm

end Writes

section Helpers
variable (h : Renamed φ ψ f b c)
include h

lemma Renamed.nextEntry {p : Nat} (hp : b.ordersAtPricePool.Used p) :
    (c.level (φ p)).nextEntry = (b.level p).nextEntry.map φ := by
  rw [h.level p hp]
  rfl

lemma Renamed.prevEntry {p : Nat} (hp : b.ordersAtPricePool.Used p) :
    (c.level (φ p)).prevEntry = (b.level p).prevEntry.map φ := by
  rw [h.level p hp]
  rfl

lemma Renamed.firstOrder {p : Nat} (hp : b.ordersAtPricePool.Used p) :
    (c.level (φ p)).firstOrder = (b.level p).firstOrder.map ψ := by
  rw [h.level p hp]
  rfl

lemma Renamed.levelPrice {p : Nat} (hp : b.ordersAtPricePool.Used p) :
    (c.level (φ p)).price = (b.level p).price := by
  rw [h.level p hp]
  rfl

lemma Renamed.levelSide {p : Nat} (hp : b.ordersAtPricePool.Used p) :
    (c.level (φ p)).side = (b.level p).side := by
  rw [h.level p hp]
  rfl

lemma Renamed.nextOrder {o : Nat} (ho : b.orderPool.Used o) :
    (c.order (ψ o)).nextOrder = (b.order o).nextOrder.map ψ := by
  rw [h.order o ho]
  rfl

lemma Renamed.prevOrder {o : Nat} (ho : b.orderPool.Used o) :
    (c.order (ψ o)).prevOrder = (b.order o).prevOrder.map ψ := by
  rw [h.order o ho]
  rfl

lemma Renamed.orderPrice {o : Nat} (ho : b.orderPool.Used o) :
    (c.order (ψ o)).price = (b.order o).price := by
  rw [h.order o ho]
  rfl

lemma Renamed.orderSide {o : Nat} (ho : b.orderPool.Used o) :
    (c.order (ψ o)).side = (b.order o).side := by
  rw [h.order o ho]
  rfl

lemma Renamed.derefNext {p : Nat} (hp : b.ordersAtPricePool.Used p) :
    Follows (fun q q' => q' = φ q) (deref (b.level p).nextEntry) (deref (c.level (φ p)).nextEntry) := by
  rw [h.nextEntry hp]
  exact follows_deref _

lemma Renamed.derefPrev {p : Nat} (hp : b.ordersAtPricePool.Used p) :
    Follows (fun q q' => q' = φ q) (deref (b.level p).prevEntry) (deref (c.level (φ p)).prevEntry) := by
  rw [h.prevEntry hp]
  exact follows_deref _

/-- The target scan walks both ladders in step. -/
lemma Renamed.findTargetLoop (hclosed : ∀ p q, b.ordersAtPricePool.Used p →
      (b.level p).nextEntry = some q → b.ordersAtPricePool.Used q)
    (side : Side) (price : Price) (best fuel : Nat) {target : Nat} (after : Bool)
    (htarget : b.ordersAtPricePool.Used target) :
    Follows (fun r r' => r' = (φ r.1, r.2) ∧ b.ordersAtPricePool.Used r.1)
      (b.findTargetLoop side price best fuel target after)
      (c.findTargetLoop side price (φ best) fuel (φ target) after) := by
  induction fuel generalizing target after with
  | zero =>
    intro r hr
    cases hr
  | succ fuel ih =>
    simp only [PriceBook.findTargetLoop]
    apply Follows.ite
    · simp [φ.injective.eq_iff]
    · intro _
      apply Follows.ite
      · rw [h.levelPrice htarget]
      · intro _
        apply (h.derefNext htarget).bind
        intro next next' hnext hrel
        rw [hrel]
        exact ih true (hclosed _ _ htarget (deref_eq_ok hnext))
      · intro _
        exact follows_pure ⟨rfl, htarget⟩
    · intro _
      exact follows_pure ⟨rfl, htarget⟩

lemma Renamed.findTarget (hclosed : ∀ p q, b.ordersAtPricePool.Used p →
      (b.level p).nextEntry = some q → b.ordersAtPricePool.Used q)
    (side : Side) (price : Price) {best : Nat} (hbest : b.ordersAtPricePool.Used best) :
    Follows (fun r r' => r' = (φ r.1, r.2) ∧ b.ordersAtPricePool.Used r.1)
      (b.findTarget side price best) (c.findTarget side price (φ best)) := by
  simp only [PriceBook.findTarget, h.levelSize]
  apply Follows.ite
  · rw [h.levelPrice hbest]
  · intro _
    apply (h.derefNext hbest).bind
    intro second second' hsecond hrel
    have hused := hclosed _ _ hbest (deref_eq_ok hsecond)
    rw [hrel, h.levelPrice hused]
    exact h.findTargetLoop hclosed side price best _ _ hused
  · intro _
    exact h.findTargetLoop hclosed side price best _ _ hbest

lemma Renamed.insertAfter (new : Nat) {target : Nat} (htarget : b.ordersAtPricePool.Used target) :
    Follows (Renamed φ ψ f) (b.insertAfter new target) (c.insertAfter (φ new) (φ target)) := by
  have h₁ := h.setPrevEntry new (some target)
  have hused : (b.setPrevEntry new (some target)).ordersAtPricePool.Used target := by simpa using htarget
  unfold PriceBook.insertAfter
  apply (h₁.derefNext hused).bind
  intro after after' _ hafter
  subst hafter
  have h₂ := h₁.setPrevEntry after (some new)
  have hnext := h₂.nextEntry (p := target) (by simpa using htarget)
  have h₃ := h₂.setNextEntry new (((b.setPrevEntry new (some target)).setPrevEntry after
    (some new)).level target).nextEntry
  rw [← hnext] at h₃
  exact follows_pure (h₃.setNextEntry target (some new))

lemma Renamed.insertBefore (new : Nat) {target : Nat} (htarget : b.ordersAtPricePool.Used target) :
    Follows (Renamed φ ψ f) (b.insertBefore new target) (c.insertBefore (φ new) (φ target)) := by
  unfold PriceBook.insertBefore
  rw [h.prevEntry htarget]
  have h₁ := (h.setPrevEntry new (b.level target).prevEntry).setNextEntry new (some target)
  refine (h₁.derefPrev (p := target) (by simpa using htarget)).bind fun before before' _ hbefore => ?_
  subst hbefore
  exact follows_pure ((h₁.setNextEntry before (some new)).setPrevEntry target (some new))

/-- A new level goes to the same place of both ladders, whatever that place is. -/
theorem Renamed.addOrdersAtPrice (htop : ∀ s p, b.top s = some p → b.ordersAtPricePool.Used p)
    (hentries : ∀ p q, b.ordersAtPricePool.Used p →
      (b.level p).nextEntry = some q ∨ (b.level p).prevEntry = some q → b.ordersAtPricePool.Used q)
    {new : Nat} (hnew : b.ordersAtPricePool.Used new) :
    Follows (Renamed φ ψ f) (b.addOrdersAtPrice new) (c.addOrdersAtPrice (φ new)) := by
  unfold PriceBook.addOrdersAtPrice
  simp only [h.levelSide hnew, h.levelPrice hnew]
  generalize (b.level new).side = side
  generalize (b.level new).price = price
  have h₀ : Renamed φ ψ f (b.setOrdersAtPrice price (some new)) (c.setOrdersAtPrice price (some (φ new))) :=
    h.setOrdersAtPrice price (some new)
  have htop₀ : ∀ s p, (b.setOrdersAtPrice price (some new)).top s = some p →
      (b.setOrdersAtPrice price (some new)).ordersAtPricePool.Used p := htop
  have hentries₀ : ∀ p q, (b.setOrdersAtPrice price (some new)).ordersAtPricePool.Used p →
      ((b.setOrdersAtPrice price (some new)).level p).nextEntry = some q ∨
        ((b.setOrdersAtPrice price (some new)).level p).prevEntry = some q →
      (b.setOrdersAtPrice price (some new)).ordersAtPricePool.Used q := hentries
  generalize b.setOrdersAtPrice price (some new) = b₀ at h₀ htop₀ hentries₀ ⊢
  generalize c.setOrdersAtPrice price (some (φ new)) = c₀ at h₀ ⊢
  rw [h₀.top side]
  cases hbest : b₀.top side with
  | none => exact follows_pure (((h₀.setTop side (some new)).setPrevEntry new (some new)).setNextEntry new
      (some new))
  | some best =>
    have hused := htop₀ side best hbest
    have hscan := h₀.findTarget (fun p q hp hq => hentries₀ p q hp (.inl hq)) side price hused
    apply hscan.bind
    intro r r' _ hr
    obtain ⟨target, after⟩ := r
    obtain ⟨rfl, htarget⟩ := hr
    apply Follows.ite Iff.rfl
    · intro _
      apply Follows.ite φ.injective.eq_iff.symm
      · intro _
        apply (h₀.derefPrev hused).bind
        intro last last' hlast hrel
        subst hrel
        exact h₀.insertAfter new (hentries₀ best last hused (.inr (deref_eq_ok hlast)))
      · intro _
        exact h₀.insertAfter new htarget
    · intro _
      apply (h₀.insertBefore new htarget).bind
      intro b₁ c₁ hrun h₁
      have hsame : ∀ p, b₁.ordersAtPricePool.Used p ↔ b₀.ordersAtPricePool.Used p := by
        obtain ⟨before, -, hrun⟩ := bind_eq_ok hrun
        cases hrun
        simp
      have hused₁ := (hsame best).mpr hused
      have htarget₁ := (hsame target).mpr htarget
      apply Follows.ite
      · rw [h₁.levelPrice hused₁]
      · intro _
        have hnext : (if (c₁.level (φ target)).nextEntry = some (φ best) then some (φ new)
            else (c₁.level (φ target)).nextEntry) =
            (if (b₁.level target).nextEntry = some best then some new
              else (b₁.level target).nextEntry).map φ := by
          rw [h₁.nextEntry htarget₁]
          cases (b₁.level target).nextEntry with
          | none => rfl
          | some q =>
            by_cases hq : q = best
            · simp [hq]
            · simp [hq]
        simp only [hnext]
        exact follows_pure ((h₁.setNextEntry target _).setTop side (some new))
      · intro _
        exact follows_pure h₁

theorem Renamed.unlinkOrdersAtPrice (side : Side) {lvl : Nat} (hlvl : b.ordersAtPricePool.Used lvl) :
    Follows (Renamed φ ψ f) (b.unlinkOrdersAtPrice side lvl)
      (c.unlinkOrdersAtPrice side (φ lvl)) := by
  unfold PriceBook.unlinkOrdersAtPrice
  have hmap : ∀ v : Option Nat, v.map φ = some (φ lvl) ↔ v = some lvl := by
    intro v
    cases v <;> simp
  apply Follows.ite
  · rw [h.nextEntry hlvl, hmap]
  · intro _
    exact follows_pure (h.setTop side none)
  · intro _
    apply (h.derefPrev hlvl).bind
    intro before before' _ hbefore
    subst hbefore
    have h₁ := h.setNextEntry before (b.level lvl).nextEntry
    rw [← h.nextEntry hlvl] at h₁
    have hlvl₁ : (b.setNextEntry before (b.level lvl).nextEntry).ordersAtPricePool.Used lvl := by
      simpa using hlvl
    apply (h₁.derefNext hlvl₁).bind
    intro after after' _ hafter
    subst hafter
    have h₂ := h₁.setPrevEntry after ((b.setNextEntry before (b.level lvl).nextEntry).level lvl).prevEntry
    rw [← h₁.prevEntry hlvl₁] at h₂
    refine follows_pure (Renamed.setNextEntry (Renamed.setPrevEntry ?_ lvl none) lvl none)
    have hbest : some (φ lvl) = c.top side ↔ some lvl = b.top side := by
      rw [h.top side, eq_comm, hmap, eq_comm]
    by_cases htop : some lvl = b.top side
    · rw [if_pos htop, if_pos (hbest.mpr htop)]
      have h₃ := h₂.setTop side (((b.setNextEntry before (b.level lvl).nextEntry).setPrevEntry after
        ((b.setNextEntry before (b.level lvl).nextEntry).level lvl).prevEntry).level lvl).nextEntry
      rw [← h₂.nextEntry (by simpa using hlvl)] at h₃
      exact h₃
    · rw [if_neg htop, if_neg (fun e => htop (hbest.mp e))]
      exact h₂

lemma Renamed.getOrdersAtPrice (price : Price) :
    c.getOrdersAtPrice price = (b.getOrdersAtPrice price).map φ :=
  h.prices (priceToIndex price)

theorem Renamed.removeOrdersAtPrice (hprices : ∀ i p, b.priceOrdersAtPrice i = some p →
      b.ordersAtPricePool.Used p) (side : Side) (price : Price) :
    Follows (Renamed φ ψ f) (b.removeOrdersAtPrice side price) (c.removeOrdersAtPrice side price) := by
  unfold PriceBook.removeOrdersAtPrice
  rw [h.getOrdersAtPrice price]
  apply (follows_deref _).bind
  intro lvl lvl' hlvl hrel
  subst hrel
  have hused := hprices _ lvl (deref_eq_ok hlvl)
  apply (h.unlinkOrdersAtPrice side hused).bind
  intro b₁ c₁ _ h₁
  have h₂ : Renamed φ ψ f (b₁.setOrdersAtPrice price none) (c₁.setOrdersAtPrice price none) :=
    h₁.setOrdersAtPrice price none
  refine Follows.bind ?_ fun pool pool' _ hpool => follows_pure hpool
  intro pool hpool
  obtain ⟨hlive, rfl⟩ := MemPool.deallocate_eq_ok hpool
  exact ⟨_, MemPool.deallocate_spec h₂.levelSound ((h₂.levelUsed lvl).mpr hlive), h₂.releaseLevel lvl⟩

/-- The next free blocks of both level pools correspond, so they are taken together. -/
lemma Renamed.allocateLevel (hroom : c.ordersAtPricePool.HasRoom)
    (hnext : φ b.ordersAtPricePool.nextFreeIndex = c.ordersAtPricePool.nextFreeIndex) (l : OrdersAtPrice) :
    Follows (fun r r' => r'.2 = φ r.2 ∧ Renamed φ ψ f (b.setLevelPool r.1) (c.setLevelPool r'.1))
      (b.ordersAtPricePool.allocate l) (c.ordersAtPricePool.allocate (l.rename φ ψ)) := by
  intro r hr
  obtain ⟨pool, p⟩ := r
  obtain ⟨rfl, -, k, rfl⟩ := MemPool.allocate_eq_ok hr
  rcases MemPool.allocate_spec h.levelSound (l.rename φ ψ) with ⟨hfull, -⟩ | ⟨-, k', hrun, hk, hne, hfree⟩
  · exact absurd hroom hfull
  have hsound := h.levelSound.allocated (l.rename φ ψ) hk hne hfree
  refine ⟨_, hrun, hnext.symm, ?_⟩
  rw [← hnext] at hsound ⊢
  exact h.takeLevel hsound

lemma Renamed.allocateOrder (hroom : c.orderPool.HasRoom)
    (hnext : ψ b.orderPool.nextFreeIndex = c.orderPool.nextFreeIndex) {o : BookOrder I}
    {o' : BookOrder J} (ho : o' = o.rename ψ f) :
    Follows (fun r r' => r'.2 = ψ r.2 ∧ Renamed φ ψ f (b.setOrderPool r.1) (c.setOrderPool r'.1))
      (b.orderPool.allocate o) (c.orderPool.allocate o') := by
  intro r hr
  obtain ⟨pool, p⟩ := r
  obtain ⟨rfl, -, k, rfl⟩ := MemPool.allocate_eq_ok hr
  rcases MemPool.allocate_spec h.orderSound o' with ⟨hfull, -⟩ | ⟨-, k', hrun, hk, hne, hfree⟩
  · exact absurd hroom hfull
  have hsound := h.orderSound.allocated o' hk hne hfree
  refine ⟨_, hrun, hnext.symm, ?_⟩
  rw [← hnext] at hsound ⊢
  exact h.takeOrder ho hsound

/-- An order joins the end of the same level, or opens a level at the same place. -/
theorem Renamed.linkOrder (hclosed : b.Closed) (hroom : c.ordersAtPricePool.HasRoom)
    (hnext : φ b.ordersAtPricePool.nextFreeIndex = c.ordersAtPricePool.nextFreeIndex)
    {o : Nat} (ho : b.orderPool.Used o) :
    Follows (Renamed φ ψ f) (b.linkOrder o) (c.linkOrder (ψ o)) := by
  unfold PriceBook.linkOrder
  simp only [h.orderPrice ho, h.getOrdersAtPrice]
  cases hget : b.getOrdersAtPrice (b.order o).price with
  | none =>
    have h₁ : Renamed φ ψ f ((b.setPrevOrder o (some o)).setNextOrder o (some o))
        ((c.setPrevOrder (ψ o) (some (ψ o))).setNextOrder (ψ o) (some (ψ o))) :=
      (h.setPrevOrder o (some o)).setNextOrder o (some o)
    have ho₁ : ((b.setPrevOrder o (some o)).setNextOrder o (some o)).orderPool.Used o := by
      simpa using ho
    have halloc := h₁.allocateLevel hroom hnext ⟨(b.order o).side, (b.order o).price, some o, none, none⟩
    simp only [OrdersAtPrice.rename, Option.map_some, Option.map_none] at halloc
    simp only [Option.map_none, h₁.orderSide ho₁, h₁.orderPrice ho₁, side_modifyOrder, price_modifyOrder,
      implies_true]
    apply halloc.bind
    intro r r' hrun hr
    obtain ⟨pool, n⟩ := r
    obtain ⟨pool', n'⟩ := r'
    obtain ⟨rfl, h₂⟩ := hr
    obtain ⟨rfl, -, k, rfl⟩ := MemPool.allocate_eq_ok hrun
    -- the new level has no neighbours yet, the others lead where they did
    have hused : ∀ p, b.ordersAtPricePool.Used p → MemPool.Used
        { b.ordersAtPricePool.take b.ordersAtPricePool.nextFreeIndex
            ⟨(b.order o).side, (b.order o).price, some o, none, none⟩ with nextFreeIndex := k } p :=
      fun p hp => (MemPool.used_take b.ordersAtPricePool _ p _).mpr (.inr hp)
    refine h₂.addOrdersAtPrice (fun s p hp => hused p (hclosed.top s p hp)) (fun p q hp hpq => ?_) ?_
    · have hobj := MemPool.object_take b.ordersAtPricePool b.ordersAtPricePool.nextFreeIndex p
        ⟨(b.order o).side, (b.order o).price, some o, none, none⟩
      by_cases hpn : p = b.ordersAtPricePool.nextFreeIndex
      · have hlevel := hobj.trans (if_pos hpn)
        rcases hpq with hpq | hpq
        · have hnone := (congrArg OrdersAtPrice.nextEntry hlevel).symm.trans hpq
          cases hnone
        · have hnone := (congrArg OrdersAtPrice.prevEntry hlevel).symm.trans hpq
          cases hnone
      · have hlevel := hobj.trans (if_neg hpn)
        have hp' : b.ordersAtPricePool.Used p :=
          ((MemPool.used_take b.ordersAtPricePool _ p _).mp hp).resolve_left hpn
        refine hused q (hclosed.entries p q hp' ?_)
        exact hpq.imp (congrArg OrdersAtPrice.nextEntry hlevel).symm.trans
          (congrArg OrdersAtPrice.prevEntry hlevel).symm.trans
    · exact (MemPool.used_take b.ordersAtPricePool _ _ _).mpr (.inl rfl)
  | some lvl =>
    have hlvl := hclosed.prices _ lvl hget
    simp only [Option.map_some, h.firstOrder hlvl]
    apply (follows_deref _).bind
    intro first first' hfirst hrel
    subst hrel
    have hfirstUsed := hclosed.first lvl first hlvl (deref_eq_ok hfirst)
    rw [h.prevOrder hfirstUsed]
    apply (follows_deref _).bind
    intro last last' hlast hrel
    subst hrel
    have h₁ := h.setNextOrder last (some o)
    have hfirst₁ : (b.setNextOrder last (some o)).orderPool.Used first := by simpa using hfirstUsed
    have h₂ := h₁.setPrevOrder o ((b.setNextOrder last (some o)).order first).prevOrder
    rw [← h₁.prevOrder hfirst₁] at h₂
    exact follows_pure ((h₂.setNextOrder o (some first)).setPrevOrder first (some o))

/-- An order leaves the same ring, and its level goes with it on both sides. -/
theorem Renamed.unlinkOrder (hprices : ∀ i p, b.priceOrdersAtPrice i = some p →
      b.ordersAtPricePool.Used p) {o : Nat} (ho : b.orderPool.Used o) :
    Follows (Renamed φ ψ f) (b.unlinkOrder o) (c.unlinkOrder (ψ o)) := by
  have hmap : ∀ v : Option Nat, v.map ψ = some (ψ o) ↔ v = some o := by
    intro v
    cases v <;> simp
  unfold PriceBook.unlinkOrder
  simp only [h.orderPrice ho, h.orderSide ho, h.getOrdersAtPrice, h.prevOrder ho, h.nextOrder ho]
  apply Follows.ite (hmap _).symm
  · intro _
    exact h.removeOrdersAtPrice hprices _ _
  · intro _
    apply (follows_deref _).bind
    intro before before' _ hbefore
    subst hbefore
    have h₁ := h.setNextOrder before (b.order o).nextOrder
    apply (follows_deref _).bind
    intro after after' _ hafter
    subst hafter
    have h₂ := h₁.setPrevOrder after (some before)
    rw [Option.map_some] at h₂
    apply (follows_deref _).bind
    intro lvl lvl' hlvl hrel
    subst hrel
    have hused : ((b.setNextOrder before (b.order o).nextOrder).setPrevOrder after
        (some before)).ordersAtPricePool.Used lvl := hprices _ lvl (deref_eq_ok hlvl)
    have hfirst := h₂.firstOrder hused
    refine follows_pure (Renamed.setNextOrder (Renamed.setPrevOrder ?_ o none) o none)
    split
    · rename_i hown
      rw [if_pos (hfirst.trans ((hmap _).mpr hown))]
      exact h₂.setFirstOrder lvl _
    · rename_i hown
      rw [if_neg fun e => hown ((hmap _).mp (hfirst.symm.trans e))]
      exact h₂

end Helpers

section Copies
variable {sh : Shape} {s : Side} [OrderKey I K]

lemma Renamed.levelOk (h : Renamed φ ψ f b c) (hwf : b.WellFormed sh) (hs : s.Trading) {l : LevelShape}
    (hl : l ∈ sh.side s) : c.LevelOk s ⟨φ l.ptr, l.orders.map ψ⟩ := by
  have hok := (hwf.side s hs).level l hl
  have hptr := (hwf.levelUsed l.ptr).mpr (Shape.mem_levelPtrs_of_side hs hl)
  have hused : ∀ o ∈ l.orders, b.orderPool.Used o :=
    fun o ho => (hwf.orderUsed o).mpr (Shape.mem_orders_of_side hs hl ho)
  constructor
  · exact (h.levelSide hptr).trans hok.side
  · rw [h.firstOrder hptr, hok.first, List.head?_map]
  · exact List.map_eq_nil_iff.not.mpr hok.nonempty
  · exact hok.ring.map ψ (fun o ho => h.nextOrder (hused o ho)) fun o ho => h.prevOrder (hused o ho)
  · intro q hq
    obtain ⟨o, ho, rfl⟩ := List.mem_map.mp hq
    exact (h.orderSide (hused o ho)).trans (hok.orderSide o ho)
  · intro q hq
    obtain ⟨o, ho, rfl⟩ := List.mem_map.mp hq
    rw [h.orderPrice (hused o ho), h.levelPrice hptr, hok.orderPrice o ho]

lemma Renamed.sideOk (h : Renamed φ ψ f b c) (hwf : b.WellFormed sh) (hs : s.Trading) :
    c.SideOk s ((sh.rename φ ψ).side s) := by
  have hok := hwf.side s hs
  have hused : ∀ p ∈ (sh.side s).map LevelShape.ptr, b.ordersAtPricePool.Used p := by
    intro p hp
    obtain ⟨l, hl, rfl⟩ := List.mem_map.mp hp
    exact (hwf.levelUsed _).mpr (Shape.mem_levelPtrs_of_side hs hl)
  have hptrs : ((sh.rename φ ψ).side s).map LevelShape.ptr = ((sh.side s).map LevelShape.ptr).map φ := by
    rw [Shape.side_rename, List.map_map, List.map_map]
    rfl
  constructor
  · rw [hptrs]
    exact hok.ring.map φ (fun p hp => h.nextEntry (hused p hp)) fun p hp => h.prevEntry (hused p hp)
  · rw [hptrs, h.top s, hok.top]
    exact List.head?_map.symm
  · rw [hptrs, List.pairwise_map]
    apply hok.sorted.imp_of_mem
    intro p q hp hq hpq
    rwa [h.levelPrice (hused p hp), h.levelPrice (hused q hq)]
  · intro copy hcopy
    rw [Shape.side_rename] at hcopy
    obtain ⟨l, hl, rfl⟩ := List.mem_map.mp hcopy
    exact h.levelOk hwf hs hl

/-- A copy of a well-formed book is well formed when its table is that of the copied orders. -/
theorem Renamed.wellFormed [OrderKey J L] (h : Renamed φ ψ f b c) (hwf : b.WellFormed sh)
    (hkeys : ∀ k q, c.orderTable k = some q ↔ ∃ o ∈ sh.orders, OrderKey.key (f (b.order o).ids) = k ∧ ψ o = q)
    (hin : ∀ o ∈ sh.orders, OrderKey.inTable J (OrderKey.key (f (b.order o).ids)) = true) :
    c.WellFormed (sh.rename φ ψ) := by
  have hids : ∀ o ∈ sh.orders, (c.order (ψ o)).ids = f (b.order o).ids := by
    intro o ho
    rw [h.order o ((hwf.orderUsed o).mpr ho)]
    rfl
  refine ⟨fun s hs => h.sideOk hwf hs, ?_, ?_, h.levelSound, h.orderSound, fun p => ?_, fun o => ?_, fun i p => ?_,
    fun k q => ?_, fun q hq => ?_⟩
  · rw [Shape.levelPtrs_rename]
    exact hwf.levelsNodup.map φ.injective
  · rw [Shape.orders_rename]
    exact hwf.ordersNodup.map ψ.injective
  · obtain ⟨p, rfl⟩ := φ.surjective p
    rw [h.levelUsed p, hwf.levelUsed p, Shape.levelPtrs_rename, List.mem_map_of_injective φ.injective]
  · obtain ⟨o, rfl⟩ := ψ.surjective o
    rw [h.orderUsed o, hwf.orderUsed o, Shape.orders_rename, List.mem_map_of_injective ψ.injective]
  · obtain ⟨p, rfl⟩ := φ.surjective p
    have hslot : b.priceOrdersAtPrice i = some p ↔ p ∈ sh.levelPtrs ∧ priceToIndex (c.level (φ p)).price = i := by
      rw [hwf.prices i p]
      apply and_congr_right
      intro hp
      rw [h.levelPrice ((hwf.levelUsed p).mpr hp)]
    rw [h.prices i, Shape.levelPtrs_rename, List.mem_map_of_injective φ.injective, ← hslot]
    cases b.priceOrdersAtPrice i with
    | none => simp
    | some r => simp
  · rw [hkeys k q, Shape.orders_rename, List.mem_map]
    constructor
    · rintro ⟨o, ho, hk, rfl⟩
      rw [hids o ho]
      exact ⟨⟨o, ho, rfl⟩, hk⟩
    · rintro ⟨⟨o, ho, rfl⟩, hk⟩
      rw [hids o ho] at hk
      exact ⟨o, ho, hk, rfl⟩
  · rw [Shape.orders_rename] at hq
    obtain ⟨o, ho, rfl⟩ := List.mem_map.mp hq
    rw [hids o ho]
    exact hin o ho

end Copies

end PriceBook
end LowLatencyExchange
