import LowLatencyExchange.Book.Frames
import LowLatencyExchange.Library.Simulation

/-!
# What a book is without its identifiers

The helpers that splice levels and orders read no identifier and no key: on the skeleton of
a book they do what they do on the book.
-/

namespace LowLatencyExchange
open Simulation

def ObjectBlock.map {T U : Type} (f : T → U) (x : ObjectBlock T) : ObjectBlock U :=
  ⟨f x.object, x.isFree⟩

namespace MemPool
variable {T U : Type}

def map (f : T → U) (p : MemPool T) : MemPool U where
  store := fun i => (p.store i).map f
  size := p.size
  nextFreeIndex := p.nextFreeIndex

lemma map_modify (f : T → U) {g : T → T} {g' : U → U} (hg : ∀ x, g' (f x) = f (g x)) (p : MemPool T)
    (i : Nat) : (p.map f).modify i g' = (p.modify i g).map f := by
  simp only [map, modify, object, ObjectBlock.map, hg, mk.injEq, and_self, and_true]
  funext j
  by_cases hj : j = i
  · simp [hj]
  · simp [hj]

lemma map_take (f : T → U) (p : MemPool T) (i : Nat) (x : T) :
    (p.map f).take i (f x) = (p.take i x).map f := by
  simp only [map, take, mk.injEq, and_self, and_true]
  funext j
  by_cases hj : j = i
  · simp [hj, ObjectBlock.map]
  · simp [hj]

lemma map_updateNextFreeIndexLoop (f : T → U) (p : MemPool T) (initial fuel i : Nat) :
    (p.map f).updateNextFreeIndexLoop initial fuel i = p.updateNextFreeIndexLoop initial fuel i := by
  induction fuel generalizing i with
  | zero => rfl
  | succ fuel ih =>
    simp only [updateNextFreeIndexLoop, ih]
    rfl

lemma map_allocate (f : T → U) (p : MemPool T) (x : T) :
    (p.map f).allocate (f x) = (fun r => (r.1.map f, r.2)) <$> p.allocate x := by
  have hstart : (p.map f).nextFreeIndex = p.nextFreeIndex := rfl
  have hfree : ((p.map f).store p.nextFreeIndex).isFree = (p.store p.nextFreeIndex).isFree := rfl
  have hnext : ((p.take p.nextFreeIndex x).map f).updateNextFreeIndex =
      MemPool.map f <$> (p.take p.nextFreeIndex x).updateNextFreeIndex := by
    simp only [updateNextFreeIndex, map_bind]
    rw [map_updateNextFreeIndexLoop]
    rfl
  simp only [allocate, map_bind]
  rw [hstart, hfree]
  apply bind_congr
  intro _
  rw [map_take]
  simp only [hnext, bind_map_left]
  rfl

lemma map_deallocate (f : T → U) (p : MemPool T) (i : Nat) :
    (p.map f).deallocate i = MemPool.map f <$> p.deallocate i := by
  have hrelease : (p.map f).release i = (p.release i).map f := by
    simp only [map, release, object, ObjectBlock.map, mk.injEq, and_self, and_true]
    funext j
    by_cases hj : j = i
    · simp [hj]
    · simp [hj]
  simp only [deallocate, map_bind, hrelease]
  rfl

end MemPool

def BookOrder.skeleton {I : Type} (o : BookOrder I) : BookOrder Unit :=
  ⟨(), o.side, o.price, o.qty, o.priority, o.prevOrder, o.nextOrder⟩

namespace PriceBook
variable {I J K L : Type} {b : PriceBook I K} {c : PriceBook J L}

def skeleton (b : PriceBook I K) : PriceBook Unit Unit where
  ordersAtPricePool := b.ordersAtPricePool
  bidsByPrice := b.bidsByPrice
  asksByPrice := b.asksByPrice
  priceOrdersAtPrice := b.priceOrdersAtPrice
  orderPool := b.orderPool.map BookOrder.skeleton
  orderTable := fun _ => none

section Writes
variable (b : PriceBook I K) (p : Nat) (v : Option Nat)

@[simp] lemma level_skeleton : b.skeleton.level p = b.level p := rfl
@[simp] lemma prevOrder_skeleton : (b.skeleton.order p).prevOrder = (b.order p).prevOrder := rfl
@[simp] lemma nextOrder_skeleton : (b.skeleton.order p).nextOrder = (b.order p).nextOrder := rfl
@[simp] lemma side_skeleton : (b.skeleton.order p).side = (b.order p).side := rfl
@[simp] lemma price_skeleton : (b.skeleton.order p).price = (b.order p).price := rfl
@[simp] lemma qty_skeleton : (b.skeleton.order p).qty = (b.order p).qty := rfl
@[simp] lemma priority_skeleton : (b.skeleton.order p).priority = (b.order p).priority := rfl
@[simp] lemma top_skeleton (s : Side) : b.skeleton.top s = b.top s := rfl
@[simp] lemma getOrdersAtPrice_skeleton (price : Price) :
    b.skeleton.getOrdersAtPrice price = b.getOrdersAtPrice price := rfl

lemma skeleton_modifyLevel (g : OrdersAtPrice → OrdersAtPrice) :
    (b.modifyLevel p g).skeleton = b.skeleton.modifyLevel p g := rfl

lemma skeleton_modifyOrder {g : BookOrder I → BookOrder I} {g' : BookOrder Unit → BookOrder Unit}
    (hg : ∀ o, g' o.skeleton = (g o).skeleton) :
    (b.modifyOrder p g).skeleton = b.skeleton.modifyOrder p g' := by
  simp only [skeleton, modifyOrder, MemPool.map_modify BookOrder.skeleton hg]

lemma skeleton_setNextOrder : (b.setNextOrder p v).skeleton = b.skeleton.setNextOrder p v :=
  b.skeleton_modifyOrder p fun _ => rfl

lemma skeleton_setPrevOrder : (b.setPrevOrder p v).skeleton = b.skeleton.setPrevOrder p v :=
  b.skeleton_modifyOrder p fun _ => rfl

lemma skeleton_setQty (qty : Qty) : (b.setQty p qty).skeleton = b.skeleton.setQty p qty :=
  b.skeleton_modifyOrder p fun _ => rfl

lemma skeleton_setTop (s : Side) : (b.setTop s v).skeleton = b.skeleton.setTop s v := by
  unfold setTop
  split <;> rfl

end Writes

lemma skeleton_findTargetLoop (side : Side) (price : Price) (best fuel target : Nat) (after : Bool) :
    b.skeleton.findTargetLoop side price best fuel target after =
      b.findTargetLoop side price best fuel target after := by
  induction fuel generalizing target after with
  | zero => rfl
  | succ fuel ih =>
    simp only [findTargetLoop, ih]
    rfl

lemma skeleton_findTarget (side : Side) (price : Price) (best : Nat) :
    b.skeleton.findTarget side price best = b.findTarget side price best := by
  simp only [findTarget, skeleton_findTargetLoop]
  rfl

lemma skeleton_insertAfter (new target : Nat) :
    b.skeleton.insertAfter new target = skeleton <$> b.insertAfter new target := by
  simp only [insertAfter, map_bind, map_pure, skeleton_modifyLevel]
  rfl

lemma skeleton_insertBefore (new target : Nat) :
    b.skeleton.insertBefore new target = skeleton <$> b.insertBefore new target := by
  simp only [insertBefore, map_bind, map_pure, skeleton_modifyLevel]
  rfl

lemma skeleton_setOrdersAtPrice (price : Price) (v : Option Nat) :
    (b.setOrdersAtPrice price v).skeleton = b.skeleton.setOrdersAtPrice price v := rfl

lemma skeleton_addOrdersAtPrice (new : Nat) :
    b.skeleton.addOrdersAtPrice new = skeleton <$> b.addOrdersAtPrice new := by
  simp only [addOrdersAtPrice]
  rw [level_skeleton, ← skeleton_setOrdersAtPrice]
  generalize (b.level new).side = side
  generalize (b.level new).price = price
  generalize b.setOrdersAtPrice price (some new) = b₀
  rw [top_skeleton]
  cases b₀.top side with
  | none => rw [map_pure, skeleton_modifyLevel, skeleton_modifyLevel, skeleton_setTop]
  | some best =>
    dsimp only
    rw [skeleton_findTarget, map_bind]
    apply bind_congr
    intro r
    obtain ⟨target, after⟩ := r
    cases after with
    | true =>
      by_cases hbest : target = best
      · simp only [if_pos hbest, if_true, map_bind, skeleton_insertAfter, level_skeleton]
      · simp only [if_neg hbest, if_true, map_bind, skeleton_insertAfter]
    | false =>
      simp only [Bool.false_eq_true, if_false, skeleton_insertBefore, bind_map_left, map_bind]
      apply bind_congr
      intro b₁
      rw [level_skeleton, level_skeleton]
      split
      · rw [map_pure, skeleton_setTop, skeleton_modifyLevel]
      · rw [map_pure]

lemma skeleton_unlinkOrdersAtPrice (side : Side) (lvl : Nat) :
    b.skeleton.unlinkOrdersAtPrice side lvl = skeleton <$> b.unlinkOrdersAtPrice side lvl := by
  unfold unlinkOrdersAtPrice
  rw [top_skeleton, level_skeleton]
  by_cases hself : (b.level lvl).nextEntry = some lvl
  · simp only [if_pos hself, map_pure, skeleton_setTop]
  · simp only [if_neg hself, map_bind]
    refine bind_congr fun before => bind_congr fun after => ?_
    rw [map_pure, skeleton_modifyLevel, skeleton_modifyLevel]
    split
    · rw [skeleton_setTop]
      rfl
    · rfl

lemma skeleton_removeOrdersAtPrice (side : Side) (price : Price) :
    b.skeleton.removeOrdersAtPrice side price = skeleton <$> b.removeOrdersAtPrice side price := by
  simp only [removeOrdersAtPrice, getOrdersAtPrice_skeleton, skeleton_unlinkOrdersAtPrice, map_bind,
    bind_map_left]
  rfl

lemma skeleton_linkOrder (o : Nat) : b.skeleton.linkOrder o = skeleton <$> b.linkOrder o := by
  simp only [linkOrder]
  rw [price_skeleton, getOrdersAtPrice_skeleton]
  cases b.getOrdersAtPrice (b.order o).price with
  | none =>
    dsimp only
    rw [← skeleton_setPrevOrder, ← skeleton_setNextOrder, map_bind]
    apply bind_congr
    intro r
    rw [← skeleton_addOrdersAtPrice]
    rfl
  | some lvl =>
    dsimp only
    rw [level_skeleton, map_bind]
    apply bind_congr
    intro first
    rw [prevOrder_skeleton, map_bind]
    apply bind_congr
    intro last
    rw [← skeleton_setNextOrder, prevOrder_skeleton, ← skeleton_setPrevOrder, ← skeleton_setNextOrder,
      ← skeleton_setPrevOrder]
    rfl

lemma skeleton_unlinkOrder (o : Nat) : b.skeleton.unlinkOrder o = skeleton <$> b.unlinkOrder o := by
  simp only [unlinkOrder]
  rw [prevOrder_skeleton, nextOrder_skeleton, side_skeleton, price_skeleton, getOrdersAtPrice_skeleton]
  by_cases hself : (b.order o).prevOrder = some o
  · rw [if_pos hself, if_pos hself]
    exact b.skeleton_removeOrdersAtPrice _ _
  · rw [if_neg hself, if_neg hself, map_bind]
    apply bind_congr
    intro before
    rw [map_bind]
    apply bind_congr
    intro after
    rw [map_bind]
    apply bind_congr
    intro lvl
    rw [← skeleton_setNextOrder, ← skeleton_setPrevOrder, level_skeleton, map_pure]
    generalize (b.setNextOrder before (b.order o).nextOrder).setPrevOrder after (some before) = b₁
    rw [skeleton_setNextOrder, skeleton_setPrevOrder]
    split
    · rw [skeleton_modifyLevel]
    · rfl

/-- What runs the same on the skeletons runs alike on the books. -/
lemma follows_of_map {x : Except Fault (PriceBook I K)} {y : Except Fault (PriceBook J L)}
    (h : skeleton <$> y = skeleton <$> x) : Follows (fun b c => c.skeleton = b.skeleton) x y := by
  intro b' hb'
  rw [hb'] at h
  cases hy : y with
  | error e =>
    rw [hy] at h
    cases h
  | ok c' =>
    rw [hy] at h
    exact ⟨c', rfl, Except.ok.inj h⟩

lemma follows_linkOrder (h : c.skeleton = b.skeleton) (o : Nat) :
    Follows (fun b c => c.skeleton = b.skeleton) (b.linkOrder o) (c.linkOrder o) :=
  follows_of_map (by rw [← skeleton_linkOrder, h, skeleton_linkOrder])

lemma follows_unlinkOrder (h : c.skeleton = b.skeleton) (o : Nat) :
    Follows (fun b c => c.skeleton = b.skeleton) (b.unlinkOrder o) (c.unlinkOrder o) :=
  follows_of_map (by rw [← skeleton_unlinkOrder, h, skeleton_unlinkOrder])

lemma orderPool_of_skeleton (h : c.skeleton = b.skeleton) :
    c.orderPool.map BookOrder.skeleton = b.orderPool.map BookOrder.skeleton :=
  congrArg PriceBook.orderPool h

lemma setOrderPool_of_skeleton (h : c.skeleton = b.skeleton) {pool : MemPool (BookOrder I)}
    {pool' : MemPool (BookOrder J)} (hpool : pool'.map BookOrder.skeleton = pool.map BookOrder.skeleton) :
    (c.setOrderPool pool').skeleton = (b.setOrderPool pool).skeleton := by
  have hset : ∀ d : PriceBook Unit Unit, d = b.skeleton →
      d.setOrderPool (pool'.map BookOrder.skeleton) = b.skeleton.setOrderPool (pool.map BookOrder.skeleton) := by
    rintro _ rfl
    rw [hpool]
  exact hset c.skeleton h

lemma follows_allocate (h : c.skeleton = b.skeleton) {x : BookOrder I} {y : BookOrder J}
    (hxy : y.skeleton = x.skeleton) :
    Follows (fun r r' => r'.2 = r.2 ∧ (c.setOrderPool r'.1).skeleton = (b.setOrderPool r.1).skeleton)
      (b.orderPool.allocate x) (c.orderPool.allocate y) := by
  intro r hr
  have hmap := MemPool.map_allocate BookOrder.skeleton c.orderPool y
  rw [orderPool_of_skeleton h, hxy, MemPool.map_allocate, hr] at hmap
  cases hc : c.orderPool.allocate y with
  | error e =>
    rw [hc] at hmap
    cases hmap
  | ok r' =>
    rw [hc] at hmap
    have heq := Except.ok.inj hmap
    exact ⟨r', rfl, (congrArg Prod.snd heq).symm, setOrderPool_of_skeleton h (congrArg Prod.fst heq).symm⟩

lemma follows_deallocate (h : c.skeleton = b.skeleton) (o : Nat) :
    Follows (fun p p' => (c.setOrderPool p').skeleton = (b.setOrderPool p).skeleton)
      (b.orderPool.deallocate o) (c.orderPool.deallocate o) := by
  intro pool hpool
  have hmap := MemPool.map_deallocate BookOrder.skeleton c.orderPool o
  rw [orderPool_of_skeleton h, MemPool.map_deallocate, hpool] at hmap
  cases hc : c.orderPool.deallocate o with
  | error e =>
    rw [hc] at hmap
    cases hmap
  | ok pool' =>
    rw [hc] at hmap
    exact ⟨pool', rfl, setOrderPool_of_skeleton h (Except.ok.inj hmap).symm⟩

end PriceBook
end LowLatencyExchange
