import LowLatencyExchange.Book.Frames

/-!
# Where the pointers to orders lead

Also in a heap whose rings are torn, a pointer to an order is one that a call put there. So
every such pointer leads to a block of `G` when every order that was ever linked lies in `G`.
-/

namespace LowLatencyExchange
namespace PriceBook
variable {I K : Type} {b b' : PriceBook I K} {G : Nat → Prop}

structure OrdersIn (G : Nat → Prop) (b : PriceBook I K) : Prop where
  first : ∀ p o, (b.level p).firstOrder = some o → G o
  next : ∀ o q, (b.order o).nextOrder = some q → G q
  prev : ∀ o q, (b.order o).prevOrder = some q → G q
  table : ∀ k o, b.orderTable k = some o → G o

lemma OrdersIn.mono {G' : Nat → Prop} (h : b.OrdersIn G) (hG : ∀ o, G o → G' o) : b.OrdersIn G' where
  first := fun p o ho => hG o (h.first p o ho)
  next := fun o q hq => hG q (h.next o q hq)
  prev := fun o q hq => hG q (h.prev o q hq)
  table := fun k o ho => hG o (h.table k o ho)

/-- Levels are spliced without a look at their orders. -/
lemma OrdersIn.congr (h : b.OrdersIn G) (hlevel : ∀ p, (b'.level p).unlinked = (b.level p).unlinked)
    (hheap : SameOrderHeap b b') : b'.OrdersIn G := by
  have horder : ∀ o, b'.order o = b.order o := fun o => by rw [order, order, hheap.1]
  refine ⟨fun p o ho => ?_, fun o q hq => ?_, fun o q hq => ?_, fun k o ho => ?_⟩
  · rw [(OrdersAtPrice.unlinked_eq_iff.mp (hlevel p)).2.2] at ho
    exact h.first p o ho
  · rw [horder] at hq
    exact h.next o q hq
  · rw [horder] at hq
    exact h.prev o q hq
  · rw [hheap.2] at ho
    exact h.table k o ho

lemma OrdersIn.modifyOrder (h : b.OrdersIn G) (p : Nat) {g : BookOrder I → BookOrder I}
    (hnext : ∀ q, (g (b.order p)).nextOrder = some q → G q)
    (hprev : ∀ q, (g (b.order p)).prevOrder = some q → G q) : (b.modifyOrder p g).OrdersIn G := by
  refine ⟨h.first, fun o q hq => ?_, fun o q hq => ?_, h.table⟩
  · rw [order_modifyOrder] at hq
    split at hq
    · rename_i ho
      exact hnext q (ho ▸ hq)
    · exact h.next o q hq
  · rw [order_modifyOrder] at hq
    split at hq
    · rename_i ho
      exact hprev q (ho ▸ hq)
    · exact h.prev o q hq

lemma OrdersIn.setNextOrder (h : b.OrdersIn G) (p : Nat) {v : Option Nat} (hv : ∀ q, v = some q → G q) :
    (b.setNextOrder p v).OrdersIn G := h.modifyOrder p hv (h.prev p)

lemma OrdersIn.setPrevOrder (h : b.OrdersIn G) (p : Nat) {v : Option Nat} (hv : ∀ q, v = some q → G q) :
    (b.setPrevOrder p v).OrdersIn G := h.modifyOrder p (h.next p) hv

lemma OrdersIn.setQty (h : b.OrdersIn G) (p : Nat) (qty : Qty) : (b.setQty p qty).OrdersIn G :=
  h.modifyOrder p (h.next p) (h.prev p)

lemma OrdersIn.setFirstOrder (h : b.OrdersIn G) (p : Nat) {v : Option Nat} (hv : ∀ q, v = some q → G q) :
    (b.setFirstOrder p v).OrdersIn G := by
  refine ⟨fun l o ho => ?_, h.next, h.prev, h.table⟩
  rw [firstOrder_setFirstOrder] at ho
  split at ho
  · exact hv o ho
  · exact h.first l o ho

lemma OrdersIn.releaseOrder (h : b.OrdersIn G) (o : Nat) :
    (b.setOrderPool (b.orderPool.release o)).OrdersIn G := by
  refine ⟨h.first, fun p q hq => ?_, fun p q hq => ?_, h.table⟩
  · rw [order_setOrderPool, MemPool.object_release] at hq
    exact h.next p q hq
  · rw [order_setOrderPool, MemPool.object_release] at hq
    exact h.prev p q hq

/-- A fresh order points nowhere. -/
lemma OrdersIn.takeOrder (h : b.OrdersIn G) {obj : BookOrder I} {pool : MemPool (BookOrder I)} {o : Nat}
    (hnext : obj.nextOrder = none) (hprev : obj.prevOrder = none)
    (halloc : b.orderPool.allocate obj = .ok (pool, o)) : (b.setOrderPool pool).OrdersIn G := by
  refine ⟨h.first, fun p q hq => ?_, fun p q hq => ?_, h.table⟩
  · rw [order_setOrderPool, MemPool.object_allocate halloc] at hq
    split at hq
    · cases hnext.symm.trans hq
    · exact h.next p q hq
  · rw [order_setOrderPool, MemPool.object_allocate halloc] at hq
    split at hq
    · cases hprev.symm.trans hq
    · exact h.prev p q hq

lemma OrdersIn.takeLevel (h : b.OrdersIn G) {l : OrdersAtPrice} {pool : MemPool OrdersAtPrice} {n : Nat}
    (hl : ∀ o, l.firstOrder = some o → G o) (halloc : b.ordersAtPricePool.allocate l = .ok (pool, n)) :
    (b.setLevelPool pool).OrdersIn G := by
  refine ⟨fun p o ho => ?_, h.next, h.prev, h.table⟩
  rw [level_setLevelPool, MemPool.object_allocate halloc] at ho
  split at ho
  · exact hl o ho
  · exact h.first p o ho

lemma OrdersIn.removeOrdersAtPrice (h : b.OrdersIn G) {side : Side} {price : Price}
    (hrun : b.removeOrdersAtPrice side price = .ok b') : b'.OrdersIn G := by
  have hheap := (removeOrdersAtPrice_frame hrun).1
  obtain ⟨lvl, -, hrun⟩ := bind_eq_ok hrun
  obtain ⟨b₁, hb₁, hrun⟩ := bind_eq_ok hrun
  obtain ⟨pool, hpool, hrun⟩ := bind_eq_ok hrun
  cases hrun
  obtain ⟨-, rfl⟩ := MemPool.deallocate_eq_ok hpool
  refine h.congr (fun p => ?_) hheap
  rw [level_setLevelPool, MemPool.object_release]
  exact (unlinkOrdersAtPrice_unlink hb₁).data p

lemma OrdersIn.unlinkOrder (h : b.OrdersIn G) {o : Nat} (hrun : b.unlinkOrder o = .ok b') :
    b'.OrdersIn G := by
  simp only [PriceBook.unlinkOrder] at hrun
  split at hrun
  · exact h.removeOrdersAtPrice hrun
  · obtain ⟨before, hbefore, hrun⟩ := bind_eq_ok hrun
    obtain ⟨after, -, hrun⟩ := bind_eq_ok hrun
    obtain ⟨lvl, -, hrun⟩ := bind_eq_ok hrun
    cases hrun
    have hprev : G before := h.prev o before (deref_eq_ok hbefore)
    have hnext : ∀ q, (b.order o).nextOrder = some q → G q := h.next o
    have hpair : ((b.setNextOrder before (b.order o).nextOrder).setPrevOrder after (some before)).OrdersIn G :=
      (h.setNextOrder before hnext).setPrevOrder after fun q hq => Option.some.inj hq ▸ hprev
    have hnone : ∀ q, none = some q → G q := fun q hq => absurd hq.symm (Option.some_ne_none q)
    split
    · exact ((hpair.setFirstOrder lvl hnext).setPrevOrder o hnone).setNextOrder o hnone
    · exact (hpair.setPrevOrder o hnone).setNextOrder o hnone

lemma OrdersIn.linkOrder (h : b.OrdersIn G) {o : Nat} (ho : G o) (hrun : b.linkOrder o = .ok b') :
    b'.OrdersIn G := by
  have hself : ∀ q, some o = some q → G q := fun q hq => Option.some.inj hq ▸ ho
  simp only [PriceBook.linkOrder] at hrun
  split at hrun
  · obtain ⟨⟨pool, lvl⟩, hpool, hrun⟩ := bind_eq_ok hrun
    have hring := ((h.setPrevOrder o hself).setNextOrder o hself).takeLevel hself hpool
    exact hring.congr (addOrdersAtPrice_ladder hrun).data (addOrdersAtPrice_frame hrun)
  · obtain ⟨first, hfirst, hrun⟩ := bind_eq_ok hrun
    obtain ⟨last, -, hrun⟩ := bind_eq_ok hrun
    cases hrun
    rename_i lvl _ _
    have hfirst : ∀ q, some first = some q → G q := fun q hq =>
      Option.some.inj hq ▸ h.first lvl first (deref_eq_ok hfirst)
    have hlast : ∀ q, ((b.setNextOrder last (some o)).order first).prevOrder = some q → G q :=
      (h.setNextOrder last hself).prev first
    exact (((h.setNextOrder last hself).setPrevOrder o hlast).setNextOrder o hfirst).setPrevOrder first hself

section Keys
variable [DecidableEq K] [OrderKey I K]

omit [OrderKey I K] in
lemma OrdersIn.setKey (h : b.OrdersIn G) (k : K) {v : Option Nat} (hv : ∀ q, v = some q → G q) :
    (b.setKey k v).OrdersIn G := by
  refine ⟨h.first, h.next, h.prev, fun k' o ho => ?_⟩
  rw [table_setKey, Function.update_apply] at ho
  split at ho
  · exact hv o ho
  · exact h.table k' o ho

lemma OrdersIn.addOrder (h : b.OrdersIn G) {o : Nat} (ho : G o) (hrun : b.addOrder o = .ok b') :
    b'.OrdersIn G := by
  obtain ⟨b₁, hb₁, rfl⟩ := addOrder_ok hrun
  exact (h.linkOrder ho hb₁).setKey _ fun q hq => Option.some.inj hq ▸ ho

lemma OrdersIn.removeOrder (h : b.OrdersIn G) {o : Nat} (hrun : b.removeOrder o = .ok b') :
    b'.OrdersIn G := by
  obtain ⟨b₁, pool, hb₁, hpool, rfl⟩ := removeOrder_ok hrun
  obtain ⟨-, rfl⟩ := MemPool.deallocate_eq_ok hpool
  have hnone : ∀ q, none = some q → G q := fun q hq => absurd hq.symm (Option.some_ne_none q)
  exact ((h.unlinkOrder hb₁).setKey _ hnone).releaseOrder o

end Keys
end PriceBook
end LowLatencyExchange
