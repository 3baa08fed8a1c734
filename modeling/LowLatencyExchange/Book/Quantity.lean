import LowLatencyExchange.Book.Frames

/-!
# Writes to a quantity

A fill writes the quantity of a resting order. The write keeps a book well-formed as long as
the order keeps some quantity, and the removal of an order does not look at quantities, so a
write before it and a write after it come to the same.
-/

namespace LowLatencyExchange
/-- A write to an object and the release of a block commute. -/
lemma MemPool.release_modify {T : Type} (p : MemPool T) (i j : Nat) (f : T → T) :
    (p.modify j f).release i = (p.release i).modify j f := by
  simp only [release, modify, object, mk.injEq, and_true]
  funext q
  by_cases hi : q = i <;> by_cases hj : q = j <;> simp_all [Function.update_apply]

lemma MemPool.deallocate_modify {T : Type} {p p' : MemPool T} {i j : Nat} {f : T → T}
    (h : p.deallocate i = .ok p') : (p.modify j f).deallocate i = .ok (p'.modify j f) := by
  have hfree : ((p.modify j f).store i).isFree = (p.store i).isFree := by
    by_cases hij : i = j <;> simp [modify, hij]
  obtain ⟨_, hlt, h⟩ := bind_eq_ok h
  obtain ⟨_, hused, h⟩ := bind_eq_ok h
  cases h
  simp only [deallocate, hfree, hused]
  rw [size_modify, hlt, ok_bind, ok_bind, release_modify]
  rfl

namespace PriceBook
variable {I K : Type} {b b' : PriceBook I K} {o : Nat} {qty : Qty}

/-- A link write and a quantity write commute. -/
lemma setQty_modifyOrder {p : Nat} {f : BookOrder I → BookOrder I}
    (hf : ∀ x : BookOrder I, f { x with qty := qty } = { f x with qty := qty }) :
    (b.setQty o qty).modifyOrder p f = (b.modifyOrder p f).setQty o qty := by
  simp only [modifyOrder, MemPool.modify, MemPool.object]
  congr 2
  funext q
  by_cases hq : q = o <;> by_cases hp : q = p <;> simp_all [Function.update_apply]

lemma setQty_setNextOrder (p : Nat) (v : Option Nat) :
    (b.setQty o qty).setNextOrder p v = (b.setNextOrder p v).setQty o qty :=
  setQty_modifyOrder fun _ => rfl

lemma setQty_setPrevOrder (p : Nat) (v : Option Nat) :
    (b.setQty o qty).setPrevOrder p v = (b.setPrevOrder p v).setQty o qty :=
  setQty_modifyOrder fun _ => rfl

lemma setQty_setTop (s : Side) (v : Option Nat) :
    (b.setQty o qty).setTop s v = (b.setTop s v).setQty o qty := by
  simp only [setTop]; split <;> rfl

@[simp] lemma side_setQty (q : Nat) : ((b.setQty o qty).order q).side = (b.order q).side := by
  rw [order_modifyOrder]; split <;> rfl
@[simp] lemma price_setQty (q : Nat) : ((b.setQty o qty).order q).price = (b.order q).price := by
  rw [order_modifyOrder]; split <;> rfl
@[simp] lemma ids_setQty (q : Nat) : ((b.setQty o qty).order q).ids = (b.order q).ids := by
  rw [order_modifyOrder]; split <;> rfl
@[simp] lemma priority_setQty (q : Nat) :
    ((b.setQty o qty).order q).priority = (b.order q).priority := by
  rw [order_modifyOrder]; split <;> rfl

lemma unlinkOrdersAtPrice_setQty {s : Side} {lvl : Nat} (h : b.unlinkOrdersAtPrice s lvl = .ok b') :
    (b.setQty o qty).unlinkOrdersAtPrice s lvl = .ok (b'.setQty o qty) := by
  simp only [unlinkOrdersAtPrice] at h ⊢
  by_cases hself : (b.level lvl).nextEntry = some lvl
  · rw [if_pos hself] at h
    rw [if_pos (by simpa using hself)]
    cases h
    rw [setQty_setTop]
    rfl
  · rw [if_neg hself] at h
    rw [if_neg (by simpa using hself)]
    obtain ⟨before, hbefore, h⟩ := bind_eq_ok h
    obtain ⟨after, hafter, h⟩ := bind_eq_ok h
    cases h
    have hafter' : deref (((b.setQty o qty).setNextEntry before
        ((b.setQty o qty).level lvl).nextEntry).level lvl).nextEntry = .ok after := hafter
    rw [show deref ((b.setQty o qty).level lvl).prevEntry = .ok before from hbefore, ok_bind, hafter',
      ok_bind]
    by_cases htop : some lvl = b.top s
    · rw [if_pos htop, if_pos (show some lvl = (b.setQty o qty).top s from htop)]
      have hmove : ∀ (c : PriceBook I K) v,
          (((c.setQty o qty).setTop s v).setPrevEntry lvl none).setNextEntry lvl none =
          (((c.setTop s v).setPrevEntry lvl none).setNextEntry lvl none).setQty o qty :=
        fun c v => by rw [setQty_setTop]; rfl
      exact congrArg Except.ok (hmove ((b.setNextEntry before (b.level lvl).nextEntry).setPrevEntry after
        ((b.setNextEntry before (b.level lvl).nextEntry).level lvl).prevEntry) _)
    · rw [if_neg htop, if_neg (show ¬some lvl = (b.setQty o qty).top s from htop)]
      rfl

lemma removeOrdersAtPrice_setQty {s : Side} {price : Price}
    (h : b.removeOrdersAtPrice s price = .ok b') :
    (b.setQty o qty).removeOrdersAtPrice s price = .ok (b'.setQty o qty) := by
  simp only [removeOrdersAtPrice] at h ⊢
  obtain ⟨lvl, hlvl, h⟩ := bind_eq_ok h
  obtain ⟨b₁, hb₁, h⟩ := bind_eq_ok h
  obtain ⟨pool, hpool, h⟩ := bind_eq_ok h
  cases h
  have hpool' : ((b₁.setQty o qty).setOrdersAtPrice price none).ordersAtPricePool.deallocate lvl =
      .ok pool := hpool
  rw [show deref ((b.setQty o qty).getOrdersAtPrice price) = .ok lvl from hlvl, ok_bind,
    unlinkOrdersAtPrice_setQty hb₁, ok_bind, hpool', ok_bind]
  rfl

lemma unlinkOrder_setQty {p : Nat} (h : b.unlinkOrder p = .ok b') :
    (b.setQty o qty).unlinkOrder p = .ok (b'.setQty o qty) := by
  simp only [unlinkOrder, price_setQty, side_setQty] at h ⊢
  have hprev : ((b.setQty o qty).order p).prevOrder = (b.order p).prevOrder := by simp
  have hnext : ((b.setQty o qty).order p).nextOrder = (b.order p).nextOrder := by simp
  rw [hprev, hnext]
  by_cases halone : (b.order p).prevOrder = some p
  · rw [if_pos halone] at h ⊢
    exact removeOrdersAtPrice_setQty h
  · rw [if_neg halone] at h ⊢
    obtain ⟨before, hbefore, h⟩ := bind_eq_ok h
    obtain ⟨after, hafter, h⟩ := bind_eq_ok h
    obtain ⟨lvl, hlvl, h⟩ := bind_eq_ok h
    cases h
    rw [hbefore, ok_bind, hafter, ok_bind,
      show deref ((b.setQty o qty).getOrdersAtPrice (b.order p).price) = .ok lvl from hlvl, ok_bind]
    simp only [setQty_setNextOrder, setQty_setPrevOrder]
    have hlinks : ∀ c : PriceBook I K, ((c.setQty o qty).setPrevOrder p none).setNextOrder p none =
        ((c.setPrevOrder p none).setNextOrder p none).setQty o qty := fun c => by
      rw [setQty_setPrevOrder, setQty_setNextOrder]
    have hfirst : ((b.setQty o qty).level lvl).firstOrder = (b.level lvl).firstOrder := rfl
    by_cases hhead : (b.level lvl).firstOrder = some p
    · simp only [level_modifyOrder, hhead, if_true]
      exact congrArg Except.ok (hlinks (((b.setNextOrder before (b.order p).nextOrder).setPrevOrder after
        (some before)).setFirstOrder lvl (b.order p).nextOrder))
    · simp only [level_modifyOrder, hhead, if_false]
      exact congrArg Except.ok (hlinks _)

section Keys
variable [DecidableEq K] [OrderKey I K]

/-- A quantity written before the removal of an order might as well be written after it. -/
theorem removeOrder_setQty {p : Nat} (h : b.removeOrder p = .ok b') :
    (b.setQty o qty).removeOrder p = .ok (b'.setQty o qty) := by
  simp only [removeOrder] at h ⊢
  obtain ⟨b₁, hb₁, h⟩ := bind_eq_ok h
  obtain ⟨b₂, hb₂, h⟩ := bind_eq_ok h
  obtain ⟨pool, hpool, h⟩ := bind_eq_ok h
  cases h
  rw [unlinkOrder_setQty hb₁, ok_bind, ids_setQty]
  simp only [setOrderTable] at hb₂ ⊢
  split at hb₂
  · rename_i hkey
    cases hb₂
    rw [if_pos hkey, ok_bind]
    have hpool' : ((b₁.setQty o qty).setKey (OrderKey.key (b₁.order p).ids) none).orderPool.deallocate p =
        .ok (pool.modify o fun x => { x with qty := qty }) := MemPool.deallocate_modify hpool
    rw [hpool', ok_bind]
    rfl
  · cases hb₂

omit [DecidableEq K] in
/-- No quantity disturbs the shape. -/
theorem WellFormed.setQty {sh : Shape} (h : b.WellFormed sh) : (b.setQty o qty).WellFormed sh where
  side := by
    intro s hs
    have hok := h.side s hs
    refine ⟨hok.ring, hok.top, hok.sorted, fun l hl => ?_⟩
    have hlevel := hok.level l hl
    refine ⟨hlevel.side, hlevel.first, hlevel.nonempty, ?_, ?_, ?_⟩
    · exact hlevel.ring.congr (fun q _ => by simp) (fun q _ => by simp)
    · exact fun q hq => by rw [side_setQty]; exact hlevel.orderSide q hq
    · exact fun q hq => by rw [price_setQty]; exact hlevel.orderPrice q hq
  levelsNodup := h.levelsNodup
  ordersNodup := h.ordersNodup
  levelPool := h.levelPool
  orderPool := by simpa using h.orderPool
  levelUsed := h.levelUsed
  orderUsed := fun q => by rw [orderPool_modifyOrder, MemPool.used_modify, h.orderUsed]
  prices := h.prices
  keys := fun k q => by rw [ids_setQty]; exact h.keys k q
  inTable := fun q hq => by rw [ids_setQty]; exact h.inTable q hq

end Keys

end PriceBook
end LowLatencyExchange
