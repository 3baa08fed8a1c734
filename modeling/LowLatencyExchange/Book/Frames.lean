import LowLatencyExchange.Book.WellFormed

/-!
# What the splices leave alone

Frame facts about the helpers of a book, for an arbitrary heap: whenever a call returns, it
changed nothing but what is listed here. Level splices never touch an order, and order
splices never touch an order's data.
-/

namespace LowLatencyExchange
namespace PriceBook
variable {I K : Type} {b b' : PriceBook I K}

/-- The orders and the key table are the same ones. -/
def SameOrderHeap (b b' : PriceBook I K) : Prop :=
  b'.orderPool = b.orderPool ∧ b'.orderTable = b.orderTable

/-- Every order keeps its data, wherever its links point now. -/
structure SameOrders (b b' : PriceBook I K) : Prop where
  order : ∀ q, (b'.order q).unlinked = (b.order q).unlinked
  used : ∀ q, b'.orderPool.Used q ↔ b.orderPool.Used q
  next : b'.orderPool.nextFreeIndex = b.orderPool.nextFreeIndex
  size : b'.orderPool.size = b.orderPool.size
  table : b'.orderTable = b.orderTable

lemma SameOrderHeap.sameOrders (h : SameOrderHeap b b') : SameOrders b b' := by
  obtain ⟨hp, ht⟩ := h
  exact ⟨fun q => by simp only [order, hp], fun q => by rw [hp], by rw [hp], by rw [hp], ht⟩

lemma SameOrders.refl (b : PriceBook I K) : SameOrders b b :=
  SameOrderHeap.sameOrders ⟨rfl, rfl⟩

lemma SameOrders.trans {b'' : PriceBook I K} (h : SameOrders b b') (h' : SameOrders b' b'') :
    SameOrders b b'' where
  order := fun q => (h'.order q).trans (h.order q)
  used := fun q => (h'.used q).trans (h.used q)
  next := h'.next.trans h.next
  size := h'.size.trans h.size
  table := h'.table.trans h.table

lemma sameOrders_modifyOrder (b : PriceBook I K) (p : Nat) {f : BookOrder I → BookOrder I}
    (hf : ∀ o, (f o).unlinked = o.unlinked) : SameOrders b (b.modifyOrder p f) where
  order := fun q => by rw [order_modifyOrder]; split <;> simp [hf]
  used := fun q => by simp
  next := rfl
  size := rfl
  table := rfl

lemma sameOrders_setNextOrder (b : PriceBook I K) (p : Nat) (v : Option Nat) :
    SameOrders b (b.setNextOrder p v) := sameOrders_modifyOrder b p fun _ => rfl

lemma sameOrders_setPrevOrder (b : PriceBook I K) (p : Nat) (v : Option Nat) :
    SameOrders b (b.setPrevOrder p v) := sameOrders_modifyOrder b p fun _ => rfl

lemma SameOrders.ids (h : SameOrders b b') (q : Nat) : (b'.order q).ids = (b.order q).ids :=
  (BookOrder.unlinked_eq_iff.mp (h.order q)).1
lemma SameOrders.side (h : SameOrders b b') (q : Nat) : (b'.order q).side = (b.order q).side :=
  (BookOrder.unlinked_eq_iff.mp (h.order q)).2.1
lemma SameOrders.price (h : SameOrders b b') (q : Nat) : (b'.order q).price = (b.order q).price :=
  (BookOrder.unlinked_eq_iff.mp (h.order q)).2.2.1
lemma SameOrders.qty (h : SameOrders b b') (q : Nat) : (b'.order q).qty = (b.order q).qty :=
  (BookOrder.unlinked_eq_iff.mp (h.order q)).2.2.2.1
lemma SameOrders.priority (h : SameOrders b b') (q : Nat) :
    (b'.order q).priority = (b.order q).priority :=
  (BookOrder.unlinked_eq_iff.mp (h.order q)).2.2.2.2

/-- The level pool keeps its size and what it still has to give. -/
structure KeepsLevelRoom (b b' : PriceBook I K) : Prop where
  room : b.ordersAtPricePool.HasRoom → b'.ordersAtPricePool.HasRoom
  size : b'.ordersAtPricePool.size = b.ordersAtPricePool.size

lemma insertAfter_frame {new target : Nat} (h : b.insertAfter new target = .ok b') :
    SameOrderHeap b b' := by
  obtain ⟨after, -, h⟩ := bind_eq_ok h
  cases h
  exact ⟨rfl, rfl⟩

lemma insertBefore_frame {new target : Nat} (h : b.insertBefore new target = .ok b') :
    SameOrderHeap b b' := by
  obtain ⟨before, -, h⟩ := bind_eq_ok h
  cases h
  exact ⟨rfl, rfl⟩

lemma addOrdersAtPrice_frame {new : Nat} (h : b.addOrdersAtPrice new = .ok b') :
    SameOrderHeap b b' := by
  simp only [addOrdersAtPrice] at h
  split at h
  · cases h
    exact ⟨by simp, by simp⟩
  · obtain ⟨⟨target, after⟩, -, h⟩ := bind_eq_ok h
    dsimp only at h
    split at h
    · split at h
      · obtain ⟨target', -, h⟩ := bind_eq_ok h
        have hf := insertAfter_frame h
        exact ⟨hf.1, hf.2⟩
      · have hf := insertAfter_frame h
        exact ⟨hf.1, hf.2⟩
    · obtain ⟨b1, hb1, h⟩ := bind_eq_ok h
      have hf := insertBefore_frame hb1
      split at h
      · cases h
        exact ⟨by simpa using hf.1, by simpa using hf.2⟩
      · cases h
        exact hf

/-- A splice of the ladders moves no level's data, and a top moves to the new level at most. -/
structure LadderFrame (b : PriceBook I K) (new : Nat) (b' : PriceBook I K) : Prop where
  data : ∀ q, (b'.level q).unlinked = (b.level q).unlinked
  top : ∀ s, b'.top s = b.top s ∨ b'.top s = some new
  used : ∀ q, b'.ordersAtPricePool.Used q ↔ b.ordersAtPricePool.Used q
  size : b'.ordersAtPricePool.size = b.ordersAtPricePool.size

lemma ladderFrame_modifyLevel (b : PriceBook I K) (new p : Nat) {f : OrdersAtPrice → OrdersAtPrice}
    (hf : ∀ l, (f l).unlinked = l.unlinked) : LadderFrame b new (b.modifyLevel p f) where
  data := fun q => by
    rw [level_modifyLevel]
    split <;> simp [hf]
  top := fun _ => .inl rfl
  used := fun q => by simp
  size := rfl

lemma ladderFrame_setNextEntry (b : PriceBook I K) (new p : Nat) (v : Option Nat) :
    LadderFrame b new (b.setNextEntry p v) := ladderFrame_modifyLevel b new p fun _ => rfl

lemma ladderFrame_setPrevEntry (b : PriceBook I K) (new p : Nat) (v : Option Nat) :
    LadderFrame b new (b.setPrevEntry p v) := ladderFrame_modifyLevel b new p fun _ => rfl

lemma ladderFrame_setTop (b : PriceBook I K) (new : Nat) (s : Side) :
    LadderFrame b new (b.setTop s (some new)) where
  data := fun q => by simp
  top := fun t => by
    rw [top_setTop]
    split <;> simp
  used := fun q => by simp
  size := by simp

lemma LadderFrame.trans {b'' : PriceBook I K} {new : Nat} (h : LadderFrame b new b')
    (h' : LadderFrame b' new b'') : LadderFrame b new b'' where
  data := fun q => (h'.data q).trans (h.data q)
  top := fun s => by
    rcases h'.top s with htop | htop
    · rw [htop]
      exact h.top s
    · exact .inr htop
  used := fun q => (h'.used q).trans (h.used q)
  size := h'.size.trans h.size

lemma insertAfter_ladder {new target : Nat} (h : b.insertAfter new target = .ok b') :
    LadderFrame b new b' := by
  obtain ⟨after, -, h⟩ := bind_eq_ok h
  cases h
  exact (((ladderFrame_setPrevEntry b new _ _).trans (ladderFrame_setPrevEntry _ new _ _)).trans
    (ladderFrame_setNextEntry _ new _ _)).trans (ladderFrame_setNextEntry _ new _ _)

lemma insertBefore_ladder {new target : Nat} (h : b.insertBefore new target = .ok b') :
    LadderFrame b new b' := by
  obtain ⟨before, -, h⟩ := bind_eq_ok h
  cases h
  exact (((ladderFrame_setPrevEntry b new _ _).trans (ladderFrame_setNextEntry _ new _ _)).trans
    (ladderFrame_setNextEntry _ new _ _)).trans (ladderFrame_setPrevEntry _ new _ _)

lemma addOrdersAtPrice_ladder {new : Nat} (h : b.addOrdersAtPrice new = .ok b') :
    LadderFrame b new b' := by
  have hprices : LadderFrame b new (b.setOrdersAtPrice (b.level new).price (some new)) :=
    ⟨fun _ => rfl, fun _ => .inl rfl, fun _ => .rfl, rfl⟩
  simp only [addOrdersAtPrice] at h
  split at h
  · cases h
    exact ((hprices.trans (ladderFrame_setTop _ new _)).trans (ladderFrame_setPrevEntry _ new _ _)).trans
      (ladderFrame_setNextEntry _ new _ _)
  · obtain ⟨⟨target, after⟩, -, h⟩ := bind_eq_ok h
    dsimp only at h
    split at h
    · split at h
      · obtain ⟨target', -, h⟩ := bind_eq_ok h
        exact hprices.trans (insertAfter_ladder h)
      · exact hprices.trans (insertAfter_ladder h)
    · obtain ⟨b₁, hb₁, h⟩ := bind_eq_ok h
      have hf := hprices.trans (insertBefore_ladder hb₁)
      split at h
      · cases h
        exact (hf.trans (ladderFrame_setNextEntry _ new _ _)).trans (ladderFrame_setTop _ new _)
      · cases h
        exact hf

lemma top_congr (b : PriceBook I K) {s t : Side} (h : s = .buy ↔ t = .buy) : b.top s = b.top t := by
  simp only [top, h]

lemma insertAfter_top {new target : Nat} (h : b.insertAfter new target = .ok b') (s : Side) :
    b'.top s = b.top s := by
  obtain ⟨after, -, h⟩ := bind_eq_ok h
  cases h
  rfl

lemma insertBefore_top {new target : Nat} (h : b.insertBefore new target = .ok b') (s : Side) :
    b'.top s = b.top s := by
  obtain ⟨before, -, h⟩ := bind_eq_ok h
  cases h
  rfl

/-- Whatever the ladder looks like, a top moves to the new level only from a better one. -/
lemma addOrdersAtPrice_top {new : Nat} (h : b.addOrdersAtPrice new = .ok b') (s : Side) :
    b'.top s = b.top s ∨ (b'.top s = some new ∧ (s = .buy ↔ (b.level new).side = .buy) ∧
      ∀ best, b.top s = some best →
        addAfter (b.level new).side (b.level new).price (b.level best).price = true) := by
  simp only [addOrdersAtPrice] at h
  split at h
  · rename_i htop
    cases h
    by_cases hs : s = .buy ↔ (b.level new).side = .buy
    · right
      refine ⟨?_, hs, fun best hbest => ?_⟩
      · rw [top_modifyLevel, top_modifyLevel, top_setTop, if_pos hs]
      · rw [top_congr b hs] at hbest
        rw [top_setOrdersAtPrice, hbest] at htop
        cases htop
    · left
      rw [top_modifyLevel, top_modifyLevel, top_setTop, if_neg hs, top_setOrdersAtPrice]
  · rename_i best htop
    obtain ⟨⟨target, after⟩, -, h⟩ := bind_eq_ok h
    dsimp only at h
    split at h
    · obtain ⟨target', h⟩ : ∃ target', (b.setOrdersAtPrice (b.level new).price (some new)).insertAfter new
          target' = .ok b' := by
        split at h
        · obtain ⟨target', -, h⟩ := bind_eq_ok h
          exact ⟨target', h⟩
        · exact ⟨target, h⟩
      left
      rw [insertAfter_top h, top_setOrdersAtPrice]
    · obtain ⟨b₁, hb₁, h⟩ := bind_eq_ok h
      have htop₁ := insertBefore_top hb₁
      have hprice : (b₁.level best).price = (b.level best).price :=
        (OrdersAtPrice.unlinked_eq_iff.mp ((insertBefore_ladder hb₁).data best)).2.1
      split at h
      · rename_i hworse
        cases h
        rw [top_setTop]
        by_cases hs : s = .buy ↔ (b.level new).side = .buy
        · right
          refine ⟨if_pos hs, hs, fun best' hbest' => ?_⟩
          rw [top_congr b hs] at hbest'
          rw [top_setOrdersAtPrice, hbest'] at htop
          obtain rfl := Option.some.inj htop
          rwa [← hprice]
        · left
          rw [if_neg hs, top_modifyLevel, htop₁, top_setOrdersAtPrice]
      · cases h
        left
        rw [htop₁, top_setOrdersAtPrice]

lemma insertAfter_prices {new target : Nat} (h : b.insertAfter new target = .ok b') :
    b'.priceOrdersAtPrice = b.priceOrdersAtPrice := by
  obtain ⟨after, -, h⟩ := bind_eq_ok h
  cases h
  rfl

lemma insertBefore_prices {new target : Nat} (h : b.insertBefore new target = .ok b') :
    b'.priceOrdersAtPrice = b.priceOrdersAtPrice := by
  obtain ⟨before, -, h⟩ := bind_eq_ok h
  cases h
  rfl

/-- The price table gives the new level for its price. -/
lemma addOrdersAtPrice_prices {new : Nat} (h : b.addOrdersAtPrice new = .ok b') :
    b'.priceOrdersAtPrice =
      Function.update b.priceOrdersAtPrice (priceToIndex (b.level new).price) (some new) := by
  simp only [addOrdersAtPrice] at h
  split at h
  · cases h
    simp
  · obtain ⟨⟨target, after⟩, -, h⟩ := bind_eq_ok h
    dsimp only at h
    split at h
    · split at h
      · obtain ⟨target', -, h⟩ := bind_eq_ok h
        rw [insertAfter_prices h, prices_setOrdersAtPrice]
      · rw [insertAfter_prices h, prices_setOrdersAtPrice]
    · obtain ⟨b₁, hb₁, h⟩ := bind_eq_ok h
      have hprices := insertBefore_prices hb₁
      split at h
      · cases h
        rw [prices_setTop, prices_modifyLevel, hprices, prices_setOrdersAtPrice]
      · cases h
        rw [hprices, prices_setOrdersAtPrice]

/-- Taking a level out of its ladder changes links and a top only. -/
structure UnlinkFrame (b b' : PriceBook I K) : Prop where
  data : ∀ q, (b'.level q).unlinked = (b.level q).unlinked
  used : ∀ q, b'.ordersAtPricePool.Used q ↔ b.ordersAtPricePool.Used q
  prices : b'.priceOrdersAtPrice = b.priceOrdersAtPrice
  orderPool : b'.orderPool = b.orderPool

lemma unlinkOrdersAtPrice_unlink {side : Side} {lvl : Nat}
    (h : b.unlinkOrdersAtPrice side lvl = .ok b') : UnlinkFrame b b' := by
  simp only [unlinkOrdersAtPrice] at h
  split at h
  · cases h
    exact ⟨by simp, by simp, by simp, by simp⟩
  · obtain ⟨before, -, h⟩ := bind_eq_ok h
    obtain ⟨after, -, h⟩ := bind_eq_ok h
    cases h
    refine ⟨fun q => ?_, fun q => ?_, ?_, ?_⟩
    · split <;> simp [OrdersAtPrice.unlinked]
    all_goals split <;> simp

lemma unlinkOrdersAtPrice_frame {side : Side} {lvl : Nat}
    (h : b.unlinkOrdersAtPrice side lvl = .ok b') :
    SameOrderHeap b b' ∧ KeepsLevelRoom b b' := by
  simp only [unlinkOrdersAtPrice] at h
  split at h
  · cases h
    exact ⟨⟨by simp, by simp⟩, by simp, by simp⟩
  · obtain ⟨before, -, h⟩ := bind_eq_ok h
    obtain ⟨after, -, h⟩ := bind_eq_ok h
    cases h
    refine ⟨⟨?_, ?_⟩, fun hroom => ?_, ?_⟩
    · split <;> simp
    · split <;> simp
    · split <;> simp only [ordersAtPricePool_modifyLevel, ordersAtPricePool_setTop] <;>
        exact ((((hroom.modify _ _).modify _ _).modify _ _).modify _ _)
    · split <;> simp

lemma removeOrdersAtPrice_frame {side : Side} {price : Price}
    (h : b.removeOrdersAtPrice side price = .ok b') :
    SameOrderHeap b b' ∧ KeepsLevelRoom b b' := by
  obtain ⟨lvl, -, h⟩ := bind_eq_ok h
  obtain ⟨b1, hb1, h⟩ := bind_eq_ok h
  obtain ⟨pool, hpool, h⟩ := bind_eq_ok h
  cases h
  obtain ⟨hheap, hroom⟩ := unlinkOrdersAtPrice_frame hb1
  obtain ⟨-, rfl⟩ := MemPool.deallocate_eq_ok hpool
  exact ⟨hheap, fun hr => (hroom.room hr).release lvl, hroom.size⟩

lemma unlinkOrder_frame {o : Nat} (h : b.unlinkOrder o = .ok b') :
    SameOrders b b' ∧ KeepsLevelRoom b b' := by
  simp only [unlinkOrder] at h
  split at h
  · obtain ⟨hheap, hroom⟩ := removeOrdersAtPrice_frame h
    exact ⟨hheap.sameOrders, hroom⟩
  · obtain ⟨before, -, h⟩ := bind_eq_ok h
    obtain ⟨after, -, h⟩ := bind_eq_ok h
    obtain ⟨lvl, -, h⟩ := bind_eq_ok h
    cases h
    have hlinks : ∀ b1 : PriceBook I K, SameOrders b1 ((b1.setPrevOrder o none).setNextOrder o none) :=
      fun b1 => (sameOrders_setPrevOrder b1 o none).trans (sameOrders_setNextOrder _ o none)
    have hpair : SameOrders b ((b.setNextOrder before (b.order o).nextOrder).setPrevOrder after (some before)) :=
      (sameOrders_setNextOrder b before _).trans (sameOrders_setPrevOrder _ after _)
    split
    · have hfirst : ∀ (b1 : PriceBook I K) v, SameOrders b1 (b1.setFirstOrder lvl v) :=
        fun _ _ => SameOrderHeap.sameOrders ⟨rfl, rfl⟩
      exact ⟨(hpair.trans (hfirst _ _)).trans (hlinks _), fun hroom => hroom.modify _ _, rfl⟩
    · exact ⟨hpair.trans (hlinks _), id, rfl⟩

lemma linkOrder_frame {o : Nat} (h : b.linkOrder o = .ok b') : SameOrders b b' := by
  simp only [linkOrder] at h
  split at h
  · obtain ⟨⟨pool, lvl⟩, -, h⟩ := bind_eq_ok h
    have hself : SameOrders b ((b.setPrevOrder o (some o)).setNextOrder o (some o)) :=
      (sameOrders_setPrevOrder b o _).trans (sameOrders_setNextOrder _ o _)
    have hf := addOrdersAtPrice_frame h
    exact hself.trans (SameOrderHeap.sameOrders ⟨hf.1, hf.2⟩)
  · obtain ⟨first, -, h⟩ := bind_eq_ok h
    obtain ⟨last, -, h⟩ := bind_eq_ok h
    cases h
    exact (((sameOrders_setNextOrder b last _).trans (sameOrders_setPrevOrder _ o _)).trans
      (sameOrders_setNextOrder _ o _)).trans (sameOrders_setPrevOrder _ first _)

lemma linkOrder_levelSize {o : Nat} (h : b.linkOrder o = .ok b') :
    b'.ordersAtPricePool.size = b.ordersAtPricePool.size := by
  simp only [linkOrder] at h
  split at h
  · obtain ⟨⟨pool, lvl⟩, hpool, h⟩ := bind_eq_ok h
    obtain ⟨-, -, k, rfl⟩ := MemPool.allocate_eq_ok hpool
    exact (addOrdersAtPrice_ladder h).size
  · obtain ⟨first, -, h⟩ := bind_eq_ok h
    obtain ⟨last, -, h⟩ := bind_eq_ok h
    cases h
    rfl

/-- An order joins a level, or a new level goes to the ladders, whatever the heap looks like. -/
lemma linkOrder_ok {o : Nat} (h : b.linkOrder o = .ok b') :
    (b'.ordersAtPricePool = b.ordersAtPricePool ∧ ∀ s, b'.top s = b.top s) ∨
    ∃ (n : Nat) (b₁ : PriceBook I K), ¬b.ordersAtPricePool.Used n ∧
      b₁.level n = ⟨(b.order o).side, (b.order o).price, some o, none, none⟩ ∧
      (∀ q, q ≠ n → b₁.level q = b.level q) ∧ (∀ s, b₁.top s = b.top s) ∧
      (∀ q, b₁.ordersAtPricePool.Used q ↔ q = n ∨ b.ordersAtPricePool.Used q) ∧
      b₁.addOrdersAtPrice n = .ok b' := by
  simp only [linkOrder] at h
  split at h
  · right
    obtain ⟨⟨pool, n⟩, hpool, h⟩ := bind_eq_ok h
    obtain ⟨rfl, hfree, k, rfl⟩ := MemPool.allocate_eq_ok hpool
    refine ⟨_, _, hfree, ?_, ?_, ?_, ?_, h⟩
    · apply ((MemPool.object_take b.ordersAtPricePool _ _ _).trans (if_pos rfl)).trans
      simp
    · exact fun q hq => (MemPool.object_take b.ordersAtPricePool _ q _).trans (if_neg hq)
    · exact fun s => rfl
    · exact fun q => MemPool.used_take b.ordersAtPricePool _ q _
  · left
    obtain ⟨first, -, h⟩ := bind_eq_ok h
    obtain ⟨last, -, h⟩ := bind_eq_ok h
    cases h
    exact ⟨rfl, fun _ => rfl⟩

section Keys
variable [DecidableEq K] [OrderKey I K]

/-- `addOrder` enters the order under its key. -/
structure AddFrame (b : PriceBook I K) (o : Nat) (b' : PriceBook I K) : Prop where
  order : ∀ q, (b'.order q).unlinked = (b.order q).unlinked
  used : ∀ q, b'.orderPool.Used q ↔ b.orderPool.Used q
  table : b'.orderTable = Function.update b.orderTable (OrderKey.key (b.order o).ids) (some o)
  levelSize : b'.ordersAtPricePool.size = b.ordersAtPricePool.size
  orderSize : b'.orderPool.size = b.orderPool.size

/-- `removeOrder` clears the order's key and frees its block. -/
structure RemoveFrame (b : PriceBook I K) (o : Nat) (b' : PriceBook I K) : Prop where
  order : ∀ q, (b'.order q).unlinked = (b.order q).unlinked
  wasUsed : b.orderPool.Used o
  used : ∀ q, b'.orderPool.Used q ↔ q ≠ o ∧ b.orderPool.Used q
  table : b'.orderTable = Function.update b.orderTable (OrderKey.key (b.order o).ids) none
  orderRoom : b.orderPool.HasRoom → b'.orderPool.HasRoom
  orderSize : b'.orderPool.size = b.orderPool.size
  levelRoom : KeepsLevelRoom b b'

/-- An order that was placed is linked and entered under its key. -/
lemma addOrder_ok {o : Nat} (h : b.addOrder o = .ok b') :
    ∃ b₁, b.linkOrder o = .ok b₁ ∧ b' = b₁.setKey (OrderKey.key (b.order o).ids) (some o) := by
  obtain ⟨b₁, hb₁, h⟩ := bind_eq_ok h
  rw [(linkOrder_frame hb₁).ids] at h
  unfold setOrderTable at h
  split at h
  · exact ⟨b₁, hb₁, (Except.ok.inj h).symm⟩
  · cases h

lemma addOrder_inTable {o : Nat} (h : b.addOrder o = .ok b') :
    OrderKey.inTable I (OrderKey.key (b.order o).ids) = true := by
  obtain ⟨b₁, hb₁, h⟩ := bind_eq_ok h
  rw [(linkOrder_frame hb₁).ids] at h
  unfold setOrderTable at h
  split at h
  · assumption
  · cases h

lemma addOrder_frame {o : Nat} (h : b.addOrder o = .ok b') : AddFrame b o b' := by
  obtain ⟨b₁, hb₁, rfl⟩ := addOrder_ok h
  have hf := linkOrder_frame hb₁
  have hsize := linkOrder_levelSize hb₁
  refine ⟨hf.order, hf.used, ?_, hsize, hf.size⟩
  simp [hf.table]

/-- An order that was removed is unlinked, its key is cleared and its block is free. -/
lemma removeOrder_ok {o : Nat} (h : b.removeOrder o = .ok b') : ∃ b₁ pool,
    b.unlinkOrder o = .ok b₁ ∧ b₁.orderPool.deallocate o = .ok pool ∧
      b' = (b₁.setKey (OrderKey.key (b.order o).ids) none).setOrderPool pool := by
  obtain ⟨b₁, hb₁, h⟩ := bind_eq_ok h
  obtain ⟨b₂, hb₂, h⟩ := bind_eq_ok h
  obtain ⟨pool, hpool, h⟩ := bind_eq_ok h
  cases h
  rw [(unlinkOrder_frame hb₁).1.ids] at hb₂
  unfold setOrderTable at hb₂
  split at hb₂
  · cases hb₂
    exact ⟨b₁, pool, hb₁, hpool, rfl⟩
  · cases hb₂

lemma removeOrder_frame {o : Nat} (h : b.removeOrder o = .ok b') : RemoveFrame b o b' := by
  obtain ⟨b₁, pool, hb₁, hpool, rfl⟩ := removeOrder_ok h
  obtain ⟨hf, hroom⟩ := unlinkOrder_frame hb₁
  obtain ⟨hused, rfl⟩ := MemPool.deallocate_eq_ok hpool
  refine ⟨fun q => ?_, (hf.used o).mp hused, fun q => ?_, ?_, fun hr => ?_, hf.size, hroom.room, hroom.size⟩
  · simpa [order] using hf.order q
  · simp [hf.used]
  · simp [hf.table]
  · obtain ⟨j, hlt, hne, hfree⟩ := hr
    have hr₁ : b₁.orderPool.HasRoom := by
      refine ⟨j, ?_, ?_, fun hu => hfree ((hf.used j).mp hu)⟩
      · rwa [hf.size]
      · rwa [hf.next]
    exact hr₁.release o

end Keys
end PriceBook
end LowLatencyExchange
