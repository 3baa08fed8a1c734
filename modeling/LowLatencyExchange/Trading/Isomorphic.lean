import LowLatencyExchange.Exchange.Ladder
import LowLatencyExchange.Library.Run
import LowLatencyExchange.Trading.BestPrices

/-!
# The trading book mirrors the engine's book

The two books are isomorphic when their live blocks correspond, contents, links and tables
included. Every update that a call on the engine's book sends carries the isomorphism on: a
fill or a cancel takes the same order out of both heaps, and the remainder of an aggressor
goes to the same place of both.
-/

namespace LowLatencyExchange
open PriceBook MEOrderBook MarketOrderBook Simulation

abbrev EngineBook := PriceBook MEOrderIds (ClientId × OrderId)

/-- How the client identifies an order of the engine. -/
def marketIds (ids : MEOrderIds) : MarketOrderIds := ⟨ids.marketOrderId⟩

/-- `φ` takes the live levels of the engine's book `b` to those of the client's book `c`, and `ψ`
the live orders. Both books made their level pools of one size, and the client's pools are
intact. -/
structure Isomorphic (φ ψ : Nat → Nat) (b : EngineBook) (c : MarketBook) : Prop where
  levels : Set.BijOn φ {p | b.ordersAtPricePool.Used p} {p | c.ordersAtPricePool.Used p}
  orders : Set.BijOn ψ {o | b.orderPool.Used o} {o | c.orderPool.Used o}
  level : ∀ p, b.ordersAtPricePool.Used p → c.level (φ p) = (b.level p).rename φ ψ
  order : ∀ o, b.orderPool.Used o → c.order (ψ o) = (b.order o).rename ψ marketIds
  bids : c.bidsByPrice = b.bidsByPrice.map φ
  asks : c.asksByPrice = b.asksByPrice.map φ
  prices : ∀ i, c.priceOrdersAtPrice i = (b.priceOrdersAtPrice i).map φ
  oids : ∀ i q, c.orderTable i = some q ↔
    ∃ o, b.orderPool.Used o ∧ (b.order o).ids.marketOrderId = i ∧ ψ o = q
  levelSize : c.ordersAtPricePool.size = b.ordersAtPricePool.size
  levelSound : c.ordersAtPricePool.Sound
  orderSound : c.orderPool.Sound

def Mirrored (b : EngineBook) (c : MarketBook) : Prop := ∃ φ ψ, Isomorphic φ ψ b c

/-- `Mirrored` by permutations of the addresses. -/
structure Paired (σ τ : Equiv.Perm Nat) (b : EngineBook) (c : MarketBook) : Prop where
  heap : Renamed σ τ marketIds b c
  oids : ∀ i q, c.orderTable i = some q ↔
    ∃ o, b.orderPool.Used o ∧ (b.order o).ids.marketOrderId = i ∧ τ o = q

section Books
variable {b b' : EngineBook} {c : MarketBook} {sh : Shape} {σ τ : Equiv.Perm Nat}

lemma Paired.mirrored (h : Paired σ τ b c) : Mirrored b c := by
  obtain ⟨hheap, hoids⟩ := h
  refine ⟨σ, τ, ⟨fun p hp => (hheap.levelUsed p).mpr hp, σ.injective.injOn, ?_⟩,
    ⟨fun o ho => (hheap.orderUsed o).mpr ho, τ.injective.injOn, ?_⟩, hheap.level, hheap.order,
    hheap.top .buy, hheap.top .sell, hheap.prices, hoids, hheap.levelSize, hheap.levelSound,
    hheap.orderSound⟩
  · intro q hq
    refine ⟨σ.symm q, (hheap.levelUsed _).mp ?_, σ.apply_symm_apply q⟩
    rwa [σ.apply_symm_apply]
  · intro q hq
    refine ⟨τ.symm q, (hheap.orderUsed _).mp ?_, τ.apply_symm_apply q⟩
    rwa [τ.apply_symm_apply]

lemma used_finite {T : Type} {p : MemPool T} (hp : p.Sound) : {i | p.Used i}.Finite :=
  (Set.finite_lt_nat p.size).subset fun i hi => hp.used_lt i hi

/-- The correspondence is part of two permutations, which may send the next free block of a pool
to the next free block of the other. -/
theorem Mirrored.paired (h : b.WellFormed sh) (hmirrored : Mirrored b c) :
    ∃ σ τ, Paired σ τ b c ∧
      σ b.ordersAtPricePool.nextFreeIndex = c.ordersAtPricePool.nextFreeIndex ∧
      τ b.orderPool.nextFreeIndex = c.orderPool.nextFreeIndex := by
  obtain ⟨φ, ψ, hiso⟩ := hmirrored
  have hclosed := h.closed
  obtain ⟨σ, hσ, hσnext⟩ := exists_perm_of_bijOn_insert (used_finite h.levelPool) hiso.levels
    h.levelPool.next_free hiso.levelSound.next_free
  obtain ⟨τ, hτ, hτnext⟩ := exists_perm_of_bijOn_insert (used_finite h.orderPool) hiso.orders
    h.orderPool.next_free hiso.orderSound.next_free
  have hlevels : ∀ v : Option Nat, (∀ p, v = some p → b.ordersAtPricePool.Used p) → v.map φ = v.map σ := by
    intro v hv
    cases v with
    | none => rfl
    | some p => exact congrArg some (hσ (hv p rfl))
  have horders : ∀ v : Option Nat, (∀ o, v = some o → b.orderPool.Used o) → v.map ψ = v.map τ := by
    intro v hv
    cases v with
    | none => rfl
    | some o => exact congrArg some (hτ (hv o rfl))
  refine ⟨σ, τ, ⟨⟨fun p hp => ?_, fun o ho => ?_, fun s => ?_, fun i => ?_, fun p => ?_, fun o => ?_,
    hiso.levelSize, hiso.levelSound, hiso.orderSound⟩, fun i q => ?_⟩, hσnext, hτnext⟩
  · rw [← hσ hp, hiso.level p hp]
    simp only [OrdersAtPrice.rename, OrdersAtPrice.mk.injEq, true_and]
    exact ⟨horders _ fun o ho => hclosed.first p o hp ho,
      hlevels _ fun q hq => hclosed.entries p q hp (.inr hq),
      hlevels _ fun q hq => hclosed.entries p q hp (.inl hq)⟩
  · rw [← hτ ho, hiso.order o ho]
    simp only [BookOrder.rename, BookOrder.mk.injEq, true_and]
    exact ⟨horders _ fun q hq => hclosed.orders o q ho (.inr hq),
      horders _ fun q hq => hclosed.orders o q ho (.inl hq)⟩
  · rw [← hlevels _ (hclosed.top s)]
    by_cases hs : s = .buy
    · simpa [top, hs] using hiso.bids
    · simpa [top, hs] using hiso.asks
  · rw [hiso.prices i]
    exact hlevels _ (hclosed.prices i)
  · constructor
    · intro hp
      obtain ⟨x, hx, hxp⟩ := hiso.levels.surjOn hp
      have hσx : σ x = σ p := (hσ hx).symm.trans hxp
      exact σ.injective hσx ▸ hx
    · intro hp
      rw [← hσ hp]
      exact hiso.levels.mapsTo hp
  · constructor
    · intro ho
      obtain ⟨x, hx, hxo⟩ := hiso.orders.surjOn ho
      have hτx : τ x = τ o := (hτ hx).symm.trans hxo
      exact τ.injective hτx ▸ hx
    · intro ho
      rw [← hτ ho]
      exact hiso.orders.mapsTo ho
  · rw [hiso.oids i q]
    constructor
    · rintro ⟨o, ho, hi, hq⟩
      exact ⟨o, ho, hi, (hτ ho).symm.trans hq⟩
    · rintro ⟨o, ho, hi, hq⟩
      exact ⟨o, ho, hi, (hτ ho).trans hq⟩

lemma Paired.ids (h : Paired σ τ b c) {o : Nat} (ho : b.orderPool.Used o) :
    (c.order (τ o)).ids = marketIds (b.order o).ids := by
  rw [h.heap.order o ho]
  rfl

/-- The client's table without the order that left. -/
lemma Paired.oids_remove (h : Paired σ τ b c) {c' : MarketBook} {o : Nat} (ho : b.orderPool.Used o)
    (hf : RemoveFrame b o b') (hf' : RemoveFrame c (τ o) c') (i : OrderId) (q : Nat) :
    c'.orderTable i = some q ↔
      ∃ x, b'.orderPool.Used x ∧ (b'.order x).ids.marketOrderId = i ∧ τ x = q := by
  have hids : ∀ x, (b'.order x).ids = (b.order x).ids := fun x =>
    (BookOrder.unlinked_eq_iff.mp (hf.order x)).1
  have hkey : OrderKey.key (c.order (τ o)).ids = (b.order o).ids.marketOrderId :=
    congrArg MarketOrderIds.orderId (h.ids ho)
  rw [hf'.table, hkey, Function.update_apply]
  by_cases hi : i = (b.order o).ids.marketOrderId
  · rw [if_pos hi]
    constructor
    · intro hnone
      cases hnone
    · rintro ⟨x, hx, hxi, -⟩
      obtain ⟨hxo, hx⟩ := (hf.used x).mp hx
      rw [hids x] at hxi
      have hfound := (h.oids i (τ x)).mpr ⟨x, hx, hxi, rfl⟩
      have hfound' := (h.oids i (τ o)).mpr ⟨o, ho, hi.symm, rfl⟩
      have hτ : τ x = τ o := by simpa [hfound'] using hfound.symm
      exact absurd (τ.injective hτ) hxo
  · rw [if_neg hi, h.oids i q]
    constructor
    · rintro ⟨x, hx, hxi, hq⟩
      have hxo : x ≠ o := by
        rintro rfl
        exact hi hxi.symm
      exact ⟨x, (hf.used x).mpr ⟨hxo, hx⟩, by rw [hids x, hxi], hq⟩
    · rintro ⟨x, hx, hxi, hq⟩
      exact ⟨x, ((hf.used x).mp hx).2, by rw [← hids x, hxi], hq⟩

/-- The client's table with an order more, under an id that no other order has. -/
lemma Paired.oids_add (h : Paired σ τ b c) {c' : MarketBook} {o : Nat} {id : OrderId}
    (hid : (b'.order o).ids.marketOrderId = id)
    (hids : ∀ x, b.orderPool.Used x → (b'.order x).ids = (b.order x).ids)
    (hfresh : ∀ x, b.orderPool.Used x → (b.order x).ids.marketOrderId ≠ id)
    (hused : ∀ x, b'.orderPool.Used x ↔ x = o ∨ b.orderPool.Used x)
    (htable : c'.orderTable = Function.update c.orderTable id (some (τ o))) (i : OrderId) (q : Nat) :
    c'.orderTable i = some q ↔
      ∃ x, b'.orderPool.Used x ∧ (b'.order x).ids.marketOrderId = i ∧ τ x = q := by
  rw [htable, Function.update_apply]
  by_cases hi : i = id
  · rw [if_pos hi]
    constructor
    · intro hq
      exact ⟨o, (hused o).mpr (.inl rfl), hid.trans hi.symm, by simpa using hq⟩
    · rintro ⟨x, hx, hxi, rfl⟩
      rcases (hused x).mp hx with rfl | hx
      · rfl
      · rw [hids x hx, hi] at hxi
        exact absurd hxi (hfresh x hx)
  · rw [if_neg hi, h.oids i q]
    constructor
    · rintro ⟨x, hx, hxi, hq⟩
      exact ⟨x, (hused x).mpr (.inr hx), by rw [hids x hx, hxi], hq⟩
    · rintro ⟨x, hx, hxi, hq⟩
      rcases (hused x).mp hx with rfl | hx
      · exact absurd (hid.symm.trans hxi).symm hi
      · exact ⟨x, hx, by rw [← hids x hx, hxi], hq⟩

/-- The same order leaves both books. -/
theorem Paired.removeOrder (h : Paired σ τ b c) (hclosed : b.Closed) {o : Nat} (ho : b.orderPool.Used o)
    (hid : (b.order o).ids.marketOrderId < ME_MAX_ORDER_IDS) (hrun : b.removeOrder o = .ok b') :
    ∃ c', c.removeOrder (τ o) = .ok c' ∧ Paired σ τ b' c' := by
  have hf := removeOrder_frame hrun
  obtain ⟨b₁, hlink, hrun⟩ := bind_eq_ok hrun
  obtain ⟨b₂, hkey, hrun⟩ := bind_eq_ok hrun
  obtain ⟨pool, hpool, hrun⟩ := bind_eq_ok hrun
  obtain ⟨c₁, hlink', h₁⟩ := h.heap.unlinkOrder hclosed.prices ho b₁ hlink
  unfold setOrderTable at hkey
  split at hkey
  swap
  · cases hkey
  cases hkey
  cases hrun
  obtain ⟨hlive, rfl⟩ := MemPool.deallocate_eq_ok hpool
  have hids : (c.order (τ o)).ids = marketIds (b.order o).ids := by
    rw [h.heap.order o ho]
    rfl
  have hids₁ : (c₁.order (τ o)).ids = (c.order (τ o)).ids := (unlinkOrder_frame hlink').1.ids _
  have hin : OrderKey.inTable MarketOrderIds (OrderKey.key (c₁.order (τ o)).ids) = true := by
    rw [hids₁, hids]
    exact decide_eq_true hid
  have h₂ := h₁.setKey (OrderKey.key (b₁.order o).ids) (OrderKey.key (c₁.order (τ o)).ids) none none
  have hdealloc := MemPool.deallocate_spec h₂.orderSound ((h₂.orderUsed o).mpr hlive)
  have hrun' : c.removeOrder (τ o) = .ok ((c₁.setKey (OrderKey.key (c₁.order (τ o)).ids) none).setOrderPool
      ((c₁.setKey (OrderKey.key (c₁.order (τ o)).ids) none).orderPool.release (τ o))) := by
    simp only [PriceBook.removeOrder, hlink', ok_bind, setOrderTable, hin, if_true, hdealloc, pure_eq_ok]
  exact ⟨_, hrun', h₂.releaseOrder o, h.oids_remove ho hf (removeOrder_frame hrun')⟩

/-- The new quantity of an order reaches both books. -/
lemma Paired.setQty (h : Paired σ τ b c) (o : Nat) (qty : Qty) :
    Paired σ τ (b.setQty o qty) (c.setQty (τ o) qty) := by
  refine ⟨h.heap.setQty o qty, fun i q => ?_⟩
  simpa using h.oids i q

/-- A quantity written to a block that is not live is not seen. -/
lemma Paired.setQty_free (h : Paired σ τ b c) {o : Nat} (ho : ¬b.orderPool.Used o) (qty : Qty) :
    Paired σ τ (b.setQty o qty) c := by
  obtain ⟨hheap, hoids⟩ := h
  have hsame : ∀ q, b.orderPool.Used q → (b.setQty o qty).order q = b.order q := by
    intro q hq
    have hqo : q ≠ o := fun e => ho (e ▸ hq)
    rw [order_modifyOrder, if_neg hqo]
  refine ⟨⟨hheap.level, fun q hq => ?_, hheap.top, hheap.prices, hheap.levelUsed, fun q => ?_,
    hheap.levelSize, hheap.levelSound, hheap.orderSound⟩, fun i q => ?_⟩
  · have hq' : b.orderPool.Used q := by simpa using hq
    rw [hsame q hq']
    exact hheap.order q hq'
  · simpa using hheap.orderUsed q
  · simpa using hoids i q

/-- The order that an aggressor leaves goes to the same place of both books. -/
theorem Paired.addOrder (h : Paired σ τ b c) (hclosed : b.Closed) (horders : c.orderPool.HasRoom)
    (hlevels : c.ordersAtPricePool.HasRoom)
    (hnextLevel : σ b.ordersAtPricePool.nextFreeIndex = c.ordersAtPricePool.nextFreeIndex)
    (hnextOrder : τ b.orderPool.nextFreeIndex = c.orderPool.nextFreeIndex) {obj : MEOrder}
    (hlinks : obj.nextOrder = none ∧ obj.prevOrder = none)
    (hid : obj.ids.marketOrderId < ME_MAX_ORDER_IDS)
    (hfresh : ∀ x, b.orderPool.Used x → (b.order x).ids.marketOrderId ≠ obj.ids.marketOrderId)
    {pool : MemPool MEOrder} {o : Nat} (halloc : b.orderPool.allocate obj = .ok (pool, o))
    (hrun : (b.setOrderPool pool).addOrder o = .ok b') :
    ∃ pool' c', c.orderPool.allocate ⟨marketIds obj.ids, obj.side, obj.price, obj.qty, obj.priority,
      none, none⟩ = .ok (pool', τ o) ∧ (c.setOrderPool pool').addOrder (τ o) = .ok c' ∧
      Paired σ τ b' c' := by
  have hcopy : (⟨marketIds obj.ids, obj.side, obj.price, obj.qty, obj.priority, none, none⟩ : MarketOrder) =
      obj.rename τ marketIds := by
    simp [BookOrder.rename, hlinks]
  obtain ⟨⟨pool', o'⟩, halloc', rfl, h₁⟩ := h.heap.allocateOrder horders hnextOrder hcopy _ halloc
  obtain ⟨rfl, hfree, k, rfl⟩ := MemPool.allocate_eq_ok halloc
  have hself : (b.orderPool.take b.orderPool.nextFreeIndex obj).object b.orderPool.nextFreeIndex = obj := by
    simp
  have hother : ∀ q, q ≠ b.orderPool.nextFreeIndex →
      (b.orderPool.take b.orderPool.nextFreeIndex obj).object q = b.order q := by
    intro q hq
    simp [hq, order]
  have htaken : ∀ q, MemPool.Used { b.orderPool.take b.orderPool.nextFreeIndex obj with nextFreeIndex := k } q ↔
      q = b.orderPool.nextFreeIndex ∨ b.orderPool.Used q := fun q => MemPool.used_take b.orderPool _ q obj
  have hclosed₁ := hclosed.takeOrder hlinks.1 hlinks.2 b.orderPool.nextFreeIndex k
  have hused := (htaken b.orderPool.nextFreeIndex).mpr (.inl rfl)
  have hf := addOrder_frame hrun
  obtain ⟨b₁, hlink, hrun⟩ := bind_eq_ok hrun
  obtain ⟨c₁, hlink', h₂⟩ := h₁.linkOrder hclosed₁ hlevels hnextLevel hused b₁ hlink
  unfold setOrderTable at hrun
  split at hrun
  swap
  · cases hrun
  cases hrun
  have hids : ((c.setOrderPool pool').order (τ b.orderPool.nextFreeIndex)).ids = marketIds obj.ids := by
    rw [h₁.order _ hused]
    exact congrArg (fun x : MEOrder => marketIds x.ids) hself
  have hids₁ := ((linkOrder_frame hlink').ids (τ b.orderPool.nextFreeIndex)).trans hids
  have hkey : OrderKey.key (c₁.order (τ b.orderPool.nextFreeIndex)).ids = obj.ids.marketOrderId :=
    congrArg MarketOrderIds.orderId hids₁
  have hin : OrderKey.inTable MarketOrderIds obj.ids.marketOrderId = true := decide_eq_true hid
  have hrun' : (c.setOrderPool pool').addOrder (τ b.orderPool.nextFreeIndex) =
      .ok (c₁.setKey obj.ids.marketOrderId (some (τ b.orderPool.nextFreeIndex))) := by
    simp only [PriceBook.addOrder, hlink', ok_bind, setOrderTable, hkey, hin, if_true]
  have htable : (c₁.setKey obj.ids.marketOrderId (some (τ b.orderPool.nextFreeIndex))).orderTable =
      Function.update c.orderTable obj.ids.marketOrderId (some (τ b.orderPool.nextFreeIndex)) := by
    rw [table_setKey, (linkOrder_frame hlink').table]
    rfl
  refine ⟨pool', _, halloc', hrun', h₂.setKey _ _ _ _, h.oids_add ?_ ?_ hfresh ?_ htable⟩
  · rw [(BookOrder.unlinked_eq_iff.mp (hf.order _)).1]
    exact congrArg (fun x : MEOrder => x.ids.marketOrderId) hself
  · intro x hx
    have hxo : x ≠ b.orderPool.nextFreeIndex := fun e => hfree (e ▸ hx)
    rw [(BookOrder.unlinked_eq_iff.mp (hf.order x)).1]
    exact congrArg (fun y : MEOrder => y.ids) (hother x hxo)
  · exact fun x => (hf.used x).trans (htaken x)

end Books

section Updates
variable {b b' : EngineBook} {T : MarketOrderBook} {sh : Shape}

/-- The client takes the updates `us` one after another, and then its book mirrors `b`. Removals
leave the room its pools had. -/
def Carries (T : MarketOrderBook) (us : List MEMarketUpdate) (b : EngineBook) : Prop :=
  ∃ T' calls, LoggedRun.execute onMarketUpdate T us = .ok (T', calls) ∧ Mirrored b T'.book ∧
    (T.book.orderPool.HasRoom → T.book.ordersAtPricePool.HasRoom → (∀ u ∈ us, u.type ≠ .add) →
      T'.book.orderPool.HasRoom ∧ T'.book.ordersAtPricePool.HasRoom)

lemma carries_nil (h : Mirrored b T.book) : Carries T [] b :=
  ⟨T, [], rfl, h, fun ho hl _ => ⟨ho, hl⟩⟩

lemma Carries.append {us us' : List MEMarketUpdate} (h : Carries T us b) (hus : ∀ u ∈ us, u.type ≠ .add)
    (hrest : ∀ T' : MarketOrderBook, Mirrored b T'.book →
      (T.book.orderPool.HasRoom → T.book.ordersAtPricePool.HasRoom →
        T'.book.orderPool.HasRoom ∧ T'.book.ordersAtPricePool.HasRoom) → Carries T' us' b') :
    Carries T (us ++ us') b' := by
  obtain ⟨T₁, calls, hrun, hmirrored, hroom⟩ := h
  obtain ⟨T₂, calls', hrun', hmirrored', hroom'⟩ := hrest T₁ hmirrored fun ho hl => hroom ho hl hus
  refine ⟨T₂, calls ++ calls', LoggedRun.execute_append hrun hrun', hmirrored', fun ho hl hall => ?_⟩
  obtain ⟨ho₁, hl₁⟩ := hroom ho hl hus
  exact hroom' ho₁ hl₁ fun u hu => hall u (List.mem_append_right us hu)

lemma Carries.mono {us : List MEMarketUpdate} (h : Carries T us b)
    (hb : ∀ c, Mirrored b c → Mirrored b' c) : Carries T us b' := by
  obtain ⟨T', calls, hrun, hmirrored, hroom⟩ := h
  exact ⟨T', calls, hrun, hb _ hmirrored, hroom⟩

/-- A trade changes nothing. -/
lemma carries_trade (h : Mirrored b T.book) {u : MEMarketUpdate} (htype : u.type = .trade) :
    Carries T [u] b :=
  ⟨T, [.onTradeUpdate u], LoggedRun.execute_cons (onMarketUpdate_trade htype) rfl, h,
    fun ho hl _ => ⟨ho, hl⟩⟩

/-- The order of an update is the image of the engine's. -/
lemma Paired.lookupOrder {σ τ : Equiv.Perm Nat} {c : MarketBook} (h : Paired σ τ b c) {o : Nat}
    (ho : b.orderPool.Used o) (hid : (b.order o).ids.marketOrderId < ME_MAX_ORDER_IDS) :
    lookupOrder c (b.order o).ids.marketOrderId = .ok (some (τ o)) := by
  have hfound := (h.oids _ (τ o)).mpr ⟨o, ho, rfl, rfl⟩
  rw [MarketOrderBook.lookupOrder, if_pos hid, hfound]
  rfl

/-- An order leaves the engine's book, and its `CANCEL` takes it out of the client's. -/
lemma Mirrored.cancel (h : Mirrored b T.book) (hwf : b.WellFormed sh) {sh' : Shape} {o : Nat}
    (hid : (b.order o).ids.marketOrderId < ME_MAX_ORDER_IDS) (hrun : b.removeOrder o = .ok b')
    (hwf' : b'.WellFormed sh') {u : MEMarketUpdate} (htype : u.type = .cancel)
    (horder : u.orderId = (b.order o).ids.marketOrderId) : Carries T [u] b' := by
  obtain ⟨σ, τ, hpaired, -, -⟩ := h.paired hwf
  have ho := (removeOrder_frame hrun).wasUsed
  obtain ⟨c', hrun', hpaired'⟩ := hpaired.removeOrder hwf.closed ho hid hrun
  have happly : applyUpdate T.book u = .ok c' := by
    rw [← horder] at hid
    simp only [applyUpdate, htype, horder, hpaired.lookupOrder ho (horder ▸ hid), ok_bind, deref_some, hrun']
  obtain ⟨bbo, calls, hstep⟩ := onMarketUpdate_returns (by simp [htype]) happly
    (hwf'.readable.renamed hpaired'.heap) hpaired'.heap.orderSound
  have hf := removeOrder_frame hrun'
  exact ⟨_, _, LoggedRun.execute_cons hstep rfl, hpaired'.mirrored,
    fun hro hrl _ => ⟨hf.orderRoom hro, hf.levelRoom.room hrl⟩⟩

/-- A fill leaves some of an order, and its `MODIFY` tells the client how much. -/
lemma Mirrored.modify (h : Mirrored b T.book) (hwf : b.WellFormed sh) {o : Nat}
    (ho : b.orderPool.Used o) (hid : (b.order o).ids.marketOrderId < ME_MAX_ORDER_IDS) {qty : Qty}
    {u : MEMarketUpdate} (htype : u.type = .modify)
    (horder : u.orderId = (b.order o).ids.marketOrderId) (hu : u.qty = qty) :
    Carries T [u] (b.setQty o qty) := by
  obtain ⟨σ, τ, hpaired, -, -⟩ := h.paired hwf
  have hpaired' := hpaired.setQty o qty
  have happly : applyUpdate T.book u = .ok (T.book.setQty (τ o) qty) := by
    simp only [applyUpdate, htype, horder, hpaired.lookupOrder ho hid, ok_bind, deref_some, hu, pure_eq_ok]
  obtain ⟨bbo, calls, hstep⟩ := onMarketUpdate_returns (by simp [htype]) happly
    (hwf.setQty.readable.renamed hpaired'.heap) hpaired'.heap.orderSound
  exact ⟨_, _, LoggedRun.execute_cons hstep rfl, hpaired'.mirrored,
    fun hro hrl _ => ⟨hro.modify _ _, hrl⟩⟩

end Updates

section Calls
variable {b b' : MEOrderBook} {T : MarketOrderBook} {sh : Shape} {next : OrderId}

/-- No live order has a price that shares a slot of the price table with another price. -/
def PriceFree (b : MEOrderBook) (price : Price) : Prop :=
  ∀ o, b.book.orderPool.Used o → priceToIndex (b.book.order o).price = priceToIndex price →
    (b.book.order o).price = price

/-- The remainder of an aggressor rests, and its `ADD` makes the client's book do the same. -/
lemma Mirrored.rest {a : Aggressor} {leavesQty : Qty} {priority : Priority} {o : Nat}
    (h : Mirrored b.book T.book) (hwf : b.book.WellFormed sh) (hids : IdsBelow next b)
    (hnext : next < ME_MAX_ORDER_IDS) (horders : T.book.orderPool.HasRoom)
    (hlevels : T.book.ordersAtPricePool.HasRoom) (hs : a.side.Trading)
    (hin : OrderKey.inTable MEOrderIds (a.clientId, a.clientOrderId) = true)
    (hfree : b.book.orderTable (a.clientId, a.clientOrderId) = none) (hleaves : leavesQty ≠ 0)
    (hprice : PriceFree b a.price) (hdone : MatchDone a b leavesQty)
    (hrest : Rests a b next leavesQty priority o b') :
    Carries T [⟨.add, next, a.tickerId, a.side, a.price, leavesQty, priority⟩] b'.book := by
  obtain ⟨pool, book, halloc, hadd, rfl⟩ := hrest.placed
  obtain ⟨σ, τ, hpaired, hσ, hτ⟩ := h.paired hwf
  obtain ⟨pool', c', halloc', hadd', hpaired'⟩ := hpaired.addOrder hwf.closed horders hlevels hσ hτ
    ⟨rfl, rfl⟩ hnext (fun x hx => Nat.ne_of_lt (hids.below x hx)) halloc hadd
  have happly : applyUpdate T.book ⟨.add, next, a.tickerId, a.side, a.price, leavesQty, priority⟩ =
      .ok c' := by
    have halloc'' : T.book.orderPool.allocate
        ⟨⟨next⟩, a.side, a.price, leavesQty, priority, none, none⟩ = .ok (pool', τ o) := halloc'
    simp only [applyUpdate, halloc'', ok_bind, hadd']
  have hreadable : book.Readable := by
    obtain ⟨hpending, hself, -⟩ := hwf.pending halloc
    refine hpending.readable ?_ ?_ ?_ hadd
    · rw [hself]
      exact ⟨hin, hfree⟩
    · rw [hself]
      exact hs
    · intro l hl hindex
      rw [hself] at hindex ⊢
      obtain ⟨t, ht, hside⟩ := Shape.mem_levels.mp hl
      have hok := (hwf.side t ht).level l hside
      obtain ⟨x, xs, hx⟩ := List.exists_cons_of_ne_nil hok.nonempty
      have hxl : x ∈ l.orders := by simp [hx]
      have hused := (hwf.orderUsed x).mpr (Shape.mem_orders_of_side ht hside hxl)
      have hxprice := hok.orderPrice x hxl
      have hlprice : (b.book.level l.ptr).price = a.price := by
        rw [← hxprice]
        exact hprice x hused (by rwa [hxprice])
      refine ⟨hlprice, ?_⟩
      rcases hs.eq_or_opposite ht with rfl | rfl
      · exact hside
      · have hmissed := hdone.cleared hs hwf hleaves l hside
        rw [hlprice] at hmissed
        simp [limitMissed] at hmissed
  obtain ⟨bbo, calls, hstep⟩ := onMarketUpdate_returns (T := T) (by simp) happly
    (hreadable.renamed hpaired'.heap) hpaired'.heap.orderSound
  exact ⟨_, _, LoggedRun.execute_cons hstep rfl, hpaired'.mirrored, fun _ _ hall => by simp at hall⟩

/-- What the matching loop keeps: the client has taken the updates so far and mirrors the book. -/
structure Carrying (T : MarketOrderBook) (next : OrderId) (price : Price) (b : MEOrderBook)
    (us : List MEMarketUpdate) : Prop where
  wellFormed : ∃ sh, b.book.WellFormed sh
  ids : IdsBelow next b
  price : PriceFree b price
  carries : Carries T us b.book
  noAdd : ∀ u ∈ us, u.type ≠ .add

/-- One fill. The client takes its two updates. -/
lemma Carrying.fill {us : List MEMarketUpdate} {price : Price} (h : Carrying T next price b us)
    (hnext : next ≤ ME_MAX_ORDER_IDS) {a : Aggressor} (hs : a.side.Trading)
    {leavesQty leavesQty' : Qty} {itr : Nat} (hstep : MatchStep a b leavesQty itr b' leavesQty') :
    Carrying T next price b' (us ++ updates (a.fill (b.book.order itr) leavesQty).events) := by
  obtain ⟨⟨sh, hwf⟩, hids, hprice, hcarries, hnoAdd⟩ := h
  obtain ⟨lvl, htop, hfirst⟩ := hstep.first
  obtain ⟨os, ls, hside⟩ := side_of_top hwf hs.opposite htop hfirst
  have hused : b.book.orderPool.Used itr := (hwf.orderUsed itr).mpr
    (Shape.mem_orders_of_side hs.opposite (l := ⟨lvl, itr :: os⟩) (by simp [hside]) (by simp))
  have hf := hstep.fills.frame
  have hwf' := hstep.fills.wellFormed hwf hs.opposite hside
  have hids' : IdsBelow next b' := hids.congr (fun q hq => ((hf.used q).mp hq).1) hf.ids
  have hprice' : PriceFree b' price := by
    intro o ho
    rw [hf.price o]
    exact hprice o ((hf.used o).mp ho).1
  have hid : (b.book.order itr).ids.marketOrderId < ME_MAX_ORDER_IDS :=
    lt_of_lt_of_le (hids.below itr hused) hnext
  have hus : updates (a.fill (b.book.order itr) leavesQty).events =
      [(a.fill (b.book.order itr) leavesQty).trade] ++ [(a.fill (b.book.order itr) leavesQty).bookUpdate] := by
    simp [Fill.events]
  have hkinds : ∀ u ∈ updates (a.fill (b.book.order itr) leavesQty).events, u.type ≠ .add := by
    intro u hu
    simp only [Fill.events, updates_cons_response, updates_cons_update, updates_nil, List.mem_cons,
      List.not_mem_nil, or_false, Aggressor.fill] at hu
    rcases hu with rfl | rfl
    · simp
    · split <;> simp
  refine ⟨⟨_, hwf'⟩, hids', hprice', hcarries.append hnoAdd fun T₁ h₁ _ => ?_, ?_⟩
  · rw [hus]
    refine (carries_trade h₁ rfl).append (by simp [Aggressor.fill]) fun T₂ h₂ _ => ?_
    rcases hstep.fills with ⟨hqty, -, book, hbook, rfl⟩ | ⟨hqty, -, rfl⟩
    · obtain ⟨b₁, hrun, hwf₁⟩ := removeFirst_spec hwf hs.opposite hside
      obtain rfl : b₁.setQty itr 0 = book := by simpa [removeOrder_setQty hrun] using hbook
      have hcancel := h₂.cancel hwf hid hrun hwf₁ (u := (a.fill (b.book.order itr) leavesQty).bookUpdate)
        (by simp [Aggressor.fill, hqty]) (by simp [Aggressor.fill, hqty])
      -- the engine writes the empty order before it removes it, the client never sees this
      apply hcancel.mono
      intro c hc
      obtain ⟨σ, τ, hpaired, -, -⟩ := hc.paired hwf₁
      exact (hpaired.setQty_free (fun hu => ((removeOrder_frame hrun).used itr).mp hu |>.1 rfl) 0).mirrored
    · have hnot : ¬(b.book.order itr).qty ≤ leavesQty := Nat.not_le.mpr hqty
      exact h₂.modify hwf hused hid (by simp [Aggressor.fill, hnot])
        (by simp [Aggressor.fill, hnot]) (by simp [Aggressor.fill, hnot])
  · intro u hu
    rcases List.mem_append.mp hu with hu | hu
    · exact hnoAdd u hu
    · exact hkinds u hu

/-- The client takes every update of an `add`. -/
theorem add_carried (hwf : b.book.WellFormed sh) (hids : IdsBelow b.nextMarketOrderId b)
    (hmirrored : Mirrored b.book T.book) (hnext : b.nextMarketOrderId < ME_MAX_ORDER_IDS)
    (horders : T.book.orderPool.HasRoom) (hlevels : T.book.ordersAtPricePool.HasRoom)
    {clientId : ClientId} {clientOrderId : OrderId} {tickerId : TickerId} {side : Side} {price : Price}
    {qty : Qty} (hs : side.Trading)
    (hin : OrderKey.inTable MEOrderIds (clientId, clientOrderId) = true)
    (hfree : b.book.orderTable (clientId, clientOrderId) = none) (hprice : PriceFree b price)
    {es : List Event} (hrun : b.add clientId clientOrderId tickerId side price qty = .ok (b', es)) :
    Carries T (updates es) b'.book ∧ IdsBelow b'.nextMarketOrderId b' := by
  let a := addAggressor clientId clientOrderId tickerId side price qty
  obtain ⟨b₁, leavesQty, filled, hmatch, hrest⟩ := add_cases hrun
  have hinit : Carrying T b.nextMarketOrderId price b.drawn [] :=
    ⟨⟨sh, hwf⟩, hids.congr (fun q hq => hq) (fun q => rfl), hprice, carries_nil hmirrored, by simp⟩
  have hnextDrawn : b.drawn.nextMarketOrderId = b.nextMarketOrderId + 1 :=
    wrap64_of_lt (lt_of_le_of_lt (Nat.succ_le_of_lt hnext) (by decide))
  have hfree₁ := (checkForMatch_keeps a hs (b := b.drawn) hwf hmatch (clientId, clientOrderId)).keyFree hfree
  have hrule := checkForMatch_rule a
    (P := fun c _ fills => Carrying T b.nextMarketOrderId price c (updates (fills.flatMap Fill.events)) ∧
      c.nextMarketOrderId = b.nextMarketOrderId + 1)
    (fun hs c q fills itr c' q' hc hstep => ?_) ⟨hinit, hnextDrawn⟩ hmatch
  · obtain ⟨fills, rfl, ⟨⟨⟨sh₁, hwf₁⟩, hids₁, hprice₁, hcarries, hnoAdd⟩, hnext₁⟩, hdone⟩ := hrule
    rcases hrest with ⟨-, rfl, rfl⟩ | ⟨hleaves, priority, o, hrests, rfl⟩
    · rw [accepted, updates_cons_response]
      refine ⟨hcarries, ?_⟩
      rw [hnext₁]
      exact ⟨hids₁.distinct, fun q hq => Nat.lt_succ_of_lt (hids₁.below q hq)⟩
    · have hus : updates (accepted a b.nextMarketOrderId qty :: fills.flatMap Fill.events ++
          [rested a b.nextMarketOrderId leavesQty priority]) = updates (fills.flatMap Fill.events) ++
            [⟨.add, b.nextMarketOrderId, a.tickerId, a.side, a.price, leavesQty, priority⟩] := by
        simp [accepted, rested]
      rw [hus]
      refine ⟨hcarries.append hnoAdd fun T₁ h₁ hroom => ?_, ?_⟩
      · obtain ⟨ho, hl⟩ := hroom horders hlevels
        exact h₁.rest hwf₁ hids₁ hnext ho hl hs hin hfree₁ hleaves hprice₁ (hdone hs) hrests
      · rw [hrests.frame.nextMarketOrderId, hnext₁]
        exact hids₁.add hrests.frame
  · refine ⟨?_, hstep.fills.frame.nextMarketOrderId.trans hc.2⟩
    rw [List.flatMap_append, List.flatMap_singleton, updates_append]
    exact hc.1.fill hnext.le hs hstep

theorem cancel_carried (hwf : b.book.WellFormed sh) (hids : IdsBelow b.nextMarketOrderId b)
    (hmirrored : Mirrored b.book T.book)
    (hmax : ∀ o, b.book.orderPool.Used o → (b.book.order o).ids.marketOrderId < ME_MAX_ORDER_IDS)
    {clientId : ClientId} {orderId : OrderId} {tickerId : TickerId} {es : List Event}
    (hrun : b.cancel clientId orderId tickerId = .ok (b', es)) :
    Carries T (updates es) b'.book ∧ IdsBelow b'.nextMarketOrderId b' := by
  rcases cancel_cases hrun with ⟨-, rfl, rfl⟩ | ⟨o, book, hkey, hremove, rfl, rfl⟩
  · exact ⟨carries_nil hmirrored, hids⟩
  · have hf := removeOrder_frame hremove
    obtain ⟨b₁, hrun₁, hwf₁⟩ := removeOrder_keep hwf ((hwf.orderUsed o).mp hf.wasUsed)
    obtain rfl : b₁ = book := by simpa [hrun₁] using hremove
    refine ⟨hmirrored.cancel hwf (hmax o hf.wasUsed) hremove hwf₁ rfl rfl, ?_⟩
    exact hids.congr (fun q hq => ((hf.used q).mp hq).2) fun q =>
      (BookOrder.unlinked_eq_iff.mp (hf.order q)).1

end Calls

/-- A call with its identifiers in range. An `add` brings a pair that is not in use and a price
that collides with no other live price, and finds room in all four pools. -/
def MirrorableCall (b : MEOrderBook) (T : MarketOrderBook) : BookCall → Prop
  | .add clientId clientOrderId _ side price _ =>
    side.Trading ∧ clientId < ME_MAX_NUM_CLIENTS ∧ clientOrderId < ME_MAX_ORDER_IDS ∧
      b.book.orderTable (clientId, clientOrderId) = none ∧
      (∀ p, b.book.ordersAtPricePool.Used p →
        priceToIndex (b.book.level p).price = priceToIndex price → (b.book.level p).price = price) ∧
      b.nextMarketOrderId < ME_MAX_ORDER_IDS ∧
      (b.book.orderPool.HasRoom ∧ b.book.ordersAtPricePool.HasRoom) ∧
      (T.book.orderPool.HasRoom ∧ T.book.ordersAtPricePool.HasRoom)
  | .cancel _ orderId _ =>
    orderId < ME_MAX_ORDER_IDS ∧
      ∀ o, b.book.orderPool.Used o → (b.book.order o).ids.marketOrderId < ME_MAX_ORDER_IDS

/-- The updates of a call lead a client's book that mirrors the engine's to one that mirrors it
again, even where the engine's ladder ends up out of order. The market order ids come from the
engine's counter. -/
theorem trading_book_mirrors {b : MEOrderBook} {T : MarketOrderBook} {sh : Shape} {call : BookCall}
    (hwf : b.book.WellFormed sh) (hids : IdsBelow b.nextMarketOrderId b)
    (hmirrored : Mirrored b.book T.book) (hcall : MirrorableCall b T call) :
    ∃ b' es T' calls, b.call call = .ok (b', es) ∧
      LoggedRun.execute onMarketUpdate T (updates es) = .ok (T', calls) ∧
      Mirrored b'.book T'.book ∧ IdsBelow b'.nextMarketOrderId b' := by
  have hcarried : ∃ b' es, b.call call = .ok (b', es) ∧ Carries T (updates es) b'.book ∧
      IdsBelow b'.nextMarketOrderId b' := by
    cases call with
    | add clientId clientOrderId tickerId side price qty =>
      obtain ⟨hside, hclient, horder, hfree, hprice, hnext, hroom, hroomT⟩ := hcall
      have hin : OrderKey.inTable MEOrderIds (clientId, clientOrderId) = true := by
        simp [OrderKey.inTable, hclient, horder]
      have hpriceFree : PriceFree b price := by
        intro o ho hindex
        obtain ⟨s, hs, l, hl, hol⟩ := Shape.mem_orders.mp ((hwf.orderUsed o).mp ho)
        have hsame := ((hwf.side s hs).level l hl).orderPrice o hol
        rw [hsame] at hindex ⊢
        exact hprice l.ptr ((hwf.levelUsed _).mpr (Shape.mem_levelPtrs_of_side hs hl)) hindex
      rcases add_returns hwf tickerId hside hin price qty with ⟨⟨b', es⟩, hrun⟩ | ⟨-, hno⟩
      · exact ⟨b', es, hrun, add_carried hwf hids hmirrored hnext hroomT.1 hroomT.2 hside hin hfree
          hpriceFree hrun⟩
      · exact absurd hroom hno
    | cancel clientId orderId tickerId =>
      obtain ⟨horder, hmax⟩ := hcall
      obtain ⟨b', es, hrun⟩ := cancel_returns hwf clientId tickerId horder
      exact ⟨b', es, hrun, cancel_carried hwf hids hmirrored hmax hrun⟩
  obtain ⟨b', es, hrun, ⟨T', calls, hexec, hmirrored', -⟩, hids'⟩ := hcarried
  exact ⟨b', es, T', calls, hrun, hexec, hmirrored', hids'⟩

lemma mirrored_create (t t' : TickerId) :
    Mirrored (MEOrderBook.create t).book (MarketOrderBook.create t').book := by
  have hnone : ∀ {T : Type} (default : T) (n : Nat), {i | (MemPool.create default n).Used i} = ∅ := by
    intro T default n
    ext i
    simp
  refine ⟨id, id, ?_, ?_, fun p hp => ?_, fun o ho => ?_, rfl, rfl, fun _ => rfl, fun i q => ?_, rfl,
    MemPool.sound_create _ (by decide), MemPool.sound_create _ (by decide)⟩
  · rw [MEOrderBook.create, MarketOrderBook.create, hnone]
    exact Set.bijOn_id ∅
  · rw [MEOrderBook.create, MarketOrderBook.create, hnone, hnone]
    exact Set.bijOn_id ∅
  · exact absurd hp (MemPool.not_used_create _ _ _)
  · exact absurd ho (MemPool.not_used_create _ _ _)
  · constructor
    · intro h
      cases h
    · rintro ⟨o, ho, -⟩
      exact absurd ho (MemPool.not_used_create _ _ _)

/-- A fresh client book after the updates of the first `n` calls of `quotedLog`. -/
def quotedClient (n : Nat) : MarketOrderBook :=
  match LoggedRun.execute onMarketUpdate (MarketOrderBook.create 0)
      (updates (LoggedRun.sent (quotedLog.take n))) with
  | .ok (T, _) => T
  | .error _ => .create 0

/-- After `n` quotes the client mirrors the engine. -/
structure Quoted (n : Nat) : Prop where
  executes : ∃ calls, LoggedRun.execute onMarketUpdate (MarketOrderBook.create 0)
    (updates (LoggedRun.sent (quotedLog.take n))) = .ok (quotedClient n, calls)
  mirrored : Mirrored (quotedBook n).book (quotedClient n).book
  ids : IdsBelow (quotedBook n).nextMarketOrderId (quotedBook n)

/-- The room that the client's pools have, and a price that collides with none of the quotes. -/
def QuoteFits (n : Nat) (price : Price) : Prop :=
  (∀ x ∈ restingAfter (LoggedRun.sent (quotedLog.take n)), priceToIndex x.price = priceToIndex price →
    x.price = price) ∧
  (quotedClient n).book.orderPool.HasRoom ∧ (quotedClient n).book.ordersAtPricePool.HasRoom

lemma Quoted.next {n : Nat} (h : Quoted n) (hn : n < 4) (clientId : ClientId) (clientOrderId : OrderId) (side : Side)
    (price : Price) (qty : Qty) {es : List Event}
    (hrun : (quotedBook n).call (.add clientId clientOrderId 0 side price qty) = .ok (quotedBook (n + 1), es))
    (hupdates : updates (LoggedRun.sent (quotedLog.take (n + 1))) =
      updates (LoggedRun.sent (quotedLog.take n)) ++ updates es)
    (hside : side.Trading) (hkey : OrderKey.inTable MEOrderIds (clientId, clientOrderId) = true)
    (hbelow : (quotedBook n).nextMarketOrderId < ME_MAX_ORDER_IDS)
    (hfree : (quotedBook n).book.orderTable (clientId, clientOrderId) = none) (hfits : QuoteFits n price) :
    Quoted (n + 1) := by
  obtain ⟨calls, hexec⟩ := h.executes
  obtain ⟨hprice, horders, hlevels⟩ := hfits
  obtain ⟨sh, hin⟩ := (quotedBook_run hn.le).inStep
  have hpriceFree : PriceFree (quotedBook n) price := fun o ho =>
    hprice _ (hin.tracks.mem ((hin.wellFormed.orderUsed o).mp ho))
  obtain ⟨⟨T', calls', hcarried, hmirrored', -⟩, hids'⟩ := add_carried hin.wellFormed h.ids h.mirrored hbelow
    horders hlevels hside hkey hfree hpriceFree hrun
  have hall := LoggedRun.execute_append hexec hcarried
  rw [← hupdates] at hall
  have hclient : quotedClient (n + 1) = T' := by
    simp only [quotedClient, hall]
  exact ⟨⟨_, hclient ▸ hall⟩, hclient ▸ hmirrored', hids'⟩

lemma quotedClient_mirrors : Quoted 4 := by
  have hnone : ∀ o, ¬(MEOrderBook.create 0).book.orderPool.Used o := fun _ => MemPool.not_used_create _ _ _
  have h₀ : Quoted 0 := ⟨⟨[], rfl⟩, mirrored_create 0 0,
    ⟨fun o _ ho => absurd ho (hnone o), fun o ho => absurd ho (hnone o)⟩⟩
  have h₁ := h₀.next (by decide) 1 1 .buy 99 10 rfl rfl (by decide) (by decide) (by decide) (by decide)
    ⟨by decide, ⟨10, by decide +kernel, by decide +kernel, by decide +kernel⟩,
      ⟨10, by decide +kernel, by decide +kernel, by decide +kernel⟩⟩
  have h₂ := h₁.next (by decide) 1 2 .buy 98 10 rfl rfl (by decide) (by decide) (by decide) (by decide)
    ⟨by decide, ⟨10, by decide +kernel, by decide +kernel, by decide +kernel⟩,
      ⟨10, by decide +kernel, by decide +kernel, by decide +kernel⟩⟩
  have h₃ := h₂.next (by decide) 2 1 .sell 100 10 rfl rfl (by decide) (by decide) (by decide) (by decide)
    ⟨by decide, ⟨10, by decide +kernel, by decide +kernel, by decide +kernel⟩,
      ⟨10, by decide +kernel, by decide +kernel, by decide +kernel⟩⟩
  exact h₃.next (by decide) 2 2 .sell 101 10 rfl rfl (by decide) (by decide) (by decide) (by decide)
    ⟨by decide, ⟨10, by decide +kernel, by decide +kernel, by decide +kernel⟩,
      ⟨10, by decide +kernel, by decide +kernel, by decide +kernel⟩⟩

/-- Two bids and two asks are mirrored, and a buy takes out the better ask with its level and a part of the
other. -/
theorem trading_book_mirrors_quoted : (∀ o < 4, (quotedBook 4).book.orderPool.Used o) ∧
    Mirrored (quotedBook 4).book (quotedClient 4).book ∧ ∃ b' es T' calls,
    (quotedBook 4).call (.add 3 1 0 .buy 101 10) = .ok (b', es) ∧
      (updates es).map MEMarketUpdate.type = [.trade, .cancel, .trade, .modify] ∧
      LoggedRun.execute onMarketUpdate (quotedClient 4) (updates es) = .ok (T', calls) ∧
      Mirrored b'.book T'.book ∧ IdsBelow b'.nextMarketOrderId b' := by
  have hquoted := quotedClient_mirrors
  obtain ⟨sh, hin⟩ := (quotedBook_run le_rfl).inStep
  have hprices : ∀ x ∈ restingAfter (LoggedRun.sent (quotedLog.take 4)), priceToIndex x.price = priceToIndex 101 →
      x.price = 101 := by decide
  have hlevels : ∀ p, (quotedBook 4).book.ordersAtPricePool.Used p →
      priceToIndex ((quotedBook 4).book.level p).price = priceToIndex 101 →
        ((quotedBook 4).book.level p).price = 101 := by
    intro p hp
    obtain ⟨l, hl, rfl⟩ := List.mem_map.mp ((hin.wellFormed.levelUsed p).mp hp)
    obtain ⟨s, hs, hl⟩ := Shape.mem_levels.mp hl
    obtain ⟨x, hx, -, hprice⟩ := hin.tracks.mem_of_level hin.wellFormed hs hl
    rw [← hprice]
    exact hprices x hx
  obtain ⟨b', es, T', calls, hrun, hexec, hmirrors⟩ := trading_book_mirrors hin.wellFormed hquoted.ids hquoted.mirrored
    (show MirrorableCall (quotedBook 4) (quotedClient 4) (.add 3 1 0 .buy 101 10) from
      ⟨by decide, by decide, by decide, by decide, hlevels, by decide,
        ⟨⟨10, by decide, by decide, by decide⟩, ⟨10, by decide, by decide, by decide⟩⟩,
        ⟨⟨10, by decide +kernel, by decide +kernel, by decide +kernel⟩,
          ⟨10, by decide +kernel, by decide +kernel, by decide +kernel⟩⟩⟩)
  have htypes : ∀ b' es, (quotedBook 4).call (.add 3 1 0 .buy 101 10) = .ok (b', es) →
      (updates es).map MEMarketUpdate.type = [.trade, .cancel, .trade, .modify] := by
    intro b' es hrun
    cases hrun
    rfl
  exact ⟨by decide, hquoted.mirrored, b', es, T', calls, hrun, htypes b' es hrun, hexec, hmirrors⟩

end LowLatencyExchange
