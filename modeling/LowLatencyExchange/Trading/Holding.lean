import LowLatencyExchange.Book.Quantity
import LowLatencyExchange.Book.Remove
import LowLatencyExchange.Library.Run
import LowLatencyExchange.Trading.Depth

/-!
# Streams on a client's book

A stream whose `ADD`s open every level at the end of its ladder is taken whole, and leaves a
book that holds its live orders.
-/

namespace LowLatencyExchange
open PriceBook

/-- A pool has room when fewer orders are in use than all but one of its blocks. -/
lemma MemPool.hasRoom_of_length {T : Type} {p : MemPool T} {used : List Nat}
    (hused : ∀ i, p.Used i → i ∈ used) (hlen : used.length + 1 < p.size) : p.HasRoom := by
  by_contra hno
  have hsub : Finset.range p.size ⊆ (p.nextFreeIndex :: used).toFinset := by
    intro i hi
    rw [List.mem_toFinset, List.mem_cons]
    by_contra hfree
    rw [not_or] at hfree
    exact hno ⟨i, Finset.mem_range.mp hi, hfree.1, fun h => hfree.2 (hused i h)⟩
  have hcard := (Finset.card_le_card hsub).trans (List.toFinset_card_le _)
  rw [Finset.card_range, List.length_cons] at hcard
  omega

/-- An `ADD` that joins a level of its side or is worse than all of them. -/
def OpensLast (live : List MEMarketUpdate) (u : MEMarketUpdate) : Prop :=
  u.type = .add → (∃ x ∈ live, x.side = u.side ∧ x.price = u.price) ∨
    ∀ x ∈ live, x.side = u.side → addAfter u.side u.price x.price

instance (live : List MEMarketUpdate) (u : MEMarketUpdate) : Decidable (OpensLast live u) :=
  inferInstanceAs (Decidable (_ → _))

/-- No `ADD` opens a level that is better than a live level of its side. -/
def OpensAllLast (live : List MEMarketUpdate) : List MEMarketUpdate → Prop
  | [] => True
  | u :: us => OpensLast live u ∧ OpensAllLast (seeUpdate live u) us

namespace MarketOrderBook
variable {b b' : MarketBook} {sh : Shape} {t : TickerId} {live : List MEMarketUpdate} {u : MEMarketUpdate}

lemma liveOrder_congr {o : Nat} (h : (b'.order o).unlinked = (b.order o).unlinked) :
    liveOrder b' t o = liveOrder b t o := by
  obtain ⟨hids, hside, hprice, hqty, hpriority⟩ := BookOrder.unlinked_eq_iff.mp h
  simp only [liveOrder, hids, hside, hprice, hqty, hpriority]

lemma Holds.orderId_injective (h : Holds t b sh live) {o q : Nat} (ho : o ∈ sh.orders) (hq : q ∈ sh.orders)
    (hid : (b.order o).ids.orderId = (b.order q).ids.orderId) : o = q := by
  have ho' := (h.wellFormed.keys _ o).mpr ⟨ho, hid⟩
  have hq' := (h.wellFormed.keys _ q).mpr ⟨hq, rfl⟩
  simpa using ho'.symm.trans hq'

/-- There are no more blocks in use than live orders. -/
lemma Holds.orders_length (h : Holds t b sh live) : sh.orders.length ≤ live.length := by
  have hnodup : (sh.orders.map (liveOrder b t)).Nodup :=
    h.wellFormed.ordersNodup.map_on fun o ho q hq heq =>
      h.orderId_injective ho hq (congrArg MEMarketUpdate.orderId heq)
  have hsub : sh.orders.map (liveOrder b t) ⊆ live := by
    intro x hx
    exact (h.mem x).mpr (List.mem_map.mp hx)
  have hlen := (List.subperm_of_subset hnodup hsub).length_le
  rwa [List.length_map] at hlen

/-- The price of a level is that of a live order of its side. -/
lemma Holds.exists_live (h : Holds t b sh live) {s : Side} (hs : s.Trading) {l : LevelShape}
    (hl : l ∈ sh.side s) : ∃ x ∈ live, x.side = s ∧ x.price = (b.level l.ptr).price := by
  have hok := (h.wellFormed.side s hs).level l hl
  obtain ⟨o, ho⟩ := List.exists_mem_of_ne_nil _ hok.nonempty
  exact ⟨liveOrder b t o, (h.mem _).mpr ⟨o, Shape.mem_orders_of_side hs hl ho, rfl⟩,
    hok.orderSide o ho, hok.orderPrice o ho⟩

/-- A live order stands in a level of its side and price. -/
lemma Holds.exists_level (h : Holds t b sh live) {x : MEMarketUpdate} (hx : x ∈ live) :
    x.side.Trading ∧ ∃ l ∈ sh.side x.side, (b.level l.ptr).price = x.price := by
  obtain ⟨o, ho, rfl⟩ := (h.mem x).mp hx
  obtain ⟨s, hs, l, hl, ho⟩ := Shape.mem_orders.mp ho
  have hok := (h.wellFormed.side s hs).level l hl
  obtain rfl : s = (b.order o).side := (hok.orderSide o ho).symm
  exact ⟨hs, l, hl, (hok.orderPrice o ho).symm⟩

/-- A new price is one more than the prices of the levels. -/
lemma Holds.levels_length (h : Holds t b sh live) {price : Price}
    (hnew : ∀ p ∈ sh.levelPtrs, (b.level p).price ≠ price) {prices : List Price}
    (hprices : ∀ x ∈ live, x.price ∈ prices) (hprice : price ∈ prices) :
    sh.levelPtrs.length + 1 ≤ prices.dedup.length := by
  have hnodup : (price :: sh.levelPtrs.map fun p => (b.level p).price).Nodup := by
    refine List.nodup_cons.mpr ⟨fun hmem => ?_, ?_⟩
    · obtain ⟨p, hp, he⟩ := List.mem_map.mp hmem
      exact hnew p hp he
    · exact h.wellFormed.levelsNodup.map_on fun p hp q hq he =>
        h.wellFormed.level_ext hp hq (congrArg priceToIndex he)
  have hsub : (price :: sh.levelPtrs.map fun p => (b.level p).price) ⊆ prices.dedup := by
    intro x hx
    rw [List.mem_dedup]
    rcases List.mem_cons.mp hx with rfl | hx
    · exact hprice
    · obtain ⟨p, hp, rfl⟩ := List.mem_map.mp hx
      obtain ⟨l, hl, rfl⟩ := List.mem_map.mp hp
      obtain ⟨s, hs, hl⟩ := Shape.mem_levels.mp hl
      obtain ⟨x, hx, -, hxp⟩ := h.exists_live hs hl
      exact hxp ▸ hprices x hx
  have hlen := (List.subperm_of_subset hnodup hsub).length_le
  rwa [List.length_cons, List.length_map] at hlen

/-- The order at the end of a level, or alone in a level behind all others. -/
def PlacedLast (sh : Shape) (s : Side) (o : Nat) (sh' : Shape) : Prop :=
  (∃ pre p os post, sh.side s = pre ++ ⟨p, os⟩ :: post ∧
    sh' = sh.setSide s (pre ++ ⟨p, os ++ [o]⟩ :: post)) ∨
  ∃ n, sh' = sh.setSide s (sh.side s ++ [⟨n, [o]⟩])

/-- Each level is one of before, or has the order behind those of before. -/
lemma PlacedLast.cases {s : Side} {o : Nat} {sh' : Shape} (h : PlacedLast sh s o sh') (hs : s.Trading)
    {s' : Side} (hs' : s'.Trading) {l : LevelShape} (hl : l ∈ sh'.side s') :
    l ∈ sh.side s' ∨ l.orders = [o] ∨ ∃ l₀ ∈ sh.side s', l.orders = l₀.orders ++ [o] := by
  by_cases hss : s' = s
  · subst hss
    rcases h with ⟨pre, p, os, post, hside, rfl⟩ | ⟨n, rfl⟩
    · rw [Shape.side_setSide_self, List.mem_append, List.mem_cons] at hl
      rw [hside]
      rcases hl with hl | rfl | hl
      · exact .inl (by simp [hl])
      · exact .inr (.inr ⟨⟨p, os⟩, by simp, rfl⟩)
      · exact .inl (by simp [hl])
    · rw [Shape.side_setSide_self, List.mem_append, List.mem_singleton] at hl
      rcases hl with hl | rfl
      · exact .inl hl
      · exact .inr (.inl rfl)
  · rcases h with ⟨pre, p, os, post, hside, rfl⟩ | ⟨n, rfl⟩ <;>
      exact .inl (by rwa [Shape.side_setSide_of_ne hs hs' hss] at hl)

/-- The order an `ADD` allocates. -/
def newOrder (u : MEMarketUpdate) : MarketOrder :=
  ⟨⟨u.orderId⟩, u.side, u.price, u.qty, u.priority, none, none⟩

lemma applyUpdate_add (htype : u.type = .add) {pool : MemPool MarketOrder} {o : Nat}
    (halloc : b.orderPool.allocate (newOrder u) = .ok (pool, o)) :
    applyUpdate b u = (b.setOrderPool pool).addOrder o := by
  unfold applyUpdate
  unfold newOrder at halloc
  simp only [htype, halloc, ok_bind]

/-- The live orders with the new one. -/
theorem Holds.added (h : Holds t b sh live) (hu : Continues t live u) (htype : u.type = .add)
    (hside : u.side.Trading) {pool : MemPool MarketOrder} {o : Nat} {sh' : Shape}
    (halloc : b.orderPool.allocate (newOrder u) = .ok (pool, o))
    (hrun : (b.setOrderPool pool).addOrder o = .ok b') (hplaced : PlacedLast sh u.side o sh')
    (hwf : b'.WellFormed sh') : Holds t b' sh' (live ++ [u]) := by
  obtain ⟨hticker, hfresh⟩ := hu
  simp only [htype] at hfresh
  obtain ⟨hpending, hnew, hother⟩ := h.wellFormed.pending halloc
  have hframe := addOrder_frame hrun
  have hold : ∀ q ∈ sh.orders, (b'.order q).unlinked = (b.order q).unlinked := by
    intro q hq
    rw [hframe.order, hother q]
    rintro rfl
    exact hpending.fresh hq
  have hself : liveOrder b' t o = u := by
    have hunlinked := hframe.order o
    rw [hnew] at hunlinked
    obtain ⟨hids, hside', hprice, hqty, hpriority⟩ := BookOrder.unlinked_eq_iff.mp hunlinked
    simp only [liveOrder, hids, hside', hprice, hqty, hpriority, ← hticker, ← htype]
    rfl
  have hids : ∀ q ∈ sh.orders, (b'.order q).ids.orderId = (b.order q).ids.orderId := fun q hq =>
    congrArg MarketOrderIds.orderId (BookOrder.unlinked_eq_iff.mp (hold q hq)).1
  have hlt : ∀ q ∈ sh.orders, (b'.order q).ids.orderId < (b'.order o).ids.orderId := by
    intro q hq
    have hself' : (b'.order o).ids.orderId = u.orderId := congrArg MEMarketUpdate.orderId hself
    rw [hids q hq, hself']
    exact hfresh _ ((h.mem _).mpr ⟨q, hq, rfl⟩)
  have hmem : ∀ q, q ∈ sh'.orders ↔ q = o ∨ q ∈ sh.orders := fun q => by
    rw [← hwf.orderUsed, hframe.used, hpending.orderUsed]
  refine ⟨hwf, ?_, ?_, fun s hs l hl => ?_, fun x => ?_⟩
  · exact hframe.levelSize.trans h.levelSize
  · obtain ⟨-, -, k, rfl⟩ := MemPool.allocate_eq_ok halloc
    exact hframe.orderSize.trans h.orderSize
  · have hkept : ∀ l₀ ∈ sh.side s, l₀.orders.Pairwise fun q r =>
        (b'.order q).ids.orderId < (b'.order r).ids.orderId := by
      intro l₀ hl₀
      refine (h.sorted s hs l₀ hl₀).imp_of_mem fun {q r} hq hr hqr => ?_
      rwa [hids q (Shape.mem_orders_of_side hs hl₀ hq), hids r (Shape.mem_orders_of_side hs hl₀ hr)]
    rcases hplaced.cases hside hs hl with hl | hl | ⟨l₀, hl₀, hl⟩
    · exact hkept l hl
    · rw [hl]
      exact List.pairwise_singleton _ _
    · rw [hl, List.pairwise_append]
      refine ⟨hkept l₀ hl₀, List.pairwise_singleton _ _, fun q hq r hr => ?_⟩
      obtain rfl := List.mem_singleton.mp hr
      exact hlt q (Shape.mem_orders_of_side hs hl₀ hq)
  · rw [List.mem_append, List.mem_singleton, h.mem]
    constructor
    · rintro (⟨q, hq, rfl⟩ | rfl)
      · exact ⟨q, (hmem q).mpr (.inr hq), liveOrder_congr (hold q hq)⟩
      · exact ⟨o, (hmem o).mpr (.inl rfl), hself⟩
    · rintro ⟨q, hq, rfl⟩
      rcases (hmem q).mp hq with rfl | hq
      · exact .inr hself
      · exact .inl ⟨q, hq, (liveOrder_congr (hold q hq)).symm⟩

/-- Where the price of a live order indexes the table there is a level of its side and price, and
nowhere else. -/
lemma Holds.getOrdersAtPrice (h : Holds t b sh live) (hq : Quotable (live ++ [u])) {p : Nat}
    (hget : b.getOrdersAtPrice u.price = some p) :
    ∃ l ∈ sh.side u.side, l.ptr = p ∧ (b.level l.ptr).price = u.price := by
  obtain ⟨hp, hindex⟩ := (h.wellFormed.prices _ p).mp hget
  obtain ⟨l, hl, rfl⟩ := List.mem_map.mp hp
  obtain ⟨s, hs, hl⟩ := Shape.mem_levels.mp hl
  obtain ⟨x, hx, rfl, hxp⟩ := h.exists_live hs hl
  have hxu : x.price = u.price :=
    hq.distinct x (by simp [hx]) u (by simp) (by rw [hxp]; exact hindex)
  have hsame : u.side = x.side := by
    rcases hs.eq_or_opposite (hq.trading u (by simp)) with hsame | hopposite
    · exact hsame
    · rcases hs with hbuy | hsell
      · rw [hbuy] at hopposite
        have hlt := hq.uncrossed x (by simp [hx]) u (by simp) hbuy hopposite
        exact absurd hxu (Nat.ne_of_lt hlt)
      · rw [hsell] at hopposite
        have hlt := hq.uncrossed u (by simp) x (by simp [hx]) hopposite hsell
        exact absurd hxu.symm (Nat.ne_of_lt hlt)
  exact ⟨l, hsame ▸ hl, rfl, hxp.symm.trans hxu⟩

/-- An `ADD` that opens no level but the worst of its side. -/
theorem Holds.add (h : Holds t b sh live) (hu : Continues t live u) (htype : u.type = .add)
    (hq : Quotable (live ++ [u])) (hopens : OpensLast live u) :
    ∃ b' sh', applyUpdate b u = .ok b' ∧ Holds t b' sh' (live ++ [u]) := by
  have hside := hq.trading u (by simp)
  have hroom : b.orderPool.HasRoom := by
    apply MemPool.hasRoom_of_length (fun o ho => (h.wellFormed.orderUsed o).mp ho)
    have hlen := hq.orders
    rw [List.length_append, List.length_singleton] at hlen
    rw [h.orderSize]
    exact lt_of_le_of_lt (Nat.add_le_add_right h.orders_length 1) hlen
  obtain ⟨pool, o, halloc⟩ : ∃ pool o, b.orderPool.allocate (newOrder u) = .ok (pool, o) := by
    rcases MemPool.allocate_spec h.wellFormed.orderPool (newOrder u) with ⟨hno, -⟩ | ⟨-, k, halloc, -⟩
    · exact absurd hroom hno
    · exact ⟨_, _, halloc⟩
  obtain ⟨hpending, hnew, -⟩ := h.wellFormed.pending halloc
  have happly := applyUpdate_add htype halloc
  have hobj : Placeable (b.setOrderPool pool) ((b.setOrderPool pool).order o) := by
    rw [hnew]
    refine ⟨decide_eq_true (hq.inTable u (by simp)), ?_⟩
    change b.orderTable u.orderId = none
    cases hkey : b.orderTable u.orderId with
    | none => rfl
    | some q =>
      obtain ⟨hqmem, hid⟩ := (h.wellFormed.keys _ q).mp hkey
      obtain ⟨-, hfresh⟩ := hu
      simp only [htype] at hfresh
      exact absurd hid (Nat.ne_of_lt (hfresh _ ((h.mem _).mpr ⟨q, hqmem, rfl⟩)))
  have hsideNew : ((b.setOrderPool pool).order o).side = u.side := by
    rw [hnew]
    rfl
  have hpriceNew : ((b.setOrderPool pool).order o).price = u.price := by
    rw [hnew]
    rfl
  cases hget : b.getOrdersAtPrice u.price with
  | some p =>
    obtain ⟨⟨q, os⟩, hl, rfl, hprice⟩ := h.getOrdersAtPrice hq hget
    obtain ⟨pre, post, hsplit⟩ := List.append_of_mem hl
    obtain ⟨b', hrun, hwf⟩ := addOrder_joins hpending hobj hside hsideNew hsplit (hprice.trans hpriceNew.symm)
    exact ⟨b', _, happly.trans hrun, h.added hu htype hside halloc hrun (.inl ⟨_, _, _, _, hsplit, rfl⟩) hwf⟩
  | none =>
    have hno : ∀ p ∈ sh.levelPtrs, (b.level p).price ≠ u.price := by
      rintro p hp hprice
      have hsome := h.wellFormed.getOrdersAtPrice_level hp
      rw [hprice, hget] at hsome
      cases hsome
    have hworse : ∀ x ∈ live, x.side = u.side → addAfter u.side u.price x.price := by
      apply (hopens htype).resolve_left
      rintro ⟨x, hx, hxs, hxp⟩
      obtain ⟨hxside, l, hl, hlp⟩ := h.exists_level hx
      exact hno l.ptr (Shape.mem_levelPtrs_of_side hxside hl) (hlp.trans hxp)
    have hlevelRoom : b.ordersAtPricePool.HasRoom := by
      apply MemPool.hasRoom_of_length (fun p hp => (h.wellFormed.levelUsed p).mp hp)
      rw [h.levelSize]
      exact lt_of_le_of_lt (h.levels_length hno (fun x hx => List.mem_map_of_mem (by simp [hx]))
        (List.mem_map_of_mem (by simp))) hq.levels
    rcases addOrder_returns hpending (hsideNew ▸ hside) hobj.keyIn with ⟨-, hfull⟩ | ⟨b', hrun⟩
    · exact absurd hlevelRoom hfull
    obtain ⟨n, hwf⟩ := addOrder_opens hpending hobj hside hsideNew (hpriceNew ▸ hget) (fun q hq' => by
      obtain ⟨l, hl, rfl⟩ := List.mem_map.mp hq'
      obtain ⟨x, hx, hxs, hxp⟩ := h.exists_live hside hl
      rw [hpriceNew]
      exact hxp ▸ hworse x hx hxs) hrun
    exact ⟨b', _, happly.trans hrun, h.added hu htype hside halloc hrun (.inr ⟨n, rfl⟩) hwf⟩

lemma Holds.lookupOrder (h : Holds t b sh live) {x : MEMarketUpdate} (hx : x ∈ live) :
    ∃ o ∈ sh.orders, liveOrder b t o = x ∧ MarketOrderBook.lookupOrder b x.orderId = .ok (some o) := by
  obtain ⟨o, ho, rfl⟩ := (h.mem x).mp hx
  have hkey := (h.wellFormed.keys _ o).mpr ⟨ho, rfl⟩
  have hin : (liveOrder b t o).orderId < ME_MAX_ORDER_IDS := of_decide_eq_true (h.wellFormed.inTable o ho)
  refine ⟨o, ho, rfl, ?_⟩
  rw [MarketOrderBook.lookupOrder, if_pos hin]
  exact congrArg Except.ok hkey

theorem Holds.modify (h : Holds t b sh live) (hu : Continues t live u) (htype : u.type = .modify) :
    ∃ b', applyUpdate b u = .ok b' ∧ Holds t b' sh (seeUpdate live u) := by
  obtain ⟨-, hu⟩ := hu
  simp only [htype] at hu
  obtain ⟨x, hx, hid, -⟩ := hu
  obtain ⟨o, ho, rfl, hlookup⟩ := h.lookupOrder hx
  rw [hid] at hlookup
  refine ⟨b.setQty o u.qty, ?_, ⟨h.wellFormed.setQty, h.levelSize, h.orderSize, ?_, fun x => ?_⟩⟩
  · simp only [applyUpdate, htype, hlookup, ok_bind, deref_some, pure_eq_ok]
  · intro s hs l hl
    simpa using h.sorted s hs l hl
  · have hshown : ∀ q ∈ sh.orders, liveOrder (b.setQty o u.qty) t q =
        if (liveOrder b t q).orderId = u.orderId then { liveOrder b t q with qty := u.qty }
        else liveOrder b t q := by
      intro q hq
      by_cases hqo : q = o
      · subst hqo
        rw [if_pos hid]
        simp [liveOrder]
      · rw [if_neg fun he => hqo (h.orderId_injective hq ho (he.trans hid.symm))]
        apply liveOrder_congr
        rw [order_modifyOrder, if_neg hqo]
    simp only [seeUpdate, htype, List.mem_map, h.mem]
    constructor
    · rintro ⟨-, ⟨q, hq, rfl⟩, rfl⟩
      exact ⟨q, hq, hshown q hq⟩
    · rintro ⟨q, hq, rfl⟩
      exact ⟨_, ⟨q, hq, rfl⟩, (hshown q hq).symm⟩

theorem Holds.cancel (h : Holds t b sh live) (hu : Continues t live u) (htype : u.type = .cancel) :
    ∃ b' sh', applyUpdate b u = .ok b' ∧ Holds t b' sh' (seeUpdate live u) := by
  obtain ⟨-, hu⟩ := hu
  simp only [htype] at hu
  obtain ⟨x, hx, hid⟩ := hu
  obtain ⟨o, ho, rfl, hlookup⟩ := h.lookupOrder hx
  rw [hid] at hlookup
  obtain ⟨s, hs, ⟨p, os⟩, hl, hos⟩ := Shape.mem_orders.mp ho
  obtain ⟨pre, post, hsplit⟩ := List.append_of_mem hl
  obtain ⟨l, m, rfl⟩ := List.append_of_mem hos
  obtain ⟨b', hrun, hwf⟩ := removeOrder_spec h.wellFormed hs hsplit
  have hframe := removeOrder_frame hrun
  have hmem : ∀ q, q ∈ (sh.dropOrder s pre post p (l ++ m)).orders ↔ q ≠ o ∧ q ∈ sh.orders := fun q => by
    rw [← hwf.orderUsed, hframe.used, h.wellFormed.orderUsed]
  have hids : ∀ q, (b'.order q).ids = (b.order q).ids := fun q =>
    (BookOrder.unlinked_eq_iff.mp (hframe.order q)).1
  refine ⟨b', _, ?_, ⟨hwf, hframe.levelRoom.size.trans h.levelSize, hframe.orderSize.trans h.orderSize,
    fun s' hs' y hy => ?_, fun x => ?_⟩⟩
  · simp only [applyUpdate, htype, hlookup, ok_bind, deref_some, hrun]
  · obtain ⟨z, hz, -, hyz⟩ := Shape.mem_dropOrder hs hsplit h.wellFormed.ordersNodup hs' hy
    simp only [hids, hyz]
    exact (h.sorted s' hs' z hz).sublist List.filter_sublist
  · simp only [seeUpdate, htype, List.mem_filter, h.mem, decide_eq_true_eq]
    constructor
    · rintro ⟨⟨q, hq, rfl⟩, hne⟩
      refine ⟨q, (hmem q).mpr ⟨?_, hq⟩, liveOrder_congr (hframe.order q)⟩
      rintro rfl
      exact hne hid
    · rintro ⟨q, hq, rfl⟩
      obtain ⟨hqo, hq⟩ := (hmem q).mp hq
      rw [liveOrder_congr (hframe.order q)]
      exact ⟨⟨q, hq, rfl⟩, fun he => hqo (h.orderId_injective hq ho (he.trans hid.symm))⟩

/-- One update of a stream. -/
theorem Holds.next {T : MarketOrderBook} (h : Holds t T.book sh live) (hu : Continues t live u)
    (hq : Quotable (seeUpdate live u)) (hopens : OpensLast live u) :
    ∃ T' calls sh', T.onMarketUpdate u = .ok (T', calls) ∧ Holds t T'.book sh' (seeUpdate live u) := by
  have hnext : ∃ b' sh', applyUpdate T.book u = .ok b' ∧ Holds t b' sh' (seeUpdate live u) := by
    cases htype : u.type with
    | add =>
      have hsee : seeUpdate live u = live ++ [u] := by simp only [seeUpdate, htype]
      rw [hsee] at hq ⊢
      exact h.add hu htype hq hopens
    | modify =>
      obtain ⟨b', happly, h'⟩ := h.modify hu htype
      exact ⟨b', sh, happly, h'⟩
    | cancel => exact h.cancel hu htype
    | _ =>
      have hnone := hu.2
      simp only [htype] at hnone
  have htype : u.type ≠ .trade := by
    intro htrade
    have hnone := hu.2
    simp only [htrade] at hnone
  obtain ⟨b', sh', happly, h'⟩ := hnext
  obtain ⟨bbo, calls, hrun⟩ := onMarketUpdate_returns htype happly h'.wellFormed.readable h'.wellFormed.orderPool
  exact ⟨_, calls, sh', hrun, h'⟩

/-- A whole stream. -/
theorem Holds.after {us : List MEMarketUpdate} {T : MarketOrderBook} (h : Holds t T.book sh live)
    (hus : Stream t live us) (hopens : OpensAllLast live us) :
    ∃ T' calls sh', LoggedRun.execute onMarketUpdate T us = .ok (T', calls) ∧
      Holds t T'.book sh' (liveAfter live us) := by
  induction us generalizing T sh live with
  | nil => exact ⟨T, [], sh, rfl, h⟩
  | cons u us ih =>
    obtain ⟨T₁, calls, sh₁, hrun, h₁⟩ := h.next hus.1 hus.2.1 hopens.1
    obtain ⟨T', calls', sh', hrest, h'⟩ := ih h₁ hus.2.2 hopens.2
    exact ⟨T', _, sh', LoggedRun.execute_cons hrun hrest, h'⟩

lemma holds_create (t t' : TickerId) : Holds t (create t').book ⟨[], []⟩ [] where
  wellFormed := wellFormed_empty (MemPool.sound_create _ (by decide)) (MemPool.sound_create _ (by decide))
    (MemPool.not_used_create _ _) (MemPool.not_used_create _ _)
  levelSize := rfl
  orderSize := rfl
  sorted := by
    rintro s (rfl | rfl) l hl <;> cases hl
  mem := fun x => by simp [Shape.orders, Shape.levels]

end MarketOrderBook
end LowLatencyExchange
