import LowLatencyExchange.Book.Intact
import LowLatencyExchange.Trading.SameBook

/-!
# Books that follow an engine

The updates of a matching engine bring fresh ids at `ADD` and name live orders at `MODIFY` and
`CANCEL`. A client's book that takes them carries the live orders, whatever has become of its top
pointers, until an `ADD` tears a ladder.
-/

namespace LowLatencyExchange
open CircularList PriceBook

/-- An update that a matching engine may send while these orders are live. -/
def Emits (live : List MEMarketUpdate) (u : MEMarketUpdate) : Prop :=
  match u.type with
  | .add => u.qty < 4294967296 ∧ ∀ x ∈ live, x.orderId ≠ u.orderId
  | .modify => u.qty < 4294967296 ∧ ∃ x ∈ live, x.orderId = u.orderId ∧ x.side = u.side ∧ x.price = u.price
  | .cancel => ∃ x ∈ live, x.orderId = u.orderId ∧ x.side = u.side ∧ x.price = u.price
  | .trade => True
  | _ => False

/-- Bids are below asks, and no two prices share a slot. -/
structure PricesApart (live : List MEMarketUpdate) : Prop where
  trading : ∀ x ∈ live, x.side.Trading
  distinct : ∀ x ∈ live, ∀ y ∈ live, priceToIndex x.price = priceToIndex y.price → x.price = y.price
  uncrossed : ∀ x ∈ live, ∀ y ∈ live, x.side = .buy → y.side = .sell → x.price < y.price

instance (live : List MEMarketUpdate) (u : MEMarketUpdate) : Decidable (Emits live u) :=
  match htype : u.type with
  | .add => decidable_of_iff (u.qty < 4294967296 ∧ ∀ x ∈ live, x.orderId ≠ u.orderId) (by simp [Emits, htype])
  | .modify =>
    decidable_of_iff (u.qty < 4294967296 ∧ ∃ x ∈ live, x.orderId = u.orderId ∧ x.side = u.side ∧ x.price = u.price)
      (by simp [Emits, htype])
  | .cancel => decidable_of_iff (∃ x ∈ live, x.orderId = u.orderId ∧ x.side = u.side ∧ x.price = u.price)
      (by simp [Emits, htype])
  | .trade => isTrue (by simp [Emits, htype])
  | .invalid | .clear | .snapshotStart | .snapshotEnd | .other _ => isFalse (by simp [Emits, htype])

instance (live : List MEMarketUpdate) : Decidable (PricesApart live) :=
  decidable_of_iff ((∀ x ∈ live, x.side.Trading) ∧
      (∀ x ∈ live, ∀ y ∈ live, priceToIndex x.price = priceToIndex y.price → x.price = y.price) ∧
      ∀ x ∈ live, ∀ y ∈ live, x.side = .buy → y.side = .sell → x.price < y.price)
    ⟨fun h => ⟨h.1, h.2.1, h.2.2⟩, fun h => ⟨h.trading, h.distinct, h.uncrossed⟩⟩

/-- A stream as a matching engine sends it. -/
def Emitted (live : List MEMarketUpdate) : List MEMarketUpdate → Prop
  | [] => True
  | u :: us => Emits live u ∧ PricesApart (seeUpdate live u) ∧ Emitted (seeUpdate live u) us

instance decidableEmitted (live : List MEMarketUpdate) : (us : List MEMarketUpdate) → Decidable (Emitted live us)
  | [] => isTrue trivial
  | u :: us =>
    have := decidableEmitted (seeUpdate live u) us
    inferInstanceAs (Decidable (Emits live u ∧ PricesApart (seeUpdate live u) ∧ Emitted (seeUpdate live u) us))

lemma emitted_append {live us vs : List MEMarketUpdate} :
    Emitted live (us ++ vs) ↔ Emitted live us ∧ Emitted (liveAfter live us) vs := by
  induction us generalizing live with
  | nil => simp [Emitted]
  | cons u us ih =>
    rw [List.cons_append, Emitted, Emitted, ih, liveAfter_cons, and_assoc, and_assoc]

lemma pricesApart_nil : PricesApart [] := ⟨by simp, by simp, by simp⟩

/-- Live orders in one slot are on one side. -/
lemma PricesApart.side_eq {live : List MEMarketUpdate} (h : PricesApart live) {x y : MEMarketUpdate}
    (hx : x ∈ live) (hy : y ∈ live) (hprice : x.price = y.price) : x.side = y.side := by
  rcases (h.trading x hx).eq_or_opposite (h.trading y hy) with hsame | hopposite
  · exact hsame.symm
  · rcases h.trading x hx with hbuy | hsell
    · rw [hbuy] at hopposite
      exact absurd hprice (Nat.ne_of_lt (h.uncrossed x hx y hy hbuy hopposite))
    · rw [hsell] at hopposite
      exact absurd hprice.symm (Nat.ne_of_lt (h.uncrossed y hy x hx hopposite hsell))

namespace MarketOrderBook
variable {b b' : MarketBook} {live : List MEMarketUpdate} {u x : MEMarketUpdate} {o : Nat}

/-- Block `o` holds this live order. -/
structure HoldsOrder (b : MarketBook) (o : Nat) (x : MEMarketUpdate) : Prop where
  used : b.orderPool.Used o
  key : b.orderTable x.orderId = some o
  orderId : (b.order o).ids.orderId = x.orderId
  side : (b.order o).side = x.side
  price : (b.order o).price = x.price
  qty : (b.order o).qty = x.qty

/-- The orders in use are the live ones. -/
structure Carries (b : MarketBook) (live : List MEMarketUpdate) : Prop where
  found : ∀ x ∈ live, ∃ o, HoldsOrder b o x
  live : ∀ o, b.orderPool.Used o → ∃ x ∈ live, HoldsOrder b o x

lemma HoldsOrder.unique {q : Nat} (h : HoldsOrder b o x) (h' : HoldsOrder b q x) : o = q :=
  Option.some.inj (h.key.symm.trans h'.key)

/-- Another order's block stays as it is when the table changes for one id only. -/
lemma HoldsOrder.congr {id : OrderId} {v : Option Nat} (h : HoldsOrder b o x) (hid : x.orderId ≠ id)
    (hused : b'.orderPool.Used o) (horder : (b'.order o).unlinked = (b.order o).unlinked)
    (htable : b'.orderTable = Function.update b.orderTable id v) : HoldsOrder b' o x := by
  obtain ⟨hids, hside, hprice, hqty, -⟩ := BookOrder.unlinked_eq_iff.mp horder
  refine ⟨hused, ?_, by rw [hids, h.orderId], hside.trans h.side, hprice.trans h.price, hqty.trans h.qty⟩
  rw [htable, Function.update_of_ne hid]
  exact h.key

lemma lookupOrder_eq_ok {id : OrderId} {v : Option Nat} (h : lookupOrder b id = .ok v) : b.orderTable id = v := by
  unfold lookupOrder at h
  split at h
  · exact Except.ok.inj h
  · cases h

lemma applyUpdate_modify_ok (htype : u.type = .modify) (hrun : applyUpdate b u = .ok b') :
    ∃ o, b.orderTable u.orderId = some o ∧ b' = b.setQty o u.qty := by
  simp only [applyUpdate, htype] at hrun
  obtain ⟨v, hv, hrun⟩ := bind_eq_ok hrun
  obtain ⟨o, ho, hrun⟩ := bind_eq_ok hrun
  cases hrun
  exact ⟨o, (lookupOrder_eq_ok hv).trans (deref_eq_ok ho), rfl⟩

lemma applyUpdate_cancel_ok (htype : u.type = .cancel) (hrun : applyUpdate b u = .ok b') :
    ∃ o, b.orderTable u.orderId = some o ∧ b.removeOrder o = .ok b' := by
  simp only [applyUpdate, htype] at hrun
  obtain ⟨v, hv, hrun⟩ := bind_eq_ok hrun
  obtain ⟨o, ho, hrun⟩ := bind_eq_ok hrun
  exact ⟨o, (lookupOrder_eq_ok hv).trans (deref_eq_ok ho), hrun⟩

lemma Carries.add (h : Carries b live) (hfresh : ∀ x ∈ live, x.orderId ≠ u.orderId) {pool : MemPool MarketOrder}
    (halloc : b.orderPool.allocate (newOrder u) = .ok (pool, o))
    (hrun : (b.setOrderPool pool).addOrder o = .ok b') : HoldsOrder b' o u ∧ Carries b' (live ++ [u]) := by
  have hf := addOrder_frame hrun
  have hnew := order_newOrder halloc
  obtain ⟨rfl, hfree, k, rfl⟩ := MemPool.allocate_eq_ok halloc
  have hused : ∀ q, b'.orderPool.Used q ↔ q = b.orderPool.nextFreeIndex ∨ b.orderPool.Used q := fun q =>
    (hf.used q).trans (MemPool.used_take _ _ _ _)
  have hold : ∀ q x, x ∈ live → HoldsOrder b q x → HoldsOrder b' q x := by
    intro q x hx hq
    have hqo : q ≠ b.orderPool.nextFreeIndex := fun he => hfree (he ▸ hq.used)
    refine hq.congr (hfresh x hx) ((hused q).mpr (.inr hq.used)) ?_ (hf.table.trans (by rw [hnew]; rfl))
    rw [hf.order]
    exact congrArg BookOrder.unlinked ((MemPool.object_take _ _ _ _).trans (if_neg hqo))
  have hself : HoldsOrder b' b.orderPool.nextFreeIndex u := by
    have hdata := hf.order b.orderPool.nextFreeIndex
    rw [hnew] at hdata
    obtain ⟨hids, hside, hprice, hqty, -⟩ := BookOrder.unlinked_eq_iff.mp hdata
    refine ⟨(hused _).mpr (.inl rfl), ?_, congrArg MarketOrderIds.orderId hids, hside, hprice, hqty⟩
    rw [hf.table, hnew]
    exact Function.update_self _ _ _
  refine ⟨hself, fun x hx => ?_, fun q hq => ?_⟩
  · rcases List.mem_append.mp hx with hx | hx
    · obtain ⟨q, hq⟩ := h.found x hx
      exact ⟨q, hold q x hx hq⟩
    · obtain rfl := List.mem_singleton.mp hx
      exact ⟨_, hself⟩
  · rcases (hused q).mp hq with rfl | hq
    · exact ⟨u, by simp, hself⟩
    · obtain ⟨x, hx, hqx⟩ := h.live q hq
      exact ⟨x, List.mem_append_left _ hx, hold q x hx hqx⟩

/-- The order that an id leads to is the live one. -/
lemma Carries.lookup (h : Carries b live) {x : MEMarketUpdate} (hx : x ∈ live) (hid : x.orderId = u.orderId)
    (ho : b.orderTable u.orderId = some o) : HoldsOrder b o x := by
  obtain ⟨q, hq⟩ := h.found x hx
  obtain rfl : q = o := Option.some.inj (hq.key.symm.trans (hid ▸ ho))
  exact hq

lemma Carries.modify (h : Carries b live) {y : MEMarketUpdate} (hy : HoldsOrder b o y)
    (hid : y.orderId = u.orderId) : Carries (b.setQty o u.qty)
      (live.map fun x => if x.orderId = u.orderId then { x with qty := u.qty } else x) := by
  have hshown : ∀ q x, HoldsOrder b q x →
      HoldsOrder (b.setQty o u.qty) q (if x.orderId = u.orderId then { x with qty := u.qty } else x) := by
    intro q x hq
    have hqo : x.orderId = u.orderId ↔ q = o := by
      constructor
      · intro hx
        exact Option.some.inj (hq.key.symm.trans ((hx.trans hid.symm) ▸ hy.key))
      · rintro rfl
        exact hq.orderId.symm.trans (hy.orderId.trans hid)
    have hkept : ∀ z : MEMarketUpdate, z.orderId = x.orderId → z.side = x.side → z.price = x.price →
        (if q = o then u.qty else (b.order q).qty) = z.qty → HoldsOrder (b.setQty o u.qty) q z := by
      intro z hzid hzside hzprice hzqty
      refine ⟨by simpa using hq.used, by rw [hzid]; exact hq.key, ?_, ?_, ?_, ?_⟩
      · rw [ids_setQty, hzid, hq.orderId]
      · rw [side_setQty, hzside, hq.side]
      · rw [price_setQty, hzprice, hq.price]
      · rw [qty_setQty, hzqty]
    split
    · rename_i hx
      exact hkept _ rfl rfl rfl (if_pos (hqo.mp hx))
    · rename_i hx
      exact hkept _ rfl rfl rfl ((if_neg fun he => hx (hqo.mpr he)).trans hq.qty)
  refine ⟨fun z hz => ?_, fun q hq => ?_⟩
  · obtain ⟨x, hx, rfl⟩ := List.mem_map.mp hz
    obtain ⟨q, hq⟩ := h.found x hx
    exact ⟨q, hshown q x hq⟩
  · obtain ⟨x, hx, hqx⟩ := h.live q (by simpa using hq)
    exact ⟨_, List.mem_map_of_mem hx, hshown q x hqx⟩

lemma Carries.cancel (h : Carries b live) {y : MEMarketUpdate} (hy : HoldsOrder b o y)
    (hid : y.orderId = u.orderId) (hrun : b.removeOrder o = .ok b') :
    Carries b' (live.filter fun x => x.orderId ≠ u.orderId) := by
  have hf := removeOrder_frame hrun
  have htable : b'.orderTable = Function.update b.orderTable u.orderId none := by
    rw [hf.table, ← hid, ← hy.orderId]
    rfl
  have hkept : ∀ q x, x.orderId ≠ u.orderId → HoldsOrder b q x → HoldsOrder b' q x := by
    intro q x hx hq
    refine hq.congr hx ((hf.used q).mpr ⟨?_, hq.used⟩) (hf.order q) htable
    rintro rfl
    exact hx (hq.orderId.symm.trans (hy.orderId.trans hid))
  refine ⟨fun x hx => ?_, fun q hq => ?_⟩
  · obtain ⟨hx, hne⟩ := List.mem_filter.mp hx
    obtain ⟨q, hq⟩ := h.found x hx
    exact ⟨q, hkept q x (of_decide_eq_true hne) hq⟩
  · obtain ⟨hqo, hq⟩ := (hf.used q).mp hq
    obtain ⟨x, hx, hqx⟩ := h.live q hq
    have hne : x.orderId ≠ u.orderId := fun he =>
      hqo (Option.some.inj (hqx.key.symm.trans ((he.trans hid.symm) ▸ hy.key)))
    exact ⟨x, List.mem_filter.mpr ⟨hx, decide_eq_true hne⟩, hkept q x hne hqx⟩

/-- An `ADD` that opens a level right in front of the last one of its ladder, worse than the top. -/
def Tears (b : MarketBook) (u : MEMarketUpdate) : Prop :=
  u.type = .add ∧ b.getOrdersAtPrice u.price = none ∧ b.TearsAt u.side u.price (b.ladder u.side)

instance (b : MarketBook) (u : MEMarketUpdate) : Decidable (Tears b u) := inferInstanceAs (Decidable (_ ∧ _ ∧ _))

/-- A book that has followed an engine up to these live orders. -/
structure Following (live : List MEMarketUpdate) (b : MarketBook) : Prop where
  apart : PricesApart live
  carries : Carries b live
  intact : ∃ rings ladders, b.Intact rings ladders
  own : b.OwnLevels
  qty : ∀ o, b.orderPool.Used o → (b.order o).qty < 4294967296

lemma following_create (tickerId : TickerId) : Following [] (create tickerId).book where
  apart := pricesApart_nil
  carries := ⟨by simp, fun o ho => absurd ho (MemPool.not_used_create _ _ _)⟩
  intact := ⟨_, _, intact_empty (MemPool.sound_create _ (by decide)) (MemPool.sound_create _ (by decide))
    (MemPool.not_used_create _ _) (MemPool.not_used_create _ _)⟩
  own := fun o _ ho => absurd ho (MemPool.not_used_create _ _ _)
  qty := fun o ho => absurd ho (MemPool.not_used_create _ _ _)

/-- A level at the slot of a new order's price has its price and side. -/
lemma Following.ownSlot (h : Following live b) {p : Nat} (hapart : PricesApart (live ++ [u]))
    (hget : b.getOrdersAtPrice u.price = some p) : (b.level p).price = u.price ∧ (b.level p).side = u.side := by
  obtain ⟨rings, ladders, hintact⟩ := h.intact
  obtain ⟨q, hq⟩ : ∃ q, q ∈ rings (priceToIndex u.price) := by
    apply List.exists_mem_of_ne_nil
    intro hnil
    rw [getOrdersAtPrice, (hintact.filed.empty _).mpr hnil] at hget
    cases hget
  obtain ⟨hused, hindex⟩ := (hintact.filed.mem _ q).mp hq
  obtain ⟨x, hx, hqx⟩ := h.carries.live q hused
  have hprice : x.price = u.price := hapart.distinct x (by simp [hx]) u (by simp) (by rw [← hqx.price, hindex])
  have hside : x.side = u.side := hapart.side_eq (by simp [hx]) (by simp) hprice
  have hown := h.own q p hused (by rw [hqx.price, hprice]; exact hget)
  rw [hqx.price, hqx.side, hprice, hside] at hown
  exact hown

lemma Following.add (h : Following live b) (hu : Emits live u) (htype : u.type = .add)
    (hapart : PricesApart (live ++ [u])) (htears : ¬Tears b u) (hrun : applyUpdate b u = .ok b') :
    Following (live ++ [u]) b' := by
  obtain ⟨rings, ladders, hintact⟩ := h.intact
  simp only [Emits, htype] at hu
  obtain ⟨pool, o, halloc, hadd⟩ := applyUpdate_add_ok htype hrun
  obtain ⟨hself, hcarries⟩ := h.carries.add hu.2 halloc hadd
  have hown : ∀ p, b.getOrdersAtPrice (newOrder u).price = some p →
      (b.level p).price = (newOrder u).price ∧ (b.level p).side = (newOrder u).side := fun p hp => h.ownSlot hapart hp
  refine ⟨hapart, hcarries, ?_, ?_, fun q hq => ?_⟩
  · apply hintact.addOrder halloc (fun p hp => by rw [(hown p hp).2]) _ hadd
    intro hnone ht
    apply htears
    rw [← hintact.ladder_eq] at ht
    exact ⟨htype, hnone, ht⟩
  · exact (hintact.filed.addOrder_own_iff h.own halloc hadd).mpr hown
  · obtain ⟨x, hx, hqx⟩ := hcarries.live q hq
    rw [hqx.qty]
    rcases List.mem_append.mp hx with hx | hx
    · obtain ⟨r, hr⟩ := h.carries.found x hx
      rw [← hr.qty]
      exact h.qty r hr.used
    · obtain rfl := List.mem_singleton.mp hx
      exact hu.1

/-- One update of an engine, taken whole. -/
theorem Following.next (h : Following live b) (hu : Emits live u) (hapart : PricesApart (seeUpdate live u))
    (htears : ¬Tears b u) (hrun : applyUpdate b u = .ok b') : Following (seeUpdate live u) b' := by
  obtain ⟨rings, ladders, hintact⟩ := h.intact
  unfold seeUpdate at hapart ⊢
  unfold Emits at hu
  cases htype : u.type with
  | add =>
    simp only [htype] at hapart ⊢
    exact h.add (by simpa only [Emits, htype] using hu) htype hapart htears hrun
  | modify =>
    simp only [htype] at hu hapart ⊢
    obtain ⟨hqty, x, hx, hid, -⟩ := hu
    obtain ⟨o, ho, rfl⟩ := applyUpdate_modify_ok htype hrun
    refine ⟨hapart, h.carries.modify (h.carries.lookup hx hid ho) hid, ⟨_, _, hintact.setQty o u.qty⟩,
      h.own.setQty o u.qty, fun q hq => ?_⟩
    rw [qty_setQty]
    split
    · exact hqty
    · exact h.qty q (by simpa using hq)
  | cancel =>
    simp only [htype] at hu hapart ⊢
    obtain ⟨x, hx, hid, -⟩ := hu
    obtain ⟨o, ho, hremove⟩ := applyUpdate_cancel_ok htype hrun
    have hox := h.carries.lookup hx hid ho
    have hf := removeOrder_frame hremove
    obtain ⟨b₁, hb₁, hintact'⟩ := hintact.removeOrder hox.used
    obtain rfl : b₁ = b' := Except.ok.inj (hb₁.symm.trans hremove)
    refine ⟨hapart, h.carries.cancel hox hid hremove, ⟨_, _, hintact'⟩, hintact.filed.removeOrder_own h.own hremove,
      fun q hq => ?_⟩
    rw [(BookOrder.unlinked_eq_iff.mp (hf.order q)).2.2.2.1]
    exact h.qty q ((hf.used q).mp hq).2
  | trade =>
    simp only [applyUpdate, htype] at hrun
    cases hrun
    exact h
  | _ => simp only [htype] at hu

end MarketOrderBook
end LowLatencyExchange
