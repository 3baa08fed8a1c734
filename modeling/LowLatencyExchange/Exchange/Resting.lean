import LowLatencyExchange.Exchange.Calls

/-!
# Resting orders, read off the messages

An order rests from the `ADD` update that publishes it until it is fully filled or
cancelled. `Observer` follows the messages of a book and keeps the orders that rest, in the
order of their arrival. `Tracks` says that a well-formed book holds exactly these orders,
each level in arrival order.
-/

namespace LowLatencyExchange
open PriceBook

structure RestingOrder where
  clientId : ClientId
  clientOrderId : OrderId
  side : Side
  price : Price
  qty : Qty
  deriving DecidableEq, Repr

def RestingOrder.key (x : RestingOrder) : ClientId × OrderId := (x.clientId, x.clientOrderId)

def RestingOrder.setLeaves (key : ClientId × OrderId) (leavesQty : Qty) (x : RestingOrder) :
    RestingOrder :=
  if x.key = key then { x with qty := leavesQty } else x

/-- A fill leaves `leavesQty` of the order with this key. -/
def fillResting (rs : List RestingOrder) (key : ClientId × OrderId) (leavesQty : Qty) :
    List RestingOrder :=
  if leavesQty = 0 then rs.filter fun x => x.key ≠ key
  else rs.map (RestingOrder.setLeaves key leavesQty)

/-- The pair of the last accepted order, and the resting orders in order of arrival. -/
structure Observer where
  submitted : ClientId × OrderId
  resting : List RestingOrder

def Observer.init : Observer := ⟨(ClientId_INVALID, OrderId_INVALID), []⟩

/-- `ADD` publishes the order accepted last, the responses tell what is left of an order. -/
def Observer.see (v : Observer) : Event → Observer
  | .response r =>
    match r.type with
    | .accepted => { v with submitted := (r.clientId, r.clientOrderId) }
    | .filled =>
      { v with resting := fillResting v.resting (r.clientId, r.clientOrderId) r.leavesQty }
    | .canceled =>
      { v with resting := v.resting.filter fun x => x.key ≠ (r.clientId, r.clientOrderId) }
    | _ => v
  | .update u =>
    match u.type with
    | .add =>
      { v with resting := v.resting ++ [⟨v.submitted.1, v.submitted.2, u.side, u.price, u.qty⟩] }
    | _ => v

def Observer.seeAll (v : Observer) (es : List Event) : Observer := es.foldl Observer.see v

/-- The orders that rest after these messages of a fresh book. -/
def restingAfter (es : List Event) : List RestingOrder := (Observer.init.seeAll es).resting

@[simp] lemma Observer.seeAll_nil (v : Observer) : v.seeAll [] = v := rfl
@[simp] lemma Observer.seeAll_cons (v : Observer) (e : Event) (es : List Event) :
    v.seeAll (e :: es) = (v.see e).seeAll es := rfl
@[simp] lemma Observer.seeAll_append (v : Observer) (es es' : List Event) :
    v.seeAll (es ++ es') = (v.seeAll es).seeAll es' := List.foldl_append

section SetLeaves
variable (key : ClientId × OrderId) (leavesQty : Qty) (x : RestingOrder)

@[simp] lemma RestingOrder.key_setLeaves : (x.setLeaves key leavesQty).key = x.key := by
  unfold setLeaves; split <;> rfl
@[simp] lemma RestingOrder.side_setLeaves : (x.setLeaves key leavesQty).side = x.side := by
  unfold setLeaves; split <;> rfl
@[simp] lemma RestingOrder.price_setLeaves : (x.setLeaves key leavesQty).price = x.price := by
  unfold setLeaves; split <;> rfl

end SetLeaves

lemma fillResting_of_fresh {rs : List RestingOrder} {key : ClientId × OrderId}
    (hfresh : ∀ x ∈ rs, x.key ≠ key) (leavesQty : Qty) : fillResting rs key leavesQty = rs := by
  unfold fillResting
  split
  · exact List.filter_eq_self.mpr fun x hx => by simpa using hfresh x hx
  · refine (List.map_congr_left fun x hx => ?_).trans (List.map_id rs)
    rw [RestingOrder.setLeaves, if_neg (hfresh x hx)]
    rfl

lemma mem_fillResting {rs : List RestingOrder} {key : ClientId × OrderId} {leavesQty : Qty}
    {y : RestingOrder} (hy : y ∈ fillResting rs key leavesQty) :
    ∃ x ∈ rs, y.key = x.key ∧ y.side = x.side ∧ y.price = x.price := by
  unfold fillResting at hy
  split at hy
  · exact ⟨y, (List.mem_filter.mp hy).1, rfl, rfl, rfl⟩
  · obtain ⟨x, hx, rfl⟩ := List.mem_map.mp hy
    exact ⟨x, hx, by simp⟩

/-- The keys of the resting orders are distinct, so a fill concerns one entry. -/
lemma fillResting_split {before after : List RestingOrder} {x : RestingOrder} (leavesQty : Qty)
    (hnodup : ((before ++ x :: after).map RestingOrder.key).Nodup) :
    fillResting (before ++ x :: after) x.key leavesQty =
      before ++ (if leavesQty = 0 then [] else [{ x with qty := leavesQty }]) ++ after := by
  rw [List.map_append, List.map_cons] at hnodup
  have hkeys := List.nodup_middle.mp hnodup
  have hothers : ∀ y ∈ before ++ after, y.key ≠ x.key := fun y hy he =>
    (List.nodup_cons.mp hkeys).1 (he ▸ by rw [← List.map_append]; exact List.mem_map_of_mem hy)
  have hb := fillResting_of_fresh (fun y hy => hothers y (List.mem_append_left _ hy)) leavesQty
  have ha := fillResting_of_fresh (fun y hy => hothers y (List.mem_append_right _ hy)) leavesQty
  by_cases hleaves : leavesQty = 0
  · simp only [fillResting, if_pos hleaves] at hb ha ⊢
    rw [List.filter_append, List.filter_cons, hb, ha]
    simp
  · simp only [fillResting, if_neg hleaves] at hb ha ⊢
    rw [List.map_append, List.map_cons, hb, ha, RestingOrder.setLeaves, if_pos rfl]
    simp

lemma Observer.see_fill (v : Observer) (a : Aggressor) (order : MEOrder) (leavesQty : Qty)
    (hfresh : ∀ x ∈ v.resting, x.key ≠ (a.clientId, a.clientOrderId)) :
    v.seeAll (a.fill order leavesQty).events =
      ⟨v.submitted, fillResting v.resting (order.ids.clientId, order.ids.clientOrderId)
        (order.qty - min leavesQty order.qty)⟩ := by
  simp only [Fill.events, Aggressor.fill, seeAll_cons, seeAll_nil, see, fillResting_of_fresh hfresh]
  by_cases hqty : order.qty ≤ leavesQty
  · simp only [if_pos hqty]
  · simp only [if_neg hqty]

namespace MEOrderBook
variable {b b' : MEOrderBook} {sh : Shape} {rs : List RestingOrder}

/-- What a client sees of an order of the book. -/
def restingOrder (b : MEOrderBook) (o : Nat) : RestingOrder :=
  ⟨(b.book.order o).ids.clientId, (b.book.order o).ids.clientOrderId, (b.book.order o).side,
    (b.book.order o).price, (b.book.order o).qty⟩

/-- The resting orders are those of the book, and each level holds those of its side and price
in order of arrival. -/
structure Tracks (b : MEOrderBook) (sh : Shape) (rs : List RestingOrder) : Prop where
  queue : ∀ s : Side, s.Trading → ∀ l ∈ sh.side s, ∀ o ∈ l.orders,
    rs.filter (fun x => x.side = s ∧ x.price = (b.book.order o).price) = l.orders.map b.restingOrder
  orders : ∀ x ∈ rs, ∃ o ∈ sh.orders, b.restingOrder o = x
  keysNodup : (rs.map RestingOrder.key).Nodup

lemma restingOrder_congr {o : Nat} (h : (b'.book.order o).unlinked = (b.book.order o).unlinked) :
    b'.restingOrder o = b.restingOrder o := by
  obtain ⟨hids, hside, hprice, hqty, -⟩ := BookOrder.unlinked_eq_iff.mp h
  simp only [restingOrder, hids, hside, hprice, hqty]

lemma Tracks.mem (h : Tracks b sh rs) {o : Nat} (ho : o ∈ sh.orders) : b.restingOrder o ∈ rs := by
  obtain ⟨s, hs, l, hl, ho⟩ := Shape.mem_orders.mp ho
  have hmem : b.restingOrder o ∈ l.orders.map b.restingOrder := List.mem_map_of_mem ho
  rw [← h.queue s hs l hl o ho] at hmem
  exact (List.mem_filter.mp hmem).1

/-- Orders of a well-formed book have different keys. -/
lemma key_injective (h : b.book.WellFormed sh) {o q : Nat} (ho : o ∈ sh.orders) (hq : q ∈ sh.orders)
    (hkey : (b.restingOrder o).key = (b.restingOrder q).key) : o = q := by
  have ho' := (h.keys _ o).mpr ⟨ho, hkey⟩
  have hq' := (h.keys _ q).mpr ⟨hq, rfl⟩
  simpa using ho'.symm.trans hq'

lemma Tracks.keyFree (h : b.book.WellFormed sh) (ht : Tracks b sh rs) {key : ClientId × OrderId}
    (hfresh : ∀ x ∈ rs, x.key ≠ key) : b.book.orderTable key = none := by
  cases hk : b.book.orderTable key with
  | none => rfl
  | some o =>
    obtain ⟨ho, hkey⟩ := (h.keys key o).mp hk
    exact absurd hkey (hfresh _ (ht.mem ho))

/-- A fill that leaves something of the order `itr`. -/
theorem Tracks.setLeaves (h : b.book.WellFormed sh) (ht : Tracks b sh rs) {itr : Nat}
    (hitr : itr ∈ sh.orders) {qty : Qty} (hqty : qty ≠ 0)
    (horder : ∀ q, q ≠ itr → (b'.book.order q).unlinked = (b.book.order q).unlinked)
    (hfilled : (b'.book.order itr).unlinked = { (b.book.order itr).unlinked with qty := qty }) :
    Tracks b' sh (fillResting rs (b.restingOrder itr).key qty) := by
  have hview : ∀ q ∈ sh.orders, b'.restingOrder q =
      (b.restingOrder q).setLeaves (b.restingOrder itr).key qty := by
    intro q hq
    by_cases hqi : q = itr
    · subst hqi
      obtain ⟨hids, hside, hprice, hq', -⟩ := BookOrder.unlinked_eq_iff.mp
        (show (b'.book.order q).unlinked = ({ b.book.order q with qty := qty } : MEOrder).unlinked
          from hfilled)
      simp only [RestingOrder.setLeaves, restingOrder, hids, hside, hprice, hq', if_true]
    · rw [RestingOrder.setLeaves, if_neg fun he => hqi (key_injective h hq hitr he)]
      exact restingOrder_congr (horder q hqi)
  have hprice : ∀ q ∈ sh.orders, (b'.book.order q).price = (b.book.order q).price := fun q hq =>
    (congrArg RestingOrder.price (hview q hq)).trans (RestingOrder.price_setLeaves _ _ _)
  simp only [fillResting, if_neg hqty]
  refine ⟨fun s hs l hl o ho => ?_, fun x hx => ?_, ?_⟩
  · have hmem : ∀ q ∈ l.orders, q ∈ sh.orders := fun q hq => Shape.mem_orders_of_side hs hl hq
    rw [hprice o (hmem o ho), List.filter_map, List.map_congr_left fun q hq => hview q (hmem q hq),
      ← Function.comp_def, ← List.map_map, ← ht.queue s hs l hl o ho]
    simp [Function.comp_def]
  · obtain ⟨y, hy, rfl⟩ := List.mem_map.mp hx
    obtain ⟨o, ho, rfl⟩ := ht.orders y hy
    exact ⟨o, ho, hview o ho⟩
  · simpa [Function.comp_def] using ht.keysNodup

/-- An order leaves: its last fill, or its cancel. -/
theorem Tracks.drop (h : b.book.WellFormed sh) (ht : Tracks b sh rs) {s : Side} (hs : s.Trading)
    {pre post : List LevelShape} {p o : Nat} {l m : List Nat}
    (hside : sh.side s = pre ++ ⟨p, l ++ o :: m⟩ :: post)
    (horder : ∀ q, q ≠ o → (b'.book.order q).unlinked = (b.book.order q).unlinked) :
    Tracks b' (sh.dropOrder s pre post p (l ++ m))
      (rs.filter fun x => x.key ≠ (b.restingOrder o).key) := by
  have hperm := Shape.orders_dropOrder_perm hs hside
  have hgone := (List.nodup_cons.mp (hperm.nodup_iff.mp h.ordersNodup)).1
  have ho : o ∈ sh.orders := hperm.mem_iff.mpr List.mem_cons_self
  refine ⟨fun t htr y hy q hq => ?_, fun x hx => ?_, ?_⟩
  · have hqo : ∀ r ∈ y.orders, r ≠ o := fun r hr he =>
      hgone (he ▸ Shape.mem_orders_of_side htr hy hr)
    obtain ⟨z, hz, -, hyz⟩ := Shape.mem_dropOrder hs hside h.ordersNodup htr hy
    have hmem : ∀ r ∈ z.orders, r ∈ sh.orders := fun r hr => Shape.mem_orders_of_side htr hz hr
    have hqz : q ∈ z.orders := by
      rw [hyz] at hq
      exact (List.mem_filter.mp hq).1
    have hprice := (BookOrder.unlinked_eq_iff.mp (horder q (hqo q hq))).2.2.1
    rw [hprice, List.filter_comm, ht.queue t htr z hz q hqz, List.filter_map,
      List.map_congr_left fun r hr => restingOrder_congr (horder r (hqo r hr)), hyz]
    congr 1
    apply List.filter_congr
    intro r hr
    have hkey : (b.restingOrder r).key = (b.restingOrder o).key ↔ r = o :=
      ⟨key_injective h (hmem r hr) ho, fun he => he ▸ rfl⟩
    simp [hkey]
  · obtain ⟨hx, hkey⟩ := List.mem_filter.mp hx
    obtain ⟨q, hq, rfl⟩ := ht.orders x hx
    have hqo : q ≠ o := fun he => by simp [he] at hkey
    exact ⟨q, (List.mem_cons.mp (hperm.mem_iff.mp hq)).resolve_left hqo, restingOrder_congr (horder q hqo)⟩
  · exact ht.keysNodup.sublist (List.filter_sublist.map _)

/-- Where the new order stands: every other level is one of before with another price or
side, and ahead of it in its own level stands what rested at its price. -/
lemma RestSpot.cases {a : Aggressor} {o : Nat} {sh' : Shape} (hspot : RestSpot b sh a o sh')
    (h : b.book.WellFormed sh) (ht : Tracks b sh rs) (hs : a.side.Trading) {t : Side}
    (htr : t.Trading) {y : LevelShape} (hy : y ∈ sh'.side t) :
    (y ∈ sh.side t ∧ (t = a.side → (b.book.level y.ptr).price ≠ a.price)) ∨
    (t = a.side ∧ ∃ os, y.orders = os ++ [o] ∧ (∀ q ∈ os, q ∈ sh.orders ∧ (b.book.order q).price = a.price) ∧
      rs.filter (fun x => x.side = a.side ∧ x.price = a.price) = os.map b.restingOrder) := by
  rcases hspot with ⟨pre, p, os, post, hside, hprice, rfl⟩ | ⟨n, hworse, rfl⟩
  · by_cases hta : t = a.side
    · subst hta
      have hmemp : (⟨p, os⟩ : LevelShape) ∈ sh.side a.side := by simp [hside]
      have hother : y ∈ pre ++ post → y ∈ sh.side a.side ∧ (b.book.level y.ptr).price ≠ a.price := by
        intro hyp
        have hmem : y ∈ sh.side a.side := by
          rw [hside]
          rcases List.mem_append.mp hyp with hyp | hyp <;> simp [hyp]
        refine ⟨hmem, fun he => ?_⟩
        have hyptr : y.ptr = p := h.level_ext (Shape.mem_levelPtrs_of_side hs hmem)
          (Shape.mem_levelPtrs_of_side hs hmemp) (by rw [he, hprice])
        have hnodup := (List.nodup_append.mp (h.side_nodup hs)).1
        rw [hside, List.map_append, List.map_cons] at hnodup
        apply (List.nodup_cons.mp (List.nodup_middle.mp hnodup)).1
        rw [← List.map_append]
        have hmap : y.ptr ∈ (pre ++ post).map LevelShape.ptr := List.mem_map_of_mem hyp
        rwa [hyptr] at hmap
      rw [Shape.side_setSide_self, List.mem_append, List.mem_cons] at hy
      rcases hy with hy | rfl | hy
      · exact .inl ⟨(hother (by simp [hy])).1, fun _ => (hother (by simp [hy])).2⟩
      · have hok := (h.side _ hs).level _ hmemp
        obtain ⟨q, hq⟩ := List.exists_mem_of_ne_nil _ hok.nonempty
        have hqueue := ht.queue _ hs _ hmemp q hq
        rw [hok.orderPrice q hq, hprice] at hqueue
        exact .inr ⟨rfl, os, rfl, fun r hr =>
          ⟨Shape.mem_orders_of_side hs hmemp hr, (hok.orderPrice r hr).trans hprice⟩, hqueue⟩
      · exact .inl ⟨(hother (by simp [hy])).1, fun _ => (hother (by simp [hy])).2⟩
    · rw [Shape.side_setSide_of_ne hs htr hta] at hy
      exact .inl ⟨hy, fun he => absurd he hta⟩
  · have hne : ∀ l ∈ sh.side a.side, (b.book.level l.ptr).price ≠ a.price := fun l hl he => by
      have hself := hworse l hl
      rw [he, addAfter_self] at hself
      cases hself
    by_cases hta : t = a.side
    · subst hta
      rw [Shape.side_setSide_self, List.mem_append, List.mem_singleton] at hy
      rcases hy with hy | rfl
      · exact .inl ⟨hy, fun _ => hne y hy⟩
      · refine .inr ⟨rfl, [], rfl, by simp, List.filter_eq_nil_iff.mpr fun x hx hpx => ?_⟩
        obtain ⟨q, hq, rfl⟩ := ht.orders x hx
        obtain ⟨t, ht', l, hl, hql⟩ := Shape.mem_orders.mp hq
        have hok := (h.side t ht').level l hl
        have hpx : (b.book.order q).side = a.side ∧ (b.book.order q).price = a.price :=
          of_decide_eq_true hpx
        obtain rfl : t = a.side := (hok.orderSide q hql).symm.trans hpx.1
        exact hne l hl ((hok.orderPrice q hql).symm.trans hpx.2)
    · rw [Shape.side_setSide_of_ne hs htr hta] at hy
      exact .inl ⟨hy, fun he => absurd he hta⟩

/-- The remainder of an aggressor joins the resting orders, last to arrive. -/
theorem Tracks.rest (ht : Tracks b sh rs) {a : Aggressor} (hs : a.side.Trading) {o : Nat}
    {sh' : Shape} (hspot : RestSpot b sh a o sh') {marketOrderId : OrderId} {leavesQty : Qty}
    {priority : Priority} (h : b.book.WellFormed sh) (h' : b'.book.WellFormed sh')
    (hframe : RestFrame a b marketOrderId leavesQty priority o b')
    (hfresh : ∀ x ∈ rs, x.key ≠ (a.clientId, a.clientOrderId)) :
    Tracks b' sh' (rs ++ [⟨a.clientId, a.clientOrderId, a.side, a.price, leavesQty⟩]) := by
  have hnew : b'.restingOrder o = ⟨a.clientId, a.clientOrderId, a.side, a.price, leavesQty⟩ := by
    obtain ⟨hids, hside, hprice, hqty, -⟩ := BookOrder.unlinked_eq_iff.mp
      (show (b'.book.order o).unlinked = (a.resting marketOrderId leavesQty priority).unlinked
        from hframe.placed)
    simp only [restingOrder, hids, hside, hprice, hqty, Aggressor.resting]
  have hold : ∀ q ∈ sh.orders, b'.restingOrder q = b.restingOrder q := fun q hq =>
    restingOrder_congr (hframe.order q fun he => hframe.wasFree ((h.orderUsed o).mpr (he ▸ hq)))
  refine ⟨fun t htr y hy q hq => ?_, fun x hx => ?_, ?_⟩
  · rw [List.filter_append]
    rcases hspot.cases h ht hs htr hy with ⟨hmem, hne⟩ | ⟨rfl, os, hos, hsame, hqueue⟩
    · have hsub : ∀ r ∈ y.orders, r ∈ sh.orders := fun r hr => Shape.mem_orders_of_side htr hmem hr
      have hprice : (b'.book.order q).price = (b.book.level y.ptr).price :=
        (congrArg RestingOrder.price (hold q (hsub q hq))).trans
          (((h.side t htr).level y hmem).orderPrice q hq)
      have hqueue := ht.queue t htr y hmem q hq
      rw [((h.side t htr).level y hmem).orderPrice q hq] at hqueue
      rw [hprice, hqueue, List.map_congr_left fun r hr => hold r (hsub r hr), List.filter_cons_of_neg,
        List.filter_nil, List.append_nil]
      simpa using fun he hp => hne he.symm hp.symm
    · have hprice : (b'.book.order q).price = a.price := by
        rw [hos, List.mem_append, List.mem_singleton] at hq
        rcases hq with hq | rfl
        · exact (congrArg RestingOrder.price (hold q (hsame q hq).1)).trans (hsame q hq).2
        · exact congrArg RestingOrder.price hnew
      rw [hprice, hqueue, hos, List.map_append, List.map_singleton, hnew,
        List.map_congr_left fun r hr => hold r (hsame r hr).1]
      simp
  · have hmem : ∀ q, q ∈ sh'.orders ↔ q = o ∨ q ∈ sh.orders := fun q => by
      rw [← h'.orderUsed, hframe.used, h.orderUsed]
    rcases List.mem_append.mp hx with hx | hx
    · obtain ⟨q, hq, rfl⟩ := ht.orders x hx
      exact ⟨q, (hmem q).mpr (.inr hq), hold q hq⟩
    · exact ⟨o, (hmem o).mpr (.inl rfl), hnew.trans (List.mem_singleton.mp hx).symm⟩
  · rw [List.map_append, List.map_singleton]
    refine List.nodup_append.mpr ⟨ht.keysNodup, List.nodup_singleton _, ?_⟩
    intro k hk k' hk' he
    obtain ⟨x, hx, rfl⟩ := List.mem_map.mp hk
    exact hfresh x hx (he.trans (List.mem_singleton.mp hk'))

end MEOrderBook
end LowLatencyExchange
