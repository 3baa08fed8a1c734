import LowLatencyExchange.Exchange.Resting
import LowLatencyExchange.Library.Run

/-!
# Price-time priority

Runs of a fresh book in which no new level is better than an existing level of its side.
There the ladders stay sorted from their tops, every fill takes the best and oldest order of
the opposite side, and the book is never crossed. `addOrdersAtPrice` moves the top pointer
when the new price is worse than the best one, so a better level goes unnoticed: the last
section follows such a run.
-/

namespace LowLatencyExchange
open PriceBook MEOrderBook LoggedRun

/-- No price beyond the limit. -/
def WithinLimit (side : Side) (limit price : Price) : Prop :=
  (side = .buy → price ≤ limit) ∧ (side = .sell → limit ≤ price)

/-- The passive order of a fill is the best of the opposite side: whatever arrived before it
has a worse price, and nothing that arrived after it has a better one. All messages give its
price, which is within the limit. -/
def RespectsPriority (rs : List RestingOrder) (side : Side) (limit : Price) (f : Fill) : Prop :=
  ∃ before x after, rs = before ++ x :: after ∧
    x.key = (f.passive.clientId, f.passive.clientOrderId) ∧ x.side = side.opposite ∧
    (∀ y ∈ before, y.side = x.side → addAfter x.side y.price x.price) ∧
    (∀ y ∈ after, y.side = x.side → ¬addAfter x.side x.price y.price) ∧
    f.passive.price = x.price ∧ f.aggressor.price = x.price ∧ f.trade.price = x.price ∧
    WithinLimit side limit x.price

def PriorityFill (rs : List RestingOrder) : BookCall → Fill → Prop
  | .add clientId clientOrderId _ side price _, f =>
    f.aggressor.type = .filled ∧ f.passive.type = .filled ∧ f.trade.type = .trade ∧
      (f.aggressor.clientId, f.aggressor.clientOrderId) = (clientId, clientOrderId) ∧
      RespectsPriority rs side price f
  | .cancel .., _ => False

def NoFills (es : List Event) : Prop := ∀ r, .response r ∈ es → r.type ≠ .filled

/-- All fills of a call respect priority, each with regard to what rests just before it. -/
def FillsInOrder (v : Observer) (call : BookCall) (es : List Event) : Prop :=
  ∃ (opening : List Event) (fills : List Fill) (closing : List Event),
    es = opening ++ fills.flatMap Fill.events ++ closing ∧ NoFills opening ∧ NoFills closing ∧
    ∀ done f rest, fills = done ++ f :: rest →
      PriorityFill (v.seeAll (opening ++ done.flatMap Fill.events)).resting call f

/-- Every resting bid is below every resting ask. -/
def Uncrossed (rs : List RestingOrder) : Prop :=
  ∀ x ∈ rs, ∀ y ∈ rs, x.side = .buy → y.side = .sell → x.price < y.price

def LivePricesDistinct (rs : List RestingOrder) : Prop :=
  ∀ x ∈ rs, ∀ y ∈ rs, priceToIndex x.price = priceToIndex y.price → x.price = y.price

/-- Identifiers in range, a side to trade on, and a pair that does not rest. -/
def Submittable (rs : List RestingOrder) : BookCall → Prop
  | .add clientId clientOrderId _ side _ _ =>
    clientId < ME_MAX_NUM_CLIENTS ∧ clientOrderId < ME_MAX_ORDER_IDS ∧ side.Trading ∧
      ∀ x ∈ rs, x.key ≠ (clientId, clientOrderId)
  | .cancel clientId orderId _ => clientId < ME_MAX_NUM_CLIENTS ∧ orderId < ME_MAX_ORDER_IDS

/-- The resting orders an aggressor can trade against. -/
def crosses (side : Side) (limit : Price) (x : RestingOrder) : Bool :=
  x.side = side.opposite && !limitMissed side limit x.price

def crossingQty (rs : List RestingOrder) (side : Side) (limit : Price) : Nat :=
  rs.foldr (fun x total => if crosses side limit x then x.qty + total else total) 0

/-- A remainder that rests joins a level of its side, or is worse than all of them. The
quantity `add` matches is the market order id. -/
def OpensNoBetterLevel (rs : List RestingOrder) (b : MEOrderBook) : BookCall → Prop
  | .add _ _ _ side price _ =>
    crossingQty rs side price < wrap32 b.nextMarketOrderId →
      (∃ x ∈ rs, x.side = side ∧ x.price = price) ∨
        ∀ x ∈ rs, x.side = side → addAfter side price x.price
  | .cancel .. => True

instance (rs : List RestingOrder) : Decidable (Uncrossed rs) :=
  inferInstanceAs (Decidable (∀ x ∈ rs, ∀ y ∈ rs, x.side = .buy → y.side = .sell → x.price < y.price))

instance (rs : List RestingOrder) : Decidable (LivePricesDistinct rs) :=
  inferInstanceAs (Decidable
    (∀ x ∈ rs, ∀ y ∈ rs, priceToIndex x.price = priceToIndex y.price → x.price = y.price))

instance (rs : List RestingOrder) (call : BookCall) : Decidable (Submittable rs call) :=
  match call with
  | .add clientId clientOrderId _ side _ _ => inferInstanceAs (Decidable
      (clientId < ME_MAX_NUM_CLIENTS ∧ clientOrderId < ME_MAX_ORDER_IDS ∧ side.Trading ∧
        ∀ x ∈ rs, x.key ≠ (clientId, clientOrderId)))
  | .cancel clientId orderId _ => inferInstanceAs (Decidable
      (clientId < ME_MAX_NUM_CLIENTS ∧ orderId < ME_MAX_ORDER_IDS))

instance (rs : List RestingOrder) (b : MEOrderBook) (call : BookCall) :
    Decidable (OpensNoBetterLevel rs b call) :=
  match call with
  | .add _ _ _ side price _ => inferInstanceAs (Decidable
      (crossingQty rs side price < wrap32 b.nextMarketOrderId →
        (∃ x ∈ rs, x.side = side ∧ x.price = price) ∨
          ∀ x ∈ rs, x.side = side → addAfter side price x.price))
  | .cancel .. => inferInstanceAs (Decidable True)

/-- What is asked of a call, given the messages so far and those of the call. -/
structure CallStep (log : List (BookCall × List Event)) (_ : MEOrderBook) (call : BookCall)
    (es : List Event) : Prop where
  submittable : Submittable (restingAfter (sent log)) call
  distinct : LivePricesDistinct (restingAfter (sent log ++ es))

/-- What is asked of a call so that the ladders stay sorted. -/
structure LadderStep (log : List (BookCall × List Event)) (b : MEOrderBook) (call : BookCall)
    (es : List Event) : Prop extends CallStep log b call es where
  level : OpensNoBetterLevel (restingAfter (sent log)) b call

abbrev LadderRun (tickerId : TickerId) (log : List (BookCall × List Event)) (b : MEOrderBook) : Prop :=
  Reached MEOrderBook.call LadderStep (MEOrderBook.create tickerId) log b

section Resting
variable {rs : List RestingOrder}

lemma withinLimit_of_not_missed {side : Side} {limit price : Price}
    (h : limitMissed side limit price = false) : WithinLimit side limit price := by
  refine ⟨?_, ?_⟩
  · rintro rfl
    exact Nat.not_lt.mp (of_decide_eq_false (by simpa [limitMissed] using h))
  · rintro rfl
    exact Nat.not_lt.mp (of_decide_eq_false (by simpa [limitMissed] using h))

lemma crossingQty_append (before after : List RestingOrder) (side : Side) (limit : Price) :
    crossingQty (before ++ after) side limit =
      crossingQty before side limit + crossingQty after side limit := by
  induction before with
  | nil => simp [crossingQty]
  | cons x before ih =>
    unfold crossingQty at ih ⊢
    rw [List.cons_append, List.foldr_cons, List.foldr_cons, ih]
    split <;> grind

lemma crossingQty_cons (x : RestingOrder) (rs : List RestingOrder) (side : Side) (limit : Price) :
    crossingQty (x :: rs) side limit =
      (if crosses side limit x then x.qty else 0) + crossingQty rs side limit := by
  unfold crossingQty
  rw [List.foldr_cons]
  split <;> simp

lemma crossingQty_split (before after : List RestingOrder) (x : RestingOrder) (side : Side)
    (limit : Price) : crossingQty (before ++ x :: after) side limit =
      crossingQty (before ++ after) side limit + (if crosses side limit x then x.qty else 0) := by
  rw [crossingQty_append, crossingQty_append, crossingQty_cons]
  grind

lemma crossingQty_cleared {side : Side} {limit : Price}
    (hcleared : ∀ x ∈ rs, x.side = side.opposite → limitMissed side limit x.price = true) :
    crossingQty rs side limit = 0 := by
  induction rs with
  | nil => rfl
  | cons x rs ih =>
    have hx : crosses side limit x = false := by
      by_cases hside : x.side = side.opposite
      · simp [crosses, hcleared x List.mem_cons_self hside]
      · simp [crosses, hside]
    rw [crossingQty_cons, hx, ih fun y hy => hcleared y (List.mem_cons_of_mem x hy)]
    rfl

/-- A remainder rests without crossing. -/
lemma Uncrossed.rest (h : Uncrossed rs) {a : Aggressor}
    (hcleared : ∀ x ∈ rs, x.side = a.side.opposite → limitMissed a.side a.price x.price = true)
    {x : RestingOrder} (hside : x.side = a.side) (hprice : x.price = a.price) :
    Uncrossed (rs ++ [x]) := by
  intro y hy z hz hbuy hsell
  rw [List.mem_append, List.mem_singleton] at hy hz
  rcases hy with hy | rfl <;> rcases hz with hz | rfl
  · exact h y hy z hz hbuy hsell
  · have hmissed := hcleared y hy (by rw [hbuy, ← hside, hsell]; rfl)
    rw [← hside, hsell] at hmissed
    simpa [limitMissed, hprice] using hmissed
  · have hmissed := hcleared z hz (by rw [hsell, ← hside, hbuy]; rfl)
    rw [← hside, hbuy] at hmissed
    simpa [limitMissed, hprice] using hmissed
  · rw [hbuy] at hsell
    cases hsell

lemma Uncrossed.subset {rs' : List RestingOrder} (h : Uncrossed rs)
    (hsub : ∀ y ∈ rs', ∃ x ∈ rs, y.side = x.side ∧ y.price = x.price) : Uncrossed rs' := by
  intro y hy z hz hbuy hsell
  obtain ⟨x, hx, hxs, hxp⟩ := hsub y hy
  obtain ⟨w, hw, hws, hwp⟩ := hsub z hz
  rw [hxp, hwp]
  exact h x hx w hw (hxs ▸ hbuy) (hws ▸ hsell)

end Resting

namespace MEOrderBook
variable {b b' : MEOrderBook} {sh : Shape} {rs : List RestingOrder}

/-- No resting order is better than the first order of the top level. -/
lemma Tracks.top_best (h : b.book.WellFormed sh) (ht : Tracks b sh rs) {s : Side} (hs : s.Trading)
    {p itr : Nat} {os : List Nat} {ls : List LevelShape} (hside : sh.side s = ⟨p, itr :: os⟩ :: ls)
    {y : RestingOrder} (hy : y ∈ rs) (hys : y.side = s) :
    y.price = (b.book.order itr).price ∨ addAfter s y.price (b.book.order itr).price := by
  obtain ⟨q, hq, rfl⟩ := ht.orders y hy
  obtain ⟨t, htr, l, hl, hql⟩ := Shape.mem_orders.mp hq
  obtain rfl : t = s := (((h.side t htr).level l hl).orderSide q hql).symm.trans hys
  have hok := h.side t htr
  have hprice : (b.restingOrder q).price = (b.book.level l.ptr).price :=
    (hok.level l hl).orderPrice q hql
  have htop : (b.book.order itr).price = (b.book.level p).price :=
    (hok.level ⟨p, itr :: os⟩ (by simp [hside])).orderPrice itr (by simp)
  have hsorted := hok.sorted
  rw [hside, List.map_cons, List.pairwise_cons] at hsorted
  rw [hside] at hl
  rw [hprice, htop]
  rcases List.mem_cons.mp hl with rfl | hl
  · exact .inl rfl
  · exact .inr (hsorted.1 l.ptr (List.mem_map_of_mem hl))

/-- The first order of the top level splits the resting orders of its side. -/
lemma Tracks.split (h : b.book.WellFormed sh) (ht : Tracks b sh rs) {s : Side} (hs : s.Trading)
    {p itr : Nat} {os : List Nat} {ls : List LevelShape} (hside : sh.side s = ⟨p, itr :: os⟩ :: ls) :
    ∃ before after, rs = before ++ b.restingOrder itr :: after ∧
      (∀ y ∈ before, y.side = s → addAfter s y.price (b.book.order itr).price) ∧
      (∀ y ∈ after, y.side = s → ¬addAfter s (b.book.order itr).price y.price) := by
  have hqueue := ht.queue s hs ⟨p, itr :: os⟩ (by simp [hside]) itr (by simp)
  rw [List.map_cons] at hqueue
  obtain ⟨before, after, rfl, hbefore, -, -⟩ := List.filter_eq_cons_iff.mp hqueue
  refine ⟨before, after, rfl, fun y hy hys => ?_, fun y hy hys hworse => ?_⟩
  · apply (ht.top_best h hs hside (List.mem_append_left _ hy) hys).resolve_left
    intro he
    exact hbefore y hy (by simp [hys, he])
  · rcases ht.top_best h hs hside (y := y) (by simp [hy]) hys with he | hw
    · rw [he, addAfter_self] at hworse
      cases hworse
    · exact absurd hworse (by simp [addAfter_asymm hw])

/-- What the matching loop of an `add` keeps. `v` is what was seen before the first fill. -/
structure Matching (a : Aggressor) (v : Observer) (qty : Qty) (b : MEOrderBook) (leavesQty : Qty)
    (fills : List Fill) : Prop where
  book : ∃ sh, b.book.WellFormed sh ∧ Tracks b sh (v.seeAll (fills.flatMap Fill.events)).resting
  submitted : (v.seeAll (fills.flatMap Fill.events)).submitted = v.submitted
  known : ∀ y ∈ (v.seeAll (fills.flatMap Fill.events)).resting,
    ∃ x ∈ v.resting, y.key = x.key ∧ y.side = x.side ∧ y.price = x.price
  kept : ∀ x ∈ v.resting, x.side ≠ a.side.opposite →
    x ∈ (v.seeAll (fills.flatMap Fill.events)).resting
  balance : qty + crossingQty (v.seeAll (fills.flatMap Fill.events)).resting a.side a.price =
    leavesQty + crossingQty v.resting a.side a.price
  priority : ∀ done f rest, fills = done ++ f :: rest →
    PriorityFill (v.seeAll (done.flatMap Fill.events)).resting
      (.add a.clientId a.clientOrderId a.tickerId a.side a.price qty) f

/-- The book after a fill holds what the observer has. -/
lemma Tracks.fill (h : b.book.WellFormed sh) (ht : Tracks b sh rs) {s : Side} (hs : s.Trading)
    {p itr : Nat} {os : List Nat} {ls : List LevelShape} (hside : sh.side s = ⟨p, itr :: os⟩ :: ls)
    {leavesQty leavesQty' : Qty} (hfill : b.FillsOrder itr leavesQty b' leavesQty') :
    ∃ sh', b'.book.WellFormed sh' ∧ Tracks b' sh' (fillResting rs (b.restingOrder itr).key
      ((b.book.order itr).qty - min leavesQty (b.book.order itr).qty)) := by
  have hf := hfill.frame
  have hmem : itr ∈ sh.orders :=
    Shape.mem_orders_of_side hs (l := ⟨p, itr :: os⟩) (by simp [hside]) (by simp)
  refine ⟨_, hfill.wellFormed h hs hside, ?_⟩
  by_cases hqty : (b.book.order itr).qty ≤ leavesQty
  · rw [if_pos hqty, min_eq_right hqty, Nat.sub_self, fillResting, if_pos rfl]
    exact ht.drop h hs (show sh.side s = [] ++ ⟨p, [] ++ itr :: os⟩ :: ls from hside) hf.order
  · have hlt := Nat.not_le.mp hqty
    rw [if_neg hqty]
    refine ht.setLeaves h hmem ?_ hf.order hf.filled
    rw [min_eq_left hlt.le]
    exact Nat.sub_ne_zero_of_lt hlt

/-- One round of the matching loop. -/
lemma Matching.round {a : Aggressor} (hs : a.side.Trading) {v : Observer} {qty : Qty}
    (hfresh : ∀ x ∈ v.resting, x.key ≠ (a.clientId, a.clientOrderId)) {leavesQty leavesQty' : Qty}
    {fills : List Fill} {itr : Nat} (h : Matching a v qty b leavesQty fills)
    (hstep : MatchStep a b leavesQty itr b' leavesQty') :
    Matching a v qty b' leavesQty' (fills ++ [a.fill (b.book.order itr) leavesQty]) := by
  obtain ⟨sh, hwf, ht⟩ := h.book
  obtain ⟨lvl, htop, hfirst⟩ := hstep.first
  obtain ⟨os, ls, hside⟩ := side_of_top hwf hs.opposite htop hfirst
  obtain ⟨before, after, hrs, hbefore, hafter⟩ := ht.split hwf hs.opposite hside
  have hitrSide : (b.restingOrder itr).side = a.side.opposite :=
    ((hwf.side _ hs.opposite).level ⟨lvl, itr :: os⟩ (by simp [hside])).orderSide itr (by simp)
  have hcrosses : crosses a.side a.price (b.restingOrder itr) = true := by
    have hlimit : limitMissed a.side a.price (b.restingOrder itr).price = false := hstep.limit
    simp [crosses, hitrSide, hlimit]
  generalize hv₁ : v.seeAll (fills.flatMap Fill.events) = v₁ at *
  have hfresh₁ : ∀ y ∈ v₁.resting, y.key ≠ (a.clientId, a.clientOrderId) := by
    intro y hy
    obtain ⟨x, hx, hkey, -⟩ := (hv₁ ▸ h.known) y hy
    exact hkey ▸ hfresh x hx
  have hseen : v.seeAll ((fills ++ [a.fill (b.book.order itr) leavesQty]).flatMap Fill.events) =
      ⟨v₁.submitted, fillResting v₁.resting (b.restingOrder itr).key
        ((b.book.order itr).qty - min leavesQty (b.book.order itr).qty)⟩ := by
    rw [List.flatMap_append, Observer.seeAll_append, hv₁, List.flatMap_singleton]
    exact v₁.see_fill a _ _ hfresh₁
  have hleft := fillResting_split ((b.book.order itr).qty - min leavesQty (b.book.order itr).qty)
    (hrs ▸ ht.keysNodup)
  rw [← hrs] at hleft
  refine ⟨?_, ?_, ?_, ?_, ?_, ?_⟩
  · rw [hseen]
    exact ht.fill hwf hs.opposite hside hstep.fills
  · rw [hseen, ← hv₁]
    exact h.submitted
  · rw [hseen]
    intro y hy
    obtain ⟨z, hz, hkey, hzside, hprice⟩ := mem_fillResting hy
    obtain ⟨x, hx, hkey', hside', hprice'⟩ := (hv₁ ▸ h.known) z hz
    exact ⟨x, hx, hkey.trans hkey', hzside.trans hside', hprice.trans hprice'⟩
  · rw [hseen, hleft]
    intro x hx hxs
    have hmem := (hv₁ ▸ h.kept) x hx hxs
    rw [hrs, List.mem_append, List.mem_cons] at hmem
    rcases hmem with hmem | rfl | hmem
    · simp [hmem]
    · exact absurd hitrSide hxs
    · simp [hmem]
  · have hbalance := hv₁ ▸ h.balance
    rw [hrs, crossingQty_split, if_pos hcrosses] at hbalance
    have hq : (b.restingOrder itr).qty = (b.book.order itr).qty := rfl
    rw [hseen, hleft]
    rcases hstep.fills with ⟨hqty, rfl, -⟩ | ⟨hqty, rfl, -⟩
    · simp only [min_eq_right hqty, Nat.sub_self, if_true, List.append_nil]
      grind
    · have hne : (b.book.order itr).qty - leavesQty ≠ 0 := Nat.sub_ne_zero_of_lt hqty
      simp only [min_eq_left hqty.le, hne, if_false, List.append_assoc, List.singleton_append]
      rw [crossingQty_split, if_pos (by exact hcrosses)]
      grind
  · intro done f rest hsplit
    rcases List.eq_nil_or_concat rest with rfl | ⟨rest, last, rfl⟩
    · obtain ⟨rfl, hf⟩ := List.append_inj' hsplit rfl
      obtain rfl : a.fill (b.book.order itr) leavesQty = f := by simpa using hf
      rw [hv₁, hrs]
      exact ⟨rfl, rfl, rfl, rfl, before, b.restingOrder itr, after, rfl, rfl, hitrSide,
        hitrSide ▸ hbefore, hitrSide ▸ hafter, rfl, rfl, rfl, withinLimit_of_not_missed hstep.limit⟩
    · apply h.priority done f rest
      have hinit : fills ++ [a.fill (b.book.order itr) leavesQty] = (done ++ f :: rest) ++ [last] := by
        simpa using hsplit
      exact (List.append_inj' hinit rfl).1

/-- A well-formed, uncrossed book whose orders are the resting ones. -/
structure InStep (b : MEOrderBook) (sh : Shape) (rs : List RestingOrder) : Prop where
  wellFormed : b.book.WellFormed sh
  tracks : Tracks b sh rs
  uncrossed : Uncrossed rs

lemma Matching.init {a : Aggressor} {v : Observer} {qty : Qty} (h : b.book.WellFormed sh)
    (ht : Tracks b sh v.resting) : Matching a v qty b qty [] where
  book := ⟨sh, h, ht⟩
  submitted := rfl
  known := fun y hy => ⟨y, hy, rfl, rfl, rfl⟩
  kept := fun x hx _ => hx
  balance := rfl
  priority := by simp

/-- After a match with a remainder, what rests on the other side is beyond the limit. -/
lemma Tracks.cleared {a : Aggressor} (hs : a.side.Trading) (h : b.book.WellFormed sh)
    (ht : Tracks b sh rs) {leavesQty : Qty} (hdone : MatchDone a b leavesQty) (hleaves : leavesQty ≠ 0)
    {x : RestingOrder} (hx : x ∈ rs) (hxs : x.side = a.side.opposite) :
    limitMissed a.side a.price x.price = true := by
  obtain ⟨q, hq, rfl⟩ := ht.orders x hx
  obtain ⟨t, htr, l, hl, hql⟩ := Shape.mem_orders.mp hq
  have hok := (h.side t htr).level l hl
  obtain rfl : t = a.side.opposite := (hok.orderSide q hql).symm.trans hxs
  have hprice : (b.restingOrder q).price = (b.book.level l.ptr).price := hok.orderPrice q hql
  rw [hprice]
  exact hdone.cleared hs h hleaves l hl

lemma cancel_inStep {v : Observer} (h : InStep b sh v.resting) {clientId : ClientId} {orderId : OrderId}
    {tickerId : TickerId} {es : List Event} (hrun : b.cancel clientId orderId tickerId = .ok (b', es)) :
    (∃ sh', InStep b' sh' (v.seeAll es).resting) ∧
      FillsInOrder v (.cancel clientId orderId tickerId) es := by
  rcases cancel_cases hrun with ⟨-, rfl, rfl⟩ | ⟨o, book, hkey, hremove, rfl, rfl⟩
  · refine ⟨⟨sh, h⟩, [cancelRejected clientId orderId tickerId], [], [], rfl, ?_, by simp [NoFills], by simp⟩
    intro r hr
    obtain rfl : r = _ := by simpa [cancelRejected] using hr
    simp
  · obtain ⟨ho, hok⟩ := (h.wellFormed.keys _ o).mp hkey
    obtain ⟨s, hs, pre, p, l, m, post, hside⟩ := Shape.exists_split ho
    obtain ⟨book', hremove', hwf⟩ := removeOrder_spec h.wellFormed hs hside
    obtain rfl : book' = book := by simpa [hremove'] using hremove
    have hseen : (v.seeAll (canceled (b.book.order o) clientId orderId tickerId)).resting =
        v.resting.filter fun x => x.key ≠ (clientId, orderId) := rfl
    have hframe : ∀ q, q ≠ o → (({ b with book := book' } : MEOrderBook).book.order q).unlinked =
        (b.book.order q).unlinked := fun q _ => (removeOrder_frame hremove').order q
    have htracks := h.tracks.drop h.wellFormed hs hside hframe
    rw [show (b.restingOrder o).key = (clientId, orderId) from hok] at htracks
    refine ⟨⟨_, hwf, hseen ▸ htracks, hseen ▸ h.uncrossed.subset fun y hy => ?_⟩,
      canceled (b.book.order o) clientId orderId tickerId, [], [], by simp, ?_, by simp [NoFills], by simp⟩
    · exact ⟨y, (List.mem_filter.mp hy).1, rfl, rfl⟩
    · intro r hr
      obtain rfl : r = _ := by simpa [canceled] using hr
      simp

/-- An order that rests keeps a resting price on its side. -/
lemma Tracks.mem_of_level (h : b.book.WellFormed sh) (ht : Tracks b sh rs) {s : Side} (hs : s.Trading)
    {l : LevelShape} (hl : l ∈ sh.side s) :
    ∃ x ∈ rs, x.side = s ∧ x.price = (b.book.level l.ptr).price := by
  have hok := (h.side s hs).level l hl
  obtain ⟨o, ho⟩ := List.exists_mem_of_ne_nil _ hok.nonempty
  exact ⟨b.restingOrder o, ht.mem (Shape.mem_orders_of_side hs hl ho), hok.orderSide o ho,
    hok.orderPrice o ho⟩

lemma Tracks.level_of_mem (h : b.book.WellFormed sh) (ht : Tracks b sh rs) {x : RestingOrder}
    (hx : x ∈ rs) : ∃ l ∈ sh.side x.side, (b.book.level l.ptr).price = x.price := by
  obtain ⟨o, ho, rfl⟩ := ht.orders x hx
  obtain ⟨s, hs, l, hl, hol⟩ := Shape.mem_orders.mp ho
  have hok := (h.side s hs).level l hl
  have hside : (b.restingOrder o).side = s := hok.orderSide o hol
  exact ⟨l, hside ▸ hl, (hok.orderPrice o hol).symm⟩

/-- The remainder of a matched aggressor finds its place. -/
lemma rest_inStep {a : Aggressor} {v : Observer} {b₁ : MEOrderBook} {qty leavesQty : Qty}
    {fills : List Fill} {marketOrderId : OrderId} {priority : Priority} {o : Nat}
    (hs : a.side.Trading) (hin : OrderKey.inTable MEOrderIds (a.clientId, a.clientOrderId) = true)
    (hfresh : ∀ x ∈ v.resting, x.key ≠ (a.clientId, a.clientOrderId)) (huncrossed : Uncrossed v.resting)
    (hlevel : crossingQty v.resting a.side a.price < qty →
      (∃ x ∈ v.resting, x.side = a.side ∧ x.price = a.price) ∨
        ∀ x ∈ v.resting, x.side = a.side → addAfter a.side a.price x.price)
    (hmatching : Matching a v qty b₁ leavesQty fills) (hdone : MatchDone a b₁ leavesQty)
    (hleaves : leavesQty ≠ 0) (hrests : Rests a b₁ marketOrderId leavesQty priority o b')
    (hdistinct : LivePricesDistinct ((v.seeAll (fills.flatMap Fill.events)).resting ++
      [⟨a.clientId, a.clientOrderId, a.side, a.price, leavesQty⟩])) :
    ∃ sh', InStep b' sh' ((v.seeAll (fills.flatMap Fill.events)).resting ++
      [⟨a.clientId, a.clientOrderId, a.side, a.price, leavesQty⟩]) := by
  obtain ⟨sh, hwf, ht⟩ := hmatching.book
  generalize hrs : (v.seeAll (fills.flatMap Fill.events)).resting = rs at *
  have hknown := hrs ▸ hmatching.known
  have hcleared : ∀ x ∈ rs, x.side = a.side.opposite → limitMissed a.side a.price x.price = true :=
    fun x hx hxs => ht.cleared hs hwf hdone hleaves hx hxs
  have hfresh' : ∀ y ∈ rs, y.key ≠ (a.clientId, a.clientOrderId) := by
    intro y hy
    obtain ⟨x, hx, hkey, -⟩ := hknown y hy
    exact hkey ▸ hfresh x hx
  have hrest : crossingQty v.resting a.side a.price < qty := by
    have hbalance := hmatching.balance
    rw [hrs, crossingQty_cleared hcleared] at hbalance
    have hpos := Nat.pos_of_ne_zero hleaves
    grind
  have hworst : (∃ l ∈ sh.side a.side, (b₁.book.level l.ptr).price = a.price) ∨
      ∀ l ∈ sh.side a.side, addAfter a.side a.price (b₁.book.level l.ptr).price := by
    rcases hlevel hrest with ⟨x, hx, hxs, hxp⟩ | hworse
    · have hmem := (hrs ▸ hmatching.kept) x hx (hxs ▸ hs.opposite_ne.symm)
      obtain ⟨l, hl, hprice⟩ := ht.level_of_mem hwf hmem
      exact .inl ⟨l, hxs ▸ hl, hprice.trans hxp⟩
    · refine .inr fun l hl => ?_
      obtain ⟨y, hy, hys, hyp⟩ := ht.mem_of_level hwf hs hl
      obtain ⟨x, hx, -, hxs, hxp⟩ := hknown y hy
      rw [← hyp, hxp]
      exact hworse x hx (hxs.symm.trans hys)
  have hprice : ∀ l ∈ sh.levels, priceToIndex (b₁.book.level l.ptr).price = priceToIndex a.price →
      (b₁.book.level l.ptr).price = a.price ∧ l ∈ sh.side a.side := by
    intro l hl hindex
    obtain ⟨t, htr, hl⟩ := Shape.mem_levels.mp hl
    obtain ⟨y, hy, hys, hyp⟩ := ht.mem_of_level hwf htr hl
    have hsame := hdistinct y (by simp [hy]) _ (List.mem_append_right _ (List.mem_singleton_self _))
      (by rw [hyp]; exact hindex)
    refine ⟨hyp.symm.trans hsame, ?_⟩
    rcases hs.eq_or_opposite htr with rfl | rfl
    · exact hl
    · have hmissed := hcleared y hy hys
      rw [hsame] at hmissed
      rcases hs with hbuy | hsell <;> simp [limitMissed] at hmissed
  have hfree : b₁.book.orderTable (a.clientId, a.clientOrderId) = none := ht.keyFree hwf hfresh'
  obtain ⟨sh', hspot, hwf'⟩ := hrests.wellFormed hwf hs hin hfree hprice hworst
  refine ⟨sh', hwf', ht.rest hs hspot hwf hwf' hrests.frame hfresh', ?_⟩
  refine Uncrossed.rest ?_ hcleared rfl rfl
  exact huncrossed.subset fun y hy => (hknown y hy).imp fun x hx => ⟨hx.1, hx.2.2.1, hx.2.2.2⟩

lemma noFills_accepted (a : Aggressor) (marketOrderId : OrderId) (qty : Qty) :
    NoFills [accepted a marketOrderId qty] := by
  intro r hr
  obtain rfl : r = _ := by simpa [accepted] using hr
  simp

lemma add_inStep {v : Observer} (h : InStep b sh v.resting) {clientId : ClientId}
    {clientOrderId : OrderId} {tickerId : TickerId} {side : Side} {price : Price} {qty : Qty}
    {es : List Event}
    (hsubmit : Submittable v.resting (.add clientId clientOrderId tickerId side price qty))
    (hlevel : OpensNoBetterLevel v.resting b (.add clientId clientOrderId tickerId side price qty))
    (hdistinct : LivePricesDistinct (v.seeAll es).resting)
    (hrun : b.add clientId clientOrderId tickerId side price qty = .ok (b', es)) :
    (∃ sh', InStep b' sh' (v.seeAll es).resting) ∧
      FillsInOrder v (.add clientId clientOrderId tickerId side price qty) es := by
  obtain ⟨hclient, horder, hs, hfresh⟩ := hsubmit
  let a := addAggressor clientId clientOrderId tickerId side price qty
  obtain ⟨b₁, leavesQty, es₁, hmatch, hend⟩ := add_cases hrun
  let v₁ : Observer := ⟨(clientId, clientOrderId), v.resting⟩
  have hv₁ : v.see (accepted a b.nextMarketOrderId qty) = v₁ := rfl
  obtain ⟨fills, rfl, hmatching, hdone⟩ :=
    checkForMatch_rule a (P := fun c q f => Matching a v₁ (wrap32 b.nextMarketOrderId) c q f)
      (fun _ c q fills itr c' q' hc hstep => hc.round hs hfresh hstep)
      (Matching.init (b := b.drawn) (v := v₁) h.wellFormed
        ⟨h.tracks.queue, h.tracks.orders, h.tracks.keysNodup⟩) hmatch
  have hinOrder : ∀ closing : List Event, NoFills closing →
      FillsInOrder v (.add clientId clientOrderId tickerId side price qty)
        (accepted a b.nextMarketOrderId qty :: fills.flatMap Fill.events ++ closing) := by
    intro closing hclosing
    refine ⟨[accepted a b.nextMarketOrderId qty], fills, closing, rfl, noFills_accepted _ _ _, hclosing, ?_⟩
    intro done f rest hsplit
    rw [List.singleton_append, Observer.seeAll_cons, hv₁]
    exact hmatching.priority done f rest hsplit
  rcases hend with ⟨-, rfl, rfl⟩ | ⟨hleaves, priority, o, hrests, rfl⟩
  · refine ⟨?_, by simpa using hinOrder [] (by simp [NoFills])⟩
    obtain ⟨sh', hwf, ht⟩ := hmatching.book
    rw [Observer.seeAll_cons, hv₁]
    exact ⟨sh', hwf, ht, h.uncrossed.subset fun y hy =>
      (hmatching.known y hy).imp fun x hx => ⟨hx.1, hx.2.2.1, hx.2.2.2⟩⟩
  · have hclosing : NoFills [rested a b.nextMarketOrderId leavesQty priority] := by
      intro r hr
      simp [rested] at hr
    refine ⟨?_, hinOrder _ hclosing⟩
    have hseen : (v.seeAll (accepted a b.nextMarketOrderId qty :: fills.flatMap Fill.events ++
        [rested a b.nextMarketOrderId leavesQty priority])).resting =
        (v₁.seeAll (fills.flatMap Fill.events)).resting ++
          [⟨clientId, clientOrderId, side, price, leavesQty⟩] := by
      rw [List.cons_append, Observer.seeAll_cons, hv₁, Observer.seeAll_append]
      simp only [Observer.seeAll_cons, Observer.seeAll_nil, Observer.see, rested, hmatching.submitted]
      rfl
    rw [hseen] at hdistinct ⊢
    have hin : OrderKey.inTable MEOrderIds (clientId, clientOrderId) = true := by
      simp [OrderKey.inTable, hclient, horder]
    exact rest_inStep (a := a) (v := v₁) hs hin hfresh h.uncrossed hlevel hmatching (hdone hs) hleaves hrests
      hdistinct

/-- Every call of such a run keeps book and resting orders in step, and its fills in order. -/
lemma call_inStep {v : Observer} (h : InStep b sh v.resting) {call : BookCall} {es : List Event}
    (hsubmit : Submittable v.resting call) (hlevel : OpensNoBetterLevel v.resting b call)
    (hdistinct : LivePricesDistinct (v.seeAll es).resting) (hrun : b.call call = .ok (b', es)) :
    (∃ sh', InStep b' sh' (v.seeAll es).resting) ∧ FillsInOrder v call es := by
  cases call with
  | add clientId clientOrderId tickerId side price qty =>
    exact add_inStep h hsubmit hlevel hdistinct hrun
  | cancel clientId orderId tickerId => exact cancel_inStep h hrun

/-- In step, a submittable call ends the process only by exhausting a pool. -/
lemma call_returns (h : InStep b sh rs) {call : BookCall} (hsubmit : Submittable rs call) :
    (∃ b' es, b.call call = .ok (b', es)) ∨ b.call call = .error MemPool.outOfSpace := by
  cases call with
  | add clientId clientOrderId tickerId side price qty =>
    obtain ⟨hclient, horder, hs, -⟩ := hsubmit
    have hin : OrderKey.inTable MEOrderIds (clientId, clientOrderId) = true := by
      simp [OrderKey.inTable, hclient, horder]
    rcases add_returns h.wellFormed tickerId hs hin price qty with ⟨r, hr⟩ | ⟨herr, -⟩
    · exact .inl ⟨r.1, r.2, hr⟩
    · exact .inr herr
  | cancel clientId orderId tickerId =>
    exact .inl (cancel_returns h.wellFormed clientId tickerId hsubmit.2)

end MEOrderBook

/-- In every state of a run, the book is in step with the messages sent. -/
theorem LadderRun.inStep {tickerId : TickerId} {log : List (BookCall × List Event)} {b : MEOrderBook}
    (h : LadderRun tickerId log b) : ∃ sh, InStep b sh (restingAfter (sent log)) := by
  refine h.invariant (fun log b => ∃ sh, InStep b sh (restingAfter (sent log))) ?_ ?_
  · refine ⟨⟨[], []⟩, wellFormed_create tickerId, ⟨?_, ?_, ?_⟩, ?_⟩
    · rintro s (rfl | rfl) <;> simp [Shape.side]
    · simp [restingAfter, Observer.init]
    · exact .nil
    · simp [restingAfter, Observer.init, Uncrossed]
  · rintro log b call b' es ⟨sh, hin⟩ hstep hrun
    have hafter : restingAfter (sent (log ++ [(call, es)])) =
        ((Observer.init.seeAll (sent log)).seeAll es).resting := by
      simp [restingAfter]
    rw [hafter]
    refine (call_inStep (v := Observer.init.seeAll (sent log)) hin hstep.submittable hstep.level ?_ hrun).1
    simpa [restingAfter] using hstep.distinct

/-- Every fill of every call of a run is against the best and oldest opposite order, at its
price and within the limit. After every call the book is uncrossed, and the next call returns
unless it exhausts a pool. -/
theorem price_time_priority {tickerId : TickerId} {log : List (BookCall × List Event)} {b : MEOrderBook}
    (h : LadderRun tickerId log b) :
    (∀ past call es future, log = past ++ (call, es) :: future →
      FillsInOrder (Observer.init.seeAll (sent past)) call es) ∧
    Uncrossed (restingAfter (sent log)) ∧
    (∀ call, Submittable (restingAfter (sent log)) call →
      (∃ b' es, b.call call = .ok (b', es)) ∨ b.call call = .error MemPool.outOfSpace) := by
  obtain ⟨sh, hin⟩ := h.inStep
  refine ⟨fun past call es future hlog => ?_, hin.uncrossed, fun call hsubmit => call_returns hin hsubmit⟩
  obtain ⟨b₁, b₂, hpast, hstep, hrun⟩ := h.entry hlog
  obtain ⟨sh₁, hin₁⟩ := LadderRun.inStep hpast
  refine (call_inStep (v := Observer.init.seeAll (sent past)) hin₁ hstep.submittable hstep.level ?_ hrun).2
  simpa [restingAfter] using hstep.distinct

/-- A sell rests, and a buy fills it and rests in turn. -/
def crossingLog : List (BookCall × List Event) :=
  [(.add 1 1 0 .sell 100 1,
    [.response ⟨.accepted, 1, 0, 1, 1, .sell, 100, 0, 1⟩, .update ⟨.add, 1, 0, .sell, 100, 1, 1⟩]),
   (.add 2 1 0 .buy 101 2,
    [.response ⟨.accepted, 2, 0, 1, 2, .buy, 101, 0, 2⟩,
     .response ⟨.filled, 2, 0, 1, 2, .buy, 100, 1, 1⟩,
     .response ⟨.filled, 1, 0, 1, 1, .sell, 100, 1, 0⟩,
     .update ⟨.trade, OrderId_INVALID, 0, .buy, 100, 1, Priority_INVALID⟩,
     .update ⟨.cancel, 1, 0, .sell, 100, 1, Priority_INVALID⟩,
     .update ⟨.add, 2, 0, .buy, 101, 1, 1⟩])]

lemma crossingLog_run : ∃ b, LadderRun 0 crossingLog b := by
  refine ⟨_, .next (.next .start ⟨⟨?_, ?_⟩, ?_⟩ rfl) ⟨⟨?_, ?_⟩, ?_⟩ rfl⟩
  all_goals decide

theorem price_time_priority_crossing : Uncrossed (restingAfter (sent crossingLog)) := by
  obtain ⟨b, hrun⟩ := crossingLog_run
  exact (price_time_priority hrun).2.1

/-- A better bid opens a level, and the top stays behind it. The sell fills the older,
worse bid first. -/
def betterBidLog : List (BookCall × List Event) :=
  [(.add 1 1 0 .buy 100 1,
    [.response ⟨.accepted, 1, 0, 1, 1, .buy, 100, 0, 1⟩, .update ⟨.add, 1, 0, .buy, 100, 1, 1⟩]),
   (.add 1 2 0 .buy 101 2,
    [.response ⟨.accepted, 1, 0, 2, 2, .buy, 101, 0, 2⟩, .update ⟨.add, 2, 0, .buy, 101, 2, 1⟩]),
   (.add 2 1 0 .sell 100 3,
    [.response ⟨.accepted, 2, 0, 1, 3, .sell, 100, 0, 3⟩,
     .response ⟨.filled, 2, 0, 1, 3, .sell, 100, 1, 2⟩,
     .response ⟨.filled, 1, 0, 1, 1, .buy, 100, 1, 0⟩,
     .update ⟨.trade, OrderId_INVALID, 0, .sell, 100, 1, Priority_INVALID⟩,
     .update ⟨.cancel, 1, 0, .buy, 100, 1, Priority_INVALID⟩,
     .response ⟨.filled, 2, 0, 1, 3, .sell, 101, 2, 0⟩,
     .response ⟨.filled, 1, 0, 2, 2, .buy, 101, 2, 0⟩,
     .update ⟨.trade, OrderId_INVALID, 0, .sell, 101, 2, Priority_INVALID⟩,
     .update ⟨.cancel, 2, 0, .buy, 101, 2, Priority_INVALID⟩])]

lemma betterBidLog_run :
    ∃ b, Reached MEOrderBook.call CallStep (MEOrderBook.create 0) betterBidLog b := by
  refine ⟨_, .next (.next (.next .start ⟨?_, ?_⟩ rfl) ⟨?_, ?_⟩ rfl)
    ⟨?_, ?_⟩ rfl⟩
  all_goals decide

/-- The first fill of a call that opens with an `ACCEPTED` comes right after it. -/
lemma FillsInOrder.first {v : Observer} {call : BookCall}
    {accepted aggressor passive : MEClientResponse} {es : List Event}
    (h : FillsInOrder v call (.response accepted :: .response aggressor :: .response passive :: es))
    (haggressor : aggressor.type = .filled) :
    ∃ f : Fill, f.passive = passive ∧ PriorityFill (v.see (.response accepted)).resting call f := by
  obtain ⟨opening, fills, closing, hes, hopening, hclosing, hfills⟩ := h
  cases fills with
  | nil =>
    have hmem : Event.response aggressor ∈ opening ++ closing := by
      rw [List.flatMap_nil, List.append_nil] at hes
      simp [← hes]
    rcases List.mem_append.mp hmem with hmem | hmem
    · exact absurd haggressor (hopening _ hmem)
    · exact absurd haggressor (hclosing _ hmem)
  | cons f rest =>
    have hfirst := hfills [] f rest rfl
    rcases opening with - | ⟨e, - | ⟨e', opening⟩⟩
    · simp [Fill.events] at hes
    · simp [Fill.events] at hes
      obtain ⟨rfl, -, hpassive, -⟩ := hes
      exact ⟨f, hpassive.symm, hfirst⟩
    · simp at hes
      obtain ⟨-, rfl, -⟩ := hes
      exact absurd haggressor (hopening aggressor (by simp))

theorem price_time_priority_fails : ∃ log b,
    Reached MEOrderBook.call CallStep (MEOrderBook.create 0) log b ∧
    ¬∀ past call es future, log = past ++ (call, es) :: future →
      FillsInOrder (Observer.init.seeAll (sent past)) call es := by
  obtain ⟨b, hrun⟩ := betterBidLog_run
  refine ⟨betterBidLog, b, hrun, fun hall => ?_⟩
  obtain ⟨f, hpassive, -, -, -, -, hprio⟩ :=
    (hall (betterBidLog.take 2) _ _ [] rfl).first rfl
  obtain ⟨before, x, after, hrs, hkey, -, -, hafter, -⟩ := hprio
  rw [hpassive] at hkey
  have hresting : before ++ x :: after = [⟨1, 1, .buy, 100, 1⟩, ⟨1, 2, .buy, 101, 2⟩] := hrs.symm
  rcases before with - | ⟨y, before⟩
  · obtain ⟨rfl, rfl⟩ : x = ⟨1, 1, .buy, 100, 1⟩ ∧ after = [⟨1, 2, .buy, 101, 2⟩] := by
      simpa using hresting
    exact absurd (hafter ⟨1, 2, .buy, 101, 2⟩ (by simp) rfl) (by decide)
  · have hx : x ∈ [(⟨1, 2, .buy, 101, 2⟩ : RestingOrder)] := by
      rw [← (List.cons.inj hresting).2]
      simp
    obtain rfl := List.mem_singleton.mp hx
    exact absurd hkey (by decide)

end LowLatencyExchange
