import LowLatencyExchange.Exchange.Cancellation

/-!
# The matching loop as a walk

What an aggressor does to the orders that wait on the other side, as a recursion over their list:
best price first, in arrival order at a price. On a well-formed book `checkForMatch` returns and
does exactly this, and takes the orders that ran out from the book.
-/

namespace LowLatencyExchange
open PriceBook

/-- What a walk comes to: its fills, what is left of the aggressor, and the orders that still wait. -/
structure Walk where
  fills : List Fill
  leavesQty : Qty
  rest : List MEOrder

def Walk.after (f : Fill) (w : Walk) : Walk := { w with fills := f :: w.fills }

/-- Each order in turn gives what it has or what is still wanted, until nothing is wanted or the
order is beyond the limit. -/
def Aggressor.walk (a : Aggressor) : List MEOrder → Qty → Walk
  | [], leavesQty => ⟨[], leavesQty, []⟩
  | order :: orders, leavesQty =>
    if leavesQty = 0 ∨ MEOrderBook.limitMissed a.side a.price order.price then
      ⟨[], leavesQty, order :: orders⟩
    else if order.qty ≤ leavesQty then
      (a.walk orders (leavesQty - order.qty)).after (a.fill order leavesQty)
    else
      ⟨[a.fill order leavesQty], 0, { order with qty := order.qty - leavesQty } :: orders⟩

section Walk
variable {a : Aggressor} {order : MEOrder} {orders : List MEOrder} {leavesQty : Qty}

@[simp] lemma Aggressor.walk_zero (orders : List MEOrder) : a.walk orders 0 = ⟨[], 0, orders⟩ := by
  cases orders with
  | nil => rfl
  | cons order orders => exact if_pos (.inl rfl)

lemma Aggressor.walk_missed (hlimit : MEOrderBook.limitMissed a.side a.price order.price = true) :
    a.walk (order :: orders) leavesQty = ⟨[], leavesQty, order :: orders⟩ :=
  if_pos (.inr hlimit)

lemma Aggressor.walk_full (hleaves : leavesQty ≠ 0)
    (hlimit : MEOrderBook.limitMissed a.side a.price order.price = false) (hqty : order.qty ≤ leavesQty) :
    a.walk (order :: orders) leavesQty =
      (a.walk orders (leavesQty - order.qty)).after (a.fill order leavesQty) := by
  rw [walk, if_neg (by simp [hleaves, hlimit]), if_pos hqty]

lemma Aggressor.walk_remainder (hleaves : leavesQty ≠ 0)
    (hlimit : MEOrderBook.limitMissed a.side a.price order.price = false) (hqty : leavesQty < order.qty) :
    a.walk (order :: orders) leavesQty =
      ⟨[a.fill order leavesQty], 0, { order with qty := order.qty - leavesQty } :: orders⟩ := by
  rw [walk, if_neg (by simp [hleaves, hlimit]), if_neg (Nat.not_le.mpr hqty)]

end Walk

namespace MEOrderBook
variable {b b₁ b' : MEOrderBook} {sh : Shape} {s : Side} {gone : List Nat}

/-- The orders that wait on a side, in the order in which a walk meets them. -/
def waiting (b : MEOrderBook) (sh : Shape) (s : Side) : List MEOrder :=
  (sh.queue s).map fun o => (b.book.order o).unlinked

/-- The book once the orders `gone` from the front of a side have run out. The front of what is
left may have lost quantity, and everything else is as it was. -/
structure Consumed (s : Side) (b : MEOrderBook) (sh : Shape) (gone : List Nat) (b' : MEOrderBook) : Prop where
  wellFormed : b'.book.WellFormed (sh.keep fun q => q ∉ gone)
  front : gone <+: sh.queue s
  tickerId : b'.tickerId = b.tickerId
  nextMarketOrderId : b'.nextMarketOrderId = b.nextMarketOrderId
  otherSide : (sh.keep fun q => q ∉ gone).side s.opposite = sh.side s.opposite
  order : ∀ q ∉ sh.queue s, (b'.book.order q).unlinked = (b.book.order q).unlinked
  levelSide : ∀ p, (b'.book.level p).side = (b.book.level p).side
  levelPrice : ∀ p, (b'.book.level p).price = (b.book.level p).price
  positive : (∀ q ∈ sh.orders, 0 < (b.book.order q).qty) →
    ∀ q ∈ (sh.keep fun q => q ∉ gone).orders, 0 < (b'.book.order q).qty

lemma keep_append (sh : Shape) (gone gone' : List Nat) :
    ((sh.keep fun q => q ∉ gone).keep fun q => q ∉ gone') = sh.keep fun q => q ∉ gone ++ gone' := by
  rw [Shape.keep_keep]
  apply Shape.keep_congr
  intro q _
  simp

lemma keep_nil (h : b.book.WellFormed sh) : (sh.keep fun q => q ∉ ([] : List Nat)) = sh :=
  Shape.keep_eq_self h.levels_nonempty fun q _ => by simp

lemma queue_nodup (h : b.book.WellFormed sh) (hs : s.Trading) : (sh.queue s).Nodup :=
  (List.nodup_append.mp (h.side_orders_nodup hs)).1

/-- What is left of a side is what stood behind the orders that ran out. -/
lemma Consumed.left (h : b.book.WellFormed sh) (hs : s.Trading) (hc : Consumed s b sh gone b') :
    sh.queue s = gone ++ (sh.keep fun q => q ∉ gone).queue s := by
  obtain ⟨left, hleft⟩ := hc.front
  have hnodup := queue_nodup h hs
  rw [← hleft] at hnodup
  have hgone : gone.filter (fun q => q ∉ gone) = [] :=
    List.filter_eq_nil_iff.mpr fun q hq => by simpa using hq
  have hkept : left.filter (fun q => q ∉ gone) = left := by
    apply List.filter_eq_self.mpr
    intro q hq
    have hout : q ∉ gone := fun hin => (List.nodup_append.mp hnodup).2.2 q hin q hq rfl
    simpa using hout
  rw [Shape.queue_keep, ← hleft, List.filter_append, hgone, hkept, List.nil_append]

lemma Consumed.refl (h : b.book.WellFormed sh) : Consumed s b sh [] b := by
  refine ⟨?_, List.nil_prefix, rfl, rfl, ?_, fun q _ => rfl, fun p => rfl, fun p => rfl, fun hpos => ?_⟩
  all_goals rw [keep_nil h]
  · exact h
  · exact hpos

lemma Consumed.trans {gone' : List Nat} (h : b.book.WellFormed sh) (hs : s.Trading)
    (hc : Consumed s b sh gone b₁) (hc' : Consumed s b₁ (sh.keep fun q => q ∉ gone) gone' b') :
    Consumed s b sh (gone ++ gone') b' where
  wellFormed := by
    rw [← keep_append]
    exact hc'.wellFormed
  front := by
    rw [hc.left h hs]
    exact (List.prefix_append_right_inj gone).mpr hc'.front
  tickerId := hc'.tickerId.trans hc.tickerId
  nextMarketOrderId := hc'.nextMarketOrderId.trans hc.nextMarketOrderId
  otherSide := by
    rw [← keep_append]
    exact hc'.otherSide.trans hc.otherSide
  order := fun q hq => by
    refine (hc'.order q fun hkept => hq ?_).trans (hc.order q hq)
    rw [Shape.queue_keep] at hkept
    exact (List.mem_filter.mp hkept).1
  levelSide := fun p => (hc'.levelSide p).trans (hc.levelSide p)
  levelPrice := fun p => (hc'.levelPrice p).trans (hc.levelPrice p)
  positive := fun hpos => by
    rw [← keep_append]
    exact hc'.positive (hc.positive hpos)

/-- No fill moves a level. -/
lemma FillsOrder.levels {itr : Nat} {leavesQty leavesQty' : Qty} (h : b.FillsOrder itr leavesQty b' leavesQty')
    (p : Nat) : (b'.book.level p).side = (b.book.level p).side ∧
      (b'.book.level p).price = (b.book.level p).price := by
  rcases h with ⟨-, -, book, hbook, rfl⟩ | ⟨-, -, rfl⟩
  · have hlevels := removeOrder_levels hbook
    exact ⟨hlevels.side p, hlevels.price p⟩
  · exact ⟨rfl, rfl⟩

section Round
variable {itr p : Nat} {os : List Nat} {ls : List LevelShape} {leavesQty leavesQty' : Qty} {a : Aggressor}

lemma queue_of_side (hside : sh.side s = ⟨p, itr :: os⟩ :: ls) :
    sh.queue s = itr :: (os ++ ls.flatMap LevelShape.orders) := by
  rw [Shape.queue, hside]
  rfl

/-- An order with no more than what is wanted runs out. -/
lemma FillsOrder.consumes_full (h : b.book.WellFormed sh) (hs : s.Trading)
    (hside : sh.side s = ⟨p, itr :: os⟩ :: ls) (hfill : b.FillsOrder itr leavesQty b' leavesQty')
    (hqty : (b.book.order itr).qty ≤ leavesQty) : Consumed s b sh [itr] b' := by
  have hframe := hfill.frame
  have hqueue := queue_of_side hside
  have hsame : (sh.keep fun q => q ≠ itr) = sh.keep fun q => q ∉ [itr] :=
    Shape.keep_congr fun q _ => by simp
  have hwf := hfill.wellFormed h hs hside
  rw [if_pos hqty, ← List.nil_append os, Shape.dropOrder_eq_keep h.levels_nonempty h.ordersNodup hs
    (show sh.side s = [] ++ ⟨p, [] ++ itr :: os⟩ :: ls from hside), hsame] at hwf
  refine ⟨hwf, ?_, hframe.tickerId, hframe.nextMarketOrderId, ?_, fun q hq => ?_, fun p => (hfill.levels p).1,
    fun p => (hfill.levels p).2, fun hpos q hq => ?_⟩
  · rw [hqueue]
    exact List.prefix_append [itr] _
  · rw [Shape.side_keep]
    refine Shape.keepLevels_eq_self (fun l hl => ?_) fun l hl q hq => ?_
    · exact h.levels_nonempty l (Shape.mem_levels_of_side hs.opposite hl)
    · have hmem : itr ∈ sh.queue s := by
        rw [hqueue]
        exact List.mem_cons_self
      have hne := (List.nodup_append.mp (h.side_orders_nodup hs)).2.2 itr hmem q
        (List.mem_flatMap.mpr ⟨l, hl, hq⟩)
      simpa using hne.symm
  · exact hframe.order q fun he => hq (by rw [hqueue, he]; exact List.mem_cons_self)
  · obtain ⟨hq, hne⟩ := Shape.mem_orders_keep.mp hq
    have hdata := hframe.order q (by simpa using hne)
    rw [(BookOrder.unlinked_eq_iff.mp hdata).2.2.2.1]
    exact hpos q hq

/-- An order with more than what is wanted stays, with less. -/
lemma FillsOrder.consumes_remainder (h : b.book.WellFormed sh) (hs : s.Trading)
    (hside : sh.side s = ⟨p, itr :: os⟩ :: ls) (hfill : b.FillsOrder itr leavesQty b' leavesQty')
    (hqty : leavesQty < (b.book.order itr).qty) : Consumed s b sh [] b' := by
  have hframe := hfill.frame
  have hwf := hfill.wellFormed h hs hside
  rw [if_neg (Nat.not_le.mpr hqty)] at hwf
  refine ⟨?_, List.nil_prefix, hframe.tickerId, hframe.nextMarketOrderId, ?_, fun q hq => ?_,
    fun p => (hfill.levels p).1, fun p => (hfill.levels p).2, fun hpos q hq => ?_⟩
  · rw [keep_nil h]
    exact hwf
  · rw [keep_nil h]
  · exact hframe.order q fun he => hq (by rw [queue_of_side hside, he]; exact List.mem_cons_self)
  · rw [keep_nil h] at hq
    by_cases hqi : q = itr
    · rw [hqi, hframe.qty, min_eq_left hqty.le]
      exact Nat.sub_pos_of_lt hqty
    · rw [(BookOrder.unlinked_eq_iff.mp (hframe.order q hqi)).2.2.2.1]
      exact hpos q hq

/-- A round of the loop is a step of the walk. -/
theorem MatchStep.walk (h : b.book.WellFormed sh) (hs : a.side.Trading)
    (hstep : MatchStep a b leavesQty itr b' leavesQty') :
    ∃ gone, Consumed a.side.opposite b sh gone b' ∧
      a.walk (b.waiting sh a.side.opposite) leavesQty =
        (a.walk (b'.waiting (sh.keep fun q => q ∉ gone) a.side.opposite) leavesQty').after
          (a.fill (b.book.order itr) leavesQty) := by
  obtain ⟨lvl, htop, hfirst⟩ := hstep.first
  obtain ⟨os, ls, hside⟩ := side_of_top h hs.opposite htop hfirst
  have hqueue := queue_of_side hside
  have hnodup := queue_nodup h hs.opposite
  have hframe := hstep.fills.frame
  have hlimit : limitMissed a.side a.price (b.book.order itr).unlinked.price = false := hstep.limit
  rw [hqueue] at hnodup
  have hbehind : ∀ q ∈ os ++ ls.flatMap LevelShape.orders,
      (b'.book.order q).unlinked = (b.book.order q).unlinked := fun q hq =>
    hframe.order q fun he => (List.nodup_cons.mp hnodup).1 (he ▸ hq)
  have hwaiting : b.waiting sh a.side.opposite = (b.book.order itr).unlinked ::
      (os ++ ls.flatMap LevelShape.orders).map fun q => (b'.book.order q).unlinked := by
    rw [waiting, hqueue, List.map_cons, List.map_congr_left hbehind]
  rcases Nat.lt_or_ge leavesQty (b.book.order itr).qty with hqty | hqty
  · have hconsumed := hstep.fills.consumes_remainder h hs.opposite hside hqty
    refine ⟨[], hconsumed, ?_⟩
    have hleaves : leavesQty' = 0 := by
      rcases hstep.fills with ⟨hfull, -, -⟩ | ⟨-, hleaves, -⟩
      · exact absurd hfull (Nat.not_le.mpr hqty)
      · exact hleaves
    have hfilled : (b'.book.order itr).unlinked =
        { (b.book.order itr).unlinked with qty := (b.book.order itr).qty - leavesQty } := by
      rw [hframe.filled, min_eq_left hqty.le]
    rw [hwaiting, Aggressor.walk_remainder hstep.leaves hlimit hqty, keep_nil h, waiting, hqueue, hleaves,
      Aggressor.walk_zero, List.map_cons, hfilled]
    rfl
  · have hconsumed := hstep.fills.consumes_full h hs.opposite hside hqty
    refine ⟨[itr], hconsumed, ?_⟩
    have hleaves : leavesQty' = leavesQty - (b.book.order itr).qty := by
      rcases hstep.fills with ⟨-, hleaves, -⟩ | ⟨hless, -, -⟩
      · exact hleaves
      · exact absurd hqty (Nat.not_le.mpr hless)
    have hleft := hconsumed.left h hs.opposite
    rw [hqueue] at hleft
    have hrest : os ++ ls.flatMap LevelShape.orders =
      (sh.keep fun q => q ∉ [itr]).queue a.side.opposite := (List.cons.inj hleft).2
    rw [hwaiting, Aggressor.walk_full hstep.leaves hlimit hqty, waiting, ← hrest, hleaves]
    rfl

/-- When the loop ends, so does the walk. -/
lemma MatchDone.walk (h : b.book.WellFormed sh) (hs : a.side.Trading) (hdone : MatchDone a b leavesQty) :
    a.walk (b.waiting sh a.side.opposite) leavesQty = ⟨[], leavesQty, b.waiting sh a.side.opposite⟩ := by
  rcases hdone with hzero | htop | ⟨lvl, itr, htop, hfirst, hlimit⟩
  · rw [hzero, Aggressor.walk_zero]
  · have hempty : b.waiting sh a.side.opposite = [] := by
      have hhead := (h.side _ hs.opposite).top.symm.trans htop
      rw [List.head?_eq_none_iff, List.map_eq_nil_iff] at hhead
      rw [waiting, Shape.queue, hhead]
      rfl
    rw [hempty]
    rfl
  · obtain ⟨os, ls, hside⟩ := side_of_top h hs.opposite htop hfirst
    have hwaiting : b.waiting sh a.side.opposite = (b.book.order itr).unlinked ::
        (os ++ ls.flatMap LevelShape.orders).map fun q => (b.book.order q).unlinked := by
      rw [waiting, queue_of_side hside, List.map_cons]
    rw [hwaiting]
    exact Aggressor.walk_missed hlimit

end Round

/-- What waits is met best price first. -/
lemma waiting_sorted (h : b.book.WellFormed sh) (hs : s.Trading) :
    (b.waiting sh s).Pairwise fun x y => x.price = y.price ∨ addAfter s y.price x.price = true := by
  have hok := h.side s hs
  have hprice : ∀ l ∈ sh.side s, ∀ o ∈ l.orders, (b.book.order o).unlinked.price = (b.book.level l.ptr).price :=
    fun l hl o ho => (hok.level l hl).orderPrice o ho
  rw [waiting, List.pairwise_map, Shape.queue, List.pairwise_flatMap]
  constructor
  · intro l hl
    refine List.pairwise_of_forall_mem_list fun x hx y hy => .inl ?_
    rw [hprice l hl x hx, hprice l hl y hy]
  · have hsorted := List.pairwise_map.mp hok.sorted
    refine hsorted.imp_of_mem fun {l m} hl hm hlm x hx y hy => .inr ?_
    rw [hprice l hl x hx, hprice m hm y hy]
    exact hlm

/-- When the loop ends, nothing is wanted or nothing that waits is within the limit. -/
lemma MatchDone.exhausted {a : Aggressor} {leavesQty : Qty} (h : b.book.WellFormed sh) (hs : a.side.Trading)
    (hdone : MatchDone a b leavesQty) : leavesQty = 0 ∨
      ∀ order ∈ b.waiting sh a.side.opposite, limitMissed a.side a.price order.price = true := by
  by_cases hleaves : leavesQty = 0
  · exact .inl hleaves
  · right
    intro order horder
    obtain ⟨o, ho, rfl⟩ := List.mem_map.mp horder
    obtain ⟨l, hl, hol⟩ := List.mem_flatMap.mp ho
    have hprice : (b.book.order o).unlinked.price = (b.book.level l.ptr).price :=
      ((h.side _ hs.opposite).level l hl).orderPrice o hol
    rw [hprice]
    exact hdone.cleared hs h hleaves l hl

/-- The rounds made so far, and the walk that is still ahead. -/
structure Walking (a : Aggressor) (b : MEOrderBook) (sh : Shape) (qty : Qty) (b' : MEOrderBook)
    (leavesQty : Qty) (fills : List Fill) : Prop where
  ahead : ∃ gone, Consumed a.side.opposite b sh gone b' ∧
    let w := a.walk (b'.waiting (sh.keep fun q => q ∉ gone) a.side.opposite) leavesQty
    a.walk (b.waiting sh a.side.opposite) qty = ⟨fills ++ w.fills, w.leavesQty, w.rest⟩

/-- On a well-formed book `checkForMatch` returns, with the fills and the remainder of the walk over
the orders that wait on the other side, and leaves of that side what the walk leaves. Nothing else
of the book changes, and a remainder has no order within its limit left. -/
theorem checkForMatch_executes (h : b.book.WellFormed sh) (a : Aggressor) (hs : a.side.Trading) (qty : Qty) :
    let w := a.walk (b.waiting sh a.side.opposite) qty
    (b.waiting sh a.side.opposite).Pairwise
      (fun x y => x.price = y.price ∨ addAfter a.side.opposite y.price x.price = true) ∧
    ∃ b' gone, b.checkForMatch a.tickerId a.clientId a.side a.price a.clientOrderId a.newMarketOrderId qty =
        .ok (b', w.leavesQty, w.fills.flatMap Fill.events) ∧
      Consumed a.side.opposite b sh gone b' ∧
      b'.waiting (sh.keep fun q => q ∉ gone) a.side.opposite = w.rest ∧
      (w.leavesQty = 0 ∨ ∀ order ∈ w.rest, limitMissed a.side a.price order.price = true) := by
  intro w
  obtain ⟨⟨b', leavesQty, es⟩, hrun⟩ := checkForMatch_returns a hs h qty
  have hinit : Walking a b sh qty b qty [] := by
    refine ⟨[], Consumed.refl h, ?_⟩
    rw [keep_nil h]
    rfl
  have hround : ∀ c leavesQty fills itr c' leavesQty', Walking a b sh qty c leavesQty fills →
      MatchStep a c leavesQty itr c' leavesQty' →
      Walking a b sh qty c' leavesQty' (fills ++ [a.fill (c.book.order itr) leavesQty]) := by
    intro c leavesQty fills itr c' leavesQty' hwalking hstep
    obtain ⟨gone, hconsumed, hahead⟩ := hwalking.ahead
    obtain ⟨gone', hconsumed', hwalk⟩ := hstep.walk hconsumed.wellFormed hs
    refine ⟨gone ++ gone', hconsumed.trans h hs.opposite hconsumed', ?_⟩
    rw [keep_append] at hwalk
    rw [hahead, hwalk]
    simp only [Walk.after, List.append_assoc, List.singleton_append]
  obtain ⟨fills, rfl, hwalking, hdone⟩ := checkForMatch_rule a (fun _ => hround) hinit hrun
  obtain ⟨gone, hconsumed, hahead⟩ := hwalking.ahead
  have hw : w = ⟨fills, leavesQty, b'.waiting (sh.keep fun q => q ∉ gone) a.side.opposite⟩ := by
    apply hahead.trans
    rw [(hdone hs).walk hconsumed.wellFormed hs]
    dsimp only
    rw [List.append_nil]
  refine ⟨waiting_sorted h hs.opposite, b', gone, ?_, hconsumed, ?_, ?_⟩
  · rw [hrun, hw]
  · rw [hw]
  · rw [hw]
    exact (hdone hs).exhausted hconsumed.wellFormed hs

end MEOrderBook

/-- A buy of client 3 at 100. -/
def buyer : Aggressor := ⟨0, 3, .buy, 100, 9, 50⟩

/-- What a buy of 2 sends over the queue of two sells: the first runs out, the second is left with 1. -/
def buyerMessages : List Event :=
  [.response ⟨.filled, 3, 0, 9, 50, .buy, 100, 1, 1⟩, .response ⟨.filled, 1, 0, 1, 1, .sell, 100, 1, 0⟩,
    .update ⟨.trade, OrderId_INVALID, 0, .buy, 100, 1, Priority_INVALID⟩,
    .update ⟨.cancel, 1, 0, .sell, 100, 1, Priority_INVALID⟩,
    .response ⟨.filled, 3, 0, 9, 50, .buy, 100, 1, 0⟩, .response ⟨.filled, 2, 0, 1, 2, .sell, 100, 1, 1⟩,
    .update ⟨.trade, OrderId_INVALID, 0, .buy, 100, 1, Priority_INVALID⟩,
    .update ⟨.modify, 2, 0, .sell, 100, 1, 2⟩]

lemma buyer_run : ∃ b, LadderRun 0 queuedLog b ∧
    ∃ b', b.checkForMatch 0 3 .buy 100 9 50 2 = .ok (b', 0, buyerMessages) := by
  refine ⟨_, .next (.next .start ⟨⟨?_, ?_⟩, ?_⟩ rfl) ⟨⟨?_, ?_⟩, ?_⟩ rfl, _, rfl⟩
  all_goals decide

theorem checkForMatch_executes_queued : ∃ b sh, LadderRun 0 queuedLog b ∧ b.book.WellFormed sh ∧
    (buyer.walk (b.waiting sh .sell) 2).leavesQty = 0 ∧
    (buyer.walk (b.waiting sh .sell) 2).fills.flatMap Fill.events = buyerMessages := by
  obtain ⟨b, hrun, b', hmatch⟩ := buyer_run
  obtain ⟨sh, hin⟩ := hrun.inStep
  obtain ⟨h, -, -⟩ := hin
  obtain ⟨-, b₁, gone, hexec, -⟩ := MEOrderBook.checkForMatch_executes h buyer (by decide) 2
  have hsame := (Prod.mk.inj (Except.ok.inj (hexec.symm.trans hmatch))).2
  exact ⟨b, sh, hrun, h, congrArg Prod.fst hsame, congrArg Prod.snd hsame⟩

end LowLatencyExchange
