import LowLatencyExchange.Exchange.QueueBook

/-!
# The order book refines its queues

Along any run whose calls the queues accept, `MEOrderBook` sends what the queues send, message by message,
and its ladders and order rings are the queues.
-/

namespace LowLatencyExchange
open PriceBook LoggedRun

namespace MEOrderBook
variable {b b₁ b' : MEOrderBook} {sh sh' : Shape} {s : Side} {gone : List Nat}

/-- The queues that a book holds. -/
def queueBook (b : MEOrderBook) (sh : Shape) : QueueBook :=
  ⟨b.nextMarketOrderId, b.waiting sh .buy, b.waiting sh .sell⟩

lemma queue_queueBook (b : MEOrderBook) (sh : Shape) {s : Side} (hs : s.Trading) :
    (b.queueBook sh).queue s = b.waiting sh s := by
  rcases hs with rfl | rfl
  · rfl
  · rfl

/-- The data of orders, without their links. -/
def seen (b : MEOrderBook) (os : List Nat) : List MEOrder := os.map fun o => (b.book.order o).unlinked

lemma waiting_eq (b : MEOrderBook) (sh : Shape) (s : Side) : b.waiting sh s = b.seen (sh.queue s) := rfl

lemma seen_congr {os : List Nat} (h : ∀ o ∈ os, (b'.book.order o).unlinked = (b.book.order o).unlinked) :
    b'.seen os = b.seen os := List.map_congr_left h

lemma mem_waiting {x : MEOrder} : x ∈ b.waiting sh s ↔ ∃ o ∈ sh.queue s, (b.book.order o).unlinked = x :=
  List.mem_map

lemma mem_orders_of_queue (hs : s.Trading) {o : Nat} (ho : o ∈ sh.queue s) : o ∈ sh.orders := by
  obtain ⟨l, hl, hol⟩ := List.mem_flatMap.mp ho
  exact Shape.mem_orders_of_side hs hl hol

lemma mem_queueBook {x : MEOrder} : x ∈ (b.queueBook sh).orders ↔ ∃ o ∈ sh.orders, (b.book.order o).unlinked = x := by
  rw [QueueBook.mem_orders]
  constructor
  · rintro ⟨t, ht, hx⟩
    rw [queue_queueBook b sh ht] at hx
    obtain ⟨o, ho, rfl⟩ := mem_waiting.mp hx
    exact ⟨o, mem_orders_of_queue ht ho, rfl⟩
  · rintro ⟨o, ho, rfl⟩
    obtain ⟨t, ht, l, hl, hol⟩ := Shape.mem_orders.mp ho
    refine ⟨t, ht, ?_⟩
    rw [queue_queueBook b sh ht]
    exact mem_waiting.mpr ⟨o, List.mem_flatMap.mpr ⟨l, hl, hol⟩, rfl⟩

/-- A level's price is the price of an order that waits there. -/
lemma exists_waiting_of_level (h : b.book.WellFormed sh) (hs : s.Trading) {l : LevelShape} (hl : l ∈ sh.side s) :
    ∃ x ∈ b.waiting sh s, x.price = (b.book.level l.ptr).price := by
  have hok := (h.side s hs).level l hl
  obtain ⟨o, ho⟩ := List.exists_mem_of_ne_nil _ hok.nonempty
  exact ⟨_, mem_waiting.mpr ⟨o, List.mem_flatMap.mpr ⟨l, hl, ho⟩, rfl⟩, hok.orderPrice o ho⟩

lemma exists_level_of_waiting (h : b.book.WellFormed sh) (hs : s.Trading) {x : MEOrder} (hx : x ∈ b.waiting sh s) :
    ∃ l ∈ sh.side s, (b.book.level l.ptr).price = x.price := by
  obtain ⟨o, ho, rfl⟩ := mem_waiting.mp hx
  obtain ⟨l, hl, hol⟩ := List.mem_flatMap.mp ho
  exact ⟨l, hl, (((h.side s hs).level l hl).orderPrice o hol).symm⟩

/-- What a walk does on one side leaves the other side as it was. -/
lemma Consumed.waiting_other (h : b.book.WellFormed sh) (hs : s.Trading) (hc : Consumed s b sh gone b') :
    b'.waiting (sh.keep fun q => q ∉ gone) s.opposite = b.waiting sh s.opposite := by
  have hqueue : (sh.keep fun q => q ∉ gone).queue s.opposite = sh.queue s.opposite := by
    rw [Shape.queue, hc.otherSide]
    rfl
  rw [waiting_eq, hqueue]
  apply seen_congr
  intro q hq
  apply hc.order
  intro hin
  exact (List.nodup_append.mp (h.side_orders_nodup hs)).2.2 q hin q hq rfl

/-- The queue of a side around one of its levels. -/
lemma waiting_split (h : b.book.WellFormed sh) (hs : s.Trading) {pre post : List LevelShape} {p : Nat} {os : List Nat}
    (hside : sh.side s = pre ++ ⟨p, os⟩ :: post) :
    b.waiting sh s = b.seen (pre.flatMap LevelShape.orders) ++ b.seen os ++ b.seen (post.flatMap LevelShape.orders) ∧
      (∀ x ∈ b.seen (pre.flatMap LevelShape.orders), addAfter s (b.book.level p).price x.price = true) ∧
      (∀ x ∈ b.seen os, x.price = (b.book.level p).price) ∧
      ∀ x ∈ b.seen (post.flatMap LevelShape.orders), addAfter s x.price (b.book.level p).price = true := by
  have hok := h.side s hs
  have hsorted := hok.sorted
  rw [hside, List.map_append, List.map_cons, List.pairwise_append, List.pairwise_cons] at hsorted
  obtain ⟨-, ⟨hbehind, -⟩, hahead⟩ := hsorted
  have hprice : ∀ l ∈ sh.side s, ∀ o ∈ l.orders, (b.book.order o).unlinked.price = (b.book.level l.ptr).price :=
    fun l hl => (hok.level l hl).orderPrice
  refine ⟨?_, fun x hx => ?_, fun x hx => ?_, fun x hx => ?_⟩
  · simp only [waiting_eq, Shape.queue, hside, List.flatMap_append, List.flatMap_cons, seen, List.map_append,
      List.append_assoc]
  · obtain ⟨o, ho, rfl⟩ := List.mem_map.mp hx
    obtain ⟨l, hl, hol⟩ := List.mem_flatMap.mp ho
    rw [hprice l (hside ▸ List.mem_append_left _ hl) o hol]
    exact hahead l.ptr (List.mem_map_of_mem hl) p List.mem_cons_self
  · obtain ⟨o, ho, rfl⟩ := List.mem_map.mp hx
    have hl : ⟨p, os⟩ ∈ sh.side s := hside ▸ List.mem_append_right pre List.mem_cons_self
    exact hprice _ hl o ho
  · obtain ⟨o, ho, rfl⟩ := List.mem_map.mp hx
    obtain ⟨l, hl, hol⟩ := List.mem_flatMap.mp ho
    rw [hprice l (hside ▸ List.mem_append_right _ (List.mem_cons_of_mem _ hl)) o hol]
    exact hbehind l.ptr (List.mem_map_of_mem hl)

lemma ne_of_addAfter {p q : Price} (h : addAfter s p q = true) : p ≠ q := by
  rintro rfl
  simp [addAfter] at h

lemma not_addAfter_of_addAfter {p q : Price} (h : addAfter s p q = true) : ¬addAfter s q p = true := by
  simp only [addAfter, Bool.or_eq_true, Bool.and_eq_true, decide_eq_true_eq] at h ⊢
  rcases h with ⟨rfl, hpq⟩ | ⟨rfl, hpq⟩
  · simp [Nat.le_of_lt hpq]
  · simp [Nat.le_of_lt hpq]

/-- The orders that wait at the price of a level are the level's. -/
lemma waiting_filter (h : b.book.WellFormed sh) (hs : s.Trading) {l : LevelShape} (hl : l ∈ sh.side s) :
    (b.waiting sh s).filter (fun x => x.price = (b.book.level l.ptr).price) = b.seen l.orders := by
  obtain ⟨pre, post, hside⟩ := List.append_of_mem hl
  obtain ⟨hwaiting, hbefore, horders, hafter⟩ := waiting_split h hs hside
  rw [hwaiting, List.filter_append, List.filter_append]
  rw [List.filter_eq_nil_iff.mpr, List.filter_eq_self.mpr, List.filter_eq_nil_iff.mpr, List.nil_append, List.append_nil]
  · intro x hx
    simpa using ne_of_addAfter (hafter x hx)
  · intro x hx
    exact decide_eq_true (horders x hx)
  · intro x hx
    simpa using (ne_of_addAfter (hbefore x hx)).symm

lemma waiting_filter_eq_nil (h : b.book.WellFormed sh) (hs : s.Trading) {price : Price}
    (hnone : ∀ l ∈ sh.side s, (b.book.level l.ptr).price ≠ price) :
    (b.waiting sh s).filter (fun x => x.price = price) = [] := by
  apply List.filter_eq_nil_iff.mpr
  intro x hx
  obtain ⟨l, hl, hprice⟩ := exists_level_of_waiting h hs hx
  rw [← hprice]
  simpa using hnone l hl

/-- A newcomer's priority is the next one at its price. -/
lemma getNextPriority_eq (h : b.book.WellFormed sh) (hs : s.Trading) {price : Price}
    (hprice : ∀ l ∈ sh.levels, priceToIndex (b.book.level l.ptr).price = priceToIndex price →
      (b.book.level l.ptr).price = price ∧ l ∈ sh.side s) {priority : Priority}
    (hrun : b.getNextPriority price = .ok priority) : priority = QueueBook.nextPriority (b.waiting sh s) price := by
  unfold getNextPriority at hrun
  unfold QueueBook.nextPriority
  cases hget : b.book.getOrdersAtPrice price with
  | none =>
    rw [hget] at hrun
    obtain rfl : 1 = priority := Except.ok.inj hrun
    rw [waiting_filter_eq_nil h hs]
    · rfl
    · intro l hl hsame
      have hlevel := h.getOrdersAtPrice_level (Shape.mem_levelPtrs_of_side hs hl)
      rw [hsame, hget] at hlevel
      cases hlevel
  | some p =>
    rw [hget] at hrun
    obtain ⟨first, hfirst, hrun⟩ := bind_eq_ok hrun
    obtain ⟨last, hlast, hrun⟩ := bind_eq_ok hrun
    obtain rfl : wrap64 ((b.book.order last).priority + 1) = priority := Except.ok.inj hrun
    obtain ⟨hp, hindex⟩ := (h.prices _ p).mp hget
    obtain ⟨l, hl, rfl⟩ := List.mem_map.mp hp
    obtain ⟨hlevel, hside⟩ := hprice l hl hindex
    have hok := (h.side s hs).level l hside
    obtain ⟨x, os, hx⟩ := List.exists_cons_of_ne_nil hok.nonempty
    obtain ⟨m, y, hy⟩ := (List.eq_nil_or_concat l.orders).resolve_left hok.nonempty
    rw [List.concat_eq_append] at hy
    obtain rfl : x = first := by
      have hhead := hok.first.symm.trans (deref_eq_ok hfirst)
      rw [hx] at hhead
      exact Option.some.inj hhead
    obtain rfl : y = last := by
      have hring := hok.ring
      rw [hx] at hring
      have hjoined := hring.joined_last (hx.symm.trans hy)
      exact Option.some.inj (hjoined.2.symm.trans (deref_eq_ok hlast))
    have hfilter := waiting_filter h hs hside
    rw [hlevel] at hfilter
    rw [hfilter, hy, seen, List.map_append, List.map_singleton, List.getLast?_concat]
    rfl

section Rest
variable {a : Aggressor} {marketOrderId : OrderId} {leavesQty : Qty} {priority : Priority} {o : Nat}

/-- The remainder of an aggressor takes its place in the queue of its side, and the other queue stays. -/
lemma RestSpot.waiting (h : b.book.WellFormed sh) (hs : a.side.Trading) (hspot : RestSpot b sh a o sh')
    (hframe : RestFrame a b marketOrderId leavesQty priority o b') :
    b'.waiting sh' a.side =
        QueueBook.place a.side (a.resting marketOrderId leavesQty priority) (b.waiting sh a.side) ∧
      b'.waiting sh' a.side.opposite = b.waiting sh a.side.opposite := by
  have hsame : ∀ q ∈ sh.orders, (b'.book.order q).unlinked = (b.book.order q).unlinked := by
    intro q hq
    apply hframe.order
    rintro rfl
    exact hframe.wasFree ((h.orderUsed q).mpr hq)
  have hseen : ∀ os, (∀ q ∈ os, q ∈ sh.orders) → b'.seen os = b.seen os := fun os hos =>
    seen_congr fun q hq => hsame q (hos q hq)
  have hnew : b'.seen [o] = [a.resting marketOrderId leavesQty priority] := congrArg (· :: []) hframe.placed
  have hopposite : ∀ ls, b'.waiting (sh.setSide a.side ls) a.side.opposite = b.waiting sh a.side.opposite := by
    intro ls
    rw [waiting_eq, Shape.queue, Shape.side_setSide_of_ne hs hs.opposite hs.opposite_ne]
    exact hseen _ fun q hq => mem_orders_of_queue hs.opposite hq
  rcases hspot with ⟨pre, p, os, post, hside, hprice, rfl⟩ | ⟨n, hworse, rfl⟩
  · obtain ⟨hwaiting, hbefore, horders, hafter⟩ := waiting_split h hs hside
    rw [hprice] at hbefore horders hafter
    have hqueue : sh.queue a.side = pre.flatMap LevelShape.orders ++ os ++ post.flatMap LevelShape.orders := by
      rw [Shape.queue, hside, List.flatMap_append, List.flatMap_cons, List.append_assoc]
    have hown : ∀ q ∈ pre.flatMap LevelShape.orders ++ os ++ post.flatMap LevelShape.orders, q ∈ sh.orders :=
      fun q hq => mem_orders_of_queue hs (hqueue ▸ hq)
    refine ⟨?_, hopposite _⟩
    have hplaced : b'.waiting (sh.setSide a.side (pre ++ ⟨p, os ++ [o]⟩ :: post)) a.side =
        b'.seen (pre.flatMap LevelShape.orders ++ os) ++ b'.seen [o] ++ b'.seen (post.flatMap LevelShape.orders) := by
      simp only [waiting_eq, Shape.queue, Shape.side_setSide_self, List.flatMap_append, List.flatMap_cons, seen,
        List.map_append, List.append_assoc]
    rw [hplaced, hnew, hseen _ fun q hq => hown q (List.mem_append_left _ hq),
      hseen _ fun q hq => hown q (List.mem_append_right _ hq), hwaiting, List.append_assoc, List.singleton_append]
    rw [seen, List.map_append]
    refine (QueueBook.place_append (fun x hx => ?_) fun x hx => ?_).symm
    · rcases List.mem_append.mp hx with hx | hx
      · exact not_addAfter_of_addAfter (hbefore x hx)
      · rw [horders x hx]
        exact fun hself => ne_of_addAfter hself rfl
    · exact hafter x hx
  · refine ⟨?_, hopposite _⟩
    have hplaced : b'.waiting (sh.setSide a.side (sh.side a.side ++ [⟨n, [o]⟩])) a.side =
        b'.seen (sh.queue a.side) ++ b'.seen [o] := by
      simp only [waiting_eq, Shape.queue, Shape.side_setSide_self, List.flatMap_append, List.flatMap_singleton, seen,
        List.map_append]
    rw [hplaced, hnew, hseen _ fun q hq => mem_orders_of_queue hs hq]
    have hbetter : ∀ x ∈ b.waiting sh a.side, ¬addAfter a.side x.price a.price = true := by
      intro x hx
      obtain ⟨l, hl, hlevel⟩ := exists_level_of_waiting h hs hx
      apply not_addAfter_of_addAfter
      rw [← hlevel]
      exact hworse l hl
    have hlast : QueueBook.place a.side (a.resting marketOrderId leavesQty priority) (b.waiting sh a.side ++ []) =
        b.waiting sh a.side ++ [a.resting marketOrderId leavesQty priority] :=
      QueueBook.place_append hbetter fun x hx => by cases hx
    rw [List.append_nil] at hlast
    exact hlast.symm

end Rest

/-- What `checkForMatch` does to the queues is the walk. -/
lemma checkForMatch_walks (h : b.book.WellFormed sh) (a : Aggressor) (hs : a.side.Trading) {qty leavesQty : Qty}
    {es : List Event} (hrun : b.checkForMatch a.tickerId a.clientId a.side a.price a.clientOrderId a.newMarketOrderId
      qty = .ok (b', leavesQty, es)) : ∃ fills gone, es = fills.flatMap Fill.events ∧
      Consumed a.side.opposite b sh gone b' ∧
      a.walk (b.waiting sh a.side.opposite) qty =
        ⟨fills, leavesQty, b'.waiting (sh.keep fun q => q ∉ gone) a.side.opposite⟩ ∧
      (leavesQty = 0 ∨ ∀ x ∈ b'.waiting (sh.keep fun q => q ∉ gone) a.side.opposite,
        limitMissed a.side a.price x.price = true) := by
  have hinit : Walking a b sh qty b qty [] := by
    refine ⟨[], Consumed.refl h, ?_⟩
    rw [keep_nil h]
    rfl
  have hround : ∀ c leavesQty fills itr c' leavesQty', Walking a b sh qty c leavesQty fills →
      MatchStep a c leavesQty itr c' leavesQty' →
      Walking a b sh qty c' leavesQty' (fills ++ [a.fill (c.book.order itr) leavesQty]) := by
    intro c leavesQty fills itr c' leavesQty' hwalking hstep
    obtain ⟨gone, hconsumed, hahead⟩ := hwalking.ahead
    obtain ⟨gone', hconsumed', hwalk⟩ := hstep.walk hconsumed.wellFormed hs
    refine ⟨gone ++ gone', hconsumed.trans h hs.opposite hconsumed', ?_⟩
    rw [keep_append] at hwalk
    rw [hahead, hwalk]
    simp only [Walk.after, List.append_assoc, List.singleton_append]
  obtain ⟨fills, hes, hwalking, hdone⟩ := checkForMatch_rule a (fun _ => hround) hinit hrun
  obtain ⟨gone, hconsumed, hahead⟩ := hwalking.ahead
  refine ⟨fills, gone, hes, hconsumed, ?_, (hdone hs).exhausted hconsumed.wellFormed hs⟩
  rw [(hdone hs).walk hconsumed.wellFormed hs] at hahead
  rw [hahead, List.append_nil]

/-- No order of the book has a key that none of its queues has. -/
lemma keyFree_of_queueBook (h : b.book.WellFormed sh) {key : ClientId × OrderId}
    (hfresh : ∀ x ∈ (b.queueBook sh).orders, OrderKey.key x.ids ≠ key) : b.book.orderTable key = none := by
  cases hkey : b.book.orderTable key with
  | none => rfl
  | some o =>
    obtain ⟨ho, hids⟩ := (h.keys key o).mp hkey
    have hne := hfresh (b.book.order o).unlinked (mem_queueBook.mpr ⟨o, ho, rfl⟩)
    exact absurd hids hne

lemma opposite_opposite (hs : s.Trading) : s.opposite.opposite = s := by
  rcases hs with rfl | rfl
  · rfl
  · rfl

/-- What a walk leaves of a side is the queue that the heap holds then. -/
lemma Consumed.queueBook (h : b.book.WellFormed sh) (hs : s.Trading) (hc : Consumed s b sh gone b') :
    (b.queueBook sh).setQueue s (b'.waiting (sh.keep fun q => q ∉ gone) s) = b'.queueBook (sh.keep fun q => q ∉ gone) := by
  apply QueueBook.ext_queue
  · rw [QueueBook.nextMarketOrderId_setQueue]
    exact hc.nextMarketOrderId.symm
  · intro t ht
    rw [queue_queueBook b' _ ht]
    rcases hs.eq_or_opposite ht with he | he
    · rw [he, QueueBook.queue_setQueue_self]
    · rw [he, QueueBook.queue_setQueue_of_ne hs hs.opposite hs.opposite_ne, queue_queueBook b sh hs.opposite,
        hc.waiting_other h hs]

/-- A remainder that finds its slot and its place goes to its place in the queue of its side. -/
lemma Rests.queueBook {a : Aggressor} {marketOrderId : OrderId} {leavesQty : Qty} {priority : Priority} {o : Nat}
    (h : b.book.WellFormed sh) (hs : a.side.Trading)
    (hin : OrderKey.inTable MEOrderIds (a.clientId, a.clientOrderId) = true)
    (hfree : b.book.orderTable (a.clientId, a.clientOrderId) = none)
    (hslots : ∀ x ∈ b.waiting sh a.side.opposite ++ b.waiting sh a.side,
      priceToIndex x.price = priceToIndex a.price → x.price = a.price)
    (hbeyond : ∀ x ∈ b.waiting sh a.side.opposite, limitMissed a.side a.price x.price = true)
    (hjoins : (∃ x ∈ b.waiting sh a.side, x.price = a.price) ∨
      ∀ x ∈ b.waiting sh a.side, addAfter a.side a.price x.price = true)
    (hrest : Rests a b marketOrderId leavesQty priority o b') :
    priority = QueueBook.nextPriority (b.waiting sh a.side) a.price ∧ ∃ sh', b'.book.WellFormed sh' ∧
      (b.queueBook sh).setQueue a.side
        (QueueBook.place a.side (a.resting marketOrderId leavesQty priority) (b.waiting sh a.side)) = b'.queueBook sh' := by
  have hprice : ∀ l ∈ sh.levels, priceToIndex (b.book.level l.ptr).price = priceToIndex a.price →
      (b.book.level l.ptr).price = a.price ∧ l ∈ sh.side a.side := by
    intro l hl hslot
    obtain ⟨t, ht, hside⟩ := Shape.mem_levels.mp hl
    obtain ⟨x, hx, hlevel⟩ := exists_waiting_of_level h ht hside
    rw [← hlevel] at hslot ⊢
    rcases hs.eq_or_opposite ht with rfl | rfl
    · exact ⟨hslots x (List.mem_append_right _ hx) hslot, hside⟩
    · -- what is left of the other side is beyond the limit, so it is not at the price
      have hsame := hslots x (List.mem_append_left _ hx) hslot
      have hmissed := hbeyond x hx
      rw [hsame, limitMissed_self] at hmissed
      cases hmissed
  have hworst : (∃ l ∈ sh.side a.side, (b.book.level l.ptr).price = a.price) ∨
      ∀ l ∈ sh.side a.side, addAfter a.side a.price (b.book.level l.ptr).price := by
    rcases hjoins with ⟨x, hx, hsame⟩ | hworse
    · obtain ⟨l, hl, hlevel⟩ := exists_level_of_waiting h hs hx
      exact .inl ⟨l, hl, hlevel.trans hsame⟩
    · right
      intro l hl
      obtain ⟨x, hx, hlevel⟩ := exists_waiting_of_level h hs hl
      exact hlevel ▸ hworse x hx
  refine ⟨getNextPriority_eq h hs hprice hrest.next, ?_⟩
  obtain ⟨sh', hspot, hwf⟩ := hrest.wellFormed h hs hin hfree hprice hworst
  obtain ⟨hown, hother⟩ := hspot.waiting h hs hrest.frame
  refine ⟨sh', hwf, ?_⟩
  apply QueueBook.ext_queue
  · rw [QueueBook.nextMarketOrderId_setQueue]
    exact hrest.frame.nextMarketOrderId.symm
  · intro t ht
    rw [queue_queueBook b' _ ht]
    rcases hs.eq_or_opposite ht with he | he
    · rw [he, QueueBook.queue_setQueue_self, hown]
    · rw [he, QueueBook.queue_setQueue_of_ne hs hs.opposite hs.opposite_ne, queue_queueBook b sh hs.opposite, hother]

/-- A removal takes the order with its key out of the queue it waits in. -/
lemma TakenOut.waiting {o : Nat} (h : b.book.WellFormed sh) (hs : s.Trading) (ho : o ∈ sh.orders)
    (hout : TakenOut b sh o b') : b'.waiting (sh.keep fun q => q ≠ o) s =
      (b.waiting sh s).filter fun x => OrderKey.key x.ids ≠ OrderKey.key (b.book.order o).ids := by
  have hkept : (sh.queue s).filter (fun q => q ≠ o) =
      (sh.queue s).filter fun q => OrderKey.key (b.book.order q).ids ≠ OrderKey.key (b.book.order o).ids := by
    apply List.filter_congr
    intro q hq
    rw [decide_eq_decide]
    apply not_congr
    constructor
    · rintro rfl
      rfl
    · intro hsame
      have hkey := (h.keys _ q).mpr ⟨mem_orders_of_queue hs hq, hsame⟩
      exact Option.some.inj (hkey.symm.trans ((h.keys _ o).mpr ⟨ho, rfl⟩))
  rw [waiting_eq, Shape.queue_keep, hkept, seen_congr fun q _ => hout.order q, waiting_eq, seen, seen, List.filter_map]
  rfl

lemma TakenOut.queueBook {o : Nat} {key : ClientId × OrderId} (h : b.book.WellFormed sh) (ho : o ∈ sh.orders)
    (hout : TakenOut b sh o b') (hids : OrderKey.key (b.book.order o).ids = key) :
    b'.queueBook (sh.keep fun q => q ≠ o) = { b.queueBook sh with
      bids := (b.queueBook sh).bids.filter fun x => OrderKey.key x.ids ≠ key
      asks := (b.queueBook sh).asks.filter fun x => OrderKey.key x.ids ≠ key } := by
  unfold MEOrderBook.queueBook
  rw [hout.waiting h (.inl rfl) ho, hout.waiting h (.inr rfl) ho, hout.nextMarketOrderId, hids]

section Step
variable {clientId : ClientId} {clientOrderId orderId : OrderId} {tickerId : TickerId} {side : Side} {price : Price}
  {qty : Qty} {es : List Event}

/-- An accepted `add` does to the heap what it does to the queues. -/
theorem add_queueBook (h : b.book.WellFormed sh)
    (haccepts : (b.queueBook sh).Accepts (.add clientId clientOrderId tickerId side price qty))
    (hrun : b.add clientId clientOrderId tickerId side price qty = .ok (b', es)) :
    ∃ sh', b'.book.WellFormed sh' ∧
      (b.queueBook sh).add clientId clientOrderId tickerId side price qty = (b'.queueBook sh', es) := by
  let a := addAggressor clientId clientOrderId tickerId side price qty
  obtain ⟨hs, hin, hfresh, hrests⟩ := haccepts
  have ha : a.side.Trading := hs
  have hdrawn : b.drawn.book.WellFormed sh := h
  obtain ⟨b₁, leavesQty, matches', hmatch, hcases⟩ := add_cases hrun
  obtain ⟨fills, gone, rfl, hconsumed, hwalk, hexhausted⟩ := checkForMatch_walks hdrawn a ha hmatch
  have hwf := hconsumed.wellFormed
  have hmatched := hconsumed.queueBook hdrawn ha.opposite
  have hwalks : (b.queueBook sh).walk a =
      ⟨fills, leavesQty, b₁.waiting (sh.keep fun q => q ∉ gone) a.side.opposite⟩ := by
    unfold QueueBook.walk
    rw [queue_queueBook b sh ha.opposite]
    exact hwalk
  have hqueue : (b.queueBook sh).queue side = b₁.waiting (sh.keep fun q => q ∉ gone) a.side := by
    have hother := hconsumed.waiting_other hdrawn ha.opposite
    rw [opposite_opposite ha] at hother
    exact (queue_queueBook b sh hs).trans hother.symm
  rw [show QueueBook.walk _ (addAggressor _ _ _ _ _ _) = _ from hwalks, hqueue] at hrests
  unfold QueueBook.add
  dsimp only
  rw [show QueueBook.walk _ (addAggressor _ _ _ _ _ _) = _ from hwalks, hqueue]
  dsimp only
  rcases hcases with ⟨hzero, rfl, rfl⟩ | ⟨hleaves, priority, o, hrest, rfl⟩
  · refine ⟨_, hwf, ?_⟩
    rw [if_pos hzero]
    exact congrArg (·, _) hmatched
  · obtain ⟨hslots, hjoins⟩ := hrests hleaves
    have hfree := (checkForMatch_keeps a ha hdrawn hmatch (clientId, clientOrderId)).keyFree
      (keyFree_of_queueBook h hfresh)
    obtain ⟨rfl, sh', hwf', hplaced⟩ :=
      hrest.queueBook hwf ha hin hfree hslots (hexhausted.resolve_left hleaves) hjoins
    refine ⟨sh', hwf', ?_⟩
    rw [if_neg hleaves, ← hplaced, ← hmatched]
    rfl

/-- A cancel takes out of the queues what it takes out of the heap. -/
theorem cancel_queueBook (h : b.book.WellFormed sh) (horder : orderId < ME_MAX_ORDER_IDS)
    (hrun : b.cancel clientId orderId tickerId = .ok (b', es)) :
    ∃ sh', b'.book.WellFormed sh' ∧ (b.queueBook sh).cancel clientId orderId tickerId = (b'.queueBook sh', es) := by
  rcases cancel_cases hrun with ⟨hlookup, rfl, rfl⟩ | ⟨o, book, hkey, hremove, rfl, rfl⟩
  · refine ⟨sh, h, ?_⟩
    have hnone : ∀ x ∈ (b'.queueBook sh).orders, ¬decide (OrderKey.key x.ids = (clientId, orderId)) = true := by
      intro x hx hsame
      obtain ⟨o, ho, rfl⟩ := mem_queueBook.mp hx
      have hids : OrderKey.key (b'.book.order o).ids = (clientId, orderId) := of_decide_eq_true hsame
      have hin := h.inTable o ho
      rw [hids] at hin
      simp only [OrderKey.inTable, Bool.and_eq_true, decide_eq_true_eq] at hin
      have hfound := (lookupOrder_iff h horder).mpr
        ⟨hin.1, ho, congrArg Prod.fst hids, congrArg Prod.snd hids⟩
      rw [hlookup] at hfound
      cases hfound
    unfold QueueBook.cancel
    rw [List.find?_eq_none.mpr hnone]
  · obtain ⟨ho, hids⟩ := (h.keys _ o).mp hkey
    obtain ⟨book', hremove', hout⟩ := takenOut_of_removeOrder h ho
    obtain rfl : book' = book := Except.ok.inj (hremove'.symm.trans hremove)
    refine ⟨_, hout.wellFormed, ?_⟩
    have hmem : (b.book.order o).unlinked ∈ (b.queueBook sh).orders := mem_queueBook.mpr ⟨o, ho, rfl⟩
    unfold QueueBook.cancel
    cases hfind : (b.queueBook sh).orders.find? fun x => OrderKey.key x.ids = (clientId, orderId) with
    | none =>
      have hmissed := List.find?_eq_none.mp hfind (b.book.order o).unlinked hmem
      exact absurd (decide_eq_true hids) hmissed
    | some x =>
      have hfound := List.find?_some hfind
      obtain ⟨q, hq, rfl⟩ := mem_queueBook.mp (List.mem_of_find?_eq_some hfind)
      have hsame : OrderKey.key (b.book.order q).ids = (clientId, orderId) := of_decide_eq_true hfound
      obtain rfl : q = o := Option.some.inj (((h.keys _ q).mpr ⟨hq, hsame⟩).symm.trans hkey)
      rw [hout.queueBook h ho hids]
      rfl

end Step

/-- The queues that some shape of a well-formed book holds. -/
def Holds (b : MEOrderBook) (q : QueueBook) : Prop := ∃ sh, b.book.WellFormed sh ∧ b.queueBook sh = q

lemma Holds.call {q : QueueBook} {call : BookCall} {es : List Event} (h : b.Holds q) (haccepts : q.Accepts call)
    (hrun : b.call call = .ok (b', es)) : (q.call call).2 = es ∧ b'.Holds (q.call call).1 := by
  obtain ⟨sh, hwf, rfl⟩ := h
  cases call with
  | add clientId clientOrderId tickerId side price qty =>
    obtain ⟨sh', hwf', hqueues⟩ := add_queueBook hwf haccepts hrun
    have hcall : (b.queueBook sh).call (.add clientId clientOrderId tickerId side price qty) = (b'.queueBook sh', es) :=
      hqueues
    rw [hcall]
    exact ⟨rfl, sh', hwf', rfl⟩
  | cancel clientId orderId tickerId =>
    obtain ⟨sh', hwf', hqueues⟩ := cancel_queueBook hwf haccepts hrun
    have hcall : (b.queueBook sh).call (.cancel clientId orderId tickerId) = (b'.queueBook sh', es) := hqueues
    rw [hcall]
    exact ⟨rfl, sh', hwf', rfl⟩

lemma Holds.returns {q : QueueBook} {call : BookCall} (h : b.Holds q) (haccepts : q.Accepts call) :
    (∃ r, b.call call = .ok r) ∨ b.call call = .error MemPool.outOfSpace := by
  obtain ⟨sh, hwf, rfl⟩ := h
  cases call with
  | add clientId clientOrderId tickerId side price qty =>
    obtain ⟨hs, hin, -⟩ := haccepts
    exact (add_returns hwf tickerId hs hin price qty).imp id And.left
  | cancel clientId orderId tickerId =>
    obtain ⟨b', es, hrun⟩ := cancel_returns hwf clientId tickerId haccepts
    exact .inl ⟨_, hrun⟩

lemma Holds.nextMarketOrderId {q : QueueBook} (h : b.Holds q) : q.nextMarketOrderId = b.nextMarketOrderId := by
  obtain ⟨sh, -, rfl⟩ := h
  rfl

lemma holds_create (tickerId : TickerId) : (create tickerId).Holds QueueBook.create :=
  ⟨_, wellFormed_create tickerId, rfl⟩

end MEOrderBook

open MEOrderBook

/-- The runs of a fresh book whose calls the queues accept. -/
def QueueRun (tickerId : TickerId) : List (BookCall × List Event) → MEOrderBook → Prop :=
  Reached MEOrderBook.call (fun past _ call _ => (QueueBook.after (past.map Prod.fst)).1.Accepts call)
    (MEOrderBook.create tickerId)

lemma QueueRun.refines {tickerId : TickerId} {log : List (BookCall × List Event)} {b : MEOrderBook}
    (h : QueueRun tickerId log b) : (QueueBook.after (log.map Prod.fst)).2 = sent log ∧
      b.Holds (QueueBook.after (log.map Prod.fst)).1 :=
  Reached.refines (f := QueueBook.call) (holds_create tickerId)
    (fun _ _ _ _ _ hb haccepts hrun => hb.call haccepts hrun) h

/-- Along a run whose calls the queues accept, the book sends what the queues send, and its ladders and rings are the
queues. The next accepted call returns, unless a pool is exhausted. -/
theorem refines_queueBook {tickerId : TickerId} {log : List (BookCall × List Event)} {b : MEOrderBook}
    (h : QueueRun tickerId log b) :
    (QueueBook.after (log.map Prod.fst)).2 = sent log ∧ b.Holds (QueueBook.after (log.map Prod.fst)).1 ∧
      ∀ call, (QueueBook.after (log.map Prod.fst)).1.Accepts call →
        (∃ r, b.call call = .ok r) ∨ b.call call = .error MemPool.outOfSpace := by
  obtain ⟨hsent, hholds⟩ := h.refines
  exact ⟨hsent, hholds, fun call haccepts => hholds.returns haccepts⟩

lemma crossingLog_queueRun : ∃ b, QueueRun 0 crossingLog b := by
  refine ⟨_, .next (.next .start ?_ rfl) ?_ rfl⟩
  all_goals decide

/-- The sell is gone, and what is left of the buy waits. -/
theorem refines_queueBook_crossing : ∃ b, QueueRun 0 crossingLog b ∧
    b.Holds ⟨3, [⟨⟨0, 2, 1, 2⟩, .buy, 101, 1, 1, none, none⟩], []⟩ := by
  obtain ⟨b, hrun⟩ := crossingLog_queueRun
  obtain ⟨-, hholds, -⟩ := refines_queueBook hrun
  exact ⟨b, hrun, hholds⟩

end LowLatencyExchange
