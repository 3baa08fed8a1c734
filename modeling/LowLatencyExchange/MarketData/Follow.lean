import LowLatencyExchange.Exchange.Ladder
import LowLatencyExchange.MarketData.SnapshotSynthesizer

/-!
# The synthesizer follows the matching engine

The updates a call on a book sends lead from the map of the orders that rest before the call
to the map of those that rest after it. The matching loop changes the map one fill at a time,
and a remainder adds one entry at the end.
-/

namespace LowLatencyExchange
open PriceBook MEOrderBook

/-- An entry of the map describes an order of the book. -/
def Describes (x : MEMarketUpdate) (order : MEOrder) : Prop :=
  x.side = order.side ∧ x.price = order.price ∧ x.qty = order.qty ∧ x.priority = order.priority

lemma Describes.congr {x : MEMarketUpdate} {order order' : MEOrder} (h : Describes x order)
    (he : order'.unlinked = order.unlinked) : Describes x order' := by
  obtain ⟨-, hside, hprice, hqty, hpriority⟩ := BookOrder.unlinked_eq_iff.mp he
  unfold Describes
  rw [hside, hprice, hqty, hpriority]
  exact h

/-- The map holds, for ticker `t`, exactly the resting orders of the book under their market
order ids. Orders rest in the blocks in use. -/
structure Mirrors (t : TickerId) (b : MEOrderBook) (m : OrderMap) : Prop where
  held : ∀ i x, m t i = some x → ∃ o, b.book.orderPool.Used o ∧ (b.book.order o).ids.marketOrderId = i
  resting : ∀ o, b.book.orderPool.Used o →
    ∃ x, m t (b.book.order o).ids.marketOrderId = some x ∧ Describes x (b.book.order o)

section Steps
variable {t : TickerId} {b b' : MEOrderBook} {m : OrderMap} {o : Nat} {next : OrderId}

/-- An order leaves the book, and its `CANCEL` leaves the map. -/
lemma Mirrors.cancel (h : Mirrors t b m) (hids : IdsBelow next b)
    (horder : ∀ q, q ≠ o → (b'.book.order q).unlinked = (b.book.order q).unlinked)
    (ho : b.book.orderPool.Used o)
    (hused : ∀ q, b'.book.orderPool.Used q ↔ b.book.orderPool.Used q ∧ q ≠ o) :
    Mirrors t b' (m.set t (b.book.order o).ids.marketOrderId none) := by
  have hid : ∀ q, q ≠ o → (b'.book.order q).ids.marketOrderId = (b.book.order q).ids.marketOrderId :=
    fun q hq => congrArg MEOrderIds.marketOrderId (BookOrder.unlinked_eq_iff.mp (horder q hq)).1
  refine ⟨fun i x hx => ?_, fun q hq => ?_⟩
  · rw [OrderMap.set_apply] at hx
    split at hx
    · cases hx
    rename_i hne
    obtain ⟨q, hq, rfl⟩ := h.held i x hx
    have hqo : q ≠ o := by
      rintro rfl
      exact hne ⟨rfl, rfl⟩
    exact ⟨q, (hused q).mpr ⟨hq, hqo⟩, hid q hqo⟩
  · obtain ⟨hq, hqo⟩ := (hused q).mp hq
    obtain ⟨x, hx, hdescribes⟩ := h.resting q hq
    refine ⟨x, ?_, hdescribes.congr (horder q hqo)⟩
    rw [hid q hqo, OrderMap.set_apply, if_neg ?_]
    · exact hx
    · exact fun he => hqo (hids.distinct q o hq ho he.2)

/-- An order of the book shrinks, and its `MODIFY` changes its entry. -/
lemma Mirrors.modify (h : Mirrors t b m) (hids : IdsBelow next b) {qty : Qty}
    (horder : ∀ q, q ≠ o → (b'.book.order q).unlinked = (b.book.order q).unlinked)
    (ho : b.book.orderPool.Used o)
    (hfilled : (b'.book.order o).unlinked = { (b.book.order o).unlinked with qty := qty })
    (hused : ∀ q, b'.book.orderPool.Used q ↔ b.book.orderPool.Used q) :
    Mirrors t b' (m.set t (b.book.order o).ids.marketOrderId
      ((m t (b.book.order o).ids.marketOrderId).map
        fun x => { x with qty := qty, price := (b.book.order o).price })) := by
  obtain ⟨hidsO, hside, hprice, hqty, hpriority⟩ := BookOrder.unlinked_eq_iff.mp
    (show (b'.book.order o).unlinked = ({ b.book.order o with qty := qty } : MEOrder).unlinked
      from hfilled)
  have hid : ∀ q, (b'.book.order q).ids.marketOrderId = (b.book.order q).ids.marketOrderId := by
    intro q
    by_cases hq : q = o
    · rw [hq, hidsO]
    · rw [(BookOrder.unlinked_eq_iff.mp (horder q hq)).1]
  refine ⟨fun i x hx => ?_, fun q hq => ?_⟩
  · rw [OrderMap.set_apply] at hx
    split at hx
    · rename_i he
      exact ⟨o, (hused o).mpr ho, (hid o).trans he.2.symm⟩
    · obtain ⟨q, hq, rfl⟩ := h.held i x hx
      exact ⟨q, (hused q).mpr hq, hid q⟩
  · have hq' := (hused q).mp hq
    obtain ⟨x, hx, hdescribes⟩ := h.resting q hq'
    rw [hid q, OrderMap.set_apply]
    by_cases hqo : q = o
    · subst hqo
      refine ⟨{ x with qty := qty, price := (b.book.order q).price }, ?_, ?_⟩
      · simp [hx]
      · exact ⟨hdescribes.1.trans hside.symm, hprice.symm, hqty.symm, hdescribes.2.2.2.trans hpriority.symm⟩
    · refine ⟨x, ?_, hdescribes.congr (horder q hqo)⟩
      rw [if_neg fun he => hqo (hids.distinct q o hq' ho he.2)]
      exact hx

/-- A remainder rests in block `o`, and its `ADD` enters the map. -/
lemma Mirrors.add (h : Mirrors t b m) {a : Aggressor} {marketOrderId : OrderId} {leavesQty : Qty}
    {priority : Priority} (hf : RestFrame a b marketOrderId leavesQty priority o b') {u : MEMarketUpdate}
    (hu : Describes u (a.resting marketOrderId leavesQty priority))
    (hfree : m t marketOrderId = none) : Mirrors t b' (m.set t marketOrderId (some u)) := by
  have hplaced : (b'.book.order o).unlinked = (a.resting marketOrderId leavesQty priority).unlinked := hf.placed
  have hidO : (b'.book.order o).ids.marketOrderId = marketOrderId := by
    rw [(BookOrder.unlinked_eq_iff.mp hplaced).1]
    rfl
  have hother : ∀ q, b.book.orderPool.Used q → (b'.book.order q).unlinked = (b.book.order q).unlinked :=
    fun q hq => hf.order q fun he => hf.wasFree (he ▸ hq)
  have hid : ∀ q, b.book.orderPool.Used q →
      (b'.book.order q).ids.marketOrderId = (b.book.order q).ids.marketOrderId := fun q hq => by
    rw [(BookOrder.unlinked_eq_iff.mp (hother q hq)).1]
  refine ⟨fun i x hx => ?_, fun q hq => ?_⟩
  · rw [OrderMap.set_apply] at hx
    split at hx
    · rename_i he
      exact ⟨o, (hf.used o).mpr (.inl rfl), hidO.trans he.2.symm⟩
    · obtain ⟨q, hq, rfl⟩ := h.held i x hx
      exact ⟨q, (hf.used q).mpr (.inr hq), hid q hq⟩
  · rcases (hf.used q).mp hq with rfl | hq
    · refine ⟨u, ?_, hu.congr hplaced⟩
      rw [hidO, OrderMap.set_apply, if_pos ⟨rfl, rfl⟩]
    · obtain ⟨x, hx, hdescribes⟩ := h.resting q hq
      refine ⟨x, ?_, hdescribes.congr (hother q hq)⟩
      rw [hid q hq, OrderMap.set_apply, if_neg ?_]
      · exact hx
      · rintro ⟨-, he⟩
        rw [he, hfree] at hx
        cases hx

/-- The next id is free in the map. -/
lemma Mirrors.next_free (h : Mirrors t b m) (hids : IdsBelow next b) : m t next = none := by
  cases hm : m t next with
  | none => rfl
  | some x =>
    obtain ⟨o, ho, hid⟩ := h.held next x hm
    exact absurd hid (Nat.ne_of_lt (hids.below o ho))

end Steps

namespace MEOrderBook
variable {t : TickerId} {b b' : MEOrderBook} {sh : Shape} {m : OrderMap}

/-- What the matching loop keeps: the updates so far lead from the map before the call to the
map of the book. -/
structure Following (t : TickerId) (next : OrderId) (m : OrderMap) (b : MEOrderBook)
    (us : List MEMarketUpdate) : Prop where
  wellFormed : ∃ sh, b.book.WellFormed sh
  ids : IdsBelow next b
  mirrors : Mirrors t b (m.applyAll us)
  accepts : m.AcceptsAll us
  noAdd : ∀ u ∈ us, u.type ≠ .add

/-- One fill. The map takes its two updates. -/
lemma Following.fill {us : List MEMarketUpdate} {next : OrderId} (h : Following t next m b us)
    (ht : t < ME_MAX_TICKERS) {a : Aggressor} (ha : a.tickerId = t) (hs : a.side.Trading)
    {leavesQty leavesQty' : Qty} {itr : Nat} (hstep : MatchStep a b leavesQty itr b' leavesQty') :
    Following t next m b' (us ++ updates (a.fill (b.book.order itr) leavesQty).events) := by
  obtain ⟨⟨sh, hwf⟩, hids, hmirrors, haccepts, hnoAdd⟩ := h
  obtain ⟨lvl, htop, hfirst⟩ := hstep.first
  obtain ⟨os, ls, hside⟩ := side_of_top hwf hs.opposite htop hfirst
  have hused : b.book.orderPool.Used itr := (hwf.orderUsed itr).mpr
    (Shape.mem_orders_of_side hs.opposite (l := ⟨lvl, itr :: os⟩) (by simp [hside]) (by simp))
  have hf := hstep.fills.frame
  have hwf' := hstep.fills.wellFormed hwf hs.opposite hside
  have hids' : IdsBelow next b' := hids.congr (fun q hq => ((hf.used q).mp hq).1) hf.ids
  obtain ⟨x, hx, hdescribes⟩ := hmirrors.resting itr hused
  subst ha
  by_cases hqty : (b.book.order itr).qty ≤ leavesQty
  · have hus : updates (a.fill (b.book.order itr) leavesQty).events =
        [(a.fill (b.book.order itr) leavesQty).trade,
          ⟨.cancel, (b.book.order itr).ids.marketOrderId, a.tickerId, (b.book.order itr).side,
            (b.book.order itr).price, (b.book.order itr).qty, Priority_INVALID⟩] := by
      simp [Fill.events, Aggressor.fill, hqty]
    rw [hus]
    refine ⟨⟨_, hwf'⟩, hids', ?_, haccepts.append ⟨⟨ht, trivial⟩, ⟨ht, x, hx, hdescribes.1⟩, trivial⟩, ?_⟩
    · rw [OrderMap.applyAll_append]
      apply hmirrors.cancel hids hf.order hused
      intro q
      rw [hf.used q]
      have hnot : ¬leavesQty < (b.book.order itr).qty := Nat.not_lt.mpr hqty
      tauto
    · simpa [or_imp, forall_and, Aggressor.fill] using hnoAdd
  · have hlt := Nat.not_le.mp hqty
    have hus : updates (a.fill (b.book.order itr) leavesQty).events =
        [(a.fill (b.book.order itr) leavesQty).trade,
          ⟨.modify, (b.book.order itr).ids.marketOrderId, a.tickerId, (b.book.order itr).side,
            (b.book.order itr).price, (b.book.order itr).qty - leavesQty,
            (b.book.order itr).priority⟩] := by
      simp [Fill.events, Aggressor.fill, hqty]
    have hfilled := hf.filled
    rw [min_eq_left hlt.le] at hfilled
    rw [hus]
    refine ⟨⟨_, hwf'⟩, hids', ?_, haccepts.append ⟨⟨ht, trivial⟩, ⟨ht, x, hx, hdescribes.1⟩, trivial⟩, ?_⟩
    · rw [OrderMap.applyAll_append]
      apply hmirrors.modify hids hf.order hused hfilled
      intro q
      rw [hf.used q]
      exact ⟨fun hq => hq.1, fun hq => ⟨hq, fun _ => hlt⟩⟩
    · simpa [or_imp, forall_and, Aggressor.fill] using hnoAdd

/-- What a whole call does to the map. -/
structure Followed (t : TickerId) (m : OrderMap) (b' : MEOrderBook) (us : List MEMarketUpdate) : Prop where
  accepts : m.AcceptsAll us
  addsLast : AddsLast us
  mirrors : Mirrors t b' (m.applyAll us)
  ids : IdsBelow b'.nextMarketOrderId b'

theorem add_followed (h : b.book.WellFormed sh) (hids : IdsBelow b.nextMarketOrderId b)
    (hmirrors : Mirrors t b m) (ht : t < ME_MAX_TICKERS)
    (hnext : b.nextMarketOrderId < ME_MAX_ORDER_IDS) {clientId : ClientId} {clientOrderId : OrderId}
    {side : Side} {price : Price} {qty : Qty} {es : List Event}
    (hrun : b.add clientId clientOrderId t side price qty = .ok (b', es)) :
    Followed t m b' (updates es) := by
  let a := addAggressor clientId clientOrderId t side price qty
  obtain ⟨b₁, leavesQty, filled, hmatch, hrest⟩ := add_cases hrun
  have hinit : Following t b.nextMarketOrderId m b.drawn [] :=
    ⟨⟨sh, h⟩, hids.congr (fun q hq => hq) (fun q => rfl), ⟨hmirrors.held, hmirrors.resting⟩, trivial, by simp⟩
  have hnextDrawn : b.drawn.nextMarketOrderId = b.nextMarketOrderId + 1 := by
    have hlt : b.nextMarketOrderId + 1 < 18446744073709551616 :=
      lt_of_le_of_lt (Nat.succ_le_of_lt hnext) (by decide)
    exact Nat.mod_eq_of_lt hlt
  have hrule := checkForMatch_rule a
    (P := fun c _ fills => Following t b.nextMarketOrderId m c (updates (fills.flatMap Fill.events)) ∧
      c.nextMarketOrderId = b.nextMarketOrderId + 1)
    (fun hs c q fills itr c' q' hc hstep => ?_) ⟨hinit, hnextDrawn⟩ hmatch
  · obtain ⟨fills, rfl, ⟨hfollow, hnext₁⟩, -⟩ := hrule
    rcases hrest with ⟨-, rfl, rfl⟩ | ⟨-, priority, o, hrests, rfl⟩
    · rw [accepted, updates_cons_response]
      refine ⟨hfollow.accepts, fun u hu => hfollow.noAdd u (List.dropLast_subset _ hu), hfollow.mirrors, ?_⟩
      rw [hnext₁]
      exact ⟨hfollow.ids.distinct, fun q hq => Nat.lt_succ_of_lt (hfollow.ids.below q hq)⟩
    · have hf := hrests.frame
      have hfree := hfollow.mirrors.next_free hfollow.ids
      have hus : updates (accepted a b.nextMarketOrderId qty :: fills.flatMap Fill.events ++
          [rested a b.nextMarketOrderId leavesQty priority]) = updates (fills.flatMap Fill.events) ++
            [⟨.add, b.nextMarketOrderId, t, side, price, leavesQty, priority⟩] := by
        simp [accepted, rested, a, addAggressor]
      rw [hus]
      refine ⟨hfollow.accepts.append ⟨⟨ht, hnext, hfree⟩, trivial⟩, ?_, ?_, ?_⟩
      · unfold AddsLast
        rw [List.dropLast_concat]
        exact hfollow.noAdd
      · rw [OrderMap.applyAll_append]
        exact hfollow.mirrors.add hf ⟨rfl, rfl, rfl, rfl⟩ hfree
      · rw [hf.nextMarketOrderId, hnext₁]
        exact hfollow.ids.add hf
  · refine ⟨?_, hstep.fills.frame.nextMarketOrderId.trans hc.2⟩
    rw [List.flatMap_append, List.flatMap_singleton, updates_append]
    exact hc.1.fill ht rfl hs hstep

theorem cancel_followed (hids : IdsBelow b.nextMarketOrderId b)
    (hmirrors : Mirrors t b m) (ht : t < ME_MAX_TICKERS) {clientId : ClientId} {orderId : OrderId}
    {es : List Event} (hrun : b.cancel clientId orderId t = .ok (b', es)) :
    Followed t m b' (updates es) := by
  rcases cancel_cases hrun with ⟨-, rfl, rfl⟩ | ⟨o, book, hkey, hremove, rfl, rfl⟩
  · exact ⟨trivial, by simp [AddsLast, cancelRejected], hmirrors, hids⟩
  · have hf := removeOrder_frame hremove
    obtain ⟨x, hx, hdescribes⟩ := hmirrors.resting o hf.wasUsed
    refine ⟨⟨⟨ht, x, hx, hdescribes.1⟩, trivial⟩, by simp [AddsLast, canceled], ?_, ?_⟩
    · refine hmirrors.cancel hids (fun q _ => hf.order q) hf.wasUsed fun q => ?_
      rw [hf.used q, and_comm]
    · exact hids.congr (fun q hq => ((hf.used q).mp hq).2) fun q =>
        (BookOrder.unlinked_eq_iff.mp (hf.order q)).1

end MEOrderBook

/-- A call on the book of ticker `t` with its identifiers in range. An `add` draws a market
order id that the synthesizer's arrays have. -/
def InRange (t : TickerId) (b : MEOrderBook) : BookCall → Prop
  | .add clientId clientOrderId tickerId side _ _ => tickerId = t ∧ clientId < ME_MAX_NUM_CLIENTS ∧
      clientOrderId < ME_MAX_ORDER_IDS ∧ side.Trading ∧ b.nextMarketOrderId < ME_MAX_ORDER_IDS
  | .cancel clientId orderId tickerId => tickerId = t ∧ clientId < ME_MAX_NUM_CLIENTS ∧
      orderId < ME_MAX_ORDER_IDS

/-- The blocks a call and its updates may need. -/
structure Room (b : MEOrderBook) (s : SnapshotSynthesizer) : Prop where
  orders : b.book.orderPool.HasRoom
  levels : b.book.ordersAtPricePool.HasRoom
  snapshot : s.orderPool.HasRoom

/-- The synthesizer takes every update of the call and ends up holding the orders of the book
again. Neither a clash of prices nor a pair in use disturbs it. -/
theorem synthesizer_follows {t : TickerId} {b : MEOrderBook} {sh : Shape} {s : SnapshotSynthesizer}
    {call : BookCall} (hwf : b.book.WellFormed sh) (hids : IdsBelow b.nextMarketOrderId b)
    (hs : s.WellFormed) (hmirrors : Mirrors t b s.held) (ht : t < ME_MAX_TICKERS)
    (hcall : InRange t b call) (hroom : Room b s) :
    ∃ b' es s', b.call call = .ok (b', es) ∧
      s.addAllToSnapshot (numbered s.lastIncSeqNum (updates es)) = .ok s' ∧ s'.WellFormed ∧
      Mirrors t b' s'.held ∧ IdsBelow b'.nextMarketOrderId b' := by
  have hfollowed : ∃ b' es, b.call call = .ok (b', es) ∧ Followed t s.held b' (updates es) := by
    cases call with
    | add clientId clientOrderId tickerId side price qty =>
      obtain ⟨rfl, hclient, horder, hside, hnext⟩ := hcall
      have hin : OrderKey.inTable MEOrderIds (clientId, clientOrderId) = true := by
        simp [OrderKey.inTable, hclient, horder]
      rcases add_returns hwf tickerId hside hin price qty with ⟨⟨b', es⟩, hrun⟩ | ⟨-, hno⟩
      · exact ⟨b', es, hrun, add_followed hwf hids hmirrors ht hnext hrun⟩
      · exact absurd ⟨hroom.orders, hroom.levels⟩ hno
    | cancel clientId orderId tickerId =>
      obtain ⟨rfl, -, horder⟩ := hcall
      obtain ⟨b', es, hrun⟩ := cancel_returns hwf clientId tickerId horder
      exact ⟨b', es, hrun, cancel_followed hids hmirrors ht hrun⟩
  obtain ⟨b', es, hrun, haccepts, hlast, hmirrors', hids'⟩ := hfollowed
  obtain ⟨s', hfeed, hs', hheld⟩ :=
    SnapshotSynthesizer.addAllToSnapshot_refines hs haccepts hlast hroom.snapshot
  exact ⟨b', es, s', hrun, hfeed, hs', hheld ▸ hmirrors', hids'⟩

/-- A fresh synthesizer after the updates of the first `n` calls of `quotedLog`. -/
def quotedSnapshot (n : Nat) : SnapshotSynthesizer :=
  match SnapshotSynthesizer.create.addAllToSnapshot
      (numbered SnapshotSynthesizer.create.lastIncSeqNum (updates (LoggedRun.sent (quotedLog.take n)))) with
  | .ok s => s
  | .error _ => .create

/-- The synthesizer holds the orders of the book, quote by quote. -/
lemma quotedSnapshot_follows {n : Nat} (hn : n ≤ 4) : (quotedSnapshot n).WellFormed ∧
    Mirrors 0 (quotedBook n) (quotedSnapshot n).held ∧
    IdsBelow (quotedBook n).nextMarketOrderId (quotedBook n) := by
  induction n with
  | zero =>
    have hnone : ∀ o, ¬(MEOrderBook.create 0).book.orderPool.Used o := fun _ => MemPool.not_used_create _ _ _
    exact ⟨SnapshotSynthesizer.wellFormed_create, ⟨fun _ _ hx => (by cases hx), fun o ho => absurd ho (hnone o)⟩,
      ⟨fun o _ ho => absurd ho (hnone o), fun o ho => absurd ho (hnone o)⟩⟩
  | succ n ih =>
    obtain ⟨hs, hmirrors, hids⟩ := ih (Nat.le_of_succ_le hn)
    obtain ⟨sh, hin⟩ := (quotedBook_run (Nat.le_of_succ_le hn)).inStep
    have hlt : n < 4 := hn
    have hnext : ∀ clientId clientOrderId side price qty {es}, side.Trading →
        (quotedBook n).call (.add clientId clientOrderId 0 side price qty) = .ok (quotedBook (n + 1), es) →
        (quotedBook n).nextMarketOrderId < ME_MAX_ORDER_IDS →
        (quotedSnapshot n).orderPool.HasRoom →
        (quotedSnapshot n).addAllToSnapshot (numbered (quotedSnapshot n).lastIncSeqNum (updates es)) =
          .ok (quotedSnapshot (n + 1)) → (quotedSnapshot (n + 1)).WellFormed ∧
          Mirrors 0 (quotedBook (n + 1)) (quotedSnapshot (n + 1)).held ∧
          IdsBelow (quotedBook (n + 1)).nextMarketOrderId (quotedBook (n + 1)) := by
      intro clientId clientOrderId side price qty es hside hrun hbelow hroom hfeed
      obtain ⟨haccepts, hlast, hmirrors', hids'⟩ :=
        add_followed hin.wellFormed hids hmirrors (by decide) hbelow hrun
      obtain ⟨s', hfeed', hs', hheld⟩ := SnapshotSynthesizer.addAllToSnapshot_refines hs haccepts hlast hroom
      obtain rfl : quotedSnapshot (n + 1) = s' := Except.ok.inj (hfeed.symm.trans hfeed')
      exact ⟨hs', hheld ▸ hmirrors', hids'⟩
    interval_cases n
    · exact hnext 1 1 .buy 99 10 (by decide) rfl (by decide) ⟨10, by decide, by decide, by decide⟩ rfl
    · exact hnext 1 2 .buy 98 10 (by decide) rfl (by decide) ⟨10, by decide, by decide, by decide⟩ rfl
    · exact hnext 2 1 .sell 100 10 (by decide) rfl (by decide) ⟨10, by decide, by decide, by decide⟩ rfl
    · exact hnext 2 2 .sell 101 10 (by decide) rfl (by decide) ⟨10, by decide, by decide, by decide⟩ rfl

/-- The synthesizer holds two bids and two asks, and a buy fills the better ask and a part of the other. -/
theorem synthesizer_follows_quoted : (∀ o < 4, (quotedBook 4).book.orderPool.Used o) ∧
    Mirrors 0 (quotedBook 4) (quotedSnapshot 4).held ∧ ∃ b' es s',
    (quotedBook 4).call (.add 3 1 0 .buy 101 10) = .ok (b', es) ∧
      (updates es).map MEMarketUpdate.type = [.trade, .cancel, .trade, .modify] ∧
      (quotedSnapshot 4).addAllToSnapshot (numbered (quotedSnapshot 4).lastIncSeqNum (updates es)) = .ok s' ∧
      s'.WellFormed ∧ Mirrors 0 b' s'.held ∧ IdsBelow b'.nextMarketOrderId b' := by
  obtain ⟨sh, hin⟩ := (quotedBook_run le_rfl).inStep
  obtain ⟨hs, hmirrors, hids⟩ := quotedSnapshot_follows le_rfl
  obtain ⟨b', es, s', hrun, hfeed, hfollows⟩ := synthesizer_follows hin.wellFormed hids hs hmirrors (by decide)
    (show InRange 0 (quotedBook 4) (.add 3 1 0 .buy 101 10) from ⟨rfl, by decide, by decide, by decide, by decide⟩)
    ⟨⟨10, by decide, by decide, by decide⟩, ⟨10, by decide, by decide, by decide⟩, ⟨10, by decide, by decide, by decide⟩⟩
  have htypes : ∀ b' es, (quotedBook 4).call (.add 3 1 0 .buy 101 10) = .ok (b', es) →
      (updates es).map MEMarketUpdate.type = [.trade, .cancel, .trade, .modify] := by
    intro b' es hrun
    cases hrun
    rfl
  exact ⟨by decide, hmirrors, b', es, s', hrun, htypes b' es hrun, hfeed, hfollows⟩

end LowLatencyExchange
