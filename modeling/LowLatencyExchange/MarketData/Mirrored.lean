import LowLatencyExchange.Exchange.Alive
import LowLatencyExchange.Exchange.OrderlyCalls
import LowLatencyExchange.MarketData.Follow

/-!
# The books, read off the updates

The map that the engine's updates lead to holds the resting orders of all books, after every request
that leaves the books intact. Prices may clash and ladders may be out of order.
-/

namespace LowLatencyExchange
open PriceBook MEOrderBook

section Fill
variable {t : TickerId} {next : OrderId} {b b' : MEOrderBook} {m : OrderMap} {a : Aggressor} {itr : Nat}
  {leavesQty leavesQty' : Qty}

/-- The updates of a fill lead to the map of the book that it leaves, and the map takes them. -/
lemma Mirrors.fill (h : Mirrors t b m) (hids : IdsBelow next b) (ht : t < ME_MAX_TICKERS) (ha : a.tickerId = t)
    (hused : b.book.orderPool.Used itr) (hfill : b.FillsOrder itr leavesQty b' leavesQty') :
    m.AcceptsAll (updates (a.fill (b.book.order itr) leavesQty).events) ∧
      Mirrors t b' (m.applyAll (updates (a.fill (b.book.order itr) leavesQty).events)) := by
  have hf := hfill.frame
  obtain ⟨x, hx, hdescribes⟩ := h.resting itr hused
  subst ha
  by_cases hqty : (b.book.order itr).qty ≤ leavesQty
  · have hupdates : updates (a.fill (b.book.order itr) leavesQty).events =
        [(a.fill (b.book.order itr) leavesQty).trade,
          ⟨.cancel, (b.book.order itr).ids.marketOrderId, a.tickerId, (b.book.order itr).side,
            (b.book.order itr).price, (b.book.order itr).qty, Priority_INVALID⟩] := by
      simp [Fill.events, Aggressor.fill, hqty]
    rw [hupdates]
    refine ⟨⟨⟨ht, trivial⟩, ⟨ht, x, hx, hdescribes.1⟩, trivial⟩, ?_⟩
    apply h.cancel hids hf.order hused
    intro q
    rw [hf.used q]
    have hnot : ¬leavesQty < (b.book.order itr).qty := Nat.not_lt.mpr hqty
    tauto
  · have hlt := Nat.not_le.mp hqty
    have hupdates : updates (a.fill (b.book.order itr) leavesQty).events =
        [(a.fill (b.book.order itr) leavesQty).trade,
          ⟨.modify, (b.book.order itr).ids.marketOrderId, a.tickerId, (b.book.order itr).side,
            (b.book.order itr).price, (b.book.order itr).qty - leavesQty, (b.book.order itr).priority⟩] := by
      simp [Fill.events, Aggressor.fill, hqty]
    have hfilled := hf.filled
    rw [min_eq_left hlt.le] at hfilled
    rw [hupdates]
    refine ⟨⟨⟨ht, trivial⟩, ⟨ht, x, hx, hdescribes.1⟩, trivial⟩, ?_⟩
    apply h.modify hids hf.order hused hfilled
    intro q
    rw [hf.used q]
    constructor
    · exact And.left
    · exact fun hq => ⟨hq, fun _ => hlt⟩

end Fill

namespace MEOrderBook
variable {t : TickerId} {b b' : MEOrderBook} {m : OrderMap}

/-- What a call on an intact book does to the map. -/
structure Reflected (t : TickerId) (m : OrderMap) (b' : MEOrderBook) (us : List MEMarketUpdate) : Prop where
  accepts : (∀ u ∈ us, u.type = .add → u.orderId < ME_MAX_ORDER_IDS) → m.AcceptsAll us
  mirrors : Mirrors t b' (m.applyAll us)
  ids : IdsBelow b'.nextMarketOrderId b'

/-- The matching loop as the map sees it. -/
structure Reflecting (t : TickerId) (next : OrderId) (m : OrderMap) (b : MEOrderBook) (us : List MEMarketUpdate) :
    Prop where
  accepts : m.AcceptsAll us
  mirrors : Mirrors t b (m.applyAll us)
  ids : IdsBelow next b
  next : b.nextMarketOrderId = next + 1

lemma Reflecting.round {next : OrderId} {us : List MEMarketUpdate} (h : Reflecting t next m b us) (ht : t < ME_MAX_TICKERS)
    {a : Aggressor} (ha : a.tickerId = t) {itr : Nat} {leavesQty leavesQty' : Qty} (hused : b.book.orderPool.Used itr)
    (hfill : b.FillsOrder itr leavesQty b' leavesQty') :
    Reflecting t next m b' (us ++ updates (a.fill (b.book.order itr) leavesQty).events) := by
  have hf := hfill.frame
  obtain ⟨haccepts, hmirrors⟩ := h.mirrors.fill h.ids ht ha hused hfill
  refine ⟨h.accepts.append haccepts, ?_, ?_, hf.nextMarketOrderId.trans h.next⟩
  · rw [OrderMap.applyAll_append]
    exact hmirrors
  · exact h.ids.congr (fun q hq => ((hf.used q).mp hq).1) hf.ids

theorem add_reflected (h : b.IsIntact) (hids : IdsBelow b.nextMarketOrderId b) (hmirrors : Mirrors t b m)
    (ht : t < ME_MAX_TICKERS) (hcount : b.nextMarketOrderId + 1 < 18446744073709551616)
    {clientId : ClientId} {clientOrderId : OrderId} {side : Side} {price : Price} {qty : Qty} {es : List Event}
    (hrun : b.add clientId clientOrderId t side price qty = .ok (b', es)) : Reflected t m b' (updates es) := by
  let a := addAggressor clientId clientOrderId t side price qty
  obtain ⟨b₁, leavesQty, filled, hmatch, hrest⟩ := add_cases hrun
  have hinit : Reflecting t b.nextMarketOrderId m b.drawn [] :=
    ⟨trivial, ⟨hmirrors.held, hmirrors.resting⟩, hids.congr (fun q hq => hq) (fun q => rfl), wrap64_of_lt hcount⟩
  have hdrawn : b.drawn.IsIntact := h
  obtain ⟨fills, rfl, hreflecting, -⟩ := checkForMatch_intact a
    (P := fun c _ fills => Reflecting t b.nextMarketOrderId m c (updates (fills.flatMap Fill.events)))
    (fun hs c q fills itr c' q' _ hused _ hc hround => by
      rw [List.flatMap_append, List.flatMap_singleton, updates_append]
      exact hc.round ht rfl hused hround.fills) hdrawn hinit hmatch
  rcases hrest with ⟨-, rfl, rfl⟩ | ⟨-, priority, o, hrests, rfl⟩
  · rw [accepted, updates_cons_response]
    refine ⟨fun _ => hreflecting.accepts, hreflecting.mirrors, ?_⟩
    rw [hreflecting.next]
    exact ⟨hreflecting.ids.distinct, fun q hq => Nat.lt_succ_of_lt (hreflecting.ids.below q hq)⟩
  · have hf := hrests.frame
    have hfree := hreflecting.mirrors.next_free hreflecting.ids
    have hupdates : updates (accepted a b.nextMarketOrderId qty :: fills.flatMap Fill.events ++
        [rested a b.nextMarketOrderId leavesQty priority]) = updates (fills.flatMap Fill.events) ++
          [⟨.add, b.nextMarketOrderId, t, side, price, leavesQty, priority⟩] := by
      simp [accepted, rested, a, addAggressor]
    rw [hupdates]
    refine ⟨fun hin => ?_, ?_, ?_⟩
    · have hroom := hin _ (List.mem_append_right _ (List.mem_singleton_self _)) rfl
      exact hreflecting.accepts.append ⟨⟨ht, hroom, hfree⟩, trivial⟩
    · rw [OrderMap.applyAll_append]
      exact hreflecting.mirrors.add hf ⟨rfl, rfl, rfl, rfl⟩ hfree
    · rw [hf.nextMarketOrderId, hreflecting.next]
      exact hreflecting.ids.add hf

/-- A cancel does not touch the ladders as far as the map can see. -/
lemma cancel_reflected (hids : IdsBelow b.nextMarketOrderId b) (hmirrors : Mirrors t b m) (ht : t < ME_MAX_TICKERS)
    {clientId : ClientId} {orderId : OrderId} {es : List Event} (hrun : b.cancel clientId orderId t = .ok (b', es)) :
    Reflected t m b' (updates es) := by
  have hfollowed := cancel_followed hids hmirrors ht hrun
  exact ⟨fun _ => hfollowed.accepts, hfollowed.mirrors, hfollowed.ids⟩

end MEOrderBook

/-- Updates about other tickers leave a ticker's row alone. -/
lemma OrderMap.applyAll_other {t : TickerId} {us : List MEMarketUpdate} (h : ∀ u ∈ us, u.tickerId ≠ t) (m : OrderMap) :
    m.applyAll us t = m t := by
  induction us generalizing m with
  | nil => rfl
  | cons u us ih =>
    have hne : t ≠ u.tickerId := (h u List.mem_cons_self).symm
    have happly : m.apply u t = m t := by
      unfold OrderMap.apply OrderMap.set
      cases u.type <;> simp [hne]
    rw [applyAll_cons, ih fun x hx => h x (List.mem_cons_of_mem u hx), happly]

lemma Mirrors.congr {t : TickerId} {b : MEOrderBook} {m m' : OrderMap} (h : Mirrors t b m) (hrow : m' t = m t) :
    Mirrors t b m' := by
  refine ⟨fun i x hx => ?_, fun o ho => ?_⟩
  · rw [hrow] at hx
    exact h.held i x hx
  · rw [hrow]
    exact h.resting o ho

namespace MEOrderBook

lemma fill_about (a : Aggressor) (order : MEOrder) (leavesQty : Qty) :
    ∀ u ∈ updates (a.fill order leavesQty).events, u.tickerId = a.tickerId ∧ u.type ≠ .clear := by
  intro u hu
  simp only [Fill.events, updates_cons_response, updates_cons_update, updates_nil, List.mem_cons, List.not_mem_nil,
    or_false] at hu
  rcases hu with rfl | rfl
  · exact ⟨rfl, by simp [Aggressor.fill]⟩
  · unfold Aggressor.fill
    dsimp only
    split <;> exact ⟨rfl, by simp⟩

/-- A call sends updates about the ticker of its request, and never a `CLEAR`. -/
lemma call_about {b b' : MEOrderBook} {r : MEClientRequest} {call : BookCall} {es : List Event}
    (hcall : MatchingEngine.bookCall r = .ok call) (hrun : b.call call = .ok (b', es)) :
    ∀ u ∈ updates es, u.tickerId = r.tickerId ∧ u.type ≠ .clear := by
  intro u hu
  rcases MatchingEngine.bookCall_client hcall with rfl | rfl
  · let a := addAggressor r.clientId r.orderId r.tickerId r.side r.price r.qty
    obtain ⟨b₁, leavesQty, filled, hmatch, hrest⟩ := add_cases hrun
    obtain ⟨fills, rfl, hfills, -⟩ := checkForMatch_rule a
      (P := fun _ _ fills => ∀ u ∈ updates (fills.flatMap Fill.events), u.tickerId = r.tickerId ∧ u.type ≠ .clear)
      (fun _ b q fills itr b' q' hP _ u hu => by
        rw [List.flatMap_append, List.flatMap_singleton, updates_append] at hu
        rcases List.mem_append.mp hu with hu | hu
        · exact hP u hu
        · exact fill_about a _ _ u hu) (by simp) hmatch
    rcases hrest with ⟨-, -, rfl⟩ | ⟨-, priority, o, -, rfl⟩
    · rw [accepted, updates_cons_response] at hu
      exact hfills u hu
    · rw [List.cons_append, accepted, updates_cons_response, updates_append] at hu
      rcases List.mem_append.mp hu with hu | hu
      · exact hfills u hu
      · obtain rfl := List.mem_singleton.mp hu
        exact ⟨rfl, by simp⟩
  · rcases cancel_cases hrun with ⟨-, -, rfl⟩ | ⟨o, book, -, -, -, rfl⟩
    · exact absurd hu List.not_mem_nil
    · obtain rfl := List.mem_singleton.mp hu
      exact ⟨rfl, by simp⟩

end MEOrderBook

namespace MatchingEngine
variable {e e' : MatchingEngine} {r : MEClientRequest} {m : OrderMap}

/-- The books are intact, and the map holds their resting orders. -/
structure Mirrored (e : MatchingEngine) (m : OrderMap) : Prop where
  intact : e.Intact
  ids : ∀ t, IdsBelow (e.tickerOrderBook t).nextMarketOrderId (e.tickerOrderBook t)
  books : ∀ t < ME_MAX_TICKERS, Mirrors t (e.tickerOrderBook t) m

/-- The requests that leave the books intact, and do not turn the counter of market order ids over. -/
structure Orderly (e : MatchingEngine) (r : MEClientRequest) : Prop where
  keeps : e.Keeps r
  counts : (e.tickerOrderBook r.tickerId).nextMarketOrderId + 1 < 18446744073709551616

lemma mirrored_create : create.Mirrored OrderMap.empty where
  intact := intact_create
  ids := fun t => by
    have hnone : ∀ o, ¬(MEOrderBook.create t).book.orderPool.Used o := fun _ => MemPool.not_used_create _ _ _
    exact ⟨fun o _ ho => absurd ho (hnone o), fun o ho => absurd ho (hnone o)⟩
  books := fun t _ => ⟨fun _ _ hx => (by cases hx), fun o ho => absurd ho (MemPool.not_used_create _ _ _)⟩

/-- A request changes the map as it changes its book. -/
theorem Mirrored.processNext (h : e.Mirrored m) (horderly : e.Orderly r) {log : Log} {es : List Event}
    (hrun : e.processNext log r = .ok (e', es)) :
    e'.Mirrored (m.applyAll (updates es)) ∧
      ((∀ u ∈ updates es, u.type = .add → u.orderId < ME_MAX_ORDER_IDS) → m.AcceptsAll (updates es)) := by
  have hintact := h.intact.processNext horderly.keeps hrun
  obtain ⟨call, orderBook, hticker, hcall, hbookRun, rfl⟩ := processNext_cases hrun
  have hids := h.ids r.tickerId
  have hmirrors := h.books r.tickerId hticker
  have hreflected : Reflected r.tickerId m orderBook (updates es) := by
    rcases bookCall_client hcall with rfl | rfl
    · exact add_reflected (h.intact r.tickerId) hids hmirrors hticker horderly.counts hbookRun
    · exact cancel_reflected hids hmirrors hticker hbookRun
  refine ⟨⟨hintact, fun t => ?_, fun t ht => ?_⟩, hreflected.accepts⟩
  · by_cases htr : t = r.tickerId
    · subst htr
      simp only [Function.update_self]
      exact hreflected.ids
    · simp only [Function.update_of_ne htr]
      exact h.ids t
  · by_cases htr : t = r.tickerId
    · subst htr
      simp only [Function.update_self]
      exact hreflected.mirrors
    · simp only [Function.update_of_ne htr]
      apply (h.books t ht).congr
      apply OrderMap.applyAll_other
      intro u hu he
      exact htr (he.symm.trans (call_about hcall hbookRun u hu).1)

end MatchingEngine
end LowLatencyExchange
