import LowLatencyExchange.Exchange.Calls
import LowLatencyExchange.MarketData.Admission

/-!
# Orders that the market data cannot hold

In every run of the engine, the arrays and the pool behind its updates have a place for each of
them, as long as no order comes to rest that has too high an id or finds too many others at rest.
-/

namespace LowLatencyExchange
open LoggedRun MEOrderBook

namespace MatchingEngine

/-- The number of orders at rest in the eight books. -/
def restingCount (e : MatchingEngine) : Nat :=
  ∑ t ∈ Finset.range ME_MAX_TICKERS, (e.tickerOrderBook t).restingCount

/-- The engine while it processes a request for ticker `t`. -/
def withBook (e : MatchingEngine) (t : TickerId) (b : MEOrderBook) : MatchingEngine :=
  { e with tickerOrderBook := Function.update e.tickerOrderBook t b }

/-- The request leaves a remainder, which comes to rest under an id that the arrays have no place for,
or next to so many other orders that the synthesizer has no block for it. -/
def Overcommits (e : MatchingEngine) (r : MEClientRequest) : Prop :=
  ∃ call, bookCall r = .ok call ∧ RestsWhere (fun b _ =>
    ME_MAX_ORDER_IDS ≤ (e.tickerOrderBook r.tickerId).nextMarketOrderId ∨
      ME_MAX_ORDER_IDS ≤ (e.withBook r.tickerId b).restingCount + 1) (e.tickerOrderBook r.tickerId) call

/-- The books are stocked, the updates sent count their orders, and all of them were admitted. -/
structure Accounted (e : MatchingEngine) (us : List MEMarketUpdate) : Prop where
  stocked : ∀ t, (e.tickerOrderBook t).Stocked
  count : e.restingCount + cancelCount us = addCount us
  admitted : AdmittedAll us

variable {log : Log} {e e' : MatchingEngine} {r : MEClientRequest} {us : List MEMarketUpdate} {es : List Event}

lemma restingCount_create : create.restingCount = 0 := Finset.sum_eq_zero fun t _ => MEOrderBook.restingCount_create t

lemma accounted_create : create.Accounted [] where
  stocked := stocked_create
  count := by
    rw [restingCount_create]
    rfl
  admitted := admittedAll_nil

@[simp] lemma withBook_self (e : MatchingEngine) (t : TickerId) (b : MEOrderBook) :
    (e.withBook t b).tickerOrderBook t = b := Function.update_self ..

@[simp] lemma withBook_of_ne (e : MatchingEngine) {t x : TickerId} (hx : x ≠ t) (b : MEOrderBook) :
    (e.withBook t b).tickerOrderBook x = e.tickerOrderBook x := Function.update_of_ne hx ..

lemma restingCount_withBook {t : TickerId} (ht : t < ME_MAX_TICKERS) (e : MatchingEngine) (b : MEOrderBook) :
    (e.withBook t b).restingCount + (e.tickerOrderBook t).restingCount = e.restingCount + b.restingCount := by
  have hmem : t ∈ Finset.range ME_MAX_TICKERS := Finset.mem_range.mpr ht
  have hothers : ∑ x ∈ (Finset.range ME_MAX_TICKERS).erase t, ((e.withBook t b).tickerOrderBook x).restingCount =
      ∑ x ∈ (Finset.range ME_MAX_TICKERS).erase t, (e.tickerOrderBook x).restingCount :=
    Finset.sum_congr rfl fun x hx => by rw [withBook_of_ne e (Finset.ne_of_mem_erase hx)]
  have hbefore : (e.tickerOrderBook t).restingCount +
      ∑ x ∈ (Finset.range ME_MAX_TICKERS).erase t, (e.tickerOrderBook x).restingCount = e.restingCount :=
    Finset.add_sum_erase _ (fun x => (e.tickerOrderBook x).restingCount) hmem
  have hafter : ((e.withBook t b).tickerOrderBook t).restingCount +
      ∑ x ∈ (Finset.range ME_MAX_TICKERS).erase t, ((e.withBook t b).tickerOrderBook x).restingCount =
        (e.withBook t b).restingCount :=
    Finset.add_sum_erase _ (fun x => ((e.withBook t b).tickerOrderBook x).restingCount) hmem
  rw [withBook_self, hothers] at hafter
  omega

lemma Accounted.stocked_withBook (h : e.Accounted us) (t : TickerId) {b : MEOrderBook} (hb : b.Stocked) (x : TickerId) :
    ((e.withBook t b).tickerOrderBook x).Stocked := by
  by_cases hx : x = t
  · rwa [hx, withBook_self]
  · rw [withBook_of_ne e hx]
    exact h.stocked x

/-- The book of a ticker changes, and the updates tell of no order added. -/
lemma Accounted.drained (h : e.Accounted us) {t : TickerId} (ht : t < ME_MAX_TICKERS) {b : MEOrderBook}
    {vs : List MEMarketUpdate} (hdrained : Drained (e.tickerOrderBook t) t b vs) :
    (e.withBook t b).Accounted (us ++ vs) := by
  have htotal := restingCount_withBook ht e b
  have hbefore := h.count
  have hbook := hdrained.count
  have hadds := addCount_eq_zero fun v hv => (hdrained.updates v hv).1
  refine ⟨h.stocked_withBook t hdrained.stocked, ?_, h.admitted.append fun v hv => ?_⟩
  · rw [cancelCount_append, addCount_append, hadds]
    omega
  · obtain ⟨htype, hticker, hid⟩ := hdrained.updates v hv
    exact ⟨htype, hticker ▸ ht, hid⟩

/-- An order comes to rest. The synthesizer has taken in everything that was sent before. -/
lemma Accounted.rests (h : e.Accounted us) {t : TickerId} (ht : t < ME_MAX_TICKERS) {a : Aggressor}
    (hticker : a.tickerId = t) {b : MEOrderBook} {marketOrderId : OrderId} {leavesQty : Qty} {priority : Priority} {o : Nat}
    (hid : marketOrderId < ME_MAX_ORDER_IDS) (hroom : e.restingCount + 1 < ME_MAX_ORDER_IDS)
    (hrests : Rests a (e.tickerOrderBook t) marketOrderId leavesQty priority o b) :
    (e.withBook t b).Accounted (us ++ updates [rested a marketOrderId leavesQty priority]) := by
  have htotal := restingCount_withBook ht e b
  have hbefore := h.count
  obtain ⟨hstocked, hcount⟩ := (h.stocked t).rests hid hrests
  have hupdates : updates [rested a marketOrderId leavesQty priority] =
      [⟨.add, marketOrderId, a.tickerId, a.side, a.price, leavesQty, priority⟩] := rfl
  rw [hupdates]
  refine ⟨h.stocked_withBook t hstocked, ?_, h.admitted.concat (admitted_of_orderId (hticker ▸ ht) (fun _ => hid) ?_)⟩
  · rw [cancelCount_append, addCount_append]
    simp only [cancelCount, addCount, List.countP_singleton] at *
    simp
    omega
  · intro _ s hs
    obtain ⟨hsound, hsize, hused⟩ := hs.count
    exact hsound.hasRoom_of_usedCount (by omega)

lemma withBook_withBook (e : MatchingEngine) (t : TickerId) (b b' : MEOrderBook) :
    (e.withBook t b).withBook t b' = e.withBook t b' := by
  simp only [withBook, Function.update_idem]

/-- A request that does not overcommit leaves all updates admitted. -/
lemma Accounted.processNext (h : e.Accounted us) (hfits : ¬e.Overcommits r) (hrun : e.processNext log r = .ok (e', es)) :
    e'.Accounted (us ++ updates es) := by
  obtain ⟨call, orderBook, hticker, hcall, hrun, rfl⟩ := processNext_cases hrun
  have hstocked := h.stocked r.tickerId
  rcases bookCall_client hcall with rfl | rfl
  · let a := addAggressor r.clientId r.orderId r.tickerId r.side r.price r.qty
    obtain ⟨b, leavesQty, fills, hmatch, hend⟩ := add_cases hrun
    have hdrained := hstocked.drawn.checkForMatch a hmatch
    have hdrained : Drained (e.tickerOrderBook r.tickerId) r.tickerId b (updates fills) :=
      ⟨hdrained.stocked, hdrained.count, hdrained.updates⟩
    have hmatched := h.drained hticker hdrained
    rcases hend with ⟨-, rfl, rfl⟩ | ⟨hleaves, priority, o, hrests, rfl⟩
    · exact hmatched
    · have hroom : ∀ P : MEOrderBook → Aggressor → Prop,
          ¬RestsWhere P (e.tickerOrderBook r.tickerId) (.add r.clientId r.orderId r.tickerId r.side r.price r.qty) →
          ¬P b a := fun P hnot hP => hnot ⟨b, leavesQty, fills, hmatch, hleaves, hP⟩
      have hcommit := hroom _ fun hrest => hfits ⟨_, hcall, hrest⟩
      rw [not_or, Nat.not_le, Nat.not_le] at hcommit
      rw [← withBook_self e r.tickerId b] at hrests
      have hrested := hmatched.rests hticker rfl hcommit.1 hcommit.2 hrests
      rw [withBook_withBook] at hrested
      have hupdates : updates (accepted a (e.tickerOrderBook r.tickerId).nextMarketOrderId r.qty :: fills ++
          [rested a (e.tickerOrderBook r.tickerId).nextMarketOrderId leavesQty priority]) =
          updates fills ++ updates [rested a (e.tickerOrderBook r.tickerId).nextMarketOrderId leavesQty priority] := by
        rw [List.cons_append, accepted, updates_cons_response, updates_append]
      rw [hupdates, ← List.append_assoc]
      exact hrested
  · rcases cancel_cases hrun with ⟨-, rfl, rfl⟩ | ⟨o, book, hkey, hremove, rfl, rfl⟩
    · exact h.drained hticker ⟨hstocked, rfl, fun u hu => absurd hu List.not_mem_nil⟩
    · have hid := hstocked.ids.table _ o hkey
      have hids := hstocked.ids.removeOrder hremove
      obtain ⟨hpool, hsize⟩ := PriceBook.removeOrder_orderPool hremove hstocked.pool
      have hcount := restingCount_removed hstocked.pool hremove
      refine h.drained hticker ⟨⟨hpool, hsize.trans hstocked.size, hids⟩, hcount, fun u hu => ?_⟩
      obtain rfl := List.mem_singleton.mp hu
      exact ⟨by simp, rfl, fun _ => hid⟩

/-- Few orders were added so far, and few ids are given out. -/
lemma Accounted.fits (h : e.Accounted us) (hticker : r.tickerId < ME_MAX_TICKERS)
    (hid : (e.tickerOrderBook r.tickerId).nextMarketOrderId < ME_MAX_ORDER_IDS)
    (hfew : addCount us + 1 < ME_MAX_ORDER_IDS) : ¬e.Overcommits r := by
  rintro ⟨call, hcall, hrest⟩
  rcases bookCall_client hcall with rfl | rfl
  · obtain ⟨b, leavesQty, fills, hmatch, -, hover⟩ := hrest
    have hdrained := (h.stocked r.tickerId).drawn.checkForMatch
      (addAggressor r.clientId r.orderId r.tickerId r.side r.price r.qty) hmatch
    have hmatched := h.drained hticker (b := b) ⟨hdrained.stocked, hdrained.count, hdrained.updates⟩
    have hcount := hmatched.count
    have hadds := addCount_eq_zero fun v hv => (hdrained.updates v hv).1
    rw [addCount_append, hadds] at hcount
    rcases hover with hid' | hmany
    · exact absurd hid (Nat.not_lt.mpr hid')
    · omega
  · exact hrest.elim

end MatchingEngine

/-- In every run of the engine in which no request overcommits, the synthesizer and the clients can
hold whatever its updates tell them to hold. -/
theorem downstream_admits {log : Log} {requests : List MEClientRequest} {e : MatchingEngine} {es : List Event}
    (hrun : execute (MatchingEngine.processNext log) .create requests = .ok (e, es))
    (hfits : Never (MatchingEngine.processNext log) .create requests MatchingEngine.Overcommits) :
    AdmittedAll (updates es) := by
  have haccounted := hfits.invariant (I := fun e es => e.Accounted (updates es)) MatchingEngine.accounted_create
    (fun e es r e' es' h hfits hstep => by
      rw [updates_append]
      exact h.processNext hfits hstep) requests e es (List.prefix_refl requests) hrun
  exact haccounted.admitted

section TwoToTheTwenty
variable {b b' : MEOrderBook} {n : OrderId}

/-- A book without orders that gives the next one the id `n`. -/
structure MEOrderBook.Blank (b : MEOrderBook) (n : OrderId) : Prop where
  wellFormed : b.book.WellFormed ⟨[], []⟩
  orderPool : b.book.orderPool.size = ME_MAX_ORDER_IDS
  levelPool : b.book.ordersAtPricePool.size = ME_MAX_PRICE_LEVELS
  next : b.nextMarketOrderId = n

/-- A pool of which nothing is in use has room. -/
lemma MemPool.hasRoom_of_unused {T : Type} {p : MemPool T} (hsize : 2 ≤ p.size) (hused : ∀ i, ¬p.Used i) : p.HasRoom := by
  by_cases hnext : p.nextFreeIndex = 0
  · exact ⟨1, hsize, by omega, hused 1⟩
  · exact ⟨0, by omega, fun h => hnext h.symm, hused 0⟩

/-- A first order rests, under the id `n` and for the quantity `n`. -/
lemma MEOrderBook.Blank.add (h : b.Blank n) (hpos : 0 < n) (hn : n < 4294967296) :
    ∃ b' es o p priority, b.call (.add 1 7 0 .buy 100 10) = .ok (b', es) ∧
      updates es = [⟨.add, n, 0, .buy, 100, n, priority⟩] ∧ b'.book.WellFormed ⟨[⟨p, [o]⟩], []⟩ ∧
      b'.book.orderTable (1, 7) = some o ∧ b'.book.orderPool.size = ME_MAX_ORDER_IDS ∧
      b'.book.ordersAtPricePool.size = ME_MAX_PRICE_LEVELS ∧ b'.nextMarketOrderId = n + 1 := by
  obtain ⟨hwf, horders, hlevels, rfl⟩ := h
  let a := addAggressor 1 7 0 .buy 100 10
  have hdrawn : b.drawn.book.WellFormed ⟨[], []⟩ := hwf
  have hnone : b.drawn.book.orderTable (1, 7) = none := by
    cases hkey : b.drawn.book.orderTable (1, 7) with
    | none => rfl
    | some o => exact absurd ((hdrawn.keys _ o).mp hkey).1 List.not_mem_nil
  have hroom : b.book.orderPool.HasRoom ∧ b.book.ordersAtPricePool.HasRoom := by
    constructor
    · refine MemPool.hasRoom_of_unused (by rw [horders]; decide) fun o ho => ?_
      exact absurd ((hwf.orderUsed o).mp ho) List.not_mem_nil
    · refine MemPool.hasRoom_of_unused (by rw [hlevels]; decide) fun p hp => ?_
      exact absurd ((hwf.levelUsed p).mp hp) List.not_mem_nil
  have hkey : OrderKey.inTable MEOrderIds ((1, 7) : ClientId × OrderId) = true := by decide
  have hreturns := add_returns hwf 0 Side.trading_buy hkey 100 10
  rcases hreturns with ⟨⟨b', es⟩, hrun⟩ | ⟨-, hfull⟩
  · obtain ⟨b₁, leavesQty, fills, hmatch, hend⟩ := add_cases hrun
    have hidle := checkForMatch_rule a
      (P := fun c q fills => c = b.drawn ∧ q = wrap32 b.nextMarketOrderId ∧ fills = [])
      (fun _ c q fills itr c' q' hc hround => by
        obtain ⟨rfl, -, -⟩ := hc
        obtain ⟨lvl, htop, -⟩ := hround.first
        have hempty : b.book.top Side.sell = none := (hwf.side .sell Side.trading_sell).top
        cases hempty.symm.trans htop) ⟨rfl, rfl, rfl⟩ hmatch
    obtain ⟨-, rfl, ⟨rfl, rfl, rfl⟩, -⟩ := hidle
    have hqty : wrap32 b.nextMarketOrderId = b.nextMarketOrderId := Nat.mod_eq_of_lt hn
    rcases hend with ⟨hzero, -, -⟩ | ⟨-, priority, o, hrests, rfl⟩
    · rw [hqty] at hzero
      exact absurd hzero (Nat.ne_of_gt hpos)
    · have hframe := hrests.frame
      obtain ⟨sh, hspot, hwf'⟩ := hrests.wellFormed (a := a) hdrawn Side.trading_buy (by decide) hnone
        (fun l hl => absurd hl List.not_mem_nil) (.inr fun l hl => absurd hl List.not_mem_nil)
      obtain ⟨pool, book, halloc, hadd, rfl⟩ := hrests.placed
      have haddFrame := PriceBook.addOrder_frame hadd
      obtain ⟨-, hsize⟩ := hwf.orderPool.allocate halloc
      rcases hspot with ⟨pre, p, os, post, hside, -, -⟩ | ⟨p, -, rfl⟩
      · exact absurd hside (by simp [Shape.side])
      · refine ⟨_, _, o, p, priority, hrun, ?_, hwf', ?_, haddFrame.orderSize.trans (hsize.trans horders),
          haddFrame.levelSize.trans hlevels, ?_⟩
        · rw [hqty]
          rfl
        · rw [hframe.table]
          exact Function.update_self ..
        · exact Nat.mod_eq_of_lt (Nat.lt_of_le_of_lt (Nat.succ_le_of_lt hn) (by decide))
  · exact absurd hroom hfull

lemma MEOrderBook.cancel_blank {o p : Nat} (hwf : b.book.WellFormed ⟨[⟨p, [o]⟩], []⟩)
    (hkey : b.book.orderTable (1, 7) = some o) (horders : b.book.orderPool.size = ME_MAX_ORDER_IDS)
    (hlevels : b.book.ordersAtPricePool.size = ME_MAX_PRICE_LEVELS) :
    ∃ b' es, b.call (.cancel 1 7 0) = .ok (b', es) ∧ b'.Blank b.nextMarketOrderId := by
  have hlookup : b.lookupOrder 1 7 = .ok (some o) := congrArg Except.ok hkey
  obtain ⟨book, hremove, hwf'⟩ := PriceBook.removeFirst_spec hwf Side.trading_buy (o := o) (p := p) rfl
  have hframe := PriceBook.removeOrder_frame hremove
  refine ⟨_, _, cancel_eq_canceled 0 hlookup hremove, hwf', hframe.orderSize.trans horders, ?_, rfl⟩
  exact hframe.levelRoom.size.trans hlevels

end TwoToTheTwenty

/-- An order, and its cancel. -/
def buyRequest : MEClientRequest :=
  { type := .new, clientId := 1, tickerId := 0, orderId := 7, side := .buy, price := 100, qty := 10 }

def cancelBuyRequest : MEClientRequest := { type := .cancel, clientId := 1, tickerId := 0, orderId := 7 }

lemma processNext_buy {e : MatchingEngine} {n : OrderId} (h : (e.tickerOrderBook 0).Blank n) (hpos : 0 < n)
    (hn : n < 4294967296) : ∃ b es o p priority, e.processNext Logger.log buyRequest = .ok (e.withBook 0 b, es) ∧
      updates es = [⟨.add, n, 0, .buy, 100, n, priority⟩] ∧ b.book.WellFormed ⟨[⟨p, [o]⟩], []⟩ ∧
      b.book.orderTable (1, 7) = some o ∧ b.book.orderPool.size = ME_MAX_ORDER_IDS ∧
      b.book.ordersAtPricePool.size = ME_MAX_PRICE_LEVELS ∧ b.nextMarketOrderId = n + 1 := by
  obtain ⟨b, es, o, p, priority, hrun, hrest⟩ := h.add hpos hn
  have hprocess := MatchingEngine.processNext_returns Logger.counts_log (r := buyRequest) (by decide) rfl hrun
  exact ⟨b, es, o, p, priority, hprocess, hrest⟩

/-- `k` orders come and go. -/
lemma execute_comeAndGo (k : Nat) (hk : k < 4294967295) : ∃ e es,
    execute (MatchingEngine.processNext Logger.log) .create (List.replicate k [buyRequest, cancelBuyRequest]).flatten =
      .ok (e, es) ∧ (e.tickerOrderBook 0).Blank (k + 1) := by
  induction k with
  | zero => exact ⟨.create, [], rfl, wellFormed_create 0, rfl, rfl, rfl⟩
  | succ k ih =>
    obtain ⟨e, es, hrun, hblank⟩ := ih (by omega)
    have hlt : k + 1 < 4294967296 := by omega
    obtain ⟨b, esAdd, o, p, -, hadd, -, hwf, hkey, horders, hlevels, hnext⟩ :=
      processNext_buy hblank (Nat.succ_pos k) hlt
    obtain ⟨b', esCancel, hcancel, hblank'⟩ := cancel_blank hwf hkey horders hlevels
    rw [← MatchingEngine.withBook_self e 0 b] at hcancel
    have hprocess := MatchingEngine.processNext_returns Logger.counts_log (r := cancelBuyRequest) (by decide) rfl hcancel
    refine ⟨(e.withBook 0 b).withBook 0 b', es ++ (esAdd ++ (esCancel ++ [])), ?_, ?_⟩
    · rw [List.replicate_succ', List.flatten_append, List.flatten_singleton]
      exact execute_append hrun (execute_cons hadd (execute_cons hprocess (execute_nil _)))
    · rw [MatchingEngine.withBook_self, ← hnext]
      exact hblank'

/-- One order after 1048575 others have come and gone. -/
def orderTwoToTheTwenty : List MEClientRequest :=
  (List.replicate 1048575 [buyRequest, cancelBuyRequest]).flatten ++ [buyRequest]

/-- Never more than one order rests, and the id of the last one has no place in the arrays. -/
theorem downstream_admits_fails : ∃ e es,
    execute (MatchingEngine.processNext Logger.log) .create orderTwoToTheTwenty = .ok (e, es) ∧
      ¬AdmittedAll (updates es) := by
  obtain ⟨e, es, hrun, hblank⟩ := execute_comeAndGo 1048575 (by decide)
  obtain ⟨b, es', o, p, priority, hadd, hupdates, -⟩ := processNext_buy hblank (by decide) (by decide)
  refine ⟨e.withBook 0 b, es ++ (es' ++ []), execute_append hrun (execute_cons hadd (execute_nil _)), fun h => ?_⟩
  rw [List.append_nil, updates_append, hupdates] at h
  have hid := (h _ _ [] rfl).orderId (.inl rfl)
  exact Nat.lt_irrefl ME_MAX_ORDER_IDS hid

/-- A bid for ticker 0 and an ask for ticker 1, an order that takes the bid and rests, and the ask's cancel. -/
def askRequest : MEClientRequest :=
  { type := .new, clientId := 2, tickerId := 1, orderId := 9, side := .sell, price := 50, qty := 10 }

def hitRequest : MEClientRequest :=
  { type := .new, clientId := 2, tickerId := 0, orderId := 8, side := .sell, price := 99, qty := 10 }

def cancelAskRequest : MEClientRequest := { type := .cancel, clientId := 2, tickerId := 1, orderId := 9 }

def tradedRequests : List MEClientRequest := [buyRequest, askRequest, hitRequest, cancelAskRequest]

/-- Runs in which the synthesizer has a place for all orders. -/
abbrev FittingRun (run : List (MEClientRequest × List Event)) (e : MatchingEngine) : Prop :=
  Reached (MatchingEngine.processNext Logger.log) (fun _ e r _ => ¬e.Overcommits r) .create run e

lemma FittingRun.accounted {run : List (MEClientRequest × List Event)} {e : MatchingEngine} (h : FittingRun run e) :
    e.Accounted (updates (sent run)) := by
  apply Reached.invariant h fun run e => e.Accounted (updates (sent run))
  · exact MatchingEngine.accounted_create
  intro run e r e' es haccounted hfits hrun
  rw [sent_append, sent_singleton, updates_append]
  exact haccounted.processNext hfits hrun

lemma FittingRun.concat {run : List (MEClientRequest × List Event)} {e : MatchingEngine} (h : FittingRun run e)
    {r : MEClientRequest} (hticker : r.tickerId < ME_MAX_TICKERS) {call : BookCall}
    (hcall : MatchingEngine.bookCall r = .ok call) {b : MEOrderBook} {es : List Event}
    (hrun : (e.tickerOrderBook r.tickerId).call call = .ok (b, es))
    (hid : (e.tickerOrderBook r.tickerId).nextMarketOrderId < ME_MAX_ORDER_IDS)
    (hfew : addCount (updates (sent run)) + 1 < ME_MAX_ORDER_IDS) :
    FittingRun (run ++ [(r, es)]) (e.withBook r.tickerId b) :=
  h.next (h.accounted.fits hticker hid hfew) (MatchingEngine.processNext_returns Logger.counts_log hticker hcall hrun)

lemma fittingRun_traded : ∃ run e, FittingRun run e ∧ run.map Prod.fst = tradedRequests ∧
    (updates (sent run)).map (fun u => (u.tickerId, u.type)) =
      [(0, .add), (1, .add), (0, .trade), (0, .cancel), (0, .add), (1, .cancel)] := by
  have hbuy := FittingRun.concat .start (r := buyRequest) (by decide) rfl rfl (by decide) (by decide)
  have hask := FittingRun.concat hbuy (r := askRequest) (by decide) rfl rfl (by decide) (by decide)
  have hhit := FittingRun.concat hask (r := hitRequest) (by decide) rfl rfl (by decide) (by decide)
  have hcancel := FittingRun.concat hhit (r := cancelAskRequest) (by decide) rfl rfl (by decide) (by decide)
  refine ⟨_, _, hcancel, rfl, ?_⟩
  decide

/-- Orders of two tickers are added, filled and canceled. -/
theorem downstream_admits_traded : ∃ e es,
    execute (MatchingEngine.processNext Logger.log) .create tradedRequests = .ok (e, es) ∧
      (updates es).map (fun u => (u.tickerId, u.type)) =
        [(0, .add), (1, .add), (0, .trade), (0, .cancel), (0, .add), (1, .cancel)] ∧
      AdmittedAll (updates es) := by
  obtain ⟨run, e, h, hrequests, hupdates⟩ := fittingRun_traded
  rw [← hrequests]
  exact ⟨e, sent run, h.execute_eq, hupdates, downstream_admits h.execute_eq (by simpa using h.never)⟩

end LowLatencyExchange
