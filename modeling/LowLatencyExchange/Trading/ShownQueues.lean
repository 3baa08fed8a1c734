import LowLatencyExchange.Exchange.Refinement
import LowLatencyExchange.MarketData.Mirrored
import LowLatencyExchange.Trading.EngineStream
import LowLatencyExchange.Trading.Isomorphic
import LowLatencyExchange.Trading.SameBook

/-!
# What clients see is what trades

From the requests to the book of a client: the updates that the engine sends for them lead a fresh `MarketOrderBook`
to a book that, read along its links, shows the queues of the requests. The engine's heap holds the queues, and the
client's heap mirrors the engine's.
-/

namespace LowLatencyExchange
open PriceBook LoggedRun

namespace QueueBook

/-- What a client sees of an order. -/
def shown (x : MEOrder) : Price × OrderId × Qty := (x.price, x.ids.marketOrderId, x.qty)

/-- What a client reads off its book, level by level, as one queue. -/
def ofDepth (d : Depth) : List (Price × OrderId × Qty) := d.flatMap fun x => x.2.map fun y => (x.1, y.1, y.2)

def prices (q : QueueBook) : List Price := (q.orders.map BookOrder.price).dedup

/-- An accepted call that leaves no two prices in one slot, and a level pool that is not full. -/
def Shows (q : QueueBook) (call : BookCall) : Prop :=
  q.Accepts call ∧
    match call with
    | .add _ _ _ _ price _ =>
      (∀ x ∈ q.orders, priceToIndex x.price = priceToIndex price → x.price = price) ∧
        q.prices.length + 1 < ME_MAX_PRICE_LEVELS
    | .cancel .. => True

instance (q : QueueBook) (call : BookCall) : Decidable (q.Shows call) :=
  match call with
  | .add .. => inferInstanceAs (Decidable (_ ∧ _ ∧ _))
  | .cancel .. => inferInstanceAs (Decidable (_ ∧ True))

end QueueBook

namespace MarketOrderBook
variable {b b' : MarketBook} {T T' : MarketOrderBook} {u : MEMarketUpdate} {calls : List EngineCall}

/-- The pools have the sizes that the constructor gave them. -/
def FullSize (b : MarketBook) : Prop :=
  b.ordersAtPricePool.size = ME_MAX_PRICE_LEVELS ∧ b.orderPool.size = ME_MAX_ORDER_IDS

lemma FullSize.applyUpdate (h : FullSize b) (htype : u.type ≠ .clear) (hrun : applyUpdate b u = .ok b') :
    FullSize b' := by
  obtain ⟨hlevels, horders⟩ := h
  cases hu : u.type with
  | add =>
    obtain ⟨pool, o, halloc, hadd⟩ := applyUpdate_add_ok hu hrun
    obtain ⟨rfl, -, k, rfl⟩ := MemPool.allocate_eq_ok halloc
    have hf := addOrder_frame hadd
    exact ⟨hf.levelSize.trans hlevels, hf.orderSize.trans horders⟩
  | modify =>
    obtain ⟨o, -, rfl⟩ := applyUpdate_modify_ok hu hrun
    exact ⟨hlevels, horders⟩
  | cancel =>
    obtain ⟨o, -, hremove⟩ := applyUpdate_cancel_ok hu hrun
    have hf := removeOrder_frame hremove
    exact ⟨hf.levelRoom.size.trans hlevels, hf.orderSize.trans horders⟩
  | clear => exact absurd hu htype
  | invalid | trade | snapshotStart | snapshotEnd | other =>
    unfold MarketOrderBook.applyUpdate at hrun
    rw [hu] at hrun
    obtain rfl := Except.ok.inj hrun
    exact ⟨hlevels, horders⟩

lemma FullSize.execute {us : List MEMarketUpdate} (h : FullSize T.book) (hus : ∀ u ∈ us, u.type ≠ .clear)
    (hrun : LoggedRun.execute onMarketUpdate T us = .ok (T', calls)) : FullSize T'.book := by
  induction us generalizing T calls with
  | nil =>
    cases hrun
    exact h
  | cons u us ih =>
    obtain ⟨T₁, calls₁, calls₂, hstep, hrest, -⟩ := LoggedRun.execute_cons_ok hrun
    apply ih _ (fun x hx => hus x (List.mem_cons_of_mem u hx)) hrest
    by_cases htrade : u.type = .trade
    · rw [onMarketUpdate_trade htrade] at hstep
      cases hstep
      exact h
    · exact h.applyUpdate (hus u List.mem_cons_self) (onMarketUpdate_book htrade hstep)

end MarketOrderBook

open QueueBook MEOrderBook MarketOrderBook

section Books
variable {b : MEOrderBook} {c : MarketBook} {sh : Shape} {σ τ : Equiv.Perm Nat} {s : Side}

/-- The mirror image of a well-formed book is well formed. -/
lemma Paired.wellFormed (h : Paired σ τ b.book c) (hwf : b.book.WellFormed sh)
    (hids : ∀ o, b.book.orderPool.Used o → (b.book.order o).ids.marketOrderId < ME_MAX_ORDER_IDS) :
    c.WellFormed (sh.rename σ τ) := by
  apply h.heap.wellFormed hwf
  · intro k q
    rw [h.oids k q]
    apply exists_congr
    intro o
    rw [hwf.orderUsed o]
    rfl
  · intro o ho
    exact decide_eq_true (hids o ((hwf.orderUsed o).mpr ho))

/-- A client whose book mirrors the engine's reads the engine's queue off it. -/
theorem Paired.shows (h : Paired σ τ b.book c) (hwf : b.book.WellFormed sh)
    (hids : ∀ o, b.book.orderPool.Used o → (b.book.order o).ids.marketOrderId < ME_MAX_ORDER_IDS)
    (hs : s.Trading) : ∃ d, readDepth c s = some d ∧
      ofDepth d = (b.waiting sh s).map shown := by
  refine ⟨_, readDepth_wellFormed (h.wellFormed hwf hids) hs, ?_⟩
  rw [ofDepth, Shape.side_rename, waiting_eq, seen, Shape.queue, List.map_map, List.map_map, List.map_flatMap,
    List.flatMap_map]
  apply List.flatMap_congr
  intro l hl
  have hok := (hwf.side s hs).level l hl
  have hprice := h.heap.levelPrice ((hwf.levelUsed l.ptr).mpr (Shape.mem_levelPtrs_of_side hs hl))
  simp only [List.map_map, Function.comp_apply]
  apply List.map_congr_left
  intro o ho
  have hused := (hwf.orderUsed o).mpr (Shape.mem_orders_of_side hs hl ho)
  have horder := hok.orderPrice o ho
  simp only [Function.comp_apply, hprice, h.heap.order o hused, shown]
  exact Prod.ext horder.symm rfl

lemma Paired.orderRoom (h : Paired σ τ b.book c) (hwf : b.book.WellFormed sh) {next : OrderId} (hids : IdsBelow next b)
    (hsize : FullSize c) (hnext : next + 1 < ME_MAX_ORDER_IDS) : c.orderPool.HasRoom := by
  have hcopy := h.wellFormed hwf fun o ho => (hids.below o ho).trans (Nat.lt_of_succ_lt hnext)
  have hnodup : (sh.orders.map fun o => (b.book.order o).ids.marketOrderId).Nodup :=
    hwf.ordersNodup.map_on fun o ho q hq => hids.distinct o q ((hwf.orderUsed o).mpr ho) ((hwf.orderUsed q).mpr hq)
  have hlength : sh.orders.length ≤ next := by
    rw [← List.length_map fun o => (b.book.order o).ids.marketOrderId]
    apply length_le_of_nodup_of_lt hnodup
    intro id hid
    obtain ⟨o, ho, rfl⟩ := List.mem_map.mp hid
    exact hids.below o ((hwf.orderUsed o).mpr ho)
  apply MemPool.hasRoom_of_length fun o ho => (hcopy.orderUsed o).mp ho
  rw [Shape.orders_rename, List.length_map, hsize.2]
  exact (Nat.succ_le_succ hlength).trans_lt hnext

/-- A side has no more levels than prices. -/
lemma Paired.levelRoom (h : Paired σ τ b.book c) (hwf : b.book.WellFormed sh)
    (hids : ∀ o, b.book.orderPool.Used o → (b.book.order o).ids.marketOrderId < ME_MAX_ORDER_IDS) (hsize : FullSize c)
    (hprices : (b.queueBook sh).prices.length + 1 < ME_MAX_PRICE_LEVELS) : c.ordersAtPricePool.HasRoom := by
  have hcopy := h.wellFormed hwf hids
  have hnodup : (sh.levelPtrs.map fun p => (b.book.level p).price).Nodup :=
    hwf.levelsNodup.map_on fun p hp q hq he => hwf.level_ext hp hq (congrArg priceToIndex he)
  have hsub : (sh.levelPtrs.map fun p => (b.book.level p).price) ⊆ (b.queueBook sh).prices := by
    intro price hprice
    obtain ⟨p, hp, rfl⟩ := List.mem_map.mp hprice
    obtain ⟨l, hl, rfl⟩ := List.mem_map.mp hp
    obtain ⟨s, hs, hside⟩ := Shape.mem_levels.mp hl
    obtain ⟨x, hx, hlevel⟩ := exists_waiting_of_level hwf hs hside
    rw [← hlevel, QueueBook.prices, List.mem_dedup]
    apply List.mem_map_of_mem
    rw [QueueBook.mem_orders]
    exact ⟨s, hs, (queue_queueBook b sh hs).symm ▸ hx⟩
  have hlength := (List.subperm_of_subset hnodup hsub).length_le
  rw [List.length_map] at hlength
  apply MemPool.hasRoom_of_length fun p hp => (hcopy.levelUsed p).mp hp
  rw [Shape.levelPtrs_rename, List.length_map, hsize.1]
  exact (Nat.succ_le_succ hlength).trans_lt hprices

end Books

/-- The engine's book holds the queues, and the client's book mirrors it. -/
structure Shown (q : QueueBook) (b : MEOrderBook) (T : MarketOrderBook) : Prop where
  holds : b.Holds q
  ids : IdsBelow b.nextMarketOrderId b
  mirrored : Mirrored b.book T.book
  size : FullSize T.book

section Calls
variable {q : QueueBook} {b b' : MEOrderBook} {T : MarketOrderBook} {call : BookCall} {es : List Event}

/-- No call clears the book. -/
lemma call_clears_nothing (hrun : b.call call = .ok (b', es)) : ∀ u ∈ updates es, u.type ≠ .clear := by
  intro u hu
  cases call with
  | add clientId clientOrderId tickerId side price qty =>
    exact (call_about (r := ⟨.new, clientId, tickerId, clientOrderId, side, price, qty⟩) rfl hrun u hu).2
  | cancel clientId orderId tickerId =>
    exact (call_about (r := { type := .cancel, clientId, tickerId, orderId }) rfl hrun u hu).2

/-- The client takes the updates of a call, and sees the queues after it. -/
theorem Shown.next (h : Shown q b T) (hshows : q.Shows call) (hnext : q.nextMarketOrderId + 1 < ME_MAX_ORDER_IDS)
    (hrun : b.call call = .ok (b', es)) : ∃ T' calls,
      LoggedRun.execute onMarketUpdate T (updates es) = .ok (T', calls) ∧ Shown (q.call call).1 b' T' := by
  obtain ⟨hholds, hids, hmirrored, hsize⟩ := h
  obtain ⟨haccepts, hcall⟩ := hshows
  have hholds' := (hholds.call haccepts hrun).2
  rw [hholds.nextMarketOrderId] at hnext
  obtain ⟨sh, hwf, rfl⟩ := hholds
  obtain ⟨σ, τ, hpaired, -, -⟩ := hmirrored.paired hwf
  have hmax : ∀ o, b.book.orderPool.Used o → (b.book.order o).ids.marketOrderId < ME_MAX_ORDER_IDS :=
    fun o ho => (hids.below o ho).trans (Nat.lt_of_succ_lt hnext)
  have hcarried : (∃ T' calls, LoggedRun.execute onMarketUpdate T (updates es) = .ok (T', calls) ∧
      Mirrored b'.book T'.book) ∧ IdsBelow b'.nextMarketOrderId b' := by
    cases call with
    | add clientId clientOrderId tickerId side price qty =>
      obtain ⟨hs, hin, hfresh, -⟩ := haccepts
      obtain ⟨hslots, hprices⟩ := hcall
      have hfree : PriceFree b price := by
        intro o ho
        exact hslots (b.book.order o).unlinked (mem_queueBook.mpr ⟨o, (hwf.orderUsed o).mp ho, rfl⟩)
      obtain ⟨⟨T', calls, hexec, hmirrored', -⟩, hids'⟩ := add_carried hwf hids hmirrored (Nat.lt_of_succ_lt hnext)
        (hpaired.orderRoom hwf hids hsize hnext) (hpaired.levelRoom hwf hmax hsize hprices) hs hin
        (keyFree_of_queueBook hwf hfresh) hfree hrun
      exact ⟨⟨T', calls, hexec, hmirrored'⟩, hids'⟩
    | cancel clientId orderId tickerId =>
      obtain ⟨⟨T', calls, hexec, hmirrored', -⟩, hids'⟩ := cancel_carried hwf hids hmirrored hmax hrun
      exact ⟨⟨T', calls, hexec, hmirrored'⟩, hids'⟩
  obtain ⟨⟨T', calls, hexec, hmirrored'⟩, hids'⟩ := hcarried
  exact ⟨T', calls, hexec, hholds', hids', hmirrored', hsize.execute (call_clears_nothing hrun) hexec⟩

lemma shown_create (tickerId : TickerId) :
    Shown QueueBook.create (MEOrderBook.create tickerId) (MarketOrderBook.create tickerId) where
  holds := holds_create tickerId
  ids := ⟨fun _ _ ho => absurd ho (MemPool.not_used_create _ _ _), fun _ ho => absurd ho (MemPool.not_used_create _ _ _)⟩
  mirrored := mirrored_create tickerId tickerId
  size := ⟨rfl, rfl⟩

/-- What a client reads that has taken the updates of the calls so far. -/
lemma Shown.reads (h : Shown q b T) (hnext : q.nextMarketOrderId ≤ ME_MAX_ORDER_IDS) {s : Side} (hs : s.Trading) :
    ∃ d, readDepth T.book s = some d ∧ ofDepth d = (q.queue s).map shown := by
  obtain ⟨hholds, hids, hmirrored, -⟩ := h
  rw [hholds.nextMarketOrderId] at hnext
  obtain ⟨sh, hwf, rfl⟩ := hholds
  obtain ⟨σ, τ, hpaired, -, -⟩ := hmirrored.paired hwf
  rw [queue_queueBook b sh hs]
  exact hpaired.shows hwf (fun o ho => (hids.below o ho).trans_le hnext) hs

end Calls

/-- The call that a request is on the book of a ticker. -/
def callOn (t : TickerId) (r : MEClientRequest) : Option BookCall :=
  if r.tickerId = t then (MatchingEngine.bookCall r).toOption else none

def callsOn (t : TickerId) (run : List (MEClientRequest × List Event)) : List BookCall :=
  run.filterMap fun x => callOn t x.1

/-- The queues of a ticker after the requests of a run. -/
def queuesOf (t : TickerId) (run : List (MEClientRequest × List Event)) : QueueBook := (QueueBook.after (callsOn t run)).1

/-- The runs of a fresh engine over requests for any tickers, with calls on one of its books that clients can follow. -/
def ShownRun (log : Log) (t : TickerId) : List (MEClientRequest × List Event) → MatchingEngine → Prop :=
  Reached (MatchingEngine.processNext log) (fun past _ r _ => ∀ call ∈ callOn t r, (queuesOf t past).Shows call)
    MatchingEngine.create

section Runs
variable {log : Log} {t : TickerId} {run : List (MEClientRequest × List Event)} {e e' : MatchingEngine}
  {r : MEClientRequest} {es : List Event}

lemma callsOn_concat (t : TickerId) (run : List (MEClientRequest × List Event)) (r : MEClientRequest) (es : List Event) :
    callsOn t (run ++ [(r, es)]) = callsOn t run ++ (callOn t r).toList := by
  unfold callsOn
  rw [List.filterMap_append, List.filterMap_cons, List.filterMap_nil]
  cases callOn t r with
  | none => rfl
  | some call => rfl

/-- A client has taken all updates of the ticker, and sees the queues. -/
def Informed (t : TickerId) (run : List (MEClientRequest × List Event)) (e : MatchingEngine) : Prop :=
  ∃ T calls, LoggedRun.execute onMarketUpdate (MarketOrderBook.create t)
    ((updates (sent run)).filter fun u => u.tickerId = t) = .ok (T, calls) ∧
      Shown (queuesOf t run) (e.tickerOrderBook t) T

/-- The updates of a request bring the client to the queues after it. -/
lemma Informed.request (h : Informed t run e) (hshows : ∀ call ∈ callOn t r, (queuesOf t run).Shows call)
    (hcount : (callsOn t (run ++ [(r, es)])).length + 1 < ME_MAX_ORDER_IDS) (hrun : e.processNext log r = .ok (e', es)) :
    Informed t (run ++ [(r, es)]) e' := by
  obtain ⟨T, calls, hexec, hshown⟩ := h
  obtain ⟨call, orderBook, -, hcall, hbook, hengine⟩ := MatchingEngine.processNext_cases hrun
  have habout := call_about hcall hbook
  rw [callsOn_concat] at hcount
  unfold Informed queuesOf
  rw [callsOn_concat, sent_append, sent_singleton, updates_append, List.filter_append]
  by_cases hticker : r.tickerId = t
  · subst hticker
    have hown : callOn r.tickerId r = some call := by
      unfold callOn
      rw [if_pos rfl, hcall]
      rfl
    rw [hown, Option.toList_some] at hcount ⊢
    rw [List.length_append, List.length_singleton] at hcount
    have hnext := nextMarketOrderId_after (callsOn r.tickerId run)
    have hafter : e'.tickerOrderBook r.tickerId = orderBook := by
      rw [hengine]
      exact Function.update_self _ _ _
    have hall : (updates es).filter (fun u => u.tickerId = r.tickerId) = updates es :=
      List.filter_eq_self.mpr fun u hu => decide_eq_true (habout u hu).1
    obtain ⟨T', calls', hexec', hshown'⟩ := hshown.next (hshows call hown) ((Nat.succ_le_succ hnext).trans_lt hcount) hbook
    rw [hall, hafter]
    refine ⟨T', calls ++ calls', LoggedRun.execute_append hexec hexec', ?_⟩
    unfold QueueBook.after
    rw [replay_append]
    exact hshown'
  · have hother : callOn t r = none := if_neg hticker
    have hsame : e'.tickerOrderBook t = e.tickerOrderBook t := by
      rw [hengine]
      exact Function.update_of_ne (Ne.symm hticker) _ _
    have hnone : (updates es).filter (fun u => u.tickerId = t) = [] := by
      apply List.filter_eq_nil_iff.mpr
      intro u hu he
      exact hticker ((habout u hu).1.symm.trans (of_decide_eq_true he))
    rw [hnone, hsame, hother, Option.toList_none, List.append_nil, List.append_nil]
    exact ⟨T, calls, hexec, hshown⟩

lemma ShownRun.informed (h : ShownRun log t run e) (hcount : (callsOn t run).length + 1 < ME_MAX_ORDER_IDS) :
    Informed t run e := by
  apply h.invariant (fun run e => (callsOn t run).length + 1 < ME_MAX_ORDER_IDS → Informed t run e) _ _ hcount
  · intro _
    exact ⟨_, [], rfl, shown_create t⟩
  · intro past e r e' es ih hshows hrun hcount
    have hbefore : (callsOn t past).length + 1 < ME_MAX_ORDER_IDS := by
      rw [callsOn_concat, List.length_append] at hcount
      omega
    exact (ih hbefore).request hshows hcount hrun

/-- Whatever the requests for other tickers are: a client that takes the engine's updates of its ticker into a fresh
book completes each, and reads off the book, on either side, the orders of the queue that the requests lead to, best
price first and oldest first at a price. -/
theorem clients_see_queues (h : ShownRun log t run e) (hcount : (callsOn t run).length + 1 < ME_MAX_ORDER_IDS) :
    ∃ T calls, LoggedRun.execute onMarketUpdate (MarketOrderBook.create t)
        ((updates (sent run)).filter fun u => u.tickerId = t) = .ok (T, calls) ∧
      (e.tickerOrderBook t).Holds (queuesOf t run) ∧
      ∀ s : Side, s.Trading → ∃ d, readDepth T.book s = some d ∧ ofDepth d = ((queuesOf t run).queue s).map shown := by
  obtain ⟨T, calls, hexec, hshown⟩ := h.informed hcount
  have hnext : (queuesOf t run).nextMarketOrderId ≤ ME_MAX_ORDER_IDS := (nextMarketOrderId_after _).trans hcount.le
  exact ⟨T, calls, hexec, hshown.holds, fun s hs => hshown.reads hnext hs⟩

lemma ShownRun.concat (h : ShownRun Logger.log t run e) (hshows : ∀ call ∈ callOn t r, (queuesOf t run).Shows call)
    (hticker : r.tickerId < ME_MAX_TICKERS) {call : BookCall} (hcall : MatchingEngine.bookCall r = .ok call)
    {orderBook : MEOrderBook} (hrun : (e.tickerOrderBook r.tickerId).call call = .ok (orderBook, es)) :
    ShownRun Logger.log t (run ++ [(r, es)])
      { e with tickerOrderBook := Function.update e.tickerOrderBook r.tickerId orderBook } :=
  h.next hshows (MatchingEngine.processNext_returns Logger.counts_log hticker hcall hrun)

end Runs

def sellRequest : MEClientRequest :=
  { type := .new, clientId := 1, tickerId := 0, orderId := 1, side := .sell, price := 100, qty := 1 }

def otherRequest : MEClientRequest :=
  { type := .new, clientId := 1, tickerId := 1, orderId := 1, side := .sell, price := 356, qty := 1 }

def crossingRequest : MEClientRequest :=
  { type := .new, clientId := 2, tickerId := 0, orderId := 1, side := .buy, price := 101, qty := 2 }

lemma crossing_shownRun : ∃ run e, ShownRun Logger.log 0 run e ∧
    run.map Prod.fst = [sellRequest, otherRequest, crossingRequest] ∧
    callsOn 0 run = [.add 1 1 0 .sell 100 1, .add 2 1 0 .buy 101 2] := by
  have hsell : ShownRun Logger.log 0 _ _ := ShownRun.concat .start (r := sellRequest) (fun call hcall => by
    cases hcall
    decide) (by decide) rfl rfl
  have hother := hsell.concat (r := otherRequest) (fun call hcall => by cases hcall) (by decide) rfl rfl
  have hcrossing := hother.concat (r := crossingRequest) (fun call hcall => by
    cases hcall
    decide) (by decide) rfl rfl
  exact ⟨_, _, hcrossing, rfl, rfl⟩

/-- The client of ticker 0 sees the rest of the buy, and no sell. -/
theorem clients_see_queues_crossing : ∃ run e T calls, ShownRun Logger.log 0 run e ∧
    run.map Prod.fst = [sellRequest, otherRequest, crossingRequest] ∧
    LoggedRun.execute onMarketUpdate (MarketOrderBook.create 0)
      ((updates (sent run)).filter fun u => u.tickerId = 0) = .ok (T, calls) ∧
    (∃ d, readDepth T.book .buy = some d ∧ ofDepth d = [(101, 2, 1)]) ∧
      ∃ d, readDepth T.book .sell = some d ∧ ofDepth d = [] := by
  obtain ⟨run, e, h, hrequests, hcalls⟩ := crossing_shownRun
  obtain ⟨T, calls, hexec, -, hreads⟩ := clients_see_queues h (by rw [hcalls]; decide)
  unfold queuesOf at hreads
  rw [hcalls] at hreads
  exact ⟨run, e, T, calls, h, hrequests, hexec, hreads .buy (.inl rfl), hreads .sell (.inr rfl)⟩

end LowLatencyExchange
