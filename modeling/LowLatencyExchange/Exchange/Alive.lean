import LowLatencyExchange.Exchange.Destinations
import LowLatencyExchange.Exchange.Intake
import LowLatencyExchange.Exchange.Remainder

/-!
# What the exchange survives

Which actions go through can be told from the state before them, in every run that has kept the
books intact. A read goes through when its records fit the sessions, a request when the engine has a
book for its ticker and the book takes the call.
-/

namespace LowLatencyExchange
open ByteStream LoggedRun

namespace MatchingEngine
variable {e e' : MatchingEngine} {r : MEClientRequest}

def Intact (e : MatchingEngine) : Prop := ∀ t, ∃ rings ladders, (e.tickerOrderBook t).book.Intact rings ladders

/-- The requests that the engine gets through. -/
def Takes (e : MatchingEngine) (r : MEClientRequest) : Prop :=
  r.tickerId < ME_MAX_TICKERS ∧ ∃ call, bookCall r = .ok call ∧ (e.tickerOrderBook r.tickerId).Takes call

/-- The requests that leave the books intact. -/
def Keeps (e : MatchingEngine) (r : MEClientRequest) : Prop :=
  ∀ call, bookCall r = .ok call → (e.tickerOrderBook r.tickerId).Keeps call

/-- A request for a client, a ticker or an order that the engine does not have. -/
def Unknown (e : MatchingEngine) (r : MEClientRequest) : Prop :=
  ME_MAX_NUM_CLIENTS ≤ r.clientId ∨ ME_MAX_TICKERS ≤ r.tickerId ∨
    (r.type = .cancel ∧ (e.tickerOrderBook r.tickerId).book.orderTable (r.clientId, r.orderId) = none)

lemma intact_create : create.Intact := fun t => ⟨_, _, MEOrderBook.intact_create t⟩

theorem processNext_iff (h : e.Intact) (r : MEClientRequest) :
    (∃ e' es, e.processNext Logger.log r = .ok (e', es)) ↔ e.Takes r := by
  obtain ⟨rings, ladders, hbook⟩ := h r.tickerId
  constructor
  · rintro ⟨e', es, hrun⟩
    obtain ⟨call, orderBook, hticker, hcall, hrun, -⟩ := processNext_cases hrun
    exact ⟨hticker, call, hcall, (MEOrderBook.call_returns_iff hbook call).mp ⟨orderBook, es, hrun⟩⟩
  · rintro ⟨hticker, call, hcall, htakes⟩
    obtain ⟨orderBook, es, hrun⟩ := (MEOrderBook.call_returns_iff hbook call).mpr htakes
    exact ⟨_, _, processNext_returns Logger.counts_log hticker hcall hrun⟩

lemma Intact.processNext (h : e.Intact) (hkeeps : e.Keeps r) {log : Log} {es : List Event}
    (hrun : e.processNext log r = .ok (e', es)) : e'.Intact := by
  obtain ⟨call, orderBook, -, hcall, hbookRun, rfl⟩ := processNext_cases hrun
  obtain ⟨rings, ladders, hbook⟩ := h r.tickerId
  intro t
  by_cases ht : t = r.tickerId
  · simp only [ht, Function.update_self]
    exact MEOrderBook.call_intact hbook (hkeeps call hcall) hbookRun
  · simp only [Function.update_of_ne ht]
    exact h t

/-- A request that is not for the engine changes no book. Its client is in range, since the order
server has passed it on. -/
lemma processNext_unknown {log : Log} {es : List Event} (hclient : r.clientId < ME_MAX_NUM_CLIENTS)
    (hunknown : e.Unknown r) (hrun : e.processNext log r = .ok (e', es)) : e'.tickerOrderBook = e.tickerOrderBook := by
  obtain ⟨call, orderBook, hticker, hcall, hbookRun, rfl⟩ := processNext_cases hrun
  rcases hunknown with hout | hout | ⟨htype, hnone⟩
  · exact absurd hclient (Nat.not_lt.mpr hout)
  · exact absurd hticker (Nat.not_lt.mpr hout)
  · have hcancel : call = .cancel r.clientId r.orderId r.tickerId := by
      simp only [bookCall, htype] at hcall
      exact (Except.ok.inj hcall).symm
    subst hcancel
    rcases MEOrderBook.cancel_cases hbookRun with ⟨-, rfl, -⟩ | ⟨o, book, hkey, -⟩
    · exact Function.update_eq_self _ _
    · rw [hnone] at hkey
      cases hkey

end MatchingEngine

namespace Exchange

/-- The actions that go through. -/
def Harmless (s : Exchange) : ExchangeAction → Prop
  | .sendAndRecv socket data _ _ => data ≠ [] → s.orderServer.RecordsFit socket
      (frames OMClientRequest.packed.sizeof ((s.orderServer.sockets socket).inboundData ++ data))
  | .processRequest => ∀ r ∈ s.clientRequests.head?, s.matchingEngine.Takes r
  | _ => True

/-- The actions that leave the books intact. -/
def Keeps (s : Exchange) : ExchangeAction → Prop
  | .processRequest => ∀ r ∈ s.clientRequests.head?, s.matchingEngine.Keeps r
  | _ => True

/-- The action goes through, and no book changes unless it processes a request that the engine
knows. -/
def Survives (std : StdSort) (s : Exchange) (a : ExchangeAction) : Prop :=
  ∃ s' es, s.step std Logger.log a = .ok (s', es) ∧
    ((a = .processRequest → ∀ r ∈ s.clientRequests.head?, s.matchingEngine.Unknown r) →
      s'.matchingEngine.tickerOrderBook = s.matchingEngine.tickerOrderBook)

variable {std : StdSort} {log : Log} {s s' : Exchange} {run : List (ExchangeAction × List ExchangeEvent)}

/-- Only the engine changes books. -/
lemma step_engine {a : ExchangeAction} {es : List ExchangeEvent} (hrun : s.step std log a = .ok (s', es)) :
    s'.matchingEngine = s.matchingEngine ∨
    (a = .processRequest ∧ ∃ r emitted, s.clientRequests.head? = some r ∧
      s.matchingEngine.processNext log r = .ok (s'.matchingEngine, emitted)) := by
  cases a with
  | sendAndRecv socket data kernelTime userTime =>
    obtain ⟨server, es', -, -, rfl⟩ := stepServer_cases hrun
    exact .inl rfl
  | recvFinished =>
    obtain ⟨server, es', -, -, rfl⟩ := stepServer_cases hrun
    exact .inl rfl
  | sendResponse =>
    left
    simp only [Exchange.step] at hrun
    split at hrun
    · cases hrun
      rfl
    · obtain ⟨server, es', -, -, rfl⟩ := stepServer_cases hrun
      rfl
  | processRequest =>
    simp only [Exchange.step] at hrun
    split at hrun
    · cases hrun
      exact .inl rfl
    · rename_i r rest hqueue
      obtain ⟨⟨engine, emitted⟩, hengine, hrun⟩ := bind_eq_ok hrun
      cases hrun
      exact .inr ⟨rfl, r, emitted, by rw [hqueue, List.head?_cons], hengine⟩

lemma Keeps.intact (h : s.matchingEngine.Intact) {a : ExchangeAction} (hkeeps : s.Keeps a) {es : List ExchangeEvent}
    (hrun : s.step std log a = .ok (s', es)) : s'.matchingEngine.Intact := by
  rcases step_engine hrun with hsame | ⟨rfl, r, emitted, hhead, hengine⟩
  · rwa [hsame]
  · exact h.processNext (hkeeps r hhead) hengine

lemma recvFinished_returns (h : s.Traceable std log run) : ∃ s' es, s.step std log .recvFinished = .ok (s', es) := by
  obtain ⟨-, added, hholds, -⟩ := h.server.invariant
  obtain ⟨fifoSequencer, written, hsequence, -⟩ := hholds.sequenceAndPublish std
  refine stepServer_iff.mpr ⟨{ s.orderServer with fifoSequencer := fifoSequencer }, written.map .published, ?_⟩
  have hfinished : s.orderServer.recvFinishedCallback (FIFOSequencer.sequencer std) =
      .ok ({ s.orderServer with fifoSequencer := fifoSequencer }, written) := by
    simp only [OrderServer.recvFinishedCallback, FIFOSequencer.sequencer, hsequence, ok_bind, pure_eq_ok]
  rw [OrderServer.step, hfinished, ok_bind]
  rfl

theorem step_iff (h : s.Traceable std Logger.log run) (hintact : s.matchingEngine.Intact) (a : ExchangeAction) :
    (∃ s' es, s.step std Logger.log a = .ok (s', es)) ↔ s.Harmless a := by
  cases a with
  | sendAndRecv socket data kernelTime userTime =>
    rw [Harmless, ← OrderServer.sendAndRecv_iff std h.server.ready socket data kernelTime userTime,
      Exchange.step, stepServer_iff]
    constructor
    · rintro ⟨server, es, hserver⟩
      obtain ⟨⟨server', handled⟩, hrecv, -⟩ := bind_eq_ok hserver
      exact ⟨server', handled, hrecv⟩
    · rintro ⟨server, handled, hrecv⟩
      exact ⟨server, _, by rw [OrderServer.step, hrecv, ok_bind]; rfl⟩
  | recvFinished => exact iff_of_true (recvFinished_returns h) trivial
  | sendResponse => exact iff_of_true (h.sendResponse_returns Logger.counts_log) trivial
  | processRequest =>
    simp only [Exchange.step, Harmless]
    split
    · rename_i hqueue
      rw [hqueue]
      exact iff_of_true ⟨s, [], rfl⟩ fun r hr => by cases hr
    · rename_i r rest hqueue
      rw [hqueue, List.head?_cons]
      have htakes : (∀ x ∈ some r, s.matchingEngine.Takes x) ↔ s.matchingEngine.Takes r := by simp
      rw [htakes, ← MatchingEngine.processNext_iff hintact]
      constructor
      · rintro ⟨s', es, hrun⟩
        obtain ⟨⟨engine, emitted⟩, hengine, -⟩ := bind_eq_ok hrun
        exact ⟨engine, emitted, hengine⟩
      · rintro ⟨engine, emitted, hengine⟩
        exact ⟨_, _, by rw [hengine, ok_bind]; rfl⟩

/-- What goes through leaves the books alone where it is not for the engine. -/
theorem survives_iff (h : s.Traceable std Logger.log run) (hintact : s.matchingEngine.Intact) (a : ExchangeAction) :
    s.Survives std a ↔ s.Harmless a := by
  rw [← step_iff h hintact a]
  constructor
  · rintro ⟨s', es, hrun, -⟩
    exact ⟨s', es, hrun⟩
  · rintro ⟨s', es, hrun⟩
    refine ⟨s', es, hrun, fun hunknown => ?_⟩
    rcases step_engine hrun with hsame | ⟨rfl, r, emitted, hhead, hengine⟩
    · rw [hsame]
    · have hclient := ((h.incoming r (List.mem_of_head? hhead)).socket h).1
      exact MatchingEngine.processNext_unknown hclient (hunknown rfl r hhead) hengine

end Exchange

/-- The runs that keep the books intact. -/
abbrev OrderlyRun (std : StdSort) (run : List (ExchangeAction × List ExchangeEvent)) (s : Exchange) : Prop :=
  Reached (Exchange.step std Logger.log) (fun _ s a _ => s.Keeps a) Exchange.create run s

lemma OrderlyRun.intact {std : StdSort} {run : List (ExchangeAction × List ExchangeEvent)} {s : Exchange}
    (h : OrderlyRun std run s) : s.matchingEngine.Intact := by
  apply Reached.invariant h (fun _ s => s.matchingEngine.Intact) MatchingEngine.intact_create
  intro run s a s' es hintact hkeeps hrun
  exact hkeeps.intact hintact hrun

/-- In every run that keeps the books intact, the exchange survives just the harmless actions: reads
whose records fit the sessions, and requests that the engine takes. -/
theorem exchange_survives_iff {std : StdSort} {run : List (ExchangeAction × List ExchangeEvent)} {s : Exchange}
    (h : OrderlyRun std run s) (a : ExchangeAction) : s.Survives std a ↔ s.Harmless a :=
  Exchange.survives_iff (ExchangeRun.traceable (h.mono fun _ _ _ _ _ => trivial)) h.intact a

/-- A client's request, read, published and processed. -/
def requestTraffic (seqNum : Nat) (r : MEClientRequest) : List ExchangeAction :=
  [.sendAndRecv 0 (OMClientRequest.packed.encode ⟨seqNum, r⟩) 10 11, .recvFinished, .processRequest]

/-- A number that is not expected, and a client, a ticker, an order id and a type that do not exist. -/
def fatalTraffic : List (List ExchangeAction) :=
  [requestTraffic 2 { type := .cancel, clientId := 3, tickerId := 0, orderId := 7 },
    requestTraffic 1 { type := .cancel, clientId := 256, tickerId := 0, orderId := 7 },
    requestTraffic 1 { type := .cancel, clientId := 3, tickerId := 8, orderId := 7 },
    requestTraffic 1 { type := .cancel, clientId := 3, tickerId := 0, orderId := 1048576 },
    requestTraffic 1 { type := .invalid, clientId := 3, tickerId := 0, orderId := 7 }]

/-- Each of these requests ends the process of a fresh exchange. -/
theorem exchange_survives_fails :
    fatalTraffic.map (errorOf (Exchange.step .merge Logger.log) Exchange.create) =
      [some (.fatal "Extra args provided to log()"), some .outOfRange, some .outOfRange, some .outOfRange,
        some (.fatal "Received invalid client-request-type:INVALID")] ∧
    ∀ as ∈ fatalTraffic, ∃ run s a, ExchangeRun .merge Logger.log run s ∧ a ∈ as ∧ ¬s.Survives .merge a := by
  have hfaults : fatalTraffic.map (errorOf (Exchange.step .merge Logger.log) Exchange.create) =
      [some (.fatal "Extra args provided to log()"), some .outOfRange, some .outOfRange, some .outOfRange,
        some (.fatal "Received invalid client-request-type:INVALID")] := by decide +kernel
  refine ⟨hfaults, fun as has => ?_⟩
  have hmem := List.mem_map_of_mem (f := errorOf (Exchange.step .merge Logger.log) Exchange.create) has
  obtain ⟨e, he⟩ : ∃ e, errorOf (Exchange.step .merge Logger.log) Exchange.create as = some e := by
    rw [hfaults] at hmem
    simp only [List.mem_cons, List.not_mem_nil, or_false] at hmem
    rcases hmem with he | he | he | he | he <;> exact ⟨_, he⟩
  obtain ⟨past, a, later, s, es, rfl, hpast, herror⟩ := errorOf_eq_some he
  obtain ⟨run, hreached, -, -⟩ := reached_execute (fun _ _ _ _ _ => trivial) .start hpast
  refine ⟨_, s, a, hreached, by simp, ?_⟩
  rintro ⟨s', es', hrun, -⟩
  rw [herror] at hrun
  cases hrun

def newRequest : MEClientRequest :=
  { type := .new, clientId := 3, tickerId := 0, orderId := 7, side := .buy, price := 100, qty := 10 }

def newTraffic : List ExchangeAction :=
  [.sendAndRecv 0 (OMClientRequest.packed.encode ⟨1, newRequest⟩) 10 11, .recvFinished]

/-- A new order is published to a fresh engine, which goes on to process it. -/
theorem exchange_survives_new : ∃ run s, OrderlyRun .merge run s ∧ run.map Prod.fst = newTraffic ∧
    s.clientRequests = [newRequest] ∧ s.Survives .merge .processRequest := by
  have hqueue : ((execute (Exchange.step .merge Logger.log) Exchange.create newTraffic).toOption.map
      fun x => x.1.clientRequests) = some [newRequest] := by decide +kernel
  cases hrun : execute (Exchange.step .merge Logger.log) Exchange.create newTraffic with
  | error e =>
    rw [hrun] at hqueue
    cases hqueue
  | ok x =>
    rw [hrun] at hqueue
    have hclientRequests : x.1.clientRequests = [newRequest] := Option.some.inj hqueue
    obtain ⟨s₁, es₁, es₂, hfirst, hrest, -⟩ := execute_cons_ok hrun
    have hsecond := execute_singleton hrest
    have hkeeps : s₁.Keeps .recvFinished := trivial
    have hreached : OrderlyRun .merge _ x.1 := (Reached.start.next trivial hfirst).next hkeeps hsecond
    refine ⟨_, x.1, hreached, rfl, hclientRequests, (exchange_survives_iff hreached .processRequest).mpr ?_⟩
    have hengine : x.1.matchingEngine = MatchingEngine.create := by
      rcases Exchange.step_engine hsecond with hsame | ⟨hcontra, -⟩
      · rcases Exchange.step_engine hfirst with hsame' | ⟨hcontra, -⟩
        · exact hsame.trans hsame'
        · cases hcontra
      · cases hcontra
    intro r hr
    rw [hclientRequests, List.head?_cons] at hr
    obtain rfl := Option.some.inj hr
    rw [hengine]
    refine ⟨by decide, _, rfl, fun _ => ⟨by decide, by decide, .inl ?_, fun _ => .inl ?_⟩⟩
    · exact ⟨1, by decide, by decide, by decide⟩
    · exact ⟨1, by decide, by decide, by decide⟩

end LowLatencyExchange
