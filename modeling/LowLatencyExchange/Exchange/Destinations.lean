import LowLatencyExchange.Exchange.MatchingEngine
import LowLatencyExchange.Exchange.Sessions

/-!
# Where the responses go

The order server and the matching engine with the two rings between them. A response names a
client whose requests came from one socket, and that socket is the one it is sent on.
-/

namespace LowLatencyExchange
open ByteStream LoggedRun

/-- The order server's thread, the matching engine's thread, and the two rings as queues that lose nothing. The
`LFQueue`s have 262144 slots each, and do not check that a slot has been read before it is written again. -/
structure Exchange where
  orderServer : OrderServer FIFOSequencer
  clientRequests : List MEClientRequest
  matchingEngine : MatchingEngine
  clientResponses : List MEClientResponse

inductive ExchangeAction
  | sendAndRecv (socket : Nat) (data : List UInt8) (kernelTime userTime : Nanos)
  | recvFinished
  | sendResponse
  | processRequest

/-- What a step did: a step of the order server, or a request that the engine processed. -/
inductive ExchangeEvent
  | server (action : ServerAction) (es : List ServerEvent)
  | engine (request : MEClientRequest) (es : List Event)

namespace Exchange

def create : Exchange where
  orderServer := OrderServer.create {}
  clientRequests := []
  matchingEngine := MatchingEngine.create
  clientResponses := []

/-- A step of the order server. What its sequencer published goes to the ring of requests. -/
def stepServer (std : StdSort) (log : Log) (s : Exchange) (action : ServerAction) :
    Except Fault (Exchange × List ExchangeEvent) := do
  let (orderServer, es) ← s.orderServer.step (FIFOSequencer.sequencer std) log action
  pure ({ s with
    orderServer := orderServer
    clientRequests := s.clientRequests ++ es.filterMap ServerEvent.published? }, [.server action es])

/-- Reading from an empty ring does nothing. -/
def step (std : StdSort) (log : Log) (s : Exchange) : ExchangeAction → Except Fault (Exchange × List ExchangeEvent)
  | .sendAndRecv socket data kernelTime userTime => s.stepServer std log (.sendAndRecv socket data kernelTime userTime)
  | .recvFinished => s.stepServer std log .recvFinished
  | .sendResponse =>
    match s.clientResponses with
    | [] => pure (s, [])
    | clientResponse :: rest =>
      { s with clientResponses := rest }.stepServer std log (.sendResponse clientResponse)
  | .processRequest =>
    match s.clientRequests with
    | [] => pure (s, [])
    | request :: rest => do
      let (matchingEngine, es) ← s.matchingEngine.processNext log request
      pure ({ s with
        clientRequests := rest
        matchingEngine := matchingEngine
        clientResponses := s.clientResponses ++ responses es }, [.engine request es])

end Exchange

namespace ExchangeEvent

def server? : ExchangeEvent → Option (ServerAction × List ServerEvent)
  | .server action es => some (action, es)
  | .engine _ _ => none

end ExchangeEvent

/-- The order server's part of a run. -/
def serverRun (run : List (ExchangeAction × List ExchangeEvent)) : List (ServerAction × List ServerEvent) :=
  (sent run).filterMap ExchangeEvent.server?

/-- The records that the order server has handled in a run. -/
def handled (run : List (ExchangeAction × List ExchangeEvent)) : List HandledRecord :=
  handledRecords (sent (serverRun run))

lemma serverRun_append (run run' : List (ExchangeAction × List ExchangeEvent)) :
    serverRun (run ++ run') = serverRun run ++ serverRun run' := by
  rw [serverRun, sent_append, List.filterMap_append]
  rfl

lemma handled_append (run run' : List (ExchangeAction × List ExchangeEvent)) :
    handled (run ++ run') = handled run ++ handled run' := by
  rw [handled, serverRun_append, sent_append, handledRecords_append]
  rfl

/-- A client with a request that was passed on to the sequencer. -/
def Accepted (run : List (ExchangeAction × List ExchangeEvent)) (c : ClientId) : Prop :=
  ∃ r ∈ passedRequests (handled run), r.clientId = c

lemma Accepted.append {run : List (ExchangeAction × List ExchangeEvent)} {c : ClientId} (h : Accepted run c)
    (run' : List (ExchangeAction × List ExchangeEvent)) : Accepted (run ++ run') c := by
  obtain ⟨r, hr, hc⟩ := h
  refine ⟨r, ?_, hc⟩
  rw [handled_append, passedRequests_append]
  exact List.mem_append_left _ hr

/-- A run of the exchange from its initial state, over any traffic and in any interleaving. -/
abbrev ExchangeRun (std : StdSort) (log : Log) (run : List (ExchangeAction × List ExchangeEvent)) (s : Exchange) : Prop :=
  Reached (Exchange.step std log) (fun _ _ _ _ => True) Exchange.create run s

namespace Exchange
variable {std : StdSort} {log : Log} {s s' : Exchange} {run : List (ExchangeAction × List ExchangeEvent)}

/-- Where the client ids of a run come from. -/
structure Traceable (std : StdSort) (log : Log) (run : List (ExchangeAction × List ExchangeEvent)) (s : Exchange) :
    Prop where
  server : ServerRun std log (serverRun run) s.orderServer
  incoming : ∀ r ∈ s.clientRequests, Accepted run r.clientId
  books : ∀ t, (s.matchingEngine.tickerOrderBook t).OwnedBy (Accepted run)
  outgoing : ∀ r ∈ s.clientResponses, Accepted run r.clientId

/-- What the order server publishes was passed to its sequencer before. -/
lemma mem_published {action : ServerAction} {es : List ServerEvent} {serverRun : List (ServerAction × List ServerEvent)}
    {server server' : OrderServer FIFOSequencer} (h : ServerRun std log serverRun server)
    (hrun : server.step (FIFOSequencer.sequencer std) log action = .ok (server', es)) :
    ∀ r ∈ es.filterMap ServerEvent.published?, r ∈ passedRequests (handledRecords (sent serverRun)) := by
  intro r hr
  cases action with
  | sendAndRecv socket data kernelTime userTime =>
    obtain ⟨⟨s₁, more⟩, -, hrun⟩ := bind_eq_ok hrun
    cases hrun
    rw [published_handled] at hr
    exact absurd hr List.not_mem_nil
  | recvFinished =>
    obtain ⟨⟨s₁, written⟩, hfinished, hrun⟩ := bind_eq_ok hrun
    cases hrun
    obtain ⟨⟨fifoSequencer, published⟩, hsequence, hfinished⟩ := bind_eq_ok hfinished
    cases hfinished
    rw [published_published] at hr
    obtain ⟨added, hholds, hadded⟩ := h.invariant.2
    obtain ⟨q, w, hkeeps, -, hperm⟩ := hholds.sequenceAndPublish std
    have hq : (q, w) = (fifoSequencer, written) := Except.ok.inj (hkeeps.symm.trans hsequence)
    cases hq
    rw [← hadded]
    exact hperm.mem_iff.mp hr
  | sendResponse clientResponse =>
    obtain ⟨s₁, -, hrun⟩ := bind_eq_ok hrun
    cases hrun
    exact absurd hr List.not_mem_nil

lemma stepServer_cases {action : ServerAction} {es : List ExchangeEvent}
    (hrun : s.stepServer std log action = .ok (s', es)) :
    ∃ server es', s.orderServer.step (FIFOSequencer.sequencer std) log action = .ok (server, es') ∧
      es = [.server action es'] ∧
      s' = { s with
        orderServer := server
        clientRequests := s.clientRequests ++ es'.filterMap ServerEvent.published? } := by
  obtain ⟨⟨server, es'⟩, hserver, hrun⟩ := bind_eq_ok hrun
  cases hrun
  exact ⟨server, es', hserver, rfl, rfl⟩

/-- What a step of the order server returns, the exchange goes on with. -/
lemma stepServer_iff {action : ServerAction} :
    (∃ s' es, s.stepServer std log action = .ok (s', es)) ↔
      ∃ server es, s.orderServer.step (FIFOSequencer.sequencer std) log action = .ok (server, es) := by
  constructor
  · rintro ⟨s', es, hrun⟩
    obtain ⟨server, es', hserver, -⟩ := stepServer_cases hrun
    exact ⟨server, es', hserver⟩
  · rintro ⟨server, es, hserver⟩
    exact ⟨_, _, by rw [stepServer, hserver, ok_bind]; rfl⟩

/-- A step of the order server goes on with its own run, and adds nothing to a book. -/
lemma Traceable.stepServer (h : Traceable std log run s) {action : ServerAction} {es : List ExchangeEvent}
    (hrun : s.stepServer std log action = .ok (s', es)) (a : ExchangeAction) :
    Traceable std log (run ++ [(a, es)]) s' := by
  obtain ⟨server, es', hserver, rfl, rfl⟩ := stepServer_cases hrun
  have hmore : ∀ c, Accepted run c → Accepted (run ++ [(a, [.server action es'])]) c := fun c hc => hc.append _
  refine ⟨?_, fun r hr => ?_, fun t => (h.books t).mono hmore, fun r hr => hmore _ (h.outgoing r hr)⟩
  · rw [serverRun_append]
    exact h.server.next trivial hserver
  · rcases List.mem_append.mp hr with hr | hr
    · exact hmore _ (h.incoming r hr)
    · exact hmore _ ⟨r, mem_published h.server hserver r hr, rfl⟩

/-- The four kinds of steps: on an empty ring, of the order server, of the order server with a
response, and of the engine with a request. -/
lemma step_cases {a : ExchangeAction} {es : List ExchangeEvent} (hrun : s.step std log a = .ok (s', es)) :
    (s' = s ∧ es = []) ∨
    (∃ action, (∀ r, action ≠ .sendResponse r) ∧ s.stepServer std log action = .ok (s', es)) ∨
    (∃ r rest, s.clientResponses = r :: rest ∧
      { s with clientResponses := rest }.stepServer std log (.sendResponse r) = .ok (s', es)) ∨
    (∃ r rest engine emitted, s.clientRequests = r :: rest ∧
      s.matchingEngine.processNext log r = .ok (engine, emitted) ∧ es = [.engine r emitted] ∧
      s' = { s with
        clientRequests := rest
        matchingEngine := engine
        clientResponses := s.clientResponses ++ responses emitted }) := by
  cases a with
  | sendAndRecv socket data kernelTime userTime => exact .inr (.inl ⟨_, by simp, hrun⟩)
  | recvFinished => exact .inr (.inl ⟨_, by simp, hrun⟩)
  | sendResponse =>
    simp only [Exchange.step] at hrun
    split at hrun
    · cases hrun
      exact .inl ⟨rfl, rfl⟩
    · rename_i r rest hqueue
      exact .inr (.inr (.inl ⟨r, rest, hqueue, hrun⟩))
  | processRequest =>
    simp only [Exchange.step] at hrun
    split at hrun
    · cases hrun
      exact .inl ⟨rfl, rfl⟩
    · rename_i r rest hqueue
      obtain ⟨⟨engine, emitted⟩, hengine, hrun⟩ := bind_eq_ok hrun
      cases hrun
      exact .inr (.inr (.inr ⟨r, rest, engine, emitted, hqueue, hengine, rfl, rfl⟩))

/-- A request that the engine processes keeps every book to the accepted clients, and is answered to
them. -/
lemma Traceable.processNext (h : Traceable std log run s) {r : MEClientRequest} (hr : r ∈ s.clientRequests)
    {engine : MatchingEngine} {emitted : List Event} (hrun : s.matchingEngine.processNext log r = .ok (engine, emitted)) :
    (∀ t, (engine.tickerOrderBook t).OwnedBy (Accepted run)) ∧ ∀ x ∈ responses emitted, Accepted run x.clientId := by
  obtain ⟨call, orderBook, -, hcall, hbook, rfl⟩ := MatchingEngine.processNext_cases hrun
  obtain ⟨howned, hsent⟩ := (h.books r.tickerId).call (h.incoming r hr) hcall hbook
  refine ⟨fun t => ?_, hsent⟩
  by_cases ht : t = r.tickerId
  · simp only [ht, Function.update_self]
    exact howned
  · simp only [Function.update_of_ne ht]
    exact h.books t

lemma Traceable.step (h : Traceable std log run s) {a : ExchangeAction} {es : List ExchangeEvent}
    (hrun : s.step std log a = .ok (s', es)) : Traceable std log (run ++ [(a, es)]) s' := by
  have hmore : ∀ c, Accepted run c → Accepted (run ++ [(a, es)]) c := fun c hc => hc.append _
  have hsame : serverRun [(a, es)] = [] → ServerRun std log (serverRun (run ++ [(a, es)])) s.orderServer := by
    intro hnone
    rw [serverRun_append, hnone, List.append_nil]
    exact h.server
  rcases step_cases hrun with ⟨rfl, rfl⟩ | ⟨action, -, hrun⟩ | ⟨r, rest, hqueue, hrun⟩ |
    ⟨r, rest, engine, emitted, hqueue, hengine, rfl, rfl⟩
  · exact ⟨hsame rfl, fun r hr => hmore _ (h.incoming r hr), fun t => (h.books t).mono hmore,
      fun r hr => hmore _ (h.outgoing r hr)⟩
  · exact h.stepServer hrun a
  · have hrest : Traceable std log run { s with clientResponses := rest } := by
      refine ⟨h.server, h.incoming, h.books, fun x hx => h.outgoing x ?_⟩
      rw [hqueue]
      exact List.mem_cons_of_mem r hx
    exact hrest.stepServer hrun a
  · obtain ⟨hbooks, hsent⟩ := h.processNext (hqueue ▸ List.mem_cons_self) hengine
    refine ⟨hsame rfl, fun x hx => hmore _ (h.incoming x ?_), fun t => (hbooks t).mono hmore, fun x hx => ?_⟩
    · rw [hqueue]
      exact List.mem_cons_of_mem r hx
    · rcases List.mem_append.mp hx with hx | hx
      · exact hmore _ (h.outgoing x hx)
      · exact hmore _ (hsent x hx)

end Exchange

lemma ExchangeRun.traceable {std : StdSort} {log : Log} {run : List (ExchangeAction × List ExchangeEvent)}
    {s : Exchange} (h : ExchangeRun std log run s) : s.Traceable std log run := by
  refine Reached.invariant h (fun run s => s.Traceable std log run) ?_ ?_
  · exact ⟨.start, fun r hr => absurd hr List.not_mem_nil, fun t => MEOrderBook.ownedBy_create _ t,
      fun r hr => absurd hr List.not_mem_nil⟩
  · intro run s a s' es hinv _ hstep
    exact hinv.step hstep

lemma Accepted.socket {std : StdSort} {log : Log} {run : List (ExchangeAction × List ExchangeEvent)} {s : Exchange}
    (h : s.Traceable std log run) {c : ClientId} (hc : Accepted run c) :
    c < ME_MAX_NUM_CLIENTS ∧ ∃ socket, s.orderServer.cidTcpSocket c = some socket ∧
      firstSocket c (handled run) = some socket ∧ passedFor c (handled run) ≠ [] := by
  obtain ⟨r, hr, rfl⟩ := hc
  obtain ⟨x, hx, hpassed⟩ := List.mem_filterMap.mp hr
  exact h.server.invariant.1.sessions.bound_of_passed ⟨x, hx, r, hpassed, rfl⟩

/-- Every response has a socket to go to. -/
lemma Exchange.Traceable.sendResponse_returns {std : StdSort} {log : Log} {s : Exchange}
    {run : List (ExchangeAction × List ExchangeEvent)} (h : s.Traceable std log run) (hlog : log.Counts) :
    ∃ s' es, s.step std log .sendResponse = .ok (s', es) := by
  simp only [Exchange.step]
  split
  · exact ⟨s, [], rfl⟩
  · rename_i r rest hqueue
    obtain ⟨hclient, socket, hsocket, -⟩ := (h.outgoing r (hqueue ▸ List.mem_cons_self)).socket h
    rw [Exchange.stepServer_iff, OrderServer.step, OrderServer.sendResponse_eq hlog hclient hsocket, ok_bind, pure_eq_ok]
    exact ⟨_, _, rfl⟩

/-- Every response of the engine names a client with a request that was accepted before. When the
order server comes to it, the client has a socket, and it is the one that all of the client's
accepted requests come from, before and after. -/
theorem response_destination {std : StdSort} {log : Log} {run : List (ExchangeAction × List ExchangeEvent)}
    {s : Exchange} (h : ExchangeRun std log run s) :
    (∀ r ∈ s.clientResponses, s.orderServer.cidTcpSocket r.clientId ≠ none) ∧
    (log.Counts → ∃ s' es, s.step std log .sendResponse = .ok (s', es)) ∧
    ∀ past a es future, run = past ++ (a, es) :: future →
      (∀ request emitted, .engine request emitted ∈ es →
        ∀ r ∈ responses emitted, passedFor r.clientId (handled past) ≠ []) ∧
      ∀ r more, .server (.sendResponse r) more ∈ es →
        ∃ s₁ s₂ socket, ExchangeRun std log past s₁ ∧ s₁.step std log a = .ok (s₂, es) ∧
          s₁.orderServer.cidTcpSocket r.clientId = some socket ∧
          (s₂.orderServer.sockets socket).outboundData = (s₁.orderServer.sockets socket).outboundData ++
            sizeT.encode (s₁.orderServer.cidNextOutgoingSeqNum r.clientId) ++ MEClientResponse.packed.encode r ∧
          passedFor r.clientId (handled past) ≠ [] ∧
          ∀ x ∈ passedFor r.clientId (handled run), x.socket = socket := by
  have hs := h.traceable
  refine ⟨fun r hr => ?_, fun hlog => ?_, fun past a es future hpast => ⟨fun request emitted hmem r hr => ?_,
    fun r more hmem => ?_⟩⟩
  · obtain ⟨-, socket, hsocket, -⟩ := (hs.outgoing r hr).socket hs
    rw [hsocket]
    exact Option.some_ne_none socket
  · exact hs.sendResponse_returns hlog
  · obtain ⟨s₁, s₂, hreached, -, hstep⟩ := h.entry hpast
    have hs₁ := ExchangeRun.traceable hreached
    rcases Exchange.step_cases hstep with ⟨-, rfl⟩ | ⟨action, -, hserver⟩ | ⟨r', rest, -, hserver⟩ |
      ⟨r', rest, engine, emitted', hqueue, hengine, rfl, -⟩
    · exact absurd hmem List.not_mem_nil
    · obtain ⟨server, es', -, rfl, -⟩ := Exchange.stepServer_cases hserver
      simp at hmem
    · obtain ⟨server, es', -, rfl, -⟩ := Exchange.stepServer_cases hserver
      simp at hmem
    · obtain ⟨rfl, rfl⟩ : request = r' ∧ emitted = emitted' := by simpa using hmem
      have haccepted := (hs₁.processNext (hqueue ▸ List.mem_cons_self) hengine).2 r hr
      obtain ⟨-, socket, -, -, hne⟩ := haccepted.socket hs₁
      exact hne
  · obtain ⟨s₁, s₂, hreached, -, hstep⟩ := h.entry hpast
    have hs₁ := ExchangeRun.traceable hreached
    refine ⟨s₁, s₂, ?_⟩
    rcases Exchange.step_cases hstep with ⟨-, rfl⟩ | ⟨action, hother, hserver⟩ | ⟨r', rest, hqueue, hserver⟩ |
      ⟨r', rest, engine, emitted, -, -, rfl, -⟩
    · exact absurd hmem List.not_mem_nil
    · obtain ⟨server, es', -, rfl, -⟩ := Exchange.stepServer_cases hserver
      obtain ⟨rfl, -⟩ : .sendResponse r = action ∧ more = es' := by simpa using hmem
      exact absurd rfl (hother r)
    · obtain ⟨server, es', hrun, rfl, rfl⟩ := Exchange.stepServer_cases hserver
      obtain ⟨rfl, -⟩ : r = r' ∧ more = es' := by simpa using hmem
      obtain ⟨server', hsend, heq⟩ := bind_eq_ok hrun
      cases heq
      obtain ⟨-, socket, hsocket, rfl⟩ := OrderServer.sendResponse_cases hsend
      obtain ⟨-, socket', hbound, hfirst, hne⟩ := (hs₁.outgoing r (hqueue ▸ List.mem_cons_self)).socket hs₁
      obtain rfl : socket = socket' := Option.some.inj (hsocket.symm.trans hbound)
      refine ⟨socket, hreached, hstep, hsocket, ?_, hne, fun x hx => ?_⟩
      · simp
      · obtain ⟨hx, hpassed⟩ := List.mem_filter.mp hx
        obtain ⟨hsome, hclient⟩ : x.passed.isSome ∧ x.clientId = r.clientId := by simpa using hpassed
        have hall := firstSocket_append hfirst (handled ((a, [.server (.sendResponse r) []]) :: future))
        rw [← handled_append, ← hpast] at hall
        have horigin := hs.server.invariant.1.sessions.origin x hx hsome
        rw [hclient] at horigin
        exact Option.some.inj (horigin.symm.trans hall)
    · simp at hmem

def newRecord (clientId : ClientId) (side : Side) (price : Price) : List UInt8 :=
  OMClientRequest.packed.encode
    ⟨1, { type := .new, clientId := clientId, tickerId := 0, orderId := 7, side := side, price := price, qty := 8 }⟩

/-- A bid from socket 4, and the ask from socket 5 that it meets. -/
def crossingOrders : List ExchangeAction :=
  [.sendAndRecv 4 (newRecord 3 .buy 100) 10 11, .sendAndRecv 5 (newRecord 6 .sell 99) 12 13, .recvFinished,
    .processRequest, .processRequest, .sendResponse, .sendResponse, .sendResponse, .sendResponse]

def answers (es : List ExchangeEvent) : List MEClientResponse := es.filterMap fun
  | .server (.sendResponse r) _ => some r
  | _ => none

/-- The client of each request that was processed, and the responses to it. -/
def reports (es : List ExchangeEvent) : List (ClientId × List MEClientResponse) := es.filterMap fun
  | .engine request emitted => some (request.clientId, responses emitted)
  | _ => none

/-- What client 3 hears of the ask. -/
def bidFilled : MEClientResponse := ⟨.filled, 3, 0, 7, 1, .buy, 100, 1, 0⟩

lemma crossingOrders_run : ∃ run s, ExchangeRun .insertion Logger.silent run s ∧ run.map Prod.fst = crossingOrders ∧
    bidFilled ∈ answers (sent run) ∧ (∃ x ∈ reports (sent run), x.1 = 6 ∧ bidFilled ∈ x.2) ∧
    ∃ x ∈ passedFor 3 (handled run), x.socket = 4 := by
  obtain ⟨s, es, hexecute, hanswers, hreports, hsocket⟩ := exists_of_ends (Exchange.step .insertion Logger.silent)
    Exchange.create crossingOrders (fun _ es => bidFilled ∈ answers es ∧ (∃ x ∈ reports es, x.1 = 6 ∧ bidFilled ∈ x.2) ∧
      ∃ x ∈ passedFor 3 (handledRecords (sent (es.filterMap ExchangeEvent.server?))), x.socket = 4) (by decide +kernel)
  obtain ⟨run, hreached, hsent, hactions⟩ := reached_execute (fun _ _ _ _ _ => trivial) .start hexecute
  rw [List.nil_append] at hreached
  refine ⟨run, s, hreached, hactions, ?_, ?_, ?_⟩
  · rwa [hsent]
  · rwa [hsent]
  · rwa [handled, serverRun, hsent]

/-- An order of client 6 fills one of client 3, who hears of it on socket 4. -/
theorem response_destination_passive : ∃ run s, ExchangeRun .insertion Logger.silent run s ∧
    run.map Prod.fst = crossingOrders ∧ (∃ x ∈ reports (sent run), x.1 = 6 ∧ bidFilled ∈ x.2) ∧
    ∃ past a es future s₁ s₂, run = past ++ (a, es) :: future ∧ ExchangeRun .insertion Logger.silent past s₁ ∧
      s₁.step .insertion Logger.silent a = .ok (s₂, es) ∧
      (s₂.orderServer.sockets 4).outboundData = (s₁.orderServer.sockets 4).outboundData ++
        sizeT.encode (s₁.orderServer.cidNextOutgoingSeqNum 3) ++ MEClientResponse.packed.encode bidFilled := by
  obtain ⟨run, s, hreached, hactions, hmem, hreport, x, hx, hfour⟩ := crossingOrders_run
  obtain ⟨event, hevent, hanswer⟩ := List.mem_filterMap.mp hmem
  obtain ⟨⟨a, es⟩, hentry, hevent⟩ := List.mem_flatMap.mp hevent
  obtain ⟨past, future, hpast⟩ := List.append_of_mem hentry
  split at hanswer
  · cases hanswer
    obtain ⟨s₁, s₂, socket, hbefore, hstep, -, hout, -, hsocket⟩ :=
      ((response_destination hreached).2.2 past a es future hpast).2 bidFilled _ hevent
    obtain rfl : 4 = socket := hfour.symm.trans (hsocket x hx)
    exact ⟨run, s, hreached, hactions, hreport, past, a, es, future, s₁, s₂, hpast, hbefore, hstep, hout⟩
  · cases hanswer

end LowLatencyExchange
