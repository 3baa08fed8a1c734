import LowLatencyExchange.Exchange.Warrants
import LowLatencyExchange.Trading.Connection
import LowLatencyExchange.Trading.Segmentation

/-!
# The venue

The exchange, the gateways of its clients, and a connection for each of them. As long as no buffer and no
ring is overrun, and `::send` takes what it is offered, the records at the two ends of a connection are those
that were sent, whatever has been read of the bytes and in whichever order the parties take their steps.
-/

namespace LowLatencyExchange
open ByteStream LoggedRun

/-- The sockets of the gateways and of the order server keep all bytes that were ever queued on them. How many of these
were passed on, and where they are, is in the two directions of each connection. -/
structure Venue where
  exchange : Exchange
  gateway : ClientId → OrderGateway
  requestLink : ClientId → Link
  responseLink : ClientId → Link

/-- A read takes up to `count` bytes. -/
inductive VenueAction
  | sendRequest (clientId : ClientId) (request : MEClientRequest)
  | gatewaySends (clientId : ClientId) (kernelSend : KernelSend)
  | serverReads (clientId : ClientId) (count : Nat) (kernelTime userTime : Nanos)
  | serverSends (clientId : ClientId) (kernelSend : KernelSend)
  | gatewayReads (clientId : ClientId) (count : Nat) (kernelTime userTime : Nanos)
  | recvFinished
  | processRequest
  | sendResponse

inductive VenueEvent
  | sent (clientId : ClientId) (request : MEClientRequest)
  | exchange (action : ExchangeAction) (es : List ExchangeEvent)
  | handled (clientId : ClientId) (response : HandledResponse)

namespace Venue

def create : Venue where
  exchange := Exchange.create
  gateway := fun c => { clientId := c }
  requestLink := fun _ => {}
  responseLink := fun _ => {}

/-- What has been queued at either end. -/
def requestBytes (v : Venue) (c : ClientId) : List UInt8 := (v.gateway c).tcpSocket.outboundData

def responseBytes (sock : ClientId → Nat) (v : Venue) (c : ClientId) : List UInt8 :=
  (v.exchange.orderServer.sockets (sock c)).outboundData

def stepExchange (std : StdSort) (v : Venue) (a : ExchangeAction) : Except Fault (Venue × List VenueEvent) := do
  let (exchange, es) ← v.exchange.step std Logger.log a
  pure ({ v with exchange := exchange }, [.exchange a es])

/-- Client `c` is connected to the socket `sock c` of the order server. -/
def step (sock : ClientId → Nat) (std : StdSort) (v : Venue) : VenueAction → Except Fault (Venue × List VenueEvent)
  | .sendRequest c request => do
    let g ← (v.gateway c).sendRequest Logger.log request
    pure ({ v with gateway := Function.update v.gateway c g }, [.sent c request])
  | .gatewaySends c kernelSend =>
    pure ({ v with
      requestLink := Function.update v.requestLink c ((v.requestLink c).publish (v.requestBytes c) kernelSend) }, [])
  | .serverReads c count kernelTime userTime =>
    { v with requestLink := Function.update v.requestLink c ((v.requestLink c).advance count) }.stepExchange std
      (.sendAndRecv (sock c) ((v.requestLink c).next count) kernelTime userTime)
  | .serverSends c kernelSend =>
    pure ({ v with responseLink :=
      Function.update v.responseLink c ((v.responseLink c).publish (v.responseBytes sock c) kernelSend) }, [])
  | .gatewayReads c count kernelTime userTime => do
    let (g, handled) ← (v.gateway c).sendAndRecv Logger.log ⟨(v.responseLink c).next count, kernelTime, userTime⟩
    pure ({ v with
      gateway := Function.update v.gateway c g
      responseLink := Function.update v.responseLink c ((v.responseLink c).advance count) },
      handled.map (.handled c))
  | .recvFinished => v.stepExchange std .recvFinished
  | .processRequest => v.stepExchange std .processRequest
  | .sendResponse => v.stepExchange std .sendResponse

/-- A client sends requests in its own name, and has a place in the order server's arrays. -/
def Proper : VenueAction → Prop
  | .sendRequest c request => c < ME_MAX_NUM_CLIENTS ∧ request.clientId = c ∧ MEClientRequest.packed.Fits request
  | .gatewaySends c _ | .serverReads c _ _ _ | .serverSends c _ | .gatewayReads c _ _ _ => c < ME_MAX_NUM_CLIENTS
  | .recvFinished | .processRequest | .sendResponse => True

/-- Nothing is lost. `::send` takes what it is offered, and there is room in the outbound buffers and in the rings of
the exchange for what is put there. -/
def Lossless (sock : ClientId → Nat) (v : Venue) : VenueAction → Prop
  | .sendRequest c _ => (v.requestLink c).HasRoom (v.requestBytes c) OMClientRequest.packed.sizeof
  | .gatewaySends c kernelSend => (v.requestLink c).Whole (v.requestBytes c) kernelSend
  | .serverSends c kernelSend => (v.responseLink c).Whole (v.responseBytes sock c) kernelSend
  | .recvFinished =>
    v.exchange.clientRequests.length + v.exchange.orderServer.fifoSequencer.pendingSize ≤ ME_MAX_CLIENT_UPDATES
  | .processRequest => ∀ request ∈ v.exchange.clientRequests.head?,
    ∀ answer ∈ (v.exchange.matchingEngine.processNext Logger.log request).toOption,
      v.exchange.clientResponses.length + (responses answer.2).length ≤ ME_MAX_CLIENT_UPDATES
  | .sendResponse => ∀ response ∈ v.exchange.clientResponses.head?,
    (v.responseLink response.clientId).HasRoom (v.responseBytes sock response.clientId) OMClientResponse.packed.sizeof
  | .serverReads .. | .gatewayReads .. => True

instance (sock : ClientId → Nat) (v : Venue) (a : VenueAction) : Decidable (v.Lossless sock a) :=
  match a with
  | .sendRequest c _ => inferInstanceAs (Decidable ((v.requestLink c).HasRoom _ _))
  | .gatewaySends c kernelSend => inferInstanceAs (Decidable ((v.requestLink c).Whole _ kernelSend))
  | .serverSends c kernelSend => inferInstanceAs (Decidable ((v.responseLink c).Whole _ kernelSend))
  | .recvFinished => inferInstanceAs (Decidable (_ ≤ _))
  | .processRequest => inferInstanceAs (Decidable (∀ request ∈ v.exchange.clientRequests.head?,
      ∀ answer ∈ (v.exchange.matchingEngine.processNext Logger.log request).toOption, _ ≤ _))
  | .sendResponse => inferInstanceAs (Decidable (∀ response ∈ v.exchange.clientResponses.head?,
      (v.responseLink response.clientId).HasRoom _ _))
  | .serverReads .. | .gatewayReads .. => inferInstanceAs (Decidable True)

end Venue

namespace VenueEvent

def sentBy? (c : ClientId) : VenueEvent → Option MEClientRequest
  | .sent d request => if d = c then some request else none
  | .exchange _ _ | .handled _ _ => none

def exchange? : VenueEvent → Option (ExchangeAction × List ExchangeEvent)
  | .exchange a es => some (a, es)
  | .sent _ _ | .handled _ _ => none

def handledFor? (c : ClientId) : VenueEvent → Option HandledResponse
  | .handled d response => if d = c then some response else none
  | .sent _ _ | .exchange _ _ => none

end VenueEvent

/-- The requests that a client has sent, the exchange's part of a run, and the records that the client's
gateway has handled. -/
def requestsSent (c : ClientId) (run : List (VenueAction × List VenueEvent)) : List MEClientRequest :=
  (sent run).filterMap (VenueEvent.sentBy? c)

def exchangeRun (run : List (VenueAction × List VenueEvent)) : List (ExchangeAction × List ExchangeEvent) :=
  (sent run).filterMap VenueEvent.exchange?

def responsesHandled (c : ClientId) (run : List (VenueAction × List VenueEvent)) : List HandledResponse :=
  (sent run).filterMap (VenueEvent.handledFor? c)

/-- The runs in which the clients are proper, and nothing is lost. -/
abbrev VenueRun (sock : ClientId → Nat) (std : StdSort) (run : List (VenueAction × List VenueEvent)) (v : Venue) : Prop :=
  Reached (Venue.step sock std) (fun _ v a _ => Venue.Proper a ∧ v.Lossless sock a) Venue.create run v

section Connected
variable {sock : ClientId → Nat} {std : StdSort} {run : List (VenueAction × List VenueEvent)} {v v' : Venue}
  {a : VenueAction} {es : List VenueEvent} {c : ClientId}

lemma requestsSent_concat (c : ClientId) : requestsSent c (run ++ [(a, es)]) =
    requestsSent c run ++ es.filterMap (VenueEvent.sentBy? c) := by
  rw [requestsSent, sent_append, sent_singleton, List.filterMap_append]
  rfl

lemma exchangeRun_concat : exchangeRun (run ++ [(a, es)]) = exchangeRun run ++ es.filterMap VenueEvent.exchange? := by
  rw [exchangeRun, sent_append, sent_singleton, List.filterMap_append]
  rfl

lemma responsesHandled_concat (c : ClientId) : responsesHandled c (run ++ [(a, es)]) =
    responsesHandled c run ++ es.filterMap (VenueEvent.handledFor? c) := by
  rw [responsesHandled, sent_append, sent_singleton, List.filterMap_append]
  rfl

/-- The responses to a client that the order server has queued on its socket. -/
def responsesQueued (c : ClientId) (run : List (VenueAction × List VenueEvent)) : List MEClientResponse :=
  OrderServer.responsesTo c (forwardedResponses (exchangeRun run))

/-- The two directions of a client's connection. -/
structure Venue.Connected (sock : ClientId → Nat) (run : List (VenueAction × List VenueEvent)) (v : Venue)
    (c : ClientId) : Prop where
  requests : Sending MEClientRequest.packed (requestsSent c run) (v.gateway c).nextOutgoingSeqNum
    (v.requestBytes c) (v.requestLink c)
  fit : ∀ r ∈ requestsSent c run, MEClientRequest.packed.Fits r ∧ r.clientId = c
  arrives : received (sock c) (serverRun (exchangeRun run)) = (v.requestLink c).seen
  responses : Sending MEClientResponse.packed (responsesQueued c run) (v.exchange.orderServer.cidNextOutgoingSeqNum c)
    (v.responseBytes sock c) (v.responseLink c)
  receives : OrderGateway.Receives c (responsesQueued c run) (v.responseLink c).seen (v.gateway c)
  handled : (responsesHandled c run).map HandledResponse.written =
    (arrived MEClientResponse.packed (responsesQueued c run) (v.responseLink c).seen).map some

/-- The exchange, and all connections of its clients. -/
structure Venue.Linked (sock : ClientId → Nat) (std : StdSort) (run : List (VenueAction × List VenueEvent)) (v : Venue) :
    Prop where
  exchange : ExchangeRun std Logger.log (exchangeRun run) v.exchange
  inPlace : ∀ h ∈ handled (exchangeRun run), InPlace sock h
  connected : ∀ c < ME_MAX_NUM_CLIENTS, v.Connected sock run c

lemma Venue.linked_create : Venue.create.Linked sock std [] where
  exchange := .start
  inPlace := fun _ hh => absurd hh List.not_mem_nil
  connected := fun c _ => ⟨.start _, fun _ hr => absurd hr List.not_mem_nil, rfl, .start _,
    OrderGateway.receives_create c [], by
      simp [responsesHandled, responsesQueued, arrived, Link.seen, Venue.create]⟩

/-- A step leaves a connection as it is when it sends nothing there and reads nothing. -/
lemma Venue.Connected.congr {run' : List (VenueAction × List VenueEvent)} (h : v.Connected sock run c)
    (hsent : requestsSent c run' = requestsSent c run)
    (hreceived : received (sock c) (serverRun (exchangeRun run')) = received (sock c) (serverRun (exchangeRun run)))
    (hqueued : responsesQueued c run' = responsesQueued c run)
    (hhandled : responsesHandled c run' = responsesHandled c run) (hgateway : v'.gateway c = v.gateway c)
    (hrequests : v'.requestLink c = v.requestLink c)
    (hnumber : v'.exchange.orderServer.cidNextOutgoingSeqNum c = v.exchange.orderServer.cidNextOutgoingSeqNum c)
    (hout : v'.responseBytes sock c = v.responseBytes sock c) (hresponses : v'.responseLink c = v.responseLink c) :
    v'.Connected sock run' c := by
  refine ⟨?_, ?_, ?_, ?_, ?_, ?_⟩
  · rw [hsent, requestBytes, hgateway, hrequests]
    exact h.requests
  · rw [hsent]
    exact h.fit
  · rw [hreceived, hrequests]
    exact h.arrives
  · rw [hqueued, hnumber, hout, hresponses]
    exact h.responses
  · rw [hqueued, hresponses, hgateway]
    exact h.receives
  · rw [hhandled, hqueued, hresponses]
    exact h.handled

lemma filterMap_sentBy (c d : ClientId) (r : MEClientRequest) :
    [VenueEvent.sent d r].filterMap (VenueEvent.sentBy? c) = if d = c then [r] else [] := by
  by_cases hdc : d = c
  · simp [VenueEvent.sentBy?, hdc]
  · simp [VenueEvent.sentBy?, hdc]

lemma filterMap_handledFor (c d : ClientId) (hs : List HandledResponse) :
    (hs.map (VenueEvent.handled d)).filterMap (VenueEvent.handledFor? c) = if d = c then hs else [] := by
  induction hs with
  | nil => exact (ite_self _).symm
  | cons x hs ih =>
    rw [List.map_cons, List.filterMap_cons, ih]
    by_cases hdc : d = c
    · simp [VenueEvent.handledFor?, hdc]
    · simp [VenueEvent.handledFor?, hdc]

/-- A client sends a request. -/
lemma Venue.Linked.sendRequest (h : v.Linked sock std run) {request : MEClientRequest}
    (hproper : Venue.Proper (.sendRequest c request))
    (hstep : v.step sock std (.sendRequest c request) = .ok (v', es)) :
    v'.Linked sock std (run ++ [(.sendRequest c request, es)]) := by
  obtain ⟨hc, hclient, hfits⟩ := hproper
  have hsend : (v.gateway c).sendRequest Logger.log request = .ok { v.gateway c with
      tcpSocket := ((v.gateway c).tcpSocket.send (sizeT.encode (v.gateway c).nextOutgoingSeqNum)).send
        (MEClientRequest.packed.encode request)
      nextOutgoingSeqNum := wrap64 ((v.gateway c).nextOutgoingSeqNum + 1) } := by
    rw [OrderGateway.sendRequest, OrderGateway.logAt, Logger.counts_log _ _ rfl, ok_bind, pure_eq_ok]
  simp only [Venue.step, hsend, ok_bind, pure_eq_ok] at hstep
  cases hstep
  have hrun : exchangeRun (run ++ [(VenueAction.sendRequest c request, [VenueEvent.sent c request])]) = exchangeRun run := by
    rw [exchangeRun_concat]
    exact List.append_nil _
  refine ⟨?_, ?_, fun d hd => ?_⟩
  · rw [hrun]
    exact h.exchange
  · rw [hrun]
    exact h.inPlace
  · have hconnected := h.connected d hd
    have hqueued : responsesQueued d (run ++ [(VenueAction.sendRequest c request, [VenueEvent.sent c request])]) =
        responsesQueued d run := by
      rw [responsesQueued, hrun]
      rfl
    have hhandled : responsesHandled d (run ++ [(VenueAction.sendRequest c request, [VenueEvent.sent c request])]) =
        responsesHandled d run := by
      rw [responsesHandled_concat]
      exact List.append_nil _
    by_cases hdc : d = c
    · subst hdc
      have hsent : requestsSent d (run ++ [(VenueAction.sendRequest d request, [VenueEvent.sent d request])]) =
          requestsSent d run ++ [request] := by
        rw [requestsSent_concat, filterMap_sentBy, if_pos rfl]
      refine ⟨?_, fun r hr => ?_, ?_, ?_, ?_, ?_⟩
      · rw [hsent]
        simp only [requestBytes, Function.update_self, TCPSocket.outboundData_send]
        exact hconnected.requests.send request
      · rw [hsent] at hr
        rcases List.mem_append.mp hr with hr | hr
        · exact hconnected.fit r hr
        · obtain rfl := List.mem_singleton.mp hr
          exact ⟨hfits, hclient⟩
      · rw [hrun]
        exact hconnected.arrives
      · rw [hqueued]
        exact hconnected.responses
      · rw [hqueued]
        obtain ⟨hgateway, hbuffer, hexpected⟩ := hconnected.receives
        simp only [Function.update_self]
        exact ⟨hgateway, hbuffer, hexpected⟩
      · rw [hqueued, hhandled]
        exact hconnected.handled
    · have hsent : requestsSent d (run ++ [(VenueAction.sendRequest c request, [VenueEvent.sent c request])]) =
          requestsSent d run := by
        rw [requestsSent_concat, filterMap_sentBy, if_neg (Ne.symm hdc), List.append_nil]
      exact hconnected.congr hsent (by rw [hrun]) hqueued hhandled (Function.update_of_ne hdc _ _) rfl rfl rfl rfl

/-- The kernel takes what a gateway offers it, or what the order server does. -/
lemma Venue.Linked.sends (h : v.Linked sock std run) {requestLink responseLink : ClientId → Link}
    (hrequests : ∀ d < ME_MAX_NUM_CLIENTS, requestLink d = v.requestLink d ∨ ∃ kernelSend,
      (v.requestLink d).Whole (v.requestBytes d) kernelSend ∧
        requestLink d = (v.requestLink d).publish (v.requestBytes d) kernelSend)
    (hresponses : ∀ d < ME_MAX_NUM_CLIENTS, responseLink d = v.responseLink d ∨ ∃ kernelSend,
      (v.responseLink d).Whole (v.responseBytes sock d) kernelSend ∧
        responseLink d = (v.responseLink d).publish (v.responseBytes sock d) kernelSend) :
    ({ v with requestLink := requestLink, responseLink := responseLink } : Venue).Linked sock std (run ++ [(a, [])]) := by
  have hrun : exchangeRun (run ++ [(a, [])]) = exchangeRun run := by
    rw [exchangeRun_concat]
    exact List.append_nil _
  refine ⟨hrun ▸ h.exchange, hrun ▸ h.inPlace, fun d hd => ?_⟩
  have hconnected := h.connected d hd
  have hsent : requestsSent d (run ++ [(a, [])]) = requestsSent d run := by
    rw [requestsSent_concat]
    exact List.append_nil _
  have hqueued : responsesQueued d (run ++ [(a, [])]) = responsesQueued d run := by
    rw [responsesQueued, hrun]
    rfl
  have hhandled : responsesHandled d (run ++ [(a, [])]) = responsesHandled d run := by
    rw [responsesHandled_concat]
    exact List.append_nil _
  have hout : Sending MEClientRequest.packed (requestsSent d run) (v.gateway d).nextOutgoingSeqNum (v.requestBytes d)
      (requestLink d) ∧ (requestLink d).seen = (v.requestLink d).seen := by
    rcases hrequests d hd with hsame | ⟨kernelSend, hwhole, hpublish⟩
    · rw [hsame]
      exact ⟨hconnected.requests, rfl⟩
    · rw [hpublish]
      exact ⟨hconnected.requests.publish hwhole, hconnected.requests.seen_publish kernelSend⟩
  have hback : Sending MEClientResponse.packed (responsesQueued d run)
      (v.exchange.orderServer.cidNextOutgoingSeqNum d) (v.responseBytes sock d) (responseLink d) ∧
        (responseLink d).seen = (v.responseLink d).seen := by
    rcases hresponses d hd with hsame | ⟨kernelSend, hwhole, hpublish⟩
    · rw [hsame]
      exact ⟨hconnected.responses, rfl⟩
    · rw [hpublish]
      exact ⟨hconnected.responses.publish hwhole, hconnected.responses.seen_publish kernelSend⟩
  refine ⟨?_, ?_, ?_, ?_, ?_, ?_⟩
  · rw [hsent]
    exact hout.1
  · rw [hsent]
    exact hconnected.fit
  · rw [hrun, hconnected.arrives]
    exact hout.2.symm
  · rw [hqueued]
    exact hback.1
  · rw [hqueued, hback.2]
    exact hconnected.receives
  · rw [hhandled, hqueued, hback.2]
    exact hconnected.handled

lemma Venue.Linked.gatewaySends (h : v.Linked sock std run) {kernelSend : KernelSend}
    (hlossless : v.Lossless sock (.gatewaySends c kernelSend))
    (hstep : v.step sock std (.gatewaySends c kernelSend) = .ok (v', es)) :
    v'.Linked sock std (run ++ [(.gatewaySends c kernelSend, es)]) := by
  cases hstep
  apply h.sends
  · intro d _
    by_cases hdc : d = c
    · subst hdc
      exact .inr ⟨kernelSend, hlossless, Function.update_self ..⟩
    · exact .inl (Function.update_of_ne hdc _ _)
  · exact fun d _ => .inl rfl

lemma Venue.Linked.serverSends (h : v.Linked sock std run) {kernelSend : KernelSend}
    (hlossless : v.Lossless sock (.serverSends c kernelSend))
    (hstep : v.step sock std (.serverSends c kernelSend) = .ok (v', es)) :
    v'.Linked sock std (run ++ [(.serverSends c kernelSend, es)]) := by
  cases hstep
  apply h.sends
  · exact fun d _ => .inl rfl
  · intro d _
    by_cases hdc : d = c
    · subst hdc
      exact .inr ⟨kernelSend, hlossless, Function.update_self ..⟩
    · exact .inl (Function.update_of_ne hdc _ _)

/-- The responses that are queued for a client are the client's, and can be read off the wire. -/
lemma Venue.Linked.responses_fit (h : v.Linked sock std run) :
    ∀ r ∈ responsesQueued c run, MEClientResponse.packed.Fits r ∧ r.clientId = c := by
  intro r hr
  obtain ⟨hforwarded, hclient⟩ := List.mem_filter.mp hr
  have hanswering := h.exchange.answering
  have hemitted : r ∈ emittedResponses (exchangeRun run) := by
    rw [hanswering.queue]
    exact List.mem_append_left _ hforwarded
  obtain ⟨e, he, hresponse⟩ := List.mem_filterMap.mp hemitted
  have hfit := hanswering.fit e he
  refine ⟨?_, of_decide_eq_true hclient⟩
  cases e with
  | response x =>
    cases hresponse
    exact hfit
  | update u => cases hresponse

/-- A client's gateway reads. -/
lemma Venue.Linked.gatewayReads (h : v.Linked sock std run) (hc : c < ME_MAX_NUM_CLIENTS) {count : Nat}
    {kernelTime userTime : Nanos} (hstep : v.step sock std (.gatewayReads c count kernelTime userTime) = .ok (v', es)) :
    v'.Linked sock std (run ++ [(.gatewayReads c count kernelTime userTime, es)]) := by
  have hown := h.connected c hc
  let segment : Segment := ⟨(v.responseLink c).next count, kernelTime, userTime⟩
  have hat : ((v.responseLink c).advance count).seen = (v.responseLink c).seen ++ segment.data := Link.seen_advance _ _
  have hstream : (v.responseLink c).seen ++ segment.data <+:
      numberedStream MEClientResponse.packed 1 (responsesQueued c run) := by
    rw [← hat]
    exact (hown.responses.advance count).isPrefix
  obtain ⟨g, records, hrecv, hreceives, hwritten⟩ :=
    hown.receives.sendAndRecv Logger.counts_log h.responses_fit hstream
  have hshort : (v.gateway c).tcpSocket.inboundData.length < OMClientResponse.packed.sizeof := by
    rw [hown.receives.buffer]
    exact (framed_frames (by decide) _).rest
  obtain ⟨_, hfed, -⟩ := OrderGateway.sendAndRecv_fed Logger.counts_log hshort segment
  obtain rfl : g = (v.gateway c).fed segment.data := by
    rw [hrecv] at hfed
    exact congrArg Prod.fst (Except.ok.inj hfed)
  obtain ⟨x, hx, hstep⟩ := bind_eq_ok hstep
  obtain rfl : ((v.gateway c).fed segment.data, records) = x := Except.ok.inj (hrecv.symm.trans hx)
  cases hstep
  have hrun : exchangeRun (run ++ [(VenueAction.gatewayReads c count kernelTime userTime,
      records.map (VenueEvent.handled c))]) = exchangeRun run := by
    have hnone : (records.map (VenueEvent.handled c)).filterMap VenueEvent.exchange? = [] := by
      rw [List.filterMap_map]
      exact List.filterMap_eq_nil_iff.mpr fun _ _ => rfl
    rw [exchangeRun_concat, hnone, List.append_nil]
  have hsent : ∀ d, requestsSent d (run ++ [(VenueAction.gatewayReads c count kernelTime userTime,
      records.map (VenueEvent.handled c))]) = requestsSent d run := by
    intro d
    have hnone : (records.map (VenueEvent.handled c)).filterMap (VenueEvent.sentBy? d) = [] := by
      rw [List.filterMap_map]
      exact List.filterMap_eq_nil_iff.mpr fun _ _ => rfl
    rw [requestsSent_concat, hnone, List.append_nil]
  have hqueued : ∀ d, responsesQueued d (run ++ [(VenueAction.gatewayReads c count kernelTime userTime,
      records.map (VenueEvent.handled c))]) = responsesQueued d run := by
    intro d
    rw [responsesQueued, hrun]
    rfl
  refine ⟨hrun ▸ h.exchange, hrun ▸ h.inPlace, fun d hd => ?_⟩
  by_cases hdc : d = c
  · subst hdc
    have hhandled : responsesHandled d (run ++ [(VenueAction.gatewayReads d count kernelTime userTime,
        records.map (VenueEvent.handled d))]) = responsesHandled d run ++ records := by
      rw [responsesHandled_concat, filterMap_handledFor, if_pos rfl]
    refine ⟨?_, ?_, ?_, ?_, ?_, ?_⟩
    · rw [hsent]
      simp only [requestBytes, Function.update_self]
      exact hown.requests
    · rw [hsent]
      exact hown.fit
    · rw [hrun]
      exact hown.arrives
    · rw [hqueued]
      simp only [Function.update_self]
      exact hown.responses.advance count
    · rw [hqueued]
      simp only [Function.update_self]
      rw [hat]
      exact hreceives
    · rw [hqueued, hhandled, List.map_append, hown.handled, hwritten]
      simp only [Function.update_self]
      rw [hat]
  · have hhandled : responsesHandled d (run ++ [(VenueAction.gatewayReads c count kernelTime userTime,
        records.map (VenueEvent.handled c))]) = responsesHandled d run := by
      rw [responsesHandled_concat, filterMap_handledFor, if_neg (Ne.symm hdc), List.append_nil]
    exact (h.connected d hd).congr (hsent d) (by rw [hrun]) (hqueued d) hhandled (Function.update_of_ne hdc _ _) rfl rfl
      rfl (Function.update_of_ne hdc _ _)

lemma Venue.stepExchange_cases {action : ExchangeAction} (hstep : v.stepExchange std action = .ok (v', es)) :
    ∃ exchange more, v.exchange.step std Logger.log action = .ok (exchange, more) ∧ es = [.exchange action more] ∧
      v' = { v with exchange := exchange } := by
  obtain ⟨⟨exchange, more⟩, hexchange, hstep⟩ := bind_eq_ok hstep
  cases hstep
  exact ⟨exchange, more, hexchange, rfl, rfl⟩

/-- A response goes to the socket of the client that it names. -/
lemma Venue.Linked.step_outgoing (h : v.Linked sock std run)
    (hsock : ∀ c < ME_MAX_NUM_CLIENTS, ∀ d < ME_MAX_NUM_CLIENTS, sock c = sock d → c = d) (hc : c < ME_MAX_NUM_CLIENTS)
    {action : ExchangeAction} {more : List ExchangeEvent} {exchange : Exchange}
    (hstep : v.exchange.step std Logger.log action = .ok (exchange, more)) :
    (OrderServer.responsesTo c (forwardedResponses (exchangeRun run ++ [(action, more)])) = responsesQueued c run ∧
      exchange.orderServer.cidNextOutgoingSeqNum c = v.exchange.orderServer.cidNextOutgoingSeqNum c ∧
      (exchange.orderServer.sockets (sock c)).outboundData = v.responseBytes sock c) ∨
    ∃ r, OrderServer.responsesTo c (forwardedResponses (exchangeRun run ++ [(action, more)])) =
        responsesQueued c run ++ [r] ∧
      exchange.orderServer.cidNextOutgoingSeqNum c = wrap64 (v.exchange.orderServer.cidNextOutgoingSeqNum c + 1) ∧
      (exchange.orderServer.sockets (sock c)).outboundData = v.responseBytes sock c ++
        sizeT.encode (v.exchange.orderServer.cidNextOutgoingSeqNum c) ++ MEClientResponse.packed.encode r := by
  rw [forwardedResponses_concat, OrderServer.responsesTo, List.filter_append]
  rcases Exchange.step_cases hstep with ⟨rfl, rfl⟩ | ⟨action', hother, hserver⟩ | ⟨r, rest, hqueue, hserver⟩ |
    ⟨r, rest, engine, emitted, -, -, rfl, rfl⟩
  · exact .inl ⟨List.append_nil _, rfl, rfl⟩
  · obtain ⟨server, es', hrun, rfl, rfl⟩ := Exchange.stepServer_cases hserver
    obtain ⟨hnumber, hout⟩ := OrderServer.step_outgoing hother hrun
    left
    refine ⟨?_, congrFun hnumber c, hout _⟩
    cases action' with
    | sendResponse r => exact absurd rfl (hother r)
    | _ => exact List.append_nil _
  · obtain ⟨server, es', hrun, rfl, rfl⟩ := Exchange.stepServer_cases hserver
    obtain ⟨server', hsend, hrun⟩ := bind_eq_ok hrun
    cases hrun
    obtain ⟨hclient, socket, hsocket, rfl⟩ := OrderServer.sendResponse_cases hsend
    have hbound := h.exchange.traceable.server.invariant.1.sessions.bound r.clientId
    obtain rfl : socket = sock r.clientId := by
      rcases firstSocket_inPlace h.inPlace r.clientId with hnone | hsome
      · exact absurd (hsocket.symm.trans (hbound.trans hnone)) (Option.some_ne_none _)
      · exact Option.some.inj (hsocket.symm.trans (hbound.trans hsome))
    by_cases hrc : r.clientId = c
    · right
      refine ⟨r, ?_, ?_, ?_⟩
      · congr 1
        simp [ExchangeEvent.forwarded?, hrc]
      · simp only [hrc, Function.update_self]
      · simp only [hrc, OrderServer.sockets_modifySocket, Function.update_self, TCPSocket.outboundData_send]
        rfl
    · left
      have hother : sock c ≠ sock r.clientId := fun heq => hrc (hsock c hc _ hclient heq).symm
      refine ⟨?_, ?_, ?_⟩
      · have hnone : ([ExchangeEvent.server (.sendResponse r) []].filterMap ExchangeEvent.forwarded?).filter
            (fun r => r.clientId = c) = [] := by simp [ExchangeEvent.forwarded?, hrc]
        rw [hnone, List.append_nil]
        rfl
      · simp only [Function.update_of_ne (Ne.symm hrc)]
      · simp only [OrderServer.sockets_modifySocket, Function.update_of_ne hother]
        rfl
  · exact .inl ⟨List.append_nil _, rfl, rfl⟩

/-- Apart from reads, the exchange's steps take nothing from the sockets. -/
lemma Exchange.step_unread {s s' : Exchange} (past : List (ExchangeAction × List ExchangeEvent)) {action : ExchangeAction}
    {more : List ExchangeEvent}
    (hother : ∀ socket data kernelTime userTime, action ≠ .sendAndRecv socket data kernelTime userTime)
    (hstep : s.step std Logger.log action = .ok (s', more)) :
    (∀ i, received i (serverRun (past ++ [(action, more)])) = received i (serverRun past)) ∧
      handled (past ++ [(action, more)]) = handled past := by
  have hserver : ∀ action' es', (∀ i, ServerAction.dataOn i action' = []) → handledRecords es' = [] →
      (∀ i, received i (serverRun (past ++ [(action, [.server action' es'])])) = received i (serverRun past)) ∧
        handled (past ++ [(action, [.server action' es'])]) = handled past := by
    intro action' es' hdata hes
    have hrun : serverRun (past ++ [(action, [.server action' es'])]) = serverRun past ++ [(action', es')] := by
      rw [serverRun_append]
      rfl
    refine ⟨fun i => ?_, ?_⟩
    · rw [hrun, received, List.flatMap_append, List.flatMap_singleton, hdata, List.append_nil]
      rfl
    · rw [handled, hrun, sent_append, sent_singleton, handledRecords_append, hes, List.append_nil]
      rfl
  have hnone : more.filterMap ExchangeEvent.server? = [] →
      (∀ i, received i (serverRun (past ++ [(action, more)])) = received i (serverRun past)) ∧
        handled (past ++ [(action, more)]) = handled past := by
    intro hmore
    have hrun : serverRun (past ++ [(action, more)]) = serverRun past := by
      have hlast : serverRun [(action, more)] = [] := by rw [serverRun, sent_singleton, hmore]
      rw [serverRun_append, hlast, List.append_nil]
    exact ⟨fun i => by rw [hrun], by rw [handled, hrun]; rfl⟩
  cases action with
  | sendAndRecv socket data kernelTime userTime => exact absurd rfl (hother socket data kernelTime userTime)
  | recvFinished =>
    obtain ⟨server, es', hrun, rfl, -⟩ := Exchange.stepServer_cases hstep
    obtain ⟨⟨s₁, written⟩, -, hrun⟩ := bind_eq_ok hrun
    cases hrun
    exact hserver _ _ (fun i => rfl) (handledRecords_published written)
  | sendResponse =>
    simp only [Exchange.step] at hstep
    split at hstep
    · cases hstep
      exact hnone rfl
    · obtain ⟨server, es', hrun, rfl, -⟩ := Exchange.stepServer_cases hstep
      obtain ⟨server', -, hrun⟩ := bind_eq_ok hrun
      cases hrun
      exact hserver _ _ (fun i => rfl) rfl
  | processRequest =>
    simp only [Exchange.step] at hstep
    split at hstep
    · cases hstep
      exact hnone rfl
    · obtain ⟨⟨engine, emitted⟩, -, hstep⟩ := bind_eq_ok hstep
      cases hstep
      exact hnone rfl

/-- A step of the exchange, as a client's connection sees it. -/
lemma Venue.Linked.connected_exchange (h : v.Linked sock std run)
    (hsock : ∀ c < ME_MAX_NUM_CLIENTS, ∀ d < ME_MAX_NUM_CLIENTS, sock c = sock d → c = d) (hc : c < ME_MAX_NUM_CLIENTS)
    {action : ExchangeAction} {more : List ExchangeEvent} {exchange : Exchange}
    (hstep : v.exchange.step std Logger.log action = .ok (exchange, more)) {requestLink : ClientId → Link}
    (hrequests : Sending MEClientRequest.packed (requestsSent c run) (v.gateway c).nextOutgoingSeqNum
      (v.requestBytes c) (requestLink c))
    (harrives : LowLatencyExchange.received (sock c) (serverRun (exchangeRun run ++ [(action, more)])) =
      (requestLink c).seen) :
    ({ v with exchange := exchange, requestLink := requestLink } : Venue).Connected sock
      (run ++ [(a, [.exchange action more])]) c := by
  have hconnected := h.connected c hc
  have hrun : exchangeRun (run ++ [(a, [.exchange action more])]) = exchangeRun run ++ [(action, more)] :=
    exchangeRun_concat
  have hsent : requestsSent c (run ++ [(a, [.exchange action more])]) = requestsSent c run := by
    rw [requestsSent_concat]
    exact List.append_nil _
  have hhandled : responsesHandled c (run ++ [(a, [.exchange action more])]) = responsesHandled c run := by
    rw [responsesHandled_concat]
    exact List.append_nil _
  obtain ⟨hgateway, hbuffer, hexpected⟩ := hconnected.receives
  rcases h.step_outgoing hsock hc hstep with ⟨hqueued, hnumber, hout⟩ | ⟨r, hqueued, hnumber, hout⟩
  · refine ⟨?_, ?_, ?_, ?_, ?_, ?_⟩
    · rw [hsent]
      exact hrequests
    · rw [hsent]
      exact hconnected.fit
    · rw [hrun]
      exact harrives
    · rw [responsesQueued, hrun, hqueued, responseBytes, hout, hnumber]
      exact hconnected.responses
    · rw [responsesQueued, hrun, hqueued]
      exact ⟨hgateway, hbuffer, hexpected⟩
    · rw [hhandled, responsesQueued, hrun, hqueued]
      exact hconnected.handled
  · have harrived : arrived MEClientResponse.packed (responsesQueued c run ++ [r]) (v.responseLink c).seen =
        arrived MEClientResponse.packed (responsesQueued c run) (v.responseLink c).seen :=
      hconnected.responses.arrived_send r
    refine ⟨?_, ?_, ?_, ?_, ?_, ?_⟩
    · rw [hsent]
      exact hrequests
    · rw [hsent]
      exact hconnected.fit
    · rw [hrun]
      exact harrives
    · rw [responsesQueued, hrun, hqueued, responseBytes, hout, hnumber]
      exact hconnected.responses.send r
    · rw [responsesQueued, hrun, hqueued]
      exact ⟨hgateway, hbuffer, hexpected.trans (by rw [harrived])⟩
    · rw [hhandled, responsesQueued, hrun, hqueued, harrived]
      exact hconnected.handled

/-- The exchange takes a step that reads from no socket. -/
lemma Venue.Linked.stepExchange (h : v.Linked sock std run)
    (hsock : ∀ c < ME_MAX_NUM_CLIENTS, ∀ d < ME_MAX_NUM_CLIENTS, sock c = sock d → c = d) {action : ExchangeAction}
    (hother : ∀ socket data kernelTime userTime, action ≠ .sendAndRecv socket data kernelTime userTime)
    (hstep : v.stepExchange std action = .ok (v', es)) : v'.Linked sock std (run ++ [(a, es)]) := by
  obtain ⟨exchange, more, hexchange, rfl, rfl⟩ := stepExchange_cases hstep
  obtain ⟨hreceived, hhandled⟩ := Exchange.step_unread (exchangeRun run) hother hexchange
  have hrun : exchangeRun (run ++ [(a, [.exchange action more])]) = exchangeRun run ++ [(action, more)] :=
    exchangeRun_concat
  refine ⟨?_, ?_, fun d hd => ?_⟩
  · rw [hrun]
    exact h.exchange.next trivial hexchange
  · rw [hrun, hhandled]
    exact h.inPlace
  · have hconnected := h.connected d hd
    apply h.connected_exchange hsock hd hexchange hconnected.requests
    rw [hreceived, hconnected.arrives]

/-- The records that a read completes. -/
lemma Venue.Linked.records (h : v.Linked sock std run) (hc : c < ME_MAX_NUM_CLIENTS) (count : Nat) :
    ∃ next, arrived MEClientRequest.packed (requestsSent c run) ((v.requestLink c).advance count).seen =
        arrived MEClientRequest.packed (requestsSent c run) (v.requestLink c).seen ++ next ∧
      frames OMClientRequest.packed.sizeof
          ((v.exchange.orderServer.sockets (sock c)).inboundData ++ (v.requestLink c).next count) =
        numberedFrames MEClientRequest.packed
          (wrap64 (1 + (arrived MEClientRequest.packed (requestsSent c run) (v.requestLink c).seen).length)) next ∧
      ∀ r ∈ next, MEClientRequest.packed.Fits r ∧ r.clientId = c := by
  have hown := h.connected c hc
  have hstream := (hown.requests.advance count).isPrefix
  rw [Link.seen_advance] at hstream ⊢
  obtain ⟨next, harrived, hframes⟩ := frames_next 1 hstream
  refine ⟨next, harrived, ?_, fun r hr => ?_⟩
  · rw [h.exchange.traceable.server.invariant.1.buffers, hown.arrives]
    exact hframes
  · have hmem : r ∈ arrived MEClientRequest.packed (requestsSent c run)
        ((v.requestLink c).seen ++ (v.requestLink c).next count) := by
      rw [harrived]
      exact List.mem_append_right _ hr
    exact hown.fit r (List.mem_of_mem_take hmem)

lemma Venue.Linked.owns (h : v.Linked sock std run) (c : ClientId) : v.exchange.orderServer.Owns (sock c) c := by
  unfold OrderServer.Owns
  rw [h.exchange.traceable.server.invariant.1.sessions.bound c]
  exact firstSocket_inPlace h.inPlace c

/-- The order server reads from a client. -/
lemma Venue.Linked.serverReads (h : v.Linked sock std run)
    (hsock : ∀ c < ME_MAX_NUM_CLIENTS, ∀ d < ME_MAX_NUM_CLIENTS, sock c = sock d → c = d) (hc : c < ME_MAX_NUM_CLIENTS)
    {count : Nat} {kernelTime userTime : Nanos}
    (hstep : v.step sock std (.serverReads c count kernelTime userTime) = .ok (v', es)) :
    v'.Linked sock std (run ++ [(.serverReads c count kernelTime userTime, es)]) := by
  obtain ⟨exchange, more, hexchange, rfl, rfl⟩ := stepExchange_cases hstep
  have hown := h.connected c hc
  have hrun : exchangeRun (run ++ [(VenueAction.serverReads c count kernelTime userTime,
      [.exchange (.sendAndRecv (sock c) ((v.requestLink c).next count) kernelTime userTime) more])]) =
        exchangeRun run ++ [(.sendAndRecv (sock c) ((v.requestLink c).next count) kernelTime userTime, more)] := exchangeRun_concat
  obtain ⟨server, es', hserver, rfl, rfl⟩ := Exchange.stepServer_cases hexchange
  obtain ⟨⟨server', records⟩, hrecv, hserver⟩ := bind_eq_ok hserver
  cases hserver
  have hreceived : ∀ i, received i (serverRun (exchangeRun run ++
      [(.sendAndRecv (sock c) ((v.requestLink c).next count) kernelTime userTime,
        [.server (.sendAndRecv (sock c) ((v.requestLink c).next count) kernelTime userTime) (records.map .handled)])])) =
      received i (serverRun (exchangeRun run)) ++ if sock c = i then (v.requestLink c).next count else [] := by
    intro i
    rw [serverRun_append, received, List.flatMap_append]
    congr 1
    exact List.append_nil _
  have hhandled : handled (exchangeRun run ++ [(.sendAndRecv (sock c) ((v.requestLink c).next count) kernelTime userTime,
      [.server (.sendAndRecv (sock c) ((v.requestLink c).next count) kernelTime userTime) (records.map .handled)])]) =
      handled (exchangeRun run) ++ records := by
    rw [handled_append]
    congr 1
    have hlast := handledRecords_handled records
    rwa [← sent_singleton (ServerAction.sendAndRecv (sock c) ((v.requestLink c).next count) kernelTime userTime)
      (records.map ServerEvent.handled)] at hlast
  refine ⟨?_, ?_, fun d hd => ?_⟩
  · rw [hrun]
    exact h.exchange.next trivial hexchange
  · rw [hrun, hhandled]
    intro x hx
    rcases List.mem_append.mp hx with hx | hx
    · exact h.inPlace x hx
    obtain ⟨next, -, hframes, hnext⟩ := h.records hc count
    exact OrderServer.sendAndRecv_inPlace hc (h.owns c) hframes hnext hrecv x hx
  · have hconnected := h.connected d hd
    apply h.connected_exchange hsock hd hexchange
    · dsimp only
      by_cases hdc : d = c
      · subst hdc
        rw [Function.update_self]
        exact hown.requests.advance count
      · rw [Function.update_of_ne hdc]
        exact hconnected.requests
    · dsimp only
      rw [hreceived, hconnected.arrives]
      by_cases hdc : d = c
      · subst hdc
        rw [Function.update_self, if_pos rfl, Link.seen_advance]
      · rw [Function.update_of_ne hdc, if_neg fun heq => hdc (hsock c hc d hd heq).symm, List.append_nil]

theorem VenueRun.linked (h : VenueRun sock std run v)
    (hsock : ∀ c < ME_MAX_NUM_CLIENTS, ∀ d < ME_MAX_NUM_CLIENTS, sock c = sock d → c = d) : v.Linked sock std run := by
  apply Reached.invariant h fun run v => v.Linked sock std run
  · exact Venue.linked_create
  intro run v a v' es hlinked hallowed hstep
  obtain ⟨hproper, hlossless⟩ := hallowed
  cases a with
  | sendRequest c request => exact hlinked.sendRequest hproper hstep
  | gatewaySends c kernelSend => exact hlinked.gatewaySends hlossless hstep
  | serverReads c count kernelTime userTime => exact hlinked.serverReads hsock hproper hstep
  | serverSends c kernelSend => exact hlinked.serverSends hlossless hstep
  | gatewayReads c count kernelTime userTime => exact hlinked.gatewayReads hproper hstep
  | recvFinished => exact hlinked.stepExchange hsock (fun _ _ _ _ h => by cases h) hstep
  | processRequest => exact hlinked.stepExchange hsock (fun _ _ _ _ h => by cases h) hstep
  | sendResponse => exact hlinked.stepExchange hsock (fun _ _ _ _ h => by cases h) hstep

end Connected
end LowLatencyExchange
