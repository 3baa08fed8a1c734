import LowLatencyExchange.Trading.Venue

/-!
# What the venue does for a client

The requests of a client reach the sequencer as the client sent them, and the engine's responses reach the
client as the engine sent those. Nothing but a full sequencer and the engine itself stops the venue.
-/

namespace LowLatencyExchange
open ByteStream LoggedRun

section Served
variable {sock : ClientId → Nat} {std : StdSort} {run : List (VenueAction × List VenueEvent)} {v : Venue}
  {a : VenueAction} {c : ClientId}

/-- The requests of a client that went to the sequencer, and the responses that its gateway wrote to its ring. -/
def requestsPassed (c : ClientId) (run : List (VenueAction × List VenueEvent)) : List MEClientRequest :=
  (passedRequests (handled (exchangeRun run))).filter fun r => r.clientId = c

def responsesWritten (c : ClientId) (run : List (VenueAction × List VenueEvent)) : List MEClientResponse :=
  (responsesHandled c run).filterMap HandledResponse.written

/-- What has been read at the order server is what was passed on. -/
lemma Venue.Linked.requestsPassed_eq (h : v.Linked sock std run)
    (hsock : ∀ c < ME_MAX_NUM_CLIENTS, ∀ d < ME_MAX_NUM_CLIENTS, sock c = sock d → c = d) (hc : c < ME_MAX_NUM_CLIENTS) :
    requestsPassed c run = arrived MEClientRequest.packed (requestsSent c run) (v.requestLink c).seen := by
  have hown := h.connected c hc
  have hframes := frames_received (hown.requests.isPrefix)
  rw [requestsPassed, filter_passedRequests hsock h.inPlace hc]
  rw [handled, h.exchange.traceable.server.invariant.1.records, hown.arrives]
  apply (congrArg (List.map _) hframes).trans
  exact requests_numberedFrames (fun r hr => (hown.fit r (List.mem_of_mem_take hr)).1) 1

lemma Venue.Linked.responsesWritten_eq (h : v.Linked sock std run) (hc : c < ME_MAX_NUM_CLIENTS) :
    responsesWritten c run = arrived MEClientResponse.packed (responsesQueued c run) (v.responseLink c).seen := by
  have hhandled := congrArg (List.filterMap id) (h.connected c hc).handled
  rwa [List.filterMap_map, List.filterMap_map, Function.id_comp, Function.id_comp, List.filterMap_some] at hhandled

lemma Venue.Linked.responsesQueued_isPrefix (h : v.Linked sock std run) (c : ClientId) :
    responsesQueued c run <+: OrderServer.responsesTo c (emittedResponses (exchangeRun run)) := by
  rw [h.exchange.answering.queue, OrderServer.responsesTo, List.filter_append]
  exact List.prefix_append _ _

/-- A client and the engine. Of the client's requests, those have been passed on that have been read, in the order
in which the client sent them. Of the responses to the client, its gateway has written those that it has read to its
ring, in the order of the engine, and has dropped none. Every fill among them is warranted by a request that the
client sent, and the others answer requests that the client sent, in the order in which the engine took them. -/
theorem client_served (hsock : ∀ c < ME_MAX_NUM_CLIENTS, ∀ d < ME_MAX_NUM_CLIENTS, sock c = sock d → c = d)
    (h : VenueRun sock std run v) (hc : c < ME_MAX_NUM_CLIENTS) :
    (requestsPassed c run <+: requestsSent c run ∧
      ((v.requestLink c).read = (v.requestBytes c).length → requestsPassed c run = requestsSent c run)) ∧
    ((∀ x ∈ responsesHandled c run, x.written ≠ none) ∧
      responsesWritten c run <+: OrderServer.responsesTo c (emittedResponses (exchangeRun run)) ∧
      ((v.responseLink c).read = (v.responseBytes sock c).length → v.exchange.clientResponses = [] →
        responsesWritten c run = OrderServer.responsesTo c (emittedResponses (exchangeRun run)))) ∧
    (∀ x ∈ responsesWritten c run, x.type = .filled → ∃ r ∈ requestsSent c run, r.Warrants x) ∧
    ∃ asked, asked <+: (processedRequests (exchangeRun run)).filter (fun r => r.clientId = c) ∧
      (∀ r ∈ asked, r ∈ requestsSent c run) ∧
      List.Forall₂ MEClientRequest.AnsweredBy asked ((responsesWritten c run).filter notFilled) := by
  have hlinked := h.linked hsock
  have hown := hlinked.connected c hc
  have hanswering := hlinked.exchange.answering
  have hpassed := hlinked.requestsPassed_eq hsock hc
  have hwritten := hlinked.responsesWritten_eq hc
  have hfirst : requestsPassed c run <+: requestsSent c run := by
    rw [hpassed]
    exact List.take_prefix _ _
  have hemitted : responsesWritten c run <+: OrderServer.responsesTo c (emittedResponses (exchangeRun run)) := by
    apply List.IsPrefix.trans _ (hlinked.responsesQueued_isPrefix c)
    rw [hwritten]
    exact List.take_prefix _ _
  have hsent : ∀ r ∈ processedRequests (exchangeRun run), r.clientId = c → r ∈ requestsSent c run := by
    intro r hr hclient
    apply hfirst.subset
    exact List.mem_filter.mpr ⟨hanswering.passed r hr, decide_eq_true hclient⟩
  refine ⟨⟨hfirst, fun hall => ?_⟩, ⟨fun x hx => ?_, hemitted, fun hall hring => ?_⟩, fun x hx hfilled => ?_, ?_⟩
  · rw [hpassed, hown.requests.seen_all hall]
    exact arrived_all.1
  · have hmem : x.written ∈ (responsesHandled c run).map HandledResponse.written := List.mem_map_of_mem hx
    rw [hown.handled] at hmem
    obtain ⟨r, -, hr⟩ := List.mem_map.mp hmem
    rw [← hr]
    exact Option.some_ne_none r
  · have hqueue := hanswering.queue
    rw [hring, List.append_nil] at hqueue
    rw [hwritten, hown.responses.seen_all hall, hqueue]
    exact arrived_all.1
  · obtain ⟨hmem, hclient⟩ := List.mem_filter.mp (hemitted.subset hx)
    obtain ⟨r, hr, hwarrants⟩ := hanswering.fills x hmem hfilled
    refine ⟨r, hsent r hr ?_, hwarrants⟩
    rw [← hwarrants.client]
    exact of_decide_eq_true hclient
  · have hall : List.Forall₂ MEClientRequest.AnsweredBy
        ((processedRequests (exchangeRun run)).filter fun r => r.clientId = c)
        ((OrderServer.responsesTo c (emittedResponses (exchangeRun run))).filter notFilled) := by
      have hfilter := List.rel_filter (p := fun r => r.clientId = c) (q := fun x => x.clientId = c)
        (fun r x hrx => by simp [hrx.client]) hanswering.answers
      rw [List.filter_filter] at hfilter
      rw [OrderServer.responsesTo, List.filter_filter]
      simpa only [Bool.and_comm] using hfilter
    obtain ⟨rest, hrest⟩ := hemitted.filter notFilled
    rw [← hrest] at hall
    refine ⟨_, List.take_prefix _ _, fun r hr => ?_, List.forall₂_take_append _ _ _ hall⟩
    obtain ⟨hmem, hclient⟩ := List.mem_filter.mp (List.mem_of_mem_take hr)
    exact hsent r hmem (of_decide_eq_true hclient)

/-- A `::send` that takes everything. -/
def KernelSend.whole : KernelSend := fun n => some (Fin.last n)

/-- Client 3 sells and client 5 buys. Every gateway reads what has come for it. -/
def trading : List VenueAction :=
  [.sendRequest 3 { type := .new, clientId := 3, tickerId := 0, orderId := 7, side := .sell, price := 100, qty := 10 },
    .sendRequest 5 { type := .new, clientId := 5, tickerId := 0, orderId := 8, side := .buy, price := 101, qty := 10 },
    .gatewaySends 3 KernelSend.whole, .gatewaySends 5 KernelSend.whole, .serverReads 3 20 10 11,
    .serverReads 5 38 12 13, .serverReads 3 38 14 15, .recvFinished, .processRequest, .processRequest, .sendResponse,
    .sendResponse, .sendResponse, .sendResponse, .serverSends 3 KernelSend.whole, .serverSends 5 KernelSend.whole,
    .gatewayReads 3 70 16 17, .gatewayReads 3 70 18 19, .gatewayReads 5 200 20 21]

lemma proper_trading : ∀ a ∈ trading, Venue.Proper a := by
  have hfits : ∀ c o s p, c < ME_MAX_NUM_CLIENTS → o < 100 → (ByteEnum.packed Side).Fits s → p < 1000 →
      MEClientRequest.packed.Fits
        { type := .new, clientId := c, tickerId := 0, orderId := o, side := s, price := p, qty := 10 } := by
    intro c o s p hc ho hs hp
    have hticker : 0 < byteRange 4 := by decide
    have hqty : 10 < byteRange 4 := by decide
    exact ⟨rfl, Nat.lt_trans hc (by decide), hticker, Nat.lt_trans ho (by decide), hs, Nat.lt_trans hp (by decide), hqty⟩
  have hthree : 3 < ME_MAX_NUM_CLIENTS := by decide
  have hfive : 5 < ME_MAX_NUM_CLIENTS := by decide
  intro a ha
  simp only [trading, List.mem_cons, List.not_mem_nil, or_false] at ha
  rcases ha with rfl | rfl | rfl | rfl | rfl | rfl | rfl | rfl | rfl | rfl | rfl | rfl | rfl | rfl | rfl | rfl | rfl |
    rfl | rfl
  · exact ⟨hthree, rfl, hfits 3 7 .sell 100 hthree (by decide) rfl (by decide)⟩
  · exact ⟨hfive, rfl, hfits 5 8 .buy 101 hfive (by decide) rfl (by decide)⟩
  · exact hthree
  · exact hfive
  · exact hthree
  · exact hfive
  · exact hthree
  · trivial
  · trivial
  · trivial
  · trivial
  · trivial
  · trivial
  · trivial
  · exact hthree
  · exact hfive
  · exact hthree
  · exact hthree
  · exact hfive

lemma trading_run : ∃ run v, VenueRun id .insertion run v ∧ run.map Prod.fst = trading ∧
    (responsesWritten 3 run).map MEClientResponse.type = [.accepted, .filled] ∧
    (responsesWritten 5 run).map MEClientResponse.type = [.accepted, .filled] := by
  obtain ⟨v, es, hexecute, hthree, hfive⟩ := exists_of_ends (Venue.step id .insertion) Venue.create trading
    (fun _ es => ((es.filterMap (VenueEvent.handledFor? 3)).filterMap HandledResponse.written).map MEClientResponse.type =
        [.accepted, .filled] ∧
      ((es.filterMap (VenueEvent.handledFor? 5)).filterMap HandledResponse.written).map MEClientResponse.type =
        [.accepted, .filled]) (by decide +kernel)
  have hlossless : Never (Venue.step id .insertion) Venue.create trading fun v a => ¬v.Lossless id a :=
    never_of_avoids (by decide +kernel)
  have hnever : Never (Venue.step id .insertion) Venue.create trading
      fun v a => ¬(Venue.Proper a ∧ v.Lossless id a) := by
    intro past a v es hpast hrun hlost
    have hmem : a ∈ trading := hpast.subset (by simp)
    exact hlost ⟨proper_trading a hmem, not_not.mp (hlossless past a v es hpast hrun)⟩
  obtain ⟨run, hreached, hsent, hactions⟩ := hnever.reached hexecute
  refine ⟨run, v, hreached, hactions, ?_, ?_⟩
  · rwa [responsesWritten, responsesHandled, hsent]
  · rwa [responsesWritten, responsesHandled, hsent]

/-- Client 3 has asked for the order that was filled. -/
theorem client_served_trading : ∃ run v, VenueRun id .insertion run v ∧ run.map Prod.fst = trading ∧
    requestsPassed 3 run <+: requestsSent 3 run ∧
    ∃ x ∈ responsesWritten 3 run, x.type = .filled ∧ ∃ r ∈ requestsSent 3 run, r.Warrants x := by
  obtain ⟨run, v, hreached, hactions, hthree, -⟩ := trading_run
  obtain ⟨x, hx, hfilled⟩ := List.mem_map.mp (hthree ▸ (by decide : ClientResponseType.filled ∈
    [ClientResponseType.accepted, .filled]))
  obtain ⟨⟨hpassed, -⟩, -, hfills, -⟩ := client_served (fun _ _ _ _ h => h) hreached (by decide : 3 < ME_MAX_NUM_CLIENTS)
  exact ⟨run, v, hreached, hactions, hpassed, x, hx, hfilled, hfills x hx hfilled⟩

/-- The requests that a read completes. -/
def Venue.completed (v : Venue) (c : ClientId) (count : Nat) : Nat :=
  ((v.requestLink c).seen.length + ((v.requestLink c).next count).length) / OMClientRequest.packed.sizeof -
    (v.requestLink c).seen.length / OMClientRequest.packed.sizeof

/-- What a step needs: of a read, that the sequencer has room for every request that it completes, and of the
engine, that it returns. -/
def Venue.Returns (v : Venue) : VenueAction → Prop
  | .serverReads c count _ _ =>
    v.exchange.orderServer.fifoSequencer.pendingSize + v.completed c count ≤ ME_MAX_PENDING_REQUESTS
  | .processRequest => ∀ request rest, v.exchange.clientRequests = request :: rest →
    ∃ engine messages, v.exchange.matchingEngine.processNext Logger.log request = .ok (engine, messages)
  | .sendRequest _ _ | .gatewaySends .. | .serverSends .. | .gatewayReads .. | .recvFinished | .sendResponse => True

lemma Venue.stepExchange_iff {action : ExchangeAction} : (∃ v' es, v.stepExchange std action = .ok (v', es)) ↔
    ∃ exchange more, v.exchange.step std Logger.log action = .ok (exchange, more) := by
  constructor
  · rintro ⟨v', es, hstep⟩
    obtain ⟨exchange, more, hexchange, -⟩ := stepExchange_cases hstep
    exact ⟨exchange, more, hexchange⟩
  · rintro ⟨exchange, more, hexchange⟩
    exact ⟨_, _, by rw [stepExchange, hexchange, ok_bind]; rfl⟩

/-- The numbers of a client's records are always those that the order server expects. -/
lemma Venue.Linked.recordsFit_iff (h : v.Linked sock std run)
    (hsock : ∀ c < ME_MAX_NUM_CLIENTS, ∀ d < ME_MAX_NUM_CLIENTS, sock c = sock d → c = d) (hc : c < ME_MAX_NUM_CLIENTS)
    (count : Nat) : v.exchange.orderServer.RecordsFit (sock c) (frames OMClientRequest.packed.sizeof
        ((v.exchange.orderServer.sockets (sock c)).inboundData ++ (v.requestLink c).next count)) ↔
      v.exchange.orderServer.fifoSequencer.pendingSize + v.completed c count ≤ ME_MAX_PENDING_REQUESTS := by
  obtain ⟨next, harrived, hframes, hnext⟩ := h.records hc count
  have hown := h.connected c hc
  have hbefore := length_arrived hown.requests.isPrefix
  have hafter := length_arrived (hown.requests.advance count).isPrefix
  rw [harrived, Link.seen_advance, List.length_append, List.length_append] at hafter
  have hnumber : next.length = v.completed c count := by
    unfold completed
    exact Nat.eq_sub_of_add_eq' (hbefore ▸ hafter)
  have hexpected : v.exchange.orderServer.cidNextExpSeqNum c =
      wrap64 (1 + (arrived MEClientRequest.packed (requestsSent c run) (v.requestLink c).seen).length) := by
    have hpassed := h.requestsPassed_eq hsock hc
    rw [h.exchange.traceable.server.invariant.1.sessions.expected c, Nat.add_comm, ← hpassed]
    exact congrArg (fun k => wrap64 (1 + k)) (length_passedFor_inPlace h.inPlace c)
  have hplace : ∀ past record later, numberedFrames MEClientRequest.packed
      (wrap64 (1 + (arrived MEClientRequest.packed (requestsSent c run) (v.requestLink c).seen).length)) next =
        past ++ record :: later → recordClient record = c ∧
          recordSeqNum record =
            wrap64 (1 + (arrived MEClientRequest.packed (requestsSent c run) (v.requestLink c).seen).length + past.length) := by
    intro past record later hsplit
    obtain ⟨r, hr, hdecode⟩ := request_numberedFrames (fun r hr => (hnext r hr).1) hsplit
    rw [recordClient, recordSeqNum, hdecode]
    exact ⟨(hnext r hr).2, rfl⟩
  have hclient : ∀ record ∈ numberedFrames MEClientRequest.packed
      (wrap64 (1 + (arrived MEClientRequest.packed (requestsSent c run) (v.requestLink c).seen).length)) next,
        recordClient record = c := by
    intro record hrecord
    obtain ⟨past, later, hsplit⟩ := List.append_of_mem hrecord
    exact (hplace past record later hsplit).1
  have hall : ((numberedFrames MEClientRequest.packed
      (wrap64 (1 + (arrived MEClientRequest.packed (requestsSent c run) (v.requestLink c).seen).length)) next).filter
        fun record => v.exchange.orderServer.Owns (sock c) (recordClient record)).length = v.completed c count := by
    rw [List.filter_eq_self.mpr, length_numberedFrames, hnumber]
    intro record hrecord
    rw [hclient record hrecord]
    exact decide_eq_true (h.owns c)
  rw [hframes]
  constructor
  · intro hfit
    rw [← hall]
    exact hfit.pending
  · intro hroom
    refine ⟨fun record hrecord => hclient record hrecord ▸ hc, fun past record later hsplit _ => ?_, hall.symm ▸ hroom⟩
    obtain ⟨hfor, hseq⟩ := hplace past record later hsplit
    have hpast : past.filter (fun r => recordClient r = recordClient record) = past := by
      apply List.filter_eq_self.mpr
      intro r hr
      have hmem := hclient r (hsplit ▸ List.mem_append_left _ hr)
      exact decide_eq_true (hmem.trans hfor.symm)
    rw [hpast, hseq, hfor, hexpected]
    unfold wrap64
    omega

/-- In every state that the venue reaches without a loss, every step that loses nothing goes through, unless it is a
read that completes more requests than the sequencer has room for, or a request that the engine does not return
from. -/
theorem venue_goes_on_iff (hsock : ∀ c < ME_MAX_NUM_CLIENTS, ∀ d < ME_MAX_NUM_CLIENTS, sock c = sock d → c = d)
    (h : VenueRun sock std run v) (hallowed : Venue.Proper a ∧ v.Lossless sock a) :
    (∃ v' es, v.step sock std a = .ok (v', es)) ↔ v.Returns a := by
  obtain ⟨hproper, -⟩ := hallowed
  have hlinked := h.linked hsock
  have hready := hlinked.exchange.traceable.server.ready
  cases a with
  | sendRequest c request =>
    refine iff_of_true ?_ trivial
    simp only [Venue.step, OrderGateway.sendRequest, OrderGateway.logAt]
    rw [Logger.counts_log _ _ rfl]
    exact ⟨_, _, rfl⟩
  | serverReads c count kernelTime userTime =>
    apply Venue.stepExchange_iff.trans
    apply Exchange.stepServer_iff.trans
    have hiff := OrderServer.sendAndRecv_iff std hready (sock c) ((v.requestLink c).next count) kernelTime userTime
    have hfit := hlinked.recordsFit_iff hsock hproper count
    have hserver : (∃ server es, v.exchange.orderServer.step (FIFOSequencer.sequencer std) Logger.log
        (.sendAndRecv (sock c) ((v.requestLink c).next count) kernelTime userTime) = .ok (server, es)) ↔
        ∃ server records, v.exchange.orderServer.sendAndRecv (FIFOSequencer.sequencer std) Logger.log (sock c)
          ((v.requestLink c).next count) kernelTime userTime = .ok (server, records) := by
      constructor
      · rintro ⟨server, es, hrun⟩
        obtain ⟨⟨server', records⟩, hrecv, -⟩ := bind_eq_ok hrun
        exact ⟨server', records, hrecv⟩
      · rintro ⟨server, records, hrecv⟩
        exact ⟨_, _, by rw [OrderServer.step, hrecv, ok_bind]; rfl⟩
    apply hserver.trans
    rw [hiff, hfit]
    constructor
    · intro hroom
      by_cases hdata : (v.requestLink c).next count = []
      · have hnone : v.completed c count = 0 := by
          rw [Venue.completed, hdata, List.length_nil, Nat.add_zero, Nat.sub_self]
        have hsize := hready.size
        rw [Venue.Returns, hnone]
        exact hsize
      · exact hroom hdata
    · exact fun hroom _ => hroom
  | gatewaySends c kernelSend => exact iff_of_true ⟨_, _, rfl⟩ trivial
  | serverSends c kernelSend => exact iff_of_true ⟨_, _, rfl⟩ trivial
  | gatewayReads c count kernelTime userTime =>
    refine iff_of_true ?_ trivial
    have hshort : (v.gateway c).tcpSocket.inboundData.length < OMClientResponse.packed.sizeof := by
      rw [(hlinked.connected c hproper).receives.buffer]
      exact (framed_frames (by decide) _).rest
    obtain ⟨records, hrecv, -⟩ := OrderGateway.sendAndRecv_fed Logger.counts_log hshort
      ⟨(v.responseLink c).next count, kernelTime, userTime⟩
    simp only [Venue.step, hrecv, ok_bind]
    exact ⟨_, _, rfl⟩
  | recvFinished =>
    refine iff_of_true ?_ trivial
    apply Venue.stepExchange_iff.mpr
    apply Exchange.stepServer_iff.mpr
    obtain ⟨added, hholds, -⟩ := hlinked.exchange.traceable.server.invariant.2
    obtain ⟨fifoSequencer, written, hpublish, -⟩ := hholds.sequenceAndPublish std
    have hfinished : v.exchange.orderServer.recvFinishedCallback (FIFOSequencer.sequencer std) =
        .ok ({ v.exchange.orderServer with fifoSequencer := fifoSequencer }, written) := by
      unfold OrderServer.recvFinishedCallback FIFOSequencer.sequencer
      dsimp only
      rw [hpublish, ok_bind, pure_eq_ok]
    exact ⟨_, _, by rw [OrderServer.step, hfinished, ok_bind]; rfl⟩
  | processRequest =>
    apply Venue.stepExchange_iff.trans
    simp only [Exchange.step, Venue.Returns]
    cases hqueue : v.exchange.clientRequests with
    | nil => simp [pure_eq_ok]
    | cons request rest =>
      constructor
      · rintro ⟨exchange, more, hstep⟩ request' rest' hcons
        obtain ⟨rfl, -⟩ := List.cons.inj hcons
        obtain ⟨⟨engine, messages⟩, hengine, -⟩ := bind_eq_ok hstep
        exact ⟨engine, messages, hengine⟩
      · intro hreturns
        obtain ⟨engine, messages, hengine⟩ := hreturns request rest rfl
        dsimp only
        rw [hengine, ok_bind]
        exact ⟨_, _, rfl⟩
  | sendResponse =>
    refine iff_of_true ?_ trivial
    apply Venue.stepExchange_iff.mpr
    exact hlinked.exchange.traceable.sendResponse_returns Logger.counts_log

theorem venue_goes_on_trading : ∃ run v, VenueRun id .insertion run v ∧ run.map Prod.fst = trading ∧
    ∀ count kernelTime userTime,
      ∃ v' es, v.step id .insertion (.gatewayReads 3 count kernelTime userTime) = .ok (v', es) := by
  obtain ⟨run, v, hreached, hactions, -⟩ := trading_run
  refine ⟨run, v, hreached, hactions, fun count kernelTime userTime => ?_⟩
  have hproper : Venue.Proper (.gatewayReads 3 count kernelTime userTime) := by
    have hthree : 3 < ME_MAX_NUM_CLIENTS := by decide
    exact hthree
  exact (venue_goes_on_iff (fun _ _ _ _ h => h) hreached ⟨hproper, trivial⟩).mpr trivial

end Served
end LowLatencyExchange
