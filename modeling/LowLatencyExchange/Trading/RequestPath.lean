import LowLatencyExchange.Exchange.Sessions
import LowLatencyExchange.Trading.OrderGateway

/-!
# From the gateways to the sequencer

Every client's gateway has a connection of its own. Whatever parts of the streams have arrived at
the order server, and however they were cut and interleaved, the requests of a client went to the
sequencer as they were sent.
-/

namespace LowLatencyExchange
open ByteStream LoggedRun

namespace OrderGateway

/-- The run loop queues every request behind its number. -/
theorem sendRequests_eq {log : Log} (hlog : log.Counts) (requests : List MEClientRequest) {g : OrderGateway} {n : Nat}
    (hn : g.nextOutgoingSeqNum = wrap64 n) :
    ∃ g', sendRequests log requests g = .ok g' ∧ g'.nextOutgoingSeqNum = wrap64 (n + requests.length) ∧
      g'.tcpSocket.outboundData = g.tcpSocket.outboundData ++
        numberedStream MEClientRequest.packed (wrap64 n) requests := by
  induction requests generalizing g n with
  | nil => exact ⟨g, rfl, hn, (List.append_nil _).symm⟩
  | cons r requests ih =>
    have hsend : g.sendRequest log r = .ok { g with
        tcpSocket := (g.tcpSocket.send (sizeT.encode g.nextOutgoingSeqNum)).send (MEClientRequest.packed.encode r)
        nextOutgoingSeqNum := wrap64 (g.nextOutgoingSeqNum + 1) } := by
      rw [sendRequest, logAt, hlog _ _ rfl, ok_bind, pure_eq_ok]
    have hnext : wrap64 (g.nextOutgoingSeqNum + 1) = wrap64 (n + 1) := by rw [hn, wrap64_succ]
    obtain ⟨g', hrest, hcount, hout⟩ := ih (g := { g with
      tcpSocket := (g.tcpSocket.send (sizeT.encode g.nextOutgoingSeqNum)).send (MEClientRequest.packed.encode r)
      nextOutgoingSeqNum := wrap64 (g.nextOutgoingSeqNum + 1) }) hnext
    refine ⟨g', ?_, ?_, ?_⟩
    · rw [sendRequests, hsend, ok_bind, hrest]
    · rw [hcount, List.length_cons, Nat.add_assoc, Nat.add_comm 1]
    · rw [hout, TCPSocket.outboundData_send, TCPSocket.outboundData_send, hn, numberedStream, wrap64_succ]
      simp only [List.append_assoc]

end OrderGateway

/-- A sequencer that takes every request and never publishes. -/
def Sequencer.sink : Sequencer (List MEClientRequest) where
  addClientRequest requests _ request := .ok (requests ++ [request])
  sequenceAndPublish requests := .ok (requests, [])

/-- The bytes that a list of actions reads from a socket. -/
def delivered (socket : Nat) (actions : List ServerAction) : List UInt8 :=
  actions.flatMap (·.dataOn socket)

lemma delivered_append_singleton (socket : Nat) (actions : List ServerAction) (a : ServerAction) :
    delivered socket (actions ++ [a]) = delivered socket actions ++ a.dataOn socket := by
  rw [delivered, List.flatMap_append, List.flatMap_singleton]
  rfl

namespace OrderServer
variable {log : Log} {s s' : OrderServer (List MEClientRequest)} {c : ClientId} {socket : Nat}

/-- The next requests of a client have been passed on, and nothing else has happened. -/
structure Accepts (c : ClientId) (socket n : Nat) (requests : List MEClientRequest)
    (s s' : OrderServer (List MEClientRequest)) : Prop where
  passed : s'.fifoSequencer = s.fifoSequencer ++ requests
  expected : s'.cidNextExpSeqNum = Function.update s.cidNextExpSeqNum c (wrap64 (n + requests.length))
  bound : s'.cidTcpSocket c = none ∨ s'.cidTcpSocket c = some socket
  others : ∀ d, d ≠ c → s'.cidTcpSocket d = s.cidTcpSocket d
  sockets : s'.sockets = s.sockets

/-- The record with the number that is expected next, on the client's socket. -/
lemma recvRecord_next (hlog : log.Counts) (rxTime : Nanos) {r : MEClientRequest} (hfits : MEClientRequest.packed.Fits r)
    (hclient : r.clientId < ME_MAX_NUM_CLIENTS) {n : Nat} (hexp : s.cidNextExpSeqNum r.clientId = wrap64 n)
    (hbound : s.cidTcpSocket r.clientId = none ∨ s.cidTcpSocket r.clientId = some socket) :
    ∃ s', s.recvRecord .sink log socket rxTime ((sizeT.prod MEClientRequest.packed).encode (wrap64 n, r)) =
      .ok (s', ⟨socket, (sizeT.prod MEClientRequest.packed).encode (wrap64 n, r), some r⟩) ∧
      Accepts r.clientId socket n [r] s s' := by
  have hdecode : OMClientRequest.packed.decode ((sizeT.prod MEClientRequest.packed).encode (wrap64 n, r)) =
      ⟨wrap64 n, r⟩ := OMClientRequest.packed.decode_encode ⟨wrap64 n, r⟩ ⟨wrap64_lt_byteRange n, hfits⟩
  have hindex : clientIndex r.clientId = .ok () := if_pos hclient
  have hsocket : (s.bindSocket r.clientId socket).cidTcpSocket r.clientId = some socket := by
    rw [cidTcpSocket_bindSocket, if_pos rfl]
    rcases hbound with hnone | hsome
    · rw [hnone]
      rfl
    · rw [hsome]
      rfl
  refine ⟨{ s.bindSocket r.clientId socket with
    cidNextExpSeqNum := Function.update s.cidNextExpSeqNum r.clientId (wrap64 (n + 1))
    fifoSequencer := s.fifoSequencer ++ [r] }, ?_, ?_⟩
  · simp only [recvRecord, hdecode, logAt]
    rw [hlog _ _ rfl, ok_bind, hindex, ok_bind]
    rw [if_neg (Decidable.not_not.mpr hsocket)]
    rw [if_neg (by rw [cidNextExpSeqNum_bindSocket, hexp]; exact fun hne => hne rfl)]
    simp only [Sequencer.sink, ok_bind, pure_eq_ok, cidNextExpSeqNum_bindSocket, fifoSequencer_bindSocket, hexp,
      wrap64_succ]
  · refine ⟨rfl, rfl, .inr hsocket, fun d hd => ?_, sockets_bindSocket s _ _⟩
    have hne : r.clientId ≠ d := Ne.symm hd
    exact (cidTcpSocket_bindSocket s _ d socket).trans (by rw [if_neg hne, Option.or_none])

/-- The next records of a client, one after another. -/
lemma recvRecords_next (hlog : log.Counts) (rxTime : Nanos) (hc : c < ME_MAX_NUM_CLIENTS)
    {requests : List MEClientRequest} (hfits : ∀ r ∈ requests, MEClientRequest.packed.Fits r ∧ r.clientId = c) {n : Nat}
    (hexp : s.cidNextExpSeqNum c = wrap64 n)
    (hbound : s.cidTcpSocket c = none ∨ s.cidTcpSocket c = some socket) :
    ∃ s' handled, recvRecords .sink log socket rxTime
        (numberedFrames MEClientRequest.packed (wrap64 n) requests) s = .ok (s', handled) ∧
      Accepts c socket n requests s s' := by
  induction requests generalizing s n with
  | nil =>
    refine ⟨s, [], rfl, (List.append_nil _).symm, ?_, hbound, fun _ _ => rfl, rfl⟩
    rw [List.length_nil, Nat.add_zero, ← hexp, Function.update_eq_self]
  | cons r requests ih =>
    obtain ⟨hfit, rfl⟩ := hfits r List.mem_cons_self
    obtain ⟨s₁, hfirst, hone⟩ := recvRecord_next hlog rxTime hfit hc hexp hbound
    have hexp₁ : s₁.cidNextExpSeqNum r.clientId = wrap64 (n + 1) := by
      rw [hone.expected, Function.update_self]
      rfl
    obtain ⟨s₂, handled, hrest, hmore⟩ :=
      ih (fun x hx => hfits x (List.mem_cons_of_mem r hx)) hexp₁ hone.bound
    refine ⟨s₂, ⟨socket, (sizeT.prod MEClientRequest.packed).encode (wrap64 n, r), some r⟩ :: handled, ?_, ?_, ?_,
      hmore.bound, fun d hd => ?_, ?_⟩
    · simp only [numberedFrames, recvRecords, hfirst, ok_bind, wrap64_succ, hrest, pure_eq_ok]
    · rw [hmore.passed, hone.passed, List.append_assoc, List.singleton_append]
    · rw [hmore.expected, hone.expected, Function.update_idem, List.length_cons, Nat.add_assoc, Nat.add_comm 1]
    · rw [hmore.others d hd, hone.others d hd]
    · rw [hmore.sockets, hone.sockets]

end OrderServer

section Traffic
variable {requests : ClientId → List MEClientRequest} {sock : ClientId → Nat}

/-- Reads of the clients' connections, and the calls after them. -/
def IsTraffic (sock : ClientId → Nat) (actions : List ServerAction) : Prop :=
  ∀ a ∈ actions, a = .recvFinished ∨
    ∃ c < ME_MAX_NUM_CLIENTS, ∃ data kernelTime userTime, a = .sendAndRecv (sock c) data kernelTime userTime

/-- The order server after parts of the clients' streams. -/
structure Receives (requests : ClientId → List MEClientRequest) (sock : ClientId → Nat) (actions : List ServerAction)
    (s : OrderServer (List MEClientRequest)) : Prop where
  buffers : ∀ i, (s.sockets i).inboundData = leftover OMClientRequest.packed.sizeof (delivered i actions)
  passed : ∀ c < ME_MAX_NUM_CLIENTS, s.fifoSequencer.filter (fun r => r.clientId = c) =
    arrived MEClientRequest.packed (requests c) (delivered (sock c) actions)
  expected : ∀ c < ME_MAX_NUM_CLIENTS, s.cidNextExpSeqNum c =
    wrap64 (1 + (arrived MEClientRequest.packed (requests c) (delivered (sock c) actions)).length)
  bound : ∀ c < ME_MAX_NUM_CLIENTS, s.cidTcpSocket c = none ∨ s.cidTcpSocket c = some (sock c)

lemma receives_create : Receives requests sock [] (OrderServer.create []) where
  buffers := fun _ => rfl
  passed := fun _ _ => by simp [OrderServer.create, arrived, delivered]
  expected := fun _ _ => by simp [OrderServer.create, arrived, delivered, wrap64]
  bound := fun _ _ => .inl rfl

/-- A read of a client's connection, while what was read is a part of its stream. -/
lemma Receives.sendAndRecv {log : Log} (hlog : log.Counts) {actions : List ServerAction}
    {s : OrderServer (List MEClientRequest)} (h : Receives requests sock actions s)
    (hsock : ∀ c < ME_MAX_NUM_CLIENTS, ∀ d < ME_MAX_NUM_CLIENTS, sock c = sock d → c = d)
    {c : ClientId} (hc : c < ME_MAX_NUM_CLIENTS)
    (hrequests : ∀ r ∈ requests c, MEClientRequest.packed.Fits r ∧ r.clientId = c)
    {data : List UInt8} (kernelTime userTime : Nanos)
    (hstream : delivered (sock c) actions ++ data <+: numberedStream MEClientRequest.packed 1 (requests c)) :
    ∃ s' handled, s.sendAndRecv .sink log (sock c) data kernelTime userTime = .ok (s', handled) ∧
      Receives requests sock (actions ++ [.sendAndRecv (sock c) data kernelTime userTime]) s' := by
  have hdelivered : ∀ i, delivered i (actions ++ [.sendAndRecv (sock c) data kernelTime userTime]) =
      delivered i actions ++ if sock c = i then data else [] :=
    fun i => delivered_append_singleton i actions _
  have hown : delivered (sock c) (actions ++ [.sendAndRecv (sock c) data kernelTime userTime]) =
      delivered (sock c) actions ++ data := by rw [hdelivered, if_pos rfl]
  have hother : ∀ d < ME_MAX_NUM_CLIENTS, d ≠ c →
      delivered (sock d) (actions ++ [.sendAndRecv (sock c) data kernelTime userTime]) =
        delivered (sock d) actions := by
    intro d hd hne
    rw [hdelivered, if_neg (fun heq => hne (hsock c hc d hd heq).symm), List.append_nil]
  by_cases hempty : data = []
  · have hsame : ∀ i, delivered i (actions ++ [.sendAndRecv (sock c) data kernelTime userTime]) =
        delivered i actions := fun i => by rw [hdelivered, hempty, ite_self, List.append_nil]
    refine ⟨s, [], by rw [OrderServer.sendAndRecv, if_pos hempty, pure_eq_ok], ?_⟩
    exact ⟨fun i => by rw [hsame, h.buffers], fun d hd => by rw [hsame, h.passed d hd],
      fun d hd => by rw [hsame, h.expected d hd], h.bound⟩
  obtain ⟨next, harrived, hframes⟩ := frames_next 1 hstream
  have hnext : ∀ r ∈ next, MEClientRequest.packed.Fits r ∧ r.clientId = c := by
    intro r hr
    have hmem : r ∈ arrived MEClientRequest.packed (requests c) (delivered (sock c) actions ++ data) := by
      rw [harrived]
      exact List.mem_append_right _ hr
    exact hrequests r (List.mem_of_mem_take hmem)
  have hbuffer : ((s.modifySocket (sock c) (·.recv data)).sockets (sock c)).records OMClientRequest.packed.sizeof =
      numberedFrames MEClientRequest.packed
        (wrap64 (1 + (arrived MEClientRequest.packed (requests c) (delivered (sock c) actions)).length)) next := by
    rw [← hframes, OrderServer.sockets_modifySocket, Function.update_self, TCPSocket.records,
      TCPSocket.inboundData_recv, h.buffers]
    rfl
  obtain ⟨s', handled, hrun, haccepts⟩ := OrderServer.recvRecords_next hlog kernelTime hc hnext
    (s := s.modifySocket (sock c) (·.recv data)) (h.expected c hc) (h.bound c hc)
  rw [← hbuffer] at hrun
  refine ⟨s'.modifySocket (sock c) (·.consume OMClientRequest.packed.sizeof), handled, ?_, fun i => ?_, fun d hd => ?_,
    fun d hd => ?_, fun d hd => ?_⟩
  · rw [OrderServer.sendAndRecv_eq hlog s (sock c) hempty, OrderServer.recvCallback_eq hlog, hrun, Except.map]
  · rw [hdelivered, OrderServer.sockets_modifySocket, haccepts.sockets, OrderServer.sockets_modifySocket]
    by_cases hi : sock c = i
    · subst hi
      rw [if_pos rfl, Function.update_self, Function.update_self, TCPSocket.inboundData_consume,
        TCPSocket.inboundData_recv, h.buffers]
      exact (frames_append (by decide) _ _).2.symm
    · rw [if_neg hi, List.append_nil, Function.update_of_ne (Ne.symm hi), Function.update_of_ne (Ne.symm hi), h.buffers]
  · have hfilter : s'.fifoSequencer.filter (fun r => r.clientId = d) =
        s.fifoSequencer.filter (fun r => r.clientId = d) ++ next.filter (fun r => r.clientId = d) := by
      rw [haccepts.passed, List.filter_append]
      rfl
    apply hfilter.trans
    by_cases hdc : d = c
    · subst hdc
      rw [hown, harrived, h.passed d hd, List.filter_eq_self.mpr fun r hr => decide_eq_true (hnext r hr).2]
    · have hnone : next.filter (fun r => r.clientId = d) = [] := by
        apply List.filter_eq_nil_iff.mpr
        intro r hr
        rw [(hnext r hr).2]
        simpa using Ne.symm hdc
      rw [hother d hd hdc, hnone, List.append_nil, h.passed d hd]
  · apply (congrFun haccepts.expected d).trans
    by_cases hdc : d = c
    · subst hdc
      rw [Function.update_self, hown, harrived, List.length_append, Nat.add_assoc]
    · rw [Function.update_of_ne hdc, hother d hd hdc]
      exact h.expected d hd
  · by_cases hdc : d = c
    · subst hdc
      exact haccepts.bound
    · have hsame := haccepts.others d hdc
      rcases h.bound d hd with hnone | hsome
      · exact .inl (hsame.trans hnone)
      · exact .inr (hsame.trans hsome)

lemma Receives.recvFinished {actions : List ServerAction} {s : OrderServer (List MEClientRequest)}
    (h : Receives requests sock actions s) : Receives requests sock (actions ++ [.recvFinished]) s := by
  have hsame : ∀ i, delivered i (actions ++ [.recvFinished]) = delivered i actions := fun i => by
    rw [delivered_append_singleton, ServerAction.dataOn, List.append_nil]
  exact ⟨fun i => by rw [hsame, h.buffers], fun d hd => by rw [hsame, h.passed d hd],
    fun d hd => by rw [hsame, h.expected d hd], h.bound⟩

/-- Any part of the traffic is taken without fault. -/
theorem receives_execute {log : Log} (hlog : log.Counts)
    (hsock : ∀ c < ME_MAX_NUM_CLIENTS, ∀ d < ME_MAX_NUM_CLIENTS, sock c = sock d → c = d)
    (hrequests : ∀ c < ME_MAX_NUM_CLIENTS, ∀ r ∈ requests c, MEClientRequest.packed.Fits r ∧ r.clientId = c)
    {actions : List ServerAction} (hactions : IsTraffic sock actions)
    (hstream : ∀ c < ME_MAX_NUM_CLIENTS,
      delivered (sock c) actions <+: numberedStream MEClientRequest.packed 1 (requests c)) :
    ∃ s es, execute (OrderServer.step .sink log) (OrderServer.create []) actions = .ok (s, es) ∧
      Receives requests sock actions s := by
  induction actions using List.reverseRecOn with
  | nil => exact ⟨_, _, rfl, receives_create⟩
  | append_singleton actions a ih =>
    have hbefore : ∀ c < ME_MAX_NUM_CLIENTS,
        delivered (sock c) actions <+: numberedStream MEClientRequest.packed 1 (requests c) := by
      intro c hc
      have hmore := hstream c hc
      rw [delivered_append_singleton] at hmore
      exact (List.prefix_append _ _).trans hmore
    obtain ⟨s, es, hrun, hreceives⟩ := ih (fun x hx => hactions x (List.mem_append_left _ hx)) hbefore
    rcases hactions a (List.mem_append_right _ (List.mem_singleton.mpr rfl)) with
      rfl | ⟨c, hc, data, kernelTime, userTime, rfl⟩
    · have hstep : execute (OrderServer.step .sink log) s [.recvFinished] = .ok (s, []) := rfl
      exact ⟨s, es ++ [], execute_append hrun hstep, hreceives.recvFinished⟩
    · have hmore := hstream c hc
      rw [delivered_append_singleton, ServerAction.dataOn, if_pos rfl] at hmore
      obtain ⟨s', handled, hrecv, hreceives'⟩ :=
        hreceives.sendAndRecv hlog hsock hc (hrequests c hc) kernelTime userTime hmore
      have hstep : execute (OrderServer.step .sink log) s [.sendAndRecv (sock c) data kernelTime userTime] =
          .ok (s', handled.map .handled ++ []) := by
        simp only [execute, OrderServer.step, hrecv, ok_bind, pure_eq_ok]
      exact ⟨s', es ++ (handled.map .handled ++ []), execute_append hrun hstep, hreceives'⟩

/-- The requests of a client arrive at the sequencer as its gateway sent them: those whose bytes
have all been read, each once and in order. -/
theorem request_path {log : Log} (hlog : log.Counts) (requests : ClientId → List MEClientRequest)
    (hrequests : ∀ c < ME_MAX_NUM_CLIENTS, ∀ r ∈ requests c, MEClientRequest.packed.Fits r ∧ r.clientId = c)
    (sock : ClientId → Nat)
    (hsock : ∀ c < ME_MAX_NUM_CLIENTS, ∀ d < ME_MAX_NUM_CLIENTS, sock c = sock d → c = d) :
    ∃ gateway : ClientId → OrderGateway,
      (∀ c, OrderGateway.sendRequests log (requests c) { clientId := c } = .ok (gateway c)) ∧
      ∀ actions, IsTraffic sock actions →
        (∀ c < ME_MAX_NUM_CLIENTS, delivered (sock c) actions <+: (gateway c).tcpSocket.outboundData) →
        ∃ s es, execute (OrderServer.step .sink log) (OrderServer.create []) actions = .ok (s, es) ∧
          ∀ c < ME_MAX_NUM_CLIENTS,
            s.fifoSequencer.filter (fun r => r.clientId = c) <+: requests c ∧
            delivered (sock c) actions =
              numberedStream MEClientRequest.packed 1 (s.fifoSequencer.filter fun r => r.clientId = c) ++
                (s.sockets (sock c)).inboundData ∧
            (s.sockets (sock c)).inboundData.length < OMClientRequest.packed.sizeof ∧
            (delivered (sock c) actions = (gateway c).tcpSocket.outboundData →
              s.fifoSequencer.filter (fun r => r.clientId = c) = requests c ∧
                (s.sockets (sock c)).inboundData = []) := by
  have hsends : ∀ c, ∃ g, OrderGateway.sendRequests log (requests c) { clientId := c } = .ok g ∧
      g.tcpSocket.outboundData = numberedStream MEClientRequest.packed 1 (requests c) := by
    intro c
    obtain ⟨g, hrun, -, hout⟩ := OrderGateway.sendRequests_eq hlog (requests c) (g := { clientId := c }) (n := 1) rfl
    exact ⟨g, hrun, hout⟩
  choose gateway hgateway hout using hsends
  refine ⟨gateway, hgateway, fun actions hactions hstream => ?_⟩
  have hparts : ∀ c < ME_MAX_NUM_CLIENTS,
      delivered (sock c) actions <+: numberedStream MEClientRequest.packed 1 (requests c) := by
    intro c hc
    rw [← hout]
    exact hstream c hc
  obtain ⟨s, es, hrun, hreceives⟩ := receives_execute hlog hsock hrequests hactions hparts
  refine ⟨s, es, hrun, fun c hc => ?_⟩
  rw [hreceives.passed c hc, hreceives.buffers]
  refine ⟨List.take_prefix _ _, received_eq (hparts c hc), (framed_frames (by decide) _).rest, fun hall => ?_⟩
  rw [hall, hout]
  exact arrived_all

def orderAndCancel (clientId : ClientId) : List MEClientRequest :=
  [{ type := .new, clientId := clientId, tickerId := 0, orderId := 7, side := .sell, price := 10, qty := 5 },
    { type := .cancel, clientId := clientId, tickerId := 0, orderId := 7 }]

lemma fits_orderAndCancel {c : ClientId} (hc : c < ME_MAX_NUM_CLIENTS) :
    ∀ r ∈ orderAndCancel c, MEClientRequest.packed.Fits r ∧ r.clientId = c := by
  have hclient : c < byteRange 4 := Nat.lt_trans hc (by decide)
  have hticker : 0 < byteRange 4 := by decide
  have horder : 7 < byteRange 8 := by decide
  intro r hr
  rcases List.mem_cons.mp hr with rfl | hr
  · have hprice : 10 < byteRange 8 := by decide
    have hqty : 5 < byteRange 4 := by decide
    exact ⟨⟨rfl, hclient, hticker, horder, rfl, hprice, hqty⟩, rfl⟩
  · have hprice : Price_INVALID < byteRange 8 := by decide
    have hqty : Qty_INVALID < byteRange 4 := by decide
    obtain rfl := List.mem_singleton.mp hr
    exact ⟨⟨rfl, hclient, hticker, horder, rfl, hprice, hqty⟩, rfl⟩

/-- Every client sends an order and takes it back. Client 3's bytes come in two reads, the second
one behind all bytes of client 5. -/
theorem request_path_two_clients : ∃ s es,
    execute (OrderServer.step .sink Logger.log) (OrderServer.create [])
      [.sendAndRecv 3 ((numberedStream MEClientRequest.packed 1 (orderAndCancel 3)).take 51) 10 11,
        .sendAndRecv 5 (numberedStream MEClientRequest.packed 1 (orderAndCancel 5)) 12 13, .recvFinished,
        .sendAndRecv 3 ((numberedStream MEClientRequest.packed 1 (orderAndCancel 3)).drop 51) 14 15] = .ok (s, es) ∧
      s.fifoSequencer.filter (fun r => r.clientId = 3) = orderAndCancel 3 ∧ (s.sockets 3).inboundData = [] := by
  obtain ⟨gateway, hgateway, hpath⟩ := request_path Logger.counts_log orderAndCancel
    (fun c hc => fits_orderAndCancel hc) id (fun c _ d _ heq => heq)
  have hout : ∀ c, (gateway c).tcpSocket.outboundData =
      numberedStream MEClientRequest.packed 1 (orderAndCancel c) := by
    intro c
    obtain ⟨g, hrun, -, hout⟩ :=
      OrderGateway.sendRequests_eq Logger.counts_log (orderAndCancel c) (g := { clientId := c }) (n := 1) rfl
    obtain rfl : g = gateway c := Except.ok.inj (hrun.symm.trans (hgateway c))
    exact hout
  generalize hactions : [ServerAction.sendAndRecv 3
    ((numberedStream MEClientRequest.packed 1 (orderAndCancel 3)).take 51) 10 11,
    .sendAndRecv 5 (numberedStream MEClientRequest.packed 1 (orderAndCancel 5)) 12 13, .recvFinished,
    .sendAndRecv 3 ((numberedStream MEClientRequest.packed 1 (orderAndCancel 3)).drop 51) 14 15] = actions
  have htraffic : IsTraffic id actions := by
    subst hactions
    intro a ha
    simp only [List.mem_cons, List.not_mem_nil, or_false] at ha
    rcases ha with rfl | rfl | rfl | rfl
    · exact .inr ⟨3, by decide, _, _, _, rfl⟩
    · exact .inr ⟨5, by decide, _, _, _, rfl⟩
    · exact .inl rfl
    · exact .inr ⟨3, by decide, _, _, _, rfl⟩
  have hthree : delivered 3 actions = numberedStream MEClientRequest.packed 1 (orderAndCancel 3) := by
    simp [← hactions, delivered, ServerAction.dataOn]
  have hfive : delivered 5 actions = numberedStream MEClientRequest.packed 1 (orderAndCancel 5) := by
    simp [← hactions, delivered, ServerAction.dataOn]
  have hpart : ∀ c < ME_MAX_NUM_CLIENTS, delivered (id c) actions <+: (gateway c).tcpSocket.outboundData := by
    intro c _
    rw [hout, id_eq]
    by_cases h3 : c = 3
    · exact ⟨[], by rw [List.append_nil, h3, hthree]⟩
    by_cases h5 : c = 5
    · exact ⟨[], by rw [List.append_nil, h5, hfive]⟩
    have hnone : delivered c actions = [] := by
      simp [← hactions, delivered, ServerAction.dataOn, Ne.symm h3, Ne.symm h5]
    rw [hnone]
    exact List.nil_prefix
  obtain ⟨s, es, hrun, hall⟩ := hpath actions htraffic hpart
  obtain ⟨-, -, -, hcomplete⟩ := hall 3 (by decide)
  exact ⟨s, es, hrun, hcomplete (by rw [hout, id_eq, hthree])⟩

end Traffic
end LowLatencyExchange
