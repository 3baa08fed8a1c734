import LowLatencyExchange.Exchange.Sessions
import LowLatencyExchange.Trading.OrderGateway

/-!
# From the order server to the gateways

The responses of all clients leave in one order, each on its client's socket and with a number of
its client's own. However the bytes of a socket are cut, the client's gateway finds its responses.
-/

namespace LowLatencyExchange
open ByteStream

namespace OrderServer
variable {Q : Type} {log : Log} {s s' : OrderServer Q}

/-- The responses of one client. -/
def responsesTo (c : ClientId) (responses : List MEClientResponse) : List MEClientResponse :=
  responses.filter fun r => r.clientId = c

lemma sendResponses_returns (hlog : log.Counts) {responses : List MEClientResponse}
    (h : ∀ r ∈ responses, r.clientId < ME_MAX_NUM_CLIENTS ∧ s.cidTcpSocket r.clientId ≠ none) :
    ∃ s', sendResponses log responses s = .ok s' := by
  induction responses generalizing s with
  | nil => exact ⟨s, rfl⟩
  | cons r responses ih =>
    obtain ⟨hclient, hbound⟩ := h r List.mem_cons_self
    obtain ⟨socket, hsocket⟩ := Option.ne_none_iff_exists'.mp hbound
    rw [sendResponses, sendResponse_eq hlog hclient hsocket, ok_bind]
    exact ih fun x hx => h x (List.mem_cons_of_mem r hx)

/-- What was queued for one client. -/
theorem outboundData_sendResponses {responses : List MEClientResponse}
    (hdistinct : ∀ c d i, s.cidTcpSocket c = some i → s.cidTcpSocket d = some i → c = d)
    (hrun : sendResponses log responses s = .ok s') {c : ClientId} {i n : Nat} (hi : s.cidTcpSocket c = some i)
    (hn : s.cidNextOutgoingSeqNum c = wrap64 n) :
    (s'.sockets i).outboundData = (s.sockets i).outboundData ++
      numberedStream MEClientResponse.packed (wrap64 n) (responsesTo c responses) := by
  induction responses generalizing s n with
  | nil =>
    cases hrun
    exact (List.append_nil _).symm
  | cons r responses ih =>
    obtain ⟨s₁, hsend, hrest⟩ := bind_eq_ok hrun
    obtain ⟨-, socket, hsocket, rfl⟩ := sendResponse_cases hsend
    by_cases hc : r.clientId = c
    · have hnext : Function.update s.cidNextOutgoingSeqNum r.clientId
          (wrap64 (s.cidNextOutgoingSeqNum r.clientId + 1)) c = wrap64 (n + 1) := by
        rw [hc, Function.update_self, hn, wrap64_succ]
      have hsame : socket = i := Option.some.inj (hsocket.symm.trans (hc ▸ hi))
      have hfilter : responsesTo c (r :: responses) = r :: responsesTo c responses :=
        List.filter_cons_of_pos (decide_eq_true hc)
      refine (ih ?_ hrest ?_ hnext).trans ?_
      · exact hdistinct
      · exact hi
      · rw [sockets_modifySocket, hsame, Function.update_self, TCPSocket.outboundData_send,
          TCPSocket.outboundData_send, hfilter, numberedStream, wrap64_succ, hc, hn]
        simp only [List.append_assoc]
    · have hkept : Function.update s.cidNextOutgoingSeqNum r.clientId
          (wrap64 (s.cidNextOutgoingSeqNum r.clientId + 1)) c = wrap64 n := by
        rw [Function.update_of_ne (Ne.symm hc), hn]
      have hother : i ≠ socket := fun heq => hc (hdistinct r.clientId c socket hsocket (heq ▸ hi))
      have hfilter : responsesTo c (r :: responses) = responsesTo c responses :=
        List.filter_cons_of_neg (by simpa using hc)
      refine (ih ?_ hrest ?_ hkept).trans ?_
      · exact hdistinct
      · exact hi
      · rw [sockets_modifySocket, Function.update_of_ne hother, hfilter]

end OrderServer

namespace OrderGateway
variable {log : Log} {g : OrderGateway}

/-- The response with the number that is expected next. -/
lemma recvRecord_next (hlog : log.Counts) {r : MEClientResponse} (hfits : MEClientResponse.packed.Fits r)
    (hclient : r.clientId = g.clientId) {n : Nat} (hexp : g.nextExpSeqNum = wrap64 n) :
    g.recvRecord log ((sizeT.prod MEClientResponse.packed).encode (wrap64 n, r)) =
      .ok ({ g with nextExpSeqNum := wrap64 (n + 1) },
        ⟨(sizeT.prod MEClientResponse.packed).encode (wrap64 n, r), some r⟩) := by
  have hdecode : OMClientResponse.packed.decode ((sizeT.prod MEClientResponse.packed).encode (wrap64 n, r)) =
      ⟨wrap64 n, r⟩ := OMClientResponse.packed.decode_encode ⟨wrap64 n, r⟩ ⟨wrap64_lt_byteRange n, hfits⟩
  simp only [recvRecord, hdecode, logAt]
  rw [hlog _ _ rfl, ok_bind, if_neg (not_not_intro hclient), if_neg (not_not_intro hexp.symm), pure_eq_ok, hexp,
    wrap64_succ]

lemma recvRecords_next (hlog : log.Counts) {responses : List MEClientResponse}
    (h : ∀ r ∈ responses, MEClientResponse.packed.Fits r ∧ r.clientId = g.clientId) {n : Nat}
    (hexp : g.nextExpSeqNum = wrap64 n) :
    ∃ handled, recvRecords log (numberedFrames MEClientResponse.packed (wrap64 n) responses) g =
        .ok ({ g with nextExpSeqNum := wrap64 (n + responses.length) }, handled) ∧
      handled.map HandledResponse.written = responses.map some := by
  induction responses generalizing g n with
  | nil =>
    refine ⟨[], ?_, rfl⟩
    rw [List.length_nil, Nat.add_zero, ← hexp]
    rfl
  | cons r responses ih =>
    obtain ⟨hfits, hclient⟩ := h r List.mem_cons_self
    obtain ⟨handled, hrest, hwritten⟩ := ih (g := { g with nextExpSeqNum := wrap64 (n + 1) })
      (fun x hx => h x (List.mem_cons_of_mem r hx)) rfl
    refine ⟨⟨(sizeT.prod MEClientResponse.packed).encode (wrap64 n, r), some r⟩ :: handled, ?_, ?_⟩
    · simp only [numberedFrames, recvRecords, recvRecord_next hlog hfits hclient hexp, ok_bind, wrap64_succ, hrest,
        pure_eq_ok, List.length_cons, Nat.add_assoc, Nat.add_comm 1]
    · rw [List.map_cons, List.map_cons, hwritten]

lemma recvCallback_eq (hlog : log.Counts) (rxTime : Nanos) {n : Nat} {handled : List HandledResponse}
    (hrecords : recvRecords log (g.tcpSocket.records OMClientResponse.packed.sizeof) g =
      .ok ({ g with nextExpSeqNum := n }, handled)) :
    g.recvCallback log rxTime = .ok ({ g with
      nextExpSeqNum := n
      tcpSocket := g.tcpSocket.consume OMClientResponse.packed.sizeof }, handled) := by
  unfold recvCallback logAt
  rw [hlog _ _ rfl, ok_bind]
  split
  · rw [hrecords, ok_bind]
    rfl
  · rename_i hshort
    obtain ⟨hframes, hleft⟩ := frames_of_lt (Nat.not_le.mp hshort)
    rw [TCPSocket.records, hframes] at hrecords
    obtain ⟨hsame, rfl⟩ := Prod.mk.inj (Except.ok.inj hrecords)
    have hcount : g.nextExpSeqNum = n := congrArg OrderGateway.nextExpSeqNum hsame
    rw [TCPSocket.consume, hleft, ← hcount, pure_eq_ok]

/-- The gateway of a client after a part of its stream. -/
structure Receives (c : ClientId) (responses : List MEClientResponse) (received : List UInt8)
    (g : OrderGateway) : Prop where
  client : g.clientId = c
  buffer : g.tcpSocket.inboundData = leftover OMClientResponse.packed.sizeof received
  expected : g.nextExpSeqNum = wrap64 (1 + (arrived MEClientResponse.packed responses received).length)

lemma receives_create (c : ClientId) (responses : List MEClientResponse) :
    Receives c responses [] { clientId := c } :=
  ⟨rfl, rfl, by simp [arrived, wrap64]⟩

/-- More of the stream: the responses that it completes are written. -/
lemma Receives.sendAndRecv (hlog : log.Counts) {c : ClientId} {responses : List MEClientResponse}
    (hresponses : ∀ r ∈ responses, MEClientResponse.packed.Fits r ∧ r.clientId = c) {received : List UInt8}
    (h : Receives c responses received g) {segment : Segment}
    (hstream : received ++ segment.data <+: numberedStream MEClientResponse.packed 1 responses) :
    ∃ g' handled, g.sendAndRecv log segment = .ok (g', handled) ∧
      Receives c responses (received ++ segment.data) g' ∧
      (arrived MEClientResponse.packed responses received).map some ++ handled.map HandledResponse.written =
        (arrived MEClientResponse.packed responses (received ++ segment.data)).map some := by
  by_cases hempty : segment.data = []
  · refine ⟨g, [], by rw [OrderGateway.sendAndRecv, if_pos hempty, pure_eq_ok], ?_, ?_⟩
    · rwa [hempty, List.append_nil]
    · rw [hempty, List.append_nil, List.map_nil, List.append_nil]
  obtain ⟨next, harrived, hframes⟩ := frames_next 1 hstream
  have hnext : ∀ r ∈ next, MEClientResponse.packed.Fits r ∧ r.clientId = g.clientId := by
    intro r hr
    have hmem : r ∈ arrived MEClientResponse.packed responses (received ++ segment.data) := by
      rw [harrived]
      exact List.mem_append_right _ hr
    rw [h.client]
    exact hresponses r (List.mem_of_mem_take hmem)
  obtain ⟨handled, hrun, hwritten⟩ := recvRecords_next hlog
    (g := { g with tcpSocket := g.tcpSocket.recv segment.data }) hnext h.expected
  have hbuffer : (g.tcpSocket.recv segment.data).records OMClientResponse.packed.sizeof =
      numberedFrames MEClientResponse.packed
        (wrap64 (1 + (arrived MEClientResponse.packed responses received).length)) next := by
    rw [← hframes, TCPSocket.records, TCPSocket.inboundData_recv, h.buffer]
    rfl
  rw [← hbuffer] at hrun
  have hcallback := recvCallback_eq (g := { g with tcpSocket := g.tcpSocket.recv segment.data }) hlog
    segment.kernelTime hrun
  have hsend : g.sendAndRecv log segment = .ok ({ g with
      nextExpSeqNum := wrap64 (1 + (arrived MEClientResponse.packed responses received).length + next.length)
      tcpSocket := (g.tcpSocket.recv segment.data).consume OMClientResponse.packed.sizeof }, handled) := by
    unfold OrderGateway.sendAndRecv
    rw [if_neg hempty]
    dsimp only
    rw [hlog _ _ rfl, ok_bind]
    exact hcallback
  refine ⟨_, handled, hsend, ⟨h.client, ?_, ?_⟩, ?_⟩
  · rw [TCPSocket.inboundData_consume, TCPSocket.inboundData_recv, h.buffer]
    exact (frames_append (by decide) _ _).2.symm
  · rw [harrived, List.length_append, Nat.add_assoc]
  · rw [hwritten, harrived, List.map_append]

lemma Receives.sendAndRecvAll (hlog : log.Counts) {c : ClientId} {responses : List MEClientResponse}
    (hresponses : ∀ r ∈ responses, MEClientResponse.packed.Fits r ∧ r.clientId = c) {segments : List Segment}
    {received : List UInt8} (h : Receives c responses received g)
    (hstream : received ++ segments.flatMap Segment.data <+: numberedStream MEClientResponse.packed 1 responses) :
    ∃ g' handled, OrderGateway.sendAndRecvAll log segments g = .ok (g', handled) ∧
      Receives c responses (received ++ segments.flatMap Segment.data) g' ∧
      (arrived MEClientResponse.packed responses received).map some ++ handled.map HandledResponse.written =
        (arrived MEClientResponse.packed responses (received ++ segments.flatMap Segment.data)).map some := by
  induction segments generalizing g received with
  | nil =>
    rw [List.flatMap_nil, List.append_nil]
    exact ⟨g, [], rfl, h, List.append_nil _⟩
  | cons segment segments ih =>
    rw [List.flatMap_cons, ← List.append_assoc] at hstream ⊢
    obtain ⟨g₁, first, hfirst, hreceives, hwritten⟩ :=
      h.sendAndRecv hlog hresponses ((List.prefix_append _ _).trans hstream)
    obtain ⟨g₂, rest, hrest, hreceives', hwritten'⟩ := ih hreceives hstream
    refine ⟨g₂, first ++ rest, ?_, hreceives', ?_⟩
    · simp only [OrderGateway.sendAndRecvAll, hfirst, hrest, ok_bind, pure_eq_ok]
    · rw [← hwritten', ← hwritten, List.map_append, List.append_assoc]

end OrderGateway

lemma seqNum_numberedFrames {responses : List MEClientResponse} (h : ∀ r ∈ responses, MEClientResponse.packed.Fits r)
    (n : Nat) : (numberedFrames MEClientResponse.packed (wrap64 n) responses).map
      (fun record => (OMClientResponse.packed.decode record).seqNum) =
        (List.range responses.length).map fun k => wrap64 (n + k) := by
  induction responses generalizing n with
  | nil => rfl
  | cons r responses ih =>
    have hdecode : OMClientResponse.packed.decode ((sizeT.prod MEClientResponse.packed).encode (wrap64 n, r)) =
        ⟨wrap64 n, r⟩ :=
      OMClientResponse.packed.decode_encode ⟨wrap64 n, r⟩ ⟨wrap64_lt_byteRange n, h r List.mem_cons_self⟩
    have hshift : (fun k => wrap64 (n + 1 + k)) = (fun k => wrap64 (n + k)) ∘ Nat.succ := by
      funext k
      rw [Function.comp_apply, Nat.add_assoc, Nat.add_comm 1]
    rw [numberedFrames, List.map_cons, hdecode, wrap64_succ, ih fun x hx => h x (List.mem_cons_of_mem r hx),
      List.length_cons, List.range_succ_eq_map, List.map_cons, List.map_map, hshift]
    rfl

/-- The responses to a client arrive at its gateway as the engine queued them: those whose bytes
have all been read, each once, in order and under the numbers 1, 2, 3, ... -/
theorem response_path {Q : Type} {log : Log} (hlog : log.Counts) (s : OrderServer Q)
    (hsockets : ∀ c d i, s.cidTcpSocket c = some i → s.cidTcpSocket d = some i → c = d)
    (hfresh : ∀ c i, s.cidTcpSocket c = some i → s.cidNextOutgoingSeqNum c = 1 ∧ (s.sockets i).outboundData = [])
    (responses : List MEClientResponse)
    (hresponses : ∀ r ∈ responses, MEClientResponse.packed.Fits r ∧ r.clientId < ME_MAX_NUM_CLIENTS ∧
      s.cidTcpSocket r.clientId ≠ none) :
    ∃ s', OrderServer.sendResponses log responses s = .ok s' ∧ ∀ c i, s.cidTcpSocket c = some i →
      (frames OMClientResponse.packed.sizeof (s'.sockets i).outboundData).map
          (fun record => (OMClientResponse.packed.decode record).seqNum) =
        (List.range (responses.filter fun r => r.clientId = c).length).map (fun k => wrap64 (1 + k)) ∧
      ∀ segments, segments.flatMap Segment.data <+: (s'.sockets i).outboundData →
        ∃ g handled, OrderGateway.sendAndRecvAll log segments { clientId := c } = .ok (g, handled) ∧
          (∀ h ∈ handled, h.written ≠ none) ∧
          handled.filterMap HandledResponse.written <+: responses.filter (fun r => r.clientId = c) ∧
          segments.flatMap Segment.data =
            numberedStream MEClientResponse.packed 1 (handled.filterMap HandledResponse.written) ++
              g.tcpSocket.inboundData ∧
          g.tcpSocket.inboundData.length < OMClientResponse.packed.sizeof ∧
          (segments.flatMap Segment.data = (s'.sockets i).outboundData →
            handled.filterMap HandledResponse.written = responses.filter (fun r => r.clientId = c)) := by
  obtain ⟨s', hrun⟩ := OrderServer.sendResponses_returns hlog fun r hr => (hresponses r hr).2
  refine ⟨s', hrun, fun c i hi => ?_⟩
  obtain ⟨hnumber, hempty⟩ := hfresh c i hi
  have hout : (s'.sockets i).outboundData =
      numberedStream MEClientResponse.packed 1 (OrderServer.responsesTo c responses) := by
    have hall := OrderServer.outboundData_sendResponses hsockets hrun hi (n := 1) hnumber
    rwa [hempty, List.nil_append] at hall
  have hown : ∀ r ∈ OrderServer.responsesTo c responses, MEClientResponse.packed.Fits r ∧ r.clientId = c := by
    intro r hr
    obtain ⟨hmem, hclient⟩ := List.mem_filter.mp hr
    exact ⟨(hresponses r hmem).1, of_decide_eq_true hclient⟩
  constructor
  · have hframes := frames_received (List.prefix_refl (numberedStream MEClientResponse.packed 1
      (OrderServer.responsesTo c responses)))
    rw [arrived_all.1] at hframes
    rw [hout]
    apply (congrArg _ hframes).trans
    exact seqNum_numberedFrames (fun r hr => (hown r hr).1) 1
  · intro segments hsegments
    rw [hout] at hsegments
    obtain ⟨g, handled, hgateway, hreceives, hwritten⟩ :=
      (OrderGateway.receives_create c (OrderServer.responsesTo c responses)).sendAndRecvAll hlog hown
        hsegments
    rw [List.nil_append] at hreceives hwritten
    have hall : handled.map HandledResponse.written = (arrived MEClientResponse.packed
        (OrderServer.responsesTo c responses) (segments.flatMap Segment.data)).map some := hwritten
    have hlist : handled.filterMap HandledResponse.written = arrived MEClientResponse.packed
        (OrderServer.responsesTo c responses) (segments.flatMap Segment.data) := by
      have hfilter := congrArg (List.filterMap id) hall
      rwa [List.filterMap_map, List.filterMap_map, Function.id_comp, Function.id_comp, List.filterMap_some] at hfilter
    refine ⟨g, handled, hgateway, fun h hh => ?_, ?_, ?_, ?_, fun hcomplete => ?_⟩
    · have hmem : h.written ∈ handled.map HandledResponse.written := List.mem_map_of_mem hh
      rw [hall] at hmem
      obtain ⟨r, -, hr⟩ := List.mem_map.mp hmem
      exact hr ▸ Option.some_ne_none r
    · rw [hlist]
      exact List.take_prefix _ _
    · rw [hlist, hreceives.buffer]
      exact received_eq hsegments
    · rw [hreceives.buffer]
      exact (framed_frames (by decide) _).rest
    · rw [hlist, hcomplete, hout]
      exact arrived_all.1

def fill (clientId : ClientId) (orderId : OrderId) : MEClientResponse :=
  { type := .filled, clientId := clientId, tickerId := 0, clientOrderId := orderId, marketOrderId := 1, side := .buy,
    price := 10, execQty := 5, leavesQty := 0 }

lemma fits_fill {c : ClientId} {o : OrderId} (hc : c < ME_MAX_NUM_CLIENTS) (ho : o < ME_MAX_ORDER_IDS) :
    MEClientResponse.packed.Fits (fill c o) := by
  have hclient : c < byteRange 4 := Nat.lt_trans hc (by decide)
  have horder : o < byteRange 8 := Nat.lt_trans ho (by decide)
  have hmarket : 1 < byteRange 8 := by decide
  have hprice : 10 < byteRange 8 := by decide
  have hqty : 5 < byteRange 4 := by decide
  have hzero : 0 < byteRange 4 := by decide
  exact ⟨rfl, hclient, hzero, horder, hmarket, rfl, hprice, hqty, hzero⟩

/-- Fills of two clients that alternate, and client 3's bytes in two reads. -/
theorem response_path_two_clients : ∃ s' g handled,
    OrderServer.sendResponses Logger.log [fill 3 1, fill 5 8, fill 3 2]
      { OrderServer.create () with cidTcpSocket := some } = .ok s' ∧
    OrderGateway.sendAndRecvAll Logger.log [{ data := (s'.sockets 3).outboundData.take 60 },
      { data := (s'.sockets 3).outboundData.drop 60 }] { clientId := 3 } = .ok (g, handled) ∧
    handled.filterMap HandledResponse.written = [fill 3 1, fill 3 2] := by
  have hdistinct : ∀ c d i : Nat, some c = some i → some d = some i → c = d := by
    intro c d i hc hd
    exact Option.some.inj (hc.trans hd.symm)
  have hresponses : ∀ r ∈ [fill 3 1, fill 5 8, fill 3 2], MEClientResponse.packed.Fits r ∧
      r.clientId < ME_MAX_NUM_CLIENTS ∧ some r.clientId ≠ none := by
    intro r hr
    simp only [List.mem_cons, List.not_mem_nil, or_false] at hr
    rcases hr with rfl | rfl | rfl
    · exact ⟨fits_fill (by decide) (by decide), by decide, Option.some_ne_none _⟩
    · exact ⟨fits_fill (by decide) (by decide), by decide, Option.some_ne_none _⟩
    · exact ⟨fits_fill (by decide) (by decide), by decide, Option.some_ne_none _⟩
  obtain ⟨s', hrun, hall⟩ := response_path Logger.counts_log
    { OrderServer.create () with cidTcpSocket := some } hdistinct (fun _ _ _ => ⟨rfl, rfl⟩) _ hresponses
  have hwhole : [({ data := (s'.sockets 3).outboundData.take 60 } : Segment),
      { data := (s'.sockets 3).outboundData.drop 60 }].flatMap Segment.data = (s'.sockets 3).outboundData := by
    simp
  have hprefix := List.prefix_refl (s'.sockets 3).outboundData
  nth_rewrite 1 [← hwhole] at hprefix
  obtain ⟨g, handled, hgateway, -, -, -, -, hcomplete⟩ := (hall 3 3 rfl).2 _ hprefix
  exact ⟨s', g, handled, hrun, hgateway, hcomplete hwhole⟩

end LowLatencyExchange
