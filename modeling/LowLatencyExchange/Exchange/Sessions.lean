import LowLatencyExchange.Exchange.OrderServer

/-!
# One session per client

Whatever arrives on the sockets, cut and interleaved in any way: the requests of a client that
reach the sequencer come from one socket and are numbered without gap.
-/

namespace LowLatencyExchange
open ByteStream LoggedRun

namespace ServerEvent

def handled? : ServerEvent → Option HandledRecord
  | .handled h => some h
  | .published _ => none

def published? : ServerEvent → Option MEClientRequest
  | .handled _ => none
  | .published r => some r

end ServerEvent

/-- The records among the events, in the order they were handled. -/
def handledRecords (es : List ServerEvent) : List HandledRecord := es.filterMap ServerEvent.handled?

@[simp] lemma handledRecords_append (es es' : List ServerEvent) :
    handledRecords (es ++ es') = handledRecords es ++ handledRecords es' := List.filterMap_append

@[simp] lemma handledRecords_handled (hs : List HandledRecord) :
    handledRecords (hs.map .handled) = hs := by
  induction hs with
  | nil => rfl
  | cons h hs ih => exact congrArg (h :: ·) ih

@[simp] lemma published_handled (hs : List HandledRecord) :
    (hs.map ServerEvent.handled).filterMap ServerEvent.published? = [] := by
  induction hs with
  | nil => rfl
  | cons h hs ih => exact ih

@[simp] lemma published_published (requests : List MEClientRequest) :
    (requests.map ServerEvent.published).filterMap ServerEvent.published? = requests := by
  induction requests with
  | nil => rfl
  | cons r requests ih => exact congrArg (r :: ·) ih

@[simp] lemma handledRecords_published (requests : List MEClientRequest) :
    handledRecords (requests.map .published) = [] := by
  induction requests with
  | nil => rfl
  | cons r requests ih => exact ih

namespace HandledRecord

def clientId (h : HandledRecord) : ClientId := h.request.meClientRequest.clientId

end HandledRecord

/-- The records of a client that were passed on. -/
def passedFor (clientId : ClientId) (hs : List HandledRecord) : List HandledRecord :=
  hs.filter fun h => h.passed.isSome && h.clientId = clientId

/-- The socket of the first record for a client. -/
def firstSocket (clientId : ClientId) (hs : List HandledRecord) : Option Nat :=
  (hs.find? fun h => h.clientId = clientId).map HandledRecord.socket

def recordsOn (socket : Nat) (hs : List HandledRecord) : List (List UInt8) :=
  (hs.filter fun h => h.socket = socket).map HandledRecord.record

/-- The bytes an action reads from a socket. -/
def ServerAction.dataOn (socket : Nat) : ServerAction → List UInt8
  | .sendAndRecv socket' data _ _ => if socket' = socket then data else []
  | .recvFinished => []
  | .sendResponse _ => []

/-- The byte stream of a socket. -/
def received (socket : Nat) (run : List (ServerAction × List ServerEvent)) : List UInt8 :=
  run.flatMap fun e => e.1.dataOn socket

namespace OrderServer
variable {Q : Type} {sequencer : Sequencer Q} {log : Log} {s s' : OrderServer Q} {socket : Nat}

/-- What is done with one record. -/
structure Handles (sequencer : Sequencer Q) (s : OrderServer Q) (socket : Nat) (rxTime : Nanos)
    (h : HandledRecord) (s' : OrderServer Q) : Prop where
  origin : h.socket = socket
  client : h.clientId < ME_MAX_NUM_CLIENTS
  sockets : s'.sockets = s.sockets
  outgoing : s'.cidNextOutgoingSeqNum = s.cidNextOutgoingSeqNum
  bound : s'.cidTcpSocket = (s.bindSocket h.clientId socket).cidTcpSocket
  result : (h.passed = none ∧ s'.cidNextExpSeqNum = s.cidNextExpSeqNum ∧ s'.fifoSequencer = s.fifoSequencer) ∨
    (h.passed = some h.request.meClientRequest ∧ s'.cidTcpSocket h.clientId = some socket ∧
      h.request.seqNum = s.cidNextExpSeqNum h.clientId ∧
      s'.cidNextExpSeqNum = Function.update s.cidNextExpSeqNum h.clientId (wrap64 (s.cidNextExpSeqNum h.clientId + 1)) ∧
      sequencer.addClientRequest s.fifoSequencer rxTime h.request.meClientRequest = .ok s'.fifoSequencer)

lemma clientIndex_eq_ok {clientId : ClientId} {u : Unit} (h : clientIndex clientId = .ok u) :
    clientId < ME_MAX_NUM_CLIENTS := by
  unfold clientIndex at h
  split at h
  · assumption
  · cases h

@[simp] lemma cidNextExpSeqNum_bindSocket (s : OrderServer Q) (clientId : ClientId) (socket : Nat) :
    (s.bindSocket clientId socket).cidNextExpSeqNum = s.cidNextExpSeqNum := by
  unfold bindSocket
  split <;> rfl

@[simp] lemma cidNextOutgoingSeqNum_bindSocket (s : OrderServer Q) (clientId : ClientId) (socket : Nat) :
    (s.bindSocket clientId socket).cidNextOutgoingSeqNum = s.cidNextOutgoingSeqNum := by
  unfold bindSocket
  split <;> rfl

@[simp] lemma fifoSequencer_bindSocket (s : OrderServer Q) (clientId : ClientId) (socket : Nat) :
    (s.bindSocket clientId socket).fifoSequencer = s.fifoSequencer := by
  unfold bindSocket
  split <;> rfl

@[simp] lemma sockets_bindSocket (s : OrderServer Q) (clientId : ClientId) (socket : Nat) :
    (s.bindSocket clientId socket).sockets = s.sockets := by
  unfold bindSocket
  split <;> rfl

/-- A record that was handled: passed on, or dropped for its socket or its number. -/
lemma recvRecord_cases {rxTime : Nanos} {record : List UInt8} {h : HandledRecord}
    (hrun : s.recvRecord sequencer log socket rxTime record = .ok (s', h)) :
    h.record = record ∧ Handles sequencer s socket rxTime h s' := by
  simp only [recvRecord] at hrun
  obtain ⟨_, -, hrun⟩ := bind_eq_ok hrun
  obtain ⟨_, hclient, hrun⟩ := bind_eq_ok hrun
  have hlt := clientIndex_eq_ok hclient
  split at hrun
  · obtain ⟨expected, -, hrun⟩ := bind_eq_ok hrun
    obtain ⟨_, -, hrun⟩ := bind_eq_ok hrun
    cases hrun
    exact ⟨rfl, rfl, hlt, by simp, by simp, rfl, .inl ⟨rfl, by simp, by simp⟩⟩
  · rename_i hsocket
    split at hrun
    · obtain ⟨_, -, hrun⟩ := bind_eq_ok hrun
      cases hrun
      exact ⟨rfl, rfl, hlt, by simp, by simp, rfl, .inl ⟨rfl, by simp, by simp⟩⟩
    · rename_i hseq
      obtain ⟨fifoSequencer, hadd, hrun⟩ := bind_eq_ok hrun
      cases hrun
      have hbound := Decidable.not_not.mp hsocket
      rw [cidNextExpSeqNum_bindSocket] at hseq
      refine ⟨rfl, rfl, hlt, by simp, by simp, rfl, .inr ⟨rfl, hbound, Decidable.not_not.mp hseq, ?_, ?_⟩⟩
      · simp only [cidNextExpSeqNum_bindSocket]
        rfl
      · rw [fifoSequencer_bindSocket] at hadd
        exact hadd

lemma cidTcpSocket_bindSocket (s : OrderServer Q) (clientId c : ClientId) (socket : Nat) :
    (s.bindSocket clientId socket).cidTcpSocket c =
      (s.cidTcpSocket c).or (if clientId = c then some socket else none) := by
  unfold bindSocket
  split
  · rename_i hnone
    simp only [Function.update_apply]
    by_cases hc : c = clientId
    · rw [if_pos hc, if_pos hc.symm, hc, hnone]
      rfl
    · rw [if_neg hc, if_neg (Ne.symm hc), Option.or_none]
  · rename_i hsome
    by_cases hc : clientId = c
    · obtain ⟨socket', hbound⟩ := Option.ne_none_iff_exists'.mp hsome
      rw [← hc, hbound]
      rfl
    · rw [if_neg hc, Option.or_none]

end OrderServer

section Append
variable (c : ClientId) (hs : List HandledRecord) (h : HandledRecord)

lemma passedFor_append_singleton : passedFor c (hs ++ [h]) =
    passedFor c hs ++ if h.passed.isSome ∧ h.clientId = c then [h] else [] := by
  rw [passedFor, List.filter_append, List.filter_singleton]
  simp [passedFor]

lemma firstSocket_append_singleton : firstSocket c (hs ++ [h]) =
    (firstSocket c hs).or (if h.clientId = c then some h.socket else none) := by
  rw [firstSocket, List.find?_append, Option.map_or]
  by_cases hc : h.clientId = c
  · simp [firstSocket, hc]
  · simp [firstSocket, hc]

variable {c} {hs}

/-- The binding of a client stays. -/
lemma firstSocket_append {socket : Nat} (hfirst : firstSocket c hs = some socket) (hs' : List HandledRecord) :
    firstSocket c (hs ++ hs') = some socket := by
  rw [firstSocket, List.find?_append, Option.map_or]
  rw [firstSocket] at hfirst
  rw [hfirst]
  rfl

end Append

namespace OrderServer
variable {Q : Type} {sequencer : Sequencer Q} {log : Log} {s s' : OrderServer Q} {socket : Nat}

/-- The arrays of the order server, for the records that were handled so far. -/
structure Sessions (hs : List HandledRecord) (s : OrderServer Q) : Prop where
  bound : ∀ c, s.cidTcpSocket c = firstSocket c hs
  expected : ∀ c, s.cidNextExpSeqNum c = wrap64 ((passedFor c hs).length + 1)
  numbers : ∀ c, (passedFor c hs).map (fun h => h.request.seqNum) =
    (List.range (passedFor c hs).length).map fun i => wrap64 (i + 1)
  origin : ∀ h ∈ hs, h.passed.isSome → firstSocket h.clientId hs = some h.socket
  passed : ∀ h ∈ hs, ∀ r, h.passed = some r → r = h.request.meClientRequest
  inRange : ∀ h ∈ hs, h.clientId < ME_MAX_NUM_CLIENTS

lemma sessions_create (fifoSequencer : Q) : Sessions [] (create fifoSequencer) where
  bound := fun _ => rfl
  expected := fun _ => rfl
  numbers := fun _ => rfl
  origin := fun _ hmem => absurd hmem List.not_mem_nil
  passed := fun _ hmem => absurd hmem List.not_mem_nil
  inRange := fun _ hmem => absurd hmem List.not_mem_nil

lemma Sessions.modifySocket {hs : List HandledRecord} (h : Sessions hs s) (i : Nat) (f : TCPSocket → TCPSocket) :
    Sessions hs (s.modifySocket i f) :=
  ⟨h.bound, h.expected, h.numbers, h.origin, h.passed, h.inRange⟩

/-- One more record, whatever it says. -/
lemma Sessions.handle {hs : List HandledRecord} (hsessions : Sessions hs s) {rxTime : Nanos} {h : HandledRecord}
    (hhandles : Handles sequencer s socket rxTime h s') : Sessions (hs ++ [h]) s' := by
  have hbound : ∀ c, s'.cidTcpSocket c = firstSocket c (hs ++ [h]) := fun c => by
    rw [hhandles.bound, cidTcpSocket_bindSocket, firstSocket_append_singleton, hsessions.bound, hhandles.origin]
  have hkept : ∀ x ∈ hs, x.passed.isSome → firstSocket x.clientId (hs ++ [h]) = some x.socket := by
    intro x hx hpassed
    rw [firstSocket_append_singleton, hsessions.origin x hx hpassed]
    rfl
  have hinRange : ∀ x ∈ hs ++ [h], x.clientId < ME_MAX_NUM_CLIENTS := by
    intro x hx
    rcases List.mem_append.mp hx with hx | hx
    · exact hsessions.inRange x hx
    · exact List.mem_singleton.mp hx ▸ hhandles.client
  rcases hhandles.result with ⟨hnone, hexp, -⟩ | ⟨hsome, hsocket, hseq, hexp, -⟩
  · have hsame : ∀ c, passedFor c (hs ++ [h]) = passedFor c hs := fun c => by
      rw [passedFor_append_singleton, hnone]
      simp
    refine ⟨hbound, fun c => ?_, fun c => ?_, fun x hx hpassed => ?_, fun x hx r hr => ?_, hinRange⟩
    · rw [hexp, hsame]
      exact hsessions.expected c
    · rw [hsame]
      exact hsessions.numbers c
    · rcases List.mem_append.mp hx with hx | hx
      · exact hkept x hx hpassed
      · rw [List.mem_singleton.mp hx, hnone] at hpassed
        cases hpassed
    · rcases List.mem_append.mp hx with hx | hx
      · exact hsessions.passed x hx r hr
      · rw [List.mem_singleton.mp hx, hnone] at hr
        cases hr
  · have hmore : ∀ c, passedFor c (hs ++ [h]) = passedFor c hs ++ if h.clientId = c then [h] else [] := fun c => by
      rw [passedFor_append_singleton, hsome]
      simp
    refine ⟨hbound, fun c => ?_, fun c => ?_, fun x hx hpassed => ?_, fun x hx r hr => ?_, hinRange⟩
    · rw [hexp, hmore, Function.update_apply]
      by_cases hc : c = h.clientId
      · have hlen : (passedFor c hs ++ if h.clientId = c then [h] else []).length = (passedFor c hs).length + 1 := by
          rw [if_pos hc.symm, List.length_append, List.length_singleton]
        rw [if_pos hc, hlen, ← hc, hsessions.expected]
        simp only [wrap64]
        omega
      · rw [if_neg hc, if_neg (Ne.symm hc), List.append_nil]
        exact hsessions.expected c
    · rw [hmore]
      by_cases hc : h.clientId = c
      · rw [if_pos hc, List.map_append, hsessions.numbers, List.length_append, List.length_singleton,
          List.range_succ, List.map_append, List.map_singleton, List.map_singleton, hseq, hc, hsessions.expected]
      · rw [if_neg hc, List.append_nil]
        exact hsessions.numbers c
    · rcases List.mem_append.mp hx with hx | hx
      · exact hkept x hx hpassed
      · rw [List.mem_singleton.mp hx, ← hbound, hsocket, hhandles.origin]
    · rcases List.mem_append.mp hx with hx | hx
      · exact hsessions.passed x hx r hr
      · obtain rfl := List.mem_singleton.mp hx
        exact Option.some.inj (hr.symm.trans hsome)

/-- A client with a request that was passed on has a socket, the one that all of them came from. -/
lemma Sessions.bound_of_passed {hs : List HandledRecord} (h : Sessions hs s) {c : ClientId}
    (hc : ∃ x ∈ hs, ∃ r, x.passed = some r ∧ r.clientId = c) :
    c < ME_MAX_NUM_CLIENTS ∧
      ∃ socket, s.cidTcpSocket c = some socket ∧ firstSocket c hs = some socket ∧ passedFor c hs ≠ [] := by
  obtain ⟨x, hx, r, hr, rfl⟩ := hc
  have hclient : x.clientId = r.clientId := by
    rw [h.passed x hx r hr]
    rfl
  have hfirst := h.origin x hx (by rw [hr]; rfl)
  rw [hclient] at hfirst
  refine ⟨hclient ▸ h.inRange x hx, x.socket, (h.bound _).trans hfirst, hfirst, ?_⟩
  apply List.ne_nil_of_mem
  exact List.mem_filter.mpr ⟨hx, by simp [hr, hclient]⟩

/-- What every record keeps, all records of a buffer keep. -/
theorem recvRecords_rule {P : List HandledRecord → OrderServer Q → Prop} {rxTime : Nanos}
    (hstep : ∀ hs s h s', P hs s → Handles sequencer s socket rxTime h s' → P (hs ++ [h]) s')
    {records : List (List UInt8)} {hs more : List HandledRecord} (hinit : P hs s)
    (hrun : recvRecords sequencer log socket rxTime records s = .ok (s', more)) :
    P (hs ++ more) s' ∧ more.map HandledRecord.record = records ∧ (∀ h ∈ more, h.socket = socket) ∧
      s'.sockets = s.sockets := by
  induction records generalizing s hs more with
  | nil =>
    cases hrun
    exact ⟨by rwa [List.append_nil], rfl, fun h hmem => absurd hmem List.not_mem_nil, rfl⟩
  | cons record records ih =>
    obtain ⟨⟨s₁, h⟩, hfirst, hrun⟩ := bind_eq_ok hrun
    obtain ⟨⟨s₂, rest⟩, hrest, hrun⟩ := bind_eq_ok hrun
    cases hrun
    obtain ⟨hrecord, hhandles⟩ := recvRecord_cases hfirst
    obtain ⟨hP, hrecords, hsocket, hsockets⟩ := ih (hstep hs s h s₁ hinit hhandles) hrest
    refine ⟨?_, ?_, fun x hx => ?_, hsockets.trans hhandles.sockets⟩
    · rwa [List.append_assoc] at hP
    · rw [List.map_cons, hrecord, hrecords]
    · rcases List.mem_cons.mp hx with rfl | hx
      · exact hhandles.origin
      · exact hsocket x hx

/-- The state of the order server after its handled records, and the streams it has read. -/
structure Serves (run : List (ServerAction × List ServerEvent)) (s : OrderServer Q) : Prop where
  sessions : Sessions (handledRecords (sent run)) s
  records : ∀ i, recordsOn i (handledRecords (sent run)) = frames OMClientRequest.packed.sizeof (received i run)
  buffers : ∀ i, (s.sockets i).inboundData = leftover OMClientRequest.packed.sizeof (received i run)

lemma recordsOn_append (i : Nat) (hs hs' : List HandledRecord) :
    recordsOn i (hs ++ hs') = recordsOn i hs ++ recordsOn i hs' := by
  rw [recordsOn, List.filter_append, List.map_append]
  rfl

lemma recordsOn_of_socket {i : Nat} {hs : List HandledRecord} (h : ∀ x ∈ hs, x.socket = socket) :
    recordsOn i hs = if socket = i then hs.map HandledRecord.record else [] := by
  unfold recordsOn
  split
  · rename_i heq
    rw [List.filter_eq_self.mpr]
    intro x hx
    simpa [← heq] using h x hx
  · rename_i hne
    have hnone : hs.filter (fun h => h.socket = i) = [] := by
      apply List.filter_eq_nil_iff.mpr
      intro x hx
      simpa [h x hx] using hne
    rw [hnone, List.map_nil]

/-- What the callback does with a buffer, whether it holds a complete record or not. -/
lemma recvCallback_cases {rxTime : Nanos} {more : List HandledRecord}
    (hrun : s.recvCallback sequencer log socket rxTime = .ok (s', more)) :
    ∃ s₁, recvRecords sequencer log socket rxTime ((s.sockets socket).records OMClientRequest.packed.sizeof) s =
      .ok (s₁, more) ∧ s' = s₁.modifySocket socket (·.consume OMClientRequest.packed.sizeof) := by
  rw [recvCallback_logged] at hrun
  obtain ⟨_, -, hrun⟩ := bind_eq_ok hrun
  cases hrecords : recvRecords sequencer log socket rxTime
      ((s.sockets socket).records OMClientRequest.packed.sizeof) s with
  | error e =>
    rw [hrecords] at hrun
    cases hrun
  | ok x =>
    rw [hrecords] at hrun
    cases hrun
    exact ⟨x.1, rfl, rfl⟩

/-- A read adds to the stream of its socket, and hands on the records that it completes. -/
lemma Serves.sendAndRecv {run : List (ServerAction × List ServerEvent)} (h : Serves run s)
    {data : List UInt8} {kernelTime userTime : Nanos} {more : List HandledRecord}
    (hrun : s.sendAndRecv sequencer log socket data kernelTime userTime = .ok (s', more)) :
    Serves (run ++ [(.sendAndRecv socket data kernelTime userTime, more.map .handled)]) s' := by
  have hevents : handledRecords (sent (run ++ [(ServerAction.sendAndRecv socket data kernelTime userTime,
      more.map ServerEvent.handled)])) = handledRecords (sent run) ++ more := by simp
  have hreceived : ∀ i, received i (run ++ [(.sendAndRecv socket data kernelTime userTime, more.map .handled)]) =
      received i run ++ if socket = i then data else [] := by
    intro i
    simp [received, ServerAction.dataOn]
  simp only [OrderServer.sendAndRecv] at hrun
  split at hrun
  · rename_i hempty
    cases hrun
    refine ⟨?_, fun i => ?_, fun i => ?_⟩
    · rw [hevents, List.append_nil]
      exact h.sessions
    · rw [hevents, hreceived, hempty, ite_self, List.append_nil, List.append_nil]
      exact h.records i
    · rw [hreceived, hempty, ite_self, List.append_nil]
      exact h.buffers i
  · obtain ⟨_, -, hrun⟩ := bind_eq_ok hrun
    obtain ⟨s₁, hrecords, rfl⟩ := recvCallback_cases hrun
    generalize hn : OMClientRequest.packed.sizeof = n at *
    have hpos : 0 < n := hn ▸ by decide
    have hbuffer : ((s.modifySocket socket (·.recv data)).sockets socket).inboundData =
        leftover n (received socket run) ++ data := by
      simp only [modifySocket, Function.update_self, TCPSocket.inboundData_recv, h.buffers, hn]
    obtain ⟨hsessions, hmore, hsocket, hsockets⟩ := recvRecords_rule (P := Sessions)
      (fun _ _ _ _ hs hx => hs.handle hx) (h.sessions.modifySocket socket (·.recv data)) hrecords
    rw [TCPSocket.records, hbuffer] at hmore
    refine ⟨?_, fun i => ?_, fun i => ?_⟩
    · rw [hevents]
      exact hsessions.modifySocket socket _
    · rw [hevents, hreceived, recordsOn_append, h.records, hn, recordsOn_of_socket hsocket, hmore]
      by_cases hi : socket = i
      · rw [if_pos hi, if_pos hi, ← hi]
        exact (frames_append hpos _ _).1.symm
      · rw [if_neg hi, if_neg hi, List.append_nil, List.append_nil]
    · rw [hreceived, hn]
      simp only [modifySocket, hsockets]
      by_cases hi : socket = i
      · subst hi
        rw [if_pos rfl, Function.update_self, Function.update_self, TCPSocket.inboundData_consume,
          TCPSocket.inboundData_recv, h.buffers, hn]
        exact (frames_append hpos _ _).2.symm
      · rw [if_neg hi, List.append_nil, Function.update_of_ne (Ne.symm hi), Function.update_of_ne (Ne.symm hi),
          h.buffers, hn]

/-- The other steps handle no record and read nothing. -/
lemma Serves.congr {run : List (ServerAction × List ServerEvent)} (h : Serves run s) {action : ServerAction}
    {es : List ServerEvent} (hes : handledRecords es = []) (hdata : ∀ i, action.dataOn i = [])
    (hbound : s'.cidTcpSocket = s.cidTcpSocket) (hexp : s'.cidNextExpSeqNum = s.cidNextExpSeqNum)
    (hinbound : ∀ i, (s'.sockets i).inboundData = (s.sockets i).inboundData) :
    Serves (run ++ [(action, es)]) s' := by
  have hevents : handledRecords (sent (run ++ [(action, es)])) = handledRecords (sent run) := by simp [hes]
  have hreceived : ∀ i, received i (run ++ [(action, es)]) = received i run := fun i => by
    simp [received, hdata i]
  refine ⟨?_, fun i => ?_, fun i => ?_⟩
  · rw [hevents]
    exact ⟨fun c => by rw [hbound, h.sessions.bound], fun c => by rw [hexp, h.sessions.expected],
      h.sessions.numbers, h.sessions.origin, h.sessions.passed, h.sessions.inRange⟩
  · rw [hevents, hreceived, h.records]
  · rw [hreceived, hinbound, h.buffers]

lemma sendResponse_cases {clientResponse : MEClientResponse}
    (hrun : s.sendResponse log clientResponse = .ok s') :
    clientResponse.clientId < ME_MAX_NUM_CLIENTS ∧ ∃ socket, s.cidTcpSocket clientResponse.clientId = some socket ∧
      s' = { s.modifySocket socket (fun sock =>
          (sock.send (sizeT.encode (s.cidNextOutgoingSeqNum clientResponse.clientId))).send
            (MEClientResponse.packed.encode clientResponse)) with
        cidNextOutgoingSeqNum := Function.update s.cidNextOutgoingSeqNum clientResponse.clientId
          (wrap64 (s.cidNextOutgoingSeqNum clientResponse.clientId + 1)) } := by
  simp only [OrderServer.sendResponse] at hrun
  obtain ⟨_, hclient, hrun⟩ := bind_eq_ok hrun
  obtain ⟨_, -, hrun⟩ := bind_eq_ok hrun
  cases hbound : s.cidTcpSocket clientResponse.clientId with
  | none =>
    rw [hbound] at hrun
    cases hrun
  | some socket =>
    rw [hbound] at hrun
    cases hrun
    exact ⟨clientIndex_eq_ok hclient, socket, rfl, rfl⟩

lemma Serves.step {run : List (ServerAction × List ServerEvent)} (h : Serves run s) {action : ServerAction}
    {es : List ServerEvent} (hrun : s.step sequencer log action = .ok (s', es)) :
    Serves (run ++ [(action, es)]) s' := by
  cases action with
  | sendAndRecv socket data kernelTime userTime =>
    obtain ⟨⟨s₁, more⟩, hrecv, hrun⟩ := bind_eq_ok hrun
    cases hrun
    exact h.sendAndRecv hrecv
  | recvFinished =>
    obtain ⟨⟨s₁, written⟩, hfinished, hrun⟩ := bind_eq_ok hrun
    cases hrun
    obtain ⟨⟨fifoSequencer, written'⟩, -, hfinished⟩ := bind_eq_ok hfinished
    cases hfinished
    exact h.congr (handledRecords_published written) (fun _ => rfl) rfl rfl fun _ => rfl
  | sendResponse clientResponse =>
    obtain ⟨s₁, hsend, hrun⟩ := bind_eq_ok hrun
    cases hrun
    obtain ⟨-, socket, -, rfl⟩ := sendResponse_cases hsend
    refine h.congr rfl (fun _ => rfl) rfl rfl fun i => ?_
    simp only [modifySocket, Function.update_apply]
    split
    · rename_i hi
      rw [hi]
      rfl
    · rfl

end OrderServer

/-- All requests that went to the sequencer, in this order. -/
def passedRequests (hs : List HandledRecord) : List MEClientRequest := hs.filterMap HandledRecord.passed

lemma passedRequests_append (hs hs' : List HandledRecord) :
    passedRequests (hs ++ hs') = passedRequests hs ++ passedRequests hs' := List.filterMap_append

/-- A client's requests are among all of them. -/
lemma length_passedFor_le (c : ClientId) (hs : List HandledRecord) :
    (passedFor c hs).length ≤ (passedRequests hs).length := by
  induction hs with
  | nil => exact Nat.le_refl 0
  | cons h hs ih =>
    rw [passedFor, passedRequests, List.filter_cons, List.filterMap_cons]
    cases hpassed : h.passed with
    | none => simpa [passedFor, passedRequests] using ih
    | some r =>
      by_cases hc : h.clientId = c
      · simpa [hc, passedFor, passedRequests] using ih
      · simpa [hc, passedFor, passedRequests] using Nat.le_succ_of_le ih

namespace OrderServer
variable {std : StdSort} {log : Log} {s s' : OrderServer FIFOSequencer} {socket : Nat}

/-- The sequencer holds every request that was passed to it. -/
def Queues (hs : List HandledRecord) (s : OrderServer FIFOSequencer) : Prop :=
  ∃ added, s.fifoSequencer.Holds added ∧ added.map RecvTimeClientRequest.request = passedRequests hs

lemma Queues.handle {hs : List HandledRecord} (hqueues : Queues hs s) {rxTime : Nanos} {h : HandledRecord}
    (hhandles : Handles (FIFOSequencer.sequencer std) s socket rxTime h s') : Queues (hs ++ [h]) s' := by
  obtain ⟨added, hholds, hadded⟩ := hqueues
  rw [Queues, passedRequests_append]
  rcases hhandles.result with ⟨hnone, -, hsame⟩ | ⟨hsome, -, -, -, hadd⟩
  · rw [hsame]
    exact ⟨added, hholds, by simp [passedRequests, hnone, hadded]⟩
  · have hmore := hholds.addClientRequest (r := ⟨rxTime, h.request.meClientRequest⟩) hadd
    exact ⟨_, hmore, by simp [passedRequests, hsome, hadded]⟩

lemma Queues.length_le {hs : List HandledRecord} (h : Queues hs s) :
    (passedRequests hs).length ≤ ME_MAX_PENDING_REQUESTS := by
  obtain ⟨added, hholds, hadded⟩ := h
  rw [← hadded, List.length_map]
  exact hholds.fits

lemma Queues.step {run : List (ServerAction × List ServerEvent)} (h : Queues (handledRecords (sent run)) s)
    {action : ServerAction} {es : List ServerEvent}
    (hrun : s.step (FIFOSequencer.sequencer std) log action = .ok (s', es)) :
    Queues (handledRecords (sent (run ++ [(action, es)]))) s' := by
  rw [sent_append, handledRecords_append, sent_singleton]
  cases action with
  | sendAndRecv socket data kernelTime userTime =>
    obtain ⟨⟨s₁, more⟩, hrecv, hrun⟩ := bind_eq_ok hrun
    cases hrun
    rw [handledRecords_handled]
    simp only [OrderServer.sendAndRecv] at hrecv
    split at hrecv
    · cases hrecv
      rwa [List.append_nil]
    · obtain ⟨_, -, hrecv⟩ := bind_eq_ok hrecv
      obtain ⟨s₂, hrecords, rfl⟩ := recvCallback_cases hrecv
      have hread : Queues (handledRecords (sent run)) (s.modifySocket socket (·.recv data)) := h
      have hmore := (recvRecords_rule (P := Queues) (fun _ _ _ _ hs hx => hs.handle hx) hread hrecords).1
      exact hmore
  | recvFinished =>
    obtain ⟨⟨s₁, written⟩, hfinished, hrun⟩ := bind_eq_ok hrun
    cases hrun
    obtain ⟨⟨fifoSequencer, published⟩, hsequence, hfinished⟩ := bind_eq_ok hfinished
    cases hfinished
    rw [handledRecords_published, List.append_nil]
    obtain ⟨added, hholds, hadded⟩ := h
    obtain ⟨q, w, hkeeps, hkept, -⟩ := hholds.sequenceAndPublish std
    have hq : (q, w) = (fifoSequencer, written) := Except.ok.inj (hkeeps.symm.trans hsequence)
    cases hq
    exact ⟨added, hkept, hadded⟩
  | sendResponse clientResponse =>
    obtain ⟨s₁, hsend, hrun⟩ := bind_eq_ok hrun
    cases hrun
    obtain ⟨-, socket, -, rfl⟩ := sendResponse_cases hsend
    have hnil : handledRecords [] = [] := rfl
    rw [hnil, List.append_nil]
    exact h

end OrderServer

/-- A run of the order server from its initial state, over any traffic. -/
abbrev ServerRun (std : StdSort) (log : Log) (run : List (ServerAction × List ServerEvent))
    (s : OrderServer FIFOSequencer) : Prop :=
  Reached (OrderServer.step (FIFOSequencer.sequencer std) log) (fun _ _ _ _ => True) (OrderServer.create {}) run s

lemma ServerRun.invariant {std : StdSort} {log : Log} {run : List (ServerAction × List ServerEvent)}
    {s : OrderServer FIFOSequencer} (h : ServerRun std log run s) :
    s.Serves run ∧ s.Queues (handledRecords (sent run)) := by
  refine Reached.invariant h (fun run s => s.Serves run ∧ s.Queues (handledRecords (sent run))) ?_ ?_
  · refine ⟨⟨OrderServer.sessions_create _, fun i => rfl, fun i => rfl⟩, [], FIFOSequencer.holds_fresh, rfl⟩
  · intro run s action s' es hinv _ hstep
    exact ⟨hinv.1.step hstep, hinv.2.step hstep⟩

/-- The requests of a client that reach the sequencer are numbered 1, 2, ..., k, come from the
socket on which its id was received first, and are byte for byte what was received there. -/
theorem request_integrity {std : StdSort} {log : Log} {run : List (ServerAction × List ServerEvent)}
    {s : OrderServer FIFOSequencer} (h : ServerRun std log run s) :
    (∀ socket, recordsOn socket (handledRecords (sent run)) =
      frames OMClientRequest.packed.sizeof (received socket run)) ∧
    ∀ c, ∃ k,
      (passedFor c (handledRecords (sent run))).map (fun x => x.request.seqNum) = (List.range k).map (· + 1) ∧
      s.cidNextExpSeqNum c = k + 1 ∧
      ∀ x ∈ passedFor c (handledRecords (sent run)),
        firstSocket c (handledRecords (sent run)) = some x.socket ∧
        x.record ∈ frames OMClientRequest.packed.sizeof (received x.socket run) ∧
        ∃ r, x.passed = some r ∧ r.clientId = c ∧
          x.record = sizeT.encode x.request.seqNum ++ MEClientRequest.packed.encode r := by
  obtain ⟨hserves, hqueues⟩ := h.invariant
  have hsessions := hserves.sessions
  have hfew : ∀ c, (passedFor c (handledRecords (sent run))).length ≤ 1024 := fun c =>
    Nat.le_trans (length_passedFor_le c _) hqueues.length_le
  refine ⟨hserves.records, fun c => ⟨(passedFor c (handledRecords (sent run))).length, ?_, ?_, ?_⟩⟩
  · have hpending : ∀ i ∈ List.range (passedFor c (handledRecords (sent run))).length, wrap64 (i + 1) = i + 1 := by
      intro i hi
      have hlt := List.mem_range.mp hi
      have hle := hfew c
      exact wrap64_of_lt (by omega)
    rw [hsessions.numbers]
    exact List.map_congr_left hpending
  · rw [hsessions.expected]
    have hle := hfew c
    exact wrap64_of_lt (by omega)
  · intro x hx
    obtain ⟨hmem, hx⟩ := List.mem_filter.mp hx
    obtain ⟨hpassed, hclient⟩ : x.passed.isSome ∧ x.clientId = c := by simpa using hx
    obtain ⟨r, hr⟩ := Option.isSome_iff_exists.mp hpassed
    have hsame := hsessions.passed x hmem r hr
    have hrecord : x.record ∈ frames OMClientRequest.packed.sizeof (received x.socket run) := by
      rw [← hserves.records]
      exact List.mem_map_of_mem (List.mem_filter.mpr ⟨hmem, decide_eq_true rfl⟩)
    have hlength := (framed_frames (by decide) (received x.socket run)).length _ hrecord
    refine ⟨hclient ▸ hsessions.origin x hmem hpassed, hrecord, r, hr, ?_, ?_⟩
    · rw [hsame]
      exact hclient
    · rw [hsame]
      exact (OMClientRequest.packed.encode_decode _ hlength).symm

def numberedRecord (seqNum : Nat) (clientId : ClientId) : List UInt8 :=
  OMClientRequest.packed.encode ⟨seqNum, { type := .cancel, clientId := clientId, tickerId := 0, orderId := 7 }⟩

/-- A record in two reads, another socket that uses the same client id, and a number sent twice. -/
def mixedTraffic : List ServerAction :=
  [.sendAndRecv 0 (numberedRecord 1 3 ++ (numberedRecord 2 3).take 11) 10 11, .sendAndRecv 1 (numberedRecord 2 3) 12 13,
    .sendAndRecv 0 ((numberedRecord 2 3).drop 11 ++ numberedRecord 2 3) 14 15]

theorem request_integrity_mixedTraffic : ∃ run s, ServerRun .merge Logger.silent run s ∧
    run.map Prod.fst = mixedTraffic ∧
    (passedFor 3 (handledRecords (sent run))).map (fun x => x.request.seqNum) = [1, 2] ∧
    s.cidNextExpSeqNum 3 = 3 ∧ ∀ x ∈ passedFor 3 (handledRecords (sent run)), x.socket = 0 := by
  have hevents : ((execute (OrderServer.step (FIFOSequencer.sequencer .merge) Logger.silent) (OrderServer.create {})
      mixedTraffic).toOption.map fun x => handledRecords x.2) =
      some [⟨0, numberedRecord 1 3, some (OMClientRequest.packed.decode (numberedRecord 1 3)).meClientRequest⟩,
        ⟨1, numberedRecord 2 3, none⟩,
        ⟨0, numberedRecord 2 3, some (OMClientRequest.packed.decode (numberedRecord 2 3)).meClientRequest⟩,
        ⟨0, numberedRecord 2 3, none⟩] := by decide +kernel
  cases hrun : execute (OrderServer.step (FIFOSequencer.sequencer .merge) Logger.silent) (OrderServer.create {})
    mixedTraffic with
  | error e =>
    rw [hrun] at hevents
    cases hevents
  | ok r =>
    obtain ⟨run, hreached, hsent, hactions⟩ :=
      reached_execute (fun _ _ _ _ _ => trivial) .start hrun
    rw [List.nil_append] at hreached
    rw [hrun] at hevents
    have hhandled := (congrArg handledRecords hsent).trans (Option.some.inj hevents)
    have hpassed : (passedFor 3 (handledRecords (sent run))).map (fun x => x.request.seqNum) = [1, 2] := by
      rw [hhandled]
      decide +kernel
    obtain ⟨k, hnumbers, hexp, hrecords⟩ := (request_integrity hreached).2 3
    have hk : k = 2 := by
      have hlength := congrArg List.length (hpassed.symm.trans hnumbers)
      simpa using hlength.symm
    refine ⟨run, r.1, hreached, hactions, hpassed, by rw [hexp, hk], fun x hx => ?_⟩
    have hfirst := (hrecords x hx).1
    rw [hhandled] at hfirst
    exact Option.some.inj (hfirst.symm.trans (by decide +kernel))

end LowLatencyExchange
