import LowLatencyExchange.Exchange.Intake

/-!
# Rounds of the TCP server

`TCPServer::sendAndRecv` reads its receive sockets in turn and has the order server publish once
when any of them had something. Nothing takes requests out of the sequencer again, so a run lasts
for as many requests as its array has places.
-/

namespace LowLatencyExchange
open ByteStream LoggedRun

/-- What a round finds on a receive socket, nothing where `recvmsg` has nothing to read. -/
structure Arrival where
  socket : Nat
  data : List UInt8
  kernelTime : Nanos := 0
  userTime : Nanos := 0

namespace TCPServer
variable {Q : Type}

/-- The reads of a round, and the records handled with the times of their reads. -/
def receive (sequencer : Sequencer Q) (log : Log) :
    List Arrival → OrderServer Q → Except Fault (OrderServer Q × List (Nanos × HandledRecord))
  | [], s => pure (s, [])
  | a :: round, s => do
    let (s, handled) ← s.sendAndRecv sequencer log a.socket a.data a.kernelTime a.userTime
    let (s, rest) ← receive sequencer log round s
    pure (s, handled.map (a.kernelTime, ·) ++ rest)

/-- One round, and the requests it published. -/
def sendAndRecv (sequencer : Sequencer Q) (log : Log) (s : OrderServer Q) (round : List Arrival) :
    Except Fault (OrderServer Q × List MEClientRequest) := do
  let (s, _) ← receive sequencer log round s
  if round.any fun a => a.data ≠ [] then s.recvFinishedCallback sequencer else pure (s, [])

/-- A round of the exchange's own server. -/
def step (std : StdSort) : OrderServer FIFOSequencer → List Arrival →
    Except Fault (OrderServer FIFOSequencer × List MEClientRequest) :=
  sendAndRecv (FIFOSequencer.sequencer std) Logger.log

/-- The records that arrivals complete one after another, with their sockets. -/
def completed : (Nat → List UInt8) → List Arrival → List (Nat × List UInt8)
  | _, [] => []
  | buffers, a :: arrivals =>
    (frames OMClientRequest.packed.sizeof (buffers a.socket ++ a.data)).map (a.socket, ·) ++
      completed (Function.update buffers a.socket
        (leftover OMClientRequest.packed.sizeof (buffers a.socket ++ a.data))) arrivals

end TCPServer

/-- Records of known clients, each client on one socket, numbered 1, 2, 3, ... for each of them. -/
structure WellNumbered (records : List (Nat × List UInt8)) : Prop where
  client : ∀ x ∈ records, recordClient x.2 < ME_MAX_NUM_CLIENTS
  socket : ∀ x ∈ records, ∀ y ∈ records, recordClient x.2 = recordClient y.2 → x.1 = y.1
  numbered : ∀ past x later, records = past ++ x :: later → recordSeqNum x.2 =
    wrap64 ((past.filter fun y => recordClient y.2 = recordClient x.2).length + 1)

lemma WellNumbered.of_append {records later : List (Nat × List UInt8)} (h : WellNumbered (records ++ later)) :
    WellNumbered records where
  client := fun x hx => h.client x (List.mem_append_left later hx)
  socket := fun x hx y hy => h.socket x (List.mem_append_left later hx) y (List.mem_append_left later hy)
  numbered := fun past x after hsplit => h.numbered past x (after ++ later) (by simp [hsplit])

namespace OrderServer

/-- The server that has passed on these records, every one of them. -/
structure Tracks (past : List (Nat × List UInt8)) (s : OrderServer FIFOSequencer) : Prop where
  holds : ∃ added, s.fifoSequencer.Holds added ∧ added.length = past.length
  bound : ∀ c, s.cidTcpSocket c = (past.find? fun x => recordClient x.2 = c).map Prod.fst
  expected : ∀ c, s.cidNextExpSeqNum c = wrap64 ((past.filter fun x => recordClient x.2 = c).length + 1)

lemma tracks_create : Tracks [] (create {}) where
  holds := ⟨[], FIFOSequencer.holds_fresh, rfl⟩
  bound := fun _ => rfl
  expected := fun _ => rfl

variable {std : StdSort} {s s' : OrderServer FIFOSequencer} {past : List (Nat × List UInt8)} {socket : Nat}
  {rxTime : Nanos} {record : List UInt8}

lemma Tracks.pendingSize (h : Tracks past s) : s.fifoSequencer.pendingSize = past.length := by
  obtain ⟨added, hholds, hlength⟩ := h.holds
  exact hholds.size.trans hlength

/-- The client of the next record has no socket yet, or the one it comes on. -/
lemma Tracks.owns (h : Tracks past s) (hwell : WellNumbered (past ++ [(socket, record)])) :
    s.Owns socket (recordClient record) := by
  unfold Owns
  rw [h.bound]
  cases hfirst : past.find? fun x => recordClient x.2 = recordClient record with
  | none => exact .inl rfl
  | some x =>
    right
    have hmem := List.mem_of_find?_eq_some hfirst
    have hclient : recordClient x.2 = recordClient record := by simpa using List.find?_some hfirst
    have hsame := hwell.socket x (List.mem_append_left _ hmem) (socket, record)
      (List.mem_append_right past List.mem_cons_self) hclient
    exact congrArg some hsame

/-- The next record is passed on, if there is a place for it. -/
lemma Tracks.recvRecord (h : Tracks past s) (hwell : WellNumbered (past ++ [(socket, record)])) (rxTime : Nanos) :
    (past.length < ME_MAX_PENDING_REQUESTS ∧
      ∃ s' x, s.recvRecord (FIFOSequencer.sequencer std) Logger.log socket rxTime record = .ok (s', x) ∧
        Tracks (past ++ [(socket, record)]) s' ∧ s'.sockets = s.sockets) ∨
    (ME_MAX_PENDING_REQUESTS ≤ past.length ∧
      s.recvRecord (FIFOSequencer.sequencer std) Logger.log socket rxTime record =
        .error (.fatal "Too many pending requests")) := by
  have hclient := hwell.client (socket, record) (List.mem_append_right past List.mem_cons_self)
  have hseq : recordSeqNum record = s.cidNextExpSeqNum (recordClient record) := by
    rw [h.expected]
    exact hwell.numbered past (socket, record) [] rfl
  have hpending := h.pendingSize
  obtain ⟨added, hholds, hlength⟩ := h.holds
  rw [recvRecord_own hclient (h.owns hwell), if_neg (not_not.mpr hseq)]
  by_cases hroom : past.length < ME_MAX_PENDING_REQUESTS
  · left
    obtain ⟨q, hadd⟩ := hholds.addClientRequest_returns ⟨rxTime, (OMClientRequest.packed.decode record).meClientRequest⟩
      (hlength ▸ hroom)
    have hmore := hholds.addClientRequest hadd
    dsimp only at hadd
    rw [hadd, ok_bind]
    refine ⟨hroom, _, _, rfl, ⟨⟨_, hmore, ?_⟩, fun c => ?_, fun c => ?_⟩, sockets_bindSocket s _ _⟩
    · rw [List.length_append, List.length_append, hlength]
      rfl
    · apply (cidTcpSocket_bindSocket s _ c socket).trans
      rw [h.bound, List.find?_append, Option.map_or]
      by_cases hc : recordClient record = c <;> simp [hc]
    · simp only [Function.update_apply, List.filter_append, List.length_append]
      by_cases hc : c = recordClient record
      · rw [if_pos hc, h.expected, wrap64_succ, hc]
        simp
      · rw [if_neg hc, h.expected]
        simp [Ne.symm hc]
  · right
    refine ⟨Nat.not_lt.mp hroom, ?_⟩
    unfold FIFOSequencer.addClientRequest
    rw [if_pos (by rw [hholds.length, hpending]; exact Nat.not_lt.mp hroom), error_bind]

variable (std) in
/-- The next records of a buffer are passed on, if there are places for them. -/
lemma Tracks.recvRecords (h : Tracks past s) {records : List (List UInt8)}
    (hwell : WellNumbered (past ++ records.map (socket, ·))) (rxTime : Nanos) :
    (past.length + records.length ≤ ME_MAX_PENDING_REQUESTS ∧
      ∃ s' xs, recvRecords (FIFOSequencer.sequencer std) Logger.log socket rxTime records s = .ok (s', xs) ∧
        Tracks (past ++ records.map (socket, ·)) s' ∧ s'.sockets = s.sockets) ∨
    (ME_MAX_PENDING_REQUESTS < past.length + records.length ∧
      recvRecords (FIFOSequencer.sequencer std) Logger.log socket rxTime records s =
        .error (.fatal "Too many pending requests")) := by
  induction records generalizing s past with
  | nil =>
    left
    obtain ⟨added, hholds, hlength⟩ := h.holds
    refine ⟨hlength ▸ hholds.fits, s, [], rfl, ?_, rfl⟩
    rwa [List.map_nil, List.append_nil]
  | cons record records ih =>
    rw [List.map_cons, List.append_cons] at hwell ⊢
    simp only [OrderServer.recvRecords, List.length_cons]
    rcases h.recvRecord hwell.of_append rxTime with ⟨-, s₁, x, hrecord, htracks, hsockets⟩ | ⟨hfull, hrecord⟩
    · rw [hrecord, ok_bind]
      dsimp only
      have hlength : (past ++ [(socket, record)]).length = past.length + 1 := List.length_append
      rcases ih htracks hwell with ⟨hroom, s₂, xs, hrecords, htracks₂, hsockets₂⟩ | ⟨hfull, hrecords⟩
      · left
        refine ⟨by omega, s₂, x :: xs, ?_, htracks₂, hsockets₂.trans hsockets⟩
        rw [hrecords, ok_bind, pure_eq_ok]
      · right
        refine ⟨by omega, ?_⟩
        rw [hrecords, error_bind]
    · right
      refine ⟨by omega, ?_⟩
      rw [hrecord, error_bind]

variable (std) in
/-- The records of a read are passed on, if there are places for them. -/
lemma Tracks.sendAndRecv (h : Tracks past s) {data : List UInt8}
    (hshort : (s.sockets socket).inboundData.length < OMClientRequest.packed.sizeof)
    (hwell : WellNumbered (past ++ (frames OMClientRequest.packed.sizeof
      ((s.sockets socket).inboundData ++ data)).map (socket, ·))) (kernelTime userTime : Nanos) :
    (past.length + (frames OMClientRequest.packed.sizeof ((s.sockets socket).inboundData ++ data)).length ≤
        ME_MAX_PENDING_REQUESTS ∧
      ∃ s' xs, s.sendAndRecv (FIFOSequencer.sequencer std) Logger.log socket data kernelTime userTime = .ok (s', xs) ∧
        Tracks (past ++ (frames OMClientRequest.packed.sizeof
          ((s.sockets socket).inboundData ++ data)).map (socket, ·)) s' ∧
        (fun i => (s'.sockets i).inboundData) = Function.update (fun i => (s.sockets i).inboundData) socket
          (leftover OMClientRequest.packed.sizeof ((s.sockets socket).inboundData ++ data))) ∨
    (ME_MAX_PENDING_REQUESTS <
        past.length + (frames OMClientRequest.packed.sizeof ((s.sockets socket).inboundData ++ data)).length ∧
      s.sendAndRecv (FIFOSequencer.sequencer std) Logger.log socket data kernelTime userTime =
        .error (.fatal "Too many pending requests")) := by
  by_cases hdata : data = []
  · subst hdata
    left
    obtain ⟨hframes, hleftover⟩ := frames_of_lt hshort
    obtain ⟨added, hholds, hlength⟩ := h.holds
    rw [List.append_nil, hframes, hleftover, List.map_nil, List.append_nil, List.length_nil, Nat.add_zero]
    refine ⟨hlength ▸ hholds.fits, s, [], ?_, h, (Function.update_eq_self socket fun i => (s.sockets i).inboundData).symm⟩
    rw [OrderServer.sendAndRecv, if_pos rfl, pure_eq_ok]
  · have hread : Tracks past (s.modifySocket socket (·.recv data)) := ⟨h.holds, h.bound, h.expected⟩
    have hrecords : ((s.modifySocket socket (·.recv data)).sockets socket).records OMClientRequest.packed.sizeof =
        frames OMClientRequest.packed.sizeof ((s.sockets socket).inboundData ++ data) := by
      rw [sockets_modifySocket, Function.update_self]
      rfl
    rw [sendAndRecv_eq Logger.counts_log s socket hdata, recvCallback_eq Logger.counts_log, hrecords]
    rcases hread.recvRecords std hwell kernelTime with ⟨hroom, s', xs, hrun, htracks, hsockets⟩ | ⟨hfull, hrun⟩
    · left
      rw [hrun]
      refine ⟨hroom, _, xs, rfl, ⟨htracks.holds, htracks.bound, htracks.expected⟩, ?_⟩
      funext i
      rw [sockets_modifySocket, hsockets, sockets_modifySocket]
      by_cases hi : i = socket
      · subst hi
        rw [Function.update_self, Function.update_self, Function.update_self]
        rfl
      · rw [Function.update_of_ne hi, Function.update_of_ne hi, Function.update_of_ne hi]
    · right
      rw [hrun]
      exact ⟨hfull, rfl⟩

/-- A publication empties nothing. -/
lemma Tracks.recvFinished (h : Tracks past s) (std : StdSort) :
    ∃ s' written, s.recvFinishedCallback (FIFOSequencer.sequencer std) = .ok (s', written) ∧ Tracks past s' ∧
      s'.sockets = s.sockets := by
  obtain ⟨added, hholds, hlength⟩ := h.holds
  obtain ⟨q, written, hrun, hkept, -⟩ := hholds.sequenceAndPublish std
  have hsequence : (FIFOSequencer.sequencer std).sequenceAndPublish s.fifoSequencer = .ok (q, written) := hrun
  refine ⟨{ s with fifoSequencer := q }, written, ?_, ⟨⟨added, hkept, hlength⟩, h.bound, h.expected⟩, rfl⟩
  rw [recvFinishedCallback, hsequence, ok_bind]
  rfl

end OrderServer

namespace TCPServer
variable {std : StdSort} {s s' : OrderServer FIFOSequencer} {past : List (Nat × List UInt8)} {buffers : Nat → List UInt8}

/-- What the buffers hold after some arrivals. -/
def buffered : (Nat → List UInt8) → List Arrival → Nat → List UInt8
  | buffers, [] => buffers
  | buffers, a :: arrivals => buffered (Function.update buffers a.socket
      (leftover OMClientRequest.packed.sizeof (buffers a.socket ++ a.data))) arrivals

lemma completed_append (buffers : Nat → List UInt8) (arrivals later : List Arrival) :
    completed buffers (arrivals ++ later) = completed buffers arrivals ++ completed (buffered buffers arrivals) later := by
  induction arrivals generalizing buffers with
  | nil => rfl
  | cons a arrivals ih => rw [List.cons_append, completed, ih, completed, buffered, List.append_assoc]

lemma buffered_append (buffers : Nat → List UInt8) (arrivals later : List Arrival) :
    buffered buffers (arrivals ++ later) = buffered (buffered buffers arrivals) later := by
  induction arrivals generalizing buffers with
  | nil => rfl
  | cons a arrivals ih => rw [List.cons_append, buffered, ih, buffered]

/-- The server that has passed on these records, with these incomplete ones in its buffers. -/
structure Follows (past : List (Nat × List UInt8)) (buffers : Nat → List UInt8) (s : OrderServer FIFOSequencer) :
    Prop where
  tracks : s.Tracks past
  inbound : (fun i => (s.sockets i).inboundData) = buffers
  short : ∀ i, (buffers i).length < OMClientRequest.packed.sizeof

lemma follows_create : Follows [] (fun _ => []) (OrderServer.create {}) where
  tracks := OrderServer.tracks_create
  inbound := rfl
  short := fun _ => by decide

lemma Follows.short_update (h : Follows past buffers s) (i : Nat) (data : List UInt8) (j : Nat) :
    (Function.update buffers i (leftover OMClientRequest.packed.sizeof data) j).length <
      OMClientRequest.packed.sizeof := by
  by_cases hj : j = i
  · rw [hj, Function.update_self]
    exact (framed_frames (by decide) data).rest
  · rw [Function.update_of_ne hj]
    exact h.short j

variable (std) in
/-- The reads of a round go through, if there are places for the records they complete. -/
lemma Follows.receive (h : Follows past buffers s) {round : List Arrival}
    (hwell : WellNumbered (past ++ completed buffers round)) :
    (past.length + (completed buffers round).length ≤ ME_MAX_PENDING_REQUESTS ∧
      ∃ s' xs, receive (FIFOSequencer.sequencer std) Logger.log round s = .ok (s', xs) ∧
        Follows (past ++ completed buffers round) (buffered buffers round) s') ∨
    (ME_MAX_PENDING_REQUESTS < past.length + (completed buffers round).length ∧
      receive (FIFOSequencer.sequencer std) Logger.log round s = .error (.fatal "Too many pending requests")) := by
  induction round generalizing s past buffers with
  | nil =>
    left
    obtain ⟨added, hholds, hlength⟩ := h.tracks.holds
    refine ⟨hlength ▸ hholds.fits, s, [], rfl, ?_⟩
    rwa [completed, List.append_nil]
  | cons a round ih =>
    have hbuffer : (s.sockets a.socket).inboundData = buffers a.socket := congrFun h.inbound a.socket
    have hshort := h.short a.socket
    have hupdate := h.short_update a.socket (buffers a.socket ++ a.data)
    rw [completed, ← List.append_assoc] at hwell ⊢
    have hread := hwell.of_append
    rw [← hbuffer] at hshort hread
    have hone := h.tracks.sendAndRecv std hshort hread a.kernelTime a.userTime
    rw [h.inbound, hbuffer] at hone
    simp only [TCPServer.receive, buffered]
    generalize (frames OMClientRequest.packed.sizeof (buffers a.socket ++ a.data)) = records at *
    generalize Function.update buffers a.socket
      (leftover OMClientRequest.packed.sizeof (buffers a.socket ++ a.data)) = buffers' at *
    have hlength : (past ++ records.map (a.socket, ·)).length = past.length + records.length := by
      rw [List.length_append, List.length_map]
    rw [List.length_append, List.length_map]
    rcases hone with ⟨hroom, s₁, xs, hrun, htracks, hbuffers⟩ | ⟨hfull, hrun⟩
    · rw [hrun, ok_bind]
      dsimp only
      rcases ih ⟨htracks, hbuffers, hupdate⟩ hwell with ⟨hall, s₂, ys, hrest, hfollows⟩ | ⟨hfull, hrest⟩
      · left
        refine ⟨by omega, s₂, xs.map (a.kernelTime, ·) ++ ys, ?_, hfollows⟩
        rw [hrest, ok_bind, pure_eq_ok]
      · right
        refine ⟨by omega, ?_⟩
        rw [hrest, error_bind]
    · right
      refine ⟨by omega, ?_⟩
      rw [hrun, error_bind]

variable (std) in
lemma Follows.sendAndRecv (h : Follows past buffers s) {round : List Arrival}
    (hwell : WellNumbered (past ++ completed buffers round)) :
    (past.length + (completed buffers round).length ≤ ME_MAX_PENDING_REQUESTS ∧
      ∃ s' written, step std s round = .ok (s', written) ∧
        Follows (past ++ completed buffers round) (buffered buffers round) s') ∨
    (ME_MAX_PENDING_REQUESTS < past.length + (completed buffers round).length ∧
      step std s round = .error (.fatal "Too many pending requests")) := by
  unfold step TCPServer.sendAndRecv
  rcases h.receive std hwell with ⟨hroom, s₁, xs, hrun, hfollows⟩ | ⟨hfull, hrun⟩
  · left
    rw [hrun, ok_bind]
    dsimp only
    refine ⟨hroom, ?_⟩
    split
    · obtain ⟨s₂, written, hfinished, htracks, hsockets⟩ := hfollows.tracks.recvFinished std
      exact ⟨s₂, written, hfinished, htracks, hsockets ▸ hfollows.inbound, hfollows.short⟩
    · exact ⟨s₁, [], rfl, hfollows⟩
  · right
    refine ⟨hfull, ?_⟩
    rw [hrun, error_bind]

variable (std) in
/-- A run goes through, if there are places for all records of it. -/
theorem Follows.run (h : Follows past buffers s) {rounds : List (List Arrival)}
    (hwell : WellNumbered (past ++ completed buffers rounds.flatten)) :
    (past.length + (completed buffers rounds.flatten).length ≤ ME_MAX_PENDING_REQUESTS ∧
      ∃ s' written, execute (step std) s rounds = .ok (s', written) ∧
        Follows (past ++ completed buffers rounds.flatten) (buffered buffers rounds.flatten) s') ∨
    (ME_MAX_PENDING_REQUESTS < past.length + (completed buffers rounds.flatten).length ∧
      execute (step std) s rounds = .error (.fatal "Too many pending requests")) := by
  induction rounds generalizing s past buffers with
  | nil =>
    left
    obtain ⟨added, hholds, hlength⟩ := h.tracks.holds
    refine ⟨hlength ▸ hholds.fits, s, [], rfl, ?_⟩
    rwa [List.flatten_nil, completed, List.append_nil]
  | cons round rounds ih =>
    rw [List.flatten_cons, completed_append, ← List.append_assoc] at hwell ⊢
    rw [buffered_append]
    have hlength : (past ++ completed buffers round).length = past.length + (completed buffers round).length :=
      List.length_append
    rw [List.length_append]
    rcases h.sendAndRecv std hwell.of_append with ⟨hroom, s₁, written, hrun, hfollows⟩ | ⟨hfull, hrun⟩
    · rcases ih hfollows hwell with ⟨hall, s₂, written', hrest, hfollows₂⟩ | ⟨hfull, hrest⟩
      · left
        exact ⟨by omega, s₂, _, execute_cons hrun hrest, hfollows₂⟩
      · right
        exact ⟨by omega, execute_cons_error hrun hrest⟩
    · right
      exact ⟨by omega, execute_error hrun rounds⟩

/-- No request meets a full array, and none is left behind by a publication. -/
structure Bears (std : StdSort) (rounds : List (List Arrival)) : Prop where
  returns : ∃ s written, execute (step std) (OrderServer.create {}) rounds = .ok (s, written)
  emptied : Always (step std) (OrderServer.create {}) rounds fun s => s.fifoSequencer.pendingSize = 0

/-- The state after rounds that went through. -/
lemma follows_execute {rounds : List (List Arrival)} {written : List MEClientRequest}
    (hwell : WellNumbered (completed (fun _ => []) rounds.flatten))
    (hrun : execute (step std) (OrderServer.create {}) rounds = .ok (s, written)) :
    s.fifoSequencer.pendingSize = (completed (fun _ => []) rounds.flatten).length := by
  rcases follows_create.run std hwell with ⟨-, s', written', hrun', hfollows⟩ | ⟨-, hrun'⟩
  · rw [hrun] at hrun'
    cases hrun'
    exact hfollows.tracks.pendingSize
  · rw [hrun] at hrun'
    cases hrun'

lemma Bears.completed_eq_nil {rounds : List (List Arrival)}
    (hwell : WellNumbered (completed (fun _ => []) rounds.flatten)) (h : Bears std rounds) :
    completed (fun _ => []) rounds.flatten = [] := by
  obtain ⟨s, written, hreturns⟩ := h.returns
  have hnone : s.fifoSequencer.pendingSize = 0 := h.emptied rounds s written (List.prefix_refl rounds) hreturns
  rw [follows_execute hwell hreturns] at hnone
  exact List.length_eq_zero_iff.mp hnone

end TCPServer

/-- A run of well-numbered requests ends in the FATAL of `addClientRequest` once there are more than 1024 of them
in all its rounds. Not even a single one is gone after the publications. -/
theorem bursts {std : StdSort} {rounds : List (List Arrival)}
    (hwell : WellNumbered (TCPServer.completed (fun _ => []) rounds.flatten)) :
    errorOf (TCPServer.step std) (OrderServer.create {}) rounds =
      (if (TCPServer.completed (fun _ => []) rounds.flatten).length ≤ ME_MAX_PENDING_REQUESTS then none
        else some (.fatal "Too many pending requests")) ∧
    (TCPServer.Bears std rounds ↔ TCPServer.completed (fun _ => []) rounds.flatten = []) := by
  have hrun := TCPServer.follows_create.run std hwell
  rw [List.nil_append, List.length_nil, Nat.zero_add] at hrun
  constructor
  · rcases hrun with ⟨hroom, s, written, hrun, -⟩ | ⟨hfull, hrun⟩
    · rw [errorOf, hrun, if_pos hroom]
    · rw [errorOf, hrun, if_neg (Nat.not_le.mpr hfull)]
  · constructor
    · exact TCPServer.Bears.completed_eq_nil hwell
    · intro hnone
      rcases hrun with ⟨-, s, written, hreturns, -⟩ | ⟨hfull, -⟩
      · refine ⟨⟨s, written, hreturns⟩, fun past s' written' hpast hbefore => ?_⟩
        obtain ⟨later, rfl⟩ := hpast
        rw [List.flatten_append, TCPServer.completed_append] at hwell hnone
        rw [TCPServer.follows_execute hwell.of_append hbefore, (List.append_eq_nil_iff.mp hnone).1]
        rfl
      · rw [hnone] at hfull
        exact absurd hfull (Nat.not_lt_zero _)

/-- A single request. -/
def singleRequest : List (List Arrival) := [[{ socket := 0, data := numberedRecord 1 3 }]]

theorem bursts_fails : WellNumbered (TCPServer.completed (fun _ => []) singleRequest.flatten) ∧
    ¬TCPServer.Bears .merge singleRequest := by
  have hcompleted : TCPServer.completed (fun _ => []) singleRequest.flatten = [(0, numberedRecord 1 3)] := by
    decide +kernel
  have hwell : WellNumbered (TCPServer.completed (fun _ => []) singleRequest.flatten) := by
    rw [hcompleted]
    refine ⟨by decide, by decide, fun past x later hsplit => ?_⟩
    obtain ⟨rfl, hx⟩ : past = [] ∧ x = (0, numberedRecord 1 3) := by
      cases past with
      | nil => exact ⟨rfl, (List.cons.inj hsplit).1.symm⟩
      | cons y past => simp at hsplit
    rw [hx]
    decide
  refine ⟨hwell, fun h => ?_⟩
  have hnone := h.completed_eq_nil hwell
  rw [hcompleted] at hnone
  cases hnone

/-- A part of a request. -/
theorem bursts_incomplete : TCPServer.Bears .merge [[{ socket := 0, data := (numberedRecord 1 3).take 10 }]] := by
  have hcompleted : TCPServer.completed (fun _ => [])
      [[{ socket := 0, data := (numberedRecord 1 3).take 10 }]].flatten = [] := by decide +kernel
  refine (bursts ?_).2.mpr hcompleted
  rw [hcompleted]
  exact ⟨by decide, by decide, fun past x later hsplit => by simp at hsplit⟩

end LowLatencyExchange
