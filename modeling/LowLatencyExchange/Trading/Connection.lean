import LowLatencyExchange.Common.ShortWrites
import LowLatencyExchange.Exchange.Intake
import LowLatencyExchange.Trading.RequestPath

/-!
# One end of a connection

Numbered messages are queued on a socket, the kernel takes what `::send` offers it, and some of these bytes have
been read at the other end. Where every client has a socket of its own, its records are passed on as it sent them.
-/

namespace LowLatencyExchange
open ByteStream

section Numbered
variable {α : Type} {p : Packed α}

lemma numberedStream_append (n : Nat) (xs ys : List α) : numberedStream p (wrap64 n) (xs ++ ys) =
    numberedStream p (wrap64 n) xs ++ numberedStream p (wrap64 (n + xs.length)) ys := by
  induction xs generalizing n with
  | nil => rfl
  | cons x xs ih =>
    have hcount : n + 1 + xs.length = n + (xs.length + 1) := by omega
    rw [List.cons_append, numberedStream, numberedStream, wrap64_succ, ih, List.length_cons, hcount]
    simp only [List.append_assoc]

/-- What has arrived stays when more is sent. -/
lemma arrived_append {seqNum : Nat} {xs : List α} {received : List UInt8} (h : received <+: numberedStream p seqNum xs)
    (ys : List α) : arrived p (xs ++ ys) received = arrived p xs received := by
  have hlength : (numberedStream p seqNum xs).length = (sizeT.prod p).sizeof * xs.length := by
    rw [numberedStream_eq_flatten, length_flatten fun _ => length_of_mem_numberedFrames p, length_numberedFrames]
  have hle : received.length / (sizeT.prod p).sizeof ≤ xs.length := by
    apply Nat.div_le_of_le_mul
    rw [← hlength]
    exact h.length_le
  exact List.take_append_of_le_length hle

lemma length_arrived {seqNum : Nat} {xs : List α} {received : List UInt8} (h : received <+: numberedStream p seqNum xs) :
    (arrived p xs received).length = received.length / (sizeT.prod p).sizeof := by
  rw [← length_numberedFrames p seqNum, ← frames_received h, length_frames (numbered_pos p)]

end Numbered

/-- One direction of a connection. Of the bytes queued at its one end, the first `offered` were passed to `::send`,
which took those in `wire`. The first `read` of these were read at the other end. -/
structure Link where
  offered : Nat := 0
  wire : List UInt8 := []
  read : Nat := 0

namespace Link

/-- The outbound buffer: what was queued since the last `::send`. -/
def buffer (l : Link) (queued : List UInt8) : List UInt8 := queued.drop l.offered

/-- The publication of `sendAndRecv`. The buffer is empty afterwards, whatever `::send` took of it. -/
def publish (l : Link) (queued : List UInt8) (kernelSend : KernelSend) : Link :=
  { l with offered := queued.length, wire := l.wire ++ kernelSend.taken (l.buffer queued) }

/-- What has been read, and what a read of up to `count` bytes finds. -/
def seen (l : Link) : List UInt8 := l.wire.take l.read

def next (l : Link) (count : Nat) : List UInt8 := (l.wire.drop l.read).take count

def advance (l : Link) (count : Nat) : Link := { l with read := l.read + (l.next count).length }

/-- `::send` takes what it is offered. -/
def Whole (l : Link) (queued : List UInt8) (kernelSend : KernelSend) : Prop :=
  l.buffer queued ≠ [] → kernelSend (l.buffer queued).length = some (Fin.last _)

instance (l : Link) (queued : List UInt8) (kernelSend : KernelSend) : Decidable (l.Whole queued kernelSend) :=
  inferInstanceAs (Decidable (_ → _))

/-- The outbound buffer has room for another message. -/
def HasRoom (l : Link) (queued : List UInt8) (size : Nat) : Prop := (l.buffer queued).length + size ≤ TCPBufferSize

instance (l : Link) (queued : List UInt8) (size : Nat) : Decidable (l.HasRoom queued size) :=
  inferInstanceAs (Decidable (_ ≤ _))

lemma seen_advance (l : Link) (count : Nat) : (l.advance count).seen = l.seen ++ l.next count := by
  unfold seen advance next
  rw [List.take_add]
  congr 1
  exact (List.prefix_iff_eq_take.mp (List.take_prefix count _)).symm

lemma Whole.taken {l : Link} {queued : List UInt8} {kernelSend : KernelSend} (h : l.Whole queued kernelSend) :
    kernelSend.taken (l.buffer queued) = l.buffer queued := by
  by_cases hbuffer : l.buffer queued = []
  · unfold KernelSend.taken
    rw [hbuffer]
    split
    · rfl
    · exact List.take_nil
  · rcases kernelSend.taken_cases hbuffer with ⟨-, hall⟩ | ⟨hshort, -⟩
    · exact hall
    · exact absurd (h hbuffer) hshort

end Link

/-- A direction of a connection: what was sent there, the number that comes next, and the bytes that were queued. None
of those offered to the kernel was lost. -/
structure Sending {α : Type} (p : Packed α) (messages : List α) (seqNum : Nat) (queued : List UInt8) (l : Link) :
    Prop where
  numbered : seqNum = wrap64 (1 + messages.length)
  bytes : queued = numberedStream p 1 messages
  offered : l.offered ≤ queued.length
  wire : l.wire = queued.take l.offered
  bound : l.read ≤ l.wire.length

namespace Sending
variable {α : Type} {p : Packed α} {messages : List α} {seqNum : Nat} {queued : List UInt8} {l : Link}

lemma start (p : Packed α) : Sending p [] 1 [] {} := ⟨rfl, rfl, Nat.le_refl 0, rfl, Nat.le_refl 0⟩

/-- One more message. -/
lemma send (h : Sending p messages seqNum queued l) (x : α) :
    Sending p (messages ++ [x]) (wrap64 (seqNum + 1)) (queued ++ sizeT.encode seqNum ++ p.encode x) l := by
  have hlast : numberedStream p (wrap64 (1 + messages.length)) [x] =
      sizeT.encode (wrap64 (1 + messages.length)) ++ p.encode x := List.append_nil _
  refine ⟨?_, ?_, ?_, ?_, h.bound⟩
  · rw [h.numbered, wrap64_succ, List.length_append, List.length_singleton, Nat.add_assoc]
  · have happend := numberedStream_append (p := p) 1 messages [x]
    rw [hlast, ← h.numbered] at happend
    rw [h.bytes, List.append_assoc]
    exact happend.symm
  · have hoffered := h.offered
    simp only [List.length_append]
    omega
  · rw [h.wire, List.append_assoc, List.take_append_of_le_length h.offered]

/-- The kernel takes all that is in the buffer. -/
lemma publish (h : Sending p messages seqNum queued l) {kernelSend : KernelSend} (hwhole : l.Whole queued kernelSend) :
    Sending p messages seqNum queued (l.publish queued kernelSend) := by
  have hwire : (l.publish queued kernelSend).wire = queued := by
    unfold Link.publish
    dsimp only
    rw [hwhole.taken, h.wire]
    exact List.take_append_drop l.offered queued
  refine ⟨h.numbered, h.bytes, Nat.le_refl _, ?_, ?_⟩
  · rw [hwire]
    exact List.take_length.symm
  · rw [hwire]
    have hbound := h.bound
    rw [h.wire] at hbound
    exact Nat.le_trans hbound (List.length_take_le' _ _)

lemma seen_publish (h : Sending p messages seqNum queued l) (kernelSend : KernelSend) :
    (l.publish queued kernelSend).seen = l.seen :=
  List.take_append_of_le_length h.bound

/-- One more read. -/
lemma advance (h : Sending p messages seqNum queued l) (count : Nat) :
    Sending p messages seqNum queued (l.advance count) := by
  refine ⟨h.numbered, h.bytes, h.offered, h.wire, ?_⟩
  have hle := List.length_take_le count (l.wire.drop l.read)
  have hbound := h.bound
  unfold Link.advance Link.next
  rw [List.length_take, List.length_drop]
  dsimp only
  omega

lemma isPrefix (h : Sending p messages seqNum queued l) : l.seen <+: numberedStream p (wrap64 1) messages := by
  have hqueued : numberedStream p (wrap64 1) messages = queued := h.bytes.symm
  rw [hqueued]
  unfold Link.seen
  rw [h.wire]
  exact (List.take_prefix _ _).trans (List.take_prefix _ _)

/-- Once as much was read as was queued, all of it was. -/
lemma seen_all (h : Sending p messages seqNum queued l) (hall : l.read = queued.length) :
    l.seen = numberedStream p 1 messages := by
  have hbound := h.bound
  have hoffered := h.offered
  rw [← h.bytes]
  unfold Link.seen
  rw [h.wire, List.length_take] at hbound
  rw [h.wire, List.take_take, hall, List.take_of_length_le (by omega)]

/-- What has arrived is the same, whatever is sent later. -/
lemma arrived_send (h : Sending p messages seqNum queued l) (x : α) :
    arrived p (messages ++ [x]) l.seen = arrived p messages l.seen := arrived_append h.isPrefix [x]

end Sending

lemma requests_numberedFrames {requests : List MEClientRequest} (h : ∀ r ∈ requests, MEClientRequest.packed.Fits r)
    (n : Nat) : (numberedFrames MEClientRequest.packed (wrap64 n) requests).map
      (fun record => (OMClientRequest.packed.decode record).meClientRequest) = requests := by
  induction requests generalizing n with
  | nil => rfl
  | cons r requests ih =>
    have hdecode : OMClientRequest.packed.decode ((sizeT.prod MEClientRequest.packed).encode (wrap64 n, r)) =
        ⟨wrap64 n, r⟩ :=
      OMClientRequest.packed.decode_encode ⟨wrap64 n, r⟩ ⟨wrap64_lt_byteRange n, h r List.mem_cons_self⟩
    rw [numberedFrames, List.map_cons, hdecode, wrap64_succ, ih fun x hx => h x (List.mem_cons_of_mem r hx)]

/-- The record at one place of a stream. -/
lemma request_numberedFrames {requests : List MEClientRequest} (h : ∀ r ∈ requests, MEClientRequest.packed.Fits r)
    {n : Nat} {past later : List (List UInt8)} {record : List UInt8}
    (hsplit : numberedFrames MEClientRequest.packed (wrap64 n) requests = past ++ record :: later) :
    ∃ r ∈ requests, OMClientRequest.packed.decode record = ⟨wrap64 (n + past.length), r⟩ := by
  have hdrop := numberedFrames_drop MEClientRequest.packed n past.length requests
  rw [hsplit, List.drop_left] at hdrop
  cases hrest : requests.drop past.length with
  | nil =>
    rw [hrest, numberedFrames] at hdrop
    cases hdrop
  | cons r rest =>
    have hr : r ∈ requests := List.mem_of_mem_drop (hrest ▸ List.mem_cons_self)
    rw [hrest, numberedFrames] at hdrop
    obtain ⟨rfl, -⟩ := List.cons.inj hdrop
    refine ⟨r, hr, ?_⟩
    exact OMClientRequest.packed.decode_encode ⟨wrap64 (n + past.length), r⟩ ⟨wrap64_lt_byteRange _, h r hr⟩

namespace OrderServer
variable {std : StdSort} {s s' : OrderServer FIFOSequencer} {c : ClientId} {socket : Nat}

/-- The records of a client on its own socket all go to the sequencer, or the loop ends with a fault. -/
lemma recvRecords_own {rxTime : Nanos} (hc : c < ME_MAX_NUM_CLIENTS) (howns : s.Owns socket c)
    {records : List (List UInt8)} (hclient : ∀ record ∈ records, recordClient record = c) {more : List HandledRecord}
    (hrun : recvRecords (FIFOSequencer.sequencer std) Logger.log socket rxTime records s = .ok (s', more)) :
    ∀ h ∈ more, h.clientId = c ∧ h.passed = some h.request.meClientRequest := by
  induction records generalizing s more with
  | nil =>
    cases hrun
    exact fun h hh => absurd hh List.not_mem_nil
  | cons record records ih =>
    obtain ⟨⟨s₁, h⟩, hfirst, hrun⟩ := bind_eq_ok hrun
    obtain ⟨⟨s₂, rest⟩, hrest, hrun⟩ := bind_eq_ok hrun
    cases hrun
    obtain ⟨hrecord, hhandles⟩ := recvRecord_cases hfirst
    have hfor : recordClient record = c := hclient record List.mem_cons_self
    have hhandled : h.clientId = c := by
      rw [← hfor, ← hrecord]
      rfl
    have howns' : s₁.Owns socket c := by
      have hbind := (owns_bindSocket s socket h.clientId c).mpr howns
      unfold Owns at hbind ⊢
      rwa [hhandles.bound]
    intro x hx
    rcases List.mem_cons.mp hx with rfl | hx
    · refine ⟨hhandled, ?_⟩
      rw [recvRecord_own (hfor ▸ hc) (hfor ▸ howns)] at hfirst
      split at hfirst
      · cases hfirst
      · obtain ⟨fifoSequencer, -, hfirst⟩ := bind_eq_ok hfirst
        cases hfirst
        rfl
    · exact ih howns' (fun r hr => hclient r (List.mem_cons_of_mem record hr)) hrest x hx

/-- The loop over the records of a socket leaves the responses and the sockets as they are. -/
lemma recvRecords_frame {rxTime : Nanos} {records : List (List UInt8)} {more : List HandledRecord}
    (hrun : recvRecords (FIFOSequencer.sequencer std) Logger.log socket rxTime records s = .ok (s', more)) :
    s'.cidNextOutgoingSeqNum = s.cidNextOutgoingSeqNum ∧ s'.sockets = s.sockets ∧ ∀ h ∈ more, h.socket = socket := by
  induction records generalizing s more with
  | nil =>
    cases hrun
    exact ⟨rfl, rfl, fun h hh => absurd hh List.not_mem_nil⟩
  | cons record records ih =>
    obtain ⟨⟨s₁, h⟩, hfirst, hrun⟩ := bind_eq_ok hrun
    obtain ⟨⟨s₂, rest⟩, hrest, hrun⟩ := bind_eq_ok hrun
    cases hrun
    obtain ⟨-, hhandles⟩ := recvRecord_cases hfirst
    obtain ⟨hcount, hsockets, hsocket⟩ := ih hrest
    refine ⟨hcount.trans hhandles.outgoing, hsockets.trans hhandles.sockets, fun x hx => ?_⟩
    rcases List.mem_cons.mp hx with rfl | hx
    · exact hhandles.origin
    · exact hsocket x hx

/-- Reading from a socket leaves the responses as they are. -/
lemma step_outgoing {action : ServerAction} {es : List ServerEvent} (hother : ∀ r, action ≠ .sendResponse r)
    (hrun : s.step (FIFOSequencer.sequencer std) Logger.log action = .ok (s', es)) :
    s'.cidNextOutgoingSeqNum = s.cidNextOutgoingSeqNum ∧
      ∀ i, (s'.sockets i).outboundData = (s.sockets i).outboundData := by
  cases action with
  | sendAndRecv socket data kernelTime userTime =>
    obtain ⟨⟨s₁, more⟩, hrecv, hrun⟩ := bind_eq_ok hrun
    cases hrun
    simp only [OrderServer.sendAndRecv] at hrecv
    split at hrecv
    · cases hrecv
      exact ⟨rfl, fun i => rfl⟩
    · obtain ⟨_, -, hrecv⟩ := bind_eq_ok hrecv
      obtain ⟨s₂, hrecords, rfl⟩ := recvCallback_cases hrecv
      obtain ⟨hcount, hsockets, -⟩ := recvRecords_frame hrecords
      refine ⟨hcount, fun i => ?_⟩
      simp only [sockets_modifySocket, hsockets, Function.update_apply]
      split
      · rename_i hi
        rw [hi, if_pos trivial]
        rfl
      · rfl
  | recvFinished =>
    obtain ⟨⟨s₁, written⟩, hfinished, hrun⟩ := bind_eq_ok hrun
    cases hrun
    obtain ⟨⟨fifoSequencer, published⟩, -, hfinished⟩ := bind_eq_ok hfinished
    cases hfinished
    exact ⟨rfl, fun i => rfl⟩
  | sendResponse r => exact absurd rfl (hother r)

end OrderServer

section InPlace
variable {sock : ClientId → Nat} {hs : List HandledRecord} {c : ClientId}

/-- The record came on its client's socket, and was passed on. -/
structure InPlace (sock : ClientId → Nat) (h : HandledRecord) : Prop where
  client : h.clientId < ME_MAX_NUM_CLIENTS
  socket : h.socket = sock h.clientId
  passed : h.passed = some h.request.meClientRequest

/-- The requests of a client that were passed on are those that its socket brought. -/
lemma filter_passedRequests (hsock : ∀ c < ME_MAX_NUM_CLIENTS, ∀ d < ME_MAX_NUM_CLIENTS, sock c = sock d → c = d)
    (h : ∀ x ∈ hs, InPlace sock x) (hc : c < ME_MAX_NUM_CLIENTS) :
    (passedRequests hs).filter (fun r => r.clientId = c) =
      (recordsOn (sock c) hs).map fun record => (OMClientRequest.packed.decode record).meClientRequest := by
  induction hs with
  | nil => rfl
  | cons x hs ih =>
    have hx := h x List.mem_cons_self
    have hrest := ih fun y hy => h y (List.mem_cons_of_mem x hy)
    have hpassed : passedRequests (x :: hs) = x.request.meClientRequest :: passedRequests hs :=
      List.filterMap_cons_some hx.passed
    rw [hpassed]
    by_cases hclient : x.clientId = c
    · have hsocket : x.socket = sock c := by rw [hx.socket, hclient]
      have hrecords : recordsOn (sock c) (x :: hs) = x.record :: recordsOn (sock c) hs := by
        rw [recordsOn, List.filter_cons, if_pos (by simpa using hsocket)]
        rfl
      rw [List.filter_cons, if_pos (by simpa using (show x.request.meClientRequest.clientId = c from hclient)), hrecords,
        List.map_cons, hrest]
      rfl
    · have hsocket : x.socket ≠ sock c := by
        intro heq
        exact hclient (hsock _ hx.client c hc (hx.socket.symm.trans heq))
      have hrecords : recordsOn (sock c) (x :: hs) = recordsOn (sock c) hs := by
        rw [recordsOn, List.filter_cons, if_neg (by simpa using hsocket)]
        rfl
      rw [List.filter_cons, if_neg (by simpa using (show ¬x.request.meClientRequest.clientId = c from hclient)),
        hrecords, hrest]

lemma length_passedFor_inPlace (h : ∀ x ∈ hs, InPlace sock x) (c : ClientId) :
    (passedFor c hs).length = ((passedRequests hs).filter fun r => r.clientId = c).length := by
  induction hs with
  | nil => rfl
  | cons x hs ih =>
    have hx := h x List.mem_cons_self
    have hpassed : passedRequests (x :: hs) = x.request.meClientRequest :: passedRequests hs :=
      List.filterMap_cons_some hx.passed
    have hrest := ih fun y hy => h y (List.mem_cons_of_mem x hy)
    rw [passedFor] at hrest
    rw [hpassed, passedFor, List.filter_cons, List.filter_cons, hx.passed]
    by_cases hclient : x.request.meClientRequest.clientId = c
    · simpa [HandledRecord.clientId, hclient] using hrest
    · simpa [HandledRecord.clientId, hclient] using hrest

lemma firstSocket_inPlace (h : ∀ x ∈ hs, InPlace sock x) (c : ClientId) :
    firstSocket c hs = none ∨ firstSocket c hs = some (sock c) := by
  rw [firstSocket]
  cases hfind : hs.find? fun x => x.clientId = c with
  | none => exact .inl rfl
  | some x =>
    have hx := h x (List.mem_of_find?_eq_some hfind)
    have hclient : x.clientId = c := by simpa using List.find?_some hfind
    rw [Option.map_some, hx.socket, hclient]
    exact .inr rfl

/-- A read that brings the next requests of a client, on its socket. -/
lemma OrderServer.sendAndRecv_inPlace {std : StdSort} {s s' : OrderServer FIFOSequencer} (hc : c < ME_MAX_NUM_CLIENTS)
    (howns : s.Owns (sock c) c) {data : List UInt8} {n : Nat} {next : List MEClientRequest}
    (hframes : frames OMClientRequest.packed.sizeof ((s.sockets (sock c)).inboundData ++ data) =
      numberedFrames MEClientRequest.packed (wrap64 n) next)
    (hnext : ∀ r ∈ next, MEClientRequest.packed.Fits r ∧ r.clientId = c) {kernelTime userTime : Nanos}
    (hrun : s.sendAndRecv (FIFOSequencer.sequencer std) Logger.log (sock c) data kernelTime userTime = .ok (s', hs)) :
    ∀ x ∈ hs, InPlace sock x := by
  simp only [OrderServer.sendAndRecv] at hrun
  split at hrun
  · cases hrun
    exact fun x hx => absurd hx List.not_mem_nil
  · obtain ⟨_, -, hrun⟩ := bind_eq_ok hrun
    obtain ⟨s₁, hrecords, -⟩ := recvCallback_cases hrun
    have hbuffer : ((s.modifySocket (sock c) (·.recv data)).sockets (sock c)).records OMClientRequest.packed.sizeof =
        numberedFrames MEClientRequest.packed (wrap64 n) next := by
      rw [sockets_modifySocket, Function.update_self]
      exact hframes
    rw [hbuffer] at hrecords
    have hclient : ∀ record ∈ numberedFrames MEClientRequest.packed (wrap64 n) next, recordClient record = c := by
      intro record hrecord
      obtain ⟨past, later, hsplit⟩ := List.append_of_mem hrecord
      obtain ⟨r, hr, hdecode⟩ := request_numberedFrames (fun r hr => (hnext r hr).1) hsplit
      rw [recordClient, hdecode]
      exact (hnext r hr).2
    have howns' : (s.modifySocket (sock c) (·.recv data)).Owns (sock c) c := howns
    have hpassed := recvRecords_own hc howns' hclient hrecords
    obtain ⟨-, -, hsocket⟩ := recvRecords_frame hrecords
    intro x hx
    obtain ⟨hfor, hsome⟩ := hpassed x hx
    refine ⟨hfor ▸ hc, ?_, hsome⟩
    rw [hsocket x hx, hfor]

end InPlace

end LowLatencyExchange
