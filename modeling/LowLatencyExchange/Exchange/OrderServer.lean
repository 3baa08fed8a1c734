import LowLatencyExchange.Common.TCPSocket
import LowLatencyExchange.Exchange.FIFOSequencer
import LowLatencyExchange.Exchange.Wire
import LowLatencyExchange.Library.Run

/-!
# The order server

`Exchange::OrderServer` with the sockets of its `TCPServer`. A client belongs to the socket on
which its id was received first, and its requests are numbered from 1. The sequencer is a
parameter, and so is the logging.
-/

namespace LowLatencyExchange
open ByteStream

/-- What the order server needs of a sequencer with states `Q`. -/
structure Sequencer (Q : Type) where
  addClientRequest : Q → Nanos → MEClientRequest → Except Fault Q
  sequenceAndPublish : Q → Except Fault (Q × List MEClientRequest)

def FIFOSequencer.sequencer (std : StdSort) : Sequencer FIFOSequencer where
  addClientRequest := FIFOSequencer.addClientRequest
  sequenceAndPublish := FIFOSequencer.sequenceAndPublish std

/-- A socket is named by its place in `sockets`. -/
structure OrderServer (Q : Type) where
  cidNextOutgoingSeqNum : ClientId → Nat
  cidNextExpSeqNum : ClientId → Nat
  cidTcpSocket : ClientId → Option Nat
  sockets : Nat → TCPSocket
  fifoSequencer : Q
  timeStr : String

/-- A record of the order server's inbound data: the socket it came from, and what was passed on
to the sequencer because of it. -/
structure HandledRecord where
  socket : Nat
  record : List UInt8
  passed : Option MEClientRequest
  deriving DecidableEq, Repr

def HandledRecord.request (h : HandledRecord) : OMClientRequest := OMClientRequest.packed.decode h.record

inductive ServerEvent
  | handled (h : HandledRecord)
  | published (request : MEClientRequest)

namespace OrderServer
variable {Q : Type}

/-- The constructor. -/
def create (fifoSequencer : Q) : OrderServer Q where
  cidNextOutgoingSeqNum := fun _ => 1
  cidNextExpSeqNum := fun _ => 1
  cidTcpSocket := fun _ => none
  sockets := fun _ => {}
  fifoSequencer := fifoSequencer
  timeStr := ""

def logAt (s : OrderServer Q) (log : Log) (line : Nat) (function : String) (format : String)
    (args : List LogValue) : Except Fault Unit :=
  log format ([.text "order_server.h", .number line, .text function, .text s.timeStr] ++ args)

/-- Nothing keeps a client id from the wire out of the places behind the arrays. -/
def clientIndex (clientId : ClientId) : Except Fault Unit :=
  if clientId < ME_MAX_NUM_CLIENTS then .ok () else .error .outOfRange

def modifySocket (s : OrderServer Q) (socket : Nat) (f : TCPSocket → TCPSocket) : OrderServer Q :=
  { s with sockets := Function.update s.sockets socket (f (s.sockets socket)) }

@[simp] lemma sockets_modifySocket (s : OrderServer Q) (socket : Nat) (f : TCPSocket → TCPSocket) :
    (s.modifySocket socket f).sockets = Function.update s.sockets socket (f (s.sockets socket)) := rfl

/-- "first message back to the client". -/
def bindSocket (s : OrderServer Q) (clientId : ClientId) (socket : Nat) : OrderServer Q :=
  if s.cidTcpSocket clientId = none then
    { s with cidTcpSocket := Function.update s.cidTcpSocket clientId (some socket) }
  else s

/-- One round of the loop of `recvCallback`. -/
def recvRecord (sequencer : Sequencer Q) (log : Log) (s : OrderServer Q) (socket : Nat) (rxTime : Nanos)
    (record : List UInt8) : Except Fault (OrderServer Q × HandledRecord) := do
  let request := OMClientRequest.packed.decode record
  let clientId := request.meClientRequest.clientId
  s.logAt log 76 "recvCallback" "%:% %() % Received % \n" [.text request.toString]
  clientIndex clientId
  let s := s.bindSocket clientId socket
  if s.cidTcpSocket clientId ≠ some socket then
    let expected ← deref (s.cidTcpSocket clientId)
    s.logAt log 83 "recvCallback" "%:% %() % Received ClientRequest from ClientId:% on different socket:% expected:%"
      [.number clientId, .number (s.sockets socket).socketFd, .number (s.sockets expected).socketFd]
    pure (s, ⟨socket, record, none⟩)
  else if request.seqNum ≠ s.cidNextExpSeqNum clientId then
    -- seven arguments for six placeholders
    s.logAt log 91 "recvCallback" "%:% %() Incorrect sequence number. ClientId:% SeqNum expected:% received:%"
      [.number clientId, .number (s.cidNextExpSeqNum clientId), .number request.seqNum]
    pure (s, ⟨socket, record, none⟩)
  else
    let s := { s with
      cidNextExpSeqNum := Function.update s.cidNextExpSeqNum clientId (wrap64 (s.cidNextExpSeqNum clientId + 1)) }
    let fifoSequencer ← sequencer.addClientRequest s.fifoSequencer rxTime request.meClientRequest
    pure ({ s with fifoSequencer := fifoSequencer }, ⟨socket, record, some request.meClientRequest⟩)

def recvRecords (sequencer : Sequencer Q) (log : Log) (socket : Nat) (rxTime : Nanos) :
    List (List UInt8) → OrderServer Q → Except Fault (OrderServer Q × List HandledRecord)
  | [], s => pure (s, [])
  | record :: records, s => do
    let (s, handled) ← s.recvRecord sequencer log socket rxTime record
    let (s, rest) ← recvRecords sequencer log socket rxTime records s
    pure (s, handled :: rest)

def recvCallback (sequencer : Sequencer Q) (log : Log) (s : OrderServer Q) (socket : Nat) (rxTime : Nanos) :
    Except Fault (OrderServer Q × List HandledRecord) := do
  s.logAt log 69 "recvCallback" "%:% %() % Received socket:% len:% rx:%\n"
    [.number (s.sockets socket).socketFd, .number (s.sockets socket).inboundData.length, .text (toString rxTime)]
  if OMClientRequest.packed.sizeof ≤ (s.sockets socket).inboundData.length then
    let (s, handled) ← recvRecords sequencer log socket rxTime
      ((s.sockets socket).records OMClientRequest.packed.sizeof) s
    pure (s.modifySocket socket (·.consume OMClientRequest.packed.sizeof), handled)
  else pure (s, [])

/-- `TCPSocket::sendAndRecv` of one receive socket, for the bytes it read. -/
def sendAndRecv (sequencer : Sequencer Q) (log : Log) (s : OrderServer Q) (socket : Nat) (data : List UInt8)
    (kernelTime userTime : Nanos) : Except Fault (OrderServer Q × List HandledRecord) := do
  if data = [] then pure (s, [])
  else
    let s := s.modifySocket socket (·.recv data)
    log "%:% %() % read socket:% len:% utime:% ktime:% diff:%\n" [.text "tcp_socket.cpp", .number 39,
      .text "sendAndRecv", .text s.timeStr, .number (s.sockets socket).socketFd,
      .number (s.sockets socket).inboundData.length, .text (toString userTime), .text (toString kernelTime),
      .text (toString (userTime - kernelTime))]
    s.recvCallback sequencer log socket kernelTime

/-- Behind its log line the callback goes through the complete records and keeps the rest, whether there is one
or not. -/
lemma recvCallback_logged {sequencer : Sequencer Q} {log : Log} (s : OrderServer Q) (socket : Nat) (rxTime : Nanos) :
    s.recvCallback sequencer log socket rxTime = (do
      s.logAt log 69 "recvCallback" "%:% %() % Received socket:% len:% rx:%\n"
        [.number (s.sockets socket).socketFd, .number (s.sockets socket).inboundData.length, .text (toString rxTime)]
      (recvRecords sequencer log socket rxTime ((s.sockets socket).records OMClientRequest.packed.sizeof) s).map
        fun x => (x.1.modifySocket socket (·.consume OMClientRequest.packed.sizeof), x.2)) := by
  unfold recvCallback
  congr 1
  funext _
  split
  · cases recvRecords sequencer log socket rxTime ((s.sockets socket).records OMClientRequest.packed.sizeof) s <;> rfl
  · rename_i hshort
    obtain ⟨hframes, hleft⟩ := frames_of_lt (Nat.not_le.mp hshort)
    have hconsume : (s.sockets socket).consume OMClientRequest.packed.sizeof = s.sockets socket := by
      rw [TCPSocket.consume, hleft]
    rw [TCPSocket.records, hframes, recvRecords, pure_eq_ok, Except.map, modifySocket, hconsume, Function.update_eq_self]

lemma recvCallback_eq {sequencer : Sequencer Q} {log : Log} (hlog : log.Counts) (s : OrderServer Q) (socket : Nat)
    (rxTime : Nanos) : s.recvCallback sequencer log socket rxTime =
      (recvRecords sequencer log socket rxTime ((s.sockets socket).records OMClientRequest.packed.sizeof) s).map
        fun x => (x.1.modifySocket socket (·.consume OMClientRequest.packed.sizeof), x.2) := by
  rw [recvCallback_logged, logAt, hlog _ _ rfl, ok_bind]

lemma sendAndRecv_eq {sequencer : Sequencer Q} {log : Log} (hlog : log.Counts) (s : OrderServer Q) (socket : Nat)
    {data : List UInt8} (hdata : data ≠ []) (kernelTime userTime : Nanos) :
    s.sendAndRecv sequencer log socket data kernelTime userTime =
      (s.modifySocket socket (·.recv data)).recvCallback sequencer log socket kernelTime := by
  unfold sendAndRecv
  rw [if_neg hdata]
  dsimp only
  rw [hlog _ _ rfl, ok_bind]

def recvFinishedCallback (sequencer : Sequencer Q) (s : OrderServer Q) :
    Except Fault (OrderServer Q × List MEClientRequest) := do
  let (fifoSequencer, written) ← sequencer.sequenceAndPublish s.fifoSequencer
  pure ({ s with fifoSequencer := fifoSequencer }, written)

/-- One round of the loop of `run` over the outgoing responses. -/
def sendResponse (log : Log) (s : OrderServer Q) (clientResponse : MEClientResponse) :
    Except Fault (OrderServer Q) := do
  let clientId := clientResponse.clientId
  clientIndex clientId
  let nextOutgoingSeqNum := s.cidNextOutgoingSeqNum clientId
  s.logAt log 51 "run" "%:% %() % Processing cid:% seq:% %\n"
    [.number clientId, .number nextOutgoingSeqNum, .text clientResponse.toString]
  match s.cidTcpSocket clientId with
  | none => .error (.assert ("Don't have a TCPSocket for ClientId:" ++ toString clientId))
  | some socket =>
    let s := s.modifySocket socket fun sock =>
      (sock.send (sizeT.encode nextOutgoingSeqNum)).send (MEClientResponse.packed.encode clientResponse)
    pure { s with
      cidNextOutgoingSeqNum := Function.update s.cidNextOutgoingSeqNum clientId (wrap64 (nextOutgoingSeqNum + 1)) }

/-- A response to a client that has a socket. -/
lemma sendResponse_eq {log : Log} {s : OrderServer Q} (hlog : log.Counts) {r : MEClientResponse}
    (hclient : r.clientId < ME_MAX_NUM_CLIENTS)
    {socket : Nat} (hbound : s.cidTcpSocket r.clientId = some socket) :
    s.sendResponse log r = .ok { s.modifySocket socket (fun sock =>
        (sock.send (sizeT.encode (s.cidNextOutgoingSeqNum r.clientId))).send (MEClientResponse.packed.encode r)) with
      cidNextOutgoingSeqNum := Function.update s.cidNextOutgoingSeqNum r.clientId
        (wrap64 (s.cidNextOutgoingSeqNum r.clientId + 1)) } := by
  have hindex : clientIndex r.clientId = .ok () := if_pos hclient
  simp only [sendResponse, hindex, ok_bind, hbound, logAt]
  rw [hlog _ _ rfl, ok_bind, pure_eq_ok]
  rfl

def sendResponses (log : Log) : List MEClientResponse → OrderServer Q → Except Fault (OrderServer Q)
  | [], s => pure s
  | clientResponse :: rest, s => do
    let s ← s.sendResponse log clientResponse
    sendResponses log rest s

end OrderServer

/-- The steps of the order server's thread. A read takes what has arrived on a socket, in any
amount. -/
inductive ServerAction
  | sendAndRecv (socket : Nat) (data : List UInt8) (kernelTime userTime : Nanos)
  | recvFinished
  | sendResponse (clientResponse : MEClientResponse)

namespace OrderServer
variable {Q : Type}

def step (sequencer : Sequencer Q) (log : Log) (s : OrderServer Q) :
    ServerAction → Except Fault (OrderServer Q × List ServerEvent)
  | .sendAndRecv socket data kernelTime userTime => do
    let (s, handled) ← s.sendAndRecv sequencer log socket data kernelTime userTime
    pure (s, handled.map .handled)
  | .recvFinished => do
    let (s, written) ← s.recvFinishedCallback sequencer
    pure (s, written.map .published)
  | .sendResponse clientResponse => do
    let s ← s.sendResponse log clientResponse
    pure (s, [])

end OrderServer
end LowLatencyExchange
