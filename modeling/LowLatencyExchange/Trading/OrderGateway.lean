import LowLatencyExchange.Common.TCPSocket
import LowLatencyExchange.Exchange.Wire

/-!
# The order gateway

`Trading::OrderGateway` of one client: requests go out behind their numbers, responses come in
as records of a number and a response.
-/

namespace LowLatencyExchange
open ByteStream

structure OrderGateway where
  clientId : ClientId
  nextOutgoingSeqNum : Nat := 1
  nextExpSeqNum : Nat := 1
  tcpSocket : TCPSocket := {}
  timeStr : String := ""

/-- A record of the gateway's inbound data, and what was written to `incoming_responses_` because
of it. -/
structure HandledResponse where
  record : List UInt8
  written : Option MEClientResponse
  deriving DecidableEq, Repr

namespace OrderGateway

def logAt (g : OrderGateway) (log : Log) (line : Nat) (function : String) (format : String)
    (args : List LogValue) : Except Fault Unit :=
  log format ([.text "order_gateway.cpp", .number line, .text function, .text g.timeStr] ++ args)

/-- One round of the loop of `run` over the outgoing requests. -/
def sendRequest (log : Log) (g : OrderGateway) (clientRequest : MEClientRequest) : Except Fault OrderGateway := do
  g.logAt log 22 "run" "%:% %() % Sending cid:% seq:% %\n"
    [.number g.clientId, .number g.nextOutgoingSeqNum, .text clientRequest.toString]
  pure { g with
    tcpSocket := (g.tcpSocket.send (sizeT.encode g.nextOutgoingSeqNum)).send
      (MEClientRequest.packed.encode clientRequest)
    nextOutgoingSeqNum := wrap64 (g.nextOutgoingSeqNum + 1) }

def sendRequests (log : Log) : List MEClientRequest → OrderGateway → Except Fault OrderGateway
  | [], g => pure g
  | clientRequest :: rest, g => do
    let g ← g.sendRequest log clientRequest
    sendRequests log rest g

/-- One round of the loop of `recvCallback`. -/
def recvRecord (log : Log) (g : OrderGateway) (record : List UInt8) :
    Except Fault (OrderGateway × HandledResponse) := do
  let response := OMClientResponse.packed.decode record
  g.logAt log 42 "recvCallback" "%:% %() % Received %\n" [.text response.toString]
  if response.meClientResponse.clientId ≠ g.clientId then
    -- "this should never happen unless there's a bug at the exchange"
    g.logAt log 45 "recvCallback" "%:% %() % ERROR Incorrect client id. ClientId expected:% received:%.\n"
      [.number g.clientId, .number response.meClientResponse.clientId]
    pure (g, ⟨record, none⟩)
  else if response.seqNum ≠ g.nextExpSeqNum then
    g.logAt log 50 "recvCallback"
      "%:% %() % ERROR Incorrect sequence number. ClientId:% SeqNum expected:% received:%.\n"
      [.number g.clientId, .number g.nextExpSeqNum, .number response.seqNum]
    pure (g, ⟨record, none⟩)
  else
    pure ({ g with nextExpSeqNum := wrap64 (g.nextExpSeqNum + 1) }, ⟨record, some response.meClientResponse⟩)

def recvRecords (log : Log) : List (List UInt8) → OrderGateway → Except Fault (OrderGateway × List HandledResponse)
  | [], g => pure (g, [])
  | record :: records, g => do
    let (g, handled) ← g.recvRecord log record
    let (g, rest) ← recvRecords log records g
    pure (g, handled :: rest)

def recvCallback (log : Log) (g : OrderGateway) (rxTime : Nanos) :
    Except Fault (OrderGateway × List HandledResponse) := do
  g.logAt log 35 "recvCallback" "%:% %() % Received socket:% len:% %\n"
    [.number g.tcpSocket.socketFd, .number g.tcpSocket.inboundData.length, .text (toString rxTime)]
  if OMClientResponse.packed.sizeof ≤ g.tcpSocket.inboundData.length then
    let (g, handled) ← recvRecords log (g.tcpSocket.records OMClientResponse.packed.sizeof) g
    pure ({ g with tcpSocket := g.tcpSocket.consume OMClientResponse.packed.sizeof }, handled)
  else pure (g, [])

end OrderGateway

/-- What one call of `sendAndRecv` reads, and when. -/
structure Segment where
  data : List UInt8
  kernelTime : Nanos := 0
  userTime : Nanos := 0

namespace OrderGateway

/-- `TCPSocket::sendAndRecv` of the gateway's socket, for the bytes it read. -/
def sendAndRecv (log : Log) (g : OrderGateway) (segment : Segment) :
    Except Fault (OrderGateway × List HandledResponse) := do
  if segment.data = [] then pure (g, [])
  else
    let g := { g with tcpSocket := g.tcpSocket.recv segment.data }
    log "%:% %() % read socket:% len:% utime:% ktime:% diff:%\n" [.text "tcp_socket.cpp", .number 39,
      .text "sendAndRecv", .text g.timeStr, .number g.tcpSocket.socketFd,
      .number g.tcpSocket.inboundData.length, .text (toString segment.userTime), .text (toString segment.kernelTime),
      .text (toString (segment.userTime - segment.kernelTime))]
    g.recvCallback log segment.kernelTime

def sendAndRecvAll (log : Log) : List Segment → OrderGateway → Except Fault (OrderGateway × List HandledResponse)
  | [], g => pure (g, [])
  | segment :: segments, g => do
    let (g, handled) ← g.sendAndRecv log segment
    let (g, rest) ← sendAndRecvAll log segments g
    pure (g, handled ++ rest)

end OrderGateway
end LowLatencyExchange
