import LowLatencyExchange.Common.Logger
import LowLatencyExchange.Exchange.Messages
import LowLatencyExchange.Library.SortedMap

/-!
# The market data consumer

`Trading::MarketDataConsumer` follows the incremental stream by its sequence numbers. At a
gap it enters recovery, collects a snapshot from the other socket and hands out its updates.
Every call returns the consumer with the updates it wrote to `incoming_md_updates_`.
The logging is a parameter.
-/

namespace LowLatencyExchange

abbrev QueuedMarketUpdates := SortedMap Nat MEMarketUpdate

/-- `time_str_` is what the clock gives at the next call of the logger. -/
structure MarketDataConsumer where
  nextExpIncSeqInc : Nat := 1
  timeStr : String := ""
  inRecovery : Bool := false
  snapshotQueuedMsgs : QueuedMarketUpdates := .empty
  incrementalQueuedMsgs : QueuedMarketUpdates := .empty

/-- `START` and `END` are not forwarded. -/
def MEMarketUpdate.forwarded (u : MEMarketUpdate) : Bool :=
  u.type ≠ .snapshotStart && u.type ≠ .snapshotEnd

namespace MarketDataConsumer

/-- A call of the logger. Every one begins with `__FILE__, __LINE__, __FUNCTION__` and the
time. -/
def logAt (c : MarketDataConsumer) (log : Log) (line : Nat) (function : String) (format : String)
    (args : List LogValue) : Except Fault Unit :=
  log format ([.text "market_data_consumer.cpp", .number line, .text function, .text c.timeStr] ++ args)

/-- The loop over the queued snapshot messages: the updates to forward, or `none` at a gap. -/
def scanSnapshot (c : MarketDataConsumer) (log : Log) :
    List (Nat × MEMarketUpdate) → Nat → Except Fault (Option (List MEMarketUpdate))
  | [], _ => pure (some [])
  | (seq, u) :: itr, nextSnapshotSeq => do
    c.logAt log 119 "checkSnapshotSync" "%:% %() % % => %\n" [.number seq, .text u.toString]
    if seq ≠ nextSnapshotSeq then
      c.logAt log 122 "checkSnapshotSync"
        "%:% %() % Detected gap in snapshot stream, expected:% found:% %.\n"
        [.number nextSnapshotSeq, .number seq, .text u.toString]
      pure none
    else
      let finalEvents ← c.scanSnapshot log itr (nextSnapshotSeq + 1)
      pure (finalEvents.map fun es => if u.forwarded then u :: es else es)

/-- The loop over the queued incrementals: whether they are without gap, the next expected
number, how many were taken, and the updates to forward. -/
def scanIncrementals (c : MarketDataConsumer) (log : Log) :
    List (Nat × MEMarketUpdate) → Nat → Except Fault (Bool × Nat × Nat × List MEMarketUpdate)
  | [], nextExp => pure (true, nextExp, 0, [])
  | (seq, u) :: itr, nextExp => do
    c.logAt log 150 "checkSnapshotSync" "%:% %() % Checking next_exp:% vs seq:% %.\n"
      [.number nextExp, .number seq, .text u.toString]
    if seq < nextExp then c.scanIncrementals log itr nextExp
    else if seq ≠ nextExp then
      c.logAt log 157 "checkSnapshotSync"
        "%:% %() % Detected gap in incremental stream expected:% found:% %\n"
        [.number nextExp, .number seq, .text u.toString]
      pure (false, nextExp, 0, [])
    else
      c.logAt log 163 "checkSnapshotSync" "%:% %() % % => %\n" [.number seq, .text u.toString]
      let (complete, nextExp, num, events) ← c.scanIncrementals log itr (wrap64 (nextExp + 1))
      pure (complete, nextExp, num + 1, if u.forwarded then u :: events else events)

def checkSnapshotSync (c : MarketDataConsumer) (log : Log) :
    Except Fault (MarketDataConsumer × List MEMarketUpdate) :=
  match c.snapshotQueuedMsgs.entries with
  | [] => pure (c, [])
  | first :: rest => do
    let cleared := { c with snapshotQueuedMsgs := .empty }
    if first.2.type ≠ .snapshotStart then
      c.logAt log 109 "checkSnapshotSync"
        "%:% %() % Returning because have not seen s SNAPSHOT_START yet. \n" []
      pure (cleared, [])
    else
      match ← c.scanSnapshot log (first :: rest) 0 with
      | none =>
        c.logAt log 135 "checkSnapshotSync"
          "%:% %() % Returning because found gaps in snapshot stream.\n" []
        pure (cleared, [])
      | some snapshotEvents =>
        let lastSnapshotMsg := (rest.getLast?.getD first).2
        if lastSnapshotMsg.type ≠ .snapshotEnd then
          c.logAt log 142 "checkSnapshotSync"
            "%:% %() % Returning because have not seen s SNAPSHOT_START yet.\n" []
          pure (c, [])
        else
          let (complete, nextExp, numIncrementals, incrementalEvents) ← c.scanIncrementals log
            c.incrementalQueuedMsgs.entries (wrap64 (lastSnapshotMsg.orderId + 1))
          if complete = false then
            c.logAt log 175 "checkSnapshotSync"
              "%:% %() % Returning because have gaps in queued incrementals.\n" []
            pure ({ cleared with nextExpIncSeqInc := nextExp }, [])
          else
            -- two arguments for the one placeholder that is left
            c.logAt log 186 "checkSnapshotSync"
              "%:% %() % Recovered snapshot and % incremental orders.\n"
              [.number ((first :: rest).length - 2), .number numIncrementals]
            pure ({ c with
              nextExpIncSeqInc := nextExp, inRecovery := false
              snapshotQueuedMsgs := .empty, incrementalQueuedMsgs := .empty },
              snapshotEvents ++ incrementalEvents)

def startSnapshotSync (c : MarketDataConsumer) : MarketDataConsumer :=
  { c with snapshotQueuedMsgs := .empty, incrementalQueuedMsgs := .empty }

/-- An incremental message is not queued, it only triggers the check. -/
def queueMessage (c : MarketDataConsumer) (log : Log) (isSnapshot : Bool) (request : MDPMarketUpdate) :
    Except Fault (MarketDataConsumer × List MEMarketUpdate) :=
  if isSnapshot then do
    let queued ←
      if c.snapshotQueuedMsgs.contains request.seqNum then do
        c.logAt log 91 "queueMessage"
          "%:% %() % Packet drops on snapshot socket. Received for a 2nd time:%\n" [.text request.toString]
        pure SortedMap.empty
      else pure c.snapshotQueuedMsgs
    pure ({ c with snapshotQueuedMsgs := queued.insert request.seqNum request.meMarketUpdate }, [])
  else do
    c.logAt log 96 "queueMessage" "%:% %() % size snapshot:% incremental:% % => %\n"
      [.number c.snapshotQueuedMsgs.entries.length, .number c.incrementalQueuedMsgs.entries.length,
        .number request.seqNum, .text request.toString]
    c.checkSnapshotSync log

def streamName (isSnapshot : Bool) : String := if isSnapshot then "snapshot" else "incremental"

/-- One message of the loop of `recvCallback`. -/
def recvMessage (c : MarketDataConsumer) (log : Log) (isSnapshot : Bool) (request : MDPMarketUpdate) :
    Except Fault (MarketDataConsumer × List MEMarketUpdate) := do
  c.logAt log 47 "recvCallback" "%:% %() % Received % socket len:% %\n"
    [.text (streamName isSnapshot), .number 42, .text request.toString]
  let alreadyInRecovery := c.inRecovery
  let c := { c with inRecovery := alreadyInRecovery || request.seqNum ≠ c.nextExpIncSeqInc }
  if c.inRecovery then
    let c ←
      if !alreadyInRecovery then do
        c.logAt log 55 "recvCallback" "%:% %() % Packet drop on % socket. SeqNum expected:% received:%\n"
          [.text (streamName isSnapshot), .number c.nextExpIncSeqInc, .number request.seqNum]
        pure c.startSnapshotSync
      else pure c
    c.queueMessage log isSnapshot request
  else if !isSnapshot then
    c.logAt log 62 "recvCallback" "%:% %() % % \n" [.text request.toString]
    pure ({ c with nextExpIncSeqInc := wrap64 (c.nextExpIncSeqInc + 1) }, [request.meMarketUpdate])
  else pure (c, [])

def recvMessages (log : Log) (isSnapshot : Bool) :
    List MDPMarketUpdate → MarketDataConsumer → Except Fault (MarketDataConsumer × List MEMarketUpdate)
  | [], c => pure (c, [])
  | request :: requests, c => do
    let (c, written) ← c.recvMessage log isSnapshot request
    let (c, written') ← recvMessages log isSnapshot requests c
    pure (c, written ++ written')

/-- `recvCallback`, given the complete messages of the socket's buffer. Outside recovery a
snapshot buffer is discarded. -/
def recvCallback (c : MarketDataConsumer) (log : Log) (isSnapshot : Bool)
    (requests : List MDPMarketUpdate) : Except Fault (MarketDataConsumer × List MEMarketUpdate) := do
  if isSnapshot && !c.inRecovery then
    c.logAt log 40 "recvCallback" "%:% %() % WARN Not expecting snapshot messages.\n" []
    pure (c, [])
  else recvMessages log isSnapshot requests c

end MarketDataConsumer
end LowLatencyExchange
