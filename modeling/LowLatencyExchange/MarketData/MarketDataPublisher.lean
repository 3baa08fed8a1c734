import LowLatencyExchange.Common.McastSocket
import LowLatencyExchange.Common.TCPSocket
import LowLatencyExchange.Exchange.Wire
import LowLatencyExchange.Library.Run
import LowLatencyExchange.MarketData.OrderMap

/-!
# The market data publisher

`Exchange::MarketDataPublisher` numbers the updates, passes them to the incremental socket and
writes them to the snapshot queue. The bytes it passes to the socket are not those of the update
but those of its own pointer to the update, and of the stack behind that pointer.
-/

namespace LowLatencyExchange
open ByteStream LoggedRun

/-- The memory at `&market_update`: the pointer, which is the address of a place in the queue, and
as many bytes behind it as fill up `sizeof(MEMarketUpdate)`. -/
structure StackFrame where
  marketUpdate : Nat
  behind : List UInt8
  length_behind : behind.length = 26

def StackFrame.bytes (f : StackFrame) : List UInt8 := sizeT.encode f.marketUpdate ++ f.behind

/-- What the run loop did: bytes passed to `incremental_socket_.send`, a message written to the
snapshot queue, bytes passed on to `::send`. -/
inductive PublisherEvent
  | passed (data : List UInt8)
  | snapshot (message : MDPMarketUpdate)
  | flushed (data : List UInt8)

structure MarketDataPublisher where
  nextIncSeqNum : Nat := 1
  incrementalSocket : McastSocket := {}
  timeStr : String := ""

/-- The run loop takes an update off its ring, or calls `sendAndRecv`, which logs how many bytes
`::send` took. -/
inductive PublisherAction
  | publish (frame : StackFrame) (marketUpdate : MEMarketUpdate)
  | sendAndRecv (n : Int)

namespace MarketDataPublisher

def publish (log : Log) (p : MarketDataPublisher) (frame : StackFrame) (marketUpdate : MEMarketUpdate) :
    Except Fault (MarketDataPublisher × List PublisherEvent) := do
  log "%:% %() % sending seq:% %\n" [.text "market_data_publisher.cpp", .number 22, .text "run", .text p.timeStr,
    .number p.nextIncSeqNum, .text marketUpdate.toString]
  let socket ← p.incrementalSocket.send (sizeT.encode p.nextIncSeqNum)
  -- `send(&market_update, ..)`, where `market_update` is the pointer already
  let socket ← socket.send frame.bytes
  pure ({ p with
    incrementalSocket := socket
    nextIncSeqNum := wrap64 (p.nextIncSeqNum + 1) },
    [.passed (sizeT.encode p.nextIncSeqNum), .passed frame.bytes, .snapshot ⟨p.nextIncSeqNum, marketUpdate⟩])

def sendAndRecv (log : Log) (p : MarketDataPublisher) (n : Int) :
    Except Fault (MarketDataPublisher × List PublisherEvent) := do
  if p.incrementalSocket.outboundData = [] then pure (p, [])
  else
    log "%:% %() % send socket:% len:%\n" [.text "mcast_socket.cpp", .number 32, .text "sendAndRecv",
      .text p.timeStr, .number p.incrementalSocket.socketFd, .text (toString n)]
    pure ({ p with incrementalSocket := p.incrementalSocket.flush }, [.flushed p.incrementalSocket.flushed])

def step (log : Log) (p : MarketDataPublisher) :
    PublisherAction → Except Fault (MarketDataPublisher × List PublisherEvent)
  | .publish frame marketUpdate => p.publish log frame marketUpdate
  | .sendAndRecv n => p.sendAndRecv log n

end MarketDataPublisher

namespace PublisherEvent

def passed? : PublisherEvent → List UInt8
  | .passed data => data
  | .snapshot _ => []
  | .flushed _ => []

def snapshot? : PublisherEvent → Option MDPMarketUpdate
  | .passed _ => none
  | .snapshot message => some message
  | .flushed _ => none

end PublisherEvent

/-- The bytes passed to the incremental socket, and the messages in the snapshot queue. -/
def passedBytes (es : List PublisherEvent) : List UInt8 := es.flatMap PublisherEvent.passed?
def snapshotQueue (es : List PublisherEvent) : List MDPMarketUpdate := es.filterMap PublisherEvent.snapshot?

/-- The updates that were drained, and the frames they were drained with. -/
def drained (actions : List PublisherAction) : List (StackFrame × MEMarketUpdate) := actions.filterMap fun
  | .publish frame marketUpdate => some (frame, marketUpdate)
  | .sendAndRecv _ => none

lemma passedBytes_append (es es' : List PublisherEvent) :
    passedBytes (es ++ es') = passedBytes es ++ passedBytes es' := List.flatMap_append

lemma snapshotQueue_append (es es' : List PublisherEvent) :
    snapshotQueue (es ++ es') = snapshotQueue es ++ snapshotQueue es' := List.filterMap_append

/-- What a receiver takes the memory at `&market_update` for. -/
def StackFrame.seen (f : StackFrame) : MEMarketUpdate := MEMarketUpdate.packed.decode f.bytes

namespace StackFrame

lemma length_bytes (f : StackFrame) : f.bytes.length = MEMarketUpdate.packed.sizeof := by
  rw [bytes, List.length_append, sizeT.length_encode, f.length_behind]
  rfl

lemma encode_seen (f : StackFrame) : MEMarketUpdate.packed.encode f.seen = f.bytes :=
  MEMarketUpdate.packed.encode_decode _ f.length_bytes

lemma fits_seen (f : StackFrame) : MEMarketUpdate.packed.Fits f.seen :=
  MEMarketUpdate.packed.fits_decode _ f.length_bytes

/-- A frame is taken for an update just when it holds the update's bytes. -/
lemma seen_eq_iff (f : StackFrame) {u : MEMarketUpdate} (hu : MEMarketUpdate.packed.Fits u) :
    f.seen = u ↔ f.bytes = MEMarketUpdate.packed.encode u := by
  constructor
  · rintro rfl
    exact f.encode_seen.symm
  · intro h
    rw [seen, h, MEMarketUpdate.packed.decode_encode u hu]

end StackFrame

namespace MarketDataPublisher
variable {log : Log} {p p' : MarketDataPublisher}

lemma publish_cases {frame : StackFrame} {u : MEMarketUpdate} {es : List PublisherEvent}
    (h : p.publish log frame u = .ok (p', es)) :
    p'.nextIncSeqNum = wrap64 (p.nextIncSeqNum + 1) ∧
      es = [.passed (sizeT.encode p.nextIncSeqNum), .passed frame.bytes, .snapshot ⟨p.nextIncSeqNum, u⟩] := by
  obtain ⟨_, -, h⟩ := bind_eq_ok h
  obtain ⟨socket, -, h⟩ := bind_eq_ok h
  obtain ⟨socket', -, h⟩ := bind_eq_ok h
  cases h
  exact ⟨rfl, rfl⟩

lemma publish_eq (hlog : log.Counts) (frame : StackFrame) (u : MEMarketUpdate)
    (hroom : p.incrementalSocket.outboundData.length + 42 < McastBufferSize) :
    p.publish log frame u = .ok ({ p with
      incrementalSocket := { p.incrementalSocket with
        outboundData := p.incrementalSocket.outboundData ++ sizeT.encode p.nextIncSeqNum ++ frame.bytes }
      nextIncSeqNum := wrap64 (p.nextIncSeqNum + 1) },
      [.passed (sizeT.encode p.nextIncSeqNum), .passed frame.bytes, .snapshot ⟨p.nextIncSeqNum, u⟩]) := by
  have hnumber : (sizeT.encode p.nextIncSeqNum).length = 8 := sizeT.length_encode _
  have hframe : frame.bytes.length = 34 := frame.length_bytes
  unfold publish
  rw [hlog _ _ rfl, ok_bind, McastSocket.send_eq (by omega), ok_bind, McastSocket.send_eq, ok_bind, pure_eq_ok]
  rw [List.length_append]
  omega

lemma sendAndRecv_cases {n : Int} {es : List PublisherEvent} (h : p.sendAndRecv log n = .ok (p', es)) :
    p'.nextIncSeqNum = p.nextIncSeqNum ∧ passedBytes es = [] ∧ snapshotQueue es = [] := by
  unfold sendAndRecv at h
  split at h
  · cases h
    exact ⟨rfl, rfl, rfl⟩
  · obtain ⟨_, -, h⟩ := bind_eq_ok h
    cases h
    exact ⟨rfl, rfl, rfl⟩

/-- What a step needs of the socket's buffer, and what it adds to it. -/
lemma step_returns (hlog : log.Counts) {a : PublisherAction}
    (hroom : p.incrementalSocket.outboundData.length + 42 * (drained [a]).length < McastBufferSize) :
    ∃ p' es, p.step log a = .ok (p', es) ∧ p'.incrementalSocket.outboundData.length ≤
      p.incrementalSocket.outboundData.length + 42 * (drained [a]).length := by
  cases a with
  | publish frame u =>
    have hnumber : (sizeT.encode p.nextIncSeqNum).length = 8 := sizeT.length_encode _
    have hframe : frame.bytes.length = 34 := frame.length_bytes
    refine ⟨_, _, publish_eq hlog frame u hroom, ?_⟩
    simp only [List.length_append, hnumber, hframe, Nat.add_assoc]
    exact Nat.le_refl _
  | sendAndRecv n =>
    by_cases hempty : p.incrementalSocket.outboundData = []
    · exact ⟨p, [], by rw [step, sendAndRecv, if_pos hempty, pure_eq_ok], Nat.le_add_right _ _⟩
    · exact ⟨_, _, by rw [step, sendAndRecv, if_neg hempty, hlog _ _ rfl, ok_bind, pure_eq_ok], Nat.zero_le _⟩

/-- A run goes through where the socket has room for all that it drains. -/
lemma execute_returns (hlog : log.Counts) {actions : List PublisherAction}
    (hroom : p.incrementalSocket.outboundData.length + 42 * (drained actions).length < McastBufferSize) :
    ∃ p' es, execute (step log) p actions = .ok (p', es) := by
  induction actions generalizing p with
  | nil => exact ⟨p, [], rfl⟩
  | cons a actions ih =>
    have hdrained : drained (a :: actions) = drained [a] ++ drained actions := List.filterMap_append (l := [a])
    rw [hdrained, List.length_append] at hroom
    obtain ⟨p₁, es₁, hstep, hlength⟩ := step_returns hlog (p := p) (a := a) (by omega)
    obtain ⟨p', es, hrest⟩ := ih (p := p₁) (by omega)
    exact ⟨p', _, execute_cons hstep hrest⟩

/-- However the draining is batched, the socket is passed the frames behind their numbers, and the
snapshot queue gets the updates behind the same numbers. -/
theorem execute_eq {actions : List PublisherAction} {es : List PublisherEvent} {n : Nat}
    (hn : p.nextIncSeqNum = wrap64 (n + 1)) (hrun : execute (step log) p actions = .ok (p', es)) :
    passedBytes es = numberedStream MEMarketUpdate.packed (wrap64 (n + 1))
      ((drained actions).map fun d => d.1.seen) ∧
    snapshotQueue es = numbered n ((drained actions).map Prod.snd) := by
  induction actions generalizing p n es with
  | nil =>
    cases hrun
    exact ⟨rfl, rfl⟩
  | cons a actions ih =>
    obtain ⟨p₁, es₁, es₂, hstep, hrest, rfl⟩ := execute_cons_ok hrun
    rw [passedBytes_append, snapshotQueue_append]
    cases a with
    | publish frame u =>
      obtain ⟨hnext, rfl⟩ := publish_cases hstep
      rw [hn] at hnext
      obtain ⟨hpassed, hsnapshot⟩ := ih hnext hrest
      have hdrained : drained (.publish frame u :: actions) = (frame, u) :: drained actions := rfl
      rw [hpassed, hsnapshot, hdrained, List.map_cons, List.map_cons, numberedStream, frame.encode_seen, hn]
      constructor
      · simp [passedBytes, PublisherEvent.passed?]
      · rfl
    | sendAndRecv m =>
      obtain ⟨hnext, hpassed, hsnapshot⟩ := sendAndRecv_cases hstep
      rw [hpassed, hsnapshot]
      exact ih (hnext.trans hn) hrest

end MarketDataPublisher
end LowLatencyExchange
