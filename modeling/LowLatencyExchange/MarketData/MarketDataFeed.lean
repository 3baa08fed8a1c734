import LowLatencyExchange.Common.McastSocket
import LowLatencyExchange.Exchange.Wire
import LowLatencyExchange.MarketData.Mirrored
import LowLatencyExchange.MarketData.Overcommitted
import LowLatencyExchange.MarketData.Snapshot
import LowLatencyExchange.MarketData.TwinStreams

/-!
# From the engine to the snapshots

The threads of `MatchingEngine`, `MarketDataPublisher` and `SnapshotSynthesizer`, with the rings
`outgoing_md_updates_` and `snapshot_md_updates_` between them, and the publisher's `incremental_socket_`.
Each thread takes the steps of its own loop, and the threads take turns in any order.
-/

namespace LowLatencyExchange
open LoggedRun

/-- `unsent` are the updates of the request in progress that the engine has still to write, and
`nextSendValidIndex` is that of `incremental_socket_`. -/
structure MarketDataFeed where
  matchingEngine : MatchingEngine
  unsent : List MEMarketUpdate
  streams : TwinStreams
  nextSendValidIndex : Nat
  snapshotMdUpdates : LFQueue MDPMarketUpdate
  snapshotSynthesizer : SnapshotSynthesizer

inductive FeedAction
  | processRequest (request : MEClientRequest)
  | sendMarketUpdate
  | publisher
  | addToSnapshot
  | publishSnapshot
  deriving DecidableEq, Repr

inductive FeedEvent
  | processed (request : MEClientRequest) (sent : List MEMarketUpdate)
  | stream (event : StreamEvent)
  | added (message : MDPMarketUpdate)
  | snapshot (messages : List MDPMarketUpdate)
  deriving DecidableEq, Repr

namespace FeedEvent

def processed? : FeedEvent → List MEMarketUpdate
  | .processed _ sent => sent
  | .stream _ | .added _ | .snapshot _ => []

def stream? : FeedEvent → Option StreamEvent
  | .stream event => some event
  | .processed _ _ | .added _ | .snapshot _ => none

def added? : FeedEvent → Option MDPMarketUpdate
  | .added message => some message
  | .processed _ _ | .stream _ | .snapshot _ => none

end FeedEvent

/-- What the publisher passes to `incremental_socket_` for an update: 8 bytes of the number and 34 of the update. -/
def messageSize : Nat := sizeT.sizeof + MEMarketUpdate.packed.sizeof

@[simp] lemma messageSize_eq : messageSize = 42 := rfl

namespace MarketDataFeed

def create : MarketDataFeed where
  matchingEngine := MatchingEngine.create
  unsent := []
  streams := TwinStreams.create
  nextSendValidIndex := 0
  snapshotMdUpdates := .create {} ME_MAX_MARKET_UPDATES
  snapshotSynthesizer := SnapshotSynthesizer.create

/-- `next_send_valid_index_` after a step of the publisher. What it has found it passes to the socket, the number
and then the update, and when it finds nothing it calls `sendAndRecv`. -/
def sendIncremental (s : MarketDataFeed) : Except Fault Nat :=
  match s.streams.publisher with
  | .idle =>
    match s.streams.outgoingMdUpdates.getNextToRead with
    | none => pure 0
    | some _ => pure s.nextSendValidIndex
  | .found _ => do
    let nextSendValidIndex ← McastSocket.sendIndex s.nextSendValidIndex sizeT.sizeof
    McastSocket.sendIndex nextSendValidIndex MEMarketUpdate.packed.sizeof
  | .sent _ | .released _ => pure s.nextSendValidIndex

/-- `sendMarketUpdate` does not ask whether there is room, and neither does the publisher. The engine
begins with a request when it has sent all updates of the one before. -/
def step (log : Log) (s : MarketDataFeed) : FeedAction → Except Fault (MarketDataFeed × List FeedEvent)
  | .processRequest request =>
    match s.unsent with
    | [] => do
      let (matchingEngine, es) ← s.matchingEngine.processNext log request
      pure ({ s with matchingEngine := matchingEngine, unsent := updates es }, [.processed request (updates es)])
    | _ :: _ => pure (s, [])
  | .sendMarketUpdate =>
    match s.unsent with
    | [] => pure (s, [])
    | marketUpdate :: rest =>
      pure ({ s with
        unsent := rest
        streams := { s.streams with outgoingMdUpdates := s.streams.outgoingMdUpdates.write marketUpdate } },
        [.stream (.written marketUpdate)])
  | .publisher => do
    let nextSendValidIndex ← s.sendIncremental
    let (streams, es) ← s.streams.step .publisher
    pure ({ s with
      streams := streams
      nextSendValidIndex := nextSendValidIndex
      snapshotMdUpdates := (TwinStreams.copied es).foldl LFQueue.write s.snapshotMdUpdates }, es.map .stream)
  | .addToSnapshot =>
    match s.snapshotMdUpdates.getNextToRead with
    | none => pure (s, [])
    | some slot => do
      let message := s.snapshotMdUpdates.store slot
      let snapshotSynthesizer ← s.snapshotSynthesizer.addToSnapshot message
      let ring ← s.snapshotMdUpdates.updateReadIndex
      pure ({ s with snapshotSynthesizer := snapshotSynthesizer, snapshotMdUpdates := ring }, [.added message])
  | .publishSnapshot => pure (s, [.snapshot s.snapshotSynthesizer.publishSnapshot])

/-- No element is written over one that is still to be read. -/
def Paced (s : MarketDataFeed) : FeedAction → Prop
  | .sendMarketUpdate => ∀ u ∈ s.unsent.head?,
      s.streams.outgoingMdUpdates.numElements < ME_MAX_MARKET_UPDATES ∧ ¬s.streams.Rewrites (.engine u)
  | .publisher => (∃ slot, s.streams.publisher = .released slot) →
      s.snapshotMdUpdates.numElements < ME_MAX_MARKET_UPDATES
  | .processRequest _ | .addToSnapshot | .publishSnapshot => True

/-- The requests that leave the books intact. -/
def Orderly (s : MarketDataFeed) : FeedAction → Prop
  | .processRequest request => s.unsent = [] → s.matchingEngine.Orderly request
  | .sendMarketUpdate | .publisher | .addToSnapshot | .publishSnapshot => True

/-- The requests that leave no order for which the synthesizer has no place. -/
def Fits (s : MarketDataFeed) : FeedAction → Prop
  | .processRequest request => s.unsent = [] → ¬s.matchingEngine.Overcommits request
  | .sendMarketUpdate | .publisher | .addToSnapshot | .publishSnapshot => True

end MarketDataFeed

/-- The updates of the requests that the engine has processed, all in their order. -/
def sentUpdates (run : List (FeedAction × List FeedEvent)) : List MEMarketUpdate :=
  (sent run).flatMap FeedEvent.processed?

def streamEvents (run : List (FeedAction × List FeedEvent)) : List StreamEvent :=
  (sent run).filterMap FeedEvent.stream?

/-- The messages that the synthesizer has taken in. -/
def addedMessages (run : List (FeedAction × List FeedEvent)) : List MDPMarketUpdate :=
  (sent run).filterMap FeedEvent.added?

/-- The runs in which no ring is overrun. -/
abbrev FeedRun (log : Log) (run : List (FeedAction × List FeedEvent)) (s : MarketDataFeed) : Prop :=
  Reached (MarketDataFeed.step log) (fun _ s a _ => s.Paced a) MarketDataFeed.create run s

/-- The runs in which no ring is overrun, and all books stay intact. -/
abbrev OrderlyFeedRun (log : Log) (run : List (FeedAction × List FeedEvent)) (s : MarketDataFeed) : Prop :=
  Reached (MarketDataFeed.step log) (fun _ s a _ => s.Paced a ∧ s.Orderly a) MarketDataFeed.create run s

/-- The orderly runs in which the synthesizer has a place for all orders. -/
abbrev FittingFeedRun (log : Log) (run : List (FeedAction × List FeedEvent)) (s : MarketDataFeed) : Prop :=
  Reached (MarketDataFeed.step log) (fun _ s a _ => (s.Paced a ∧ s.Orderly a) ∧ s.Fits a) MarketDataFeed.create run s

lemma OrderlyFeedRun.feedRun {log : Log} {run : List (FeedAction × List FeedEvent)} {s : MarketDataFeed}
    (h : OrderlyFeedRun log run s) : FeedRun log run s := h.mono fun _ _ _ _ hallowed => hallowed.1

lemma FittingFeedRun.orderly {log : Log} {run : List (FeedAction × List FeedEvent)} {s : MarketDataFeed}
    (h : FittingFeedRun log run s) : OrderlyFeedRun log run s := h.mono fun _ _ _ _ hallowed => hallowed.1

lemma sentUpdates_concat (run : List (FeedAction × List FeedEvent)) (a : FeedAction) (es : List FeedEvent) :
    sentUpdates (run ++ [(a, es)]) = sentUpdates run ++ es.flatMap FeedEvent.processed? := by
  rw [sentUpdates, sent_append, sent_singleton, List.flatMap_append]
  rfl

lemma streamEvents_concat (run : List (FeedAction × List FeedEvent)) (a : FeedAction) (es : List FeedEvent) :
    streamEvents (run ++ [(a, es)]) = streamEvents run ++ es.filterMap FeedEvent.stream? := by
  rw [streamEvents, sent_append, sent_singleton, List.filterMap_append]
  rfl

lemma addedMessages_concat (run : List (FeedAction × List FeedEvent)) (a : FeedAction) (es : List FeedEvent) :
    addedMessages (run ++ [(a, es)]) = addedMessages run ++ es.filterMap FeedEvent.added? := by
  rw [addedMessages, sent_append, sent_singleton, List.filterMap_append]
  rfl

variable {log : Log} {run : List (FeedAction × List FeedEvent)} {s s' : MarketDataFeed} {es : List FeedEvent}

lemma processed?_map (new : List StreamEvent) : (new.map FeedEvent.stream).flatMap FeedEvent.processed? = [] := by
  induction new with
  | nil => rfl
  | cons e new ih => exact ih

/-- The publisher stops at an update for which the socket has no room. -/
lemma MarketDataFeed.sendIncremental_returns_iff : (∃ n, s.sendIncremental = .ok n) ↔
    ∀ slot, s.streams.publisher = .found slot → s.nextSendValidIndex + messageSize < McastBufferSize := by
  unfold MarketDataFeed.sendIncremental
  cases hpublisher : s.streams.publisher with
  | idle =>
    refine iff_of_true ?_ fun slot hfound => by cases hfound
    dsimp only
    split
    · exact ⟨_, rfl⟩
    · exact ⟨_, rfl⟩
  | found slot =>
    constructor
    · rintro ⟨n, h⟩ _ -
      obtain ⟨m, hfirst, hsecond⟩ := bind_eq_ok h
      obtain ⟨-, rfl⟩ := McastSocket.sendIndex_eq_ok.mp hfirst
      obtain ⟨hroom, -⟩ := McastSocket.sendIndex_eq_ok.mp hsecond
      rwa [Nat.add_assoc] at hroom
    · intro h
      have hroom := h slot rfl
      rw [messageSize, ← Nat.add_assoc] at hroom
      refine ⟨s.nextSendValidIndex + sizeT.sizeof + MEMarketUpdate.packed.sizeof, ?_⟩
      dsimp only
      rw [McastSocket.sendIndex_eq_ok.mpr ⟨by omega, rfl⟩, ok_bind]
      exact McastSocket.sendIndex_eq_ok.mpr ⟨hroom, rfl⟩
  | sent slot => exact iff_of_true ⟨_, rfl⟩ fun slot hfound => by cases hfound
  | released slot => exact iff_of_true ⟨_, rfl⟩ fun slot hfound => by cases hfound

/-- Only the engine's thread touches the books. -/
lemma MarketDataFeed.step_engine {a : FeedAction} (hrun : s.step log a = .ok (s', es)) :
    (s'.matchingEngine = s.matchingEngine ∧ es.flatMap FeedEvent.processed? = []) ∨
    ∃ request messages, a = .processRequest request ∧ s.unsent = [] ∧
      s.matchingEngine.processNext log request = .ok (s'.matchingEngine, messages) ∧
      es.flatMap FeedEvent.processed? = updates messages := by
  cases a with
  | processRequest request =>
    simp only [MarketDataFeed.step] at hrun
    split at hrun
    · rename_i hunsent
      obtain ⟨⟨engine, messages⟩, hengine, hrun⟩ := bind_eq_ok hrun
      cases hrun
      exact .inr ⟨request, messages, rfl, hunsent, hengine, List.append_nil _⟩
    · cases hrun
      exact .inl ⟨rfl, rfl⟩
  | sendMarketUpdate =>
    left
    simp only [MarketDataFeed.step] at hrun
    split at hrun <;> cases hrun <;> exact ⟨rfl, rfl⟩
  | publisher =>
    obtain ⟨n, -, hrun⟩ := bind_eq_ok hrun
    obtain ⟨⟨streams, new⟩, -, hrun⟩ := bind_eq_ok hrun
    cases hrun
    exact .inl ⟨rfl, processed?_map new⟩
  | addToSnapshot =>
    left
    simp only [MarketDataFeed.step] at hrun
    split at hrun
    · cases hrun
      exact ⟨rfl, rfl⟩
    · obtain ⟨synthesizer, -, hrun⟩ := bind_eq_ok hrun
      obtain ⟨ring, -, hrun⟩ := bind_eq_ok hrun
      cases hrun
      exact ⟨rfl, rfl⟩
  | publishSnapshot =>
    cases hrun
    exact .inl ⟨rfl, rfl⟩

/-- The updates sent so far lead to the books as they are. -/
theorem OrderlyFeedRun.mirrored (h : OrderlyFeedRun log run s) :
    s.matchingEngine.Mirrored (OrderMap.empty.applyAll (sentUpdates run)) := by
  apply Reached.invariant h
    (fun run s => s.matchingEngine.Mirrored (OrderMap.empty.applyAll (sentUpdates run))) MatchingEngine.mirrored_create
  intro run s a s' es hmirrored hallowed hrun
  rw [sentUpdates_concat]
  rcases MarketDataFeed.step_engine hrun with ⟨hengine, hnone⟩ | ⟨request, messages, rfl, hunsent, hengine, hsent⟩
  · rw [hengine, hnone, List.append_nil]
    exact hmirrored
  · rw [hsent, OrderMap.applyAll_append]
    exact (hmirrored.processNext (hallowed.2 hunsent) hengine).1

/-- All updates sent so far fit into the synthesizer, in their order. -/
structure Fitting (run : List (FeedAction × List FeedEvent)) (s : MarketDataFeed) : Prop where
  mirrored : s.matchingEngine.Mirrored (OrderMap.empty.applyAll (sentUpdates run))
  accounted : s.matchingEngine.Accounted (sentUpdates run)
  accepts : OrderMap.empty.AcceptsAll (sentUpdates run)

lemma AdmittedAll.orderId {us vs : List MEMarketUpdate} (h : AdmittedAll (us ++ vs)) :
    ∀ v ∈ vs, v.type = .add → v.orderId < ME_MAX_ORDER_IDS := by
  intro v hv hadd
  obtain ⟨past, later, rfl⟩ := List.append_of_mem hv
  have hadmitted := h (us ++ past) v later (by rw [List.append_assoc])
  exact hadmitted.orderId (.inl hadd)

theorem FittingFeedRun.fitting (h : FittingFeedRun log run s) : Fitting run s := by
  apply Reached.invariant h Fitting
  · exact ⟨MatchingEngine.mirrored_create, MatchingEngine.accounted_create, trivial⟩
  intro run s a s' es hfitting hallowed hrun
  obtain ⟨hmirrored, haccounted, haccepts⟩ := hfitting
  rcases MarketDataFeed.step_engine hrun with ⟨hengine, hnone⟩ | ⟨request, messages, rfl, hunsent, hengine, hsent⟩
  · have hsame : sentUpdates (run ++ [(a, es)]) = sentUpdates run := by
      rw [sentUpdates_concat, hnone, List.append_nil]
    constructor
    · rw [hengine, hsame]
      exact hmirrored
    · rw [hengine, hsame]
      exact haccounted
    · rw [hsame]
      exact haccepts
  · have haccounted' := haccounted.processNext (hallowed.2 hunsent) hengine
    obtain ⟨hmirrored', haccepts'⟩ := hmirrored.processNext (hallowed.1.2 hunsent) hengine
    have hmore : sentUpdates (run ++ [(.processRequest request, es)]) = sentUpdates run ++ updates messages := by
      rw [sentUpdates_concat, hsent]
    constructor
    · rw [hmore, OrderMap.applyAll_append]
      exact hmirrored'
    · rw [hmore]
      exact haccounted'
    · rw [hmore]
      exact haccepts.append (haccepts' haccounted'.admitted.orderId)

lemma MarketDataFeed.process_eq (hunsent : s.unsent = []) {r : MEClientRequest} (hticker : r.tickerId < ME_MAX_TICKERS)
    {call : BookCall} (hcall : MatchingEngine.bookCall r = .ok call) {b : MEOrderBook} {sent : List Event}
    (hrun : (s.matchingEngine.tickerOrderBook r.tickerId).call call = .ok (b, sent)) :
    s.step Logger.log (.processRequest r) = .ok ({ s with
      matchingEngine := s.matchingEngine.withBook r.tickerId b
      unsent := updates sent }, [.processed r (updates sent)]) := by
  have hprocess := MatchingEngine.processNext_returns Logger.counts_log hticker hcall hrun
  simp only [MarketDataFeed.step, hunsent, hprocess, ok_bind]
  rfl

/-- A request of a day on which few orders were added, and few ids given out. -/
lemma FittingFeedRun.request (h : FittingFeedRun Logger.log run s) (hunsent : s.unsent = []) {r : MEClientRequest}
    (hticker : r.tickerId < ME_MAX_TICKERS) {call : BookCall} (hcall : MatchingEngine.bookCall r = .ok call)
    {b : MEOrderBook} {sent : List Event}
    (hrun : (s.matchingEngine.tickerOrderBook r.tickerId).call call = .ok (b, sent))
    (hkeeps : (s.matchingEngine.tickerOrderBook r.tickerId).Keeps call)
    (hid : (s.matchingEngine.tickerOrderBook r.tickerId).nextMarketOrderId < ME_MAX_ORDER_IDS)
    (hfew : addCount (sentUpdates run) + 1 < ME_MAX_ORDER_IDS) :
    FittingFeedRun Logger.log (run ++ [(.processRequest r, [.processed r (updates sent)])]) { s with
      matchingEngine := s.matchingEngine.withBook r.tickerId b
      unsent := updates sent } := by
  have horderly : s.matchingEngine.Orderly r := by
    refine ⟨fun call' hcall' => ?_, Nat.lt_of_le_of_lt hid (by decide)⟩
    obtain rfl : call = call' := Except.ok.inj (hcall.symm.trans hcall')
    exact hkeeps
  have hfits := h.fitting.accounted.fits hticker hid hfew
  exact h.next ⟨⟨trivial, fun _ => horderly⟩, fun _ => hfits⟩ (MarketDataFeed.process_eq hunsent hticker hcall hrun)

lemma FittingFeedRun.concat (h : FittingFeedRun log run s) (a : FeedAction) (hrun : s.step log a = .ok (s', es))
    (hpaced : s.Paced a) (horderly : s.Orderly a) (hfits : s.Fits a) : FittingFeedRun log (run ++ [(a, es)]) s' :=
  h.next ⟨⟨hpaced, horderly⟩, hfits⟩ hrun

end LowLatencyExchange
