import LowLatencyExchange.MarketData.MarketDataPublisher
import LowLatencyExchange.Trading.Recovery

/-!
# From the publisher to the consumers

The consumers read what the publisher passed to its incremental socket. They find the updates just
when the memory around the publisher's pointer happens to hold them.
-/

namespace LowLatencyExchange
open ByteStream LoggedRun

/-- A consumer with the buffer of its incremental socket. -/
structure IncrementalReader where
  consumer : MarketDataConsumer := {}
  socket : McastSocket := {}

namespace IncrementalReader

/-- `McastSocket::sendAndRecv` of the incremental socket, for the bytes it read. -/
def sendAndRecv (log : Log) (r : IncrementalReader) (data : List UInt8) :
    Except Fault (IncrementalReader × List MEMarketUpdate) := do
  if data = [] then pure (r, [])
  else
    let socket := r.socket.recv data
    log "%:% %() % read socket:% len:%\n" [.text "mcast_socket.cpp", .number 25, .text "sendAndRecv",
      .text r.consumer.timeStr, .number socket.socketFd, .number socket.inboundData.length]
    let (consumer, written) ← r.consumer.recvCallback log false
      ((socket.records MDPMarketUpdate.packed.sizeof).map MDPMarketUpdate.packed.decode)
    pure (⟨consumer, socket.consume MDPMarketUpdate.packed.sizeof⟩, written)

def sendAndRecvAll (log : Log) :
    List (List UInt8) → IncrementalReader → Except Fault (IncrementalReader × List MEMarketUpdate)
  | [], r => pure (r, [])
  | data :: rest, r => do
    let (r, written) ← r.sendAndRecv log data
    let (r, written') ← sendAndRecvAll log rest r
    pure (r, written ++ written')

end IncrementalReader

/-- What the drained updates are to a receiver of the passed bytes and of the snapshot queue. A
consumer that has read any part of the bytes, in any segments, is not in recovery. -/
structure FeedRoundTrip (log : Log) (us : List MEMarketUpdate) (es : List PublisherEvent) : Prop where
  decoded : (frames MDPMarketUpdate.packed.sizeof (passedBytes es)).map MDPMarketUpdate.packed.decode = numbered 0 us
  whole : leftover MDPMarketUpdate.packed.sizeof (passedBytes es) = []
  snapshot : snapshotQueue es = numbered 0 us
  consumed : ∀ segments : List (List UInt8), segments.flatten <+: passedBytes es →
    ∃ r written, IncrementalReader.sendAndRecvAll log segments {} = .ok (r, written) ∧
      r.consumer.inRecovery = false ∧ written <+: us ∧ (segments.flatten = passedBytes es → written = us)

lemma decode_numberedFrames {us : List MEMarketUpdate} (h : ∀ u ∈ us, MEMarketUpdate.packed.Fits u) (n : Nat) :
    (numberedFrames MEMarketUpdate.packed (wrap64 (n + 1)) us).map MDPMarketUpdate.packed.decode = numbered n us := by
  induction us generalizing n with
  | nil => rfl
  | cons u us ih =>
    have hdecode : MDPMarketUpdate.packed.decode ((sizeT.prod MEMarketUpdate.packed).encode (wrap64 (n + 1), u)) =
        ⟨wrap64 (n + 1), u⟩ := MDPMarketUpdate.packed.decode_encode ⟨wrap64 (n + 1), u⟩
      ⟨wrap64_lt_byteRange (n + 1), h u List.mem_cons_self⟩
    rw [numberedFrames, List.map_cons, hdecode, ih fun x hx => h x (List.mem_cons_of_mem u hx), numbered]

namespace MarketDataConsumer

/-- Outside recovery, updates that are numbered on are handed out. -/
lemma recvCallback_numbered {log : Log} (hlog : log.Counts) {c : MarketDataConsumer} (hrecovery : c.inRecovery = false)
    {n : Nat} (hn : c.nextExpIncSeqInc = wrap64 (n + 1)) (us : List MEMarketUpdate) :
    c.recvCallback log false (numbered n us) =
      .ok ({ c with nextExpIncSeqInc := wrap64 (n + us.length + 1) }, us) := by
  induction us generalizing c n with
  | nil =>
    rw [numbered, recvCallback_eq (.inl rfl), recvMessages_nil, List.length_nil, Nat.add_zero, ← hn]
  | cons u us ih =>
    have hforward := recvCallback_forwards hlog hrecovery (m := ⟨wrap64 (n + 1), u⟩) hn.symm
    have hnext : wrap64 (c.nextExpIncSeqInc + 1) = wrap64 (wrap64 (n + 1) + 1) := by rw [hn]
    have hcount : wrap64 (wrap64 (n + 1) + us.length + 1) = wrap64 (n + (u :: us).length + 1) := by
      rw [List.length_cons]
      simp only [wrap64]
      omega
    rw [numbered, recvCallback_cons hlog, hforward, ok_bind]
    simp only [ih (c := { c with nextExpIncSeqInc := wrap64 (c.nextExpIncSeqInc + 1) }) hrecovery hnext, ok_bind,
      pure_eq_ok, hcount, List.singleton_append]

end MarketDataConsumer

namespace IncrementalReader
variable {log : Log} {r : IncrementalReader} {us : List MEMarketUpdate} {received : List UInt8}

/-- A reader that has seen a part of a stream of updates, and no gap. -/
structure Reads (us : List MEMarketUpdate) (received : List UInt8) (r : IncrementalReader) : Prop where
  inSync : r.consumer.inRecovery = false
  buffer : r.socket.inboundData = leftover MDPMarketUpdate.packed.sizeof received
  expected : r.consumer.nextExpIncSeqInc = wrap64 ((arrived MEMarketUpdate.packed us received).length + 1)

lemma reads_create (us : List MEMarketUpdate) : Reads us [] {} :=
  ⟨rfl, rfl, by simp [arrived, wrap64]⟩

lemma Reads.sendAndRecv (hlog : log.Counts) (hus : ∀ u ∈ us, MEMarketUpdate.packed.Fits u)
    (h : Reads us received r) {data : List UInt8}
    (hstream : received ++ data <+: numberedStream MEMarketUpdate.packed 1 us) :
    ∃ r' written, r.sendAndRecv log data = .ok (r', written) ∧ Reads us (received ++ data) r' ∧
      arrived MEMarketUpdate.packed us received ++ written = arrived MEMarketUpdate.packed us (received ++ data) := by
  by_cases hempty : data = []
  · refine ⟨r, [], by rw [IncrementalReader.sendAndRecv, if_pos hempty, pure_eq_ok], ?_, ?_⟩
    · rwa [hempty, List.append_nil]
    · rw [hempty, List.append_nil, List.append_nil]
  obtain ⟨next, harrived, hframes⟩ := frames_next 1 hstream
  have hnext : ∀ u ∈ next, MEMarketUpdate.packed.Fits u := by
    intro u hu
    have hmem : u ∈ arrived MEMarketUpdate.packed us (received ++ data) := by
      rw [harrived]
      exact List.mem_append_right _ hu
    exact hus u (List.mem_of_mem_take hmem)
  have hmessages : ((r.socket.recv data).records MDPMarketUpdate.packed.sizeof).map MDPMarketUpdate.packed.decode =
      numbered (arrived MEMarketUpdate.packed us received).length next := by
    rw [← decode_numberedFrames hnext, Nat.add_comm, ← hframes]
    unfold McastSocket.records McastSocket.recv
    rw [h.buffer]
    rfl
  have hcallback := MarketDataConsumer.recvCallback_numbered hlog h.inSync h.expected next
  have hsend : r.sendAndRecv log data = .ok (⟨{ r.consumer with
      nextExpIncSeqInc := wrap64 ((arrived MEMarketUpdate.packed us received).length + next.length + 1) },
      (r.socket.recv data).consume MDPMarketUpdate.packed.sizeof⟩, next) := by
    unfold IncrementalReader.sendAndRecv
    rw [if_neg hempty]
    dsimp only
    rw [hlog _ _ rfl, ok_bind, hmessages, hcallback, ok_bind]
    rfl
  refine ⟨_, next, hsend, ⟨h.inSync, ?_, ?_⟩, harrived.symm⟩
  · unfold McastSocket.consume McastSocket.recv
    rw [h.buffer]
    exact (frames_append (by decide) _ _).2.symm
  · rw [harrived, List.length_append]

lemma Reads.sendAndRecvAll (hlog : log.Counts) (hus : ∀ u ∈ us, MEMarketUpdate.packed.Fits u)
    {segments : List (List UInt8)} (h : Reads us received r)
    (hstream : received ++ segments.flatten <+: numberedStream MEMarketUpdate.packed 1 us) :
    ∃ r' written, IncrementalReader.sendAndRecvAll log segments r = .ok (r', written) ∧
      Reads us (received ++ segments.flatten) r' ∧
      arrived MEMarketUpdate.packed us received ++ written =
        arrived MEMarketUpdate.packed us (received ++ segments.flatten) := by
  induction segments generalizing r received with
  | nil =>
    rw [List.flatten_nil, List.append_nil]
    exact ⟨r, [], rfl, h, List.append_nil _⟩
  | cons data segments ih =>
    rw [List.flatten_cons, ← List.append_assoc] at hstream ⊢
    obtain ⟨r₁, first, hfirst, hreads, hwritten⟩ := h.sendAndRecv hlog hus ((List.prefix_append _ _).trans hstream)
    obtain ⟨r₂, rest, hrest, hreads', hwritten'⟩ := ih hreads hstream
    refine ⟨r₂, first ++ rest, ?_, hreads', ?_⟩
    · simp only [IncrementalReader.sendAndRecvAll, hfirst, hrest, ok_bind, pure_eq_ok]
    · rw [← hwritten', ← hwritten, List.append_assoc]

end IncrementalReader

/-- The updates make the round trip just when, for each of them, the bytes of the publisher's
pointer and of the stack behind it are those of the update. -/
theorem incremental_feed {log : Log} (hlog : log.Counts) {actions : List PublisherAction} {p : MarketDataPublisher}
    {es : List PublisherEvent} (hrun : execute (MarketDataPublisher.step log) {} actions = .ok (p, es))
    (hfits : ∀ d ∈ drained actions, MEMarketUpdate.packed.Fits d.2) :
    FeedRoundTrip log ((drained actions).map Prod.snd) es ↔
      ∀ d ∈ drained actions, d.1.bytes = MEMarketUpdate.packed.encode d.2 := by
  obtain ⟨hpassed, hsnapshot⟩ := MarketDataPublisher.execute_eq (n := 0) rfl hrun
  have hseen : ∀ u ∈ (drained actions).map fun d => d.1.seen, MEMarketUpdate.packed.Fits u := by
    intro u hu
    obtain ⟨d, -, rfl⟩ := List.mem_map.mp hu
    exact d.1.fits_seen
  have hdecoded : (frames MDPMarketUpdate.packed.sizeof (passedBytes es)).map MDPMarketUpdate.packed.decode =
      numbered 0 ((drained actions).map fun d => d.1.seen) := by
    have hframes := frames_received (List.prefix_refl (numberedStream MEMarketUpdate.packed 1
      ((drained actions).map fun d => d.1.seen)))
    rw [arrived_all.1] at hframes
    rw [← decode_numberedFrames hseen, hpassed]
    exact congrArg _ hframes
  have hwhole : leftover MDPMarketUpdate.packed.sizeof (passedBytes es) = [] := by
    rw [hpassed]
    exact arrived_all.2
  constructor
  · intro h d hd
    have hnumbered := congrArg (List.map MDPMarketUpdate.meMarketUpdate) (hdecoded.symm.trans h.decoded)
    rw [meMarketUpdate_numbered, meMarketUpdate_numbered] at hnumbered
    exact (d.1.seen_eq_iff (hfits d hd)).mp (List.map_inj_left.mp hnumbered d hd)
  · intro h
    have hsame : ((drained actions).map fun d => d.1.seen) = (drained actions).map Prod.snd :=
      List.map_congr_left fun d hd => (d.1.seen_eq_iff (hfits d hd)).mpr (h d hd)
    rw [hsame] at hdecoded hpassed hseen
    refine ⟨hdecoded, hwhole, hsnapshot, fun segments hsegments => ?_⟩
    rw [hpassed] at hsegments
    obtain ⟨r, written, hrun, hreads, hwritten⟩ :=
      (IncrementalReader.reads_create ((drained actions).map Prod.snd)).sendAndRecvAll hlog hseen hsegments
    rw [List.nil_append] at hwritten
    have hlist : written = arrived MEMarketUpdate.packed ((drained actions).map Prod.snd) segments.flatten := hwritten
    refine ⟨r, written, hrun, hreads.inSync, ?_, fun hall => ?_⟩
    · rw [hlist]
      exact List.take_prefix _ _
    · rw [hlist, hall, hpassed]
      exact arrived_all.1

/-- A pointer to a slot of the queue, with zeros behind it on the stack. -/
def frameOfZeros (slot : Nat) : StackFrame := ⟨139897184718882 + 34 * slot, List.replicate 26 0, rfl⟩

/-- Two frames that are updates by chance, flushed one by one. -/
def coincidences : List PublisherAction :=
  [.publish (frameOfZeros 0) (frameOfZeros 0).seen, .sendAndRecv 42, .publish (frameOfZeros 1) (frameOfZeros 1).seen,
    .sendAndRecv 42]

theorem incremental_feed_coincidence : ∃ p es,
    execute (MarketDataPublisher.step Logger.log) {} coincidences = .ok (p, es) ∧
      FeedRoundTrip Logger.log [(frameOfZeros 0).seen, (frameOfZeros 1).seen] es := by
  have hreturns : ∃ p es, execute (MarketDataPublisher.step Logger.log) {} coincidences = .ok (p, es) :=
    MarketDataPublisher.execute_returns Logger.counts_log (by decide)
  obtain ⟨p, es, hrun⟩ := hreturns
  have hdrained : ∀ d ∈ drained coincidences, ∃ slot, d = (frameOfZeros slot, (frameOfZeros slot).seen) := by
    intro d hd
    rcases List.mem_cons.mp hd with rfl | hd
    · exact ⟨0, rfl⟩
    · exact ⟨1, List.mem_singleton.mp hd⟩
  refine ⟨p, es, hrun, (incremental_feed Logger.counts_log hrun fun d hd => ?_).mpr fun d hd => ?_⟩
  · obtain ⟨slot, rfl⟩ := hdrained d hd
    exact (frameOfZeros slot).fits_seen
  · obtain ⟨slot, rfl⟩ := hdrained d hd
    exact (frameOfZeros slot).encode_seen.symm

/-- The first order of a day goes out as an address. -/
theorem incremental_feed_fails : ∃ p es,
    execute (MarketDataPublisher.step Logger.log) {}
      [.publish (frameOfZeros 0) ⟨.add, 1, 0, .buy, 100, 5, 1⟩] = .ok (p, es) ∧
      MEMarketUpdate.packed.Fits ⟨.add, 1, 0, .buy, 100, 5, 1⟩ ∧
      ¬FeedRoundTrip Logger.log [⟨.add, 1, 0, .buy, 100, 5, 1⟩] es := by
  have hstep : MarketDataPublisher.step Logger.log {} (.publish (frameOfZeros 0) ⟨.add, 1, 0, .buy, 100, 5, 1⟩) = .ok _ :=
    MarketDataPublisher.publish_eq Logger.counts_log (frameOfZeros 0) ⟨.add, 1, 0, .buy, 100, 5, 1⟩ (by decide)
  have hrun := execute_cons hstep (execute_nil _)
  have horder : 1 < byteRange 8 := by decide
  have hticker : 0 < byteRange 4 := by decide
  have hprice : 100 < byteRange 8 := by decide
  have hqty : 5 < byteRange 4 := by decide
  refine ⟨_, _, hrun, ⟨rfl, horder, hticker, rfl, hprice, hqty, horder⟩, fun h => ?_⟩
  have hdecoded := h.decoded
  revert hdecoded
  decide +kernel

end LowLatencyExchange
