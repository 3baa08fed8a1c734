import LowLatencyExchange.MarketData.MarketDataFeed

/-!
# Snapshots are consistent cuts

However the three threads take turns, the synthesizer has taken in an initial part of the engine's
updates, numbered from 1, and every snapshot is the map that this part leads to.
-/

namespace LowLatencyExchange
open LoggedRun TwinStreams

/-- The engine's updates on their way. `taken` have reached the synthesizer, `pending` wait in
`snapshot_md_updates_`, and the others are still before the publisher. -/
structure Flowing (run : List (FeedAction × List FeedEvent)) (s : MarketDataFeed)
    (taken pending : List MEMarketUpdate) : Prop where
  paired : s.streams.Paired (streamEvents run) (taken ++ pending)
  sent : sentUpdates run = written (streamEvents run) ++ s.unsent
  noClear : ∀ u ∈ sentUpdates run, u.type ≠ .clear
  ring : s.snapshotMdUpdates.Sound ME_MAX_MARKET_UPDATES
  unread : s.snapshotMdUpdates.unread = numbered taken.length pending
  added : addedMessages run = numbered 0 taken
  after : SnapshotSynthesizer.After taken s.snapshotSynthesizer
  wellFormed : s.snapshotSynthesizer.WellFormed
  held : s.snapshotSynthesizer.held = OrderMap.empty.applyAll taken
  last : s.snapshotSynthesizer.lastIncSeqNum = wrap64 taken.length

variable {log : Log} {run : List (FeedAction × List FeedEvent)} {s s' : MarketDataFeed}
  {taken pending : List MEMarketUpdate} {es : List FeedEvent}

lemma flowing_create : Flowing [] MarketDataFeed.create [] [] where
  paired := paired_create
  sent := rfl
  noClear := fun u hu => absurd hu List.not_mem_nil
  ring := LFQueue.sound_create (T := MDPMarketUpdate) {} (by decide)
  unread := rfl
  added := rfl
  after := rfl
  wellFormed := SnapshotSynthesizer.wellFormed_create
  held := SnapshotSynthesizer.held_create
  last := rfl

/-- What the synthesizer has taken in is an initial part of what the engine has sent. -/
lemma Flowing.sent_eq (h : Flowing run s taken pending) : sentUpdates run =
    taken ++ (pending ++ s.streams.releasedSlot ++ s.streams.outgoingMdUpdates.unread ++ s.unsent) := by
  rw [h.sent, h.paired.writes]
  simp only [List.append_assoc]

/-- The next update of the day. -/
lemma SnapshotSynthesizer.After.concat {us : List MEMarketUpdate} {u : MEMarketUpdate} {t t' : SnapshotSynthesizer}
    (h : After us t) (hadd : t.addToSnapshot ⟨wrap64 (us.length + 1), u⟩ = .ok t') : After (us ++ [u]) t' := by
  have hafter : create.addAllToSnapshot (numbered 0 us) = .ok t := h
  unfold After
  unfold addAllToSnapshot at hafter ⊢
  rw [numbered_concat, List.foldlM_append, hafter, ok_bind]
  simp [hadd]

/-- A step of the publisher copies what it is done with. -/
lemma TwinStreams.Paired.copied_eq {t t' : TwinStreams} {past new : List StreamEvent} {done done' : List MEMarketUpdate}
    (h : t.Paired past done) (h' : t'.Paired (past ++ new) done') :
    ∃ more, done' = done ++ more ∧ copied new = numbered done.length more := by
  have hcopies := h'.copies
  rw [copied_append, h.copies] at hcopies
  have hdone : done' = done ++ (copied new).map MDPMarketUpdate.meMarketUpdate := by
    rw [← meMarketUpdate_numbered 0 done', ← hcopies, List.map_append, meMarketUpdate_numbered]
  refine ⟨(copied new).map MDPMarketUpdate.meMarketUpdate, hdone, ?_⟩
  rw [hdone, numbered_append, Nat.zero_add] at hcopies
  exact List.append_cancel_left hcopies

/-- The publisher writes no update. It copies one when it has given up a slot, and none before. -/
lemma publisher_events {t t' : TwinStreams} {new : List StreamEvent} (hrun : t.step .publisher = .ok (t', new)) :
    written new = [] ∧
      (copied new = [] ∨ ((∃ slot, t.publisher = .released slot) ∧ ∃ message, copied new = [message])) := by
  cases hpublisher : t.publisher with
  | idle =>
    simp only [TwinStreams.step, hpublisher] at hrun
    split at hrun <;> cases hrun <;> exact ⟨rfl, .inl rfl⟩
  | found slot =>
    simp only [TwinStreams.step, hpublisher] at hrun
    cases hrun
    exact ⟨rfl, .inl rfl⟩
  | sent slot =>
    simp only [TwinStreams.step, hpublisher] at hrun
    obtain ⟨ring, -, hrun⟩ := bind_eq_ok hrun
    cases hrun
    exact ⟨rfl, .inl rfl⟩
  | released slot =>
    simp only [TwinStreams.step, hpublisher] at hrun
    cases hrun
    exact ⟨rfl, .inr ⟨⟨slot, rfl⟩, _, rfl⟩⟩

lemma stream?_map (new : List StreamEvent) : (new.map FeedEvent.stream).filterMap FeedEvent.stream? = new := by
  induction new with
  | nil => rfl
  | cons e new ih => exact congrArg (e :: ·) ih

lemma added?_map (new : List StreamEvent) : (new.map FeedEvent.stream).filterMap FeedEvent.added? = [] := by
  induction new with
  | nil => rfl
  | cons e new ih => exact ih

/-- Nothing is sent, written, copied or taken in. -/
lemma Flowing.quiet (h : Flowing run s taken pending) (a : FeedAction) (hsent : es.flatMap FeedEvent.processed? = [])
    (hstream : es.filterMap FeedEvent.stream? = []) (hadded : es.filterMap FeedEvent.added? = []) :
    Flowing (run ++ [(a, es)]) s taken pending := by
  have hsent' : sentUpdates (run ++ [(a, es)]) = sentUpdates run := by
    rw [sentUpdates_concat, hsent, List.append_nil]
  have hstream' : streamEvents (run ++ [(a, es)]) = streamEvents run := by
    rw [streamEvents_concat, hstream, List.append_nil]
  have hadded' : addedMessages (run ++ [(a, es)]) = addedMessages run := by
    rw [addedMessages_concat, hadded, List.append_nil]
  exact ⟨hstream' ▸ h.paired, by rw [hsent', hstream', h.sent], hsent' ▸ h.noClear, h.ring, h.unread,
    hadded'.trans h.added, h.after, h.wellFormed, h.held, h.last⟩

lemma Flowing.processRequest (h : Flowing run s taken pending) {r : MEClientRequest}
    (hrun : s.step log (.processRequest r) = .ok (s', es)) :
    Flowing (run ++ [(.processRequest r, es)]) s' taken pending := by
  simp only [MarketDataFeed.step] at hrun
  split at hrun
  · rename_i hunsent
    obtain ⟨⟨engine, messages⟩, hengine, hrun⟩ := bind_eq_ok hrun
    cases hrun
    obtain ⟨call, orderBook, -, hcall, hbook, -⟩ := MatchingEngine.processNext_cases hengine
    have hsent : sentUpdates (run ++ [(.processRequest r, [.processed r (updates messages)])]) =
        sentUpdates run ++ updates messages := by
      simp [sentUpdates_concat, FeedEvent.processed?]
    have hstream : streamEvents (run ++ [(.processRequest r, [.processed r (updates messages)])]) =
        streamEvents run := by
      simp [streamEvents_concat, FeedEvent.stream?]
    have hadded : addedMessages (run ++ [(.processRequest r, [.processed r (updates messages)])]) =
        addedMessages run := by
      simp [addedMessages_concat, FeedEvent.added?]
    refine ⟨?_, ?_, fun u hu => ?_, h.ring, h.unread, hadded.trans h.added, h.after, h.wellFormed, h.held, h.last⟩
    · rw [hstream]
      exact h.paired
    · rw [hsent, hstream, h.sent, hunsent, List.append_nil]
    · rw [hsent] at hu
      rcases List.mem_append.mp hu with hu | hu
      · exact h.noClear u hu
      · exact (MEOrderBook.call_about hcall hbook u hu).2
  · cases hrun
    exact h.quiet _ rfl rfl rfl

lemma Flowing.sendMarketUpdate (h : Flowing run s taken pending) (hpaced : s.Paced .sendMarketUpdate)
    (hrun : s.step log .sendMarketUpdate = .ok (s', es)) :
    Flowing (run ++ [(.sendMarketUpdate, es)]) s' taken pending := by
  simp only [MarketDataFeed.step] at hrun
  split at hrun
  · cases hrun
    exact h.quiet _ rfl rfl rfl
  · rename_i u rest hunsent
    cases hrun
    obtain ⟨hroom, hrewrites⟩ := hpaced u (by rw [hunsent]; rfl)
    have hsent : sentUpdates (run ++ [(.sendMarketUpdate, [.stream (.written u)])]) = sentUpdates run := by
      simp [sentUpdates_concat, FeedEvent.processed?]
    have hstream : streamEvents (run ++ [(.sendMarketUpdate, [.stream (.written u)])]) =
        streamEvents run ++ [.written u] := by
      simp [streamEvents_concat, FeedEvent.stream?]
    have hadded : addedMessages (run ++ [(.sendMarketUpdate, [.stream (.written u)])]) = addedMessages run := by
      simp [addedMessages_concat, FeedEvent.added?]
    refine ⟨?_, ?_, ?_, h.ring, h.unread, hadded.trans h.added, h.after, h.wellFormed, h.held, h.last⟩
    · rw [hstream]
      exact h.paired.write hrewrites hroom
    · rw [hsent, hstream, h.sent, hunsent, written_append]
      exact (List.append_assoc _ [u] rest).symm
    · rw [hsent]
      exact h.noClear

/-- The publisher takes its next step. What it copies waits for the synthesizer. -/
lemma Flowing.publisher (h : Flowing run s taken pending) (hpaced : s.Paced .publisher)
    (hrun : s.step log .publisher = .ok (s', es)) :
    ∃ more, Flowing (run ++ [(.publisher, es)]) s' taken (pending ++ more) := by
  obtain ⟨n, -, hrun⟩ := bind_eq_ok hrun
  obtain ⟨⟨streams, new⟩, hstep, hrun⟩ := bind_eq_ok hrun
  cases hrun
  obtain ⟨done, hpaired⟩ := h.paired.publisher hstep
  obtain ⟨more, rfl, hcopied⟩ := h.paired.copied_eq hpaired
  obtain ⟨hwritten, hcopies⟩ := publisher_events hstep
  have hsent : sentUpdates (run ++ [(.publisher, new.map .stream)]) = sentUpdates run := by
    rw [sentUpdates_concat, processed?_map, List.append_nil]
  have hstream : streamEvents (run ++ [(.publisher, new.map .stream)]) = streamEvents run ++ new := by
    rw [streamEvents_concat, stream?_map]
  have hadded : addedMessages (run ++ [(.publisher, new.map .stream)]) = addedMessages run := by
    rw [addedMessages_concat, added?_map, List.append_nil]
  have hring : ((copied new).foldl LFQueue.write s.snapshotMdUpdates).Sound ME_MAX_MARKET_UPDATES ∧
      ((copied new).foldl LFQueue.write s.snapshotMdUpdates).unread = s.snapshotMdUpdates.unread ++ copied new := by
    rcases hcopies with hnone | ⟨hreleased, message, hone⟩
    · rw [hnone, List.foldl_nil, List.append_nil]
      exact ⟨h.ring, rfl⟩
    · obtain ⟨hsound, -, hunread⟩ := h.ring.write (by decide) (hpaced hreleased) message
      rw [hone]
      exact ⟨hsound, hunread⟩
  refine ⟨more, ?_, ?_, hsent ▸ h.noClear, hring.1, ?_, hadded.trans h.added, h.after, h.wellFormed, h.held, h.last⟩
  · rw [hstream, ← List.append_assoc]
    exact hpaired
  · rw [hsent, hstream, h.sent, written_append, hwritten, List.append_nil]
  · rw [hring.2, h.unread, hcopied, numbered_append, List.length_append]

/-- The synthesizer takes in the next message. -/
lemma Flowing.addToSnapshot (h : Flowing run s taken pending) (hrun : s.step log .addToSnapshot = .ok (s', es)) :
    ∃ taken' pending', Flowing (run ++ [(.addToSnapshot, es)]) s' taken' pending' := by
  simp only [MarketDataFeed.step] at hrun
  unfold LFQueue.getNextToRead at hrun
  by_cases hne : s.snapshotMdUpdates.numElements ≠ 0
  · obtain ⟨ring, hupdate, hsound, -, -, -, hunread⟩ := h.ring.updateReadIndex (by decide) hne
    rw [if_pos hne] at hrun
    dsimp only at hrun
    obtain ⟨synthesizer, hadd, hrun⟩ := bind_eq_ok hrun
    rw [hupdate, ok_bind] at hrun
    cases hrun
    rw [h.unread] at hunread
    cases pending with
    | nil => cases hunread
    | cons u pending =>
      rw [numbered] at hunread
      obtain ⟨hmessage, hrest⟩ := List.cons.inj hunread
      rw [← hmessage] at hadd ⊢
      obtain ⟨hwf, hlast, hheld⟩ := SnapshotSynthesizer.addToSnapshot_cases h.wellFormed hadd
      have hsent : sentUpdates (run ++ [(.addToSnapshot, [.added ⟨wrap64 (taken.length + 1), u⟩])]) =
          sentUpdates run := by
        simp [sentUpdates_concat, FeedEvent.processed?]
      have hstream : streamEvents (run ++ [(.addToSnapshot, [.added ⟨wrap64 (taken.length + 1), u⟩])]) =
          streamEvents run := by
        simp [streamEvents_concat, FeedEvent.stream?]
      have hadded : addedMessages (run ++ [(.addToSnapshot, [.added ⟨wrap64 (taken.length + 1), u⟩])]) =
          addedMessages run ++ [⟨wrap64 (taken.length + 1), u⟩] := by
        simp [addedMessages_concat, FeedEvent.added?]
      have hmem : u ∈ sentUpdates run := by
        rw [h.sent_eq]
        simp
      refine ⟨taken ++ [u], pending, ?_, ?_, hsent ▸ h.noClear, hsound, ?_, ?_, ?_, hwf, ?_, ?_⟩
      · rw [hstream, List.append_assoc]
        exact h.paired
      · rw [hsent, hstream, h.sent]
      · rw [← hrest, List.length_append]
        exact numbered_congr (wrap64_succ (taken.length + 1)) pending
      · rw [hadded, h.added, numbered_concat]
      · exact h.after.concat hadd
      · rw [hheld, if_neg (h.noClear u hmem), h.held, OrderMap.applyAll_append]
        rfl
      · rw [hlast, h.last, wrap64_succ, List.length_append]
        rfl
  · rw [if_neg hne] at hrun
    cases hrun
    exact ⟨taken, pending, h.quiet _ rfl rfl rfl⟩

/-- In every interleaving without overruns, the updates flow. -/
theorem FeedRun.flowing (h : FeedRun log run s) : ∃ taken pending, Flowing run s taken pending := by
  apply Reached.invariant h (fun run s => ∃ taken pending, Flowing run s taken pending) ⟨[], [], flowing_create⟩
  intro run s a s' es hflowing hpaced hrun
  obtain ⟨taken, pending, hflowing⟩ := hflowing
  cases a with
  | processRequest r => exact ⟨taken, pending, hflowing.processRequest hrun⟩
  | sendMarketUpdate => exact ⟨taken, pending, hflowing.sendMarketUpdate hpaced hrun⟩
  | publisher =>
    obtain ⟨more, hflowing⟩ := hflowing.publisher hpaced hrun
    exact ⟨taken, pending ++ more, hflowing⟩
  | addToSnapshot => exact hflowing.addToSnapshot hrun
  | publishSnapshot =>
    cases hrun
    exact ⟨taken, pending, hflowing.quiet _ rfl rfl rfl⟩

/-- The messages of the snapshot after `n` updates, as they are numbered. -/
def OrderMap.snapshotMessages (m : OrderMap) (n : Nat) : List MDPMarketUpdate :=
  (m.snapshot n).zipIdx.map fun p => ⟨p.2, p.1⟩

/-- What the synthesizer had taken in when it published a snapshot. -/
lemma FeedRun.published (h : FeedRun log run s) {past future : List (FeedAction × List FeedEvent)}
    {messages : List MDPMarketUpdate} (hrun : run = past ++ (.publishSnapshot, [.snapshot messages]) :: future) :
    ∃ taken later, sentUpdates run = taken ++ later ∧ taken <+: written (streamEvents past) ∧
      written (streamEvents past) <+: sentUpdates run ∧ addedMessages past = numbered 0 taken ∧
      (OrderMap.empty.applyAll taken).Proper ∧
      messages = (OrderMap.empty.applyAll taken).snapshotMessages (wrap64 taken.length) := by
  obtain ⟨s₁, s₂, hpast, -, hstep⟩ := h.entry hrun
  obtain ⟨taken, pending, hflowing⟩ := FeedRun.flowing hpast
  cases hstep
  have hall : sentUpdates run = sentUpdates past ++ sentUpdates future := by
    rw [hrun]
    simp [sentUpdates, LoggedRun.sent, FeedEvent.processed?]
  rw [hflowing.sent_eq, List.append_assoc] at hall
  refine ⟨taken, _, hall, ?_, ?_, hflowing.added, ?_, ?_⟩
  · rw [hflowing.paired.writes, List.append_assoc, List.append_assoc]
    exact List.prefix_append _ _
  · rw [hall, ← List.append_assoc, ← hflowing.sent_eq, hflowing.sent, List.append_assoc]
    exact List.prefix_append _ _
  · rw [← hflowing.held]
    exact hflowing.wellFormed.proper
  · rw [← hflowing.held, ← hflowing.last]
    exact SnapshotSynthesizer.publishSnapshot_eq _

/-- Every snapshot is published after a number `n` of updates: the synthesizer has taken in the first
`n` that the engine ever sends, numbered 1 to `n`, and the snapshot tells where they lead. All of them
were written by then, and none is lost, repeated or out of its turn. -/
theorem consistent_snapshots (h : FeedRun log run s) {past future : List (FeedAction × List FeedEvent)}
    {messages : List MDPMarketUpdate} (hrun : run = past ++ (.publishSnapshot, [.snapshot messages]) :: future) :
    ∃ n, (sentUpdates run).take n <+: written (streamEvents past) ∧
      written (streamEvents past) <+: sentUpdates run ∧
      addedMessages past = numbered 0 ((sentUpdates run).take n) ∧
      messages = (OrderMap.empty.applyAll ((sentUpdates run).take n)).snapshotMessages (wrap64 n) := by
  obtain ⟨taken, later, hall, htaken, hwritten, hadded, -, hmessages⟩ := h.published hrun
  refine ⟨taken.length, ?_⟩
  rw [hall, List.take_left, ← hall]
  exact ⟨htaken, hwritten, hadded, hmessages⟩

section TradedFeed
open MEOrderBook

/-- The price has a slot to itself, and its level does not tear the ladder. -/
lemma settles_of_free {b : MEOrderBook} {side : Side} {price : Price} (hslot : b.book.getOrdersAtPrice price = none)
    (htears : ¬b.book.TearsAt side price (b.book.ladder side)) : b.Settles side price where
  ownSlot := fun p hp => absurd (hslot.symm.trans hp) (by simp)
  ownLadder := fun _ => htears

/-- A bid reaches the synthesizer, which publishes a snapshot. Then an ask follows for another ticker, and an order
that takes the bid. The publisher finds the ask. -/
lemma feedRun_traded : ∃ run past future messages s,
    FittingFeedRun Logger.log run s ∧ run = past ++ (.publishSnapshot, [.snapshot messages]) :: future ∧
      (addedMessages past).length = 1 ∧ (sentUpdates run).map (fun u => (u.tickerId, u.type)) =
        [(0, .add), (1, .add), (0, .trade), (0, .cancel), (0, .add)] ∧
      s.streams.publisher = .found 1 ∧ s.nextSendValidIndex = 42 ∧ s.unsent.length = 3 ∧
      s.streams.outgoingMdUpdates.numElements = 1 ∧ s.snapshotMdUpdates.numElements = 0 := by
  have hroom : 0 < ME_MAX_MARKET_UPDATES := by decide
  have hbuy := FittingFeedRun.request .start (r := buyRequest) rfl (by decide) rfl rfl (fun _ =>
    settles_of_free rfl (by decide)) (by decide) (by decide)
  have hsent := hbuy.concat .sendMarketUpdate rfl (fun _ _ => ⟨hroom, fun hrewrites => by
    obtain ⟨slot, hslot, -⟩ := hrewrites
    cases hslot⟩) trivial trivial
  have hfound := hsent.concat .publisher rfl (fun _ => hroom) trivial trivial
  have hqueued := hfound.concat .publisher rfl (fun _ => hroom) trivial trivial
  have hreleased := hqueued.concat .publisher rfl (fun _ => hroom) trivial trivial
  have hcopied := hreleased.concat .publisher rfl (fun _ => hroom) trivial trivial
  have hadded := hcopied.concat .addToSnapshot rfl trivial trivial trivial
  have hsnapshot := hadded.concat .publishSnapshot rfl trivial trivial trivial
  have hask := hsnapshot.request (r := askRequest) rfl (by decide) rfl rfl (fun _ =>
    settles_of_free rfl (by decide)) (by decide) (by decide)
  have hasked := hask.concat .sendMarketUpdate rfl (fun _ _ => ⟨hroom, fun hrewrites => by
    obtain ⟨slot, hslot, -⟩ := hrewrites
    cases hslot⟩) trivial trivial
  have hhit := hasked.request (r := hitRequest) rfl (by decide) rfl rfl (fun _ =>
    settles_of_free rfl (by decide)) (by decide) (by decide)
  have hlast := hhit.concat .publisher rfl (fun _ => hroom) trivial trivial
  have hlist : ∀ (past : List (FeedAction × List FeedEvent)) e₁ e₂ e₃ e₄ e₅,
      past ++ [e₁] ++ [e₂] ++ [e₃] ++ [e₄] ++ [e₅] = past ++ e₁ :: [e₂, e₃, e₄, e₅] := fun _ _ _ _ _ _ => by simp
  refine ⟨_, _, _, _, _, hlast, hlist _ _ _ _ _ _, ?_, ?_, ?_⟩
  · rfl
  · rfl
  · decide

end TradedFeed

/-- The snapshot tells of the bid, four updates before the last. -/
theorem consistent_snapshots_traded : ∃ run past future messages s,
    FeedRun Logger.log run s ∧ run = past ++ (.publishSnapshot, [.snapshot messages]) :: future ∧
      (addedMessages past).length = 1 ∧ (sentUpdates run).map (fun u => (u.tickerId, u.type)) =
        [(0, .add), (1, .add), (0, .trade), (0, .cancel), (0, .add)] ∧
      ∃ n, (sentUpdates run).take n <+: written (streamEvents past) ∧
        written (streamEvents past) <+: sentUpdates run ∧
        addedMessages past = numbered 0 ((sentUpdates run).take n) ∧
        messages = (OrderMap.empty.applyAll ((sentUpdates run).take n)).snapshotMessages (wrap64 n) := by
  obtain ⟨run, past, future, messages, s, h, hrun, hadded, hsent, -⟩ := feedRun_traded
  exact ⟨run, past, future, messages, s, h.orderly.feedRun, hrun, hadded, hsent,
    consistent_snapshots h.orderly.feedRun hrun⟩

end LowLatencyExchange
