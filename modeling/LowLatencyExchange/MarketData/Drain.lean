import LowLatencyExchange.MarketData.ConsistentCut

/-!
# The feed drains

As long as the books stay intact and the synthesizer has a place for every order, no thread behind the
engine stops but a publisher whose socket is full. Without further requests, and with room in the socket,
the rings run empty after a number of moves that does not depend on whose turn it is, and the synthesizer
then has the resting orders of all books.
-/

namespace LowLatencyExchange
open LoggedRun TwinStreams

/-- The steps that the updates in `outgoing_md_updates_` are away from the synthesizer. Each takes four
of the publisher and one of the synthesizer. -/
def TwinStreams.ahead (t : TwinStreams) : Nat :=
  match t.publisher with
  | .idle => 5 * t.outgoingMdUpdates.numElements
  | .found _ => 5 * t.outgoingMdUpdates.numElements - 1
  | .sent _ => 5 * t.outgoingMdUpdates.numElements - 2
  | .released _ => 5 * t.outgoingMdUpdates.numElements + 2

/-- The updates in `outgoing_md_updates_` that are not in `incremental_socket_` yet. -/
def TwinStreams.unqueued (t : TwinStreams) : Nat :=
  match t.publisher with
  | .idle | .found _ | .released _ => t.outgoingMdUpdates.numElements
  | .sent _ => t.outgoingMdUpdates.numElements - 1

namespace MarketDataFeed

/-- The steps that all updates together are away from the synthesizer. -/
def ahead (s : MarketDataFeed) : Nat :=
  6 * s.unsent.length + s.streams.ahead + s.snapshotMdUpdates.numElements

/-- The turns that bring an update closer to the synthesizer. -/
def Moves (s : MarketDataFeed) : FeedAction → Prop
  | .sendMarketUpdate => s.unsent ≠ []
  | .publisher => s.streams.publisher ≠ .idle ∨ s.streams.outgoingMdUpdates.numElements ≠ 0
  | .addToSnapshot => s.snapshotMdUpdates.numElements ≠ 0
  | .processRequest _ | .publishSnapshot => False

instance (s : MarketDataFeed) (a : FeedAction) : Decidable (s.Moves a) :=
  match a with
  | .sendMarketUpdate => inferInstanceAs (Decidable (s.unsent ≠ []))
  | .publisher =>
    inferInstanceAs (Decidable (s.streams.publisher ≠ .idle ∨ s.streams.outgoingMdUpdates.numElements ≠ 0))
  | .addToSnapshot => inferInstanceAs (Decidable (s.snapshotMdUpdates.numElements ≠ 0))
  | .processRequest _ | .publishSnapshot => inferInstanceAs (Decidable False)

/-- The engine gets through a request, and the socket takes the update that the publisher has found. The
other turns always go through. -/
def Takes (s : MarketDataFeed) : FeedAction → Prop
  | .processRequest request => s.unsent = [] → s.matchingEngine.Takes request
  | .publisher => ∀ slot, s.streams.publisher = .found slot → s.nextSendValidIndex + messageSize < McastBufferSize
  | .sendMarketUpdate | .addToSnapshot | .publishSnapshot => True

/-- `incremental_socket_` has room for all updates on their way, even if it is never flushed. -/
def Roomy (s : MarketDataFeed) : Prop :=
  s.nextSendValidIndex + messageSize * (s.unsent.length + s.streams.unqueued) < McastBufferSize

end MarketDataFeed

variable {log : Log} {run more : List (FeedAction × List FeedEvent)} {s s' : MarketDataFeed} {es : List FeedEvent}
  {taken pending : List MEMarketUpdate} {a : FeedAction}

lemma OrderMap.AcceptsAll.at {m : OrderMap} {us vs : List MEMarketUpdate} {u : MEMarketUpdate}
    (h : m.AcceptsAll (us ++ u :: vs)) : (m.applyAll us).Accepts u := by
  induction us generalizing m with
  | nil => exact h.1
  | cons v us ih =>
    rw [applyAll_cons]
    exact ih h.2

/-- Nothing but the socket stops the publisher. -/
lemma TwinStreams.Paired.publisher_returns {t : TwinStreams} {past : List StreamEvent} {done : List MEMarketUpdate}
    (h : t.Paired past done) : ∃ t' new, t.step .publisher = .ok (t', new) := by
  cases hpublisher : t.publisher with
  | idle =>
    simp only [TwinStreams.step, hpublisher]
    split
    · exact ⟨_, _, rfl⟩
    · exact ⟨_, _, rfl⟩
  | found slot =>
    simp only [TwinStreams.step, hpublisher]
    exact ⟨_, _, rfl⟩
  | sent slot =>
    have hatSlot := h.atSlot
    simp only [AtSlot, hpublisher] at hatSlot
    obtain ⟨ring, hupdate, -⟩ := h.ring.updateReadIndex (by decide) hatSlot.2
    simp only [TwinStreams.step, hpublisher, hupdate, ok_bind]
    exact ⟨_, _, rfl⟩
  | released slot =>
    simp only [TwinStreams.step, hpublisher]
    exact ⟨_, _, rfl⟩

/-- The synthesizer takes in the next message. -/
lemma Flowing.addToSnapshot_returns (h : Flowing run s taken pending) (hfitting : Fitting run s) :
    ∃ s' es, s.step log .addToSnapshot = .ok (s', es) := by
  simp only [MarketDataFeed.step]
  unfold LFQueue.getNextToRead
  by_cases hne : s.snapshotMdUpdates.numElements ≠ 0
  · rw [if_pos hne]
    dsimp only
    obtain ⟨ring, hupdate, -, -, -, -, hunread⟩ := h.ring.updateReadIndex (by decide) hne
    rw [h.unread] at hunread
    cases pending with
    | nil => cases hunread
    | cons u pending =>
      rw [numbered] at hunread
      obtain ⟨hmessage, -⟩ := List.cons.inj hunread
      have hsent := h.sent_eq
      simp only [List.cons_append] at hsent
      have haccepts := hfitting.accepts
      have hadmitted := hfitting.accounted.admitted _ _ _ hsent
      rw [hsent] at haccepts
      have hnext := haccepts.at
      rw [← h.held] at hnext
      obtain ⟨synthesizer, hadd, -⟩ := SnapshotSynthesizer.addToSnapshot_refines h.wellFormed hnext
        fun htype => (hadmitted.orderPool htype _ h.after).1
      rw [h.last, wrap64_succ] at hadd
      rw [← hmessage, hadd, ok_bind, hupdate, ok_bind]
      exact ⟨_, _, rfl⟩
  · rw [if_neg hne]
    exact ⟨s, [], rfl⟩

lemma Flowing.publisher_returns_iff (h : Flowing run s taken pending) :
    (∃ s' es, s.step log .publisher = .ok (s', es)) ↔ s.Takes .publisher := by
  obtain ⟨streams, new, hstep⟩ := h.paired.publisher_returns
  rw [MarketDataFeed.Takes, ← MarketDataFeed.sendIncremental_returns_iff]
  constructor
  · rintro ⟨s', es, hrun⟩
    obtain ⟨n, hsend, -⟩ := bind_eq_ok hrun
    exact ⟨n, hsend⟩
  · rintro ⟨n, hsend⟩
    simp only [MarketDataFeed.step, hsend, hstep, ok_bind]
    exact ⟨_, _, rfl⟩

lemma MarketDataFeed.sendMarketUpdate_returns : ∃ s' es, s.step log .sendMarketUpdate = .ok (s', es) := by
  simp only [MarketDataFeed.step]
  split
  · exact ⟨_, _, rfl⟩
  · exact ⟨_, _, rfl⟩

/-- Whoever's turn it is, the step goes through, unless it is one of the engine and the engine does not
take the request, or one of the publisher and the socket does not take the update. -/
theorem feed_goes_on_iff (h : FittingFeedRun Logger.log run s) (a : FeedAction) :
    (∃ s' es, s.step Logger.log a = .ok (s', es)) ↔ s.Takes a := by
  have hfitting := h.fitting
  obtain ⟨taken, pending, hflowing⟩ := h.orderly.feedRun.flowing
  cases a with
  | processRequest request =>
    have hiff := MatchingEngine.processNext_iff hfitting.mirrored.intact request
    simp only [MarketDataFeed.step, MarketDataFeed.Takes]
    cases hunsent : s.unsent with
    | nil =>
      simp only [forall_const]
      rw [← hiff]
      constructor
      · rintro ⟨s', es, hrun⟩
        obtain ⟨⟨engine, messages⟩, hengine, -⟩ := bind_eq_ok hrun
        exact ⟨engine, messages, hengine⟩
      · rintro ⟨engine, messages, hengine⟩
        rw [hengine, ok_bind]
        exact ⟨_, _, rfl⟩
    | cons u rest => simp [pure_eq_ok]
  | sendMarketUpdate => exact iff_of_true MarketDataFeed.sendMarketUpdate_returns trivial
  | publisher => exact hflowing.publisher_returns_iff
  | addToSnapshot => exact iff_of_true (hflowing.addToSnapshot_returns hfitting) trivial
  | publishSnapshot => exact iff_of_true ⟨_, _, rfl⟩ trivial

/-- The publisher has found an update, and the engine has three to send. -/
theorem feed_goes_on_traded : ∃ run s, FittingFeedRun Logger.log run s ∧ s.streams.publisher = .found 1 ∧
    s.nextSendValidIndex = 42 ∧ s.unsent.length = 3 ∧
    ((∃ s' es, s.step Logger.log .publisher = .ok (s', es)) ↔ s.Takes .publisher) ∧
    ((∃ s' es, s.step Logger.log .addToSnapshot = .ok (s', es)) ↔ s.Takes .addToSnapshot) ∧
    ((∃ s' es, s.step Logger.log (.processRequest cancelAskRequest) = .ok (s', es)) ↔
      s.Takes (.processRequest cancelAskRequest)) := by
  obtain ⟨run, past, future, messages, s, h, -, -, -, hpublisher, hindex, hunsent, -⟩ := feedRun_traded
  exact ⟨run, s, h, hpublisher, hindex, hunsent, feed_goes_on_iff h _, feed_goes_on_iff h _, feed_goes_on_iff h _⟩

/-- The publisher has nothing to do, or gets one step further, or copies an update. -/
lemma TwinStreams.Paired.publisher_ahead {t t' : TwinStreams} {past new : List StreamEvent} {done : List MEMarketUpdate}
    (h : t.Paired past done) (hrun : t.step .publisher = .ok (t', new)) :
    (t.publisher = .idle ∧ t.outgoingMdUpdates.numElements = 0 ∧ t' = t ∧ copied new = []) ∨
      ((t.publisher ≠ .idle ∨ t.outgoingMdUpdates.numElements ≠ 0) ∧
        (t'.ahead + 1 = t.ahead ∧ copied new = [] ∨ t'.ahead + 2 = t.ahead ∧ ∃ message, copied new = [message])) := by
  have hatSlot := h.atSlot
  cases hpublisher : t.publisher with
  | idle =>
    simp only [TwinStreams.step, hpublisher] at hrun
    unfold LFQueue.getNextToRead at hrun
    by_cases hne : t.outgoingMdUpdates.numElements ≠ 0
    · rw [if_pos hne] at hrun
      cases hrun
      right
      refine ⟨.inr hne, .inl ⟨?_, rfl⟩⟩
      simp only [ahead, hpublisher]
      omega
    · rw [if_neg hne] at hrun
      cases hrun
      exact .inl ⟨rfl, not_not.mp hne, rfl, rfl⟩
  | found slot =>
    simp only [AtSlot, hpublisher] at hatSlot
    simp only [TwinStreams.step, hpublisher] at hrun
    cases hrun
    right
    refine ⟨.inl PublisherAt.noConfusion, .inl ⟨?_, rfl⟩⟩
    simp only [ahead, hpublisher]
    omega
  | sent slot =>
    simp only [AtSlot, hpublisher] at hatSlot
    obtain ⟨ring, hupdate, -, -, hcount, -, -⟩ := h.ring.updateReadIndex (by decide) hatSlot.2
    simp only [TwinStreams.step, hpublisher, hupdate, ok_bind] at hrun
    cases hrun
    right
    refine ⟨.inl PublisherAt.noConfusion, .inl ⟨?_, rfl⟩⟩
    simp only [ahead, hpublisher]
    omega
  | released slot =>
    simp only [TwinStreams.step, hpublisher] at hrun
    cases hrun
    right
    refine ⟨.inl PublisherAt.noConfusion, .inr ⟨?_, _, rfl⟩⟩
    simp only [ahead, hpublisher]

/-- The publisher's step takes an update off those that are to be queued when it queues one, and leaves the
others. -/
lemma Flowing.publisher_roomy (h : Flowing run s taken pending) (hroomy : s.Roomy)
    (hrun : s.step log .publisher = .ok (s', es)) : s'.Roomy := by
  obtain ⟨n, hsend, hrun⟩ := bind_eq_ok hrun
  obtain ⟨⟨streams, new⟩, hstep, hrun⟩ := bind_eq_ok hrun
  cases hrun
  have hatSlot := h.paired.atSlot
  simp only [MarketDataFeed.Roomy, messageSize_eq] at hroomy ⊢
  unfold MarketDataFeed.sendIncremental at hsend
  cases hpublisher : s.streams.publisher with
  | idle =>
    simp only [TwinStreams.step, TwinStreams.unqueued, hpublisher] at hstep hroomy hsend
    unfold LFQueue.getNextToRead at hstep hsend
    by_cases hne : s.streams.outgoingMdUpdates.numElements ≠ 0
    · rw [if_pos hne] at hstep hsend
      cases hstep
      cases hsend
      exact hroomy
    · rw [if_neg hne] at hstep hsend
      cases hstep
      cases hsend
      simp only [TwinStreams.unqueued, hpublisher]
      omega
  | found slot =>
    simp only [AtSlot, hpublisher] at hatSlot
    simp only [TwinStreams.step, TwinStreams.unqueued, hpublisher] at hstep hroomy hsend
    cases hstep
    obtain ⟨m, hfirst, hsecond⟩ := bind_eq_ok hsend
    obtain ⟨-, rfl⟩ := McastSocket.sendIndex_eq_ok.mp hfirst
    obtain ⟨-, rfl⟩ := McastSocket.sendIndex_eq_ok.mp hsecond
    have hsize := messageSize_eq
    unfold messageSize at hsize
    simp only [TwinStreams.unqueued]
    omega
  | sent slot =>
    simp only [AtSlot, hpublisher] at hatSlot
    obtain ⟨ring, hupdate, -, -, hcount, -, -⟩ := h.paired.ring.updateReadIndex (by decide) hatSlot.2
    simp only [TwinStreams.step, TwinStreams.unqueued, hpublisher, hupdate, ok_bind] at hstep hroomy hsend
    cases hstep
    cases hsend
    simp only [TwinStreams.unqueued]
    omega
  | released slot =>
    simp only [TwinStreams.step, TwinStreams.unqueued, hpublisher] at hstep hroomy hsend
    cases hstep
    cases hsend
    exact hroomy

/-- The turns of the other threads need no more room than there is. -/
lemma Flowing.roomy (h : Flowing run s taken pending) (hroomy : s.Roomy) (hrequest : ∀ r, a ≠ .processRequest r)
    (hpaced : s.Paced a) (hrun : s.step log a = .ok (s', es)) : s'.Roomy := by
  cases a with
  | processRequest request => exact absurd rfl (hrequest request)
  | publishSnapshot =>
    cases hrun
    exact hroomy
  | publisher => exact h.publisher_roomy hroomy hrun
  | addToSnapshot =>
    simp only [MarketDataFeed.step] at hrun
    split at hrun
    · cases hrun
      exact hroomy
    · obtain ⟨synthesizer, -, hrun⟩ := bind_eq_ok hrun
      obtain ⟨ring, -, hrun⟩ := bind_eq_ok hrun
      cases hrun
      exact hroomy
  | sendMarketUpdate =>
    simp only [MarketDataFeed.step] at hrun
    split at hrun
    · cases hrun
      exact hroomy
    · rename_i u rest hunsent
      obtain ⟨hroom, -⟩ := hpaced u (by rw [hunsent]; rfl)
      obtain ⟨-, hcount, -⟩ := h.paired.ring.write (by decide) hroom u
      have hatSlot := h.paired.atSlot
      cases hrun
      simp only [MarketDataFeed.Roomy, messageSize_eq, TwinStreams.unqueued, hunsent, hcount, List.length_cons] at hroomy ⊢
      cases hpublisher : s.streams.publisher with
      | sent slot =>
        simp only [AtSlot, hpublisher] at hatSlot
        simp only [hpublisher] at hroomy
        dsimp only
        omega
      | _ =>
        simp only [hpublisher] at hroomy
        dsimp only
        omega

/-- A turn that moves an update uses up one of the steps ahead, and the others none. -/
lemma Flowing.spent (h : Flowing run s taken pending) (hrequest : ∀ r, a ≠ .processRequest r) (hpaced : s.Paced a)
    (hrun : s.step log a = .ok (s', es)) : s'.ahead + (if s.Moves a then 1 else 0) = s.ahead := by
  cases a with
  | processRequest request => exact absurd rfl (hrequest request)
  | publishSnapshot =>
    cases hrun
    rfl
  | sendMarketUpdate =>
    simp only [MarketDataFeed.step] at hrun
    split at hrun
    · rename_i hunsent
      cases hrun
      rw [if_neg (show ¬s.Moves .sendMarketUpdate from not_not.mpr hunsent), Nat.add_zero]
    · rename_i u rest hunsent
      obtain ⟨hroom, -⟩ := hpaced u (by rw [hunsent]; rfl)
      obtain ⟨-, hcount, -⟩ := h.paired.ring.write (by decide) hroom u
      have hatSlot := h.paired.atSlot
      have hmoves : s.Moves .sendMarketUpdate := by
        rw [MarketDataFeed.Moves, hunsent]
        exact List.cons_ne_nil u rest
      cases hrun
      rw [if_pos hmoves]
      simp only [MarketDataFeed.ahead, TwinStreams.ahead, hunsent, hcount, List.length_cons]
      cases hpublisher : s.streams.publisher with
      | idle =>
        dsimp only
        omega
      | found slot =>
        simp only [AtSlot, hpublisher] at hatSlot
        dsimp only
        omega
      | sent slot =>
        simp only [AtSlot, hpublisher] at hatSlot
        dsimp only
        omega
      | released slot =>
        dsimp only
        omega
  | publisher =>
    obtain ⟨n, -, hrun⟩ := bind_eq_ok hrun
    obtain ⟨⟨streams, new⟩, hstep, hrun⟩ := bind_eq_ok hrun
    cases hrun
    rcases h.paired.publisher_ahead hstep with ⟨hidle, hempty, rfl, hnone⟩ | ⟨hmoves, hahead⟩
    · have hrests : ¬s.Moves .publisher := by
        rintro (hmoves | hmoves)
        · exact hmoves hidle
        · exact hmoves hempty
      rw [if_neg hrests]
      simp only [MarketDataFeed.ahead, hnone, List.foldl_nil, Nat.add_zero]
    · rw [if_pos (show s.Moves .publisher from hmoves)]
      rcases hahead with ⟨hahead, hnone⟩ | ⟨hahead, message, hone⟩
      · simp only [MarketDataFeed.ahead, hnone, List.foldl_nil]
        omega
      · have hreleased : ∃ slot, s.streams.publisher = .released slot := by
          rcases (publisher_events hstep).2 with hnone | ⟨hreleased, -⟩
          · rw [hone] at hnone
            cases hnone
          · exact hreleased
        obtain ⟨-, hcount, -⟩ := h.ring.write (by decide) (hpaced hreleased) message
        simp only [MarketDataFeed.ahead, hone, List.foldl_cons, List.foldl_nil, hcount]
        omega
  | addToSnapshot =>
    simp only [MarketDataFeed.step] at hrun
    unfold LFQueue.getNextToRead at hrun
    by_cases hne : s.snapshotMdUpdates.numElements ≠ 0
    · rw [if_pos hne] at hrun
      dsimp only at hrun
      obtain ⟨ring, hupdate, -, -, hcount, -, -⟩ := h.ring.updateReadIndex (by decide) hne
      obtain ⟨synthesizer, -, hrun⟩ := bind_eq_ok hrun
      rw [hupdate, ok_bind] at hrun
      cases hrun
      rw [if_pos (show s.Moves .addToSnapshot from hne)]
      simp only [MarketDataFeed.ahead]
      omega
    · rw [if_neg hne] at hrun
      cases hrun
      rw [if_neg (show ¬s.Moves .addToSnapshot from hne), Nat.add_zero]

/-- As long as an update is on its way, one of the threads can move it. -/
lemma MarketDataFeed.progress (hahead : s.ahead ≠ 0) : ∃ a, s.Moves a ∧ s.Paced a := by
  have hroom : 0 < ME_MAX_MARKET_UPDATES := by decide
  by_cases hring : s.snapshotMdUpdates.numElements = 0
  · by_cases hmoves : s.Moves .publisher
    · exact ⟨.publisher, hmoves, fun _ => hring ▸ hroom⟩
    · obtain ⟨hidle, hempty⟩ := not_or.mp hmoves
      have hidle : s.streams.publisher = .idle := not_not.mp hidle
      have hempty : s.streams.outgoingMdUpdates.numElements = 0 := not_not.mp hempty
      refine ⟨.sendMarketUpdate, fun hunsent => hahead ?_, fun u hu => ⟨hempty ▸ hroom, ?_⟩⟩
      · simp only [MarketDataFeed.ahead, TwinStreams.ahead, hunsent, hidle, hempty, hring, List.length_nil]
      · rintro ⟨slot, hreleased, -⟩
        rw [hidle] at hreleased
        cases hreleased
  · exact ⟨.addToSnapshot, hring, trivial⟩

/-- With room in the socket, every turn behind the engine goes through. -/
lemma FittingFeedRun.returns (h : FittingFeedRun log run s) (hroomy : s.Roomy) (hrequest : ∀ r, a ≠ .processRequest r) :
    ∃ s' es, s.step log a = .ok (s', es) := by
  obtain ⟨taken, pending, hflowing⟩ := h.orderly.feedRun.flowing
  cases a with
  | processRequest request => exact absurd rfl (hrequest request)
  | sendMarketUpdate => exact MarketDataFeed.sendMarketUpdate_returns
  | addToSnapshot => exact hflowing.addToSnapshot_returns h.fitting
  | publishSnapshot => exact ⟨_, _, rfl⟩
  | publisher =>
    apply hflowing.publisher_returns_iff.mpr
    intro slot hpublisher
    have hatSlot := hflowing.paired.atSlot
    simp only [AtSlot, hpublisher] at hatSlot
    simp only [MarketDataFeed.Roomy, TwinStreams.unqueued, hpublisher, messageSize_eq] at hroomy ⊢
    omega

/-- A run without requests that overruns no ring. -/
abbrev DrainRun (log : Log) (s : MarketDataFeed) (more : List (FeedAction × List FeedEvent)) (s' : MarketDataFeed) :
    Prop :=
  Reached (MarketDataFeed.step log) (fun _ s a _ => (∀ r, a ≠ .processRequest r) ∧ s.Paced a) s more s'

lemma DrainRun.fitting (hmore : DrainRun log s more s') (h : FittingFeedRun log run s) :
    FittingFeedRun log (run ++ more) s' := by
  apply Reached.trans h hmore
  rintro past t a es ⟨hrequest, hpaced⟩
  refine ⟨⟨hpaced, ?_⟩, ?_⟩
  · cases a with
    | processRequest request => exact absurd rfl (hrequest request)
    | _ => trivial
  · cases a with
    | processRequest request => exact absurd rfl (hrequest request)
    | _ => trivial

lemma DrainRun.roomy (hmore : DrainRun log s more s') (h : FittingFeedRun log run s) (hroomy : s.Roomy) : s'.Roomy := by
  induction hmore with
  | start => exact hroomy
  | next hpast hallowed hrun ih =>
    obtain ⟨taken, pending, hflowing⟩ := (DrainRun.fitting hpast h).orderly.feedRun.flowing
    exact hflowing.roomy ih hallowed.1 hallowed.2 hrun

/-- The threads can bring all updates to the synthesizer. -/
lemma FittingFeedRun.exists_drained (h : FittingFeedRun log run s) (hroomy : s.Roomy) :
    ∃ more s', DrainRun log s more s' ∧ s'.ahead = 0 := by
  have hfewer : ∀ n, ∃ more s', DrainRun log s more s' ∧ s'.ahead ≤ s.ahead - n := by
    intro n
    induction n with
    | zero => exact ⟨[], s, .start, Nat.le_refl _⟩
    | succ n ih =>
      obtain ⟨more, s', hmore, hahead⟩ := ih
      by_cases hrest : s'.ahead = 0
      · exact ⟨more, s', hmore, by omega⟩
      · obtain ⟨a, hmoves, hpaced⟩ := MarketDataFeed.progress hrest
        have hrequest : ∀ r, a ≠ .processRequest r := by
          rintro r rfl
          exact hmoves
        have hfitting := hmore.fitting h
        obtain ⟨s'', es, hrun⟩ := hfitting.returns (hmore.roomy h hroomy) hrequest
        obtain ⟨taken, pending, hflowing⟩ := hfitting.orderly.feedRun.flowing
        have hspent := hflowing.spent hrequest hpaced hrun
        rw [if_pos hmoves] at hspent
        exact ⟨_, s'', hmore.next ⟨hrequest, hpaced⟩ hrun, by omega⟩
  obtain ⟨more, s', hmore, hahead⟩ := hfewer s.ahead
  exact ⟨more, s', hmore, by omega⟩

/-- Such a run leaves the books alone. -/
lemma DrainRun.engine (hmore : DrainRun log s more s') :
    s'.matchingEngine = s.matchingEngine ∧ sentUpdates more = [] := by
  apply Reached.invariant hmore fun more s' => s'.matchingEngine = s.matchingEngine ∧ sentUpdates more = []
  · exact ⟨rfl, rfl⟩
  intro past t a t' es hsame hallowed hrun
  obtain ⟨hengine, hnone⟩ := hsame
  rw [sentUpdates_concat, hnone, List.nil_append]
  rcases MarketDataFeed.step_engine hrun with ⟨hengine', hnone'⟩ | ⟨request, messages, rfl, -⟩
  · exact ⟨hengine'.trans hengine, hnone'⟩
  · exact absurd rfl (hallowed.1 request)

/-- With no step ahead, everything sent has been taken in. -/
lemma Flowing.drained (h : Flowing run s taken pending) (hahead : s.ahead = 0) : taken = sentUpdates run := by
  have hatSlot := h.paired.atSlot
  have hpending := congrArg List.length (meMarketUpdate_numbered taken.length pending)
  rw [← h.unread, List.length_map, LFQueue.length_unread] at hpending
  unfold MarketDataFeed.ahead at hahead
  have hunsent : s.unsent = [] := List.eq_nil_of_length_eq_zero (by omega)
  have hnone : pending = [] := List.eq_nil_of_length_eq_zero (by omega)
  have hstreams : s.streams.ahead = 0 := by omega
  have hbefore : s.streams.releasedSlot = [] ∧ s.streams.outgoingMdUpdates.unread = [] := by
    have hlength := LFQueue.length_unread s.streams.outgoingMdUpdates
    cases hpublisher : s.streams.publisher with
    | idle =>
      simp only [TwinStreams.ahead, hpublisher] at hstreams
      simp only [releasedSlot, hpublisher]
      exact ⟨trivial, List.eq_nil_of_length_eq_zero (by omega)⟩
    | found slot =>
      simp only [AtSlot, hpublisher] at hatSlot
      simp only [TwinStreams.ahead, hpublisher] at hstreams
      omega
    | sent slot =>
      simp only [AtSlot, hpublisher] at hatSlot
      simp only [TwinStreams.ahead, hpublisher] at hstreams
      omega
    | released slot =>
      simp only [TwinStreams.ahead, hpublisher] at hstreams
      omega
  rw [h.sent_eq, hnone, hbefore.1, hbefore.2, hunsent]
  simp

/-- The threads behind the engine come to rest after the same number of moves, whoever's turn it is and however
many turns move nothing. As long as the socket has room for the updates on their way, all of their turns go
through, and until they rest one of them can move an update and overrun nothing. The synthesizer has then taken
in everything that the engine ever sent, and has the resting orders of all books. -/
theorem feed_drains (h : FittingFeedRun log run s) (hroomy : s.Roomy) (hmore : DrainRun log s more s') :
    tally (MarketDataFeed.step log) MarketDataFeed.Moves s (more.map Prod.fst) + s'.ahead = s.ahead ∧
      (∀ a, (∀ r, a ≠ .processRequest r) → ∃ s'' es, s'.step log a = .ok (s'', es)) ∧
      (s'.ahead ≠ 0 → ∃ a, s'.Moves a ∧ s'.Paced a) ∧
      (s'.ahead = 0 → addedMessages (run ++ more) = numbered 0 (sentUpdates run) ∧
        ∀ t < ME_MAX_TICKERS, Mirrors t (s.matchingEngine.tickerOrderBook t) s'.snapshotSynthesizer.held) := by
  have hfitting := hmore.fitting h
  obtain ⟨taken, pending, hflowing⟩ := hfitting.orderly.feedRun.flowing
  refine ⟨?_, fun a hrequest => hfitting.returns (hmore.roomy h hroomy) hrequest,
    MarketDataFeed.progress, fun hahead => ?_⟩
  · apply Reached.spent hmore (I := fun past t => FittingFeedRun log (run ++ past) t)
    · exact fun past t hpast => DrainRun.fitting hpast h
    · intro past t a t' es hpast hallowed hrun
      obtain ⟨taken, pending, hflowing⟩ := hpast.orderly.feedRun.flowing
      exact hflowing.spent hallowed.1 hallowed.2 hrun
  · obtain ⟨hengine, hnone⟩ := hmore.engine
    have hsent : sentUpdates (run ++ more) = sentUpdates run := by
      rw [sentUpdates, sent_append, List.flatMap_append]
      exact (congrArg (sentUpdates run ++ ·) hnone).trans (List.append_nil _)
    have htaken := hflowing.drained hahead
    rw [hsent] at htaken
    refine ⟨by rw [hflowing.added, htaken], ?_⟩
    rw [hflowing.held, htaken, ← hengine, ← hsent]
    exact hfitting.orderly.mirrored.books

/-- Four updates are on their way, one of them found by the publisher, and all arrive. -/
theorem feed_drains_traded : ∃ run s more s', FittingFeedRun Logger.log run s ∧ s.Roomy ∧
    DrainRun Logger.log s more s' ∧ s.ahead = 22 ∧ s'.ahead = 0 ∧
    tally (MarketDataFeed.step Logger.log) MarketDataFeed.Moves s (more.map Prod.fst) + s'.ahead = s.ahead ∧
    (∀ a, (∀ r, a ≠ .processRequest r) → ∃ s'' es, s'.step Logger.log a = .ok (s'', es)) ∧
    addedMessages (run ++ more) = numbered 0 (sentUpdates run) ∧
    ∀ t < ME_MAX_TICKERS, Mirrors t (s.matchingEngine.tickerOrderBook t) s'.snapshotSynthesizer.held := by
  obtain ⟨run, past, future, messages, s, h, -, -, -, hpublisher, hindex, hunsent, hring, hsnapshot⟩ := feedRun_traded
  have hroomy : s.Roomy := by
    simp only [MarketDataFeed.Roomy, TwinStreams.unqueued, hpublisher, hindex, hunsent, hring]
    decide
  have hahead : s.ahead = 22 := by
    simp only [MarketDataFeed.ahead, TwinStreams.ahead, hpublisher, hunsent, hring, hsnapshot]
  obtain ⟨more, s', hmore, hrest⟩ := h.exists_drained hroomy
  obtain ⟨htally, hreturns, -, hdrained⟩ := feed_drains h hroomy hmore
  obtain ⟨hadded, hheld⟩ := hdrained hrest
  exact ⟨run, s, more, s', h, hroomy, hmore, hahead, hrest, htally, hreturns, hadded, hheld⟩

end LowLatencyExchange
