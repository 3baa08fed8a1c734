import LowLatencyExchange.Common.Handoff
import LowLatencyExchange.MarketData.OrderMap

/-!
# The two market data streams

`MarketDataPublisher::run` copies an update into the snapshot queue after it has given up the slot
that the update is in. The engine can write the next update into that slot first, and does when the
ring has no other slot left.
-/

namespace LowLatencyExchange
open LoggedRun Channel

/-- How far `run` has come with the update that `getNextToRead` has pointed it to. -/
inductive PublisherAt
  | idle
  | found (slot : Nat)
  | sent (slot : Nat)
  | released (slot : Nat)
  deriving DecidableEq, Repr

structure TwinStreams where
  outgoingMdUpdates : LFQueue MEMarketUpdate
  publisher : PublisherAt
  nextIncSeqNum : Nat

inductive StreamTurn
  | engine (update : MEMarketUpdate)
  | publisher
  deriving DecidableEq, Repr

/-- `sending` is what `run` finds behind its pointer when it passes it to `incremental_socket_`, and
`copied` is what it copies into `snapshot_md_updates_`. -/
inductive StreamEvent
  | written (update : MEMarketUpdate)
  | sending (message : MDPMarketUpdate)
  | copied (message : MDPMarketUpdate)
  deriving DecidableEq, Repr

namespace StreamEvent

def written? : StreamEvent → Option MEMarketUpdate
  | .written update => some update
  | .sending _ | .copied _ => none

def sending? : StreamEvent → Option MDPMarketUpdate
  | .sending message => some message
  | .written _ | .copied _ => none

def copied? : StreamEvent → Option MDPMarketUpdate
  | .copied message => some message
  | .written _ | .sending _ => none

end StreamEvent

namespace TwinStreams

def written (es : List StreamEvent) : List MEMarketUpdate := es.filterMap StreamEvent.written?
def sending (es : List StreamEvent) : List MDPMarketUpdate := es.filterMap StreamEvent.sending?
def copied (es : List StreamEvent) : List MDPMarketUpdate := es.filterMap StreamEvent.copied?

def create : TwinStreams where
  outgoingMdUpdates := .create {} ME_MAX_MARKET_UPDATES
  publisher := .idle
  nextIncSeqNum := 1

/-- The engine writes only when there is room. The publisher takes the steps of its loop in turn. -/
def step (s : TwinStreams) : StreamTurn → Except Fault (TwinStreams × List StreamEvent)
  | .engine update =>
    if s.outgoingMdUpdates.numElements < s.outgoingMdUpdates.capacity then
      pure ({ s with outgoingMdUpdates := s.outgoingMdUpdates.write update }, [.written update])
    else pure (s, [])
  | .publisher =>
    match s.publisher with
    | .idle =>
      match s.outgoingMdUpdates.getNextToRead with
      | none => pure (s, [])
      | some slot => pure ({ s with publisher := .found slot }, [])
    | .found slot =>
      pure ({ s with publisher := .sent slot }, [.sending ⟨s.nextIncSeqNum, s.outgoingMdUpdates.store slot⟩])
    | .sent slot => do
      let ring ← s.outgoingMdUpdates.updateReadIndex
      pure ({ s with outgoingMdUpdates := ring, publisher := .released slot }, [])
    | .released slot =>
      pure ({ s with publisher := .idle, nextIncSeqNum := wrap64 (s.nextIncSeqNum + 1) },
        [.copied ⟨s.nextIncSeqNum, s.outgoingMdUpdates.store slot⟩])

/-- The update that the publisher has given up the slot of, and still has to copy. -/
def inHand (s : TwinStreams) : List MDPMarketUpdate :=
  match s.publisher with
  | .released slot => [⟨s.nextIncSeqNum, s.outgoingMdUpdates.store slot⟩]
  | .idle | .found _ | .sent _ => []

/-- The updates copied so far, and the one about to be copied, are those the engine wrote, in order
and numbered. So are the updates sent. -/
def Agree (s : TwinStreams) (es : List StreamEvent) : Prop :=
  copied es ++ s.inHand <+: numbered 0 (written es) ∧ sending es <+: numbered 0 (written es)

def StreamsAgree (turns : List StreamTurn) : Prop :=
  ∀ past s es, past <+: turns → execute step create past = .ok (s, es) → s.Agree es

/-- Another update is about to be written over the one that the publisher still has to copy. -/
def Rewrites (s : TwinStreams) : StreamTurn → Prop
  | .engine update => ∃ slot, s.publisher = .released slot ∧
      s.outgoingMdUpdates.numElements + 1 = s.outgoingMdUpdates.capacity ∧ update ≠ s.outgoingMdUpdates.store slot
  | .publisher => False

/-- The update in the publisher's slot, once it is sent, and once the slot is given up. -/
def sentSlot (s : TwinStreams) : List MEMarketUpdate :=
  match s.publisher with
  | .sent slot | .released slot => [s.outgoingMdUpdates.store slot]
  | .idle | .found _ => []

def releasedSlot (s : TwinStreams) : List MEMarketUpdate :=
  match s.publisher with
  | .released slot => [s.outgoingMdUpdates.store slot]
  | .idle | .found _ | .sent _ => []

/-- The publisher's slot is the first unread one, until it is given up, and then the one before. -/
def AtSlot (s : TwinStreams) : Prop :=
  match s.publisher with
  | .idle => True
  | .found slot | .sent slot => slot = s.outgoingMdUpdates.nextReadIndex ∧ s.outgoingMdUpdates.numElements ≠ 0
  | .released slot => slot < ME_MAX_MARKET_UPDATES ∧
      (slot + 1) % ME_MAX_MARKET_UPDATES = s.outgoingMdUpdates.nextReadIndex

/-- The updates written are those that `run` is done with, the one it has given up the slot of, and the
unread ones. -/
structure Paired (s : TwinStreams) (es : List StreamEvent) (done : List MEMarketUpdate) : Prop where
  ring : s.outgoingMdUpdates.Sound ME_MAX_MARKET_UPDATES
  atSlot : s.AtSlot
  next : s.nextIncSeqNum = wrap64 (done.length + 1)
  writes : written es = done ++ s.releasedSlot ++ s.outgoingMdUpdates.unread
  copies : copied es = numbered 0 done
  sends : sending es = numbered 0 (done ++ s.sentSlot)

variable {s s' : TwinStreams} {turn : StreamTurn} {es es' : List StreamEvent} {done : List MEMarketUpdate}

lemma written_append (es es' : List StreamEvent) : written (es ++ es') = written es ++ written es' :=
  List.filterMap_append

lemma sending_append (es es' : List StreamEvent) : sending (es ++ es') = sending es ++ sending es' :=
  List.filterMap_append

lemma copied_append (es es' : List StreamEvent) : copied (es ++ es') = copied es ++ copied es' :=
  List.filterMap_append

lemma numbered_concat (us : List MEMarketUpdate) (u : MEMarketUpdate) :
    numbered 0 (us ++ [u]) = numbered 0 us ++ [⟨wrap64 (us.length + 1), u⟩] := by
  rw [numbered_append, Nat.zero_add]
  rfl

lemma numbered_initial (us vs : List MEMarketUpdate) : numbered 0 us <+: numbered 0 (us ++ vs) := by
  rw [numbered_append]
  exact List.prefix_append _ _

lemma paired_create : create.Paired [] [] where
  ring := LFQueue.sound_create (T := MEMarketUpdate) {} (by decide)
  atSlot := trivial
  next := rfl
  writes := rfl
  copies := rfl
  sends := rfl

lemma Paired.agree (h : s.Paired es done) : s.Agree es := by
  obtain ⟨hring, hslot, hnext, hwritten, hcopied, hsending⟩ := h
  cases hpublisher : s.publisher with
  | idle =>
    simp only [releasedSlot, sentSlot, hpublisher, List.append_nil] at hwritten hsending
    simp only [Agree, inHand, hpublisher, List.append_nil, hwritten, hcopied, hsending]
    exact ⟨numbered_initial _ _, numbered_initial _ _⟩
  | found slot =>
    simp only [releasedSlot, sentSlot, hpublisher, List.append_nil] at hwritten hsending
    simp only [Agree, inHand, hpublisher, List.append_nil, hwritten, hcopied, hsending]
    exact ⟨numbered_initial _ _, numbered_initial _ _⟩
  | sent slot =>
    simp only [AtSlot, hpublisher] at hslot
    obtain ⟨hread, hne⟩ := hslot
    obtain ⟨ring, -, -, -, -, -, hunread⟩ := hring.updateReadIndex (by decide) hne
    simp only [releasedSlot, sentSlot, hpublisher, List.append_nil] at hwritten hsending
    simp only [Agree, inHand, hpublisher, List.append_nil, hwritten, hcopied, hsending]
    refine ⟨numbered_initial _ _, ?_⟩
    rw [hunread, ← hread, ← List.singleton_append (l := ring.unread), ← List.append_assoc]
    exact numbered_initial _ _
  | released slot =>
    simp only [releasedSlot, sentSlot, hpublisher] at hwritten hsending
    simp only [Agree, inHand, hpublisher, hwritten, hcopied, hsending, hnext]
    rw [← numbered_concat]
    exact ⟨numbered_initial _ _, numbered_initial _ _⟩

/-- A write leaves the publisher's slot alone, unless it rewrites it. -/
lemma Paired.keeps_slot (h : s.Paired es done) {u : MEMarketUpdate} (hrewrites : ¬s.Rewrites (.engine u))
    (hroom : s.outgoingMdUpdates.numElements < ME_MAX_MARKET_UPDATES) {slot : Nat}
    (hslot : s.publisher = .sent slot ∨ s.publisher = .released slot) :
    (s.outgoingMdUpdates.write u).store slot = s.outgoingMdUpdates.store slot := by
  have hring := h.ring
  have hwriteIndex := hring.writeIndex
  have hatSlot := h.atSlot
  by_cases hsame : slot = s.outgoingMdUpdates.nextWriteIndex
  · rcases hslot with hpublisher | hpublisher
    · simp only [AtSlot, hpublisher] at hatSlot
      obtain ⟨hread, hne⟩ := hatSlot
      have hlt := hring.readIndex
      have hfree := slot_ne (k := slot) (p := slot + s.outgoingMdUpdates.numElements) (N := ME_MAX_MARKET_UPDATES)
        (by omega) (by omega)
      rw [hread, ← hwriteIndex, ← hsame, hread] at hfree
      exact absurd (Nat.mod_eq_of_lt hlt).symm hfree
    · simp only [AtSlot, hpublisher] at hatSlot
      obtain ⟨hlt, hread⟩ := hatSlot
      have hlast : s.outgoingMdUpdates.numElements + 1 = ME_MAX_MARKET_UPDATES := by
        by_contra hmore
        have hfree := slot_ne (k := slot) (p := slot + 1 + s.outgoingMdUpdates.numElements)
          (N := ME_MAX_MARKET_UPDATES) (by omega) (by omega)
        rw [← Nat.mod_add_mod, hread, ← hwriteIndex, ← hsame] at hfree
        exact hfree (Nat.mod_eq_of_lt hlt).symm
      have hkeeps : u = s.outgoingMdUpdates.store slot := by
        by_contra hne
        exact hrewrites ⟨slot, hpublisher, by rw [hlast, hring.capacity], hne⟩
      simp only [LFQueue.write, ← hsame, Function.update_self]
      exact hkeeps
  · exact Function.update_of_ne hsame _ _

lemma Paired.write (h : s.Paired es done) {u : MEMarketUpdate} (hrewrites : ¬s.Rewrites (.engine u))
    (hroom : s.outgoingMdUpdates.numElements < ME_MAX_MARKET_UPDATES) :
    { s with outgoingMdUpdates := s.outgoingMdUpdates.write u }.Paired (es ++ [StreamEvent.written u]) done := by
  have hkeeps : ∀ slot, s.publisher = .sent slot ∨ s.publisher = .released slot →
      (s.outgoingMdUpdates.write u).store slot = s.outgoingMdUpdates.store slot :=
    fun _ => h.keeps_slot hrewrites hroom
  obtain ⟨hsound, hcount, hunread⟩ := h.ring.write (by decide) hroom u
  have hslots : { s with outgoingMdUpdates := s.outgoingMdUpdates.write u }.releasedSlot = s.releasedSlot ∧
      { s with outgoingMdUpdates := s.outgoingMdUpdates.write u }.sentSlot = s.sentSlot := by
    unfold releasedSlot sentSlot
    dsimp only
    cases hpublisher : s.publisher with
    | idle => exact ⟨rfl, rfl⟩
    | found slot => exact ⟨rfl, rfl⟩
    | sent slot => exact ⟨rfl, congrArg (fun x => [x]) (hkeeps slot (.inl hpublisher))⟩
    | released slot =>
      have hslot := congrArg (fun x => [x]) (hkeeps slot (.inr hpublisher))
      exact ⟨hslot, hslot⟩
  refine ⟨hsound, ?_, h.next, ?_, ?_, ?_⟩
  · have hatSlot := h.atSlot
    unfold AtSlot at hatSlot ⊢
    dsimp only
    cases hpublisher : s.publisher with
    | idle => trivial
    | found slot =>
      simp only [hpublisher] at hatSlot
      exact ⟨hatSlot.1, by rw [hcount]; exact Nat.succ_ne_zero _⟩
    | sent slot =>
      simp only [hpublisher] at hatSlot
      exact ⟨hatSlot.1, by rw [hcount]; exact Nat.succ_ne_zero _⟩
    | released slot =>
      simp only [hpublisher] at hatSlot
      exact hatSlot
  · rw [written_append, h.writes, hslots.1, hunread, ← List.append_assoc]
    rfl
  · rw [copied_append, h.copies]
    exact List.append_nil _
  · rw [sending_append, h.sends, hslots.2]
    exact List.append_nil _

lemma Paired.publisher (h : s.Paired es done) (hrun : s.step .publisher = .ok (s', es')) :
    ∃ done', s'.Paired (es ++ es') done' := by
  obtain ⟨hring, hatSlot, hnext, hwritten, hcopied, hsending⟩ := h
  cases hpublisher : s.publisher with
  | idle =>
    simp only [releasedSlot, sentSlot, hpublisher] at hwritten hsending
    simp only [step, hpublisher] at hrun
    unfold LFQueue.getNextToRead at hrun
    by_cases hne : s.outgoingMdUpdates.numElements ≠ 0
    · rw [if_pos hne] at hrun
      cases hrun
      rw [List.append_nil]
      exact ⟨done, hring, ⟨rfl, hne⟩, hnext, hwritten, hcopied, hsending⟩
    · rw [if_neg hne] at hrun
      cases hrun
      rw [List.append_nil]
      refine ⟨done, hring, hatSlot, hnext, ?_, hcopied, ?_⟩
      · simpa only [releasedSlot, hpublisher] using hwritten
      · simpa only [sentSlot, hpublisher] using hsending
  | found slot =>
    simp only [AtSlot, releasedSlot, sentSlot, hpublisher] at hatSlot hwritten hsending
    simp only [step, hpublisher, pure_eq_ok] at hrun
    cases hrun
    refine ⟨done, hring, hatSlot, hnext, ?_, ?_, ?_⟩
    · rw [written_append, hwritten]
      exact List.append_nil _
    · rw [copied_append, hcopied]
      exact List.append_nil _
    · rw [sending_append, hsending, List.append_nil, hnext]
      exact (numbered_concat done _).symm
  | sent slot =>
    simp only [AtSlot, releasedSlot, sentSlot, hpublisher] at hatSlot hwritten hsending
    obtain ⟨hread, hne⟩ := hatSlot
    obtain ⟨ring, hupdate, hsound, hstore, -, hindex, hunread⟩ := hring.updateReadIndex (by decide) hne
    simp only [step, hpublisher, hupdate, ok_bind, pure_eq_ok] at hrun
    cases hrun
    rw [List.append_nil]
    refine ⟨done, hsound, ⟨?_, ?_⟩, hnext, ?_, hcopied, ?_⟩
    · rw [hread]
      exact hring.readIndex
    · rw [hread]
      exact hindex.symm
    · rw [hwritten, hunread, ← hread, List.append_nil]
      simp only [releasedSlot, hstore, List.append_assoc, List.singleton_append]
    · simpa only [sentSlot, hstore] using hsending
  | released slot =>
    simp only [AtSlot, releasedSlot, sentSlot, hpublisher] at hatSlot hwritten hsending
    simp only [step, hpublisher, pure_eq_ok] at hrun
    cases hrun
    refine ⟨done ++ [s.outgoingMdUpdates.store slot], hring, trivial, ?_, ?_, ?_, ?_⟩
    · rw [List.length_append, List.length_singleton, hnext, wrap64_succ]
    · rw [written_append, hwritten]
      simp [written, StreamEvent.written?, releasedSlot]
    · rw [copied_append, hcopied, numbered_concat, hnext]
      rfl
    · rw [sending_append, hsending]
      simp [sending, StreamEvent.sending?, sentSlot]

/-- Only a write over the publisher's slot can part the streams. -/
lemma Paired.step (h : s.Paired es done) (hrewrites : ¬s.Rewrites turn) (hrun : s.step turn = .ok (s', es')) :
    ∃ done', s'.Paired (es ++ es') done' := by
  cases turn with
  | engine u =>
    simp only [TwinStreams.step] at hrun
    split at hrun
    · rename_i hroom
      rw [h.ring.capacity] at hroom
      cases hrun
      exact ⟨done, h.write hrewrites hroom⟩
    · cases hrun
      rw [List.append_nil]
      exact ⟨done, h⟩
  | publisher => exact h.publisher hrun

/-- The publisher is about to copy what was written over its update. -/
lemma Paired.not_rewrites (h : s.Paired es done) (hrun : s.step turn = .ok (s', es')) (hagree : s'.Agree (es ++ es')) :
    ¬s.Rewrites turn := by
  cases turn with
  | publisher => exact not_false
  | engine u =>
    rintro ⟨slot, hpublisher, hlast, hne⟩
    have hroom : s.outgoingMdUpdates.numElements < s.outgoingMdUpdates.capacity := by omega
    simp only [TwinStreams.step, if_pos hroom, pure_eq_ok] at hrun
    cases hrun
    have hatSlot := h.atSlot
    have hwriteIndex := h.ring.writeIndex
    have hwritten := h.writes
    rw [h.ring.capacity] at hlast
    simp only [AtSlot, releasedSlot, hpublisher] at hatSlot hwritten
    obtain ⟨hlt, hread⟩ := hatSlot
    have hsame : s.outgoingMdUpdates.nextWriteIndex = slot := by
      have hround : slot + 1 + s.outgoingMdUpdates.numElements = slot + ME_MAX_MARKET_UPDATES := by omega
      rw [hwriteIndex, ← hread, Nat.mod_add_mod, hround, Nat.add_mod_right, Nat.mod_eq_of_lt hlt]
    obtain ⟨rest, hprefix⟩ := hagree.1
    simp only [inHand, hpublisher, LFQueue.write, hsame, Function.update_self] at hprefix
    rw [copied_append, written_append, h.copies, hwritten, List.append_assoc, List.append_assoc, List.append_assoc,
      List.append_assoc, numbered_append] at hprefix
    have hrest := List.append_cancel_left hprefix
    simp only [copied, List.filterMap_cons, StreamEvent.copied?, List.filterMap_nil, List.nil_append,
      List.singleton_append, numbered, List.cons.injEq, MDPMarketUpdate.mk.injEq] at hrest
    exact hne hrest.1.2

lemma streamsAgree_iff {turns : List StreamTurn} (hrun : execute TwinStreams.step create turns = .ok (s, es)) :
    StreamsAgree turns ↔ Never TwinStreams.step create turns Rewrites := by
  have hinit : ∃ done, create.Paired [] done := ⟨[], paired_create⟩
  constructor
  · refine never_of_invariant hrun (I := fun s es => ∃ done, s.Paired es done) hinit
      (fun s es turn s' es' h hrewrites hstep => ?_)
      fun s es turn s' es' h hstep hagree => ?_
    · obtain ⟨done, h⟩ := h
      exact h.step hrewrites hstep
    · obtain ⟨done, h⟩ := h
      exact h.not_rewrites hstep hagree
  · intro hnever past s es hpast hbefore
    obtain ⟨done, h⟩ := hnever.invariant (I := fun s es => ∃ done, s.Paired es done) hinit
      (fun s es turn s' es' h hrewrites hstep => by
      obtain ⟨done, h⟩ := h
      exact h.step hrewrites hstep) past s es hpast hbefore
    exact h.agree

end TwinStreams

/-- In every interleaving, both streams carry the updates that the engine wrote, in order and under the
same numbers, just when the engine never writes another update into the ring's last free slot while
the publisher still has to copy what is in it. -/
theorem twin_streams {turns : List StreamTurn} {s : TwinStreams} {es : List StreamEvent}
    (hrun : execute TwinStreams.step .create turns = .ok (s, es)) :
    TwinStreams.StreamsAgree turns ↔ Never TwinStreams.step .create turns TwinStreams.Rewrites :=
  TwinStreams.streamsAgree_iff hrun

/-- The engine fills the ring. -/
lemma execute_fill (u : MEMarketUpdate) {n : Nat} (hn : n ≤ ME_MAX_MARKET_UPDATES) :
    ∃ ring : LFQueue MEMarketUpdate, ring.Sound ME_MAX_MARKET_UPDATES ∧ ring.nextReadIndex = 0 ∧
      ring.unread = List.replicate n u ∧
      execute TwinStreams.step .create (List.replicate n (.engine u)) =
        .ok (⟨ring, .idle, 1⟩, List.replicate n (.written u)) := by
  induction n with
  | zero => exact ⟨_, LFQueue.sound_create (T := MEMarketUpdate) {} (by decide), rfl, rfl, rfl⟩
  | succ n ih =>
    obtain ⟨ring, hring, hread, hunread, hrun⟩ := ih (by omega)
    have hcount : ring.numElements = n := by rw [← ring.length_unread, hunread, List.length_replicate]
    have hroom : ring.numElements < ME_MAX_MARKET_UPDATES := by omega
    obtain ⟨hsound, -, hafter⟩ := hring.write (by decide) hroom u
    have hwrite : TwinStreams.step ⟨ring, .idle, 1⟩ (.engine u) = .ok (⟨ring.write u, .idle, 1⟩, [.written u]) := by
      rw [← hring.capacity] at hroom
      simp only [TwinStreams.step, if_pos hroom, pure_eq_ok]
    refine ⟨ring.write u, hsound, hread, ?_, ?_⟩
    · rw [hafter, hunread, List.replicate_succ']
    · rw [List.replicate_succ', List.replicate_succ']
      exact execute_append hrun (execute_cons hwrite (execute_nil _))

/-- The first order of a day, and one that is added when the ring is full of it. -/
def firstUpdate : MEMarketUpdate := ⟨.add, 1, 0, .buy, 100, 5, 1⟩
def lateUpdate : MEMarketUpdate := ⟨.add, 2, 0, .sell, 101, 7, 1⟩

/-- The publisher finds the ring full, and the engine writes on as soon as it has a slot. -/
def lateTraffic : List StreamTurn :=
  List.replicate ME_MAX_MARKET_UPDATES (.engine firstUpdate) ++
    [.publisher, .publisher, .publisher, .engine lateUpdate, .publisher]

/-- The first message of the snapshot queue is not the first update. -/
theorem twin_streams_fails : ∃ s es, execute TwinStreams.step .create lateTraffic = .ok (s, es) ∧
    TwinStreams.sending es = [⟨1, firstUpdate⟩] ∧ TwinStreams.copied es = [⟨1, lateUpdate⟩] ∧
    ¬TwinStreams.StreamsAgree lateTraffic := by
  obtain ⟨ring, hring, hread, hunread, hfill⟩ := execute_fill firstUpdate (n := ME_MAX_MARKET_UPDATES) le_rfl
  have hcount : ring.numElements = ME_MAX_MARKET_UPDATES := by
    rw [← ring.length_unread, hunread, List.length_replicate]
  have hne : ring.numElements ≠ 0 := by
    rw [hcount]
    decide
  obtain ⟨ring', hupdate, hsound, hstore, hless, hread', hrest⟩ := hring.updateReadIndex (by decide) hne
  have hfirst : ring.store 0 = firstUpdate := by
    rw [hread, hunread] at hrest
    exact List.eq_of_mem_replicate (hrest ▸ List.mem_cons_self)
  have hwriteIndex : ring'.nextWriteIndex = 0 := by
    have hround : 0 + 1 + ring'.numElements = ME_MAX_MARKET_UPDATES := by omega
    rw [hsound.writeIndex, hread', hread, Nat.mod_add_mod, hround, Nat.mod_self]
  have hfound : TwinStreams.step ⟨ring, .idle, 1⟩ .publisher = .ok (⟨ring, .found 0, 1⟩, []) := by
    simp only [TwinStreams.step, LFQueue.getNextToRead, if_pos hne, hread, pure_eq_ok]
  have hsent : TwinStreams.step ⟨ring, .found 0, 1⟩ .publisher =
      .ok (⟨ring, .sent 0, 1⟩, [.sending ⟨1, firstUpdate⟩]) := by
    simp only [TwinStreams.step, hfirst, pure_eq_ok]
  have hreleased : TwinStreams.step ⟨ring, .sent 0, 1⟩ .publisher = .ok (⟨ring', .released 0, 1⟩, []) := by
    simp only [TwinStreams.step, hupdate, ok_bind, pure_eq_ok]
  have hwrite : TwinStreams.step ⟨ring', .released 0, 1⟩ (.engine lateUpdate) =
      .ok (⟨ring'.write lateUpdate, .released 0, 1⟩, [.written lateUpdate]) := by
    have hroom : ring'.numElements < ring'.capacity := by
      rw [hsound.capacity]
      omega
    simp only [TwinStreams.step, if_pos hroom, pure_eq_ok]
  have hcopied : TwinStreams.step ⟨ring'.write lateUpdate, .released 0, 1⟩ .publisher =
      .ok (⟨ring'.write lateUpdate, .idle, wrap64 (1 + 1)⟩, [.copied ⟨1, lateUpdate⟩]) := by
    simp only [TwinStreams.step, LFQueue.write, hwriteIndex, Function.update_self, pure_eq_ok]
  have hrun := execute_append hfill (execute_cons hfound (execute_cons hsent (execute_cons hreleased
    (execute_cons hwrite (execute_cons hcopied (execute_nil _))))))
  have hwritten : TwinStreams.written (List.replicate ME_MAX_MARKET_UPDATES (.written firstUpdate)) =
      List.replicate ME_MAX_MARKET_UPDATES firstUpdate := List.filterMap_replicate_of_some rfl
  have hnone : TwinStreams.copied (List.replicate ME_MAX_MARKET_UPDATES (.written firstUpdate)) = [] :=
    List.filterMap_replicate_of_none rfl
  have hnone' : TwinStreams.sending (List.replicate ME_MAX_MARKET_UPDATES (.written firstUpdate)) = [] :=
    List.filterMap_replicate_of_none rfl
  refine ⟨_, _, hrun, ?_, ?_, fun hagree => ?_⟩
  · rw [TwinStreams.sending_append, hnone']
    rfl
  · rw [TwinStreams.copied_append, hnone]
    rfl
  · obtain ⟨rest, hprefix⟩ := (hagree _ _ _ (List.prefix_refl _) hrun).1
    have hmany : ME_MAX_MARKET_UPDATES = 262143 + 1 := rfl
    rw [TwinStreams.copied_append, TwinStreams.written_append, hnone, hwritten, hmany, List.replicate_succ] at hprefix
    have hhead := (List.cons.inj hprefix).1
    exact absurd hhead (by decide)

/-- An update that is copied before the next one is written. -/
theorem twin_streams_unhurried : TwinStreams.StreamsAgree
    [.engine firstUpdate, .publisher, .publisher, .publisher, .publisher, .engine lateUpdate] := by
  have hrun : execute TwinStreams.step .create
      [.engine firstUpdate, .publisher, .publisher, .publisher, .publisher, .engine lateUpdate] = .ok _ := rfl
  refine (twin_streams hrun).mpr (never_cons ?_ fun s es hstep => ?_)
  · rintro ⟨slot, hpublisher, -⟩
    cases hpublisher
  cases hstep
  apply never_cons not_false
  intro s es hstep
  cases hstep
  apply never_cons not_false
  intro s es hstep
  cases hstep
  apply never_cons not_false
  intro s es hstep
  cases hstep
  apply never_cons not_false
  intro s es hstep
  cases hstep
  refine never_cons ?_ fun s es hstep => never_nil
  rintro ⟨slot, hpublisher, -⟩
  cases hpublisher

end LowLatencyExchange
