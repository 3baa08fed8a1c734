import LowLatencyExchange.Common.Handoff
import LowLatencyExchange.Common.LogFormat

/-!
# From the calls of `log` to the file

`Common::Logger` with its two threads: the owner pushes the elements of its calls, `flushQueue` writes
them to the file, and the destructor waits for an empty queue before it stops the other thread. As long as
nothing is pushed onto a full queue, the file is what the calls asked for.
-/

namespace LowLatencyExchange
open LoggedRun LogFormat

def LOG_QUEUE_SIZE : Nat := 8388608

/-- Where the owner's thread is: between the calls of `log` or in one, or in `~Logger`. -/
inductive LogOwner
  | logging
  | waiting
  | joining
  | closed
  deriving DecidableEq, Repr

/-- Where `flushQueue` is. An element is written before `updateReadIndex` gives it up. -/
inductive Flusher
  | running
  | reading
  | written
  | exited
  deriving DecidableEq, Repr

structure LogFile where
  queue : LFQueue LogFormat.LogElement := .create (.char '\x00') LOG_QUEUE_SIZE
  running : Bool := true
  owner : LogOwner := .logging
  pushing : List LogFormat.LogElement := []
  flusher : Flusher := .running
  file : List Char := []

/-- A call of `log`, the next `pushValue` of it, the next step of `~Logger`, and the next step of `flushQueue`. -/
inductive LogAction
  | call (format : List Char) (args : List LogArg)
  | push
  | owner
  | flusher

namespace LogFile
variable (number : LogFormat.LogElement → List Char)

/-- `file_ << next->u_`. How the stream spells numbers is `number`. -/
def spelled : LogFormat.LogElement → List Char
  | .char c => [c]
  | e => number e

def text (es : List LogFormat.LogElement) : List Char := es.flatMap (spelled number)

def push (s : LogFile) : LogFile :=
  match s.pushing with
  | [] => s
  | e :: pushing => { s with queue := s.queue.write e, pushing := pushing }

/-- `~Logger`. -/
def destroy (s : LogFile) : LogFile :=
  match s.owner with
  | .logging => { s with owner := .waiting }
  | .waiting => if s.queue.numElements ≠ 0 then s else { s with running := false, owner := .joining }
  | .joining => if s.flusher = .exited then { s with owner := .closed } else s
  | .closed => s

/-- `flushQueue`. -/
def flushQueue (s : LogFile) : Except Fault LogFile :=
  match s.flusher with
  | .running => pure { s with flusher := if s.running then .reading else .exited }
  | .reading =>
    match s.queue.getNextToRead with
    | none => pure { s with flusher := .running }
    | some slot => pure { s with file := s.file ++ spelled number (s.queue.store slot), flusher := .written }
  | .written => do
    let queue ← s.queue.updateReadIndex
    pure { s with queue := queue, flusher := .reading }
  | .exited => pure s

/-- An action, and the elements that a call asks for. -/
def step (s : LogFile) : LogAction → Except Fault (LogFile × List LogFormat.LogElement)
  | .call format args => do
    let pushed ← LogFormat.log format args
    pure ({ s with pushing := pushed }, pushed)
  | .push => pure (s.push, [])
  | .owner => pure (s.destroy, [])
  | .flusher => do
    let s ← s.flushQueue number
    pure (s, [])

/-- A call begins after the one before it, the destructor after all of them, and a push finds a free slot. -/
def Allowed (s : LogFile) : LogAction → Prop
  | .call .. => s.owner = .logging ∧ s.pushing = []
  | .push => s.pushing ≠ [] → s.queue.numElements < LOG_QUEUE_SIZE
  | .owner => s.owner = .logging → s.pushing = []
  | .flusher => True

instance (s : LogFile) : (a : LogAction) → Decidable (s.Allowed a)
  | .call .. => inferInstanceAs (Decidable (_ ∧ _))
  | .push => inferInstanceAs (Decidable (_ → _))
  | .owner => inferInstanceAs (Decidable (_ → _))
  | .flusher => inferInstanceAs (Decidable True)

/-- What is on its way to the file. -/
def unwritten (s : LogFile) : List LogFormat.LogElement :=
  (if s.flusher = .written then s.queue.unread.tail else s.queue.unread) ++ s.pushing

/-- The file and what is on its way to it are what the calls asked for, and the threads end in order. -/
structure Keeps (asked : List LogFormat.LogElement) (s : LogFile) : Prop where
  sound : LFQueue.Sound LOG_QUEUE_SIZE s.queue
  text : s.file ++ text number s.unwritten = text number asked
  counted : s.flusher = .written → s.queue.numElements ≠ 0
  pushed : s.owner ≠ .logging → s.pushing = []
  running : s.running = true ↔ s.owner = .logging ∨ s.owner = .waiting
  drained : s.running = false → s.queue.numElements = 0
  exited : s.flusher = .exited → s.running = false
  joined : s.owner = .closed → s.flusher = .exited

variable {number} {s s' : LogFile} {asked : List LogFormat.LogElement}

lemma text_append (es es' : List LogFormat.LogElement) : text number (es ++ es') = text number es ++ text number es' :=
  List.flatMap_append

lemma keeps_open : Keeps number [] {} where
  sound := LFQueue.sound_create _ (by decide)
  text := rfl
  counted := fun h => by cases h
  pushed := fun _ => rfl
  running := by decide
  drained := fun h => by cases h
  exited := fun h => by cases h
  joined := fun h => by cases h

lemma Keeps.call (h : Keeps number asked s) (hlogging : s.owner = .logging) (hpushing : s.pushing = [])
    (pushed : List LogFormat.LogElement) : Keeps number (asked ++ pushed) { s with pushing := pushed } where
  sound := h.sound
  text := by
    have htext := h.text
    unfold unwritten at htext ⊢
    rw [hpushing, List.append_nil] at htext
    rw [text_append, text_append, ← htext, List.append_assoc]
  counted := h.counted
  pushed := fun hne => absurd hlogging hne
  running := h.running
  drained := h.drained
  exited := h.exited
  joined := h.joined

lemma Keeps.push (h : Keeps number asked s) (hroom : s.pushing ≠ [] → s.queue.numElements < LOG_QUEUE_SIZE) :
    Keeps number asked s.push := by
  unfold LogFile.push
  cases hpushing : s.pushing with
  | nil => exact h
  | cons e pushing =>
    have hne : s.pushing ≠ [] := fun hnil => by rw [hnil] at hpushing; cases hpushing
    obtain ⟨hsound, hcount, hunread⟩ := h.sound.write (by decide) (hroom hne) e
    have hlogging : s.owner = .logging := by
      by_contra howner
      exact hne (h.pushed howner)
    have hunwritten : unwritten { s with queue := s.queue.write e, pushing := pushing } = s.unwritten := by
      unfold unwritten
      dsimp only
      rw [hpushing, hunread]
      split
      · rename_i hwritten
        have hsome : s.queue.unread ≠ [] := by
          intro hnil
          have hlength := s.queue.length_unread
          rw [hnil] at hlength
          exact h.counted hwritten hlength.symm
        rw [List.tail_append_of_ne_nil hsome, List.append_assoc, List.singleton_append]
      · rw [List.append_assoc, List.singleton_append]
    refine ⟨hsound, ?_, fun _ => ?_, fun howner => absurd hlogging howner, h.running, fun hstopped => ?_, h.exited,
      h.joined⟩
    · rw [hunwritten]
      exact h.text
    · rw [hcount]
      exact Nat.succ_ne_zero _
    · have hrunning := h.running.mpr (.inl hlogging)
      rw [show s.running = false from hstopped] at hrunning
      cases hrunning

lemma Keeps.destroy (h : Keeps number asked s) (hdone : s.owner = .logging → s.pushing = []) :
    Keeps number asked s.destroy := by
  unfold LogFile.destroy
  cases howner : s.owner with
  | logging =>
    refine ⟨h.sound, h.text, h.counted, fun _ => hdone howner, ?_, h.drained, h.exited, fun hclosed => ?_⟩
    · have hrunning := h.running.mpr (.inl howner)
      simp [hrunning]
    · cases hclosed
  | waiting =>
    dsimp only
    split
    · exact h
    · rename_i hempty
      refine ⟨h.sound, h.text, h.counted, fun _ => h.pushed (by rw [howner]; decide), by simp,
        fun _ => not_not.mp hempty, fun _ => rfl, fun hclosed => ?_⟩
      cases hclosed
  | joining =>
    dsimp only
    have hstopped : s.running = false := by
      rw [← Bool.not_eq_true, h.running, howner]
      decide
    split
    · rename_i hexited
      exact ⟨h.sound, h.text, h.counted, fun _ => h.pushed (by rw [howner]; decide), by simp [hstopped], h.drained,
        h.exited, fun _ => hexited⟩
    · exact h
  | closed => exact h

/-- The element that is written next is the first one on its way. -/
lemma Keeps.unread_eq (h : Keeps number asked s) (hne : s.queue.numElements ≠ 0) :
    s.queue.unread = s.queue.store s.queue.nextReadIndex :: s.queue.unread.tail := by
  obtain ⟨q, -, -, -, -, -, hunread⟩ := h.sound.updateReadIndex (by decide) hne
  rw [hunread, List.tail_cons]

lemma Keeps.writes (h : Keeps number asked s) (hreading : s.flusher = .reading) (hne : s.queue.numElements ≠ 0) :
    Keeps number asked
      { s with file := s.file ++ spelled number (s.queue.store s.queue.nextReadIndex), flusher := .written } where
  sound := h.sound
  text := by
    have htext := h.text
    unfold unwritten at htext ⊢
    rw [if_neg (by rw [hreading]; decide), h.unread_eq hne] at htext
    rw [← htext, List.append_assoc]
    rfl
  counted := fun _ => hne
  pushed := h.pushed
  running := h.running
  drained := h.drained
  exited := fun hexited => by cases hexited
  joined := fun hclosed => by
    have hexited := h.joined hclosed
    rw [hreading] at hexited
    cases hexited

lemma Keeps.givesUp (h : Keeps number asked s) (hwritten : s.flusher = .written) :
    ∃ q, s.queue.updateReadIndex = .ok q ∧ q.numElements + 1 = s.queue.numElements ∧
      Keeps number asked { s with queue := q, flusher := .reading } := by
  have hne := h.counted hwritten
  obtain ⟨q, hupdate, hsound, -, hcount, -, hunread⟩ := h.sound.updateReadIndex (by decide) hne
  refine ⟨q, hupdate, hcount, hsound, ?_, fun hreading => ?_, h.pushed, h.running, fun hstopped => ?_,
    fun hexited => ?_, fun hclosed => ?_⟩
  · have htext := h.text
    unfold unwritten at htext ⊢
    rw [if_pos hwritten, hunread, List.tail_cons] at htext
    exact htext
  · cases hreading
  · exact absurd (h.drained hstopped) hne
  · cases hexited
  · have hexited := h.joined hclosed
    rw [hwritten] at hexited
    cases hexited

lemma Keeps.turns (h : Keeps number asked s) {flusher : Flusher} (hwritten : s.flusher ≠ .written)
    (hexited : s.flusher ≠ .exited) (hnext : flusher ≠ .written) (hstops : flusher = .exited → s.running = false) :
    Keeps number asked { s with flusher := flusher } where
  sound := h.sound
  text := by
    have htext := h.text
    unfold unwritten at htext ⊢
    rw [if_neg hwritten] at htext
    rw [if_neg hnext]
    exact htext
  counted := fun he => absurd he hnext
  pushed := h.pushed
  running := h.running
  drained := h.drained
  exited := hstops
  joined := fun hclosed => absurd (h.joined hclosed) hexited

/-- `flushQueue` never trips over the assertion of `updateReadIndex`. -/
lemma Keeps.flushQueue (h : Keeps number asked s) : ∃ s', s.flushQueue number = .ok s' ∧ Keeps number asked s' := by
  unfold LogFile.flushQueue
  cases hflusher : s.flusher with
  | running =>
    refine ⟨_, rfl, h.turns (by rw [hflusher]; decide) (by rw [hflusher]; decide) ?_ fun hexited => ?_⟩
    · split <;> decide
    · by_contra hrunning
      rw [if_pos (by simpa using hrunning)] at hexited
      cases hexited
  | reading =>
    dsimp only
    unfold LFQueue.getNextToRead
    by_cases hne : s.queue.numElements ≠ 0
    · rw [if_pos hne]
      exact ⟨_, rfl, h.writes hflusher hne⟩
    · rw [if_neg hne]
      exact ⟨_, rfl, h.turns (by rw [hflusher]; decide) (by rw [hflusher]; decide) (by decide)
        fun hexited => by cases hexited⟩
  | written =>
    obtain ⟨q, hupdate, -, hkeeps⟩ := h.givesUp hflusher
    dsimp only
    rw [hupdate, ok_bind]
    exact ⟨_, rfl, hkeeps⟩
  | exited => exact ⟨s, rfl, h⟩

lemma step_flusher (h : s.flushQueue number = .ok s') : step number s .flusher = .ok (s', []) := by
  unfold step
  rw [h]
  rfl

end LogFile

/-- The runs of a logger with one calling thread, under every schedule. -/
abbrev LoggerRun (number : LogFormat.LogElement → List Char) :
    List (LogAction × List LogFormat.LogElement) → LogFile → Prop :=
  Reached (LogFile.step number) (fun _ s a _ => s.Allowed a) {}

namespace LogFile
variable {number : LogFormat.LogElement → List Char} {s : LogFile} {log : List (LogAction × List LogFormat.LogElement)}

lemma LoggerRun.keeps (h : LoggerRun number log s) : Keeps number (sent log) s := by
  apply h.invariant fun log s => Keeps number (sent log) s
  · exact keeps_open
  · intro log s a s' es hkeeps hallowed hrun
    rw [sent_append, sent_singleton]
    cases a with
    | call format args =>
      obtain ⟨pushed, -, hrun⟩ := bind_eq_ok hrun
      cases hrun
      exact hkeeps.call hallowed.1 hallowed.2 _
    | push =>
      cases hrun
      rw [List.append_nil]
      exact hkeeps.push hallowed
    | owner =>
      cases hrun
      rw [List.append_nil]
      exact hkeeps.destroy hallowed
    | flusher =>
      obtain ⟨s₁, hflush, hkeeps'⟩ := hkeeps.flushQueue
      have hstep := step_flusher hflush
      obtain ⟨rfl, rfl⟩ := Prod.mk.inj (Except.ok.inj (hstep.symm.trans hrun))
      rw [List.append_nil]
      exact hkeeps'

end LogFile

end LowLatencyExchange
