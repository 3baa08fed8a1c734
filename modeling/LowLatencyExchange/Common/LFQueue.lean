import LowLatencyExchange.Common.Types
import LowLatencyExchange.Library.Run
import Mathlib.Data.List.Infix
import Mathlib.Data.Nat.ModEq

/-!
# The lock-free queue

`Common::LFQueue` between one producer and one consumer. Each load, store, increment and
decrement of an atomic and each copy of an element is one step, and the two threads take
their steps in any order. A thread's state is the point its code has reached, with the index
it has loaded.
-/

namespace LowLatencyExchange
open LoggedRun

structure LFQueue (T : Type) where
  store : Nat → T
  capacity : Nat
  nextWriteIndex : Nat
  nextReadIndex : Nat
  numElements : Nat

/-- `LFQueue(num_elems)`. -/
def LFQueue.create {T : Type} (default : T) (numElems : Nat) : LFQueue T :=
  ⟨fun _ => default, numElems, 0, 0, 0⟩

/-- `getNextToWriteTo`, the store through its pointer, and `updateWriteIndex`. -/
inductive Producer
  | idle
  | writing (slot : Nat)
  | stored
  | advancing (index : Nat)
  | advanced
  deriving DecidableEq, Repr

/-- `getNextToRead`, the copy through its pointer, and `updateReadIndex`. -/
inductive Consumer
  | idle
  | found
  | reading (slot : Nat)
  | copied
  | asserted
  | advancing (index : Nat)
  | advanced
  deriving DecidableEq, Repr

/-- The accesses to the elements. -/
inductive Access (T : Type)
  | stored (slot : Nat) (x : T)
  | copied (slot : Nat) (x : T)
  deriving DecidableEq, Repr

def Access.stored? {T : Type} : Access T → Option (Nat × T)
  | .stored slot x => some (slot, x)
  | .copied .. => none

def Access.copied? {T : Type} : Access T → Option (Nat × T)
  | .stored .. => none
  | .copied slot x => some (slot, x)

/-- The elements stored, and those copied out, each with its slot, in order. -/
def stores {T : Type} (es : List (Access T)) : List (Nat × T) := es.filterMap Access.stored?
def copies {T : Type} (es : List (Access T)) : List (Nat × T) := es.filterMap Access.copied?

/-- The queue and the two threads that share it. -/
structure Channel (T : Type) where
  queue : LFQueue T
  producer : Producer := .idle
  consumer : Consumer := .idle

namespace Channel
variable {T : Type}

/-- The next step of the producer, which has `x` to write. It starts only when there is room. -/
def produce (s : Channel T) (x : T) : Channel T × List (Access T) :=
  let q := s.queue
  match s.producer with
  | .idle =>
    if q.numElements < q.capacity then ({ s with producer := .writing q.nextWriteIndex }, [])
    else (s, [])
  | .writing slot =>
    ({ s with queue := { q with store := Function.update q.store slot x }, producer := .stored },
      [.stored slot x])
  | .stored => ({ s with producer := .advancing q.nextWriteIndex }, [])
  | .advancing index =>
    ({ s with
        queue := { q with nextWriteIndex := wrap64 (index + 1) % q.capacity }
        producer := .advanced }, [])
  | .advanced =>
    ({ s with queue := { q with numElements := wrap64 (q.numElements + 1) }, producer := .idle }, [])

/-- The next step of the consumer. `getNextToRead` gives no pointer when `size()` is zero. -/
def consume (s : Channel T) : Except Fault (Channel T × List (Access T)) :=
  let q := s.queue
  match s.consumer with
  | .idle =>
    if q.numElements ≠ 0 then pure ({ s with consumer := .found }, []) else pure (s, [])
  | .found => pure ({ s with consumer := .reading q.nextReadIndex }, [])
  | .reading slot => pure ({ s with consumer := .copied }, [.copied slot (q.store slot)])
  | .copied => do
    assertThat (q.numElements ≠ 0) "Read an invalid element in: "
    pure ({ s with consumer := .asserted }, [])
  | .asserted => pure ({ s with consumer := .advancing q.nextReadIndex }, [])
  | .advancing index =>
    pure ({ s with
        queue := { q with nextReadIndex := wrap64 (index + 1) % q.capacity }
        consumer := .advanced }, [])
  | .advanced =>
    pure ({ s with
        queue := { q with numElements := wrap64 (q.numElements + 18446744073709551615) }
        consumer := .idle }, [])

end Channel

/-- Whose turn it is. -/
inductive Turn (T : Type)
  | producer (x : T)
  | consumer
  deriving DecidableEq, Repr

def Channel.step {T : Type} (s : Channel T) : Turn T → Except Fault (Channel T × List (Access T))
  | .producer x => pure (s.produce x)
  | .consumer => s.consume

/-- The runs of a fresh queue, under every schedule. -/
abbrev ChannelRun {T : Type} (default : T) (capacity : Nat)
    (log : List (Turn T × List (Access T))) (s : Channel T) : Prop :=
  Reached Channel.step (fun _ _ _ _ => True) ⟨LFQueue.create default capacity, .idle, .idle⟩ log s

/-- An element is stored, and `next_write_index_` has not passed it yet. -/
def Producer.unadvanced : Producer → Nat
  | .stored | .advancing _ => 1
  | _ => 0

/-- An element is stored, and `num_elements` does not count it yet. -/
def Producer.uncounted : Producer → Nat
  | .stored | .advancing _ | .advanced => 1
  | _ => 0

/-- An element is copied, and `next_read_index_` has not passed it yet. -/
def Consumer.unadvanced : Consumer → Nat
  | .copied | .asserted | .advancing _ => 1
  | _ => 0

/-- An element is copied, and `num_elements` still counts it. -/
def Consumer.uncounted : Consumer → Nat
  | .copied | .asserted | .advancing _ | .advanced => 1
  | _ => 0

namespace Channel
variable {T : Type} {N : Nat} {s s' : Channel T}

/-- The count and the two indices, when `stored` elements were stored and `copied` were
copied out. -/
structure Counters (N : Nat) (s : Channel T) (stored copied : Nat) : Prop where
  capacity : s.queue.capacity = N
  writeIndex : ∃ w, w + s.producer.unadvanced = stored ∧ s.queue.nextWriteIndex = w % N
  readIndex : ∃ r, r + s.consumer.unadvanced = copied ∧ s.queue.nextReadIndex = r % N
  count : stored + s.consumer.uncounted = s.queue.numElements + copied + s.producer.uncounted
  counted : copied + s.producer.uncounted ≤ stored
  fits : stored + s.consumer.uncounted ≤ copied + N
  room : ∀ slot, s.producer = .writing slot → stored + s.consumer.uncounted < copied + N
  nonempty : s.consumer = .found ∨ (∃ slot, s.consumer = .reading slot) →
    copied + s.producer.uncounted < stored
  writing : ∀ slot, s.producer = .writing slot → slot = s.queue.nextWriteIndex
  writeAdvancing : ∀ i, s.producer = .advancing i → i = s.queue.nextWriteIndex
  reading : ∀ slot, s.consumer = .reading slot → slot = s.queue.nextReadIndex
  readAdvancing : ∀ i, s.consumer = .advancing i → i = s.queue.nextReadIndex

/-- The elements between the copies and the stores are still in the slots they were stored in. -/
structure Holds (N : Nat) (s : Channel T) (ws rs : List (Nat × T)) : Prop where
  counters : Counters N s ws.length rs.length
  slots : ∀ k w, ws[k]? = some w → w.1 = k % N
  unread : ∀ k w, rs.length ≤ k → ws[k]? = some w → s.queue.store w.1 = w.2
  fifo : rs <+: ws

/-- Two positions less than a round apart have different slots. -/
lemma slot_ne {k p : Nat} (hk : k < p) (hp : p < k + N) : p % N ≠ k % N := by
  intro h
  have hdvd : N ∣ p - k := (Nat.modEq_iff_dvd' hk.le).mp h.symm
  exact absurd (Nat.le_of_dvd (by omega) hdvd) (by omega)

/-- An index that has counted `w` elements counts one more. -/
lemma advance_index {i w : Nat} (hi : i = w % N) (hpos : 0 < N) (hN : N < 18446744073709551616) :
    wrap64 (i + 1) % N = (w + 1) % N := by
  have hlt : i < N := hi ▸ Nat.mod_lt w hpos
  rw [wrap64_of_lt (by omega), hi, Nat.mod_add_mod]

/-- The decrement of a positive count. -/
lemma wrap64_pred {n : Nat} (hpos : 0 < n) (hn : n < 18446744073709551616) :
    wrap64 (n + 18446744073709551615) = n - 1 := by
  have hsum : n + 18446744073709551615 = n - 1 + 18446744073709551616 := by omega
  rw [wrap64, hsum, Nat.add_mod_right]
  exact Nat.mod_eq_of_lt (by omega)

lemma holds_create (default : T) (N : Nat) : Holds N ⟨LFQueue.create default N, .idle, .idle⟩ [] [] := by
  refine ⟨⟨rfl, ⟨0, rfl, (Nat.zero_mod N).symm⟩, ⟨0, rfl, (Nat.zero_mod N).symm⟩, rfl, le_rfl, ?_, ?_, ?_,
    ?_, ?_, ?_, ?_⟩, ?_, ?_, List.nil_prefix⟩
  · exact Nat.zero_le _
  all_goals simp

lemma getElem?_concat {α : Type} {l : List α} {a b : α} {k : Nat} (h : (l ++ [a])[k]? = some b) :
    l[k]? = some b ∨ (k = l.length ∧ b = a) := by
  rcases Nat.lt_or_ge k l.length with hk | hk
  · rw [List.getElem?_append_left hk] at h
    exact .inl h
  · rw [List.getElem?_append_right hk, List.getElem?_singleton] at h
    split at h
    · exact .inr ⟨by omega, (Option.some.inj h).symm⟩
    · cases h

/-- Steps that touch no element leave the elements alone. -/
lemma Holds.congr {ws rs : List (Nat × T)} (h : Holds N s ws rs)
    (hstore : s'.queue.store = s.queue.store) (hcounters : Counters N s' ws.length rs.length) :
    Holds N s' ws rs where
  counters := hcounters
  slots := h.slots
  unread := fun k w hk hw => by
    rw [hstore]
    exact h.unread k w hk hw
  fifo := h.fifo

/-- The slot that the producer writes to is the one after the last element stored. -/
lemma Counters.writeSlot {stored copied slot : Nat} (hc : Counters N s stored copied)
    (hwriting : s.producer = .writing slot) : slot = stored % N := by
  obtain ⟨w, hw, hindex⟩ := hc.writeIndex
  rw [hwriting] at hw
  obtain rfl : w = stored := hw
  rw [hc.writing slot hwriting]
  exact hindex

/-- The slot that the consumer copies from is the one after the last element copied. -/
lemma Counters.readSlot {stored copied slot : Nat} (hc : Counters N s stored copied)
    (hreading : s.consumer = .reading slot) : slot = copied % N := by
  obtain ⟨r, hr, hindex⟩ := hc.readIndex
  rw [hreading] at hr
  obtain rfl : r = copied := hr
  rw [hc.reading slot hreading]
  exact hindex

/-- An element that has not been copied out yet is not in the slot being written. -/
lemma Holds.slot_free {ws rs : List (Nat × T)} (h : Holds N s ws rs) {slot : Nat}
    (hwriting : s.producer = .writing slot) {k : Nat} {w : Nat × T} (hk : rs.length ≤ k)
    (hw : ws[k]? = some w) : w.1 ≠ slot := by
  have hroom := h.counters.room slot hwriting
  have hlt : k < ws.length := (List.getElem?_eq_some_iff.mp hw).1
  rw [h.slots k w hw, h.counters.writeSlot hwriting]
  exact (slot_ne hlt (by omega)).symm

lemma Holds.produce {ws rs : List (Nat × T)} (h : Holds N s ws rs) (hpos : 0 < N)
    (hN : N < 18446744073709551616) (x : T) :
    Holds N (s.produce x).1 (ws ++ stores (s.produce x).2) (rs ++ copies (s.produce x).2) := by
  have hc := h.counters
  have hcount := hc.count
  have hcounted := hc.counted
  have hfits := hc.fits
  have hcapacity := hc.capacity
  obtain ⟨w, hw, hindex⟩ := hc.writeIndex
  obtain ⟨q, producer, consumer⟩ := s
  dsimp only at hcapacity
  cases producer with
  | idle =>
    unfold Channel.produce
    dsimp only
    split
    · simp only [stores, copies, List.filterMap_nil, List.append_nil]
      refine h.congr rfl ⟨hcapacity, hc.writeIndex, hc.readIndex, hcount, hcounted, hfits, fun _ _ => ?_,
        hc.nonempty, fun _ he => (Producer.writing.inj he).symm, nofun, hc.reading, hc.readAdvancing⟩
      simp only [Producer.uncounted] at hcount ⊢
      omega
    · simpa [stores, copies] using h
  | writing slot =>
    have hroom := hc.room slot rfl
    simp only [Channel.produce, stores, copies, List.filterMap_cons, Access.stored?, Access.copied?,
      List.filterMap_nil, List.append_nil]
    refine ⟨⟨hcapacity, ⟨w, ?_, hindex⟩, hc.readIndex, ?_, ?_, ?_, nofun, fun hfound => ?_, nofun, nofun,
      hc.reading, hc.readAdvancing⟩, fun k e he => ?_, fun k e hk he => ?_, ?_⟩
    · simpa [Producer.unadvanced] using hw
    · simp only [Producer.uncounted, List.length_append, List.length_singleton] at hcount ⊢
      omega
    · simp only [Producer.uncounted, List.length_append, List.length_singleton] at hcounted ⊢
      omega
    · rw [List.length_append, List.length_singleton]
      dsimp only at hroom ⊢
      omega
    · have hstrict := hc.nonempty hfound
      simp only [Producer.uncounted, List.length_append, List.length_singleton] at hstrict ⊢
      omega
    · rcases getElem?_concat he with he | ⟨rfl, rfl⟩
      · exact h.slots k e he
      · exact hc.writeSlot rfl
    · rcases getElem?_concat he with he | ⟨rfl, rfl⟩
      · have hold := h.unread k e hk he
        have hne := h.slot_free rfl hk he
        exact (Function.update_of_ne hne x q.store).trans hold
      · exact Function.update_self slot x q.store
    · exact h.fifo.trans (List.prefix_append ws _)
  | stored =>
    simp only [Channel.produce, stores, copies, List.filterMap_nil, List.append_nil]
    exact h.congr rfl ⟨hcapacity, hc.writeIndex, hc.readIndex, hcount, hcounted, hfits, nofun, hc.nonempty,
      nofun, fun _ he => (Producer.advancing.inj he).symm, hc.reading, hc.readAdvancing⟩
  | advancing index =>
    obtain rfl : index = q.nextWriteIndex := hc.writeAdvancing index rfl
    simp only [Channel.produce, stores, copies, List.filterMap_nil, List.append_nil]
    refine h.congr rfl ⟨hcapacity, ⟨w + 1, hw, ?_⟩, hc.readIndex, hcount, hcounted, hfits, nofun,
      hc.nonempty, nofun, nofun, hc.reading, hc.readAdvancing⟩
    dsimp only at hindex ⊢
    rw [hcapacity]
    exact advance_index hindex hpos hN
  | advanced =>
    simp only [Channel.produce, stores, copies, List.filterMap_nil, List.append_nil]
    have hwrap : wrap64 (q.numElements + 1) = q.numElements + 1 := by
      apply wrap64_of_lt
      simp only [Producer.uncounted] at hcount hcounted hfits
      omega
    refine h.congr rfl ⟨hcapacity, hc.writeIndex, hc.readIndex, ?_, ?_, hfits, nofun, fun hfound => ?_,
      nofun, nofun, hc.reading, hc.readAdvancing⟩
    · rw [hwrap]
      simp only [Producer.uncounted] at hcount ⊢
      omega
    · simp only [Producer.uncounted] at hcounted ⊢
      omega
    · have hstrict := hc.nonempty hfound
      simp only [Producer.uncounted] at hstrict ⊢
      omega

/-- Every step of the consumer returns: the `ASSERT` finds the element it has just copied. -/
lemma Holds.consume {ws rs : List (Nat × T)} (h : Holds N s ws rs) (hpos : 0 < N)
    (hN : N < 18446744073709551616) :
    ∃ s' es, s.consume = .ok (s', es) ∧ Holds N s' (ws ++ stores es) (rs ++ copies es) := by
  have hc := h.counters
  have hcount := hc.count
  have hcounted := hc.counted
  have hfits := hc.fits
  have hcapacity := hc.capacity
  obtain ⟨r, hr, hindex⟩ := hc.readIndex
  obtain ⟨q, producer, consumer⟩ := s
  dsimp only at hcapacity
  cases consumer with
  | idle =>
    unfold Channel.consume
    dsimp only
    split
    · refine ⟨_, [], rfl, ?_⟩
      simp only [stores, copies, List.filterMap_nil, List.append_nil]
      refine h.congr rfl ⟨hcapacity, hc.writeIndex, hc.readIndex, hcount, hcounted, hfits, hc.room,
        fun _ => ?_, hc.writing, hc.writeAdvancing, nofun, nofun⟩
      simp only [Consumer.uncounted] at hcount
      dsimp only
      omega
    · exact ⟨_, [], rfl, by simpa [stores, copies] using h⟩
  | found =>
    refine ⟨_, [], rfl, ?_⟩
    simp only [stores, copies, List.filterMap_nil, List.append_nil]
    exact h.congr rfl ⟨hcapacity, hc.writeIndex, hc.readIndex, hcount, hcounted, hfits, hc.room,
      fun _ => hc.nonempty (.inl rfl), hc.writing, hc.writeAdvancing,
      fun _ he => (Consumer.reading.inj he).symm, nofun⟩
  | reading slot =>
    have hstrict := hc.nonempty (.inr ⟨slot, rfl⟩)
    dsimp only at hstrict
    have hlt : rs.length < ws.length := by omega
    refine ⟨_, _, rfl, ?_⟩
    simp only [stores, copies, List.filterMap_cons, Access.stored?, Access.copied?, List.filterMap_nil,
      List.append_nil]
    obtain ⟨e, he⟩ : ∃ e, ws[rs.length]? = some e := ⟨_, List.getElem?_eq_getElem hlt⟩
    have hslot : e.1 = slot := (h.slots _ e he).trans (hc.readSlot rfl).symm
    have hcopy : e = (slot, q.store slot) := by
      rw [← hslot, h.unread _ e le_rfl he]
    subst hcopy
    refine ⟨⟨hcapacity, hc.writeIndex, ⟨r, ?_, hindex⟩, ?_, ?_, ?_, fun slot' hwriting => ?_, nofun, hc.writing,
      hc.writeAdvancing, nofun, nofun⟩, h.slots, fun k w hk hw => ?_, ?_⟩
    · simpa [Consumer.unadvanced] using hr
    · simp only [Consumer.uncounted, List.length_append, List.length_singleton] at hcount ⊢
      omega
    · rw [List.length_append, List.length_singleton]
      dsimp only
      omega
    · simp only [Consumer.uncounted, List.length_append, List.length_singleton] at hfits ⊢
      omega
    · have hroom := hc.room slot' hwriting
      simp only [Consumer.uncounted, List.length_append, List.length_singleton] at hroom ⊢
      omega
    · rw [List.length_append, List.length_singleton] at hk
      exact h.unread k w (by omega) hw
    · obtain ⟨later, rfl⟩ := h.fifo
      rw [List.getElem?_append_right le_rfl, Nat.sub_self] at he
      cases later with
      | nil => cases he
      | cons e later =>
        cases he
        exact ⟨later, by rw [List.append_assoc, List.singleton_append]⟩
  | copied =>
    have hnonzero : q.numElements ≠ 0 := by
      simp only [Consumer.uncounted] at hcount
      dsimp only at hcounted
      omega
    refine ⟨⟨q, producer, .asserted⟩, [], ?_, ?_⟩
    · simp only [Channel.consume, hnonzero, ne_eq, not_false_eq_true, decide_true, assertThat_true, ok_bind]
      rfl
    · simp only [stores, copies, List.filterMap_nil, List.append_nil]
      exact h.congr rfl ⟨hcapacity, hc.writeIndex, hc.readIndex, hcount, hcounted, hfits, hc.room,
        nofun, hc.writing, hc.writeAdvancing, nofun, nofun⟩
  | asserted =>
    refine ⟨_, [], rfl, ?_⟩
    simp only [stores, copies, List.filterMap_nil, List.append_nil]
    exact h.congr rfl ⟨hcapacity, hc.writeIndex, hc.readIndex, hcount, hcounted, hfits, hc.room, nofun,
      hc.writing, hc.writeAdvancing, nofun, fun _ he => (Consumer.advancing.inj he).symm⟩
  | advancing index =>
    obtain rfl : index = q.nextReadIndex := hc.readAdvancing index rfl
    refine ⟨_, [], rfl, ?_⟩
    simp only [stores, copies, List.filterMap_nil, List.append_nil]
    refine h.congr rfl ⟨hcapacity, hc.writeIndex, ⟨r + 1, hr, ?_⟩, hcount, hcounted, hfits, hc.room, nofun,
      hc.writing, hc.writeAdvancing, nofun, nofun⟩
    dsimp only at hindex ⊢
    rw [hcapacity]
    exact advance_index hindex hpos hN
  | advanced =>
    have hnum : 0 < q.numElements ∧ q.numElements ≤ N := by
      simp only [Consumer.uncounted] at hcount hfits
      dsimp only at hcounted
      omega
    unfold Channel.consume
    dsimp only
    rw [wrap64_pred hnum.1 (by omega)]
    refine ⟨_, [], rfl, ?_⟩
    simp only [stores, copies, List.filterMap_nil, List.append_nil]
    refine h.congr rfl ⟨hcapacity, hc.writeIndex, hc.readIndex, ?_, hcounted, ?_, fun slot hwriting => ?_, nofun,
      hc.writing, hc.writeAdvancing, nofun, nofun⟩
    · simp only [Consumer.uncounted] at hcount ⊢
      omega
    · simp only [Consumer.uncounted] at hfits ⊢
      omega
    · have hroom := hc.room slot hwriting
      simp only [Consumer.uncounted] at hroom ⊢
      omega

end Channel

lemma ChannelRun.holds {T : Type} {default : T} {N : Nat} (hpos : 0 < N) (hN : N < 18446744073709551616)
    {log : List (Turn T × List (Access T))} {s : Channel T} (h : ChannelRun default N log s) :
    s.Holds N (stores (sent log)) (copies (sent log)) := by
  refine h.invariant (fun log s => s.Holds N (stores (sent log)) (copies (sent log)))
    (Channel.holds_create default N) ?_
  intro log s turn s' es hs _ hstep
  rw [sent_append, sent_singleton, stores, copies, List.filterMap_append, List.filterMap_append]
  cases turn with
  | producer x =>
    have hproduce := hs.produce hpos hN x
    rw [show s.produce x = (s', es) from Except.ok.inj hstep] at hproduce
    exact hproduce
  | consumer =>
    obtain ⟨s₁, es₁, hrun, hconsume⟩ := hs.consume hpos hN
    obtain ⟨rfl, rfl⟩ : s₁ = s' ∧ es₁ = es := by simpa using hrun.symm.trans hstep
    exact hconsume

/-- Under every schedule the copies are a prefix of the stores, slot by slot. What is stored and
not yet copied is still in its slot, where the producer is not about to write, and no step of
either thread fails the `ASSERT`. -/
theorem fifo_channel {T : Type} {default : T} {N : Nat} (hpos : 0 < N) (hN : N < 18446744073709551616)
    {log : List (Turn T × List (Access T))} {s : Channel T} (h : ChannelRun default N log s) :
    copies (sent log) <+: stores (sent log) ∧
    (∀ slot x, (slot, x) ∈ (stores (sent log)).drop (copies (sent log)).length →
      s.queue.store slot = x ∧ s.producer ≠ .writing slot) ∧
    ∀ turn, ∃ s' es, s.step turn = .ok (s', es) := by
  have hs := h.holds hpos hN
  refine ⟨hs.fifo, fun slot x hx => ?_, fun turn => ?_⟩
  · obtain ⟨k, hk⟩ := List.getElem?_of_mem hx
    rw [List.getElem?_drop] at hk
    refine ⟨hs.unread _ _ (Nat.le_add_right _ k) hk, fun hwriting => ?_⟩
    exact hs.slot_free hwriting (Nat.le_add_right _ k) hk rfl
  · cases turn with
    | producer x => exact ⟨_, _, rfl⟩
    | consumer =>
      obtain ⟨s', es, hrun, -⟩ := hs.consume hpos hN
      exact ⟨s', es, hrun⟩

/-- One slot: the second element is stored where the first one was, after it was copied. -/
theorem fifo_channel_wraps : ∃ log s, ChannelRun 0 1 log s ∧ stores (sent log) = [(0, 7), (0, 8)] ∧
    copies (sent log) = [(0, 7)] ∧ copies (sent log) <+: stores (sent log) := by
  have hexecute : ∃ s, execute Channel.step ⟨LFQueue.create 0 1, .idle, .idle⟩
      (List.replicate 5 (.producer 7) ++ List.replicate 7 .consumer ++ List.replicate 2 (.producer 8)) =
      .ok (s, [.stored 0 7, .copied 0 7, .stored 0 8]) := by
    simp [execute, Channel.step, Channel.produce, Channel.consume, LFQueue.create, wrap64,
      List.replicate_succ]
  obtain ⟨s, hs⟩ := hexecute
  have hrun : ∃ log, ChannelRun 0 1 log s ∧ sent log = [.stored 0 7, .copied 0 7, .stored 0 8] := by
    obtain ⟨log, hrun, hsent, -⟩ := reached_execute (fun _ _ _ _ _ => trivial) .start hs
    exact ⟨log, hrun, hsent⟩
  obtain ⟨log, hrun, hsent⟩ := hrun
  refine ⟨log, s, hrun, ?_, ?_, (fifo_channel (by decide) (by decide) hrun).1⟩
  · rw [hsent]
    rfl
  · rw [hsent]
    rfl

end LowLatencyExchange
