import LowLatencyExchange.Common.LFQueue

/-!
# The queue, call by call

The calls that the two sides of `Common::LFQueue` make, each in one step. As long as nothing is
written over an unread element, the queue is the list of its unread elements.
-/

namespace LowLatencyExchange
open Channel

namespace LFQueue
variable {T : Type}

/-- `getNextToWriteTo`, the store through its pointer, and `updateWriteIndex`. Nothing asks whether
there is room. -/
def write (q : LFQueue T) (x : T) : LFQueue T :=
  { q with
    store := Function.update q.store q.nextWriteIndex x
    nextWriteIndex := wrap64 (q.nextWriteIndex + 1) % q.capacity
    numElements := wrap64 (q.numElements + 1) }

/-- The slot that the pointer of `getNextToRead` points to. -/
def getNextToRead (q : LFQueue T) : Option Nat :=
  if q.numElements ≠ 0 then some q.nextReadIndex else none

def updateReadIndex (q : LFQueue T) : Except Fault (LFQueue T) := do
  assertThat (q.numElements ≠ 0) "Read an invalid element in: "
  pure { q with
    nextReadIndex := wrap64 (q.nextReadIndex + 1) % q.capacity
    numElements := wrap64 (q.numElements + 18446744073709551615) }

/-- `getNextToRead`, the copy through its pointer, and `updateReadIndex`. -/
def read (q : LFQueue T) : Except Fault (LFQueue T × List T) :=
  match q.getNextToRead with
  | none => pure (q, [])
  | some slot => do
    let q' ← q.updateReadIndex
    pure (q', [q.store slot])

/-- What the reader finds from its index on. -/
def unread (q : LFQueue T) : List T :=
  (List.range q.numElements).map fun i => q.store ((q.nextReadIndex + i) % q.capacity)

/-- The indices are as far apart as the count says, and not more than a round. -/
structure Sound (N : Nat) (q : LFQueue T) : Prop where
  capacity : q.capacity = N
  readIndex : q.nextReadIndex < N
  writeIndex : q.nextWriteIndex = (q.nextReadIndex + q.numElements) % N
  fits : q.numElements ≤ N

variable {N : Nat} {q q' : LFQueue T}

@[simp] lemma length_unread (q : LFQueue T) : q.unread.length = q.numElements := by
  rw [unread, List.length_map, List.length_range]

lemma sound_create (default : T) (hpos : 0 < N) : Sound N (create default N) where
  capacity := rfl
  readIndex := hpos
  writeIndex := (Nat.zero_mod N).symm
  fits := Nat.zero_le N

@[simp] lemma unread_create (default : T) (N : Nat) : (create default N).unread = [] := rfl

/-- An element that is written to a free slot comes after the unread ones. -/
theorem Sound.write (h : Sound N q) (hN : N < 18446744073709551616) (hroom : q.numElements < N) (x : T) :
    Sound N (q.write x) ∧ (q.write x).numElements = q.numElements + 1 ∧ (q.write x).unread = q.unread ++ [x] := by
  have hcount : wrap64 (q.numElements + 1) = q.numElements + 1 := wrap64_of_lt (by omega)
  refine ⟨⟨h.capacity, h.readIndex, ?_, ?_⟩, hcount, ?_⟩
  · have hindex := advance_index h.writeIndex (Nat.zero_lt_of_lt h.readIndex) hN
    simp only [LFQueue.write, hcount, h.capacity]
    exact hindex
  · simp only [LFQueue.write, hcount]
    exact hroom
  · have hold : ∀ i ∈ List.range q.numElements,
        Function.update q.store q.nextWriteIndex x ((q.nextReadIndex + i) % q.capacity) =
          q.store ((q.nextReadIndex + i) % q.capacity) := by
      intro i hi
      have hlt := List.mem_range.mp hi
      apply Function.update_of_ne
      rw [h.capacity, h.writeIndex]
      exact (slot_ne (by omega) (by omega)).symm
    simp only [unread, LFQueue.write, hcount]
    rw [List.range_succ, List.map_append, List.map_congr_left hold, List.map_singleton, h.capacity, ← h.writeIndex,
      Function.update_self]

/-- The reader gives up the slot of the first unread element. -/
theorem Sound.updateReadIndex (h : Sound N q) (hN : N < 18446744073709551616) (hne : q.numElements ≠ 0) :
    ∃ q', q.updateReadIndex = .ok q' ∧ Sound N q' ∧ q'.store = q.store ∧ q'.numElements + 1 = q.numElements ∧
      q'.nextReadIndex = (q.nextReadIndex + 1) % N ∧ q.unread = q.store q.nextReadIndex :: q'.unread := by
  have hfits := h.fits
  have hcount : wrap64 (q.numElements + 18446744073709551615) = q.numElements - 1 :=
    wrap64_pred (Nat.pos_of_ne_zero hne) (by omega)
  have hindex : wrap64 (q.nextReadIndex + 1) % N = (q.nextReadIndex + 1) % N :=
    advance_index (Nat.mod_eq_of_lt h.readIndex).symm (Nat.zero_lt_of_lt h.readIndex) hN
  refine ⟨⟨q.store, q.capacity, q.nextWriteIndex, (q.nextReadIndex + 1) % N, q.numElements - 1⟩, ?_,
    ⟨h.capacity, Nat.mod_lt _ (Nat.zero_lt_of_lt h.readIndex), ?_, by simp only; omega⟩, rfl, by simp only; omega,
    rfl, ?_⟩
  · simp only [LFQueue.updateReadIndex, hne, ne_eq, not_false_eq_true, decide_true, assertThat_true, ok_bind, pure_eq_ok,
      hcount, h.capacity, hindex]
  · have hsum : q.nextReadIndex + 1 + (q.numElements - 1) = q.nextReadIndex + q.numElements := by omega
    simp only [Nat.mod_add_mod, hsum]
    exact h.writeIndex
  · obtain ⟨n, hn⟩ := Nat.exists_eq_succ_of_ne_zero hne
    have hrest : ∀ i ∈ List.range n, q.store ((q.nextReadIndex + (i + 1)) % N) =
        q.store (((q.nextReadIndex + 1) % N + i) % N) := by
      intro i _
      rw [Nat.mod_add_mod, Nat.add_assoc, Nat.add_comm 1 i]
    simp only [unread, hn, Nat.succ_eq_add_one, Nat.add_sub_cancel, h.capacity]
    rw [List.range_succ_eq_map, List.map_cons, List.map_map, Nat.add_zero, Nat.mod_eq_of_lt h.readIndex]
    exact congrArg _ (List.map_congr_left hrest)

/-- Reading takes the first unread element, if there is one. -/
theorem Sound.read (h : Sound N q) (hN : N < 18446744073709551616) :
    ∃ q' xs, q.read = .ok (q', xs) ∧ Sound N q' ∧ q.unread = xs ++ q'.unread := by
  unfold LFQueue.read getNextToRead
  by_cases hne : q.numElements ≠ 0
  · obtain ⟨q', hupdate, hsound, -, -, -, hunread⟩ := h.updateReadIndex hN hne
    rw [if_pos hne]
    dsimp only
    rw [hupdate, ok_bind, pure_eq_ok]
    exact ⟨q', _, rfl, hsound, hunread⟩
  · rw [if_neg hne]
    exact ⟨q, [], rfl, h, rfl⟩

end LFQueue
end LowLatencyExchange
