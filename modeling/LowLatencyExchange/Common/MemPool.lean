import LowLatencyExchange.Common.Types
import Mathlib.Data.List.Perm.Subperm

/-!
# Memory pool

`Common::MemPool` hands out blocks of a fixed vector. A pointer to an object is the index
of its block. The vector is a function from indices together with its size, so a freed
block keeps its contents, as it does in the source.
-/

namespace LowLatencyExchange

/-- No more than `n` different blocks lie below `n`. -/
lemma length_le_of_nodup_of_lt {l : List Nat} {n : Nat} (hd : l.Nodup) (hlt : ∀ x ∈ l, x < n) :
    l.length ≤ n := by
  have hsub : l ⊆ List.range n := fun x hx => List.mem_range.mpr (hlt x hx)
  have hle := (List.subperm_of_subset hd hsub).length_le
  rwa [List.length_range] at hle

structure ObjectBlock (T : Type) where
  object : T
  isFree : Bool

structure MemPool (T : Type) where
  store : Nat → ObjectBlock T
  size : Nat
  nextFreeIndex : Nat

namespace MemPool
variable {T : Type}

/-- `MemPool(num_elems)`: every block holds a default object and is free. -/
def create (default : T) (numElems : Nat) : MemPool T where
  store := fun _ => ⟨default, true⟩
  size := numElems
  nextFreeIndex := 0

/-- The end of the process when no free block is left after an allocation. -/
def outOfSpace : Fault := .assert "Memory Pool out of space."

/-- The circular scan. It stops after `size` steps at the latest, back at its start. -/
def updateNextFreeIndexLoop (p : MemPool T) (initial : Nat) : Nat → Nat → Except Fault Nat
  | 0, _ => .error .diverges
  | fuel + 1, i =>
    if p.size ≤ i then .error .outOfRange
    else if (p.store i).isFree then .ok i
    else
      let i := if i + 1 = p.size then 0 else i + 1
      if initial = i then .error outOfSpace
      else p.updateNextFreeIndexLoop initial fuel i

def updateNextFreeIndex (p : MemPool T) : Except Fault (MemPool T) := do
  let i ← p.updateNextFreeIndexLoop p.nextFreeIndex (p.size + 1) p.nextFreeIndex
  pure { p with nextFreeIndex := i }

def object (p : MemPool T) (i : Nat) : T := (p.store i).object

/-- Blocks that are handed out. -/
def Used (p : MemPool T) (i : Nat) : Prop := (p.store i).isFree = false

instance (p : MemPool T) (i : Nat) : Decidable (p.Used i) :=
  inferInstanceAs (Decidable (_ = false))

/-- Placement of an object in a block that is handed out. -/
def take (p : MemPool T) (i : Nat) (obj : T) : MemPool T :=
  { p with store := Function.update p.store i ⟨obj, false⟩ }

def release (p : MemPool T) (i : Nat) : MemPool T :=
  { p with store := Function.update p.store i ⟨p.object i, true⟩ }

/-- A write through a pointer to the object in block `i`. -/
def modify (p : MemPool T) (i : Nat) (f : T → T) : MemPool T :=
  { p with store := Function.update p.store i ⟨f (p.object i), (p.store i).isFree⟩ }

def allocate (p : MemPool T) (obj : T) : Except Fault (MemPool T × Nat) := do
  let i := p.nextFreeIndex
  assertThat (p.store i).isFree ("Expected free ObjectBlock at index:" ++ toString i)
  let p ← (p.take i obj).updateNextFreeIndex
  pure (p, i)

def deallocate (p : MemPool T) (elem : Nat) : Except Fault (MemPool T) := do
  assertThat (elem < p.size) "Element being dealoocated does not belong to this memory pool."
  assertThat (!(p.store elem).isFree) ("Expected in-use ObjectBlock at index:" ++ toString elem)
  pure (p.release elem)

@[simp] lemma object_take (p : MemPool T) (i j : Nat) (obj : T) :
    (p.take i obj).object j = if j = i then obj else p.object j := by
  by_cases h : j = i <;> simp [object, take, h]

@[simp] lemma object_release (p : MemPool T) (i j : Nat) :
    (p.release i).object j = p.object j := by
  by_cases h : j = i <;> simp [object, release, h]

@[simp] lemma object_modify (p : MemPool T) (i j : Nat) (f : T → T) :
    (p.modify i f).object j = if j = i then f (p.object j) else p.object j := by
  by_cases h : j = i <;> simp [object, modify, h]

@[simp] lemma used_take (p : MemPool T) (i j : Nat) (obj : T) :
    (p.take i obj).Used j ↔ j = i ∨ p.Used j := by
  by_cases h : j = i <;> simp [Used, take, h]

@[simp] lemma used_release (p : MemPool T) (i j : Nat) :
    (p.release i).Used j ↔ j ≠ i ∧ p.Used j := by
  by_cases h : j = i <;> simp [Used, release, h]

@[simp] lemma used_modify (p : MemPool T) (i j : Nat) (f : T → T) :
    (p.modify i f).Used j ↔ p.Used j := by
  by_cases h : j = i <;> simp [Used, modify, h]

@[simp] lemma not_used_create (default : T) (n i : Nat) : ¬(create default n).Used i := by
  simp [Used, create]

@[simp] lemma size_take (p : MemPool T) (i : Nat) (obj : T) : (p.take i obj).size = p.size := rfl
@[simp] lemma size_release (p : MemPool T) (i : Nat) : (p.release i).size = p.size := rfl
@[simp] lemma size_modify (p : MemPool T) (i : Nat) (f : T → T) : (p.modify i f).size = p.size := rfl
@[simp] lemma nextFreeIndex_take (p : MemPool T) (i : Nat) (obj : T) :
    (p.take i obj).nextFreeIndex = p.nextFreeIndex := rfl
@[simp] lemma nextFreeIndex_release (p : MemPool T) (i : Nat) :
    (p.release i).nextFreeIndex = p.nextFreeIndex := rfl
@[simp] lemma nextFreeIndex_modify (p : MemPool T) (i : Nat) (f : T → T) :
    (p.modify i f).nextFreeIndex = p.nextFreeIndex := rfl

/-- Between calls the next block is free, and only blocks of the vector are handed out. -/
structure Sound (p : MemPool T) : Prop where
  next_lt : p.nextFreeIndex < p.size
  next_free : ¬p.Used p.nextFreeIndex
  used_lt : ∀ i, p.Used i → i < p.size

/-- A free block is left besides the one the next allocation returns. An allocation needs
both, since it looks for its successor's block before it returns. -/
def HasRoom (p : MemPool T) : Prop := ∃ i < p.size, i ≠ p.nextFreeIndex ∧ ¬p.Used i

lemma sound_create (default : T) {n : Nat} (hn : 0 < n) : (create default n).Sound where
  next_lt := hn
  next_free := not_used_create _ _ _
  used_lt := fun _ h => absurd h (not_used_create _ _ _)

lemma Sound.modify {p : MemPool T} (hp : p.Sound) (i : Nat) (f : T → T) : (p.modify i f).Sound where
  next_lt := hp.next_lt
  next_free := by simpa using hp.next_free
  used_lt := fun j hj => hp.used_lt j (by simpa using hj)

@[simp] lemma sound_modify_iff {p : MemPool T} {i : Nat} {f : T → T} :
    (p.modify i f).Sound ↔ p.Sound := by
  refine ⟨fun h => ⟨h.next_lt, ?_, fun j hj => ?_⟩, fun h => h.modify i f⟩
  · simpa using h.next_free
  · exact h.used_lt j (by simpa using hj)

lemma Sound.release {p : MemPool T} (hp : p.Sound) (i : Nat) : (p.release i).Sound where
  next_lt := hp.next_lt
  next_free := fun h => hp.next_free ((used_release p i _).mp h).2
  used_lt := fun j hj => hp.used_lt j ((used_release p i j).mp hj).2

lemma HasRoom.modify {p : MemPool T} (hp : p.HasRoom) (i : Nat) (f : T → T) :
    (p.modify i f).HasRoom := by
  obtain ⟨j, hlt, hne, hfree⟩ := hp
  exact ⟨j, hlt, hne, by simpa using hfree⟩

lemma HasRoom.release {p : MemPool T} (hp : p.HasRoom) (i : Nat) : (p.release i).HasRoom := by
  obtain ⟨j, hlt, hne, hfree⟩ := hp
  exact ⟨j, hlt, hne, fun h => hfree ((used_release p i j).mp h).2⟩

/-- Index `j` lies on the circular way from `start` up to, but not including, `i`. -/
def Passed (start i j : Nat) : Prop :=
  if start ≤ i then start ≤ j ∧ j < i else start ≤ j ∨ j < i

/-- The scan ends at the first free block, or back at its start having met none. `d` is the
number of blocks still ahead. -/
lemma updateNextFreeIndexLoop_spec (p : MemPool T) {start : Nat} (hstart : start < p.size)
    (fuel d i : Nat) (hd : d = if start ≤ i then p.size - i + start else start - i)
    (hfuel : d < fuel) (hi : i < p.size) (hpassed : ∀ j < p.size, Passed start i j → p.Used j) :
    (∃ k < p.size, ¬p.Used k ∧ p.updateNextFreeIndexLoop start fuel i = .ok k) ∨
    ((∀ j < p.size, p.Used j) ∧ p.updateNextFreeIndexLoop start fuel i = .error outOfSpace) := by
  induction fuel generalizing d i with
  | zero => omega
  | succ fuel ih =>
    rw [updateNextFreeIndexLoop, if_neg (by omega)]
    by_cases hfree : (p.store i).isFree = true
    · left
      exact ⟨i, hi, by simp [Used, hfree], by simp [hfree]⟩
    · have hused : p.Used i := by simpa [Used] using hfree
      have hnext : ∀ j < p.size, Passed start (if i + 1 = p.size then 0 else i + 1) j →
          (if i + 1 = p.size then 0 else i + 1) ≠ start → p.Used j := by
        intro j hj hpass hne
        by_cases hji : j = i
        · exact hji ▸ hused
        · apply hpassed j hj
          unfold Passed at hpass ⊢
          split_ifs at hpass hne ⊢ <;> omega
      simp only [hfree, Bool.false_eq_true, if_false]
      by_cases hback : start = if i + 1 = p.size then 0 else i + 1
      · right
        refine ⟨?_, if_pos hback⟩
        intro j hj
        by_cases hji : j = i
        · exact hji ▸ hused
        · apply hpassed j hj
          unfold Passed
          split_ifs at hback ⊢ <;> omega
      · rw [if_neg hback]
        refine ih (if start ≤ (if i + 1 = p.size then 0 else i + 1) then
          p.size - (if i + 1 = p.size then 0 else i + 1) + start
          else start - (if i + 1 = p.size then 0 else i + 1)) _ rfl ?_ ?_ ?_
        · split_ifs at hd hback ⊢ <;> omega
        · split_ifs <;> omega
        · exact fun j hj hpass => hnext j hj hpass (Ne.symm hback)

/-- An allocation from a sound pool either finds no further free block or returns the next
block, now in use, and leaves every other block alone. -/
lemma allocate_spec {p : MemPool T} (hp : p.Sound) (obj : T) :
    (¬p.HasRoom ∧ p.allocate obj = .error outOfSpace) ∨
    (p.HasRoom ∧ ∃ k, p.allocate obj =
        .ok ({ p.take p.nextFreeIndex obj with nextFreeIndex := k }, p.nextFreeIndex) ∧
      k < p.size ∧ k ≠ p.nextFreeIndex ∧ ¬p.Used k) := by
  have hfree : (p.store p.nextFreeIndex).isFree = true := by
    simpa [Used] using hp.next_free
  have hscan := updateNextFreeIndexLoop_spec (p.take p.nextFreeIndex obj) hp.next_lt
    (p.size + 1) p.size p.nextFreeIndex (by have := hp.next_lt; simp; omega) (by omega) hp.next_lt
    (by intro j _ hpass; unfold Passed at hpass; simp at hpass; omega)
  rcases hscan with ⟨k, hk, hkfree, hok⟩ | ⟨hall, herr⟩
  · right
    have hkne : k ≠ p.nextFreeIndex ∧ ¬p.Used k := by
      simpa only [used_take, not_or] using hkfree
    refine ⟨⟨k, hk, hkne⟩, k, ?_, hk, hkne⟩
    simp only [allocate, hfree, assertThat_true, ok_bind, updateNextFreeIndex, size_take,
      nextFreeIndex_take, hok, pure_eq_ok]
  · left
    refine ⟨?_, ?_⟩
    · rintro ⟨j, hj, hne, hj'⟩
      have := (used_take p p.nextFreeIndex j obj).mp (hall j hj)
      tauto
    · simp only [allocate, hfree, assertThat_true, ok_bind, updateNextFreeIndex, size_take,
        nextFreeIndex_take, herr, error_bind]

/-- Whatever the pool holds, an allocation that returns has taken the next block. -/
lemma allocate_eq_ok {p p' : MemPool T} {obj : T} {i : Nat} (h : p.allocate obj = .ok (p', i)) :
    i = p.nextFreeIndex ∧ ¬p.Used i ∧
      ∃ k, p' = { p.take p.nextFreeIndex obj with nextFreeIndex := k } := by
  obtain ⟨_, hfree, h⟩ := bind_eq_ok h
  obtain ⟨p₁, hnext, h⟩ := bind_eq_ok h
  obtain ⟨k, -, hk⟩ := bind_eq_ok hnext
  cases hk
  cases h
  have hisFree := assertThat_eq_ok hfree
  exact ⟨rfl, by simp [Used, hisFree], k, rfl⟩

lemma object_allocate {p p' : MemPool T} {obj : T} {i : Nat} (h : p.allocate obj = .ok (p', i)) (j : Nat) :
    p'.object j = if j = i then obj else p.object j := by
  obtain ⟨rfl, -, k, rfl⟩ := allocate_eq_ok h
  exact object_take p p.nextFreeIndex j obj

/-- Whatever the pool holds, a deallocation that returns has freed a block in use. -/
lemma deallocate_eq_ok {p p' : MemPool T} {i : Nat} (h : p.deallocate i = .ok p') :
    p.Used i ∧ p' = p.release i := by
  obtain ⟨_, -, h⟩ := bind_eq_ok h
  obtain ⟨_, hused, h⟩ := bind_eq_ok h
  cases h
  have hfree := assertThat_eq_ok hused
  exact ⟨by simpa [Used] using hfree, rfl⟩

lemma Sound.allocated {p : MemPool T} (hp : p.Sound) (obj : T) {k : Nat} (hk : k < p.size)
    (hne : k ≠ p.nextFreeIndex) (hfree : ¬p.Used k) :
    ({ p.take p.nextFreeIndex obj with nextFreeIndex := k } : MemPool T).Sound where
  next_lt := hk
  next_free := by
    change ¬(p.take p.nextFreeIndex obj).Used k
    simp [hne, hfree]
  used_lt := by
    intro j hj
    change (p.take p.nextFreeIndex obj).Used j at hj
    rcases (used_take p p.nextFreeIndex j obj).mp hj with rfl | h
    · exact hp.next_lt
    · exact hp.used_lt j h

lemma deallocate_spec {p : MemPool T} (hp : p.Sound) {i : Nat} (hi : p.Used i) :
    p.deallocate i = .ok (p.release i) := by
  have hlt := hp.used_lt i hi
  have hused : (p.store i).isFree = false := hi
  simp [deallocate, hlt, hused]

/-- Whether there is room only depends on which blocks are free. -/
lemma Sound.hasRoom_iff {p : MemPool T} (hp : p.Sound) : p.HasRoom ↔
    ∃ i j, i < p.size ∧ j < p.size ∧ i ≠ j ∧ ¬p.Used i ∧ ¬p.Used j := by
  constructor
  · rintro ⟨j, hj, hne, hfree⟩
    exact ⟨j, p.nextFreeIndex, hj, hp.next_lt, hne, hfree, hp.next_free⟩
  · rintro ⟨i, j, hi, hj, hij, hifree, hjfree⟩
    by_cases hnext : i = p.nextFreeIndex
    · exact ⟨j, hj, fun he => hij (hnext.trans he.symm), hjfree⟩
    · exact ⟨i, hi, hnext, hifree⟩

/-- Blocks that were freed make room. -/
lemma Sound.hasRoom_freed_iff {p p' : MemPool T} (hp : p.Sound) (hp' : p'.Sound) (hsize : p'.size = p.size)
    (hused : ∀ i, p'.Used i → p.Used i) : p'.HasRoom ↔ p.HasRoom ∨ ∃ i, p.Used i ∧ ¬p'.Used i := by
  rw [hp'.hasRoom_iff, hp.hasRoom_iff, hsize]
  constructor
  · rintro ⟨i, j, hi, hj, hij, hifree, hjfree⟩
    by_cases hiu : p.Used i
    · exact .inr ⟨i, hiu, hifree⟩
    · by_cases hju : p.Used j
      · exact .inr ⟨j, hju, hjfree⟩
      · exact .inl ⟨i, j, hi, hj, hij, hiu, hju⟩
  · rintro (⟨i, j, hi, hj, hij, hifree, hjfree⟩ | ⟨i, hiu, hifree⟩)
    · exact ⟨i, j, hi, hj, hij, fun h => hifree (hused i h), fun h => hjfree (hused j h)⟩
    · refine ⟨i, p.nextFreeIndex, hp.used_lt i hiu, hp.next_lt, ?_, hifree, fun h => hp.next_free (hused _ h)⟩
      rintro rfl
      exact hp.next_free hiu

end MemPool
end LowLatencyExchange
