import LowLatencyExchange.Common.MemPool
import LowLatencyExchange.Library.Run
import Mathlib.Data.List.Nodup
import Mathlib.Data.List.Range
import Mathlib.Tactic.Tauto

/-!
# Users of a memory pool

A pool does not know who holds its blocks. `SharedPool` keeps the account beside it: every block that
was handed out and not given back, with what its holder last put there. `PoolCall.write` is such a write,
all other calls are the pool's own.
-/

namespace LowLatencyExchange
open LoggedRun

inductive PoolCall (T : Type)
  | allocate (obj : T)
  | deallocate (elem : Nat)
  | write (elem : Nat) (obj : T)

/-- A pool, and the blocks that are held with their contents. -/
structure SharedPool (T : Type) where
  pool : MemPool T
  held : List (Nat × T)

namespace SharedPool
variable {T : Type} {s s' : SharedPool T} {c : PoolCall T} {default obj : T} {n i : Nat} {es : List Nat}

def create (default : T) (numElems : Nat) : SharedPool T := ⟨.create default numElems, []⟩

/-- The blocks that are held. -/
def blocks (s : SharedPool T) : List Nat := s.held.map Prod.fst

/-- One call, with the pointer it returns. -/
def call (s : SharedPool T) : PoolCall T → Except Fault (SharedPool T × List Nat)
  | .allocate obj => do
    let (pool, i) ← s.pool.allocate obj
    pure (⟨pool, s.held ++ [(i, obj)]⟩, [i])
  | .deallocate elem => do
    let pool ← s.pool.deallocate elem
    pure (⟨pool, s.held.filter fun x => x.1 ≠ elem⟩, [])
  | .write elem obj =>
    pure (⟨s.pool.modify elem fun _ => obj, s.held.map fun x => if x.1 = elem then (elem, obj) else x⟩, [])

/-- Only a block that is held is given back or written to. -/
def ByHolder (s : SharedPool T) : PoolCall T → Prop
  | .allocate _ => True
  | .deallocate elem => elem ∈ s.blocks
  | .write elem _ => elem ∈ s.blocks

/-- An allocation while all of `n` blocks but one are held, or more. -/
def Fills (n : Nat) (s : SharedPool T) : PoolCall T → Prop
  | .allocate _ => n ≤ s.held.length + 1
  | _ => False

instance (s : SharedPool T) (c : PoolCall T) : Decidable (s.ByHolder c) :=
  match c with
  | .allocate _ => isTrue trivial
  | .deallocate elem => inferInstanceAs (Decidable (elem ∈ s.blocks))
  | .write elem _ => inferInstanceAs (Decidable (elem ∈ s.blocks))

instance (n : Nat) (s : SharedPool T) (c : PoolCall T) : Decidable (Fills n s c) :=
  match c with
  | .allocate _ => inferInstanceAs (Decidable (n ≤ s.held.length + 1))
  | .deallocate _ => isFalse id
  | .write _ _ => isFalse id

/-- The blocks in use are the ones held, each by one holder, who finds there what it has put there. -/
structure Unaliased (s : SharedPool T) : Prop where
  sound : s.pool.Sound
  used : ∀ i, s.pool.Used i ↔ i ∈ s.blocks
  nodup : s.blocks.Nodup
  contents : ∀ x ∈ s.held, s.pool.object x.1 = x.2

lemma unaliased_create (default : T) (hn : 0 < n) : (create default n).Unaliased where
  sound := MemPool.sound_create default hn
  used := fun i => iff_of_false (MemPool.not_used_create default n i) (by simp [create, blocks])
  nodup := List.nodup_nil
  contents := by simp [create]

lemma mem_blocks {x : Nat × T} (hx : x ∈ s.held) : x.1 ∈ s.blocks := List.mem_map_of_mem hx

/-- The next block is nobody's. -/
lemma Unaliased.next_not_held (h : s.Unaliased) : s.pool.nextFreeIndex ∉ s.blocks := fun hmem =>
  h.sound.next_free ((h.used _).mpr hmem)

lemma Unaliased.allocate (h : s.Unaliased) {k : Nat} (hk : k < s.pool.size) (hne : k ≠ s.pool.nextFreeIndex)
    (hfree : ¬s.pool.Used k) :
    Unaliased ⟨{ s.pool.take s.pool.nextFreeIndex obj with nextFreeIndex := k },
      s.held ++ [(s.pool.nextFreeIndex, obj)]⟩ where
  sound := h.sound.allocated obj hk hne hfree
  used := by
    intro i
    have hused : s.pool.Used i ↔ i ∈ s.blocks := h.used i
    change (s.pool.take s.pool.nextFreeIndex obj).Used i ↔ _
    rw [MemPool.used_take, hused, blocks, blocks, List.map_append, List.mem_append, or_comm]
    simp
  nodup := by
    have hnext := h.next_not_held
    rw [blocks, List.map_append]
    apply h.nodup.append (List.nodup_singleton _)
    simpa [blocks] using hnext
  contents := by
    intro x hx
    have hobject := MemPool.object_take s.pool s.pool.nextFreeIndex x.1 obj
    rcases List.mem_append.mp hx with hx | hx
    · have hne' : x.1 ≠ s.pool.nextFreeIndex := fun he => h.next_not_held (he ▸ mem_blocks hx)
      rw [if_neg hne', h.contents x hx] at hobject
      exact hobject
    · obtain rfl := List.mem_singleton.mp hx
      rw [if_pos rfl] at hobject
      exact hobject

lemma Unaliased.deallocate (h : s.Unaliased) (i : Nat) :
    Unaliased ⟨s.pool.release i, s.held.filter fun x => x.1 ≠ i⟩ where
  sound := h.sound.release i
  used := by
    intro j
    rw [MemPool.used_release, h.used]
    simp only [blocks, List.mem_map, List.mem_filter, decide_eq_true_eq]
    constructor
    · rintro ⟨hne, x, hx, rfl⟩
      exact ⟨x, ⟨hx, hne⟩, rfl⟩
    · rintro ⟨x, ⟨hx, hne⟩, rfl⟩
      exact ⟨hne, x, hx, rfl⟩
  nodup := h.nodup.sublist (List.filter_sublist.map Prod.fst)
  contents := by
    intro x hx
    rw [MemPool.object_release]
    exact h.contents x (List.mem_filter.mp hx).1

lemma Unaliased.write (h : s.Unaliased) (i : Nat) (obj : T) :
    Unaliased ⟨s.pool.modify i fun _ => obj, s.held.map fun x => if x.1 = i then (i, obj) else x⟩ := by
  have hblocks : (s.held.map fun x => if x.1 = i then (i, obj) else x).map Prod.fst = s.blocks := by
    rw [List.map_map]
    apply List.map_congr_left
    intro x _
    by_cases hx : x.1 = i <;> simp [hx]
  refine ⟨h.sound.modify i fun _ => obj, fun j => ?_, ?_, fun x hx => ?_⟩
  · change _ ↔ j ∈ List.map Prod.fst (List.map _ s.held)
    rw [MemPool.used_modify, h.used, hblocks]
  · rw [blocks, hblocks]
    exact h.nodup
  · obtain ⟨y, hy, rfl⟩ := List.mem_map.mp hx
    rw [MemPool.object_modify]
    by_cases hyi : y.1 = i
    · simp only [hyi, if_true]
    · simp only [hyi, if_false]
      exact h.contents y hy

/-- There is room for another allocation while two blocks are free. -/
lemma Unaliased.hasRoom_iff (h : s.Unaliased) : s.pool.HasRoom ↔ s.held.length + 1 < s.pool.size := by
  have hlength : (s.pool.nextFreeIndex :: s.blocks).length = s.held.length + 1 := by simp [blocks]
  have hnodup : (s.pool.nextFreeIndex :: s.blocks).Nodup := List.nodup_cons.mpr ⟨h.next_not_held, h.nodup⟩
  have hlt : ∀ i ∈ s.pool.nextFreeIndex :: s.blocks, i < s.pool.size := by
    intro i hi
    rcases List.mem_cons.mp hi with rfl | hi
    · exact h.sound.next_lt
    · exact h.sound.used_lt i ((h.used i).mpr hi)
  constructor
  · rintro ⟨i, hi, hne, hfree⟩
    have hmore : (i :: s.pool.nextFreeIndex :: s.blocks).Nodup := by
      apply List.nodup_cons.mpr ⟨?_, hnodup⟩
      rw [List.mem_cons, not_or]
      exact ⟨hne, fun hmem => hfree ((h.used i).mpr hmem)⟩
    have hle := length_le_of_nodup_of_lt hmore (List.forall_mem_cons.mpr ⟨hi, hlt⟩)
    rw [List.length_cons, hlength] at hle
    exact hle
  · intro hroom
    by_contra hnone
    have hall : List.range s.pool.size ⊆ s.pool.nextFreeIndex :: s.blocks := by
      intro i hi
      rw [List.mem_cons]
      by_contra hi'
      rw [not_or] at hi'
      exact hnone ⟨i, List.mem_range.mp hi, hi'.1, fun hused => hi'.2 ((h.used i).mp hused)⟩
    have hle := (List.subperm_of_subset List.nodup_range hall).length_le
    rw [List.length_range, hlength] at hle
    omega

/-- What an allocation does: either no second block is free, or it returns a block that nobody holds. -/
lemma Unaliased.call_allocate (h : s.Unaliased) (obj : T) :
    (s.pool.size ≤ s.held.length + 1 ∧ s.pool.allocate obj = .error MemPool.outOfSpace) ∨
    (s.held.length + 1 < s.pool.size ∧ ∃ pool, s.pool.allocate obj = .ok (pool, s.pool.nextFreeIndex) ∧
      Unaliased ⟨pool, s.held ++ [(s.pool.nextFreeIndex, obj)]⟩ ∧ pool.size = s.pool.size) := by
  rcases MemPool.allocate_spec h.sound obj with ⟨hfull, herr⟩ | ⟨hroom, k, hok, hk, hne, hfree⟩
  · rw [h.hasRoom_iff] at hfull
    exact .inl ⟨by omega, herr⟩
  · exact .inr ⟨h.hasRoom_iff.mp hroom, _, hok, h.allocate hk hne hfree, rfl⟩

lemma Unaliased.call_deallocate (h : s.Unaliased) (hi : i ∈ s.blocks) :
    s.pool.deallocate i = .ok (s.pool.release i) :=
  MemPool.deallocate_spec h.sound ((h.used i).mpr hi)

/-- A call of a holder, whole. -/
theorem Unaliased.call (h : s.Unaliased) (hc : s.ByHolder c) :
    (Fills s.pool.size s c ∧ s.call c = .error MemPool.outOfSpace) ∨
    (¬Fills s.pool.size s c ∧ ∃ s' es, s.call c = .ok (s', es) ∧ s'.Unaliased ∧ s'.pool.size = s.pool.size) := by
  cases c with
  | allocate obj =>
    rcases h.call_allocate obj with ⟨hfull, herr⟩ | ⟨hroom, pool, hok, hnext, hsize⟩
    · left
      exact ⟨hfull, by simp only [SharedPool.call, herr, error_bind]⟩
    · right
      have hcall : s.call (.allocate obj) = .ok (⟨pool, s.held ++ [(s.pool.nextFreeIndex, obj)]⟩,
          [s.pool.nextFreeIndex]) := by
        simp only [SharedPool.call, hok, ok_bind, pure_eq_ok]
      exact ⟨not_le.mpr hroom, _, _, hcall, hnext, hsize⟩
  | deallocate i =>
    right
    have hcall : s.call (.deallocate i) = .ok (⟨s.pool.release i, s.held.filter fun x => x.1 ≠ i⟩, []) := by
      simp only [SharedPool.call, h.call_deallocate hc, ok_bind, pure_eq_ok]
    exact ⟨id, _, _, hcall, h.deallocate i, rfl⟩
  | write i obj =>
    right
    exact ⟨id, _, _, rfl, h.write i obj, rfl⟩

lemma Unaliased.next (h : s.Unaliased) (hc : s.ByHolder c) (hrun : s.call c = .ok (s', es)) :
    s'.Unaliased ∧ s'.pool.size = s.pool.size := by
  rcases h.call hc with ⟨-, herr⟩ | ⟨-, s₁, es₁, hok, hnext, hsize⟩
  · cases herr.symm.trans hrun
  · cases hok.symm.trans hrun
    exact ⟨hnext, hsize⟩

/-- Runs whose users give back and write to their own blocks only. -/
abbrev UsedByHolders (default : T) (n : Nat) : List (PoolCall T × List Nat) → SharedPool T → Prop :=
  Reached call (fun _ s c _ => s.ByHolder c) (create default n)

lemma unaliased_reached (hn : 0 < n) {log : List (PoolCall T × List Nat)} (h : UsedByHolders default n log s) :
    s.Unaliased ∧ s.pool.size = n :=
  h.invariant (fun _ s => s.Unaliased ∧ s.pool.size = n) ⟨unaliased_create default hn, rfl⟩
    fun _ _ _ _ _ hs hc hrun => ⟨(hs.1.next hc hrun).1, (hs.1.next hc hrun).2.trans hs.2⟩

/-- However its blocks are handed out and given back, a pool never lets two holders share one. An
allocation only fails for want of space, and giving back never fails. -/
theorem never_aliases (hn : 0 < n) {log : List (PoolCall T × List Nat)} (h : UsedByHolders default n log s) :
    (∀ i, (s.pool.store i).isFree = false ↔ i ∈ s.blocks) ∧ s.blocks.Nodup ∧
    (∀ x ∈ s.held, s.pool.object x.1 = x.2) ∧
    s.pool.nextFreeIndex < n ∧ (s.pool.store s.pool.nextFreeIndex).isFree = true ∧
    (∀ obj, s.pool.allocate obj = .error MemPool.outOfSpace ∨ ∃ pool i, s.pool.allocate obj = .ok (pool, i) ∧
      i < n ∧ i ∉ s.blocks ∧ (pool.store i).isFree = false ∧ pool.object i = obj ∧
      ∀ j, j ≠ i → pool.object j = s.pool.object j) ∧
    (∀ i ∈ s.blocks, ∃ pool, s.pool.deallocate i = .ok pool ∧ (pool.store i).isFree = true ∧
      ∀ j, pool.object j = s.pool.object j) := by
  obtain ⟨hs, rfl⟩ := unaliased_reached hn h
  have hfree : (s.pool.store s.pool.nextFreeIndex).isFree = true := by
    have hnext := hs.sound.next_free
    simpa [MemPool.Used] using hnext
  refine ⟨hs.used, hs.nodup, hs.contents, hs.sound.next_lt, hfree, fun obj => ?_, fun i hi => ?_⟩
  · rcases MemPool.allocate_spec hs.sound obj with ⟨-, herr⟩ | ⟨-, k, hok, -⟩
    · exact .inl herr
    · right
      refine ⟨_, _, hok, hs.sound.next_lt, hs.next_not_held, ?_, ?_, fun j hj => ?_⟩
      · exact (MemPool.used_take s.pool s.pool.nextFreeIndex _ obj).mpr (.inl rfl)
      · rw [MemPool.object_allocate hok, if_pos rfl]
      · rw [MemPool.object_allocate hok, if_neg hj]
  · refine ⟨_, hs.call_deallocate hi, by simp [MemPool.release], fun j => MemPool.object_release s.pool i j⟩

/-- Two blocks are handed out, the first is given back, and the search for a free one comes round to it. -/
def comesRound : List (PoolCall Nat) := [.allocate 10, .allocate 20, .deallocate 0, .allocate 30, .write 1 21]

theorem never_aliases_comesRound : ∃ log s, UsedByHolders 0 3 log s ∧ log.map Prod.fst = comesRound ∧
    s.held = [(1, 21), (2, 30)] ∧ s.pool.nextFreeIndex = 0 ∧ s.pool.object 1 = 21 ∧ s.pool.object 2 = 30 := by
  have hholders : Never call (create 0 3) comesRound fun s c => ¬s.ByHolder c := never_of_avoids (by decide)
  obtain ⟨s, es, hrun, hheld, hnext⟩ := exists_of_ends call (create 0 3) comesRound
    (fun s _ => s.held = [(1, 21), (2, 30)] ∧ s.pool.nextFreeIndex = 0) (by decide)
  obtain ⟨log, hreached, -, hcalls⟩ := hholders.reached hrun
  obtain ⟨-, -, hcontents, -⟩ := never_aliases (by decide) hreached
  rw [hheld] at hcontents
  exact ⟨log, s, hreached, hcalls, hheld, hnext, hcontents (1, 21) (by simp), hcontents (2, 30) (by simp)⟩

/-- A sequence of calls returns just when no allocation in it finds all blocks but one held. -/
theorem calls_return_iff {calls : List (PoolCall T)} (h : s.Unaliased) (hsize : s.pool.size = n)
    (hholders : Never call s calls fun s c => ¬s.ByHolder c) :
    (∃ s' es, execute call s calls = .ok (s', es)) ↔ Never call s calls (Fills n) := by
  induction calls generalizing s with
  | nil => exact iff_of_true ⟨s, [], rfl⟩ never_nil
  | cons c calls ih =>
    have hfirst : s.ByHolder c := not_not.mp (hholders.first)
    have hcall := h.call hfirst
    rw [hsize] at hcall
    rcases hcall with ⟨hfills, herr⟩ | ⟨hroom, s₁, es₁, hok, hnext, hsize'⟩
    · apply iff_of_false
      · rintro ⟨s', es, hrun⟩
        cases (execute_error herr calls).symm.trans hrun
      · exact fun hnever => hnever.first hfills
    · rw [never_cons_iff hok] at hholders ⊢
      rw [← ih hnext hsize' hholders.2]
      constructor
      · rintro ⟨s', es, hrun⟩
        obtain ⟨s₂, es₂, es₃, hstep, hrest, -⟩ := execute_cons_ok hrun
        cases hok.symm.trans hstep
        exact ⟨hroom, s', es₃, hrest⟩
      · rintro ⟨-, s', es, hrest⟩
        exact ⟨s', es₁ ++ es, execute_cons hok hrest⟩

end SharedPool
end LowLatencyExchange
