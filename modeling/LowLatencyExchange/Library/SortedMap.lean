import Mathlib.Data.List.Sort

/-!
# Sorted maps

An association list with strictly increasing keys, the content of an ordered dictionary.
A map is determined by its entries, so the order in which they were entered does not matter.
-/

/-- Lists in the same strict order are equal when they have the same members. -/
theorem List.Pairwise.eq_of_mem {α : Type} {r : α → α → Prop} (hasymm : ∀ x y, r x y → ¬r y x)
    {xs ys : List α} (hxs : xs.Pairwise r) (hys : ys.Pairwise r) (h : ∀ x, x ∈ xs ↔ x ∈ ys) : xs = ys := by
  have hirrefl : Std.Irrefl r := ⟨fun x hx => hasymm x x hx hx⟩
  have hantisymm : Std.Antisymm r := ⟨fun x y hxy hyx => absurd hyx (hasymm x y hxy)⟩
  exact hxs.eq_of_mem_iff hys h

structure SortedMap (K V : Type) [LinearOrder K] where
  entries : List (K × V)
  sorted : entries.Pairwise fun x y => x.1 < y.1

namespace SortedMap
variable {K V : Type} [LinearOrder K]

def empty : SortedMap K V := ⟨[], .nil⟩

def contains (m : SortedMap K V) (k : K) : Bool := m.entries.any fun x => x.1 = k

def insertEntry (k : K) (v : V) : List (K × V) → List (K × V)
  | [] => [(k, v)]
  | x :: xs =>
    if k < x.1 then (k, v) :: x :: xs
    else if x.1 < k then x :: insertEntry k v xs
    else (k, v) :: xs

lemma mem_insertEntry {k : K} {v : V} {xs : List (K × V)}
    (h : xs.Pairwise fun x y => x.1 < y.1) {y : K × V} :
    y ∈ insertEntry k v xs ↔ y = (k, v) ∨ y ∈ xs ∧ y.1 ≠ k := by
  induction xs with
  | nil => simp [insertEntry]
  | cons x xs ih =>
    have hrest : ∀ {z}, z ∈ xs → x.1 < z.1 := List.rel_of_pairwise_cons h
    rw [insertEntry]
    split
    · rename_i hlt
      have hne : ∀ z ∈ x :: xs, z.1 ≠ k := by
        intro z hz
        rcases List.mem_cons.mp hz with rfl | hz
        · exact hlt.ne'
        · exact (hlt.trans (hrest hz)).ne'
      rw [List.mem_cons]
      exact or_congr_right ⟨fun hy => ⟨hy, hne y hy⟩, fun hy => hy.1⟩
    · rename_i hnot
      split
      · rename_i hlt
        rw [List.mem_cons, ih h.of_cons, List.mem_cons]
        constructor
        · rintro (rfl | rfl | hy)
          · exact .inr ⟨.inl rfl, hlt.ne⟩
          · exact .inl rfl
          · exact .inr ⟨.inr hy.1, hy.2⟩
        · rintro (rfl | ⟨rfl | hy, hne⟩)
          · exact .inr (.inl rfl)
          · exact .inl rfl
          · exact .inr (.inr ⟨hy, hne⟩)
      · rename_i hnot'
        obtain rfl : k = x.1 := le_antisymm (not_lt.mp hnot') (not_lt.mp hnot)
        rw [List.mem_cons, List.mem_cons]
        constructor
        · rintro (rfl | hy)
          · exact .inl rfl
          · exact .inr ⟨.inr hy, (hrest hy).ne'⟩
        · rintro (rfl | ⟨rfl | hy, hne⟩)
          · exact .inl rfl
          · exact absurd rfl hne
          · exact .inr hy

lemma insertEntry_sorted {k : K} {v : V} {xs : List (K × V)}
    (h : xs.Pairwise fun x y => x.1 < y.1) :
    (insertEntry k v xs).Pairwise fun x y => x.1 < y.1 := by
  induction xs with
  | nil => simp [insertEntry]
  | cons x xs ih =>
    have hrest : ∀ {z}, z ∈ xs → x.1 < z.1 := List.rel_of_pairwise_cons h
    rw [insertEntry]
    split
    · rename_i hlt
      refine List.pairwise_cons.mpr ⟨fun y hy => ?_, h⟩
      rcases List.mem_cons.mp hy with rfl | hy
      · exact hlt
      · exact hlt.trans (hrest hy)
    · rename_i hnot
      split
      · rename_i hlt
        refine List.pairwise_cons.mpr ⟨fun y hy => ?_, ih h.of_cons⟩
        rcases (mem_insertEntry h.of_cons).mp hy with rfl | hy
        · exact hlt
        · exact hrest hy.1
      · rename_i hnot'
        obtain rfl : k = x.1 := le_antisymm (not_lt.mp hnot') (not_lt.mp hnot)
        exact List.pairwise_cons.mpr ⟨fun y hy => hrest hy, h.of_cons⟩

/-- `m[k] = v`. -/
def insert (m : SortedMap K V) (k : K) (v : V) : SortedMap K V :=
  ⟨insertEntry k v m.entries, insertEntry_sorted m.sorted⟩

@[simp] lemma entries_empty : (empty : SortedMap K V).entries = [] := rfl

lemma mem_insert (m : SortedMap K V) {k : K} {v : V} {y : K × V} :
    y ∈ (m.insert k v).entries ↔ y = (k, v) ∨ y ∈ m.entries ∧ y.1 ≠ k :=
  mem_insertEntry m.sorted

lemma contains_iff {m : SortedMap K V} {k : K} : m.contains k = true ↔ ∃ v, (k, v) ∈ m.entries := by
  simp [contains]

/-- Entries of a fresh key are the old ones and the new one. -/
lemma mem_insert_of_fresh {m : SortedMap K V} {k : K} {v : V} (h : m.contains k = false) {y : K × V} :
    y ∈ (m.insert k v).entries ↔ y = (k, v) ∨ y ∈ m.entries := by
  rw [mem_insert]
  refine or_congr_right ⟨fun hy => hy.1, fun hy => ⟨hy, ?_⟩⟩
  rintro rfl
  have hk := contains_iff.mpr ⟨y.2, hy⟩
  rw [h] at hk
  cases hk

/-- A map is determined by its entries. -/
lemma entries_eq_of_mem {m : SortedMap K V} {xs : List (K × V)}
    (hxs : xs.Pairwise fun x y => x.1 < y.1) (h : ∀ x, x ∈ m.entries ↔ x ∈ xs) : m.entries = xs :=
  m.sorted.eq_of_mem (fun _ _ => lt_asymm) hxs h

end SortedMap
