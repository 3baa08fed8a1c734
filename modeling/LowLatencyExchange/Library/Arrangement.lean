import Mathlib.Order.Lattice
import Mathlib.Tactic.Common

/-!
# Arrangements by a key

What an unstable sort may make of a list: any permutation that is ordered by the key. When elements
have owners, every arrangement keeps each owner's elements in their places among each other just when
no two of these are tied.
-/

namespace Arrangement

variable {α κ γ : Type} [LinearOrder κ] [DecidableEq γ] (key : α → κ) (owner : α → γ)

/-- `ys` is `xs` in an order of the keys. -/
structure Arranged (xs ys : List α) : Prop where
  perm : ys.Perm xs
  ordered : ys.Pairwise fun x y => ¬key y < key x

/-- Each owner's elements come in the same order. -/
def KeepsOrder (xs ys : List α) : Prop := ∀ c, ys.filter (fun x => owner x = c) = xs.filter (fun x => owner x = c)

/-- An owner's keys grow along the list, but for repetitions of an element. -/
def Separated (xs : List α) : Prop := xs.Pairwise fun x y => owner x = owner y → key x < key y ∨ x = y

instance [DecidableEq α] (xs : List α) : Decidable (Separated key owner xs) :=
  inferInstanceAs (Decidable (xs.Pairwise _))

variable {key} {owner} {xs ys : List α}

/-- Separated elements have one arrangement only. -/
theorem Separated.keepsOrder (h : Separated key owner xs) (harranged : Arranged key xs ys) : KeepsOrder owner xs ys := by
  intro c
  have howner : ∀ x ∈ xs.filter (fun x => owner x = c), owner x = c := fun x hx => by
    simpa using (List.mem_filter.mp hx).2
  have hseparated : (xs.filter fun x => owner x = c).Pairwise fun x y => key x < key y ∨ x = y := by
    refine (h.filter _).imp_of_mem fun hx hy hxy => hxy ?_
    rw [howner _ hx, howner _ hy]
  have hperm : (ys.filter fun x => owner x = c).Perm (xs.filter fun x => owner x = c) := harranged.perm.filter _
  -- any two elements of the owner can be compared
  have htotal : ∀ x ∈ xs.filter (fun x => owner x = c), ∀ y ∈ xs.filter (fun x => owner x = c),
      (key x < key y ∨ x = y) ∨ (key y < key x ∨ y = x) := by
    refine List.Pairwise.forall_of_forall_of_flip (fun x _ => .inl (.inr rfl)) ?_ ?_
    · exact hseparated.imp Or.inl
    · exact hseparated.imp Or.inr
  have hordered : (ys.filter fun x => owner x = c).Pairwise fun x y => key x < key y ∨ x = y := by
    refine (harranged.ordered.filter _).imp_of_mem fun hx hy hle => ?_
    rcases htotal _ (hperm.mem_iff.mp hx) _ (hperm.mem_iff.mp hy) with hxy | hlt | heq
    · exact hxy
    · exact absurd hlt hle
    · exact .inr heq.symm
  refine List.Perm.eq_of_pairwise (fun x y _ _ hxy hyx => ?_) hordered hseparated hperm
  rcases hxy with hlt | heq
  · rcases hyx with hlt' | heq'
    · exact absurd hlt' (lt_asymm hlt)
    · exact heq'.symm
  · exact heq

lemma perm_exchange (before between after : List α) (x y : α) :
    (before ++ y :: between ++ x :: after).Perm (before ++ x :: between ++ y :: after) := by
  rw [List.append_assoc, List.append_assoc]
  apply List.Perm.append_left
  calc List.Perm (y :: between ++ x :: after) (y :: x :: (between ++ after)) := List.perm_middle.cons y
    List.Perm _ (x :: y :: (between ++ after)) := List.Perm.swap x y _
    List.Perm _ (x :: between ++ y :: after) := List.perm_middle.symm.cons x

/-- Where an arrangement keeps the order of elements that are not separated, two tied elements of an owner can
change places. -/
theorem exists_exchange (harranged : Arranged key xs ys) (hkeeps : KeepsOrder owner xs ys)
    (h : ¬Separated key owner xs) : ∃ before x between y after, owner x = owner y ∧ key x = key y ∧ x ≠ y ∧
      ys = before ++ x :: between ++ y :: after ∧ Arranged key xs (before ++ y :: between ++ x :: after) := by
  unfold Separated at h
  rw [List.pairwise_iff_forall_sublist] at h
  push Not at h
  obtain ⟨x, y, hsublist, howner, hle, hne⟩ := h
  have hboth : [x, y].Sublist ys := by
    have hfilter := hsublist.filter fun z => owner z = owner y
    rw [List.filter_eq_self.mpr (by simp [howner]), ← hkeeps] at hfilter
    exact hfilter.trans List.filter_sublist
  obtain ⟨front, back, hsplit, hx, hy⟩ := List.cons_sublist_iff.mp hboth
  obtain ⟨before, between, rfl⟩ := List.append_of_mem hx
  obtain ⟨between', after, rfl⟩ := List.append_of_mem (List.singleton_sublist.mp hy)
  have hys : ys = before ++ x :: (between ++ between') ++ y :: after := by simp [hsplit]
  have hkey : key x = key y := by
    have hordered := List.pairwise_iff_forall_sublist.mp harranged.ordered hboth
    exact le_antisymm (not_lt.mp hordered) hle
  refine ⟨before, x, between ++ between', y, after, howner, hkey, hne, hys, ?_, ?_⟩
  · refine List.Perm.trans ?_ harranged.perm
    rw [hys]
    exact perm_exchange before (between ++ between') after x y
  · have hkeys : (before ++ y :: (between ++ between') ++ x :: after).map key = ys.map key := by
      rw [hys]
      simp [hkey]
    have hordered := harranged.ordered
    rw [← List.pairwise_map (f := key) (R := fun k l => ¬l < k), ← hkeys] at hordered
    exact List.pairwise_map.mp hordered

end Arrangement
