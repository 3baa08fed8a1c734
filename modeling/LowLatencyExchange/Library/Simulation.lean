import LowLatencyExchange.Library.Run
import Mathlib.Data.Fintype.Sum
import Mathlib.Data.Set.Finite.Basic
import Mathlib.Algebra.Group.End
import Mathlib.Tactic.Common

/-!
# Simulation of computations that can fail

`Follows R x y` says that whenever `x` returns, `y` returns a related result. The rules below
take a program apart next to its copy on other data. A copy on another heap is related by a
renaming of addresses, and a renaming of finitely many addresses is part of a permutation of
all of them. `Matches R F x y` is the two-sided form: both return, with related results, or both
fail, for related reasons.
-/

namespace Simulation

section Follows
variable {ε ε' α α' β β' : Type}

/-- Whatever `x` returns, `y` returns something related. -/
def Follows (R : α → α' → Prop) (x : Except ε α) (y : Except ε' α') : Prop :=
  ∀ a, x = .ok a → ∃ a', y = .ok a' ∧ R a a'

variable {R : α → α' → Prop} {S : β → β' → Prop} {x : Except ε α} {y : Except ε' α'}

lemma follows_pure {a : α} {a' : α'} (h : R a a') :
    Follows R (pure a : Except ε α) (pure a' : Except ε' α') := by
  intro r hr
  cases hr
  exact ⟨a', rfl, h⟩

/-- Two sequences agree when their first parts do, and their second parts on related values. -/
theorem Follows.bind (hx : Follows R x y) {f : α → Except ε β} {g : α' → Except ε' β'}
    (hf : ∀ a a', x = .ok a → R a a' → Follows S (f a) (g a')) :
    Follows S (x >>= f) (y >>= g) := by
  intro r hr
  cases hrun : x with
  | error e =>
    rw [hrun] at hr
    cases hr
  | ok a =>
    rw [hrun] at hr
    obtain ⟨a', ha', hR⟩ := hx a hrun
    obtain ⟨r', hr', hS⟩ := hf a a' hrun hR r hr
    rw [ha']
    exact ⟨r', hr', hS⟩

lemma Follows.ite {p q : Prop} [Decidable p] [Decidable q] (hpq : p ↔ q) {x' : Except ε α}
    {y' : Except ε' α'} (h : p → Follows R x y) (h' : ¬p → Follows R x' y') :
    Follows R (if p then x else x') (if q then y else y') := by
  by_cases hp : p
  · rw [if_pos hp, if_pos (hpq.mp hp)]
    exact h hp
  · rw [if_neg hp, if_neg (fun hq => hp (hpq.mpr hq))]
    exact h' hp

lemma Follows.mono {R' : α → α' → Prop} (h : Follows R x y) (hR : ∀ a a', R a a' → R' a a') :
    Follows R' x y := by
  intro a ha
  obtain ⟨a', ha', hr⟩ := h a ha
  exact ⟨a', ha', hR a a' hr⟩

end Follows

section Matches
variable {ε ε' α α' β β' : Type}

/-- Both return related results, or both fail for related reasons. -/
inductive Matches (R : α → α' → Prop) (F : ε → ε' → Prop) : Except ε α → Except ε' α' → Prop
  | ok {a : α} {a' : α'} : R a a' → Matches R F (.ok a) (.ok a')
  | error {e : ε} {e' : ε'} : F e e' → Matches R F (.error e) (.error e')

variable {R : α → α' → Prop} {S : β → β' → Prop} {F : ε → ε' → Prop} {x : Except ε α} {y : Except ε' α'}

lemma matches_pure {a : α} {a' : α'} (h : R a a') :
    Matches R F (pure a : Except ε α) (pure a' : Except ε' α') := .ok h

theorem Matches.bind (hxy : Matches R F x y) {f : α → Except ε β} {g : α' → Except ε' β'}
    (hfg : ∀ a a', R a a' → Matches S F (f a) (g a')) : Matches S F (x >>= f) (y >>= g) := by
  cases hxy with
  | ok h => exact hfg _ _ h
  | error h => exact .error h

lemma Matches.ite {p q : Prop} [Decidable p] [Decidable q] (hpq : p ↔ q) {x' : Except ε α} {y' : Except ε' α'}
    (h : p → Matches R F x y) (h' : ¬p → Matches R F x' y') :
    Matches R F (if p then x else x') (if q then y else y') := by
  by_cases hp : p
  · rw [if_pos hp, if_pos (hpq.mp hp)]
    exact h hp
  · rw [if_neg hp, if_neg (fun hq => hp (hpq.mpr hq))]
    exact h' hp

lemma Matches.mono {R' : α → α' → Prop} {F' : ε → ε' → Prop} (h : Matches R F x y)
    (hR : ∀ a a', R a a' → R' a a') (hF : ∀ e e', F e e' → F' e e') : Matches R' F' x y := by
  cases h with
  | ok h => exact .ok (hR _ _ h)
  | error h => exact .error (hF _ _ h)

/-- The same loop over the same list, from related values. -/
lemma Matches.foldlM {γ : Type} {f : α → γ → Except ε α} {g : α' → γ → Except ε' α'}
    (hstep : ∀ a a' c, R a a' → Matches R F (f a c) (g a' c)) (l : List γ) {a : α} {a' : α'} (h : R a a') :
    Matches R F (l.foldlM f a) (l.foldlM g a') := by
  induction l generalizing a a' with
  | nil => exact .ok h
  | cons c l ih =>
    rw [List.foldlM_cons, List.foldlM_cons]
    apply (hstep a a' c h).bind
    intro b b' hb
    exact ih hb

open LoggedRun in
/-- Two systems whose steps match send the same along every list of actions, as long as they go on, and fail
at the same place. -/
theorem Matches.execute {A E : Type} {step : α → A → Except ε (α × List E)}
    {step' : α' → A → Except ε' (α' × List E)} (hstep : ∀ a a' c, R a a' →
      Matches (fun r r' => r'.2 = r.2 ∧ R r.1 r'.1) F (step a c) (step' a' c))
    (l : List A) {a : α} {a' : α'} (h : R a a') :
    Matches (fun r r' => r'.2 = r.2 ∧ R r.1 r'.1) F (LoggedRun.execute step a l)
      (LoggedRun.execute step' a' l) := by
  induction l generalizing a a' with
  | nil => exact .ok ⟨rfl, h⟩
  | cons c l ih =>
    generalize hx : step a c = x
    generalize hy : step' a' c = y
    have hfirst := hstep a a' c h
    rw [hx, hy] at hfirst
    cases hfirst with
    | error he =>
      rw [execute_error hx, execute_error hy]
      exact .error he
    | @ok r r' hr =>
      obtain ⟨hsent, hr⟩ := hr
      generalize hrest : LoggedRun.execute step r.1 l = z
      generalize hrest' : LoggedRun.execute step' r'.1 l = z'
      have hlater := ih hr
      rw [hrest, hrest'] at hlater
      cases hlater with
      | error he =>
        rw [execute_cons_error hx hrest, execute_cons_error hy hrest']
        exact .error he
      | ok hq =>
        rw [execute_cons hx hrest, execute_cons hy hrest', hsent, hq.1]
        exact .ok ⟨rfl, hq.2⟩

end Matches

/-- A bijection between two finite sets of addresses is part of a permutation. -/
theorem exists_perm_of_bijOn {P : Type} [DecidableEq P] {f : P → P} {s t : Set P} (hs : s.Finite)
    (hf : s.BijOn f t) : ∃ σ : Equiv.Perm P, s.EqOn f σ := by
  have ht : t.Finite := hf.image_eq ▸ hs.image f
  let u : Finset P := hs.toFinset ∪ ht.toFinset
  have hmaps : s.MapsTo f t := hf.mapsTo
  have hsu : ∀ {p}, p ∈ s → p ∈ u := fun hp => Finset.mem_union_left _ (hs.mem_toFinset.mpr hp)
  have hmapsto : Set.MapsTo (fun p : u => f p) {p : u | p.1 ∈ s} u := by
    intro p hp
    exact Finset.mem_union_right _ (ht.mem_toFinset.mpr (hmaps hp))
  have hinj : Set.InjOn (fun p : u => f p) {p : u | p.1 ∈ s} := by
    intro p hp q hq hpq
    exact Subtype.ext (hf.injOn hp hq hpq)
  obtain ⟨g, hg⟩ := hmapsto.exists_equiv_extend_of_card_eq (Fintype.card_coe u) hinj
  refine ⟨Equiv.Perm.ofSubtype (p := (· ∈ u)) g, fun p hp => ?_⟩
  rw [Equiv.Perm.ofSubtype_apply_of_mem g (hsu hp)]
  exact (hg ⟨p, hsu hp⟩ hp).symm

/-- One more pair of addresses can be prescribed. -/
theorem exists_perm_of_bijOn_insert {P : Type} [DecidableEq P] {f : P → P} {s t : Set P}
    (hs : s.Finite) (hf : s.BijOn f t) {p q : P} (hp : p ∉ s) (hq : q ∉ t) :
    ∃ σ : Equiv.Perm P, s.EqOn f σ ∧ σ p = q := by
  have heq : s.EqOn f (Function.update f p q) := by
    intro x hx
    have hxp : x ≠ p := fun e => hp (e ▸ hx)
    rw [Function.update_of_ne hxp]
  have hinsert : (insert p s).BijOn (Function.update f p q) (insert q t) := by
    have hself : Function.update f p q p = q := Function.update_self p q f
    have hnot : Function.update f p q p ∉ t := by rwa [hself]
    have hbij := (hf.congr heq).insert hnot
    rwa [hself] at hbij
  obtain ⟨σ, hσ⟩ := exists_perm_of_bijOn (hs.insert p) hinsert
  refine ⟨σ, fun x hx => ?_, ?_⟩
  · exact (heq hx).trans (hσ (Set.mem_insert_of_mem p hx))
  · rw [← hσ (Set.mem_insert p s), Function.update_self]

end Simulation
