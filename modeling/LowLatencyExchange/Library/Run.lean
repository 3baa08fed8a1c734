import Mathlib.Data.List.Induction
import Mathlib.Tactic.Common

/-!
# Logged runs

A system that takes actions one at a time, may fail, and sends messages with every action it
completes. `Reached` is the set of states it gets to, together with the log of its actions
and of what each of them sent. What is asked of an action may depend on the log so far.
-/

namespace LoggedRun

variable {S A E X : Type} {step : S → A → Except X (S × List E)}
  {Allowed : List (A × List E) → S → A → List E → Prop} {init : S}

/-- The states and logs of all runs from `init` whose actions were all allowed and completed. -/
inductive Reached (step : S → A → Except X (S × List E))
    (Allowed : List (A × List E) → S → A → List E → Prop) (init : S) :
    List (A × List E) → S → Prop
  | start : Reached step Allowed init [] init
  | next {log : List (A × List E)} {s s' : S} {a : A} {es : List E} :
      Reached step Allowed init log s → Allowed log s a es → step s a = .ok (s', es) →
      Reached step Allowed init (log ++ [(a, es)]) s'

/-- Everything sent along a log, in order. -/
def sent (log : List (A × List E)) : List E := log.flatMap Prod.snd

@[simp] lemma sent_nil : sent ([] : List (A × List E)) = [] := rfl

@[simp] lemma sent_append (log log' : List (A × List E)) :
    sent (log ++ log') = sent log ++ sent log' := List.flatMap_append

@[simp] lemma sent_singleton (a : A) (es : List E) : sent [(a, es)] = es := by simp [sent]

/-- What holds at the start and survives every action holds in every state of every run. -/
theorem Reached.invariant {log : List (A × List E)} {s : S}
    (h : Reached step Allowed init log s) (I : List (A × List E) → S → Prop) (hinit : I [] init)
    (hstep : ∀ log s a s' es, I log s → Allowed log s a es → step s a = .ok (s', es) →
      I (log ++ [(a, es)]) s') : I log s := by
  induction h with
  | start => exact hinit
  | next _ hallowed hrun ih => exact hstep _ _ _ _ _ ih hallowed hrun

/-- A run stays one when less is asked of its actions. -/
lemma Reached.mono {Allowed' : List (A × List E) → S → A → List E → Prop} {log : List (A × List E)} {s : S}
    (h : Reached step Allowed init log s) (himp : ∀ log s a es, Allowed log s a es → Allowed' log s a es) :
    Reached step Allowed' init log s := by
  induction h with
  | start => exact .start
  | next _ hallowed hrun ih => exact ih.next (himp _ _ _ _ hallowed) hrun

/-- Every entry of a log was an allowed action taken from a state that its own past reached. -/
theorem Reached.entry {log : List (A × List E)} {s : S} (h : Reached step Allowed init log s)
    {past future : List (A × List E)} {a : A} {es : List E} (hlog : log = past ++ (a, es) :: future) :
    ∃ s₁ s₂, Reached step Allowed init past s₁ ∧ Allowed past s₁ a es ∧
      step s₁ a = .ok (s₂, es) := by
  induction h generalizing future with
  | start => simp at hlog
  | @next log s₁ s₂ a' es' hreached hallowed hrun ih =>
    rcases List.eq_nil_or_concat future with rfl | ⟨future, last, rfl⟩
    · obtain ⟨rfl, hlast⟩ := List.append_inj' hlog rfl
      obtain ⟨rfl, rfl⟩ : a' = a ∧ es' = es := by simpa using hlast
      exact ⟨s₁, s₂, hreached, hallowed, hrun⟩
    · have hinit : log ++ [(a', es')] = (past ++ (a, es) :: future) ++ [last] := by
        simpa using hlog
      exact ih (List.append_inj' hinit rfl).1

/-- One run after another. -/
lemma Reached.trans {Allowed' : List (A × List E) → S → A → List E → Prop} {log more : List (A × List E)} {s s' : S}
    (h : Reached step Allowed init log s) (h' : Reached step Allowed' s more s')
    (himp : ∀ past t a es, Allowed' past t a es → Allowed (log ++ past) t a es) :
    Reached step Allowed init (log ++ more) s' := by
  induction h' with
  | start =>
    rw [List.append_nil]
    exact h
  | next _ hallowed hrun ih =>
    rw [← List.append_assoc]
    exact ih.next (himp _ _ _ _ hallowed) hrun

/-- The actions of a list, one after another, and everything they send. -/
def execute (step : S → A → Except X (S × List E)) : S → List A → Except X (S × List E)
  | s, [] => .ok (s, [])
  | s, a :: as =>
    match step s a with
    | .error e => .error e
    | .ok (s₁, es) =>
      match execute step s₁ as with
      | .error e => .error e
      | .ok (s₂, es') => .ok (s₂, es ++ es')

@[simp] lemma execute_nil (s : S) : execute step s [] = .ok (s, []) := rfl

lemma execute_cons {s s₁ s₂ : S} {a : A} {as : List A} {es es' : List E}
    (h : step s a = .ok (s₁, es)) (h' : execute step s₁ as = .ok (s₂, es')) :
    execute step s (a :: as) = .ok (s₂, es ++ es') := by
  simp only [execute, h, h']

lemma execute_error {s : S} {a : A} {e : X} (h : step s a = .error e) (as : List A) :
    execute step s (a :: as) = .error e := by
  simp only [execute, h]

lemma execute_cons_error {s s₁ : S} {a : A} {as : List A} {es : List E} {e : X}
    (h : step s a = .ok (s₁, es)) (h' : execute step s₁ as = .error e) : execute step s (a :: as) = .error e := by
  simp only [execute, h, h']

lemma execute_cons_ok {s s₂ : S} {a : A} {as : List A} {es : List E}
    (h : execute step s (a :: as) = .ok (s₂, es)) : ∃ s₁ es₁ es₂, step s a = .ok (s₁, es₁) ∧
      execute step s₁ as = .ok (s₂, es₂) ∧ es = es₁ ++ es₂ := by
  rw [execute] at h
  split at h
  · cases h
  · rename_i s₁ es₁ hstep
    split at h
    · cases h
    · rename_i s' es₂ hrest
      cases h
      exact ⟨s₁, es₁, es₂, hstep, hrest, rfl⟩

lemma execute_append_eq {s s₁ : S} {as : List A} {es : List E}
    (h : execute step s as = .ok (s₁, es)) (as' : List A) :
    execute step s (as ++ as') =
      match execute step s₁ as' with
      | .error e => .error e
      | .ok (s₂, es') => .ok (s₂, es ++ es') := by
  induction as generalizing s es with
  | nil =>
    cases h
    rw [List.nil_append]
    split <;> rename_i h <;> exact h
  | cons a as ih =>
    obtain ⟨t, es₁, es₂, hstep, hrest, rfl⟩ := execute_cons_ok h
    rw [List.cons_append, execute, hstep]
    simp only [ih hrest]
    cases execute step s₁ as' <;> simp

lemma execute_append {s s₁ s₂ : S} {as as' : List A} {es es' : List E}
    (h : execute step s as = .ok (s₁, es)) (h' : execute step s₁ as' = .ok (s₂, es')) :
    execute step s (as ++ as') = .ok (s₂, es ++ es') := by
  rw [execute_append_eq h, h']

lemma execute_append_ok {s s₂ : S} {as as' : List A} {es : List E}
    (h : execute step s (as ++ as') = .ok (s₂, es)) : ∃ s₁ es₁ es₂, execute step s as = .ok (s₁, es₁) ∧
      execute step s₁ as' = .ok (s₂, es₂) ∧ es = es₁ ++ es₂ := by
  induction as generalizing s es with
  | nil => exact ⟨s, [], es, rfl, h, rfl⟩
  | cons a as ih =>
    obtain ⟨t, es₁, es₂, hstep, hrest, rfl⟩ := execute_cons_ok h
    obtain ⟨s₁, es₃, es₄, hrun, hrun', rfl⟩ := ih hrest
    exact ⟨s₁, es₁ ++ es₃, es₄, execute_cons hstep hrun, hrun', (List.append_assoc _ _ _).symm⟩

/-- A run goes as its actions do. -/
lemma Reached.execute_eq {log : List (A × List E)} {s : S} (h : Reached step Allowed init log s) :
    execute step init (log.map Prod.fst) = .ok (s, sent log) := by
  induction h with
  | start => rfl
  | next _ _ hrun ih =>
    rw [List.map_append, sent_append, sent_singleton]
    have hlast := execute_cons hrun (execute_nil _)
    rw [List.append_nil] at hlast
    exact execute_append ih hlast

/-- How many of the actions of a list are taken from a state in which they count. -/
def tally (step : S → A → Except X (S × List E)) (Counts : S → A → Prop) [∀ s a, Decidable (Counts s a)] :
    S → List A → Nat
  | _, [] => 0
  | s, a :: as => (if Counts s a then 1 else 0) +
    match step s a with
    | .error _ => 0
    | .ok (s', _) => tally step Counts s' as

lemma tally_append {Counts : S → A → Prop} [∀ s a, Decidable (Counts s a)] {s s' : S} {as : List A} {es : List E}
    (h : execute step s as = .ok (s', es)) (bs : List A) :
    tally step Counts s (as ++ bs) = tally step Counts s as + tally step Counts s' bs := by
  induction as generalizing s es with
  | nil =>
    cases h
    rw [List.nil_append, tally, Nat.zero_add]
  | cons a as ih =>
    obtain ⟨s₁, es₁, es₂, hstep, hrest, -⟩ := execute_cons_ok h
    rw [List.cons_append, tally, tally, hstep]
    dsimp only
    rw [ih hrest, Nat.add_assoc]

/-- Where the actions that count use up one unit of a measure each, and the others none, they are as many as the
measure says. -/
theorem Reached.spent {I : List (A × List E) → S → Prop} {measure : S → Nat} {Counts : S → A → Prop}
    [∀ s a, Decidable (Counts s a)] {log : List (A × List E)} {s : S}
    (h : Reached step Allowed init log s) (hI : ∀ past t, Reached step Allowed init past t → I past t)
    (hstep : ∀ past t a t' es, I past t → Allowed past t a es → step t a = .ok (t', es) →
      measure t' + (if Counts t a then 1 else 0) = measure t) :
    tally step Counts init (log.map Prod.fst) + measure s = measure init := by
  induction h with
  | start => exact Nat.zero_add _
  | next hreached hallowed hrun ih =>
    have hspent := hstep _ _ _ _ _ (hI _ _ hreached) hallowed hrun
    rw [List.map_append, tally_append hreached.execute_eq, List.map_singleton, tally, hrun]
    simp only [tally]
    omega

/-- Actions that are allowed in any state make a run. -/
lemma reached_execute {as : List A} {s s' : S} {past : List (A × List E)} {es : List E}
    (hallowed : ∀ past s, ∀ a ∈ as, ∀ es, Allowed past s a es) (h : Reached step Allowed init past s)
    (hrun : execute step s as = .ok (s', es)) :
    ∃ log, Reached step Allowed init (past ++ log) s' ∧ sent log = es ∧ log.map Prod.fst = as := by
  induction as generalizing s past es with
  | nil =>
    cases hrun
    exact ⟨[], by rwa [List.append_nil], rfl, rfl⟩
  | cons a as ih =>
    obtain ⟨s₁, es₁, es₂, hstep, hrest, rfl⟩ := execute_cons_ok hrun
    have hnext := h.next (hallowed past s a List.mem_cons_self es₁) hstep
    obtain ⟨log, hreached, hsent, hactions⟩ :=
      ih (fun past s x hx => hallowed past s x (List.mem_cons_of_mem a hx)) hnext hrest
    refine ⟨(a, es₁) :: log, ?_, ?_, ?_⟩
    · rwa [List.append_assoc] at hreached
    · rw [← hsent]
      rfl
    · rw [List.map_cons, hactions]

/-- The actions of a list on a system that never fails. -/
def replay {T : Type} (f : T → A → T × List E) : T → List A → T × List E
  | t, [] => (t, [])
  | t, a :: as => ((replay f (f t a).1 as).1, (f t a).2 ++ (replay f (f t a).1 as).2)

lemma replay_append {T : Type} (f : T → A → T × List E) (t : T) (as : List A) (a : A) :
    replay f t (as ++ [a]) = ((f (replay f t as).1 a).1, (replay f t as).2 ++ (f (replay f t as).1 a).2) := by
  induction as generalizing t with
  | nil => simp [replay]
  | cons x as ih => simp only [List.cons_append, replay, ih, List.append_assoc]

/-- Where every accepted action does to related states the same, and sends the same, a run of accepted actions
sends what its replay sends, and ends in related states. -/
theorem Reached.refines {T : Type} {f : T → A → T × List E} {t : T} {Accepts : T → A → Prop} {R : S → T → Prop}
    (hinit : R init t)
    (hstep : ∀ s t a s' es, R s t → Accepts t a → step s a = .ok (s', es) → (f t a).2 = es ∧ R s' (f t a).1)
    {log : List (A × List E)} {s : S}
    (h : Reached step (fun past _ a _ => Accepts (replay f t (past.map Prod.fst)).1 a) init log s) :
    (replay f t (log.map Prod.fst)).2 = sent log ∧ R s (replay f t (log.map Prod.fst)).1 := by
  apply h.invariant fun log s => (replay f t (log.map Prod.fst)).2 = sent log ∧ R s (replay f t (log.map Prod.fst)).1
  · exact ⟨rfl, hinit⟩
  · intro log s a s' es hrefines haccepts hrun
    obtain ⟨hsent, hrelated⟩ := hrefines
    obtain ⟨hsame, hrelated'⟩ := hstep s _ a s' es hrelated haccepts hrun
    rw [List.map_append, List.map_singleton, replay_append, sent_append, sent_singleton]
    exact ⟨by rw [hsent, hsame], hrelated'⟩

/-- The error that a list of actions ends in. -/
def errorOf (step : S → A → Except X (S × List E)) (s : S) (as : List A) : Option X :=
  match execute step s as with
  | .ok _ => none
  | .error e => some e

/-- An error comes from one of the actions, taken from the state that the actions before it lead to. -/
lemma errorOf_eq_some {as : List A} {s : S} {e : X} (h : errorOf step s as = some e) :
    ∃ past a later s' es, as = past ++ a :: later ∧ execute step s past = .ok (s', es) ∧ step s' a = .error e := by
  induction as generalizing s with
  | nil => cases h
  | cons a as ih =>
    cases hstep : step s a with
    | error e' =>
      simp only [errorOf, execute, hstep] at h
      exact ⟨[], a, as, s, [], rfl, rfl, by rw [hstep, Option.some.inj h]⟩
    | ok x =>
      obtain ⟨s₁, es₁⟩ := x
      have hrest : errorOf step s₁ as = some e := by
        simp only [errorOf, execute, hstep] at h ⊢
        cases hexecute : execute step s₁ as <;> simp_all
      obtain ⟨past, a', later, s', es, rfl, hpast, herror⟩ := ih hrest
      exact ⟨a :: past, a', later, s', es₁ ++ es, rfl, execute_cons hstep hpast, herror⟩

/-- `P` holds at the start of a run and after each of its actions. -/
def Always (step : S → A → Except X (S × List E)) (init : S) (as : List A) (P : S → Prop) : Prop :=
  ∀ past s es, past <+: as → execute step init past = .ok (s, es) → P s

/-- No action of a run is taken from a state where it is bad. -/
def Never (step : S → A → Except X (S × List E)) (init : S) (as : List A) (Bad : S → A → Prop) : Prop :=
  ∀ past a s es, past ++ [a] <+: as → execute step init past = .ok (s, es) → ¬Bad s a

lemma execute_singleton {s s' : S} {a : A} {es : List E} (h : execute step s [a] = .ok (s', es)) :
    step s a = .ok (s', es) := by
  obtain ⟨s₁, es₁, es₂, hstep, hnil, rfl⟩ := execute_cons_ok h
  cases hnil
  rwa [List.append_nil]

/-- What holds at the start and survives every action holds all along. -/
theorem always_of_step {as : List A} {P : S → Prop} (hinit : P init)
    (hstep : ∀ s a s' es, P s → step s a = .ok (s', es) → P s') : Always step init as P := by
  intro past
  induction past using List.reverseRecOn with
  | nil =>
    intro s es _ hrun
    cases hrun
    exact hinit
  | append_singleton past a ih =>
    intro s es hpast hrun
    obtain ⟨s₁, es₁, es₂, hbefore, hlast, -⟩ := execute_append_ok hrun
    have hP := ih s₁ es₁ ((List.prefix_append past [a]).trans hpast) hbefore
    exact hstep s₁ a s es₂ hP (execute_singleton hlast)

/-- What holds at the start and survives the actions of a run holds of the state and of everything
sent, after each of them. -/
theorem execute_invariant {as : List A} {I : S → List E → Prop} (hinit : I init [])
    (hstep : ∀ past a s es s' es', past ++ [a] <+: as → execute step init past = .ok (s, es) → I s es →
      step s a = .ok (s', es') → I s' (es ++ es')) :
    ∀ past s es, past <+: as → execute step init past = .ok (s, es) → I s es := by
  intro past
  induction past using List.reverseRecOn with
  | nil =>
    intro s es _ hrun
    cases hrun
    exact hinit
  | append_singleton past a ih =>
    intro s es hpast hrun
    obtain ⟨s₁, es₁, es₂, hbefore, hlast, rfl⟩ := execute_append_ok hrun
    have hI := ih s₁ es₁ ((List.prefix_append past [a]).trans hpast) hbefore
    exact hstep past a s₁ es₁ s es₂ hpast hbefore hI (execute_singleton hlast)

/-- Where the actions that are not bad keep `I`, it holds along a run without bad actions. -/
theorem Never.invariant {as : List A} {Bad : S → A → Prop} (hnever : Never step init as Bad)
    {I : S → List E → Prop} (hinit : I init [])
    (hstep : ∀ s es a s' es', I s es → ¬Bad s a → step s a = .ok (s', es') → I s' (es ++ es')) :
    ∀ past s es, past <+: as → execute step init past = .ok (s, es) → I s es :=
  execute_invariant hinit fun past a s es s' es' hpast hbefore hI hrun =>
    hstep s es a s' es' hI (hnever past a s es hpast hbefore) hrun

/-- Where bad actions break `P`, and the others keep `I`, a run along which `P` holds has no bad
actions. -/
theorem never_of_invariant {as : List A} {s : S} {es : List E} (hrun : execute step init as = .ok (s, es))
    {Bad : S → A → Prop} {I P : S → List E → Prop} (hinit : I init [])
    (hstep : ∀ s es a s' es', I s es → ¬Bad s a → step s a = .ok (s', es') → I s' (es ++ es'))
    (hbad : ∀ s es a s' es', I s es → step s a = .ok (s', es') → P s' (es ++ es') → ¬Bad s a)
    (hP : ∀ past s es, past <+: as → execute step init past = .ok (s, es) → P s es) :
    Never step init as Bad := by
  have hI : ∀ past s es, past <+: as → execute step init past = .ok (s, es) → I s es := by
    apply execute_invariant hinit
    intro past a s es s' es' hpast hbefore hI hlast
    have hafter : execute step init (past ++ [a]) = .ok (s', es ++ es') := by
      have hsingle := execute_cons hlast (execute_nil s')
      rw [List.append_nil] at hsingle
      exact execute_append hbefore hsingle
    exact hstep s es a s' es' hI (hbad s es a s' es' hI hlast (hP _ _ _ hpast hafter)) hlast
  intro past a s₁ es₁ hpast hbefore
  obtain ⟨later, rfl⟩ := hpast
  obtain ⟨s₂, es₂, es₃, hafter, -, -⟩ := execute_append_ok hrun
  obtain ⟨s₃, es₄, es₅, hbefore', hlast, rfl⟩ := execute_append_ok hafter
  obtain ⟨rfl, rfl⟩ : s₃ = s₁ ∧ es₄ = es₁ := by simpa using hbefore'.symm.trans hbefore
  have hpre : past <+: past ++ [a] ++ later := (List.prefix_append past [a]).trans (List.prefix_append _ later)
  exact hbad s₃ es₄ a s₂ es₅ (hI _ _ _ hpre hbefore) (execute_singleton hlast)
    (hP _ _ _ (List.prefix_append _ later) hafter)

/-- Where an action loses `P` exactly when it is bad, `P` holds all along a run just when none of
its actions is bad. -/
theorem always_iff_never {as : List A} {s : S} {es : List E} (hrun : execute step init as = .ok (s, es))
    {I P : S → Prop} {Bad : S → A → Prop} (hI : Always step init as I) (hinit : P init)
    (hstep : ∀ s a s' es, I s → P s → step s a = .ok (s', es) → (P s' ↔ ¬Bad s a)) :
    Always step init as P ↔ Never step init as Bad := by
  constructor
  · intro hP past a s₁ es₁ hpast hbefore
    obtain ⟨later, rfl⟩ := hpast
    obtain ⟨s₂, es₂, es₃, hafter, -, -⟩ := execute_append_ok hrun
    obtain ⟨s₃, es₄, es₅, hbefore', hlast, -⟩ := execute_append_ok hafter
    obtain ⟨rfl, rfl⟩ : s₃ = s₁ ∧ es₄ = es₁ := by simpa using hbefore'.symm.trans hbefore
    have hpre : past <+: past ++ [a] ++ later := (List.prefix_append past [a]).trans (List.prefix_append _ later)
    exact (hstep s₃ a s₂ es₅ (hI _ _ _ hpre hbefore) (hP _ _ _ hpre hbefore) (execute_singleton hlast)).mp
      (hP _ _ _ (List.prefix_append _ later) hafter)
  · intro hnever past
    induction past using List.reverseRecOn with
    | nil =>
      intro s es _ hrun
      cases hrun
      exact hinit
    | append_singleton past a ih =>
      intro s es hpast hrun
      obtain ⟨s₁, es₁, es₂, hbefore, hlast, -⟩ := execute_append_ok hrun
      have hpre : past <+: as := (List.prefix_append past [a]).trans hpast
      exact (hstep s₁ a s es₂ (hI _ _ _ hpre hbefore) (ih _ _ hpre hbefore) (execute_singleton hlast)).mpr
        (hnever past a s₁ es₁ hpast hbefore)

lemma Always.tail {a : A} {as : List A} {P : S → Prop} (h : Always step init (a :: as) P) {s : S} {es : List E}
    (hstep : step init a = .ok (s, es)) : Always step s as P := by
  intro past s' es' hpast hrun
  have hcons : a :: past <+: a :: as := List.cons_prefix_cons.mpr ⟨rfl, hpast⟩
  exact h (a :: past) s' (es ++ es') hcons (execute_cons hstep hrun)

lemma never_nil {Bad : S → A → Prop} : Never step init [] Bad := by
  intro past a s es hpast _
  simp at hpast

lemma Never.first {a : A} {as : List A} {Bad : S → A → Prop} (h : Never step init (a :: as) Bad) : ¬Bad init a :=
  h [] a init [] (List.cons_prefix_cons.mpr ⟨rfl, List.nil_prefix⟩) rfl

lemma never_cons {a : A} {as : List A} {Bad : S → A → Prop} (h : ¬Bad init a)
    (hrest : ∀ s es, step init a = .ok (s, es) → Never step s as Bad) : Never step init (a :: as) Bad := by
  intro past a' s es hpast hrun
  cases past with
  | nil =>
    cases hrun
    obtain rfl : a' = a := by simpa using hpast
    exact h
  | cons x past =>
    rw [List.cons_append, List.cons_prefix_cons] at hpast
    obtain ⟨rfl, htail⟩ := hpast
    obtain ⟨s₁, es₁, es₂, hstep, hafter, -⟩ := execute_cons_ok hrun
    exact hrest s₁ es₁ hstep past a' s es₂ htail hafter

/-- Where its first action completes, a run has no bad actions just when the first is not bad and the rest has
none. -/
lemma never_cons_iff {a : A} {as : List A} {s : S} {es : List E} {Bad : S → A → Prop}
    (hstep : step init a = .ok (s, es)) : Never step init (a :: as) Bad ↔ ¬Bad init a ∧ Never step s as Bad := by
  constructor
  · intro h
    refine ⟨h.first, fun past a' s' es' hpast hrun => ?_⟩
    exact h (a :: past) a' s' (es ++ es') (List.cons_prefix_cons.mpr ⟨rfl, hpast⟩) (execute_cons hstep hrun)
  · rintro ⟨hfirst, hrest⟩
    apply never_cons hfirst
    intro s' es' hstep'
    rw [hstep] at hstep'
    cases hstep'
    exact hrest

lemma always_nil {P : S → Prop} : Always step init [] P ↔ P init := by
  constructor
  · intro h
    exact h [] init [] List.nil_prefix rfl
  · intro h past s es hpast hrun
    obtain rfl : past = [] := List.prefix_nil.mp hpast
    cases hrun
    exact h

/-- Where its first action completes, `P` holds along a run just when it holds at its start and along the rest. -/
lemma always_cons_iff {a : A} {as : List A} {s : S} {es : List E} {P : S → Prop}
    (hstep : step init a = .ok (s, es)) : Always step init (a :: as) P ↔ P init ∧ Always step s as P := by
  constructor
  · intro h
    exact ⟨h [] init [] List.nil_prefix rfl, h.tail hstep⟩
  · rintro ⟨hinit, hrest⟩ past s' es' hpast hrun
    cases past with
    | nil =>
      cases hrun
      exact hinit
    | cons x past =>
      obtain ⟨rfl, htail⟩ := List.cons_prefix_cons.mp hpast
      obtain ⟨s₁, es₁, es₂, hfirst, hafter, -⟩ := execute_cons_ok hrun
      rw [hstep] at hfirst
      cases hfirst
      exact hrest past s' es₂ htail hafter

/-- The two parts of a run without bad actions. -/
lemma Never.before {as bs : List A} {Bad : S → A → Prop} (h : Never step init (as ++ bs) Bad) :
    Never step init as Bad := fun past a s es hpast hrun =>
  h past a s es (hpast.trans (List.prefix_append as bs)) hrun

lemma Never.later {as bs : List A} {Bad : S → A → Prop} (h : Never step init (as ++ bs) Bad) {s : S} {es : List E}
    (hrun : execute step init as = .ok (s, es)) : Never step s bs Bad := by
  intro past a s' es' hpast hafter
  have hboth : as ++ past ++ [a] <+: as ++ bs := by
    rw [List.append_assoc]
    exact (List.prefix_append_right_inj as).mpr hpast
  exact h (as ++ past) a s' (es ++ es') hboth (execute_append hrun hafter)

lemma never_append {as bs : List A} {Bad : S → A → Prop} (h : Never step init as Bad)
    (hrest : ∀ s es, execute step init as = .ok (s, es) → Never step s bs Bad) : Never step init (as ++ bs) Bad := by
  induction as generalizing init with
  | nil => exact hrest init [] rfl
  | cons a as ih =>
    apply never_cons h.first
    intro s es hstep
    apply ih ((never_cons_iff hstep).mp h).2
    intro s' es' hrun
    exact hrest s' _ (execute_cons hstep hrun)

/-- A run whose actions are all good ones is a run of good actions. -/
lemma Never.reached {as : List A} {Good : S → A → Prop} (h : Never step init as fun s a => ¬Good s a) {s : S}
    {es : List E} (hrun : execute step init as = .ok (s, es)) :
    ∃ log, Reached step (fun _ s a _ => Good s a) init log s ∧ sent log = es ∧ log.map Prod.fst = as := by
  induction as using List.reverseRecOn generalizing s es with
  | nil =>
    cases hrun
    exact ⟨[], .start, rfl, rfl⟩
  | append_singleton as a ih =>
    obtain ⟨s₁, es₁, es₂, hbefore, hlast, rfl⟩ := execute_append_ok hrun
    obtain ⟨log, hreached, rfl, rfl⟩ := ih h.before hbefore
    have hgood : Good s₁ a := not_not.mp ((h.later hbefore).first)
    refine ⟨log ++ [(a, es₂)], hreached.next hgood (execute_singleton hlast), ?_, ?_⟩
    · rw [sent_append, sent_singleton]
    · rw [List.map_append]
      rfl

/-- A run of good actions has no others. -/
lemma Reached.never {Good : S → A → Prop} {log : List (A × List E)} {s : S}
    (h : Reached step (fun _ s a _ => Good s a) init log s) :
    Never step init (log.map Prod.fst) fun s a => ¬Good s a := by
  induction h with
  | start => exact never_nil
  | next hreached hgood hrun ih =>
    rw [List.map_append, List.map_singleton]
    apply never_append ih
    intro s₁ es hbefore
    obtain ⟨rfl, -⟩ : _ ∧ _ := by simpa using hreached.execute_eq.symm.trans hbefore
    exact never_cons (not_not.mpr hgood) fun _ _ _ => never_nil

/-- Runs the actions and looks at what they lead to. -/
def ends (step : S → A → Except X (S × List E)) (s : S) (as : List A) (good : S → List E → Bool) : Bool :=
  match execute step s as with
  | .error _ => false
  | .ok (s', es) => good s' es

lemma exists_of_ends (step : S → A → Except X (S × List E)) (init : S) (as : List A) (P : S → List E → Prop)
    [∀ s es, Decidable (P s es)] (h : ends step init as (fun s es => decide (P s es)) = true) :
    ∃ s es, execute step init as = .ok (s, es) ∧ P s es := by
  unfold ends at h
  split at h
  · cases h
  · rename_i s es hrun
    exact ⟨s, es, hrun, of_decide_eq_true h⟩

/-- Runs the actions and looks for a bad one. -/
def avoids (step : S → A → Except X (S × List E)) (bad : S → A → Bool) : S → List A → Bool
  | _, [] => true
  | s, a :: as => !bad s a &&
    match step s a with
    | .error _ => true
    | .ok (s', _) => avoids step bad s' as

lemma never_of_avoids {as : List A} {Bad : S → A → Prop} [∀ s a, Decidable (Bad s a)]
    (h : avoids step (fun s a => decide (Bad s a)) init as = true) : Never step init as Bad := by
  induction as generalizing init with
  | nil => exact never_nil
  | cons a as ih =>
    rw [avoids, Bool.and_eq_true] at h
    obtain ⟨hfirst, hrest⟩ := h
    apply never_cons
    · simpa using hfirst
    · intro s es hstep
      rw [hstep] at hrest
      exact ih hrest

end LoggedRun
