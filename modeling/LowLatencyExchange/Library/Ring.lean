import Mathlib.Data.List.Chain
import Mathlib.Tactic.Common

/-!
# Circular doubly linked lists

A node type `P` with two partial link functions `next` and `prev`. `Ring next prev l` says
that `l` lists the nodes of one circular doubly linked list, once around from its first
element. The rules below say how a ring is read and which writes extend or shorten it.
-/

namespace CircularList

variable {P : Type} {next prev next' prev' : P → Option P}

/-- `b` follows `a` and `a` precedes `b`. -/
def Joined (next prev : P → Option P) (a b : P) : Prop := next a = some b ∧ prev b = some a

/-- Neighbours are joined, and the last element is joined to the first. -/
def Ring (next prev : P → Option P) (l : List P) : Prop :=
  l.IsChain (Joined next prev) ∧ ∀ a ∈ l.getLast?, ∀ b ∈ l.head?, Joined next prev a b

@[simp] lemma ring_nil : Ring next prev [] := ⟨.nil, by simp⟩

@[simp] lemma ring_singleton (a : P) : Ring next prev [a] ↔ next a = some a ∧ prev a = some a := by
  simp [Ring, Joined]

/-- A ring can be read from any of its elements. -/
theorem ring_append_comm (l m : List P) : Ring next prev (l ++ m) ↔ Ring next prev (m ++ l) := by
  cases l with
  | nil => simp
  | cons a l =>
    cases m with
    | nil => simp
    | cons b m =>
      simp only [Ring, List.isChain_append, List.getLast?_append, List.head?_append,
        List.head?_cons, Option.or_some, List.getLast?_cons]
      simp
      tauto

lemma Ring.joined {l m : List P} {a b : P} (h : Ring next prev (l ++ a :: b :: m)) :
    Joined next prev a b :=
  (List.isChain_append_cons_cons.mp h.1).2.1

lemma Ring.joined_last {l m : List P} {a b : P} (h : Ring next prev (a :: l)) (hb : a :: l = m ++ [b]) :
    Joined next prev b a :=
  h.2 b (by simp [hb]) a (by simp)

/-- The successor of an element is its neighbour in the list, or the first element. -/
lemma Ring.exists_next {l : List P} (h : Ring next prev l) {a : P} (ha : a ∈ l) :
    ∃ b ∈ l, Joined next prev a b := by
  obtain ⟨s, t, rfl⟩ := List.append_of_mem ha
  have hr := (ring_append_comm s (a :: t)).mp h
  cases hts : t ++ s with
  | nil =>
    have hj := hr.joined_last (m := []) (b := a) (by simpa using hts)
    exact ⟨a, ha, hj⟩
  | cons b u =>
    have hb : b ∈ t ++ s := hts ▸ List.mem_cons_self
    have hj : Joined next prev a b := by
      have hr' : Ring next prev ([] ++ a :: b :: u) := by simpa [hts] using hr
      exact hr'.joined
    exact ⟨b, by simp at hb ⊢; tauto, hj⟩

lemma Ring.exists_prev {l : List P} (h : Ring next prev l) {a : P} (ha : a ∈ l) :
    ∃ b ∈ l, Joined next prev b a := by
  obtain ⟨s, t, rfl⟩ := List.append_of_mem ha
  have hr := (ring_append_comm s (a :: t)).mp h
  obtain ⟨m, b, hm⟩ : ∃ m b, a :: t ++ s = m ++ [b] :=
    ⟨_, _, (List.dropLast_append_getLast (by simp)).symm⟩
  have hb : b ∈ a :: t ++ s := by rw [hm]; simp
  exact ⟨b, by simp at hb ⊢; tauto, hr.joined_last (by simpa using hm)⟩

/-- A ring only depends on the links of its own elements. -/
lemma Ring.congr {l : List P} (h : Ring next prev l) (hn : ∀ a ∈ l, next' a = next a)
    (hp : ∀ a ∈ l, prev' a = prev a) : Ring next' prev' l := by
  have hj : ∀ a b, a ∈ l → b ∈ l → Joined next prev a b → Joined next' prev' a b :=
    fun a b ha hb hab => ⟨(hn a ha).trans hab.1, (hp b hb).trans hab.2⟩
  exact ⟨h.1.imp_of_mem_imp hj, fun a ha b hb =>
    hj a b (List.mem_of_getLast? ha) (List.mem_of_head? hb) (h.2 a ha b hb)⟩

/-- A ring read from its first element comes back to it. -/
lemma Ring.next_eq {a x : P} {l m : List P} (h : Ring next prev (a :: l ++ x :: m)) :
    next x = (m ++ [a]).head? := by
  cases m with
  | nil => exact (Ring.joined_last (m := a :: l) h rfl).1
  | cons y m => exact h.joined.1

lemma Ring.next_first {a : P} {m : List P} (h : Ring next prev (a :: m)) : next a = (m ++ [a]).head? := by
  cases m with
  | nil => exact ((ring_singleton a).mp h).1
  | cons y m => exact (Ring.joined (l := []) h).1

/-- The successor of an element wherever the ring is read from. -/
lemma Ring.next_of_split {l m : List P} {a : P} (h : Ring next prev (l ++ a :: m)) :
    next a = (m ++ (l ++ [a])).head? := by
  rw [ring_append_comm, List.cons_append] at h
  rw [h.next_first, List.append_assoc]

/-- Only the last element points back to the first. -/
lemma Ring.next_eq_first_iff {l m : List P} {a first : P} (h : Ring next prev (l ++ a :: m))
    (hd : (l ++ a :: m).Nodup) (hfirst : (l ++ [a]).head? = some first) : next a = some first ↔ m = [] := by
  rw [h.next_of_split]
  cases m with
  | nil => simpa using hfirst
  | cons y m =>
    have hmem : first ∈ l ++ [a] := List.mem_of_head? hfirst
    have hdis : (l ++ [a] ++ y :: m).Nodup := by
      rw [List.append_assoc]
      exact hd
    have hne : first ≠ y := (List.nodup_append.mp hdis).2.2 _ hmem _ List.mem_cons_self
    simp [hne.symm]

/-- A ring moved along with its links is a ring. -/
lemma Ring.map {Q : Type} {next' prev' : Q → Option Q} {l : List P} (g : P → Q) (h : Ring next prev l)
    (hn : ∀ a ∈ l, next' (g a) = (next a).map g) (hp : ∀ a ∈ l, prev' (g a) = (prev a).map g) :
    Ring next' prev' (l.map g) := by
  have hj : ∀ a b, a ∈ l → b ∈ l → Joined next prev a b → Joined next' prev' (g a) (g b) := by
    intro a b ha hb hab
    refine ⟨?_, ?_⟩
    · rw [hn a ha, hab.1, Option.map_some]
    · rw [hp b hb, hab.2, Option.map_some]
  refine ⟨?_, ?_⟩
  · rw [List.isChain_map]
    exact h.1.imp_of_mem_imp hj
  · intro x hx y hy
    rw [List.getLast?_map] at hx
    rw [List.head?_map] at hy
    obtain ⟨a, ha, rfl⟩ := Option.map_eq_some_iff.mp hx
    obtain ⟨b, hb, rfl⟩ := Option.map_eq_some_iff.mp hy
    exact hj a b (List.mem_of_getLast? ha) (List.mem_of_head? hb) (h.2 a ha b hb)

/-- In a ring of distinct elements an element follows itself only when it is alone. -/
lemma Ring.next_self_iff {l m : List P} {a : P} (h : Ring next prev (l ++ a :: m))
    (hd : (l ++ a :: m).Nodup) : next a = some a ↔ l = [] ∧ m = [] := by
  have hr := (ring_append_comm l (a :: m)).mp h
  constructor
  · intro ha
    cases hml : m ++ l with
    | nil => simpa [and_comm] using hml
    | cons b u =>
      have hr' : Ring next prev ([] ++ a :: b :: u) := by simpa [hml] using hr
      have hab : a = b := by simpa [ha] using hr'.joined.1
      have hmem : a ∈ m ++ l := by rw [hml, hab]; exact List.mem_cons_self
      simp [List.nodup_append, List.nodup_cons] at hd hmem
      grind
  · rintro ⟨rfl, rfl⟩
    simp at h
    exact h.1

lemma Ring.prev_self_iff {l m : List P} {a : P} (h : Ring next prev (l ++ a :: m))
    (hd : (l ++ a :: m).Nodup) : prev a = some a ↔ l = [] ∧ m = [] := by
  rw [← h.next_self_iff hd]
  obtain ⟨b, -, hb⟩ := h.exists_prev (a := a) (by simp)
  obtain ⟨c, -, hc⟩ := h.exists_next (a := a) (by simp)
  constructor
  · intro ha
    have hba : b = a := by simpa [hb.2] using ha
    exact hba ▸ hb.1
  · intro ha
    have hca : c = a := by simpa [hc.1] using ha
    exact hca ▸ hc.2

/-- Writing a new element between the last and the first extends the ring at its end. -/
theorem Ring.concat {a x p : P} {t : List P} (h : Ring next prev (a :: t)) (hd : (a :: t).Nodup)
    (hp : prev a = some p) (hnext : ∀ y ∈ a :: t, y ≠ p → next' y = next y)
    (hprev : ∀ y ∈ a :: t, y ≠ a → prev' y = prev y) (hpx : Joined next' prev' p x)
    (hxa : Joined next' prev' x a) : Ring next' prev' (a :: t ++ [x]) := by
  obtain ⟨m, b, hm⟩ : ∃ m b, a :: t = m ++ [b] := ⟨_, _, (List.dropLast_append_getLast (by simp)).symm⟩
  have hba := h.joined_last hm
  have hbp : b = p := by simpa [hba.2] using hp
  subst hbp
  refine ⟨List.isChain_append.mpr ⟨?_, .singleton x, ?_⟩, ?_⟩
  · apply h.1.imp_of_mem_tail_imp
    intro u v hu hv huv
    have hva : v ≠ a := fun e => (List.nodup_cons.mp hd).1 (e ▸ hv)
    have hub : u ≠ b := fun e => hva (by
      rw [e] at huv
      simpa [hba.1] using huv.1.symm)
    exact ⟨(hnext u hu hub).trans huv.1, (hprev v (List.mem_of_mem_tail hv) hva).trans huv.2⟩
  · intro u hu v hv
    simp only [hm, List.getLast?_append, List.getLast?_singleton, Option.some_or,
      Option.mem_def, Option.some.injEq, List.head?_cons] at hu hv
    subst hu hv
    exact hpx
  · intro u hu v hv
    rw [List.getLast?_append] at hu
    simp at hu hv
    subst hu hv
    exact hxa

/-- Joining the last element to the second one takes the first element out. -/
theorem Ring.tail {x s p : P} {t : List P} (h : Ring next prev (x :: s :: t))
    (hd : (x :: s :: t).Nodup) (hp : prev x = some p)
    (hnext : ∀ y ∈ s :: t, y ≠ p → next' y = next y)
    (hprev : ∀ y ∈ s :: t, y ≠ s → prev' y = prev y)
    (hps : Joined next' prev' p s) : Ring next' prev' (s :: t) := by
  obtain ⟨m, b, hm⟩ : ∃ m b, s :: t = m ++ [b] := ⟨_, _, (List.dropLast_append_getLast (by simp)).symm⟩
  have hbx := h.joined_last (m := x :: m) (b := b) (by rw [hm]; rfl)
  have hbp : b = p := by simpa [hbx.2] using hp
  subst hbp
  refine ⟨?_, ?_⟩
  · apply h.1.tail.imp_of_mem_tail_imp
    intro u v hu hv huv
    have hvs : v ≠ s := fun e => (List.nodup_cons.mp (List.nodup_cons.mp hd).2).1 (e ▸ hv)
    have hub : u ≠ b := fun e => (List.nodup_cons.mp hd).1 (by
      rw [e] at huv
      have hvx : x = v := by simpa [hbx.1] using huv.1
      rw [hvx]
      exact List.mem_cons_of_mem s hv)
    exact ⟨(hnext u hu hub).trans huv.1, (hprev v (List.mem_of_mem_tail hv) hvs).trans huv.2⟩
  · intro u hu v hv
    simp only [hm, List.getLast?_append, List.getLast?_singleton, Option.some_or,
      Option.mem_def, Option.some.injEq] at hu
    simp at hv
    subst hu hv
    exact hps

/-- Joining the two neighbours of an element takes it out of the ring. -/
theorem Ring.erase {x s p : P} {l m : List P} (h : Ring next prev (l ++ x :: m))
    (hd : (l ++ x :: m).Nodup) (hne : ¬(l = [] ∧ m = [])) (hp : prev x = some p)
    (hs : next x = some s) (hnext : ∀ y ∈ l ++ m, y ≠ p → next' y = next y)
    (hprev : ∀ y ∈ l ++ m, y ≠ s → prev' y = prev y)
    (hps : Joined next' prev' p s) : Ring next' prev' (l ++ m) := by
  have hr := (ring_append_comm l (x :: m)).mp h
  rw [ring_append_comm]
  cases hml : m ++ l with
  | nil => simp_all
  | cons b u =>
    have hr' : Ring next prev (x :: b :: u) := by rw [← hml]; simpa using hr
    have hd' : (x :: b :: u).Nodup := by
      rw [← hml, ← List.cons_append]
      exact (List.perm_append_comm.nodup_iff).mp hd
    have hbs : b = s := by
      have hj := Ring.joined (l := []) hr'
      simpa [hs] using hj.1.symm
    subst hbs
    have hmem : ∀ y, y ∈ b :: u → y ∈ l ++ m := by
      intro y hy
      rw [← hml] at hy
      simp at hy ⊢
      tauto
    exact hr'.tail hd' hp (fun y hy => hnext y (hmem y hy)) (fun y hy => hprev y (hmem y hy)) hps

/-- The place reached after `n` steps along `next`. -/
def follow (next : P → Option P) : Nat → Option P → Option P
  | 0, p => p
  | n + 1, p => follow next n (p.bind next)

lemma follow_succ (n : Nat) (p : Option P) : follow next (n + 1) p = (follow next n p).bind next := by
  induction n generalizing p with
  | zero => rfl
  | succ n ih => exact ih (p.bind next)

lemma follow_chain {a : P} {l : List P} (h : (a :: l).IsChain (Joined next prev)) {i : Nat}
    (hi : i < (a :: l).length) : follow next i (some a) = (a :: l)[i]? := by
  induction i generalizing a l with
  | zero => rfl
  | succ i ih =>
    cases l with
    | nil => simp at hi
    | cons b l =>
      rw [List.isChain_cons_cons] at h
      rw [follow, Option.bind_some, h.1.1, List.getElem?_cons_succ]
      exact ih h.2 (by simpa using hi)

/-- From its first element, `next` visits a ring in order. -/
theorem Ring.follow {l : List P} (h : Ring next prev l) {i : Nat} (hi : i < l.length) :
    CircularList.follow next i l.head? = l[i]? := by
  cases l with
  | nil => simp at hi
  | cons a l => exact follow_chain h.1 hi

/-- After one step for each element it is back. -/
theorem Ring.follow_length {l : List P} (h : Ring next prev l) :
    CircularList.follow next l.length l.head? = l.head? := by
  rcases List.eq_nil_or_concat l with rfl | ⟨m, b, rfl⟩
  · rfl
  · rw [List.concat_eq_append] at h ⊢
    rw [List.length_append, List.length_singleton, follow_succ, h.follow (by simp)]
    simp only [List.getElem?_append_right le_rfl, Nat.sub_self, List.getElem?_cons_zero, Option.bind_some]
    obtain ⟨a, t, hat⟩ : ∃ a t, m ++ [b] = a :: t := List.exists_cons_of_ne_nil (by simp)
    rw [hat] at h ⊢
    exact (h.joined_last hat.symm).1

section Walk
variable [DecidableEq P]

/-- The nodes met along `next` from `p` until the walk is back at `first`. -/
def walk (next : P → Option P) (first : P) : Nat → Option P → Option (List P)
  | 0, _ => none
  | _ + 1, none => none
  | fuel + 1, some p =>
    if p = first then some [] else (walk next first fuel (next p)).map (p :: ·)

/-- The nodes of the circle that starts at `first`, unless the walk does not come back. -/
def readRing (next : P → Option P) (fuel : Nat) : Option P → Option (List P)
  | none => some []
  | some first => (walk next first fuel (next first)).map (first :: ·)

lemma Ring.walk {first : P} (before : List P) {rest : List P} {fuel : Nat}
    (h : Ring next prev (first :: before ++ rest)) (hd : (first :: before ++ rest).Nodup)
    (hfuel : rest.length < fuel) :
    CircularList.walk next first fuel (rest ++ [first]).head? = some rest := by
  induction rest generalizing before fuel with
  | nil =>
    obtain ⟨fuel, rfl⟩ : ∃ k, fuel = k + 1 := Nat.exists_eq_succ_of_ne_zero (by omega)
    simp [CircularList.walk]
  | cons x rest ih =>
    obtain ⟨fuel, rfl⟩ : ∃ k, fuel = k + 1 := Nat.exists_eq_succ_of_ne_zero (by omega)
    have hx : x ≠ first := by
      rintro rfl
      simp at hd
    have hlen : rest.length < fuel := by
      rw [List.length_cons] at hfuel
      omega
    have hrest := ih (before ++ [x]) (by simpa using h) (by simpa using hd) hlen
    rw [← h.next_eq] at hrest
    simp [CircularList.walk, hx, hrest]

/-- A ring is read off whole. -/
theorem Ring.readRing {l : List P} (h : Ring next prev l) (hd : l.Nodup) {fuel : Nat}
    (hfuel : l.length ≤ fuel) : CircularList.readRing next fuel l.head? = some l := by
  cases l with
  | nil => rfl
  | cons first rest =>
    have hwalk := Ring.walk [] h hd hfuel
    rw [List.head?_cons, CircularList.readRing, h.next_first, hwalk]
    rfl

lemma readRing_head {fuel : Nat} {p : Option P} {l : List P} (h : readRing next fuel p = some l) :
    l.head? = p := by
  cases p with
  | none =>
    cases h
    rfl
  | some first =>
    obtain ⟨rest, -, rfl⟩ := Option.map_eq_some_iff.mp h
    rfl

end Walk

end CircularList
