import LowLatencyExchange.Book.WellFormed
import Mathlib.Data.Finset.Card

/-!
# The target scan of `addOrdersAtPrice`

On a sorted ladder the scan stops at the first level that is not better than the new price,
with `add_after` false, and comes back to the top with `add_after` true when every level is
better.
-/

namespace LowLatencyExchange
open CircularList

lemma addAfter_trans {s : Side} {x y z : Price} (hxy : addAfter s x y) (hyz : addAfter s y z) :
    addAfter s x z := by
  simp only [addAfter, Bool.or_eq_true, Bool.and_eq_true, decide_eq_true_eq] at *
  rcases hxy with ⟨rfl, h⟩ | ⟨rfl, h⟩
  · rcases hyz with ⟨-, h'⟩ | ⟨e, -⟩
    · exact Or.inl ⟨rfl, h'.trans h⟩
    · cases e
  · rcases hyz with ⟨e, -⟩ | ⟨-, h'⟩
    · cases e
    · exact Or.inr ⟨rfl, h.trans h'⟩

@[simp] lemma addAfter_self (s : Side) (x : Price) : addAfter s x x = false := by
  simp [addAfter]

lemma addAfter_asymm {s : Side} {x y : Price} (h : addAfter s x y) : addAfter s y x = false := by
  by_contra hyx
  have hxx := addAfter_trans h (by simpa using hyx)
  simp at hxx

/-- On a trading side two different prices are comparable. -/
lemma addAfter_or_eq {s : Side} (hs : s.Trading) (x y : Price) :
    addAfter s x y = true ∨ x = y ∨ addAfter s y x = true := by
  rcases hs with rfl | rfl <;> simp [addAfter] <;> grind

namespace PriceBook
variable {I K : Type} {b : PriceBook I K}

/-- Where a price goes in a ladder: before the first level that is not better, or back at the
top when there is none. -/
def scanResult (b : PriceBook I K) (s : Side) (price : Price) (best : Nat) (l : List Nat) : Nat × Bool :=
  match l.find? fun q => !addAfter s price (b.level q).price with
  | none => (best, true)
  | some q => (q, false)

/-- The loop from a level `x` behind the top, with `rest` still to come. -/
lemma findTargetLoop_spec (s : Side) (price : Price) {best : Nat} (before : List Nat) {rest : List Nat}
    {x fuel : Nat} (hring : Ring (fun q => (b.level q).nextEntry) (fun q => (b.level q).prevEntry)
      (best :: before ++ x :: rest))
    (hd : (best :: before ++ x :: rest).Nodup) (hfuel : rest.length + 2 ≤ fuel) :
    b.findTargetLoop s price best fuel x true = .ok (b.scanResult s price best (x :: rest)) := by
  induction rest generalizing before x fuel with
  | nil =>
    obtain ⟨fuel, rfl⟩ : ∃ k, fuel = k + 2 := ⟨fuel - 2, by simp at hfuel; omega⟩
    have hx : x ≠ best := by simp at hd; tauto
    have hnext : (b.level x).nextEntry = some best := (Ring.joined_last (m := best :: before) hring rfl).1
    cases hp : addAfter s price (b.level x).price <;>
      simp [findTargetLoop, hx, hnext, hp, scanResult]
  | cons y rest ih =>
    obtain ⟨fuel, rfl⟩ : ∃ k, fuel = k + 1 := ⟨fuel - 1, by simp at hfuel; omega⟩
    have hx : x ≠ best := by simp at hd; tauto
    have hnext : (b.level x).nextEntry = some y := hring.joined.1
    have hi := ih (before ++ [x]) (by simpa using hring) (by simpa using hd)
      (by simp at hfuel; omega)
    cases hp : addAfter s price (b.level x).price
    · simp [findTargetLoop, hx, hp, scanResult]
    · simp [findTargetLoop, hx, hnext, hp, scanResult, hi]

theorem findTarget_spec (s : Side) (price : Price) {best : Nat} {rest : List Nat}
    (hring : Ring (fun q => (b.level q).nextEntry) (fun q => (b.level q).prevEntry) (best :: rest))
    (hd : (best :: rest).Nodup) (hsize : (best :: rest).length ≤ b.ordersAtPricePool.size) :
    b.findTarget s price best = .ok (b.scanResult s price best (best :: rest)) := by
  have hstop : ∀ after, b.findTargetLoop s price best (b.ordersAtPricePool.size + 1) best after =
      .ok (best, after) := fun after => by simp [findTargetLoop]
  cases hp : addAfter s price (b.level best).price
  · simp [findTarget, hp, hstop, scanResult]
  · cases rest with
    | nil =>
      have hnext : (b.level best).nextEntry = some best := ((ring_singleton best).mp hring).1
      simp [findTarget, hp, hnext, hstop, scanResult]
    | cons y rest =>
      have hnext : (b.level best).nextEntry = some y := (Ring.joined (l := []) hring).1
      have hloop : b.findTargetLoop s price best (b.ordersAtPricePool.size + 1) y true = _ :=
        findTargetLoop_spec s price [] hring hd (by simp at hsize; omega)
      cases hy : addAfter s price (b.level y).price
      · simp [findTarget, hp, hnext, hy, findTargetLoop, scanResult]
      · simp [findTarget, hp, hnext, hy, hloop, scanResult]

/-- The level behind which the new one goes. Where the scan came back to the top, the source goes on to
the top's predecessor. -/
def placeAfter (b : PriceBook I K) (best : Nat) (r : Nat × Bool) : Option Nat :=
  if r.2 then if r.1 = best then (b.level best).prevEntry else some r.1
  else (b.level r.1).prevEntry

/-- The level in front of which the new one goes. -/
def placeBefore (b : PriceBook I K) (best : Nat) (r : Nat × Bool) : Option Nat :=
  if r.2 then (b.placeAfter best r).bind fun p => (b.level p).nextEntry else some r.1

/-- The levels that are better than the price, and the others. -/
lemma exists_place {s : Side} {price : Price} (hs : s.Trading) {l : List Nat}
    (hsorted : l.Pairwise fun p q => addAfter s (b.level q).price (b.level p).price)
    (hnew : ∀ q ∈ l, (b.level q).price ≠ price) : ∃ better worse, l = better ++ worse ∧
      (∀ q ∈ better, addAfter s price (b.level q).price = true) ∧
      ∀ q ∈ worse, addAfter s (b.level q).price price = true := by
  induction l with
  | nil => exact ⟨[], [], rfl, by simp, by simp⟩
  | cons p l ih =>
    obtain ⟨hp, hl⟩ := List.pairwise_cons.mp hsorted
    rcases addAfter_or_eq hs price (b.level p).price with hbetter | heq | hworse
    · obtain ⟨better, worse, rfl, hbetters, hworses⟩ := ih hl fun q hq => hnew q (List.mem_cons_of_mem p hq)
      exact ⟨p :: better, worse, rfl, List.forall_mem_cons.mpr ⟨hbetter, hbetters⟩, hworses⟩
    · exact absurd heq.symm (hnew p List.mem_cons_self)
    · refine ⟨[], p :: l, rfl, by simp, List.forall_mem_cons.mpr ⟨hworse, fun q hq => ?_⟩⟩
      exact addAfter_trans (hp q hq) hworse

lemma scanResult_append {s : Side} {price : Price} {best : Nat} {better worse : List Nat}
    (hbetter : ∀ q ∈ better, addAfter s price (b.level q).price = true)
    (hworse : ∀ q ∈ worse, addAfter s (b.level q).price price = true) :
    b.scanResult s price best (better ++ worse) =
      match worse.head? with
      | none => (best, true)
      | some q => (q, false) := by
  have hfind : better.find? (fun q => !addAfter s price (b.level q).price) = none := by
    apply List.find?_eq_none.mpr
    intro q hq
    simp [hbetter q hq]
  rw [scanResult, List.find?_append, hfind, Option.none_or]
  cases worse with
  | nil => rfl
  | cons q worse =>
    have hq : (!addAfter s price (b.level q).price) = true := by
      rw [addAfter_asymm (hworse q List.mem_cons_self)]
      rfl
    simp only [List.find?_cons, hq, List.head?_cons]

/-- On a sorted ladder the scan ends, and it designates the two neighbours between which the new level
belongs. Read around from the one behind the gap, the ring has first the worse levels and then the better
ones. -/
theorem insertion_scan {s : Side} {price : Price} (hs : s.Trading) {best : Nat} {rest : List Nat}
    (hring : Ring (fun q => (b.level q).nextEntry) (fun q => (b.level q).prevEntry) (best :: rest))
    (hlt : ∀ q ∈ best :: rest, q < b.ordersAtPricePool.size)
    (hsorted : (best :: rest).Pairwise fun p q => addAfter s (b.level q).price (b.level p).price)
    (hnew : ∀ q ∈ best :: rest, (b.level q).price ≠ price) :
    ∃ r p n better worse, b.findTarget s price best = .ok r ∧
      b.placeAfter best r = some p ∧ b.placeBefore best r = some n ∧
      Joined (fun q => (b.level q).nextEntry) (fun q => (b.level q).prevEntry) p n ∧
      best :: rest = better ++ worse ∧
      (∀ q ∈ better, addAfter s price (b.level q).price = true) ∧
      (∀ q ∈ worse, addAfter s (b.level q).price price = true) ∧
      (worse ++ better).head? = some n ∧ (worse ++ better).getLast? = some p := by
  have hd : (best :: rest).Nodup := by
    apply hsorted.imp
    rintro p q hpq rfl
    simp at hpq
  obtain ⟨better, worse, hl, hbetter, hworse⟩ := exists_place hs hsorted hnew
  have hne : worse ++ better ≠ [] := by
    intro hnil
    rw [List.append_eq_nil_iff] at hnil
    simp [hnil] at hl
  obtain ⟨n, hn⟩ : ∃ n, (worse ++ better).head? = some n := ⟨_, List.head?_eq_some_head hne⟩
  obtain ⟨p, hp⟩ : ∃ p, (worse ++ better).getLast? = some p := ⟨_, List.getLast?_eq_some_getLast hne⟩
  have hjoined : Joined (fun q => (b.level q).nextEntry) (fun q => (b.level q).prevEntry) p n := by
    rw [hl, ring_append_comm] at hring
    exact hring.2 p hp n hn
  -- a new worst price: the ring is read from the top again
  have htop : worse = [] → best = n := by
    rintro rfl
    rw [List.append_nil] at hl
    rw [List.nil_append, ← hl] at hn
    exact Option.some.inj hn
  have hscan := findTarget_spec s price hring hd (length_le_of_nodup_of_lt hd hlt)
  rw [hl, scanResult_append hbetter hworse] at hscan
  refine ⟨_, p, n, better, worse, hscan, ?_, ?_, hjoined, hl, hbetter, hworse, hn, hp⟩
  · cases worse with
    | nil =>
      obtain rfl := htop rfl
      simpa [placeAfter] using hjoined.2
    | cons q worse =>
      obtain rfl : q = n := by simpa using hn
      simpa [placeAfter] using hjoined.2
  · cases worse with
    | nil =>
      obtain rfl := htop rfl
      simp only [placeBefore, placeAfter, List.head?_nil, if_true]
      have hprev : (b.level best).prevEntry = some p := hjoined.2
      rw [hprev]
      exact hjoined.1
    | cons q worse =>
      obtain rfl : q = n := by simpa using hn
      simp [placeBefore]

/-- Bids at 100 and at 90. -/
def bidsApart : PriceBook Unit Unit where
  ordersAtPricePool := ⟨fun i => ⟨⟨.buy, if i = 0 then 100 else 90, none, some (1 - i), some (1 - i)⟩, false⟩, 3, 2⟩
  bidsByPrice := some 0
  asksByPrice := none
  priceOrdersAtPrice := fun _ => none
  orderPool := MemPool.create ⟨(), .invalid, 0, 0, 0, none, none⟩ 1
  orderTable := fun _ => none

theorem insertion_scan_between : ∃ r, bidsApart.findTarget .buy 95 0 = .ok r ∧
    bidsApart.placeAfter 0 r = some 0 ∧ bidsApart.placeBefore 0 r = some 1 := by
  have hring : Ring (fun q => (bidsApart.level q).nextEntry) (fun q => (bidsApart.level q).prevEntry) [0, 1] := by
    simp [CircularList.Ring, CircularList.Joined, bidsApart, level, MemPool.object]
  have hnew : ∀ q ∈ [0, 1], (bidsApart.level q).price ≠ 95 := by decide
  obtain ⟨r, -, -, -, -, hscan, -⟩ := insertion_scan (s := .buy) (by simp) hring (by decide) (by decide) hnew
  obtain rfl : (1, false) = r := Except.ok.inj hscan
  exact ⟨(1, false), hscan, rfl, rfl⟩

end PriceBook
end LowLatencyExchange
