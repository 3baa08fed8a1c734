import LowLatencyExchange.Book.Intact

/-!
# Where the tops go

What one addition and one removal do to the top pointers, the levels and the rings of an intact
book. An order that joins a level moves no top. A level that opens becomes the top of an empty side,
or when it is worse than the top and not worse than all levels of its side.
-/

namespace LowLatencyExchange
open CircularList
namespace PriceBook
variable {I K : Type} {b b' : PriceBook I K} {rings : Nat → List Nat} {ladders : Side → List Nat} {o : Nat}

section Keys
variable [OrderKey I K]

lemma Intact.used_of_top (h : b.Intact rings ladders) {s : Side} (hs : s.Trading) {p : Nat}
    (htop : b.top s = some p) : b.ordersAtPricePool.Used p ∧ (b.level p).side.ladder = s :=
  (h.mem s hs p).mp (List.mem_of_head? ((h.top s hs).symm.trans htop))

variable [DecidableEq K]

/-- An order that joins a level. -/
lemma addOrder_joined {obj : BookOrder I} {pool : MemPool (BookOrder I)} {lvl : Nat}
    (hnew : (b.setOrderPool pool).order o = obj) (hget : b.getOrdersAtPrice obj.price = some lvl)
    (hrun : (b.setOrderPool pool).addOrder o = .ok b') :
    (∀ q, b'.level q = b.level q) ∧ (∀ s, b'.top s = b.top s) ∧ b'.ordersAtPricePool = b.ordersAtPricePool := by
  obtain ⟨b₁, hlink, rfl⟩ := addOrder_ok hrun
  have hget' : (b.setOrderPool pool).getOrdersAtPrice ((b.setOrderPool pool).order o).price = some lvl := by
    rw [hnew]
    exact hget
  have hlevels := linkOrder_levels hget' hlink
  exact hlevels

/-- An order that opens level `n`. -/
structure OpenedFor (b : PriceBook I K) (obj : BookOrder I) (n : Nat) (ptrs : List Nat) (b' : PriceBook I K) : Prop
    where
  wasFree : ¬b.ordersAtPricePool.Used n
  used : ∀ q, b'.ordersAtPricePool.Used q ↔ q = n ∨ b.ordersAtPricePool.Used q
  price : (b'.level n).price = obj.price
  otherPrice : ∀ q, q ≠ n → (b'.level q).price = (b.level q).price
  otherTop : ∀ s : Side, s.Trading → s ≠ obj.side → b'.top s = b.top s
  first : ptrs = [] → b'.top obj.side = some n
  top : ∀ best, ptrs.head? = some best → b'.top obj.side =
    if addAfter obj.side obj.price (b.level best).price = true ∧
      ∃ q ∈ ptrs, addAfter obj.side obj.price (b.level q).price = false then some n else some best

lemma Intact.addOrder_opened (h : b.Intact rings ladders) {obj : BookOrder I} {pool : MemPool (BookOrder I)}
    (hside : obj.side.Trading) (halloc : b.orderPool.allocate obj = .ok (pool, o))
    (hget : b.getOrdersAtPrice obj.price = none) (hrun : (b.setOrderPool pool).addOrder o = .ok b') :
    ∃ n, OpenedFor b obj n (ladders obj.side) b' := by
  obtain ⟨hfiling, hobj⟩ := h.filed.filing halloc
  obtain ⟨b₁, hlink, rfl⟩ := addOrder_ok hrun
  have hget' : (b.setOrderPool pool).getOrdersAtPrice ((b.setOrderPool pool).order o).price = none := by
    rw [hobj]
    exact hget
  have hpool : (b.setOrderPool pool).ordersAtPricePool.Sound := h.levelPool
  rcases linkOrder_open hpool hget' with ⟨-, herr⟩ | ⟨-, n, b₂, hopen, hsplice⟩
  · rw [herr] at hlink
    cases hlink
  rw [hsplice] at hlink
  have hfree : ¬b.ordersAtPricePool.Used n := hopen.wasFree
  have hlevel : ∀ q, b.ordersAtPricePool.Used q → b₂.level q = b.level q := fun q hq => by
    rw [hopen.otherLevel q fun he => hfree (he ▸ hq), hfiling.level]
  have hready := h.ladderReady hfiling (fun _ => rfl) hobj rfl hopen
  rw [hside.ladder_eq] at hready
  have hframe := addOrdersAtPrice_ladder hlink
  have hprice : (b₂.level n).price = obj.price ∧ (b₂.level n).side = obj.side := by
    rw [hopen.level, hobj]
    exact ⟨rfl, rfl⟩
  have hdata := fun q => (OrdersAtPrice.unlinked_eq_iff.mp (hframe.data q)).2.1
  have hsame : ∀ q ∈ ladders obj.side, (b₂.level q).price = (b.level q).price := fun q hq => by
    rw [hlevel q ((h.mem _ hside q).mp hq).1]
  have hworst : (∀ q ∈ ladders obj.side, addAfter obj.side obj.price (b.level q).price = true) →
      b₁.top obj.side = (ladders obj.side ++ [n]).head? := by
    intro hall
    obtain ⟨b₃, hb₃, hlinked⟩ := addOrdersAtPrice_worst hside hready fun q hq => by
      rw [hprice.1, hsame q hq]
      exact hall q hq
    obtain rfl : b₃ = b₁ := Except.ok.inj (hb₃.symm.trans hlink)
    exact hlinked.top
  refine ⟨n, hfree, fun q => ?_, ?_, fun q hq => ?_, fun s hs hne => ?_, fun hnil => ?_, fun best hbest => ?_⟩
  · exact (hframe.used q).trans ((hopen.used q).trans (or_congr_right (hfiling.levelUsed q)))
  · exact (hdata n).trans hprice.1
  · exact (hdata q).trans (by rw [hopen.otherLevel q hq, hfiling.level])
  · rcases addOrdersAtPrice_top hlink s with hkept | ⟨-, hsides, -⟩
    · exact hkept.trans (hopen.top s)
    · rw [hprice.2] at hsides
      rcases hs with rfl | rfl <;> rcases hside with hbuy | hbuy <;> simp_all
  · exact (hworst (by simp [hnil])).trans (by rw [hnil]; rfl)
  · by_cases hbetter : ∃ q ∈ ladders obj.side, addAfter obj.side obj.price (b.level q).price = false
    · obtain ⟨best', hmem, htop, htop'⟩ := addOrdersAtPrice_misplaced hready (by
        obtain ⟨q, hq, hqb⟩ := hbetter
        refine ⟨q, hq, ?_⟩
        rw [hprice.1, hsame q hq]
        exact hqb) hlink
      obtain rfl : best' = best := Option.some.inj (htop.symm.trans (hready.top.trans hbest))
      rw [hprice.1, hsame best' hmem] at htop'
      rw [show (b₁.setKey (OrderKey.key ((b.setOrderPool pool).order o).ids) (some o)).top obj.side =
        b₁.top obj.side from rfl, htop']
      simp only [hbetter, and_true]
    · rw [if_neg fun hboth => hbetter hboth.2]
      refine (hworst fun q hq => ?_).trans ?_
      · by_contra hno
        exact hbetter ⟨q, hq, by simpa using hno⟩
      · obtain ⟨rest, hrest⟩ : ∃ rest, ladders obj.side = best :: rest := List.head?_eq_some_iff.mp hbest
        rw [hrest]
        rfl

/-- What a removal leaves: the level goes when its only order goes. -/
structure Emptied (b : PriceBook I K) (lvl : Nat) (last : Prop) (ladders : Side → List Nat) (b' : PriceBook I K) :
    Prop where
  used : ∀ q, b'.ordersAtPricePool.Used q ↔ b.ordersAtPricePool.Used q ∧ (last → q ≠ lvl)
  price : ∀ q, (b'.level q).price = (b.level q).price
  top : ∀ s : Side, s.Trading → ¬last → b'.top s = b.top s
  topLeft : ∀ s : Side, s.Trading → last → b'.top s = ((ladders s).filter fun q => q ≠ lvl).head?

lemma Intact.removeOrder_emptied (h : b.Intact rings ladders) {lvl : Nat} (ho : b.orderPool.Used o)
    (hget : b.getOrdersAtPrice (b.order o).price = some lvl) (hrun : b.removeOrder o = .ok b') :
    Emptied b lvl (rings (priceToIndex (b.order o).price) = [o]) ladders b' := by
  generalize hi : priceToIndex (b.order o).price = i
  have hslot : b.priceOrdersAtPrice i = some lvl := by
    rw [getOrdersAtPrice, hi] at hget
    exact hget
  obtain ⟨b₂, hu, hlevel, -, -, hused⟩ := h.filed.removeOrder_unlink hrun
  rw [hi] at hu
  have hmem : o ∈ rings i := (h.filed.mem i o).mpr ⟨ho, hi⟩
  have hlast : (rings i).erase o = [] ↔ rings i = [o] := by
    rw [List.erase_eq_nil_iff]
    exact or_iff_right (List.ne_nil_of_mem hmem)
  have hlive : ∀ q, b'.ordersAtPricePool.Used q ↔ b.ordersAtPricePool.Used q ∧ (rings i = [o] → q ≠ lvl) := by
    intro q
    rw [hused, hu.used, hlast, hslot]
    simp only [ne_eq, Option.some.injEq, eq_comm]
  obtain ⟨b₁, hb₁, hintact⟩ := h.removeOrder ho
  obtain rfl : b₁ = b' := Except.ok.inj (hb₁.symm.trans hrun)
  refine ⟨hlive, fun q => by rw [hlevel, hu.price], fun s hs hnot => ?_, fun s hs hempty => ?_⟩
  · rw [hintact.top s hs, h.top s hs, liveLevels_eq_self fun q hq => ?_]
    exact (hlive q).mpr ⟨((h.mem s hs q).mp hq).1, fun he => absurd he hnot⟩
  · rw [hintact.top s hs]
    congr 1
    apply List.filter_congr
    intro q hq
    simp [hlive, ((h.mem s hs q).mp hq).1, hempty]

end Keys
end PriceBook
end LowLatencyExchange
