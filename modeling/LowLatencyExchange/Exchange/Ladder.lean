import LowLatencyExchange.Exchange.PriceTime
import Mathlib.Tactic.IntervalCases

/-!
# The price ladders

In the runs of `LadderRun` each side's levels form a doubly linked circle that starts at the
top pointer and gets worse with every step.
-/

namespace LowLatencyExchange
open CircularList PriceBook MEOrderBook LoggedRun

/-- The live levels of a side, in the order `next_entry_` gives them from the top pointer. -/
structure IsLadder {I K : Type} (b : PriceBook I K) (s : Side) (ptrs : List Nat) : Prop where
  live : ∀ p, p ∈ ptrs ↔ b.ordersAtPricePool.Used p ∧ (b.level p).side = s
  once : ptrs.Nodup
  visited : ∀ i, i < ptrs.length → follow (fun p => (b.level p).nextEntry) i (b.top s) = ptrs[i]?
  back : follow (fun p => (b.level p).nextEntry) ptrs.length (b.top s) = b.top s
  sorted : ptrs.Pairwise fun p q => addAfter s (b.level q).price (b.level p).price
  inverse : ∀ p ∈ ptrs, ∃ q ∈ ptrs, (b.level p).nextEntry = some q ∧ (b.level q).prevEntry = some p
  inverse' : ∀ q ∈ ptrs, ∃ p ∈ ptrs, (b.level q).prevEntry = some p ∧ (b.level p).nextEntry = some q

lemma PriceBook.WellFormed.isLadder {I K : Type} [OrderKey I K] {b : PriceBook I K} {sh : Shape}
    (h : b.WellFormed sh) {s : Side} (hs : s.Trading) :
    IsLadder b s ((sh.side s).map LevelShape.ptr) := by
  have hok := h.side s hs
  refine ⟨fun p => ?_, ?_, fun i hi => ?_, ?_, hok.sorted, fun p hp => ?_, fun q hq => ?_⟩
  · rw [h.levelUsed]
    constructor
    · intro hp
      obtain ⟨l, hl, rfl⟩ := List.mem_map.mp hp
      exact ⟨Shape.mem_levelPtrs_of_side hs hl, (hok.level l hl).side⟩
    · rintro ⟨hp, hside⟩
      obtain ⟨l, hl, rfl⟩ := List.mem_map.mp hp
      obtain ⟨t, ht, hl⟩ := Shape.mem_levels.mp hl
      obtain rfl : t = s := ((h.side t ht).level l hl).side.symm.trans hside
      exact List.mem_map_of_mem hl
  · exact (List.nodup_append.mp (h.side_nodup hs)).1
  · rw [hok.top]
    exact hok.ring.follow hi
  · rw [hok.top]
    exact hok.ring.follow_length
  · exact hok.ring.exists_next hp
  · obtain ⟨p, hp, hnext, hprev⟩ := hok.ring.exists_prev hq
    exact ⟨p, hp, hprev, hnext⟩

/-- After every call of a run, each side is a ladder of its live levels, and its top pointer is
null exactly when nothing rests there. The next call returns unless it exhausts a pool. -/
theorem price_ladder {tickerId : TickerId} {log : List (BookCall × List Event)} {b : MEOrderBook}
    (h : LadderRun tickerId log b) :
    (∀ s : Side, s.Trading → (∃ ptrs, IsLadder b.book s ptrs) ∧
      (b.book.top s = none ↔ ∀ x ∈ restingAfter (sent log), x.side ≠ s)) ∧
    (∀ call, Submittable (restingAfter (sent log)) call →
      (∃ b' es, b.call call = .ok (b', es)) ∨ b.call call = .error MemPool.outOfSpace) := by
  obtain ⟨sh, hin⟩ := h.inStep
  refine ⟨fun s hs => ⟨⟨_, hin.wellFormed.isLadder hs⟩, ?_⟩, fun call hsubmit => call_returns hin hsubmit⟩
  rw [(hin.wellFormed.side s hs).top, List.head?_eq_none_iff, List.map_eq_nil_iff]
  constructor
  · rintro hnil x hx rfl
    obtain ⟨l, hl, -⟩ := hin.tracks.level_of_mem hin.wellFormed hx
    simp [hnil] at hl
  · intro hnone
    apply List.eq_nil_iff_forall_not_mem.mpr
    intro l hl
    obtain ⟨x, hx, hxs, -⟩ := hin.tracks.mem_of_level hin.wellFormed hs hl
    exact hnone x hx hxs

/-- Two bids and two asks, each at a level of its own. -/
def quotedLog : List (BookCall × List Event) :=
  [(.add 1 1 0 .buy 99 10,
    [.response ⟨.accepted, 1, 0, 1, 1, .buy, 99, 0, 10⟩, .update ⟨.add, 1, 0, .buy, 99, 1, 1⟩]),
   (.add 1 2 0 .buy 98 10,
    [.response ⟨.accepted, 1, 0, 2, 2, .buy, 98, 0, 10⟩, .update ⟨.add, 2, 0, .buy, 98, 2, 1⟩]),
   (.add 2 1 0 .sell 100 10,
    [.response ⟨.accepted, 2, 0, 1, 3, .sell, 100, 0, 10⟩, .update ⟨.add, 3, 0, .sell, 100, 3, 1⟩]),
   (.add 2 2 0 .sell 101 10,
    [.response ⟨.accepted, 2, 0, 2, 4, .sell, 101, 0, 10⟩, .update ⟨.add, 4, 0, .sell, 101, 4, 1⟩])]

/-- The book after the first `n` of them. -/
def quotedBook (n : Nat) : MEOrderBook :=
  match execute MEOrderBook.call (MEOrderBook.create 0) ((quotedLog.take n).map Prod.fst) with
  | .ok (b, _) => b
  | .error _ => MEOrderBook.create 0

lemma quotedBook_run {n : Nat} (hn : n ≤ 4) : LadderRun 0 (quotedLog.take n) (quotedBook n) := by
  induction n with
  | zero => exact .start
  | succ n ih =>
    have hrun := ih (Nat.le_of_succ_le hn)
    have hlt : n < 4 := hn
    interval_cases n
    all_goals exact hrun.next ⟨⟨by decide, by decide⟩, by decide⟩ rfl

/-- Both ladders have two levels. -/
theorem price_ladder_quoted : ∃ bids asks, IsLadder (quotedBook 4).book .buy bids ∧
    IsLadder (quotedBook 4).book .sell asks ∧ [0, 1] ⊆ bids ∧ [2, 3] ⊆ asks := by
  obtain ⟨hladders, -⟩ := price_ladder (quotedBook_run le_rfl)
  obtain ⟨⟨bids, hbids⟩, -⟩ := hladders .buy (by simp)
  obtain ⟨⟨asks, hasks⟩, -⟩ := hladders .sell (by simp)
  have hbid : ∀ p ∈ [0, 1], (quotedBook 4).book.ordersAtPricePool.Used p ∧
      ((quotedBook 4).book.level p).side = .buy := by decide
  have hask : ∀ p ∈ [2, 3], (quotedBook 4).book.ordersAtPricePool.Used p ∧
      ((quotedBook 4).book.level p).side = .sell := by decide
  refine ⟨bids, asks, hbids, hasks, fun p hp => ?_, fun p hp => ?_⟩
  · exact (hbids.live p).mpr (hbid p hp)
  · exact (hasks.live p).mpr (hask p hp)

/-- After a second, better bid the top pointer still gives the first. -/
theorem price_ladder_fails : ∃ log b,
    Reached MEOrderBook.call CallStep (MEOrderBook.create 0) log b ∧
    ¬∃ ptrs, IsLadder b.book .buy ptrs := by
  refine ⟨betterBidLog.take 2, _, .next (.next .start ⟨?_, ?_⟩ rfl) ⟨?_, ?_⟩ rfl, ?_⟩
  any_goals decide
  rintro ⟨ptrs, hladder⟩
  have hbetter := (hladder.live 1).mpr ⟨rfl, rfl⟩
  have hfirst := hladder.visited 0 (List.length_pos_of_mem hbetter)
  have hsorted := hladder.sorted
  cases ptrs with
  | nil => simp at hbetter
  | cons p rest =>
    obtain rfl : 0 = p := Option.some.inj hfirst
    have hrest : 1 ∈ rest := by simpa using hbetter
    exact absurd ((List.pairwise_cons.mp hsorted).1 1 hrest) (by decide)

end LowLatencyExchange
