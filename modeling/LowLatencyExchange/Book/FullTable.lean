import LowLatencyExchange.Book.Filed
import LowLatencyExchange.Common.PoolUse
import Mathlib.Data.Fintype.EquivFin

/-!
# Full pools

An allocation looks for the next free block before it returns, so it ends the process when it takes the
last one. A pool of `N` blocks hands out `N - 1` of them at a time, and the table of a book, which has as
many slots as its pool has blocks, always has a slot without a level.
-/

namespace LowLatencyExchange
open LoggedRun
namespace PriceBook
variable {I K : Type} {b : PriceBook I K} {rings : Nat → List Nat}

/-- The levels of a full table would take every block, and the next one is always free. -/
lemma Filed.exists_null_slot (h : b.Filed rings) (hpool : b.ordersAtPricePool.Sound)
    (hsize : b.ordersAtPricePool.size = ME_MAX_PRICE_LEVELS) :
    ∃ i < ME_MAX_PRICE_LEVELS, b.priceOrdersAtPrice i = none := by
  by_contra hfull
  have hslot : ∀ i : Fin ME_MAX_PRICE_LEVELS, ∃ p, b.priceOrdersAtPrice i = some p := by
    intro i
    apply Option.ne_none_iff_exists'.mp
    intro hnone
    exact hfull ⟨i, i.isLt, hnone⟩
  choose p hp using hslot
  have hlt : ∀ i, p i < ME_MAX_PRICE_LEVELS := fun i => hsize ▸ hpool.used_lt _ ((h.level i _).mp (hp i)).1
  have hinjective : Function.Injective fun i => (⟨p i, hlt i⟩ : Fin ME_MAX_PRICE_LEVELS) := by
    intro i j hij
    have hsame : p i = p j := congrArg Fin.val hij
    apply Fin.ext
    rw [← ((h.level i _).mp (hp i)).2, ← ((h.level j _).mp (hp j)).2, hsame]
  obtain ⟨i, hi⟩ := Finite.surjective_of_injective hinjective
    (⟨b.ordersAtPricePool.nextFreeIndex, hsize ▸ hpool.next_lt⟩ : Fin ME_MAX_PRICE_LEVELS)
  have hnext : p i = b.ordersAtPricePool.nextFreeIndex := congrArg Fin.val hi
  exact hpool.next_free (hnext ▸ ((h.level i _).mp (hp i)).1)

end PriceBook

namespace SharedPool

/-- Whatever its users do with the blocks they hold, a pool takes all their calls just when each
allocation is made with fewer than all blocks but one held. -/
theorem full_capacity_iff {T : Type} (default : T) {n : Nat} (hn : 0 < n) (calls : List (PoolCall T))
    (hholders : Never call (create default n) calls fun s c => ¬s.ByHolder c) :
    (∃ s es, execute call (create default n) calls = .ok (s, es)) ↔ Never call (create default n) calls (Fills n) :=
  calls_return_iff (unaliased_create default hn) rfl hholders

/-- Two of three blocks at a time, over and over. -/
theorem full_capacity_comesRound : ∃ s es, execute call (create 0 3) comesRound = .ok (s, es) :=
  (full_capacity_iff 0 (by decide) comesRound (never_of_avoids (by decide))).mpr (never_of_avoids (by decide))

/-- A pool of two blocks ends the process at the second allocation, and no book has a level in every
slot of its price table. -/
theorem full_capacity_fails : execute call (create 0 2) [.allocate 10, .allocate 20] = .error MemPool.outOfSpace ∧
    ∀ (I K : Type) (b : PriceBook I K) (rings : Nat → List Nat), b.Filed rings → b.ordersAtPricePool.Sound →
      b.ordersAtPricePool.size = ME_MAX_PRICE_LEVELS → ∃ i < ME_MAX_PRICE_LEVELS, b.priceOrdersAtPrice i = none :=
  ⟨rfl, fun _ _ _ _ hfiled hpool hsize => hfiled.exists_null_slot hpool hsize⟩

end SharedPool
end LowLatencyExchange
