import LowLatencyExchange.Exchange.Remainder

/-!
# Rounds on an intact book

On an intact book a round of the matching loop meets an order that is in use and stands on the other
ladder, and leaves the book intact. What a round keeps of such books, the whole loop keeps.
-/

namespace LowLatencyExchange
open PriceBook
namespace MEOrderBook
variable {b b' : MEOrderBook} {rings : Nat → List Nat} {ladders : Side → List Nat} {a : Aggressor} {itr : Nat}
  {leavesQty leavesQty' : Qty}

/-- Intact, whatever the rings and ladders are. -/
def IsIntact (b : MEOrderBook) : Prop := ∃ rings ladders, b.book.Intact rings ladders

lemma MatchStep.meets (h : b.book.Intact rings ladders) (hstep : MatchStep a b leavesQty itr b' leavesQty') :
    b.book.orderPool.Used itr ∧ (b.book.order itr).side.ladder = a.side.opposite.ladder := by
  obtain ⟨lvl, htop, hfirst⟩ := hstep.first
  obtain ⟨x, rest, hx, hqueue⟩ := exists_first h htop
  obtain rfl : itr = x := Option.some.inj (hfirst.symm.trans hx)
  apply h.mem_flatMap_ladder
  rw [hqueue]
  exact List.mem_cons_self

lemma FillsOrder.isIntact (h : b.book.Intact rings ladders) (hused : b.book.orderPool.Used itr)
    (hfill : b.FillsOrder itr leavesQty b' leavesQty') : b'.IsIntact := by
  rcases hfill with ⟨-, -, book, hbook, rfl⟩ | ⟨-, -, rfl⟩
  · have hset := h.setQty itr 0
    obtain ⟨book', hbook', hthinned⟩ := hset.removeOrder_thinned (o := itr) (by simpa using hused)
    obtain rfl : book' = book := Except.ok.inj (hbook'.symm.trans hbook)
    exact ⟨_, _, hthinned.intact⟩
  · exact ⟨_, _, h.setQty itr _⟩

/-- What every round on an intact book keeps holds after `checkForMatch`, and the book is still intact. -/
theorem checkForMatch_intact (a : Aggressor) {P : MEOrderBook → Qty → List Fill → Prop}
    (hstep : a.side.Trading → ∀ b leavesQty fills itr b' leavesQty', b.IsIntact → b.book.orderPool.Used itr →
      (b.book.order itr).side.ladder = a.side.opposite.ladder → P b leavesQty fills →
      MatchStep a b leavesQty itr b' leavesQty' → P b' leavesQty' (fills ++ [a.fill (b.book.order itr) leavesQty]))
    {qty : Qty} {es : List Event} (h : b.IsIntact) (hinit : P b qty [])
    (hrun : b.checkForMatch a.tickerId a.clientId a.side a.price a.clientOrderId a.newMarketOrderId qty =
      .ok (b', leavesQty, es)) :
    ∃ fills : List Fill, es = fills.flatMap Fill.events ∧ P b' leavesQty fills ∧ b'.IsIntact := by
  obtain ⟨fills, hes, ⟨hP, hintact⟩, -⟩ := checkForMatch_rule a (P := fun b q fills => P b q fills ∧ b.IsIntact)
    (fun hs b q fills itr b' q' hb hround => by
      obtain ⟨hP, rings, ladders, hintact⟩ := hb
      obtain ⟨hused, hladder⟩ := hround.meets hintact
      exact ⟨hstep hs b q fills itr b' q' ⟨rings, ladders, hintact⟩ hused hladder hP hround,
        hround.fills.isIntact hintact hused⟩) ⟨hinit, h⟩ hrun
  exact ⟨fills, hes, hP, hintact⟩

end MEOrderBook
end LowLatencyExchange
