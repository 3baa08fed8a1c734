import LowLatencyExchange.Book.Printing
import LowLatencyExchange.Exchange.Remainder
import LowLatencyExchange.Trading.Clear

/-!
# The validity check of a book

`toString(detailed, true)` of `MEOrderBook` and of `MarketOrderBook` is there to refuse a book whose prices are
out of order. Its last prices start at the wrong ends, so it refuses the first level of either side.
-/

namespace LowLatencyExchange
open CircularList PriceBook

/-- `MEOrder::toString`. -/
def MEOrder.toString (b : PriceBook MEOrderIds (ClientId × OrderId)) (o : MEOrder) : String :=
  let id (p : Option Nat) : OrderId :=
    match p with
    | some p => (b.order p).ids.marketOrderId
    | none => OrderId_INVALID
  "MEOrder[ ticker:" ++ tickerIdToString o.ids.tickerId ++ "  cid:" ++ clientIdToString o.ids.clientId ++
    "  coid:" ++ orderIdToString o.ids.clientOrderId ++ "  moid:" ++ orderIdToString o.ids.marketOrderId ++
    "  side:" ++ sideToString o.side ++ "  price:" ++ priceToString o.price ++ "  priority:" ++
    priorityToString o.priority ++ "  qty:" ++ qtyToString o.qty ++ "  prev:" ++ orderIdToString (id o.prevOrder) ++
    "  next:" ++ orderIdToString (id o.nextOrder) ++ "]"

/-- `MarketOrder::toString`. -/
def MarketOrder.toString (b : MarketBook) (o : MarketOrder) : String :=
  let id (p : Option Nat) : OrderId :=
    match p with
    | some p => (b.order p).ids.orderId
    | none => OrderId_INVALID
  "MarketOrder[ oid:" ++ orderIdToString o.ids.orderId ++ "  side:" ++ sideToString o.side ++ "  price:" ++
    priceToString o.price ++ "  priority:" ++ priorityToString o.priority ++ "  qty:" ++ qtyToString o.qty ++
    "  prev:" ++ orderIdToString (id o.prevOrder) ++ "  next:" ++ orderIdToString (id o.nextOrder) ++ "]"

def meWording : Wording MEOrderIds (ClientId × OrderId) := ⟨"MEOrdersAtPrice", MEOrderIds.marketOrderId, MEOrder.toString⟩
def marketWording : Wording MarketOrderIds OrderId := ⟨"MarketOrdersAtPrice", MarketOrderIds.orderId, MarketOrder.toString⟩

def MEOrderBook.toString (b : MEOrderBook) (detailed validityCheck : Bool) : Except Fault String :=
  b.book.toString meWording b.tickerId detailed validityCheck

def MarketOrderBook.toString (T : MarketOrderBook) (detailed validityCheck : Bool) : Except Fault String :=
  T.book.toString marketWording T.tickerId detailed validityCheck

namespace PriceBook

/-- The check of a book does its work: it comes to an end, and it refuses what is out of order. -/
def ChecksOrder {I K : Type} (b : PriceBook I K) (ladders : Side → List Nat) (r : Except Fault String) : Prop :=
  Terminates r ∧ (ReachesFatal r ↔ ¬b.InOrder ladders)

lemma inOrder_of_single {I K : Type} {b : PriceBook I K} {ladders : Side → List Nat} {p : Nat} (hbids : ladders .buy = [p])
    (hasks : ladders .sell = []) : b.InOrder ladders := by
  simp [InOrder, hbids, hasks, prices]

lemma checksOrder_iff {I K : Type} {b : PriceBook I K} {ladders : Side → List Nat} (h : b.Circular ladders)
    (hmax : ∀ p ∈ ladders .buy, (b.level p).price ≤ Price_INVALID) (w : Wording I K) (tickerId : TickerId)
    (detailed : Bool) : b.ChecksOrder ladders (b.toString w tickerId detailed true) ↔
      NoLevels ladders ∨ ¬b.InOrder ladders := by
  obtain ⟨hterminates, hfatal⟩ := toString_fatal_iff h hmax w tickerId detailed
  have hempty : NoLevels ladders → b.InOrder ladders := NoLevels.inOrder
  unfold ChecksOrder
  rw [hfatal]
  tauto

end PriceBook

/-- The validity check of either book is right on a book without levels and on one that is out of order.
`Price_INVALID` is the largest value of a price. -/
theorem validity_check_iff (detailed : Bool) (ladders : Side → List Nat) :
    (∀ b : MEOrderBook, b.book.Circular ladders → (∀ p ∈ ladders .buy, (b.book.level p).price ≤ Price_INVALID) →
      (b.book.ChecksOrder ladders (b.toString detailed true) ↔ NoLevels ladders ∨ ¬b.book.InOrder ladders)) ∧
    ∀ T : MarketOrderBook, T.book.Circular ladders → (∀ p ∈ ladders .buy, (T.book.level p).price ≤ Price_INVALID) →
      (T.book.ChecksOrder ladders (T.toString detailed true) ↔ NoLevels ladders ∨ ¬T.book.InOrder ladders) := by
  constructor
  · intro b hcircular hmax
    exact checksOrder_iff hcircular hmax meWording b.tickerId detailed
  · intro T hcircular hmax
    exact checksOrder_iff hcircular hmax marketWording T.tickerId detailed

open MarketOrderBook LoggedRun

/-- A fresh book is listed, and a bid that has moved in front of the best one is found. -/
theorem validity_check_misplaced :
    (MEOrderBook.create 0).book.ChecksOrder (fun _ => []) ((MEOrderBook.create 0).toString true true) ∧
    ∃ T calls, execute onMarketUpdate (create 0) [quote 1 .buy 100 10, quote 2 .buy 98 10, quote 3 .buy 97 10,
      quote 4 .buy 99 10] = .ok (T, calls) ∧ ∃ ladders, ¬T.book.InOrder ladders ∧
        T.book.ChecksOrder ladders (T.toString true true) := by
  constructor
  · exact ((validity_check_iff true fun _ => []).1 (MEOrderBook.create 0) (MEOrderBook.intact_create 0).circular
      (fun p hp => absurd hp List.not_mem_nil)).mpr (.inl ⟨rfl, rfl⟩)
  · obtain ⟨T, calls, hrun, hbids, hprices⟩ := exists_of_ends onMarketUpdate (create 0)
      [quote 1 .buy 100 10, quote 2 .buy 98 10, quote 3 .buy 97 10, quote 4 .buy 99 10]
      (fun T _ => T.book.ladder .buy = [3, 1, 2, 0] ∧ T.book.prices [3, 1, 2, 0] = [99, 98, 97, 100])
      (by decide +kernel)
    obtain ⟨⟨rings, ladders, hintact⟩, -⟩ := cleared_after (by decide) (never_of_avoids (by decide +kernel)) hrun
    rw [hintact.ladder_eq] at hbids
    have hbids' : ladders .buy = [3, 1, 2, 0] := hbids
    have horder : ¬T.book.InOrder ladders := by
      intro h
      have hdescending := h.2
      rw [hbids', hprices] at hdescending
      revert hdescending
      decide
    have hmax : ∀ p ∈ ladders .buy, (T.book.level p).price ≤ Price_INVALID := by
      intro p hp
      rw [hbids'] at hp
      have hmem : (T.book.level p).price ∈ T.book.prices [3, 1, 2, 0] := List.mem_map_of_mem hp
      rw [hprices] at hmem
      have hall : ∀ price ∈ [99, 98, 97, 100], price ≤ Price_INVALID := by decide
      exact hall _ hmem
    exact ⟨T, calls, hrun, ladders, horder, ((validity_check_iff true ladders).2 T hintact.circular hmax).mpr (.inr horder)⟩

/-- What the two books say of a level with one bid. -/
def refusedBid : Fault :=
  .fatal ("Bids/Asks are not sorted by ascending/descending prices last:INVALID itr:" ++
    "MEOrdersAtPrice[side:BUY price:100 first_me_order:MEOrder[ ticker:0  cid:3  coid:7  moid:1  side:BUY  " ++
    "price:100  priority:1  qty:1  prev:1  next:1] prev:100 next:100 ]")
def refusedMarketBid : Fault :=
  .fatal ("Bids/Asks are not sorted by ascending/descending prices last:INVALID itr:" ++
    "MarketOrdersAtPrice[side:BUY price:100 first_me_order:MarketOrder[ oid:1  side:BUY  price:100  " ++
    "priority:1  qty:10  prev:1  next:1] prev:100 next:100 ]")

/-- One bid is in order, and both books refuse it. -/
theorem validity_check_fails :
    (∃ b es ladders, execute MEOrderBook.call (MEOrderBook.create 0) [.add 3 7 0 .buy 100 10] = .ok (b, es) ∧
      b.book.Circular ladders ∧ b.book.InOrder ladders ∧ b.toString false true = .error refusedBid) ∧
    ∃ T calls ladders, execute onMarketUpdate (create 0) [quote 1 .buy 100 10] = .ok (T, calls) ∧
      T.book.Circular ladders ∧ T.book.InOrder ladders ∧ T.toString false true = .error refusedMarketBid := by
  constructor
  · obtain ⟨b, es, hrun, hbids, hasks, hrefused⟩ := exists_of_ends MEOrderBook.call (MEOrderBook.create 0)
      [.add 3 7 0 .buy 100 10] (fun b _ => b.book.ladder .buy = [0] ∧ b.book.ladder .sell = [] ∧
        b.toString false true = .error refusedBid) (by decide +kernel)
    have hkeeps : (MEOrderBook.create 0).Keeps (.add 3 7 0 .buy 100 10) := by
      intro _
      refine ⟨fun p hp => ?_, fun _ htears => htears.1 rfl⟩
      cases hp
    obtain ⟨rings, ladders, hintact⟩ :=
      MEOrderBook.call_intact (MEOrderBook.intact_create 0) hkeeps (execute_singleton hrun)
    rw [hintact.ladder_eq] at hbids hasks
    exact ⟨b, es, ladders, hrun, hintact.circular, inOrder_of_single hbids hasks, hrefused⟩
  · obtain ⟨T, calls, hrun, hbids, hasks, hrefused⟩ := exists_of_ends onMarketUpdate (create 0)
      [quote 1 .buy 100 10] (fun T _ => T.book.ladder .buy = [0] ∧ T.book.ladder .sell = [] ∧
        T.toString false true = .error refusedMarketBid) (by decide +kernel)
    obtain ⟨⟨rings, ladders, hintact⟩, -⟩ := cleared_after (by decide) (never_of_avoids (by decide +kernel)) hrun
    rw [hintact.ladder_eq] at hbids hasks
    exact ⟨T, calls, ladders, hrun, hintact.circular, inOrder_of_single hbids hasks, hrefused⟩

end LowLatencyExchange
