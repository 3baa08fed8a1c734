import LowLatencyExchange.Trading.BestPrices
import LowLatencyExchange.Trading.LiveOrders

/-!
# The depth of a client's book

What is read from a top pointer along `next_entry_` and, at each level, along `next_order_`.
A book that holds the live orders of a stream on sorted ladders shows them by price, best
first, and at each price in order of arrival, so no history shows in it.
-/

namespace LowLatencyExchange
open CircularList PriceBook

/-- Prices and, at each price, the ids and quantities of the orders. -/
abbrev Depth := List (Price × List (OrderId × Qty))

/-- The orders of one side by price, best first, and at each price in order of arrival. -/
structure IsDepth (live : List MEMarketUpdate) (s : Side) (d : Depth) : Prop where
  sorted : d.Pairwise fun x y => addAfter s y.1 x.1
  level : ∀ x ∈ d, x.2 = (live.filter fun u => u.side = s ∧ u.price = x.1).map fun u => (u.orderId, u.qty)
  prices : ∀ price, (∃ x ∈ d, x.1 = price) ↔ ∃ u ∈ live, u.side = s ∧ u.price = price

section Depth
variable {live : List MEMarketUpdate} {s : Side} {d d' : Depth}

theorem IsDepth.unique (h : IsDepth live s d) (h' : IsDepth live s d') : d = d' := by
  have hmem : ∀ {e e' : Depth}, IsDepth live s e → IsDepth live s e' → ∀ x ∈ e, x ∈ e' := by
    intro e e' he he' x hx
    obtain ⟨y, hy, hprice⟩ := (he'.prices x.1).mpr ((he.prices x.1).mp ⟨x, hx, rfl⟩)
    have horders : y.2 = x.2 := by rw [he'.level y hy, he.level x hx, hprice]
    obtain rfl : y = x := Prod.ext hprice horders
    exact hy
  refine h.sorted.eq_of_mem (fun x y hxy hyx => ?_) h'.sorted fun x => ⟨hmem h h' x, hmem h' h x⟩
  have hno := addAfter_asymm hxy
  rw [hyx] at hno
  cases hno

/-- No live order has a better price than the first level. -/
lemma IsDepth.head {x : Price × List (OrderId × Qty)} (h : IsDepth live s (x :: d)) {u : MEMarketUpdate}
    (hu : u ∈ live) (hs : u.side = s) : addAfter s x.1 u.price = false := by
  obtain ⟨y, hy, hprice⟩ := (h.prices u.price).mpr ⟨u, hu, hs, rfl⟩
  rw [← hprice]
  rcases List.mem_cons.mp hy with rfl | hy
  · exact addAfter_self s y.1
  · exact addAfter_asymm (List.rel_of_pairwise_cons h.sorted hy)

end Depth

namespace MarketOrderBook

/-- The orders of a level along `next_order_`, from its first order on. -/
def readOrders (b : MarketBook) (lvl : Nat) : Option (List (OrderId × Qty)) :=
  (readRing (fun o => (b.order o).nextOrder) b.orderPool.size (b.level lvl).firstOrder).map
    (List.map fun o => ((b.order o).ids.orderId, (b.order o).qty))

def readLevels (b : MarketBook) : List Nat → Option Depth
  | [] => some []
  | lvl :: lvls => do
    let orders ← readOrders b lvl
    let depth ← readLevels b lvls
    pure (((b.level lvl).price, orders) :: depth)

/-- The levels of a side along `next_entry_`, from the top pointer on. Nothing is read where a
walk does not come back to where it began. -/
def readDepth (b : MarketBook) (s : Side) : Option Depth :=
  (readRing (fun p => (b.level p).nextEntry) b.ordersAtPricePool.size (b.top s)).bind (readLevels b)

/-- A live order of the book, as the `ADD` that would place it. -/
def liveOrder (b : MarketBook) (tickerId : TickerId) (o : Nat) : MEMarketUpdate where
  type := .add
  orderId := (b.order o).ids.orderId
  tickerId := tickerId
  side := (b.order o).side
  price := (b.order o).price
  qty := (b.order o).qty
  priority := (b.order o).priority

/-- A well-formed book with exactly these live orders, each level in order of arrival. -/
structure Holds (tickerId : TickerId) (b : MarketBook) (sh : Shape) (live : List MEMarketUpdate) : Prop where
  wellFormed : b.WellFormed sh
  levelSize : b.ordersAtPricePool.size = ME_MAX_PRICE_LEVELS
  orderSize : b.orderPool.size = ME_MAX_ORDER_IDS
  sorted : ∀ s : Side, s.Trading → ∀ l ∈ sh.side s,
    l.orders.Pairwise fun o q => (b.order o).ids.orderId < (b.order q).ids.orderId
  mem : ∀ x, x ∈ live ↔ ∃ o ∈ sh.orders, liveOrder b tickerId o = x

variable {b : MarketBook} {sh : Shape} {s : Side} {t : TickerId} {live : List MEMarketUpdate}

/-- What is read first has the price of the top level. -/
lemma readDepth_head {lvl : Nat} {d : Depth} (htop : b.top s = some lvl) (hread : readDepth b s = some d) :
    ∃ orders rest, d = ((b.level lvl).price, orders) :: rest := by
  obtain ⟨lvls, hlvls, hread⟩ := Option.bind_eq_some_iff.mp hread
  have hhead := readRing_head hlvls
  rw [htop] at hhead
  cases lvls with
  | nil => cases hhead
  | cons p lvls =>
    obtain rfl := Option.some.inj hhead
    obtain ⟨orders, -, hread⟩ := Option.bind_eq_some_iff.mp hread
    obtain ⟨rest, -, hd⟩ := Option.bind_eq_some_iff.mp hread
    exact ⟨orders, rest, (Option.some.inj hd).symm⟩

/-- A well-formed book is read as its shape. -/
lemma readDepth_wellFormed (h : b.WellFormed sh) (hs : s.Trading) :
    readDepth b s = some ((sh.side s).map fun l =>
      ((b.level l.ptr).price, l.orders.map fun o => ((b.order o).ids.orderId, (b.order o).qty))) := by
  have hok := h.side s hs
  have hptrs := (List.nodup_append.mp (h.side_nodup hs)).1
  have horders : ∀ l ∈ sh.side s, readOrders b l.ptr =
      some (l.orders.map fun o => ((b.order o).ids.orderId, (b.order o).qty)) := by
    intro l hl
    have hlevel := hok.level l hl
    have hnodup := (List.nodup_flatMap.mp (List.nodup_append.mp (h.side_orders_nodup hs)).1).1 l hl
    have hlen : l.orders.length ≤ b.orderPool.size := length_le_of_nodup_of_lt hnodup fun o ho =>
      h.orderPool.used_lt o ((h.orderUsed o).mpr (Shape.mem_orders_of_side hs hl ho))
    rw [readOrders, hlevel.first, hlevel.ring.readRing hnodup hlen]
    rfl
  have hlen : ((sh.side s).map LevelShape.ptr).length ≤ b.ordersAtPricePool.size := by
    refine length_le_of_nodup_of_lt hptrs fun p hp => h.levelPool.used_lt p ((h.levelUsed p).mpr ?_)
    obtain ⟨l, hl, rfl⟩ := List.mem_map.mp hp
    exact Shape.mem_levelPtrs_of_side hs hl
  rw [readDepth, hok.top, hok.ring.readRing hptrs hlen, Option.bind_some]
  clear hlen hptrs
  generalize sh.side s = ls at horders ⊢
  induction ls with
  | nil => rfl
  | cons l ls ih =>
    have hrest := ih fun x hx => horders x (List.mem_cons_of_mem l hx)
    simp [readLevels, horders l List.mem_cons_self, hrest]

/-- The orders of a level are the live ones of its side and price. -/
lemma Holds.level_eq (h : Holds t b sh live) (harrived : Arrived t live) (hs : s.Trading) {l : LevelShape}
    (hl : l ∈ sh.side s) : l.orders.map (liveOrder b t) =
      live.filter fun u => u.side = s ∧ u.price = (b.level l.ptr).price := by
  have hok := (h.wellFormed.side s hs).level l hl
  have hleft : (l.orders.map (liveOrder b t)).Pairwise fun x y => x.orderId < y.orderId :=
    List.pairwise_map.mpr (h.sorted s hs l hl)
  have hright := (List.pairwise_map.mp harrived.sorted).sublist
    (List.filter_sublist (p := fun u => decide (u.side = s ∧ u.price = (b.level l.ptr).price)))
  refine hleft.eq_of_mem (fun _ _ => Nat.lt_asymm) hright fun x => ?_
  rw [List.mem_map, List.mem_filter, h.mem, decide_eq_true_eq]
  constructor
  · rintro ⟨o, ho, rfl⟩
    exact ⟨⟨o, Shape.mem_orders_of_side hs hl ho, rfl⟩, hok.orderSide o ho, hok.orderPrice o ho⟩
  · rintro ⟨⟨o, ho, rfl⟩, hside, hprice⟩
    obtain ⟨s', hs', l', hl', ho⟩ := Shape.mem_orders.mp ho
    have hok' := (h.wellFormed.side s' hs').level l' hl'
    obtain rfl : s' = s := (hok'.orderSide o ho).symm.trans hside
    have hptr : l'.ptr = l.ptr := h.wellFormed.level_ext (Shape.mem_levelPtrs_of_side hs hl')
      (Shape.mem_levelPtrs_of_side hs hl) (by rw [← hok'.orderPrice o ho]; exact congrArg _ hprice)
    obtain rfl : l' = l := List.inj_on_of_nodup_map (List.nodup_append.mp (h.wellFormed.side_nodup hs)).1
      hl' hl hptr
    exact ⟨o, ho, rfl⟩

/-- A book with these live orders shows their depth. -/
theorem Holds.depth (h : Holds t b sh live) (harrived : Arrived t live) (hs : s.Trading) :
    ∃ d, readDepth b s = some d ∧ IsDepth live s d := by
  have hok := h.wellFormed.side s hs
  refine ⟨_, readDepth_wellFormed h.wellFormed hs, ?_, fun x hx => ?_, fun price => ?_⟩
  · exact List.pairwise_map.mpr (List.pairwise_map.mp hok.sorted)
  · obtain ⟨l, hl, rfl⟩ := List.mem_map.mp hx
    rw [← h.level_eq harrived hs hl, List.map_map]
    rfl
  · constructor
    · rintro ⟨x, hx, rfl⟩
      obtain ⟨l, hl, rfl⟩ := List.mem_map.mp hx
      obtain ⟨o, ho⟩ := List.exists_mem_of_ne_nil _ (hok.level l hl).nonempty
      exact ⟨liveOrder b t o, (h.mem _).mpr ⟨o, Shape.mem_orders_of_side hs hl ho, rfl⟩,
        (hok.level l hl).orderSide o ho, (hok.level l hl).orderPrice o ho⟩
    · rintro ⟨u, hu, hside, rfl⟩
      obtain ⟨o, ho, rfl⟩ := (h.mem u).mp hu
      obtain ⟨s', hs', l, hl, ho⟩ := Shape.mem_orders.mp ho
      have hok' := (h.wellFormed.side s' hs').level l hl
      obtain rfl : s' = s := (hok'.orderSide o ho).symm.trans hside
      exact ⟨_, List.mem_map_of_mem hl, (hok'.orderPrice o ho).symm⟩

end MarketOrderBook
end LowLatencyExchange
