import LowLatencyExchange.Book.Tops
import LowLatencyExchange.Library.Run
import LowLatencyExchange.Trading.EngineStream
import LowLatencyExchange.Trading.LevelQuantity

/-!
# The cached best prices

`getBBO` shows what `updateBBO` last read. Whether a side is read again is decided from its top before
the update, so the first order of a side goes unseen, and so does a top that an `ADD` moves away from
the update's price. Which updates leave the cached prices behind can be told before they are taken.
-/

namespace LowLatencyExchange
open CircularList PriceBook LoggedRun
namespace MarketOrderBook
variable {b b' : MarketBook} {live : List MEMarketUpdate} {u : MEMarketUpdate} {o lvl : Nat} {s : Side}
  {rings : Nat → List Nat} {ladders : Side → List Nat}

/-- The quantity of the orders at a level. -/
def levelQty (b : MarketBook) (p : Nat) : Nat := sumQty b (b.ordersOf p)

/-- Price and quantity of the level that the top pointer of a side gives. -/
def bestOffer (b : MarketBook) (s : Side) : Price × Nat :=
  match b.top s with
  | none => (Price_INVALID, Qty_INVALID)
  | some best => ((b.level best).price, levelQty b best)

/-- Both sides show what their top pointers give. -/
def Current (T : MarketOrderBook) : Prop := ∀ s : Side, s.Trading → T.bbo.side s = bestOffer T.book s

instance (T : MarketOrderBook) : Decidable T.Current :=
  decidable_of_iff (T.bbo.side .buy = bestOffer T.book .buy ∧ T.bbo.side .sell = bestOffer T.book .sell) <| by
    constructor
    · rintro ⟨hbuy, hsell⟩ s (rfl | rfl)
      · exact hbuy
      · exact hsell
    · exact fun h => ⟨h .buy (by simp), h .sell (by simp)⟩

/-- The first order of a side. With both sentinels it is what the side shows already. -/
def OpensSide (b : MarketBook) (u : MEMarketUpdate) : Prop :=
  u.type = .add ∧ b.getOrdersAtPrice u.price = none ∧ b.ladder u.side = [] ∧
    ¬(u.price = Price_INVALID ∧ u.qty = Qty_INVALID)

/-- A bid at a new price that is worse than the top and better than another level. The top moves to it. -/
def OpensBetween (b : MarketBook) (u : MEMarketUpdate) : Prop :=
  u.type = .add ∧ b.getOrdersAtPrice u.price = none ∧ u.side = .buy ∧
    ∃ best ∈ b.top u.side, u.price < (b.level best).price ∧ ∃ q ∈ b.ladder u.side, (b.level q).price < u.price

/-- A top level gets more than `Qty` can hold. -/
def Outgrows (b : MarketBook) (u : MEMarketUpdate) : Prop :=
  ∃ lvl ∈ b.getOrdersAtPrice u.price, b.top u.side = some lvl ∧
    ((u.type = .add ∧ 4294967296 ≤ levelQty b lvl + u.qty) ∨
      (u.type = .modify ∧ ∃ o ∈ b.orderTable u.orderId, 4294967296 + (b.order o).qty ≤ levelQty b lvl + u.qty))

/-- The last order of a top level goes, and the next level has more than `Qty` can hold. -/
def Uncovers (b : MarketBook) (u : MEMarketUpdate) : Prop :=
  u.type = .cancel ∧ ∃ lvl ∈ b.getOrdersAtPrice u.price, b.top u.side = some lvl ∧ (b.ordersOf lvl).length = 1 ∧
    ∃ next ∈ (b.ladder u.side).tail.head?, 4294967296 ≤ levelQty b next

/-- The updates that leave the cached prices behind. -/
def Outdates (b : MarketBook) (u : MEMarketUpdate) : Prop :=
  OpensSide b u ∨ OpensBetween b u ∨ Outgrows b u ∨ Uncovers b u

instance (b : MarketBook) (u : MEMarketUpdate) : Decidable (OpensSide b u) := inferInstanceAs (Decidable (_ ∧ _ ∧ _ ∧ _))
instance (b : MarketBook) (u : MEMarketUpdate) : Decidable (OpensBetween b u) :=
  inferInstanceAs (Decidable (_ ∧ _ ∧ _ ∧ ∃ best ∈ _, _ ∧ ∃ q ∈ _, _))
instance (b : MarketBook) (u : MEMarketUpdate) : Decidable (Outgrows b u) :=
  inferInstanceAs (Decidable (∃ lvl ∈ _, _ ∧ (_ ∨ (_ ∧ ∃ o ∈ _, _))))
instance (b : MarketBook) (u : MEMarketUpdate) : Decidable (Uncovers b u) :=
  inferInstanceAs (Decidable (_ ∧ ∃ lvl ∈ _, _ ∧ _ ∧ ∃ next ∈ _, _))
instance (b : MarketBook) (u : MEMarketUpdate) : Decidable (Outdates b u) :=
  inferInstanceAs (Decidable (_ ∨ _ ∨ _ ∨ _))

section Cases

lemma outdates_joins (htype : u.type = .add) (hget : b.getOrdersAtPrice u.price = some lvl) :
    Outdates b u ↔ b.top u.side = some lvl ∧ 4294967296 ≤ levelQty b lvl + u.qty := by
  simp [Outdates, OpensSide, OpensBetween, Outgrows, Uncovers, htype, hget]

lemma outdates_first (htype : u.type = .add) (hget : b.getOrdersAtPrice u.price = none)
    (hladder : b.ladder u.side = []) : Outdates b u ↔ ¬(u.price = Price_INVALID ∧ u.qty = Qty_INVALID) := by
  simp [Outdates, OpensSide, OpensBetween, Outgrows, Uncovers, htype, hget, hladder]

lemma outdates_opens {best : Nat} (htype : u.type = .add) (hget : b.getOrdersAtPrice u.price = none)
    (hladder : b.ladder u.side ≠ []) (htop : b.top u.side = some best) : Outdates b u ↔
      u.side = .buy ∧ u.price < (b.level best).price ∧ ∃ q ∈ b.ladder u.side, (b.level q).price < u.price := by
  simp [Outdates, OpensSide, OpensBetween, Outgrows, Uncovers, htype, hget, hladder, htop]

lemma outdates_modify (htype : u.type = .modify) (hget : b.getOrdersAtPrice u.price = some lvl)
    (ho : b.orderTable u.orderId = some o) : Outdates b u ↔
      b.top u.side = some lvl ∧ 4294967296 + (b.order o).qty ≤ levelQty b lvl + u.qty := by
  simp [Outdates, OpensSide, OpensBetween, Outgrows, Uncovers, htype, hget, ho]

lemma outdates_cancel (htype : u.type = .cancel) (hget : b.getOrdersAtPrice u.price = some lvl) :
    Outdates b u ↔ b.top u.side = some lvl ∧ (b.ordersOf lvl).length = 1 ∧
      ∃ next ∈ (b.ladder u.side).tail.head?, 4294967296 ≤ levelQty b next := by
  simp [Outdates, OpensSide, OpensBetween, Outgrows, Uncovers, htype, hget]

lemma outdates_trade (htype : u.type = .trade) : ¬Outdates b u := by
  simp [Outdates, OpensSide, OpensBetween, Outgrows, Uncovers, htype]

end Cases

section Offers

/-- What `updateBBO` reads, in terms of the levels and their orders. -/
lemma bestOf_eq (h : b.Intact rings ladders) (hqty : ∀ o, b.orderPool.Used o → (b.order o).qty < 4294967296)
    (hs : s.Trading) : bestOf b s = .ok ((bestOffer b s).1, wrap32 (bestOffer b s).2) := by
  unfold bestOffer
  cases htop : b.top s with
  | none => simp [bestOf, htop, wrap32, Qty_INVALID]
  | some best =>
    have hused := (h.used_of_top hs htop).1
    have hget := (h.filed.level _ best).mpr ⟨hused, rfl⟩
    have horders : ∀ q ∈ rings (priceToIndex (b.level best).price), b.orderPool.Used q := fun q hq =>
      ((h.filed.mem _ q).mp hq).1
    have hring : b.RingAt best (rings (priceToIndex (b.level best).price)) := by
      refine ⟨hused, h.filed.first _ best hget, ?_, h.filed.ring _, h.filed.nodup _, horders⟩
      intro hnil
      rw [(h.filed.empty _).mpr hnil] at hget
      cases hget
    rw [bestOf_ring htop hring h.orderPool fun q hq => hqty q (horders q hq)]
    simp only [levelQty, h.ordersOf_eq hused]

lemma bestOffer_congr (htop : b'.top s = b.top s) (hlevel : ∀ p, b.top s = some p →
    (b'.level p).price = (b.level p).price ∧ levelQty b' p = levelQty b p) : bestOffer b' s = bestOffer b s := by
  unfold bestOffer
  rw [htop]
  cases hp : b.top s with
  | none => rfl
  | some p => simp only [hlevel p hp]

lemma sumQty_erase {os : List Nat} (ho : o ∈ os) : (b.order o).qty + sumQty b (os.erase o) = sumQty b os := by
  induction os with
  | nil => cases ho
  | cons q os ih =>
    by_cases hq : q = o
    · rw [hq, List.erase_cons_head, sumQty_cons]
    · have hmem : o ∈ os := (List.mem_cons.mp ho).resolve_left (Ne.symm hq)
      rw [List.erase_cons_tail (by simpa using hq), sumQty_cons, sumQty_cons, ← ih hmem]
      exact Nat.add_left_comm _ _ _

/-- The quantity of a level after an `ADD`. -/
lemma levelQty_add (h : b.Intact rings ladders) {pool : MemPool MarketOrder}
    (halloc : b.orderPool.allocate (newOrder u) = .ok (pool, o)) (hrun : (b.setOrderPool pool).addOrder o = .ok b')
    (hpool : b'.orderPool.Sound) {p : Nat} (hp : b'.ordersAtPricePool.Used p) :
    levelQty b' p = sumQty b (rings (priceToIndex (b'.level p).price)) +
      if priceToIndex (b'.level p).price = priceToIndex u.price then u.qty else 0 := by
  have hf := addOrder_frame hrun
  have hnew := order_newOrder halloc
  have hfiled := h.filed.addOrder halloc hrun
  have hqty : ∀ j, ∀ q ∈ rings j, (b'.order q).qty = (b.order q).qty := by
    intro j q hq
    obtain ⟨hfiling, -⟩ := h.filed.filing halloc
    rw [(BookOrder.unlinked_eq_iff.mp (hf.order q)).2.2.2.1, hfiling.order q (hfiling.ne_of_mem hq)]
  have hself : (b'.order o).qty = u.qty := by
    rw [(BookOrder.unlinked_eq_iff.mp (hf.order o)).2.2.2.1, hnew]
    rfl
  rw [levelQty, hfiled.ordersOf_eq hpool hp, Function.update_apply]
  split
  · rename_i hi
    rw [sumQty_append, sumQty_cons, sumQty_nil, hself, sumQty_congr (hqty _), hi]
    exact (if_pos rfl).symm ▸ rfl
  · rename_i hi
    have hindex : ¬priceToIndex (b'.level p).price = priceToIndex u.price := hi
    rw [sumQty_congr (hqty _), if_neg hindex, Nat.add_zero]

/-- The quantity of a level after a `MODIFY`. -/
lemma levelQty_setQty (h : b.Intact rings ladders) (ho : b.orderPool.Used o) (qty : Qty) {p : Nat}
    (hp : b.ordersAtPricePool.Used p) :
    if b.getOrdersAtPrice (b.order o).price = some p then
      levelQty (b.setQty o qty) p + (b.order o).qty = levelQty b p + qty
    else levelQty (b.setQty o qty) p = levelQty b p := by
  have hsame : ∀ os : List Nat, o ∉ os → sumQty (b.setQty o qty) os = sumQty b os := by
    intro os hos
    apply sumQty_congr
    intro q hq
    rw [qty_setQty, if_neg fun he : q = o => hos (he ▸ hq)]
  rw [levelQty, levelQty, (h.setQty o qty).ordersOf_eq hp, h.ordersOf_eq hp]
  change if _ then sumQty _ (rings (priceToIndex (b.level p).price)) + _ = _
    else sumQty _ (rings (priceToIndex (b.level p).price)) = _
  split
  · rename_i hget
    have hindex := ((h.filed.level _ p).mp hget).2
    have hmem : o ∈ rings (priceToIndex (b.level p).price) := (h.filed.mem _ o).mpr ⟨ho, hindex.symm⟩
    have hnot : o ∉ (rings (priceToIndex (b.level p).price)).erase o := (h.filed.nodup _).not_mem_erase
    rw [← sumQty_erase hmem, ← sumQty_erase (b := b) hmem, hsame _ hnot, qty_setQty, if_pos rfl]
    omega
  · rename_i hget
    apply hsame
    intro hmem
    have hindex := ((h.filed.mem _ o).mp hmem).2
    exact hget ((h.filed.level _ p).mpr ⟨hp, hindex.symm⟩)

/-- The quantity of a level that is left after a `CANCEL`. -/
lemma levelQty_removeOrder (h : b.Intact rings ladders) (ho : b.orderPool.Used o) (hrun : b.removeOrder o = .ok b')
    (hpool : b'.orderPool.Sound) {p : Nat} (hp : b'.ordersAtPricePool.Used p) (hp₀ : b.ordersAtPricePool.Used p)
    (hprice : (b'.level p).price = (b.level p).price) :
    if b.getOrdersAtPrice (b.order o).price = some p then levelQty b' p + (b.order o).qty = levelQty b p
    else levelQty b' p = levelQty b p := by
  have hf := removeOrder_frame hrun
  have hqty : ∀ os : List Nat, sumQty b' os = sumQty b os := fun os =>
    sumQty_congr fun q _ => (BookOrder.unlinked_eq_iff.mp (hf.order q)).2.2.2.1
  rw [levelQty, levelQty, (h.filed.removeOrder hrun).ordersOf_eq hpool hp, h.ordersOf_eq hp₀, hqty, hprice,
    Function.update_apply]
  split
  · rename_i hget
    have hindex := ((h.filed.level _ p).mp hget).2
    have hmem : o ∈ rings (priceToIndex (b.order o).price) := (h.filed.mem _ o).mpr ⟨ho, rfl⟩
    rw [if_pos hindex, hindex, ← sumQty_erase hmem, Nat.add_comm]
  · rename_i hget
    rw [if_neg fun hindex => hget ((h.filed.level _ p).mpr ⟨hp₀, hindex⟩)]

/-- An `ADD` at the price of a level. -/
lemma offer_joins (h : b.Intact rings ladders) {pool : MemPool MarketOrder}
    (halloc : b.orderPool.allocate (newOrder u) = .ok (pool, o)) (hrun : (b.setOrderPool pool).addOrder o = .ok b')
    (hpool : b'.orderPool.Sound) (hget : b.getOrdersAtPrice u.price = some lvl) (hs : s.Trading) :
    bestOffer b' s =
      if b.top s = some lvl then ((b.level lvl).price, levelQty b lvl + u.qty) else bestOffer b s := by
  obtain ⟨hlevel, htop, hlevels⟩ := addOrder_joined (order_newOrder halloc) hget hrun
  have hqty : ∀ p, b.ordersAtPricePool.Used p →
      levelQty b' p = levelQty b p + if p = lvl then u.qty else 0 := by
    intro p hp
    have hslot : priceToIndex (b.level p).price = priceToIndex u.price ↔ p = lvl := by
      constructor
      · intro hindex
        exact Option.some.inj (((h.filed.level _ p).mpr ⟨hp, hindex⟩).symm.trans hget)
      · rintro rfl
        exact ((h.filed.level _ p).mp hget).2
    have hsum := levelQty_add h halloc hrun hpool (p := p) (by rw [hlevels]; exact hp)
    rw [hsum, hlevel, levelQty, h.ordersOf_eq hp]
    simp only [hslot]
  split
  · rename_i hbest
    have hused := (h.used_of_top hs hbest).1
    simp only [bestOffer, htop, hbest, hlevel, hqty lvl hused, if_true]
  · rename_i hbest
    refine bestOffer_congr (htop s) fun p hp => ⟨by rw [hlevel], ?_⟩
    rw [hqty p (h.used_of_top hs hp).1, if_neg fun he : p = lvl => hbest (he ▸ hp), Nat.add_zero]

/-- An `ADD` that opens a level. -/
lemma offer_opens (h : b.Intact rings ladders) {pool : MemPool MarketOrder} {n : Nat}
    (halloc : b.orderPool.allocate (newOrder u) = .ok (pool, o)) (hrun : (b.setOrderPool pool).addOrder o = .ok b')
    (hpool : b'.orderPool.Sound) (hget : b.getOrdersAtPrice u.price = none)
    (hopen : OpenedFor b (newOrder u) n (ladders u.side) b') (hs : s.Trading) :
    (b'.top s = b.top s → bestOffer b' s = bestOffer b s) ∧
    (b'.top s = some n → bestOffer b' s = (u.price, u.qty)) := by
  have hnone : ∀ p, b.ordersAtPricePool.Used p → ¬priceToIndex (b.level p).price = priceToIndex u.price := by
    intro p hp hindex
    have hslot := (h.filed.level _ p).mpr ⟨hp, hindex⟩
    cases hslot.symm.trans hget
  constructor
  · intro htop
    apply bestOffer_congr htop
    intro p hp
    have hused := (h.used_of_top hs hp).1
    have hprice := hopen.otherPrice p fun he => hopen.wasFree (he ▸ hused)
    have hsum := levelQty_add h halloc hrun hpool ((hopen.used p).mpr (.inr hused))
    rw [hprice, if_neg (hnone p hused), Nat.add_zero] at hsum
    exact ⟨hprice, by rw [hsum, levelQty, h.ordersOf_eq hused]⟩
  · intro htop
    have hempty : rings (priceToIndex u.price) = [] := (h.filed.empty _).mp hget
    have hprice : (b'.level n).price = u.price := hopen.price
    have hsum := levelQty_add h halloc hrun hpool ((hopen.used n).mpr (.inl rfl))
    rw [hprice, hempty, if_pos rfl, sumQty_nil, Nat.zero_add] at hsum
    simp only [bestOffer, htop, hprice, hsum]

/-- A `MODIFY` of an order of level `lvl`. -/
lemma offer_setQty (h : b.Intact rings ladders) (ho : b.orderPool.Used o) (qty : Qty)
    (hget : b.getOrdersAtPrice (b.order o).price = some lvl) (hs : s.Trading) :
    if b.top s = some lvl then (bestOffer (b.setQty o qty) s).2 + (b.order o).qty = levelQty b lvl + qty
    else bestOffer (b.setQty o qty) s = bestOffer b s := by
  split
  · rename_i hbest
    have hsum := levelQty_setQty h ho qty (h.used_of_top hs hbest).1
    rw [if_pos hget] at hsum
    have htop : (b.setQty o qty).top s = some lvl := hbest
    simpa only [bestOffer, htop] using hsum
  · rename_i hbest
    refine bestOffer_congr rfl fun p hp => ⟨rfl, ?_⟩
    have hsum := levelQty_setQty h ho qty (h.used_of_top hs hp).1
    rwa [if_neg fun he => hbest (hp.trans (he.symm.trans hget))] at hsum

/-- A `CANCEL` of an order of level `lvl`. -/
lemma offer_removeOrder (h : b.Intact rings ladders) (ho : b.orderPool.Used o) (hrun : b.removeOrder o = .ok b')
    (hpool : b'.orderPool.Sound) (hget : b.getOrdersAtPrice (b.order o).price = some lvl) (hs : s.Trading) :
    (b.top s ≠ some lvl → bestOffer b' s = bestOffer b s) ∧
    (b.top s = some lvl → (b.ordersOf lvl).length ≠ 1 → (bestOffer b' s).2 + (b.order o).qty = levelQty b lvl) ∧
    (b.top s = some lvl → (b.ordersOf lvl).length = 1 →
      bestOffer b' s = match (ladders s).tail with
        | [] => (Price_INVALID, Qty_INVALID)
        | next :: _ => ((b.level next).price, levelQty b next)) := by
  have hemptied := h.removeOrder_emptied ho hget hrun
  have hlvl := (h.filed.level _ lvl).mp hget
  have hmem : o ∈ rings (priceToIndex (b.order o).price) := (h.filed.mem _ o).mpr ⟨ho, rfl⟩
  have hlast : rings (priceToIndex (b.order o).price) = [o] ↔ (b.ordersOf lvl).length = 1 := by
    rw [h.ordersOf_eq hlvl.1, hlvl.2]
    constructor
    · intro hone
      rw [hone]
      rfl
    · intro hone
      obtain ⟨q, hq⟩ := List.length_eq_one_iff.mp hone
      rw [hq] at hmem ⊢
      rw [List.mem_singleton.mp hmem]
  rw [hlast] at hemptied
  have hqty : ∀ p, b.ordersAtPricePool.Used p → p ≠ lvl →
      b'.ordersAtPricePool.Used p ∧ levelQty b' p = levelQty b p := by
    intro p hp hne
    have hused := (hemptied.used p).mpr ⟨hp, fun _ => hne⟩
    have hsum := levelQty_removeOrder h ho hrun hpool hused hp (hemptied.price p)
    rw [if_neg fun he => hne (Option.some.inj (he.symm.trans hget))] at hsum
    exact ⟨hused, hsum⟩
  refine ⟨fun hbest => ?_, fun hbest hmore => ?_, fun hbest hone => ?_⟩
  · refine bestOffer_congr ?_ fun p hp => ?_
    · by_cases hone : (b.ordersOf lvl).length = 1
      · rw [hemptied.topLeft s hs hone, h.top s hs]
        rw [h.top s hs] at hbest
        cases hladder : ladders s with
        | nil => rfl
        | cons best rest =>
          have hne : best ≠ lvl := by
            rintro rfl
            rw [hladder] at hbest
            exact hbest rfl
          rw [List.filter_cons_of_pos (by simpa using hne)]
          rfl
      · exact hemptied.top s hs hone
    · exact ⟨hemptied.price p, (hqty p (h.used_of_top hs hp).1 fun he => hbest (he ▸ hp)).2⟩
  · have htop := (hemptied.top s hs hmore).trans hbest
    have hused := (hemptied.used lvl).mpr ⟨hlvl.1, fun hone => absurd hone hmore⟩
    have hsum := levelQty_removeOrder h ho hrun hpool hused hlvl.1 (hemptied.price lvl)
    rw [if_pos hget] at hsum
    simpa only [bestOffer, htop] using hsum
  · have htop := hemptied.topLeft s hs hone
    rw [h.top s hs] at hbest
    obtain ⟨rest, hladder⟩ : ∃ rest, ladders s = lvl :: rest := List.head?_eq_some_iff.mp hbest
    have hd := h.nodup s hs
    rw [hladder] at htop hd
    have hfilter : (lvl :: rest).filter (fun q => q ≠ lvl) = rest := by
      rw [List.filter_cons_of_neg (by simp)]
      apply List.filter_eq_self.mpr
      intro q hq
      have hne : q ≠ lvl := fun he => (List.nodup_cons.mp hd).1 (he ▸ hq)
      simpa using hne
    rw [hfilter] at htop
    rw [hladder, List.tail_cons]
    cases rest with
    | nil => simp only [bestOffer, htop, List.head?_nil]
    | cons next rest =>
      have hnext : next ≠ lvl := fun he => (List.nodup_cons.mp hd).1 (he ▸ List.mem_cons_self)
      have hused := ((h.mem s hs next).mp (by rw [hladder]; simp)).1
      simp only [bestOffer, htop, List.head?_cons, hemptied.price, (hqty next hused hnext).2]

end Offers

section Step
variable {live' : List MEMarketUpdate} {T T' : MarketOrderBook} {calls : List EngineCall}

/-- What a side shows after an update. -/
lemma Following.shown (h' : Following live' T'.book) (htype : u.type ≠ .trade)
    (hrun : T.onMarketUpdate u = .ok (T', calls)) (hs : s.Trading) :
    T'.bbo.side s = if bestUpdated T.book s u then ((bestOffer T'.book s).1, wrap32 (bestOffer T'.book s).2)
      else T.bbo.side s := by
  obtain ⟨rings, ladders, hintact⟩ := h'.intact
  simp only [onMarketUpdate, if_neg htype] at hrun
  obtain ⟨book, -, hrun⟩ := bind_eq_ok hrun
  obtain ⟨bbo, hbbo, hrun⟩ := bind_eq_ok hrun
  obtain ⟨_, -, hrun⟩ := bind_eq_ok hrun
  cases hrun
  exact updateBBO_shown hbbo hs (bestOf_eq hintact h'.qty hs)

/-- A side whose offer stays as it was goes on to show it, read again or not. -/
lemma shown_kept (hshown : T'.bbo.side s = if bestUpdated T.book s u
      then ((bestOffer T'.book s).1, wrap32 (bestOffer T'.book s).2) else T.bbo.side s)
    (htyped : (T.bbo.side s).2 < 4294967296) (hcurrent : T.bbo.side s = bestOffer T.book s)
    (hsame : bestOffer T'.book s = bestOffer T.book s) : T'.bbo.side s = bestOffer T'.book s := by
  rw [hshown, hsame, ← hcurrent]
  split
  · exact Prod.ext rfl (Nat.mod_eq_of_lt htyped)
  · rfl

/-- A side that is read again shows its offer when `Qty` can hold the quantity. -/
lemma shown_again (hshown : T'.bbo.side s = if bestUpdated T.book s u
      then ((bestOffer T'.book s).1, wrap32 (bestOffer T'.book s).2) else T.bbo.side s)
    (hupdated : bestUpdated T.book s u = true) :
    T'.bbo.side s = bestOffer T'.book s ↔ (bestOffer T'.book s).2 < 4294967296 := by
  rw [hshown, if_pos hupdated]
  constructor
  · intro heq
    have hwrap : wrap32 (bestOffer T'.book s).2 = (bestOffer T'.book s).2 := congrArg Prod.snd heq
    rw [← hwrap]
    exact Nat.mod_lt _ (by omega)
  · intro hlt
    exact Prod.ext rfl (Nat.mod_eq_of_lt hlt)

lemma bestUpdated_top {best : Nat} (htop : b.top u.side = some best) (hprice : (b.level best).price ≤ u.price) :
    bestUpdated b u.side u = true := by
  simp [bestUpdated, htop, hprice]

/-- A level of one side is not the top of the other. -/
lemma top_ne_of_side (h : b.Intact rings ladders) (hside : (b.level lvl).side = u.side) (hu : u.side.Trading)
    (hs : s.Trading) (hne : s ≠ u.side) : b.top s ≠ some lvl := by
  intro htop
  have hladder := (h.used_of_top hs htop).2
  rw [hside, hu.ladder_eq] at hladder
  exact hne hladder.symm

/-- Only the side of the update can fall behind. -/
lemma current_iff_side (hu : u.side.Trading) (hother : ∀ s : Side, s.Trading → s ≠ u.side →
    T'.bbo.side s = bestOffer T'.book s) : T'.Current ↔ T'.bbo.side u.side = bestOffer T'.book u.side := by
  constructor
  · exact fun h => h u.side hu
  · intro h s hs
    by_cases hsu : s = u.side
    · rw [hsu]
      exact h
    · exact hother s hs hsu

/-- What a new level does to the offer of its side: nothing, or it becomes the offer. -/
abbrev OfferOpened (T T' : MarketOrderBook) (u : MEMarketUpdate) (n : Nat) : Prop :=
  (T'.book.top u.side = T.book.top u.side → bestOffer T'.book u.side = bestOffer T.book u.side) ∧
    (T'.book.top u.side = some n → bestOffer T'.book u.side = (u.price, u.qty))

section Opens
variable {n : Nat} (hintact : T.book.Intact rings ladders) (hside : u.side.Trading) (htype : u.type = .add)
  (hget : T.book.getOrdersAtPrice u.price = none) (hopen : OpenedFor T.book (newOrder u) n (ladders u.side) T'.book)
  (hoffer : OfferOpened T T' u n) (hcurrent : T.bbo.side u.side = bestOffer T.book u.side)
  (hshown : T'.bbo.side u.side = if bestUpdated T.book u.side u
    then ((bestOffer T'.book u.side).1, wrap32 (bestOffer T'.book u.side).2) else T.bbo.side u.side)
include hintact hside htype hget hopen hoffer hcurrent hshown

/-- The first level of a side goes unseen. -/
lemma current_first (hladder : ladders u.side = []) :
    T'.bbo.side u.side = bestOffer T'.book u.side ↔ ¬Outdates T.book u := by
  have hread : T.book.ladder u.side = ladders u.side := by rw [hintact.ladder_eq, hside.ladder_eq]
  have htop : T.book.top u.side = none := by
    rw [hintact.top _ hside, hladder]
    rfl
  have hupdated : bestUpdated T.book u.side u = false := by simp only [bestUpdated, htop]
  rw [hupdated, if_neg (by simp), hcurrent] at hshown
  rw [outdates_first htype hget (hread.trans hladder), hshown, hoffer.2 (hopen.first hladder), not_not]
  simp only [bestOffer, htop, Prod.mk.injEq, eq_comm]

/-- A further level, with the top where it was or moved to the new level. -/
lemma current_further (hqty : u.qty < 4294967296) (htyped : (T.bbo.side u.side).2 < 4294967296) {best : Nat}
    (hbest : (ladders u.side).head? = some best) :
    T'.bbo.side u.side = bestOffer T'.book u.side ↔ ¬Outdates T.book u := by
  have hread : T.book.ladder u.side = ladders u.side := by rw [hintact.ladder_eq, hside.ladder_eq]
  have htop : T.book.top u.side = some best := (hintact.top _ hside).trans hbest
  have hnonempty : T.book.ladder u.side ≠ [] := by
    rw [hread]
    rintro hempty
    simp [hempty] at hbest
  rw [outdates_opens htype hget hnonempty htop, hread]
  have htop' : T'.book.top u.side = if addAfter u.side u.price (T.book.level best).price = true ∧
      ∃ q ∈ ladders u.side, addAfter u.side u.price (T.book.level q).price = false then some n else some best :=
    hopen.top best hbest
  by_cases hpulled : addAfter u.side u.price (T.book.level best).price = true ∧
      ∃ q ∈ ladders u.side, addAfter u.side u.price (T.book.level q).price = false
  · have hoffer' := hoffer.2 (htop'.trans (if_pos hpulled))
    obtain ⟨hworse, q, hq, hbetter⟩ := hpulled
    rcases hside with hbuy | hsell
    · -- a bid below the top is not read again
      have hbelow : u.price < (T.book.level best).price := by simpa [addAfter, hbuy] using hworse
      have habove : (T.book.level q).price ≤ u.price := by simpa [addAfter, hbuy] using hbetter
      have hupdated : bestUpdated T.book u.side u = false := by simp [bestUpdated, htop, hbelow]
      rw [hupdated, if_neg (by simp), hcurrent] at hshown
      have hne : (T.book.level q).price ≠ u.price := by
        intro hprice
        have hqused := ((hintact.mem _ (.inl hbuy) q).mp hq).1
        have hslot := (hintact.filed.level _ q).mpr ⟨hqused, congrArg priceToIndex hprice⟩
        cases hslot.symm.trans hget
      apply iff_of_false
      · intro heq
        rw [hshown, hoffer'] at heq
        simp only [bestOffer, htop, Prod.mk.injEq] at heq
        exact absurd heq.1.symm (Nat.ne_of_lt hbelow)
      · exact not_not.mpr ⟨hbuy, hbelow, q, hq, lt_of_le_of_ne habove hne⟩
    · -- an ask above the top is
      have habove : (T.book.level best).price < u.price := by simpa [addAfter, hsell] using hworse
      rw [shown_again hshown (bestUpdated_top htop habove.le), hoffer']
      exact iff_of_true hqty fun hout => by simp [hsell] at hout
  · have hkept := hoffer.1 ((htop'.trans (if_neg hpulled)).trans htop.symm)
    apply iff_of_true (shown_kept hshown htyped hcurrent hkept)
    rintro ⟨hbuy, hworse, q, hq, hbetter⟩
    apply hpulled
    refine ⟨by simpa [addAfter, hbuy] using hworse, q, hq, ?_⟩
    simpa [addAfter, hbuy] using hbetter.le

end Opens

lemma Following.current_add (h : Following live T.book) (hu : Emits live u) (htype : u.type = .add)
    (hapart : PricesApart (live ++ [u])) (htears : ¬Tears T.book u)
    (htyped : ∀ s : Side, s.Trading → (T.bbo.side s).2 < 4294967296) (hcurrent : T.Current)
    (hrun : T.onMarketUpdate u = .ok (T', calls)) : T'.Current ↔ ¬Outdates T.book u := by
  have htrade : u.type ≠ .trade := by simp [htype]
  have happly := onMarketUpdate_book htrade hrun
  have h' := h.add hu htype hapart htears happly
  have hshown := fun (s : Side) (hs : s.Trading) => h'.shown htrade hrun hs
  simp only [Emits, htype] at hu
  obtain ⟨rings, ladders, hintact⟩ := h.intact
  obtain ⟨_, _, hintact'⟩ := h'.intact
  obtain ⟨pool, o, halloc, hadd⟩ := applyUpdate_add_ok htype happly
  have hside := hapart.trading u (by simp)
  cases hget : T.book.getOrdersAtPrice u.price with
  | some lvl =>
    obtain ⟨hprice, hlvlSide⟩ := h.ownSlot hapart hget
    have hoffer := fun (s : Side) (hs : s.Trading) => offer_joins hintact halloc hadd hintact'.orderPool hget hs
    rw [current_iff_side hside fun s hs hne => shown_kept (hshown s hs) (htyped s hs) (hcurrent s hs)
      ((hoffer s hs).trans (if_neg (top_ne_of_side hintact hlvlSide hside hs hne)))]
    rw [outdates_joins htype hget]
    by_cases htop : T.book.top u.side = some lvl
    · rw [shown_again (hshown _ hside) (bestUpdated_top htop hprice.le), hoffer _ hside, if_pos htop]
      simp [htop]
    · refine iff_of_true (shown_kept (hshown _ hside) (htyped _ hside) (hcurrent _ hside) ?_) fun hout => htop hout.1
      rw [hoffer _ hside, if_neg htop]
  | none =>
    obtain ⟨n, hopen⟩ : ∃ n, OpenedFor T.book (newOrder u) n (ladders u.side) T'.book :=
      hintact.addOrder_opened hside halloc hget hadd
    have hoffer := fun (s : Side) (hs : s.Trading) => offer_opens hintact halloc hadd hintact'.orderPool hget hopen hs
    rw [current_iff_side hside fun s hs hne => shown_kept (hshown s hs) (htyped s hs) (hcurrent s hs)
      ((hoffer s hs).1 (hopen.otherTop s hs hne))]
    cases hladder : ladders u.side with
    | nil => exact current_first hintact hside htype hget hopen (hoffer _ hside) (hcurrent _ hside) (hshown _ hside) hladder
    | cons best rest =>
      have hbest : (ladders u.side).head? = some best := by
        rw [hladder]
        rfl
      exact current_further hintact hside htype hget hopen (hoffer _ hside) (hcurrent _ hside) (hshown _ hside) hu.1
        (htyped _ hside) hbest

/-- The order that a `MODIFY` or a `CANCEL` names, and its level. -/
lemma Following.named (h : Following live b)
    (hu : ∃ x ∈ live, x.orderId = u.orderId ∧ x.side = u.side ∧ x.price = u.price)
    (ho : b.orderTable u.orderId = some o) :
    b.orderPool.Used o ∧ (b.order o).price = u.price ∧ u.side.Trading ∧ ∃ lvl, b.getOrdersAtPrice u.price = some lvl ∧
      (b.level lvl).price = u.price ∧ (b.level lvl).side = u.side := by
  obtain ⟨x, hx, hid, hside, hprice⟩ := hu
  have hox := h.carries.lookup hx hid ho
  obtain ⟨rings, ladders, hintact⟩ := h.intact
  obtain ⟨lvl, hget, -⟩ := hintact.exists_level hox.used
  have hown := h.own o lvl hox.used hget
  rw [hox.price, hprice] at hget hown
  rw [hox.side, hside] at hown
  exact ⟨hox.used, hox.price.trans hprice, hside ▸ h.apart.trading x hx, lvl, hget, hown⟩

lemma Following.current_modify (h : Following live T.book) (hu : Emits live u) (htype : u.type = .modify)
    (h' : Following live' T'.book) (htyped : ∀ s : Side, s.Trading → (T.bbo.side s).2 < 4294967296)
    (hcurrent : T.Current) (hrun : T.onMarketUpdate u = .ok (T', calls)) : T'.Current ↔ ¬Outdates T.book u := by
  have htrade : u.type ≠ .trade := by simp [htype]
  have hshown := fun (s : Side) (hs : s.Trading) => h'.shown htrade hrun hs
  simp only [Emits, htype] at hu
  obtain ⟨rings, ladders, hintact⟩ := h.intact
  obtain ⟨o, ho, hbook⟩ := applyUpdate_modify_ok htype (onMarketUpdate_book htrade hrun)
  obtain ⟨hused, hprice, hside, lvl, hget, hlvlPrice, hlvlSide⟩ := h.named hu.2 ho
  have hget' : T.book.getOrdersAtPrice (T.book.order o).price = some lvl := by rw [hprice]; exact hget
  have hoffer : ∀ s : Side, s.Trading → if T.book.top s = some lvl
      then (bestOffer T'.book s).2 + (T.book.order o).qty = levelQty T.book lvl + u.qty
      else bestOffer T'.book s = bestOffer T.book s := by
    intro s hs
    rw [hbook]
    exact offer_setQty hintact hused u.qty hget' hs
  have hkept : ∀ s : Side, s.Trading → T.book.top s ≠ some lvl → T'.bbo.side s = bestOffer T'.book s := by
    intro s hs hne
    have hsame := hoffer s hs
    rw [if_neg hne] at hsame
    exact shown_kept (hshown s hs) (htyped s hs) (hcurrent s hs) hsame
  rw [current_iff_side hside fun s hs hne => hkept s hs (top_ne_of_side hintact hlvlSide hside hs hne)]
  rw [outdates_modify htype hget ho]
  by_cases htop : T.book.top u.side = some lvl
  · have hsum := hoffer _ hside
    rw [if_pos htop] at hsum
    have hbound : ∀ shown before total qty : Nat, shown + before = total + qty →
        (shown < 4294967296 ↔ ¬4294967296 + before ≤ total + qty) := by
      intro shown before total qty heq
      omega
    rw [shown_again (hshown _ hside) (bestUpdated_top htop hlvlPrice.le), hbound _ _ _ _ hsum]
    simp only [htop, true_and]
  · exact iff_of_true (hkept _ hside htop) fun hout => htop hout.1

lemma Following.current_cancel (h : Following live T.book) (hu : Emits live u) (htype : u.type = .cancel)
    (h' : Following live' T'.book) (htyped : ∀ s : Side, s.Trading → (T.bbo.side s).2 < 4294967296)
    (hcurrent : T.Current) (hrun : T.onMarketUpdate u = .ok (T', calls)) : T'.Current ↔ ¬Outdates T.book u := by
  have htrade : u.type ≠ .trade := by simp [htype]
  have hshown := fun (s : Side) (hs : s.Trading) => h'.shown htrade hrun hs
  simp only [Emits, htype] at hu
  obtain ⟨rings, ladders, hintact⟩ := h.intact
  obtain ⟨_, _, hintact'⟩ := h'.intact
  obtain ⟨o, ho, hremove⟩ := applyUpdate_cancel_ok htype (onMarketUpdate_book htrade hrun)
  obtain ⟨hused, hprice, hside, lvl, hget, hlvlPrice, hlvlSide⟩ := h.named hu ho
  have hget' : T.book.getOrdersAtPrice (T.book.order o).price = some lvl := by rw [hprice]; exact hget
  have hoffer := fun (s : Side) (hs : s.Trading) =>
    offer_removeOrder hintact hused hremove hintact'.orderPool hget' hs
  have hkept : ∀ s : Side, s.Trading → T.book.top s ≠ some lvl → T'.bbo.side s = bestOffer T'.book s :=
    fun s hs hne => shown_kept (hshown s hs) (htyped s hs) (hcurrent s hs) ((hoffer s hs).1 hne)
  rw [current_iff_side hside fun s hs hne => hkept s hs (top_ne_of_side hintact hlvlSide hside hs hne)]
  rw [outdates_cancel htype hget, hintact.ladder_eq, hside.ladder_eq]
  have hhead := hintact.top _ hside
  by_cases htop : T.book.top u.side = some lvl
  · rw [shown_again (hshown _ hside) (bestUpdated_top htop hlvlPrice.le)]
    by_cases hone : (T.book.ordersOf lvl).length = 1
    · obtain ⟨rest, hladder⟩ : ∃ rest, ladders u.side = lvl :: rest :=
        List.head?_eq_some_iff.mp (hhead.symm.trans htop)
      rw [(hoffer _ hside).2.2 htop hone, hladder, List.tail_cons]
      cases rest with
      | nil => simp [Qty_INVALID]
      | cons next rest => simp [hone, htop]
    · have hsum := (hoffer _ hside).2.1 htop hone
      have hbefore := htyped _ hside
      rw [hcurrent _ hside] at hbefore
      simp only [bestOffer, htop] at hbefore
      exact iff_of_true (lt_of_le_of_lt (Nat.le.intro hsum) hbefore) fun hout => hone hout.2.1
  · exact iff_of_true (hkept _ hside htop) fun hout => htop hout.1

/-- Where both sides show what their tops give, an update leaves them so unless it outdates them. -/
theorem Following.current_iff (h : Following live T.book) (hu : Emits live u) (hapart : PricesApart (seeUpdate live u))
    (htears : ¬Tears T.book u) (htyped : ∀ s : Side, s.Trading → (T.bbo.side s).2 < 4294967296)
    (hcurrent : T.Current) (hrun : T.onMarketUpdate u = .ok (T', calls)) : T'.Current ↔ ¬Outdates T.book u := by
  have hnext : u.type ≠ .trade → Following (seeUpdate live u) T'.book := fun htrade =>
    h.next hu hapart htears (onMarketUpdate_book htrade hrun)
  cases htype : u.type with
  | add =>
    simp only [seeUpdate, htype] at hapart
    exact h.current_add hu htype hapart htears htyped hcurrent hrun
  | modify => exact h.current_modify hu htype (hnext (by simp [htype])) htyped hcurrent hrun
  | cancel => exact h.current_cancel hu htype (hnext (by simp [htype])) htyped hcurrent hrun
  | trade =>
    obtain ⟨rfl, -⟩ : T = T' ∧ _ := by simpa [onMarketUpdate, htype] using hrun
    exact iff_of_true hcurrent (outdates_trade htype)
  | _ => simp only [Emits, htype] at hu

/-- What is shown of a side fits `Qty`. -/
lemma Following.shown_lt (h : Following live T.book) (hu : Emits live u) (hapart : PricesApart (seeUpdate live u))
    (htears : ¬Tears T.book u) (htyped : ∀ s : Side, s.Trading → (T.bbo.side s).2 < 4294967296)
    (hrun : T.onMarketUpdate u = .ok (T', calls)) (hs : s.Trading) : (T'.bbo.side s).2 < 4294967296 := by
  by_cases htrade : u.type = .trade
  · obtain ⟨rfl, -⟩ : T = T' ∧ _ := by simpa [onMarketUpdate, htrade] using hrun
    exact htyped s hs
  · have h' := h.next hu hapart htears (onMarketUpdate_book htrade hrun)
    rw [h'.shown htrade hrun hs]
    split
    · exact Nat.mod_lt _ (by omega)
    · exact htyped s hs

lemma Following.next_book (h : Following live T.book) (hu : Emits live u) (hapart : PricesApart (seeUpdate live u))
    (htears : ¬Tears T.book u) (hrun : T.onMarketUpdate u = .ok (T', calls)) :
    Following (seeUpdate live u) T'.book := by
  by_cases htrade : u.type = .trade
  · obtain ⟨rfl, -⟩ : T = T' ∧ _ := by simpa [onMarketUpdate, htrade] using hrun
    simpa only [seeUpdate, htrade] using h
  · exact h.next hu hapart htears (onMarketUpdate_book htrade hrun)

/-- What the book and the cache are after a run that tears no ladder. -/
lemma Following.after {us : List MEMarketUpdate} (h : Following live T.book) (hus : Emitted live us)
    (htears : Never onMarketUpdate T us fun T u => Tears T.book u)
    (htyped : ∀ s : Side, s.Trading → (T.bbo.side s).2 < 4294967296) (hrun : execute onMarketUpdate T us = .ok (T', calls)) :
    Following (liveAfter live us) T'.book ∧ ∀ s : Side, s.Trading → (T'.bbo.side s).2 < 4294967296 := by
  induction us generalizing T live calls with
  | nil =>
    cases hrun
    exact ⟨h, htyped⟩
  | cons u us ih =>
    obtain ⟨T₁, calls₁, calls₂, hstep, hrest, -⟩ := execute_cons_ok hrun
    obtain ⟨hfirst, hlater⟩ := (never_cons_iff hstep).mp htears
    exact ih (h.next_book hus.1 hus.2.1 hfirst hstep) hus.2.2 hlater
      (fun s hs => h.shown_lt hus.1 hus.2.1 hfirst htyped hstep hs) hrest

theorem Following.always_current_iff {us : List MEMarketUpdate} (h : Following live T.book) (hus : Emitted live us)
    (htears : Never onMarketUpdate T us fun T u => Tears T.book u)
    (htyped : ∀ s : Side, s.Trading → (T.bbo.side s).2 < 4294967296) (hcurrent : T.Current)
    (hrun : execute onMarketUpdate T us = .ok (T', calls)) :
    Always onMarketUpdate T us Current ↔ Never onMarketUpdate T us fun T u => Outdates T.book u := by
  induction us generalizing T live calls with
  | nil => exact iff_of_true (always_nil.mpr hcurrent) never_nil
  | cons u us ih =>
    obtain ⟨T₁, calls₁, calls₂, hstep, hrest, -⟩ := execute_cons_ok hrun
    obtain ⟨hfirst, hlater⟩ := (never_cons_iff hstep).mp htears
    have hone := h.current_iff hus.1 hus.2.1 hfirst htyped hcurrent hstep
    rw [always_cons_iff hstep, never_cons_iff hstep, ← hone]
    constructor
    · rintro ⟨-, halways⟩
      have hnext : T₁.Current := halways [] T₁ [] List.nil_prefix rfl
      exact ⟨hnext, (ih (h.next_book hus.1 hus.2.1 hfirst hstep) hus.2.2 hlater
        (fun s hs => h.shown_lt hus.1 hus.2.1 hfirst htyped hstep hs) hnext hrest).mp halways⟩
    · rintro ⟨hnext, hnever⟩
      exact ⟨hcurrent, (ih (h.next_book hus.1 hus.2.1 hfirst hstep) hus.2.2 hlater
        (fun s hs => h.shown_lt hus.1 hus.2.1 hfirst htyped hstep hs) hnext hrest).mpr hnever⟩

end Step

lemma typed_create (tickerId : TickerId) : ∀ s : Side, s.Trading → ((create tickerId).bbo.side s).2 < 4294967296 := by
  rintro s (rfl | rfl)
  · exact (by decide : Qty_INVALID < 4294967296)
  · exact (by decide : Qty_INVALID < 4294967296)

/-- From any moment of a run at which the cache is right, as it is of a fresh book, it stays right after
every call exactly as long as no update outdates it. The run tears no ladder. -/
theorem best_prices_current {tickerId : TickerId} {before us : List MEMarketUpdate} {T T' : MarketOrderBook}
    {calls calls' : List EngineCall} (hstream : Emitted [] (before ++ us))
    (htears : Never onMarketUpdate (create tickerId) (before ++ us) fun T u => Tears T.book u)
    (hbefore : execute onMarketUpdate (create tickerId) before = .ok (T, calls))
    (hrun : execute onMarketUpdate T us = .ok (T', calls')) (hcurrent : T.Current) :
    Always onMarketUpdate T us Current ↔ Never onMarketUpdate T us fun T u => Outdates T.book u := by
  obtain ⟨hfirst, hrest⟩ := emitted_append.mp hstream
  obtain ⟨hfollowing, htyped'⟩ := (following_create tickerId).after hfirst htears.before (typed_create tickerId) hbefore
  exact hfollowing.always_current_iff hrest (htears.later hbefore) htyped' hcurrent hrun

def quote (orderId : OrderId) (side : Side) (price : Price) (qty : Qty) : MEMarketUpdate :=
  { type := .add, orderId := orderId, tickerId := 0, side := side, price := price, qty := qty, priority := 1 }

/-- Two orders open each side, and the second of them brings the cache up to date. -/
def twoSided : List MEMarketUpdate :=
  [quote 1 .buy 100 10, quote 2 .buy 100 20, quote 3 .sell 105 10, quote 4 .sell 105 10]

/-- A new level, a change at the top, a trade and the end of the top level. -/
def quotesMove : List MEMarketUpdate :=
  [quote 5 .buy 98 7, { quote 1 .buy 100 4 with type := .modify }, { quote 1 .buy 100 4 with type := .trade },
    { quote 1 .buy 100 4 with type := .cancel }, { quote 2 .buy 100 20 with type := .cancel }]

theorem best_prices_current_quotes : ∃ T calls,
    execute onMarketUpdate (create 0) twoSided = .ok (T, calls) ∧ Always onMarketUpdate T quotesMove Current ∧
      ends onMarketUpdate T quotesMove (fun T _ => T.bbo = ⟨98, 105, 7, 20⟩) = true := by
  have htears : Never onMarketUpdate (create 0) (twoSided ++ quotesMove) fun T u => Tears T.book u :=
    never_of_avoids (by decide +kernel)
  obtain ⟨T, calls, hbefore, hcurrent, hnever, hends⟩ := exists_of_ends onMarketUpdate (create 0) twoSided
    (fun T _ => T.Current ∧ avoids onMarketUpdate (fun T u => decide (Outdates T.book u)) T quotesMove = true ∧
      ends onMarketUpdate T quotesMove (fun T _ => T.bbo = ⟨98, 105, 7, 20⟩) = true) (by decide +kernel)
  obtain ⟨T', calls', hrun, -⟩ := exists_of_ends _ _ _ _ hends
  exact ⟨T, calls, hbefore, (best_prices_current (by decide) htears hbefore hrun hcurrent).mpr
    (never_of_avoids hnever), hends⟩

/-- A bid between two levels, after the best of them was shown. -/
def betweenBids : List MEMarketUpdate :=
  [quote 1 .buy 100 10, quote 2 .buy 100 20, quote 3 .buy 98 10, quote 4 .buy 99 10]

/-- The first bid of a fresh book goes unseen. A bid between two levels moves the top pointer, and
the old best price goes on being shown. -/
theorem best_prices_current_fails :
    (Emitted [] [quote 1 .buy 100 10] ∧ ∃ T calls, execute onMarketUpdate (create 0) [quote 1 .buy 100 10] = .ok (T, calls) ∧
      T.bbo.side .buy = (Price_INVALID, Qty_INVALID) ∧ bestOffer T.book .buy = (100, 10) ∧ ¬T.Current) ∧
    Emitted [] betweenBids ∧ ∃ T calls, execute onMarketUpdate (create 0) betweenBids = .ok (T, calls) ∧
      T.bbo.side .buy = (100, 30) ∧ bestOffer T.book .buy = (99, 10) ∧ ¬T.Current := by
  refine ⟨⟨by decide, ?_⟩, by decide, ?_⟩
  · apply exists_of_ends onMarketUpdate (create 0) [quote 1 .buy 100 10]
      (fun T _ => T.bbo.side .buy = (Price_INVALID, Qty_INVALID) ∧ bestOffer T.book .buy = (100, 10) ∧ ¬T.Current)
    decide +kernel
  · apply exists_of_ends onMarketUpdate (create 0) betweenBids
      (fun T _ => T.bbo.side .buy = (100, 30) ∧ bestOffer T.book .buy = (99, 10) ∧ ¬T.Current)
    decide +kernel

end MarketOrderBook
end LowLatencyExchange
