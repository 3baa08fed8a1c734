import LowLatencyExchange.Trading.AsFresh
import LowLatencyExchange.Trading.BestOffer

/-!
# `CLEAR`

The loops that free a ladder never advance, so they free its second level twice. Where no ladder has a
second level, `CLEAR` gives every block back, but the table of price levels goes on pointing at them, and
the cached best prices stay unless the update happens to be at the top of their side.
-/

namespace LowLatencyExchange
open CircularList PriceBook LoggedRun Simulation
namespace MarketOrderBook
variable {b : MarketBook} {T T' : MarketOrderBook} {u : MEMarketUpdate} {s : Side}
  {rings : Nat → List Nat} {ladders : Side → List Nat}

/-- Every live order is in the table, under its id. -/
def AllNamed (b : MarketBook) : Prop :=
  ∀ o, b.orderPool.Used o → b.orderTable (b.order o).ids.orderId = some o

/-- What a fresh book has in common with every empty one. -/
structure LikeFresh (T : MarketOrderBook) : Prop where
  bidsByPrice : T.book.bidsByPrice = none
  asksByPrice : T.book.asksByPrice = none
  priceOrdersAtPrice : ∀ i, T.book.priceOrdersAtPrice i = none
  orderTable : ∀ id, T.book.orderTable id = none
  levels : ∀ p, ¬T.book.ordersAtPricePool.Used p
  orders : ∀ o, ¬T.book.orderPool.Used o
  bbo : ∀ s : Side, s.Trading → T.bbo.side s = (Price_INVALID, Qty_INVALID)

section Orders

/-- The orders whose ids the loop has come past are free, the others are as before. -/
structure Freed (b : MarketBook) (n : Nat) (pool : MemPool MarketOrder) : Prop where
  used : ∀ o, pool.Used o ↔ b.orderPool.Used o ∧ n ≤ (b.order o).ids.orderId
  sound : pool.Sound
  size : pool.size = b.orderPool.size

lemma Freed.next {n : Nat} {pool : MemPool MarketOrder} (h : Freed b n pool)
    (hintact : b.Intact rings ladders) (hnamed : AllNamed b) :
    ∃ pool', (match b.orderTable n with
      | some order => pool.deallocate order
      | none => pure pool) = .ok pool' ∧ Freed b (n + 1) pool' := by
  cases hn : b.orderTable n with
  | none =>
    refine ⟨pool, rfl, ⟨fun o => ?_, h.sound, h.size⟩⟩
    rw [h.used]
    constructor
    · rintro ⟨ho, hle⟩
      refine ⟨ho, lt_of_le_of_ne hle fun he => ?_⟩
      have hname := hnamed o ho
      rw [← he, hn] at hname
      cases hname
    · rintro ⟨ho, hle⟩
      exact ⟨ho, Nat.le_of_succ_le hle⟩
  | some q =>
    obtain ⟨hq, hid⟩ := hintact.table n q hn
    have hid' : (b.order q).ids.orderId = n := hid
    have hqused : pool.Used q := (h.used q).mpr ⟨hq, hid'.ge⟩
    refine ⟨pool.release q, MemPool.deallocate_spec h.sound hqused, ⟨fun o => ?_, h.sound.release q, h.size⟩⟩
    rw [MemPool.used_release, h.used]
    constructor
    · rintro ⟨hne, ho, hle⟩
      refine ⟨ho, lt_of_le_of_ne hle fun he => hne ?_⟩
      have hname := hnamed o ho
      rw [← he, hn] at hname
      exact (Option.some.inj hname).symm
    · rintro ⟨ho, hle⟩
      refine ⟨?_, ho, Nat.le_of_succ_le hle⟩
      rintro rfl
      exact absurd hid' (Nat.ne_of_gt hle)

lemma clearOrders_loop (hintact : b.Intact rings ladders) (hnamed : AllNamed b) (n : Nat) :
    ∃ pool, (List.range n).foldlM (fun pool orderId =>
      match b.orderTable orderId with
      | some order => pool.deallocate order
      | none => pure pool) b.orderPool = .ok pool ∧ Freed b n pool := by
  induction n with
  | zero => exact ⟨b.orderPool, rfl, ⟨fun o => by simp, hintact.orderPool, rfl⟩⟩
  | succ n ih =>
    obtain ⟨pool, hpool, hfreed⟩ := ih
    obtain ⟨pool', hnext, hfreed'⟩ := hfreed.next hintact hnamed
    refine ⟨pool', ?_, hfreed'⟩
    rw [List.range_succ, List.foldlM_append, hpool, ok_bind, List.foldlM_cons, hnext, ok_bind, List.foldlM_nil,
      pure_eq_ok]

/-- Every order is given back, once. -/
lemma clearOrders_eq (hintact : b.Intact rings ladders) (hnamed : AllNamed b) :
    ∃ pool, clearOrders b = .ok { b with orderPool := pool, orderTable := fun _ => none } ∧
      (∀ o, ¬pool.Used o) ∧ pool.Sound ∧ pool.size = b.orderPool.size := by
  obtain ⟨pool, hpool, hfreed⟩ := clearOrders_loop hintact hnamed ME_MAX_ORDER_IDS
  refine ⟨pool, ?_, fun o ho => ?_, hfreed.sound, hfreed.size⟩
  · exact congrArg (fun r : Except Fault (MemPool MarketOrder) =>
      r >>= fun pool => pure ({ b with orderPool := pool, orderTable := fun _ => none } : MarketBook)) hpool
  · obtain ⟨hused, hle⟩ := (hfreed.used o).mp ho
    have hlt : (b.order o).ids.orderId < ME_MAX_ORDER_IDS := of_decide_eq_true (hintact.inTable o hused)
    exact absurd hlt (not_lt.mpr hle)

end Orders

section Levels
variable {l : List Nat}

/-- The levels of one side, read from its top. -/
structure LadderAt (b : MarketBook) (s : Side) (l : List Nat) : Prop where
  ring : Ring (fun p => (b.level p).nextEntry) (fun p => (b.level p).prevEntry) l
  top : b.top s = l.head?
  nodup : l.Nodup
  used : ∀ p ∈ l, b.ordersAtPricePool.Used p

/-- A ladder of one level at most is freed. -/
lemma LadderAt.clearLevels_ok (h : LadderAt b s l) (hsound : b.ordersAtPricePool.Sound) (hlen : l.length ≤ 1) :
    ∃ pool, clearLevels b s = .ok (b.setLevelPool pool) ∧ pool.Sound ∧ pool.size = b.ordersAtPricePool.size ∧
      (∀ p, pool.Used p ↔ p ∉ l ∧ b.ordersAtPricePool.Used p) ∧
      ∀ p, pool.object p = b.ordersAtPricePool.object p := by
  match l with
  | [] =>
    have hnone : b.top s = none := h.top
    refine ⟨b.ordersAtPricePool, ?_, hsound, rfl, by simp, fun p => rfl⟩
    simp only [clearLevels, hnone]
    rfl
  | [p] =>
    have hsome : b.top s = some p := h.top
    have hnext : (b.level p).nextEntry = some p := h.ring.next_first
    have hp := h.used p List.mem_cons_self
    refine ⟨b.ordersAtPricePool.release p, ?_, hsound.release p, rfl, fun q => ?_, MemPool.object_release _ _⟩
    · simp only [clearLevels, hsome, hnext, clearLevelsLoop, if_true, pure_eq_ok, ok_bind,
        MemPool.deallocate_spec hsound hp]
    · rw [MemPool.used_release, List.mem_singleton]
  | p :: q :: rest => simp at hlen

/-- The second level of a ladder is freed twice. -/
lemma LadderAt.clearLevels_error {p q : Nat} {rest : List Nat} (h : LadderAt b s (p :: q :: rest))
    (hsound : b.ordersAtPricePool.Sound) :
    clearLevels b s = .error (.assert ("Expected in-use ObjectBlock at index:" ++ toString q)) := by
  have htop : b.top s = some p := h.top
  have hnext : (b.level p).nextEntry = some q := h.ring.next_first
  have hq : b.ordersAtPricePool.Used q := h.used q (by simp)
  have hlt := hsound.used_lt q hq
  have hne : q ≠ p := by
    rintro rfl
    exact (List.nodup_cons.mp h.nodup).1 List.mem_cons_self
  obtain ⟨n, hn⟩ : ∃ n, b.ordersAtPricePool.size = n + 1 := Nat.exists_eq_add_one.mpr (Nat.zero_lt_of_lt hlt)
  have htwice : (b.ordersAtPricePool.release q).deallocate q =
      .error (.assert ("Expected in-use ObjectBlock at index:" ++ toString q)) := by
    simp [MemPool.deallocate, MemPool.release, hlt, assertThat]
  simp only [clearLevels, htop, hnext, hn, clearLevelsLoop, if_neg hne, MemPool.deallocate_spec hsound hq, ok_bind,
    htwice, error_bind]

lemma length_le_one_or (l : List Nat) : l.length ≤ 1 ∨ ∃ p q rest, l = p :: q :: rest := by
  match l with
  | [] => exact .inl (by simp)
  | [p] => exact .inl (by simp)
  | p :: q :: rest => exact .inr ⟨p, q, rest, rfl⟩

end Levels

section Book

/-- Every live level is in one of the two ladders, and in one only. -/
lemma exists_ladder (h : b.Intact rings ladders) {p : Nat} (hp : b.ordersAtPricePool.Used p) :
    p ∈ ladders .buy ∨ p ∈ ladders .sell := by
  have hmem := (h.mem _ (Side.trading_ladder _) p).mpr ⟨hp, rfl⟩
  rcases Side.trading_ladder (b.level p).side with hside | hside
  · exact .inl (hside ▸ hmem)
  · exact .inr (hside ▸ hmem)

lemma not_mem_bids (h : b.Intact rings ladders) {p : Nat} (hp : p ∈ ladders .sell) : p ∉ ladders .buy := by
  intro hbuy
  have hside := ((h.mem .buy (by simp) p).mp hbuy).2
  rw [((h.mem .sell (by simp) p).mp hp).2] at hside
  cases hside

/-- What `CLEAR` leaves of a book whose ladders have one level at most. -/
structure ClearedTo (b b' : MarketBook) : Prop where
  bidsByPrice : b'.bidsByPrice = none
  asksByPrice : b'.asksByPrice = none
  priceOrdersAtPrice : b'.priceOrdersAtPrice = b.priceOrdersAtPrice
  orderTable : ∀ id, b'.orderTable id = none
  levels : ∀ p, ¬b'.ordersAtPricePool.Used p
  orders : ∀ o, ¬b'.orderPool.Used o
  levelPool : b'.ordersAtPricePool.Sound ∧ b'.ordersAtPricePool.size = b.ordersAtPricePool.size
  orderPool : b'.orderPool.Sound ∧ b'.orderPool.size = b.orderPool.size

/-- The `switch` on `CLEAR`: all blocks are given back, or the second level of a ladder stops it. -/
theorem applyUpdate_clear (h : b.Intact rings ladders) (hnamed : AllNamed b) (htype : u.type = .clear) :
    ((ladders .buy).length ≤ 1 ∧ (ladders .sell).length ≤ 1 ∧ ∃ b', applyUpdate b u = .ok b' ∧ ClearedTo b b') ∨
    ∃ s p q rest, s.Trading ∧ ladders s = p :: q :: rest ∧
      applyUpdate b u = .error (.assert ("Expected in-use ObjectBlock at index:" ++ toString q)) := by
  have hbuy : Side.Trading .buy := by simp
  have hsell : Side.Trading .sell := by simp
  obtain ⟨orderPool, horders, hnoOrder, horderSound, horderSize⟩ := clearOrders_eq h hnamed
  have hladder : ∀ s : Side, s.Trading →
      LadderAt { b with orderPool := orderPool, orderTable := fun _ => none } s (ladders s) := fun s hs =>
    ⟨h.ring s hs, h.top s hs, h.nodup s hs, fun p hp => ((h.mem s hs p).mp hp).1⟩
  simp only [applyUpdate, htype, horders, ok_bind]
  rcases length_le_one_or (ladders .buy) with hbids | ⟨p, q, rest, hbids⟩
  · obtain ⟨bidPool, hclearBids, hbidSound, hbidSize, hbidUsed, hbidObject⟩ :=
      (hladder _ hbuy).clearLevels_ok h.levelPool hbids
    have hasks : LadderAt (({ b with orderPool := orderPool, orderTable := fun _ => none } : MarketBook).setLevelPool
        bidPool) .sell (ladders .sell) := by
      refine ⟨?_, h.top _ hsell, h.nodup _ hsell, fun p hp => ?_⟩
      · apply (h.ring _ hsell).congr
        · exact fun p _ => congrArg OrdersAtPrice.nextEntry (hbidObject p)
        · exact fun p _ => congrArg OrdersAtPrice.prevEntry (hbidObject p)
      · exact (hbidUsed p).mpr ⟨not_mem_bids h hp, (hladder _ hsell).used p hp⟩
    rw [hclearBids, ok_bind]
    rcases length_le_one_or (ladders .sell) with hlen | ⟨p, q, rest, hlen⟩
    · obtain ⟨askPool, hclearAsks, haskSound, haskSize, haskUsed, -⟩ := hasks.clearLevels_ok hbidSound hlen
      rw [hclearAsks]
      refine .inl ⟨hbids, hlen, _, rfl, ⟨rfl, rfl, rfl, fun _ => rfl, fun p hp => ?_, hnoOrder,
        ⟨haskSound, haskSize.trans hbidSize⟩, horderSound, horderSize⟩⟩
      obtain ⟨hnotAsk, hp⟩ := (haskUsed p).mp hp
      obtain ⟨hnotBid, hp⟩ := (hbidUsed p).mp hp
      exact (exists_ladder h hp).elim hnotBid hnotAsk
    · rw [hlen] at hasks
      exact .inr ⟨.sell, p, q, rest, hsell, hlen, by rw [hasks.clearLevels_error hbidSound, error_bind]⟩
  · have hfirst := hladder _ hbuy
    rw [hbids] at hfirst
    exact .inr ⟨.buy, p, q, rest, hbuy, hbids, by rw [hfirst.clearLevels_error h.levelPool, error_bind]⟩

lemma bestOf_none (htop : b.top s = none) : bestOf b s = .ok (Price_INVALID, Qty_INVALID) := by
  simp only [bestOf, htop, pure_eq_ok]

/-- The whole call on `CLEAR`. -/
theorem onMarketUpdate_clear (h : T.book.Intact rings ladders) (hnamed : AllNamed T.book) (htype : u.type = .clear) :
    ((ladders .buy).length ≤ 1 ∧ (ladders .sell).length ≤ 1 ∧ ∃ T' calls, T.onMarketUpdate u = .ok (T', calls) ∧
      ClearedTo T.book T'.book ∧ ∀ s : Side, s.Trading →
        T'.bbo.side s = if bestUpdated T.book s u then (Price_INVALID, Qty_INVALID) else T.bbo.side s) ∨
    ∃ s p q rest, s.Trading ∧ ladders s = p :: q :: rest ∧
      T.onMarketUpdate u = .error (.assert ("Expected in-use ObjectBlock at index:" ++ toString q)) := by
  have htrade : u.type ≠ .trade := by simp [htype]
  rcases applyUpdate_clear h hnamed htype with ⟨hbids, hasks, b', happly, hcleared⟩ | ⟨s, p, q, rest, hs, hlen, herr⟩
  · have hbid : bestOf b' .buy = .ok (Price_INVALID, Qty_INVALID) := bestOf_none hcleared.bidsByPrice
    have hask : bestOf b' .sell = .ok (Price_INVALID, Qty_INVALID) := bestOf_none hcleared.asksByPrice
    obtain ⟨bbo, hbbo⟩ : ∃ bbo, updateBBO b' T.bbo (bestUpdated T.book .buy u) (bestUpdated T.book .sell u) =
        .ok bbo := by
      cases bestUpdated T.book .buy u <;> cases bestUpdated T.book .sell u <;> simp [updateBBO, hbid, hask]
    have hrun : T.onMarketUpdate u =
        .ok ({ T with book := b', bbo := bbo }, [.onOrderBookUpdate u.tickerId u.price u.side]) := by
      simp only [onMarketUpdate, if_neg htrade, happly, ok_bind, hbbo, logUpdate_ok, pure_eq_ok]
    refine .inl ⟨hbids, hasks, _, _, hrun, hcleared, ?_⟩
    rintro s (rfl | rfl)
    · exact updateBBO_shown hbbo (by simp) hbid
    · exact updateBBO_shown hbbo (by simp) hask
  · exact .inr ⟨s, p, q, rest, hs, hlen, by simp only [onMarketUpdate, if_neg htrade, herr, error_bind]⟩

end Book

/-- Every list of updates does to the book what it does to a fresh one: the same calls, the same best
prices and the same levels and orders, on pools that start at other blocks. A list that ends the process
ends it for both, at the same update and with the same fault. -/
def TakesAsFresh (T : MarketOrderBook) : Prop :=
  ∃ k j, ∀ t us, Matches
    (fun fresh cleared => cleared.2 = fresh.2 ∧
      Turned ⟨ME_MAX_PRICE_LEVELS, k⟩ ⟨ME_MAX_ORDER_IDS, j⟩ fresh.1 cleared.1)
    (FaultsTurned ⟨ME_MAX_PRICE_LEVELS, k⟩ ⟨ME_MAX_ORDER_IDS, j⟩)
    (execute onMarketUpdate (create t) us) (execute onMarketUpdate T us)

/-- A pool without blocks in use is a fresh one, moved on to where its next block is. -/
lemma turned_create {A : Type} {p : MemPool A} {n : Nat} (default : A) {R : A → A → Prop} (hp : p.Sound)
    (hsize : p.size = n) (hfree : ∀ i, ¬p.Used i) :
    (MemPool.create default n).Turned ⟨n, p.nextFreeIndex⟩ ∅ R p := by
  have hlt : p.nextFreeIndex < n := hsize ▸ hp.next_lt
  refine ⟨rfl, hsize, ?_, fun i => ?_, fun i hi => ?_, fun i hi => hi.elim⟩
  · change p.nextFreeIndex = if 0 < n then (0 + p.nextFreeIndex) % n else 0
    rw [if_pos (Nat.zero_lt_of_lt hlt), Nat.zero_add, Nat.mod_eq_of_lt hlt]
  · exact Bool.eq_true_of_not_eq_false (hfree _)
  · exact absurd hi (MemPool.not_used_create _ _ _)

lemma LikeFresh.turned (h : LikeFresh T)
    (hlevels : T.book.ordersAtPricePool.Sound ∧ T.book.ordersAtPricePool.size = ME_MAX_PRICE_LEVELS)
    (horders : T.book.orderPool.Sound ∧ T.book.orderPool.size = ME_MAX_ORDER_IDS) (t : TickerId) :
    Turned ⟨ME_MAX_PRICE_LEVELS, T.book.ordersAtPricePool.nextFreeIndex⟩
      ⟨ME_MAX_ORDER_IDS, T.book.orderPool.nextFreeIndex⟩ (create t) T := by
  have htop : ∀ s, T.book.top s = none := by
    intro s
    unfold PriceBook.top
    split
    · exact h.bidsByPrice
    · exact h.asksByPrice
  refine ⟨⟨∅, ∅, turned_create _ hlevels.1 hlevels.2 h.levels, turned_create _ horders.1 horders.2 h.orders,
    fun s => ?_, fun i => ?_, fun id => ?_⟩, ?_⟩
  · have hnone : (create t).book.top s = none := by
      unfold PriceBook.top
      split <;> rfl
    rw [hnone, htop s]
    exact .none
  · rw [h.priceOrdersAtPrice i]
    exact .none
  · rw [h.orderTable id]
    exact .none
  · have hbuy := h.bbo .buy (by simp)
    have hsell := h.bbo .sell (by simp)
    cases hbbo : T.bbo
    simp only [BBO.side, hbbo] at hbuy hsell
    simp_all [create]

lemma LikeFresh.takesAsFresh (h : LikeFresh T)
    (hlevels : T.book.ordersAtPricePool.Sound ∧ T.book.ordersAtPricePool.size = ME_MAX_PRICE_LEVELS)
    (horders : T.book.orderPool.Sound ∧ T.book.orderPool.size = ME_MAX_ORDER_IDS) : TakesAsFresh T :=
  ⟨_, _, fun t us => (h.turned hlevels horders t).execute us⟩

/-- `CLEAR` ends the process as soon as a side has two levels. It leaves a book like a fresh one only
where there is nothing to clear. -/
theorem clear_resets_iff (h : T.book.Intact rings ladders) (hnamed : AllNamed T.book)
    (hlevels : T.book.ordersAtPricePool.size = ME_MAX_PRICE_LEVELS) (horders : T.book.orderPool.size = ME_MAX_ORDER_IDS)
    (htype : u.type = .clear) :
    ((∃ T' calls, T.onMarketUpdate u = .ok (T', calls)) ↔ ∀ s : Side, s.Trading → (ladders s).length ≤ 1) ∧
    ((∃ T' calls, T.onMarketUpdate u = .ok (T', calls) ∧ T'.LikeFresh ∧ T'.TakesAsFresh) ↔
      ∀ s : Side, s.Trading → ladders s = [] ∧ T.bbo.side s = (Price_INVALID, Qty_INVALID)) := by
  rcases onMarketUpdate_clear h hnamed htype with ⟨hbids, hasks, T', calls, hrun, hcleared, hbbo⟩ |
    ⟨s, p, q, rest, hs, hlen, herr⟩
  · refine ⟨iff_of_true ⟨T', calls, hrun⟩ ?_, fun hfresh s hs => ?_, fun hempty => ⟨T', calls, hrun, ?_⟩⟩
    · rintro s (rfl | rfl)
      · exact hbids
      · exact hasks
    · obtain ⟨T₁, calls₁, hrun₁, hlike, -⟩ := hfresh
      obtain ⟨rfl, -⟩ : T' = T₁ ∧ calls = calls₁ := by simpa using hrun.symm.trans hrun₁
      have hnil : ladders s = [] := by
        apply List.eq_nil_iff_forall_not_mem.mpr
        intro p hp
        have hslot := (h.filed.level _ p).mpr ⟨((h.mem s hs p).mp hp).1, rfl⟩
        rw [← hcleared.priceOrdersAtPrice, hlike.priceOrdersAtPrice] at hslot
        cases hslot
      have hkept := hbbo s hs
      have hnot : bestUpdated T.book s u = false := by
        simp only [bestUpdated, h.top s hs, hnil, List.head?_nil]
      rw [hnot, if_neg (by simp), hlike.bbo s hs] at hkept
      exact ⟨hnil, hkept.symm⟩
    · have hnone : ∀ p, ¬T.book.ordersAtPricePool.Used p := by
        intro p hp
        rcases exists_ladder h hp with hmem | hmem
        · simp [(hempty .buy (by simp)).1] at hmem
        · simp [(hempty .sell (by simp)).1] at hmem
      have hlike : T'.LikeFresh := by
        refine ⟨hcleared.bidsByPrice, hcleared.asksByPrice, fun i => ?_, hcleared.orderTable, hcleared.levels,
          hcleared.orders, fun s hs => ?_⟩
        · rw [hcleared.priceOrdersAtPrice]
          cases hslot : T.book.priceOrdersAtPrice i with
          | none => rfl
          | some p => exact absurd ((h.filed.level i p).mp hslot).1 (hnone p)
        · rw [hbbo s hs, (hempty s hs).2, ite_self]
      exact ⟨hlike, hlike.takesAsFresh ⟨hcleared.levelPool.1, hcleared.levelPool.2.trans hlevels⟩
        ⟨hcleared.orderPool.1, hcleared.orderPool.2.trans horders⟩⟩
  · have hfails : ∀ T' calls, T.onMarketUpdate u ≠ .ok (T', calls) := by
      intro T' calls hrun
      cases herr.symm.trans hrun
    refine ⟨iff_of_false ?_ fun hall => ?_, iff_of_false ?_ fun hempty => ?_⟩
    · rintro ⟨T', calls, hrun⟩
      exact hfails T' calls hrun
    · have hle := hall s hs
      simp [hlen] at hle
    · rintro ⟨T', calls, hrun, -⟩
      exact hfails T' calls hrun
    · have hnil := (hempty s hs).1
      simp [hlen] at hnil

/-- The book that an engine's stream leads to, while no ladder is torn, is one that `CLEAR` may get. -/
lemma cleared_after {us : List MEMarketUpdate} {t : TickerId} {calls : List EngineCall} (hus : Emitted [] us)
    (htears : Never onMarketUpdate (create t) us fun T u => Tears T.book u)
    (hrun : execute onMarketUpdate (create t) us = .ok (T, calls)) :
    (∃ rings ladders, T.book.Intact rings ladders) ∧ AllNamed T.book := by
  have h := ((following_create t).after hus htears (typed_create t) hrun).1
  refine ⟨h.intact, fun o ho => ?_⟩
  obtain ⟨x, -, hox⟩ := h.carries.live o ho
  rw [hox.orderId]
  exact hox.key

def clearUpdate : MEMarketUpdate := { type := .clear }

/-- The only bid was cancelled before, which showed the side as empty. -/
theorem clear_resets_emptied : ∃ T T' calls calls',
    execute onMarketUpdate (create 0) [quote 1 .buy 100 10, { quote 1 .buy 100 10 with type := .cancel }] =
      .ok (T, calls) ∧ T.onMarketUpdate clearUpdate = .ok (T', calls') ∧ T'.LikeFresh := by
  have hrun := exists_of_ends onMarketUpdate (create 0)
    [quote 1 .buy 100 10, { quote 1 .buy 100 10 with type := .cancel }]
    (fun T _ => T.book.ladder .buy = [] ∧ T.book.ladder .sell = [] ∧ T.bbo = {} ∧
      T.book.ordersAtPricePool.size = ME_MAX_PRICE_LEVELS ∧ T.book.orderPool.size = ME_MAX_ORDER_IDS) (by decide +kernel)
  obtain ⟨T, calls, hrun, hbids, hasks, hbbo, hlevels, horders⟩ := hrun
  obtain ⟨hintact, hnamed⟩ := cleared_after (by decide) (never_of_avoids (by decide +kernel)) hrun
  obtain ⟨rings, ladders, hintact⟩ := hintact
  rw [hintact.ladder_eq] at hbids hasks
  obtain ⟨T', calls', hclear, hlike, -⟩ :=
    (clear_resets_iff hintact hnamed hlevels horders (u := clearUpdate) rfl).2.mpr (by
      rintro s (rfl | rfl)
      · exact ⟨hbids, by rw [hbbo]; rfl⟩
      · exact ⟨hasks, by rw [hbbo]; rfl⟩)
  exact ⟨T, T', calls, calls', hrun, hclear, hlike⟩

/-- One bid: the slot of its price goes on pointing at the freed level. Two bids: the process ends. -/
theorem clear_resets_fails :
    (∃ T T' calls calls', execute onMarketUpdate (create 0) [quote 1 .buy 100 10] = .ok (T, calls) ∧
      T.onMarketUpdate clearUpdate = .ok (T', calls') ∧ T'.book.getOrdersAtPrice 100 = some 0 ∧
      ¬T'.book.ordersAtPricePool.Used 0) ∧
    ∃ T calls, execute onMarketUpdate (create 0) [quote 1 .buy 100 10, quote 2 .buy 99 10] = .ok (T, calls) ∧
      T.onMarketUpdate clearUpdate = .error (.assert "Expected in-use ObjectBlock at index:1") := by
  constructor
  · obtain ⟨T, calls, hrun, hbids, hasks, hslot⟩ := exists_of_ends onMarketUpdate (create 0)
      [quote 1 .buy 100 10] (fun T _ => T.book.ladder .buy = [0] ∧ T.book.ladder .sell = [] ∧
        T.book.getOrdersAtPrice 100 = some 0) (by decide +kernel)
    obtain ⟨⟨rings, ladders, hintact⟩, hnamed⟩ := cleared_after (by decide) (never_of_avoids (by decide +kernel)) hrun
    rw [hintact.ladder_eq] at hbids hasks
    rcases onMarketUpdate_clear hintact hnamed (u := clearUpdate) rfl with
      ⟨-, -, T', calls', hclear, hcleared, -⟩ | ⟨s, p, q, rest, rfl | rfl, hladder, -⟩
    · refine ⟨T, T', calls, calls', hrun, hclear, ?_, hcleared.levels 0⟩
      rw [getOrdersAtPrice, hcleared.priceOrdersAtPrice]
      exact hslot
    · cases hbids.symm.trans hladder
    · cases hasks.symm.trans hladder
  · obtain ⟨T, calls, hrun, hbids, hasks⟩ := exists_of_ends onMarketUpdate (create 0)
      [quote 1 .buy 100 10, quote 2 .buy 99 10]
      (fun T _ => T.book.ladder .buy = [0, 1] ∧ T.book.ladder .sell = []) (by decide +kernel)
    obtain ⟨⟨rings, ladders, hintact⟩, hnamed⟩ := cleared_after (by decide) (never_of_avoids (by decide +kernel)) hrun
    rw [hintact.ladder_eq] at hbids hasks
    have hbids' : ladders .buy = [0, 1] := hbids
    rcases onMarketUpdate_clear hintact hnamed (u := clearUpdate) rfl with
      ⟨hlen, -⟩ | ⟨s, p, q, rest, rfl | rfl, hladder, herr⟩
    · simp [hbids'] at hlen
    · obtain ⟨rfl, rfl, rfl⟩ : p = 0 ∧ q = 1 ∧ rest = [] := by simpa [hbids', eq_comm] using hladder
      exact ⟨T, calls, hrun, herr⟩
    · cases hasks.symm.trans hladder

end MarketOrderBook
end LowLatencyExchange
