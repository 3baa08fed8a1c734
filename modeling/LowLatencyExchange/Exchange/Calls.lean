import LowLatencyExchange.Exchange.Matching
import LowLatencyExchange.Book.Kept
import LowLatencyExchange.Book.Place

/-!
# Calls on a well-formed book

The matching loop keeps the book well-formed and ends, a cancel keeps it well-formed, and
the only way an `add` with its identifiers in range can end the process is an exhausted pool.
-/

namespace LowLatencyExchange
open CircularList PriceBook
namespace MEOrderBook
variable {b b' : MEOrderBook} {sh : Shape}

lemma wellFormed_create (tickerId : TickerId) : (create tickerId).book.WellFormed ⟨[], []⟩ :=
  wellFormed_empty (MemPool.sound_create _ (by decide)) (MemPool.sound_create _ (by decide))
    (MemPool.not_used_create _ _) (MemPool.not_used_create _ _)

/-- The top level of a side and its first order. -/
lemma side_of_top (h : b.book.WellFormed sh) {s : Side} (hs : s.Trading) {lvl itr : Nat}
    (htop : b.book.top s = some lvl) (hfirst : (b.book.level lvl).firstOrder = some itr) :
    ∃ os ls, sh.side s = ⟨lvl, itr :: os⟩ :: ls := by
  have hok := h.side s hs
  have hhead := hok.top.symm.trans htop
  cases hls : sh.side s with
  | nil => simp [hls] at hhead
  | cons l ls =>
    obtain ⟨p, os⟩ := l
    obtain rfl : p = lvl := by simpa [hls] using hhead
    have hlevel := hok.level ⟨p, os⟩ (by simp [hls])
    have hitr := hlevel.first.symm.trans hfirst
    cases os with
    | nil => cases hitr
    | cons x os =>
      obtain rfl : x = itr := by simpa using hitr
      exact ⟨os, ls, rfl⟩

lemma top_of_side (h : b.book.WellFormed sh) {s : Side} (hs : s.Trading) {lvl itr : Nat} {os : List Nat}
    {ls : List LevelShape} (hside : sh.side s = ⟨lvl, itr :: os⟩ :: ls) :
    b.book.top s = some lvl ∧ (b.book.level lvl).firstOrder = some itr := by
  have hok := h.side s hs
  refine ⟨by simpa [hside] using hok.top, ?_⟩
  simpa using (hok.level ⟨lvl, itr :: os⟩ (by simp [hside])).first

/-- A fill of the best order of a side keeps the book well-formed. -/
theorem FillsOrder.wellFormed (h : b.book.WellFormed sh) {s : Side} (hs : s.Trading) {itr p : Nat}
    {os : List Nat} {ls : List LevelShape} (hside : sh.side s = ⟨p, itr :: os⟩ :: ls)
    {leavesQty leavesQty' : Qty} (hfill : b.FillsOrder itr leavesQty b' leavesQty') :
    b'.book.WellFormed
      (if (b.book.order itr).qty ≤ leavesQty then sh.dropOrder s [] ls p os else sh) := by
  rcases hfill with ⟨hqty, -, book, hbook, rfl⟩ | ⟨hqty, -, rfl⟩
  · obtain ⟨b₁, hrun, hwf⟩ := removeFirst_spec h hs hside
    obtain rfl : b₁.setQty itr 0 = book := by simpa [removeOrder_setQty hrun] using hbook
    rw [if_pos hqty]
    exact hwf.setQty
  · rw [if_neg (Nat.not_le.mpr hqty)]
    exact h.setQty

lemma matchOrder_returns (a : Aggressor) (h : b.book.WellFormed sh) {s : Side} (hs : s.Trading)
    {itr p : Nat} {os : List Nat} {ls : List LevelShape} (hside : sh.side s = ⟨p, itr :: os⟩ :: ls)
    (leavesQty : Qty) :
    ∃ r, b.matchOrder a.tickerId a.clientId a.side a.clientOrderId a.newMarketOrderId itr leavesQty =
      .ok r := by
  rcases Nat.lt_or_ge leavesQty (b.book.order itr).qty with hqty | hqty
  · exact ⟨_, matchOrder_remainder a hqty⟩
  · obtain ⟨b₁, hrun, -⟩ := removeFirst_spec h hs hside
    exact ⟨_, by rw [matchOrder_full a hqty, removeOrder_setQty hrun, ok_bind, pure_eq_ok]⟩

/-- The rounds of the matching loop are bounded: each takes an order out of the book, or
leaves the aggressor with nothing. -/
lemma checkForMatchLoop_returns (a : Aggressor) (hs : a.side.Trading) (fuel : Nat)
    (h : b.book.WellFormed sh) {leavesQty : Qty}
    (hfuel : sh.orders.length + (if leavesQty = 0 then 0 else 1) < fuel) :
    ∃ r, checkForMatchLoop a.tickerId a.clientId a.side a.price a.clientOrderId a.newMarketOrderId
      fuel b leavesQty = .ok r := by
  induction fuel generalizing b sh leavesQty with
  | zero => omega
  | succ fuel ih =>
    rw [checkForMatchLoop]
    by_cases hleaves : leavesQty = 0
    · exact ⟨_, by rw [if_pos hleaves, pure_eq_ok]⟩
    rw [if_neg hleaves] at hfuel ⊢
    cases hls : sh.side a.side.opposite with
    | nil =>
      have htop := (h.side _ hs.opposite).top
      rw [hls] at htop
      exact ⟨_, by simp only [htop, List.map_nil, List.head?_nil, pure_eq_ok]; rfl⟩
    | cons l ls =>
      obtain ⟨p, os⟩ := l
      have hne := ((h.side _ hs.opposite).level ⟨p, os⟩ (by simp [hls])).nonempty
      obtain ⟨itr, os, rfl⟩ := List.exists_cons_of_ne_nil hne
      obtain ⟨htop, hfirst⟩ := top_of_side h hs.opposite hls
      simp only [htop, hfirst, deref_some, ok_bind]
      by_cases hlimit : limitMissed a.side a.price (b.book.order itr).price = true
      · exact ⟨_, by rw [if_pos hlimit, pure_eq_ok]⟩
      rw [if_neg hlimit]
      obtain ⟨⟨b₁, leaves₁, es⟩, hmatch⟩ := matchOrder_returns a h hs.opposite hls leavesQty
      obtain ⟨hfill, rfl⟩ := matchOrder_cases a hmatch
      have hwf := hfill.wellFormed h hs.opposite hls
      have hrest : ∃ r, checkForMatchLoop a.tickerId a.clientId a.side a.price a.clientOrderId
          a.newMarketOrderId fuel b₁ leaves₁ = .ok r := by
        apply ih hwf
        rcases hfill with ⟨hqty, -, -⟩ | ⟨hqty, rfl, -⟩
        · rw [if_pos hqty]
          have hlen := (Shape.orders_dropFirst_perm hs.opposite hls).length_eq
          rw [List.length_cons] at hlen
          split <;> omega
        · rw [if_neg (Nat.not_le.mpr hqty), if_pos rfl]
          omega
      obtain ⟨r, hr⟩ := hrest
      exact ⟨_, by rw [hmatch, ok_bind, hr, ok_bind, pure_eq_ok]⟩

theorem checkForMatch_returns (a : Aggressor) (hs : a.side.Trading) (h : b.book.WellFormed sh)
    (qty : Qty) : ∃ r, b.checkForMatch a.tickerId a.clientId a.side a.price a.clientOrderId
      a.newMarketOrderId qty = .ok r := by
  unfold checkForMatch
  rw [if_pos hs]
  have hlen : sh.orders.length ≤ b.book.orderPool.size :=
    length_le_of_nodup_of_lt h.ordersNodup fun o ho => h.orderPool.used_lt o ((h.orderUsed o).mpr ho)
  exact checkForMatchLoop_returns a hs _ h (by split <;> omega)

/-- A price worse than one beyond the limit is beyond the limit. -/
lemma limitMissed_of_addAfter {side : Side} (hs : side.Trading) {limit p q : Price}
    (hworse : addAfter side.opposite q p = true) (hp : limitMissed side limit p = true) :
    limitMissed side limit q = true := by
  rcases hs with rfl | rfl
  · have hbeyond : limit < p := by simpa [limitMissed] using hp
    have hprice : p < q := by simpa [addAfter, Side.opposite] using hworse
    simpa [limitMissed] using lt_trans hbeyond hprice
  · have hbeyond : p < limit := by simpa [limitMissed] using hp
    have hprice : q < p := by simpa [addAfter, Side.opposite] using hworse
    simpa [limitMissed] using lt_trans hprice hbeyond

/-- When the loop ends with a remainder, every opposite price is beyond the limit. -/
theorem MatchDone.cleared {a : Aggressor} (hs : a.side.Trading) (h : b.book.WellFormed sh)
    {leavesQty : Qty} (hdone : MatchDone a b leavesQty) (hleaves : leavesQty ≠ 0) :
    ∀ l ∈ sh.side a.side.opposite, limitMissed a.side a.price (b.book.level l.ptr).price = true := by
  rcases hdone with hzero | htop | ⟨lvl, itr, htop, hfirst, hlimit⟩
  · exact absurd hzero hleaves
  · have hhead := (h.side _ hs.opposite).top.symm.trans htop
    intro l hl
    cases hls : sh.side a.side.opposite with
    | nil => simp [hls] at hl
    | cons l ls => simp [hls] at hhead
  · obtain ⟨os, ls, hls⟩ := side_of_top h hs.opposite htop hfirst
    have hok := h.side _ hs.opposite
    have hprice := (hok.level ⟨lvl, itr :: os⟩ (by simp [hls])).orderPrice itr (by simp)
    have hsorted := hok.sorted
    rw [hls, List.map_cons, List.pairwise_cons] at hsorted
    rw [hprice] at hlimit
    intro l hl
    rw [hls] at hl
    rcases List.mem_cons.mp hl with rfl | hl
    · exact hlimit
    · have hworse := hsorted.1 l.ptr (List.mem_map_of_mem hl)
      exact limitMissed_of_addAfter hs hworse hlimit

lemma getNextPriority_returns (h : b.book.WellFormed sh) (price : Price) :
    ∃ priority, b.getNextPriority price = .ok priority := by
  unfold getNextPriority
  cases hget : b.book.getOrdersAtPrice price with
  | none => exact ⟨1, rfl⟩
  | some p =>
    obtain ⟨l, hl, rfl⟩ := List.mem_map.mp ((h.prices _ p).mp hget).1
    obtain ⟨t, ht, hl⟩ := Shape.mem_levels.mp hl
    have hok := (h.side t ht).level l hl
    obtain ⟨x, os, hx⟩ := List.exists_cons_of_ne_nil hok.nonempty
    obtain ⟨y, -, hj⟩ := hok.ring.exists_prev (a := x) (by simp [hx])
    have hfirst : (b.book.level l.ptr).firstOrder = some x := by rw [hok.first, hx]; rfl
    exact ⟨_, by simp only [hfirst, hj.2, deref_some, ok_bind, pure_eq_ok]; rfl⟩

/-- Where the remainder of an aggressor rests: at the end of the level at its price, or alone
in a new last level. -/
def RestSpot (b : MEOrderBook) (sh : Shape) (a : Aggressor) (o : Nat) (sh' : Shape) : Prop :=
  (∃ pre p os post, sh.side a.side = pre ++ ⟨p, os⟩ :: post ∧ (b.book.level p).price = a.price ∧
    sh' = sh.setSide a.side (pre ++ ⟨p, os ++ [o]⟩ :: post)) ∨
  (∃ n, (∀ l ∈ sh.side a.side, addAfter a.side a.price (b.book.level l.ptr).price) ∧
    sh' = sh.setSide a.side (sh.side a.side ++ [⟨n, [o]⟩]))

/-- The remainder joins the level at its price, or opens the worst level of its side. -/
theorem Rests.wellFormed {a : Aggressor} {marketOrderId : OrderId} {leavesQty : Qty}
    {priority : Priority} {o : Nat} (h : b.book.WellFormed sh) (hs : a.side.Trading)
    (hin : OrderKey.inTable MEOrderIds (a.clientId, a.clientOrderId) = true)
    (hfree : b.book.orderTable (a.clientId, a.clientOrderId) = none)
    (hprice : ∀ l ∈ sh.levels, priceToIndex (b.book.level l.ptr).price = priceToIndex a.price →
      (b.book.level l.ptr).price = a.price ∧ l ∈ sh.side a.side)
    (hworst : (∃ l ∈ sh.side a.side, (b.book.level l.ptr).price = a.price) ∨
      ∀ l ∈ sh.side a.side, addAfter a.side a.price (b.book.level l.ptr).price)
    (hrest : Rests a b marketOrderId leavesQty priority o b') :
    ∃ sh', RestSpot b sh a o sh' ∧ b'.book.WellFormed sh' := by
  obtain ⟨pool, book, halloc, hadd, rfl⟩ := hrest.placed
  obtain ⟨hpending, hself, -⟩ := h.pending halloc
  have hobj : Placeable (b.book.setOrderPool pool) ((b.book.setOrderPool pool).order o) := by
    rw [hself]
    exact ⟨hin, hfree⟩
  cases hget : b.book.getOrdersAtPrice a.price with
  | none =>
    have hnew : ∀ l ∈ sh.side a.side, addAfter a.side a.price (b.book.level l.ptr).price := by
      apply hworst.resolve_left
      rintro ⟨l, hl, hlprice⟩
      have hlevel := h.getOrdersAtPrice_level (Shape.mem_levelPtrs_of_side hs hl)
      simp [hlprice, hget] at hlevel
    obtain ⟨n, hwf⟩ := addOrder_opens hpending hobj hs (by rw [hself]; rfl) (by rw [hself]; exact hget)
      (fun q hq => by
        obtain ⟨l, hl, rfl⟩ := List.mem_map.mp hq
        rw [hself]
        exact hnew l hl) hadd
    exact ⟨_, .inr ⟨n, hnew, rfl⟩, hwf⟩
  | some p =>
    obtain ⟨hp, hindex⟩ := (h.prices _ p).mp hget
    obtain ⟨l, hl, rfl⟩ := List.mem_map.mp hp
    obtain ⟨hlprice, hside⟩ := hprice l hl hindex
    obtain ⟨pre, post, hsplit⟩ := List.append_of_mem hside
    obtain ⟨book', hrun, hwf⟩ := addOrder_joins hpending hobj hs (by rw [hself]; rfl) hsplit
      (by rw [hself]; exact hlprice)
    obtain rfl : book' = book := by simpa [hrun] using hadd
    exact ⟨_, .inl ⟨pre, l.ptr, l.orders, post, hsplit, hlprice, rfl⟩, hwf⟩

/-- The remainder rests, unless a pool is exhausted. The ladder may end up out of order. -/
theorem restOrder_returns (a : Aggressor) (h : b.book.WellFormed sh) (hs : a.side.Trading)
    (hin : OrderKey.inTable MEOrderIds (a.clientId, a.clientOrderId) = true) (marketOrderId : OrderId)
    (leavesQty : Qty) :
    (∃ r, b.restOrder a.clientId a.clientOrderId a.tickerId a.side a.price marketOrderId leavesQty =
      .ok r) ∨
    (b.restOrder a.clientId a.clientOrderId a.tickerId a.side a.price marketOrderId leavesQty =
      .error MemPool.outOfSpace ∧
      ¬(b.book.orderPool.HasRoom ∧ b.book.ordersAtPricePool.HasRoom)) := by
  obtain ⟨priority, hpriority⟩ := getNextPriority_returns h a.price
  simp only [restOrder, hpriority, ok_bind]
  rcases MemPool.allocate_spec h.orderPool (a.resting marketOrderId leavesQty priority) with
    ⟨hroom, herr⟩ | ⟨-, k, hok, -⟩
  · right
    simp only [Aggressor.resting] at herr
    rw [herr]
    exact ⟨rfl, fun hr => hroom hr.1⟩
  · simp only [Aggressor.resting] at hok
    rw [hok, ok_bind]
    obtain ⟨hpending, hself, -⟩ := h.pending hok
    rcases addOrder_returns hpending (by rw [hself]; exact hs) (by rw [hself]; exact hin) with
      ⟨herr, hroom⟩ | ⟨book, hbook⟩
    · right
      rw [herr]
      exact ⟨rfl, fun hr => hroom hr.2⟩
    · left
      rw [hbook]
      exact ⟨_, rfl⟩

/-- What the matching loop keeps, whatever it fills. -/
structure Unmatched (b₀ b : MEOrderBook) (key : ClientId × OrderId) : Prop where
  wellFormed : ∃ sh, b.book.WellFormed sh
  keyFree : b₀.book.orderTable key = none → b.book.orderTable key = none
  orderRoom : b₀.book.orderPool.HasRoom → b.book.orderPool.HasRoom
  levelRoom : b₀.book.ordersAtPricePool.HasRoom → b.book.ordersAtPricePool.HasRoom

theorem checkForMatch_keeps (a : Aggressor) (hs : a.side.Trading) (h : b.book.WellFormed sh)
    {qty leavesQty : Qty} {es : List Event}
    (hmatch : b.checkForMatch a.tickerId a.clientId a.side a.price a.clientOrderId a.newMarketOrderId
      qty = .ok (b', leavesQty, es)) (key : ClientId × OrderId) : Unmatched b b' key := by
  have hrule := checkForMatch_rule a (P := fun b' _ _ => Unmatched b b' key)
    (fun _ c q fills itr c' q' hc hstep => ?_)
    ⟨⟨sh, h⟩, id, id, id⟩ hmatch
  · obtain ⟨-, -, hkeep, -⟩ := hrule
    exact hkeep
  · obtain ⟨shc, hwf⟩ := hc.wellFormed
    obtain ⟨lvl, htop, hfirst⟩ := hstep.first
    obtain ⟨os, ls, hside⟩ := side_of_top hwf hs.opposite htop hfirst
    have hf := hstep.fills.frame
    refine ⟨⟨_, hstep.fills.wellFormed hwf hs.opposite hside⟩, fun hfree => ?_,
      fun hr => hf.orderRoom (hc.orderRoom hr), fun hr => hf.levelRoom (hc.levelRoom hr)⟩
    rw [hf.table]
    split
    · rw [Function.update_apply, hc.keyFree hfree, ite_self]
    · exact hc.keyFree hfree

/-- An `add` with its identifiers in range returns, unless it exhausts a pool. -/
theorem add_returns (h : b.book.WellFormed sh) {clientId : ClientId} {clientOrderId : OrderId}
    (tickerId : TickerId) {side : Side} (hs : side.Trading)
    (hin : OrderKey.inTable MEOrderIds (clientId, clientOrderId) = true) (price : Price) (qty : Qty) :
    (∃ r, b.add clientId clientOrderId tickerId side price qty = .ok r) ∨
    (b.add clientId clientOrderId tickerId side price qty = .error MemPool.outOfSpace ∧
      ¬(b.book.orderPool.HasRoom ∧ b.book.ordersAtPricePool.HasRoom)) := by
  let a := addAggressor clientId clientOrderId tickerId side price qty
  have hdrawn : b.drawn.book.WellFormed sh := h
  obtain ⟨⟨b₁, leavesQty, fills⟩, hmatch⟩ :=
    checkForMatch_returns a hs hdrawn (wrap32 b.nextMarketOrderId)
  obtain ⟨⟨sh₁, hwf₁⟩, -, hroomO, hroomL⟩ := checkForMatch_keeps a hs hdrawn hmatch (clientId, clientOrderId)
  have hrun : b.drawn.checkForMatch tickerId clientId side price clientOrderId qty
      (wrap32 b.nextMarketOrderId) = .ok (b₁, leavesQty, fills) := hmatch
  simp only [add]
  rw [show b.generateNewMarketOrderId = (b.nextMarketOrderId, b.drawn) from rfl]
  simp only [hrun, ok_bind]
  by_cases hleaves : leavesQty = 0
  · exact .inl ⟨_, by rw [if_pos hleaves, pure_eq_ok]⟩
  rw [if_neg hleaves]
  rcases restOrder_returns a hwf₁ hs hin b.nextMarketOrderId leavesQty with ⟨r, hr⟩ | ⟨herr, hroom⟩
  · left
    have hr' : b₁.restOrder clientId clientOrderId tickerId side price b.nextMarketOrderId leavesQty = .ok r := hr
    exact ⟨_, by rw [hr', ok_bind, pure_eq_ok]⟩
  · right
    have herr' : b₁.restOrder clientId clientOrderId tickerId side price b.nextMarketOrderId leavesQty =
      .error MemPool.outOfSpace := herr
    exact ⟨by rw [herr', error_bind], fun hr => hroom ⟨hroomO hr.1, hroomL hr.2⟩⟩

/-- The order a cancel finds, with its identifier in range. -/
lemma lookupOrder_eq (b : MEOrderBook) (clientId : ClientId) {orderId : OrderId}
    (horder : orderId < ME_MAX_ORDER_IDS) : b.lookupOrder clientId orderId =
      .ok (if clientId < ME_MAX_NUM_CLIENTS then b.book.orderTable (clientId, orderId) else none) := by
  unfold lookupOrder
  rw [if_pos horder]
  split <;> rfl

lemma cancel_eq_rejected {clientId : ClientId} {orderId : OrderId} (tickerId : TickerId)
    (hlookup : b.lookupOrder clientId orderId = .ok none) :
    b.cancel clientId orderId tickerId = .ok (b, [cancelRejected clientId orderId tickerId]) := by
  unfold cancel
  rw [hlookup]
  rfl

lemma cancel_eq_canceled {clientId : ClientId} {orderId : OrderId} (tickerId : TickerId) {o : Nat}
    (hlookup : b.lookupOrder clientId orderId = .ok (some o)) {book : PriceBook MEOrderIds (ClientId × OrderId)}
    (hremove : b.book.removeOrder o = .ok book) : b.cancel clientId orderId tickerId =
      .ok ({ b with book := book }, canceled (b.book.order o) clientId orderId tickerId) := by
  unfold cancel
  rw [hlookup, ok_bind]
  dsimp only
  rw [hremove]
  rfl

/-- A cancel with its identifiers in range returns, and keeps the book well-formed. -/
theorem cancel_returns (h : b.book.WellFormed sh) (clientId : ClientId) {orderId : OrderId}
    (tickerId : TickerId) (horder : orderId < ME_MAX_ORDER_IDS) :
    ∃ b' es, b.cancel clientId orderId tickerId = .ok (b', es) := by
  have hlookup := b.lookupOrder_eq clientId horder
  cases hfound : (if clientId < ME_MAX_NUM_CLIENTS then b.book.orderTable (clientId, orderId) else none) with
  | none =>
    rw [hfound] at hlookup
    exact ⟨_, _, cancel_eq_rejected tickerId hlookup⟩
  | some o =>
    rw [hfound] at hlookup
    have ho := ((h.keys _ o).mp (lookupOrder_eq_some hlookup)).1
    obtain ⟨book, hremove, -⟩ := removeOrder_keep h ho
    exact ⟨_, _, cancel_eq_canceled tickerId hlookup hremove⟩

end MEOrderBook
end LowLatencyExchange
