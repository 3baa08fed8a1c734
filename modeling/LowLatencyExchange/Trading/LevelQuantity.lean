import LowLatencyExchange.Book.Intact
import LowLatencyExchange.Trading.BestPrices
import LowLatencyExchange.Trading.Holding

/-!
# The quantity of a level

`updateBBO` adds up the quantities of a level's orders in the 32 bits of `Qty`. What it gets is the
sum modulo 2³², and this is a quantity other than the sentinel as long as the sum stays below it.
-/

namespace LowLatencyExchange
open CircularList PriceBook

/-- Price and quantity of one side. -/
def BBO.side (bbo : BBO) (s : Side) : Price × Qty :=
  if s = .buy then (bbo.bidPrice, bbo.bidQty) else (bbo.askPrice, bbo.askQty)

namespace MarketOrderBook
variable {b b' : MarketBook}

/-- The quantity of these orders, as a natural number. -/
def sumQty (b : MarketBook) (os : List Nat) : Nat := os.foldr (fun o qty => (b.order o).qty + qty) 0

@[simp] lemma sumQty_nil : sumQty b [] = 0 := rfl
@[simp] lemma sumQty_cons (o : Nat) (os : List Nat) : sumQty b (o :: os) = (b.order o).qty + sumQty b os := rfl

@[simp] lemma sumQty_append (os ps : List Nat) : sumQty b (os ++ ps) = sumQty b os + sumQty b ps := by
  induction os with
  | nil => simp
  | cons o os ih => rw [List.cons_append, sumQty_cons, sumQty_cons, ih, Nat.add_assoc]

lemma sumQty_congr {os : List Nat} (h : ∀ o ∈ os, (b'.order o).qty = (b.order o).qty) :
    sumQty b' os = sumQty b os := by
  induction os with
  | nil => rfl
  | cons o os ih =>
    rw [sumQty_cons, sumQty_cons, h o List.mem_cons_self, ih fun q hq => h q (List.mem_cons_of_mem o hq)]

/-- The loop from any order of a ring on, with the sum of the orders before it in `qty`. -/
lemma sumQtyLoop_eq {first : Nat} (before : List Nat) {rest : List Nat} {fuel : Nat}
    (hring : Ring (fun o => (b.order o).nextOrder) (fun o => (b.order o).prevOrder)
      (first :: before ++ rest))
    (hnodup : (first :: before ++ rest).Nodup) (hfuel : rest.length < fuel) {qty : Qty}
    (hqty : qty < 4294967296) :
    sumQtyLoop b first fuel (rest ++ [first]).head? qty = .ok (wrap32 (qty + sumQty b rest)) := by
  induction rest generalizing before fuel qty with
  | nil =>
    obtain ⟨fuel, rfl⟩ : ∃ k, fuel = k + 1 := Nat.exists_eq_succ_of_ne_zero (by omega)
    have hwrap : wrap32 qty = qty := Nat.mod_eq_of_lt hqty
    simp [sumQtyLoop, hwrap]
  | cons x rest ih =>
    obtain ⟨fuel, rfl⟩ : ∃ k, fuel = k + 1 := Nat.exists_eq_succ_of_ne_zero (by omega)
    have hx : x ≠ first := by
      rintro rfl
      simp at hnodup
    have hlen : rest.length < fuel := by
      rw [List.length_cons] at hfuel
      omega
    have hwrap : wrap32 (qty + (b.order x).qty) < 4294967296 := Nat.mod_lt _ (by omega)
    have hrest := ih (before ++ [x]) (by simpa using hring) (by simpa using hnodup) hlen hwrap
    have hsum : wrap32 (wrap32 (qty + (b.order x).qty) + sumQty b rest) =
        wrap32 (qty + sumQty b (x :: rest)) := by
      rw [sumQty_cons]
      unfold wrap32
      omega
    rw [← hring.next_eq, hsum] at hrest
    simpa [sumQtyLoop, hx] using hrest

/-- What `updateBBO` reads off a top level. -/
lemma bestOf_ring {s : Side} {best : Nat} {os : List Nat} (htop : b.top s = some best) (h : b.RingAt best os)
    (hpool : b.orderPool.Sound) (hqty : ∀ o ∈ os, (b.order o).qty < 4294967296) :
    bestOf b s = .ok ((b.level best).price, wrap32 (sumQty b os)) := by
  obtain ⟨-, hfirst, hne, hring, hnodup, hused⟩ := h
  obtain ⟨first, rest, rfl⟩ := List.exists_cons_of_ne_nil hne
  have hlen : (first :: rest).length ≤ b.orderPool.size :=
    length_le_of_nodup_of_lt hnodup fun o ho => hpool.used_lt o (hused o ho)
  rw [List.length_cons] at hlen
  have hnext : (b.order first).nextOrder = (rest ++ [first]).head? := hring.next_first
  have hwalk : sumQtyLoop b first (b.orderPool.size + 1) (rest ++ [first]).head? (b.order first).qty =
      .ok (wrap32 (sumQty b (first :: rest))) :=
    sumQtyLoop_eq [] hring hnodup (by omega) (hqty first List.mem_cons_self)
  simp only [bestOf, htop, hfirst, List.head?_cons, deref_some, ok_bind, hnext, hwalk, pure_eq_ok]

/-- A side that is refreshed shows what was read of it, the other keeps what it showed. -/
lemma updateBBO_side {bbo bbo' : BBO} {updateBid updateAsk : Bool}
    (hrun : updateBBO b bbo updateBid updateAsk = .ok bbo') {s : Side} (hs : s.Trading) :
    if (if s = .buy then updateBid else updateAsk) then bestOf b s = .ok (bbo'.side s)
    else bbo'.side s = bbo.side s := by
  obtain ⟨bbo₁, hbids, hother, hask⟩ : ∃ bbo₁ : BBO,
      (if updateBid then bestOf b .buy = .ok (bbo₁.side .buy) else bbo₁.side .buy = bbo.side .buy) ∧
      bbo₁.side .sell = bbo.side .sell ∧ updateBBO b bbo₁ false updateAsk = .ok bbo' := by
    cases updateBid with
    | false => exact ⟨bbo, rfl, rfl, hrun⟩
    | true =>
      obtain ⟨bid, hread, hask⟩ := bind_eq_ok hrun
      exact ⟨{ bbo with bidPrice := bid.1, bidQty := bid.2 }, hread, rfl, hask⟩
  have hasks : (if updateAsk then bestOf b .sell = .ok (bbo'.side .sell) else bbo'.side .sell = bbo₁.side .sell) ∧
      bbo'.side .buy = bbo₁.side .buy := by
    cases updateAsk with
    | false =>
      cases hask
      exact ⟨rfl, rfl⟩
    | true =>
      have hask' : (bestOf b .sell >>= fun ask => pure { bbo₁ with askPrice := ask.1, askQty := ask.2 }) = .ok bbo' :=
        hask
      obtain ⟨ask, hread, hask'⟩ := bind_eq_ok hask'
      cases hask'
      exact ⟨hread, rfl⟩
  rcases hs with rfl | rfl
  · rw [hasks.2]
    exact hbids
  · rw [← hother]
    exact hasks.1

/-- What a side shows after the refresh at the end of an update. -/
lemma updateBBO_shown {b₀ : MarketBook} {u : MEMarketUpdate} {bbo bbo' : BBO} {s : Side} {best : Price × Qty}
    (hrun : updateBBO b bbo (bestUpdated b₀ .buy u) (bestUpdated b₀ .sell u) = .ok bbo') (hs : s.Trading)
    (hbest : bestOf b s = .ok best) : bbo'.side s = if bestUpdated b₀ s u then best else bbo.side s := by
  have hside := updateBBO_side hrun hs
  have hflag : (if s = .buy then bestUpdated b₀ .buy u else bestUpdated b₀ .sell u) = bestUpdated b₀ s u := by
    rcases hs with rfl | rfl <;> rfl
  rw [hflag, hbest] at hside
  split at hside
  · rename_i hupdated
    rw [if_pos hupdated]
    exact (Except.ok.inj hside).symm
  · rename_i hupdated
    rw [if_neg hupdated]
    exact hside

/-- Whatever sides it refreshes, `updateBBO` returns, and a refreshed side shows the quantity of its
top level, and no sentinel, exactly when that quantity is below the sentinel. -/
theorem aggregated_quantity_exact_iff (h : b.Readable) (hpool : b.orderPool.Sound)
    (hqty : ∀ o, b.orderPool.Used o → (b.order o).qty < 4294967296) (bbo : BBO) (updateBid updateAsk : Bool) :
    ∃ bbo', updateBBO b bbo updateBid updateAsk = .ok bbo' ∧
      ∀ s : Side, s.Trading → (if s = .buy then updateBid else updateAsk) = true →
        ∀ best os, b.top s = some best → b.RingAt best os →
          ((bbo'.side s).2 = sumQty b os ∧ (bbo'.side s).2 ≠ Qty_INVALID ↔ sumQty b os < 4294967295) := by
  obtain ⟨bbo', hrun⟩ := updateBBO_returns h hpool bbo updateBid updateAsk
  refine ⟨bbo', hrun, fun s hs hrefreshed best os htop hring => ?_⟩
  have hshown := updateBBO_side hrun hs
  rw [if_pos hrefreshed, bestOf_ring htop hring hpool fun o ho => hqty o (hring.ordersUsed o ho)] at hshown
  have hside : wrap32 (sumQty b os) = (bbo'.side s).2 := congrArg Prod.snd (Except.ok.inj hshown)
  have hbound : ∀ n : Nat, n % 4294967296 = n ∧ n % 4294967296 ≠ 4294967295 ↔ n < 4294967295 := by
    intro n
    omega
  rw [← hside]
  exact hbound (sumQty b os)

/-- Two bids at one price. -/
def twoBids (x y : Qty) : List MEMarketUpdate := [
  { type := .add, orderId := 1, tickerId := 0, side := .buy, price := 100, qty := x, priority := 1 },
  { type := .add, orderId := 2, tickerId := 0, side := .buy, price := 100, qty := y, priority := 2 }]

lemma twoBids_stream (x y : Qty) : Stream 0 [] (twoBids x y) ∧ OpensAllLast [] (twoBids x y) := by
  have hone : Quotable
      [{ type := .add, orderId := 1, tickerId := 0, side := .buy, price := 100, qty := x, priority := 1 }] := by
    constructor <;> simp [ME_MAX_ORDER_IDS, ME_MAX_PRICE_LEVELS]
  have htwo : Quotable (twoBids x y) := by
    constructor <;> simp [twoBids, ME_MAX_ORDER_IDS, ME_MAX_PRICE_LEVELS]
  refine ⟨⟨⟨rfl, by simp⟩, hone, ⟨rfl, by simp [seeUpdate]⟩, htwo, trivial⟩, ⟨?_, ?_, trivial⟩⟩
  · simp [OpensLast]
  · simp [OpensLast, seeUpdate]

/-- A book with two bids at one price. -/
lemma twoBids_run (x y : Qty) : ∃ T calls best os,
    LoggedRun.execute onMarketUpdate (create 0) (twoBids x y) = .ok (T, calls) ∧ T.book.Readable ∧
      T.book.orderPool.Sound ∧ (∀ o, T.book.orderPool.Used o → (T.book.order o).qty = x ∨ (T.book.order o).qty = y) ∧
      T.book.top .buy = some best ∧ T.book.RingAt best os ∧ sumQty T.book os = x + y := by
  obtain ⟨hstream, hopens⟩ := twoBids_stream x y
  obtain ⟨T, calls, sh, hrun, h⟩ := (holds_create 0 0).after hstream hopens
  have harrived := (arrived_nil 0).after hstream
  have hlive : liveAfter [] (twoBids x y) = twoBids x y := rfl
  rw [hlive] at h harrived
  have hwf := h.wellFormed
  have hprice : ∀ l ∈ sh.side .buy, (T.book.level l.ptr).price = 100 := by
    intro l hl
    obtain ⟨u, hu, -, hup⟩ := h.exists_live (by simp) hl
    rw [← hup]
    simp only [twoBids, List.mem_cons, List.not_mem_nil, or_false] at hu
    rcases hu with rfl | rfl <;> rfl
  obtain ⟨-, l₀, hl₀, -⟩ := h.exists_level (x := ⟨.add, 1, 0, .buy, 100, x, 1⟩) (by simp [twoBids])
  obtain ⟨l, ls, hside⟩ := List.exists_cons_of_ne_nil (List.ne_nil_of_mem hl₀)
  have hl : l ∈ sh.side .buy := by rw [hside]; exact List.mem_cons_self
  refine ⟨T, calls, l.ptr, l.orders, hrun, hwf.readable, hwf.orderPool, fun o ho => ?_, ?_,
    hwf.ringAt (by simp) hl, ?_⟩
  · have hmem := (h.mem (liveOrder T.book 0 o)).mpr ⟨o, (hwf.orderUsed o).mp ho, rfl⟩
    simp only [twoBids, List.mem_cons, List.not_mem_nil, or_false] at hmem
    rcases hmem with heq | heq
    · exact .inl (congrArg MEMarketUpdate.qty heq)
    · exact .inr (congrArg MEMarketUpdate.qty heq)
  · rw [(hwf.side .buy (by simp)).top, hside]
    rfl
  · have horders := h.level_eq harrived (by simp) hl
    have hqty := congrArg (fun us => (us.map MEMarketUpdate.qty).foldr (· + ·) 0) horders
    rw [hprice l hl] at hqty
    simp only [twoBids, List.map_map, List.foldr_map] at hqty
    simpa [sumQty, liveOrder] using hqty

/-- The bids of 10 and 20 add up to 30. -/
theorem aggregated_quantity_exact_bids : ∃ T calls best os bbo,
    LoggedRun.execute onMarketUpdate (create 0) (twoBids 10 20) = .ok (T, calls) ∧
      T.book.RingAt best os ∧ updateBBO T.book T.bbo true false = .ok bbo ∧ (bbo.side .buy).2 = sumQty T.book os ∧
      sumQty T.book os = 30 := by
  obtain ⟨T, calls, best, os, hrun, hreadable, hpool, hqty, htop, hring, hsum⟩ := twoBids_run 10 20
  have htyped : ∀ o, T.book.orderPool.Used o → (T.book.order o).qty < 4294967296 := by
    intro o ho
    rcases hqty o ho with hq | hq <;> rw [hq] <;> decide
  obtain ⟨bbo, hupdate, hexact⟩ := aggregated_quantity_exact_iff hreadable hpool htyped T.bbo true false
  have hshown := (hexact .buy (by simp) rfl best os htop hring).mpr (by rw [hsum]; decide)
  exact ⟨T, calls, best, os, bbo, hrun, hring, hupdate, hshown.1, hsum⟩

/-- The sum that the top of the two bids shows. -/
lemma twoBids_shown {x y : Qty} (hx : x < 4294967296) (hy : y < 4294967296) : ∃ T calls best os bbo,
    LoggedRun.execute onMarketUpdate (create 0) (twoBids x y) = .ok (T, calls) ∧
      T.book.top .buy = some best ∧ T.book.RingAt best os ∧ sumQty T.book os = x + y ∧
      updateBBO T.book T.bbo true false = .ok bbo ∧ (bbo.side .buy).2 = wrap32 (x + y) := by
  obtain ⟨T, calls, best, os, hrun, hreadable, hpool, hqty, htop, hring, hsum⟩ := twoBids_run x y
  obtain ⟨bbo, hupdate⟩ := updateBBO_returns hreadable hpool T.bbo true false
  have htyped : ∀ o ∈ os, (T.book.order o).qty < 4294967296 := by
    intro o ho
    rcases hqty o (hring.ordersUsed o ho) with hq | hq
    · rw [hq]
      exact hx
    · rw [hq]
      exact hy
  have hread := bestOf_ring htop hring hpool htyped
  have hshown : bestOf T.book .buy = .ok (bbo.side .buy) := updateBBO_side hupdate (s := .buy) (by simp)
  have hboth : wrap32 (sumQty T.book os) = (bbo.side .buy).2 :=
    congrArg Prod.snd (Except.ok.inj (hread.symm.trans hshown))
  rw [hsum] at hboth
  exact ⟨T, calls, best, os, bbo, hrun, htop, hring, hsum, hupdate, hboth.symm⟩

/-- Two bids of 2³¹ show as a quantity of 0, and with one less they show as the sentinel. -/
theorem aggregated_quantity_exact_fails :
    (∃ T calls best os bbo, LoggedRun.execute onMarketUpdate (create 0) (twoBids 2147483648 2147483648) = .ok (T, calls) ∧
      T.book.top .buy = some best ∧ T.book.RingAt best os ∧ sumQty T.book os = 4294967296 ∧
      updateBBO T.book T.bbo true false = .ok bbo ∧ (bbo.side .buy).2 = 0) ∧
    ∃ T calls best os bbo, LoggedRun.execute onMarketUpdate (create 0) (twoBids 2147483648 2147483647) = .ok (T, calls) ∧
      T.book.top .buy = some best ∧ T.book.RingAt best os ∧ sumQty T.book os = 4294967295 ∧
      updateBBO T.book T.bbo true false = .ok bbo ∧ (bbo.side .buy).2 = Qty_INVALID :=
  ⟨twoBids_shown (by decide) (by decide), twoBids_shown (by decide) (by decide)⟩

end MarketOrderBook
end LowLatencyExchange
