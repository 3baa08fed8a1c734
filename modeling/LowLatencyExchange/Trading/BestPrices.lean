import LowLatencyExchange.Book.Renaming
import LowLatencyExchange.Book.Place
import LowLatencyExchange.Trading.MarketOrderBook

/-!
# Reading the best prices

`updateBBO` follows the order ring of each top level until it is back at the first order. It
returns whenever these rings are circular, which asks nothing of the ladders.
-/

namespace LowLatencyExchange
open CircularList Simulation
namespace PriceBook
variable {I J K L : Type}

/-- Level `lvl` holds the orders `os`, all of them live. -/
structure RingAt (b : PriceBook I K) (lvl : Nat) (os : List Nat) : Prop where
  used : b.ordersAtPricePool.Used lvl
  first : (b.level lvl).firstOrder = os.head?
  nonempty : os ≠ []
  ring : Ring (fun o => (b.order o).nextOrder) (fun o => (b.order o).prevOrder) os
  nodup : os.Nodup
  ordersUsed : ∀ o ∈ os, b.orderPool.Used o

/-- The orders of both top levels can be read around their rings. -/
def Readable (b : PriceBook I K) : Prop := ∀ s lvl, b.top s = some lvl → ∃ os, b.RingAt lvl os

lemma WellFormed.ringAt [OrderKey I K] {b : PriceBook I K} {sh : Shape} (h : b.WellFormed sh) {s : Side}
    (hs : s.Trading) {l : LevelShape} (hl : l ∈ sh.side s) : b.RingAt l.ptr l.orders := by
  have hok := (h.side s hs).level l hl
  refine ⟨(h.levelUsed l.ptr).mpr (Shape.mem_levelPtrs_of_side hs hl), hok.first, hok.nonempty, hok.ring, ?_,
    fun o ho => ?_⟩
  · have hd := (List.nodup_append.mp (h.side_orders_nodup hs)).1
    exact (List.nodup_flatMap.mp hd).1 l hl
  · exact (h.orderUsed o).mpr (Shape.mem_orders_of_side hs hl ho)

lemma WellFormed.readable [OrderKey I K] {b : PriceBook I K} {sh : Shape} (h : b.WellFormed sh) :
    b.Readable := by
  intro s lvl htop
  obtain ⟨t, ht, l, hl, rfl⟩ := exists_level_of_top h.side htop
  exact ⟨l.orders, h.ringAt ht hl⟩

/-- What can be read of a heap can be read of its copy. -/
lemma Readable.renamed {b : PriceBook I K} {c : PriceBook J L} {φ ψ : Equiv.Perm Nat} {f : I → J}
    (h : b.Readable) (hcopy : Renamed φ ψ f b c) : c.Readable := by
  intro s lvl htop
  rw [hcopy.top s] at htop
  obtain ⟨p, hp, rfl⟩ := Option.map_eq_some_iff.mp htop
  obtain ⟨os, hused, hfirst, hne, hring, hnodup, horders⟩ := h s p hp
  refine ⟨os.map ψ, (hcopy.levelUsed p).mpr hused, ?_, ?_, ?_, ?_, ?_⟩
  · rw [hcopy.firstOrder hused, hfirst, List.head?_map]
  · simpa using hne
  · exact hring.map ψ (fun o ho => hcopy.nextOrder (horders o ho)) fun o ho => hcopy.prevOrder (horders o ho)
  · exact hnodup.map ψ.injective
  · intro q hq
    obtain ⟨o, ho, rfl⟩ := List.mem_map.mp hq
    exact (hcopy.orderUsed o).mpr (horders o ho)

/-- After an order was placed, wherever its level went, the tops can be read. -/
theorem Pending.readable [DecidableEq K] [OrderKey I K] {b b' : PriceBook I K} {sh : Shape} {o : Nat}
    (h : Pending b sh o) (hobj : Placeable b (b.order o)) (hs : (b.order o).side.Trading)
    (hprice : ∀ l ∈ sh.levels, priceToIndex (b.level l.ptr).price = priceToIndex (b.order o).price →
      (b.level l.ptr).price = (b.order o).price ∧ l ∈ sh.side (b.order o).side)
    (hrun : b.addOrder o = .ok b') : b'.Readable := by
  cases hget : b.getOrdersAtPrice (b.order o).price with
  | some p =>
    obtain ⟨hp, hindex⟩ := (h.prices _ p).mp hget
    obtain ⟨l, hl, rfl⟩ := List.mem_map.mp hp
    obtain ⟨hlprice, hside⟩ := hprice l hl hindex
    obtain ⟨pre, post, hsplit⟩ := List.append_of_mem hside
    obtain ⟨b'', hrun', hwf⟩ := addOrder_joins h hobj hs rfl hsplit hlprice
    obtain rfl : b'' = b' := by simpa [hrun'] using hrun
    exact hwf.readable
  | none =>
    obtain ⟨b₂, hlink, hb'⟩ := addOrder_ok hrun
    rcases linkOrder_open h.levelPool hget with ⟨-, herr⟩ | ⟨-, n, b₁, hopen, hopenRun⟩
    · rw [herr] at hlink
      cases hlink
    rw [hopenRun] at hlink
    have hladder := addOrdersAtPrice_ladder hlink
    have hheap := addOrdersAtPrice_frame hlink
    have hlevel : ∀ q, (b'.level q).firstOrder = (b₁.level q).firstOrder := fun q => by
      rw [hb']
      exact (OrdersAtPrice.unlinked_eq_iff.mp (hladder.data q)).2.2
    have horder : ∀ q, b'.order q =
        if q = o then { b.order o with prevOrder := some o, nextOrder := some o } else b.order q := by
      intro q
      rw [← hopen.order q, hb', order_setKey, order, hheap.1]
      rfl
    have hlevelUsed : ∀ q, b'.ordersAtPricePool.Used q ↔ q = n ∨ b.ordersAtPricePool.Used q := fun q => by
      rw [← hopen.used q, ← hladder.used q, hb']
      rfl
    have horderUsed : ∀ q, b'.orderPool.Used q ↔ b.orderPool.Used q := fun q => by
      rw [hb', orderPool_setKey, (linkOrder_frame (hopenRun.trans hlink)).used q]
    intro s lvl htop
    have htop' : b₂.top s = some lvl := by rwa [hb', top_setKey] at htop
    rcases hladder.top s with hold | hnew
    · -- an old top, whose ring no write has touched
      rw [hold, hopen.top] at htop'
      obtain ⟨t, ht, l, hl, rfl⟩ := exists_level_of_top h.side htop'
      have hok := (h.side t ht).level l hl
      have hused := (h.levelUsed l.ptr).mpr (Shape.mem_levelPtrs_of_side ht hl)
      have hnew : l.ptr ≠ n := fun e => hopen.wasFree (e ▸ hused)
      have hmem : ∀ q ∈ l.orders, q ∈ sh.orders := fun q hq => Shape.mem_orders_of_side ht hl hq
      have hsame : ∀ q ∈ l.orders, b'.order q = b.order q := by
        intro q hq
        rw [horder, if_neg]
        rintro rfl
        exact h.fresh (hmem q hq)
      refine ⟨l.orders, (hlevelUsed _).mpr (.inr hused), ?_, hok.nonempty, ?_, ?_, fun q hq => ?_⟩
      · rw [hlevel, hopen.otherLevel _ hnew, hok.first]
      · exact hok.ring.congr (fun q hq => by rw [hsame q hq]) fun q hq => by rw [hsame q hq]
      · have hd := (Shape.orders_perm ht sh).nodup_iff.mp h.ordersNodup
        exact (List.nodup_flatMap.mp (List.nodup_append.mp hd).1).1 l hl
      · exact (horderUsed q).mpr ((h.orderUsed q).mpr (.inr (hmem q hq)))
    · -- the new level, with its only order
      obtain rfl : n = lvl := by simpa [htop'] using hnew.symm
      refine ⟨[o], (hlevelUsed n).mpr (.inl rfl), ?_, by simp, ?_, by simp, fun q hq => ?_⟩
      · rw [hlevel, hopen.level]
        rfl
      · rw [ring_singleton]
        simp [horder]
      · obtain rfl : q = o := by simpa using hq
        exact (horderUsed q).mpr ((h.orderUsed q).mpr (.inl rfl))

end PriceBook

namespace MarketOrderBook
variable {b : MarketBook}

/-- The walk around a ring comes back to its first order. -/
lemma sumQtyLoop_returns {first : Nat} (before : List Nat) {rest : List Nat} {fuel : Nat}
    (hring : Ring (fun o => (b.order o).nextOrder) (fun o => (b.order o).prevOrder)
      (first :: before ++ rest)) (hfuel : rest.length < fuel) (qty : Qty) :
    ∃ r, sumQtyLoop b first fuel (rest ++ [first]).head? qty = .ok r := by
  induction rest generalizing before fuel qty with
  | nil =>
    obtain ⟨fuel, rfl⟩ : ∃ k, fuel = k + 1 := Nat.exists_eq_succ_of_ne_zero (by omega)
    exact ⟨qty, by simp [sumQtyLoop]⟩
  | cons x rest ih =>
    obtain ⟨fuel, rfl⟩ : ∃ k, fuel = k + 1 := Nat.exists_eq_succ_of_ne_zero (by omega)
    have hlater : Ring (fun o => (b.order o).nextOrder) (fun o => (b.order o).prevOrder)
        (first :: (before ++ [x]) ++ rest) := by simpa using hring
    have hlen : rest.length < fuel := by
      rw [List.length_cons] at hfuel
      omega
    by_cases hx : x = first
    · exact ⟨qty, by simp [sumQtyLoop, hx]⟩
    · obtain ⟨r, hr⟩ := ih (before ++ [x]) hlater hlen (wrap32 (qty + (b.order x).qty))
      refine ⟨r, ?_⟩
      rw [← hring.next_eq] at hr
      simpa [sumQtyLoop, hx] using hr

lemma bestOf_returns (h : b.Readable) (hpool : b.orderPool.Sound) (side : Side) :
    ∃ r, bestOf b side = .ok r := by
  unfold bestOf
  cases htop : b.top side with
  | none => exact ⟨_, rfl⟩
  | some best =>
    obtain ⟨os, -, hfirst, hne, hring, hnodup, hused⟩ := h side best htop
    obtain ⟨first, rest, rfl⟩ := List.exists_cons_of_ne_nil hne
    have hlen : (first :: rest).length ≤ b.orderPool.size :=
      length_le_of_nodup_of_lt hnodup fun o ho => hpool.used_lt o (hused o ho)
    rw [List.length_cons] at hlen
    have hnext : (b.order first).nextOrder = (rest ++ [first]).head? := hring.next_first
    have hwalk : ∃ r, sumQtyLoop b first (b.orderPool.size + 1) (rest ++ [first]).head?
        (b.order first).qty = .ok r := sumQtyLoop_returns [] hring (by omega) _
    obtain ⟨qty, hqty⟩ := hwalk
    refine ⟨((b.level best).price, qty), ?_⟩
    simp only [hfirst, List.head?_cons, deref_some, ok_bind, hnext, hqty, pure_eq_ok]

lemma updateBBO_returns (h : b.Readable) (hpool : b.orderPool.Sound) (bbo : BBO) (updateBid updateAsk : Bool) :
    ∃ r, updateBBO b bbo updateBid updateAsk = .ok r := by
  obtain ⟨bid, hbid⟩ := bestOf_returns h hpool .buy
  obtain ⟨ask, hask⟩ := bestOf_returns h hpool .sell
  cases updateBid <;> cases updateAsk <;> simp [updateBBO, hbid, hask]

lemma logUpdate_ok (timeStr : String) (u : MEMarketUpdate) (bbo : BBO) :
    Logger.log "%:% %() % % %\n" [.text "market_order_book.cpp", .number 81, .text "onMarketUpdate", .text timeStr,
      .text u.toString, .text bbo.toString] = .ok () :=
  Logger.log_eq_ok rfl

/-- An update that its branch of the `switch` takes is taken whole. -/
theorem onMarketUpdate_returns {T : MarketOrderBook} {u : MEMarketUpdate} (htype : u.type ≠ .trade)
    (happly : applyUpdate T.book u = .ok b) (h : b.Readable) (hpool : b.orderPool.Sound) :
    ∃ bbo calls, T.onMarketUpdate u = .ok ({ T with book := b, bbo := bbo }, calls) := by
  obtain ⟨bbo, hbbo⟩ := updateBBO_returns h hpool T.bbo (bestUpdated T.book .buy u)
    (bestUpdated T.book .sell u)
  refine ⟨bbo, [.onOrderBookUpdate u.tickerId u.price u.side], ?_⟩
  simp only [onMarketUpdate, if_neg htype, happly, ok_bind, hbbo, logUpdate_ok, pure_eq_ok]

lemma onMarketUpdate_trade {T : MarketOrderBook} {u : MEMarketUpdate} (htype : u.type = .trade) :
    T.onMarketUpdate u = .ok (T, [.onTradeUpdate u]) := by
  simp [onMarketUpdate, htype]

end MarketOrderBook
end LowLatencyExchange
