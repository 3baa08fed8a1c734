import LowLatencyExchange.Trading.Holding

/-!
# Snapshot and stream on a client's book

A client that follows the stream and a client that takes the `ADD`s of a snapshot hold the
same live orders. They see the same depth when neither has opened a level above another. Once
a book has, no further `ADD` brings its top pointer back to the best price.
-/

namespace LowLatencyExchange
open PriceBook MarketOrderBook

/-- A live order has a better price than the top level of its side. -/
def Overtaken (b : MarketBook) (s : Side) (seen : List MEMarketUpdate) : Prop :=
  ∃ p, b.top s = some p ∧ b.ordersAtPricePool.Used p ∧
    ∃ x ∈ seen, x.side = s ∧ addAfter s (b.level p).price x.price

/-- Two lists of updates lead fresh books to the same depth on both sides. -/
def SameDepth (tickerId : TickerId) (us us' : List MEMarketUpdate) : Prop :=
  ∃ T calls T' calls', LoggedRun.execute onMarketUpdate (create tickerId) us = .ok (T, calls) ∧
    LoggedRun.execute onMarketUpdate (create tickerId) us' = .ok (T', calls') ∧
    ∀ s : Side, s.Trading → ∃ d, readDepth T.book s = some d ∧ readDepth T'.book s = some d

section Books
variable {b b' : MarketBook} {sh : Shape} {t : TickerId} {live seen us : List MEMarketUpdate}
  {u : MEMarketUpdate} {s : Side}

/-- An overtaken side does not show the depth of the live orders. -/
lemma Overtaken.not_isDepth (h : Overtaken b s live) {d : Depth} (hread : readDepth b s = some d) :
    ¬IsDepth live s d := by
  intro hdepth
  obtain ⟨p, htop, -, x, hx, hxs, hbetter⟩ := h
  obtain ⟨orders, rest, rfl⟩ := readDepth_head htop hread
  have hno := hdepth.head hx hxs
  rw [hbetter] at hno
  cases hno

lemma applyUpdate_add_ok (htype : u.type = .add) (hrun : applyUpdate b u = .ok b') :
    ∃ pool o, b.orderPool.allocate (newOrder u) = .ok (pool, o) ∧
      (b.setOrderPool pool).addOrder o = .ok b' := by
  unfold applyUpdate at hrun
  simp only [htype] at hrun
  obtain ⟨⟨pool, o⟩, halloc, hrun⟩ := bind_eq_ok hrun
  exact ⟨pool, o, halloc, hrun⟩

/-- The order an `ADD` places, before it is linked. -/
lemma order_newOrder {pool : MemPool MarketOrder} {o : Nat}
    (halloc : b.orderPool.allocate (newOrder u) = .ok (pool, o)) :
    (b.setOrderPool pool).order o = newOrder u := by
  obtain ⟨rfl, -, k, rfl⟩ := MemPool.allocate_eq_ok halloc
  exact (MemPool.object_take b.orderPool _ _ _).trans (if_pos rfl)

/-- No `ADD` brings an overtaken top back. -/
theorem Overtaken.next (h : Overtaken b s seen) (hs : s.Trading) (htype : u.type = .add)
    (hside : u.side.Trading) (hrun : applyUpdate b u = .ok b') : Overtaken b' s (seen ++ [u]) := by
  obtain ⟨p, htop, hused, x, hx, hxs, hbetter⟩ := h
  have hx : x ∈ seen ++ [u] := List.mem_append_left _ hx
  obtain ⟨pool, o, halloc, hrun⟩ := applyUpdate_add_ok htype hrun
  have hnew := order_newOrder halloc
  obtain ⟨b₂, hlink, hb'⟩ := addOrder_ok hrun
  rw [hb']
  rcases linkOrder_ok hlink with ⟨hpool, htops⟩ | ⟨n, b₁, hfree, hlevelNew, hlevel, htops, hused₁, hadd⟩
  · have hsame : b₂.level p = b.level p := by
      simp only [level, hpool]
      rfl
    refine ⟨p, (htops s).trans htop, ?_, x, hx, hxs, ?_⟩
    · rw [ordersAtPricePool_setKey, hpool]
      exact hused
    · rw [level_setKey, hsame]
      exact hbetter
  · have hpn : p ≠ n := fun e => hfree (e ▸ hused)
    have hladder := addOrdersAtPrice_ladder hadd
    have hprice : ∀ q, (b₂.level q).price = (b₁.level q).price := fun q =>
      (OrdersAtPrice.unlinked_eq_iff.mp (hladder.data q)).2.1
    have htop₁ : b₁.top s = some p := (htops s).trans htop
    rcases addOrdersAtPrice_top hadd s with hkept | ⟨hmoved, hbuy, hworse⟩
    · refine ⟨p, hkept.trans htop₁, (hladder.used p).mpr ((hused₁ p).mpr (.inr hused)), x, hx, hxs, ?_⟩
      rw [level_setKey, hprice, hlevel p hpn]
      exact hbetter
    · have hnewer := hworse p htop₁
      rw [hlevelNew, hnew, hlevel p hpn] at hnewer
      rw [hlevelNew, hnew] at hbuy
      have hsame : u.side = s := by
        rcases hs with rfl | rfl <;> rcases hside with hu | hu <;> simp_all [newOrder]
      refine ⟨n, hmoved, (hladder.used n).mpr ((hused₁ n).mpr (.inl rfl)), x, hx, hxs, ?_⟩
      rw [level_setKey, hprice, hlevelNew, hnew]
      exact addAfter_trans (hsame ▸ hnewer) hbetter

/-- An `ADD` that opens a level above another one overtakes the top of its side. -/
theorem MarketOrderBook.Holds.overtaken (h : Holds t b sh live) (hq : Quotable (live ++ [u])) (hopens : ¬OpensLast live u)
    (hrun : applyUpdate b u = .ok b') : Overtaken b' u.side (live ++ [u]) := by
  unfold OpensLast at hopens
  obtain ⟨htype, hopens⟩ := Classical.not_imp.mp hopens
  obtain ⟨hnone, hnot⟩ := not_or.mp hopens
  have hside := hq.trading u (by simp)
  have hne : ∀ l ∈ sh.side u.side, (b.level l.ptr).price ≠ u.price := by
    intro l hl hprice
    obtain ⟨x, hx, hxs, hxp⟩ := h.exists_live hside hl
    exact hnone ⟨x, hx, hxs, hxp.trans hprice⟩
  obtain ⟨y, hy, hys, hyworse⟩ : ∃ y ∈ live, y.side = u.side ∧ addAfter u.side u.price y.price = false := by
    simpa using hnot
  obtain ⟨pool, o, halloc, hrun⟩ := applyUpdate_add_ok htype hrun
  obtain ⟨hpending, hnew, -⟩ := h.wellFormed.pending halloc
  have hsideNew : ((b.setOrderPool pool).order o).side = u.side := by
    rw [hnew]
    rfl
  have hpriceNew : ((b.setOrderPool pool).order o).price = u.price := by
    rw [hnew]
    rfl
  have hget : b.getOrdersAtPrice u.price = none := by
    cases hget : b.getOrdersAtPrice u.price with
    | none => rfl
    | some p =>
      obtain ⟨l, hl, -, hprice⟩ := h.getOrdersAtPrice hq hget
      exact absurd hprice (hne l hl)
  obtain ⟨b₂, hlink, hb'⟩ := addOrder_ok hrun
  rcases linkOrder_open hpending.levelPool (show (b.setOrderPool pool).getOrdersAtPrice
      ((b.setOrderPool pool).order o).price = none by rw [hpriceNew]; exact hget) with
    ⟨-, herr⟩ | ⟨-, n, b₁, hopen, hadd⟩
  · rw [herr] at hlink
    cases hlink
  rw [hadd] at hlink
  have hladder := addOrdersAtPrice_ladder hlink
  have hpriceAfter : ∀ q, (b'.level q).price = (b₁.level q).price := fun q => by
    rw [hb', level_setKey]
    exact (OrdersAtPrice.unlinked_eq_iff.mp (hladder.data q)).2.1
  have hpriceN : (b₁.level n).price = u.price := by
    rw [hopen.level]
    exact hpriceNew
  have hptr : ∀ l ∈ sh.side u.side, (b₁.level l.ptr).price = (b.level l.ptr).price := by
    intro l hl
    rw [hopen.otherLevel l.ptr]
    · rfl
    · rintro rfl
      exact hopen.wasFree ((h.wellFormed.levelUsed _).mpr (Shape.mem_levelPtrs_of_side hside hl))
  have hused : ∀ q, b'.ordersAtPricePool.Used q ↔ q = n ∨ b.ordersAtPricePool.Used q := fun q => by
    rw [hb', ordersAtPricePool_setKey, hladder.used, hopen.used]
    rfl
  have hbetter : ∃ q ∈ (sh.side u.side).map LevelShape.ptr,
      addAfter u.side (b₁.level n).price (b₁.level q).price = false := by
    obtain ⟨-, l, hl, hlp⟩ := h.exists_level hy
    rw [hys] at hl
    refine ⟨l.ptr, List.mem_map_of_mem hl, ?_⟩
    rw [hpriceN, hptr l hl, hlp]
    exact hyworse
  obtain ⟨best, hbest, -, htop⟩ :=
    addOrdersAtPrice_misplaced (hpending.ladderReady hside hsideNew hopen) hbetter hlink
  obtain ⟨l, hl, rfl⟩ := List.mem_map.mp hbest
  rw [hpriceN, hptr l hl] at htop
  have htop' : b'.top u.side = _ := (congrArg (fun c => top c u.side) hb').trans htop
  by_cases hworse : addAfter u.side u.price (b.level l.ptr).price = true
  · -- a level in the middle becomes the top
    rw [if_pos hworse] at htop'
    obtain ⟨x, hx, hxs, hxp⟩ := h.exists_live hside hl
    refine ⟨n, htop', (hused n).mpr (.inl rfl), x, List.mem_append_left _ hx, hxs, ?_⟩
    rw [hpriceAfter, hpriceN, hxp]
    exact hworse
  · -- a best level leaves the top where it was
    rw [if_neg hworse] at htop'
    refine ⟨l.ptr, htop', (hused _).mpr (.inr ((h.wellFormed.levelUsed _).mpr
      (Shape.mem_levelPtrs_of_side hside hl))), u, by simp, rfl, ?_⟩
    rw [hpriceAfter, hptr l hl]
    rcases addAfter_or_eq hside u.price (b.level l.ptr).price with hlt | heq | hgt
    · exact absurd hlt hworse
    · exact absurd heq.symm (hne l hl)
    · exact hgt

lemma onMarketUpdate_book {T T' : MarketOrderBook} {calls : List EngineCall} (htype : u.type ≠ .trade)
    (hrun : T.onMarketUpdate u = .ok (T', calls)) : applyUpdate T.book u = .ok T'.book := by
  simp only [onMarketUpdate, if_neg htype] at hrun
  obtain ⟨book, happly, hrun⟩ := bind_eq_ok hrun
  obtain ⟨bbo, -, hrun⟩ := bind_eq_ok hrun
  obtain ⟨_, -, hrun⟩ := bind_eq_ok hrun
  cases hrun
  exact happly

theorem Overtaken.after {T T' : MarketOrderBook} {calls : List EngineCall} (h : Overtaken T.book s seen)
    (hs : s.Trading) (hadds : ∀ u ∈ us, u.type = .add ∧ u.side.Trading)
    (hrun : LoggedRun.execute onMarketUpdate T us = .ok (T', calls)) :
    Overtaken T'.book s (seen ++ us) := by
  induction us generalizing T seen calls with
  | nil =>
    cases hrun
    rwa [List.append_nil]
  | cons u us ih =>
    obtain ⟨T₁, calls₁, calls₂, hstep, hrest, -⟩ := LoggedRun.execute_cons_ok hrun
    obtain ⟨htype, hside⟩ := hadds u List.mem_cons_self
    have hbook := onMarketUpdate_book (by rw [htype]; decide) hstep
    have h₁ := h.next hs htype hside hbook
    have h' := ih h₁ (fun x hx => hadds x (List.mem_cons_of_mem u hx)) hrest
    rwa [List.append_assoc, List.singleton_append] at h'

/-- `ADD`s that open a level above another leave some side overtaken. -/
theorem MarketOrderBook.Holds.overtaken_after {T T' : MarketOrderBook} {calls : List EngineCall}
    (h : Holds t T.book sh live) (harrived : Arrived t (live ++ us)) (hq : Quotable (live ++ us))
    (hopens : ¬OpensAllLast live us) (hrun : LoggedRun.execute onMarketUpdate T us = .ok (T', calls)) :
    ∃ s : Side, s.Trading ∧ Overtaken T'.book s (live ++ us) := by
  induction us generalizing T sh live calls with
  | nil => exact absurd trivial hopens
  | cons u us ih =>
    obtain ⟨T₁, calls₁, calls₂, hstep, hrest, -⟩ := LoggedRun.execute_cons_ok hrun
    have hsplit : live ++ u :: us = (live ++ [u]) ++ us := by simp
    have hadds : ∀ x ∈ u :: us, x.type = .add ∧ x.side.Trading := fun x hx =>
      ⟨(harrived.adds x (List.mem_append_right _ hx)).1, hq.trading x (List.mem_append_right _ hx)⟩
    obtain ⟨htype, hside⟩ := hadds u List.mem_cons_self
    have hsee : seeUpdate live u = live ++ [u] := by simp only [seeUpdate, htype]
    have hstream := (Arrived.stream live harrived hq).1
    rw [hsplit] at harrived hq ⊢
    have hqu := hq.sublist (List.sublist_append_left _ _)
    by_cases hlast : OpensLast live u
    · obtain ⟨T₁', calls', sh', hstep', h'⟩ := h.next hstream.1 hstream.2.1 hlast
      obtain ⟨rfl, -⟩ : T₁' = T₁ ∧ calls' = calls₁ := by simpa [hstep] using hstep'.symm
      rw [hsee] at h'
      refine ih h' harrived hq (fun hall => hopens ⟨hlast, ?_⟩) hrest
      rwa [hsee]
    · have hbook := onMarketUpdate_book (by rw [htype]; decide) hstep
      have hovertaken := h.overtaken hqu hlast hbook
      exact ⟨u.side, hside, hovertaken.after hside (fun x hx => hadds x (List.mem_cons_of_mem u hx)) hrest⟩

/-- Once the stream has led a book to the depth of its live orders, their `ADD`s lead another one
there exactly when none of them opens a level above another. -/
lemma sameDepth_adds_iff (hstream : Stream t [] us) (hlive : OpensAllLast [] us) :
    SameDepth t us (liveAfter [] us) ↔ OpensAllLast [] (liveAfter [] us) := by
  have harrived := (arrived_nil t).after hstream
  have hq := hstream.quotable quotable_nil
  obtain ⟨T, calls, sh, hrun, h⟩ := (holds_create t t).after hstream hlive
  constructor
  · rintro ⟨T₁, calls₁, T', calls', hrun₁, hrun', hsame⟩
    obtain ⟨rfl, -⟩ : T = T₁ ∧ calls = calls₁ := by simpa [hrun] using hrun₁
    by_contra hnot
    obtain ⟨s, hs, hovertaken⟩ := (holds_create t t).overtaken_after harrived hq hnot hrun'
    obtain ⟨d, hd, hdepth⟩ := h.depth harrived hs
    obtain ⟨d', hread, hread'⟩ := hsame s hs
    obtain rfl : d = d' := by simpa [hd] using hread
    exact hovertaken.not_isDepth hread' hdepth
  · intro hlast
    obtain ⟨hadds, hafter⟩ := Arrived.stream [] harrived hq
    obtain ⟨T', calls', sh', hrun', h'⟩ := (holds_create t t).after hadds hlast
    rw [hafter] at h'
    refine ⟨T, calls, T', calls', hrun, hrun', fun s hs => ?_⟩
    obtain ⟨d, hread, hdepth⟩ := h.depth harrived hs
    obtain ⟨d', hread', hdepth'⟩ := h'.depth harrived hs
    obtain rfl := hdepth.unique hdepth'
    exact ⟨d, hread, hread'⟩

end Books

/-- A stream that opens no level above another, and the `ADD`s of the snapshot after it, lead fresh
books to the same depth exactly when no order of the snapshot opens a level above another. -/
theorem snapshot_same_depth {t : TickerId} {us : List MEMarketUpdate} {s : SnapshotSynthesizer}
    (ht : t < ME_MAX_TICKERS) (hstream : Stream t [] us)
    (hsynth : SnapshotSynthesizer.create.addAllToSnapshot (numbered 0 us) = .ok s)
    (hlive : OpensAllLast [] us) :
    SameDepth t us (s.snapshotAdds t) ↔ OpensAllLast [] (liveAfter [] us) := by
  rw [SnapshotSynthesizer.snapshotAdds_eq ht hstream hsynth]
  exact sameDepth_adds_iff hstream hlive

/-- Two bids, the better of which is renewed behind the worse one. -/
def renewedBid : List MEMarketUpdate := [
  { type := .add, orderId := 1, tickerId := 0, side := .buy, price := 100, qty := 10, priority := 1 },
  { type := .add, orderId := 2, tickerId := 0, side := .buy, price := 99, qty := 20, priority := 1 },
  { type := .add, orderId := 3, tickerId := 0, side := .buy, price := 100, qty := 30, priority := 2 },
  { type := .cancel, orderId := 1, tickerId := 0, side := .buy, price := 100, qty := 0, priority := 1 }]

lemma renewedBid_stream : Stream 0 [] renewedBid := by
  refine ⟨⟨rfl, ?_⟩, ?_, ⟨rfl, ?_⟩, ?_, ⟨rfl, ?_⟩, ?_, ⟨rfl, ?_⟩, ?_, trivial⟩
  any_goals decide
  all_goals constructor <;> decide

/-- Three bids, the first of which is cancelled after the second one has shrunk, and an ask. -/
def amendedBid : List MEMarketUpdate := [
  { type := .add, orderId := 1, tickerId := 0, side := .buy, price := 100, qty := 10, priority := 1 },
  { type := .add, orderId := 2, tickerId := 0, side := .buy, price := 100, qty := 20, priority := 2 },
  { type := .add, orderId := 3, tickerId := 0, side := .buy, price := 99, qty := 30, priority := 1 },
  { type := .modify, orderId := 2, tickerId := 0, side := .buy, price := 100, qty := 5, priority := 2 },
  { type := .cancel, orderId := 1, tickerId := 0, side := .buy, price := 100, qty := 0, priority := 1 },
  { type := .add, orderId := 4, tickerId := 0, side := .sell, price := 101, qty := 7, priority := 1 }]

lemma amendedBid_stream : Stream 0 [] amendedBid := by
  refine ⟨⟨rfl, ?_⟩, ?_, ⟨rfl, ?_⟩, ?_, ⟨rfl, ?_⟩, ?_, ⟨rfl, ?_⟩, ?_, ⟨rfl, ?_⟩, ?_, ⟨rfl, ?_⟩, ?_, trivial⟩
  any_goals decide
  all_goals constructor <;> decide

theorem snapshot_same_depth_amended : ∃ s,
    SnapshotSynthesizer.create.addAllToSnapshot (numbered 0 amendedBid) = .ok s ∧
    SameDepth 0 amendedBid (s.snapshotAdds 0) := by
  refine ⟨_, rfl, (snapshot_same_depth (by decide) amendedBid_stream rfl ?_).mpr ?_⟩
  · exact ⟨by decide, by decide, by decide, by decide, by decide, by decide, trivial⟩
  · exact ⟨by decide, by decide, by decide, trivial⟩

/-- The stream shows 100 before 99, the snapshot 99 before 100. -/
theorem snapshot_same_depth_fails : ∃ s, Stream 0 [] renewedBid ∧
    SnapshotSynthesizer.create.addAllToSnapshot (numbered 0 renewedBid) = .ok s ∧
    ¬SameDepth 0 renewedBid (s.snapshotAdds 0) := by
  refine ⟨_, renewedBid_stream, rfl, ?_⟩
  rw [SnapshotSynthesizer.snapshotAdds_eq (by decide) renewedBid_stream rfl,
    sameDepth_adds_iff renewedBid_stream ⟨by decide, by decide, by decide, by decide, trivial⟩]
  rintro ⟨-, hsecond, -⟩
  exact absurd hsecond (by decide)

end LowLatencyExchange
