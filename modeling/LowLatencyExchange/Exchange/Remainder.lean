import LowLatencyExchange.Book.Thinned
import LowLatencyExchange.Exchange.Matching
import LowLatencyExchange.Library.Run

/-!
# What is left of an order

On an intact book the matching loop takes the marketable orders out, best first. From the book
before a call one can tell whether anything of an order is left to rest, whether it finds its
place, and whether the book is intact afterwards.
-/

namespace LowLatencyExchange
open CircularList PriceBook
namespace MEOrderBook
variable {b b' : MEOrderBook} {rings : Nat → List Nat} {ladders : Side → List Nat}

/-- The orders that an order of this side and limit is matched against, best first. -/
def marketable (b : MEOrderBook) (side : Side) (limit : Price) : List Nat :=
  if side.Trading then
    ((b.book.ladder side.opposite).flatMap b.book.ordersOf).takeWhile fun o =>
      !limitMissed side limit (b.book.order o).price
  else []

def totalQty (b : MEOrderBook) (os : List Nat) : Qty :=
  os.foldr (fun o qty => (b.book.order o).qty + qty) 0

/-- What is left of the next order. `add` matches the market order id in place of the quantity. -/
def remainder (b : MEOrderBook) (side : Side) (limit : Price) : Qty :=
  wrap32 b.nextMarketOrderId - b.totalQty (b.marketable side limit)

/-- No order is left in the slot of the price. -/
def SlotCleared (b : MEOrderBook) (side : Side) (price : Price) : Prop :=
  ∀ p, b.book.getOrdersAtPrice price = some p → ∀ o ∈ b.book.ordersOf p, o ∈ b.marketable side price

/-- There is a place for the remainder: in the key table, in the order pool, and in the level pool
when it needs a level. -/
structure HasPlace (b : MEOrderBook) (clientId : ClientId) (clientOrderId : OrderId) (side : Side)
    (price : Price) : Prop where
  client : clientId < ME_MAX_NUM_CLIENTS
  order : clientOrderId < ME_MAX_ORDER_IDS
  orderBlock : b.book.orderPool.HasRoom ∨ b.marketable side price ≠ []
  levelBlock : b.SlotCleared side price → b.book.ordersAtPricePool.HasRoom ∨
    ∃ p, b.book.ordersAtPricePool.Used p ∧ ∀ o ∈ b.book.ordersOf p, o ∈ b.marketable side price

/-- The remainder rests under a level of its own ladder, and a level it opens does not tear it. -/
structure Settles (b : MEOrderBook) (side : Side) (price : Price) : Prop where
  ownSlot : ∀ p, b.book.getOrdersAtPrice price = some p → (b.book.level p).side.ladder ≠ side.ladder →
    b.SlotCleared side price
  ownLadder : b.SlotCleared side price → ¬b.book.TearsAt side price (b.book.ladder side)

lemma intact_create (tickerId : TickerId) : (create tickerId).book.Intact (fun _ => []) (fun _ => []) :=
  intact_empty (MemPool.sound_create _ (by decide)) (MemPool.sound_create _ (by decide))
    (MemPool.not_used_create _ _) (MemPool.not_used_create _ _)

lemma totalQty_congr {os : List Nat} (h : ∀ o ∈ os, (b'.book.order o).qty = (b.book.order o).qty) :
    b'.totalQty os = b.totalQty os := by
  induction os with
  | nil => rfl
  | cons o os ih =>
    have hrest := ih fun q hq => h q (List.mem_cons_of_mem o hq)
    unfold totalQty at hrest ⊢
    rw [List.foldr_cons, List.foldr_cons, hrest, h o List.mem_cons_self]

/-- The outcome of matching: the orders in `gone` have left. They are the marketable ones when
anything of the aggressor is left. -/
structure Matched (a : Aggressor) (b : MEOrderBook) (rings : Nat → List Nat) (ladders : Side → List Nat)
    (qty : Qty) (gone : List Nat) (b' : MEOrderBook) (leavesQty : Qty) : Prop where
  thinned : Thinned b.book rings ladders gone b'.book
  nextMarketOrderId : b'.nextMarketOrderId = b.nextMarketOrderId
  leaves : leavesQty = qty - b.totalQty (b.marketable a.side a.price)
  all : leavesQty ≠ 0 → gone = b.marketable a.side a.price
  opposite : ∀ o ∈ gone, (b.book.order o).side.ladder ≠ a.side.ladder

/-- The first order that an aggressor meets. -/
lemma exists_first (h : b.book.Intact rings ladders) {s : Side} {lvl : Nat} (htop : b.book.top s = some lvl) :
    ∃ itr rest, (b.book.level lvl).firstOrder = some itr ∧
      (b.book.ladder s).flatMap b.book.ordersOf = itr :: rest := by
  have hs := Side.trading_ladder s
  have hhead : (ladders s.ladder).head? = some lvl := by rw [← h.top _ hs, top_ladder, htop]
  obtain ⟨ls, hls⟩ : ∃ ls, ladders s.ladder = lvl :: ls := List.head?_eq_some_iff.mp hhead
  have hmem : lvl ∈ ladders s.ladder := by
    rw [hls]
    exact List.mem_cons_self
  have hused := ((h.mem _ hs lvl).mp hmem).1
  have hget := (h.filed.level _ lvl).mpr ⟨hused, rfl⟩
  obtain ⟨itr, os, hring⟩ := List.exists_cons_of_ne_nil fun hnil => by
    rw [(h.filed.empty _).mpr hnil] at hget
    cases hget
  refine ⟨itr, os ++ ls.flatMap b.book.ordersOf, ?_, ?_⟩
  · rw [h.filed.first _ lvl hget, hring]
    rfl
  · rw [h.ladder_eq, hls, List.flatMap_cons, h.ordersOf_eq hused, hring]
    rfl

lemma marketable_cons {side : Side} (hs : side.Trading) (limit : Price) {itr : Nat} {rest : List Nat}
    (hqueue : (b.book.ladder side.opposite).flatMap b.book.ordersOf = itr :: rest) :
    b.marketable side limit = if limitMissed side limit (b.book.order itr).price then []
      else itr :: rest.takeWhile fun o => !limitMissed side limit (b.book.order o).price := by
  rw [marketable, if_pos hs, hqueue, List.takeWhile_cons]
  cases limitMissed side limit (b.book.order itr).price <;> rfl

/-- A full fill takes the first order out. -/
lemma fill_first (h : b.book.Intact rings ladders) (a : Aggressor) {itr : Nat}
    {rest : List Nat} (hqueue : (b.book.ladder a.side.opposite).flatMap b.book.ordersOf = itr :: rest)
    {leavesQty : Qty} (hqty : (b.book.order itr).qty ≤ leavesQty) :
    ∃ b₁ es, b.matchOrder a.tickerId a.clientId a.side a.clientOrderId a.newMarketOrderId itr leavesQty =
        .ok (b₁, leavesQty - (b.book.order itr).qty, es) ∧
      Thinned b.book rings ladders [itr] b₁.book ∧ b₁.nextMarketOrderId = b.nextMarketOrderId ∧
      (b₁.book.ladder a.side.opposite).flatMap b₁.book.ordersOf = rest ∧
      ∀ o ∈ rest, (b₁.book.order o).qty = (b.book.order o).qty := by
  have hnodup := h.nodup_flatMap_ladder a.side.opposite
  have hmem := fun o => h.mem_flatMap_ladder (s := a.side.opposite) (o := o)
  rw [hqueue] at hnodup hmem
  obtain ⟨book, hrun, hremoved⟩ := h.removeOrder_thinned (hmem itr List.mem_cons_self).1
  have hthinned := hremoved.trans (hremoved.intact.thinned_setQty itr 0)
  have hmatch := matchOrder_full a hqty
  rw [removeOrder_setQty hrun, ok_bind, pure_eq_ok] at hmatch
  have hframe := (matchOrder_cases a hmatch).1.frame
  refine ⟨_, _, hmatch, hthinned, rfl, ?_, fun o ho => ?_⟩
  · rw [hthinned.flatMap_ladder h, hqueue, liveOrders, List.filter_cons, if_neg]
    · refine List.filter_eq_self.mpr fun o ho => decide_eq_true ((hthinned.used o).mpr ⟨?_, ?_⟩)
      · exact (hmem o (List.mem_cons_of_mem itr ho)).1
      · intro he
        have hoi : o = itr := by simpa using he
        exact (List.nodup_cons.mp hnodup).1 (hoi ▸ ho)
    · intro he
      exact ((hthinned.used itr).mp (of_decide_eq_true he)).2 (by simp)
  · have hne : o ≠ itr := fun he => (List.nodup_cons.mp hnodup).1 (he ▸ ho)
    exact (BookOrder.unlinked_eq_iff.mp (hframe.order o hne)).2.2.2.1

/-- The loop ends, and has taken out what it matched. The rounds are bounded by the orders that it
may meet. -/
theorem checkForMatchLoop_matched (a : Aggressor) (hs : a.side.Trading) (fuel : Nat)
    (h : b.book.Intact rings ladders) {leavesQty : Qty}
    (hfuel : ((b.book.ladder a.side.opposite).flatMap b.book.ordersOf).length +
      (if leavesQty = 0 then 0 else 1) < fuel) :
    ∃ b' leavesQty' es gone, checkForMatchLoop a.tickerId a.clientId a.side a.price a.clientOrderId
        a.newMarketOrderId fuel b leavesQty = .ok (b', leavesQty', es) ∧
      Matched a b rings ladders leavesQty gone b' leavesQty' := by
  induction fuel generalizing b rings ladders leavesQty with
  | zero => omega
  | succ fuel ih =>
    have hnone : ∀ o ∈ ([] : List Nat), (b.book.order o).side.ladder ≠ a.side.ladder := fun o ho =>
      absurd ho List.not_mem_nil
    rw [checkForMatchLoop]
    by_cases hleaves : leavesQty = 0
    · refine ⟨b, leavesQty, [], [], by rw [if_pos hleaves, pure_eq_ok], h.thinned_self, rfl, ?_, ?_, hnone⟩
      · rw [hleaves, Nat.zero_sub]
      · exact fun hne => absurd hleaves hne
    rw [if_neg hleaves] at hfuel ⊢
    cases htop : b.book.top a.side.opposite with
    | none =>
      have hempty : b.marketable a.side a.price = [] := by
        have hladder : ladders a.side.opposite.ladder = [] := by
          rw [← List.head?_eq_none_iff, ← h.top _ (Side.trading_ladder _), top_ladder, htop]
        rw [marketable, if_pos hs, h.ladder_eq, hladder]
        rfl
      refine ⟨b, leavesQty, [], [], rfl, h.thinned_self, rfl, ?_, fun _ => hempty.symm, hnone⟩
      rw [hempty]
      rfl
    | some lvl =>
      obtain ⟨itr, rest, hfirst, hqueue⟩ := exists_first h htop
      have hmarketable := marketable_cons hs a.price hqueue
      simp only [hfirst, deref_some, ok_bind]
      by_cases hlimit : limitMissed a.side a.price (b.book.order itr).price = true
      · rw [if_pos hlimit] at hmarketable
        refine ⟨b, leavesQty, [], [], by rw [if_pos hlimit, pure_eq_ok], h.thinned_self, rfl, ?_,
          fun _ => hmarketable.symm, hnone⟩
        rw [hmarketable]
        rfl
      rw [if_neg hlimit] at hmarketable ⊢
      have hitr := h.mem_flatMap_ladder (s := a.side.opposite) (o := itr) (by rw [hqueue]; exact List.mem_cons_self)
      have hother : (b.book.order itr).side.ladder ≠ a.side.ladder := by
        rw [hitr.2, hs.opposite.ladder_eq, hs.ladder_eq]
        exact hs.opposite_ne
      have htotal : b.totalQty (b.marketable a.side a.price) = (b.book.order itr).qty +
          b.totalQty (rest.takeWhile fun o => !limitMissed a.side a.price (b.book.order o).price) := by
        rw [hmarketable]
        rfl
      rcases Nat.lt_or_ge leavesQty (b.book.order itr).qty with hqty | hqty
      · have hfuel' : 0 < fuel := by omega
        obtain ⟨fuel, rfl⟩ := Nat.exists_eq_succ_of_ne_zero hfuel'.ne'
        rw [matchOrder_remainder a hqty, ok_bind]
        refine ⟨_, _, _, [], rfl, h.thinned_setQty itr _, rfl, ?_, fun hne => absurd rfl hne, hnone⟩
        rw [htotal]
        have hle : leavesQty ≤ (b.book.order itr).qty := hqty.le
        exact (Nat.sub_eq_zero_of_le (hle.trans (Nat.le_add_right _ _))).symm
      · obtain ⟨b₁, es, hmatch, hthinned, hnext, hrest, hsame⟩ := fill_first h a hqueue hqty
        rw [hmatch, ok_bind]
        have hfuel₁ : ((b₁.book.ladder a.side.opposite).flatMap b₁.book.ordersOf).length +
            (if leavesQty - (b.book.order itr).qty = 0 then 0 else 1) < fuel := by
          rw [hrest]
          rw [hqueue, List.length_cons] at hfuel
          split <;> omega
        have hmarketable₁ : b₁.marketable a.side a.price =
            rest.takeWhile fun o => !limitMissed a.side a.price (b.book.order o).price := by
          rw [marketable, if_pos hs, hrest]
          simp only [hthinned.price]
        obtain ⟨b', leavesQty', es', gone, hrun, hmatched⟩ := ih hthinned.intact hfuel₁
        refine ⟨b', leavesQty', es ++ es', itr :: gone, ?_, hthinned.trans hmatched.thinned,
          hmatched.nextMarketOrderId.trans hnext, ?_, fun hne => ?_, fun o ho => ?_⟩
        · simp only [hrun, ok_bind, pure_eq_ok]
        · rw [hmatched.leaves, hmarketable₁, htotal, Nat.sub_sub]
          rw [totalQty_congr fun o ho => hsame o (List.takeWhile_subset _ ho)]
        · rw [hmatched.all hne, hmarketable₁, hmarketable]
        · rcases List.mem_cons.mp ho with rfl | ho
          · exact hother
          · rw [← hthinned.side]
            exact hmatched.opposite o ho

/-- Whatever its side, an order is matched until nothing marketable is left. -/
theorem checkForMatch_matched (a : Aggressor) (h : b.book.Intact rings ladders) (qty : Qty) :
    ∃ b' leavesQty es gone, b.checkForMatch a.tickerId a.clientId a.side a.price a.clientOrderId
        a.newMarketOrderId qty = .ok (b', leavesQty, es) ∧ Matched a b rings ladders qty gone b' leavesQty := by
  unfold checkForMatch
  split
  · rename_i hs
    have hlength : ((b.book.ladder a.side.opposite).flatMap b.book.ordersOf).length ≤ b.book.orderPool.size := by
      apply length_le_of_nodup_of_lt (h.nodup_flatMap_ladder a.side.opposite)
      intro o ho
      exact h.orderPool.used_lt o (h.mem_flatMap_ladder ho).1
    apply checkForMatchLoop_matched a hs _ h
    split <;> omega
  · rename_i hs
    have hempty : b.marketable a.side a.price = [] := if_neg hs
    refine ⟨b, qty, [], [], rfl, h.thinned_self, rfl, ?_, fun _ => hempty.symm, fun o ho => ?_⟩
    · rw [hempty]
      rfl
    · exact absurd ho List.not_mem_nil

section Rest
variable {a : Aggressor} {qty leavesQty : Qty} {gone : List Nat}

lemma Matched.slot_none_iff (h : b.book.Intact rings ladders) (hm : Matched a b rings ladders qty gone b' leavesQty)
    (hleaves : leavesQty ≠ 0) : b'.book.getOrdersAtPrice a.price = none ↔ b.SlotCleared a.side a.price := by
  rw [getOrdersAtPrice, hm.thinned.slot_none h, hm.all hleaves]
  constructor
  · intro hall p hp o ho
    obtain ⟨hused, hindex⟩ := (h.filed.level _ p).mp hp
    rw [h.ordersOf_eq hused, hindex] at ho
    exact hall o ho
  · intro hcleared o ho
    cases hget : b.book.getOrdersAtPrice a.price with
    | none =>
      rw [(h.filed.empty _).mp hget] at ho
      cases ho
    | some p =>
      obtain ⟨hused, hindex⟩ := (h.filed.level _ p).mp hget
      apply hcleared p hget o
      rw [h.ordersOf_eq hused, hindex]
      exact ho

lemma getNextPriority_intact (h : b.book.Intact rings ladders) (price : Price) :
    ∃ priority, b.getNextPriority price = .ok priority := by
  unfold getNextPriority
  cases hget : b.book.getOrdersAtPrice price with
  | none => exact ⟨1, rfl⟩
  | some lvl =>
    obtain ⟨x, t, hxt⟩ : ∃ x t, rings (priceToIndex price) = x :: t := by
      apply List.exists_cons_of_ne_nil
      intro hnil
      rw [getOrdersAtPrice, (h.filed.empty _).mpr hnil] at hget
      cases hget
    have hfirst : (b.book.level lvl).firstOrder = some x := by
      rw [h.filed.first _ lvl hget, hxt]
      rfl
    obtain ⟨y, -, hj⟩ := (h.filed.ring (priceToIndex price)).exists_prev (a := x)
      (by rw [hxt]; exact List.mem_cons_self)
    exact ⟨_, by simp only [hfirst, hj.2, deref_some, ok_bind, pure_eq_ok]; rfl⟩

/-- The remainder rests when its key is in the table and there are blocks for all that it needs. -/
lemma restOrder_iff (h : b.book.Intact rings ladders) (a : Aggressor) (marketOrderId : OrderId) (leavesQty : Qty) :
    (∃ b' es, b.restOrder a.clientId a.clientOrderId a.tickerId a.side a.price marketOrderId leavesQty =
      .ok (b', es)) ↔
      OrderKey.inTable MEOrderIds (a.clientId, a.clientOrderId) = true ∧ b.book.orderPool.HasRoom ∧
      (b.book.getOrdersAtPrice a.price = none → b.book.ordersAtPricePool.HasRoom) := by
  obtain ⟨priority, hpriority⟩ := getNextPriority_intact h a.price
  simp only [restOrder, hpriority, ok_bind]
  rcases MemPool.allocate_spec h.orderPool (a.resting marketOrderId leavesQty priority) with
    ⟨hroom, herr⟩ | ⟨hroom, k, hok, -⟩
  · simp only [Aggressor.resting] at herr
    rw [herr]
    constructor
    · rintro ⟨b', es, hrun⟩
      cases hrun
    · rintro ⟨-, hr, -⟩
      exact absurd hr hroom
  · have hadd := h.addOrder_iff hok
    simp only [Aggressor.resting] at hok hadd
    rw [hok, ok_bind]
    constructor
    · rintro ⟨b', es, hrun⟩
      obtain ⟨book, hbook, -⟩ := bind_eq_ok hrun
      obtain ⟨hkey, hlevel⟩ := hadd.mp ⟨book, hbook⟩
      exact ⟨hkey, hroom, hlevel⟩
    · rintro ⟨hkey, -, hlevel⟩
      obtain ⟨book, hbook⟩ := hadd.mpr ⟨hkey, hlevel⟩
      exact ⟨_, _, by rw [hbook, ok_bind, pure_eq_ok]⟩

lemma inTable_iff {clientId : ClientId} {clientOrderId : OrderId} :
    OrderKey.inTable MEOrderIds (clientId, clientOrderId) = true ↔
      clientId < ME_MAX_NUM_CLIENTS ∧ clientOrderId < ME_MAX_ORDER_IDS := by
  simp [OrderKey.inTable]

/-- After the matching, the remainder finds its place when it has one in the book before it. -/
lemma Matched.restOrder_iff (h : b.book.Intact rings ladders) (hm : Matched a b rings ladders qty gone b' leavesQty)
    (hleaves : leavesQty ≠ 0) (marketOrderId : OrderId) :
    (∃ b'' es, b'.restOrder a.clientId a.clientOrderId a.tickerId a.side a.price marketOrderId leavesQty =
      .ok (b'', es)) ↔ b.HasPlace a.clientId a.clientOrderId a.side a.price := by
  rw [MEOrderBook.restOrder_iff hm.thinned.intact, hm.slot_none_iff h hleaves, hm.thinned.orderRoom h,
    hm.thinned.levelRoom h, hm.all hleaves, inTable_iff]
  constructor
  · rintro ⟨⟨hclient, horder⟩, hroom, hlevel⟩
    exact ⟨hclient, horder, hroom, hlevel⟩
  · rintro ⟨hclient, horder, hroom, hlevel⟩
    exact ⟨⟨hclient, horder⟩, hroom, hlevel⟩

/-- A remainder that settles keeps the book intact. -/
lemma Matched.rests_intact (h : b.book.Intact rings ladders) (hm : Matched a b rings ladders qty gone b' leavesQty)
    (hleaves : leavesQty ≠ 0) (hsettles : b.Settles a.side a.price) {marketOrderId : OrderId} {priority : Priority}
    {o : Nat} {b'' : MEOrderBook} (hrests : Rests a b' marketOrderId leavesQty priority o b'') :
    ∃ rings' ladders', b''.book.Intact rings' ladders' := by
  obtain ⟨pool, book, halloc, hadd, rfl⟩ := hrests.placed
  have hslot := hm.slot_none_iff h hleaves
  refine hm.thinned.intact.addOrder halloc (fun p hp => ?_) (fun hnone htears => ?_) hadd
  · rw [hm.thinned.levelSide]
    by_contra hother
    have hnone := hslot.mpr (hsettles.ownSlot p (hm.thinned.slot _ p hp) hother)
    exact Option.some_ne_none p (hp.symm.trans hnone)
  · apply hsettles.ownLadder (hslot.mp hnone)
    have hladder : b'.book.ladder a.side = b.book.ladder a.side := hm.thinned.ladder_same h hm.opposite
    rw [hm.thinned.intact.ladder_eq] at hladder
    rw [← tearsAt_congr fun q _ => hm.thinned.levelPrice q]
    exact hladder ▸ htears

end Rest

/-- The calls that return. -/
def Takes (b : MEOrderBook) : BookCall → Prop
  | .add clientId clientOrderId _ side price _ =>
    b.remainder side price ≠ 0 → b.HasPlace clientId clientOrderId side price
  | .cancel clientId orderId _ => clientId < ME_MAX_NUM_CLIENTS → orderId < ME_MAX_ORDER_IDS

/-- The calls that leave the book intact. -/
def Keeps (b : MEOrderBook) : BookCall → Prop
  | .add _ _ _ side price _ => b.remainder side price ≠ 0 → b.Settles side price
  | .cancel _ _ _ => True

/-- The order that a key stands for can be taken out. -/
lemma removeOrder_of_key (h : b.book.Intact rings ladders) {key : ClientId × OrderId} {o : Nat}
    (hkey : b.book.orderTable key = some o) :
    ∃ book, b.book.removeOrder o = .ok book ∧ Thinned b.book rings ladders [o] book :=
  h.removeOrder_thinned (h.table key o hkey).1

theorem cancel_returns_iff (h : b.book.Intact rings ladders) (clientId : ClientId) (orderId : OrderId)
    (tickerId : TickerId) :
    (∃ b' es, b.cancel clientId orderId tickerId = .ok (b', es)) ↔
      (clientId < ME_MAX_NUM_CLIENTS → orderId < ME_MAX_ORDER_IDS) := by
  by_cases hclient : clientId < ME_MAX_NUM_CLIENTS
  · by_cases horder : orderId < ME_MAX_ORDER_IDS
    · refine iff_of_true ?_ fun _ => horder
      simp only [cancel, lookupOrder, if_pos hclient, if_pos horder, pure_eq_ok, ok_bind]
      split
      · exact ⟨_, _, rfl⟩
      · rename_i o hkey
        obtain ⟨book, hbook, -⟩ := removeOrder_of_key h hkey
        exact ⟨_, _, by rw [hbook, ok_bind]⟩
    · refine iff_of_false ?_ fun hin => horder (hin hclient)
      rintro ⟨b', es, hrun⟩
      simp only [cancel, lookupOrder, if_pos hclient, if_neg horder, error_bind] at hrun
      cases hrun
  · refine iff_of_true ?_ fun hin => absurd hin hclient
    simp only [cancel, lookupOrder, if_neg hclient, pure_eq_ok, ok_bind]
    exact ⟨_, _, rfl⟩

lemma hasPlace_drawn {clientId : ClientId} {clientOrderId : OrderId} {side : Side} {price : Price} :
    b.drawn.HasPlace clientId clientOrderId side price ↔ b.HasPlace clientId clientOrderId side price := by
  constructor
  · exact fun h => ⟨h.client, h.order, h.orderBlock, h.levelBlock⟩
  · exact fun h => ⟨h.client, h.order, h.orderBlock, h.levelBlock⟩

theorem add_returns_iff (h : b.book.Intact rings ladders) (clientId : ClientId) (clientOrderId : OrderId)
    (tickerId : TickerId) (side : Side) (price : Price) (qty : Qty) :
    (∃ b' es, b.add clientId clientOrderId tickerId side price qty = .ok (b', es)) ↔
      (b.remainder side price ≠ 0 → b.HasPlace clientId clientOrderId side price) := by
  let a := addAggressor clientId clientOrderId tickerId side price qty
  have hdrawn : b.drawn.book.Intact rings ladders := h
  obtain ⟨b₁, leavesQty, fills, gone, hmatch, hm⟩ := checkForMatch_matched a hdrawn (wrap32 b.nextMarketOrderId)
  have hrun : b.drawn.checkForMatch tickerId clientId side price clientOrderId qty
      (wrap32 b.nextMarketOrderId) = .ok (b₁, leavesQty, fills) := hmatch
  have hremainder : b.remainder side price = leavesQty := hm.leaves.symm
  simp only [add]
  rw [show b.generateNewMarketOrderId = (b.nextMarketOrderId, b.drawn) from rfl]
  simp only [hrun, ok_bind, hremainder]
  by_cases hleaves : leavesQty = 0
  · refine iff_of_true ⟨b₁, _, by rw [if_pos hleaves, pure_eq_ok]⟩ fun hne => absurd hleaves hne
  · rw [if_neg hleaves]
    have hrest := (hm.restOrder_iff hdrawn hleaves b.nextMarketOrderId).trans hasPlace_drawn
    constructor
    · rintro ⟨b', es, hadd⟩ -
      obtain ⟨⟨b₂, rest⟩, hrests, -⟩ := bind_eq_ok hadd
      exact hrest.mp ⟨b₂, rest, hrests⟩
    · intro hplace
      obtain ⟨b₂, rest, hrests⟩ := hrest.mpr (hplace hleaves)
      have hrests' : b₁.restOrder clientId clientOrderId tickerId side price b.nextMarketOrderId leavesQty =
        .ok (b₂, rest) := hrests
      exact ⟨b₂, _, by rw [hrests', ok_bind, pure_eq_ok]⟩

/-- On an intact book, just the calls of `Takes` return. -/
theorem call_returns_iff (h : b.book.Intact rings ladders) (call : BookCall) :
    (∃ b' es, b.call call = .ok (b', es)) ↔ b.Takes call := by
  cases call with
  | add clientId clientOrderId tickerId side price qty =>
    exact add_returns_iff h clientId clientOrderId tickerId side price qty
  | cancel clientId orderId tickerId => exact cancel_returns_iff h clientId orderId tickerId

/-- What a call that returns leaves behind. -/
theorem call_intact (h : b.book.Intact rings ladders) {call : BookCall} (hkeeps : b.Keeps call) {es : List Event}
    (hrun : b.call call = .ok (b', es)) : ∃ rings' ladders', b'.book.Intact rings' ladders' := by
  cases call with
  | add clientId clientOrderId tickerId side price qty =>
    let a := addAggressor clientId clientOrderId tickerId side price qty
    have hdrawn : b.drawn.book.Intact rings ladders := h
    obtain ⟨b₁, leavesQty, fills, gone, hmatch, hm⟩ := checkForMatch_matched a hdrawn (wrap32 b.nextMarketOrderId)
    obtain ⟨b₂, leavesQty', fills', hmatch', hend⟩ := add_cases hrun
    obtain ⟨rfl, rfl, rfl⟩ : b₁ = b₂ ∧ leavesQty = leavesQty' ∧ fills = fills' := by
      simpa using hmatch.symm.trans hmatch'
    rcases hend with ⟨-, rfl, -⟩ | ⟨hleaves, priority, o, hrests, -⟩
    · exact ⟨_, _, hm.thinned.intact⟩
    · have hremainder : b.remainder side price = leavesQty := hm.leaves.symm
      have hsettles : b.Settles side price := hkeeps (hremainder ▸ hleaves)
      exact hm.rests_intact hdrawn hleaves ⟨hsettles.ownSlot, hsettles.ownLadder⟩ hrests
  | cancel clientId orderId tickerId =>
    rcases cancel_cases hrun with ⟨-, rfl, -⟩ | ⟨o, book, hkey, hbook, rfl, -⟩
    · exact ⟨rings, ladders, h⟩
    · obtain ⟨book', hbook', hthinned⟩ := removeOrder_of_key h hkey
      obtain rfl : book' = book := Except.ok.inj (hbook'.symm.trans hbook)
      exact ⟨_, _, hthinned.intact⟩

/-- Two runs of a fresh book in which every call is taken up to the last, which finds the book no
longer intact: a bid went in front of the last level of its ladder, and an ask under the level of a bid. -/
example : LoggedRun.errorOf MEOrderBook.call (create 0) [.add 1 1 0 .buy 100 10, .add 1 2 0 .buy 98 10,
    .add 1 3 0 .buy 99 10, .cancel 1 3 0, .add 1 4 0 .buy 97 10] = some .nullDereference := by
  decide +kernel

example : LoggedRun.errorOf MEOrderBook.call (create 0) [.add 1 1 0 .buy 100 10, .add 1 2 0 .sell 356 10,
    .cancel 1 1 0, .cancel 1 2 0, .add 1 3 0 .sell 50 10] = some .nullDereference := by
  decide +kernel

end MEOrderBook
end LowLatencyExchange
