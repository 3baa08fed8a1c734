import LowLatencyExchange.Book.Filed
import LowLatencyExchange.Exchange.Matching
import LowLatencyExchange.Library.Run

/-!
# The price table and the order table

What the two tables of `MEOrderBook` give after every call of a run. No run is excluded, so
the ladders may be in any state, prices and sides may share a slot of the price table, and
identifiers may be used again.
-/

namespace LowLatencyExchange
open CircularList LoggedRun

/-- The sequence of calls on a fresh book returns, with `b` at its end. -/
def AfterCalls (tickerId : TickerId) (calls : List BookCall) (b : MEOrderBook) : Prop :=
  ∃ es, execute MEOrderBook.call (MEOrderBook.create tickerId) calls = .ok (b, es)

abbrev AlwaysAfter (tickerId : TickerId) (calls : List BookCall) (P : MEOrderBook → Prop) : Prop :=
  Always MEOrderBook.call (MEOrderBook.create tickerId) calls P

abbrev NeverIn (tickerId : TickerId) (calls : List BookCall) (Bad : MEOrderBook → BookCall → Prop) : Prop :=
  Never MEOrderBook.call (MEOrderBook.create tickerId) calls Bad

namespace MEOrderBook
variable {b b' : MEOrderBook}

/-- Some orders stand in the slots of the price table, each in the ring of its slot. -/
def Shelved (b : MEOrderBook) : Prop := ∃ rings, b.book.Filed rings

lemma shelved_create (tickerId : TickerId) : Shelved (create tickerId) :=
  ⟨_, PriceBook.filed_empty (fun p => MemPool.not_used_create _ _ p) (fun o => MemPool.not_used_create _ _ o)⟩

lemma FillsOrder.shelved {itr : Nat} {leavesQty leavesQty' : Qty} (h : b.FillsOrder itr leavesQty b' leavesQty')
    (hb : b.Shelved) : b'.Shelved := by
  obtain ⟨rings, hfiled⟩ := hb
  rcases h with ⟨-, -, book, hbook, rfl⟩ | ⟨-, -, rfl⟩
  · exact ⟨_, (hfiled.setQty itr 0).removeOrder hbook⟩
  · exact ⟨rings, hfiled.setQty itr _⟩

lemma Rests.shelved {a : Aggressor} {marketOrderId : OrderId} {leavesQty : Qty} {priority : Priority}
    {o : Nat} (h : Rests a b marketOrderId leavesQty priority o b') (hb : b.Shelved) : b'.Shelved := by
  obtain ⟨rings, hfiled⟩ := hb
  obtain ⟨pool, book, halloc, hadd, rfl⟩ := h.placed
  exact ⟨_, hfiled.addOrder halloc hadd⟩

/-- The call leaves a remainder, which comes to rest in a book where `Taken` holds. -/
def RestsWhere (Taken : MEOrderBook → Aggressor → Prop) (b : MEOrderBook) : BookCall → Prop
  | .add clientId clientOrderId tickerId side price qty =>
    ∃ b₁ leavesQty fills,
      b.drawn.checkForMatch tickerId clientId side price clientOrderId qty (wrap32 b.nextMarketOrderId) =
        .ok (b₁, leavesQty, fills) ∧ leavesQty ≠ 0 ∧
      Taken b₁ (addAggressor clientId clientOrderId tickerId side price qty)
  | .cancel .. => False

/-- What fills and removals keep, and a rest keeps exactly when it is not taken there, a call
keeps exactly when it does not rest where it is taken. -/
theorem call_iff {P : MEOrderBook → Prop} {Taken : MEOrderBook → Aggressor → Prop}
    (hdrawn : ∀ b : MEOrderBook, P b → P b.drawn)
    (hfill : ∀ (b b' : MEOrderBook) itr q q', P b → b.FillsOrder itr q b' q' → P b')
    (hremove : ∀ (b : MEOrderBook) o book, P b → b.book.removeOrder o = .ok book → P { b with book := book })
    (hrest : ∀ (b b' : MEOrderBook) a marketOrderId q priority o, P b →
      Rests a b marketOrderId q priority o b' → (P b' ↔ ¬Taken b a))
    (hb : P b) {call : BookCall} {es : List Event} (hcall : b.call call = .ok (b', es)) :
    P b' ↔ ¬RestsWhere Taken b call := by
  cases call with
  | add clientId clientOrderId tickerId side price qty =>
    let a := addAggressor clientId clientOrderId tickerId side price qty
    obtain ⟨b₁, leavesQty, fills, hmatch, hend⟩ := add_cases hcall
    obtain ⟨-, -, hP, -⟩ := checkForMatch_rule a (P := fun c _ _ => P c)
      (fun _ c q fills itr c' q' hc hstep => hfill c c' itr q q' hc hstep.fills) (hdrawn b hb) hmatch
    have honly : ∀ b₂ q f, b.drawn.checkForMatch tickerId clientId side price clientOrderId qty
        (wrap32 b.nextMarketOrderId) = .ok (b₂, q, f) → b₂ = b₁ ∧ q = leavesQty := by
      intro b₂ q f hrun
      have heq := Except.ok.inj (hrun.symm.trans hmatch)
      exact ⟨congrArg Prod.fst heq, congrArg (fun r => r.2.1) heq⟩
    rcases hend with ⟨hzero, rfl, -⟩ | ⟨hleaves, priority, o, hrests, -⟩
    · refine ⟨fun _ => ?_, fun _ => hP⟩
      rintro ⟨b₂, q, f, hrun, hq, -⟩
      exact hq ((honly b₂ q f hrun).2.trans hzero)
    · rw [hrest b₁ b' a _ leavesQty priority o hP hrests]
      refine not_congr ⟨fun htaken => ⟨b₁, leavesQty, fills, hmatch, hleaves, htaken⟩, ?_⟩
      rintro ⟨b₂, q, f, hrun, -, htaken⟩
      exact (honly b₂ q f hrun).1 ▸ htaken
  | cancel clientId orderId tickerId =>
    refine ⟨fun _ => id, fun _ => ?_⟩
    rcases cancel_cases hcall with ⟨-, rfl, -⟩ | ⟨o, book, -, hbook, rfl, -⟩
    · exact hb
    · exact hremove b o book hb hbook

lemma call_shelved (hb : b.Shelved) {call : BookCall} {es : List Event} (hcall : b.call call = .ok (b', es)) :
    b'.Shelved := by
  have hnever : ¬RestsWhere (fun _ _ => False) b call := by
    cases call with
    | add clientId clientOrderId tickerId side price qty =>
      rintro ⟨b₁, q, f, -, -, hfalse⟩
      exact hfalse
    | cancel clientId orderId tickerId => exact id
  refine (call_iff (fun c hc => hc) (fun c c' itr q q' hc hfill => hfill.shelved hc) ?_ ?_ hb hcall).mpr hnever
  · rintro c o book ⟨rings, hfiled⟩ hbook
    exact ⟨_, hfiled.removeOrder hbook⟩
  · exact fun c c' a id q priority o hc hrests => ⟨fun _ => nofun, fun _ => hrests.shelved hc⟩

lemma always_shelved (tickerId : TickerId) (calls : List BookCall) : AlwaysAfter tickerId calls Shelved :=
  always_of_step (shelved_create tickerId) fun _ _ _ _ hb hcall => call_shelved hb hcall

/-- The table entries of the resting orders: every resting order is found under its pair, and
what is found under a pair rests and has this pair. -/
structure FindsOrders (b : MEOrderBook) : Prop where
  resting : ∀ o, b.book.Resting o →
    b.book.orderTable ((b.book.order o).ids.clientId, (b.book.order o).ids.clientOrderId) = some o
  entries : ∀ clientId orderId o, b.book.orderTable (clientId, orderId) = some o → b.book.Resting o ∧
    (b.book.order o).ids.clientId = clientId ∧ (b.book.order o).ids.clientOrderId = orderId

/-- Another order is found under the pair of the order that comes to rest. -/
def TakesPair (b : MEOrderBook) (a : Aggressor) : Prop :=
  b.book.orderTable (a.clientId, a.clientOrderId) ≠ none

end MEOrderBook

namespace PriceBook
variable {I K : Type} [OrderKey I K] {b b' : PriceBook I K}

/-- The blocks in use and the entries of the key table belong together. -/
structure Keyed (b : PriceBook I K) : Prop where
  used : ∀ o, b.orderPool.Used o → b.orderTable (OrderKey.key (b.order o).ids) = some o
  entry : ∀ k o, b.orderTable k = some o → b.orderPool.Used o ∧ OrderKey.key (b.order o).ids = k

lemma Keyed.setQty (h : b.Keyed) (o : Nat) (qty : Qty) : (b.setQty o qty).Keyed where
  used := fun q hq => by
    have hused : b.orderPool.Used q := by simpa using hq
    rw [ids_setQty, table_modifyOrder]
    exact h.used q hused
  entry := fun k q hk => by
    obtain ⟨hused, hkey⟩ := h.entry k q hk
    rw [ids_setQty]
    exact ⟨by simpa using hused, hkey⟩

variable [DecidableEq K]

lemma Keyed.removeOrder (h : b.Keyed) {o : Nat} (hrun : b.removeOrder o = .ok b') : b'.Keyed := by
  have hf := removeOrder_frame hrun
  have hids : ∀ q, (b'.order q).ids = (b.order q).ids := fun q =>
    (BookOrder.unlinked_eq_iff.mp (hf.order q)).1
  refine ⟨fun q hq => ?_, fun k q hk => ?_⟩
  · obtain ⟨hne, hused⟩ := (hf.used q).mp hq
    have hfound := h.used q hused
    rw [hids, hf.table, Function.update_of_ne]
    · exact hfound
    · intro hkey
      rw [hkey, h.used o hf.wasUsed] at hfound
      exact hne (Option.some.inj hfound).symm
  · rw [hf.table, Function.update_apply] at hk
    split at hk
    · cases hk
    · rename_i hne
      obtain ⟨hused, hkey⟩ := h.entry k q hk
      rw [hf.used, hids]
      refine ⟨⟨fun he => hne ?_, hused⟩, hkey⟩
      rw [← hkey, he]

/-- A new order belongs to its entry just when no other order was found there. -/
lemma Keyed.addOrder_iff (h : b.Keyed) {obj : BookOrder I} {pool : MemPool (BookOrder I)} {o : Nat}
    (halloc : b.orderPool.allocate obj = .ok (pool, o)) (hrun : (b.setOrderPool pool).addOrder o = .ok b') :
    b'.Keyed ↔ b.orderTable (OrderKey.key obj.ids) = none := by
  have hf := addOrder_frame hrun
  obtain ⟨rfl, hfree, k, rfl⟩ := MemPool.allocate_eq_ok halloc
  generalize ho : b.orderPool.nextFreeIndex = o at *
  have hself : (b'.order o).ids = obj.ids := by
    rw [(BookOrder.unlinked_eq_iff.mp (hf.order o)).1]
    exact congrArg BookOrder.ids ((MemPool.object_take _ _ _ _).trans (if_pos rfl))
  have hother : ∀ q, q ≠ o → (b'.order q).ids = (b.order q).ids := fun q hq => by
    rw [(BookOrder.unlinked_eq_iff.mp (hf.order q)).1]
    exact congrArg BookOrder.ids ((MemPool.object_take _ _ _ _).trans (if_neg hq))
  have hused : ∀ q, b'.orderPool.Used q ↔ q = o ∨ b.orderPool.Used q := fun q =>
    (hf.used q).trans (MemPool.used_take _ _ _ _)
  have htable : b'.orderTable = Function.update b.orderTable (OrderKey.key obj.ids) (some o) := by
    rw [hf.table]
    have hobj : ((b.setOrderPool { b.orderPool.take o obj with nextFreeIndex := k }).order o).ids = obj.ids :=
      congrArg BookOrder.ids ((MemPool.object_take _ _ _ _).trans (if_pos rfl))
    rw [hobj]
    rfl
  have hne : ∀ q, b.orderPool.Used q → q ≠ o := fun q hq he => hfree (he ▸ hq)
  constructor
  · intro h'
    cases hk : b.orderTable (OrderKey.key obj.ids) with
    | none => rfl
    | some q =>
      obtain ⟨hq, hkey⟩ := h.entry _ q hk
      have hfound := h'.used q ((hused q).mpr (.inr hq))
      rw [hother q (hne q hq), hkey, htable, Function.update_self] at hfound
      exact absurd (Option.some.inj hfound).symm (hne q hq)
  · intro hnone
    refine ⟨fun q hq => ?_, fun k q hk => ?_⟩
    · rcases (hused q).mp hq with rfl | hq
      · rw [hself, htable, Function.update_self]
      · have hfound := h.used q hq
        rw [hother q (hne q hq), htable, Function.update_of_ne]
        · exact hfound
        · intro hkey
          rw [hkey, hnone] at hfound
          cases hfound
    · rw [htable, Function.update_apply] at hk
      split at hk
      · rename_i hkey
        obtain rfl := Option.some.inj hk
        exact ⟨(hused o).mpr (.inl rfl), by rw [hself, hkey]⟩
      · obtain ⟨hq, hkey⟩ := h.entry k q hk
        rw [hother q (hne q hq)]
        exact ⟨(hused q).mpr (.inr hq), hkey⟩

end PriceBook

namespace MEOrderBook
variable {b b' : MEOrderBook}

lemma Shelved.findsOrders_iff (hb : b.Shelved) : b.FindsOrders ↔ b.book.Keyed := by
  obtain ⟨rings, hfiled⟩ := hb
  constructor
  · intro h
    refine ⟨fun o ho => h.resting o (hfiled.resting_iff.mpr ho), fun k o hk => ?_⟩
    obtain ⟨hrest, hclient, horder⟩ := h.entries k.1 k.2 o hk
    exact ⟨hfiled.resting_iff.mp hrest, Prod.ext hclient horder⟩
  · intro h
    refine ⟨fun o ho => h.used o (hfiled.resting_iff.mp ho), fun clientId orderId o hk => ?_⟩
    obtain ⟨hused, hkey⟩ := h.entry (clientId, orderId) o hk
    exact ⟨hfiled.resting_iff.mpr hused, congrArg Prod.fst hkey, congrArg Prod.snd hkey⟩

lemma FillsOrder.keyed {itr : Nat} {leavesQty leavesQty' : Qty} (h : b.FillsOrder itr leavesQty b' leavesQty')
    (hb : b.book.Keyed) : b'.book.Keyed := by
  rcases h with ⟨-, -, book, hbook, rfl⟩ | ⟨-, -, rfl⟩
  · exact (hb.setQty itr 0).removeOrder hbook
  · exact hb.setQty itr _

lemma call_keyed_iff (hb : b.book.Keyed) {call : BookCall} {es : List Event}
    (hcall : b.call call = .ok (b', es)) : b'.book.Keyed ↔ ¬RestsWhere TakesPair b call := by
  refine call_iff (P := fun c => c.book.Keyed) (fun c hc => hc)
    (fun c c' itr q q' hc hfill => hfill.keyed hc) (fun c o book hc hbook => hc.removeOrder hbook) ?_ hb hcall
  intro c c' a marketOrderId q priority o hc hrests
  obtain ⟨pool, book, halloc, hadd, rfl⟩ := hrests.placed
  rw [hc.addOrder_iff halloc hadd]
  exact not_not.symm

end MEOrderBook

open MEOrderBook

/-- After every call the order table and the resting orders belong together, exactly when no order
comes to rest under a pair under which another one is found. -/
theorem order_table {tickerId : TickerId} {calls : List BookCall} {b : MEOrderBook}
    (h : AfterCalls tickerId calls b) :
    AlwaysAfter tickerId calls FindsOrders ↔ NeverIn tickerId calls (RestsWhere TakesPair) := by
  obtain ⟨es, hrun⟩ := h
  refine always_iff_never hrun (always_shelved tickerId calls) ?_ ?_
  · refine (shelved_create tickerId).findsOrders_iff.mpr ⟨fun o ho => ?_, fun k o hk => ?_⟩
    · exact absurd ho (MemPool.not_used_create _ _ o)
    · cases hk
  · intro c call c' es' hc hfinds hcall
    rw [(call_shelved hc hcall).findsOrders_iff]
    exact call_keyed_iff (hc.findsOrders_iff.mp hfinds) hcall

/-- Two orders under one pair: the first one is no longer found. -/
theorem order_table_fails : ∃ b, AfterCalls 0 [.add 1 1 0 .buy 100 10, .add 1 1 0 .buy 100 10] b ∧
    ¬b.FindsOrders := by
  have hcalls : [.add 1 1 0 .buy 100 10, .add 1 1 0 .buy 100 10] <+:
      [BookCall.add 1 1 0 .buy 100 10, .add 1 1 0 .buy 100 10] := List.prefix_rfl
  refine ⟨_, ⟨_, rfl⟩, fun h => ?_⟩
  have hshelved := always_shelved 0 _ _ _ _ hcalls rfl
  have hfound := (hshelved.findsOrders_iff.mp h).used 0 rfl
  exact absurd hfound (by decide)

/-- A pair that rests again after it was cancelled. -/
theorem order_table_reuse :
    AlwaysAfter 0 [.add 1 1 0 .buy 100 10, .cancel 1 1 0, .add 1 1 0 .buy 90 10] FindsOrders := by
  refine (order_table ⟨_, rfl⟩).mpr ?_
  refine never_cons ?_ fun s es hrun => ?_
  · rintro ⟨b₁, q, f, hmatch, -, htaken⟩
    cases hmatch
    exact htaken rfl
  cases hrun
  apply never_cons id
  intro s es hrun
  cases hrun
  refine never_cons ?_ fun _ _ _ => never_nil
  rintro ⟨b₁, q, f, hmatch, -, htaken⟩
  cases hmatch
  exact htaken rfl

namespace MEOrderBook
variable {b b' : MEOrderBook}

/-- A lookup of the price gives null, or a live level of this price. -/
def FindsLevel (b : MEOrderBook) (price : Price) : Prop :=
  b.book.getOrdersAtPrice price = none ∨ ∃ lvl, b.book.getOrdersAtPrice price = some lvl ∧
    b.book.ordersAtPricePool.Used lvl ∧ (b.book.level lvl).price = price

/-- Every resting order stands in the ring of a level with its own price and side. -/
def RestsAtOwnLevel (b : MEOrderBook) : Prop :=
  ∀ o, b.book.Resting o → ∃ lvl, b.book.StandsIn o lvl ∧
    (b.book.level lvl).price = (b.book.order o).price ∧ (b.book.level lvl).side = (b.book.order o).side

/-- The price table never confuses prices. -/
structure FindsPrices (b : MEOrderBook) : Prop where
  lookup : ∀ price, price < 18446744073709551616 → b.FindsLevel price
  rings : b.RestsAtOwnLevel

/-- The order comes to rest in a slot that holds a level of another price or side. -/
def SharesSlot (b : MEOrderBook) (a : Aggressor) : Prop :=
  ∃ lvl, b.book.getOrdersAtPrice a.price = some lvl ∧
    ¬((b.book.level lvl).price = a.price ∧ (b.book.level lvl).side = a.side)

lemma Shelved.findsLevel_iff (hb : b.Shelved) (price : Price) : b.FindsLevel price ↔
    ∀ lvl, b.book.ordersAtPricePool.Used lvl →
      priceToIndex (b.book.level lvl).price = priceToIndex price → (b.book.level lvl).price = price := by
  obtain ⟨rings, hfiled⟩ := hb
  constructor
  · intro h lvl hused hindex
    have hget : b.book.getOrdersAtPrice price = some lvl := (hfiled.level _ lvl).mpr ⟨hused, hindex⟩
    rcases h with hnone | ⟨lvl', hsome, -, hprice⟩
    · rw [hget] at hnone
      cases hnone
    · obtain rfl : lvl = lvl' := Option.some.inj (hget.symm.trans hsome)
      exact hprice
  · intro h
    cases hget : b.book.getOrdersAtPrice price with
    | none => exact .inl hget
    | some lvl =>
      obtain ⟨hused, hindex⟩ := (hfiled.level _ lvl).mp hget
      exact .inr ⟨lvl, hget, hused, h lvl hused hindex⟩

lemma Shelved.restsAtOwnLevel_iff (hb : b.Shelved) : b.RestsAtOwnLevel ↔ b.book.OwnLevels := by
  obtain ⟨rings, hfiled⟩ := hb
  constructor
  · intro h o p hused hget
    obtain ⟨lvl, hstands, hown⟩ := h o (hfiled.resting_iff.mpr hused)
    obtain rfl : lvl = p := Option.some.inj ((hfiled.standsIn_iff.mp hstands).2.symm.trans hget)
    exact hown
  · rintro h o ⟨lvl, hstands⟩
    obtain ⟨hused, hget⟩ := hfiled.standsIn_iff.mp hstands
    exact ⟨lvl, hstands, h o lvl hused hget⟩

/-- A level that rests anywhere is also found for another price. -/
lemma Shelved.findsPrices_empty (hb : b.Shelved) (h : b.FindsPrices) (o : Nat) :
    ¬b.book.orderPool.Used o := by
  intro hused
  obtain ⟨lvl, hstands⟩ : b.book.Resting o := by
    obtain ⟨rings, hfiled⟩ := hb
    exact hfiled.resting_iff.mpr hused
  have hlive := hstands.1
  generalize hi : priceToIndex (b.book.level lvl).price = i
  have hlt : i < 256 := hi ▸ Nat.mod_lt _ (by decide)
  have hlow := (hb.findsLevel_iff i).mp (h.lookup i (Nat.lt_trans hlt (by decide))) lvl hlive
    (hi.trans (Nat.mod_eq_of_lt hlt).symm)
  have hhigh := (hb.findsLevel_iff (i + 256)).mp
    (h.lookup (i + 256) (Nat.lt_trans (Nat.add_lt_add_right hlt 256) (by decide))) lvl hlive
    (hi.trans ((Nat.add_mod_right i 256).trans (Nat.mod_eq_of_lt hlt)).symm)
  exact Nat.ne_of_lt (Nat.lt_add_of_pos_right (by decide)) (hlow.symm.trans hhigh)

lemma FillsOrder.ownLevels {itr : Nat} {leavesQty leavesQty' : Qty}
    (h : b.FillsOrder itr leavesQty b' leavesQty') (hb : b.Shelved) (hown : b.book.OwnLevels) :
    b'.book.OwnLevels := by
  obtain ⟨rings, hfiled⟩ := hb
  rcases h with ⟨-, -, book, hbook, rfl⟩ | ⟨-, -, rfl⟩
  · exact (hfiled.setQty itr 0).removeOrder_own (hown.setQty itr 0) hbook
  · exact hown.setQty itr _

lemma call_ownLevels_iff (hb : b.Shelved) (hown : b.book.OwnLevels) {call : BookCall} {es : List Event}
    (hcall : b.call call = .ok (b', es)) : b'.book.OwnLevels ↔ ¬RestsWhere SharesSlot b call := by
  have hboth : b'.Shelved ∧ b'.book.OwnLevels ↔ ¬RestsWhere SharesSlot b call := by
    refine call_iff (P := fun c => c.Shelved ∧ c.book.OwnLevels) (fun c hc => hc) ?_ ?_ ?_ ⟨hb, hown⟩ hcall
    · intro c c' itr q q' hc hfill
      exact ⟨hfill.shelved hc.1, hfill.ownLevels hc.1 hc.2⟩
    · rintro c o book ⟨⟨rings, hfiled⟩, hown⟩ hbook
      exact ⟨⟨_, hfiled.removeOrder hbook⟩, hfiled.removeOrder_own hown hbook⟩
    · intro c c' a marketOrderId q priority o hc hrests
      have hshelved := hrests.shelved hc.1
      obtain ⟨rings, hfiled⟩ := hc.1
      obtain ⟨pool, book, halloc, hadd, rfl⟩ := hrests.placed
      have hiff := hfiled.addOrder_own_iff hc.2 halloc hadd
      unfold SharesSlot
      push Not
      exact ⟨fun h => hiff.mp h.2, fun h => ⟨hshelved, hiff.mpr h⟩⟩
  exact (and_iff_right (call_shelved hb hcall)).symm.trans hboth

/-- The first order finds nothing to match, and its remainder rests. -/
lemma add_create_rests {clientId : ClientId} {clientOrderId : OrderId} {tickerId tickerId' : TickerId}
    {side : Side} {price : Price} {qty : Qty} {es : List Event}
    (h : (create tickerId).add clientId clientOrderId tickerId' side price qty = .ok (b', es)) :
    ∃ o, b'.book.orderPool.Used o := by
  obtain ⟨b₁, leavesQty, fills, hmatch, hend⟩ := add_cases h
  let a := addAggressor clientId clientOrderId tickerId' side price qty
  obtain ⟨-, -, hsame, -⟩ := checkForMatch_rule a (P := fun c q _ => c = (create tickerId).drawn ∧ q = 1)
    (by
      rintro - c q fills itr c' q' ⟨rfl, -⟩ hstep
      obtain ⟨lvl, htop, -⟩ := hstep.first
      have hnone : (create tickerId).drawn.book.top a.side.opposite = none := by
        cases a.side.opposite <;> rfl
      cases hnone.symm.trans htop)
    ⟨rfl, rfl⟩ hmatch
  rcases hend with ⟨hzero, -, -⟩ | ⟨-, priority, o, hrests, -⟩
  · cases hsame.2.symm.trans hzero
  · exact ⟨o, (hrests.frame.used o).mpr (.inl rfl)⟩

lemma cancel_create {clientId : ClientId} {orderId : OrderId} {tickerId tickerId' : TickerId} {es : List Event}
    (h : (create tickerId).cancel clientId orderId tickerId' = .ok (b', es)) : b' = create tickerId := by
  rcases cancel_cases h with ⟨-, rfl, -⟩ | ⟨o, book, hsome, -, -, -⟩
  · rfl
  · cases hsome

lemma findsPrices_create (tickerId : TickerId) : (create tickerId).FindsPrices where
  lookup := fun price _ => .inl rfl
  rings := by
    rintro o ⟨lvl, hlive, -⟩
    exact absurd hlive (MemPool.not_used_create _ _ lvl)

end MEOrderBook

namespace BookCall

def IsCancel : BookCall → Prop
  | .add .. => False
  | .cancel .. => True

end BookCall

/-- As long as nothing was added, every lookup is right, and never after. -/
lemma always_findsPrices_iff {tickerId : TickerId} {calls : List BookCall} {b : MEOrderBook}
    (h : AfterCalls tickerId calls b) :
    AlwaysAfter tickerId calls FindsPrices ↔ ∀ call ∈ calls, call.IsCancel := by
  obtain ⟨es, hrun⟩ := h
  induction calls generalizing es with
  | nil =>
    refine ⟨fun _ call hmem => absurd hmem List.not_mem_nil, fun _ past c es' hpast hpastRun => ?_⟩
    obtain rfl := List.prefix_nil.mp hpast
    cases hpastRun
    exact findsPrices_create tickerId
  | cons call calls ih =>
    obtain ⟨b₁, es₁, es₂, hcall, hrest, -⟩ := execute_cons_ok hrun
    cases call with
    | add clientId clientOrderId tickerId' side price qty =>
      have hlast : [.add clientId clientOrderId tickerId' side price qty] <+:
          BookCall.add clientId clientOrderId tickerId' side price qty :: calls := ⟨calls, rfl⟩
      refine ⟨fun halways => ?_, fun hall => (hall _ List.mem_cons_self).elim⟩
      have hafter : execute MEOrderBook.call (create tickerId)
          [.add clientId clientOrderId tickerId' side price qty] = .ok (b₁, es₁ ++ []) :=
        execute_cons hcall rfl
      obtain ⟨o, ho⟩ := add_create_rests hcall
      have hshelved := call_shelved (shelved_create tickerId) hcall
      exact absurd ho (hshelved.findsPrices_empty (halways _ _ _ hlast hafter) o)
    | cancel clientId orderId tickerId' =>
      obtain rfl := cancel_create hcall
      rw [List.forall_mem_cons]
      constructor
      · intro halways
        exact ⟨trivial, (ih es₂ hrest).mp (halways.tail hcall)⟩
      · rintro ⟨-, hall⟩ past c es' hpast hpastRun
        cases past with
        | nil =>
          cases hpastRun
          exact findsPrices_create tickerId
        | cons x past =>
          rw [List.cons_prefix_cons] at hpast
          obtain ⟨rfl, htail⟩ := hpast
          obtain ⟨b₂, es₃, es₄, hcall', hpastRun', -⟩ := execute_cons_ok hpastRun
          obtain rfl := cancel_create hcall'
          exact (ih es₂ hrest).mpr hall past c es₄ htail hpastRun'

/-- The price table never confuses prices exactly in the runs that add nothing: a live level is
also given for every other price of its slot. A lookup is right exactly where no live level of another
price has its slot, and every order stands at its own level exactly when none comes to rest in the slot
of a level with another price or side. -/
theorem price_table {tickerId : TickerId} {calls : List BookCall} {b : MEOrderBook}
    (h : AfterCalls tickerId calls b) :
    (AlwaysAfter tickerId calls FindsPrices ↔ ∀ call ∈ calls, call.IsCancel) ∧
    (∀ price, AlwaysAfter tickerId calls fun c => c.FindsLevel price ↔
      ∀ lvl, c.book.ordersAtPricePool.Used lvl →
        priceToIndex (c.book.level lvl).price = priceToIndex price → (c.book.level lvl).price = price) ∧
    (AlwaysAfter tickerId calls RestsAtOwnLevel ↔ NeverIn tickerId calls (RestsWhere SharesSlot)) := by
  have hshelved := always_shelved tickerId calls
  refine ⟨always_findsPrices_iff h, ?_, ?_⟩
  · intro price past c es hpast hrun
    exact (hshelved past c es hpast hrun).findsLevel_iff price
  · obtain ⟨es, hrun⟩ := h
    apply always_iff_never hrun hshelved (findsPrices_create tickerId).rings
    intro c call c' es' hc hown hcall
    rw [(call_shelved hc hcall).restsAtOwnLevel_iff]
    exact call_ownLevels_iff hc (hc.restsAtOwnLevel_iff.mp hown) hcall

/-- Two bids that share a slot: the second one stands at the level of the first. -/
theorem price_table_fails : ∃ b, AfterCalls 0 [.add 1 1 0 .buy 100 10, .add 1 2 0 .buy 356 10] b ∧
    ¬b.FindsPrices ∧ ¬b.FindsLevel 356 ∧ ¬b.RestsAtOwnLevel := by
  have hcalls : [.add 1 1 0 .buy 100 10, .add 1 2 0 .buy 356 10] <+:
      [BookCall.add 1 1 0 .buy 100 10, .add 1 2 0 .buy 356 10] := List.prefix_rfl
  refine ⟨_, ⟨_, rfl⟩, ?_⟩
  have hshelved := always_shelved 0 _ _ _ _ hcalls rfl
  have hlevel : ¬FindsLevel _ 356 := fun h =>
    absurd ((hshelved.findsLevel_iff 356).mp h 0 rfl rfl) (by decide)
  refine ⟨fun h => hlevel (h.lookup 356 (by decide)), hlevel, fun h => ?_⟩
  have hown := hshelved.restsAtOwnLevel_iff.mp h 1 0 rfl rfl
  exact absurd hown.1 (by decide)

/-- Two bids in slots of their own. -/
theorem price_table_apart :
    AlwaysAfter 0 [.add 1 1 0 .buy 100 10, .add 1 2 0 .buy 90 10] RestsAtOwnLevel := by
  refine (price_table ⟨_, rfl⟩).2.2.mpr ?_
  refine never_cons ?_ fun s es hrun => ?_
  · rintro ⟨b₁, q, f, hmatch, -, lvl, hget, -⟩
    cases hmatch
    cases hget
  cases hrun
  refine never_cons ?_ fun _ _ _ => never_nil
  rintro ⟨b₁, q, f, hmatch, -, lvl, hget, -⟩
  cases hmatch
  cases hget

end LowLatencyExchange
