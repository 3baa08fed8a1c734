import LowLatencyExchange.Exchange.PriceTime

/-!
# The quantity ledger

The responses of one order, from its `ACCEPTED` on, account for the quantity the client sent.
The argument looks at every block of the order pool and at no link between them, so it holds
whatever state the ladders are in.
-/

namespace LowLatencyExchange
open LoggedRun MEOrderBook

abbrev OrderPair := ClientId × OrderId

/-- The responses about an order. `CANCEL_REJECTED` answers a request that has no order. -/
def orderResponses (key : OrderPair) (es : List Event) : List MEClientResponse :=
  (responses es).filter fun r => r.type ≠ .cancelRejected && (r.clientId, r.clientOrderId) = key

/-- The responses of an order that was submitted with `qty`, and the quantity they leave. -/
inductive Ledger (marketOrderId : OrderId) (qty : Qty) : List MEClientResponse → Qty → Prop
  | accepted {r : MEClientResponse} : r.type = .accepted → r.marketOrderId = marketOrderId →
      r.execQty = 0 → r.leavesQty = qty → Ledger marketOrderId qty [r] qty
  | filled {rs : List MEClientResponse} {leavesQty : Qty} {r : MEClientResponse} :
      Ledger marketOrderId qty rs leavesQty → r.type = .filled → r.marketOrderId = marketOrderId →
      r.execQty ≤ leavesQty → r.leavesQty = leavesQty - r.execQty →
      Ledger marketOrderId qty (rs ++ [r]) r.leavesQty
  | canceled {rs : List MEClientResponse} {leavesQty : Qty} {r : MEClientResponse} :
      Ledger marketOrderId qty rs leavesQty → r.type = .canceled → r.marketOrderId = marketOrderId →
      r.leavesQty = leavesQty → Ledger marketOrderId qty (rs ++ [r]) leavesQty

/-- The quantity a pair was submitted with. -/
def submittedQty (log : List (BookCall × List Event)) (key : OrderPair) : Option Qty :=
  log.findSome? fun entry =>
    match entry.1 with
    | .add clientId clientOrderId _ _ _ qty => if (clientId, clientOrderId) = key then some qty else none
    | .cancel .. => none

lemma submittedQty_append (log log' : List (BookCall × List Event)) (key : OrderPair) :
    submittedQty (log ++ log') key = (submittedQty log key).or (submittedQty log' key) :=
  List.findSome?_append

/-- The pair that an order block carries before it is first used. -/
def invalidPair : OrderPair := (ClientId_INVALID, OrderId_INVALID)

@[simp] lemma orderResponses_nil (key : OrderPair) : orderResponses key [] = [] := rfl

@[simp] lemma orderResponses_append (key : OrderPair) (es es' : List Event) :
    orderResponses key (es ++ es') = orderResponses key es ++ orderResponses key es' := by
  simp [orderResponses]

@[simp] lemma orderResponses_cons_update (key : OrderPair) (u : MEMarketUpdate) (es : List Event) :
    orderResponses key (.update u :: es) = orderResponses key es := rfl

lemma orderResponses_cons_response {key : OrderPair} {r : MEClientResponse} {es : List Event}
    (htype : r.type ≠ .cancelRejected) : orderResponses key (.response r :: es) =
      if (r.clientId, r.clientOrderId) = key then r :: orderResponses key es else orderResponses key es := by
  by_cases hkey : (r.clientId, r.clientOrderId) = key <;>
    simp [orderResponses, htype, hkey]

namespace MEOrderBook
variable {b b' : MEOrderBook}

def pair (b : MEOrderBook) (o : Nat) : OrderPair :=
  ((b.book.order o).ids.clientId, (b.book.order o).ids.clientOrderId)

/-- Every block of the order pool that carries a pair carries what the ledger of this pair
leaves. `S` gives the quantity each pair was submitted with. -/
structure InLedger (S : OrderPair → Option Qty) (b : MEOrderBook) (es : List Event) : Prop where
  orders : ∀ o, b.pair o ≠ invalidPair → ∃ qty, S (b.pair o) = some qty ∧
    Ledger (b.book.order o).ids.marketOrderId qty (orderResponses (b.pair o) es) (b.book.order o).qty
  unique : ∀ o q, b.pair o ≠ invalidPair → b.pair o = b.pair q → o = q
  table : ∀ k o, b.book.orderTable k = some o → b.pair o = k ∧ b.book.orderPool.Used o
  ledgers : ∀ k qty, S k = some qty → k ≠ invalidPair ∧ ∃ marketOrderId leavesQty,
    Ledger marketOrderId qty (orderResponses k es) leavesQty
  silent : ∀ k, k ≠ invalidPair → S k = none → orderResponses k es = []

lemma pair_congr {o : Nat} (h : (b'.book.order o).unlinked = (b.book.order o).unlinked) :
    b'.pair o = b.pair o := by
  simp only [pair, (BookOrder.unlinked_eq_iff.mp h).1]

/-- Messages of a fill, by pair. -/
lemma orderResponses_fill (a : Aggressor) (itr : Nat) (leavesQty : Qty) (key : OrderPair) :
    orderResponses key (a.fill (b.book.order itr) leavesQty).events =
      (if (a.clientId, a.clientOrderId) = key then [(a.fill (b.book.order itr) leavesQty).aggressor]
        else []) ++
      (if b.pair itr = key then [(a.fill (b.book.order itr) leavesQty).passive] else []) := by
  generalize hf : a.fill (b.book.order itr) leavesQty = f
  have haggressor : (f.aggressor.clientId, f.aggressor.clientOrderId) = (a.clientId, a.clientOrderId) := by
    rw [← hf]; rfl
  have hpassive : (f.passive.clientId, f.passive.clientOrderId) = b.pair itr := by
    rw [← hf]; rfl
  rw [Fill.events, orderResponses_cons_response (by simp [← hf, Aggressor.fill]),
    orderResponses_cons_response (by simp [← hf, Aggressor.fill]), haggressor, hpassive]
  by_cases ha : (a.clientId, a.clientOrderId) = key
  · rw [if_pos ha, if_pos ha]
    rfl
  · rw [if_neg ha, if_neg ha]
    rfl

/-- What the matching loop keeps: the ledgers, and the aggressor's own ahead of its rest. -/
structure Filling (S : OrderPair → Option Qty) (a : Aggressor) (qty : Qty) (es₀ : List Event)
    (b : MEOrderBook) (leavesQty : Qty) (fills : List Fill) : Prop where
  ledger : InLedger S b (es₀ ++ fills.flatMap Fill.events)
  submitted : S (a.clientId, a.clientOrderId) = some qty
  own : Ledger a.newMarketOrderId qty
    (orderResponses (a.clientId, a.clientOrderId) (es₀ ++ fills.flatMap Fill.events)) leavesQty
  notResting : ∀ o, b.pair o ≠ (a.clientId, a.clientOrderId)

lemma Filling.round {S : OrderPair → Option Qty} {a : Aggressor} {qty : Qty} {es₀ : List Event}
    {leavesQty leavesQty' : Qty} {fills : List Fill} {itr : Nat}
    (h : Filling S a qty es₀ b leavesQty fills) (hstep : MatchStep a b leavesQty itr b' leavesQty') :
    Filling S a qty es₀ b' leavesQty' (fills ++ [a.fill (b.book.order itr) leavesQty]) := by
  have hf := hstep.fills.frame
  have hleaves : leavesQty' = leavesQty - min leavesQty (b.book.order itr).qty := by
    rcases hstep.fills with ⟨hqty, rfl, -⟩ | ⟨hqty, rfl, -⟩
    · rw [min_eq_right hqty]
    · rw [min_eq_left hqty.le, Nat.sub_self]
  have hpair : ∀ q, b'.pair q = b.pair q := fun q => by simp only [pair, hf.ids]
  have hes : es₀ ++ (fills ++ [a.fill (b.book.order itr) leavesQty]).flatMap Fill.events =
      (es₀ ++ fills.flatMap Fill.events) ++ (a.fill (b.book.order itr) leavesQty).events := by simp
  generalize hes' : es₀ ++ fills.flatMap Fill.events = es at *
  have hother : ∀ k, k ≠ b.pair itr → k ≠ (a.clientId, a.clientOrderId) →
      orderResponses k (es ++ (a.fill (b.book.order itr) leavesQty).events) = orderResponses k es := by
    intro k hk hka
    rw [orderResponses_append, orderResponses_fill, if_neg hka.symm, if_neg (Ne.symm hk)]
    simp
  have hpassive : (a.fill (b.book.order itr) leavesQty).passive.leavesQty =
      (b'.book.order itr).qty := hf.qty.symm
  have hitr : orderResponses (b.pair itr) (es ++ (a.fill (b.book.order itr) leavesQty).events) =
      orderResponses (b.pair itr) es ++ [(a.fill (b.book.order itr) leavesQty).passive] := by
    rw [orderResponses_append, orderResponses_fill, if_neg (h.notResting itr).symm, if_pos rfl]
    rfl
  have hvalid : ∀ qty, b.pair itr ≠ invalidPair →
      Ledger (b.book.order itr).ids.marketOrderId qty (orderResponses (b.pair itr) es)
        (b.book.order itr).qty →
      Ledger (b.book.order itr).ids.marketOrderId qty
        (orderResponses (b.pair itr) (es ++ (a.fill (b.book.order itr) leavesQty).events))
        (b'.book.order itr).qty := by
    intro qty hne hledger
    rw [hitr, ← hpassive]
    exact hledger.filled rfl rfl (min_le_right _ _) rfl
  have hown : Ledger a.newMarketOrderId qty (orderResponses (a.clientId, a.clientOrderId)
      (es ++ (a.fill (b.book.order itr) leavesQty).events)) leavesQty' := by
    rw [orderResponses_append, orderResponses_fill, if_pos rfl, if_neg (h.notResting itr), hleaves]
    exact (hes' ▸ h.own).filled rfl rfl (min_le_left _ _) rfl
  refine ⟨⟨?_, ?_, ?_, ?_, ?_⟩, h.submitted, hes ▸ hown, fun o => hpair o ▸ h.notResting o⟩
  · intro o ho
    rw [hpair] at ho ⊢
    rw [hes, hf.ids]
    obtain ⟨q, hq, hledger⟩ := (hes' ▸ h.ledger).orders o ho
    refine ⟨q, hq, ?_⟩
    by_cases hoi : o = itr
    · subst hoi
      exact hvalid q ho hledger
    · have hne : b.pair o ≠ b.pair itr := fun he => hoi (h.ledger.unique o itr ho he)
      rw [hother _ hne (h.notResting o), (BookOrder.unlinked_eq_iff.mp (hf.order o hoi)).2.2.2.1]
      exact hledger
  · intro o q ho hoq
    rw [hpair] at ho hoq
    exact h.ledger.unique o q ho (hoq.trans (hpair q))
  · intro k o hk
    rw [hf.table] at hk
    by_cases hqty : (b.book.order itr).qty ≤ leavesQty
    · rw [if_pos hqty, Function.update_apply] at hk
      split at hk
      · cases hk
      · rename_i hne
        obtain ⟨rfl, hused⟩ := h.ledger.table k o hk
        exact ⟨hpair o, (hf.used o).mpr ⟨hused, fun he => absurd (he ▸ rfl) hne⟩⟩
    · rw [if_neg hqty] at hk
      obtain ⟨rfl, hused⟩ := h.ledger.table k o hk
      exact ⟨hpair o, (hf.used o).mpr ⟨hused, fun _ => Nat.not_le.mp hqty⟩⟩
  · intro k q hk
    have hold := (hes' ▸ h.ledger).ledgers k q hk
    rw [hes]
    refine ⟨hold.1, ?_⟩
    by_cases hka : k = (a.clientId, a.clientOrderId)
    · obtain rfl : q = qty := Option.some.inj ((hka ▸ hk).symm.trans h.submitted)
      exact ⟨_, _, hka ▸ hown⟩
    · by_cases hki : k = b.pair itr
      · subst hki
        obtain ⟨q', hq', hledger⟩ := (hes' ▸ h.ledger).orders itr hold.1
        obtain rfl : q = q' := Option.some.inj (hk.symm.trans hq')
        exact ⟨_, _, hvalid q hold.1 hledger⟩
      · rw [hother k hki hka]
        exact hold.2
  · intro k hne hk
    have hki : k ≠ b.pair itr := by
      rintro rfl
      obtain ⟨q, hq, -⟩ := h.ledger.orders itr hne
      rw [hk] at hq
      cases hq
    have hka : k ≠ (a.clientId, a.clientOrderId) := by
      rintro rfl
      rw [h.submitted] at hk
      cases hk
    rw [hes, hother k hki hka]
    exact (hes' ▸ h.ledger).silent k hne hk

section Calls
variable {S : OrderPair → Option Qty} {es : List Event}

lemma InLedger.congr (h : InLedger S b es) (hbook : b'.book = b.book) : InLedger S b' es := by
  have hpair : ∀ o, b'.pair o = b.pair o := fun o => by simp only [pair, hbook]
  refine ⟨fun o ho => ?_, fun o q ho hoq => ?_, fun k o hk => ?_, h.ledgers, h.silent⟩
  · rw [hpair] at ho ⊢
    rw [hbook]
    exact h.orders o ho
  · rw [hpair] at ho hoq
    exact h.unique o q ho (hoq.trans (hpair q))
  · rw [hbook] at hk ⊢
    rw [hpair]
    exact h.table k o hk

lemma orderResponses_accepted (a : Aggressor) (marketOrderId : OrderId) (qty : Qty) (key : OrderPair) :
    orderResponses key [accepted a marketOrderId qty] =
      if (a.clientId, a.clientOrderId) = key then
        [⟨.accepted, a.clientId, a.tickerId, a.clientOrderId, marketOrderId, a.side, a.price, 0, qty⟩]
      else [] :=
  orderResponses_cons_response (by simp)

/-- A new pair opens its ledger. -/
lemma InLedger.accept (h : InLedger S b es) {a : Aggressor}
    (hfree : S (a.clientId, a.clientOrderId) = none)
    (hvalid : (a.clientId, a.clientOrderId) ≠ invalidPair) (marketOrderId : OrderId) (qty : Qty) :
    InLedger (Function.update S (a.clientId, a.clientOrderId) (some qty)) b
      (es ++ [accepted a marketOrderId qty]) ∧
    Ledger marketOrderId qty (orderResponses (a.clientId, a.clientOrderId)
      (es ++ [accepted a marketOrderId qty])) qty ∧
    ∀ o, b.pair o ≠ (a.clientId, a.clientOrderId) := by
  have hnone : ∀ o, b.pair o ≠ (a.clientId, a.clientOrderId) := by
    intro o ho
    obtain ⟨q, hq, -⟩ := h.orders o (ho ▸ hvalid)
    rw [ho, hfree] at hq
    cases hq
  have hother : ∀ k, k ≠ (a.clientId, a.clientOrderId) →
      orderResponses k (es ++ [accepted a marketOrderId qty]) = orderResponses k es := by
    intro k hk
    rw [orderResponses_append, orderResponses_accepted, if_neg hk.symm, List.append_nil]
  have hown : Ledger marketOrderId qty (orderResponses (a.clientId, a.clientOrderId)
      (es ++ [accepted a marketOrderId qty])) qty := by
    rw [orderResponses_append, orderResponses_accepted, if_pos rfl, h.silent _ hvalid hfree]
    exact .accepted rfl rfl rfl rfl
  refine ⟨⟨fun o ho => ?_, h.unique, h.table, fun k q hk => ?_, fun k hne hk => ?_⟩, hown, hnone⟩
  · rw [hother _ (hnone o), Function.update_of_ne (hnone o)]
    exact h.orders o ho
  · by_cases hka : k = (a.clientId, a.clientOrderId)
    · subst hka
      rw [Function.update_self] at hk
      cases hk
      exact ⟨hvalid, _, _, hown⟩
    · rw [Function.update_of_ne hka] at hk
      rw [hother k hka]
      exact h.ledgers k q hk
  · have hka : k ≠ (a.clientId, a.clientOrderId) := by
      rintro rfl
      rw [Function.update_self] at hk
      cases hk
    rw [Function.update_of_ne hka] at hk
    rw [hother k hka]
    exact h.silent k hne hk

/-- The remainder rests with what its ledger leaves. -/
lemma InLedger.rest (h : InLedger S b es) {a : Aggressor} {qty leavesQty : Qty}
    {marketOrderId : OrderId} {priority : Priority} {o : Nat}
    (hsubmitted : S (a.clientId, a.clientOrderId) = some qty)
    (hown : Ledger marketOrderId qty (orderResponses (a.clientId, a.clientOrderId) es) leavesQty)
    (hnone : ∀ o, b.pair o ≠ (a.clientId, a.clientOrderId))
    (hframe : RestFrame a b marketOrderId leavesQty priority o b') :
    InLedger S b' (es ++ [rested a marketOrderId leavesQty priority]) := by
  have hes : ∀ k, orderResponses k (es ++ [rested a marketOrderId leavesQty priority]) =
      orderResponses k es := fun k => by simp [rested]
  have hself : b'.pair o = (a.clientId, a.clientOrderId) := by
    have hids := congrArg BookOrder.ids hframe.placed
    exact congrArg (fun ids : MEOrderIds => (ids.clientId, ids.clientOrderId)) hids
  have hother : ∀ q, q ≠ o → b'.pair q = b.pair q := fun q hq => pair_congr (hframe.order q hq)
  refine ⟨fun q hq => ?_, fun q r hq hqr => ?_, fun k q hk => ?_, fun k q hk => ?_, fun k hne hk => ?_⟩
  · rw [hes]
    by_cases hqo : q = o
    · subst hqo
      refine ⟨qty, by rw [hself]; exact hsubmitted, ?_⟩
      rw [hself, show (b'.book.order q).qty = leavesQty from congrArg BookOrder.qty hframe.placed,
        show (b'.book.order q).ids.marketOrderId = marketOrderId from
          congrArg (fun x : MEOrder => x.ids.marketOrderId) hframe.placed]
      exact hown
    · obtain ⟨hids, -, -, hqty, -⟩ := BookOrder.unlinked_eq_iff.mp (hframe.order q hqo)
      rw [hother q hqo] at hq ⊢
      rw [hids, hqty]
      exact h.orders q hq
  · by_cases hqo : q = o <;> by_cases hro : r = o
    · rw [hqo, hro]
    · rw [hqo, hself, hother r hro] at hqr
      exact absurd hqr.symm (hnone r)
    · rw [hro, hself, hother q hqo] at hqr
      exact absurd hqr (hnone q)
    · rw [hother q hqo] at hq hqr
      exact h.unique q r hq (hqr.trans (hother r hro))
  · rw [hframe.table, Function.update_apply] at hk
    split at hk
    · rename_i hkey
      cases hk
      exact ⟨hself.trans hkey.symm, (hframe.used o).mpr (.inl rfl)⟩
    · obtain ⟨rfl, hused⟩ := h.table k q hk
      exact ⟨hother q fun he => hframe.wasFree (he ▸ hused), (hframe.used q).mpr (.inr hused)⟩
  · rw [hes]
    exact h.ledgers k q hk
  · rw [hes]
    exact h.silent k hne hk

/-- A cancel closes the ledger with what is left. -/
lemma InLedger.cancel (h : InLedger S b es) {clientId : ClientId} {orderId : OrderId}
    {tickerId : TickerId} (hvalid : (clientId, orderId) ≠ invalidPair) {es' : List Event}
    (hrun : b.cancel clientId orderId tickerId = .ok (b', es')) : InLedger S b' (es ++ es') := by
  rcases cancel_cases hrun with ⟨-, rfl, rfl⟩ | ⟨o, book, hkey, hremove, rfl, rfl⟩
  · have hes : ∀ k, orderResponses k (es ++ [cancelRejected clientId orderId tickerId]) =
        orderResponses k es := fun k => by
      rw [orderResponses_append]
      simp [orderResponses, cancelRejected]
    refine ⟨fun o ho => ?_, h.unique, h.table, fun k q hk => ?_, fun k hne hk => ?_⟩
    · rw [hes]
      exact h.orders o ho
    · rw [hes]
      exact h.ledgers k q hk
    · rw [hes]
      exact h.silent k hne hk
  · obtain ⟨hpair, hused⟩ := h.table _ _ hkey
    have hf := PriceBook.removeOrder_frame hremove
    have hsame : ∀ q, ({ b with book := book } : MEOrderBook).pair q = b.pair q :=
      fun q => pair_congr (hf.order q)
    have hes : ∀ k, orderResponses k (es ++ canceled (b.book.order o) clientId orderId tickerId) =
        orderResponses k es ++ (if (clientId, orderId) = k then
          [⟨.canceled, clientId, tickerId, orderId, (b.book.order o).ids.marketOrderId,
            (b.book.order o).side, (b.book.order o).price, Qty_INVALID, (b.book.order o).qty⟩] else []) := by
      intro k
      rw [orderResponses_append, canceled, orderResponses_cons_update,
        orderResponses_cons_response (by simp)]
      rfl
    have hother : ∀ k, k ≠ (clientId, orderId) →
        orderResponses k (es ++ canceled (b.book.order o) clientId orderId tickerId) =
          orderResponses k es := fun k hk => by rw [hes, if_neg (Ne.symm hk), List.append_nil]
    obtain ⟨qty, hqty, hledger⟩ := h.orders o (hpair ▸ hvalid)
    rw [hpair] at hqty hledger
    have hown : Ledger (b.book.order o).ids.marketOrderId qty (orderResponses (clientId, orderId)
        (es ++ canceled (b.book.order o) clientId orderId tickerId)) (b.book.order o).qty := by
      rw [hes, if_pos rfl]
      exact hledger.canceled rfl rfl rfl
    refine ⟨fun q hq => ?_, fun q r hq hqr => ?_, fun k q hk => ?_, fun k q hk => ?_, fun k hne hk => ?_⟩
    · obtain ⟨hids, -, -, hq', -⟩ := BookOrder.unlinked_eq_iff.mp (hf.order q)
      rw [hsame] at hq ⊢
      rw [hids, hq']
      by_cases hqo : q = o
      · subst hqo
        rw [hpair]
        exact ⟨qty, hqty, hown⟩
      · have hne : b.pair q ≠ (clientId, orderId) := fun he =>
          hqo (h.unique q o hq (he.trans hpair.symm))
        rw [hother _ hne]
        exact h.orders q hq
    · rw [hsame] at hq hqr
      exact h.unique q r hq (hqr.trans (hsame r))
    · rw [show ({ b with book := book } : MEOrderBook).book.orderTable = book.orderTable from rfl,
        hf.table, Function.update_apply] at hk
      split at hk
      · cases hk
      · rename_i hne
        obtain ⟨rfl, hused'⟩ := h.table k q hk
        exact ⟨hsame q, (hf.used q).mpr ⟨fun he => hne (he ▸ rfl), hused'⟩⟩
    · refine ⟨(h.ledgers k q hk).1, ?_⟩
      by_cases hkc : k = (clientId, orderId)
      · subst hkc
        obtain rfl : q = qty := Option.some.inj (hk.symm.trans hqty)
        exact ⟨_, _, hown⟩
      · rw [hother k hkc]
        exact (h.ledgers k q hk).2
    · have hkc : k ≠ (clientId, orderId) := by
        rintro rfl
        rw [hqty] at hk
        cases hk
      rw [hother k hkc]
      exact h.silent k hne hk

end Calls

/-- Nothing on the opposite side can be filled. -/
def NothingCrosses (b : MEOrderBook) (side : Side) (price : Price) : Prop :=
  ∀ lvl itr, side.Trading → b.book.top side.opposite = some lvl →
    (b.book.level lvl).firstOrder = some itr → limitMissed side price (b.book.order itr).price = true

/-- The market order id, which `add` matches in place of the quantity, is no quantity at all
or the quantity itself, and the quantity, which the fills carry in place of the market order
id, is that id where a fill happens. -/
def PassesQty (b : MEOrderBook) : BookCall → Prop
  | .add _ _ _ side price qty =>
    wrap32 b.nextMarketOrderId = 0 ∨
      (wrap32 b.nextMarketOrderId = qty ∧ (b.nextMarketOrderId = qty ∨ NothingCrosses b side price))
  | .cancel .. => True

lemma add_inLedger {S : OrderPair → Option Qty} {es : List Event} (h : InLedger S b es)
    {clientId : ClientId} {clientOrderId : OrderId} {tickerId : TickerId} {side : Side} {price : Price}
    {qty : Qty} {es' : List Event} (hfree : S (clientId, clientOrderId) = none)
    (hvalid : (clientId, clientOrderId) ≠ invalidPair)
    (hpass : PassesQty b (.add clientId clientOrderId tickerId side price qty))
    (hrun : b.add clientId clientOrderId tickerId side price qty = .ok (b', es')) :
    InLedger (Function.update S (clientId, clientOrderId) (some qty)) b' (es ++ es') := by
  let a := addAggressor clientId clientOrderId tickerId side price qty
  obtain ⟨b₁, leavesQty, es₁, hmatch, hend⟩ := add_cases hrun
  have hdrawn : InLedger S b.drawn es := h.congr rfl
  obtain ⟨hledger, hown, hnone⟩ := hdrawn.accept (a := a) hfree hvalid b.nextMarketOrderId qty
  have hself : Function.update S (clientId, clientOrderId) (some qty) (clientId, clientOrderId) = some qty :=
    Function.update_self _ _ _
  generalize hes : es ++ [accepted a b.nextMarketOrderId qty] = es₀ at hledger hown
  -- either the loop fills nothing, or quantity and market order id are the same number
  obtain ⟨fills, rfl, hfilling⟩ : ∃ fills : List Fill, es₁ = fills.flatMap Fill.events ∧
      (leavesQty ≠ 0 → Ledger b.nextMarketOrderId qty (orderResponses (clientId, clientOrderId)
        (es₀ ++ fills.flatMap Fill.events)) leavesQty) ∧
      InLedger (Function.update S (clientId, clientOrderId) (some qty)) b₁
        (es₀ ++ fills.flatMap Fill.events) ∧
      ∀ o, b₁.pair o ≠ (clientId, clientOrderId) := by
    by_cases hidle : wrap32 b.nextMarketOrderId = 0 ∨
        (wrap32 b.nextMarketOrderId = qty ∧ NothingCrosses b side price)
    · have hstep : a.side.Trading → ∀ c q (f : List Fill) itr c' q',
          (c = b.drawn ∧ q = wrap32 b.nextMarketOrderId ∧ f = []) → MatchStep a c q itr c' q' →
          (c' = b.drawn ∧ q' = wrap32 b.nextMarketOrderId ∧
            f ++ [a.fill (c.book.order itr) q] = []) := by
        rintro hs c q f itr c' q' ⟨rfl, rfl, -⟩ hround
        exfalso
        rcases hidle with hzero | ⟨-, hnothing⟩
        · exact hround.leaves hzero
        · obtain ⟨lvl, htop, hfirst⟩ := hround.first
          have hlimit : limitMissed side price (b.book.order itr).price = false := hround.limit
          rw [hnothing lvl itr hs htop hfirst] at hlimit
          cases hlimit
      obtain ⟨fills, rfl, ⟨rfl, rfl, rfl⟩, -⟩ := checkForMatch_rule a hstep ⟨rfl, rfl, rfl⟩ hmatch
      refine ⟨[], rfl, ?_⟩
      rw [List.flatMap_nil, List.append_nil]
      refine ⟨fun hleaves => ?_, hledger, hnone⟩
      obtain ⟨hqty, -⟩ := hidle.resolve_left hleaves
      rw [hqty]
      exact hown
    · have hids : wrap32 b.nextMarketOrderId = qty ∧ b.nextMarketOrderId = qty := by
        rcases hpass with hzero | ⟨hqty, hid | hnothing⟩
        · exact absurd (.inl hzero) hidle
        · exact ⟨hqty, hid⟩
        · exact absurd (.inr ⟨hqty, hnothing⟩) hidle
      have hid : b.nextMarketOrderId = a.newMarketOrderId := hids.2
      rw [hid] at hown ⊢
      rw [hids.1] at hmatch
      obtain ⟨fills, rfl, hfilling, -⟩ := checkForMatch_rule a
        (P := fun c q f => Filling (Function.update S (clientId, clientOrderId) (some qty)) a qty es₀ c q f)
        (fun _ c q f itr c' q' hc hstep => hc.round hstep)
        ⟨by rwa [List.flatMap_nil, List.append_nil], hself, by rwa [List.flatMap_nil, List.append_nil],
          hnone⟩ hmatch
      exact ⟨fills, rfl, fun _ => hfilling.own, hfilling.ledger, hfilling.notResting⟩
  obtain ⟨hown₁, hledger₁, hnone₁⟩ := hfilling
  rcases hend with ⟨-, rfl, rfl⟩ | ⟨hleaves, priority, o, hrests, rfl⟩
  · rw [List.append_cons, hes]
    exact hledger₁
  · have hrest := hledger₁.rest (a := a) hself (hown₁ hleaves) hnone₁ hrests.frame
    rw [List.cons_append, List.append_cons, hes, ← List.append_assoc]
    exact hrest

end MEOrderBook

/-- Identifiers in range, and a pair that was never submitted before. -/
def FreshPair (log : List (BookCall × List Event)) : BookCall → Prop
  | .add clientId clientOrderId _ _ _ _ =>
    clientId < ME_MAX_NUM_CLIENTS ∧ clientOrderId < ME_MAX_ORDER_IDS ∧
      submittedQty log (clientId, clientOrderId) = none
  | .cancel clientId orderId _ => clientId < ME_MAX_NUM_CLIENTS ∧ orderId < ME_MAX_ORDER_IDS

structure LedgerStep (log : List (BookCall × List Event)) (b : MEOrderBook) (call : BookCall)
    (_ : List Event) : Prop where
  fresh : FreshPair log call
  passes : PassesQty b call

abbrev LedgerRun (tickerId : TickerId) (log : List (BookCall × List Event)) (b : MEOrderBook) : Prop :=
  Reached MEOrderBook.call LedgerStep (MEOrderBook.create tickerId) log b

/-- Each pair has a ledger, and while its order rests the order's quantity is what the ledger leaves. -/
def LedgersHold (log : List (BookCall × List Event)) (b : MEOrderBook) : Prop :=
  ∀ key qty, submittedQty log key = some qty → ∃ marketOrderId leavesQty,
    Ledger marketOrderId qty (orderResponses key (sent log)) leavesQty ∧
    ∀ o, b.book.orderPool.Used o → b.pair o = key → (b.book.order o).qty = leavesQty

lemma ne_invalidPair {clientId : ClientId} (h : clientId < ME_MAX_NUM_CLIENTS) (orderId : OrderId) :
    (clientId, orderId) ≠ invalidPair := by
  intro he
  have hclient : clientId = ClientId_INVALID := congrArg Prod.fst he
  rw [hclient] at h
  exact absurd h (by decide)

lemma LedgerRun.inLedger {tickerId : TickerId} {log : List (BookCall × List Event)} {b : MEOrderBook}
    (h : LedgerRun tickerId log b) : InLedger (submittedQty log) b (sent log) := by
  refine h.invariant (fun log b => InLedger (submittedQty log) b (sent log)) ?_ ?_
  · refine ⟨fun o ho => absurd rfl ho, fun o q ho => absurd rfl ho, fun k o hk => ?_, fun k q hk => ?_,
      fun k _ _ => rfl⟩
    · cases hk
    · cases hk
  · intro log b call b' es hin hstep hrun
    rw [sent_append, sent_singleton]
    cases call with
    | add clientId clientOrderId tickerId side price qty =>
      obtain ⟨hclient, -, hfree⟩ := hstep.fresh
      have hsubmitted : submittedQty (log ++ [(.add clientId clientOrderId tickerId side price qty, es)]) =
          Function.update (submittedQty log) (clientId, clientOrderId) (some qty) := by
        funext k
        rw [submittedQty_append]
        by_cases hk : k = (clientId, clientOrderId)
        · subst hk
          rw [hfree, Function.update_self]
          simp [submittedQty]
        · rw [Function.update_of_ne hk]
          simp [submittedQty, Ne.symm hk]
      rw [hsubmitted]
      exact add_inLedger hin hfree (ne_invalidPair hclient clientOrderId) hstep.passes hrun
    | cancel clientId orderId tickerId =>
      have hsubmitted : submittedQty (log ++ [(.cancel clientId orderId tickerId, es)]) = submittedQty log := by
        funext k
        rw [submittedQty_append]
        simp [submittedQty]
      rw [hsubmitted]
      exact hin.cancel (ne_invalidPair hstep.fresh.1 orderId) hrun

/-- In every state of a run, the responses of an order account for the quantity it was
submitted with. -/
theorem quantity_ledger {tickerId : TickerId} {log : List (BookCall × List Event)} {b : MEOrderBook}
    (h : LedgerRun tickerId log b) : LedgersHold log b := by
  intro key qty hqty
  have hin := h.inLedger
  obtain ⟨hvalid, hledger⟩ := hin.ledgers key qty hqty
  by_cases hrests : ∃ o, b.book.orderPool.Used o ∧ b.pair o = key
  · obtain ⟨o, -, rfl⟩ := hrests
    obtain ⟨q, hq, hown⟩ := hin.orders o hvalid
    obtain rfl : q = qty := Option.some.inj (hq.symm.trans hqty)
    refine ⟨_, _, hown, fun r _ hr => ?_⟩
    rw [hin.unique o r hvalid hr.symm]
  · obtain ⟨marketOrderId, leavesQty, hown⟩ := hledger
    exact ⟨marketOrderId, leavesQty, hown, fun o hused ho => absurd ⟨o, hused, ho⟩ hrests⟩

/-- Quantities that equal the market order ids, here with a fill. -/
lemma crossingLog_ledgerRun : ∃ b, LedgerRun 0 crossingLog b := by
  refine ⟨_, .next (.next .start ⟨?_, ?_⟩ rfl) ⟨?_, ?_⟩ rfl⟩
  · exact ⟨by decide, by decide, rfl⟩
  · exact .inr ⟨rfl, .inl rfl⟩
  · exact ⟨by decide, by decide, rfl⟩
  · exact .inr ⟨rfl, .inl rfl⟩

theorem quantity_ledger_crossing : ∃ b, LedgersHold crossingLog b := by
  obtain ⟨b, hrun⟩ := crossingLog_ledgerRun
  exact ⟨b, quantity_ledger hrun⟩

lemma Ledger.leaves_of_singleton {marketOrderId : OrderId} {qty leavesQty : Qty} {r : MEClientResponse}
    (h : Ledger marketOrderId qty [r] leavesQty) : leavesQty = qty := by
  have hempty : ∀ q, ¬Ledger marketOrderId qty [] q := by
    intro q hq
    generalize hrs : ([] : List MEClientResponse) = rs at hq
    cases hq <;> simp at hrs
  generalize hrs : [r] = rs at h
  cases h with
  | accepted => rfl
  | @filled rs q r' hprev =>
    obtain rfl : rs = [] := by simpa using congrArg List.length hrs
    exact absurd hprev (hempty _)
  | @canceled rs q r' hprev =>
    obtain rfl : rs = [] := by simpa using congrArg List.length hrs
    exact absurd hprev (hempty _)

/-- A first order of ten rests with one, its market order id. -/
theorem quantity_ledger_fails : ∃ log b,
    Reached MEOrderBook.call (fun log b call es => CallStep log b call es ∧ FreshPair log call)
      (MEOrderBook.create 0) log b ∧ ¬LedgersHold log b := by
  refine ⟨[(.add 1 1 0 .buy 100 10,
    [.response ⟨.accepted, 1, 0, 1, 1, .buy, 100, 0, 10⟩, .update ⟨.add, 1, 0, .buy, 100, 1, 1⟩])], _,
    .next .start ⟨⟨?_, ?_⟩, ?_⟩ rfl, fun hledgers => ?_⟩
  · decide
  · decide
  · exact ⟨by decide, by decide, rfl⟩
  · obtain ⟨marketOrderId, leavesQty, hledger, hrest⟩ := hledgers (1, 1) 10 rfl
    have hleaves := hledger.leaves_of_singleton
    have hqty := hrest 0 rfl rfl
    rw [hleaves] at hqty
    exact absurd hqty (by decide)

end LowLatencyExchange
