import LowLatencyExchange.Book.Rotation
import LowLatencyExchange.Trading.BestPrices

/-!
# A client book on pools that were used before

`onMarketUpdate` reads the pools only through pointers it was given, so a book whose pools start at other
blocks makes the same calls, shows the same best prices and stops at the same update. This holds for every
list of updates, also for those no exchange sends.
-/

namespace LowLatencyExchange
open Simulation PriceBook LoggedRun
namespace MarketOrderBook
variable {ρ τ : Rotation} {L O : Set Nat} {b c : MarketBook} {T U : MarketOrderBook}

section Switch
variable (h : PriceBook.Turned ρ τ L O b c)
include h

lemma sumQtyLoop_turned {first first' : Nat} (hfirst : τ.Moved O first first') (fuel : Nat) {v w : Option Nat}
    (hv : Option.Rel (τ.Moved O) v w) (qty : Qty) :
    Matches (fun q q' => q' = q) (FaultsTurned ρ τ) (sumQtyLoop b first fuel v qty)
      (sumQtyLoop c first' fuel w qty) := by
  induction fuel generalizing v w qty with
  | zero => exact .error (.inl (.same _))
  | succ fuel ih =>
    rw [sumQtyLoop, sumQtyLoop]
    apply Matches.ite (moved_eq_iff hv (.some hfirst))
    · intro _
      exact matches_pure rfl
    · intro _
      apply (matches_deref hv).bind
      intro itr itr' hitr
      rw [(h.order hitr).qty]
      exact ih (h.order hitr).nextOrder _

lemma bestOf_turned (s : Side) :
    Matches (fun r r' => r' = r) (FaultsTurned ρ τ) (bestOf b s) (bestOf c s) := by
  unfold bestOf
  have htop := h.top s
  revert htop
  generalize b.top s = v
  generalize c.top s = w
  intro htop
  cases htop with
  | none => exact matches_pure rfl
  | @some best best' hbest =>
    apply (matches_deref (h.level hbest).firstOrder).bind
    intro first first' hfirst
    rw [h.orders.size, h.orders.size', (h.order hfirst).qty, (h.level hbest).price]
    apply (sumQtyLoop_turned h hfirst _ (h.order hfirst).nextOrder _).bind
    rintro qty _ rfl
    exact matches_pure rfl

lemma updateBBO_turned (bbo : BBO) (bid ask : Bool) :
    Matches (fun r r' => r' = r) (FaultsTurned ρ τ) (updateBBO b bbo bid ask) (updateBBO c bbo bid ask) := by
  unfold updateBBO
  have hask : ∀ bbo : BBO, Matches (fun r r' : BBO => r' = r) (FaultsTurned ρ τ)
      (if ask then bestOf b .sell >>= fun best => pure { bbo with askPrice := best.1, askQty := best.2 } else pure bbo)
      (if ask then bestOf c .sell >>= fun best => pure { bbo with askPrice := best.1, askQty := best.2 } else pure bbo) := by
    intro bbo
    apply Matches.ite Iff.rfl
    · intro _
      apply (bestOf_turned h .sell).bind
      rintro r _ rfl
      exact matches_pure rfl
    · intro _
      exact matches_pure rfl
  apply Matches.ite Iff.rfl
  · intro _
    apply (bestOf_turned h .buy).bind
    rintro r _ rfl
    exact hask _
  · intro _
    exact hask _

lemma lookupOrder_turned (orderId : OrderId) :
    Matches (Option.Rel (τ.Moved O)) (FaultsTurned ρ τ) (lookupOrder b orderId) (lookupOrder c orderId) := by
  unfold lookupOrder
  apply Matches.ite Iff.rfl
  · intro _
    exact matches_pure (h.table orderId)
  · intro _
    exact .error (.inl (.same _))

lemma clearOrders_turned :
    Matches (PriceBook.Turned ρ τ L O) (FaultsTurned ρ τ) (clearOrders b) (clearOrders c) := by
  unfold clearOrders
  apply Matches.bind (R := MemPool.Turned τ O (BookOrder.Turned (τ.Moved O)))
  · refine Matches.foldlM ?_ (List.range ME_MAX_ORDER_IDS) h.orders
    intro pool pool' orderId hpool
    have hslot := h.table orderId
    revert hslot
    generalize b.orderTable orderId = v
    generalize c.orderTable orderId = w
    intro hslot
    cases hslot with
    | none => exact matches_pure hpool
    | some horder =>
      dsimp only
      rw [horder.2]
      exact (hpool.deallocate _).mono (fun _ _ => id) fun _ _ => .inr
  · intro pool pool' hpool
    exact matches_pure ⟨h.levels, hpool, h.top, h.prices, fun _ => .none⟩

omit h in
lemma clearLevelsLoop_turned {best best' itr itr' : Nat} (hbest : ρ.Moved L best best') (hitr : ρ.Moved L itr itr')
    (fuel : Nat) {pool pool' : MemPool OrdersAtPrice}
    (hpool : pool.Turned ρ L (OrdersAtPrice.Turned (ρ.Moved L) (τ.Moved O)) pool') :
    Matches (MemPool.Turned ρ L (OrdersAtPrice.Turned (ρ.Moved L) (τ.Moved O))) (FaultsTurned ρ τ)
      (clearLevelsLoop best itr fuel pool) (clearLevelsLoop best' itr' fuel pool') := by
  induction fuel generalizing pool pool' with
  | zero => exact .error (.inl (.same _))
  | succ fuel ih =>
    rw [clearLevelsLoop, clearLevelsLoop]
    apply Matches.ite (hitr.eq_iff hbest)
    · intro _
      exact matches_pure hpool
    · intro _
      rw [hitr.2]
      apply ((hpool.deallocate itr).mono (fun _ _ => id) fun _ _ => .inl).bind
      intro pool pool' hpool
      rw [← hitr.2]
      exact ih hpool

lemma clearLevels_turned (s : Side) :
    Matches (PriceBook.Turned ρ τ L O) (FaultsTurned ρ τ) (clearLevels b s) (clearLevels c s) := by
  unfold clearLevels
  have htop := h.top s
  revert htop
  generalize b.top s = v
  generalize c.top s = w
  intro htop
  cases htop with
  | none => exact matches_pure h
  | @some best best' hbest =>
    have hnext := (h.level hbest).nextEntry
    simp only
    revert hnext
    generalize (b.level best).nextEntry = v
    generalize (c.level best').nextEntry = w
    intro hnext
    cases hnext with
    | none => exact .error (.inl (.same _))
    | some hsecond =>
      simp only [h.levels.size, h.levels.size']
      apply (clearLevelsLoop_turned hbest hsecond _ h.levels).bind
      intro pool pool' hpool
      have h₁ : PriceBook.Turned ρ τ L O (b.setLevelPool pool) (c.setLevelPool pool') :=
        ⟨hpool, h.orders, h.top, h.prices, h.table⟩
      exact h₁.deallocateLevel hbest

/-- The branches of the `switch`, also those that end the process. -/
theorem applyUpdate_turned (u : MEMarketUpdate) :
    Matches (fun b' c' => ∃ L' O', PriceBook.Turned ρ τ L' O' b' c') (FaultsTurned ρ τ) (applyUpdate b u)
      (applyUpdate c u) := by
  unfold applyUpdate
  split
  · have hnew : BookOrder.Turned (τ.Moved O)
        (⟨⟨u.orderId⟩, u.side, u.price, u.qty, u.priority, none, none⟩ : MarketOrder)
        ⟨⟨u.orderId⟩, u.side, u.price, u.qty, u.priority, none, none⟩ := ⟨rfl, rfl, rfl, rfl, rfl, .none, .none⟩
    apply (h.allocateOrder hnew).bind
    rintro ⟨pool, o⟩ ⟨pool', o'⟩ ⟨O', ho, h₁⟩
    apply (h₁.addOrder ho).mono
    · rintro b₂ c₂ ⟨L', h₂⟩
      exact ⟨L', O', h₂⟩
    · exact fun _ _ => id
  · apply (lookupOrder_turned h u.orderId).bind
    intro slot slot' hslot
    apply (matches_deref hslot).bind
    intro o o' ho
    exact matches_pure ⟨L, O, h.setQty ho u.qty⟩
  · apply (lookupOrder_turned h u.orderId).bind
    intro slot slot' hslot
    apply (matches_deref hslot).bind
    intro o o' ho
    exact (h.removeOrder ho).mono (fun _ _ h₁ => ⟨L, O, h₁⟩) fun _ _ => id
  · apply (clearOrders_turned h).bind
    intro b₁ c₁ h₁
    apply (clearLevels_turned h₁ .buy).bind
    intro b₂ c₂ h₂
    apply (clearLevels_turned h₂ .sell).bind
    intro b₃ c₃ h₃
    exact matches_pure ⟨L, O, (h₃.setTop .buy .none).setTop .sell .none⟩
  · exact matches_pure ⟨L, O, h⟩

lemma bestUpdated_turned (s : Side) (u : MEMarketUpdate) : bestUpdated c s u = bestUpdated b s u := by
  unfold bestUpdated
  have htop := h.top s
  revert htop
  generalize b.top s = v
  generalize c.top s = w
  intro htop
  cases htop with
  | none => rfl
  | some hbest => simp only [(h.level hbest).price]

end Switch

/-- The same book on pools that start elsewhere, with the same best prices shown. -/
structure Turned (ρ τ : Rotation) (T U : MarketOrderBook) : Prop where
  book : ∃ L O, PriceBook.Turned ρ τ L O T.book U.book
  bbo : U.bbo = T.bbo

theorem Turned.onMarketUpdate (h : Turned ρ τ T U) (u : MEMarketUpdate) :
    Matches (fun r r' => r'.2 = r.2 ∧ Turned ρ τ r.1 r'.1) (FaultsTurned ρ τ) (T.onMarketUpdate u)
      (U.onMarketUpdate u) := by
  obtain ⟨L, O, hbook⟩ := h.book
  unfold MarketOrderBook.onMarketUpdate
  simp only [bestUpdated_turned hbook]
  apply Matches.ite Iff.rfl
  · intro _
    exact matches_pure ⟨rfl, h⟩
  · intro _
    apply (applyUpdate_turned hbook u).bind
    rintro b₁ c₁ ⟨L', O', h₁⟩
    rw [h.bbo]
    apply (updateBBO_turned h₁ T.bbo _ _).bind
    rintro bbo _ rfl
    rw [logUpdate_ok, logUpdate_ok, ok_bind, ok_bind]
    exact matches_pure ⟨rfl, ⟨L', O', h₁⟩, rfl⟩

/-- Two books of which one is the other on turned pools answer every list of updates alike. -/
theorem Turned.execute (h : Turned ρ τ T U) (us : List MEMarketUpdate) :
    Matches (fun r r' => r'.2 = r.2 ∧ Turned ρ τ r.1 r'.1) (FaultsTurned ρ τ)
      (execute MarketOrderBook.onMarketUpdate T us) (execute MarketOrderBook.onMarketUpdate U us) :=
  Matches.execute (fun _ _ u hTU => hTU.onMarketUpdate u) us h

end MarketOrderBook
end LowLatencyExchange
