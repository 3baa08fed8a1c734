import LowLatencyExchange.Book.Scan
import LowLatencyExchange.Library.SortedMap
import LowLatencyExchange.MarketData.Snapshot
import Mathlib.Data.List.Dedup

/-!
# The live orders of a stream

The updates of one ticker leave a list of live orders, in order of arrival. `Stream` is what
is asked of such updates. The snapshot synthesizer holds exactly these orders, and since ids
grow with every `ADD`, its snapshot sends them in the order they arrived.
-/

namespace LowLatencyExchange

/-- The live orders after an update, each as the `ADD` that would place it now. -/
def seeUpdate (live : List MEMarketUpdate) (u : MEMarketUpdate) : List MEMarketUpdate :=
  match u.type with
  | .add => live ++ [u]
  | .modify => live.map fun x => if x.orderId = u.orderId then { x with qty := u.qty } else x
  | .cancel => live.filter fun x => x.orderId ≠ u.orderId
  | _ => live

def liveAfter (live us : List MEMarketUpdate) : List MEMarketUpdate := us.foldl seeUpdate live

@[simp] lemma liveAfter_nil (live : List MEMarketUpdate) : liveAfter live [] = live := rfl
@[simp] lemma liveAfter_cons (live : List MEMarketUpdate) (u : MEMarketUpdate) (us : List MEMarketUpdate) :
    liveAfter live (u :: us) = liveAfter (seeUpdate live u) us := rfl

/-- An update that may come next: `ADD` brings an id above those of the live orders, `MODIFY`
and `CANCEL` name a live order, and `MODIFY` keeps its side and price. -/
def Continues (tickerId : TickerId) (live : List MEMarketUpdate) (u : MEMarketUpdate) : Prop :=
  u.tickerId = tickerId ∧
  match u.type with
  | .add => ∀ x ∈ live, x.orderId < u.orderId
  | .modify => ∃ x ∈ live, x.orderId = u.orderId ∧ x.side = u.side ∧ x.price = u.price
  | .cancel => ∃ x ∈ live, x.orderId = u.orderId
  | _ => False

/-- Orders that may be live at one time: no two prices collide, bids are below asks, and the
pools of a client can hold them. A pool keeps one block back. -/
structure Quotable (live : List MEMarketUpdate) : Prop where
  trading : ∀ x ∈ live, x.side.Trading
  inTable : ∀ x ∈ live, x.orderId < ME_MAX_ORDER_IDS
  distinct : ∀ x ∈ live, ∀ y ∈ live, priceToIndex x.price = priceToIndex y.price → x.price = y.price
  uncrossed : ∀ x ∈ live, ∀ y ∈ live, x.side = .buy → y.side = .sell → x.price < y.price
  orders : live.length < ME_MAX_ORDER_IDS
  levels : (live.map MEMarketUpdate.price).dedup.length < ME_MAX_PRICE_LEVELS

/-- A stream of updates of one ticker. -/
def Stream (tickerId : TickerId) (live : List MEMarketUpdate) : List MEMarketUpdate → Prop
  | [] => True
  | u :: us =>
    Continues tickerId live u ∧ Quotable (seeUpdate live u) ∧ Stream tickerId (seeUpdate live u) us

/-- The live orders are `ADD`s of the ticker, by increasing id. -/
structure Arrived (tickerId : TickerId) (live : List MEMarketUpdate) : Prop where
  adds : ∀ x ∈ live, x.type = .add ∧ x.tickerId = tickerId
  sorted : (live.map MEMarketUpdate.orderId).Pairwise (· < ·)

section Live
variable {t : TickerId} {live us : List MEMarketUpdate} {u : MEMarketUpdate}

lemma arrived_nil (t : TickerId) : Arrived t [] := ⟨by simp, by simp⟩

lemma Quotable.sublist {live' : List MEMarketUpdate} (h : Quotable live) (hsub : live'.Sublist live) :
    Quotable live' where
  trading := fun x hx => h.trading x (hsub.subset hx)
  inTable := fun x hx => h.inTable x (hsub.subset hx)
  distinct := fun x hx y hy => h.distinct x (hsub.subset hx) y (hsub.subset hy)
  uncrossed := fun x hx y hy => h.uncrossed x (hsub.subset hx) y (hsub.subset hy)
  orders := lt_of_le_of_lt hsub.length_le h.orders
  levels := by
    refine lt_of_le_of_lt (List.Subperm.length_le ?_) h.levels
    apply List.subperm_of_subset (List.nodup_dedup _)
    intro p hp
    rw [List.mem_dedup] at hp ⊢
    exact (hsub.map _).subset hp

/-- Live orders are told apart by their ids. -/
lemma Arrived.ext (h : Arrived t live) {x y : MEMarketUpdate} (hx : x ∈ live) (hy : y ∈ live)
    (hid : x.orderId = y.orderId) : x = y :=
  List.inj_on_of_nodup_map (h.sorted.imp fun hlt => Nat.ne_of_lt hlt) hx hy hid

lemma Arrived.nodup (h : Arrived t live) : live.Nodup :=
  List.Nodup.of_map _ (h.sorted.imp fun hlt => Nat.ne_of_lt hlt)

lemma Arrived.next (h : Arrived t live) (hu : Continues t live u) : Arrived t (seeUpdate live u) := by
  obtain ⟨hticker, hu⟩ := hu
  unfold seeUpdate
  cases htype : u.type with
  | add =>
    simp only [htype] at hu
    refine ⟨fun x hx => ?_, ?_⟩
    · rcases List.mem_append.mp hx with hx | hx
      · exact h.adds x hx
      · obtain rfl := List.mem_singleton.mp hx
        exact ⟨htype, hticker⟩
    · rw [List.map_append, List.map_singleton, List.pairwise_append]
      refine ⟨h.sorted, by simp, fun i hi j hj => ?_⟩
      obtain ⟨x, hx, rfl⟩ := List.mem_map.mp hi
      obtain rfl := List.mem_singleton.mp hj
      exact hu x hx
  | modify =>
    refine ⟨fun x hx => ?_, ?_⟩
    · obtain ⟨y, hy, rfl⟩ := List.mem_map.mp hx
      split <;> exact h.adds y hy
    · have hids : (live.map fun x => if x.orderId = u.orderId then { x with qty := u.qty } else x).map
          MEMarketUpdate.orderId = live.map MEMarketUpdate.orderId := by
        rw [List.map_map]
        apply List.map_congr_left
        intro x _
        rw [Function.comp_apply]
        split <;> rfl
      rw [hids]
      exact h.sorted
  | cancel =>
    exact ⟨fun x hx => h.adds x (List.mem_of_mem_filter hx), h.sorted.sublist (List.filter_sublist.map _)⟩
  | _ => exact h

lemma Arrived.after (h : Arrived t live) (hus : Stream t live us) : Arrived t (liveAfter live us) := by
  induction us generalizing live with
  | nil => exact h
  | cons u us ih => exact ih (h.next hus.1) hus.2.2

lemma Stream.quotable (hus : Stream t live us) (h : Quotable live) : Quotable (liveAfter live us) := by
  induction us generalizing live with
  | nil => exact h
  | cons u us ih => exact ih hus.2.2 hus.2.1

lemma quotable_nil : Quotable [] :=
  ⟨by simp, by simp, by simp, by simp, by decide, by decide⟩

/-- Live orders are a stream themselves, which leaves them live again. -/
lemma Arrived.stream (before : List MEMarketUpdate) (h : Arrived t (before ++ live))
    (hq : Quotable (before ++ live)) :
    Stream t before live ∧ liveAfter before live = before ++ live := by
  induction live generalizing before with
  | nil => exact ⟨trivial, (List.append_nil before).symm⟩
  | cons u live ih =>
    have hsplit : before ++ u :: live = (before ++ [u]) ++ live := by simp
    obtain ⟨htype, hticker⟩ := h.adds u (by simp)
    have hsee : seeUpdate before u = before ++ [u] := by
      simp only [seeUpdate, htype]
    rw [hsplit] at h hq
    obtain ⟨hstream, hafter⟩ := ih (before ++ [u]) h hq
    refine ⟨⟨⟨hticker, ?_⟩, ?_, ?_⟩, ?_⟩
    · simp only [htype]
      have hsorted := (List.pairwise_append.mp (List.map_append ▸ h.sorted)).1
      rw [List.map_append, List.pairwise_append] at hsorted
      exact fun x hx => hsorted.2.2 _ (List.mem_map_of_mem hx) _ (by simp)
    · rw [hsee]
      exact hq.sublist (List.sublist_append_left _ _)
    · rwa [hsee]
    · rw [liveAfter_cons, hsee, hafter, hsplit]

end Live

namespace OrderMap
variable {m : OrderMap} {t : TickerId} {live us : List MEMarketUpdate} {u : MEMarketUpdate}

/-- The row of a ticker holds these orders. -/
def RowOf (m : OrderMap) (tickerId : TickerId) (live : List MEMarketUpdate) : Prop :=
  ∀ i x, m tickerId i = some x ↔ x ∈ live ∧ x.orderId = i

lemma RowOf.next (h : RowOf m t live) (harrived : Arrived t live) (hu : Continues t live u) :
    RowOf (m.apply u) t (seeUpdate live u) := by
  obtain ⟨rfl, hu⟩ := hu
  intro i x
  unfold OrderMap.apply seeUpdate
  cases htype : u.type with
  | add =>
    simp only [htype] at hu
    simp only [set_apply, true_and, List.mem_append, List.mem_singleton]
    by_cases hi : i = u.orderId
    · rw [if_pos hi, hi]
      constructor
      · rintro hx
        obtain rfl := Option.some.inj hx
        exact ⟨.inr rfl, rfl⟩
      · rintro ⟨hx | rfl, hid⟩
        · exact absurd hid (Nat.ne_of_lt (hu x hx))
        · rfl
    · rw [if_neg hi, h]
      constructor
      · exact fun hx => ⟨.inl hx.1, hx.2⟩
      · rintro ⟨hx | rfl, hid⟩
        · exact ⟨hx, hid⟩
        · exact absurd hid.symm hi
  | modify =>
    simp only [htype] at hu
    obtain ⟨y, hy, hid, -, hprice⟩ := hu
    have hrow := (h u.orderId y).mpr ⟨hy, hid⟩
    simp only [set_apply, true_and, hrow, Option.map_some, List.mem_map]
    by_cases hi : i = u.orderId
    · rw [if_pos hi, hi, ← hprice]
      constructor
      · rintro hx
        obtain rfl := Option.some.inj hx
        exact ⟨⟨y, hy, if_pos hid⟩, hid⟩
      · rintro ⟨⟨z, hz, rfl⟩, hzid⟩
        have hzid : z.orderId = u.orderId := by
          split at hzid <;> exact hzid
        obtain rfl := harrived.ext hz hy (hzid.trans hid.symm)
        rw [if_pos hzid]
    · rw [if_neg hi, h]
      constructor
      · rintro ⟨hx, hxid⟩
        refine ⟨⟨x, hx, if_neg ?_⟩, hxid⟩
        rwa [hxid]
      · rintro ⟨⟨z, hz, rfl⟩, hzid⟩
        by_cases hzu : z.orderId = u.orderId
        · rw [if_pos hzu] at hzid
          exact absurd (hzid.symm.trans hzu) hi
        · rw [if_neg hzu] at hzid ⊢
          exact ⟨hz, hzid⟩
  | cancel =>
    simp only [set_apply, true_and, List.mem_filter, decide_eq_true_eq]
    by_cases hi : i = u.orderId
    · rw [if_pos hi, hi]
      constructor
      · intro hx
        cases hx
      · rintro ⟨⟨-, hne⟩, hid⟩
        exact absurd hid hne
    · rw [if_neg hi, h]
      constructor
      · rintro ⟨hx, rfl⟩
        exact ⟨⟨hx, hi⟩, rfl⟩
      · exact fun hx => ⟨hx.1.1, hx.2⟩
  | _ => simp only [htype] at hu

lemma RowOf.after (h : RowOf m t live) (harrived : Arrived t live) (hus : Stream t live us) :
    RowOf (m.applyAll us) t (liveAfter live us) := by
  induction us generalizing m live with
  | nil => exact h
  | cons u us ih => exact ih (h.next harrived hus.1) (harrived.next hus.1) hus.2.2

/-- Both lists are sorted by id and have the same members. -/
lemma RowOf.adds_eq (h : RowOf m t live) (hm : m.Proper) (harrived : Arrived t live) :
    (List.range ME_MAX_ORDER_IDS).filterMap (m t) = live := by
  refine (List.pairwise_map.mp (adds_sorted hm t)).eq_of_mem (fun _ _ => Nat.lt_asymm)
    (List.pairwise_map.mp harrived.sorted) fun x => ?_
  rw [mem_adds hm, h]
  exact and_iff_left rfl

end OrderMap

lemma map_numbered (n : Nat) (us : List MEMarketUpdate) :
    (numbered n us).map MDPMarketUpdate.meMarketUpdate = us := by
  induction us generalizing n with
  | nil => rfl
  | cons u us ih => rw [numbered, List.map_cons, ih]

lemma Stream.type_ne_clear {t : TickerId} {live us : List MEMarketUpdate} (h : Stream t live us) :
    ∀ u ∈ us, u.type ≠ .clear := by
  induction us generalizing live with
  | nil => simp
  | cons u us ih =>
    intro x hx
    rcases List.mem_cons.mp hx with rfl | hx
    · intro hclear
      have hnext := h.1.2
      simp only [hclear] at hnext
    · exact ih h.2.2 x hx

namespace SnapshotSynthesizer
variable {s : SnapshotSynthesizer} {t : TickerId} {us : List MEMarketUpdate}

/-- The `ADD`s that `publishSnapshot` sends for a ticker. -/
def snapshotAdds (s : SnapshotSynthesizer) (tickerId : TickerId) : List MEMarketUpdate :=
  (s.publishSnapshot.map MDPMarketUpdate.meMarketUpdate).filter fun u =>
    u.type = .add ∧ u.tickerId = tickerId

lemma snapshotAdds_held (h : s.held.Proper) (ht : t < ME_MAX_TICKERS) :
    s.snapshotAdds t = (List.range ME_MAX_ORDER_IDS).filterMap (s.held t) := by
  have hadds : ((List.range ME_MAX_ORDER_IDS).filterMap (s.held t)).filter (fun u => u.type = .add) =
      (List.range ME_MAX_ORDER_IDS).filterMap (s.held t) := by
    apply List.filter_eq_self.mpr
    intro u hu
    obtain ⟨i, -, hi⟩ := List.mem_filterMap.mp hu
    exact decide_eq_true (h.entry t i u hi).1
  have hbook : s.held.bookUpdates.filter (fun u => u.type = .add ∧ u.tickerId = t) =
      (List.range ME_MAX_ORDER_IDS).filterMap (s.held t) := by
    have hboth : (fun u : MEMarketUpdate => decide (u.type = .add ∧ u.tickerId = t)) =
        fun u => decide (u.type = .add) && decide (u.tickerId = t) := by
      funext u
      exact Bool.decide_and _ _
    rw [hboth, ← List.filter_filter, OrderMap.filter_bookUpdates h ht, OrderMap.tickerUpdates,
      List.filter_cons_of_neg (by simp), hadds]
  have hupdates : s.publishSnapshot.map MDPMarketUpdate.meMarketUpdate =
      s.held.snapshot s.lastIncSeqNum := by
    rw [publishSnapshot_eq, List.map_map, Function.comp_def]
    exact List.zipIdx_map_fst 0 _
  rw [snapshotAdds, hupdates, OrderMap.snapshot, List.filter_append, List.filter_cons_of_neg, hbook,
    List.filter_cons_of_neg]
  · simp
  · simp [snapshotEnd]
  · simp [snapshotStart]

/-- A synthesizer that has taken a stream in sends its live orders, in order of arrival. -/
theorem snapshotAdds_eq (ht : t < ME_MAX_TICKERS) (hstream : Stream t [] us)
    (hsynth : create.addAllToSnapshot (numbered 0 us) = .ok s) : s.snapshotAdds t = liveAfter [] us := by
  obtain ⟨hwf, hheld⟩ := addAllToSnapshot_cases wellFormed_create hsynth
  have hkept : us.filter (fun u => u.type ≠ .clear) = us :=
    List.filter_eq_self.mpr fun u hu => by simpa using hstream.type_ne_clear u hu
  rw [map_numbered, hkept, held_create] at hheld
  have hempty : OrderMap.RowOf OrderMap.empty t [] := fun i x => by simp [OrderMap.empty]
  have hrow := hempty.after (arrived_nil t) hstream
  rw [← hheld] at hrow
  rw [snapshotAdds_held hwf.proper ht]
  exact hrow.adds_eq hwf.proper ((arrived_nil t).after hstream)

end SnapshotSynthesizer
end LowLatencyExchange
