import LowLatencyExchange.MarketData.SnapshotSynthesizer

/-!
# Snapshots of an order map

What `publishSnapshot` sends, in terms of the map the synthesizer holds, and what a client
gets from it: the updates between `SNAPSHOT_START` and `SNAPSHOT_END` rebuild the map from
whatever a client held before.
-/

namespace LowLatencyExchange

def snapshotStart (n : Nat) : MEMarketUpdate := { type := .snapshotStart, orderId := n }
def snapshotEnd (n : Nat) : MEMarketUpdate := { type := .snapshotEnd, orderId := n }

namespace OrderMap

/-- The `CLEAR` of a ticker and the `ADD`s of its orders. -/
def tickerUpdates (m : OrderMap) (tickerId : TickerId) : List MEMarketUpdate :=
  { type := .clear, tickerId := tickerId } :: (List.range ME_MAX_ORDER_IDS).filterMap (m tickerId)

/-- What a client is handed of a snapshot. -/
def bookUpdates (m : OrderMap) : List MEMarketUpdate :=
  (List.range ME_MAX_TICKERS).flatMap m.tickerUpdates

/-- The snapshot after `n` updates. -/
def snapshot (m : OrderMap) (n : Nat) : List MEMarketUpdate :=
  snapshotStart n :: m.bookUpdates ++ [snapshotEnd n]

/-- The entries are `ADD`s of the order they stand under, and inside the synthesizer's arrays. -/
structure Proper (m : OrderMap) : Prop where
  entry : ∀ t i x, m t i = some x → x.type = .add ∧ x.tickerId = t ∧ x.orderId = i
  inTable : ∀ t i x, m t i = some x → t < ME_MAX_TICKERS ∧ i < ME_MAX_ORDER_IDS

lemma proper_empty : empty.Proper where
  entry := fun _ _ _ h => by cases h
  inTable := fun _ _ _ h => by cases h

/-- An `ADD` is for an order that the synthesizer's arrays have. -/
def InTable (u : MEMarketUpdate) : Prop :=
  u.type = .add → u.tickerId < ME_MAX_TICKERS ∧ u.orderId < ME_MAX_ORDER_IDS

variable {m g : OrderMap}

lemma Proper.set (h : m.Proper) {t : TickerId} {i : OrderId} {v : Option MEMarketUpdate}
    (hv : ∀ x, v = some x → (x.type = .add ∧ x.tickerId = t ∧ x.orderId = i) ∧
      t < ME_MAX_TICKERS ∧ i < ME_MAX_ORDER_IDS) : (m.set t i v).Proper := by
  refine ⟨fun t' i' x hx => ?_, fun t' i' x hx => ?_⟩ <;> rw [set_apply] at hx <;> split at hx
  · rename_i he
    exact he.1 ▸ he.2 ▸ (hv x hx).1
  · exact h.entry t' i' x hx
  · rename_i he
    exact he.1 ▸ he.2 ▸ (hv x hx).2
  · exact h.inTable t' i' x hx

lemma Proper.apply (h : m.Proper) {u : MEMarketUpdate} (hu : InTable u) : (m.apply u).Proper := by
  unfold OrderMap.apply
  split
  · rename_i htype
    apply h.set
    intro x hx
    obtain rfl := Option.some.inj hx
    exact ⟨⟨htype, rfl, rfl⟩, hu htype⟩
  · apply h.set
    intro x hx
    obtain ⟨y, hy, rfl⟩ := Option.map_eq_some_iff.mp hx
    exact ⟨h.entry _ _ y hy, h.inTable _ _ y hy⟩
  · exact h.set fun x hx => by cases hx
  · have hclear : ∀ t i x, Function.update m u.tickerId (fun _ => none) t i = some x → m t i = some x := by
      intro t i x hx
      by_cases ht : t = u.tickerId
      · subst ht
        simp at hx
      · simpa [ht] using hx
    exact ⟨fun t i x hx => h.entry t i x (hclear t i x hx), fun t i x hx => h.inTable t i x (hclear t i x hx)⟩
  · exact h

lemma Proper.applyAll (h : m.Proper) {us : List MEMarketUpdate} (hus : ∀ u ∈ us, InTable u) :
    (m.applyAll us).Proper := by
  induction us generalizing m with
  | nil => exact h
  | cons u us ih =>
    exact ih (h.apply (hus u List.mem_cons_self)) fun x hx => hus x (List.mem_cons_of_mem u hx)

private lemma lt_succ_iff_of_ne {i n : Nat} (h : i ≠ n) : i < n + 1 ↔ i < n := by omega

/-- The `ADD`s of a ticker fill its row by increasing id. -/
lemma applyAll_adds (hg : g.Proper) {t : TickerId} (hm : m t = fun _ => none) (n : Nat) :
    m.applyAll ((List.range n).filterMap (g t)) =
      Function.update m t fun i => if i < n then g t i else none := by
  induction n with
  | zero => simp [← hm]
  | succ n ih =>
    rw [List.range_succ, List.filterMap_append, applyAll_append, ih]
    cases hn : g t n with
    | none =>
      simp only [List.filterMap_cons, hn, List.filterMap_nil, applyAll_nil]
      congr
      funext i
      by_cases hi : i = n
      · simp [hi, hn]
      · simp only [lt_succ_iff_of_ne hi]
    | some x =>
      obtain ⟨htype, hticker, horder⟩ := hg.entry t n x hn
      simp only [List.filterMap_cons, hn, List.filterMap_nil, applyAll_cons, applyAll_nil,
        OrderMap.apply, htype, hticker, horder, OrderMap.set, Function.update_self, Function.update_idem]
      congr
      funext i
      by_cases hi : i = n
      · simp [hi, hn]
      · simp only [Function.update_of_ne hi, lt_succ_iff_of_ne hi]

lemma applyAll_tickerUpdates (hg : g.Proper) (t : TickerId) :
    m.applyAll (g.tickerUpdates t) = Function.update m t (g t) := by
  rw [tickerUpdates, applyAll_cons]
  have hclear : m.apply { type := .clear, tickerId := t } = Function.update m t fun _ => none := rfl
  rw [hclear, applyAll_adds hg (by simp), Function.update_idem]
  congr
  funext i
  split
  · rfl
  · rename_i hi
    cases hx : g t i with
    | none => rfl
    | some x => exact absurd (hg.inTable t i x hx).2 hi

lemma applyAll_tickers (hg : g.Proper) (n : Nat) :
    m.applyAll ((List.range n).flatMap g.tickerUpdates) = fun t => if t < n then g t else m t := by
  induction n with
  | zero => simp
  | succ n ih =>
    rw [List.range_succ, List.flatMap_append, applyAll_append, ih, List.flatMap_singleton,
      applyAll_tickerUpdates hg]
    funext t
    by_cases ht : t = n
    · simp [ht]
    · simp only [Function.update_of_ne ht, lt_succ_iff_of_ne ht]

/-- A snapshot's updates rebuild its map, whatever was there. -/
theorem applyAll_bookUpdates (hg : g.Proper) (hm : m.Proper) : m.applyAll g.bookUpdates = g := by
  rw [bookUpdates, applyAll_tickers hg]
  funext t
  split
  · rfl
  · rename_i ht
    funext i
    have hnone : ∀ {f : OrderMap}, f.Proper → f t i = none := fun {f} hf => by
      cases hx : f t i with
      | none => rfl
      | some x => exact absurd (hf.inTable t i x hx).1 ht
    rw [hnone hg, hnone hm]

/-- Only `CLEAR`s and `ADD`s, and these of the map. -/
lemma mem_bookUpdates (hg : g.Proper) {u : MEMarketUpdate} (hu : u ∈ g.bookUpdates) :
    (∃ t, u = { type := .clear, tickerId := t }) ∨ (u.type = .add ∧ g u.tickerId u.orderId = some u) := by
  obtain ⟨t, -, hu⟩ := List.mem_flatMap.mp hu
  rcases List.mem_cons.mp hu with rfl | hu
  · exact .inl ⟨t, rfl⟩
  · obtain ⟨i, -, hi⟩ := List.mem_filterMap.mp hu
    obtain ⟨htype, rfl, rfl⟩ := hg.entry t i u hi
    exact .inr ⟨htype, hi⟩

/-- The part of a snapshot that is about one ticker. -/
lemma filter_bookUpdates (hg : g.Proper) {t : TickerId} (ht : t < ME_MAX_TICKERS) :
    g.bookUpdates.filter (fun u => u.tickerId = t) = g.tickerUpdates t := by
  have hticker : ∀ t', ∀ u ∈ g.tickerUpdates t', u.tickerId = t' := by
    intro t' u hu
    rcases List.mem_cons.mp hu with rfl | hu
    · rfl
    · obtain ⟨i, -, hi⟩ := List.mem_filterMap.mp hu
      exact (hg.entry t' i u hi).2.1
  have hsame : (g.tickerUpdates t).filter (fun u => u.tickerId = t) = g.tickerUpdates t :=
    List.filter_eq_self.mpr fun u hu => decide_eq_true (hticker t u hu)
  have hother : ∀ t', t' ≠ t → (g.tickerUpdates t').filter (fun u => u.tickerId = t) = [] := fun t' hne =>
    List.filter_eq_nil_iff.mpr fun u hu => by simpa [hticker t' u hu] using hne
  have hrange : ∀ n, ((List.range n).flatMap g.tickerUpdates).filter (fun u => u.tickerId = t) =
      if t < n then g.tickerUpdates t else [] := by
    intro n
    induction n with
    | zero => rfl
    | succ n ih =>
      rw [List.range_succ, List.flatMap_append, List.filter_append, ih, List.flatMap_singleton]
      by_cases htn : t = n
      · subst htn
        simp [hsame]
      · rw [hother n (Ne.symm htn)]
        simp only [lt_succ_iff_of_ne htn, List.append_nil]
  rw [bookUpdates, hrange, if_pos ht]

/-- The `ADD`s of a ticker are its entries, each once. -/
lemma mem_adds (hg : g.Proper) {t : TickerId} {x : MEMarketUpdate} :
    x ∈ (List.range ME_MAX_ORDER_IDS).filterMap (g t) ↔ g t x.orderId = some x := by
  rw [List.mem_filterMap]
  constructor
  · rintro ⟨i, -, hi⟩
    rwa [(hg.entry t i x hi).2.2]
  · exact fun hx => ⟨x.orderId, List.mem_range.mpr (hg.inTable t _ x hx).2, hx⟩

lemma adds_sorted (hg : g.Proper) (t : TickerId) :
    (((List.range ME_MAX_ORDER_IDS).filterMap (g t)).map MEMarketUpdate.orderId).Pairwise (· < ·) := by
  refine List.pairwise_map.mpr (List.pairwise_lt_range.filterMap _ fun i j hij x hx y hy => ?_)
  rw [(hg.entry t i x hx).2.2, (hg.entry t j y hy).2.2]
  exact hij

end OrderMap

namespace SnapshotSynthesizer

/-- `publishSnapshot` sends the snapshot of the map that the arrays hold. -/
lemma publishSnapshot_eq (s : SnapshotSynthesizer) :
    s.publishSnapshot = (s.held.snapshot s.lastIncSeqNum).zipIdx.map fun p => ⟨p.2, p.1⟩ := rfl

lemma WellFormed.proper {s : SnapshotSynthesizer} (h : s.WellFormed) : s.held.Proper where
  entry := fun t i x hx => by
    obtain ⟨p, hp, rfl⟩ := held_eq_some.mp hx
    exact h.entry t i p hp
  inTable := fun t i x hx => by
    obtain ⟨p, hp, rfl⟩ := held_eq_some.mp hx
    exact h.inRange t i p hp

end SnapshotSynthesizer
end LowLatencyExchange
