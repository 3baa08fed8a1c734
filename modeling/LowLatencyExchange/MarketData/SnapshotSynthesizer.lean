import LowLatencyExchange.MarketData.OrderMap
import LowLatencyExchange.Common.MemPool

/-!
# The snapshot synthesizer

`Exchange::SnapshotSynthesizer` keeps, for every ticker, an array from market order ids to
pool blocks. `addToSnapshot` refines `OrderMap.apply`, and `publishSnapshot` sends the whole
map.
-/

namespace LowLatencyExchange

structure SnapshotSynthesizer where
  tickerOrders : TickerId → OrderId → Option Nat
  lastIncSeqNum : Nat
  orderPool : MemPool MEMarketUpdate

namespace SnapshotSynthesizer

/-- A fresh synthesizer, with all entries null. -/
def create : SnapshotSynthesizer where
  tickerOrders := fun _ _ => none
  lastIncSeqNum := 0
  orderPool := MemPool.create {} ME_MAX_ORDER_IDS

/-- `ticker_orders_.at(ticker_id).at(order_id)`. -/
def ordersAt (s : SnapshotSynthesizer) (tickerId : TickerId) (orderId : OrderId) :
    Except Fault (Option Nat) :=
  if tickerId < ME_MAX_TICKERS ∧ orderId < ME_MAX_ORDER_IDS then .ok (s.tickerOrders tickerId orderId)
  else .error .outOfRange

def setOrders (s : SnapshotSynthesizer) (tickerId : TickerId) (orderId : OrderId) (p : Option Nat) :
    SnapshotSynthesizer :=
  let orders := Function.update (s.tickerOrders tickerId) orderId p
  { s with tickerOrders := Function.update s.tickerOrders tickerId orders }

/-- The three checks that `MODIFY` and `CANCEL` begin with. -/
def existingOrder (s : SnapshotSynthesizer) (u : MEMarketUpdate) : Except Fault Nat := do
  match ← s.ordersAt u.tickerId u.orderId with
  | none => .error (.assert ("Received:" ++ u.toString ++ " but order does not exist."))
  | some order =>
    assertThat ((s.orderPool.object order).orderId = u.orderId)
      "Expecting existing order to match new one."
    assertThat ((s.orderPool.object order).side = u.side) "Expecting existing order to match new one."
    pure order

/-- The `switch` of `addToSnapshot`. -/
def applyUpdate (s : SnapshotSynthesizer) (u : MEMarketUpdate) : Except Fault SnapshotSynthesizer :=
  match u.type with
  | .add => do
    match ← s.ordersAt u.tickerId u.orderId with
    | some order => .error (.assert ("Received:" ++ u.toString ++ " but order exists:" ++
        (s.orderPool.object order).toString))
    | none =>
      let (pool, order) ← s.orderPool.allocate u
      pure ({ s with orderPool := pool }.setOrders u.tickerId u.orderId (some order))
  | .modify => do
    let order ← s.existingOrder u
    pure { s with orderPool := s.orderPool.modify order fun x => { x with qty := u.qty, price := u.price } }
  | .cancel => do
    let order ← s.existingOrder u
    let pool ← s.orderPool.deallocate order
    pure ({ s with orderPool := pool }.setOrders u.tickerId u.orderId none)
  | _ => pure s

def addToSnapshot (s : SnapshotSynthesizer) (marketUpdate : MDPMarketUpdate) :
    Except Fault SnapshotSynthesizer := do
  -- `ticker_orders_.at(ticker_id)` comes before the switch
  if marketUpdate.meMarketUpdate.tickerId < ME_MAX_TICKERS then
    let s ← s.applyUpdate marketUpdate.meMarketUpdate
    assertThat (marketUpdate.seqNum = wrap64 (s.lastIncSeqNum + 1)) "Expected incremental seq_nums to increase"
    pure { s with lastIncSeqNum := marketUpdate.seqNum }
  else .error .outOfRange

def addAllToSnapshot (s : SnapshotSynthesizer) (us : List MDPMarketUpdate) :
    Except Fault SnapshotSynthesizer := us.foldlM addToSnapshot s

/-- The `CLEAR` of a ticker and its orders, by increasing id. -/
def tickerSnapshot (s : SnapshotSynthesizer) (tickerId : TickerId) : List MEMarketUpdate :=
  { type := .clear, tickerId := tickerId } ::
    (List.range ME_MAX_ORDER_IDS).filterMap fun orderId =>
      (s.tickerOrders tickerId orderId).map s.orderPool.object

def snapshotUpdates (s : SnapshotSynthesizer) : List MEMarketUpdate :=
  { type := .snapshotStart, orderId := s.lastIncSeqNum } ::
    (List.range ME_MAX_TICKERS).flatMap s.tickerSnapshot ++
    [{ type := .snapshotEnd, orderId := s.lastIncSeqNum }]

/-- The messages `publishSnapshot` sends, each numbered by `snapshot_size++`. -/
def publishSnapshot (s : SnapshotSynthesizer) : List MDPMarketUpdate :=
  s.snapshotUpdates.zipIdx.map fun p => ⟨p.2, p.1⟩

/-- The map that the arrays hold. -/
def held (s : SnapshotSynthesizer) : OrderMap := fun tickerId orderId =>
  (s.tickerOrders tickerId orderId).map s.orderPool.object

/-- The entries and the blocks in use belong together one to one, and each block holds the
`ADD` of its entry. -/
structure WellFormed (s : SnapshotSynthesizer) : Prop where
  pool : s.orderPool.Sound
  used : ∀ p, s.orderPool.Used p ↔ ∃ t i, s.tickerOrders t i = some p
  unique : ∀ t i t' i' p, s.tickerOrders t i = some p → s.tickerOrders t' i' = some p → t = t' ∧ i = i'
  inRange : ∀ t i p, s.tickerOrders t i = some p → t < ME_MAX_TICKERS ∧ i < ME_MAX_ORDER_IDS
  entry : ∀ t i p, s.tickerOrders t i = some p → (s.orderPool.object p).type = .add ∧
    (s.orderPool.object p).tickerId = t ∧ (s.orderPool.object p).orderId = i

lemma wellFormed_create : create.WellFormed where
  pool := MemPool.sound_create _ (by decide)
  used := fun p => by simp [create]
  unique := fun t i t' i' p h => by cases h
  inRange := fun t i p h => by cases h
  entry := fun t i p h => by cases h

lemma held_create : create.held = OrderMap.empty := rfl

lemma setOrders_apply (s : SnapshotSynthesizer) (t t' : TickerId) (i i' : OrderId) (p : Option Nat) :
    (s.setOrders t i p).tickerOrders t' i' = if t' = t ∧ i' = i then p else s.tickerOrders t' i' := by
  simp only [setOrders]
  by_cases ht : t' = t
  · subst ht
    by_cases hi : i' = i <;> simp [hi]
  · simp [ht]

variable {s : SnapshotSynthesizer}

lemma held_eq_some {t : TickerId} {i : OrderId} {x : MEMarketUpdate} :
    s.held t i = some x ↔ ∃ p, s.tickerOrders t i = some p ∧ s.orderPool.object p = x := by
  simp [held]

lemma held_eq_none {t : TickerId} {i : OrderId} : s.held t i = none ↔ s.tickerOrders t i = none := by
  simp [held]

/-- What `applyUpdate` achieves when it accepts an update. -/
structure Applied (s : SnapshotSynthesizer) (u : MEMarketUpdate) (s' : SnapshotSynthesizer) : Prop where
  run : s.applyUpdate u = .ok s'
  wellFormed : s'.WellFormed
  held : s'.held = s.held.apply u
  lastIncSeqNum : s'.lastIncSeqNum = s.lastIncSeqNum
  room : u.type ≠ .add → s.orderPool.HasRoom → s'.orderPool.HasRoom

lemma applyUpdate_add (h : s.WellFormed) {u : MEMarketUpdate} (htype : u.type = .add)
    (hticker : u.tickerId < ME_MAX_TICKERS) (horder : u.orderId < ME_MAX_ORDER_IDS)
    (hfree : s.held u.tickerId u.orderId = none) (hroom : s.orderPool.HasRoom) :
    ∃ s', Applied s u s' := by
  have hnone := held_eq_none.mp hfree
  rcases MemPool.allocate_spec h.pool u with ⟨hno, -⟩ | ⟨-, k, hok, hk, hkne, hkfree⟩
  · exact absurd hroom hno
  generalize hn : s.orderPool.nextFreeIndex = n at *
  have hnfree : ¬s.orderPool.Used n := hn ▸ h.pool.next_free
  have hpool := h.pool.allocated u hk (hn ▸ hkne) hkfree
  rw [hn] at hpool
  generalize hp : ({ s.orderPool.take n u with nextFreeIndex := k } : MemPool MEMarketUpdate) = pool at *
  have hobject : ∀ p, pool.object p = if p = n then u else s.orderPool.object p := fun p => by
    rw [← hp]
    exact MemPool.object_take _ _ _ _
  have hused : ∀ p, pool.Used p ↔ p = n ∨ s.orderPool.Used p := fun p => by
    rw [← hp]
    exact MemPool.used_take _ _ _ _
  have hentry := ({ s with orderPool := pool } : SnapshotSynthesizer).setOrders_apply u.tickerId (i := u.orderId)
    (p := some n)
  generalize hs' : ({ s with orderPool := pool } : SnapshotSynthesizer).setOrders u.tickerId u.orderId
    (some n) = s' at hentry
  have hpool' : s'.orderPool = pool := by rw [← hs']; rfl
  have hne : ∀ t i p, s.tickerOrders t i = some p → p ≠ n := by
    rintro t i p hti rfl
    exact hnfree ((h.used p).mpr ⟨t, i, hti⟩)
  refine ⟨s', ⟨?_, ⟨?_, ?_, ?_, ?_, ?_⟩, ?_, ?_, fun hadd => absurd htype hadd⟩⟩
  · simp only [applyUpdate, htype, ordersAt, hticker, horder, and_self, if_true, hnone, ok_bind, hok]
    exact congrArg Except.ok hs'
  · rw [hpool']
    exact hpool
  · intro p
    rw [hpool', hused]
    constructor
    · rintro (rfl | hp)
      · exact ⟨u.tickerId, u.orderId, by simp [hentry]⟩
      · obtain ⟨t, i, hti⟩ := (h.used p).mp hp
        refine ⟨t, i, ?_⟩
        rw [hentry, if_neg ?_]
        · exact hti
        · rintro ⟨rfl, rfl⟩
          rw [hnone] at hti
          cases hti
    · rintro ⟨t, i, hti⟩
      rw [hentry] at hti
      split at hti
      · exact .inl (Option.some.inj hti).symm
      · exact .inr ((h.used p).mpr ⟨t, i, hti⟩)
  · intro t i t' i' p hti hti'
    rw [hentry] at hti hti'
    split at hti <;> split at hti'
    · rename_i he he'
      exact ⟨he.1.trans he'.1.symm, he.2.trans he'.2.symm⟩
    · exact absurd (Option.some.inj hti).symm (hne _ _ _ hti')
    · exact absurd (Option.some.inj hti').symm (hne _ _ _ hti)
    · exact h.unique t i t' i' p hti hti'
  · intro t i p hti
    rw [hentry] at hti
    split at hti
    · rename_i he
      exact ⟨he.1 ▸ hticker, he.2 ▸ horder⟩
    · exact h.inRange t i p hti
  · intro t i p hti
    rw [hentry] at hti
    rw [hpool', hobject]
    split at hti
    · rename_i he
      rw [if_pos (Option.some.inj hti).symm]
      exact ⟨htype, he.1.symm, he.2.symm⟩
    · rw [if_neg (hne t i p hti)]
      exact h.entry t i p hti
  · funext t i
    simp only [SnapshotSynthesizer.held, OrderMap.apply, htype, OrderMap.set_apply, hentry, hpool']
    split
    · simp [hobject]
    · cases hti : s.tickerOrders t i with
      | none => rfl
      | some p => simp [hobject, hne t i p hti]
  · rw [← hs']
    rfl

lemma existingOrder_ok (h : s.WellFormed) {u x : MEMarketUpdate}
    (hheld : s.held u.tickerId u.orderId = some x) (hside : x.side = u.side) :
    ∃ p, s.existingOrder u = .ok p ∧ s.tickerOrders u.tickerId u.orderId = some p ∧
      s.orderPool.object p = x := by
  obtain ⟨p, hp, rfl⟩ := held_eq_some.mp hheld
  obtain ⟨hticker, horder⟩ := h.inRange _ _ _ hp
  refine ⟨p, ?_, hp, rfl⟩
  simp only [existingOrder, ordersAt, hticker, horder, and_self, if_true, hp, ok_bind,
    (h.entry _ _ _ hp).2.2, hside, decide_true, assertThat_true]
  rfl

lemma applyUpdate_modify (h : s.WellFormed) {u x : MEMarketUpdate} (htype : u.type = .modify)
    (hheld : s.held u.tickerId u.orderId = some x) (hside : x.side = u.side) :
    ∃ s', Applied s u s' := by
  obtain ⟨p, hrun, hp, rfl⟩ := existingOrder_ok h hheld hside
  refine ⟨{ s with orderPool := s.orderPool.modify p fun x => { x with qty := u.qty, price := u.price } },
    ⟨?_, ⟨?_, ?_, h.unique, h.inRange, ?_⟩, ?_, rfl, fun _ hroom => hroom.modify _ _⟩⟩
  · simp only [applyUpdate, htype, hrun, ok_bind, pure_eq_ok]
  · simpa using h.pool
  · intro q
    rw [MemPool.used_modify]
    exact h.used q
  · intro t i q hq
    rw [MemPool.object_modify]
    split <;> exact h.entry t i q hq
  · funext t i
    simp only [SnapshotSynthesizer.held, OrderMap.apply, htype, OrderMap.set_apply]
    split
    · rename_i he
      simp [he.1, he.2, hp]
    · rename_i hne
      cases hti : s.tickerOrders t i with
      | none => rfl
      | some q =>
        have hqp : q ≠ p := by
          rintro rfl
          exact hne (h.unique _ _ _ _ q hti hp)
        simp [hqp]

lemma applyUpdate_cancel (h : s.WellFormed) {u x : MEMarketUpdate} (htype : u.type = .cancel)
    (hheld : s.held u.tickerId u.orderId = some x) (hside : x.side = u.side) :
    ∃ s', Applied s u s' := by
  obtain ⟨p, hrun, hp, rfl⟩ := existingOrder_ok h hheld hside
  have hpused : s.orderPool.Used p := (h.used p).mpr ⟨_, _, hp⟩
  have hdealloc := MemPool.deallocate_spec h.pool hpused
  have hentry := ({ s with orderPool := s.orderPool.release p } : SnapshotSynthesizer).setOrders_apply
    u.tickerId (i := u.orderId) (p := none)
  generalize hs' : ({ s with orderPool := s.orderPool.release p } : SnapshotSynthesizer).setOrders
    u.tickerId u.orderId none = s' at hentry
  have hpool' : s'.orderPool = s.orderPool.release p := by rw [← hs']; rfl
  -- the entries that stay are those of other blocks
  have hkept : ∀ t i q, s'.tickerOrders t i = some q ↔ q ≠ p ∧ s.tickerOrders t i = some q := by
    intro t i q
    rw [hentry]
    split
    · rename_i he
      rw [he.1, he.2, hp]
      simp only [reduceCtorEq, Option.some.injEq, false_iff, not_and]
      exact fun hq => hq.symm
    · rename_i hne
      refine ⟨fun hq => ⟨?_, hq⟩, fun hq => hq.2⟩
      rintro rfl
      exact hne (h.unique _ _ _ _ q hq hp)
  refine ⟨s', ⟨?_, ⟨?_, ?_, ?_, ?_, ?_⟩, ?_, ?_, fun _ hroom => ?_⟩⟩
  · simp only [applyUpdate, htype, hrun, ok_bind, hdealloc]
    exact congrArg Except.ok hs'
  · rw [hpool']
    exact h.pool.release p
  · intro q
    rw [hpool', MemPool.used_release, h.used]
    simp only [hkept, exists_and_left]
  · intro t i t' i' q hti hti'
    exact h.unique t i t' i' q ((hkept t i q).mp hti).2 ((hkept t' i' q).mp hti').2
  · exact fun t i q hti => h.inRange t i q ((hkept t i q).mp hti).2
  · intro t i q hti
    rw [hpool', MemPool.object_release]
    exact h.entry t i q ((hkept t i q).mp hti).2
  · funext t i
    simp only [SnapshotSynthesizer.held, OrderMap.apply, htype, OrderMap.set_apply, hentry, hpool']
    split
    · rfl
    · cases s.tickerOrders t i <;> simp
  · rw [← hs']
    rfl
  · rw [hpool']
    exact hroom.release p

lemma accepts_applied (h : s.WellFormed) {u : MEMarketUpdate} (haccepts : s.held.Accepts u)
    (hroom : u.type = .add → s.orderPool.HasRoom) : ∃ s', Applied s u s' := by
  obtain ⟨hticker, htype⟩ := haccepts
  cases hu : u.type with
  | add =>
    rw [hu] at htype
    exact applyUpdate_add h hu hticker htype.1 htype.2 (hroom hu)
  | modify =>
    rw [hu] at htype
    obtain ⟨x, hx, hside⟩ := htype
    exact applyUpdate_modify h hu hx hside
  | cancel =>
    rw [hu] at htype
    obtain ⟨x, hx, hside⟩ := htype
    exact applyUpdate_cancel h hu hx hside
  | clear =>
    rw [hu] at htype
    exact htype.elim
  | _ => exact ⟨s, by simp [applyUpdate, hu], h, by simp [OrderMap.apply, hu], rfl, fun _ hr => hr⟩

/-- `addToSnapshot` refines `OrderMap.apply` on the updates that the map accepts. -/
theorem addToSnapshot_refines (h : s.WellFormed) {u : MEMarketUpdate} (haccepts : s.held.Accepts u)
    (hroom : u.type = .add → s.orderPool.HasRoom) :
    ∃ s', s.addToSnapshot ⟨wrap64 (s.lastIncSeqNum + 1), u⟩ = .ok s' ∧ s'.WellFormed ∧
      s'.held = s.held.apply u ∧ s'.lastIncSeqNum = wrap64 (s.lastIncSeqNum + 1) ∧
      (u.type ≠ .add → s.orderPool.HasRoom → s'.orderPool.HasRoom) := by
  obtain ⟨s', hs'⟩ := accepts_applied h haccepts hroom
  refine ⟨{ s' with lastIncSeqNum := wrap64 (s.lastIncSeqNum + 1) }, ?_,
    ⟨hs'.wellFormed.pool, hs'.wellFormed.used, hs'.wellFormed.unique, hs'.wellFormed.inRange,
      hs'.wellFormed.entry⟩, hs'.held, rfl, hs'.room⟩
  simp only [addToSnapshot, haccepts.1, if_true, hs'.run, ok_bind, hs'.lastIncSeqNum, decide_true,
    assertThat_true, pure_eq_ok]

/-- A numbered stream of accepted updates is taken in whole when its only `ADD` comes last. -/
theorem addAllToSnapshot_refines (h : s.WellFormed) {us : List MEMarketUpdate}
    (haccepts : s.held.AcceptsAll us) (hlast : AddsLast us) (hroom : s.orderPool.HasRoom) :
    ∃ s', s.addAllToSnapshot (numbered s.lastIncSeqNum us) = .ok s' ∧ s'.WellFormed ∧
      s'.held = s.held.applyAll us := by
  induction us generalizing s with
  | nil => exact ⟨s, rfl, h, rfl⟩
  | cons u us ih =>
    obtain ⟨s₁, hrun, hwf, hheld, hnum, hroom₁⟩ := addToSnapshot_refines h haccepts.1 fun _ => hroom
    have hrest : ∃ s', s₁.addAllToSnapshot (numbered (wrap64 (s.lastIncSeqNum + 1)) us) = .ok s' ∧
        s'.WellFormed ∧ s'.held = s₁.held.applyAll us := by
      cases us with
      | nil => exact ⟨s₁, rfl, hwf, rfl⟩
      | cons v us =>
        rw [← hnum]
        refine ih hwf (hheld ▸ haccepts.2) (fun x hx => ?_) (hroom₁ ?_ hroom)
        · exact hlast x (List.mem_cons_of_mem u hx)
        · exact hlast u List.mem_cons_self
    obtain ⟨s', hrun', hwf', hheld'⟩ := hrest
    refine ⟨s', ?_, hwf', by rw [hheld', hheld]; rfl⟩
    simp only [addAllToSnapshot, numbered, List.foldlM_cons, hrun, ok_bind]
    exact hrun'

/-- An update that is taken in was acceptable, or a `CLEAR`, which is ignored. -/
lemma applyUpdate_cases (h : s.WellFormed) {u : MEMarketUpdate} {s' : SnapshotSynthesizer}
    (hticker : u.tickerId < ME_MAX_TICKERS) (hrun : s.applyUpdate u = .ok s') :
    (u.type = .clear ∧ s' = s) ∨ (s.held.Accepts u ∧ (u.type = .add → s.orderPool.HasRoom)) := by
  have hexisting : ∀ {p}, s.existingOrder u = .ok p →
      ∃ x, s.held u.tickerId u.orderId = some x ∧ x.side = u.side := by
    intro p hp
    obtain ⟨found, hfound, hp⟩ := bind_eq_ok hp
    unfold ordersAt at hfound
    split at hfound
    · cases found with
      | none => cases hp
      | some q =>
        obtain ⟨_, -, hp⟩ := bind_eq_ok hp
        obtain ⟨_, hside, -⟩ := bind_eq_ok hp
        exact ⟨_, held_eq_some.mpr ⟨q, Except.ok.inj hfound, rfl⟩, of_decide_eq_true (assertThat_eq_ok hside)⟩
    · cases hfound
  unfold applyUpdate at hrun
  unfold OrderMap.Accepts
  cases htype : u.type with
  | add =>
    right
    simp only [htype] at hrun
    obtain ⟨found, hfound, hrun⟩ := bind_eq_ok hrun
    unfold ordersAt at hfound
    split at hfound
    · rename_i hrange
      cases found with
      | some q => cases hrun
      | none =>
        obtain ⟨r, halloc, -⟩ := bind_eq_ok hrun
        refine ⟨⟨hticker, hrange.2, held_eq_none.mpr (Except.ok.inj hfound)⟩, fun _ => ?_⟩
        rcases MemPool.allocate_spec h.pool u with ⟨-, herr⟩ | ⟨hroom, -⟩
        · rw [herr] at halloc
          cases halloc
        · exact hroom
    · cases hfound
  | modify =>
    right
    simp only [htype] at hrun
    obtain ⟨p, hp, -⟩ := bind_eq_ok hrun
    exact ⟨⟨hticker, hexisting hp⟩, fun hadd => by cases hadd⟩
  | cancel =>
    right
    simp only [htype] at hrun
    obtain ⟨p, hp, -⟩ := bind_eq_ok hrun
    exact ⟨⟨hticker, hexisting hp⟩, fun hadd => by cases hadd⟩
  | clear =>
    left
    simp only [htype] at hrun
    cases hrun
    exact ⟨rfl, rfl⟩
  | _ =>
    right
    exact ⟨⟨hticker, trivial⟩, fun hadd => by cases hadd⟩

/-- What an update that `addToSnapshot` takes in does. -/
theorem addToSnapshot_cases (h : s.WellFormed) {marketUpdate : MDPMarketUpdate} {s' : SnapshotSynthesizer}
    (hrun : s.addToSnapshot marketUpdate = .ok s') :
    s'.WellFormed ∧ s'.lastIncSeqNum = wrap64 (s.lastIncSeqNum + 1) ∧
      s'.held = if marketUpdate.meMarketUpdate.type = .clear then s.held
        else s.held.apply marketUpdate.meMarketUpdate := by
  obtain ⟨seqNum, u⟩ := marketUpdate
  unfold addToSnapshot at hrun
  split at hrun
  · rename_i hticker
    obtain ⟨s₁, happly, hrun⟩ := bind_eq_ok hrun
    obtain ⟨_, hseq, hresult⟩ := bind_eq_ok hrun
    have hseq : seqNum = wrap64 (s₁.lastIncSeqNum + 1) := of_decide_eq_true (assertThat_eq_ok hseq)
    cases hresult
    rcases applyUpdate_cases h hticker happly with ⟨hclear, rfl⟩ | ⟨haccepts, hroom⟩
    · exact ⟨⟨h.pool, h.used, h.unique, h.inRange, h.entry⟩, hseq, (if_pos hclear).symm⟩
    · have hne : u.type ≠ .clear := by
        intro hclear
        have haccepts := haccepts.2
        rw [hclear] at haccepts
        exact haccepts
      obtain ⟨s₂, happlied⟩ := accepts_applied h haccepts hroom
      obtain rfl : s₂ = s₁ := Except.ok.inj (happlied.run.symm.trans happly)
      have hwf := happlied.wellFormed
      refine ⟨⟨hwf.pool, hwf.used, hwf.unique, hwf.inRange, hwf.entry⟩, ?_, ?_⟩
      · rw [← happlied.lastIncSeqNum]
        exact hseq
      · rw [if_neg hne]
        exact happlied.held
  · cases hrun

/-- The states a fresh synthesizer gets to. Its entries are the orders that its updates left
live, with what they last said about them. -/
theorem addAllToSnapshot_cases (h : s.WellFormed) {us : List MDPMarketUpdate} {s' : SnapshotSynthesizer}
    (hrun : s.addAllToSnapshot us = .ok s') :
    s'.WellFormed ∧ s'.held = s.held.applyAll
      ((us.map MDPMarketUpdate.meMarketUpdate).filter fun u => u.type ≠ .clear) := by
  induction us generalizing s with
  | nil =>
    cases hrun
    exact ⟨h, rfl⟩
  | cons u us ih =>
    simp only [addAllToSnapshot, List.foldlM_cons] at hrun
    obtain ⟨s₁, hfirst, hrest⟩ := bind_eq_ok hrun
    obtain ⟨hwf, -, hheld⟩ := addToSnapshot_cases h hfirst
    obtain ⟨hwf', hheld'⟩ := ih hwf hrest
    refine ⟨hwf', ?_⟩
    rw [hheld', hheld, List.map_cons, List.filter_cons]
    by_cases hclear : u.meMarketUpdate.type = .clear <;> simp [hclear]

end SnapshotSynthesizer
end LowLatencyExchange
