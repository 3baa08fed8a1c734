import LowLatencyExchange.Book.Pointers
import LowLatencyExchange.Exchange.MatchingEngine
import LowLatencyExchange.Exchange.Tables
import LowLatencyExchange.MarketData.SnapshotSynthesizer
import LowLatencyExchange.Trading.MarketOrderBook
import Mathlib.Algebra.BigOperators.Group.Finset.Basic
import Mathlib.Data.Finset.Range

/-!
# What the downstream tables admit

The arrays behind the market data are as large as a book's order pool, and the synthesizer has one
such pool for the eight books. Neither bounds how many orders a book has seen, or how many rest in
all of them.
-/

namespace LowLatencyExchange
open LoggedRun

namespace MemPool
variable {T : Type} {p p' : MemPool T} {i : Nat}

/-- How many blocks are handed out. -/
def usedCount (p : MemPool T) : Nat := ((Finset.range p.size).filter fun i => p.Used i).card

lemma usedCount_congr (hsize : p'.size = p.size) (hused : ∀ j, p'.Used j ↔ p.Used j) :
    p'.usedCount = p.usedCount := by
  simp only [usedCount, hsize, hused]

lemma usedCount_create (default : T) (n : Nat) : (create default n).usedCount = 0 := by
  simp [usedCount]

/-- One block less is handed out. -/
lemma usedCount_freed (hsize : p'.size = p.size) (hlt : i < p.size) (hi : p.Used i)
    (hused : ∀ j, p'.Used j ↔ j ≠ i ∧ p.Used j) : p'.usedCount + 1 = p.usedCount := by
  have herase : (Finset.range p'.size).filter (fun j => p'.Used j) =
      ((Finset.range p.size).filter fun j => p.Used j).erase i := by
    ext j
    simp only [Finset.mem_filter, Finset.mem_range, Finset.mem_erase, hsize, hused]
    tauto
  have hmem : i ∈ (Finset.range p.size).filter fun j => p.Used j :=
    Finset.mem_filter.mpr ⟨Finset.mem_range.mpr hlt, hi⟩
  rw [usedCount, herase, usedCount]
  exact Finset.card_erase_add_one hmem

lemma usedCount_taken (hsize : p'.size = p.size) (hlt : i < p.size) (hi : ¬p.Used i)
    (hused : ∀ j, p'.Used j ↔ j = i ∨ p.Used j) : p'.usedCount = p.usedCount + 1 := by
  have hfree : ∀ j, p.Used j ↔ j ≠ i ∧ p'.Used j := by
    intro j
    rw [hused]
    constructor
    · intro hj
      exact ⟨fun he => hi (he ▸ hj), .inr hj⟩
    · rintro ⟨hne, he | hj⟩
      · exact absurd he hne
      · exact hj
  have hfreed : p.usedCount + 1 = p'.usedCount :=
    usedCount_freed hsize.symm (hsize ▸ hlt) ((hused i).mpr (.inl rfl)) hfree
  exact hfreed.symm

/-- A pool with two free blocks has room. -/
lemma Sound.hasRoom_of_usedCount (hp : p.Sound) (hcount : p.usedCount + 2 ≤ p.size) : p.HasRoom := by
  by_contra hfull
  have hall : (Finset.range p.size).erase p.nextFreeIndex ⊆ (Finset.range p.size).filter fun j => p.Used j := by
    intro j hj
    obtain ⟨hne, hlt⟩ := Finset.mem_erase.mp hj
    have hlt := Finset.mem_range.mp hlt
    refine Finset.mem_filter.mpr ⟨Finset.mem_range.mpr hlt, ?_⟩
    by_contra hfree
    exact hfull ⟨j, hlt, hne, hfree⟩
  have hcard := Finset.card_le_card hall
  rw [Finset.card_erase_of_mem (Finset.mem_range.mpr hp.next_lt), Finset.card_range] at hcard
  have hdef : p.usedCount = ((Finset.range p.size).filter fun j => p.Used j).card := rfl
  omega

lemma Sound.congr (hp : p.Sound) (hsize : p'.size = p.size) (hnext : p'.nextFreeIndex = p.nextFreeIndex)
    (hused : ∀ j, p'.Used j ↔ p.Used j) : p'.Sound where
  next_lt := by
    rw [hsize, hnext]
    exact hp.next_lt
  next_free := by
    rw [hnext, hused]
    exact hp.next_free
  used_lt := fun j hj => by
    rw [hsize]
    exact hp.used_lt j ((hused j).mp hj)

/-- An allocation that returns has made sure of the next one. -/
lemma Sound.allocate (hp : p.Sound) {obj : T} (h : p.allocate obj = .ok (p', i)) : p'.Sound ∧ p'.size = p.size := by
  rcases allocate_spec hp obj with ⟨-, herror⟩ | ⟨-, k, hok, hk, hne, hfree⟩
  · rw [h] at herror
    cases herror
  · rw [h] at hok
    cases hok
    exact ⟨hp.allocated obj hk hne hfree, rfl⟩

end MemPool

namespace PriceBook
variable {I K : Type} [DecidableEq K] [OrderKey I K] {b b' : PriceBook I K} {o : Nat}

lemma removeOrder_orderPool (hrun : b.removeOrder o = .ok b') (hpool : b.orderPool.Sound) :
    b'.orderPool.Sound ∧ b'.orderPool.size = b.orderPool.size := by
  obtain ⟨b₁, pool, hunlink, hdeallocate, rfl⟩ := removeOrder_ok hrun
  obtain ⟨-, rfl⟩ := MemPool.deallocate_eq_ok hdeallocate
  have hf := (unlinkOrder_frame hunlink).1
  exact ⟨(hpool.congr hf.size hf.next hf.used).release o, hf.size⟩

lemma addOrder_orderPool (hrun : b.addOrder o = .ok b') (hpool : b.orderPool.Sound) :
    b'.orderPool.Sound ∧ b'.orderPool.size = b.orderPool.size := by
  obtain ⟨b₁, hlink, rfl⟩ := addOrder_ok hrun
  have hf := linkOrder_frame hlink
  exact ⟨hpool.congr hf.size hf.next hf.used, hf.size⟩

omit [DecidableEq K] [OrderKey I K] in
lemma setQty_orderPool (b : PriceBook I K) (o : Nat) (qty : Qty) (hpool : b.orderPool.Sound) :
    (b.setQty o qty).orderPool.Sound ∧ (b.setQty o qty).orderPool.usedCount = b.orderPool.usedCount :=
  ⟨by simpa using hpool, MemPool.usedCount_congr rfl fun j => by simp⟩

end PriceBook

/-- The updates that name an order. -/
def MEMarketUpdate.NamesOrder (u : MEMarketUpdate) : Prop :=
  u.type = .add ∨ u.type = .modify ∨ u.type = .cancel

/-- How many orders the updates add, and how many they cancel. -/
def addCount (us : List MEMarketUpdate) : Nat := us.countP fun u => u.type = .add
def cancelCount (us : List MEMarketUpdate) : Nat := us.countP fun u => u.type = .cancel

lemma addCount_append (us vs : List MEMarketUpdate) : addCount (us ++ vs) = addCount us + addCount vs :=
  List.countP_append

lemma cancelCount_append (us vs : List MEMarketUpdate) : cancelCount (us ++ vs) = cancelCount us + cancelCount vs :=
  List.countP_append

lemma addCount_eq_zero {us : List MEMarketUpdate} (h : ∀ u ∈ us, u.type ≠ .add) : addCount us = 0 :=
  List.countP_eq_zero.mpr fun u hu htype => h u hu (of_decide_eq_true htype)

namespace MEOrderBook
variable {b b' : MEOrderBook}

/-- The number of resting orders. -/
def restingCount (b : MEOrderBook) : Nat := b.book.orderPool.usedCount

/-- The order pool is sound, and the orders have ids that the tables downstream have. -/
structure Stocked (b : MEOrderBook) : Prop where
  pool : b.book.orderPool.Sound
  size : b.book.orderPool.size = ME_MAX_ORDER_IDS
  ids : b.IdsIn fun ids => ids.marketOrderId < ME_MAX_ORDER_IDS

lemma stocked_create (tickerId : TickerId) : (create tickerId).Stocked where
  pool := MemPool.sound_create _ (by decide)
  size := rfl
  ids := idsIn_create _ tickerId

lemma Stocked.drawn (h : b.Stocked) : b.drawn.Stocked := ⟨h.pool, h.size, h.ids⟩

lemma restingCount_create (tickerId : TickerId) : (create tickerId).restingCount = 0 :=
  MemPool.usedCount_create _ _

lemma restingCount_removed {o : Nat} {book : PriceBook MEOrderIds (ClientId × OrderId)}
    (hpool : b.book.orderPool.Sound) (hremove : b.book.removeOrder o = .ok book) :
    book.orderPool.usedCount + 1 = b.restingCount := by
  have hf := PriceBook.removeOrder_frame hremove
  exact MemPool.usedCount_freed hf.orderSize (hpool.used_lt o hf.wasUsed) hf.wasUsed hf.used

/-- A fill takes an order out of the book just when it is reported as canceled. -/
lemma Stocked.fillsOrder (h : b.Stocked) (a : Aggressor) {itr : Nat} {leavesQty leavesQty' : Qty}
    (hfill : b.FillsOrder itr leavesQty b' leavesQty') : b'.Stocked ∧
      b'.restingCount + cancelCount (updates (a.fill (b.book.order itr) leavesQty).events) = b.restingCount := by
  have hids := h.ids.fillsOrder hfill
  rcases hfill with ⟨hqty, -, book, hbook, rfl⟩ | ⟨hqty, -, rfl⟩
  · obtain ⟨hset, hsame⟩ := PriceBook.setQty_orderPool b.book itr 0 h.pool
    obtain ⟨hpool, hsize⟩ := PriceBook.removeOrder_orderPool hbook hset
    have hcount := restingCount_removed (b := { b with book := b.book.setQty itr 0 }) hset hbook
    refine ⟨⟨hpool, hsize.trans h.size, hids⟩, ?_⟩
    have hcancel : cancelCount (updates (a.fill (b.book.order itr) leavesQty).events) = 1 := by
      simp [Fill.events, Aggressor.fill, hqty, cancelCount]
    rw [hcancel]
    exact hcount.trans hsame
  · obtain ⟨hset, hsame⟩ := PriceBook.setQty_orderPool b.book itr ((b.book.order itr).qty - leavesQty) h.pool
    refine ⟨⟨hset, h.size, hids⟩, ?_⟩
    have hcancel : cancelCount (updates (a.fill (b.book.order itr) leavesQty).events) = 0 := by
      simp [Fill.events, Aggressor.fill, Nat.not_le.mpr hqty, cancelCount]
    rw [hcancel]
    exact hsame

/-- The updates of a fill name the order that is filled, and add none. -/
lemma fill_updates (a : Aggressor) (order : MEOrder) (leavesQty : Qty) {u : MEMarketUpdate}
    (hu : u ∈ updates (a.fill order leavesQty).events) :
    u.type ≠ .add ∧ u.tickerId = a.tickerId ∧ (u.NamesOrder → u.orderId = order.ids.marketOrderId) := by
  simp only [Fill.events, updates_cons_response, updates_cons_update, updates_nil, List.mem_cons,
    List.not_mem_nil, or_false] at hu
  rcases hu with rfl | rfl
  · refine ⟨by simp [Aggressor.fill], rfl, ?_⟩
    rintro (htype | htype | htype) <;> cases htype
  · unfold Aggressor.fill
    dsimp only
    split <;> exact ⟨by simp, rfl, fun _ => rfl⟩

/-- What the matching loop keeps of the book `b₀` it begins with. -/
structure Drained (b₀ : MEOrderBook) (t : TickerId) (b : MEOrderBook) (us : List MEMarketUpdate) : Prop where
  stocked : b.Stocked
  count : b.restingCount + cancelCount us = b₀.restingCount
  updates : ∀ u ∈ us, u.type ≠ .add ∧ u.tickerId = t ∧ (u.NamesOrder → u.orderId < ME_MAX_ORDER_IDS)

theorem Stocked.checkForMatch (h : b.Stocked) (a : Aggressor) {qty leavesQty : Qty} {es : List Event}
    (hrun : b.checkForMatch a.tickerId a.clientId a.side a.price a.clientOrderId a.newMarketOrderId qty =
      .ok (b', leavesQty, es)) : Drained b a.tickerId b' (updates es) := by
  have hrule := checkForMatch_rule a
    (P := fun c _ fills => Drained b a.tickerId c (updates (fills.flatMap Fill.events)))
    (fun _ c q fills itr c' q' hc hround => ?_) ⟨h, rfl, fun u hu => absurd hu List.not_mem_nil⟩ hrun
  · obtain ⟨fills, rfl, hdrained, -⟩ := hrule
    exact hdrained
  · obtain ⟨hstocked, hcount⟩ := hc.stocked.fillsOrder a hround.fills
    obtain ⟨lvl, -, hfirst⟩ := hround.first
    rw [List.flatMap_append, List.flatMap_singleton, updates_append]
    refine ⟨hstocked, ?_, fun u hu => ?_⟩
    · have hbefore := hc.count
      rw [cancelCount_append]
      omega
    · rcases List.mem_append.mp hu with hu | hu
      · exact hc.updates u hu
      · obtain ⟨htype, hticker, hid⟩ := fill_updates a (c.book.order itr) q hu
        refine ⟨htype, hticker, fun hnames => ?_⟩
        rw [hid hnames]
        exact hc.stocked.ids.first lvl itr hfirst

/-- A remainder that rests takes one more block. -/
lemma Stocked.rests (h : b.Stocked) {a : Aggressor} {marketOrderId : OrderId} {leavesQty : Qty} {priority : Priority}
    {o : Nat} (hid : marketOrderId < ME_MAX_ORDER_IDS)
    (hrests : Rests a b marketOrderId leavesQty priority o b') :
    b'.Stocked ∧ b'.restingCount = b.restingCount + 1 := by
  have hids := h.ids.rests (P := fun ids => ids.marketOrderId < ME_MAX_ORDER_IDS) hid hrests
  have hf := hrests.frame
  obtain ⟨pool, book, halloc, hadd, rfl⟩ := hrests.placed
  obtain ⟨hpool, hsize⟩ := h.pool.allocate halloc
  obtain ⟨hpool', hsize'⟩ := PriceBook.addOrder_orderPool hadd hpool
  obtain ⟨hnext, -, -⟩ := MemPool.allocate_eq_ok halloc
  have hlt : o < b.book.orderPool.size := hnext ▸ h.pool.next_lt
  exact ⟨⟨hpool', hsize'.trans (hsize.trans h.size), hids⟩,
    MemPool.usedCount_taken (hsize'.trans hsize) hlt hf.wasFree hf.used⟩

end MEOrderBook

namespace SnapshotSynthesizer
variable {s s' : SnapshotSynthesizer}

/-- The synthesizer after it has taken in these updates, the first of a day. -/
def After (us : List MEMarketUpdate) (s : SnapshotSynthesizer) : Prop :=
  create.addAllToSnapshot (numbered 0 us) = .ok s

/-- A block is taken for every `ADD` and given back for every `CANCEL`. -/
lemma applyUpdate_count (h : s.orderPool.Sound) {u : MEMarketUpdate} (hrun : s.applyUpdate u = .ok s') :
    s'.orderPool.Sound ∧ s'.orderPool.size = s.orderPool.size ∧
      s'.orderPool.usedCount + cancelCount [u] = s.orderPool.usedCount + addCount [u] := by
  unfold applyUpdate at hrun
  simp only [cancelCount, addCount, List.countP_singleton]
  cases htype : u.type with
  | add =>
    simp only [htype] at hrun
    obtain ⟨found, -, hrun⟩ := bind_eq_ok hrun
    cases found with
    | some order => cases hrun
    | none =>
      obtain ⟨⟨pool, order⟩, halloc, hrun⟩ := bind_eq_ok hrun
      cases hrun
      obtain ⟨hsound, hsize⟩ := h.allocate halloc
      obtain ⟨rfl, hfree, k, rfl⟩ := MemPool.allocate_eq_ok halloc
      refine ⟨hsound, hsize, ?_⟩
      have hcount := MemPool.usedCount_taken hsize h.next_lt hfree
        fun j => MemPool.used_take s.orderPool s.orderPool.nextFreeIndex j u
      simpa [setOrders] using hcount
  | modify =>
    simp only [htype] at hrun
    obtain ⟨order, -, hrun⟩ := bind_eq_ok hrun
    cases hrun
    have hcount : (s.orderPool.modify order fun x => { x with qty := u.qty, price := u.price }).usedCount =
        s.orderPool.usedCount := MemPool.usedCount_congr rfl fun j => by simp
    have hsound := h.modify order fun x => { x with qty := u.qty, price := u.price }
    exact ⟨hsound, rfl, by simpa using hcount⟩
  | cancel =>
    simp only [htype] at hrun
    obtain ⟨order, -, hrun⟩ := bind_eq_ok hrun
    obtain ⟨pool, hpool, hrun⟩ := bind_eq_ok hrun
    cases hrun
    obtain ⟨hused, rfl⟩ := MemPool.deallocate_eq_ok hpool
    have hcount : (s.orderPool.release order).usedCount + 1 = s.orderPool.usedCount :=
      MemPool.usedCount_freed rfl (h.used_lt order hused) hused (MemPool.used_release s.orderPool order)
    refine ⟨h.release order, rfl, ?_⟩
    simpa [setOrders] using hcount
  | _ =>
    simp only [htype] at hrun
    cases hrun
    exact ⟨h, rfl, by simp⟩

lemma addAllToSnapshot_count (h : s.orderPool.Sound) {ms : List MDPMarketUpdate} (hrun : s.addAllToSnapshot ms = .ok s') :
    s'.orderPool.Sound ∧ s'.orderPool.size = s.orderPool.size ∧
      s'.orderPool.usedCount + cancelCount (ms.map MDPMarketUpdate.meMarketUpdate) =
        s.orderPool.usedCount + addCount (ms.map MDPMarketUpdate.meMarketUpdate) := by
  induction ms generalizing s with
  | nil =>
    cases hrun
    exact ⟨h, rfl, rfl⟩
  | cons m ms ih =>
    simp only [addAllToSnapshot, List.foldlM_cons] at hrun
    obtain ⟨s₁, hfirst, hrest⟩ := bind_eq_ok hrun
    unfold addToSnapshot at hfirst
    split at hfirst
    · obtain ⟨s₂, happly, hfirst⟩ := bind_eq_ok hfirst
      obtain ⟨_, -, hfirst⟩ := bind_eq_ok hfirst
      cases hfirst
      obtain ⟨hsound, hsize, hcount⟩ := applyUpdate_count h happly
      obtain ⟨hsound', hsize', hcount'⟩ := ih (s := { s₂ with lastIncSeqNum := m.seqNum }) hsound hrest
      refine ⟨hsound', hsize'.trans hsize, ?_⟩
      rw [List.map_cons, ← List.singleton_append, cancelCount_append, addCount_append]
      dsimp only at hcount'
      omega
    · cases hfirst

/-- As many blocks are in use as the updates have left orders. -/
lemma After.count {us : List MEMarketUpdate} (h : After us s) :
    s.orderPool.Sound ∧ s.orderPool.size = ME_MAX_ORDER_IDS ∧
      s.orderPool.usedCount + cancelCount us = addCount us := by
  obtain ⟨hsound, hsize, hcount⟩ := addAllToSnapshot_count (MemPool.sound_create _ (by decide)) h
  have hzero : create.orderPool.usedCount = 0 := MemPool.usedCount_create _ _
  rw [meMarketUpdate_numbered, hzero, Nat.zero_add] at hcount
  exact ⟨hsound, hsize, hcount⟩

end SnapshotSynthesizer

/-- An update that comes after `past`. Where it names an order, both arrays have a place for the id.
Where it adds one, the synthesizer's pool has a block to give. -/
structure Admitted (past : List MEMarketUpdate) (u : MEMarketUpdate) : Prop where
  orderId : u.NamesOrder → u.orderId < ME_MAX_ORDER_IDS
  synthesizer : u.NamesOrder → ∀ s : SnapshotSynthesizer, s.ordersAt u.tickerId u.orderId ≠ .error .outOfRange
  marketOrderBook : u.NamesOrder → ∀ b : MarketBook,
    MarketOrderBook.lookupOrder b u.orderId ≠ .error .outOfRange ∧
      ∀ p, b.setOrderTable u.orderId p ≠ .error .outOfRange
  orderPool : u.type = .add → ∀ s, SnapshotSynthesizer.After past s →
    s.orderPool.HasRoom ∧ ∃ allocated, s.orderPool.allocate u = .ok allocated

def AdmittedAll (us : List MEMarketUpdate) : Prop :=
  ∀ past u later, us = past ++ u :: later → Admitted past u

section Admitted
variable {us vs past : List MEMarketUpdate} {u : MEMarketUpdate}

lemma admitted_of_orderId (hticker : u.tickerId < ME_MAX_TICKERS) (hid : u.NamesOrder → u.orderId < ME_MAX_ORDER_IDS)
    (hroom : u.type = .add → ∀ s, SnapshotSynthesizer.After past s → s.orderPool.HasRoom) : Admitted past u where
  orderId := hid
  synthesizer := fun hnames s => by
    unfold SnapshotSynthesizer.ordersAt
    rw [if_pos ⟨hticker, hid hnames⟩]
    exact nofun
  marketOrderBook := fun hnames b => by
    have hin : OrderKey.inTable MarketOrderIds u.orderId = true := decide_eq_true (hid hnames)
    refine ⟨?_, fun p => ?_⟩
    · unfold MarketOrderBook.lookupOrder
      rw [if_pos (hid hnames)]
      exact nofun
    · unfold PriceBook.setOrderTable
      rw [if_pos hin]
      exact nofun
  orderPool := fun hadd s hs => by
    have hroom := hroom hadd s hs
    refine ⟨hroom, ?_⟩
    rcases MemPool.allocate_spec hs.count.1 u with ⟨hfull, -⟩ | ⟨-, k, hok, -⟩
    · exact absurd hroom hfull
    · exact ⟨_, hok⟩

lemma admittedAll_nil : AdmittedAll [] := by
  intro past u later h
  exact absurd (congrArg List.length h) (by simp)

lemma AdmittedAll.concat (h : AdmittedAll us) (hu : Admitted us u) : AdmittedAll (us ++ [u]) := by
  intro past v later heq
  rcases List.eq_nil_or_concat later with rfl | ⟨later, w, rfl⟩
  · obtain ⟨rfl, hv⟩ := List.append_inj' heq rfl
    obtain rfl : u = v := List.singleton_inj.mp hv
    exact hu
  · have hinit : us ++ [u] = (past ++ v :: later) ++ [w] := by simpa using heq
    exact h past v later (List.append_inj' hinit rfl).1

lemma AdmittedAll.append (h : AdmittedAll us)
    (hvs : ∀ v ∈ vs, v.type ≠ .add ∧ v.tickerId < ME_MAX_TICKERS ∧ (v.NamesOrder → v.orderId < ME_MAX_ORDER_IDS)) :
    AdmittedAll (us ++ vs) := by
  induction vs using List.reverseRecOn with
  | nil => rwa [List.append_nil]
  | append_singleton vs v ih =>
    obtain ⟨htype, hticker, hid⟩ := hvs v (by simp)
    rw [← List.append_assoc]
    exact (ih fun w hw => hvs w (by simp [hw])).concat (admitted_of_orderId hticker hid fun hadd => absurd hadd htype)

end Admitted
end LowLatencyExchange
