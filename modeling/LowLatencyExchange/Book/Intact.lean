import LowLatencyExchange.Book.Filed
import LowLatencyExchange.Book.Splice

/-!
# Books that no request can break

`Intact b rings ladders` says less than `WellFormed`: the ladders are circles in any order of
prices, and prices may share a slot as long as their orders belong to the same ladder. It is enough
for every removal to return, and an addition keeps it unless it tears a ladder or puts an order
under a level of the other one.
-/

namespace LowLatencyExchange
open CircularList
namespace PriceBook
variable {I K : Type} {b b' : PriceBook I K} {rings : Nat → List Nat} {ladders : Side → List Nat}

/-- The circles and the tops of the ladders. -/
structure Circles (b : PriceBook I K) (ladders : Side → List Nat) : Prop where
  ring : ∀ s : Side, s.Trading → Ring (fun p => (b.level p).nextEntry) (fun p => (b.level p).prevEntry) (ladders s)
  top : ∀ s : Side, s.Trading → b.top s = (ladders s).head?

structure Intact [OrderKey I K] (b : PriceBook I K) (rings : Nat → List Nat) (ladders : Side → List Nat) : Prop
    extends Circles b ladders where
  filed : b.Filed rings
  nodup : ∀ s : Side, s.Trading → (ladders s).Nodup
  mem : ∀ s : Side, s.Trading → ∀ p, p ∈ ladders s ↔
    b.ordersAtPricePool.Used p ∧ (b.level p).side.ladder = s
  sameLadder : ∀ o p, b.orderPool.Used o → b.getOrdersAtPrice (b.order o).price = some p →
    (b.level p).side.ladder = (b.order o).side.ladder
  levelPool : b.ordersAtPricePool.Sound
  orderPool : b.orderPool.Sound
  table : ∀ k o, b.orderTable k = some o → b.orderPool.Used o ∧ OrderKey.key (b.order o).ids = k
  inTable : ∀ o, b.orderPool.Used o → OrderKey.inTable I (OrderKey.key (b.order o).ids) = true

/-- The levels of a list that are in use. -/
def liveLevels (b : PriceBook I K) (ptrs : List Nat) : List Nat :=
  ptrs.filter fun p => decide (b.ordersAtPricePool.Used p)

def liveOrders (b : PriceBook I K) (ptrs : List Nat) : List Nat :=
  ptrs.filter fun o => decide (b.orderPool.Used o)

@[simp] lemma mem_liveLevels {ptrs : List Nat} {p : Nat} :
    p ∈ b.liveLevels ptrs ↔ p ∈ ptrs ∧ b.ordersAtPricePool.Used p := by simp [liveLevels]

@[simp] lemma mem_liveOrders {ptrs : List Nat} {o : Nat} :
    o ∈ b.liveOrders ptrs ↔ o ∈ ptrs ∧ b.orderPool.Used o := by simp [liveOrders]

lemma liveLevels_eq_self {ptrs : List Nat} (h : ∀ p ∈ ptrs, b.ordersAtPricePool.Used p) :
    b.liveLevels ptrs = ptrs := List.filter_eq_self.mpr fun p hp => decide_eq_true (h p hp)

lemma liveOrders_eq_self {ptrs : List Nat} (h : ∀ o ∈ ptrs, b.orderPool.Used o) :
    b.liveOrders ptrs = ptrs := List.filter_eq_self.mpr fun o ho => decide_eq_true (h o ho)

/-- One element is no longer in use. -/
lemma filter_middle {l m : List Nat} {x : Nat} {f : Nat → Bool} (hx : f x = false)
    (hrest : ∀ y ∈ l ++ m, f y = true) : (l ++ x :: m).filter f = l ++ m := by
  rw [List.filter_append, List.filter_cons, if_neg (by rw [hx]; simp),
    List.filter_eq_self.mpr fun y hy => hrest y (List.mem_append_left m hy),
    List.filter_eq_self.mpr fun y hy => hrest y (List.mem_append_right l hy)]

section Keys
variable [OrderKey I K]

lemma Intact.exists_level (h : b.Intact rings ladders) {o : Nat} (ho : b.orderPool.Used o) :
    ∃ p, b.getOrdersAtPrice (b.order o).price = some p ∧ b.ordersAtPricePool.Used p ∧
      p ∈ ladders (b.order o).side.ladder := by
  have hmem := (h.filed.mem _ o).mpr ⟨ho, rfl⟩
  cases hget : b.getOrdersAtPrice (b.order o).price with
  | none =>
    rw [(h.filed.empty _).mp hget] at hmem
    cases hmem
  | some p =>
    have hused := ((h.filed.level _ p).mp hget).1
    exact ⟨p, rfl, hused, (h.mem _ (Side.trading_ladder _) p).mpr ⟨hused, h.sameLadder o p ho hget⟩⟩

/-- The removal of a level takes it out of its circle. -/
lemma Intact.removeOrdersAtPrice (h : b.Intact rings ladders) {side : Side} {price : Price} {p : Nat}
    (hget : b.getOrdersAtPrice price = some p) (hp : p ∈ ladders side.ladder) :
    ∃ b', b.removeOrdersAtPrice side price = .ok b' ∧ b'.Circles (fun s => b'.liveLevels (ladders s)) ∧
      b'.ordersAtPricePool.Sound ∧ b'.orderPool = b.orderPool := by
  have hs := Side.trading_ladder side
  obtain ⟨l, m, hsplit⟩ := List.append_of_mem hp
  have hd := h.nodup _ hs
  have hring := h.ring _ hs
  have htop := h.top _ hs
  rw [hsplit] at hd hring htop
  obtain ⟨b₁, hb₁, hu⟩ := unlinkOrdersAtPrice_spec hs hring hd htop
  have hunlink : b.unlinkOrdersAtPrice side p = .ok b₁ := by
    rw [← hb₁]
    simp only [unlinkOrdersAtPrice, top_ladder, setTop_ladder]
  have hused : b.ordersAtPricePool.Used p := ((h.mem _ hs p).mp hp).1
  have hdealloc := MemPool.deallocate_spec (hu.sound h.levelPool) ((hu.used p).mpr hused)
  refine ⟨(b₁.setOrdersAtPrice price none).setLevelPool (b₁.ordersAtPricePool.release p), ?_, ?_,
    (hu.sound h.levelPool).release p, ?_⟩
  · simp [PriceBook.removeOrdersAtPrice, hget, hunlink, hdealloc]
  · generalize hb' : (b₁.setOrdersAtPrice price none).setLevelPool (b₁.ordersAtPricePool.release p) = b'
    have hlevel : ∀ q, b'.level q = b₁.level q := fun q => by simp [← hb', level]
    have hfree : ∀ q, b'.ordersAtPricePool.Used q ↔ q ≠ p ∧ b.ordersAtPricePool.Used q := fun q => by
      simp [← hb', hu.used]
    have hlive : ∀ s : Side, s.Trading → b'.liveLevels (ladders s) =
        if s = side.ladder then l ++ m else ladders s := by
      intro s ht
      split
      · rename_i he
        rw [he, hsplit]
        refine filter_middle (by simp [hfree]) fun q hq => ?_
        have hmem : q ∈ ladders side.ladder := by
          rw [hsplit]
          exact (List.sublist_cons_self p m).append_left l |>.subset hq
        have hqp : q ≠ p := fun he => (List.nodup_middle.mp hd).notMem (he ▸ hq)
        simpa [hfree, hqp] using ((h.mem _ hs q).mp hmem).1
      · rename_i he
        refine liveLevels_eq_self fun q hq => (hfree q).mpr ⟨?_, ((h.mem s ht q).mp hq).1⟩
        rintro rfl
        exact he (((h.mem s ht q).mp hq).2.symm.trans ((h.mem _ hs q).mp hp).2)
    refine ⟨fun s ht => ?_, fun s ht => ?_⟩
    · simp only [hlive s ht, hlevel]
      split
      · exact hu.ring
      · rename_i he
        have haway : ∀ q ∈ ladders s, b₁.level q = b.level q := by
          intro q hq
          refine hu.away q fun hmem => he ?_
          have hq' : q ∈ ladders side.ladder := by
            rw [hsplit]
            exact List.perm_middle.mem_iff.mpr hmem
          exact ((h.mem s ht q).mp hq).2.symm.trans ((h.mem _ hs q).mp hq').2
        exact (h.ring s ht).congr (fun q hq => by rw [haway q hq]) (fun q hq => by rw [haway q hq])
    · rw [hlive s ht, ← hb', top_setLevelPool, top_setOrdersAtPrice]
      split
      · rename_i he
        rw [he]
        exact hu.top
      · rename_i he
        rw [hu.otherTop s ht he]
        exact h.top s ht
  · exact (unlinkOrdersAtPrice_unlink hb₁).orderPool

/-- The removal of a level looks at nothing but its ladder, and that of an order with neighbours at
nothing but its ring. -/
lemma Intact.unlinkOrder (h : b.Intact rings ladders) {o : Nat} (ho : b.orderPool.Used o) :
    ∃ b', b.unlinkOrder o = .ok b' ∧ b'.Circles (fun s => b'.liveLevels (ladders s)) ∧
      b'.ordersAtPricePool.Sound ∧ b'.orderPool.Sound := by
  obtain ⟨p, hget, -, hp⟩ := h.exists_level ho
  obtain ⟨l, m, hsplit⟩ := List.append_of_mem ((h.filed.mem _ o).mpr ⟨ho, rfl⟩)
  have hd := h.filed.nodup (priceToIndex (b.order o).price)
  have hring := h.filed.ring (priceToIndex (b.order o).price)
  have hfirst := h.filed.first _ p hget
  rw [hsplit] at hd hring hfirst
  by_cases halone : l = [] ∧ m = []
  · have hprev : (b.order o).prevOrder = some o := (hring.prev_self_iff hd).mpr halone
    obtain ⟨b', hrun, hcircles, hlevels, hpool⟩ := h.removeOrdersAtPrice hget hp
    refine ⟨b', ?_, hcircles, hlevels, hpool ▸ h.orderPool⟩
    simp only [PriceBook.unlinkOrder, hprev, if_true]
    exact hrun
  · obtain ⟨b', hrun, hu⟩ := unlinkOrder_spec hring hd halone hget hfirst
    have hlive : ∀ s : Side, s.Trading → b'.liveLevels (ladders s) = ladders s := fun s hs =>
      liveLevels_eq_self fun q hq => (hu.used q).mpr ((h.mem s hs q).mp hq).1
    have hnext : ∀ q, (b'.level q).nextEntry = (b.level q).nextEntry := fun q => by
      rw [hu.level]
      split <;> rfl
    have hprev : ∀ q, (b'.level q).prevEntry = (b.level q).prevEntry := fun q => by
      rw [hu.level]
      split <;> rfl
    refine ⟨b', hrun, ⟨fun s hs => ?_, fun s hs => ?_⟩, hu.sound h.levelPool, hu.orderSound h.orderPool⟩
    · simp only [hlive s hs, hnext, hprev]
      exact h.ring s hs
    · rw [hlive s hs, hu.top]
      exact h.top s hs

/-- What is left of the orders of a slot. -/
lemma Intact.liveOrders_erase (h : b.Intact rings ladders) {o : Nat}
    (hused : ∀ q, b'.orderPool.Used q ↔ q ≠ o ∧ b.orderPool.Used q) :
    Function.update rings (priceToIndex (b.order o).price) ((rings (priceToIndex (b.order o).price)).erase o) =
      fun i => b'.liveOrders (rings i) := by
  funext i
  rw [Function.update_apply]
  split
  · rename_i hi
    rw [hi, (h.filed.nodup _).erase_eq_filter]
    apply List.filter_congr
    intro q hq
    have hq' := ((h.filed.mem _ q).mp hq).1
    by_cases hqo : q = o <;> simp [hused, hqo, hq']
  · rename_i hi
    refine (liveOrders_eq_self fun q hq => ?_).symm
    obtain ⟨hq', hqi⟩ := (h.filed.mem i q).mp hq
    exact (hused q).mpr ⟨fun he => hi (hqi.symm.trans (congrArg (fun x => priceToIndex (b.order x).price) he)), hq'⟩

/-- Any order in use can be removed, and what is left is intact. -/
theorem Intact.removeOrder [DecidableEq K] (h : b.Intact rings ladders) {o : Nat} (ho : b.orderPool.Used o) :
    ∃ b', b.removeOrder o = .ok b' ∧
      b'.Intact (fun i => b'.liveOrders (rings i)) (fun s => b'.liveLevels (ladders s)) := by
  obtain ⟨b₁, hb₁, hcircles, hlevels, horders⟩ := h.unlinkOrder ho
  have hf₁ := (unlinkOrder_frame hb₁).1
  have hkey := h.inTable o ho
  have hdealloc := MemPool.deallocate_spec horders ((hf₁.used o).mpr ho)
  have hrun : b.removeOrder o = .ok ((b₁.setKey (OrderKey.key (b.order o).ids) none).setOrderPool
      (b₁.orderPool.release o)) := by
    simp [PriceBook.removeOrder, hb₁, setOrderTable, hf₁.ids, hkey, hdealloc]
  refine ⟨_, hrun, ?_⟩
  have hf := removeOrder_frame hrun
  have hfiled := h.filed.removeOrder hrun
  have hold := fun i p => h.filed.removeOrder_level hrun (i := i) (p := p)
  obtain ⟨b₂, hu, hlevel, -, -, hused⟩ := h.filed.removeOrder_unlink hrun
  have hside : ∀ p, (((b₁.setKey (OrderKey.key (b.order o).ids) none).setOrderPool
      (b₁.orderPool.release o)).level p).side = (b.level p).side := fun p => by rw [hlevel, hu.side]
  have hlive : ∀ p, b₁.ordersAtPricePool.Used p → b.ordersAtPricePool.Used p := fun p hp =>
    ((hu.used p).mp ((hused p).mp hp)).1
  have hdata := fun q => BookOrder.unlinked_eq_iff.mp (hf.order q)
  rw [h.liveOrders_erase hf.used] at hfiled
  refine ⟨⟨hcircles.ring, hcircles.top⟩, hfiled, fun s hs => ?_, fun s hs p => ?_, fun q p hq hp => ?_, hlevels,
    horders.release o, fun k q hq => ?_, fun q hq => ?_⟩
  · exact (h.nodup s hs).filter _
  · rw [mem_liveLevels, h.mem s hs, hside]
    constructor
    · rintro ⟨⟨-, hs⟩, hp⟩
      exact ⟨hp, hs⟩
    · rintro ⟨hp, hs⟩
      exact ⟨⟨hlive p hp, hs⟩, hp⟩
  · obtain ⟨-, hqside, hqprice, -⟩ := hdata q
    rw [hqprice] at hp
    rw [hside, hqside]
    exact h.sameLadder q p ((hf.used q).mp hq).2 (hold _ p hp).1
  · rw [hf.table, Function.update_apply] at hq
    split at hq
    · cases hq
    · rename_i hk
      obtain ⟨hqused, hqkey⟩ := h.table k q hq
      refine ⟨(hf.used q).mpr ⟨?_, hqused⟩, by rw [(hdata q).1, hqkey]⟩
      rintro rfl
      exact hk hqkey.symm
  · rw [(hdata q).1]
    exact h.inTable q ((hf.used q).mp hq).2

/-- An opened level is ready for its ladder. -/
lemma Intact.ladderReady (h : b.Intact rings ladders) {obj : BookOrder I} {o n : Nat} {c : PriceBook I K}
    (hfiling : Filing b rings o c) (htop : ∀ t, c.top t = b.top t) (hobj : c.order o = obj)
    (hsize : c.ordersAtPricePool.size = b.ordersAtPricePool.size) (hopen : Opened c o n b') :
    b'.LadderReady obj.side (ladders obj.side.ladder) n := by
  have hs := Side.trading_ladder obj.side
  have hfresh : n ∉ ladders obj.side.ladder := fun hn =>
    hopen.wasFree ((hfiling.levelUsed n).mpr ((h.mem _ hs n).mp hn).1)
  have hsame : ∀ q ∈ ladders obj.side.ladder, b'.level q = b.level q := fun q hq => by
    rw [hopen.otherLevel q fun he => hfresh (he ▸ hq), hfiling.level]
  refine ⟨?_, ?_, ?_, h.nodup _ hs, hfresh, ?_⟩
  · rw [hopen.level, hobj]
  · exact (h.ring _ hs).congr (fun q hq => by rw [hsame q hq]) (fun q hq => by rw [hsame q hq])
  · rw [hopen.top, htop, ← top_ladder]
    exact h.top _ hs
  · rw [hopen.size, hsize]
    exact length_le_of_nodup_of_lt (h.nodup _ hs) fun q hq => h.levelPool.used_lt q ((h.mem _ hs q).mp hq).1

/-- An order is added when its key has a place in the table and there is a block for a level it needs. -/
theorem Intact.addOrder_iff [DecidableEq K] (h : b.Intact rings ladders) {obj : BookOrder I}
    {pool : MemPool (BookOrder I)} {o : Nat} (halloc : b.orderPool.allocate obj = .ok (pool, o)) :
    (∃ b', (b.setOrderPool pool).addOrder o = .ok b') ↔
      OrderKey.inTable I (OrderKey.key obj.ids) = true ∧
      (b.getOrdersAtPrice obj.price = none → b.ordersAtPricePool.HasRoom) := by
  obtain ⟨hfiling, hobj⟩ := h.filed.filing halloc
  have hpool : (b.setOrderPool pool).ordersAtPricePool.Sound := h.levelPool
  have hlast : OrderKey.inTable I (OrderKey.key obj.ids) = true → ∀ b₁, (b.setOrderPool pool).linkOrder o = .ok b₁ →
      ∃ b', (b.setOrderPool pool).addOrder o = .ok b' := by
    intro hkey b₁ hb₁
    refine ⟨b₁.setKey (OrderKey.key obj.ids) (some o), ?_⟩
    simp only [addOrder, hb₁, ok_bind, setOrderTable, (linkOrder_frame hb₁).ids, hobj, hkey, if_true]
  cases hget : b.getOrdersAtPrice obj.price with
  | none =>
    have hget' : (b.setOrderPool pool).getOrdersAtPrice ((b.setOrderPool pool).order o).price = none := by
      rw [hobj]
      exact hget
    rcases linkOrder_open hpool hget' with ⟨hroom, herr⟩ | ⟨hroom, n, b₁, hopen, hlink⟩
    · constructor
      · rintro ⟨b', hrun⟩
        obtain ⟨b₁, hb₁, -⟩ := addOrder_ok hrun
        rw [herr] at hb₁
        cases hb₁
      · rintro ⟨-, hneeds⟩
        exact absurd (hneeds rfl) hroom
    · constructor
      · rintro ⟨b', hrun⟩
        have hin := addOrder_inTable hrun
        rw [hobj] at hin
        exact ⟨hin, fun _ => hroom⟩
      · rintro ⟨hkey, -⟩
        obtain ⟨b₂, hb₂⟩ := addOrdersAtPrice_returns (h.ladderReady hfiling (fun _ => rfl) hobj rfl hopen)
        exact hlast hkey b₂ (hlink.trans hb₂)
  | some p =>
    constructor
    · rintro ⟨b', hrun⟩
      have hin := addOrder_inTable hrun
      rw [hobj] at hin
      exact ⟨hin, fun hnone => absurd hnone (Option.some_ne_none p)⟩
    · rintro ⟨hkey, -⟩
      have hget' : (b.setOrderPool pool).getOrdersAtPrice ((b.setOrderPool pool).order o).price = some p := by
        rw [hobj]
        exact hget
      obtain ⟨x, t, hxt⟩ : ∃ x t, rings (priceToIndex obj.price) = x :: t := by
        apply List.exists_cons_of_ne_nil
        intro hnil
        rw [getOrdersAtPrice, (h.filed.empty _).mpr hnil] at hget
        cases hget
      have hfirst : ((b.setOrderPool pool).level p).firstOrder = some x := by
        rw [hfiling.level, h.filed.first _ p hget, hxt]
        rfl
      obtain ⟨y, -, hj⟩ := (hfiling.ring (priceToIndex obj.price)).exists_prev (a := x)
        (by rw [hxt]; exact List.mem_cons_self)
      exact hlast hkey _ (linkOrder_join hget' hfirst hj.2)

/-- A level that was free stands in the ladder of a side, the other ladder is as it was. -/
lemma Intact.inserted_circles (h : b.Intact rings ladders) {side : Side} {n : Nat} {ptrs' : List Nat}
    {b₁ b₂ : PriceBook I K} (hinserted : LevelInserted b₂ side (ladders side.ladder) n b₁ ptrs')
    (hlevel : ∀ q, b.ordersAtPricePool.Used q → b₂.level q = b.level q) (htop : ∀ s, b₂.top s = b.top s)
    (hfree : ¬b.ordersAtPricePool.Used n) : b₁.Circles (Function.update ladders side.ladder ptrs') := by
  have hs := Side.trading_ladder side
  refine ⟨fun s ht => ?_, fun s ht => ?_⟩
  · rw [Function.update_apply]
    split
    · exact hinserted.ring
    · rename_i hne
      have haway : ∀ q ∈ ladders s, b₁.level q = b.level q := by
        intro q hq
        have hqs := (h.mem s ht q).mp hq
        rw [hinserted.away q, hlevel q hqs.1]
        intro hmem
        rcases List.mem_cons.mp hmem with hqn | hqs'
        · exact hfree (hqn ▸ hqs.1)
        · exact hne (hqs.2.symm.trans ((h.mem _ hs q).mp hqs').2)
      exact (h.ring s ht).congr (fun q hq => by rw [haway q hq]) (fun q hq => by rw [haway q hq])
  · rw [Function.update_apply]
    split
    · rename_i he
      rw [he, top_ladder]
      exact hinserted.top
    · rename_i hne
      rw [hinserted.otherTop s (by rwa [ht.ladder_eq]), htop]
      exact h.top s ht

/-- What the ladders list after that. -/
lemma Intact.inserted_mem (h : b.Intact rings ladders) {side : Side} {n : Nat} {ptrs' : List Nat}
    {b₁ : PriceBook I K} (hperm : ptrs'.Perm (n :: ladders side.ladder))
    (hused : ∀ q, b₁.ordersAtPricePool.Used q ↔ q = n ∨ b.ordersAtPricePool.Used q)
    (hfree : ¬b.ordersAtPricePool.Used n) {s : Side} (ht : s.Trading) :
    (Function.update ladders side.ladder ptrs' s).Nodup ∧ ∀ p, p ∈ Function.update ladders side.ladder ptrs' s ↔
      p ∈ ladders s ∨ (b₁.ordersAtPricePool.Used p ∧ ¬b.ordersAtPricePool.Used p ∧ s = side.ladder) := by
  have hs := Side.trading_ladder side
  rw [Function.update_apply]
  split
  · rename_i he
    have hfresh : n ∉ ladders side.ladder := fun hn => hfree ((h.mem _ hs n).mp hn).1
    refine ⟨hperm.nodup_iff.mpr (List.nodup_cons.mpr ⟨hfresh, h.nodup _ hs⟩), fun p => ?_⟩
    rw [he, hperm.mem_iff, List.mem_cons, hused]
    constructor
    · rintro (rfl | hp)
      · exact .inr ⟨.inl rfl, hfree, rfl⟩
      · exact .inl hp
    · rintro (hp | ⟨hp, hpfree, -⟩)
      · exact .inr hp
      · exact .inl (hp.resolve_right hpfree)
  · rename_i hne
    exact ⟨h.nodup s ht, fun p => ⟨.inl, fun hp => hp.resolve_right fun hnew => hne hnew.2.2⟩⟩

omit [OrderKey I K] in
/-- An order that joins a level leaves the levels alone. -/
lemma linkOrder_levels {o p : Nat} {b₁ : PriceBook I K} (hget : b.getOrdersAtPrice (b.order o).price = some p)
    (hlink : b.linkOrder o = .ok b₁) : (∀ q, b₁.level q = b.level q) ∧ (∀ s, b₁.top s = b.top s) ∧
      b₁.ordersAtPricePool = b.ordersAtPricePool := by
  simp only [PriceBook.linkOrder, hget] at hlink
  obtain ⟨first, -, hlink⟩ := bind_eq_ok hlink
  obtain ⟨last, -, hlink⟩ := bind_eq_ok hlink
  cases hlink
  simp

/-- The ladders after an order was added: as they were, or with the new level in its place. -/
lemma Intact.addOrder_circles [DecidableEq K] (h : b.Intact rings ladders) {obj : BookOrder I}
    {pool : MemPool (BookOrder I)} {o : Nat} (halloc : b.orderPool.allocate obj = .ok (pool, o))
    (htears : b.getOrdersAtPrice obj.price = none → ¬b.TearsAt obj.side obj.price (ladders obj.side.ladder))
    (hrun : (b.setOrderPool pool).addOrder o = .ok b') :
    ∃ ladders', b'.Circles ladders' ∧ b'.ordersAtPricePool.Sound ∧
      ∀ s : Side, s.Trading → (ladders' s).Nodup ∧ ∀ p, p ∈ ladders' s ↔
        p ∈ ladders s ∨ (b'.ordersAtPricePool.Used p ∧ ¬b.ordersAtPricePool.Used p ∧ s = obj.side.ladder) := by
  obtain ⟨hfiling, hobj⟩ := h.filed.filing halloc
  obtain ⟨b₁, hlink, rfl⟩ := addOrder_ok hrun
  cases hget : b.getOrdersAtPrice obj.price with
  | some p =>
    have hget' : (b.setOrderPool pool).getOrdersAtPrice ((b.setOrderPool pool).order o).price = some p := by
      rw [hobj]
      exact hget
    obtain ⟨hlevel, htop, hpool⟩ := linkOrder_levels hget' hlink
    have hsound : b₁.ordersAtPricePool.Sound := hpool ▸ h.levelPool
    refine ⟨ladders, ⟨fun s hs => ?_, fun s hs => (htop s).trans (h.top s hs)⟩, hsound,
      fun s hs => ⟨h.nodup s hs, fun p => ?_⟩⟩
    · exact (h.ring s hs).congr (fun q _ => congrArg _ (hlevel q)) (fun q _ => congrArg _ (hlevel q))
    · constructor
      · exact .inl
      · rintro (hp | ⟨hused, hfree, -⟩)
        · exact hp
        · rw [ordersAtPricePool_setKey, hpool] at hused
          exact absurd hused hfree
  | none =>
    have hget' : (b.setOrderPool pool).getOrdersAtPrice ((b.setOrderPool pool).order o).price = none := by
      rw [hobj]
      exact hget
    have hpool : (b.setOrderPool pool).ordersAtPricePool.Sound := h.levelPool
    rcases linkOrder_open hpool hget' with ⟨-, herr⟩ | ⟨-, n, b₂, hopen, hsplice⟩
    · rw [herr] at hlink
      cases hlink
    · rw [hsplice] at hlink
      have hfree : ¬b.ordersAtPricePool.Used n := hopen.wasFree
      have hlevel : ∀ q, b.ordersAtPricePool.Used q → b₂.level q = b.level q := fun q hq => by
        rw [hopen.otherLevel q fun he => hfree (he ▸ hq), hfiling.level]
      have hsame : ∀ q ∈ ladders obj.side.ladder, (b₂.level q).price = (b.level q).price := fun q hq => by
        rw [hlevel q ((h.mem _ (Side.trading_ladder _) q).mp hq).1]
      have htears₂ : ¬b₂.TearsAt obj.side (b₂.level n).price (ladders obj.side.ladder) := by
        rw [hopen.level, hobj, tearsAt_congr hsame]
        exact htears hget
      obtain ⟨ptrs', hinserted⟩ :=
        addOrdersAtPrice_inserted (h.ladderReady hfiling (fun _ => rfl) hobj rfl hopen) htears₂ hlink
      have hcircles := h.inserted_circles hinserted hlevel hopen.top hfree
      have hsound : b₁.ordersAtPricePool.Sound := hinserted.sound hopen.sound
      have hused : ∀ q, b₁.ordersAtPricePool.Used q ↔ q = n ∨ b.ordersAtPricePool.Used q := fun q => by
        rw [(addOrdersAtPrice_ladder hlink).used, hopen.used, hfiling.levelUsed]
      exact ⟨_, ⟨hcircles.ring, hcircles.top⟩, hsound, fun s ht => h.inserted_mem hinserted.perm hused hfree ht⟩

/-- An addition keeps the book intact when it neither tears a ladder nor puts the order under a level
of the other one. -/
theorem Intact.addOrder [DecidableEq K] (h : b.Intact rings ladders) {obj : BookOrder I}
    {pool : MemPool (BookOrder I)} {o : Nat} (halloc : b.orderPool.allocate obj = .ok (pool, o))
    (hown : ∀ p, b.getOrdersAtPrice obj.price = some p → (b.level p).side.ladder = obj.side.ladder)
    (htears : b.getOrdersAtPrice obj.price = none → ¬b.TearsAt obj.side obj.price (ladders obj.side.ladder))
    (hrun : (b.setOrderPool pool).addOrder o = .ok b') : ∃ rings' ladders', b'.Intact rings' ladders' := by
  obtain ⟨ladders', hcircles, hlevels, hmem⟩ := h.addOrder_circles halloc htears hrun
  obtain ⟨n, hput, hfiling, hobj⟩ := h.filed.addOrder_put halloc hrun
  have hf := addOrder_frame hrun
  have hdata := fun q => BookOrder.unlinked_eq_iff.mp (hf.order q)
  have hin := addOrder_inTable hrun
  have hside : ∀ q, b.ordersAtPricePool.Used q → (b'.level q).side = (b.level q).side := by
    intro q hq
    by_cases hqn : q = n
    · rcases hput.origin with ⟨-, hfree, -⟩ | ⟨-, hsame⟩
      · exact absurd (hqn ▸ hq) hfree
      · rw [hqn, hsame]
        rfl
    · exact (OrdersAtPrice.unlinked_eq_iff.mp (hput.data q hqn)).1
  have hnew : (b'.level n).side.ladder = obj.side.ladder := by
    rcases hput.origin with ⟨-, -, hnside, -⟩ | ⟨hsome, hsame⟩
    · rw [hnside, hobj]
    · rw [hsame]
      exact hown n hsome
  have hsound : b'.orderPool.Sound := by
    obtain ⟨b₁, hlink, rfl⟩ := addOrder_ok hrun
    have hframe := linkOrder_frame hlink
    rcases MemPool.allocate_spec h.orderPool obj with ⟨-, herr⟩ | ⟨-, k, hok, hk, hkne, hkfree⟩
    · rw [herr] at halloc
      cases halloc
    · rw [hok] at halloc
      cases halloc
      have hpool := h.orderPool.allocated obj hk hkne hkfree
      refine ⟨?_, ?_, fun q hq => ?_⟩
      · rw [orderPool_setKey, hframe.next, hframe.size]
        exact hpool.next_lt
      · rw [orderPool_setKey, hframe.next, hframe.used]
        exact hpool.next_free
      · rw [orderPool_setKey, hframe.size]
        exact hpool.used_lt q ((hframe.used q).mp hq)
  refine ⟨_, ladders', hcircles, h.filed.addOrder halloc hrun, fun s hs => (hmem s hs).1, fun s hs p => ?_,
    fun q p hq hp => ?_, hlevels, hsound, fun k q hq => ?_, fun q hq => ?_⟩
  · rw [(hmem s hs).2, h.mem s hs]
    have hused := hput.used p
    constructor
    · rintro (⟨hp, hps⟩ | ⟨hp, hfree, rfl⟩)
      · exact ⟨hused.mpr (.inr hp), by rw [hside p hp, hps]⟩
      · obtain rfl : p = n := (hused.mp hp).resolve_right hfree
        exact ⟨hp, hnew⟩
    · rintro ⟨hp, hps⟩
      by_cases hold : b.ordersAtPricePool.Used p
      · exact .inl ⟨hold, by rw [← hside p hold, hps]⟩
      · obtain rfl : p = n := (hused.mp hp).resolve_right hold
        exact .inr ⟨hp, hold, by rw [← hps, hnew]⟩
  · have hprice := (hdata q).2.2.1
    rw [(hdata q).2.1]
    rw [hprice, getOrdersAtPrice, hput.prices, Function.update_apply] at hp
    rcases (hfiling.orderUsed q).mp ((hf.used q).mp hq) with rfl | hq
    · rw [hobj, if_pos rfl] at hp
      obtain rfl := Option.some.inj hp
      rw [hobj, hnew]
    · have hqo : q ≠ o := fun he => hfiling.fresh (he ▸ hq)
      rw [hfiling.order q hqo] at hp ⊢
      split at hp
      · rename_i hindex
        obtain rfl := Option.some.inj hp
        have hqslot := (h.filed.mem _ q).mpr ⟨hq, hindex⟩
        rcases hput.origin with ⟨hnone, -⟩ | ⟨hsome, hsame⟩
        · rw [(h.filed.empty _).mp hnone] at hqslot
          cases hqslot
        · rw [hsame]
          exact h.sameLadder q n hq (by rw [getOrdersAtPrice, hindex]; exact hsome)
      · rw [hside p ((h.filed.level _ p).mp hp).1]
        exact h.sameLadder q p hq hp
  · rw [hf.table, Function.update_apply, hobj] at hq
    rw [hf.used, hfiling.orderUsed, (hdata q).1]
    split at hq
    · rename_i hk
      obtain rfl := Option.some.inj hq
      exact ⟨.inl rfl, by rw [hobj, hk]⟩
    · obtain ⟨hqused, hqkey⟩ := h.table k q hq
      have hqo : q ≠ o := fun he => hfiling.fresh (he ▸ hqused)
      exact ⟨.inr hqused, by rw [hfiling.order q hqo, hqkey]⟩
  · rw [(hdata q).1]
    rcases (hfiling.orderUsed q).mp ((hf.used q).mp hq) with rfl | hq
    · exact hin
    · have hqo : q ≠ o := fun he => hfiling.fresh (he ▸ hq)
      rw [hfiling.order q hqo]
      exact h.inTable q hq

lemma Intact.setQty (h : b.Intact rings ladders) (o : Nat) (qty : Qty) : (b.setQty o qty).Intact rings ladders where
  ring := h.ring
  top := h.top
  filed := h.filed.setQty o qty
  nodup := h.nodup
  mem := h.mem
  sameLadder := fun q p hq hp => by
    rw [price_setQty] at hp
    rw [side_setQty]
    exact h.sameLadder q p (by simpa using hq) hp
  levelPool := h.levelPool
  orderPool := by simpa using h.orderPool
  table := fun k q hq => by
    rw [ids_setQty]
    simpa using h.table k q hq
  inTable := fun q hq => by
    rw [ids_setQty]
    exact h.inTable q (by simpa using hq)

lemma intact_empty {levels : MemPool OrdersAtPrice} {orders : MemPool (BookOrder I)}
    (hlevels : levels.Sound) (horders : orders.Sound) (hnoLevel : ∀ p, ¬levels.Used p)
    (hnoOrder : ∀ o, ¬orders.Used o) :
    (⟨levels, none, none, fun _ => none, orders, fun _ => none⟩ : PriceBook I K).Intact (fun _ => []) (fun _ => []) where
  ring := fun _ _ => ring_nil
  top := by rintro s (rfl | rfl) <;> rfl
  filed := filed_empty hnoLevel hnoOrder
  nodup := fun _ _ => .nil
  mem := fun s _ p => by simp [hnoLevel]
  sameLadder := fun o _ ho => absurd ho (hnoOrder o)
  levelPool := hlevels
  orderPool := horders
  table := fun k o ho => by cases ho
  inTable := fun o ho => absurd ho (hnoOrder o)

end Keys

/-- The levels of a side, read from its top. -/
def ladder (b : PriceBook I K) (s : Side) : List Nat :=
  (readRing (fun p => (b.level p).nextEntry) b.ordersAtPricePool.size (b.top s)).getD []

/-- The orders of a level, read from its first. -/
def ordersOf (b : PriceBook I K) (p : Nat) : List Nat :=
  (readRing (fun o => (b.order o).nextOrder) b.orderPool.size (b.level p).firstOrder).getD []

lemma Filed.ordersOf_eq (h : b.Filed rings) (hpool : b.orderPool.Sound) {p : Nat} (hp : b.ordersAtPricePool.Used p) :
    b.ordersOf p = rings (priceToIndex (b.level p).price) := by
  have hget := (h.level _ p).mpr ⟨hp, rfl⟩
  have hlen := length_le_of_nodup_of_lt (h.nodup (priceToIndex (b.level p).price)) fun o ho =>
    hpool.used_lt o ((h.mem _ o).mp ho).1
  rw [ordersOf, h.first _ p hget, (h.ring _).readRing (h.nodup _) hlen]
  rfl

section Keys
variable [OrderKey I K]

lemma Intact.ladder_eq (h : b.Intact rings ladders) (s : Side) : b.ladder s = ladders s.ladder := by
  have hs := Side.trading_ladder s
  have hlen := length_le_of_nodup_of_lt (h.nodup _ hs) fun p hp => h.levelPool.used_lt p ((h.mem _ hs p).mp hp).1
  rw [ladder, ← top_ladder, h.top _ hs, (h.ring _ hs).readRing (h.nodup _ hs) hlen]
  rfl

lemma Intact.ordersOf_eq (h : b.Intact rings ladders) {p : Nat} (hp : b.ordersAtPricePool.Used p) :
    b.ordersOf p = rings (priceToIndex (b.level p).price) := h.filed.ordersOf_eq h.orderPool hp

end Keys
end PriceBook
end LowLatencyExchange
