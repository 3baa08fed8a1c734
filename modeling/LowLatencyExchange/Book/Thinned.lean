import LowLatencyExchange.Book.Intact

/-!
# Taking orders out

What is left of an intact book when some of its orders have left it: the rings and ladders without
them, the slots they had to themselves, and the blocks they had.
-/

namespace LowLatencyExchange
open CircularList
namespace PriceBook
variable {I K : Type} [OrderKey I K] {b b' b'' : PriceBook I K} {rings : Nat → List Nat} {ladders : Side → List Nat}
  {gone gone' : List Nat}

structure Thinned (b : PriceBook I K) (rings : Nat → List Nat) (ladders : Side → List Nat) (gone : List Nat)
    (b' : PriceBook I K) : Prop where
  intact : b'.Intact (fun i => b'.liveOrders (rings i)) (fun s => b'.liveLevels (ladders s))
  wasUsed : ∀ o ∈ gone, b.orderPool.Used o
  used : ∀ o, b'.orderPool.Used o ↔ b.orderPool.Used o ∧ o ∉ gone
  ids : ∀ o, (b'.order o).ids = (b.order o).ids
  side : ∀ o, (b'.order o).side = (b.order o).side
  price : ∀ o, (b'.order o).price = (b.order o).price
  levelSide : ∀ p, (b'.level p).side = (b.level p).side
  levelPrice : ∀ p, (b'.level p).price = (b.level p).price
  levelUsed : ∀ p, b'.ordersAtPricePool.Used p → b.ordersAtPricePool.Used p
  slot : ∀ i p, b'.priceOrdersAtPrice i = some p → b.priceOrdersAtPrice i = some p
  orderSize : b'.orderPool.size = b.orderPool.size
  levelSize : b'.ordersAtPricePool.size = b.ordersAtPricePool.size

lemma Intact.liveOrders_rings (h : b.Intact rings ladders) : (fun i => b.liveOrders (rings i)) = rings :=
  funext fun i => liveOrders_eq_self fun o ho => ((h.filed.mem i o).mp ho).1

/-- The ladders only matter for the two trading sides. -/
lemma Intact.congr {ladders' : Side → List Nat} (h : b.Intact rings ladders)
    (hsame : ∀ s : Side, s.Trading → ladders' s = ladders s) : b.Intact rings ladders' where
  ring := fun s hs => by
    rw [hsame s hs]
    exact h.ring s hs
  top := fun s hs => by
    rw [hsame s hs]
    exact h.top s hs
  filed := h.filed
  nodup := fun s hs => by
    rw [hsame s hs]
    exact h.nodup s hs
  mem := fun s hs => by
    rw [hsame s hs]
    exact h.mem s hs
  sameLadder := h.sameLadder
  levelPool := h.levelPool
  orderPool := h.orderPool
  table := h.table
  inTable := h.inTable

/-- Nothing has left but quantity. -/
lemma Intact.thinned_setQty (h : b.Intact rings ladders) (o : Nat) (qty : Qty) :
    Thinned b rings ladders [] (b.setQty o qty) := by
  have hintact := h.setQty o qty
  have hlevels : ∀ s : Side, s.Trading → (b.setQty o qty).liveLevels (ladders s) = ladders s := fun s hs =>
    liveLevels_eq_self fun p hp => ((h.mem s hs p).mp hp).1
  refine ⟨?_, fun q hq => absurd hq List.not_mem_nil, fun q => by simp, fun q => by simp, fun q => by simp,
    fun q => by simp, fun p => rfl, fun p => rfl, fun p hp => hp, fun i p hp => hp, rfl, rfl⟩
  rw [hintact.liveOrders_rings]
  exact hintact.congr hlevels

lemma Intact.thinned_self (h : b.Intact rings ladders) : Thinned b rings ladders [] b := by
  have hlevels : ∀ s : Side, s.Trading → b.liveLevels (ladders s) = ladders s := fun s hs =>
    liveLevels_eq_self fun p hp => ((h.mem s hs p).mp hp).1
  refine ⟨?_, fun q hq => absurd hq List.not_mem_nil, fun q => by simp, fun q => rfl, fun q => rfl,
    fun q => rfl, fun p => rfl, fun p => rfl, fun p hp => hp, fun i p hp => hp, rfl, rfl⟩
  rw [h.liveOrders_rings]
  exact h.congr hlevels

lemma Thinned.trans (h : Thinned b rings ladders gone b')
    (h' : Thinned b' (fun i => b'.liveOrders (rings i)) (fun s => b'.liveLevels (ladders s)) gone' b'') :
    Thinned b rings ladders (gone ++ gone') b'' := by
  have horders : (fun i => b''.liveOrders (b'.liveOrders (rings i))) = fun i => b''.liveOrders (rings i) := by
    funext i
    rw [liveOrders, liveOrders, List.filter_filter]
    apply List.filter_congr
    intro o _
    by_cases ho : b''.orderPool.Used o
    · simp [ho, ((h'.used o).mp ho).1]
    · simp [ho]
  have hlevels : (fun s => b''.liveLevels (b'.liveLevels (ladders s))) = fun s => b''.liveLevels (ladders s) := by
    funext s
    rw [liveLevels, liveLevels, List.filter_filter]
    apply List.filter_congr
    intro p _
    by_cases hp : b''.ordersAtPricePool.Used p
    · simp [hp, h'.levelUsed p hp]
    · simp [hp]
  have hintact := h'.intact
  rw [horders, hlevels] at hintact
  refine ⟨hintact, fun o ho => ?_, fun o => ?_, fun o => (h'.ids o).trans (h.ids o),
    fun o => (h'.side o).trans (h.side o), fun o => (h'.price o).trans (h.price o),
    fun p => (h'.levelSide p).trans (h.levelSide p), fun p => (h'.levelPrice p).trans (h.levelPrice p),
    fun p hp => h.levelUsed p (h'.levelUsed p hp), fun i p hp => h.slot i p (h'.slot i p hp),
    h'.orderSize.trans h.orderSize, h'.levelSize.trans h.levelSize⟩
  · rcases List.mem_append.mp ho with ho | ho
    · exact h.wasUsed o ho
    · exact ((h.used o).mp (h'.wasUsed o ho)).1
  · rw [h'.used, h.used, List.mem_append, not_or, and_assoc]

/-- A removal takes one order out. -/
theorem Intact.removeOrder_thinned [DecidableEq K] (h : b.Intact rings ladders) {o : Nat} (ho : b.orderPool.Used o) :
    ∃ b', b.removeOrder o = .ok b' ∧ Thinned b rings ladders [o] b' := by
  obtain ⟨b', hrun, hintact⟩ := h.removeOrder ho
  have hf := removeOrder_frame hrun
  have hdata := fun q => BookOrder.unlinked_eq_iff.mp (hf.order q)
  obtain ⟨b₁, hu, hlevel, -, -, hused⟩ := h.filed.removeOrder_unlink hrun
  refine ⟨b', hrun, hintact, fun q hq => ?_, fun q => ?_, fun q => (hdata q).1, fun q => (hdata q).2.1,
    fun q => (hdata q).2.2.1, fun p => by rw [hlevel, hu.side], fun p => by rw [hlevel, hu.price],
    fun p hp => ((hu.used p).mp ((hused p).mp hp)).1, fun i p hp => (h.filed.removeOrder_level hrun hp).1,
    hf.orderSize, hf.levelRoom.size⟩
  · exact List.mem_singleton.mp hq ▸ ho
  · rw [hf.used, List.mem_singleton, and_comm]

section Left
variable (h : b.Intact rings ladders) (ht : Thinned b rings ladders gone b')
include h ht

/-- A slot is null when all of its orders have left. -/
lemma Thinned.slot_none (i : Nat) : b'.priceOrdersAtPrice i = none ↔ ∀ o ∈ rings i, o ∈ gone := by
  rw [ht.intact.filed.empty, List.eq_nil_iff_forall_not_mem]
  apply forall_congr'
  intro o
  rw [mem_liveOrders, ht.used]
  have hused := fun ho => ((h.filed.mem i o).mp ho).1
  tauto

/-- A level leaves when all of its orders have left. -/
lemma Thinned.level_left {p : Nat} (hp : b.ordersAtPricePool.Used p) :
    ¬b'.ordersAtPricePool.Used p ↔ ∀ o ∈ b.ordersOf p, o ∈ gone := by
  have hget := (h.filed.level _ p).mpr ⟨hp, rfl⟩
  rw [h.ordersOf_eq hp, ← ht.slot_none h]
  constructor
  · intro hnot
    cases hslot : b'.priceOrdersAtPrice (priceToIndex (b.level p).price) with
    | none => rfl
    | some q =>
      obtain rfl : p = q := Option.some.inj (hget.symm.trans (ht.slot _ q hslot))
      exact absurd ((ht.intact.filed.level _ p).mp hslot).1 hnot
  · intro hnone hused
    have hslot := (ht.intact.filed.level _ p).mpr ⟨hused, rfl⟩
    rw [ht.levelPrice, hnone] at hslot
    cases hslot

lemma Thinned.orderRoom : b'.orderPool.HasRoom ↔ b.orderPool.HasRoom ∨ gone ≠ [] := by
  rw [h.orderPool.hasRoom_freed_iff ht.intact.orderPool ht.orderSize fun o ho => ((ht.used o).mp ho).1]
  apply or_congr_right
  constructor
  · rintro ⟨o, hold, hnew⟩ rfl
    exact hnew ((ht.used o).mpr ⟨hold, List.not_mem_nil⟩)
  · intro hne
    obtain ⟨o, ho⟩ := List.exists_mem_of_ne_nil gone hne
    exact ⟨o, ht.wasUsed o ho, fun hused => ((ht.used o).mp hused).2 ho⟩

lemma Thinned.levelRoom : b'.ordersAtPricePool.HasRoom ↔ b.ordersAtPricePool.HasRoom ∨
    ∃ p, b.ordersAtPricePool.Used p ∧ ∀ o ∈ b.ordersOf p, o ∈ gone := by
  rw [h.levelPool.hasRoom_freed_iff ht.intact.levelPool ht.levelSize ht.levelUsed]
  exact or_congr_right (exists_congr fun p => and_congr_right fun hp => ht.level_left h hp)

/-- A ladder stays as it is when none of its orders has left. -/
lemma Thinned.ladder_same {s : Side} (hother : ∀ o ∈ gone, (b.order o).side.ladder ≠ s.ladder) :
    b'.ladder s = b.ladder s := by
  have hs := Side.trading_ladder s
  rw [ht.intact.ladder_eq, h.ladder_eq]
  apply liveLevels_eq_self
  intro p hp
  obtain ⟨hused, hside⟩ := (h.mem _ hs p).mp hp
  by_contra hnot
  have hall := (ht.level_left h hused).mp hnot
  rw [h.ordersOf_eq hused] at hall
  have hget := (h.filed.level _ p).mpr ⟨hused, rfl⟩
  obtain ⟨o, ho⟩ := List.exists_mem_of_ne_nil _ fun hnil => by
    rw [(h.filed.empty _).mpr hnil] at hget
    cases hget
  obtain ⟨hoUsed, hindex⟩ := (h.filed.mem _ o).mp ho
  apply hother o (hall o ho)
  rw [← h.sameLadder o p hoUsed (by rw [getOrdersAtPrice, hindex]; exact hget), hside]

/-- The orders of a side, in the order of its ladder, without those that have left. -/
lemma Thinned.flatMap_ladder (s : Side) : (b'.ladder s).flatMap b'.ordersOf =
    b'.liveOrders ((b.ladder s).flatMap b.ordersOf) := by
  have hs := Side.trading_ladder s
  rw [ht.intact.ladder_eq, h.ladder_eq, liveOrders, List.filter_flatMap]
  have hused : ∀ p ∈ ladders s.ladder, b.ordersAtPricePool.Used p := fun p hp => ((h.mem _ hs p).mp hp).1
  generalize ladders s.ladder = ptrs at hused
  induction ptrs with
  | nil => rfl
  | cons p ptrs ih =>
    have hp := hused p List.mem_cons_self
    have hrest := ih fun q hq => hused q (List.mem_cons_of_mem p hq)
    rw [List.flatMap_cons, ← hrest]
    by_cases hleft : b'.ordersAtPricePool.Used p
    · have horders : b'.ordersOf p = (b.ordersOf p).filter fun o => decide (b'.orderPool.Used o) := by
        rw [ht.intact.ordersOf_eq hleft, h.ordersOf_eq hp, ht.levelPrice]
        rfl
      rw [liveLevels, List.filter_cons, if_pos (decide_eq_true hleft), List.flatMap_cons, horders]
      rfl
    · have hnone : ((b.ordersOf p).filter fun o => decide (b'.orderPool.Used o)) = [] := by
        apply List.filter_eq_nil_iff.mpr
        intro o ho hused
        exact ((ht.used o).mp (of_decide_eq_true hused)).2 ((ht.level_left h hp).mp hleft o ho)
      rw [hnone, List.nil_append, liveLevels, List.filter_cons, if_neg (by simpa using hleft)]
      rfl

end Left

/-- The orders of a side are in use, stand in its ladder, and are listed once. -/
lemma Intact.mem_flatMap_ladder (h : b.Intact rings ladders) {s : Side} {o : Nat}
    (ho : o ∈ (b.ladder s).flatMap b.ordersOf) : b.orderPool.Used o ∧ (b.order o).side.ladder = s.ladder := by
  obtain ⟨p, hp, ho⟩ := List.mem_flatMap.mp ho
  rw [h.ladder_eq] at hp
  obtain ⟨hused, hside⟩ := (h.mem _ (Side.trading_ladder s) p).mp hp
  rw [h.ordersOf_eq hused] at ho
  obtain ⟨hoUsed, hindex⟩ := (h.filed.mem _ o).mp ho
  have hget := (h.filed.level _ p).mpr ⟨hused, rfl⟩
  exact ⟨hoUsed, by rw [← h.sameLadder o p hoUsed (by rw [getOrdersAtPrice, hindex]; exact hget), hside]⟩

lemma Intact.nodup_flatMap_ladder (h : b.Intact rings ladders) (s : Side) :
    ((b.ladder s).flatMap b.ordersOf).Nodup := by
  have hs := Side.trading_ladder s
  rw [h.ladder_eq]
  refine List.nodup_flatMap.mpr ⟨fun p hp => ?_, (h.nodup _ hs).imp_of_mem fun {p q} hp hq hne => ?_⟩
  · rw [h.ordersOf_eq ((h.mem _ hs p).mp hp).1]
    exact h.filed.nodup _
  · have hpu := ((h.mem _ hs p).mp hp).1
    have hqu := ((h.mem _ hs q).mp hq).1
    intro o hop hoq
    rw [h.ordersOf_eq hpu] at hop
    rw [h.ordersOf_eq hqu] at hoq
    have hindex := ((h.filed.mem _ o).mp hop).2.symm.trans ((h.filed.mem _ o).mp hoq).2
    have hpget := (h.filed.level _ p).mpr ⟨hpu, rfl⟩
    have hqget := (h.filed.level _ q).mpr ⟨hqu, rfl⟩
    rw [hindex] at hpget
    exact hne (Option.some.inj (hpget.symm.trans hqget))

end PriceBook
end LowLatencyExchange
