import LowLatencyExchange.Book.Remove

/-!
# Shapes with fewer orders

What a shape is once some of its orders have left: every level keeps the order of the rest, and
the levels keep theirs, less those that ran empty. A removal from a well-formed book takes one
order out of its shape, and writes no field of the levels but the first order of one.
-/

namespace LowLatencyExchange
open CircularList

def LevelShape.keep (kept : Nat → Bool) (l : LevelShape) : LevelShape := ⟨l.ptr, l.orders.filter kept⟩

/-- Levels without the orders that are not kept, and without the levels that keep none. -/
def keepLevels (kept : Nat → Bool) (ls : List LevelShape) : List LevelShape :=
  (ls.map (LevelShape.keep kept)).filter fun l => l.orders ≠ []

namespace Shape
variable {sh sh' : Shape} {s : Side} {pre post : List LevelShape} {p o : Nat} {l m : List Nat}
  {kept kept' : Nat → Bool}

def keep (kept : Nat → Bool) (sh : Shape) : Shape := ⟨keepLevels kept sh.bids, keepLevels kept sh.asks⟩

/-- The orders of a side, best level first and in arrival order. -/
def queue (sh : Shape) (s : Side) : List Nat := (sh.side s).flatMap LevelShape.orders

lemma ext_side (h : ∀ t : Side, t.Trading → sh.side t = sh'.side t) : sh = sh' := by
  cases sh
  cases sh'
  have hbids := h .buy (.inl rfl)
  have hasks := h .sell (.inr rfl)
  simp only [side, reduceCtorEq, if_true, if_false] at hbids hasks
  rw [hbids, hasks]

lemma side_keep (sh : Shape) (s : Side) : (sh.keep kept).side s = keepLevels kept (sh.side s) := by
  unfold side
  split <;> rfl

lemma keepLevels_append (ls ms : List LevelShape) :
    keepLevels kept (ls ++ ms) = keepLevels kept ls ++ keepLevels kept ms := by
  simp only [keepLevels, List.map_append, List.filter_append]

lemma keepLevels_singleton (p : Nat) (l : List Nat) :
    keepLevels kept [⟨p, l⟩] = LevelShape.remaining p (l.filter kept) := by
  by_cases hl : l.filter kept = []
  · simp [keepLevels, LevelShape.keep, LevelShape.remaining, hl]
  · simp [keepLevels, LevelShape.keep, LevelShape.remaining, hl]

/-- Levels all of whose orders are kept stay as they are. -/
lemma keepLevels_eq_self {ls : List LevelShape} (hne : ∀ l ∈ ls, l.orders ≠ [])
    (hall : ∀ l ∈ ls, ∀ o ∈ l.orders, kept o = true) : keepLevels kept ls = ls := by
  have hmap : ls.map (LevelShape.keep kept) = ls := by
    refine (List.map_congr_left fun l hl => ?_).trans (List.map_id ls)
    simp only [LevelShape.keep, List.filter_eq_self.mpr (hall l hl), id]
  rw [keepLevels, hmap]
  exact List.filter_eq_self.mpr fun l hl => by simpa using hne l hl

lemma flatMap_keepLevels (ls : List LevelShape) :
    (keepLevels kept ls).flatMap LevelShape.orders = (ls.flatMap LevelShape.orders).filter kept := by
  induction ls with
  | nil => rfl
  | cons l ls ih =>
    have hcons : keepLevels kept (l :: ls) = keepLevels kept [l] ++ keepLevels kept ls :=
      keepLevels_append [l] ls
    rw [hcons, List.flatMap_append, ih, List.flatMap_cons, List.filter_append]
    congr 1
    obtain ⟨p, os⟩ := l
    rw [keepLevels_singleton, LevelShape.remaining]
    split
    · rename_i hempty
      simp [hempty]
    · simp

lemma queue_keep (sh : Shape) (s : Side) : (sh.keep kept).queue s = (sh.queue s).filter kept := by
  rw [queue, side_keep, flatMap_keepLevels, queue]

lemma mem_orders_keep : o ∈ (sh.keep kept).orders ↔ o ∈ sh.orders ∧ kept o = true := by
  rw [← List.mem_filter]
  simp only [orders, levels, keep, ← keepLevels_append, flatMap_keepLevels]

lemma mem_levels_keep {x : LevelShape} : x ∈ (sh.keep kept).levels ↔
    x.orders ≠ [] ∧ ∃ l ∈ sh.levels, l.keep kept = x := by
  rw [show (sh.keep kept).levels = keepLevels kept sh.levels from (keepLevels_append sh.bids sh.asks).symm]
  simp only [keepLevels, List.mem_filter, List.mem_map, decide_eq_true_eq]
  exact and_comm

lemma keepLevels_keepLevels (ls : List LevelShape) :
    keepLevels kept' (keepLevels kept ls) = keepLevels (fun o => kept o && kept' o) ls := by
  induction ls with
  | nil => rfl
  | cons l ls ih =>
    have hcons : ∀ (k : Nat → Bool) ms, keepLevels k (l :: ms) = keepLevels k [l] ++ keepLevels k ms :=
      fun k ms => keepLevels_append [l] ms
    rw [hcons, keepLevels_append, ih, hcons (fun o => kept o && kept' o)]
    congr 1
    obtain ⟨p, os⟩ := l
    rw [keepLevels_singleton, keepLevels_singleton, LevelShape.remaining]
    have hfilter : os.filter (fun o => kept o && kept' o) = (os.filter kept).filter kept' := by
      rw [List.filter_filter]
      exact List.filter_congr fun o _ => Bool.and_comm _ _
    split
    · rename_i hempty
      rw [hfilter, hempty]
      rfl
    · rw [keepLevels_singleton, hfilter]

/-- Two selections in a row are one. -/
lemma keep_keep (sh : Shape) : (sh.keep kept).keep kept' = sh.keep fun o => kept o && kept' o := by
  simp only [keep, keepLevels_keepLevels]

lemma keep_congr (h : ∀ o ∈ sh.orders, kept o = kept' o) : sh.keep kept = sh.keep kept' := by
  have hlevels : ∀ ls : List LevelShape, (∀ l ∈ ls, l ∈ sh.levels) → keepLevels kept ls = keepLevels kept' ls := by
    intro ls hls
    have hmap : ls.map (LevelShape.keep kept) = ls.map (LevelShape.keep kept') := by
      apply List.map_congr_left
      intro l hl
      have hsame : l.orders.filter kept = l.orders.filter kept' :=
        List.filter_congr fun o ho => h o (List.mem_flatMap.mpr ⟨l, hls l hl, ho⟩)
      simp only [LevelShape.keep, hsame]
    rw [keepLevels, keepLevels, hmap]
  have hbids := hlevels sh.bids fun l hl => List.mem_append_left _ hl
  have hasks := hlevels sh.asks fun l hl => List.mem_append_right _ hl
  simp only [keep, hbids, hasks]

/-- Nothing leaves when everything is kept. -/
lemma keep_eq_self (hne : ∀ l ∈ sh.levels, l.orders ≠ []) (hall : ∀ o ∈ sh.orders, kept o = true) :
    sh.keep kept = sh := by
  apply ext_side
  intro t ht
  rw [side_keep]
  exact keepLevels_eq_self (fun l hl => hne l (mem_levels_of_side ht hl))
    fun l hl o ho => hall o (mem_orders_of_side ht hl ho)

/-- An order that is dropped is the one that is not kept. -/
theorem dropOrder_eq_keep (hne : ∀ l ∈ sh.levels, l.orders ≠ []) (hnodup : sh.orders.Nodup)
    (hs : s.Trading) (hside : sh.side s = pre ++ ⟨p, l ++ o :: m⟩ :: post) :
    sh.dropOrder s pre post p (l ++ m) = sh.keep fun q => q ≠ o := by
  have hperm := (orders_perm hs sh).nodup_iff.mp hnodup
  have hrest : (sh.dropOrder s pre post p (l ++ m)).orders.Nodup ∧
      o ∉ (sh.dropOrder s pre post p (l ++ m)).orders := by
    have hcons := (orders_dropOrder_perm hs hside).nodup_iff.mp hnodup
    exact ⟨(List.nodup_cons.mp hcons).2, (List.nodup_cons.mp hcons).1⟩
  have hkept : ∀ t : Side, t.Trading → ∀ ls : List LevelShape,
      (∀ x ∈ ls, x ∈ sh.side t ∧ x ∈ (sh.dropOrder s pre post p (l ++ m)).side t) →
      keepLevels (fun q => q ≠ o) ls = ls := by
    intro t ht ls hls
    refine keepLevels_eq_self (fun x hx => hne x (mem_levels_of_side ht (hls x hx).1)) fun x hx q hq => ?_
    have hne' : q ≠ o := fun he => hrest.2 (he ▸ mem_orders_of_side ht (hls x hx).2 hq)
    simpa using hne'
  apply ext_side
  intro t ht
  rw [side_keep]
  by_cases hts : t = s
  · subst hts
    have hcons : (⟨p, l ++ o :: m⟩ : LevelShape) :: post = [⟨p, l ++ o :: m⟩] ++ post := rfl
    rw [dropOrder_side, hside, hcons, keepLevels_append, keepLevels_append, keepLevels_singleton]
    have hring : (l ++ o :: m).Nodup := by
      have hd := (List.nodup_append.mp hperm).1
      rw [hside, List.flatMap_append, List.flatMap_cons] at hd
      exact (List.nodup_append.mp (List.nodup_append.mp hd).2.1).1
    have hmid : (l ++ o :: m).filter (fun q => q ≠ o) = l ++ m := by
      have hout := (List.nodup_middle.mp hring).notMem
      rw [List.filter_append, List.filter_cons_of_neg (by simp), ← List.filter_append]
      apply List.filter_eq_self.mpr
      intro q hq
      have hqo : q ≠ o := fun he => hout (he ▸ hq)
      simpa using hqo
    rw [hmid, hkept t ht pre fun x hx => ⟨by simp [hside, hx], by simp [dropOrder_side, hx]⟩,
      hkept t ht post fun x hx => ⟨by simp [hside, hx], by simp [dropOrder_side, hx]⟩, List.append_assoc]
  · have hsame : (sh.dropOrder s pre post p (l ++ m)).side t = sh.side t := side_setSide_of_ne hs ht hts sh _
    rw [hsame, hkept t ht (sh.side t) fun x hx => ⟨hx, by rw [hsame]; exact hx⟩]

end Shape

namespace PriceBook
variable {I K : Type} {b b' : PriceBook I K} {sh : Shape} {o : Nat}

/-- The levels once the orders of one were touched. -/
structure LevelsKept (b : PriceBook I K) (lvl : Option Nat) (b' : PriceBook I K) : Prop where
  side : ∀ q, (b'.level q).side = (b.level q).side
  price : ∀ q, (b'.level q).price = (b.level q).price
  first : ∀ q, lvl ≠ some q → (b'.level q).firstOrder = (b.level q).firstOrder

lemma unlinkOrder_levels (h : b.unlinkOrder o = .ok b') :
    LevelsKept b (b.getOrdersAtPrice (b.order o).price) b' := by
  simp only [unlinkOrder] at h
  split at h
  · obtain ⟨lvl, -, h⟩ := bind_eq_ok h
    obtain ⟨b₁, hb₁, h⟩ := bind_eq_ok h
    obtain ⟨pool, hpool, h⟩ := bind_eq_ok h
    cases h
    obtain ⟨-, rfl⟩ := MemPool.deallocate_eq_ok hpool
    have hdata := (unlinkOrdersAtPrice_unlink hb₁).data
    have hlevel : ∀ q, ((b₁.setOrdersAtPrice (b.order o).price none).setLevelPool
        (b₁.ordersAtPricePool.release lvl)).level q = b₁.level q := fun q => by simp [level]
    refine ⟨fun q => ?_, fun q => ?_, fun q _ => ?_⟩
    all_goals refine (congrArg _ (hlevel q)).trans ?_
    · exact (OrdersAtPrice.unlinked_eq_iff.mp (hdata q)).1
    · exact (OrdersAtPrice.unlinked_eq_iff.mp (hdata q)).2.1
    · exact (OrdersAtPrice.unlinked_eq_iff.mp (hdata q)).2.2
  · obtain ⟨before, -, h⟩ := bind_eq_ok h
    obtain ⟨after, -, h⟩ := bind_eq_ok h
    obtain ⟨lvl, hlvl, h⟩ := bind_eq_ok h
    have hlvl := deref_eq_ok hlvl
    cases h
    refine ⟨fun q => ?_, fun q => ?_, fun q hq => ?_⟩
    · split <;> simp
    · split <;> simp
    · have hne : q ≠ lvl := fun he => hq (he ▸ hlvl)
      split <;> simp [level_modifyLevel, hne]

section Keys
variable [DecidableEq K] [OrderKey I K]

/-- A removal writes no field of a level, but the first order of the one at the order's price. -/
lemma removeOrder_levels (h : b.removeOrder o = .ok b') :
    LevelsKept b (b.getOrdersAtPrice (b.order o).price) b' := by
  obtain ⟨b₁, pool, hb₁, -, rfl⟩ := removeOrder_ok h
  have hkept := unlinkOrder_levels hb₁
  exact ⟨hkept.side, hkept.price, hkept.first⟩

omit [DecidableEq K] in
lemma WellFormed.levels_nonempty (h : b.WellFormed sh) : ∀ l ∈ sh.levels, l.orders ≠ [] := by
  intro l hl
  obtain ⟨s, hs, hl⟩ := Shape.mem_levels.mp hl
  exact ((h.side s hs).level l hl).nonempty

omit [DecidableEq K] in
/-- A level of the shape is known by its block. -/
lemma WellFormed.level_eq (h : b.WellFormed sh) {l l' : LevelShape} (hl : l ∈ sh.levels) (hl' : l' ∈ sh.levels)
    (hptr : l.ptr = l'.ptr) : l = l' :=
  List.inj_on_of_nodup_map h.levelsNodup hl hl' hptr

omit [DecidableEq K] in
/-- Only a level that holds nothing but the order runs empty without it. -/
lemma WellFormed.runs_empty_iff (h : b.WellFormed sh) {l : LevelShape} (hl : l ∈ sh.levels) :
    l.orders.filter (fun q => q ≠ o) = [] ↔ l.orders = [o] := by
  constructor
  · intro hempty
    have hall : ∀ q ∈ l.orders, q = o := fun q hq => by
      simpa using List.filter_eq_nil_iff.mp hempty q hq
    have hnodup : l.orders.Nodup := (List.nodup_flatMap.mp h.ordersNodup).1 l hl
    obtain ⟨q, qs, hqs⟩ := List.exists_cons_of_ne_nil (h.levels_nonempty l hl)
    rw [hqs] at hall hnodup ⊢
    obtain rfl := hall q List.mem_cons_self
    have hnil : qs = [] := by
      apply List.eq_nil_iff_forall_not_mem.mpr
      intro r hr
      have hrq := hall r (List.mem_cons_of_mem _ hr)
      exact (List.nodup_cons.mp hnodup).1 (hrq ▸ hr)
    rw [hnil]
  · intro halone
    simp [halone]

omit [DecidableEq K] in
/-- The levels in use without an order are those of before, less the one it had to itself. -/
lemma WellFormed.levelUsed_keep (h : b.WellFormed sh) (h' : b'.WellFormed (sh.keep fun q => q ≠ o)) (p : Nat) :
    b'.ordersAtPricePool.Used p ↔ b.ordersAtPricePool.Used p ∧ ⟨p, [o]⟩ ∉ sh.levels := by
  rw [h'.levelUsed, h.levelUsed]
  simp only [Shape.levelPtrs, List.mem_map, Shape.mem_levels_keep]
  constructor
  · rintro ⟨x, ⟨hne, l, hl, rfl⟩, rfl⟩
    refine ⟨⟨l, hl, rfl⟩, fun halone => ?_⟩
    have horders := congrArg LevelShape.orders (h.level_eq hl halone rfl)
    exact hne ((h.runs_empty_iff hl).mpr horders)
  · rintro ⟨⟨l, hl, rfl⟩, hshared⟩
    refine ⟨l.keep fun q => q ≠ o, ⟨fun hempty => hshared ?_, l, hl, rfl⟩, rfl⟩
    have horders := (h.runs_empty_iff hl).mp hempty
    have hlevel : (⟨l.ptr, [o]⟩ : LevelShape) = l := by rw [← horders]
    rwa [hlevel]

/-- A removal takes one order out of the shape. -/
theorem removeOrder_keep (h : b.WellFormed sh) (ho : o ∈ sh.orders) :
    ∃ b', b.removeOrder o = .ok b' ∧ b'.WellFormed (sh.keep fun q => q ≠ o) := by
  obtain ⟨s, hs, pre, p, l, m, post, hside⟩ := Shape.exists_split ho
  obtain ⟨b', hrun, hwf⟩ := removeOrder_spec h hs hside
  rw [Shape.dropOrder_eq_keep h.levels_nonempty h.ordersNodup hs hside] at hwf
  exact ⟨b', hrun, hwf⟩

end Keys
end PriceBook
end LowLatencyExchange
