import LowLatencyExchange.Book.Insert

/-!
# Insertion into any ladder

`addOrdersAtPrice` on a ladder whose prices may stand in any order. The new level goes between
two neighbours and the ladder stays a circle, except where it would go right in front of the last
level and is worse than the top: there a second write cuts the circle.
-/

namespace LowLatencyExchange
open CircularList

/-- The ladder that a side's levels and orders go to. -/
def Side.ladder (side : Side) : Side := if side = .buy then .buy else .sell

@[simp] lemma Side.trading_ladder (side : Side) : side.ladder.Trading := by
  unfold Side.ladder
  split <;> simp

lemma Side.Trading.ladder_eq {side : Side} (h : side.Trading) : side.ladder = side := by
  rcases h with rfl | rfl <;> rfl

lemma Side.ladder_eq_buy (side : Side) : side.ladder = .buy ↔ side = .buy := by
  unfold Side.ladder
  split
  · simp [*]
  · rename_i h
    simp [h]

namespace PriceBook
variable {I K : Type} {b b' : PriceBook I K} {s : Side} {n : Nat}

lemma top_ladder (b : PriceBook I K) (s : Side) : b.top s.ladder = b.top s :=
  top_congr b s.ladder_eq_buy

lemma setTop_ladder (b : PriceBook I K) (s : Side) (v : Option Nat) : b.setTop s.ladder v = b.setTop s v := by
  simp only [setTop, Side.ladder_eq_buy]

/-- A new level in this place of a ladder is worse than all levels but the last. -/
def TearsAt (b : PriceBook I K) (s : Side) (price : Price) (ptrs : List Nat) : Prop :=
  ptrs.dropLast ≠ [] ∧ (∀ q ∈ ptrs.dropLast, addAfter s price (b.level q).price = true) ∧
    ∀ q ∈ ptrs.getLast?, addAfter s price (b.level q).price = false

instance (b : PriceBook I K) (s : Side) (price : Price) (ptrs : List Nat) : Decidable (b.TearsAt s price ptrs) :=
  inferInstanceAs (Decidable (_ ∧ _ ∧ _))

lemma tearsAt_congr {price : Price} {ptrs : List Nat} (h : ∀ q ∈ ptrs, (b'.level q).price = (b.level q).price) :
    b'.TearsAt s price ptrs ↔ b.TearsAt s price ptrs := by
  unfold TearsAt
  have hinit : ∀ q ∈ ptrs.dropLast, (b'.level q).price = (b.level q).price := fun q hq => h q (List.mem_of_mem_dropLast hq)
  have hlast : ∀ q ∈ ptrs.getLast?, (b'.level q).price = (b.level q).price := fun q hq => h q (List.mem_of_getLast? hq)
  apply and_congr_right
  intro _
  apply and_congr
  · exact forall₂_congr fun q hq => by rw [hinit q hq]
  · exact forall₂_congr fun q hq => by rw [hlast q hq]

lemma tearsAt_concat (b : PriceBook I K) (s : Side) (price : Price) (pre : List Nat) (target : Nat) :
    b.TearsAt s price (pre ++ [target]) ↔ pre ≠ [] ∧ (∀ q ∈ pre, addAfter s price (b.level q).price = true) ∧
      addAfter s price (b.level target).price = false := by
  simp [TearsAt]

/-- Level `n` stands between `x` and `y`, and nothing else has moved. -/
structure SplicedIn (b : PriceBook I K) (x n y : Nat) (b' : PriceBook I K) : Prop where
  next : ∀ q, (b'.level q).nextEntry = if q = n then some y else if q = x then some n else (b.level q).nextEntry
  prev : ∀ q, (b'.level q).prevEntry = if q = n then some x else if q = y then some n else (b.level q).prevEntry
  top : ∀ t, b'.top t = b.top t
  away : ∀ q, q ≠ n → q ≠ x → q ≠ y → b'.level q = b.level q
  sound : b.ordersAtPricePool.Sound → b'.ordersAtPricePool.Sound

lemma insertAfter_splice {x y : Nat} (hx : x ≠ n) (hy : y ≠ n) (hnext : (b.level x).nextEntry = some y)
    (hrun : b.insertAfter n x = .ok b') : SplicedIn b x n y b' := by
  obtain rfl := Except.ok.inj ((insertAfter_run hnext).symm.trans hrun)
  refine ⟨fun q => ?_, fun q => ?_, fun t => rfl, fun q hn hqx hqy => ?_, fun h => ?_⟩
  · by_cases hqn : q = n <;> by_cases hqx : q = x <;> simp_all
  · by_cases hqn : q = n <;> by_cases hqy : q = y <;> simp_all
  · simp [level_modifyLevel, hn, hqx, hqy]
  · simpa using h

lemma insertBefore_splice {x y : Nat} (hx : x ≠ n) (hy : y ≠ n) (hprev : (b.level y).prevEntry = some x)
    (hrun : b.insertBefore n y = .ok b') : SplicedIn b x n y b' := by
  obtain rfl := Except.ok.inj ((insertBefore_run hy hprev).symm.trans hrun)
  refine ⟨fun q => ?_, fun q => ?_, fun t => rfl, fun q hn hqx hqy => ?_, fun h => ?_⟩
  · by_cases hqn : q = n <;> by_cases hqx : q = x <;> simp_all
  · by_cases hqn : q = n <;> by_cases hqy : q = y <;> simp_all
  · simp [level_modifyLevel, hn, hqx, hqy]
  · simpa using h

/-- Read from behind the new level, the circle has it at its end. -/
lemma SplicedIn.ring {x y : Nat} {t : List Nat} (h : SplicedIn b x n y b')
    (hring : Ring (fun q => (b.level q).nextEntry) (fun q => (b.level q).prevEntry) (y :: t))
    (hd : (y :: t).Nodup) (hn : n ∉ y :: t) (hprev : (b.level y).prevEntry = some x) :
    Ring (fun q => (b'.level q).nextEntry) (fun q => (b'.level q).prevEntry) (y :: t ++ [n]) := by
  have hne : ∀ q ∈ y :: t, q ≠ n := fun q hq he => hn (he ▸ hq)
  have hyn := hne y List.mem_cons_self
  obtain ⟨x', hx', hj⟩ := hring.exists_prev (a := y) List.mem_cons_self
  obtain rfl : x' = x := Option.some.inj (hj.2.symm.trans hprev)
  have hxn := hne x' hx'
  refine hring.concat hd hprev (fun q hq hqx => ?_) (fun q hq hqy => ?_) ⟨?_, ?_⟩ ⟨?_, ?_⟩
  · rw [h.next, if_neg (hne q hq), if_neg hqx]
  · rw [h.prev, if_neg (hne q hq), if_neg hqy]
  · exact (h.next x').trans (by rw [if_neg hxn, if_pos rfl])
  · exact (h.prev n).trans (if_pos rfl)
  · exact (h.next n).trans (if_pos rfl)
  · exact (h.prev y).trans (by rw [if_neg hyn, if_pos rfl])

/-- The ladder after level `n` went to some place in it. -/
structure LevelInserted (b : PriceBook I K) (s : Side) (ptrs : List Nat) (n : Nat) (b' : PriceBook I K)
    (ptrs' : List Nat) : Prop where
  perm : ptrs'.Perm (n :: ptrs)
  ring : Ring (fun q => (b'.level q).nextEntry) (fun q => (b'.level q).prevEntry) ptrs'
  top : b'.top s = ptrs'.head?
  otherTop : ∀ t : Side, t.ladder ≠ s.ladder → b'.top t = b.top t
  away : ∀ q ∉ n :: ptrs, b'.level q = b.level q
  sound : b.ordersAtPricePool.Sound → b'.ordersAtPricePool.Sound

lemma top_setTop_other {t : Side} (v : Option Nat) (h : t.ladder ≠ s.ladder) : (b.setTop s v).top t = b.top t := by
  rw [top_setTop, if_neg]
  intro he
  apply h
  unfold Side.ladder
  simp only [he]

/-- The new level goes to the end of the circle and the top stays. -/
lemma SplicedIn.atEnd {best x : Nat} {rest : List Nat} (h : b.LadderReady s (best :: rest) n)
    (hsplice : SplicedIn b x n best b') (hprev : (b.level best).prevEntry = some x) (hx : x ∈ best :: rest) :
    LevelInserted b s (best :: rest) n b' (best :: rest ++ [n]) := by
  refine ⟨List.perm_append_comm, hsplice.ring h.ring h.nodup h.fresh hprev, ?_, fun t _ => hsplice.top t,
    fun q hq => ?_, hsplice.sound⟩
  · rw [hsplice.top, h.top]
    rfl
  · have hqn : q ≠ n := fun he => hq (he ▸ List.mem_cons_self)
    have hqx : q ≠ x := fun he => hq (he ▸ List.mem_cons_of_mem n hx)
    have hqb : q ≠ best := fun he => hq (he ▸ List.mem_cons_of_mem n List.mem_cons_self)
    exact hsplice.away q hqn hqx hqb

/-- The new level goes in front of `target` and becomes the top. Behind the last level of the circle
stands the old top, so it is only there that the second write changes anything. -/
lemma SplicedIn.toTop {x target : Nat} {pre post : List Nat} (h : b.LadderReady s (pre ++ target :: post) n)
    (hpre : pre ≠ []) (hpost : post ≠ []) (hsplice : SplicedIn b x n target b')
    (hprev : (b.level target).prevEntry = some x) (hx : x ∈ pre ++ target :: post) {best : Nat}
    (htop : b.top s = some best) :
    LevelInserted b s (pre ++ target :: post) n
      ((b'.setNextEntry target (if (b'.level target).nextEntry = some best then some n
        else (b'.level target).nextEntry)).setTop s (some n)) (n :: target :: post ++ pre) := by
  obtain ⟨y, post, rfl⟩ := List.exists_cons_of_ne_nil hpost
  obtain ⟨best', pre, rfl⟩ := List.exists_cons_of_ne_nil hpre
  obtain rfl : best' = best := Option.some.inj (h.top.symm.trans htop)
  have htarget : target ∈ best' :: pre ++ target :: y :: post := by simp
  have hne : ∀ q ∈ best' :: pre ++ target :: y :: post, q ≠ n := fun q hq he => h.fresh (he ▸ hq)
  have hnext : (b.level target).nextEntry = some y := h.ring.joined.1
  have hyb : y ≠ best' := by
    rintro rfl
    have hd := h.nodup
    simp at hd
  have hxt : target ≠ x := by
    rintro rfl
    obtain ⟨z, -, hj⟩ := h.ring.exists_prev htarget
    obtain rfl : z = target := Option.some.inj (hj.2.symm.trans hprev)
    obtain rfl : y = z := Option.some.inj (hnext.symm.trans hj.1)
    have hd := (List.nodup_append.mp h.nodup).2.1
    simp at hd
  have hnext' : (b'.level target).nextEntry = some y := by
    rw [hsplice.next, if_neg (hne target htarget), if_neg hxt, hnext]
  have hsame : (if (b'.level target).nextEntry = some best' then some n else (b'.level target).nextEntry) =
      (b'.level target).nextEntry := by
    rw [hnext', if_neg fun he => hyb (Option.some.inj he)]
  have hlevel : ∀ q, ((b'.setNextEntry target (b'.level target).nextEntry).level q) = b'.level q := fun q => by
    rw [level_modifyLevel]
    split
    · rename_i hq
      rw [hq]
    · rfl
  have hcircle : Ring (fun q => (b.level q).nextEntry) (fun q => (b.level q).prevEntry)
      (target :: y :: post ++ best' :: pre) := (ring_append_comm _ _).mp h.ring
  have hd : (target :: y :: post ++ best' :: pre).Nodup := List.perm_append_comm.nodup_iff.mp h.nodup
  have hfresh : n ∉ target :: y :: post ++ best' :: pre := fun hn => h.fresh (List.perm_append_comm.mem_iff.mp hn)
  have hring := hsplice.ring hcircle hd hfresh hprev
  rw [hsame]
  refine ⟨.cons n List.perm_append_comm, ?_, ?_, fun t ht => ?_, fun q hq => ?_, fun hsound => ?_⟩
  · simp only [level_setTop, hlevel]
    exact (ring_append_comm _ [n]).mp hring
  · rw [top_setTop_self]
    rfl
  · rw [top_setTop_other _ ht]
    exact hsplice.top t
  · rw [level_setTop, hlevel]
    have hqn : q ≠ n := fun he => hq (he ▸ List.mem_cons_self)
    have hqx : q ≠ x := fun he => hq (he ▸ List.mem_cons_of_mem n hx)
    have hqt : q ≠ target := fun he => hq (List.mem_cons_of_mem n (he.symm ▸ htarget))
    exact hsplice.away q hqn hqx hqt
  · rw [ordersAtPricePool_setTop, ordersAtPricePool_modifyLevel]
    exact (hsplice.sound hsound).modify _ _

/-- Without the tear, the new level is spliced into its ladder. -/
theorem addOrdersAtPrice_inserted {ptrs : List Nat} (h : b.LadderReady s ptrs n)
    (htears : ¬b.TearsAt s (b.level n).price ptrs) (hrun : b.addOrdersAtPrice n = .ok b') :
    ∃ ptrs', LevelInserted b s ptrs n b' ptrs' := by
  generalize hb : b.setOrdersAtPrice (b.level n).price (some n) = b₀ at hrun
  have hlevel : ∀ q, b₀.level q = b.level q := fun q => by simp [← hb]
  have htops : ∀ t, b₀.top t = b.top t := by simp [← hb]
  have hsize : b₀.ordersAtPricePool.size = b.ordersAtPricePool.size := by simp [← hb]
  have hback : ∀ ptrs', LevelInserted b₀ s ptrs n b' ptrs' → LevelInserted b s ptrs n b' ptrs' := by
    intro ptrs' hi
    refine ⟨hi.perm, hi.ring, hi.top, fun t ht => (hi.otherTop t ht).trans (htops t), fun q hq => ?_, fun hsound => ?_⟩
    · rw [hi.away q hq, hlevel]
    · exact hi.sound (by simpa [← hb] using hsound)
  have h₀ : b₀.LadderReady s ptrs n := by
    refine ⟨by rw [hlevel, h.side], ?_, by rw [htops, h.top], h.nodup, h.fresh, by rw [hsize]; exact h.length⟩
    simpa only [hlevel] using h.ring
  have htears₀ : ¬b₀.TearsAt s (b.level n).price ptrs := by
    simpa only [TearsAt, hlevel] using htears
  have hside : (b.level n).side = s := h.side
  simp only [addOrdersAtPrice, hb, hside] at hrun
  apply Exists.imp hback
  clear hback h htears hlevel htops hsize hb
  cases ptrs with
  | nil =>
    have htop : b₀.top s = none := h₀.top
    rw [htop] at hrun
    cases hrun
    refine ⟨[n], .refl _, ?_, ?_, fun t ht => ?_, fun q hq => ?_, fun hsound => ?_⟩
    · simp
    · simp
    · simp [top_setTop_other _ ht]
    · have hqn : q ≠ n := by simpa using hq
      simp [level_modifyLevel, hqn]
    · simpa using hsound
  | cons best rest =>
    have htop : b₀.top s = some best := h₀.top
    have hne : ∀ q ∈ best :: rest, q ≠ n := fun q hq he => h₀.fresh (he ▸ hq)
    have hscan := findTarget_spec s (b.level n).price h₀.ring h₀.nodup h₀.length
    obtain ⟨last, hlast, hj⟩ := h₀.ring.exists_prev (a := best) List.mem_cons_self
    have hlastn := hne last hlast
    have hbestn := hne best List.mem_cons_self
    simp only [htop, hscan, ok_bind, scanResult] at hrun
    split at hrun
    · -- every level is better: the new one goes behind the last
      simp only [if_true, hj.2, deref_some, ok_bind] at hrun
      exact ⟨_, (insertAfter_splice hlastn hbestn hj.1 hrun).atEnd h₀ hj.2 hlast⟩
    · rename_i target hfind
      obtain ⟨hbetter, pre, post, hsplit, hworse⟩ := List.find?_eq_some_iff_append.mp hfind
      simp only [Bool.false_eq_true, if_false] at hrun
      obtain ⟨b₁, hb₁, hrun⟩ := bind_eq_ok hrun
      have hprice : (b₁.level best).price = (b₀.level best).price :=
        (OrdersAtPrice.unlinked_eq_iff.mp ((insertBefore_ladder hb₁).data best)).2.1
      have htarget : target ∈ best :: rest := List.mem_of_find?_eq_some hfind
      obtain ⟨x, hx, hjoined⟩ := h₀.ring.exists_prev htarget
      have hsplice := insertBefore_splice (hne x hx) (hne target htarget) hjoined.2 hb₁
      rw [hprice] at hrun
      split at hrun
      · rename_i htopWorse
        cases hrun
        have hpre : pre ≠ [] := by
          rintro rfl
          obtain ⟨rfl, -⟩ : best = target ∧ rest = post := by simpa using hsplit
          simp [htopWorse] at hbetter
        have hpost : post ≠ [] := by
          rintro rfl
          apply htears₀
          rw [hsplit, tearsAt_concat]
          exact ⟨hpre, fun q hq => by simpa using hworse q hq, by simpa using hbetter⟩
        rw [hsplit] at h₀ hx ⊢
        exact ⟨_, hsplice.toTop h₀ hpre hpost hjoined.2 hx htop⟩
      · rename_i htopBetter
        cases hrun
        have hbest : best = target := by
          cases pre with
          | nil =>
            have heq : best :: rest = target :: post := hsplit
            exact (List.cons.inj heq).1
          | cons q pre =>
            have heq : best :: rest = q :: (pre ++ target :: post) := hsplit
            obtain ⟨rfl, -⟩ := List.cons.inj heq
            have hq := hworse best List.mem_cons_self
            simp [htopBetter] at hq
        subst hbest
        exact ⟨_, hsplice.atEnd h₀ hjoined.2 hx⟩

end PriceBook
end LowLatencyExchange
