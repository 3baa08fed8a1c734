import LowLatencyExchange.Book.Scan
import LowLatencyExchange.Book.Frames

/-!
# Insertion into a well-formed book

`addOrdersAtPrice` returns on every sorted ladder. It keeps the ladder sorted from its top
when the new level is the worst of its side, which covers an empty side. An order that joins
an existing level goes to the end of its ring.
-/

namespace LowLatencyExchange
open CircularList
namespace PriceBook
variable {I K : Type} {b : PriceBook I K} {s : Side} {n : Nat}

/-- The ladder `ptrs` of side `s`, before level `n` is linked. -/
structure LadderReady (b : PriceBook I K) (s : Side) (ptrs : List Nat) (n : Nat) : Prop where
  side : (b.level n).side = s
  ring : Ring (fun q => (b.level q).nextEntry) (fun q => (b.level q).prevEntry) ptrs
  top : b.top s = ptrs.head?
  nodup : ptrs.Nodup
  fresh : n ∉ ptrs
  length : ptrs.length ≤ b.ordersAtPricePool.size

lemma insertAfter_run {target after : Nat} (hnext : (b.level target).nextEntry = some after) :
    b.insertAfter n target = .ok ((((b.setPrevEntry n (some target)).setPrevEntry after
      (some n)).setNextEntry n (some after)).setNextEntry target (some n)) := by
  simp [insertAfter, hnext]

lemma insertBefore_run {target before : Nat} (hn : target ≠ n)
    (hprev : (b.level target).prevEntry = some before) :
    b.insertBefore n target = .ok ((((b.setPrevEntry n (some before)).setNextEntry n
      (some target)).setNextEntry before (some n)).setPrevEntry target (some n)) := by
  simp [insertBefore, hprev, hn]

/-- The scan and both splices return on a sorted ladder. -/
theorem addOrdersAtPrice_returns {ptrs : List Nat} (h : b.LadderReady s ptrs n) :
    ∃ b', b.addOrdersAtPrice n = .ok b' := by
  generalize hb : b.setOrdersAtPrice (b.level n).price (some n) = b0
  have hlevel : ∀ q, b0.level q = b.level q := fun q => by simp [← hb]
  have htop : b0.top (b.level n).side = ptrs.head? := by rw [← hb, h.side]; exact h.top
  have hring : Ring (fun q => (b0.level q).nextEntry) (fun q => (b0.level q).prevEntry) ptrs := by
    simpa [hlevel] using h.ring
  have hsize : b0.ordersAtPricePool.size = b.ordersAtPricePool.size := by simp [← hb]
  simp only [addOrdersAtPrice, hb, htop]
  cases ptrs with
  | nil => exact ⟨_, rfl⟩
  | cons best rest =>
    have hne : ∀ q ∈ best :: rest, q ≠ n := fun q hq e => h.fresh (e ▸ hq)
    have hscan := findTarget_spec (b.level n).side (b.level n).price hring h.nodup
      (by rw [hsize]; exact h.length)
    simp only [List.head?_cons, hscan, ok_bind]
    unfold scanResult
    split
    · obtain ⟨last, hlast, hj⟩ := hring.exists_prev (a := best) (by simp)
      obtain ⟨after, -, hj'⟩ := hring.exists_next hlast
      simp only [if_true, hj.2, deref_some, ok_bind]
      exact ⟨_, insertAfter_run hj'.1⟩
    · rename_i target hfind
      have htarget := List.mem_of_find?_eq_some hfind
      obtain ⟨before, -, hj⟩ := hring.exists_prev htarget
      rw [if_neg (by simp), insertBefore_run (hne target htarget) hj.2, ok_bind]
      split
      · exact ⟨_, rfl⟩
      · exact ⟨_, rfl⟩

/-- The ladder after level `n` went to its end. -/
structure LevelLinked (b : PriceBook I K) (s : Side) (ptrs : List Nat) (n : Nat)
    (b' : PriceBook I K) : Prop where
  ring : Ring (fun q => (b'.level q).nextEntry) (fun q => (b'.level q).prevEntry) (ptrs ++ [n])
  top : b'.top s = (ptrs ++ [n]).head?
  otherTop : ∀ t : Side, t.Trading → t ≠ s → b'.top t = b.top t
  data : ∀ q, (b'.level q).unlinked = (b.level q).unlinked
  away : ∀ q ∉ ptrs ++ [n], b'.level q = b.level q
  prices : b'.priceOrdersAtPrice =
    Function.update b.priceOrdersAtPrice (priceToIndex (b.level n).price) (some n)
  used : ∀ q, b'.ordersAtPricePool.Used q ↔ b.ordersAtPricePool.Used q
  sound : b.ordersAtPricePool.Sound → b'.ordersAtPricePool.Sound

theorem addOrdersAtPrice_worst {ptrs : List Nat} (hs : s.Trading) (h : b.LadderReady s ptrs n)
    (hworst : ∀ q ∈ ptrs, addAfter s (b.level n).price (b.level q).price) :
    ∃ b', b.addOrdersAtPrice n = .ok b' ∧ LevelLinked b s ptrs n b' := by
  generalize hb : b.setOrdersAtPrice (b.level n).price (some n) = b0
  have hlevel : ∀ q, b0.level q = b.level q := fun q => by simp [← hb]
  have htop : b0.top (b.level n).side = ptrs.head? := by rw [← hb, h.side]; exact h.top
  have hring : Ring (fun q => (b0.level q).nextEntry) (fun q => (b0.level q).prevEntry) ptrs := by
    simpa [hlevel] using h.ring
  have hsize : b0.ordersAtPricePool.size = b.ordersAtPricePool.size := by simp [← hb]
  have hprices : b0.priceOrdersAtPrice =
      Function.update b.priceOrdersAtPrice (priceToIndex (b.level n).price) (some n) := by simp [← hb]
  have hused : ∀ q, b0.ordersAtPricePool.Used q ↔ b.ordersAtPricePool.Used q := by simp [← hb]
  have hsound : b.ordersAtPricePool.Sound → b0.ordersAtPricePool.Sound := by simp [← hb]
  have htops : ∀ t, b0.top t = b.top t := by simp [← hb]
  have hfront : ∀ q ∈ ptrs, q ≠ n := fun q hq e => h.fresh (e ▸ hq)
  simp only [addOrdersAtPrice, hb, htop]
  cases ptrs with
  | nil =>
    simp only [List.head?_nil, h.side, pure_eq_ok]
    refine ⟨_, rfl, ⟨?_, ?_, ?_, ?_, ?_, ?_, ?_, ?_⟩⟩
    · simp
    · simp
    · exact fun t ht hts => by simp [otherTop_setTop _ _ hs ht hts, htops]
    · intro q
      simp [OrdersAtPrice.unlinked, hlevel]
    · intro q hq
      have hq' : q ≠ n := by simpa using hq
      simp [level_modifyLevel, hq', hlevel]
    · simpa using hprices
    · simpa using hused
    · simpa using hsound
  | cons best rest =>
    have hscan := findTarget_spec (b.level n).side (b.level n).price hring h.nodup
      (by rw [hsize]; exact h.length)
    have hnone : b0.scanResult (b.level n).side (b.level n).price best (best :: rest) = (best, true) := by
      have hfind : (best :: rest).find? (fun q => !addAfter (b.level n).side (b.level n).price
          (b0.level q).price) = none := by
        refine List.find?_eq_none.mpr fun q hq => ?_
        simp [hlevel, h.side, hworst q hq]
      simp only [scanResult, hfind]
    obtain ⟨last, hlast, hj⟩ := hring.exists_prev (a := best) (by simp)
    have hlastn := hfront last hlast
    have hbestn := hfront best (by simp)
    simp only [List.head?_cons, hscan, ok_bind, hnone, if_true, hj.2, deref_some]
    refine ⟨_, insertAfter_run hj.1, ⟨?_, ?_, ?_, ?_, ?_, ?_, ?_, ?_⟩⟩
    · refine hring.concat h.nodup hj.2 ?_ ?_ ⟨?_, ?_⟩ ⟨?_, ?_⟩
      · exact fun q hq hql => by simp [hql, hfront q hq]
      · exact fun q hq hqb => by simp [hqb, hfront q hq]
      · simp
      · simp [Ne.symm hbestn]
      · simp [Ne.symm hlastn]
      · simp
    · simp [htops, h.top]
    · exact fun t _ _ => by simp [htops]
    · intro q
      simp [OrdersAtPrice.unlinked, hlevel]
    · intro q hq
      have hq' : q ≠ n ∧ q ≠ best ∧ q ≠ last := by
        refine ⟨fun e => hq (by simp [e]), fun e => hq (by simp [e]), fun e => hq ?_⟩
        exact List.mem_append_left _ (e ▸ hlast)
      simp [level_modifyLevel, hq', hlevel]
    · simpa using hprices
    · simpa using hused
    · simpa using hsound

/-- A level that belongs further up never reaches the top in its right place: the top moves to it
when it is worse than the best level, and stays when it is better. -/
theorem addOrdersAtPrice_misplaced {ptrs : List Nat} (h : b.LadderReady s ptrs n)
    (hbetter : ∃ q ∈ ptrs, addAfter s (b.level n).price (b.level q).price = false) {b' : PriceBook I K}
    (hrun : b.addOrdersAtPrice n = .ok b') :
    ∃ best ∈ ptrs, b.top s = some best ∧
      b'.top s = if addAfter s (b.level n).price (b.level best).price then some n else some best := by
  generalize hb : b.setOrdersAtPrice (b.level n).price (some n) = b0 at hrun
  have hlevel : ∀ q, b0.level q = b.level q := fun q => by simp [← hb]
  have htops : ∀ t, b0.top t = b.top t := by simp [← hb]
  have hring : Ring (fun q => (b0.level q).nextEntry) (fun q => (b0.level q).prevEntry) ptrs := by
    simpa [hlevel] using h.ring
  have hsize : b0.ordersAtPricePool.size = b.ordersAtPricePool.size := by simp [← hb]
  cases ptrs with
  | nil =>
    obtain ⟨q, hq, -⟩ := hbetter
    cases hq
  | cons best rest =>
    have htop : b.top s = some best := h.top
    have hscan := findTarget_spec s (b.level n).price hring h.nodup (by rw [hsize]; exact h.length)
    obtain ⟨target, hfind⟩ : ∃ target, (best :: rest).find? (fun q =>
        !addAfter s (b.level n).price (b0.level q).price) = some target := by
      obtain ⟨q, hq, hqbetter⟩ := hbetter
      exact Option.isSome_iff_exists.mp (List.find?_isSome.mpr ⟨q, hq, by simp [hlevel, hqbetter]⟩)
    refine ⟨best, List.mem_cons_self, htop, ?_⟩
    simp only [addOrdersAtPrice, hb, h.side, htops, htop, hscan, ok_bind, scanResult, hfind,
      Bool.false_eq_true, if_false] at hrun
    obtain ⟨b1, hb1, hrun⟩ := bind_eq_ok hrun
    have hprice : (b1.level best).price = (b.level best).price := by
      rw [← hlevel best]
      exact (OrdersAtPrice.unlinked_eq_iff.mp ((insertBefore_ladder hb1).data best)).2.1
    rw [hprice] at hrun
    split at hrun
    · rename_i hworse
      cases hrun
      rw [top_setTop_self, if_pos hworse]
    · rename_i hworse
      cases hrun
      rw [if_neg hworse, insertBefore_top hb1, htops, htop]

end PriceBook
end LowLatencyExchange
