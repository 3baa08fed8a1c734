import LowLatencyExchange.Book.Intact

/-!
# The listing of a book

`toString` of both books goes around every ladder and every order ring, and on demand compares each price
with the last one of its side. Both books print with the same code, in their own words.
-/

namespace LowLatencyExchange
open CircularList

/-- `%<n>s` and `%-<n>s`. -/
def padLeft (n : Nat) (s : String) : String := "".pushn ' ' (n - s.length) ++ s
def padRight (n : Nat) (s : String) : String := s.pushn ' ' (n - s.length)

/-- What the two books print differently: the name of a level, the id of an order, and an order. -/
structure Wording (I K : Type) where
  levelName : String
  orderId : I → OrderId
  orderToString : PriceBook I K → BookOrder I → String

namespace PriceBook
variable {I K : Type}

/-- The price of a neighbour that may be null. -/
def entryPrice (b : PriceBook I K) (p : Option Nat) : Price :=
  match p with
  | some p => (b.level p).price
  | none => Price_INVALID

/-- The id of a neighbour that may be null. -/
def neighbourId (b : PriceBook I K) (w : Wording I K) (o : Option Nat) : OrderId :=
  match o with
  | some o => w.orderId (b.order o).ids
  | none => OrderId_INVALID

/-- `MEOrdersAtPrice::toString` and `MarketOrdersAtPrice::toString`. -/
def levelToString (b : PriceBook I K) (w : Wording I K) (l : OrdersAtPrice) : String :=
  w.levelName ++ "[side:" ++ sideToString l.side ++ " price:" ++ priceToString l.price ++ " first_me_order:" ++
    (match l.firstOrder with
      | some o => w.orderToString b (b.order o)
      | none => "null") ++
    " prev:" ++ toString (b.entryPrice l.prevEntry) ++ " next:" ++ toString (b.entryPrice l.nextEntry) ++ " ]"

/-- The header of the two loops over a ring: from the first order until the next one is the first. -/
def ordersLoop {σ : Type} (b : PriceBook I K) (first : Nat) (body : σ → Nat → σ) : Nat → Nat → σ → Except Fault σ
  | 0, _, _ => .error .diverges
  | fuel + 1, o, acc =>
    if (b.order o).nextOrder = some first then pure (body acc o)
    else do
      let next ← deref (b.order o).nextOrder
      b.ordersLoop first body fuel next (body acc o)

/-- The prices are refused, the last of the side and the next one. -/
def Refused (side : Side) (lastPrice price : Price) : Prop :=
  (side = .sell ∧ lastPrice ≤ price) ∨ (side = .buy ∧ price ≤ lastPrice)

instance (side : Side) (lastPrice price : Price) : Decidable (Refused side lastPrice price) :=
  inferInstanceAs (Decidable ((_ ∧ _) ∨ (_ ∧ _)))

/-- The message of the check. -/
def notSorted (b : PriceBook I K) (w : Wording I K) (lastPrice : Price) (itr : Nat) : Fault :=
  .fatal ("Bids/Asks are not sorted by ascending/descending prices last:" ++ priceToString lastPrice ++ " itr:" ++
    b.levelToString w (b.level itr))

/-- The lambda `printer`. It returns the text and the new `last_price`. -/
def printer (b : PriceBook I K) (w : Wording I K) (detailed sanityCheck : Bool) (ss : String) (itr : Nat) (side : Side)
    (lastPrice : Price) : Except Fault (String × Price) := do
  let l := b.level itr
  let first ← deref l.firstOrder
  let (numOrders, qty) ← b.ordersLoop first (fun x o => (x.1 + 1, wrap32 (x.2 + (b.order o).qty)))
    (b.orderPool.size + 1) first ((0, 0) : Nat × Qty)
  let prev ← deref l.prevEntry
  let next ← deref l.nextEntry
  let ss := ss ++ " <px:" ++ padLeft 3 (priceToString l.price) ++ " p:" ++ padLeft 3 (priceToString (b.level prev).price) ++
    " n:" ++ padLeft 3 (priceToString (b.level next).price) ++ "> " ++ padRight 3 (priceToString l.price) ++ " @ " ++
    padRight 5 (qtyToString qty) ++ "(" ++ padRight 4 (toString numOrders) ++ ")"
  let ss ← b.ordersLoop first (fun ss o =>
    if detailed then
      ss ++ "[oid:" ++ orderIdToString (w.orderId (b.order o).ids) ++ " q:" ++ qtyToString (b.order o).qty ++
        " p:" ++ orderIdToString (b.neighbourId w (b.order o).prevOrder) ++
        " n:" ++ orderIdToString (b.neighbourId w (b.order o).nextOrder) ++ "]"
    else ss) (b.orderPool.size + 1) first ss
  let ss := ss ++ "\n"
  if sanityCheck then
    if Refused side lastPrice l.price then .error (b.notSorted w lastPrice itr)
    else pure (ss, l.price)
  else pure (ss, lastPrice)

/-- The loop over the levels of a side. -/
def printLevels (b : PriceBook I K) (w : Wording I K) (detailed validityCheck : Bool) (label : String) (side : Side) :
    Nat → Option Nat → Nat → Price → String → Except Fault String
  | 0, _, _, _, _ => .error .diverges
  | _ + 1, none, _, _, ss => pure ss
  | fuel + 1, some itr, count, lastPrice, ss => do
    let next := if (b.level itr).nextEntry = b.top side then none else (b.level itr).nextEntry
    let (ss, lastPrice) ← b.printer w detailed validityCheck (ss ++ label ++ toString count ++ " => ") itr side lastPrice
    b.printLevels w detailed validityCheck label side fuel next (count + 1) lastPrice ss

/-- `toString`. The last prices start at `numeric_limits<Price>::min()` for the asks and at `max()` for the
bids. -/
def toString (b : PriceBook I K) (w : Wording I K) (tickerId : TickerId) (detailed validityCheck : Bool) :
    Except Fault String := do
  let ss := "Ticker:" ++ tickerIdToString tickerId ++ "\n"
  let ss ← b.printLevels w detailed validityCheck "ASKS L:" .sell (b.ordersAtPricePool.size + 1) (b.top .sell) 0 0 ss
  let ss := ss ++ "\n    X\n\n"
  b.printLevels w detailed validityCheck "BIDS L:" .buy (b.ordersAtPricePool.size + 1) (b.top .buy) 0
    18446744073709551615 ss

/-- The orders of a level are a ring, and one at least. -/
structure OrdersRing (b : PriceBook I K) (p : Nat) (os : List Nat) : Prop where
  first : (b.level p).firstOrder = os.head?
  nonempty : os ≠ []
  ring : Ring (fun o => (b.order o).nextOrder) (fun o => (b.order o).prevOrder) os
  nodup : os.Nodup
  lt : ∀ o ∈ os, o < b.orderPool.size

/-- The ladders are rings of levels whose orders are rings. -/
structure Circular (b : PriceBook I K) (ladders : Side → List Nat) : Prop extends Circles b ladders where
  nodup : ∀ s : Side, s.Trading → (ladders s).Nodup
  lt : ∀ s : Side, s.Trading → ∀ p ∈ ladders s, p < b.ordersAtPricePool.size
  orders : ∀ s : Side, s.Trading → ∀ p ∈ ladders s, ∃ os, b.OrdersRing p os

variable {b : PriceBook I K} {w : Wording I K}

/-- The loop goes once around the ring. -/
lemma ordersLoop_eq {σ : Type} (body : σ → Nat → σ) {first : Nat} (before : List Nat) {o : Nat} {rest : List Nat}
    (hring : Ring (fun o => (b.order o).nextOrder) (fun o => (b.order o).prevOrder) (before ++ o :: rest))
    (hnodup : (before ++ o :: rest).Nodup) (hfirst : (before ++ [o]).head? = some first) {fuel : Nat}
    (hfuel : rest.length < fuel) (acc : σ) :
    b.ordersLoop first body fuel o acc = .ok ((o :: rest).foldl body acc) := by
  induction rest generalizing before o fuel acc with
  | nil =>
    obtain ⟨fuel, rfl⟩ := Nat.exists_eq_add_one_of_ne_zero (Nat.ne_zero_of_lt hfuel)
    rw [ordersLoop, if_pos ((hring.next_eq_first_iff hnodup hfirst).mpr rfl), pure_eq_ok]
    rfl
  | cons y rest ih =>
    obtain ⟨fuel, rfl⟩ := Nat.exists_eq_add_one_of_ne_zero (Nat.ne_zero_of_lt hfuel)
    have hnext : (b.order o).nextOrder = some y := hring.next_of_split
    have hne : (b.order o).nextOrder ≠ some first := by
      intro h
      cases (hring.next_eq_first_iff hnodup hfirst).mp h
    have hhead : ((before ++ [o]) ++ [y]).head? = some first := by
      rw [List.head?_append, hfirst]
      rfl
    have hsplit : before ++ o :: y :: rest = (before ++ [o]) ++ y :: rest := by simp
    rw [hsplit] at hring hnodup
    rw [ordersLoop, if_neg hne, hnext, deref_some, ok_bind,
      ih (before ++ [o]) hring hnodup hhead (Nat.lt_of_succ_lt_succ hfuel)]
    rfl

lemma OrdersRing.loop {p : Nat} {os : List Nat} (h : b.OrdersRing p os) : ∃ first, (b.level p).firstOrder = some first ∧
    ∀ (σ : Type) (body : σ → Nat → σ) (acc : σ),
      b.ordersLoop first body (b.orderPool.size + 1) first acc = .ok (os.foldl body acc) := by
  obtain ⟨hfirst, hne, hring, hnodup, hlt⟩ := h
  obtain ⟨first, rest, rfl⟩ := List.exists_cons_of_ne_nil hne
  have hlen := length_le_of_nodup_of_lt hnodup hlt
  rw [List.length_cons] at hlen
  exact ⟨first, hfirst, fun σ body acc => ordersLoop_eq body [] hring hnodup rfl (by omega) acc⟩

/-- One level is printed, or refused by the check. -/
lemma printer_eq {p : Nat} {os : List Nat} (h : b.OrdersRing p os) (hprev : (b.level p).prevEntry ≠ none)
    (hnext : (b.level p).nextEntry ≠ none) (detailed sanityCheck : Bool) (ss : String) (side : Side)
    (lastPrice : Price) : ∃ text, b.printer w detailed sanityCheck ss p side lastPrice =
      if sanityCheck = true ∧ Refused side lastPrice (b.level p).price then .error (b.notSorted w lastPrice p)
      else .ok (text, if sanityCheck then (b.level p).price else lastPrice) := by
  obtain ⟨first, hfirst, hloop⟩ := h.loop
  obtain ⟨prev, hprev⟩ := Option.ne_none_iff_exists'.mp hprev
  obtain ⟨next, hnext⟩ := Option.ne_none_iff_exists'.mp hnext
  simp only [printer, hfirst, deref_some, ok_bind, hloop, hprev, hnext]
  cases sanityCheck with
  | false =>
    apply Exists.intro
    rfl
  | true =>
    simp only [if_true, true_and]
    by_cases hrefused : Refused side lastPrice (b.level p).price
    · refine ⟨"", ?_⟩
      rw [if_pos hrefused, if_pos hrefused]
    · simp only [if_neg hrefused]
      apply Exists.intro
      rfl

/-- What the check compares on one side, from the last price on. -/
def Passes (side : Side) (lastPrice : Price) (prices : List Price) : Prop :=
  (lastPrice :: prices).IsChain fun last price => ¬Refused side last price

@[simp] lemma passes_nil (side : Side) (lastPrice : Price) : Passes side lastPrice [] := List.isChain_singleton _

lemma passes_cons {side : Side} {lastPrice price : Price} {prices : List Price} :
    Passes side lastPrice (price :: prices) ↔ ¬Refused side lastPrice price ∧ Passes side price prices :=
  List.isChain_cons_cons

/-- The listing is complete if the check passes, and it ends in the message of the check otherwise. -/
def Decided (b : PriceBook I K) (w : Wording I K) (passed : Prop) (r : Except Fault String) : Prop :=
  (passed ∧ ∃ text, r = .ok text) ∨ ¬passed ∧ ∃ lastPrice itr, r = .error (b.notSorted w lastPrice itr)

lemma Decided.congr {passed passed' : Prop} {r : Except Fault String} (h : b.Decided w passed r)
    (hiff : passed ↔ passed') : b.Decided w passed' r := by
  rwa [propext hiff] at h

/-- The rest of a side, read from any of its levels on. -/
lemma printLevels_decided {detailed validityCheck : Bool} {label : String} {side : Side} (before rest : List Nat)
    (hring : Ring (fun p => (b.level p).nextEntry) (fun p => (b.level p).prevEntry) (before ++ rest))
    (hnodup : (before ++ rest).Nodup) (horders : ∀ p ∈ rest, ∃ os, b.OrdersRing p os)
    (htop : b.top side = (before ++ rest).head?) {fuel : Nat} (hfuel : rest.length < fuel) (count : Nat)
    (lastPrice : Price) (ss : String) :
    b.Decided w (validityCheck = true → Passes side lastPrice (rest.map fun p => (b.level p).price))
      (b.printLevels w detailed validityCheck label side fuel rest.head? count lastPrice ss) := by
  induction rest generalizing before fuel count lastPrice ss with
  | nil =>
    obtain ⟨fuel, rfl⟩ := Nat.exists_eq_add_one_of_ne_zero (Nat.ne_zero_of_lt hfuel)
    left
    exact ⟨fun _ => passes_nil side lastPrice, ss, rfl⟩
  | cons p rest ih =>
    obtain ⟨fuel, rfl⟩ := Nat.exists_eq_add_one_of_ne_zero (Nat.ne_zero_of_lt hfuel)
    have hsplit : before ++ p :: rest = (before ++ [p]) ++ rest := by simp
    obtain ⟨os, hos⟩ := horders p List.mem_cons_self
    obtain ⟨q, -, hq⟩ := hring.exists_prev (a := p) (by simp)
    have hprev : (b.level p).prevEntry ≠ none := Option.ne_none_iff_exists'.mpr ⟨q, hq.2⟩
    have hnext := hring.next_of_split
    -- The last level points back to the top, every other one to the next of the list.
    have hitr : (if (b.level p).nextEntry = b.top side then none else (b.level p).nextEntry) = rest.head? := by
      obtain ⟨first, hfirst⟩ : ∃ first, (before ++ [p]).head? = some first := by
        cases before with
        | nil => exact ⟨p, rfl⟩
        | cons first before => exact ⟨first, rfl⟩
      have hlast := hring.next_eq_first_iff hnodup hfirst
      rw [htop, hsplit, List.head?_append, hfirst, Option.some_or]
      cases rest with
      | nil =>
        rw [if_pos (hlast.mpr rfl)]
        rfl
      | cons y rest =>
        rw [if_neg (fun h => List.cons_ne_nil _ _ (hlast.mp h)), hnext]
        rfl
    obtain ⟨text, hprinter⟩ := printer_eq (w := w) hos hprev (by rw [hnext]; simp) detailed validityCheck
      (ss ++ label ++ ToString.toString count ++ " => ") side lastPrice
    rw [List.head?_cons, printLevels, hprinter]
    by_cases hrefused : validityCheck = true ∧ Refused side lastPrice (b.level p).price
    · rw [if_pos hrefused]
      right
      refine ⟨fun hpassed => ?_, lastPrice, p, rfl⟩
      exact (passes_cons.mp (hpassed hrefused.1)).1 hrefused.2
    · rw [hsplit] at hring hnodup htop
      rw [if_neg hrefused, ok_bind, hitr]
      apply (ih (before ++ [p]) hring hnodup (fun q hq => horders q (List.mem_cons_of_mem _ hq)) htop
        (Nat.lt_of_succ_lt_succ hfuel) (count + 1) _ text).congr
      cases validityCheck with
      | false => simp
      | true =>
        have hpassed : ¬Refused side lastPrice (b.level p).price := fun h => hrefused ⟨rfl, h⟩
        simp [passes_cons, hpassed]

/-- The prices of a side, from its top on. -/
def prices (b : PriceBook I K) (ladder : List Nat) : List Price := ladder.map fun p => (b.level p).price

/-- A whole listing passes the check with both sides. -/
theorem toString_decided {ladders : Side → List Nat} (h : b.Circular ladders) (w : Wording I K) (tickerId : TickerId)
    (detailed validityCheck : Bool) :
    b.Decided w (validityCheck = true → Passes .sell 0 (b.prices (ladders .sell)) ∧
      Passes .buy 18446744073709551615 (b.prices (ladders .buy))) (b.toString w tickerId detailed validityCheck) := by
  have hside : ∀ s : Side, s.Trading → ∀ label lastPrice ss,
      b.Decided w (validityCheck = true → Passes s lastPrice (b.prices (ladders s)))
        (b.printLevels w detailed validityCheck label s (b.ordersAtPricePool.size + 1) (b.top s) 0 lastPrice ss) := by
    intro s hs label lastPrice ss
    have hlen := length_le_of_nodup_of_lt (h.nodup s hs) (h.lt s hs)
    rw [h.top s hs]
    exact printLevels_decided [] (ladders s) (h.ring s hs) (h.nodup s hs) (h.orders s hs) (h.top s hs)
      (Nat.lt_succ_of_le hlen) 0 lastPrice ss
  rcases hside .sell (.inr rfl) "ASKS L:" 0 ("Ticker:" ++ tickerIdToString tickerId ++ "\n") with
    ⟨hasks, text, heq⟩ | ⟨hasks, lastPrice, itr, heq⟩
  · have hbids := hside .buy (.inl rfl) "BIDS L:" 18446744073709551615 (text ++ "\n    X\n\n")
    rw [toString, heq, ok_bind]
    apply hbids.congr
    exact ⟨fun hpassed hcheck => ⟨hasks hcheck, hpassed hcheck⟩, fun hpassed hcheck => (hpassed hcheck).2⟩
  · right
    refine ⟨fun hpassed => hasks fun hcheck => (hpassed hcheck).1, lastPrice, itr, ?_⟩
    rw [toString, heq, error_bind]

/-- No ask price is below the last one that the asks start with. -/
lemma passes_asks_iff (prices : List Price) : Passes .sell 0 prices ↔ prices = [] := by
  cases prices with
  | nil => simp
  | cons price prices =>
    have hrefused : Refused .sell 0 price := .inl ⟨rfl, Nat.zero_le _⟩
    simp [passes_cons, hrefused]

/-- No bid price is above the last one that the bids start with. -/
lemma passes_bids_iff {prices : List Price} (hmax : ∀ price ∈ prices, price ≤ Price_INVALID) :
    Passes .buy 18446744073709551615 prices ↔ prices = [] := by
  cases prices with
  | nil => simp
  | cons price prices =>
    have hrefused : Refused .buy 18446744073709551615 price := .inr ⟨rfl, hmax price List.mem_cons_self⟩
    simp [passes_cons, hrefused]

def ReachesFatal (r : Except Fault String) : Prop := ∃ msg, r = .error (.fatal msg)

/-- The call comes back, or the process ends with a message. -/
def Terminates (r : Except Fault String) : Prop := (∃ text, r = .ok text) ∨ ReachesFatal r

/-- Asks ascend and bids descend. -/
def InOrder (b : PriceBook I K) (ladders : Side → List Nat) : Prop :=
  (b.prices (ladders .sell)).Pairwise (· < ·) ∧ (b.prices (ladders .buy)).Pairwise (· > ·)

def NoLevels (ladders : Side → List Nat) : Prop := ladders .sell = [] ∧ ladders .buy = []

lemma NoLevels.inOrder {ladders : Side → List Nat} (h : NoLevels ladders) : b.InOrder ladders := by
  unfold InOrder
  rw [h.1, h.2]
  exact ⟨.nil, .nil⟩

lemma Decided.terminates {passed : Prop} {r : Except Fault String} (h : b.Decided w passed r) : Terminates r := by
  rcases h with ⟨-, hok⟩ | ⟨-, lastPrice, itr, herror⟩
  · exact .inl hok
  · exact .inr ⟨_, herror⟩

lemma Decided.fatal_iff {passed : Prop} {r : Except Fault String} (h : b.Decided w passed r) :
    ReachesFatal r ↔ ¬passed := by
  rcases h with ⟨hpassed, text, rfl⟩ | ⟨hpassed, lastPrice, itr, rfl⟩
  · simp [ReachesFatal, hpassed]
  · simp [ReachesFatal, hpassed, notSorted]

/-- The check ends the process on every book that has a level. -/
theorem toString_fatal_iff {ladders : Side → List Nat} (h : b.Circular ladders)
    (hmax : ∀ p ∈ ladders .buy, (b.level p).price ≤ Price_INVALID) (w : Wording I K) (tickerId : TickerId)
    (detailed : Bool) :
    Terminates (b.toString w tickerId detailed true) ∧
      (ReachesFatal (b.toString w tickerId detailed true) ↔ ¬NoLevels ladders) := by
  have hdecided := toString_decided h w tickerId detailed true
  have hbids : ∀ price ∈ b.prices (ladders .buy), price ≤ Price_INVALID := by simpa [prices] using hmax
  refine ⟨hdecided.terminates, ?_⟩
  rw [hdecided.fatal_iff, passes_asks_iff, passes_bids_iff hbids]
  simp [prices, NoLevels]

/-- A book whose pointers are intact can be listed. -/
lemma Intact.circular [OrderKey I K] {rings : Nat → List Nat} {ladders : Side → List Nat} (h : b.Intact rings ladders) :
    b.Circular ladders where
  toCircles := h.toCircles
  nodup := h.nodup
  lt s hs p hp := h.levelPool.used_lt p ((h.mem s hs p).mp hp).1
  orders s hs p hp := by
    have hslot := (h.filed.level _ p).mpr ⟨((h.mem s hs p).mp hp).1, rfl⟩
    refine ⟨_, h.filed.first _ p hslot, ?_, h.filed.ring _, h.filed.nodup _, ?_⟩
    · intro hempty
      cases hslot.symm.trans ((h.filed.empty _).mpr hempty)
    · intro o ho
      exact h.orderPool.used_lt o ((h.filed.mem _ o).mp ho).1

end PriceBook
end LowLatencyExchange
