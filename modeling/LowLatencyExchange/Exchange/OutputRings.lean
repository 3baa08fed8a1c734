import LowLatencyExchange.Common.Handoff
import LowLatencyExchange.Exchange.Alive

/-!
# The engine's output rings

`sendClientResponse` and `sendMarketUpdate` write to rings that the order server and the market data
publisher read at their own pace. Neither asks whether its ring has room, so a call keeps all messages
just when the unread ones and those it is going to send fit the rings together. How many it is going to
send can be read off the book: two of each kind for every resting order that the matching loop meets.
-/

namespace LowLatencyExchange
open LoggedRun

namespace MEOrderBook

/-- The order that the next round of the matching loop would fill. -/
def firstMet (b : MEOrderBook) (side : Side) (price : Price) : Option Nat := do
  let itr ← (b.book.level (← b.book.top side.opposite)).firstOrder
  if limitMissed side price (b.book.order itr).price then none else some itr

/-- How many resting orders an order with `leavesQty` left meets within its limit, and what is left of it
then. -/
def sweep (side : Side) (price : Price) : Nat → MEOrderBook → Qty → Nat × Qty
  | 0, _, leavesQty => (0, leavesQty)
  | fuel + 1, b, leavesQty =>
    if leavesQty = 0 then (0, 0)
    else
      match b.firstMet side price with
      | none => (0, leavesQty)
      | some itr =>
        let qty := (b.book.order itr).qty
        if leavesQty < qty then (1, 0)
        else
          match (b.book.setQty itr 0).removeOrder itr with
          | .error _ => (1, leavesQty - qty)
          | .ok book =>
            let (met, left) := sweep side price fuel { b with book := book } (leavesQty - qty)
            (met + 1, left)

/-- An order on neither side meets nothing. -/
def sweepFor (b : MEOrderBook) (side : Side) (price : Price) (qty : Qty) : Nat × Qty :=
  if side.Trading then sweep side price (b.book.orderPool.size + 2) b qty else (0, qty)

/-- How many responses and how many updates a call is going to send. An order's market order id takes the
place of its quantity, as in `add`. -/
def emits (b : MEOrderBook) : BookCall → Nat × Nat
  | .add _ _ _ side price _ =>
    let (met, left) := b.drawn.sweepFor side price (wrap32 b.nextMarketOrderId)
    (1 + 2 * met, 2 * met + if left = 0 then 0 else 1)
  | .cancel clientId orderId _ =>
    match b.lookupOrder clientId orderId with
    | .ok (some _) => (1, 1)
    | _ => (1, 0)

lemma length_fills (fills : List Fill) : (responses (fills.flatMap Fill.events)).length = 2 * fills.length ∧
    (updates (fills.flatMap Fill.events)).length = 2 * fills.length := by
  induction fills with
  | nil => exact ⟨rfl, rfl⟩
  | cons f fills ih =>
    obtain ⟨hresponses, hupdates⟩ := ih
    have hfirst : (responses f.events).length = 2 ∧ (updates f.events).length = 2 := ⟨rfl, rfl⟩
    rw [List.flatMap_cons, responses_append, updates_append, List.length_append, List.length_append, List.length_cons]
    omega

/-- The loop fills the orders that `sweep` counts. -/
lemma checkForMatchLoop_sweep (a : Aggressor) (fuel : Nat) {b b' : MEOrderBook} {leavesQty left : Qty}
    {es : List Event} (h : checkForMatchLoop a.tickerId a.clientId a.side a.price a.clientOrderId a.newMarketOrderId
      fuel b leavesQty = .ok (b', left, es)) :
    ∃ fills : List Fill, es = fills.flatMap Fill.events ∧
      sweep a.side a.price fuel b leavesQty = (fills.length, left) := by
  induction fuel generalizing b leavesQty es with
  | zero => cases h
  | succ fuel ih =>
    rw [checkForMatchLoop] at h
    rw [sweep]
    by_cases hzero : leavesQty = 0
    · rw [if_pos hzero] at h ⊢
      cases h
      exact ⟨[], rfl, by rw [hzero]; rfl⟩
    · rw [if_neg hzero] at h ⊢
      cases htop : b.book.top a.side.opposite with
      | none =>
        have hmet : b.firstMet a.side a.price = none := by
          simp [firstMet, htop]
        simp only [htop] at h
        simp only [hmet]
        cases h
        exact ⟨[], rfl, rfl⟩
      | some lvl =>
        simp only [htop] at h
        obtain ⟨itr, hitr, h⟩ := bind_eq_ok h
        have hfirst := deref_eq_ok hitr
        by_cases hlimit : limitMissed a.side a.price (b.book.order itr).price
        · have hmet : b.firstMet a.side a.price = none := by
            simp [firstMet, htop, hfirst, hlimit]
          rw [if_pos hlimit] at h
          simp only [hmet]
          cases h
          exact ⟨[], rfl, rfl⟩
        · rw [if_neg hlimit] at h
          have hmet : b.firstMet a.side a.price = some itr := by
            simp [firstMet, htop, hfirst, hlimit]
          obtain ⟨⟨b₁, leaves₁, es₁⟩, hmatch, h⟩ := bind_eq_ok h
          obtain ⟨⟨b₂, leaves₂, es₂⟩, hrest, h⟩ := bind_eq_ok h
          cases h
          obtain ⟨hfill, rfl⟩ := matchOrder_cases a hmatch
          obtain ⟨fills, rfl, hsweep⟩ := ih hrest
          refine ⟨a.fill (b.book.order itr) leavesQty :: fills, rfl, ?_⟩
          simp only [hmet]
          rcases hfill with ⟨hqty, rfl, book, hbook, rfl⟩ | ⟨hqty, rfl, rfl⟩
          · simp only [if_neg (Nat.not_lt.mpr hqty), hbook, hsweep, List.length_cons]
          · rw [if_pos hqty]
            cases fuel with
            | zero => cases hrest
            | succ fuel =>
              rw [sweep, if_pos rfl, Prod.mk.injEq] at hsweep
              have hleft : (0 : Qty) = leaves₂ := hsweep.2
              rw [List.length_cons, ← hsweep.1, ← hleft]

lemma checkForMatch_sweep (a : Aggressor) {b b' : MEOrderBook} {qty left : Qty} {es : List Event}
    (h : b.checkForMatch a.tickerId a.clientId a.side a.price a.clientOrderId a.newMarketOrderId qty =
      .ok (b', left, es)) :
    ∃ fills : List Fill, es = fills.flatMap Fill.events ∧ b.sweepFor a.side a.price qty = (fills.length, left) := by
  unfold checkForMatch at h
  unfold sweepFor
  by_cases hs : a.side.Trading
  · rw [if_pos hs] at h ⊢
    exact checkForMatchLoop_sweep a _ h
  · rw [if_neg hs] at h ⊢
    cases h
    exact ⟨[], rfl, rfl⟩

/-- Before a call is made, the book says how many messages of each kind it sends. -/
theorem call_emits {b b' : MEOrderBook} {call : BookCall} {es : List Event} (h : b.call call = .ok (b', es)) :
    (responses es).length = (b.emits call).1 ∧ (updates es).length = (b.emits call).2 := by
  cases call with
  | add clientId clientOrderId tickerId side price qty =>
    obtain ⟨b₁, left, sent, hmatch, hend⟩ := add_cases h
    obtain ⟨fills, rfl, hsweep⟩ :=
      checkForMatch_sweep (addAggressor clientId clientOrderId tickerId side price qty) hmatch
    have hmet : b.drawn.sweepFor side price (wrap32 b.nextMarketOrderId) = (fills.length, left) := hsweep
    obtain ⟨hresponses, hupdates⟩ := length_fills fills
    simp only [emits, hmet]
    rcases hend with ⟨hleft, -, rfl⟩ | ⟨hleft, priority, o, -, rfl⟩
    · rw [if_pos hleft]
      simp only [accepted, responses_cons_response, updates_cons_response, List.length_cons]
      omega
    · rw [if_neg hleft]
      simp only [accepted, rested, List.cons_append, responses_cons_response, updates_cons_response, responses_append,
        updates_append, responses_cons_update, updates_cons_update, responses_nil, updates_nil, List.length_append,
        List.length_cons, List.length_nil]
      omega
  | cancel clientId orderId tickerId =>
    obtain ⟨found, hfound, h⟩ := bind_eq_ok h
    simp only [emits, hfound]
    cases found with
    | none =>
      cases h
      exact ⟨rfl, rfl⟩
    | some o =>
      obtain ⟨book, -, h⟩ := bind_eq_ok h
      cases h
      exact ⟨rfl, rfl⟩

end MEOrderBook

/-- The engine between two writes. `unsent` are the messages of the current call that are still to be
written. -/
structure EngineOutput where
  matchingEngine : MatchingEngine
  unsent : List Event
  outgoingOgwResponses : LFQueue MEClientResponse
  outgoingMdUpdates : LFQueue MEMarketUpdate

/-- Whose turn it is: the engine's, which has `request` to process when it is done with the call
before, or that of one of the readers. -/
inductive OutputTurn
  | engine (request : MEClientRequest)
  | orderServer
  | publisher

inductive OutputEvent
  | wrote (message : Event)
  | readResponse (response : MEClientResponse)
  | readUpdate (update : MEMarketUpdate)

def OutputTurn.isEngine : OutputTurn → Bool
  | .engine _ => true
  | .orderServer | .publisher => false

namespace OutputEvent

def wrote? : OutputEvent → Option Event
  | .wrote message => some message
  | .readResponse _ | .readUpdate _ => none

def readResponse? : OutputEvent → Option MEClientResponse
  | .readResponse response => some response
  | .wrote _ | .readUpdate _ => none

def readUpdate? : OutputEvent → Option MEMarketUpdate
  | .readUpdate update => some update
  | .wrote _ | .readResponse _ => none

end OutputEvent

/-- The messages written, and those that the readers have read, in order. -/
def wrote (es : List OutputEvent) : List Event := es.filterMap OutputEvent.wrote?
def responsesRead (es : List OutputEvent) : List MEClientResponse := es.filterMap OutputEvent.readResponse?
def updatesRead (es : List OutputEvent) : List MEMarketUpdate := es.filterMap OutputEvent.readUpdate?

namespace EngineOutput

/-- `main`, where the rings are created. -/
def create : EngineOutput where
  matchingEngine := .create
  unsent := []
  outgoingOgwResponses := .create {} ME_MAX_CLIENT_UPDATES
  outgoingMdUpdates := .create {} ME_MAX_MARKET_UPDATES

def step (log : Log) (s : EngineOutput) : OutputTurn → Except Fault (EngineOutput × List OutputEvent)
  | .engine request =>
    match s.unsent with
    | [] => do
      let (engine, es) ← s.matchingEngine.processNext log request
      pure ({ s with matchingEngine := engine, unsent := es }, [])
    | .response r :: rest =>
      pure ({ s with unsent := rest, outgoingOgwResponses := s.outgoingOgwResponses.write r },
        [.wrote (.response r)])
    | .update u :: rest =>
      pure ({ s with unsent := rest, outgoingMdUpdates := s.outgoingMdUpdates.write u }, [.wrote (.update u)])
  | .orderServer => do
    let (ring, read) ← s.outgoingOgwResponses.read
    pure ({ s with outgoingOgwResponses := ring }, read.map .readResponse)
  | .publisher => do
    let (ring, read) ← s.outgoingMdUpdates.read
    pure ({ s with outgoingMdUpdates := ring }, read.map .readUpdate)

/-- A message is about to be written to a ring that is full. -/
def Overruns (s : EngineOutput) : OutputTurn → Prop
  | .engine _ =>
    match s.unsent with
    | [] => False
    | .response _ :: _ => s.outgoingOgwResponses.capacity ≤ s.outgoingOgwResponses.numElements
    | .update _ :: _ => s.outgoingMdUpdates.capacity ≤ s.outgoingMdUpdates.numElements
  | .orderServer | .publisher => False

/-- Every message written has been read, once and in order, or is still there to be read. -/
structure Delivered (s : EngineOutput) (es : List OutputEvent) : Prop where
  responses : responses (wrote es) = responsesRead es ++ s.outgoingOgwResponses.unread
  updates : updates (wrote es) = updatesRead es ++ s.outgoingMdUpdates.unread

/-- No write of the run meets a full ring, and no message is lost or read twice. -/
def NeverOverruns (log : Log) (turns : List OutputTurn) : Prop :=
  Never (step log) create turns Overruns ∧
    ∀ past s es, past <+: turns → execute (step log) create past = .ok (s, es) → s.Delivered es

/-- How many messages of each kind the engine is going to send for a request. -/
def emits (s : EngineOutput) (request : MEClientRequest) : Nat × Nat :=
  match MatchingEngine.bookCall request with
  | .error _ => (0, 0)
  | .ok call => (s.matchingEngine.tickerOrderBook request.tickerId).emits call

/-- What is unread and what the request is going to send fit both rings. -/
def Fits (s : EngineOutput) (request : MEClientRequest) : Prop :=
  s.outgoingOgwResponses.numElements + (s.emits request).1 ≤ s.outgoingOgwResponses.capacity ∧
    s.outgoingMdUpdates.numElements + (s.emits request).2 ≤ s.outgoingMdUpdates.capacity

instance (s : EngineOutput) (request : MEClientRequest) : Decidable (s.Fits request) :=
  inferInstanceAs (Decidable (_ ∧ _))

/-- The engine is done with a call and takes up a request that does not fit. -/
def Overcommits (s : EngineOutput) : OutputTurn → Prop
  | .engine request => s.unsent = [] ∧ ¬s.Fits request
  | .orderServer | .publisher => False

instance (s : EngineOutput) (turn : OutputTurn) : Decidable (s.Overcommits turn) :=
  match turn with
  | .engine _ => inferInstanceAs (Decidable (_ ∧ _))
  | .orderServer | .publisher => inferInstanceAs (Decidable False)

/-- What is still to be written has room next to what is unread. -/
structure Roomy (s : EngineOutput) : Prop where
  outgoingOgwResponses : s.outgoingOgwResponses.numElements + (responses s.unsent).length ≤ ME_MAX_CLIENT_UPDATES
  outgoingMdUpdates : s.outgoingMdUpdates.numElements + (updates s.unsent).length ≤ ME_MAX_MARKET_UPDATES

/-- The rings hold just what was written and not read yet. -/
structure Sound (s : EngineOutput) (es : List OutputEvent) : Prop where
  outgoingOgwResponses : s.outgoingOgwResponses.Sound ME_MAX_CLIENT_UPDATES
  outgoingMdUpdates : s.outgoingMdUpdates.Sound ME_MAX_MARKET_UPDATES
  delivered : s.Delivered es

variable {log : Log} {s s' : EngineOutput} {turn : OutputTurn} {es es' : List OutputEvent}

lemma wrote_append (es es' : List OutputEvent) : wrote (es ++ es') = wrote es ++ wrote es' := List.filterMap_append

lemma responsesRead_append (es es' : List OutputEvent) :
    responsesRead (es ++ es') = responsesRead es ++ responsesRead es' := List.filterMap_append

lemma updatesRead_append (es es' : List OutputEvent) :
    updatesRead (es ++ es') = updatesRead es ++ updatesRead es' := List.filterMap_append

lemma read_responses (rs : List MEClientResponse) : wrote (rs.map .readResponse) = [] ∧
    responsesRead (rs.map .readResponse) = rs ∧ updatesRead (rs.map .readResponse) = [] := by
  induction rs with
  | nil => exact ⟨rfl, rfl, rfl⟩
  | cons r rs ih =>
    obtain ⟨hwrote, hresponses, hupdates⟩ := ih
    exact ⟨hwrote, congrArg (r :: ·) hresponses, hupdates⟩

lemma read_updates (us : List MEMarketUpdate) : wrote (us.map .readUpdate) = [] ∧
    responsesRead (us.map .readUpdate) = [] ∧ updatesRead (us.map .readUpdate) = us := by
  induction us with
  | nil => exact ⟨rfl, rfl, rfl⟩
  | cons u us ih =>
    obtain ⟨hwrote, hresponses, hupdates⟩ := ih
    exact ⟨hwrote, hresponses, congrArg (u :: ·) hupdates⟩

lemma sound_create : create.Sound [] where
  outgoingOgwResponses := LFQueue.sound_create (T := MEClientResponse) {} (by decide)
  outgoingMdUpdates := LFQueue.sound_create (T := MEMarketUpdate) {} (by decide)
  delivered := ⟨rfl, rfl⟩

/-- A turn either processes a request, or writes a message, or reads one. -/
lemma step_cases (h : s.step log turn = .ok (s', es')) :
    (s'.outgoingOgwResponses = s.outgoingOgwResponses ∧ s'.outgoingMdUpdates = s.outgoingMdUpdates ∧ es' = [] ∧
      ¬s.Overruns turn) ∨
    (∃ r, s'.outgoingOgwResponses = s.outgoingOgwResponses.write r ∧ s'.outgoingMdUpdates = s.outgoingMdUpdates ∧
      es' = [.wrote (.response r)] ∧
      (s.Overruns turn ↔ s.outgoingOgwResponses.capacity ≤ s.outgoingOgwResponses.numElements)) ∨
    (∃ u, s'.outgoingOgwResponses = s.outgoingOgwResponses ∧ s'.outgoingMdUpdates = s.outgoingMdUpdates.write u ∧
      es' = [.wrote (.update u)] ∧
      (s.Overruns turn ↔ s.outgoingMdUpdates.capacity ≤ s.outgoingMdUpdates.numElements)) ∨
    (∃ rs, s.outgoingOgwResponses.read = .ok (s'.outgoingOgwResponses, rs) ∧
      s'.outgoingMdUpdates = s.outgoingMdUpdates ∧ es' = rs.map .readResponse ∧ ¬s.Overruns turn) ∨
    (∃ us, s'.outgoingOgwResponses = s.outgoingOgwResponses ∧
      s.outgoingMdUpdates.read = .ok (s'.outgoingMdUpdates, us) ∧ es' = us.map .readUpdate ∧ ¬s.Overruns turn) := by
  cases turn with
  | engine request =>
    cases hunsent : s.unsent with
    | nil =>
      simp only [step, hunsent] at h
      obtain ⟨⟨engine, es⟩, -, h⟩ := bind_eq_ok h
      cases h
      exact .inl ⟨rfl, rfl, rfl, by simp only [Overruns, hunsent, not_false_eq_true]⟩
    | cons message rest =>
      cases message with
      | response r =>
        simp only [step, hunsent, pure_eq_ok] at h
        cases h
        exact .inr (.inl ⟨r, rfl, rfl, rfl, by simp only [Overruns, hunsent]⟩)
      | update u =>
        simp only [step, hunsent, pure_eq_ok] at h
        cases h
        exact .inr (.inr (.inl ⟨u, rfl, rfl, rfl, by simp only [Overruns, hunsent]⟩))
  | orderServer =>
    obtain ⟨⟨ring, rs⟩, hread, h⟩ := bind_eq_ok h
    cases h
    exact .inr (.inr (.inr (.inl ⟨rs, hread, rfl, rfl, not_false⟩)))
  | publisher =>
    obtain ⟨⟨ring, us⟩, hread, h⟩ := bind_eq_ok h
    cases h
    exact .inr (.inr (.inr (.inr ⟨us, rfl, hread, rfl, not_false⟩)))

/-- Only a write to a full ring can lose a message. -/
lemma Sound.step (h : s.Sound es) (hroom : ¬s.Overruns turn) (hrun : s.step log turn = .ok (s', es')) :
    s'.Sound (es ++ es') := by
  obtain ⟨hogw, hmd, hresponses, hupdates⟩ := h
  have hsmall : ME_MAX_CLIENT_UPDATES < 18446744073709551616 := by decide
  have hsmall' : ME_MAX_MARKET_UPDATES < 18446744073709551616 := by decide
  rcases step_cases hrun with ⟨hogw', hmd', rfl, -⟩ | ⟨r, hogw', hmd', rfl, hfull⟩ | ⟨u, hogw', hmd', rfl, hfull⟩ |
    ⟨rs, hread, hmd', rfl, -⟩ | ⟨us, hogw', hread, rfl, -⟩
  · rw [List.append_nil]
    exact ⟨by rwa [hogw'], by rwa [hmd'], ⟨by rwa [hogw'], by rwa [hmd']⟩⟩
  · have hlt : s.outgoingOgwResponses.numElements < ME_MAX_CLIENT_UPDATES := by
      rw [hfull, hogw.capacity] at hroom
      omega
    obtain ⟨hsound, -, hunread⟩ := hogw.write hsmall hlt r
    refine ⟨by rwa [hogw'], by rwa [hmd'], ⟨?_, ?_⟩⟩
    · rw [wrote_append, responses_append, responsesRead_append, hresponses, hogw', hunread]
      simp [wrote, responsesRead, OutputEvent.wrote?, OutputEvent.readResponse?]
    · rw [wrote_append, updates_append, updatesRead_append, hupdates, hmd']
      simp [wrote, updatesRead, OutputEvent.wrote?, OutputEvent.readUpdate?]
  · have hlt : s.outgoingMdUpdates.numElements < ME_MAX_MARKET_UPDATES := by
      rw [hfull, hmd.capacity] at hroom
      omega
    obtain ⟨hsound, -, hunread⟩ := hmd.write hsmall' hlt u
    refine ⟨by rwa [hogw'], by rwa [hmd'], ⟨?_, ?_⟩⟩
    · rw [wrote_append, responses_append, responsesRead_append, hresponses, hogw']
      simp [wrote, responsesRead, OutputEvent.wrote?, OutputEvent.readResponse?]
    · rw [wrote_append, updates_append, updatesRead_append, hupdates, hmd', hunread]
      simp [wrote, updatesRead, OutputEvent.wrote?, OutputEvent.readUpdate?]
  · obtain ⟨ring, rs', hread', hsound, hunread⟩ := hogw.read hsmall
    rw [hread] at hread'
    obtain ⟨rfl, rfl⟩ : s'.outgoingOgwResponses = ring ∧ rs = rs' := by simpa using hread'
    obtain ⟨hwrote, hfirst, hsecond⟩ := read_responses rs
    refine ⟨hsound, by rwa [hmd'], ⟨?_, ?_⟩⟩
    · rw [wrote_append, hwrote, List.append_nil, hresponses, responsesRead_append, hfirst, hunread, List.append_assoc]
    · rw [wrote_append, hwrote, List.append_nil, hupdates, updatesRead_append, hsecond, List.append_nil, hmd']
  · obtain ⟨ring, us', hread', hsound, hunread⟩ := hmd.read hsmall'
    rw [hread] at hread'
    obtain ⟨rfl, rfl⟩ : s'.outgoingMdUpdates = ring ∧ us = us' := by simpa using hread'
    obtain ⟨hwrote, hfirst, hsecond⟩ := read_updates us
    refine ⟨by rwa [hogw'], hsound, ⟨?_, ?_⟩⟩
    · rw [wrote_append, hwrote, List.append_nil, hresponses, responsesRead_append, hfirst, List.append_nil, hogw']
    · rw [wrote_append, hwrote, List.append_nil, hupdates, updatesRead_append, hsecond, hunread, List.append_assoc]

/-- The two halves of the property are one: only a write to a full ring loses messages. -/
lemma neverOverruns_iff {turns : List OutputTurn} :
    NeverOverruns log turns ↔ Never (step log) create turns Overruns := by
  refine ⟨And.left, fun hnever => ⟨hnever, fun past s es hpast hrun => ?_⟩⟩
  have hsound := hnever.invariant sound_create fun _ _ _ _ _ h hroom hstep => h.step hroom hstep
  exact (hsound past s es hpast hrun).delivered

lemma NeverOverruns.sound {turns : List OutputTurn} (h : NeverOverruns log turns)
    (hrun : execute (EngineOutput.step log) create turns = .ok (s, es)) : s.Sound es :=
  h.1.invariant sound_create (fun _ _ _ _ _ h hroom hstep => h.step hroom hstep) turns s es (List.prefix_refl turns) hrun

/-- The messages of a call are as many as the engine's book said before it. -/
lemma emits_eq {request : MEClientRequest} {engine : MatchingEngine} {messages : List Event}
    (h : s.matchingEngine.processNext log request = .ok (engine, messages)) :
    s.emits request = ((responses messages).length, (updates messages).length) := by
  obtain ⟨call, book, -, hcall, hbook, -⟩ := MatchingEngine.processNext_cases h
  obtain ⟨hresponses, hupdates⟩ := MEOrderBook.call_emits hbook
  simp only [emits, hcall, hresponses, hupdates]

lemma roomy_create : create.Roomy := ⟨Nat.zero_le _, Nat.zero_le _⟩

lemma Roomy.not_overruns (hroom : s.Roomy) (h : s.Sound es) (turn : OutputTurn) : ¬s.Overruns turn := by
  obtain ⟨hogw, hmd⟩ := hroom
  cases turn with
  | engine request =>
    cases hunsent : s.unsent with
    | nil => simp only [Overruns, hunsent, not_false_eq_true]
    | cons message rest =>
      cases message with
      | response r =>
        rw [hunsent, responses_cons_response, List.length_cons] at hogw
        simp only [Overruns, hunsent, h.outgoingOgwResponses.capacity]
        omega
      | update u =>
        rw [hunsent, updates_cons_update, List.length_cons] at hmd
        simp only [Overruns, hunsent, h.outgoingMdUpdates.capacity]
        omega
  | orderServer => exact not_false
  | publisher => exact not_false

/-- Taking up a request that fits. -/
lemma Roomy.start (h : s.Sound es) {request : MEClientRequest} (hidle : s.unsent = []) (hfits : s.Fits request)
    (hrun : s.step log (.engine request) = .ok (s', es')) : s'.Roomy := by
  simp only [step, hidle] at hrun
  obtain ⟨⟨engine, messages⟩, hprocess, hrun⟩ := bind_eq_ok hrun
  cases hrun
  obtain ⟨hogw, hmd⟩ := hfits
  rw [emits_eq hprocess, h.outgoingOgwResponses.capacity] at hogw
  rw [emits_eq hprocess, h.outgoingMdUpdates.capacity] at hmd
  exact ⟨hogw, hmd⟩

/-- Every turn keeps the room, as long as the requests taken up fit. -/
lemma Roomy.step (hroom : s.Roomy) (h : s.Sound es) (hfits : ¬s.Overcommits turn)
    (hrun : s.step log turn = .ok (s', es')) : s'.Roomy := by
  have hsmall : ME_MAX_CLIENT_UPDATES < 18446744073709551616 := by decide
  have hsmall' : ME_MAX_MARKET_UPDATES < 18446744073709551616 := by decide
  cases turn with
  | engine request =>
    cases hunsent : s.unsent with
    | nil =>
      refine Roomy.start h hunsent ?_ hrun
      by_contra hnot
      exact hfits ⟨hunsent, hnot⟩
    | cons message rest =>
      obtain ⟨hogw, hmd⟩ := hroom
      cases message with
      | response r =>
        simp only [EngineOutput.step, hunsent, pure_eq_ok] at hrun
        cases hrun
        rw [hunsent, responses_cons_response, List.length_cons] at hogw
        rw [hunsent, updates_cons_response] at hmd
        obtain ⟨-, hcount, -⟩ := h.outgoingOgwResponses.write hsmall (by omega) r
        exact ⟨by simp only [hcount]; omega, hmd⟩
      | update u =>
        simp only [EngineOutput.step, hunsent, pure_eq_ok] at hrun
        cases hrun
        rw [hunsent, responses_cons_update] at hogw
        rw [hunsent, updates_cons_update, List.length_cons] at hmd
        obtain ⟨-, hcount, -⟩ := h.outgoingMdUpdates.write hsmall' (by omega) u
        exact ⟨hogw, by simp only [hcount]; omega⟩
  | orderServer =>
    obtain ⟨ring, rs, hread, -, hunread⟩ := h.outgoingOgwResponses.read hsmall
    have hlength := congrArg List.length hunread
    rw [List.length_append, LFQueue.length_unread, LFQueue.length_unread] at hlength
    simp only [EngineOutput.step, hread, ok_bind, pure_eq_ok] at hrun
    cases hrun
    have hogw := hroom.outgoingOgwResponses
    exact ⟨by simp only; omega, hroom.outgoingMdUpdates⟩
  | publisher =>
    obtain ⟨ring, us, hread, -, hunread⟩ := h.outgoingMdUpdates.read hsmall'
    have hlength := congrArg List.length hunread
    rw [List.length_append, LFQueue.length_unread, LFQueue.length_unread] at hlength
    simp only [EngineOutput.step, hread, ok_bind, pure_eq_ok] at hrun
    cases hrun
    have hmd := hroom.outgoingMdUpdates
    exact ⟨hroom.outgoingOgwResponses, by simp only; omega⟩

/-- From a state with room, no write meets a full ring while the requests taken up fit. -/
theorem Roomy.never (hroom : s.Roomy) (h : s.Sound es) {turns : List OutputTurn}
    (hfits : Never (EngineOutput.step log) s turns Overcommits) : Never (EngineOutput.step log) s turns Overruns := by
  have hinvariant : ∀ past s' es', past <+: turns → execute (EngineOutput.step log) s past = .ok (s', es') →
      s'.Sound (es ++ es') ∧ s'.Roomy := by
    apply execute_invariant (I := fun (s' : EngineOutput) (es' : List OutputEvent) => s'.Sound (es ++ es') ∧ s'.Roomy)
    · rw [List.append_nil]
      exact ⟨h, hroom⟩
    · intro past turn s₁ es₁ s₂ es₂ hpast hbefore hI hrun
      obtain ⟨hsound, hroom⟩ := hI
      rw [← List.append_assoc]
      exact ⟨hsound.step (hroom.not_overruns hsound turn) hrun,
        hroom.step hsound (hfits past turn s₁ es₁ hpast hbefore) hrun⟩
  intro past turn s₁ es₁ hpast hbefore
  obtain ⟨hsound, hroom⟩ := hinvariant past s₁ es₁ ((List.prefix_append past [turn]).trans hpast) hbefore
  exact hroom.not_overruns hsound turn

/-- The turns of the engine that a call takes: one for each of its messages. -/
def calls (turns : List OutputTurn) : Nat := turns.countP OutputTurn.isEngine

/-- While messages are left, no further request is taken up. -/
lemma never_overcommits (turns : List OutputTurn) (hle : calls turns ≤ s.unsent.length) :
    Never (step log) s turns Overcommits := by
  induction turns generalizing s with
  | nil => exact never_nil
  | cons turn turns ih =>
    cases turn with
    | engine request =>
      have hcount : calls (.engine request :: turns) = calls turns + 1 := List.countP_cons_of_pos rfl
      cases hunsent : s.unsent with
      | nil =>
        rw [hunsent, List.length_nil] at hle
        omega
      | cons message rest =>
        rw [hunsent, List.length_cons] at hle
        apply never_cons
        · rintro ⟨hidle, -⟩
          cases hunsent.symm.trans hidle
        · intro s₁ es₁ hrun
          apply ih
          cases message <;> simp only [step, hunsent, pure_eq_ok] at hrun <;> cases hrun <;> simp only <;> omega
    | orderServer =>
      apply never_cons not_false
      intro s₁ es₁ hrun
      obtain ⟨_, -, hrun⟩ := bind_eq_ok hrun
      cases hrun
      exact ih hle
    | publisher =>
      apply never_cons not_false
      intro s₁ es₁ hrun
      obtain ⟨_, -, hrun⟩ := bind_eq_ok hrun
      cases hrun
      exact ih hle

/-- The pace at which nobody reads. -/
lemma execute_writes (log : Log) (request : MEClientRequest) (messages : List Event) (engine : MatchingEngine)
    (ogw : LFQueue MEClientResponse) (md : LFQueue MEMarketUpdate) : ∃ ogw' md',
    execute (step log) ⟨engine, messages, ogw, md⟩ (List.replicate messages.length (.engine request)) =
      .ok (⟨engine, [], ogw', md'⟩, messages.map .wrote) := by
  induction messages generalizing ogw md with
  | nil => exact ⟨ogw, md, rfl⟩
  | cons message messages ih =>
    cases message with
    | response r =>
      obtain ⟨ogw', md', hrest⟩ := ih (ogw.write r) md
      have hwrite : step log ⟨engine, .response r :: messages, ogw, md⟩ (.engine request) =
          .ok (⟨engine, messages, ogw.write r, md⟩, [.wrote (.response r)]) := rfl
      exact ⟨ogw', md', execute_cons hwrite hrest⟩
    | update u =>
      obtain ⟨ogw', md', hrest⟩ := ih ogw (md.write u)
      have hwrite : step log ⟨engine, .update u :: messages, ogw, md⟩ (.engine request) =
          .ok (⟨engine, messages, ogw, md.write u⟩, [.wrote (.update u)]) := rfl
      exact ⟨ogw', md', execute_cons hwrite hrest⟩

lemma written_messages (messages : List Event) : wrote (messages.map .wrote) = messages ∧
    responsesRead (messages.map .wrote) = [] ∧ updatesRead (messages.map .wrote) = [] := by
  induction messages with
  | nil => exact ⟨rfl, rfl, rfl⟩
  | cons message messages ih =>
    obtain ⟨hwrote, hresponses, hupdates⟩ := ih
    exact ⟨congrArg (message :: ·) hwrote, hresponses, hupdates⟩

/-- What was written without a loss fitted. -/
lemma Sound.fits (h : s.Sound es) {messages : List Event} (h' : s'.Sound (es ++ messages.map .wrote)) :
    s.outgoingOgwResponses.numElements + (responses messages).length ≤ ME_MAX_CLIENT_UPDATES ∧
      s.outgoingMdUpdates.numElements + (updates messages).length ≤ ME_MAX_MARKET_UPDATES := by
  obtain ⟨hwrote, hresponsesRead, hupdatesRead⟩ := written_messages messages
  have hresponses := congrArg List.length h'.delivered.responses
  have hupdates := congrArg List.length h'.delivered.updates
  rw [wrote_append, responses_append, responsesRead_append, hwrote, hresponsesRead, List.append_nil,
    h.delivered.responses] at hresponses
  rw [wrote_append, updates_append, updatesRead_append, hwrote, hupdatesRead, List.append_nil,
    h.delivered.updates] at hupdates
  simp only [List.length_append, LFQueue.length_unread] at hresponses hupdates
  have hogw := h'.outgoingOgwResponses.fits
  have hmd := h'.outgoingMdUpdates.fits
  omega

end EngineOutput

/-- A run whose requests all fit when they are taken up overruns no ring, at any pace of the readers. And
after a run that overran none, a request can be answered at every pace of the readers just when it fits. -/
theorem output_rings {log : Log} {turns : List OutputTurn} {s : EngineOutput} {es : List OutputEvent}
    (hrun : execute (EngineOutput.step log) .create turns = .ok (s, es)) :
    (Never (EngineOutput.step log) .create turns EngineOutput.Overcommits → EngineOutput.NeverOverruns log turns) ∧
    (EngineOutput.NeverOverruns log turns → s.unsent = [] → ∀ request engine messages,
      s.matchingEngine.processNext log request = .ok (engine, messages) →
      ((∀ pace, EngineOutput.calls pace ≤ messages.length →
        EngineOutput.NeverOverruns log (turns ++ .engine request :: pace)) ↔ s.Fits request)) := by
  refine ⟨fun hfits => ?_, fun hnever hidle request engine messages hprocess => ?_⟩
  · apply EngineOutput.neverOverruns_iff.mpr
    exact EngineOutput.roomy_create.never EngineOutput.sound_create hfits
  · have hstart : s.step log (.engine request) = .ok ({ s with matchingEngine := engine, unsent := messages }, []) := by
      simp only [EngineOutput.step, hidle, hprocess, ok_bind, pure_eq_ok]
    have hsound := hnever.sound hrun
    constructor
    · intro hpaces
      obtain ⟨ogw, md, hwrites⟩ := EngineOutput.execute_writes log request messages engine
        s.outgoingOgwResponses s.outgoingMdUpdates
      have hcalls : EngineOutput.calls (List.replicate messages.length (.engine request)) = messages.length := by
        rw [EngineOutput.calls, List.countP_replicate]
        exact if_pos rfl
      have hlater := hpaces _ hcalls.le
      have hall := execute_append hrun (execute_cons hstart hwrites)
      obtain ⟨hogw, hmd⟩ := hsound.fits (hlater.sound hall)
      unfold EngineOutput.Fits
      rw [EngineOutput.emits_eq hprocess, hsound.outgoingOgwResponses.capacity, hsound.outgoingMdUpdates.capacity]
      exact ⟨hogw, hmd⟩
    · intro hfits pace hpace
      have hroomy : s.Roomy := by
        constructor
        · rw [hidle]
          exact hsound.outgoingOgwResponses.fits
        · rw [hidle]
          exact hsound.outgoingMdUpdates.fits
      apply EngineOutput.neverOverruns_iff.mpr
      apply never_append hnever.1
      intro s₀ es₀ hbefore
      obtain ⟨rfl, rfl⟩ : s₀ = s ∧ es₀ = es := by simpa using hbefore.symm.trans hrun
      apply hroomy.never hsound
      apply never_cons
      · exact fun hover => hover.2 hfits
      · intro s₁ es₁ hstep
        rw [hstart] at hstep
        cases hstep
        exact EngineOutput.never_overcommits pace hpace

/-- A cancel request that a fresh engine rejects, and its answer. -/
def unknownCancel : MEClientRequest := { type := .cancel, clientId := 3, tickerId := 0, orderId := 7 }

def rejection : MEClientResponse := { type := .cancelRejected, clientId := 3, tickerId := 0, clientOrderId := 7 }

lemma processNext_unknownCancel :
    MatchingEngine.create.processNext Logger.log unknownCancel = .ok (.create, [.response rejection]) := by
  have hcall : MatchingEngine.bookCall unknownCancel = .ok (.cancel 3 7 0) := rfl
  have hrun := MatchingEngine.processNext_returns Logger.counts_log (e := .create) (r := unknownCancel) (by decide)
    hcall rfl
  rw [hrun, Function.update_eq_self]
  rfl

section UnknownCancel
variable (ogw : LFQueue MEClientResponse) (md : LFQueue MEMarketUpdate)

/-- The engine takes two turns to answer the request, and its books stay as they are. -/
lemma execute_answer : execute (EngineOutput.step Logger.log) ⟨.create, [], ogw, md⟩
    [.engine unknownCancel, .engine unknownCancel] =
      .ok (⟨.create, [], ogw.write rejection, md⟩, [.wrote (.response rejection)]) := by
  have hprocess : EngineOutput.step Logger.log ⟨.create, [], ogw, md⟩ (.engine unknownCancel) =
      .ok (⟨.create, [.response rejection], ogw, md⟩, []) := by
    simp only [EngineOutput.step, processNext_unknownCancel, ok_bind, pure_eq_ok]
  have hwrite : EngineOutput.step Logger.log ⟨.create, [.response rejection], ogw, md⟩ (.engine unknownCancel) =
      .ok (⟨.create, [], ogw.write rejection, md⟩, [.wrote (.response rejection)]) := rfl
  exact execute_cons hprocess (execute_cons hwrite (execute_nil _))

/-- The answers to `n` requests, while nobody reads them. -/
lemma execute_answers (n : Nat) : ∃ ogw', execute (EngineOutput.step Logger.log) ⟨.create, [], ogw, md⟩
    (List.replicate (2 * n) (.engine unknownCancel)) =
      .ok (⟨.create, [], ogw', md⟩, List.replicate n (.wrote (.response rejection))) := by
  induction n with
  | zero => exact ⟨ogw, rfl⟩
  | succ n ih =>
    obtain ⟨ogw', hrun⟩ := ih
    refine ⟨ogw'.write rejection, ?_⟩
    rw [Nat.mul_succ, List.replicate_add, List.replicate_succ' (n := n)]
    exact execute_append hrun (execute_answer ogw' md)

end UnknownCancel

/-- One answer more than the ring holds. -/
theorem output_rings_fails : ∃ s es,
    execute (EngineOutput.step Logger.log) .create
      (List.replicate (2 * (ME_MAX_CLIENT_UPDATES + 1)) (.engine unknownCancel)) = .ok (s, es) ∧
    ¬EngineOutput.NeverOverruns Logger.log
      (List.replicate (2 * (ME_MAX_CLIENT_UPDATES + 1)) (.engine unknownCancel)) := by
  obtain ⟨ogw, hrun⟩ := execute_answers (.create {} ME_MAX_CLIENT_UPDATES) (.create {} ME_MAX_MARKET_UPDATES)
    (ME_MAX_CLIENT_UPDATES + 1)
  refine ⟨_, _, hrun, fun hnever => ?_⟩
  have hsound := hnever.sound hrun
  have hwrote : wrote (List.replicate (ME_MAX_CLIENT_UPDATES + 1) (.wrote (.response rejection))) =
      List.replicate (ME_MAX_CLIENT_UPDATES + 1) (.response rejection) := List.filterMap_replicate_of_some rfl
  have hread : responsesRead (List.replicate (ME_MAX_CLIENT_UPDATES + 1) (.wrote (.response rejection))) = [] :=
    List.filterMap_replicate_of_none rfl
  have hresponses : (responses (List.replicate (ME_MAX_CLIENT_UPDATES + 1) (.response rejection))).length =
      ME_MAX_CLIENT_UPDATES + 1 := by
    have hfilter : responses (List.replicate (ME_MAX_CLIENT_UPDATES + 1) (.response rejection)) = List.replicate _ _ :=
      List.filterMap_replicate_of_some rfl
    rw [hfilter, List.length_replicate]
  have hunread := congrArg List.length hsound.delivered.responses
  rw [hwrote, hread, hresponses, List.nil_append, LFQueue.length_unread] at hunread
  have hfits := hsound.outgoingOgwResponses.fits
  omega

/-- A sell order that rests, a buy order that fills it and rests with what is left, and the readers in between. -/
def crossingTurns : List OutputTurn :=
  let sell : MEClientRequest :=
    { type := .new, clientId := 1, tickerId := 0, orderId := 1, side := .sell, price := 100, qty := 10 }
  let buy : MEClientRequest :=
    { type := .new, clientId := 2, tickerId := 0, orderId := 1, side := .buy, price := 100, qty := 5 }
  List.replicate 3 (.engine sell) ++ [.publisher] ++ List.replicate 4 (.engine buy) ++ [.orderServer, .publisher] ++
    List.replicate 3 (.engine buy)

/-- The second order needs room for three responses and three updates. -/
theorem output_rings_crossing : EngineOutput.NeverOverruns Logger.log crossingTurns ∧
    ∃ s es, execute (EngineOutput.step Logger.log) .create crossingTurns = .ok (s, es) ∧
      s.unsent = [] ∧ (responses (wrote es)).length = 4 ∧ (updates (wrote es)).length = 4 := by
  have hends := exists_of_ends (EngineOutput.step Logger.log) .create crossingTurns (fun s es => s.unsent = [] ∧
    (responses (wrote es)).length = 4 ∧ (updates (wrote es)).length = 4) (by decide +kernel)
  obtain ⟨s, es, hrun, hidle, hresponses, hupdates⟩ := hends
  have hfits : Never (EngineOutput.step Logger.log) .create crossingTurns EngineOutput.Overcommits :=
    never_of_avoids (by decide +kernel)
  exact ⟨(output_rings hrun).1 hfits, s, es, hrun, hidle, hresponses, hupdates⟩

end LowLatencyExchange
