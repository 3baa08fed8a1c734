import LowLatencyExchange.Exchange.Walk
import Mathlib.Data.List.Sort

/-!
# The book as two queues

What an order book is for: of either side the resting orders in the order in which they trade, best
price first and in arrival order at a price. There are no levels, links, tables or pools. As far as a
call opens no better level, `MEOrderBook` sends the messages of this book, and its heap holds these
queues.
-/

namespace LowLatencyExchange
open PriceBook LoggedRun

/-- The two queues, and the market order id of the next order. -/
structure QueueBook where
  nextMarketOrderId : OrderId
  bids : List MEOrder
  asks : List MEOrder

namespace QueueBook

def create : QueueBook := ⟨1, [], []⟩

def queue (q : QueueBook) (s : Side) : List MEOrder := if s = .buy then q.bids else q.asks

def setQueue (q : QueueBook) (s : Side) (orders : List MEOrder) : QueueBook :=
  if s = .buy then { q with bids := orders } else { q with asks := orders }

def orders (q : QueueBook) : List MEOrder := q.bids ++ q.asks

/-- The place of a newcomer among the orders at its price. -/
def nextPriority (queue : List MEOrder) (price : Price) : Priority :=
  match (queue.filter fun x => x.price = price).getLast? with
  | none => 1
  | some last => wrap64 (last.priority + 1)

/-- An order goes before the first one that has a worse price. -/
def place (side : Side) (order : MEOrder) (queue : List MEOrder) : List MEOrder :=
  queue.orderedInsert (fun x y => addAfter side y.price x.price = true) order

/-- The walk of an order over the other side. What it asks for is its market order id, as in the code. -/
def walk (q : QueueBook) (a : Aggressor) : Walk := a.walk (q.queue a.side.opposite) (wrap32 q.nextMarketOrderId)

def add (q : QueueBook) (clientId : ClientId) (clientOrderId : OrderId) (tickerId : TickerId) (side : Side)
    (price : Price) (qty : Qty) : QueueBook × List Event :=
  let a := MEOrderBook.addAggressor clientId clientOrderId tickerId side price qty
  let w := q.walk a
  let matched := { q with nextMarketOrderId := wrap64 (q.nextMarketOrderId + 1) }.setQueue side.opposite w.rest
  let messages := MEOrderBook.accepted a q.nextMarketOrderId qty :: w.fills.flatMap Fill.events
  if w.leavesQty = 0 then (matched, messages)
  else
    let priority := nextPriority (q.queue side) price
    (matched.setQueue side (place side (a.resting q.nextMarketOrderId w.leavesQty priority) (q.queue side)),
      messages ++ [MEOrderBook.rested a q.nextMarketOrderId w.leavesQty priority])

def cancel (q : QueueBook) (clientId : ClientId) (orderId : OrderId) (tickerId : TickerId) : QueueBook × List Event :=
  match q.orders.find? fun x => OrderKey.key x.ids = (clientId, orderId) with
  | none => (q, [MEOrderBook.cancelRejected clientId orderId tickerId])
  | some order =>
    ({ q with
      bids := q.bids.filter fun x => OrderKey.key x.ids ≠ (clientId, orderId)
      asks := q.asks.filter fun x => OrderKey.key x.ids ≠ (clientId, orderId) },
      MEOrderBook.canceled order clientId orderId tickerId)

def call (q : QueueBook) : BookCall → QueueBook × List Event
  | .add clientId clientOrderId tickerId side price qty => q.add clientId clientOrderId tickerId side price qty
  | .cancel clientId orderId tickerId => q.cancel clientId orderId tickerId

/-- The queues after these calls on a fresh book, and what they send on the way. -/
def after (past : List BookCall) : QueueBook × List Event := replay call create past

/-- The identifiers are in range and the client has no such order resting. What rests of an order shares the slot of
its price with no other price, and joins a level or is worse than all of its side. -/
def Accepts (q : QueueBook) : BookCall → Prop
  | .add clientId clientOrderId tickerId side price qty =>
    let w := q.walk (MEOrderBook.addAggressor clientId clientOrderId tickerId side price qty)
    side.Trading ∧ OrderKey.inTable MEOrderIds (clientId, clientOrderId) = true ∧
      (∀ x ∈ q.orders, OrderKey.key x.ids ≠ (clientId, clientOrderId)) ∧
      (w.leavesQty ≠ 0 → (∀ x ∈ w.rest ++ q.queue side, priceToIndex x.price = priceToIndex price → x.price = price) ∧
        ((∃ x ∈ q.queue side, x.price = price) ∨ ∀ x ∈ q.queue side, addAfter side price x.price = true))
  | .cancel _ orderId _ => orderId < ME_MAX_ORDER_IDS

instance (q : QueueBook) (call : BookCall) : Decidable (q.Accepts call) :=
  match call with
  | .add .. => inferInstanceAs (Decidable (_ ∧ _ ∧ _ ∧ (_ → _ ∧ _)))
  | .cancel .. => inferInstanceAs (Decidable (_ < _))

section Queues
variable {q q' : QueueBook} {s t : Side}

@[simp] lemma queue_setQueue_self (q : QueueBook) (s : Side) (orders : List MEOrder) :
    (q.setQueue s orders).queue s = orders := by
  unfold queue setQueue
  split <;> rfl

lemma queue_setQueue_of_ne (hs : s.Trading) (ht : t.Trading) (hts : t ≠ s) (q : QueueBook) (orders : List MEOrder) :
    (q.setQueue s orders).queue t = q.queue t := by
  unfold queue setQueue
  rcases hs with rfl | rfl
  · rcases ht with rfl | rfl
    · exact absurd rfl hts
    · rfl
  · rcases ht with rfl | rfl
    · rfl
    · exact absurd rfl hts

@[simp] lemma nextMarketOrderId_setQueue (q : QueueBook) (s : Side) (orders : List MEOrder) :
    (q.setQueue s orders).nextMarketOrderId = q.nextMarketOrderId := by
  unfold setQueue
  split <;> rfl

lemma ext_queue (hnext : q.nextMarketOrderId = q'.nextMarketOrderId)
    (hqueue : ∀ t : Side, t.Trading → q.queue t = q'.queue t) : q = q' := by
  have hbids := hqueue .buy (.inl rfl)
  have hasks := hqueue .sell (.inr rfl)
  obtain ⟨next, bids, asks⟩ := q
  obtain ⟨next', bids', asks'⟩ := q'
  obtain rfl : next = next' := hnext
  obtain rfl : bids = bids' := hbids
  obtain rfl : asks = asks' := hasks
  rfl

lemma mem_orders {x : MEOrder} : x ∈ q.orders ↔ ∃ t : Side, t.Trading ∧ x ∈ q.queue t := by
  rw [orders, List.mem_append]
  constructor
  · rintro (hx | hx)
    · exact ⟨.buy, .inl rfl, hx⟩
    · exact ⟨.sell, .inr rfl, hx⟩
  · rintro ⟨t, rfl | rfl, hx⟩
    · exact .inl hx
    · exact .inr hx

/-- Where everything before a place is at least as good, and everything behind it is worse. -/
lemma place_append {order : MEOrder} {before after : List MEOrder}
    (hbefore : ∀ x ∈ before, ¬addAfter s x.price order.price = true)
    (hafter : ∀ x ∈ after, addAfter s x.price order.price = true) :
    place s order (before ++ after) = before ++ order :: after := by
  induction before with
  | nil =>
    cases after with
    | nil => rfl
    | cons x after => exact List.orderedInsert_cons_of_le _ after (hafter x List.mem_cons_self)
  | cons x before ih =>
    have hrest := ih fun y hy => hbefore y (List.mem_cons_of_mem x hy)
    have hx := List.orderedInsert_of_not_le (fun x y : MEOrder => addAfter s y.price x.price = true) (before ++ after)
      (hbefore x List.mem_cons_self)
    unfold place at hrest ⊢
    rw [List.cons_append, hx, hrest, List.cons_append]

lemma nextMarketOrderId_call (q : QueueBook) (call : BookCall) :
    (q.call call).1.nextMarketOrderId = q.nextMarketOrderId ∨
      (q.call call).1.nextMarketOrderId = wrap64 (q.nextMarketOrderId + 1) := by
  cases call with
  | add clientId clientOrderId tickerId side price qty =>
    right
    unfold QueueBook.call add
    dsimp only
    split
    · rw [nextMarketOrderId_setQueue]
    · rw [nextMarketOrderId_setQueue, nextMarketOrderId_setQueue]
  | cancel clientId orderId tickerId =>
    left
    unfold QueueBook.call cancel
    dsimp only
    split
    · rfl
    · rfl

lemma nextMarketOrderId_after (calls : List BookCall) : (after calls).1.nextMarketOrderId ≤ calls.length + 1 := by
  induction calls using List.reverseRecOn with
  | nil => exact Nat.le_refl 1
  | append_singleton calls call ih =>
    have hwrap := wrap64_le ((after calls).1.nextMarketOrderId + 1)
    unfold after at ih hwrap ⊢
    rw [replay_append, List.length_append, List.length_singleton]
    rcases nextMarketOrderId_call (replay QueueBook.call create calls).1 call with hsame | hdrawn
    · rw [hsame]
      exact Nat.le_succ_of_le ih
    · rw [hdrawn]
      exact hwrap.trans (Nat.succ_le_succ ih)

end Queues
end QueueBook
end LowLatencyExchange
