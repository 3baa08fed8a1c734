import LowLatencyExchange.Book.Pointers
import LowLatencyExchange.Common.Logger
import LowLatencyExchange.Exchange.Matching

/-!
# The matching engine

`Exchange::MatchingEngine`, with a book for each ticker. Its responses name the client of the
request or the owner of a passive order, and the owner of an order is the client that placed it.
-/

namespace LowLatencyExchange

structure MatchingEngine where
  tickerOrderBook : TickerId → MEOrderBook
  timeStr : String

namespace MatchingEngine

/-- The constructor. -/
def create : MatchingEngine where
  tickerOrderBook := MEOrderBook.create
  timeStr := ""

def logAt (e : MatchingEngine) (log : Log) (line : Nat) (function : String) (format : String)
    (args : List LogValue) : Except Fault Unit :=
  log format ([.text "matching_engine.h", .number line, .text function, .text e.timeStr] ++ args)

/-- `sendClientResponse` and `sendMarketUpdate`, for the messages of one call. -/
def sendAll (log : Log) (e : MatchingEngine) : List Event → Except Fault Unit
  | [] => pure ()
  | .response r :: es => do
    e.logAt log 46 "sendClientResponse" "%:% %() % Sending %\n" [.text r.toString]
    e.sendAll log es
  | .update u :: es => do
    e.logAt log 53 "sendMarketUpdate" "%:% %() % Sending %\n" [.text u.toString]
    e.sendAll log es

/-- `ticker_order_book_[ticker_id]`. Nothing keeps a ticker id out of the places behind the array. -/
def bookAt (e : MatchingEngine) (tickerId : TickerId) : Except Fault MEOrderBook :=
  if tickerId < ME_MAX_TICKERS then .ok (e.tickerOrderBook tickerId) else .error .outOfRange

/-- The call on the book that the type of a request stands for. -/
def bookCall (r : MEClientRequest) : Except Fault BookCall :=
  match r.type with
  | .new => .ok (.add r.clientId r.orderId r.tickerId r.side r.price r.qty)
  | .cancel => .ok (.cancel r.clientId r.orderId r.tickerId)
  | type => .error (.fatal ("Received invalid client-request-type:" ++ clientRequestTypeToString type))

def processClientRequest (log : Log) (e : MatchingEngine) (r : MEClientRequest) :
    Except Fault (MatchingEngine × List Event) := do
  e.logAt log 22 "processClientRequest" "%:% %() % Received %\n" [.text r.toString]
  let orderBook ← e.bookAt r.tickerId
  let call ← bookCall r
  let (orderBook, es) ← orderBook.call call
  e.sendAll log es
  pure ({ e with tickerOrderBook := Function.update e.tickerOrderBook r.tickerId orderBook }, es)

/-- One round of the loop of `run`, for a request that was read. -/
def processNext (log : Log) (e : MatchingEngine) (r : MEClientRequest) :
    Except Fault (MatchingEngine × List Event) := do
  e.logAt log 66 "run" "%:% %() % Processing %\n" [.text r.toString]
  e.processClientRequest log r

lemma bookCall_client {r : MEClientRequest} {call : BookCall} (h : bookCall r = .ok call) :
    call = .add r.clientId r.orderId r.tickerId r.side r.price r.qty ∨
      call = .cancel r.clientId r.orderId r.tickerId := by
  unfold bookCall at h
  split at h
  · exact .inl (Except.ok.inj h).symm
  · exact .inr (Except.ok.inj h).symm
  · cases h

lemma processNext_cases {log : Log} {e e' : MatchingEngine} {r : MEClientRequest} {es : List Event}
    (h : e.processNext log r = .ok (e', es)) :
    ∃ call orderBook, r.tickerId < ME_MAX_TICKERS ∧ bookCall r = .ok call ∧
      (e.tickerOrderBook r.tickerId).call call = .ok (orderBook, es) ∧
      e' = { e with tickerOrderBook := Function.update e.tickerOrderBook r.tickerId orderBook } := by
  obtain ⟨_, -, h⟩ := bind_eq_ok h
  obtain ⟨_, -, h⟩ := bind_eq_ok h
  obtain ⟨book, hbook, h⟩ := bind_eq_ok h
  obtain ⟨call, hcall, h⟩ := bind_eq_ok h
  obtain ⟨⟨orderBook, es'⟩, hrun, h⟩ := bind_eq_ok h
  obtain ⟨_, -, h⟩ := bind_eq_ok h
  cases h
  unfold bookAt at hbook
  split at hbook
  · rename_i hticker
    cases hbook
    exact ⟨call, orderBook, hticker, hcall, hrun, rfl⟩
  · cases hbook

lemma sendAll_returns {log : Log} (hlog : log.Counts) (e : MatchingEngine) (es : List Event) :
    e.sendAll log es = .ok () := by
  induction es with
  | nil => rfl
  | cons event es ih =>
    cases event with
    | response x =>
      simp only [sendAll, logAt]
      rw [hlog _ _ rfl, ok_bind, ih]
    | update x =>
      simp only [sendAll, logAt]
      rw [hlog _ _ rfl, ok_bind, ih]

lemma processNext_returns {log : Log} (hlog : log.Counts) {e : MatchingEngine} {r : MEClientRequest}
    (hticker : r.tickerId < ME_MAX_TICKERS) {call : BookCall} (hcall : bookCall r = .ok call)
    {orderBook : MEOrderBook} {es : List Event}
    (hrun : (e.tickerOrderBook r.tickerId).call call = .ok (orderBook, es)) : e.processNext log r =
      .ok ({ e with tickerOrderBook := Function.update e.tickerOrderBook r.tickerId orderBook }, es) := by
  have hbookAt : e.bookAt r.tickerId = .ok (e.tickerOrderBook r.tickerId) := if_pos hticker
  simp only [processNext, processClientRequest, hbookAt, hcall, ok_bind, hrun, sendAll_returns hlog, logAt]
  rw [hlog _ _ rfl, ok_bind, hlog _ _ rfl, ok_bind, pure_eq_ok]

end MatchingEngine

namespace MEOrderBook
variable {P : MEOrderIds → Prop} {C : ClientId → Prop} {b b' : MEOrderBook}

/-- Every order that a pointer of the book leads to has ids with `P`. -/
def IdsIn (P : MEOrderIds → Prop) (b : MEOrderBook) : Prop :=
  b.book.OrdersIn fun o => P (b.book.order o).ids

lemma idsIn_create (P : MEOrderIds → Prop) (tickerId : TickerId) : (create tickerId).IdsIn P := by
  refine ⟨fun p o ho => ?_, fun o q hq => ?_, fun o q hq => ?_, fun k o ho => ?_⟩
  · cases ho
  · cases hq
  · cases hq
  · cases ho

/-- Nothing but an allocation changes the ids in a block. -/
lemma IdsIn.congr (h : b.IdsIn P) (hids : ∀ q, (b'.book.order q).ids = (b.book.order q).ids)
    (hin : b.book.OrdersIn (fun o => P (b.book.order o).ids) →
      b'.book.OrdersIn (fun o => P (b.book.order o).ids)) : b'.IdsIn P := by
  apply (hin h).mono
  intro o ho
  rw [hids]
  exact ho

lemma IdsIn.fillsOrder (h : b.IdsIn P) {itr : Nat} {leavesQty leavesQty' : Qty}
    (hfill : b.FillsOrder itr leavesQty b' leavesQty') : b'.IdsIn P := by
  apply h.congr hfill.frame.ids
  intro hin
  rcases hfill with ⟨-, -, book, hbook, rfl⟩ | ⟨-, -, rfl⟩
  · exact (hin.setQty itr 0).removeOrder hbook
  · exact hin.setQty itr _

lemma IdsIn.removeOrder (h : b.IdsIn P) {o : Nat} {book : PriceBook MEOrderIds (ClientId × OrderId)}
    (hremove : b.book.removeOrder o = .ok book) :
    ({ b with book := book } : MEOrderBook).IdsIn P :=
  h.congr (fun q => (BookOrder.unlinked_eq_iff.mp ((PriceBook.removeOrder_frame hremove).order q)).1) fun hin =>
    hin.removeOrder hremove

lemma IdsIn.rests (h : b.IdsIn P) {a : Aggressor} {marketOrderId : OrderId} {leavesQty : Qty} {priority : Priority}
    {o : Nat} (ha : P ⟨a.tickerId, a.clientId, a.clientOrderId, marketOrderId⟩)
    (hrests : Rests a b marketOrderId leavesQty priority o b') : b'.IdsIn P := by
  have hframe := hrests.frame
  obtain ⟨pool, book, halloc, hadd, rfl⟩ := hrests.placed
  have hplaced : (book.order o).ids = ⟨a.tickerId, a.clientId, a.clientOrderId, marketOrderId⟩ :=
    congrArg (fun x : MEOrder => x.ids) hframe.placed
  have hothers : ∀ q, q ≠ o → (book.order q).ids = (b.book.order q).ids := fun q hq =>
    (BookOrder.unlinked_eq_iff.mp (hframe.order q hq)).1
  have hall : b.book.OrdersIn fun q => P (book.order q).ids := by
    apply PriceBook.OrdersIn.mono h
    intro q hq
    by_cases hqo : q = o
    · rw [hqo, hplaced]
      exact ha
    · rw [hothers q hqo]
      exact hq
  refine (hall.takeOrder rfl rfl halloc).addOrder ?_ hadd
  rw [hplaced]
  exact ha

/-- Every order that the book can reach was placed by a client in `C`. -/
def OwnedBy (C : ClientId → Prop) (b : MEOrderBook) : Prop :=
  b.book.OrdersIn fun o => C (b.book.order o).ids.clientId

lemma ownedBy_create (C : ClientId → Prop) (tickerId : TickerId) : (create tickerId).OwnedBy C :=
  idsIn_create (fun ids => C ids.clientId) tickerId

lemma OwnedBy.mono {D : ClientId → Prop} (h : b.OwnedBy C) (hCD : ∀ c, C c → D c) : b.OwnedBy D :=
  PriceBook.OrdersIn.mono h fun _ ho => hCD _ ho

lemma OwnedBy.fillsOrder (h : b.OwnedBy C) {itr : Nat} {leavesQty leavesQty' : Qty}
    (hfill : b.FillsOrder itr leavesQty b' leavesQty') : b'.OwnedBy C :=
  IdsIn.fillsOrder (P := fun ids => C ids.clientId) h hfill

/-- The matching loop answers the aggressor's client and the owners of passive orders. -/
lemma OwnedBy.checkForMatch (h : b.OwnedBy C) (a : Aggressor) (hclient : C a.clientId) {qty leavesQty : Qty}
    {es : List Event}
    (hrun : b.checkForMatch a.tickerId a.clientId a.side a.price a.clientOrderId a.newMarketOrderId qty =
      .ok (b', leavesQty, es)) : b'.OwnedBy C ∧ ∀ r ∈ responses es, C r.clientId := by
  obtain ⟨fills, rfl, ⟨howned, hfills⟩, -⟩ := checkForMatch_rule a
    (P := fun b _ fills => b.OwnedBy C ∧ ∀ f ∈ fills, C f.aggressor.clientId ∧ C f.passive.clientId)
    (fun _ b leavesQty fills itr b' leavesQty' hP hround => by
      obtain ⟨howned, hfills⟩ := hP
      refine ⟨howned.fillsOrder hround.fills, fun f hf => ?_⟩
      rcases List.mem_append.mp hf with hf | hf
      · exact hfills f hf
      · obtain rfl := List.mem_singleton.mp hf
        obtain ⟨lvl, -, hfirst⟩ := hround.first
        exact ⟨hclient, howned.first lvl itr hfirst⟩)
    ⟨h, fun f hf => absurd hf List.not_mem_nil⟩ hrun
  refine ⟨howned, fun r hr => ?_⟩
  obtain ⟨e, he, hr⟩ := List.mem_filterMap.mp hr
  obtain ⟨f, hf, he⟩ := List.mem_flatMap.mp he
  simp only [Fill.events, List.mem_cons, List.not_mem_nil, or_false] at he
  rcases he with rfl | rfl | rfl | rfl
  · cases hr
    exact (hfills f hf).1
  · cases hr
    exact (hfills f hf).2
  · cases hr
  · cases hr

lemma OwnedBy.rests (h : b.OwnedBy C) {a : Aggressor} (hclient : C a.clientId) {marketOrderId : OrderId}
    {leavesQty : Qty} {priority : Priority} {o : Nat} (hrests : Rests a b marketOrderId leavesQty priority o b') :
    b'.OwnedBy C :=
  IdsIn.rests (P := fun ids => C ids.clientId) h hclient hrests

/-- What a call sends goes to its own client or to the owner of an order it met. -/
theorem OwnedBy.call (h : b.OwnedBy C) {r : MEClientRequest} (hclient : C r.clientId) {call : BookCall}
    (hcall : MatchingEngine.bookCall r = .ok call) {es : List Event} (hrun : b.call call = .ok (b', es)) :
    b'.OwnedBy C ∧ ∀ x ∈ responses es, C x.clientId := by
  rcases MatchingEngine.bookCall_client hcall with rfl | rfl
  · have hdrawn : b.drawn.OwnedBy C := h
    obtain ⟨b₁, leavesQty, fills, hmatch, hend⟩ := add_cases hrun
    obtain ⟨howned, hfills⟩ := hdrawn.checkForMatch
      (addAggressor r.clientId r.orderId r.tickerId r.side r.price r.qty) hclient hmatch
    rcases hend with ⟨-, rfl, rfl⟩ | ⟨-, priority, o, hrests, rfl⟩
    · refine ⟨howned, fun x hx => ?_⟩
      rcases List.mem_cons.mp hx with rfl | hx
      · exact hclient
      · exact hfills x hx
    · refine ⟨howned.rests hclient hrests, fun x hx => ?_⟩
      rw [responses_append] at hx
      rcases List.mem_append.mp hx with hx | hx
      · rcases List.mem_cons.mp hx with rfl | hx
        · exact hclient
        · exact hfills x hx
      · exact absurd hx List.not_mem_nil
  · rcases cancel_cases hrun with ⟨-, rfl, rfl⟩ | ⟨o, book, -, hremove, rfl, rfl⟩
    · refine ⟨h, fun x hx => ?_⟩
      obtain rfl := List.mem_singleton.mp hx
      exact hclient
    · refine ⟨IdsIn.removeOrder (P := fun ids => C ids.clientId) h hremove, fun x hx => ?_⟩
      obtain rfl := List.mem_singleton.mp hx
      exact hclient

end MEOrderBook
end LowLatencyExchange
