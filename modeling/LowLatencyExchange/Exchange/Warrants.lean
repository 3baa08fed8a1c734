import LowLatencyExchange.Exchange.Destinations
import Mathlib.Data.List.Forall2
import Mathlib.Data.List.Sort

/-!
# What the engine answers

Whatever requests reach the engine, and whatever state its books are in: every request is answered
once and in its turn, and a fill names an order that was asked for, at a price within its limit.
-/

namespace LowLatencyExchange
open ByteStream LoggedRun

/-- The request placed the order that the fill is about, or came to be filled itself. -/
structure MEClientRequest.Warrants (request : MEClientRequest) (response : MEClientResponse) : Prop where
  type : request.type = .new
  client : response.clientId = request.clientId
  ticker : response.tickerId = request.tickerId
  order : response.clientOrderId = request.orderId
  side : response.side = request.side
  limit : MEOrderBook.limitMissed request.side request.price response.price = false

/-- The response that a request is answered with, apart from fills. -/
structure MEClientRequest.AnsweredBy (request : MEClientRequest) (response : MEClientResponse) : Prop where
  client : response.clientId = request.clientId
  ticker : response.tickerId = request.tickerId
  order : response.clientOrderId = request.orderId
  type : (request.type = .new ∧ response.type = .accepted ∧ response.side = request.side ∧
      response.price = request.price ∧ response.execQty = 0 ∧ response.leavesQty = request.qty) ∨
    (request.type = .cancel ∧ (response.type = .canceled ∨ response.type = .cancelRejected))

def notFilled (response : MEClientResponse) : Bool := response.type ≠ .filled

lemma MatchingEngine.bookCall_cases {r : MEClientRequest} {call : BookCall} (h : bookCall r = .ok call) :
    (r.type = .new ∧ call = .add r.clientId r.orderId r.tickerId r.side r.price r.qty) ∨
      (r.type = .cancel ∧ call = .cancel r.clientId r.orderId r.tickerId) := by
  unfold bookCall at h
  split at h
  · rename_i htype
    exact .inl ⟨htype, (Except.ok.inj h).symm⟩
  · rename_i htype
    exact .inr ⟨htype, (Except.ok.inj h).symm⟩
  · cases h

namespace MEOrderBook
variable {R : MEClientRequest → Prop} {t : TickerId} {b b' : MEOrderBook} {request : MEClientRequest}

/-- The order that a `NEW` request leaves in the book, of which some may have been filled. -/
structure Places (request : MEClientRequest) (order : MEOrder) : Prop where
  type : request.type = .new
  client : order.ids.clientId = request.clientId
  clientOrder : order.ids.clientOrderId = request.orderId
  side : order.side = request.side
  price : order.price = request.price
  qty : order.qty < byteRange 4
  marketOrder : order.ids.marketOrderId < byteRange 8
  priority : order.priority < byteRange 8

/-- Every order that the book can reach was placed by a request in `R`. -/
structure PlacedBy (R : MEClientRequest → Prop) (t : TickerId) (b : MEOrderBook) : Prop where
  orders : b.book.OrdersIn fun o => ∃ request, R request ∧ request.tickerId = t ∧ Places request (b.book.order o)
  next : b.nextMarketOrderId < byteRange 8

lemma placedBy_create (R : MEClientRequest → Prop) (t : TickerId) : (create t).PlacedBy R t := by
  have hone : 1 < byteRange 8 := by decide
  refine ⟨⟨fun p o ho => ?_, fun o q hq => ?_, fun o q hq => ?_, fun k o ho => ?_⟩, hone⟩
  · cases ho
  · cases hq
  · cases hq
  · cases ho

lemma PlacedBy.mono {R' : MEClientRequest → Prop} (h : b.PlacedBy R t) (himp : ∀ r, R r → R' r) : b.PlacedBy R' t := by
  refine ⟨h.orders.mono ?_, h.next⟩
  intro o ho
  obtain ⟨request, hR, hplaces⟩ := ho
  exact ⟨request, himp request hR, hplaces⟩

/-- What a call leaves of an order's data, apart from its links. -/
structure Retains (order order' : MEOrder) : Prop where
  ids : order'.ids = order.ids
  side : order'.side = order.side
  price : order'.price = order.price
  qty : order'.qty ≤ order.qty
  priority : order'.priority = order.priority

lemma Places.retains {order order' : MEOrder} (h : Places request order) (hretains : Retains order order') :
    Places request order' := by
  obtain ⟨hids, hside, hprice, hqty, hpriority⟩ := hretains
  constructor
  · exact h.type
  · rw [hids]
    exact h.client
  · rw [hids]
    exact h.clientOrder
  · rw [hside]
    exact h.side
  · rw [hprice]
    exact h.price
  · exact Nat.lt_of_le_of_lt hqty h.qty
  · rw [hids]
    exact h.marketOrder
  · rw [hpriority]
    exact h.priority

lemma retains_of_unlinked {order order' : MEOrder} (h : order'.unlinked = order.unlinked) : Retains order order' := by
  obtain ⟨hids, hside, hprice, hqty, hpriority⟩ := BookOrder.unlinked_eq_iff.mp h
  exact ⟨hids, hside, hprice, Nat.le_of_eq hqty, hpriority⟩

lemma FillFrame.retains {itr : Nat} {leavesQty : Qty} (h : FillFrame b itr leavesQty b') (q : Nat) :
    Retains (b.book.order q) (b'.book.order q) := by
  by_cases hq : q = itr
  · subst hq
    have hside := congrArg BookOrder.side h.filled
    have hpriority := congrArg BookOrder.priority h.filled
    refine ⟨h.ids q, hside, h.price q, ?_, hpriority⟩
    rw [h.qty]
    exact Nat.sub_le _ _
  · exact retains_of_unlinked (h.order q hq)

lemma PlacedBy.congr (h : b.PlacedBy R t) (hretains : ∀ q, Retains (b.book.order q) (b'.book.order q))
    (hnext : b'.nextMarketOrderId = b.nextMarketOrderId) (hin : ∀ G, b.book.OrdersIn G → b'.book.OrdersIn G) :
    b'.PlacedBy R t := by
  refine ⟨(hin _ h.orders).mono ?_, hnext ▸ h.next⟩
  intro o ho
  obtain ⟨request, hR, hticker, hplaces⟩ := ho
  exact ⟨request, hR, hticker, hplaces.retains (hretains o)⟩

lemma PlacedBy.fillsOrder (h : b.PlacedBy R t) {itr : Nat} {leavesQty leavesQty' : Qty}
    (hfill : b.FillsOrder itr leavesQty b' leavesQty') : b'.PlacedBy R t := by
  have hf := hfill.frame
  apply h.congr hf.retains hf.nextMarketOrderId
  intro G hG
  rcases hfill with ⟨-, -, book, hbook, rfl⟩ | ⟨-, -, rfl⟩
  · exact (hG.setQty itr 0).removeOrder hbook
  · exact hG.setQty itr _

lemma PlacedBy.removeOrder (h : b.PlacedBy R t) {o : Nat} {book : PriceBook MEOrderIds (ClientId × OrderId)}
    (hremove : b.book.removeOrder o = .ok book) : ({ b with book := book } : MEOrderBook).PlacedBy R t := by
  have hf := PriceBook.removeOrder_frame hremove
  apply h.congr
  · exact fun q => retains_of_unlinked (hf.order q)
  · rfl
  · exact fun G hG => hG.removeOrder hremove

lemma PlacedBy.drawn (h : b.PlacedBy R t) : b.drawn.PlacedBy R t := by
  refine ⟨h.orders, ?_⟩
  exact wrap64_lt_byteRange _

lemma getNextPriority_lt {price : Price} {priority : Priority} (hrun : b.getNextPriority price = .ok priority) :
    priority < byteRange 8 := by
  unfold getNextPriority at hrun
  split at hrun
  · cases hrun
    decide
  · obtain ⟨first, -, hrun⟩ := bind_eq_ok hrun
    obtain ⟨last, -, hrun⟩ := bind_eq_ok hrun
    cases hrun
    exact wrap64_lt_byteRange _

lemma PlacedBy.rests (h : b.PlacedBy R t) (hR : R request) (htype : request.type = .new) (hticker : request.tickerId = t)
    {marketOrderId : OrderId} {leavesQty : Qty} {priority : Priority} {o : Nat} (hid : marketOrderId < byteRange 8)
    (hqty : leavesQty < byteRange 4)
    (hrests : Rests (addAggressor request.clientId request.orderId request.tickerId request.side request.price
      request.qty) b marketOrderId leavesQty priority o b') : b'.PlacedBy R t := by
  have hframe := hrests.frame
  have hpriority := getNextPriority_lt hrests.next
  obtain ⟨pool, book, halloc, hadd, rfl⟩ := hrests.placed
  have hids : (book.order o).ids = ⟨request.tickerId, request.clientId, request.orderId, marketOrderId⟩ :=
    congrArg BookOrder.ids hframe.placed
  have hleaves : (book.order o).qty = leavesQty := congrArg BookOrder.qty hframe.placed
  have hlast : (book.order o).priority = priority := congrArg BookOrder.priority hframe.placed
  have hplaced : ∃ r, R r ∧ r.tickerId = t ∧ Places r (book.order o) := by
    refine ⟨request, hR, hticker, htype, ?_, ?_, congrArg BookOrder.side hframe.placed,
      congrArg BookOrder.price hframe.placed, ?_, ?_, ?_⟩
    · rw [hids]
    · rw [hids]
    · rwa [hleaves]
    · rwa [hids]
    · rwa [hlast]
  have hall : b.book.OrdersIn fun q => ∃ r, R r ∧ r.tickerId = t ∧ Places r (book.order q) := by
    apply h.orders.mono
    intro q hq
    by_cases hqo : q = o
    · rw [hqo]
      exact hplaced
    · obtain ⟨r, hr, hrt, hplaces⟩ := hq
      exact ⟨r, hr, hrt, hplaces.retains (retains_of_unlinked (hframe.order q hqo))⟩
  exact ⟨(hall.takeOrder rfl rfl halloc).addOrder hplaced hadd, h.next⟩

/-- The fields of a request that came from the wire. -/
lemma fields_fit (h : MEClientRequest.packed.Fits request) : request.clientId < byteRange 4 ∧
    request.tickerId < byteRange 4 ∧ request.orderId < byteRange 8 ∧ (ByteEnum.packed Side).Fits request.side ∧
      request.price < byteRange 8 ∧ request.qty < byteRange 4 := by
  obtain ⟨-, hclient, hticker, horder, hside, hprice, hqty⟩ := h
  exact ⟨hclient, hticker, horder, hside, hprice, hqty⟩

lemma Places.fit {order : MEOrder} (h : Places request order) (hfits : MEClientRequest.packed.Fits request) :
    order.ids.clientId < byteRange 4 ∧ order.ids.clientOrderId < byteRange 8 ∧ (ByteEnum.packed Side).Fits order.side ∧
      order.price < byteRange 8 := by
  obtain ⟨hclient, -, horder, hside, hprice, -⟩ := fields_fit hfits
  rw [h.client, h.clientOrder, h.side, h.price]
  exact ⟨hclient, horder, hside, hprice⟩

/-- A response that is put on the wire comes out of it as it was, and so does an update. -/
def Fit : Event → Prop
  | .response r => MEClientResponse.packed.Fits r
  | .update u => MEMarketUpdate.packed.Fits u

/-- A fill that is sent: between two orders that were asked for, at a price within both limits. -/
structure Warranted (R : MEClientRequest → Prop) (f : Fill) : Prop where
  filled : f.aggressor.type = .filled ∧ f.passive.type = .filled
  aggressor : ∃ r, R r ∧ r.Warrants f.aggressor
  passive : ∃ r, R r ∧ r.Warrants f.passive
  fit : (∀ r, R r → MEClientRequest.packed.Fits r) → ∀ e ∈ f.events, Fit e

lemma Places.warranted {order : MEOrder} {r : MEClientRequest} (h : Places r order) (hr : R r) (hR : R request)
    (htype : request.type = .new) (hticker : r.tickerId = request.tickerId)
    (hlimit : limitMissed request.side request.price order.price = false) {leavesQty : Qty}
    (hqty : leavesQty < byteRange 4) :
    Warranted R ((addAggressor request.clientId request.orderId request.tickerId request.side request.price
      request.qty).fill order leavesQty) := by
  refine ⟨⟨rfl, rfl⟩, ⟨request, hR, htype, rfl, rfl, rfl, rfl, hlimit⟩,
    ⟨r, hr, h.type, h.client, hticker.symm, h.clientOrder, h.side, ?_⟩, fun hfits e he => ?_⟩
  · rw [← h.price]
    exact MEOrderBook.limitMissed_self _ _
  · obtain ⟨hclient, hticker', horder, hside, -, hrequested⟩ := fields_fit (hfits request hR)
    obtain ⟨hclient', horder', hside', hprice'⟩ := h.fit (hfits r hr)
    have hexec : min leavesQty order.qty < byteRange 4 := Nat.lt_of_le_of_lt (min_le_left _ _) hqty
    have hid : request.qty < byteRange 8 := Nat.lt_trans hrequested (by decide)
    have hpassive : order.qty - min leavesQty order.qty < byteRange 4 := Nat.lt_of_le_of_lt (Nat.sub_le _ _) h.qty
    have hleaves : leavesQty - min leavesQty order.qty < byteRange 4 := Nat.lt_of_le_of_lt (Nat.sub_le _ _) hqty
    have hrest : order.qty - leavesQty < byteRange 4 := Nat.lt_of_le_of_lt (Nat.sub_le _ _) h.qty
    have hinvalid : OrderId_INVALID < byteRange 8 := by decide
    have hnone : Priority_INVALID < byteRange 8 := by decide
    simp only [Fill.events, List.mem_cons, List.not_mem_nil, or_false] at he
    rcases he with rfl | rfl | rfl | rfl
    · exact ⟨rfl, hclient, hticker', horder, hid, hside, hprice', hexec, hleaves⟩
    · exact ⟨rfl, hclient', hticker', horder', h.marketOrder, hside', hprice', hexec, hpassive⟩
    · exact ⟨rfl, hinvalid, hticker', hside, hprice', hexec, hnone⟩
    · unfold Fit Aggressor.fill
      dsimp only
      split
      · exact ⟨rfl, h.marketOrder, hticker', hside', hprice', h.qty, hnone⟩
      · exact ⟨rfl, h.marketOrder, hticker', hside', hprice', hrest, h.priority⟩

/-- The fills of the matching loop are warranted, whatever the book is like. -/
lemma PlacedBy.checkForMatch (h : b.PlacedBy R t) (hR : R request) (htype : request.type = .new)
    (hticker : request.tickerId = t) {qty leavesQty : Qty} (hqty : qty < byteRange 4) {es : List Event}
    (hrun : b.checkForMatch request.tickerId request.clientId request.side request.price request.orderId request.qty qty =
      .ok (b', leavesQty, es)) :
    b'.PlacedBy R t ∧ leavesQty < byteRange 4 ∧
      ∃ fills : List Fill, es = fills.flatMap Fill.events ∧ ∀ f ∈ fills, Warranted R f := by
  let a := addAggressor request.clientId request.orderId request.tickerId request.side request.price request.qty
  obtain ⟨fills, hes, ⟨hplaced, hleaves, hfills⟩, -⟩ := checkForMatch_rule a
    (P := fun b leavesQty fills => b.PlacedBy R t ∧ leavesQty < byteRange 4 ∧ ∀ f ∈ fills, Warranted R f)
    (fun _ b leavesQty fills itr b' leavesQty' hP hround => by
      obtain ⟨hplaced, hleaves, hfills⟩ := hP
      refine ⟨hplaced.fillsOrder hround.fills, ?_, fun f hf => ?_⟩
      · rcases hround.fills with ⟨-, rfl, -⟩ | ⟨-, rfl, -⟩
        · exact Nat.lt_of_le_of_lt (Nat.sub_le _ _) hleaves
        · exact Nat.lt_of_le_of_lt (Nat.zero_le _) hleaves
      · rcases List.mem_append.mp hf with hf | hf
        · exact hfills f hf
        · obtain rfl := List.mem_singleton.mp hf
          obtain ⟨lvl, -, hfirst⟩ := hround.first
          obtain ⟨r, hr, hrt, hplaces⟩ := hplaced.orders.first lvl itr hfirst
          exact hplaces.warranted hr hR htype (hrt.trans hticker.symm) hround.limit hleaves)
    ⟨h, hqty, fun f hf => absurd hf List.not_mem_nil⟩ hrun
  exact ⟨hplaced, hleaves, fills, hes, hfills⟩

/-- The messages of a call: the fills among them are warranted, one of them answers the request, and all of
them fit. -/
structure AnswersWith (R : MEClientRequest → Prop) (request : MEClientRequest) (es : List Event) : Prop where
  fills : ∀ x ∈ responses es, x.type = .filled → ∃ r, R r ∧ r.Warrants x
  answer : ∃ x, (responses es).filter notFilled = [x] ∧ request.AnsweredBy x
  fit : (∀ r, R r → MEClientRequest.packed.Fits r) → ∀ e ∈ es, Fit e

lemma responses_fills {fills : List Fill} (h : ∀ f ∈ fills, Warranted R f) {x : MEClientResponse}
    (hx : x ∈ responses (fills.flatMap Fill.events)) : x.type = .filled ∧ ∃ r, R r ∧ r.Warrants x := by
  obtain ⟨e, he, hx⟩ := List.mem_filterMap.mp hx
  obtain ⟨f, hf, he⟩ := List.mem_flatMap.mp he
  obtain ⟨⟨haggressor, hpassive⟩, hfirst, hsecond, -⟩ := h f hf
  simp only [Fill.events, List.mem_cons, List.not_mem_nil, or_false] at he
  rcases he with rfl | rfl | rfl | rfl
  · cases hx
    exact ⟨haggressor, hfirst⟩
  · cases hx
    exact ⟨hpassive, hsecond⟩
  · cases hx
  · cases hx

lemma PlacedBy.add (h : b.PlacedBy R t) (hR : R request) (hticker : request.tickerId = t) (htype : request.type = .new)
    {es : List Event} (hrun : b.add request.clientId request.orderId request.tickerId request.side request.price
      request.qty = .ok (b', es)) : b'.PlacedBy R t ∧ AnswersWith R request es := by
  obtain ⟨b₁, leavesQty, messages, hmatch, hend⟩ := add_cases hrun
  have hnarrow : wrap32 b.nextMarketOrderId < byteRange 4 := Nat.mod_lt _ (by decide)
  obtain ⟨hplaced, hleaves, fills, rfl, hfills⟩ := h.drawn.checkForMatch hR htype hticker hnarrow hmatch
  let answer : MEClientResponse := ⟨.accepted, request.clientId, request.tickerId, request.orderId,
    b.nextMarketOrderId, request.side, request.price, 0, request.qty⟩
  have hnone : (responses (fills.flatMap Fill.events)).filter notFilled = [] := by
    apply List.filter_eq_nil_iff.mpr
    intro x hx
    simp [notFilled, (responses_fills hfills hx).1]
  have hresponses : responses es = answer :: responses (fills.flatMap Fill.events) := by
    rcases hend with ⟨-, -, rfl⟩ | ⟨-, priority, o, -, rfl⟩
    · rfl
    · rw [responses_append]
      exact List.append_nil _
  have hfit : (∀ r, R r → MEClientRequest.packed.Fits r) → Fit (.response answer) ∧
      ∀ e ∈ fills.flatMap Fill.events, Fit e := by
    intro hfits
    obtain ⟨hclient, hticker', horder, hside, hprice, hrequested⟩ := fields_fit (hfits request hR)
    have hzero : 0 < byteRange 4 := by decide
    refine ⟨⟨rfl, hclient, hticker', horder, h.next, hside, hprice, hzero, hrequested⟩, fun e he => ?_⟩
    obtain ⟨f, hf, he⟩ := List.mem_flatMap.mp he
    exact (hfills f hf).fit hfits e he
  refine ⟨?_, fun x hx hfilled => ?_, ⟨answer, ?_, rfl, rfl, rfl, .inl ⟨htype, rfl, rfl, rfl, rfl, rfl⟩⟩,
    fun hfits e he => ?_⟩
  · rcases hend with ⟨-, rfl, -⟩ | ⟨-, priority, o, hrests, -⟩
    · exact hplaced
    · exact hplaced.rests hR htype hticker h.next hleaves hrests
  · rw [hresponses] at hx
    rcases List.mem_cons.mp hx with rfl | hx
    · cases hfilled
    · exact (responses_fills hfills hx).2
  · rw [hresponses, List.filter_cons_of_pos rfl, hnone]
  · obtain ⟨hanswer, hall⟩ := hfit hfits
    rcases hend with ⟨-, -, rfl⟩ | ⟨-, priority, o, hrests, rfl⟩
    · rcases List.mem_cons.mp he with rfl | he
      · exact hanswer
      · exact hall e he
    · rcases List.mem_append.mp he with he | he
      · rcases List.mem_cons.mp he with rfl | he
        · exact hanswer
        · exact hall e he
      · obtain rfl := List.mem_singleton.mp he
        obtain ⟨-, hticker', -, hside, hprice, -⟩ := fields_fit (hfits request hR)
        exact ⟨rfl, h.next, hticker', hside, hprice, hleaves, getNextPriority_lt hrests.next⟩

lemma PlacedBy.cancel (h : b.PlacedBy R t) (hR : R request) (htype : request.type = .cancel) {es : List Event}
    (hrun : b.cancel request.clientId request.orderId request.tickerId = .ok (b', es)) :
    b'.PlacedBy R t ∧ AnswersWith R request es := by
  rcases cancel_cases hrun with ⟨-, rfl, rfl⟩ | ⟨o, book, hkey, hremove, rfl, rfl⟩
  · refine ⟨h, fun x hx hfilled => ?_, ⟨_, rfl, rfl, rfl, rfl, .inr ⟨htype, .inr rfl⟩⟩, fun hfits e he => ?_⟩
    · obtain rfl := List.mem_singleton.mp hx
      cases hfilled
    · obtain rfl := List.mem_singleton.mp he
      obtain ⟨hclient, hticker, horder, -⟩ := fields_fit (hfits request hR)
      have hid : OrderId_INVALID < byteRange 8 := by decide
      have hprice : Price_INVALID < byteRange 8 := by decide
      have hqty : Qty_INVALID < byteRange 4 := by decide
      exact ⟨rfl, hclient, hticker, horder, hid, rfl, hprice, hqty, hqty⟩
  · refine ⟨h.removeOrder hremove, fun x hx hfilled => ?_, ⟨_, rfl, rfl, rfl, rfl, .inr ⟨htype, .inl rfl⟩⟩,
      fun hfits e he => ?_⟩
    · obtain rfl := List.mem_singleton.mp hx
      cases hfilled
    · obtain ⟨hclient, hticker, horder, -⟩ := fields_fit (hfits request hR)
      obtain ⟨r, hr, -, hplaces⟩ := h.orders.table _ o hkey
      obtain ⟨-, -, hside, hprice⟩ := hplaces.fit (hfits r hr)
      have hqty : Qty_INVALID < byteRange 4 := by decide
      have hzero : 0 < byteRange 4 := by decide
      rcases List.mem_cons.mp he with rfl | he
      · exact ⟨rfl, hplaces.marketOrder, hticker, hside, hprice, hzero, hplaces.priority⟩
      · obtain rfl := List.mem_singleton.mp he
        exact ⟨rfl, hclient, hticker, horder, hplaces.marketOrder, hside, hprice, hqty, hplaces.qty⟩

theorem PlacedBy.call (h : b.PlacedBy R t) (hR : R request) (hticker : request.tickerId = t) {call : BookCall}
    (hcall : MatchingEngine.bookCall request = .ok call) {es : List Event} (hrun : b.call call = .ok (b', es)) :
    b'.PlacedBy R t ∧ AnswersWith R request es := by
  rcases MatchingEngine.bookCall_cases hcall with ⟨htype, rfl⟩ | ⟨htype, rfl⟩
  · exact h.add hR hticker htype hrun
  · exact h.cancel hR htype hrun

end MEOrderBook

namespace ExchangeEvent

def processed? : ExchangeEvent → Option MEClientRequest
  | .server _ _ => none
  | .engine request _ => some request

def messages : ExchangeEvent → List Event
  | .server _ _ => []
  | .engine _ es => es

def forwarded? : ExchangeEvent → Option MEClientResponse
  | .server (.sendResponse clientResponse) _ => some clientResponse
  | .server (.sendAndRecv ..) _ | .server .recvFinished _ | .engine _ _ => none

end ExchangeEvent

/-- The requests that the engine has taken from its ring. -/
def processedRequests (run : List (ExchangeAction × List ExchangeEvent)) : List MEClientRequest :=
  (sent run).filterMap ExchangeEvent.processed?

/-- What the engine has written to its rings of responses and of updates. -/
def engineMessages (run : List (ExchangeAction × List ExchangeEvent)) : List Event :=
  (sent run).flatMap ExchangeEvent.messages

def emittedResponses (run : List (ExchangeAction × List ExchangeEvent)) : List MEClientResponse :=
  responses (engineMessages run)

/-- The responses that the order server has taken from the ring. -/
def forwardedResponses (run : List (ExchangeAction × List ExchangeEvent)) : List MEClientResponse :=
  (sent run).filterMap ExchangeEvent.forwarded?

section Run
variable {std : StdSort} {log : Log} {s s' : Exchange} {run : List (ExchangeAction × List ExchangeEvent)}
  {a : ExchangeAction} {es : List ExchangeEvent}

lemma processedRequests_concat : processedRequests (run ++ [(a, es)]) =
    processedRequests run ++ es.filterMap ExchangeEvent.processed? := by
  rw [processedRequests, sent_append, sent_singleton, List.filterMap_append]
  rfl

lemma engineMessages_concat : engineMessages (run ++ [(a, es)]) =
    engineMessages run ++ es.flatMap ExchangeEvent.messages := by
  rw [engineMessages, sent_append, sent_singleton, List.flatMap_append]
  rfl

lemma emittedResponses_concat : emittedResponses (run ++ [(a, es)]) =
    emittedResponses run ++ responses (es.flatMap ExchangeEvent.messages) := by
  rw [emittedResponses, engineMessages_concat, responses_append]
  rfl

lemma forwardedResponses_concat : forwardedResponses (run ++ [(a, es)]) =
    forwardedResponses run ++ es.filterMap ExchangeEvent.forwarded? := by
  rw [forwardedResponses, sent_append, sent_singleton, List.filterMap_append]
  rfl

lemma passedRequests_mono {r : MEClientRequest} (h : r ∈ passedRequests (handled run)) :
    r ∈ passedRequests (handled (run ++ [(a, es)])) := by
  rw [handled_append, passedRequests_append]
  exact List.mem_append_left _ h

/-- What the order server passes on was read off the wire. -/
lemma passedRequests_fit {run : List (ServerAction × List ServerEvent)} {server : OrderServer FIFOSequencer}
    (h : ServerRun std log run server) :
    ∀ r ∈ passedRequests (handledRecords (sent run)), MEClientRequest.packed.Fits r := by
  intro r hr
  obtain ⟨x, hx, hpassed⟩ := List.mem_filterMap.mp hr
  have hserves := h.invariant.1
  have hrecord : x.record ∈ recordsOn x.socket (handledRecords (sent run)) := by
    apply List.mem_map_of_mem
    exact List.mem_filter.mpr ⟨hx, decide_eq_true rfl⟩
  rw [hserves.records] at hrecord
  have hlength := (framed_frames (by decide) _).length x.record hrecord
  rw [hserves.sessions.passed x hx r hpassed]
  exact (OMClientRequest.packed.fits_decode x.record hlength).2

/-- The engine's requests were all passed on by the order server. Its books and its responses come from
them, and the responses are taken from the ring in their order. -/
structure Exchange.Answering (run : List (ExchangeAction × List ExchangeEvent)) (s : Exchange) : Prop where
  books : ∀ t, (s.matchingEngine.tickerOrderBook t).PlacedBy (· ∈ processedRequests run) t
  fills : ∀ x ∈ emittedResponses run, x.type = .filled → ∃ r ∈ processedRequests run, r.Warrants x
  answers : List.Forall₂ MEClientRequest.AnsweredBy (processedRequests run) ((emittedResponses run).filter notFilled)
  queue : emittedResponses run = forwardedResponses run ++ s.clientResponses
  queued : ∀ r ∈ s.clientRequests, r ∈ passedRequests (handled run)
  passed : ∀ r ∈ processedRequests run, r ∈ passedRequests (handled run)
  fit : ∀ e ∈ engineMessages run, MEOrderBook.Fit e

/-- A step of the order server takes nothing from the engine, except for the response that it forwards. -/
lemma Exchange.Answering.stepServer (h : s.Answering run) (hrun : ExchangeRun std log run s)
    {action : ServerAction} {responses : List MEClientResponse}
    (hqueue : s.clientResponses = (ExchangeEvent.server action []).forwarded?.toList ++ responses)
    (hstep : { s with clientResponses := responses }.stepServer std log action = .ok (s', es)) :
    s'.Answering (run ++ [(a, es)]) := by
  obtain ⟨server, es', hserver, rfl, rfl⟩ := Exchange.stepServer_cases hstep
  have hprocessed : processedRequests (run ++ [(a, [.server action es'])]) = processedRequests run := by
    rw [processedRequests_concat]
    exact List.append_nil _
  have hemitted : emittedResponses (run ++ [(a, [.server action es'])]) = emittedResponses run := by
    rw [emittedResponses_concat]
    exact List.append_nil _
  have hmessages : engineMessages (run ++ [(a, [.server action es'])]) = engineMessages run := by
    rw [engineMessages_concat]
    exact List.append_nil _
  have hforwarded : forwardedResponses (run ++ [(a, [.server action es'])]) =
      forwardedResponses run ++ (ExchangeEvent.server action []).forwarded?.toList := by
    rw [forwardedResponses_concat]
    congr 1
    cases action <;> rfl
  refine ⟨?_, ?_, ?_, ?_, fun r hr => ?_, fun r hr => ?_, hmessages ▸ h.fit⟩
  · rw [hprocessed]
    exact h.books
  · rw [hprocessed, hemitted]
    exact h.fills
  · rw [hprocessed, hemitted]
    exact h.answers
  · rw [hemitted, hforwarded, h.queue, hqueue, List.append_assoc]
  · rcases List.mem_append.mp hr with hr | hr
    · exact passedRequests_mono (h.queued r hr)
    · exact passedRequests_mono (Exchange.mem_published hrun.traceable.server hserver r hr)
  · rw [hprocessed] at hr
    exact passedRequests_mono (h.passed r hr)

/-- The engine answers the request. -/
lemma Exchange.Answering.processRequest (h : s.Answering run) (hrun : ExchangeRun std log run s) {r : MEClientRequest}
    {rest : List MEClientRequest}
    (hqueue : s.clientRequests = r :: rest) {engine : MatchingEngine} {messages : List Event}
    (hengine : s.matchingEngine.processNext log r = .ok (engine, messages)) :
    ({ s with
      clientRequests := rest
      matchingEngine := engine
      clientResponses := s.clientResponses ++ responses messages } : Exchange).Answering
        (run ++ [(a, [.engine r messages])]) := by
  obtain ⟨call, orderBook, -, hcall, hbook, rfl⟩ := MatchingEngine.processNext_cases hengine
  have hprocessed : processedRequests (run ++ [(a, [.engine r messages])]) = processedRequests run ++ [r] :=
    processedRequests_concat
  have hforwarded : forwardedResponses (run ++ [(a, [.engine r messages])]) = forwardedResponses run := by
    rw [forwardedResponses_concat]
    exact List.append_nil _
  have hmessages : engineMessages (run ++ [(a, [.engine r messages])]) = engineMessages run ++ messages := by
    rw [engineMessages_concat]
    exact congrArg (engineMessages run ++ ·) (List.append_nil _)
  have hemitted : emittedResponses (run ++ [(a, [.engine r messages])]) = emittedResponses run ++ responses messages := by
    rw [emittedResponses, hmessages, responses_append]
    rfl
  have hbooks : ∀ t, (s.matchingEngine.tickerOrderBook t).PlacedBy (· ∈ processedRequests run ++ [r]) t :=
    fun t => (h.books t).mono fun x hx => List.mem_append_left _ hx
  obtain ⟨hplaced, hfills, ⟨x, hone, hanswered⟩, hfit⟩ :=
    (hbooks r.tickerId).call (List.mem_append_right _ (List.mem_singleton_self r)) rfl hcall hbook
  have hwire : ∀ y ∈ processedRequests run ++ [r], MEClientRequest.packed.Fits y := by
    intro y hy
    apply passedRequests_fit hrun.traceable.server
    rcases List.mem_append.mp hy with hy | hy
    · exact h.passed y hy
    · exact h.queued y (by rw [hqueue, List.mem_singleton.mp hy]; exact List.mem_cons_self)
  refine ⟨fun t => ?_, fun y hy hfilled => ?_, ?_, ?_, fun y hy => ?_, fun y hy => ?_, fun e he => ?_⟩
  · rw [hprocessed]
    by_cases ht : t = r.tickerId
    · subst ht
      simp only [Function.update_self]
      exact hplaced
    · simp only [Function.update_of_ne ht]
      exact hbooks t
  · rw [hprocessed]
    rw [hemitted] at hy
    rcases List.mem_append.mp hy with hy | hy
    · obtain ⟨w, hw, hwarrants⟩ := h.fills y hy hfilled
      exact ⟨w, List.mem_append_left _ hw, hwarrants⟩
    · exact hfills y hy hfilled
  · rw [hprocessed, hemitted, List.filter_append, hone]
    exact List.rel_append h.answers (.cons hanswered .nil)
  · rw [hemitted, hforwarded, h.queue, List.append_assoc]
  · exact passedRequests_mono (h.queued y (hqueue ▸ List.mem_cons_of_mem r hy))
  · rw [hprocessed] at hy
    rcases List.mem_append.mp hy with hy | hy
    · exact passedRequests_mono (h.passed y hy)
    · obtain rfl := List.mem_singleton.mp hy
      exact passedRequests_mono (h.queued y (hqueue ▸ List.mem_cons_self))
  · rw [hmessages] at he
    rcases List.mem_append.mp he with he | he
    · exact h.fit e he
    · exact hfit hwire e he

theorem ExchangeRun.answering (h : ExchangeRun std log run s) : s.Answering run := by
  have hboth : ExchangeRun std log run s ∧ s.Answering run := by
    apply Reached.invariant h fun run s => ExchangeRun std log run s ∧ s.Answering run
    · exact ⟨.start, fun t => MEOrderBook.placedBy_create _ t, by simp [emittedResponses, engineMessages, responses],
        .nil, rfl, by simp [Exchange.create],
        by simp [processedRequests], by simp [engineMessages]⟩
    intro run s a s' es hinv _ hstep
    obtain ⟨hrun, hanswering⟩ := hinv
    refine ⟨hrun.next trivial hstep, ?_⟩
    rcases Exchange.step_cases hstep with ⟨rfl, rfl⟩ | ⟨action, hother, hserver⟩ | ⟨r, rest, hqueue, hserver⟩ |
      ⟨r, rest, engine, messages, hqueue, hengine, rfl, rfl⟩
    · have hsent : sent (run ++ [(a, ([] : List ExchangeEvent))]) = sent run := by
        rw [sent_append, sent_singleton, List.append_nil]
      have hprocessed : processedRequests (run ++ [(a, [])]) = processedRequests run :=
        congrArg (List.filterMap ExchangeEvent.processed?) hsent
      have hmessages : engineMessages (run ++ [(a, [])]) = engineMessages run :=
        congrArg (List.flatMap ExchangeEvent.messages) hsent
      have hemitted : emittedResponses (run ++ [(a, [])]) = emittedResponses run := congrArg responses hmessages
      have hforwarded : forwardedResponses (run ++ [(a, [])]) = forwardedResponses run :=
        congrArg (List.filterMap ExchangeEvent.forwarded?) hsent
      refine ⟨?_, ?_, ?_, ?_, fun r hr => passedRequests_mono (hanswering.queued r hr), fun r hr => ?_,
        hmessages ▸ hanswering.fit⟩
      · rw [hprocessed]
        exact hanswering.books
      · rw [hprocessed, hemitted]
        exact hanswering.fills
      · rw [hprocessed, hemitted]
        exact hanswering.answers
      · rw [hemitted, hforwarded, hanswering.queue]
      · rw [hprocessed] at hr
        exact passedRequests_mono (hanswering.passed r hr)
    · apply hanswering.stepServer hrun ?_ hserver
      cases action with
      | sendResponse r => exact absurd rfl (hother r)
      | _ => rfl
    · exact hanswering.stepServer hrun hqueue hserver
    · exact hanswering.processRequest hrun hqueue hengine
  exact hboth.2

/-- Every fill names a request that the engine had taken by then, which asked for such an order and set a
limit that the price keeps. The order server had passed it on. -/
theorem fills_warranted (h : ExchangeRun std log run s) {past future : List (ExchangeAction × List ExchangeEvent)}
    (hpast : run = past ++ (a, es) :: future) {request : MEClientRequest} {messages : List Event}
    (hmem : .engine request messages ∈ es) {x : MEClientResponse} (hx : x ∈ responses messages)
    (hfilled : x.type = .filled) :
    ∃ r ∈ processedRequests past ++ [request], r.Warrants x ∧ r ∈ passedRequests (handled past) := by
  obtain ⟨s₁, s₂, hbefore, -, hstep⟩ := h.entry hpast
  have hafter := ExchangeRun.answering (hbefore.next trivial hstep)
  obtain rfl : es = [.engine request messages] := by
    rcases Exchange.step_cases hstep with ⟨-, rfl⟩ | ⟨action, -, hserver⟩ | ⟨r, rest, -, hserver⟩ |
      ⟨r, rest, engine, messages', -, -, rfl, -⟩
    · exact absurd hmem List.not_mem_nil
    · obtain ⟨server, es', -, rfl, -⟩ := Exchange.stepServer_cases hserver
      simp at hmem
    · obtain ⟨server, es', -, rfl, -⟩ := Exchange.stepServer_cases hserver
      simp at hmem
    · rw [List.mem_singleton.mp hmem]
  have hemitted : x ∈ emittedResponses (past ++ [(a, [.engine request messages])]) := by
    rw [emittedResponses_concat, List.flatMap_singleton]
    exact List.mem_append_right _ hx
  obtain ⟨r, hr, hwarrants⟩ := hafter.fills x hemitted hfilled
  have hpassed := hafter.passed r hr
  have hhandled : handled (past ++ [(a, [.engine request messages])]) = handled past := by
    rw [handled_append]
    exact List.append_nil _
  rw [hhandled] at hpassed
  rw [processedRequests_concat] at hr
  exact ⟨r, hr, hwarrants, hpassed⟩

/-- Client 3 sells, and client 5 buys. -/
def crossing : List ExchangeAction :=
  [.sendAndRecv 0 (OMClientRequest.packed.encode
      ⟨1, { type := .new, clientId := 3, tickerId := 0, orderId := 7, side := .sell, price := 100, qty := 10 }⟩) 10 11,
    .sendAndRecv 1 (OMClientRequest.packed.encode
      ⟨1, { type := .new, clientId := 5, tickerId := 0, orderId := 8, side := .buy, price := 101, qty := 10 }⟩) 12 13,
    .recvFinished, .processRequest, .processRequest]

lemma crossing_run : ∃ run s, ExchangeRun .insertion Logger.log run s ∧ run.map Prod.fst = crossing ∧
    (emittedResponses run).map MEClientResponse.type = [.accepted, .accepted, .filled, .filled] := by
  obtain ⟨s, es, hexecute, htypes⟩ := exists_of_ends (Exchange.step .insertion Logger.log) Exchange.create crossing
    (fun _ es => (responses (es.flatMap ExchangeEvent.messages)).map MEClientResponse.type =
      [.accepted, .accepted, .filled, .filled]) (by decide +kernel)
  obtain ⟨run, hreached, hsent, hactions⟩ := reached_execute (fun _ _ _ _ _ => trivial) .start hexecute
  refine ⟨run, s, hreached, hactions, ?_⟩
  rwa [emittedResponses, engineMessages, hsent]

lemma mem_emittedResponses {x : MEClientResponse} (h : x ∈ emittedResponses run) :
    ∃ past a es future request messages, run = past ++ (a, es) :: future ∧
      ExchangeEvent.engine request messages ∈ es ∧ x ∈ responses messages := by
  obtain ⟨e, he, hx⟩ := List.mem_filterMap.mp h
  obtain ⟨event, hevent, he⟩ := List.mem_flatMap.mp he
  obtain ⟨⟨a, es⟩, hentry, hevent⟩ := List.mem_flatMap.mp hevent
  obtain ⟨past, future, hpast⟩ := List.append_of_mem hentry
  cases event with
  | server action es' => exact absurd he List.not_mem_nil
  | engine request messages =>
    exact ⟨past, a, es, future, request, messages, hpast, hevent, List.mem_filterMap.mpr ⟨e, he, hx⟩⟩

/-- The two orders are filled against each other. -/
theorem fills_warranted_crossing : ∃ run s x past a es future request messages,
    ExchangeRun .insertion Logger.log run s ∧ run.map Prod.fst = crossing ∧ run = past ++ (a, es) :: future ∧
      ExchangeEvent.engine request messages ∈ es ∧ x ∈ responses messages ∧ x.type = .filled ∧
      ∃ r ∈ processedRequests past ++ [request], r.Warrants x ∧ r ∈ passedRequests (handled past) := by
  obtain ⟨run, s, hreached, hactions, htypes⟩ := crossing_run
  obtain ⟨x, hx, hfilled⟩ := List.mem_map.mp (htypes ▸ (by decide : ClientResponseType.filled ∈
    [ClientResponseType.accepted, .accepted, .filled, .filled]))
  obtain ⟨past, a, es, future, request, messages, hpast, hmem, hresponse⟩ := mem_emittedResponses hx
  exact ⟨run, s, x, past, a, es, future, request, messages, hreached, hactions, hpast, hmem, hresponse, hfilled,
    fills_warranted hreached hpast hmem hresponse hfilled⟩

/-- Apart from fills, the responses of the engine are one answer to each request that it took, in the order
in which it took them. The order server has forwarded the first of them, and the others wait in the ring. -/
theorem answered_in_turn (h : ExchangeRun std log run s) :
    List.Forall₂ MEClientRequest.AnsweredBy (processedRequests run) ((emittedResponses run).filter notFilled) ∧
      emittedResponses run = forwardedResponses run ++ s.clientResponses :=
  ⟨h.answering.answers, h.answering.queue⟩

/-- Two requests and two answers. -/
theorem answered_in_turn_crossing : ∃ run s, ExchangeRun .insertion Logger.log run s ∧ run.map Prod.fst = crossing ∧
    (emittedResponses run).length = 4 ∧
    List.Forall₂ MEClientRequest.AnsweredBy (processedRequests run) ((emittedResponses run).filter notFilled) ∧
      emittedResponses run = forwardedResponses run ++ s.clientResponses := by
  obtain ⟨run, s, hreached, hactions, htypes⟩ := crossing_run
  have hlength := congrArg List.length htypes
  rw [List.length_map] at hlength
  exact ⟨run, s, hreached, hactions, hlength, answered_in_turn hreached⟩

end Run

end LowLatencyExchange
