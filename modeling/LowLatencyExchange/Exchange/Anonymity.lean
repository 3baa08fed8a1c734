import LowLatencyExchange.Book.Pointers
import LowLatencyExchange.Book.Skeleton
import LowLatencyExchange.Exchange.Matching
import LowLatencyExchange.Library.Run

/-!
# The feed does not name the traders

Two books that run the same calls under other client and order ids have the same skeleton at
every moment, so they publish the same updates, whatever state the ladders are in.
-/

namespace LowLatencyExchange
open Simulation LoggedRun

/-- A client and one of its order ids. -/
abbrev OrderName := ClientId × OrderId

section Rename
variable (π : OrderName → OrderName)

def MEOrderIds.rename (ids : MEOrderIds) : MEOrderIds :=
  { ids with
    clientId := (π (ids.clientId, ids.clientOrderId)).1
    clientOrderId := (π (ids.clientId, ids.clientOrderId)).2 }

def MEClientResponse.rename (r : MEClientResponse) : MEClientResponse :=
  { r with
    clientId := (π (r.clientId, r.clientOrderId)).1
    clientOrderId := (π (r.clientId, r.clientOrderId)).2 }

/-- A market update names no client. -/
def Event.rename : Event → Event
  | .response r => .response (r.rename π)
  | .update u => .update u

def Aggressor.rename (a : Aggressor) : Aggressor :=
  { a with
    clientId := (π (a.clientId, a.clientOrderId)).1
    clientOrderId := (π (a.clientId, a.clientOrderId)).2 }

namespace BookCall

def name : BookCall → OrderName
  | .add clientId clientOrderId .. => (clientId, clientOrderId)
  | .cancel clientId orderId _ => (clientId, orderId)

/-- All names that a sequence of calls uses. -/
def names (calls : List BookCall) : Set OrderName := {k | ∃ call ∈ calls, call.name = k}

def rename : BookCall → BookCall
  | .add clientId clientOrderId tickerId side price qty =>
    .add (π (clientId, clientOrderId)).1 (π (clientId, clientOrderId)).2 tickerId side price qty
  | .cancel clientId orderId tickerId =>
    .cancel (π (clientId, orderId)).1 (π (clientId, orderId)).2 tickerId

end BookCall

lemma updates_rename (es : List Event) : updates (es.map (Event.rename π)) = updates es := by
  induction es with
  | nil => rfl
  | cons e es ih =>
    cases e with
    | response r => exact ih
    | update u => exact congrArg (u :: ·) ih

lemma responses_rename (es : List Event) :
    responses (es.map (Event.rename π)) = (responses es).map (MEClientResponse.rename π) := by
  induction es with
  | nil => rfl
  | cons e es ih =>
    cases e with
    | response r => exact congrArg (r.rename π :: ·) ih
    | update u => exact ih

end Rename

/-- Every pair of `S` has a pair of its own inside the tables. -/
structure Renaming (π : OrderName → OrderName) (S : Set OrderName) : Prop where
  injOn : S.InjOn π
  inRange : ∀ k ∈ S, OrderKey.inTable MEOrderIds (π k)

namespace PriceBook
variable {π : OrderName → OrderName} {S : Set OrderName}
  {b b' : PriceBook MEOrderIds OrderName} {c c' : PriceBook MEOrderIds OrderName}

/-- The order carries a pair of `S` here and its new name there. -/
def NamedBy (π : OrderName → OrderName) (S : Set OrderName) (b c : PriceBook MEOrderIds OrderName)
    (o : Nat) : Prop :=
  OrderKey.key (b.order o).ids ∈ S ∧ (c.order o).ids = (b.order o).ids.rename π

/-- `c` is `b` with the pairs of `S` renamed. -/
structure Masked (π : OrderName → OrderName) (S : Set OrderName)
    (b c : PriceBook MEOrderIds OrderName) : Prop where
  skeleton : c.skeleton = b.skeleton
  named : b.OrdersIn (NamedBy π S b c)
  table : ∀ k ∈ S, c.orderTable (π k) = b.orderTable k
  inTable : ∀ k o, b.orderTable k = some o → OrderKey.inTable MEOrderIds k = true

lemma NamedBy.congr {o : Nat} (h : NamedBy π S b c o) (hb : (b'.order o).ids = (b.order o).ids)
    (hc : (c'.order o).ids = (c.order o).ids) : NamedBy π S b' c' o := by
  unfold NamedBy
  rw [hb, hc]
  exact h

lemma NamedBy.key {o : Nat} (h : NamedBy π S b c o) :
    OrderKey.key (c.order o).ids = π (OrderKey.key (b.order o).ids) := by
  rw [h.2]
  rfl

lemma Masked.setQty (h : Masked π S b c) (o : Nat) (qty : Qty) : Masked π S (b.setQty o qty) (c.setQty o qty) where
  skeleton := by rw [skeleton_setQty, skeleton_setQty, h.skeleton]
  named := (h.named.setQty o qty).mono fun p hp => hp.congr (ids_modifyOrder _ _ _ fun _ => rfl)
    (ids_modifyOrder _ _ _ fun _ => rfl)
  table := h.table
  inTable := h.inTable

/-- A removal clears the entry of the order in both books. -/
lemma Masked.removeOrder (hπ : Renaming π S) (h : Masked π S b c) {o : Nat} (ho : NamedBy π S b c o) :
    Follows (Masked π S) (b.removeOrder o) (c.removeOrder o) := by
  intro b' hb'
  have hnamed := h.named.removeOrder hb'
  have hf := removeOrder_frame hb'
  obtain ⟨b₁, pool, hb₁, hpool, rfl⟩ := removeOrder_ok hb'
  obtain ⟨c₁, hc₁, h₁⟩ := follows_unlinkOrder h.skeleton o b₁ hb₁
  have hsame := (unlinkOrder_frame hc₁).1
  obtain ⟨pool', hpool', h₂⟩ := follows_deallocate h₁ o pool hpool
  have hkey := ho.key
  have hrun : c.removeOrder o = .ok ((c₁.setKey (OrderKey.key (c.order o).ids) none).setOrderPool pool') := by
    have hin : OrderKey.inTable MEOrderIds (OrderKey.key (c.order o).ids) = true := by
      rw [hkey]
      exact hπ.inRange _ ho.1
    unfold PriceBook.removeOrder
    rw [hc₁, ok_bind, hsame.ids, setOrderTable, if_pos hin, ok_bind, orderPool_setKey, hpool', ok_bind, pure_eq_ok]
  refine ⟨_, hrun, ?_⟩
  have hf' := removeOrder_frame hrun
  refine ⟨h₂, hnamed.mono fun p hp => ?_, fun k hk => ?_, fun k q hq => ?_⟩
  · exact hp.congr (BookOrder.unlinked_eq_iff.mp (hf.order p)).1 (BookOrder.unlinked_eq_iff.mp (hf'.order p)).1
  · rw [hf.table, hf'.table, hkey, Function.update_apply, Function.update_apply, h.table k hk]
    simp only [hπ.injOn.eq_iff hk ho.1]
  · rw [hf.table, Function.update_apply] at hq
    split at hq
    · cases hq
    · exact h.inTable k q hq

/-- A new order is entered under its name in both books. -/
lemma Masked.addOrder (hπ : Renaming π S) (h : Masked π S b c) {obj obj' : MEOrder}
    (hobj : obj'.skeleton = obj.skeleton) (hids : obj'.ids = obj.ids.rename π)
    (hkey : OrderKey.key obj.ids ∈ S) (hnext : obj.nextOrder = none) (hprev : obj.prevOrder = none)
    {pool : MemPool MEOrder} {o : Nat} (halloc : b.orderPool.allocate obj = .ok (pool, o)) :
    ∃ pool', c.orderPool.allocate obj' = .ok (pool', o) ∧
      Follows (Masked π S) ((b.setOrderPool pool).addOrder o) ((c.setOrderPool pool').addOrder o) := by
  obtain ⟨⟨pool', o'⟩, halloc', heq, h₁⟩ := follows_allocate h.skeleton hobj (pool, o) halloc
  obtain rfl : o' = o := heq
  refine ⟨pool', halloc', fun b' hb' => ?_⟩
  have hfresh : NamedBy π S (b.setOrderPool pool) (c.setOrderPool pool') o' ∧
      ∀ p, NamedBy π S b c p → NamedBy π S (b.setOrderPool pool) (c.setOrderPool pool') p := by
    simp only [NamedBy, order_setOrderPool, MemPool.object_allocate halloc, MemPool.object_allocate halloc']
    refine ⟨by simpa using ⟨hkey, hids⟩, fun p hp => ?_⟩
    split
    · exact ⟨hkey, hids⟩
    · exact hp
  have hin := addOrder_inTable hb'
  obtain ⟨b₁, hb₁, rfl⟩ := addOrder_ok hb'
  obtain ⟨c₁, hc₁, h₂⟩ := follows_linkOrder h₁ o' b₁ hb₁
  have hsame := linkOrder_frame hb₁
  have hsame' := linkOrder_frame hc₁
  have hkey' := hfresh.1.key
  have hrun : (c.setOrderPool pool').addOrder o' =
      .ok (c₁.setKey (OrderKey.key ((c.setOrderPool pool').order o').ids) (some o')) := by
    have hin : OrderKey.inTable MEOrderIds (OrderKey.key ((c.setOrderPool pool').order o').ids) = true := by
      rw [hkey']
      exact hπ.inRange _ hfresh.1.1
    unfold PriceBook.addOrder
    rw [hc₁, ok_bind, hsame'.ids, setOrderTable, if_pos hin]
  refine ⟨_, hrun, h₂, ?_, fun k hk => ?_, fun k q hq => ?_⟩
  · have hnamed := ((h.named.mono hfresh.2).takeOrder hnext hprev halloc).addOrder hfresh.1 hb'
    exact hnamed.mono fun p hp => hp.congr (hsame.ids p) (hsame'.ids p)
  · rw [table_setKey, table_setKey, hkey', Function.update_apply, Function.update_apply]
    simp only [hπ.injOn.eq_iff hk hfresh.1.1, hsame.table, hsame'.table]
    exact ite_congr rfl (fun _ => rfl) fun _ => h.table k hk
  · rw [table_setKey, Function.update_apply, hsame.table] at hq
    split at hq
    · rename_i heq
      rw [heq]
      exact hin
    · exact h.inTable k q hq

end PriceBook

namespace MEOrderBook
variable {π : OrderName → OrderName} {S : Set OrderName} {b b' c c' : MEOrderBook}

/-- The second run of a book, under other names. -/
structure Masked (π : OrderName → OrderName) (S : Set OrderName) (b c : MEOrderBook) : Prop where
  tickerId : c.tickerId = b.tickerId
  nextMarketOrderId : c.nextMarketOrderId = b.nextMarketOrderId
  book : b.book.Masked π S c.book

lemma masked_create (tickerId : TickerId) : Masked π S (create tickerId) (create tickerId) where
  tickerId := rfl
  nextMarketOrderId := rfl
  book := ⟨rfl, ⟨nofun, nofun, nofun, nofun⟩, fun _ _ => rfl, nofun⟩

/-- A result and the result of the second run. -/
def SameRound (π : OrderName → OrderName) (S : Set OrderName) (r r' : MEOrderBook × Qty × List Event) : Prop :=
  r.1.Masked π S r'.1 ∧ r'.2.1 = r.2.1 ∧ r'.2.2 = r.2.2.map (Event.rename π)

section Same
variable (h : b.Masked π S c)
include h

lemma Masked.level (p : Nat) : c.book.level p = b.book.level p :=
  congrArg (fun d : PriceBook Unit Unit => d.level p) h.book.skeleton

lemma Masked.order (o : Nat) : (c.book.order o).skeleton = (b.book.order o).skeleton :=
  congrArg (fun d : PriceBook Unit Unit => d.order o) h.book.skeleton

lemma Masked.top (s : Side) : c.book.top s = b.book.top s :=
  congrArg (fun d : PriceBook Unit Unit => d.top s) h.book.skeleton

lemma Masked.getOrdersAtPrice (price : Price) : c.book.getOrdersAtPrice price = b.book.getOrdersAtPrice price :=
  congrArg (fun d : PriceBook Unit Unit => d.getOrdersAtPrice price) h.book.skeleton

lemma Masked.getNextPriority (price : Price) : c.getNextPriority price = b.getNextPriority price := by
  have hprev : ∀ o, (c.book.order o).prevOrder = (b.book.order o).prevOrder := fun o =>
    congrArg (fun x : BookOrder Unit => x.prevOrder) (h.order o)
  have hpriority : ∀ o, (c.book.order o).priority = (b.book.order o).priority := fun o =>
    congrArg (fun x : BookOrder Unit => x.priority) (h.order o)
  simp only [MEOrderBook.getNextPriority, h.getOrdersAtPrice, h.level, hprev, hpriority]

lemma Masked.order_eq {o : Nat} (ho : PriceBook.NamedBy π S b.book c.book o) :
    c.book.order o = { b.book.order o with ids := (b.book.order o).ids.rename π } := by
  have hskeleton := h.order o
  have hids := ho.2
  generalize c.book.order o = x at hskeleton hids ⊢
  generalize b.book.order o = y at hskeleton hids ⊢
  cases x
  cases y
  simp only [BookOrder.skeleton, BookOrder.mk.injEq] at hskeleton hids ⊢
  tauto

/-- A fill reports the passive order under its name. -/
lemma Masked.fill {itr : Nat} (hitr : PriceBook.NamedBy π S b.book c.book itr) (a : Aggressor) (leavesQty : Qty) :
    ((a.rename π).fill (c.book.order itr) leavesQty).events =
      (a.fill (b.book.order itr) leavesQty).events.map (Event.rename π) := by
  rw [h.order_eq hitr]
  rfl

lemma Masked.setQty (o : Nat) (qty : Qty) :
    Masked π S { b with book := b.book.setQty o qty } { c with book := c.book.setQty o qty } where
  tickerId := h.tickerId
  nextMarketOrderId := h.nextMarketOrderId
  book := h.book.setQty o qty

lemma Masked.matchOrder (hπ : Renaming π S) {itr : Nat} (hitr : PriceBook.NamedBy π S b.book c.book itr)
    (a : Aggressor) (leavesQty : Qty) :
    Follows (SameRound π S)
      (b.matchOrder a.tickerId a.clientId a.side a.clientOrderId a.newMarketOrderId itr leavesQty)
      (c.matchOrder a.tickerId (a.rename π).clientId a.side (a.rename π).clientOrderId a.newMarketOrderId itr
        leavesQty) := by
  have hqty : (c.book.order itr).qty = (b.book.order itr).qty :=
    congrArg (fun x : BookOrder Unit => x.qty) (h.order itr)
  have hevents := h.fill hitr a leavesQty
  rcases Nat.lt_or_ge leavesQty (b.book.order itr).qty with hlt | hle
  · have hlt' : leavesQty < (c.book.order itr).qty := hqty.symm ▸ hlt
    rw [matchOrder_remainder a hlt]
    intro r hr
    cases hr
    exact ⟨_, matchOrder_remainder (a.rename π) hlt', by rw [hqty]; exact h.setQty itr _, rfl, hevents⟩
  · have hle' : leavesQty ≥ (c.book.order itr).qty := hqty.symm ▸ hle
    have hfull := matchOrder_full (a.rename π) hle'
    rw [matchOrder_full a hle]
    apply Eq.subst (motive := fun y => Follows (SameRound π S) _ y) hfull.symm
    have hset : PriceBook.NamedBy π S (b.book.setQty itr 0) (c.book.setQty itr 0) itr :=
      hitr.congr (PriceBook.ids_modifyOrder _ _ _ fun _ => rfl) (PriceBook.ids_modifyOrder _ _ _ fun _ => rfl)
    refine ((h.book.setQty itr 0).removeOrder hπ hset).bind fun book book' _ hbook => follows_pure ?_
    exact ⟨⟨h.tickerId, h.nextMarketOrderId, hbook⟩, by rw [hqty], hevents⟩

end Same

lemma Masked.checkForMatchLoop (hπ : Renaming π S) (a : Aggressor) (fuel : Nat) (h : b.Masked π S c)
    (leavesQty : Qty) :
    Follows (SameRound π S)
      (checkForMatchLoop a.tickerId a.clientId a.side a.price a.clientOrderId a.newMarketOrderId fuel b leavesQty)
      (checkForMatchLoop a.tickerId (a.rename π).clientId a.side a.price (a.rename π).clientOrderId
        a.newMarketOrderId fuel c leavesQty) := by
  induction fuel generalizing b c leavesQty with
  | zero =>
    intro r hr
    cases hr
  | succ fuel ih =>
    have hdone : SameRound π S (b, leavesQty, []) (c, leavesQty, []) := ⟨h, rfl, rfl⟩
    simp only [MEOrderBook.checkForMatchLoop, h.top, h.level]
    apply Follows.ite Iff.rfl
    · exact fun _ => follows_pure hdone
    intro _
    cases b.book.top a.side.opposite with
    | none => exact follows_pure hdone
    | some lvl =>
      have hprice : ∀ o, (c.book.order o).price = (b.book.order o).price := fun o =>
        congrArg (fun x : BookOrder Unit => x.price) (h.order o)
      dsimp only
      refine Follows.bind (R := Eq) (fun p hp => ⟨p, hp, rfl⟩) fun itr itr' hitr heq => ?_
      subst heq
      have hnamed := h.book.named.first lvl itr (deref_eq_ok hitr)
      rw [hprice]
      apply Follows.ite Iff.rfl
      · exact fun _ => follows_pure hdone
      intro _
      apply (h.matchOrder hπ hnamed a leavesQty).bind
      intro r r' _ hr
      rw [hr.2.1]
      refine (ih hr.1 r.2.1).bind fun s s' _ hs => follows_pure ⟨hs.1, hs.2.1, ?_⟩
      rw [List.map_append, hr.2.2, hs.2.2]

lemma Masked.checkForMatch (hπ : Renaming π S) (a : Aggressor) (h : b.Masked π S c) (qty : Qty) :
    Follows (SameRound π S)
      (b.checkForMatch a.tickerId a.clientId a.side a.price a.clientOrderId a.newMarketOrderId qty)
      (c.checkForMatch a.tickerId (a.rename π).clientId a.side a.price (a.rename π).clientOrderId
        a.newMarketOrderId qty) := by
  have hsize : c.book.orderPool.size = b.book.orderPool.size :=
    congrArg (fun d : PriceBook Unit Unit => d.orderPool.size) h.book.skeleton
  simp only [MEOrderBook.checkForMatch, hsize]
  apply Follows.ite Iff.rfl
  · exact fun _ => h.checkForMatchLoop hπ a _ qty
  · exact fun _ => follows_pure ⟨h, rfl, rfl⟩

/-- The books and messages after a call of either run. -/
def SameCall (π : OrderName → OrderName) (S : Set OrderName) (r r' : MEOrderBook × List Event) : Prop :=
  r.1.Masked π S r'.1 ∧ r'.2 = r.2.map (Event.rename π)

lemma Masked.restOrder (hπ : Renaming π S) (a : Aggressor) (ha : (a.clientId, a.clientOrderId) ∈ S)
    (h : b.Masked π S c) (marketOrderId : OrderId) (leavesQty : Qty) :
    Follows (SameCall π S)
      (b.restOrder a.clientId a.clientOrderId a.tickerId a.side a.price marketOrderId leavesQty)
      (c.restOrder (a.rename π).clientId (a.rename π).clientOrderId a.tickerId a.side a.price marketOrderId
        leavesQty) := by
  simp only [MEOrderBook.restOrder, h.getNextPriority]
  refine Follows.bind (R := Eq) (fun p hp => ⟨p, hp, rfl⟩) fun priority priority' _ heq => ?_
  subst heq
  intro r hr
  obtain ⟨⟨pool, o⟩, halloc, hr⟩ := bind_eq_ok hr
  obtain ⟨book, hbook, hr⟩ := bind_eq_ok hr
  cases hr
  have hskeleton : ((a.rename π).resting marketOrderId leavesQty priority).skeleton =
      (a.resting marketOrderId leavesQty priority).skeleton := rfl
  have hids : ((a.rename π).resting marketOrderId leavesQty priority).ids =
      (a.resting marketOrderId leavesQty priority).ids.rename π := rfl
  obtain ⟨pool', halloc', hadd⟩ := h.book.addOrder hπ hskeleton hids ha rfl rfl halloc
  obtain ⟨book', hbook', hmasked⟩ := hadd book hbook
  have hrun : (c.book.orderPool.allocate ((a.rename π).resting marketOrderId leavesQty priority) >>= fun r =>
      (c.book.setOrderPool r.1).addOrder r.2 >>= fun book =>
        pure ({ c with book := book }, [rested a marketOrderId leavesQty priority])) =
      .ok ({ c with book := book' }, [rested a marketOrderId leavesQty priority]) := by
    rw [halloc', ok_bind, hbook', ok_bind, pure_eq_ok]
  exact ⟨_, hrun, ⟨h.tickerId, h.nextMarketOrderId, hmasked⟩, rfl⟩

lemma Masked.lookupOrder (hπ : Renaming π S) (h : b.Masked π S c) {k : OrderName} (hk : k ∈ S) :
    Follows Eq (b.lookupOrder k.1 k.2) (c.lookupOrder (π k).1 (π k).2) := by
  have hin := hπ.inRange k hk
  obtain ⟨hclient, horder⟩ : (π k).1 < ME_MAX_NUM_CLIENTS ∧ (π k).2 < ME_MAX_ORDER_IDS := by
    simpa [OrderKey.inTable] using hin
  have hrun : c.lookupOrder (π k).1 (π k).2 = .ok (b.book.orderTable k) := by
    rw [MEOrderBook.lookupOrder, if_pos hclient, if_pos horder, pure_eq_ok]
    exact congrArg Except.ok (h.book.table k hk)
  intro found hfound
  refine ⟨_, hrun, ?_⟩
  simp only [MEOrderBook.lookupOrder] at hfound
  split at hfound
  · split at hfound
    · exact (Except.ok.inj hfound).symm
    · cases hfound
  · rename_i hout
    cases hfound
    cases htable : b.book.orderTable k with
    | none => rfl
    | some o =>
      -- only pairs of the table have entries
      have hk' := h.book.inTable k o htable
      simp only [OrderKey.inTable, Bool.and_eq_true, decide_eq_true_eq] at hk'
      exact absurd hk'.1 hout

lemma Masked.drawn (h : b.Masked π S c) : b.drawn.Masked π S c.drawn where
  tickerId := h.tickerId
  nextMarketOrderId := congrArg (fun n => wrap64 (n + 1)) h.nextMarketOrderId
  book := h.book

/-- A call under other names does the same to the book and sends the same under these names. -/
theorem Masked.call (hπ : Renaming π S) (h : b.Masked π S c) {call : BookCall} (hcall : call.name ∈ S) :
    Follows (SameCall π S) (b.call call) (c.call (call.rename π)) := by
  cases call with
  | add clientId clientOrderId tickerId side price qty =>
    let a := addAggressor clientId clientOrderId tickerId side price qty
    have hnext : c.generateNewMarketOrderId.1 = b.generateNewMarketOrderId.1 := h.nextMarketOrderId
    simp only [MEOrderBook.call, BookCall.rename, MEOrderBook.add, hnext]
    apply Follows.bind (h.drawn.checkForMatch hπ a _)
    intro r r' _ hr
    rw [hr.2.1]
    apply Follows.ite Iff.rfl
    · intro _
      refine follows_pure ⟨hr.1, ?_⟩
      rw [hr.2.2]
      rfl
    · intro _
      refine Follows.bind (hr.1.restOrder hπ a hcall _ _) fun s s' _ hs => follows_pure ⟨hs.1, ?_⟩
      rw [hr.2.2, hs.2]
      simp only [List.map_cons, List.map_append]
      rfl
  | cancel clientId orderId tickerId =>
    simp only [MEOrderBook.call, BookCall.rename, MEOrderBook.cancel]
    apply (h.lookupOrder hπ hcall).bind
    intro found found' hfound heq
    subst heq
    cases found with
    | none => exact follows_pure ⟨h, rfl⟩
    | some o =>
      have ho := h.book.named.table _ o (lookupOrder_eq_some hfound)
      refine Follows.bind (h.book.removeOrder hπ ho) fun book book' _ hbook => follows_pure ?_
      refine ⟨⟨h.tickerId, h.nextMarketOrderId, hbook⟩, ?_⟩
      rw [h.order_eq ho]
      rfl

lemma Masked.execute (hπ : Renaming π S) (calls : List BookCall) (h : b.Masked π S c)
    (hcalls : ∀ call ∈ calls, call.name ∈ S) :
    Follows (SameCall π S) (execute MEOrderBook.call b calls)
      (execute MEOrderBook.call c (calls.map (BookCall.rename π))) := by
  induction calls generalizing b c with
  | nil => exact follows_pure ⟨h, rfl⟩
  | cons call calls ih =>
    rintro ⟨b₂, es⟩ hrun
    obtain ⟨b₁, es₁, es₂, hcall, hrest, rfl⟩ := execute_cons_ok hrun
    obtain ⟨⟨c₁, es₁'⟩, hcall', h₁, heq₁⟩ := h.call hπ (hcalls call List.mem_cons_self) (b₁, es₁) hcall
    have hcalls' : ∀ x ∈ calls, x.name ∈ S := fun x hx => hcalls x (List.mem_cons_of_mem call hx)
    obtain ⟨⟨c₂, es₂'⟩, hrest', h₂, heq₂⟩ := ih h₁ hcalls' (b₂, es₂) hrest
    have heq₁ : es₁' = es₁.map (Event.rename π) := heq₁
    have heq₂ : es₂' = es₂.map (Event.rename π) := heq₂
    refine ⟨_, execute_cons hcall' hrest', h₂, ?_⟩
    rw [heq₁, heq₂]
    exact List.map_append.symm

end MEOrderBook

lemma BookCall.name_rename (π : OrderName → OrderName) (call : BookCall) : (call.rename π).name = π call.name := by
  cases call <;> rfl

lemma BookCall.rename_rename {π σ : OrderName → OrderName} {call : BookCall} (h : σ (π call.name) = call.name) :
    (call.rename π).rename σ = call := by
  cases call with
  | add clientId clientOrderId tickerId side price qty =>
    simp only [BookCall.name] at h
    simp only [BookCall.rename, Prod.mk.eta, h]
  | cancel clientId orderId tickerId =>
    simp only [BookCall.name] at h
    simp only [BookCall.rename, Prod.mk.eta, h]

open MEOrderBook

/-- Back from the new names to the old ones. -/
lemma renaming_inverse {π : OrderName → OrderName} {calls : List BookCall}
    (hinj : (BookCall.names calls).InjOn π)
    (hin : ∀ call ∈ calls, OrderKey.inTable MEOrderIds call.name = true) :
    ∃ σ, Renaming σ (BookCall.names (calls.map (BookCall.rename π))) ∧
      (calls.map (BookCall.rename π)).map (BookCall.rename σ) = calls := by
  have hleft := hinj.leftInvOn_invFunOn
  refine ⟨Function.invFunOn π (BookCall.names calls), ⟨?_, ?_⟩, ?_⟩
  · rintro k ⟨x, hx, rfl⟩ l ⟨y, hy, rfl⟩ heq
    obtain ⟨call, hcall, rfl⟩ := List.mem_map.mp hx
    obtain ⟨call', hcall', rfl⟩ := List.mem_map.mp hy
    rw [BookCall.name_rename, BookCall.name_rename, hleft ⟨call, hcall, rfl⟩, hleft ⟨call', hcall', rfl⟩] at heq
    rw [BookCall.name_rename, BookCall.name_rename, heq]
  · rintro k ⟨x, hx, rfl⟩
    obtain ⟨call, hcall, rfl⟩ := List.mem_map.mp hx
    rw [BookCall.name_rename, hleft ⟨call, hcall, rfl⟩]
    exact hin call hcall
  · rw [List.map_map]
    conv_rhs => rw [← List.map_id calls]
    exact List.map_congr_left fun call hcall => BookCall.rename_rename (hleft ⟨call, hcall, rfl⟩)

/-- Two runs that differ in the names of the orders only: whenever the first one returns, so does
the second one. They publish the same updates, and the responses are the same but for the names.
Where the names of the first run are in range as well, neither run returns without the other. -/
theorem anonymous_feed (π : OrderName → OrderName) (tickerId : TickerId) (calls : List BookCall)
    (hinj : (BookCall.names calls).InjOn π)
    (hrange : ∀ call ∈ calls, OrderKey.inTable MEOrderIds (π call.name) = true) :
    (∀ b es, execute MEOrderBook.call (create tickerId) calls = .ok (b, es) →
      ∃ c es', execute MEOrderBook.call (create tickerId) (calls.map (BookCall.rename π)) = .ok (c, es') ∧
        updates es' = updates es ∧ responses es' = (responses es).map (MEClientResponse.rename π)) ∧
    ((∀ call ∈ calls, OrderKey.inTable MEOrderIds call.name = true) →
      (∃ r, execute MEOrderBook.call (create tickerId) (calls.map (BookCall.rename π)) = .ok r) →
      ∃ r, execute MEOrderBook.call (create tickerId) calls = .ok r) := by
  have hrenaming : Renaming π (BookCall.names calls) := by
    refine ⟨hinj, ?_⟩
    rintro k ⟨call, hcall, rfl⟩
    exact hrange call hcall
  constructor
  · intro b es hrun
    obtain ⟨⟨c, es'⟩, hrun', -, heq⟩ := (masked_create tickerId).execute hrenaming calls
      (fun call hcall => ⟨call, hcall, rfl⟩) (b, es) hrun
    have heq : es' = es.map (Event.rename π) := heq
    refine ⟨c, es', hrun', ?_, ?_⟩
    · rw [heq, updates_rename]
    · rw [heq, responses_rename]
  · rintro hin ⟨⟨c, es'⟩, hrun'⟩
    obtain ⟨σ, hσ, hback⟩ := renaming_inverse hinj hin
    obtain ⟨r, hrun, -⟩ := (masked_create tickerId).execute hσ (calls.map (BookCall.rename π))
      (fun call hcall => ⟨call, hcall, rfl⟩) (c, es') hrun'
    rw [hback] at hrun
    exact ⟨r, hrun⟩

/-- Two clients trade, and two others under the same order ids. -/
theorem anonymous_feed_shift :
    ∃ c es', execute MEOrderBook.call (create 0) [.add 4 1 0 .buy 100 10, .add 5 1 0 .sell 100 10] =
      .ok (c, es') ∧ updates es' = [⟨.add, 1, 0, .buy, 100, 1, 1⟩, ⟨.trade, OrderId_INVALID, 0, .sell, 100, 1,
        Priority_INVALID⟩, ⟨.cancel, 1, 0, .buy, 100, 1, Priority_INVALID⟩, ⟨.add, 2, 0, .sell, 100, 1, 1⟩] := by
  have hinj : (BookCall.names [.add 1 1 0 .buy 100 10, .add 2 1 0 .sell 100 10]).InjOn
      (fun k => (k.1 + 3, k.2)) := by
    intro k _ l _ hkl
    simpa [Prod.ext_iff] using hkl
  obtain ⟨c, es', hrun, hupdates, -⟩ := (anonymous_feed (fun k => (k.1 + 3, k.2)) 0
    [.add 1 1 0 .buy 100 10, .add 2 1 0 .sell 100 10] hinj (by decide)).1 _ _ rfl
  exact ⟨c, es', hrun, hupdates⟩

end LowLatencyExchange
