import LowLatencyExchange.Exchange.TCPServer
import LowLatencyExchange.Library.Arrangement
import Mathlib.Data.Int.Order.Basic

/-!
# Fair sequencing

A round writes its requests by the receive times of their reads. All records of a read share a time,
and `std::sort` may put those in any order.
-/

namespace LowLatencyExchange
open LoggedRun Arrangement

/-- The requests passed on in a round, each with the time of its read. -/
def acceptedRequests (handled : List (Nanos × HandledRecord)) : List RecvTimeClientRequest :=
  handled.filterMap fun x => x.2.passed.map fun r => ⟨x.1, r⟩

def RecvTimeClientRequest.clientId (r : RecvTimeClientRequest) : ClientId := r.request.clientId

/-- What is written is an arrangement by receive time that keeps each client's requests in order. -/
def Fair (requests : List RecvTimeClientRequest) (written : List MEClientRequest) : Prop :=
  ∃ sorted, written = sorted.map RecvTimeClientRequest.request ∧ Arranged RecvTimeClientRequest.recvTime requests sorted ∧
    KeepsOrder RecvTimeClientRequest.clientId requests sorted

lemma acceptedRequests_append (handled handled' : List (Nanos × HandledRecord)) :
    acceptedRequests (handled ++ handled') = acceptedRequests handled ++ acceptedRequests handled' := List.filterMap_append

lemma StdSort.arranged (std : StdSort) (requests : List RecvTimeClientRequest) :
    Arranged RecvTimeClientRequest.recvTime requests (std.sort requests) := ⟨std.perm requests, std.sorted requests⟩

/-- One of the sorts `std::sort` may be makes any arrangement out of a list. -/
def StdSort.choosing (requests : List RecvTimeClientRequest) {chosen : List RecvTimeClientRequest}
    (h : Arranged RecvTimeClientRequest.recvTime requests chosen) : StdSort where
  sort xs := if xs = requests then chosen else StdSort.merge.sort xs
  perm := fun xs => by
    split
    · rename_i hxs
      exact hxs ▸ h.perm
    · exact StdSort.merge.perm xs
  sorted := fun xs => by
    split
    · exact h.ordered
    · exact StdSort.merge.sorted xs

/-- The sequencer has collected these requests and published none. -/
structure FIFOSequencer.Collects (requests : List RecvTimeClientRequest) (s : FIFOSequencer) : Prop where
  size : s.pendingSize ≤ s.pendingClientRequests.length
  pending : s.pendingClientRequests.take s.pendingSize = requests

namespace OrderServer
variable {std std' : StdSort} {log : Log} {s s' : OrderServer FIFOSequencer} {socket : Nat}
  {requests : List RecvTimeClientRequest}

/-- Nothing is sorted before the publication. -/
lemma recvRecords_sort (std std' : StdSort) (rxTime : Nanos) (records : List (List UInt8)) (s : OrderServer FIFOSequencer) :
    recvRecords (FIFOSequencer.sequencer std) log socket rxTime records s =
      recvRecords (FIFOSequencer.sequencer std') log socket rxTime records s := by
  induction records generalizing s with
  | nil => rfl
  | cons record records ih =>
    have hrecord : s.recvRecord (FIFOSequencer.sequencer std) log socket rxTime record =
        s.recvRecord (FIFOSequencer.sequencer std') log socket rxTime record := rfl
    simp only [recvRecords, hrecord, ih]

lemma sendAndRecv_sort (std std' : StdSort) (s : OrderServer FIFOSequencer) (socket : Nat) (data : List UInt8)
    (kernelTime userTime : Nanos) : s.sendAndRecv (FIFOSequencer.sequencer std) log socket data kernelTime userTime =
      s.sendAndRecv (FIFOSequencer.sequencer std') log socket data kernelTime userTime := by
  simp only [OrderServer.sendAndRecv, recvCallback, recvRecords_sort std std']

/-- A read adds the requests it passes on, under its time. -/
lemma collects_sendAndRecv (h : s.fifoSequencer.Collects requests) {data : List UInt8} {kernelTime userTime : Nanos}
    {handled : List HandledRecord}
    (hrun : s.sendAndRecv (FIFOSequencer.sequencer std) log socket data kernelTime userTime = .ok (s', handled)) :
    s'.fifoSequencer.Collects (requests ++ acceptedRequests (handled.map (kernelTime, ·))) := by
  unfold OrderServer.sendAndRecv at hrun
  split at hrun
  · cases hrun
    rwa [List.map_nil, acceptedRequests, List.filterMap_nil, List.append_nil]
  · obtain ⟨_, -, hrun⟩ := bind_eq_ok hrun
    obtain ⟨s₁, hrecords, rfl⟩ := recvCallback_cases hrun
    have hstep : ∀ hs (s : OrderServer FIFOSequencer) x s',
        s.fifoSequencer.Collects (requests ++ acceptedRequests (hs.map (kernelTime, ·))) →
        Handles (FIFOSequencer.sequencer std) s socket kernelTime x s' →
        s'.fifoSequencer.Collects (requests ++ acceptedRequests ((hs ++ [x]).map (kernelTime, ·))) := by
      intro hs s x s' hcollects hhandles
      rw [List.map_append, acceptedRequests_append, ← List.append_assoc]
      rcases hhandles.result with ⟨hnone, -, hsame⟩ | ⟨hsome, -, -, -, hadd⟩
      · rw [hsame]
        simpa [acceptedRequests, hnone] using hcollects
      · obtain ⟨hlt, hsize, hlength, htake⟩ :=
          FIFOSequencer.addClientRequest_cases (r := ⟨kernelTime, x.request.meClientRequest⟩) hadd
        refine ⟨by omega, ?_⟩
        rw [htake, hcollects.pending]
        simp [acceptedRequests, hsome]
    have hinit : s.fifoSequencer.Collects
        (requests ++ acceptedRequests (([] : List HandledRecord).map (kernelTime, ·))) := by
      rwa [List.map_nil, acceptedRequests, List.filterMap_nil, List.append_nil]
    have hrule := recvRecords_rule
      (P := fun hs s => s.fifoSequencer.Collects (requests ++ acceptedRequests (hs.map (kernelTime, ·)))) hstep hinit
      hrecords
    exact hrule.1

end OrderServer

namespace TCPServer
variable {std std' : StdSort} {log : Log} {s s' : OrderServer FIFOSequencer} {round : List Arrival}
  {requests : List RecvTimeClientRequest} {handled : List (Nanos × HandledRecord)}

lemma receive_sort (std std' : StdSort) (round : List Arrival) (s : OrderServer FIFOSequencer) :
    receive (FIFOSequencer.sequencer std) log round s = receive (FIFOSequencer.sequencer std') log round s := by
  induction round generalizing s with
  | nil => rfl
  | cons a round ih => simp only [receive, OrderServer.sendAndRecv_sort std std', ih]

lemma collects_receive (h : s.fifoSequencer.Collects requests)
    (hrun : receive (FIFOSequencer.sequencer std) log round s = .ok (s', handled)) :
    s'.fifoSequencer.Collects (requests ++ acceptedRequests handled) := by
  induction round generalizing s requests handled with
  | nil =>
    cases hrun
    rwa [acceptedRequests, List.filterMap_nil, List.append_nil]
  | cons a round ih =>
    obtain ⟨⟨s₁, first⟩, hread, hrun⟩ := bind_eq_ok hrun
    obtain ⟨⟨s₂, rest⟩, hrest, hrun⟩ := bind_eq_ok hrun
    cases hrun
    have hall := ih (OrderServer.collects_sendAndRecv h hread) hrest
    rwa [acceptedRequests_append, ← List.append_assoc]

/-- Where no socket has anything to read, nothing is handled. -/
lemma receive_idle (hidle : ∀ a ∈ round, a.data = [])
    (hrun : receive (FIFOSequencer.sequencer std) log round s = .ok (s', handled)) : handled = [] := by
  induction round generalizing s handled with
  | nil =>
    cases hrun
    rfl
  | cons a round ih =>
    obtain ⟨⟨s₁, first⟩, hread, hrun⟩ := bind_eq_ok hrun
    obtain ⟨⟨s₂, rest⟩, hrest, hrun⟩ := bind_eq_ok hrun
    cases hrun
    rw [OrderServer.sendAndRecv, if_pos (hidle a List.mem_cons_self)] at hread
    cases hread
    exact ih (fun x hx => hidle x (List.mem_cons_of_mem a hx)) hrest

/-- A round with a fresh sequencer writes what the sort makes of the accepted requests. -/
lemma sendAndRecv_eq (hfresh : s.fifoSequencer = {})
    (hrun : receive (FIFOSequencer.sequencer std') log round s = .ok (s', handled)) (std : StdSort) :
    ∃ s'', sendAndRecv (FIFOSequencer.sequencer std) log s round =
      .ok (s'', (std.sort (acceptedRequests handled)).map RecvTimeClientRequest.request) := by
  have hcollects : s.fifoSequencer.Collects [] := by
    rw [hfresh]
    exact ⟨Nat.zero_le _, rfl⟩
  have hall := collects_receive hcollects hrun
  rw [List.nil_append] at hall
  unfold sendAndRecv
  rw [receive_sort std std', hrun, ok_bind]
  dsimp only
  split
  · obtain ⟨q, hsequence, -⟩ := FIFOSequencer.sequenceAndPublish_eq std hall.size
    rw [hall.pending] at hsequence
    have hpublish : (FIFOSequencer.sequencer std).sequenceAndPublish s'.fifoSequencer =
        .ok (q, (std.sort (acceptedRequests handled)).map RecvTimeClientRequest.request) := hsequence
    refine ⟨{ s' with fifoSequencer := q }, ?_⟩
    rw [OrderServer.recvFinishedCallback, hpublish, ok_bind]
    rfl
  · rename_i hidle
    obtain rfl := receive_idle (by simpa using hidle) hrun
    have hnone : std.sort (acceptedRequests []) = [] := List.perm_nil.mp (std.perm [])
    exact ⟨s', by rw [hnone, List.map_nil, pure_eq_ok]⟩

end TCPServer

/-- Separated requests are written fairly by any sort. -/
lemma fair_sort {requests : List RecvTimeClientRequest}
    (h : Separated RecvTimeClientRequest.recvTime RecvTimeClientRequest.clientId requests) (std : StdSort) :
    Fair requests ((std.sort requests).map RecvTimeClientRequest.request) :=
  ⟨_, rfl, std.arranged requests, h.keepsOrder (std.arranged requests)⟩

/-- Requests that are not separated are written in another order by some sort. -/
lemma exists_unfair {requests : List RecvTimeClientRequest}
    (h : ¬Separated RecvTimeClientRequest.recvTime RecvTimeClientRequest.clientId requests) :
    ∃ std : StdSort, ¬Fair requests ((std.sort requests).map RecvTimeClientRequest.request) := by
  by_cases hmerge : Fair requests ((StdSort.merge.sort requests).map RecvTimeClientRequest.request)
  · obtain ⟨sorted, -, harranged, hkeeps⟩ := hmerge
    obtain ⟨before, x, between, y, after, howner, htime, hne, hsorted, hexchanged⟩ :=
      exists_exchange harranged hkeeps h
    refine ⟨.choosing requests hexchanged, ?_⟩
    rintro ⟨sorted', hwritten, -, hkeeps'⟩
    have hchosen : (StdSort.choosing requests hexchanged).sort requests = before ++ y :: between ++ x :: after := if_pos rfl
    -- the client's requests among those written are the same in both orders
    have hclient : ∀ xs : List RecvTimeClientRequest, KeepsOrder RecvTimeClientRequest.clientId requests xs →
        (xs.map RecvTimeClientRequest.request).filter (fun r => r.clientId = y.clientId) =
          (requests.filter fun r => r.clientId = y.clientId).map RecvTimeClientRequest.request := by
      intro xs hxs
      rw [← hxs y.clientId, List.filter_map]
      rfl
    have hsame := (hclient sorted' hkeeps').trans (hclient sorted hkeeps).symm
    rw [← hwritten, hchosen, hsorted] at hsame
    have hx : x.request.clientId = y.clientId := howner
    have hy : y.request.clientId = y.clientId := rfl
    have hrequest : y.request = x.request := by
      simp only [List.map_append, List.map_cons, List.filter_append, List.filter_cons, hx, hy, decide_true, if_true,
        List.append_assoc, List.append_cancel_left_eq, List.cons_append, List.cons.injEq] at hsame
      exact hsame.1
    cases x
    cases y
    exact hne (congrArg₂ RecvTimeClientRequest.mk htime hrequest.symm)
  · exact ⟨.merge, hmerge⟩

/-- Every sort writes a round's requests by their receive times, and every sort writes each client's in the order
of acceptance just when no two of them have the same time. -/
theorem fair_sequencer {std : StdSort} {log : Log} {s s' : OrderServer FIFOSequencer} {round : List Arrival}
    {handled : List (Nanos × HandledRecord)} (hfresh : s.fifoSequencer = {})
    (hround : TCPServer.receive (FIFOSequencer.sequencer std) log round s = .ok (s', handled)) :
    (∀ std, ∃ s'' sorted, TCPServer.sendAndRecv (FIFOSequencer.sequencer std) log s round =
        .ok (s'', sorted.map RecvTimeClientRequest.request) ∧
      Arranged RecvTimeClientRequest.recvTime (acceptedRequests handled) sorted) ∧
    ((∀ std, ∃ s'' written, TCPServer.sendAndRecv (FIFOSequencer.sequencer std) log s round = .ok (s'', written) ∧
        Fair (acceptedRequests handled) written) ↔
      Separated RecvTimeClientRequest.recvTime RecvTimeClientRequest.clientId (acceptedRequests handled)) := by
  have hwritten := TCPServer.sendAndRecv_eq hfresh hround
  refine ⟨fun std => ?_, fun hall => ?_, fun h std => ?_⟩
  · obtain ⟨s'', hrun⟩ := hwritten std
    exact ⟨s'', _, hrun, std.arranged _⟩
  · by_contra hnot
    obtain ⟨std, hunfair⟩ := exists_unfair hnot
    obtain ⟨s'', hrun⟩ := hwritten std
    obtain ⟨s₃, written, hrun', hfair⟩ := hall std
    rw [hrun] at hrun'
    cases hrun'
    exact hunfair hfair
  · obtain ⟨s'', hrun⟩ := hwritten std
    exact ⟨s'', _, hrun, fair_sort h std⟩

/-- An order and its cancel in one read. -/
def orderThenCancel : List Arrival := [{
  socket := 0
  data := numberedStream MEClientRequest.packed 1 [
    { type := .new, clientId := 3, tickerId := 0, orderId := 7, side := .buy, price := 100, qty := 10 },
    { type := .cancel, clientId := 3, tickerId := 0, orderId := 7 }]
  kernelTime := 10 }]

/-- Some sort writes the cancel first. -/
theorem fair_sequencer_fails : ∃ std s' handled s'' written,
    TCPServer.receive (FIFOSequencer.sequencer std) Logger.log orderThenCancel (.create {}) = .ok (s', handled) ∧
      TCPServer.sendAndRecv (FIFOSequencer.sequencer std) Logger.log (.create {}) orderThenCancel = .ok (s'', written) ∧
      ¬Fair (acceptedRequests handled) written := by
  have haccepted : ((TCPServer.receive (FIFOSequencer.sequencer .merge) Logger.log orderThenCancel
      (.create {})).toOption.map fun x => decide (Separated RecvTimeClientRequest.recvTime
        RecvTimeClientRequest.clientId (acceptedRequests x.2))) = some false := by decide +kernel
  cases hround : TCPServer.receive (FIFOSequencer.sequencer .merge) Logger.log orderThenCancel (.create {}) with
  | error e =>
    rw [hround] at haccepted
    cases haccepted
  | ok x =>
    rw [hround] at haccepted
    obtain ⟨std, hunfair⟩ := exists_unfair (of_decide_eq_false (Option.some.inj haccepted))
    obtain ⟨s'', hrun⟩ := TCPServer.sendAndRecv_eq rfl hround std
    exact ⟨std, x.1, x.2, s'', _, (TCPServer.receive_sort std .merge _ _).trans hround, hrun, hunfair⟩

/-- Two clients, whose reads have different times. -/
def twoSockets : List Arrival :=
  [{ socket := 0, data := numberedRecord 1 3, kernelTime := 10 },
    { socket := 1, data := numberedRecord 1 4, kernelTime := 9 }]

theorem fair_sequencer_twoSockets : ∃ s' handled,
    TCPServer.receive (FIFOSequencer.sequencer .merge) Logger.log twoSockets (.create {}) = .ok (s', handled) ∧
      ∀ std, ∃ s'' written, TCPServer.sendAndRecv (FIFOSequencer.sequencer std) Logger.log (.create {}) twoSockets =
        .ok (s'', written) ∧ Fair (acceptedRequests handled) written := by
  have haccepted : ((TCPServer.receive (FIFOSequencer.sequencer .merge) Logger.log twoSockets
      (.create {})).toOption.map fun x => decide (Separated RecvTimeClientRequest.recvTime
        RecvTimeClientRequest.clientId (acceptedRequests x.2))) = some true := by decide +kernel
  cases hround : TCPServer.receive (FIFOSequencer.sequencer .merge) Logger.log twoSockets (.create {}) with
  | error e =>
    rw [hround] at haccepted
    cases haccepted
  | ok x =>
    rw [hround] at haccepted
    have hseparated := of_decide_eq_true (Option.some.inj haccepted)
    exact ⟨x.1, x.2, rfl, (fair_sequencer rfl hround).2.mpr hseparated⟩

end LowLatencyExchange
