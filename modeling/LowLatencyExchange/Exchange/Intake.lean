import LowLatencyExchange.Exchange.Sessions

/-!
# What the order server gets through

Whether the receive callback returns can be told from the arrays before a read and the records that
it completes: their clients, the numbers they carry, and how many of them are passed on.
-/

namespace LowLatencyExchange
open ByteStream LoggedRun

/-- The client and the number of a record. -/
def recordClient (record : List UInt8) : ClientId :=
  (OMClientRequest.packed.decode record).meClientRequest.clientId

def recordSeqNum (record : List UInt8) : Nat := (OMClientRequest.packed.decode record).seqNum

namespace OrderServer

/-- The client has no socket yet, or this one. -/
def Owns {Q : Type} (s : OrderServer Q) (socket : Nat) (clientId : ClientId) : Prop :=
  s.cidTcpSocket clientId = none ∨ s.cidTcpSocket clientId = some socket

instance {Q : Type} (s : OrderServer Q) (socket : Nat) (clientId : ClientId) : Decidable (s.Owns socket clientId) :=
  inferInstanceAs (Decidable (_ ∨ _))

/-- The records that the callback gets through. A client's records on its own socket are numbered on
from what is expected, and there is a place for each in the sequencer. -/
structure RecordsFit (s : OrderServer FIFOSequencer) (socket : Nat) (records : List (List UInt8)) : Prop where
  client : ∀ record ∈ records, recordClient record < ME_MAX_NUM_CLIENTS
  numbered : ∀ past record later, records = past ++ record :: later → s.Owns socket (recordClient record) →
    recordSeqNum record = wrap64 (s.cidNextExpSeqNum (recordClient record) +
      (past.filter fun r => recordClient r = recordClient record).length)
  pending : s.fifoSequencer.pendingSize + (records.filter fun r => s.Owns socket (recordClient r)).length ≤
    ME_MAX_PENDING_REQUESTS

/-- A single record that the callback gets through. -/
def RecordFits (s : OrderServer FIFOSequencer) (socket : Nat) (record : List UInt8) : Prop :=
  recordClient record < ME_MAX_NUM_CLIENTS ∧ (s.Owns socket (recordClient record) →
    recordSeqNum record = s.cidNextExpSeqNum (recordClient record) ∧
    s.fifoSequencer.pendingSize < ME_MAX_PENDING_REQUESTS)

/-- What holds between two records. -/
structure Ready (s : OrderServer FIFOSequencer) : Prop where
  length : s.fifoSequencer.pendingClientRequests.length = ME_MAX_PENDING_REQUESTS
  size : s.fifoSequencer.pendingSize ≤ ME_MAX_PENDING_REQUESTS
  expected : ∀ c, wrap64 (s.cidNextExpSeqNum c) = s.cidNextExpSeqNum c

variable {std : StdSort} {s s' : OrderServer FIFOSequencer} {socket : Nat} {rxTime : Nanos} {record : List UInt8}

lemma owns_bindSocket (s : OrderServer FIFOSequencer) (socket : Nat) (clientId c : ClientId) :
    (s.bindSocket clientId socket).Owns socket c ↔ s.Owns socket c := by
  unfold Owns
  rw [cidTcpSocket_bindSocket]
  cases s.cidTcpSocket c with
  | none => by_cases hc : clientId = c <;> simp [hc]
  | some socket' => simp

lemma recvRecord_unknown (hclient : ¬recordClient record < ME_MAX_NUM_CLIENTS) :
    s.recvRecord (FIFOSequencer.sequencer std) Logger.log socket rxTime record = .error .outOfRange := by
  have hindex : clientIndex (recordClient record) = .error .outOfRange := if_neg hclient
  unfold recordClient at hindex
  simp only [recvRecord, hindex, logAt]
  rw [Logger.counts_log _ _ rfl, ok_bind, error_bind]

/-- A record of a client with another socket is dropped. -/
lemma recvRecord_other (hclient : recordClient record < ME_MAX_NUM_CLIENTS)
    (howns : ¬s.Owns socket (recordClient record)) :
    s.recvRecord (FIFOSequencer.sequencer std) Logger.log socket rxTime record = .ok (s, ⟨socket, record, none⟩) := by
  obtain ⟨hbound, hother⟩ := not_or.mp howns
  obtain ⟨expected, hexpected⟩ := Option.ne_none_iff_exists'.mp hbound
  have hindex : clientIndex (recordClient record) = .ok () := if_pos hclient
  have hsame : s.bindSocket (recordClient record) socket = s := if_neg hbound
  rw [hexpected] at hother
  unfold recordClient at hindex hsame hexpected
  simp only [recvRecord, hindex, hsame, ok_bind, hexpected, if_pos hother, deref_some, logAt]
  rw [Logger.counts_log _ _ rfl, ok_bind, Logger.counts_log _ _ rfl, ok_bind, pure_eq_ok]

/-- A record on its client's socket is passed on when it has the expected number. Its log call has an
argument too many otherwise. -/
lemma recvRecord_own (hclient : recordClient record < ME_MAX_NUM_CLIENTS) (howns : s.Owns socket (recordClient record)) :
    s.recvRecord (FIFOSequencer.sequencer std) Logger.log socket rxTime record =
      if recordSeqNum record ≠ s.cidNextExpSeqNum (recordClient record) then
        .error (.fatal "Extra args provided to log()")
      else (do
        let fifoSequencer ← s.fifoSequencer.addClientRequest rxTime (OMClientRequest.packed.decode record).meClientRequest
        pure ({ s.bindSocket (recordClient record) socket with
          cidNextExpSeqNum := Function.update s.cidNextExpSeqNum (recordClient record)
            (wrap64 (s.cidNextExpSeqNum (recordClient record) + 1))
          fifoSequencer := fifoSequencer },
          ⟨socket, record, some (OMClientRequest.packed.decode record).meClientRequest⟩)) := by
  have hindex : clientIndex (recordClient record) = .ok () := if_pos hclient
  have hbound : (s.bindSocket (recordClient record) socket).cidTcpSocket (recordClient record) = some socket := by
    rw [cidTcpSocket_bindSocket, if_pos rfl]
    rcases howns with hnone | hsome
    · rw [hnone, Option.none_or]
    · rw [hsome, Option.some_or]
  unfold recordSeqNum
  unfold recordClient at hindex hbound ⊢
  simp only [recvRecord, hindex, ok_bind, hbound, ne_eq, not_true_eq_false, if_false, logAt,
    cidNextExpSeqNum_bindSocket, fifoSequencer_bindSocket]
  rw [Logger.counts_log _ _ rfl, ok_bind]
  split
  · rw [Logger.log_extra, error_bind]
    exact Nat.lt_succ_self 6
  · rfl

/-- One record, and the arrays after it. -/
structure Received (s : OrderServer FIFOSequencer) (socket : Nat) (record : List UInt8)
    (s' : OrderServer FIFOSequencer) : Prop where
  owns : ∀ c, s'.Owns socket c ↔ s.Owns socket c
  expected : ∀ c, s'.cidNextExpSeqNum c =
    if s.Owns socket c ∧ c = recordClient record then wrap64 (s.cidNextExpSeqNum c + 1) else s.cidNextExpSeqNum c
  pending : s'.fifoSequencer.pendingSize =
    s.fifoSequencer.pendingSize + if s.Owns socket (recordClient record) then 1 else 0
  ready : s'.Ready

/-- The records that the server gets through, one at a time. -/
lemma recvRecord_returns (std : StdSort) (h : s.Ready) (rxTime : Nanos) :
    (s.RecordFits socket record ∧
      ∃ s' x, s.recvRecord (FIFOSequencer.sequencer std) Logger.log socket rxTime record = .ok (s', x) ∧
        Received s socket record s') ∨
    (¬s.RecordFits socket record ∧
      ∃ e, s.recvRecord (FIFOSequencer.sequencer std) Logger.log socket rxTime record = .error e) := by
  by_cases hclient : recordClient record < ME_MAX_NUM_CLIENTS
  · by_cases howns : s.Owns socket (recordClient record)
    · rw [recvRecord_own hclient howns]
      by_cases hseq : recordSeqNum record = s.cidNextExpSeqNum (recordClient record)
      · rw [if_neg (not_not.mpr hseq)]
        by_cases hroom : s.fifoSequencer.pendingSize < ME_MAX_PENDING_REQUESTS
        · left
          unfold FIFOSequencer.addClientRequest
          rw [if_neg (by rw [h.length]; omega), ok_bind]
          refine ⟨⟨hclient, fun _ => ⟨hseq, hroom⟩⟩, _, _, rfl, fun c => ?_, fun c => ?_, ?_, ?_, hroom, fun c => ?_⟩
          · exact owns_bindSocket s socket _ c
          · simp only [Function.update_apply]
            by_cases hc : c = recordClient record
            · rw [if_pos hc, if_pos ⟨hc ▸ howns, hc⟩, hc]
            · rw [if_neg hc, if_neg fun hand => hc hand.2]
          · rw [if_pos howns]
          · simpa using h.length
          · simp only [Function.update_apply]
            split
            · exact wrap64_of_lt (Nat.mod_lt _ (by decide))
            · exact h.expected c
        · right
          refine ⟨fun hand => hroom (hand.2 howns).2, .fatal "Too many pending requests", ?_⟩
          unfold FIFOSequencer.addClientRequest
          rw [if_pos (by rw [h.length]; omega), error_bind]
      · right
        exact ⟨fun hand => hseq (hand.2 howns).1, _, if_pos hseq⟩
    · left
      refine ⟨⟨hclient, fun hin => absurd hin howns⟩, s, _, recvRecord_other hclient howns, fun c => Iff.rfl, fun c => ?_,
        ?_, h⟩
      · rw [if_neg]
        rintro ⟨hc, rfl⟩
        exact howns hc
      · rw [if_neg howns]
        rfl
  · right
    exact ⟨fun hand => hclient hand.1, .outOfRange, recvRecord_unknown hclient⟩

lemma RecordsFit.head (h : s.Ready) {records : List (List UInt8)} (hfit : s.RecordsFit socket (record :: records)) :
    s.RecordFits socket record := by
  refine ⟨hfit.client record List.mem_cons_self, fun howns => ⟨?_, ?_⟩⟩
  · have hnumber := hfit.numbered [] record records rfl howns
    rwa [List.filter_nil, List.length_nil, Nat.add_zero, h.expected] at hnumber
  · have hpending := hfit.pending
    rw [List.filter_cons, if_pos (by simpa using howns), List.length_cons] at hpending
    omega

/-- The rest of a buffer, seen from behind its first record. -/
lemma recordsFit_cons (h : s.Ready) (hreceived : Received s socket record s') {records : List (List UInt8)} :
    s.RecordsFit socket (record :: records) ↔ s.RecordFits socket record ∧ s'.RecordsFit socket records := by
  have hlength : (record :: records).filter (fun r => s.Owns socket (recordClient r)) =
      (if s.Owns socket (recordClient record) then [record] else []) ++
        records.filter fun r => s'.Owns socket (recordClient r) := by
    simp only [hreceived.owns, List.filter_cons, decide_eq_true_eq]
    split <;> rfl
  have hcount : ∀ past : List (List UInt8), ∀ c, s.Owns socket c →
      wrap64 (s'.cidNextExpSeqNum c + (past.filter fun r => recordClient r = c).length) =
        wrap64 (s.cidNextExpSeqNum c + ((record :: past).filter fun r => recordClient r = c).length) := by
    intro past c hc
    rw [hreceived.expected, List.filter_cons]
    by_cases hrecord : c = recordClient record
    · rw [if_pos ⟨hc, hrecord⟩, if_pos (by simpa using hrecord.symm), List.length_cons]
      unfold wrap64
      omega
    · rw [if_neg fun hand => hrecord hand.2, if_neg (by simpa using Ne.symm hrecord)]
  constructor
  · intro hfit
    refine ⟨hfit.head h, fun r hr => ?_, fun past r later hsplit howns => ?_, ?_⟩
    · exact hfit.client r (List.mem_cons_of_mem record hr)
    · rw [hreceived.owns] at howns
      rw [hcount past _ howns]
      exact hfit.numbered (record :: past) r later (by rw [hsplit, List.cons_append]) howns
    · have hpending := hfit.pending
      rw [hlength, List.length_append] at hpending
      rw [hreceived.pending]
      split at hpending
      · rename_i howns
        rw [if_pos howns]
        rw [List.length_singleton] at hpending
        omega
      · rename_i howns
        rw [if_neg howns]
        simpa using hpending
  · rintro ⟨⟨hclient, hfirst⟩, hfit⟩
    refine ⟨fun r hr => ?_, fun past r later hsplit howns => ?_, ?_⟩
    · rcases List.mem_cons.mp hr with rfl | hr
      · exact hclient
      · exact hfit.client r hr
    · cases past with
      | nil =>
        obtain ⟨rfl, -⟩ := List.cons.inj hsplit
        rw [List.filter_nil, List.length_nil, Nat.add_zero, h.expected]
        exact (hfirst howns).1
      | cons x past =>
        obtain ⟨rfl, hrest⟩ := List.cons.inj hsplit
        rw [← hcount past _ howns]
        exact hfit.numbered past r later hrest ((hreceived.owns _).mpr howns)
    · have hpending := hfit.pending
      rw [hreceived.pending] at hpending
      rw [hlength, List.length_append]
      split at hpending
      · rename_i howns
        rw [if_pos howns, List.length_singleton]
        omega
      · rename_i howns
        rw [if_neg howns]
        simpa using hpending

/-- The loop over a buffer returns just when its records fit. -/
theorem recvRecords_iff (std : StdSort) (h : s.Ready) (rxTime : Nanos) (records : List (List UInt8)) :
    (∃ s' xs, recvRecords (FIFOSequencer.sequencer std) Logger.log socket rxTime records s = .ok (s', xs)) ↔
      s.RecordsFit socket records := by
  induction records generalizing s with
  | nil =>
    refine iff_of_true ⟨s, [], rfl⟩ ⟨fun r hr => absurd hr List.not_mem_nil, fun past r later hsplit => ?_, h.size⟩
    simp at hsplit
  | cons record records ih =>
    simp only [recvRecords]
    rcases recvRecord_returns std h rxTime with ⟨hfirst, s₁, x, hrun, hreceived⟩ | ⟨hnot, e, hrun⟩
    · rw [hrun, ok_bind, recordsFit_cons h hreceived, and_iff_right hfirst, ← ih hreceived.ready]
      constructor
      · rintro ⟨s', xs, hrest⟩
        obtain ⟨⟨s₂, rest⟩, hrest, -⟩ := bind_eq_ok hrest
        exact ⟨s₂, rest, hrest⟩
      · rintro ⟨s', xs, hrest⟩
        exact ⟨s', x :: xs, by rw [hrest, ok_bind, pure_eq_ok]⟩
    · rw [hrun, error_bind]
      refine iff_of_false ?_ fun hfit => hnot (hfit.head h)
      rintro ⟨s', xs, hok⟩
      cases hok

lemma recordsFit_modifySocket (i : Nat) (f : TCPSocket → TCPSocket) (records : List (List UInt8)) :
    (s.modifySocket i f).RecordsFit socket records ↔ s.RecordsFit socket records := by
  constructor
  · exact fun h => ⟨h.client, h.numbered, h.pending⟩
  · exact fun h => ⟨h.client, h.numbered, h.pending⟩

lemma recvCallback_iff (std : StdSort) (h : s.Ready) (socket : Nat) (rxTime : Nanos) :
    (∃ s' xs, s.recvCallback (FIFOSequencer.sequencer std) Logger.log socket rxTime = .ok (s', xs)) ↔
      s.RecordsFit socket ((s.sockets socket).records OMClientRequest.packed.sizeof) := by
  rw [recvCallback_eq Logger.counts_log, ← recvRecords_iff std h rxTime]
  cases recvRecords (FIFOSequencer.sequencer std) Logger.log socket rxTime
      ((s.sockets socket).records OMClientRequest.packed.sizeof) s with
  | error e =>
    refine iff_of_false ?_ ?_
    · rintro ⟨s', xs, hok⟩
      cases hok
    · rintro ⟨s', xs, hok⟩
      cases hok
  | ok x => exact iff_of_true ⟨_, _, rfl⟩ ⟨x.1, x.2, rfl⟩

/-- A read of a socket goes through just when the records it completes fit. -/
theorem sendAndRecv_iff (std : StdSort) (h : s.Ready) (socket : Nat) (data : List UInt8) (kernelTime userTime : Nanos) :
    (∃ s' xs, s.sendAndRecv (FIFOSequencer.sequencer std) Logger.log socket data kernelTime userTime = .ok (s', xs)) ↔
      (data ≠ [] → s.RecordsFit socket
        (frames OMClientRequest.packed.sizeof ((s.sockets socket).inboundData ++ data))) := by
  by_cases hdata : data = []
  · refine iff_of_true ⟨s, [], ?_⟩ fun hne => absurd hdata hne
    rw [OrderServer.sendAndRecv, if_pos hdata, pure_eq_ok]
  · have hready : (s.modifySocket socket (·.recv data)).Ready := ⟨h.length, h.size, h.expected⟩
    have hrecords : ((s.modifySocket socket (·.recv data)).sockets socket).records OMClientRequest.packed.sizeof =
        frames OMClientRequest.packed.sizeof ((s.sockets socket).inboundData ++ data) := by
      rw [sockets_modifySocket, Function.update_self]
      rfl
    rw [sendAndRecv_eq Logger.counts_log s socket hdata, imp_iff_right hdata, recvCallback_iff std hready,
      recordsFit_modifySocket, hrecords]

end OrderServer

lemma ServerRun.ready {std : StdSort} {log : Log} {run : List (ServerAction × List ServerEvent)}
    {s : OrderServer FIFOSequencer} (h : ServerRun std log run s) : s.Ready := by
  obtain ⟨hserves, added, hholds, -⟩ := h.invariant
  refine ⟨hholds.length, hholds.size ▸ hholds.fits, fun c => ?_⟩
  rw [hserves.sessions.expected]
  exact wrap64_of_lt (Nat.mod_lt _ (by decide))

end LowLatencyExchange
