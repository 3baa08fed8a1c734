import LowLatencyExchange.Exchange.Intake

/-!
# Discarded requests

`recvCallback` passes over a record of a client that is bound to another socket. One that comes on
its own socket under a wrong number ends the process: the log line about it has an argument too many.
-/

namespace LowLatencyExchange
open ByteStream LoggedRun

namespace OrderServer

/-- The server with these bytes in the inbound buffer of a socket. -/
def withInbound {Q : Type} (s : OrderServer Q) (socket : Nat) (data : List UInt8) : OrderServer Q :=
  s.modifySocket socket fun sock => { sock with inboundData := data }

/-- The record comes on a socket other than its client's, or does not have the number expected of its
client. -/
def Discarded (s : OrderServer FIFOSequencer) (socket : Nat) (record : List UInt8) : Prop :=
  (∃ bound, s.cidTcpSocket (recordClient record) = some bound ∧ bound ≠ socket) ∨
    recordSeqNum record ≠ s.cidNextExpSeqNum (recordClient record)

/-- In a read of `s` that has come to the record in `s₁`: the callback gets through the record, passes nothing
on and leaves the arrays, and of the other records it makes what it would have made without this one. -/
structure PassesOver (std : StdSort) (s s₁ : OrderServer FIFOSequencer) (socket : Nat) (rxTime : Nanos)
    (past : List (List UInt8)) (handled : List HandledRecord) (record : List UInt8) (later : List (List UInt8))
    (rest : List UInt8) : Prop where
  dropped : ∃ s₂, s₁.recvRecord (FIFOSequencer.sequencer std) Logger.log socket rxTime record =
      .ok (s₂, ⟨socket, record, none⟩) ∧ s₂.fifoSequencer = s₁.fifoSequencer ∧ s₂.cidTcpSocket = s₁.cidTcpSocket ∧
    s₂.cidNextExpSeqNum = s₁.cidNextExpSeqNum ∧ s₂.cidNextOutgoingSeqNum = s₁.cidNextOutgoingSeqNum
  others : (s.withInbound socket ((past ++ record :: later).flatten ++ rest)).recvCallback
      (FIFOSequencer.sequencer std) Logger.log socket rxTime =
    ((s.withInbound socket ((past ++ later).flatten ++ rest)).recvCallback
      (FIFOSequencer.sequencer std) Logger.log socket rxTime).map fun x =>
        (x.1, x.2.take handled.length ++ ⟨socket, record, none⟩ :: x.2.drop handled.length)

variable {std : StdSort} {s s₁ : OrderServer FIFOSequencer} {socket : Nat} {rxTime : Nanos} {record : List UInt8}

lemma withInbound_consume (s : OrderServer FIFOSequencer) (socket n : Nat) (data : List UInt8) :
    (s.withInbound socket data).modifySocket socket (·.consume n) = s.withInbound socket (leftover n data) := by
  unfold withInbound modifySocket
  simp only [Function.update_self, Function.update_idem]
  rfl

lemma bindSocket_withInbound (s : OrderServer FIFOSequencer) (socket i : Nat) (clientId : ClientId) (data : List UInt8) :
    (s.withInbound socket data).bindSocket clientId i = (s.bindSocket clientId i).withInbound socket data := by
  have hbound : (s.withInbound socket data).cidTcpSocket = s.cidTcpSocket := rfl
  unfold bindSocket
  rw [hbound]
  split <;> rfl

/-- The loop does not look at the buffers. -/
lemma recvRecord_withInbound (s : OrderServer FIFOSequencer) (socket : Nat) (rxTime : Nanos) (record data : List UInt8) :
    (s.withInbound socket data).recvRecord (FIFOSequencer.sequencer std) Logger.log socket rxTime record =
      (s.recvRecord (FIFOSequencer.sequencer std) Logger.log socket rxTime record).map fun x =>
        (x.1.withInbound socket data, x.2) := by
  by_cases hclient : recordClient record < ME_MAX_NUM_CLIENTS
  · by_cases howns : s.Owns socket (recordClient record)
    · have howns' : (s.withInbound socket data).Owns socket (recordClient record) := howns
      have hexpected : (s.withInbound socket data).cidNextExpSeqNum = s.cidNextExpSeqNum := rfl
      have hsequencer : (s.withInbound socket data).fifoSequencer = s.fifoSequencer := rfl
      rw [recvRecord_own hclient howns, recvRecord_own hclient howns', hexpected, hsequencer, bindSocket_withInbound]
      split
      · rfl
      · cases s.fifoSequencer.addClientRequest rxTime (OMClientRequest.packed.decode record).meClientRequest <;> rfl
    · have howns' : ¬(s.withInbound socket data).Owns socket (recordClient record) := howns
      rw [recvRecord_other hclient howns, recvRecord_other hclient howns']
      rfl
  · rw [recvRecord_unknown hclient, recvRecord_unknown hclient]
    rfl

lemma recvRecords_withInbound (s : OrderServer FIFOSequencer) (socket : Nat) (rxTime : Nanos)
    (records : List (List UInt8)) (data : List UInt8) :
    recvRecords (FIFOSequencer.sequencer std) Logger.log socket rxTime records (s.withInbound socket data) =
      (recvRecords (FIFOSequencer.sequencer std) Logger.log socket rxTime records s).map fun x =>
        (x.1.withInbound socket data, x.2) := by
  induction records generalizing s with
  | nil => rfl
  | cons record records ih =>
    rw [recvRecords, recvRecord_withInbound, recvRecords]
    cases s.recvRecord (FIFOSequencer.sequencer std) Logger.log socket rxTime record with
    | error e => rfl
    | ok x =>
      simp only [Except.map, ok_bind, ih]
      cases recvRecords (FIFOSequencer.sequencer std) Logger.log socket rxTime records x.1 <;> rfl

/-- A read is its complete records, one after another. -/
lemma recvCallback_withInbound (s : OrderServer FIFOSequencer) (socket : Nat) (rxTime : Nanos)
    {records : List (List UInt8)} {rest : List UInt8} (h : Framed OMClientRequest.packed.sizeof records rest) :
    (s.withInbound socket (records.flatten ++ rest)).recvCallback (FIFOSequencer.sequencer std) Logger.log socket rxTime =
      (recvRecords (FIFOSequencer.sequencer std) Logger.log socket rxTime records s).map fun x =>
        (x.1.withInbound socket rest, x.2) := by
  obtain ⟨hframes, hleftover⟩ := frames_eq h
  have hinbound :
      ((s.withInbound socket (records.flatten ++ rest)).sockets socket).inboundData = records.flatten ++ rest := by
    unfold withInbound
    rw [sockets_modifySocket, Function.update_self]
  rw [recvCallback_eq Logger.counts_log, TCPSocket.records, hinbound, hframes, recvRecords_withInbound]
  cases recvRecords (FIFOSequencer.sequencer std) Logger.log socket rxTime records s with
  | error e => rfl
  | ok x =>
    have hconsume := withInbound_consume x.1 socket OMClientRequest.packed.sizeof (records.flatten ++ rest)
    rw [hleftover] at hconsume
    simp only [Except.map, hconsume]

lemma recvRecords_append (s : OrderServer FIFOSequencer) (past later : List (List UInt8)) {handled : List HandledRecord}
    (h : recvRecords (FIFOSequencer.sequencer std) Logger.log socket rxTime past s = .ok (s₁, handled)) :
    recvRecords (FIFOSequencer.sequencer std) Logger.log socket rxTime (past ++ later) s =
      (recvRecords (FIFOSequencer.sequencer std) Logger.log socket rxTime later s₁).map fun x => (x.1, handled ++ x.2) := by
  induction past generalizing s handled with
  | nil =>
    cases h
    rw [List.nil_append]
    cases recvRecords (FIFOSequencer.sequencer std) Logger.log socket rxTime later s₁ <;> rfl
  | cons record past ih =>
    obtain ⟨⟨s₂, x⟩, hrecord, h⟩ := bind_eq_ok h
    obtain ⟨⟨s₃, xs⟩, hrecords, h⟩ := bind_eq_ok h
    cases h
    rw [List.cons_append, recvRecords, hrecord, ok_bind]
    dsimp only
    rw [ih s₂ hrecords]
    cases recvRecords (FIFOSequencer.sequencer std) Logger.log socket rxTime later s₁ <;> rfl

/-- Without the record, the read is the records before it and those behind it. -/
lemma PassesOver.of_other {past later : List (List UInt8)} {rest : List UInt8} {handled : List HandledRecord}
    (hframed : Framed OMClientRequest.packed.sizeof (past ++ record :: later) rest)
    (hpast : recvRecords (FIFOSequencer.sequencer std) Logger.log socket rxTime past s = .ok (s₁, handled))
    (hclient : recordClient record < ME_MAX_NUM_CLIENTS) (howns : ¬s₁.Owns socket (recordClient record)) :
    PassesOver std s s₁ socket rxTime past handled record later rest := by
  have hother := @recvRecord_other std s₁ socket rxTime record hclient howns
  refine ⟨⟨s₁, hother, rfl, rfl, rfl, rfl⟩, ?_⟩
  have hwithout : Framed OMClientRequest.packed.sizeof (past ++ later) rest := by
    refine ⟨fun r hr => hframed.length r ?_, hframed.rest⟩
    rcases List.mem_append.mp hr with hr | hr
    · exact List.mem_append_left _ hr
    · exact List.mem_append_right _ (List.mem_cons_of_mem record hr)
  rw [recvCallback_withInbound s socket rxTime hframed, recvCallback_withInbound s socket rxTime hwithout,
    recvRecords_append s past _ hpast, recvRecords_append s past _ hpast, recvRecords, hother, ok_bind]
  dsimp only
  cases recvRecords (FIFOSequencer.sequencer std) Logger.log socket rxTime later s₁ with
  | error e => rfl
  | ok x => simp [Except.map]

/-- A record on its client's own socket is discarded for its number, and the callback does not return. -/
lemma PassesOver.other {past later : List (List UInt8)} {rest : List UInt8} {handled : List HandledRecord}
    (h : PassesOver std s s₁ socket rxTime past handled record later rest)
    (hclient : recordClient record < ME_MAX_NUM_CLIENTS) (hdiscarded : s₁.Discarded socket record) :
    ¬s₁.Owns socket (recordClient record) := by
  intro howns
  obtain ⟨s₂, hrecord, -⟩ := h.dropped
  have hseq : recordSeqNum record ≠ s₁.cidNextExpSeqNum (recordClient record) := by
    rcases hdiscarded with ⟨bound, hbound, hne⟩ | hseq
    · exfalso
      rcases howns with hnone | hsome
      · rw [hnone] at hbound
        cases hbound
      · rw [hsome] at hbound
        exact hne (Option.some.inj hbound).symm
    · exact hseq
  rw [recvRecord_own hclient howns, if_pos hseq] at hrecord
  cases hrecord

end OrderServer

/-- A discarded record is passed over just when its client is bound to another socket. -/
theorem discard_harmless {std : StdSort} {s s₁ : OrderServer FIFOSequencer} {socket : Nat} {rxTime : Nanos}
    {past later : List (List UInt8)} {record rest : List UInt8} {handled : List HandledRecord}
    (hframed : Framed OMClientRequest.packed.sizeof (past ++ record :: later) rest)
    (hpast : OrderServer.recvRecords (FIFOSequencer.sequencer std) Logger.log socket rxTime past s = .ok (s₁, handled))
    (hclient : recordClient record < ME_MAX_NUM_CLIENTS) (hdiscarded : s₁.Discarded socket record) :
    OrderServer.PassesOver std s s₁ socket rxTime past handled record later rest ↔
      ¬s₁.Owns socket (recordClient record) :=
  ⟨fun h => h.other hclient hdiscarded, OrderServer.PassesOver.of_other hframed hpast hclient⟩

/-- The first record of client 3, numbered 2. -/
theorem discard_harmless_fails :
    (OrderServer.create ({} : FIFOSequencer)).Discarded 0 (numberedRecord 2 3) ∧
    ¬OrderServer.PassesOver .merge (.create {}) (.create {}) 0 0 [] [] (numberedRecord 2 3) [] [] := by
  have hdiscarded : (OrderServer.create ({} : FIFOSequencer)).Discarded 0 (numberedRecord 2 3) := .inr (by decide)
  exact ⟨hdiscarded, fun h => h.other (by decide) hdiscarded (.inl rfl)⟩

/-- Client 3 is bound to socket 1, and a record of its comes on socket 0, before one of client 4. -/
theorem discard_harmless_other : OrderServer.PassesOver .merge ((OrderServer.create {}).bindSocket 3 1)
    ((OrderServer.create {}).bindSocket 3 1) 0 0 [] [] (numberedRecord 1 3) [numberedRecord 1 4] [] := by
  refine (discard_harmless ⟨?_, by decide⟩ rfl (by decide) (.inl ⟨1, by decide, by decide⟩)).mpr (by decide)
  decide

end LowLatencyExchange
