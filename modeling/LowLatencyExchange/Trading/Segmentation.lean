import LowLatencyExchange.Trading.ResponsePath

/-!
# Cutting the gateway's stream

TCP may cut the bytes of a client anywhere. What the gateway makes of them is read off the whole
stream: its records in order, of which those of the client under the next number are accepted, and the
bytes behind the last of them.
-/

namespace LowLatencyExchange
open ByteStream

/-- The index `i` of the loop over the records of `n` bytes, when it ends. -/
def endIndexLoop (n valid : Nat) : Nat → Nat → Nat
  | 0, i => i
  | fuel + 1, i => if i + n ≤ valid then endIndexLoop n valid fuel (i + n) else i

def endIndex (n valid : Nat) : Nat := endIndexLoop n valid valid 0

/-- The `memcpy` of `valid - i` bytes from index `i` to the start has no byte in both its ranges. -/
def MovesApart (n valid : Nat) : Prop :=
  ∀ a < valid - endIndex n valid, ∀ b < valid - endIndex n valid, a ≠ endIndex n valid + b

lemma endIndexLoop_eq {n valid : Nat} (hn : 0 < n) {fuel k : Nat} (hk : n * k ≤ valid) (hfuel : valid ≤ n * k + fuel) :
    endIndexLoop n valid fuel (n * k) = n * (valid / n) := by
  induction fuel generalizing k with
  | zero =>
    obtain rfl : valid = n * k := by omega
    rw [endIndexLoop, Nat.mul_div_cancel_left k hn]
  | succ fuel ih =>
    rw [endIndexLoop, ← Nat.mul_succ]
    split
    · rename_i hnext
      apply ih hnext
      rw [Nat.mul_succ]
      omega
    · rename_i hend
      rw [Nat.div_eq_of_lt_le (by rwa [Nat.mul_comm]) (by rw [Nat.mul_comm]; exact Nat.not_le.mp hend)]

lemma endIndex_eq {n : Nat} (hn : 0 < n) (valid : Nat) : endIndex n valid = n * (valid / n) :=
  endIndexLoop_eq (k := 0) hn (Nat.zero_le _) (by omega)

/-- What is left over is what stands behind the records. -/
lemma leftover_eq_drop {n : Nat} (hn : 0 < n) (xs : List UInt8) : leftover n xs = xs.drop (endIndex n xs.length) := by
  have hlength : (frames n xs).flatten.length = endIndex n xs.length := by
    rw [length_flatten (framed_frames hn xs).length, length_frames hn, endIndex_eq hn]
  calc leftover n xs
      = ((frames n xs).flatten ++ leftover n xs).drop (endIndex n xs.length) := (List.drop_left' hlength).symm
    _ = xs.drop (endIndex n xs.length) := by rw [flatten_frames hn]

/-- With one record at least, the bytes behind the records are fewer than those of the records. -/
lemma movesApart {n valid : Nat} (hn : 0 < n) (hvalid : n ≤ valid) : MovesApart n valid := by
  intro a ha b _ heq
  rw [endIndex_eq hn] at ha heq
  have hone : 1 ≤ valid / n := (Nat.one_le_div_iff hn).mpr hvalid
  have hrecord : n * 1 ≤ n * (valid / n) := Nat.mul_le_mul_left n hone
  have hmod := Nat.mod_lt valid hn
  have hsplit := Nat.div_add_mod valid n
  omega

namespace OrderGateway
variable {log : Log} {g : OrderGateway}

/-- The records that are accepted, from the expected number on, and the number expected after them. -/
def acceptRecords (clientId : ClientId) : Nat → List (List UInt8) → Nat × List MEClientResponse
  | seqNum, [] => (seqNum, [])
  | seqNum, record :: records =>
    let response := OMClientResponse.packed.decode record
    if response.meClientResponse.clientId = clientId ∧ response.seqNum = seqNum then
      let rest := acceptRecords clientId (wrap64 (seqNum + 1)) records
      (rest.1, response.meClientResponse :: rest.2)
    else acceptRecords clientId seqNum records

lemma acceptRecords_append (clientId : ClientId) (seqNum : Nat) (xs ys : List (List UInt8)) :
    acceptRecords clientId seqNum (xs ++ ys) =
      ((acceptRecords clientId (acceptRecords clientId seqNum xs).1 ys).1,
        (acceptRecords clientId seqNum xs).2 ++ (acceptRecords clientId (acceptRecords clientId seqNum xs).1 ys).2) := by
  induction xs generalizing seqNum with
  | nil => rfl
  | cons record xs ih =>
    rw [List.cons_append, acceptRecords, acceptRecords]
    dsimp only
    split
    · rw [ih]
      rfl
    · rw [ih]

/-- The bytes that the gateway has not consumed, with more behind them. -/
def stream (g : OrderGateway) (data : List UInt8) : List UInt8 := g.tcpSocket.inboundData ++ data

/-- The responses that the gateway accepts of these bytes, and the number it expects then. -/
def accepts (g : OrderGateway) (data : List UInt8) : Nat × List MEClientResponse :=
  acceptRecords g.clientId g.nextExpSeqNum (frames OMClientResponse.packed.sizeof (g.stream data))

/-- The gateway once it has been fed these bytes. -/
def fed (g : OrderGateway) (data : List UInt8) : OrderGateway :=
  { g with
    nextExpSeqNum := (g.accepts data).1
    tcpSocket := { g.tcpSocket with inboundData := leftover OMClientResponse.packed.sizeof (g.stream data) } }

lemma fed_nil (h : g.tcpSocket.inboundData.length < OMClientResponse.packed.sizeof) :
    g.fed [] = g ∧ (g.accepts []).2 = [] := by
  obtain ⟨hframes, hleft⟩ := frames_of_lt h
  have hstream : g.stream [] = g.tcpSocket.inboundData := List.append_nil _
  unfold fed accepts
  rw [hstream, hframes, hleft]
  exact ⟨rfl, rfl⟩

/-- Bytes that come in two parts are taken as one. -/
lemma fed_append (xs ys : List UInt8) : g.fed (xs ++ ys) = (g.fed xs).fed ys ∧
    (g.accepts (xs ++ ys)).2 = (g.accepts xs).2 ++ ((g.fed xs).accepts ys).2 := by
  have hstream : g.stream (xs ++ ys) = g.stream xs ++ ys := (List.append_assoc _ _ _).symm
  obtain ⟨hframes, hleft⟩ := frames_append (n := OMClientResponse.packed.sizeof) (by decide) (g.stream xs) ys
  have haccepts : g.accepts (xs ++ ys) =
      (((g.fed xs).accepts ys).1, (g.accepts xs).2 ++ ((g.fed xs).accepts ys).2) := by
    rw [accepts, hstream, hframes, acceptRecords_append]
    rfl
  refine ⟨?_, congrArg Prod.snd haccepts⟩
  unfold fed at haccepts ⊢
  rw [haccepts, hstream, hleft]
  rfl

lemma length_fed (data : List UInt8) :
    (g.fed data).tcpSocket.inboundData.length < OMClientResponse.packed.sizeof :=
  (framed_frames (by decide) (g.stream data)).rest

/-- One record: it is accepted or it is skipped. -/
lemma recvRecord_eq (hlog : log.Counts) (record : List UInt8) : g.recvRecord log record =
    .ok (if (OMClientResponse.packed.decode record).meClientResponse.clientId = g.clientId ∧
        (OMClientResponse.packed.decode record).seqNum = g.nextExpSeqNum then
      ({ g with nextExpSeqNum := wrap64 (g.nextExpSeqNum + 1) },
        ⟨record, some (OMClientResponse.packed.decode record).meClientResponse⟩)
    else (g, ⟨record, none⟩)) := by
  unfold recvRecord logAt
  dsimp only
  rw [hlog _ _ rfl, ok_bind]
  by_cases hclient : (OMClientResponse.packed.decode record).meClientResponse.clientId = g.clientId
  · rw [if_neg (not_not_intro hclient)]
    by_cases hseq : (OMClientResponse.packed.decode record).seqNum = g.nextExpSeqNum
    · rw [if_neg (not_not_intro hseq), if_pos ⟨hclient, hseq⟩, pure_eq_ok]
    · rw [if_pos hseq, hlog _ _ rfl, ok_bind, if_neg fun h => hseq h.2, pure_eq_ok]
  · rw [if_pos hclient, hlog _ _ rfl, ok_bind, if_neg fun h => hclient h.1, pure_eq_ok]

/-- Whatever the records are, the loop over them accepts the right ones. -/
lemma recvRecords_accepts (hlog : log.Counts) (records : List (List UInt8)) : ∃ handled,
    recvRecords log records g =
      .ok ({ g with nextExpSeqNum := (acceptRecords g.clientId g.nextExpSeqNum records).1 }, handled) ∧
    handled.filterMap HandledResponse.written = (acceptRecords g.clientId g.nextExpSeqNum records).2 := by
  induction records generalizing g with
  | nil => exact ⟨[], rfl, rfl⟩
  | cons record records ih =>
    rw [acceptRecords, recvRecords, recvRecord_eq hlog, ok_bind]
    dsimp only
    split
    · obtain ⟨handled, hrest, hwritten⟩ := ih (g := { g with nextExpSeqNum := wrap64 (g.nextExpSeqNum + 1) })
      refine ⟨⟨record, some (OMClientResponse.packed.decode record).meClientResponse⟩ :: handled, ?_, ?_⟩
      · rw [hrest, ok_bind, pure_eq_ok]
      · rw [← hwritten]
        rfl
    · obtain ⟨handled, hrest, hwritten⟩ := ih (g := g)
      refine ⟨⟨record, none⟩ :: handled, ?_, hwritten⟩
      rw [hrest, ok_bind, pure_eq_ok]

/-- One read and its callback. -/
lemma sendAndRecv_fed (hlog : log.Counts) (h : g.tcpSocket.inboundData.length < OMClientResponse.packed.sizeof)
    (segment : Segment) : ∃ handled, g.sendAndRecv log segment = .ok (g.fed segment.data, handled) ∧
      handled.filterMap HandledResponse.written = (g.accepts segment.data).2 := by
  by_cases hempty : segment.data = []
  · obtain ⟨hfed, haccepts⟩ := fed_nil h
    refine ⟨[], ?_, ?_⟩
    · rw [sendAndRecv, if_pos hempty, hempty, hfed, pure_eq_ok]
    · rw [hempty, haccepts, List.filterMap_nil]
  · obtain ⟨handled, hrecords, hwritten⟩ := recvRecords_accepts (g := { g with tcpSocket := g.tcpSocket.recv segment.data })
      hlog (frames OMClientResponse.packed.sizeof (g.stream segment.data))
    have hcallback := recvCallback_eq (g := { g with tcpSocket := g.tcpSocket.recv segment.data }) hlog
      segment.kernelTime hrecords
    refine ⟨handled, ?_, hwritten⟩
    unfold sendAndRecv
    rw [if_neg hempty]
    dsimp only
    rw [hlog _ _ rfl, ok_bind]
    exact hcallback

/-- All reads of a stream, however it is cut. -/
theorem sendAndRecvAll_fed (hlog : log.Counts) (h : g.tcpSocket.inboundData.length < OMClientResponse.packed.sizeof)
    (segments : List Segment) : ∃ handled,
      sendAndRecvAll log segments g = .ok (g.fed (segments.flatMap Segment.data), handled) ∧
      handled.filterMap HandledResponse.written = (g.accepts (segments.flatMap Segment.data)).2 := by
  induction segments generalizing g with
  | nil =>
    obtain ⟨hfed, haccepts⟩ := fed_nil h
    refine ⟨[], ?_, ?_⟩
    · rw [List.flatMap_nil, hfed]
      rfl
    · rw [List.flatMap_nil, haccepts, List.filterMap_nil]
  | cons segment segments ih =>
    obtain ⟨first, hfirst, hwritten⟩ := sendAndRecv_fed hlog h segment
    obtain ⟨rest, hrest, hwritten'⟩ := ih (length_fed (g := g) segment.data)
    obtain ⟨hfed, haccepts⟩ := fed_append (g := g) segment.data (segments.flatMap Segment.data)
    refine ⟨first ++ rest, ?_, ?_⟩
    · simp only [sendAndRecvAll, hfirst, hrest, ok_bind, pure_eq_ok, List.flatMap_cons, hfed]
    · rw [List.filterMap_append, hwritten, hwritten', List.flatMap_cons, haccepts]

/-- The gateway parses the stream, not its segments: two cuts of the same bytes lead to the same gateway and
the same responses, which are those of the whole stream. No read leaves a complete record behind, and the
`memcpy` of what it leaves moves it clear of where it stood. -/
theorem segmentation_irrelevant (hlog : log.Counts)
    (h : g.tcpSocket.inboundData.length < OMClientResponse.packed.sizeof) {segments segments' : List Segment}
    (hsame : segments.flatMap Segment.data = segments'.flatMap Segment.data) :
    (∃ g' handled handled', sendAndRecvAll log segments g = .ok (g', handled) ∧
      sendAndRecvAll log segments' g = .ok (g', handled') ∧
      handled.filterMap HandledResponse.written = handled'.filterMap HandledResponse.written ∧
      (g'.nextExpSeqNum, handled.filterMap HandledResponse.written) = acceptRecords g.clientId g.nextExpSeqNum
        (frames OMClientResponse.packed.sizeof (g.tcpSocket.inboundData ++ segments.flatMap Segment.data)) ∧
      g'.tcpSocket.inboundData =
        leftover OMClientResponse.packed.sizeof (g.tcpSocket.inboundData ++ segments.flatMap Segment.data)) ∧
    ∀ past segment later, segments = past ++ segment :: later → ∃ g₁ handled₁ g₂ handled₂,
      sendAndRecvAll log past g = .ok (g₁, handled₁) ∧ g₁.sendAndRecv log segment = .ok (g₂, handled₂) ∧
      g₂.tcpSocket.inboundData.length < OMClientResponse.packed.sizeof ∧
      ∀ buffer, buffer = g₁.tcpSocket.inboundData ++ segment.data →
        g₂.tcpSocket.inboundData = buffer.drop (endIndex OMClientResponse.packed.sizeof buffer.length) ∧
        (OMClientResponse.packed.sizeof ≤ buffer.length → MovesApart OMClientResponse.packed.sizeof buffer.length) := by
  constructor
  · obtain ⟨handled, hrun, hwritten⟩ := sendAndRecvAll_fed hlog h segments
    obtain ⟨handled', hrun', hwritten'⟩ := sendAndRecvAll_fed hlog h segments'
    rw [← hsame] at hrun' hwritten'
    refine ⟨_, handled, handled', hrun, hrun', hwritten.trans hwritten'.symm, ?_, rfl⟩
    rw [hwritten]
    rfl
  · intro past segment later _
    obtain ⟨handled₁, hpast, -⟩ := sendAndRecvAll_fed hlog h past
    have hshort : (g.fed (past.flatMap Segment.data)).tcpSocket.inboundData.length < OMClientResponse.packed.sizeof :=
      length_fed _
    obtain ⟨handled₂, hnext, -⟩ := sendAndRecv_fed hlog hshort segment
    refine ⟨_, handled₁, _, handled₂, hpast, hnext, length_fed _, ?_⟩
    rintro buffer rfl
    exact ⟨leftover_eq_drop (by decide) _, movesApart (by decide)⟩

/-- Two responses of client 3, with another client's and one out of sequence between them, and the start
of a fifth record. -/
def mixedStream : List UInt8 :=
  OMClientResponse.packed.encode ⟨1, fill 3 1⟩ ++ OMClientResponse.packed.encode ⟨2, fill 5 8⟩ ++
    OMClientResponse.packed.encode ⟨7, fill 3 4⟩ ++ OMClientResponse.packed.encode ⟨2, fill 3 2⟩ ++ [0, 1]

theorem segmentation_irrelevant_mixed : ∃ g handled handled',
    sendAndRecvAll Logger.log [{ data := mixedStream }] { clientId := 3 } = .ok (g, handled) ∧
    sendAndRecvAll Logger.log [{ data := mixedStream.take 60 }, { data := mixedStream.drop 60 }] { clientId := 3 } =
      .ok (g, handled') ∧
    handled.filterMap HandledResponse.written = [fill 3 1, fill 3 2] ∧
    handled'.filterMap HandledResponse.written = [fill 3 1, fill 3 2] ∧
    g.nextExpSeqNum = 3 ∧ g.tcpSocket.inboundData = [0, 1] := by
  have hcut : ([{ data := mixedStream }] : List Segment).flatMap Segment.data =
      [{ data := mixedStream.take 60 }, { data := mixedStream.drop 60 }].flatMap Segment.data := by decide +kernel
  obtain ⟨⟨g, handled, handled', hrun, hrun', hsame, hwritten, hleft⟩, -⟩ :=
    segmentation_irrelevant (g := { clientId := 3 }) Logger.counts_log (by decide) hcut
  have haccepts : (g.nextExpSeqNum, handled.filterMap HandledResponse.written) = (3, [fill 3 1, fill 3 2]) :=
    hwritten.trans (by decide +kernel)
  obtain ⟨hnext, hresponses⟩ := Prod.mk.inj haccepts
  exact ⟨g, handled, handled', hrun, hrun', hresponses, hsame ▸ hresponses, hnext, hleft.trans (by decide +kernel)⟩

end OrderGateway
end LowLatencyExchange
