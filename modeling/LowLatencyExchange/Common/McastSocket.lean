import LowLatencyExchange.Common.Logger
import LowLatencyExchange.Library.ByteStream
import LowLatencyExchange.Library.Run

/-!
# Multicast sockets

The two buffers of `Common::McastSocket`. `sendAndRecv` takes the length of the inbound buffer
for that of the outbound one, and so sends what was queued only where the two are as long.
-/

namespace LowLatencyExchange
open ByteStream LoggedRun

def McastBufferSize : Nat := 64 * 1024 * 1024

/-- `inboundData` and `outboundData` are the parts of the buffers up to their valid index, `stale`
is what earlier messages have left in the outbound buffer behind it. -/
structure McastSocket where
  socketFd : Nat := 0
  inboundData : List UInt8 := []
  outboundData : List UInt8 := []
  stale : Nat → UInt8 := fun _ => 0
  timeStr : String := ""

namespace McastSocket

def send (s : McastSocket) (data : List UInt8) : Except Fault McastSocket := do
  let s := { s with outboundData := s.outboundData ++ data }
  assertThat (s.outboundData.length < McastBufferSize)
    "Mcast socket buffer filled up and sendAndRecv() not called."
  pure s

/-- The read of `sendAndRecv`. -/
def recv (s : McastSocket) (data : List UInt8) : McastSocket :=
  { s with inboundData := s.inboundData ++ data }

/-- What is in the outbound buffer. -/
def outboundAt (s : McastSocket) (i : Nat) : UInt8 := s.outboundData.getD i (s.stale i)

/-- The part of the outbound buffer that `sendAndRecv` passes to `::send`. -/
def flushed (s : McastSocket) : List UInt8 := (List.range s.inboundData.length).map s.outboundAt

/-- The socket after the publication of `sendAndRecv`. -/
def flush (s : McastSocket) : McastSocket := { s with outboundData := [], stale := s.outboundAt }

def records (s : McastSocket) (n : Nat) : List (List UInt8) := frames n s.inboundData

/-- The `memcpy` after the loop over the records. -/
def consume (s : McastSocket) (n : Nat) : McastSocket :=
  { s with inboundData := leftover n s.inboundData }

/-- The first half of `sendAndRecv`, for the bytes it read and what the callback leaves of the inbound
data. -/
def receive (log : Log) (s : McastSocket) (data : List UInt8) (recvCallback : List UInt8 → List UInt8) :
    Except Fault McastSocket :=
  if data = [] then pure s
  else do
    let s := s.recv data
    log "%:% %() % read socket:% len:%\n" [.text "mcast_socket.cpp", .number 25, .text "sendAndRecv", .text s.timeStr,
      .number s.socketFd, .number s.inboundData.length]
    pure { s with inboundData := recvCallback s.inboundData }

/-- `::send` returns `n`. -/
def sendAndRecv (log : Log) (s : McastSocket) (data : List UInt8) (recvCallback : List UInt8 → List UInt8) (n : Int) :
    Except Fault (McastSocket × List (List UInt8)) := do
  let s ← s.receive log data recvCallback
  if s.outboundData = [] then pure (s, [])
  else
    -- the length passed to `::send` is `next_rcv_valid_index_`
    log "%:% %() % send socket:% len:%\n" [.text "mcast_socket.cpp", .number 32, .text "sendAndRecv", .text s.timeStr,
      .number s.socketFd, .text (toString n)]
    pure (s.flush, [s.flushed])

/-- `next_send_valid_index_` once `send` has put `len` bytes behind it. -/
def sendIndex (nextSendValidIndex len : Nat) : Except Fault Nat := do
  assertThat (nextSendValidIndex + len < McastBufferSize) "Mcast socket buffer filled up and sendAndRecv() not called."
  pure (nextSendValidIndex + len)

lemma sendIndex_eq_ok {i len j : Nat} : sendIndex i len = .ok j ↔ i + len < McastBufferSize ∧ j = i + len := by
  constructor
  · intro h
    obtain ⟨_, hassert, h⟩ := bind_eq_ok h
    cases h
    exact ⟨of_decide_eq_true (assertThat_eq_ok hassert), rfl⟩
  · rintro ⟨hroom, rfl⟩
    simp only [sendIndex, hroom, decide_true, assertThat_true, ok_bind, pure_eq_ok]

/-- The index does not depend on the bytes. -/
lemma send_length (s : McastSocket) (data : List UInt8) :
    (s.send data).map (fun s => s.outboundData.length) = sendIndex s.outboundData.length data.length := by
  simp only [send, sendIndex, assertThat, List.length_append, decide_eq_true_eq]
  split
  · simp only [ok_bind, pure_eq_ok, Except.map, List.length_append]
  · rfl

lemma send_eq {s : McastSocket} {data : List UInt8}
    (hroom : s.outboundData.length + data.length < McastBufferSize) :
    s.send data = .ok { s with outboundData := s.outboundData ++ data } := by
  have hlength : (s.outboundData ++ data).length < McastBufferSize := by rwa [List.length_append]
  simp only [send, hlength, decide_true, assertThat_true, ok_bind, pure_eq_ok]

/-- The inbound data once the callback has run. -/
def inboundAfter (s : McastSocket) (data : List UInt8) (recvCallback : List UInt8 → List UInt8) : List UInt8 :=
  if data = [] then s.inboundData else recvCallback (s.inboundData ++ data)

end McastSocket

/-- The calls that the owner of a socket makes. -/
inductive McastAction
  | send (data : List UInt8)
  | sendAndRecv (data : List UInt8) (recvCallback : List UInt8 → List UInt8) (n : Int)

namespace McastAction

/-- All data passed to `send`. -/
def queued (actions : List McastAction) : List UInt8 := actions.flatMap fun
  | .send data => data
  | .sendAndRecv _ _ _ => []

/-- What the flushes have to hand over, from `pending` on: each what was queued since the one before,
and none of them nothing. -/
def batches : List UInt8 → List McastAction → List (List UInt8)
  | _, [] => []
  | pending, .send data :: actions => batches (pending ++ data) actions
  | pending, .sendAndRecv _ _ _ :: actions =>
    if pending = [] then batches [] actions else pending :: batches [] actions

end McastAction

namespace McastSocket

def step (log : Log) (s : McastSocket) : McastAction → Except Fault (McastSocket × List (List UInt8))
  | .send data => do
    let s ← s.send data
    pure (s, [])
  | .sendAndRecv data recvCallback n => s.sendAndRecv log data recvCallback n

/-- A flush of queued data that takes the wrong length. -/
def Mismatched (s : McastSocket) : McastAction → Prop
  | .send _ => False
  | .sendAndRecv data recvCallback _ =>
    s.outboundData ≠ [] ∧ (s.inboundAfter data recvCallback).length ≠ s.outboundData.length

variable {log : Log} {s s' : McastSocket}

lemma length_flushed (s : McastSocket) : s.flushed.length = s.inboundData.length := by
  rw [flushed, List.length_map, List.length_range]

/-- The flush is what was queued just when it is as long. -/
lemma flushed_eq_iff (s : McastSocket) :
    s.flushed = s.outboundData ↔ s.inboundData.length = s.outboundData.length := by
  constructor
  · intro h
    rw [← length_flushed, h]
  · intro hlength
    apply List.ext_getElem
    · rw [length_flushed, hlength]
    · intro i hi hi'
      simp only [flushed, List.getElem_map, List.getElem_range]
      rw [outboundAt, List.getD_eq_getElem?_getD, List.getElem?_eq_getElem hi', Option.getD_some]

lemma step_send {data : List UInt8} {handed : List (List UInt8)} (h : s.step log (.send data) = .ok (s', handed)) :
    s' = { s with outboundData := s.outboundData ++ data } ∧ handed = [] := by
  obtain ⟨s₁, hsend, h⟩ := bind_eq_ok h
  cases h
  obtain ⟨_, -, hsend⟩ := bind_eq_ok hsend
  cases hsend
  exact ⟨rfl, rfl⟩

lemma receive_cases {data : List UInt8} {recvCallback : List UInt8 → List UInt8}
    (h : s.receive log data recvCallback = .ok s') : s' = { s with inboundData := s.inboundAfter data recvCallback } := by
  unfold receive at h
  unfold inboundAfter
  split at h
  · rename_i hdata
    cases h
    rw [if_pos hdata]
  · rename_i hdata
    obtain ⟨_, -, h⟩ := bind_eq_ok h
    cases h
    rw [if_neg hdata]
    rfl

lemma sendAndRecv_cases {data : List UInt8} {recvCallback : List UInt8 → List UInt8} {n : Int} {handed : List (List UInt8)}
    (h : s.sendAndRecv log data recvCallback n = .ok (s', handed)) :
    s'.outboundData = [] ∧ handed = if s.outboundData = [] then []
      else [{ s with inboundData := s.inboundAfter data recvCallback }.flushed] := by
  unfold sendAndRecv at h
  obtain ⟨s₁, hreceive, h⟩ := bind_eq_ok h
  obtain rfl := receive_cases hreceive
  split at h
  · rename_i hnone
    cases h
    exact ⟨hnone, (if_pos hnone).symm⟩
  · rename_i hsome
    obtain ⟨_, -, h⟩ := bind_eq_ok h
    cases h
    exact ⟨rfl, (if_neg hsome).symm⟩

/-- The buffers handed over are the batches just when no flush is mismatched. -/
theorem execute_batches {actions : List McastAction} {handed : List (List UInt8)}
    (hrun : execute (step log) s actions = .ok (s', handed)) :
    handed = McastAction.batches s.outboundData actions ↔ Never (step log) s actions Mismatched := by
  induction actions generalizing s handed with
  | nil =>
    cases hrun
    exact iff_of_true rfl never_nil
  | cons a actions ih =>
    obtain ⟨s₁, first, rest, hstep, hrest, rfl⟩ := execute_cons_ok hrun
    have hih := ih hrest
    rw [never_cons_iff hstep, ← hih]
    cases a with
    | send data =>
      obtain ⟨rfl, rfl⟩ := step_send hstep
      rw [List.nil_append, McastAction.batches]
      exact (and_iff_right id).symm
    | sendAndRecv data recvCallback n =>
      obtain ⟨hflushed, hfirst⟩ := sendAndRecv_cases hstep
      have hmismatched : Mismatched s (.sendAndRecv data recvCallback n) ↔
        s.outboundData ≠ [] ∧ (s.inboundAfter data recvCallback).length ≠ s.outboundData.length := Iff.rfl
      rw [hflushed, McastAction.batches, hmismatched]
      by_cases hpending : s.outboundData = []
      · rw [if_pos hpending] at hfirst ⊢
        rw [hfirst, List.nil_append]
        exact (and_iff_right fun hmis => hmis.1 hpending).symm
      · rw [if_neg hpending] at hfirst ⊢
        rw [hfirst, List.singleton_append, List.cons.injEq]
        have hsame := flushed_eq_iff { s with inboundData := s.inboundAfter data recvCallback }
        rw [hsame, and_iff_right hpending, ne_eq, not_not]

/-- The batches of a run and what waits at its end are all that was queued. -/
lemma flatten_batches {actions : List McastAction} {handed : List (List UInt8)}
    (hrun : execute (step log) s actions = .ok (s', handed)) :
    (McastAction.batches s.outboundData actions).flatten ++ s'.outboundData =
      s.outboundData ++ McastAction.queued actions := by
  induction actions generalizing s handed with
  | nil =>
    cases hrun
    simp [McastAction.batches, McastAction.queued]
  | cons a actions ih =>
    obtain ⟨s₁, first, rest, hstep, hrest, rfl⟩ := execute_cons_ok hrun
    have hih := ih hrest
    have hqueued : McastAction.queued (a :: actions) = McastAction.queued [a] ++ McastAction.queued actions := by
      simp [McastAction.queued]
    rw [hqueued]
    cases a with
    | send data =>
      obtain ⟨rfl, rfl⟩ := step_send hstep
      rw [McastAction.batches, hih]
      simp [McastAction.queued]
    | sendAndRecv data recvCallback n =>
      obtain ⟨hflushed, -⟩ := sendAndRecv_cases hstep
      rw [hflushed] at hih
      rw [McastAction.batches]
      split
      · rename_i hpending
        rw [hih, hpending]
        simp [McastAction.queued]
      · rw [List.flatten_cons, List.append_assoc, hih]
        simp [McastAction.queued]

end McastSocket

/-- A fresh socket's flushes hand over what was queued, in order and in full length, just when at each of them
as many bytes are inbound as outbound. -/
theorem multicast_flush {log : Log} {actions : List McastAction} {s : McastSocket} {handed : List (List UInt8)}
    (hrun : execute (McastSocket.step log) {} actions = .ok (s, handed)) :
    (handed = McastAction.batches [] actions ∧ handed.flatten ++ s.outboundData = McastAction.queued actions) ↔
      Never (McastSocket.step log) {} actions McastSocket.Mismatched := by
  have hbatches := McastSocket.execute_batches hrun
  have hqueued := McastSocket.flatten_batches hrun
  rw [← hbatches]
  constructor
  · exact And.left
  · rintro rfl
    exact ⟨rfl, hqueued⟩

/-- Two bytes are queued, and the flush finds these inbound. -/
lemma execute_flush (data : List UInt8) (n : Int) :
    execute (McastSocket.step Logger.log) {} [.send [1, 2], .sendAndRecv data id n] =
      .ok (McastSocket.flush { inboundData := data, outboundData := [1, 2] },
        [McastSocket.flushed { inboundData := data, outboundData := [1, 2] }]) := by
  have hsend : McastSocket.step Logger.log {} (.send [1, 2]) = .ok ({ outboundData := [1, 2] }, []) := by
    simp only [McastSocket.step]
    rw [McastSocket.send_eq (by decide), ok_bind, pure_eq_ok]
    rfl
  have hreceive : McastSocket.receive Logger.log { outboundData := [1, 2] } data id =
      .ok { inboundData := data, outboundData := [1, 2] } := by
    unfold McastSocket.receive
    split
    · rename_i hnone
      rw [pure_eq_ok, hnone]
    · dsimp only
      rw [Logger.counts_log _ _ rfl, ok_bind, pure_eq_ok]
      rfl
  have hflush : McastSocket.step Logger.log { outboundData := [1, 2] } (.sendAndRecv data id n) =
      .ok (McastSocket.flush { inboundData := data, outboundData := [1, 2] },
        [McastSocket.flushed { inboundData := data, outboundData := [1, 2] }]) := by
    simp only [McastSocket.step, McastSocket.sendAndRecv]
    rw [hreceive, ok_bind, if_neg (List.cons_ne_nil 1 [2]), Logger.counts_log _ _ rfl, ok_bind, pure_eq_ok]
  exact execute_cons hsend (execute_cons hflush (execute_nil _))

/-- Nothing is inbound, and nothing goes out. -/
theorem multicast_flush_fails : ∃ s handed,
    execute (McastSocket.step Logger.log) {} [.send [1, 2], .sendAndRecv [] id 0] = .ok (s, handed) ∧
      ¬(handed = McastAction.batches [] [.send [1, 2], .sendAndRecv [] id 0] ∧
        handed.flatten ++ s.outboundData = McastAction.queued [.send [1, 2], .sendAndRecv [] id 0]) := by
  refine ⟨_, _, execute_flush [] 0, ?_⟩
  decide

/-- Two bytes come in with the flush. -/
theorem multicast_flush_matched : ∃ s handed,
    execute (McastSocket.step Logger.log) {} [.send [1, 2], .sendAndRecv [3, 4] id 2] = .ok (s, handed) ∧
      handed = McastAction.batches [] [.send [1, 2], .sendAndRecv [3, 4] id 2] ∧
      handed.flatten ++ s.outboundData = McastAction.queued [.send [1, 2], .sendAndRecv [3, 4] id 2] := by
  have hrun := execute_flush [3, 4] 2
  refine ⟨_, _, hrun, (multicast_flush hrun).mpr (never_cons id fun s es hsend => never_cons ?_ fun _ _ _ => never_nil)⟩
  obtain ⟨rfl, -⟩ := McastSocket.step_send hsend
  rintro ⟨-, hlength⟩
  exact hlength rfl

end LowLatencyExchange
