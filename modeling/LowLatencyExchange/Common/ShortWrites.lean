import LowLatencyExchange.Common.TCPSocket
import LowLatencyExchange.Library.Run

/-!
# Short writes

`TCPSocket::sendAndRecv` empties the outbound buffer whatever `::send` took of it. The bytes that
the kernel did not take are lost.
-/

namespace LowLatencyExchange
open LoggedRun

def TCPBufferSize : Nat := 64 * 1024 * 1024

/-- What `::send` returns for a length: -1, or how many of these bytes it took. -/
abbrev KernelSend := (len : Nat) → Option (Fin (len + 1))

namespace KernelSend

def result (kernelSend : KernelSend) (len : Nat) : Int :=
  match kernelSend len with
  | none => -1
  | some n => n.val

/-- The bytes it took. -/
def taken (kernelSend : KernelSend) (data : List UInt8) : List UInt8 :=
  match kernelSend data.length with
  | none => []
  | some n => data.take n

/-- It took everything, or fewer bytes than it was offered. -/
lemma taken_cases (kernelSend : KernelSend) {data : List UInt8} (hdata : data ≠ []) :
    (kernelSend data.length = some (Fin.last data.length) ∧ kernelSend.taken data = data) ∨
    (kernelSend data.length ≠ some (Fin.last data.length) ∧ (kernelSend.taken data).length < data.length) := by
  unfold taken
  cases hn : kernelSend data.length with
  | none =>
    right
    exact ⟨(Option.some_ne_none _).symm, List.length_pos_of_ne_nil hdata⟩
  | some n =>
    by_cases hlast : n = Fin.last data.length
    · left
      subst hlast
      exact ⟨rfl, List.take_length⟩
    · right
      have hlt : n.val < data.length := Fin.val_lt_last hlast
      refine ⟨fun hall => hlast (Option.some.inj hall), ?_⟩
      rw [List.length_take]
      omega

end KernelSend

/-- The calls that the owner of a socket makes. -/
inductive TCPAction
  | send (data : List UInt8)
  | sendAndRecv (data : List UInt8) (kernelTime userTime : Nanos) (recvCallback : List UInt8 → List UInt8)
    (kernelSend : KernelSend)

namespace TCPAction

def sentData : TCPAction → List UInt8
  | .send data => data
  | .sendAndRecv _ _ _ _ _ => []

/-- All data passed to `send`. -/
def queued (actions : List TCPAction) : List UInt8 := actions.flatMap sentData

@[simp] lemma queued_cons (a : TCPAction) (actions : List TCPAction) :
    queued (a :: actions) = a.sentData ++ queued actions := List.flatMap_cons

end TCPAction

namespace TCPSocket

/-- The first half of `sendAndRecv`, for the bytes it read and what the callback leaves of the inbound
data. -/
def receive (log : Log) (s : TCPSocket) (data : List UInt8) (kernelTime userTime : Nanos)
    (recvCallback : List UInt8 → List UInt8) : Except Fault TCPSocket :=
  if data = [] then pure s
  else do
    let s := s.recv data
    log "%:% %() % read socket:% len:% utime:% ktime:% diff:%\n" [.text "tcp_socket.cpp", .number 39,
      .text "sendAndRecv", .text s.timeStr, .number s.socketFd, .number s.inboundData.length, .text (toString userTime),
      .text (toString kernelTime), .text (toString (userTime - kernelTime))]
    pure { s with inboundData := recvCallback s.inboundData }

/-- The second half, and the bytes that the kernel took. -/
def publish (log : Log) (s : TCPSocket) (kernelSend : KernelSend) : Except Fault (TCPSocket × List UInt8) :=
  if s.outboundData = [] then pure (s, [])
  else do
    log "%:% %() % send socket:% len:%\n" [.text "tcp_socket.cpp", .number 48, .text "sendAndRecv", .text s.timeStr,
      .number s.socketFd, .text (toString (kernelSend.result s.outboundData.length))]
    -- `next_send_valid_index_` goes back to 0 in any case
    pure ({ s with outboundData := [] }, kernelSend.taken s.outboundData)

/-- The copy of `send` leaves the buffer when it is full; nothing checks that. -/
def step (log : Log) (s : TCPSocket) : TCPAction → Except Fault (TCPSocket × List UInt8)
  | .send data =>
    if s.outboundData.length + data.length ≤ TCPBufferSize then pure (s.send data, []) else .error .outOfRange
  | .sendAndRecv data kernelTime userTime recvCallback kernelSend => do
    let s ← s.receive log data kernelTime userTime recvCallback
    s.publish log kernelSend

/-- A `::send` that takes less than it is offered. -/
def ShortWrite (s : TCPSocket) : TCPAction → Prop
  | .send _ => False
  | .sendAndRecv _ _ _ _ kernelSend =>
    s.outboundData ≠ [] ∧ kernelSend s.outboundData.length ≠ some (Fin.last s.outboundData.length)

variable {log : Log} {s s' : TCPSocket}

lemma receive_cases {data : List UInt8} {kernelTime userTime : Nanos} {recvCallback : List UInt8 → List UInt8}
    (h : s.receive log data kernelTime userTime recvCallback = .ok s') : s'.outboundData = s.outboundData := by
  unfold receive at h
  split at h
  · cases h
    rfl
  · obtain ⟨_, -, h⟩ := bind_eq_ok h
    cases h
    rfl

lemma publish_cases {kernelSend : KernelSend} {accepted : List UInt8}
    (h : s.publish log kernelSend = .ok (s', accepted)) :
    s'.outboundData = [] ∧ accepted = if s.outboundData = [] then [] else kernelSend.taken s.outboundData := by
  unfold publish at h
  split at h
  · rename_i hnone
    cases h
    exact ⟨hnone, (if_pos hnone).symm⟩
  · rename_i hsome
    obtain ⟨_, -, h⟩ := bind_eq_ok h
    cases h
    exact ⟨rfl, (if_neg hsome).symm⟩

/-- What one call does to the bytes: none is lost, or it is a short write that has lost some. -/
lemma step_cases {a : TCPAction} {accepted : List UInt8} (h : s.step log a = .ok (s', accepted)) :
    (accepted ++ s'.outboundData = s.outboundData ++ a.sentData ∧ ¬s.ShortWrite a) ∨
    (accepted.length + s'.outboundData.length < s.outboundData.length + a.sentData.length ∧ s.ShortWrite a) := by
  cases a with
  | send data =>
    simp only [step] at h
    split at h
    · cases h
      exact .inl ⟨rfl, id⟩
    · cases h
  | sendAndRecv data kernelTime userTime recvCallback kernelSend =>
    obtain ⟨s₁, hreceive, hpublish⟩ := bind_eq_ok h
    obtain ⟨hempty, haccepted⟩ := publish_cases hpublish
    rw [receive_cases hreceive] at haccepted
    rw [hempty, haccepted, TCPAction.sentData, List.append_nil, List.append_nil, ShortWrite]
    by_cases hpending : s.outboundData = []
    · left
      rw [if_pos hpending, hpending]
      exact ⟨rfl, fun hshort => hshort.1 rfl⟩
    · rw [if_neg hpending]
      rcases kernelSend.taken_cases hpending with ⟨hall, htaken⟩ | ⟨hshort, hlt⟩
      · left
        exact ⟨htaken, fun hshort => hshort.2 hall⟩
      · right
        exact ⟨hlt, hpending, hshort⟩

/-- No run makes bytes. -/
lemma length_execute {actions : List TCPAction} {accepted : List UInt8}
    (hrun : execute (step log) s actions = .ok (s', accepted)) :
    accepted.length + s'.outboundData.length ≤ s.outboundData.length + (TCPAction.queued actions).length := by
  induction actions generalizing s accepted with
  | nil =>
    cases hrun
    exact Nat.le_of_eq (Nat.add_comm 0 _)
  | cons a actions ih =>
    obtain ⟨s₁, first, rest, hstep, hrest, rfl⟩ := execute_cons_ok hrun
    have hih := ih hrest
    rw [TCPAction.queued_cons, List.length_append, List.length_append]
    rcases step_cases hstep with ⟨hkept, -⟩ | ⟨hlost, -⟩
    · have hlength := congrArg List.length hkept
      rw [List.length_append, List.length_append] at hlength
      omega
    · omega

/-- The bytes that the kernel took and those that wait are all that was passed on, just when no write was
short. -/
theorem execute_iff {actions : List TCPAction} {accepted : List UInt8}
    (hrun : execute (step log) s actions = .ok (s', accepted)) :
    accepted ++ s'.outboundData = s.outboundData ++ TCPAction.queued actions ↔
      Never (step log) s actions ShortWrite := by
  induction actions generalizing s accepted with
  | nil =>
    cases hrun
    exact iff_of_true (List.append_nil _).symm never_nil
  | cons a actions ih =>
    obtain ⟨s₁, first, rest, hstep, hrest, rfl⟩ := execute_cons_ok hrun
    rw [never_cons_iff hstep, ← ih hrest, TCPAction.queued_cons]
    rcases step_cases hstep with ⟨hkept, hnot⟩ | ⟨hlost, hshort⟩
    · rw [and_iff_right hnot, List.append_assoc, ← List.append_assoc s.outboundData, ← hkept, List.append_assoc,
        List.append_cancel_left_eq]
    · refine iff_of_false (fun heq => ?_) fun hboth => hboth.1 hshort
      have hlength := congrArg List.length heq
      have hle := length_execute hrest
      simp only [List.length_append] at hlength
      omega

end TCPSocket

/-- Of a fresh socket, the kernel has taken, in order, all that was queued but what still waits, just when no
write was short. -/
theorem short_writes {log : Log} {actions : List TCPAction} {s : TCPSocket} {accepted : List UInt8}
    (hrun : execute (TCPSocket.step log) {} actions = .ok (s, accepted)) :
    accepted ++ s.outboundData = TCPAction.queued actions ↔
      Never (TCPSocket.step log) {} actions TCPSocket.ShortWrite := TCPSocket.execute_iff hrun

/-- Two bytes are queued and flushed. -/
def queueTwo (kernelSend : KernelSend) : List TCPAction := [.send [1, 2], .sendAndRecv [] 0 0 id kernelSend]

lemma execute_queueTwo (kernelSend : KernelSend) : execute (TCPSocket.step Logger.log) {} (queueTwo kernelSend) =
    .ok ({}, kernelSend.taken [1, 2]) := by
  have hsend : TCPSocket.step Logger.log {} (.send [1, 2]) = .ok ({ outboundData := [1, 2] }, []) := rfl
  have hflush : TCPSocket.step Logger.log { outboundData := [1, 2] } (.sendAndRecv [] 0 0 id kernelSend) =
      .ok ({}, kernelSend.taken [1, 2]) := by
    simp only [TCPSocket.step, TCPSocket.receive, TCPSocket.publish]
    rw [if_pos trivial, pure_eq_ok, ok_bind, if_neg (List.cons_ne_nil 1 [2]), Logger.counts_log _ _ rfl, ok_bind, pure_eq_ok]
  have hrun := execute_cons hsend (execute_cons hflush (execute_nil _))
  rwa [List.nil_append, List.append_nil] at hrun

/-- The kernel's buffer is full. -/
theorem short_writes_fails : ∃ s accepted,
    execute (TCPSocket.step Logger.log) {} (queueTwo fun _ => none) = .ok (s, accepted) ∧
      accepted ++ s.outboundData ≠ TCPAction.queued (queueTwo fun _ => none) :=
  ⟨_, _, execute_queueTwo _, by decide⟩

/-- The kernel takes both bytes. -/
theorem short_writes_full : ∃ s accepted,
    execute (TCPSocket.step Logger.log) {} (queueTwo fun len => some (Fin.last len)) = .ok (s, accepted) ∧
      accepted ++ s.outboundData = TCPAction.queued (queueTwo fun len => some (Fin.last len)) := by
  have hrun := execute_queueTwo fun len => some (Fin.last len)
  refine ⟨_, _, hrun, (short_writes hrun).mpr (never_cons id fun _ _ _ => never_cons ?_ fun _ _ _ => never_nil)⟩
  exact fun hshort => hshort.2 rfl

end LowLatencyExchange
