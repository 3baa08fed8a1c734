import LowLatencyExchange.Common.Logger
import LowLatencyExchange.Library.ByteStream

/-!
# TCP sockets

The two buffers of `Common::TCPSocket`. The inbound buffer holds what was read and not yet
consumed by the receive callback. The outbound buffer holds everything that was queued.
-/

namespace LowLatencyExchange
open ByteStream

/-- `inboundData` is `inbound_data_` up to `next_rcv_valid_index_`. -/
structure TCPSocket where
  socketFd : Nat := 0
  inboundData : List UInt8 := []
  outboundData : List UInt8 := []
  timeStr : String := ""

namespace TCPSocket

/-- The read of `sendAndRecv`. -/
def recv (s : TCPSocket) (data : List UInt8) : TCPSocket :=
  { s with inboundData := s.inboundData ++ data }

/-- For a buffer that is flushed in time. The `memcpy` does not check the 64 MiB of `outbound_data_`. -/
def send (s : TCPSocket) (data : List UInt8) : TCPSocket :=
  { s with outboundData := s.outboundData ++ data }

/-- What `recvMessages` goes through: the complete records of `n` bytes. -/
def records (s : TCPSocket) (n : Nat) : List (List UInt8) := frames n s.inboundData

/-- The `memcpy` after the loop over the records. -/
def consume (s : TCPSocket) (n : Nat) : TCPSocket :=
  { s with inboundData := leftover n s.inboundData }

@[simp] lemma inboundData_recv (s : TCPSocket) (data : List UInt8) :
    (s.recv data).inboundData = s.inboundData ++ data := rfl
@[simp] lemma outboundData_recv (s : TCPSocket) (data : List UInt8) :
    (s.recv data).outboundData = s.outboundData := rfl
@[simp] lemma inboundData_send (s : TCPSocket) (data : List UInt8) :
    (s.send data).inboundData = s.inboundData := rfl
@[simp] lemma outboundData_send (s : TCPSocket) (data : List UInt8) :
    (s.send data).outboundData = s.outboundData ++ data := rfl
@[simp] lemma inboundData_consume (s : TCPSocket) (n : Nat) :
    (s.consume n).inboundData = leftover n s.inboundData := rfl
@[simp] lemma outboundData_consume (s : TCPSocket) (n : Nat) :
    (s.consume n).outboundData = s.outboundData := rfl

end TCPSocket

/-- `size_t` on the wire. -/
def sizeT : Packed Nat := Packed.nat 8

lemma wrap64_lt_byteRange (n : Nat) : wrap64 n < byteRange 8 := Nat.mod_lt _ (by decide)

/-- The bytes that were queued for a sequence of messages, each behind its number. -/
def numberedStream {α : Type} (p : Packed α) : Nat → List α → List UInt8
  | _, [] => []
  | seqNum, x :: xs => sizeT.encode seqNum ++ p.encode x ++ numberedStream p (wrap64 (seqNum + 1)) xs

section Numbered
variable {α : Type} (p : Packed α)

/-- The same bytes, message by message. -/
def numberedFrames : Nat → List α → List (List UInt8)
  | _, [] => []
  | seqNum, x :: xs => (sizeT.prod p).encode (seqNum, x) :: numberedFrames (wrap64 (seqNum + 1)) xs

lemma numberedStream_eq_flatten (seqNum : Nat) (xs : List α) :
    numberedStream p seqNum xs = (numberedFrames p seqNum xs).flatten := by
  induction xs generalizing seqNum with
  | nil => rfl
  | cons x xs ih =>
    rw [numberedStream, numberedFrames, List.flatten_cons, ih]
    rfl

lemma length_of_mem_numberedFrames {seqNum : Nat} {xs : List α} {record : List UInt8}
    (h : record ∈ numberedFrames p seqNum xs) : record.length = (sizeT.prod p).sizeof := by
  induction xs generalizing seqNum with
  | nil => exact absurd h List.not_mem_nil
  | cons x xs ih =>
    rcases List.mem_cons.mp h with rfl | h
    · exact (sizeT.prod p).length_encode (seqNum, x)
    · exact ih h

lemma length_numberedFrames (seqNum : Nat) (xs : List α) : (numberedFrames p seqNum xs).length = xs.length := by
  induction xs generalizing seqNum with
  | nil => rfl
  | cons x xs ih => rw [numberedFrames, List.length_cons, List.length_cons, ih]

lemma numberedFrames_take (seqNum k : Nat) (xs : List α) :
    (numberedFrames p seqNum xs).take k = numberedFrames p seqNum (xs.take k) := by
  induction xs generalizing seqNum k with
  | nil => rw [List.take_nil, numberedFrames, List.take_nil]
  | cons x xs ih =>
    cases k with
    | zero => rfl
    | succ k => rw [numberedFrames, List.take_succ_cons, List.take_succ_cons, numberedFrames, ih]

lemma numberedFrames_drop (seqNum k : Nat) (xs : List α) :
    (numberedFrames p (wrap64 seqNum) xs).drop k = numberedFrames p (wrap64 (seqNum + k)) (xs.drop k) := by
  induction xs generalizing seqNum k with
  | nil => rw [List.drop_nil, numberedFrames, numberedFrames, List.drop_nil]
  | cons x xs ih =>
    cases k with
    | zero => rfl
    | succ k =>
      rw [numberedFrames, List.drop_succ_cons, List.drop_succ_cons, wrap64_succ, ih]
      congr 2
      omega

lemma numbered_pos : 0 < (sizeT.prod p).sizeof := Nat.lt_of_lt_of_le (by decide) (Nat.le_add_right 8 p.sizeof)

variable {p} {seqNum : Nat} {xs : List α} {received data : List UInt8}

/-- The messages of a stream that are complete once these bytes of it have arrived. -/
def arrived (p : Packed α) (xs : List α) (received : List UInt8) : List α :=
  xs.take (received.length / (sizeT.prod p).sizeof)

theorem frames_received (h : received <+: numberedStream p seqNum xs) :
    frames (sizeT.prod p).sizeof received = numberedFrames p seqNum (arrived p xs received) := by
  rw [numberedStream_eq_flatten] at h
  rw [frames_of_isPrefix (numbered_pos p) (fun _ => length_of_mem_numberedFrames p) h, numberedFrames_take, arrived]

/-- More bytes of the stream complete the next messages of it. -/
theorem frames_next (seqNum : Nat) (h : received ++ data <+: numberedStream p (wrap64 seqNum) xs) :
    ∃ ys, arrived p xs (received ++ data) = arrived p xs received ++ ys ∧
      frames (sizeT.prod p).sizeof (leftover (sizeT.prod p).sizeof received ++ data) =
        numberedFrames p (wrap64 (seqNum + (arrived p xs received).length)) ys := by
  have hbefore := frames_received ((List.prefix_append received data).trans h)
  have hcount := congrArg List.length hbefore
  rw [length_numberedFrames] at hcount
  have hall := frames_received h
  rw [(frames_append (numbered_pos p) received data).1] at hall
  have hnext := congrArg (List.drop (frames (sizeT.prod p).sizeof received).length) hall
  rw [List.drop_left, hcount, numberedFrames_drop] at hnext
  have hle : received.length / (sizeT.prod p).sizeof ≤ (received ++ data).length / (sizeT.prod p).sizeof := by
    rw [List.length_append]
    exact Nat.div_le_div_right (Nat.le_add_right _ _)
  refine ⟨_, ?_, hnext⟩
  have hfirst : arrived p xs received =
      (arrived p xs (received ++ data)).take (received.length / (sizeT.prod p).sizeof) := by
    rw [arrived, arrived, List.take_take, Nat.min_eq_left hle]
  rw [← hcount, length_frames (numbered_pos p), hfirst, List.take_append_drop]

/-- What has arrived is the bytes of the messages that are complete, and what is left over. -/
lemma received_eq (h : received <+: numberedStream p seqNum xs) :
    received = numberedStream p seqNum (arrived p xs received) ++ leftover (sizeT.prod p).sizeof received := by
  rw [numberedStream_eq_flatten, ← frames_received h, flatten_frames (numbered_pos p)]

/-- Once all of a stream has arrived, every message is complete and nothing is left over. -/
lemma arrived_all : arrived p xs (numberedStream p seqNum xs) = xs ∧
    leftover (sizeT.prod p).sizeof (numberedStream p seqNum xs) = [] := by
  have hlength : (numberedStream p seqNum xs).length = (sizeT.prod p).sizeof * xs.length := by
    rw [numberedStream_eq_flatten, length_flatten fun _ => length_of_mem_numberedFrames p, length_numberedFrames]
  have htake : arrived p xs (numberedStream p seqNum xs) = xs := by
    rw [arrived, hlength, Nat.mul_div_cancel_left _ (numbered_pos p), List.take_length]
  have heq := received_eq (List.prefix_refl (numberedStream p seqNum xs))
  rw [htake] at heq
  exact ⟨htake, List.self_eq_append_right.mp heq⟩

end Numbered

end LowLatencyExchange
