import Mathlib.Data.List.Forall2
import Mathlib.Logic.Equiv.Defs
import Mathlib.Tactic.Common

/-!
# Records in byte streams

Integers of a fixed number of bytes, least significant byte first. Records whose fields
follow each other without padding, and streams of records of one size, which can be cut
anywhere: what is complete is split off, what is left waits for more bytes.
-/

namespace ByteStream

/-- How many values `n` bytes have. -/
def byteRange : Nat → Nat
  | 0 => 1
  | n + 1 => 256 * byteRange n

def toBytes : Nat → Nat → List UInt8
  | 0, _ => []
  | n + 1, v => UInt8.ofNat (v % 256) :: toBytes n (v / 256)

def ofBytes : List UInt8 → Nat
  | [] => 0
  | x :: xs => x.toNat + 256 * ofBytes xs

@[simp] lemma length_toBytes (n v : Nat) : (toBytes n v).length = n := by
  induction n generalizing v with
  | zero => rfl
  | succ n ih => simp only [toBytes, List.length_cons, ih]

lemma ofBytes_toBytes {n v : Nat} (h : v < byteRange n) : ofBytes (toBytes n v) = v := by
  induction n generalizing v with
  | zero =>
    unfold byteRange at h
    simp only [toBytes, ofBytes]
    omega
  | succ n ih =>
    unfold byteRange at h
    have hhigh : v / 256 < byteRange n := Nat.div_lt_of_lt_mul h
    have hlow : (UInt8.ofNat (v % 256)).toNat = v % 256 := by
      rw [UInt8.toNat_ofNat']
      exact Nat.mod_eq_of_lt (Nat.mod_lt v (by decide))
    rw [toBytes, ofBytes, ih hhigh, hlow]
    omega

lemma ofBytes_lt (xs : List UInt8) : ofBytes xs < byteRange xs.length := by
  induction xs with
  | nil => exact Nat.one_pos
  | cons x xs ih =>
    have hx : x.toNat < 256 := x.toNat_lt
    rw [ofBytes, List.length_cons, byteRange]
    omega

lemma toBytes_ofBytes (xs : List UInt8) : toBytes xs.length (ofBytes xs) = xs := by
  induction xs with
  | nil => rfl
  | cons x xs ih =>
    have hx : x.toNat < 256 := x.toNat_lt
    have hlow : (x.toNat + 256 * ofBytes xs) % 256 = x.toNat := by omega
    have hhigh : (x.toNat + 256 * ofBytes xs) / 256 = ofBytes xs := by omega
    rw [ofBytes, List.length_cons, toBytes, hlow, hhigh, ih, UInt8.ofNat_toNat]

/-- A type with the bytes of its values in memory. `Fits` holds for the values that the memory
can hold. -/
structure Packed (α : Type) where
  sizeof : Nat
  encode : α → List UInt8
  decode : List UInt8 → α
  Fits : α → Prop
  length_encode : ∀ x, (encode x).length = sizeof
  decode_encode : ∀ x, Fits x → decode (encode x) = x
  encode_decode : ∀ xs, xs.length = sizeof → encode (decode xs) = xs
  fits_decode : ∀ xs, xs.length = sizeof → Fits (decode xs)

namespace Packed
variable {α β : Type}

/-- An unsigned integer of `n` bytes. -/
def nat (n : Nat) : Packed Nat where
  sizeof := n
  encode := toBytes n
  decode := ofBytes
  Fits v := v < byteRange n
  length_encode := length_toBytes n
  decode_encode := fun _ h => ofBytes_toBytes h
  encode_decode := fun xs h => by
    rw [← h]
    exact toBytes_ofBytes xs
  fits_decode := fun xs h => by
    rw [← h]
    exact ofBytes_lt xs

/-- Two fields, the second one right behind the first. -/
def prod (p : Packed α) (q : Packed β) : Packed (α × β) where
  sizeof := p.sizeof + q.sizeof
  encode x := p.encode x.1 ++ q.encode x.2
  decode xs := (p.decode (xs.take p.sizeof), q.decode (xs.drop p.sizeof))
  Fits x := p.Fits x.1 ∧ q.Fits x.2
  length_encode := fun x => by rw [List.length_append, p.length_encode, q.length_encode]
  decode_encode := fun x h => by
    rw [List.take_left' (p.length_encode x.1), List.drop_left' (p.length_encode x.1), p.decode_encode _ h.1,
      q.decode_encode _ h.2]
  encode_decode := fun xs h => by
    have hfirst : (xs.take p.sizeof).length = p.sizeof := List.length_take_of_le (by omega)
    have hrest : (xs.drop p.sizeof).length = q.sizeof := by rw [List.length_drop]; omega
    rw [p.encode_decode _ hfirst, q.encode_decode _ hrest, List.take_append_drop]
  fits_decode := fun xs h => by
    have hfirst : (xs.take p.sizeof).length = p.sizeof := List.length_take_of_le (by omega)
    have hrest : (xs.drop p.sizeof).length = q.sizeof := by rw [List.length_drop]; omega
    exact ⟨p.fits_decode _ hfirst, q.fits_decode _ hrest⟩

/-- The same memory under another type. -/
def equiv (p : Packed α) (e : α ≃ β) : Packed β where
  sizeof := p.sizeof
  encode x := p.encode (e.symm x)
  decode xs := e (p.decode xs)
  Fits x := p.Fits (e.symm x)
  length_encode := fun x => p.length_encode _
  decode_encode := fun x h => by rw [p.decode_encode _ h, e.apply_symm_apply]
  encode_decode := fun xs h => by rw [e.symm_apply_apply, p.encode_decode xs h]
  fits_decode := fun xs h => by
    rw [e.symm_apply_apply]
    exact p.fits_decode xs h

end Packed

section Frames
variable {α : Type}

/-- The complete records of `n` bytes at the start of a buffer, and what is left. -/
def splitLoop (n : Nat) : Nat → List α → List (List α) × List α
  | 0, xs => ([], xs)
  | fuel + 1, xs =>
    if n ≤ xs.length then
      ((xs.take n) :: (splitLoop n fuel (xs.drop n)).1, (splitLoop n fuel (xs.drop n)).2)
    else ([], xs)

def frames (n : Nat) (xs : List α) : List (List α) := (splitLoop n xs.length xs).1
def leftover (n : Nat) (xs : List α) : List α := (splitLoop n xs.length xs).2

/-- A stream of complete records and less than one more. -/
structure Framed (n : Nat) (records : List (List α)) (rest : List α) : Prop where
  length : ∀ r ∈ records, r.length = n
  rest : rest.length < n

lemma splitLoop_eq {n : Nat} {records : List (List α)} {rest : List α} (h : Framed n records rest)
    {fuel : Nat} (hfuel : records.length ≤ fuel) :
    splitLoop n fuel (records.flatten ++ rest) = (records, rest) := by
  induction records generalizing fuel with
  | nil =>
    rw [List.flatten_nil, List.nil_append]
    cases fuel with
    | zero => rfl
    | succ fuel => rw [splitLoop, if_neg (Nat.not_le.mpr h.rest)]
  | cons r records ih =>
    have hr : r.length = n := h.length r List.mem_cons_self
    have htail : Framed n records rest := ⟨fun x hx => h.length x (List.mem_cons_of_mem r hx), h.rest⟩
    cases fuel with
    | zero => exact absurd hfuel (Nat.not_succ_le_zero _)
    | succ fuel =>
      have hle : n ≤ (r ++ (records.flatten ++ rest)).length := by
        rw [List.length_append, hr]
        exact Nat.le_add_right n _
      rw [List.flatten_cons, List.append_assoc, splitLoop, if_pos hle, List.take_left' hr, List.drop_left' hr,
        ih htail (Nat.le_of_succ_le_succ hfuel)]

lemma length_le_flatten {n : Nat} (hn : 0 < n) {records : List (List α)} (h : ∀ r ∈ records, r.length = n) :
    records.length ≤ records.flatten.length := by
  induction records with
  | nil => exact Nat.le_refl 0
  | cons r records ih =>
    have hr := h r List.mem_cons_self
    have hrest := ih fun x hx => h x (List.mem_cons_of_mem r hx)
    rw [List.flatten_cons, List.length_append, List.length_cons]
    omega

/-- The split is the only one. -/
theorem frames_eq {n : Nat} {records : List (List α)} {rest : List α} (h : Framed n records rest) :
    frames n (records.flatten ++ rest) = records ∧ leftover n (records.flatten ++ rest) = rest := by
  have hn : 0 < n := Nat.lt_of_le_of_lt (Nat.zero_le _) h.rest
  have hfuel : records.length ≤ (records.flatten ++ rest).length := by
    rw [List.length_append]
    exact Nat.le_trans (length_le_flatten hn h.length) (Nat.le_add_right _ _)
  rw [frames, leftover, splitLoop_eq h hfuel]
  exact ⟨rfl, rfl⟩

lemma splitLoop_framed {n : Nat} (hn : 0 < n) {fuel : Nat} {xs : List α} (hfuel : xs.length ≤ fuel) :
    Framed n (splitLoop n fuel xs).1 (splitLoop n fuel xs).2 ∧
      (splitLoop n fuel xs).1.flatten ++ (splitLoop n fuel xs).2 = xs := by
  induction fuel generalizing xs with
  | zero =>
    obtain rfl := List.length_eq_zero_iff.mp (Nat.le_zero.mp hfuel)
    exact ⟨⟨fun r hr => absurd hr List.not_mem_nil, hn⟩, rfl⟩
  | succ fuel ih =>
    rw [splitLoop]
    split
    · rename_i hle
      have hdrop : (xs.drop n).length ≤ fuel := by rw [List.length_drop]; omega
      obtain ⟨hframed, heq⟩ := ih hdrop
      refine ⟨⟨fun r hr => ?_, hframed.rest⟩, ?_⟩
      · rcases List.mem_cons.mp hr with rfl | hr
        · exact List.length_take_of_le hle
        · exact hframed.length r hr
      · rw [List.flatten_cons, List.append_assoc, heq, List.take_append_drop]
    · rename_i hlt
      exact ⟨⟨fun r hr => absurd hr List.not_mem_nil, Nat.not_le.mp hlt⟩, rfl⟩

theorem framed_frames {n : Nat} (hn : 0 < n) (xs : List α) : Framed n (frames n xs) (leftover n xs) :=
  (splitLoop_framed hn (Nat.le_refl _)).1

theorem flatten_frames {n : Nat} (hn : 0 < n) (xs : List α) : (frames n xs).flatten ++ leftover n xs = xs :=
  (splitLoop_framed hn (Nat.le_refl _)).2

/-- More bytes behind a buffer: the records that were complete stay, the rest goes on. -/
theorem frames_append {n : Nat} (hn : 0 < n) (xs ys : List α) :
    frames n (xs ++ ys) = frames n xs ++ frames n (leftover n xs ++ ys) ∧
      leftover n (xs ++ ys) = leftover n (leftover n xs ++ ys) := by
  have h := framed_frames hn xs
  have h' := framed_frames hn (leftover n xs ++ ys)
  have hboth : Framed n (frames n xs ++ frames n (leftover n xs ++ ys)) (leftover n (leftover n xs ++ ys)) := by
    refine ⟨fun r hr => ?_, h'.rest⟩
    rcases List.mem_append.mp hr with hr | hr
    · exact h.length r hr
    · exact h'.length r hr
  have heq : (frames n xs ++ frames n (leftover n xs ++ ys)).flatten ++ leftover n (leftover n xs ++ ys) =
      xs ++ ys := by
    rw [List.flatten_append, List.append_assoc, flatten_frames hn, ← List.append_assoc, flatten_frames hn]
  have hframes := frames_eq hboth
  rwa [heq] at hframes

lemma frames_of_lt {n : Nat} {xs : List α} (h : xs.length < n) : frames n xs = [] ∧ leftover n xs = xs := by
  have hframed : Framed n [] xs := ⟨fun _ hr => absurd hr List.not_mem_nil, h⟩
  exact frames_eq hframed

lemma frames_flatten {n : Nat} (hn : 0 < n) {records : List (List α)} (h : ∀ r ∈ records, r.length = n) :
    frames n records.flatten = records := by
  have hframed : Framed n records [] := ⟨h, hn⟩
  have hframes := (frames_eq hframed).1
  rwa [List.append_nil] at hframes

lemma length_flatten {n : Nat} {records : List (List α)} (h : ∀ r ∈ records, r.length = n) :
    records.flatten.length = n * records.length := by
  induction records with
  | nil => rfl
  | cons r records ih =>
    rw [List.flatten_cons, List.length_append, h r List.mem_cons_self,
      ih fun x hx => h x (List.mem_cons_of_mem r hx), List.length_cons, Nat.mul_succ, Nat.add_comm]

lemma length_frames {n : Nat} (hn : 0 < n) (xs : List α) : (frames n xs).length = xs.length / n := by
  have hframed := framed_frames hn xs
  have hlength : xs.length = n * (frames n xs).length + (leftover n xs).length := by
    rw [← length_flatten hframed.length, ← List.length_append, flatten_frames hn]
  rw [hlength, Nat.mul_add_div hn, Nat.div_eq_of_lt hframed.rest, Nat.add_zero]

/-- What has arrived of a stream of records holds the first records of it. -/
theorem frames_of_isPrefix {n : Nat} (hn : 0 < n) {records : List (List α)} (h : ∀ r ∈ records, r.length = n)
    {xs : List α} (hxs : xs <+: records.flatten) : frames n xs = records.take (xs.length / n) := by
  obtain ⟨ys, hys⟩ := hxs
  have happend := (frames_append hn xs ys).1
  rw [hys, frames_flatten hn h] at happend
  rw [happend, ← length_frames hn, List.take_left]

@[simp] lemma frames_nil (n : Nat) : frames n ([] : List α) = [] := rfl
@[simp] lemma leftover_nil (n : Nat) : leftover n ([] : List α) = [] := rfl

end Frames
end ByteStream
