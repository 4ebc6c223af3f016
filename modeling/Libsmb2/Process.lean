import Libsmb2.Commands
import Libsmb2.Util.Window

/-!
# What the decoders make of a message

`smb2_process_*_fixed` gets the fixed part of a message and returns how many octets are to be
read for the variable part; `smb2_process_*_variable` gets those.  The sums of offsets and lengths
are computed in 32 bits and returned as an `int`.

* `decodeBody` — both steps on the octets behind a header, and `decodeBody_of_pos`, what they make
  of a message whose variable part is complete.

No allocation fails here.
-/

set_option autoImplicit false

namespace Libsmb2

open Util

theorem length_noId : (zeros 16).length = 16 := length_zeros 16

/-- An identifier of zeros. -/
def noId : Octets 16 := ⟨zeros 16, length_noId⟩

/-- Subtraction of `uint32_t`. -/
def sub32 (a b : Nat) : Nat := if b ≤ a then a - b else a + 2 ^ 32 - b

theorem sub32_of_le {a b : Nat} (h : b ≤ a) : sub32 a b = a - b := if_pos h

theorem sub32_lt {a b : Nat} (h : a < 2 ^ 32) : sub32 a b < 2 ^ 32 := by
  unfold sub32
  split <;> omega

/-- A `uint32_t` sum that is returned as a positive `int` has not changed since it wrapped. -/
theorem toInt32_pos {n : Int} (h : 0 < toInt32 n) : toInt32 n = n % 4294967296 ∧
    n % 4294967296 < 2147483648 := by
  unfold toInt32 at h ⊢
  simp only at h ⊢
  split at h
  · rename_i hsmall
    rw [if_pos hsmall]
    exact ⟨rfl, hsmall⟩
  · have := Int.emod_lt_of_pos n (show (0 : Int) < 4294967296 by decide)
    omega

theorem toInt32_congr {a b : Int} (h : a % 4294967296 = b % 4294967296) : toInt32 a = toInt32 b := by
  unfold toInt32
  rw [h]

theorem toInt32_eq {n : Int} (hsmall : n % 4294967296 < 2147483648) :
    toInt32 n = n % 4294967296 := if_pos hsmall

section
variable {α β : Type}

/-- The fixed part and then, if there is one, the variable part of a message with these octets
behind its header: what is refused, or would have to be waited for, is `none`. -/
def decodeBody (size : Nat) (fixed : Bytes → Option (Int × α))
    (variablePart : α → Bytes → Except Overrun (Option β)) (body : Bytes) :
    Except Overrun (Option (α × Option β)) :=
  match fixed (body.take size) with
  | none => .ok none
  | some (n, payload) =>
    if n < 0 then .ok none
    else if n = 0 then .ok (some (payload, none))
    else if (body.length : Int) < size + n then .ok none
    else (variablePart payload (slice body size n.toNat)).map (Option.map fun b => (payload, some b))

section
variable {size : Nat} {fixed : Bytes → Option (Int × α)}
  {variablePart : α → Bytes → Except Overrun (Option β)}

/-- A message whose fixed part asks for octets that are there. -/
theorem decodeBody_of_pos {iov rest : Bytes} {n : Nat} {payload : α} (hsize : iov.length = size)
    (hfixed : fixed iov = some ((n : Int), payload)) (hpos : 0 < n) (hlen : n ≤ rest.length) :
    decodeBody size fixed variablePart (iov ++ rest) =
      (variablePart payload (rest.take n)).map (Option.map fun b => (payload, some b)) := by
  have htake : (iov ++ rest).take size = iov := List.take_left' hsize
  have hslice : slice (iov ++ rest) size n = rest.take n := by
    rw [slice_append_right (by omega), ← hsize, Nat.sub_self]
    rfl
  unfold decodeBody
  rw [htake, hfixed]
  simp only
  rw [if_neg (by omega), if_neg (by omega),
    if_neg (by rw [List.length_append, Nat.cast_add]; omega), Int.toNat_natCast, hslice]

/-- A message whose fixed part asks for nothing. -/
theorem decodeBody_of_zero {iov rest : Bytes} {payload : α} (hsize : iov.length = size)
    (hfixed : fixed iov = some (0, payload)) :
    decodeBody size fixed variablePart (iov ++ rest) = .ok (some (payload, none)) := by
  unfold decodeBody
  rw [List.take_left' hsize, hfixed]
  rfl

/-- What is decoded comes from the fixed part, or from a variable part that was asked for. -/
theorem decodeBody_eq_some {body : Bytes} {r : α × Option β}
    (h : decodeBody size fixed variablePart body = .ok (some r)) :
    ∃ n, fixed (body.take size) = some (n, r.1) ∧ (n = 0 ∧ r.2 = none ∨
      0 < n ∧ ∃ b, variablePart r.1 (slice body size n.toNat) = .ok (some b) ∧ r.2 = some b) := by
  unfold decodeBody at h
  split at h
  · cases h
  rename_i n payload hfixed
  split at h
  · cases h
  rename_i hneg
  split at h
  · rename_i hzero
    cases h
    exact ⟨n, hfixed, .inl ⟨hzero, rfl⟩⟩
  split at h
  · cases h
  cases hvar : variablePart payload (slice body size n.toNat) with
  | error e =>
    rw [hvar] at h
    cases h
  | ok result =>
    rw [hvar] at h
    cases result with
    | none => cases h
    | some b =>
      cases h
      exact ⟨n, hfixed, .inr ⟨by omega, b, hvar, rfl⟩⟩

end

/-- `smb2_utf16_to_utf8` on `len / 2` code units of a message. -/
def utf16At (v : Window) (off len : Nat) : Except Overrun CString :=
  (v.read off (len / 2 * 2)).map fun bs => .ofBytes (utf16ToUtf8 (utf16Units bs))

/-- Where there is room for it, fewer than eight zeros are added. -/
theorem padTo64Bit_of_lt {out : List Bytes} (h : out.length < MAX_VECTORS) :
    ∃ pad k, padTo64Bit out = some (out ++ pad) ∧ pad.flatten = zeros k ∧ k < 8 ∧
      (octetCount out + k) % 8 = 0 := by
  unfold padTo64Bit
  simp only
  split
  · rename_i hmod
    exact ⟨[], 0, by rw [List.append_nil], rfl, by decide, hmod⟩
  · rename_i hmod
    have hmod : octetCount out % 8 ≠ 0 := hmod
    refine ⟨_, 8 - octetCount out % 8, if_neg (by omega), ?_, by omega, by omega⟩
    rw [List.flatten_singleton]
    rfl

end

end Libsmb2
