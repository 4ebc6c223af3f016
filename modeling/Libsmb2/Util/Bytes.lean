import Mathlib.Data.List.Basic
import Mathlib.Tactic

/-!
# Octet strings

Fixed-width integers on the wire, slices and in-place patches of octet strings, and
C's conversion of an unsigned quantity to a 32-bit `int`.  Nothing here knows about SMB.

* `fromLe_le` — a little-endian field reads back modulo its width;
* `slice_patch_same`, `slice_patch_before` — a patched field reads back, and the ones before it are
  unchanged;
* `slice_slice` — a field of a field;
* `toInt32_of_lt`, `toInt32_nonneg` — small quantities survive the conversion to `int`, and
  others are taken for negative ones.
-/

set_option autoImplicit false

namespace Libsmb2.Util

abbrev Bytes := List UInt8

/-- The `k` octets of `n`, least significant first. -/
def le : Nat → Nat → Bytes
  | 0, _ => []
  | k + 1, n => UInt8.ofNat n :: le k (n / 256)

/-- The value of a little-endian field. -/
def fromLe : Bytes → Nat
  | [] => 0
  | b :: bs => b.toNat + 256 * fromLe bs

/-- `htobe32`: the four octets of `n`, most significant first. -/
def be32 (n : Nat) : Bytes := (le 4 n).reverse

/-- `be32toh` of the first four octets. -/
def fromBe (bs : Bytes) : Nat := fromLe bs.reverse

/-- `len` octets from offset `off`. -/
def slice (bs : Bytes) (off len : Nat) : Bytes := (bs.drop off).take len

/-- Overwrite `bs` at offset `off` with `new`, as a `memcpy` into a buffer does. -/
def patch (bs : Bytes) (off : Nat) (new : Bytes) : Bytes :=
  bs.take off ++ new ++ bs.drop (off + new.length)

def zeros (n : Nat) : Bytes := List.replicate n 0

/-- Conversion of an unsigned 64-bit quantity to a 32-bit two's complement `int`. -/
def toInt32 (n : Int) : Int :=
  let m := n % 4294967296
  if m < 2147483648 then m else m - 4294967296

@[simp] theorem length_le (k n : Nat) : (le k n).length = k := by
  induction k generalizing n with
  | zero => rfl
  | succ k ih => simp [le, ih]

@[simp] theorem length_be32 (n : Nat) : (be32 n).length = 4 := by
  simp [be32]

@[simp] theorem length_zeros (n : Nat) : (zeros n).length = n := by
  simp [zeros]

theorem length_slice (bs : Bytes) (off len : Nat) :
    (slice bs off len).length = min len (bs.length - off) := by
  simp [slice]

variable {bs new y x a b : Bytes}

theorem slice_append_right {off n : Nat} (h : x.length ≤ off) :
    slice (x ++ y) off n = slice y (off - x.length) n := by
  simp [slice, List.drop_append, List.drop_of_length_le h]

theorem slice_append_left {off n : Nat} (h : off + n ≤ x.length) :
    slice (x ++ y) off n = slice x off n := by
  simp only [slice]
  rw [List.drop_append_of_le_length (by omega), List.take_append_of_le_length (by simp; omega)]

theorem slice_zero {n : Nat} (h : x.length ≤ n) : slice x 0 n = x := by
  simp [slice, List.take_of_length_le h]

/-- A field of a field. -/
theorem slice_slice {a n o k : Nat} (h : o + k ≤ n) :
    slice (slice bs a n) o k = slice bs (a + o) k := by
  simp only [slice]
  rw [List.drop_take, List.take_take, List.drop_drop, Nat.min_eq_left (by omega)]

theorem slice_skip_le {k n off len : Nat} (h : k ≤ off) :
    slice (le k n ++ y) off len = slice y (off - k) len := by
  have hlen := length_le k n
  rw [slice_append_right (by omega), hlen]

theorem slice_here_le {k n : Nat} : slice (le k n ++ y) 0 k = le k n := by
  simp [slice]

theorem slice_add (bs : Bytes) (off a b : Nat) :
    slice bs off (a + b) = slice bs off a ++ slice bs (off + a) b := by
  unfold slice
  rw [List.take_add, List.drop_drop]

theorem slice_take (bs : Bytes) (off : Nat) {a b : Nat} (h : a ≤ b) :
    slice bs off a = (slice bs off b).take a := by
  unfold slice
  rw [List.take_take, min_eq_left h]

theorem fromLe_le (k n : Nat) : fromLe (le k n) = n % 256 ^ k := by
  induction k generalizing n with
  | zero => simp [le, fromLe, Nat.mod_one]
  | succ k ih =>
    have hpow : 256 ^ (k + 1) = 256 * 256 ^ k := Nat.pow_succ'
    rw [hpow, Nat.mod_mul]
    simp [le, fromLe, ih]

/-- A little-endian field of this value. -/
theorem le_fromLe (bs : Bytes) : le bs.length (fromLe bs) = bs := by
  induction bs with
  | nil => rfl
  | cons b bs ih =>
    have hb := b.toNat_lt
    have hdiv : (b.toNat + 256 * fromLe bs) / 256 = fromLe bs := by omega
    have hhead : UInt8.ofNat (b.toNat + 256 * fromLe bs) = b := by
      apply UInt8.toNat.inj
      simp only [UInt8.toNat_ofNat']
      omega
    simp only [List.length_cons, le, fromLe, hdiv, hhead, ih]

theorem fromLe_lt (bs : Bytes) : fromLe bs < 256 ^ bs.length := by
  induction bs with
  | nil => simp [fromLe]
  | cons b bs ih =>
    have hb := b.toNat_lt
    have hpow : 256 ^ (b :: bs).length = 256 * 256 ^ bs.length := Nat.pow_succ'
    simp only [fromLe, hpow]
    omega

theorem fromLe_slice_lt (bs : Bytes) (off k : Nat) : fromLe (slice bs off k) < 256 ^ k := by
  have hle : (slice bs off k).length ≤ k := by
    rw [length_slice]
    exact Nat.min_le_left _ _
  exact Nat.lt_of_lt_of_le (fromLe_lt _) (Nat.pow_le_pow_right (by decide) hle)

theorem fromBe_lt (h : bs.length ≤ 4) : fromBe bs < 4294967296 := by
  have hlt := fromLe_lt bs.reverse
  have hpow : 256 ^ bs.reverse.length ≤ 256 ^ 4 :=
    Nat.pow_le_pow_right (by decide) (by simpa using h)
  exact Nat.lt_of_lt_of_le hlt hpow

theorem length_patch {off : Nat} (h : off + new.length ≤ bs.length) :
    (patch bs off new).length = bs.length := by
  simp only [patch, List.length_append, List.length_take, List.length_drop]
  omega

/-- A patched field reads back. -/
theorem slice_patch_same {off : Nat} (h : off ≤ bs.length) :
    slice (patch bs off new) off new.length = new := by
  have hl : (bs.take off).length = off := by simp [h]
  simp only [slice, patch, List.append_assoc]
  rw [List.drop_append_of_le_length (by omega), List.drop_of_length_le (by omega)]
  simp

/-- A field before the patch is unchanged. -/
theorem slice_patch_before {off o n : Nat} (ho : o + n ≤ off)
    (h : off ≤ bs.length) : slice (patch bs off new) o n = slice bs o n := by
  have hl : (bs.take off).length = off := by simp [h]
  simp only [slice, patch, List.append_assoc]
  rw [List.drop_append_of_le_length (by omega), List.take_append_of_le_length (by simp; omega),
    List.drop_take, List.take_take]
  congr 1
  omega

theorem drop_patch {off k : Nat} (hoff : off ≤ bs.length)
    (hk : off + new.length ≤ k) : (patch bs off new).drop k = bs.drop k := by
  have hlen : (bs.take off ++ new).length = off + new.length := by simp [hoff]
  rw [patch, List.drop_append, hlen, List.drop_of_length_le (by omega), List.nil_append,
    List.drop_drop]
  congr 1
  omega

/-- A field behind the patch is unchanged. -/
theorem slice_patch_after {off o n : Nat} (hoff : off ≤ bs.length)
    (ho : off + new.length ≤ o) : slice (patch bs off new) o n = slice bs o n := by
  rw [slice, drop_patch hoff ho, slice]

/-- A patch with what is there. -/
theorem patch_slice {off n : Nat} (h : off + n ≤ bs.length) :
    patch bs off (slice bs off n) = bs := by
  have hn : (slice bs off n).length = n := by
    rw [length_slice]
    omega
  rw [patch, hn, List.append_assoc, slice, ← List.drop_drop, List.take_append_drop,
    List.take_append_drop]

/-- A patch with the field of another buffer extends the part in which the two agree. -/
theorem take_patch_slice {off n : Nat} (hab : a.take off = b.take off)
    (hb : off + n ≤ b.length) (ha : off ≤ a.length) :
    (patch a off (slice b off n)).take (off + n) = b.take (off + n) := by
  have hn : (slice b off n).length = n := by
    rw [length_slice]
    omega
  have hlen : (a.take off ++ slice b off n).length = off + n := by
    rw [List.length_append, List.length_take, hn, Nat.min_eq_left ha]
  rw [patch, List.take_left' hlen, hab, List.take_add]
  rfl

theorem patch_append {off : Nat} (hle : off + new.length ≤ a.length) :
    patch (a ++ b) off new = patch a off new ++ b := by
  simp only [patch]
  rw [List.take_append_of_le_length (by omega), List.drop_append_of_le_length (by omega)]
  simp

/-- The second of two patches of one field wins. -/
theorem patch_patch {a old new : Bytes} {off : Nat} (hlen : old.length = new.length)
    (hle : off + new.length ≤ a.length) : patch (patch a off old) off new = patch a off new := by
  have ht : (a.take off).length = off := by
    simp only [List.length_take]
    omega
  simp only [patch, List.append_assoc]
  rw [List.take_append_of_le_length (by omega), List.take_of_length_le (by omega)]
  rw [List.drop_append, ht, List.drop_of_length_le (by omega)]
  simp [hlen]

theorem patch_nil (bs : Bytes) (off : Nat) : patch bs off [] = bs := by
  simp [patch]

/-- One field behind another. -/
theorem patch_behind {bs new new' : Bytes} {off : Nat}
    (h : off + new.length + new'.length ≤ bs.length) :
    patch (patch bs off new) (off + new.length) new' = patch bs off (new ++ new') := by
  have hfirst : (bs.take off ++ new).length = off + new.length := by
    rw [List.length_append, List.length_take]
    omega
  have htake : (patch bs off new).take (off + new.length) = bs.take off ++ new := by
    unfold patch
    exact List.take_left' hfirst
  have hdrop : (patch bs off new).drop (off + new.length + new'.length) =
      bs.drop (off + (new ++ new').length) := by
    rw [drop_patch (by omega) (by omega), List.length_append, Nat.add_assoc]
  show (patch bs off new).take _ ++ new' ++ (patch bs off new).drop _ = _
  rw [htake, hdrop, List.append_assoc (bs.take off)]
  rfl

theorem toInt32_of_lt {n : Nat} (h : n < 2147483648) : toInt32 n = n := by
  unfold toInt32
  have : (n : Int) % 4294967296 = n := Int.emod_eq_of_lt (by omega) (by omega)
  simp only [this]
  split <;> omega

/-- The numbers that are not taken for negative ones. -/
theorem toInt32_nonneg {n : Nat} (hlt : n < 2 ^ 32) (h : ¬ toInt32 n < 0) :
    n < 2 ^ 31 ∧ (toInt32 n).toNat = n := by
  have hsmall : n < 2147483648 := by
    by_contra hlarge
    unfold toInt32 at h
    have hmod : (n : Int) % 4294967296 = n := Int.emod_eq_of_lt (by omega) (by omega)
    simp only [hmod] at h
    rw [if_neg (by omega)] at h
    omega
  refine ⟨hsmall, ?_⟩
  rw [toInt32_of_lt hsmall]
  exact Int.toNat_natCast n

theorem toInt32_le (n : Nat) : toInt32 n ≤ n := by
  unfold toInt32
  dsimp only
  split <;> omega

theorem ok_bind {ε α β : Type} (a : α) (f : α → Except ε β) : (Except.ok a >>= f) = f a := rfl

end Libsmb2.Util
