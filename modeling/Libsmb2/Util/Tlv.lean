import Libsmb2.Util.Bytes

/-!
# Elements of the basic encoding rules

An element is a type octet, the length of its contents and the contents.  A length below 128
is one octet; a longer one is as many octets as it needs, most significant first, behind an
octet that counts them.

* `be_succ_value` — what one step of a big-endian reader makes of the next octet;
* `length_tlv`, `front_le` — an element is at most six octets longer than its contents.
-/

set_option autoImplicit false

namespace Libsmb2.Util

/-- The last `k` octets of `n`, most significant first. -/
def be : Nat → Nat → Bytes
  | 0, _ => []
  | k + 1, n => UInt8.ofNat (n / 256 ^ k) :: be k n

/-- How many of at most `k` octets `n` needs. -/
def octetsNeeded : Nat → Nat → Nat
  | 0, _ => 0
  | k + 1, n => if n = 0 then 0 else octetsNeeded k (n / 256) + 1

/-- The octets of a length below `2^32`. -/
def lengthOctets (n : Nat) : Bytes :=
  if n < 128 then [UInt8.ofNat n]
  else UInt8.ofNat (128 + octetsNeeded 4 n) :: be (octetsNeeded 4 n) n

/-- The element of type `t` with these contents. -/
def tlv (t : UInt8) (body : Bytes) : Bytes := t :: lengthOctets body.length ++ body

/-- How many octets stand before the contents. -/
def front (body : Bytes) : Nat := (lengthOctets body.length).length + 1

@[simp] theorem length_be (k n : Nat) : (be k n).length = k := by
  induction k with
  | zero => rfl
  | succ k ih => simp [be, ih]

theorem octetsNeeded_le (k n : Nat) : octetsNeeded k n ≤ k := by
  induction k generalizing n with
  | zero => simp [octetsNeeded]
  | succ k ih =>
    have hstep := ih (n / 256)
    simp only [octetsNeeded]
    split <;> omega

/-- The octets counted hold the number. -/
theorem lt_pow_octetsNeeded {k n : Nat} (h : n < 256 ^ k) : n < 256 ^ octetsNeeded k n := by
  induction k generalizing n with
  | zero => simpa [octetsNeeded] using h
  | succ k ih =>
    simp only [octetsNeeded]
    by_cases hn : n = 0
    · simp [hn]
    · have hpow : 256 ^ (k + 1) = 256 * 256 ^ k := Nat.pow_succ'
      have hquot := ih (n := n / 256) (by omega)
      rw [if_neg hn, Nat.pow_succ']
      omega

/-- One step of a big-endian reader modulo `m`. -/
theorem be_succ_value (v k n m : Nat) :
    ((v * 256 + (UInt8.ofNat (n / 256 ^ k)).toNat) % m * 256 ^ k + n % 256 ^ k) % m
      = (v * 256 ^ (k + 1) + n % 256 ^ (k + 1)) % m := by
  have hlow : n % 256 ^ (k + 1) = n % 256 ^ k + 256 ^ k * (n / 256 ^ k % 256) :=
    Nat.mod_pow_succ
  have hoctet : (UInt8.ofNat (n / 256 ^ k)).toNat = n / 256 ^ k % 256 := by simp
  have hsum : (v * 256 + n / 256 ^ k % 256) * 256 ^ k + n % 256 ^ k
      = v * 256 ^ (k + 1) + n % 256 ^ (k + 1) := by
    rw [hlow, Nat.pow_succ]
    ring
  rw [hoctet, ← hsum, Nat.add_mod, Nat.mod_mul_mod, ← Nat.add_mod]

theorem length_lengthOctets_le (n : Nat) : (lengthOctets n).length ≤ 5 := by
  have hneed := octetsNeeded_le 4 n
  simp only [lengthOctets]
  split
  · simp
  · simp
    omega

theorem length_lengthOctets_of_lt {n : Nat} (h : n < 128) : (lengthOctets n).length = 1 := by
  simp [lengthOctets, h]

theorem length_tlv (t : UInt8) (body : Bytes) :
    (tlv t body).length = front body + body.length := by
  simp [tlv, front]
  omega

theorem front_le (body : Bytes) : front body ≤ 6 := by
  have hlen := length_lengthOctets_le body.length
  rw [front]
  omega

theorem two_le_front (body : Bytes) : 2 ≤ front body := by
  simp only [front, lengthOctets]
  split <;> simp

theorem front_of_lt {body : Bytes} (h : body.length < 128) : front body = 2 := by
  rw [front, length_lengthOctets_of_lt h]

/-- The contents stand at the end of their element. -/
theorem suffix_tlv (t : UInt8) (body : Bytes) : body <:+ tlv t body := by
  rw [tlv]
  exact List.suffix_append _ _

end Libsmb2.Util
