import Libsmb2.Asn1Ber
import Mathlib.Data.Nat.Log

/-!
# Integers

The encoders of integers count the octets that a value needs in loops of their own.  That of a
negative value never changes what it looks at; that of a positive one leaves out an octet of zeros
in front of a set bit, which the decoder takes for a sign; that of an unsigned 64-bit value counts
down from four.

* `shiftLoop_octets`, `signLoop_eq` — how many octets the loops find for a value;
* `integer_returns_iff` — which values come back.
-/

set_option autoImplicit false

namespace Libsmb2.Asn1Ber

open Util

/-! ## The encoders -/

/-- Why an encoder comes to no end, or to none that is defined. -/
inductive IntegerFault
  | endless
  | shift
  deriving DecidableEq, Repr

/-- `bytesneeded--`, of a `uint32_t`. -/
def decrement (bytesneeded : Nat) : Nat :=
  if bytesneeded = 0 then 4294967295 else bytesneeded - 1

/-- The loop that shifts `bytes` left until its first octet is not zero, in an unsigned type of so
many octets.  The fuel counts its rounds. -/
def shiftLoop (size : Nat) : Nat → Nat → Nat → Except IntegerFault Nat
  | 0, _, _ => .error .endless
  | fuel + 1, bytes, bytesneeded =>
    if bytes = 0 then .ok bytesneeded
    else if bytes / 256 ^ (size - 1) ≠ 0 then .ok bytesneeded
    else shiftLoop size fuel (bytes * 256 % 256 ^ size) (decrement bytesneeded)

/-- The loop for a negative value.  It goes on while the nine bits of the mask are set in `bytes`,
which it does not shift. -/
def signLoop (size : Nat) : Nat → Nat → Nat → Except IntegerFault Nat
  | 0, _, _ => .error .endless
  | fuel + 1, bytes, bytesneeded =>
    if bytes = 0 then .ok bytesneeded
    else if bytes / 2 ^ (8 * size - 9) ≠ 511 then .ok bytesneeded
    else signLoop size fuel bytes (decrement bytesneeded)

/-- `asn1ber_ber_from_typelen`. -/
def berFromTypelen (e : Encoder) (typecode lenin : Nat) : Encoder × Option Nat :=
  match berFromTypecode e typecode with
  | (e, false) => (e, none)
  | (e, true) =>
    match berFromLength e lenin with
    | (e, none) => (e, none)
    | (e, some outlen) => (e, some (outlen + 1))

/-- The octets of a value, from the last `bytesneeded` ones on.  It is not defined what a shift by
the width of its type or more does; the distance is a `uint32_t`. -/
def outValue (size : Nat) (val : Int) : Nat → Encoder → Except IntegerFault (Encoder × Bool)
  | 0, e => .ok (e, true)
  | bytesneeded + 1, e =>
    if 8 * size ≤ 8 * bytesneeded % 4294967296 then .error .shift
    else
      match outByte e (UInt8.ofNat (val / 2 ^ (8 * bytesneeded % 4294967296) % 256).toNat) with
      | (e, false) => .ok (e, false)
      | (e, true) => outValue size val bytesneeded e

/-- The type, the length and the octets of a value. -/
def outInteger (size : Nat) (e : Encoder) (type : Nat) (val : Int) (bytesneeded : Nat) :
    Except IntegerFault (Encoder × Bool) :=
  match berFromTypelen e type bytesneeded with
  | (e, none) => .ok (e, false)
  | (e, some _) => outValue size val bytesneeded e

/-- A signed value of so many octets. -/
def berFromInt (size fuel : Nat) (e : Encoder) (type : Nat) (val : Int) :
    Except IntegerFault (Encoder × Bool) := do
  let bytesneeded ←
    if val = 0 then pure 1
    else if val < 0 then signLoop size fuel (val % 256 ^ size).toNat size
    else shiftLoop size fuel val.toNat size
  outInteger size e type val bytesneeded

/-- An unsigned value of so many octets, counted down from `start`. -/
def berFromUint (size start fuel : Nat) (e : Encoder) (type : Nat) (val : Nat) :
    Except IntegerFault (Encoder × Bool) := do
  let bytesneeded ← shiftLoop size fuel val start
  outInteger size e type val bytesneeded

/-- `asn1ber_ber_from_int32`. -/
def berFromInt32 (fuel : Nat) (e : Encoder) (type : Nat) (val : Int) :
    Except IntegerFault (Encoder × Bool) := berFromInt 4 fuel e type val

/-- `asn1ber_ber_from_uint32`. -/
def berFromUint32 (fuel : Nat) (e : Encoder) (type : Nat) (val : Nat) :
    Except IntegerFault (Encoder × Bool) := berFromUint 4 4 fuel e type val

/-- `asn1ber_ber_from_int64`. -/
def berFromInt64 (fuel : Nat) (e : Encoder) (type : Nat) (val : Int) :
    Except IntegerFault (Encoder × Bool) := berFromInt 8 fuel e type val

/-- `asn1ber_ber_from_uint64`. -/
def berFromUint64 (fuel : Nat) (e : Encoder) (type : Nat) (val : Nat) :
    Except IntegerFault (Encoder × Bool) := berFromUint 8 4 fuel e type val

/-! ## The decoders -/

def BER_INTEGER : Nat := 0x02
def BER_COUNTER : Nat := asnAPPLICATION ||| 0x1
def BER_COUNTER64 : Nat := asnAPPLICATION ||| 0x6
def BER_INTEGER64 : Nat := asnAPPLICATION ||| 0xA
def BER_UNSIGNED64 : Nat := asnAPPLICATION ||| 0xB

/-- The octets of a number behind `val`, in a type that a value is put into by `wrap`. -/
def valueFromBer (wrap : Int → Int) : Nat → Int → Decoder → Option (Int × Decoder)
  | 0, val, d => some (val, d)
  | vallen + 1, val, d => do
    let (b, d) ← nextByte d
    valueFromBer wrap vallen (wrap (val * 256 + b)) d

/-- The type and the number of octets in front of a value of at most so many. -/
def valuePrefix (types : List Nat) (size : Nat) (d : Decoder) : Option (Nat × Decoder) := do
  let (b, d) ← nextByte d
  if b ∉ types then none
  else do
    let (vallen, d) ← nextByte d
    if size < vallen then none
    else if vallen = 0 then none
    else some (vallen, d)

/-- A signed value; the first octet has the sign. -/
def intFromBer (types : List Nat) (size : Nat) (d : Decoder) : Option (Int × Decoder) := do
  let (vallen, d) ← valuePrefix types size d
  let (b, d) ← nextByte d
  let ival : Int := if 128 ≤ b then -1 else 0
  valueFromBer (Int.bmod · (256 ^ size)) (vallen - 1) (ival * 256 + b) d

/-- `asn1ber_int32_from_ber`. -/
def int32FromBer (d : Decoder) : Option (Int × Decoder) :=
  intFromBer [BER_INTEGER, BER_COUNTER] 4 d

/-- `asn1ber_int64_from_ber`. -/
def int64FromBer (d : Decoder) : Option (Int × Decoder) := intFromBer [BER_INTEGER64] 8 d

/-- `asn1ber_uint64_from_ber`. -/
def uint64FromBer (d : Decoder) : Option (Int × Decoder) := do
  let (vallen, d) ← valuePrefix [BER_UNSIGNED64, BER_COUNTER64] 8 d
  valueFromBer (· % 256 ^ 8) vallen 0 d

/-! ## What the loops count -/

section
variable {size v : Nat}

/-- A value is shifted until its first octet is set; that takes as many rounds as it has octets
less than its type. -/
theorem shiftLoop_eq {j : Nat} (hlow : 256 ^ (size - 1) ≤ v * 256 ^ j)
    (hhigh : v * 256 ^ j < 256 ^ size) (fuel bytesneeded : Nat) :
    shiftLoop size fuel v bytesneeded =
      if j < fuel then .ok (decrement^[j] bytesneeded) else .error .endless := by
  have hpos : 0 < 256 ^ (size - 1) := Nat.pow_pos (by decide)
  induction j generalizing v fuel bytesneeded with
  | zero =>
    rw [Nat.pow_zero, Nat.mul_one] at hlow hhigh
    cases fuel with
    | zero => rfl
    | succ fuel =>
      have hquot : v / 256 ^ (size - 1) ≠ 0 := Nat.ne_of_gt (Nat.div_pos hlow hpos)
      have hnonzero : v ≠ 0 := Nat.ne_of_gt (Nat.lt_of_lt_of_le hpos hlow)
      rw [shiftLoop, if_neg hnonzero, if_pos hquot, if_pos (Nat.succ_pos fuel)]
      rfl
  | succ j ih =>
    cases fuel with
    | zero => rfl
    | succ fuel =>
      have hnonzero : v ≠ 0 := by
        rintro rfl
        rw [Nat.zero_mul] at hlow
        exact absurd hlow (Nat.not_le_of_gt hpos)
      have hshift : v * 256 ^ (j + 1) = v * 256 * 256 ^ j := by
        rw [Nat.pow_succ', Nat.mul_assoc]
      rw [hshift] at hlow hhigh
      have hfit : v * 256 < 256 ^ size :=
        Nat.lt_of_le_of_lt (Nat.le_mul_of_pos_right _ (Nat.pow_pos (by decide))) hhigh
      have hsize : 256 ^ size ≤ 256 ^ (size - 1) * 256 := by
        rw [← Nat.pow_succ]
        exact Nat.pow_le_pow_right (by decide) (by omega)
      have hquot : v / 256 ^ (size - 1) = 0 :=
        Nat.div_eq_of_lt (Nat.lt_of_mul_lt_mul_right (Nat.lt_of_lt_of_le hfit hsize))
      rw [shiftLoop, if_neg hnonzero, if_neg (not_not.mpr hquot), Nat.mod_eq_of_lt hfit,
        ih hlow hhigh]
      exact if_congr Nat.succ_lt_succ_iff.symm rfl rfl

theorem shiftLoop_zero (fuel bytesneeded : Nat) : shiftLoop size fuel 0 bytesneeded =
    if 0 < fuel then .ok bytesneeded else .error .endless := by
  cases fuel with
  | zero => rfl
  | succ fuel => rw [shiftLoop, if_pos rfl, if_pos (Nat.succ_pos fuel)]

/-- The loop for a negative value ends in its first round, or not at all. -/
theorem signLoop_eq (hv : v ≠ 0) (fuel bytesneeded : Nat) : signLoop size fuel v bytesneeded =
    if v / 2 ^ (8 * size - 9) ≠ 511 ∧ 0 < fuel then .ok bytesneeded else .error .endless := by
  induction fuel generalizing bytesneeded with
  | zero => exact (if_neg fun h => absurd h.2 (Nat.lt_irrefl 0)).symm
  | succ fuel ih =>
    rw [signLoop, if_neg hv]
    by_cases hmask : v / 2 ^ (8 * size - 9) ≠ 511
    · rw [if_pos hmask, if_pos ⟨hmask, Nat.succ_pos fuel⟩]
    · rw [if_neg hmask, ih, if_neg fun h => hmask h.1, if_neg fun h => hmask h.1]

/-- How many octets a value takes. -/
theorem exists_octets (hv : 0 < v) (hlt : v < 256 ^ size) :
    ∃ n, 1 ≤ n ∧ n ≤ size ∧ 256 ^ (n - 1) ≤ v ∧ v < 256 ^ n := by
  refine ⟨Nat.log 256 v + 1, Nat.le_add_left 1 _, ?_, ?_, ?_⟩
  · exact Nat.log_lt_of_lt_pow (by omega) hlt
  · exact Nat.pow_log_le_self 256 (by omega)
  · exact Nat.lt_pow_succ_log_self (by decide) v

/-- The loop counts the octets of a value down from the size of its type. -/
theorem shiftLoop_octets {n : Nat} (hone : 1 ≤ n) (hn : n ≤ size) (hlow : 256 ^ (n - 1) ≤ v)
    (hhigh : v < 256 ^ n) (fuel bytesneeded : Nat) : shiftLoop size fuel v bytesneeded =
      if size - n < fuel then .ok (decrement^[size - n] bytesneeded) else .error .endless := by
  have hpos : 0 < 256 ^ (size - n) := Nat.pow_pos (by decide)
  refine shiftLoop_eq ?_ ?_ fuel bytesneeded
  · calc 256 ^ (size - 1) = 256 ^ (n - 1) * 256 ^ (size - n) := by
          rw [← Nat.pow_add]
          congr 1
          omega
      _ ≤ v * 256 ^ (size - n) := Nat.mul_le_mul_right _ hlow
  · calc v * 256 ^ (size - n) < 256 ^ n * 256 ^ (size - n) := Nat.mul_lt_mul_of_pos_right hhigh hpos
      _ = 256 ^ size := by
          rw [← Nat.pow_add]
          congr 1
          omega

theorem decrement_iterate {j k : Nat} (hj : j ≤ k) : decrement^[j] k = k - j := by
  induction j with
  | zero => rfl
  | succ j ih =>
    rw [Function.iterate_succ_apply', ih (by omega), decrement, if_neg (by omega), Nat.sub_sub]

end

/-! ## What is written -/

section
variable {size n x : Nat} {val j : Int} {c : Bytes} {e : Encoder}

/-- The octet at the end of a shift, of a value and of its octets in a type of this size. -/
theorem octet_of_shift {k : Nat} (hx : (x : Int) = val + j * 256 ^ size) (hk : k < size) :
    UInt8.ofNat (val / 256 ^ k % 256).toNat = UInt8.ofNat (x / 256 ^ k) := by
  have hval : val = x + -(j * 256 ^ (size - (k + 1))) * 256 * 256 ^ k := by
    have hpow : (256 : Int) ^ size = 256 ^ (size - (k + 1)) * 256 * 256 ^ k := by
      rw [← pow_succ, ← pow_add]
      congr 1
      omega
    rw [hx, hpow]
    ring
  have hquot : val / 256 ^ k = x / 256 ^ k + -(j * 256 ^ (size - (k + 1))) * 256 := by
    rw [hval]
    exact Int.add_mul_ediv_right _ _ (pow_ne_zero k (by decide))
  have hmod : val / 256 ^ k % 256 = (x / 256 ^ k % 256 : Nat) := by
    rw [hquot, Int.add_mul_emod_self_right]
    norm_cast
  rw [hmod, Int.toNat_natCast]
  apply UInt8.toNat.inj
  simp

/-- The octets of a value are written. -/
theorem outValue_holds {m : Nat} (hx : (x : Int) = val + j * 256 ^ size) (hn : n ≤ size)
    (hsize : size ≤ 8) (h : Holds e c (m + n)) :
    ∃ e', outValue size val n e = .ok (e', true) ∧ Holds e' (c ++ be n x) m := by
  induction n generalizing c e with
  | zero => exact ⟨e, rfl, by rw [be, List.append_nil]; exact h⟩
  | succ n ih =>
    have hdist : 8 * n % 4294967296 = 8 * n := Nat.mod_eq_of_lt (by omega)
    have hpow : (2 : Int) ^ (8 * n) = 256 ^ n := by rw [pow_mul]; rfl
    obtain ⟨hheld, hok⟩ := outByte_holds (n := m + n) (UInt8.ofNat (x / 256 ^ n)) h
    obtain ⟨e', hrun, hend⟩ := ih (by omega) hheld
    refine ⟨e', ?_, ?_⟩
    · rw [outValue, hdist, if_neg (by omega), hpow, octet_of_shift hx hn]
      generalize outByte e (UInt8.ofNat (x / 256 ^ n)) = r at hok hrun ⊢
      obtain ⟨e₁, ok⟩ := r
      cases hok
      exact hrun
    · rw [be, List.append_cons]
      exact hend

/-- The octets of an integer. -/
def integerOctets (type n x : Nat) : Bytes := UInt8.ofNat type :: UInt8.ofNat n :: be n x

theorem outInteger_holds {m : Nat} (type : Nat) (hx : (x : Int) = val + j * 256 ^ size)
    (hn : n ≤ size) (hsize : size ≤ 8) (h : Holds e c (m + n + 2)) :
    ∃ e', outInteger size e type val n = .ok (e', true)
      ∧ Holds e' (c ++ integerOctets type n x) m := by
  have hlength : lengthOctets n = [UInt8.ofNat n] := if_pos (by omega)
  have htype := outByte_holds (n := m + n + 1) (UInt8.ofNat type) h
  rw [outInteger, berFromTypelen, berFromTypecode]
  generalize outByte e (UInt8.ofNat type) = r at htype ⊢
  obtain ⟨e₁, ok₁⟩ := r
  obtain ⟨hheld₁, rfl⟩ := htype
  have hlen := outBytes_holds (n := m + n) (lengthOctets n) (by rw [hlength]; exact hheld₁)
  simp only [berFromLength]
  generalize outBytes (lengthOctets n) e₁ = r at hlen ⊢
  obtain ⟨e₂, ok₂⟩ := r
  obtain ⟨hheld₂, rfl⟩ := hlen
  obtain ⟨e', hrun, hend⟩ := outValue_holds hx hn hsize hheld₂
  refine ⟨e', hrun, ?_⟩
  rw [hlength] at hend
  rw [integerOctets, List.append_cons, List.append_cons]
  exact hend

/-- A count that has wrapped around shifts too far. -/
theorem outInteger_shift {e' : Encoder} (type : Nat) (hn : 8 * size ≤ 8 * n % 4294967296) :
    outInteger size e type val (n + 1) ≠ .ok (e', true) := by
  rw [outInteger]
  split
  · exact nofun
  · rw [outValue, if_pos hn]
    exact nofun

end

/-! ## What is read -/

/-- A reduction that sums and products may be reduced by in between. -/
structure Wraps (wrap : Int → Int) : Prop where
  mul_add : ∀ a c b, wrap (wrap a * c + b) = wrap (a * c + b)

theorem wraps_bmod (m : Nat) : Wraps (Int.bmod · m) where
  mul_add a c b := by
    have hmul := Int.bmod_add_bmod (x := Int.bmod a m * c) (y := b) (n := m)
    rw [Int.bmod_mul_bmod, Int.bmod_add_bmod] at hmul
    exact hmul.symm

theorem wraps_emod (m : Int) : Wraps (· % m) where
  mul_add a c b := by
    rw [Int.add_emod, Int.mul_emod, Int.emod_emod, ← Int.mul_emod, ← Int.add_emod]

/-- The octets of a number are read. -/
theorem valueFromBer_be {wrap : Int → Int} (hwrap : Wraps wrap) (k x : Nat) (rest : Bytes)
    (tail : Nat) {val : Int} (hval : wrap val = val) :
    valueFromBer wrap k val ⟨be k x ++ rest, tail⟩ =
      some (wrap (val * 256 ^ k + (x % 256 ^ k : Nat)), ⟨rest, tail + k⟩) := by
  induction k generalizing val tail with
  | zero =>
    rw [pow_zero, pow_zero, mul_one, Nat.mod_one, Nat.cast_zero, add_zero, hval]
    rfl
  | succ k ih =>
    have hoctet : (UInt8.ofNat (x / 256 ^ k)).toNat = x / 256 ^ k % 256 := by simp
    have hlow : x % 256 ^ (k + 1) = x % 256 ^ k + 256 ^ k * (x / 256 ^ k % 256) := Nat.mod_pow_succ
    have hidem : wrap (wrap (val * 256 + (x / 256 ^ k % 256 : Nat))) =
        wrap (val * 256 + (x / 256 ^ k % 256 : Nat)) := by
      have hsame := hwrap.mul_add (val * 256 + (x / 256 ^ k % 256 : Nat)) 1 0
      rwa [mul_one, mul_one, add_zero, add_zero] at hsame
    have hsum : (val * 256 + (x / 256 ^ k % 256 : Nat)) * 256 ^ k + (x % 256 ^ k : Nat) =
        val * 256 ^ (k + 1) + (x % 256 ^ (k + 1) : Nat) := by
      rw [hlow]
      push_cast
      ring
    simp only [valueFromBer, be, List.cons_append, nextByte_cons, Option.bind_eq_bind,
      Option.bind_some, hoctet]
    rw [ih (tail + 1) hidem, hwrap.mul_add, hsum, Nat.add_assoc, Nat.add_comm 1 k]

section
variable {types : List Nat} {size n x type : Nat}

theorem valuePrefix_octets (htype : type ∈ types) (hbyte : type < 256) (hone : 1 ≤ n)
    (hn : n ≤ size) (hsize : size ≤ 8) : valuePrefix types size ⟨integerOctets type n x, 0⟩ =
      some (n, ⟨be n x, 2⟩) := by
  have htoNat : (UInt8.ofNat type).toNat = type := by
    simp
    omega
  have hlen : (UInt8.ofNat n).toNat = n := by
    simp
    omega
  simp only [valuePrefix, integerOctets, nextByte_cons, Option.bind_eq_bind, Option.bind_some,
    htoNat, hlen]
  rw [if_neg (not_not.mpr htype), if_neg (by omega), if_neg (by omega)]

/-- A signed value; the first of its octets has the sign. -/
theorem intFromBer_octets (htype : type ∈ types) (hbyte : type < 256) (hone : 1 ≤ n)
    (hn : n ≤ size) (hsize : 2 ≤ size ∧ size ≤ 8) (hx : x < 256 ^ n) :
    intFromBer types size ⟨integerOctets type n x, 0⟩ =
      some (Int.bmod (x - if x < 128 * 256 ^ (n - 1) then 0 else 256 ^ n) (256 ^ size),
        ⟨[], n + 2⟩) := by
  obtain ⟨k, rfl⟩ : ∃ k, n = k + 1 := ⟨n - 1, by omega⟩
  have hpos : 0 < 256 ^ k := Nat.pow_pos (by decide)
  have hdiv : x / 256 ^ k < 256 := (Nat.div_lt_iff_lt_mul hpos).mpr (by rwa [← Nat.pow_succ'])
  have hoctet : (UInt8.ofNat (x / 256 ^ k)).toNat = x / 256 ^ k := by
    simp
    omega
  have hsplit : ((x / 256 ^ k : Nat) : Int) * 256 ^ k + (x % 256 ^ k : Nat) = x := by
    have hdm := Nat.div_add_mod x (256 ^ k)
    rw [Nat.mul_comm] at hdm
    exact_mod_cast hdm
  have hsign : 128 ≤ x / 256 ^ k ↔ ¬ x < 128 * 256 ^ k := by
    rw [Nat.le_div_iff_mul_le hpos, Nat.not_lt]
  have hpow : (65536 : Nat) ≤ 256 ^ size := Nat.pow_le_pow_right (n := 256) (by decide) hsize.1
  have hsmall : ∀ a : Int, -256 ≤ a → a < 256 → Int.bmod a (256 ^ size) = a := by
    intro a hlow hhigh
    generalize 256 ^ size = m at hpow
    exact Int.bmod_eq_of_le_mul_two (by omega) (by omega)
  rw [intFromBer, valuePrefix_octets htype hbyte hone hn hsize.2]
  simp only [Option.bind_eq_bind, Option.bind_some, be, nextByte_cons, hoctet, Nat.add_sub_cancel]
  have hread := fun (val : Int) (hval : Int.bmod val (256 ^ size) = val) =>
    valueFromBer_be (wraps_bmod (256 ^ size)) k x [] 3 hval
  simp only [List.append_nil] at hread
  by_cases hclear : x < 128 * 256 ^ k
  · rw [if_pos hclear, if_neg (fun h => hsign.mp h hclear), zero_mul, zero_add,
      hread _ (hsmall _ (by omega) (by omega)), hsplit, sub_zero, Nat.add_comm 3 k]
  · have hneg : ((-1 : Int) * 256 + (x / 256 ^ k : Nat)) * 256 ^ k + (x % 256 ^ k : Nat) =
        x - 256 ^ (k + 1) := by
      rw [add_mul, add_assoc, hsplit, pow_succ]
      ring
    rw [if_neg hclear, if_pos (hsign.mpr hclear), hread _ (hsmall _ (by omega) (by omega)), hneg,
      Nat.add_comm 3 k]

theorem uint64FromBer_octets (htype : type ∈ [BER_UNSIGNED64, BER_COUNTER64]) (hone : 1 ≤ n)
    (hn : n ≤ 8) : uint64FromBer ⟨integerOctets type n x, 0⟩ =
      some (((x % 256 ^ n : Nat) : Int), ⟨[], n + 2⟩) := by
  have hbyte : type < 256 := by
    simp only [List.mem_cons, List.not_mem_nil, or_false] at htype
    rcases htype with rfl | rfl <;> decide
  have hlt : x % 256 ^ n < 256 ^ 8 :=
    Nat.lt_of_lt_of_le (Nat.mod_lt _ (Nat.pow_pos (by decide)))
      (Nat.pow_le_pow_right (by decide) hn)
  have hread := valueFromBer_be (wraps_emod (256 ^ 8)) n x [] 2 (Int.zero_emod _)
  rw [List.append_nil, zero_mul, zero_add] at hread
  have hfits : ((x % 256 ^ n : Nat) : Int) % 256 ^ 8 = (x % 256 ^ n : Nat) :=
    Int.emod_eq_of_lt (Int.natCast_nonneg _) (by exact_mod_cast hlt)
  rw [hfits, Nat.add_comm 2 n] at hread
  rw [uint64FromBer, valuePrefix_octets htype hbyte hone hn (Nat.le_refl 8)]
  exact hread

theorem uint32FromBer_octets (htype : type ∈ uint32Types) (hone : 1 ≤ n) (hn : n ≤ 4)
    (hx : x < 256 ^ n) : uint32FromBer ⟨integerOctets type n x, 0⟩ = some (x, ⟨[], n + 2⟩) := by
  have htoNat : (UInt8.ofNat type).toNat = type := by
    simp only [uint32Types, List.mem_cons, List.not_mem_nil, or_false] at htype
    rcases htype with rfl | rfl | rfl | rfl | rfl | rfl | rfl | rfl <;> rfl
  have hlen : (UInt8.ofNat n).toNat = n := by
    simp
    omega
  have hlt : x < 256 ^ 4 := Nat.lt_of_lt_of_le hx (Nat.pow_le_pow_right (by decide) hn)
  have hread := numberFromBer_be (v := 0) n x [] 2 (by decide)
  rw [List.append_nil, Nat.zero_mul, Nat.zero_add, Nat.mod_eq_of_lt hx] at hread
  simp only [uint32FromBer, integerOctets, nextByte_cons, Option.bind_eq_bind, Option.bind_some,
    htoNat, hlen]
  rw [if_neg (not_not.mpr htype), if_neg (by omega), hread, Nat.add_comm 2 n]
  congr 2
  exact Nat.mod_eq_of_lt hlt

end

/-! ## Which values come back -/

/-- The four types of integers. -/
inductive BerInteger
  | int32
  | uint32
  | int64
  | uint64
  deriving DecidableEq, Repr

namespace BerInteger

def size : BerInteger → Nat
  | int32 => 4
  | uint32 => 4
  | int64 => 8
  | uint64 => 8

/-- The values of a type. -/
def InRange : BerInteger → Int → Prop
  | int32, v => -2 ^ 31 ≤ v ∧ v < 2 ^ 31
  | uint32, v => 0 ≤ v ∧ v < 2 ^ 32
  | int64, v => -2 ^ 63 ≤ v ∧ v < 2 ^ 63
  | uint64, v => 0 ≤ v ∧ v < 2 ^ 64

/-- The type codes that its decoder accepts. -/
def types : BerInteger → List Nat
  | int32 => [BER_INTEGER, BER_COUNTER]
  | uint32 => uint32Types
  | int64 => [BER_INTEGER64]
  | uint64 => [BER_UNSIGNED64, BER_COUNTER64]

def encode (fuel : Nat) (e : Encoder) (type : Nat) (v : Int) :
    BerInteger → Except IntegerFault (Encoder × Bool)
  | int32 => berFromInt32 fuel e type v
  | uint32 => berFromUint32 fuel e type v.toNat
  | int64 => berFromInt64 fuel e type v
  | uint64 => berFromUint64 fuel e type v.toNat

def decode (d : Decoder) : BerInteger → Option (Int × Decoder)
  | int32 => int32FromBer d
  | uint32 => (uint32FromBer d).map fun (v, d) => (v, d)
  | int64 => int64FromBer d
  | uint64 => uint64FromBer d

end BerInteger

/-- An encoder ends and succeeds, and a decoder makes the value of all that has been written. -/
def ReadsBack (encode : Nat → Except IntegerFault (Encoder × Bool))
    (decode : Decoder → Option (Int × Decoder)) (e : Encoder) (v : Int) : Prop :=
  ∃ fuel e', encode fuel = .ok (e', true)
    ∧ decode ⟨slice e'.dst e.dstHead (e'.dstHead - e.dstHead), 0⟩ =
      some (v, ⟨[], e'.dstHead - e.dstHead⟩)

/-- A value of this type comes back. -/
def BerInteger.Returns (k : BerInteger) (e : Encoder) (type : Nat) (v : Int) : Prop :=
  ReadsBack (fun fuel => k.encode fuel e type v) (fun d => k.decode d) e v

/-- The first bit of a value that does not take all of its type is not set. -/
def FirstBitClear (size : Nat) (v : Int) : Prop :=
  ∀ n, 1 ≤ n → n < size → v < 128 * 256 ^ (n - 1) ∨ 256 ^ n ≤ v

/-- The values that come back: large negative ones, and those that do not look negative. -/
def BerInteger.Survives : BerInteger → Int → Prop
  | .int32, v => v < -2 ^ 23 ∨ 0 ≤ v ∧ FirstBitClear 4 v
  | .uint32, _ => True
  | .int64, v => v < -2 ^ 55 ∨ 0 ≤ v ∧ FirstBitClear 8 v
  | .uint64, v => v = 0

section
variable {encode : Nat → Except IntegerFault (Encoder × Bool)}
  {decode : Decoder → Option (Int × Decoder)} {size n x type : Nat} {e : Encoder} {v j : Int}

/-- An encoder that writes so many octets whenever it ends. -/
theorem readsBack_iff
    (hall : ∀ fuel, encode fuel = outInteger size e type v n ∨ encode fuel = .error .endless)
    (hsome : ∃ fuel, encode fuel = outInteger size e type v n)
    (hx : (x : Int) = v + j * 256 ^ size) (hn : n ≤ size) (hsize : size ≤ 8)
    (hroom : e.dstHead + size + 2 ≤ e.dst.length) :
    ReadsBack encode decode e v ↔
      decode ⟨integerOctets type n x, 0⟩ = some (v, ⟨[], n + 2⟩) := by
  have htake : (e.dst.take e.dstHead).length = e.dstHead := List.length_take_of_le (by omega)
  have hholds : Holds e (e.dst.take e.dstHead) (0 + n + 2) := by
    refine ⟨e.dst.drop e.dstHead, ?_, ?_⟩
    · rw [List.take_append_drop, htake]
    · rw [List.length_drop]
      omega
  obtain ⟨e', hrun, rest, rfl, -⟩ := outInteger_holds type hx hn hsize hholds
  have hlen : (integerOctets type n x).length = n + 2 := by
    simp [integerOctets]
  have hhead : (e.dst.take e.dstHead ++ integerOctets type n x).length - e.dstHead = n + 2 := by
    rw [List.length_append, htake, hlen, Nat.add_sub_cancel_left]
  have hslice : slice (e.dst.take e.dstHead ++ integerOctets type n x ++ rest) e.dstHead (n + 2) =
      integerOctets type n x := by
    rw [List.append_assoc, slice_append_right (by omega), htake, Nat.sub_self,
      slice_append_left (by omega), slice_zero (by omega)]
  constructor
  · rintro ⟨fuel, e₁, henc, hdec⟩
    rcases hall fuel with h | h
    · rw [h, hrun] at henc
      cases henc
      dsimp only at hdec
      rw [hhead, hslice] at hdec
      exact hdec
    · rw [h] at henc
      cases henc
  · intro hdec
    obtain ⟨fuel, hfuel⟩ := hsome
    refine ⟨fuel, _, hfuel.trans hrun, ?_⟩
    dsimp only
    rw [hhead, hslice]
    exact hdec

/-- What goes on when a loop has counted the octets. -/
theorem loop_bind {ok : Prop} [Decidable ok] (bytesneeded : Nat)
    (f : Nat → Except IntegerFault (Encoder × Bool)) :
    ((if ok then .ok bytesneeded else .error .endless : Except IntegerFault Nat) >>= f) =
      if ok then f bytesneeded else .error .endless := by
  split <;> rfl

theorem ite_eq_or {ok : Prop} [Decidable ok] {α : Type} (a b : α) :
    (if ok then a else b) = a ∨ (if ok then a else b) = b := by
  split
  · exact .inl rfl
  · exact .inr rfl

variable (hroom : e.dstHead + size + 2 ≤ e.dst.length) (hsize : 2 ≤ size ∧ size ≤ 8)

include hroom hsize

/-- A positive value comes back if its first bit is not set. -/
theorem readsBack_pos {types : List Nat} (htype : type ∈ types) (hbyte : type < 256) (hv : 0 < v)
    (hlt : v < 128 * 256 ^ (size - 1)) :
    ReadsBack (fun fuel => berFromInt size fuel e type v) (intFromBer types size) e v ↔
      FirstBitClear size v := by
  obtain ⟨u, rfl⟩ := Int.eq_ofNat_of_zero_le hv.le
  change 0 < ((u : Nat) : Int) at hv
  change ((u : Nat) : Int) < _ at hlt
  have hhalf : u < 128 * 256 ^ (size - 1) := by exact_mod_cast hlt
  have hfull : 256 ^ size = 256 ^ (size - 1) * 256 := by
    rw [← Nat.pow_succ]
    congr 1
    omega
  obtain ⟨n, hone, hn, hlow, hhigh⟩ := @exists_octets size u (by omega) (by omega)
  have henc : ∀ fuel, berFromInt size fuel e type (u : Int) =
      if size - n < fuel then outInteger size e type (u : Int) n else .error .endless := by
    intro fuel
    have hcount : decrement^[size - n] size = n := by
      rw [decrement_iterate (Nat.sub_le _ _)]
      omega
    rw [berFromInt, if_neg (by omega), if_neg (by omega), Int.toNat_natCast,
      shiftLoop_octets hone hn hlow hhigh, hcount, loop_bind]
  rw [readsBack_iff (x := u) (j := 0) (n := n) (fun fuel => by rw [henc]; exact ite_eq_or _ _)
    ⟨size - n + 1, (henc _).trans (if_pos (Nat.lt_succ_self _))⟩ (by ring) hn hsize.2 hroom,
    intFromBer_octets htype hbyte hone hn hsize hhigh]
  have hnat : 256 ^ n ≤ 256 ^ size := Nat.pow_le_pow_right (by decide) hn
  have hsplit : 256 ^ n = 256 ^ (n - 1) * 256 := by
    rw [← Nat.pow_succ]
    congr 1
    omega
  have hcastlow : ((256 ^ (n - 1) : Nat) : Int) = 256 ^ (n - 1) := by push_cast; rfl
  have hcast : ((256 ^ n : Nat) : Int) = 256 ^ n := by push_cast; rfl
  constructor
  · intro hread m hm hms
    rcases Nat.lt_trichotomy m n with hlt | rfl | hgt
    · right
      have hle : 256 ^ m ≤ 256 ^ (n - 1) := Nat.pow_le_pow_right (by decide) (by omega)
      exact_mod_cast hle.trans hlow
    · left
      by_contra hset
      rw [if_neg (by exact_mod_cast hset)] at hread
      simp only [Option.some.injEq, Prod.mk.injEq] at hread
      have hwrapped : Int.bmod ((u : Int) - 256 ^ m) (256 ^ size) = u - 256 ^ m :=
        Int.bmod_eq_of_le_mul_two (by rw [← hcast]; omega) (by rw [← hcast]; omega)
      rw [hwrapped] at hread
      omega
    · left
      have hle : 256 ^ n ≤ 256 ^ (m - 1) := Nat.pow_le_pow_right (by decide) (by omega)
      have hlt : u < 128 * 256 ^ (m - 1) := by omega
      exact_mod_cast hlt
  · intro hclear
    have hbit : u < 128 * 256 ^ (n - 1) := by
      rcases Nat.lt_or_ge n size with hns | hns
      · rcases hclear n hone hns with h | h
        · exact_mod_cast h
        · have hle : 256 ^ n ≤ u := by exact_mod_cast h
          omega
      · obtain rfl : n = size := by omega
        exact hhalf
    rw [if_pos hbit, sub_zero, Int.bmod_eq_of_le_mul_two (by omega) (by omega)]

/-- Zero comes back. -/
theorem readsBack_zero {types : List Nat} (htype : type ∈ types) (hbyte : type < 256) :
    ReadsBack (fun fuel => berFromInt size fuel e type 0) (intFromBer types size) e 0 := by
  have henc : ∀ fuel, berFromInt size fuel e type 0 = outInteger size e type 0 1 := by
    intro fuel
    rw [berFromInt, if_pos rfl]
    rfl
  rw [readsBack_iff (x := 0) (j := 0) (n := 1) (fun fuel => .inl (henc fuel)) ⟨0, henc 0⟩ (by simp)
    (by omega) hsize.2 hroom,
    intFromBer_octets htype hbyte (Nat.le_refl 1) (by omega) hsize (by decide)]
  rw [if_pos (by decide)]
  simp

/-- A negative value comes back if the loop that counts its octets ends. -/
theorem readsBack_neg {types : List Nat} (htype : type ∈ types) (hbyte : type < 256) (hv : v < 0)
    (hlow : -(128 * 256 ^ (size - 1)) ≤ v) :
    ReadsBack (fun fuel => berFromInt size fuel e type v) (intFromBer types size) e v ↔
      v < -2 ^ (8 * size - 9) := by
  obtain ⟨w, rfl⟩ : ∃ w, size = w + 2 := ⟨size - 2, by omega⟩
  have hfull : 256 ^ (w + 2) = 512 * (128 * 256 ^ w) := by
    rw [Nat.pow_add]
    ring
  have hfirst : 256 ^ (w + 1) = 2 * (128 * 256 ^ w) := by
    rw [Nat.pow_succ]
    ring
  have hmask : 2 ^ (8 * (w + 2) - 9) = 128 * 256 ^ w := by
    rw [show 8 * (w + 2) - 9 = 7 + 8 * w by omega, Nat.pow_add, Nat.pow_mul]
  have hcastfull : (256 : Int) ^ (w + 2) = (256 ^ (w + 2) : Nat) := by push_cast; rfl
  have hcastfirst : (256 : Int) ^ (w + 1) = (256 ^ (w + 1) : Nat) := by push_cast; rfl
  have hcastmask : (2 : Int) ^ (8 * (w + 2) - 9) = (2 ^ (8 * (w + 2) - 9) : Nat) := by
    push_cast
    rfl
  have hpos : 0 < 128 * 256 ^ w := Nat.mul_pos (by decide) (Nat.pow_pos (by decide))
  rw [show w + 2 - 1 = w + 1 from rfl, hcastfirst, hfirst] at hlow
  have hbytes : v % 256 ^ (w + 2) = v + 256 ^ (w + 2) := by
    rw [← Int.add_emod_right]
    refine Int.emod_eq_of_lt ?_ (by omega)
    rw [hcastfull, hfull]
    omega
  obtain ⟨x, hx⟩ := Int.eq_ofNat_of_zero_le (a := v + 256 ^ (w + 2)) (by
    rw [hcastfull, hfull]
    omega)
  change v + 256 ^ (w + 2) = ((x : Nat) : Int) at hx
  have hxv : ((x : Nat) : Int) = v + (512 * (128 * 256 ^ w) : Nat) := by
    rw [← hx, hcastfull, hfull]
  have hloop : ∀ fuel, berFromInt (w + 2) fuel e type v =
      if x / 2 ^ (8 * (w + 2) - 9) ≠ 511 ∧ 0 < fuel then outInteger (w + 2) e type v (w + 2)
      else .error .endless := by
    intro fuel
    rw [berFromInt, if_neg (by omega), if_pos hv, hbytes, hx, Int.toNat_natCast,
      signLoop_eq (by omega), loop_bind]
  have hnine : x / 2 ^ (8 * (w + 2) - 9) ≠ 511 ↔ v < -2 ^ (8 * (w + 2) - 9) := by
    rw [hcastmask, hmask]
    generalize 128 * 256 ^ w = m at *
    have hdiv : x / m = 511 ↔ 511 * m ≤ x := by
      rw [← Nat.le_div_iff_mul_le hpos]
      have hlt : x / m < 512 := (Nat.div_lt_iff_lt_mul hpos).mpr (by omega)
      omega
    rw [ne_eq, hdiv]
    omega
  by_cases hends : x / 2 ^ (8 * (w + 2) - 9) ≠ 511
  · rw [readsBack_iff (x := x) (j := 1) (n := w + 2)
      (fun fuel => by rw [hloop]; exact ite_eq_or _ _)
      ⟨1, (hloop 1).trans (if_pos ⟨hends, Nat.one_pos⟩)⟩ (by rw [one_mul, hx]) (Nat.le_refl _)
      hsize.2 hroom, intFromBer_octets htype hbyte (by omega) (Nat.le_refl _) hsize (by omega)]
    have hset : ¬ x < 128 * 256 ^ (w + 2 - 1) := by
      rw [show w + 2 - 1 = w + 1 from rfl, hfirst]
      omega
    have hwrapped : Int.bmod v (256 ^ (w + 2)) = v :=
      Int.bmod_eq_of_le_mul_two (by omega) (by omega)
    rw [if_neg hset, ← hx, Int.add_sub_cancel, hwrapped]
    exact iff_of_true rfl (hnine.mp hends)
  · refine iff_of_false ?_ (fun h => hends (hnine.mpr h))
    rintro ⟨fuel, e', henc, -⟩
    dsimp only at henc
    rw [hloop, if_neg fun h => hends h.1] at henc
    cases henc

end

/-! ### Unsigned values -/

section
variable {type u : Nat} {e : Encoder}

/-- Every value of 32 bits comes back. -/
theorem readsBack_uint32 (hroom : e.dstHead + 4 + 2 ≤ e.dst.length) (htype : type ∈ uint32Types)
    (hu : u < 256 ^ 4) : ReadsBack (fun fuel => berFromUint32 fuel e type u)
      (fun d => (uint32FromBer d).map fun (v, d) => (v, d)) e u := by
  rcases Nat.eq_zero_or_pos u with rfl | hpos
  · have henc : ∀ fuel, berFromUint32 fuel e type 0 =
        if 0 < fuel then outInteger 4 e type (0 : Nat) 4 else .error .endless := by
      intro fuel
      rw [berFromUint32, berFromUint, shiftLoop_zero, loop_bind]
    rw [readsBack_iff (x := 0) (j := 0) (n := 4) (fun fuel => by rw [henc]; exact ite_eq_or _ _)
      ⟨1, (henc 1).trans (if_pos Nat.one_pos)⟩ (by simp) (Nat.le_refl 4) (by decide) hroom,
      uint32FromBer_octets htype (by decide) (Nat.le_refl 4) (by decide)]
    rfl
  · obtain ⟨n, hone, hn, hlow, hhigh⟩ := exists_octets hpos hu
    have hcount : decrement^[4 - n] 4 = n := by
      rw [decrement_iterate (Nat.sub_le _ _)]
      omega
    have henc : ∀ fuel, berFromUint32 fuel e type u =
        if 4 - n < fuel then outInteger 4 e type u n else .error .endless := by
      intro fuel
      rw [berFromUint32, berFromUint, shiftLoop_octets hone hn hlow hhigh, hcount, loop_bind]
    rw [readsBack_iff (x := u) (j := 0) (n := n) (fun fuel => by rw [henc]; exact ite_eq_or _ _)
      ⟨4 - n + 1, (henc _).trans (if_pos (Nat.lt_succ_self _))⟩ (by ring) hn (by decide) hroom,
      uint32FromBer_octets htype hone hn hhigh]
    rfl

section
variable (hroom : e.dstHead + 8 + 2 ≤ e.dst.length) (htype : type ∈ [BER_UNSIGNED64, BER_COUNTER64])

include hroom htype

theorem readsBack_uint64_zero :
    ReadsBack (fun fuel => berFromUint64 fuel e type 0) uint64FromBer e 0 := by
  have henc : ∀ fuel, berFromUint64 fuel e type 0 =
      if 0 < fuel then outInteger 8 e type (0 : Nat) 4 else .error .endless := by
    intro fuel
    rw [berFromUint64, berFromUint, shiftLoop_zero, loop_bind]
  change ReadsBack _ _ e ((0 : Nat) : Int)
  rw [readsBack_iff (x := 0) (j := 0) (n := 4)
    (fun fuel => by rw [henc]; exact ite_eq_or _ _) ⟨1, (henc 1).trans (if_pos Nat.one_pos)⟩
    (by simp) (by decide) (Nat.le_refl 8) hroom, uint64FromBer_octets htype (by decide) (by decide)]
  rfl

/-- A count below that of the value leaves its first octets out. -/
theorem not_readsBack_cut {n m : Nat} (hm : m ≤ 4) (hu : 256 ^ m ≤ u)
    (henc : ∀ fuel, berFromUint64 fuel e type u =
      if n < fuel then outInteger 8 e type u m else .error .endless) :
    ¬ ReadsBack (fun fuel => berFromUint64 fuel e type u) uint64FromBer e u := by
  rw [readsBack_iff (x := u) (j := 0) (n := m) (fun fuel => by rw [henc]; exact ite_eq_or _ _)
    ⟨n + 1, (henc _).trans (if_pos (Nat.lt_succ_self _))⟩ (by ring) (by omega) (Nat.le_refl 8)
    hroom]
  intro hread
  rcases Nat.eq_zero_or_pos m with rfl | hone
  · have hnone : uint64FromBer ⟨integerOctets type 0 u, 0⟩ = none := by
      simp only [List.mem_cons, List.not_mem_nil, or_false] at htype
      rcases htype with rfl | rfl <;> rfl
    rw [hnone] at hread
    cases hread
  · rw [uint64FromBer_octets htype hone (by omega)] at hread
    simp only [Option.some.injEq, Prod.mk.injEq, Nat.cast_inj] at hread
    have hlt := Nat.mod_lt u (Nat.pow_pos (n := m) (show 0 < 256 by decide))
    omega

/-- No other value of 64 bits does. -/
theorem not_readsBack_uint64 (hpos : 0 < u) (hu : u < 256 ^ 8) :
    ¬ ReadsBack (fun fuel => berFromUint64 fuel e type u) uint64FromBer e u := by
  obtain ⟨n, hone, hn, hlow, hhigh⟩ := exists_octets hpos hu
  have henc : ∀ m fuel, decrement^[8 - n] 4 = m → berFromUint64 fuel e type u =
      if 8 - n < fuel then outInteger 8 e type u m else .error .endless := by
    rintro m fuel rfl
    rw [berFromUint64, berFromUint, shiftLoop_octets hone hn hlow hhigh, loop_bind]
  rcases Nat.lt_or_ge n 4 with hsmall | hlarge
  · -- the count has wrapped around
    have hwrapped : ∃ m, decrement^[8 - n] 4 = m + 1 ∧ 8 * 8 ≤ 8 * m % 4294967296 := by
      interval_cases n
      · exact ⟨4294967292, rfl, by decide⟩
      · exact ⟨4294967293, rfl, by decide⟩
      · exact ⟨4294967294, rfl, by decide⟩
    obtain ⟨m, hcount, hshift⟩ := hwrapped
    rintro ⟨fuel, e', hrun, -⟩
    dsimp only at hrun
    rw [henc _ fuel hcount] at hrun
    split at hrun
    · exact outInteger_shift type hshift hrun
    · cases hrun
  · have hcount : decrement^[8 - n] 4 = n - 4 := by
      rw [decrement_iterate (by omega)]
      omega
    have hle : 256 ^ (n - 4) ≤ 256 ^ (n - 1) := Nat.pow_le_pow_right (by decide) (by omega)
    exact not_readsBack_cut hroom htype (by omega) (hle.trans hlow) fun fuel => henc _ fuel hcount

end

end

/-! ### All types -/

/-- **An integer comes back** exactly if its encoder counts its octets and its decoder takes none of
them for a sign. -/
theorem integer_returns_iff {k : BerInteger} {e : Encoder} {type : Nat} {v : Int}
    (hv : k.InRange v) (htype : type ∈ k.types)
    (hroom : e.dstHead + k.size + 2 ≤ e.dst.length) : k.Returns e type v ↔ k.Survives v := by
  have hsigned : ∀ (size : Nat) (types : List Nat), e.dstHead + size + 2 ≤ e.dst.length →
      2 ≤ size ∧ size ≤ 8 → type ∈ types → type < 256 → -(128 * 256 ^ (size - 1)) ≤ v →
      v < 128 * 256 ^ (size - 1) →
      (ReadsBack (fun fuel => berFromInt size fuel e type v) (intFromBer types size) e v ↔
        v < -2 ^ (8 * size - 9) ∨ 0 ≤ v ∧ FirstBitClear size v) := by
    intro size types hroom hsize htype hbyte hlow hhigh
    have hpos : (0 : Int) < 2 ^ (8 * size - 9) := pow_pos (by decide) _
    rcases lt_trichotomy v 0 with hneg | rfl | hpos
    · rw [readsBack_neg hroom hsize htype hbyte hneg hlow]
      exact ⟨.inl, fun h => h.resolve_right fun h => absurd h.1 (by omega)⟩
    · have hclear : FirstBitClear size 0 := fun n _ _ => .inl (by positivity)
      exact iff_of_true (readsBack_zero hroom hsize htype hbyte) (.inr ⟨le_rfl, hclear⟩)
    · rw [readsBack_pos hroom hsize htype hbyte hpos hhigh]
      exact ⟨fun h => .inr ⟨hpos.le, h⟩, fun h => (h.resolve_left (by omega)).2⟩
  cases k with
  | int32 =>
    obtain ⟨hlow, hhigh⟩ := hv
    have hbyte : type < 256 := by
      simp only [BerInteger.types, List.mem_cons, List.not_mem_nil, or_false] at htype
      rcases htype with rfl | rfl <;> decide
    exact hsigned 4 _ hroom (by decide) htype hbyte (by norm_num at hlow ⊢; omega)
      (by norm_num at hhigh ⊢; omega)
  | uint32 =>
    obtain ⟨u, rfl⟩ := Int.eq_ofNat_of_zero_le hv.1
    have hu : u < 256 ^ 4 := by
      have hlt := hv.2
      norm_num at hlt ⊢
      omega
    exact iff_of_true (readsBack_uint32 hroom htype hu) trivial
  | int64 =>
    obtain ⟨hlow, hhigh⟩ := hv
    have hbyte : type < 256 := by
      simp only [BerInteger.types, List.mem_cons, List.not_mem_nil, or_false] at htype
      rcases htype with rfl
      decide
    exact hsigned 8 _ hroom (by decide) htype hbyte (by norm_num at hlow ⊢; omega)
      (by norm_num at hhigh ⊢; omega)
  | uint64 =>
    obtain ⟨u, rfl⟩ := Int.eq_ofNat_of_zero_le hv.1
    have hu : u < 256 ^ 8 := by
      have hlt := hv.2
      norm_num at hlt ⊢
      omega
    rcases Nat.eq_zero_or_pos u with rfl | hpos
    · exact iff_of_true (readsBack_uint64_zero hroom htype) rfl
    · refine iff_of_false (not_readsBack_uint64 hroom htype hpos hu) fun h => ?_
      change ((u : Nat) : Int) = 0 at h
      omega

/-- The value 127 of a 32-bit integer. -/
theorem byte_127_returns : BerInteger.int32.Returns (.new 6) BER_INTEGER 127 := by
  refine (integer_returns_iff (by constructor <;> decide) (by decide) (by decide)).mpr
    (.inr ⟨by decide, fun n _ _ => .inl ?_⟩)
  have hpow : (0 : Int) < 256 ^ (n - 1) := pow_pos (by decide) _
  omega

/-- The loop for -1 does not end. -/
theorem minus_one_is_endless : BerInteger.int32.InRange (-1) ∧
    ¬ BerInteger.int32.Returns (.new 6) BER_INTEGER (-1) := by
  refine ⟨by constructor <;> decide, fun h => ?_⟩
  obtain ⟨fuel, e', hrun, -⟩ := h
  have hloop : signLoop 4 fuel 4294967295 4 = .error .endless := by
    rw [signLoop_eq (by decide), if_neg fun h => h.1 (by decide)]
  have hendless : BerInteger.int32.encode fuel (.new 6) BER_INTEGER (-1) = .error .endless := by
    show (signLoop 4 fuel 4294967295 4 >>= _) = _
    rw [hloop]
    rfl
  cases hrun.symm.trans hendless

end Libsmb2.Asn1Ber
