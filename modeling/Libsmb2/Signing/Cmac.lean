import Libsmb2.Util.Modes

/-!
# AES-CMAC

`aes_cmac_shift_left`, `aes_cmac_sub_keys` and `smb3_aes_cmac_128` of `smb2-signing.c`, over any
block function.

* `aesCmacShiftLeft_eq` — the octet-wise shift with carry is a doubling;
* `smb3AesCmac128_eq` — the function computes CMAC, for every message that an object can hold.
-/

set_option autoImplicit false

namespace Libsmb2.Signing

open Util

/-- The octets of a C object: `ptrdiff_t` bounds their number. -/
structure Object where
  octets : Bytes
  length_lt : octets.length < 2 ^ 63

/-- `aes_cmac_shift_left`: the shifted octets, and the carry out of the first one.  The loop runs
from the last octet to the first. -/
def aesCmacShiftLeft : Bytes → Bytes × UInt8
  | [] => ([], 0)
  | b :: bs =>
    let (rest, cin) := aesCmacShiftLeft bs
    (((b <<< 1) ||| cin) :: rest, (b &&& 0x80) >>> 7)

/-- `aes_cmac_xor`. -/
def aesCmacXor (data value : Bytes) : Bytes := xor data value

/-- `rb` of `aes_cmac_sub_keys`. -/
def rb : Bytes := [0, 0, 0, 0, 0, 0, 0, 0, 0, 0, 0, 0, 0, 0, 0, 0x87]

/-- A shift, and the `rb` if it carried. -/
def shiftKey (data : Bytes) : Bytes :=
  let (data, carry) := aesCmacShiftLeft data
  if carry ≠ 0 then aesCmacXor data rb else data

/-- `aes_cmac_sub_keys`. -/
def aesCmacSubKeys (E : Bytes → Bytes) : Bytes × Bytes :=
  let subKey1 := shiftKey (E (zeros 16))
  (subKey1, shiftKey subKey1)

/-- The loop over the blocks before the last one: `mac` and `scratch`, with `k` blocks to go. -/
def cmacLoop (E : Bytes → Bytes) (msg : Bytes) : Nat → Nat → Bytes → Bytes → Bytes × Bytes
  | _, 0, mac, scratch => (mac, scratch)
  | i, k + 1, mac, _ =>
    let scratch := E (aesCmacXor mac (slice msg (16 * i) 16))
    cmacLoop E msg (i + 1) k scratch scratch

/-- `smb3_aes_cmac_128`. -/
def smb3AesCmac128 (C : BlockCipher) (key : Bytes) (msg : Object) : Bytes :=
  let E := C.encrypt key
  let msgLen := msg.octets.length
  let n := (msgLen + 16 - 1) % 2 ^ 64 / 16
  let rem := msgLen % 16
  let isLastBlockComplete := n ≠ 0 ∧ rem = 0
  let n := if n = 0 then 1 else n
  let (subKey1, subKey2) := aesCmacSubKeys E
  let (mac, scratch) := cmacLoop E msg.octets 0 (n - 1) (zeros 16) (zeros 16)
  let i := n - 1
  let scratch :=
    if isLastBlockComplete then aesCmacXor (slice msg.octets (16 * i) 16) subKey1
    else
      let scratch := patch scratch 0 (slice msg.octets (16 * i) rem)
      let scratch := patch scratch rem [0x80]
      let scratch := patch scratch (rem + 1) (zeros (16 - (rem + 1)))
      aesCmacXor scratch subKey2
  E (aesCmacXor mac scratch)

/-! ## Shifting -/

theorem shiftLeft_or_toNat {b c : UInt8} (hc : c.toNat < 2) :
    (b <<< 1) ||| c = .ofNat (c.toNat + 2 * b.toNat) := by
  apply UInt8.toNat_inj.mp
  have hb : b.toNat <<< 1 % 256 = 2 ^ 1 * (b.toNat % 128) := by
    rw [Nat.shiftLeft_eq]
    omega
  have hor : (2 ^ 1 * (b.toNat % 128) ||| c.toNat) = 2 ^ 1 * (b.toNat % 128) + c.toNat :=
    (Nat.two_pow_add_eq_or_of_lt hc _).symm
  have hsum : (c.toNat + 2 * b.toNat) % 256 = 2 ^ 1 * (b.toNat % 128) + c.toNat := by omega
  rw [UInt8.toNat_or, UInt8.toNat_shiftLeft, UInt8.toNat_ofNat']
  show b.toNat <<< 1 % 256 ||| c.toNat = (c.toNat + 2 * b.toNat) % 256
  rw [hb, hor, hsum]

theorem carry_toNat (b : UInt8) : ((b &&& 0x80) >>> 7).toNat = b.toNat / 128 := by
  have hb := b.toNat_lt
  rw [UInt8.toNat_shiftRight, UInt8.toNat_and]
  show (b.toNat &&& 128) >>> 7 = b.toNat / 128
  rw [Nat.shiftRight_and_distrib, Nat.shiftRight_eq_div_pow]
  show b.toNat / 128 &&& 1 = b.toNat / 128
  rw [Nat.and_one_is_mod]
  omega

/-- The octet-wise shift doubles the number that the octets are, and carries its top bit. -/
theorem aesCmacShiftLeft_eq (bs : Bytes) :
    (aesCmacShiftLeft bs).1 = (le bs.length (2 * fromLe bs.reverse)).reverse ∧
      (aesCmacShiftLeft bs).2.toNat = 2 * fromLe bs.reverse / 256 ^ bs.length := by
  induction bs with
  | nil => exact ⟨rfl, rfl⟩
  | cons b bs ih =>
    obtain ⟨hrest, hcarry⟩ := ih
    have hlt : fromLe bs.reverse < 256 ^ bs.length := by
      have := fromLe_lt bs.reverse
      rwa [List.length_reverse] at this
    have hpos : 0 < 256 ^ bs.length := Nat.pow_pos (by decide)
    have hvalue : 2 * fromLe (b :: bs).reverse =
        2 * fromLe bs.reverse + 256 ^ bs.length * (2 * b.toNat) := by
      rw [List.reverse_cons, fromLe_append_one, List.length_reverse, Nat.mul_add]
      congr 1
      ac_rfl
    have hc2 : (aesCmacShiftLeft bs).2.toNat < 2 := by
      rw [hcarry]
      exact (Nat.div_lt_iff_lt_mul hpos).mpr (by omega)
    have hdiv : 2 * fromLe (b :: bs).reverse / 256 ^ bs.length =
        (aesCmacShiftLeft bs).2.toNat + 2 * b.toNat := by
      rw [hvalue, Nat.add_mul_div_left _ _ hpos, hcarry]
    refine ⟨?_, ?_⟩
    · show ((b <<< 1) ||| (aesCmacShiftLeft bs).2) :: (aesCmacShiftLeft bs).1 = _
      rw [hrest, shiftLeft_or_toNat hc2, List.length_cons, le_succ_last, hdiv, hvalue, le_add_mul,
        List.reverse_append]
      rfl
    · show ((b &&& 0x80) >>> 7).toNat = _
      have hb := b.toNat_lt
      rw [carry_toNat, List.length_cons, Nat.pow_succ, ← Nat.div_div_eq_div_mul, hdiv]
      omega

theorem shiftKey_eq {b : Bytes} (h : b.length = 16) : shiftKey b = double b := by
  obtain ⟨hshift, hcarry⟩ := aesCmacShiftLeft_eq b
  rw [h] at hshift hcarry
  have hrb : rb = Rb := by decide
  have htop : (aesCmacShiftLeft b).2 ≠ 0 ↔ 2 ^ 127 ≤ fromLe b.reverse := by
    rw [ne_eq, ← UInt8.toNat_inj, hcarry]
    show ¬ 2 * fromLe b.reverse / 256 ^ 16 = 0 ↔ _
    rw [Nat.div_eq_zero_iff]
    omega
  unfold shiftKey double
  simp only [aesCmacXor, hrb, ← hshift, htop]

/-! ## The message -/

theorem cmacLoop_eq (E : Bytes → Bytes) (msg : Bytes) (i k : Nat) (mac scratch : Bytes) :
    (cmacLoop E msg i k mac scratch).1 =
      (List.range' i k).foldl (fun x j => E (xor x (slice msg (16 * j) 16))) mac := by
  induction k generalizing i mac scratch with
  | zero => rfl
  | succ k ih =>
    rw [cmacLoop, ih, List.range'_succ, List.foldl_cons]
    rfl

/-- The loop is CBC-MAC over the whole blocks that it reads. -/
theorem cmacLoop_cbc (E : Bytes → Bytes) {msg : Bytes} {k : Nat} (hk : 16 * k ≤ msg.length)
    (scratch : Bytes) :
    (cmacLoop E msg 0 k (zeros 16) scratch).1 = cbc E (zeros 16) (blocks (msg.take (16 * k))) := by
  have hlen : (msg.take (16 * k)).length = 16 * k := by simp [hk]
  rw [cmacLoop_eq, cbc, blocks, hlen, show (16 * k + 15) / 16 = k by omega, List.foldl_map,
    ← List.range_eq_range']
  apply List.foldl_ext
  intro x j hj
  have hj := List.mem_range.mp hj
  have hsame : slice (msg.take (16 * k)) (16 * j) 16 = slice msg (16 * j) 16 := by
    rw [slice, slice, List.drop_take, List.take_take]
    congr 1
    omega
  rw [hsame]

theorem length_cmacLoop (C : BlockCipher) (key msg : Bytes) (i k : Nat) (mac : Bytes)
    {scratch : Bytes} (h : scratch.length = 16) :
    (cmacLoop (C.encrypt key) msg i k mac scratch).2.length = 16 := by
  induction k generalizing i mac scratch with
  | zero => exact h
  | succ k ih => exact ih (i + 1) _ (C.length_encrypt key _)

/-- What the three copies leave in `scratch`. -/
theorem patch_last {scratch part : Bytes} (h : scratch.length = 16) (hp : part.length < 16) :
    patch (patch (patch scratch 0 part) part.length [0x80]) (part.length + 1)
        (zeros (16 - (part.length + 1))) =
      part ++ 0x80 :: zeros (15 - part.length) := by
  have h1 : patch scratch 0 part = part ++ scratch.drop part.length := by simp [patch]
  have h2 : patch (patch scratch 0 part) part.length [0x80] =
      part ++ 0x80 :: scratch.drop (part.length + 1) := by
    rw [h1, patch, List.take_left', List.drop_append, List.drop_of_length_le (by simp)]
    · simp [List.drop_drop]
    · rfl
  have h3 : (part ++ [0x80]).length = part.length + 1 := by simp
  have hsplit : part ++ 0x80 :: scratch.drop (part.length + 1) =
      (part ++ [0x80]) ++ scratch.drop (part.length + 1) := by simp
  rw [h2, hsplit, patch, List.take_left' h3, List.drop_of_length_le]
  · simp [show 16 - (part.length + 1) = 15 - part.length by omega]
  · simp only [List.length_append, List.length_drop, length_zeros, List.length_singleton]
    omega

/-- **`smb3_aes_cmac_128` computes CMAC.** -/
theorem smb3AesCmac128_eq (C : BlockCipher) (key : Bytes) (msg : Object) :
    smb3AesCmac128 C key msg = cmac (C.encrypt key) msg.octets := by
  obtain ⟨octets, hlt⟩ := msg
  have hn : (octets.length + 16 - 1) % 2 ^ 64 / 16 = (octets.length + 15) / 16 := by omega
  have hkeys : aesCmacSubKeys (C.encrypt key) =
      (double (C.encrypt key (zeros 16)), double (double (C.encrypt key (zeros 16)))) := by
    simp only [aesCmacSubKeys, shiftKey_eq (C.length_encrypt key _), shiftKey_eq length_double]
  -- the number of blocks before the last one
  obtain ⟨k, hk, hmax, hle⟩ : ∃ k, (if (octets.length + 15) / 16 = 0 then 1
      else (octets.length + 15) / 16) - 1 = k ∧ max 1 ((octets.length + 15) / 16) - 1 = k ∧
      16 * k ≤ octets.length := by
    refine ⟨_, rfl, ?_, ?_⟩
    · split <;> omega
    · split <;> omega
  have hlast : (octets.drop (16 * k)).length = octets.length - 16 * k := by simp
  unfold smb3AesCmac128 cmac
  simp only [hn, hkeys, hk, hmax, aesCmacXor]
  congr 2
  · exact cmacLoop_cbc _ hle _
  · by_cases hfull : (octets.length + 15) / 16 ≠ 0 ∧ octets.length % 16 = 0
    · have h16 : (octets.drop (16 * k)).length = 16 := by omega
      rw [if_pos hfull, if_pos h16, slice, List.take_of_length_le (by omega)]
    · have h16 : (octets.drop (16 * k)).length ≠ 16 := by omega
      have hrem : octets.length % 16 = (octets.drop (16 * k)).length := by omega
      have hscratch := length_cmacLoop C key octets 0 k (zeros 16) (length_zeros 16)
      rw [if_neg hfull, if_neg h16, hrem, slice, List.take_of_length_le (Nat.le_refl _),
        patch_last hscratch (by omega)]

end Libsmb2.Signing
