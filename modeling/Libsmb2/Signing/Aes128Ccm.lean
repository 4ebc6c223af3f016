import Libsmb2.Util.Modes

/-!
# AES-128-CCM

`aes128ccm.c` over any block function.  `aes_ccm_crypt` counts its blocks in an `int`, and the
offset of a block is a product of `int`s: what happens when it overflows is left open by C, and
`none` here.

* `aes128ccm_iff` — encryption is CCM with a length field of four octets, and decryption
  restores the plain text and returns 0, exactly up to 2^31 octets;
* `aes128ccm_overflows` — a message of one octet more.
-/

set_option autoImplicit false

namespace Libsmb2.Signing

open Util

/-- What `aes128ccm_encrypt` and `aes128ccm_decrypt` are called with beside the text: the nonce
has 11 octets, the length of the associated data fits its two octets, and the tag has an even
length from 4 to 16. -/
structure CcmCall where
  key : Bytes
  nonce : Bytes
  aad : Bytes
  mlen : Nat
  nonce_length : nonce.length = 11
  aad_length : aad.length < 65280
  mlen_mem : mlen ∈ [4, 6, 8, 10, 12, 14, 16]

/-- `aes_ccm_generate_b0`. -/
def aesCcmGenerateB0 (nonce : Bytes) (alen plen mlen : Nat) : Bytes :=
  let nlen := nonce.length
  let flags : UInt8 := if alen ≠ 0 then 0x40 else 0
  let flags := flags ||| .ofNat (((mlen - 2) / 2) <<< 3 &&& 0x38)
  let flags := flags ||| .ofNat ((15 - nlen - 1) &&& 0x07)
  let buf := patch (zeros 16) 0 [flags]
  let buf := patch buf 12 (be32 (plen % 2 ^ 32))
  patch buf 1 nonce

/-- `bxory`: the first `num` octets of `b`, masked with those of `y`. -/
def bxory (b y : Bytes) (num : Nat) : Bytes := xor (b.take num) (y.take num) ++ b.drop num

/-- A loop of `ccm_generate_T`: the string goes into the MAC by blocks of up to 16 octets, the
last one with zeros behind it. -/
def absorb (E : Bytes → Bytes) (y bs : Bytes) : Bytes :=
  if h : bs = [] then y
  else
    let l := if 16 < bs.length then 16 else bs.length
    let b := patch (zeros 16) 0 (bs.take l)
    absorb E (E (bxory b y 16)) (bs.drop l)
termination_by bs.length
decreasing_by
  have hpos := List.length_pos_iff.mpr h
  rw [List.length_drop]
  split <;> omega

/-- The first block of associated data in `ccm_generate_T`, and the loop over the others. -/
def absorbAad (E : Bytes → Bytes) (y aad : Bytes) : Bytes :=
  let b := patch (zeros 16) 0 (le 2 (aad.length % 2 ^ 16)).reverse
  let l := if 14 < aad.length then 14 else aad.length
  let b := patch b 2 (aad.take l)
  absorb E (E (bxory b y 16)) (aad.drop l)

/-- `ccm_generate_T`. -/
def ccmGenerateT (E : Bytes → Bytes) (c : CcmCall) (p : Bytes) : Bytes :=
  let y := E (aesCcmGenerateB0 c.nonce c.aad.length p.length c.mlen)
  let y := if c.aad.length ≠ 0 then absorbAad E y c.aad else y
  (absorb E y p).take c.mlen

/-- `ccm_generate_s`. -/
def ccmGenerateS (E : Bytes → Bytes) (nonce : Bytes) (i : Nat) : Bytes :=
  let s := patch (zeros 16) 0 [.ofNat ((15 - nonce.length - 1) &&& 0x07)]
  let s := patch s 12 (be32 (i % 2 ^ 32))
  E (patch s 1 nonce)

/-- The loop of `aes_ccm_crypt`, with `plen` octets to go. -/
def ccmCryptFrom (E : Bytes → Bytes) (nonce : Bytes) (j plen : Nat) (p : Bytes) : Option Bytes :=
  if plen = 0 then some p
  else
    let l := if 16 < plen then 16 else plen
    let s := ccmGenerateS E nonce (j + 1)
    -- `j * 16` is a product of two `int`s
    if 2 ^ 31 ≤ j * 16 then none
    else
      ccmCryptFrom E nonce (j + 1) (plen - l) (p.take (j * 16) ++ bxory (p.drop (j * 16)) s l)
termination_by plen
decreasing_by split <;> omega

/-- `aes_ccm_crypt`. -/
def aesCcmCrypt (E : Bytes → Bytes) (nonce p : Bytes) : Option Bytes :=
  ccmCryptFrom E nonce 0 p.length p

/-- `memcmp`. -/
def memcmp : Bytes → Bytes → Int
  | a :: as, b :: bs => if a = b then memcmp as bs else (a.toNat : Int) - b.toNat
  | _, _ => 0

/-- `aes128ccm_encrypt`: the cipher text and the tag. -/
def aes128ccmEncrypt (C : BlockCipher) (c : CcmCall) (p : Bytes) : Option (Bytes × Bytes) :=
  let E := C.encrypt c.key
  let m := ccmGenerateT E c p
  let m := bxory m (ccmGenerateS E c.nonce 0) c.mlen
  (aesCcmCrypt E c.nonce p).map fun text => (text, m)

/-- `aes128ccm_decrypt`: the plain text and what is returned. -/
def aes128ccmDecrypt (C : BlockCipher) (c : CcmCall) (p m : Bytes) : Option (Bytes × Int) :=
  let E := C.encrypt c.key
  (aesCcmCrypt E c.nonce p).map fun text =>
    let tmp := ccmGenerateT E c text
    let tmp := bxory tmp (ccmGenerateS E c.nonce 0) c.mlen
    (text, memcmp (tmp.take c.mlen) (m.take c.mlen))

/-! ## Blocks -/

/-- The tag length of a call, and a length field of four octets. -/
def CcmCall.params (c : CcmCall) : CcmParams := ⟨c.mlen, 4⟩

theorem patch_zeros {bs : Bytes} {n : Nat} : patch (zeros n) 0 bs = bs ++ zeros (n - bs.length) := by
  simp [patch, zeros]

theorem bxory_full {b y : Bytes} {n : Nat} (hb : b.length = n) (hy : y.length = n) :
    bxory b y n = xor b y := by
  rw [bxory, List.take_of_length_le (by omega), List.take_of_length_le (by omega),
    List.drop_of_length_le (by omega), List.append_nil]

variable {E : Bytes → Bytes}

/-- A loop of `ccm_generate_T` is CBC-MAC over the padded string. -/
theorem absorb_eq (hE : ∀ b, (E b).length = 16) {y : Bytes}
    (hy : y.length = 16) (bs : Bytes) : absorb E y bs = cbc E y (blocks (pad bs)) := by
  induction hn : bs.length using Nat.strong_induction_on generalizing y bs with
  | _ n ih =>
    by_cases h : bs = []
    · subst h
      unfold absorb
      rfl
    · have hpos := List.length_pos_iff.mpr h
      have hl : (if 16 < bs.length then 16 else bs.length) = min 16 bs.length := by
        split <;> omega
      have htake : bs.take (min 16 bs.length) = bs.take 16 := by
        rw [List.take_eq_take_iff]
        omega
      have hdrop : bs.drop (min 16 bs.length) = bs.drop 16 := by
        by_cases hlong : 16 ≤ bs.length
        · rw [Nat.min_eq_left hlong]
        · rw [Nat.min_eq_right (by omega), List.drop_of_length_le (Nat.le_refl _),
            List.drop_of_length_le (by omega)]
      have hblock : patch (zeros 16) 0 (bs.take 16) = bs.take 16 ++ zeros (16 - bs.length) := by
        rw [patch_zeros, List.length_take]
        congr 2
        omega
      have hlen : (bs.take 16 ++ zeros (16 - bs.length)).length = 16 := by
        simp only [List.length_append, List.length_take, length_zeros]
        omega
      unfold absorb
      rw [dif_neg h]
      simp only [hl, htake, hdrop, hblock]
      rw [bxory_full hlen hy, ih (bs.drop 16).length (by rw [List.length_drop]; omega) (hE _) _ rfl,
        blocks_pad h, cbc_cons, xor_swap]

/-- The associated data go into the MAC with their length in front. -/
theorem absorbAad_eq (hE : ∀ b, (E b).length = 16) {y : Bytes}
    (hy : y.length = 16) {aad : Bytes} (h0 : aad ≠ []) (h : aad.length < 65280) :
    absorbAad E y aad = cbc E y (blocks (pad (encodeAadLength aad.length ++ aad))) := by
  have hpos := List.length_pos_iff.mpr h0
  have hl : (if 14 < aad.length then 14 else aad.length) = min 14 aad.length := by
    split <;> omega
  have htake : aad.take (min 14 aad.length) = aad.take 14 := by
    rw [List.take_eq_take_iff]
    omega
  have hdrop : aad.drop (min 14 aad.length) = aad.drop 14 := by
    by_cases hlong : 14 ≤ aad.length
    · rw [Nat.min_eq_left hlong]
    · rw [Nat.min_eq_right (by omega), List.drop_of_length_le (Nat.le_refl _),
        List.drop_of_length_le (by omega)]
  have henc : encodeAadLength aad.length = (le 2 aad.length).reverse := by
    rw [encodeAadLength, if_neg (by omega), if_pos h]
  have h2 : ((le 2 aad.length).reverse).length = 2 := by simp
  have hne : (le 2 aad.length).reverse ++ aad ≠ [] := fun he => h0 (List.append_eq_nil_iff.mp he).2
  have hall : ((le 2 aad.length).reverse ++ aad).length = aad.length + 2 := by
    rw [List.length_append, h2]
    omega
  have hfirst : ((le 2 aad.length).reverse ++ aad).take 16 =
      (le 2 aad.length).reverse ++ aad.take 14 := by
    rw [List.take_append, h2, List.take_of_length_le (by omega)]
  have hrest : ((le 2 aad.length).reverse ++ aad).drop 16 = aad.drop 14 := by
    rw [List.drop_append, h2, List.drop_of_length_le (by omega)]
    rfl
  have hlen : (((le 2 aad.length).reverse ++ aad.take 14) ++ zeros (16 - (aad.length + 2))).length =
      16 := by
    simp only [List.length_append, List.length_take, length_zeros, h2]
    omega
  have hblock : patch (patch (zeros 16) 0 (le 2 aad.length).reverse) 2 (aad.take 14) =
      ((le 2 aad.length).reverse ++ aad.take 14) ++ zeros (16 - (aad.length + 2)) := by
    have hpatch : patch ((le 2 aad.length).reverse ++ zeros 14) 2 (aad.take 14) =
        (le 2 aad.length).reverse ++ patch (zeros 14) 0 (aad.take 14) := by
      rw [patch, List.take_left' h2, List.drop_append, h2, List.drop_of_length_le (by omega),
        patch]
      simp
    rw [patch_zeros, h2, hpatch, patch_zeros, List.append_assoc, List.length_take]
    congr 3
    omega
  unfold absorbAad
  simp only [hl, htake, hdrop, Nat.mod_eq_of_lt (show aad.length < 2 ^ 16 by omega), hblock]
  rw [bxory_full hlen hy, absorb_eq hE (hE _), henc, blocks_pad hne, hfirst, hrest, hall, cbc_cons,
    xor_swap]

/-- A block with flags, a nonce and a number of four octets. -/
theorem patch_block {nonce w : Bytes} (hn : nonce.length = 11) (hw : w.length = 4) (f : UInt8) :
    patch (patch (patch (zeros 16) 0 [f]) 12 w) 1 nonce = f :: (nonce ++ w) := by
  have h1 : patch (zeros 16) 0 [f] = f :: (zeros 11 ++ zeros 4) := rfl
  have h2 : patch (f :: (zeros 11 ++ zeros 4)) 12 w = f :: (zeros 11 ++ w) := by
    have h12 : (f :: zeros 11).length = 12 := rfl
    have hcons : f :: (zeros 11 ++ zeros 4) = (f :: zeros 11) ++ zeros 4 := rfl
    rw [hcons, patch, List.take_left' h12, List.drop_of_length_le (by simp [hw])]
    simp
  rw [h1, h2, patch, hn]
  show [f] ++ nonce ++ (zeros 11 ++ w).drop 11 = _
  rw [List.drop_left' (length_zeros 11)]
  simp

theorem aesCcmGenerateB0_eq (c : CcmCall) (p : Bytes) :
    aesCcmGenerateB0 c.nonce c.aad.length p.length c.mlen = ccmB0 c.params c.nonce c.aad p := by
  obtain ⟨key, nonce, aad, mlen, hn, _, hm⟩ := c
  have hplen : be32 (p.length % 2 ^ 32) = (le 4 p.length).reverse :=
    congrArg List.reverse (le_mod 4 p.length)
  have hflags : ((if aad.length ≠ 0 then (0x40 : UInt8) else 0) |||
      .ofNat (((mlen - 2) / 2) <<< 3 &&& 0x38)) ||| .ofNat ((15 - nonce.length - 1) &&& 0x07) =
      .ofNat ((if aad = [] then 0 else 64) + 8 * ((mlen - 2) / 2) + (4 - 1)) := by
    rw [hn]
    have hcases : mlen = 4 ∨ mlen = 6 ∨ mlen = 8 ∨ mlen = 10 ∨ mlen = 12 ∨ mlen = 14 ∨
        mlen = 16 := by
      simpa using hm
    cases aad with
    | nil => rcases hcases with rfl | rfl | rfl | rfl | rfl | rfl | rfl <;> decide
    | cons a aad =>
      rw [if_pos (by simp), if_neg (by simp)]
      rcases hcases with rfl | rfl | rfl | rfl | rfl | rfl | rfl <;> decide
  unfold aesCcmGenerateB0 ccmB0
  rw [hplen, patch_block hn (by simp), hflags]
  rfl

theorem ccmGenerateS_eq (E : Bytes → Bytes) (c : CcmCall) (i : Nat) :
    ccmGenerateS E c.nonce i = ccmStream E c.params c.nonce i := by
  have hi : be32 (i % 2 ^ 32) = (le 4 i).reverse := congrArg List.reverse (le_mod 4 i)
  have hlen : (le 4 i).reverse.length = 4 := by simp
  simp only [ccmGenerateS, ccmStream, hi, patch_block c.nonce_length hlen, c.nonce_length]
  rfl

theorem ccmGenerateT_eq (hE : ∀ b, (E b).length = 16) (c : CcmCall)
    (p : Bytes) : ccmGenerateT E c p = ccmMac E c.params c.nonce c.aad p := by
  have hb0 : (ccmB0 c.params c.nonce c.aad p).length = 16 := by
    simp [ccmB0, c.nonce_length, CcmCall.params]
  unfold ccmGenerateT ccmMac
  rw [aesCcmGenerateB0_eq, cbc_cons, xor_swap, xor_zeros (by omega), cbc_append]
  by_cases haad : c.aad = []
  · have hskip : ¬ c.aad.length ≠ 0 := by simp [haad]
    simp only [if_neg hskip, absorb_eq hE (hE _)]
    rw [haad]
    rfl
  · have hsome : c.aad.length ≠ 0 := by simpa using haad
    have hlen : (absorbAad E (E (ccmB0 c.params c.nonce c.aad p)) c.aad).length = 16 := by
      rw [absorbAad_eq hE (hE _) haad c.aad_length]
      exact length_cbc hE (hE _) _
    simp only [if_pos hsome, absorb_eq hE hlen]
    rw [absorbAad_eq hE (hE _) haad c.aad_length]
    rfl

/-! ## The text -/

/-- The loop masks what it has before it, as long as the offsets of its blocks are `int`s. -/
theorem ccmCryptFrom_eq (hE : ∀ b, (E b).length = 16) (c : CcmCall) {j : Nat}
    (hj : 16 * j ≤ 2 ^ 31) {before : Bytes} (hbefore : before.length = 16 * j) (rest : Bytes) :
    ccmCryptFrom E c.nonce j rest.length (before ++ rest) =
      if 16 * j + rest.length ≤ 2 ^ 31 then
        some (before ++ ctr (ccmStream E c.params c.nonce) (j + 1) rest)
      else none := by
  induction hn : rest.length using Nat.strong_induction_on generalizing j before rest with
  | _ n ih =>
    have hS : ∀ i, (ccmStream E c.params c.nonce i).length = 16 := fun i => hE _
    by_cases h : rest = []
    · subst h
      have hzero : n = 0 := hn.symm
      subst hzero
      unfold ccmCryptFrom
      rw [if_pos rfl, if_pos (by omega)]
      rfl
    · have hpos := List.length_pos_iff.mpr h
      unfold ccmCryptFrom
      rw [if_neg (by omega)]
      by_cases hover : 2 ^ 31 ≤ j * 16
      · simp only [if_pos hover]
        rw [if_neg (by omega)]
      · have hl : (if 16 < n then 16 else n) = min 16 n := by split <;> omega
        have hmask : bxory rest (ccmStream E c.params c.nonce (j + 1)) (min 16 n) =
            xor (rest.take 16) (ccmStream E c.params c.nonce (j + 1)) ++ rest.drop 16 := by
          have htake : rest.take (min 16 n) = rest.take 16 := by
            rw [List.take_eq_take_iff]
            omega
          have hdrop : rest.drop (min 16 n) = rest.drop 16 := by
            by_cases hlong : 16 ≤ n
            · rw [Nat.min_eq_left hlong]
            · rw [Nat.min_eq_right (by omega), List.drop_of_length_le (by omega),
                List.drop_of_length_le (by omega)]
          rw [bxory, htake, hdrop, xor_take (by rw [List.length_take]; omega)]
        have hhead : (xor (rest.take 16) (ccmStream E c.params c.nonce (j + 1))).length = min 16 n := by
          rw [length_xor, hS, List.length_take]
          omega
        simp only [if_neg hover, hl, ccmGenerateS_eq]
        rw [List.take_left' (by omega), List.drop_left' (by omega), hmask, ← List.append_assoc]
        by_cases hlong : 16 ≤ n
        · have hrest : n - min 16 n = (rest.drop 16).length := by
            rw [List.length_drop]
            omega
          rw [hrest, ih (rest.drop 16).length (by rw [List.length_drop]; omega) (j := j + 1)
            (by omega) (by rw [List.length_append, hhead]; omega) (rest.drop 16) rfl,
            ctr_cons hS (j + 1) h, List.append_assoc]
          congr 1
          rw [List.length_drop]
          exact propext ⟨fun _ => by omega, fun _ => by omega⟩
        · -- the last block is short: nothing is left to do
          have hnil : rest.drop 16 = [] := List.drop_of_length_le (by omega)
          have hzero : n - min 16 n = 0 := by omega
          rw [hzero, hnil]
          unfold ccmCryptFrom
          rw [if_pos rfl, if_pos (by omega), ctr_cons hS (j + 1) h, hnil, List.append_assoc]
          rfl

theorem aesCcmCrypt_eq (hE : ∀ b, (E b).length = 16) (c : CcmCall)
    (p : Bytes) :
    aesCcmCrypt E c.nonce p =
      if p.length ≤ 2 ^ 31 then some (ctr (ccmStream E c.params c.nonce) 1 p) else none := by
  have hnone : ([] : Bytes).length = 16 * 0 := rfl
  have h := ccmCryptFrom_eq hE c (by omega) hnone p
  rw [aesCcmCrypt]
  simpa using h

/-! ## The tag -/

theorem memcmp_eq_zero {a b : Bytes} (h : a.length = b.length) : memcmp a b = 0 ↔ a = b := by
  induction a generalizing b with
  | nil =>
    cases b with
    | nil => exact iff_of_true rfl rfl
    | cons y b => cases h
  | cons x a ih =>
    cases b with
    | nil => cases h
    | cons y b =>
      have hrest : a.length = b.length := by simpa using h
      rw [memcmp, List.cons.injEq]
      split
      · rename_i hxy
        rw [ih hrest]
        simp [hxy]
      · rename_i hxy
        have hne : x.toNat ≠ y.toNat := fun he => hxy (UInt8.toNat_inj.mp he)
        exact iff_of_false (by omega) (fun he => hxy he.1)

theorem CcmCall.mlen_le (c : CcmCall) : c.mlen ≤ 16 := by
  have hmem := c.mlen_mem
  simp only [List.mem_cons, List.not_mem_nil, or_false] at hmem
  omega

theorem length_ccmMac (hE : ∀ b, (E b).length = 16) (c : CcmCall) (p : Bytes) :
    (ccmMac E c.params c.nonce c.aad p).length = c.mlen := by
  have h16 : (cbc E (zeros 16) (ccmB0 c.params c.nonce c.aad p ::
      (blocks (pad (encodeAadLength c.aad.length ++ c.aad)) ++ blocks (pad p)))).length = 16 :=
    length_cbc hE (length_zeros 16) _
  rw [ccmMac, List.length_take, h16]
  exact Nat.min_eq_left c.mlen_le

/-- The MAC is masked as a whole. -/
theorem length_ccmTag (hE : ∀ b, (E b).length = 16) (c : CcmCall) (p : Bytes) :
    (ccmEncrypt E c.params c.nonce c.aad p).2.length = c.mlen := by
  have h16 : (ccmStream E c.params c.nonce 0).length = 16 := hE _
  rw [ccmEncrypt, length_xor, length_ccmMac hE, h16]
  exact Nat.min_eq_left c.mlen_le

/-- The masked tag. -/
theorem tag_eq (hE : ∀ b, (E b).length = 16) (c : CcmCall) (p : Bytes) :
    bxory (ccmGenerateT E c p) (ccmGenerateS E c.nonce 0) c.mlen =
      xor (ccmMac E c.params c.nonce c.aad p) (ccmStream E c.params c.nonce 0) := by
  have hlen := length_ccmMac hE c p
  rw [ccmGenerateT_eq hE, ccmGenerateS_eq, bxory, List.take_of_length_le (by omega),
    List.drop_of_length_le (by omega), List.append_nil, xor_take (by omega)]

/-- Encryption is CCM, up to 2^31 octets. -/
theorem aes128ccmEncrypt_eq (C : BlockCipher) (c : CcmCall) (p : Bytes) :
    aes128ccmEncrypt C c p =
      if p.length ≤ 2 ^ 31 then some (ccmEncrypt (C.encrypt c.key) c.params c.nonce c.aad p)
      else none := by
  have hE := C.length_encrypt c.key
  unfold aes128ccmEncrypt
  simp only [tag_eq hE, aesCcmCrypt_eq hE]
  split <;> rfl

/-- So is decryption, and 0 stands for the right tag. -/
theorem aes128ccmDecrypt_eq (C : BlockCipher) (c : CcmCall) {text tag : Bytes}
    (htext : text.length ≤ 2 ^ 31) (htag : tag.length = c.mlen) :
    ∃ ret, aes128ccmDecrypt C c text tag =
        some ((ccmDecrypt (C.encrypt c.key) c.params c.nonce c.aad text tag).1, ret) ∧
      (ret = 0 ↔ (ccmDecrypt (C.encrypt c.key) c.params c.nonce c.aad text tag).2 = true) := by
  have hE := C.length_encrypt c.key
  have hlen (p : Bytes) : (xor (ccmMac (C.encrypt c.key) c.params c.nonce c.aad p)
      (ccmStream (C.encrypt c.key) c.params c.nonce 0)).length = c.mlen := length_ccmTag hE c p
  unfold aes128ccmDecrypt
  simp only [tag_eq hE, aesCcmCrypt_eq hE, if_pos htext, Option.map_some]
  refine ⟨_, rfl, ?_⟩
  rw [List.take_of_length_le (Nat.le_of_eq (hlen _)), List.take_of_length_le (by omega),
    memcmp_eq_zero (by rw [hlen, htag])]
  simp [ccmDecrypt]

/-- **Encryption is CCM, and decryption restores the plain text and returns 0, exactly up to 2^31
octets.** -/
theorem aes128ccm_iff (C : BlockCipher) (c : CcmCall) (p : Bytes) :
    (∃ text tag, aes128ccmEncrypt C c p = some (text, tag) ∧
        (text, tag) = ccmEncrypt (C.encrypt c.key) c.params c.nonce c.aad p ∧
        aes128ccmDecrypt C c text tag = some (p, 0)) ↔
      p.length ≤ 2 ^ 31 := by
  have hE := C.length_encrypt c.key
  constructor
  · rintro ⟨text, tag, henc, _, _⟩
    rw [aes128ccmEncrypt_eq] at henc
    by_contra hlong
    rw [if_neg hlong] at henc
    cases henc
  · intro hlen
    have hback := ccmDecrypt_ccmEncrypt hE c.params c.nonce c.aad p
    have htext : (ccmEncrypt (C.encrypt c.key) c.params c.nonce c.aad p).1.length ≤ 2 ^ 31 := by
      have hsame := length_ctr (S := ccmStream (C.encrypt c.key) c.params c.nonce)
        (fun i => hE _) 1 p
      exact Nat.le_trans (Nat.le_of_eq hsame) hlen
    obtain ⟨ret, hdec, hret⟩ := aes128ccmDecrypt_eq C c htext (length_ccmTag hE c p)
    rw [hback] at hdec hret
    refine ⟨_, _, (aes128ccmEncrypt_eq C c p).trans (if_pos hlen), rfl, ?_⟩
    rw [hret.mpr rfl] at hdec
    exact hdec

/-- A block function that is of no use. -/
def zeroCipher : BlockCipher := ⟨fun _ _ => zeros 16, fun _ _ => rfl⟩

/-- A call without associated data. -/
def plainCall : CcmCall where
  key := []
  nonce := zeros 11
  aad := []
  mlen := 16
  nonce_length := rfl
  aad_length := by decide
  mlen_mem := by decide

/-- A message of 2^31 + 1 octets is not encrypted to anything that C defines. -/
theorem aes128ccm_overflows :
    (zeros (2 ^ 31 + 1)).length < 2 ^ 32 ∧
      aes128ccmEncrypt zeroCipher plainCall (zeros (2 ^ 31 + 1)) = none := by
  refine ⟨by rw [length_zeros]; decide, ?_⟩
  rw [aes128ccmEncrypt_eq, if_neg (by rw [length_zeros]; decide)]

end Libsmb2.Signing
