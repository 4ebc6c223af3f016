import Libsmb2.Util.Bytes

/-!
# Modes of a block cipher

CBC-MAC, CMAC, counter mode and CCM over a block function of 16 octets, which is a parameter
here, on octet strings.  Nothing here knows about SMB.

* `blocks_cons`, `cbc_append` — a string block by block, and a MAC over a part and the rest;
* `blocks_pad` — the blocks of a padded string;
* `ccmDecrypt_ccmEncrypt` — CCM restores the plain text and accepts the tag.
-/

set_option autoImplicit false

namespace Libsmb2.Util

/-- A block function under a key: whatever it is given, it yields 16 octets. -/
structure BlockCipher where
  encrypt : Bytes → Bytes → Bytes
  length_encrypt : ∀ key block, (encrypt key block).length = 16

/-- The octets of both strings, one by one, up to the end of the shorter one. -/
def xor (a b : Bytes) : Bytes := List.zipWith (· ^^^ ·) a b

/-- The blocks of a string.  The last one may be short. -/
def blocks (bs : Bytes) : List Bytes :=
  (List.range ((bs.length + 15) / 16)).map fun i => slice bs (16 * i) 16

/-- Zeros up to a whole number of blocks. -/
def pad (bs : Bytes) : Bytes := bs ++ zeros ((16 - bs.length % 16) % 16)

/-- CBC-MAC, from a chaining value on. -/
def cbc (E : Bytes → Bytes) (x : Bytes) (bs : List Bytes) : Bytes :=
  bs.foldl (fun x b => E (xor x b)) x

/-! ## Numbers as octets -/

theorem le_succ_last (k n : Nat) : le (k + 1) n = le k n ++ [.ofNat (n / 256 ^ k)] := by
  induction k generalizing n with
  | zero => simp [le]
  | succ k ih =>
    rw [le, ih, le, Nat.div_div_eq_div_mul, Nat.pow_succ']
    rfl

theorem le_append (j k n : Nat) : le (j + k) n = le j n ++ le k (n / 256 ^ j) := by
  induction j generalizing n with
  | zero => simp [le]
  | succ j ih =>
    rw [Nat.add_right_comm, le, ih, le, Nat.div_div_eq_div_mul, ← Nat.pow_succ', List.cons_append]

/-- The low octets do not see what is added above them. -/
theorem le_add_mul (k n m : Nat) : le k (n + 256 ^ k * m) = le k n := by
  induction k generalizing n m with
  | zero => rfl
  | succ k ih =>
    have hdiv : (n + 256 ^ (k + 1) * m) / 256 = n / 256 + 256 ^ k * m := by
      rw [Nat.pow_succ', Nat.mul_assoc, Nat.add_mul_div_left _ _ (by decide)]
    have hhead : UInt8.ofNat (n + 256 ^ (k + 1) * m) = UInt8.ofNat n := by
      apply UInt8.toNat_inj.mp
      rw [Nat.pow_succ', Nat.mul_assoc]
      simp
    rw [le, le, hdiv, ih, hhead]

theorem fromLe_append_one (bs : Bytes) (b : UInt8) :
    fromLe (bs ++ [b]) = fromLe bs + 256 ^ bs.length * b.toNat := by
  induction bs with
  | nil => simp [fromLe]
  | cons x bs ih =>
    rw [List.cons_append, fromLe, ih, fromLe, List.length_cons, Nat.pow_succ', Nat.mul_add,
      Nat.mul_assoc, Nat.add_assoc]

/-- Only the octets that are written matter. -/
theorem le_mod (k n : Nat) : le k (n % 256 ^ k) = le k n := by
  conv_rhs => rw [← Nat.mod_add_div n (256 ^ k)]
  exact (le_add_mul k _ _).symm

/-! ## Blocks -/

theorem length_xor (a b : Bytes) : (xor a b).length = min a.length b.length :=
  List.length_zipWith

variable {bs a k b : Bytes}

theorem xor_zeros {n : Nat} (h : a.length ≤ n) : xor a (zeros n) = a := by
  induction a generalizing n with
  | nil => rfl
  | cons x a ih =>
    obtain ⟨m, rfl⟩ : ∃ m, n = m + 1 := ⟨n - 1, by rw [List.length_cons] at h; omega⟩
    have hrest : a.length ≤ m := by
      rw [List.length_cons] at h
      omega
    show (x ^^^ 0) :: xor a (zeros m) = x :: a
    rw [ih hrest]
    simp

theorem xor_swap (a b : Bytes) : xor a b = xor b a :=
  List.zipWith_comm_of_comm fun x y => UInt8.xor_comm x y

/-- What is masked twice is as it was. -/
theorem xor_xor_cancel (h : a.length ≤ k.length) : xor (xor a k) k = a := by
  induction a generalizing k with
  | nil => rfl
  | cons x a ih =>
    cases k with
    | nil => simp at h
    | cons y k =>
      have hrest : a.length ≤ k.length := by simpa using h
      show (x ^^^ y ^^^ y) :: xor (xor a k) k = x :: a
      rw [ih hrest, UInt8.xor_assoc, UInt8.xor_self, UInt8.xor_zero]

/-- The mask is as long as the string. -/
theorem xor_take {n : Nat} (h : a.length ≤ n) : xor a (k.take n) = xor a k := by
  induction a generalizing k n with
  | nil => rfl
  | cons x a ih =>
    cases k with
    | nil => simp
    | cons y k =>
      obtain ⟨m, rfl⟩ : ∃ m, n = m + 1 := ⟨n - 1, by rw [List.length_cons] at h; omega⟩
      have hrest : a.length ≤ m := by
        rw [List.length_cons] at h
        omega
      show (x ^^^ y) :: xor a (k.take m) = (x ^^^ y) :: xor a k
      rw [ih hrest]

theorem xor_append :
    xor (a ++ b) k = xor a (k.take a.length) ++ xor b (k.drop a.length) := by
  induction a generalizing k with
  | nil => simp [xor]
  | cons x a ih =>
    cases k with
    | nil => simp [xor]
    | cons y k =>
      show (x ^^^ y) :: xor (a ++ b) k = _
      rw [ih]
      rfl

@[simp] theorem blocks_nil : blocks [] = [] := rfl

/-- The first block, and the blocks behind it. -/
theorem blocks_cons (h : bs ≠ []) : blocks bs = bs.take 16 :: blocks (bs.drop 16) := by
  have hpos := List.length_pos_iff.mpr h
  have hcount : (bs.length + 15) / 16 = ((bs.drop 16).length + 15) / 16 + 1 := by
    rw [List.length_drop]
    omega
  unfold blocks
  rw [hcount, List.range_succ_eq_map, List.map_cons, List.map_map]
  congr 1
  apply List.map_congr_left
  intro i _
  show slice bs (16 * (i + 1)) 16 = slice (bs.drop 16) (16 * i) 16
  rw [slice, slice, List.drop_drop, show 16 + 16 * i = 16 * (i + 1) by omega]

theorem cbc_cons (E : Bytes → Bytes) (x b : Bytes) (bs : List Bytes) :
    cbc E x (b :: bs) = cbc E (E (xor x b)) bs := rfl

theorem cbc_append (E : Bytes → Bytes) (x : Bytes) (as bs : List Bytes) :
    cbc E x (as ++ bs) = cbc E (cbc E x as) bs :=
  List.foldl_append

theorem length_cbc {E : Bytes → Bytes} (hE : ∀ b, (E b).length = 16) {x : Bytes}
    (hx : x.length = 16) (bs : List Bytes) : (cbc E x bs).length = 16 := by
  induction bs generalizing x with
  | nil => exact hx
  | cons b bs ih => exact ih (hE _)

theorem pad_nil : pad [] = [] := rfl

/-- Padding leaves a whole first block alone. -/
theorem pad_long (h : 16 ≤ bs.length) : pad bs = bs.take 16 ++ pad (bs.drop 16) := by
  have hrest : (bs.drop 16).length % 16 = bs.length % 16 := by
    rw [List.length_drop]
    omega
  rw [pad, pad, hrest, ← List.append_assoc, List.take_append_drop]

theorem pad_short (h0 : bs ≠ []) (h : bs.length ≤ 16) :
    pad bs = bs ++ zeros (16 - bs.length) := by
  have hpos := List.length_pos_iff.mpr h0
  rw [pad, show (16 - bs.length % 16) % 16 = 16 - bs.length by omega]

/-- The blocks of a padded string, one by one. -/
theorem blocks_pad (h : bs ≠ []) :
    blocks (pad bs) = (bs.take 16 ++ zeros (16 - bs.length)) :: blocks (pad (bs.drop 16)) := by
  have hpos := List.length_pos_iff.mpr h
  by_cases hlong : 16 ≤ bs.length
  · have h16 : (bs.take 16).length = 16 := by simp [hlong]
    have hne : pad bs ≠ [] := fun he => h (List.append_eq_nil_iff.mp he).1
    rw [blocks_cons hne, pad_long hlong, List.take_left' h16, List.drop_left' h16,
      show 16 - bs.length = 0 by omega]
    simp [zeros]
  · have hall : (bs ++ zeros (16 - bs.length)).length = 16 := by
      simp only [List.length_append, length_zeros]
      omega
    have hne : bs ++ zeros (16 - bs.length) ≠ [] := fun he => h (List.append_eq_nil_iff.mp he).1
    rw [pad_short h (by omega), blocks_cons hne, List.take_of_length_le (by omega),
      List.drop_of_length_le (by omega), List.take_of_length_le (by omega),
      List.drop_of_length_le (by omega), pad_nil]

/-! ## CMAC -/

/-- The constant of the field with 2^128 elements. -/
def Rb : Bytes := zeros 15 ++ [0x87]

/-- Doubling: a shift to the left, reduced if the top bit is set. -/
def double (b : Bytes) : Bytes :=
  let v := fromLe b.reverse
  let shifted := (le 16 (2 * v)).reverse
  if 2 ^ 127 ≤ v then xor shifted Rb else shifted

/-- CMAC.  The last block is masked with one key if it is whole, else padded with a one bit and
zeros, and masked with another. -/
def cmac (E : Bytes → Bytes) (msg : Bytes) : Bytes :=
  let k1 := double (E (zeros 16))
  let k2 := double k1
  let n := max 1 ((msg.length + 15) / 16)
  let first := msg.take (16 * (n - 1))
  let last := msg.drop (16 * (n - 1))
  let final :=
    if last.length = 16 then xor last k1 else xor (last ++ 0x80 :: zeros (15 - last.length)) k2
  E (xor (cbc E (zeros 16) (blocks first)) final)

theorem length_double : (double b).length = 16 := by
  unfold double
  dsimp only
  split
  · simp [length_xor, Rb]
  · simp

/-! ## CCM -/

/-- The length of the associated data, in front of it. -/
def encodeAadLength (n : Nat) : Bytes :=
  if n = 0 then []
  else if n < 65280 then (le 2 n).reverse
  else if n < 2 ^ 32 then [0xff, 0xfe] ++ (le 4 n).reverse
  else [0xff, 0xff] ++ (le 8 n).reverse

/-- The parameters of CCM: the octets of the tag and of the length field. -/
structure CcmParams where
  M : Nat
  L : Nat

/-- The first block: flags, nonce, and the length of the message. -/
def ccmB0 (c : CcmParams) (nonce aad msg : Bytes) : Bytes :=
  .ofNat ((if aad = [] then 0 else 64) + 8 * ((c.M - 2) / 2) + (c.L - 1)) ::
    (nonce ++ (le c.L msg.length).reverse)

/-- The MAC over the first block, the associated data and the message. -/
def ccmMac (E : Bytes → Bytes) (c : CcmParams) (nonce aad msg : Bytes) : Bytes :=
  (cbc E (zeros 16) (ccmB0 c nonce aad msg ::
    (blocks (pad (encodeAadLength aad.length ++ aad)) ++ blocks (pad msg)))).take c.M

/-- A block of the key stream. -/
def ccmStream (E : Bytes → Bytes) (c : CcmParams) (nonce : Bytes) (i : Nat) : Bytes :=
  E (.ofNat (c.L - 1) :: (nonce ++ (le c.L i).reverse))

/-- The key stream from a block on. -/
def ctrStream (S : Nat → Bytes) (i n : Nat) : Bytes :=
  (List.range ((n + 15) / 16)).flatMap fun k => S (i + k)

/-- Counter mode from a block of the key stream on. -/
def ctr (S : Nat → Bytes) (i : Nat) (msg : Bytes) : Bytes :=
  xor msg (ctrStream S i msg.length)

/-- The cipher text and the tag. -/
def ccmEncrypt (E : Bytes → Bytes) (c : CcmParams) (nonce aad msg : Bytes) : Bytes × Bytes :=
  (ctr (ccmStream E c nonce) 1 msg, xor (ccmMac E c nonce aad msg) (ccmStream E c nonce 0))

/-- The plain text, and whether the tag is the right one. -/
def ccmDecrypt (E : Bytes → Bytes) (c : CcmParams) (nonce aad text tag : Bytes) : Bytes × Bool :=
  let msg := ctr (ccmStream E c nonce) 1 text
  (msg, xor (ccmMac E c nonce aad msg) (ccmStream E c nonce 0) == tag)

section
variable {S : Nat → Bytes} (hS : ∀ i, (S i).length = 16)
include hS

theorem length_ctrStream (i n : Nat) : (ctrStream S i n).length = 16 * ((n + 15) / 16) := by
  unfold ctrStream
  generalize (n + 15) / 16 = k
  induction k with
  | zero => rfl
  | succ k ih =>
    rw [List.range_succ, List.flatMap_append, List.length_append, ih]
    simp [hS]
    omega

theorem length_ctr (i : Nat) (msg : Bytes) : (ctr S i msg).length = msg.length := by
  rw [ctr, length_xor, length_ctrStream hS]
  omega

/-- The first block is masked with the first block of the key stream. -/
theorem ctr_cons (i : Nat) {msg : Bytes} (h : msg ≠ []) :
    ctr S i msg = xor (msg.take 16) (S i) ++ ctr S (i + 1) (msg.drop 16) := by
  have hpos := List.length_pos_iff.mpr h
  have hcount : (msg.length + 15) / 16 = ((msg.drop 16).length + 15) / 16 + 1 := by
    rw [List.length_drop]
    omega
  have hstream : ctrStream S i msg.length = S i ++ ctrStream S (i + 1) (msg.drop 16).length := by
    unfold ctrStream
    rw [hcount, List.range_succ_eq_map, List.flatMap_cons, List.flatMap_map]
    congr 1
    apply List.flatMap_congr
    intro k _
    show S (i + (k + 1)) = S (i + 1 + k)
    rw [Nat.add_right_comm, Nat.add_assoc]
  rw [ctr, hstream]
  by_cases hlong : 16 ≤ msg.length
  · have h16 : (msg.take 16).length = 16 := by simp [hlong]
    conv_lhs => rw [← List.take_append_drop 16 msg, xor_append, h16]
    rw [List.take_left' (hS i), List.drop_left' (hS i)]
    simp [ctr]
  · have hshort : msg.length ≤ 16 := by omega
    rw [List.take_of_length_le hshort, List.drop_of_length_le hshort]
    simp [ctr, ctrStream, xor]

theorem ctr_ctr (i : Nat) (msg : Bytes) : ctr S i (ctr S i msg) = msg := by
  rw [ctr, length_ctr hS, ctr]
  apply xor_xor_cancel
  rw [length_ctrStream hS]
  omega

end

theorem ccmDecrypt_ccmEncrypt {E : Bytes → Bytes} (hE : ∀ b, (E b).length = 16) (c : CcmParams)
    (nonce aad msg : Bytes) :
    ccmDecrypt E c nonce aad (ccmEncrypt E c nonce aad msg).1 (ccmEncrypt E c nonce aad msg).2 =
      (msg, true) := by
  have hback := ctr_ctr (S := ccmStream E c nonce) (fun i => hE _) 1 msg
  simp only [ccmDecrypt, ccmEncrypt, hback, beq_self_eq_true]

end Libsmb2.Util
