import Libsmb2.Util.Calls
import Libsmb2.Util.Digest
import Libsmb2.Util.Modes

/-!
# SHA-256, SHA-384 and SHA-512

`sha224-256.c` and `sha384-512.c` are one program at two word sizes.  A context counts the bits
of a text in two words; a text that needs more of them spoils it, and so does a call after the
digest has been taken.  Texts may end in the middle of an octet.

* `inputLoop_stands`, `padMessage_eq` — the octets of a text, and its end;
* `machine_simulates` — one call, on the context and on what it stands for;
* `sha_runs` — **every run of calls after a reset answers as the digests of the texts say.**
-/

set_option autoImplicit false

namespace Libsmb2.Digest

open Util

/-! ## Words -/

/-- A word of `b` octets. -/
abbrev Word (b : Nat) := BitVec (8 * b)

/-- Eight words of state. -/
structure ShaWords (b : Nat) where
  A : Word b
  B : Word b
  C : Word b
  D : Word b
  E : Word b
  F : Word b
  G : Word b
  H : Word b
  deriving DecidableEq, Repr

/-- The octets of a number, the highest one first. -/
def be (k n : Nat) : Bytes := (le k n).reverse

@[simp] theorem length_be (k n : Nat) : (be k n).length = k := by
  simp [be]

namespace ShaWords

variable {b : Nat}

def add (s t : ShaWords b) : ShaWords b :=
  ⟨s.A + t.A, s.B + t.B, s.C + t.C, s.D + t.D, s.E + t.E, s.F + t.F, s.G + t.G, s.H + t.H⟩

def octets (s : ShaWords b) : Bytes :=
  be b s.A.toNat ++ be b s.B.toNat ++ be b s.C.toNat ++ be b s.D.toNat ++ be b s.E.toNat ++
    be b s.F.toNat ++ be b s.G.toNat ++ be b s.H.toNat

theorem length_octets (s : ShaWords b) : s.octets.length = 8 * b := by
  simp only [octets, List.length_append, length_be]
  omega

end ShaWords

/-! ## The compression function -/

/-- What the two files differ in. -/
structure ShaFamily (b : Nat) where
  b_pos : 0 < b
  K : List (Word b)
  SIGMA0 : Word b → Word b
  SIGMA1 : Word b → Word b
  sigma0 : Word b → Word b
  sigma1 : Word b → Word b

def SHA_Ch {b : Nat} (x y z : Word b) : Word b := (x &&& y) ^^^ (~~~x &&& z)
def SHA_Maj {b : Nat} (x y z : Word b) : Word b := (x &&& y) ^^^ (x &&& z) ^^^ (y &&& z)

def rotr {b : Nat} (bits : Nat) (word : Word b) : Word b :=
  word >>> bits ||| word <<< (8 * b - bits)

namespace ShaFamily

variable {b : Nat} (V : ShaFamily b)

/-- `W[t]` for `t` from 16 on, behind the words there are. -/
def nextWord (W : List (Word b)) : Word b :=
  let t := W.length
  V.sigma1 (W.getD (t - 2) 0) + W.getD (t - 7) 0 + V.sigma0 (W.getD (t - 15) 0) + W.getD (t - 16) 0

/-- The array `W`: the words of the block, and as many more as there are rounds. -/
def schedule (block : Bytes) : List (Word b) :=
  let W := (List.range 16).map fun t => BitVec.ofNat (8 * b) (fromBe (slice block (b * t) b))
  (List.range (V.K.length - 16)).foldl (fun W _ => W ++ [V.nextWord W]) W

/-- A round with `K[t]` and `W[t]`. -/
def round (s : ShaWords b) (kw : Word b × Word b) : ShaWords b :=
  let temp1 := s.H + V.SIGMA1 s.E + SHA_Ch s.E s.F s.G + kw.1 + kw.2
  let temp2 := V.SIGMA0 s.A + SHA_Maj s.A s.B s.C
  ⟨temp1 + temp2, s.A, s.B, s.C, s.D + temp1, s.E, s.F, s.G⟩

/-- What `SHA224_256ProcessMessageBlock` and `SHA384_512ProcessMessageBlock` make of
`Intermediate_Hash`. -/
def compress (hash : ShaWords b) (block : Bytes) : ShaWords b :=
  hash.add ((V.K.zip (V.schedule block)).foldl V.round hash)

end ShaFamily

/-- The constants and functions of `sha224-256.c`. -/
def sha256Family : ShaFamily 4 where
  b_pos := by decide
  K :=
    [0x428a2f98, 0x71374491, 0xb5c0fbcf, 0xe9b5dba5, 0x3956c25b, 0x59f111f1,
     0x923f82a4, 0xab1c5ed5, 0xd807aa98, 0x12835b01, 0x243185be, 0x550c7dc3,
     0x72be5d74, 0x80deb1fe, 0x9bdc06a7, 0xc19bf174, 0xe49b69c1, 0xefbe4786,
     0x0fc19dc6, 0x240ca1cc, 0x2de92c6f, 0x4a7484aa, 0x5cb0a9dc, 0x76f988da,
     0x983e5152, 0xa831c66d, 0xb00327c8, 0xbf597fc7, 0xc6e00bf3, 0xd5a79147,
     0x06ca6351, 0x14292967, 0x27b70a85, 0x2e1b2138, 0x4d2c6dfc, 0x53380d13,
     0x650a7354, 0x766a0abb, 0x81c2c92e, 0x92722c85, 0xa2bfe8a1, 0xa81a664b,
     0xc24b8b70, 0xc76c51a3, 0xd192e819, 0xd6990624, 0xf40e3585, 0x106aa070,
     0x19a4c116, 0x1e376c08, 0x2748774c, 0x34b0bcb5, 0x391c0cb3, 0x4ed8aa4a,
     0x5b9cca4f, 0x682e6ff3, 0x748f82ee, 0x78a5636f, 0x84c87814, 0x8cc70208,
     0x90befffa, 0xa4506ceb, 0xbef9a3f7, 0xc67178f2]
  SIGMA0 word := rotr 2 word ^^^ rotr 13 word ^^^ rotr 22 word
  SIGMA1 word := rotr 6 word ^^^ rotr 11 word ^^^ rotr 25 word
  sigma0 word := rotr 7 word ^^^ rotr 18 word ^^^ word >>> 3
  sigma1 word := rotr 17 word ^^^ rotr 19 word ^^^ word >>> 10

/-- The constants and functions of `sha384-512.c`. -/
def sha512Family : ShaFamily 8 where
  b_pos := by decide
  K :=
    [0x428A2F98D728AE22, 0x7137449123EF65CD, 0xB5C0FBCFEC4D3B2F, 0xE9B5DBA58189DBBC,
     0x3956C25BF348B538, 0x59F111F1B605D019, 0x923F82A4AF194F9B, 0xAB1C5ED5DA6D8118,
     0xD807AA98A3030242, 0x12835B0145706FBE, 0x243185BE4EE4B28C, 0x550C7DC3D5FFB4E2,
     0x72BE5D74F27B896F, 0x80DEB1FE3B1696B1, 0x9BDC06A725C71235, 0xC19BF174CF692694,
     0xE49B69C19EF14AD2, 0xEFBE4786384F25E3, 0x0FC19DC68B8CD5B5, 0x240CA1CC77AC9C65,
     0x2DE92C6F592B0275, 0x4A7484AA6EA6E483, 0x5CB0A9DCBD41FBD4, 0x76F988DA831153B5,
     0x983E5152EE66DFAB, 0xA831C66D2DB43210, 0xB00327C898FB213F, 0xBF597FC7BEEF0EE4,
     0xC6E00BF33DA88FC2, 0xD5A79147930AA725, 0x06CA6351E003826F, 0x142929670A0E6E70,
     0x27B70A8546D22FFC, 0x2E1B21385C26C926, 0x4D2C6DFC5AC42AED, 0x53380D139D95B3DF,
     0x650A73548BAF63DE, 0x766A0ABB3C77B2A8, 0x81C2C92E47EDAEE6, 0x92722C851482353B,
     0xA2BFE8A14CF10364, 0xA81A664BBC423001, 0xC24B8B70D0F89791, 0xC76C51A30654BE30,
     0xD192E819D6EF5218, 0xD69906245565A910, 0xF40E35855771202A, 0x106AA07032BBD1B8,
     0x19A4C116B8D2D0C8, 0x1E376C085141AB53, 0x2748774CDF8EEB99, 0x34B0BCB5E19B48A8,
     0x391C0CB3C5C95A63, 0x4ED8AA4AE3418ACB, 0x5B9CCA4F7763E373, 0x682E6FF3D6B2B8A3,
     0x748F82EE5DEFB2FC, 0x78A5636F43172F60, 0x84C87814A1F0AB72, 0x8CC702081A6439EC,
     0x90BEFFFA23631E28, 0xA4506CEBDE82BDE9, 0xBEF9A3F7B2C67915, 0xC67178F2E372532B,
     0xCA273ECEEA26619C, 0xD186B8C721C0C207, 0xEADA7DD6CDE0EB1E, 0xF57D4F7FEE6ED178,
     0x06F067AA72176FBA, 0x0A637DC5A2C898A6, 0x113F9804BEF90DAE, 0x1B710B35131C471B,
     0x28DB77F523047D84, 0x32CAAB7B40C72493, 0x3C9EBE0A15C9BEBC, 0x431D67C49C100D4C,
     0x4CC5D4BECB3E42B6, 0x597F299CFC657E2A, 0x5FCB6FAB3AD6FAEC, 0x6C44198C4A475817]
  SIGMA0 word := rotr 28 word ^^^ rotr 34 word ^^^ rotr 39 word
  SIGMA1 word := rotr 14 word ^^^ rotr 18 word ^^^ rotr 41 word
  sigma0 word := rotr 1 word ^^^ rotr 8 word ^^^ word >>> 7
  sigma1 word := rotr 19 word ^^^ rotr 61 word ^^^ word >>> 6

def SHA256_H0 : ShaWords 4 :=
  ⟨0x6A09E667, 0xBB67AE85, 0x3C6EF372, 0xA54FF53A, 0x510E527F, 0x9B05688C, 0x1F83D9AB, 0x5BE0CD19⟩

def SHA384_H0 : ShaWords 8 :=
  ⟨0xCBBB9D5DC1059ED8, 0x629A292A367CD507, 0x9159015A3070DD17, 0x152FECD8F70E5939,
    0x67332667FFC00B31, 0x8EB44A8768581511, 0xDB0C2E0D64F98FA7, 0x47B5481DBEFA4FA4⟩

def SHA512_H0 : ShaWords 8 :=
  ⟨0x6A09E667F3BCC908, 0xBB67AE8584CAA73B, 0x3C6EF372FE94F82B, 0xA54FF53A5F1D36F1,
    0x510E527FADE682D1, 0x9B05688C2B3E6C1F, 0x1F83D9ABFB41BD6B, 0x5BE0CD19137E2179⟩

/-! ## The context -/

/-- The codes that the functions return.  `Corrupted` is 1 when the length has overflowed, which
is `shaNull`. -/
inductive ShaCode
  | shaSuccess
  | shaNull
  | shaInputTooLong
  | shaStateError
  | shaBadParam
  deriving DecidableEq, Repr

/-- `SHA256Context`, `SHA384Context` and `SHA512Context`. -/
structure ShaContext (b : Nat) where
  intermediateHash : ShaWords b
  lengthLow : Word b
  lengthHigh : Word b
  messageBlockIndex : Nat
  messageBlock : Bytes
  computed : Bool
  corrupted : ShaCode

namespace ShaContext

variable {b : Nat}

/-- `SHA224_256AddLength` and `SHA384_512AddLength`: the high word is counted up on a carry, and
the length has overflowed when that makes it 0. -/
def addLength (ctx : ShaContext b) (length : Nat) : ShaContext b :=
  let low := ctx.lengthLow + .ofNat (8 * b) length
  if low < ctx.lengthLow then
    { ctx with
      lengthLow := low
      lengthHigh := ctx.lengthHigh + 1
      corrupted := if ctx.lengthHigh + 1 = 0 then .shaNull else .shaSuccess }
  else { ctx with lengthLow := low, corrupted := .shaSuccess }

/-- An octet goes into the block. -/
def putByte (ctx : ShaContext b) (x : UInt8) : ShaContext b :=
  { ctx with
    messageBlock := patch ctx.messageBlock ctx.messageBlockIndex [x]
    messageBlockIndex := ctx.messageBlockIndex + 1 }

/-- Zeros go into the block up to an index, in the loops of the padding. -/
def putZeros (ctx : ShaContext b) (stop : Nat) : ShaContext b :=
  { ctx with
    messageBlock :=
      patch ctx.messageBlock ctx.messageBlockIndex (zeros (stop - ctx.messageBlockIndex))
    messageBlockIndex := max ctx.messageBlockIndex stop }

/-- `SHA224_256Reset` and `SHA384_512Reset`, which leave in the block what was there. -/
def reset (ctx : ShaContext b) (H0 : ShaWords b) : ShaContext b :=
  { ctx with
    intermediateHash := H0
    lengthLow := 0
    lengthHigh := 0
    messageBlockIndex := 0
    computed := false
    corrupted := .shaSuccess }

end ShaContext

namespace ShaFamily

variable {b : Nat} (V : ShaFamily b)

/-- `SHA224_256ProcessMessageBlock` and `SHA384_512ProcessMessageBlock`. -/
def processMessageBlock (ctx : ShaContext b) : ShaContext b :=
  { ctx with
    intermediateHash := V.compress ctx.intermediateHash ctx.messageBlock
    messageBlockIndex := 0 }

/-- One round of the loop of `SHA256Input` and `SHA512Input`. -/
def inputByte (ctx : ShaContext b) (x : UInt8) : ShaContext b :=
  let ctx := (ctx.putByte x).addLength 8
  if ctx.corrupted = .shaSuccess ∧ ctx.messageBlockIndex = 16 * b then V.processMessageBlock ctx
  else ctx

/-- The loop, which ends early when the length has overflowed. -/
def inputLoop : Bytes → ShaContext b → ShaContext b
  | [], ctx => ctx
  | x :: message, ctx =>
    if ctx.corrupted ≠ .shaSuccess then ctx else inputLoop message (V.inputByte ctx x)

/-- `SHA256Input` and `SHA512Input`. -/
def input (ctx : ShaContext b) (message : Bytes) : ShaContext b × ShaCode :=
  if message.length = 0 then (ctx, .shaSuccess)
  else if ctx.computed then ({ ctx with corrupted := .shaStateError }, .shaStateError)
  else if ctx.corrupted ≠ .shaSuccess then (ctx, ctx.corrupted)
  else (V.inputLoop message ctx, .shaSuccess)

/-- `SHA224_256PadMessage` and `SHA384_512PadMessage`. -/
def padMessage (ctx : ShaContext b) (padByte : UInt8) : ShaContext b :=
  let ctx :=
    if 16 * b - 2 * b ≤ ctx.messageBlockIndex then
      V.processMessageBlock ((ctx.putByte padByte).putZeros (16 * b))
    else ctx.putByte padByte
  let ctx := ctx.putZeros (16 * b - 2 * b)
  V.processMessageBlock { ctx with
    messageBlock := patch ctx.messageBlock (16 * b - 2 * b)
      (be b ctx.lengthHigh.toNat ++ be b ctx.lengthLow.toNat) }

/-- `SHA224_256Finalize` and `SHA384_512Finalize`. -/
def finalize (ctx : ShaContext b) (padByte : UInt8) : ShaContext b :=
  { V.padMessage ctx padByte with
    messageBlock := zeros (16 * b)
    lengthLow := 0
    lengthHigh := 0
    computed := true }

/-- The last bits of a text above the mark that ends it. -/
def lastOctet (bits : UInt8) (length : Nat) : UInt8 :=
  bits &&& [0x00, 0x80, 0xC0, 0xE0, 0xF0, 0xF8, 0xFC, 0xFE].getD length 0 |||
    [0x80, 0x40, 0x20, 0x10, 0x08, 0x04, 0x02, 0x01].getD length 0

/-- `SHA256FinalBits` and `SHA512FinalBits`. -/
def finalBits (ctx : ShaContext b) (bits : UInt8) (length : Nat) : ShaContext b × ShaCode :=
  if length = 0 then (ctx, .shaSuccess)
  else if ctx.computed ∨ 8 ≤ length then
    ({ ctx with corrupted := .shaStateError }, .shaStateError)
  else if ctx.corrupted ≠ .shaSuccess then (ctx, ctx.corrupted)
  else (V.finalize (ctx.addLength length) (lastOctet bits length), .shaSuccess)

/-- `SHA224_256ResultN` and `SHA384_512ResultN`, with the digest they write. -/
def resultN (ctx : ShaContext b) (hashSize : Nat) : ShaContext b × ShaCode × Option Bytes :=
  if ctx.corrupted ≠ .shaSuccess then (ctx, ctx.corrupted, none)
  else
    let ctx := if ctx.computed then ctx else V.finalize ctx 0x80
    (ctx, .shaSuccess, some (ctx.intermediateHash.octets.take hashSize))

end ShaFamily

def sha256Reset (ctx : ShaContext 4) := ctx.reset SHA256_H0
def sha256Input := sha256Family.input
def sha256Result (ctx : ShaContext 4) := sha256Family.resultN ctx 32

def sha384Reset (ctx : ShaContext 8) := ctx.reset SHA384_H0
def sha384Input := sha512Family.input
def sha384Result (ctx : ShaContext 8) := sha512Family.resultN ctx 48

def sha512Reset (ctx : ShaContext 8) := ctx.reset SHA512_H0
def sha512Input := sha512Family.input
def sha512Result (ctx : ShaContext 8) := sha512Family.resultN ctx 64

/-! ## What a context stands for -/

namespace ShaFamily

variable {b : Nat} (V : ShaFamily b)

def hash (H0 : ShaWords b) : BlockHash (ShaWords b) where
  size := 16 * b
  size_pos := Nat.mul_pos (by decide) V.b_pos
  init := H0
  compress := V.compress

/-- The state at the end of a text with this many bits, of which the last ones are in the mark. -/
def digest (H0 : ShaWords b) (mark : UInt8) (bits : Nat) (text : Bytes) : ShaWords b :=
  (V.hash H0).digest mark (be (2 * b) bits) text

end ShaFamily

def sha256 (text : Bytes) : Bytes :=
  (sha256Family.digest SHA256_H0 0x80 (8 * text.length) text).octets.take 32

def sha384 (text : Bytes) : Bytes :=
  (sha512Family.digest SHA384_H0 0x80 (8 * text.length) text).octets.take 48

def sha512 (text : Bytes) : Bytes :=
  (sha512Family.digest SHA512_H0 0x80 (8 * text.length) text).octets.take 64

@[simp] theorem ShaFamily.hash_size {b : Nat} (V : ShaFamily b) (H0 : ShaWords b) :
    (V.hash H0).size = 16 * b := rfl

/-- The context stands for this text, whose bits it has counted. -/
structure ShaContext.Holds {b : Nat} (V : ShaFamily b) (H0 : ShaWords b) (ctx : ShaContext b)
    (text : Bytes) : Prop where
  buffers : (V.hash H0).Buffers text ctx.intermediateHash ctx.messageBlock
  index : ctx.messageBlockIndex = text.length % (16 * b)
  count : ctx.lengthLow.toNat + 2 ^ (8 * b) * ctx.lengthHigh.toNat = 8 * text.length
  computed : ctx.computed = false
  corrupted : ctx.corrupted = .shaSuccess

/-- The context will not give a digest any more. -/
def ShaContext.Spoiled {b : Nat} (ctx : ShaContext b) (computed : Bool) (code : ShaCode) : Prop :=
  ctx.computed = computed ∧ ctx.corrupted = code ∧ code ≠ .shaSuccess

section
variable {b : Nat} {V : ShaFamily b} {H0 : ShaWords b} {ctx : ShaContext b} {text : Bytes}

theorem word_toNat_zero : (0 : Word b).toNat = 0 := by
  simp

theorem word_toNat_one : (1 : Word b).toNat = 1 % 2 ^ (8 * b) := rfl

theorem reset_holds (h : ctx.messageBlock.length = 16 * b) : (ctx.reset H0).Holds V H0 [] where
  buffers := .start h
  index := (Nat.zero_mod _).symm
  count := by
    show (0 : Word b).toNat + 2 ^ (8 * b) * (0 : Word b).toNat = 0
    rw [word_toNat_zero, Nat.mul_zero]
  computed := rfl
  corrupted := rfl

/-- A count in two words, with the carry, and when it overflows. -/
theorem addLength_cases (ctx : ShaContext b) {n total : Nat} (hn : n < 2 ^ (8 * b))
    (h : ctx.lengthLow.toNat + 2 ^ (8 * b) * ctx.lengthHigh.toNat = total) :
    ∃ low high, ctx.addLength n = { ctx with
        lengthLow := low
        lengthHigh := high
        corrupted := if total + n < 2 ^ (8 * b) * 2 ^ (8 * b) then .shaSuccess else .shaNull } ∧
      (total + n < 2 ^ (8 * b) * 2 ^ (8 * b) →
        low.toNat + 2 ^ (8 * b) * high.toNat = total + n) := by
  have hlow := ctx.lengthLow.isLt
  have hhigh := ctx.lengthHigh.isLt
  have hsum : (ctx.lengthLow + .ofNat (8 * b) n).toNat =
      (ctx.lengthLow.toNat + n) % 2 ^ (8 * b) := by
    rw [BitVec.toNat_add, BitVec.toNat_ofNat, Nat.mod_eq_of_lt hn]
  have hnext : (ctx.lengthHigh + 1).toNat = (ctx.lengthHigh.toNat + 1) % 2 ^ (8 * b) := by
    rw [BitVec.toNat_add, word_toNat_one, Nat.add_mod_mod]
  have hzero : ctx.lengthHigh + 1 = 0 ↔ ctx.lengthHigh.toNat + 1 = 2 ^ (8 * b) := by
    rw [← BitVec.toNat_inj, hnext, word_toNat_zero]
    constructor
    · intro hmod
      have hle := Nat.le_of_dvd (by omega) (Nat.dvd_of_mod_eq_zero hmod)
      omega
    · intro heq
      rw [heq, Nat.mod_self]
  unfold ShaContext.addLength
  generalize 2 ^ (8 * b) = P at *
  by_cases hcarry : ctx.lengthLow.toNat + n < P
  · have hno : ¬ ctx.lengthLow + .ofNat (8 * b) n < ctx.lengthLow := by
      rw [BitVec.lt_def, hsum, Nat.mod_eq_of_lt hcarry]
      omega
    have hfit : total + n < P * P := by
      have hmul : P * (ctx.lengthHigh.toNat + 1) ≤ P * P := Nat.mul_le_mul_left P (by omega)
      rw [Nat.mul_add_one] at hmul
      omega
    refine ⟨ctx.lengthLow + .ofNat (8 * b) n, ctx.lengthHigh, ?_, fun _ => ?_⟩
    · dsimp only
      rw [if_neg hno, if_pos hfit]
    · rw [hsum, Nat.mod_eq_of_lt hcarry]
      omega
  · have hmod : (ctx.lengthLow.toNat + n) % P = ctx.lengthLow.toNat + n - P := by
      rw [Nat.mod_eq_sub_mod (by omega), Nat.mod_eq_of_lt (by omega)]
    have hyes : ctx.lengthLow + .ofNat (8 * b) n < ctx.lengthLow := by
      rw [BitVec.lt_def, hsum, hmod]
      omega
    refine ⟨ctx.lengthLow + .ofNat (8 * b) n, ctx.lengthHigh + 1, ?_, fun hfit => ?_⟩
    · dsimp only
      rw [if_pos hyes]
      congr 1
      -- the high word comes to 0 exactly if the total needs another one
      by_cases hlast : ctx.lengthHigh.toNat + 1 = P
      · have hmul : P * (ctx.lengthHigh.toNat + 1) = P * P := by rw [hlast]
        rw [Nat.mul_add_one] at hmul
        rw [if_pos (hzero.mpr hlast), if_neg (by omega)]
      · have hmul : P * (ctx.lengthHigh.toNat + 2) ≤ P * P := Nat.mul_le_mul_left P (by omega)
        rw [Nat.mul_add] at hmul
        rw [if_neg (fun h => hlast (hzero.mp h)), if_pos (by omega)]
    · have hroom : ctx.lengthHigh.toNat + 1 < P := by
        by_contra hfull
        have hmul : P * P ≤ P * (ctx.lengthHigh.toNat + 1) := Nat.mul_le_mul_left P (by omega)
        rw [Nat.mul_add_one] at hmul
        omega
      rw [hsum, hmod, hnext, Nat.mod_eq_of_lt hroom, Nat.mul_add_one]
      omega

theorem ShaFamily.byte_lt (V : ShaFamily b) {n : Nat} (hn : n ≤ 8) : n < 2 ^ (8 * b) := by
  have hb := V.b_pos
  have hpow : 2 ^ 8 ≤ 2 ^ (8 * b) := Nat.pow_le_pow_right (by decide) (by omega)
  omega

/-- An octet that the length has room for. -/
theorem inputByte_holds (h : ctx.Holds V H0 text) (x : UInt8)
    (hfit : 8 * text.length + 8 < 2 ^ (8 * b) * 2 ^ (8 * b)) :
    (V.inputByte ctx x).Holds V H0 (text ++ [x]) := by
  obtain ⟨low, high, heq, hcount⟩ :=
    addLength_cases (ctx.putByte x) (V.byte_lt (Nat.le_refl 8)) h.count
  have hlt : text.length % (16 * b) < 16 * b := h.buffers.off_lt
  have hindex := h.index
  have hbits : low.toNat + 2 ^ (8 * b) * high.toNat = 8 * (text ++ [x]).length := by
    rw [hcount hfit, List.length_append, List.length_singleton, Nat.mul_add]
  unfold ShaFamily.inputByte
  rw [heq, if_pos hfit]
  by_cases hfull : text.length % (16 * b) + 1 = 16 * b
  · have hfill := h.buffers.fill [x] hfull (show (ctx.putByte x).messageBlock.length = 16 * b by
      rw [ShaContext.putByte, length_patch, h.buffers.length]
      · rfl
      · rw [h.buffers.length, hindex]
        exact Nat.le_of_eq hfull)
    rw [V.hash_size H0, ← hindex] at hfill
    rw [← hindex] at hfull
    rw [if_pos ⟨rfl, hfull⟩]
    exact ⟨hfill, (BlockHash.off_fill (H := V.hash H0) (by rw [V.hash_size, ← hindex]; exact hfull)).symm,
      hbits, h.computed, rfl⟩
  · have hys : text.length % (16 * b) + [x].length < 16 * b := by
      rw [List.length_singleton]
      omega
    have hcopy := h.buffers.copy [x] hys
    rw [V.hash_size H0, ← hindex] at hcopy
    rw [← hindex] at hfull
    rw [if_neg fun hand => hfull hand.2]
    refine ⟨hcopy, ?_, hbits, h.computed, rfl⟩
    show ctx.messageBlockIndex + 1 = _
    rw [hindex]
    exact (BlockHash.off_copy (H := V.hash H0) hys).symm

/-- An octet that it has no room for. -/
theorem inputByte_spoiled (h : ctx.Holds V H0 text) (x : UInt8)
    (hover : ¬ 8 * text.length + 8 < 2 ^ (8 * b) * 2 ^ (8 * b)) :
    (V.inputByte ctx x).Spoiled false .shaNull := by
  obtain ⟨low, high, heq, -⟩ :=
    addLength_cases (ctx.putByte x) (V.byte_lt (Nat.le_refl 8)) h.count
  unfold ShaFamily.inputByte
  rw [heq, if_neg hover, if_neg fun hand => by cases hand.1]
  exact ⟨h.computed, rfl, by decide⟩

theorem inputLoop_spoiled {computed : Bool} {code : ShaCode} (h : ctx.Spoiled computed code)
    (message : Bytes) : V.inputLoop message ctx = ctx := by
  cases message with
  | nil => rfl
  | cons x message =>
    rw [ShaFamily.inputLoop, if_pos (by rw [h.2.1]; exact h.2.2)]

/-- **The octets of a text**, if the length has room for them, and if not. -/
theorem inputLoop_stands (h : ctx.Holds V H0 text) (message : Bytes) :
    if 8 * (text.length + message.length) < 2 ^ (8 * b) * 2 ^ (8 * b)
    then (V.inputLoop message ctx).Holds V H0 (text ++ message)
    else (V.inputLoop message ctx).Spoiled false .shaNull := by
  induction message generalizing ctx text with
  | nil =>
    have hlow := ctx.lengthLow.isLt
    have hhigh := ctx.lengthHigh.isLt
    have hcount := h.count
    have hmul : 2 ^ (8 * b) * (ctx.lengthHigh.toNat + 1) ≤ 2 ^ (8 * b) * 2 ^ (8 * b) :=
      Nat.mul_le_mul_left _ (by omega)
    rw [Nat.mul_add_one] at hmul
    rw [if_pos (by rw [List.length_nil, Nat.add_zero]; omega), List.append_nil]
    exact h
  | cons x message ih =>
    have hloop : V.inputLoop (x :: message) ctx = V.inputLoop message (V.inputByte ctx x) :=
      if_neg fun hne => hne h.corrupted
    rw [hloop]
    by_cases hfit : 8 * text.length + 8 < 2 ^ (8 * b) * 2 ^ (8 * b)
    · have hnext := ih (inputByte_holds h x hfit)
      rw [List.append_assoc, List.length_append, List.length_singleton, Nat.add_assoc,
        Nat.add_comm 1] at hnext
      exact hnext
    · rw [inputLoop_spoiled (inputByte_spoiled h x hfit),
        if_neg (by rw [List.length_cons]; omega)]
      exact inputByte_spoiled h x hfit

/-! ## The end of a text -/

/-- The two words of the count, as they end the last block. -/
theorem be_words (low high : Word b) :
    be b high.toNat ++ be b low.toNat = be (2 * b) (low.toNat + 2 ^ (8 * b) * high.toNat) := by
  have hlow : low.toNat < 256 ^ b := by
    have hlt := low.isLt
    rwa [Nat.pow_mul] at hlt
  rw [Nat.pow_mul]
  show _ = be (2 * b) (low.toNat + 256 ^ b * high.toNat)
  rw [be, be, be, ← List.reverse_append, Nat.two_mul, le_append, le_add_mul,
    Nat.add_mul_div_left _ _ (Nat.pow_pos (by decide)), Nat.div_eq_of_lt hlow, Nat.zero_add]

/-- The context after its block has been padded: the text ends with these bits. -/
theorem padMessage_eq (mark : UInt8)
    (hbuf : (V.hash H0).Buffers text ctx.intermediateHash ctx.messageBlock)
    (hindex : ctx.messageBlockIndex = text.length % (16 * b)) :
    (V.padMessage ctx mark).intermediateHash = V.digest H0 mark
      (ctx.lengthLow.toNat + 2 ^ (8 * b) * ctx.lengthHigh.toNat) text := by
  have hb := V.b_pos
  have hlt : text.length % (16 * b) < 16 * b := hbuf.off_lt
  have hlen : ctx.messageBlock.length = 16 * b := hbuf.length
  have ht : (be (2 * b) (ctx.lengthLow.toNat + 2 ^ (8 * b) * ctx.lengthHigh.toNat)).length =
      2 * b := length_be _ _
  rw [ShaFamily.digest]
  unfold ShaFamily.padMessage
  by_cases hlong : 16 * b - 2 * b ≤ ctx.messageBlockIndex
  · have hblock : ((ctx.putByte mark).putZeros (16 * b)).messageBlock.length = 16 * b := by
      show (patch (patch ctx.messageBlock ctx.messageBlockIndex [mark])
        (ctx.messageBlockIndex + 1) (zeros (16 * b - (ctx.messageBlockIndex + 1)))).length = 16 * b
      rw [patch_mark (by omega), length_patch (by
        rw [List.length_append, List.length_singleton, length_zeros]
        omega), hlen]
    rw [hbuf.digest_long mark _ (by rw [V.hash_size, ht, ← hindex]; omega)
      (by rw [V.hash_size, ht]; omega) hblock, ht, V.hash_size, ← hindex]
    rw [← be_words]
    simp only [if_pos hlong]
    rfl
  · rw [hbuf.digest_short mark _ (by rw [V.hash_size, ht, ← hindex]; omega), ht, V.hash_size,
      ← hindex]
    rw [← be_words]
    simp only [if_neg hlong]
    rfl

theorem padMessage_flags (ctx : ShaContext b) (mark : UInt8) :
    (V.padMessage ctx mark).corrupted = ctx.corrupted := by
  unfold ShaFamily.padMessage
  split <;> rfl

/-- The context has the digest of its text. -/
def ShaContext.Done (ctx : ShaContext b) (digest : ShaWords b) : Prop :=
  ctx.computed = true ∧ ctx.corrupted = .shaSuccess ∧ ctx.intermediateHash = digest

theorem finalize_done (mark : UInt8) {bits : Nat}
    (hbuf : (V.hash H0).Buffers text ctx.intermediateHash ctx.messageBlock)
    (hindex : ctx.messageBlockIndex = text.length % (16 * b))
    (hcount : ctx.lengthLow.toNat + 2 ^ (8 * b) * ctx.lengthHigh.toNat = bits)
    (hcode : ctx.corrupted = .shaSuccess) :
    (V.finalize ctx mark).Done (V.digest H0 mark bits text) :=
  ⟨rfl, (padMessage_flags ctx mark).trans hcode, hcount ▸ padMessage_eq mark hbuf hindex⟩

/-- The bits behind the last octet always fit. -/
theorem finalBits_done (h : ctx.Holds V H0 text) (bits : UInt8) {length : Nat} (hlt : length < 8) :
    (V.finalize (ctx.addLength length) (ShaFamily.lastOctet bits length)).Done
      (V.digest H0 (ShaFamily.lastOctet bits length) (8 * text.length + length) text) := by
  obtain ⟨low, high, heq, hcount⟩ :=
    addLength_cases ctx (V.byte_lt (Nat.le_of_lt hlt)) h.count
  have hfit : 8 * text.length + length < 2 ^ (8 * b) * 2 ^ (8 * b) := by
    have hlow := ctx.lengthLow.isLt
    have hhigh := ctx.lengthHigh.isLt
    have hmul : 2 ^ (8 * b) * (ctx.lengthHigh.toNat + 1) ≤ 2 ^ (8 * b) * 2 ^ (8 * b) :=
      Nat.mul_le_mul_left _ (by omega)
    -- the total before was a multiple of 8, and so is the number of bits there is room for
    have height : 2 ^ (8 * b) * 2 ^ (8 * b) = 8 * (2 ^ (8 * b - 3) * 2 ^ (8 * b)) := by
      have hb := V.b_pos
      have hpow : 2 ^ (3 + (8 * b - 3)) = 8 * 2 ^ (8 * b - 3) := Nat.pow_add 2 3 _
      rw [show 3 + (8 * b - 3) = 8 * b by omega] at hpow
      rw [← Nat.mul_assoc, ← hpow]
    have hcount := h.count
    rw [Nat.mul_add_one] at hmul
    omega
  rw [heq]
  exact finalize_done _ h.buffers h.index (hcount hfit) (if_pos hfit)

end

/-! ## Runs of calls -/

/-- A call of the interface: `Input`, `FinalBits` or `Result`. -/
inductive ShaCall
  | input (message : Bytes)
  | finalBits (bits : UInt8) (length : Nat)
  | result
  deriving DecidableEq, Repr

/-- What a context stands for. -/
inductive ShaStage (b : Nat)
  | taking (text : Bytes)
  | done (digest : ShaWords b)
  | spoiled (computed : Bool) (code : ShaCode)

namespace ShaFamily

variable {b : Nat} (V : ShaFamily b)

/-- A text grows.  It is lost when its length needs more than two words, which the call that
makes it too long does not tell, and when more of it comes after its digest has been taken. -/
def inputStage (message : Bytes) (stage : ShaStage b) : ShaStage b × ShaCode :=
  if message = [] then (stage, .shaSuccess)
  else match stage with
    | .taking text =>
      if 8 * (text.length + message.length) < 2 ^ (8 * b) * 2 ^ (8 * b) then
        (.taking (text ++ message), .shaSuccess)
      else (.spoiled false .shaNull, .shaSuccess)
    | .spoiled false code => (.spoiled false code, code)
    | _ => (.spoiled true .shaStateError, .shaStateError)

/-- A text ends with up to seven bits. -/
def finalBitsStage (H0 : ShaWords b) (bits : UInt8) (length : Nat) (stage : ShaStage b) :
    ShaStage b × ShaCode :=
  if length = 0 then (stage, .shaSuccess)
  else match stage with
    | .taking text =>
      if length < 8 then
        (.done (V.digest H0 (lastOctet bits length) (8 * text.length + length) text), .shaSuccess)
      else (.spoiled false .shaStateError, .shaStateError)
    | .spoiled false code =>
      if length < 8 then (.spoiled false code, code)
      else (.spoiled false .shaStateError, .shaStateError)
    | _ => (.spoiled true .shaStateError, .shaStateError)

/-- A digest is taken, as often as one likes. -/
def resultStage (H0 : ShaWords b) (hashSize : Nat) (stage : ShaStage b) :
    ShaStage b × ShaCode × Option Bytes :=
  match stage with
  | .taking text =>
    let digest := V.digest H0 0x80 (8 * text.length) text
    (.done digest, .shaSuccess, some (digest.octets.take hashSize))
  | .done digest => (.done digest, .shaSuccess, some (digest.octets.take hashSize))
  | .spoiled computed code => (.spoiled computed code, code, none)

/-- The calls on a context whose digests have this size. -/
def machine (hashSize : Nat) : Machine (ShaContext b) ShaCall (ShaCode × Option Bytes) where
  step ctx
    | .input message => ((V.input ctx message).1, (V.input ctx message).2, none)
    | .finalBits bits length =>
      ((V.finalBits ctx bits length).1, (V.finalBits ctx bits length).2, none)
    | .result => V.resultN ctx hashSize

/-- The calls on what a context stands for. -/
def stages (H0 : ShaWords b) (hashSize : Nat) :
    Machine (ShaStage b) ShaCall (ShaCode × Option Bytes) where
  step stage
    | .input message => ((inputStage message stage).1, (inputStage message stage).2, none)
    | .finalBits bits length =>
      ((V.finalBitsStage H0 bits length stage).1, (V.finalBitsStage H0 bits length stage).2, none)
    | .result => V.resultStage H0 hashSize stage

/-- A context stands for a stage. -/
def Stands (H0 : ShaWords b) (ctx : ShaContext b) : ShaStage b → Prop
  | .taking text => ctx.Holds V H0 text
  | .done digest => ctx.Done digest
  | .spoiled computed code => ctx.Spoiled computed code

end ShaFamily

section
variable {b : Nat} {V : ShaFamily b} {H0 : ShaWords b} {ctx : ShaContext b} {hashSize : Nat}

theorem input_taking {text : Bytes} (h : ctx.Holds V H0 text) {message : Bytes}
    (hne : message ≠ []) : V.input ctx message = (V.inputLoop message ctx, .shaSuccess) := by
  unfold ShaFamily.input
  rw [if_neg fun h0 => hne (List.length_eq_zero_iff.mp h0), h.computed, if_neg (by decide),
    if_neg fun hc => hc h.corrupted]

/-- A context that has been finished is spoiled by more of the text. -/
theorem input_computed (h : ctx.computed = true) {message : Bytes} (hne : message ≠ []) :
    V.input ctx message = ({ ctx with corrupted := .shaStateError }, .shaStateError) := by
  unfold ShaFamily.input
  rw [if_neg fun h0 => hne (List.length_eq_zero_iff.mp h0), if_pos h]

theorem input_spoiled {code : ShaCode} (h : ctx.Spoiled false code) {message : Bytes}
    (hne : message ≠ []) : V.input ctx message = (ctx, code) := by
  unfold ShaFamily.input
  rw [if_neg fun h0 => hne (List.length_eq_zero_iff.mp h0), h.1, if_neg (by decide),
    if_pos (by rw [h.2.1]; exact h.2.2), h.2.1]

theorem input_follows {stage : ShaStage b} (h : V.Stands H0 ctx stage) (message : Bytes) :
    V.Stands H0 (V.input ctx message).1 (ShaFamily.inputStage message stage).1 ∧
      (V.input ctx message).2 = (ShaFamily.inputStage message stage).2 := by
  unfold ShaFamily.inputStage
  by_cases hne : message = []
  · rw [if_pos hne, hne]
    exact ⟨h, rfl⟩
  · rw [if_neg hne]
    cases stage with
    | taking text =>
      have hloop := inputLoop_stands h message
      rw [input_taking h hne]
      dsimp only
      split at hloop
      · rename_i hfit
        rw [if_pos hfit]
        exact ⟨hloop, rfl⟩
      · rename_i hover
        rw [if_neg hover]
        exact ⟨hloop, rfl⟩
    | done digest =>
      rw [input_computed h.1 hne]
      exact ⟨⟨h.1, rfl, by decide⟩, rfl⟩
    | spoiled computed code =>
      cases computed with
      | false =>
        rw [input_spoiled h hne]
        exact ⟨h, rfl⟩
      | true =>
        rw [input_computed h.1 hne]
        exact ⟨⟨h.1, rfl, by decide⟩, rfl⟩

/-- More of a text that can still be counted. -/
theorem input_fits {text message : Bytes} (h : ctx.Holds V H0 text)
    (hfit : 8 * (text.length + message.length) < 2 ^ (8 * b) * 2 ^ (8 * b)) :
    (V.input ctx message).1.Holds V H0 (text ++ message) ∧
      (V.input ctx message).2 = .shaSuccess := by
  have hstage : ShaFamily.inputStage message (.taking text) =
      ((.taking (text ++ message) : ShaStage b), .shaSuccess) := by
    unfold ShaFamily.inputStage
    split
    · rename_i hnil
      rw [hnil, List.append_nil]
    · exact if_pos hfit
  have hstands : V.Stands H0 ctx (.taking text) := h
  have hfollows := input_follows hstands message
  rwa [hstage] at hfollows

/-- What makes a text too long spoils the context, and is not refused. -/
theorem input_over {text message : Bytes} (h : ctx.Holds V H0 text)
    (hover : ¬ 8 * (text.length + message.length) < 2 ^ (8 * b) * 2 ^ (8 * b)) :
    (V.input ctx message).1.Spoiled false .shaNull ∧ (V.input ctx message).2 = .shaSuccess := by
  have hloop := inputLoop_stands h message
  rw [if_neg hover] at hloop
  by_cases hnil : message = []
  · rw [hnil] at hloop
    have hcode : ctx.corrupted = .shaNull := hloop.2.1
    exact absurd (h.corrupted.symm.trans hcode) (by decide)
  · rw [input_taking h hnil]
    exact ⟨hloop, rfl⟩

/-- What is spoiled stays so, and only a message of nothing is not refused. -/
theorem input_stays_spoiled {code : ShaCode} (h : ctx.Spoiled false code) (message : Bytes) :
    V.input ctx message = (ctx, if message = [] then .shaSuccess else code) := by
  by_cases hnil : message = []
  · rw [hnil]
    rfl
  · rw [input_spoiled h hnil, if_neg hnil]

/-- Final bits come to nothing on a finished context, and if there are too many. -/
theorem finalBits_refused (bits : UInt8) {length : Nat} (hne : length ≠ 0)
    (h : ctx.computed = true ∨ 8 ≤ length) : V.finalBits ctx bits length =
      ({ ctx with corrupted := .shaStateError }, .shaStateError) := by
  unfold ShaFamily.finalBits
  rw [if_neg hne, if_pos h]

/-- Neither of the two. -/
theorem finalBits_open (h : ctx.computed = false) {length : Nat} (hlt : length < 8) :
    ¬ (ctx.computed = true ∨ 8 ≤ length) := by
  rintro (hc | hbig)
  · cases h.symm.trans hc
  · omega

theorem finalBits_follows {stage : ShaStage b} (h : V.Stands H0 ctx stage) (bits : UInt8)
    (length : Nat) :
    V.Stands H0 (V.finalBits ctx bits length).1 (V.finalBitsStage H0 bits length stage).1 ∧
      (V.finalBits ctx bits length).2 = (V.finalBitsStage H0 bits length stage).2 := by
  unfold ShaFamily.finalBitsStage
  by_cases hne : length = 0
  · rw [if_pos hne, hne]
    exact ⟨h, rfl⟩
  · rw [if_neg hne]
    cases stage with
    | taking text =>
      have htaking : ctx.Holds V H0 text := h
      dsimp only
      by_cases hfew : length < 8
      · have hbits : V.finalBits ctx bits length =
            (V.finalize (ctx.addLength length) (ShaFamily.lastOctet bits length),
              .shaSuccess) := by
          unfold ShaFamily.finalBits
          rw [if_neg hne, if_neg (finalBits_open htaking.computed hfew),
            if_neg fun hc => hc htaking.corrupted]
        rw [hbits, if_pos hfew]
        exact ⟨finalBits_done htaking bits hfew, rfl⟩
      · rw [finalBits_refused bits hne (.inr (by omega)), if_neg hfew]
        exact ⟨⟨htaking.computed, rfl, by decide⟩, rfl⟩
    | done digest =>
      rw [finalBits_refused bits hne (.inl h.1)]
      exact ⟨⟨h.1, rfl, by decide⟩, rfl⟩
    | spoiled computed code =>
      cases computed with
      | false =>
        dsimp only
        by_cases hfew : length < 8
        · have hbits : V.finalBits ctx bits length = (ctx, code) := by
            unfold ShaFamily.finalBits
            rw [if_neg hne, if_neg (finalBits_open h.1 hfew),
              if_pos (by rw [h.2.1]; exact h.2.2), h.2.1]
          rw [hbits, if_pos hfew]
          exact ⟨h, rfl⟩
        · rw [finalBits_refused bits hne (.inr (by omega)), if_neg hfew]
          exact ⟨⟨h.1, rfl, by decide⟩, rfl⟩
      | true =>
        rw [finalBits_refused bits hne (.inl h.1)]
        exact ⟨⟨h.1, rfl, by decide⟩, rfl⟩

theorem resultN_taking {text : Bytes} (h : ctx.Holds V H0 text) :
    V.resultN ctx hashSize = (V.finalize ctx 0x80, .shaSuccess,
      some ((V.digest H0 0x80 (8 * text.length) text).octets.take hashSize)) := by
  have hdone := finalize_done 0x80 h.buffers h.index h.count h.corrupted
  unfold ShaFamily.resultN
  rw [if_neg fun hc => hc h.corrupted, h.computed, ← hdone.2.2]
  rfl

theorem resultN_spoiled {computed : Bool} {code : ShaCode} (h : ctx.Spoiled computed code) :
    V.resultN ctx hashSize = (ctx, code, none) := by
  unfold ShaFamily.resultN
  rw [if_pos (by rw [h.2.1]; exact h.2.2), h.2.1]

theorem result_follows {stage : ShaStage b} (h : V.Stands H0 ctx stage) :
    V.Stands H0 (V.resultN ctx hashSize).1 (V.resultStage H0 hashSize stage).1 ∧
      (V.resultN ctx hashSize).2 = (V.resultStage H0 hashSize stage).2 := by
  unfold ShaFamily.resultStage
  cases stage with
  | taking text =>
    have htaking : ctx.Holds V H0 text := h
    rw [resultN_taking htaking]
    exact ⟨finalize_done 0x80 htaking.buffers htaking.index htaking.count htaking.corrupted, rfl⟩
  | done digest =>
    have hresult : V.resultN ctx hashSize =
        (ctx, .shaSuccess, some (ctx.intermediateHash.octets.take hashSize)) := by
      unfold ShaFamily.resultN
      rw [if_neg fun hc => hc h.2.1, h.1]
      rfl
    rw [hresult, h.2.2]
    exact ⟨h, rfl⟩
  | spoiled computed code =>
    rw [resultN_spoiled h]
    exact ⟨h, rfl⟩

/-- The calls on a context do what the calls on its stage say. -/
theorem machine_simulates (V : ShaFamily b) (H0 : ShaWords b) (hashSize : Nat) :
    (V.machine hashSize).Simulates (V.stages H0 hashSize) (V.Stands H0) where
  next call h := by
    cases call with
    | input message => exact (input_follows h message).1
    | finalBits bits length => exact (finalBits_follows h bits length).1
    | result => exact (result_follows h).1
  same call h := by
    cases call with
    | input message => exact congrArg (·, none) (input_follows h message).2
    | finalBits bits length => exact congrArg (·, none) (finalBits_follows h bits length).2
    | result => exact (result_follows h).2

/-- **Every run of calls after a reset answers as the stages do**, whatever the context held
before. -/
theorem sha_runs (V : ShaFamily b) (H0 : ShaWords b) (hashSize : Nat)
    (h : ctx.messageBlock.length = 16 * b) (calls : List ShaCall) :
    (V.machine hashSize).answers (ctx.reset H0) calls =
      (V.stages H0 hashSize).answers (.taking []) calls := by
  have hinit : V.Stands H0 (ctx.reset H0) (.taking []) := reset_holds h
  exact (machine_simulates V H0 hashSize).answers hinit calls

end

/-- A context that has been used for something else. -/
def usedContext : ShaContext 4 :=
  ⟨SHA256_H0, 3, 5, 17, List.replicate 64 7, true, .shaStateError⟩

/-- The letters "abc" in two pieces; the digest can be taken twice, but not be gone on from. -/
theorem sha256_abc_runs :
    (sha256Family.machine 32).answers (sha256Reset usedContext)
        [.input [0x61], .input [], .input [0x62, 0x63], .result, .result, .input [0x64], .result] =
      (sha256Family.stages SHA256_H0 32).answers (.taking [])
        [.input [0x61], .input [], .input [0x62, 0x63], .result, .result, .input [0x64],
          .result] :=
  sha_runs sha256Family SHA256_H0 32 rfl _

/-- The letters "abc". -/
example : sha256 [0x61, 0x62, 0x63] = [0xba, 0x78, 0x16, 0xbf, 0x8f, 0x01, 0xcf, 0xea, 0x41, 0x41,
    0x40, 0xde, 0x5d, 0xae, 0x22, 0x23, 0xb0, 0x03, 0x61, 0xa3, 0x96, 0x17, 0x7a, 0x9c, 0xb4, 0x10,
    0xff, 0x61, 0xf2, 0x00, 0x15, 0xad] := by decide +kernel

end Libsmb2.Digest
