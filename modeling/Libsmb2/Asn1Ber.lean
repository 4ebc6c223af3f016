import Libsmb2.Util.Tlv

/-!
# The ASN.1 coder

The encoder of `asn1-ber.c` writes into a buffer at its head.  It reserves room for a length
before it knows it, writes the length over the reserved octets later and moves the contents
left over those that the length does not need.  The decoder reads octet after octet.

* `annotateLength_holds` — a level that was opened with enough reserve is closed to an
  element, whatever stands before it;
* `typelenFromBer_tlv` — the type and the length of an element are read back.
-/

set_option autoImplicit false

namespace Libsmb2.Asn1Ber

open Util

/-! ## Types -/

def asnOCTET_STRING : Nat := 0x04
def asnOBJECT_ID : Nat := 0x06
def asnENUMERATED : Nat := 0x0A
def asnCONSTRUCTOR : Nat := 0x20
def asnSTRUCT : Nat := 0x30
def asnAPPLICATION : Nat := 0x40
def asnCONTEXT_SPECIFIC : Nat := 0x80

def ASN1_SEQUENCE (n : Nat) : Nat := asnSTRUCT ||| n
def ASN1_CONTEXT (n : Nat) : Nat := asnCONTEXT_SPECIFIC ||| asnCONSTRUCTOR ||| n

def BER_MAX_OID_ELEMENTS : Nat := 32

/-- The types that `asn1ber_uint32_from_ber` takes. -/
def uint32Types : List Nat := [0x01, 0x40, 0x41, 0x42, 0x43, 0x45, 0x47, 0x0A]

/-! ## The encoder -/

/-- The output half of `struct asn1ber_context`; `dst_size` is the length of the buffer. -/
structure Encoder where
  dst : Bytes
  dstHead : Nat
  deriving DecidableEq, Repr

/-- A buffer from `calloc`. -/
def Encoder.new (size : Nat) : Encoder := ⟨zeros size, 0⟩

/-- `asn1ber_out_byte`.  All operations say whether they succeeded. -/
def outByte (e : Encoder) (b : UInt8) : Encoder × Bool :=
  if e.dst.length ≤ e.dstHead then (e, false)
  else (⟨e.dst.set e.dstHead b, e.dstHead + 1⟩, true)

/-- The loops around `asn1ber_out_byte`, which end with the first octet that does not fit. -/
def outBytes : Bytes → Encoder → Encoder × Bool
  | [], e => (e, true)
  | b :: bs, e =>
    match outByte e b with
    | (e, true) => outBytes bs e
    | (e, false) => (e, false)

/-- `asn1ber_save_out_state`, into a variable that holds `outPos`. -/
def saveOutState (e : Encoder) (outPos : Nat) : Nat :=
  if e.dst.length ≤ e.dstHead then outPos else e.dstHead

/-- `asn1ber_ber_from_length`, with the number of octets written. -/
def berFromLength (e : Encoder) (lenin : Nat) : Encoder × Option Nat :=
  match outBytes (lengthOctets lenin) e with
  | (e, true) => (e, some (lengthOctets lenin).length)
  | (e, false) => (e, none)

/-- `asn1ber_ber_reserve_length`. -/
def reserveLength (e : Encoder) (len : Nat) : Encoder × Bool := outBytes (zeros len) e

/-- `asn1ber_ber_from_typecode`. -/
def berFromTypecode (e : Encoder) (typecode : Nat) : Encoder × Bool :=
  outByte e (UInt8.ofNat typecode)

/-- `bytes_made` of `asn1ber_annotate_length`, a `uint32_t`. -/
def bytesMade (e : Encoder) (outPos reserved : Nat) : Nat :=
  (((e.dstHead : Int) - outPos - reserved) % 4294967296).toNat

/-- `asn1ber_annotate_length`. -/
def annotateLength (e : Encoder) (outPos reserved : Nat) : Encoder × Bool :=
  if e.dst.length ≤ e.dstHead then (e, false)
  else
    let made := bytesMade e outPos reserved
    match berFromLength { e with dstHead := outPos } made with
    | (e, none) => (e, false)
    | (e, some lenbytes) =>
      -- what was reserved and is not needed is closed up
      let dst := if lenbytes < reserved
        then patch e.dst e.dstHead (slice e.dst (outPos + reserved) made) else e.dst
      (⟨dst, e.dstHead + made⟩, true)

/-- The octets of one element of an object identifier: groups of seven bits, the most
significant first, without the leading ones that are zero. -/
def singleOid (oidb : Nat) : Bytes :=
  let a := oidb % 128
  let b := oidb / 128 % 128
  let c := oidb / 128 / 128 % 128
  let d := oidb / 128 / 128 / 128 % 128
  let e := oidb / 128 / 128 / 128 / 128 % 128
  (if e ≠ 0 then [UInt8.ofNat (128 + e)] else [])
    ++ (if d ≠ 0 ∨ e ≠ 0 then [UInt8.ofNat (128 + d)] else [])
    ++ (if c ≠ 0 ∨ d ≠ 0 ∨ e ≠ 0 then [UInt8.ofNat (128 + c)] else [])
    ++ (if b ≠ 0 ∨ c ≠ 0 ∨ d ≠ 0 ∨ e ≠ 0 then [UInt8.ofNat (128 + b)] else [])
    ++ [UInt8.ofNat a]

/-- The contents of an object identifier.  The first two elements share an octet group when
the first is below 40. -/
def oidOctets : List Nat → Bytes
  | x :: y :: rest =>
    if x < 40 then singleOid ((x * 40 + y) % 4294967296) ++ rest.flatMap singleOid
    else (x :: y :: rest).flatMap singleOid
  | oid => oid.flatMap singleOid

/-- `asn1ber_ber_from_oid`. -/
def berFromOid (e : Encoder) (oid : List Nat) : Encoder × Bool :=
  if BER_MAX_OID_ELEMENTS ≤ oid.length then (e, false)
  else
    match berFromTypecode e asnOBJECT_ID with
    | (e, false) => (e, false)
    | (e, true) =>
      let lenpos := saveOutState e 0
      match reserveLength e 1 with
      | (e, false) => (e, false)
      | (e, true) =>
        match outBytes (oidOctets oid) e with
        | (e, false) => (e, false)
        | (e, true) => annotateLength e lenpos 1

/-- `asn1ber_ber_from_bytes`. -/
def berFromBytes (e : Encoder) (type : Nat) (val : Bytes) : Encoder × Bool :=
  match berFromTypecode e type with
  | (e, false) => (e, false)
  | (e, true) =>
    match berFromLength e val.length with
    | (e, none) => (e, false)
    | (e, some _) => outBytes val e

/-! ## The decoder -/

/-- The input half of `struct asn1ber_context`: the octets of `src` from `src_tail` up to
`src_count`. -/
structure Decoder where
  src : Bytes
  srcTail : Nat
  deriving DecidableEq, Repr

/-- `asn1ber_next_byte`. -/
def nextByte (d : Decoder) : Option (Nat × Decoder) :=
  match d.src with
  | [] => none
  | b :: src => some (b.toNat, ⟨src, d.srcTail + 1⟩)

/-- The octets of a big-endian number in a `uint32_t`, behind `val`. -/
def numberFromBer : Nat → Nat → Decoder → Option (Nat × Decoder)
  | 0, val, d => some (val, d)
  | vallen + 1, val, d => do
    let (b, d) ← nextByte d
    numberFromBer vallen ((val * 256 + b) % 4294967296) d

/-- `asn1ber_length_from_ber`. -/
def lengthFromBer (d : Decoder) : Option (Nat × Decoder) := do
  let (b, d) ← nextByte d
  if b < 128 then some (b, d)
  else if 4 < b % 128 then none
  else numberFromBer (b % 128) 0 d

/-- `ber_typecode_from_ber`. -/
def typecodeFromBer (d : Decoder) : Option (Nat × Decoder) := do
  let (b, d) ← nextByte d
  if b % 32 ≠ 31 then some (b, d)
  else do
    let (b, d) ← nextByte d
    some (if 0x30 ≤ b then b - 0x30 else b, d)

/-- `ber_typelen_from_ber`. -/
def typelenFromBer (d : Decoder) : Option (Nat × Nat × Decoder) := do
  let (typecode, d) ← typecodeFromBer d
  let (len, d) ← lengthFromBer d
  some (typecode, len, d)

/-- `asn1ber_uint32_from_ber`. -/
def uint32FromBer (d : Decoder) : Option (Nat × Decoder) := do
  let (b, d) ← nextByte d
  if b ∉ uint32Types then none
  else do
    let (vallen, d) ← nextByte d
    if 4 < vallen ∨ vallen = 0 then none
    else numberFromBer vallen 0 d

/-- The octets of an element of an object identifier behind the octet `b`, the last of them
without the continuation bit or at the end of the contents. -/
def oidGroups : Nat → Nat → Nat → Decoder → Option (Nat × Nat × Decoder)
  | 0, _, oval, d => some (oval, 0, d)
  | vallen + 1, b, oval, d =>
    if b < 128 then some (oval, vallen + 1, d)
    else do
      let (b, d) ← nextByte d
      oidGroups vallen b (oval * 128 % 4294967296 + b % 128) d

/-- The elements of an object identifier, at most as many as there is room for. -/
def oidElements : Nat → Nat → List Nat → Decoder → Option (List Nat × Decoder)
  | _, 0, elements, d => some (elements, d)
  | 0, _ + 1, _, _ => none
  | room + 1, vallen + 1, elements, d => do
    let (b, d) ← nextByte d
    let (oval, vallen, d) ← oidGroups vallen b (b % 128) d
    oidElements room vallen (elements ++ [oval]) d

/-- `asn1ber_oid_from_ber`. -/
def oidFromBer (d : Decoder) : Option (List Nat × Decoder) := do
  let (b, d) ← nextByte d
  if b ≠ asnOBJECT_ID then none
  else do
    let (vallen, d) ← lengthFromBer d
    if BER_MAX_OID_ELEMENTS < vallen ∨ vallen = 0 then none
    else do
      let (b, d) ← nextByte d
      oidElements (BER_MAX_OID_ELEMENTS - 2) (vallen - 1) [b / 40, b - b / 40 * 40] d

/-! ## What the encoder writes -/

/-- The encoder has written `c`, and at least `n` octets of the buffer are left. -/
def Holds (e : Encoder) (c : Bytes) (n : Nat) : Prop :=
  ∃ rest : Bytes, e = ⟨c ++ rest, c.length⟩ ∧ n ≤ rest.length

theorem holds_new (n : Nat) : Holds (Encoder.new n) [] n := ⟨zeros n, rfl, by simp⟩

theorem Holds.fits {e : Encoder} {c : Bytes} {n : Nat} (h : Holds e c (n + 1)) :
    e.dstHead < e.dst.length := by
  obtain ⟨rest, rfl, hroom⟩ := h
  simp
  omega

theorem outByte_append (b r : UInt8) (c rest : Bytes) :
    outByte ⟨c ++ r :: rest, c.length⟩ b = (⟨(c ++ [b]) ++ rest, (c ++ [b]).length⟩, true) := by
  have hset : (c ++ r :: rest).set c.length b = c ++ b :: rest := by
    rw [List.set_append_right c.length b (Nat.le_refl _)]
    simp
  have hroom : ¬ (c ++ r :: rest).length ≤ c.length := by simp
  simp only [outByte, if_neg hroom, hset]
  simp

/-- Octets that fit stand behind what was written, in place of as many octets there. -/
theorem outBytes_append {bs rest : Bytes} (c : Bytes) (h : bs.length ≤ rest.length) :
    outBytes bs ⟨c ++ rest, c.length⟩
      = (⟨(c ++ bs) ++ rest.drop bs.length, (c ++ bs).length⟩, true) := by
  induction bs generalizing c rest with
  | nil => simp [outBytes]
  | cons b bs ih =>
    cases rest with
    | nil => simp at h
    | cons r rest =>
      have hlen : bs.length ≤ rest.length := by simpa using h
      have hih := ih (c ++ [b]) hlen
      simp only [outBytes, outByte_append, hih]
      simp

theorem outBytes_holds {e : Encoder} {c : Bytes} {n : Nat} (bs : Bytes)
    (h : Holds e c (n + bs.length)) :
    Holds (outBytes bs e).1 (c ++ bs) n ∧ (outBytes bs e).2 = true := by
  obtain ⟨rest, rfl, hroom⟩ := h
  rw [outBytes_append c (by omega)]
  exact ⟨⟨rest.drop bs.length, rfl, by simp; omega⟩, rfl⟩

theorem outByte_holds {e : Encoder} {c : Bytes} {n : Nat} (b : UInt8) (h : Holds e c (n + 1)) :
    Holds (outByte e b).1 (c ++ [b]) n ∧ (outByte e b).2 = true := by
  obtain ⟨rest, rfl, hroom⟩ := h
  cases rest with
  | nil => simp at hroom
  | cons r rest =>
    rw [outByte_append]
    exact ⟨⟨rest, rfl, by simpa using hroom⟩, rfl⟩

theorem saveOutState_holds {e : Encoder} {c : Bytes} {n : Nat} (pos : Nat)
    (h : Holds e c (n + 1)) : saveOutState e pos = c.length := by
  have hfits := h.fits
  obtain ⟨rest, rfl, hroom⟩ := h
  rw [saveOutState, if_neg (by omega)]

theorem berFromLength_append {rest : Bytes} (c : Bytes) (n : Nat)
    (h : (lengthOctets n).length ≤ rest.length) :
    berFromLength ⟨c ++ rest, c.length⟩ n
      = (⟨(c ++ lengthOctets n) ++ rest.drop (lengthOctets n).length,
          (c ++ lengthOctets n).length⟩, some (lengthOctets n).length) := by
  rw [berFromLength, outBytes_append c h]

/-- What a level holds before its length is known: the type and the reserve. -/
def opened (t : UInt8) (reserved : Nat) : Bytes := t :: zeros reserved

@[simp] theorem length_opened (t : UInt8) (reserved : Nat) :
    (opened t reserved).length = reserved + 1 := by
  simp [opened]

theorem bytesMade_append {c body dst : Bytes} {reserved n : Nat} (hbody : body.length < 2 ^ 32)
    (hc : c.length + reserved + body.length = n) :
    bytesMade ⟨dst, n⟩ c.length reserved = body.length := by
  subst hc
  have hdiff : ((c.length + reserved + body.length : Nat) : Int) - c.length - reserved
      = body.length := by
    push_cast
    ring
  have hsmall : (body.length : Int) % 4294967296 = body.length := by
    apply Int.emod_eq_of_lt
    · exact Int.natCast_nonneg _
    · exact_mod_cast hbody
  simp only [bytesMade, hdiff, hsmall, Int.toNat_natCast]

/-- The contents are moved left over a gap. -/
theorem close_up (c body rest : Bytes) (gap : Nat) :
    patch (c ++ (zeros gap ++ body ++ rest)) c.length
        (slice (c ++ (zeros gap ++ body ++ rest)) (c.length + gap) body.length)
      = c ++ body ++ (zeros gap ++ body ++ rest).drop body.length := by
  have hslice : slice (c ++ (zeros gap ++ body ++ rest)) (c.length + gap) body.length = body := by
    rw [slice_append_right (by omega), Nat.add_sub_cancel_left, List.append_assoc,
      slice_append_right (by simp)]
    simp [slice]
  rw [hslice]
  simp [patch, List.drop_append]

/-- The length of `body` goes to the beginning of the reserve behind `c`. -/
theorem annotateLength_append {c body rest : Bytes} {reserved : Nat} (hrest : 0 < rest.length)
    (hlen : (lengthOctets body.length).length ≤ reserved) (hbody : body.length < 2 ^ 32) :
    annotateLength ⟨c ++ (zeros reserved ++ body ++ rest), c.length + reserved + body.length⟩
        c.length reserved
      = (⟨(c ++ lengthOctets body.length) ++ body
            ++ (zeros (reserved - (lengthOctets body.length).length) ++ body ++ rest).drop
              body.length, (c ++ lengthOctets body.length).length + body.length⟩, true) := by
  have hroom : ¬ (c ++ (zeros reserved ++ body ++ rest)).length
      ≤ c.length + reserved + body.length := by
    simp
    omega
  have hfit : (lengthOctets body.length).length ≤ (zeros reserved ++ body ++ rest).length := by
    simp
    omega
  have hdrop : (zeros reserved ++ body ++ rest).drop (lengthOctets body.length).length
      = zeros (reserved - (lengthOctets body.length).length) ++ body ++ rest := by
    simp only [List.append_assoc]
    rw [List.drop_append_of_le_length (by simpa using hlen)]
    simp [zeros]
  rw [annotateLength, if_neg hroom]
  simp only [bytesMade_append hbody rfl, berFromLength_append c body.length hfit, hdrop]
  split_ifs with hgap
  · have hpos : c.length + reserved = (c ++ lengthOctets body.length).length
        + (reserved - (lengthOctets body.length).length) := by
      simp
      omega
    rw [hpos, close_up]
  · have hzero : reserved - (lengthOctets body.length).length = 0 := by omega
    simp [hzero, zeros]

/-- **Closing a level.**  The length is written over the reserve, the contents are moved up to
it, and what stands before the level stays. -/
theorem annotateLength_holds {e : Encoder} {pre body : Bytes} {t : UInt8} {reserved n : Nat}
    (h : Holds e (pre ++ (opened t reserved ++ body)) (n + 1))
    (hlen : (lengthOctets body.length).length ≤ reserved) (hbody : body.length < 2 ^ 32) :
    Holds (annotateLength e (pre.length + 1) reserved).1 (pre ++ tlv t body) (n + 1)
      ∧ (annotateLength e (pre.length + 1) reserved).2 = true := by
  obtain ⟨rest, rfl, hroom⟩ := h
  have hdst : pre ++ (opened t reserved ++ body) ++ rest
      = (pre ++ [t]) ++ (zeros reserved ++ body ++ rest) := by simp [opened]
  have hhead : (pre ++ (opened t reserved ++ body)).length
      = (pre ++ [t]).length + reserved + body.length := by
    simp
    omega
  have hpos : pre.length + 1 = (pre ++ [t]).length := by simp
  have htlv : pre ++ [t] ++ lengthOctets body.length ++ body = pre ++ tlv t body := by
    simp [tlv]
  rw [hdst, hhead, hpos, annotateLength_append (by omega) hlen hbody, htlv,
    ← List.length_append, htlv]
  refine ⟨⟨_, rfl, ?_⟩, rfl⟩
  simp
  omega

/-- The element that holds an object identifier. -/
def oidTlv (oid : List Nat) : Bytes := tlv (UInt8.ofNat asnOBJECT_ID) (oidOctets oid)

theorem length_oidTlv {oid : List Nat} (h : (oidOctets oid).length < 128) :
    (oidTlv oid).length = (oidOctets oid).length + 2 := by
  rw [oidTlv, length_tlv, front_of_lt h]
  omega

theorem berFromOid_holds {e : Encoder} {c : Bytes} {n : Nat} {oid : List Nat}
    (h : Holds e c (n + 1 + (oidTlv oid).length)) (hoid : oid.length < BER_MAX_OID_ELEMENTS)
    (hlen : (oidOctets oid).length < 128) :
    Holds (berFromOid e oid).1 (c ++ oidTlv oid) (n + 1) ∧ (berFromOid e oid).2 = true := by
  rw [length_oidTlv hlen] at h
  have htype := outByte_holds (n := n + 1 + (oidOctets oid).length + 1)
    (UInt8.ofNat asnOBJECT_ID) h
  rw [berFromOid, if_neg (by omega), berFromTypecode]
  generalize outByte e (UInt8.ofNat asnOBJECT_ID) = r at htype ⊢
  obtain ⟨e₁, ok₁⟩ := r
  obtain ⟨hheld₁, rfl⟩ := htype
  have hpos : saveOutState e₁ 0 = c.length + 1 := by
    rw [saveOutState_holds 0 hheld₁]
    simp
  have hreserve := outBytes_holds (n := n + 1 + (oidOctets oid).length) (zeros 1) hheld₁
  simp only [hpos, reserveLength]
  generalize outBytes (zeros 1) e₁ = r at hreserve ⊢
  obtain ⟨e₂, ok₂⟩ := r
  obtain ⟨hheld₂, rfl⟩ := hreserve
  have hbody := outBytes_holds (n := n + 1) (oidOctets oid) hheld₂
  simp only
  generalize outBytes (oidOctets oid) e₂ = r at hbody ⊢
  obtain ⟨e₃, ok₃⟩ := r
  obtain ⟨hheld₃, rfl⟩ := hbody
  have hopened : c ++ [UInt8.ofNat asnOBJECT_ID] ++ zeros 1 ++ oidOctets oid
      = c ++ (opened (UInt8.ofNat asnOBJECT_ID) 1 ++ oidOctets oid) := by simp [opened]
  rw [hopened] at hheld₃
  apply annotateLength_holds hheld₃
  · rw [length_lengthOctets_of_lt hlen]
  · omega

theorem berFromBytes_holds {e : Encoder} {c : Bytes} {n type : Nat} {val : Bytes}
    (h : Holds e c (n + (tlv (UInt8.ofNat type) val).length)) :
    Holds (berFromBytes e type val).1 (c ++ tlv (UInt8.ofNat type) val) n
      ∧ (berFromBytes e type val).2 = true := by
  rw [length_tlv, front] at h
  have hroom : n + ((lengthOctets val.length).length + 1 + val.length)
      = n + val.length + (lengthOctets val.length).length + 1 := by omega
  rw [hroom] at h
  have htype := outByte_holds (UInt8.ofNat type) h
  rw [berFromBytes, berFromTypecode]
  generalize outByte e (UInt8.ofNat type) = r at htype ⊢
  obtain ⟨e₁, ok₁⟩ := r
  obtain ⟨hheld₁, rfl⟩ := htype
  have hlength := outBytes_holds (lengthOctets val.length) hheld₁
  simp only [berFromLength]
  generalize outBytes (lengthOctets val.length) e₁ = r at hlength ⊢
  obtain ⟨e₂, ok₂⟩ := r
  obtain ⟨hheld₂, rfl⟩ := hlength
  have hval := outBytes_holds val hheld₂
  have htlv : c ++ [UInt8.ofNat type] ++ lengthOctets val.length ++ val
      = c ++ tlv (UInt8.ofNat type) val := by simp [tlv]
  rw [htlv] at hval
  exact hval

/-! ## What the decoder reads -/

@[simp] theorem nextByte_cons (b : UInt8) (rest : Bytes) (k : Nat) :
    nextByte ⟨b :: rest, k⟩ = some (b.toNat, ⟨rest, k + 1⟩) := rfl

theorem numberFromBer_be {v : Nat} (k n : Nat) (rest : Bytes) (tail : Nat)
    (hv : v < 4294967296) :
    numberFromBer k v ⟨be k n ++ rest, tail⟩
      = some ((v * 256 ^ k + n % 256 ^ k) % 4294967296, ⟨rest, tail + k⟩) := by
  induction k generalizing v tail with
  | zero => simp [numberFromBer, be, Nat.mod_one, Nat.mod_eq_of_lt hv]
  | succ k ih =>
    have hstep := ih (v := (v * 256 + (UInt8.ofNat (n / 256 ^ k)).toNat) % 4294967296)
      (tail + 1) (Nat.mod_lt _ (by decide))
    simp only [numberFromBer, be, List.cons_append, nextByte_cons, Option.bind_eq_bind,
      Option.bind_some, hstep, be_succ_value]
    simp [Nat.add_assoc, Nat.add_comm 1 k]

/-- A length is read back, whatever follows it. -/
theorem lengthFromBer_lengthOctets {n : Nat} (rest : Bytes) (tail : Nat) (hn : n < 2 ^ 32) :
    lengthFromBer ⟨lengthOctets n ++ rest, tail⟩
      = some (n, ⟨rest, tail + (lengthOctets n).length⟩) := by
  unfold lengthOctets
  split_ifs with hsmall
  · have hoctet : (UInt8.ofNat n).toNat = n := by
      simp
      omega
    simp [lengthFromBer, hoctet, hsmall]
  · have hneed := octetsNeeded_le 4 n
    have hholds := lt_pow_octetsNeeded (k := 4) (n := n) (by simpa using hn)
    have hoctet : (UInt8.ofNat (128 + octetsNeeded 4 n)).toNat = 128 + octetsNeeded 4 n := by
      simp
      omega
    have hcount : (128 + octetsNeeded 4 n) % 128 = octetsNeeded 4 n := by omega
    have hread := numberFromBer_be (v := 0) (octetsNeeded 4 n) n rest (tail + 1) (by decide)
    rw [Nat.mod_eq_of_lt hholds, Nat.zero_mul, Nat.zero_add, Nat.mod_eq_of_lt (by simpa using hn)] at hread
    simp only [lengthFromBer, List.cons_append, nextByte_cons, Option.bind_eq_bind,
      Option.bind_some, hoctet, hcount]
    rw [if_neg (by omega), if_neg (by omega), hread]
    simp [Nat.add_assoc, Nat.add_comm 1]

theorem typecodeFromBer_cons {t : UInt8} (rest : Bytes) (tail : Nat) (ht : t.toNat % 32 ≠ 31) :
    typecodeFromBer ⟨t :: rest, tail⟩ = some (t.toNat, ⟨rest, tail + 1⟩) := by
  simp [typecodeFromBer, ht]

/-- The type and the length of an element are read back, and its contents are next. -/
theorem typelenFromBer_tlv {t : UInt8} (body rest : Bytes) (tail : Nat)
    (ht : t.toNat % 32 ≠ 31) (hbody : body.length < 2 ^ 32) :
    typelenFromBer ⟨tlv t body ++ rest, tail⟩
      = some (t.toNat, body.length, ⟨body ++ rest, tail + front body⟩) := by
  have hlength := lengthFromBer_lengthOctets (body ++ rest) (tail + 1) hbody
  simp only [typelenFromBer, tlv, List.cons_append, List.append_assoc,
    typecodeFromBer_cons _ tail ht, Option.bind_eq_bind, Option.bind_some, hlength]
  simp [front, Nat.add_assoc, Nat.add_comm 1]

end Libsmb2.Asn1Ber
