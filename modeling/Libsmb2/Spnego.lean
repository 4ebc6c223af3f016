import Libsmb2.Asn1Ber
import Libsmb2.Errors

/-!
# SPNEGO tokens

`spnego-wrapper.c`: the wrapping of NTLMSSP tokens and their unwrapping.  A pointer into the
blob is its offset.  The texts of the errors, which hold line numbers of the source, are left
out; so are the pointers that may be null, of which only the `token` of
`smb2_spnego_unwrap_gssapi` is null for a caller.

* `wrapGssapi_eq`, `wrapNtlmsspChallenge_eq`, `wrapNtlmsspAuth_eq` — a blob is nested elements,
  each length the least there is;
* `wrapping_is_invertible` — which tokens come back from their blobs.
-/

set_option autoImplicit false

namespace Libsmb2.Spnego

open Util Asn1Ber

/-! ## Mechanisms -/

def SPNEGO_MECHANISM_KRB5 : Nat := 0x0001
def SPNEGO_MECHANISM_NTLMSSP : Nat := 0x0002

def oidGssMechSpnego : List Nat := [1, 3, 6, 1, 5, 5, 2]
def oidSpnegoMechKrb5 : List Nat := [1, 2, 840, 113554, 1, 2, 2]
def oidSpnegoMechMsKrb5 : List Nat := [1, 2, 840, 48018, 1, 2, 2]
def oidSpnegoMechNtlmssp : List Nat := [1, 3, 6, 1, 4, 1, 311, 2, 2, 10]

/-- The loop of `oid_compare`, over identifiers of one length. -/
def compareElements : List Nat → List Nat → Int
  | x :: a, y :: b => if x < y then -1 else if y < x then 1 else compareElements a b
  | _, _ => 0

/-- `oid_compare`. -/
def oidCompare (a b : List Nat) : Int :=
  if a.length = 0 ∨ b.length = 0 ∨ a.length ≠ b.length then -1 else compareElements a b

/-- The bit that an identifier adds to the mechanisms. -/
def mechanismOf (oid : List Nat) : Nat :=
  if oidCompare oid oidSpnegoMechKrb5 = 0 then SPNEGO_MECHANISM_KRB5
  else if oidCompare oid oidSpnegoMechMsKrb5 = 0 then SPNEGO_MECHANISM_KRB5
  else if oidCompare oid oidSpnegoMechNtlmssp = 0 then SPNEGO_MECHANISM_NTLMSSP
  else 0

/-! ## Wrapping -/

def asnGssapi : Nat := asnCONSTRUCTOR ||| asnAPPLICATION

/-- A type, the place of its length, and the reserve for the length. -/
def openLevel (e : Encoder) (typecode reserved pos : Nat) : Encoder × Nat :=
  let e := (berFromTypecode e typecode).1
  let pos := saveOutState e pos
  ((reserveLength e reserved).1, pos)

/-- `memcpy` to the head, which moves on. -/
def copyIn (e : Encoder) (token : Bytes) : Encoder :=
  ⟨patch e.dst e.dstHead token, e.dstHead + token.length⟩

/-- The end of a level.  No caller looks at the result. -/
def closeLevel (e : Encoder) (pos reserved : Nat) : Encoder := (annotateLength e pos reserved).1

/-- `smb2_spnego_wrap_gssapi`: the allocation and its head.  `none` is a failed `calloc`. -/
def wrapGssapi (granted : Bool) (token : Bytes) : Option Encoder :=
  if !granted then none
  else
    let e := Encoder.new (256 + 4 * token.length)
    let (e, pos0) := openLevel e asnGssapi 5 0
    let e := (berFromOid e oidGssMechSpnego).1
    let (e, pos1) := openLevel e (ASN1_CONTEXT 0) 5 0
    let (e, pos2) := openLevel e (ASN1_SEQUENCE 0) 5 0
    let (e, pos3) := openLevel e (ASN1_CONTEXT 0) 5 0
    let (e, pos4) := openLevel e (ASN1_SEQUENCE 0) 5 0
    let e := (berFromOid e oidSpnegoMechNtlmssp).1
    let e := closeLevel e pos4 5
    let e := closeLevel e pos3 5
    let (e, pos3) :=
      if token.length ≠ 0 then
        let (e, pos3) := openLevel e (ASN1_CONTEXT 2) 5 pos3
        let (e, pos4) := openLevel e asnOCTET_STRING 5 pos4
        let e := copyIn e token
        (closeLevel e pos4 5, pos3)
      else (e, pos3)
    -- without a token this is the second time for the mechanism types
    let e := closeLevel e pos3 5
    let e := closeLevel e pos2 5
    let e := closeLevel e pos1 5
    some (closeLevel e pos0 5)

/-- `smb2_spnego_wrap_ntlmssp_challenge`. -/
def wrapNtlmsspChallenge (granted : Bool) (token : Bytes) : Option Encoder :=
  if !granted then none
  else
    let e := Encoder.new (64 + 2 * token.length)
    let (e, pos0) := openLevel e (ASN1_CONTEXT 1) 5 0
    let (e, pos1) := openLevel e (ASN1_SEQUENCE 0) 5 0
    let (e, pos2) := openLevel e (ASN1_CONTEXT 0) 1 0
    let e := (berFromBytes e asnENUMERATED [1]).1
    let e := closeLevel e pos2 1
    let (e, pos2) := openLevel e (ASN1_CONTEXT 1) 1 pos2
    let e := (berFromOid e oidSpnegoMechNtlmssp).1
    let e := closeLevel e pos2 1
    let (e, pos2) := openLevel e (ASN1_CONTEXT 2) 5 pos2
    let (e, pos3) := openLevel e asnOCTET_STRING 5 0
    let e := copyIn e token
    let e := closeLevel e pos3 5
    let e := closeLevel e pos2 5
    let e := closeLevel e pos1 5
    some (closeLevel e pos0 5)

/-- `smb2_spnego_wrap_ntlmssp_auth`. -/
def wrapNtlmsspAuth (granted : Bool) (token : Bytes) : Option Encoder :=
  if !granted then none
  else
    let e := Encoder.new (64 + 2 * token.length)
    let (e, pos0) := openLevel e (ASN1_CONTEXT 1) 5 0
    let (e, pos1) := openLevel e (ASN1_SEQUENCE 0) 5 0
    let (e, pos2) := openLevel e (ASN1_CONTEXT 2) 5 0
    let (e, pos3) := openLevel e asnOCTET_STRING 5 0
    let e := copyIn e token
    let e := closeLevel e pos3 5
    let e := closeLevel e pos2 5
    let e := closeLevel e pos1 5
    some (closeLevel e pos0 5)

/-! ## Unwrapping -/

/-- What `smb2_spnego_unwrap_blob` returns, the offset in `*token`, and what it has written to
`*mechanisms`. -/
structure Unwrapped where
  ret : Int
  token : Option Nat := none
  mechanisms : Option Nat := none
  deriving DecidableEq, Repr

/-- A failure, behind these writes to `*mechanisms`. -/
def Unwrapped.fail (mechanisms : Option Nat) : Unwrapped where
  ret := -EINVAL
  mechanisms := mechanisms

/-- `require_typeandlen`, with the length. -/
def requireTypeandlen (d : Asn1Ber.Decoder) (expected minimum : Nat) :
    Option (Nat × Asn1Ber.Decoder) := do
  let (typecode, typelen, d) ← typelenFromBer d
  if typecode ≠ expected ∨ typelen < minimum then none else some (typelen, d)

/-- The loop of `smb2_spnego_unwrap_targ`.  A turn reads two octets or more, and there are
`turns` octets. -/
def targLoop : Nat → Asn1Ber.Decoder → Int → Option Nat → Unwrapped
  | 0, _, _, mechs => .fail mechs
  | turns + 1, d, sequenceLen, mechs =>
    if sequenceLen ≤ 2 then { ret := 0, mechanisms := mechs }
    else
      match typelenFromBer d with
      | none => .fail mechs
      | some (typecode, _, e) =>
        if typecode = ASN1_CONTEXT 0 then
          match uint32FromBer e with
          | none => .fail (some 0)
          | some (val, e) =>
            targLoop turns e (sequenceLen - (e.srcTail - d.srcTail)) (some val)
        else if typecode = ASN1_CONTEXT 1 then
          match oidFromBer e with
          | none => .fail mechs
          | some (_, e) => targLoop turns e (sequenceLen - (e.srcTail - d.srcTail)) mechs
        else if typecode = ASN1_CONTEXT 2 then
          match requireTypeandlen e asnOCTET_STRING 8 with
          | none => .fail mechs
          -- the length is not zero, and the loop ends with the token
          | some (typelen, e) => ⟨toInt32 typelen, some e.srcTail, mechs⟩
        else targLoop turns e (sequenceLen - (e.srcTail - d.srcTail)) mechs

/-- `smb2_spnego_unwrap_targ`. -/
def unwrapTarg (spnego : Bytes) : Unwrapped :=
  let outer : Option (Nat × Asn1Ber.Decoder) := do
    let response ← requireTypeandlen ⟨spnego, 0⟩ (ASN1_CONTEXT 1) 14
    requireTypeandlen response.2 (ASN1_SEQUENCE 0) 12
  match outer with
  | none => .fail none
  | some (typelen, d) => targLoop (d.src.length + 1) d (toInt32 typelen) none

/-- The loop of `smb2_spnego_unwrap_gssapi` over the mechanism types. -/
def mechLoop : Nat → Asn1Ber.Decoder → Int → Nat → Option (Nat × Asn1Ber.Decoder)
  | 0, _, _, _ => none
  | turns + 1, d, mechBytes, mechs =>
    if mechBytes ≤ 0 then some (mechs, d)
    else do
      let (oid, e) ← oidFromBer d
      mechLoop turns e (mechBytes - (e.srcTail - d.srcTail)) (mechs ||| mechanismOf oid)

/-- `smb2_spnego_unwrap_gssapi`, the mechanism types. -/
def unwrapMechs (d : Asn1Ber.Decoder) : Option (Nat × Asn1Ber.Decoder) := do
  let context ← requireTypeandlen d (ASN1_CONTEXT 0) 10
  let sequence ← requireTypeandlen context.2 (ASN1_SEQUENCE 0) 8
  mechLoop (sequence.2.src.length + 1) sequence.2 (toInt32 sequence.1) 0

/-- `smb2_spnego_unwrap_gssapi`, up to the end of the mechanism types. -/
def gssapiMechs (spnego : Bytes) : Option (Nat × Asn1Ber.Decoder) := do
  let gssapi ← requireTypeandlen ⟨spnego, 0⟩ asnGssapi 32
  let oid ← oidFromBer gssapi.2
  if oidCompare oid.1 oidGssMechSpnego ≠ 0 then none
  else do
    let context ← requireTypeandlen oid.2 (ASN1_CONTEXT 0) 10
    let sequence ← requireTypeandlen context.2 (ASN1_SEQUENCE 0) 8
    unwrapMechs sequence.2

/-- `smb2_spnego_unwrap_gssapi`.  The octets `behind` the blob are looked at too; `wanted` says
that `token` is not null. -/
def unwrapGssapi (spnego behind : Bytes) (wanted : Bool) : Unwrapped :=
  match gssapiMechs spnego with
  | none => .fail none
  | some (mechs, d) =>
    if !wanted then { ret := 0, mechanisms := some mechs }
    else if 2 < spnego.length ∧
        (d.src ++ behind).head? = some (UInt8.ofNat (ASN1_CONTEXT 2)) then
      let inner : Option (Nat × Asn1Ber.Decoder) := do
        let context ← requireTypeandlen d (ASN1_CONTEXT 2) 10
        requireTypeandlen context.2 asnOCTET_STRING 7
      match inner with
      | none => .fail (some mechs)
      | some (typelen, d) => ⟨toInt32 typelen, some d.srcTail, some mechs⟩
    else { ret := 0, mechanisms := some mechs }

/-- The octets that a token has which is not wrapped, `"NTLMSSP"` with its end. -/
def rawMagic : Bytes := [0x4E, 0x54, 0x4C, 0x4D, 0x53, 0x53, 0x50, 0x00]

/-- `smb2_spnego_unwrap_blob`. -/
def unwrapBlob (spnego behind : Bytes) : Unwrapped :=
  if spnego.length < 7 then .fail none
  else if 7 < spnego.length ∧ spnego.take 8 = rawMagic then
    { ret := toInt32 spnego.length, token := some 0 }
  else
    match spnego.head? with
    | none => .fail none
    | some typecode =>
      if typecode.toNat = asnGssapi then unwrapGssapi spnego behind true
      else if typecode.toNat = ASN1_CONTEXT 0 ∨ typecode.toNat = ASN1_CONTEXT 1
          ∨ typecode.toNat = ASN1_CONTEXT 2 then unwrapTarg spnego
      else .fail none

/-- The blob of a wrapper: the octets up to the head that it returns. -/
def blob (e : Encoder) : Bytes := e.dst.take e.dstHead

/-! ## Levels -/

/-- A level around what `f` writes. -/
def level (typecode reserved pos : Nat) (f : Encoder → Encoder) (e : Encoder) : Encoder :=
  let (e, pos) := openLevel e typecode reserved pos
  closeLevel (f e) pos reserved

/-- `f` writes `body` behind what is there, if there is more room than `room`. -/
def Writes (f : Encoder → Encoder) (body : Bytes) (room : Nat) : Prop :=
  ∀ (e : Encoder) (c : Bytes) (n : Nat), Holds e c (n + 1 + room) → Holds (f e) (c ++ body) (n + 1)

theorem Writes.oid (oid : List Nat) (hoid : oid.length < BER_MAX_OID_ELEMENTS)
    (hlen : (oidOctets oid).length < 128) :
    Writes (fun e => (berFromOid e oid).1) (oidTlv oid) (oidTlv oid).length := by
  intro e c n h
  exact (berFromOid_holds h hoid hlen).1

theorem Writes.bytes (type : Nat) (val : Bytes) :
    Writes (fun e => (berFromBytes e type val).1) (tlv (UInt8.ofNat type) val)
      (tlv (UInt8.ofNat type) val).length := by
  intro e c n h
  exact (berFromBytes_holds h).1

theorem Writes.copyIn (token : Bytes) : Writes (fun e => copyIn e token) token token.length := by
  rintro e c n ⟨rest, rfl, hroom⟩
  refine ⟨rest.drop token.length, ?_, ?_⟩
  · simp [Spnego.copyIn, patch, List.drop_append]
  · simp
    omega

variable {f : Encoder → Encoder}

/-- One part behind another, which may look at what was there before the first. -/
theorem Writes.andThen {α : Type} {g : α → Encoder → Encoder}
    {a b : Bytes} {m k : Nat} (p : Encoder → α) (hf : Writes f a m) (hg : ∀ x, Writes (g x) b k) :
    Writes (fun e => g (p e) (f e)) (a ++ b) (m + k) := by
  intro e c n h
  have hroom : n + 1 + (m + k) = n + k + 1 + m := by omega
  rw [hroom] at h
  have hfirst := hf e c (n + k) h
  have hboth := hg (p e) (f e) (c ++ a) n (by rwa [Nat.add_right_comm] at hfirst)
  rwa [List.append_assoc] at hboth

variable {body w c fields : Bytes}

theorem openLevel_holds {e : Encoder} {n reserved : Nat} (typecode pos : Nat)
    (h : Holds e c (n + (reserved + 1))) (hr : 0 < reserved) :
    Holds (openLevel e typecode reserved pos).1
        (c ++ opened (UInt8.ofNat typecode) reserved) n
      ∧ (openLevel e typecode reserved pos).2 = c.length + 1 := by
  have htype := (outByte_holds (n := n + reserved) (UInt8.ofNat typecode) h).1
  have hreserve := (outBytes_holds (n := n) (zeros reserved) (by simpa using htype)).1
  obtain ⟨r, rfl⟩ : ∃ r, reserved = r + 1 := ⟨reserved - 1, by omega⟩
  have hpos := saveOutState_holds pos htype
  refine ⟨?_, ?_⟩
  · simpa [opened, openLevel, berFromTypecode, reserveLength] using hreserve
  · simpa [openLevel, berFromTypecode] using hpos

theorem Writes.level {m typecode reserved : Nat}
    (pos : Nat) (hf : Writes f body m) (hlen : (lengthOctets body.length).length ≤ reserved)
    (hr : 0 < reserved) (hbody : body.length < 2 ^ 32) :
    Writes (level typecode reserved pos f) (tlv (UInt8.ofNat typecode) body)
      (m + (reserved + 1)) := by
  intro e c n h
  rw [← Nat.add_assoc] at h
  obtain ⟨hopen, hpos⟩ := openLevel_holds typecode pos h hr
  have hinner := hf _ _ n hopen
  rw [List.append_assoc] at hinner
  simp only [Spnego.level, closeLevel, hpos]
  exact (annotateLength_holds hinner hlen hbody).1

/-- A level with the full reserve. -/
theorem Writes.wide {m : Nat} (typecode pos : Nat)
    (hf : Writes f body m) (hbody : body.length < 2 ^ 32) :
    Writes (Spnego.level typecode 5 pos f) (tlv (UInt8.ofNat typecode) body) (m + 6) :=
  hf.level pos (length_lengthOctets_le _) (by decide) hbody

/-- A level with one octet for a length below 128. -/
theorem Writes.narrow {m typecode : Nat} (pos : Nat)
    (hf : Writes f body m) (hbody : body.length < 128) :
    Writes (Spnego.level typecode 1 pos f) (tlv (UInt8.ofNat typecode) body) (m + 2) :=
  hf.level pos (length_lengthOctets_of_lt hbody).le (by decide) (by omega)

theorem Holds.blob {e : Encoder} {n : Nat} (h : Holds e c n) : blob e = c := by
  obtain ⟨rest, rfl, -⟩ := h
  simp [Spnego.blob]

/-- What is written into a fresh buffer that is large enough. -/
theorem Writes.blob {room : Nat} (size : Nat)
    (hf : Writes f body room) (hsize : room < size) :
    Spnego.blob (f (Encoder.new size)) = body := by
  have hnew := holds_new size
  have hroom : size = size - 1 - room + 1 + room := by omega
  rw [hroom] at hnew
  have hheld := hf _ _ _ hnew
  rw [← hroom] at hheld
  exact Holds.blob hheld

/-! ## The blobs -/

/-- `[2] OCTET STRING`, the token of every form. -/
def tokenTlv (token : Bytes) : Bytes :=
  tlv (UInt8.ofNat (ASN1_CONTEXT 2)) (tlv (UInt8.ofNat asnOCTET_STRING) token)

/-- `[0] SEQUENCE OF OBJECT IDENTIFIER`, with NTLMSSP alone. -/
def mechTypesTlv : Bytes :=
  tlv (UInt8.ofNat (ASN1_CONTEXT 0))
    (tlv (UInt8.ofNat (ASN1_SEQUENCE 0)) (oidTlv oidSpnegoMechNtlmssp))

def gssapiBlob (token : Bytes) : Bytes :=
  tlv (UInt8.ofNat asnGssapi)
    (oidTlv oidGssMechSpnego
      ++ tlv (UInt8.ofNat (ASN1_CONTEXT 0))
        (tlv (UInt8.ofNat (ASN1_SEQUENCE 0)) (mechTypesTlv ++ tokenTlv token)))

/-- `[0] ENUMERATED` accept-incomplete and `[1] OBJECT IDENTIFIER` NTLMSSP. -/
def resultTlv : Bytes :=
  tlv (UInt8.ofNat (ASN1_CONTEXT 0)) (tlv (UInt8.ofNat asnENUMERATED) [1])
    ++ tlv (UInt8.ofNat (ASN1_CONTEXT 1)) (oidTlv oidSpnegoMechNtlmssp)

/-- `[1] SEQUENCE`, around the fields of a response. -/
def targBlob (fields : Bytes) : Bytes :=
  tlv (UInt8.ofNat (ASN1_CONTEXT 1)) (tlv (UInt8.ofNat (ASN1_SEQUENCE 0)) fields)

theorem length_tlv_le (t : UInt8) (body : Bytes) : (tlv t body).length ≤ body.length + 6 := by
  have hfront := front_le body
  rw [length_tlv]
  omega

theorem le_length_tlv (t : UInt8) (body : Bytes) : body.length + 2 ≤ (tlv t body).length := by
  have hfront := two_le_front body
  rw [length_tlv]
  omega

theorem length_tokenTlv_le (token : Bytes) : (tokenTlv token).length ≤ token.length + 12 := by
  have hinner := length_tlv_le (UInt8.ofNat asnOCTET_STRING) token
  have houter := length_tlv_le (UInt8.ofNat (ASN1_CONTEXT 2))
    (tlv (UInt8.ofNat asnOCTET_STRING) token)
  rw [tokenTlv]
  omega

variable {token : Bytes}

/-- The level of the token, wherever it is opened. -/
theorem writes_tokenTlv (pos pos' : Nat) (h : token.length < 2 ^ 24) :
    Writes (level (ASN1_CONTEXT 2) 5 pos (level asnOCTET_STRING 5 pos' fun e => copyIn e token))
      (tokenTlv token) (token.length + 6 + 6) := by
  have hinner := length_tlv_le (UInt8.ofNat asnOCTET_STRING) token
  apply Writes.wide _ pos
  · apply Writes.wide _ pos'
    · exact Writes.copyIn token
    · omega
  · omega

-- the wrappers are compared with nested levels as they are written, not evaluated
attribute [irreducible] openLevel closeLevel copyIn blob

theorem wrapNtlmsspAuth_eq (h : token.length < 2 ^ 24) :
    (wrapNtlmsspAuth true token).map blob = some (targBlob (tokenTlv token)) := by
  have htoken := length_tokenTlv_le token
  have hseq := length_tlv_le (UInt8.ofNat (ASN1_SEQUENCE 0)) (tokenTlv token)
  have hwrites : Writes (level (ASN1_CONTEXT 1) 5 0 (level (ASN1_SEQUENCE 0) 5 0
      (level (ASN1_CONTEXT 2) 5 0 (level asnOCTET_STRING 5 0 fun e => copyIn e token))))
      (targBlob (tokenTlv token)) (token.length + 6 + 6 + 6 + 6) := by
    apply Writes.wide _ 0
    · apply Writes.wide _ 0 (writes_tokenTlv 0 0 h)
      omega
    · omega
  have hblob := hwrites.blob (64 + 2 * token.length) (by omega)
  exact congrArg some hblob

theorem wrapNtlmsspChallenge_eq (h : token.length < 2 ^ 24) :
    (wrapNtlmsspChallenge true token).map blob
      = some (targBlob (resultTlv ++ tokenTlv token)) := by
  have htoken := length_tokenTlv_le token
  have hseq := length_tlv_le (UInt8.ofNat (ASN1_SEQUENCE 0)) (resultTlv ++ tokenTlv token)
  have hresult : (resultTlv ++ tokenTlv token).length = 19 + (tokenTlv token).length := by
    rw [List.length_append]
    rfl
  have henumerated : Writes (level (ASN1_CONTEXT 0) 1 0 fun e => (berFromBytes e asnENUMERATED [1]).1)
      (tlv (UInt8.ofNat (ASN1_CONTEXT 0)) (tlv (UInt8.ofNat asnENUMERATED) [1])) 5 :=
    (Writes.bytes asnENUMERATED [1]).narrow 0 (by decide)
  have hmech : ∀ pos, Writes (level (ASN1_CONTEXT 1) 1 pos
      fun e => (berFromOid e oidSpnegoMechNtlmssp).1)
      (tlv (UInt8.ofNat (ASN1_CONTEXT 1)) (oidTlv oidSpnegoMechNtlmssp)) 14 :=
    fun pos => (Writes.oid _ (by decide) (by decide)).narrow pos (by decide)
  have hfields := (henumerated.andThen (fun e => (openLevel e (ASN1_CONTEXT 0) 1 0).2) hmech).andThen
    (fun e => (openLevel (level (ASN1_CONTEXT 0) 1 0
      (fun e => (berFromBytes e asnENUMERATED [1]).1) e) (ASN1_CONTEXT 1) 1
      (openLevel e (ASN1_CONTEXT 0) 1 0).2).2) fun pos => writes_tokenTlv pos 0 h
  have hwrites := (hfields.wide (ASN1_SEQUENCE 0) 0
    (show (resultTlv ++ tokenTlv token).length < 2 ^ 32 by omega)).wide
    (ASN1_CONTEXT 1) 0 (by
      show (tlv (UInt8.ofNat (ASN1_SEQUENCE 0)) (resultTlv ++ tokenTlv token)).length < 2 ^ 32
      omega)
  have hblob := hwrites.blob (64 + 2 * token.length) (by omega)
  exact congrArg some hblob

/-- The mechanism types, with the positions at which they are opened. -/
theorem writes_mechTypesTlv (pos pos' : Nat) :
    Writes (level (ASN1_CONTEXT 0) 5 pos (level (ASN1_SEQUENCE 0) 5 pos'
      fun e => (berFromOid e oidSpnegoMechNtlmssp).1)) mechTypesTlv 24 :=
  ((Writes.oid _ (by decide) (by decide)).wide _ pos' (by decide)).wide _ pos (by decide)

theorem wrapGssapi_eq (h : token.length < 2 ^ 24) (hne : token ≠ []) :
    (wrapGssapi true token).map blob = some (gssapiBlob token) := by
  have htoken := length_tokenTlv_le token
  have hmechs : mechTypesTlv.length = 16 := rfl
  have hoid : (oidTlv oidGssMechSpnego).length = 8 := rfl
  have hseq := length_tlv_le (UInt8.ofNat (ASN1_SEQUENCE 0)) (mechTypesTlv ++ tokenTlv token)
  have hcontext := length_tlv_le (UInt8.ofNat (ASN1_CONTEXT 0))
    (tlv (UInt8.ofNat (ASN1_SEQUENCE 0)) (mechTypesTlv ++ tokenTlv token))
  have hfields := (writes_mechTypesTlv 0 0).andThen
    (fun e => ((openLevel e (ASN1_CONTEXT 0) 5 0).2,
      (openLevel (openLevel e (ASN1_CONTEXT 0) 5 0).1 (ASN1_SEQUENCE 0) 5 0).2))
    fun pos => writes_tokenTlv pos.1 pos.2 h
  have hinner := (hfields.wide (ASN1_SEQUENCE 0) 0 (by
    rw [List.length_append]
    omega)).wide (ASN1_CONTEXT 0) 0 (by
    rw [List.length_append] at hseq
    omega)
  have hoids := (Writes.oid oidGssMechSpnego (by decide) (by decide)).andThen
    (fun _ => ()) fun _ => hinner
  have hwrites := hoids.wide asnGssapi 0 (by
    rw [List.length_append] at hseq ⊢
    omega)
  have hblob := hwrites.blob (256 + 4 * token.length) (by omega)
  have hlen : token.length ≠ 0 := by simpa using hne
  simp only [wrapGssapi, if_pos hlen]
  exact congrArg some hblob

/-! ## What is unwrapped -/

/-- A suffix is the slice of its length at its place. -/
theorem slice_suffix {off : Nat} (h : token <:+ w)
    (hoff : off + token.length = w.length) : slice w off token.length = token := by
  obtain ⟨pre, rfl⟩ := h
  have hpre : off = pre.length := by
    rw [List.length_append] at hoff
    omega
  simp [slice, hpre]

theorem suffix_tokenTlv (token : Bytes) : token <:+ tokenTlv token :=
  (suffix_tlv _ _).trans (suffix_tlv _ _)

theorem requireTypeandlen_tlv (t minimum : Nat) (body rest : Bytes) (tail : Nat)
    (ht : t < 256) (hcode : t % 32 ≠ 31) (hbody : body.length < 2 ^ 32)
    (hmin : minimum ≤ body.length) :
    requireTypeandlen ⟨tlv (UInt8.ofNat t) body ++ rest, tail⟩ t minimum
      = some (body.length, ⟨body ++ rest, tail + front body⟩) := by
  have hoctet : (UInt8.ofNat t).toNat = t := by
    simp
    omega
  have hread := typelenFromBer_tlv (t := UInt8.ofNat t) body rest tail (by rwa [hoctet]) hbody
  have hlen : ¬ (t ≠ t ∨ body.length < minimum) := by omega
  simp only [requireTypeandlen, hread, hoctet, Option.bind_eq_bind, Option.bind_some, if_neg hlen]

theorem oidFromBer_spnego (rest : Bytes) (tail : Nat) :
    oidFromBer ⟨oidTlv oidGssMechSpnego ++ rest, tail⟩
      = some (oidGssMechSpnego, ⟨rest, tail + 8⟩) := rfl

theorem oidFromBer_ntlmssp (rest : Bytes) (tail : Nat) :
    oidFromBer ⟨oidTlv oidSpnegoMechNtlmssp ++ rest, tail⟩
      = some (oidSpnegoMechNtlmssp, ⟨rest, tail + 12⟩) := rfl

/-- The loop over the mechanism types finds NTLMSSP alone. -/
theorem mechLoop_ntlmssp (turns : Nat) (rest : Bytes) (tail : Nat) :
    mechLoop (turns + 2) ⟨oidTlv oidSpnegoMechNtlmssp ++ rest, tail⟩ 12 0
      = some (SPNEGO_MECHANISM_NTLMSSP, ⟨rest, tail + 12⟩) := by
  have hdone : (12 : Int) - (((tail + 12 : Nat) : Int) - tail) ≤ 0 := by omega
  rw [mechLoop, if_neg (by decide), oidFromBer_ntlmssp]
  simp only [Option.bind_eq_bind, Option.bind_some]
  rw [mechLoop, if_pos hdone]
  rfl

/-- The last element of a level. -/
theorem requireTypeandlen_last (t minimum : Nat) (body : Bytes) (tail : Nat)
    (ht : t < 256) (hcode : t % 32 ≠ 31) (hbody : body.length < 2 ^ 32)
    (hmin : minimum ≤ body.length) :
    requireTypeandlen ⟨tlv (UInt8.ofNat t) body, tail⟩ t minimum
      = some (body.length, ⟨body, tail + front body⟩) := by
  simpa using requireTypeandlen_tlv t minimum body [] tail ht hcode hbody hmin

theorem le_length_tokenTlv (token : Bytes) : token.length + 4 ≤ (tokenTlv token).length := by
  have hinner := le_length_tlv (UInt8.ofNat asnOCTET_STRING) token
  have houter := le_length_tlv (UInt8.ofNat (ASN1_CONTEXT 2))
    (tlv (UInt8.ofNat asnOCTET_STRING) token)
  rw [tokenTlv]
  omega

/-- One step of a decoder that succeeds. -/
theorem bind_of_eq {α β : Type} {x : Option α} {a : α} (f : α → Option β) (h : x = some a) :
    (x >>= f) = f a := by
  rw [h]
  rfl

/-- The mechanism types are read to their end. -/
theorem unwrapMechs_mechTypesTlv (rest : Bytes) (tail : Nat) :
    unwrapMechs ⟨mechTypesTlv ++ rest, tail⟩
      = some (SPNEGO_MECHANISM_NTLMSSP, ⟨rest, tail + 16⟩) := by
  have hoid : (oidTlv oidSpnegoMechNtlmssp).length = 12 := rfl
  have hloop := mechLoop_ntlmssp (rest.length + 11) rest
  rw [mechTypesTlv]
  -- from here on only the length of the identifier matters
  generalize oidTlv oidSpnegoMechNtlmssp = oid at *
  have hfront : front oid = 2 := front_of_lt (by omega)
  have hseq : (tlv (UInt8.ofNat (ASN1_SEQUENCE 0)) oid).length = 14 := by
    rw [length_tlv, hfront, hoid]
  have hfront' : front (tlv (UInt8.ofNat (ASN1_SEQUENCE 0)) oid) = 2 := front_of_lt (by omega)
  have htypes := requireTypeandlen_tlv (ASN1_CONTEXT 0) 10
    (tlv (UInt8.ofNat (ASN1_SEQUENCE 0)) oid) rest tail (by decide) (by decide)
    (by omega) (by omega)
  have hmechs := requireTypeandlen_tlv (ASN1_SEQUENCE 0) 8
    oid rest (tail + 2) (by decide) (by decide) (by omega) (by omega)
  have hturns : (oid ++ rest).length + 1 = rest.length + 11 + 2 := by
    rw [List.length_append, hoid]
    omega
  have hsize : toInt32 ((12 : Nat) : Int) = 12 := rfl
  rw [hfront'] at htypes
  rw [hfront, hoid] at hmechs
  rw [unwrapMechs, bind_of_eq _ htypes]
  dsimp only
  rw [bind_of_eq _ hmechs, hsize, hturns, hloop]

/-- The token is next behind the mechanism types. -/
theorem gssapiMechs_gssapiBlob (hmin : 8 ≤ token.length) (h : token.length < 2 ^ 24) :
    ∃ tail, gssapiMechs (gssapiBlob token)
        = some (SPNEGO_MECHANISM_NTLMSSP, ⟨tokenTlv token, tail⟩)
      ∧ tail + (tokenTlv token).length = (gssapiBlob token).length := by
  have hlow := le_length_tokenTlv token
  have hhigh := length_tokenTlv_le token
  have hfields : (mechTypesTlv ++ tokenTlv token).length = 16 + (tokenTlv token).length := by
    rw [List.length_append]
    rfl
  have hblob : gssapiBlob token = tlv (UInt8.ofNat asnGssapi) (oidTlv oidGssMechSpnego
      ++ tlv (UInt8.ofNat (ASN1_CONTEXT 0))
        (tlv (UInt8.ofNat (ASN1_SEQUENCE 0)) (mechTypesTlv ++ tokenTlv token))) := rfl
  have hseqlow := le_length_tlv (UInt8.ofNat (ASN1_SEQUENCE 0)) (mechTypesTlv ++ tokenTlv token)
  have hseqhigh := length_tlv_le (UInt8.ofNat (ASN1_SEQUENCE 0)) (mechTypesTlv ++ tokenTlv token)
  have hseqlen := length_tlv (UInt8.ofNat (ASN1_SEQUENCE 0)) (mechTypesTlv ++ tokenTlv token)
  have hsecond := fun tail => requireTypeandlen_last (ASN1_SEQUENCE 0) 8
    (mechTypesTlv ++ tokenTlv token) tail (by decide) (by decide) (by omega) (by omega)
  generalize tlv (UInt8.ofNat (ASN1_SEQUENCE 0)) (mechTypesTlv ++ tokenTlv token) = seq at *
  have hcontextlow := le_length_tlv (UInt8.ofNat (ASN1_CONTEXT 0)) seq
  have hcontexthigh := length_tlv_le (UInt8.ofNat (ASN1_CONTEXT 0)) seq
  have hcontextlen := length_tlv (UInt8.ofNat (ASN1_CONTEXT 0)) seq
  have hfirst := fun tail => requireTypeandlen_last (ASN1_CONTEXT 0) 10
    seq tail (by decide) (by decide) (by omega) (by omega)
  generalize tlv (UInt8.ofNat (ASN1_CONTEXT 0)) seq = context at *
  have hbody : (oidTlv oidGssMechSpnego ++ context).length = 8 + context.length := by
    rw [List.length_append]
    rfl
  have hbloblen := length_tlv (UInt8.ofNat asnGssapi) (oidTlv oidGssMechSpnego ++ context)
  have houter := requireTypeandlen_last asnGssapi 32
    (oidTlv oidGssMechSpnego ++ context) 0 (by decide) (by decide) (by omega) (by omega)
  rw [hblob]
  refine ⟨0 + front (oidTlv oidGssMechSpnego ++ context) + 8 + front seq
    + front (mechTypesTlv ++ tokenTlv token) + 16, ?_, by omega⟩
  have hsame : ¬ oidCompare oidGssMechSpnego oidGssMechSpnego ≠ 0 := by decide
  rw [gssapiMechs, bind_of_eq _ houter, bind_of_eq _ (oidFromBer_spnego context _),
    if_neg hsame, bind_of_eq _ (hfirst _), bind_of_eq _ (hsecond _)]
  exact unwrapMechs_mechTypesTlv (tokenTlv token) _

/-- The two elements around the token are read, and its octets are next. -/
theorem requireToken_tokenTlv (minimum tail : Nat) (h : token.length < 2 ^ 24)
    (hmin : minimum ≤ token.length) (hten : 8 ≤ token.length) :
    (requireTypeandlen ⟨tokenTlv token, tail⟩ (ASN1_CONTEXT 2) 10 >>= fun context =>
        requireTypeandlen context.2 asnOCTET_STRING minimum)
      = some (token.length,
          ⟨token, tail + front (tlv (UInt8.ofNat asnOCTET_STRING) token) + front token⟩) := by
  have hlow := le_length_tlv (UInt8.ofNat asnOCTET_STRING) token
  have hhigh := length_tlv_le (UInt8.ofNat asnOCTET_STRING) token
  have hcontext := requireTypeandlen_last (ASN1_CONTEXT 2) 10
    (tlv (UInt8.ofNat asnOCTET_STRING) token) tail (by decide) (by decide) (by omega)
    (by omega)
  rw [tokenTlv, bind_of_eq _ hcontext]
  exact requireTypeandlen_last _ _ _ _ (by decide) (by decide) (by omega) hmin

theorem length_tokenTlv (token : Bytes) :
    (tokenTlv token).length
      = front (tlv (UInt8.ofNat asnOCTET_STRING) token) + front token + token.length := by
  rw [tokenTlv, length_tlv, length_tlv]
  omega

theorem unwrapGssapi_gssapiBlob (behind : Bytes) (hmin : 8 ≤ token.length)
    (h : token.length < 2 ^ 24) :
    ∃ off, unwrapGssapi (gssapiBlob token) behind true
        = ⟨token.length, some off, some SPNEGO_MECHANISM_NTLMSSP⟩
      ∧ off + token.length = (gssapiBlob token).length := by
  obtain ⟨tail, hmechs, htail⟩ := gssapiMechs_gssapiBlob hmin h
  have hlen := length_tokenTlv token
  have hinner := requireToken_tokenTlv 7 tail h (by omega) hmin
  have hnext : 2 < (gssapiBlob token).length ∧
      (tokenTlv token ++ behind).head? = some (UInt8.ofNat (ASN1_CONTEXT 2)) :=
    ⟨by omega, rfl⟩
  refine ⟨tail + front (tlv (UInt8.ofNat asnOCTET_STRING) token) + front token, ?_, by omega⟩
  rw [unwrapGssapi, hmechs]
  dsimp only
  rw [if_neg (by decide), if_pos hnext, hinner]
  dsimp only
  rw [toInt32_of_lt (by omega)]

/-- The loop over the fields of a response ends at the token. -/
theorem targLoop_tokenTlv {sequenceLen : Int} (turns tail : Nat) (mechs : Option Nat)
    (hmin : 8 ≤ token.length) (h : token.length < 2 ^ 24) (hseq : 2 < sequenceLen) :
    targLoop (turns + 1) ⟨tokenTlv token, tail⟩ sequenceLen mechs
      = ⟨token.length,
          some (tail + front (tlv (UInt8.ofNat asnOCTET_STRING) token) + front token), mechs⟩ := by
  have hhigh := length_tlv_le (UInt8.ofNat asnOCTET_STRING) token
  have hcontext := typelenFromBer_tlv (t := UInt8.ofNat (ASN1_CONTEXT 2))
    (tlv (UInt8.ofNat asnOCTET_STRING) token) [] tail (by decide) (by omega)
  have hcode : (UInt8.ofNat (ASN1_CONTEXT 2)).toNat = ASN1_CONTEXT 2 := by decide
  rw [List.append_nil, List.append_nil, hcode] at hcontext
  have htoken := requireTypeandlen_last asnOCTET_STRING 8
    token
    (tail + front (tlv (UInt8.ofNat asnOCTET_STRING) token)) (by decide) (by decide) (by omega) hmin
  rw [targLoop, if_neg (by omega), tokenTlv, hcontext]
  dsimp only
  rw [if_neg (by decide), if_neg (by decide), if_pos rfl]
  rw [htoken]
  dsimp only
  rw [toInt32_of_lt (by omega)]

/-- The result and the mechanism are passed over. -/
theorem targLoop_resultTlv {sequenceLen : Int} (turns tail : Nat) (hseq : 21 < sequenceLen) :
    targLoop (turns + 2) ⟨resultTlv ++ tokenTlv token, tail⟩ sequenceLen none
      = targLoop turns ⟨tokenTlv token, tail + 19⟩ (sequenceLen - 19) (some 1) := by
  have hresult : typelenFromBer ⟨resultTlv ++ tokenTlv token, tail⟩
      = some (ASN1_CONTEXT 0, 3, ⟨[0x0A, 1, 1] ++ (tlv (UInt8.ofNat (ASN1_CONTEXT 1))
          (oidTlv oidSpnegoMechNtlmssp) ++ tokenTlv token), tail + 2⟩) := rfl
  have hval : ∀ rest, uint32FromBer ⟨[0x0A, 1, 1] ++ rest, tail + 2⟩
      = some (1, ⟨rest, tail + 5⟩) := fun _ => rfl
  have hmech : ∀ rest, typelenFromBer ⟨tlv (UInt8.ofNat (ASN1_CONTEXT 1))
        (oidTlv oidSpnegoMechNtlmssp) ++ rest, tail + 5⟩
      = some (ASN1_CONTEXT 1, 12, ⟨oidTlv oidSpnegoMechNtlmssp ++ rest, tail + 7⟩) := fun _ => rfl
  have hleft : sequenceLen - (((tail + 5 : Nat) : Int) - tail)
      - (((tail + 7 + 12 : Nat) : Int) - (tail + 5 : Nat)) = sequenceLen - 19 := by
    omega
  rw [targLoop, if_neg (by omega), hresult]
  dsimp only
  rw [if_pos rfl, hval]
  dsimp only
  rw [targLoop, if_neg (by omega), hmech]
  dsimp only
  rw [if_neg (by decide), if_pos rfl, oidFromBer_ntlmssp]
  dsimp only
  rw [hleft]

/-- The two levels around the fields of a response. -/
theorem unwrapTarg_targBlob (fields : Bytes) (hmin : 12 ≤ fields.length)
    (h : fields.length < 2 ^ 25) :
    ∃ tail, unwrapTarg (targBlob fields)
        = targLoop (fields.length + 1) ⟨fields, tail⟩ fields.length none
      ∧ tail + fields.length = (targBlob fields).length := by
  have hlow := le_length_tlv (UInt8.ofNat (ASN1_SEQUENCE 0)) fields
  have hhigh := length_tlv_le (UInt8.ofNat (ASN1_SEQUENCE 0)) fields
  have hseqlen := length_tlv (UInt8.ofNat (ASN1_SEQUENCE 0)) fields
  have hblob := length_tlv (UInt8.ofNat (ASN1_CONTEXT 1))
    (tlv (UInt8.ofNat (ASN1_SEQUENCE 0)) fields)
  have houter := requireTypeandlen_last (ASN1_CONTEXT 1) 14
    (tlv (UInt8.ofNat (ASN1_SEQUENCE 0)) fields) 0 (by decide) (by decide) (by omega)
    (by omega)
  have hseq := requireTypeandlen_last (ASN1_SEQUENCE 0) 12
    fields
    (0 + front (tlv (UInt8.ofNat (ASN1_SEQUENCE 0)) fields)) (by decide) (by decide) (by omega) hmin
  refine ⟨0 + front (tlv (UInt8.ofNat (ASN1_SEQUENCE 0)) fields) + front fields, ?_, ?_⟩
  · rw [unwrapTarg, targBlob, bind_of_eq _ houter]
    dsimp only
    rw [hseq]
    dsimp only
    rw [toInt32_of_lt (by omega)]
  · rw [targBlob]
    omega

/-- A blob of a wrapper does not look like a token, and its first octet says how it is read. -/
theorem unwrapBlob_tlv {t : UInt8} (behind : Bytes) (hlen : 7 ≤ (tlv t body).length)
    (ht : t ≠ 0x4E) :
    unwrapBlob (tlv t body) behind
      = if t.toNat = asnGssapi then unwrapGssapi (tlv t body) behind true
        else if t.toNat = ASN1_CONTEXT 0 ∨ t.toNat = ASN1_CONTEXT 1 ∨ t.toNat = ASN1_CONTEXT 2 then
          unwrapTarg (tlv t body)
        else .fail none := by
  have hraw : ¬ (7 < (tlv t body).length ∧ (tlv t body).take 8 = rawMagic) := by
    rintro ⟨-, hmagic⟩
    have hfirst := congrArg List.head? hmagic
    simp only [tlv, List.cons_append, List.take_succ_cons, List.head?_cons, rawMagic] at hfirst
    exact ht (Option.some.inj hfirst)
  rw [unwrapBlob, if_neg (by omega), if_neg hraw]
  rfl

/-! ## Tokens that come back -/

/-- The three wrappers. -/
inductive Form
  | gssapi
  | challenge
  | auth
  deriving DecidableEq, Repr

def Form.wrap : Form → Bool → Bytes → Option Encoder
  | .gssapi => wrapGssapi
  | .challenge => wrapNtlmsspChallenge
  | .auth => wrapNtlmsspAuth

/-- The blob is unwrapped to this token: the pointer is to exactly its octets, none for the
empty token, and the GSS-API form names NTLMSSP alone. -/
def Returns (form : Form) (token blob : Bytes) (u : Unwrapped) : Prop :=
  u.ret = token.length
    ∧ (token = [] → u.token = none)
    ∧ (token ≠ [] → ∃ off, u.token = some off ∧ off + token.length ≤ blob.length
        ∧ slice blob off token.length = token)
    ∧ (form = .gssapi → token ≠ [] → u.mechanisms = some SPNEGO_MECHANISM_NTLMSSP)

/-- The blob that the wrapper makes of the token is unwrapped to the token, whatever stands
behind the blob. -/
def Inverts (form : Form) (token : Bytes) : Prop :=
  ∃ e, form.wrap true token = some e
    ∧ ∀ behind, Returns form token (blob e) (unwrapBlob (blob e) behind)

/-- A token at the end of its blob is returned. -/
theorem returns_of_suffix {form : Form} {off : Nat} {mechs : Option Nat}
    (hne : token ≠ []) (hsuffix : token <:+ w) (hoff : off + token.length = w.length)
    (hmechs : form = .gssapi → mechs = some SPNEGO_MECHANISM_NTLMSSP) :
    Returns form token w ⟨token.length, some off, mechs⟩ :=
  ⟨rfl, fun h => absurd h hne, fun _ => ⟨off, rfl, hoff.le, slice_suffix hsuffix hoff⟩,
    fun h _ => hmechs h⟩

theorem suffix_targBlob (h : token <:+ fields) : token <:+ targBlob fields :=
  (h.trans (suffix_tlv _ _)).trans (suffix_tlv _ _)

theorem suffix_gssapiBlob (token : Bytes) : token <:+ gssapiBlob token := by
  have hfields : token <:+ mechTypesTlv ++ tokenTlv token :=
    (suffix_tokenTlv token).trans (List.suffix_append _ _)
  have hcontext := (hfields.trans (suffix_tlv (UInt8.ofNat (ASN1_SEQUENCE 0)) _)).trans
    (suffix_tlv (UInt8.ofNat (ASN1_CONTEXT 0)) _)
  exact (hcontext.trans (List.suffix_append _ _)).trans (suffix_tlv _ _)

theorem exists_of_map_blob {x : Option Encoder} (h : x.map blob = some w) :
    ∃ e, x = some e ∧ blob e = w := Option.map_eq_some_iff.mp h

theorem inverts_gssapi (hmin : 8 ≤ token.length) (h : token.length < 2 ^ 24) :
    Inverts .gssapi token := by
  have hne : token ≠ [] := List.ne_nil_of_length_pos (by omega)
  obtain ⟨e, he, hblob⟩ := exists_of_map_blob (wrapGssapi_eq h hne)
  refine ⟨e, he, fun behind => ?_⟩
  obtain ⟨off, hunwrap, hoff⟩ := unwrapGssapi_gssapiBlob behind hmin h
  have hlen : 7 ≤ (gssapiBlob token).length := by omega
  have hdispatch := unwrapBlob_tlv behind hlen (by decide)
  rw [if_pos (by decide)] at hdispatch
  rw [hblob, gssapiBlob, hdispatch]
  rw [gssapiBlob] at hunwrap
  rw [hunwrap]
  exact returns_of_suffix hne (suffix_gssapiBlob token) hoff fun _ => rfl

/-- The blob of a response is read by `smb2_spnego_unwrap_targ`. -/
theorem unwrapBlob_targBlob (behind : Bytes) (hmin : 12 ≤ fields.length) :
    unwrapBlob (targBlob fields) behind = unwrapTarg (targBlob fields) := by
  have hlow := le_length_tlv (UInt8.ofNat (ASN1_SEQUENCE 0)) fields
  have houter := le_length_tlv (UInt8.ofNat (ASN1_CONTEXT 1))
    (tlv (UInt8.ofNat (ASN1_SEQUENCE 0)) fields)
  rw [targBlob, unwrapBlob_tlv behind (by omega) (by decide), if_neg (by decide),
    if_pos (by decide)]

theorem inverts_auth (hmin : 8 ≤ token.length) (h : token.length < 2 ^ 24) :
    Inverts .auth token := by
  have hne : token ≠ [] := List.ne_nil_of_length_pos (by omega)
  have hlow := le_length_tokenTlv token
  have hhigh := length_tokenTlv_le token
  have hlen := length_tokenTlv token
  obtain ⟨e, he, hblob⟩ := exists_of_map_blob (wrapNtlmsspAuth_eq h)
  refine ⟨e, he, fun behind => ?_⟩
  obtain ⟨tail, hunwrap, htail⟩ := unwrapTarg_targBlob (tokenTlv token) (by omega)
    (by omega)
  rw [hblob, unwrapBlob_targBlob behind (by omega), hunwrap,
    targLoop_tokenTlv _ tail none hmin h (by omega)]
  exact returns_of_suffix hne (suffix_targBlob (suffix_tokenTlv token)) (by omega)
    fun hform => nomatch hform

theorem inverts_challenge (hmin : 8 ≤ token.length) (h : token.length < 2 ^ 24) :
    Inverts .challenge token := by
  have hne : token ≠ [] := List.ne_nil_of_length_pos (by omega)
  have hlow := le_length_tokenTlv token
  have hhigh := length_tokenTlv_le token
  have hlen := length_tokenTlv token
  have hfields : (resultTlv ++ tokenTlv token).length = (tokenTlv token).length + 19 := by
    rw [List.length_append, Nat.add_comm]
    rfl
  obtain ⟨e, he, hblob⟩ := exists_of_map_blob (wrapNtlmsspChallenge_eq h)
  refine ⟨e, he, fun behind => ?_⟩
  obtain ⟨tail, hunwrap, htail⟩ := unwrapTarg_targBlob (resultTlv ++ tokenTlv token)
    (by omega) (by omega)
  have hsuffix : token <:+ resultTlv ++ tokenTlv token :=
    (suffix_tokenTlv token).trans (List.suffix_append _ _)
  rw [hfields] at hunwrap htail
  rw [hblob, unwrapBlob_targBlob behind (by omega), hunwrap,
    targLoop_resultTlv _ tail (by omega), targLoop_tokenTlv _ _ _ hmin h (by omega)]
  exact returns_of_suffix hne (suffix_targBlob hsuffix) (by omega) fun hform => nomatch hform

/-- The blob without a token: the level of the mechanism types is closed twice, and four
octets of its contents are lost. -/
theorem wrapGssapi_nil :
    (wrapGssapi true []).map blob = some [0x60, 24, 6, 6, 43, 6, 1, 5, 5, 2, 0xA0, 14, 0x30, 12,
      0xA0, 10, 43, 6, 1, 4, 1, 130, 55, 2, 2, 10] := by decide +kernel

theorem not_inverts_nil : ¬ Inverts .gssapi [] := by
  rintro ⟨e, he, hreturns⟩
  have hblob := congrArg (Option.map blob) he
  rw [Form.wrap, wrapGssapi_nil] at hblob
  have hret := (hreturns []).1
  rw [← Option.some.inj hblob] at hret
  revert hret
  decide +kernel

/-- **Which tokens come back.**  A token of eight octets or more comes back from every
wrapper, exactly; the blob without a token is refused. -/
theorem wrapping_is_invertible (form : Form) (token : Bytes)
    (h : 8 ≤ token.length ∧ token.length < 2 ^ 24 ∨ form = .gssapi ∧ token = []) :
    Inverts form token ↔ token ≠ [] := by
  rcases h with ⟨hmin, hmax⟩ | ⟨rfl, rfl⟩
  · have hne : token ≠ [] := List.ne_nil_of_length_pos (by omega)
    refine iff_of_true ?_ hne
    cases form with
    | gssapi => exact inverts_gssapi hmin hmax
    | challenge => exact inverts_challenge hmin hmax
    | auth => exact inverts_auth hmin hmax
  · exact iff_of_false not_inverts_nil (fun hne => hne rfl)

theorem wrapping_is_invertible_eight : Inverts .auth (zeros 8) :=
  (wrapping_is_invertible .auth (zeros 8) (.inl ⟨by decide, by decide⟩)).mpr (by decide)

theorem empty_token_is_refused : ¬ Inverts .gssapi [] := not_inverts_nil

end Libsmb2.Spnego
