import Libsmb2.Process.Negotiate

/-!
# A NEGOTIATE reply that comes back

`smb2_encode_negotiate_reply`, with which a server puts a reply together, and
`smb2_process_negotiate_fixed` and `smb2_process_negotiate_variable`, with which a client takes it
apart.  The encoder rounds the length of the fixed part up for that of the block of the security
buffer, and for dialect 3.1.1 adds a preauthentication and an encryption context.

* `parseNegotiateContexts_sent` — what a client finds in those two, and in the place behind them;
* `negotiate_reply_returns_iff` — when a reply comes back as it was sent.
-/

set_option autoImplicit false

namespace Libsmb2

open Util

/-! ## The reply of a server -/

def VERSION_ANY : Nat := 0
def VERSION_ANY3 : Nat := 3
def NEGOTIATE_REPLY_SIZE : Nat := 65

/-- `struct smb2_negotiate_reply`, as the encoder reads it. -/
structure NegotiateReplyArgs where
  securityMode : UInt16 := 0
  dialectRevision : UInt16
  serverGuid : Octets 16
  capabilities : UInt32 := 0
  maxTransactSize : UInt32 := 0
  maxReadSize : UInt32 := 0
  maxWriteSize : UInt32 := 0
  systemTime : UInt64 := 0
  serverStartTime : UInt64 := 0
  negotiateContextCount : UInt16 := 0
  securityBuffer : { bs : Bytes // bs.length < 2 ^ 16 }

/-- A reply in this dialect has contexts. -/
def hasContexts (dialect : Nat) : Bool :=
  dialect = VERSION_ANY ∨ dialect = VERSION_ANY3 ∨ dialect = VERSION_0311

/-- `len` in `smb2_encode_negotiate_reply`. -/
def negotiateReplyLength (dialect : Nat) : Nat :=
  let len := padTo32 (NEGOTIATE_REPLY_SIZE - 1)
  if hasContexts dialect ∧ len / 4 % 2 = 1 then len + 4 else len

namespace NegotiateReplyArgs

/-- The fixed part of a reply with so many contexts behind a security buffer of `seclen` octets. -/
def fixed (rep : NegotiateReplyArgs) (len seclen count : Nat) : Bytes :=
  zeros len
    |> setUint16 0 NEGOTIATE_REPLY_SIZE
    |> setUint16 2 rep.securityMode.toNat
    |> setUint16 4 rep.dialectRevision.toNat
    |> setUint16 6 count
    |> (patch · 8 rep.serverGuid.1)
    |> setUint32 24 rep.capabilities.toNat
    |> setUint32 28 rep.maxTransactSize.toNat
    |> setUint32 32 rep.maxReadSize.toNat
    |> setUint32 36 rep.maxWriteSize.toNat
    |> setUint64 40 rep.systemTime.toNat
    |> setUint64 48 rep.serverStartTime.toNat
    |> setUint16 56 (len + HEADER_SIZE)
    |> setUint16 58 rep.securityBuffer.1.length
    |> setUint32 60 (len + seclen + HEADER_SIZE)

/-- `seclen`, which without a security buffer is what the stack holds. -/
def seclen (rep : NegotiateReplyArgs) (len : Nat) (stack : UInt32) : Nat :=
  if rep.securityBuffer.1.length = 0 then stack.toNat else padTo64 len

/-- The number of contexts: what it was before, and those that are added. -/
def contextCount (rep : NegotiateReplyArgs) (dialect : Nat) : UInt16 :=
  if hasContexts dialect then rep.negotiateContextCount + 2 else rep.negotiateContextCount

/-- The vector of a security buffer that is not empty. -/
def addSecurityBuffer (rep : NegotiateReplyArgs) (seclen : Nat) (out : List Bytes) :
    Option (List Bytes) :=
  if rep.securityBuffer.1.length = 0 then some out
  else addVector (padBuffer rep.securityBuffer.1 seclen) out

end NegotiateReplyArgs

/-- The contexts of a reply in this dialect. -/
def addContexts (S : Settings) (dialect : Nat) (out : List Bytes) : Option (List Bytes) :=
  if hasContexts dialect then encodePreauthContext S out >>= encodeEncryptionContext else some out

/-- `smb2_encode_negotiate_reply`; `none` is -1. -/
def encodeNegotiateReply (S : Settings) (dialect : Nat) (stack : UInt32) (rep : NegotiateReplyArgs)
    (out : List Bytes) : Except Overrun (Option (List Bytes)) :=
  let len := negotiateReplyLength dialect
  let seclen := rep.seclen len stack
  if MAX_VECTORS ≤ out.length then .ok none
  else if rep.securityBuffer.1.length ≠ 0 ∧ seclen < rep.securityBuffer.1.length then .error .write
  else .ok do
    let out ← addVector (rep.fixed len seclen (rep.contextCount dialect).toNat) out
    let out ← rep.addSecurityBuffer seclen out
    addContexts S dialect out

/-- `smb2_cmd_negotiate_reply_async`: the octets behind the header. -/
def cmdNegotiateReply (S : Settings) (dialect : Nat) (stack : UInt32) (rep : NegotiateReplyArgs) :
    Except Overrun (Option Bytes) :=
  (encodeNegotiateReply S dialect stack rep [zeros HEADER_SIZE]).map fun out =>
    (out.bind padTo64Bit).map fun out => (out.drop 1).flatten

/-! ## The client -/

/-- `struct smb2_negotiate_reply` after the fixed part. -/
structure NegotiateFields where
  securityMode : Nat
  dialectRevision : Nat
  serverGuid : Bytes
  capabilities : Nat
  maxTransactSize : Nat
  maxReadSize : Nat
  maxWriteSize : Nat
  systemTime : Nat
  serverStartTime : Nat
  securityBufferOffset : Nat
  securityBufferLength : Nat
  negotiateContextCount : Nat
  negotiateContextOffset : UInt32
  deriving DecidableEq

/-- The fields of a fixed part of the right size. -/
def negotiateFields (iov : Bytes) : Option NegotiateFields :=
  if fromLe (slice iov 0 2) ≠ NEGOTIATE_REPLY_SIZE ∨ iov.length ≠ 64 then none
  else some {
    securityMode := fromLe (slice iov 2 2)
    dialectRevision := fromLe (slice iov 4 2)
    serverGuid := slice iov 8 16
    capabilities := fromLe (slice iov 24 4)
    maxTransactSize := fromLe (slice iov 28 4)
    maxReadSize := fromLe (slice iov 32 4)
    maxWriteSize := fromLe (slice iov 36 4)
    systemTime := fromLe (slice iov 40 8)
    serverStartTime := fromLe (slice iov 48 8)
    securityBufferOffset := fromLe (slice iov 56 2)
    securityBufferLength := fromLe (slice iov 58 2)
    negotiateContextCount := fromLe (slice iov 6 2)
    negotiateContextOffset := .ofNat (fromLe (slice iov 60 4)) }

/-- `smb2_process_negotiate_fixed`; `none` is -1. -/
def processNegotiateFixed (spl : Nat) (iov : Bytes) : Option (Int × NegotiateFields) :=
  match negotiateFields iov with
  | none => none
  | some rep =>
    if rep.securityBufferLength ≠ 0 ∧
        spl % 2 ^ 16 < rep.securityBufferOffset + rep.securityBufferLength then none
    else if rep.securityBufferLength = 0 then some (0, rep)
    else if rep.securityBufferOffset < HEADER_SIZE + 64 then none
    -- there may be contexts behind the security buffer
    else if VERSION_0311 ≤ rep.dialectRevision then some (toInt32 ((spl : Int) - HEADER_SIZE - 64), rep)
    else some (toInt32 ((rep.securityBufferOffset : Int) - HEADER_SIZE - 64 +
      rep.securityBufferLength), rep)

/-- What the variable part adds to the reply. -/
structure NegotiateVariable where
  securityBuffer : Bytes
  cypher : UInt16
  deriving DecidableEq

/-- The cipher, which is what the block of the reply holds if there are no contexts. -/
def replyCypher (stale : ContextHeader) (cypher : UInt16) (rep : NegotiateFields) (iov : Bytes) :
    Except Overrun (Option UInt16) :=
  if rep.dialectRevision < VERSION_0311 ∨ rep.negotiateContextCount = 0 then .ok (some cypher)
  else match contextOffset (HEADER_SIZE + 64) iov rep.negotiateContextOffset with
    | none => .ok none
    | some offset => parseNegotiateContexts iov rep.negotiateContextCount offset stale cypher

/-- The security buffer: what a caller finds where it is told that it is. -/
def replySecurityBuffer (rep : NegotiateFields) (iov : Bytes) : Except Overrun Bytes :=
  (Window.whole iov).read (rep.securityBufferOffset - (HEADER_SIZE + 64)) rep.securityBufferLength

/-- `smb2_process_negotiate_variable`. -/
def processNegotiateVariable (stale : ContextHeader) (cypher : UInt16) (rep : NegotiateFields)
    (iov : Bytes) : Except Overrun (Option NegotiateVariable) :=
  replyCypher stale cypher rep iov >>= fun
    | none => .ok none
    | some cypher => (replySecurityBuffer rep iov).map fun bs => some ⟨bs, cypher⟩

/-- What a client makes of the octets behind the header. -/
def decodeNegotiateReply (stale : ContextHeader) (cypher : UInt16) (body : Bytes) :
    Except Overrun (Option (NegotiateFields × Option NegotiateVariable)) :=
  decodeBody 64 (processNegotiateFixed (HEADER_SIZE + body.length))
    (processNegotiateVariable stale cypher) body

section
variable {S : Settings} {dialect : Nat} {stack : UInt32} {rep : NegotiateReplyArgs}
  {stale : ContextHeader} {cypher : UInt16}

/-! ## What is sent -/

theorem negotiateReplyLength_eq (dialect : Nat) : negotiateReplyLength dialect = 64 := by
  have hlen : padTo32 (NEGOTIATE_REPLY_SIZE - 1) = 64 := rfl
  unfold negotiateReplyLength
  rw [hlen]
  exact if_neg (by omega)

theorem NegotiateReplyArgs.length_fixed (rep : NegotiateReplyArgs) (seclen count : Nat) :
    (rep.fixed 64 seclen count).length = 64 := by
  have hguid := rep.serverGuid.2
  simp [NegotiateReplyArgs.fixed, length_patch, hguid]

/-- The octets of the preauthentication context. -/
def preauthContext (S : Settings) : Bytes :=
  zeros (8 + padTo64 38)
    |> setUint16 0 PREAUTH_INTEGRITY_CAP
    |> setUint16 2 38
    |> setUint16 8 1
    |> setUint16 10 32
    |> setUint16 12 HASH_SHA_512
    |> (patch · 14 S.salt.1)

/-- The octets of the encryption context. -/
def encryptionContext : Bytes :=
  zeros (padTo64 (8 + padTo64 4))
    |> setUint16 0 ENCRYPTION_CAP
    |> setUint16 2 (padTo64 4)
    |> setUint16 8 1
    |> setUint16 10 ENCRYPTION_AES_128_CCM

theorem length_preauthContext (S : Settings) : (preauthContext S).length = 48 := by
  have hsalt := S.salt.2
  simp [preauthContext, length_patch, hsalt, padTo64]

theorem length_encryptionContext : encryptionContext.length = 16 := by
  decide

/-- What follows the fixed part. -/
def sentVectors (S : Settings) (dialect : Nat) (rep : NegotiateReplyArgs) (seclen : Nat) :
    List Bytes :=
  (if rep.securityBuffer.1.length = 0 then [] else [padBuffer rep.securityBuffer.1 seclen]) ++
    if hasContexts dialect then [preauthContext S, encryptionContext] else []

theorem addVector_of_lt {buf : Bytes} {out : List Bytes} (h : out.length < MAX_VECTORS) :
    addVector buf out = some (out ++ [buf]) := if_neg (by omega)

/-- The length of the block of a security buffer is that of the fixed part. -/
theorem seclen_eq (hne : rep.securityBuffer.1.length ≠ 0) : rep.seclen 64 stack = 64 := by
  rw [NegotiateReplyArgs.seclen, if_neg hne]
  rfl

theorem addSecurityBuffer_eq {seclen : Nat} {out : List Bytes} (h : out.length < MAX_VECTORS) :
    rep.addSecurityBuffer seclen out = some (out ++
      if rep.securityBuffer.1.length = 0 then [] else [padBuffer rep.securityBuffer.1 seclen]) := by
  unfold NegotiateReplyArgs.addSecurityBuffer
  split
  · rw [List.append_nil]
  · exact addVector_of_lt h

theorem addContexts_eq {out : List Bytes} (h : out.length + 1 < MAX_VECTORS) :
    addContexts S dialect out = some (out ++
      if hasContexts dialect then [preauthContext S, encryptionContext] else []) := by
  unfold addContexts
  split
  · have hpreauth : encodePreauthContext S out = some (out ++ [preauthContext S]) :=
      addVector_of_lt (by omega)
    have hencryption : encodeEncryptionContext (out ++ [preauthContext S]) =
        some (out ++ [preauthContext S] ++ [encryptionContext]) :=
      addVector_of_lt (by rw [List.length_append]; exact h)
    rw [hpreauth, Option.bind_eq_bind, Option.bind_some, hencryption, List.append_assoc]
    rfl
  · rw [List.append_nil]

theorem encodeNegotiateReply_eq (hfits : rep.securityBuffer.1.length ≤ 64) :
    encodeNegotiateReply S dialect stack rep [zeros HEADER_SIZE] =
      .ok (some ([zeros HEADER_SIZE, rep.fixed 64 (rep.seclen 64 stack)
        (rep.contextCount dialect).toNat] ++ sentVectors S dialect rep (rep.seclen 64 stack))) := by
  have hroom : ¬ (rep.securityBuffer.1.length ≠ 0 ∧
      rep.seclen 64 stack < rep.securityBuffer.1.length) := by
    rintro ⟨hne, hlt⟩
    rw [seclen_eq hne] at hlt
    omega
  unfold encodeNegotiateReply
  simp only [negotiateReplyLength_eq]
  rw [if_neg (by decide), if_neg hroom, addVector_of_lt (by decide), Option.bind_eq_bind,
    Option.bind_some, addSecurityBuffer_eq (by simp [MAX_VECTORS]), Option.bind_some,
    addContexts_eq (by split <;> simp [MAX_VECTORS]), sentVectors, List.append_assoc]
  rfl

/-- A security buffer that is longer than the fixed part is written behind its block. -/
theorem encodeNegotiateReply_overruns (hlong : 64 < rep.securityBuffer.1.length) :
    encodeNegotiateReply S dialect stack rep [zeros HEADER_SIZE] = .error .write := by
  have hne : rep.securityBuffer.1.length ≠ 0 := by omega
  unfold encodeNegotiateReply
  simp only [negotiateReplyLength_eq]
  rw [if_neg (by decide), if_pos ⟨hne, by rw [seclen_eq hne]; exact hlong⟩]

theorem padTo64Bit_of_mod {out : List Bytes} (h : octetCount out % 8 = 0) :
    padTo64Bit out = some out := if_pos h

/-- All the vectors are multiples of eight octets. -/
theorem cmdNegotiateReply_eq (hfits : rep.securityBuffer.1.length ≤ 64) :
    cmdNegotiateReply S dialect stack rep = .ok (some (rep.fixed 64 (rep.seclen 64 stack)
      (rep.contextCount dialect).toNat ++
        (sentVectors S dialect rep (rep.seclen 64 stack)).flatten)) := by
  have hsec : (octetCount (if rep.securityBuffer.1.length = 0 then []
      else [padBuffer rep.securityBuffer.1 (rep.seclen 64 stack)])) % 8 = 0 := by
    split
    · rfl
    · rename_i hne
      rw [seclen_eq hne, ← octetCount_eq, List.flatten_singleton, padBuffer, List.length_append,
        length_zeros]
      omega
  have hcontexts : (octetCount (if hasContexts dialect then [preauthContext S, encryptionContext]
      else [])) % 8 = 0 := by
    split
    · simp [← octetCount_eq, length_preauthContext, length_encryptionContext]
    · rfl
  have hcount : octetCount ([zeros HEADER_SIZE, rep.fixed 64 (rep.seclen 64 stack)
      (rep.contextCount dialect).toNat] ++ sentVectors S dialect rep (rep.seclen 64 stack)) % 8 =
        0 := by
    rw [octetCount_append, sentVectors, octetCount_append]
    have hfixed : octetCount [zeros HEADER_SIZE, rep.fixed 64 (rep.seclen 64 stack)
        (rep.contextCount dialect).toNat] = 128 := by
      simp [← octetCount_eq, rep.length_fixed, HEADER_SIZE]
    omega
  unfold cmdNegotiateReply
  rw [encodeNegotiateReply_eq hfits, Except.map, Option.bind_some, padTo64Bit_of_mod hcount]
  rfl

theorem cmdNegotiateReply_overruns (hlong : 64 < rep.securityBuffer.1.length) :
    cmdNegotiateReply S dialect stack rep = .error .write := by
  rw [cmdNegotiateReply, encodeNegotiateReply_overruns hlong]
  rfl

/-! ## What is found in the fixed part -/

/-- What a client reads. -/
def NegotiateReplyArgs.received (rep : NegotiateReplyArgs) (seclen : Nat) (count : UInt16) :
    NegotiateFields where
  securityMode := rep.securityMode.toNat
  dialectRevision := rep.dialectRevision.toNat
  serverGuid := rep.serverGuid.1
  capabilities := rep.capabilities.toNat
  maxTransactSize := rep.maxTransactSize.toNat
  maxReadSize := rep.maxReadSize.toNat
  maxWriteSize := rep.maxWriteSize.toNat
  systemTime := rep.systemTime.toNat
  serverStartTime := rep.serverStartTime.toNat
  securityBufferOffset := HEADER_SIZE + 64
  securityBufferLength := rep.securityBuffer.1.length
  negotiateContextCount := count.toNat
  negotiateContextOffset := .ofNat (64 + seclen + HEADER_SIZE)

theorem negotiateFields_sent (rep : NegotiateReplyArgs) (seclen : Nat) (count : UInt16) :
    negotiateFields (rep.fixed 64 seclen count.toNat) = some (rep.received seclen count) := by
  have hguid := rep.serverGuid.2
  have hsame : ∀ bs : Bytes, 8 ≤ bs.length →
      slice (patch bs 8 rep.serverGuid.1) 8 16 = rep.serverGuid.1 := by
    intro bs hbs
    have hsame : slice (patch bs 8 rep.serverGuid.1) 8 rep.serverGuid.1.length = rep.serverGuid.1 :=
      slice_patch_same hbs
    rwa [hguid] at hsame
  have hlen := rep.securityBuffer.2
  unfold negotiateFields
  rw [rep.length_fixed]
  unfold NegotiateReplyArgs.fixed
  simp (disch := simp [length_setUint, length_patch, hguid]) only [setUint16, setUint32, setUint64,
    slice_setUint_before, slice_setUint_same, slice_patch_before, hsame, fromLe_le]
  have h16 : ∀ v : UInt16, v.toNat % 256 ^ 2 = v.toNat := fun v => Nat.mod_eq_of_lt v.toNat_lt
  have h32 : ∀ v : UInt32, v.toNat % 256 ^ 4 = v.toNat := fun v => Nat.mod_eq_of_lt v.toNat_lt
  have h64 : ∀ v : UInt64, v.toNat % 256 ^ 8 = v.toNat := fun v => Nat.mod_eq_of_lt v.toNat_lt
  have hoffset : UInt32.ofNat ((64 + seclen + HEADER_SIZE) % 256 ^ 4) =
      .ofNat (64 + seclen + HEADER_SIZE) := UInt32.toNat_inj.mp (by simp)
  rw [if_neg (by decide), Nat.mod_eq_of_lt (show rep.securityBuffer.1.length < 256 ^ 2 from hlen),
    hoffset]
  simp only [h16, h32, h64]
  rfl

/-- A reply without a security buffer has no variable part. -/
theorem processNegotiateFixed_empty (hempty : rep.securityBuffer.1.length = 0) (spl seclen : Nat)
    (count : UInt16) : processNegotiateFixed spl (rep.fixed 64 seclen count.toNat) =
      some (0, rep.received seclen count) := by
  have hlength : (rep.received seclen count).securityBufferLength = 0 := hempty
  unfold processNegotiateFixed
  rw [negotiateFields_sent]
  simp only
  rw [if_neg (fun h => h.1 hlength), if_pos hlength]

/-- Before 3.1.1 the variable part is the security buffer. -/
theorem processNegotiateFixed_before {spl seclen : Nat} {count : UInt16}
    (hne : rep.securityBuffer.1.length ≠ 0) (hspl : 128 + rep.securityBuffer.1.length ≤ spl % 2 ^ 16)
    (hdialect : rep.dialectRevision.toNat < VERSION_0311) :
    processNegotiateFixed spl (rep.fixed 64 seclen count.toNat) =
      some ((rep.securityBuffer.1.length : Int), rep.received seclen count) := by
  have hlen := rep.securityBuffer.2
  have hlength : (rep.received seclen count).securityBufferLength = rep.securityBuffer.1.length := rfl
  have hoffset : (rep.received seclen count).securityBufferOffset = 128 := rfl
  have hrevision : (rep.received seclen count).dialectRevision = rep.dialectRevision.toNat := rfl
  have hheader : HEADER_SIZE = 64 := rfl
  have hint : ((128 : Nat) : Int) - (HEADER_SIZE : Int) - 64 + rep.securityBuffer.1.length =
      (rep.securityBuffer.1.length : Nat) := by
    rw [hheader]
    omega
  unfold processNegotiateFixed
  rw [negotiateFields_sent]
  simp only
  rw [hlength, hoffset, hrevision, if_neg (by omega), if_neg hne, if_neg (by omega),
    if_neg (Nat.not_le_of_lt hdialect), hint, toInt32_of_lt (by omega)]

/-- From 3.1.1 on it is all that is left. -/
theorem processNegotiateFixed_from {n seclen : Nat} {count : UInt16}
    (hne : rep.securityBuffer.1.length ≠ 0)
    (hspl : 128 + rep.securityBuffer.1.length ≤ (128 + n) % 2 ^ 16) (hn : n < 2 ^ 31)
    (hdialect : VERSION_0311 ≤ rep.dialectRevision.toNat) :
    processNegotiateFixed (128 + n) (rep.fixed 64 seclen count.toNat) =
      some ((n : Int), rep.received seclen count) := by
  have hlength : (rep.received seclen count).securityBufferLength = rep.securityBuffer.1.length := rfl
  have hoffset : (rep.received seclen count).securityBufferOffset = 128 := rfl
  have hrevision : (rep.received seclen count).dialectRevision = rep.dialectRevision.toNat := rfl
  have hheader : HEADER_SIZE = 64 := rfl
  have hint : ((128 + n : Nat) : Int) - (HEADER_SIZE : Int) - 64 = n := by
    rw [hheader]
    omega
  unfold processNegotiateFixed
  rw [negotiateFields_sent]
  simp only
  rw [hlength, hoffset, hrevision, if_neg (by omega), if_neg hne, if_neg (by omega),
    if_pos hdialect, hint, toInt32_of_lt hn]

/-! ## What is found in the contexts -/

theorem uint16At_append {x y : Bytes} {k n : Nat} {old : UInt16} (hx : x.length = n) :
    uint16At (x ++ y) (n + k) old = uint16At y k old := by
  unfold uint16At
  rw [List.length_append, hx, slice_append_right (by omega), hx, Nat.add_sub_cancel_left]
  exact if_congr (by omega) rfl rfl

/-- The contexts of a reply behind a security buffer. -/
def sentContexts (S : Settings) (block : Bytes) : Bytes :=
  block ++ (preauthContext S ++ encryptionContext)

section
variable {block : Bytes}

theorem length_sentContexts (S : Settings) (hblock : block.length = 64) :
    (sentContexts S block).length = 128 := by
  rw [sentContexts, List.length_append, List.length_append, hblock, length_preauthContext,
    length_encryptionContext]

/-- What is found in the two contexts. -/
theorem uint16At_preauth (S : Settings) (old : UInt16) :
    uint16At (preauthContext S ++ encryptionContext) 0 old = 1 ∧
      uint16At (preauthContext S ++ encryptionContext) 2 old = 38 := by
  have hsalt := S.salt.2
  have hlength := length_preauthContext S
  have htype : slice (preauthContext S) 0 2 = le 2 1 := by
    unfold preauthContext
    simp (disch := simp [padTo64, length_setUint]) only [setUint16, slice_setUint_before,
      slice_setUint_same, slice_patch_before]
    rfl
  have hlen : slice (preauthContext S) 2 2 = le 2 38 := by
    unfold preauthContext
    simp (disch := simp [padTo64, length_setUint]) only [setUint16, slice_setUint_before,
      slice_setUint_same, slice_patch_before]
  unfold uint16At
  rw [List.length_append, if_pos (by omega), if_pos (by omega), slice_append_left (by omega),
    slice_append_left (by omega), htype, hlen]
  exact ⟨rfl, rfl⟩

theorem uint16At_encryption (S : Settings) (old : UInt16) :
    uint16At (preauthContext S ++ encryptionContext) 48 old = 2 ∧
      uint16At (preauthContext S ++ encryptionContext) 50 old = 8 ∧
      uint16At (preauthContext S ++ encryptionContext) 56 old = 1 := by
  have hlength := length_preauthContext S
  refine ⟨?_, ?_, ?_⟩
  · rw [uint16At_append (k := 0) hlength]
    rfl
  · rw [uint16At_append (k := 2) hlength]
    rfl
  · rw [uint16At_append (k := 8) hlength]
    rfl

theorem headerAt_preauth (S : Settings) (hblock : block.length = 64) (stale : ContextHeader) :
    headerAt (sentContexts S block) 64 stale = ⟨1, 38⟩ := by
  unfold headerAt sentContexts
  rw [uint16At_append (k := 0) hblock, uint16At_append (k := 2) hblock,
    (uint16At_preauth S stale.type).1, (uint16At_preauth S stale.len).2]

theorem headerAt_encryption (S : Settings) (hblock : block.length = 64) (stale : ContextHeader) :
    headerAt (sentContexts S block) 112 stale = ⟨2, 8⟩ := by
  unfold headerAt sentContexts
  rw [uint16At_append (k := 48) hblock, uint16At_append (k := 50) hblock,
    (uint16At_encryption S stale.type).1, (uint16At_encryption S stale.len).2.1]

/-- Behind the contexts is what was there before. -/
theorem headerAt_behind (S : Settings) (hblock : block.length = 64) (stale : ContextHeader) :
    headerAt (sentContexts S block) 128 stale = stale := by
  have hlength := length_sentContexts S hblock
  unfold headerAt uint16At
  rw [if_neg (by omega), if_neg (by omega)]

/-- A step to the next context. -/
theorem parseContexts_next {K : ContextKind UInt16} {iov : Bytes} {count offset next : Nat}
    {header : ContextHeader} {a c : UInt16} (hle : offset ≤ iov.length)
    (hiov : iov.length < 2 ^ 31) (hheader : headerAt iov offset stale = header)
    (hknown : K.known header.type = true) (hc : K.interpret iov offset header a = .ok c)
    (hnext : offset + header.step = next) (hsmall : next < 2 ^ 31) :
    parseContexts K iov (count + 1) offset stale a = parseContexts K iov count next header c := by
  subst hheader hnext
  rw [parseContexts_known hle hiov hknown, hc, ← Nat.cast_add, toInt32_of_lt hsmall]
  rfl

theorem interpret_cipher {iov : Bytes} {offset : Nat} {header : ContextHeader}
    (htype : header.type.toNat = ENCRYPTION_CAP) (hoffset : offset < 2 ^ 62) :
    replyContexts.interpret iov offset header cypher = .ok (uint16At iov (offset + 8) cypher) := by
  have hinterpret : replyContexts.interpret = interpretContext := rfl
  rw [hinterpret, interpretContext, if_pos htype, ← getUint16_eq (by omega), Nat.cast_add]
  rfl

/-- A client finds the cipher if it looks for two contexts or three, of which the third is not
there. -/
theorem parseNegotiateContexts_sent (S : Settings) (hblock : block.length = 64) (count : Nat)
    (stale : ContextHeader) (cypher : UInt16) :
    parseNegotiateContexts (sentContexts S block) count (64 : Nat) stale cypher =
      .ok (if count < 2 then some cypher else if count < 4 then some 1 else none) := by
  have hlength := length_sentContexts S hblock
  have hcypher : replyContexts.interpret (sentContexts S block) (112 : Nat) ⟨2, 8⟩ cypher =
      .ok 1 := by
    rw [interpret_cipher rfl (by decide), sentContexts, uint16At_append (k := 56) hblock,
      (uint16At_encryption S cypher).2.2]
  have hagain : replyContexts.interpret (sentContexts S block) (128 : Nat) ⟨2, 8⟩ 1 = .ok 1 := by
    rw [interpret_cipher rfl (by decide), uint16At, if_neg (by omega)]
  have hpreauth : ∀ count, parseContexts replyContexts (sentContexts S block) (count + 1) (64 : Nat)
      stale cypher = parseContexts replyContexts (sentContexts S block) count (112 : Nat) ⟨1, 38⟩
        cypher := fun count =>
    parseContexts_next (by omega) (by omega) (headerAt_preauth S hblock stale) rfl rfl rfl (by decide)
  have hencryption : ∀ count, parseContexts replyContexts (sentContexts S block) (count + 1)
      (112 : Nat) ⟨1, 38⟩ cypher = parseContexts replyContexts (sentContexts S block) count
        (128 : Nat) ⟨2, 8⟩ 1 := fun count =>
    parseContexts_next (by omega) (by omega) (headerAt_encryption S hblock _) rfl hcypher rfl
      (by decide)
  have hbehind : ∀ count, parseContexts replyContexts (sentContexts S block) (count + 1) (128 : Nat)
      ⟨2, 8⟩ 1 = parseContexts replyContexts (sentContexts S block) count (144 : Nat) ⟨2, 8⟩ 1 :=
    fun count => parseContexts_next (by omega) (by omega) (headerAt_behind S hblock _) rfl hagain rfl
      (by decide)
  unfold parseNegotiateContexts
  match count with
  | 0 => rfl
  | 1 =>
    rw [hpreauth 0]
    rfl
  | 2 =>
    rw [hpreauth 1, hencryption 0]
    rfl
  | 3 =>
    rw [hpreauth 2, hencryption 1, hbehind 0]
    rfl
  | count + 4 =>
    rw [hpreauth (count + 3), hencryption (count + 2), hbehind (count + 1),
      parseContexts_behind (by omega), if_neg (by omega), if_neg (by omega)]

end

/-! ## What comes back -/

/-- The dialects that a server takes. -/
def negotiableDialects : List Nat :=
  [VERSION_0202, VERSION_0210, VERSION_WILDCARD, VERSION_0300, VERSION_0302, VERSION_0311]

/-- The reply is the one that was sent, and has the cipher of its contexts. -/
structure NegotiateReplyArgs.Returned (rep : NegotiateReplyArgs)
    (r : NegotiateFields × Option NegotiateVariable) : Prop where
  securityMode : r.1.securityMode = rep.securityMode.toNat
  dialectRevision : r.1.dialectRevision = rep.dialectRevision.toNat
  serverGuid : r.1.serverGuid = rep.serverGuid.1
  capabilities : r.1.capabilities = rep.capabilities.toNat
  maxTransactSize : r.1.maxTransactSize = rep.maxTransactSize.toNat
  maxReadSize : r.1.maxReadSize = rep.maxReadSize.toNat
  maxWriteSize : r.1.maxWriteSize = rep.maxWriteSize.toNat
  systemTime : r.1.systemTime = rep.systemTime.toNat
  serverStartTime : r.1.serverStartTime = rep.serverStartTime.toNat
  securityBuffer : (r.2.map NegotiateVariable.securityBuffer).getD [] = rep.securityBuffer.1
  cypher : rep.dialectRevision.toNat = VERSION_0311 →
    r.2.map NegotiateVariable.cypher = some (.ofNat ENCRYPTION_AES_128_CCM)

/-- A reply in a dialect that was negotiated is sent, and decoded as it was, whatever the memory of
server and client held. -/
def NegotiateReplyReturns (S : Settings) (rep : NegotiateReplyArgs) : Prop :=
  rep.dialectRevision.toNat ∈ negotiableDialects → ∀ stack stale cypher, ∃ body r,
    cmdNegotiateReply S rep.dialectRevision.toNat stack rep = .ok (some body) ∧
      decodeNegotiateReply stale cypher body = .ok (some r) ∧ rep.Returned r

section
variable {seclen : Nat} {count : UInt16}

theorem decodeNegotiateReply_empty (hempty : rep.securityBuffer.1.length = 0) (rest : Bytes) :
    decodeNegotiateReply stale cypher (rep.fixed 64 seclen count.toNat ++ rest) =
      .ok (some (rep.received seclen count, none)) :=
  decodeBody_of_zero (rep.length_fixed seclen count.toNat)
    (processNegotiateFixed_empty hempty _ seclen count)

theorem length_block (hfits : rep.securityBuffer.1.length ≤ 64) :
    (padBuffer rep.securityBuffer.1 64).length = 64 := by
  rw [padBuffer, List.length_append, length_zeros]
  omega

/-- A client reads the security buffer that is there. -/
theorem replySecurityBuffer_eq (rest : Bytes) :
    replySecurityBuffer (rep.received seclen count) (rep.securityBuffer.1 ++ rest) =
      .ok rep.securityBuffer.1 := by
  have hwithin : 0 + rep.securityBuffer.1.length ≤ (rep.securityBuffer.1 ++ rest).length := by
    rw [List.length_append]
    omega
  have hoffset : (rep.received seclen count).securityBufferOffset = HEADER_SIZE + 64 := rfl
  have hlength : (rep.received seclen count).securityBufferLength = rep.securityBuffer.1.length := rfl
  unfold replySecurityBuffer
  rw [hoffset, hlength, Nat.sub_self, Window.read_of_le hwithin]
  simp only [Window.whole_octets]
  rw [slice_append_left (by omega), slice_zero (Nat.le_refl _)]

theorem decodeNegotiateReply_before (hne : rep.securityBuffer.1.length ≠ 0)
    (hfits : rep.securityBuffer.1.length ≤ 64)
    (hdialect : rep.dialectRevision.toNat < VERSION_0311) :
    decodeNegotiateReply stale cypher
        (rep.fixed 64 seclen count.toNat ++ padBuffer rep.securityBuffer.1 64) =
      .ok (some (rep.received seclen count, some ⟨rep.securityBuffer.1, cypher⟩)) := by
  have hblock := length_block hfits
  have hspl : HEADER_SIZE + (rep.fixed 64 seclen count.toNat ++
      padBuffer rep.securityBuffer.1 64).length = 192 := by
    rw [List.length_append, rep.length_fixed, hblock]
    rfl
  have htake : (padBuffer rep.securityBuffer.1 64).take rep.securityBuffer.1.length =
      rep.securityBuffer.1 ++ [] := by
    rw [padBuffer, List.take_left, List.append_nil]
  have hcypher : replyCypher stale cypher (rep.received seclen count)
      (rep.securityBuffer.1 ++ []) = .ok (some cypher) := if_pos (.inl hdialect)
  unfold decodeNegotiateReply
  rw [hspl, decodeBody_of_pos (rep.length_fixed seclen count.toNat)
    (processNegotiateFixed_before hne (by omega) hdialect) (by omega) (by omega), htake]
  unfold processNegotiateVariable
  rw [hcypher, replySecurityBuffer_eq]
  rfl

theorem replyCypher_sent {block : Bytes} (hblock : block.length = 64)
    (hdialect : rep.dialectRevision.toNat = VERSION_0311) :
    replyCypher stale cypher (rep.received 64 count) (sentContexts S block) =
      .ok (if count.toNat < 2 then some cypher else if count.toNat < 4 then some 1 else none) := by
  have hlength := length_sentContexts S hblock
  have hoffset : contextOffset (HEADER_SIZE + 64) (sentContexts S block)
      (rep.received 64 count).negotiateContextOffset = some 64 := by
    have hsent : (rep.received 64 count).negotiateContextOffset = 192 := rfl
    unfold contextOffset
    rw [hlength, hsent]
    decide
  have hrevision : (rep.received 64 count).dialectRevision = VERSION_0311 := hdialect
  have hcount : (rep.received 64 count).negotiateContextCount = count.toNat := rfl
  unfold replyCypher
  rw [hrevision, hcount, hoffset]
  split
  · rename_i hzero
    have hzero : count.toNat = 0 := hzero.resolve_left (Nat.lt_irrefl _)
    rw [if_pos (by omega)]
  · exact parseNegotiateContexts_sent S hblock count.toNat stale cypher

theorem decodeNegotiateReply_from (hne : rep.securityBuffer.1.length ≠ 0)
    (hfits : rep.securityBuffer.1.length ≤ 64)
    (hdialect : rep.dialectRevision.toNat = VERSION_0311) :
    decodeNegotiateReply stale cypher (rep.fixed 64 64 count.toNat ++
        sentContexts S (padBuffer rep.securityBuffer.1 64)) =
      .ok ((if count.toNat < 2 then some cypher else if count.toNat < 4 then some 1 else none).map
        fun cypher => (rep.received 64 count, some ⟨rep.securityBuffer.1, cypher⟩)) := by
  have hlength := length_sentContexts S (length_block hfits)
  have hspl : HEADER_SIZE + (rep.fixed 64 64 count.toNat ++
      sentContexts S (padBuffer rep.securityBuffer.1 64)).length = 128 + 128 := by
    rw [List.length_append, rep.length_fixed, hlength]
    rfl
  have hbuffer : replySecurityBuffer (rep.received 64 count)
      (sentContexts S (padBuffer rep.securityBuffer.1 64)) = .ok rep.securityBuffer.1 := by
    rw [sentContexts, padBuffer, List.append_assoc, replySecurityBuffer_eq]
  unfold decodeNegotiateReply
  rw [hspl, decodeBody_of_pos (rep.length_fixed 64 count.toNat)
    (processNegotiateFixed_from hne (by omega) (by omega) (Nat.le_of_eq hdialect.symm)) (by omega)
    (by omega), List.take_of_length_le (by omega)]
  unfold processNegotiateVariable
  rw [replyCypher_sent (length_block hfits) hdialect]
  generalize (if count.toNat < 2 then some cypher else if count.toNat < 4 then some 1 else none) =
    found
  cases found with
  | none => rfl
  | some found =>
    simp only [bind, Except.bind]
    rw [hbuffer]
    rfl

end

theorem hasContexts_iff (h : dialect ∈ negotiableDialects) :
    hasContexts dialect = true ↔ dialect = VERSION_0311 := by
  revert dialect
  decide

theorem negotiableDialects_le (h : dialect ∈ negotiableDialects) : dialect ≤ VERSION_0311 := by
  revert dialect
  decide

/-- There are two contexts, or one more is counted that is not there. -/
theorem contextCount_iff (rep : NegotiateReplyArgs) (h : hasContexts dialect = true) :
    (2 ≤ (rep.contextCount dialect).toNat ∧ (rep.contextCount dialect).toNat < 4) ↔
      rep.negotiateContextCount.toNat ≤ 1 := by
  have hlt := rep.negotiateContextCount.toNat_lt
  have htwo : UInt16.toNat 2 = 2 := rfl
  rw [NegotiateReplyArgs.contextCount, if_pos h, UInt16.toNat_add, htwo]
  omega

theorem sentVectors_before {seclen : Nat} (hne : rep.securityBuffer.1.length ≠ 0)
    (hcontexts : ¬ hasContexts dialect = true) :
    (sentVectors S dialect rep seclen).flatten = padBuffer rep.securityBuffer.1 seclen := by
  rw [sentVectors, if_neg hne, if_neg hcontexts]
  simp

theorem sentVectors_from {seclen : Nat} (hne : rep.securityBuffer.1.length ≠ 0)
    (hcontexts : hasContexts dialect = true) : (sentVectors S dialect rep seclen).flatten =
      sentContexts S (padBuffer rep.securityBuffer.1 seclen) := by
  rw [sentVectors, if_neg hne, if_pos hcontexts]
  simp [sentContexts]

/-- What is read is what was sent, if the security buffer and the cipher are. -/
theorem returned_received {seclen : Nat} {count : UInt16} {found : Option NegotiateVariable}
    (hbuffer : (found.map NegotiateVariable.securityBuffer).getD [] = rep.securityBuffer.1)
    (hcypher : rep.dialectRevision.toNat = VERSION_0311 →
      found.map NegotiateVariable.cypher = some (.ofNat ENCRYPTION_AES_128_CCM)) :
    rep.Returned (rep.received seclen count, found) :=
  ⟨rfl, rfl, rfl, rfl, rfl, rfl, rfl, rfl, rfl, hbuffer, hcypher⟩

/-- A reply in an earlier dialect comes back. -/
theorem returns_before (hdialect : rep.dialectRevision.toNat < VERSION_0311)
    (hcontexts : ¬ hasContexts rep.dialectRevision.toNat = true)
    (hfits : rep.securityBuffer.1.length ≤ 64) : NegotiateReplyReturns S rep := by
  intro _ stack stale cypher
  have hearlier : rep.dialectRevision.toNat ≠ VERSION_0311 := Nat.ne_of_lt hdialect
  by_cases hempty : rep.securityBuffer.1.length = 0
  · refine ⟨_, _, cmdNegotiateReply_eq hfits, decodeNegotiateReply_empty hempty _,
      returned_received ?_ fun h => absurd h hearlier⟩
    exact (List.length_eq_zero_iff.mp hempty).symm
  · refine ⟨_, (rep.received 64 (rep.contextCount rep.dialectRevision.toNat),
      some ⟨rep.securityBuffer.1, cypher⟩), cmdNegotiateReply_eq hfits, ?_,
      returned_received rfl fun h => absurd h hearlier⟩
    rw [sentVectors_before hempty hcontexts, seclen_eq hempty]
    exact decodeNegotiateReply_before hempty hfits hdialect

/-- **A NEGOTIATE reply comes back exactly if its security buffer is not longer than the fixed part
and, for dialect 3.1.1, is not empty and at most one context too many is counted.** -/
theorem negotiate_reply_returns_iff (S : Settings) (rep : NegotiateReplyArgs) :
    NegotiateReplyReturns S rep ↔ (rep.dialectRevision.toNat ∈ negotiableDialects →
      rep.securityBuffer.1.length ≤ 64 ∧ (rep.dialectRevision.toNat = VERSION_0311 →
        rep.securityBuffer.1.length ≠ 0 ∧ rep.negotiateContextCount.toNat ≤ 1)) := by
  constructor
  · intro h hmem
    have hfits : rep.securityBuffer.1.length ≤ 64 := by
      by_contra hlong
      obtain ⟨body, r, hcmd, -, -⟩ := h hmem 0 ⟨0, 0⟩ 0
      rw [cmdNegotiateReply_overruns (by omega)] at hcmd
      cases hcmd
    refine ⟨hfits, fun hdialect => ?_⟩
    have hcontexts := (hasContexts_iff hmem).mpr hdialect
    obtain ⟨body, r, hcmd, hdecode, hr⟩ := h hmem 0 ⟨0, 0⟩ 0
    have hcypher := hr.cypher hdialect
    rw [cmdNegotiateReply_eq hfits, Except.ok.injEq, Option.some.injEq] at hcmd
    subst hcmd
    by_cases hempty : rep.securityBuffer.1.length = 0
    · rw [decodeNegotiateReply_empty hempty, Except.ok.injEq, Option.some.injEq] at hdecode
      subst hdecode
      cases hcypher
    · refine ⟨hempty, (contextCount_iff rep hcontexts).mp ?_⟩
      rw [sentVectors_from hempty hcontexts, seclen_eq hempty,
        decodeNegotiateReply_from hempty hfits hdialect, Except.ok.injEq] at hdecode
      split at hdecode
      · cases hdecode
        cases hcypher
      · split at hdecode
        · omega
        · cases hdecode
  · intro h hmem stack stale cypher
    obtain ⟨hfits, hlast⟩ := h hmem
    by_cases hdialect : rep.dialectRevision.toNat = VERSION_0311
    · have hcontexts := (hasContexts_iff hmem).mpr hdialect
      obtain ⟨hne, hcount⟩ := hlast hdialect
      have hcount := (contextCount_iff rep hcontexts).mpr hcount
      refine ⟨_, (rep.received 64 (rep.contextCount rep.dialectRevision.toNat),
        some ⟨rep.securityBuffer.1, 1⟩), cmdNegotiateReply_eq hfits, ?_,
        returned_received rfl fun _ => rfl⟩
      rw [sentVectors_from hne hcontexts, seclen_eq hne, decodeNegotiateReply_from hne hfits hdialect,
        if_neg (by omega), if_pos hcount.2]
      rfl
    · have hlt := Nat.lt_of_le_of_ne (negotiableDialects_le hmem) hdialect
      exact returns_before hlt (fun h => hdialect ((hasContexts_iff hmem).mp h)) hfits hmem stack
        stale cypher

theorem length_noBuffer : ([] : Bytes).length < 2 ^ 16 := by decide

/-- A reply for dialect 3.1.1 without a security buffer. -/
def bufferlessReply : NegotiateReplyArgs where
  dialectRevision := 0x0311
  serverGuid := noId
  securityBuffer := ⟨[], length_noBuffer⟩

/-- A reply for dialect 2.1 with one octet more than the fixed part has. -/
def longReply : NegotiateReplyArgs where
  dialectRevision := 0x0210
  serverGuid := noId
  securityBuffer := ⟨zeros 65, by decide⟩

/-- The contexts behind an empty security buffer are not read; and a longer one is written behind
its block. -/
theorem empty_and_long_buffers_do_not_return :
    ¬ NegotiateReplyReturns {} bufferlessReply ∧ ¬ NegotiateReplyReturns {} longReply := by
  constructor
  · intro h
    obtain ⟨body, r, hcmd, hdecode, hr⟩ := h (by decide) 0 ⟨0, 0⟩ 0
    rw [cmdNegotiateReply_eq (by decide), Except.ok.injEq, Option.some.injEq] at hcmd
    subst hcmd
    rw [decodeNegotiateReply_empty rfl, Except.ok.injEq, Option.some.injEq] at hdecode
    subst hdecode
    cases hr.cypher rfl
  · intro h
    obtain ⟨body, r, hcmd, -, -⟩ := h (by decide) 0 ⟨0, 0⟩ 0
    rw [cmdNegotiateReply_overruns (by decide)] at hcmd
    cases hcmd

end

end Libsmb2
