import Libsmb2.Context

/-!
# Signing and sealing of outgoing requests

`smb2_calc_signature`, `smb2_pdu_add_signature` and `smb3_encrypt_pdu`.  The primitives
themselves (AES-CMAC, HMAC-SHA-256, AES-128-CCM, SHA-512) are the parameter `Crypto`: any
functions with the output lengths of the originals.
-/

set_option autoImplicit false

namespace Libsmb2

open Util

/-- The cryptographic primitives of `smb2-signing.c`, `aes128ccm.c` and `sha384-512.c`. -/
structure Crypto where
  /-- `smb3_aes_cmac_128`, key and message. -/
  cmac : Bytes → Bytes → Bytes
  hmacSha256 : Bytes → Bytes → Bytes
  sha512 : Bytes → Bytes
  /-- `aes128ccm_encrypt`: key, nonce, associated data, plain text; cipher text and tag. -/
  ccmEncrypt : Bytes → Bytes → Bytes → Bytes → Bytes × Bytes
  /-- `aes128ccm_decrypt`: key, nonce, associated data, cipher text, tag. -/
  ccmDecrypt : Bytes → Bytes → Bytes → Bytes → Bytes → Option Bytes
  cmac_length : ∀ k m, (cmac k m).length = 16
  hmacSha256_length : ∀ k m, (hmacSha256 k m).length = 32
  sha512_length : ∀ m, (sha512 m).length = 64
  ccmEncrypt_length : ∀ k n a p, (ccmEncrypt k n a p).1.length = p.length
  ccmTag_length : ∀ k n a p, (ccmEncrypt k n a p).2.length = 16
  ccmDecrypt_length : ∀ k n a c t p, ccmDecrypt k n a c t = some p → p.length = c.length

/-- `memset` of the signature field of the first vector. -/
def clearSignature : List Bytes → List Bytes
  | [] => []
  | v :: vs => patch v 48 (zeros SIGNATURE_SIZE) :: vs

/-- The signature of a message under a dialect and a key. -/
def signature (K : Crypto) (dialect : Nat) (key : Bytes) (vecs : List Bytes) : Bytes :=
  let msg := (clearSignature vecs).flatten
  if dialect > VERSION_0210 then (K.cmac key msg).take SIGNATURE_SIZE
  else (K.hmacSha256 key msg).take SIGNATURE_SIZE

theorem length_signature (K : Crypto) (dialect : Nat) (key : Bytes) (vecs : List Bytes) :
    (signature K dialect key vecs).length = SIGNATURE_SIZE := by
  unfold signature
  split
  · simp [K.cmac_length, SIGNATURE_SIZE]
  · simp [K.hmacSha256_length, SIGNATURE_SIZE]

/-- `smb2_calc_signature`, when the copy of the message it makes for AES-CMAC could be
allocated. -/
def calcSignature (K : Crypto) (ctx : Context) (vecs : List Bytes) : Bytes :=
  signature K ctx.dialect ctx.signingKey vecs

/-- Overwrite part of the first vector. -/
def patchHead (vecs : List Bytes) (off : Nat) (new : Bytes) : List Bytes :=
  match vecs with
  | [] => []
  | v :: vs => patch v off new :: vs

/-- The request with `FLAGS_SIGNED` set, in the header and in its encoding. -/
def Pdu.markSigned (p : Pdu) : Pdu :=
  let header := p.header.setFlag FLAGS_SIGNED
  { p with header := header, out := patchHead p.out 16 (le 4 header.flags) }

/-- The request with this signature, in the header and in its encoding. -/
def Pdu.putSignature (p : Pdu) (signature : Bytes) : Pdu :=
  { p with
    header := { p.header with signature := signature }
    out := patchHead (clearSignature p.out) 48 signature }

/-- Only the server's successful reply to a session setup is signed. -/
def unsignedSetup (p : Pdu) : Bool :=
  p.header.command = .sessionSetup &&
    (p.header.status != 0 || !p.header.hasFlag FLAGS_SERVER_TO_REDIR)

/-- `smb2_pdu_add_signature`; the flag is its return value. -/
def pduAddSignature (K : Crypto) (ctx : Context) (p : Pdu) : Context × Pdu × Bool :=
  if unsignedSetup p then (ctx, p, true)
  else if p.out.length < 2 then (ctx, p, false)
  else if (p.out.headD []).length ≠ HEADER_SIZE then (ctx, p, false)
  else if ctx.sessionId = 0 then (ctx, p, true)
  else if ctx.sessionKey = [] then (ctx, p, false)
  else if ctx.dialect > VERSION_0210 then
    -- only the AES-CMAC branch copies the message
    if ctx.allocOk then
      (ctx.popMem.emit (.used .signing ctx.signingKey),
        p.markSigned.putSignature (calcSignature K ctx p.markSigned.out), true)
    else (ctx.popMem.emit (.unprotected .signing p.id),
      { p.markSigned with out := clearSignature p.markSigned.out }, false)
  else
    (ctx.emit (.used .signing ctx.signingKey),
      p.markSigned.putSignature (calcSignature K ctx p.markSigned.out), true)

/-- The ways signing ends: only the AES-CMAC branch asks for memory, and if there is none the
request goes out marked and with an empty signature. -/
@[elab_as_elim]
theorem pduAddSignature_cases (K : Crypto) (ctx : Context) (p : Pdu)
    {motive : Context × Pdu × Bool → Prop} (same : ∀ ok, motive (ctx, p, ok))
    (signed : motive (ctx.emit (.used .signing ctx.signingKey),
      p.markSigned.putSignature (calcSignature K ctx p.markSigned.out), true))
    (copied : motive (ctx.popMem.emit (.used .signing ctx.signingKey),
      p.markSigned.putSignature (calcSignature K ctx p.markSigned.out), true))
    (cleared : motive (ctx.popMem.emit (.unprotected .signing p.id),
      { p.markSigned with out := clearSignature p.markSigned.out }, false)) :
    motive (pduAddSignature K ctx p) := by
  unfold pduAddSignature
  split
  · exact same true
  · split
    · exact same false
    · split
      · exact same false
      · split
        · exact same true
        · split
          · exact same false
          · split
            · split
              · exact copied
              · exact cleared
            · exact signed

/-- What signing and sealing log. -/
def Event.protects : Event → Bool
  | .used _ _ => true
  | .unprotected _ _ => true
  | _ => false

/-- All that signing changes. -/
theorem pduAddSignature_eq (K : Crypto) (ctx : Context) (p : Pdu) : ∃ env es flags sig out,
    (∀ e ∈ es, e.protects = true) ∧
      (pduAddSignature K ctx p).1 = { ctx with env := env, log := ctx.log ++ es } ∧
      (pduAddSignature K ctx p).2.1 =
        { p with header := { p.header with flags := flags, signature := sig }, out := out } := by
  have hsame : ctx = { ctx with env := ctx.env, log := ctx.log ++ [] } := by
    rw [List.append_nil]
  refine pduAddSignature_cases K ctx p ?_ ?_ ?_ ?_
  · intro _
    exact ⟨_, [], _, _, _, by simp, hsame, rfl⟩
  · exact ⟨_, [_], _, _, _, by simp [Event.protects], rfl, rfl⟩
  · exact ⟨_, [_], _, _, _, by simp [Event.protects], rfl, rfl⟩
  · exact ⟨_, [_], _, _, _, by simp [Event.protects], rfl, rfl⟩

/-- The part of the transform header that is authenticated: nonce, message size, cipher
and session id. -/
def transformAad (nonce : Bytes) (size sessionId : Nat) : Bytes :=
  nonce ++ (zeros 5 ++ (le 4 size ++ (zeros 2 ++ (le 2 1 ++ le 8 sessionId))))

/-- The transform header and the cipher text of `plain` under a `serverin_key`. -/
def sealOctets (K : Crypto) (key : Bytes) (sessionId : Nat) (nonce plain : Bytes) : Bytes :=
  let aad := transformAad nonce plain.length sessionId
  let (ct, tag) := K.ccmEncrypt key nonce aad plain
  Header.smb3tfrm ++ tag ++ aad ++ ct

/-- The eleven octets the next nonce is made of. -/
def nextNonce (ctx : Context) : Bytes := (ctx.env.rand ++ zeros 11).take 11

def popRand (ctx : Context) : Context :=
  { ctx with env := { ctx.env with rand := ctx.env.rand.drop 11 } }

/-- `smb3_encrypt_pdu`. -/
def encryptPdu (K : Crypto) (ctx : Context) (c : Chain) : Context × Chain :=
  if !ctx.sealing then (ctx, c)
  else if !c.head.sealed then (ctx, c)
  else if 4294967296 ≤ TRANSFORM_HEADER_SIZE + c.octets.length then
    -- `spl` wraps and the copy runs past the buffer
    (ctx.raise .heapOverflow, c)
  else if ctx.allocOk then
    (popRand (ctx.popMem.emit (.used .serverin ctx.serverinKey)),
      { c with head := { c.head with
        crypt := sealOctets K ctx.serverinKey ctx.sessionId (nextNonce ctx) c.octets } })
  else (ctx.popMem.emit (.unprotected .serverin c.head.id),
    { c with head := { c.head with sealed := false } })

/-- The ways sealing ends. -/
@[elab_as_elim]
theorem encryptPdu_cases (K : Crypto) (ctx : Context) (c : Chain)
    {motive : Context × Chain → Prop} (plain : motive (ctx, c))
    (overflow : motive (ctx.raise .heapOverflow, c))
    (encrypted : motive (popRand (ctx.popMem.emit (.used .serverin ctx.serverinKey)),
      { c with head := { c.head with
        crypt := sealOctets K ctx.serverinKey ctx.sessionId (nextNonce ctx) c.octets } }))
    (failed : motive (ctx.popMem.emit (.unprotected .serverin c.head.id),
      { c with head := { c.head with sealed := false } })) :
    motive (encryptPdu K ctx c) := by
  unfold encryptPdu
  split
  · exact plain
  · split
    · exact plain
    · split
      · exact overflow
      · split
        · exact encrypted
        · exact failed

/-- All that sealing changes, if it does not overflow its buffer. -/
theorem encryptPdu_eq (K : Crypto) (ctx : Context) (c : Chain)
    (hf : (encryptPdu K ctx c).1.fault = none) : ∃ env es sealed crypt,
    (∀ e ∈ es, e.protects = true) ∧
      (encryptPdu K ctx c).1 = { ctx with env := env, log := ctx.log ++ es } ∧
      (encryptPdu K ctx c).2 =
        { c with head := { c.head with sealed := sealed, crypt := crypt } } := by
  have hsame : ctx = { ctx with env := ctx.env, log := ctx.log ++ [] } := by
    rw [List.append_nil]
  revert hf
  refine encryptPdu_cases K ctx c ?_ ?_ ?_ ?_
  · intro _
    exact ⟨_, [], _, _, by simp, hsame, rfl⟩
  · intro hf
    cases hf
  · intro _
    exact ⟨_, [_], _, _, by simp [Event.protects], rfl, rfl⟩
  · intro _
    exact ⟨_, [_], _, _, by simp [Event.protects], rfl, rfl⟩

end Libsmb2
