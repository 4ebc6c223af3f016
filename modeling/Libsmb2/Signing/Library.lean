import Libsmb2.Handshake
import Libsmb2.Digest.Hmac
import Libsmb2.Signing.Aes128Ccm
import Libsmb2.Signing.Cmac

/-!
# The primitives that are linked in

`Crypto` is a parameter of the state machines.  `libraryCrypto` is what `smb2-signing.c`, `hmac.c`,
`usha.c` and `aes128ccm.c` make of it over a block function: CMAC, HMAC-SHA-256, SHA-512 and CCM.

* `libraryCrypto_opens` — what is sealed is opened;
* `hmacPieces_eq`, `ushaInputs_holds` — a hash that is fed piece by piece;
* `library_computes` — **the functions that feed their pieces to a hash compute what the state
  machines say.**
-/

set_option autoImplicit false

namespace Libsmb2

open Util Digest Signing

/-- A cipher text is opened under the key, the nonce and the data that it was made with. -/
def Crypto.Opens (K : Crypto) : Prop :=
  ∀ key nonce aad plain, K.ccmDecrypt key nonce aad (K.ccmEncrypt key nonce aad plain).1
    (K.ccmEncrypt key nonce aad plain).2 = some plain

/-- A tag of 16 octets, and a length field of four. -/
def sealParams : CcmParams := ⟨16, 4⟩

/-- The primitives over a block function. -/
def libraryCrypto (C : BlockCipher) : Crypto where
  cmac key msg := Util.cmac (C.encrypt key) msg
  hmacSha256 := ShaVersion.SHA256.hmac
  sha512 := ShaVersion.SHA512.hash
  ccmEncrypt key nonce aad plain := Util.ccmEncrypt (C.encrypt key) sealParams nonce aad plain
  ccmDecrypt key nonce aad text tag :=
    let x := Util.ccmDecrypt (C.encrypt key) sealParams nonce aad text tag
    if x.2 then some x.1 else none
  cmac_length key _ := C.length_encrypt key _
  hmacSha256_length _ _ := ShaVersion.SHA256.length_hash _
  sha512_length := ShaVersion.SHA512.length_hash
  ccmEncrypt_length key nonce _ plain :=
    length_ctr (S := ccmStream (C.encrypt key) sealParams nonce)
      (fun _ => C.length_encrypt key _) 1 plain
  ccmTag_length key nonce aad plain := by
    have hstream : (ccmStream (C.encrypt key) sealParams nonce 0).length = 16 :=
      C.length_encrypt key _
    have hmac : (ccmMac (C.encrypt key) sealParams nonce aad plain).length = 16 := by
      rw [ccmMac, List.length_take, length_cbc (C.length_encrypt key) (length_zeros 16)]
      rfl
    show (Util.xor _ _).length = 16
    rw [length_xor, hmac, hstream]
    rfl
  ccmDecrypt_length key nonce aad text tag plain h := by
    dsimp only at h
    split at h
    · cases h
      exact length_ctr (S := ccmStream (C.encrypt key) sealParams nonce)
        (fun _ => C.length_encrypt key _) 1 text
    · cases h

/-- **What is sealed is opened.** -/
theorem libraryCrypto_opens (C : BlockCipher) : (libraryCrypto C).Opens := by
  intro key nonce aad plain
  have hback := ccmDecrypt_ccmEncrypt (C.length_encrypt key) sealParams nonce aad plain
  dsimp only [libraryCrypto]
  rw [hback]
  rfl

/-! ## Hashes that are fed piece by piece -/

/-- HMAC-SHA-256 over pieces, with its context in this memory. -/
def hmacPieces (memory : HmacContext) (key : Bytes) (pieces : List Bytes) : Option Bytes :=
  (hmacResult (hmacInputs.state (hmacReset memory .SHA256 key).1 pieces)).2.2

/-- `smb2_calc_signature`, when the copy of the message could be allocated.  `smb3_aes_cmac_128`
gets it in one piece. -/
def smb2CalcSignature (C : BlockCipher) (memory : HmacContext) (ctx : Context) (iov : List Bytes) :
    Option Bytes :=
  if ctx.dialect > VERSION_0210 then
    some ((Util.cmac (C.encrypt ctx.signingKey) (clearSignature iov).flatten).take SIGNATURE_SIZE)
  else (hmacPieces memory ctx.signingKey (clearSignature iov)).map (·.take SIGNATURE_SIZE)

/-- `smb2_derive_key`. -/
def smb2DeriveKey (memory : HmacContext) (derivationKey label context : Bytes) : Option Bytes :=
  let inputKey := (derivationKey ++ zeros KEY_SIZE).take KEY_SIZE
  let pieces := [be32 1, label, [0], context, be32 (KEY_SIZE * 8)]
  (hmacPieces memory inputKey pieces).map (·.take KEY_SIZE)

/-- `smb3_update_preauth_hash`: the hash that it leaves. -/
def smb3UpdatePreauthHash (memory : UshaContext) (preauthhash : Bytes) (iov : List Bytes) :
    Option Bytes :=
  let tctx := (ushaReset memory .SHA512).1
  let tctx := (ushaInput tctx preauthhash).1
  (ushaResult (iov.foldl (fun c v => (ushaInput c v).1) tctx)).2.2

section
variable {memory : HmacContext} {ctx : UshaContext} {which : ShaVersion} {text : Bytes}

theorem hmacPieces_eq (h : memory.shaContext.WellFormed) {key : Bytes} {pieces : List Bytes}
    (hkey : 8 * key.length < 2 ^ 64) (hfit : 8 * (64 + pieces.flatten.length) < 2 ^ 64) :
    hmacPieces memory key pieces = some (ShaVersion.SHA256.hmac key pieces.flatten) := by
  have hopens : (hmacReset memory .SHA256 key).1.Takes .SHA256 key [] :=
    (hmacReset_opens h hkey).1
  have hstands := hmacInputs_stands hopens pieces
  rw [List.nil_append, if_pos (by simpa [ShaVersion.blockSize, ShaVersion.limit] using hfit)]
    at hstands
  unfold hmacPieces
  rw [hmacResult_eq hstands]

theorem ushaInputs_holds (h : ctx.Holds which text) (pieces : List Bytes)
    (hfit : 8 * (text.length + pieces.flatten.length) < which.limit) :
    (pieces.foldl (fun c v => (ushaInput c v).1) ctx).Holds which (text ++ pieces.flatten) := by
  induction pieces generalizing ctx text with
  | nil => simpa using h
  | cons v pieces ih =>
    rw [List.flatten_cons, List.length_append] at hfit
    have hfirst := (ushaInput_fits h v (by omega)).1
    have hrest := ih hfirst (by rw [List.length_append]; omega)
    rwa [List.append_assoc, ← List.flatten_cons] at hrest

end

/-- **The functions of the library compute what the state machines say**: a signature, a derived
key and a transcript hash, whatever the memory of their contexts holds, as long as the hash can
count the bits.  A CMAC counts none. -/
theorem library_computes (C : BlockCipher) {memory : HmacContext}
    (h : memory.shaContext.WellFormed) :
    (∀ (ctx : Context) (iov : List Bytes),
      (ctx.dialect ≤ VERSION_0210 → 8 * ctx.signingKey.length < 2 ^ 64 ∧
        8 * (64 + (clearSignature iov).flatten.length) < 2 ^ 64) →
      smb2CalcSignature C memory ctx iov =
        some (calcSignature (libraryCrypto C) ctx iov)) ∧
    (∀ key label context : Bytes, 8 * (64 + (label.length + context.length + 9)) < 2 ^ 64 →
      smb2DeriveKey memory key label context =
        some (deriveKey (libraryCrypto C) key label context)) ∧
    (∀ (ctx : Context) (iov : List Bytes),
      8 * (ctx.preauthhash.length + iov.flatten.length) < 2 ^ 128 →
      smb3UpdatePreauthHash memory.shaContext ctx.preauthhash iov =
        some (updatePreauthHash (libraryCrypto C) ctx iov).preauthhash) := by
  refine ⟨?_, ?_, ?_⟩
  · intro ctx iov hcounts
    unfold smb2CalcSignature calcSignature signature
    split
    · rfl
    · rename_i hold
      obtain ⟨hkey, hfit⟩ := hcounts (Nat.le_of_not_lt hold)
      rw [hmacPieces_eq h hkey hfit]
      rfl
  · intro key label context hlen
    have hpieces : [be32 1, label, [0], context, be32 (KEY_SIZE * 8)].flatten =
        be32 1 ++ label ++ [0] ++ context ++ be32 (KEY_SIZE * 8) := by simp
    unfold smb2DeriveKey deriveKey
    dsimp only
    rw [hmacPieces_eq h (by simp [KEY_SIZE]) (by rw [hpieces]; simp; omega), hpieces]
    rfl
  · intro ctx iov hlen
    have hreset := (ushaReset_holds h .SHA512).1
    have hhash := (ushaInput_fits hreset ctx.preauthhash
      (by rw [List.length_nil, Nat.zero_add]; exact Nat.lt_of_le_of_lt (by omega) hlen)).1
    have hall := ushaInputs_holds hhash iov hlen
    rw [List.nil_append] at hall
    exact (ushaResult_holds hall).2.2

/-- A block function that masks the block with the key. -/
def maskCipher : BlockCipher where
  encrypt key block := Util.xor ((key ++ zeros 16).take 16) ((block ++ zeros 16).take 16)
  length_encrypt key block := by simp [length_xor]

/-- A client that signs by HMAC, with a key of three octets. -/
def hmacSigner : Context := { dialect := VERSION_0210, signingKey := [1, 2, 3] }

/-- A message of two vectors that is signed, and a key that is derived, in memory that has been
used. -/
theorem used_memory_derives :
    smb2CalcSignature maskCipher usedHmacContext hmacSigner [zeros 64, [0xab, 0xcd]] =
      some (calcSignature (libraryCrypto maskCipher) hmacSigner [zeros 64, [0xab, 0xcd]]) ∧
    smb2DeriveKey usedHmacContext [1, 2, 3] [0x61, 0] [0x62, 0] =
      some (deriveKey (libraryCrypto maskCipher) [1, 2, 3] [0x61, 0] [0x62, 0]) :=
  ⟨(library_computes maskCipher ⟨rfl, rfl⟩).1 hmacSigner [zeros 64, [0xab, 0xcd]]
      fun _ => ⟨by decide, by decide⟩,
    (library_computes maskCipher ⟨rfl, rfl⟩).2.1 [1, 2, 3] [0x61, 0] [0x62, 0] (by decide)⟩

end Libsmb2
