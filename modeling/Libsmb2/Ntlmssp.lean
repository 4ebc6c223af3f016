import Libsmb2.Basic
import Libsmb2.Unicode

/-!
# NTLMSSP

The challenge and the answer of `ntlmssp.c`: `encode_ntlm_challenge` and
`ntlmssp_authenticate_blob` on the server, `ntlm_decode_challenge_message` and
`encode_ntlm_auth` on the client.  MD4 and HMAC-MD5 are parameters, as is what `malloc`
returns; no allocation fails.  A read or a write outside its buffer stops the run
(`Stop.overread`, `Stop.overwrite`).  The host is little-endian and `NTLM_USER_FILE` is not set.
-/

set_option autoImplicit false

namespace Libsmb2.Ntlm

open Util

/-- The functions that the messages are computed with. -/
structure Primitives where
  md4 : Bytes → Bytes
  hmacMd5 : Bytes → Bytes → Bytes
  malloc : Nat → Bytes
  length_md4 : ∀ text, (md4 text).length = 16
  length_hmacMd5 : ∀ text key, (hmacMd5 text key).length = 16
  length_malloc : ∀ n, (malloc n).length = n

/-- Why a function did not return 0. -/
inductive Stop
  /-- It returned -1. -/
  | failed
  /-- It read outside a buffer. -/
  | overread
  /-- It wrote outside a buffer. -/
  | overwrite
  deriving DecidableEq, Repr

/-- `struct auth_data`, less its bookkeeping of allocations. -/
structure AuthData where
  buf : Bytes := []
  ntlmBuf : Bytes := []
  ntlmLen : Nat := 0
  user : Option CString := none
  domain : Option CString := none
  password : Option CString := none
  workstation : Option CString := none
  targetName : Option CString := none
  clientChallenge : Bytes := []
  serverChallenge : Bytes := zeros 8
  targetInfo : Bytes := []
  wintime : Nat := 0
  exportedSessionKey : Bytes := zeros 16
  deriving DecidableEq, Repr

/-- What the functions read of the client's `smb2_context`. -/
structure Client where
  server : CString
  password : Option CString
  domain : Option CString
  deriving DecidableEq, Repr

/-- What the functions read of the server.  `authorizeUser` is the handler: `some pw` when it
returns 0, with the password that it leaves in the context. -/
structure Server where
  authorizeUser : Option CString → Option CString → Option CString → Option (Option CString)
  allowAnonymous : Bool

/-- `memcpy` out of a buffer. -/
def fetch (buf : Bytes) (off n : Nat) : Except Stop Bytes :=
  if off + n ≤ buf.length then .ok (slice buf off n) else .error .overread

/-- `memcpy` into a buffer. -/
def store (buf : Bytes) (off : Nat) (new : Bytes) : Except Stop Bytes :=
  if off + new.length ≤ buf.length then .ok (patch buf off new) else .error .overwrite

/-- `smb2_utf8_to_utf16`, with the `goto finished` that follows a NULL. -/
def toUtf16 (s : Bytes) : Except Stop (List Nat) :=
  match utf8ToUtf16 s with
  | some us => .ok us
  | none => .error .failed

def signature : Bytes := [0x4e, 0x54, 0x4c, 0x4d, 0x53, 0x53, 0x50, 0]

def NEGOTIATE_128 : Nat := 0x20000000
def NEGOTIATE_VERSION : Nat := 0x02000000
def NEGOTIATE_TARGET_INFO : Nat := 0x00800000
def NEGOTIATE_EXTENDED_SESSIONSECURITY : Nat := 0x00080000
def NEGOTIATE_ALWAYS_SIGN : Nat := 0x00008000
def NEGOTIATE_ANONYMOUS : Nat := 0x00000800
def NEGOTIATE_SEAL : Nat := 0x00000020
def NEGOTIATE_SIGN : Nat := 0x00000010
def REQUEST_TARGET : Nat := 0x00000004
def NEGOTIATE_OEM : Nat := 0x00000002
def NEGOTIATE_UNICODE : Nat := 0x00000001

/-- The flags that both messages carry. -/
def commonFlags : Nat :=
  NEGOTIATE_128 ||| NEGOTIATE_EXTENDED_SESSIONSECURITY ||| NEGOTIATE_ALWAYS_SIGN |||
    NEGOTIATE_SIGN ||| REQUEST_TARGET ||| NEGOTIATE_OEM ||| NEGOTIATE_UNICODE

def challengeFlags : Nat :=
  commonFlags ||| NEGOTIATE_TARGET_INFO ||| NEGOTIATE_VERSION ||| NEGOTIATE_SEAL

def authFlags (anonymous : Bool) : Nat :=
  commonFlags ||| (if anonymous then NEGOTIATE_ANONYMOUS else NEGOTIATE_SEAL)

/-- The length of a field, twice in 16 bits. -/
def lengths (n : Nat) : Bytes := le 4 (n <<< 16 ||| n)

/-! ## The server's challenge -/

/-- An attribute of the target info. -/
def attr (code : Nat) (len : Nat) (val : Bytes) : Bytes := le 2 code ++ le 2 len ++ val

/-- The target info of the challenge, for the code units of the host name and of its upper
case. -/
def challengeInfo (names : Option (List Nat × List Nat)) (wintime : Nat) : Bytes :=
  (match names with
    | none => []
    | some (host, upper) =>
      attr 2 (2 * upper.length) (utf16Octets upper) ++ attr 1 (2 * host.length) (utf16Octets upper) ++
        attr 4 0 [] ++ attr 3 (2 * host.length) (utf16Octets host)) ++
    attr 7 8 (le 8 wintime) ++ le 4 0

/-- The conversions of the host name. -/
def hostNames (workstation : Option CString) : Except Stop (Option (List Nat × List Nat)) :=
  match workstation with
  | none => .ok none
  | some w => do
    let host ← toUtf16 w.octets
    let upper ← toUtf16 (w.octets.map toupper)
    return some (host, upper)

/-- `encode_ntlm_challenge`. -/
def encodeNtlmChallenge (auth : AuthData) : Except Stop AuthData := do
  let serverChallenge : Bytes := [1, 2, 3, 4, 5, 6, 7, 8]
  let buf := auth.buf ++ signature ++ le 4 CHALLENGE_MESSAGE ++ le 4 0 ++ le 4 0 ++
    le 4 challengeFlags ++ serverChallenge ++ le 4 0 ++ le 4 0 ++ le 4 0 ++ le 4 0 ++
    le 4 0x00000106 ++ le 4 0x0F000000
  let names ← hostNames auth.workstation
  let buf := match names with
    | none => buf
    | some (host, upper) =>
      patch (patch buf 16 (le 4 buf.length)) 12 (lengths (2 * host.length)) ++ utf16Octets upper
  let pos := buf.length
  let info := challengeInfo names auth.wintime
  let buf := buf ++ info
  let buf := patch buf 40 (le 2 info.length)
  let buf := patch buf 42 (le 2 info.length)
  let buf := patch buf 44 (le 2 pos)
  return { auth with buf := buf, serverChallenge := serverChallenge, targetInfo := info }

/-! ## The client's answer -/

/-- The loop's variables in `ntlm_decode_challenge_message`. -/
structure Transcoder where
  out : Bytes
  inoff : Nat
  inlen : Nat
  outoff : Nat
  infolen : Nat
  deriving DecidableEq, Repr

/-- Write `new` at the output offset and move on. -/
def Transcoder.put (t : Transcoder) (new : Bytes) : Except Stop Transcoder := do
  let out ← store t.out t.outoff new
  return { t with out := out, outoff := t.outoff + new.length }

/-- `inoff += 4 + attr_len` and its two companions. -/
def Transcoder.advance (t : Transcoder) (attrLen : Nat) : Transcoder :=
  { t with
    inoff := (t.inoff + 4 + attrLen) % 4294967296
    inlen := (t.inlen + 131072 - (4 + attrLen)) % 65536
    infolen := (t.infolen + 4 + attrLen) % 65536 }

/-- The target name goes before the end of the list. -/
def insertTargetName (spn : Option (List Nat)) (t : Transcoder) : Except Stop Transcoder :=
  match spn with
  | none => .ok t
  | some us => do
    let len := 2 * us.length % 65536
    let t ← t.put (attr 9 len ((utf16Octets us).take len))
    return { t with infolen := (t.infolen + 4 + len) % 65536 }

/-- The loop over the attributes.  A round writes four octets or more, so that the fuel, the
length of the output, is not what ends it. -/
def transcodeInfo (spn : Option (List Nat)) (buf : Bytes) :
    Nat → Transcoder → Except Stop Transcoder
  | 0, _ => .error .overwrite
  | fuel + 1, t =>
    if t.inlen = 0 then .ok t
    else do
      let attrCode := fromLe (← fetch buf t.inoff 2)
      let attrLen := fromLe (← fetch buf (t.inoff + 2) 2)
      if t.inlen < attrLen ∨ t.out.length < t.outoff + attrLen then .ok t
      else if attrCode = 0 then do
        let t ← insertTargetName spn t
        let t ← t.put (le 2 0 ++ le 2 0)
        transcodeInfo spn buf fuel (t.advance 0)
      else do
        let val ← fetch buf (t.inoff + 4) attrLen
        let t ← t.put (attr attrCode attrLen val)
        transcodeInfo spn buf fuel (t.advance attrLen)

/-- "cifs/" and the server's name. -/
def targetSpn (server : CString) : Bytes := [0x63, 0x69, 0x66, 0x73, 0x2f] ++ server.octets

/-- The target name is copied. -/
def copyTargetName (buf out : Bytes) (inlen inoff : Nat) :
    Except Stop (Bytes × Nat × Option CString) :=
  if 0 < inlen ∧ inlen < buf.length ∧ 56 + inlen < out.length then do
    let name ← fetch buf inoff inlen
    let out ← store out 56 name
    return (out, 56 + inlen, some (CString.ofBytes (utf16ToUtf8 (utf16Units name))))
  else .ok (out, 56, none)

/-- The target info is transcoded, and its field is rewritten. -/
def copyTargetInfo (spn : Option (List Nat)) (buf out : Bytes) (outoff inlen inoff : Nat) :
    Except Stop (Bytes × Nat) :=
  if 0 < inlen ∧ inlen < buf.length ∧ outoff + inlen < out.length then do
    let out ← store out 44 (le 4 outoff)
    let t ← transcodeInfo spn buf out.length ⟨out, inoff, inlen, outoff, 0⟩
    let out ← store t.out 40 (le 2 t.infolen)
    let out ← store out 42 (le 2 t.infolen)
    return (out, t.outoff)
  else .ok (out, buf.length)

/-- `ntlm_decode_challenge_message`. -/
def ntlmDecodeChallengeMessage (P : Primitives) (client : Client) (auth : AuthData) (buf : Bytes) :
    Except Stop AuthData :=
  if buf.length = 0 then .error .failed
  else do
    let spn := targetSpn client.server
    let header ← fetch buf 0 56
    let out ← store (P.malloc (buf.length + 400)) 0 header
    let inlen := fromLe (← fetch buf 12 2)
    let inoff := fromLe (← fetch buf 16 4)
    let out ← store out 16 (le 4 56)
    let (out, outoff, name) ← copyTargetName buf out inlen inoff
    let inlen := fromLe (← fetch buf 40 2)
    let inoff := fromLe (← fetch buf 44 4)
    let (out, ntlmLen) ← copyTargetInfo (utf8ToUtf16 spn) buf out outoff inlen inoff
    return { auth with
      ntlmBuf := out
      ntlmLen := ntlmLen
      targetName := name.orElse fun _ => auth.targetName
      targetInfo := spn }

/-- The value of a hexadecimal digit, of whatever character. -/
def nibble (u : Nat) : Int := if 57 < u then (u : Int) - 65 + 10 else (u : Int) - 48

/-- The upper case of a code unit. -/
def upperUnit (u : Nat) : Nat := if 97 ≤ u ∧ u ≤ 122 then u - 32 else u

/-- The pairs of digits of `ntlm_convert_password_hash`. -/
def hashOctets : List Nat → Bytes
  | h :: l :: us =>
    .ofNat (((nibble (upperUnit h) * 16) % 256).toNat ||| (nibble (upperUnit l) % 256).toNat) ::
      hashOctets us
  | _ => []

/-- `ntlm_convert_password_hash`: the loops take 32 code units, whatever the string has. -/
def ntlmConvertPasswordHash (password : Bytes) : Except Stop Bytes := do
  let us ← toUtf16 password
  if us.length < 32 then .error .overread else .ok (hashOctets (us.take 32))

/-- `NTOWFv1`. -/
def NTOWFv1 (P : Primitives) (password : Bytes) : Except Stop Bytes := do
  let us ← toUtf16 password
  return P.md4 (utf16Octets us)

/-- `"ntlm:"`. -/
def hashMark : Bytes := [0x6e, 0x74, 0x6c, 0x6d, 0x3a]

/-- The password is a hash. -/
def isHash (password : Bytes) : Bool := password.length = 37 ∧ password.take 5 = hashMark

/-- `NTOWFv2`. -/
def NTOWFv2 (P : Primitives) (user password domain : Option CString) : Except Stop Bytes :=
  match user, password with
  | some user, some password => do
    let ntlmHash ← if isHash password.octets then ntlmConvertPasswordHash (password.octets.drop 5)
      else NTOWFv1 P password.octets
    let userdomain := user.octets.map toupper ++ (domain.map CString.octets).getD []
    let us ← toUtf16 userdomain
    return P.hmacMd5 (utf16Octets us) ntlmHash
  | _, _ => .error .failed

/-- `encode_temp`. -/
def encodeTemp (buf : Bytes) (t : Nat) (clientChallenge serverChallenge serverName : Bytes) :
    Bytes :=
  buf ++ zeros 8 ++ serverChallenge ++ [1, 1, 0, 0, 0, 0, 0, 0] ++ le 8 t ++ clientChallenge ++
    zeros 4 ++ serverName ++ zeros 4

/-- The response and the exported key of `encode_ntlm_auth`. -/
def ntlmResponse (P : Primitives) (t : Nat) (auth : AuthData) (serverChallenge : Bytes) :
    Except Stop (Bytes × Bytes) := do
  let responseKeyNT ← NTOWFv2 P auth.user auth.password auth.domain
  if auth.ntlmLen < 47 then .error .failed
  else do
    let len := fromLe (← fetch auth.ntlmBuf 40 4) >>> 16
    let off := fromLe (← fetch auth.ntlmBuf 44 4)
    if auth.ntlmLen ≤ off ∨ auth.ntlmLen < (off + len) % 4294967296 then .error .failed
    else do
      let serverName ← fetch auth.ntlmBuf off len
      let temp := encodeTemp auth.buf t auth.clientChallenge serverChallenge serverName
      let ntProofStr := P.hmacMd5 (temp.drop 8) responseKeyNT
      return (patch temp 0 ntProofStr, P.hmacMd5 ntProofStr responseKeyNT)

/-- The code units of a name field, if the name is there. -/
def nameUnits (name : Option CString) : Except Stop (Option (List Nat)) :=
  match name with
  | none => .ok none
  | some s => do
    let us ← toUtf16 s.octets
    return some us

/-- The octets of a name field. -/
def nameOctets (us : Option (List Nat)) : Bytes := (us.map utf16Octets).getD []

/-- The AUTHENTICATE message.  The offsets are patched in as the payload grows. -/
def authenticateMessage (buf : Bytes) (domain : Option (List Nat)) (user : List Nat)
    (workstation : Option (List Nat)) (response : Bytes) : Bytes :=
  let buf := buf ++ signature ++ le 4 AUTHENTICATION_MESSAGE ++ le 4 0 ++ le 4 0 ++
    lengths response.length ++ le 4 0 ++ lengths (nameOctets domain).length ++ le 4 0 ++
    lengths (utf16Octets user).length ++ le 4 0 ++ lengths (nameOctets workstation).length ++
    le 4 0 ++ le 4 0 ++ le 4 0 ++ le 4 (authFlags false) ++ le 4 0 ++ le 4 0
  let buf := patch buf 32 (le 4 buf.length) ++ nameOctets domain
  let buf := patch buf 40 (le 4 buf.length) ++ utf16Octets user
  let buf := patch buf 48 (le 4 buf.length) ++ nameOctets workstation
  patch buf 24 (le 4 buf.length) ++ response

/-- `encode_ntlm_auth`. -/
def encodeNtlmAuth (P : Primitives) (client : Client) (t : Nat) (auth : AuthData)
    (serverChallenge : Bytes) : Except Stop AuthData := do
  let auth := { auth with password := client.password, domain := client.domain }
  match auth.password with
  | none =>
    -- anonymous: no payload at all
    return { auth with
      buf := auth.buf ++ signature ++ le 4 AUTHENTICATION_MESSAGE ++ zeros 48 ++
        le 4 (authFlags true) ++ le 4 0 ++ le 4 0 }
  | some _ => do
    let (response, key) ← ntlmResponse P t auth serverChallenge
    let domain ← nameUnits auth.domain
    let user ← toUtf16 ((auth.user.map CString.octets).getD [])
    let workstation ← nameUnits auth.workstation
    return { auth with
      buf := authenticateMessage [] domain user workstation response
      exportedSessionKey := key }

/-- The client's part of `ntlmssp_generate_blob` for a challenge: a domain that is not set is
taken from the target name. -/
def answerChallenge (P : Primitives) (client : Client) (t : Nat) (auth : AuthData) (buf : Bytes) :
    Except Stop AuthData := do
  let auth ← ntlmDecodeChallengeMessage P client { auth with buf := [] } buf
  let client := if auth.domain.isNone ∧ auth.targetName.isSome then
    { client with domain := auth.targetName } else client
  let serverChallenge ← fetch auth.ntlmBuf 24 8
  encodeNtlmAuth P client t auth serverChallenge

/-! ## The server's check -/

/-- `ntlmssp_get_utf16_field`. -/
def ntlmsspGetUtf16Field (input : Bytes) (offset : Nat) : Except Stop (Option CString) :=
  if input.length < offset + 8 then .ok none
  else do
    let len := fromLe (← fetch input offset 4) >>> 16
    let off := fromLe (← fetch input (offset + 4) 4)
    if len ≠ 0 ∧ off ≠ 0 then do
      let name ← fetch input off (2 * (len / 2))
      return some (CString.ofBytes (utf16ToUtf8 (utf16Units name)))
    else .ok none

/-- The proof of `ntlmssp_authenticate_blob`. -/
def checkProof (P : Primitives) (auth : AuthData) (password : Option CString) (input : Bytes) :
    Except Stop AuthData := do
  let len := fromLe (← fetch input 20 4) >>> 16
  let off := fromLe (← fetch input 24 4)
  if len = 0 ∨ off = 0 then .error .failed
  else if input.length < off then .error .failed
  -- `challenge_len` is unsigned: a response below 16 octets passes for a long one
  else if (len + 4294967296 - 16) % 4294967296 ≤ 36 then .error .failed
  else do
    let clientChallenge ← fetch input (off + 32) 8
    let responseKeyNT ← NTOWFv2 P auth.user password auth.domain
    let temp ← fetch input (off + 16) ((len + 4294967296 - 16) % 4294967296)
    let ntProofStr := P.hmacMd5 (auth.serverChallenge ++ temp) responseKeyNT
    let response ← fetch input off 16
    if ntProofStr ≠ response then .error .failed
    else return { auth with
      buf := []
      clientChallenge := clientChallenge
      exportedSessionKey := P.hmacMd5 ntProofStr responseKeyNT }

/-- `ntlmssp_authenticate_blob`. -/
def ntlmsspAuthenticateBlob (P : Primitives) (server : Server) (auth : AuthData) (input : Bytes) :
    Except Stop AuthData := do
  if input.length < 8 ∨ input.take 8 ≠ signature then .error .failed
  else do
    let cmd := fromLe (← fetch input 8 4)
    if cmd ≠ AUTHENTICATION_MESSAGE then .error .failed
    else do
      let domain ← ntlmsspGetUtf16Field input 28
      let user ← ntlmsspGetUtf16Field input 36
      let workstation ← ntlmsspGetUtf16Field input 44
      let auth := { auth with domain := domain, user := user, workstation := workstation }
      let _ ← fetch input 60 4
      match server.authorizeUser user domain workstation with
      | none => .error .failed
      | some password =>
        if password.isNone ∧ ¬server.allowAnonymous then .error .failed
        else if user.all (fun u => u.octets.isEmpty) ∨ password.all (fun p => p.octets.isEmpty) then
          if server.allowAnonymous then .ok auth else .error .failed
        else checkProof P auth password input

end Libsmb2.Ntlm
