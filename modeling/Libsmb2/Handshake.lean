import Libsmb2.Lifecycle

/-!
# Session establishment, client

`smb2_create_signing_key`, the preauthentication hash, the exchange of NTLMSSP tokens
(`ntlmssp_generate_blob`), and the callbacks `connect_cb`, `negotiate_cb`,
`session_setup_cb` and `tree_connect_cb` of a build without Kerberos.

What lies below the exchange of tokens (the NTLMv2 computation, SPNEGO) and the marshalling
of the bodies are the parameter `Library`: any functions of the context.  A computation that
fails, or for which there is no memory, is `none`.

`c_data->auth_data` is `Context.authData`.  After `smb2_queue_pdu` the callbacks go on to hash
the vectors of the request they have queued; where it has been freed by then, they read freed
memory (`queueAndHash`).
-/

set_option autoImplicit false

namespace Libsmb2

open Util

/-! ## Keys -/

/-- A label of the key derivation, as `sizeof` counts it: with the closing NUL. -/
def label (s : List Char) : Bytes := s.map (fun c => UInt8.ofNat c.toNat) ++ [0]

def SMBSigningKey : Bytes :=
  label ['S', 'M', 'B', 'S', 'i', 'g', 'n', 'i', 'n', 'g', 'K', 'e', 'y']
def SMBC2SCipherKey : Bytes :=
  label ['S', 'M', 'B', 'C', '2', 'S', 'C', 'i', 'p', 'h', 'e', 'r', 'K', 'e', 'y']
def SMBS2CCipherKey : Bytes :=
  label ['S', 'M', 'B', 'S', '2', 'C', 'C', 'i', 'p', 'h', 'e', 'r', 'K', 'e', 'y']
def SMB2AESCMAC : Bytes := label ['S', 'M', 'B', '2', 'A', 'E', 'S', 'C', 'M', 'A', 'C']
def SmbSign : Bytes := label ['S', 'm', 'b', 'S', 'i', 'g', 'n']
def SMB2AESCCM : Bytes := label ['S', 'M', 'B', '2', 'A', 'E', 'S', 'C', 'C', 'M']
def ServerIn : Bytes := label ['S', 'e', 'r', 'v', 'e', 'r', 'I', 'n', ' ']
def ServerOut : Bytes := label ['S', 'e', 'r', 'v', 'e', 'r', 'O', 'u', 't']

/-- `smb2_derive_key`. -/
def deriveKey (K : Crypto) (derivationKey label context : Bytes) : Bytes :=
  let inputKey := (derivationKey ++ zeros KEY_SIZE).take KEY_SIZE
  (K.hmacSha256 inputKey (be32 1 ++ label ++ [0] ++ context ++ be32 (KEY_SIZE * 8))).take KEY_SIZE

/-- The dialects for which the session key itself is the signing key. -/
def isSmb2Dialect (dialect : Nat) : Bool := dialect = VERSION_0202 || dialect = VERSION_0210

/-- The three keys that `smb2_create_signing_key` leaves. -/
def derivedKeys (K : Crypto) (ctx : Context) : Bytes × Bytes × Bytes :=
  if isSmb2Dialect ctx.dialect then
    (patch ctx.signingKey 0 (ctx.sessionKey.take KEY_SIZE), ctx.serverinKey, ctx.serveroutKey)
  else if ctx.dialect ≤ VERSION_0302 then
    (deriveKey K ctx.sessionKey SMB2AESCMAC SmbSign,
      deriveKey K ctx.sessionKey SMB2AESCCM ServerIn,
      deriveKey K ctx.sessionKey SMB2AESCCM ServerOut)
  else
    (deriveKey K ctx.sessionKey SMBSigningKey ctx.preauthhash,
      deriveKey K ctx.sessionKey SMBC2SCipherKey ctx.preauthhash,
      deriveKey K ctx.sessionKey SMBS2CCipherKey ctx.preauthhash)

/-- `smb2_create_signing_key`. -/
def createSigningKey (K : Crypto) (ctx : Context) : Context :=
  let keys := derivedKeys K ctx
  { ctx with
    signingKey := keys.1
    serverinKey := keys.2.1
    serveroutKey := keys.2.2
    log := ctx.log ++ .transcript ctx.preauthhash :: .derived .signing keys.1 ctx.sessionKey ::
      if isSmb2Dialect ctx.dialect then []
      else [.derived .serverin keys.2.1 ctx.sessionKey, .derived .serverout keys.2.2 ctx.sessionKey] }

/-! ## The preauthentication hash -/

/-- `smb3_init_preauth_hash`. -/
def initPreauthHash (ctx : Context) : Context := { ctx with preauthhash := zeros 64 }

/-- `smb3_update_preauth_hash`. -/
def updatePreauthHash (K : Crypto) (ctx : Context) (vecs : List Bytes) : Context :=
  { ctx with preauthhash := K.sha512 (ctx.preauthhash ++ vecs.flatten) }

/-- The contents of the input vectors from this one on. -/
def Receiver.vectorsFrom (rx : Receiver) (first : Nat) : List Bytes :=
  (rx.iov.zipIdx.drop first).map fun (v, i) => rx.content i v

/-- `&smb2->in.iov[1]`, all of them: what the callbacks hash. -/
def Receiver.messageVectors (rx : Receiver) : List Bytes := rx.vectorsFrom 1

/-- A request that has been queued and not been freed. -/
def Context.findQueued (ctx : Context) (id : Nat) : Option Pdu :=
  (ctx.outqueue.map Chain.head ++ ctx.waitqueue).find? fun p => p.id == id

/-- `smb2_queue_pdu`, and then `smb3_update_preauth_hash` on the vectors of the request. -/
def queueAndHash (K : Crypto) (ctx : Context) (p : Pdu) : Context :=
  let ctx := queuePdu K ctx (.single p)
  if ctx.fault = none then
    match ctx.findQueued p.id with
    | some q => updatePreauthHash K ctx q.out
    | none => ctx.raise .stalePdu
  else ctx

/-! ## Tokens -/

/-- An AUTHENTICATE message that a server has looked at: whether it is accepted, the session
key if one was computed, and whether the context still holds a password. -/
structure Authentication where
  accepted : Bool
  sessionKey : Option Bytes
  hasPassword : Bool
  deriving DecidableEq, Repr

/-- What the callbacks of the handshake call. -/
structure Library extends Decoders where
  /-- `smb2_spnego_unwrap_blob`: the NTLMSSP message, and whether it was wrapped. -/
  unwrap : Bytes → Option (Bytes × Bool)
  /-- `smb2_spnego_wrap_gssapi` and its siblings, on a token of this message type. -/
  wrap : Nat → Bytes → Option Bytes
  /-- `smb2_spnego_wrap_authenticate_result`. -/
  wrapResult : Bool → Option Bytes
  /-- `encode_ntlm_negotiate_message`. -/
  encodeNegotiate : Context → Bytes
  /-- `encode_ntlm_challenge`. -/
  encodeChallenge : Context → Option Bytes
  /-- `ntlm_decode_challenge_message` and `encode_ntlm_auth`: the token, and the session key
  unless the logon is anonymous. -/
  encodeAuth : Context → Bytes → Option (Bytes × Option Bytes)
  /-- `ntlmssp_authenticate_blob`. -/
  authenticateBlob : Context → Bytes → Authentication
  negotiateRequest : Context → List Nat → Option (List Bytes)
  sessionSetupRequest : Context → Bytes → Option (List Bytes)
  treeConnectRequest : Context → Option (List Bytes)
  negotiateReply : Context → NegotiateReply → Option (List Bytes)
  sessionSetupReply : Context → Bytes → Option (List Bytes)
  reply : Context → Command → Option (List Bytes)
  errorReply : Context → Command → Option (List Bytes)
  /-- What is found where the vectors of this reply were before it was freed. -/
  freed : Context → Nat → List Bytes

/-- `ntlmssp_get_message_type`: the type, the message, and whether it was wrapped. -/
def ntlmsspGetMessageType (L : Library) (buffer : Bytes) : Option (Nat × Bytes × Bool) :=
  if buffer.length < 12 then none
  else match L.unwrap buffer with
    | none => none
    | some (msg, wrapped) =>
      if msg.length < 12 then none
      else if msg.take 7 = [0x4E, 0x54, 0x4C, 0x4D, 0x53, 0x53, 0x50] then
        some (fromLe (slice msg 8 4), msg, wrapped)
      else none

/-- The token of `auth_data`, wrapped if the exchange is. -/
def finishBlob (L : Library) (auth : AuthData) (type : Nat) (token : Bytes) : Option Bytes :=
  if auth.spnegoWrap then L.wrap type token else some token

/-- `ntlmssp_generate_blob` of a client. -/
def clientBlob (L : Library) (ctx : Context) (auth : AuthData) (input : Option Bytes) :
    Option (AuthData × Bytes) :=
  match input with
  | none => (finishBlob L auth NEGOTIATE_MESSAGE (L.encodeNegotiate ctx)).map (auth, ·)
  | some buf =>
    match ntlmsspGetMessageType L buf with
    | none => none
    | some (cmd, msg, wrapped) =>
      let auth := { auth with spnegoWrap := auth.spnegoWrap || wrapped }
      if cmd = CHALLENGE_MESSAGE then
        match L.encodeAuth ctx msg with
        | none => none
        | some (token, key) =>
          let auth := { auth with exportedSessionKey := key.getD auth.exportedSessionKey }
          (finishBlob L auth AUTHENTICATION_MESSAGE token).map (auth, ·)
      else none

/-- `ntlmssp_get_session_key`, and whether it succeeded. -/
def getSessionKey (ctx : Context) : Context × Bool :=
  match ctx.authData with
  | none => (ctx, false)
  | some auth =>
    if ctx.allocOk then ({ ctx.popMem with sessionKey := auth.exportedSessionKey }, true)
    else (ctx.popMem, false)

/-! ## The callbacks -/

/-- The callback of the application, with which `c_data` ends. -/
def connectDone (K : Crypto) (ctx : Context) (ret : Int) : Context :=
  { react K (ctx.emit (.connected ret)) with authData := none }

def connectFailed (K : Crypto) (ctx : Context) : Context := connectDone K ctx.closeContext (-1)

/-- A request of the handshake: `smb2_allocate_pdu` and the marshalling of its body. -/
def newRequest (ctx : Context) (command : Command) (cb : Callback) (body : Option (List Bytes)) :
    Option Pdu × Context :=
  match ctx.allocatePdu command cb with
  | (none, ctx) => (none, ctx)
  | (some p, ctx) => (body.map fun b => marshal p b none [], ctx)

/-- The dialects that `connect_cb` offers for `smb2->version`. -/
def offeredDialects : Version → List Nat
  | .any => [VERSION_0202, VERSION_0210, VERSION_0300, VERSION_0302, VERSION_0311]
  | .any2 => [VERSION_0202, VERSION_0210]
  | .any3 => [VERSION_0300, VERSION_0302, VERSION_0311]
  | .dialect d =>
    if d ∈ [VERSION_0202, VERSION_0210, VERSION_0300, VERSION_0302, VERSION_0311] then [d] else []

/-- `connect_cb`, when the socket is connected. -/
def connectCb (L : Library) (K : Crypto) (ctx : Context) : Context :=
  let ctx := initPreauthHash ctx
  match newRequest ctx .negotiate .negotiateCb
      (L.negotiateRequest ctx (offeredDialects ctx.version)) with
  | (none, ctx) => connectDone K ctx (-1)
  | (some p, ctx) => queueAndHash K ctx p

/-- `send_session_setup_request`, and whether it succeeded. -/
def sendSessionSetupRequest (L : Library) (K : Crypto) (ctx : Context) (input : Option Bytes) :
    Context × Bool :=
  match ctx.authData with
  | none => (ctx.raise .nullAuthData, false)
  | some auth =>
    match clientBlob L ctx auth input with
    | none => (ctx.closeContext, false)
    | some (auth, token) =>
      let ctx := { ctx with authData := some auth }
      match newRequest ctx .sessionSetup .sessionSetupCb (L.sessionSetupRequest ctx token) with
      | (none, ctx) => (ctx.closeContext, false)
      | (some p, ctx) => (queueAndHash K ctx p, true)

/-- The next request of the session setup, or the end of the attempt. -/
def continueSetup (L : Library) (K : Crypto) (ctx : Context) (input : Option Bytes) : Context :=
  match sendSessionSetupRequest L K ctx input with
  | (ctx, true) => ctx
  | (ctx, false) => if ctx.fault = none then connectFailed K ctx else ctx

/-- The sealing that the caller asked for is one this reply allows. -/
def encryptionMissing (ctx : Context) (rep : NegotiateReply) : Bool :=
  ctx.sealing && (rep.dialectRevision = VERSION_0300 || rep.dialectRevision = VERSION_0302) &&
    rep.capabilities &&& GLOBAL_CAP_ENCRYPTION = 0

/-- `negotiate_cb`.  Without Kerberos, whatever the reply offers, NTLMSSP is what is used. -/
def negotiateCb (L : Library) (K : Crypto) (rx : Receiver) (status : Nat) (payload : Payload)
    (ctx : Context) : Context :=
  let ctx := updatePreauthHash K ctx rx.messageVectors
  if status ≠ STATUS_SUCCESS then connectFailed K ctx
  else match payload with
    | .negotiateReply rep =>
      let ctx := { ctx with dialect := rep.dialectRevision, cypher := rep.cypher }
      if encryptionMissing ctx rep then connectFailed K ctx
      else if ctx.sign && rep.securityMode &&& NEGOTIATE_SIGNING_ENABLED = 0 then
        connectFailed K ctx
      else
        let required := rep.securityMode &&& NEGOTIATE_SIGNING_REQUIRED != 0
        let ctx := { ctx with
          sign := (ctx.sign || required) && !ctx.sealing
          sec := .ntlmssp
          log := ctx.log ++ [Event.negotiated ⟨offeredDialects ctx.version, ctx.sealing, rep⟩] }
        if ctx.allocOk then
          continueSetup L K { ctx.popMem with authData := some {} } none
        else connectFailed K ctx.popMem
    | _ => ctx.raise .payloadConfusion

/-- The end of a session setup: the implicit tree connect. -/
def treeConnect (L : Library) (K : Crypto) (rx : Receiver) (ctx : Context) : Context :=
  let ctx := ctx.emit (.admitted {
    sign := ctx.sign
    dialect := ctx.dialect
    signingKey := ctx.signingKey
    hdr := rx.hdr
    vectors := rx.vectorsFrom rx.headerIndex
    alone := rx.headerIndex = 1 })
  if ctx.passthrough then connectDone K ctx 0
  else match newRequest ctx .treeConnect .treeConnectCb (L.treeConnectRequest ctx) with
    | (none, ctx) => connectFailed K ctx
    | (some p, ctx) => queuePdu K ctx (.single p)

/-- The check of the signature of the last reply, on all vectors of its frame. -/
def checkSetup (L : Library) (K : Crypto) (rx : Receiver) (ctx : Context) : Context :=
  if rx.hdr.hasFlag FLAGS_SIGNED then
    if (rx.iov[1]?.map IoVec.isHeader).getD false then
      if VERSION_0210 < ctx.dialect && !ctx.allocOk then connectDone K ctx.popMem (-1)
      else
        let ctx := if VERSION_0210 < ctx.dialect then ctx.popMem else ctx
        if slice rx.header 48 SIGNATURE_SIZE = calcSignature K ctx (rx.signedVectors 1) then
          treeConnect L K rx ctx
        else connectDone K ctx (-1)
    -- the first vector behind the prefix is not a header: the signature lies outside it
    else ctx.raise .heapOverflow
  else treeConnect L K rx ctx

/-- The session key is there and not all zero. -/
def validSessionKey (ctx : Context) : Bool :=
  ctx.sessionKey != [] && ctx.sessionKey.take KEY_SIZE != zeros KEY_SIZE

/-- The keys of a session that is signed, sealed or of dialect 3.1.1. -/
def finishSetup (L : Library) (K : Crypto) (rx : Receiver) (ctx : Context) : Context :=
  if ctx.sign || ctx.sealing || ctx.dialect = VERSION_0311 then
    let x := getSessionKey ctx
    let ctx := x.1.emit (.setUp ⟨x.1.sign, x.1.sealing, x.1.dialect,
      if x.2 then some x.1.sessionKey else none⟩)
    if ctx.sign && !(x.2 && validSessionKey ctx) then connectFailed K ctx
    else checkSetup L K rx (createSigningKey K ctx)
  else treeConnect L K rx (ctx.emit (.setUp ⟨ctx.sign, ctx.sealing, ctx.dialect, none⟩))

/-- `session_setup_cb`. -/
def sessionSetupCb (L : Library) (K : Crypto) (rx : Receiver) (status : Nat) (payload : Payload)
    (ctx : Context) : Context :=
  if status = STATUS_MORE_PROCESSING_REQUIRED then
    match payload with
    | .sessionSetupReply rep =>
      if rep.securityBuffer = [] then connectFailed K ctx
      else continueSetup L K (updatePreauthHash K ctx rx.messageVectors) (some rep.securityBuffer)
    | _ => ctx.raise .payloadConfusion
  else if status ≠ STATUS_SUCCESS then connectFailed K ctx
  else match payload with
    | .sessionSetupReply rep =>
      finishSetup L K rx
        (if rep.sessionFlags &&& SESSION_FLAG_IS_ENCRYPT_DATA ≠ 0 then
          { ctx with sealing := true, sign := false }
        else ctx)
    | _ => ctx.raise .payloadConfusion

/-- `tree_connect_cb`. -/
def treeConnectCb (K : Crypto) (status : Nat) (ctx : Context) : Context :=
  if status ≠ STATUS_SUCCESS then connectFailed K ctx else connectDone K ctx 0

/-- The callbacks of a client. -/
def invokeClient (L : Library) (K : Crypto) (rx : Receiver) (p : Pdu) (status : Nat)
    (ctx : Context) : Context :=
  let ctx := ctx.emit (.completed p.id status)
  match p.cb with
  | .negotiateCb => negotiateCb L K rx status p.payload ctx
  | .sessionSetupCb => sessionSetupCb L K rx status p.payload ctx
  | .treeConnectCb => treeConnectCb K status ctx
  | _ => react K ctx

end Libsmb2
