import Libsmb2.Handshake

/-!
# Requests, server

The callbacks with which a server answers: `smb2_negotiate_request_cb`,
`smb2_session_setup_request_cb`, `smb2_general_client_request_cb` and the callbacks of the
commands, in a build without Kerberos.

Which of the three is to get the next request is all that a server remembers of the state of its
session: each of them allocates the request that the next message is read into, with the callback
that is to answer it (`smb2->next_pdu`).

A handler of the application is the next entry of two scripts: what it does with the context
(`env.reactions`) and what it returns (`env.answers`).  What a callback reads from a reply that
has been freed is whatever `Library.freed` says.
-/

set_option autoImplicit false

namespace Libsmb2

open Util

/-! ## Handlers -/

/-- The handler of this command is registered. -/
def Server.handles (server : Server) (command : Command) : Bool :=
  match server.handlers with
  | some handlers => command ∈ handlers.commands
  | none => false

/-- `lease_break_cmd` is registered. -/
def Server.breaksLeases (server : Server) : Bool :=
  match server.handlers with
  | some handlers => handlers.leaseBreak
  | none => false

/-- `session_established` is registered. -/
def Server.establishes (server : Server) : Bool :=
  match server.handlers with
  | some handlers => handlers.sessionEstablished
  | none => false

def Context.popAnswer (ctx : Context) : Context :=
  { ctx with env := { ctx.env with answers := ctx.env.answers.tail } }

/-- A handler of the application runs and returns. -/
def runHandler (K : Crypto) (ctx : Context) : Answer × Context :=
  (ctx.env.answers.headD {}, react K ctx.popAnswer)

/-- The handler of a command, if there is one. -/
def handle (K : Crypto) (command : Command) (registered : Bool) (ctx : Context) :
    Answer × Context :=
  if registered then runHandler K (ctx.emit (.handled command)) else ({ ret := -1 }, ctx)

/-! ## Replies -/

/-- An `smb2_cmd_*_reply_async` call. -/
def newReply (ctx : Context) (command : Command) (status : Nat) (body : Option (List Bytes)) :
    Option Pdu × Context :=
  match newRequest ctx command .none body with
  | (none, ctx) => (none, ctx)
  | (some p, ctx) => (some { p with header := { p.header with status := status } }, ctx)

/-- `smb2_cmd_error_reply_async`. -/
def errorReply (L : Library) (ctx : Context) (command : Command) (status : Nat) :
    Option Pdu × Context :=
  newReply ctx command status (L.errorReply ctx command)

/-- `smb2_set_pdu_message_id`. -/
def setMessageId (p : Pdu) (mid : Nat) : Pdu :=
  { p with header := { p.header with messageId := mid } }

/-- The reply, if there is one, gets the message id of the request and is queued. -/
def sendReply (K : Crypto) (x : Option Pdu × Context) : Context :=
  match x with
  | (none, ctx) => ctx
  | (some p, ctx) => queuePdu K ctx (.single (setMessageId p ctx.messageId))

/-- `smb2_queue_pdu`, and then `smb3_update_preauth_hash` on the vectors of the reply, be they
still there or not. -/
def replyAndHash (L : Library) (K : Crypto) (ctx : Context) (p : Pdu) : Context :=
  let p := setMessageId p ctx.messageId
  let ctx := queuePdu K ctx (.single p)
  if ctx.fault = none then
    match ctx.findQueued p.id with
    | some q => updatePreauthHash K (ctx.emit (.hashed p.id true)) q.out
    | none => updatePreauthHash K (ctx.emit (.hashed p.id false)) (L.freed ctx p.id)
  else ctx

/-- The request that the next message is read into. -/
def expectRequest (ctx : Context) (command : Command) (cb : Callback) : Context :=
  let x := ctx.allocatePdu command cb
  let ctx := { x.2 with nextPdu := x.1 }
  if x.1.isSome then ctx else ctx.closeContext

/-! ## The callbacks of the commands -/

/-- The reply to a request, by what its handler returned. -/
def chooseReply (L : Library) (command : Command)
    (reply : Answer → Context → Option Pdu × Context) (x : Answer × Context) :
    Option Pdu × Context :=
  if x.1.ret = 0 then reply x.1 x.2
  else if x.1.ret < 0 then errorReply L x.2 command STATUS_NOT_IMPLEMENTED
  else (none, x.2)

/-- What the callbacks of the commands have in common. -/
def respond (L : Library) (K : Crypto) (command : Command)
    (reply : Answer → Context → Option Pdu × Context) (ctx : Context) : Context :=
  let x := handle K command (ctx.server.handles command) ctx
  if x.2.fault = none then sendReply K (chooseReply L command reply x) else x.2

/-- A reply that needs nothing but the context. -/
def plainReply (L : Library) (command : Command) (_ : Answer) (ctx : Context) :
    Option Pdu × Context :=
  newReply ctx command STATUS_SUCCESS (L.reply ctx command)

def logoffRequestCb (L : Library) (K : Crypto) : Context → Context :=
  respond L K .logoff (plainReply L .logoff)

/-- `smb2_cmd_tree_connect_reply_async` with a tree id of its own. -/
def treeConnectReply (L : Library) (_ : Answer) (ctx : Context) : Option Pdu × Context :=
  match ctx.allocatePdu .treeConnect .none with
  | (none, ctx) => (none, ctx)
  | (some p, ctx) =>
    let tid := ctx.server.treeCounter
    let ctx := { ctx with server := { ctx.server with treeCounter := (tid + 1) % 2 ^ 32 } }
    let ctx := ctx.connectTreeId tid
    let p := { p with header := { p.header with treeId := ctx.treeId } }
    ((L.reply ctx .treeConnect).map fun body => marshal p body none [], ctx)

def treeConnectRequestCb (L : Library) (K : Crypto) : Context → Context :=
  respond L K .treeConnect (treeConnectReply L)

/-- The tree is left whatever the handler says. -/
def treeDisconnectRequestCb (L : Library) (K : Crypto) (treeId : Nat) (ctx : Context) : Context :=
  let ctx := respond L K .treeDisconnect (plainReply L .treeDisconnect) ctx
  if ctx.fault = none then ctx.disconnectTreeId treeId else ctx

/-- The name in the request is released once there is a reply. -/
def createRequestCb (L : Library) (K : Crypto) (payload : Payload) (ctx : Context) : Context :=
  let x := handle K .create (ctx.server.handles .create) ctx
  if x.2.fault = none then
    let y := chooseReply L .create (plainReply L .create) x
    if y.1.isSome && payload = .null then y.2.raise .payloadConfusion else sendReply K y
  else x.2

def closeRequestCb (L : Library) (K : Crypto) : Context → Context :=
  respond L K .close (plainReply L .close)

def flushRequestCb (L : Library) (K : Crypto) : Context → Context :=
  respond L K .flush (plainReply L .flush)

def readRequestCb (L : Library) (K : Crypto) : Context → Context :=
  respond L K .read (plainReply L .read)

def writeRequestCb (L : Library) (K : Crypto) : Context → Context :=
  respond L K .write (plainReply L .write)

def OPLOCK_BREAK_NOTIFICATION_SIZE : Nat := 24
def LEASE_BREAK_NOTIFICATION_SIZE : Nat := 44
def LEASE_BREAK_REPLY_SIZE : Nat := 36

/-- The handler that an acknowledgement of this size is for. -/
def handleBreak (K : Crypto) (structSize : Nat) (ctx : Context) : Answer × Context :=
  if structSize = OPLOCK_BREAK_NOTIFICATION_SIZE then
    handle K .oplockBreak (ctx.server.handles .oplockBreak) ctx
  else if structSize = LEASE_BREAK_NOTIFICATION_SIZE ∨ structSize = LEASE_BREAK_REPLY_SIZE then
    handle K .oplockBreak ctx.server.breaksLeases ctx
  else ({ ret := -1 }, ctx)

/-- `smb2_oplock_break_request_cb`.  It refuses with a reply to a LOCK. -/
def oplockBreakRequestCb (L : Library) (K : Crypto) (payload : Payload) (ctx : Context) :
    Context :=
  match payload with
  | .other _ octets =>
    let x := handleBreak K (fromLe (slice octets 0 2)) ctx
    if x.2.fault = none then
      sendReply K (chooseReply L .lock (plainReply L .oplockBreak) x)
    else x.2
  | _ => ctx.raise .payloadConfusion

def lockRequestCb (L : Library) (K : Crypto) : Context → Context :=
  respond L K .lock (plainReply L .lock)

def FSCTL_VALIDATE_NEGOTIATE_INFO : Nat := 0x00140204

/-- `smb2_ioctl_request_cb`.  One control code is answered without the application. -/
def ioctlRequestCb (L : Library) (K : Crypto) (payload : Payload) (ctx : Context) : Context :=
  match payload with
  | .other _ octets =>
    if fromLe (slice octets 4 4) = FSCTL_VALIDATE_NEGOTIATE_INFO then
      sendReply K (plainReply L .ioctl {} ctx)
    else respond L K .ioctl (plainReply L .ioctl) ctx
  | _ => ctx.raise .payloadConfusion

/-- A request that is cancelled gets no reply. -/
def cancelRequestCb (L : Library) (K : Crypto) : Context → Context :=
  respond L K .cancel fun _ ctx => (none, ctx)

def echoRequestCb (L : Library) (K : Crypto) : Context → Context :=
  respond L K .echo (plainReply L .echo)

/-- A query without an answer is refused. -/
def queryReply (L : Library) (command : Command) (status : Nat) (a : Answer) (ctx : Context) :
    Option Pdu × Context :=
  if a.outputLength = 0 then errorReply L ctx command status else plainReply L command a ctx

/-- The name in the request is released whatever the reply. -/
def queryDirectoryRequestCb (L : Library) (K : Crypto) (payload : Payload) (ctx : Context) :
    Context :=
  let x := handle K .queryDirectory (ctx.server.handles .queryDirectory) ctx
  if x.2.fault = none then
    let y := chooseReply L .queryDirectory (queryReply L .queryDirectory STATUS_NO_MORE_FILES) x
    if payload = .null then y.2.raise .payloadConfusion else sendReply K y
  else x.2

def changeNotifyRequestCb (L : Library) (K : Crypto) : Context → Context :=
  respond L K .changeNotify (plainReply L .changeNotify)

/-- The class of the information, which the encoder goes by, is in the request. -/
def queryInfoRequestCb (L : Library) (K : Crypto) (payload : Payload) (ctx : Context) : Context :=
  let x := handle K .queryInfo (ctx.server.handles .queryInfo) ctx
  if x.2.fault = none then
    if x.1.ret = 0 ∧ x.1.outputLength ≠ 0 ∧ payload = .null then x.2.raise .payloadConfusion
    else sendReply K (chooseReply L .queryInfo (queryReply L .queryInfo STATUS_NOT_SUPPORTED) x)
  else x.2

def setInfoRequestCb (L : Library) (K : Crypto) : Context → Context :=
  respond L K .setInfo (plainReply L .setInfo)

/-! ## Session setup -/

/-- `ntlmssp_generate_blob` of a server, and the context it leaves. -/
def serverBlob (L : Library) (ctx : Context) (auth : AuthData) (buffer : Bytes) :
    Option Bytes × Context :=
  match ntlmsspGetMessageType L buffer with
  | none => (none, ctx)
  | some (type, msg, wrapped) =>
    let auth := { auth with spnegoWrap := auth.spnegoWrap || wrapped }
    if type = NEGOTIATE_MESSAGE then
      match L.encodeChallenge ctx with
      | none => (none, { ctx with authData := some auth })
      | some token =>
        let auth := { auth with challenged := true }
        let ctx := { ctx with authData := some auth }
        (finishBlob L auth CHALLENGE_MESSAGE token, ctx.emit .challenged)
    else if type = AUTHENTICATION_MESSAGE then
      let a := L.authenticateBlob ctx msg
      let auth' := { auth with
        isAuthenticated := a.accepted
        exportedSessionKey := a.sessionKey.getD auth.exportedSessionKey }
      let ctx := { ctx with authData := some auth', hasPassword := a.hasPassword }
      let ctx := if a.accepted then ctx.emit (.authenticated auth.challenged) else ctx
      let token := if auth.spnegoWrap then L.wrapResult a.accepted else some []
      (token, ctx)
    else (none, ctx)

/-- The reply of a session setup is queued, if there is a request to read the next message
into. -/
def completeSetup (L : Library) (K : Crypto) (ctx : Context) (p : Pdu) : Context :=
  if ctx.nextPdu = none then ctx.closeContext else replyAndHash L K ctx p

/-- The end of a session setup that was accepted. -/
def establishSession (L : Library) (K : Crypto) (ctx : Context) (p : Pdu) : Context :=
  if ctx.server.establishes then
    let x := runHandler K ctx
    if x.2.fault = none then
      if x.1.ret = 0 then completeSetup L K (x.2.emit .established) p else x.2.closeContext
    else x.2
  else
    match errorReply L ctx .sessionSetup STATUS_NOT_IMPLEMENTED with
    | (none, ctx) => if ctx.nextPdu = none then ctx.closeContext else ctx.raise .nullPdu
    | (some p, ctx) => completeSetup L K ctx p

/-- The reply to a leg of the session setup, if a failed logon has not made one. -/
def answerSetup (L : Library) (K : Crypto) (ctx : Context) (refusal : Option Pdu) (more : Bool)
    (token : Bytes) : Context :=
  match refusal with
  | some p => completeSetup L K ctx p
  | none =>
    match newReply ctx .sessionSetup
        (if more then STATUS_MORE_PROCESSING_REQUIRED else STATUS_SUCCESS)
        (L.sessionSetupReply ctx token) with
    | (none, ctx) => ctx.closeContext
    | (some p, ctx) => if more then completeSetup L K ctx p else establishSession L K ctx p

/-- The keys, and then the reply. -/
def finishLeg (L : Library) (K : Crypto) (ctx : Context) (refusal : Option Pdu) (more valid : Bool)
    (token : Bytes) : Context :=
  let ctx := ctx.emit (.setUp ⟨ctx.sign, ctx.sealing, ctx.dialect,
    if valid && !more then some ctx.sessionKey else none⟩)
  if ctx.sign && !valid then ctx.closeContext.closeContext
  else
    let ctx := if ctx.sign then createSigningKey K ctx else ctx
    answerSetup L K ctx refusal more token

/-- A NEGOTIATE message is answered with a challenge, in a session of its own. -/
def challengeLeg (L : Library) (K : Crypto) (ctx : Context) (buffer : Bytes) : Context :=
  if ctx.allocOk then
    let x := { ctx.popMem with authData := some {} }.allocatePdu .sessionSetup .sessionSetupRequestCb
    let ctx := { x.2 with
      nextPdu := x.1
      sessionId := x.2.server.sessionCounter
      server := { x.2.server with sessionCounter := (x.2.server.sessionCounter + 1) % 2 ^ 64 } }
    match serverBlob L ctx {} buffer with
    | (none, ctx) => ctx.closeContext
    | (some token, ctx) => finishLeg L K ctx none true true token
  else { ctx.popMem with authData := none }.closeContext

/-- An AUTHENTICATE message has been refused: the next request is a session setup again. -/
def refuseLogon (L : Library) (ctx : Context) : Option Pdu × Context :=
  let x := errorReply L ctx .sessionSetup STATUS_LOGON_FAILURE
  match x.2.nextPdu with
  | none => (x.1, x.2.raise .nullPdu)
  | some _ =>
    let y := x.2.allocatePdu .sessionSetup .sessionSetupRequestCb
    (x.1, { y.2 with nextPdu := y.1 })

/-- An AUTHENTICATE message. -/
def authenticateLeg (L : Library) (K : Crypto) (ctx : Context) (buffer : Bytes) : Context :=
  let x := ctx.allocatePdu .treeConnect .generalClientRequestCb
  let ctx := { x.2 with nextPdu := x.1 }
  match ctx.authData with
  | none => ctx.raise .nullAuthData
  | some auth =>
    match serverBlob L ctx auth buffer with
    | (none, ctx) => ctx.closeContext
    | (some token, ctx) =>
      let y := if (ctx.authData.map AuthData.isAuthenticated).getD false then (none, ctx)
        else refuseLogon L ctx
      if y.2.fault = none then
        let z := getSessionKey y.2
        finishLeg L K z.1 y.1 false z.2 token
      else y.2

/-- `smb2_session_setup_request_cb`. -/
def sessionSetupRequestCb (L : Library) (K : Crypto) (rx : Receiver) (status : Nat)
    (payload : Payload) (ctx : Context) : Context :=
  if status ≠ 0 then ctx
  else
    let ctx := updatePreauthHash K ctx rx.messageVectors
    match payload with
    | .sessionSetupRequest req =>
      match ntlmsspGetMessageType L req.securityBuffer with
      | none => ctx.closeContext
      | some (type, _, _) =>
        let ctx := { ctx with sec := .ntlmssp }
        if type = NEGOTIATE_MESSAGE then challengeLeg L K ctx req.securityBuffer
        else if type = AUTHENTICATION_MESSAGE then authenticateLeg L K ctx req.securityBuffer
        else ctx.closeContext
    | _ => ctx.raise .payloadConfusion

/-! ## Negotiation -/

/-- The dialects that `smb2_negotiate_request_cb` accepts for `smb2->version`. -/
def acceptedDialects : Version → List Nat
  | .dialect d => [d]
  | version => offeredDialects version

/-- The last dialect in the request that the server accepts. -/
def commonDialect (version : Version) (dialects : List Nat) : Option Nat :=
  dialects.reverse.find? fun d => d ∈ acceptedDialects version && d != 0

/-- Another negotiate request is expected. -/
def negotiateAgain (L : Library) (K : Crypto) (ctx : Context) : Context :=
  let ctx := expectRequest ctx .negotiate .negotiateRequestCb
  sendReply K (errorReply L ctx .negotiate STATUS_INVALID_PARAMETER)

/-- The request forces the server to sign. -/
def willSign (ctx : Context) (req : NegotiateRequest) : Bool :=
  req.securityMode &&& NEGOTIATE_SIGNING_REQUIRED != 0 ||
    ((!ctx.server.allowAnonymous || ctx.hasPassword) &&
      (ctx.dialect = VERSION_0210 || VERSION_0311 ≤ ctx.dialect))

/-- The client does not support the encryption that the server insists on. -/
def refusesSealing (ctx : Context) (req : NegotiateRequest) : Bool :=
  ctx.sealing && (ctx.dialect = VERSION_0300 || ctx.dialect = VERSION_0302) &&
    req.capabilities &&& GLOBAL_CAP_ENCRYPTION = 0

/-- The versions for which a server announces encryption. -/
def announcesEncryption : Version → Bool
  | .any => true
  | .any2 => false
  | .any3 => true
  | .dialect d => d ∈ [VERSION_0300, VERSION_0302, VERSION_0311]

/-- The reply to a negotiate request, and the request that the next message is read into. -/
def replyNegotiate (L : Library) (K : Crypto) (ctx : Context) (smb1 : Bool) : Context :=
  let mode := (if ctx.server.signingEnabled then NEGOTIATE_SIGNING_ENABLED else 0) |||
    (if ctx.sign then NEGOTIATE_SIGNING_REQUIRED else 0)
  let capabilities := if smb1 then 0 else
    GLOBAL_CAP_LARGE_MTU ||| (if announcesEncryption ctx.version then GLOBAL_CAP_ENCRYPTION else 0)
  let ctx := { ctx with securityMode := mode }
  let rep : NegotiateReply := {
    securityMode := mode
    dialectRevision := ctx.dialect
    cypher := ctx.cypher
    capabilities := capabilities }
  match newReply ctx .negotiate STATUS_SUCCESS (L.negotiateReply ctx rep) with
  | (none, ctx) => ctx
  | (some p, ctx) =>
    let ctx := replyAndHash L K ctx p
    if ctx.fault = none then
      if smb1 then expectRequest ctx .negotiate .negotiateRequestCb
      else expectRequest ctx .sessionSetup .sessionSetupRequestCb
    else ctx

/-- `smb2_negotiate_request_cb`.  An SMB1 request has no payload. -/
def negotiateRequestCb (L : Library) (K : Crypto) (rx : Receiver) (status : Nat)
    (payload : Payload) (ctx : Context) : Context :=
  if status ≠ STATUS_SUCCESS then ctx
  else
    let ctx := { ctx with credits := 128 }
    match payload with
    | .null =>
      let ctx := initPreauthHash { ctx with dialect := VERSION_WILDCARD }
      replyNegotiate L K (updatePreauthHash K ctx rx.messageVectors) true
    | .negotiateRequest req =>
      if req.dialects = [] then negotiateAgain L K ctx
      else match commonDialect ctx.version req.dialects with
        | none => { ctx with dialect := 0 }.closeContext
        | some dialect =>
          let ctx := initPreauthHash { ctx with dialect := dialect }
          let ctx := updatePreauthHash K ctx rx.messageVectors
          if refusesSealing ctx req then ctx.closeContext
          else if ctx.sealing then replyNegotiate L K { ctx with sign := false } false
          else if willSign ctx req then
            if ctx.server.signingEnabled then replyNegotiate L K { ctx with sign := true } false
            else ctx.closeContext
          else replyNegotiate L K ctx false
    | _ => ctx.raise .payloadConfusion

/-! ## General requests -/

/-- The callback of a command.  The command is that of the current request. -/
def commandCb (L : Library) (K : Crypto) (rx : Receiver) (payload : Payload) (command : Command)
    (ctx : Context) : Context :=
  match command with
  | .logoff =>
    let ctx := logoffRequestCb L K ctx
    if ctx.fault = none then ctx.emit .loggedOff else ctx
  | .treeConnect => treeConnectRequestCb L K ctx
  | .treeDisconnect => treeDisconnectRequestCb L K rx.hdr.treeId ctx
  | .create => createRequestCb L K payload ctx
  | .close => closeRequestCb L K ctx
  | .flush => flushRequestCb L K ctx
  | .read => readRequestCb L K ctx
  | .write => writeRequestCb L K ctx
  | .oplockBreak => oplockBreakRequestCb L K payload ctx
  | .lock => lockRequestCb L K ctx
  | .ioctl => ioctlRequestCb L K payload ctx
  | .cancel => cancelRequestCb L K ctx
  | .echo => echoRequestCb L K ctx
  | .queryDirectory => queryDirectoryRequestCb L K payload ctx
  | .changeNotify => changeNotifyRequestCb L K ctx
  | .queryInfo => queryInfoRequestCb L K payload ctx
  | .setInfo => setInfoRequestCb L K ctx
  -- the error string only
  | _ => ctx

/-- The command and the callback of the request that follows one with this command. -/
def following (command : Command) : Command × Callback :=
  if command = .logoff then (.sessionSetup, .sessionSetupRequestCb)
  else (.treeConnect, .generalClientRequestCb)

/-- `smb2_general_client_request_cb`. -/
def generalClientRequestCb (L : Library) (K : Crypto) (rx : Receiver) (status : Nat)
    (payload : Payload) (ctx : Context) : Context :=
  match ctx.pdu with
  | none => ctx.closeContext
  | some p =>
    if status = STATUS_CANCELLED ∨ status = STATUS_SHUTDOWN then ctx
    else if p.header.command = .sessionSetup then sessionSetupRequestCb L K rx status payload ctx
    else
      let ctx := commandCb L K rx payload p.header.command ctx
      if ctx.fault = none then
        expectRequest ctx (following p.header.command).1 (following p.header.command).2
      else ctx

/-! ## The context of a server -/

/-- The callback of a request runs. -/
def invokeServer (L : Library) (K : Crypto) (rx : Receiver) (p : Pdu) (status : Nat)
    (payload : Payload) (ctx : Context) : Context :=
  let ctx := ctx.emit (.completed p.id status)
  match p.cb with
  | .negotiateRequestCb => negotiateRequestCb L K rx status payload ctx
  | .sessionSetupRequestCb => sessionSetupRequestCb L K rx status payload ctx
  | .generalClientRequestCb => generalClientRequestCb L K rx status payload ctx
  | _ => react K ctx

end Libsmb2
