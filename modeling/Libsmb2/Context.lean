import Libsmb2.Header

/-!
# Contexts, requests and the environment

`struct smb2_pdu` and the part of `struct smb2_context` that the send and receive paths,
the timeout and teardown loops and the session callbacks read or write.

The source links requests through `next` and `next_compound` pointers.  Here the two
queues are lists, a compound chain is a value of `Chain` (a head and the members behind
its `next_compound`, so a chain is never empty), and what a pointer identifies is the
`id` a request gets when it is allocated.

Everything the program does not decide itself comes from the scripts of `Env`: how many
octets the transport takes, whether an allocation succeeds, which octets `random()`
returns, and what the application does inside the callbacks it registered.  A script
that has run out answers with the quiet outcome (would block, success, zero, nothing).

The two `seal` bits of the source are `Context.sealing` and `Pdu.sealed` (`seal` is a word
of Lean's).  `wire`, `log`, `releases`, `ledger` and the `id`s are bookkeeping for the
statements; no function branches on them.
-/

set_option autoImplicit false

namespace Libsmb2

open Util

/-- The command callbacks a request can carry: `none` is a `NULL` pointer, `app` one that
the application registered, `owned` one on a request that was made with `caller_frees_pdu` (as
`smb2_open` and `smb2_opendir` make theirs), the others are the library's own. -/
inductive Callback
  | none
  | app (n : Nat)
  | owned (n : Nat)
  | negotiateCb
  | sessionSetupCb
  | treeConnectCb
  | oplockBreakNotify
  | negotiateRequestCb
  | sessionSetupRequestCb
  | generalClientRequestCb
  deriving DecidableEq, Repr

/-- `struct smb2_negotiate_reply`, as far as its decoder and `negotiate_cb` read it. -/
structure NegotiateReply where
  securityMode : Nat := 0
  dialectRevision : Nat := 0
  cypher : Nat := 0
  capabilities : Nat := 0
  securityBufferOffset : Nat := 0
  securityBufferLength : Nat := 0
  negotiateContextCount : Nat := 0
  negotiateContextOffset : Nat := 0
  securityBuffer : Bytes := []
  deriving DecidableEq, Repr

/-- `struct smb2_session_setup_reply`. -/
structure SessionSetupReply where
  sessionFlags : Nat := 0
  securityBuffer : Bytes := []
  deriving DecidableEq, Repr

/-- `struct smb2_negotiate_request`, as far as `smb2_negotiate_request_cb` reads it. -/
structure NegotiateRequest where
  securityMode : Nat := 0
  capabilities : Nat := 0
  dialects : List Nat := []
  deriving DecidableEq, Repr

/-- `struct smb2_session_setup_request`, as far as the server's callback reads it. -/
structure SessionSetupRequest where
  securityBuffer : Bytes := []
  deriving DecidableEq, Repr

/-- `break_type` of a decoded oplock or lease break. -/
inductive BreakType
  | oplockNotification
  | oplockResponse
  | leaseNotification
  | leaseResponse
  deriving DecidableEq, Repr

/-- `struct smb2_oplock_or_lease_break_reply`, as far as `smb2_oplock_break_notify` reads it:
the file id of an oplock, or the flags and the key of a lease. -/
structure BreakReply where
  breakType : BreakType
  fileId : Bytes := []
  leaseFlags : Nat := 0
  leaseKey : Bytes := []
  deriving DecidableEq, Repr

/-- `pdu->payload`: what a decoder leaves behind.  The callbacks of the application get
the payloads the library does not look into as the octets they were decoded from. -/
inductive Payload
  | null
  | negotiateReply (rep : NegotiateReply)
  | sessionSetupReply (rep : SessionSetupReply)
  | negotiateRequest (req : NegotiateRequest)
  | sessionSetupRequest (req : SessionSetupRequest)
  | breakReply (rep : BreakReply)
  | other (command : Command) (octets : Bytes)
  deriving DecidableEq, Repr

/-- `struct smb2_pdu`, without its links.  `out` are the vectors to send, the first of
them the encoded header; `inIov` the lengths of the vectors the application supplied for
the reply. -/
structure Pdu where
  id : Nat := 0
  header : Header := {}
  cb : Callback := .none
  out : List Bytes := []
  numDone : Nat := 0
  inIov : List Nat := []
  payload : Payload := .null
  sealed : Bool := false
  crypt : Bytes := []
  timeout : Nat := 0
  prevCompoundMid : Nat := 0
  deriving DecidableEq, Repr

/-- `caller_frees_pdu`. -/
def Pdu.callerFrees (p : Pdu) : Bool :=
  match p.cb with
  | .owned _ => true
  | _ => false

/-- The octets of a request, all vectors in order. -/
def Pdu.octets (p : Pdu) : Bytes := p.out.flatten

/-- A request and the requests chained behind it by `next_compound`. -/
structure Chain where
  head : Pdu
  rest : List Pdu := []
  deriving DecidableEq, Repr

namespace Chain

def members (c : Chain) : List Pdu := c.head :: c.rest

/-- The plain octets of the whole chain. -/
def octets (c : Chain) : Bytes := (c.members.map Pdu.octets).flatten

/-- The number of vectors of the whole chain. -/
def niov (c : Chain) : Nat := (c.members.map fun p => p.out.length).sum

def single (p : Pdu) : Chain := ⟨p, []⟩

def ids (c : Chain) : List Nat := c.members.map Pdu.id

end Chain

/-- What an application can do with a context, from outside or inside a callback. -/
inductive Action
  /-- An `smb2_cmd_*_async` call: allocate a request and marshal its body. -/
  | alloc (command : Command) (body : List Bytes) (cb : Callback) (creditCharge : Option Nat)
      (inIov : List Nat)
  /-- `smb2_add_compound_pdu`. -/
  | compound (pdu nextPdu : Nat)
  /-- `smb2_queue_pdu`. -/
  | queue (pdu : Nat)
  /-- `smb2_free_pdu`. -/
  | free (pdu : Nat)
  | setSign (b : Bool)
  | setSeal (b : Bool)
  | setTimeout (seconds : Nat)
  /-- The clock advances. -/
  | tick (seconds : Nat)
  /-- `smb2_close_context`. -/
  | close
  deriving DecidableEq, Repr

/-- One answer of the transport's `queue_write`. -/
inductive WriteResult
  | accept (n : Nat)
  | eagain
  | error
  deriving DecidableEq, Repr

/-- What a handler of the server's application returns, and the length of the data it
answers a query with. -/
structure Answer where
  ret : Int := 0
  outputLength : Nat := 0
  deriving DecidableEq, Repr

/-- The scripts of the environment. -/
structure Env where
  tx : List WriteResult := []
  mem : List Bool := []
  rand : Bytes := []
  reactions : List (List Action) := []
  /-- The oplock levels and lease states that the application answers break notifications
  with. -/
  breaks : List Nat := []
  answers : List Answer := []
  deriving DecidableEq, Repr

/-- `struct auth_data`, as far as the exchange of tokens reads it. -/
structure AuthData where
  spnegoWrap : Bool := false
  /-- `server_challenge` has been set. -/
  challenged : Bool := false
  isAuthenticated : Bool := false
  exportedSessionKey : Bytes := zeros KEY_SIZE
  deriving DecidableEq, Repr

/-- `struct smb2_server_request_handlers`: which of them are registered. -/
structure Handlers where
  commands : List Command := []
  leaseBreak : Bool := false
  sessionEstablished : Bool := false
  deriving DecidableEq, Repr

/-- `struct smb2_server`. -/
structure Server where
  handlers : Option Handlers := none
  allowAnonymous : Bool := false
  signingEnabled : Bool := false
  sessionCounter : Nat := 0x1234
  /-- `s_tree_id`. -/
  treeCounter : Nat := 0xfeedface
  deriving DecidableEq, Repr

/-- Undefined behaviour that the source can run into. -/
inductive Fault
  | heapOverflow
  | vectorOverrun
  | nullPdu
  | nullCallback
  | nullAuthData
  | stalePdu
  | payloadConfusion
  | outOfFuel
  deriving DecidableEq, Repr

inductive TransportType
  | tcp
  | ext
  deriving DecidableEq, Repr

/-- `enum smb2_negotiate_version`. -/
inductive Version
  | any
  | any2
  | any3
  | dialect (d : Nat)
  deriving DecidableEq, Repr

/-- `enum smb2_sec` of a build without Kerberos. -/
inductive Sec
  | undefined
  | ntlmssp
  deriving DecidableEq, Repr

/-- The three protection keys. -/
inductive KeyName
  | signing
  | serverin
  | serverout
  deriving DecidableEq, Repr

/-- The fields of a context that decide how a request is protected. -/
structure Security where
  sign : Bool
  sealing : Bool
  sessionId : Nat
  sessionKey : Bytes
  dialect : Nat
  signingKey : Bytes
  serverinKey : Bytes
  deriving DecidableEq, Repr

/-- The outcome of a negotiation: what a client had offered and asked for, and the reply it
accepted. -/
structure Negotiation where
  offered : List Nat
  sealing : Bool
  rep : NegotiateReply
  deriving DecidableEq, Repr

/-- The end of a session setup: the settings of the moment, the header of the last reply,
its octets, and whether it was the first message of a plain frame. -/
structure Admission where
  sign : Bool
  dialect : Nat
  signingKey : Bytes
  hdr : Header
  vectors : List Bytes
  alone : Bool
  deriving DecidableEq, Repr

/-- The state in which a session setup decided whether to derive the keys. -/
structure Setup where
  sign : Bool
  sealing : Bool
  dialect : Nat
  /-- The session key, if the exchange of tokens has just left one. -/
  sessionKey : Option Bytes
  deriving DecidableEq, Repr

/-- The functions that an application passes a request to. -/
inductive Call
  | compound
  | queue
  | free
  deriving DecidableEq, Repr

/-- Where a request is: with the application, at the head of a chain in the out queue, in the
wait queue, complete and left to its caller, in `smb2->pdu`, behind the head of a chain, or
nowhere. -/
inductive Place
  | held
  | queued
  | waiting
  | kept
  | receiving
  | inside
  | gone
  deriving DecidableEq, Repr

/-- An entry of a queue that `smb2_timeout_pdus` finds expired: the request, the members
behind it, whether it is the current one, and whether the callback that is about to run frees
the entry that the loop goes on with. -/
structure Lapse where
  pdu : Pdu
  behind : List Pdu
  current : Bool
  freesNext : Bool
  deriving DecidableEq, Repr

/-- A request that was released: whether its caller had to do that, and whether it did. -/
structure Release where
  id : Nat
  owned : Bool
  byCaller : Bool
  deriving DecidableEq, Repr

/-- What concerns the credits of a client: a request was allocated while these others were not
sent yet, a received header granted credits, a request was sent and moved to the wait queue. -/
inductive Item
  | asked (p : Pdu) (unsent : List Pdu)
  | granted (messageId credits : Nat)
  | moved (p : Pdu)
  deriving DecidableEq, Repr

/-- An entry of the ledger: how many events had been logged by then, what happened, and the
credits after it. -/
structure Posting where
  place : Nat
  item : Item
  credits : Int
  deriving DecidableEq, Repr

/-- What the statements of this development observe of a run. -/
inductive Event
  /-- A chain was handed to `smb2_queue_pdu`. -/
  | queued (c : Chain) (sec : Security)
  /-- `smb2_add_to_outqueue`. -/
  | enqueued (c : Chain)
  /-- `smb2_write_to_socket` handed what is left of a chain to the transport. -/
  | offered (c : Chain) (sec : Security)
  /-- A chain left the out queue without having been sent. -/
  | removed (c : Chain)
  /-- A waiting request timed out; the flag says that it was the current one. -/
  | expired (pdu : Nat) (current : Bool)
  /-- The application passed a request in this place to a function. -/
  | passed (call : Call) (place : Place)
  /-- `smb2_timeout_pdus` came to an entry that has expired. -/
  | lapsed (l : Lapse)
  /-- A command callback ran. -/
  | completed (pdu : Nat) (status : Nat)
  /-- `smb2_create_signing_key` wrote this key from this session key. -/
  | derived (name : KeyName) (key sessionKey : Bytes)
  /-- A key was used to sign, seal or open. -/
  | used (name : KeyName) (key : Bytes)
  /-- There was no memory to sign or to seal this request. -/
  | unprotected (name : KeyName) (pdu : Nat)
  /-- `smb2_close_context`. -/
  | closed
  /-- A key was derived while the transcript hash had this value. -/
  | transcript (preauthhash : Bytes)
  /-- `negotiate_cb` accepted a reply. -/
  | negotiated (n : Negotiation)
  /-- `session_setup_cb` came to the tree connect. -/
  | admitted (a : Admission)
  /-- A session setup was complete, or a leg of it on the server. -/
  | setUp (s : Setup)
  /-- The callback of `smb2_connect_share_async` ran. -/
  | connected (ret : Int)
  /-- A server issued a challenge, and so began a session. -/
  | challenged
  /-- A server accepted an AUTHENTICATE message; the flag says that it had issued a
  challenge before. -/
  | authenticated (afterChallenge : Bool)
  /-- The handler `session_established` returned 0. -/
  | established
  /-- A handler of the server's application was called. -/
  | handled (command : Command)
  /-- A server answered a LOGOFF. -/
  | loggedOff
  /-- The vectors of a reply went into the transcript hash; the flag says that it had not been
  freed. -/
  | hashed (pdu : Nat) (alive : Bool)
  deriving DecidableEq, Repr

/-- `struct smb2_context`, without the receive machinery (`Receiver`). -/
structure Context where
  transportType : TransportType := .tcp
  connected : Bool := true
  isServer : Bool := false
  passthrough : Bool := false
  version : Version := .any
  sec : Sec := .undefined
  securityMode : Nat := 0
  cypher : Nat := 0
  dialect : Nat := 0
  sign : Bool := false
  sealing : Bool := false
  sessionId : Nat := 0
  sessionKey : Bytes := []
  signingKey : Bytes := zeros KEY_SIZE
  serverinKey : Bytes := zeros KEY_SIZE
  serveroutKey : Bytes := zeros KEY_SIZE
  preauthhash : Bytes := zeros 64
  messageId : Nat := 0
  asyncId : Nat := 0
  credits : Int := 0
  treeIds : List Nat := [0]
  treeCur : Nat := 0
  outqueue : List Chain := []
  waitqueue : List Pdu := []
  pdu : Option Pdu := none
  nextPdu : Option Pdu := none
  authData : Option AuthData := none
  server : Server := {}
  hasPassword : Bool := false
  timeout : Nat := 0
  now : Nat := 0
  nextId : Nat := 1
  held : List Chain := []
  /-- Complete requests that their caller has to free. -/
  kept : List Nat := []
  /-- The requests of a client that `smb2_free_pdu` has released. -/
  releases : List Release := []
  /-- What happened to the credits of a client. -/
  ledger : List Posting := []
  env : Env := {}
  wire : Bytes := []
  log : List Event := []
  fault : Option Fault := none
  deriving DecidableEq, Repr

namespace Context

def emit (ctx : Context) (e : Event) : Context := { ctx with log := ctx.log ++ [e] }

def post (ctx : Context) (i : Item) : Context :=
  { ctx with ledger := ctx.ledger ++ [⟨ctx.log.length, i, ctx.credits⟩] }

/-- The requests that have been allocated and not been sent. -/
def unsent (ctx : Context) : List Pdu := (ctx.held ++ ctx.outqueue).flatMap Chain.members

def raise (ctx : Context) (f : Fault) : Context := { ctx with fault := some f }

def security (ctx : Context) : Security where
  sign := ctx.sign
  sealing := ctx.sealing
  sessionId := ctx.sessionId
  sessionKey := ctx.sessionKey
  dialect := ctx.dialect
  signingKey := ctx.signingKey
  serverinKey := ctx.serverinKey

/-- The next answer of the allocator. -/
def allocOk (ctx : Context) : Bool := ctx.env.mem.headD true

def popMem (ctx : Context) : Context :=
  { ctx with env := { ctx.env with mem := ctx.env.mem.tail } }

/-! ## Tree ids -/

/-- The macro `smb2_tree_id`. -/
def treeId (ctx : Context) : Nat := ctx.treeIds.getD ctx.treeCur 0xdeadbeef

/-- `smb2_select_tree_id`. -/
def selectTreeId (ctx : Context) (tid : Nat) : Context :=
  match (ctx.treeIds.drop 1).findIdx? (· == tid) with
  | some i => { ctx with treeCur := i + 1 }
  | none => ctx

/-- `smb2_connect_tree_id`. -/
def connectTreeId (ctx : Context) (tid : Nat) : Context :=
  if ctx.treeIds.length - 1 < MAX_TREE_NESTING - 1 then
    { ctx with treeIds := ctx.treeIds ++ [tid], treeCur := ctx.treeIds.length }
  else ctx

/-- `smb2_disconnect_tree_id`. -/
def disconnectTreeId (ctx : Context) (tid : Nat) : Context :=
  match (ctx.treeIds.drop 1).findIdx? (· == tid) with
  | some i =>
    let ids := ctx.treeIds.eraseIdx (i + 1)
    { ctx with treeIds := ids, treeCur := min ctx.treeCur (ids.length - 1) }
  | none => ctx

/-- `smb2_find_pdu`. -/
def findPdu (ctx : Context) (mid : Nat) : Option Pdu :=
  ctx.waitqueue.find? fun p => p.header.messageId == mid

/-- `SMB2_LIST_REMOVE` on the wait queue. -/
def delist (ctx : Context) (id : Nat) : Context :=
  { ctx with waitqueue := ctx.waitqueue.filter fun p => p.id != id }

/-- `smb2_free_pdu`: the request leaves both queues, and the members chained behind it go
with it. -/
def freePdu (ctx : Context) (id : Nat) : Context :=
  { ctx with
    outqueue := ctx.outqueue.filter fun c => c.head.id != id
    waitqueue := ctx.waitqueue.filter fun p => p.id != id
    log := ctx.log ++ (ctx.outqueue.filter fun c => c.head.id == id).map .removed }

/-- These requests have been released. -/
def noteRelease (ctx : Context) (byCaller : Bool) (ps : List Pdu) : Context :=
  { ctx with releases := ctx.releases ++ ps.map fun p => ⟨p.id, p.callerFrees, byCaller⟩ }

/-- `smb2_close_context`. -/
def closeContext (ctx : Context) : Context :=
  { ctx with
    connected := false
    messageId := 0
    sessionId := 0
    treeIds := [0xdeadbeef]
    treeCur := 0
    signingKey := zeros KEY_SIZE
    sessionKey := []
    log := ctx.log ++ [.closed] }

/-- `smb2_allocate_pdu`, with the vectors and the credit charge that the marshalling
functions of the commands add to the request. -/
def allocatePdu (ctx : Context) (command : Command) (cb : Callback) : Option Pdu × Context :=
  if ctx.allocOk then
    let charge := if ctx.dialect = VERSION_0202 ∨ command = .negotiate then 0 else 1
    let tid := if command ∈ [.negotiate, .sessionSetup, .logoff, .echo, .treeConnect] then 0
      else ctx.treeId
    let header : Header := {
      protocolId := Header.smb2sign
      structSize := HEADER_SIZE
      command := command
      creditCharge := charge
      creditRequestResponse := ((MAX_CREDITS - ctx.credits) % 65536).toNat
      processId := 0xFEFF
      treeId := tid
      sessionId := if command = .negotiate then 0 else ctx.sessionId
      signature := zeros SIGNATURE_SIZE }
    let pdu : Pdu := {
      id := ctx.nextId
      header := header
      cb := cb
      out := [zeros HEADER_SIZE]
      sealed := ctx.sealing && !(command = .negotiate || command = .sessionSetup)
      timeout := if ctx.timeout = 0 then 0 else ctx.now + ctx.timeout }
    (some pdu, { ctx.popMem with nextId := ctx.nextId + 1 })
  else (none, ctx.popMem)

end Context

end Libsmb2
