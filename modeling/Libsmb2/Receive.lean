import Libsmb2.Send

/-!
# The receive path

`smb2_read_data`, the resumable state machine behind `smb2_read_from_socket`,
`smb2_read_from_ext` and `smb2_read_from_buf`.

* `phase` is the body of the `switch` and what follows it: it runs when all octets of the
  current phase are there.  Where the source jumps to `read_more_data`, returns, or starts
  the machine anew on a decrypted buffer, `phase` says so with a `Flow`.
* `readBuf` drives the machine from a decrypted buffer, `readFromSocket` from a transport
  that answers each read with some octets, with would-block, or with an error.

The input vectors all lie in the order in which their octets arrive, so the memory they
point to is kept as the octets received since the vectors were set up.  One buffer is
shared: every header vector points at `smb2->header`, and so reads the last header
(`Receiver.content`).  The local variables of `smb2_read_data` are `Locals`; they do not
survive a return.

The command decoders and the callbacks are the parameter `Hooks`.  Which of them runs, on
what, and after which checks is decided here.
-/

set_option autoImplicit false

namespace Libsmb2

open Util

/-- `enum smb2_recv_state`. -/
inductive RecvState
  | spl
  | header
  | fixed
  | variable
  | pad
  | trfm
  | unknown
  deriving DecidableEq, Repr

/-- An input vector: its length, and whether it points at the one header buffer. -/
structure IoVec where
  isHeader : Bool
  len : Nat
  deriving DecidableEq, Repr

/-- The decoder that the tables of `pdu.c` select. -/
inductive Decoder
  | error
  | reply (command : Command)
  | request (command : Command)
  deriving DecidableEq, Repr

/-- A callback invocation by the receive path: the request, the header of the message it
was invoked for, the octets of that message, whether they came out of a transform frame,
and the context before the call. -/
structure Dispatch where
  pdu : Pdu
  hdr : Header
  octets : Bytes
  enc : Bool
  ctx : Context
  deriving DecidableEq, Repr

/-- What the receive path did, in order. -/
inductive RxEvent
  /-- The request of a reply with this header is looked up in this context. -/
  | matched (hdr : Header) (ctx : Context)
  /-- A server reads the request with this header into the current one. -/
  | requested (hdr : Header) (pdu : Pdu)
  | decodedFixed (decoder : Decoder) (hdr : Header)
  | decodedVariable (decoder : Decoder) (hdr : Header)
  | dispatched (d : Dispatch)
  /-- A passthrough context handed an interim reply to the callback. -/
  | pending (d : Dispatch)
  deriving DecidableEq, Repr

/-- The fields of `struct smb2_context` that belong to the receive machinery. -/
structure Receiver where
  state : RecvState := .spl
  spl : Nat := 0
  hdr : Header := {}
  iov : List IoVec := []
  /-- `in.total_size`, as the functions that set up the vectors keep it. -/
  total : Nat := 0
  numDone : Nat := 0
  received : Bytes := []
  payloadOffset : Nat := 0
  enc : Bool := false
  log : List RxEvent := []
  deriving DecidableEq, Repr

namespace Receiver

/-- The length of all vectors.  The drivers below compare with it; that `total` is the same
number whenever the source compares with that is a theorem about its counting. -/
def totalSize (rx : Receiver) : Nat := (rx.iov.map IoVec.len).sum

/-- Where the octets of vector `i` start. -/
def offset (rx : Receiver) (i : Nat) : Nat := ((rx.iov.take i).map IoVec.len).sum

/-- The index of the last header vector. -/
def headerIndex (rx : Receiver) : Nat :=
  rx.iov.length - 1 - rx.iov.reverse.findIdx IoVec.isHeader

/-- `smb2->header`. -/
def header (rx : Receiver) : Bytes := slice rx.received (rx.offset rx.headerIndex) HEADER_SIZE

/-- What vector `i` points at. -/
def content (rx : Receiver) (i : Nat) (v : IoVec) : Bytes :=
  if v.isHeader then rx.header.take v.len else slice rx.received (rx.offset i) v.len

/-- The value of `iov_offset` that belongs to the message being received: its header is
vector `1 + iov_offset`. -/
def memberOffset (rx : Receiver) : Nat := rx.headerIndex - 1

/-- The octets of the message being received, header included. -/
def member (rx : Receiver) : Bytes := rx.received.drop (rx.payloadOffset - HEADER_SIZE)

def emit (rx : Receiver) (e : RxEvent) : Receiver := { rx with log := rx.log ++ [e] }

/-- The vectors from `first` on, as `smb2_calc_signature` sees them once it has cleared
the signature in the buffer of the first one. -/
def signedVectors (rx : Receiver) (first : Nat) : List Bytes :=
  let shared := ((rx.iov.drop first).head?.map IoVec.isHeader).getD false
  (rx.iov.zipIdx.drop first).map fun (v, i) =>
    if shared && v.isHeader then patch (rx.content i v) 48 (zeros SIGNATURE_SIZE)
    else rx.content i v

end Receiver

/-- A whole `struct smb2_context`. -/
structure Smb2 where
  ctx : Context := {}
  rx : Receiver := {}
  deriving DecidableEq, Repr

/-- The reasons for which the receive path gives up. -/
inductive ReadError
  | readFailed
  | remoteClosed
  | tooManyVectors
  | outOfMemory
  | badHeader
  | nonReply
  | nonRequest
  | noPduForRequest
  | noMatchingPdu
  | compoundOutOfOrder
  | noFixedSize
  | fixedPayload
  | variablePayload
  | negativePad
  | tooFewVectors
  | wrongSignature
  | decryptFailed
  deriving DecidableEq, Repr

/-- What a decoder can change in the context. -/
structure Effects where
  sessionId : Option Nat := none
  sealing : Bool := false
  connectTree : Option Nat := none
  disconnectTree : Option Nat := none
  deriving DecidableEq, Repr

/-- The result of a decoder: its return value, the payload, and its effects. -/
structure Decoded where
  ret : Int
  payload : Payload
  effects : Effects := {}
  deriving DecidableEq, Repr

/-- The decoders of the messages. -/
structure Decoders where
  decodeFixed : Decoder → Receiver → Context → Pdu → Decoded
  decodeVariable : Decoder → Receiver → Context → Pdu → Decoded

/-- The decoders and the callbacks.  A callback may do anything to the context except
change its role or `smb2->pdu`, which only the receive path sets; it does not call
`smb2_read_data` again. -/
structure Hooks where
  decodeFixed : Decoder → Receiver → Context → Pdu → Decoded
  decodeVariable : Decoder → Receiver → Context → Pdu → Decoded
  invoke : Receiver → Pdu → Nat → Context → Context
  invoke_isServer : ∀ rx p st ctx, (invoke rx p st ctx).isServer = ctx.isServer
  invoke_pdu : ∀ rx p st ctx, (invoke rx p st ctx).pdu = ctx.pdu

/-- How a phase ends. -/
inductive Flow
  /-- `goto read_more_data`. -/
  | more (s : Smb2)
  /-- A member of a compound was dispatched and the next header is expected. -/
  | chained (s : Smb2)
  /-- `return 0`. -/
  | done (s : Smb2)
  /-- `return -1`. -/
  | fail (e : ReadError) (s : Smb2)
  | fault (f : Fault) (s : Smb2)
  /-- A server drops what is left of the input and answers an SMB1 negotiate. -/
  | flush (s : Smb2)
  /-- `smb3_decrypt_pdu` goes on with this plain text. -/
  | decrypt (plain : Bytes) (s : Smb2)
  deriving DecidableEq, Repr

/-! ## Tables -/

/-- `smb2_is_error_response`. -/
def isErrorResponse (hdr : Header) : Bool :=
  if hdr.status &&& STATUS_SEVERITY_MASK = STATUS_SEVERITY_ERROR then
    hdr.status != STATUS_MORE_PROCESSING_REQUIRED
  else if hdr.status &&& STATUS_SEVERITY_MASK = STATUS_SEVERITY_WARNING then
    hdr.status = STATUS_STOPPED_ON_SYMLINK
  else false

/-- `smb2_get_fixed_size`. -/
def getFixedSize (ctx : Context) (hdr : Header) (p : Pdu) : Option Nat :=
  if ctx.isServer then requestSize p.header.command
  else if isErrorResponse hdr then some (ERROR_REPLY_SIZE - ERROR_REPLY_SIZE % 2)
  else replySize p.header.command

/-- The decoder that `smb2_process_payload_fixed` and `smb2_process_payload_variable`
select. -/
def decoderFor (ctx : Context) (hdr : Header) (p : Pdu) : Decoder :=
  if ctx.isServer then .request p.header.command
  else if isErrorResponse hdr then .error
  else .reply p.header.command

/-- The fixed parts that `smb2_process_payload_fixed` answers without a decoder. -/
def fixedConstant : Decoder → Option Int
  | .error => none
  | .reply c => if (replySize c).isSome then none else some 0
  | .request .treeDisconnect => some 0
  | .request .cancel => some 0
  | .request c => if (requestSize c).isSome then none else some (-1)

/-- Likewise for `smb2_process_payload_variable`. -/
def variableConstant : Decoder → Option Int
  | .error => none
  | .reply c =>
    if c ∈ [.negotiate, .sessionSetup, .create, .read, .queryDirectory, .changeNotify,
        .queryInfo, .ioctl, .oplockBreak] then none else some 0
  | .request c =>
    if c ∈ [.negotiate, .sessionSetup, .treeConnect, .create, .read, .write, .lock,
        .queryDirectory, .queryInfo, .setInfo, .ioctl, .oplockBreak] then none
    else if (requestSize c).isSome then some 0 else some (-1)

/-! ## Building blocks of a phase -/

/-- `smb2_add_iovector` on `smb2->in`. -/
def addIovector (s : Smb2) (isHeader : Bool) (len : Nat) : Option Smb2 :=
  if MAX_VECTORS ≤ s.rx.iov.length then none
  else some { s with rx := { s.rx with
    iov := s.rx.iov ++ [⟨isHeader, len⟩]
    total := s.rx.total + len } }

/-- Allocate a vector of `len` octets for the next phase and read it.  A negative length
is a huge one to `malloc`. -/
def expect (s : Smb2) (state : RecvState) (len : Int) : Flow :=
  if len < 0 then .fail .outOfMemory s
  else match addIovector s false len.toNat with
    | none => .fail .tooManyVectors s
    | some s' => .more { s' with rx := { s'.rx with state := state } }

/-- The octets between the end of the payload and the next member, or the end. -/
def padLength (rx : Receiver) : Int :=
  if rx.hdr.nextCommand ≠ 0 then
    toInt32 ((rx.hdr.nextCommand : Int) - (HEADER_SIZE + rx.numDone - rx.payloadOffset))
  else
    toInt32 (((rx.spl + SPL_SIZE) % 4294967296 : Nat) - rx.numDone) -
      (if rx.enc then SPL_SIZE else 0)

/-- What is left of the frame, as the phases that skip it compute it. -/
def restLength (rx : Receiver) (xfrm : Bool) : Int :=
  toInt32 (toInt32 ((rx.spl : Int) - rx.numDone) + (if xfrm then 0 else SPL_SIZE))

def applyEffects (ctx : Context) (e : Effects) : Context :=
  let ctx := match e.sessionId with
    | some sid => { ctx with sessionId := sid }
    | none => ctx
  let ctx := { ctx with sealing := ctx.sealing || e.sealing }
  let ctx := match e.connectTree with
    | some tid => ctx.connectTreeId tid
    | none => ctx
  match e.disconnectTree with
  | some tid => ctx.disconnectTreeId tid
  | none => ctx

/-- The decoder left its payload in the request. -/
def applyDecoded (ctx : Context) (p : Pdu) (d : Decoded) : Context :=
  { applyEffects ctx d.effects with pdu := some { p with payload := d.payload } }

/-! ## The end of a message -/

/-- The reply has to be verified before it is dispatched. -/
def mustVerify (s : Smb2) : Bool :=
  s.ctx.sign && s.rx.hdr.hasFlag FLAGS_SIGNED && s.rx.hdr.command != .sessionSetup

inductive Verdict
  | good
  | bad
  | outside
  deriving DecidableEq, Repr

/-- The signature check of `smb2_read_data` on the vectors from `1 + iov_offset` on. -/
def verify (K : Crypto) (s : Smb2) (iovOffset : Nat) : Verdict :=
  match s.rx.iov[1 + iovOffset]? with
  | none => .outside
  | some v =>
    if !v.isHeader && v.len < HEADER_SIZE then .outside
    else
      let signature := slice (s.rx.content (1 + iovOffset) { v with len := max v.len HEADER_SIZE })
        48 SIGNATURE_SIZE
      if signature = calcSignature K s.ctx (s.rx.signedVectors (1 + iovOffset)) then .good
      else .bad

def dispatchOf (s : Smb2) (p : Pdu) : Dispatch :=
  { pdu := p, hdr := s.rx.hdr, octets := s.rx.member, enc := s.rx.enc, ctx := s.ctx }

/-- The reply to `p` has been dispatched: `p` is freed, unless its caller does that. -/
def Context.retirePdu (ctx : Context) (p : Pdu) : Context :=
  if p.callerFrees then { ctx with kept := ctx.kept ++ [p.id] }
  else (ctx.freePdu p.id).noteRelease false [p]

/-- The context after a client has run the callback of the reply to `p`. -/
def afterReply (h : Hooks) (rx : Receiver) (p : Pdu) (ctx : Context) : Context :=
  { (h.invoke rx p rx.hdr.status ctx).retirePdu p with pdu := none }

/-- The context after a server has put the request `p` on the wait queue and run its
callback. -/
def afterRequest (h : Hooks) (rx : Receiver) (p : Pdu) (ctx : Context) : Context :=
  let ctx := h.invoke rx p rx.hdr.status { ctx with waitqueue := ctx.waitqueue ++ [p] }
  { ctx with pdu := ctx.nextPdu, nextPdu := none }

/-- After the callback: go on with the next member of the compound, or end the frame. -/
def endMember (s : Smb2) : Flow :=
  match s.ctx.fault with
  | some f => .fault f s
  | none =>
    if s.rx.hdr.nextCommand ≠ 0 then
      match addIovector s true HEADER_SIZE with
      | none => .fail .tooManyVectors s
      | some s' => .chained { s' with rx := { s'.rx with state := .header } }
    else .done { s with rx := { s.rx with numDone := 0 } }

/-- Run the callback of the message and drop the request. -/
def dispatch (h : Hooks) (s : Smb2) : Flow :=
  match s.ctx.pdu with
  | none => .fault .nullPdu s
  | some p =>
    if p.cb = .none then .fault .nullCallback s
    else endMember {
      ctx := if s.ctx.isServer then afterRequest h s.rx p s.ctx else afterReply h s.rx p s.ctx
      rx := s.rx.emit (.dispatched (dispatchOf s p)) }

/-- An interim reply: only a passthrough context shows it to the callback. -/
def dispatchPending (h : Hooks) (s : Smb2) : Flow :=
  let quiet : Flow := .done { s with rx := { s.rx with numDone := 0 } }
  if s.ctx.passthrough then
    match s.ctx.findPdu s.rx.hdr.messageId with
    | none => quiet
    | some p =>
      if p.cb = .none then .fault .nullCallback s
      else
        let ctx := h.invoke s.rx p s.rx.hdr.status s.ctx
        let rx := s.rx.emit (.pending (dispatchOf s p))
        match ctx.fault with
        | some f => .fault f { ctx := ctx, rx := rx }
        | none => .done { ctx := ctx, rx := { rx with numDone := 0 } }
  else quiet

/-- What follows the `switch`. -/
def complete (h : Hooks) (K : Crypto) (iovOffset : Nat) (s : Smb2) : Flow :=
  if s.rx.iov.length < 2 then .fail .tooFewVectors s
  else if s.rx.hdr.status = STATUS_PENDING then dispatchPending h s
  else if mustVerify s then
    match verify K s iovOffset with
    | .outside => .fault .heapOverflow s
    | .bad => .fail .wrongSignature s
    | .good => dispatch h s
  else dispatch h s

def padOrComplete (h : Hooks) (K : Crypto) (iovOffset : Nat) (s : Smb2) : Flow :=
  let len := padLength s.rx
  if len < 0 then .fail .negativePad s
  else if len > 0 then expect s .pad len
  else complete h K iovOffset s

/-! ## The phases -/

/-- `SMB2_RECV_SPL`. -/
def splPhase (s : Smb2) : Flow :=
  let s := { s with rx := { s.rx with spl := fromBe (s.rx.received.take SPL_SIZE), state := .header } }
  match addIovector s true HEADER_SIZE with
  | none => .fail .tooManyVectors s
  | some s => .more s

/-- The header opens a transform frame: twelve octets of the cipher text have been read
into the header buffer and are moved to a buffer of the size the frame announces. -/
def transformHeader (s : Smb2) : Flow :=
  let len := toInt32 ((s.rx.spl : Int) - TRANSFORM_HEADER_SIZE)
  if len < 0 then .fail .outOfMemory s
  else if MAX_VECTORS ≤ s.rx.iov.length then .fail .tooManyVectors s
  else if len < 12 then .fault .heapOverflow s
  else .more { s with rx := { s.rx with
    iov := s.rx.iov.dropLast ++ [⟨true, TRANSFORM_HEADER_SIZE⟩, ⟨false, len.toNat⟩]
    total := s.rx.total - 12 + len.toNat
    state := .trfm } }

/-- The effect of `smb2_decode_header` on the context. -/
def noteHeader (ctx : Context) (hdr : Header) : Context :=
  if hdr.command = .smb1Negotiate ∧ hdr.protocolId ≠ Header.smb2sign then ctx
  else
    let ctx :=
      if !hdr.hasFlag FLAGS_ASYNC_COMMAND && !hdr.hasFlag FLAGS_SERVER_TO_REDIR &&
          !(hdr.command ∈ [.negotiate, .sessionSetup, .logoff, .echo, .treeConnect]) then
        ctx.selectTreeId hdr.treeId
      else ctx
    if ctx.isServer then { ctx with messageId := hdr.messageId } else ctx

/-- Where the request for a reply comes from. -/
inductive Match
  | unknown (ctx : Context)
  | outOfOrder (ctx : Context)
  | noMemory (ctx : Context)
  | found (ctx : Context)
  deriving DecidableEq, Repr

/-- The request that an earlier reply left in `smb2->pdu` is freed. -/
def dropPdu (ctx : Context) : Context :=
  match ctx.pdu with
  | some q => { (ctx.freePdu q.id).noteRelease false [q] with pdu := none }
  | none => ctx

/-- Take the waiting request with the message id of the reply off the wait queue, unless
the member before it in its chain still waits. -/
def claimPdu (ctx : Context) (mid : Nat) : Match :=
  match ctx.findPdu mid with
  | none => .unknown ctx
  | some p =>
    if p.prevCompoundMid ≠ 0 ∧ (ctx.findPdu p.prevCompoundMid).isSome then
      .outOfOrder { ctx with pdu := some p }
    else .found { ctx.delist p.id with pdu := some p }

/-- The request of a reply: a break notification gets one made for it, any other reply
takes the waiting request with its message id. -/
def matchReply (ctx : Context) (hdr : Header) : Match :=
  if hdr.command = .oplockBreak ∧ hdr.messageId = 0xffffffffffffffff then
    match ctx.pdu with
    | some _ => .found ctx
    | none =>
      match ctx.allocatePdu .oplockBreak .oplockBreakNotify with
      | (none, ctx) => .noMemory ctx
      | (some p, ctx) => .found { ctx with pdu := some p }
  else claimPdu (dropPdu ctx) hdr.messageId

/-- The request a server reads into takes the fields of the header it answers. -/
def adoptHeader (p : Pdu) (hdr : Header) : Pdu :=
  let h := { p.header with
    messageId := hdr.messageId
    treeId := if hdr.hasFlag FLAGS_ASYNC_COMMAND then p.header.treeId else hdr.treeId
    command := if hdr.command.code > Command.sessionSetup.code then hdr.command
      else p.header.command
    creditCharge := hdr.creditCharge
    creditRequestResponse := hdr.creditRequestResponse }
  { p with header := h }

/-- Read the fixed part of the message for the current request. -/
def expectFixed (s : Smb2) : Flow :=
  match s.ctx.pdu with
  | none => .fault .nullPdu s
  | some p =>
    match getFixedSize s.ctx s.rx.hdr p with
    | none => .fail .noFixedSize s
    | some n => expect s .fixed ((n - n % 2 : Nat) : Int)

/-- A header that is a request to a server. -/
def requestHeader (s : Smb2) : Flow :=
  match s.ctx.pdu with
  | none => .fail .noPduForRequest s
  | some p => expectFixed {
      ctx := { s.ctx with pdu := some (adoptHeader p s.rx.hdr) }
      rx := s.rx.emit (.requested s.rx.hdr p) }

/-- The request of a reply has been looked up. -/
def matchedIn (s : Smb2) (ctx : Context) : Smb2 :=
  { ctx := ctx, rx := s.rx.emit (.matched s.rx.hdr s.ctx) }

/-- A header that is a reply to a client. -/
def replyHeader (xfrm : Bool) (s : Smb2) : Flow :=
  match matchReply s.ctx s.rx.hdr with
  | .unknown ctx =>
    let s := matchedIn s ctx
    let len := restLength s.rx xfrm
    if len > MAX_PDU_SIZE then .fail .noMatchingPdu s else expect s .unknown len
  | .outOfOrder ctx => .fail .compoundOutOfOrder (matchedIn s ctx)
  | .noMemory ctx => .fail .outOfMemory (matchedIn s ctx)
  | .found ctx => expectFixed (matchedIn s ctx)

/-- A decoded header that is not an SMB1 negotiate to a server. -/
def smb2Header (xfrm : Bool) (s : Smb2) : Flow :=
  let redir := s.rx.hdr.hasFlag FLAGS_SERVER_TO_REDIR
  if !s.ctx.isServer && !redir then .fail .nonReply s
  else if s.ctx.isServer && redir then .fail .nonRequest s
  else if s.rx.hdr.status = STATUS_PENDING then expect s .pad (restLength s.rx xfrm)
  else if s.ctx.isServer then requestHeader s
  else replyHeader xfrm s

/-- The credits a reply grants. -/
def grantCredits (ctx : Context) (hdr : Header) : Context :=
  if ctx.isServer then ctx
  else
    let ctx := { ctx with credits := ctx.credits + hdr.creditRequestResponse }
    ctx.post (.granted hdr.messageId hdr.creditRequestResponse)

/-- `SMB2_RECV_HEADER`. -/
def headerPhase (xfrm : Bool) (s : Smb2) : Flow :=
  if s.rx.header.take 4 = Header.smb3tfrm then transformHeader s
  else match Header.decode s.rx.header with
    | none => .fail .badHeader s
    | some hdr =>
      let s : Smb2 := { ctx := noteHeader s.ctx hdr, rx := { s.rx with hdr := hdr } }
      if s.ctx.isServer && hdr.command = .smb1Negotiate then .flush s
      else smb2Header xfrm {
        ctx := grantCredits s.ctx hdr
        rx := { s.rx with payloadOffset := s.rx.numDone } }

/-- The vectors the application supplied take the first octets of the variable part, a
buffer of our own the rest. -/
def expectVariable (s : Smb2) : List Nat → Nat → Flow
  | [], len => expect s .variable len
  | n :: ns, len =>
    match addIovector s false (min n len) with
    | none => .fail .tooManyVectors s
    | some s' =>
      if len - min n len = 0 then .more { s' with rx := { s'.rx with state := .variable } }
      else expectVariable s' ns (len - min n len)

/-- `smb2_process_payload_fixed`. -/
def fixedDecoded (h : Hooks) (s : Smb2) (p : Pdu) : Decoded :=
  match fixedConstant (decoderFor s.ctx s.rx.hdr p) with
  | some r => { ret := r, payload := p.payload }
  | none => h.decodeFixed (decoderFor s.ctx s.rx.hdr p) s.rx s.ctx p

/-- `smb2_process_payload_variable`. -/
def variableDecoded (h : Hooks) (s : Smb2) (p : Pdu) : Decoded :=
  match variableConstant (decoderFor s.ctx s.rx.hdr p) with
  | some r => { ret := r, payload := p.payload }
  | none => h.decodeVariable (decoderFor s.ctx s.rx.hdr p) s.rx s.ctx p

/-- `SMB2_RECV_FIXED`. -/
def fixedPhase (h : Hooks) (K : Crypto) (iovOffset : Nat) (s : Smb2) : Flow :=
  match s.ctx.pdu with
  | none => .fault .nullPdu s
  | some p =>
    let d := fixedDecoded h s p
    let s' : Smb2 := {
      ctx := applyDecoded s.ctx p d
      rx := s.rx.emit (.decodedFixed (decoderFor s.ctx s.rx.hdr p) s.rx.hdr) }
    if d.ret < 0 then .fail .fixedPayload s'
    else if d.ret = 0 then padOrComplete h K iovOffset s'
    else expectVariable s' p.inIov d.ret.toNat

/-- `SMB2_RECV_VARIABLE`. -/
def variablePhase (h : Hooks) (K : Crypto) (iovOffset : Nat) (s : Smb2) : Flow :=
  match s.ctx.pdu with
  | none => .fault .nullPdu s
  | some p =>
    let d := variableDecoded h s p
    let s' : Smb2 := {
      ctx := applyDecoded s.ctx p d
      rx := s.rx.emit (.decodedVariable (decoderFor s.ctx s.rx.hdr p) s.rx.hdr) }
    if d.ret < 0 then .fail .variablePayload s'
    else padOrComplete h K iovOffset s'

/-- `SMB2_RECV_TRFM` and `smb3_decrypt_pdu`, up to the nested run of the machine. -/
def transformPhase (K : Crypto) (s : Smb2) : Flow :=
  let hb := slice s.rx.received (s.rx.offset s.rx.headerIndex) TRANSFORM_HEADER_SIZE
  let ct := s.rx.received.drop (s.rx.offset s.rx.headerIndex + TRANSFORM_HEADER_SIZE)
  match K.ccmDecrypt s.ctx.serveroutKey (slice hb 20 11) (slice hb 20 32) ct (slice hb 4 16) with
  | none => .fail .decryptFailed { s with rx := { s.rx with numDone := 0 } }
  | some plain => .decrypt plain {
      ctx := s.ctx.emit (.used .serverout s.ctx.serveroutKey)
      rx := { s.rx with
        numDone := 0
        received := []
        iov := [⟨true, HEADER_SIZE⟩]
        total := HEADER_SIZE
        spl := plain.length % 4294967296
        state := .header
        enc := true } }

/-- The body of `smb2_read_data` once the current phase has all its octets. -/
def phase (h : Hooks) (K : Crypto) (xfrm : Bool) (iovOffset : Nat) (s : Smb2) : Flow :=
  match s.rx.state with
  | .spl => splPhase s
  | .header => headerPhase xfrm s
  | .fixed => fixedPhase h K iovOffset s
  | .variable => variablePhase h K iovOffset s
  | .pad => complete h K iovOffset s
  | .trfm => transformPhase K s
  | .unknown => .done { s with rx := { s.rx with numDone := 0 } }

/-- A server answers an SMB1 negotiate: the input has been flushed.  `stale` says that the
local `pdu` of `smb2_read_data` still is the one of an earlier member of the chain. -/
def smb1Negotiate (h : Hooks) (stale : Bool) (s : Smb2) : Flow :=
  match s.ctx.pdu with
  | none => .fault .nullPdu s
  | some p =>
    if stale then .fault .stalePdu s
    else if p.cb = .none then .fault .nullCallback s
    else
      let ctx := afterRequest h { s.rx with numDone := 0 } p s.ctx
      let s' : Smb2 := {
        ctx := ctx
        rx := { s.rx with numDone := 0 }.emit (.dispatched (dispatchOf s p)) }
      match ctx.fault with
      | some f => .fault f s'
      | none => .done s'

/-! ## Reading -/

/-- The local variables of `smb2_read_data`. -/
structure Locals where
  iovOffset : Nat := 0
  stale : Bool := false
  flushing : Bool := false
  deriving DecidableEq, Repr

/-- Octets arrive in the current vectors. -/
def store (s : Smb2) (bs : Bytes) : Smb2 :=
  { s with rx := { s.rx with
    received := s.rx.received ++ bs
    numDone := s.rx.numDone + bs.length } }

/-- The result of reading a decrypted buffer. -/
inductive BufResult
  | ok (s : Smb2)
  | error (e : ReadError) (s : Smb2)
  | fault (f : Fault) (s : Smb2)
  deriving DecidableEq, Repr

/-- `smb2_read_from_buf`.  Each turn takes what the current phase needs from the buffer;
the fuel is one more than its length. -/
def readBuf (h : Hooks) (K : Crypto) : Nat → Bytes → Smb2 → Locals → BufResult
  | 0, _, s, _ => .fault .outOfFuel s
  | fuel + 1, plain, s, l =>
    if s.rx.totalSize ≤ s.rx.numDone then .fault .vectorOverrun s
    else
      let want := s.rx.totalSize - s.rx.numDone
      if plain = [] then .error .remoteClosed s
      else
        let s := store s (plain.take want)
        let rest := plain.drop want
        if s.rx.numDone < s.rx.totalSize then readBuf h K fuel rest s l
        else match phase h K true l.iovOffset s with
          | .more s => readBuf h K fuel rest s l
          | .chained s =>
            readBuf h K fuel rest s { l with iovOffset := s.rx.iov.length - 2, stale := true }
          | .done s => .ok s
          | .fail e s => .error e s
          | .fault f s => .fault f s
          | .flush s =>
            match smb1Negotiate h l.stale s with
            | .done s => .ok s
            | .fault f s => .fault f s
            | _ => .ok s
          | .decrypt plain' s => readBuf h K fuel plain' s {}

/-- Where the machine stands after the octets of a read. -/
inductive Turn
  | next (s : Smb2) (l : Locals)
  | failed (e : ReadError) (s : Smb2)
  | faulted (f : Fault) (s : Smb2)
  deriving DecidableEq, Repr

/-- Follow the flow of a phase to the next read. -/
def settle (h : Hooks) (K : Crypto) (l : Locals) : Flow → Turn
  | .more s => .next s l
  | .chained s => .next s { l with iovOffset := s.rx.iov.length - 2, stale := true }
  | .done s => .next s {}
  | .fail e s => .failed e s
  | .fault f s => .faulted f s
  | .flush s => .next s { l with flushing := true }
  | .decrypt plain s =>
    match readBuf h K (plain.length + 1) plain s {} with
    | .ok s => .next { s with rx := { s.rx with enc := false } } {}
    | .error _ s => .failed .decryptFailed s
    | .fault f s => .faulted f s

/-- The octets of one read have arrived. -/
def arrive (h : Hooks) (K : Crypto) (s : Smb2) (l : Locals) (bs : Bytes) : Turn :=
  let s := store s bs
  if s.rx.numDone < s.rx.totalSize then .next s l
  else settle h K l (phase h K false l.iovOffset s)

/-- The preamble of `smb2_read_from_socket`: between frames the vectors are set up for a
new length prefix. -/
def start (s : Smb2) : Smb2 :=
  if s.rx.numDone = 0 then
    { s with rx := { s.rx with
      state := .spl
      spl := 0
      iov := [⟨false, SPL_SIZE⟩]
      total := SPL_SIZE
      received := [] } }
  else s

/-- What the next read of `smb2_read_data` meets before the transport is asked. -/
inductive Gate
  | overrun
  | closed
  | parked
  | ready
  deriving DecidableEq, Repr

def gate (s : Smb2) : Gate :=
  -- the search for the first vector with room runs off the end of the work vector
  if s.rx.totalSize ≤ s.rx.numDone then .overrun
  else if s.ctx.connected then .ready
  else match s.ctx.transportType with
    | .tcp => .closed
    | .ext => .parked

/-- The octets a read may return at most: `readv` fills all vectors, the external
transport is offered the first one only. -/
def offered (s : Smb2) : Nat :=
  match s.ctx.transportType with
  | .tcp => s.rx.totalSize - s.rx.numDone
  | .ext =>
    let ends := (List.range s.rx.iov.length).map fun i => s.rx.offset (i + 1)
    (ends.find? fun e => s.rx.numDone < e).getD s.rx.totalSize - s.rx.numDone

/-- One answer of the transport: between one and `n + 1` octets, would-block, end of
stream, or an error. -/
inductive Recv
  | data (n : Nat)
  | wouldBlock
  | closed
  | failed
  deriving DecidableEq, Repr

/-- How a sequence of calls of `smb2_read_from_socket` ends, with the octets of the
stream that were not read. -/
inductive Outcome
  | waiting (s : Smb2) (rest : Bytes)
  | failed (e : ReadError) (s : Smb2) (rest : Bytes)
  | faulted (f : Fault) (s : Smb2) (rest : Bytes)
  deriving DecidableEq, Repr

/-- The transport has nothing more. -/
def park (s : Smb2) (bs : Bytes) : Outcome :=
  match gate s with
  | .overrun => .faulted .vectorOverrun s bs
  | .closed => .failed .readFailed s bs
  | _ => .waiting s bs

/-- Repeated calls of `smb2_read_from_socket` or `smb2_read_from_ext` on a transport that
holds the octets `bs` and answers the reads as the schedule says. -/
def readFromSocket (h : Hooks) (K : Crypto) : List Recv → Bytes → Smb2 → Locals → Outcome
  | [], bs, s, l =>
    if l.flushing then
      match settle h K {} (smb1Negotiate h l.stale s) with
      | .next s _ => park (start s) bs
      | .failed e s => .failed e s bs
      | .faulted f s => .faulted f s bs
    else park (start s) bs
  | r :: rs, bs, s, l =>
    if l.flushing then
      match r, bs with
      | .data n, b :: bs => readFromSocket h K rs ((b :: bs).drop (min (n + 1) 32)) s l
      | _, bs =>
        match settle h K {} (smb1Negotiate h l.stale s) with
        | .next s l => readFromSocket h K rs bs s l
        | .failed e s => .failed e s bs
        | .faulted f s => .faulted f s bs
    else match gate (start s) with
      | .overrun => .faulted .vectorOverrun (start s) bs
      | .closed => .failed .readFailed (start s) bs
      | .parked => .waiting (start s) bs
      | .ready =>
        match r with
        -- the call returns, and the next one has locals of its own
        | .wouldBlock => readFromSocket h K rs bs (start s) {}
        | .closed => .failed .remoteClosed (start s) bs
        | .failed => .failed .readFailed (start s) bs
        | .data n =>
          if bs = [] then readFromSocket h K rs bs (start s) {}
          else
            let k := min (n + 1) (offered (start s))
            match arrive h K (start s) l (bs.take k) with
            | .next s l => readFromSocket h K rs (bs.drop k) s l
            | .failed e s => .failed e s (bs.drop k)
            | .faulted f s => .faulted f s (bs.drop k)

end Libsmb2
