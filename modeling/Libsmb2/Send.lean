import Libsmb2.Signing

/-!
# The send path

`smb2_queue_pdu` and what it calls (`smb2_encode_header`, `smb2_correlate_reply`, signing,
sealing, `smb2_add_to_outqueue`), and `smb2_write_to_socket` with the credit check, the
short writes and the move of a sent chain to the wait queue.

The write loop is driven by the script of the transport: one answer of `queue_write` an
iteration, so it is structurally recursive on the script.
-/

set_option autoImplicit false

namespace Libsmb2

open Util

/-- `smb2_get_real_credit_charge_for_one_pdu`. -/
def realCreditCharge (ctx : Context) (h : Header) : Nat :=
  if h.command = .negotiate then h.creditCharge
  else if ctx.dialect ≤ VERSION_0202 then h.creditCharge + 1
  else h.creditCharge

/-- `smb2_get_credit_charge`. -/
def getCreditCharge (ctx : Context) (c : Chain) : Nat :=
  (c.members.map fun p => realCreditCharge ctx p.header).sum

/-- The `uint32_t` that the signed credit counter is compared as. -/
def Context.creditsU32 (ctx : Context) : Nat := (ctx.credits % 4294967296).toNat

/-- `spl`, the 32-bit sum of the lengths of the vectors of a chain. -/
def Chain.spl (c : Chain) : Nat :=
  (if c.head.sealed then c.head.crypt.length else c.octets.length) % 4294967296

/-- What `smb2_write_to_socket` sends for a chain: the length prefix, then the cipher text
or the vectors of all members. -/
def Chain.frame (c : Chain) : Bytes :=
  be32 c.spl ++ (if c.head.sealed then c.head.crypt else c.octets)

/-! ## Writing -/

/-- What an iteration of the write loop finds before it calls the transport. -/
inductive WriteTurn
  | idle
  | overrun
  | offer (c : Chain) (rest : List Chain)
  deriving DecidableEq, Repr

def writeTurn (ctx : Context) : WriteTurn :=
  match ctx.outqueue with
  | [] => .idle
  | c :: rest =>
    if getCreditCharge ctx c > ctx.creditsU32 then .idle
    -- `iov[SMB2_MAX_VECTORS]` holds the length prefix and the vectors of the chain
    else if !c.head.sealed && MAX_VECTORS < c.niov + 1 then .overrun
    else if c.frame.length ≤ c.head.numDone then .overrun
    else .offer c rest

/-- All members of a sent chain have left the queue: requests wait for their replies,
replies are freed. -/
def sentMembers (ctx : Context) : List Pdu → Context
  | [] => ctx
  | p :: ps =>
    if ctx.isServer then sentMembers { ctx with credits := 128 } ps
    else
      let ctx' := { ctx with
        credits := ctx.credits - realCreditCharge ctx p.header
        waitqueue := ctx.waitqueue ++ [p] }
      sentMembers (ctx'.post (.moved p)) ps

/-- The transport took `n` octets of what was left of the first chain. -/
def accepted (ctx : Context) (c : Chain) (rest : List Chain) (n : Nat) : Context :=
  let k := min n (c.frame.length - c.head.numDone)
  let done := c.head.numDone + k
  let c' := { c with head := { c.head with numDone := done } }
  let ctx := { ctx with wire := ctx.wire ++ slice c.frame c.head.numDone k }
  if done = (SPL_SIZE + c.spl) % 4294967296 then
    sentMembers { ctx with outqueue := rest } c'.members
  else { ctx with outqueue := c' :: rest }

def Context.setTx (ctx : Context) (tx : List WriteResult) : Context :=
  { ctx with env := { ctx.env with tx := tx } }

/-- The loop of `smb2_write_to_socket`, one answer of the transport an iteration. -/
def writeLoop : List WriteResult → Context → Context × Int
  | [], ctx =>
    match writeTurn ctx with
    | .overrun => (ctx.raise .vectorOverrun, 0)
    | _ => (ctx, 0)
  | r :: tx, ctx =>
    match writeTurn ctx with
    | .idle => (ctx, 0)
    | .overrun => (ctx.raise .vectorOverrun, 0)
    | .offer c rest =>
      let ctx := ctx.emit (.offered c ctx.security)
      match r with
      | .eagain => (ctx.setTx tx, 0)
      | .error => (ctx.setTx tx, -1)
      | .accept n => writeLoop tx ((accepted ctx c rest n).setTx tx)

/-- `smb2_write_to_socket`.  A closed external transport answers would-block, a closed
socket is an error before the loop. -/
def writeToSocket (ctx : Context) : Context × Int :=
  if ctx.connected then writeLoop ctx.env.tx ctx
  else match ctx.transportType with
    | .tcp => (ctx, -1)
    | .ext => writeLoop [] ctx

/-! ## Queueing -/

/-- `smb2_encode_header`: a client numbers the request, then the header is written into
the first vector. -/
def encodeHeader (ctx : Context) (p : Pdu) : Context × Pdu :=
  if ctx.isServer then (ctx, { p with out := p.header.encode :: p.out.tail })
  else
    let header := { p.header with messageId := ctx.messageId }
    ({ ctx with messageId := (ctx.messageId + max 1 header.creditCharge) % 2 ^ 64 },
      { p with header := header, out := header.encode :: p.out.tail })

/-- The reply takes over what `smb2_correlate_reply` copies from its request. -/
def adoptRequest (p req : Pdu) : Pdu :=
  let h := p.header
  let h := { h with
    creditRequestResponse :=
      if req.header.creditRequestResponse > 0xf000 then 0xffff
      else req.header.creditRequestResponse
    creditCharge := max h.creditCharge req.header.creditCharge
    messageId := req.header.messageId
    treeId := if h.command = .treeConnect then h.treeId else req.header.treeId }
  { p with header := h }

/-- `smb2_correlate_reply`. -/
def correlateReply (ctx : Context) (p : Pdu) : Context × Pdu :=
  match ctx.findPdu p.header.messageId with
  | none =>
    if p.header.command = .oplockBreak then
      (ctx, { p with header :=
        { p.header with messageId := 0xffffffffffffffff, treeId := 0, sessionId := 0 } })
    else (ctx, p)
  | some req =>
    let p := adoptRequest p req
    if p.header.hasFlag FLAGS_ASYNC_COMMAND && p.header.status = STATUS_PENDING then
      let aid := (ctx.asyncId + 1) % 2 ^ 64
      let mark := fun q : Pdu =>
        if q.id = req.id then
          { q with header := (q.header.setAsyncId aid).setFlag FLAGS_ASYNC_COMMAND }
        else q
      ({ ctx with asyncId := aid, waitqueue := ctx.waitqueue.map mark },
        { p with header := p.header.setAsyncId aid })
    else
      let p := if req.header.hasFlag FLAGS_ASYNC_COMMAND then
          { p with header := (p.header.setFlag FLAGS_ASYNC_COMMAND).setAsyncId req.header.asyncId }
        else p
      (ctx.freePdu req.id, p)

/-- Whether `smb2_queue_pdu` signs this member. -/
def signsOnQueue (ctx : Context) (p : Pdu) : Bool :=
  ctx.sign || (p.header.command = .treeConnect && ctx.dialect = VERSION_0311 && !ctx.sealing)

/-- The header of a member is completed and encoded; a client remembers the message id of
the member before it. -/
def encodeMember (ctx : Context) (prevMid : Nat) (p : Pdu) : Context × Pdu :=
  let x := if ctx.isServer then correlateReply ctx p else (ctx, p)
  let y := encodeHeader x.1 x.2
  (y.1, if ctx.isServer then y.2 else { y.2 with prevCompoundMid := prevMid })

/-- A member is signed; a failure is only recorded in the error string. -/
def signMember (K : Crypto) (ctx : Context) (p : Pdu) : Context × Pdu :=
  if signsOnQueue ctx p then
    let x := pduAddSignature K ctx p
    (x.1, x.2.1)
  else (ctx, p)

/-- One iteration of the loop of `smb2_queue_pdu`. -/
def queueMember (K : Crypto) (ctx : Context) (prevMid : Nat) (p : Pdu) : Context × Pdu :=
  let x := encodeMember ctx prevMid p
  signMember K x.1 x.2

/-- The loop of `smb2_queue_pdu` over the members of the chain. -/
def queueMembers (K : Crypto) : Context → Nat → List Pdu → Context × List Pdu
  | ctx, _, [] => (ctx, [])
  | ctx, prevMid, p :: ps =>
    let (ctx, p) := queueMember K ctx prevMid p
    let (ctx, ps) := queueMembers K ctx p.header.messageId ps
    (ctx, p :: ps)

/-- `smb2_add_to_outqueue`: the chain that finds the queue empty is written at once. -/
def addToOutqueue (ctx : Context) (c : Chain) : Context :=
  let ctx' := { ctx with outqueue := ctx.outqueue ++ [c], log := ctx.log ++ [.enqueued c] }
  if ctx.outqueue = [] then (writeToSocket ctx').1 else ctx'

/-- The flags a server sets on the head of a chain before it queues it. -/
def markReply (p : Pdu) : Pdu :=
  let h := p.header.setFlag FLAGS_SERVER_TO_REDIR
  { p with header := if h.status = STATUS_PENDING then h.setFlag FLAGS_ASYNC_COMMAND else h }

/-- The chain as `smb2_queue_pdu` puts it on the out queue: every member numbered, encoded
and signed, then the whole sealed. -/
def preparePdu (K : Crypto) (ctx : Context) (c : Chain) : Context × Chain :=
  let head := if ctx.isServer then markReply c.head else c.head
  let (ctx, head) := queueMember K ctx 0 head
  let (ctx, rest) := queueMembers K ctx head.header.messageId c.rest
  encryptPdu K ctx ⟨head, rest⟩

/-- `smb2_queue_pdu`.  A reply without a message id is freed. -/
def queuePdu (K : Crypto) (ctx : Context) (c : Chain) : Context :=
  let ctx := ctx.emit (.queued c ctx.security)
  if ctx.isServer && c.head.header.messageId = 0 && c.head.header.command != .negotiate then ctx
  else
    let (ctx, c) := preparePdu K ctx c
    if ctx.fault = none then addToOutqueue ctx c else ctx

/-- `smb2_add_compound_pdu`: link `next` behind the last member of `c`. -/
def addCompoundPdu (c next : Chain) : Chain :=
  let link := fun p : Pdu =>
    let offset := p.octets.length
    { p with
      header := { p.header with nextCommand := offset }
      out := patchHead p.out 20 (le 4 offset) }
  let related := next.head.header.setFlag FLAGS_RELATED_OPERATIONS
  let nextHead := { next.head with
    header := related
    out := patchHead next.head.out 16 (le 4 related.flags) }
  match c.rest.reverse with
  | [] => ⟨link c.head, nextHead :: next.rest⟩
  | last :: before => ⟨c.head, before.reverse ++ link last :: nextHead :: next.rest⟩

end Libsmb2
