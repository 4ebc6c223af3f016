import Libsmb2.Dcerpc.Ndr
import Libsmb2.Errors

/-!
# DCERPC PDUs

`dcerpc.c`: the header and the bodies of a PDU, and `dcerpc_pdu_coder`, which takes the body that
the type in the header names, in both directions.  The members of the union of
`struct dcerpc_pdu` are separate fields.  A pointer of a structure that is null when it is decoded
is an empty list.
-/

set_option autoImplicit false

namespace Libsmb2.Dcerpc

open Util

def PDU_TYPE_REQUEST : Nat := 0
def PDU_TYPE_RESPONSE : Nat := 2
def PDU_TYPE_BIND : Nat := 11
def PDU_TYPE_BIND_ACK : Nat := 12

def PFC_FIRST_FRAG : Nat := 0x01
def PFC_LAST_FRAG : Nat := 0x02

def DCERPC_DR_LITTLE_ENDIAN : Nat := 0x10

def NSE_BUF_SIZE : Nat := 128 * 1024

/-! ## Structures -/

/-- `struct dcerpc_header`. -/
structure Header where
  rpcVers : Nat := 0
  rpcVersMinor : Nat := 0
  ptype : Nat := 0
  pfcFlags : Nat := 0
  packedDrep0 : Nat := 0
  packedDrep1 : Nat := 0
  packedDrep2 : Nat := 0
  packedDrep3 : Nat := 0
  fragLength : Nat := 0
  authLength : Nat := 0
  callId : Nat := 0
  deriving DecidableEq, Repr

/-- `dcerpc_uuid_t`. -/
structure Uuid where
  v1 : Nat
  v2 : Nat
  v3 : Nat
  v4 : List Nat
  deriving DecidableEq, Repr

/-- `p_syntax_id_t`. -/
structure SyntaxId where
  uuid : Uuid
  vers : Nat
  versMinor : Nat
  deriving DecidableEq, Repr

def ndr32Syntax : SyntaxId :=
  ⟨⟨0x8a885d04, 0x1ceb, 0x11c9, [0x9f, 0xe8, 0x08, 0x00, 0x2b, 0x10, 0x48, 0x60]⟩, 2, 0⟩

def ndr64Syntax : SyntaxId :=
  ⟨⟨0x71710533, 0xbeba, 0x4937, [0x83, 0x19, 0xb5, 0xdb, 0xef, 0x9c, 0xcc, 0x36]⟩, 1, 0⟩

/-- `struct p_cont_elem_t`; `n_transfer_syn` counts the transfer syntaxes that are there when it
is encoded. -/
structure PContElem where
  pContId : Nat
  nTransferSyn : Nat
  abstractSyntax : SyntaxId
  transferSyntaxes : List SyntaxId
  deriving DecidableEq, Repr

/-- `struct dcerpc_bind_pdu`. -/
structure BindPdu where
  maxXmitFrag : Nat := 0
  maxRecvFrag : Nat := 0
  assocGroupId : Nat := 0
  nContextElem : Nat := 0
  pContElem : List PContElem := []
  deriving DecidableEq, Repr

/-- `struct dcerpc_bind_context_results`. -/
structure ContextResult where
  ackResult : Nat
  ackReason : Nat
  uuid : Uuid
  syntaxVersion : Nat
  deriving DecidableEq, Repr

def MAX_ACK_RESULTS : Nat := 4

def ACK_RESULT_ACCEPTANCE : Nat := 0

/-- `struct dcerpc_bind_ack_pdu`, with the results that have been decoded. -/
structure BindAckPdu where
  maxXmitFrag : Nat := 0
  maxRecvFrag : Nat := 0
  assocGroupId : Nat := 0
  numResults : Nat := 0
  results : List ContextResult := []
  deriving DecidableEq, Repr

/-- `struct dcerpc_request_pdu`. -/
structure RequestPdu where
  allocHint : Nat := 0
  contextId : Nat := 0
  opnum : Nat := 0
  deriving DecidableEq, Repr

/-- `struct dcerpc_response_pdu`. -/
structure ResponsePdu where
  allocHint : Nat := 0
  contextId : Nat := 0
  cancelCount : Nat := 0
  deriving DecidableEq, Repr

/-- The header and the members of the union of `struct dcerpc_pdu`. -/
structure Pdu where
  hdr : Header := {}
  bind : BindPdu := {}
  bindAck : BindAckPdu := {}
  req : RequestPdu := {}
  rsp : ResponsePdu := {}
  deriving DecidableEq, Repr

section

variable {κ : Type}

/-! ## Coders -/

/-- The byte order that the first octet of a data representation says. -/
def Env.withDrep (env : Env) (drep : Nat) : Env :=
  { env with littleEndian := drep &&& DCERPC_DR_LITTLE_ENDIAN ≠ 0 }

/-- `dcerpc_header_coder`.  The numbers are in the byte order of the PDU, which is that of this
header only if it is the PDU's own. -/
def dcerpcHeaderCoder (env : Env) (own : Bool) (hdr : Header) : Ndr κ Header := do
  let rpcVers ← ndrUint8Coder env hdr.rpcVers
  let rpcVersMinor ← ndrUint8Coder env hdr.rpcVersMinor
  let ptype ← ndrUint8Coder env hdr.ptype
  let pfcFlags ← ndrUint8Coder env hdr.pfcFlags
  let packedDrep0 ← ndrUint8Coder env hdr.packedDrep0
  let packedDrep1 ← ndrUint8Coder env hdr.packedDrep1
  let packedDrep2 ← ndrUint8Coder env hdr.packedDrep2
  let packedDrep3 ← ndrUint8Coder env hdr.packedDrep3
  let env := if own then env.withDrep packedDrep0 else env
  let fragLength ← ndrUint16Coder env hdr.fragLength
  let authLength ← ndrUint16Coder env hdr.authLength
  let callId ← ndrUint32Coder env hdr.callId
  pure ⟨rpcVers, rpcVersMinor, ptype, pfcFlags, packedDrep0, packedDrep1, packedDrep2, packedDrep3,
    fragLength, authLength, callId⟩

/-- `ndr_uint8_coder` for each octet of an array. -/
def ndrUint8sCoder (env : Env) : List Nat → Ndr κ (List Nat)
  | [] => pure []
  | v :: vs => do
    let v ← ndrUint8Coder env v
    let vs ← ndrUint8sCoder env vs
    pure (v :: vs)

/-- `ndr_uuid_coder`. -/
def ndrUuidCoder (env : Env) (uuid : Uuid) : Ndr κ Uuid := do
  let v1 ← ndrUint32Coder env uuid.v1
  let v2 ← ndrUint16Coder env uuid.v2
  let v3 ← ndrUint16Coder env uuid.v3
  let v4 ← ndrUint8sCoder env uuid.v4
  pure ⟨v1, v2, v3, v4⟩

/-- `*offset += n`. -/
def skip (n : Nat) : Ndr κ Unit := Run.modify fun s => { s with offset := s.offset + n }

/-- A syntax, as `dcerpc_bind_coder` has it. -/
def syntaxIdCoder (env : Env) (syn : SyntaxId) : Ndr κ SyntaxId := do
  let uuid ← ndrUuidCoder env syn.uuid
  let vers ← ndrUint16Coder env syn.vers
  let versMinor ← ndrUint16Coder env syn.versMinor
  pure ⟨uuid, vers, versMinor⟩

/-- The loop of `dcerpc_bind_coder` over transfer syntaxes. -/
def transferSyntaxesCoder (env : Env) : Nat → List SyntaxId → Ndr κ (List SyntaxId)
  | 0, syns => pure syns
  | _ + 1, [] => Run.fault .null
  | n + 1, syn :: syns => do
    let syn ← syntaxIdCoder env syn
    let syns ← transferSyntaxesCoder env n syns
    pure (syn :: syns)

/-- The loop of `dcerpc_bind_coder` over context elements. -/
def contextElemsCoder (env : Env) : Nat → List PContElem → Ndr κ (List PContElem)
  | 0, elems => pure elems
  | _ + 1, [] => Run.fault .null
  | n + 1, e :: elems => do
    let pContId ← ndrUint16Coder env e.pContId
    let nTransferSyn ← ndrUint8Coder env e.nTransferSyn
    skip 1
    let abstractSyntax ← syntaxIdCoder env e.abstractSyntax
    let transferSyntaxes ← transferSyntaxesCoder env nTransferSyn e.transferSyntaxes
    let elems ← contextElemsCoder env n elems
    pure (⟨pContId, nTransferSyn, abstractSyntax, transferSyntaxes⟩ :: elems)

/-- A coder with an offset of its own, as a fixup has it. -/
def atOffset {α : Type} (o : Nat) (coder : Ndr κ α) : Ndr κ α := do
  let s ← Run.get
  setOffset o
  let a ← coder
  setOffset s.offset
  pure a

/-- `dcerpc_bind_coder`. -/
def dcerpcBindCoder (env : Env) (bind : BindPdu) : Ndr κ BindPdu := do
  let maxXmitFrag ← ndrUint16Coder env bind.maxXmitFrag
  let maxRecvFrag ← ndrUint16Coder env bind.maxRecvFrag
  let assocGroupId ← ndrUint32Coder env bind.assocGroupId
  let nContextElem ← ndrUint8Coder env bind.nContextElem
  skip 3
  let pContElem ← contextElemsCoder env nContextElem bind.pContElem
  let s ← Run.get
  let _ ← atOffset 8 (ndrUint16Coder env (s.offset % 65536))
  pure ⟨maxXmitFrag, maxRecvFrag, assocGroupId, nContextElem, pContElem⟩

/-- `dcerpc_request_coder`. -/
def dcerpcRequestCoder (env : Env) (req : RequestPdu) : Ndr κ RequestPdu := do
  let allocHint ← ndrUint32Coder env req.allocHint
  let contextId ← ndrUint16Coder env req.contextId
  let opnum ← ndrUint16Coder env req.opnum
  pure ⟨allocHint, contextId, opnum⟩

/-- The loop of `dcerpc_bind_ack_coder` over the results, from the `i`th on.  The first field of
a result is written as soon as it has been read. -/
def ackResultsCoder (env : Env) (old : List ContextResult) : Nat → Nat → Ndr κ (List ContextResult)
  | 0, _ => pure []
  | n + 1, i => do
    let r := old.getD i ⟨0, 0, ⟨0, 0, 0, List.replicate 8 0⟩, 0⟩
    let ackResult ← ndrUint16Coder env r.ackResult
    if MAX_ACK_RESULTS ≤ i then Run.fault .write
    else do
      let ackReason ← ndrUint16Coder env r.ackReason
      let uuid ← ndrUuidCoder env r.uuid
      let syntaxVersion ← ndrUint32Coder env r.syntaxVersion
      let rs ← ackResultsCoder env old n (i + 1)
      pure (⟨ackResult, ackReason, uuid, syntaxVersion⟩ :: rs)

/-- `dcerpc_bind_ack_coder`. -/
def dcerpcBindAckCoder (env : Env) (ack : BindAckPdu) : Ndr κ BindAckPdu := do
  let maxXmitFrag ← ndrUint16Coder env ack.maxXmitFrag
  let maxRecvFrag ← ndrUint16Coder env ack.maxRecvFrag
  let assocGroupId ← ndrUint32Coder env ack.assocGroupId
  let secAddrLen ← ndrUint16Coder env 0
  Run.modify fun s => { s with offset := alignUp 4 (s.offset + secAddrLen) }
  let numResults ← ndrUint8Coder env ack.numResults
  skip 3
  let results ← ackResultsCoder env ack.results numResults 0
  pure ⟨maxXmitFrag, maxRecvFrag, assocGroupId, numResults, results⟩

/-- `pdu->coder`, which is null in the PDU of a bind. -/
def stubCoder : Option (Ndr κ Unit) → Ndr κ Unit
  | none => Run.fault .null
  | some coder => coder

/-- `dcerpc_response_coder`. -/
def dcerpcResponseCoder (env : Env) (coder : Option (Ndr κ Unit)) (rsp : ResponsePdu) :
    Ndr κ ResponsePdu := do
  let allocHint ← ndrUint32Coder env rsp.allocHint
  if 16 * 1024 * 1024 < allocHint then Run.fail
  else do
    let contextId ← ndrUint16Coder env rsp.contextId
    let cancelCount ← ndrUint8Coder env rsp.cancelCount
    skip 1
    setTopLevel true
    stubCoder coder
    skip allocHint
    pure ⟨allocHint, contextId, cancelCount⟩

/-! ## The dispatch -/

/-- The bodies that there are coders for. -/
inductive Body
  | bind
  | bindAck
  | request
  | response
  deriving DecidableEq, Repr

/-- The `switch` of `dcerpc_pdu_coder`. -/
def bodyOf (ptype : Nat) : Option Body :=
  if ptype = PDU_TYPE_BIND then some .bind
  else if ptype = PDU_TYPE_BIND_ACK then some .bindAck
  else if ptype = PDU_TYPE_REQUEST then some .request
  else if ptype = PDU_TYPE_RESPONSE then some .response
  else none

/-- The coder of a body.  The coder of the stub is run in the byte order of the PDU. -/
def bodyCoder (env : Env) (coder : Option (Env → Ndr κ Unit)) (pdu : Pdu) : Body → Ndr κ Pdu
  | .bind => do
    let bind ← dcerpcBindCoder env pdu.bind
    pure { pdu with bind := bind }
  | .bindAck => do
    let bindAck ← dcerpcBindAckCoder env pdu.bindAck
    pure { pdu with bindAck := bindAck }
  | .request => do
    let req ← dcerpcRequestCoder env pdu.req
    pure { pdu with req := req }
  | .response => do
    let rsp ← dcerpcResponseCoder env (coder.map fun coder => coder env) pdu.rsp
    pure { pdu with rsp := rsp }

/-- `dcerpc_pdu_coder`. -/
def dcerpcPduCoder (env : Env) (coder : Option (Env → Ndr κ Unit)) (pdu : Pdu) : Ndr κ Pdu := do
  let hdr ← dcerpcHeaderCoder env true pdu.hdr
  match bodyOf hdr.ptype with
  | none => Run.fail
  | some body => bodyCoder (env.withDrep hdr.packedDrep0) coder { pdu with hdr := hdr } body

end

/-! ## The header -/

/-- The header that an octet string of sixteen octets or more begins with. -/
def headerOf (env : Env) (own : Bool) (buf : Bytes) : Header :=
  let order := if own then env.withDrep (octet buf 4) else env
  { rpcVers := octet buf 0
    rpcVersMinor := octet buf 1
    ptype := octet buf 2
    pfcFlags := octet buf 3
    packedDrep0 := octet buf 4
    packedDrep1 := octet buf 5
    packedDrep2 := octet buf 6
    packedDrep3 := octet buf 7
    fragLength := order.number (slice buf 8 2)
    authLength := order.number (slice buf 10 2)
    callId := order.number (slice buf 12 4) }

theorem dcerpcHeaderCoder_reads {κ : Type} {env : Env} (hdir : env.direction = .decode)
    (own : Bool) (hdr : Header) (buf : Bytes) :
    Reads (κ := κ) buf 0 16 (dcerpcHeaderCoder env own hdr) (headerOf env own buf) := by
  have horder : (if own then env.withDrep (octet buf 4) else env).direction = .decode := by
    split
    · exact hdir
    · exact hdir
  apply (ndrUint8Coder_reads hdir _).bind (l := 15)
  apply (ndrUint8Coder_reads hdir _).bind (l := 14)
  apply (ndrUint8Coder_reads hdir _).bind (l := 13)
  apply (ndrUint8Coder_reads hdir _).bind (l := 12)
  apply (ndrUint8Coder_reads hdir _).bind (l := 11)
  apply (ndrUint8Coder_reads hdir _).bind (l := 10)
  apply (ndrUint8Coder_reads hdir _).bind (l := 9)
  apply (ndrUint8Coder_reads hdir _).bind (l := 8)
  apply (ndrUint16Coder_reads horder _ (by decide)).bind (l := 6)
  apply (ndrUint16Coder_reads horder _ (by decide)).bind (l := 4)
  exact (ndrUint32Coder_reads horder _ (by decide)).map _

end Libsmb2.Dcerpc
