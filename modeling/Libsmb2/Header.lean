import Libsmb2.Basic

/-!
# The SMB2 header

`struct smb2_header` and its 64-octet encoding (`smb2_encode_header`,
`smb2_decode_header`).  The `sync`/`async` union of the source is eight octets that are
read either as `process_id`, `tree_id` or as one `async_id`; it is kept here as the two
halves, with `Header.asyncId` reading both.

* `Header.length_encode` — a well-formed header encodes to `HEADER_SIZE` octets;
* `Header.encode_flags`, `Header.encode_nextCommand` — the fields the send path patches lie where it
  patches them.
-/

set_option autoImplicit false

namespace Libsmb2

open Util

/-- `struct smb2_header`. -/
structure Header where
  protocolId : Bytes := []
  structSize : Nat := 0
  creditCharge : Nat := 0
  status : Nat := 0
  command : Command := .negotiate
  creditRequestResponse : Nat := 0
  flags : Nat := 0
  nextCommand : Nat := 0
  messageId : Nat := 0
  processId : Nat := 0
  treeId : Nat := 0
  sessionId : Nat := 0
  signature : Bytes := []
  deriving DecidableEq, Repr

namespace Header

def hasFlag (h : Header) (f : Nat) : Bool := h.flags &&& f != 0

def setFlag (h : Header) (f : Nat) : Header := { h with flags := h.flags ||| f }

/-- `async.async_id`, the same eight octets as `sync.process_id` and `sync.tree_id`. -/
def asyncId (h : Header) : Nat := h.processId + 4294967296 * h.treeId

def setAsyncId (h : Header) (id : Nat) : Header :=
  { h with processId := id % 4294967296, treeId := id / 4294967296 % 4294967296 }

/-- The octets `smb2_encode_header` writes into the header vector. -/
def encode (h : Header) : Bytes :=
  h.protocolId ++ (le 2 h.structSize ++ (le 2 h.creditCharge ++ (le 4 h.status ++
    (le 2 h.command.code ++ (le 2 h.creditRequestResponse ++ (le 4 h.flags ++
      (le 4 h.nextCommand ++ (le 8 h.messageId ++ (le 4 h.processId ++ (le 4 h.treeId ++
        (le 8 h.sessionId ++ h.signature)))))))))))

/-- The magic numbers that open a header. -/
def smb1sign : Bytes := [0xFF, 0x53, 0x4D, 0x42]
def smb2sign : Bytes := [0xFE, 0x53, 0x4D, 0x42]
def smb3tfrm : Bytes := [0xFD, 0x53, 0x4D, 0x42]

/-- The header that `smb2_decode_header` fills in; `none` where it returns an error.  An
SMB1 negotiate is let through with an otherwise zeroed header. -/
def decode (bs : Bytes) : Option Header :=
  if bs.length < HEADER_SIZE then none
  else if bs.take 4 = smb1sign then
    if fromLe (slice bs 4 1) = Command.smb1Negotiate.code then
      some { command := .smb1Negotiate, protocolId := zeros 4, signature := zeros 16 }
    else none
  else if bs.take 4 ≠ smb2sign then none
  else some {
    protocolId := bs.take 4
    structSize := fromLe (slice bs 4 2)
    creditCharge := fromLe (slice bs 6 2)
    status := fromLe (slice bs 8 4)
    command := .ofCode (fromLe (slice bs 12 2))
    creditRequestResponse := fromLe (slice bs 14 2)
    flags := fromLe (slice bs 16 4)
    nextCommand := fromLe (slice bs 20 4)
    messageId := fromLe (slice bs 24 8)
    processId := fromLe (slice bs 32 4)
    treeId := fromLe (slice bs 36 4)
    sessionId := fromLe (slice bs 40 8)
    signature := slice bs 48 16 }

/-- The two octet fields of a header have their width. -/
structure WellFormed (h : Header) : Prop where
  protocolId : h.protocolId.length = 4
  signature : h.signature.length = SIGNATURE_SIZE

@[simp] theorem WellFormed.setFlag {h : Header} (hw : h.WellFormed) (f : Nat) :
    (h.setFlag f).WellFormed := ⟨hw.protocolId, hw.signature⟩

theorem length_encode {h : Header} (hw : h.WellFormed) : h.encode.length = HEADER_SIZE := by
  simp [encode, hw.protocolId, hw.signature, HEADER_SIZE, SIGNATURE_SIZE]

theorem encode_flags {h : Header} (hw : h.WellFormed) :
    slice h.encode 16 4 = le 4 h.flags := by
  have hp := hw.protocolId
  unfold encode
  simp (disch := simp [hp]) only [slice_append_right, length_le, hp]
  rw [slice_append_left (by simp), slice_zero (by simp)]

theorem encode_nextCommand {h : Header} (hw : h.WellFormed) :
    slice h.encode 20 4 = le 4 h.nextCommand := by
  have hp := hw.protocolId
  unfold encode
  simp (disch := simp [hp]) only [slice_append_right, length_le, hp]
  rw [slice_append_left (by simp), slice_zero (by simp)]

end Header

end Libsmb2
