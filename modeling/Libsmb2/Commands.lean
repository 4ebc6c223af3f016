import Libsmb2.Replies
import Libsmb2.Unicode

/-!
# The encoders of the commands

The `smb2_cmd_*_async` functions of the requests: each allocates a request, adds the vectors of
its body to the header vector, pads them to a multiple of eight, and some correct the credit
charge that the allocator assumed.  The functions of the replies add their vectors and pad in
the same way; what their vectors hold is not looked into (`Cmd.reply`).

The fields of a fixed part are set one by one in a cleared buffer, as in the source.  A pointer
to memory of the application is what that memory holds (`Memory`).  Where there is no memory for
a buffer the functions return `NULL`, as for arguments that they refuse.

* `Cmd.encode_adds` — every encoder only adds vectors;
* `Cmd.marshal_spec` — a command is a header vector and at most 255 others, a multiple of eight
  octets unless the payload of a WRITE follows the padding.
-/

set_option autoImplicit false

namespace Libsmb2

open Util

/-! ## Buffers -/

/-- An octet string of a fixed width: `smb2_file_id`, `smb2_guid`, `smb2_lease_key`. -/
abbrev Octets (n : Nat) : Type := { bs : Bytes // bs.length = n }

abbrev FileId : Type := Octets 16

/-- What lies behind a pointer. -/
abbrev Memory : Type := Nat → UInt8

/-- The first `n` octets behind a pointer. -/
def Memory.read (m : Memory) (n : Nat) : Bytes := (List.range n).map m

/-- `smb2_set_uint8` and its siblings: a field that does not fit is not written. -/
def setUint (width off value : Nat) (iov : Bytes) : Bytes :=
  if off + width ≤ iov.length then patch iov off (le width value) else iov

def setUint8 (off value : Nat) (iov : Bytes) : Bytes := setUint 1 off value iov
def setUint16 (off value : Nat) (iov : Bytes) : Bytes := setUint 2 off value iov
def setUint32 (off value : Nat) (iov : Bytes) : Bytes := setUint 4 off value iov
def setUint64 (off value : Nat) (iov : Bytes) : Bytes := setUint 8 off value iov

/-- `PAD_TO_32BIT`. -/
def padTo32 (len : Nat) : Nat := (len + 3) / 4 * 4 % 2 ^ 32

/-- `PAD_TO_64BIT`. -/
def padTo64 (len : Nat) : Nat := (len + 7) / 8 * 8 % 2 ^ 32

/-- `bs` in a buffer of `len` octets. -/
def padBuffer (bs : Bytes) (len : Nat) : Bytes := bs ++ zeros (len - bs.length)

/-- `smb2_add_iovector` on `pdu->out`. -/
def addVector (buf : Bytes) (out : List Bytes) : Option (List Bytes) :=
  if MAX_VECTORS ≤ out.length then none else some (out ++ [buf])

/-- `smb2_pad_to_64bit`. -/
def padTo64Bit (out : List Bytes) : Option (List Bytes) :=
  let len := (out.map List.length).sum
  if len % 8 = 0 then some out else addVector (zeros (8 - len % 8)) out

/-! ## Requests -/

/-- The salt of a context before it is set. -/
def noSalt : Octets 32 := ⟨zeros 32, length_zeros 32⟩

/-- The fields of `struct smb2_context` that only the encoders read. -/
structure Settings where
  supportsMultiCredit : Bool := false
  maxReadSize : UInt32 := 0
  maxWriteSize : UInt32 := 0
  salt : Octets 32 := noSalt

/-- `smb2->version` allows dialect 3.1.1. -/
def Version.negotiates311 : Version → Bool
  | .any => true
  | .any2 => false
  | .any3 => true
  | .dialect d => d = VERSION_0311

def NEGOTIATE_REQUEST_SIZE : Nat := 36
def HASH_SHA_512 : Nat := 1

def encodePreauthContext (S : Settings) (out : List Bytes) : Option (List Bytes) :=
  addVector (zeros (8 + padTo64 38)
    |> setUint16 0 PREAUTH_INTEGRITY_CAP
    |> setUint16 2 38
    |> setUint16 8 1
    |> setUint16 10 32
    |> setUint16 12 HASH_SHA_512
    |> (patch · 14 S.salt.1)) out

def encodeEncryptionContext (out : List Bytes) : Option (List Bytes) :=
  addVector (zeros (padTo64 (8 + padTo64 4))
    |> setUint16 0 ENCRYPTION_CAP
    |> setUint16 2 (padTo64 4)
    |> setUint16 8 1
    |> setUint16 10 ENCRYPTION_AES_128_CCM) out

/-- `struct smb2_negotiate_request`, as its encoder reads it. -/
structure NegotiateArgs where
  securityMode : Nat := 0
  capabilities : Nat := 0
  clientGuid : Octets 16
  negotiateContextOffset : Nat := 0
  negotiateContextCount : Nat := 0
  dialects : List Nat := []

/-- The length of the fixed part and the dialects. -/
def negotiateLength (version : Version) (count : Nat) : Nat :=
  let len := padTo32 (NEGOTIATE_REQUEST_SIZE + 2 * count)
  if version.negotiates311 && len % 8 != 0 then len + 4 else len

def encodeNegotiateRequest (S : Settings) (version : Version) (req : NegotiateArgs)
    (out : List Bytes) : Option (List Bytes) :=
  let len := negotiateLength version req.dialects.length
  let (offset, count) :=
    if version.negotiates311 then (len + HEADER_SIZE, req.negotiateContextCount + 2)
    else (req.negotiateContextOffset, req.negotiateContextCount)
  let fixed := zeros len
    |> setUint16 0 NEGOTIATE_REQUEST_SIZE
    |> setUint16 2 req.dialects.length
    |> setUint16 4 req.securityMode
    |> setUint32 8 req.capabilities
    |> (patch · 12 req.clientGuid.1)
    |> setUint32 28 offset
    |> setUint16 32 count
  let buf := req.dialects.zipIdx.foldl (fun buf (d, i) => setUint16 (36 + i * 2) d buf) fixed
  do
    let out ← addVector buf out
    if version.negotiates311 then encodePreauthContext S out >>= encodeEncryptionContext
    else some out

structure SessionSetupArgs where
  flags : Nat := 0
  securityMode : Nat := 0
  capabilities : Nat := 0
  channel : Nat := 0
  previousSessionId : Nat := 0
  securityBuffer : Bytes := []

def SESSION_SETUP_REQUEST_SIZE : Nat := 25

def encodeSessionSetupRequest (req : SessionSetupArgs) (out : List Bytes) : Option (List Bytes) :=
  do
    let out ← addVector (zeros (SESSION_SETUP_REQUEST_SIZE - 1)
      |> setUint16 0 SESSION_SETUP_REQUEST_SIZE
      |> setUint8 2 req.flags
      |> setUint8 3 req.securityMode
      |> setUint32 4 req.capabilities
      |> setUint32 8 req.channel
      |> setUint16 12 (HEADER_SIZE + 24)
      |> setUint16 14 req.securityBuffer.length
      |> setUint64 16 req.previousSessionId) out
    addVector req.securityBuffer out

/-- The fixed part of a LOGOFF, a TREE_DISCONNECT or an ECHO. -/
def encodePlainRequest (out : List Bytes) : Option (List Bytes) :=
  addVector (zeros 4 |> setUint16 0 4) out

def encodeLogoffRequest : List Bytes → Option (List Bytes) := encodePlainRequest
def encodeTreeDisconnectRequest : List Bytes → Option (List Bytes) := encodePlainRequest
def encodeEchoRequest : List Bytes → Option (List Bytes) := encodePlainRequest

structure TreeConnectArgs where
  flags : Nat := 0
  path : Bytes := []

def TREE_CONNECT_REQUEST_SIZE : Nat := 9

def encodeTreeConnectRequest (req : TreeConnectArgs) (out : List Bytes) : Option (List Bytes) :=
  do
    let out ← addVector (zeros (TREE_CONNECT_REQUEST_SIZE - 1)
      |> setUint16 0 TREE_CONNECT_REQUEST_SIZE
      |> setUint16 2 req.flags
      |> setUint16 4 (HEADER_SIZE + 8)
      |> setUint16 6 req.path.length) out
    addVector req.path out

/-- `struct smb2_create_request`.  Without a name its length is what the caller left there. -/
structure CreateArgs where
  securityFlags : Nat := 0
  requestedOplockLevel : Nat := 0
  impersonationLevel : Nat := 0
  smbCreateFlags : Nat := 0
  desiredAccess : Nat := 0
  fileAttributes : Nat := 0
  shareAccess : Nat := 0
  createDisposition : Nat := 0
  createOptions : Nat := 0
  nameLength : Nat := 0
  name : Option CString := none
  createContext : Bytes := []

/-- The code units of a name, if there is one. -/
inductive Name
  | absent
  | invalid
  | units (us : List Nat)

/-- `smb2_utf8_to_utf16` on a name that may be `NULL` or empty. -/
def Name.ofString : Option CString → Name
  | none => .absent
  | some s =>
    if s.octets = [] then .absent
    else match utf8ToUtf16 s.octets with
      | none => .invalid
      | some us => .units us

/-- '/' becomes '\'. -/
def backslashes (us : List Nat) : List Nat := us.map fun u => if u = 0x002f then 0x005c else u

/-- Backslashes for slashes. -/
def backslashed (path : CString) : CString where
  octets := path.octets.map fun c => if c = 0x2f then 0x5c else c
  terminated h := by
    obtain ⟨c, hc, hzero⟩ := List.mem_map.mp h
    by_cases hslash : c = 0x2f
    · rw [if_pos hslash] at hzero
      exact absurd hzero (by decide)
    · rw [if_neg hslash] at hzero
      exact path.terminated (hzero ▸ hc)

def CREATE_REQUEST_SIZE : Nat := 57

/-- The fixed part of a CREATE. -/
def createFixed (req : CreateArgs) (nameLength : Nat) : Bytes :=
  let nameOffset := padTo32 (HEADER_SIZE + 56)
  let contextOffset :=
    if req.createContext.length = 0 then 0
    else if nameLength = 0 then padTo64 (4 + nameOffset)
    else padTo64 (nameLength + nameOffset)
  zeros (CREATE_REQUEST_SIZE - 1)
    |> setUint16 0 CREATE_REQUEST_SIZE
    |> setUint8 2 req.securityFlags
    |> setUint8 3 req.requestedOplockLevel
    |> setUint32 4 req.impersonationLevel
    |> setUint64 8 req.smbCreateFlags
    |> setUint32 24 req.desiredAccess
    |> setUint32 28 req.fileAttributes
    |> setUint32 32 req.shareAccess
    |> setUint32 36 req.createDisposition
    |> setUint32 40 req.createOptions
    |> setUint16 44 nameOffset
    |> setUint32 48 contextOffset
    |> setUint32 52 req.createContext.length

/-- The create contexts, which nobody encodes.  A length that is negative as an `int` is too much
for `malloc`. -/
def addCreateContext (context : Bytes) (out : List Bytes) : Option (List Bytes) :=
  if context.length = 0 then some out
  else if 2 ^ 31 ≤ padTo64 context.length then none
  else addVector (padBuffer context (padTo64 context.length)) out

def encodeCreateRequest (req : CreateArgs) (out : List Bytes) : Option (List Bytes) :=
  match Name.ofString req.name with
  | .invalid => none
  | .absent => do
    let out ← addVector (createFixed req req.nameLength) out
    -- one octet of a name there must be, and the contexts are aligned behind it
    let out ← addVector (zeros 8) out
    addCreateContext req.createContext out
  | .units us => do
    let len := 2 * us.length % 2 ^ 16
    let out ← addVector (createFixed req len |> setUint16 46 len) out
    let out ← addVector
      (padBuffer (utf16Octets (backslashes us)) (padTo64 (2 * us.length))) out
    addCreateContext req.createContext out

def encodeCloseRequest (flags : Nat) (fileId : FileId) (out : List Bytes) : Option (List Bytes) :=
  addVector (zeros 24 |> setUint16 0 24 |> setUint16 2 flags |> (patch · 8 fileId.1)) out

def encodeFlushRequest (fileId : FileId) (out : List Bytes) : Option (List Bytes) :=
  addVector (zeros 24 |> setUint16 0 24 |> (patch · 8 fileId.1)) out

/-- `struct smb2_read_request`; `buf` says that the caller supplied a buffer. -/
structure ReadArgs where
  flags : Nat := 0
  length : UInt32 := 0
  offset : Nat := 0
  buf : Bool := true
  fileId : FileId
  minimumCount : Nat := 0
  channel : Nat := 0
  remainingBytes : Nat := 0
  readChannelInfoLength : Nat := 0
  readChannelInfo : Option Memory := none

def READ_REQUEST_SIZE : Nat := 49

/-- The length that is asked for: without multi-credit support 64 KiB at most. -/
def clampLength (S : Settings) (length : UInt32) : UInt32 :=
  if !S.supportsMultiCredit && 65536 < length.toNat then 65536 else length

/-- The channel information, which only a passthrough context sends. -/
def addChannelInfo (passthrough : Bool) (len : Nat) (info : Option Memory) (out : List Bytes) :
    Option (List Bytes) :=
  match info with
  | some m =>
    if len = 0 then some out
    else if passthrough then addVector (padBuffer (m.read len) (padTo64 len)) out
    else none
  | none => some out

def encodeReadRequest (S : Settings) (passthrough : Bool) (req : ReadArgs) (out : List Bytes) :
    Option (List Bytes) :=
  let length := clampLength S req.length
  let fixed := zeros (READ_REQUEST_SIZE - 1)
    |> setUint16 0 READ_REQUEST_SIZE
    |> setUint8 3 req.flags
    |> setUint32 4 length.toNat
    |> setUint64 8 req.offset
    |> (patch · 16 req.fileId.1)
    |> setUint32 32 (if length = req.length then req.minimumCount else 0)
    |> setUint32 36 req.channel
    |> setUint32 40 req.remainingBytes
    |> setUint16 46 req.readChannelInfoLength
  let fixed := if req.readChannelInfoLength ≠ 0 ∧ req.readChannelInfo.isSome ∧ passthrough then
      fixed |> setUint16 44 (48 + HEADER_SIZE)
    else fixed
  do
    let out ← addVector fixed out
    let out ← addChannelInfo passthrough req.readChannelInfoLength req.readChannelInfo out
    if req.readChannelInfoLength = 0 then addVector [0] out else some out

structure WriteArgs where
  length : UInt32 := 0
  offset : Nat := 0
  buf : Memory
  fileId : FileId
  channel : Nat := 0
  remainingBytes : Nat := 0
  writeChannelInfoLength : Nat := 0
  writeChannelInfo : Option Memory := none
  flags : Nat := 0

def WRITE_REQUEST_SIZE : Nat := 49

def encodeWriteRequest (S : Settings) (passthrough : Bool) (req : WriteArgs) (out : List Bytes) :
    Option (List Bytes) :=
  let fixed := zeros (WRITE_REQUEST_SIZE - 1)
    |> setUint16 0 WRITE_REQUEST_SIZE
    |> setUint16 2 (HEADER_SIZE + 48)
    |> setUint32 4 (clampLength S req.length).toNat
    |> setUint64 8 req.offset
    |> (patch · 16 req.fileId.1)
    |> setUint32 32 req.channel
    |> setUint32 36 req.remainingBytes
    |> setUint16 42 req.writeChannelInfoLength
    |> setUint32 44 req.flags
  let fixed := if req.writeChannelInfoLength ≠ 0 ∧ req.writeChannelInfo.isSome ∧ passthrough then
      fixed |> setUint16 40 (48 + HEADER_SIZE)
    else fixed
  do
    let out ← addVector fixed out
    addChannelInfo passthrough req.writeChannelInfoLength req.writeChannelInfo out

structure LockElement where
  offset : Nat := 0
  length : Nat := 0
  flags : Nat := 0

/-- `struct smb2_lock_request`; `locks` is an array of `lock_count` elements, or `NULL`. -/
structure LockArgs where
  lockCount : Nat := 0
  lockSequenceNumber : Nat := 0
  lockSequenceIndex : Nat := 0
  fileId : FileId
  locks : Option (Nat → LockElement) := none

def LOCK_REQUEST_SIZE : Nat := 48
def LOCK_ELEMENT_SIZE : Nat := 24

def setLockElement (off : Nat) (e : LockElement) (iov : Bytes) : Bytes :=
  iov |> setUint64 off e.offset |> setUint64 (off + 8) e.length |> setUint32 (off + 16) e.flags

def encodeLockRequest (req : LockArgs) (out : List Bytes) : Option (List Bytes) :=
  let fixed := zeros LOCK_REQUEST_SIZE
    |> setUint16 0 LOCK_REQUEST_SIZE
    |> setUint16 2 req.lockCount
    |> setUint32 4 ((req.lockSequenceNumber <<< 28) ||| req.lockSequenceIndex)
    |> (patch · 8 req.fileId.1)
  match req.locks with
  | none => addVector fixed out
  | some locks =>
    if req.lockCount = 0 then addVector fixed out
    else do
      let out ← addVector (setLockElement 24 (locks 0) fixed) out
      if req.lockCount = 1 then some out
      else addVector ((List.range (req.lockCount - 1)).foldl
        (fun buf i => setLockElement (i * LOCK_ELEMENT_SIZE) (locks (i + 1)) buf)
        (zeros (padTo64 (LOCK_ELEMENT_SIZE * req.lockCount)))) out

structure IoctlArgs where
  ctlCode : Nat := 0
  fileId : FileId
  flags : Nat := 0
  input : Bytes := []

def IOCTL_REQUEST_SIZE : Nat := 57
def IOCTL_MAX_OUTPUT : Nat := 65535

def encodeIoctlRequest (req : IoctlArgs) (out : List Bytes) : Option (List Bytes) := do
  let out ← addVector (zeros (IOCTL_REQUEST_SIZE - 1)
    |> setUint16 0 IOCTL_REQUEST_SIZE
    |> setUint32 4 req.ctlCode
    |> (patch · 8 req.fileId.1)
    |> setUint32 24 (HEADER_SIZE + 56)
    |> setUint32 28 req.input.length
    |> setUint32 32 0
    |> setUint32 44 IOCTL_MAX_OUTPUT
    |> setUint32 48 req.flags) out
  if req.input = [] then some out else addVector req.input out

structure QueryDirectoryArgs where
  fileInformationClass : Nat := 0
  flags : Nat := 0
  fileIndex : Nat := 0
  fileId : FileId
  outputBufferLength : UInt32 := 0
  name : Option CString := none

def QUERY_DIRECTORY_REQUEST_SIZE : Nat := 33

def encodeQueryDirectoryRequest (req : QueryDirectoryArgs) (out : List Bytes) :
    Option (List Bytes) :=
  let fixed := zeros (QUERY_DIRECTORY_REQUEST_SIZE - 1)
    |> setUint16 0 QUERY_DIRECTORY_REQUEST_SIZE
    |> setUint8 2 req.fileInformationClass
    |> setUint8 3 req.flags
    |> setUint32 4 req.fileIndex
    |> (patch · 8 req.fileId.1)
    |> setUint16 24 (HEADER_SIZE + 32)
    |> setUint32 28 req.outputBufferLength.toNat
  match Name.ofString req.name with
  | .invalid => none
  | .absent => addVector fixed out
  | .units us => do
    let out ← addVector (fixed |> setUint16 26 (2 * us.length)) out
    addVector (utf16Octets us) out

structure ChangeNotifyArgs where
  flags : Nat := 0
  outputBufferLength : UInt32 := 0
  fileId : FileId
  completionFilter : Nat := 0

def encodeChangeNotifyRequest (req : ChangeNotifyArgs) (out : List Bytes) : Option (List Bytes) :=
  addVector (zeros 32
    |> setUint16 0 32
    |> setUint16 2 req.flags
    |> setUint32 4 req.outputBufferLength.toNat
    |> (patch · 8 req.fileId.1)
    |> setUint32 24 req.completionFilter) out

structure QueryInfoArgs where
  infoType : Nat := 0
  fileInfoClass : Nat := 0
  outputBufferLength : UInt32 := 0
  inputBufferLength : Nat := 0
  additionalInformation : Nat := 0
  flags : Nat := 0
  fileId : FileId

def QUERY_INFO_REQUEST_SIZE : Nat := 41

def encodeQueryInfoRequest (req : QueryInfoArgs) (out : List Bytes) : Option (List Bytes) :=
  if 0 < req.inputBufferLength then none
  else addVector (zeros (QUERY_INFO_REQUEST_SIZE - 1)
    |> setUint16 0 QUERY_INFO_REQUEST_SIZE
    |> setUint8 2 req.infoType
    |> setUint8 3 req.fileInfoClass
    |> setUint32 4 req.outputBufferLength.toNat
    |> setUint16 8 (HEADER_SIZE + 40)
    |> setUint32 12 req.inputBufferLength
    |> setUint32 16 req.additionalInformation
    |> setUint32 20 req.flags
    |> (patch · 24 req.fileId.1)) out

/-- `struct smb2_timeval`. -/
structure Timeval where
  sec : Int := 0
  usec : Int := 0
  deriving DecidableEq, Repr

/-- `smb2_timeval_to_win`. -/
def timevalToWin (tv : Timeval) : Nat :=
  ((tv.sec * 10000000 + 116444736000000000 + tv.usec * 10) % 2 ^ 64).toNat

/-- `smb2_tv_timeval_to_win`. -/
def tvTimevalToWin (tv : Timeval) : Nat :=
  if tv.sec = 0 ∧ tv.usec = 0 then 0
  else if tv.sec = 0xffffffff ∧ tv.usec = 0xffffffff then 0xffffffffffffffff
  else timevalToWin tv

/-- What `smb2_encode_set_info_request` can encode; the type and the class go with it. -/
inductive SetInfoInput
  | basic (creationTime lastAccessTime lastWriteTime changeTime : Timeval) (fileAttributes : Nat)
  | endOfFile (endOfFile : Nat)
  | rename (replaceIfExist : Nat) (fileName : CString)
  | disposition (deletePending : Nat)
  | other (infoType fileInfoClass : Nat)

def SetInfoInput.infoType : SetInfoInput → Nat
  | .other t _ => t
  | _ => 1

def SetInfoInput.fileInfoClass : SetInfoInput → Nat
  | .basic .. => 0x04
  | .endOfFile _ => 0x14
  | .rename .. => 0x0A
  | .disposition _ => 0x0D
  | .other _ c => c

/-- The payload of a SET_INFO. -/
def SetInfoInput.encode : SetInfoInput → Option Bytes
  | .basic ct at' wt ht attributes => some (zeros 40
    |> setUint64 0 (tvTimevalToWin ct)
    |> setUint64 8 (tvTimevalToWin at')
    |> setUint64 16 (tvTimevalToWin wt)
    |> setUint64 24 (tvTimevalToWin ht)
    |> setUint32 32 attributes
    |> setUint32 36 0)
  | .endOfFile n => some (zeros 8 |> setUint64 0 n)
  | .rename replace name =>
    match utf8ToUtf16 name.octets with
    | none => none
    | some us => some (zeros (28 + us.length * 2)
      |> setUint8 0 replace
      |> setUint64 8 0
      |> setUint32 16 (us.length * 2)
      |> (patch · 20 (utf16Octets (backslashes us))))
  | .disposition b => some (zeros 1 |> setUint8 0 b)
  | .other _ _ => none

/-- `struct smb2_set_info_request`.  A passthrough context sends `buffer` as it is. -/
structure SetInfoArgs where
  additionalInformation : Nat := 0
  fileId : FileId
  input : SetInfoInput
  buffer : Bytes := []
  bufferOffset : Nat := 0

def SET_INFO_REQUEST_SIZE : Nat := 33

def encodeSetInfoRequest (passthrough : Bool) (req : SetInfoArgs) (out : List Bytes) :
    Option (List Bytes) :=
  let fixed := zeros (SET_INFO_REQUEST_SIZE - 1)
    |> setUint16 0 SET_INFO_REQUEST_SIZE
    |> setUint8 2 req.input.infoType
    |> setUint8 3 req.input.fileInfoClass
    |> setUint16 8 (HEADER_SIZE + 32)
    |> setUint32 12 req.additionalInformation
    |> (patch · 16 req.fileId.1)
  if passthrough then
    -- with a buffer, its length and offset go into the buffer
    if req.buffer = [] then
      addVector (fixed |> setUint32 4 0 |> setUint16 8 req.bufferOffset) out
    else do
      let out ← addVector fixed out
      addVector (req.buffer |> setUint32 4 req.buffer.length |> setUint16 8 req.bufferOffset) out
  else match req.input.encode with
    | none => none
    | some data => do
      let out ← addVector (fixed |> setUint32 4 data.length) out
      addVector data out

def encodeOplockBreakAcknowledgement (oplockLevel : Nat) (fileId : FileId) (out : List Bytes) :
    Option (List Bytes) :=
  addVector (zeros 24 |> setUint16 0 24 |> setUint8 2 oplockLevel |> (patch · 8 fileId.1)) out

/-- Flags, state and duration all go to offset 4. -/
def encodeLeaseBreakAcknowledgement (flags : Nat) (leaseKey : Octets 16)
    (leaseState leaseDuration : Nat) (out : List Bytes) : Option (List Bytes) :=
  addVector (zeros 36
    |> setUint16 0 36
    |> setUint32 4 flags
    |> (patch · 8 leaseKey.1)
    |> setUint32 4 leaseState
    |> setUint32 4 leaseDuration) out

/-! ## Commands -/

/-- A request, or the vectors of a reply. -/
inductive Cmd
  | negotiate (req : NegotiateArgs)
  | sessionSetup (req : SessionSetupArgs)
  | logoff
  | treeConnect (req : TreeConnectArgs)
  | treeDisconnect
  | create (req : CreateArgs)
  | close (flags : Nat) (fileId : FileId)
  | flush (fileId : FileId)
  | read (req : ReadArgs)
  | write (req : WriteArgs)
  | lock (req : LockArgs)
  | ioctl (req : IoctlArgs)
  | echo
  | queryDirectory (req : QueryDirectoryArgs)
  | changeNotify (req : ChangeNotifyArgs)
  | queryInfo (req : QueryInfoArgs)
  | setInfo (req : SetInfoArgs)
  | oplockBreak (oplockLevel : Nat) (fileId : FileId)
  | leaseBreak (flags : Nat) (leaseKey : Octets 16) (leaseState leaseDuration : Nat)
  | reply (command : Command) (vectors : List Bytes)

namespace Cmd

def command : Cmd → Command
  | negotiate _ => .negotiate
  | sessionSetup _ => .sessionSetup
  | logoff => .logoff
  | treeConnect _ => .treeConnect
  | treeDisconnect => .treeDisconnect
  | create _ => .create
  | close _ _ => .close
  | flush _ => .flush
  | read _ => .read
  | write _ => .write
  | lock _ => .lock
  | ioctl _ => .ioctl
  | echo => .echo
  | queryDirectory _ => .queryDirectory
  | changeNotify _ => .changeNotify
  | queryInfo _ => .queryInfo
  | setInfo _ => .setInfo
  | oplockBreak _ _ => .oplockBreak
  | leaseBreak _ _ _ _ => .oplockBreak
  | reply command _ => command

/-- The `smb2_encode_*` function of a command. -/
def encode (S : Settings) (version : Version) (passthrough : Bool) :
    Cmd → List Bytes → Option (List Bytes)
  | negotiate req => encodeNegotiateRequest S version req
  | sessionSetup req => encodeSessionSetupRequest req
  | logoff => encodeLogoffRequest
  | treeConnect req => encodeTreeConnectRequest req
  | treeDisconnect => encodeTreeDisconnectRequest
  | create req => encodeCreateRequest req
  | close flags fileId => encodeCloseRequest flags fileId
  | flush fileId => encodeFlushRequest fileId
  | read req => encodeReadRequest S passthrough req
  | write req => encodeWriteRequest S passthrough req
  | lock req => encodeLockRequest req
  | ioctl req => encodeIoctlRequest req
  | echo => encodeEchoRequest
  | queryDirectory req => encodeQueryDirectoryRequest req
  | changeNotify req => encodeChangeNotifyRequest req
  | queryInfo req => encodeQueryInfoRequest req
  | setInfo req => encodeSetInfoRequest passthrough req
  | oplockBreak level fileId => encodeOplockBreakAcknowledgement level fileId
  | leaseBreak flags key state duration => encodeLeaseBreakAcknowledgement flags key state duration
  | reply _ vectors => fun out => vectors.foldlM (fun out v => addVector v out) out

/-- What follows the padding: the payload of a WRITE. -/
def finish (S : Settings) : Cmd → List Bytes → Option (List Bytes)
  | write req, out => addVector (req.buf.read (clampLength S req.length).toNat) out
  | _, out => some out

/-- The vectors of a command, the header vector first. -/
def marshal (S : Settings) (version : Version) (passthrough : Bool) (c : Cmd) :
    Option (List Bytes) := do
  let out ← c.encode S version passthrough [zeros HEADER_SIZE]
  let out ← padTo64Bit out
  c.finish S out

/-- The application supplied a buffer for what it reads. -/
def hasBuffer (S : Settings) : Cmd → Bool
  | read req => clampLength S req.length = 0 || req.buf
  | _ => true

/-- The credit charge of this many octets: the length less one is unsigned, and the header has
16 bits for the charge. -/
def chargeFor (length : UInt32) : Nat := ((length - 1).toNat / 65536 + 1) % 65536

/-- The credit charge that an encoder puts in the place of the allocator's. -/
def creditCharge (S : Settings) (c : Cmd) : Option Nat :=
  if S.supportsMultiCredit then
    match c with
    | read req => some (chargeFor (clampLength S req.length))
    | write req => some (chargeFor (clampLength S req.length))
    | queryDirectory req => some (chargeFor req.outputBufferLength)
    | _ => none
  else none

/-- The buffers that the application supplied for the reply. -/
def inIov (S : Settings) : Cmd → List Nat
  | read req => if clampLength S req.length = 0 then [] else [(clampLength S req.length).toNat]
  | _ => []

/-- The `smb2_cmd_*_async` function of a command. -/
def async (S : Settings) (ctx : Context) (c : Cmd) (cb : Callback) : Option Pdu × Context :=
  match ctx.allocatePdu c.command cb with
  | (none, ctx) => (none, ctx)
  | (some p, ctx) =>
    if c.hasBuffer S then
      match c.marshal S ctx.version ctx.passthrough with
      | none => (none, ctx)
      | some out =>
        let h := { p.header with creditCharge := (c.creditCharge S).getD p.header.creditCharge }
        (some { p with header := h, out := out, inIov := c.inIov S }, ctx)
    else (none, ctx)

end Cmd

section
variable {S : Settings} {version : Version} {passthrough : Bool} {out o : List Bytes}

/-! ## Vectors -/

theorem length_setUint (width off value : Nat) (iov : Bytes) :
    (setUint width off value iov).length = iov.length := by
  unfold setUint
  split
  · rename_i h
    exact length_patch (by simpa using h)
  · rfl

@[simp] theorem length_setUint8 (off value : Nat) (iov : Bytes) :
    (setUint8 off value iov).length = iov.length := length_setUint 1 off value iov

@[simp] theorem length_setUint16 (off value : Nat) (iov : Bytes) :
    (setUint16 off value iov).length = iov.length := length_setUint 2 off value iov

@[simp] theorem length_setUint32 (off value : Nat) (iov : Bytes) :
    (setUint32 off value iov).length = iov.length := length_setUint 4 off value iov

@[simp] theorem length_setUint64 (off value : Nat) (iov : Bytes) :
    (setUint64 off value iov).length = iov.length := length_setUint 8 off value iov

/-- A field that was set reads back. -/
theorem slice_setUint_same {w off value : Nat} {iov : Bytes} (h : off + w ≤ iov.length) :
    slice (setUint w off value iov) off w = le w value := by
  have hsame : slice (patch iov off (le w value)) off (le w value).length = le w value :=
    slice_patch_same (by omega)
  rw [length_le] at hsame
  rw [setUint, if_pos h]
  exact hsame

/-- Setting a field leaves what is before it. -/
theorem slice_setUint_before {w off value o n : Nat} {iov : Bytes} (h : o + n ≤ off) :
    slice (setUint w off value iov) o n = slice iov o n := by
  unfold setUint
  split
  · exact slice_patch_before h (by omega)
  · rfl

theorem drop_setUint {w off value k : Nat} {iov : Bytes} (hk : off + w ≤ k) :
    (setUint w off value iov).drop k = iov.drop k := by
  unfold setUint
  split
  · exact drop_patch (by omega) (by rw [length_le]; omega)
  · rfl

/-- Setting a field leaves what is behind it. -/
theorem slice_setUint_after {w off value o n : Nat} {iov : Bytes} (h : off + w ≤ o) :
    slice (setUint w off value iov) o n = slice iov o n := by
  rw [slice, drop_setUint h]
  rfl

/-- Setting a field to what is there. -/
theorem setUint_slice {w off value : Nat} {iov : Bytes} (h : slice iov off w = le w value) :
    setUint w off value iov = iov := by
  unfold setUint
  split
  · rename_i hfits
    rw [← h, patch_slice hfits]
  · rfl

@[simp] theorem Memory.length_read (m : Memory) (n : Nat) : (m.read n).length = n := by
  simp [Memory.read]

theorem addVector_eq {v : Bytes} (h : addVector v out = some o) :
    o = out ++ [v] ∧ o.length ≤ MAX_VECTORS := by
  unfold addVector at h
  split at h
  · cases h
  · cases h
    refine ⟨rfl, ?_⟩
    rw [List.length_append, List.length_singleton]
    omega

/-- Vectors have been added, and there is room for all of them. -/
structure Grown (out o : List Bytes) : Prop where
  added : out <+: o
  room : out.length ≤ MAX_VECTORS → o.length ≤ MAX_VECTORS

theorem Grown.refl (out : List Bytes) : Grown out out := ⟨List.prefix_refl _, id⟩

theorem Grown.trans {a b c : List Bytes} (h₁ : Grown a b) (h₂ : Grown b c) : Grown a c :=
  ⟨h₁.added.trans h₂.added, fun h => h₂.room (h₁.room h)⟩

theorem addVector_grown {v : Bytes} (h : addVector v out = some o) : Grown out o := by
  obtain ⟨rfl, hle⟩ := addVector_eq h
  exact ⟨List.prefix_append _ _, fun _ => hle⟩

/-- A function that only adds vectors. -/
def Adds (f : List Bytes → Option (List Bytes)) : Prop := ∀ out o, f out = some o → Grown out o

theorem Adds.vector (v : Bytes) : Adds (addVector v) := fun _ _ h => addVector_grown h

theorem Adds.nothing : Adds some := fun out _ h => by
  cases h
  exact .refl out

theorem Adds.refused : Adds fun _ => none := fun _ _ h => by cases h

theorem Adds.bind {f g : List Bytes → Option (List Bytes)} (hf : Adds f) (hg : Adds g) :
    Adds fun out => f out >>= g := by
  intro out o h
  obtain ⟨m, hm, ho⟩ := Option.bind_eq_some_iff.mp h
  exact (hf out m hm).trans (hg m o ho)

/-- One of two, whatever the condition. -/
theorem Adds.ite {p : Prop} [Decidable p] {f g : List Bytes → Option (List Bytes)} (hf : Adds f)
    (hg : Adds g) : Adds fun out => if p then f out else g out := by
  by_cases h : p
  · simpa only [h, if_true] using hf
  · simpa only [h, if_false] using hg

theorem encodeNegotiateRequest_adds (S : Settings) (version : Version) (req : NegotiateArgs) :
    Adds (encodeNegotiateRequest S version req) := by
  refine .bind (.vector _) (.ite ?_ .nothing)
  exact .bind (.vector _) (.vector _)

theorem addCreateContext_adds (context : Bytes) : Adds (addCreateContext context) :=
  .ite .nothing (.ite .refused (.vector _))

theorem encodeCreateRequest_adds (req : CreateArgs) : Adds (encodeCreateRequest req) := by
  unfold encodeCreateRequest
  cases Name.ofString req.name with
  | invalid => exact .refused
  | absent => exact .bind (.vector _) (.bind (.vector _) (addCreateContext_adds _))
  | units us => exact .bind (.vector _) (.bind (.vector _) (addCreateContext_adds _))

theorem addChannelInfo_adds (passthrough : Bool) (len : Nat) (info : Option Memory) :
    Adds (addChannelInfo passthrough len info) := by
  cases info with
  | none => exact .nothing
  | some m => exact .ite .nothing (.ite (.vector _) .refused)

theorem encodeLockRequest_adds (req : LockArgs) : Adds (encodeLockRequest req) := by
  unfold encodeLockRequest
  cases req.locks with
  | none => exact .vector _
  | some locks => exact .ite (.vector _) (.bind (.vector _) (.ite .nothing (.vector _)))

theorem encodeQueryDirectoryRequest_adds (req : QueryDirectoryArgs) :
    Adds (encodeQueryDirectoryRequest req) := by
  unfold encodeQueryDirectoryRequest
  cases Name.ofString req.name with
  | invalid => exact .refused
  | absent => exact .vector _
  | units us => exact .bind (.vector _) (.vector _)

theorem encodeSetInfoRequest_adds (passthrough : Bool) (req : SetInfoArgs) :
    Adds (encodeSetInfoRequest passthrough req) := by
  refine .ite (.ite (.vector _) (.bind (.vector _) (.vector _))) ?_
  cases req.input.encode with
  | none => exact .refused
  | some data => exact .bind (.vector _) (.vector _)

/-- **Every encoder only adds vectors.** -/
theorem Cmd.encode_adds (c : Cmd) : Adds (c.encode S version passthrough) := by
  cases c with
  | negotiate req => exact encodeNegotiateRequest_adds S version req
  | sessionSetup req => exact .bind (.vector _) (.vector _)
  | treeConnect req => exact .bind (.vector _) (.vector _)
  | create req => exact encodeCreateRequest_adds req
  | read req => exact .bind (.vector _) (.bind (addChannelInfo_adds _ _ _) (.ite (.vector _) .nothing))
  | write req => exact .bind (.vector _) (addChannelInfo_adds _ _ _)
  | lock req => exact encodeLockRequest_adds req
  | ioctl req => exact .bind (.vector _) (.ite .nothing (.vector _))
  | queryDirectory req => exact encodeQueryDirectoryRequest_adds req
  | queryInfo req => exact .ite .refused (.vector _)
  | setInfo req => exact encodeSetInfoRequest_adds passthrough req
  | reply command vectors =>
    intro out
    induction vectors generalizing out with
    | nil => exact Adds.nothing out
    | cons v vs ih => exact Adds.bind (.vector v) (fun out => ih out) out
  | _ => exact .vector _

/-! ## Padding -/

/-- The octets of some vectors. -/
def octetCount (out : List Bytes) : Nat := (out.map List.length).sum

theorem octetCount_append (a b : List Bytes) :
    octetCount (a ++ b) = octetCount a + octetCount b := by
  simp [octetCount]

theorem octetCount_eq (out : List Bytes) : out.flatten.length = octetCount out := by
  simp [octetCount, List.length_flatten]

/-- Padded vectors are a multiple of eight octets. -/
theorem padTo64Bit_spec (h : padTo64Bit out = some o) :
    Grown out o ∧ octetCount o % 8 = 0 ∧ octetCount o < octetCount out + 8 := by
  unfold padTo64Bit at h
  simp only at h
  split at h
  · rename_i hmod
    cases h
    exact ⟨.refl _, hmod, by omega⟩
  · have hmod : octetCount out % 8 ≠ 0 := by assumption
    have hcount : octetCount o = octetCount out + (8 - octetCount out % 8) := by
      rw [(addVector_eq h).1, octetCount_append]
      simp [octetCount]
    exact ⟨addVector_grown h, by omega, by omega⟩

namespace Cmd

/-- What follows the padding has a multiple of eight octets too. -/
def Padded (S : Settings) : Cmd → Prop
  | write req => (clampLength S req.length).toNat % 8 = 0
  | _ => True

theorem finish_spec {c : Cmd} (h : c.finish S out = some o) (hpad : octetCount out % 8 = 0) :
    Grown out o ∧ (octetCount o % 8 = 0 ↔ c.Padded S) := by
  unfold finish at h
  split at h
  · obtain ⟨rfl, -⟩ := addVector_eq h
    refine ⟨addVector_grown h, ?_⟩
    rw [octetCount_append]
    simp only [octetCount, List.map_cons, List.map_nil, List.sum_cons, List.sum_nil,
      Memory.length_read, Padded] at hpad ⊢
    omega
  · rename_i hne
    cases h
    refine ⟨.refl _, ?_⟩
    cases c with
    | write req => exact absurd rfl (hne req)
    | _ => simp only [Padded, hpad]

/-- **What an encoder leaves**: a header vector, no more vectors than there is room for, and a
multiple of eight octets unless the payload of a WRITE follows the padding. -/
theorem marshal_spec {c : Cmd} (h : c.marshal S version passthrough = some out) :
    (∃ body, out = zeros HEADER_SIZE :: body) ∧ out.length ≤ MAX_VECTORS ∧
      (octetCount out % 8 = 0 ↔ c.Padded S) := by
  unfold marshal at h
  obtain ⟨o₁, h₁, h⟩ := Option.bind_eq_some_iff.mp h
  obtain ⟨o₂, h₂, h₃⟩ := Option.bind_eq_some_iff.mp h
  have henc := c.encode_adds _ _ h₁
  obtain ⟨hpad, hmod, -⟩ := padTo64Bit_spec h₂
  obtain ⟨hfin, hiff⟩ := finish_spec h₃ hmod
  have hall := (henc.trans hpad).trans hfin
  obtain ⟨body, hbody⟩ := hall.added
  exact ⟨⟨body, hbody.symm⟩, hall.room (by simp [MAX_VECTORS]), hiff⟩

end Cmd

end

end Libsmb2
