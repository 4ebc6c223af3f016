import Libsmb2.QueryInfo
import Libsmb2.Process.RequestBounds
import Libsmb2.Util.Block

/-!
# The server's reply to a QUERY_INFO

The encoders of `smb2-data-file-info.c` and `smb2-data-filesystem-info.c`, each as the stores that it
makes in the output buffer and what it returns, and `smb2_encode_query_info_reply`, which allocates
the buffer, picks the encoder by the class that was asked for and cuts or pads what it has made.

* `Encoding` — the stores of an encoder and its result;
* `encodeQueryInfoReply` — the reply.

Vectors and the fixed part are allocated without failure.
-/

set_option autoImplicit false

namespace Libsmb2.QueryInfo

open Util

/-- What an encoder stores, in order, and what it returns; `none` is -1. -/
structure Encoding where
  stores : List Store
  ret : Option Nat

/-! ## Files -/

/-- `smb2_encode_file_basic_info`. -/
def encodeFileBasicInfo (fs : FileBasicInfo) : Encoding where
  stores := [
    .set 0 (le 8 (tvTimevalToWin fs.creationTime)),
    .set 8 (le 8 (tvTimevalToWin fs.lastAccessTime)),
    .set 16 (le 8 (tvTimevalToWin fs.lastWriteTime)),
    .set 24 (le 8 (tvTimevalToWin fs.changeTime)),
    .set 32 (le 4 fs.fileAttributes.toNat),
    .set 36 (le 4 0)]
  ret := some 40

/-- `smb2_encode_file_standard_info`. -/
def encodeFileStandardInfo (fs : FileStandardInfo) : Encoding where
  stores := [
    .set 0 (le 8 fs.allocationSize.toNat),
    .set 8 (le 8 fs.endOfFile.toNat),
    .set 16 (le 4 fs.numberOfLinks.toNat),
    .set 20 (le 1 fs.deletePending.toNat),
    .set 21 (le 1 fs.directory.toNat),
    .set 22 (le 2 0)]
  ret := some 24

/-- `smb2_encode_file_position_info`. -/
def encodeFilePositionInfo (fs : FilePositionInfo) : Encoding where
  stores := [.set 0 (le 8 fs.currentByteOffset.toNat)]
  ret := some 8

/-- A field of a vector that begins `k` octets behind. -/
def shift (k : Nat) : Store → Store
  | .set off bs => .set (k + off) bs
  | .copy off bs => .copy (k + off) bs

/-- What `smb2_encode_file_all_info` stores before the length of the name. -/
def allFields (fs : FileAllInfo) : List Store :=
  (encodeFileBasicInfo fs.basic).stores ++
    (encodeFileStandardInfo fs.standard).stores.map (shift 40) ++ [
    .set 64 (le 8 fs.indexNumber.toNat),
    .set 72 (le 4 fs.eaSize.toNat),
    .set 76 (le 4 fs.accessFlags.toNat),
    .set 80 (le 8 fs.currentByteOffset.toNat),
    .set 88 (le 4 fs.mode.toNat),
    .set 92 (le 4 fs.alignmentRequirement.toNat)]

/-- `smb2_encode_file_all_info`. -/
def encodeFileAllInfo (size : Nat) (fs : FileAllInfo) : Encoding :=
  if size < 40 then ⟨[], none⟩
  else if size < 64 then ⟨(encodeFileBasicInfo fs.basic).stores, none⟩
  else match fs.name with
    | none => ⟨allFields fs ++ [.set 96 (le 4 0)], some 100⟩
    | some name =>
      match utf8ToUtf16 name.octets with
      | none => ⟨allFields fs, none⟩
      | some us => ⟨allFields fs ++ [.set 96 (le 4 (2 * us.length))] ++ [.copy 100 (utf16Octets us)],
          some (100 + 2 * us.length)⟩

/-- `smb2_encode_file_network_open_info`. -/
def encodeFileNetworkOpenInfo (size : Nat) (fs : FileNetworkOpenInfo) : Encoding :=
  if size < 56 then ⟨[], none⟩
  else {
    stores := [
      .set 0 (le 8 (tvTimevalToWin fs.creationTime)),
      .set 8 (le 8 (tvTimevalToWin fs.lastAccessTime)),
      .set 16 (le 8 (tvTimevalToWin fs.lastWriteTime)),
      .set 24 (le 8 (tvTimevalToWin fs.changeTime)),
      .set 32 (le 8 fs.allocationSize.toNat),
      .set 40 (le 8 fs.endOfFile.toNat),
      .set 48 (le 4 fs.fileAttributes.toNat),
      .set 52 (le 4 0)]
    ret := some 56 }

/-- The `memset` behind a name that is shorter than it is said to be. -/
def namePadding (nameLen fileNameLength : Nat) : List Store :=
  if nameLen < fileNameLength then [.copy (4 + nameLen) (zeros (fileNameLength - nameLen))] else []

/-- `smb2_encode_file_normalized_name_info`. -/
def encodeFileNormalizedNameInfo (size : Nat) (fs : FileNameInfo) : Encoding :=
  if size < (4 + fs.fileNameLength.toNat) % 2 ^ 32 then ⟨[], none⟩
  else match fs.name with
    | none => ⟨[.set 0 (le 4 0)], some 4⟩
    | some name =>
      match utf8ToUtf16 name.octets with
      | none => ⟨[], none⟩
      | some us =>
        let nameLen := 2 * us.length
        let fileNameLength := max fs.fileNameLength.toNat nameLen
        if size < nameLen + 4 then ⟨[], none⟩
        else ⟨.copy 4 (utf16Octets us) :: namePadding nameLen fileNameLength ++
          [.set 0 (le 4 fileNameLength)], some (4 + fileNameLength)⟩

/-! ## File systems -/

/-- `smb2_utf8_to_utf16` of a name that is not looked at afterwards: without one, or if it is not
valid, a null pointer is read. -/
def fsNameUnits (name : Option CString) : Except Overrun (List Nat) :=
  match name.bind fun s => utf8ToUtf16 s.octets with
  | none => .error .read
  | some us => .ok us

/-- What `smb2_encode_file_fs_volume_info` stores before the name. -/
def volumeFields (fs : FsVolumeInfo) (nameLen : Nat) : List Store := [
  .set 0 (le 8 (timevalToWin fs.creationTime)),
  .set 8 (le 4 fs.volumeSerialNumber.toNat),
  .set 16 (le 1 fs.supportsObjects.toNat),
  .set 17 (le 1 fs.reserved.toNat),
  .set 12 (le 4 nameLen)]

/-- `smb2_encode_file_fs_volume_info`. -/
def encodeFsVolumeInfo (fs : FsVolumeInfo) : Except Overrun Encoding :=
  (fsNameUnits fs.volumeLabel).map fun us =>
    ⟨volumeFields fs (2 * us.length) ++ [.copy 18 (utf16Octets us)], some (18 + 2 * us.length)⟩

/-- `smb2_encode_file_fs_size_info`. -/
def encodeFsSizeInfo (size : Nat) (fs : FsSizeInfo) : Encoding :=
  if size < 24 then ⟨[], none⟩
  else {
    stores := [
      .set 0 (le 8 fs.totalAllocationUnits.toNat),
      .set 8 (le 8 fs.availableAllocationUnits.toNat),
      .set 16 (le 4 fs.sectorsPerAllocationUnit.toNat),
      .set 20 (le 4 fs.bytesPerSector.toNat)]
    ret := some 24 }

/-- `smb2_encode_file_fs_device_info`. -/
def encodeFsDeviceInfo (size : Nat) (fs : FsDeviceInfo) : Encoding :=
  if size < 8 then ⟨[], none⟩
  else {
    stores := [
      .set 0 (le 4 fs.deviceType.toNat),
      .set 4 (le 4 fs.characteristics.toNat)]
    ret := some 8 }

/-- What `smb2_encode_file_fs_attribute_info` stores before the name. -/
def attributeFields (fs : FsAttributeInfo) (nameLen : Nat) : List Store := [
  .set 0 (le 4 fs.filesystemAttributes.toNat),
  .set 4 (le 4 fs.maximumComponentNameLength.toNat),
  .set 8 (le 4 nameLen)]

/-- `smb2_encode_file_fs_attribute_info`. -/
def encodeFsAttributeInfo (size : Nat) (fs : FsAttributeInfo) : Except Overrun Encoding :=
  if size < 12 then .ok ⟨[], none⟩
  else (fsNameUnits fs.filesystemName).map fun us =>
    ⟨attributeFields fs (2 * us.length) ++ [.copy 12 (utf16Octets us)], some (12 + 2 * us.length)⟩

/-- `smb2_encode_file_fs_control_info`. -/
def encodeFsControlInfo (size : Nat) (fs : FsControlInfo) : Encoding :=
  if size < 48 then ⟨[], none⟩
  else {
    stores := [
      .set 0 (le 8 fs.freeSpaceStartFiltering.toNat),
      .set 8 (le 8 fs.freeSpaceThreshold.toNat),
      .set 16 (le 8 fs.freeSpaceStopFiltering.toNat),
      .set 24 (le 8 fs.defaultQuotaThreshold.toNat),
      .set 32 (le 8 fs.defaultQuotaLimit.toNat),
      .set 40 (le 4 fs.fileSystemControlFlags.toNat)]
    ret := some 44 }

/-- `smb2_encode_file_fs_full_size_info`. -/
def encodeFsFullSizeInfo (size : Nat) (fs : FsFullSizeInfo) : Encoding :=
  if size < 32 then ⟨[], none⟩
  else {
    stores := [
      .set 0 (le 8 fs.totalAllocationUnits.toNat),
      .set 8 (le 8 fs.callerAvailableAllocationUnits.toNat),
      .set 16 (le 8 fs.actualAvailableAllocationUnits.toNat),
      .set 24 (le 4 fs.sectorsPerAllocationUnit.toNat),
      .set 28 (le 4 fs.bytesPerSector.toNat)]
    ret := some 32 }

/-- `smb2_encode_file_fs_object_id_info`. -/
def encodeFsObjectIdInfo (size : Nat) (fs : FsObjectIdInfo) : Encoding :=
  if size < 64 then ⟨[], none⟩
  else {
    stores := [.copy 0 fs.objectId.1, .copy 16 fs.extendedInfo.1]
    ret := some 64 }

/-- `smb2_encode_file_fs_sector_size_info`. -/
def encodeFsSectorSizeInfo (size : Nat) (fs : FsSectorSizeInfo) : Encoding :=
  if size < 28 then ⟨[], none⟩
  else {
    stores := [
      .set 0 (le 4 fs.logicalBytesPerSector.toNat),
      .set 4 (le 4 fs.physicalBytesPerSectorForAtomicity.toNat),
      .set 8 (le 4 fs.physicalBytesPerSectorForPerformance.toNat),
      .set 12 (le 4 fs.fileSystemEffectivePhysicalBytesPerSectorForAtomicity.toNat),
      .set 16 (le 4 fs.flags.toNat),
      .set 20 (le 4 fs.byteOffsetForSectorAlignment.toNat),
      .set 24 (le 4 fs.byteOffsetForPartitionAlignment.toNat)]
    ret := some 28 }

/-- The encoder of the class, in a buffer of this size. -/
def encodeInfo (size : Nat) : Info → Except Overrun Encoding
  | .basic fs => .ok (encodeFileBasicInfo fs)
  | .standard fs => .ok (encodeFileStandardInfo fs)
  | .position fs => .ok (encodeFilePositionInfo fs)
  | .all fs => .ok (encodeFileAllInfo size fs)
  | .networkOpen fs => .ok (encodeFileNetworkOpenInfo size fs)
  | .normalizedName fs => .ok (encodeFileNormalizedNameInfo size fs)
  | .fsVolume fs => encodeFsVolumeInfo fs
  | .fsSize fs => .ok (encodeFsSizeInfo size fs)
  | .fsDevice fs => .ok (encodeFsDeviceInfo size fs)
  | .fsAttribute fs => encodeFsAttributeInfo size fs
  | .fsControl fs => .ok (encodeFsControlInfo size fs)
  | .fsFullSize fs => .ok (encodeFsFullSizeInfo size fs)
  | .fsObjectId fs => .ok (encodeFsObjectIdInfo size fs)
  | .fsSectorSize fs => .ok (encodeFsSectorSizeInfo size fs)

/-! ## Streams -/

/-- `struct smb2_file_stream_info`; the last of a list has no next entry. -/
structure StreamInfo where
  streamNameLength : UInt32
  streamSize : UInt64
  streamAllocationSize : UInt64
  streamName : Option CString
  deriving DecidableEq, Repr

/-- A field at a `uint32_t` that is handed over as an `int` and compared as a `size_t`; one that
begins before the block is a copy to far behind it. -/
def setAt (size offset : Nat) (bs : Bytes) : List Store :=
  let off := offset % 2 ^ 32
  if off < 2 ^ 31 then [.set off bs]
  else if off + bs.length < 2 ^ 32 ∨ size < off + bs.length - 2 ^ 32 then []
  else [.copy (2 ^ 64 - 2 ^ 32 + off) bs]

namespace StreamInfo

/-- `stream_name_length`, which is doubled. -/
def doubled (fs : StreamInfo) : Nat := 2 * fs.streamNameLength.toNat % 2 ^ 32

/-- The octets of the name, of which there are none without one; `none` is a name that is not
valid. -/
def nameOctets (fs : StreamInfo) : Option Bytes :=
  match fs.streamName with
  | none => some []
  | some name => (utf8ToUtf16 name.octets).map utf16Octets

/-- What is stored before the name. -/
def fields (fs : StreamInfo) (size offset : Nat) : List Store :=
  setAt size (offset + 8) (le 8 fs.streamSize.toNat) ++ setAt size (offset + 4) (le 4 fs.doubled) ++
    setAt size (offset + 16) (le 8 fs.streamAllocationSize.toNat)

/-- Where the stream ends, a `uint32_t`. -/
def stop (fs : StreamInfo) (offset : Nat) : Nat := (offset + 24 + fs.doubled) % 2 ^ 32

end StreamInfo

/-- The rest of the loop of `smb2_encode_file_stream_info`, from an offset and a stream on. -/
def encodeStreams (size offset : Nat) (fs : StreamInfo) : List StreamInfo → Encoding
  | [] =>
    match fs.nameOctets with
    | none => ⟨fs.fields size offset, none⟩
    | some name =>
      ⟨fs.fields size offset ++ [.copy ((offset + 24) % 2 ^ 32) name] ++ setAt size offset (le 4 0),
        some (fs.stop offset)⟩
  | next :: rest =>
    match fs.nameOctets with
    | none => ⟨fs.fields size offset, none⟩
    | some name =>
      let padded := padTo64 (fs.stop offset)
      let stores := fs.fields size offset ++ [.copy ((offset + 24) % 2 ^ 32) name] ++
        setAt size offset (le 4 padded) ++
        (List.range' (fs.stop offset) (padded - fs.stop offset)).flatMap (setAt size · [0])
      let offset := max (fs.stop offset) padded
      if padded ≠ 0 ∧ (offset + 24) % 2 ^ 32 ≤ size then
        let later := encodeStreams size offset next rest
        ⟨stores ++ later.stores, later.ret⟩
      else ⟨stores, some offset⟩

/-! ## The reply -/

def Info.infoClass : Info → InfoClass
  | .basic _ => .basic
  | .standard _ => .standard
  | .position _ => .position
  | .all _ => .all
  | .networkOpen _ => .networkOpen
  | .normalizedName _ => .normalizedName
  | .fsVolume _ => .fsVolume
  | .fsSize _ => .fsSize
  | .fsDevice _ => .fsDevice
  | .fsAttribute _ => .fsAttribute
  | .fsControl _ => .fsControl
  | .fsFullSize _ => .fsFullSize
  | .fsObjectId _ => .fsObjectId
  | .fsSectorSize _ => .fsSectorSize

/-- What there is for a type and a class: an encoder, nothing, or not even the type. -/
inductive Coding
  | info (c : InfoClass)
  | streams
  | uncoded
  | unknown
  deriving DecidableEq, Repr

def fileCoding : Nat → Coding
  | 0x12 => .info .all
  | 0x04 => .info .basic
  | 0x22 => .info .networkOpen
  | 0x30 => .info .normalizedName
  | 0x0E => .info .position
  | 0x05 => .info .standard
  | 0x16 => .streams
  | _ => .uncoded

def filesystemCoding : Nat → Coding
  | 5 => .info .fsAttribute
  | 6 => .info .fsControl
  | 4 => .info .fsDevice
  | 7 => .info .fsFullSize
  | 8 => .info .fsObjectId
  | 11 => .info .fsSectorSize
  | 3 => .info .fsSize
  | 1 => .info .fsVolume
  | _ => .uncoded

/-- The `switch` on the type and the class. -/
def coding (infoType fileInfoClass : Nat) : Coding :=
  match infoType with
  | 1 => fileCoding fileInfoClass
  | 2 => filesystemCoding fileInfoClass
  -- SMB2_0_INFO_SECURITY and SMB2_0_INFO_QUOTA
  | 3 | 4 => .uncoded
  | _ => .unknown

/-- What the application hands over for such a request. -/
inductive Output : Coding → Type
  | info {c : InfoClass} (i : Info) (h : i.infoClass = c) : Output (.info c)
  | streams (first : StreamInfo) (rest : List StreamInfo) : Output .streams
  | uncoded : Output .uncoded
  | unknown : Output .unknown

/-- `struct smb2_query_info_reply`, as it is handed over: the output, if there is any, with the
octets behind its pointer. -/
structure ReplyArgs (cd : Coding) where
  outputBufferLength : UInt32
  outputBuffer : Option (Output cd × Memory)

/-- What is sent: the fixed part and, of the block of the output, as much as the length of its vector
says. -/
structure EncodedReply where
  fixed : Bytes
  output : Option (Block × Nat)
  overflow : Bool

/-- `malloc(len + 1024)`, where `len` is an `int`; what is negative is more than there is. -/
def allocOutput (outputBufferLength : UInt32) : Option Nat :=
  let size := toInt32 (toInt32 outputBufferLength.toNat + 1024)
  if size < 0 then none else some size.toNat

def replyFixed (offset length : Nat) : Bytes :=
  le 2 PathOps.QUERY_INFO_REPLY_SIZE ++ le 2 offset ++ le 4 length

/-- What becomes of a block after the `switch`. -/
def finishOutput (passthrough : Bool) (requested length : Nat) (memory : Memory) (block : Block)
    (created : Nat) : Except Overrun (Option EncodedReply) :=
  if created = 0 then
    if passthrough then do
      let block ← (Store.copy 0 (memory.read length)).run block
      let block ← (Store.copy length (zeros (sub32 (padTo64 length) length))).run block
      .ok (some ⟨replyFixed (HEADER_SIZE + 8) length, some (block, padTo64 length), false⟩)
    else .ok (some ⟨replyFixed (HEADER_SIZE + 8) length, some (block, 0), false⟩)
  else
    let length := if requested < created then requested else created
    .ok (some ⟨replyFixed (HEADER_SIZE + 8) length, some (block, padTo64 length),
      decide (requested < created)⟩)

/-- The encoder that is picked; there is none for `uncoded` and `unknown`. -/
def Output.encode {cd : Coding} (size : Nat) : Output cd → Except Overrun Encoding
  | .info i _ => encodeInfo size i
  | .streams first rest => .ok (encodeStreams size 0 first rest)
  | .uncoded => .ok ⟨[], some 0⟩
  | .unknown => .ok ⟨[], some 0⟩

/-- `smb2_encode_query_info_reply`, from the `switch` on.  What an encoder returns is kept in a
`uint32_t`, where -1 is not negative. -/
def encodeOutput {cd : Coding} (passthrough : Bool) (requested length size : Nat)
    (output : Output cd) (memory : Memory) : Except Overrun (Option EncodedReply) :=
  if cd = .unknown then
    .ok (some ⟨replyFixed (HEADER_SIZE + 8) 0, some (.fresh size, size), false⟩)
  else do
    let encoding ← output.encode size
    let block ← runStores (.fresh size) encoding.stores
    finishOutput passthrough requested length memory block (encoding.ret.getD (2 ^ 32 - 1))

/-- `smb2_encode_query_info_reply`; `none` is -1. -/
def encodeQueryInfoReply (passthrough : Bool) (req : QueryInfoRequest)
    (rep : ReplyArgs (coding req.infoType req.fileInfoClass)) :
    Except Overrun (Option EncodedReply) :=
  let length := rep.outputBufferLength.toNat
  let offset := if 0 < length then HEADER_SIZE + 8 else 0
  match rep.outputBuffer with
  | none => .ok (some ⟨replyFixed offset length, none, false⟩)
  | some (output, memory) =>
    if length = 0 then .ok (some ⟨replyFixed offset 0, none, false⟩)
    else match allocOutput rep.outputBufferLength with
      | none => .ok none
      | some size =>
        encodeOutput passthrough req.outputBufferLength length size output memory

end Libsmb2.QueryInfo
