import Libsmb2.Directory
import Libsmb2.Process.Create

/-!
# What a QUERY_INFO returns

The structures of `smb2-data-file-info.c` and `smb2-data-filesystem-info.c` and the fourteen
decoders that `smb2_process_query_info_variable` picks by the class of the information.  Some check
the length of the buffer first and some do not, and hardly any looks at what the accessors of the
fields return.

* `FileBasicInfo.at` and its like — what a buffer holds;
* `decodeFileBasicInfo_eq` and its like — a decoder returns it if the buffer is long enough.

No allocation fails here.
-/

set_option autoImplicit false

namespace Libsmb2.QueryInfo

open Util

/-! ## Information -/

/-- The classes that are decoded. -/
inductive InfoClass
  | basic
  | standard
  | position
  | all
  | networkOpen
  | normalizedName
  | fsVolume
  | fsSize
  | fsDevice
  | fsAttribute
  | fsControl
  | fsFullSize
  | fsObjectId
  | fsSectorSize
  deriving DecidableEq, Repr

structure FileBasicInfo where
  creationTime : Timeval
  lastAccessTime : Timeval
  lastWriteTime : Timeval
  changeTime : Timeval
  fileAttributes : UInt32
  deriving DecidableEq, Repr

structure FileStandardInfo where
  allocationSize : UInt64
  endOfFile : UInt64
  numberOfLinks : UInt32
  deletePending : UInt8
  directory : UInt8
  deriving DecidableEq, Repr

structure FilePositionInfo where
  currentByteOffset : UInt64
  deriving DecidableEq, Repr

structure FileAllInfo where
  basic : FileBasicInfo
  standard : FileStandardInfo
  indexNumber : UInt64
  eaSize : UInt32
  accessFlags : UInt32
  currentByteOffset : UInt64
  mode : UInt32
  alignmentRequirement : UInt32
  name : Option CString
  deriving DecidableEq, Repr

structure FileNetworkOpenInfo where
  creationTime : Timeval
  lastAccessTime : Timeval
  lastWriteTime : Timeval
  changeTime : Timeval
  allocationSize : UInt64
  endOfFile : UInt64
  fileAttributes : UInt32
  deriving DecidableEq, Repr

structure FileNameInfo where
  fileNameLength : UInt32
  name : Option CString
  deriving DecidableEq, Repr

structure FsVolumeInfo where
  creationTime : Timeval
  volumeSerialNumber : UInt32
  volumeLabelLength : UInt32
  supportsObjects : UInt8
  reserved : UInt8
  volumeLabel : Option CString
  deriving DecidableEq, Repr

structure FsSizeInfo where
  totalAllocationUnits : UInt64
  availableAllocationUnits : UInt64
  sectorsPerAllocationUnit : UInt32
  bytesPerSector : UInt32
  deriving DecidableEq, Repr

structure FsDeviceInfo where
  deviceType : UInt32
  characteristics : UInt32
  deriving DecidableEq, Repr

structure FsAttributeInfo where
  filesystemAttributes : UInt32
  maximumComponentNameLength : UInt32
  filesystemNameLength : UInt32
  filesystemName : Option CString
  deriving DecidableEq, Repr

structure FsControlInfo where
  freeSpaceStartFiltering : UInt64
  freeSpaceThreshold : UInt64
  freeSpaceStopFiltering : UInt64
  defaultQuotaThreshold : UInt64
  defaultQuotaLimit : UInt64
  fileSystemControlFlags : UInt32
  deriving DecidableEq, Repr

structure FsFullSizeInfo where
  totalAllocationUnits : UInt64
  callerAvailableAllocationUnits : UInt64
  actualAvailableAllocationUnits : UInt64
  sectorsPerAllocationUnit : UInt32
  bytesPerSector : UInt32
  deriving DecidableEq, Repr

structure FsObjectIdInfo where
  objectId : Octets 16
  extendedInfo : Octets 48
  deriving DecidableEq

structure FsSectorSizeInfo where
  logicalBytesPerSector : UInt32
  physicalBytesPerSectorForAtomicity : UInt32
  physicalBytesPerSectorForPerformance : UInt32
  fileSystemEffectivePhysicalBytesPerSectorForAtomicity : UInt32
  flags : UInt32
  byteOffsetForSectorAlignment : UInt32
  byteOffsetForPartitionAlignment : UInt32
  deriving DecidableEq, Repr

/-- What `output_buffer` points at. -/
inductive Info
  | basic (fs : FileBasicInfo)
  | standard (fs : FileStandardInfo)
  | position (fs : FilePositionInfo)
  | all (fs : FileAllInfo)
  | networkOpen (fs : FileNetworkOpenInfo)
  | normalizedName (fs : FileNameInfo)
  | fsVolume (fs : FsVolumeInfo)
  | fsSize (fs : FsSizeInfo)
  | fsDevice (fs : FsDeviceInfo)
  | fsAttribute (fs : FsAttributeInfo)
  | fsControl (fs : FsControlInfo)
  | fsFullSize (fs : FsFullSizeInfo)
  | fsObjectId (fs : FsObjectIdInfo)
  | fsSectorSize (fs : FsSectorSizeInfo)
  deriving DecidableEq

/-! ## Decoders

A field that is not there stays what it was: zero, as the block is allocated, or for a time what is
in `t`, which begins as what the stack holds. -/

/-- `smb2_decode_file_basic_info`, which returns 0. -/
def decodeFileBasicInfo (t : Nat) (v : Window) : Except Overrun FileBasicInfo := do
  let t ← v.get 8 0 t
  let creationTime := winToTimeval t
  let t ← v.get 8 8 t
  let lastAccessTime := winToTimeval t
  let t ← v.get 8 16 t
  let lastWriteTime := winToTimeval t
  let t ← v.get 8 24 t
  let changeTime := winToTimeval t
  let fileAttributes ← v.get 4 32 0
  .ok ⟨creationTime, lastAccessTime, lastWriteTime, changeTime, .ofNat fileAttributes⟩

/-- `smb2_decode_file_standard_info`, which returns 0. -/
def decodeFileStandardInfo (v : Window) : Except Overrun FileStandardInfo := do
  let allocationSize ← v.get 8 0 0
  let endOfFile ← v.get 8 8 0
  let numberOfLinks ← v.get 4 16 0
  let deletePending ← v.get 1 20 0
  let directory ← v.get 1 21 0
  .ok ⟨.ofNat allocationSize, .ofNat endOfFile, .ofNat numberOfLinks, .ofNat deletePending,
    .ofNat directory⟩

/-- `smb2_decode_file_position_info`, which returns 0. -/
def decodeFilePositionInfo (v : Window) : Except Overrun FilePositionInfo := do
  let currentByteOffset ← v.get 8 0 0
  .ok ⟨.ofNat currentByteOffset⟩

/-- A name of which the server may have supplied less than it says. -/
def decodeAllName (v : Window) (nameLen : Nat) : Except Overrun (Option CString) :=
  if 0 < nameLen then
    (utf16At v 100 (if v.len - 100 < nameLen then v.len - 100 else nameLen)).map some
  else .ok none

/-- `smb2_decode_file_all_info`; `none` is -1. -/
def decodeFileAllInfo (t : Nat) (v : Window) : Except Overrun (Option FileAllInfo) :=
  if v.len < 40 then .ok none
  else do
    let basic ← decodeFileBasicInfo t ⟨v.octets, 40⟩
    if v.len < 64 then .ok none
    else do
      let standard ← decodeFileStandardInfo ⟨v.octets.drop 40, 24⟩
      let indexNumber ← v.get 8 64 0
      let eaSize ← v.get 4 72 0
      let accessFlags ← v.get 4 76 0
      let currentByteOffset ← v.get 8 80 0
      let mode ← v.get 4 88 0
      let alignmentRequirement ← v.get 4 92 0
      if v.len < 100 then .ok none
      else do
        let nameLen ← v.get 4 96 0
        let name ← decodeAllName v nameLen
        .ok (some ⟨basic, standard, .ofNat indexNumber, .ofNat eaSize, .ofNat accessFlags,
          .ofNat currentByteOffset, .ofNat mode, .ofNat alignmentRequirement, name⟩)

/-- `smb2_decode_file_network_open_info`; `none` is -1. -/
def decodeFileNetworkOpenInfo (t : Nat) (v : Window) :
    Except Overrun (Option FileNetworkOpenInfo) :=
  if v.len < 56 then .ok none
  else do
    let t ← v.get 8 0 t
    let creationTime := winToTimeval t
    let t ← v.get 8 8 t
    let lastAccessTime := winToTimeval t
    let t ← v.get 8 16 t
    let lastWriteTime := winToTimeval t
    let t ← v.get 8 24 t
    let changeTime := winToTimeval t
    let allocationSize ← v.get 8 32 0
    let endOfFile ← v.get 8 40 0
    let fileAttributes ← v.get 4 48 0
    .ok (some ⟨creationTime, lastAccessTime, lastWriteTime, changeTime, .ofNat allocationSize,
      .ofNat endOfFile, .ofNat fileAttributes⟩)

/-- How much of a name is taken; the sum that is compared is one of 32 bits. -/
def normalizedLength (len fileNameLength : Nat) : Nat :=
  if len < (fileNameLength + 4) % 2 ^ 32 then (len - 4) % 2 ^ 32 else fileNameLength

/-- The name of `smb2_decode_file_normalized_name_info`. -/
def decodeNormalizedName (v : Window) (fileNameLength : Nat) : Except Overrun (Option CString) :=
  if 0 < fileNameLength ∧ 0 < normalizedLength v.len fileNameLength then
    (utf16At v 4 (normalizedLength v.len fileNameLength)).map some
  else .ok none

/-- `smb2_decode_file_normalized_name_info`; `none` is -1. -/
def decodeFileNormalizedNameInfo (v : Window) : Except Overrun (Option FileNameInfo) :=
  if v.len < 4 then .ok none
  else do
    let fileNameLength ← v.get 4 0 0
    let name ← decodeNormalizedName v fileNameLength
    .ok (some ⟨.ofNat fileNameLength, name⟩)

/-- `smb2_decode_file_fs_volume_info`, which returns 0. -/
def decodeFsVolumeInfo (t : Nat) (v : Window) : Except Overrun FsVolumeInfo := do
  let t ← v.get 8 0 t
  let volumeSerialNumber ← v.get 4 8 0
  let volumeLabelLength ← v.get 4 12 0
  let supportsObjects ← v.get 1 16 0
  let reserved ← v.get 1 17 0
  let volumeLabel ← utf16At v 18 volumeLabelLength
  .ok ⟨winToTimeval t, .ofNat volumeSerialNumber, .ofNat volumeLabelLength,
    .ofNat supportsObjects, .ofNat reserved, some volumeLabel⟩

/-- `smb2_decode_file_fs_size_info`; `none` is -1. -/
def decodeFsSizeInfo (v : Window) : Except Overrun (Option FsSizeInfo) :=
  if v.len < 24 then .ok none
  else do
    let totalAllocationUnits ← v.get 8 0 0
    let availableAllocationUnits ← v.get 8 8 0
    let sectorsPerAllocationUnit ← v.get 4 16 0
    let bytesPerSector ← v.get 4 20 0
    .ok (some ⟨.ofNat totalAllocationUnits, .ofNat availableAllocationUnits,
      .ofNat sectorsPerAllocationUnit, .ofNat bytesPerSector⟩)

/-- `smb2_decode_file_fs_device_info`; `none` is -1. -/
def decodeFsDeviceInfo (v : Window) : Except Overrun (Option FsDeviceInfo) :=
  if v.len < 8 then .ok none
  else do
    let deviceType ← v.get 4 0 0
    let characteristics ← v.get 4 4 0
    .ok (some ⟨.ofNat deviceType, .ofNat characteristics⟩)

/-- The name of `smb2_decode_file_fs_attribute_info`, whose length is not compared with that of the
buffer. -/
def decodeFsName (v : Window) (nameLen : Nat) : Except Overrun (Option CString) :=
  if 0 < nameLen then (utf16At v 12 nameLen).map some else .ok none

/-- `smb2_decode_file_fs_attribute_info`; `none` is -1.  `filesystem_name_length` is not stored. -/
def decodeFsAttributeInfo (v : Window) : Except Overrun (Option FsAttributeInfo) :=
  if v.len < 20 then .ok none
  else do
    let filesystemAttributes ← v.get 4 0 0
    let maximumComponentNameLength ← v.get 4 4 0
    let nameLen ← v.get 4 8 0
    let filesystemName ← decodeFsName v nameLen
    .ok (some ⟨.ofNat filesystemAttributes, .ofNat maximumComponentNameLength, 0, filesystemName⟩)

/-- `smb2_decode_file_fs_control_info`, which returns 44; `none` is -1. -/
def decodeFsControlInfo (v : Window) : Except Overrun (Option FsControlInfo) :=
  if v.len < 44 then .ok none
  else do
    let freeSpaceStartFiltering ← v.get 8 0 0
    let freeSpaceThreshold ← v.get 8 8 0
    let freeSpaceStopFiltering ← v.get 8 16 0
    let defaultQuotaThreshold ← v.get 8 24 0
    let defaultQuotaLimit ← v.get 8 32 0
    let fileSystemControlFlags ← v.get 4 40 0
    .ok (some ⟨.ofNat freeSpaceStartFiltering, .ofNat freeSpaceThreshold,
      .ofNat freeSpaceStopFiltering, .ofNat defaultQuotaThreshold, .ofNat defaultQuotaLimit,
      .ofNat fileSystemControlFlags⟩)

/-- `smb2_decode_file_fs_full_size_info`; `none` is -1. -/
def decodeFsFullSizeInfo (v : Window) : Except Overrun (Option FsFullSizeInfo) :=
  if v.len < 32 then .ok none
  else do
    let totalAllocationUnits ← v.get 8 0 0
    let callerAvailableAllocationUnits ← v.get 8 8 0
    let actualAvailableAllocationUnits ← v.get 8 16 0
    let sectorsPerAllocationUnit ← v.get 4 24 0
    let bytesPerSector ← v.get 4 28 0
    .ok (some ⟨.ofNat totalAllocationUnits, .ofNat callerAvailableAllocationUnits,
      .ofNat actualAvailableAllocationUnits, .ofNat sectorsPerAllocationUnit, .ofNat bytesPerSector⟩)

/-- An array of the structure, filled from the octets that are read. -/
def octetsOf (n : Nat) (bs : Bytes) : Octets n :=
  ⟨(bs ++ zeros n).take n, by rw [List.length_take, List.length_append, length_zeros]; omega⟩

/-- `smb2_decode_file_fs_object_id_info`; `none` is -1. -/
def decodeFsObjectIdInfo (v : Window) : Except Overrun (Option FsObjectIdInfo) :=
  if v.len < 64 then .ok none
  else do
    let objectId ← v.read 0 16
    let extendedInfo ← v.read 16 48
    .ok (some ⟨octetsOf 16 objectId, octetsOf 48 extendedInfo⟩)

/-- `smb2_decode_file_fs_sector_size_info`; `none` is -1. -/
def decodeFsSectorSizeInfo (v : Window) : Except Overrun (Option FsSectorSizeInfo) :=
  if v.len < 28 then .ok none
  else do
    let logicalBytesPerSector ← v.get 4 0 0
    let physicalBytesPerSectorForAtomicity ← v.get 4 4 0
    let physicalBytesPerSectorForPerformance ← v.get 4 8 0
    let fileSystemEffectivePhysicalBytesPerSectorForAtomicity ← v.get 4 12 0
    let flags ← v.get 4 16 0
    let byteOffsetForSectorAlignment ← v.get 4 20 0
    let byteOffsetForPartitionAlignment ← v.get 4 24 0
    .ok (some ⟨.ofNat logicalBytesPerSector, .ofNat physicalBytesPerSectorForAtomicity,
      .ofNat physicalBytesPerSectorForPerformance,
      .ofNat fileSystemEffectivePhysicalBytesPerSectorForAtomicity, .ofNat flags,
      .ofNat byteOffsetForSectorAlignment, .ofNat byteOffsetForPartitionAlignment⟩)

/-- The decoder of a class, as `smb2_process_query_info_variable` calls it: a result that is not 0
is a failure, and `none`. -/
def decodeInfo (c : InfoClass) (t : Nat) (v : Window) : Except Overrun (Option Info) :=
  match c with
  | .basic => (decodeFileBasicInfo t v).map fun fs => some (.basic fs)
  | .standard => (decodeFileStandardInfo v).map fun fs => some (.standard fs)
  | .position => (decodeFilePositionInfo v).map fun fs => some (.position fs)
  | .all => (decodeFileAllInfo t v).map (Option.map .all)
  | .networkOpen => (decodeFileNetworkOpenInfo t v).map (Option.map .networkOpen)
  | .normalizedName => (decodeFileNormalizedNameInfo v).map (Option.map .normalizedName)
  | .fsVolume => (decodeFsVolumeInfo t v).map fun fs => some (.fsVolume fs)
  | .fsSize => (decodeFsSizeInfo v).map (Option.map .fsSize)
  | .fsDevice => (decodeFsDeviceInfo v).map (Option.map .fsDevice)
  | .fsAttribute => (decodeFsAttributeInfo v).map (Option.map .fsAttribute)
  -- 44 is not 0
  | .fsControl => (decodeFsControlInfo v).map fun _ => none
  | .fsFullSize => (decodeFsFullSizeInfo v).map (Option.map .fsFullSize)
  | .fsObjectId => (decodeFsObjectIdInfo v).map (Option.map .fsObjectId)
  | .fsSectorSize => (decodeFsSectorSizeInfo v).map (Option.map .fsSectorSize)

/-! ## What a buffer holds -/

/-- The field of `n` octets at `off`. -/
def fieldAt (n : Nat) (bs : Bytes) (off : Nat) : Nat := fromLe (slice bs off n)

def FileBasicInfo.at (bs : Bytes) : FileBasicInfo where
  creationTime := winToTimeval (fieldAt 8 bs 0)
  lastAccessTime := winToTimeval (fieldAt 8 bs 8)
  lastWriteTime := winToTimeval (fieldAt 8 bs 16)
  changeTime := winToTimeval (fieldAt 8 bs 24)
  fileAttributes := .ofNat (fieldAt 4 bs 32)

def FileStandardInfo.at (bs : Bytes) : FileStandardInfo where
  allocationSize := .ofNat (fieldAt 8 bs 0)
  endOfFile := .ofNat (fieldAt 8 bs 8)
  numberOfLinks := .ofNat (fieldAt 4 bs 16)
  deletePending := .ofNat (fieldAt 1 bs 20)
  directory := .ofNat (fieldAt 1 bs 21)

def FilePositionInfo.at (bs : Bytes) : FilePositionInfo where
  currentByteOffset := .ofNat (fieldAt 8 bs 0)

/-- A name of `len` octets at `off`, or of as many as there are; none has no octets. -/
def nameAt (bs : Bytes) (off len : Nat) : Option CString :=
  if 0 < len ∧ 0 < min len (bs.length - off) then some (textAt bs off (min len (bs.length - off)))
  else none

def FileAllInfo.at (bs : Bytes) : FileAllInfo where
  basic := .at bs
  standard := .at (bs.drop 40)
  indexNumber := .ofNat (fieldAt 8 bs 64)
  eaSize := .ofNat (fieldAt 4 bs 72)
  accessFlags := .ofNat (fieldAt 4 bs 76)
  currentByteOffset := .ofNat (fieldAt 8 bs 80)
  mode := .ofNat (fieldAt 4 bs 88)
  alignmentRequirement := .ofNat (fieldAt 4 bs 92)
  name := if 0 < fieldAt 4 bs 96 then some (textAt bs 100 (min (fieldAt 4 bs 96) (bs.length - 100)))
    else none

def FileNetworkOpenInfo.at (bs : Bytes) : FileNetworkOpenInfo where
  creationTime := winToTimeval (fieldAt 8 bs 0)
  lastAccessTime := winToTimeval (fieldAt 8 bs 8)
  lastWriteTime := winToTimeval (fieldAt 8 bs 16)
  changeTime := winToTimeval (fieldAt 8 bs 24)
  allocationSize := .ofNat (fieldAt 8 bs 32)
  endOfFile := .ofNat (fieldAt 8 bs 40)
  fileAttributes := .ofNat (fieldAt 4 bs 48)

def FileNameInfo.at (bs : Bytes) : FileNameInfo where
  fileNameLength := .ofNat (fieldAt 4 bs 0)
  name := nameAt bs 4 (fieldAt 4 bs 0)

def FsVolumeInfo.at (bs : Bytes) : FsVolumeInfo where
  creationTime := winToTimeval (fieldAt 8 bs 0)
  volumeSerialNumber := .ofNat (fieldAt 4 bs 8)
  volumeLabelLength := .ofNat (fieldAt 4 bs 12)
  supportsObjects := .ofNat (fieldAt 1 bs 16)
  reserved := .ofNat (fieldAt 1 bs 17)
  volumeLabel := some (textAt bs 18 (fieldAt 4 bs 12))

def FsSizeInfo.at (bs : Bytes) : FsSizeInfo where
  totalAllocationUnits := .ofNat (fieldAt 8 bs 0)
  availableAllocationUnits := .ofNat (fieldAt 8 bs 8)
  sectorsPerAllocationUnit := .ofNat (fieldAt 4 bs 16)
  bytesPerSector := .ofNat (fieldAt 4 bs 20)

def FsDeviceInfo.at (bs : Bytes) : FsDeviceInfo where
  deviceType := .ofNat (fieldAt 4 bs 0)
  characteristics := .ofNat (fieldAt 4 bs 4)

def FsAttributeInfo.at (bs : Bytes) : FsAttributeInfo where
  filesystemAttributes := .ofNat (fieldAt 4 bs 0)
  maximumComponentNameLength := .ofNat (fieldAt 4 bs 4)
  filesystemNameLength := 0
  filesystemName := if 0 < fieldAt 4 bs 8 then some (textAt bs 12 (fieldAt 4 bs 8)) else none

def FsControlInfo.at (bs : Bytes) : FsControlInfo where
  freeSpaceStartFiltering := .ofNat (fieldAt 8 bs 0)
  freeSpaceThreshold := .ofNat (fieldAt 8 bs 8)
  freeSpaceStopFiltering := .ofNat (fieldAt 8 bs 16)
  defaultQuotaThreshold := .ofNat (fieldAt 8 bs 24)
  defaultQuotaLimit := .ofNat (fieldAt 8 bs 32)
  fileSystemControlFlags := .ofNat (fieldAt 4 bs 40)

def FsFullSizeInfo.at (bs : Bytes) : FsFullSizeInfo where
  totalAllocationUnits := .ofNat (fieldAt 8 bs 0)
  callerAvailableAllocationUnits := .ofNat (fieldAt 8 bs 8)
  actualAvailableAllocationUnits := .ofNat (fieldAt 8 bs 16)
  sectorsPerAllocationUnit := .ofNat (fieldAt 4 bs 24)
  bytesPerSector := .ofNat (fieldAt 4 bs 28)

def FsObjectIdInfo.at (bs : Bytes) : FsObjectIdInfo where
  objectId := octetsOf 16 (slice bs 0 16)
  extendedInfo := octetsOf 48 (slice bs 16 48)

def FsSectorSizeInfo.at (bs : Bytes) : FsSectorSizeInfo where
  logicalBytesPerSector := .ofNat (fieldAt 4 bs 0)
  physicalBytesPerSectorForAtomicity := .ofNat (fieldAt 4 bs 4)
  physicalBytesPerSectorForPerformance := .ofNat (fieldAt 4 bs 8)
  fileSystemEffectivePhysicalBytesPerSectorForAtomicity := .ofNat (fieldAt 4 bs 12)
  flags := .ofNat (fieldAt 4 bs 16)
  byteOffsetForSectorAlignment := .ofNat (fieldAt 4 bs 20)
  byteOffsetForPartitionAlignment := .ofNat (fieldAt 4 bs 24)

/-- The information of a class that a buffer holds. -/
def Info.at (c : InfoClass) (bs : Bytes) : Info :=
  match c with
  | .basic => .basic (.at bs)
  | .standard => .standard (.at bs)
  | .position => .position (.at bs)
  | .all => .all (.at bs)
  | .networkOpen => .networkOpen (.at bs)
  | .normalizedName => .normalizedName (.at bs)
  | .fsVolume => .fsVolume (.at bs)
  | .fsSize => .fsSize (.at bs)
  | .fsDevice => .fsDevice (.at bs)
  | .fsAttribute => .fsAttribute (.at bs)
  | .fsControl => .fsControl (.at bs)
  | .fsFullSize => .fsFullSize (.at bs)
  | .fsObjectId => .fsObjectId (.at bs)
  | .fsSectorSize => .fsSectorSize (.at bs)

/-! ## What a decoder returns -/

section
variable {v : Window} {t : Nat}

theorem get_eq (hv : v.Sound) {n off : Nat} (h : off + n ≤ v.len) (old : Nat) :
    v.get n off old = .ok (fieldAt n v.octets off) := Window.get_of_le h (Nat.le_trans h hv) old

theorem utf16At_eq {off len : Nat} (h : off + len / 2 * 2 ≤ v.octets.length) :
    utf16At v off len = .ok (textAt v.octets off len) := by
  unfold utf16At
  rw [Window.read_of_le h]
  rfl

theorem decodeFileBasicInfo_eq (hv : v.Sound) (h : 36 ≤ v.len) :
    decodeFileBasicInfo t v = .ok (.at v.octets) := by
  unfold decodeFileBasicInfo
  simp (disch := omega) only [get_eq hv]
  rfl

theorem decodeFileStandardInfo_eq (hv : v.Sound) (h : 22 ≤ v.len) :
    decodeFileStandardInfo v = .ok (.at v.octets) := by
  unfold decodeFileStandardInfo
  simp (disch := omega) only [get_eq hv]
  rfl

theorem decodeFilePositionInfo_eq (hv : v.Sound) (h : 8 ≤ v.len) :
    decodeFilePositionInfo v = .ok (.at v.octets) := by
  unfold decodeFilePositionInfo
  simp (disch := omega) only [get_eq hv]
  rfl

theorem decodeFileNetworkOpenInfo_eq (hv : v.Sound) (h : 56 ≤ v.len) :
    decodeFileNetworkOpenInfo t v = .ok (some (.at v.octets)) := by
  unfold decodeFileNetworkOpenInfo
  rw [if_neg (by omega)]
  simp (disch := omega) only [get_eq hv]
  rfl

theorem decodeFsSizeInfo_eq (hv : v.Sound) (h : 24 ≤ v.len) :
    decodeFsSizeInfo v = .ok (some (.at v.octets)) := by
  unfold decodeFsSizeInfo
  rw [if_neg (by omega)]
  simp (disch := omega) only [get_eq hv]
  rfl

theorem decodeFsDeviceInfo_eq (hv : v.Sound) (h : 8 ≤ v.len) :
    decodeFsDeviceInfo v = .ok (some (.at v.octets)) := by
  unfold decodeFsDeviceInfo
  rw [if_neg (by omega)]
  simp (disch := omega) only [get_eq hv]
  rfl

theorem decodeFsControlInfo_eq (hv : v.Sound) (h : 44 ≤ v.len) :
    decodeFsControlInfo v = .ok (some (.at v.octets)) := by
  unfold decodeFsControlInfo
  rw [if_neg (by omega)]
  simp (disch := omega) only [get_eq hv]
  rfl

theorem decodeFsFullSizeInfo_eq (hv : v.Sound) (h : 32 ≤ v.len) :
    decodeFsFullSizeInfo v = .ok (some (.at v.octets)) := by
  unfold decodeFsFullSizeInfo
  rw [if_neg (by omega)]
  simp (disch := omega) only [get_eq hv]
  rfl

theorem decodeFsObjectIdInfo_eq (hv : v.Sound) (h : 64 ≤ v.len) :
    decodeFsObjectIdInfo v = .ok (some (.at v.octets)) := by
  have hoctets : 64 ≤ v.octets.length := Nat.le_trans h hv
  unfold decodeFsObjectIdInfo
  rw [if_neg (by omega), Window.read_of_le (by omega), Window.read_of_le (by omega)]
  rfl

theorem decodeFsSectorSizeInfo_eq (hv : v.Sound) (h : 28 ≤ v.len) :
    decodeFsSectorSizeInfo v = .ok (some (.at v.octets)) := by
  unfold decodeFsSectorSizeInfo
  rw [if_neg (by omega)]
  simp (disch := omega) only [get_eq hv]
  rfl

theorem decodeAllName_eq (hv : v.Sound) (h : 100 ≤ v.len) (nameLen : Nat) :
    decodeAllName v nameLen = .ok (if 0 < nameLen then
      some (textAt v.octets 100 (min nameLen (v.len - 100))) else none) := by
  have hmin : (if v.len - 100 < nameLen then v.len - 100 else nameLen) =
      min nameLen (v.len - 100) := by
    split <;> omega
  unfold Window.Sound at hv
  unfold decodeAllName
  split
  · rw [hmin, utf16At_eq (by omega)]
    rfl
  · rfl

variable {bs : Bytes}

/-- The parts of `smb2_decode_file_all_info` that other decoders take. -/
theorem decodeFileAllInfo_basic (h : 40 ≤ bs.length) :
    decodeFileBasicInfo t ⟨bs, 40⟩ = .ok (.at bs) :=
  decodeFileBasicInfo_eq (v := ⟨bs, 40⟩) h (show 36 ≤ 40 by decide)

theorem decodeFileAllInfo_standard (h : 64 ≤ bs.length) :
    decodeFileStandardInfo ⟨bs.drop 40, 24⟩ = .ok (.at (bs.drop 40)) := by
  have hv : Window.Sound ⟨bs.drop 40, 24⟩ := by
    show 24 ≤ (bs.drop 40).length
    rw [List.length_drop]
    omega
  exact decodeFileStandardInfo_eq hv (show 22 ≤ 24 by decide)

theorem decodeFileAllInfo_eq (h : 100 ≤ bs.length) :
    decodeFileAllInfo t (.whole bs) = .ok (some (.at bs)) := by
  have hv := Window.sound_whole bs
  have hlen := Window.whole_len bs
  unfold decodeFileAllInfo
  rw [if_neg (by omega), Window.whole_octets, decodeFileAllInfo_basic (by omega)]
  simp only [bind, Except.bind]
  rw [if_neg (by omega), decodeFileAllInfo_standard (by omega)]
  simp (disch := omega) only [get_eq hv, decodeAllName_eq hv]
  rw [if_neg (by omega)]
  rfl

theorem decodeFileAllInfo_short (h : bs.length < 100) :
    decodeFileAllInfo t (.whole bs) = .ok none := by
  have hv := Window.sound_whole bs
  have hlen := Window.whole_len bs
  unfold decodeFileAllInfo
  by_cases h₁ : bs.length < 40
  · exact if_pos h₁
  rw [if_neg (by omega), Window.whole_octets, decodeFileAllInfo_basic (by omega)]
  simp only [bind, Except.bind]
  by_cases h₂ : bs.length < 64
  · exact if_pos h₂
  rw [if_neg (by omega), decodeFileAllInfo_standard (by omega)]
  obtain ⟨indexNumber, h64⟩ := hv.get 8 64 0
  obtain ⟨eaSize, h72⟩ := hv.get 4 72 0
  obtain ⟨accessFlags, h76⟩ := hv.get 4 76 0
  obtain ⟨currentByteOffset, h80⟩ := hv.get 8 80 0
  obtain ⟨mode, h88⟩ := hv.get 4 88 0
  obtain ⟨alignmentRequirement, h92⟩ := hv.get 4 92 0
  simp only [h64, h72, h76, h80, h88, h92]
  exact if_pos h

/-- A length that does not wrap is cut to what is there. -/
theorem normalizedLength_eq {len n : Nat} (hn : n < 2 ^ 32) (hlen : 4 ≤ len)
    (h : n + 4 < 2 ^ 32 ∨ 4 + n / 2 * 2 ≤ len) :
    normalizedLength len n / 2 = min n (len - 4) / 2 ∧
      (0 < n ∧ 0 < normalizedLength len n ↔ 0 < n ∧ 0 < min n (len - 4)) := by
  unfold normalizedLength
  split <;> omega

theorem textAt_congr {off a b : Nat} (h : a / 2 = b / 2) :
    textAt bs off a = textAt bs off b := by
  unfold textAt
  rw [h]

theorem decodeFileNormalizedNameInfo_eq (h : 4 ≤ bs.length)
    (hname : fieldAt 4 bs 0 + 4 < 2 ^ 32 ∨ 4 + fieldAt 4 bs 0 / 2 * 2 ≤ bs.length) :
    decodeFileNormalizedNameInfo (.whole bs) = .ok (some (.at bs)) := by
  have hv := Window.sound_whole bs
  have hlen := Window.whole_len bs
  have hsmall : fieldAt 4 bs 0 < 2 ^ 32 := fromLe_slice_lt bs 0 4
  obtain ⟨hhalf, hsome⟩ := normalizedLength_eq hsmall h hname
  have hread : decodeNormalizedName (.whole bs) (fieldAt 4 bs 0) =
      .ok (nameAt bs 4 (fieldAt 4 bs 0)) := by
    unfold decodeNormalizedName nameAt
    rw [hlen]
    simp only [hsome]
    split
    · rename_i hpos
      rw [utf16At_eq (by rw [Window.whole_octets]; omega), Window.whole_octets, textAt_congr hhalf]
      rfl
    · rfl
  unfold decodeFileNormalizedNameInfo
  rw [if_neg (by omega), get_eq hv (by omega), Window.whole_octets]
  simp only [bind, Except.bind]
  rw [hread]
  rfl

theorem decodeFsVolumeInfo_eq (h : 18 ≤ bs.length)
    (hname : 18 + fieldAt 4 bs 12 / 2 * 2 ≤ bs.length) :
    decodeFsVolumeInfo t (.whole bs) = .ok (.at bs) := by
  have hv := Window.sound_whole bs
  have hlen := Window.whole_len bs
  unfold decodeFsVolumeInfo
  simp (disch := omega) only [get_eq hv]
  simp only [bind, Except.bind, Window.whole_octets]
  rw [utf16At_eq (by rw [Window.whole_octets]; exact hname)]
  rfl

theorem decodeFsAttributeInfo_eq (h : 20 ≤ bs.length)
    (hname : 12 + fieldAt 4 bs 8 / 2 * 2 ≤ bs.length) :
    decodeFsAttributeInfo (.whole bs) = .ok (some (.at bs)) := by
  have hv := Window.sound_whole bs
  have hlen := Window.whole_len bs
  have hread : decodeFsName (.whole bs) (fieldAt 4 bs 8) =
      .ok (if 0 < fieldAt 4 bs 8 then some (textAt bs 12 (fieldAt 4 bs 8)) else none) := by
    unfold decodeFsName
    split
    · rw [utf16At_eq (by rw [Window.whole_octets]; exact hname)]
      rfl
    · rfl
  unfold decodeFsAttributeInfo
  rw [if_neg (by omega)]
  simp (disch := omega) only [get_eq hv]
  simp only [bind, Except.bind, Window.whole_octets]
  rw [hread]
  rfl

end

end Libsmb2.QueryInfo
