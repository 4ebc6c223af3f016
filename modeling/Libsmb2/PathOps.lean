import Libsmb2.Directory
import Libsmb2.Errors

/-!
# Compound operations on a path

`smb2_stat_async`, `smb2_statvfs_async`, `smb2_truncate_async` and `smb2_rename_async` of
`libsmb2.c`: a CREATE, a command on the file and a CLOSE go out as one chain.  The callbacks of
the three share a block that the last one frees.

* `PathOp.complete_log` — what the completions of a chain do, and `setUp_cases`, how far a
  set-up gets;
* `path_operations_report_once` — when the application learns of its operation exactly once.
-/

set_option autoImplicit false

namespace Libsmb2.PathOps

open Util

/-! ## QUERY_INFO replies -/

/-- A field of `w` octets, if the vector holds it. -/
def getUint (w : Nat) (vec : Bytes) (off : Nat) : Option Nat :=
  if vec.length < off + w then none else some (fromLe (slice vec off w))

/-- A field, or what the allocator left. -/
def fieldOf (w : Nat) (vec : Bytes) (off : Nat) : Nat := (getUint w vec off).getD 0

/-- `struct smb2_file_basic_info`. -/
structure FileBasicInfo where
  creationTime : Timeval
  lastAccessTime : Timeval
  lastWriteTime : Timeval
  changeTime : Timeval
  fileAttributes : UInt32
  deriving DecidableEq, Repr

/-- `smb2_decode_file_basic_info`. -/
def decodeFileBasicInfo (vec : Bytes) : FileBasicInfo where
  creationTime := winToTimeval (fieldOf 8 vec 0)
  lastAccessTime := winToTimeval (fieldOf 8 vec 8)
  lastWriteTime := winToTimeval (fieldOf 8 vec 16)
  changeTime := winToTimeval (fieldOf 8 vec 24)
  fileAttributes := .ofNat (fieldOf 4 vec 32)

/-- `struct smb2_file_standard_info`. -/
structure FileStandardInfo where
  allocationSize : Nat
  endOfFile : Nat
  numberOfLinks : Nat
  deletePending : Nat
  directory : Nat
  deriving DecidableEq, Repr

/-- `smb2_decode_file_standard_info`. -/
def decodeFileStandardInfo (vec : Bytes) : FileStandardInfo where
  allocationSize := fieldOf 8 vec 0
  endOfFile := fieldOf 8 vec 8
  numberOfLinks := fieldOf 4 vec 16
  deletePending := fieldOf 1 vec 20
  directory := fieldOf 1 vec 21

/-- `struct smb2_file_all_info`. -/
structure FileAllInfo where
  basic : FileBasicInfo
  standard : FileStandardInfo
  indexNumber : Nat
  eaSize : Nat
  accessFlags : Nat
  currentByteOffset : Nat
  mode : Nat
  alignmentRequirement : Nat
  name : Option Bytes
  deriving DecidableEq, Repr

/-- `smb2_decode_file_all_info`. -/
def decodeFileAllInfo (vec : Bytes) : Option FileAllInfo :=
  if vec.length < 40 then none
  else if vec.length < 64 then none
  else
    match getUint 4 vec 96 with
    | none => none
    | some nameLen =>
      -- a name that the server cut short
      let nameLen := min nameLen (vec.length - 100)
      some
        { basic := decodeFileBasicInfo (slice vec 0 40)
          standard := decodeFileStandardInfo (slice vec 40 24)
          indexNumber := fieldOf 8 vec 64
          eaSize := fieldOf 4 vec 72
          accessFlags := fieldOf 4 vec 76
          currentByteOffset := fieldOf 8 vec 80
          mode := fieldOf 4 vec 88
          alignmentRequirement := fieldOf 4 vec 92
          name := if 0 < fieldOf 4 vec 96 then
              some (utf16ToUtf8 (utf16Units (slice vec 100 (nameLen / 2 * 2))))
            else none }

/-- `struct smb2_file_fs_full_size_info`. -/
structure FsFullSizeInfo where
  totalAllocationUnits : Nat
  callerAvailableAllocationUnits : Nat
  actualAvailableAllocationUnits : Nat
  sectorsPerAllocationUnit : UInt32
  bytesPerSector : UInt32
  deriving DecidableEq, Repr

/-- `smb2_decode_file_fs_full_size_info`. -/
def decodeFsFullSizeInfo (vec : Bytes) : Option FsFullSizeInfo :=
  if vec.length < 32 then none
  else some
    { totalAllocationUnits := fieldOf 8 vec 0
      callerAvailableAllocationUnits := fieldOf 8 vec 8
      actualAvailableAllocationUnits := fieldOf 8 vec 16
      sectorsPerAllocationUnit := .ofNat (fieldOf 4 vec 24)
      bytesPerSector := .ofNat (fieldOf 4 vec 28) }

/-- `struct smb2_query_info_reply`, with what a decoder makes of the buffer. -/
structure QueryInfoReply (α : Type) where
  outputBufferOffset : Nat
  outputBufferLength : Nat
  outputBuffer : Option α := none
  deriving DecidableEq, Repr

def QUERY_INFO_REPLY_SIZE : Nat := 9

section
variable {α : Type}

/-- `smb2_process_query_info_fixed`: the reply and how many octets follow.  `spl` is the length
of the message and `nextCommand` that of the header. -/
def processQueryInfoFixed (spl nextCommand : Nat) (iov : Bytes) : Option (QueryInfoReply α × Nat) :=
  if fieldOf 2 iov 0 ≠ QUERY_INFO_REPLY_SIZE ∨ iov.length ≠ QUERY_INFO_REPLY_SIZE - 1 then none
  else
    let offset := fieldOf 2 iov 2
    let length := fieldOf 4 iov 4
    let opl := (offset + length) % 4294967296
    if opl < offset then none
    else if length = 0 then some (⟨offset, length, none⟩, 0)
    else if spl < opl then none
    else if nextCommand ≠ 0 ∧ nextCommand < opl then none
    else if offset < HEADER_SIZE + (QUERY_INFO_REPLY_SIZE - 1) then none
    else some (⟨offset, length, none⟩, offset - HEADER_SIZE - (QUERY_INFO_REPLY_SIZE - 1) + length)

/-- `smb2_process_query_info_variable`, for a class that has a decoder. -/
def processQueryInfoVariable (decode : Bytes → Option α) (rep : QueryInfoReply α) (iov : Bytes) :
    Option (QueryInfoReply α) :=
  match decode (iov.drop (rep.outputBufferOffset - HEADER_SIZE - (QUERY_INFO_REPLY_SIZE - 1))) with
  | none => none
  | some info => some { rep with outputBuffer := some info }

/-- The reply that the decoders make of some octets. -/
def Decoded (decode : Bytes → Option α) (rep : QueryInfoReply α) : Prop :=
  ∃ spl nextCommand iov rest first n, processQueryInfoFixed spl nextCommand iov = some (first, n)
    ∧ (if n = 0 then rep = first else processQueryInfoVariable decode first rest = some rep)

end

/-! ## What an operation does -/

/-- `struct smb2_stat_64`, as `getinfo_cb_2` fills it. -/
structure Stat64 where
  type : Nat
  nlink : Nat
  ino : Nat
  size : Nat
  atime : Int × Int
  mtime : Int × Int
  ctime : Int × Int
  btime : Int × Int
  deriving DecidableEq, Repr

/-- `struct smb2_statvfs`, the fields that are not left at zero. -/
structure Statvfs where
  bsize : UInt32
  frsize : UInt32
  blocks : Nat
  bfree : Nat
  bavail : Nat
  deriving DecidableEq, Repr

/-- What is written to the structure of the application. -/
inductive Result
  | stat (st : Stat64)
  | statvfs (vfs : Statvfs)
  deriving DecidableEq, Repr

/-- The commands of a chain, in order. -/
inductive Link
  | create
  | second
  | close
  deriving DecidableEq, Repr

inductive Event
  /-- `smb2_set_error`. -/
  | setError (text : String)
  /-- `smb2_queue_pdu` of the chain. -/
  | queued
  /-- A command of the chain completes: its callback is called. -/
  | completed (link : Link)
  /-- The callback of the application, with its status and whether it is handed the structure. -/
  | report (status : Int) (data : Bool)
  /-- Fields are read from a decoded buffer. -/
  | readBuffer
  /-- Fields are read through a null pointer. -/
  | readNull
  /-- The shared block is used after it was freed. -/
  | useAfterFree
  /-- The shared block is freed. -/
  | freeBlock
  /-- `smb2_free_pdu` of the chain so far. -/
  | freePdu
  deriving DecidableEq, Repr

/-- The status in the shared block while there is one, the structure of the application, the
chain that was queued, and what has happened.  A process that read through a null pointer is
gone. -/
structure World where
  block : Option UInt32 := none
  result : Option Result := none
  crashed : Bool := false
  sent : List Cmd := []
  log : List Event := []

def World.note (w : World) (e : Event) : World := { w with log := w.log ++ [e] }

/-- `smb2_set_error`, and the block of the operation is freed. -/
def World.refuse (w : World) (text : String) : World :=
  { (w.note (.setError text)).note .freeBlock with block := none }

/-! ## Callbacks -/

/-- The status of the block after a completion: the first that is not success stays. -/
def keepFirst (kept status : UInt32) : UInt32 := if kept = 0 then status else kept

/-- A callback that has the block. -/
def withBlock (w : World) (f : UInt32 → World) : World :=
  match w.block with
  | none => { w.note .useAfterFree with crashed := true }
  | some kept => f kept

/-- The callbacks that only keep the status. -/
def keepStatus (status : UInt32) (w : World) : World :=
  withBlock w fun kept => { w with block := some (keepFirst kept status) }

/-- The callbacks of the CLOSE. -/
def reportStatus (data : Bool) (status : UInt32) (w : World) : World :=
  withBlock w fun kept =>
    let errno := nterrorToErrno (keepFirst kept status).toNat
    { (w.note (.report (-errno) data)).note .freeBlock with block := none }

def getinfoCb1 : UInt32 → World → World := keepStatus
def getinfoCb3 : UInt32 → World → World := reportStatus true
def truncCb1 : UInt32 → World → World := keepStatus
def truncCb2 : UInt32 → World → World := keepStatus
def truncCb3 : UInt32 → World → World := reportStatus false
def renameCb1 : UInt32 → World → World := keepStatus
def renameCb2 : UInt32 → World → World := keepStatus
def renameCb3 : UInt32 → World → World := reportStatus false

/-- The fields of a `struct smb2_stat_64` from the file information. -/
def fillStat (fs : FileAllInfo) : Result :=
  let attributes := fs.basic.fileAttributes
  .stat
    { type := if attributes &&& FILE_ATTRIBUTE_REPARSE_POINT ≠ 0 then 2
        else if attributes &&& FILE_ATTRIBUTE_DIRECTORY ≠ 0 then 1 else 0
      nlink := fs.standard.numberOfLinks
      ino := fs.indexNumber
      size := fs.standard.endOfFile
      atime := fs.basic.lastAccessTime.stat
      mtime := fs.basic.lastWriteTime.stat
      ctime := fs.basic.changeTime.stat
      btime := fs.basic.creationTime.stat }

/-- The fields of a `struct smb2_statvfs` from the file system information. -/
def fillStatvfs (vfs : FsFullSizeInfo) : Result :=
  .statvfs
    { bsize := vfs.bytesPerSector * vfs.sectorsPerAllocationUnit
      frsize := vfs.bytesPerSector * vfs.sectorsPerAllocationUnit
      blocks := vfs.totalAllocationUnits
      bfree := vfs.callerAvailableAllocationUnits
      bavail := vfs.callerAvailableAllocationUnits }

/-- `getinfo_cb_2`, with what it makes of the buffer. -/
def getinfoCb2 {α : Type} (fill : α → Result) (status : UInt32) (rep : Option (QueryInfoReply α))
    (w : World) : World :=
  withBlock w fun kept =>
    let w := { w with block := some (keepFirst kept status) }
    if keepFirst kept status ≠ 0 then w
    else
      match rep.bind QueryInfoReply.outputBuffer with
      -- neither the reply nor its buffer is looked at before its fields are read
      | none => { w.note .readNull with crashed := true }
      | some info => { w.note .readBuffer with result := some (fill info) }

/-! ## Operations -/

/-- `compound_file_id`. -/
def compoundFileId : FileId := ⟨List.replicate 16 0xff, rfl⟩

inductive PathOp
  | stat
  | statvfs
  | truncate (length : UInt64)
  | rename (newpath : CString)

namespace PathOp

/-- The operation is one of `smb2_getinfo_async`. -/
def isGetinfo : PathOp → Bool
  | stat | statvfs => true
  | truncate _ | rename _ => false

/-- What the decoders make of the buffer of the reply to the second command. -/
def Info : PathOp → Type
  | stat => FileAllInfo
  | statvfs => FsFullSizeInfo
  | truncate _ | rename _ => Empty

def decode : (op : PathOp) → Bytes → Option op.Info
  | stat => decodeFileAllInfo
  | statvfs => decodeFsFullSizeInfo
  | truncate _ | rename _ => fun _ => none

def CLOSE_FLAG_POSTQUERY_ATTRIB : Nat := 1
def DEFAULT_OUTPUT_BUFFER_LENGTH : UInt32 := 0xffff

/-- The CREATE of an operation. -/
def createArgs (path : CString) : PathOp → CreateArgs
  | stat | statvfs =>
    { impersonationLevel := 2, desiredAccess := 0x80 ||| 0x8, shareAccess := 1 ||| 2,
      createDisposition := 1, name := some path }
  | truncate _ =>
    { impersonationLevel := 2, desiredAccess := 0x40000000, shareAccess := 1 ||| 2,
      createDisposition := 1, name := some path }
  | rename _ =>
    { impersonationLevel := 2, desiredAccess := 0x80000000 ||| 0x80 ||| 0x10000,
      shareAccess := 1 ||| 2 ||| 4, createDisposition := 1, name := some path }

/-- The command between the CREATE and the CLOSE. -/
def secondCmd : PathOp → Cmd
  | stat => .queryInfo
    { infoType := 1, fileInfoClass := 0x12, outputBufferLength := DEFAULT_OUTPUT_BUFFER_LENGTH,
      fileId := compoundFileId }
  | statvfs => .queryInfo
    { infoType := 2, fileInfoClass := 7, outputBufferLength := DEFAULT_OUTPUT_BUFFER_LENGTH,
      fileId := compoundFileId }
  | truncate length => .setInfo { fileId := compoundFileId, input := .endOfFile length.toNat }
  | rename newpath =>
    .setInfo { fileId := compoundFileId, input := .rename 0 (backslashed newpath) }

/-- The commands of the chain. -/
def chain (path : CString) (op : PathOp) : List Cmd :=
  [.create (op.createArgs path), op.secondCmd, .close CLOSE_FLAG_POSTQUERY_ATTRIB compoundFileId]

/-- The callbacks, in the order of the chain. -/
def first : PathOp → UInt32 → World → World
  | stat | statvfs => getinfoCb1
  | truncate _ => truncCb1
  | rename _ => renameCb1

def second : (op : PathOp) → UInt32 → Option (QueryInfoReply op.Info) → World → World
  | stat => getinfoCb2 fillStat
  | statvfs => getinfoCb2 fillStatvfs
  | truncate _ => fun status _ => truncCb2 status
  | rename _ => fun status _ => renameCb2 status

def third : PathOp → UInt32 → World → World
  | stat | statvfs => getinfoCb3
  | truncate _ => truncCb3
  | rename _ => renameCb3

end PathOp

/-! ## Runs -/

/-- What the allocations of an operation come to: the block, the copy of a new path, and the
three commands. -/
structure Allocs where
  block : Bool
  path : Bool
  create : Bool
  second : Bool
  close : Bool
  deriving DecidableEq, Repr

/-- The texts and the results of the failures of a set-up. -/
structure Failures where
  blockText : String
  blockError : Int
  pathText : Option String := none
  createText : String := "Failed to create create command"
  secondText : String
  error : Int

/-- The failures of an operation; `inner` is the error of `smb2_cmd_set_info_async`. -/
def PathOp.failures (inner : String) : PathOp → Failures
  | .stat | .statvfs =>
    { blockText := "Failed to allocate create_data", blockError := -1,
      secondText := "Failed to create query command", error := -1 }
  | .truncate _ =>
    { blockText := "Failed to allocate trunc_data", blockError := -ENOMEM,
      secondText := "Failed to create set command. " ++ inner, error := -EINVAL }
  | .rename _ =>
    { blockText := "Failed to allocate rename_data", blockError := -ENOMEM,
      pathText := some "Failed to allocate rename_data->newpath",
      secondText := "Failed to create set command. " ++ inner, error := -EINVAL }

/-- The copy of the new path cannot be had. -/
def pathFails (F : Failures) (A : Allocs) : Bool := F.pathText.isSome && !A.path

/-- The body of `smb2_getinfo_async`, `smb2_truncate_async` and `smb2_rename_async`. -/
def setUp (F : Failures) (chain : List Cmd) (A : Allocs) : Int × World :=
  if !A.block then (F.blockError, ({} : World).note (.setError F.blockText))
  else
    let w : World := { block := some 0 }
    if pathFails F A then (-ENOMEM, w.refuse (F.pathText.getD ""))
    else if !A.create then (F.error, w.refuse F.createText)
    else if !A.second then (F.error, (w.refuse F.secondText).note .freePdu)
    else if !A.close then
      -- here the application is told, and a failure is returned as well
      let w := ((w.note (.report (-ENOMEM) false)).note .freeBlock).note .freePdu
      (F.error, { w with block := none })
    else (0, { w.note .queued with sent := chain })

/-- The statuses of the three completions, and the decoded reply to the second command. -/
structure Completions (op : PathOp) where
  create : UInt32
  second : UInt32
  close : UInt32
  body : Option (QueryInfoReply op.Info) := none

/-- A completion, unless the process is gone. -/
def deliver (link : Link) (callback : World → World) (w : World) : World :=
  if w.crashed then w else callback (w.note (.completed link))

/-- The completions of a chain, in its order. -/
def PathOp.complete (op : PathOp) (c : Completions op) (w : World) : World :=
  let w := deliver .create (op.first c.create) w
  let w := deliver .second (op.second c.second c.body) w
  deliver .close (op.third c.close) w

/-- An operation from its call to the end of its chain. -/
def PathOp.run (op : PathOp) (path : CString) (inner : String) (A : Allocs) (c : Completions op) :
    Int × World :=
  let r := setUp (op.failures inner) (op.chain path) A
  if r.1 < 0 then r else (r.1, op.complete c r.2)

/-- What the application is told. -/
def reports (log : List Event) : List (Int × Bool) :=
  log.filterMap fun
    | .report status data => some (status, data)
    | _ => none

/-- The first status that is not success. -/
def firstFailure (statuses : List UInt32) : UInt32 := (statuses.find? (· ≠ 0)).getD 0

/-- The operation fails at once and the application is told nothing, or it is told once, behind
the completion of the CLOSE, the error of the first completion that failed; and no field is
read from a buffer that is not there. -/
def ReportsOnce (op : PathOp) (c : Completions op) (r : Int × World) : Prop :=
  (r.1 < 0 ∧ reports r.2.log = []
    ∨ r.1 = 0 ∧ ∃ before after, r.2.log = before ++ .completed .close :: after
      ∧ reports before = []
      ∧ reports after
        = [(-nterrorToErrno (firstFailure [c.create, c.second, c.close]).toNat, op.isGetinfo)])
  ∧ .readNull ∉ r.2.log ∧ .useAfterFree ∉ r.2.log

/-- A success of the second command comes with a body that the decoders accept. -/
def Completions.Accepted {op : PathOp} (c : Completions op) : Prop :=
  op.isGetinfo = true → c.second = 0 → ∃ rep, c.body = some rep ∧ Decoded op.decode rep

/-- The set-up gets as far as the CLOSE. -/
def PathOp.reachesClose (op : PathOp) (A : Allocs) : Bool :=
  A.block && !pathFails (op.failures "") A && A.create && A.second

/-- A set-up that gets as far as the CLOSE gets it too; and a reply to the query of a chain
whose first two commands succeed is not empty. -/
def Settles (op : PathOp) (A : Allocs) (c : Completions op) : Prop :=
  (op.reachesClose A = true → A.close = true)
    ∧ (op.isGetinfo = true → op.reachesClose A = true → c.create = 0 → c.second = 0 →
        ∀ rep, c.body = some rep → rep.outputBufferLength ≠ 0)

/-! ## Lemmas -/

/-- A decoded reply has a buffer if and only if the length says so. -/
theorem Decoded.buffer {α : Type} {decode : Bytes → Option α} {rep : QueryInfoReply α}
    (h : Decoded decode rep) : rep.outputBuffer = none ↔ rep.outputBufferLength = 0 := by
  obtain ⟨spl, nextCommand, iov, rest, first, n, hfixed, hrep⟩ := h
  simp only [processQueryInfoFixed] at hfixed
  split_ifs at hfixed with hsize hwrap hzero
  · -- an empty buffer is not decoded
    obtain ⟨rfl, rfl⟩ := Prod.mk.inj (Option.some.inj hfixed)
    rw [if_pos rfl] at hrep
    subst hrep
    exact iff_of_true rfl hzero
  · obtain ⟨rfl, rfl⟩ := Prod.mk.inj (Option.some.inj hfixed)
    rw [if_neg (by omega)] at hrep
    simp only [processQueryInfoVariable] at hrep
    split at hrep
    · cases hrep
    · obtain rfl := Option.some.inj hrep
      exact iff_of_false (fun hnone => nomatch hnone) hzero

/-- The status kept over three completions is that of the first failure. -/
theorem keepFirst_firstFailure (a b d : UInt32) :
    keepFirst (keepFirst (keepFirst 0 a) b) d = firstFailure [a, b, d] := by
  unfold keepFirst firstFailure
  by_cases ha : a = 0
  · by_cases hb : b = 0
    · by_cases hd : d = 0
      · simp [ha, hb, hd]
      · simp [ha, hb, hd]
    · simp [ha, hb]
  · simp [ha]

theorem keepFirst_eq_zero {a b : UInt32} (h : keepFirst (keepFirst 0 a) b = 0) :
    a = 0 ∧ b = 0 := by
  unfold keepFirst at h
  by_cases ha : a = 0
  · exact ⟨ha, by simpa [ha] using h⟩
  · simp [ha] at h

/-- The set-up, by how far it gets. -/
theorem setUp_cases {F : Failures} (chain : List Cmd) (A : Allocs) (hblock : F.blockError < 0)
    (herror : F.error < 0) :
    ((A.block && !pathFails F A && A.create && A.second) = false
        ∧ (setUp F chain A).1 < 0 ∧ reports (setUp F chain A).2.log = []
        ∧ .readNull ∉ (setUp F chain A).2.log ∧ .useAfterFree ∉ (setUp F chain A).2.log)
      ∨ ((A.block && !pathFails F A && A.create && A.second) = true ∧ A.close = false
        ∧ (setUp F chain A).1 < 0
        ∧ (setUp F chain A).2.log = [.report (-ENOMEM) false, .freeBlock, .freePdu])
      ∨ ((A.block && !pathFails F A && A.create && A.second) = true ∧ A.close = true
        ∧ setUp F chain A = (0, { block := some 0, sent := chain, log := [.queued] })) := by
  unfold setUp
  by_cases hb : A.block = true
  · by_cases hp : pathFails F A = true
    · left
      simp [hb, hp, World.refuse, World.note, reports, ENOMEM]
    · by_cases hc : A.create = true
      · by_cases hs : A.second = true
        · right
          by_cases hl : A.close = true
          · right
            simp [hb, hp, hc, hs, hl, World.note]
          · left
            simp [hb, hp, hc, hs, hl, World.note, herror]
        · left
          simp [hb, hp, hc, hs, World.refuse, World.note, reports, herror]
      · left
        simp [hb, hp, hc, World.refuse, World.note, reports, herror]
  · left
    simp [hb, World.note, reports, hblock]

theorem PathOp.failures_negative (op : PathOp) (inner : String) :
    (op.failures inner).blockError < 0 ∧ (op.failures inner).error < 0 := by
  cases op <;> simp [PathOp.failures, ENOMEM, EINVAL]

/-- The text of an inner failure does not decide how far a set-up gets. -/
theorem PathOp.reachesClose_eq (op : PathOp) (inner : String) (A : Allocs) :
    op.reachesClose A = (A.block && !pathFails (op.failures inner) A && A.create && A.second) := by
  cases op <;> rfl

/-- The first callback keeps its status. -/
theorem PathOp.first_eq (op : PathOp) (status kept : UInt32) {w : World} (h : w.block = some kept) :
    op.first status w = { w with block := some (keepFirst kept status) } := by
  cases op <;> simp [PathOp.first, getinfoCb1, truncCb1, renameCb1, keepStatus, withBlock, h]

/-- The third callback tells the application, and frees the block. -/
theorem PathOp.third_eq (op : PathOp) (status kept : UInt32) {w : World} (h : w.block = some kept) :
    op.third status w
      = { w with
          block := none
          log := w.log ++ [.report (-nterrorToErrno (keepFirst kept status).toNat) op.isGetinfo,
            .freeBlock] } := by
  cases op <;>
    simp [PathOp.third, getinfoCb3, truncCb3, renameCb3, reportStatus, withBlock, h, World.note,
      PathOp.isGetinfo]

/-- The callback of a query whose buffer is needed and missing. -/
theorem getinfoCb2_null {α : Type} (fill : α → Result) {status kept : UInt32}
    {rep : Option (QueryInfoReply α)} {w : World} (h : w.block = some kept)
    (hzero : keepFirst kept status = 0) (hnull : rep.bind QueryInfoReply.outputBuffer = none) :
    (getinfoCb2 fill status rep w).crashed = true
      ∧ (getinfoCb2 fill status rep w).log = w.log ++ [.readNull] := by
  simp [getinfoCb2, withBlock, h, hzero, hnull, World.note]

/-- The callback of a query otherwise keeps its status. -/
theorem getinfoCb2_eq {α : Type} (fill : α → Result) {status kept : UInt32}
    {rep : Option (QueryInfoReply α)} {w : World} (h : w.block = some kept)
    (hbuffer : keepFirst kept status = 0 → rep.bind QueryInfoReply.outputBuffer ≠ none) :
    ∃ result events, getinfoCb2 fill status rep w
        = { w with
            block := some (keepFirst kept status)
            result := result
            log := w.log ++ events }
      ∧ (events = [] ∨ events = [.readBuffer]) := by
  by_cases hzero : keepFirst kept status = 0
  · obtain ⟨info, hinfo⟩ := Option.ne_none_iff_exists'.mp (hbuffer hzero)
    exact ⟨some (fill info), [.readBuffer], by
      simp [getinfoCb2, withBlock, h, hzero, hinfo, World.note], .inr rfl⟩
  · exact ⟨w.result, [], by simp [getinfoCb2, withBlock, h, hzero], .inl rfl⟩

/-- The second callback keeps its status, unless it needs a buffer that is missing. -/
theorem PathOp.second_eq (op : PathOp) (status : UInt32) (rep : Option (QueryInfoReply op.Info))
    {kept : UInt32} {w : World} (h : w.block = some kept)
    (hbuffer : op.isGetinfo = true → keepFirst kept status = 0 →
      rep.bind QueryInfoReply.outputBuffer ≠ none) :
    ∃ result events, op.second status rep w
        = { w with
            block := some (keepFirst kept status)
            result := result
            log := w.log ++ events }
      ∧ (events = [] ∨ events = [.readBuffer]) := by
  cases op with
  | stat => exact getinfoCb2_eq fillStat h (hbuffer rfl)
  | statvfs => exact getinfoCb2_eq fillStatvfs h (hbuffer rfl)
  | truncate _ =>
    exact ⟨w.result, [], by simp [PathOp.second, truncCb2, keepStatus, withBlock, h], .inl rfl⟩
  | rename _ =>
    exact ⟨w.result, [], by simp [PathOp.second, renameCb2, keepStatus, withBlock, h], .inl rfl⟩

theorem PathOp.second_null (op : PathOp) (status : UInt32) (rep : Option (QueryInfoReply op.Info))
    {kept : UInt32} {w : World} (h : w.block = some kept)
    (hop : op.isGetinfo = true) (hzero : keepFirst kept status = 0)
    (hnull : rep.bind QueryInfoReply.outputBuffer = none) :
    (op.second status rep w).crashed = true
      ∧ (op.second status rep w).log = w.log ++ [.readNull] := by
  cases op with
  | stat => exact getinfoCb2_null fillStat h hzero hnull
  | statvfs => exact getinfoCb2_null fillStatvfs h hzero hnull
  | truncate _ => cases hop
  | rename _ => cases hop

variable {op : PathOp} {c : Completions op}

/-- **The completions of a chain**, when no buffer is missing: the application is told last. -/
theorem PathOp.complete_log (chain : List Cmd)
    (hbuffer : op.isGetinfo = true → keepFirst (keepFirst 0 c.create) c.second = 0 →
      c.body.bind QueryInfoReply.outputBuffer ≠ none) :
    ∃ events, (op.complete c { block := some 0, sent := chain, log := [.queued] }).log
        = [.queued, .completed .create, .completed .second] ++ events
          ++ [.completed .close, .report
            (-nterrorToErrno (firstFailure [c.create, c.second, c.close]).toNat) op.isGetinfo,
            .freeBlock]
      ∧ (events = [] ∨ events = [.readBuffer]) := by
  obtain ⟨result, events, hsecond, hevents⟩ := op.second_eq c.second c.body
    (w := ⟨some (keepFirst 0 c.create), none, false, chain,
      [.queued, .completed .create, .completed .second]⟩) rfl hbuffer
  refine ⟨events, ?_, hevents⟩
  have hfirst := op.first_eq c.create 0
    (w := ⟨some 0, none, false, chain, [.queued, .completed .create]⟩) rfl
  simp only [PathOp.complete, deliver, World.note, Bool.false_eq_true, if_false,
    List.cons_append, List.nil_append, hfirst, hsecond]
  rw [op.third_eq c.close (keepFirst (keepFirst 0 c.create) c.second) rfl,
    keepFirst_firstFailure]
  simp

/-- A missing buffer is read. -/
theorem PathOp.complete_null (chain : List Cmd) (hop : op.isGetinfo = true)
    (hzero : keepFirst (keepFirst 0 c.create) c.second = 0)
    (hnull : c.body.bind QueryInfoReply.outputBuffer = none) :
    .readNull ∈ (op.complete c { block := some 0, sent := chain, log := [.queued] }).log := by
  have hfirst := op.first_eq c.create 0
    (w := ⟨some 0, none, false, chain, [.queued, .completed .create]⟩) rfl
  obtain ⟨hcrashed, hlog⟩ := op.second_null c.second c.body
    (w := ⟨some (keepFirst 0 c.create), none, false, chain,
      [.queued, .completed .create, .completed .second]⟩) rfl hop hzero hnull
  simp only [PathOp.complete, deliver, World.note, Bool.false_eq_true, if_false,
    List.cons_append, List.nil_append, hfirst]
  rw [if_pos hcrashed, hlog]
  simp

/-- A run that gets as far as the CLOSE, and gets it. -/
theorem PathOp.run_complete {path : CString} {inner : String} {A : Allocs}
    (hreach : op.reachesClose A = true) (hclose : A.close = true) :
    op.run path inner A c
      = (0, op.complete c { block := some 0, sent := op.chain path, log := [.queued] }) := by
  obtain ⟨hblock, herror⟩ := op.failures_negative inner
  rw [op.reachesClose_eq inner] at hreach
  rcases setUp_cases (op.chain path) A hblock herror with
    ⟨hfar, -⟩ | ⟨-, hlost, -⟩ | ⟨-, -, hsetup⟩
  · rw [hreach] at hfar
    cases hfar
  · rw [hclose] at hlost
    cases hlost
  · simp [PathOp.run, hsetup]

/-- A run that does not get as far, or does not get the CLOSE. -/
theorem PathOp.run_refused (c : Completions op) (path : CString) (inner : String) (A : Allocs)
    (hrefused : op.reachesClose A = true → A.close = false) :
    (op.run path inner A c).1 < 0
      ∧ (op.reachesClose A = false → reports (op.run path inner A c).2.log = [])
      ∧ (op.reachesClose A = true → reports (op.run path inner A c).2.log = [(-ENOMEM, false)])
      ∧ .readNull ∉ (op.run path inner A c).2.log
      ∧ .useAfterFree ∉ (op.run path inner A c).2.log := by
  obtain ⟨hblock, herror⟩ := op.failures_negative inner
  rw [op.reachesClose_eq inner] at hrefused ⊢
  rcases setUp_cases (op.chain path) A hblock herror with
    ⟨hfar, hneg, hsilent, hread, huse⟩ | ⟨hfar, -, hneg, hlog⟩ | ⟨hfar, hgot, -⟩
  · rw [PathOp.run, if_pos hneg]
    exact ⟨hneg, fun _ => hsilent, fun h => absurd h (by simp [hfar]), hread, huse⟩
  · rw [PathOp.run, if_pos hneg, hlog]
    exact ⟨hneg, fun h => absurd h (by simp [hfar]), fun _ => rfl, by simp, by simp⟩
  · rw [hrefused hfar] at hgot
    cases hgot

/-- **When a compound operation reports exactly once.**  It does unless the CLOSE alone cannot
be had, or a query of a chain that succeeds is answered with an empty buffer. -/
theorem path_operations_report_once (op : PathOp) (path : CString) (inner : String) (A : Allocs)
    (c : Completions op) (h : c.Accepted) :
    ReportsOnce op c (op.run path inner A c) ↔ Settles op A c := by
  by_cases hreach : op.reachesClose A = true
  · by_cases hclose : A.close = true
    · rw [PathOp.run_complete hreach hclose]
      by_cases hneeds : op.isGetinfo = true ∧ keepFirst (keepFirst 0 c.create) c.second = 0
          ∧ c.body.bind QueryInfoReply.outputBuffer = none
      · -- the fields of an empty buffer are read
        obtain ⟨hop, hzero, hnull⟩ := hneeds
        have hread := PathOp.complete_null (c := c) (op.chain path) hop hzero hnull
        refine iff_of_false (fun hreports => hreports.2.1 hread) fun hsettles => ?_
        obtain ⟨hcreate, hsecond⟩ := keepFirst_eq_zero hzero
        obtain ⟨rep, hbody, hdecoded⟩ := h hop hsecond
        rw [hbody] at hnull
        exact hsettles.2 hop hreach hcreate hsecond rep hbody (hdecoded.buffer.mp hnull)
      · have hbuffer : op.isGetinfo = true → keepFirst (keepFirst 0 c.create) c.second = 0 →
            c.body.bind QueryInfoReply.outputBuffer ≠ none :=
          fun hop hzero hnull => hneeds ⟨hop, hzero, hnull⟩
        obtain ⟨events, hlog, hevents⟩ := PathOp.complete_log (op.chain path) hbuffer
        refine iff_of_true ?_ ⟨fun _ => hclose, fun hop _ hcreate hsecond rep hbody hlength => ?_⟩
        · refine ⟨.inr ⟨rfl, [.queued, .completed .create, .completed .second] ++ events,
            [.report (-nterrorToErrno (firstFailure [c.create, c.second, c.close]).toNat)
              op.isGetinfo, .freeBlock], by simpa using hlog, ?_, rfl⟩, ?_, ?_⟩
          · rcases hevents with rfl | rfl <;> rfl
          · rw [hlog]
            rcases hevents with rfl | rfl <;> simp
          · rw [hlog]
            rcases hevents with rfl | rfl <;> simp
        · obtain ⟨rep', hbody', hdecoded⟩ := h hop hsecond
          rw [hbody] at hbody'
          obtain rfl := Option.some.inj hbody'
          apply hbuffer hop (by simp [hcreate, hsecond, keepFirst])
          rw [hbody]
          exact hdecoded.buffer.mpr hlength
    · have hlost : A.close = false := by simpa using hclose
      obtain ⟨hneg, -, htold, -⟩ := PathOp.run_refused c path inner A fun _ => hlost
      refine iff_of_false ?_ fun hsettles => hclose (hsettles.1 hreach)
      rintro ⟨⟨-, hsilent⟩ | ⟨hrc, -⟩, -⟩
      · rw [htold hreach] at hsilent
        cases hsilent
      · omega
  · have hfar : op.reachesClose A = false := by simpa using hreach
    obtain ⟨hneg, hsilent, -, hread, huse⟩ := PathOp.run_refused c path inner A
      fun h => absurd h hreach
    refine iff_of_true ⟨.inl ⟨hneg, hsilent hfar⟩, hread, huse⟩ ⟨fun h => absurd h hreach, ?_⟩
    intro _ h
    exact absurd h hreach

/-- A path. -/
def somePath : CString := CString.ofBytes [0x66]

/-- A set-up whose last allocation fails. -/
def closeFails : Allocs := ⟨true, true, true, true, false⟩

def allGranted : Allocs := ⟨true, true, true, true, true⟩

/-- A query that succeeds, with nothing in the buffer. -/
def emptyQuery : Completions .stat := ⟨0, 0, 0, some ⟨72, 0, none⟩⟩

theorem emptyQuery_accepted : emptyQuery.Accepted :=
  fun _ _ => ⟨⟨72, 0, none⟩, rfl, 0, 0, [9, 0, 72, 0, 0, 0, 0, 0], [], ⟨72, 0, none⟩, 0, rfl, rfl⟩

theorem path_operations_report_once_empty :
    ReportsOnce .stat emptyQuery (PathOp.run .stat somePath "" allGranted emptyQuery)
      ↔ Settles .stat allGranted emptyQuery :=
  path_operations_report_once .stat somePath "" allGranted emptyQuery emptyQuery_accepted

/-- A CLOSE that cannot be had is reported twice, and an empty buffer is read. -/
theorem failed_close_reports_twice :
    ¬ ReportsOnce .stat emptyQuery (PathOp.run .stat somePath "" closeFails emptyQuery)
      ∧ ¬ ReportsOnce .stat emptyQuery (PathOp.run .stat somePath "" allGranted emptyQuery) := by
  constructor
  · rintro ⟨⟨-, hsilent⟩ | ⟨hrc, -⟩, -⟩
    · exact absurd hsilent (by decide)
    · exact absurd hrc (by decide)
  · rintro ⟨-, hread, -⟩
    exact absurd hread (by decide)

end Libsmb2.PathOps
