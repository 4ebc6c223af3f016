import Libsmb2.Commands

/-!
# Directory listings

`smb2_encode_query_directory_reply`, with which a server sends the entries of a directory, and
`decode_dirents`, with which a client reads them.  Every entry has the offset of the next one
relative to its own in its first field; the encoder puts the offset from the beginning of the
buffer there, which is the same for the first entry only.

* `decodeFileIdFull_encodeRecord` — an entry is read back as it was written;
* `listings_survive` — when a listing comes back whatever the file ids are.
-/

set_option autoImplicit false

namespace Libsmb2

open Util

/-! ## Times -/

/-- The seconds of a Windows time.  The difference is unsigned. -/
def unixSeconds (t : Nat) : Nat := (t + 2 ^ 64 - 116444736000000000) % 2 ^ 64 / 10000000

def unixMicros (t : Nat) : Nat := t / 10 % 1000000

/-- `smb2_win_to_timeval`. -/
def winToTimeval (t : Nat) : Timeval where
  usec := unixMicros t
  sec := unixSeconds t

/-! ## The server -/

/-- `file_information_class`, as the encoder tells them apart. -/
inductive InfoClass
  | fileIdFull
  | fileIdBoth
  | other
  deriving DecidableEq, Repr

/-- `struct smb2_fileidbothdirectoryinformation`, as the encoder reads it. -/
structure DirEntry where
  fileIndex : UInt32 := 0
  creationTime : Timeval := {}
  lastAccessTime : Timeval := {}
  lastWriteTime : Timeval := {}
  changeTime : Timeval := {}
  endOfFile : UInt64 := 0
  allocationSize : UInt64 := 0
  fileAttributes : UInt32 := 0
  eaSize : UInt32 := 0
  shortNameLength : UInt8 := 0
  shortName : Octets 24 := ⟨zeros 24, length_zeros 24⟩
  fileId : UInt64 := 0
  name : Option CString := none

def FILEID_FULL_DIRECTORY_INFORMATION_SIZE : Nat := 80
def FILEID_BOTH_DIRECTORY_INFORMATION_SIZE : Nat := 104

/-- `sizeof(struct smb2_fileidbothdirectoryinformation)`, a multiple of eight. -/
def DIR_ENTRY_SIZE : Nat := 144

/-- `fs_size`, for a name of so many code units. -/
def recordSize (cls : InfoClass) (units : Nat) : Nat :=
  match cls with
  | .fileIdFull => (FILEID_FULL_DIRECTORY_INFORMATION_SIZE + 2 * units + 3) / 4 * 4
  | .fileIdBoth => (FILEID_BOTH_DIRECTORY_INFORMATION_SIZE + 2 * units + 3) / 4 * 4
  | .other => 0

/-- The fields that both classes begin with. -/
def encodeCommon (next : Nat) (e : DirEntry) (units : Nat) (buf : Bytes) : Bytes :=
  buf
    |> setUint32 0 next
    |> setUint32 4 e.fileIndex.toNat
    |> setUint64 8 (timevalToWin e.creationTime)
    |> setUint64 16 (timevalToWin e.lastAccessTime)
    |> setUint64 24 (timevalToWin e.lastWriteTime)
    |> setUint64 32 (timevalToWin e.changeTime)
    |> setUint64 40 e.endOfFile.toNat
    |> setUint64 48 e.allocationSize.toNat
    |> setUint32 56 e.fileAttributes.toNat
    |> setUint32 60 (2 * units)
    |> setUint32 64 e.eaSize.toNat

/-- An entry, in what `malloc` has left at its place. -/
def encodeRecord (cls : InfoClass) (next : Nat) (e : DirEntry) (us : List Nat) (buf : Bytes) :
    Bytes :=
  match cls with
  | .fileIdFull => encodeCommon next e us.length buf
    |> setUint32 68 0
    |> setUint64 72 e.fileId.toNat
    |> (patch · FILEID_FULL_DIRECTORY_INFORMATION_SIZE (utf16Octets us))
  | .fileIdBoth => encodeCommon next e us.length buf
    |> setUint8 68 e.shortNameLength.toNat
    |> setUint8 69 0
    |> (patch · 70 e.shortName.1)
    |> setUint16 94 0
    |> setUint64 96 e.fileId.toNat
    |> (patch · FILEID_BOTH_DIRECTORY_INFORMATION_SIZE (utf16Octets us))
  | .other => setUint32 0 next buf

/-- The second loop over the entries, from an offset on. -/
def encodeRecords (fresh : Memory) (cls : InfoClass) (offset : Nat) :
    List (DirEntry × List Nat) → Bytes
  | [] => []
  | (e, us) :: rest =>
    let size := recordSize cls us.length
    let next :=
      if FILEID_BOTH_DIRECTORY_INFORMATION_SIZE ≤ DIR_ENTRY_SIZE * rest.length then offset + size
      else 0
    encodeRecord cls next e us ((List.range size).map fun i => fresh (offset + i)) ++
      encodeRecords fresh cls (offset + size) rest

/-- What can keep the encoder from making a reply. -/
inductive ListingError
  | invalidName
  | doubleFree
  | noMemory
  deriving DecidableEq, Repr

/-- The code units of a name, none if there is no name. -/
def Name.codeUnits? : Name → Option (List Nat)
  | .absent => some []
  | .invalid => none
  | .units us => some us

/-- `name` in the encoder is not reset: where one entry has a name, the loops leave a pointer that
has been freed, and an entry without a name frees it again. -/
def freesTwice (names : List (List Nat)) : Bool := names.any (· ≠ []) && names.any (· = [])

/-- The output buffer of `smb2_encode_query_directory_reply`, without passthrough; `fresh` is what
the buffer holds before.  A length that is negative as an `int` is too much for `malloc`. -/
def encodeQueryDirectoryReply (fresh : Memory) (cls : InfoClass) (entries : List DirEntry) :
    Except ListingError Bytes :=
  match entries.mapM fun e => (Name.ofString e.name).codeUnits? with
  | none => .error .invalidName
  | some names =>
    if 2 ^ 31 ≤ (names.map fun us => recordSize cls us.length).sum then .error .noMemory
    else if freesTwice names then .error .doubleFree
    else .ok (encodeRecords fresh cls 0 (entries.zip names))

/-! ## The client -/

/-- `struct smb2_fileidfulldirectoryinformation`. -/
structure FileIdFull where
  nextEntryOffset : Nat := 0
  fileIndex : UInt32 := 0
  creationTime : Timeval := {}
  lastAccessTime : Timeval := {}
  lastWriteTime : Timeval := {}
  changeTime : Timeval := {}
  endOfFile : UInt64 := 0
  allocationSize : UInt64 := 0
  fileAttributes : UInt32 := 0
  eaSize : UInt32 := 0
  fileId : UInt64 := 0
  name : Bytes := []
  deriving DecidableEq, Repr

/-- `smb2_decode_fileidfulldirectoryinformation`. -/
def decodeFileIdFull (vec : Bytes) : Option FileIdFull :=
  let nameLength := fromLe (slice vec 60 4)
  if 2 ^ 32 ≤ 80 + nameLength ∨ vec.length < 80 + nameLength then none
  else some {
    nextEntryOffset := fromLe (slice vec 0 4)
    fileIndex := .ofNat (fromLe (slice vec 4 4))
    endOfFile := .ofNat (fromLe (slice vec 40 8))
    allocationSize := .ofNat (fromLe (slice vec 48 8))
    fileAttributes := .ofNat (fromLe (slice vec 56 4))
    eaSize := .ofNat (fromLe (slice vec 64 4))
    fileId := .ofNat (fromLe (slice vec 72 8))
    name := utf16ToUtf8 (utf16Units (slice vec 80 (nameLength / 2 * 2)))
    creationTime := winToTimeval (fromLe (slice vec 8 8))
    lastAccessTime := winToTimeval (fromLe (slice vec 16 8))
    lastWriteTime := winToTimeval (fromLe (slice vec 24 8))
    changeTime := winToTimeval (fromLe (slice vec 32 8)) }

/-- How `decode_dirents` ends: with 0; with an error; or having used what it never read.  In `dir`
are the entries that it has added, the last one first; an error does not take them out again. -/
inductive Listing
  | entries (dir : List FileIdFull)
  | failed (dir : List FileIdFull)
  | uninitialised
  deriving DecidableEq, Repr

/-- The loop of `decode_dirents` with memory for so many entries.  It does not look at what the
decoder returns: `fs` then is what it was. -/
def decodeDirents (vec : Bytes) : Nat → Nat → Option FileIdFull → List FileIdFull → Listing
  | 0, _, _, dir => .failed dir
  | mem + 1, offset, before, dir =>
    if vec.length ≤ offset then .failed dir
    else match (decodeFileIdFull (vec.drop offset)).or before with
      | none => .uninitialised
      | some fs =>
        if fs.nextEntryOffset = 0 then .entries (fs :: dir)
        else decodeDirents vec mem ((offset + fs.nextEntryOffset) % 2 ^ 32) (some fs) (fs :: dir)

def FILE_ATTRIBUTE_DIRECTORY : UInt32 := 0x00000010
def FILE_ATTRIBUTE_REPARSE_POINT : UInt32 := 0x00000400

def Timeval.stat (tv : Timeval) : Int × Int := (tv.sec, tv.usec * 1000)

/-! ## Listings -/

/-- The code units of a valid name. -/
def DirEntry.units (e : DirEntry) : List Nat := (Name.ofString e.name).codeUnits?.getD []

def DirEntry.nameOctets (e : DirEntry) : Bytes := (e.name.map CString.octets).getD []

def DirEntry.times (e : DirEntry) : List Timeval :=
  [e.creationTime, e.lastAccessTime, e.lastWriteTime, e.changeTime]

/-- What a listing says of an entry. -/
structure Listed where
  name : Bytes
  fileAttributes : UInt32
  endOfFile : UInt64
  allocationSize : UInt64
  fileId : UInt64
  times : List Timeval
  deriving DecidableEq

def DirEntry.listed (e : DirEntry) : Listed :=
  ⟨e.nameOctets, e.fileAttributes, e.endOfFile, e.allocationSize, e.fileId, e.times⟩

def FileIdFull.listed (fs : FileIdFull) : Listed :=
  ⟨fs.name, fs.fileAttributes, fs.endOfFile, fs.allocationSize, fs.fileId,
    [fs.creationTime, fs.lastAccessTime, fs.lastWriteTime, fs.changeTime]⟩

/-- The client gets the entries of the server, each once, if it has memory for them. -/
def RoundTrips (fresh : Memory) (entries : List DirEntry) : Prop :=
  ∃ buf, encodeQueryDirectoryReply fresh .fileIdFull entries = .ok buf ∧
    ∀ mem, entries.length ≤ mem → ∃ dir, decodeDirents buf mem 0 none [] = .entries dir ∧
      dir.reverse.map FileIdFull.listed = entries.map DirEntry.listed

/-- The time is one that the format can represent, in seconds and microseconds. -/
structure Timeval.Representable (tv : Timeval) : Prop where
  usec : 0 ≤ tv.usec ∧ tv.usec < 1000000
  win : 0 ≤ tv.sec * 10000000 + 116444736000000000 + tv.usec * 10 ∧
    tv.sec * 10000000 + 116444736000000000 + tv.usec * 10 < 2 ^ 64

/-- The name is absent, empty or valid UTF-8, and the times are representable. -/
structure DirEntry.Valid (e : DirEntry) : Prop where
  name : (Name.ofString e.name).codeUnits?.isSome = true
  times : ∀ tv ∈ e.times, tv.Representable

/-- The room that entries take on the wire. -/
def listingSize (entries : List DirEntry) : Nat :=
  (entries.map fun e => recordSize .fileIdFull e.units.length).sum

/-- One or two entries, all with a name or all without, no time before 1970. -/
structure Plain (entries : List DirEntry) : Prop where
  short : entries.length ≤ 2
  small : listingSize entries < 2 ^ 31
  named : (∀ e ∈ entries, e.nameOctets ≠ []) ∨ ∀ e ∈ entries, e.nameOctets = []
  modern : ∀ e ∈ entries, ∀ tv ∈ e.times, 0 ≤ tv.sec

/-- The entries with this file id for the third. -/
def withThirdId (entries : List DirEntry) (id : UInt64) : List DirEntry :=
  entries.modify 2 fun e => { e with fileId := id }

/-! ## Reading an entry back -/

/-- What the client finds in an entry of the server. -/
def FileIdFull.ofRecord (next : Nat) (e : DirEntry) (us : List Nat) : FileIdFull where
  nextEntryOffset := next
  fileIndex := e.fileIndex
  creationTime := winToTimeval (timevalToWin e.creationTime)
  lastAccessTime := winToTimeval (timevalToWin e.lastAccessTime)
  lastWriteTime := winToTimeval (timevalToWin e.lastWriteTime)
  changeTime := winToTimeval (timevalToWin e.changeTime)
  endOfFile := e.endOfFile
  allocationSize := e.allocationSize
  fileAttributes := e.fileAttributes
  eaSize := e.eaSize
  fileId := e.fileId
  name := utf16ToUtf8 us

section
variable {e : DirEntry} {us : List Nat} {next : Nat} {buf rest : Bytes}

theorem timevalToWin_lt (tv : Timeval) : timevalToWin tv < 2 ^ 64 := by
  unfold timevalToWin
  omega

theorem length_encodeCommon (next : Nat) (e : DirEntry) (units : Nat) (buf : Bytes) :
    (encodeCommon next e units buf).length = buf.length := by
  simp [encodeCommon]

theorem le_recordSize (units : Nat) : 80 + 2 * units ≤ recordSize .fileIdFull units := by
  show 80 + 2 * units ≤ (80 + 2 * units + 3) / 4 * 4
  omega

/-- The fixed part of an entry, before its name. -/
def fixedPart (next : Nat) (e : DirEntry) (units : Nat) (buf : Bytes) : Bytes :=
  encodeCommon next e units buf |> setUint32 68 0 |> setUint64 72 e.fileId.toNat

theorem encodeRecord_full : encodeRecord .fileIdFull next e us buf =
    patch (fixedPart next e us.length buf) 80 (utf16Octets us) := rfl

theorem length_fixedPart : (fixedPart next e us.length buf).length = buf.length := by
  simp [fixedPart, length_encodeCommon]

theorem length_encodeRecord (h : 80 + 2 * us.length ≤ buf.length) :
    (encodeRecord .fileIdFull next e us buf).length = buf.length := by
  rw [encodeRecord_full, length_patch, length_fixedPart]
  rw [length_fixedPart, length_utf16Octets]
  exact h

/-- The fields of the fixed part are where the decoder looks for them. -/
theorem slice_record {o n : Nat} (h : 80 + 2 * us.length ≤ buf.length) (ho : o + n ≤ 80) :
    slice (encodeRecord .fileIdFull next e us buf ++ rest) o n =
      slice (fixedPart next e us.length buf) o n := by
  rw [slice_append_left (by rw [length_encodeRecord h]; omega), encodeRecord_full,
    slice_patch_before ho (by rw [length_fixedPart]; omega)]

/-- **An entry is read back as it was written.** -/
theorem decodeFileIdFull_encodeRecord (h : 80 + 2 * us.length ≤ buf.length) (hbuf : buf.length < 2 ^ 31)
    (hus : ∀ u ∈ us, u < 65536) (hnext : next < 2 ^ 32) :
    decodeFileIdFull (encodeRecord .fileIdFull next e us buf ++ rest) =
      some (.ofRecord next e us) := by
  have hlen : 64 ≤ buf.length := by omega
  have hname : fromLe (slice (encodeRecord .fileIdFull next e us buf ++ rest) 60 4) =
      2 * us.length := by
    rw [slice_record h (by omega)]
    unfold fixedPart encodeCommon
    simp (disch := ((try simp only [length_setUint]); omega)) only [setUint32, setUint64,
      slice_setUint_before, slice_setUint_same, fromLe_le]
    omega
  have hpart : slice (encodeRecord .fileIdFull next e us buf ++ rest) 80 (2 * us.length) =
      utf16Octets us := by
    rw [slice_append_left (by rw [length_encodeRecord h]; omega), encodeRecord_full]
    have hsame : slice (patch (fixedPart next e us.length buf) 80 (utf16Octets us)) 80
        (utf16Octets us).length = utf16Octets us :=
      slice_patch_same (by rw [length_fixedPart]; omega)
    rw [length_utf16Octets] at hsame
    exact hsame
  unfold decodeFileIdFull
  simp only [hname]
  rw [if_neg (by rw [List.length_append, length_encodeRecord h]; omega)]
  have hwin := timevalToWin_lt
  rw [slice_record h (by omega), slice_record h (by omega), slice_record h (by omega),
    slice_record h (by omega), slice_record h (by omega), slice_record h (by omega),
    slice_record h (by omega), slice_record h (by omega), slice_record h (by omega),
    slice_record h (by omega), slice_record h (by omega)]
  unfold fixedPart encodeCommon
  simp (disch := ((try simp only [length_setUint]); omega)) only [setUint32, setUint64,
      slice_setUint_before, slice_setUint_same, fromLe_le]
  have h32 : ∀ n : UInt32, UInt32.ofNat (n.toNat % 256 ^ 4) = n := fun n => by
    have hlt : n.toNat < 256 ^ 4 := n.toNat_lt
    rw [Nat.mod_eq_of_lt hlt]
    exact UInt32.ofNat_toNat
  have h64 : ∀ n : UInt64, UInt64.ofNat (n.toNat % 256 ^ 8) = n := fun n => by
    have hlt : n.toNat < 256 ^ 8 := n.toNat_lt
    rw [Nat.mod_eq_of_lt hlt]
    exact UInt64.ofNat_toNat
  have htime : ∀ tv, timevalToWin tv % 256 ^ 8 = timevalToWin tv := fun tv =>
    Nat.mod_eq_of_lt (hwin tv)
  have htwice : 2 * us.length / 2 * 2 = 2 * us.length := by omega
  have hnext' : next % 256 ^ 4 = next := Nat.mod_eq_of_lt hnext
  simp only [h32, h64, htime, htwice, hnext', hpart, utf16Units_utf16Octets hus,
    FileIdFull.ofRecord]

/-- The octets behind the fixed part do not depend on the file id. -/
theorem drop_encodeRecord (id : UInt64) (h : 80 ≤ buf.length) :
    (encodeRecord .fileIdFull next { e with fileId := id } us buf).drop 80 =
      (encodeRecord .fileIdFull next e us buf).drop 80 := by
  have hname : ∀ e' : DirEntry, (encodeRecord .fileIdFull next e' us buf).drop 80 =
      utf16Octets us ++ ((encodeCommon next e' us.length buf).drop (80 + 2 * us.length)) := by
    intro e'
    have hlen : ((fixedPart next e' us.length buf).take 80).length = 80 := by
      rw [List.length_take, length_fixedPart]
      omega
    rw [encodeRecord_full, patch, List.append_assoc, List.drop_left' hlen, length_utf16Octets,
      fixedPart, setUint64, setUint32, drop_setUint (by omega), drop_setUint (by omega)]
  rw [hname, hname]
  rfl

/-! ## Times -/

theorem Timeval.Representable.win_eq {tv : Timeval} (h : tv.Representable) :
    (timevalToWin tv : Int) = tv.sec * 10000000 + 116444736000000000 + tv.usec * 10 := by
  unfold timevalToWin
  rw [Int.emod_eq_of_lt h.win.1 h.win.2]
  exact Int.toNat_of_nonneg h.win.1

/-- **A time comes back** iff it is not before 1970. -/
theorem winToTimeval_timevalToWin {tv : Timeval} (h : tv.Representable) :
    winToTimeval (timevalToWin tv) = tv ↔ 0 ≤ tv.sec := by
  obtain ⟨hu, hu'⟩ := h.usec
  have hwin := h.win_eq
  have hlt := timevalToWin_lt tv
  generalize timevalToWin tv = w at hwin hlt ⊢
  have husec : (unixMicros w : Int) = tv.usec := by
    unfold unixMicros
    omega
  constructor
  · intro heq
    have hsec : (unixSeconds w : Int) = tv.sec := congrArg Timeval.sec heq
    omega
  · intro hs
    have hbig : 116444736000000000 ≤ w := by omega
    have hmod : (w + 2 ^ 64 - 116444736000000000) % 2 ^ 64 = w - 116444736000000000 := by
      rw [Nat.sub_add_comm hbig, Nat.add_mod_right]
      exact Nat.mod_eq_of_lt (by omega)
    have hsec : (unixSeconds w : Int) = tv.sec := by
      unfold unixSeconds
      rw [hmod]
      omega
    rw [winToTimeval, husec, hsec]

end

/-! ## Names -/

section
variable {e : DirEntry} {entries : List DirEntry} {fresh : Memory} {buf tail : Bytes}

theorem DirEntry.Valid.units_spec (h : e.Valid) :
    (Name.ofString e.name).codeUnits? = some e.units ∧ utf16ToUtf8 e.units = e.nameOctets ∧
      ∀ u ∈ e.units, u < 65536 := by
  obtain ⟨us, hus⟩ := Option.isSome_iff_exists.mp h.name
  have hunits : e.units = us := by rw [DirEntry.units, hus]; rfl
  rw [hunits]
  refine ⟨hus, ?_⟩
  unfold DirEntry.nameOctets
  cases hname : e.name with
  | none =>
    rw [hname] at hus
    obtain rfl : [] = us := Option.some.inj hus
    exact ⟨rfl, by simp⟩
  | some s =>
    rw [hname] at hus
    simp only [Name.ofString] at hus
    split at hus
    · rename_i hempty
      obtain rfl : [] = us := Option.some.inj hus
      exact ⟨hempty.symm, by simp⟩
    · split at hus
      · cases hus
      · rename_i vs hvs
        obtain rfl : vs = us := Option.some.inj hus
        exact ⟨utf16ToUtf8_utf8ToUtf16 hvs, (utf8ToUtf16_eq_some.mp hvs).lt⟩

/-- An entry has code units iff it has a name. -/
theorem DirEntry.Valid.units_eq_nil (h : e.Valid) : e.units = [] ↔ e.nameOctets = [] := by
  obtain ⟨hunits, hname, -⟩ := h.units_spec
  constructor
  · intro hnil
    rw [← hname, hnil]
    rfl
  · intro hnil
    unfold DirEntry.nameOctets at hnil
    unfold DirEntry.units
    cases hs : e.name with
    | none => rfl
    | some s =>
      rw [hs] at hnil
      have hempty : s.octets = [] := hnil
      simp only [Name.ofString, hempty, if_true]
      rfl

theorem mapM_units (h : ∀ e ∈ entries, e.Valid) :
    (entries.mapM fun e => (Name.ofString e.name).codeUnits?) =
      some (entries.map DirEntry.units) := by
  induction entries with
  | nil => rfl
  | cons e es ih =>
    obtain ⟨he, hes⟩ := List.forall_mem_cons.mp h
    rw [List.mapM_cons, he.units_spec.1, ih hes]
    rfl

theorem freesTwice_eq_false (h : ∀ e ∈ entries, e.Valid) :
    freesTwice (entries.map DirEntry.units) = false ↔
      (∀ e ∈ entries, e.nameOctets ≠ []) ∨ ∀ e ∈ entries, e.nameOctets = [] := by
  unfold freesTwice
  rw [Bool.and_eq_false_iff]
  simp only [List.any_map, List.any_eq_false, Function.comp_apply, decide_eq_true_eq,
    Classical.not_not]
  constructor
  · rintro (hall | hall)
    · exact .inr fun e he => (h e he).units_eq_nil.mp (hall e he)
    · exact .inl fun e he hnil => hall e he ((h e he).units_eq_nil.mpr hnil)
  · rintro (hall | hall)
    · exact .inr fun e he hnil => hall e he ((h e he).units_eq_nil.mp hnil)
    · exact .inl fun e he => (h e he).units_eq_nil.mpr (hall e he)

/-- **What the encoder returns**: the records, if they fit a buffer and no name is freed twice. -/
theorem encodeQueryDirectoryReply_eq (h : ∀ e ∈ entries, e.Valid) :
    encodeQueryDirectoryReply fresh .fileIdFull entries = .ok buf ↔
      listingSize entries < 2 ^ 31 ∧
        ((∀ e ∈ entries, e.nameOctets ≠ []) ∨ ∀ e ∈ entries, e.nameOctets = []) ∧
        encodeRecords fresh .fileIdFull 0 (entries.zip (entries.map DirEntry.units)) = buf := by
  have hsize : ((entries.map DirEntry.units).map fun us =>
      recordSize .fileIdFull us.length).sum = listingSize entries := by
    rw [List.map_map]
    rfl
  unfold encodeQueryDirectoryReply
  rw [mapM_units h]
  simp only
  rw [hsize, ← freesTwice_eq_false h]
  split
  · rename_i hbig
    refine ⟨fun hok => ?_, fun hok => absurd hok.1 (by omega)⟩
    cases hok
  · rename_i hsmall
    split
    · rename_i htwice
      refine ⟨fun hok => ?_, fun hok => absurd (htwice.symm.trans hok.2.1) (by decide)⟩
      cases hok
    · rename_i htwice
      rw [Except.ok.injEq]
      exact ⟨fun hok => ⟨by omega, by simpa using htwice, hok⟩, fun hok => hok.2.2⟩

/-! ## The loop of the client -/

/-- The record of an entry at an offset. -/
def recordAt (fresh : Memory) (offset next : Nat) (e : DirEntry) : Bytes :=
  encodeRecord .fileIdFull next e e.units
    ((List.range (recordSize .fileIdFull e.units.length)).map fun i => fresh (offset + i))

/-- What the client finds in it. -/
def DirEntry.found (e : DirEntry) (next : Nat) : FileIdFull := .ofRecord next e e.units

theorem length_recordAt (fresh : Memory) (offset next : Nat) (e : DirEntry) :
    (recordAt fresh offset next e).length = recordSize .fileIdFull e.units.length := by
  unfold recordAt
  rw [length_encodeRecord] <;> rw [List.length_map, List.length_range]
  exact le_recordSize _

theorem decode_recordAt (he : e.Valid) {offset next : Nat}
    (hsize : recordSize .fileIdFull e.units.length < 2 ^ 31) (hnext : next < 2 ^ 32) :
    decodeFileIdFull (recordAt fresh offset next e ++ tail) = some (e.found next) := by
  obtain ⟨-, -, hlt⟩ := he.units_spec
  refine decodeFileIdFull_encodeRecord ?_ ?_ hlt hnext <;> rw [List.length_map, List.length_range]
  · exact le_recordSize _
  · exact hsize

/-- One turn of the loop, on a record of the server. -/
theorem decodeDirents_record {vec : Bytes} {offset place next : Nat} (he : e.Valid)
    (hvec : vec.drop offset = recordAt fresh place next e ++ tail)
    (hsize : recordSize .fileIdFull e.units.length < 2 ^ 31) (hnext : next < 2 ^ 32) (mem : Nat)
    (before : Option FileIdFull) (dir : List FileIdFull) :
    decodeDirents vec (mem + 1) offset before dir =
      if next = 0 then .entries (e.found next :: dir)
      else decodeDirents vec mem ((offset + next) % 2 ^ 32) (some (e.found next))
        (e.found next :: dir) := by
  have hpos := le_recordSize e.units.length
  have hlen : ¬vec.length ≤ offset := by
    intro hle
    have hcount := congrArg List.length hvec
    rw [List.drop_of_length_le hle, List.length_append, length_recordAt, List.length_nil] at hcount
    omega
  rw [decodeDirents, if_neg hlen, hvec, decode_recordAt he hsize hnext]
  rfl

/-- The times are all that can be lost in an entry. -/
theorem listed_found (he : e.Valid) (next : Nat) :
    (e.found next).listed = e.listed ↔ ∀ tv ∈ e.times, 0 ≤ tv.sec := by
  obtain ⟨-, hname, -⟩ := he.units_spec
  have hback : ∀ tv ∈ e.times, winToTimeval (timevalToWin tv) = tv ↔ 0 ≤ tv.sec := fun tv htv =>
    winToTimeval_timevalToWin (he.times tv htv)
  have htimes : (e.found next).listed = e.listed ↔
      e.times.map (fun tv => winToTimeval (timevalToWin tv)) = e.times := by
    simp only [DirEntry.found, FileIdFull.ofRecord, FileIdFull.listed, DirEntry.listed, hname,
      Listed.mk.injEq, true_and, DirEntry.times, List.map_cons, List.map_nil]
  rw [htimes]
  constructor
  · intro hmap tv htv
    have hid : e.times.map (fun tv => winToTimeval (timevalToWin tv)) = e.times.map id :=
      hmap.trans (List.map_id _).symm
    exact (hback tv htv).mp (List.map_inj_left.mp hid tv htv)
  · intro hsec
    refine (List.map_congr_left fun tv htv => (hback tv htv).mpr (hsec tv htv)).trans ?_
    exact List.map_id' _

/-- The second loop of the encoder, without the pairs. -/
def records (fresh : Memory) (offset : Nat) (entries : List DirEntry) : Bytes :=
  encodeRecords fresh .fileIdFull offset (entries.zip (entries.map DirEntry.units))

theorem records_last (fresh : Memory) (offset : Nat) (e : DirEntry) :
    records fresh offset [e] = recordAt fresh offset 0 e ++ [] := rfl

theorem records_cons (fresh : Memory) (offset : Nat) (e e' : DirEntry) (es : List DirEntry) :
    records fresh offset (e :: e' :: es) =
      recordAt fresh offset (offset + recordSize .fileIdFull e.units.length) e ++
        records fresh (offset + recordSize .fileIdFull e.units.length) (e' :: es) := by
  unfold records
  simp only [List.map_cons, List.zip_cons_cons, encodeRecords, List.length_cons]
  rw [if_pos (by simp only [FILEID_BOTH_DIRECTORY_INFORMATION_SIZE, DIR_ENTRY_SIZE]; omega)]
  rfl

theorem listingSize_cons (e : DirEntry) (es : List DirEntry) :
    listingSize (e :: es) = recordSize .fileIdFull e.units.length + listingSize es := rfl

/-- One entry is found. -/
theorem decode_one (fresh : Memory) (he : e.Valid) (hsize : listingSize [e] < 2 ^ 31) (mem : Nat) :
    decodeDirents (records fresh 0 [e]) (mem + 1) 0 none [] = .entries [e.found 0] := by
  rw [listingSize_cons] at hsize
  have hvec : (records fresh 0 [e]).drop 0 = recordAt fresh 0 0 e ++ [] := records_last fresh 0 e
  rw [decodeDirents_record he hvec (by omega) (by omega), if_pos rfl]

/-- The first of some entries is found. -/
theorem decode_first (fresh : Memory) {e' : DirEntry} {es : List DirEntry} {n : Nat} (he : e.Valid)
    (hn : recordSize .fileIdFull e.units.length = n) (hsize : listingSize (e :: e' :: es) < 2 ^ 31)
    (mem : Nat) :
    (records fresh 0 (e :: e' :: es)).drop n = records fresh n (e' :: es) ∧
      decodeDirents (records fresh 0 (e :: e' :: es)) (mem + 1) 0 none [] =
        decodeDirents (records fresh 0 (e :: e' :: es)) mem n (some (e.found n)) [e.found n] := by
  have hpos := le_recordSize e.units.length
  rw [listingSize_cons, hn] at hsize
  have hcons := records_cons fresh 0 e e' es
  rw [hn, Nat.zero_add] at hcons
  have hlen : (recordAt fresh 0 n e).length = n := (length_recordAt fresh 0 n e).trans hn
  have hvec : (records fresh 0 (e :: e' :: es)).drop 0 =
      recordAt fresh 0 n e ++ records fresh n (e' :: es) := hcons
  refine ⟨?_, ?_⟩
  · rw [hcons]
    exact List.drop_left' hlen
  · rw [decodeDirents_record he hvec (by omega) (by omega), if_neg (by omega), Nat.zero_add,
      Nat.mod_eq_of_lt (by omega)]

/-- Two entries are found. -/
theorem decode_two (fresh : Memory) {e' : DirEntry} (he : e.Valid) (he' : e'.Valid)
    (hsize : listingSize [e, e'] < 2 ^ 31) (mem : Nat) :
    decodeDirents (records fresh 0 [e, e']) (mem + 2) 0 none [] =
      .entries [e'.found 0, e.found (recordSize .fileIdFull e.units.length)] := by
  obtain ⟨hdrop, hfirst⟩ := decode_first fresh he rfl hsize (mem + 1)
  rw [hfirst]
  rw [records_last] at hdrop
  simp only [listingSize_cons] at hsize
  rw [decodeDirents_record he' hdrop (by omega) (by omega), if_pos rfl]

/-- **Behind the second of more entries** the client is too far by the length of the first. -/
theorem decode_more (fresh : Memory) {e' e'' : DirEntry} {es : List DirEntry} {n n' : Nat} (he : e.Valid)
    (he' : e'.Valid) (hn : recordSize .fileIdFull e.units.length = n)
    (hn' : recordSize .fileIdFull e'.units.length = n')
    (hsize : listingSize (e :: e' :: e'' :: es) < 2 ^ 31) (mem : Nat) :
    (records fresh 0 (e :: e' :: e'' :: es)).drop (n + n') = records fresh (n + n') (e'' :: es) ∧
      decodeDirents (records fresh 0 (e :: e' :: e'' :: es)) (mem + 2) 0 none [] =
        decodeDirents (records fresh 0 (e :: e' :: e'' :: es)) mem (n + (n + n'))
          (some (e'.found (n + n'))) [e'.found (n + n'), e.found n] := by
  have hpos := le_recordSize e.units.length
  obtain ⟨hdrop, hfirst⟩ := decode_first fresh he hn hsize (mem + 1)
  rw [hfirst]
  have hcons := records_cons fresh n e' e'' es
  rw [hn'] at hcons
  rw [hcons] at hdrop
  simp only [listingSize_cons, hn, hn'] at hsize
  refine ⟨?_, ?_⟩
  · rw [← List.drop_drop, hdrop]
    exact List.drop_left' ((length_recordAt fresh n _ e').trans hn')
  · rw [decodeDirents_record he' hdrop (by omega) (by omega), if_neg (by omega),
      Nat.mod_eq_of_lt (by omega)]

/-- What has been found stays. -/
theorem decodeDirents_keeps {vec : Bytes} {mem offset : Nat} {before : Option FileIdFull}
    {dir dir' : List FileIdFull} (h : decodeDirents vec mem offset before dir = .entries dir') :
    ∃ more, dir' = more ++ dir := by
  induction mem generalizing offset before dir with
  | zero => cases h
  | succ mem ih =>
    rw [decodeDirents] at h
    split at h
    · cases h
    · split at h
      · cases h
      · rename_i fs _
        split at h
        · cases h
          exact ⟨[fs], rfl⟩
        · obtain ⟨more, rfl⟩ := ih h
          exact ⟨more ++ [fs], by simp⟩

theorem drop_append_congr {x y t : Bytes} {j k : Nat} (h : x.drop j = y.drop j)
    (hx : j ≤ x.length) (hy : j ≤ y.length) (hk : j ≤ k) : (x ++ t).drop k = (y ++ t).drop k := by
  have hsplit : ∀ z : Bytes, j ≤ z.length → (z ++ t).drop k = (z.drop j ++ t).drop (k - j) := by
    intro z hz
    rw [← List.drop_append_of_le_length hz, List.drop_drop]
    congr 1
    omega
  rw [hsplit x hx, hsplit y hy, h]

/-- Behind the fixed part of its first entry, a listing does not depend on the file id there. -/
theorem drop_records (fresh : Memory) (offset : Nat) (e : DirEntry) (es : List DirEntry)
    (id : UInt64) {k : Nat} (hk : 80 ≤ k) :
    (records fresh offset ({ e with fileId := id } :: es)).drop k =
      (records fresh offset (e :: es)).drop k := by
  have hpos := le_recordSize e.units.length
  have hlen : ∀ next (e' : DirEntry), e'.units = e.units →
      80 ≤ (recordAt fresh offset next e').length := by
    intro next e' he'
    rw [length_recordAt, he']
    omega
  have hrecord : ∀ next, (recordAt fresh offset next { e with fileId := id }).drop 80 =
      (recordAt fresh offset next e).drop 80 := by
    intro next
    refine drop_encodeRecord id ?_
    rw [List.length_map, List.length_range]
    show 80 ≤ recordSize .fileIdFull e.units.length
    omega
  have hfront : ∀ (next : Nat) (t : Bytes),
      (recordAt fresh offset next { e with fileId := id } ++ t).drop k =
        (recordAt fresh offset next e ++ t).drop k := fun next t =>
    drop_append_congr (hrecord next) (hlen next _ rfl) (hlen next e rfl) hk
  cases es with
  | nil => exact hfront 0 []
  | cons e' es =>
    rw [records_cons, records_cons]
    exact hfront _ _

/-- **Three entries or more come back only by coincidence**: there is a file id of the third for
which they do not. -/
theorem third_is_lost {e' e'' : DirEntry} {es : List DirEntry} (he : e.Valid) (he' : e'.Valid)
    (he'' : e''.Valid) (hes : ∀ e ∈ es, e.Valid) :
    ∃ id, ¬RoundTrips fresh (e :: e' :: { e'' with fileId := id } :: es) := by
  have hsame : ∀ id : UInt64, ({ e'' with fileId := id } : DirEntry).Valid := fun id =>
    ⟨he''.name, he''.times⟩
  generalize hn : recordSize .fileIdFull e.units.length = n
  generalize hn' : recordSize .fileIdFull e'.units.length = n'
  have hpos := le_recordSize e.units.length
  -- what the third turn of the loop finds is the same for all file ids
  have hthird : ∃ fs : FileIdFull, ∀ id, RoundTrips fresh
      (e :: e' :: { e'' with fileId := id } :: es) → fs.fileId = id := by
    refine ⟨(decodeFileIdFull ((records fresh (n + n') (e'' :: es)).drop n)).getD
      (e'.found (n + n')), fun id htrips => ?_⟩
    obtain ⟨buf, hok, hdec⟩ := htrips
    have hvalid : ∀ d ∈ e :: e' :: { e'' with fileId := id } :: es, d.Valid := by
      simp only [List.forall_mem_cons]
      exact ⟨he, he', hsame id, hes⟩
    obtain ⟨hsize, -, rfl⟩ := (encodeQueryDirectoryReply_eq hvalid).mp hok
    obtain ⟨dir, hdir, hlisted⟩ := hdec (es.length + 3) (by simp)
    obtain ⟨hdrop, hmore⟩ := decode_more fresh he he' hn hn' hsize (es.length + 1)
    have hbehind : (records fresh 0 (e :: e' :: { e'' with fileId := id } :: es)).drop
        (n + (n + n')) = (records fresh (n + n') (e'' :: es)).drop n := by
      rw [Nat.add_comm n (n + n'), ← List.drop_drop, hdrop]
      exact drop_records fresh (n + n') e'' es id (by omega)
    change decodeDirents (records fresh 0 _) (es.length + 1 + 2) 0 none [] = _ at hdir
    rw [hmore, decodeDirents] at hdir
    split at hdir
    · cases hdir
    · rw [hbehind] at hdir
      generalize decodeFileIdFull ((records fresh (n + n') (e'' :: es)).drop n) = found at hdir ⊢
      have hfs : found.or (some (e'.found (n + n'))) = some (found.getD (e'.found (n + n'))) := by
        cases found <;> rfl
      rw [hfs] at hdir
      simp only at hdir
      have hkept : ∃ more, dir =
          more ++ [found.getD (e'.found (n + n')), e'.found (n + n'), e.found n] := by
        split at hdir
        · cases hdir
          exact ⟨[], rfl⟩
        · exact decodeDirents_keeps hdir
      obtain ⟨more, rfl⟩ := hkept
      rw [List.reverse_append] at hlisted
      have htail := (List.cons.inj (List.cons.inj (List.cons.inj hlisted).2).2).1
      exact congrArg Listed.fileId htail
  obtain ⟨fs, hfs⟩ := hthird
  by_cases hz : fs.fileId = 0
  · refine ⟨1, fun h => ?_⟩
    rw [hfs 1 h] at hz
    cases hz
  · exact ⟨0, fun h => hz (hfs 0 h)⟩

theorem roundTrips_iff (h : ∀ e ∈ entries, e.Valid) : RoundTrips fresh entries ↔
    listingSize entries < 2 ^ 31 ∧
      ((∀ e ∈ entries, e.nameOctets ≠ []) ∨ ∀ e ∈ entries, e.nameOctets = []) ∧
      ∀ mem, entries.length ≤ mem → ∃ dir,
        decodeDirents (records fresh 0 entries) mem 0 none [] = .entries dir ∧
          dir.reverse.map FileIdFull.listed = entries.map DirEntry.listed := by
  constructor
  · rintro ⟨buf, hok, hdec⟩
    obtain ⟨hsize, hnamed, rfl⟩ := (encodeQueryDirectoryReply_eq h).mp hok
    exact ⟨hsize, hnamed, hdec⟩
  · rintro ⟨hsize, hnamed, hdec⟩
    exact ⟨_, (encodeQueryDirectoryReply_eq h).mpr ⟨hsize, hnamed, rfl⟩, hdec⟩

/-- One or two entries come back if their times do. -/
theorem short_listing (h : ∀ e ∈ entries, e.Valid) {dir : List FileIdFull} {k : Nat}
    (hk : entries.length = k) (hshort : k ≤ 2)
    (hdec : listingSize entries < 2 ^ 31 → ∀ mem,
      decodeDirents (records fresh 0 entries) (mem + k) 0 none [] = .entries dir)
    (hlisted : dir.reverse.map FileIdFull.listed = entries.map DirEntry.listed ↔
      ∀ e ∈ entries, ∀ tv ∈ e.times, 0 ≤ tv.sec) : RoundTrips fresh entries ↔ Plain entries := by
  rw [roundTrips_iff h]
  constructor
  · rintro ⟨hsize, hnamed, hall⟩
    obtain ⟨dir', hdir, hback⟩ := hall (0 + k) (by omega)
    rw [hdec hsize 0] at hdir
    obtain rfl := Listing.entries.inj hdir
    exact ⟨by omega, hsize, hnamed, hlisted.mp hback⟩
  · intro hplain
    refine ⟨hplain.small, hplain.named, fun mem hmem => ⟨dir, ?_, hlisted.mpr hplain.modern⟩⟩
    obtain ⟨m, rfl⟩ : ∃ m, mem = m + k := ⟨mem - k, by omega⟩
    exact hdec hplain.small m

/-- **A listing comes back whatever its file ids are** iff it is a plain one. -/
theorem listings_survive (fresh : Memory) (hne : entries ≠ []) (hvalid : ∀ e ∈ entries, e.Valid) :
    (∀ id, RoundTrips fresh (withThirdId entries id)) ↔ Plain entries := by
  match entries, hne with
  | [e], _ =>
    have he := hvalid e (List.mem_singleton_self e)
    have hback := listed_found he 0
    have hone : RoundTrips fresh [e] ↔ Plain [e] := by
      refine short_listing hvalid rfl (by simp) (decode_one fresh he) ?_
      simp only [List.reverse_singleton, List.map_cons, List.map_nil, List.cons.injEq, and_true,
        List.forall_mem_cons, hback]
      simp
    exact ⟨fun h => hone.mp (h 0), fun h _ => hone.mpr h⟩
  | [e, e'], _ =>
    have he := hvalid e (List.mem_cons_self ..)
    have he' := hvalid e' (List.mem_cons_of_mem _ (List.mem_singleton_self e'))
    have hback := listed_found he (recordSize .fileIdFull e.units.length)
    have hback' := listed_found he' 0
    have htwo : RoundTrips fresh [e, e'] ↔ Plain [e, e'] := by
      refine short_listing hvalid rfl (by simp) (decode_two fresh he he') ?_
      simp only [List.reverse_cons, List.reverse_nil, List.nil_append, List.cons_append,
        List.map_cons, List.map_nil, List.cons.injEq, and_true, List.forall_mem_cons, hback, hback']
      simp
    exact ⟨fun h => htwo.mp (h 0), fun h _ => htwo.mpr h⟩
  | e :: e' :: e'' :: es, _ =>
    simp only [List.forall_mem_cons] at hvalid
    obtain ⟨he, he', he'', hes⟩ := hvalid
    refine ⟨fun h => ?_, fun h => ?_⟩
    · obtain ⟨id, hid⟩ := third_is_lost he he' he'' hes
      exact absurd (h id) hid
    · have hshort := h.short
      simp only [List.length_cons] at hshort
      omega

end

/-- An entry with a name of one letter. -/
def letterEntry (c : UInt8) (id : UInt64) : DirEntry where
  fileId := id
  name := some (CString.ofBytes [c])

theorem letterEntry_valid {c : UInt8} (h : c ∈ [97, 98, 99]) (id : UInt64) :
    (letterEntry c id).Valid := by
  refine ⟨?_, fun tv htv => ?_⟩
  · show (Name.ofString (some (CString.ofBytes [c]))).codeUnits?.isSome = true
    revert c
    decide +kernel
  · have hzero : tv = {} := by
      simpa [letterEntry, DirEntry.times] using htv
    rw [hzero]
    exact ⟨by decide, by decide⟩

def threeLetters : List DirEntry := [letterEntry 97 1, letterEntry 98 2, letterEntry 99 3]

/-- **Three entries of one letter are not read back**: behind the second one the client is past
the end. -/
theorem three_entries_are_lost : (∀ e ∈ threeLetters, e.Valid) ∧
    encodeQueryDirectoryReply (fun _ => 0) .fileIdFull threeLetters =
      .ok (records (fun _ => 0) 0 threeLetters) ∧
    (∀ mem, ∃ dir, decodeDirents (records (fun _ => 0) 0 threeLetters) mem 0 none [] =
      .failed dir) ∧
    ¬RoundTrips (fun _ => 0) threeLetters := by
  have ha := letterEntry_valid (c := 97) (by decide) 1
  have hb := letterEntry_valid (c := 98) (by decide) 2
  have hvalid : ∀ e ∈ threeLetters, e.Valid := by
    simp only [threeLetters, List.forall_mem_cons, List.not_mem_nil, false_implies, implies_true,
      and_true]
    exact ⟨ha, hb, letterEntry_valid (by decide) 3⟩
  have hsize : listingSize threeLetters < 2 ^ 31 := by decide +kernel
  have hn : recordSize .fileIdFull (letterEntry 97 1).units.length = 84 := by decide +kernel
  have hn' : recordSize .fileIdFull (letterEntry 98 2).units.length = 84 := by decide +kernel
  have hlen : (records (fun _ => 0) 0 threeLetters).length = 252 := by decide +kernel
  have hfail : ∀ mem, ∃ dir, decodeDirents (records (fun _ => 0) 0 threeLetters) mem 0 none [] =
      .failed dir := by
    intro mem
    match mem with
    | 0 => exact ⟨_, rfl⟩
    | 1 => exact ⟨_, (decode_first (fun _ => 0) ha hn hsize 0).2⟩
    | mem + 2 =>
      have hmore := (decode_more (fun _ => 0) ha hb hn hn' hsize mem).2
      cases mem with
      | zero => exact ⟨_, hmore⟩
      | succ mem => exact ⟨_, hmore.trans (if_pos hlen.le)⟩
  refine ⟨hvalid, ?_, hfail, fun htrips => ?_⟩
  · exact (encodeQueryDirectoryReply_eq hvalid).mpr ⟨hsize, .inl (by decide +kernel), rfl⟩
  · obtain ⟨-, -, hdec⟩ := (roundTrips_iff hvalid).mp htrips
    obtain ⟨dir, hdir, -⟩ := hdec 3 (by decide)
    obtain ⟨added, hadded⟩ := hfail 3
    rw [hadded] at hdir
    cases hdir

theorem listings_survive_two : (letterEntry 97 1).nameOctets = [97] ∧
    ∀ id, RoundTrips (fun _ => 0) (withThirdId [letterEntry 97 1, letterEntry 98 2] id) := by
  have hvalid : ∀ e ∈ [letterEntry 97 1, letterEntry 98 2], e.Valid := by
    simp only [List.forall_mem_cons, List.not_mem_nil, false_implies, implies_true, and_true]
    exact ⟨letterEntry_valid (by decide) 1, letterEntry_valid (by decide) 2⟩
  refine ⟨by decide +kernel, (listings_survive (fun _ => 0) (by simp) hvalid).mpr
    ⟨by decide, by decide +kernel, .inl (by decide +kernel), by decide +kernel⟩⟩

end Libsmb2
