import Libsmb2.QueryInfo.Encoders

/-!
# What comes back of information that is encoded

The decoder of a class on what its encoder writes.  The decoder of the control information returns
the number of octets it has read and so fails; that of the attribute information asks for eight
octets of name; an empty name comes back as none; the lengths that go with a name are those of what
is sent.

* `winToTimeval_timevalToWin_iff` — which times come back;
* `encodeInfo_apart` — an encoder writes no octet twice, so that all that it stores is found again;
* `decodeInfo_encoded` — what comes back of information that is encoded.
-/

set_option autoImplicit false

namespace Libsmb2.QueryInfo

open Util

/-! ## Times -/

/-- A sum that wraps loses the microseconds: 2^64 is no multiple of ten million. -/
theorem wrapped_time_does_not_return {sec usec w d q : Int} (hu : 0 ≤ usec ∧ usec < 1000000)
    (hd : d < 18446744073709551616) (hq : 1 ≤ q)
    (htotal : sec * 10000000 + 116444736000000000 + usec * 10 = w + q * 18446744073709551616)
    (hw : 0 ≤ w) (hsec : d / 10000000 = sec) (husec : w / 10 % 1000000 = usec) : False := by
  have hle : sec * 10000000 ≤ d := by
    rw [← hsec]
    exact Int.ediv_mul_le d (by decide)
  have hone : q = 1 := by
    have hlt : q < 2 := by linarith
    linarith
  rw [hone] at htotal
  have hten : w = 10 * (usec - 955162 + 1000000 * (sec - 1833029933770)) + 4 := by
    linarith
  have hdiv : w / 10 = usec - 955162 + 1000000 * (sec - 1833029933770) := by
    generalize usec - 955162 + 1000000 * (sec - 1833029933770) = k at hten
    omega
  rw [hdiv, Int.add_mul_emod_self_left] at husec
  omega

/-- **A time from 1970 on comes back** iff its sum does not wrap. -/
theorem winToTimeval_timevalToWin_iff {tv : Timeval} (hsec : 0 ≤ tv.sec)
    (husec : 0 ≤ tv.usec ∧ tv.usec < 1000000) : winToTimeval (timevalToWin tv) = tv ↔
      tv.sec * 10000000 + 116444736000000000 + tv.usec * 10 < 2 ^ 64 := by
  generalize htotal : tv.sec * 10000000 + 116444736000000000 + tv.usec * 10 = total
  constructor
  · intro h
    by_contra hlarge
    have hs : (unixSeconds (timevalToWin tv) : Int) = tv.sec := congrArg Timeval.sec h
    have hu : (unixMicros (timevalToWin tv) : Int) = tv.usec := congrArg Timeval.usec h
    have hw : (timevalToWin tv : Int) = total % 2 ^ 64 := by
      unfold timevalToWin
      rw [htotal]
      exact Int.toNat_of_nonneg (Int.emod_nonneg _ (by decide))
    have hdiv := Int.emod_add_mul_ediv total (2 ^ 64)
    have hq : 1 ≤ total / 2 ^ 64 := Int.le_ediv_of_mul_le (by decide) (by linarith)
    generalize total / 2 ^ 64 = q at hdiv hq
    generalize timevalToWin tv = w at hs hu hw
    unfold unixSeconds at hs
    unfold unixMicros at hu
    have hd : (w + 2 ^ 64 - 116444736000000000) % 2 ^ 64 < 2 ^ 64 := Nat.mod_lt _ (by decide)
    generalize (w + 2 ^ 64 - 116444736000000000) % 2 ^ 64 = d at hs hd
    refine wrapped_time_does_not_return (w := w) (d := d) husec (by exact_mod_cast hd) hq ?_
      (Int.natCast_nonneg w) (by exact_mod_cast hs) (by exact_mod_cast hu)
    rw [htotal, hw]
    linarith
  · intro h
    rw [← htotal] at h
    exact (winToTimeval_timevalToWin ⟨husec, by omega, h⟩).mpr hsec

/-- A time from 1970 on, in seconds and microseconds, that is not the reserved zero. -/
structure Modern (tv : Timeval) : Prop where
  sec : 0 ≤ tv.sec
  usec : 0 ≤ tv.usec ∧ tv.usec < 1000000
  ne : ¬ (tv.sec = 0 ∧ tv.usec = 0)

/-- The time has 64 bits. -/
def Short (tv : Timeval) : Prop :=
  tv.sec * 10000000 + 116444736000000000 + tv.usec * 10 < 2 ^ 64

instance (tv : Timeval) : Decidable (Short tv) := inferInstanceAs (Decidable (_ < _))

theorem Modern.tvTimevalToWin {tv : Timeval} (h : Modern tv) : tvTimevalToWin tv = timevalToWin tv := by
  obtain ⟨hsec, husec, hne⟩ := h
  unfold Libsmb2.tvTimevalToWin
  rw [if_neg hne, if_neg]
  rintro ⟨-, hall⟩
  omega

theorem Modern.returns_iff {tv : Timeval} (h : Modern tv) :
    winToTimeval (timevalToWin tv) = tv ↔ Short tv :=
  winToTimeval_timevalToWin_iff h.sec h.usec

/-! ## Fields -/

section
variable {stores : List Store} {bs : Bytes}

/-- The field that is stored in the `i`th place. -/
theorem field_of_holds (h : Holds stores bs) (i : Nat) {w off x : Nat}
    (hi : stores[i]? = some (.set off (le w x))) (hx : x < 256 ^ w) : fieldAt w bs off = x := by
  have hslice := h _ (List.mem_of_getElem? hi)
  simp only [Store.off, Store.bytes, length_le] at hslice
  unfold fieldAt
  rw [hslice, fromLe_le, Nat.mod_eq_of_lt hx]

theorem u64_of_holds (h : Holds stores bs) (i : Nat) {off : Nat} {x : UInt64}
    (hi : stores[i]? = some (.set off (le 8 x.toNat))) : UInt64.ofNat (fieldAt 8 bs off) = x := by
  rw [field_of_holds h i hi x.toNat_lt, UInt64.ofNat_toNat]

theorem u32_of_holds (h : Holds stores bs) (i : Nat) {off : Nat} {x : UInt32}
    (hi : stores[i]? = some (.set off (le 4 x.toNat))) : UInt32.ofNat (fieldAt 4 bs off) = x := by
  rw [field_of_holds h i hi x.toNat_lt, UInt32.ofNat_toNat]

theorem u8_of_holds (h : Holds stores bs) (i : Nat) {off : Nat} {x : UInt8}
    (hi : stores[i]? = some (.set off (le 1 x.toNat))) : UInt8.ofNat (fieldAt 1 bs off) = x := by
  rw [field_of_holds h i hi x.toNat_lt, UInt8.ofNat_toNat]

theorem tvTimevalToWin_lt (tv : Timeval) : tvTimevalToWin tv < 256 ^ 8 := by
  have hlt := timevalToWin_lt tv
  unfold tvTimevalToWin
  split
  · decide
  split
  · decide
  · exact hlt

theorem time_of_holds (h : Holds stores bs) (i : Nat) {off : Nat} {tv : Timeval}
    (hi : stores[i]? = some (.set off (le 8 (tvTimevalToWin tv)))) :
    winToTimeval (fieldAt 8 bs off) = winToTimeval (tvTimevalToWin tv) := by
  rw [field_of_holds h i hi (tvTimevalToWin_lt tv)]

/-! ## Names -/

theorem transcodes_zeros (k : Nat) : Transcodes (zeros k) (List.replicate k 0) := by
  induction k with
  | zero => exact .nil
  | succ k ih => exact .cons (show codeUnits 0 = some [0] by decide) ih

theorem utf16Octets_zeros (k : Nat) : utf16Octets (List.replicate k 0) = zeros (2 * k) := by
  induction k with
  | zero => rfl
  | succ k ih =>
    have hcons : utf16Octets (List.replicate (k + 1) 0) =
        le 2 0 ++ utf16Octets (List.replicate k 0) := rfl
    rw [hcons, ih]
    rfl

theorem ofBytes_append_zeros (name : CString) (k : Nat) :
    CString.ofBytes (name.octets ++ zeros k) = name := by
  apply CString.ext_octets
  have hall : ∀ c ∈ name.octets, (c != 0) = true := by
    have hname := List.takeWhile_eq_self_iff.mp (CString.ofBytes_octets name)
    exact hname
  show (name.octets ++ zeros k).takeWhile (· != 0) = name.octets
  rw [List.takeWhile_append_of_pos hall]
  cases k with
  | zero => exact List.append_nil _
  | succ k => exact List.append_nil _

/-- A name reads back, with the zeros that pad it. -/
theorem textAt_of_slice {off len k : Nat} {us : List Nat} {name : CString}
    (hus : utf8ToUtf16 name.octets = some us) (hlen : len / 2 = us.length + k)
    (hname : slice bs off (2 * us.length) = utf16Octets us)
    (hpad : slice bs (off + 2 * us.length) (2 * k) = zeros (2 * k)) : textAt bs off len = name := by
  have htranscodes := (utf8ToUtf16_eq_some.mp hus).append (transcodes_zeros k)
  have hoctets : utf16Octets us ++ zeros (2 * k) = utf16Octets (us ++ List.replicate k 0) := by
    rw [← utf16Octets_zeros]
    exact (List.flatMap_append).symm
  have htotal : len / 2 * 2 = 2 * us.length + 2 * k := by omega
  unfold textAt
  rw [htotal, slice_add, hname, hpad, hoctets, utf16Units_utf16Octets htranscodes.lt,
    utf16ToUtf8_utf8ToUtf16 (utf8ToUtf16_eq_some.mpr htranscodes), ofBytes_append_zeros]

/-- A name that is stored reads back. -/
theorem text_of_holds (h : Holds stores bs) {off : Nat} {us : List Nat}
    (hst : .copy off (utf16Octets us) ∈ stores) {name : CString}
    (hus : utf8ToUtf16 name.octets = some us) : textAt bs off (2 * us.length) = name := by
  have hslice := h _ hst
  simp only [Store.off, Store.bytes, length_utf16Octets] at hslice
  apply textAt_of_slice (k := 0) hus
  · omega
  · exact hslice
  · rfl

end

/-! ## What comes back

The times as they are converted there and back, and the lengths that are sent. -/

def FileBasicInfo.returned (fs : FileBasicInfo) : FileBasicInfo where
  creationTime := winToTimeval (tvTimevalToWin fs.creationTime)
  lastAccessTime := winToTimeval (tvTimevalToWin fs.lastAccessTime)
  lastWriteTime := winToTimeval (tvTimevalToWin fs.lastWriteTime)
  changeTime := winToTimeval (tvTimevalToWin fs.changeTime)
  fileAttributes := fs.fileAttributes

/-- An empty name is none. -/
def FileAllInfo.returned (fs : FileAllInfo) : FileAllInfo :=
  { fs with
    basic := fs.basic.returned
    name := if unitsOf fs.name = [] then none else fs.name }

def FileNetworkOpenInfo.returned (fs : FileNetworkOpenInfo) : FileNetworkOpenInfo :=
  { fs with
    creationTime := winToTimeval (tvTimevalToWin fs.creationTime)
    lastAccessTime := winToTimeval (tvTimevalToWin fs.lastAccessTime)
    lastWriteTime := winToTimeval (tvTimevalToWin fs.lastWriteTime)
    changeTime := winToTimeval (tvTimevalToWin fs.changeTime) }

/-- How much is sent behind the length. -/
def FileNameInfo.sentLength (fs : FileNameInfo) : Nat :=
  if fs.name = none then 0 else max fs.fileNameLength.toNat (2 * (unitsOf fs.name).length)

def FileNameInfo.returned (fs : FileNameInfo) : FileNameInfo where
  fileNameLength := .ofNat fs.sentLength
  name := if fs.sentLength = 0 then none else fs.name

/-- Other than in a file, a time that is reserved is converted. -/
def FsVolumeInfo.returned (fs : FsVolumeInfo) : FsVolumeInfo :=
  { fs with
    creationTime := winToTimeval (timevalToWin fs.creationTime)
    volumeLabelLength := .ofNat (2 * (unitsOf fs.volumeLabel).length) }

/-- Twenty octets are asked for, and the name begins behind the twelfth. -/
def FsAttributeInfo.returned (fs : FsAttributeInfo) : Option FsAttributeInfo :=
  if (unitsOf fs.filesystemName).length < 4 then none
  else some { fs with filesystemNameLength := 0 }

/-- What the decoder makes of information that is encoded. -/
def Info.returned : Info → Option Info
  | .basic fs => some (.basic fs.returned)
  | .all fs => some (.all fs.returned)
  | .networkOpen fs => some (.networkOpen fs.returned)
  | .normalizedName fs => some (.normalizedName fs.returned)
  | .fsVolume fs => some (.fsVolume fs.returned)
  | .fsAttribute fs => fs.returned.map .fsAttribute
  | .fsControl _ => none
  | i => some i

section
variable {size : Nat} {bs : Bytes}

theorem FileBasicInfo.at_of_holds {fs : FileBasicInfo}
    (h : Holds (encodeFileBasicInfo fs).stores bs) : FileBasicInfo.at bs = fs.returned := by
  unfold FileBasicInfo.at FileBasicInfo.returned
  rw [time_of_holds h 0 rfl, time_of_holds h 1 rfl, time_of_holds h 2 rfl, time_of_holds h 3 rfl,
    u32_of_holds h 4 rfl]

theorem FileStandardInfo.at_of_holds {fs : FileStandardInfo}
    (h : Holds (encodeFileStandardInfo fs).stores bs) : FileStandardInfo.at bs = fs := by
  unfold FileStandardInfo.at
  rw [u64_of_holds h 0 rfl, u64_of_holds h 1 rfl, u32_of_holds h 2 rfl, u8_of_holds h 3 rfl,
    u8_of_holds h 4 rfl]

theorem FilePositionInfo.at_of_holds {fs : FilePositionInfo}
    (h : Holds (encodeFilePositionInfo fs).stores bs) : FilePositionInfo.at bs = fs := by
  unfold FilePositionInfo.at
  rw [u64_of_holds h 0 rfl]

theorem FileNetworkOpenInfo.at_of_holds {fs : FileNetworkOpenInfo} (hsize : 56 ≤ size)
    (h : Holds (encodeFileNetworkOpenInfo size fs).stores bs) :
    FileNetworkOpenInfo.at bs = fs.returned := by
  rw [show encodeFileNetworkOpenInfo size fs = _ from if_neg (by omega)] at h
  unfold FileNetworkOpenInfo.at FileNetworkOpenInfo.returned
  rw [time_of_holds h 0 rfl, time_of_holds h 1 rfl, time_of_holds h 2 rfl, time_of_holds h 3 rfl,
    u64_of_holds h 4 rfl, u64_of_holds h 5 rfl, u32_of_holds h 6 rfl]

theorem FsSizeInfo.at_of_holds {fs : FsSizeInfo} (hsize : 24 ≤ size)
    (h : Holds (encodeFsSizeInfo size fs).stores bs) : FsSizeInfo.at bs = fs := by
  rw [show encodeFsSizeInfo size fs = _ from if_neg (by omega)] at h
  unfold FsSizeInfo.at
  rw [u64_of_holds h 0 rfl, u64_of_holds h 1 rfl, u32_of_holds h 2 rfl, u32_of_holds h 3 rfl]

theorem FsDeviceInfo.at_of_holds {fs : FsDeviceInfo} (hsize : 8 ≤ size)
    (h : Holds (encodeFsDeviceInfo size fs).stores bs) : FsDeviceInfo.at bs = fs := by
  rw [show encodeFsDeviceInfo size fs = _ from if_neg (by omega)] at h
  unfold FsDeviceInfo.at
  rw [u32_of_holds h 0 rfl, u32_of_holds h 1 rfl]

theorem FsFullSizeInfo.at_of_holds {fs : FsFullSizeInfo} (hsize : 32 ≤ size)
    (h : Holds (encodeFsFullSizeInfo size fs).stores bs) : FsFullSizeInfo.at bs = fs := by
  rw [show encodeFsFullSizeInfo size fs = _ from if_neg (by omega)] at h
  unfold FsFullSizeInfo.at
  rw [u64_of_holds h 0 rfl, u64_of_holds h 1 rfl, u64_of_holds h 2 rfl, u32_of_holds h 3 rfl,
    u32_of_holds h 4 rfl]

theorem FsSectorSizeInfo.at_of_holds {fs : FsSectorSizeInfo} (hsize : 28 ≤ size)
    (h : Holds (encodeFsSectorSizeInfo size fs).stores bs) : FsSectorSizeInfo.at bs = fs := by
  rw [show encodeFsSectorSizeInfo size fs = _ from if_neg (by omega)] at h
  unfold FsSectorSizeInfo.at
  rw [u32_of_holds h 0 rfl, u32_of_holds h 1 rfl, u32_of_holds h 2 rfl, u32_of_holds h 3 rfl,
    u32_of_holds h 4 rfl, u32_of_holds h 5 rfl, u32_of_holds h 6 rfl]

theorem octetsOf_octets {n : Nat} (o : Octets n) : octetsOf n o.1 = o := by
  apply Subtype.ext
  show (o.1 ++ zeros n).take n = o.1
  exact List.take_left' o.2

theorem FsObjectIdInfo.at_of_holds {fs : FsObjectIdInfo} (hsize : 64 ≤ size)
    (h : Holds (encodeFsObjectIdInfo size fs).stores bs) : FsObjectIdInfo.at bs = fs := by
  rw [show encodeFsObjectIdInfo size fs = _ from if_neg (by omega)] at h
  have hid : slice bs 0 fs.objectId.1.length = fs.objectId.1 := h _ List.mem_cons_self
  have hext : slice bs 16 fs.extendedInfo.1.length = fs.extendedInfo.1 :=
    h _ (List.mem_cons_of_mem _ List.mem_cons_self)
  rw [fs.objectId.2] at hid
  rw [fs.extendedInfo.2] at hext
  unfold FsObjectIdInfo.at
  rw [hid, hext, octetsOf_octets, octetsOf_octets]

/-- The second part of the information is 40 octets behind. -/
theorem holds_drop_of_shift {stores : List Store} {k : Nat}
    (h : Holds (stores.map (shift k)) bs) : Holds stores (bs.drop k) := by
  intro st hst
  have hslice := h _ (List.mem_map_of_mem hst)
  unfold slice at hslice ⊢
  rw [List.drop_drop]
  cases st with
  | set off octets => exact hslice
  | copy off octets => exact hslice

/-- All but the name, the length of which is `n`. -/
theorem FileAllInfo.at_of_fields {fs : FileAllInfo} {n : Nat} (hn : n < 256 ^ 4)
    (h : Holds (allFields fs ++ [.set 96 (le 4 n)]) bs) : FileAllInfo.at bs =
      { fs with
        basic := fs.basic.returned
        name := if 0 < n then some (textAt bs 100 (min n (bs.length - 100))) else none } := by
  have hbasic : FileBasicInfo.at bs = fs.basic.returned := by
    apply FileBasicInfo.at_of_holds
    refine h.mono fun st hst => ?_
    exact List.mem_append_left _ (List.mem_append_left _ (List.mem_append_left _ hst))
  have hstandard : FileStandardInfo.at (bs.drop 40) = fs.standard := by
    apply FileStandardInfo.at_of_holds
    apply holds_drop_of_shift
    refine h.mono fun st hst => ?_
    exact List.mem_append_left _ (List.mem_append_left _ (List.mem_append_right _ hst))
  unfold FileAllInfo.at
  rw [hbasic, hstandard, u64_of_holds h 12 rfl, u32_of_holds h 13 rfl, u32_of_holds h 14 rfl,
    u64_of_holds h 15 rfl, u32_of_holds h 16 rfl, u32_of_holds h 17 rfl, field_of_holds h 18 rfl hn]

theorem FileAllInfo.at_of_holds {fs : FileAllInfo} (hsize : size < 2 ^ 31)
    (hadmitted : (Info.all fs).Admitted size) (hlen : bs.length = (Info.all fs).encodedSize)
    (h : Holds (encodeFileAllInfo size fs).stores bs) : FileAllInfo.at bs = fs.returned := by
  obtain ⟨hroom, hvalid, hname⟩ := hadmitted
  unfold encodeFileAllInfo at h
  rw [if_neg (by omega), if_neg (by omega)] at h
  replace hlen : bs.length = 100 + 2 * (unitsOf fs.name).length := hlen
  unfold FileAllInfo.returned
  rcases hvalid with hnone | hunits
  · rw [hnone] at h
    rw [FileAllInfo.at_of_fields (n := 0) (by decide) h, hnone]
    rfl
  · obtain ⟨name, hsome, hus⟩ := hunits.some_eq
    have hsmall : 2 * (unitsOf fs.name).length < 256 ^ 4 := by
      rcases hname with hnil | hname
      · rw [hnil]
        decide
      · omega
    generalize unitsOf fs.name = us at hus hlen hsmall ⊢
    rw [hsome] at h
    simp only [hus] at h
    rw [FileAllInfo.at_of_fields hsmall (h.mono fun st hst => List.mem_append_left _ hst), hlen,
      Nat.add_sub_cancel_left, min_self, hsome,
      text_of_holds h (List.mem_append_right _ List.mem_cons_self) hus]
    by_cases hnil : us = []
    · rw [if_pos hnil, hnil]
      rfl
    · have hpos : 0 < us.length := List.length_pos_iff.mpr hnil
      rw [if_neg hnil, if_pos (by omega)]

theorem FsVolumeInfo.at_of_holds {fs : FsVolumeInfo} {us : List Nat} (hsmall : 2 * us.length < 256 ^ 4)
    {label : CString} (hlabel : fs.volumeLabel = some label)
    (hus : utf8ToUtf16 label.octets = some us) (hunits : unitsOf fs.volumeLabel = us)
    (h : Holds (volumeFields fs (2 * us.length) ++ [.copy 18 (utf16Octets us)]) bs) :
    FsVolumeInfo.at bs = fs.returned := by
  unfold FsVolumeInfo.at FsVolumeInfo.returned
  rw [field_of_holds h 0 rfl (timevalToWin_lt _), u32_of_holds h 1 rfl, u8_of_holds h 2 rfl,
    u8_of_holds h 3 rfl, field_of_holds h 4 rfl hsmall, hunits, hlabel,
    text_of_holds h (List.mem_append_right _ List.mem_cons_self) hus]

theorem FsAttributeInfo.at_of_holds {fs : FsAttributeInfo} {us : List Nat}
    (hsmall : 2 * us.length < 256 ^ 4) (hpos : 0 < us.length) {name : CString}
    (hname : fs.filesystemName = some name) (hus : utf8ToUtf16 name.octets = some us)
    (h : Holds (attributeFields fs (2 * us.length) ++ [.copy 12 (utf16Octets us)]) bs) :
    FsAttributeInfo.at bs = { fs with filesystemNameLength := 0 } := by
  unfold FsAttributeInfo.at
  rw [u32_of_holds h 0 rfl, u32_of_holds h 1 rfl, field_of_holds h 2 rfl hsmall, hname,
    if_pos (by omega), text_of_holds h (List.mem_append_right _ List.mem_cons_self) hus]

theorem nameAt_of_length {off n : Nat} (hlen : bs.length = off + n) :
    nameAt bs off n = if n = 0 then none else some (textAt bs off n) := by
  have hmin : min n (bs.length - off) = n := by omega
  unfold nameAt
  rw [hmin]
  by_cases hzero : n = 0
  · rw [if_pos hzero, if_neg (by omega)]
  · rw [if_neg hzero, if_pos (by omega)]

/-- The name and the zeros behind it, of which an odd last one is not read. -/
theorem FileNameInfo.text_of_holds {us : List Nat} {name : CString} {n : Nat}
    (hus : utf8ToUtf16 name.octets = some us) (hn : 2 * us.length ≤ n)
    (h : Holds (.copy 4 (utf16Octets us) :: namePadding (2 * us.length) n ++ [.set 0 (le 4 n)]) bs) :
    textAt bs 4 n = name := by
  have hname := h (.copy 4 (utf16Octets us)) List.mem_cons_self
  simp only [Store.off, Store.bytes, length_utf16Octets] at hname
  apply textAt_of_slice (k := n / 2 - us.length) hus
  · omega
  · exact hname
  · by_cases hpad : 2 * us.length < n
    · have hmem : Store.copy (4 + 2 * us.length) (zeros (n - 2 * us.length)) ∈
          namePadding (2 * us.length) n := mem_namePadding.mpr ⟨hpad, rfl⟩
      have hzeros := h _ (List.mem_append_left _ (List.mem_cons_of_mem _ hmem))
      simp only [Store.off, Store.bytes, length_zeros] at hzeros
      rw [slice_take bs _ (show 2 * (n / 2 - us.length) ≤ n - 2 * us.length by omega), hzeros]
      unfold zeros
      rw [List.take_replicate, min_eq_left (by omega)]
    · rw [show 2 * (n / 2 - us.length) = 0 by omega]
      rfl

theorem FileNameInfo.encodedSize_eq (fs : FileNameInfo) :
    (Info.normalizedName fs).encodedSize = 4 + fs.sentLength := by
  unfold Info.encodedSize FileNameInfo.sentLength
  simp only
  split <;> rfl

theorem FileNameInfo.sentLength_lt {fs : FileNameInfo} (hsize : size < 2 ^ 31)
    (hadmitted : (Info.normalizedName fs).Admitted size) : fs.sentLength < 2 ^ 31 := by
  unfold FileNameInfo.sentLength
  rcases hadmitted with ⟨hnone, -⟩ | ⟨-, hroom⟩
  · rw [if_pos hnone]
    decide
  · split <;> omega

/-- What is stored: the length and, if there is one, the name with its padding. -/
theorem encodeFileNormalizedNameInfo_cases {fs : FileNameInfo}
    (hadmitted : (Info.normalizedName fs).Admitted size) :
    (fs.name = none ∧ (encodeFileNormalizedNameInfo size fs).stores = [.set 0 (le 4 fs.sentLength)]) ∨
    ∃ name us, fs.name = some name ∧ utf8ToUtf16 name.octets = some us ∧
      2 * us.length ≤ fs.sentLength ∧ (encodeFileNormalizedNameInfo size fs).stores =
        .copy 4 (utf16Octets us) :: namePadding (2 * us.length) fs.sentLength ++
          [.set 0 (le 4 fs.sentLength)] := by
  unfold encodeFileNormalizedNameInfo FileNameInfo.sentLength
  rcases hadmitted with ⟨hnone, hroom⟩ | ⟨hunits, hroom⟩
  · refine .inl ⟨hnone, ?_⟩
    rw [if_neg (by omega), if_pos hnone, hnone]
  · obtain ⟨name, hsome, hus⟩ := hunits.some_eq
    have hmod : (4 + fs.fileNameLength.toNat) % 2 ^ 32 ≤ 4 + fs.fileNameLength.toNat :=
      Nat.mod_le _ _
    have hne : fs.name ≠ none := by
      rw [hsome]
      exact Option.some_ne_none name
    refine .inr ⟨name, unitsOf fs.name, hsome, hus, ?_, ?_⟩
    · rw [if_neg hne]
      exact Nat.le_max_right _ _
    · rw [if_neg hne, if_neg (by omega)]
      generalize unitsOf fs.name = us at hus hroom ⊢
      rw [hsome]
      simp only [hus]
      rw [if_neg (by omega)]

theorem FileNameInfo.field_of_holds {fs : FileNameInfo} (hsize : size < 2 ^ 31)
    (hadmitted : (Info.normalizedName fs).Admitted size)
    (h : Holds (encodeFileNormalizedNameInfo size fs).stores bs) :
    fieldAt 4 bs 0 = fs.sentLength := by
  have hmem : Store.set 0 (le 4 fs.sentLength) ∈ (encodeFileNormalizedNameInfo size fs).stores := by
    rcases encodeFileNormalizedNameInfo_cases hadmitted with ⟨-, hst⟩ | ⟨name, us, -, -, -, hst⟩
    · rw [hst]
      exact List.mem_cons_self
    · rw [hst]
      exact List.mem_append_right _ List.mem_cons_self
  have hlt := FileNameInfo.sentLength_lt hsize hadmitted
  obtain ⟨i, hi⟩ := List.mem_iff_getElem?.mp hmem
  exact QueryInfo.field_of_holds h i hi (by omega)

theorem FileNameInfo.at_of_holds {fs : FileNameInfo} (hsize : size < 2 ^ 31)
    (hadmitted : (Info.normalizedName fs).Admitted size) (hlen : bs.length = 4 + fs.sentLength)
    (h : Holds (encodeFileNormalizedNameInfo size fs).stores bs) : FileNameInfo.at bs = fs.returned := by
  have hfield := FileNameInfo.field_of_holds hsize hadmitted h
  unfold FileNameInfo.at FileNameInfo.returned
  rw [hfield, nameAt_of_length hlen]
  rcases encodeFileNormalizedNameInfo_cases hadmitted with
    ⟨hnone, -⟩ | ⟨name, us, hsome, hus, hle, hst⟩
  · rw [show fs.sentLength = 0 from if_pos hnone, if_pos rfl, if_pos rfl]
  · rw [hst] at h
    rw [FileNameInfo.text_of_holds hus hle h, hsome]

/-! ## An encoder writes no octet twice -/

theorem pairwise_apart {stores : List Store}
    (h : (extents stores).Pairwise fun p q => p.2 ≤ q.1 ∨ q.2 ≤ p.1) :
    stores.Pairwise Store.Apart := by
  unfold extents at h
  rwa [List.pairwise_map] at h

/-- Nor a name that is stored behind all fields. -/
theorem pairwise_apart_name {fields : List Store} {off : Nat} {name : Bytes}
    (h : fields.Pairwise Store.Apart) (hstop : ∀ st ∈ fields, st.stop ≤ off) :
    (fields ++ [Store.copy off name]).Pairwise Store.Apart := by
  rw [List.pairwise_append]
  refine ⟨h, List.pairwise_singleton _ _, fun st hst st' hst' => ?_⟩
  rw [List.mem_singleton.mp hst']
  exact .inl (hstop st hst)

theorem allFields_apart (fs : FileAllInfo) (n : Nat) :
    (allFields fs ++ [Store.set 96 (le 4 n)]).Pairwise Store.Apart := by
  apply pairwise_apart
  show List.Pairwise _ [(0, 8), (8, 16), (16, 24), (24, 32), (32, 36), (36, 40), (40, 48), (48, 56),
    (56, 60), (60, 61), (61, 62), (62, 64), (64, 72), (72, 76), (76, 80), (80, 88), (88, 92),
    (92, 96), (96, 100)]
  decide +kernel

theorem encodeFileAllInfo_apart (fs : FileAllInfo) :
    (encodeFileAllInfo size fs).stores.Pairwise Store.Apart := by
  have hfields : (allFields fs).Pairwise Store.Apart :=
    (List.pairwise_append.mp (allFields_apart fs 0)).1
  unfold encodeFileAllInfo
  split
  · exact .nil
  split
  · exact (List.pairwise_append.mp (List.pairwise_append.mp hfields).1).1
  cases fs.name with
  | none => exact allFields_apart fs 0
  | some name =>
    simp only
    cases utf8ToUtf16 name.octets with
    | none => exact hfields
    | some us => exact pairwise_apart_name (allFields_apart fs _) (allFields_tiles fs _).stop

theorem encodeFileNormalizedNameInfo_apart (fs : FileNameInfo) :
    (encodeFileNormalizedNameInfo size fs).stores.Pairwise Store.Apart := by
  unfold encodeFileNormalizedNameInfo
  split
  · exact .nil
  cases fs.name with
  | none => exact List.pairwise_singleton _ _
  | some name =>
    simp only
    cases utf8ToUtf16 name.octets with
    | none => exact .nil
    | some us =>
      simp only
      split
      · exact .nil
      rw [List.cons_append, List.pairwise_cons, List.pairwise_append]
      refine ⟨fun st hst => ?_, ?_, List.pairwise_singleton _ _, fun st hst st' hst' => ?_⟩
      · rcases List.mem_append.mp hst with hst | hst
        · obtain ⟨-, rfl⟩ := mem_namePadding.mp hst
          refine .inl ?_
          simp only [Store.stop, Store.off, Store.bytes, length_utf16Octets, le_rfl]
        · rw [List.mem_singleton.mp hst]
          refine .inr ?_
          simp only [Store.stop, Store.off, Store.bytes, length_le, le_rfl]
      · unfold namePadding
        split
        · exact List.pairwise_singleton _ _
        · exact .nil
      · obtain ⟨-, rfl⟩ := mem_namePadding.mp hst
        rw [List.mem_singleton.mp hst']
        refine .inr ?_
        simp only [Store.stop, Store.off, Store.bytes, length_le]
        omega

variable {e : Encoding}

theorem encodeFsVolumeInfo_apart {fs : FsVolumeInfo}
    (he : encodeFsVolumeInfo fs = .ok e) : e.stores.Pairwise Store.Apart := by
  unfold encodeFsVolumeInfo at he
  cases hus : fsNameUnits fs.volumeLabel with
  | error o =>
    rw [hus] at he
    cases he
  | ok us =>
    rw [hus] at he
    cases he
    apply pairwise_apart_name
    · apply pairwise_apart
      show List.Pairwise _ [(0, 8), (8, 12), (16, 17), (17, 18), (12, 16)]
      decide
    · apply Tiles.stop
      show Tiles [(0, 8), (8, 12), (16, 17), (17, 18), (12, 16)] 18
      decide

theorem encodeFsAttributeInfo_apart {fs : FsAttributeInfo}
    (he : encodeFsAttributeInfo size fs = .ok e) : e.stores.Pairwise Store.Apart := by
  unfold encodeFsAttributeInfo at he
  split at he
  · cases he
    exact .nil
  cases hus : fsNameUnits fs.filesystemName with
  | error o =>
    rw [hus] at he
    cases he
  | ok us =>
    rw [hus] at he
    cases he
    apply pairwise_apart_name
    · apply pairwise_apart
      show List.Pairwise _ [(0, 4), (4, 8), (8, 12)]
      decide
    · apply Tiles.stop
      show Tiles [(0, 4), (4, 8), (8, 12)] 12
      decide

theorem encodeFsObjectIdInfo_apart (fs : FsObjectIdInfo) :
    (encodeFsObjectIdInfo size fs).stores.Pairwise Store.Apart := by
  unfold encodeFsObjectIdInfo
  split
  · exact .nil
  · apply pairwise_apart_name (List.pairwise_singleton _ (Store.copy 0 fs.objectId.1))
    intro st hst
    rw [List.mem_singleton.mp hst]
    simp only [Store.stop, Store.off, Store.bytes, fs.objectId.2]
    decide

/-- What is refused has no stores. -/
theorem pairwise_apart_of_checked {bound : Nat} (h : e.stores.Pairwise Store.Apart) :
    (if size < bound then ⟨[], none⟩ else e : Encoding).stores.Pairwise Store.Apart := by
  split
  · exact .nil
  · exact h

theorem encodeInfo_apart {i : Info} (he : encodeInfo size i = .ok e) :
    e.stores.Pairwise Store.Apart := by
  cases i with
  | basic fs =>
    cases he
    apply pairwise_apart
    show List.Pairwise _ [(0, 8), (8, 16), (16, 24), (24, 32), (32, 36), (36, 40)]
    decide
  | standard fs =>
    cases he
    apply pairwise_apart
    show List.Pairwise _ [(0, 8), (8, 16), (16, 20), (20, 21), (21, 22), (22, 24)]
    decide
  | position fs =>
    cases he
    exact List.pairwise_singleton _ _
  | all fs =>
    cases he
    exact encodeFileAllInfo_apart fs
  | networkOpen fs =>
    cases he
    apply pairwise_apart_of_checked
    apply pairwise_apart
    show List.Pairwise _ [(0, 8), (8, 16), (16, 24), (24, 32), (32, 40), (40, 48), (48, 52), (52, 56)]
    decide
  | normalizedName fs =>
    cases he
    exact encodeFileNormalizedNameInfo_apart fs
  | fsVolume fs => exact encodeFsVolumeInfo_apart he
  | fsSize fs =>
    cases he
    apply pairwise_apart_of_checked
    apply pairwise_apart
    show List.Pairwise _ [(0, 8), (8, 16), (16, 20), (20, 24)]
    decide
  | fsDevice fs =>
    cases he
    apply pairwise_apart_of_checked
    apply pairwise_apart
    show List.Pairwise _ [(0, 4), (4, 8)]
    decide
  | fsAttribute fs => exact encodeFsAttributeInfo_apart he
  | fsControl fs =>
    cases he
    apply pairwise_apart_of_checked
    apply pairwise_apart
    show List.Pairwise _ [(0, 8), (8, 16), (16, 24), (24, 32), (32, 40), (40, 44)]
    decide
  | fsFullSize fs =>
    cases he
    apply pairwise_apart_of_checked
    apply pairwise_apart
    show List.Pairwise _ [(0, 8), (8, 16), (16, 24), (24, 28), (28, 32)]
    decide
  | fsObjectId fs =>
    cases he
    exact encodeFsObjectIdInfo_apart fs
  | fsSectorSize fs =>
    cases he
    apply pairwise_apart_of_checked
    apply pairwise_apart
    show List.Pairwise _ [(0, 4), (4, 8), (8, 12), (12, 16), (16, 20), (20, 24), (24, 28)]
    decide

/-! ## The decoder on what is sent -/

/-- All of what is encoded is found in what is sent of the block. -/
theorem Lays.holds {s : Nat} (h : Lays size e s)
    (hapart : e.stores.Pairwise Store.Apart) (hroom : s ≤ size) (junk : Nat → UInt8) :
    Holds e.stores ((e.stores.foldl Store.apply (.fresh size)).octets junk s) :=
  holds_octets hapart h.stop hroom junk

theorem Info.Admitted.units_lt {name : Option CString} {off : Nat} (hsize : size < 2 ^ 31)
    (h : unitsOf name = [] ∨ off + 2 * (unitsOf name).length ≤ size) :
    2 * (unitsOf name).length < 256 ^ 4 := by
  rcases h with hnil | hroom
  · rw [hnil]
    decide
  · omega

theorem decodeFsVolumeInfo_encoded {fs : FsVolumeInfo} (hsize : size < 2 ^ 31)
    (hadmitted : (Info.fsVolume fs).Admitted size)
    (he : encodeFsVolumeInfo fs = .ok e) (hlen : bs.length = (Info.fsVolume fs).encodedSize)
    (h : Holds e.stores bs) (t : Nat) : decodeFsVolumeInfo t (.whole bs) = .ok fs.returned := by
  obtain ⟨hunits, hroom⟩ := hadmitted
  have hsmall := Info.Admitted.units_lt hsize hroom
  obtain ⟨label, hlabel, hus⟩ := hunits.some_eq
  unfold encodeFsVolumeInfo at he
  rw [hunits.fsNameUnits] at he
  cases he
  replace hlen : bs.length = 18 + 2 * (unitsOf fs.volumeLabel).length := hlen
  rw [decodeFsVolumeInfo_eq (by omega), FsVolumeInfo.at_of_holds hsmall hlabel hus rfl h]
  rw [field_of_holds h 4 rfl hsmall]
  omega

theorem decodeFsAttributeInfo_encoded {fs : FsAttributeInfo} (hsize : size < 2 ^ 31)
    (hadmitted : (Info.fsAttribute fs).Admitted size)
    (he : encodeFsAttributeInfo size fs = .ok e)
    (hlen : bs.length = (Info.fsAttribute fs).encodedSize) (h : Holds e.stores bs) :
    decodeFsAttributeInfo (.whole bs) = .ok fs.returned := by
  obtain ⟨hlow, hunits, hroom⟩ := hadmitted
  have hsmall := Info.Admitted.units_lt hsize hroom
  obtain ⟨name, hname, hus⟩ := hunits.some_eq
  unfold encodeFsAttributeInfo at he
  rw [if_neg (by omega), hunits.fsNameUnits] at he
  cases he
  replace hlen : bs.length = 12 + 2 * (unitsOf fs.filesystemName).length := hlen
  unfold FsAttributeInfo.returned
  by_cases hshort : (unitsOf fs.filesystemName).length < 4
  · rw [if_pos hshort]
    exact if_pos (by rw [Window.whole_len]; omega)
  · rw [if_neg hshort, decodeFsAttributeInfo_eq (by omega),
      FsAttributeInfo.at_of_holds hsmall (by omega) hname hus h]
    rw [field_of_holds h 2 rfl hsmall]
    omega

/-- **The decoder of the class, on what is sent of information that is encoded.** -/
theorem decodeInfo_encoded {i : Info} (hsize : size < 2 ^ 31) (hadmitted : i.Admitted size)
    (he : encodeInfo size i = .ok e) (hlen : bs.length = i.encodedSize)
    (h : Holds e.stores bs) (t : Nat) :
    decodeInfo i.infoClass t (.whole bs) = .ok i.returned := by
  have hv := Window.sound_whole bs
  have hwhole := Window.whole_len bs
  cases i with
  | basic fs =>
    cases he
    replace hlen : bs.length = 40 := hlen
    show (decodeFileBasicInfo t (.whole bs)).map _ = _
    rw [decodeFileBasicInfo_eq hv (by omega), Window.whole_octets, FileBasicInfo.at_of_holds h]
    rfl
  | standard fs =>
    cases he
    replace hlen : bs.length = 24 := hlen
    show (decodeFileStandardInfo (.whole bs)).map _ = _
    rw [decodeFileStandardInfo_eq hv (by omega), Window.whole_octets, FileStandardInfo.at_of_holds h]
    rfl
  | position fs =>
    cases he
    replace hlen : bs.length = 8 := hlen
    show (decodeFilePositionInfo (.whole bs)).map _ = _
    rw [decodeFilePositionInfo_eq hv (by omega), Window.whole_octets, FilePositionInfo.at_of_holds h]
    rfl
  | all fs =>
    cases he
    have hlong : 100 ≤ bs.length := by
      rw [hlen]
      exact Nat.le_add_right 100 _
    show (decodeFileAllInfo t (.whole bs)).map _ = _
    rw [decodeFileAllInfo_eq hlong, FileAllInfo.at_of_holds hsize hadmitted hlen h]
    rfl
  | networkOpen fs =>
    cases he
    replace hlen : bs.length = 56 := hlen
    show (decodeFileNetworkOpenInfo t (.whole bs)).map _ = _
    rw [decodeFileNetworkOpenInfo_eq hv (by omega), Window.whole_octets,
      FileNetworkOpenInfo.at_of_holds hadmitted h]
    rfl
  | normalizedName fs =>
    cases he
    rw [FileNameInfo.encodedSize_eq] at hlen
    have hfield := FileNameInfo.field_of_holds hsize hadmitted h
    show (decodeFileNormalizedNameInfo (.whole bs)).map _ = _
    rw [decodeFileNormalizedNameInfo_eq (by omega),
      FileNameInfo.at_of_holds hsize hadmitted hlen h]
    · rfl
    · rw [hfield, hlen]
      omega
  | fsVolume fs =>
    show (decodeFsVolumeInfo t (.whole bs)).map _ = _
    rw [decodeFsVolumeInfo_encoded hsize hadmitted he hlen h]
    rfl
  | fsSize fs =>
    cases he
    replace hlen : bs.length = 24 := hlen
    show (decodeFsSizeInfo (.whole bs)).map _ = _
    rw [decodeFsSizeInfo_eq hv (by omega), Window.whole_octets, FsSizeInfo.at_of_holds hadmitted h]
    rfl
  | fsDevice fs =>
    cases he
    replace hlen : bs.length = 8 := hlen
    show (decodeFsDeviceInfo (.whole bs)).map _ = _
    rw [decodeFsDeviceInfo_eq hv (by omega), Window.whole_octets, FsDeviceInfo.at_of_holds hadmitted h]
    rfl
  | fsAttribute fs =>
    show (decodeFsAttributeInfo (.whole bs)).map _ = _
    rw [decodeFsAttributeInfo_encoded hsize hadmitted he hlen h]
    rfl
  | fsControl fs =>
    replace hlen : bs.length = 44 := hlen
    show (decodeFsControlInfo (.whole bs)).map _ = _
    rw [decodeFsControlInfo_eq hv (by omega)]
    rfl
  | fsFullSize fs =>
    cases he
    replace hlen : bs.length = 32 := hlen
    show (decodeFsFullSizeInfo (.whole bs)).map _ = _
    rw [decodeFsFullSizeInfo_eq hv (by omega), Window.whole_octets,
      FsFullSizeInfo.at_of_holds hadmitted h]
    rfl
  | fsObjectId fs =>
    cases he
    replace hlen : bs.length = 64 := hlen
    show (decodeFsObjectIdInfo (.whole bs)).map _ = _
    rw [decodeFsObjectIdInfo_eq hv (by omega), Window.whole_octets,
      FsObjectIdInfo.at_of_holds hadmitted h]
    rfl
  | fsSectorSize fs =>
    cases he
    replace hlen : bs.length = 28 := hlen
    show (decodeFsSectorSizeInfo (.whole bs)).map _ = _
    rw [decodeFsSectorSizeInfo_eq hv (by omega), Window.whole_octets,
      FsSectorSizeInfo.at_of_holds hadmitted h]
    rfl

end

end Libsmb2.QueryInfo