import Libsmb2.QueryInfo

/-!
# Short QUERY_INFO replies

Whether a decoder stays in the output buffer and takes from there all that it returns.  The basic,
standard, position and volume information is taken from a buffer of any length, the name of a volume
and that of a file system is read at whatever length the server says, and the length of a
normalized name is compared after it has wrapped.

* `decoding_uses_the_buffer_iff` — when a decoder uses nothing but its buffer.
-/

set_option autoImplicit false

namespace Libsmb2.QueryInfo

open Util

namespace InfoClass

/-- The octets that the information of a class has before its name. -/
def fixedSize : InfoClass → Nat
  | .basic => 40
  | .standard => 24
  | .position => 8
  | .all => 100
  | .networkOpen => 56
  | .normalizedName => 4
  | .fsVolume => 18
  | .fsSize => 24
  | .fsDevice => 8
  | .fsAttribute => 12
  | .fsControl => 44
  | .fsFullSize => 32
  | .fsObjectId => 64
  | .fsSectorSize => 28

/-- Where the last of the fields ends that are taken from there. -/
def fieldsEnd : InfoClass → Nat
  | .basic => 36
  | .standard => 22
  | .networkOpen => 52
  | c => c.fixedSize

/-- Where the name ends that is taken from a buffer. -/
def nameEnd (bs : Bytes) : InfoClass → Nat
  | .all => 100 + min (fieldAt 4 bs 96) (bs.length - 100) / 2 * 2
  | .normalizedName => 4 + min (fieldAt 4 bs 0) (bs.length - 4) / 2 * 2
  | .fsVolume => 18 + fieldAt 4 bs 12 / 2 * 2
  | .fsAttribute => 12 + fieldAt 4 bs 8 / 2 * 2
  | _ => 0

/-- The buffer has the fixed part, and a name of the length that it says where that is not looked
at; or it is refused. -/
def Fits (bs : Bytes) : InfoClass → Prop
  | .basic => 40 ≤ bs.length
  | .standard => 24 ≤ bs.length
  | .position => 8 ≤ bs.length
  | .normalizedName => bs.length < 4 ∨ fieldAt 4 bs 0 + 4 < 2 ^ 32 ∨
      4 + fieldAt 4 bs 0 / 2 * 2 ≤ bs.length
  | .fsVolume => 18 ≤ bs.length ∧ 18 + fieldAt 4 bs 12 / 2 * 2 ≤ bs.length
  | .fsAttribute => bs.length < 20 ∨ 12 + fieldAt 4 bs 8 / 2 * 2 ≤ bs.length
  | _ => True

end InfoClass

/-- Every field of the information is what the buffer holds in its place, except for
`filesystem_name_length`, which no decoder stores and which stays zero. -/
structure TakenFrom (c : InfoClass) (bs : Bytes) (i : Info) : Prop where
  fields : c.fieldsEnd ≤ bs.length
  name : c.nameEnd bs ≤ bs.length
  value : i = .at c bs

/-- Whatever the stack holds, the decoder reads inside the buffer; it returns what it has taken from
there, and nothing if the buffer does not have the fixed part. -/
def UsesTheBuffer (c : InfoClass) (bs : Bytes) : Prop :=
  ∀ t, ∃ r, decodeInfo c t (.whole bs) = .ok r ∧ (∀ i ∈ r, TakenFrom c bs i) ∧
    (bs.length < c.fixedSize → r = none)

section
variable {c : InfoClass} {bs : Bytes}

/-! ## Buffers that are taken or refused -/

theorem usesTheBuffer_of_at (h : ∀ t, decodeInfo c t (.whole bs) = .ok (some (.at c bs)))
    (hfixed : c.fixedSize ≤ bs.length) (hfields : c.fieldsEnd ≤ bs.length)
    (hname : c.nameEnd bs ≤ bs.length) : UsesTheBuffer c bs := by
  intro t
  refine ⟨_, h t, fun i hi => ?_, fun hshort => by omega⟩
  cases hi
  exact ⟨hfields, hname, rfl⟩

theorem usesTheBuffer_of_none (h : ∀ t, decodeInfo c t (.whole bs) = .ok none) :
    UsesTheBuffer c bs := by
  intro t
  refine ⟨none, h t, fun i hi => ?_, fun _ => rfl⟩
  cases hi

/-- A decoder that looks at the length first. -/
theorem usesTheBuffer_of_checked {α : Type} (wrap : α → Info)
    {decode : Nat → Except Overrun (Option α)} {fs : α}
    (hrun : ∀ t, decodeInfo c t (.whole bs) = (decode t).map (Option.map wrap))
    (hat : Info.at c bs = wrap fs) (hfields : c.fieldsEnd ≤ c.fixedSize)
    (hname : c.nameEnd bs ≤ bs.length)
    (hshort : bs.length < c.fixedSize → ∀ t, decode t = .ok none)
    (hlong : c.fixedSize ≤ bs.length → ∀ t, decode t = .ok (some fs)) :
    UsesTheBuffer c bs := by
  by_cases h : bs.length < c.fixedSize
  · refine usesTheBuffer_of_none fun t => ?_
    rw [hrun, hshort h]
    rfl
  · refine usesTheBuffer_of_at (fun t => ?_) (by omega) (by omega) hname
    rw [hrun, hlong (by omega), hat]
    rfl

/-- A decoder that refuses nothing. -/
theorem fixedSize_le_of_unchecked (h : UsesTheBuffer c bs)
    (hsome : ∀ r, decodeInfo c 0 (.whole bs) = .ok r → r ≠ none) : c.fixedSize ≤ bs.length := by
  obtain ⟨r, hr, -, hshort⟩ := h 0
  by_contra hlt
  exact hsome r hr (hshort (by omega))

theorem map_some_ne_none {α β : Type} {run : Except Overrun α} {f : α → β} {r : Option β}
    (h : run.map (fun a => some (f a)) = .ok r) : r ≠ none := by
  cases run with
  | error e => cases h
  | ok a =>
    cases h
    exact Option.some_ne_none _

theorem UsesTheBuffer.inside (h : UsesTheBuffer c bs) (t : Nat) :
    Inside (decodeInfo c t (.whole bs)) := by
  obtain ⟨r, hr, -⟩ := h t
  exact ⟨r, hr⟩

/-- Nothing is read of a name of no octets. -/
theorem utf16At_inside_iff {v : Window} {off len : Nat} (hoff : off ≤ v.octets.length) :
    Inside (utf16At v off len) ↔ off + len / 2 * 2 ≤ v.octets.length := by
  unfold utf16At
  rw [inside_map_iff]
  by_cases hzero : len / 2 * 2 = 0
  · rw [hzero]
    exact iff_of_true Window.inside_read_zero hoff
  · exact Window.inside_read_iff hzero

/-! ## The classes -/

theorem basic_uses_iff : UsesTheBuffer .basic bs ↔ 40 ≤ bs.length := by
  constructor
  · intro h
    exact fixedSize_le_of_unchecked h fun r => map_some_ne_none
  · intro h
    refine usesTheBuffer_of_at (fun t => ?_) h ?_ (Nat.zero_le _)
    · show (decodeFileBasicInfo t _).map _ = _
      rw [decodeFileBasicInfo_eq (Window.sound_whole bs) (by rw [Window.whole_len]; omega)]
      rfl
    · show 36 ≤ bs.length
      omega

theorem standard_uses_iff : UsesTheBuffer .standard bs ↔ 24 ≤ bs.length := by
  constructor
  · intro h
    exact fixedSize_le_of_unchecked h fun r => map_some_ne_none
  · intro h
    refine usesTheBuffer_of_at (fun t => ?_) h ?_ (Nat.zero_le _)
    · show (decodeFileStandardInfo _).map _ = _
      rw [decodeFileStandardInfo_eq (Window.sound_whole bs) (by rw [Window.whole_len]; omega)]
      rfl
    · show 22 ≤ bs.length
      omega

theorem position_uses_iff : UsesTheBuffer .position bs ↔ 8 ≤ bs.length := by
  constructor
  · intro h
    exact fixedSize_le_of_unchecked h fun r => map_some_ne_none
  · intro h
    refine usesTheBuffer_of_at (fun t => ?_) h h (Nat.zero_le _)
    show (decodeFilePositionInfo _).map _ = _
    rw [decodeFilePositionInfo_eq (Window.sound_whole bs) h]
    rfl

theorem all_uses : UsesTheBuffer .all bs := by
  by_cases h : bs.length < 100
  · refine usesTheBuffer_of_none fun t => ?_
    show (decodeFileAllInfo t _).map _ = _
    rw [decodeFileAllInfo_short h]
    rfl
  · refine usesTheBuffer_of_at (fun t => ?_) (show 100 ≤ _ by omega) (show 100 ≤ _ by omega) ?_
    · show (decodeFileAllInfo t _).map _ = _
      rw [decodeFileAllInfo_eq (by omega)]
      rfl
    · show 100 + min _ (bs.length - 100) / 2 * 2 ≤ bs.length
      omega

theorem normalizedName_uses_iff :
    UsesTheBuffer .normalizedName bs ↔ InfoClass.normalizedName.Fits bs := by
  have hv := Window.sound_whole bs
  by_cases h : bs.length < 4
  · refine iff_of_true (usesTheBuffer_of_none fun t => ?_) (.inl h)
    show (decodeFileNormalizedNameInfo _).map _ = _
    rw [show decodeFileNormalizedNameInfo (.whole bs) = .ok none from if_pos h]
    rfl
  constructor
  · intro huses
    have hsmall : fieldAt 4 bs 0 < 2 ^ 32 := fromLe_slice_lt bs 0 4
    refine .inr ?_
    by_contra hnot
    -- the sum wraps to less than four, and the length is taken for one that is there
    have hlen : normalizedLength bs.length (fieldAt 4 bs 0) = fieldAt 4 bs 0 := if_neg (by omega)
    have hinside : Inside (decodeFileNormalizedNameInfo (.whole bs)) :=
      inside_map_iff.mp (huses.inside 0)
    unfold decodeFileNormalizedNameInfo at hinside
    rw [Window.whole_len, if_neg h, get_eq hv (by rw [Window.whole_len]; omega)] at hinside
    simp only [bind, Except.bind] at hinside
    obtain ⟨name, hname, -⟩ := inside_bind_iff.mp hinside
    unfold decodeNormalizedName at hname
    rw [Window.whole_len, Window.whole_octets, hlen, if_pos (by omega)] at hname
    have hread := (utf16At_inside_iff (v := .whole bs) (show 4 ≤ bs.length by omega)).mp
      (inside_map_iff.mp ⟨name, hname⟩)
    rw [Window.whole_octets] at hread
    omega
  · intro hfits
    refine usesTheBuffer_of_at (fun t => ?_) (show 4 ≤ _ by omega) (show 4 ≤ _ by omega) ?_
    · show (decodeFileNormalizedNameInfo _).map _ = _
      rw [decodeFileNormalizedNameInfo_eq (by omega) (hfits.resolve_left h)]
      rfl
    · show 4 + min _ (bs.length - 4) / 2 * 2 ≤ bs.length
      omega

theorem fsVolume_uses_iff : UsesTheBuffer .fsVolume bs ↔ InfoClass.fsVolume.Fits bs := by
  have hv := Window.sound_whole bs
  constructor
  · intro huses
    have hfixed : 18 ≤ bs.length := fixedSize_le_of_unchecked huses fun r => map_some_ne_none
    have hlen : 18 ≤ (Window.whole bs).len := hfixed
    have hinside : Inside (decodeFsVolumeInfo 0 (.whole bs)) :=
      inside_map_iff.mp (huses.inside 0)
    unfold decodeFsVolumeInfo at hinside
    simp (disch := omega) only [get_eq hv, ok_bind] at hinside
    obtain ⟨name, hname, -⟩ := inside_bind_iff.mp hinside
    exact ⟨hfixed, (utf16At_inside_iff (v := .whole bs) hfixed).mp ⟨name, hname⟩⟩
  · rintro ⟨hfixed, hname⟩
    refine usesTheBuffer_of_at (fun t => ?_) hfixed hfixed hname
    show (decodeFsVolumeInfo t _).map _ = _
    rw [decodeFsVolumeInfo_eq hfixed hname]
    rfl

theorem fsAttribute_uses_iff : UsesTheBuffer .fsAttribute bs ↔ InfoClass.fsAttribute.Fits bs := by
  have hv := Window.sound_whole bs
  by_cases h : bs.length < 20
  · refine iff_of_true (usesTheBuffer_of_none fun t => ?_) (.inl h)
    show (decodeFsAttributeInfo _).map _ = _
    rw [show decodeFsAttributeInfo (.whole bs) = .ok none from if_pos h]
    rfl
  constructor
  · intro huses
    refine .inr ?_
    have hlen : 20 ≤ (Window.whole bs).len := by rw [Window.whole_len]; omega
    have hinside : Inside (decodeFsAttributeInfo (.whole bs)) :=
      inside_map_iff.mp (huses.inside 0)
    unfold decodeFsAttributeInfo at hinside
    rw [if_neg (by omega)] at hinside
    simp (disch := omega) only [get_eq hv, ok_bind] at hinside
    obtain ⟨name, hname, -⟩ := inside_bind_iff.mp hinside
    unfold decodeFsName at hname
    rw [Window.whole_octets] at hname
    by_cases hzero : 0 < fieldAt 4 bs 8
    · rw [if_pos hzero] at hname
      exact (utf16At_inside_iff (v := .whole bs) (show 12 ≤ bs.length by omega)).mp
        (inside_map_iff.mp ⟨name, hname⟩)
    · omega
  · intro hfits
    refine usesTheBuffer_of_at (fun t => ?_) (show 12 ≤ _ by omega) (show 12 ≤ _ by omega)
      (hfits.resolve_left h)
    show (decodeFsAttributeInfo _).map _ = _
    rw [decodeFsAttributeInfo_eq (by omega) (hfits.resolve_left h)]
    rfl

end

/-- **A decoder uses nothing but its buffer exactly if the buffer fits.** -/
theorem decoding_uses_the_buffer_iff (c : InfoClass) (bs : Bytes) :
    UsesTheBuffer c bs ↔ c.Fits bs := by
  have hv := Window.sound_whole bs
  cases c with
  | basic => exact basic_uses_iff
  | standard => exact standard_uses_iff
  | position => exact position_uses_iff
  | normalizedName => exact normalizedName_uses_iff
  | fsVolume => exact fsVolume_uses_iff
  | fsAttribute => exact fsAttribute_uses_iff
  | all => exact iff_of_true all_uses trivial
  | networkOpen =>
    refine iff_of_true ?_ trivial
    apply usesTheBuffer_of_checked .networkOpen (fun _ => rfl) rfl (by decide) (Nat.zero_le _)
    · exact fun hshort _ => if_pos hshort
    · exact fun hlong _ => decodeFileNetworkOpenInfo_eq hv hlong
  | fsSize =>
    refine iff_of_true ?_ trivial
    apply usesTheBuffer_of_checked .fsSize (fun _ => rfl) rfl (by decide) (Nat.zero_le _)
    · exact fun hshort _ => if_pos hshort
    · exact fun hlong _ => decodeFsSizeInfo_eq hv hlong
  | fsDevice =>
    refine iff_of_true ?_ trivial
    apply usesTheBuffer_of_checked .fsDevice (fun _ => rfl) rfl (by decide) (Nat.zero_le _)
    · exact fun hshort _ => if_pos hshort
    · exact fun hlong _ => decodeFsDeviceInfo_eq hv hlong
  | fsControl =>
    refine iff_of_true (usesTheBuffer_of_none fun t => ?_) trivial
    show (decodeFsControlInfo _).map _ = _
    by_cases hshort : bs.length < 44
    · rw [show decodeFsControlInfo (.whole bs) = .ok none from if_pos hshort]
      rfl
    · rw [decodeFsControlInfo_eq hv (by rw [Window.whole_len]; omega)]
      rfl
  | fsFullSize =>
    refine iff_of_true ?_ trivial
    apply usesTheBuffer_of_checked .fsFullSize (fun _ => rfl) rfl (by decide) (Nat.zero_le _)
    · exact fun hshort _ => if_pos hshort
    · exact fun hlong _ => decodeFsFullSizeInfo_eq hv hlong
  | fsObjectId =>
    refine iff_of_true ?_ trivial
    apply usesTheBuffer_of_checked .fsObjectId (fun _ => rfl) rfl (by decide) (Nat.zero_le _)
    · exact fun hshort _ => if_pos hshort
    · exact fun hlong _ => decodeFsObjectIdInfo_eq hv hlong
  | fsSectorSize =>
    refine iff_of_true ?_ trivial
    apply usesTheBuffer_of_checked .fsSectorSize (fun _ => rfl) rfl (by decide) (Nat.zero_le _)
    · exact fun hshort _ => if_pos hshort
    · exact fun hlong _ => decodeFsSectorSizeInfo_eq hv hlong

/-- A volume whose label is said to have one character, in a buffer that ends before it. -/
def volumeWithoutLabel : Bytes := zeros 12 ++ le 4 2 ++ zeros 2

/-- The label is read behind the buffer. -/
theorem label_is_read_behind_the_buffer : ¬ UsesTheBuffer .fsVolume volumeWithoutLabel := by
  intro h
  have hrun : decodeInfo .fsVolume 0 (.whole volumeWithoutLabel) = .error .read := by
    decide +kernel
  have hinside := h.inside 0
  rw [hrun] at hinside
  exact not_inside_error _ hinside

end Libsmb2.QueryInfo
