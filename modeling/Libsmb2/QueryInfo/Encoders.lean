import Libsmb2.QueryInfo.Encode

/-!
# What the encoders write

How much of the output buffer an encoder fills.  Fields are left out where they do not fit; names
are copied without a look at the room that is there.

* `Lays` — an encoder that writes so many octets from the beginning, and `Lays.filled_iff`, how far
  the block may be sent;
* `encodeInfo_lays`, `encodeInfo_spoiled` — which encoders do, and what the others do instead.
-/

set_option autoImplicit false

namespace Libsmb2.QueryInfo

open Util

/-! ## What an encoder lays down -/

/-- The encoder returns `s`, and has written what comes before that: all of it, but for a field that
is left out because it does not fit. -/
structure Lays (size : Nat) (e : Encoding) (s : Nat) : Prop where
  ret : e.ret = some s
  pos : 0 < s
  fits : ∀ st ∈ e.stores, st.Fits size
  stop : ∀ st ∈ e.stores, st.stop ≤ s
  covers : ∀ i < s, ∃ st ∈ e.stores, st.off ≤ i ∧ i < st.stop ∧
    (st.stop ≤ size ∨ st.stop ≤ i / 8 * 8 + 8)

theorem padTo64_mod (n : Nat) : padTo64 n % 8 = 0 := by
  unfold padTo64
  omega

theorem filled_iff {size n : Nat} {stores : List Store} :
    (stores.foldl Store.apply (.fresh size)).Filled n ↔
      n ≤ size ∧ ∀ i < n, ∃ st ∈ stores, st.Covers size i := by
  unfold Block.Filled
  simp only [size_foldl_apply, Block.fresh_size, isSome_runStores_iff]

/-- The block may be sent up to the end of what was written, and of the block. -/
theorem Lays.filled_iff {size s n : Nat} {e : Encoding} (h : Lays size e s) (hn : n % 8 = 0) :
    (e.stores.foldl Store.apply (.fresh size)).Filled n ↔ n ≤ min s size := by
  rw [QueryInfo.filled_iff]
  constructor
  · rintro ⟨hsize, hall⟩
    rcases Nat.eq_zero_or_pos n with rfl | hpos
    · exact Nat.zero_le _
    obtain ⟨st, hst, hlow, hhigh, hin⟩ := hall (n - 1) (by omega)
    have hstop := h.stop st hst
    omega
  · intro hmin
    refine ⟨by omega, fun i hi => ?_⟩
    obtain ⟨st, hst, hlow, hhigh, hroom⟩ := h.covers i (by omega)
    exact ⟨st, hst, hlow, hhigh, by omega⟩

/-- Where the stores of a list begin and end. -/
def extents (stores : List Store) : List (Nat × Nat) := stores.map fun st => (st.off, st.stop)

/-- The fields of a table make up the first `s` octets, and none crosses a multiple of eight. -/
def Tiles (table : List (Nat × Nat)) (s : Nat) : Prop :=
  (∀ p ∈ table, p.2 ≤ s) ∧ ∀ i < s, ∃ p ∈ table, p.1 ≤ i ∧ i < p.2 ∧ p.2 ≤ i / 8 * 8 + 8

instance (table : List (Nat × Nat)) (s : Nat) : Decidable (Tiles table s) :=
  inferInstanceAs (Decidable (_ ∧ _))

section
variable {size s : Nat} {stores fields : List Store}

theorem Tiles.stop (h : Tiles (extents stores) s) : ∀ st ∈ stores, st.stop ≤ s :=
  fun _ hst => h.1 _ (List.mem_map_of_mem hst)

theorem Tiles.covers (h : Tiles (extents stores) s) (size : Nat) {i : Nat} (hi : i < s) :
    ∃ st ∈ stores, st.off ≤ i ∧ i < st.stop ∧ (st.stop ≤ size ∨ st.stop ≤ i / 8 * 8 + 8) := by
  obtain ⟨p, hp, hlow, hhigh, hroom⟩ := h.2 i hi
  obtain ⟨st, hst, rfl⟩ := List.mem_map.mp hp
  exact ⟨st, hst, hlow, hhigh, .inr hroom⟩

/-- Nothing but fields. -/
theorem Tiles.lays (h : Tiles (extents stores) s) (hpos : 0 < s)
    (hfits : ∀ st ∈ stores, st.Fits size) : Lays size ⟨stores, some s⟩ s where
  ret := rfl
  pos := hpos
  fits := hfits
  stop := h.stop
  covers := fun _ hi => h.covers size hi

/-- Fields and, behind them, a name. -/
theorem Tiles.lays_name (h : Tiles (extents fields) s) (hpos : 0 < s)
    (hfits : ∀ st ∈ fields, st.Fits size) {name : Bytes} (hname : name = [] ∨ s + name.length ≤ size) :
    Lays size ⟨fields ++ [.copy s name], some (s + name.length)⟩ (s + name.length) where
  ret := rfl
  pos := by omega
  fits := by
    intro st hst
    rcases List.mem_append.mp hst with hst | hst
    · exact hfits st hst
    · obtain rfl := List.mem_singleton.mp hst
      exact hname
  stop := by
    intro st hst
    rcases List.mem_append.mp hst with hst | hst
    · have hstop := h.stop st hst
      omega
    · obtain rfl := List.mem_singleton.mp hst
      exact le_rfl
  covers := by
    intro i hi
    by_cases hfield : i < s
    · obtain ⟨st, hst, hcovers⟩ := h.covers size hfield
      exact ⟨st, List.mem_append_left _ hst, hcovers⟩
    · refine ⟨.copy s name, List.mem_append_right _ List.mem_cons_self, ?_, hi, .inl ?_⟩
      · show s ≤ i
        omega
      · show s + name.length ≤ size
        rcases hname with rfl | hname
        · rw [List.length_nil] at hi
          omega
        · exact hname

theorem Tiles.lays_units (h : Tiles (extents fields) s) (hpos : 0 < s)
    (hfits : ∀ st ∈ fields, st.Fits size) {us : List Nat}
    (hroom : us = [] ∨ s + 2 * us.length ≤ size) :
    Lays size ⟨fields ++ [.copy s (utf16Octets us)], some (s + 2 * us.length)⟩
      (s + 2 * us.length) := by
  rw [← length_utf16Octets] at hroom ⊢
  refine h.lays_name hpos hfits (hroom.imp_left fun hnil => ?_)
  rw [hnil]
  rfl

/-- Fields are left out where they do not fit. -/
theorem fits_of_sets (h : ∀ st ∈ stores, ∃ off bs, st = .set off bs) :
    ∀ st ∈ stores, st.Fits size := by
  intro st hst
  obtain ⟨off, bs, rfl⟩ := h st hst
  trivial

end

/-! ## What the encoders lay down -/

section
variable {size : Nat}

theorem encodeFileBasicInfo_lays (fs : FileBasicInfo) : Lays size (encodeFileBasicInfo fs) 40 := by
  apply Tiles.lays
  · show Tiles [(0, 8), (8, 16), (16, 24), (24, 32), (32, 36), (36, 40)] 40
    decide
  · decide
  · apply fits_of_sets
    simp

theorem encodeFileStandardInfo_lays (fs : FileStandardInfo) :
    Lays size (encodeFileStandardInfo fs) 24 := by
  apply Tiles.lays
  · show Tiles [(0, 8), (8, 16), (16, 20), (20, 21), (21, 22), (22, 24)] 24
    decide
  · decide
  · apply fits_of_sets
    simp

theorem encodeFilePositionInfo_lays (fs : FilePositionInfo) :
    Lays size (encodeFilePositionInfo fs) 8 := by
  apply Tiles.lays
  · show Tiles [(0, 8)] 8
    decide
  · decide
  · apply fits_of_sets
    simp

theorem allFields_tiles (fs : FileAllInfo) (n : Nat) :
    Tiles (extents (allFields fs ++ [.set 96 (le 4 n)])) 100 := by
  show Tiles [(0, 8), (8, 16), (16, 24), (24, 32), (32, 36), (36, 40), (40, 48), (48, 56), (56, 60),
    (60, 61), (61, 62), (62, 64), (64, 72), (72, 76), (76, 80), (80, 88), (88, 92), (92, 96),
    (96, 100)] 100
  decide +kernel

theorem allFields_fits (fs : FileAllInfo) (n : Nat) :
    ∀ st ∈ allFields fs ++ [.set 96 (le 4 n)], st.Fits size := by
  apply fits_of_sets
  simp [allFields, encodeFileBasicInfo, encodeFileStandardInfo, shift]

theorem encodeFileAllInfo_lays_fields {fs : FileAllInfo} (hsize : 64 ≤ size) (hname : fs.name = none) :
    Lays size (encodeFileAllInfo size fs) 100 := by
  unfold encodeFileAllInfo
  rw [if_neg (by omega), if_neg (by omega), hname]
  exact (allFields_tiles fs 0).lays (by decide) (allFields_fits fs 0)

theorem encodeFileAllInfo_lays {fs : FileAllInfo} {name : CString} {us : List Nat}
    (hsize : 64 ≤ size) (hname : fs.name = some name) (hus : utf8ToUtf16 name.octets = some us)
    (hroom : us = [] ∨ 100 + 2 * us.length ≤ size) :
    Lays size (encodeFileAllInfo size fs) (100 + 2 * us.length) := by
  unfold encodeFileAllInfo
  rw [if_neg (by omega), if_neg (by omega), hname]
  simp only [hus]
  exact (allFields_tiles fs _).lays_units (by decide) (allFields_fits fs _) hroom

theorem encodeFileNetworkOpenInfo_lays (fs : FileNetworkOpenInfo) (hsize : 56 ≤ size) :
    Lays size (encodeFileNetworkOpenInfo size fs) 56 := by
  rw [show encodeFileNetworkOpenInfo size fs = _ from if_neg (by omega)]
  apply Tiles.lays
  · show Tiles [(0, 8), (8, 16), (16, 24), (24, 32), (32, 40), (40, 48), (48, 52), (52, 56)] 56
    decide
  · decide
  · apply fits_of_sets
    simp

theorem encodeFsVolumeInfo_lays {fs : FsVolumeInfo} {us : List Nat}
    (hus : fsNameUnits fs.volumeLabel = .ok us) (hroom : us = [] ∨ 18 + 2 * us.length ≤ size) :
    ∃ e, encodeFsVolumeInfo fs = .ok e ∧ Lays size e (18 + 2 * us.length) := by
  refine ⟨⟨volumeFields fs (2 * us.length) ++ [.copy 18 (utf16Octets us)],
    some (18 + 2 * us.length)⟩, ?_, ?_⟩
  · unfold encodeFsVolumeInfo
    rw [hus]
    rfl
  · apply Tiles.lays_units
    · show Tiles [(0, 8), (8, 12), (16, 17), (17, 18), (12, 16)] 18
      decide
    · decide
    · apply fits_of_sets
      simp [volumeFields]
    · exact hroom

theorem encodeFsAttributeInfo_lays {fs : FsAttributeInfo} {us : List Nat} (hsize : 12 ≤ size)
    (hus : fsNameUnits fs.filesystemName = .ok us)
    (hroom : us = [] ∨ 12 + 2 * us.length ≤ size) :
    ∃ e, encodeFsAttributeInfo size fs = .ok e ∧ Lays size e (12 + 2 * us.length) := by
  refine ⟨⟨attributeFields fs (2 * us.length) ++ [.copy 12 (utf16Octets us)],
    some (12 + 2 * us.length)⟩, ?_, ?_⟩
  · unfold encodeFsAttributeInfo
    rw [if_neg (by omega), hus]
    rfl
  · apply Tiles.lays_units
    · show Tiles [(0, 4), (4, 8), (8, 12)] 12
      decide
    · decide
    · apply fits_of_sets
      simp [attributeFields]
    · exact hroom

theorem encodeFsSizeInfo_lays (fs : FsSizeInfo) (hsize : 24 ≤ size) :
    Lays size (encodeFsSizeInfo size fs) 24 := by
  rw [show encodeFsSizeInfo size fs = _ from if_neg (by omega)]
  apply Tiles.lays
  · show Tiles [(0, 8), (8, 16), (16, 20), (20, 24)] 24
    decide
  · decide
  · apply fits_of_sets
    simp

theorem encodeFsDeviceInfo_lays (fs : FsDeviceInfo) (hsize : 8 ≤ size) :
    Lays size (encodeFsDeviceInfo size fs) 8 := by
  rw [show encodeFsDeviceInfo size fs = _ from if_neg (by omega)]
  apply Tiles.lays
  · show Tiles [(0, 4), (4, 8)] 8
    decide
  · decide
  · apply fits_of_sets
    simp

theorem encodeFsControlInfo_lays (fs : FsControlInfo) (hsize : 48 ≤ size) :
    Lays size (encodeFsControlInfo size fs) 44 := by
  rw [show encodeFsControlInfo size fs = _ from if_neg (by omega)]
  apply Tiles.lays
  · show Tiles [(0, 8), (8, 16), (16, 24), (24, 32), (32, 40), (40, 44)] 44
    decide
  · decide
  · apply fits_of_sets
    simp

theorem encodeFsFullSizeInfo_lays (fs : FsFullSizeInfo) (hsize : 32 ≤ size) :
    Lays size (encodeFsFullSizeInfo size fs) 32 := by
  rw [show encodeFsFullSizeInfo size fs = _ from if_neg (by omega)]
  apply Tiles.lays
  · show Tiles [(0, 8), (8, 16), (16, 24), (24, 28), (28, 32)] 32
    decide
  · decide
  · apply fits_of_sets
    simp

theorem encodeFsSectorSizeInfo_lays (fs : FsSectorSizeInfo) (hsize : 28 ≤ size) :
    Lays size (encodeFsSectorSizeInfo size fs) 28 := by
  rw [show encodeFsSectorSizeInfo size fs = _ from if_neg (by omega)]
  apply Tiles.lays
  · show Tiles [(0, 4), (4, 8), (8, 12), (12, 16), (16, 20), (20, 24), (24, 28)] 28
    decide
  · decide
  · apply fits_of_sets
    simp

/-- Two arrays, which are copied. -/
theorem encodeFsObjectIdInfo_lays (fs : FsObjectIdInfo) (hsize : 64 ≤ size) :
    Lays size (encodeFsObjectIdInfo size fs) 64 := by
  have hid := fs.objectId.2
  have hext := fs.extendedInfo.2
  rw [show encodeFsObjectIdInfo size fs = _ from if_neg (by omega)]
  refine ⟨rfl, by decide, ?_, ?_, ?_⟩
  · intro st hst
    simp only [List.mem_cons, List.not_mem_nil, or_false] at hst
    rcases hst with rfl | rfl
    · exact .inr (by rw [hid]; omega)
    · exact .inr (by rw [hext]; omega)
  · intro st hst
    simp only [List.mem_cons, List.not_mem_nil, or_false] at hst
    rcases hst with rfl | rfl
    · simp only [Store.stop, Store.off, Store.bytes, hid]
      decide
    · simp only [Store.stop, Store.off, Store.bytes, hext]
      decide
  · intro i hi
    by_cases hlow : i < 16
    · refine ⟨_, List.mem_cons_self, ?_⟩
      simp only [Store.stop, Store.off, Store.bytes, hid]
      omega
    · refine ⟨_, List.mem_cons_of_mem _ List.mem_cons_self, ?_⟩
      simp only [Store.stop, Store.off, Store.bytes, hext]
      omega

theorem encodeFileNormalizedNameInfo_lays_nothing {fs : FileNameInfo}
    (hsize : (4 + fs.fileNameLength.toNat) % 2 ^ 32 ≤ size) (hname : fs.name = none) :
    Lays size (encodeFileNormalizedNameInfo size fs) 4 := by
  unfold encodeFileNormalizedNameInfo
  rw [if_neg (by omega), hname]
  apply Tiles.lays
  · show Tiles [(0, 4)] 4
    decide
  · decide
  · apply fits_of_sets
    simp

theorem mem_namePadding {nameLen n : Nat} {st : Store} : st ∈ namePadding nameLen n ↔
    nameLen < n ∧ st = .copy (4 + nameLen) (zeros (n - nameLen)) := by
  unfold namePadding
  split
  · rename_i hlt
    simp [hlt]
  · rename_i hlt
    simp [hlt]

/-- The name, its padding and, last, the length before them. -/
theorem encodeFileNormalizedNameInfo_lays {fs : FileNameInfo} {name : CString} {us : List Nat}
    (hname : fs.name = some name) (hus : utf8ToUtf16 name.octets = some us)
    (hroom : 4 + max fs.fileNameLength.toNat (2 * us.length) ≤ size) :
    Lays size (encodeFileNormalizedNameInfo size fs)
      (4 + max fs.fileNameLength.toNat (2 * us.length)) := by
  have hmod : (4 + fs.fileNameLength.toNat) % 2 ^ 32 ≤ 4 + fs.fileNameLength.toNat :=
    Nat.mod_le _ _
  have hlen : (utf16Octets us).length = 2 * us.length := length_utf16Octets us
  unfold encodeFileNormalizedNameInfo
  rw [if_neg (by omega), hname]
  simp only [hus]
  rw [if_neg (by omega)]
  generalize hn : max fs.fileNameLength.toNat (2 * us.length) = n at hroom ⊢
  have hle : 2 * us.length ≤ n := by omega
  have hmem : ∀ st, st ∈ Store.copy 4 (utf16Octets us) :: namePadding (2 * us.length) n ++
      [.set 0 (le 4 n)] ↔ st = .copy 4 (utf16Octets us) ∨ st = .set 0 (le 4 n) ∨
        2 * us.length < n ∧ st = .copy (4 + 2 * us.length) (zeros (n - 2 * us.length)) := by
    intro st
    simp only [List.cons_append, List.mem_cons, List.mem_append, mem_namePadding,
      List.not_mem_nil, or_false]
    tauto
  refine ⟨rfl, by omega, ?_, ?_, ?_⟩
  · intro st hst
    rcases (hmem st).mp hst with rfl | rfl | ⟨hlt, rfl⟩
    · exact .inr (by omega)
    · trivial
    · exact .inr (by rw [length_zeros]; omega)
  · intro st hst
    rcases (hmem st).mp hst with rfl | rfl | ⟨hlt, rfl⟩
    · simp only [Store.stop, Store.off, Store.bytes, hlen]
      omega
    · simp only [Store.stop, Store.off, Store.bytes, length_le]
      omega
    · simp only [Store.stop, Store.off, Store.bytes, length_zeros]
      omega
  · intro i hi
    by_cases hfield : i < 4
    · refine ⟨_, (hmem _).mpr (.inr (.inl rfl)), ?_⟩
      simp only [Store.stop, Store.off, Store.bytes, length_le]
      omega
    by_cases hunits : i < 4 + 2 * us.length
    · refine ⟨_, (hmem _).mpr (.inl rfl), ?_⟩
      simp only [Store.stop, Store.off, Store.bytes, hlen]
      omega
    · refine ⟨_, (hmem _).mpr (.inr (.inr ⟨by omega, rfl⟩)), ?_⟩
      simp only [Store.stop, Store.off, Store.bytes, length_zeros]
      omega

end

/-! ## Which information is encoded -/

/-- The code units of a name; none without one, or if it is not valid. -/
def unitsOf (name : Option CString) : List Nat :=
  (name.bind fun s => utf8ToUtf16 s.octets).getD []

/-- There is a name, and it is valid. -/
def HasUnits (name : Option CString) : Prop := (name.bind fun s => utf8ToUtf16 s.octets).isSome

/-- What an encoder returns that does not fail. -/
def Info.encodedSize : Info → Nat
  | .basic _ => 40
  | .standard _ => 24
  | .position _ => 8
  | .all fs => 100 + 2 * (unitsOf fs.name).length
  | .networkOpen _ => 56
  | .normalizedName fs =>
    if fs.name = none then 4 else 4 + max fs.fileNameLength.toNat (2 * (unitsOf fs.name).length)
  | .fsVolume fs => 18 + 2 * (unitsOf fs.volumeLabel).length
  | .fsSize _ => 24
  | .fsDevice _ => 8
  | .fsAttribute fs => 12 + 2 * (unitsOf fs.filesystemName).length
  | .fsControl _ => 44
  | .fsFullSize _ => 32
  | .fsObjectId _ => 64
  | .fsSectorSize _ => 28

/-- The encoder finds the room that it asks for, and the name, which must be valid, has the room
that is not asked for. -/
def Info.Admitted (size : Nat) : Info → Prop
  | .basic _ | .standard _ | .position _ => True
  | .all fs => 64 ≤ size ∧ (fs.name = none ∨ HasUnits fs.name) ∧
      (unitsOf fs.name = [] ∨ 100 + 2 * (unitsOf fs.name).length ≤ size)
  | .networkOpen _ => 56 ≤ size
  | .normalizedName fs =>
      (fs.name = none ∧ (4 + fs.fileNameLength.toNat) % 2 ^ 32 ≤ size) ∨
      HasUnits fs.name ∧
        4 + max fs.fileNameLength.toNat (2 * (unitsOf fs.name).length) ≤ size
  | .fsVolume fs => HasUnits fs.volumeLabel ∧
      (unitsOf fs.volumeLabel = [] ∨ 18 + 2 * (unitsOf fs.volumeLabel).length ≤ size)
  | .fsSize _ => 24 ≤ size
  | .fsDevice _ => 8 ≤ size
  | .fsAttribute fs => 12 ≤ size ∧ HasUnits fs.filesystemName ∧
      (unitsOf fs.filesystemName = [] ∨ 12 + 2 * (unitsOf fs.filesystemName).length ≤ size)
  | .fsControl _ => 48 ≤ size
  | .fsFullSize _ => 32 ≤ size
  | .fsObjectId _ => 64 ≤ size
  | .fsSectorSize _ => 28 ≤ size

section
variable {size : Nat} {name : Option CString}

theorem HasUnits.some_eq (h : HasUnits name) :
    ∃ s, name = some s ∧ utf8ToUtf16 s.octets = some (unitsOf name) := by
  obtain ⟨us, hus⟩ := Option.isSome_iff_exists.mp h
  obtain ⟨s, rfl, hs⟩ := Option.bind_eq_some_iff.mp hus
  refine ⟨s, rfl, ?_⟩
  unfold unitsOf
  rw [hus, hs]
  rfl

theorem hasUnits_of_some {s : CString} {us : List Nat} (hname : name = some s)
    (hus : utf8ToUtf16 s.octets = some us) : HasUnits name ∧ unitsOf name = us := by
  unfold HasUnits unitsOf
  rw [hname, Option.bind_some, hus]
  exact ⟨rfl, rfl⟩

theorem HasUnits.fsNameUnits (h : HasUnits name) : fsNameUnits name = .ok (unitsOf name) := by
  obtain ⟨s, rfl, hs⟩ := h.some_eq
  unfold QueryInfo.fsNameUnits
  rw [Option.bind_some, hs]

theorem fsNameUnits_of_not (h : ¬ HasUnits name) : QueryInfo.fsNameUnits name = .error .read := by
  unfold QueryInfo.fsNameUnits
  rw [Option.not_isSome_iff_eq_none.mp h]

/-- Information that is admitted is laid down. -/
theorem encodeInfo_lays {i : Info} (h : i.Admitted size) :
    ∃ e, encodeInfo size i = .ok e ∧ Lays size e i.encodedSize := by
  cases i with
  | basic fs => exact ⟨_, rfl, encodeFileBasicInfo_lays fs⟩
  | standard fs => exact ⟨_, rfl, encodeFileStandardInfo_lays fs⟩
  | position fs => exact ⟨_, rfl, encodeFilePositionInfo_lays fs⟩
  | all fs =>
    obtain ⟨hsize, hnone | hunits, hroom⟩ := h
    · refine ⟨_, rfl, ?_⟩
      have hzero : Info.encodedSize (.all fs) = 100 := by
        show 100 + 2 * (unitsOf fs.name).length = 100
        rw [hnone]
        rfl
      rw [hzero]
      exact encodeFileAllInfo_lays_fields hsize hnone
    · obtain ⟨s, hname, hs⟩ := hunits.some_eq
      exact ⟨_, rfl, encodeFileAllInfo_lays hsize hname hs hroom⟩
  | networkOpen fs => exact ⟨_, rfl, encodeFileNetworkOpenInfo_lays fs h⟩
  | normalizedName fs =>
    rcases h with ⟨hnone, hsize⟩ | ⟨hunits, hroom⟩
    · refine ⟨_, rfl, ?_⟩
      rw [show Info.encodedSize (.normalizedName fs) = 4 from if_pos hnone]
      exact encodeFileNormalizedNameInfo_lays_nothing hsize hnone
    · obtain ⟨s, hname, hs⟩ := hunits.some_eq
      refine ⟨_, rfl, ?_⟩
      have hsome : fs.name ≠ none := by
        rw [hname]
        exact Option.some_ne_none s
      rw [show Info.encodedSize (.normalizedName fs) = _ from if_neg hsome]
      exact encodeFileNormalizedNameInfo_lays hname hs hroom
  | fsVolume fs => exact encodeFsVolumeInfo_lays h.1.fsNameUnits h.2
  | fsSize fs => exact ⟨_, rfl, encodeFsSizeInfo_lays fs h⟩
  | fsDevice fs => exact ⟨_, rfl, encodeFsDeviceInfo_lays fs h⟩
  | fsAttribute fs => exact encodeFsAttributeInfo_lays h.1 h.2.1.fsNameUnits h.2.2
  | fsControl fs => exact ⟨_, rfl, encodeFsControlInfo_lays fs h⟩
  | fsFullSize fs => exact ⟨_, rfl, encodeFsFullSizeInfo_lays fs h⟩
  | fsObjectId fs => exact ⟨_, rfl, encodeFsObjectIdInfo_lays fs h⟩
  | fsSectorSize fs => exact ⟨_, rfl, encodeFsSectorSizeInfo_lays fs h⟩

/-- The encoder fails, or a copy of it leaves the block. -/
def Spoiled (size : Nat) (e : Encoding) : Prop := e.ret = none ∨ ¬ ∀ st ∈ e.stores, st.Fits size

theorem spoiled_of_short {e : Encoding} {bound : Nat} (h : ¬ bound ≤ size) :
    Spoiled size (if size < bound then ⟨[], none⟩ else e) := by
  rw [if_pos (by omega)]
  exact .inl rfl

theorem spoiled_of_copy {stores : List Store} {ret : Option Nat} {off : Nat} {bs : Bytes}
    (hmem : .copy off bs ∈ stores) (hbs : bs ≠ []) (hroom : size < off + bs.length) :
    Spoiled size ⟨stores, ret⟩ := by
  refine .inr fun h => ?_
  rcases h _ hmem with hnil | hin
  · exact hbs hnil
  · omega

theorem utf16Octets_ne_nil {us : List Nat} (h : us ≠ []) : utf16Octets us ≠ [] := by
  intro hnil
  have hlen := length_utf16Octets us
  rw [hnil, List.length_nil] at hlen
  exact h (List.length_eq_zero_iff.mp (by omega))

/-- A name that has no room behind its fields. -/
theorem spoiled_of_units {fields : List Store} {ret : Option Nat} {off : Nat} {us : List Nat}
    (h : ¬ (us = [] ∨ off + 2 * us.length ≤ size)) :
    Spoiled size ⟨fields ++ [.copy off (utf16Octets us)], ret⟩ := by
  obtain ⟨hne, hroom⟩ := not_or.mp h
  refine spoiled_of_copy (List.mem_append_right _ List.mem_cons_self) (utf16Octets_ne_nil hne) ?_
  rw [length_utf16Octets]
  omega

theorem encodeFileAllInfo_spoiled {fs : FileAllInfo} (h : ¬ (Info.all fs).Admitted size) :
    Spoiled size (encodeFileAllInfo size fs) := by
  unfold encodeFileAllInfo
  split
  · exact .inl rfl
  split
  · exact .inl rfl
  rename_i hsize
  cases hname : fs.name with
  | none =>
    refine absurd ⟨by omega, .inl hname, .inl ?_⟩ h
    rw [hname]
    rfl
  | some name =>
    simp only
    cases hus : utf8ToUtf16 name.octets with
    | none => exact .inl rfl
    | some us =>
      obtain ⟨hvalid, hunits⟩ := hasUnits_of_some hname hus
      exact spoiled_of_units fun hroom => h ⟨by omega, .inr hvalid, by rwa [hunits]⟩

theorem encodeFileNormalizedNameInfo_spoiled {fs : FileNameInfo}
    (h : ¬ (Info.normalizedName fs).Admitted size) :
    Spoiled size (encodeFileNormalizedNameInfo size fs) := by
  unfold encodeFileNormalizedNameInfo
  split
  · exact .inl rfl
  rename_i hsize
  cases hname : fs.name with
  | none => exact absurd (.inl ⟨hname, by omega⟩) h
  | some name =>
    simp only
    cases hus : utf8ToUtf16 name.octets with
    | none => exact .inl rfl
    | some us =>
      obtain ⟨hvalid, hunits⟩ := hasUnits_of_some hname hus
      have hroom : ¬ 4 + max fs.fileNameLength.toNat (2 * us.length) ≤ size :=
        fun hroom => h (.inr ⟨hvalid, by rwa [hunits]⟩)
      simp only
      split
      · exact .inl rfl
      -- the name has room, and what is said to be behind it has not
      have hpad : Store.copy (4 + 2 * us.length)
          (zeros (max fs.fileNameLength.toNat (2 * us.length) - 2 * us.length)) ∈
          namePadding (2 * us.length) (max fs.fileNameLength.toNat (2 * us.length)) :=
        mem_namePadding.mpr ⟨by omega, rfl⟩
      refine spoiled_of_copy (List.mem_append_left _ (List.mem_cons_of_mem _ hpad)) ?_ ?_
      · intro hnil
        have hlen := congrArg List.length hnil
        rw [length_zeros, List.length_nil] at hlen
        omega
      · rw [length_zeros]
        omega

theorem encodeInfo_spoiled {i : Info} (h : ¬ i.Admitted size) {e : Encoding}
    (he : encodeInfo size i = .ok e) : Spoiled size e := by
  cases i with
  | basic fs => exact absurd trivial h
  | standard fs => exact absurd trivial h
  | position fs => exact absurd trivial h
  | all fs =>
    cases he
    exact encodeFileAllInfo_spoiled h
  | networkOpen fs =>
    cases he
    exact spoiled_of_short h
  | normalizedName fs =>
    cases he
    exact encodeFileNormalizedNameInfo_spoiled h
  | fsVolume fs =>
    replace he : encodeFsVolumeInfo fs = .ok e := he
    unfold encodeFsVolumeInfo at he
    by_cases hunits : HasUnits fs.volumeLabel
    · rw [hunits.fsNameUnits] at he
      cases he
      exact spoiled_of_units fun hroom => h ⟨hunits, hroom⟩
    · rw [fsNameUnits_of_not hunits] at he
      cases he
  | fsSize fs =>
    cases he
    exact spoiled_of_short h
  | fsDevice fs =>
    cases he
    exact spoiled_of_short h
  | fsAttribute fs =>
    replace he : encodeFsAttributeInfo size fs = .ok e := he
    unfold encodeFsAttributeInfo at he
    split at he
    · cases he
      exact .inl rfl
    rename_i hsize
    by_cases hunits : HasUnits fs.filesystemName
    · rw [hunits.fsNameUnits] at he
      cases he
      exact spoiled_of_units fun hroom => h ⟨by omega, hunits, hroom⟩
    · rw [fsNameUnits_of_not hunits] at he
      cases he
  | fsControl fs =>
    cases he
    exact spoiled_of_short h
  | fsFullSize fs =>
    cases he
    exact spoiled_of_short h
  | fsObjectId fs =>
    cases he
    exact spoiled_of_short h
  | fsSectorSize fs =>
    cases he
    exact spoiled_of_short h

end

end Libsmb2.QueryInfo
