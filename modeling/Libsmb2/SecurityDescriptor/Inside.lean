import Libsmb2.SecurityDescriptor

/-!
# Where a security descriptor is read

An offset is compared after eight octets were added to it, in 32 bits, and the length of an ACL is
counted down by the eight of its header without a look whether it has them.  What is behind then
believes in more octets than an object can have, and only what it finds there stops it.

* `decodeAces_far_iff` — when such ACEs are read inside the buffer all the same;
* `security_descriptor_is_read_inside_iff` — when a security descriptor is.
-/

set_option autoImplicit false

namespace Libsmb2

open Util

/-- The octets of an object, which has less than 2^63 of them. -/
abbrev Object : Type := { bs : Bytes // bs.length < 2 ^ 63 }

/-! ## What is read where there is no end -/

/-- As much as is read of a SID is there. -/
def SidFits (bs : Bytes) : Prop := bs.length ≠ 0 ∧ (octetAt bs 0 = 1 → sidLength bs ≤ bs.length)

/-- As much as is read of what follows the header of an ACE is there.  The block for the rest of
the ACL is too large, but for the first ACE of an ACL that has `room` for no more than its header:
for that, its size wraps. -/
def AceDataFits (room : Nat) (data : Bytes) : AceKind → Prop
  | .simple => 4 ≤ data.length ∧ SidFits (data.drop 4)
  | .object => 40 ≤ data.length ∧ SidFits (data.drop 40)
  | .callback => 4 ≤ data.length ∧ SidFits (data.drop 4)
  | .raw => room < 4

/-- As much as is read of an ACE is there. -/
def AceFits (room : Nat) (bs : Bytes) : Prop :=
  4 ≤ bs.length ∧ (4 ≤ sizeAt bs → AceDataFits room (bs.drop 4) (aceKind (octetAt bs 0)))

/-- The loop goes on behind this ACE. -/
def AceContinues (bs : Bytes) : Prop :=
  4 ≤ sizeAt bs ∧ (aceKind (octetAt bs 0) = .simple ∨ aceKind (octetAt bs 0) = .object)

/-- As much as is read of so many ACEs is there. -/
def AcesFit : Nat → Nat → Bytes → Prop
  | 0, _, _ => True
  | n + 1, room, bs =>
    AceFits room bs ∧ (AceContinues bs → AcesFit n 0 (bs.drop (sizeAt bs)))

/-- The length has been counted down past zero, so that the window is larger than an object. -/
structure Far (room : Nat) (v : Window) : Prop where
  small : v.len < 2 ^ 64
  large : 2 ^ 62 ≤ v.len
  beyond : v.octets.length = 0 ∨ v.octets.length + 2 ^ 63 ≤ v.len
  room_iff : 4 ≤ room ↔ 2 ^ 64 ≤ v.len + 4

section
variable {v : Window} {room : Nat}

theorem decodeSid_far (hlen : 1032 ≤ v.len) :
    (¬ SidFits v.octets ∧ decodeSid v = .error .read) ∨
      (SidFits v.octets ∧ ∃ r, decodeSid v = .ok r ∧
        r.2.len ≤ v.len ∧ v.len ≤ r.2.len + v.octets.length) := by
  have hlt := sidLength_lt v.octets
  by_cases hempty : v.octets.length = 0
  · exact .inl ⟨fun h => h.1 hempty, decodeSid_overruns (by omega) (.inl hempty)⟩
  by_cases hrevision : octetAt v.octets 0 = 1
  swap
  · exact .inr ⟨⟨hempty, fun h => absurd h hrevision⟩, _,
      decodeSid_of_revision (by omega) (by omega) hrevision, Nat.le_refl _, Nat.le_add_right _ _⟩
  by_cases hin : sidLength v.octets ≤ v.octets.length
  · have hskip : (v.skip (sidLength v.octets)).len = v.len - sidLength v.octets :=
      sub64_of_le (by omega)
    exact .inr ⟨⟨hempty, fun _ => hin⟩, _, decodeSid_of_isSid ⟨hrevision, hin⟩ (by omega),
      by simp only; omega, by simp only; omega⟩
  · exact .inl ⟨fun h => hin (h.2 hrevision),
      decodeSid_overruns (by omega) (.inr ⟨hrevision, by omega, by omega⟩)⟩

theorem decodeMaskAndSid_far (hlen : 1036 ≤ v.len) :
    (¬ (4 ≤ v.octets.length ∧ SidFits (v.octets.drop 4)) ∧ decodeMaskAndSid v = .error .read) ∨
      ((4 ≤ v.octets.length ∧ SidFits (v.octets.drop 4)) ∧ ∃ r, decodeMaskAndSid v = .ok (some r) ∧
        r.2.2.len + 4 ≤ v.len ∧ v.len ≤ r.2.2.len + v.octets.length) := by
  unfold decodeMaskAndSid
  by_cases hfour : 4 ≤ v.octets.length
  swap
  · rw [Window.get_of_lt (by omega) (by decide) (by omega)]
    exact .inl ⟨fun h => hfour h.1, rfl⟩
  have hskip : (v.skip 4).len = v.len - 4 := sub64_of_le (by omega)
  have hoctets : (v.skip 4).octets = v.octets.drop 4 := rfl
  have hlength : (v.octets.drop 4).length = v.octets.length - 4 := List.length_drop
  rw [Window.get_of_le (by omega) (by omega)]
  simp only [bind, Except.bind]
  rw [if_neg (by omega), ← hoctets]
  rcases decodeSid_far (show 1032 ≤ (v.skip 4).len by omega) with ⟨hfits, hrun⟩ |
    ⟨hfits, r, hrun, hle, hge⟩
  · rw [hrun]
    exact .inl ⟨fun h => hfits h.2, rfl⟩
  · rw [hrun]
    refine .inr ⟨⟨hfour, hfits⟩, _, rfl, ?_, ?_⟩
    · simp only
      omega
    · rw [hoctets] at hge
      simp only
      omega

theorem decodeObject_far (hlen : 1072 ≤ v.len) (ace : Ace) :
    (¬ (40 ≤ v.octets.length ∧ SidFits (v.octets.drop 40)) ∧ decodeObject ace v = .error .read) ∨
      ((40 ≤ v.octets.length ∧ SidFits (v.octets.drop 40)) ∧
        ∃ ace', decodeObject ace v = .ok (some ace') ∧ ace'.aceSize = ace.aceSize) := by
  by_cases hforty : 40 ≤ v.octets.length
  swap
  · exact .inl ⟨fun h => hforty h.1, decodeObject_overruns (by omega) (by omega) ace⟩
  have hskip : (v.skip 40).len = v.len - 40 := sub64_of_le (by omega)
  rw [decodeObject_eq (by omega) hforty]
  rcases decodeSid_far (show 1032 ≤ (v.skip 40).len by omega) with ⟨hfits, hrun⟩ |
    ⟨hfits, r, hrun, -, -⟩
  · rw [hrun]
    exact .inl ⟨fun h => hfits h.2, rfl⟩
  · rw [hrun]
    exact .inr ⟨⟨hforty, hfits⟩, _, rfl, rfl⟩

/-- A block that is larger than an object is not allocated. -/
theorem decodeBlob_far (hlen : 2 ^ 63 ≤ v.len + 8) (hsmall : v.len + 8 < 2 ^ 64) :
    decodeBlob v = .ok none := by
  have hlarge : ¬ Allocates v.len := by
    unfold Allocates
    omega
  exact if_neg hlarge

/-- One whose size wraps is, and what is to be copied is not there. -/
theorem decodeBlob_wraps (hlen : 2 ^ 64 ≤ v.len + 8) (hsmall : v.len < 2 ^ 64)
    (h : v.octets.length < v.len) : decodeBlob v = .error .read := by
  have hwraps : Allocates v.len := by
    unfold Allocates
    omega
  unfold decodeBlob
  rw [if_pos hwraps, Window.read_of_lt (by omega) (by omega)]
  rfl

/-- What is read of an ACE behind its header. -/
theorem decodeAceData_far (hsmall : v.len + 4 < 2 ^ 64) (hbeyond : v.octets.length + 2 ^ 63 ≤ v.len)
    (hroom : 4 ≤ room ↔ 2 ^ 64 ≤ v.len + 8) (ace : Ace) :
    (¬ AceDataFits room v.octets (aceKind ace.aceType) ∧ decodeAceData ace v = .error .read) ∨
      (AceDataFits room v.octets (aceKind ace.aceType) ∧
        ((aceKind ace.aceType = .simple ∨ aceKind ace.aceType = .object) ∧
            (∃ ace', decodeAceData ace v = .ok (some ace') ∧ ace'.aceSize = ace.aceSize) ∨
          ¬ (aceKind ace.aceType = .simple ∨ aceKind ace.aceType = .object) ∧
            decodeAceData ace v = .ok none)) := by
  unfold decodeAceData
  cases aceKind ace.aceType with
  | simple =>
    unfold decodeSimple
    rcases decodeMaskAndSid_far (show 1036 ≤ v.len by omega) with ⟨hfits, hrun⟩ |
      ⟨hfits, r, hrun, -, -⟩
    · exact .inl ⟨hfits, by simp only; rw [hrun]; rfl⟩
    · refine .inr ⟨hfits, .inl ⟨.inl rfl, { ace with mask := r.1, sid := r.2.1 }, ?_, rfl⟩⟩
      simp only
      rw [hrun]
      rfl
  | object =>
    rcases decodeObject_far (show 1072 ≤ v.len by omega) ace with ⟨hfits, hrun⟩ |
      ⟨hfits, ace', hrun, hsize⟩
    · exact .inl ⟨hfits, hrun⟩
    · exact .inr ⟨hfits, .inl ⟨.inr rfl, ace', hrun, hsize⟩⟩
  | callback =>
    unfold decodeCallback
    rcases decodeMaskAndSid_far (show 1036 ≤ v.len by omega) with ⟨hfits, hrun⟩ |
      ⟨hfits, r, hrun, hle, hge⟩
    · exact .inl ⟨hfits, by simp only; rw [hrun]; rfl⟩
    · refine .inr ⟨hfits, .inr ⟨by simp, ?_⟩⟩
      simp only
      rw [hrun]
      simp only [bind, Except.bind]
      -- the SID has taken no more than was there, so that the block is still too large
      rw [decodeBlob_far (by omega) (by omega)]
      rfl
  | raw =>
    unfold decodeRaw
    by_cases hwraps : 4 ≤ room
    · refine .inl ⟨Nat.not_lt_of_le hwraps, ?_⟩
      simp only
      rw [decodeBlob_wraps (hroom.mp hwraps) (by omega) (by omega)]
      rfl
    · refine .inr ⟨Nat.lt_of_not_le hwraps, .inr ⟨by simp, ?_⟩⟩
      simp only
      rw [decodeBlob_far (by omega) (by omega)]
      rfl

/-- An ACE of a window that is larger than an object. -/
theorem decodeAce_far (hv : Far room v) :
    (¬ AceFits room v.octets ∧ decodeAce v = .error .read) ∨
      (AceFits room v.octets ∧
        (AceContinues v.octets ∧
            (∃ ace, decodeAce v = .ok (some ace) ∧ ace.aceSize = sizeAt v.octets) ∨
          ¬ AceContinues v.octets ∧ decodeAce v = .ok none)) := by
  have hlarge := hv.large
  have hsmall := hv.small
  by_cases hfour : v.octets.length < 4
  · exact .inl ⟨fun h => by have := h.1; omega, decodeAce_overruns (by omega) hfour⟩
  have hlt : sizeAt v.octets < 256 ^ 2 := fromLe_slice_lt v.octets 2 2
  rw [decodeAce_eq (by omega) (by omega)]
  by_cases hheader : sizeAt v.octets < 4
  · rw [if_pos hheader]
    exact .inr ⟨⟨by omega, fun h => by omega⟩, .inr ⟨fun h => by have := h.1; omega, rfl⟩⟩
  rw [if_neg hheader, if_neg (by omega)]
  have hlen : (v.skip 4).len = v.len - 4 := sub64_of_le (by omega)
  have hoctets : (v.skip 4).octets.length = v.octets.length - 4 := List.length_drop
  have hbeyond := hv.beyond
  have hroom := hv.room_iff
  have hfits : AceFits room v.octets ↔
      AceDataFits room (v.octets.drop 4) (aceKind (octetAt v.octets 0)) :=
    ⟨fun h => h.2 (by omega), fun h => ⟨by omega, fun _ => h⟩⟩
  have hcontinues : AceContinues v.octets ↔ aceKind (octetAt v.octets 0) = .simple ∨
      aceKind (octetAt v.octets 0) = .object := ⟨fun h => h.2, fun h => ⟨by omega, h⟩⟩
  rw [hfits, hcontinues]
  exact decodeAceData_far (v := v.skip 4) (by omega) (by omega)
    (show 4 ≤ room ↔ 2 ^ 64 ≤ (v.skip 4).len + 8 by omega) (aceHeader v.octets)

theorem Far.next {s : Nat} (hv : Far room v) (hin : 4 ≤ v.octets.length) (hs : 4 ≤ s)
    (hlt : s < 65536) : Far 0 (v.skip s) := by
  have hlarge := hv.large
  have hsmall := hv.small
  have hlen : (v.skip s).len = v.len - s := sub64_of_le (by omega)
  have hoctets : (v.skip s).octets.length = v.octets.length - s := List.length_drop
  have hbeyond := hv.beyond
  constructor <;> omega

/-- **ACEs behind the header of an ACL that has no room for it are read inside the buffer exactly if
what is read of them is there.** -/
theorem decodeAces_far_iff (hv : Far room v) (n : Nat) :
    Inside (decodeAces n v) ↔ AcesFit n room v.octets := by
  induction n generalizing v room with
  | zero => exact iff_of_true (.ok _) trivial
  | succ n ih =>
    rw [decodeAces, AcesFit]
    rcases decodeAce_far hv with ⟨hfits, hrun⟩ | ⟨hfits, ⟨hcontinues, ace, hrun, hsize⟩ |
      ⟨hends, hrun⟩⟩
    · rw [hrun]
      exact iff_of_false (not_inside_error _) fun h => hfits h.1
    · have hlarge := hv.large
      have hlt : sizeAt v.octets < 256 ^ 2 := fromLe_slice_lt v.octets 2 2
      have hnext : Far 0 (v.skip ace.aceSize) :=
        hv.next hfits.1 (by rw [hsize]; exact hcontinues.1) (by omega)
      have hrest := ih hnext
      rw [Window.skip_octets, hsize] at hrest
      rw [hrun]
      simp only [bind, Except.bind]
      rw [if_neg (by omega), hsize]
      constructor
      · intro h
        refine ⟨hfits, fun _ => hrest.mp ?_⟩
        exact Inside.of_map h
      · exact fun h => (hrest.mpr (h.2 hcontinues)).map
    · rw [hrun]
      exact iff_of_true (.ok _) ⟨hfits, fun h => absurd h hends⟩

end

/-! ## ACLs -/

/-- As much as is read of an ACL is there: if it is too short for its own header, as much as is read
of its ACEs. -/
def AclFits (bs : Bytes) : Prop :=
  8 ≤ bs.length → (octetAt bs 0 = ACL_REVISION ∨ octetAt bs 0 = ACL_REVISION_DS) →
    sizeAt bs ≤ bs.length → sizeAt bs < 8 →
      AcesFit (fromLe (slice bs 4 2)) (sizeAt bs) (bs.drop 8)

section
variable {v : Window}

theorem decodeAcl_overruns (hlen : 8 ≤ v.len) (h : v.octets.length = 0) :
    decodeAcl v = .error .read := by
  unfold decodeAcl
  rw [if_neg (by omega), Window.get_of_lt (by omega) (by decide) (by omega)]
  rfl

/-- The window behind the header of an ACL that has no room for it. -/
theorem far_of_short {bs : Bytes} {aclSize : Nat} (hbs : bs.length < 2 ^ 63) (h : aclSize < 8) :
    Far aclSize ((⟨bs, aclSize⟩ : Window).skip 8) := by
  have hlen : ((⟨bs, aclSize⟩ : Window).skip 8).len = aclSize + 2 ^ 64 - 8 := sub64_of_lt h
  have hoctets : ((⟨bs, aclSize⟩ : Window).skip 8).octets.length = bs.length - 8 :=
    List.length_drop
  constructor <;> omega

theorem decodeAcl_inside_iff (hlen : v.len = v.octets.length) (hsmall : v.len < 2 ^ 63) :
    Inside (decodeAcl v) ↔ AclFits v.octets := by
  unfold decodeAcl AclFits
  by_cases hshort : v.len < 8
  · rw [if_pos hshort]
    exact iff_of_true (.ok _) fun h => by omega
  have hrevision : fromLe (slice v.octets 0 1) = octetAt v.octets 0 := rfl
  have hsize : fromLe (slice v.octets 2 2) = sizeAt v.octets := rfl
  rw [if_neg hshort, Window.get_of_le (by omega) (by omega), Window.get_of_le (by omega) (by omega),
    Window.get_of_le (by omega) (by omega), hrevision, hsize]
  simp only [bind, Except.bind]
  split
  · rename_i hother
    exact iff_of_true (.ok _) fun _ h => absurd h (by tauto)
  split
  · rename_i hlong
    exact iff_of_true (.ok _) fun _ _ h => by omega
  rename_i hsame hfits
  have hmin : min v.len (sizeAt v.octets) = sizeAt v.octets := by omega
  rw [hmin]
  by_cases height : sizeAt v.octets < 8
  · have hfar := decodeAces_far_iff (far_of_short (show v.octets.length < 2 ^ 63 by omega) height)
      (fromLe (slice v.octets 4 2))
    constructor
    · exact fun h _ _ _ _ => hfar.mp (Inside.of_map h)
    · exact fun h => (hfar.mpr (h (by omega) (by tauto) (by omega) height)).map
  · refine iff_of_true ?_ fun _ _ _ h => absurd h height
    apply Inside.map
    apply decodeAces_inside
    apply Window.Sound.skip
    · exact show sizeAt v.octets ≤ v.octets.length by omega
    · exact show 8 ≤ sizeAt v.octets by omega

end

/-! ## Security descriptors -/

section
variable {bs : Bytes} {offset : Nat}

/-- There is an owner, or a group, at this offset. -/
def Taken (bs : Bytes) (offset : Nat) : Prop :=
  0 < offset ∧ (offset + 2 + SID_ID_AUTH_LEN) % 2 ^ 32 < bs.length

/-- It begins in the buffer. -/
def OwnerFits (bs : Bytes) (offset : Nat) : Prop := Taken bs offset → offset ≤ bs.length

/-- If there is one, all of it is there. -/
def OwnerGoesOn (bs : Bytes) (offset : Nat) : Prop := Taken bs offset → IsSid (bs.drop offset)

/-- If there is a DACL at this offset, it begins in the buffer, and as much as is read of it is
there. -/
def DaclFits (bs : Bytes) (offset : Nat) : Prop :=
  0 < offset ∧ (offset + 8) % 2 ^ 32 ≤ bs.length → offset ≤ bs.length ∧ AclFits (bs.drop offset)

/-- The three offsets of a security descriptor fit, as far as they are looked at. -/
def DescriptorFits (bs : Bytes) : Prop :=
  20 ≤ bs.length → octetAt bs 0 = 1 → OwnerFits bs (fromLe (slice bs 4 4)) ∧
    (OwnerGoesOn bs (fromLe (slice bs 4 4)) → OwnerFits bs (fromLe (slice bs 8 4)) ∧
      (OwnerGoesOn bs (fromLe (slice bs 8 4)) → DaclFits bs (fromLe (slice bs 16 4))))

theorem windowAt_of_le (h : offset ≤ bs.length) :
    (windowAt bs offset).len = (windowAt bs offset).octets.length := by
  have hlen : (windowAt bs offset).len = bs.length - offset := sub64_of_le h
  rw [hlen]
  exact List.length_drop.symm

theorem windowAt_of_lt (h : bs.length < offset) (hoffset : offset < 2 ^ 32) :
    8 ≤ (windowAt bs offset).len ∧ (windowAt bs offset).octets.length = 0 := by
  have hlen : (windowAt bs offset).len = bs.length + 2 ^ 64 - offset := sub64_of_lt h
  have hoctets : (windowAt bs offset).octets.length = bs.length - offset := List.length_drop
  omega

theorem ownerAt_of_taken (h : Taken bs offset) :
    ownerAt bs offset = (decodeSid (windowAt bs offset)).map fun r => r.1.map some := if_pos h

theorem ownerAt_of_not_taken (h : ¬ Taken bs offset) : ownerAt bs offset = .ok (some none) :=
  if_neg h

/-- The owner is read inside the buffer, and the group is looked for behind it if it is one. -/
theorem ownerAt_cases (hoffset : offset < 2 ^ 32) :
    (¬ OwnerFits bs offset ∧ ownerAt bs offset = .error .read) ∨
      (OwnerFits bs offset ∧
        (OwnerGoesOn bs offset ∧ (∃ owner, ownerAt bs offset = .ok (some owner)) ∨
          ¬ OwnerGoesOn bs offset ∧ ownerAt bs offset = .ok none)) := by
  by_cases htaken : Taken bs offset
  swap
  · rw [ownerAt_of_not_taken htaken]
    exact .inr ⟨fun h => absurd h htaken, .inl ⟨fun h => absurd h htaken, none, rfl⟩⟩
  rw [ownerAt_of_taken htaken]
  by_cases hle : offset ≤ bs.length
  swap
  · obtain ⟨hlen, hempty⟩ := windowAt_of_lt (Nat.lt_of_not_le hle) hoffset
    rw [decodeSid_overruns hlen (.inl hempty)]
    exact .inl ⟨fun h => hle (h htaken), rfl⟩
  have hlen := windowAt_of_le hle
  have hoctets : (windowAt bs offset).octets = bs.drop offset := rfl
  refine .inr ⟨fun _ => hle, ?_⟩
  by_cases hsid : IsSid (bs.drop offset)
  · refine .inl ⟨fun _ => hsid, ?_⟩
    rw [decodeSid_of_isSid hsid (by rw [hlen]; exact hsid.length)]
    exact ⟨_, rfl⟩
  · refine .inr ⟨fun h => hsid (h htaken), ?_⟩
    rcases decodeSid_cases (windowAt bs offset) with ⟨his, -⟩ | hrun | ⟨height, hover, -⟩
    · exact absurd his hsid
    · rw [hrun]
      rfl
    · omega

theorem daclAt_inside_iff (hoffset : offset < 2 ^ 32) (hbs : bs.length < 2 ^ 63) :
    Inside (daclAt bs offset) ↔ DaclFits bs offset := by
  unfold daclAt DaclFits
  by_cases htaken : 0 < offset ∧ (offset + 8) % 2 ^ 32 ≤ bs.length
  swap
  · rw [if_neg htaken]
    exact iff_of_true (.ok _) fun h => absurd h htaken
  rw [if_pos htaken]
  by_cases hle : offset ≤ bs.length
  swap
  · obtain ⟨hlen, hempty⟩ := windowAt_of_lt (Nat.lt_of_not_le hle) hoffset
    rw [decodeAcl_overruns hlen hempty]
    exact iff_of_false (not_inside_error _) fun h => hle (h htaken).1
  have hlen := windowAt_of_le hle
  have hsmall : (windowAt bs offset).len < 2 ^ 63 := by
    have hlen : (windowAt bs offset).len = bs.length - offset := sub64_of_le hle
    omega
  have hacl : Inside (decodeAcl (windowAt bs offset)) ↔ AclFits (bs.drop offset) :=
    decodeAcl_inside_iff hlen hsmall
  constructor
  · exact fun h _ => ⟨hle, hacl.mp (Inside.of_map h)⟩
  · exact fun h => (hacl.mpr (h htaken).2).map

/-- **A security descriptor is read inside its buffer exactly if the offsets that are looked at
fit.** -/
theorem security_descriptor_is_read_inside_iff (bs : Object) :
    Inside (decodeSecurityDescriptor bs.1) ↔ DescriptorFits bs.1 := by
  obtain ⟨bs, hbs⟩ := bs
  simp only
  unfold decodeSecurityDescriptor DescriptorFits
  by_cases hshort : bs.length < 20
  · rw [if_pos hshort]
    exact iff_of_true (.ok _) fun h => by omega
  have hget : ∀ n off, off + n ≤ 20 →
      (⟨bs, 20⟩ : Window).get n off 0 = .ok (fromLe (slice bs off n)) := fun n off h =>
    Window.get_of_le h (show off + n ≤ bs.length by omega) 0
  have hrevision : fromLe (slice bs 0 1) = octetAt bs 0 := rfl
  rw [if_neg hshort]
  simp only
  rw [hget 1 0 (by decide), hget 2 2 (by decide), hget 4 4 (by decide), hget 4 8 (by decide),
    hget 4 16 (by decide), hrevision]
  simp only [bind, Except.bind]
  split
  · rename_i hother
    exact iff_of_true (.ok _) fun _ h => absurd h hother
  rename_i hone
  have hlt : ∀ off, fromLe (slice bs off 4) < 2 ^ 32 := fun off => fromLe_slice_lt bs off 4
  have hlong : 20 ≤ bs.length := by omega
  have hfits : ∀ P : Prop, (20 ≤ bs.length → octetAt bs 0 = 1 → P) ↔ P := fun P =>
    ⟨fun h => h hlong (not_not.mp hone), fun h _ _ => h⟩
  rw [hfits]
  rcases ownerAt_cases (hlt 4) with ⟨howner, hrun⟩ | ⟨howner, ⟨hgoes, owner, hrun⟩ | ⟨hends, hrun⟩⟩
  · rw [hrun]
    exact iff_of_false (not_inside_error _) fun h => howner h.1
  swap
  · rw [hrun]
    exact iff_of_true (.ok _) ⟨howner, fun h => absurd h hends⟩
  rw [hrun]
  simp only
  rcases ownerAt_cases (hlt 8) with ⟨hgroup, hrun⟩ | ⟨hgroup, ⟨hgoes', group, hrun⟩ | ⟨hends, hrun⟩⟩
  · rw [hrun]
    exact iff_of_false (not_inside_error _) fun h => hgroup (h.2 hgoes).1
  swap
  · rw [hrun]
    exact iff_of_true (.ok _) ⟨howner, fun _ => ⟨hgroup, fun h => absurd h hends⟩⟩
  rw [hrun]
  simp only
  have hdacl := daclAt_inside_iff (hlt 16) hbs
  constructor
  · exact fun h => ⟨howner, fun _ => ⟨hgroup, fun _ => hdacl.mp (Inside.of_map h)⟩⟩
  · exact fun h => (hdacl.mpr ((h.2 hgoes).2 hgoes')).map

/-- A security descriptor with an owner eight octets before 2^32. -/
def distantOwner : Object :=
  ⟨[1, 0, 0, 0] ++ le 4 (2 ^ 32 - 8) ++ zeros 12, by decide⟩

/-- A security descriptor with a DACL of four octets, and an ACE behind it. -/
def shortDacl : Object :=
  ⟨[1, 0, 0, 0] ++ zeros 12 ++ le 4 20 ++ [2, 0] ++ le 2 4 ++ le 2 1 ++ zeros 2, by decide⟩

/-- The owner is read four gigabytes behind the buffer; and the ACE behind its end. -/
theorem distant_owner_and_short_dacl_are_read_outside :
    ¬ Inside (decodeSecurityDescriptor distantOwner.1) ∧
      ¬ Inside (decodeSecurityDescriptor shortDacl.1) := by
  constructor
  · have hrun : decodeSecurityDescriptor distantOwner.1 = .error .read := by decide +kernel
    rw [hrun]
    exact not_inside_error _
  · have hrun : decodeSecurityDescriptor shortDacl.1 = .error .read := by decide +kernel
    rw [hrun]
    exact not_inside_error _

end

end Libsmb2
