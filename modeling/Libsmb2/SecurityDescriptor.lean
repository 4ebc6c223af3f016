import Libsmb2.Util.Window

/-!
# Security descriptors

`smb2_decode_security_descriptor` and the decoders of SIDs, ACEs and ACLs behind it.  Each works on
a window of its own: the descriptor hands on what is left of the buffer behind an offset, an ACL
what is left of it behind its header, and an ACE what is left of the ACL behind it.

* `decodeSid_of_isSid` — what is made of a SID that is there;
* `decodeSid_sound` — a SID is read inside a window that is not longer than what is there.
-/

set_option autoImplicit false

namespace Libsmb2

open Util

def SID_ID_AUTH_LEN : Nat := 6
def OBJECT_TYPE_SIZE : Nat := 16
def ACL_REVISION : Nat := 2
def ACL_REVISION_DS : Nat := 4

/-- `smb2_alloc_data` adds its header to the size, in a `size_t`.  No object is larger than 2^63
octets, and no smaller one fails to be allocated. -/
def Allocates (size : Nat) : Prop := (size + 8) % 2 ^ 64 < 2 ^ 63

instance (size : Nat) : Decidable (Allocates size) := inferInstanceAs (Decidable (_ < _))

/-- `struct smb2_sid`. -/
structure Sid where
  revision : Nat
  subAuthCount : Nat
  idAuth : Bytes
  subAuth : List Nat
  deriving DecidableEq, Repr

/-- `struct smb2_ace`; the lengths of the two blobs are theirs. -/
structure Ace where
  aceType : Nat
  aceFlags : Nat
  aceSize : Nat
  mask : Nat := 0
  flags : Nat := 0
  sid : Option Sid := none
  objectType : Bytes := zeros OBJECT_TYPE_SIZE
  inheritedObjectType : Bytes := zeros OBJECT_TYPE_SIZE
  adData : Bytes := []
  rawData : Bytes := []
  deriving DecidableEq, Repr

/-- `struct smb2_acl`. -/
structure Acl where
  revision : Nat
  aceCount : Nat
  aces : List Ace
  deriving DecidableEq, Repr

/-- `struct smb2_security_descriptor`. -/
structure SecurityDescriptor where
  revision : Nat
  control : Nat
  owner : Option Sid
  group : Option Sid
  dacl : Option Acl
  deriving DecidableEq, Repr

/-! ## SIDs -/

/-- The loop of `decode_sid`. -/
def decodeSubAuths (v : Window) : Nat → Nat → Except Overrun (List Nat)
  | 0, _ => .ok []
  | n + 1, off => do
    let subAuth ← v.get 4 off 0
    (decodeSubAuths v n (off + 4)).map (subAuth :: ·)

/-- `decode_sid`, and the window behind it; `none` is NULL. -/
def decodeSid (v : Window) : Except Overrun (Option Sid × Window) :=
  if v.len < 8 then .ok (none, v)
  else do
    let revision ← v.get 1 0 0
    if revision ≠ 1 then .ok (none, v)
    else do
      let subAuthCount ← v.get 1 1 0
      if v.len < 8 + subAuthCount * 4 then .ok (none, v)
      else do
        let idAuth ← v.read 2 SID_ID_AUTH_LEN
        let subAuth ← decodeSubAuths v subAuthCount 8
        .ok (some ⟨revision, subAuthCount, idAuth, subAuth⟩, v.skip (8 + subAuthCount * 4))

/-! ## ACEs -/

/-- The layouts of `decode_ace`. -/
inductive AceKind
  | simple
  | object
  | callback
  | raw
  deriving DecidableEq, Repr

def aceKind (aceType : Nat) : AceKind :=
  if aceType ∈ [0x00, 0x01, 0x02, 0x11, 0x13] then .simple
  else if aceType ∈ [0x05, 0x06, 0x07] then .object
  else if aceType ∈ [0x09, 0x10, 0x12] then .callback
  else .raw

/-- The mask and the SID of an ACE, and the window behind them. -/
def decodeMaskAndSid (v : Window) : Except Overrun (Option (Nat × Option Sid × Window)) := do
  let mask ← v.get 4 0 0
  if v.len < 4 then .ok none
  else (decodeSid (v.skip 4)).map fun r => some (mask, r)

/-- The first of the four cases. -/
def decodeSimple (ace : Ace) (v : Window) : Except Overrun (Option Ace) :=
  (decodeMaskAndSid v).map (Option.map fun r => { ace with mask := r.1, sid := r.2.1 })

/-- The second. -/
def decodeObject (ace : Ace) (v : Window) : Except Overrun (Option Ace) :=
  if v.len < 40 then .ok none
  else do
    let mask ← v.get 4 0 0
    let v := v.skip 4
    let flags ← v.get 4 0 0
    let v := v.skip 4
    let objectType ← v.read 0 OBJECT_TYPE_SIZE
    let v := v.skip OBJECT_TYPE_SIZE
    let inheritedObjectType ← v.read 0 OBJECT_TYPE_SIZE
    let v := v.skip OBJECT_TYPE_SIZE
    (decodeSid v).map fun r => some { ace with
      mask, flags, objectType, inheritedObjectType, sid := r.1 }

/-- All that is left of the window, in a block of its own. -/
def decodeBlob (v : Window) : Except Overrun (Option Bytes) :=
  if Allocates v.len then (v.read 0 v.len).map some else .ok none

/-- The third. -/
def decodeCallback (ace : Ace) (v : Window) : Except Overrun (Option Ace) :=
  decodeMaskAndSid v >>= fun
    | none => .ok none
    | some r => (decodeBlob r.2.2).map (Option.map fun adData =>
      { ace with mask := r.1, sid := r.2.1, adData })

/-- The default. -/
def decodeRaw (ace : Ace) (v : Window) : Except Overrun (Option Ace) :=
  (decodeBlob v).map (Option.map fun rawData => { ace with rawData })

/-- What follows the header. -/
def decodeAceData (ace : Ace) (v : Window) : Except Overrun (Option Ace) :=
  match aceKind ace.aceType with
  | .simple => decodeSimple ace v
  | .object => decodeObject ace v
  | .callback => decodeCallback ace v
  | .raw => decodeRaw ace v

/-- `decode_ace`; `none` is NULL. -/
def decodeAce (v : Window) : Except Overrun (Option Ace) :=
  if v.len < 4 then .ok none
  else do
    let aceType ← v.get 1 0 0
    let aceFlags ← v.get 1 1 0
    let aceSize ← v.get 2 2 0
    if aceSize < 4 then .ok none
    else if v.len < aceSize then .ok none
    else decodeAceData { aceType, aceFlags, aceSize } (v.skip 4)

/-! ## ACLs -/

/-- The loop of `decode_acl`. -/
def decodeAces : Nat → Window → Except Overrun (Option (List Ace))
  | 0, _ => .ok (some [])
  | n + 1, v => decodeAce v >>= fun
    | none => .ok none
    | some ace =>
      if v.len < ace.aceSize then .ok none
      else (decodeAces n (v.skip ace.aceSize)).map (Option.map (ace :: ·))

/-- `decode_acl`; `none` is NULL. -/
def decodeAcl (v : Window) : Except Overrun (Option Acl) :=
  if v.len < 8 then .ok none
  else do
    let revision ← v.get 1 0 0
    let aclSize ← v.get 2 2 0
    let aceCount ← v.get 2 4 0
    if revision ≠ ACL_REVISION ∧ revision ≠ ACL_REVISION_DS then .ok none
    else if min v.len aclSize < aclSize then .ok none
    else
      (decodeAces aceCount ((⟨v.octets, min v.len aclSize⟩ : Window).skip 8)).map
        (Option.map fun aces => ⟨revision, aceCount, aces⟩)

/-! ## Security descriptors -/

/-- What is left of a buffer behind an offset. -/
def windowAt (bs : Bytes) (offset : Nat) : Window := (Window.whole bs).skip offset

/-- The owner, or the group; `none` is -1. -/
def ownerAt (bs : Bytes) (offset : Nat) : Except Overrun (Option (Option Sid)) :=
  if 0 < offset ∧ (offset + 2 + SID_ID_AUTH_LEN) % 2 ^ 32 < bs.length then
    (decodeSid (windowAt bs offset)).map fun r => r.1.map some
  else .ok (some none)

/-- The DACL; `none` is -1. -/
def daclAt (bs : Bytes) (offset : Nat) : Except Overrun (Option (Option Acl)) :=
  if 0 < offset ∧ (offset + 8) % 2 ^ 32 ≤ bs.length then
    (decodeAcl (windowAt bs offset)).map (Option.map some)
  else .ok (some none)

/-- `smb2_decode_security_descriptor`; `none` is -1. -/
def decodeSecurityDescriptor (bs : Bytes) : Except Overrun (Option SecurityDescriptor) :=
  if bs.length < 20 then .ok none
  else do
    let v : Window := ⟨bs, 20⟩
    let revision ← v.get 1 0 0
    if revision ≠ 1 then .ok none
    else do
      let control ← v.get 2 2 0
      let offsetOwner ← v.get 4 4 0
      let offsetGroup ← v.get 4 8 0
      let offsetDacl ← v.get 4 16 0
      ownerAt bs offsetOwner >>= fun
        | none => .ok none
        | some owner => ownerAt bs offsetGroup >>= fun
          | none => .ok none
          | some group => (daclAt bs offsetDacl).map (Option.map fun dacl =>
            { revision, control, owner, group, dacl })

section
variable {v : Window} {bs : Bytes}

/-! ## What is made of a SID -/

/-- A field of one octet. -/
def octetAt (bs : Bytes) (off : Nat) : Nat := fromLe (slice bs off 1)

theorem octetAt_lt (bs : Bytes) (off : Nat) : octetAt bs off < 256 := fromLe_slice_lt bs off 1

/-- The length that an ACE, or an ACL, has in its header. -/
def sizeAt (bs : Bytes) : Nat := fromLe (slice bs 2 2)

/-- The length of a SID. -/
def sidLength (bs : Bytes) : Nat := 8 + octetAt bs 1 * 4

/-- A SID begins here, and all of it is there. -/
structure IsSid (bs : Bytes) : Prop where
  revision : octetAt bs 0 = 1
  length : sidLength bs ≤ bs.length

instance (bs : Bytes) : Decidable (IsSid bs) :=
  decidable_of_iff (octetAt bs 0 = 1 ∧ sidLength bs ≤ bs.length)
    ⟨fun h => ⟨h.1, h.2⟩, fun h => ⟨h.1, h.2⟩⟩

/-- The SID that begins here. -/
def sidOf (bs : Bytes) : Sid where
  revision := octetAt bs 0
  subAuthCount := octetAt bs 1
  idAuth := slice bs 2 SID_ID_AUTH_LEN
  subAuth := (List.range (octetAt bs 1)).map fun i => fromLe (slice bs (8 + i * 4) 4)

theorem sidLength_lt (bs : Bytes) : sidLength bs < 1032 := by
  have hlt := octetAt_lt bs 1
  unfold sidLength
  omega

theorem decodeSubAuths_eq {n off : Nat} (hlen : off + n * 4 ≤ v.len)
    (h : off + n * 4 ≤ v.octets.length) : decodeSubAuths v n off =
      .ok ((List.range n).map fun i => fromLe (slice v.octets (off + i * 4) 4)) := by
  induction n generalizing off with
  | zero => rfl
  | succ n ih =>
    rw [decodeSubAuths, Window.get_of_le (by omega) (by omega), ih (by omega) (by omega),
      List.range_succ_eq_map, List.map_cons, List.map_map]
    simp only [bind, Except.bind, Except.map, Nat.zero_mul, Nat.add_zero]
    congr 3
    funext i
    simp only [Function.comp_apply]
    congr 2
    omega

/-- What is made of a SID that is there. -/
theorem decodeSid_of_isSid (h : IsSid v.octets) (hlen : sidLength v.octets ≤ v.len) :
    decodeSid v = .ok (some (sidOf v.octets), v.skip (sidLength v.octets)) := by
  have hin := h.length
  have hrevision : fromLe (slice v.octets 0 1) = 1 := h.revision
  have hcount : fromLe (slice v.octets 1 1) = octetAt v.octets 1 := rfl
  unfold sidLength at hin hlen
  unfold decodeSid
  rw [if_neg (by omega), Window.get_of_le (by omega) (by omega), hrevision]
  simp only [bind, Except.bind]
  rw [if_neg (by decide), Window.get_of_le (by omega) (by omega), hcount]
  simp only
  rw [if_neg (by omega), Window.read_of_le (by unfold SID_ID_AUTH_LEN; omega)]
  simp only
  rw [decodeSubAuths_eq hlen hin]
  simp only
  rw [sidOf, h.revision]
  rfl

theorem decodeSubAuths_overruns {n off : Nat} (hlen : off + n * 4 ≤ v.len)
    (hoff : off ≤ v.octets.length) (h : v.octets.length < off + n * 4) :
    decodeSubAuths v n off = .error .read := by
  induction n generalizing off with
  | zero => omega
  | succ n ih =>
    rw [decodeSubAuths]
    by_cases hin : off + 4 ≤ v.octets.length
    · rw [Window.get_of_le (by omega) hin, ih (by omega) hin (by omega)]
      rfl
    · rw [Window.get_of_lt (by omega) (by decide) (by omega)]
      rfl

theorem decodeSid_of_short (h : v.len < 8) : decodeSid v = .ok (none, v) := if_pos h

/-- Nothing more is read of a SID of another revision. -/
theorem decodeSid_of_revision (hlen : 8 ≤ v.len) (hin : 1 ≤ v.octets.length)
    (h : octetAt v.octets 0 ≠ 1) : decodeSid v = .ok (none, v) := by
  unfold decodeSid
  rw [if_neg (by omega), Window.get_of_le (by omega) (by omega)]
  exact if_pos h

/-- A SID that is longer than its window. -/
theorem decodeSid_of_long (hlen : 8 ≤ v.len) (hin : 2 ≤ v.octets.length)
    (hrevision : octetAt v.octets 0 = 1) (h : v.len < sidLength v.octets) :
    decodeSid v = .ok (none, v) := by
  unfold decodeSid
  rw [if_neg (by omega), Window.get_of_le (by omega) (by omega)]
  simp only [bind, Except.bind]
  rw [if_neg (fun hne => hne hrevision), Window.get_of_le (by omega) (by omega)]
  exact if_pos h

/-- The window reaches beyond what is there, and so does the SID. -/
theorem decodeSid_overruns (hlen : 8 ≤ v.len) (h : v.octets.length = 0 ∨
    octetAt v.octets 0 = 1 ∧ sidLength v.octets ≤ v.len ∧ v.octets.length < sidLength v.octets) :
    decodeSid v = .error .read := by
  unfold decodeSid
  rw [if_neg (by omega)]
  rcases h with hempty | ⟨hrevision, hle, hlt⟩
  · rw [Window.get_of_lt (by omega) (by decide) (by omega)]
    rfl
  by_cases hempty : v.octets.length = 0
  · rw [Window.get_of_lt (by omega) (by decide) (by omega)]
    rfl
  rw [Window.get_of_le (by omega) (by omega)]
  simp only [bind, Except.bind]
  rw [if_neg (fun hne => hne hrevision)]
  by_cases hone : v.octets.length < 2
  · rw [Window.get_of_lt (by omega) (by decide) (by omega)]
  have hcount : fromLe (slice v.octets 1 1) = octetAt v.octets 1 := rfl
  unfold sidLength at hle hlt
  rw [Window.get_of_le (by omega) (by omega), hcount]
  simp only
  rw [if_neg (by omega)]
  by_cases height : v.octets.length < 8
  · rw [Window.read_of_lt (by decide) (by unfold SID_ID_AUTH_LEN; omega)]
  · rw [Window.read_of_le (by unfold SID_ID_AUTH_LEN; omega)]
    simp only
    rw [decodeSubAuths_overruns hle (by omega) hlt]

theorem sidLength_of_short (h : v.octets.length < 2) : sidLength v.octets = 8 := by
  have hnil : slice v.octets 1 1 = [] :=
    List.length_eq_zero_iff.mp (by rw [length_slice]; omega)
  rw [sidLength, octetAt, hnil]
  rfl

/-- A SID is decoded, or there is none, or the window reaches beyond what is there. -/
theorem decodeSid_cases (v : Window) :
    (IsSid v.octets ∧ sidLength v.octets ≤ v.len ∧
      decodeSid v = .ok (some (sidOf v.octets), v.skip (sidLength v.octets))) ∨
    decodeSid v = .ok (none, v) ∨
    (8 ≤ v.len ∧ (v.octets.length = 0 ∨ octetAt v.octets 0 = 1 ∧ sidLength v.octets ≤ v.len ∧
      v.octets.length < sidLength v.octets) ∧ decodeSid v = .error .read) := by
  by_cases hshort : v.len < 8
  · exact .inr (.inl (decodeSid_of_short hshort))
  by_cases hempty : v.octets.length = 0
  · exact .inr (.inr ⟨by omega, .inl hempty, decodeSid_overruns (by omega) (.inl hempty)⟩)
  by_cases hrevision : octetAt v.octets 0 = 1
  swap
  · exact .inr (.inl (decodeSid_of_revision (by omega) (by omega) hrevision))
  by_cases hle : sidLength v.octets ≤ v.len
  · by_cases hin : sidLength v.octets ≤ v.octets.length
    · exact .inl ⟨⟨hrevision, hin⟩, hle, decodeSid_of_isSid ⟨hrevision, hin⟩ hle⟩
    · have hover : v.octets.length = 0 ∨ octetAt v.octets 0 = 1 ∧ sidLength v.octets ≤ v.len ∧
          v.octets.length < sidLength v.octets := .inr ⟨hrevision, hle, Nat.lt_of_not_le hin⟩
      exact .inr (.inr ⟨by omega, hover, decodeSid_overruns (by omega) hover⟩)
  · have htwo : ¬ v.octets.length < 2 := fun h => by
      rw [sidLength_of_short h] at hle
      omega
    exact .inr (.inl (decodeSid_of_long (by omega) (by omega) hrevision (by omega)))

/-! ## What is made of the header of an ACE -/

/-- What the header of an ACE says. -/
def aceHeader (bs : Bytes) : Ace where
  aceType := octetAt bs 0
  aceFlags := octetAt bs 1
  aceSize := sizeAt bs

theorem decodeAce_eq (hlen : 4 ≤ v.len) (h : 4 ≤ v.octets.length) :
    decodeAce v = if sizeAt v.octets < 4 then .ok none
      else if v.len < sizeAt v.octets then .ok none
      else decodeAceData (aceHeader v.octets) (v.skip 4) := by
  unfold decodeAce
  rw [if_neg (by omega), Window.get_of_le (by omega) (by omega),
    Window.get_of_le (by omega) (by omega), Window.get_of_le (by omega) (by omega)]
  rfl

/-- The window reaches beyond what is there, and so does the header. -/
theorem decodeAce_overruns (hlen : 4 ≤ v.len) (h : v.octets.length < 4) :
    decodeAce v = .error .read := by
  unfold decodeAce
  rw [if_neg (by omega)]
  by_cases hone : v.octets.length < 1
  · rw [Window.get_of_lt (by omega) (by decide) (by omega)]
    rfl
  rw [Window.get_of_le (by omega) (by omega)]
  simp only [bind, Except.bind]
  by_cases htwo : v.octets.length < 2
  · rw [Window.get_of_lt (by omega) (by decide) (by omega)]
  · rw [Window.get_of_le (by omega) (by omega)]
    simp only
    rw [Window.get_of_lt (by omega) (by decide) (by omega)]

/-! ## Windows that are not longer than what is there -/

/-- A SID is read inside its window, and leaves one behind. -/
theorem decodeSid_sound (hv : v.Sound) : ∃ r, decodeSid v = .ok r ∧ r.2.Sound := by
  rcases decodeSid_cases v with ⟨_, hle, h⟩ | h | ⟨hlen, hover, _⟩
  · exact ⟨_, h, hv.skip hle⟩
  · exact ⟨_, h, hv⟩
  · have hv : v.len ≤ v.octets.length := hv
    omega

theorem decodeMaskAndSid_sound (hv : v.Sound) :
    ∃ found, decodeMaskAndSid v = .ok found ∧ ∀ r, found = some r → r.2.2.Sound := by
  obtain ⟨mask, hmask⟩ := hv.get 4 0 0
  unfold decodeMaskAndSid
  rw [hmask]
  simp only [bind, Except.bind]
  by_cases hshort : v.len < 4
  · rw [if_pos hshort]
    exact ⟨_, rfl, nofun⟩
  · obtain ⟨r, hr, hsound⟩ := decodeSid_sound (hv.skip (show 4 ≤ v.len by omega))
    rw [if_neg hshort, hr]
    refine ⟨_, rfl, ?_⟩
    rintro _ ⟨rfl⟩
    exact hsound

theorem decodeBlob_inside (hv : v.Sound) : Inside (decodeBlob v) := by
  unfold decodeBlob
  split
  · apply Inside.map
    apply hv.read
    omega
  · exact .ok _

theorem slice_drop (bs : Bytes) (k off n : Nat) : slice (bs.drop k) off n = slice bs (k + off) n := by
  rw [slice, List.drop_drop]
  rfl

/-- What is made of the forty octets in front of the SID. -/
theorem decodeObject_eq (hlen : 40 ≤ v.len) (h : 40 ≤ v.octets.length) (ace : Ace) :
    decodeObject ace v = (decodeSid (v.skip 40)).map fun r => some { ace with
      mask := fromLe (slice v.octets 0 4)
      flags := fromLe (slice v.octets 4 4)
      objectType := slice v.octets 8 OBJECT_TYPE_SIZE
      inheritedObjectType := slice v.octets 24 OBJECT_TYPE_SIZE
      sid := r.1 } := by
  have hsize : OBJECT_TYPE_SIZE = 16 := rfl
  have hskip : (v.skip 4).skip 4 = v.skip 8 := Window.skip_skip (by omega)
  have hskip' : (v.skip 8).skip OBJECT_TYPE_SIZE = v.skip 24 := Window.skip_skip (by omega)
  have hskip'' : (v.skip 24).skip OBJECT_TYPE_SIZE = v.skip 40 := Window.skip_skip (by omega)
  have hlen4 : (v.skip 4).len = v.len - 4 := sub64_of_le (by omega)
  unfold decodeObject
  simp only [hskip, hskip', hskip'']
  rw [if_neg (by omega), Window.get_of_le (by omega) (by omega),
    Window.get_of_le (by omega) (by rw [Window.skip_octets, List.length_drop]; omega),
    Window.read_of_le (by rw [Window.skip_octets, List.length_drop]; omega),
    Window.read_of_le (by rw [Window.skip_octets, List.length_drop]; omega)]
  simp only [Window.skip_octets, slice_drop]
  rfl

theorem decodeObject_overruns (hlen : 40 ≤ v.len) (h : v.octets.length < 40) (ace : Ace) :
    decodeObject ace v = .error .read := by
  have hsize : OBJECT_TYPE_SIZE = 16 := rfl
  have hskip : (v.skip 4).skip 4 = v.skip 8 := Window.skip_skip (by omega)
  have hskip' : (v.skip 8).skip OBJECT_TYPE_SIZE = v.skip 24 := Window.skip_skip (by omega)
  have hlen4 : (v.skip 4).len = v.len - 4 := sub64_of_le (by omega)
  have hoctets : ∀ k, (v.skip k).octets.length = v.octets.length - k := fun k => List.length_drop
  have h4 := hoctets 4
  have h8 := hoctets 8
  have h24 := hoctets 24
  unfold decodeObject
  simp only [hskip, hskip']
  rw [if_neg (by omega)]
  by_cases hmask : v.octets.length < 4
  · rw [Window.get_of_lt (by omega) (by decide) (by omega)]
    rfl
  rw [Window.get_of_le (by omega) (by omega)]
  simp only [bind, Except.bind]
  by_cases hflags : v.octets.length < 8
  · rw [Window.get_of_lt (by omega) (by decide) (by omega)]
  rw [Window.get_of_le (by omega) (by omega)]
  simp only
  by_cases htype : v.octets.length < 24
  · rw [Window.read_of_lt (by decide) (by omega)]
  · rw [Window.read_of_le (by omega)]
    simp only
    rw [Window.read_of_lt (by decide) (by omega)]

theorem decodeObject_inside (hv : v.Sound) (ace : Ace) : Inside (decodeObject ace v) := by
  by_cases hshort : v.len < 40
  · exact ⟨_, if_pos hshort⟩
  · have hin : v.len ≤ v.octets.length := hv
    obtain ⟨r, hr, -⟩ := decodeSid_sound (hv.skip (show 40 ≤ v.len by omega))
    rw [decodeObject_eq (by omega) (by omega), hr]
    exact .ok _

theorem decodeAceData_inside (hv : v.Sound) (ace : Ace) : Inside (decodeAceData ace v) := by
  unfold decodeAceData
  split
  · obtain ⟨found, hfound, -⟩ := decodeMaskAndSid_sound hv
    exact Inside.map ⟨found, hfound⟩
  · exact decodeObject_inside hv ace
  · obtain ⟨found, hfound, hsound⟩ := decodeMaskAndSid_sound hv
    unfold decodeCallback
    apply Inside.bind ⟨found, hfound⟩
    intro r hr
    rw [hfound, Except.ok.injEq] at hr
    subst hr
    cases found with
    | none => exact .ok _
    | some r => exact (decodeBlob_inside (hsound r rfl)).map
  · exact (decodeBlob_inside hv).map

/-- An ACE is read inside its window. -/
theorem decodeAce_inside (hv : v.Sound) : Inside (decodeAce v) := by
  unfold decodeAce
  split
  · exact .ok _
  apply (hv.get 1 0 0).bind
  intro aceType _
  apply (hv.get 1 1 0).bind
  intro aceFlags _
  apply (hv.get 2 2 0).bind
  intro aceSize _
  split
  · exact .ok _
  split
  · exact .ok _
  apply decodeAceData_inside
  apply hv.skip
  omega

/-- ACEs are read inside their window, each behind the one before. -/
theorem decodeAces_inside (hv : v.Sound) (n : Nat) : Inside (decodeAces n v) := by
  induction n generalizing v with
  | zero => exact .ok _
  | succ n ih =>
    rw [decodeAces]
    apply (decodeAce_inside hv).bind
    intro found _
    cases found with
    | none => exact .ok _
    | some ace =>
      simp only
      split
      · exact .ok _
      · apply Inside.map
        apply ih
        apply hv.skip
        omega

end

end Libsmb2
