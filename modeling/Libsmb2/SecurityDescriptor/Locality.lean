import Libsmb2.SecurityDescriptor

/-!
# ACEs and what follows them

`decode_acl` goes from one ACE to the next by their sizes, but hands `decode_ace` all that is left
of the ACL.  The data of a callback ACE, and that of one of an unknown type, are the rest of what it
was handed.

* `decodeAce_within` — what is made of an ACE that is well formed, with what follows it;
* `aces_are_local_iff` — when each ACE of an ACL is what its own octets make of it.
-/

set_option autoImplicit false

namespace Libsmb2

open Util

/-! ## Well-formed ACEs -/

/-- The data of an ACE has its SID. -/
def AceKind.WellFormed (data : Bytes) : AceKind → Prop
  | .simple => IsSid (data.drop 4)
  | .object => IsSid (data.drop 40)
  | .callback => IsSid (data.drop 4)
  | .raw => True

instance (data : Bytes) : (kind : AceKind) → Decidable (kind.WellFormed data)
  | .simple => inferInstanceAs (Decidable (IsSid _))
  | .object => inferInstanceAs (Decidable (IsSid _))
  | .callback => inferInstanceAs (Decidable (IsSid _))
  | .raw => inferInstanceAs (Decidable True)

/-- These octets are an ACE, which has the length that its header says. -/
structure IsAce (x : Bytes) : Prop where
  header : 4 ≤ x.length
  size : sizeAt x = x.length
  data : (aceKind (octetAt x 0)).WellFormed (x.drop 4)

/-- A well-formed ACE. -/
abbrev AceOctets : Type := { x : Bytes // IsAce x }

/-- The octets of ACEs. -/
def aceOctets (xs : List AceOctets) : Bytes := (xs.map Subtype.val).flatten

/-- The layouts that keep the rest as a blob. -/
def AceKind.keepsRest : AceKind → Bool
  | .simple => false
  | .object => false
  | .callback => true
  | .raw => true

/-- The ACE that these octets are, if so much of what follows is taken for its data. -/
def aceOf (x rest : Bytes) : Ace :=
  let data := x.drop 4
  match aceKind (octetAt x 0) with
  | .simple => { aceHeader x with
      mask := fromLe (slice data 0 4)
      sid := some (sidOf (data.drop 4)) }
  | .object => { aceHeader x with
      mask := fromLe (slice data 0 4)
      flags := fromLe (slice data 4 4)
      objectType := slice data 8 OBJECT_TYPE_SIZE
      inheritedObjectType := slice data 24 OBJECT_TYPE_SIZE
      sid := some (sidOf (data.drop 40)) }
  | .callback => { aceHeader x with
      mask := fromLe (slice data 0 4)
      sid := some (sidOf (data.drop 4))
      adData := (data.drop 4).drop (sidLength (data.drop 4)) ++ rest }
  | .raw => { aceHeader x with rawData := data ++ rest }

/-- The ACEs that a list of them is decoded to. -/
def decodedAces : List AceOctets → List Ace
  | [] => []
  | x :: xs => aceOf x.1 (aceOctets xs) :: decodedAces xs

section
variable {x t : Bytes} {k : Nat}

/-! ## What is made of a SID with what follows it -/

theorem octetAt_append {off : Nat} (h : off < x.length) : octetAt (x ++ t) off = octetAt x off := by
  unfold octetAt
  rw [slice_append_left (by omega)]

theorem IsSid.eight_le (h : IsSid x) : 8 ≤ x.length := by
  have hlength := h.length
  unfold sidLength at hlength
  omega

theorem sidLength_append (h : IsSid x) : sidLength (x ++ t) = sidLength x := by
  have height := h.eight_le
  unfold sidLength
  rw [octetAt_append (by omega)]

theorem IsSid.append (h : IsSid x) : IsSid (x ++ t) := by
  have height := h.eight_le
  constructor
  · rw [octetAt_append (by omega)]
    exact h.revision
  · rw [sidLength_append h, List.length_append]
    exact Nat.le_add_right_of_le h.length

theorem sidOf_append (h : IsSid x) : sidOf (x ++ t) = sidOf x := by
  have height := h.eight_le
  have hlength := h.length
  have hsize : SID_ID_AUTH_LEN = 6 := rfl
  have hsub : ∀ i ∈ List.range (octetAt x 1),
      fromLe (slice (x ++ t) (8 + i * 4) 4) = fromLe (slice x (8 + i * 4) 4) := by
    intro i hi
    have hi := List.mem_range.mp hi
    unfold sidLength at hlength
    rw [slice_append_left (by omega)]
  unfold sidOf
  rw [octetAt_append (by omega), octetAt_append (by omega), slice_append_left (by omega),
    List.map_congr_left hsub]

theorem decodeSid_within (h : IsSid x) : decodeSid (Window.within x t k) =
    .ok (some (sidOf x), Window.within (x.drop (sidLength x)) t k) := by
  have hoctets : (Window.within x t k).octets = x ++ t := rfl
  have hlen : (Window.within x t k).len = x.length + k := rfl
  rw [decodeSid_of_isSid h.append, hoctets, sidOf_append h, sidLength_append h,
    Window.skip_within h.length]
  rw [hoctets, hlen, sidLength_append h]
  exact Nat.le_add_right_of_le h.length

theorem decodeMaskAndSid_within (h : IsSid (x.drop 4)) :
    decodeMaskAndSid (Window.within x t k) = .ok (some (fromLe (slice x 0 4),
      some (sidOf (x.drop 4)), Window.within ((x.drop 4).drop (sidLength (x.drop 4))) t k)) := by
  have hfour : 4 ≤ x.length := by
    have height := h.eight_le
    rw [List.length_drop] at height
    omega
  have hlen : (Window.within x t k).len = x.length + k := rfl
  unfold decodeMaskAndSid
  rw [Window.get_within (by omega)]
  simp only [bind, Except.bind]
  rw [if_neg (by omega), Window.skip_within hfour, decodeSid_within h]
  rfl

theorem decodeBlob_within (hk : k ≤ t.length) (hsmall : x.length + k < 2 ^ 16) :
    decodeBlob (Window.within x t k) = .ok (some (x ++ t.take k)) := by
  have hlen : (Window.within x t k).len = x.length + k := rfl
  have hallocates : Allocates (Window.within x t k).len := by
    unfold Allocates
    omega
  unfold decodeBlob
  rw [if_pos hallocates, Window.read_all_within hk]
  rfl

theorem decodeObject_within (h : IsSid (x.drop 40)) (ace : Ace) :
    decodeObject ace (Window.within x t k) = .ok (some { ace with
      mask := fromLe (slice x 0 4)
      flags := fromLe (slice x 4 4)
      objectType := slice x 8 OBJECT_TYPE_SIZE
      inheritedObjectType := slice x 24 OBJECT_TYPE_SIZE
      sid := some (sidOf (x.drop 40)) }) := by
  have hforty : 40 ≤ x.length := by
    have height := h.eight_le
    rw [List.length_drop] at height
    omega
  have hsize : OBJECT_TYPE_SIZE = 16 := rfl
  have hoctets : (Window.within x t k).octets = x ++ t := rfl
  have hlen : (Window.within x t k).len = x.length + k := rfl
  rw [decodeObject_eq (by omega) (by rw [hoctets, List.length_append]; omega),
    Window.skip_within hforty, decodeSid_within h, hoctets, slice_append_left (by omega),
    slice_append_left (by omega), slice_append_left (by omega), slice_append_left (by omega)]
  rfl

/-! ## What is made of an ACE with what follows it -/

/-- What is made of a well-formed ACE. -/
theorem decodeAce_within (h : IsAce x) (hk : k ≤ t.length) (hsmall : x.length + k < 2 ^ 16) :
    decodeAce (Window.within x t k) = .ok (some (aceOf x (t.take k))) := by
  have hheader := h.header
  have hsize := h.size
  have hdata := h.data
  have hlen : (Window.within x t k).len = x.length + k := rfl
  have hlength : (x.drop 4).length = x.length - 4 := List.length_drop
  have hoctets : (Window.within x t k).octets = x ++ t := rfl
  have hsame : sizeAt (x ++ t) = sizeAt x := by
    unfold sizeAt
    rw [slice_append_left (by omega)]
  have hheaders : aceHeader (x ++ t) = aceHeader x := by
    unfold aceHeader
    rw [hsame, octetAt_append (by omega), octetAt_append (by omega)]
  have htype : (aceHeader x).aceType = octetAt x 0 := rfl
  rw [decodeAce_eq (by omega) (by rw [hoctets, List.length_append]; omega), hoctets, hsame, hheaders,
    if_neg (by omega), if_neg (by omega), Window.skip_within hheader]
  unfold decodeAceData aceOf
  simp only [htype]
  cases hkind : aceKind (octetAt x 0) with
  | simple =>
    rw [hkind] at hdata
    unfold decodeSimple
    simp only
    rw [decodeMaskAndSid_within hdata]
    rfl
  | object =>
    rw [hkind] at hdata
    exact decodeObject_within hdata _
  | callback =>
    rw [hkind] at hdata
    have hshort : (((x.drop 4).drop 4).drop (sidLength ((x.drop 4).drop 4))).length ≤ x.length := by
      simp only [List.length_drop]
      omega
    unfold decodeCallback
    simp only
    rw [decodeMaskAndSid_within hdata]
    simp only [bind, Except.bind]
    rw [decodeBlob_within hk (by omega)]
    rfl
  | raw =>
    unfold decodeRaw
    simp only
    rw [decodeBlob_within hk (by omega)]
    rfl

theorem aceOf_aceSize (x rest : Bytes) : (aceOf x rest).aceSize = sizeAt x := by
  unfold aceOf
  simp only
  split <;> rfl

/-- The rest is in an ACE exactly if its layout keeps it. -/
theorem aceOf_eq_iff (x rest : Bytes) :
    aceOf x rest = aceOf x [] ↔ ((aceKind (octetAt x 0)).keepsRest = true → rest = []) := by
  unfold aceOf
  cases aceKind (octetAt x 0) <;> simp [AceKind.keepsRest]

end

/-! ## ACLs -/

section
variable {xs : List AceOctets} {t : Bytes}

/-- The ACEs are decoded in order, each with those that follow it. -/
theorem decodeAces_within (hsmall : (aceOctets xs).length < 2 ^ 16) :
    decodeAces xs.length (Window.within (aceOctets xs) t 0) = .ok (some (decodedAces xs)) := by
  induction xs with
  | nil => rfl
  | cons x xs ih =>
    have hx := x.2
    have hcons : aceOctets (x :: xs) = x.1 ++ aceOctets xs := rfl
    rw [hcons, List.length_append] at hsmall
    have hskip : (Window.within x.1 (aceOctets xs ++ t) (aceOctets xs).length).skip x.1.length =
        Window.within (aceOctets xs) t 0 := by
      rw [Window.skip_within (Nat.le_refl _), List.drop_length, ← Nat.add_zero (aceOctets xs).length,
        ← Window.within_append, List.nil_append]
    have hlen : (Window.within x.1 (aceOctets xs ++ t) (aceOctets xs).length).len =
        x.1.length + (aceOctets xs).length := rfl
    rw [hcons, Window.within_append, Nat.add_zero, List.length_cons, decodeAces,
      decodeAce_within hx (by rw [List.length_append]; omega) hsmall, List.take_left]
    simp only [bind, Except.bind]
    rw [aceOf_aceSize, hx.size, if_neg (by omega), hskip, ih (by omega)]
    rfl

end

/-- A well-formed ACL, whatever its reserved octets are. -/
structure AclOctets where
  revision : UInt8
  sbz1 : UInt8
  sbz2 : UInt16
  aces : List AceOctets
  supported : revision.toNat = ACL_REVISION ∨ revision.toNat = ACL_REVISION_DS
  small : 8 + (aceOctets aces).length < 2 ^ 16

namespace AclOctets

/-- The header. -/
def header (acl : AclOctets) : Bytes :=
  [acl.revision, acl.sbz1] ++ le 2 (8 + (aceOctets acl.aces).length) ++ le 2 acl.aces.length ++
    le 2 acl.sbz2.toNat

/-- The octets of the ACL. -/
def octets (acl : AclOctets) : Bytes := acl.header ++ aceOctets acl.aces

end AclOctets

/-- The ACEs of the ACL are decoded in order, each to what `decode_ace` makes of its own octets,
whatever follows the ACL. -/
def AcesAreLocal (acl : AclOctets) : Prop :=
  ∀ t, ∃ aces, decodeAcl (Window.whole (acl.octets ++ t)) =
      .ok (some ⟨acl.revision.toNat, acl.aces.length, aces⟩) ∧
    List.Forall₂ (fun x ace => decodeAce (Window.whole x.1) = .ok (some ace)) acl.aces aces

section
variable {acl : AclOctets} {t : Bytes}

theorem length_le_aceOctets (xs : List AceOctets) : 4 * xs.length ≤ (aceOctets xs).length := by
  induction xs with
  | nil => exact Nat.le_refl _
  | cons x xs ih =>
    have hcons : aceOctets (x :: xs) = x.1 ++ aceOctets xs := rfl
    have hheader := x.2.header
    rw [hcons, List.length_append, List.length_cons]
    omega

theorem decodeAcl_eq : decodeAcl (Window.whole (acl.octets ++ t)) =
    .ok (some ⟨acl.revision.toNat, acl.aces.length, decodedAces acl.aces⟩) := by
  have hsmall := acl.small
  have hcount := length_le_aceOctets acl.aces
  have hheader : acl.header.length = 8 := by simp [AclOctets.header]
  have hwindow : Window.whole (acl.octets ++ t) =
      Window.within acl.header (aceOctets acl.aces ++ t) ((aceOctets acl.aces).length + t.length) := by
    unfold Window.whole Window.within AclOctets.octets
    simp only [List.append_assoc, List.length_append]
  have hlen : (Window.within acl.header (aceOctets acl.aces ++ t)
      ((aceOctets acl.aces).length + t.length)).len =
        8 + ((aceOctets acl.aces).length + t.length) := by
    rw [← hheader]
    rfl
  have hrevision : fromLe (slice acl.header 0 1) = acl.revision.toNat := by
    simp [AclOctets.header, slice, fromLe]
  have hsize : fromLe (slice acl.header 2 2) = 8 + (aceOctets acl.aces).length := by
    unfold AclOctets.header
    have hfield : ∀ n, slice (le 2 n) (2 - [acl.revision, acl.sbz1].length) 2 = le 2 n := fun n =>
      slice_zero (by simp)
    rw [slice_append_left (by simp), slice_append_left (by simp), slice_append_right (by simp),
      hfield, fromLe_le]
    omega
  have hcount : fromLe (slice acl.header 4 2) = acl.aces.length := by
    unfold AclOctets.header
    have hfield : ∀ m n, slice (le 2 n) (4 - ([acl.revision, acl.sbz1] ++ le 2 m).length) 2 = le 2 n := by
      intro m n
      rw [List.length_append, length_le]
      exact slice_zero (by simp)
    rw [slice_append_left (by simp), slice_append_right (by simp), hfield, fromLe_le]
    omega
  have hinner : (⟨acl.header ++ (aceOctets acl.aces ++ t), 8 + (aceOctets acl.aces).length⟩ :
      Window).skip 8 = Window.within (aceOctets acl.aces) t 0 := by
    have hwithin : (⟨acl.header ++ (aceOctets acl.aces ++ t), 8 + (aceOctets acl.aces).length⟩ :
        Window) = Window.within acl.header (aceOctets acl.aces ++ t) (aceOctets acl.aces).length := by
      rw [Window.within, hheader]
    rw [hwithin, ← hheader, Window.skip_within (Nat.le_refl _), List.drop_length,
      ← Nat.add_zero (aceOctets acl.aces).length, ← Window.within_append, List.nil_append]
  have hoctets : (Window.within acl.header (aceOctets acl.aces ++ t)
      ((aceOctets acl.aces).length + t.length)).octets = acl.header ++ (aceOctets acl.aces ++ t) := rfl
  rw [hwindow]
  unfold decodeAcl
  rw [if_neg (by omega), Window.get_within (by omega), Window.get_within (by omega),
    Window.get_within (by omega), hrevision, hsize, hcount]
  simp only [bind, Except.bind]
  rw [if_neg (by have hsupported := acl.supported; tauto), Nat.min_eq_right (by omega),
    if_neg (Nat.lt_irrefl _), hoctets, hinner, decodeAces_within (by omega)]
  rfl

theorem IsAce.lt {x : Bytes} (h : IsAce x) : x.length < 2 ^ 16 := by
  have hlt : sizeAt x < 256 ^ 2 := fromLe_slice_lt x 2 2
  rw [h.size] at hlt
  omega

/-- What an ACE is decoded to on its own. -/
theorem decodeAce_alone (x : AceOctets) :
    decodeAce (Window.whole x.1) = .ok (some (aceOf x.1 [])) := by
  have hwhole : Window.whole x.1 = Window.within x.1 [] 0 := by
    rw [Window.within, List.append_nil]
    rfl
  have hlt : x.1.length + 0 < 2 ^ 16 := x.2.lt
  rw [hwhole, decodeAce_within x.2 (Nat.zero_le _) hlt]
  rfl

/-- The ACEs are what their own octets make of them, if what follows each of them is not kept. -/
theorem decodedAces_eq_iff (xs : List AceOctets) :
    decodedAces xs = xs.map (fun x => aceOf x.1 []) ↔
      ∀ x ∈ xs.dropLast, (aceKind (octetAt x.1 0)).keepsRest = false := by
  induction xs with
  | nil => exact iff_of_true rfl nofun
  | cons x xs ih =>
    rw [decodedAces, List.map_cons, List.cons.injEq, aceOf_eq_iff, ih]
    cases xs with
    | nil => exact iff_of_true ⟨fun _ => rfl, nofun⟩ nofun
    | cons y ys =>
      have hne : aceOctets (y :: ys) ≠ [] := by
        have hlength := length_le_aceOctets (y :: ys)
        rw [List.length_cons] at hlength
        exact List.ne_nil_of_length_pos (by omega)
      rw [List.dropLast_cons_cons, List.forall_mem_cons]
      refine and_congr_left fun _ => ?_
      rw [Bool.eq_false_iff]
      exact ⟨fun h hkeeps => hne (h hkeeps), fun h hkeeps => absurd hkeeps h⟩

theorem acesAreLocal_iff (acl : AclOctets) :
    AcesAreLocal acl ↔ decodedAces acl.aces = acl.aces.map (fun x => aceOf x.1 []) := by
  have halone : ∀ aces, List.Forall₂ (fun x ace => decodeAce (Window.whole x.1) = .ok (some ace))
      acl.aces aces ↔ acl.aces.map (fun x => aceOf x.1 []) = aces := by
    intro aces
    simp only [decodeAce_alone, Except.ok.injEq, Option.some.injEq]
    rw [← List.forall₂_map_left_iff (R := (· = ·)), List.forall₂_eq_eq_eq]
  constructor
  · intro h
    obtain ⟨aces, hrun, hown⟩ := h []
    rw [decodeAcl_eq, Except.ok.injEq, Option.some.injEq, Acl.mk.injEq] at hrun
    rw [hrun.2.2, (halone aces).mp hown]
  · intro h t
    exact ⟨_, decodeAcl_eq, (halone _).mpr h.symm⟩

/-- **Each ACE of an ACL is what its own octets make of it exactly if only the last one keeps the
rest of the ACL.** -/
theorem aces_are_local_iff (acl : AclOctets) :
    AcesAreLocal acl ↔
      ∀ x ∈ acl.aces.dropLast, (aceKind (octetAt x.1 0)).keepsRest = false := by
  rw [acesAreLocal_iff, decodedAces_eq_iff]

/-- A callback ACE with a SID without sub-authorities, and no data. -/
def callbackAce : AceOctets :=
  ⟨[9, 0] ++ le 2 16 ++ zeros 4 ++ [1, 0] ++ zeros 6, by decide, by decide, by decide⟩

/-- An ACE of an unknown type, without data. -/
def unknownAce : AceOctets := ⟨[3, 0] ++ le 2 4, by decide, by decide, by decide⟩

/-- An ACL with both of them, and one more of an unknown type. -/
def threeAces : AclOctets where
  revision := 2
  sbz1 := 0
  sbz2 := 0
  aces := [callbackAce, unknownAce, unknownAce]
  supported := .inl rfl
  small := by decide

/-- The first two have the octets of the others for their data. -/
theorem callback_and_unknown_aces_keep_the_rest : ¬ AcesAreLocal threeAces := by
  rw [acesAreLocal_iff]
  decide +kernel

end

end Libsmb2
