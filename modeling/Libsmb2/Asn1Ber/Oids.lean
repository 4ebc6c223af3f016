import Libsmb2.Asn1Ber.Lengths

/-!
# Object identifiers

An element of an object identifier is written in groups of seven bits, all but the last with the
continuation bit.  The first two elements share a number, of which the decoder takes the first octet
only; it also takes no more octets than an object identifier has elements.

* `oidElements_flatMap` — the groups of the elements behind the first two are read back;
* `oid_returns_iff` — which object identifiers come back.
-/

set_option autoImplicit false

namespace Libsmb2.Asn1Ber

open Util

/-! ## Groups of seven bits -/

/-- The last `k + 1` groups of an element. -/
def groups : Nat → Nat → Bytes
  | 0, x => [UInt8.ofNat (x % 128)]
  | k + 1, x => UInt8.ofNat (128 + x / 128 ^ (k + 1) % 128) :: groups k x

@[simp] theorem length_groups (k x : Nat) : (groups k x).length = k + 1 := by
  induction k with
  | zero => rfl
  | succ k ih => rw [groups, List.length_cons, ih]

/-- How many groups of an element follow the first one. -/
def moreGroups (x : Nat) : Nat :=
  if x < 128 then 0 else if x < 128 ^ 2 then 1 else if x < 128 ^ 3 then 2
  else if x < 128 ^ 4 then 3 else 4

theorem singleOid_eq {x : Nat} (hx : x < 2 ^ 32) : singleOid x = groups (moreGroups x) x := by
  have htwo : x / 128 / 128 = x / 128 ^ 2 := Nat.div_div_eq_div_mul x 128 128
  have hthree : x / 128 ^ 2 / 128 = x / 128 ^ 3 := Nat.div_div_eq_div_mul x (128 ^ 2) 128
  have hfour : x / 128 ^ 3 / 128 = x / 128 ^ 4 := Nat.div_div_eq_div_mul x (128 ^ 3) 128
  have he : x / 128 ^ 4 % 128 ≠ 0 ↔ ¬ x < 128 ^ 4 := by omega
  have hd : x / 128 ^ 3 % 128 ≠ 0 ∨ ¬ x < 128 ^ 4 ↔ ¬ x < 128 ^ 3 := by omega
  have hc : x / 128 ^ 2 % 128 ≠ 0 ∨ ¬ x < 128 ^ 3 ↔ ¬ x < 128 ^ 2 := by omega
  have hb : x / 128 % 128 ≠ 0 ∨ ¬ x < 128 ^ 2 ↔ ¬ x < 128 := by omega
  unfold singleOid moreGroups
  simp only [htwo, hthree, hfour, he, hd, hc, hb]
  split_ifs <;> first | omega | simp [groups]

theorem lt_pow_moreGroups {x : Nat} (hx : x < 2 ^ 32) : x < 128 ^ (moreGroups x + 1) := by
  unfold moreGroups
  split_ifs <;> simp only [Nat.reduceAdd, Nat.reducePow] at * <;> omega

/-- One group more of an element in 32 bits. -/
theorem group_value (v k x : Nat) :
    ((v * 128 % 4294967296 + x / 128 ^ (k + 1) % 128) * 128 ^ (k + 1) + x % 128 ^ (k + 1)) %
        4294967296 = (v * 128 ^ (k + 2) + x % 128 ^ (k + 2)) % 4294967296 := by
  have hlow : x % 128 ^ (k + 2) = x % 128 ^ (k + 1) + 128 ^ (k + 1) * (x / 128 ^ (k + 1) % 128) :=
    Nat.mod_pow_succ
  have hgroup : v * 128 % 4294967296 + x / 128 ^ (k + 1) % 128 =
      (v * 128 + x / 128 ^ (k + 1) % 128) % 4294967296 := by omega
  have hsum : (v * 128 + x / 128 ^ (k + 1) % 128) * 128 ^ (k + 1) + x % 128 ^ (k + 1) =
      v * 128 ^ (k + 2) + x % 128 ^ (k + 2) := by
    rw [hlow, Nat.pow_succ 128 (k + 1)]
    ring
  rw [hgroup, ← hsum, Nat.add_mod, Nat.mod_mul_mod, ← Nat.add_mod]

/-- An octet without the continuation bit is the last one. -/
theorem oidGroups_last {b : Nat} (hb : b < 128) (m v : Nat) (d : Decoder) :
    oidGroups m b v d = some (v, m, d) := by
  cases m with
  | zero => rfl
  | succ m => rw [oidGroups, if_pos hb]

/-- The groups behind an octet with the continuation bit are read back. -/
theorem oidGroups_groups {b v : Nat} (k m x : Nat) (rest : Bytes) (tail : Nat) (hb : 128 ≤ b) :
    oidGroups (k + 1 + m) b v ⟨groups k x ++ rest, tail⟩ =
      some ((v * 128 ^ (k + 1) + x % 128 ^ (k + 1)) % 4294967296, m,
        ⟨rest, tail + (k + 1)⟩) := by
  induction k generalizing b v tail with
  | zero =>
    have hoctet : (UInt8.ofNat (x % 128)).toNat = x % 128 := by
      simp
      omega
    rw [Nat.zero_add, Nat.add_comm 1 m, oidGroups, if_neg (by omega)]
    simp only [groups, List.cons_append, List.nil_append, nextByte_cons, Option.bind_eq_bind,
      Option.bind_some, hoctet]
    rw [oidGroups_last (Nat.mod_lt _ (by decide)), Nat.pow_one]
    congr 2
    omega
  | succ k ih =>
    have hoctet : (UInt8.ofNat (128 + x / 128 ^ (k + 1) % 128)).toNat =
        128 + x / 128 ^ (k + 1) % 128 := by
      simp
      omega
    have hgroup : (128 + x / 128 ^ (k + 1) % 128) % 128 = x / 128 ^ (k + 1) % 128 := by omega
    rw [show k + 1 + 1 + m = k + 1 + m + 1 by omega, oidGroups, if_neg (by omega)]
    simp only [groups, List.cons_append, nextByte_cons, Option.bind_eq_bind, Option.bind_some,
      hoctet, hgroup]
    rw [ih (tail + 1) (Nat.le_add_right _ _), group_value]
    congr 4
    omega

/-! ## What is read back -/

/-- An element is read back. -/
theorem oidElements_singleOid {x : Nat} (hx : x < 2 ^ 32) (room m : Nat) (elements : List Nat)
    (rest : Bytes) (tail : Nat) :
    oidElements (room + 1) ((singleOid x).length + m) elements ⟨singleOid x ++ rest, tail⟩ =
      oidElements room m (elements ++ [x]) ⟨rest, tail + (singleOid x).length⟩ := by
  have hlt := lt_pow_moreGroups hx
  rw [singleOid_eq hx, length_groups]
  generalize moreGroups x = k at hlt
  cases k with
  | zero =>
    rw [Nat.zero_add, Nat.pow_one] at hlt
    have hoctet : (UInt8.ofNat (x % 128)).toNat = x := by
      simp
      omega
    rw [Nat.zero_add, Nat.add_comm 1 m, oidElements]
    simp only [groups, List.cons_append, List.nil_append, nextByte_cons, Option.bind_eq_bind,
      Option.bind_some, hoctet]
    rw [oidGroups_last hlt, Nat.mod_eq_of_lt hlt]
    rfl
  | succ k =>
    have hoctet : (UInt8.ofNat (128 + x / 128 ^ (k + 1) % 128)).toNat =
        128 + x / 128 ^ (k + 1) % 128 := by
      simp
      omega
    have hgroup : (128 + x / 128 ^ (k + 1) % 128) % 128 = x / 128 ^ (k + 1) % 128 := by omega
    have hvalue : (x / 128 ^ (k + 1) % 128 * 128 ^ (k + 1) + x % 128 ^ (k + 1)) % 4294967296 =
        x := by
      have hlow : x % 128 ^ (k + 2) =
          x % 128 ^ (k + 1) + 128 ^ (k + 1) * (x / 128 ^ (k + 1) % 128) := Nat.mod_pow_succ
      rw [Nat.mod_eq_of_lt hlt] at hlow
      rw [Nat.mul_comm, Nat.add_comm, ← hlow]
      exact Nat.mod_eq_of_lt hx
    rw [show k + 1 + 1 + m = k + 1 + m + 1 by omega, oidElements]
    simp only [groups, List.cons_append, nextByte_cons, Option.bind_eq_bind, Option.bind_some,
      hoctet, hgroup]
    rw [oidGroups_groups k m x rest (tail + 1) (Nat.le_add_right _ _), hvalue]
    rw [Option.bind_some, show tail + 1 + (k + 1) = tail + (k + 1 + 1) by omega]

/-- The elements behind the first two are read back. -/
theorem oidElements_flatMap {xs : List Nat} {room : Nat} (hxs : ∀ x ∈ xs, x < 2 ^ 32)
    (hroom : xs.length ≤ room) (elements : List Nat) (rest : Bytes) (tail : Nat) :
    oidElements room (xs.flatMap singleOid).length elements
        ⟨xs.flatMap singleOid ++ rest, tail⟩ =
      some (elements ++ xs, ⟨rest, tail + (xs.flatMap singleOid).length⟩) := by
  induction xs generalizing room elements tail with
  | nil =>
    rw [List.append_nil]
    cases room <;> rfl
  | cons x xs ih =>
    cases room with
    | zero => exact absurd hroom (Nat.not_succ_le_zero _)
    | succ room =>
      have hlater := ih (fun y hy => hxs y (List.mem_cons_of_mem _ hy))
        (Nat.le_of_succ_le_succ hroom) (elements ++ [x]) (tail + (singleOid x).length)
      rw [List.flatMap_cons, List.length_append, List.append_assoc,
        oidElements_singleOid (hxs x List.mem_cons_self), hlater, List.append_assoc, Nat.add_assoc]
      rfl

/-- The elements that have been read stay. -/
theorem oidElements_prefix {room vallen : Nat} {elements r : List Nat} {d d' : Decoder}
    (h : oidElements room vallen elements d = some (r, d')) : elements <+: r := by
  induction room generalizing vallen elements d with
  | zero =>
    cases vallen with
    | zero =>
      cases h
      exact List.prefix_refl _
    | succ vallen => cases h
  | succ room ih =>
    cases vallen with
    | zero =>
      cases h
      exact List.prefix_refl _
    | succ vallen =>
      simp only [oidElements, Option.bind_eq_bind, Option.bind_eq_some_iff] at h
      obtain ⟨-, -, ⟨oval, left, d''⟩, -, hrest⟩ := h
      exact (List.prefix_append _ _).trans (ih hrest)

/-! ## What is written -/

/-- An object identifier as it is meant: the first element is 0, 1 or 2, and the second one is below
40 where the first one is not 2. -/
structure ValidOid (oid : List Nat) : Prop where
  two : 2 ≤ oid.length
  short : oid.length < BER_MAX_OID_ELEMENTS
  first : oid.getD 0 0 ≤ 2
  second : oid.getD 0 0 < 2 → oid.getD 1 0 < 40
  small : ∀ x ∈ oid, x < 2 ^ 32

/-- The object identifier is encoded, and the decoder makes it of what has been written. -/
def OidReturns (e : Encoder) (oid : List Nat) : Prop :=
  ∃ e', berFromOid e oid = (e', true)
    ∧ ∃ d, oidFromBer ⟨slice e'.dst e.dstHead (e'.dstHead - e.dstHead), 0⟩ = some (oid, d)

section
variable {e e' : Encoder} {oid : List Nat}

theorem outByte_fits (b : UInt8) (h : e.dstHead < e.dst.length) :
    outByte e b = (⟨e.dst.set e.dstHead b, e.dstHead + 1⟩, true) := if_neg (by omega)

/-- An object identifier is a level whose reserve is one octet. -/
theorem berFromOid_eq (hlen : oid.length < BER_MAX_OID_ELEMENTS)
    (hroom : e.dstHead + 1 < e.dst.length) :
    berFromOid e oid = writeLevel
      ⟨e.dst.set e.dstHead (UInt8.ofNat asnOBJECT_ID), e.dstHead + 1⟩ 1 (oidOctets oid) := by
  have hpos : saveOutState ⟨e.dst.set e.dstHead (UInt8.ofNat asnOBJECT_ID), e.dstHead + 1⟩ 0 =
      e.dstHead + 1 := if_neg (by simp; omega)
  rw [berFromOid, if_neg (by omega), berFromTypecode, outByte_fits _ (by omega)]
  dsimp only
  rw [hpos]
  rfl

theorem take_set_succ {dst : Bytes} {head : Nat} (b : UInt8) (h : head < dst.length) :
    (dst.set head b).take (head + 1) = dst.take head ++ [b] := by
  rw [List.take_add_one, List.take_set_of_le (Nat.le_refl _), List.getElem?_set_self h]
  rfl

/-- Wherever a level is closed its length stands in front. -/
theorem annotateLength_front (c rest : Bytes) (reserved n : Nat)
    (hsize : c.length + reserved + n < (c ++ rest).length)
    (hlen : (lengthOctets n).length ≤ rest.length) (hn : n < 2 ^ 32) :
    ∃ more, annotateLength ⟨c ++ rest, c.length + reserved + n⟩ c.length reserved =
      (⟨c ++ lengthOctets n ++ more, c.length + (lengthOctets n).length + n⟩, true) := by
  have hmade : bytesMade ⟨c ++ rest, c.length + reserved + n⟩ c.length reserved = n := by
    unfold bytesMade
    dsimp only
    omega
  rw [annotateLength, if_neg (by dsimp only; omega)]
  dsimp only
  rw [hmade, berFromLength_append c n hlen]
  dsimp only
  split_ifs
  · rw [patch, List.take_left' rfl, List.append_assoc (c ++ lengthOctets n), List.length_append]
    exact ⟨_, rfl⟩
  · rw [List.length_append]
    exact ⟨_, rfl⟩

/-- What stands in the buffer when an object identifier has been encoded. -/
theorem berFromOid_front (hlen : oid.length < BER_MAX_OID_ELEMENTS)
    (hroom : e.dstHead + (oidOctets oid).length + 2 ≤ e.dst.length)
    (hcontents : (lengthOctets (oidOctets oid).length).length ≤ (oidOctets oid).length + 1)
    (hsize : e.dst.length < 2 ^ 31) (h : berFromOid e oid = (e', true)) :
    e.dstHead + (oidOctets oid).length + 2 < e.dst.length
    ∧ ∃ more, slice e'.dst e.dstHead (e'.dstHead - e.dstHead) =
      UInt8.ofNat asnOBJECT_ID :: (lengthOctets (oidOctets oid).length ++ more) := by
  have hset : (e.dst.set e.dstHead (UInt8.ofNat asnOBJECT_ID)).length = e.dst.length :=
    List.length_set
  have htake : ((e.dst.set e.dstHead (UInt8.ofNat asnOBJECT_ID)).take (e.dstHead + 1)).length =
      e.dstHead + 1 := List.length_take_of_le (by omega)
  rw [berFromOid_eq hlen (by omega), writeLevel_eq (by dsimp only; omega)] at h
  dsimp only at h
  by_cases hfull : e.dst.length ≤ e.dstHead + (oidOctets oid).length + 2
  · rw [annotateLength, if_pos] at h
    · cases h
    · simp only [List.length_append, List.length_drop, htake, length_zeros]
      omega
  refine ⟨Nat.lt_of_not_le hfull, ?_⟩
  obtain ⟨more, hrun⟩ := annotateLength_front
    ((e.dst.set e.dstHead (UInt8.ofNat asnOBJECT_ID)).take (e.dstHead + 1))
    (zeros 1 ++ oidOctets oid ++ (e.dst.set e.dstHead (UInt8.ofNat asnOBJECT_ID)).drop
      (e.dstHead + 1 + 1 + (oidOctets oid).length)) 1 (oidOctets oid).length
    (by simp only [List.length_append, List.length_drop, htake, length_zeros]; omega)
    (by simp only [List.length_append, length_zeros]; omega) (by omega)
  rw [htake] at hrun
  rw [hrun] at h
  cases h
  have hhead : (e.dst.take e.dstHead).length = e.dstHead := List.length_take_of_le (by omega)
  have hwritten : e.dstHead + 1 + (lengthOctets (oidOctets oid).length).length +
      (oidOctets oid).length - e.dstHead =
        (lengthOctets (oidOctets oid).length).length + (oidOctets oid).length + 1 := by
    omega
  refine ⟨more.take (oidOctets oid).length, ?_⟩
  dsimp only
  rw [take_set_succ _ (by omega), List.append_assoc, List.append_assoc,
    slice_append_right (by omega), hhead, Nat.sub_self, slice, List.drop_zero,
    List.singleton_append, hwritten, List.take_succ_cons, List.take_append]
  congr 3
  · exact List.take_of_length_le (by omega)
  · omega

end

/-! ## Which object identifiers come back -/

/-- The octets of an element. -/
def arcOctets (x : Nat) : Nat := moreGroups x + 1

/-- The octets of an object identifier whose first two elements share one. -/
def oidSize (oid : List Nat) : Nat := 1 + ((oid.drop 2).map arcOctets).sum

section
variable {e : Encoder} {x y : Nat} {zs : List Nat}

theorem length_flatMap_singleOid (hzs : ∀ z ∈ zs, z < 2 ^ 32) :
    (zs.flatMap singleOid).length = (zs.map arcOctets).sum := by
  induction zs with
  | nil => rfl
  | cons z zs ih =>
    have hz := singleOid_eq (hzs z List.mem_cons_self)
    rw [List.flatMap_cons, List.length_append, List.map_cons, List.sum_cons, hz, length_groups,
      ih fun w hw => hzs w (List.mem_cons_of_mem _ hw), arcOctets]

/-- The first two elements in one octet. -/
theorem oidOctets_shared (hx : x ≤ 2) (hy : y < 40) :
    oidOctets (x :: y :: zs) = UInt8.ofNat (x * 40 + y) :: zs.flatMap singleOid := by
  have hsum : (x * 40 + y) % 4294967296 = x * 40 + y := Nat.mod_eq_of_lt (by omega)
  have hone : moreGroups (x * 40 + y) = 0 := if_pos (by omega)
  have hgroup : (x * 40 + y) % 128 = x * 40 + y := Nat.mod_eq_of_lt (by omega)
  rw [oidOctets, if_pos (by omega), hsum, singleOid_eq (by omega), hone, groups, hgroup]
  rfl

theorem length_oidOctets (hx : x ≤ 2) (hy : y < 40) (hzs : ∀ z ∈ zs, z < 2 ^ 32) :
    (oidOctets (x :: y :: zs)).length = oidSize (x :: y :: zs) := by
  rw [oidOctets_shared hx hy, List.length_cons, length_flatMap_singleOid hzs, oidSize,
    Nat.add_comm]
  rfl

/-- **An object identifier is read back** that is not too long for the decoder. -/
theorem oidFromBer_oidTlv (hx : x ≤ 2) (hy : y < 40) (hzs : ∀ z ∈ zs, z < 2 ^ 32)
    (hlen : zs.length ≤ 30) (hsize : oidSize (x :: y :: zs) ≤ BER_MAX_OID_ELEMENTS) :
    ∃ d, oidFromBer ⟨oidTlv (x :: y :: zs), 0⟩ = some (x :: y :: zs, d) := by
  have hcontents := length_oidOctets hx hy hzs
  have hlength := lengthFromBer_lengthOctets (n := (oidOctets (x :: y :: zs)).length)
    (oidOctets (x :: y :: zs)) 1 (by unfold BER_MAX_OID_ELEMENTS at hsize; omega)
  have hoctet : (UInt8.ofNat (x * 40 + y)).toNat = x * 40 + y := by
    simp
    omega
  have hfirst : (x * 40 + y) / 40 = x := by omega
  have hlater := @oidElements_flatMap zs (BER_MAX_OID_ELEMENTS - 2) hzs hlen [x, y] []
    (1 + (lengthOctets (oidOctets (x :: y :: zs)).length).length + 1)
  have hpos : 0 < oidSize (x :: y :: zs) := Nat.lt_of_lt_of_le Nat.one_pos (Nat.le_add_right _ _)
  rw [oidTlv, tlv, oidFromBer]
  simp only [List.cons_append, nextByte_cons, Option.bind_eq_bind, Option.bind_some, Nat.zero_add]
  rw [if_neg (by decide), hlength, Option.bind_some]
  dsimp only
  rw [if_neg (by omega), oidOctets_shared hx hy]
  simp only [nextByte_cons, Option.bind_some, List.length_cons, Nat.add_sub_cancel, hoctet, hfirst,
    Nat.add_sub_cancel_left]
  rw [oidOctets_shared hx hy, List.length_cons, List.append_nil] at hlater
  exact ⟨_, hlater⟩

/-- The decoder takes no more octets than an object identifier has elements, and the second element
that it finds is below 40. -/
theorem oidFromBer_some {n : Nat} {more : Bytes} {d : Decoder} (hn : n < 2 ^ 32)
    (h : oidFromBer ⟨UInt8.ofNat asnOBJECT_ID :: (lengthOctets n ++ more), 0⟩ =
      some (x :: y :: zs, d)) : n ≤ BER_MAX_OID_ELEMENTS ∧ y < 40 := by
  rw [oidFromBer] at h
  simp only [nextByte_cons, Option.bind_eq_bind, Option.bind_some, Nat.zero_add] at h
  rw [if_neg (by decide), lengthFromBer_lengthOctets more 1 hn, Option.bind_some] at h
  dsimp only at h
  split at h
  · cases h
  · rename_i hshort
    rw [not_or, Nat.not_lt] at hshort
    cases more with
    | nil => cases h
    | cons b more =>
      simp only [nextByte_cons, Option.bind_some] at h
      obtain ⟨t, ht⟩ := oidElements_prefix h
      simp only [List.cons_append, List.nil_append, List.cons.injEq] at ht
      obtain ⟨-, hy, -⟩ := ht
      exact ⟨hshort.1, by omega⟩

/-- **An object identifier comes back** exactly if its second element is below 40, it takes no more
octets than it may have elements, and an octet of the buffer is left. -/
theorem oid_returns_iff {oid : List Nat} (hoid : ValidOid oid)
    (hroom : e.dstHead + (oidTlv oid).length ≤ e.dst.length) (hsize : e.dst.length < 2 ^ 31) :
    OidReturns e oid ↔ oid.getD 1 0 < 40 ∧ oidSize oid ≤ BER_MAX_OID_ELEMENTS
      ∧ e.dstHead + oidSize oid + 2 < e.dst.length := by
  obtain ⟨htwo, hshort, hx, -, hsmall⟩ := hoid
  obtain ⟨x, y, zs, rfl⟩ : ∃ x y zs, oid = x :: y :: zs := by
    match oid, htwo with
    | x :: y :: zs, _ => exact ⟨x, y, zs, rfl⟩
  have hzs : ∀ z ∈ zs, z < 2 ^ 32 := fun z hz =>
    hsmall z (List.mem_cons_of_mem _ (List.mem_cons_of_mem _ hz))
  change x ≤ 2 at hx
  have hfront := two_le_front (oidOctets (x :: y :: zs))
  have htlv : (oidTlv (x :: y :: zs)).length =
      front (oidOctets (x :: y :: zs)) + (oidOctets (x :: y :: zs)).length := length_tlv _ _
  show OidReturns e (x :: y :: zs) ↔ y < 40 ∧ _ ∧ _
  constructor
  · rintro ⟨e', hrun, d, hread⟩
    have hfive := length_lengthOctets_le (oidOctets (x :: y :: zs)).length
    have hcontents : (lengthOctets (oidOctets (x :: y :: zs)).length).length ≤
        (oidOctets (x :: y :: zs)).length + 1 := by
      by_cases hone : (oidOctets (x :: y :: zs)).length < 128
      · rw [length_lengthOctets_of_lt hone]
        omega
      · omega
    obtain ⟨hleft, more, hslice⟩ := berFromOid_front hshort (by omega) hcontents hsize hrun
    rw [hslice] at hread
    obtain ⟨hmax, hy⟩ := oidFromBer_some (by omega) hread
    rw [length_oidOctets hx hy hzs] at hmax hleft
    exact ⟨hy, hmax, hleft⟩
  · rintro ⟨hy, hmax, hleft⟩
    have hcontents := length_oidOctets hx hy hzs
    have hlt : (oidOctets (x :: y :: zs)).length < 128 := by
      unfold BER_MAX_OID_ELEMENTS at hmax
      omega
    have htake : (e.dst.take e.dstHead).length = e.dstHead := List.length_take_of_le (by omega)
    have hholds : Holds e (e.dst.take e.dstHead) (0 + 1 + (oidTlv (x :: y :: zs)).length) := by
      refine ⟨e.dst.drop e.dstHead, ?_, ?_⟩
      · rw [List.take_append_drop, htake]
      · rw [length_oidTlv hlt, List.length_drop]
        omega
    obtain ⟨⟨rest, he', -⟩, hok⟩ := berFromOid_holds hholds hshort hlt
    obtain ⟨d, hread⟩ := oidFromBer_oidTlv hx hy hzs (by
      unfold BER_MAX_OID_ELEMENTS at hshort
      simp only [List.length_cons] at hshort
      omega) hmax
    refine ⟨(berFromOid e (x :: y :: zs)).1, by rw [← hok], d, ?_⟩
    rw [he']
    dsimp only
    rw [List.length_append, htake, Nat.add_sub_cancel_left, List.append_assoc,
      slice_append_right (by omega), htake, Nat.sub_self, slice_append_left (by omega),
      slice_zero (Nat.le_refl _)]
    exact hread

end

/-- The identifier of SPNEGO, in a buffer with an octet more than it needs. -/
theorem spnego_oid_returns : OidReturns (.new 9) [1, 3, 6, 1, 5, 5, 2] :=
  (oid_returns_iff ⟨by decide, by decide, by decide, by decide, by decide⟩ (by decide)
    (by decide)).mpr (by decide)

/-- The identifier 2.40 is read as 3.0. -/
theorem second_element_is_lost : (ValidOid [2, 40] ∧ (oidTlv [2, 40]).length ≤ 4) ∧
    ¬ OidReturns (.new 4) [2, 40] := by
  refine ⟨⟨⟨by decide, by decide, by decide, by decide, by decide⟩, by decide⟩, fun h => ?_⟩
  obtain ⟨e', hrun, d, hread⟩ := h
  have hwritten : (berFromOid (.new 4) [2, 40]).1 = ⟨[6, 1, 120, 0], 3⟩ := by decide
  rw [hrun] at hwritten
  obtain rfl : e' = ⟨[6, 1, 120, 0], 3⟩ := hwritten
  have hlost : oidFromBer ⟨slice [6, 1, 120, 0] 0 3, 0⟩ = some ([3, 0], ⟨[], 3⟩) := by decide
  cases hread.symm.trans hlost

end Libsmb2.Asn1Ber
