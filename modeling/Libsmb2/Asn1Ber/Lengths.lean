import Libsmb2.Asn1Ber

/-!
# Lengths that are written later

A level is opened with room for its length; when its contents stand behind the room the length is
written and the contents are moved up to it.  `asn1ber_annotate_length` does nothing when the buffer
is full, although it needs no more room.

* `minimal_lengthOctets` — no other octets that are read as a length are fewer;
* `level_closes_iff` — a level is closed exactly if an octet is left behind its contents.
-/

set_option autoImplicit false

namespace Libsmb2.Asn1Ber

open Util

/-! ## The fewest octets of a length -/

/-- These octets are read as a length, whatever follows them. -/
def ReadsLength (n : Nat) (os : Bytes) : Prop :=
  ∀ rest tail, lengthFromBer ⟨os ++ rest, tail⟩ = some (n, ⟨rest, tail + os.length⟩)

/-- And no fewer are. -/
structure MinimalLength (n : Nat) (os : Bytes) : Prop where
  reads : ReadsLength n os
  fewest : ∀ os', ReadsLength n os' → os.length ≤ os'.length

theorem octetsNeeded_le_of_lt {j k n : Nat} (h : n < 256 ^ k) : octetsNeeded j n ≤ k := by
  induction j generalizing k n with
  | zero => exact Nat.zero_le k
  | succ j ih =>
    rw [octetsNeeded]
    split
    · exact Nat.zero_le k
    · cases k with
      | zero => omega
      | succ k =>
        rw [Nat.pow_succ'] at h
        exact Nat.succ_le_succ (ih (by omega))

/-- A number of so many octets. -/
theorem numberFromBer_some {k v n : Nat} {d d' : Decoder}
    (h : numberFromBer k v d = some (n, d')) :
    d.src.length = k + d'.src.length ∧ n < (v + 1) * 256 ^ k := by
  induction k generalizing v d with
  | zero =>
    cases h
    exact ⟨(Nat.zero_add _).symm, by omega⟩
  | succ k ih =>
    obtain ⟨src, tail⟩ := d
    cases src with
    | nil => cases h
    | cons b src =>
      simp only [numberFromBer, nextByte_cons, Option.bind_eq_bind, Option.bind_some] at h
      obtain ⟨hlen, hlt⟩ := ih h
      have hb := b.toNat_lt
      have hle : (v * 256 + b.toNat) % 4294967296 + 1 ≤ (v + 1) * 256 := by omega
      change src.length = k + d'.src.length at hlen
      refine ⟨?_, ?_⟩
      · rw [List.length_cons, hlen]
        omega
      · calc n < ((v * 256 + b.toNat) % 4294967296 + 1) * 256 ^ k := hlt
          _ ≤ (v + 1) * 256 * 256 ^ k := Nat.mul_le_mul_right _ hle
          _ = (v + 1) * 256 ^ (k + 1) := by rw [Nat.pow_succ', Nat.mul_assoc]

/-- **The length octets of the encoder are the fewest.** -/
theorem minimal_lengthOctets {n : Nat} (hn : n < 2 ^ 32) : MinimalLength n (lengthOctets n) where
  reads rest tail := lengthFromBer_lengthOctets rest tail hn
  fewest os hreads := by
    have h := hreads [] 0
    rw [List.append_nil] at h
    cases os with
    | nil => cases h
    | cons b os =>
      simp only [lengthFromBer, nextByte_cons, Option.bind_eq_bind, Option.bind_some] at h
      by_cases hsmall : n < 128
      · rw [length_lengthOctets_of_lt hsmall]
        exact Nat.le_add_left 1 _
      · have hbig : ¬ b.toNat < 128 := fun hb => by
          rw [if_pos hb] at h
          cases h
          exact hsmall hb
        rw [if_neg hbig] at h
        split at h
        · cases h
        · obtain ⟨hlen, hlt⟩ := numberFromBer_some h
          rw [Nat.zero_add, Nat.one_mul] at hlt
          have hneed := octetsNeeded_le_of_lt (j := 4) hlt
          have hlen : os.length = b.toNat % 128 := hlen
          simp only [lengthOctets, if_neg hsmall, List.length_cons, length_be]
          omega

/-! ## Closing a level -/

/-- A level with this reserve is opened where the encoder stands, filled and closed. -/
def writeLevel (e : Encoder) (reserved : Nat) (body : Bytes) : Encoder × Bool :=
  match reserveLength e reserved with
  | (e', false) => (e', false)
  | (e', true) =>
    match outBytes body e' with
    | (e', false) => (e', false)
    | (e', true) => annotateLength e' e.dstHead reserved

/-- The level is closed: behind what stood before it there is its length in the fewest octets, which
is read back, and its contents, where the encoder goes on. -/
def LevelCloses (e : Encoder) (reserved : Nat) (body : Bytes) : Prop :=
  ∃ e' os, writeLevel e reserved body = (e', true)
    ∧ MinimalLength body.length os
    ∧ e'.dst.length = e.dst.length
    ∧ e'.dst.take e.dstHead = e.dst.take e.dstHead
    ∧ e'.dstHead = e.dstHead + os.length + body.length
    ∧ slice e'.dst e.dstHead (os.length + body.length) = os ++ body
    ∧ ∃ d, lengthFromBer ⟨e'.dst.drop e.dstHead, e.dstHead⟩ = some (body.length, d)

section
variable {e : Encoder} {reserved : Nat} {body : Bytes}
  (hfits : e.dstHead + reserved + body.length ≤ e.dst.length)

include hfits

/-- The reserve and the contents are written. -/
theorem writeLevel_eq : writeLevel e reserved body = annotateLength
    ⟨e.dst.take e.dstHead ++ (zeros reserved ++ body ++
        e.dst.drop (e.dstHead + reserved + body.length)), e.dstHead + reserved + body.length⟩
      e.dstHead reserved := by
  obtain ⟨dst, head⟩ := e
  dsimp only at hfits ⊢
  have hhead : (dst.take head).length = head := List.length_take_of_le (by omega)
  have hzeros := @outBytes_append (zeros reserved) (dst.drop head) (dst.take head)
    (by rw [length_zeros, List.length_drop]; omega)
  rw [hhead, List.take_append_drop, length_zeros, List.drop_drop] at hzeros
  have hlen : (dst.take head ++ zeros reserved).length = head + reserved := by
    rw [List.length_append, hhead, length_zeros]
  have hbody := @outBytes_append body (dst.drop (head + reserved))
    (dst.take head ++ zeros reserved) (by rw [List.length_drop]; omega)
  rw [List.drop_drop] at hbody
  have hend : (dst.take head ++ zeros reserved ++ body).length =
      head + reserved + body.length := by
    rw [List.length_append, hlen]
  unfold writeLevel
  rw [reserveLength, hzeros]
  dsimp only
  rw [hbody, hend]
  dsimp only
  rw [List.append_assoc, List.append_assoc, List.append_assoc (zeros reserved)]

/-- **A level is closed** exactly if its contents do not fill the buffer. -/
theorem level_closes_iff (hlen : (lengthOctets body.length).length ≤ reserved)
    (hsize : e.dst.length < 2 ^ 31) :
    LevelCloses e reserved body ↔ e.dstHead + reserved + body.length < e.dst.length := by
  have hbody : body.length < 2 ^ 32 := by omega
  have htake : (e.dst.take e.dstHead).length = e.dstHead := List.length_take_of_le (by omega)
  have hrest : (e.dst.drop (e.dstHead + reserved + body.length)).length =
      e.dst.length - (e.dstHead + reserved + body.length) := List.length_drop
  constructor
  · rintro ⟨e', os, hrun, -⟩
    rw [writeLevel_eq hfits] at hrun
    by_contra hfull
    have hroom : (e.dst.take e.dstHead ++ (zeros reserved ++ body ++
        e.dst.drop (e.dstHead + reserved + body.length))).length ≤
        e.dstHead + reserved + body.length := by
      simp only [List.length_append, htake, length_zeros, hrest]
      omega
    rw [annotateLength, if_pos hroom] at hrun
    cases hrun
  · intro hroom
    have hrun := @annotateLength_append (e.dst.take e.dstHead) body
      (e.dst.drop (e.dstHead + reserved + body.length)) reserved (by omega) hlen hbody
    rw [htake] at hrun
    have hos : (e.dst.take e.dstHead ++ lengthOctets body.length).length =
        e.dstHead + (lengthOctets body.length).length := by
      rw [List.length_append, htake]
    refine ⟨_, lengthOctets body.length, (writeLevel_eq hfits).trans hrun,
      minimal_lengthOctets hbody, ?_, ?_, ?_, ?_, ?_⟩
    · simp only [List.length_append, List.length_drop, htake, length_zeros]
      omega
    · dsimp only
      rw [List.append_assoc, List.append_assoc]
      exact List.take_left' htake
    · exact congrArg (· + body.length) hos
    · dsimp only
      rw [List.append_assoc, List.append_assoc, slice_append_right (by omega), htake, Nat.sub_self,
        ← List.append_assoc, ← List.length_append, slice_append_left (by omega)]
      exact slice_zero (Nat.le_refl _)
    · dsimp only
      rw [List.append_assoc, List.append_assoc, List.drop_left' htake]
      exact ⟨_, lengthFromBer_lengthOctets _ _ hbody⟩

end

/-- One octet of contents behind one of reserve, and one octet more. -/
theorem level_closes_in_three : LevelCloses (.new 3) 1 [7] :=
  (level_closes_iff (by decide) (by decide) (by decide)).mpr (by decide)

/-- The contents fill the buffer. -/
theorem full_buffer_is_not_closed :
    (lengthOctets [(7 : UInt8)].length).length ≤ 1 ∧ ¬ LevelCloses (.new 2) 1 [7] := by
  refine ⟨by decide, fun h => ?_⟩
  obtain ⟨e', os, hrun, -⟩ := h
  have hfails : (writeLevel (.new 2) 1 [7]).2 = false := by decide
  rw [hrun] at hfails
  cases hfails

end Libsmb2.Asn1Ber
