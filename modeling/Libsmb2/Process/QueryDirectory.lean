import Libsmb2.Process

/-!
# The reply to a QUERY_DIRECTORY

`smb2_process_query_directory_fixed` and `smb2_process_query_directory_variable`: what of the
variable part is taken for the listing.  The sum of the offset and the length is compared with the
length of the message after it has wrapped.

* `listing_lies_in_reply_iff` — when the listing lies in what was read.
-/

set_option autoImplicit false

namespace Libsmb2

open Util

/-- `struct smb2_query_directory_reply`, without the buffer. -/
structure QueryDirectoryReply where
  outputBufferOffset : Nat
  outputBufferLength : Nat
  deriving DecidableEq, Repr

def QUERY_DIRECTORY_REPLY_SIZE : Nat := 9

/-- `IOV_OFFSET_DIRECTORY`, an `int`. -/
def QueryDirectoryReply.iovOffset (rep : QueryDirectoryReply) : Int :=
  (rep.outputBufferOffset : Int) - HEADER_SIZE - 8

/-- `smb2_process_query_directory_fixed`; `none` is -1. -/
def processQueryDirectoryFixed (spl : Nat) (iov : Bytes) : Option (Int × QueryDirectoryReply) :=
  if fromLe (slice iov 0 2) ≠ QUERY_DIRECTORY_REPLY_SIZE ∨ iov.length ≠ 8 then none
  else
    let rep : QueryDirectoryReply := {
      outputBufferOffset := fromLe (slice iov 2 2)
      outputBufferLength := fromLe (slice iov 4 4) }
    if rep.outputBufferLength ≠ 0 ∧
        spl < (rep.outputBufferOffset + rep.outputBufferLength) % 2 ^ 32 then none
    else if rep.outputBufferLength = 0 then some (0, rep)
    else if rep.outputBufferOffset < HEADER_SIZE + 8 then none
    else some (toInt32 (rep.iovOffset + rep.outputBufferLength), rep)

/-- `smb2_process_query_directory_variable`: where the listing begins, and how long it is. -/
def processQueryDirectoryVariable (rep : QueryDirectoryReply) : Int × Nat :=
  (rep.iovOffset, rep.outputBufferLength)

/-- The part of a buffer of `n` octets that begins here and is so long lies in it. -/
def LiesIn (part : Int × Nat) (n : Int) : Prop := 0 ≤ part.1 ∧ part.1 + part.2 ≤ n

instance (part : Int × Nat) (n : Int) : Decidable (LiesIn part n) :=
  inferInstanceAs (Decidable (_ ∧ _))

/-- What is taken for the listing lies in the variable part. -/
def ListingFits (spl : Nat) (iov : Bytes) : Prop :=
  ∀ n rep, processQueryDirectoryFixed spl iov = some (n, rep) → 0 < n →
    LiesIn (processQueryDirectoryVariable rep) n

/-- The end of the buffer wraps to a place behind the fixed part and inside the message. -/
def EndWraps (spl : Nat) (rep : QueryDirectoryReply) : Prop :=
  2 ^ 32 + 72 < rep.outputBufferOffset + rep.outputBufferLength ∧
    rep.outputBufferOffset + rep.outputBufferLength - 2 ^ 32 ≤ spl

instance (spl : Nat) (rep : QueryDirectoryReply) : Decidable (EndWraps spl rep) :=
  inferInstanceAs (Decidable (_ ∧ _))

/-- The fields of a fixed part of the right size. -/
def queryDirectoryFields (iov : Bytes) : Option QueryDirectoryReply :=
  if fromLe (slice iov 0 2) ≠ QUERY_DIRECTORY_REPLY_SIZE ∨ iov.length ≠ 8 then none
  else some ⟨fromLe (slice iov 2 2), fromLe (slice iov 4 4)⟩

/-- **The listing lies in the variable part exactly if its end does not wrap.** -/
theorem listing_lies_in_reply_iff (spl : Nat) (iov : Bytes) :
    ListingFits spl iov ↔ ∀ rep, queryDirectoryFields iov = some rep → ¬ EndWraps spl rep := by
  have hoff := fromLe_slice_lt iov 2 2
  have hlen := fromLe_slice_lt iov 4 4
  unfold ListingFits processQueryDirectoryFixed queryDirectoryFields
  split
  · simp
  · simp only [Option.some.injEq, forall_eq']
    generalize fromLe (slice iov 2 2) = off at hoff
    generalize fromLe (slice iov 4 4) = len at hlen
    simp only [QueryDirectoryReply.iovOffset, processQueryDirectoryVariable]
    have hheader : HEADER_SIZE = 64 := rfl
    constructor
    · intro hall hwraps
      obtain ⟨hlow, hspl⟩ := hwraps
      simp only at hlow hspl
      have hmod : (off + len) % 2 ^ 32 = off + len - 2 ^ 32 := by omega
      have hret : toInt32 ((off : Int) - HEADER_SIZE - 8 + len) = (off + len - 2 ^ 32 - 72 : Nat) := by
        unfold toInt32
        simp only
        split <;> omega
      have hlies := hall _ ⟨off, len⟩ (by
        rw [if_neg (by omega), if_neg (by omega), if_neg (by omega)]) (by omega)
      unfold LiesIn at hlies
      simp only at hlies
      omega
    · intro hnot n rep hfixed hpos
      split at hfixed
      · cases hfixed
      · rename_i hin
        split at hfixed
        · cases hfixed
          omega
        · split at hfixed
          · cases hfixed
          · cases hfixed
            obtain ⟨hval, hsmall⟩ := toInt32_pos hpos
            have hwrap : ¬ (2 ^ 32 + 72 < off + len ∧ off + len - 2 ^ 32 ≤ spl) := hnot
            unfold LiesIn
            simp only
            omega

/-- The buffer begins eight octets behind the fixed part and ends 2^32 octets behind seven octets
behind it. -/
def wrappingReply : Bytes := le 2 9 ++ le 2 80 ++ le 4 4294967295

/-- Seven octets are read, and the listing is said to have 2^32 - 1. -/
theorem a_listing_of_4_GiB_is_taken_from_seven_octets :
    processQueryDirectoryFixed 100 wrappingReply = some (7, ⟨80, 4294967295⟩) ∧
      ¬ ListingFits 100 wrappingReply := by
  have hfixed : processQueryDirectoryFixed 100 wrappingReply = some (7, ⟨80, 4294967295⟩) := by
    decide +kernel
  refine ⟨hfixed, fun hall => ?_⟩
  exact absurd (hall 7 _ hfixed (by decide)) (by decide)

end Libsmb2
