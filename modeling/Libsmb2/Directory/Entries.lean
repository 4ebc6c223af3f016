import Libsmb2.Directory

/-!
# The entries that a listing consists of

`decode_dirents` on a reply of any octets, with whatever the stack holds in the structure that
the entries are decoded into (`stale`).  The loop does not look at what the decoder returns, so
an entry that cannot be decoded is added as the one before it once more, and is stepped over by
the `next_entry_offset` of that one.  An error ends the loop, but what has been added stays.

* `decodeDirents_decoded` — without a malformed entry each entry is added as its octets say;
* `dirents_are_decoded_iff` — the entries added are those of the reply, each decoded from its own
  octets, exactly if the entries do not lead to a malformed one;
* `a_malformed_entry_is_listed` — three entries, the second of which has no end to its name.
-/

set_option autoImplicit false

namespace Libsmb2.Directory

open Util

/-- The entries of a reply from an offset on, up to the last one, each decoded from its own
octets. -/
inductive Lists (vec : Bytes) : Nat → List FileIdFull → Prop
  | last {offset : Nat} {fs : FileIdFull} (hin : offset < vec.length)
      (hfs : decodeFileIdFull (vec.drop offset) = some fs) (hlast : fs.nextEntryOffset = 0) :
      Lists vec offset [fs]
  | more {offset : Nat} {fs : FileIdFull} {rest : List FileIdFull} (hin : offset < vec.length)
      (hfs : decodeFileIdFull (vec.drop offset) = some fs) (hnext : fs.nextEntryOffset ≠ 0)
      (hrest : Lists vec ((offset + fs.nextEntryOffset) % 2 ^ 32) rest) :
      Lists vec offset (fs :: rest)

/-- Some entries of a reply from an offset on, each decoded from its own octets, and none of them
the last one. -/
inductive Begins (vec : Bytes) : Nat → List FileIdFull → Prop
  | nil (offset : Nat) : Begins vec offset []
  | cons {offset : Nat} {fs : FileIdFull} {rest : List FileIdFull} (hin : offset < vec.length)
      (hfs : decodeFileIdFull (vec.drop offset) = some fs) (hnext : fs.nextEntryOffset ≠ 0)
      (hrest : Begins vec ((offset + fs.nextEntryOffset) % 2 ^ 32) rest) :
      Begins vec offset (fs :: rest)

/-- Every entry that has been added was decoded, and behind a 0 there is no other. -/
def OfReply (vec : Bytes) : Listing → Prop
  | .entries dir => Lists vec 0 dir.reverse
  | .failed dir => Begins vec 0 dir.reverse
  | .uninitialised => False

/-- Whatever `decode_dirents` returns, what it has added are entries of the reply. -/
def Faithful (vec : Bytes) (stale : FileIdFull) : Prop :=
  ∀ mem, OfReply vec (decodeDirents vec mem 0 (some stale) [])

/-- The entries lead to one that cannot be decoded. -/
inductive LeadsToMalformed (vec : Bytes) : Nat → Prop
  | here {offset : Nat} (hin : offset < vec.length)
      (hbad : decodeFileIdFull (vec.drop offset) = none) : LeadsToMalformed vec offset
  | later {offset : Nat} {fs : FileIdFull} (hin : offset < vec.length)
      (hfs : decodeFileIdFull (vec.drop offset) = some fs) (hnext : fs.nextEntryOffset ≠ 0)
      (hrest : LeadsToMalformed vec ((offset + fs.nextEntryOffset) % 2 ^ 32)) :
      LeadsToMalformed vec offset

section
variable {vec : Bytes} {offset : Nat} {fs : FileIdFull}

/-- What is accepted lies in the buffer, its name included. -/
theorem decodeFileIdFull_fits (h : decodeFileIdFull vec = some fs) :
    80 + fromLe (slice vec 60 4) ≤ vec.length := by
  unfold decodeFileIdFull at h
  simp only at h
  split at h
  · cases h
  · omega

/-- A turn of the loop, at an entry that is decoded. -/
theorem decodeDirents_some {found : FileIdFull} (hin : offset < vec.length)
    (hfound : decodeFileIdFull (vec.drop offset) = some found) (mem : Nat) (fs : FileIdFull)
    (dir : List FileIdFull) :
    decodeDirents vec (mem + 1) offset (some fs) dir =
      if found.nextEntryOffset = 0 then .entries (found :: dir)
      else decodeDirents vec mem ((offset + found.nextEntryOffset) % 2 ^ 32) (some found)
        (found :: dir) := by
  rw [decodeDirents, if_neg (by omega), hfound, Option.or_some]
  rfl

/-! ## Without a malformed entry -/

/-- What the loop adds are decoded entries, unless they lead to a malformed one. -/
theorem decodeDirents_decoded (hgood : ¬ LeadsToMalformed vec offset) (mem : Nat) (fs : FileIdFull)
    (dir : List FileIdFull) :
    (∃ l, decodeDirents vec mem offset (some fs) dir = .entries (l.reverse ++ dir) ∧
      Lists vec offset l) ∨
      ∃ l, decodeDirents vec mem offset (some fs) dir = .failed (l.reverse ++ dir) ∧
        Begins vec offset l := by
  induction mem generalizing offset fs dir with
  | zero => exact .inr ⟨[], rfl, .nil offset⟩
  | succ mem ih =>
    by_cases hin : offset < vec.length
    swap
    · exact .inr ⟨[], if_pos (by omega), .nil offset⟩
    cases hfound : decodeFileIdFull (vec.drop offset) with
    | none => exact absurd (.here hin hfound) hgood
    | some found =>
      rw [decodeDirents_some hin hfound]
      have hrev : ∀ l, (found :: l).reverse ++ dir = l.reverse ++ found :: dir := fun l => by simp
      by_cases hnext : found.nextEntryOffset = 0
      · rw [if_pos hnext]
        exact .inl ⟨[found], rfl, .last hin hfound hnext⟩
      · rw [if_neg hnext]
        rcases ih (fun h => hgood (.later hin hfound hnext h)) found (found :: dir) with
          ⟨l, hl, hlists⟩ | ⟨l, hl, hbegins⟩
        · exact .inl ⟨found :: l, by rw [hl, hrev], .more hin hfound hnext hlists⟩
        · exact .inr ⟨found :: l, by rw [hl, hrev], .cons hin hfound hnext hbegins⟩

/-! ## At a malformed entry -/

/-- Where the entries lead to a malformed one, the loop adds what is no list of decoded entries. -/
theorem LeadsToMalformed.added (h : LeadsToMalformed vec offset) :
    ∃ mem, ∀ (fs : FileIdFull) (dir : List FileIdFull), ∃ l,
      (decodeDirents vec mem offset (some fs) dir = .entries (l.reverse ++ dir) ∨
        decodeDirents vec mem offset (some fs) dir = .failed (l.reverse ++ dir)) ∧
      ¬ Lists vec offset l ∧ ¬ Begins vec offset l := by
  induction h with
  | @here offset hin hbad =>
    refine ⟨1, fun fs dir => ⟨[fs], ?_, fun hl => ?_, fun hb => ?_⟩⟩
    · rw [decodeDirents, if_neg (by omega), hbad, Option.none_or]
      by_cases hnext : fs.nextEntryOffset = 0
      · exact .inl (if_pos hnext)
      · exact .inr (if_neg hnext)
    · cases hl with
      | last _ hfs _ => cases hbad.symm.trans hfs
      | more _ hfs _ _ => cases hbad.symm.trans hfs
    · cases hb with
      | cons _ hfs _ _ => cases hbad.symm.trans hfs
  | @later offset found hin hfound hnext _ ih =>
    obtain ⟨mem, hmem⟩ := ih
    refine ⟨mem + 1, fun fs dir => ?_⟩
    obtain ⟨l, hrun, hlists, hbegins⟩ := hmem found (found :: dir)
    refine ⟨found :: l, ?_, fun hl => ?_, fun hb => ?_⟩
    · rw [decodeDirents_some hin hfound, if_neg hnext, List.reverse_cons, List.append_assoc]
      exact hrun
    · cases hl with
      | last _ hfs hlast =>
        cases hfound.symm.trans hfs
        exact hnext hlast
      | more _ hfs _ hrest =>
        cases hfound.symm.trans hfs
        exact hlists hrest
    · cases hb with
      | cons _ hfs _ hrest =>
        cases hfound.symm.trans hfs
        exact hbegins hrest

theorem LeadsToMalformed.not_faithful (h : LeadsToMalformed vec 0) (stale : FileIdFull) :
    ¬ Faithful vec stale := by
  intro hall
  obtain ⟨mem, hmem⟩ := h.added
  obtain ⟨l, hrun, hlists, hbegins⟩ := hmem stale []
  have hadded := hall mem
  rcases hrun with hrun | hrun
  · rw [hrun] at hadded
    exact hlists (by simpa [OfReply] using hadded)
  · rw [hrun] at hadded
    exact hbegins (by simpa [OfReply] using hadded)

end

/-- **The entries added are decoded entries, each of its own octets, exactly if the entries of the
reply do not lead to a malformed one**; what the decoder accepts lies in what is left of the
reply. -/
theorem dirents_are_decoded_iff (vec : Bytes) (stale : FileIdFull) :
    (Faithful vec stale ↔ ¬ LeadsToMalformed vec 0) ∧
      ∀ offset fs, decodeFileIdFull (vec.drop offset) = some fs →
        80 + fromLe (slice (vec.drop offset) 60 4) ≤ vec.length - offset := by
  refine ⟨⟨fun hall hbad => hbad.not_faithful stale hall, fun hgood mem => ?_⟩,
    fun offset fs hfs => ?_⟩
  · rcases decodeDirents_decoded hgood mem stale [] with ⟨l, hl, hlists⟩ | ⟨l, hl, hbegins⟩
    · rw [hl]
      simpa [OfReply] using hlists
    · rw [hl]
      simpa [OfReply] using hbegins
  · have hfits := decodeFileIdFull_fits hfs
    rwa [List.length_drop] at hfits

/-- An entry without a name and another one 80 octets behind it; one whose name has more octets
than the reply; and a last one, without a name. -/
def malformedReply : Bytes :=
  (le 4 80 ++ zeros 76) ++ (zeros 60 ++ le 4 161 ++ zeros 16) ++ zeros 80

/-- The second entry cannot be decoded, and the loop adds the first one in its place: before the
last one, and before the error where there is no last one. -/
theorem a_malformed_entry_is_listed :
    decodeFileIdFull (malformedReply.drop 80) = none ∧
    (∃ first last, decodeFileIdFull malformedReply = some first ∧
      decodeDirents malformedReply 3 0 (some {}) [] = .entries [last, first, first] ∧
      decodeDirents (malformedReply.take 160) 3 0 (some {}) [] = .failed [first, first]) ∧
    ¬ Faithful malformedReply {} ∧ ¬ Faithful (malformedReply.take 160) {} := by
  have hfirst : ∀ vec ∈ [malformedReply, malformedReply.take 160],
      (decodeFileIdFull vec).map FileIdFull.nextEntryOffset = some 80 ∧
        80 < vec.length ∧ decodeFileIdFull (vec.drop 80) = none := by decide +kernel
  have hbad : ∀ vec ∈ [malformedReply, malformedReply.take 160], LeadsToMalformed vec 0 := by
    intro vec hvec
    obtain ⟨hmap, hlen, hnone⟩ := hfirst vec hvec
    obtain ⟨first, hdecode, hnext⟩ := Option.map_eq_some_iff.mp hmap
    refine .later (by omega) hdecode (by omega) ?_
    rw [hnext]
    exact .here hlen hnone
  refine ⟨(hfirst _ List.mem_cons_self).2.2, ?_, (hbad _ List.mem_cons_self).not_faithful _,
    (hbad _ (List.mem_cons_of_mem _ List.mem_cons_self)).not_faithful _⟩
  refine ⟨(decodeFileIdFull malformedReply).getD {},
    (decodeFileIdFull (malformedReply.drop 160)).getD {}, ?_⟩
  decide +kernel

end Libsmb2.Directory
