import Libsmb2.Directory

/-!
# The offsets that the enumeration visits

The loop of `decode_dirents` on a reply of any octets: the offsets of the entries that it
decodes.  The offset is a `uint32_t`; an entry that is not decoded leaves `next_entry_offset` as
it was, which for the first entry is whatever the stack holds (`stale`).

* `enumeration_terminates_iff` — the offsets increase, stay in the reply and are at most as many
  as it has octets, exactly if no entry is followed by one at 2^32 or behind;
* `a_reply_of_two_entries_is_endless` — a reply whose second entry leads back to the first.
-/

set_option autoImplicit false

namespace Libsmb2.Directory

open Util

/-- `fs.next_entry_offset` after the entry at an offset. -/
def nextEntryOffset (vec : Bytes) (offset stale : Nat) : Nat :=
  match decodeFileIdFull (vec.drop offset) with
  | some fs => fs.nextEntryOffset
  | none => stale

/-- The offsets that the loop of `decode_dirents` visits with memory for so many entries. -/
def visited (vec : Bytes) : Nat → Nat → Nat → List Nat
  | 0, _, _ => []
  | mem + 1, offset, stale =>
    if vec.length ≤ offset then []
    else
      let next := nextEntryOffset vec offset stale
      offset :: if next = 0 then [] else visited vec mem ((offset + next) % 2 ^ 32) next

/-- The visited offsets increase strictly, are offsets of the reply, and are at most as many as
it has octets. -/
def Advances (vec : Bytes) (offsets : List Nat) : Prop :=
  offsets.Pairwise (· < ·) ∧ (∀ o ∈ offsets, o < vec.length) ∧ offsets.length ≤ vec.length

/-- An entry follows, by the increments of the reply and without a bound on their sum, at this
offset, behind one with this `next_entry_offset`. -/
inductive Follows (vec : Bytes) (stale : Nat) : Nat → Nat → Prop
  | first : Follows vec stale 0 stale
  | next {offset before : Nat} (h : Follows vec stale offset before) (hin : offset < vec.length)
      (hnext : nextEntryOffset vec offset before ≠ 0) :
      Follows vec stale (offset + nextEntryOffset vec offset before)
        (nextEntryOffset vec offset before)

/-- No entry follows at 2^32 or behind. -/
def Bounded (vec : Bytes) (stale : Nat) : Prop :=
  ∀ offset before, Follows vec stale offset before → offset < 2 ^ 32

theorem nextEntryOffset_lt {vec : Bytes} {offset stale : Nat} (h : stale < 2 ^ 32) :
    nextEntryOffset vec offset stale < 2 ^ 32 := by
  unfold nextEntryOffset
  split
  · rename_i fs hfs
    unfold decodeFileIdFull at hfs
    dsimp only at hfs
    split at hfs
    · cases hfs
    · cases hfs
      show fromLe (slice (vec.drop offset) 0 4) < 2 ^ 32
      have hlt := fromLe_lt (slice (vec.drop offset) 0 4)
      have hlen : (slice (vec.drop offset) 0 4).length ≤ 4 := by
        rw [length_slice]
        omega
      exact Nat.lt_of_lt_of_le hlt (Nat.pow_le_pow_right (by decide) hlen)
  · exact h

section
variable {vec : Bytes}

theorem visited_end {offset : Nat} (h : vec.length ≤ offset) (mem stale : Nat) :
    visited vec mem offset stale = [] := by
  cases mem with
  | zero => rfl
  | succ mem => exact if_pos h

theorem visited_succ {offset : Nat} (h : offset < vec.length) (mem stale : Nat) :
    visited vec (mem + 1) offset stale =
      offset :: if nextEntryOffset vec offset stale = 0 then []
        else visited vec mem ((offset + nextEntryOffset vec offset stale) % 2 ^ 32)
          (nextEntryOffset vec offset stale) :=
  if_neg (by omega)

/-! ## Increments that do not wrap -/

/-- Every visited offset lies in the reply. -/
theorem visited_lt (mem offset stale : Nat) : ∀ o ∈ visited vec mem offset stale, o < vec.length := by
  induction mem generalizing offset stale with
  | zero => simp [visited]
  | succ mem ih =>
    by_cases hin : offset < vec.length
    · rw [visited_succ hin]
      intro o ho
      rcases List.mem_cons.mp ho with rfl | ho
      · exact hin
      · split at ho
        · cases ho
        · exact ih _ _ o ho
    · have hout : vec.length ≤ offset := by omega
      simp [visited_end hout]

/-- Without a sum over 2^32 the entries are visited where the increments lead. -/
theorem visited_increases {stale : Nat} (hb : Bounded vec stale) (mem : Nat) {offset before : Nat}
    (h : Follows vec stale offset before) :
    (visited vec mem offset before).Pairwise (· < ·) ∧
      ∀ o ∈ visited vec mem offset before, offset ≤ o := by
  induction mem generalizing offset before with
  | zero => exact ⟨List.Pairwise.nil, by simp [visited]⟩
  | succ mem ih =>
    by_cases hin : offset < vec.length
    · rw [visited_succ hin]
      by_cases hnext : nextEntryOffset vec offset before = 0
      · rw [if_pos hnext]
        exact ⟨List.pairwise_singleton _ _, by simp⟩
      · have hfollows := h.next hin hnext
        obtain ⟨hsorted, hge⟩ := ih hfollows
        rw [if_neg hnext, Nat.mod_eq_of_lt (hb _ _ hfollows)]
        refine ⟨List.pairwise_cons.mpr ⟨?_, hsorted⟩, ?_⟩
        · intro o ho
          have := hge o ho
          omega
        · intro o ho
          rcases List.mem_cons.mp ho with rfl | ho
          · exact Nat.le_refl _
          · have := hge o ho
            omega
    · have hout : vec.length ≤ offset := by omega
      simp [visited_end hout]

/-- Increasing offsets of a reply are at most as many as its octets. -/
theorem length_le_of_increasing {offsets : List Nat} (hsorted : offsets.Pairwise (· < ·))
    {n : Nat} (hlt : ∀ o ∈ offsets, o < n) : offsets.length ≤ n := by
  have hnodup : offsets.Nodup := hsorted.imp Nat.ne_of_lt
  have hsub : offsets ⊆ List.range n := fun o ho => List.mem_range.mpr (hlt o ho)
  have hle := (hnodup.subperm hsub).length_le
  rwa [List.length_range] at hle

/-! ## An increment that wraps -/

/-- The loop comes to this entry, if there is memory for what is before it. -/
def Reached (vec : Bytes) (stale offset before : Nat) : Prop :=
  ∀ mem, ∃ steps pre, visited vec (steps + mem) 0 stale = pre ++ visited vec mem offset before

/-- The loop comes to an entry from which the offset wraps. -/
def Wraps (vec : Bytes) (stale : Nat) : Prop :=
  ∃ offset before, Reached vec stale offset before ∧ before < 2 ^ 32 ∧ offset < vec.length ∧
    nextEntryOffset vec offset before ≠ 0 ∧
    offset < 2 ^ 32 ∧ 2 ^ 32 ≤ offset + nextEntryOffset vec offset before

/-- The loop comes to every entry that follows, or wraps at one before it. -/
theorem Follows.reached {stale offset before : Nat} (hstale : stale < 2 ^ 32)
    (h : Follows vec stale offset before) :
    Wraps vec stale ∨ (Reached vec stale offset before ∧ before < 2 ^ 32 ∧ offset < 2 ^ 32) := by
  induction h with
  | first => exact Or.inr ⟨fun mem => ⟨0, [], by rw [Nat.zero_add]; rfl⟩, hstale, by decide⟩
  | @next offset before h hin hnext ih =>
    rcases ih with hwraps | ⟨hreach, hbefore, hoffset⟩
    · exact Or.inl hwraps
    · by_cases hwrap : 2 ^ 32 ≤ offset + nextEntryOffset vec offset before
      · exact Or.inl ⟨offset, before, hreach, hbefore, hin, hnext, hoffset, hwrap⟩
      · refine Or.inr ⟨fun mem => ?_, nextEntryOffset_lt hbefore, by omega⟩
        obtain ⟨steps, pre, hpre⟩ := hreach (mem + 1)
        refine ⟨steps + 1, pre ++ [offset], ?_⟩
        rw [show steps + 1 + mem = steps + (mem + 1) by omega, hpre, visited_succ hin,
          if_neg hnext, Nat.mod_eq_of_lt (by omega)]
        simp

/-- Where the offset wraps, it goes back. -/
theorem Wraps.goes_back {stale : Nat} (h : Wraps vec stale) :
    ∃ mem, ¬ (visited vec mem 0 stale).Pairwise (· < ·) := by
  obtain ⟨offset, before, hreach, hbefore, hin, hnext, hoffset, hwrap⟩ := h
  obtain ⟨steps, pre, hpre⟩ := hreach 2
  have hlt : nextEntryOffset vec offset before < 2 ^ 32 := nextEntryOffset_lt hbefore
  have hback : (offset + nextEntryOffset vec offset before) % 2 ^ 32 < offset := by omega
  refine ⟨steps + 2, fun hsorted => ?_⟩
  rw [hpre, visited_succ hin, if_neg hnext, visited_succ (Nat.lt_trans hback hin)] at hsorted
  have hpair := (List.pairwise_append.mp hsorted).2.1
  have := (List.pairwise_cons.mp hpair).1 _ List.mem_cons_self
  omega

/-! ## The loop and its trace -/

/-- The loop looks at the increment that the trace looks at. -/
theorem decodeDirents_succ {offset : Nat} (hin : offset < vec.length) (fs : FileIdFull)
    (dir : List FileIdFull) :
    ∃ found : FileIdFull, found.nextEntryOffset = nextEntryOffset vec offset fs.nextEntryOffset ∧
      ∀ mem, decodeDirents vec (mem + 1) offset (some fs) dir =
        if found.nextEntryOffset = 0 then .entries (found :: dir)
        else decodeDirents vec mem ((offset + found.nextEntryOffset) % 2 ^ 32) (some found)
          (found :: dir) := by
  have hnot : ¬ vec.length ≤ offset := by omega
  unfold nextEntryOffset
  simp only [decodeDirents, if_neg hnot]
  cases decodeFileIdFull (vec.drop offset) with
  | none => exact ⟨fs, rfl, fun _ => rfl⟩
  | some found => exact ⟨found, rfl, fun _ => rfl⟩

/-- A loop that ended before its memory was used up does the same with more memory. -/
theorem decodeDirents_settles {mem offset : Nat} {fs : FileIdFull} {dir : List FileIdFull}
    (h : (visited vec mem offset fs.nextEntryOffset).length < mem) (more : Nat) :
    decodeDirents vec (mem + more) offset (some fs) dir =
      decodeDirents vec mem offset (some fs) dir := by
  induction mem generalizing offset fs dir with
  | zero => omega
  | succ mem ih =>
    rw [show mem + 1 + more = mem + more + 1 by omega]
    by_cases hin : offset < vec.length
    · obtain ⟨found, hfound, hstep⟩ := decodeDirents_succ hin fs dir
      rw [hstep mem, hstep (mem + more)]
      rw [visited_succ hin, ← hfound] at h
      by_cases hnext : found.nextEntryOffset = 0
      · rw [if_pos hnext, if_pos hnext]
      · rw [if_neg hnext, if_neg hnext]
        rw [if_neg hnext] at h
        exact ih (by simpa using h)
    · rw [decodeDirents, decodeDirents, if_pos (by omega), if_pos (by omega)]

end

/-- **The enumeration visits increasing offsets of the reply, and so at most as many as it has
octets, exactly if no entry follows at 2^32 or behind**; it then ends, however much memory there
is. -/
theorem enumeration_terminates_iff (vec : Bytes) (stale : UInt32) :
    ((∀ mem, Advances vec (visited vec mem 0 stale.toNat)) ↔ Bounded vec stale.toNat) ∧
      (Bounded vec stale.toNat → ∀ fs : FileIdFull, fs.nextEntryOffset = stale.toNat →
        ∀ more, decodeDirents vec (vec.length + 1 + more) 0 (some fs) [] =
          decodeDirents vec (vec.length + 1) 0 (some fs) []) := by
  have hadvances (hb : Bounded vec stale.toNat) (mem : Nat) :
      Advances vec (visited vec mem 0 stale.toNat) := by
    have hlt : ∀ o ∈ visited vec mem 0 stale.toNat, o < vec.length := visited_lt mem 0 stale.toNat
    have hsorted := (visited_increases hb mem .first).1
    exact ⟨hsorted, hlt, length_le_of_increasing hsorted hlt⟩
  refine ⟨⟨fun h => ?_, hadvances⟩, ?_⟩
  · intro offset before hfollows
    rcases hfollows.reached stale.toNat_lt with hwraps | ⟨_, _, hlt⟩
    · obtain ⟨mem, hback⟩ := hwraps.goes_back
      exact absurd (h mem).1 hback
    · exact hlt
  · intro hb fs hfs more
    have hlen := (hadvances hb (vec.length + 1)).2.2
    apply decodeDirents_settles
    rw [hfs]
    omega

/-- Two entries without names, and the second one says that the next entry is 2^32 - 80 octets
behind it. -/
def endlessReply : Bytes :=
  le 4 80 ++ zeros 76 ++ (le 4 4294967216 ++ zeros 76)

/-- The offset goes from 0 to 80 and back to 0. -/
theorem a_reply_of_two_entries_is_endless :
    visited endlessReply 3 0 0 = [0, 80, 0] ∧
      ¬ Advances endlessReply (visited endlessReply 3 0 0) := by
  have htrace : visited endlessReply 3 0 0 = [0, 80, 0] := by decide +kernel
  refine ⟨htrace, fun h => ?_⟩
  have hbad := h.1
  rw [htrace] at hbad
  exact absurd hbad (by decide)

end Libsmb2.Directory
