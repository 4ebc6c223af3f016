import Libsmb2.QueryInfo

/-!
# Decoding the streams of a file

`smb2_decode_file_stream_info`, on the array that `smb2_process_query_info_variable` allocates for
it.  The offset is an `int` to which the increments of the server are added, and it is compared as a
`size_t`; the array has one entry for every 24 octets of the buffer, and one more.

* `decodeFileStreamInfo` — the offsets of the rounds and the entries that they fill;
* `StreamChain` — increments that lead forwards, over no more streams than there are entries;
* `stream_list_is_bounded_iff` — when a list is decoded inside its buffer and its array.

The sums of the source are taken to wrap.
-/

set_option autoImplicit false

namespace Libsmb2.QueryInfo

open Util

/-! ## The decoder -/

/-- `struct smb2_file_stream_info`, as an entry of the array. -/
structure StreamEntry where
  nextEntryOffset : Nat
  streamNameLength : Nat
  streamSize : Nat
  streamAllocationSize : Nat
  streamName : Option CString
  deriving DecidableEq, Repr

/-- `sizeof(struct smb2_file_stream_info)`. -/
def STREAM_ENTRY_SIZE : Nat := 32

/-- `name_len`, an `int`: what the stream says, or what is left behind its fields. -/
def streamNameLen (len : Nat) (offset : Int) (nameLength : Nat) : Int :=
  if len < (toInt32 (offset + 24 + toInt32 nameLength) % 2 ^ 64).toNat then
    toInt32 (toInt32 len - offset - 24)
  else toInt32 nameLength

/-- What one round decodes, and the increment, of which `old` is left if it is not read.  The array
is zeroed, and so is the length of a name that is not read; the entry is missing if a name cannot be
allocated. -/
def decodeStreamAt (v : Window) (granted : Bool) (index old : Nat) (offset : Int) :
    Except Overrun (Nat × Option StreamEntry) := do
  let nextOffset ← v.getAt 4 offset old
  let nameLength ← v.getAt 4 (offset + 4) 0
  let streamSize ← v.getAt 8 (offset + 8) 0
  let allocationSize ← v.getAt 8 (offset + 16) 0
  let nextEntryOffset := if nextOffset = 0 then 0 else (index + 1) * STREAM_ENTRY_SIZE % 2 ^ 32
  let nameLen := streamNameLen v.len offset nameLength
  if nameLength = 0 ∨ nameLen ≤ 0 then
    .ok (nextOffset, some ⟨nextEntryOffset, nameLength, streamSize, allocationSize, none⟩)
  else do
    let octets ← v.read (offset + 24).toNat (nameLen.toNat / 2 * 2)
    let name := CString.ofBytes (utf16ToUtf8 (utf16Units octets))
    if granted then
      .ok (nextOffset, some ⟨nextEntryOffset, name.octets.length % 2 ^ 32, streamSize,
        allocationSize, some name⟩)
    else .ok (nextOffset, none)

/-- `(offset + 24) <= vec->len`, compared as `size_t`. -/
def GoesOn (len : Nat) (offset : Int) : Prop := (toInt32 (offset + 24) % 2 ^ 64).toNat ≤ len

instance (len : Nat) (offset : Int) : Decidable (GoesOn len offset) :=
  inferInstanceAs (Decidable (_ ≤ _))

/-- One round of the loop, if `rest` is what the next one does. -/
def streamRound (v : Window) (granted : Bool) (index old : Nat)
    (rest : Nat → Int → Except Overrun (List Int × Option (List StreamEntry))) (offset : Int) :
    Except Overrun (List Int × Option (List StreamEntry)) := do
  let (nextOffset, entry) ← decodeStreamAt v granted index old offset
  match entry with
  | none => .ok ([offset], none)
  | some entry =>
    if nextOffset ≠ 0 ∧ GoesOn v.len (toInt32 (offset + nextOffset)) then
      (rest nextOffset (toInt32 (offset + nextOffset))).map fun run =>
        (offset :: run.1, run.2.map (entry :: ·))
    else .ok ([offset], some [entry])

/-- The loop with `room` entries left: the offsets of its rounds and the entries; `none` is -1. -/
def decodeStreams (v : Window) (alloc : Nat → Bool) :
    Nat → Nat → Nat → Int → Except Overrun (List Int × Option (List StreamEntry))
  | 0, _, _, _ => .error .write
  | room + 1, index, old, offset =>
    streamRound v (alloc index) index old (decodeStreams v alloc room (index + 1)) offset

/-- `smb2_decode_file_stream_info`; `junk` is what the stack holds in `next_offset`. -/
def decodeFileStreamInfo (v : Window) (alloc : Nat → Bool) (junk : UInt32) :
    Except Overrun (List Int × Option (List StreamEntry)) :=
  decodeStreams v alloc (1 + v.len / 24) 0 junk.toNat 0

/-- Whatever the stack holds and whichever names can be allocated, the buffer is read at rising
offsets that are not negative, nothing is read outside it, and the entries are in the array. -/
def StreamsBounded (vec : Bytes) : Prop :=
  ∀ alloc junk, ∃ offsets entries,
    decodeFileStreamInfo (.whole vec) alloc junk = .ok (offsets, entries) ∧
      (∀ o ∈ offsets, 0 ≤ o) ∧ offsets.Pairwise (· < ·) ∧ offsets.length ≤ 1 + vec.length / 24

/-- The increment of the stream at `off`. -/
def increment (vec : Bytes) (off : Nat) : Nat := fromLe (slice vec off 4)

/-- The streams from `off` on are not more than `room`: the increments lead to streams further
behind, until one is zero or leads where the sum, as an `int`, is negative or passes the end. -/
inductive StreamChain (vec : Bytes) : Nat → Nat → Prop
  | last {room off : Nat}
      (hend : increment vec off = 0 ∨ 2 ^ 31 ≤ (off + increment vec off + 24) % 4294967296 ∨
        vec.length < (off + increment vec off + 24) % 4294967296) :
      StreamChain vec (room + 1) off
  | next {room off : Nat} (hnext : increment vec off ≠ 0)
      (hint : off + increment vec off + 24 < 2 ^ 31)
      (hin : off + increment vec off + 24 ≤ vec.length)
      (hrest : StreamChain vec room (off + increment vec off)) : StreamChain vec (room + 1) off

/-! ## Where the loop goes on -/

theorem toInt32_range (n : Int) : - 2 ^ 31 ≤ toInt32 n ∧ toInt32 n < 2 ^ 31 := by
  unfold toInt32
  dsimp only
  split <;> omega

theorem toInt32_self {n : Int} (hlow : - 2 ^ 31 ≤ n) (hhigh : n < 2 ^ 31) : toInt32 n = n := by
  unfold toInt32
  dsimp only
  split <;> omega

variable {offset : Int}

/-- At an `int` the loop goes on also if it begins just before the buffer. -/
theorem goesOn_iff {len : Nat} (hlen : len < 2 ^ 63) (hlow : - 2 ^ 31 ≤ offset)
    (hhigh : offset < 2 ^ 31) :
    GoesOn len offset ↔ -24 ≤ offset ∧ offset + 24 < 2 ^ 31 ∧ offset + 24 ≤ len := by
  unfold GoesOn toInt32
  dsimp only
  split <;> omega

/-- What is taken of a name is in the buffer. -/
theorem streamNameLen_le {len off nameLength : Nat} (hoff : off + 24 < 2 ^ 31)
    (hlen : len < 2 ^ 63) (hpos : 0 < streamNameLen len off nameLength) :
    off + 24 + (streamNameLen len off nameLength).toNat ≤ len := by
  have hname := toInt32_range nameLength
  unfold streamNameLen at *
  split at hpos
  · rename_i hlong
    rw [if_pos hlong]
    unfold toInt32 at hpos ⊢
    dsimp only at hpos ⊢
    omega
  · rename_i hfits
    rw [if_neg hfits]
    generalize toInt32 nameLength = n at *
    unfold toInt32 at hfits
    dsimp only at hfits
    omega

section
variable {vec : Bytes} {granted : Bool} {index old room off : Nat}

/-! ## One round -/

/-- A field at an offset that is not negative is read, or does not fit. -/
theorem getAt_inside (n : Nat) (hpos : 0 ≤ offset) (hoff : offset + n < 2 ^ 64)
    (old : Nat) : Inside ((Window.whole vec).getAt n offset old) := by
  lift offset to Nat using hpos
  rw [Window.getAt_natCast (by omega)]
  exact (Window.sound_whole vec).get n offset old

/-- **A round at an offset that is not negative** stays in the buffer; it reads the increment if
there is one. -/
theorem decodeStreamAt_inside (hint : off + 24 < 2 ^ 31) (hfour : off + 4 ≤ vec.length)
    (hlen : vec.length < 2 ^ 63) :
    ∃ entry, decodeStreamAt (.whole vec) granted index old off = .ok (increment vec off, entry) ∧
      (granted = true → entry.isSome) := by
  have hnext : (Window.whole vec).getAt 4 off old = .ok (increment vec off) := by
    rw [Window.getAt_natCast (by omega), Window.get_of_le hfour hfour]
    rfl
  obtain ⟨nameLength, hname⟩ : Inside ((Window.whole vec).getAt 4 ((off : Int) + 4) 0) :=
    getAt_inside 4 (by omega) (by omega) 0
  obtain ⟨size, hsize⟩ : Inside ((Window.whole vec).getAt 8 ((off : Int) + 8) 0) :=
    getAt_inside 8 (by omega) (by omega) 0
  obtain ⟨allocationSize, halloc⟩ : Inside ((Window.whole vec).getAt 8 ((off : Int) + 16) 0) :=
    getAt_inside 8 (by omega) (by omega) 0
  unfold decodeStreamAt
  rw [hnext, ok_bind, hname, ok_bind, hsize, ok_bind, halloc, ok_bind]
  dsimp only
  by_cases hnone : nameLength = 0 ∨ streamNameLen (Window.whole vec).len off nameLength ≤ 0
  · rw [if_pos hnone]
    exact ⟨_, rfl, fun _ => rfl⟩
  · have hpos : 0 < streamNameLen (Window.whole vec).len off nameLength := by omega
    have hplace : off + 24 + (streamNameLen (Window.whole vec).len off nameLength).toNat ≤
        vec.length := streamNameLen_le hint hlen hpos
    rw [if_neg hnone, Window.read_of_le (by rw [Window.whole_octets]; omega), ok_bind]
    cases granted with
    | false => exact ⟨_, rfl, by simp⟩
    | true => exact ⟨_, rfl, fun _ => rfl⟩

variable {alloc : Nat → Bool} {entries : Option (List StreamEntry)}

/-- What a run that comes to an end in its buffers has done in its first round. -/
theorem decodeStreams_cases {v : Window} {offsets : List Int}
    (h : decodeStreams v alloc (room + 1) index old offset = .ok (offsets, entries)) :
    ∃ nextOffset entry,
      decodeStreamAt v (alloc index) index old offset = .ok (nextOffset, entry) ∧
        (offsets = [offset] ∧ entries = entry.map (fun e => [e]) ∧
            (entry = none ∨ nextOffset = 0 ∨ ¬ GoesOn v.len (toInt32 (offset + nextOffset))) ∨
          nextOffset ≠ 0 ∧ GoesOn v.len (toInt32 (offset + nextOffset)) ∧
            ∃ first rest later, decodeStreams v alloc room (index + 1) nextOffset
              (toInt32 (offset + nextOffset)) = .ok (rest, later) ∧ offsets = offset :: rest ∧
                entries = later.map (first :: ·)) := by
  rw [decodeStreams, streamRound] at h
  cases hround : decodeStreamAt v (alloc index) index old offset with
  | error e =>
    rw [hround] at h
    cases h
  | ok round =>
    obtain ⟨nextOffset, entry⟩ := round
    rw [hround] at h
    refine ⟨nextOffset, entry, rfl, ?_⟩
    cases entry with
    | none =>
      cases h
      exact .inl ⟨rfl, rfl, .inl rfl⟩
    | some entry =>
      simp only [bind, Except.bind] at h
      split at h
      · rename_i hgoes
        refine .inr ⟨hgoes.1, hgoes.2, ?_⟩
        cases hrest : decodeStreams v alloc room (index + 1) nextOffset
            (toInt32 (offset + nextOffset)) with
        | error e =>
          rw [hrest] at h
          cases h
        | ok run =>
          rw [hrest] at h
          cases h
          exact ⟨entry, run.1, run.2, rfl, rfl, rfl⟩
      · rename_i hstops
        cases h
        refine .inl ⟨rfl, rfl, .inr ?_⟩
        by_contra hgoes
        exact hstops (not_or.mp hgoes |>.imp_right not_not.mp)

/-! ## Lists that are decoded inside -/

/-- A run begins where it is told to. -/
theorem decodeStreams_head {v : Window} {offsets : List Int}
    (h : decodeStreams v alloc room index old offset = .ok (offsets, entries)) :
    ∃ rest, offsets = offset :: rest := by
  cases room with
  | zero => cases h
  | succ room =>
    obtain ⟨nextOffset, entry, -, ⟨rfl, -⟩ | ⟨-, -, first, rest, later, -, rfl, -⟩⟩ :=
      decodeStreams_cases h
    · exact ⟨[], rfl⟩
    · exact ⟨rest, rfl⟩

/-- Every round fills an entry. -/
theorem decodeStreams_length {v : Window} {offsets : List Int}
    {entries : List StreamEntry}
    (h : decodeStreams v alloc room index old offset = .ok (offsets, some entries)) :
    entries.length = offsets.length := by
  induction room generalizing index old offset offsets entries with
  | zero => cases h
  | succ room ih =>
    obtain ⟨nextOffset, entry, -, ⟨rfl, hentries, -⟩ | ⟨-, -, first, rest, later, hrun, rfl, hentries⟩⟩ :=
      decodeStreams_cases h
    · obtain ⟨e, -, rfl⟩ := Option.map_eq_some_iff.mp hentries.symm
      rfl
    · obtain ⟨es, rfl, rfl⟩ := Option.map_eq_some_iff.mp hentries.symm
      rw [List.length_cons, List.length_cons, ih hrun]

/-- A round whose name cannot be allocated. -/
theorem decodeStreams_failed {v : Window} {nextOffset : Nat}
    (hround : decodeStreamAt v (alloc index) index old offset = .ok (nextOffset, none)) :
    decodeStreams v alloc (room + 1) index old offset = .ok ([offset], none) := by
  rw [decodeStreams, streamRound, hround, ok_bind]

/-- The last round. -/
theorem decodeStreams_last {v : Window} {nextOffset : Nat}
    {entry : StreamEntry}
    (hround : decodeStreamAt v (alloc index) index old offset = .ok (nextOffset, some entry))
    (hstops : ¬ (nextOffset ≠ 0 ∧ GoesOn v.len (toInt32 (offset + nextOffset)))) :
    decodeStreams v alloc (room + 1) index old offset = .ok ([offset], some [entry]) := by
  rw [decodeStreams, streamRound, hround, ok_bind]
  exact if_neg hstops

/-- A round that another follows. -/
theorem decodeStreams_next {v : Window} {nextOffset : Nat}
    {entry : StreamEntry} {offsets : List Int}
    (hround : decodeStreamAt v (alloc index) index old offset = .ok (nextOffset, some entry))
    (hnext : nextOffset ≠ 0) (hgoes : GoesOn v.len (toInt32 (offset + nextOffset)))
    (hrest : decodeStreams v alloc room (index + 1) nextOffset (toInt32 (offset + nextOffset)) =
      .ok (offsets, entries)) :
    decodeStreams v alloc (room + 1) index old offset =
      .ok (offset :: offsets, entries.map (entry :: ·)) := by
  rw [decodeStreams, streamRound, hround, ok_bind]
  refine (if_pos ⟨hnext, hgoes⟩).trans ?_
  rw [hrest]
  rfl

/-- **What is decoded inside is a chain.** -/
theorem chain_of_decoded (hlen : vec.length < 2 ^ 63) (hfour : 4 ≤ vec.length)
    {offsets : List Int}
    (h : decodeStreams (.whole vec) (fun _ => true) room index old off = .ok (offsets, entries))
    (hrising : offsets.Pairwise (· < ·)) (hint : off + 24 < 2 ^ 31)
    (hoff : off = 0 ∨ off + 24 ≤ vec.length) : StreamChain vec room off := by
  induction room generalizing index old off offsets entries with
  | zero => cases h
  | succ room ih =>
    have hlt : increment vec off < 2 ^ 32 := fromLe_slice_lt vec off 4
    have hwhole : (Window.whole vec).len = vec.length := rfl
    obtain ⟨nextOffset, entry, hround, hrest⟩ := decodeStreams_cases h
    obtain ⟨entry', hinside, hgranted⟩ : ∃ entry, decodeStreamAt (.whole vec) true index old off =
        .ok (increment vec off, entry) ∧ (true = true → entry.isSome) :=
      decodeStreamAt_inside hint (by omega) hlen
    rw [hinside] at hround
    obtain ⟨rfl, rfl⟩ := Prod.mk.inj (Except.ok.inj hround)
    have hrange := toInt32_range ((off : Int) + increment vec off)
    have hgoes := goesOn_iff hlen hrange.1 hrange.2
    rw [hwhole] at hrest
    rcases hrest with ⟨-, -, hnone | hzero | hstops⟩ |
      ⟨hnext, hgoesOn, first, rest, later, hrun, rfl, -⟩
    · rw [hnone] at hgranted
      exact absurd (hgranted rfl) (by simp)
    · exact .last (.inl hzero)
    · refine .last (.inr ?_)
      rw [hgoes] at hstops
      unfold toInt32 at hstops
      dsimp only at hstops
      omega
    · obtain ⟨behind, rfl⟩ := decodeStreams_head hrun
      have hforward : (off : Int) < toInt32 (off + increment vec off) :=
        (List.pairwise_cons.mp hrising).1 _ List.mem_cons_self
      have hsum : toInt32 ((off : Int) + increment vec off) = (off + increment vec off : Nat) := by
        unfold toInt32 at hforward ⊢
        dsimp only at hforward ⊢
        omega
      rw [hgoes, hsum] at hgoesOn
      rw [hsum] at hrun hrising
      have hchain := ih hrun (List.pairwise_cons.mp hrising).2 (by omega) (.inr (by omega))
      exact .next hnext (by omega) (by omega) hchain

/-- **A chain is decoded inside**, whatever can be allocated. -/
theorem StreamChain.decoded (h : StreamChain vec room off) (hlen : vec.length < 2 ^ 63)
    (hfour : 4 ≤ vec.length) (alloc : Nat → Bool) (index old : Nat) (hint : off + 24 < 2 ^ 31)
    (hoff : off = 0 ∨ off + 24 ≤ vec.length) :
    ∃ offsets entries,
      decodeStreams (.whole vec) alloc room index old off = .ok (offsets, entries) ∧
        (∀ o ∈ offsets, (off : Int) ≤ o) ∧ offsets.Pairwise (· < ·) ∧ offsets.length ≤ room := by
  have hwhole : (Window.whole vec).len = vec.length := rfl
  induction h generalizing index old with
  | @last room off hend =>
    obtain ⟨entry, hinside, -⟩ : ∃ entry, decodeStreamAt (.whole vec) (alloc index) index old off =
        .ok (increment vec off, entry) ∧ (alloc index = true → entry.isSome) :=
      decodeStreamAt_inside hint (by omega) hlen
    have hrange := toInt32_range ((off : Int) + increment vec off)
    have hstops : ¬ (increment vec off ≠ 0 ∧
        GoesOn vec.length (toInt32 ((off : Int) + increment vec off))) := by
      rw [goesOn_iff hlen hrange.1 hrange.2]
      unfold toInt32
      dsimp only
      omega
    cases entry with
    | none => exact ⟨[(off : Int)], none, decodeStreams_failed hinside, by simp, by simp, by simp⟩
    | some entry =>
      exact ⟨[(off : Int)], some [entry], decodeStreams_last hinside hstops, by simp, by simp,
        by simp⟩
  | @next room off hnext hint' hin hrest ih =>
    obtain ⟨entry, hinside, -⟩ : ∃ entry, decodeStreamAt (.whole vec) (alloc index) index old off =
        .ok (increment vec off, entry) ∧ (alloc index = true → entry.isSome) :=
      decodeStreamAt_inside hint (by omega) hlen
    have hsum : toInt32 ((off : Int) + increment vec off) = (off + increment vec off : Nat) := by
      rw [← Nat.cast_add]
      exact toInt32_of_lt (by omega)
    have hgoes : GoesOn vec.length (toInt32 ((off : Int) + increment vec off)) := by
      rw [hsum, goesOn_iff hlen (by omega) (by omega)]
      omega
    obtain ⟨offsets, entries, hrun, hbehind, hrising, hcount⟩ :=
      ih (index + 1) (increment vec off) hint' (.inr hin)
    cases entry with
    | none => exact ⟨[(off : Int)], none, decodeStreams_failed hinside, by simp, by simp, by simp⟩
    | some entry =>
      refine ⟨(off : Int) :: offsets, entries.map (entry :: ·), ?_, ?_, ?_, ?_⟩
      · exact decodeStreams_next hinside hnext hgoes (by rw [hsum]; exact hrun)
      · intro o ho
        rcases List.mem_cons.mp ho with rfl | ho
        · exact le_refl _
        · have hle := hbehind o ho
          omega
      · refine List.pairwise_cons.mpr ⟨fun o ho => ?_, hrising⟩
        have hle := hbehind o ho
        omega
      · rw [List.length_cons]
        omega

/-- Without an increment in the buffer nothing is read in the first round. -/
theorem decodeStreamAt_short (h : vec.length < 4) :
    ∃ entry, decodeStreamAt (.whole vec) granted index old 0 = .ok (old, some entry) := by
  have hfield : ∀ {n : Nat} {offset : Int} {old : Nat}, 0 ≤ offset → 4 ≤ offset + n →
      offset + n < 2 ^ 64 → (Window.whole vec).getAt n offset old = .ok old := by
    intro n offset old hpos hfour hoff
    lift offset to Nat using hpos
    rw [Window.getAt_natCast (by omega)]
    exact Window.get_short (by rw [Window.whole_len]; omega) old
  have hnext : (Window.whole vec).getAt 4 0 old = .ok old := hfield (by simp) (by simp) (by simp)
  have hname : (Window.whole vec).getAt 4 (0 + 4) 0 = .ok 0 := hfield (by simp) (by simp) (by simp)
  have hsize : (Window.whole vec).getAt 8 (0 + 8) 0 = .ok 0 := hfield (by simp) (by simp) (by simp)
  have halloc : (Window.whole vec).getAt 8 (0 + 16) 0 = .ok 0 :=
    hfield (by simp) (by simp) (by simp)
  unfold decodeStreamAt
  rw [hnext, ok_bind, hname, ok_bind, hsize, ok_bind, halloc, ok_bind]
  exact ⟨_, if_pos (.inl rfl)⟩

/-- With less than an increment in the buffer, the stack has the last word. -/
theorem not_streamsBounded_of_lt (h : vec.length < 4) : ¬ StreamsBounded vec := by
  intro hbounded
  obtain ⟨offsets, entries, hrun, -⟩ := hbounded (fun _ => true) 0xffffffe8
  have hroom : 1 + (Window.whole vec).len / 24 = 0 + 1 := by
    rw [Window.whole_len]
    omega
  rw [decodeFileStreamInfo, hroom] at hrun
  obtain ⟨nextOffset, entry, hround, hrest⟩ := decodeStreams_cases hrun
  obtain ⟨first, hshort⟩ : ∃ first, decodeStreamAt (.whole vec) true 0 0xffffffe8 0 =
      .ok (0xffffffe8, some first) := decodeStreamAt_short h
  obtain ⟨rfl, rfl⟩ := Prod.mk.inj (Except.ok.inj (hshort.symm.trans hround))
  -- the loop goes on 24 octets before the buffer, where there is no entry left for it
  have hback : toInt32 (0 + ((0xffffffe8 : Nat) : Int)) = -24 := rfl
  rcases hrest with ⟨-, -, hnone | hzero | hstops⟩ | ⟨-, -, first', rest, later, hwritten, -⟩
  · cases hnone
  · cases hzero
  · rw [hback, Window.whole_len, goesOn_iff (by omega) (by omega) (by omega)] at hstops
    omega
  · cases hwritten

theorem StreamsBounded.chain (h : StreamsBounded vec) (hlen : vec.length < 2 ^ 63)
    (hfour : 4 ≤ vec.length) : StreamChain vec (1 + vec.length / 24) 0 := by
  obtain ⟨offsets, entries, hrun, -, hrising, -⟩ := h (fun _ => true) 0
  exact chain_of_decoded hlen hfour hrun hrising (by omega) (.inl rfl)

/-- **Stream lists.**  A buffer is decoded inside itself and the array that is allocated for it, at
rising offsets, exactly if it has an increment and its streams are a chain that is not longer. -/
theorem stream_list_is_bounded_iff (hlen : vec.length < 2 ^ 63) :
    StreamsBounded vec ↔ 4 ≤ vec.length ∧ StreamChain vec (1 + vec.length / 24) 0 := by
  constructor
  · intro h
    have hfour : 4 ≤ vec.length := by
      by_contra hshort
      exact not_streamsBounded_of_lt (by omega) h
    exact ⟨hfour, h.chain hlen hfour⟩
  · rintro ⟨hfour, hchain⟩ alloc junk
    exact hchain.decoded hlen hfour alloc 0 junk.toNat (by omega) (.inl rfl)

end

/-- Two streams, with names of two units and of one. -/
def twoStreams : Bytes :=
  le 4 32 ++ le 4 4 ++ le 8 5 ++ le 8 4096 ++ [0x3a, 0, 0x61, 0] ++ zeros 4 ++
    (le 4 0 ++ le 4 2 ++ le 8 7 ++ le 8 4096 ++ [0x62, 0])

theorem two_streams_are_bounded : StreamsBounded twoStreams := by
  have hlen : twoStreams.length = 58 := rfl
  rw [stream_list_is_bounded_iff (by omega), hlen]
  have hfirst : increment twoStreams 0 = 32 := by decide +kernel
  have hsecond : increment twoStreams (0 + 32) = 0 := by decide +kernel
  show 4 ≤ 58 ∧ StreamChain twoStreams (2 + 1) 0
  refine ⟨by decide, .next ?_ ?_ ?_ ?_⟩
  · omega
  · omega
  · omega
  · rw [hfirst]
    exact .last (.inl hsecond)

/-! ## Lists that are not -/

/-- Three streams in four octets each. -/
def crowdedStreams : Bytes := le 4 4 ++ (le 4 4 ++ zeros 24)

/-- A stream whose increment leads before the buffer. -/
def backwardStreams : Bytes := le 4 0xffffffe8 ++ zeros 20

/-- The array is left if the increments are smaller than a stream, and the buffer if they are
large. -/
theorem stream_lists_are_not_bounded :
    ¬ StreamsBounded crowdedStreams ∧ ¬ StreamsBounded backwardStreams := by
  constructor
  · intro h
    have hlen : crowdedStreams.length = 32 := by simp [crowdedStreams]
    have hfirst : increment crowdedStreams 0 = 4 := rfl
    have hsecond : increment crowdedStreams (0 + 4) = 4 := rfl
    have hchain := h.chain (by omega) (by omega)
    rw [hlen] at hchain
    cases hchain with
    | last hend => omega
    | next _ _ _ hrest =>
      rw [hfirst] at hrest
      cases hrest with
      | last hend => omega
      | next _ _ _ hrest => cases hrest
  · intro h
    have hlen : backwardStreams.length = 24 := by simp [backwardStreams]
    have hfirst : increment backwardStreams 0 = 0xffffffe8 := rfl
    have hchain := h.chain (by omega) (by omega)
    rw [hlen] at hchain
    cases hchain with
    | last hend => omega
    | next _ hint _ _ => omega

end Libsmb2.QueryInfo
