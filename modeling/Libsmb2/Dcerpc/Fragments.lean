import Libsmb2.Dcerpc

/-!
# Fragments of a response

`dce_unfragment_ioctl`, which moves the stubs of the fragments together inside the buffer, and reads
their headers in the byte order of the call.

* `dceUnfragmentIoctl_ok_iff` — when the loop stays inside the buffer;
* `unfragmentLoop_stubs` — what the loop puts together;
* `reassembly_iff` — when the fragments are put together inside the buffer, and to what.
-/

set_option autoImplicit false

namespace Libsmb2.Dcerpc

open Util

/-! ## The loop -/

/-- The start of a buffer, for a coder that has nothing to do with memory. -/
def startOf (buf : Bytes) : State Empty where
  buf := buf
  offset := 0
  heap := []
  topLevel := true
  ptrId := 0
  curPtr := 0
  ptrs := []
  isConformanceRun := false
  maxAlignment := 1
  sizeIs := 0
  switchIs := 0

/-- `dcerpc_header_coder` at the start of a buffer, into a header that is not the PDU's. -/
def decodeHeader (env : Env) (buf : Bytes) : Option Header :=
  match (dcerpcHeaderCoder env false {}).run (startOf buf) with
  | .done hdr _ => some hdr
  | _ => none

/-- The loop of `dce_unfragment_ioctl`: the buffer and `iov->len` behind it.  `iov->len` does not
change before the last fragment. -/
def unfragmentLoop (env : Env) : Nat → Bytes → Nat → Nat → Except Fault (Bytes × Nat)
  | 0, _, _, _ => .error .endless
  | turns + 1, buf, offset, unfragmentLen =>
    -- `iov->len - offset` wraps around when the last fragment was longer than the buffer
    if buf.length < offset then .error .read
    else if buf.length - offset < 24 then .ok (buf, buf.length)
    else
      match decodeHeader env (buf.drop offset) with
      | none => .ok (buf, buf.length)
      | some nextHdr =>
        -- a difference that is negative is a `size_t` larger than any buffer
        if nextHdr.fragLength < 24 ∨ buf.length < offset + nextHdr.fragLength then .error .read
        else if buf.length < unfragmentLen + (nextHdr.fragLength - 24) then .error .write
        else
          let buf := patch buf unfragmentLen (slice buf (offset + 24) (nextHdr.fragLength - 24))
          let unfragmentLen := unfragmentLen + (nextHdr.fragLength - 24)
          -- `hdr` is decoded once more, and not looked at
          match decodeHeader env buf with
          | none => .ok (buf, buf.length)
          | some _ =>
            if nextHdr.pfcFlags &&& PFC_LAST_FRAG ≠ 0 then .ok (buf, unfragmentLen)
            else unfragmentLoop env turns buf (offset + nextHdr.fragLength) unfragmentLen

/-- `dce_unfragment_ioctl`. -/
def dceUnfragmentIoctl (env : Env) (buf : Bytes) : Except Fault (Bytes × Nat) :=
  match decodeHeader env buf with
  | none => .ok (buf, buf.length)
  | some hdr =>
    if hdr.rpcVers ≠ 5 ∨ hdr.rpcVersMinor ≠ 0 ∨ hdr.ptype ≠ PDU_TYPE_RESPONSE then
      .ok (buf, buf.length)
    else if hdr.pfcFlags &&& PFC_LAST_FRAG ≠ 0 then .ok (buf, buf.length)
    else unfragmentLoop env (buf.length + 1) buf hdr.fragLength hdr.fragLength


section

variable {tctxId : Nat} {littleEndian : Bool} {buf : Bytes}

/-- The PDU of a call whose reply is decoded. -/
def replyEnv (tctxId : Nat) (littleEndian : Bool) : Env := ⟨tctxId, .decode, littleEndian⟩

/-- The header at the start of a buffer, in the byte order of the call. -/
abbrev callHeader (tctxId : Nat) (littleEndian : Bool) (buf : Bytes) : Header :=
  headerOf (replyEnv tctxId littleEndian) false buf

theorem decodeHeader_eq (h : 16 ≤ buf.length) :
    decodeHeader (replyEnv tctxId littleEndian) buf = some (callHeader tctxId littleEndian buf) := by
  obtain ⟨hdone, -⟩ := @dcerpcHeaderCoder_reads _ (replyEnv tctxId littleEndian) rfl false {}
    buf (startOf buf) rfl rfl rfl
  rw [decodeHeader, hdone h]

theorem decodeHeader_short (h : buf.length < 16) :
    decodeHeader (replyEnv tctxId littleEndian) buf = none := by
  obtain ⟨-, hfail⟩ := @dcerpcHeaderCoder_reads _ (replyEnv tctxId littleEndian) rfl false {}
    buf (startOf buf) rfl rfl rfl
  obtain ⟨t, ht⟩ := hfail h
  rw [decodeHeader, ht]

/-! ## Inside the buffer -/

/-- The fragments that these octets begin with lie inside them, up to the last one or to fewer
octets than a fragment has. -/
inductive Contained (tctxId : Nat) (littleEndian : Bool) : Bytes → Prop
  | rest {bs : Bytes} (h : bs.length < 24) : Contained tctxId littleEndian bs
  | last {bs : Bytes} (h : 24 ≤ (callHeader tctxId littleEndian bs).fragLength)
      (hlen : (callHeader tctxId littleEndian bs).fragLength ≤ bs.length)
      (hflag : (callHeader tctxId littleEndian bs).pfcFlags &&& PFC_LAST_FRAG ≠ 0) :
      Contained tctxId littleEndian bs
  | next {bs : Bytes} (h : 24 ≤ (callHeader tctxId littleEndian bs).fragLength)
      (hlen : (callHeader tctxId littleEndian bs).fragLength ≤ bs.length)
      (hflag : (callHeader tctxId littleEndian bs).pfcFlags &&& PFC_LAST_FRAG = 0)
      (hrest : Contained tctxId littleEndian
        (bs.drop (callHeader tctxId littleEndian bs).fragLength)) :
      Contained tctxId littleEndian bs

/-- Octets that are looked at begin with a fragment inside them, and so does what follows it. -/
theorem contained_iff (h : 24 ≤ buf.length) : Contained tctxId littleEndian buf ↔
    24 ≤ (callHeader tctxId littleEndian buf).fragLength
      ∧ (callHeader tctxId littleEndian buf).fragLength ≤ buf.length
      ∧ ((callHeader tctxId littleEndian buf).pfcFlags &&& PFC_LAST_FRAG = 0 →
        Contained tctxId littleEndian
          (buf.drop (callHeader tctxId littleEndian buf).fragLength)) := by
  constructor
  · intro hc
    cases hc with
    | rest hshort => omega
    | last hmin hlen hflag => exact ⟨hmin, hlen, fun hno => absurd hno hflag⟩
    | next hmin hlen hflag hrest => exact ⟨hmin, hlen, fun _ => hrest⟩
  · rintro ⟨hmin, hlen, hrest⟩
    by_cases hflag : (callHeader tctxId littleEndian buf).pfcFlags &&& PFC_LAST_FRAG = 0
    · exact .next hmin hlen hflag (hrest hflag)
    · exact .last hmin hlen hflag

/-- One turn, at an offset with a fragment inside the buffer behind it. -/
theorem unfragmentLoop_turn {turns offset u : Nat} {next : Header}
    (hoff : offset + 24 ≤ buf.length) (hu : u ≤ offset)
    (hnext : callHeader tctxId littleEndian (buf.drop offset) = next)
    (hmin : 24 ≤ next.fragLength) (hlen : offset + next.fragLength ≤ buf.length) :
    unfragmentLoop (replyEnv tctxId littleEndian) (turns + 1) buf offset u
      = if next.pfcFlags &&& PFC_LAST_FRAG ≠ 0 then
          .ok (patch buf u (slice buf (offset + 24) (next.fragLength - 24)),
            u + (next.fragLength - 24))
        else unfragmentLoop (replyEnv tctxId littleEndian) turns
          (patch buf u (slice buf (offset + 24) (next.fragLength - 24)))
          (offset + next.fragLength) (u + (next.fragLength - 24)) := by
  have hdrop : (buf.drop offset).length = buf.length - offset := List.length_drop
  have hslice : (slice buf (offset + 24) (next.fragLength - 24)).length = next.fragLength - 24 := by
    rw [length_slice]
    omega
  have hmoved : (patch buf u (slice buf (offset + 24) (next.fragLength - 24))).length
      = buf.length := length_patch (by omega)
  rw [unfragmentLoop, if_neg (by omega), if_neg (by omega), decodeHeader_eq (by omega), hnext]
  dsimp only
  rw [if_neg (by omega), if_neg (by omega), decodeHeader_eq (by omega)]

theorem unfragmentLoop_ok_iff {turns offset u : Nat} (hoff : offset ≤ buf.length) (hu : u ≤ offset)
    (hturns : buf.length - offset < turns) :
    (∃ r, unfragmentLoop (replyEnv tctxId littleEndian) turns buf offset u = .ok r)
      ↔ Contained tctxId littleEndian (buf.drop offset) := by
  induction turns generalizing buf offset u with
  | zero => omega
  | succ turns ih =>
    have hdrop : (buf.drop offset).length = buf.length - offset := List.length_drop
    by_cases hshort : buf.length - offset < 24
    · rw [unfragmentLoop, if_neg (by omega), if_pos hshort]
      exact iff_of_true ⟨_, rfl⟩ (.rest (by omega))
    rw [contained_iff (by omega), hdrop]
    by_cases hin : 24 ≤ (callHeader tctxId littleEndian (buf.drop offset)).fragLength
        ∧ (callHeader tctxId littleEndian (buf.drop offset)).fragLength ≤ buf.length - offset
    · obtain ⟨hmin, hlen⟩ := hin
      rw [and_iff_right hmin, and_iff_right hlen]
      generalize hnext : callHeader tctxId littleEndian (buf.drop offset) = next at *
      rw [unfragmentLoop_turn (by omega) hu hnext hmin (by omega)]
      have hslice : (slice buf (offset + 24) (next.fragLength - 24)).length
          = next.fragLength - 24 := by
        rw [length_slice]
        omega
      have hmoved : (patch buf u (slice buf (offset + 24) (next.fragLength - 24))).length
          = buf.length := length_patch (by omega)
      by_cases hflag : next.pfcFlags &&& PFC_LAST_FRAG = 0
      · rw [if_neg (by simpa using hflag), ih (by omega) (by omega) (by omega),
          drop_patch (by omega) (by omega), List.drop_drop]
        exact ⟨fun h _ => h, fun h => h hflag⟩
      · rw [if_pos hflag]
        exact iff_of_true ⟨_, rfl⟩ fun hno => absurd hno hflag
    · have hno : ¬ ∃ r, unfragmentLoop (replyEnv tctxId littleEndian) (turns + 1) buf offset u
          = .ok r := by
        rintro ⟨r, hr⟩
        rw [unfragmentLoop, if_neg (by omega), if_neg hshort, decodeHeader_eq (by omega)] at hr
        dsimp only at hr
        rw [if_pos (by omega)] at hr
        cases hr
      exact iff_of_false hno fun h => hin ⟨h.1, h.2.1⟩

/-- A buffer that is looked at needs the first fragment inside it, and the others behind it. -/
def FragmentsInside (tctxId : Nat) (littleEndian : Bool) (buf : Bytes) : Prop :=
  16 ≤ buf.length → octet buf 0 = 5 → octet buf 1 = 0 → octet buf 2 = PDU_TYPE_RESPONSE →
    octet buf 3 &&& PFC_LAST_FRAG = 0 →
      (callHeader tctxId littleEndian buf).fragLength ≤ buf.length ∧ Contained tctxId littleEndian
        (buf.drop (callHeader tctxId littleEndian buf).fragLength)

/-- `dce_unfragment_ioctl` behind a first header that it goes on from. -/
theorem dceUnfragmentIoctl_first (hlen : 16 ≤ buf.length) (hvers : octet buf 0 = 5)
    (hminor : octet buf 1 = 0) (hptype : octet buf 2 = PDU_TYPE_RESPONSE)
    (hflag : octet buf 3 &&& PFC_LAST_FRAG = 0) :
    dceUnfragmentIoctl (replyEnv tctxId littleEndian) buf
      = unfragmentLoop (replyEnv tctxId littleEndian) (buf.length + 1) buf
        (callHeader tctxId littleEndian buf).fragLength
        (callHeader tctxId littleEndian buf).fragLength := by
  have hresponse : ¬ ((callHeader tctxId littleEndian buf).rpcVers ≠ 5
      ∨ (callHeader tctxId littleEndian buf).rpcVersMinor ≠ 0
      ∨ (callHeader tctxId littleEndian buf).ptype ≠ PDU_TYPE_RESPONSE) := by
    rintro (h | h | h)
    · exact h hvers
    · exact h hminor
    · exact h hptype
  have hmore : ¬ (callHeader tctxId littleEndian buf).pfcFlags &&& PFC_LAST_FRAG ≠ 0 :=
    fun h => h hflag
  rw [dceUnfragmentIoctl, decodeHeader_eq hlen]
  dsimp only
  rw [if_neg hresponse, if_neg hmore]

/-- `dce_unfragment_ioctl` leaves any other buffer as it is. -/
theorem dceUnfragmentIoctl_rest (h : ¬ (16 ≤ buf.length ∧ octet buf 0 = 5 ∧ octet buf 1 = 0
      ∧ octet buf 2 = PDU_TYPE_RESPONSE ∧ octet buf 3 &&& PFC_LAST_FRAG = 0)) :
    dceUnfragmentIoctl (replyEnv tctxId littleEndian) buf = .ok (buf, buf.length) := by
  rw [dceUnfragmentIoctl]
  by_cases hlen : 16 ≤ buf.length
  · rw [decodeHeader_eq hlen]
    dsimp only [callHeader, headerOf]
    by_cases hresponse : octet buf 0 ≠ 5 ∨ octet buf 1 ≠ 0 ∨ octet buf 2 ≠ PDU_TYPE_RESPONSE
    · rw [if_pos hresponse]
    · rw [if_neg hresponse, if_pos]
      simp only [not_or, not_not] at hresponse
      intro hflag
      exact h ⟨hlen, hresponse.1, hresponse.2.1, hresponse.2.2, hflag⟩
  · rw [decodeHeader_short (by omega)]

/-- The loop ends, and stays inside the buffer, if and only if the fragments do. -/
theorem dceUnfragmentIoctl_ok_iff :
    (∃ r, dceUnfragmentIoctl (replyEnv tctxId littleEndian) buf = .ok r)
      ↔ FragmentsInside tctxId littleEndian buf := by
  by_cases h : 16 ≤ buf.length ∧ octet buf 0 = 5 ∧ octet buf 1 = 0
      ∧ octet buf 2 = PDU_TYPE_RESPONSE ∧ octet buf 3 &&& PFC_LAST_FRAG = 0
  · obtain ⟨hlen, hvers, hminor, hptype, hflag⟩ := h
    have hgo : FragmentsInside tctxId littleEndian buf
        ↔ (callHeader tctxId littleEndian buf).fragLength ≤ buf.length ∧ Contained tctxId
          littleEndian (buf.drop (callHeader tctxId littleEndian buf).fragLength) :=
      ⟨fun h => h hlen hvers hminor hptype hflag, fun h _ _ _ _ _ => h⟩
    rw [hgo, dceUnfragmentIoctl_first hlen hvers hminor hptype hflag]
    by_cases hin : (callHeader tctxId littleEndian buf).fragLength ≤ buf.length
    · rw [unfragmentLoop_ok_iff hin (Nat.le_refl _) (by omega), and_iff_right hin]
    · rw [unfragmentLoop, if_pos (by omega)]
      exact iff_of_false nofun fun h => hin h.1
  · rw [dceUnfragmentIoctl_rest h]
    refine iff_of_true ⟨_, rfl⟩ ?_
    intro hlen hvers hminor hptype hflag
    exact absurd ⟨hlen, hvers, hminor, hptype, hflag⟩ h

/-! ## The stubs -/

/-- A fragment of a response, whose length is in the byte order that it says. -/
structure IsFragment (frag : Bytes) : Prop where
  header : 24 ≤ frag.length
  vers : octet frag 0 = 5
  minor : octet frag 1 = 0
  ptype : octet frag 2 = PDU_TYPE_RESPONSE
  length : (headerOf (replyEnv 0 false) true frag).fragLength = frag.length

def IsLast (frag : Bytes) : Prop := octet frag 3 &&& PFC_LAST_FRAG ≠ 0

/-- The octets behind the headers. -/
def stubs (frags : List Bytes) : Bytes := frags.flatMap (List.drop 24)

/-- What the fragments are put together to. -/
def joined (first : Bytes) (rest : List Bytes) : Bytes := first ++ stubs rest

/-- The lengths read the same in the byte order of the call. -/
def LengthsInOrder (tctxId : Nat) (littleEndian : Bool) (frags : List Bytes) : Prop :=
  ∀ frag ∈ frags, (callHeader tctxId littleEndian frag).fragLength = frag.length

theorem callHeader_append {frag rest : Bytes} (h : 16 ≤ frag.length) :
    callHeader tctxId littleEndian (frag ++ rest) = callHeader tctxId littleEndian frag := by
  have hslice : ∀ o k, o + k ≤ 16 → slice (frag ++ rest) o k = slice frag o k :=
    fun o k ho => slice_append_left (by omega)
  simp only [callHeader, headerOf, octet, hslice, Nat.reduceAdd, Nat.reduceLeDiff]

/-- What has been put together is extended by what is moved behind it. -/
theorem take_patch_append {a new : Bytes} {u : Nat} (hu : u ≤ a.length) :
    (patch a u new).take (u + new.length) = a.take u ++ new := by
  rw [patch, List.take_left']
  rw [List.length_append, List.length_take, Nat.min_eq_left hu]

/-- Every turn moves the stub of one fragment behind what has been put together. -/
theorem unfragmentLoop_stubs {turns offset u : Nat} {rest : List Bytes}
    (hfrag : ∀ frag ∈ rest, IsFragment frag) (horder : LengthsInOrder tctxId littleEndian rest)
    (hlast : ∃ frag, rest.getLast? = some frag ∧ IsLast frag)
    (hmore : ∀ frag ∈ rest.dropLast, ¬ IsLast frag)
    (hbuf : buf.drop offset = rest.flatten) (hoff : offset ≤ buf.length) (hu : u ≤ offset)
    (hturns : buf.length - offset < turns) :
    ∃ out, unfragmentLoop (replyEnv tctxId littleEndian) turns buf offset u
        = .ok (out, u + (stubs rest).length)
      ∧ out.take (u + (stubs rest).length) = buf.take u ++ stubs rest := by
  induction rest generalizing turns offset u buf with
  | nil =>
    obtain ⟨_, hnone, -⟩ := hlast
    cases hnone
  | cons frag rest ih =>
    obtain ⟨hmin, -⟩ := hfrag frag (List.mem_cons_self ..)
    have hlength := horder frag (List.mem_cons_self ..)
    have hflags : (callHeader tctxId littleEndian frag).pfcFlags = octet frag 3 := rfl
    rw [List.flatten_cons] at hbuf
    have hdrop : (buf.drop offset).length = buf.length - offset := List.length_drop
    rw [hbuf, List.length_append] at hdrop
    have hnext : callHeader tctxId littleEndian (buf.drop offset)
        = callHeader tctxId littleEndian frag := by
      rw [hbuf, callHeader_append (by omega)]
    have hstub : slice buf (offset + 24) (frag.length - 24) = frag.drop 24 := by
      rw [slice, ← List.drop_drop, hbuf, List.drop_append_of_le_length hmin, List.take_left']
      rw [List.length_drop]
    have hstubLen : (frag.drop 24).length = frag.length - 24 := List.length_drop
    have htake : (patch buf u (frag.drop 24)).take (u + (frag.length - 24))
        = buf.take u ++ frag.drop 24 := by
      rw [← hstubLen]
      exact take_patch_append (by omega)
    obtain - | ⟨turns⟩ := turns
    · omega
    rw [unfragmentLoop_turn (by omega) hu hnext (by omega) (by omega), hlength, hflags, hstub]
    cases rest with
    | nil =>
      obtain ⟨_, heq, hflag⟩ := hlast
      cases heq
      have hflag : octet frag 3 &&& PFC_LAST_FRAG ≠ 0 := hflag
      have hstubs : stubs [frag] = frag.drop 24 := List.append_nil _
      rw [if_pos hflag, hstubs, hstubLen]
      exact ⟨_, rfl, htake⟩
    | cons next rest =>
      have hno : ¬ octet frag 3 &&& PFC_LAST_FRAG ≠ 0 := hmore frag (List.mem_cons_self ..)
      have hmoved : (patch buf u (frag.drop 24)).length = buf.length := length_patch (by omega)
      have hsplit : stubs (frag :: next :: rest) = frag.drop 24 ++ stubs (next :: rest) := rfl
      obtain ⟨out, hout, htaken⟩ := @ih (patch buf u (frag.drop 24)) turns (offset + frag.length)
        (u + (frag.length - 24))
        (fun f hf => hfrag f (List.mem_cons_of_mem _ hf))
        (fun f hf => horder f (List.mem_cons_of_mem _ hf)) hlast
        (fun f hf => hmore f (List.mem_cons_of_mem _ hf))
        (by
          rw [drop_patch (by omega) (by omega), ← List.drop_drop, hbuf]
          exact List.drop_left' rfl)
        (by omega) (by omega) (by omega)
      rw [if_neg hno, hout, hsplit, List.length_append, hstubLen, ← Nat.add_assoc,
        ← List.append_assoc, ← htake]
      exact ⟨out, rfl, htaken⟩

/-- Fragments whose last one says so are put together to the first one and the stubs behind it. -/
def Reassembles (tctxId : Nat) (littleEndian : Bool) (first : Bytes) (rest : List Bytes) : Prop :=
  ∃ out, dceUnfragmentIoctl (replyEnv tctxId littleEndian) (first :: rest).flatten
      = .ok (out, (joined first rest).length)
    ∧ out.take (joined first rest).length = joined first rest

theorem reassembles {first : Bytes} {rest : List Bytes}
    (hfrag : ∀ frag ∈ first :: rest, IsFragment frag)
    (hlast : ∃ frag, (first :: rest).getLast? = some frag ∧ IsLast frag)
    (hmore : ∀ frag ∈ (first :: rest).dropLast, ¬ IsLast frag)
    (horder : rest = [] ∨ LengthsInOrder tctxId littleEndian (first :: rest)) :
    Reassembles tctxId littleEndian first rest := by
  obtain ⟨hmin, hvers, hminor, hptype, -⟩ := hfrag first (List.mem_cons_self ..)
  have hoctet : ∀ o < 16, octet (first :: rest).flatten o = octet first o := by
    intro o ho
    rw [List.flatten_cons, octet, slice_append_left (by omega), octet]
  cases rest with
  | nil =>
    obtain ⟨_, heq, hflag⟩ := hlast
    cases heq
    have hall : [first].flatten = joined first [] := rfl
    rw [Reassembles, dceUnfragmentIoctl_rest, hall]
    · exact ⟨_, rfl, List.take_length⟩
    · rintro ⟨-, -, -, -, hno⟩
      rw [hoctet 3 (by decide)] at hno
      exact hflag hno
  | cons next rest =>
    have horder : LengthsInOrder tctxId littleEndian (first :: next :: rest) :=
      horder.resolve_left (List.cons_ne_nil _ _)
    have hlength := horder first (List.mem_cons_self ..)
    have hno : octet first 3 &&& PFC_LAST_FRAG = 0 := by
      simpa [IsLast] using hmore first (List.mem_cons_self ..)
    have hall : (first :: next :: rest).flatten = first ++ (next :: rest).flatten := rfl
    have hfirst : (callHeader tctxId littleEndian (first :: next :: rest).flatten).fragLength
        = first.length := by
      rw [hall, callHeader_append (by omega), hlength]
    have hlen : (first :: next :: rest).flatten.length
        = first.length + (next :: rest).flatten.length := by
      rw [hall, List.length_append]
    obtain ⟨out, hout, htake⟩ := @unfragmentLoop_stubs tctxId littleEndian
      (first :: next :: rest).flatten ((first :: next :: rest).flatten.length + 1) first.length
      first.length (next :: rest) (fun f hf => hfrag f (List.mem_cons_of_mem _ hf))
      (fun f hf => horder f (List.mem_cons_of_mem _ hf)) hlast
      (fun f hf => hmore f (List.mem_cons_of_mem _ hf))
      (by rw [hall]; exact List.drop_left' rfl) (by omega) (Nat.le_refl _) (by omega)
    have hjoined : (joined first (next :: rest)).length
        = first.length + (stubs (next :: rest)).length := List.length_append
    have htaken : (first :: next :: rest).flatten.take first.length = first := by
      rw [hall]
      exact List.take_left' rfl
    rw [Reassembles, dceUnfragmentIoctl_first (by omega)
      (by rw [hoctet 0 (by decide), hvers]) (by rw [hoctet 1 (by decide), hminor])
      (by rw [hoctet 2 (by decide), hptype]) (by rw [hoctet 3 (by decide), hno]), hfirst, hout,
      hjoined]
    rw [htaken] at htake
    exact ⟨out, rfl, htake⟩

end

/-- **Fragments are put together inside the buffer** if and only if the first one lies inside it
and so does every one that is found behind it; and they are put together to the first one and the
stubs of the others if there is one only, or if their lengths read the same in the byte order of
the call and no other than the last says that it is the last. -/
theorem reassembly_iff (tctxId : Nat) (littleEndian : Bool) :
    (∀ buf : Bytes, (∃ r, dceUnfragmentIoctl (replyEnv tctxId littleEndian) buf = .ok r)
      ↔ FragmentsInside tctxId littleEndian buf)
    ∧ ∀ (first : Bytes) (rest : List Bytes),
      (∀ frag ∈ first :: rest, IsFragment frag) →
      (∃ frag, (first :: rest).getLast? = some frag ∧ IsLast frag) →
      (rest = [] ∨ LengthsInOrder tctxId littleEndian (first :: rest)) →
      (∀ frag ∈ (first :: rest).dropLast, ¬ IsLast frag) →
      Reassembles tctxId littleEndian first rest := by
  constructor
  · intro buf
    exact dceUnfragmentIoctl_ok_iff
  · intro first rest hfrag hlast horder hmore
    exact reassembles hfrag hlast hmore horder

/-- A fragment with an empty stub, whose data representation and length are these octets. -/
def emptyFragment (flags drep : UInt8) (len : Bytes) : Bytes :=
  [5, 0, 2, flags, drep, 0, 0, 0] ++ len ++ zeros 14

/-- A little-endian fragment with this stub. -/
def stubFragment (flags : UInt8) (stub : Bytes) : Bytes :=
  emptyFragment flags 0x10 (le 2 (24 + stub.length)) ++ stub

/-- Three of them in the reply to a little-endian call. -/
theorem reassembles_three : Reassembles 0 true (stubFragment 1 [1, 2, 3])
    [stubFragment 0 [4], stubFragment 2 [5, 6, 7, 8, 9]] := by
  have hfirst : IsFragment (stubFragment 1 [1, 2, 3]) := ⟨by decide, rfl, rfl, rfl, rfl⟩
  have hsecond : IsFragment (stubFragment 0 [4]) := ⟨by decide, rfl, rfl, rfl, rfl⟩
  have hthird : IsFragment (stubFragment 2 [5, 6, 7, 8, 9]) := ⟨by decide, rfl, rfl, rfl, rfl⟩
  have hmore : ¬ IsLast (stubFragment 1 [1, 2, 3]) ∧ ¬ IsLast (stubFragment 0 [4]) := by
    unfold IsLast
    decide
  have hlast : IsLast (stubFragment 2 [5, 6, 7, 8, 9]) := by
    unfold IsLast
    decide
  apply (reassembly_iff 0 true).2
  · simpa using ⟨hfirst, hsecond, hthird⟩
  · exact ⟨_, rfl, hlast⟩
  · right
    unfold LengthsInOrder
    decide
  · simpa using hmore

/-- A first fragment that claims 100 octets in a buffer of 24 has the header behind the buffer
read, and so have two big-endian fragments in the reply to a little-endian call. -/
theorem reassembly_leaves_the_buffer :
    ¬ (∃ r, dceUnfragmentIoctl (replyEnv 0 true) (emptyFragment 1 0x10 [100, 0]) = .ok r)
    ∧ (∀ frag ∈ [emptyFragment 1 0 [0, 24], emptyFragment 2 0 [0, 24]], IsFragment frag)
    ∧ ¬ IsLast (emptyFragment 1 0 [0, 24]) ∧ IsLast (emptyFragment 2 0 [0, 24])
    ∧ ¬ Reassembles 0 true (emptyFragment 1 0 [0, 24]) [emptyFragment 2 0 [0, 24]] := by
  have hlong : dceUnfragmentIoctl (replyEnv 0 true) (emptyFragment 1 0x10 [100, 0])
      = .error .read := rfl
  have hbig : dceUnfragmentIoctl (replyEnv 0 true)
      [emptyFragment 1 0 [0, 24], emptyFragment 2 0 [0, 24]].flatten = .error .read := rfl
  have hfirst : IsFragment (emptyFragment 1 0 [0, 24]) := ⟨by decide, rfl, rfl, rfl, rfl⟩
  have hsecond : IsFragment (emptyFragment 2 0 [0, 24]) := ⟨by decide, rfl, rfl, rfl, rfl⟩
  refine ⟨?_, by simpa using ⟨hfirst, hsecond⟩, by unfold IsLast; decide, by unfold IsLast; decide,
    ?_⟩
  · rw [hlong]
    exact nofun
  · rw [Reassembles, hbig]
    exact nofun

end Libsmb2.Dcerpc
