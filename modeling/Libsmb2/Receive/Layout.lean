import Libsmb2.Receive.Events
import Libsmb2.Receive.Chunking

/-!
# The input vectors of a message

Where the octets of a message lie while its body is read from a plain transport: its
header in the last header vector, its body and padding in the vectors behind
(`Layout`).  `Tidy` is the invariant of the receive machine that keeps it so, over every
phase (`phase_tidy`).

* `verify_good` — the signature check at the offset of a message is the check of the
  message's own octets, with the signature field cleared.
-/

set_option autoImplicit false

namespace Libsmb2

open Util

variable {h : Hooks} {K : Crypto}

/-- Vectors from offset `o` on, as slices of what was received. -/
def slices (bs : Bytes) : Nat → List IoVec → List Bytes
  | _, [] => []
  | o, v :: vs => slice bs o v.len :: slices bs (o + v.len) vs

theorem slices_flatten (bs : Bytes) (o : Nat) (vs : List IoVec) :
    (slices bs o vs).flatten = slice bs o (vs.map IoVec.len).sum := by
  induction vs generalizing o with
  | nil => simp [slices, slice]
  | cons v vs ih =>
    simp only [slices, List.flatten_cons, ih, List.map_cons, List.sum_cons, slice]
    rw [List.take_add, ← List.drop_drop]

/-- The vectors of the message being received: `pre` before it, its header, and the
vectors of its body. -/
structure Layout (rx : Receiver) (pre bodies : List IoVec) : Prop where
  before : pre ≠ []
  iov : rx.iov = pre ++ ⟨true, HEADER_SIZE⟩ :: bodies
  plain : ∀ v ∈ bodies, v.isHeader = false
  offset : rx.payloadOffset = (pre.map IoVec.len).sum + HEADER_SIZE

namespace Layout

variable {rx : Receiver} {pre bodies : List IoVec}

theorem headerIndex (hl : Layout rx pre bodies) : rx.headerIndex = pre.length := by
  have hnone : bodies.reverse.findIdx IoVec.isHeader = bodies.reverse.length :=
    List.findIdx_eq_length_of_false (fun v hv => hl.plain v (List.mem_reverse.mp hv))
  have hfind : rx.iov.reverse.findIdx IoVec.isHeader = bodies.length := by
    rw [hl.iov]
    simp only [List.reverse_append, List.reverse_cons, List.append_assoc]
    rw [List.findIdx_append, hnone]
    simp [List.findIdx_cons]
  unfold Receiver.headerIndex
  rw [hfind, hl.iov]
  simp only [List.length_append, List.length_cons]
  omega

theorem offset_before (hl : Layout rx pre bodies) :
    rx.offset pre.length = (pre.map IoVec.len).sum := by
  simp [Receiver.offset, hl.iov]

/-- The header of the message, and what its vectors hold. -/
theorem header_eq (hl : Layout rx pre bodies) :
    rx.header = slice rx.received (pre.map IoVec.len).sum HEADER_SIZE := by
  rw [Receiver.header, hl.headerIndex, hl.offset_before]

theorem one_add_memberOffset (hl : Layout rx pre bodies) : 1 + rx.memberOffset = pre.length := by
  have hpos : pre.length ≠ 0 := fun h0 => hl.before (List.eq_nil_of_length_eq_zero h0)
  rw [Receiver.memberOffset, hl.headerIndex]
  omega

end Layout

theorem Receiver.offset_succ {rx : Receiver} {k : Nat} {v : IoVec} {vs : List IoVec}
    (hd : rx.iov.drop k = v :: vs) : rx.offset (k + 1) = rx.offset k + v.len := by
  have hget : rx.iov[k]? = some v := by
    have h0 : (rx.iov.drop k)[0]? = some v := by rw [hd]; rfl
    simpa using h0
  simp only [Receiver.offset, List.take_add_one, hget]
  simp

/-- The vectors behind the header hold consecutive slices. -/
theorem contents_eq_slices (rx : Receiver) (shared : Bool) :
    ∀ (vs : List IoVec) (k : Nat), rx.iov.drop k = vs → (∀ v ∈ vs, v.isHeader = false) →
      (vs.zipIdx k).map (fun (v, i) =>
        if shared && v.isHeader then patch (rx.content i v) 48 (zeros SIGNATURE_SIZE)
        else rx.content i v) = slices rx.received (rx.offset k) vs
  | [], _, _, _ => rfl
  | v :: vs, k, hd, hv => by
    have hplain : v.isHeader = false := hv v (List.mem_cons_self ..)
    have hd' : rx.iov.drop (k + 1) = vs := by
      rw [← List.tail_drop, hd]
      rfl
    have ih := contents_eq_slices rx shared vs (k + 1) hd'
      (fun w hw => hv w (List.mem_cons_of_mem _ hw))
    simp only [List.zipIdx_cons, List.map_cons, slices, ih, Receiver.offset_succ hd]
    simp [Receiver.content, hplain]

/-- All octets of the message have arrived. -/
structure Full (rx : Receiver) : Prop where
  length : rx.received.length = rx.numDone
  done : rx.numDone = rx.totalSize

variable {s : Smb2}

section
variable {rx : Receiver} {pre bodies : List IoVec}

theorem Layout.received_length (hl : Layout rx pre bodies) (hf : Full rx) :
    rx.received.length =
      (pre.map IoVec.len).sum + HEADER_SIZE + (bodies.map IoVec.len).sum := by
  rw [hf.length, hf.done, Receiver.totalSize, hl.iov]
  simp only [List.map_append, List.map_cons, List.sum_append, List.sum_cons]
  omega

/-- The octets of the message: its header, then its body. -/
theorem Layout.member_eq (hl : Layout rx pre bodies) (hf : Full rx) :
    rx.member = rx.header ++ (slices rx.received ((pre.map IoVec.len).sum + HEADER_SIZE)
      bodies).flatten := by
  have hlen := hl.received_length hf
  have hoff : rx.payloadOffset - HEADER_SIZE = (pre.map IoVec.len).sum := by
    rw [hl.offset]
    omega
  rw [Receiver.member, hoff, hl.header_eq, slices_flatten]
  simp only [slice]
  have htail : (rx.received.drop ((pre.map IoVec.len).sum + HEADER_SIZE)).take
      (bodies.map IoVec.len).sum = rx.received.drop ((pre.map IoVec.len).sum + HEADER_SIZE) :=
    List.take_of_length_le (by simp only [List.length_drop]; omega)
  rw [htail, ← List.drop_drop, List.take_append_drop]

theorem Layout.header_length (hl : Layout rx pre bodies) (hf : Full rx) :
    rx.header.length = HEADER_SIZE := by
  have hlen := hl.received_length hf
  rw [hl.header_eq, length_slice]
  omega

theorem Layout.signedVectors_eq (hl : Layout rx pre bodies) (hf : Full rx) :
    rx.signedVectors pre.length = patch rx.header 48 (zeros SIGNATURE_SIZE) ::
      slices rx.received ((pre.map IoVec.len).sum + HEADER_SIZE) bodies := by
  have hdrop : rx.iov.drop pre.length = ⟨true, HEADER_SIZE⟩ :: bodies := by
    rw [hl.iov]
    simp
  have hdrop' : rx.iov.drop (pre.length + 1) = bodies := by
    rw [← List.tail_drop, hdrop]
    rfl
  have hzip : rx.iov.zipIdx.drop pre.length =
      (⟨true, HEADER_SIZE⟩, pre.length) :: bodies.zipIdx (pre.length + 1) := by
    rw [hl.iov, List.zipIdx_append, List.drop_left' (by simp)]
    simp
  have hbody := contents_eq_slices rx true bodies (pre.length + 1) hdrop' hl.plain
  rw [Receiver.offset_succ hdrop, hl.offset_before] at hbody
  have hfull : rx.header.take HEADER_SIZE = rx.header :=
    List.take_of_length_le (by rw [hl.header_length hf])
  unfold Receiver.signedVectors
  rw [hdrop, hzip]
  simp only [List.head?_cons, Option.map_some, Option.getD_some, List.map_cons]
  refine List.cons_eq_cons.mpr ⟨?_, hbody⟩
  simp [Receiver.content, hfull]

/-- **The check at the offset of a message is the check of its own octets.** -/
theorem verify_good (hl : Layout s.rx pre bodies) (hf : Full s.rx)
    (hv : verify K s s.rx.memberOffset = .good) :
    slice s.rx.member 48 SIGNATURE_SIZE = calcSignature K s.ctx [s.rx.member] := by
  have hlen := hl.header_length hf
  have hget : s.rx.iov[pre.length]? = some ⟨true, HEADER_SIZE⟩ := by
    rw [hl.iov]
    simp
  have hsig : s.rx.content pre.length ⟨true, HEADER_SIZE⟩ = s.rx.header := by
    simp [Receiver.content, List.take_of_length_le (le_of_eq hlen)]
  -- the octets that are signed are the same, cleared before or after they are joined
  have hmsg : (clearSignature (s.rx.signedVectors pre.length)).flatten =
      (clearSignature [s.rx.member]).flatten := by
    rw [hl.signedVectors_eq hf, hl.member_eq hf]
    simp only [clearSignature, List.flatten_cons, List.flatten_nil, List.append_nil]
    rw [patch_patch rfl (by simp [hlen, HEADER_SIZE, SIGNATURE_SIZE]),
      patch_append (by simp [hlen, HEADER_SIZE, SIGNATURE_SIZE])]
  unfold verify at hv
  rw [hl.one_add_memberOffset, hget] at hv
  simp only [Bool.not_true, Bool.false_and, Bool.false_eq_true, if_false, max_self, hsig] at hv
  split at hv
  · rename_i heq
    rw [hl.member_eq hf,
      slice_append_left (by rw [hlen]; simp [HEADER_SIZE, SIGNATURE_SIZE]), heq]
    simp only [calcSignature, signature, hmsg, hl.member_eq hf]
  · cases hv

end

/-! ## The layout is kept -/

/-- What the vectors look like while each phase is read. -/
def Shape (rx : Receiver) : Prop :=
  match rx.state with
  | .spl => rx.iov = [⟨false, SPL_SIZE⟩]
  | .header => ∃ pre, pre ≠ [] ∧ rx.iov = pre ++ [⟨true, HEADER_SIZE⟩]
  | .fixed | .variable | .pad => ∃ pre bodies, Layout rx pre bodies
  | .trfm | .unknown => True

/-- **The invariant of the receiver on a plain transport.** -/
structure Tidy (rx : Receiver) : Prop where
  plain : rx.enc = false
  length : rx.received.length = rx.numDone
  room : rx.numDone ≤ rx.totalSize
  shape : Shape rx

/-- The receiver stands inside a frame, or between two. -/
def Resting (s : Smb2) : Prop :=
  s.rx.enc = false ∧ (s.rx.numDone = 0 ∨ Tidy s.rx)

/-- A phase that goes on inside the frame keeps the layout. -/
def Flow.KeepsTidy : Flow → Prop
  | .more s => Tidy s.rx ∧ s.rx.numDone ≠ 0
  | .chained s => Tidy s.rx ∧ s.rx.numDone ≠ 0
  | _ => True

theorem totalSize_push (rx : Receiver) (v : IoVec) :
    Receiver.totalSize { rx with iov := rx.iov ++ [v] } = rx.totalSize + v.len := by
  simp [Receiver.totalSize]

section
variable {pre bodies : List IoVec}

theorem Layout.push {rx : Receiver} (hl : Layout rx pre bodies) (n : Nat) (st : RecvState) :
    Layout { rx with iov := rx.iov ++ [⟨false, n⟩], total := rx.total + n, state := st } pre
      (bodies ++ [⟨false, n⟩]) where
  before := hl.before
  iov := by simp [hl.iov]
  plain v hv := by
    rcases List.mem_append.mp hv with hv | hv
    · exact hl.plain v hv
    · rw [List.mem_singleton.mp hv]
  offset := hl.offset

/-- The next vector of the message is set up. -/
theorem expect_tidy {st : RecvState} {len : Int} (hplain : s.rx.enc = false)
    (hf : Full s.rx) (hpos : s.rx.numDone ≠ 0)
    (hst : st ∈ [RecvState.fixed, .variable, .pad] → ∃ pre bodies, Layout s.rx pre bodies)
    (hst' : st ∉ [RecvState.spl, .header]) : (expect s st len).KeepsTidy := by
  refine expect_cases s st len ?_ ?_
  · intro _
    trivial
  · intro _
    refine ⟨⟨hplain, hf.length, ?_, ?_⟩, hpos⟩
    · have htot := totalSize_push s.rx ⟨false, len.toNat⟩
      have := hf.done
      simp only [Receiver.totalSize] at htot this ⊢
      omega
    · cases st with
      | spl => simp at hst'
      | header => simp at hst'
      | trfm => trivial
      | unknown => trivial
      | fixed =>
        obtain ⟨pre, bodies, hl⟩ := hst (by decide)
        exact ⟨pre, _, hl.push len.toNat .fixed⟩
      | «variable» =>
        obtain ⟨pre, bodies, hl⟩ := hst (by decide)
        exact ⟨pre, _, hl.push len.toNat .variable⟩
      | pad =>
        obtain ⟨pre, bodies, hl⟩ := hst (by decide)
        exact ⟨pre, _, hl.push len.toNat .pad⟩

/-- The application's own vectors hold part of the body. -/
theorem expectVariable_tidy {ns : List Nat} {len : Nat} {b : List IoVec} (hplain : s.rx.enc = false)
    (hlen : s.rx.received.length = s.rx.numDone) (hroom : s.rx.numDone ≤ s.rx.totalSize)
    (hpos : s.rx.numDone ≠ 0) (hl : Layout s.rx pre b) :
    (expectVariable s ns len).KeepsTidy := by
  induction ns generalizing s len b with
  | nil =>
    unfold expectVariable expect
    split
    · trivial
    · split
      · trivial
      · rename_i s' e
        have hrx := addIovector_rx e
        have htot := totalSize_push s.rx ⟨false, (len : Int).toNat⟩
        simp only [Flow.KeepsTidy, hrx]
        refine ⟨⟨hplain, hlen, ?_, pre, _, hl.push _ .variable⟩, hpos⟩
        simp only [Receiver.totalSize] at htot hroom ⊢
        omega
  | cons n ns ih =>
    unfold expectVariable
    split
    · trivial
    · rename_i s' e
      have hrx := addIovector_rx e
      have htot := totalSize_push s.rx ⟨false, min n len⟩
      have hroom' : s'.rx.numDone ≤ s'.rx.totalSize := by
        rw [hrx]
        simp only [Receiver.totalSize] at htot hroom ⊢
        omega
      have hl' := hl.push (min n len) s.rx.state
      split
      · refine ⟨⟨?_, ?_, hroom', pre, b ++ [⟨false, min n len⟩], ?_⟩, ?_⟩
        · rw [hrx]; exact hplain
        · rw [hrx]; exact hlen
        · rw [hrx]; exact hl.push _ .variable
        · rw [hrx]; exact hpos
      · refine ih (b := b ++ [⟨false, min n len⟩]) ?_ ?_ hroom' ?_ ?_
        · rw [hrx]; exact hplain
        · rw [hrx]; exact hlen
        · rw [hrx]; exact hpos
        · rw [hrx]; exact hl'

theorem endMember_tidy (hplain : s.rx.enc = false) (hf : Full s.rx)
    (hpos : s.rx.numDone ≠ 0) (hl : Layout s.rx pre bodies) : (endMember s).KeepsTidy := by
  unfold endMember
  split
  · trivial
  · split
    · split
      · trivial
      · rename_i s' e
        have hrx := addIovector_rx e
        have htot := totalSize_push s.rx ⟨true, HEADER_SIZE⟩
        have hdone := hf.done
        simp only [Flow.KeepsTidy, hrx]
        refine ⟨⟨hplain, hf.length, ?_, s.rx.iov, ?_, rfl⟩, hpos⟩
        · simp only [Receiver.totalSize] at htot hdone ⊢
          omega
        · rw [hl.iov]
          simp
    · trivial

end

/-- The phases that read the body of a message. -/
theorem complete_tidy {off : Nat} {pre bodies : List IoVec} (hplain : s.rx.enc = false)
    (hf : Full s.rx) (hpos : s.rx.numDone ≠ 0) (hl : Layout s.rx pre bodies) :
    (complete h K off s).KeepsTidy := by
  have hcompletes := complete_completes (h := h) (K := K) off s
  generalize complete h K off s = f at hcompletes ⊢
  cases hcompletes with
  | dispatched p hp hcb hst hv =>
    exact endMember_tidy hplain ⟨hf.length, hf.done⟩ hpos ⟨hl.before, hl.iov, hl.plain, hl.offset⟩
  | _ => trivial

theorem padOrComplete_tidy {off : Nat} {pre bodies : List IoVec}
    (hplain : s.rx.enc = false) (hf : Full s.rx) (hpos : s.rx.numDone ≠ 0)
    (hl : Layout s.rx pre bodies) : (padOrComplete h K off s).KeepsTidy := by
  unfold padOrComplete
  simp only
  split
  · trivial
  · split
    · exact expect_tidy hplain hf hpos (fun _ => ⟨pre, bodies, hl⟩) (by decide)
    · exact complete_tidy hplain hf hpos hl

theorem expectFixed_tidy {pre bodies : List IoVec} (hplain : s.rx.enc = false)
    (hf : Full s.rx) (hpos : s.rx.numDone ≠ 0) (hl : Layout s.rx pre bodies) :
    (expectFixed s).KeepsTidy := by
  unfold expectFixed
  split
  · trivial
  · split
    · trivial
    · exact expect_tidy hplain hf hpos (fun _ => ⟨pre, bodies, hl⟩) (by decide)

theorem smb2Header_tidy {xfrm : Bool} {pre b : List IoVec}
    (hplain : s.rx.enc = false) (hf : Full s.rx) (hpos : s.rx.numDone ≠ 0)
    (hl : Layout s.rx pre b) : (smb2Header xfrm s).KeepsTidy := by
  -- an event more in the log changes nothing here
  have hf' : ∀ e, Full (s.rx.emit e) := fun _ => ⟨hf.length, hf.done⟩
  have hl' : ∀ e, Layout (s.rx.emit e) pre b := fun _ => ⟨hl.before, hl.iov, hl.plain, hl.offset⟩
  unfold smb2Header
  simp only
  split
  · trivial
  · split
    · trivial
    · split
      · exact expect_tidy hplain hf hpos (fun _ => ⟨pre, b, hl⟩) (by decide)
      · split
        · unfold requestHeader
          split
          · trivial
          · exact expectFixed_tidy hplain (hf' _) hpos (hl' _)
        · unfold replyHeader
          split
          · simp only
            split
            · trivial
            · exact expect_tidy hplain (hf' _) hpos (fun _ => ⟨pre, b, hl' _⟩) (by decide)
          · trivial
          · trivial
          · exact expectFixed_tidy hplain (hf' _) hpos (hl' _)

theorem headerPhase_tidy {xfrm : Bool} {pre : List IoVec} (hplain : s.rx.enc = false)
    (hf : Full s.rx) (hpos : s.rx.numDone ≠ 0) (hpre : pre ≠ [])
    (hiov : s.rx.iov = pre ++ [⟨true, HEADER_SIZE⟩]) : (headerPhase xfrm s).KeepsTidy := by
  have hdone := hf.done
  have hnum : s.rx.numDone = (pre.map IoVec.len).sum + HEADER_SIZE := by
    rw [hf.done, Receiver.totalSize, hiov]
    simp
  unfold headerPhase
  split
  · unfold transformHeader
    simp only
    split
    · trivial
    · split
      · trivial
      · split
        · trivial
        · rename_i hlen hlen12
          refine ⟨⟨hplain, hf.length, ?_, trivial⟩, hpos⟩
          simp only [Receiver.totalSize, hiov] at hdone ⊢
          simp [TRANSFORM_HEADER_SIZE, HEADER_SIZE] at hdone hlen12 ⊢
          omega
  · split
    · trivial
    · simp only
      split
      · trivial
      · exact smb2Header_tidy (b := []) hplain ⟨hf.length, hf.done⟩ hpos
          ⟨hpre, hiov, by simp, hnum⟩

/-- **A phase on a plain transport keeps the layout.** -/
theorem phase_tidy {off : Nat} (ht : Tidy s.rx) (hf : Full s.rx)
    (hpos : s.rx.numDone ≠ 0) : (phase h K false off s).KeepsTidy := by
  have hshape := ht.shape
  unfold Shape at hshape
  unfold phase
  split
  · rename_i hst
    simp only [hst] at hshape
    unfold splPhase
    simp only
    split
    · trivial
    · rename_i s' e
      have hrx := addIovector_rx e
      have hdone := hf.done
      simp only [Flow.KeepsTidy, hrx]
      refine ⟨⟨ht.plain, hf.length, ?_, s.rx.iov, ?_, rfl⟩, hpos⟩
      · simp only [Receiver.totalSize, hshape] at hdone ⊢
        simp at hdone ⊢
        omega
      · rw [hshape]
        simp
  · rename_i hst
    simp only [hst] at hshape
    obtain ⟨pre, hpre, hiov⟩ := hshape
    exact headerPhase_tidy ht.plain hf hpos hpre hiov
  · rename_i hst
    simp only [hst] at hshape
    obtain ⟨pre, bodies, hl⟩ := hshape
    unfold fixedPhase
    split
    · trivial
    · simp only
      split
      · trivial
      · split
        · exact padOrComplete_tidy ht.plain ⟨hf.length, hf.done⟩ hpos
            ⟨hl.before, hl.iov, hl.plain, hl.offset⟩
        · exact expectVariable_tidy ht.plain hf.length ht.room hpos
            ⟨hl.before, hl.iov, hl.plain, hl.offset⟩
  · rename_i hst
    simp only [hst] at hshape
    obtain ⟨pre, bodies, hl⟩ := hshape
    unfold variablePhase
    split
    · trivial
    · simp only
      split
      · trivial
      · exact padOrComplete_tidy ht.plain ⟨hf.length, hf.done⟩ hpos
          ⟨hl.before, hl.iov, hl.plain, hl.offset⟩
  · rename_i hst
    simp only [hst] at hshape
    obtain ⟨pre, bodies, hl⟩ := hshape
    exact complete_tidy ht.plain hf hpos hl
  · unfold transformPhase
    simp only
    split <;> trivial
  · trivial

end Libsmb2
