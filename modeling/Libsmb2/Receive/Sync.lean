import Libsmb2.Receive.Trace

/-!
# Frame synchronisation

A frame is a length prefix and as many octets as it says.  How much of it is still to be read
is computed in six places of `smb2_read_data`; what all of them have to agree on is where the
frame ends (`frameEnd`).

* `phase_inFrame` — a phase keeps the vectors inside the frame, and a frame that ends with
  result 0 ends there;
* `frames_are_synchronised` — **in every orderly run of a client each frame with result 0 took
  exactly the octets its prefix says, and each decrypted buffer was read to its end**;
* `chained_transform_loses_sync` — a transform header behind another message of its frame
  makes the client read past the end.
-/

set_option autoImplicit false

namespace Libsmb2

open Util

/-- Where the octets of a frame end: behind the prefix as well, if it was read with them. -/
def frameEnd (xfrm : Bool) (rx : Receiver) : Nat := rx.spl + (if xfrm then 0 else SPL_SIZE)

/-- The sync of a stream at a point of a run. -/
def Visit.Synced : Visit → Prop
  | .frame octets => octets.length = fromBe (octets.take SPL_SIZE) + SPL_SIZE
  | .buffer rest => rest = []
  | .readMore _ => True
  | .filled _ _ => True

/-- A transform header opens its frame, and no message ends two gigabytes or more behind the
end of its frame. -/
def Visit.Orderly : Visit → Prop
  | .filled false s =>
    (s.rx.state = .header → s.rx.header.take 4 = Header.smb3tfrm →
      s.rx.numDone = SPL_SIZE + HEADER_SIZE) ∧
    (s.rx.state ≠ .spl → s.rx.numDone < s.rx.spl + 2147483648)
  | _ => True

instance : DecidablePred Visit.Synced
  | .readMore _ => inferInstanceAs (Decidable True)
  | .filled _ _ => inferInstanceAs (Decidable True)
  | .frame _ => inferInstanceAs (Decidable (_ = _))
  | .buffer _ => inferInstanceAs (Decidable (_ = _))

instance : DecidablePred Visit.Orderly
  | .readMore _ => inferInstanceAs (Decidable True)
  | .filled true _ => inferInstanceAs (Decidable True)
  | .filled false _ => inferInstanceAs (Decidable ((_ → _ → _ = _) ∧ (_ → _)))
  | .frame _ => inferInstanceAs (Decidable True)
  | .buffer _ => inferInstanceAs (Decidable True)

/-! ## The phases and the end of the frame -/

/-- **What the vectors say about the end of the frame.** -/
structure Bounded (xfrm : Bool) (rx : Receiver) : Prop where
  enc : rx.enc = xfrm
  small : rx.spl + (if xfrm then SPL_SIZE else 0) < 4294967296
  first : rx.state = .spl → xfrm = false ∧ rx.iov = [⟨false, SPL_SIZE⟩]
  header : rx.state = .header → ∃ pre, rx.iov = pre ++ [⟨true, HEADER_SIZE⟩]
  body : rx.state = .fixed ∨ rx.state = .variable → rx.hdr.status ≠ STATUS_PENDING
  unknown : rx.state = .unknown → rx.totalSize = frameEnd xfrm rx
  pad : rx.state = .pad → rx.hdr.status = STATUS_PENDING ∨ rx.hdr.nextCommand = 0 →
    rx.totalSize = frameEnd xfrm rx
  trfm : rx.state = .trfm → frameEnd xfrm rx ≤ rx.totalSize ∧
    (xfrm = false → rx.totalSize = frameEnd xfrm rx)

theorem Bounded.of_header {xfrm : Bool} {rx : Receiver} (hst : rx.state = .header)
    (henc : rx.enc = xfrm) (hsmall : rx.spl + (if xfrm then SPL_SIZE else 0) < 4294967296)
    (hiov : ∃ pre, rx.iov = pre ++ [⟨true, HEADER_SIZE⟩]) : Bounded xfrm rx := by
  constructor <;> simp [hst, henc, hsmall, hiov]

/-- The next read belongs to the same frame. -/
structure Continues (xfrm : Bool) (rx : Receiver) (s : Smb2) : Prop where
  bounded : Bounded xfrm s.rx
  spl : s.rx.spl = rx.spl
  numDone : s.rx.numDone = rx.numDone
  received : s.rx.received = rx.received

/-- What a phase that started with `rx` leads to. -/
def Flow.InFrame (xfrm : Bool) (rx : Receiver) : Flow → Prop
  | .more s => Continues xfrm rx s
  | .chained s => Continues xfrm rx s
  | .done _ => rx.numDone = frameEnd xfrm rx
  | .decrypt plain s => frameEnd xfrm rx ≤ rx.numDone ∧
      (xfrm = false → rx.numDone = frameEnd xfrm rx) ∧ Bounded true s.rx ∧ s.rx.numDone = 0 ∧
      s.rx.received = [] ∧ s.rx.spl = plain.length ∧ s.rx.state = .header
  | .flush s => s.ctx.isServer = true
  | .fail _ _ => True
  | .fault _ _ => True

/-- The fields that a header, a decoder and a callback leave alone. -/
structure SameFrame (rx rx' : Receiver) : Prop where
  spl : rx'.spl = rx.spl
  numDone : rx'.numDone = rx.numDone
  received : rx'.received = rx.received
  enc : rx'.enc = rx.enc
  iov : rx'.iov = rx.iov

theorem SameFrame.refl (rx : Receiver) : SameFrame rx rx := ⟨rfl, rfl, rfl, rfl, rfl⟩

theorem SameFrame.emit (rx : Receiver) (e : RxEvent) : SameFrame rx (rx.emit e) :=
  ⟨rfl, rfl, rfl, rfl, rfl⟩

theorem SameFrame.totalSize {rx rx' : Receiver} (hs : SameFrame rx rx') :
    rx'.totalSize = rx.totalSize := by
  simp only [Receiver.totalSize, hs.iov]

section
variable {h : Hooks} {K : Crypto} {xfrm : Bool} {rx : Receiver} {s s' : Smb2}

/-- A vector for the next phase: up to the end of the frame, or for the body of a message. -/
theorem expect_inFrame {st : RecvState} {len : Int} (hsame : SameFrame rx s.rx)
    (henc : rx.enc = xfrm) (hsmall : rx.spl + (if xfrm then SPL_SIZE else 0) < 4294967296)
    (hst : st ∈ [RecvState.fixed, .variable, .pad, .unknown])
    (hbody : st = .fixed ∨ st = .variable → s.rx.hdr.status ≠ STATUS_PENDING)
    (hend : st = .unknown ∨ st = .pad ∧ (s.rx.hdr.status = STATUS_PENDING ∨
      s.rx.hdr.nextCommand = 0) → 0 ≤ len → rx.totalSize + len = frameEnd xfrm rx) :
    (expect s st len).InFrame xfrm rx := by
  refine expect_cases s st len ?_ ?_
  · intro _
    trivial
  · intro hpos
    have hsum : Receiver.totalSize { s.rx with iov := s.rx.iov ++ [⟨false, len.toNat⟩] } =
        rx.totalSize + len.toNat := by
      rw [← hsame.totalSize]
      exact totalSize_push s.rx ⟨false, len.toNat⟩
    -- a phase that ends the frame has the vector that reaches up to its end
    have hto : st = .unknown ∨ st = .pad ∧ (s.rx.hdr.status = STATUS_PENDING ∨
        s.rx.hdr.nextCommand = 0) →
        Receiver.totalSize { s.rx with iov := s.rx.iov ++ [⟨false, len.toNat⟩] } =
          frameEnd xfrm s.rx := by
      intro hc
      have hfe : frameEnd xfrm s.rx = frameEnd xfrm rx := by
        simp only [frameEnd, hsame.spl]
      have hlen := hend hc hpos
      rw [hfe]
      omega
    refine ⟨⟨?_, ?_, ?_, ?_, ?_, ?_, ?_, ?_⟩, hsame.spl, hsame.numDone, hsame.received⟩
    · exact hsame.enc.trans henc
    · simp only [hsame.spl]
      exact hsmall
    · intro hh
      have : st = .spl := hh
      rw [this] at hst
      simp at hst
    · intro hh
      have : st = .header := hh
      rw [this] at hst
      simp at hst
    · exact hbody
    · intro hh
      exact hto (.inl hh)
    · intro hh hp
      exact hto (.inr ⟨hh, hp⟩)
    · intro hh
      have : st = .trfm := hh
      rw [this] at hst
      simp at hst

/-- The body of a message is to be read. -/
theorem expectFixed_inFrame (hsame : SameFrame rx s.rx) (henc : rx.enc = xfrm)
    (hsmall : rx.spl + (if xfrm then SPL_SIZE else 0) < 4294967296)
    (hst : s.rx.hdr.status ≠ STATUS_PENDING) : (expectFixed s).InFrame xfrm rx := by
  unfold expectFixed
  split
  · trivial
  · split
    · trivial
    · refine expect_inFrame hsame henc hsmall (by simp) (fun _ => hst) ?_
      rintro (hh | ⟨hh, _⟩) <;> cases hh

theorem expectVariable_inFrame {ns : List Nat} {len : Nat} (hspl : s.rx.spl = rx.spl)
    (hnum : s.rx.numDone = rx.numDone) (hrec : s.rx.received = rx.received)
    (henc : s.rx.enc = xfrm) (hsmall : rx.spl + (if xfrm then SPL_SIZE else 0) < 4294967296)
    (hst : s.rx.hdr.status ≠ STATUS_PENDING) : (expectVariable s ns len).InFrame xfrm rx := by
  induction ns generalizing s len with
  | nil =>
    unfold expectVariable
    refine expect_cases s .variable len (fun _ => trivial) ?_
    intro _
    refine ⟨⟨henc, ?_, ?_, ?_, fun _ => hst, ?_, ?_, ?_⟩, hspl, hnum, hrec⟩
    · simp only [hspl]
      exact hsmall
    all_goals
      intro hh
      cases hh
  | cons n ns ih =>
    unfold expectVariable
    split
    · trivial
    · rename_i s' e
      have hrx := addIovector_rx e
      have hspl' : s'.rx.spl = rx.spl := by rw [hrx, hspl]
      have hnum' : s'.rx.numDone = rx.numDone := by rw [hrx, hnum]
      have hrec' : s'.rx.received = rx.received := by rw [hrx, hrec]
      have henc' : s'.rx.enc = xfrm := by rw [hrx, henc]
      have hst' : s'.rx.hdr.status ≠ STATUS_PENDING := by rw [hrx]; exact hst
      split
      · refine ⟨⟨henc', ?_, ?_, ?_, fun _ => hst', ?_, ?_, ?_⟩, hspl', hnum', hrec'⟩
        · simp only [hspl']
          exact hsmall
        all_goals
          intro hh
          cases hh
      · exact ih hspl' hnum' hrec' henc' hst'

/-- The end of a message: the next one of the chain, or the end of the frame. -/
theorem endMember_inFrame (hsame : SameFrame rx s.rx) (henc : rx.enc = xfrm)
    (hsmall : rx.spl + (if xfrm then SPL_SIZE else 0) < 4294967296)
    (hend : s.rx.hdr.nextCommand = 0 → rx.numDone = frameEnd xfrm rx) :
    (endMember s).InFrame xfrm rx := by
  unfold endMember
  split
  · trivial
  · split
    · split
      · trivial
      · rename_i s' e
        have hrx := addIovector_rx e
        refine ⟨.of_header rfl ?_ ?_ ⟨s.rx.iov, by simp only [hrx]⟩, ?_, ?_, ?_⟩
        · simp only [hrx]
          rw [hsame.enc, henc]
        · simp only [hrx, hsame.spl]
          exact hsmall
        · simp only [hrx, hsame.spl]
        · simp only [hrx, hsame.numDone]
        · simp only [hrx, hsame.received]
    · rename_i hnext
      exact hend (by simpa using hnext)

/-- What follows the `switch`, when the message or the frame has been read. -/
theorem complete_inFrame {off : Nat} (hsame : SameFrame rx s.rx) (henc : rx.enc = xfrm)
    (hsmall : rx.spl + (if xfrm then SPL_SIZE else 0) < 4294967296)
    (hend : s.rx.hdr.status = STATUS_PENDING ∨ s.rx.hdr.nextCommand = 0 →
      rx.numDone = frameEnd xfrm rx) : (complete h K off s).InFrame xfrm rx := by
  have hcompletes := complete_completes (h := h) (K := K) off s
  generalize complete h K off s = f at hcompletes ⊢
  cases hcompletes with
  | dispatched p hp hcb hst hv =>
    refine endMember_inFrame ⟨hsame.spl, hsame.numDone, hsame.received, hsame.enc, hsame.iov⟩
      henc hsmall ?_
    exact fun hn => hend (.inr hn)
  | quiet hst => exact hend (.inl hst)
  | shown p hpt hp hcb hst hf => exact hend (.inl hst)
  | _ => trivial

/-- The octets read lie where the signed arithmetic of the source is exact. -/
structure Near (xfrm : Bool) (rx : Receiver) : Prop where
  plain : xfrm = false → SPL_SIZE ≤ rx.numDone ∧ rx.numDone < rx.spl + 2147483648
  nested : xfrm = true → rx.numDone ≤ rx.spl

/-- The octets that are left of the frame, where they are skipped. -/
theorem restLength_toEnd (hn : Near xfrm rx)
    (hsmall : rx.spl + (if xfrm then SPL_SIZE else 0) < 4294967296)
    (hpos : 0 ≤ restLength rx xfrm) : rx.numDone + restLength rx xfrm = frameEnd xfrm rx := by
  cases xfrm with
  | false =>
    obtain ⟨hlow, hhigh⟩ := hn.plain rfl
    simp only [restLength, toInt32, frameEnd, SPL_SIZE, Bool.false_eq_true, if_false, Nat.cast_ofNat,
      Nat.cast_add] at hlow hsmall hpos ⊢
    split_ifs at hpos ⊢ <;> omega
  | true =>
    have hle := hn.nested rfl
    simp only [restLength, toInt32, frameEnd, SPL_SIZE, if_true, Nat.add_zero]
      at hsmall hpos ⊢
    split_ifs at hpos ⊢ <;> omega

/-- The octets that are left of the frame, behind its last message. -/
theorem padLength_toEnd (hn : Near xfrm rx) (henc : rx.enc = xfrm)
    (hsmall : rx.spl + (if xfrm then SPL_SIZE else 0) < 4294967296) (hnext : rx.hdr.nextCommand = 0)
    (hpos : 0 ≤ padLength rx) : rx.numDone + padLength rx = frameEnd xfrm rx := by
  subst henc
  cases henc : rx.enc with
  | false =>
    obtain ⟨hlow, hhigh⟩ := hn.plain henc
    simp only [padLength, toInt32, frameEnd, SPL_SIZE, hnext, henc, Bool.false_eq_true, if_false,
      ne_eq, not_true_eq_false] at hlow hsmall hpos ⊢
    split_ifs at hpos ⊢ <;> omega
  | true =>
    have hle := hn.nested henc
    simp only [padLength, toInt32, frameEnd, SPL_SIZE, hnext, henc, if_true, if_false,
      ne_eq, not_true_eq_false] at hsmall hpos ⊢
    split_ifs at hpos ⊢ <;> omega

theorem padOrComplete_inFrame {off : Nat} (hsame : SameFrame rx s.rx)
    (henc : rx.enc = xfrm) (hsmall : rx.spl + (if xfrm then SPL_SIZE else 0) < 4294967296)
    (hdone : rx.numDone = rx.totalSize) (hn : Near xfrm rx)
    (hst : s.rx.hdr.status ≠ STATUS_PENDING) : (padOrComplete h K off s).InFrame xfrm rx := by
  have hn' : Near xfrm s.rx := by
    constructor
    · intro hx
      rw [hsame.numDone, hsame.spl]
      exact hn.plain hx
    · intro hx
      rw [hsame.numDone, hsame.spl]
      exact hn.nested hx
  have htoEnd : s.rx.hdr.nextCommand = 0 → 0 ≤ padLength s.rx →
      rx.numDone + padLength s.rx = frameEnd xfrm rx := by
    intro hnext hpos
    have hadd := padLength_toEnd hn' (hsame.enc.trans henc) (hsame.spl ▸ hsmall) hnext hpos
    simp only [hsame.numDone, frameEnd, hsame.spl] at hadd
    exact hadd
  unfold padOrComplete
  simp only
  split
  · trivial
  · rename_i hneg
    split
    · refine expect_inFrame hsame henc hsmall (by simp) ?_ ?_
      · rintro (hh | hh) <;> cases hh
      · rintro (hh | ⟨_, hp | hnext⟩) hlen
        · cases hh
        · exact absurd hp hst
        · rw [← hdone]
          exact htoEnd hnext hlen
    · rename_i hzero
      refine complete_inFrame hsame henc hsmall ?_
      rintro (hp | hnext)
      · exact absurd hp hst
      · have hadd := htoEnd hnext (by omega)
        omega

/-- A decoded header of a client. -/
theorem smb2Header_inFrame (hsame : SameFrame rx s.rx) (henc : rx.enc = xfrm)
    (hsmall : rx.spl + (if xfrm then SPL_SIZE else 0) < 4294967296)
    (hdone : rx.numDone = rx.totalSize) (hn : Near xfrm rx) :
    (smb2Header xfrm s).InFrame xfrm rx := by
  have hrest : restLength s.rx xfrm = restLength rx xfrm := by
    simp only [restLength, hsame.spl, hsame.numDone]
  have hsame' : ∀ e, SameFrame rx (s.rx.emit e) := fun _ =>
    ⟨hsame.spl, hsame.numDone, hsame.received, hsame.enc, hsame.iov⟩
  have hrest' : ∀ ctx, restLength (matchedIn s ctx).rx xfrm = restLength rx xfrm := fun _ => hrest
  have htoEnd : 0 ≤ restLength rx xfrm → rx.totalSize + restLength rx xfrm = frameEnd xfrm rx := by
    intro hpos
    rw [← hdone]
    exact restLength_toEnd hn hsmall hpos
  unfold smb2Header
  simp only
  split
  · trivial
  · split
    · trivial
    · split
      · refine expect_inFrame hsame henc hsmall (by simp) ?_ ?_
        · rintro (hh | hh) <;> cases hh
        · intro _ hlen
          rw [hrest] at hlen ⊢
          exact htoEnd hlen
      · rename_i hst
        split
        · unfold requestHeader
          split
          · trivial
          · exact expectFixed_inFrame (hsame' _) henc hsmall hst
        · unfold replyHeader
          split
          · simp only
            split
            · trivial
            · refine expect_inFrame (hsame' _) henc hsmall (by simp) ?_ ?_
              · rintro (hh | hh) <;> cases hh
              · intro _ hlen
                rw [hrest'] at hlen ⊢
                exact htoEnd hlen
          · trivial
          · trivial
          · exact expectFixed_inFrame (hsame' _) henc hsmall hst

/-- A transform header: its cipher text goes to the end of the frame if it opened the frame,
and otherwise past it. -/
theorem transformHeader_inFrame {pre : List IoVec}
    (hiov : s.rx.iov = pre ++ [⟨true, HEADER_SIZE⟩]) (henc : s.rx.enc = xfrm)
    (hsmall : s.rx.spl + (if xfrm then SPL_SIZE else 0) < 4294967296)
    (hdone : s.rx.numDone = s.rx.totalSize)
    (hfirst : xfrm = false → s.rx.numDone = SPL_SIZE + HEADER_SIZE) :
    (transformHeader s).InFrame xfrm s.rx := by
  unfold transformHeader
  simp only
  split
  · trivial
  · rename_i hneg
    split
    · trivial
    · split
      · trivial
      · have hspl : s.rx.spl < 4294967296 := by omega
        have hlen : toInt32 ((s.rx.spl : Int) - TRANSFORM_HEADER_SIZE) =
            (s.rx.spl : Int) - TRANSFORM_HEADER_SIZE := by
          simp only [toInt32, TRANSFORM_HEADER_SIZE] at hneg ⊢
          split_ifs at hneg ⊢ <;> omega
        have hge : TRANSFORM_HEADER_SIZE ≤ s.rx.spl := by
          rw [hlen] at hneg
          omega
        have hpre : s.rx.numDone = (pre.map IoVec.len).sum + HEADER_SIZE := by
          rw [hdone, Receiver.totalSize, hiov]
          simp
        have hsum : ∀ n : Nat, ((s.rx.iov.dropLast ++ [(⟨true, TRANSFORM_HEADER_SIZE⟩ : IoVec),
            ⟨false, n⟩]).map IoVec.len).sum =
              (pre.map IoVec.len).sum + (TRANSFORM_HEADER_SIZE + n) := by
          intro n
          rw [hiov]
          simp
        refine ⟨⟨henc, hsmall, ?_, ?_, ?_, ?_, ?_, ?_⟩, rfl, rfl, rfl⟩
        · intro hh
          cases hh
        · intro hh
          cases hh
        · rintro (hh | hh) <;> cases hh
        · intro hh
          cases hh
        · intro hh
          cases hh
        · intro _
          simp only [Receiver.totalSize, frameEnd, hsum, hlen]
          cases xfrm with
          | false =>
            have h68 := hfirst rfl
            simp only [SPL_SIZE, HEADER_SIZE, Bool.false_eq_true, if_false] at h68 hpre ⊢
            constructor
            · omega
            · intro _
              omega
          | true =>
            simp only [if_true]
            constructor
            · omega
            · intro hx
              cases hx

theorem headerPhase_inFrame (hb : Bounded xfrm s.rx) (hst : s.rx.state = .header)
    (hdone : s.rx.numDone = s.rx.totalSize) (hn : Near xfrm s.rx)
    (hfirst : xfrm = false → s.rx.header.take 4 = Header.smb3tfrm →
      s.rx.numDone = SPL_SIZE + HEADER_SIZE) : (headerPhase xfrm s).InFrame xfrm s.rx := by
  obtain ⟨pre, hiov⟩ := hb.header hst
  unfold headerPhase
  split
  · rename_i hx
    exact transformHeader_inFrame hiov hb.enc hb.small hdone (fun hp => hfirst hp hx)
  · split
    · trivial
    · simp only
      split
      · rename_i hflush
        simp only [Bool.and_eq_true] at hflush
        exact hflush.1
      · exact smb2Header_inFrame ⟨rfl, rfl, rfl, rfl, rfl⟩ hb.enc hb.small hdone hn

/-- The cipher text has been read; what it opens to is shorter than the frame. -/
theorem transformPhase_inFrame (hb : Bounded xfrm s.rx) (hst : s.rx.state = .trfm)
    (hdone : s.rx.numDone = s.rx.totalSize) (hlen : s.rx.received.length = s.rx.numDone)
    (hn : Near xfrm s.rx) : (transformPhase K s).InFrame xfrm s.rx := by
  obtain ⟨hend, hexact⟩ := hb.trfm hst
  unfold transformPhase
  simp only
  split
  · trivial
  · rename_i plain e
    have hplain := K.ccmDecrypt_length _ _ _ _ _ _ e
    have hshort : plain.length + TRANSFORM_HEADER_SIZE ≤ s.rx.numDone ∨ plain.length = 0 := by
      rw [List.length_drop, hlen] at hplain
      omega
    have hsmall : plain.length + SPL_SIZE < 4294967296 := by
      have hs := hb.small
      cases xfrm with
      | false =>
        have := hexact rfl
        simp only [frameEnd, SPL_SIZE, TRANSFORM_HEADER_SIZE, Bool.false_eq_true, if_false]
          at this hs hshort ⊢
        omega
      | true =>
        have := hn.nested rfl
        simp only [SPL_SIZE, TRANSFORM_HEADER_SIZE, if_true] at hs hshort ⊢
        omega
    have hmod : plain.length % 4294967296 = plain.length := Nat.mod_eq_of_lt (by omega)
    refine ⟨hdone ▸ hend, fun hx => hdone ▸ hexact hx, .of_header rfl rfl ?_ ⟨[], rfl⟩, rfl, rfl,
      hmod, rfl⟩
    simp only [hmod, if_true]
    exact hsmall

/-- **A phase of a client stays in its frame**, and with result 0 it ends where the frame
ends. -/
theorem phase_inFrame (off : Nat) (hb : Bounded xfrm s.rx) (hst : s.rx.state ≠ .spl)
    (hdone : s.rx.numDone = s.rx.totalSize) (hlen : s.rx.received.length = s.rx.numDone)
    (hn : Near xfrm s.rx)
    (hfirst : xfrm = false → s.rx.state = .header → s.rx.header.take 4 = Header.smb3tfrm →
      s.rx.numDone = SPL_SIZE + HEADER_SIZE) : (phase h K xfrm off s).InFrame xfrm s.rx := by
  unfold phase
  split
  · rename_i hs
    exact absurd hs hst
  · rename_i hs
    exact headerPhase_inFrame hb hs hdone hn (fun hx => hfirst hx hs)
  · rename_i hs
    have hbody := hb.body (.inl hs)
    unfold fixedPhase
    split
    · trivial
    · simp only
      split
      · trivial
      · split
        · exact padOrComplete_inFrame (.emit s.rx _) hb.enc hb.small hdone
            hn hbody
        · exact expectVariable_inFrame rfl rfl rfl hb.enc hb.small hbody
  · rename_i hs
    have hbody := hb.body (.inr hs)
    unfold variablePhase
    split
    · trivial
    · simp only
      split
      · trivial
      · exact padOrComplete_inFrame (.emit s.rx _) hb.enc hb.small hdone
          hn hbody
  · rename_i hs
    refine complete_inFrame (.refl _) hb.enc hb.small ?_
    intro hc
    rw [hdone]
    exact hb.pad hs hc
  · rename_i hs
    exact transformPhase_inFrame hb hs hdone hlen hn
  · rename_i hs
    show s.rx.numDone = _
    rw [hdone]
    exact hb.unknown hs

/-! ## Whole runs -/

/-- The run inside a transform frame reads the buffer to its end. -/
theorem traceBuf_synced (fuel : Nat) (plain : Bytes) (s : Smb2) (l : Locals)
    (hc : s.ctx.isServer = false) (hb : Bounded true s.rx) (hst : s.rx.state ≠ .spl)
    (hlen : s.rx.received.length = s.rx.numDone) (hsum : s.rx.numDone + plain.length = s.rx.spl) :
    ∀ v ∈ traceBuf h K fuel plain s l, v.Synced := by
  induction fuel generalizing plain s l with
  | zero =>
    intro v hv
    cases hv
  | succ fuel ih =>
    unfold traceBuf
    rw [List.forall_mem_cons]
    refine ⟨trivial, ?_⟩
    split
    · simp
    · rename_i hgo
      simp only [not_or, not_le] at hgo
      simp only
      have hstored : (store s (plain.take (s.rx.totalSize - s.rx.numDone))).rx.numDone +
          (plain.drop (s.rx.totalSize - s.rx.numDone)).length = s.rx.spl := by
        simp only [store_numDone, List.length_take, List.length_drop]
        omega
      have hlen' : (store s (plain.take (s.rx.totalSize - s.rx.numDone))).rx.received.length =
          (store s (plain.take (s.rx.totalSize - s.rx.numDone))).rx.numDone := by
        simp only [store, List.length_append, hlen]
      have hb' : Bounded true (store s (plain.take (s.rx.totalSize - s.rx.numDone))).rx :=
        ⟨hb.enc, hb.small, hb.first, hb.header, hb.body, hb.unknown, hb.pad, hb.trfm⟩
      generalize hs' : store s (plain.take (s.rx.totalSize - s.rx.numDone)) = s'
        at hstored hlen' hb' ⊢
      have hspl : s'.rx.spl = s.rx.spl := by rw [← hs']; rfl
      have hst' : s'.rx.state ≠ .spl := by rw [← hs']; exact hst
      have hc' : s'.ctx.isServer = false := by rw [← hs']; exact hc
      have hmax : s'.rx.numDone ≤ s'.rx.totalSize := by
        rw [← hs']
        simp only [store_numDone, store_totalSize, List.length_take]
        omega
      split
      · exact ih _ _ _ hc' hb' hst' hlen' (by rw [hspl]; exact hstored)
      · rename_i hfull
        rw [List.forall_mem_cons]
        refine ⟨trivial, ?_⟩
        have hn : Near true s'.rx := by
          constructor
          · intro hx
            cases hx
          · intro _
            omega
        have hphase := phase_inFrame (h := h) (K := K) l.iovOffset hb' hst' (by omega)
          hlen' hn (fun hx => by cases hx)
        have hrole := phase_isServer (h := h) (K := K) true l.iovOffset s'
        have hend : frameEnd true s'.rx = s'.rx.spl := rfl
        -- the next read of the buffer, in this message or the next of its chain
        have hgoes : ∀ s1 l1, s1.ctx.isServer = false → Continues true s'.rx s1 →
            ∀ v ∈ traceBuf h K fuel (plain.drop (s.rx.totalSize - s.rx.numDone)) s1 l1,
              v.Synced := by
          intro s1 l1 hc1 hk
          refine ih _ _ _ hc1 hk.bounded ?_ ?_ ?_
          · intro hh
            cases (hk.bounded.first hh).1
          · rw [hk.received, hk.numDone]
            exact hlen'
          · rw [hk.numDone, hk.spl, hspl]
            exact hstored
        generalize phase h K true l.iovOffset s' = f at hphase hrole ⊢
        cases f with
        | more s1 => exact hgoes _ _ (hrole.trans hc') hphase
        | chained s1 => exact hgoes _ _ (hrole.trans hc') hphase
        | done s1 =>
          have hdone : s'.rx.numDone = frameEnd true s'.rx := hphase
          simp only [List.mem_singleton, forall_eq]
          show plain.drop _ = []
          apply List.eq_nil_of_length_eq_zero
          omega
        | decrypt plain' s1 =>
          obtain ⟨hge, _, hb1, hz, hrec, hspl1, hst1⟩ := hphase
          rw [List.forall_mem_cons]
          constructor
          · show plain.drop _ = []
            apply List.eq_nil_of_length_eq_zero
            omega
          · refine ih _ _ _ (hrole.trans hc') hb1 ?_ ?_ ?_
            · rw [hst1]
              decide
            · rw [hrec, hz]
              rfl
            · rw [hz, hspl1]
              omega
        | flush s1 => cases hphase.symm.trans (hrole.trans hc')
        | fail e s1 => simp
        | fault e s1 => simp

/-- The state of a client that has read the octets `seen` of a frame. -/
structure Reading (seen : Bytes) (s : Smb2) : Prop where
  client : s.ctx.isServer = false
  bounded : Bounded false s.rx
  received : s.rx.received = seen
  numDone : s.rx.numDone = seen.length
  spl : s.rx.state ≠ .spl → s.rx.spl = fromBe (seen.take SPL_SIZE) ∧ SPL_SIZE ≤ seen.length

/-- The same between two reads, where the vectors of a new frame are not yet set up. -/
def Resumes (seen : Bytes) (s : Smb2) : Prop :=
  s.rx.numDone = 0 ∧ s.rx.enc = false ∧ seen = [] ∧ s.ctx.isServer = false ∨
    s.rx.numDone ≠ 0 ∧ Reading seen s

variable {seen : Bytes}

theorem Resumes.start (hr : Resumes seen s) : Reading seen (start s) := by
  rcases hr with ⟨hz, henc, rfl, hc⟩ | ⟨hnz, hr⟩
  · unfold Libsmb2.start
    rw [if_pos hz]
    refine ⟨hc, ?_, rfl, hz, fun hh => absurd rfl hh⟩
    constructor <;> simp [henc]
  · rw [start_of_pos hnz]
    exact hr

/-- A call that would block leaves the frame where it is. -/
theorem Resumes.of_reading (hr : Resumes seen s) :
    Resumes seen (Libsmb2.start s) := by
  have hread := hr.start
  rcases hr with ⟨hz, henc, rfl, hc⟩ | ⟨hnz, hr⟩
  · exact .inl ⟨hread.numDone, hread.bounded.enc, rfl, hread.client⟩
  · rw [start_of_pos hnz]
    exact .inr ⟨hnz, hr⟩

theorem Reading.store (hr : Reading seen s) (got : Bytes) :
    Reading (seen ++ got) (store s got) where
  client := hr.client
  bounded := ⟨hr.bounded.enc, hr.bounded.small, hr.bounded.first, hr.bounded.header,
    hr.bounded.body, hr.bounded.unknown, hr.bounded.pad, hr.bounded.trfm⟩
  received := by simp only [Libsmb2.store, hr.received]
  numDone := by simp only [store_numDone, hr.numDone, List.length_append]
  spl hst := by
    obtain ⟨hspl, hlen⟩ := hr.spl hst
    constructor
    · rw [List.take_append_of_le_length hlen]
      exact hspl
    · rw [List.length_append]
      omega

/-- A phase of a frame that goes on. -/
theorem Continues.reading (hk : Continues false s.rx s')
    (hr : Reading seen s) (hst : s.rx.state ≠ .spl) (hc : s'.ctx.isServer = false) :
    Reading seen s' where
  client := hc
  bounded := hk.bounded
  received := hk.received.trans hr.received
  numDone := hk.numDone.trans hr.numDone
  spl _ := by
    rw [hk.spl]
    exact hr.spl hst

/-- What a phase on the transport leads to that had read the octets `seen` of its frame. -/
def Flow.InSync (h : Hooks) (K : Crypto) (seen : Bytes) : Flow → Prop
  | .more s => Reading seen s
  | .chained s => Reading seen s
  | .done _ => (Visit.frame seen).Synced
  | .decrypt plain s => (Visit.frame seen).Synced ∧
      ∀ v ∈ traceBuf h K (plain.length + 1) plain s {}, v.Synced
  | .flush _ => False
  | .fail _ _ => True
  | .fault _ _ => True

theorem Flow.InSync.synced {f : Flow} (hf : f.InSync h K seen)
    (hends : f.endsFrame = true) : (Visit.frame seen).Synced := by
  cases f with
  | done s => exact hf
  | decrypt plain s => exact hf.1
  | _ => cases hends

/-- The length prefix has been read. -/
theorem splPhase_inSync (hr : Reading seen s)
    (hst : s.rx.state = .spl) (hdone : s.rx.numDone = s.rx.totalSize) :
    (splPhase s).InSync h K seen := by
  have hiov := (hr.bounded.first hst).2
  have hlen : seen.length = SPL_SIZE := by
    rw [← hr.numDone, hdone, Receiver.totalSize, hiov]
    rfl
  unfold splPhase
  simp only
  split
  · trivial
  · rename_i s1 e1
    have hrx := addIovector_rx e1
    have hsmall : fromBe (seen.take SPL_SIZE) < 4294967296 :=
      fromBe_lt (by rw [List.length_take, SPL_SIZE]; omega)
    refine ⟨?_, .of_header (by rw [hrx]) ?_ ?_ ?_, ?_, ?_, fun _ => ⟨?_, le_of_eq hlen.symm⟩⟩
    · rw [addIovector_ctx e1]
      exact hr.client
    · rw [hrx]
      exact hr.bounded.enc
    · rw [hrx]
      simpa [hr.received] using hsmall
    · rw [hrx]
      exact ⟨s.rx.iov, rfl⟩
    · rw [hrx]
      exact hr.received
    · rw [hrx]
      exact hr.numDone
    · rw [hrx, ← hr.received]

/-- **A phase on the transport**: the frame goes on, or it ends with the octets its prefix
says. -/
theorem phase_inSync (off : Nat) (hr : Reading seen s)
    (hdone : s.rx.numDone = s.rx.totalSize) (hord : (Visit.filled false s).Orderly) :
    (phase h K false off s).InSync h K seen := by
  by_cases hst : s.rx.state = .spl
  · unfold phase
    rw [hst]
    exact splPhase_inSync hr hst hdone
  · obtain ⟨hspl, hlen⟩ := hr.spl hst
    have hrole := (phase_isServer (h := h) (K := K) false off s).trans hr.client
    have hnear : Near false s.rx := by
      constructor
      · intro _
        rw [hr.numDone]
        have := hord.2 hst
        rw [hr.numDone] at this
        exact ⟨hlen, this⟩
      · intro hx
        cases hx
    have hrec : s.rx.received.length = s.rx.numDone := by rw [hr.received, hr.numDone]
    have hin := phase_inFrame (h := h) (K := K) off hr.bounded hst hdone hrec hnear
      (fun _ => hord.1)
    have hend : s.rx.numDone = frameEnd false s.rx → (Visit.frame seen).Synced := by
      intro hx
      rw [hr.numDone] at hx
      show seen.length = _
      rw [hx, ← hspl]
      rfl
    generalize phase h K false off s = f at hin hrole ⊢
    cases f with
    | more s1 => exact hin.reading hr hst hrole
    | chained s1 => exact hin.reading hr hst hrole
    | done s1 => exact hend hin
    | decrypt plain s1 =>
      obtain ⟨_, hexact, hb1, hz, hr1, hspl1, hst1⟩ := hin
      refine ⟨hend (hexact rfl), traceBuf_synced _ _ _ _ hrole hb1 ?_ ?_ ?_⟩
      · rw [hst1]
        decide
      · rw [hr1, hz]
        rfl
      · rw [hz, hspl1, Nat.zero_add]
    | flush s1 => cases hin.symm.trans hrole
    | fail e s1 => trivial
    | fault e s1 => trivial

/-- The application keeps the role of the context. -/
def Input.KeepsRole : Input → Prop
  | .app change => ∀ ctx, (change ctx).isServer = ctx.isServer
  | .recv _ => True

theorem Resumes.leave {i : Input} (hr : Resumes seen s)
    (hi : i.KeepsRole) : Resumes seen (i.leave s) := by
  cases i with
  | recv r => exact hr
  | app change =>
    rcases hr with ⟨hz, henc, hseen, hc⟩ | ⟨hnz, hr⟩
    · exact .inl ⟨hz, henc, hseen, (hi s.ctx).trans hc⟩
    · exact .inr ⟨hnz, (hi s.ctx).trans hr.client, hr.bounded, hr.received, hr.numDone, hr.spl⟩

/-- The flow of a phase leads to the next read in the same frame, or to the next frame. -/
theorem settle_resumes {l l' : Locals} {f : Flow}
    (hf : f.InSync h K seen) (hseen : seen ≠ []) (hreg : f.Regular seen.length false)
    (hc : f.smb2.ctx.isServer = false) (e : settle h K l f = .next s' l') :
    Resumes (if f.endsFrame then [] else seen) s' ∧ (l.flushing = false → l'.flushing = false) := by
  have hgoes : ∀ s, Reading seen s → Resumes seen s := by
    intro s hr
    refine .inr ⟨?_, hr⟩
    rw [hr.numDone]
    exact fun hz => hseen (List.eq_nil_of_length_eq_zero hz)
  cases f with
  | more s =>
    cases e
    exact ⟨hgoes _ hf, id⟩
  | chained s =>
    cases e
    exact ⟨hgoes _ hf, id⟩
  | done s =>
    cases e
    exact ⟨.inl ⟨hreg.1, hreg.2, rfl, hc⟩, fun _ => rfl⟩
  | flush s => exact hf.elim
  | fail e' s => cases e
  | fault e' s => cases e
  | decrypt plain s =>
    have hb := (steps_rule h K False s.ctx).toBuf.readBuf_ends (plain.length + 1) plain s {}
      ⟨.refl, False.elim⟩
    simp only [settle] at e
    split at e
    · rename_i s1 e1
      rw [e1] at hb
      cases e
      exact ⟨.inl ⟨hb.2, rfl, rfl, hb.1.1.isServer.trans hc⟩, fun _ => rfl⟩
    · cases e
    · cases e

/-- **Frame synchronisation over whole runs.** -/
theorem trace_synced (is : List Input) (seen bs : Bytes) (s : Smb2) (l : Locals)
    (hrole : ∀ i ∈ is, i.KeepsRole) (hr : Resumes seen s) (hl : l.flushing = false)
    (hord : ∀ v ∈ trace h K is seen bs s l, v.Orderly) :
    ∀ v ∈ trace h K is seen bs s l, v.Synced := by
  induction is generalizing seen bs s l with
  | nil =>
    unfold trace
    simp [hl, Visit.Synced]
  | cons i is ih =>
    have hi := hrole i (List.mem_cons_self ..)
    replace hrole : ∀ i ∈ is, i.KeepsRole := fun j hj => hrole j (List.mem_cons_of_mem _ hj)
    have hread := hr.start
    unfold trace at hord ⊢
    rw [hl] at hord ⊢
    simp only [Bool.false_eq_true, if_false] at hord ⊢
    rw [List.forall_mem_cons] at hord ⊢
    refine ⟨trivial, ?_⟩
    replace hord := hord.2
    split at hord
    · rename_i hg
      rw [if_pos hg]
      obtain ⟨hroom, _⟩ := gate_ready hg
      cases hoct : i.octets bs with
      | none => simp
      | some oct =>
        rw [hoct] at hord
        cases oct with
        | nil => exact ih _ _ _ _ hrole (hr.of_reading.leave hi) rfl hord
        | cons b k =>
          simp only at hord ⊢
          have hpos : 0 < offered (start s) := offered_pos hroom
          have hle : ((b :: k).take (offered (start s))).length ≤
              (start s).rx.totalSize - (start s).rx.numDone := by
            have ho := offered_le (start s)
            rw [List.length_take]
            omega
          have hgot : 0 < ((b :: k).take (offered (start s))).length := by
            rw [List.length_take, List.length_cons]
            omega
          generalize (b :: k).take (offered (start s)) = got at hle hgot hord ⊢
          have hread' := hread.store got
          have hnz : (store (start s) got).rx.numDone ≠ 0 := by
            rw [store_numDone]
            omega
          have hmax : (store (start s) got).rx.numDone ≤ (store (start s) got).rx.totalSize := by
            rw [store_numDone, store_totalSize]
            omega
          split at hord
          · rename_i hpart
            rw [if_pos hpart]
            exact ih _ _ _ _ hrole (.inr ⟨hnz, hread'⟩) hl hord
          · rename_i hfull
            rw [if_neg hfull]
            rw [List.forall_mem_cons] at hord ⊢
            refine ⟨trivial, ?_⟩
            have hsync := phase_inSync (h := h) (K := K) l.iovOffset hread' (by omega) hord.1
            have hreg := phase_regular (h := h) (K := K) false l.iovOffset (store (start s) got)
            rw [hread'.numDone, hread'.bounded.enc] at hreg
            have hc := (phase_isServer (h := h) (K := K) false l.iovOffset
              (store (start s) got)).trans hread'.client
            replace hord := hord.2
            generalize phase h K false l.iovOffset (store (start s) got) = f
              at hsync hreg hc hord ⊢
            rw [List.forall_mem_append] at hord ⊢
            constructor
            · cases f with
              | decrypt plain s1 => exact hsync.2
              | _ => simp [traceNested]
            · replace hord := hord.2
              have hseen : seen ++ got ≠ [] := List.append_ne_nil_of_right_ne_nil _
                (List.ne_nil_of_length_pos hgot)
              split at hord
              · rename_i s1 l1 e1
                obtain ⟨hres, hl1⟩ := settle_resumes hsync hseen hreg hc e1
                split at hord
                · rename_i hends
                  rw [if_pos hends] at hres ⊢
                  rw [List.forall_mem_cons] at hord ⊢
                  exact ⟨hsync.synced hends, ih _ _ _ _ hrole hres (hl1 hl) hord.2⟩
                · rename_i hends
                  rw [if_neg hends] at hres ⊢
                  exact ih _ _ _ _ hrole hres (hl1 hl) hord
              · simp
    · rename_i hg
      rw [if_neg hg]
      simp

end

/-- **Frame synchronisation.**  Whatever arrives at a client and however it is cut, whatever
the callbacks and the application do: if the run is orderly, each frame that ended with
result 0 took exactly the octets that its prefix says, and each decrypted buffer was read to
its end. -/
theorem frames_are_synchronised (h : Hooks) (K : Crypto) (is : List Input) (bs : Bytes)
    (ctx : Context) (hc : ctx.isServer = false) (hrole : ∀ i ∈ is, i.KeepsRole)
    (hord : ∀ v ∈ trace h K is [] bs { ctx := ctx } {}, v.Orderly) :
    ∀ v ∈ trace h K is [] bs { ctx := ctx } {}, v.Synced :=
  trace_synced is [] bs _ {} hrole (.inl ⟨rfl, rfl, rfl, hc⟩) rfl hord

/-- A signed compound reply is one frame of that kind. -/
theorem echo_frame_is_synchronised :
    .frame echoReply ∈ trace plainHooks echoCrypto (wholeReads.map .recv) [] echoReply
        { ctx := echoClient.ctx } {} ∧
      ∀ v ∈ trace plainHooks echoCrypto (wholeReads.map .recv) [] echoReply
        { ctx := echoClient.ctx } {}, v.Synced :=
  ⟨by decide +kernel,
    frames_are_synchronised plainHooks echoCrypto (wholeReads.map .recv) echoReply echoClient.ctx
      rfl (fun _ hi => by obtain ⟨_, _, rfl⟩ := List.mem_map.mp hi; trivial) (by decide +kernel)⟩

/-- A frame of 192 octets: an echo reply, and behind it another in a transform of its own.
The frame that follows it has 72 octets with its prefix. -/
def chainedTransform : Bytes :=
  be32 192 ++ firstEcho ((echoDigest (firstEcho (zeros 16))).take 16) ++
    (Header.smb3tfrm ++ zeros 48) ++ ((echoHeader 2 0 1 (zeros 16)).encode ++ echoBody) ++
    (be32 68 ++ (echoHeader 3 0 1 (zeros 16)).encode ++ echoBody)

/-- **A transform header behind another message loses the sync**: the cipher text is taken to
be as long as if it opened the frame, and the next frame is swallowed as padding. -/
theorem chained_transform_loses_sync :
    .frame chainedTransform ∈ trace plainHooks echoCrypto (List.replicate 8 (.recv (.data 199))) []
        chainedTransform { ctx := echoClient.ctx } {} ∧
      ¬ ∀ v ∈ trace plainHooks echoCrypto (List.replicate 8 (.recv (.data 199))) [] chainedTransform
        { ctx := echoClient.ctx } {}, v.Synced := by
  decide +kernel

end Libsmb2
