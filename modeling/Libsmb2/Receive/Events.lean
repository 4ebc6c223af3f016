import Libsmb2.Receive.Rule
import Libsmb2.Util.Log

/-!
# What the receive path reports

`NewEvent` lists the events that a phase can add to the log of the receiver, each with
what the source has established when it happens: which decoder was selected for which
request, and for a dispatch, that the octets and the header are those of the message just
received and that its signature was checked if it had to be (`Checked`).

* `phase_logged` — a phase only appends such events;
* `readBuf_unsealed` — what a transform frame holds is reported as such.
-/

set_option autoImplicit false

namespace Libsmb2

open Util

variable {h : Hooks} {K : Crypto}

/-- What the dispatch of the message in `s` has gone through. -/
structure Checked (K : Crypto) (off : Nat) (s : Smb2) (d : Dispatch) : Prop where
  hdr : d.hdr = s.rx.hdr
  octets : d.octets = s.rx.member
  enc : d.enc = s.rx.enc
  sign : d.ctx.sign = s.ctx.sign
  wait : d.ctx.waitqueue = s.ctx.waitqueue
  status : d.hdr.status ≠ STATUS_PENDING
  verified : mustVerify { ctx := d.ctx, rx := s.rx } = true →
    verify K { ctx := d.ctx, rx := s.rx } off = .good

/-- The request that a message is dispatched to is the current one, up to its payload. -/
structure SamePdu (p q : Pdu) : Prop where
  id : q.id = p.id
  header : q.header = p.header
  cb : q.cb = p.cb

/-- **The events of a phase.** -/
inductive NewEvent (K : Crypto) (off : Nat) (s : Smb2) : RxEvent → Prop
  | matched (hdr : Header) (hst : s.rx.state = .header) (hc : s.ctx.isServer = false) :
      NewEvent K off s (.matched hdr (grantCredits (noteHeader s.ctx hdr) hdr))
  | requested (hdr : Header) (p : Pdu) (hst : s.rx.state = .header)
      (hs : s.ctx.isServer = true) (hp : s.ctx.pdu = some p) : NewEvent K off s (.requested hdr p)
  | decodedFixed (p : Pdu) (hp : s.ctx.pdu = some p) :
      NewEvent K off s (.decodedFixed (decoderFor s.ctx s.rx.hdr p) s.rx.hdr)
  | decodedVariable (p : Pdu) (hp : s.ctx.pdu = some p) :
      NewEvent K off s (.decodedVariable (decoderFor s.ctx s.rx.hdr p) s.rx.hdr)
  | dispatched (p : Pdu) (d : Dispatch) (hp : s.ctx.pdu = some p) (hs : SamePdu p d.pdu)
      (hcb : p.cb ≠ .none) (hc : Checked K off s d)
      (hst : s.rx.state ∈ [RecvState.fixed, .variable, .pad]) :
      NewEvent K off s (.dispatched d)
  | pending (d : Dispatch) (hst : d.hdr.status = STATUS_PENDING) (henc : d.enc = s.rx.enc) :
      NewEvent K off s (.pending d)

theorem Receiver.logged_emit {P : RxEvent → Prop} {r : Receiver} {e : RxEvent} (he : P e) :
    Logged P r.log (r.emit e).log :=
  .push he

theorem Completes.logged {P : RxEvent → Prop} {off : Nat} {s : Smb2} {f : Flow}
    (hc : Completes h K off s f)
    (hd : ∀ p, s.ctx.pdu = some p → p.cb ≠ .none → s.rx.hdr.status ≠ STATUS_PENDING →
      (mustVerify s = true → verify K s off = .good) → P (.dispatched (dispatchOf s p)))
    (hpend : ∀ p, s.rx.hdr.status = STATUS_PENDING → P (.pending (dispatchOf s p))) :
    Logged P s.rx.log f.smb2.rx.log := by
  cases hc with
  | dispatched p hp hcb hst hv =>
    have hnew : Logged P s.rx.log (dispatchedIn h s p).rx.log := .push (hd p hp hcb hst hv)
    rcases endMember_cases (dispatchedIn h s p) with ⟨_, _, he⟩ | ⟨_, he | ⟨s', he, hs, _⟩ | he⟩
      <;> rw [he]
    · exact hnew
    · exact hnew
    · exact hs.log.symm ▸ hnew
    · exact hnew
  | shown p hpt hp hcb hst hf => exact .push (hpend p hst)
  | broken p f hpt hp hcb hst hf => exact .push (hpend p hst)
  | _ => exact .refl _

/-- A state that differs from `s` in what decoding changes. -/
structure Decoding (s s' : Smb2) : Prop where
  state : s.rx.state ∈ [RecvState.fixed, .variable, .pad]
  rx : ∃ l, s'.rx = { s.rx with log := l }
  pdu : ∀ q, s'.ctx.pdu = some q → ∃ p, s.ctx.pdu = some p ∧ SamePdu p q
  sign : s'.ctx.sign = s.ctx.sign
  wait : s'.ctx.waitqueue = s.ctx.waitqueue

theorem Decodes.decoding {s s' : Smb2} (hd : Decodes h s s') : Decoding s s' := by
  have hkeep : ∀ (p : Pdu) (d : Decoded) (e : RxEvent), s.ctx.pdu = some p →
      s.rx.state ∈ [RecvState.fixed, .variable, .pad] →
      Decoding s { ctx := applyDecoded s.ctx p d, rx := s.rx.emit e } := by
    intro p d e hp hst
    obtain ⟨_, _, _, _, he⟩ := applyEffects_eq s.ctx d.effects
    simp only [applyDecoded, he]
    refine ⟨hst, ⟨_, rfl⟩, ?_, rfl, rfl⟩
    rintro q ⟨rfl⟩
    exact ⟨p, hp, rfl, rfl, rfl⟩
  cases hd with
  | fixedPart p hp hst => exact hkeep p _ _ hp (by rw [hst]; decide)
  | variablePart p hp hst => exact hkeep p _ _ hp (by rw [hst]; decide)

theorem Decodes.logged {s s' : Smb2} (hd : Decodes h s s') (off : Nat) :
    Logged (NewEvent K off s) s.rx.log s'.rx.log := by
  cases hd with
  | fixedPart p hp hst => exact .push (.decodedFixed p hp)
  | variablePart p hp hst => exact .push (.decodedVariable p hp)

theorem Decoding.completes {off : Nat} {s s' : Smb2} {f : Flow} (hd : Decoding s s')
    (hc : Completes h K off s' f) : Logged (NewEvent K off s) s'.rx.log f.smb2.rx.log := by
  obtain ⟨hstate, ⟨l, hrx⟩, hpdu, hsign, hwait⟩ := hd
  obtain ⟨ctx', rx'⟩ := s'
  cases hrx
  refine hc.logged (fun q hq hcb hst hv => ?_) (fun _ hst => .pending _ hst rfl)
  obtain ⟨p, hp, hsame⟩ := hpdu q hq
  exact .dispatched p _ hp hsame (hsame.cb ▸ hcb) ⟨rfl, rfl, rfl, hsign, hwait, hst, hv⟩ hstate

/-- **What a phase reports.** -/
theorem phase_logged (xfrm : Bool) (off : Nat) (s : Smb2) :
    Logged (NewEvent K off s) s.rx.log (phase h K xfrm off s).smb2.rx.log := by
  have hdoes := phase_does (h := h) (K := K) xfrm off s
  generalize phase h K xfrm off s = f at hdoes
  have hmatched : ∀ (hdr : Header) (ctx : Context), s.rx.state = .header →
      s.ctx.isServer = false →
      Logged (NewEvent K off s) s.rx.log (matchedIn (headedIn s hdr) ctx).rx.log :=
    fun hdr _ hst hc => .push (.matched hdr hst hc)
  cases hdoes with
  | reads f hst hr =>
    rw [hr.readsOn.log]
    exact .refl _
  | headed hdr f hst hr hp =>
    rw [hr.readsOn.log]
    exact .refl _
  | unmatched hdr ctx hst hc hs hm =>
    unfold skipRest
    split
    · exact hmatched hdr ctx hst hc
    · rw [(expect_reads (List.mem_singleton.mpr rfl) _).readsOn.log]
      exact hmatched hdr ctx hst hc
  | outOfOrder hdr ctx hst hc hm => exact hmatched hdr ctx hst hc
  | noMemory hdr ctx hst hc hm => exact hmatched hdr ctx hst hc
  | found hdr ctx f hst hc hs hm hr =>
    rw [hr.readsOn.log]
    exact hmatched hdr ctx hst hc
  | taken hdr p f hst hs hp hn hr =>
    rw [hr.readsOn.log]
    exact .push (.requested hdr p hst hs hp)
  | decoded s' f hd hr =>
    rw [hr.readsOn.log]
    exact hd.logged off
  | ended s' f hd hc => exact (hd.logged off).trans (hd.decoding.completes hc)
  | padded f hst hc =>
    refine Decoding.completes ⟨by rw [hst]; decide, ⟨_, rfl⟩, ?_, rfl, rfl⟩ hc
    exact fun q hq => ⟨q, hq, rfl, rfl, rfl⟩
  | opened plain s' hst hctx hlog hhdr hs' henc =>
    rw [Flow.smb2, hlog]
    exact .refl _
  | _ => exact .refl _

/-! ## Inside a transform frame -/

/-- A callback that ran for a message out of a transform frame. -/
def RxEvent.Unsealed (e : RxEvent) : Prop :=
  ∀ d, e = .dispatched d ∨ e = .pending d → d.enc = true

theorem NewEvent.unsealed {off : Nat} {s : Smb2} {e : RxEvent} (he : NewEvent K off s e)
    (henc : s.rx.enc = true) : e.Unsealed := by
  rintro d (rfl | rfl)
  · cases he with
    | dispatched p d hp hs hcb hc hst => exact hc.enc.trans henc
  · cases he with
    | pending d hst he => exact he.trans henc

/-- The log goes on with what a transform frame holds. -/
theorem unsealed_rule (h : Hooks) (K : Crypto) (log : List RxEvent) :
    BufRule h K (fun s => Logged RxEvent.Unsealed log s.rx.log ∧ s.rx.enc = true)
      (fun s => Logged RxEvent.Unsealed log s.rx.log)
      (fun _ s => Logged RxEvent.Unsealed log s.rx.log) where
  stored _ hj := hj
  phase off s hj _ := by
    have hlog := hj.1.trans
      ((phase_logged (h := h) (K := K) true off s).mono fun e he => he.unsealed hj.2)
    have hreg := phase_regular (h := h) (K := K) true off s
    rw [hj.2] at hreg
    generalize phase h K true off s = f at hlog hreg
    cases f with
    | fail e s' => exact hlog
    | fault f s' => exact hlog
    | more s' => exact ⟨hlog, hreg.2⟩
    | chained s' => exact ⟨hlog, hreg⟩
    | done s' => exact ⟨hlog, hreg.2⟩
    | flush s' => exact ⟨hlog, hreg.2⟩
    | decrypt plain s' => exact ⟨hlog, hreg⟩
  negotiate stale s hj _ := by
    unfold smb1Negotiate
    split
    · exact hj.1
    · rename_i p _
      split
      · exact hj.1
      · split
        · exact hj.1
        · have hlog : Logged RxEvent.Unsealed log (s.rx.log ++ [.dispatched (dispatchOf s p)]) :=
            hj.1.trans (.push (by rintro d (hd | hd) <;> cases hd; exact hj.2))
          simp only
          split
          · exact hlog
          · exact ⟨hlog, hj.2⟩
  fails hj := hj.1
  faults hj := ⟨hj.1, hj.1⟩

/-- **What a transform frame holds is reported as such.** -/
theorem readBuf_unsealed (fuel : Nat) (plain : Bytes) (s : Smb2) (l : Locals)
    (henc : s.rx.enc = true) :
    Logged RxEvent.Unsealed s.rx.log (readBuf h K fuel plain s l).smb2.rx.log := by
  have hends := (unsealed_rule h K s.rx.log).readBuf_ends fuel plain s l ⟨.refl _, henc⟩
  generalize readBuf h K fuel plain s l = r at hends
  cases r with
  | ok s' => exact hends.1.1
  | error e s' => exact hends
  | fault f s' => exact hends

end Libsmb2
