import Libsmb2.Receive

/-!
# What a phase can do

`Does` lists, for either role, what one phase of `smb2_read_data` can do to a context: read on,
note a header, look up the request of a reply, take a request in, decode a part of a message,
and complete a message, each with what has been established and with what it reports
(`phase_does`).  A property of the whole machine is proved from these cases with the rule of the
receive machine.

* `Flow.Regular`, `phase_regular` — where a phase may lead.
-/

set_option autoImplicit false

namespace Libsmb2

open Util

def Match.ctx : Match → Context
  | .unknown ctx => ctx
  | .outOfOrder ctx => ctx
  | .noMemory ctx => ctx
  | .found ctx => ctx

def Flow.smb2 : Flow → Smb2
  | .more s => s
  | .chained s => s
  | .done s => s
  | .fail _ s => s
  | .fault _ s => s
  | .flush s => s
  | .decrypt _ s => s

def BufResult.smb2 : BufResult → Smb2
  | .ok s => s
  | .error _ s => s
  | .fault _ s => s

def Turn.smb2 : Turn → Smb2
  | .next s _ => s
  | .failed _ s => s
  | .faulted _ s => s

def Outcome.smb2 : Outcome → Smb2
  | .waiting s _ => s
  | .failed _ s _ => s
  | .faulted _ s _ => s

/-- All that a header changes in the context. -/
theorem noteHeader_eq (ctx : Context) (hdr : Header) : ∃ cur mid,
    noteHeader ctx hdr = { ctx with treeCur := cur, messageId := mid } := by
  have hsel : ∀ tid : Nat, ∃ cur, ctx.selectTreeId tid = { ctx with treeCur := cur } := by
    intro tid
    unfold Context.selectTreeId
    split
    · exact ⟨_, rfl⟩
    · exact ⟨ctx.treeCur, rfl⟩
  unfold noteHeader
  split
  · exact ⟨ctx.treeCur, ctx.messageId, rfl⟩
  · simp only
    split
    · obtain ⟨cur, hcur⟩ := hsel hdr.treeId
      rw [hcur]
      split
      · exact ⟨cur, hdr.messageId, rfl⟩
      · exact ⟨cur, ctx.messageId, rfl⟩
    · split
      · exact ⟨ctx.treeCur, hdr.messageId, rfl⟩
      · exact ⟨ctx.treeCur, ctx.messageId, rfl⟩

theorem noteHeader_isServer (ctx : Context) (hdr : Header) :
    (noteHeader ctx hdr).isServer = ctx.isServer := by
  obtain ⟨_, _, he⟩ := noteHeader_eq ctx hdr
  rw [he]

theorem grantCredits_isServer (ctx : Context) (hdr : Header) :
    (grantCredits ctx hdr).isServer = ctx.isServer := by
  unfold grantCredits
  split <;> rfl

theorem grantCredits_pdu (ctx : Context) (hdr : Header) :
    (grantCredits ctx hdr).pdu = ctx.pdu := by
  unfold grantCredits
  split <;> rfl

theorem noteHeader_pdu (ctx : Context) (hdr : Header) : (noteHeader ctx hdr).pdu = ctx.pdu := by
  obtain ⟨_, _, he⟩ := noteHeader_eq ctx hdr
  rw [he]

variable {s s' : Smb2}

theorem addIovector_ctx {b : Bool} {n : Nat} (e : addIovector s b n = some s') :
    s'.ctx = s.ctx := by
  unfold addIovector at e
  split at e
  · cases e
  · cases e
    rfl

theorem addIovector_rx {b : Bool} {n : Nat} (e : addIovector s b n = some s') :
    s'.rx = { s.rx with iov := s.rx.iov ++ [⟨b, n⟩], total := s.rx.total + n } := by
  unfold addIovector at e
  split at e
  · cases e
  · cases e
    rfl

/-- The next phase has no vector to read into, or one vector more than this one. -/
@[elab_as_elim]
theorem expect_cases (s : Smb2) (st : RecvState) (len : Int) {motive : Flow → Prop}
    (fail : ∀ e, motive (.fail e s))
    (more : 0 ≤ len → motive (.more { s with rx := { s.rx with
      iov := s.rx.iov ++ [⟨false, len.toNat⟩]
      total := s.rx.total + len.toNat
      state := st } })) : motive (expect s st len) := by
  unfold expect
  split
  · exact fail _
  · rename_i hneg
    unfold addIovector
    by_cases hfull : MAX_VECTORS ≤ s.rx.iov.length
    · rw [if_pos hfull]
      exact fail _
    · rw [if_neg hfull]
      exact more (by omega)

/-- A break notification that no request waits for. -/
def Header.unsolicited (hdr : Header) : Prop :=
  hdr.command = .oplockBreak ∧ hdr.messageId = 0xffffffffffffffff

instance (hdr : Header) : Decidable hdr.unsolicited :=
  inferInstanceAs (Decidable (_ ∧ _))

/-- **How the lookup of a reply ends.** -/
inductive Lookup (ctx : Context) (hdr : Header) : Match → Prop
  | current (p : Pdu) (hu : hdr.unsolicited) (hp : ctx.pdu = some p) : Lookup ctx hdr (.found ctx)
  | noMemory (hu : hdr.unsolicited) (hp : ctx.pdu = none) :
      Lookup ctx hdr (.noMemory ctx.popMem)
  | made (p : Pdu) (hu : hdr.unsolicited) (hp : ctx.pdu = none) (hid : p.id = ctx.nextId)
      (hown : p.callerFrees = false) :
      Lookup ctx hdr (.found { ctx.popMem with pdu := some p, nextId := ctx.nextId + 1 })
  | unknown (hu : ¬ hdr.unsolicited) (hf : (dropPdu ctx).findPdu hdr.messageId = none) :
      Lookup ctx hdr (.unknown (dropPdu ctx))
  | outOfOrder (p : Pdu) (hu : ¬ hdr.unsolicited)
      (hf : (dropPdu ctx).findPdu hdr.messageId = some p) :
      Lookup ctx hdr (.outOfOrder { dropPdu ctx with pdu := some p })
  | claimed (p : Pdu) (hu : ¬ hdr.unsolicited)
      (hf : (dropPdu ctx).findPdu hdr.messageId = some p)
      (hprev : p.prevCompoundMid ≠ 0 → (dropPdu ctx).findPdu p.prevCompoundMid = none) :
      Lookup ctx hdr (.found { (dropPdu ctx).delist p.id with pdu := some p })

theorem matchReply_lookup (ctx : Context) (hdr : Header) :
    Lookup ctx hdr (matchReply ctx hdr) := by
  unfold matchReply
  split
  · rename_i hu
    split
    · rename_i p hp
      exact .current p hu hp
    · rename_i hp
      simp only [Context.allocatePdu]
      by_cases hm : ctx.allocOk = true
      · simp only [hm, if_true]
        exact .made _ hu hp rfl rfl
      · simp only [hm]
        exact .noMemory hu hp
  · rename_i hu
    unfold claimPdu
    split
    · rename_i hf
      exact .unknown hu hf
    · rename_i p hf
      split
      · exact .outOfOrder p hu hf
      · rename_i hprev
        refine .claimed p hu hf (fun hne => ?_)
        by_contra hsome
        exact hprev ⟨hne, Option.isSome_iff_ne_none.mpr hsome⟩

theorem dropPdu_of_none {ctx : Context} (hp : ctx.pdu = none) : dropPdu ctx = ctx := by
  unfold dropPdu
  rw [hp]

/-- What a phase leaves alone when it goes on inside a message. -/
structure ReadsOn (s s' : Smb2) : Prop where
  ctx : s'.ctx = s.ctx
  log : s'.rx.log = s.rx.log
  hdr : s'.rx.hdr = s.rx.hdr
  numDone : s'.rx.numDone = s.rx.numDone
  enc : s'.rx.enc = s.rx.enc

theorem ReadsOn.refl (s : Smb2) : ReadsOn s s := ⟨rfl, rfl, rfl, rfl, rfl⟩

theorem ReadsOn.trans {s₁ s₂ s₃ : Smb2} (h₁ : ReadsOn s₁ s₂) (h₂ : ReadsOn s₂ s₃) : ReadsOn s₁ s₃ :=
  ⟨h₂.ctx.trans h₁.ctx, h₂.log.trans h₁.log, h₂.hdr.trans h₁.hdr, h₂.numDone.trans h₁.numDone,
    h₂.enc.trans h₁.enc⟩

/-- A vector is added, and the machine is in another state. -/
theorem addIovector_readsOn {b : Bool} {n : Nat} (e : addIovector s b n = some s')
    (st : RecvState) : ReadsOn s { s' with rx := { s'.rx with state := st } } := by
  have hctx := addIovector_ctx e
  have hrx := addIovector_rx e
  exact ⟨hctx, by simp only [hrx], by simp only [hrx], by simp only [hrx], by simp only [hrx]⟩

/-- The machine goes on to read from `s` in one of these states, or gives up there. -/
def Flow.Reads (s : Smb2) (states : List RecvState) : Flow → Prop
  | .more s' => ReadsOn s s' ∧ s'.rx.state ∈ states
  | .fail _ s' => ReadsOn s s'
  | _ => False

theorem Flow.Reads.readsOn {f : Flow} {states : List RecvState} (hf : f.Reads s states) :
    ReadsOn s f.smb2 := by
  cases f with
  | more s' => exact hf.1
  | fail e s' => exact hf
  | _ => exact hf.elim

/-- The state once a header has been decoded. -/
def headedIn (s : Smb2) (hdr : Header) : Smb2 where
  ctx := grantCredits (noteHeader s.ctx hdr) hdr
  rx := { s.rx with hdr := hdr, payloadOffset := s.rx.numDone }

/-- The state once a server has taken the request with this header in. -/
def takenIn (s : Smb2) (p : Pdu) : Smb2 where
  ctx := { s.ctx with pdu := some (adoptHeader p s.rx.hdr) }
  rx := s.rx.emit (.requested s.rx.hdr p)

/-- A reply that nobody waits for is skipped, unless the rest of its frame is too long. -/
def skipRest (xfrm : Bool) (s : Smb2) : Flow :=
  if restLength s.rx xfrm > MAX_PDU_SIZE then .fail .noMatchingPdu s
  else expect s .unknown (restLength s.rx xfrm)

/-- A part of a message has been decoded. -/
inductive Decodes (h : Hooks) (s : Smb2) : Smb2 → Prop
  | fixedPart (p : Pdu) (hp : s.ctx.pdu = some p) (hst : s.rx.state = .fixed) :
      Decodes h s {
        ctx := applyDecoded s.ctx p (fixedDecoded h s p)
        rx := s.rx.emit (.decodedFixed (decoderFor s.ctx s.rx.hdr p) s.rx.hdr) }
  | variablePart (p : Pdu) (hp : s.ctx.pdu = some p) (hst : s.rx.state = .variable) :
      Decodes h s {
        ctx := applyDecoded s.ctx p (variableDecoded h s p)
        rx := s.rx.emit (.decodedVariable (decoderFor s.ctx s.rx.hdr p) s.rx.hdr) }

/-- The state once the callback of the current request has run. -/
def dispatchedIn (h : Hooks) (s : Smb2) (p : Pdu) : Smb2 where
  ctx := if s.ctx.isServer then afterRequest h s.rx p s.ctx else afterReply h s.rx p s.ctx
  rx := s.rx.emit (.dispatched (dispatchOf s p))

/-- The state once an interim reply has been shown to the callback of its request. -/
def pendingIn (h : Hooks) (s : Smb2) (p : Pdu) : Smb2 where
  ctx := h.invoke s.rx p s.rx.hdr.status s.ctx
  rx := s.rx.emit (.pending (dispatchOf s p))

/-- How a message that is complete ends. -/
inductive Completes (h : Hooks) (K : Crypto) (off : Nat) (s : Smb2) : Flow → Prop
  | refused (e : ReadError) : Completes h K off s (.fail e s)
  | overflow : Completes h K off s (.fault .heapOverflow s)
  | missing (hp : s.ctx.pdu = none) : Completes h K off s (.fault .nullPdu s)
  | uncalled (p : Pdu) (hp : s.ctx.pdu = some p) (hcb : p.cb = .none)
      (hst : s.rx.hdr.status ≠ STATUS_PENDING) : Completes h K off s (.fault .nullCallback s)
  | dispatched (p : Pdu) (hp : s.ctx.pdu = some p) (hcb : p.cb ≠ .none)
      (hst : s.rx.hdr.status ≠ STATUS_PENDING)
      (hv : mustVerify s = true → verify K s off = .good) :
      Completes h K off s (endMember (dispatchedIn h s p))
  | quiet (hst : s.rx.hdr.status = STATUS_PENDING) :
      Completes h K off s (.done { s with rx := { s.rx with numDone := 0 } })
  | unshown (p : Pdu) (hpt : s.ctx.passthrough = true)
      (hp : s.ctx.findPdu s.rx.hdr.messageId = some p) (hcb : p.cb = .none)
      (hst : s.rx.hdr.status = STATUS_PENDING) : Completes h K off s (.fault .nullCallback s)
  | shown (p : Pdu) (hpt : s.ctx.passthrough = true)
      (hp : s.ctx.findPdu s.rx.hdr.messageId = some p) (hcb : p.cb ≠ .none)
      (hst : s.rx.hdr.status = STATUS_PENDING) (hf : (pendingIn h s p).ctx.fault = none) :
      Completes h K off s
        (.done { pendingIn h s p with rx := { (pendingIn h s p).rx with numDone := 0 } })
  | broken (p : Pdu) (f : Fault) (hpt : s.ctx.passthrough = true)
      (hp : s.ctx.findPdu s.rx.hdr.messageId = some p) (hcb : p.cb ≠ .none)
      (hst : s.rx.hdr.status = STATUS_PENDING) (hf : (pendingIn h s p).ctx.fault = some f) :
      Completes h K off s (.fault f (pendingIn h s p))

/-- **What a phase does.** -/
inductive Does (h : Hooks) (K : Crypto) (xfrm : Bool) (off : Nat) (s : Smb2) : Flow → Prop
  /-- A length prefix, a transform header, or no header at all. -/
  | reads (f : Flow) (hst : s.rx.state ∈ [RecvState.spl, .header])
      (hr : f.Reads s [.header, .trfm]) : Does h K xfrm off s f
  | overflow : Does h K xfrm off s (.fault .heapOverflow s)
  /-- A header that is refused, or that of an interim reply. -/
  | headed (hdr : Header) (f : Flow) (hst : s.rx.state = .header)
      (hr : f.Reads (headedIn s hdr) [.pad]) (hp : ∀ s', f = .more s' → hdr.status = STATUS_PENDING) :
      Does h K xfrm off s f
  | flushed (hdr : Header) (hst : s.rx.state = .header) (hs : s.ctx.isServer = true) :
      Does h K xfrm off s (.flush { ctx := noteHeader s.ctx hdr, rx := { s.rx with hdr := hdr } })
  /-- A reply that nobody waits for. -/
  | unmatched (hdr : Header) (ctx : Context) (hst : s.rx.state = .header)
      (hc : s.ctx.isServer = false) (hs : hdr.status ≠ STATUS_PENDING)
      (hm : matchReply (headedIn s hdr).ctx hdr = .unknown ctx) :
      Does h K xfrm off s (skipRest xfrm (matchedIn (headedIn s hdr) ctx))
  | outOfOrder (hdr : Header) (ctx : Context) (hst : s.rx.state = .header)
      (hc : s.ctx.isServer = false)
      (hm : matchReply (headedIn s hdr).ctx hdr = .outOfOrder ctx) :
      Does h K xfrm off s (.fail .compoundOutOfOrder (matchedIn (headedIn s hdr) ctx))
  | noMemory (hdr : Header) (ctx : Context) (hst : s.rx.state = .header)
      (hc : s.ctx.isServer = false)
      (hm : matchReply (headedIn s hdr).ctx hdr = .noMemory ctx) :
      Does h K xfrm off s (.fail .outOfMemory (matchedIn (headedIn s hdr) ctx))
  /-- A reply whose request was found. -/
  | found (hdr : Header) (ctx : Context) (f : Flow) (hst : s.rx.state = .header)
      (hc : s.ctx.isServer = false) (hs : hdr.status ≠ STATUS_PENDING)
      (hm : matchReply (headedIn s hdr).ctx hdr = .found ctx)
      (hr : f.Reads (matchedIn (headedIn s hdr) ctx) [.fixed]) : Does h K xfrm off s f
  /-- A request to a server. -/
  | taken (hdr : Header) (p : Pdu) (f : Flow) (hst : s.rx.state = .header)
      (hs : s.ctx.isServer = true) (hp : s.ctx.pdu = some p) (hn : hdr.status ≠ STATUS_PENDING)
      (hr : f.Reads (takenIn (headedIn s hdr) p) [.fixed]) : Does h K xfrm off s f
  | missing (hst : s.rx.state ∈ [RecvState.fixed, .variable]) (hp : s.ctx.pdu = none) :
      Does h K xfrm off s (.fault .nullPdu s)
  | decoded (s' : Smb2) (f : Flow) (hd : Decodes h s s') (hr : f.Reads s' [.variable, .pad]) :
      Does h K xfrm off s f
  | ended (s' : Smb2) (f : Flow) (hd : Decodes h s s') (he : Completes h K off s' f) :
      Does h K xfrm off s f
  | padded (f : Flow) (hst : s.rx.state = .pad) (he : Completes h K off s f) : Does h K xfrm off s f
  | opened (plain : Bytes) (s' : Smb2) (hst : s.rx.state = .trfm)
      (hctx : s'.ctx = s.ctx.emit (.used .serverout s.ctx.serveroutKey))
      (hlog : s'.rx.log = s.rx.log) (hhdr : s'.rx.hdr = s.rx.hdr) (hs' : s'.rx.state = .header)
      (henc : s'.rx.enc = true) : Does h K xfrm off s (.decrypt plain s')
  | unopened (e : ReadError) (hst : s.rx.state = .trfm) :
      Does h K xfrm off s (.fail e { s with rx := { s.rx with numDone := 0 } })
  | skipped (hst : s.rx.state = .unknown) :
      Does h K xfrm off s (.done { s with rx := { s.rx with numDone := 0 } })

section
variable {h : Hooks} {K : Crypto} {xfrm : Bool} {off : Nat}

theorem expect_reads {states : List RecvState} {st : RecvState} (hst : st ∈ states)
    (len : Int) : (expect s st len).Reads s states :=
  expect_cases s st len (fun _ => .refl s) (fun _ => ⟨⟨rfl, rfl, rfl, rfl, rfl⟩, hst⟩)

theorem expectVariable_reads (ns : List Nat) (len : Nat) (s : Smb2) :
    (expectVariable s ns len).Reads s [.variable, .pad] := by
  induction ns generalizing len s with
  | nil => exact expect_reads (by simp) _
  | cons n ns ih =>
    unfold expectVariable
    split
    · exact .refl s
    · rename_i s' e
      split
      · exact ⟨addIovector_readsOn e .variable, by simp⟩
      · have hs : ReadsOn s s' := addIovector_readsOn e s'.rx.state
        have hrest := ih (len - min n len) s'
        generalize expectVariable s' ns (len - min n len) = f at hrest ⊢
        cases f with
        | more s₂ => exact ⟨hs.trans hrest.1, hrest.2⟩
        | fail e₂ s₂ => exact hs.trans hrest
        | _ => exact hrest.elim

theorem expectFixed_reads {p : Pdu} (hp : s.ctx.pdu = some p) :
    (expectFixed s).Reads s [.fixed] := by
  unfold expectFixed
  simp only [hp]
  split
  · exact .refl s
  · exact expect_reads (by simp) _

/-- After the callback: a fault, a frame without room, the next member, or the end. -/
theorem endMember_cases (s : Smb2) :
    (∃ f, s.ctx.fault = some f ∧ endMember s = .fault f s) ∨
    s.ctx.fault = none ∧ (endMember s = .fail .tooManyVectors s ∨
      (∃ s', endMember s = .chained s' ∧ ReadsOn s s' ∧ s'.rx.state = .header) ∨
      endMember s = .done { s with rx := { s.rx with numDone := 0 } }) := by
  unfold endMember
  cases hf : s.ctx.fault with
  | some f => exact .inl ⟨f, rfl, rfl⟩
  | none =>
    refine .inr ⟨rfl, ?_⟩
    simp only
    split
    · split
      · exact .inl rfl
      · rename_i s' e
        exact .inr (.inl ⟨_, rfl, addIovector_readsOn e .header, rfl⟩)
    · exact .inr (.inr rfl)

theorem dispatch_completes (s : Smb2) (hst : s.rx.hdr.status ≠ STATUS_PENDING)
    (hv : mustVerify s = true → verify K s off = .good) :
    Completes h K off s (dispatch h s) := by
  unfold dispatch
  split
  · rename_i hp
    exact .missing hp
  · rename_i p hp
    split
    · rename_i hcb
      exact .uncalled p hp hcb hst
    · rename_i hcb
      exact .dispatched p hp hcb hst hv

theorem dispatchPending_completes (s : Smb2) (hst : s.rx.hdr.status = STATUS_PENDING) :
    Completes h K off s (dispatchPending h s) := by
  unfold dispatchPending
  simp only
  split
  · rename_i hpt
    split
    · exact .quiet hst
    · rename_i p hp
      split
      · rename_i hcb
        exact .unshown p hpt hp hcb hst
      · rename_i hcb
        split
        · rename_i f hf
          exact .broken p f hpt hp hcb hst hf
        · rename_i hf
          exact .shown p hpt hp hcb hst hf
  · exact .quiet hst

theorem complete_completes (off : Nat) (s : Smb2) : Completes h K off s (complete h K off s) := by
  unfold complete
  split
  · exact .refused _
  · split
    · rename_i hst
      exact dispatchPending_completes s hst
    · rename_i hst
      split
      · split
        · exact .overflow
        · exact .refused _
        · rename_i hgood
          exact dispatch_completes s hst (fun _ => hgood)
      · rename_i hm
        exact dispatch_completes s hst (fun hm' => absurd hm' hm)

theorem padOrComplete_does (hd : Decodes h s s') :
    Does h K xfrm off s (padOrComplete h K off s') := by
  unfold padOrComplete
  simp only
  split
  · exact .decoded s' _ hd (.refl s')
  · split
    · exact .decoded s' _ hd (expect_reads (by simp) _)
    · exact .ended s' _ hd (complete_completes off s')

theorem matchReply_found_pdu {ctx ctx' : Context} {hdr : Header}
    (e : matchReply ctx hdr = .found ctx') : ∃ p, ctx'.pdu = some p := by
  have hl := matchReply_lookup ctx hdr
  rw [e] at hl
  cases hl with
  | current p hu hp => exact ⟨p, hp⟩
  | _ => exact ⟨_, rfl⟩

/-- A header that is a reply to a client. -/
theorem replyHeader_does (xfrm : Bool) (hdr : Header) (hst : s.rx.state = .header)
    (hc : s.ctx.isServer = false) (hs : hdr.status ≠ STATUS_PENDING) :
    Does h K xfrm off s (replyHeader xfrm (headedIn s hdr)) := by
  unfold replyHeader
  cases hm : matchReply (headedIn s hdr).ctx (headedIn s hdr).rx.hdr with
  | unknown ctx =>
    exact .unmatched hdr ctx hst hc hs hm
  | outOfOrder ctx => exact .outOfOrder hdr ctx hst hc hm
  | noMemory ctx => exact .noMemory hdr ctx hst hc hm
  | found ctx =>
    obtain ⟨p, hp⟩ := matchReply_found_pdu hm
    exact .found hdr ctx _ hst hc hs hm (expectFixed_reads hp)

/-- A header that is a request to a server. -/
theorem requestHeader_does (hdr : Header) (hst : s.rx.state = .header)
    (hsv : s.ctx.isServer = true) (hs : hdr.status ≠ STATUS_PENDING) :
    Does h K xfrm off s (requestHeader (headedIn s hdr)) := by
  have hpdu : (headedIn s hdr).ctx.pdu = s.ctx.pdu :=
    (grantCredits_pdu _ hdr).trans (noteHeader_pdu s.ctx hdr)
  unfold requestHeader
  split
  · exact .headed hdr _ hst (.refl _) (fun _ e => by cases e)
  · rename_i p hp
    exact .taken hdr p _ hst hsv (hpdu.symm.trans hp) hs (expectFixed_reads rfl)

theorem headerPhase_does (xfrm : Bool) (hst : s.rx.state = .header) :
    Does h K xfrm off s (headerPhase xfrm s) := by
  have hin : s.rx.state ∈ [RecvState.spl, .header] := by simp [hst]
  unfold headerPhase
  split
  · unfold transformHeader
    simp only
    split
    · exact .reads _ hin (.refl s)
    · split
      · exact .reads _ hin (.refl s)
      · split
        · exact .overflow
        · exact .reads _ hin ⟨⟨rfl, rfl, rfl, rfl, rfl⟩, by simp⟩
  · split
    · exact .reads _ hin (.refl s)
    · rename_i hdr _
      simp only
      split
      · rename_i hflush
        refine .flushed hdr hst ?_
        rw [noteHeader_isServer] at hflush
        exact (Bool.and_eq_true _ _ ▸ hflush).1
      · have hsv : (headedIn s hdr).ctx.isServer = s.ctx.isServer :=
          (grantCredits_isServer _ hdr).trans (noteHeader_isServer s.ctx hdr)
        show Does h K xfrm off s (smb2Header xfrm (headedIn s hdr))
        unfold smb2Header
        simp only
        split
        · exact .headed hdr _ hst (.refl _) (fun _ e => by cases e)
        · split
          · exact .headed hdr _ hst (.refl _) (fun _ e => by cases e)
          · split
            · rename_i hp
              exact .headed hdr _ hst (expect_reads (by simp) _) (fun _ _ => hp)
            · rename_i hp
              split
              · rename_i hsv'
                exact requestHeader_does hdr hst (hsv.symm.trans hsv') hp
              · rename_i hsv'
                have hc : s.ctx.isServer = false := by
                  rw [← hsv]
                  simpa using hsv'
                exact replyHeader_does xfrm hdr hst hc hp

/-- **A phase does one of these things.** -/
theorem phase_does (xfrm : Bool) (off : Nat) (s : Smb2) :
    Does h K xfrm off s (phase h K xfrm off s) := by
  unfold phase
  split
  · rename_i hst
    have hin : s.rx.state ∈ [RecvState.spl, .header] := by simp [hst]
    unfold splPhase
    simp only
    split
    · exact .reads _ hin ⟨rfl, rfl, rfl, rfl, rfl⟩
    · rename_i s' e
      have hctx := addIovector_ctx e
      have hrx := addIovector_rx e
      exact .reads _ hin ⟨⟨hctx, by rw [hrx], by rw [hrx], by rw [hrx], by rw [hrx]⟩, by simp [hrx]⟩
  · rename_i hst
    exact headerPhase_does xfrm hst
  · rename_i hst
    unfold fixedPhase
    split
    · rename_i hp
      exact .missing (by simp [hst]) hp
    · rename_i p hp
      have hd := Decodes.fixedPart (h := h) p hp hst
      simp only
      split
      · exact .decoded _ _ hd (.refl _)
      · split
        · exact padOrComplete_does hd
        · exact .decoded _ _ hd (expectVariable_reads _ _ _)
  · rename_i hst
    unfold variablePhase
    split
    · rename_i hp
      exact .missing (by simp [hst]) hp
    · rename_i p hp
      have hd := Decodes.variablePart (h := h) p hp hst
      simp only
      split
      · exact .decoded _ _ hd (.refl _)
      · exact padOrComplete_does hd
  · rename_i hst
    exact .padded _ hst (complete_completes off s)
  · rename_i hst
    unfold transformPhase
    simp only
    split
    · exact .unopened _ hst
    · exact .opened _ _ hst rfl rfl rfl rfl rfl
  · rename_i hst
    exact .skipped hst

/-! ## Where a phase leads -/

/-- Where a phase may lead that begins with `n` octets read: it reads nothing itself, and only a
server flushes.  It faults on a missing request or callback, on a vector that is too short, or with
the fault of a callback. -/
def Flow.Regular (n : Nat) (enc : Bool) : Flow → Prop
  | .more s => s.rx.numDone = n ∧ s.rx.enc = enc
  | .chained s => s.rx.enc = enc
  | .done s => s.rx.numDone = 0 ∧ s.rx.enc = enc
  | .fail _ _ => True
  | .fault f s => f ∈ [Fault.nullPdu, .nullCallback, .heapOverflow] ∨ s.ctx.fault = some f
  | .flush s => s.ctx.isServer = true ∧ s.rx.enc = enc
  | .decrypt _ s => s.rx.enc = true

theorem Flow.Reads.regular {f : Flow} {states : List RecvState}
    (hf : f.Reads s states) : f.Regular s.rx.numDone s.rx.enc := by
  cases f with
  | more s' => exact ⟨hf.1.numDone, hf.1.enc⟩
  | fail e s' => trivial
  | _ => exact hf.elim

theorem Completes.regular {f : Flow} (hc : Completes h K off s f) (n : Nat) :
    f.Regular n s.rx.enc := by
  cases hc with
  | dispatched p hp hcb hst hv =>
    rcases endMember_cases (dispatchedIn h s p) with ⟨f, hf, he⟩ | ⟨_, he | ⟨s', he, hs, _⟩ | he⟩
      <;> rw [he]
    · exact .inr hf
    · trivial
    · exact hs.enc
    · exact ⟨rfl, rfl⟩
  | quiet hst => exact ⟨rfl, rfl⟩
  | shown p hpt hp hcb hst hf => exact ⟨rfl, rfl⟩
  | broken p f hpt hp hcb hst hf => exact .inr hf
  | refused e => trivial
  | _ => exact .inl (by simp)

theorem Decodes.frame (hd : Decodes h s s') :
    s'.rx.numDone = s.rx.numDone ∧ s'.rx.enc = s.rx.enc ∧ s'.rx.hdr = s.rx.hdr := by
  cases hd <;> exact ⟨rfl, rfl, rfl⟩

/-- **A phase leads where it may.** -/
theorem phase_regular (xfrm : Bool) (off : Nat) (s : Smb2) :
    (phase h K xfrm off s).Regular s.rx.numDone s.rx.enc := by
  have hdoes := phase_does (h := h) (K := K) xfrm off s
  generalize phase h K xfrm off s = f at hdoes
  cases hdoes with
  | reads f hst hr => exact hr.regular
  | headed hdr f hst hr hp => exact hr.regular
  | found hdr ctx f hst hc hs hm hr => exact hr.regular
  | taken hdr p f hst hs hp hn hr => exact hr.regular
  | unmatched hdr ctx hst hc hs hm =>
    unfold skipRest
    split
    · trivial
    · exact (expect_reads (List.mem_singleton.mpr rfl) _).regular
  | flushed hdr hst hs => exact ⟨(noteHeader_isServer s.ctx hdr).trans hs, rfl⟩
  | decoded s' f hd hr =>
    rw [← hd.frame.1, ← hd.frame.2.1]
    exact hr.regular
  | ended s' f hd he =>
    rw [← hd.frame.2.1]
    exact he.regular _
  | padded f hst he => exact he.regular _
  | opened plain s' hst hctx hlog hhdr hs' henc => exact henc
  | skipped hst => exact ⟨rfl, rfl⟩
  | overflow => exact .inl (by simp)
  | missing hst hp => exact .inl (by simp)
  | _ => trivial

/-- Only a server flushes its input. -/
theorem phase_flush_isServer {xfrm : Bool} {off : Nat}
    (e : phase h K xfrm off s = .flush s') : s'.ctx.isServer = true := by
  have hreg := phase_regular (h := h) (K := K) xfrm off s
  rw [e] at hreg
  exact hreg.1

end

end Libsmb2
