import Libsmb2.Receive.Cases
import Libsmb2.Receive.Chunking
import Libsmb2.Server.Turns

/-!
# No service without a logon

Whatever a client sends, and however it arrives: the handlers of the application run only while
a client is logged on.

* `afterRequest_secure` — a request is completed, and another one is expected;
* `phase_guards` — a phase of the receive path;
* `runOps_gated` — any interleaving of messages, writes, timeouts and calls of the application.

A request that times out runs its callback once more, for whatever request is current by then.
What follows a timeout is therefore not promised.
-/

set_option autoImplicit false

namespace Libsmb2

open Util

/-! ## A server -/

/-- What a server runs for the messages that it receives. -/
def serverHooks (L : Library) (K : Crypto) : Hooks where
  decodeFixed := L.decodeFixed
  decodeVariable := L.decodeVariable
  invoke rx p status ctx := invokeServer L K rx p status p.payload ctx
  invoke_isServer rx p status ctx := (invokeServer_turn rx p status p.payload ctx).isServer
  invoke_pdu rx p status ctx := (invokeServer_turn rx p status p.payload ctx).pdu

def serverEndpoint (L : Library) (K : Crypto) : Endpoint where
  hooks := serverHooks L K
  lapse rx p status ctx := invokeServer L K rx p status .null ctx

/-- `smb2_serve_port` takes a connection in, and expects a negotiate request. -/
def Session.serve (s : Session) (server : Server) : Session :=
  let x := s.ctx.allocatePdu .negotiate .negotiateRequestCb
  let ctx := { x.2 with pdu := x.1 }
  let ctx := if x.1.isSome then ctx else ctx.closeContext
  s.setCtx { ctx with isServer := true, server := server }

/-! ## What a server knows of its session -/

/-- What the log of a server with these handlers says. -/
structure Watched (asked : Bool) (ctx : Context) : Prop where
  isServer : ctx.isServer = true
  asks : ctx.server.establishes = asked
  gated : LogonFirst asked ctx.log

/-- A request of any kind is expected only where a client is logged on, and after the
negotiation. -/
structure Secure (asked : Bool) (ctx : Context) : Prop where
  challenged : Challenged ctx
  current : ∀ p, ctx.pdu = some p → p.cb = .generalClientRequestCb → LoggedOn asked ctx.log
  next : ∀ q, ctx.nextPdu = some q →
    q.Fresh ∧ (q.cb = .generalClientRequestCb → LoggedOn asked ctx.log)
  past : (.generalClientRequestCb ∈ ctx.waitqueue.map Pdu.cb ∨
      ∃ p, ctx.pdu = some p ∧ p.cb = .generalClientRequestCb) →
    ∀ q, ctx.pdu = some q ∨ ctx.nextPdu = some q → q.cb ≠ .negotiateRequestCb

/-- No header has been read into the current request, unless its message is being read. -/
def Attentive (s : Smb2) : Prop := ∀ p, s.ctx.pdu = some p → p.Fresh ∨ InBody s.rx

section
variable {K : Crypto} {L : Library} {asked : Bool} {ctx ctx' : Context} {s : Smb2}

theorem Watched.aside (hw : Watched asked ctx) (h : Aside ctx ctx') : Watched asked ctx' :=
  ⟨h.isServer.trans hw.isServer, (establishes_congr h.handlers).trans hw.asks,
    hw.gated.quiet (h.log.mono fun _ => Event.ne_handled_of_aside)⟩

theorem Watched.raise (hw : Watched asked ctx) (f : Fault) : Watched asked (ctx.raise f) :=
  hw.aside (raise_aside ctx f)

theorem Secure.aside (hs : Secure asked ctx) (hsv : ctx.isServer = true) (h : Aside ctx ctx') :
    Secure asked ctx' := by
  have hlog := h.log.mono fun _ => Event.ne_loggedOff_of_aside
  refine ⟨h.challenged hs.challenged, fun p hp hg => ?_, fun q hq => ?_, fun hg q hq => ?_⟩
  · exact (hs.current p (h.pdu ▸ hp) hg).logged hlog
  · obtain ⟨hfresh, hon⟩ := hs.next q (h.nextPdu ▸ hq)
    exact ⟨hfresh, fun hg => (hon hg).logged hlog⟩
  · rw [h.pdu, h.nextPdu] at hq
    refine hs.past ?_ q hq
    rcases hg with hg | ⟨p, hp, hcb⟩
    · exact .inl (h.wait hsv hg)
    · exact .inr ⟨p, h.pdu ▸ hp, hcb⟩

/-! ## The callbacks -/

/-- What the callback of a request leaves of the session. -/
theorem ServerTurn.watched {cb : Callback} (ht : ServerTurn asked cb ctx ctx')
    (hw : Watched asked ctx) (hon : Orderly ctx.log → Licensed asked cb ctx) :
    Watched asked ctx' :=
  ⟨ht.isServer.trans hw.isServer, (establishes_congr ht.handlers).trans hw.asks,
    ht.gated hw.gated hon⟩

theorem ServerTurn.next_secure {cb : Callback} (ht : ServerTurn asked cb ctx ctx')
    (hch : Challenged ctx) (hon : Licensed asked cb ctx) (he : Ended ctx')
    (hn : ∀ q, ctx.nextPdu = some q →
      q.Fresh ∧ (q.cb = .generalClientRequestCb → LoggedOn asked ctx.log)) :
    ∀ q, ctx'.nextPdu = some q →
      q.Fresh ∧ (q.cb = .generalClientRequestCb → LoggedOn asked ctx'.log) := by
  intro q hq
  rcases ht.next q hq with ⟨hold, hlog⟩ | ⟨hfresh, _, hgen⟩
  · obtain ⟨hfresh, hg⟩ := hn q hold
    exact ⟨hfresh, fun hcb => (hg hcb).logged (hlog he)⟩
  · exact ⟨hfresh, fun hcb => hgen hcb hch hon he⟩

theorem afterRequest_watched (rx : Receiver) {p : Pdu} (hw : Watched asked ctx)
    (hp : ctx.pdu = some p) (hs : Orderly ctx.log → Secure asked ctx) :
    Watched asked (afterRequest (serverHooks L K) rx p ctx) := by
  obtain ⟨hsv, rfl, hg⟩ := hw
  have ht := invokeServer_turn (L := L) (K := K) rx p rx.hdr.status p.payload
    { ctx with waitqueue := ctx.waitqueue ++ [p] }
  have hd := ht.watched ⟨hsv, rfl, hg⟩ fun ho hcb _ _ _ => (hs ho).current p hp hcb
  exact ⟨hd.isServer, hd.asks, hd.gated⟩

/-- **A request has been completed**, and another one is current. -/
theorem afterRequest_secure (rx : Receiver) {p : Pdu} (hw : Watched asked ctx)
    (hp : ctx.pdu = some p) (hs : Orderly ctx.log → Secure asked ctx)
    (hf : (afterRequest (serverHooks L K) rx p ctx).fault = none)
    (ho : Orderly (afterRequest (serverHooks L K) rx p ctx).log) :
    Secure asked (afterRequest (serverHooks L K) rx p ctx) ∧
      ∀ q, (afterRequest (serverHooks L K) rx p ctx).pdu = some q → q.Fresh := by
  obtain ⟨hsv, rfl, hg⟩ := hw
  have ht := invokeServer_turn (L := L) (K := K) rx p rx.hdr.status p.payload
    { ctx with waitqueue := ctx.waitqueue ++ [p] }
  unfold afterRequest at hf ho ⊢
  simp only [serverHooks] at hf ho ⊢
  generalize invokeServer L K rx p rx.hdr.status p.payload
    { ctx with waitqueue := ctx.waitqueue ++ [p] } = d at ht hf ho ⊢
  have hsec := hs (ho.of_prefix ht.grown)
  have hnext := ht.next_secure hsec.challenged
    (fun hcb _ _ _ => hsec.current p hp hcb) ⟨hf, ho.unclosed⟩ hsec.next
  have hpast : .generalClientRequestCb ∈ d.waitqueue.map Pdu.cb →
      ∀ q, d.nextPdu = some q → q.cb ≠ .negotiateRequestCb := by
    intro hgen q hq hneg
    have hold : .generalClientRequestCb ∈ ctx.waitqueue.map Pdu.cb ∨
        ∃ p, ctx.pdu = some p ∧ p.cb = .generalClientRequestCb := by
      have hmem := ht.wait hsv hgen
      simp only [List.map_append, List.mem_append, List.map_cons, List.map_nil,
        List.mem_singleton] at hmem
      rcases hmem with hmem | hmem
      · exact .inl hmem
      · exact .inr ⟨p, hp, hmem.symm⟩
    rcases ht.next q hq with ⟨hnext, _⟩ | ⟨_, hcb, _⟩
    · exact hsec.past hold q (.inr hnext) hneg
    · exact hsec.past hold p (.inl hp) (hcb hneg)
  refine ⟨{
    challenged := ht.challenged hsec.challenged ⟨hf, ho.unclosed⟩
    current := fun q hq => (hnext q hq).2
    next := by simp
    past := fun hgen q hq => ?_ }, fun q hq => (hnext q hq).1⟩
  have hq' : d.nextPdu = some q := by simpa using hq
  rcases hgen with hgen | ⟨r, hr, hcb⟩
  · exact hpast hgen q hq'
  · obtain rfl : r = q := Option.some.inj (hr.symm.trans hq')
    rw [hcb]
    simp

/-- An interim message shows a request its callback only where that serves requests. -/
theorem invokeServer_interim (rx : Receiver) {p : Pdu} (payload : Payload)
    (hcb : p.cb ≠ .generalClientRequestCb) (ctx : Context) :
    Aside ctx (invokeServer L K rx p STATUS_PENDING payload ctx) := by
  have hemit := emit_aside ctx (e := .completed p.id STATUS_PENDING) rfl
  unfold invokeServer
  simp only
  split
  · unfold negotiateRequestCb
    rw [if_pos (by decide)]
    exact hemit
  · unfold sessionSetupRequestCb
    rw [if_pos (by decide)]
    exact hemit
  · rename_i hgen
    exact absurd hgen hcb
  · exact hemit.trans (react_aside _)

/-- A general request can only have been waiting where the negotiation is over. -/
theorem Secure.licensed (hs : Secure asked ctx) {p : Pdu} (hp : p ∈ ctx.waitqueue)
    (hcur : ∀ c, ctx.pdu = some c → c.Fresh) : Licensed asked p.cb ctx := by
  intro hcb c hc hne
  have hpast := hs.past (.inl (List.mem_map.mpr ⟨p, hp, hcb⟩)) c (.inl hc)
  have hfresh := hcur c hc
  unfold Pdu.Fresh at hfresh
  cases hc' : c.cb with
  | generalClientRequestCb => exact hs.current c hc hc'
  | sessionSetupRequestCb =>
    rw [hc'] at hfresh
    exact absurd (Option.some.inj hfresh).symm hne
  | negotiateRequestCb => exact absurd hc' hpast
  | _ =>
    rw [hc'] at hfresh
    cases hfresh

/-- **An interim message** has been shown to the callback of a request that waits. -/
theorem interim_watched (rx : Receiver) {p : Pdu} (hp : p ∈ ctx.waitqueue)
    (hw : Watched asked ctx) (hs : Orderly ctx.log → Secure asked ctx)
    (hcur : Orderly ctx.log → ∀ c, ctx.pdu = some c → c.Fresh) :
    Watched asked (invokeServer L K rx p STATUS_PENDING p.payload ctx) := by
  obtain ⟨hsv, rfl, hg⟩ := hw
  have ht := invokeServer_turn (L := L) (K := K) rx p STATUS_PENDING p.payload ctx
  exact ht.watched ⟨hsv, rfl, hg⟩ fun ho => (hs ho).licensed hp (hcur ho)

theorem interim_secure (rx : Receiver) {p : Pdu} (hp : p ∈ ctx.waitqueue)
    (hw : Watched asked ctx) (hs : Secure asked ctx) (hcur : ∀ c, ctx.pdu = some c → c.Fresh)
    (hf : (invokeServer L K rx p STATUS_PENDING p.payload ctx).fault = none)
    (ho : Orderly (invokeServer L K rx p STATUS_PENDING p.payload ctx).log) :
    Secure asked (invokeServer L K rx p STATUS_PENDING p.payload ctx) := by
  obtain ⟨hsv, rfl, hg⟩ := hw
  by_cases hcb : p.cb = .generalClientRequestCb
  · have ht := invokeServer_turn (L := L) (K := K) rx p STATUS_PENDING p.payload ctx
    generalize invokeServer L K rx p STATUS_PENDING p.payload ctx = d at ht hf ho ⊢
    have hpast := hs.past (.inl (List.mem_map.mpr ⟨p, hp, hcb⟩))
    have hnext := ht.next_secure hs.challenged (hs.licensed hp hcur) ⟨hf, ho.unclosed⟩ hs.next
    refine ⟨ht.challenged hs.challenged ⟨hf, ho.unclosed⟩, fun c hc hgen => ?_, hnext,
      fun _ q hq hneg => ?_⟩
    · rw [ht.pdu] at hc
      refine (hs.current c hc hgen).logged (ht.kept fun c' hc' => ?_)
      obtain rfl : c = c' := Option.some.inj (hc.symm.trans hc')
      have hfresh := hcur c hc
      unfold Pdu.Fresh at hfresh
      rw [hgen] at hfresh
      rw [← Option.some.inj hfresh]
      simp
    · rcases hq with hq | hq
      · exact hpast q (.inl (ht.pdu ▸ hq)) hneg
      · rcases ht.next q hq with ⟨hold, _⟩ | ⟨_, hn, _⟩
        · exact hpast q (.inr hold) hneg
        · rw [hcb] at hn
          cases hn hneg
  · exact hs.aside hsv (invokeServer_interim rx p.payload hcb ctx)

/-! ## The receive path -/

/-- What the receive machine of a server keeps. -/
structure Guarded (asked : Bool) (s : Smb2) : Prop where
  watched : Watched asked s.ctx
  secure : Orderly s.ctx.log → Secure asked s.ctx
  attentive : Orderly s.ctx.log → Attentive s

theorem Attentive.fresh (ha : Attentive s)
    (hst : s.rx.state ∉ [RecvState.fixed, .variable, .pad] ∨ s.rx.hdr.status = STATUS_PENDING) :
    ∀ p, s.ctx.pdu = some p → p.Fresh := by
  intro p hp
  rcases ha p hp with h | h
  · exact h
  · rcases hst with hst | hst
    · exact absurd h.state hst
    · exact absurd hst h.status

theorem Attentive.of_fresh (h : ∀ p, s.ctx.pdu = some p → p.Fresh) : Attentive s :=
  fun p hp => .inl (h p hp)

/-- The machine reads on. -/
theorem Flow.Reads.guarded {f : Flow} {states : List RecvState} (hr : f.Reads s states)
    (hw : Watched asked s.ctx) (hs : Orderly s.ctx.log → Secure asked s.ctx)
    (ha : Orderly s.ctx.log → ∀ rx : Receiver, rx.state ∈ states → rx.hdr = s.rx.hdr →
      rx.numDone = s.rx.numDone → ∀ p, s.ctx.pdu = some p → p.Fresh ∨ InBody rx) :
    f.Ends (Guarded asked) (fun s => Watched asked s.ctx) (fun _ s => Watched asked s.ctx) := by
  cases f with
  | more s' =>
    obtain ⟨⟨hctx, -, hhdr, hdone, -⟩, hst⟩ := hr
    show Guarded asked s'
    refine ⟨hctx ▸ hw, fun ho => ?_, fun ho p hp => ?_⟩
    · rw [hctx] at ho ⊢
      exact hs ho
    · rw [hctx] at ho hp
      exact ha ho s'.rx hst hhdr hdone p hp
  | fail e s' =>
    have hw' : Watched asked s'.ctx := hr.ctx ▸ hw
    exact hw'
  | _ => exact hr.elim

theorem selectTreeId_aside (ctx : Context) (tid : Nat) : Aside ctx (ctx.selectTreeId tid) := by
  unfold Context.selectTreeId
  split
  · exact .of_same rfl rfl rfl rfl rfl rfl (.refl _)
  · exact .refl _

theorem noteHeader_aside (ctx : Context) (hdr : Header) : Aside ctx (noteHeader ctx hdr) := by
  have hnote : ∀ ctx' : Context, Aside ctx ctx' → Aside ctx (if ctx'.isServer then
      { ctx' with messageId := hdr.messageId } else ctx') := by
    intro ctx' h
    split
    · exact h.trans (.of_same rfl rfl rfl rfl rfl rfl (.refl _))
    · exact h
  unfold noteHeader
  split
  · exact .refl _
  · simp only
    split
    · exact hnote _ (selectTreeId_aside ctx _)
    · exact hnote _ (.refl _)

theorem headedIn_aside (hdr : Header) (hsv : s.ctx.isServer = true) :
    Aside s.ctx (headedIn s hdr).ctx := by
  have hnote := noteHeader_aside s.ctx hdr
  show Aside s.ctx (grantCredits (noteHeader s.ctx hdr) hdr)
  unfold grantCredits
  rw [if_pos (hnote.isServer.trans hsv)]
  exact hnote

theorem applyEffects_aside (ctx : Context) (e : Effects) : Aside ctx (applyEffects ctx e) := by
  unfold applyEffects
  extract_lets d₁ d₂ d₃
  have hid : Aside ctx d₁ := by
    simp only [d₁]
    split
    · exact .of_same rfl rfl rfl rfl rfl rfl (.refl _)
    · exact .refl _
  have hseal : Aside d₁ d₂ := .of_same rfl rfl rfl rfl rfl rfl (.refl _)
  have hconnect : Aside d₂ d₃ := by
    simp only [d₃]
    split
    · exact connectTreeId_aside _ _
    · exact .refl _
  refine hid.trans (hseal.trans (hconnect.trans ?_))
  split
  · exact disconnectTreeId_aside _ _
  · exact .refl _

/-- The current request is changed, but not its callback. -/
theorem Secure.replace (hs : Secure asked ctx) {p p' : Pdu} (hp : ctx.pdu = some p)
    (hcb : p'.cb = p.cb) : Secure asked { ctx with pdu := some p' } where
  challenged := hs.challenged
  current := by
    rintro q ⟨⟩ hgen
    exact hs.current p hp (hcb ▸ hgen)
  next := hs.next
  past hgen q hq := by
    have hold := hs.past (hgen.imp_right ?_)
    · rcases hq with ⟨⟨⟩⟩ | hq
      · exact hcb ▸ hold p (.inl hp)
      · exact hold q (.inr hq)
    · rintro ⟨r, ⟨⟩, hr⟩
      exact ⟨p, hp, hcb ▸ hr⟩

/-- A part of a message has been decoded. -/
theorem Guarded.decoded {s' : Smb2} (hg : Guarded asked s) (hd : Decodes (serverHooks L K) s s') :
    s'.rx.hdr = s.rx.hdr ∧ s'.rx.numDone = s.rx.numDone ∧ Watched asked s'.ctx ∧
      (Orderly s'.ctx.log → Secure asked s'.ctx) ∧
      (Orderly s'.ctx.log → ∀ rx : Receiver, rx.state ∈ [RecvState.variable, .pad] →
        rx.hdr = s.rx.hdr → rx.numDone = s.rx.numDone →
        ∀ p, s'.ctx.pdu = some p → p.Fresh ∨ InBody rx) := by
  have happly : ∀ (p : Pdu) (d : Decoded), s.ctx.pdu = some p →
      Watched asked (applyDecoded s.ctx p d) ∧
      (Orderly (applyDecoded s.ctx p d).log → Secure asked (applyDecoded s.ctx p d)) ∧
      (Orderly (applyDecoded s.ctx p d).log → ∀ rx : Receiver,
        rx.state ∈ [RecvState.variable, .pad] → rx.hdr = s.rx.hdr → rx.numDone = s.rx.numDone →
        ∀ p', (applyDecoded s.ctx p d).pdu = some p' → p'.Fresh ∨ InBody rx) := by
    intro p d hp
    have heff := applyEffects_aside s.ctx d.effects
    refine ⟨⟨(hg.watched.aside heff).isServer, (hg.watched.aside heff).asks,
      (hg.watched.aside heff).gated⟩, fun ho => ?_, fun ho rx hst hhdr hn p' hp' => ?_⟩
    · have hsec := (hg.secure (ho.of_prefix heff.log.isPrefix)).aside hg.watched.isServer heff
      exact hsec.replace (heff.pdu.trans hp) rfl
    · have hp'' : p' = { p with payload := d.payload } := (Option.some.inj hp').symm
      subst hp''
      rcases hg.attentive (ho.of_prefix heff.log.isPrefix) p hp with h | h
      · exact .inl h
      · refine .inr ⟨?_, hhdr ▸ h.status, hn ▸ h.started⟩
        simp only [List.mem_cons, List.not_mem_nil, or_false] at hst ⊢
        exact .inr hst
  cases hd with
  | fixedPart p hp _ => exact ⟨rfl, rfl, happly p _ hp⟩
  | variablePart p hp _ => exact ⟨rfl, rfl, happly p _ hp⟩

/-- After the callback of the current request. -/
theorem Guarded.dispatched {p : Pdu} (hw : Watched asked s.ctx)
    (hs : Orderly s.ctx.log → Secure asked s.ctx) (hp : s.ctx.pdu = some p) :
    (endMember (dispatchedIn (serverHooks L K) s p)).Ends (Guarded asked)
      (fun s => Watched asked s.ctx) (fun _ s => Watched asked s.ctx) := by
  have hctx : (dispatchedIn (serverHooks L K) s p).ctx =
      afterRequest (serverHooks L K) s.rx p s.ctx := by
    unfold dispatchedIn
    rw [hw.isServer]
    rfl
  have hw' := afterRequest_watched (L := L) (K := K) s.rx hw hp hs
  have hs' := afterRequest_secure (L := L) (K := K) s.rx hw hp hs
  rw [← hctx] at hw' hs'
  generalize dispatchedIn (serverHooks L K) s p = d at hw' hs'
  rcases endMember_cases d with ⟨f, _, he⟩ | ⟨hf, he | ⟨s', he, ⟨hctx, _⟩, _⟩ | he⟩ <;> rw [he]
  · exact hw'
  · exact hw'
  · refine ⟨hctx ▸ hw', fun ho => ?_, fun ho => .of_fresh ?_⟩
    · exact hctx ▸ (hs' hf (hctx ▸ ho)).1
    · exact hctx ▸ (hs' hf (hctx ▸ ho)).2
  · exact ⟨hw', fun ho => (hs' hf ho).1, fun ho => .of_fresh (hs' hf ho).2⟩

/-- A message that is complete. -/
theorem Completes.guards {f : Flow} {off : Nat} (hc : Completes (serverHooks L K) K off s f)
    (hw : Watched asked s.ctx) (hs : Orderly s.ctx.log → Secure asked s.ctx)
    (ha : Orderly s.ctx.log → s.rx.hdr.status = STATUS_PENDING →
      ∀ p, s.ctx.pdu = some p → p.Fresh) :
    f.Ends (Guarded asked) (fun s => Watched asked s.ctx) (fun _ s => Watched asked s.ctx) := by
  cases hc with
  | refused e => exact hw
  | overflow => exact hw
  | missing hp => exact hw
  | uncalled p hp hcb hst => exact hw
  | dispatched p hp hcb hst => exact Guarded.dispatched hw hs hp
  | quiet hst => exact ⟨hw, hs, fun ho => .of_fresh (ha ho hst)⟩
  | unshown p hpt hp hcb hst => exact hw
  | shown p hpt hp hcb hst hf =>
    have hmem : p ∈ s.ctx.waitqueue := List.mem_of_find?_eq_some hp
    have hw' := interim_watched (L := L) (K := K) s.rx hmem hw hs fun ho => ha ho hst
    have hgrown := (invokeServer_turn (L := L) (K := K) s.rx p STATUS_PENDING p.payload
      s.ctx).grown
    have hpdu := (invokeServer_turn (L := L) (K := K) s.rx p STATUS_PENDING p.payload s.ctx).pdu
    have hctx : (pendingIn (serverHooks L K) s p).ctx =
        invokeServer L K s.rx p STATUS_PENDING p.payload s.ctx := by
      rw [← hst]
      rfl
    rw [hctx] at hf
    refine ⟨hctx ▸ hw', fun ho => ?_, fun ho => .of_fresh ?_⟩
    · have ho' : Orderly (invokeServer L K s.rx p STATUS_PENDING p.payload s.ctx).log := hctx ▸ ho
      have ho₀ := ho'.of_prefix hgrown
      exact hctx ▸ interim_secure s.rx hmem hw (hs ho₀) (ha ho₀ hst) hf ho'
    · have ho' : Orderly (invokeServer L K s.rx p STATUS_PENDING p.payload s.ctx).log := hctx ▸ ho
      intro c hc
      have hc' : (invokeServer L K s.rx p STATUS_PENDING p.payload s.ctx).pdu = some c := hctx ▸ hc
      exact ha (ho'.of_prefix hgrown) hst c (hpdu ▸ hc')
  | broken p f hpt hp hcb hst hf =>
    have hmem : p ∈ s.ctx.waitqueue := List.mem_of_find?_eq_some hp
    have hw' := interim_watched (L := L) (K := K) s.rx hmem hw hs fun ho => ha ho hst
    rw [← hst] at hw'
    exact hw'

/-- **A phase of the receive path** does not open the gate. -/
theorem phase_guards (xfrm : Bool) (off : Nat) (hg : Guarded asked s) (hpos : s.rx.numDone ≠ 0) :
    (phase (serverHooks L K) K xfrm off s).Ends (Guarded asked) (fun s => Watched asked s.ctx)
      (fun _ s => Watched asked s.ctx) := by
  have hsv := hg.watched.isServer
  have hdoes := phase_does (h := serverHooks L K) (K := K) xfrm off s
  generalize phase (serverHooks L K) K xfrm off s = f at hdoes ⊢
  have hfresh : s.rx.state ∉ [RecvState.fixed, .variable, .pad] → Orderly s.ctx.log →
      ∀ p, s.ctx.pdu = some p → p.Fresh := fun hst ho => (hg.attentive ho).fresh (.inl hst)
  have hclient : s.ctx.isServer ≠ false := by simp [hsv]
  cases hdoes with
  | reads f hst hread =>
    refine hread.guarded hg.watched hg.secure fun ho rx _ _ _ p hp => .inl ?_
    refine hfresh ?_ ho p hp
    intro hin
    simp only [List.mem_cons, List.not_mem_nil, or_false] at hst hin
    rcases hst with h | h <;> simp [h] at hin
  | overflow => exact hg.watched
  | headed hdr f hst hread hp =>
    have hnote := headedIn_aside hdr hsv
    refine hread.guarded (hg.watched.aside hnote)
      (fun ho => (hg.secure (ho.of_prefix hnote.log.isPrefix)).aside hsv hnote) ?_
    intro ho rx _ _ _ p hp'
    exact .inl (hfresh (by simp [hst]) (ho.of_prefix hnote.log.isPrefix) p (hnote.pdu ▸ hp'))
  | flushed hdr hst hs =>
    have hnote := noteHeader_aside s.ctx hdr
    refine ⟨hg.watched.aside hnote,
      fun ho => (hg.secure (ho.of_prefix hnote.log.isPrefix)).aside hsv hnote,
      fun ho => .of_fresh fun p hp => ?_⟩
    exact hfresh (by simp [hst]) (ho.of_prefix hnote.log.isPrefix) p (hnote.pdu ▸ hp)
  | unmatched hdr ctx hst hc hs hm => exact absurd hc hclient
  | outOfOrder hdr ctx hst hc hm => exact absurd hc hclient
  | noMemory hdr ctx hst hc hm => exact absurd hc hclient
  | found hdr ctx f hst hc hs hm hread => exact absurd hc hclient
  | taken hdr p f hst hs hp hn hread =>
    have hnote := headedIn_aside hdr hsv
    have hw := hg.watched.aside hnote
    refine hread.guarded ⟨hw.isServer, hw.asks, hw.gated⟩ (fun ho => ?_) ?_
    · have hsec := (hg.secure (ho.of_prefix hnote.log.isPrefix)).aside hsv hnote
      exact hsec.replace (hnote.pdu.trans hp) rfl
    · intro ho rx hrx hhdr hdone p' _
      refine .inr ⟨?_, ?_, hdone ▸ hpos⟩
      · simp only [List.mem_cons, List.not_mem_nil, or_false] at hrx ⊢
        exact .inl hrx
      · rw [hhdr]
        exact hn
  | missing hst hp => exact hg.watched
  | decoded s' f hd hread =>
    obtain ⟨hhdr, hdone, hw, hsec, hatt⟩ := hg.decoded hd
    refine hread.guarded hw hsec fun ho rx hrx hh hn => ?_
    exact hatt ho rx hrx (hh.trans hhdr) (hn.trans hdone)
  | ended s' f hd hco =>
    obtain ⟨hhdr, -, hw, hsec, hatt⟩ := hg.decoded hd
    refine hco.guards hw hsec fun ho hst p hp => ?_
    -- the part was that of an interim message, and so of none
    rcases hatt ho { s.rx with state := .pad } (by simp) rfl rfl p hp with h | h
    · exact h
    · exact absurd (hhdr ▸ hst) h.status
  | padded f hst hco =>
    exact hco.guards hg.watched hg.secure fun ho hpend => (hg.attentive ho).fresh (.inr hpend)
  | opened plain s' hst hctx hlog hhdr hs' =>
    have hused := emit_aside s.ctx (e := .used .serverout s.ctx.serveroutKey) rfl
    rw [← hctx] at hused
    refine ⟨hg.watched.aside hused,
      fun ho => (hg.secure (ho.of_prefix hused.log.isPrefix)).aside hsv hused,
      fun ho => .of_fresh fun p hp => ?_⟩
    exact hfresh (by simp [hst]) (ho.of_prefix hused.log.isPrefix) p (hused.pdu ▸ hp)
  | unopened e hst => exact hg.watched
  | skipped hst =>
    exact ⟨hg.watched, hg.secure, fun ho => .of_fresh (hfresh (by simp [hst]) ho)⟩

/-- An SMB1 negotiate request. -/
theorem smb1Negotiate_guards (stale : Bool) (hg : Guarded asked s) :
    (smb1Negotiate (serverHooks L K) stale s).Ends (Guarded asked) (fun s => Watched asked s.ctx)
      (fun _ s => Watched asked s.ctx) := by
  unfold smb1Negotiate
  split
  · exact hg.watched
  · rename_i p hp
    split
    · exact hg.watched
    · split
      · exact hg.watched
      · have hw := afterRequest_watched (L := L) (K := K) { s.rx with numDone := 0 } hg.watched hp
          hg.secure
        have hsec := afterRequest_secure (L := L) (K := K) { s.rx with numDone := 0 } hg.watched hp
          hg.secure
        simp only
        split
        · exact hw
        · rename_i hf
          exact ⟨hw, fun ho => (hsec hf ho).1, fun ho => .of_fresh (hsec hf ho).2⟩

theorem guard_rule (asked : Bool) (L : Library) (K : Crypto) :
    ReadRule (serverHooks L K) K (Guarded asked) (fun s => Watched asked s.ctx)
      (fun _ s => Watched asked s.ctx) where
  stored bs hg := by
    refine ⟨hg.watched, hg.secure, fun ho p hp => (hg.attentive ho p hp).imp_right ?_⟩
    intro hb
    have hpos := hb.started
    exact ⟨hb.state, hb.status, by simp [store]; omega⟩
  started hg := by
    unfold start
    split
    · rename_i hz
      refine ⟨hg.watched, hg.secure, fun ho => .of_fresh fun p hp => ?_⟩
      rcases hg.attentive ho p hp with h | h
      · exact h
      · exact absurd hz h.started
    · exact hg
  plain hg hz := by
    refine ⟨hg.watched, hg.secure, fun ho => .of_fresh fun p hp => ?_⟩
    rcases hg.attentive ho p hp with h | h
    · exact h
    · exact absurd hz h.started
  phase xfrm off _ hg hpos := phase_guards xfrm off hg hpos
  negotiate stale _ hg _ := smb1Negotiate_guards stale hg
  fails hg := hg.watched
  faults hg := ⟨hg.watched, hg.watched⟩

/-! ## Runs -/

/-- What holds of a run between two operations. -/
structure RunGuarded (asked : Bool) (s : Session) : Prop where
  watched : Watched asked s.ctx
  guarded : s.broken = false → Guarded asked s.smb2

theorem Guarded.aside (hg : Guarded asked s) (h : Aside s.ctx ctx') :
    Guarded asked { s with ctx := ctx' } where
  watched := hg.watched.aside h
  secure ho := (hg.secure (ho.of_prefix h.log.isPrefix)).aside hg.watched.isServer h
  attentive ho p hp := hg.attentive (ho.of_prefix h.log.isPrefix) p (h.pdu ▸ hp)

theorem RunGuarded.aside {s : Session} (hr : RunGuarded asked s) (h : Aside s.ctx ctx') :
    RunGuarded asked (s.setCtx ctx') :=
  ⟨hr.watched.aside h, fun hb => (hr.guarded hb).aside h⟩

/-- Once a request has timed out, nothing more is asked for. -/
theorem RunGuarded.lapsed {s : Session} {l : Lapse} (hw : Watched asked ctx)
    (hsv : ctx'.isServer = ctx.isServer) (hh : ctx'.server.handlers = ctx.server.handlers)
    (hp : ctx.log ++ [.lapsed l] <+: ctx'.log) : RunGuarded asked (s.setCtx ctx') := by
  have hlapsed : ∀ {log : List Event}, ctx.log ++ [.lapsed l] <+: log → ¬ Orderly log :=
    fun h ho => ho.unlapsed l (h.subset (List.mem_append_right _ List.mem_cons_self))
  have hquiet : LogonFirst asked (ctx.log ++ [.lapsed l]) := hw.gated.quiet (.push nofun)
  have hw' : Watched asked ctx' := ⟨hsv.trans hw.isServer, (establishes_congr hh).trans hw.asks,
    hquiet.disorderly hp (hlapsed (List.prefix_refl _))⟩
  exact ⟨hw', fun _ => ⟨hw', fun ho => absurd ho (hlapsed hp), fun ho => absurd ho (hlapsed hp)⟩⟩

theorem unlink_grown (ctx : Context) (q : Queue) (id : Nat) :
    (ctx.unlink q id).isServer = ctx.isServer ∧
      (ctx.unlink q id).server.handlers = ctx.server.handlers ∧
      ctx.log <+: (ctx.unlink q id).log := by
  cases q with
  | out => exact ⟨rfl, rfl, List.prefix_append _ _⟩
  | wait => exact ⟨rfl, rfl, List.prefix_append _ _⟩

/-- What times out grows the log, and leaves the application's handlers as they are. -/
theorem expire_grown (rx : Receiver) (q : Queue) (p : Pdu) (ctx : Context) :
    ((serverEndpoint L K).expire rx q p ctx).isServer = ctx.isServer ∧
      ((serverEndpoint L K).expire rx q p ctx).server.handlers = ctx.server.handlers ∧
      ctx.log <+: ((serverEndpoint L K).expire rx q p ctx).log := by
  unfold Endpoint.expire
  split
  · exact ⟨rfl, rfl, List.prefix_refl _⟩
  · obtain ⟨hsv, hh, hlog⟩ := unlink_grown ctx q p.id
    have ht : ServerTurn (ctx.unlink q p.id).server.establishes p.cb (ctx.unlink q p.id)
        ((serverEndpoint L K).lapse rx p STATUS_IO_TIMEOUT (ctx.unlink q p.id)) :=
      invokeServer_turn rx p STATUS_IO_TIMEOUT .null (ctx.unlink q p.id)
    simp only
    generalize (serverEndpoint L K).lapse rx p STATUS_IO_TIMEOUT (ctx.unlink q p.id) = d at ht ⊢
    split
    · have hfree : Aside d ((d.freePdu p.id).noteRelease false (p :: ctx.behind q p.id)) :=
        (freePdu_aside d p.id).trans (.of_same rfl rfl rfl rfl rfl rfl (.refl _))
      exact ⟨hfree.isServer.trans (ht.isServer.trans hsv),
        hfree.handlers.trans (ht.handlers.trans hh),
        (hlog.trans ht.grown).trans hfree.log.isPrefix⟩
    · exact ⟨ht.isServer.trans hsv, ht.handlers.trans hh, hlog.trans ht.grown⟩

theorem gate_timeoutRule (s : Session) (t : Nat) :
    Endpoint.TimeoutRule (serverEndpoint L K) s.smb2.rx t
      (fun ctx => RunGuarded asked (s.setCtx ctx)) where
  expired l hm _ _ _ _ _ := by
    obtain ⟨hsv, hh, hlog⟩ := expire_grown (L := L) (K := K) s.smb2.rx _ _ _
    exact .lapsed (l := l) hm.watched hsv hh hlog
  uncalled l hm := .lapsed (l := l) hm.watched rfl rfl (List.prefix_refl _)
  faults f hm := hm.aside (raise_aside _ f)

/-- **What an operation keeps.** -/
theorem runOp_guards {s : Session} (op : Op) (hr : RunGuarded asked s) (hf : s.ctx.fault = none) :
    RunGuarded asked ((serverEndpoint L K).runOp K s op) := by
  cases op with
  | act a => exact hr.aside (act_aside s.ctx a)
  | write => exact hr.aside (writeToSocket_aside s.ctx)
  | timeout =>
    have hctx : RunGuarded asked (s.setCtx s.ctx) := hr
    exact Endpoint.timeoutPdus_keeps (gate_timeoutRule s s.ctx.now) hctx hf
  | recv rs bs =>
    simp only [Endpoint.runOp]
    split
    · exact hr
    · rename_i hb
      have hread := (guard_rule asked L K).readFromSocket_ends rs bs s.smb2 {}
        (hr.guarded (by simpa using hb)) (Locals.sane_fresh _)
      show RunGuarded asked (.absorb (readFromSocket (serverHooks L K) K rs bs s.smb2 {}))
      generalize readFromSocket (serverHooks L K) K rs bs s.smb2 {} = o at hread
      cases o with
      | waiting s' rest => exact ⟨hread.watched, fun _ => hread⟩
      | failed e s' rest => exact ⟨hread, by simp [Session.absorb]⟩
      | faulted f s' rest => exact ⟨hread.raise f, by simp [Session.absorb]⟩

theorem allocatePdu_waitqueue (ctx : Context) (command : Command) (cb : Callback) :
    (ctx.allocatePdu command cb).2.waitqueue = ctx.waitqueue := by
  unfold Context.allocatePdu
  split <;> rfl

/-- A server that has taken a connection in expects the negotiation. -/
theorem serve_guarded {s : Session} (hb : Blank s) (hn : s.ctx.nextPdu = none)
    (ha : s.ctx.authData = none) (server : Server) :
    RunGuarded server.establishes (s.serve server) := by
  have halloc := allocatePdu_aside s.ctx .negotiate .negotiateRequestCb
  have hwait := allocatePdu_waitqueue s.ctx .negotiate .negotiateRequestCb
  have hfresh : ∀ q, (s.ctx.allocatePdu .negotiate .negotiateRequestCb).1 = some q →
      q.Fresh ∧ q.cb = .negotiateRequestCb := fun q hq => allocatePdu_fresh rfl hq
  unfold Session.serve
  extract_lets x y c d
  have hclose : Aside c d := by
    show Aside c (if x.1.isSome then c else c.closeContext)
    split
    · exact .refl _
    · exact closeContext_aside c
  have hdwait : d.waitqueue = [] := by
    have hsame : d.waitqueue = c.waitqueue := by
      show (if x.1.isSome then c else c.closeContext).waitqueue = c.waitqueue
      split <;> rfl
    rw [hsame]
    exact hwait.trans hb.waitqueue
  have hlog : Logged (fun e => e.aside = true) s.ctx.log d.log := halloc.log.trans hclose.log
  rw [hb.log] at hlog
  have hnone : d.nextPdu = none := hclose.nextPdu.trans (halloc.nextPdu.trans hn)
  have hauth : d.authData = none := hclose.authData.trans (halloc.authData.trans ha)
  have hpdu : ∀ p, d.pdu = some p → p.Fresh ∧ p.cb = .negotiateRequestCb := fun p hp =>
    hfresh p (hclose.pdu.symm.trans hp)
  have hw : Watched server.establishes { d with isServer := true, server := server } :=
    ⟨rfl, rfl, LogonFirst.nil.quiet (hlog.mono fun _ => Event.ne_handled_of_aside)⟩
  have hsec : Secure server.establishes { d with isServer := true, server := server } := {
    challenged := fun auth h => by cases hauth.symm.trans h
    current := fun p hp hg => by
      rw [(hpdu p hp).2] at hg
      cases hg
    next := fun q hq => by cases hnone.symm.trans hq
    past := by
      rintro (h | ⟨p, hp, hg⟩)
      · have hnil : d.waitqueue.map Pdu.cb = [] := by rw [hdwait, List.map_nil]
        have h' : Callback.generalClientRequestCb ∈ d.waitqueue.map Pdu.cb := h
        rw [hnil] at h'
        cases h'
      · rw [(hpdu p hp).2] at hg
        cases hg }
  exact ⟨hw, fun _ => ⟨hw, fun _ => hsec, fun _ => .of_fresh fun p hp => (hpdu p hp).1⟩⟩

/-- **No service without a logon.** -/
theorem runOps_gated (L : Library) (K : Crypto) {s : Session} (hb : Blank s)
    (hn : s.ctx.nextPdu = none) (ha : s.ctx.authData = none) (server : Server) (ops : List Op) :
    LogonFirst server.establishes ((serverEndpoint L K).runOps K (s.serve server) ops).ctx.log := by
  refine (Endpoint.runOps_keeps (J := RunGuarded server.establishes) ops _
    (serve_guarded hb hn ha server) ?_).watched.gated
  intro pre op post _ hj hf
  exact runOp_guards op hj hf

end

/-! ## A client logs on -/

/-- An NTLMSSP message of this type, without its fields. -/
def bareNtlmMessage (type : UInt8) : Bytes :=
  [0x4E, 0x54, 0x4C, 0x4D, 0x53, 0x53, 0x50, 0, type, 0, 0, 0] ++ zeros 12

/-- A library that offers dialect 3.0, takes the rest of a session setup for its token, and
believes every client. -/
def trustingLibrary : Library where
  decodeFixed _ rx _ p :=
    { ret := 0
      payload := match p.header.command with
        | .negotiate => .negotiateRequest { dialects := [VERSION_0300] }
        | .sessionSetup => .sessionSetupRequest { securityBuffer := rx.received.drop 68 }
        | command => .other command [] }
  decodeVariable _ _ _ _ := { ret := 0, payload := .null }
  unwrap buffer := some (buffer, false)
  wrap _ token := some token
  wrapResult _ := some []
  encodeNegotiate _ := []
  encodeChallenge _ := some []
  encodeAuth _ _ := none
  authenticateBlob _ _ :=
    { accepted := true, sessionKey := some (zeros KEY_SIZE), hasPassword := true }
  negotiateRequest _ _ := some []
  sessionSetupRequest _ _ := some []
  treeConnectRequest _ := some []
  negotiateReply _ _ := some []
  sessionSetupReply _ _ := some []
  reply _ _ := some []
  errorReply _ _ := some []
  freed _ _ := []

/-- The frame of a request with this message id. -/
def requestFrame (mid : Nat) (command : Command) (body : Bytes) : Bytes :=
  let hdr : Header := {
    protocolId := Header.smb2sign
    structSize := HEADER_SIZE
    command := command
    messageId := mid
    signature := zeros SIGNATURE_SIZE }
  [0, 0, 0, UInt8.ofNat (HEADER_SIZE + body.length)] ++ hdr.encode ++ body

/-- A request arrives in one piece, and what has been queued is written. -/
def exchangeOps (mid : Nat) (command : Command) (body : Bytes) : List Op :=
  [.recv (List.replicate 3 (.data 300)) (requestFrame mid command body), .write]

/-- A client negotiates, logs on, and connects to a tree. -/
def logonOps : List Op :=
  .act (.setTimeout 10) :: exchangeOps 0 .negotiate (zeros 36) ++
    exchangeOps 1 .sessionSetup (bareNtlmMessage 1) ++
    exchangeOps 2 .sessionSetup (bareNtlmMessage 3) ++ exchangeOps 3 .treeConnect (zeros 8)

/-- An application with a say in who logs on, that connects trees later. -/
def slowServer : Session :=
  Session.serve { smb2 := { ctx := { env := {
      tx := List.replicate 8 (.accept 300)
      answers := [{ ret := 0 }, { ret := 1 }] } } } }
    { handlers := some { commands := [.treeConnect], sessionEstablished := true } }

def slowLog (ops : List Op) : List Event :=
  ((serverEndpoint trustingLibrary echoCrypto).runOps echoCrypto slowServer ops).ctx.log

theorem tree_connect_after_logon :
    .handled .treeConnect ∈ slowLog logonOps ∧ .closed ∉ slowLog logonOps ∧
      LogonFirst true (slowLog logonOps) :=
  ⟨by decide +kernel, by decide +kernel,
    runOps_gated trustingLibrary echoCrypto (s := { smb2 := { ctx := { env := {
      tx := List.replicate 8 (.accept 300)
      answers := [{ ret := 0 }, { ret := 1 }] } } } })
      ⟨rfl, rfl, rfl, rfl, rfl, rfl, rfl, rfl⟩ rfl rfl
      { handlers := some { commands := [.treeConnect], sessionEstablished := true } } logonOps⟩

end Libsmb2
