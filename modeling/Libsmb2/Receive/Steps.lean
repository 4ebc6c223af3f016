import Libsmb2.Receive.Cases
import Mathlib.Logic.Relation

/-!
# What the receive path can do to a context

`CtxStep` lists every atomic change that `smb2_read_data` makes to the context outside its
own buffers, each with the guard under which the source makes it.

* `phase_steps` — a phase is a sequence of such steps;
* `phase_idle` — between messages a client has no current request.
-/

set_option autoImplicit false

namespace Libsmb2

open Util Relation

/-- The current request, if its caller has to free it, no longer waits. -/
def Apart (ctx : Context) : Prop :=
  ∀ p, ctx.pdu = some p → p.callerFrees = true → p.id ∉ ctx.waitqueue.map Pdu.id

/-- **The atomic changes of a context on the receive path.** -/
inductive CtxStep (h : Hooks) (I : Prop) : Context → Context → Prop
  | note (ctx : Context) (hdr : Header) : CtxStep h I ctx (noteHeader ctx hdr)
  | grant (ctx : Context) (hdr : Header) : CtxStep h I ctx (grantCredits ctx hdr)
  | adopt (ctx : Context) (p : Pdu) (hdr : Header) (hs : ctx.isServer = true)
      (hp : ctx.pdu = some p) : CtxStep h I ctx { ctx with pdu := some (adoptHeader p hdr) }
  | matched (ctx : Context) (hdr : Header) (hc : ctx.isServer = false)
      (hp : I → ctx.pdu = none) : CtxStep h I ctx (matchReply ctx hdr).ctx
  | decoded (ctx : Context) (p : Pdu) (d : Decoded) (hp : ctx.pdu = some p) :
      CtxStep h I ctx (applyDecoded ctx p d)
  | opened (ctx : Context) : CtxStep h I ctx (ctx.emit (.used .serverout ctx.serveroutKey))
  | replied (ctx : Context) (rx : Receiver) (p : Pdu) (hc : ctx.isServer = false)
      (hp : ctx.pdu = some p) (hcb : p.cb ≠ .none) (hst : rx.hdr.status ≠ STATUS_PENDING)
      (hap : I → Apart ctx) : CtxStep h I ctx (afterReply h rx p ctx)
  | served (ctx : Context) (rx : Receiver) (p : Pdu) (hs : ctx.isServer = true)
      (hp : ctx.pdu = some p) (hcb : p.cb ≠ .none) : CtxStep h I ctx (afterRequest h rx p ctx)
  | interim (ctx : Context) (rx : Receiver) (p : Pdu) (hpt : ctx.passthrough = true)
      (hf : ctx.findPdu rx.hdr.messageId = some p) (hcb : p.cb ≠ .none)
      (hn : I → ctx.isServer = false → ctx.pdu = none) :
      CtxStep h I ctx (h.invoke rx p rx.hdr.status ctx)

abbrev CtxSteps (h : Hooks) (I : Prop) : Context → Context → Prop := ReflTransGen (CtxStep h I)

variable {h : Hooks} {K : Crypto} {I : Prop}

/-- The machine is reading the body of a message that is not an interim reply. -/
structure InBody (rx : Receiver) : Prop where
  state : rx.state ∈ [RecvState.fixed, .variable, .pad]
  status : rx.hdr.status ≠ STATUS_PENDING
  started : rx.numDone ≠ 0

/-- Between messages a client has no current request: `smb2->pdu` is set while the body of
a reply is read, and only then, and the request has left the wait queue. -/
def Idle (s : Smb2) : Prop :=
  s.ctx.isServer = false → s.ctx.pdu = none ∨ (InBody s.rx ∧ Apart s.ctx)

variable {ctx ctx' : Context}

theorem Apart.of_none (hp : ctx.pdu = none) : Apart ctx := by
  intro p h
  rw [hp] at h
  cases h

variable {s s' : Smb2}

theorem Idle.apart (hi : Idle s) (hc : s.ctx.isServer = false) : Apart s.ctx := by
  rcases hi hc with hp | hb
  · exact .of_none hp
  · exact hb.2

theorem Idle.pdu_none (hi : Idle s) (hc : s.ctx.isServer = false)
    (hst : s.rx.state ∉ [RecvState.fixed, .variable, .pad]) : s.ctx.pdu = none := by
  rcases hi hc with hp | hb
  · exact hp
  · exact absurd hb.1.state hst

theorem Idle.not_pending {p : Pdu} (hi : Idle s) (hp : s.ctx.pdu = some p)
    (hc : s.ctx.isServer = false) : s.rx.hdr.status ≠ STATUS_PENDING := by
  rcases hi hc with hn | hb
  · rw [hp] at hn
    cases hn
  · exact hb.1.status

theorem Idle.of_none (hp : s.ctx.pdu = none) : Idle s := fun _ => .inl hp

/-- **All that the decoders change** in the context. -/
theorem applyEffects_eq (ctx : Context) (e : Effects) : ∃ sid sl ids cur,
    applyEffects ctx e =
      { ctx with sessionId := sid, sealing := sl, treeIds := ids, treeCur := cur } := by
  have hconn : ∀ (c : Context) (tid : Nat), ∃ ids cur,
      c.connectTreeId tid = { c with treeIds := ids, treeCur := cur } := by
    intro c tid
    unfold Context.connectTreeId
    split
    · exact ⟨_, _, rfl⟩
    · exact ⟨c.treeIds, c.treeCur, rfl⟩
  have hdis : ∀ (c : Context) (tid : Nat), ∃ ids cur,
      c.disconnectTreeId tid = { c with treeIds := ids, treeCur := cur } := by
    intro c tid
    unfold Context.disconnectTreeId
    split
    · exact ⟨_, _, rfl⟩
    · exact ⟨c.treeIds, c.treeCur, rfl⟩
  have htrees : ∀ (c : Context) (ct dt : Option Nat), ∃ ids cur,
      applyEffects c { connectTree := ct, disconnectTree := dt } =
        { c with treeIds := ids, treeCur := cur } := by
    intro c ct dt
    unfold applyEffects
    simp only [Bool.or_false]
    cases ct with
    | none =>
      cases dt with
      | none => exact ⟨c.treeIds, c.treeCur, rfl⟩
      | some t => exact hdis c t
    | some t =>
      obtain ⟨ids, cur, hcn⟩ := hconn c t
      simp only [hcn]
      cases dt with
      | none => exact ⟨ids, cur, rfl⟩
      | some t' => exact hdis { c with treeIds := ids, treeCur := cur } t'
  obtain ⟨osid, sl, ct, dt⟩ := e
  cases osid with
  | none =>
    obtain ⟨ids, cur, ht⟩ := htrees { ctx with sealing := ctx.sealing || sl } ct dt
    exact ⟨ctx.sessionId, ctx.sealing || sl, ids, cur, by
      simpa only [applyEffects, Bool.or_false] using ht⟩
  | some sid =>
    obtain ⟨ids, cur, ht⟩ := htrees
      { ctx with sessionId := sid, sealing := ctx.sealing || sl } ct dt
    exact ⟨sid, ctx.sealing || sl, ids, cur, by
      simpa only [applyEffects, Bool.or_false] using ht⟩

theorem applyEffects_isServer (ctx : Context) (e : Effects) :
    (applyEffects ctx e).isServer = ctx.isServer := by
  obtain ⟨_, _, _, _, he⟩ := applyEffects_eq ctx e
  rw [he]

theorem applyDecoded_isServer (ctx : Context) (p : Pdu) (d : Decoded) :
    (applyDecoded ctx p d).isServer = ctx.isServer := applyEffects_isServer ctx d.effects

theorem Apart.decoded (ha : Apart ctx) {p : Pdu} (hp : ctx.pdu = some p)
    (d : Decoded) : Apart (applyDecoded ctx p d) := by
  obtain ⟨_, _, _, _, he⟩ := applyEffects_eq ctx d.effects
  simp only [applyDecoded, he]
  rintro q ⟨rfl⟩
  exact ha p hp

theorem Completes.steps {off : Nat} {f : Flow} (hco : Completes h K off s f)
    (hap : I → s.ctx.isServer = false → Apart s.ctx)
    (hi : I → s.ctx.isServer = false →
      s.ctx.pdu = none ∨ s.rx.hdr.status ≠ STATUS_PENDING) :
    CtxSteps h I s.ctx f.smb2.ctx := by
  have hnone : s.rx.hdr.status = STATUS_PENDING → I → s.ctx.isServer = false →
      s.ctx.pdu = none := fun hst i hc => (hi i hc).resolve_right (fun hn => hn hst)
  cases hco with
  | dispatched p hp hcb hst hv =>
    have hstep : CtxStep h I s.ctx (dispatchedIn h s p).ctx := by
      unfold dispatchedIn
      simp only
      split
      · rename_i hs
        exact .served s.ctx s.rx p hs hp hcb
      · rename_i hs
        have hc : s.ctx.isServer = false := by simpa using hs
        exact .replied s.ctx s.rx p hc hp hcb hst (fun i => hap i hc)
    rcases endMember_cases (dispatchedIn h s p) with ⟨_, _, he⟩ | ⟨_, he | ⟨s', he, hs, _⟩ | he⟩
      <;> rw [he]
    · exact .single hstep
    · exact .single hstep
    · exact .single (hs.ctx.symm ▸ hstep)
    · exact .single hstep
  | shown p hpt hp hcb hst hf => exact .single (.interim s.ctx s.rx p hpt hp hcb (hnone hst))
  | broken p f hpt hp hcb hst hf => exact .single (.interim s.ctx s.rx p hpt hp hcb (hnone hst))
  | _ => exact .refl

theorem headedIn_steps (s : Smb2) (hdr : Header) : CtxSteps h I s.ctx (headedIn s hdr).ctx :=
  .head (.note s.ctx hdr) (.single (.grant _ hdr))

theorem headedIn_pdu (s : Smb2) (hdr : Header) : (headedIn s hdr).ctx.pdu = s.ctx.pdu :=
  (grantCredits_pdu _ hdr).trans (noteHeader_pdu s.ctx hdr)

theorem headedIn_isServer (s : Smb2) (hdr : Header) :
    (headedIn s hdr).ctx.isServer = s.ctx.isServer :=
  (grantCredits_isServer _ hdr).trans (noteHeader_isServer s.ctx hdr)

/-- A header of a reply has been looked up. -/
theorem matchedIn_steps {hdr : Header} {m : Match} (hc : s.ctx.isServer = false)
    (hp : I → s.ctx.pdu = none) (hm : matchReply (headedIn s hdr).ctx hdr = m) :
    CtxSteps h I s.ctx m.ctx :=
  (headedIn_steps s hdr).tail (hm ▸ .matched _ hdr ((headedIn_isServer s hdr).trans hc)
    (fun i => (headedIn_pdu s hdr).trans (hp i)))

theorem Decodes.current (hd : Decodes h s s') :
    ∃ p d, s.ctx.pdu = some p ∧ s'.ctx = applyDecoded s.ctx p d := by
  cases hd with
  | fixedPart p hp hst => exact ⟨p, _, hp, rfl⟩
  | variablePart p hp hst => exact ⟨p, _, hp, rfl⟩

/-- What is decoded belongs to the body of a message that is not an interim reply. -/
theorem Idle.decodes (hi : Idle s) (hd : Decodes h s s')
    (hc : s'.ctx.isServer = false) : s'.rx.hdr.status ≠ STATUS_PENDING ∧ Apart s'.ctx := by
  obtain ⟨p, d, hp, hctx⟩ := hd.current
  rw [hctx, applyDecoded_isServer] at hc
  rw [hctx, hd.frame.2.2]
  exact ⟨hi.not_pending hp hc, (hi.apart hc).decoded hp d⟩

/-- **A phase is a sequence of steps.** -/
theorem phase_steps (xfrm : Bool) (off : Nat) (s : Smb2) (hi : I → Idle s) :
    CtxSteps h I s.ctx (phase h K xfrm off s).smb2.ctx := by
  have hnone : s.rx.state = .header → s.ctx.isServer = false → I → s.ctx.pdu = none :=
    fun hst hc i => (hi i).pdu_none hc (by rw [hst]; decide)
  have hdoes := phase_does (h := h) (K := K) xfrm off s
  generalize phase h K xfrm off s = f at hdoes
  cases hdoes with
  | reads f hst hr => rw [hr.readsOn.ctx]
  | headed hdr f hst hr hp =>
    rw [hr.readsOn.ctx]
    exact headedIn_steps s hdr
  | flushed hdr hst hs => exact .single (.note s.ctx hdr)
  | unmatched hdr ctx hst hc hs hm =>
    have hsteps : CtxSteps h I s.ctx ctx := matchedIn_steps hc (hnone hst hc) hm
    unfold skipRest
    split
    · exact hsteps
    · rw [(expect_reads (List.mem_singleton.mpr rfl) _).readsOn.ctx]
      exact hsteps
  | outOfOrder hdr ctx hst hc hm => exact matchedIn_steps hc (hnone hst hc) hm
  | noMemory hdr ctx hst hc hm => exact matchedIn_steps hc (hnone hst hc) hm
  | found hdr ctx f hst hc hs hm hr =>
    rw [hr.readsOn.ctx]
    exact matchedIn_steps hc (hnone hst hc) hm
  | taken hdr p f hst hs hp hn hr =>
    rw [hr.readsOn.ctx]
    exact (headedIn_steps s hdr).tail (.adopt _ p hdr ((headedIn_isServer s hdr).trans hs)
      ((headedIn_pdu s hdr).trans hp))
  | decoded s' f hd hr =>
    obtain ⟨p, d, hp, hctx⟩ := hd.current
    rw [hr.readsOn.ctx, hctx]
    exact .single (.decoded s.ctx p d hp)
  | ended s' f hd he =>
    obtain ⟨p, d, hp, hctx⟩ := hd.current
    exact ReflTransGen.head (hctx ▸ .decoded s.ctx p d hp)
      (he.steps (fun i hc => ((hi i).decodes hd hc).2)
        (fun i hc => .inr ((hi i).decodes hd hc).1))
  | padded f hst he =>
    refine he.steps (fun i hc => (hi i).apart hc) ?_
    intro i hc
    exact (hi i hc).imp_right (fun hb => hb.1.status)
  | opened plain s' hst hctx hlog hhdr hs' henc =>
    show CtxSteps h I s.ctx s'.ctx
    rw [hctx]
    exact .single (.opened s.ctx)
  | _ => exact .refl

theorem smb1Negotiate_steps (stale : Bool) (hs : s.ctx.isServer = true) :
    CtxSteps h I s.ctx (smb1Negotiate h stale s).smb2.ctx := by
  unfold smb1Negotiate
  split
  · exact .refl
  · rename_i p hp
    split
    · exact .refl
    · split
      · exact .refl
      · rename_i hcb
        have hstep := CtxStep.served (h := h) (I := I) s.ctx { s.rx with numDone := 0 } p hs hp hcb
        simp only
        split <;> exact .single hstep

/-! ## Roles -/

theorem dropPdu_isServer (ctx : Context) : (dropPdu ctx).isServer = ctx.isServer := by
  unfold dropPdu
  split <;> rfl

theorem matchReply_isServer (ctx : Context) (hdr : Header) :
    (matchReply ctx hdr).ctx.isServer = ctx.isServer := by
  have hl := matchReply_lookup ctx hdr
  generalize matchReply ctx hdr = m at hl ⊢
  cases hl with
  | current p hu hp => rfl
  | noMemory hu hp => rfl
  | made p hu hp hid hown => rfl
  | _ => exact dropPdu_isServer ctx

theorem retirePdu_isServer (ctx : Context) (p : Pdu) :
    (ctx.retirePdu p).isServer = ctx.isServer := by
  unfold Context.retirePdu
  split
  · rfl
  · rfl

/-- A context keeps its role. -/
theorem CtxStep.isServer (hs : CtxStep h I ctx ctx') :
    ctx'.isServer = ctx.isServer := by
  cases hs with
  | note hdr => exact noteHeader_isServer ctx hdr
  | grant hdr => exact grantCredits_isServer ctx hdr
  | adopt p hdr hsv hp => rfl
  | matched hdr hc hp => exact matchReply_isServer ctx hdr
  | decoded p d hp => exact applyEffects_isServer ctx d.effects
  | opened => rfl
  | replied rx p hc hp hcb hst hap =>
    exact (retirePdu_isServer _ p).trans (h.invoke_isServer rx p rx.hdr.status ctx)
  | served rx p hsv hp hcb =>
    exact h.invoke_isServer rx p rx.hdr.status { ctx with waitqueue := ctx.waitqueue ++ [p] }
  | interim rx p hpt hf hcb hn => exact h.invoke_isServer rx p rx.hdr.status ctx

theorem CtxSteps.isServer (hs : CtxSteps h I ctx ctx') :
    ctx'.isServer = ctx.isServer := by
  induction hs with
  | refl => rfl
  | tail _ hstep ih => rw [hstep.isServer, ih]

/-! ## Between messages -/

/-- A phase goes on, and leaves a state with this property. -/
def Flow.Leaves (P : Smb2 → Prop) : Flow → Prop
  | .fail _ _ => True
  | .fault _ _ => True
  | f => P f.smb2

/-- A reply that matches nothing changes nothing, where no request is current. -/
theorem matchReply_unknown_eq {hdr : Header} (hp : ctx.pdu = none)
    (e : matchReply ctx hdr = .unknown ctx') : ctx' = ctx := by
  have hl := matchReply_lookup ctx hdr
  rw [e] at hl
  cases hl with
  | unknown hu hf => exact dropPdu_of_none hp

/-- The request of a reply has left the wait queue. -/
theorem matchReply_found_apart {hdr : Header} (hp : ctx.pdu = none)
    (e : matchReply ctx hdr = .found ctx') : Apart ctx' := by
  have hl := matchReply_lookup ctx hdr
  rw [e] at hl
  cases hl with
  | current p hu hp' => exact .of_none hp
  | made p hu hp hid hown =>
    rintro q ⟨rfl⟩ hfrees
    rw [hown] at hfrees
    cases hfrees
  | claimed p hu hf hprev =>
    rintro q ⟨rfl⟩ _ hmem
    obtain ⟨r, hr, hid⟩ := List.mem_map.mp hmem
    have hne := (List.mem_filter.mp hr).2
    simp [hid] at hne

/-- The machine reads on between two messages, or inside the body of one. -/
theorem Flow.Reads.idle {f : Flow} {states : List RecvState} (hf : f.Reads s states)
    (hi : s.ctx.isServer = false → s.ctx.pdu = none ∨
      (∀ st ∈ states, st ∈ [RecvState.fixed, .variable, .pad]) ∧
        s.rx.hdr.status ≠ STATUS_PENDING ∧ s.rx.numDone ≠ 0 ∧ Apart s.ctx) : f.Leaves Idle := by
  cases f with
  | more s' =>
    obtain ⟨hs, hst⟩ := hf
    intro hc
    rw [Flow.smb2, hs.ctx] at hc ⊢
    refine (hi hc).imp_right ?_
    rintro ⟨hbody, hstatus, hpos, hap⟩
    exact ⟨⟨hbody _ hst, hs.hdr ▸ hstatus, hs.numDone ▸ hpos⟩, hap⟩
  | fail e s' => trivial
  | _ => exact hf.elim

theorem Completes.idle {off : Nat} {f : Flow} (hco : Completes h K off s f)
    (hi : s.ctx.isServer = false → s.ctx.pdu = none ∨ s.rx.hdr.status ≠ STATUS_PENDING) :
    f.Leaves Idle := by
  -- only a message whose body was skipped can be pending
  have hnone : s.rx.hdr.status = STATUS_PENDING → s.ctx.isServer = false → s.ctx.pdu = none :=
    fun hst hc => (hi hc).resolve_right (fun hn => hn hst)
  cases hco with
  | dispatched p hp hcb hst hv =>
    have hleft : (dispatchedIn h s p).ctx.isServer = false → (dispatchedIn h s p).ctx.pdu = none := by
      unfold dispatchedIn
      simp only
      split
      · rename_i hs
        intro hc
        rw [(CtxStep.served (h := h) (I := True) s.ctx s.rx p hs hp hcb).isServer, hs] at hc
        cases hc
      · intro _
        rfl
    rcases endMember_cases (dispatchedIn h s p) with ⟨_, _, he⟩ | ⟨_, he | ⟨s', he, hs, _⟩ | he⟩
      <;> rw [he]
    · trivial
    · trivial
    · intro hc
      rw [Flow.smb2, hs.ctx] at hc ⊢
      exact .inl (hleft hc)
    · exact fun hc => .inl (hleft hc)
  | quiet hst => exact fun hc => .inl (hnone hst hc)
  | shown p hpt hp hcb hst hf =>
    intro hc
    have hc' : (h.invoke s.rx p s.rx.hdr.status s.ctx).isServer = false := hc
    rw [h.invoke_isServer] at hc'
    exact .inl ((h.invoke_pdu s.rx p s.rx.hdr.status s.ctx).trans (hnone hst hc'))
  | _ => trivial

/-- **The current request of a client comes and goes with the body of a reply.** -/
theorem phase_idle (xfrm : Bool) (off : Nat) (hpos : s.rx.numDone ≠ 0) (hi : Idle s) :
    (phase h K xfrm off s).Leaves Idle := by
  have hnone : s.rx.state ∉ [RecvState.fixed, .variable, .pad] → s.ctx.isServer = false →
      s.ctx.pdu = none := fun hst hc => hi.pdu_none hc hst
  have hdoes := phase_does (h := h) (K := K) xfrm off s
  generalize phase h K xfrm off s = f at hdoes
  cases hdoes with
  | reads f hst hr =>
    refine hr.idle (fun hc => .inl (hnone ?_ hc))
    intro hin
    simp only [List.mem_cons, List.not_mem_nil, or_false] at hst hin
    rcases hst with h | h <;> simp [h] at hin
  | headed hdr f hst hr hp =>
    refine hr.idle (fun hc => .inl ?_)
    rw [headedIn_isServer] at hc
    exact (headedIn_pdu s hdr).trans (hnone (by rw [hst]; decide) hc)
  | flushed hdr hst hs =>
    intro hc
    rw [Flow.smb2, noteHeader_isServer, hs] at hc
    cases hc
  | unmatched hdr ctx hst hc hs hm =>
    have hp := (headedIn_pdu s hdr).trans (hnone (by rw [hst]; decide) hc)
    have hctx := matchReply_unknown_eq hp hm
    unfold skipRest
    split
    · trivial
    · exact (expect_reads (List.mem_singleton.mpr rfl) _).idle (fun _ => .inl (hctx ▸ hp))
  | found hdr ctx f hst hc hs hm hr =>
    have hap := matchReply_found_apart
      ((headedIn_pdu s hdr).trans (hnone (by rw [hst]; decide) hc)) hm
    exact hr.idle (fun _ => .inr ⟨by simp, hs, hpos, hap⟩)
  | taken hdr p f hst hs hp hn hr =>
    refine hr.idle (fun hc => ?_)
    have hc' : (headedIn s hdr).ctx.isServer = false := hc
    rw [headedIn_isServer, hs] at hc'
    cases hc'
  | decoded s' f hd hr =>
    exact hr.idle (fun hc => .inr ⟨by simp, (hi.decodes hd hc).1, hd.frame.1.symm ▸ hpos,
      (hi.decodes hd hc).2⟩)
  | ended s' f hd he => exact he.idle (fun hc => .inr (hi.decodes hd hc).1)
  | padded f hst he => exact he.idle (fun hc => (hi hc).imp_right (fun hb => hb.1.status))
  | opened plain s' hst hctx hlog hhdr hs' henc =>
    intro hc
    rw [Flow.smb2, hctx] at hc ⊢
    exact .inl (hnone (by rw [hst]; decide) hc)
  | skipped hst => exact fun hc => .inl (hnone (by rw [hst]; decide) hc)
  | _ => trivial

/-! ## Between the phases -/

theorem start_ctx (s : Smb2) : (start s).ctx = s.ctx := by
  unfold start
  split <;> rfl

theorem Idle.store (hi : Idle s) (bs : Bytes) : Idle (store s bs) := by
  intro hc
  rcases hi hc with hp | ⟨hb, hap⟩
  · exact .inl hp
  · have := hb.started
    exact .inr ⟨⟨hb.state, hb.status, by simp [Libsmb2.store]; omega⟩, hap⟩

/-- A phase never ends before its first octet. -/
theorem store_done {bs : Bytes} (hlt : s.rx.numDone < s.rx.totalSize)
    (hge : ¬ (store s bs).rx.numDone < (store s bs).rx.totalSize) :
    (store s bs).rx.numDone ≠ 0 := by
  have htot : (store s bs).rx.totalSize = s.rx.totalSize := rfl
  omega

theorem Idle.start (hi : Idle s) : Idle (start s) := by
  unfold Libsmb2.start
  split
  · rename_i hn
    intro hc
    rcases hi hc with hp | hb
    · exact .inl hp
    · exact absurd hn hb.1.started
  · exact hi

theorem park_ctx (s : Smb2) (bs : Bytes) : (park s bs).smb2.ctx = s.ctx := by
  unfold park
  split <;> rfl

theorem gate_ready (hg : gate s = .ready) :
    s.rx.numDone < s.rx.totalSize ∧ s.ctx.connected = true := by
  unfold gate at hg
  split at hg
  · cases hg
  · rename_i hlt
    split at hg
    · rename_i hc
      exact ⟨by omega, hc⟩
    · split at hg <;> cases hg

/-- A flush is only pending on a server. -/
def Locals.Sane (l : Locals) (s : Smb2) : Prop := l.flushing = true → s.ctx.isServer = true

theorem Locals.sane_fresh (s : Smb2) : Locals.Sane {} s := by
  intro hf
  cases hf

/-- The role survives a phase, whatever the state it starts from. -/
theorem phase_isServer (xfrm : Bool) (off : Nat) (s : Smb2) :
    (phase h K xfrm off s).smb2.ctx.isServer = s.ctx.isServer :=
  (phase_steps (I := False) xfrm off s False.elim).isServer

theorem idle_of_server (hs : s.ctx.isServer = true) : Idle s := by
  intro hc
  rw [hs] at hc
  cases hc

end Libsmb2
