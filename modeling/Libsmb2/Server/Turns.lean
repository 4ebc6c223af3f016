import Libsmb2.Server.Runs

/-!
# Who is logged on

A server keeps the state of a session in the callback of the request that it expects next.  What
its log says about the session is `LoggedOn`; that no handler was called without is `LogonFirst`.

* `LogonFirst.quiet`, `LogonFirst.serving` — what may be added to a log;
* `commandCb_serving`, `negotiateRequestCb_expects` — the callbacks of the commands, and the
  negotiation;
* `sessionSetupRequestCb_leg` — a leg of the session setup;
* `invokeServer_turn` — the callback of whatever request is current.
-/

set_option autoImplicit false

namespace Libsmb2

open Util

/-! ## The log of a session -/

/-- An AUTHENTICATE message was accepted, against a challenge that had been issued before; since
then the application has agreed, if it has a say (`asked`), and there was no LOGOFF. -/
def LoggedOn (asked : Bool) (log : List Event) : Prop :=
  ∃ before after, log = before ++ .authenticated true :: after ∧ .challenged ∈ before ∧
    (asked = true → .established ∈ after) ∧ .loggedOff ∉ after

/-- The connection has not been closed, and no request has timed out. -/
structure Orderly (log : List Event) : Prop where
  unclosed : .closed ∉ log
  unlapsed : ∀ l, .lapsed l ∉ log

/-- A handler of a command was called only while a client was logged on. -/
def LogonFirst (asked : Bool) (log : List Event) : Prop :=
  ∀ pre command post, log = pre ++ .handled command :: post → Orderly pre → LoggedOn asked pre

section
variable {asked : Bool} {log log' : List Event}

theorem Orderly.of_prefix (h : Orderly log') (hp : log <+: log') : Orderly log :=
  ⟨fun hc => h.unclosed (hp.subset hc), fun l hl => h.unlapsed l (hp.subset hl)⟩

theorem LoggedOn.logged (h : LoggedOn asked log) (hl : Logged (fun e => e ≠ .loggedOff) log log') :
    LoggedOn asked log' := by
  obtain ⟨before, after, rfl, hc, he, hn⟩ := h
  obtain ⟨es, rfl, hes⟩ := hl
  refine ⟨before, after ++ es, by simp, hc, fun ha => List.mem_append_left _ (he ha), ?_⟩
  intro hm
  rcases List.mem_append.mp hm with hm | hm
  · exact hn hm
  · exact hes _ hm rfl

theorem LogonFirst.nil : LogonFirst asked [] := by
  intro pre command post h
  cases pre <;> cases h

/-- Handlers may be called while a client is logged on. -/
theorem LogonFirst.serving (h : LogonFirst asked log)
    (hl : Logged (fun e => e ≠ .loggedOff) log log')
    (hon : Orderly log → LoggedOn asked log) : LogonFirst asked log' := by
  obtain ⟨es, rfl, hes⟩ := hl
  intro pre command post hpre hst
  rcases append_split hpre with ⟨post', hold⟩ | ⟨es₁, es₂, rfl, rfl⟩
  · exact h pre command post' hold hst
  · exact (hon (hst.of_prefix (List.prefix_append _ _))).logged
      ⟨es₁, rfl, fun e he => hes e (List.mem_append_left _ he)⟩

/-- Where no handler is called, nothing is asked for. -/
theorem LogonFirst.quiet (h : LogonFirst asked log)
    (hl : Logged (fun e => ∀ c, e ≠ .handled c) log log') : LogonFirst asked log' := by
  obtain ⟨es, rfl, hes⟩ := hl
  intro pre command post hpre hst
  rcases append_split hpre with ⟨post', hold⟩ | ⟨es₁, es₂, rfl, rfl⟩
  · exact h pre command post' hold hst
  · exact absurd rfl (hes _ (List.mem_append_right _ List.mem_cons_self) command)

/-- Neither is when the connection has been closed, or a request has timed out. -/
theorem LogonFirst.disorderly (h : LogonFirst asked log) (hp : log <+: log') (hst : ¬ Orderly log) :
    LogonFirst asked log' := by
  obtain ⟨es, rfl⟩ := hp
  intro pre command post hpre hst'
  rcases append_split hpre with ⟨post', hold⟩ | ⟨es₁, es₂, rfl, rfl⟩
  · exact h pre command post' hold hst'
  · exact absurd (hst'.of_prefix (List.prefix_append _ _)) hst

end

/-! ## The callbacks of the commands -/

/-- What is beside the session, and the calls of handlers. -/
def Event.serving (e : Event) : Prop := e.aside = true ∨ ∃ command, e = .handled command

abbrev Serving : Context → Context → Prop := Undisturbed Event.serving

section
variable {K : Crypto} {L : Library} {ctx ctx' : Context}

theorem Event.serving.ne_loggedOff {e : Event} (h : e.serving) : e ≠ .loggedOff := by
  rintro rfl
  rcases h with h | ⟨c, h⟩
  · cases h
  · cases h

theorem Event.ne_handled_of_aside {e : Event} (h : e.aside = true) (c : Command) :
    e ≠ .handled c := by
  rintro rfl
  cases h

theorem Event.ne_loggedOff_of_aside {e : Event} (h : e.aside = true) : e ≠ .loggedOff := by
  rintro rfl
  cases h

theorem Undisturbed.serving (h : Aside ctx ctx') : Serving ctx ctx' := h.mono fun _ => .inl

theorem raise_aside (ctx : Context) (f : Fault) : Aside ctx (ctx.raise f) :=
  .of_same rfl rfl rfl rfl rfl rfl (.refl _)

theorem popMem_aside (ctx : Context) : Aside ctx ctx.popMem :=
  .of_same rfl rfl rfl rfl rfl rfl (.refl _)

theorem handle_serving (command : Command) (registered : Bool) (ctx : Context) :
    Serving ctx (handle K command registered ctx).2 := by
  unfold handle
  split
  · have hemit : Serving ctx (ctx.emit (.handled command)) :=
      .of_same rfl rfl rfl rfl rfl rfl (.push (.inr ⟨command, rfl⟩))
    exact hemit.trans (runHandler_aside _).serving
  · exact .refl _

/-- A reply is made without disturbing the session. -/
def Replies (reply : Answer → Context → Option Pdu × Context) : Prop :=
  ∀ a ctx, Aside ctx (reply a ctx).2

theorem chooseReply_aside (command : Command) {reply : Answer → Context → Option Pdu × Context}
    (hr : Replies reply) (x : Answer × Context) : Aside x.2 (chooseReply L command reply x).2 := by
  unfold chooseReply
  split
  · exact hr _ _
  · split
    · exact errorReply_aside _ _ _
    · exact .refl _

theorem respond_serving (command : Command) {reply : Answer → Context → Option Pdu × Context}
    (hr : Replies reply) (ctx : Context) : Serving ctx (respond L K command reply ctx) := by
  unfold respond
  simp only
  have hh := handle_serving (K := K) command (ctx.server.handles command) ctx
  split
  · exact hh.trans ((chooseReply_aside command hr _).trans (sendReply_aside _)).serving
  · exact hh

theorem plainReply_replies (command : Command) : Replies (plainReply L command) :=
  fun _ _ => newReply_aside _ _ _ _

theorem queryReply_replies (command : Command) (status : Nat) :
    Replies (queryReply L command status) := by
  intro a ctx
  unfold queryReply
  split
  · exact errorReply_aside _ _ _
  · exact plainReply_replies command a ctx

theorem connectTreeId_aside (ctx : Context) (tid : Nat) : Aside ctx (ctx.connectTreeId tid) := by
  unfold Context.connectTreeId
  split
  · exact .of_same rfl rfl rfl rfl rfl rfl (.refl _)
  · exact .refl _

theorem disconnectTreeId_aside (ctx : Context) (tid : Nat) :
    Aside ctx (ctx.disconnectTreeId tid) := by
  unfold Context.disconnectTreeId
  split
  · exact .of_same rfl rfl rfl rfl rfl rfl (.refl _)
  · exact .refl _

theorem treeConnectReply_replies : Replies (treeConnectReply L) := by
  intro a ctx
  have halloc := allocatePdu_aside ctx .treeConnect .none
  unfold treeConnectReply
  split
  · rename_i e
    rw [e] at halloc
    exact halloc
  · rename_i p d e
    rw [e] at halloc
    have hcount : Aside d { d with server := { d.server with
        treeCounter := (d.server.treeCounter + 1) % 2 ^ 32 } } :=
      .of_same rfl rfl rfl rfl rfl rfl (.refl _)
    exact halloc.trans (hcount.trans (connectTreeId_aside _ _))

theorem handleBreak_serving (size : Nat) (ctx : Context) :
    Serving ctx (handleBreak K size ctx).2 := by
  unfold handleBreak
  split
  · exact handle_serving _ _ _
  · split
    · exact handle_serving _ _ _
    · exact .refl _

/-- **The callback of a command** calls a handler at most, and leaves the session alone. -/
theorem commandCb_serving (rx : Receiver) (payload : Payload) (command : Command)
    (hc : command ≠ .logoff) (ctx : Context) :
    Serving ctx (commandCb L K rx payload command ctx) := by
  have hplain : ∀ c, Serving ctx (respond L K c (plainReply L c) ctx) := fun c =>
    respond_serving c (plainReply_replies c) ctx
  cases command with
  | logoff => exact absurd rfl hc
  | treeConnect => exact respond_serving _ treeConnectReply_replies ctx
  | treeDisconnect =>
    have hr := hplain .treeDisconnect
    show Serving ctx (treeDisconnectRequestCb L K rx.hdr.treeId ctx)
    unfold treeDisconnectRequestCb
    simp only
    split
    · exact hr.trans (disconnectTreeId_aside _ _).serving
    · exact hr
  | create =>
    show Serving ctx (createRequestCb L K payload ctx)
    unfold createRequestCb
    simp only
    refine (handle_serving (K := K) .create (ctx.server.handles .create) ctx).trans ?_
    split
    · have hr := chooseReply_aside (L := L) .create (plainReply_replies (L := L) .create)
        (handle K .create (ctx.server.handles .create) ctx)
      split
      · exact (hr.trans (raise_aside _ _)).serving
      · exact (hr.trans (sendReply_aside _)).serving
    · exact .refl _
  | oplockBreak =>
    show Serving ctx (oplockBreakRequestCb L K payload ctx)
    unfold oplockBreakRequestCb
    split
    · rename_i octets
      simp only
      refine (handleBreak_serving (K := K) (fromLe (slice octets 0 2)) ctx).trans ?_
      split
      · exact ((chooseReply_aside _ (plainReply_replies _) _).trans (sendReply_aside _)).serving
      · exact .refl _
    · exact (raise_aside _ _).serving
  | ioctl =>
    show Serving ctx (ioctlRequestCb L K payload ctx)
    unfold ioctlRequestCb
    split
    · split
      · exact ((plainReply_replies .ioctl {} ctx).trans (sendReply_aside _)).serving
      · exact hplain .ioctl
    · exact (raise_aside _ _).serving
  | cancel => exact respond_serving _ (fun _ _ => .refl _) ctx
  | queryDirectory =>
    show Serving ctx (queryDirectoryRequestCb L K payload ctx)
    unfold queryDirectoryRequestCb
    simp only
    refine (handle_serving (K := K) .queryDirectory (ctx.server.handles .queryDirectory)
      ctx).trans ?_
    split
    · have hr := chooseReply_aside (L := L) .queryDirectory
        (queryReply_replies (L := L) .queryDirectory STATUS_NO_MORE_FILES)
        (handle K .queryDirectory (ctx.server.handles .queryDirectory) ctx)
      split
      · exact (hr.trans (raise_aside _ _)).serving
      · exact (hr.trans (sendReply_aside _)).serving
    · exact .refl _
  | queryInfo =>
    show Serving ctx (queryInfoRequestCb L K payload ctx)
    unfold queryInfoRequestCb
    simp only
    refine (handle_serving (K := K) .queryInfo (ctx.server.handles .queryInfo) ctx).trans ?_
    split
    · split
      · exact (raise_aside _ _).serving
      · exact ((chooseReply_aside _ (queryReply_replies _ _) _).trans (sendReply_aside _)).serving
    · exact .refl _
  | close => exact hplain .close
  | flush => exact hplain .flush
  | read => exact hplain .read
  | write => exact hplain .write
  | lock => exact hplain .lock
  | echo => exact hplain .echo
  | changeNotify => exact hplain .changeNotify
  | setInfo => exact hplain .setInfo
  | _ => exact .refl _

/-! ## The request that is expected -/

/-- A change beside the session, after which the request that is expected is what it was, or none,
or a fresh one for one of these callbacks. -/
structure Expects (cbs : List Callback) (ctx ctx' : Context) : Prop where
  around : Around ctx ctx'
  next : ∀ q, ctx'.nextPdu = some q → ctx.nextPdu = some q ∨ q.Fresh ∧ q.cb ∈ cbs

theorem Undisturbed.expects (h : Aside ctx ctx') (cbs : List Callback) : Expects cbs ctx ctx' :=
  ⟨h.around, fun _ hq => .inl (h.nextPdu ▸ hq)⟩

variable {ctx₁ ctx'' : Context}

theorem Expects.trans {cbs : List Callback} (h₁ : Expects cbs ctx ctx')
    (h₂ : Expects cbs ctx' ctx'') : Expects cbs ctx ctx'' where
  around := h₁.around.trans h₂.around
  next q hq := by
    rcases h₂.next q hq with h | h
    · exact h₁.next q h
    · exact .inr h

theorem allocatePdu_fresh {command : Command} {cb : Callback} (ho : cb.opening = some command)
    {q : Pdu} (hq : (ctx.allocatePdu command cb).1 = some q) : q.Fresh ∧ q.cb = cb := by
  unfold Context.allocatePdu at hq
  split at hq
  · cases hq
    exact ⟨ho, rfl⟩
  · cases hq

theorem expectRequest_next {command : Command} {cb : Callback} (ho : cb.opening = some command)
    {q : Pdu} (hq : (expectRequest ctx command cb).nextPdu = some q) : q.Fresh ∧ q.cb = cb := by
  have hn : (expectRequest ctx command cb).nextPdu = (ctx.allocatePdu command cb).1 := by
    unfold expectRequest
    simp only
    split <;> rfl
  exact allocatePdu_fresh ho (hn ▸ hq)

theorem expectRequest_around (ctx : Context) (command : Command) (cb : Callback) :
    Around ctx (expectRequest ctx command cb) := by
  have halloc := (allocatePdu_aside ctx command cb).around.trans
    (.set _ (ctx.allocatePdu command cb).1)
  unfold expectRequest
  simp only
  split
  · exact halloc
  · exact halloc.trans (closeContext_aside _).around

theorem expectRequest_expects {command : Command} {cb : Callback} {cbs : List Callback}
    (ho : cb.opening = some command) (hm : cb ∈ cbs) (ctx : Context) :
    Expects cbs ctx (expectRequest ctx command cb) where
  around := expectRequest_around ctx command cb
  next q hq := by
    obtain ⟨hfresh, rfl⟩ := expectRequest_next ho hq
    exact .inr ⟨hfresh, hm⟩

/-! ## Negotiation -/

/-- What a negotiate request may be followed by. -/
abbrev afterNegotiate : List Callback := [.negotiateRequestCb, .sessionSetupRequestCb]

theorem replyNegotiate_expects (ctx : Context) (smb1 : Bool) :
    Expects afterNegotiate ctx (replyNegotiate L K ctx smb1) := by
  unfold replyNegotiate
  simp only
  generalize (if ctx.server.signingEnabled then NEGOTIATE_SIGNING_ENABLED else 0) |||
    (if ctx.sign then NEGOTIATE_SIGNING_REQUIRED else 0) = mode
  generalize L.negotiateReply _ _ = body
  have hmode : Aside ctx { ctx with securityMode := mode } :=
    .of_same rfl rfl rfl rfl rfl rfl (.refl _)
  have hnew := hmode.trans (newReply_aside { ctx with securityMode := mode } .negotiate
    STATUS_SUCCESS body)
  generalize newReply { ctx with securityMode := mode } .negotiate STATUS_SUCCESS body = x at hnew
  obtain ⟨q, d⟩ := x
  cases q with
  | none => exact hnew.expects _
  | some p =>
    have hsent := hnew.trans (replyAndHash_aside (L := L) (K := K) d p)
    simp only
    split
    · split
      · exact (hsent.expects _).trans (expectRequest_expects rfl (by simp) _)
      · exact (hsent.expects _).trans (expectRequest_expects rfl (by simp) _)
    · exact hsent.expects _

theorem negotiateAgain_expects (ctx : Context) :
    Expects afterNegotiate ctx (negotiateAgain L K ctx) := by
  unfold negotiateAgain
  simp only
  exact (expectRequest_expects rfl (by simp) ctx).trans
    (((errorReply_aside _ _ _).trans (sendReply_aside _)).expects _)

/-- **A negotiation** is beside the session, and is followed by another one or by its setup. -/
theorem negotiateRequestCb_expects (rx : Receiver) (status : Nat) (payload : Payload)
    (ctx : Context) :
    Expects afterNegotiate ctx (negotiateRequestCb L K rx status payload ctx) := by
  have hreply : ∀ {d d' : Context} (smb1 : Bool), Aside d d' →
      Expects afterNegotiate d (replyNegotiate L K d' smb1) := fun smb1 h =>
    (h.expects _).trans (replyNegotiate_expects _ smb1)
  have hclose : ∀ {d d' : Context}, Aside d d' → Expects afterNegotiate d d'.closeContext :=
    fun h => (h.trans (closeContext_aside _)).expects _
  have hcredits : Aside ctx { ctx with credits := 128 } :=
    .of_same rfl rfl rfl rfl rfl rfl (.refl _)
  unfold negotiateRequestCb
  simp only
  split
  · exact (Undisturbed.refl ctx).expects _
  · refine (hcredits.expects _).trans ?_
    split
    · exact hreply _ (.of_same rfl rfl rfl rfl rfl rfl (.refl _))
    · split
      · exact negotiateAgain_expects _
      · split
        · exact hclose (.of_same rfl rfl rfl rfl rfl rfl (.refl _))
        · split
          · exact hclose (.of_same rfl rfl rfl rfl rfl rfl (.refl _))
          · split
            · exact hreply _ (.of_same rfl rfl rfl rfl rfl rfl (.refl _))
            · split
              · split
                · exact hreply _ (.of_same rfl rfl rfl rfl rfl rfl (.refl _))
                · exact hclose (.of_same rfl rfl rfl rfl rfl rfl (.refl _))
              · exact hreply _ (.of_same rfl rfl rfl rfl rfl rfl (.refl _))
    · exact (raise_aside _ _).expects _

/-! ## Session setup -/

/-- What a session setup may log: no handler of a command is called, and no session ends. -/
structure Event.Setup (e : Event) : Prop where
  logon : e ≠ .loggedOff
  unhandled : ∀ c, e ≠ .handled c

theorem Event.setup_of_aside {e : Event} (h : e.aside = true) : e.Setup :=
  ⟨ne_loggedOff_of_aside h, ne_handled_of_aside h⟩

theorem Undisturbed.setup (h : Aside ctx ctx') : Undisturbed Event.Setup ctx ctx' :=
  h.mono fun _ => Event.setup_of_aside

/-- The end of a session setup: the application agrees, or the connection is closed. -/
def Concludes (ctx ctx' : Context) : Prop :=
  ctx'.fault = none → ∃ es, ctx'.log = ctx.log ++ es ∧ (.closed ∈ es ∨ .established ∈ es)

theorem Concludes.after (hl : ctx₁.log <+: ctx.log) (h : Concludes ctx ctx') :
    Concludes ctx₁ ctx' := by
  intro hf
  obtain ⟨es, hlog, hes⟩ := h hf
  obtain ⟨es₁, hes₁⟩ := hl
  refine ⟨es₁ ++ es, by rw [hlog, ← hes₁, List.append_assoc], ?_⟩
  rcases hes with h | h
  · exact .inl (List.mem_append_right _ h)
  · exact .inr (List.mem_append_right _ h)

theorem closeContext_concludes (hl : ctx.log <+: ctx'.log) : Concludes ctx ctx'.closeContext :=
  Concludes.after hl fun _ => ⟨[.closed], rfl, .inl List.mem_cons_self⟩

theorem completeSetup_aside (ctx : Context) (p : Pdu) : Aside ctx (completeSetup L K ctx p) := by
  unfold completeSetup
  split
  · exact closeContext_aside ctx
  · exact replyAndHash_aside ctx p

theorem establishSession_setup (ctx : Context) (p : Pdu) :
    Undisturbed Event.Setup ctx (establishSession L K ctx p) := by
  unfold establishSession
  split
  · have hrun := runHandler_aside (K := K) ctx
    simp only
    split
    · split
      · have hemit : Undisturbed Event.Setup (runHandler K ctx).2
            ((runHandler K ctx).2.emit .established) :=
          .of_same rfl rfl rfl rfl rfl rfl (.push ⟨nofun, nofun⟩)
        exact hrun.setup.trans (hemit.trans (completeSetup_aside _ p).setup)
      · exact (hrun.trans (closeContext_aside _)).setup
    · exact hrun.setup
  · have herr := errorReply_aside (L := L) ctx .sessionSetup STATUS_NOT_IMPLEMENTED
    generalize errorReply L ctx .sessionSetup STATUS_NOT_IMPLEMENTED = x at herr
    obtain ⟨q, d⟩ := x
    cases q with
    | none =>
      simp only
      split
      · exact (herr.trans (closeContext_aside _)).setup
      · exact (herr.trans (raise_aside _ _)).setup
    | some q => exact (herr.trans (completeSetup_aside _ q)).setup

theorem establishSession_concludes (hasks : ctx.server.establishes = true) (p : Pdu) :
    Concludes ctx (establishSession L K ctx p) := by
  have hrun := (runHandler_aside (K := K) ctx).log.isPrefix
  intro hf
  unfold establishSession at hf ⊢
  rw [if_pos hasks] at hf ⊢
  simp only at hf ⊢
  split at hf
  · rename_i hnone
    rw [if_pos hnone]
    split at hf
    · rename_i hret
      rw [if_pos hret]
      obtain ⟨es, hes, -⟩ := (completeSetup_aside (L := L) (K := K)
        ((runHandler K ctx).2.emit .established) p).log
      exact Concludes.after hrun (fun _ => ⟨.established :: es, by
        rw [hes]
        simp [Context.emit], .inr List.mem_cons_self⟩) hf
    · rename_i hret
      rw [if_neg hret]
      exact closeContext_concludes hrun hf
  · rename_i hsome
    exact absurd hf hsome

theorem answerSetup_setup (ctx : Context) (refusal : Option Pdu) (more : Bool) (token : Bytes) :
    Undisturbed Event.Setup ctx (answerSetup L K ctx refusal more token) := by
  cases refusal with
  | some p => exact (completeSetup_aside ctx p).setup
  | none =>
    unfold answerSetup
    simp only
    have hnew := newReply_aside ctx .sessionSetup
      (if more then STATUS_MORE_PROCESSING_REQUIRED else STATUS_SUCCESS)
      (L.sessionSetupReply ctx token)
    split
    · rename_i d e
      rw [e] at hnew
      exact (hnew.trans (closeContext_aside _)).setup
    · rename_i p d e
      rw [e] at hnew
      split
      · exact (hnew.trans (completeSetup_aside _ p)).setup
      · exact hnew.setup.trans (establishSession_setup _ p)

/-- Who asks for the session is asked of the handlers only. -/
theorem establishes_congr {s s' : Server} (h : s'.handlers = s.handlers) :
    s'.establishes = s.establishes := by
  unfold Server.establishes
  rw [h]

theorem answerSetup_concludes (hasks : ctx.server.establishes = true) (token : Bytes) :
    Concludes ctx (answerSetup L K ctx none false token) := by
  have hnew := newReply_aside ctx .sessionSetup STATUS_SUCCESS (L.sessionSetupReply ctx token)
  unfold answerSetup
  simp only [Bool.false_eq_true, if_false]
  split
  · rename_i d e
    rw [e] at hnew
    exact closeContext_concludes hnew.log.isPrefix
  · rename_i p d e
    rw [e] at hnew
    exact (establishSession_concludes ((establishes_congr hnew.handlers).trans hasks) p).after
      hnew.log.isPrefix

theorem finishLeg_setup (ctx : Context) (refusal : Option Pdu) (more valid : Bool)
    (token : Bytes) : Undisturbed Event.Setup ctx (finishLeg L K ctx refusal more valid token) := by
  unfold finishLeg
  simp only
  generalize (⟨ctx.sign, ctx.sealing, ctx.dialect,
    if valid && !more then some ctx.sessionKey else none⟩ : Setup) = setup
  have hset : Aside ctx (ctx.emit (.setUp setup)) := emit_aside ctx rfl
  split
  · exact (hset.trans ((closeContext_aside _).trans (closeContext_aside _))).setup
  · split
    · exact (hset.trans (createSigningKey_aside _)).setup.trans (answerSetup_setup _ _ _ _)
    · exact hset.setup.trans (answerSetup_setup _ _ _ _)

theorem finishLeg_concludes (hasks : ctx.server.establishes = true) (valid : Bool)
    (token : Bytes) : Concludes ctx (finishLeg L K ctx none false valid token) := by
  unfold finishLeg
  simp only
  generalize (⟨ctx.sign, ctx.sealing, ctx.dialect,
    if valid && !false then some ctx.sessionKey else none⟩ : Setup) = setup
  have hset : Aside ctx (ctx.emit (.setUp setup)) := emit_aside ctx rfl
  split
  · exact closeContext_concludes (hset.trans (closeContext_aside _)).log.isPrefix
  · split
    · have hkey := hset.trans (createSigningKey_aside (K := K) (ctx.emit (.setUp setup)))
      exact (answerSetup_concludes ((establishes_congr hkey.handlers).trans hasks) token).after
        hkey.log.isPrefix
    · exact (answerSetup_concludes ((establishes_congr hset.handlers).trans hasks) token).after
        hset.log.isPrefix

/-! ## Legs of a session setup -/

/-- The challenge that an AUTHENTICATE message is to answer has been issued. -/
def Challenged (ctx : Context) : Prop :=
  ∀ auth, ctx.authData = some auth → auth.challenged = true ∧ .challenged ∈ ctx.log

/-- A callback has come to its end, and the connection has not been closed. -/
structure Ended (ctx : Context) : Prop where
  sound : ctx.fault = none
  unclosed : .closed ∉ ctx.log

/-- A change that is confined to the request that is expected and to the exchange of tokens. -/
def Beside (ctx ctx' : Context) : Prop :=
  Undisturbed Event.Setup { ctx with nextPdu := ctx'.nextPdu, authData := ctx'.authData } ctx'

theorem Undisturbed.reset {P : Event → Prop} (h : Undisturbed P ctx ctx') (n : Option Pdu)
    (a : Option AuthData) : Undisturbed P { ctx with nextPdu := n, authData := a }
      { ctx' with nextPdu := n, authData := a } :=
  ⟨h.isServer, h.pdu, rfl, rfl, h.handlers, h.wait, h.log⟩

theorem Undisturbed.beside (h : Undisturbed Event.Setup ctx ctx') : Beside ctx ctx' :=
  h.reset ctx'.nextPdu ctx'.authData

theorem Beside.trans (h₁ : Beside ctx ctx') (h₂ : Beside ctx' ctx'') :
    Beside ctx ctx'' :=
  (Undisturbed.reset h₁ ctx''.nextPdu ctx''.authData).trans h₂

theorem Beside.set (ctx : Context) (n : Option Pdu) (a : Option AuthData) :
    Beside ctx { ctx with nextPdu := n, authData := a } :=
  .refl _

theorem Around.beside (h : Around ctx ctx') : Beside ctx ctx' :=
  (Beside.set ctx ctx'.nextPdu ctx.authData).trans (Undisturbed.setup h).beside

/-- What a leg of a session setup leaves behind. -/
structure Leg (ctx ctx' : Context) : Prop where
  rest : Beside ctx ctx'
  challenged : Challenged ctx → Ended ctx' → Challenged ctx'
  next : ∀ q, ctx'.nextPdu = some q → ctx.nextPdu = some q ∨ q.Fresh ∧
    (q.cb = .sessionSetupRequestCb ∨ q.cb = .generalClientRequestCb ∧
      (Challenged ctx → Ended ctx' → LoggedOn ctx.server.establishes ctx'.log))

theorem Undisturbed.challenged {P : Event → Prop} (h : Undisturbed P ctx ctx')
    (hc : Challenged ctx) : Challenged ctx' := by
  intro auth ha
  obtain ⟨hch, hlog⟩ := hc auth (h.authData ▸ ha)
  exact ⟨hch, h.log.subset hlog⟩

/-- Where the session setup is given up, or left alone. -/
theorem Undisturbed.leg (h : Undisturbed Event.Setup ctx ctx') : Leg ctx ctx' :=
  ⟨h.beside, fun hc _ => h.challenged hc, fun _ hq => .inl (h.nextPdu ▸ hq)⟩

/-- What comes before a leg does not disturb it. -/
theorem Leg.after (h : Leg ctx ctx') (h₁ : Undisturbed Event.Setup ctx₁ ctx) :
    Leg ctx₁ ctx' where
  rest := h₁.beside.trans h.rest
  challenged hc he := h.challenged (h₁.challenged hc) he
  next q hq := by
    rcases h.next q hq with hold | ⟨hfresh, hcb | ⟨hcb, hon⟩⟩
    · exact .inl (h₁.nextPdu ▸ hold)
    · exact .inr ⟨hfresh, .inl hcb⟩
    · refine .inr ⟨hfresh, .inr ⟨hcb, fun hch he => ?_⟩⟩
      rw [← establishes_congr h₁.handlers]
      exact hon (h₁.challenged hch) he

theorem not_ended_closeContext (ctx : Context) : ¬ Ended ctx.closeContext :=
  fun h => h.unclosed (List.mem_append_right _ List.mem_cons_self)

/-- A leg that has closed the connection. -/
theorem Leg.of_closed (h : Beside ctx ctx₁)
    (hn : ∀ q, ctx₁.nextPdu = some q → ctx.nextPdu = some q ∨ q.Fresh ∧
      (q.cb = .sessionSetupRequestCb ∨ q.cb = .generalClientRequestCb)) :
    Leg ctx ctx₁.closeContext where
  rest := h.trans (closeContext_aside ctx₁).setup.beside
  challenged _ he := absurd he (not_ended_closeContext ctx₁)
  next q hq := by
    rcases hn q hq with hold | ⟨hfresh, hcb | hcb⟩
    · exact .inl hold
    · exact .inr ⟨hfresh, .inl hcb⟩
    · exact .inr ⟨hfresh, .inr ⟨hcb, fun _ he => absurd he (not_ended_closeContext ctx₁)⟩⟩

/-- The request that is allocated at the beginning of a leg. -/
theorem expecting_around (ctx : Context) (command : Command) (cb : Callback) :
    Around ctx { (ctx.allocatePdu command cb).2 with
      nextPdu := (ctx.allocatePdu command cb).1 } :=
  (allocatePdu_aside ctx command cb).around.trans (.set _ _)

/-- A message was looked at, which was wrapped or not. -/
def AuthData.noted (auth : AuthData) (wrapped : Bool) : AuthData :=
  { auth with spnegoWrap := auth.spnegoWrap || wrapped }

/-- A challenge was issued. -/
def AuthData.issued (auth : AuthData) : AuthData := { auth with challenged := true }

theorem serverBlob_negotiate {auth : AuthData} {buffer msg : Bytes} {wrapped : Bool}
    (ht : ntlmsspGetMessageType L buffer = some (NEGOTIATE_MESSAGE, msg, wrapped)) :
    serverBlob L ctx auth buffer =
      match L.encodeChallenge ctx with
      | none => (none, { ctx with authData := some (auth.noted wrapped) })
      | some token =>
        (finishBlob L (auth.noted wrapped).issued CHALLENGE_MESSAGE token,
          { ctx with authData := some (auth.noted wrapped).issued }.emit .challenged) := by
  unfold serverBlob
  simp only [ht, if_true]
  cases L.encodeChallenge ctx <;> rfl

/-- **A challenge is issued**, and another session setup is expected. -/
theorem challengeLeg_leg {buffer msg : Bytes} {wrapped : Bool}
    (ht : ntlmsspGetMessageType L buffer = some (NEGOTIATE_MESSAGE, msg, wrapped)) :
    Leg ctx (challengeLeg L K ctx buffer) := by
  have hblank : ∀ auth, Beside ctx { ctx.popMem with authData := auth } := fun auth =>
    (popMem_aside ctx).setup.beside.trans (Beside.set _ ctx.nextPdu auth)
  unfold challengeLeg
  split
  · simp only
    generalize hd : ({ ctx.popMem with authData := some {} } : Context) = d
    have halloc : Beside ctx d := hd ▸ hblank _
    have hfresh : ∀ q, (d.allocatePdu .sessionSetup .sessionSetupRequestCb).1 = some q →
        q.Fresh ∧ q.cb = .sessionSetupRequestCb := fun q hq => allocatePdu_fresh rfl hq
    replace halloc := halloc.trans (expecting_around d .sessionSetup .sessionSetupRequestCb).beside
    generalize d.allocatePdu .sessionSetup .sessionSetupRequestCb = x at halloc hfresh
    have hcount : Beside ctx { x.2 with
        nextPdu := x.1
        sessionId := x.2.server.sessionCounter
        server := { x.2.server with
          sessionCounter := (x.2.server.sessionCounter + 1) % 2 ^ 64 } } :=
      halloc.trans (Undisturbed.beside (.of_same rfl rfl rfl rfl rfl rfl (.refl _)))
    rw [serverBlob_negotiate ht]
    cases L.encodeChallenge _ with
    | none =>
      exact .of_closed (hcount.trans (Beside.set _ _ _)) fun q hq =>
        .inr ⟨(hfresh q hq).1, .inl (hfresh q hq).2⟩
    | some token =>
      dsimp only
      generalize finishBlob L (({} : AuthData).noted wrapped).issued CHALLENGE_MESSAGE token = blob
      have hissued := hcount.trans ((Beside.set _ x.1
        (some (({} : AuthData).noted wrapped).issued)).trans
        (emit_aside _ (e := .challenged) rfl).setup.beside)
      cases blob with
      | none =>
        exact .of_closed hissued fun q hq => .inr ⟨(hfresh q hq).1, .inl (hfresh q hq).2⟩
      | some token' =>
        refine ⟨hissued.trans (finishLeg_setup _ _ _ _ _).beside, fun _ _ => ?_, fun q hq => ?_⟩
        · refine (finishLeg_setup _ _ _ _ _).challenged ?_
          rintro auth ⟨⟩
          exact ⟨rfl, List.mem_append_right _ List.mem_cons_self⟩
        · have hq' := hfresh q ((finishLeg_setup _ _ _ _ _).nextPdu.symm.trans hq)
          exact .inr ⟨hq'.1, .inl hq'.2⟩
  · exact .of_closed (hblank none) fun q hq => .inl hq

/-- The server has looked at an AUTHENTICATE message. -/
def AuthData.judged (auth : AuthData) (a : Authentication) : AuthData :=
  { auth with
    isAuthenticated := a.accepted
    exportedSessionKey := a.sessionKey.getD auth.exportedSessionKey }

def Context.judge (ctx : Context) (auth : AuthData) (a : Authentication) : Context :=
  let ctx := { ctx with authData := some (auth.judged a), hasPassword := a.hasPassword }
  if a.accepted then ctx.emit (.authenticated auth.challenged) else ctx

theorem judge_authData (ctx : Context) (auth : AuthData) (a : Authentication) :
    (ctx.judge auth a).authData = some (auth.judged a) := by
  unfold Context.judge
  simp only
  split <;> rfl

theorem judge_nextPdu (ctx : Context) (auth : AuthData) (a : Authentication) :
    (ctx.judge auth a).nextPdu = ctx.nextPdu := by
  unfold Context.judge
  simp only
  split <;> rfl

theorem judge_accepted (ctx : Context) {a : Authentication} (ha : a.accepted = true)
    (auth : AuthData) :
    (ctx.judge auth a).log = ctx.log ++ [.authenticated auth.challenged] := by
  unfold Context.judge
  simp only
  rw [if_pos ha]
  rfl

theorem judge_beside (ctx : Context) (auth : AuthData) (a : Authentication) :
    Beside ctx (ctx.judge auth a) := by
  have hset : Beside ctx { ctx with
      authData := some (auth.judged a), hasPassword := a.hasPassword } :=
    (Beside.set ctx ctx.nextPdu (some (auth.judged a))).trans
      (Undisturbed.beside (.of_same rfl rfl rfl rfl rfl rfl (.refl _)))
  unfold Context.judge
  simp only
  split
  · exact hset.trans (Undisturbed.beside
      (.of_same rfl rfl rfl rfl rfl rfl (.push ⟨nofun, nofun⟩)))
  · exact hset

theorem serverBlob_authenticate {auth : AuthData} {buffer msg : Bytes} {wrapped : Bool}
    (ht : ntlmsspGetMessageType L buffer = some (AUTHENTICATION_MESSAGE, msg, wrapped)) :
    serverBlob L ctx auth buffer =
      (if (auth.noted wrapped).spnegoWrap then L.wrapResult (L.authenticateBlob ctx msg).accepted
        else some [],
        ctx.judge (auth.noted wrapped) (L.authenticateBlob ctx msg)) := by
  have hne : AUTHENTICATION_MESSAGE ≠ NEGOTIATE_MESSAGE := by decide
  unfold serverBlob
  simp only [ht, if_neg hne, if_true]
  rfl

theorem getSessionKey_aside (ctx : Context) : Aside ctx (getSessionKey ctx).1 := by
  unfold getSessionKey
  split
  · exact .refl _
  · split
    · exact (popMem_aside ctx).trans (.of_same rfl rfl rfl rfl rfl rfl (.refl _))
    · exact popMem_aside ctx

/-- After a refusal the next request is a session setup. -/
theorem refuseLogon_around (ctx : Context) : Around ctx (refuseLogon L ctx).2 := by
  have herr := errorReply_aside (L := L) ctx .sessionSetup STATUS_LOGON_FAILURE
  unfold refuseLogon
  simp only
  split
  · exact (herr.trans (raise_aside _ _)).around
  · exact herr.around.trans (expecting_around _ _ _)

theorem refuseLogon_next {q : Pdu} (hq : (refuseLogon L ctx).2.nextPdu = some q) :
    q.Fresh ∧ q.cb = .sessionSetupRequestCb := by
  unfold refuseLogon at hq
  simp only at hq
  split at hq
  · rename_i hnone
    cases hnone.symm.trans hq
  · exact allocatePdu_fresh rfl hq

/-- A leg that comes to its end and has been accepted is a logon. -/
theorem finishLeg_loggedOn {log : List Event} {d : Context} {asked valid : Bool} {token : Bytes}
    (hask : d.server.establishes = asked) (hch : .challenged ∈ log)
    (hlog : Logged Event.Setup (log ++ [.authenticated true]) d.log)
    (he : Ended (finishLeg L K d none false valid token)) :
    LoggedOn asked (finishLeg L K d none false valid token).log := by
  obtain ⟨es, hes, hsetup⟩ := hlog
  obtain ⟨es', hes', hsetup'⟩ := (finishLeg_setup (L := L) (K := K) d none false valid token).log
  refine ⟨log, es ++ es', by rw [hes', hes]; simp, hch, ?_, ?_⟩
  · rintro rfl
    obtain ⟨es'', hes'', hend⟩ := finishLeg_concludes (L := L) (K := K) hask valid token he.sound
    obtain rfl : es' = es'' := List.append_cancel_left (hes'.symm.trans hes'')
    rcases hend with hend | hend
    · refine absurd ?_ he.unclosed
      rw [hes']
      exact List.mem_append_right _ hend
    · exact List.mem_append_right _ hend
  · intro hm
    rcases List.mem_append.mp hm with hm | hm
    · exact (hsetup _ hm).logon rfl
    · exact (hsetup' _ hm).logon rfl

/-- **An AUTHENTICATE message** is followed by requests of any kind if it is accepted, and by
another session setup if not. -/
theorem authenticateLeg_leg {buffer msg : Bytes} {wrapped : Bool}
    (ht : ntlmsspGetMessageType L buffer = some (AUTHENTICATION_MESSAGE, msg, wrapped)) :
    Leg ctx (authenticateLeg L K ctx buffer) := by
  unfold authenticateLeg
  extract_lets x y d
  have hexp : Beside ctx d := (expecting_around ctx .treeConnect .generalClientRequestCb).beside
  have hfresh : ∀ q, d.nextPdu = some q → q.Fresh ∧ q.cb = .generalClientRequestCb := fun q hq =>
    allocatePdu_fresh rfl hq
  have hdata : d.authData = ctx.authData :=
    (allocatePdu_aside ctx .treeConnect .generalClientRequestCb).authData
  have hlog : ctx.log <+: d.log := hexp.log.isPrefix
  clear_value d
  cases hauth : d.authData with
  | none =>
    have hraised : ¬ Ended (d.raise .nullAuthData) := fun he => by cases he.sound
    exact ⟨hexp.trans (raise_aside _ _).setup.beside, fun _ he => absurd he hraised,
      fun q hq => .inr ⟨(hfresh q hq).1, .inr ⟨(hfresh q hq).2, fun _ he => absurd he hraised⟩⟩⟩
  | some auth =>
    dsimp only
    rw [serverBlob_authenticate ht]
    generalize L.authenticateBlob d msg = a
    have hjudged := hexp.trans (judge_beside d (auth.noted wrapped) a)
    have hnext := judge_nextPdu d (auth.noted wrapped) a
    have hset := judge_authData d (auth.noted wrapped) a
    generalize (if (auth.noted wrapped).spnegoWrap then L.wrapResult a.accepted else some []) = blob
    cases blob with
    | none =>
      exact .of_closed hjudged fun q hq =>
        .inr ⟨(hfresh q (hnext ▸ hq)).1, .inr (hfresh q (hnext ▸ hq)).2⟩
    | some token =>
      dsimp only
      have hkept : ∀ {c c' : Context}, Undisturbed Event.Setup c c' →
          c.authData = some ((auth.noted wrapped).judged a) → ctx.log <+: c.log →
          Challenged ctx → Challenged c' := by
        intro c c' hc ha hl hch
        refine hc.challenged ?_
        rintro auth' ha'
        obtain ⟨hissued, hin⟩ := hch auth (hdata.symm.trans hauth)
        obtain rfl : (auth.noted wrapped).judged a = auth' := Option.some.inj (ha.symm.trans ha')
        exact ⟨hissued, hl.subset hin⟩
      have hflag : ((d.judge (auth.noted wrapped) a).authData.map AuthData.isAuthenticated).getD
          false = a.accepted := by
        rw [hset]
        rfl
      rw [hflag]
      cases haccepted : a.accepted with
      | true =>
        have hverdict := judge_accepted d haccepted (auth.noted wrapped)
        simp only [if_true]
        have hasked :=
          establishes_congr (hexp.trans (judge_beside d (auth.noted wrapped) a)).handlers
        generalize d.judge (auth.noted wrapped) a = e at hjudged hnext hset hverdict hasked
        have hkey := getSessionKey_aside e
        generalize getSessionKey e = z at hkey
        have hgrown : ctx.log <+: e.log := hjudged.log.isPrefix
        split
        · have hfin := hkey.setup.trans (finishLeg_setup (L := L) (K := K) z.1 none false z.2 token)
          refine ⟨hjudged.trans hfin.beside, fun hch _ => hkept hfin hset hgrown hch,
            fun q hq => ?_⟩
          have hq' := hfresh q (hnext ▸ hfin.nextPdu ▸ hq)
          refine .inr ⟨hq'.1, .inr ⟨hq'.2, fun hch he => ?_⟩⟩
          obtain ⟨hissued, hin⟩ := hch auth (hdata.symm.trans hauth)
          have hlogged := hkey.setup.log
          rw [hverdict, show (auth.noted wrapped).challenged = true from hissued] at hlogged
          exact finishLeg_loggedOn ((establishes_congr hkey.handlers).trans hasked)
            (hlog.subset hin) hlogged he
        · rename_i hfault
          exact ⟨hjudged, fun hch _ => hkept (.refl e) hset hgrown hch, fun q hq => .inr
            ⟨(hfresh q (hnext ▸ hq)).1, .inr ⟨(hfresh q (hnext ▸ hq)).2,
              fun _ he => absurd he.sound hfault⟩⟩⟩
      | false =>
        simp only [Bool.false_eq_true, if_false]
        generalize d.judge (auth.noted wrapped) a = e at hjudged hnext hset
        have hrefused := refuseLogon_around (L := L) e
        have hagain : ∀ q, (refuseLogon L e).2.nextPdu = some q → _ := fun q hq =>
          refuseLogon_next hq
        generalize refuseLogon L e = y at hrefused hagain
        have hset' := hrefused.authData.trans hset
        have hjudged' := hjudged.trans hrefused.beside
        have hgrown : ctx.log <+: y.2.log := hjudged'.log.isPrefix
        split
        · have hkey := getSessionKey_aside y.2
          generalize getSessionKey y.2 = z at hkey
          have hfin := hkey.setup.trans (finishLeg_setup (L := L) (K := K) z.1 y.1 false z.2 token)
          refine ⟨hjudged'.trans hfin.beside, fun hch _ => hkept hfin hset' hgrown hch,
            fun q hq => ?_⟩
          have hq' := hagain q (hfin.nextPdu ▸ hq)
          exact .inr ⟨hq'.1, .inl hq'.2⟩
        · exact ⟨hjudged', fun hch _ => hkept (.refl y.2) hset' hgrown hch, fun q hq =>
            .inr ⟨(hagain q hq).1, .inl (hagain q hq).2⟩⟩

/-- **A leg of a session setup.** -/
theorem sessionSetupRequestCb_leg (rx : Receiver) (status : Nat) (payload : Payload)
    (ctx : Context) : Leg ctx (sessionSetupRequestCb L K rx status payload ctx) := by
  unfold sessionSetupRequestCb
  split
  · exact (Undisturbed.refl ctx).leg
  · have hhash := (updatePreauthHash_aside (K := K) ctx rx.messageVectors).setup
    generalize updatePreauthHash K ctx rx.messageVectors = d at hhash
    have hsec : Undisturbed Event.Setup ctx { d with sec := .ntlmssp } :=
      hhash.trans (.of_same rfl rfl rfl rfl rfl rfl (.refl _))
    simp only
    split
    · rename_i req
      cases ht : ntlmsspGetMessageType L req.securityBuffer with
      | none => exact (hhash.trans (closeContext_aside _).setup).leg
      | some found =>
        obtain ⟨type, msg, wrapped⟩ := found
        dsimp only
        split
        · rename_i htype
          subst htype
          exact (challengeLeg_leg ht).after hsec
        · split
          · rename_i htype
            subst htype
            exact (authenticateLeg_leg ht).after hsec
          · exact (hsec.trans (closeContext_aside _).setup).leg
    · exact (hhash.trans (raise_aside _ _).setup).leg

/-! ## A turn of the server -/

/-- A callback may serve a request: a client is logged on, unless the current request sets a
session up. -/
def Licensed (asked : Bool) (cb : Callback) (ctx : Context) : Prop :=
  cb = .generalClientRequestCb → ∀ p, ctx.pdu = some p → p.header.command ≠ .sessionSetup →
    LoggedOn asked ctx.log

theorem Licensed.after {asked : Bool} {cb : Callback} (h : Licensed asked cb ctx)
    (h₁ : Aside ctx ctx') : Licensed asked cb ctx' := fun hcb p hp hs =>
  (h hcb p (h₁.pdu ▸ hp) hs).logged (h₁.log.mono fun _ => Event.ne_loggedOff_of_aside)

/-- What a callback of a server leaves behind. -/
structure ServerTurn (asked : Bool) (cb : Callback) (ctx ctx' : Context) : Prop where
  isServer : ctx'.isServer = ctx.isServer
  pdu : ctx'.pdu = ctx.pdu
  handlers : ctx'.server.handlers = ctx.server.handlers
  wait : ctx.isServer = true → ctx'.waitqueue.map Pdu.cb ⊆ ctx.waitqueue.map Pdu.cb
  grown : ctx.log <+: ctx'.log
  gated : LogonFirst asked ctx.log → (Orderly ctx.log → Licensed asked cb ctx) →
    LogonFirst asked ctx'.log
  kept : (∀ p, ctx.pdu = some p → p.header.command ≠ .logoff) →
    Logged (fun e => e ≠ .loggedOff) ctx.log ctx'.log
  challenged : Challenged ctx → Ended ctx' → Challenged ctx'
  next : ∀ q, ctx'.nextPdu = some q →
    ctx.nextPdu = some q ∧ (Ended ctx' → Logged (fun e => e ≠ .loggedOff) ctx.log ctx'.log) ∨
    q.Fresh ∧ (q.cb = .negotiateRequestCb → cb = .negotiateRequestCb) ∧
      (q.cb = .generalClientRequestCb → Challenged ctx → Licensed asked cb ctx → Ended ctx' →
        LoggedOn asked ctx'.log)

theorem Undisturbed.turn (h : Undisturbed Event.Setup ctx ctx') (asked : Bool) (cb : Callback) :
    ServerTurn asked cb ctx ctx' where
  isServer := h.isServer
  pdu := h.pdu
  handlers := h.handlers
  wait := h.wait
  grown := h.log.isPrefix
  gated hg _ := hg.quiet (h.log.mono fun _ he => he.unhandled)
  kept _ := h.log.mono fun _ he => he.logon
  challenged hc _ := h.challenged hc
  next _ hq := .inl ⟨h.nextPdu ▸ hq, fun _ => h.log.mono fun _ he => he.logon⟩

theorem Leg.turn (h : Leg ctx ctx') (cb : Callback) :
    ServerTurn ctx.server.establishes cb ctx ctx' where
  isServer := h.rest.isServer
  pdu := h.rest.pdu
  handlers := h.rest.handlers
  wait := h.rest.wait
  grown := h.rest.log.isPrefix
  gated hg _ := hg.quiet (h.rest.log.mono fun _ he => he.unhandled)
  kept _ := h.rest.log.mono fun _ he => he.logon
  challenged := h.challenged
  next q hq := by
    rcases h.next q hq with hold | ⟨hfresh, hcb | ⟨hcb, hon⟩⟩
    · exact .inl ⟨hold, fun _ => h.rest.log.mono fun _ he => he.logon⟩
    · exact .inr ⟨hfresh, by simp [hcb], by simp [hcb]⟩
    · exact .inr ⟨hfresh, by simp [hcb], fun _ hch _ he => hon hch he⟩

theorem Expects.turn (h : Expects afterNegotiate ctx ctx') (asked : Bool) :
    ServerTurn asked .negotiateRequestCb ctx ctx' where
  isServer := h.around.isServer
  pdu := h.around.pdu
  handlers := h.around.handlers
  wait := h.around.wait
  grown := h.around.log.isPrefix
  gated hg _ := hg.quiet (h.around.log.mono fun _ => Event.ne_handled_of_aside)
  kept _ := h.around.log.mono fun _ => Event.ne_loggedOff_of_aside
  challenged hc _ := Undisturbed.challenged h.around hc
  next q hq := by
    rcases h.next q hq with hold | ⟨hfresh, hcb⟩
    · exact .inl ⟨hold, fun _ => h.around.log.mono fun _ => Event.ne_loggedOff_of_aside⟩
    · refine .inr ⟨hfresh, fun _ => rfl, fun hg => ?_⟩
      rw [hg] at hcb
      simp at hcb

/-- A command has been served. -/
structure Served (asked : Bool) (command : Command) (ctx ctx' : Context) : Prop where
  rest : Undisturbed (fun _ => True) ctx ctx'
  gated : LogonFirst asked ctx.log → (Orderly ctx.log → LoggedOn asked ctx.log) →
    LogonFirst asked ctx'.log
  kept : command ≠ .logoff → Logged (fun e => e ≠ .loggedOff) ctx.log ctx'.log

theorem Undisturbed.served (h : Serving ctx ctx') (asked : Bool) (command : Command) :
    Served asked command ctx ctx' :=
  ⟨h.mono fun _ _ => trivial, fun hg hon => hg.serving (h.log.mono fun _ he => he.ne_loggedOff) hon,
    fun _ => h.log.mono fun _ he => he.ne_loggedOff⟩

theorem commandCb_served (rx : Receiver) (payload : Payload) (asked : Bool) (command : Command)
    (ctx : Context) : Served asked command ctx (commandCb L K rx payload command ctx) := by
  by_cases hc : command = .logoff
  · subst hc
    have hresp : Serving ctx (logoffRequestCb L K ctx) :=
      respond_serving .logoff (plainReply_replies .logoff) ctx
    have hserved := hresp.served asked .logoff
    show Served asked .logoff ctx (if (logoffRequestCb L K ctx).fault = none then
      (logoffRequestCb L K ctx).emit .loggedOff else logoffRequestCb L K ctx)
    split
    · refine ⟨hserved.rest.trans (.of_same rfl rfl rfl rfl rfl rfl (.push trivial)),
        fun hg hon => ?_, fun hne => absurd rfl hne⟩
      exact (hserved.gated hg hon).quiet (.push nofun)
    · exact hserved
  · exact (commandCb_serving rx payload command hc ctx).served asked command

/-- A request of this kind follows one that has been served. -/
theorem Served.expects {asked : Bool} {p : Pdu} {command : Command}
    {cb : Callback} (h : Served asked p.header.command ctx ctx₁) (hp : ctx.pdu = some p)
    (hs : p.header.command ≠ .sessionSetup) (ho : cb.opening = some command)
    (hne : cb ≠ .negotiateRequestCb)
    (hoff : cb = .generalClientRequestCb → p.header.command ≠ .logoff) :
    ServerTurn asked .generalClientRequestCb ctx (expectRequest ctx₁ command cb) := by
  have hexp := expectRequest_around ctx₁ command cb
  have hlog : Logged (fun e => e.aside = true) ctx₁.log (expectRequest ctx₁ command cb).log :=
    hexp.log
  refine {
    isServer := hexp.isServer.trans h.rest.isServer
    pdu := hexp.pdu.trans h.rest.pdu
    handlers := hexp.handlers.trans h.rest.handlers
    wait := fun hsv => List.Subset.trans (hexp.wait (h.rest.isServer.trans hsv)) (h.rest.wait hsv)
    grown := h.rest.log.isPrefix.trans hlog.isPrefix
    gated := fun hg hon => (h.gated hg fun hst => hon hst rfl p hp hs).quiet
      (hlog.mono fun _ => Event.ne_handled_of_aside)
    kept := fun hoff' => (h.kept (hoff' p hp)).trans
      (hlog.mono fun _ => Event.ne_loggedOff_of_aside)
    challenged := fun hc _ => Undisturbed.challenged hexp (h.rest.challenged hc)
    next := fun q hq => ?_ }
  obtain ⟨hfresh, hcb⟩ := expectRequest_next ho hq
  refine .inr ⟨hfresh, fun hn => absurd (hcb.symm.trans hn) hne, fun hgen _ hon _ => ?_⟩
  exact ((hon rfl p hp hs).logged (h.kept (hoff (hcb ▸ hgen)))).logged
    (hlog.mono fun _ => Event.ne_loggedOff_of_aside)

/-- A callback that ran into undefined behaviour. -/
theorem Served.faulted {asked : Bool} {p : Pdu} (h : Served asked p.header.command ctx ctx')
    (hp : ctx.pdu = some p) (hs : p.header.command ≠ .sessionSetup) (hf : ctx'.fault ≠ none) :
    ServerTurn asked .generalClientRequestCb ctx ctx' where
  isServer := h.rest.isServer
  pdu := h.rest.pdu
  handlers := h.rest.handlers
  wait := h.rest.wait
  grown := h.rest.log.isPrefix
  gated hg hon := h.gated hg fun hst => hon hst rfl p hp hs
  kept hoff := h.kept (hoff p hp)
  challenged hc _ := h.rest.challenged hc
  next _ hq := .inl ⟨h.rest.nextPdu ▸ hq, fun he => absurd he.sound hf⟩

/-- What comes before a turn does not disturb it. -/
theorem ServerTurn.after {asked : Bool} {cb : Callback}
    (h : ServerTurn asked cb ctx ctx') (h₁ : Aside ctx₁ ctx) : ServerTurn asked cb ctx₁ ctx' where
  isServer := h.isServer.trans h₁.isServer
  pdu := h.pdu.trans h₁.pdu
  handlers := h.handlers.trans h₁.handlers
  wait hsv := List.Subset.trans (h.wait (h₁.isServer.trans hsv)) (h₁.wait hsv)
  grown := h₁.log.isPrefix.trans h.grown
  gated hg hon := h.gated (hg.quiet (h₁.log.mono fun _ => Event.ne_handled_of_aside))
    fun hst => (hon (hst.of_prefix h₁.log.isPrefix)).after h₁
  kept hoff := (h₁.log.mono fun _ => Event.ne_loggedOff_of_aside).trans
    (h.kept fun p hp => hoff p (h₁.pdu ▸ hp))
  challenged hc he := h.challenged (h₁.challenged hc) he
  next q hq := by
    have hlog := h₁.log.mono fun _ => Event.ne_loggedOff_of_aside
    rcases h.next q hq with ⟨hold, hl⟩ | ⟨hfresh, hneg, hgen⟩
    · exact .inl ⟨h₁.nextPdu ▸ hold, fun he => hlog.trans (hl he)⟩
    · exact .inr ⟨hfresh, hneg, fun hcb hch hon he =>
        hgen hcb (h₁.challenged hch) (hon.after h₁) he⟩

theorem following_opens (command : Command) :
    (following command).2.opening = some (following command).1 ∧
      (following command).2 ≠ .negotiateRequestCb ∧
      ((following command).2 = .generalClientRequestCb → command ≠ .logoff) := by
  unfold following
  split
  · exact ⟨rfl, by simp, by simp⟩
  · rename_i hne
    exact ⟨rfl, by simp, fun _ => hne⟩

/-- **The callback of any request.** -/
theorem generalClientRequestCb_turn (rx : Receiver) (status : Nat) (payload : Payload)
    (ctx : Context) : ServerTurn ctx.server.establishes .generalClientRequestCb ctx
      (generalClientRequestCb L K rx status payload ctx) := by
  unfold generalClientRequestCb
  split
  · exact (closeContext_aside ctx).setup.turn _ _
  · rename_i p hp
    split
    · exact (Undisturbed.refl ctx).turn _ _
    · split
      · exact (sessionSetupRequestCb_leg rx status payload ctx).turn _
      · rename_i hs
        have hserved := commandCb_served (L := L) (K := K) rx payload ctx.server.establishes
          p.header.command ctx
        simp only
        split
        · obtain ⟨ho, hne, hoff⟩ := following_opens p.header.command
          exact hserved.expects hp hs ho hne hoff
        · rename_i hfault
          exact hserved.faulted hp hs hfault

/-- **A turn of the server**: what the callback of a request does. -/
theorem invokeServer_turn (rx : Receiver) (p : Pdu) (status : Nat) (payload : Payload)
    (ctx : Context) : ServerTurn ctx.server.establishes p.cb ctx
      (invokeServer L K rx p status payload ctx) := by
  have hemit := emit_aside ctx (e := .completed p.id status) rfl
  unfold invokeServer
  simp only
  split
  · rename_i hcb
    rw [hcb]
    exact ((hemit.expects _).trans (negotiateRequestCb_expects rx status payload _)).turn _
  · rename_i hcb
    rw [hcb]
    exact ((sessionSetupRequestCb_leg rx status payload _).after hemit.setup).turn _
  · rename_i hcb
    rw [hcb]
    exact (generalClientRequestCb_turn rx status payload _).after hemit
  · exact (hemit.trans (react_aside _)).setup.turn _ _

end

end Libsmb2
