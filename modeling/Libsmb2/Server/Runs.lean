import Libsmb2.Endpoint
import Libsmb2.Server

/-!
# What the callbacks of a server do

Most of what a callback does is beside the state of the session: it queues replies, and it runs
what the application does in its handlers.  `Aside` says what these leave alone.

* `react_aside`, `sendReply_aside`, `replyAndHash_aside` — the application and the replies.
-/

set_option autoImplicit false

namespace Libsmb2

open Util

/-- What says nothing about the session. -/
def Event.aside : Event → Bool
  | .admitted _ => false
  | .authenticated _ => false
  | .established => false
  | .handled _ => false
  | .loggedOff => false
  | _ => true

/-- A change that leaves the state of the session alone, and logs events of this kind. -/
structure Undisturbed (P : Event → Prop) (ctx ctx' : Context) : Prop where
  isServer : ctx'.isServer = ctx.isServer
  pdu : ctx'.pdu = ctx.pdu
  nextPdu : ctx'.nextPdu = ctx.nextPdu
  authData : ctx'.authData = ctx.authData
  handlers : ctx'.server.handlers = ctx.server.handlers
  wait : ctx.isServer = true → ctx'.waitqueue.map Pdu.cb ⊆ ctx.waitqueue.map Pdu.cb
  log : Logged P ctx.log ctx'.log

/-- A change beside the state of the session. -/
abbrev Aside : Context → Context → Prop := Undisturbed fun e => e.aside = true

section
variable {K : Crypto} {L : Library} {P : Event → Prop} {ctx ctx' ctx'' : Context}

theorem Undisturbed.refl (ctx : Context) : Undisturbed P ctx ctx :=
  ⟨rfl, rfl, rfl, rfl, rfl, fun _ => List.Subset.refl _, .refl _⟩

theorem Undisturbed.trans (h₁ : Undisturbed P ctx ctx') (h₂ : Undisturbed P ctx' ctx'') :
    Undisturbed P ctx ctx'' where
  isServer := h₂.isServer.trans h₁.isServer
  pdu := h₂.pdu.trans h₁.pdu
  nextPdu := h₂.nextPdu.trans h₁.nextPdu
  authData := h₂.authData.trans h₁.authData
  handlers := h₂.handlers.trans h₁.handlers
  wait hs := List.Subset.trans (h₂.wait (h₁.isServer.trans hs)) (h₁.wait hs)
  log := h₁.log.trans h₂.log

theorem Undisturbed.mono {Q : Event → Prop} (hPQ : ∀ e, P e → Q e) (h : Undisturbed P ctx ctx') :
    Undisturbed Q ctx ctx' :=
  ⟨h.isServer, h.pdu, h.nextPdu, h.authData, h.handlers, h.wait, h.log.mono hPQ⟩

/-- A change of other fields. -/
theorem Undisturbed.of_same (hs : ctx'.isServer = ctx.isServer) (hp : ctx'.pdu = ctx.pdu)
    (hn : ctx'.nextPdu = ctx.nextPdu) (ha : ctx'.authData = ctx.authData)
    (hh : ctx'.server.handlers = ctx.server.handlers) (hw : ctx'.waitqueue = ctx.waitqueue)
    (hl : Logged P ctx.log ctx'.log) : Undisturbed P ctx ctx' :=
  ⟨hs, hp, hn, ha, hh, fun _ => hw ▸ List.Subset.refl _, hl⟩

theorem emit_aside (ctx : Context) {e : Event} (he : e.aside = true) : Aside ctx (ctx.emit e) :=
  .of_same rfl rfl rfl rfl rfl rfl (.push he)

theorem freePdu_aside (ctx : Context) (id : Nat) : Aside ctx (ctx.freePdu id) := by
  refine ⟨rfl, rfl, rfl, rfl, rfl, fun _ => (List.filter_sublist.map _).subset, _, rfl, ?_⟩
  intro e he
  obtain ⟨c, -, rfl⟩ := List.mem_map.mp he
  rfl

theorem closeContext_aside (ctx : Context) : Aside ctx ctx.closeContext :=
  .of_same rfl rfl rfl rfl rfl rfl (.push rfl)

/-! ## Queueing -/

theorem protects_aside {e : Event} (he : e.protects = true) : e.aside = true := by
  cases e <;> first | rfl | cases he

theorem signMember_aside (ctx : Context) (p : Pdu) : Aside ctx (signMember K ctx p).1 := by
  unfold signMember
  split
  · obtain ⟨env, es, flags, sig, out, hes, h, -⟩ := pduAddSignature_eq K ctx p
    show Aside ctx (pduAddSignature K ctx p).1
    rw [h]
    exact .of_same rfl rfl rfl rfl rfl rfl ⟨es, rfl, fun e he => protects_aside (hes e he)⟩
  · exact .refl _

theorem correlateReply_aside (ctx : Context) (p : Pdu) : Aside ctx (correlateReply ctx p).1 := by
  unfold correlateReply
  split
  · split
    · exact .refl _
    · exact .refl _
  · simp only
    split
    · refine ⟨rfl, rfl, rfl, rfl, rfl, fun _ => ?_, .refl _⟩
      rw [List.map_map]
      refine (List.map_congr_left ?_ : _ = ctx.waitqueue.map Pdu.cb) ▸ List.Subset.refl _
      intro q _
      simp only [Function.comp_apply]
      split <;> rfl
    · exact freePdu_aside _ _

theorem encodeHeader_aside (ctx : Context) (p : Pdu) : Aside ctx (encodeHeader ctx p).1 := by
  unfold encodeHeader
  split
  · exact .refl _
  · exact .of_same rfl rfl rfl rfl rfl rfl (.refl _)

theorem queueMember_aside (ctx : Context) (mid : Nat) (p : Pdu) :
    Aside ctx (queueMember K ctx mid p).1 := by
  have henc : Aside ctx (encodeMember ctx mid p).1 := by
    unfold encodeMember
    simp only
    split
    · exact (correlateReply_aside _ _).trans (encodeHeader_aside _ _)
    · exact encodeHeader_aside _ _
  exact henc.trans (signMember_aside _ _)

theorem queueMembers_aside (ps : List Pdu) (ctx : Context) (mid : Nat) :
    Aside ctx (queueMembers K ctx mid ps).1 := by
  induction ps generalizing ctx mid with
  | nil => exact .refl _
  | cons p ps ih => exact (queueMember_aside ctx mid p).trans (ih _ _)

theorem encryptPdu_aside (ctx : Context) (c : Chain) : Aside ctx (encryptPdu K ctx c).1 := by
  refine encryptPdu_cases K ctx c ?_ ?_ ?_ ?_
  · exact .refl _
  · exact .of_same rfl rfl rfl rfl rfl rfl (.refl _)
  · exact .of_same rfl rfl rfl rfl rfl rfl (.push rfl)
  · exact .of_same rfl rfl rfl rfl rfl rfl (.push rfl)

theorem preparePdu_aside (ctx : Context) (c : Chain) : Aside ctx (preparePdu K ctx c).1 :=
  (queueMember_aside _ _ _).trans ((queueMembers_aside _ _ _).trans (encryptPdu_aside _ _))

theorem sentMembers_aside (ps : List Pdu) (ctx : Context) : Aside ctx (sentMembers ctx ps) := by
  induction ps generalizing ctx with
  | nil => exact .refl _
  | cons p ps ih =>
    unfold sentMembers
    split
    · refine Undisturbed.trans ?_ (ih _)
      exact .of_same rfl rfl rfl rfl rfl rfl (.refl _)
    · rename_i hc
      refine Undisturbed.trans ?_ (ih _)
      exact ⟨rfl, rfl, rfl, rfl, rfl, fun hs => absurd hs hc, .refl _⟩

theorem accepted_aside (ctx : Context) (c : Chain) (rest : List Chain) (n : Nat) :
    Aside ctx (accepted ctx c rest n) := by
  unfold accepted
  simp only
  split
  · refine Undisturbed.trans ?_ (sentMembers_aside _ _)
    exact .of_same rfl rfl rfl rfl rfl rfl (.refl _)
  · exact .of_same rfl rfl rfl rfl rfl rfl (.refl _)

theorem writeToSocket_aside (ctx : Context) : Aside ctx (writeToSocket ctx).1 :=
  (WriteRule.of_trans .refl .trans (fun _ => .of_same rfl rfl rfl rfl rfl rfl (.refl _))
    (fun _ => emit_aside _ rfl) (fun n _ _ => accepted_aside _ _ _ n)
    (fun _ _ => .of_same rfl rfl rfl rfl rfl rfl (.refl _))).writeToSocket_rel trivial

theorem queuePdu_aside (ctx : Context) (c : Chain) : Aside ctx (queuePdu K ctx c) := by
  have hqueued : Aside ctx (ctx.emit (.queued c ctx.security)) := emit_aside ctx rfl
  unfold queuePdu
  simp only
  split
  · exact hqueued
  · refine hqueued.trans ?_
    have hprep := preparePdu_aside (K := K) (ctx.emit (.queued c ctx.security)) c
    split
    · refine hprep.trans ?_
      generalize preparePdu K (ctx.emit (.queued c ctx.security)) c = x
      have hadd : Aside x.1 { x.1 with
          outqueue := x.1.outqueue ++ [x.2], log := x.1.log ++ [.enqueued x.2] } :=
        .of_same rfl rfl rfl rfl rfl rfl (.push rfl)
      unfold addToOutqueue
      simp only
      split
      · exact hadd.trans (writeToSocket_aside _)
      · exact hadd
    · exact hprep

/-! ## The application -/

theorem allocatePdu_aside (ctx : Context) (command : Command) (cb : Callback) :
    Aside ctx (ctx.allocatePdu command cb).2 := by
  unfold Context.allocatePdu
  split
  · exact .of_same rfl rfl rfl rfl rfl rfl (.refl _)
  · exact .of_same rfl rfl rfl rfl rfl rfl (.refl _)

theorem perform_aside (ctx : Context) (a : Action) : Aside ctx (perform K ctx a) := by
  have hsame : ∀ d : Context, d.isServer = ctx.isServer → d.pdu = ctx.pdu →
      d.nextPdu = ctx.nextPdu → d.authData = ctx.authData →
      d.server.handlers = ctx.server.handlers → d.waitqueue = ctx.waitqueue → d.log = ctx.log →
      Aside ctx d :=
    fun d h₁ h₂ h₃ h₄ h₅ h₆ h₇ => .of_same h₁ h₂ h₃ h₄ h₅ h₆ (h₇ ▸ .refl _)
  cases a with
  | alloc command body cb creditCharge inIov =>
    have halloc := allocatePdu_aside ctx command cb
    simp only [perform]
    split
    · rename_i e
      rw [e] at halloc
      exact halloc
    · rename_i p d e
      rw [e] at halloc
      exact halloc.trans (.of_same rfl rfl rfl rfl rfl rfl (.refl _))
  | compound pdu nextPdu =>
    simp only [perform]
    split
    · exact hsame _ rfl rfl rfl rfl rfl rfl rfl
    · exact hsame _ rfl rfl rfl rfl rfl rfl rfl
  | queue pdu =>
    simp only [perform]
    split
    · have hdrop : Aside ctx (ctx.dropHeld pdu) := hsame _ rfl rfl rfl rfl rfl rfl rfl
      exact hdrop.trans (queuePdu_aside _ _)
    · exact hsame _ rfl rfl rfl rfl rfl rfl rfl
  | free pdu =>
    simp only [perform]
    split
    · exact hsame _ rfl rfl rfl rfl rfl rfl rfl
    · split
      · exact (freePdu_aside ctx pdu).trans (.of_same rfl rfl rfl rfl rfl rfl (.refl _))
      · split
        · exact hsame _ rfl rfl rfl rfl rfl rfl rfl
        · exact hsame _ rfl rfl rfl rfl rfl rfl rfl
  | setSign b => exact hsame _ rfl rfl rfl rfl rfl rfl rfl
  | setSeal b => exact hsame _ rfl rfl rfl rfl rfl rfl rfl
  | setTimeout s => exact hsame _ rfl rfl rfl rfl rfl rfl rfl
  | tick s => exact hsame _ rfl rfl rfl rfl rfl rfl rfl
  | close => exact closeContext_aside ctx

theorem act_aside (ctx : Context) (a : Action) : Aside ctx (act K ctx a) := by
  have hnote : Aside ctx (ctx.notePasses a) := by
    refine .of_same rfl rfl rfl rfl rfl rfl ⟨_, rfl, ?_⟩
    intro e he
    obtain ⟨_, _, rfl⟩ := Context.of_mem_passes he
    rfl
  exact hnote.trans (perform_aside _ a)

theorem runActions_aside (as : List Action) (ctx : Context) :
    Aside ctx (runActions K ctx as) := by
  induction as generalizing ctx with
  | nil => exact .refl _
  | cons a as ih =>
    unfold runActions
    split
    · exact (act_aside ctx a).trans (ih _)
    · exact .refl _

/-- What the application does in a callback or a handler is beside the session. -/
theorem react_aside (ctx : Context) : Aside ctx (react K ctx) := by
  unfold react
  split
  · exact .refl _
  · rename_i as rest _
    have hpop : Aside ctx (ctx.setReactions rest) := .of_same rfl rfl rfl rfl rfl rfl (.refl _)
    exact hpop.trans (runActions_aside as _)

theorem runHandler_aside (ctx : Context) : Aside ctx (runHandler K ctx).2 := by
  have hpop : Aside ctx ctx.popAnswer := .of_same rfl rfl rfl rfl rfl rfl (.refl _)
  exact hpop.trans (react_aside _)

/-! ## Replies -/

theorem newReply_aside (ctx : Context) (command : Command) (status : Nat)
    (body : Option (List Bytes)) : Aside ctx (newReply ctx command status body).2 := by
  have halloc := allocatePdu_aside ctx command .none
  have hnew : (newReply ctx command status body).2 = (ctx.allocatePdu command .none).2 := by
    unfold newReply newRequest
    cases ctx.allocatePdu command .none with
    | mk q d =>
      cases q with
      | none => rfl
      | some q => cases body <;> rfl
  rw [hnew]
  exact halloc

theorem errorReply_aside (ctx : Context) (command : Command) (status : Nat) :
    Aside ctx (errorReply L ctx command status).2 := newReply_aside _ _ _ _

/-- Sending a reply is beside the session. -/
theorem sendReply_aside (x : Option Pdu × Context) : Aside x.2 (sendReply K x) := by
  obtain ⟨q, d⟩ := x
  cases q with
  | none => exact .refl _
  | some p => exact queuePdu_aside _ _

theorem updatePreauthHash_aside (ctx : Context) (vecs : List Bytes) :
    Aside ctx (updatePreauthHash K ctx vecs) := .of_same rfl rfl rfl rfl rfl rfl (.refl _)

theorem replyAndHash_aside (ctx : Context) (p : Pdu) : Aside ctx (replyAndHash L K ctx p) := by
  have hq := queuePdu_aside (K := K) ctx (.single (setMessageId p ctx.messageId))
  unfold replyAndHash
  simp only
  split
  · refine hq.trans ?_
    split
    · exact (emit_aside _ rfl).trans (updatePreauthHash_aside _ _)
    · exact (emit_aside _ rfl).trans (updatePreauthHash_aside _ _)
  · exact hq

theorem createSigningKey_aside (ctx : Context) : Aside ctx (createSigningKey K ctx) := by
  refine .of_same rfl rfl rfl rfl rfl rfl ⟨_, rfl, ?_⟩
  intro e he
  rcases List.mem_cons.mp he with rfl | he
  · rfl
  · rcases List.mem_cons.mp he with rfl | he
    · rfl
    · split at he
      · cases he
      · simp only [List.mem_cons, List.not_mem_nil, or_false] at he
        rcases he with rfl | rfl
        · rfl
        · rfl

/-! ## The request that comes next -/

/-- The command with which a request for this callback is allocated. -/
def Callback.opening : Callback → Option Command
  | .negotiateRequestCb => some .negotiate
  | .sessionSetupRequestCb => some .sessionSetup
  | .generalClientRequestCb => some .treeConnect
  | _ => Option.none

/-- A request that no header has been read into. -/
def Pdu.Fresh (p : Pdu) : Prop := p.cb.opening = some p.header.command

/-- A change in which the request that comes next is set, and nothing else but what is beside the
session. -/
def Around (ctx ctx' : Context) : Prop := Aside { ctx with nextPdu := ctx'.nextPdu } ctx'

theorem Undisturbed.expecting (h : Undisturbed P ctx ctx') (n : Option Pdu) :
    Undisturbed P { ctx with nextPdu := n } { ctx' with nextPdu := n } :=
  ⟨h.isServer, h.pdu, rfl, h.authData, h.handlers, h.wait, h.log⟩

theorem Undisturbed.around (h : Aside ctx ctx') : Around ctx ctx' := by
  have hn := h.expecting ctx'.nextPdu
  exact hn

theorem Around.trans (h₁ : Around ctx ctx') (h₂ : Around ctx' ctx'') : Around ctx ctx'' :=
  (Undisturbed.expecting h₁ ctx''.nextPdu).trans h₂

theorem Around.set (ctx : Context) (n : Option Pdu) : Around ctx { ctx with nextPdu := n } :=
  .refl _

end

end Libsmb2
