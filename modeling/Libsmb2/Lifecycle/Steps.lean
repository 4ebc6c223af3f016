import Libsmb2.Lifecycle
import Libsmb2.Util.Log
import Mathlib.Logic.Relation

/-!
# What the life of a request is made of

`Step` lists the atomic changes that queueing, writing, timing out and shutting down make
to the queues of a context, each with its guard.  Every call of the application, every
callback and every loop is a sequence of such steps (`act_steps`, `react_steps`,
`writeToSocket_steps`, `timeoutPdus_steps`), so that an invariant of the queues is proved
once for each kind of step.

The proposition `G` stands for the steps that free requests which nobody completed:
`smb2_free_pdu` by the application, and a server that answers a request.
-/

set_option autoImplicit false

namespace Libsmb2

open Util Relation

/-- Events that say nothing about requests. -/
def Event.neutral : Event → Bool
  | .derived _ _ _ => true
  | .used _ _ => true
  | .unprotected _ _ => true
  | .closed => true
  | .transcript _ => true
  | .passed _ _ => true
  | .lapsed _ => true
  | _ => false

/-- What a step may log beside the queues. -/
def Event.Aside (G : Prop) (e : Event) : Prop := e.neutral = true ∨ (G ∧ ∃ c, e = .removed c)

/-- The scripts of the environment are only read. -/
structure Consumes (env env' : Env) : Prop where
  mem : env'.mem <:+ env.mem
  reactions : env'.reactions <:+ env.reactions

theorem Consumes.refl (env : Env) : Consumes env env := ⟨List.suffix_refl _, List.suffix_refl _⟩

theorem Consumes.trans {a b c : Env} (h₁ : Consumes a b) (h₂ : Consumes b c) : Consumes a c :=
  ⟨h₂.mem.trans h₁.mem, h₂.reactions.trans h₁.reactions⟩

theorem Consumes.popMem (ctx : Context) : Consumes ctx.env ctx.popMem.env :=
  ⟨List.tail_suffix _, List.suffix_refl _⟩

/-- A change outside the queues.  Only where `G` holds may requests be freed, and a chain
that leaves the out queue is logged. -/
structure Quiet (G : Prop) (ctx ctx' : Context) : Prop where
  out : ∃ keep : Chain → Bool, ctx'.outqueue = ctx.outqueue.filter keep ∧
    ∀ c ∈ ctx.outqueue, keep c = false → .removed c ∈ ctx'.log
  wait : ∃ keep : Nat → Bool, ctx'.waitqueue.map Pdu.id = (ctx.waitqueue.map Pdu.id).filter keep
  sub : ctx.isServer = false → ctx'.waitqueue.Sublist ctx.waitqueue
  held : ∃ keep : Chain → Bool, ctx'.held = ctx.held.filter keep
  same : ¬ G → ctx'.outqueue = ctx.outqueue ∧ ctx'.waitqueue = ctx.waitqueue ∧
    ctx'.held = ctx.held
  pdu : ctx'.pdu = ctx.pdu
  nextId : ctx'.nextId = ctx.nextId
  wire : ctx'.wire = ctx.wire
  isServer : ctx'.isServer = ctx.isServer
  passthrough : ctx'.passthrough = ctx.passthrough
  fault : ctx'.fault = ctx.fault
  env : Consumes ctx.env ctx'.env
  log : Logged (Event.Aside G) ctx.log ctx'.log

namespace Quiet

variable {G : Prop} {ctx ctx' ctx'' : Context}

/-- The queues are as they were. -/
theorem of_same (hout : ctx'.outqueue = ctx.outqueue) (hwait : ctx'.waitqueue = ctx.waitqueue)
    (hheld : ctx'.held = ctx.held) (hpdu : ctx'.pdu = ctx.pdu) (hid : ctx'.nextId = ctx.nextId)
    (hwire : ctx'.wire = ctx.wire) (hsv : ctx'.isServer = ctx.isServer)
    (hpt : ctx'.passthrough = ctx.passthrough) (hf : ctx'.fault = ctx.fault)
    (henv : Consumes ctx.env ctx'.env) (hlog : Logged (Event.Aside G) ctx.log ctx'.log) :
    Quiet G ctx ctx' where
  out := ⟨fun _ => true, by simp [hout], by simp⟩
  wait := ⟨fun _ => true, by simp [hwait]⟩
  sub _ := by rw [hwait]
  held := ⟨fun _ => true, by simp [hheld]⟩
  same _ := ⟨hout, hwait, hheld⟩
  pdu := hpdu
  nextId := hid
  wire := hwire
  isServer := hsv
  passthrough := hpt
  fault := hf
  env := henv
  log := hlog

theorem refl (ctx : Context) : Quiet G ctx ctx :=
  of_same rfl rfl rfl rfl rfl rfl rfl rfl rfl (.refl _) (.refl _)

theorem trans (h₁ : Quiet G ctx ctx') (h₂ : Quiet G ctx' ctx'') : Quiet G ctx ctx'' where
  out := by
    obtain ⟨k₁, e₁, r₁⟩ := h₁.out
    obtain ⟨k₂, e₂, r₂⟩ := h₂.out
    refine ⟨fun c => k₁ c && k₂ c, ?_, ?_⟩
    · rw [e₂, e₁, List.filter_filter]
      refine List.filter_congr ?_
      intro c _
      exact Bool.and_comm _ _
    · intro c hc hk
      cases hk₁ : k₁ c with
      | false => exact h₂.log.subset (r₁ c hc hk₁)
      | true =>
        refine r₂ c ?_ ?_
        · rw [e₁]
          exact List.mem_filter.mpr ⟨hc, hk₁⟩
        · simpa [hk₁] using hk
  wait := by
    obtain ⟨k₁, e₁⟩ := h₁.wait
    obtain ⟨k₂, e₂⟩ := h₂.wait
    exact ⟨fun i => k₂ i && k₁ i, by rw [e₂, e₁, List.filter_filter]⟩
  sub hc := (h₂.sub (h₁.isServer.trans hc)).trans (h₁.sub hc)
  held := by
    obtain ⟨k₁, e₁⟩ := h₁.held
    obtain ⟨k₂, e₂⟩ := h₂.held
    exact ⟨fun i => k₂ i && k₁ i, by rw [e₂, e₁, List.filter_filter]⟩
  same hG := by
    obtain ⟨o₁, w₁, l₁⟩ := h₁.same hG
    obtain ⟨o₂, w₂, l₂⟩ := h₂.same hG
    exact ⟨o₂.trans o₁, w₂.trans w₁, l₂.trans l₁⟩
  pdu := h₂.pdu.trans h₁.pdu
  nextId := h₂.nextId.trans h₁.nextId
  wire := h₂.wire.trans h₁.wire
  isServer := h₂.isServer.trans h₁.isServer
  passthrough := h₂.passthrough.trans h₁.passthrough
  fault := h₂.fault.trans h₁.fault
  env := h₁.env.trans h₂.env
  log := h₁.log.trans h₂.log

theorem noteRelease (ctx : Context) (byCaller : Bool) (ps : List Pdu) :
    Quiet G ctx (ctx.noteRelease byCaller ps) :=
  of_same rfl rfl rfl rfl rfl rfl rfl rfl rfl (.refl _) (.refl _)

/-- `smb2_free_pdu`, where frees are allowed. -/
theorem freePdu (hG : G) (ctx : Context) (id : Nat) : Quiet G ctx (ctx.freePdu id) where
  out := by
    refine ⟨fun c => c.head.id != id, rfl, ?_⟩
    intro c hc hk
    refine List.mem_append_right _ (List.mem_map.mpr ⟨c, List.mem_filter.mpr ⟨hc, ?_⟩, rfl⟩)
    simpa using hk
  wait := ⟨fun i => i != id, by simp [Context.freePdu, List.filter_map, Function.comp_def]⟩
  sub _ := List.filter_sublist
  held := ⟨fun _ => true, by simp [Context.freePdu]⟩
  same hn := absurd hG hn
  pdu := rfl
  nextId := rfl
  wire := rfl
  isServer := rfl
  passthrough := rfl
  fault := rfl
  env := .refl _
  log := by
    refine ⟨_, rfl, ?_⟩
    intro e he
    obtain ⟨c, _, rfl⟩ := List.mem_map.mp he
    exact .inr ⟨hG, c, rfl⟩

end Quiet

/-- The program has run into undefined behaviour; nothing is said of the rest. -/
structure Crashes (ctx ctx' : Context) : Prop where
  fault : ctx'.fault ≠ none
  fuel : ctx'.fault ≠ some .outOfFuel
  pdu : ctx'.pdu = ctx.pdu
  isServer : ctx'.isServer = ctx.isServer
  passthrough : ctx'.passthrough = ctx.passthrough
  env : Consumes ctx.env ctx'.env
  nextId : ctx'.nextId = ctx.nextId
  log : ctx.log <+: ctx'.log

theorem Crashes.raise (ctx : Context) {f : Fault} (hf : f ≠ .outOfFuel) :
    Crashes ctx (ctx.raise f) where
  fault := by simp [Context.raise]
  fuel := by simpa [Context.raise] using hf
  pdu := rfl
  isServer := rfl
  passthrough := rfl
  env := .refl _
  nextId := rfl
  log := List.prefix_refl _

theorem Crashes.after {G : Prop} {ctx ctx' ctx'' : Context} (hq : Quiet G ctx ctx')
    (hc : Crashes ctx' ctx'') : Crashes ctx ctx'' where
  fault := hc.fault
  fuel := hc.fuel
  pdu := hc.pdu.trans hq.pdu
  isServer := hc.isServer.trans hq.isServer
  passthrough := hc.passthrough.trans hq.passthrough
  env := hq.env.trans hc.env
  nextId := hc.nextId.trans hq.nextId
  log := hq.log.isPrefix.trans hc.log

/-- What identifies a request, and where its transmission stands. -/
def Pdu.tag (p : Pdu) : Nat × Callback × Nat := (p.id, p.cb, p.numDone)

/-! ## Queueing -/

section
variable {G : Prop} {K : Crypto}

theorem pduAddSignature_quiet (ctx : Context) (p : Pdu) :
    Quiet G ctx (pduAddSignature K ctx p).1 := by
  have hused : ∀ (c : Context) (e : Event), e.neutral = true → Quiet G c (c.emit e) := by
    intro c e he
    exact .of_same rfl rfl rfl rfl rfl rfl rfl rfl rfl (.refl _) (.push (.inl he))
  have hpop : Quiet G ctx ctx.popMem :=
    .of_same rfl rfl rfl rfl rfl rfl rfl rfl rfl (.popMem ctx) (.refl _)
  refine pduAddSignature_cases K ctx p ?_ ?_ ?_ ?_
  · intro _
    exact .refl _
  · exact hused _ _ rfl
  · exact hpop.trans (hused _ _ rfl)
  · exact hpop.trans (hused _ _ rfl)

theorem pduAddSignature_tag (ctx : Context) (p : Pdu) :
    (pduAddSignature K ctx p).2.1.tag = p.tag :=
  pduAddSignature_cases K ctx p (fun _ => rfl) rfl rfl rfl

theorem correlateReply_quiet (hG : G) {ctx : Context} (hs : ctx.isServer = true) (p : Pdu) :
    Quiet G ctx (correlateReply ctx p).1 := by
  unfold correlateReply
  split
  · split <;> exact .refl _
  · rename_i req hreq
    simp only
    split
    · -- the request stays and is marked: the ids are the same
      have hmark : ∀ (l : List Pdu) (aid : Nat), (l.map fun q : Pdu =>
          if q.id = req.id then
            { q with header := (q.header.setAsyncId aid).setFlag FLAGS_ASYNC_COMMAND }
          else q).map Pdu.id = l.map Pdu.id := by
        intro l aid
        simp only [List.map_map]
        refine List.map_congr_left ?_
        intro q _
        simp only [Function.comp_apply]
        split <;> rfl
      refine ⟨⟨fun _ => true, by simp, by simp⟩, ⟨fun _ => true, ?_⟩,
        fun hc => absurd (hs.symm.trans hc) (by decide), ⟨fun _ => true, by simp⟩,
        fun hn => absurd hG hn, rfl, rfl, rfl, rfl, rfl, rfl, .refl _, .refl _⟩
      simp only [hmark, List.filter_true]
    · exact .freePdu hG ctx req.id

theorem correlateReply_tag (ctx : Context) (p : Pdu) :
    (correlateReply ctx p).2.tag = p.tag := by
  unfold correlateReply
  split
  · split <;> rfl
  · simp only
    split
    · rfl
    · simp only
      split <;> rfl

theorem encodeHeader_quiet (ctx : Context) (p : Pdu) : Quiet G ctx (encodeHeader ctx p).1 := by
  unfold encodeHeader
  split
  · exact .refl _
  · exact .of_same rfl rfl rfl rfl rfl rfl rfl rfl rfl (.refl _) (.refl _)

theorem encodeHeader_tag (ctx : Context) (p : Pdu) : (encodeHeader ctx p).2.tag = p.tag := by
  unfold encodeHeader
  split <;> rfl

theorem encodeMember_quiet (ctx : Context) (mid : Nat) (p : Pdu) (hG : ctx.isServer = true → G) :
    Quiet G ctx (encodeMember ctx mid p).1 := by
  unfold encodeMember
  by_cases hs : ctx.isServer = true
  · simp only [hs, if_true]
    exact (correlateReply_quiet (hG hs) hs p).trans (encodeHeader_quiet _ _)
  · simp only [hs]
    exact encodeHeader_quiet ctx p

theorem encodeMember_tag (ctx : Context) (mid : Nat) (p : Pdu) :
    (encodeMember ctx mid p).2.tag = p.tag := by
  unfold encodeMember
  by_cases hs : ctx.isServer = true
  · simp only [hs, if_true]
    exact (encodeHeader_tag _ _).trans (correlateReply_tag ctx p)
  · simp only [hs]
    exact encodeHeader_tag ctx p

theorem signMember_quiet (ctx : Context) (p : Pdu) : Quiet G ctx (signMember K ctx p).1 := by
  unfold signMember
  split
  · exact pduAddSignature_quiet ctx p
  · exact .refl _

theorem signMember_tag (ctx : Context) (p : Pdu) : (signMember K ctx p).2.tag = p.tag := by
  unfold signMember
  split
  · exact pduAddSignature_tag ctx p
  · rfl

theorem queueMember_quiet (ctx : Context) (mid : Nat) (p : Pdu) (hG : ctx.isServer = true → G) :
    Quiet G ctx (queueMember K ctx mid p).1 :=
  (encodeMember_quiet ctx mid p hG).trans (signMember_quiet _ _)

theorem queueMember_tag (ctx : Context) (mid : Nat) (p : Pdu) :
    (queueMember K ctx mid p).2.tag = p.tag :=
  (signMember_tag _ _).trans (encodeMember_tag ctx mid p)

theorem queueMembers_quiet (ps : List Pdu) (ctx : Context) (mid : Nat)
    (hG : ctx.isServer = true → G) : Quiet G ctx (queueMembers K ctx mid ps).1 := by
  induction ps generalizing ctx mid with
  | nil => exact .refl _
  | cons p ps ih =>
    have hq := queueMember_quiet (K := K) ctx mid p hG
    refine hq.trans (ih _ _ ?_)
    intro hs
    rw [hq.isServer] at hs
    exact hG hs

theorem queueMembers_tag (ps : List Pdu) (ctx : Context) (mid : Nat) :
    (queueMembers K ctx mid ps).2.map Pdu.tag = ps.map Pdu.tag := by
  induction ps generalizing ctx mid with
  | nil => rfl
  | cons p ps ih =>
    simp only [queueMembers, List.map_cons, List.cons.injEq]
    exact ⟨queueMember_tag ctx mid p, ih _ _⟩

/-- Sealing overflows its buffer, or is quiet. -/
theorem encryptPdu_quiet (ctx : Context) (c : Chain) :
    Crashes ctx (encryptPdu K ctx c).1 ∨ Quiet G ctx (encryptPdu K ctx c).1 := by
  refine encryptPdu_cases K ctx c ?_ ?_ ?_ ?_
  · exact .inr (.refl _)
  · exact .inl (.raise ctx (by decide))
  · exact .inr (.of_same rfl rfl rfl rfl rfl rfl rfl rfl rfl
      ⟨List.tail_suffix _, List.suffix_refl _⟩ (.push (.inl rfl)))
  · exact .inr (.of_same rfl rfl rfl rfl rfl rfl rfl rfl rfl (.popMem ctx) (.push (.inl rfl)))

theorem encryptPdu_tag (ctx : Context) (c : Chain) :
    (encryptPdu K ctx c).2.members.map Pdu.tag = c.members.map Pdu.tag :=
  encryptPdu_cases K ctx c rfl rfl rfl rfl

/-- **Preparing a chain** overflows a buffer, or changes nothing but the counters. -/
theorem preparePdu_quiet (ctx : Context) (c : Chain) (hG : ctx.isServer = true → G) :
    Crashes ctx (preparePdu K ctx c).1 ∨ Quiet G ctx (preparePdu K ctx c).1 := by
  unfold preparePdu
  simp only
  generalize (if ctx.isServer then markReply c.head else c.head) = head
  have hq := queueMember_quiet (K := K) ctx 0 head hG
  have hqs : Quiet G ctx (queueMembers K (queueMember K ctx 0 head).1
      (queueMember K ctx 0 head).2.header.messageId c.rest).1 := by
    refine hq.trans (queueMembers_quiet _ _ _ ?_)
    intro hs
    rw [hq.isServer] at hs
    exact hG hs
  rcases encryptPdu_quiet (G := G) (K := K) _ _ with he | he
  · exact .inl (.after hqs he)
  · exact .inr (hqs.trans he)

theorem preparePdu_tag (ctx : Context) (c : Chain) :
    (preparePdu K ctx c).2.members.map Pdu.tag = c.members.map Pdu.tag := by
  have hhead : (if ctx.isServer then markReply c.head else c.head).tag = c.head.tag := by
    split <;> rfl
  unfold preparePdu
  simp only
  rw [encryptPdu_tag]
  simp only [Chain.members, List.map_cons, queueMember_tag, queueMembers_tag, hhead]

end

/-! ## The steps -/

/-- The context after the chain `c` that the application held has been put on the out
queue. -/
def submitted (K : Crypto) (ctx : Context) (id : Nat) (c : Chain) : Context :=
  let x := preparePdu K ((ctx.dropHeld id).emit (.queued c ctx.security)) c
  { x.1 with outqueue := x.1.outqueue ++ [x.2], log := x.1.log ++ [.enqueued x.2] }

/-- The context after two chains that the application held have been joined. -/
def joined (ctx : Context) (a b : Nat) (c next : Chain) : Context :=
  { (ctx.dropHeld a).dropHeld b with
    held := ((ctx.dropHeld a).dropHeld b).held ++ [addCompoundPdu c next] }

/-- **The atomic changes in the life of a request.** -/
inductive Step (K : Crypto) (G : Prop) : Context → Context → Prop
  | quiet {ctx ctx' : Context} (hq : Quiet G ctx ctx') : Step K G ctx ctx'
  | crash {ctx ctx' : Context} (hc : Crashes ctx ctx') : Step K G ctx ctx'
  | alloc (ctx : Context) (p : Pdu) (hid : p.id = ctx.nextId) (hn : p.numDone = 0)
      (hw : p.header.WellFormed) :
      Step K G ctx { ctx with held := ctx.held ++ [.single p], nextId := ctx.nextId + 1 }
  | compound (ctx : Context) (a b : Nat) (c next : Chain) (hc : ctx.findHeld a = some c)
      (hn : (ctx.dropHeld a).findHeld b = some next) : Step K G ctx (joined ctx a b c next)
  | submit (ctx : Context) (id : Nat) (c : Chain) (hc : ctx.findHeld id = some c)
      (hf : ctx.fault = none) (hf' : (submitted K ctx id c).fault = none) :
      Step K G ctx (submitted K ctx id c)
  | refuse (ctx : Context) (id : Nat) (c : Chain) (hG : G) (hc : ctx.findHeld id = some c) :
      Step K G ctx ((ctx.dropHeld id).emit (.queued c ctx.security))
  | offer (ctx : Context) (c : Chain) (rest : List Chain) (hq : ctx.outqueue = c :: rest) :
      Step K G ctx (ctx.emit (.offered c ctx.security))
  | accept (ctx : Context) (c : Chain) (rest : List Chain) (n : Nat)
      (hq : ctx.outqueue = c :: rest) (hlt : c.head.numDone < c.frame.length) :
      Step K G ctx (accepted ctx c rest n)
  | finish (ctx : Context) (q : Queue) (p : Pdu) (status : Nat) (hp : p ∈ ctx.heads q) :
      Step K G ctx ((ctx.unlink q p.id).emit (.completed p.id status))
  | forgo (ctx : Context) (q : Queue) (p : Pdu) (hp : p ∈ ctx.heads q) (hcb : p.cb = .none) :
      Step K G ctx ((ctx.unlink q p.id).freePdu p.id)
  | purge (ctx : Context) (id status : Nat) (hd : .completed id status ∈ ctx.log) :
      Step K G ctx (ctx.freePdu id)

abbrev Steps (K : Crypto) (G : Prop) : Context → Context → Prop := ReflTransGen (Step K G)

section
variable {G : Prop} {K : Crypto}

theorem writeTurn_offer {ctx : Context} {c : Chain} {rest : List Chain}
    (e : writeTurn ctx = .offer c rest) :
    ctx.outqueue = c :: rest ∧ c.head.numDone < c.frame.length := by
  unfold writeTurn at e
  split at e
  · cases e
  · rename_i c' rest' hq
    split at e
    · cases e
    · split at e
      · cases e
      · split at e
        · cases e
        · cases e
          exact ⟨hq, by omega⟩

theorem setTx_quiet (ctx : Context) (tx : List WriteResult) : Quiet G ctx (ctx.setTx tx) :=
  .of_same rfl rfl rfl rfl rfl rfl rfl rfl rfl ⟨List.suffix_refl _, List.suffix_refl _⟩ (.refl _)

/-- All that sending the members of a chain changes. -/
theorem sentMembers_eq (ctx : Context) (ps : List Pdu) : ∃ credits ledger,
    sentMembers ctx ps = { ctx with
      credits := credits
      ledger := ledger
      waitqueue := if ctx.isServer then ctx.waitqueue else ctx.waitqueue ++ ps } := by
  induction ps generalizing ctx with
  | nil =>
    refine ⟨ctx.credits, ctx.ledger, ?_⟩
    simp only [sentMembers, List.append_nil, ite_self]
  | cons p ps ih =>
    unfold sentMembers
    split
    · rename_i hs
      obtain ⟨credits, ledger, he⟩ := ih { ctx with credits := 128 }
      exact ⟨credits, ledger, by rw [he]; simp only [hs, if_true]⟩
    · rename_i hs
      obtain ⟨credits, ledger, he⟩ := ih ({ ctx with
        credits := ctx.credits - realCreditCharge ctx p.header
        waitqueue := ctx.waitqueue ++ [p] }.post (.moved p))
      exact ⟨credits, ledger, by rw [he]; simp [hs, Context.post]⟩

/-- The first chain after the transport has taken octets of it. -/
def Chain.advance (c : Chain) (n : Nat) : Chain :=
  { c with head := { c.head with
    numDone := c.head.numDone + min n (c.frame.length - c.head.numDone) } }

theorem Chain.advance_ids (c : Chain) (n : Nat) : (c.advance n).ids = c.ids := rfl

/-- **All that an accepted write changes**: the first chain was sent, or it has advanced. -/
theorem accepted_eq (ctx : Context) (c : Chain) (rest : List Chain) (n : Nat) :
    ∃ wire credits ledger, accepted ctx c rest n = { ctx with
        wire := wire
        outqueue := rest
        credits := credits
        ledger := ledger
        waitqueue := if ctx.isServer then ctx.waitqueue
          else ctx.waitqueue ++ (c.advance n).members } ∨
      accepted ctx c rest n = { ctx with wire := wire, outqueue := c.advance n :: rest } := by
  unfold accepted
  simp only
  split
  · obtain ⟨credits, ledger, he⟩ := sentMembers_eq { ctx with
      wire := ctx.wire ++ slice c.frame c.head.numDone (min n (c.frame.length - c.head.numDone))
      outqueue := rest } (c.advance n).members
    exact ⟨_, credits, ledger, .inl he⟩
  · exact ⟨_, ctx.credits, ctx.ledger, .inr rfl⟩

/-- **The rule of the write loop**: what each answer of the transport keeps, while `I` holds. -/
structure WriteRule (I : Context → Prop) (R : Context → Context → Prop) : Prop where
  idle : ∀ {ctx : Context}, I ctx → R ctx ctx
  overrun : ∀ {ctx : Context}, I ctx → R ctx (ctx.raise .vectorOverrun)
  blocked : ∀ {ctx : Context} {c : Chain} {rest : List Chain} (tx : List WriteResult), I ctx →
    writeTurn ctx = .offer c rest → R ctx ((ctx.emit (.offered c ctx.security)).setTx tx)
  taken : ∀ {ctx : Context} {c : Chain} {rest : List Chain} (n : Nat) (tx : List WriteResult),
    I ctx → writeTurn ctx = .offer c rest →
      I ((accepted (ctx.emit (.offered c ctx.security)) c rest n).setTx tx) ∧
        ∀ ctx', R ((accepted (ctx.emit (.offered c ctx.security)) c rest n).setTx tx) ctx' →
          R ctx ctx'

namespace WriteRule

variable {I : Context → Prop} {R : Context → Context → Prop}

theorem writeLoop_rel (hr : WriteRule I R) (tx : List WriteResult) {ctx : Context} (hi : I ctx) :
    R ctx (writeLoop tx ctx).1 := by
  induction tx generalizing ctx with
  | nil =>
    unfold writeLoop
    split
    · exact hr.overrun hi
    · exact hr.idle hi
  | cons r tx ih =>
    unfold writeLoop
    split
    · exact hr.idle hi
    · exact hr.overrun hi
    · rename_i c rest e
      simp only
      split
      · exact hr.blocked tx hi e
      · exact hr.blocked tx hi e
      · rename_i n
        obtain ⟨hnext, hstep⟩ := hr.taken n tx hi e
        exact hstep _ (ih hnext)

theorem writeToSocket_rel (hr : WriteRule I R) {ctx : Context} (hi : I ctx) :
    R ctx (writeToSocket ctx).1 := by
  unfold writeToSocket
  split
  · exact hr.writeLoop_rel _ hi
  · split
    · exact hr.idle hi
    · exact hr.writeLoop_rel _ hi

/-- A preorder that every change of the loop is in. -/
theorem of_trans (refl : ∀ ctx, R ctx ctx) (trans : ∀ {a b c}, R a b → R b c → R a c)
    (raise : ∀ ctx, R ctx (ctx.raise .vectorOverrun))
    (offer : ∀ {ctx c rest}, writeTurn ctx = .offer c rest →
      R ctx (ctx.emit (.offered c ctx.security)))
    (accept : ∀ {ctx : Context} {c : Chain} {rest : List Chain} (n : Nat),
      ctx.outqueue = c :: rest → c.head.numDone < c.frame.length →
        R ctx (accepted ctx c rest n))
    (setTx : ∀ (ctx : Context) (tx : List WriteResult), R ctx (ctx.setTx tx)) :
    WriteRule (fun _ => True) R where
  idle _ := refl _
  overrun _ := raise _
  blocked tx _ e := trans (offer e) (setTx _ tx)
  taken n tx _ e := by
    obtain ⟨hq, hlt⟩ := writeTurn_offer e
    exact ⟨trivial, fun _ h => trans (offer e) (trans (accept n hq hlt) (trans (setTx _ tx) h))⟩

end WriteRule

/-- **Writing is a sequence of steps.** -/
theorem writeToSocket_steps (ctx : Context) : Steps K G ctx (writeToSocket ctx).1 :=
  (WriteRule.of_trans (R := Steps K G) (fun _ => .refl) .trans
    (fun ctx => .single (.crash (.raise ctx (by decide))))
    (fun e => .single (.offer _ _ _ (writeTurn_offer e).1))
    (fun n hq hlt => .single (.accept _ _ _ n hq hlt))
    (fun _ tx => .single (.quiet (setTx_quiet _ tx)))).writeToSocket_rel trivial

theorem queuePdu_steps {ctx : Context} {id : Nat} {c : Chain} (hG : ctx.isServer = true → G)
    (hf : ctx.fault = none) (hc : ctx.findHeld id = some c) :
    Steps K G ctx (queuePdu K (ctx.dropHeld id) c) := by
  unfold queuePdu
  simp only
  split
  · rename_i hrefuse
    simp only [Bool.and_eq_true] at hrefuse
    exact .single (.refuse ctx id c (hG hrefuse.1.1) hc)
  · have hprep := preparePdu_quiet (G := G) (K := K)
      ((ctx.dropHeld id).emit (.queued c (ctx.dropHeld id).security)) c hG
    split
    · rename_i hok
      have hsub := Step.submit (K := K) (G := G) ctx id c hc hf hok
      unfold addToOutqueue
      simp only
      split
      · exact .head hsub (writeToSocket_steps _)
      · exact .single hsub
    · rename_i hbad
      rcases hprep with hov | hq
      · exact .single (.crash ⟨hbad, hov.fuel, hov.pdu, hov.isServer, hov.passthrough, hov.env,
          hov.nextId, (List.prefix_append _ _).trans hov.log⟩)
      · exact absurd (hq.fault.trans hf) hbad

/-- Frees that nobody asked the callback about. -/
def Action.isFree : Action → Bool
  | .free _ => true
  | _ => false

/-- A request is allocated, and the ledger says so. -/
theorem alloc_steps (ctx : Context) (p : Pdu) (hid : p.id = ctx.nextId) (hn : p.numDone = 0)
    (hw : p.header.WellFormed) :
    Steps K G ctx ({ ctx with
      held := ctx.held ++ [Chain.single p]
      nextId := ctx.nextId + 1 }.post (.asked p ctx.unsent)) :=
  .head (.alloc ctx p hid hn hw)
    (.single (.quiet (.of_same rfl rfl rfl rfl rfl rfl rfl rfl rfl (.refl _) (.refl _))))

theorem perform_steps {ctx : Context} (a : Action)
    (hG : ctx.isServer = true ∨ a.isFree = true → G) (hf : ctx.fault = none) :
    Steps K G ctx (perform K ctx a) := by
  cases a with
  | alloc command body cb creditCharge inIov =>
    have hpop : Quiet G ctx ctx.popMem :=
      .of_same rfl rfl rfl rfl rfl rfl rfl rfl rfl (.popMem ctx) (.refl _)
    simp only [perform, Context.allocatePdu]
    by_cases hm : ctx.allocOk = true
    · simp only [hm, if_true]
      refine .head (.quiet hpop) ?_
      apply alloc_steps ctx.popMem (marshal _ body creditCharge inIov)
      · rfl
      · rfl
      · exact ⟨rfl, rfl⟩
    · simp only [hm]
      exact .single (.quiet hpop)
  | compound pdu nextPdu =>
    simp only [perform]
    split
    · rename_i c next hc hn
      exact .single (.compound ctx pdu nextPdu c next hc hn)
    · exact .single (.crash (.raise ctx (by decide)))
  | queue pdu =>
    simp only [perform]
    split
    · rename_i c hc
      exact queuePdu_steps (fun hs => hG (.inl hs)) hf hc
    · exact .single (.crash (.raise ctx (by decide)))
  | free pdu =>
    have hG' : G := hG (.inr rfl)
    have hdrop : Quiet G ctx (ctx.dropHeld pdu) := by
      refine ⟨⟨fun _ => true, ?_, ?_⟩, ⟨fun _ => true, ?_⟩, fun _ => List.Sublist.refl _,
        ⟨fun c => c.head.id != pdu, rfl⟩, fun hn => absurd hG' hn, rfl, rfl, rfl, rfl, rfl, rfl, .refl _, .refl _⟩
      · simp [Context.dropHeld]
      · simp
      · simp [Context.dropHeld]
    simp only [perform]
    split
    · exact .single (.quiet (hdrop.trans (.noteRelease _ _ _)))
    · split
      · exact .single (.quiet ((Quiet.freePdu hG' ctx pdu).trans (.noteRelease _ _ _)))
      · split
        · exact .single (.quiet (.of_same rfl rfl rfl rfl rfl rfl rfl rfl rfl (.refl _) (.refl _)))
        · exact .single (.crash (.raise ctx (by decide)))
  | setSign b =>
    exact .single (.quiet (.of_same rfl rfl rfl rfl rfl rfl rfl rfl rfl (.refl _)
      (.refl _)))
  | setSeal b =>
    exact .single (.quiet (.of_same rfl rfl rfl rfl rfl rfl rfl rfl rfl (.refl _)
      (.refl _)))
  | setTimeout t =>
    exact .single (.quiet (.of_same rfl rfl rfl rfl rfl rfl rfl rfl rfl (.refl _)
      (.refl _)))
  | tick t =>
    exact .single (.quiet (.of_same rfl rfl rfl rfl rfl rfl rfl rfl rfl (.refl _)
      (.refl _)))
  | close =>
    exact .single (.quiet (.of_same rfl rfl rfl rfl rfl rfl rfl rfl rfl (.refl _)
      (.push (.inl rfl))))

theorem notePasses_quiet (ctx : Context) (a : Action) : Quiet G ctx (ctx.notePasses a) := by
  refine .of_same rfl rfl rfl rfl rfl rfl rfl rfl rfl (.refl _) ⟨ctx.passes a, rfl, ?_⟩
  intro e he
  left
  obtain ⟨_, _, rfl⟩ := Context.of_mem_passes he
  rfl

/-- **A call of the application is a sequence of steps.** -/
theorem act_steps {ctx : Context} (a : Action) (hG : ctx.isServer = true ∨ a.isFree = true → G)
    (hf : ctx.fault = none) : Steps K G ctx (act K ctx a) :=
  .head (.quiet (notePasses_quiet ctx a)) (perform_steps a hG hf)

/-- What every step keeps. -/
structure Keeps (ctx ctx' : Context) : Prop where
  pdu : ctx'.pdu = ctx.pdu
  isServer : ctx'.isServer = ctx.isServer
  passthrough : ctx'.passthrough = ctx.passthrough
  env : Consumes ctx.env ctx'.env
  fault : ctx'.fault = ctx.fault ∨ (ctx'.fault ≠ none ∧ ctx'.fault ≠ some .outOfFuel)
  log : ctx.log <+: ctx'.log

theorem Quiet.keeps {ctx ctx' : Context} (hq : Quiet G ctx ctx') : Keeps ctx ctx' :=
  ⟨hq.pdu, hq.isServer, hq.passthrough, hq.env, .inl hq.fault, hq.log.isPrefix⟩

theorem accepted_keeps (ctx : Context) (c : Chain) (rest : List Chain) (n : Nat) :
    Keeps ctx (accepted ctx c rest n) := by
  rcases accepted_eq ctx c rest n with ⟨wire, credits, ledger, he | he⟩ <;>
    exact he ▸ ⟨rfl, rfl, rfl, .refl _, .inl rfl, List.prefix_refl _⟩

theorem accepted_fault (ctx : Context) (c : Chain) (rest : List Chain) (n : Nat) :
    (accepted ctx c rest n).fault = ctx.fault := by
  rcases accepted_eq ctx c rest n with ⟨wire, credits, ledger, he | he⟩ <;> rw [he]

theorem unlink_keeps (ctx : Context) (q : Queue) (id : Nat) : Keeps ctx (ctx.unlink q id) := by
  cases q <;> exact ⟨rfl, rfl, rfl, .refl _, .inl rfl, List.prefix_append _ _⟩

theorem Step.keeps {ctx ctx' : Context} (hs : Step K G ctx ctx') : Keeps ctx ctx' := by
  cases hs with
  | quiet hq => exact hq.keeps
  | crash hc => exact ⟨hc.pdu, hc.isServer, hc.passthrough, hc.env, .inr ⟨hc.fault, hc.fuel⟩,
      hc.log⟩
  | alloc p hid hn hw => exact ⟨rfl, rfl, rfl, .refl _, .inl rfl, List.prefix_refl _⟩
  | compound a b c next hc hn => exact ⟨rfl, rfl, rfl, .refl _, .inl rfl, List.prefix_refl _⟩
  | submit id c hc hf hf' =>
    have hprep := preparePdu_quiet (G := True) (K := K)
      ((ctx.dropHeld id).emit (.queued c ctx.security)) c (fun _ => trivial)
    rcases hprep with hov | hq
    · exact absurd hf' hov.fault
    · refine ⟨hq.pdu, hq.isServer, hq.passthrough, hq.env, .inl hq.fault, ?_⟩
      exact ((List.prefix_append _ _).trans hq.log.isPrefix).trans (List.prefix_append _ _)
  | refuse id c hG hc => exact ⟨rfl, rfl, rfl, .refl _, .inl rfl, List.prefix_append _ _⟩
  | offer c rest hq => exact ⟨rfl, rfl, rfl, .refl _, .inl rfl, List.prefix_append _ _⟩
  | accept c rest n hq hlt => exact accepted_keeps ctx c rest n
  | finish q p status hp =>
    have hk := unlink_keeps ctx q p.id
    exact ⟨hk.pdu, hk.isServer, hk.passthrough, hk.env, hk.fault,
      hk.log.trans (List.prefix_append _ _)⟩
  | forgo q p hp hcb =>
    have hk := unlink_keeps ctx q p.id
    exact ⟨hk.pdu, hk.isServer, hk.passthrough, hk.env, hk.fault,
      hk.log.trans (List.prefix_append _ _)⟩
  | purge id status hd => exact ⟨rfl, rfl, rfl, .refl _, .inl rfl, List.prefix_append _ _⟩

theorem Keeps.trans {a b c : Context} (h₁ : Keeps a b) (h₂ : Keeps b c) : Keeps a c where
  pdu := h₂.pdu.trans h₁.pdu
  isServer := h₂.isServer.trans h₁.isServer
  passthrough := h₂.passthrough.trans h₁.passthrough
  env := h₁.env.trans h₂.env
  fault := by
    rcases h₂.fault with hf | hf
    · rw [hf]
      exact h₁.fault
    · exact .inr hf
  log := h₁.log.trans h₂.log

theorem Steps.keeps {ctx ctx' : Context} (hs : Steps K G ctx ctx') : Keeps ctx ctx' := by
  induction hs with
  | refl => exact ⟨rfl, rfl, rfl, .refl _, .inl rfl, List.prefix_refl _⟩
  | tail _ hstep ih => exact ih.trans hstep.keeps

/-! ## Callbacks and loops -/

/-- `G` covers the frees of a server and of these calls. -/
def Covers (G : Prop) (ctx : Context) : Prop :=
  ctx.isServer = true ∨ (∃ as ∈ ctx.env.reactions, ∃ a ∈ as, a.isFree = true) → G

theorem Covers.keep {ctx ctx' : Context} (hG : Covers G ctx) (hk : Keeps ctx ctx') :
    Covers G ctx' := by
  intro h
  refine hG ?_
  rcases h with hs | ⟨as, has, ha⟩
  · exact .inl (hk.isServer ▸ hs)
  · exact .inr ⟨as, hk.env.reactions.subset has, ha⟩

/-- A callback that runs in a context with a fault leaves the fault as it is. -/
theorem runActions_of_fault {ctx : Context} (as : List Action) (hf : ctx.fault ≠ none) :
    runActions K ctx as = ctx := by
  cases as with
  | nil => rfl
  | cons a as => simp only [runActions, hf, if_false]

theorem runActions_steps (as : List Action) (ctx : Context)
    (hG : ctx.isServer = true ∨ (∃ a ∈ as, a.isFree = true) → G) :
    Steps K G ctx (runActions K ctx as) := by
  induction as generalizing ctx with
  | nil => exact .refl
  | cons a as ih =>
    unfold runActions
    split
    · rename_i hf
      have hact : Steps K G ctx (act K ctx a) := by
        refine act_steps a ?_ hf
        rintro (hs | ha)
        · exact hG (.inl hs)
        · exact hG (.inr ⟨a, List.mem_cons_self .., ha⟩)
      refine hact.trans (ih _ ?_)
      rintro (hs | ⟨b, hb, hfree⟩)
      · exact hG (.inl (hact.keeps.isServer ▸ hs))
      · exact hG (.inr ⟨b, List.mem_cons_of_mem _ hb, hfree⟩)
    · exact .refl

/-- **A callback is a sequence of steps.** -/
theorem react_steps (ctx : Context) (hG : Covers G ctx) : Steps K G ctx (react K ctx) := by
  unfold react
  split
  · exact .refl
  · rename_i as rest hr
    have hpop : Quiet G ctx (ctx.setReactions rest) := by
      refine .of_same rfl rfl rfl rfl rfl rfl rfl rfl rfl ⟨List.suffix_refl _, ?_⟩ (.refl _)
      rw [hr]
      exact List.suffix_cons _ _
    refine .head (.quiet hpop) (runActions_steps as _ ?_)
    rintro (hs | ha)
    · exact hG (.inl hs)
    · refine hG (.inr ⟨as, ?_, ha⟩)
      rw [hr]
      exact List.mem_cons_self ..

theorem breakAck_not_free {ctx : Context} {p : Pdu} {status : Nat} {a : Action}
    (ha : a ∈ breakAck ctx p status) : a.isFree = false := by
  unfold breakAck at ha
  split at ha
  · split at ha
    · split at ha
      · rcases List.mem_cons.mp ha with rfl | ha
        · rfl
        · split at ha
          · rw [List.mem_singleton.mp ha]
            rfl
          · cases ha
      · cases ha
    · cases ha
  · cases ha

theorem popBreak_quiet (ctx : Context) : Quiet G ctx ctx.popBreak :=
  .of_same rfl rfl rfl rfl rfl rfl rfl rfl rfl ⟨List.suffix_refl _, List.suffix_refl _⟩ (.refl _)

/-- **The callback of a reply is a sequence of steps.** -/
theorem invokeCallback_steps (p : Pdu) (status : Nat) (ctx : Context) (hG : Covers G ctx) :
    Steps K G (ctx.emit (.completed p.id status)) (invokeCallback K p status ctx) := by
  have happ := react_steps (K := K) (ctx.emit (.completed p.id status)) hG
  refine (happ.tail (.quiet (popBreak_quiet _))).trans (runActions_steps _ _ ?_)
  rintro (hs | ⟨a, ha, hfree⟩)
  · exact hG (.inl (happ.keeps.isServer ▸ hs))
  · rw [breakAck_not_free ha] at hfree
    cases hfree

end

end Libsmb2
