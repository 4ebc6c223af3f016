import Libsmb2.Lifecycle.Loops
import Libsmb2.Receive.Rule

/-!
# Runs of a context

`runOps` is any interleaving of calls of the application, writes, reads and timeouts;
`lifetime` is one that ends with `smb2_destroy_context`.  A run that has reached undefined
behaviour goes no further.

* `runOps_steady` — an invariant that is kept by the steps of the queues and by the steps of
  the receive path holds in every state that a run reaches.
-/

set_option autoImplicit false

namespace Libsmb2

open Util Relation

/-- The application's callbacks. -/
def appHooks (K : Crypto) (D : Decoders) : Hooks where
  decodeFixed := D.decodeFixed
  decodeVariable := D.decodeVariable
  invoke _ p status ctx := invokeCallback K p status ctx
  invoke_isServer _ p status ctx :=
    (invokeCallback_steps (G := True) p status ctx (fun _ => trivial)).keeps.isServer
  invoke_pdu _ p status ctx :=
    (invokeCallback_steps (G := True) p status ctx (fun _ => trivial)).keeps.pdu

inductive Op
  /-- A call of the application. -/
  | act (a : Action)
  /-- `smb2_write_to_socket`. -/
  | write
  /-- Calls of `smb2_read_from_socket` on a transport with these octets. -/
  | recv (rs : List Recv) (bs : Bytes)
  /-- `smb2_timeout_pdus`. -/
  | timeout
  deriving DecidableEq, Repr

/-- A context in use.  After a failed read it must not be read from again. -/
structure Session where
  smb2 : Smb2 := {}
  broken : Bool := false
  deriving DecidableEq, Repr

namespace Session

def ctx (s : Session) : Context := s.smb2.ctx

def setCtx (s : Session) (ctx : Context) : Session :=
  { s with smb2 := { s.smb2 with ctx := ctx } }

/-- A sequence of reads has come to this end. -/
def absorb : Outcome → Session
  | .waiting s _ => { smb2 := s }
  | .failed _ s _ => { smb2 := s, broken := true }
  | .faulted f s _ => { smb2 := { s with ctx := s.ctx.raise f }, broken := true }

end Session

def runOp (K : Crypto) (D : Decoders) (s : Session) : Op → Session
  | .act a => s.setCtx (act K s.ctx a)
  | .write => s.setCtx (writeToSocket s.ctx).1
  | .recv rs bs =>
    if s.broken then s else .absorb (readFromSocket (appHooks K D) K rs bs s.smb2 {})
  | .timeout => s.setCtx (timeoutPdus K s.ctx)

def runOps (K : Crypto) (D : Decoders) : Session → List Op → Session
  | s, [] => s
  | s, op :: ops => if s.ctx.fault = none then runOps K D (runOp K D s op) ops else s

/-- A run that ends with the destruction of the context. -/
def lifetime (K : Crypto) (D : Decoders) (s : Session) (ops : List Op) : Context :=
  let s := runOps K D s ops
  if s.ctx.fault = none then destroyContext K s.ctx else s.ctx

/-- A context that has just been set up: any configuration, no requests. -/
structure Blank (s : Session) : Prop where
  outqueue : s.ctx.outqueue = []
  waitqueue : s.ctx.waitqueue = []
  held : s.ctx.held = []
  pdu : s.ctx.pdu = none
  wire : s.ctx.wire = []
  log : s.ctx.log = []
  fault : s.ctx.fault = none
  numDone : s.smb2.rx.numDone = 0

theorem Blank.distinct {s : Session} (hb : Blank s) : Distinct s.ctx := by
  have hocc : ∀ i, s.ctx.occurs i = 0 := by
    intro i
    simp [Context.occurs, hb.held, hb.outqueue, hb.waitqueue]
  exact ⟨fun i => by rw [hocc]; omega, fun i _ => hocc i⟩

theorem Blank.idle {s : Session} (hb : Blank s) : Idle s.smb2 := .of_none hb.pdu

/-- The calls of a run, those of its callbacks included, that free requests. -/
def freesRequests (s : Session) (ops : List Op) : Prop :=
  (∃ as ∈ s.ctx.env.reactions, ∃ a ∈ as, a.isFree = true) ∨
    ∃ a, .act a ∈ ops ∧ a.isFree = true

section
variable {K : Crypto} {D : Decoders} {G I : Prop}

/-! ## The receive path and the queues -/

/-- What every step of a run keeps, whatever it is. -/
structure Grows (ctx ctx' : Context) : Prop where
  isServer : ctx'.isServer = ctx.isServer
  passthrough : ctx'.passthrough = ctx.passthrough
  env : Consumes ctx.env ctx'.env
  fault : ctx'.fault = none → ctx.fault = none
  log : ctx.log <+: ctx'.log

variable {ctx ctx' : Context}

theorem Grows.of_same (hsv : ctx'.isServer = ctx.isServer)
    (hpt : ctx'.passthrough = ctx.passthrough) (henv : Consumes ctx.env ctx'.env)
    (hf : ctx'.fault = ctx.fault) (hlog : ctx.log <+: ctx'.log) : Grows ctx ctx' :=
  ⟨hsv, hpt, henv, fun h => hf ▸ h, hlog⟩

theorem Grows.refl (ctx : Context) : Grows ctx ctx :=
  .of_same rfl rfl (.refl _) rfl (List.prefix_refl _)

theorem Grows.trans {a b c : Context} (h₁ : Grows a b) (h₂ : Grows b c) : Grows a c where
  isServer := h₂.isServer.trans h₁.isServer
  passthrough := h₂.passthrough.trans h₁.passthrough
  env := h₁.env.trans h₂.env
  fault hf := h₁.fault (h₂.fault hf)
  log := h₁.log.trans h₂.log

theorem Keeps.grows (hk : Keeps ctx ctx') : Grows ctx ctx' :=
  ⟨hk.isServer, hk.passthrough, hk.env, hk.fault_before, hk.log⟩

theorem freePdu_grows (ctx : Context) (id : Nat) : Grows ctx (ctx.freePdu id) :=
  .of_same rfl rfl (.refl _) rfl (List.prefix_append _ _)

theorem retirePdu_grows (ctx : Context) (p : Pdu) : Grows ctx (ctx.retirePdu p) := by
  unfold Context.retirePdu
  split
  · exact .of_same rfl rfl (.refl _) rfl (List.prefix_refl _)
  · exact .of_same rfl rfl (.refl _) rfl (List.prefix_append _ _)

theorem emit_grows (ctx : Context) (e : Event) : Grows ctx (ctx.emit e) :=
  .of_same rfl rfl (.refl _) rfl (List.prefix_append _ _)

theorem invokeApp_grows (p : Pdu) (status : Nat) (ctx : Context) :
    Grows ctx (invokeApp K p status ctx) :=
  (emit_grows ctx _).trans (react_steps (G := True) _ (fun _ => trivial)).keeps.grows

theorem expire_log (q : Queue) (p : Pdu) (ctx : Context) : ctx.log <+: (expire K q p ctx).log := by
  have hu := (unlink_keeps ctx q p.id).log
  have hcall := (invokeApp_grows (K := K) p STATUS_IO_TIMEOUT (ctx.unlink q p.id)).log
  unfold expire
  split
  · exact List.prefix_refl _
  · simp only
    split
    · exact (hu.trans hcall).trans (List.prefix_append _ _)
    · exact hu.trans hcall

theorem timeoutLoop_log {q : Queue} {t : Nat} (fuel : Nat) (cur : Option Nat) (ctx : Context) :
    ctx.log <+: (timeoutLoop K q t fuel cur ctx).log := by
  induction fuel generalizing cur ctx with
  | zero => cases cur <;> exact List.prefix_refl _
  | succ fuel ih =>
    cases cur with
    | none => exact List.prefix_refl _
    | some id =>
      unfold timeoutLoop
      split
      · exact List.prefix_refl _
      · rename_i p tail _
        simp only
        split
        · have hexp := (List.prefix_append ctx.log _).trans
            (expire_log (K := K) q p (ctx.emit (.lapsed (ctx.lapse q p (tail.head?.map Pdu.id)))))
          split
          · exact hexp.trans (ih _ _)
          · exact hexp
        · exact ih _ _

theorem timeoutPdus_log (ctx : Context) : ctx.log <+: (timeoutPdus K ctx).log := by
  unfold timeoutPdus
  simp only
  split
  · exact (timeoutLoop_log ..).trans (timeoutLoop_log ..)
  · exact timeoutLoop_log ..

theorem invokeCallback_grows (p : Pdu) (status : Nat) (ctx : Context) :
    Grows ctx (invokeCallback K p status ctx) :=
  (emit_grows ctx _).trans
    (invokeCallback_steps (G := True) p status ctx (fun _ => trivial)).keeps.grows

/-- The request that a reply belongs to has been found, or made. -/
theorem matchReply_grows (ctx : Context) (hdr : Header) : Grows ctx (matchReply ctx hdr).ctx := by
  have hdrop : Grows ctx (dropPdu ctx) := by
    unfold dropPdu
    split
    · rename_i q _
      exact (freePdu_grows ctx q.id).trans (.of_same rfl rfl (.refl _) rfl (List.prefix_refl _))
    · exact .refl ctx
  have hl := matchReply_lookup ctx hdr
  generalize matchReply ctx hdr = m at hl ⊢
  cases hl with
  | current p hu hp => exact .refl ctx
  | noMemory hu hp => exact .of_same rfl rfl (.popMem ctx) rfl (List.prefix_refl _)
  | made p hu hp hid hown => exact .of_same rfl rfl (.popMem ctx) rfl (List.prefix_refl _)
  | _ => exact hdrop.trans (.of_same rfl rfl (.refl _) rfl (List.prefix_refl _))

theorem CtxStep.grows (hs : CtxStep (appHooks K D) I ctx ctx') :
    Grows ctx ctx' := by
  cases hs with
  | note hdr =>
    obtain ⟨cur, mid, he⟩ := noteHeader_eq ctx hdr
    rw [he]
    exact .of_same rfl rfl (.refl _) rfl (List.prefix_refl _)
  | grant hdr =>
    unfold grantCredits
    split
    · exact .refl ctx
    · exact .of_same rfl rfl (.refl _) rfl (List.prefix_refl _)
  | adopt p hdr hsv hp => exact .of_same rfl rfl (.refl _) rfl (List.prefix_refl _)
  | matched hdr hc hp => exact matchReply_grows ctx hdr
  | decoded p d hp =>
    obtain ⟨_, _, _, _, he⟩ := applyEffects_eq ctx d.effects
    simp only [applyDecoded, he]
    exact .of_same rfl rfl (.refl _) rfl (List.prefix_refl _)
  | opened => exact emit_grows ctx _
  | replied rx p hc hp hcb hst hap =>
    exact (invokeCallback_grows p rx.hdr.status ctx).trans ((retirePdu_grows _ p).trans
      (.of_same rfl rfl (.refl _) rfl (List.prefix_refl _)))
  | served rx p hsv hp hcb =>
    have h₁ : Grows ctx { ctx with waitqueue := ctx.waitqueue ++ [p] } :=
      .of_same rfl rfl (.refl _) rfl (List.prefix_refl _)
    have h₂ := invokeCallback_grows (K := K) p rx.hdr.status
      { ctx with waitqueue := ctx.waitqueue ++ [p] }
    exact h₁.trans (h₂.trans (.of_same rfl rfl (.refl _) rfl (List.prefix_refl _)))
  | interim rx p hpt hf hcb hn => exact invokeCallback_grows p rx.hdr.status ctx

theorem CtxSteps.grows (hs : CtxSteps (appHooks K D) I ctx ctx') :
    Grows ctx ctx' := by
  induction hs with
  | refl => exact .refl ctx
  | tail _ hstep ih => exact ih.trans hstep.grows

/-- A change that leaves no request more often than it was. -/
theorem Distinct.of_le (hd : Distinct ctx) (hid : ctx.nextId ≤ ctx'.nextId)
    (hle : ∀ i, ctx'.occurs i ≤ ctx.occurs i) : Distinct ctx' := by
  constructor
  · intro i
    exact (hle i).trans (hd.once i)
  · intro i hi
    have h₁ := hle i
    have h₂ := hd.fresh i (hid.trans hi)
    omega

theorem delist_occurs (ctx : Context) (id i : Nat) : (ctx.delist id).occurs i ≤ ctx.occurs i := by
  have hw := count_filter_le (ctx.waitqueue.map Pdu.id) (fun j => j != id) i
  rw [List.filter_map] at hw
  simp only [Function.comp_def] at hw
  simp only [Context.delist, Context.occurs]
  omega

theorem retirePdu_occurs (ctx : Context) (p : Pdu) :
    (ctx.retirePdu p).nextId = ctx.nextId ∧ ∀ i, (ctx.retirePdu p).occurs i ≤ ctx.occurs i := by
  unfold Context.retirePdu
  split
  · exact ⟨rfl, fun _ => le_refl _⟩
  · exact ⟨rfl, fun i => freePdu_occurs ctx p.id i⟩

theorem matchReply_occurs (ctx : Context) (hdr : Header) :
    ctx.nextId ≤ (matchReply ctx hdr).ctx.nextId ∧
      ∀ i, (matchReply ctx hdr).ctx.occurs i ≤ ctx.occurs i := by
  have hdrop : ctx.nextId ≤ (dropPdu ctx).nextId ∧
      ∀ i, (dropPdu ctx).occurs i ≤ ctx.occurs i := by
    unfold dropPdu
    split
    · rename_i q _
      exact ⟨le_refl _, fun i => freePdu_occurs ctx q.id i⟩
    · exact ⟨le_refl _, fun _ => le_refl _⟩
  have hl := matchReply_lookup ctx hdr
  generalize matchReply ctx hdr = m at hl ⊢
  cases hl with
  | current p hu hp => exact ⟨le_refl _, fun _ => le_refl _⟩
  | noMemory hu hp => exact ⟨le_refl _, fun _ => le_refl _⟩
  | made p hu hp hid hown => exact ⟨Nat.le_succ _, fun _ => le_refl _⟩
  | claimed p hu hf hprev =>
    exact ⟨hdrop.1, fun i => (delist_occurs _ p.id i).trans (hdrop.2 i)⟩
  | _ => exact hdrop

/-- Reading keeps a client's requests apart. -/
theorem CtxStep.distinct (hs : CtxStep (appHooks K D) I ctx ctx')
    (hc : ctx.isServer = false) (hd : Distinct ctx) (hf : ctx'.fault = none) : Distinct ctx' := by
  cases hs with
  | note hdr =>
    obtain ⟨cur, mid, he⟩ := noteHeader_eq ctx hdr
    rw [he]
    exact ⟨hd.once, hd.fresh⟩
  | grant hdr =>
    unfold grantCredits
    split <;> exact ⟨hd.once, hd.fresh⟩
  | adopt p hdr hsv hp => exact ⟨hd.once, hd.fresh⟩
  | matched hdr hc hp =>
    obtain ⟨hid, hle⟩ := matchReply_occurs ctx hdr
    exact hd.of_le hid hle
  | decoded p d hp =>
    obtain ⟨_, _, _, _, he⟩ := applyEffects_eq ctx d.effects
    simp only [applyDecoded, he]
    exact ⟨hd.once, hd.fresh⟩
  | opened => exact ⟨hd.once, hd.fresh⟩
  | replied rx p hc hp hcb hst hap =>
    have hrun := invokeCallback_steps (K := K) (G := True) p rx.hdr.status ctx (fun _ => trivial)
    have hd' := hrun.distinct ⟨hd.once, hd.fresh⟩ ((retirePdu_grows _ p).fault hf)
    obtain ⟨hid, hle⟩ := retirePdu_occurs (invokeCallback K p rx.hdr.status ctx) p
    exact hd'.of_le hid.ge hle
  | served rx p hsv hp hcb =>
    rw [hc] at hsv
    cases hsv
  | interim rx p hpt hf' hcb hn =>
    have hrun := invokeCallback_steps (K := K) (G := True) p rx.hdr.status ctx (fun _ => trivial)
    exact hrun.distinct ⟨hd.once, hd.fresh⟩ hf

/-! ## The current request -/

/-- No queue holds the current request, if its caller has to free it. -/
def Clear (ctx : Context) : Prop :=
  ∀ p, ctx.pdu = some p → p.callerFrees = true → p.id < ctx.nextId ∧ ctx.occurs p.id = 0

/-- Such a request can at most wait. -/
def Unsent (ctx : Context) : Prop :=
  ∀ p, ctx.pdu = some p → p.callerFrees = true →
    p.id < ctx.nextId ∧ occ ctx.held p.id = 0 ∧ occ ctx.outqueue p.id = 0

theorem Clear.of_none (hp : ctx.pdu = none) : Clear ctx := by
  intro p h
  rw [hp] at h
  cases h

theorem Clear.unsent (hc : Clear ctx) : Unsent ctx := by
  intro p hp hown
  obtain ⟨hlt, hocc⟩ := hc p hp hown
  simp only [Context.occurs] at hocc
  exact ⟨hlt, by omega, by omega⟩

theorem Clear.apart (hc : Clear ctx) : Apart ctx := by
  intro p hp hown hmem
  have hpos := List.count_pos_iff.mpr hmem
  have hocc := (hc p hp hown).2
  simp only [Context.occurs] at hocc
  omega

theorem Unsent.clear (hu : Unsent ctx) (ha : Apart ctx) : Clear ctx := by
  intro p hp hown
  obtain ⟨hlt, hh, ho⟩ := hu p hp hown
  have hw := List.count_eq_zero.mpr (ha p hp hown)
  exact ⟨hlt, by simp only [Context.occurs]; omega⟩

theorem Steps.clear (hs : Steps K G ctx ctx') (hc : Clear ctx)
    (hf : ctx'.fault = none) : Clear ctx' := by
  intro p hp hown
  rw [hs.keeps.pdu] at hp
  obtain ⟨hlt, hocc⟩ := hc p hp hown
  exact hs.absent hf hlt hocc

theorem Unsent.of_same (hu : Unsent ctx) (hp : ctx'.pdu = ctx.pdu)
    (hid : ctx'.nextId = ctx.nextId) (hh : ctx'.held = ctx.held)
    (ho : ctx'.outqueue = ctx.outqueue) : Unsent ctx' := by
  intro p hp' hown
  rw [hp] at hp'
  rw [hid, hh, ho]
  exact hu p hp' hown

/-- A waiting request is neither held nor in the out queue. -/
theorem Distinct.waiting (hd : Distinct ctx) {p : Pdu} (hp : p ∈ ctx.waitqueue) :
    p.id < ctx.nextId ∧ occ ctx.held p.id = 0 ∧ occ ctx.outqueue p.id = 0 := by
  have hpos : 0 < (ctx.waitqueue.map Pdu.id).count p.id :=
    List.count_pos_iff.mpr (List.mem_map.mpr ⟨p, hp, rfl⟩)
  have honce := hd.once p.id
  simp only [Context.occurs] at honce
  refine ⟨?_, by omega, by omega⟩
  by_contra hge
  have hfresh := hd.fresh p.id (by omega)
  simp only [Context.occurs] at hfresh
  omega

theorem matchReply_unsent (hdr : Header) (hd : Distinct ctx)
    (hp : ctx.pdu = none) : Unsent (matchReply ctx hdr).ctx := by
  have hnone := (Clear.of_none hp).unsent
  have hdrop := dropPdu_of_none hp
  have hl := matchReply_lookup ctx hdr
  generalize matchReply ctx hdr = m at hl ⊢
  cases hl with
  | current p hu hp' => exact hnone
  | noMemory hu hp' => exact fun p hp'' => hnone p hp''
  | made p hu hp' hid hown =>
    rintro q ⟨rfl⟩ hfrees
    rw [hown] at hfrees
    cases hfrees
  | unknown hu hf =>
    rw [hdrop]
    exact hnone
  | outOfOrder p hu hf =>
    rw [hdrop] at hf ⊢
    rintro q ⟨rfl⟩ _
    exact hd.waiting (List.mem_of_find?_eq_some hf)
  | claimed p hu hf hprev =>
    rw [hdrop] at hf ⊢
    rintro q ⟨rfl⟩ _
    exact hd.waiting (List.mem_of_find?_eq_some hf)

/-- Reading never puts the current request of a client back on a queue. -/
theorem CtxStep.unsent (hs : CtxStep (appHooks K D) True ctx ctx')
    (hc : ctx.isServer = false) (hd : Distinct ctx) (hu : Unsent ctx) : Unsent ctx' := by
  cases hs with
  | note hdr =>
    obtain ⟨cur, mid, he⟩ := noteHeader_eq ctx hdr
    rw [he]
    exact hu.of_same rfl rfl rfl rfl
  | grant hdr =>
    unfold grantCredits
    split
    · exact hu
    · exact hu.of_same rfl rfl rfl rfl
  | adopt p hdr hsv hp =>
    rw [hc] at hsv
    cases hsv
  | matched hdr hc hp => exact matchReply_unsent hdr hd (hp trivial)
  | decoded p d hp =>
    obtain ⟨_, _, _, _, he⟩ := applyEffects_eq ctx d.effects
    simp only [applyDecoded, he]
    rintro q ⟨rfl⟩ hown
    exact hu p hp hown
  | opened => exact hu.of_same rfl rfl rfl rfl
  | replied rx p hc hp hcb hst hap => exact (Clear.of_none rfl).unsent
  | served rx p hsv hp hcb =>
    rw [hc] at hsv
    cases hsv
  | interim rx p hpt hf hcb hn =>
    exact (Clear.of_none (((appHooks K D).invoke_pdu rx p rx.hdr.status ctx).trans
      (hn trivial hc))).unsent

/-! ## The run rule -/

/-- An invariant `J` of the queues, under a condition `P` on what has happened. -/
structure Invariant (K : Crypto) (D : Decoders) (G : Prop) (P : List Event → Prop)
    (J : Context → Prop) : Prop where
  /-- What was allowed to happen was allowed all along. -/
  earlier : ∀ {l l' : List Event}, l <+: l' → P l' → P l
  step : ∀ {ctx ctx' : Context}, Step K G ctx ctx' → J ctx → ctx'.fault = none → P ctx'.log → J ctx'
  recv : ∀ {ctx ctx' : Context}, CtxStep (appHooks K D) True ctx ctx' → ctx.isServer = false →
    Covers G ctx → J ctx → ctx'.fault = none → P ctx'.log → J ctx'

variable {P : List Event → Prop} {J : Context → Prop}

theorem Invariant.steps (hinv : Invariant K D G P J) (hs : Steps K G ctx ctx')
    (hj : J ctx) (hf : ctx'.fault = none) (hp : P ctx'.log) : J ctx' := by
  induction hs with
  | refl => exact hj
  | tail _ hstep ih =>
    have hk := hstep.keeps.grows
    exact hinv.step hstep (ih (hk.fault hf) (hinv.earlier hk.log hp)) hf hp

theorem Covers.grow (hG : Covers G ctx) (hk : Grows ctx ctx') :
    Covers G ctx' := by
  intro h
  refine hG ?_
  rcases h with hs | ⟨as, has, ha⟩
  · exact .inl (hk.isServer ▸ hs)
  · exact .inr ⟨as, hk.env.reactions.subset has, ha⟩

theorem Invariant.ctxSteps (hinv : Invariant K D G P J)
    (hs : CtxSteps (appHooks K D) True ctx ctx') (hc : ctx.isServer = false) (hG : Covers G ctx)
    (hj : J ctx) (hd : Distinct ctx) (hu : Unsent ctx) (hf : ctx'.fault = none)
    (hp : P ctx'.log) : J ctx' ∧ Distinct ctx' ∧ Unsent ctx' := by
  induction hs with
  | refl => exact ⟨hj, hd, hu⟩
  | tail hrun hstep ih =>
    have hk := hstep.grows
    have hrun : Grows ctx _ := CtxSteps.grows hrun
    obtain ⟨hj', hd', hu'⟩ := ih (hk.fault hf) (hinv.earlier hk.log hp)
    have hc' := hrun.isServer.trans hc
    exact ⟨hinv.recv hstep hc' (hG.grow hrun) hj' hf hp, hstep.distinct hc' hd' hf,
      hstep.unsent hc' hd' hu'⟩

/-- The state of a run between two operations. -/
structure Steady (J : Context → Prop) (s : Session) : Prop where
  inv : J s.ctx
  distinct : Distinct s.ctx
  idle : s.broken = false → Idle s.smb2
  clear : s.broken = false → s.ctx.isServer = false → Clear s.ctx

theorem Blank.steady {s : Session} (hb : Blank s) (hj : J s.ctx) : Steady J s :=
  ⟨hj, hb.distinct, fun _ => hb.idle, fun _ _ => .of_none hb.pdu⟩

/-- **One operation keeps an invariant.** -/
theorem runOp_steady (hinv : Invariant K D G P J) {s : Session} {op : Op}
    (hG : s.ctx.isServer = true ∨ freesRequests s [op] → G)
    (hsv : ∀ rs bs, op = .recv rs bs → s.ctx.isServer = false) (hs : Steady J s)
    (hf₀ : s.ctx.fault = none) (hf : (runOp K D s op).ctx.fault = none)
    (hp : P (runOp K D s op).ctx.log) :
    Steady J (runOp K D s op) ∧ Grows s.ctx (runOp K D s op).ctx := by
  have hcov : Covers G s.ctx := by
    rintro (h | h)
    · exact hG (.inl h)
    · exact hG (.inr (.inl h))
  -- a sequence of steps on the queues, whatever the operation
  have hsteps : ∀ {ctx' : Context}, Steps K G s.ctx ctx' → ctx'.fault = none → P ctx'.log →
      Steady J (s.setCtx ctx') ∧ Grows s.ctx ctx' := by
    intro ctx' hrun hf' hp'
    have hk := hrun.keeps
    have hclear : s.broken = false → ctx'.isServer = false → Clear ctx' := by
      intro hb hc
      exact hrun.clear (hs.clear hb (hk.isServer ▸ hc)) hf'
    refine ⟨⟨hinv.steps hrun hs.inv hf' hp', hrun.distinct hs.distinct hf', ?_, hclear⟩, hk.grows⟩
    intro hb hc
    rcases hs.idle hb (hk.isServer ▸ hc) with hn | ⟨hbody, _⟩
    · exact .inl (hk.pdu.trans hn)
    · exact .inr ⟨hbody, (hclear hb hc).apart⟩
  cases op with
  | act a =>
    refine hsteps (act_steps a ?_ hf₀) hf hp
    rintro (h | h)
    · exact hG (.inl h)
    · exact hG (.inr (.inr ⟨a, List.mem_singleton.mpr rfl, h⟩))
  | write => exact hsteps (writeToSocket_steps s.ctx) hf hp
  | timeout => exact hsteps (timeoutPdus_steps hcov hs.distinct hf₀) hf hp
  | recv rs bs =>
    have hc := hsv rs bs rfl
    unfold runOp at hf hp ⊢
    by_cases hb : s.broken = true
    · simp only [hb, if_true]
      exact ⟨hs, .refl _⟩
    · have hb' : s.broken = false := by simpa using hb
      simp only [hb', Bool.false_eq_true, if_false] at hf hp ⊢
      have hrun := readFromSocket_steps (h := appHooks K D) (K := K) (I := True) rs bs s.smb2 {}
        (Locals.sane_fresh _) (fun _ => hs.idle hb')
      cases hout : readFromSocket (appHooks K D) K rs bs s.smb2 {} with
      | waiting s' rest =>
        rw [hout] at hrun hf hp
        obtain ⟨hj, hd, hu⟩ := hinv.ctxSteps hrun hc hcov hs.inv hs.distinct
          (hs.clear hb' hc).unsent hf hp
        have hidle := readFromSocket_idle (Locals.sane_fresh _) (hs.idle hb') hout
        refine ⟨⟨hj, hd, fun _ => hidle, fun _ hc' => ?_⟩, hrun.grows⟩
        exact hu.clear (hidle.apart hc')
      | failed e s' rest =>
        rw [hout] at hrun hf hp
        obtain ⟨hj, hd, hu⟩ := hinv.ctxSteps hrun hc hcov hs.inv hs.distinct
          (hs.clear hb' hc).unsent hf hp
        refine ⟨⟨hj, hd, ?_, ?_⟩, hrun.grows⟩
        · intro h
          cases h
        · intro h
          cases h
      | faulted f s' rest =>
        rw [hout] at hf
        cases hf

/-- A client reads; a server's reads are the business of its own callbacks. -/
def readsOnlyAsClient (s : Session) (ops : List Op) : Prop :=
  ∀ rs bs, .recv rs bs ∈ ops → s.ctx.isServer = false

theorem runOps_of_fault {s : Session} (ops : List Op) (hf : s.ctx.fault ≠ none) :
    runOps K D s ops = s := by
  cases ops with
  | nil => rfl
  | cons op ops => simp only [runOps, hf, if_false]

/-- The conditions of a run hold of what remains of it. -/
theorem rest_of_run {s s' : Session} {op : Op} {ops : List Op}
    (hG : s.ctx.isServer = true ∨ freesRequests s (op :: ops) → G)
    (hsv : readsOnlyAsClient s (op :: ops)) (hk : Grows s.ctx s'.ctx) :
    (s.ctx.isServer = true ∨ freesRequests s [op] → G) ∧
      (s'.ctx.isServer = true ∨ freesRequests s' ops → G) ∧ readsOnlyAsClient s' ops := by
  refine ⟨?_, ?_, ?_⟩
  · rintro (h | h | ⟨a, ha, hfree⟩)
    · exact hG (.inl h)
    · exact hG (.inr (.inl h))
    · have hop : .act a = op := List.mem_singleton.mp ha
      exact hG (.inr (.inr ⟨a, hop ▸ List.mem_cons_self .., hfree⟩))
  · rintro (h | ⟨as, has, h⟩ | ⟨a, ha, hfree⟩)
    · exact hG (.inl (hk.isServer ▸ h))
    · exact hG (.inr (.inl ⟨as, hk.env.reactions.subset has, h⟩))
    · exact hG (.inr (.inr ⟨a, List.mem_cons_of_mem _ ha, hfree⟩))
  · intro rs bs h
    rw [hk.isServer]
    exact hsv rs bs (List.mem_cons_of_mem _ h)

/-- **The run rule**: an invariant of the steps holds in every state that a run reaches, if
what happened in the run was allowed. -/
theorem runOps_steady (hinv : Invariant K D G P J) (ops : List Op) (s : Session)
    (hG : s.ctx.isServer = true ∨ freesRequests s ops → G) (hsv : readsOnlyAsClient s ops)
    (hs : Steady J s) (hf : (runOps K D s ops).ctx.fault = none)
    (hp : P (runOps K D s ops).ctx.log) :
    Steady J (runOps K D s ops) ∧ Grows s.ctx (runOps K D s ops).ctx := by
  have htriv : Invariant K D G (fun _ => True) (fun _ => True) :=
    ⟨fun _ _ => trivial, fun _ _ _ _ => trivial, fun _ _ _ _ _ _ => trivial⟩
  -- the log of the run extends the log of each of its states
  have hgrow : ∀ (ops : List Op) (s : Session),
      (s.ctx.isServer = true ∨ freesRequests s ops → G) → readsOnlyAsClient s ops →
      Steady (fun _ => True) s → (runOps K D s ops).ctx.fault = none →
      Grows s.ctx (runOps K D s ops).ctx := by
    intro ops
    induction ops with
    | nil => exact fun s _ _ _ _ => .refl _
    | cons op ops ih =>
      intro s hG hsv hs hf
      by_cases hf₀ : s.ctx.fault = none
      · simp only [runOps, hf₀, if_true] at hf ⊢
        by_cases hf₁ : (runOp K D s op).ctx.fault = none
        · have hfirst := (rest_of_run hG hsv (.refl _)).1
          have hop := runOp_steady htriv hfirst
            (fun rs bs h => hsv rs bs (h ▸ List.mem_cons_self ..)) hs hf₀ hf₁ trivial
          obtain ⟨_, hG', hsv'⟩ := rest_of_run hG hsv hop.2
          exact hop.2.trans (ih _ hG' hsv' hop.1 hf)
        · rw [runOps_of_fault ops hf₁] at hf
          exact absurd hf hf₁
      · rw [runOps_of_fault _ hf₀]
        exact .refl _
  induction ops generalizing s with
  | nil => exact ⟨hs, .refl _⟩
  | cons op ops ih =>
    have hall := hgrow (op :: ops) s hG hsv ⟨trivial, hs.distinct, hs.idle, hs.clear⟩ hf
    have hf₀ := hall.fault hf
    simp only [runOps, hf₀, if_true] at hf hp ⊢
    by_cases hf₁ : (runOp K D s op).ctx.fault = none
    · have hfirst := (rest_of_run hG hsv (.refl _)).1
      have hcl : ∀ rs bs, op = .recv rs bs → s.ctx.isServer = false :=
        fun rs bs h => hsv rs bs (h ▸ List.mem_cons_self ..)
      have hop := runOp_steady htriv hfirst hcl ⟨trivial, hs.distinct, hs.idle, hs.clear⟩ hf₀ hf₁ trivial
      obtain ⟨_, hG', hsv'⟩ := rest_of_run hG hsv hop.2
      have hlog := (hgrow ops _ hG' hsv' hop.1 hf).log
      have hop' := runOp_steady hinv hfirst hcl hs hf₀ hf₁ (hinv.earlier hlog hp)
      obtain ⟨hst, hgr⟩ := ih _ hG' hsv' hop'.1 hf hp
      exact ⟨hst, hop.2.trans hgr⟩
    · rw [runOps_of_fault ops hf₁] at hf
      exact absurd hf hf₁

end

end Libsmb2
