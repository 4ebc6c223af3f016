import Libsmb2.Lifecycle.Runs

/-!
# Endpoints

A context whose callbacks are the library's own: a client that sets up its session, or a server.
An `Endpoint` says what runs for a received message and what runs for a request that has timed
out, which is the same callback without a payload.

* `Endpoint.runOps` — any interleaving of calls of the application, writes, reads and timeouts.
* `Endpoint.timeoutPdus_keeps`, `Endpoint.runOps_keeps` — what each turn of the timeout loops and
  each operation keeps holds of the whole run.
-/

set_option autoImplicit false

namespace Libsmb2

open Util

structure Endpoint where
  hooks : Hooks
  /-- A callback that runs without a payload. -/
  lapse : Receiver → Pdu → Nat → Context → Context

namespace Endpoint

/-! ## Timeouts -/

/-- One turn of a loop of `smb2_timeout_pdus` on an entry that has expired. -/
def expire (E : Endpoint) (rx : Receiver) (q : Queue) (p : Pdu) (ctx : Context) : Context :=
  if p.cb = .none then ctx.raise .nullCallback
  else
    let ctx' := E.lapse rx p STATUS_IO_TIMEOUT (ctx.unlink q p.id)
    if ctx'.fault = none then
      (ctx'.freePdu p.id).noteRelease false (p :: ctx.behind q p.id)
    else ctx'

/-- The loop of `smb2_timeout_pdus` over one queue, from the entry with this id on. -/
def timeoutLoop (E : Endpoint) (rx : Receiver) (q : Queue) (t : Nat) :
    Nat → Option Nat → Context → Context
  | _, none, ctx => ctx
  | 0, some _, ctx => ctx.raise .outOfFuel
  | fuel + 1, some id, ctx =>
    match (ctx.heads q).dropWhile fun p => p.id != id with
    | [] => ctx.raise .stalePdu
    | p :: after =>
      let next := after.head?.map Pdu.id
      if p.timeout ≠ 0 ∧ p.timeout < t then
        let ctx := E.expire rx q p (ctx.emit (.lapsed (ctx.lapse q p next)))
        if ctx.fault = none then E.timeoutLoop rx q t fuel next ctx else ctx
      else E.timeoutLoop rx q t fuel next ctx

def timeoutQueue (E : Endpoint) (rx : Receiver) (q : Queue) (t : Nat) (ctx : Context) : Context :=
  E.timeoutLoop rx q t (ctx.pending + 1) ((ctx.heads q).head?.map Pdu.id) ctx

/-- `smb2_timeout_pdus`. -/
def timeoutPdus (E : Endpoint) (rx : Receiver) (ctx : Context) : Context :=
  let ctx' := E.timeoutQueue rx .out ctx.now ctx
  if ctx'.fault = none then E.timeoutQueue rx .wait ctx.now ctx' else ctx'

/-! ## Runs -/

def runOp (E : Endpoint) (K : Crypto) (s : Session) : Op → Session
  | .act a => s.setCtx (act K s.ctx a)
  | .write => s.setCtx (writeToSocket s.ctx).1
  | .recv rs bs =>
    if s.broken then s else .absorb (readFromSocket E.hooks K rs bs s.smb2 {})
  | .timeout => s.setCtx (E.timeoutPdus s.smb2.rx s.ctx)

def runOps (E : Endpoint) (K : Crypto) : Session → List Op → Session
  | s, [] => s
  | s, op :: ops => if s.ctx.fault = none then E.runOps K (E.runOp K s op) ops else s

section
variable {E : Endpoint} {K : Crypto} {rx : Receiver} {M : Context → Prop}

/-! ## Rules -/

/-- What the turns of the timeout loops have to keep, at a time `t`. -/
structure TimeoutRule (E : Endpoint) (rx : Receiver) (t : Nat) (M : Context → Prop) : Prop where
  expired : ∀ {q : Queue} {p : Pdu} {ctx : Context} (l : Lapse), M ctx → ctx.fault = none →
    p ∈ ctx.heads q → p.timeout ≠ 0 → p.timeout < t → p.cb ≠ .none →
    M (E.expire rx q p (ctx.emit (.lapsed l)))
  uncalled : ∀ {ctx : Context} (l : Lapse), M ctx → M ((ctx.emit (.lapsed l)).raise .nullCallback)
  faults : ∀ {ctx : Context} (f : Fault), M ctx → M (ctx.raise f)

theorem timeoutLoop_keeps {t : Nat} (hr : TimeoutRule E rx t M) (q : Queue) (fuel : Nat)
    (cur : Option Nat) (ctx : Context) (hm : M ctx) (hf : ctx.fault = none) :
    M (E.timeoutLoop rx q t fuel cur ctx) := by
  induction fuel generalizing cur ctx with
  | zero =>
    cases cur with
    | none => exact hm
    | some id => exact hr.faults _ hm
  | succ fuel ih =>
    cases cur with
    | none => exact hm
    | some id =>
      unfold timeoutLoop
      split
      · exact hr.faults _ hm
      · rename_i p after hdrop
        have hp : p ∈ ctx.heads q := by
          apply (List.dropWhile_suffix fun p : Pdu => p.id != id).subset
          rw [hdrop]
          exact List.mem_cons_self
        simp only
        split
        · rename_i hdue
          generalize ctx.lapse q p (after.head?.map Pdu.id) = l
          have hexp : M (E.expire rx q p (ctx.emit (.lapsed l))) := by
            by_cases hcb : p.cb = .none
            · unfold expire
              rw [if_pos hcb]
              exact hr.uncalled l hm
            · exact hr.expired l hm hf hp hdue.1 hdue.2 hcb
          split
          · rename_i hf'
            exact ih _ _ hexp hf'
          · exact hexp
        · exact ih _ _ hm hf

/-- **What each turn keeps, `smb2_timeout_pdus` keeps.** -/
theorem timeoutPdus_keeps {ctx : Context} (hr : TimeoutRule E rx ctx.now M) (hm : M ctx)
    (hf : ctx.fault = none) : M (E.timeoutPdus rx ctx) := by
  have hout : M (E.timeoutQueue rx .out ctx.now ctx) := timeoutLoop_keeps hr _ _ _ _ hm hf
  unfold timeoutPdus
  simp only
  split
  · rename_i hf'
    exact timeoutLoop_keeps hr _ _ _ _ hout hf'
  · exact hout

/-- **What each operation keeps, a run keeps**, the operations being tried in the states they
meet. -/
theorem runOps_keeps {J : Session → Prop} (ops : List Op) (s : Session) (hj : J s)
    (hstep : ∀ pre op post, ops = pre ++ op :: post → J (E.runOps K s pre) →
      (E.runOps K s pre).ctx.fault = none → J (E.runOp K (E.runOps K s pre) op)) :
    J (E.runOps K s ops) := by
  induction ops generalizing s with
  | nil => exact hj
  | cons op ops ih =>
    have hcons : ∀ rest, E.runOps K s (op :: rest) =
        if s.ctx.fault = none then E.runOps K (E.runOp K s op) rest else s := fun rest => rfl
    rw [hcons]
    split
    · rename_i hf
      refine ih _ (hstep [] op ops rfl hj hf) ?_
      intro pre op' post e hj' hf'
      have hrun : E.runOps K s (op :: pre) = E.runOps K (E.runOp K s op) pre := by
        rw [hcons, if_pos hf]
      rw [← hrun] at hj' hf' ⊢
      exact hstep (op :: pre) op' post (by rw [e]; rfl) hj' hf'
    · exact hj

end

end Endpoint

end Libsmb2
