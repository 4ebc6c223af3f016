import Mathlib.Data.List.Basic
import Mathlib.Tactic

/-!
# The external transport

`smb2_set_transport`, the connect, close, send and receive paths of `transport-external.c` and
`smb2_recv_from_ext`, as far as they decide which callbacks of the application are called.
Connectedness is kept in two places: the flag `ext_connected`, and the pointer `ext.close`,
which the close path clears before it calls it.

A service call, a queued request or a timeout is here the sequence of the sends, receives and
closes that it makes, in whatever order: PDU callbacks can run the close path at any point of
it.  What the application passes to one `smb2_set_transport` call is a registration; the calls
of its callbacks are logged under the number of the registration.

* `callbacks_are_bracketed` — in every run that is orderly, each successful connect is followed
  by one close of the same registration, and sends and receives come in between;
* `close_pointer_is_used_up` — two runs that are not.
-/

set_option autoImplicit false

namespace Libsmb2.ExternalTransport

/-- Which callbacks of a `struct smb2_external_transport` are there, and its registration. -/
structure Callbacks where
  connect : Bool := false
  send : Bool := false
  recv : Bool := false
  close : Bool := false
  registration : Nat := 0
  deriving DecidableEq, Repr

/-- A call of a callback of the application; a connect says whether it succeeded. -/
inductive AppCall
  | connect (registration : Nat) (ok : Bool)
  | send (registration : Nat)
  | recv (registration : Nat)
  | close (registration : Nat)
  deriving DecidableEq, Repr

/-- The part of `struct smb2_context` that the transport uses. -/
structure Context where
  /-- `transport` is the table of the external backend. -/
  external : Bool := false
  ext : Callbacks := {}
  extConnected : Bool := false
  registrations : Nat := 0
  log : List AppCall := []
  deriving DecidableEq, Repr

/-- The transport type passed to `smb2_set_transport`. -/
inductive TransportType
  | tcp
  | quic
  | auto
  | unknown
  deriving DecidableEq, Repr

/-- The calls on a context. -/
inductive Op
  /-- `smb2_set_transport`. -/
  | setTransport (type : TransportType) (ext : Option Callbacks)
  /-- `smb2_connect_async`, with the server's address and what the application's connect
  returns. -/
  | connectAsync (server : List Char) (ret : Int)
  /-- A call of the transport's `queue_write`. -/
  | queueWrite
  /-- A call of `smb2_recv_from_ext`. -/
  | recv
  /-- `smb2_close_context`, or another call of the transport's `close`. -/
  | close
  deriving DecidableEq, Repr

namespace Context

def note (ctx : Context) (c : AppCall) : Context := { ctx with log := ctx.log ++ [c] }

/-- The TCP backend is bound and the callbacks are dropped. -/
def bindTcp (ctx : Context) : Context :=
  { ctx with external := false, ext := {}, extConnected := false }

/-- The external backend is bound, if no callback is missing. -/
def bindExternal (ctx : Context) (ext : Option Callbacks) : Context × Int :=
  match ext with
  | none => (ctx, -22)
  | some e =>
    if e.connect && e.send && e.recv && e.close then
      ({ ctx with
        external := true
        ext := { e with registration := ctx.registrations + 1 }
        extConnected := false
        registrations := ctx.registrations + 1 }, 0)
    else (ctx, -22)

/-- `smb2_set_transport`. -/
def setTransport (ctx : Context) (type : TransportType) (ext : Option Callbacks) : Context × Int :=
  match type with
  | .tcp => (ctx.bindTcp, 0)
  | .auto => if ext.isNone then (ctx.bindTcp, 0) else ctx.bindExternal ext
  | .quic => ctx.bindExternal ext
  | .unknown => (ctx, -22)

/-- An IPv6 address in brackets that are not closed. -/
def badAddress (server : List Char) : Bool :=
  server.head? = some '[' && !server.tail.contains ']'

/-- `ext_connect`.  The callback of the caller runs after the flag is set; what it calls are
further operations. -/
def extConnect (ctx : Context) (server : List Char) (ret : Int) : Context × Int :=
  if !ctx.ext.connect then (ctx, -22)
  else if badAddress server then (ctx, -22)
  else
    let ctx := ctx.note (.connect ctx.ext.registration (decide (0 ≤ ret)))
    if ret < 0 then (ctx, ret) else ({ ctx with extConnected := true }, 0)

/-- `ext_queue_write`, for a vector that is not empty. -/
def extQueueWrite (ctx : Context) : Context :=
  if !ctx.extConnected then ctx
  else if !ctx.ext.send then ctx
  else ctx.note (.send ctx.ext.registration)

/-- `smb2_recv_from_ext`, for a vector that is not empty. -/
def recvFromExt (ctx : Context) : Context :=
  if !ctx.extConnected then ctx
  else if !ctx.ext.recv then ctx
  else ctx.note (.recv ctx.ext.registration)

/-- `ext_close`. -/
def extClose (ctx : Context) : Context :=
  let ctx := if ctx.ext.close then
      { ctx with ext := { ctx.ext with close := false } }.note (.close ctx.ext.registration)
    else ctx
  { ctx with extConnected := false }

end Context

/-- A call, through the table of the transport; the TCP backend calls nothing of the
application. -/
def step (ctx : Context) : Op → Context
  | .setTransport type ext => (ctx.setTransport type ext).1
  | .connectAsync server ret => if ctx.external then (ctx.extConnect server ret).1 else ctx
  | .queueWrite => if ctx.external then ctx.extQueueWrite else ctx
  | .recv => if ctx.external then ctx.recvFromExt else ctx
  | .close => if ctx.external then ctx.extClose else ctx

def run (ctx : Context) (ops : List Op) : Context := ops.foldl step ctx

/-- What a PDU callback of a context that is being destroyed may still call. -/
inductive LastOp
  | queueWrite
  | recv
  | close
  deriving DecidableEq, Repr

def LastOp.op : LastOp → Op
  | .queueWrite => .queueWrite
  | .recv => .recv
  | .close => .close

/-- The life of a context: the calls on it, and `smb2_destroy_context`, which closes the
transport and then runs the callbacks of all requests. -/
def lifetime (ops : List Op) (last : List LastOp) : Context :=
  run (run {} ops) (.close :: last.map LastOp.op)

/-! ## What the log should be -/

/-- Where a registration stands. -/
inductive Phase
  | fresh
  | connected
  | closed
  /-- Connected twice, closed twice, or used while not connected. -/
  | broken
  deriving DecidableEq, Repr

/-- One call of the callbacks of a registration. -/
def Phase.next (registration : Nat) (phase : Phase) (c : AppCall) : Phase :=
  match c with
  | .connect r ok =>
    if r = registration ∧ ok = true then
      match phase with
      | .fresh => .connected
      | .closed => .connected
      | _ => .broken
    else phase
  | .close r =>
    if r = registration then
      match phase with
      | .connected => .closed
      | .fresh => .fresh
      | _ => .broken
    else phase
  | .send r => if r = registration then (if phase = .connected then phase else .broken) else phase
  | .recv r => if r = registration then (if phase = .connected then phase else .broken) else phase

/-- Where a registration stands after these calls. -/
def phaseOf (registration : Nat) (log : List AppCall) : Phase :=
  log.foldl (Phase.next registration) .fresh

/-- Each successful connect is followed by one close, and sends and receives are between
them. -/
def Bracketed (log : List AppCall) : Prop :=
  ∀ registration, phaseOf registration log = .fresh ∨ phaseOf registration log = .closed

/-- The transport is set while it is not connected, and a connect that succeeds finds the close
callback in place and the transport not connected. -/
def Orderly (ctx : Context) : Op → Prop
  | .setTransport type ext => (ctx.setTransport type ext).2 = 0 → ctx.extConnected = false
  | .connectAsync _ ret =>
    ctx.external = true → 0 ≤ ret → ctx.ext.close = true ∧ ctx.extConnected = false
  | _ => True

def RunOrderly : Context → List Op → Prop
  | _, [] => True
  | ctx, op :: ops => Orderly ctx op ∧ RunOrderly (step ctx op) ops

/-! ## What orderly runs keep -/

/-- The invariant: the current registration is connected just when the flag says so, and can
then be closed; one that can be closed has not been connected before; every other registration
is finished or was not used. -/
structure Inv (ctx : Context) : Prop where
  connected : ctx.extConnected = true →
    ctx.external = true ∧ ctx.ext.close = true ∧
      phaseOf ctx.ext.registration ctx.log = .connected
  idle : ctx.extConnected = false → phaseOf ctx.ext.registration ctx.log = .fresh ∨
    (phaseOf ctx.ext.registration ctx.log = .closed ∧ ctx.ext.close = false)
  others : ∀ r, r ≠ ctx.ext.registration →
    phaseOf r ctx.log = .fresh ∨ phaseOf r ctx.log = .closed
  unused : ∀ r, ctx.registrations < r → phaseOf r ctx.log = .fresh
  current : ctx.ext.registration ≤ ctx.registrations

theorem phaseOf_append (r : Nat) (log : List AppCall) (c : AppCall) :
    phaseOf r (log ++ [c]) = (phaseOf r log).next r c := by
  simp only [phaseOf, List.foldl_append, List.foldl_cons, List.foldl_nil]

/-- A call under another registration. -/
theorem Phase.next_other {r r' : Nat} (phase : Phase) (h : r ≠ r') :
    (∀ ok, phase.next r (.connect r' ok) = phase) ∧ phase.next r (.send r') = phase ∧
      phase.next r (.recv r') = phase ∧ phase.next r (.close r') = phase := by
  have hne : r' ≠ r := fun he => h he.symm
  refine ⟨?_, ?_, ?_, ?_⟩
  · intro ok
    simp [Phase.next, hne]
  · simp [Phase.next, hne]
  · simp [Phase.next, hne]
  · simp [Phase.next, hne]

variable {ctx : Context}

theorem Inv.bindTcp (h : Inv ctx) (hidle : ctx.extConnected = false) :
    Inv ctx.bindTcp := by
  have hall : ∀ r, phaseOf r ctx.log = .fresh ∨ phaseOf r ctx.log = .closed := by
    intro r
    by_cases hr : r = ctx.ext.registration
    · rw [hr]
      rcases h.idle hidle with hf | hc
      · exact .inl hf
      · exact .inr hc.1
    · exact h.others r hr
  refine ⟨fun hc => absurd hc Bool.false_ne_true, ?_, fun r _ => hall r, h.unused, Nat.zero_le _⟩
  intro _
  rcases hall 0 with hf | hc
  · exact .inl hf
  · exact .inr ⟨hc, rfl⟩

theorem Inv.bindExternal (h : Inv ctx) (ext : Option Callbacks)
    (hidle : (ctx.bindExternal ext).2 = 0 → ctx.extConnected = false) :
    Inv (ctx.bindExternal ext).1 := by
  unfold Context.bindExternal at hidle ⊢
  cases ext with
  | none => exact h
  | some e =>
    simp only at hidle ⊢
    split
    · rename_i hfull
      rw [if_pos hfull] at hidle
      have hidle := hidle rfl
      refine ⟨fun hc => absurd hc Bool.false_ne_true, ?_, ?_, ?_, Nat.le_refl _⟩
      · intro _
        exact .inl (h.unused _ (Nat.lt_succ_self _))
      · intro r _
        by_cases hr : r = ctx.ext.registration
        · rw [hr]
          rcases h.idle hidle with hf | hc
          · exact .inl hf
          · exact .inr hc.1
        · exact h.others r hr
      · intro r hr
        exact h.unused r (Nat.lt_of_succ_lt hr)
    · exact h

theorem Inv.setTransport (h : Inv ctx) (type : TransportType)
    (ext : Option Callbacks) (ho : Orderly ctx (.setTransport type ext)) :
    Inv (ctx.setTransport type ext).1 := by
  have ho : (ctx.setTransport type ext).2 = 0 → ctx.extConnected = false := ho
  unfold Context.setTransport at ho ⊢
  cases type with
  | tcp => exact h.bindTcp (ho rfl)
  | quic => exact h.bindExternal ext ho
  | auto =>
    simp only at ho ⊢
    split
    · rename_i hnone
      rw [if_pos hnone] at ho
      exact h.bindTcp (ho rfl)
    · rename_i hsome
      rw [if_neg hsome] at ho
      exact h.bindExternal ext ho
  | unknown => exact h

/-- The log grows by a call under the current registration. -/
theorem Inv.others_note (h : Inv ctx) {c : AppCall}
    (hc : ∀ r phase, r ≠ ctx.ext.registration → Phase.next r phase c = phase) :
    (∀ r, r ≠ ctx.ext.registration →
      phaseOf r (ctx.log ++ [c]) = .fresh ∨ phaseOf r (ctx.log ++ [c]) = .closed) ∧
    ∀ r, ctx.registrations < r → phaseOf r (ctx.log ++ [c]) = .fresh := by
  refine ⟨?_, ?_⟩
  · intro r hr
    rw [phaseOf_append, hc r _ hr]
    exact h.others r hr
  · intro r hr
    have hcur := h.current
    rw [phaseOf_append, hc r _ (by omega)]
    exact h.unused r hr

theorem Inv.extConnect (h : Inv ctx) (server : List Char) (ret : Int)
    (hext : ctx.external = true)
    (ho : 0 ≤ ret → ctx.ext.close = true ∧ ctx.extConnected = false) :
    Inv (ctx.extConnect server ret).1 := by
  unfold Context.extConnect
  split
  · exact h
  · split
    · exact h
    · simp only
      obtain ⟨hothers, hunused⟩ := h.others_note
        (c := .connect ctx.ext.registration (decide (0 ≤ ret)))
        (fun r phase hr => (Phase.next_other phase hr).1 _)
      split
      · -- the application refused: nothing is connected by it
        rename_i hneg
        have hsame : phaseOf ctx.ext.registration
            (ctx.log ++ [.connect ctx.ext.registration (decide (0 ≤ ret))]) =
            phaseOf ctx.ext.registration ctx.log := by
          rw [phaseOf_append]
          simp [Phase.next, Int.not_le.mpr hneg]
        refine ⟨?_, ?_, hothers, hunused, h.current⟩
        · intro hc
          obtain ⟨he, hcl, hp⟩ := h.connected hc
          exact ⟨he, hcl, hsame.trans hp⟩
        · intro hc
          rcases h.idle hc with hf | hcd
          · exact .inl (hsame.trans hf)
          · exact .inr ⟨hsame.trans hcd.1, hcd.2⟩
      · rename_i hpos
        have hpos : 0 ≤ ret := Int.not_lt.mp hpos
        obtain ⟨hclose, hidle⟩ := ho hpos
        have hfresh : phaseOf ctx.ext.registration ctx.log = .fresh := by
          rcases h.idle hidle with hf | hc
          · exact hf
          · exact absurd (hclose.symm.trans hc.2) (by decide)
        refine ⟨?_, fun hc => absurd hc.symm Bool.false_ne_true, hothers, hunused, h.current⟩
        intro _
        refine ⟨hext, hclose, ?_⟩
        show phaseOf ctx.ext.registration (ctx.log ++ _) = .connected
        rw [phaseOf_append, hfresh]
        simp [Phase.next, hpos]

/-- A send or a receive on a connected transport. -/
theorem Inv.use (h : Inv ctx) (hc : ctx.extConnected = true) {c : AppCall}
    (hother : ∀ r phase, r ≠ ctx.ext.registration → Phase.next r phase c = phase)
    (huse : Phase.next ctx.ext.registration .connected c = .connected) : Inv (ctx.note c) := by
  obtain ⟨he, hcl, hp⟩ := h.connected hc
  obtain ⟨hothers, hunused⟩ := h.others_note hother
  refine ⟨?_, fun hidle => absurd (hc.symm.trans hidle) (by decide), hothers, hunused, h.current⟩
  intro _
  refine ⟨he, hcl, ?_⟩
  show phaseOf ctx.ext.registration (ctx.log ++ [c]) = .connected
  rw [phaseOf_append, hp, huse]

theorem Inv.extQueueWrite (h : Inv ctx) : Inv ctx.extQueueWrite := by
  unfold Context.extQueueWrite
  split
  · exact h
  · rename_i hc
    split
    · exact h
    · apply h.use (by simpa using hc)
      · intro r phase hr
        exact (Phase.next_other phase hr).2.1
      · simp [Phase.next]

theorem Inv.recvFromExt (h : Inv ctx) : Inv ctx.recvFromExt := by
  unfold Context.recvFromExt
  split
  · exact h
  · rename_i hc
    split
    · exact h
    · apply h.use (by simpa using hc)
      · intro r phase hr
        exact (Phase.next_other phase hr).2.2.1
      · simp [Phase.next]

theorem Inv.extClose (h : Inv ctx) :
    Inv ctx.extClose ∧ ctx.extClose.extConnected = false := by
  refine ⟨?_, rfl⟩
  unfold Context.extClose
  simp only
  split
  · rename_i hcl
    obtain ⟨hothers, hunused⟩ := h.others_note (c := .close ctx.ext.registration)
      (fun r phase hr => (Phase.next_other phase hr).2.2.2)
    refine ⟨fun hc => absurd hc Bool.false_ne_true, ?_, hothers, hunused, h.current⟩
    intro _
    show phaseOf ctx.ext.registration (ctx.log ++ [.close ctx.ext.registration]) = .fresh ∨
      (phaseOf ctx.ext.registration (ctx.log ++ [.close ctx.ext.registration]) = .closed ∧
        false = false)
    rw [phaseOf_append]
    cases hc : ctx.extConnected with
    | true =>
      rw [(h.connected hc).2.2]
      exact .inr ⟨by simp [Phase.next], rfl⟩
    | false =>
      rcases h.idle hc with hf | hcd
      · rw [hf]
        exact .inl (by simp [Phase.next])
      · exact absurd (hcl.symm.trans hcd.2) (by decide)
  · rename_i hcl
    have hidle : ctx.extConnected = false := by
      cases hc : ctx.extConnected with
      | false => rfl
      | true => exact absurd (h.connected hc).2.1 hcl
    exact ⟨fun hc => absurd hc Bool.false_ne_true, fun _ => h.idle hidle, h.others, h.unused,
      h.current⟩

theorem Inv.step (h : Inv ctx) {op : Op} (ho : Orderly ctx op) :
    Inv (step ctx op) := by
  cases op with
  | setTransport type ext => exact h.setTransport type ext ho
  | connectAsync server ret =>
    show Inv (if ctx.external then (ctx.extConnect server ret).1 else ctx)
    split
    · rename_i hext
      exact h.extConnect server ret hext (ho hext)
    · exact h
  | queueWrite =>
    show Inv (if ctx.external then ctx.extQueueWrite else ctx)
    split
    · exact h.extQueueWrite
    · exact h
  | recv =>
    show Inv (if ctx.external then ctx.recvFromExt else ctx)
    split
    · exact h.recvFromExt
    · exact h
  | close =>
    show Inv (if ctx.external then ctx.extClose else ctx)
    split
    · exact h.extClose.1
    · exact h

theorem Inv.run (h : Inv ctx) {ops : List Op} (ho : RunOrderly ctx ops) :
    Inv (run ctx ops) := by
  induction ops generalizing ctx with
  | nil => exact h
  | cons op ops ih => exact ih (h.step ho.1) ho.2

/-- Once closed, a context that is being destroyed calls nothing any more but a pending close. -/
theorem Inv.last (h : Inv ctx) (hidle : ctx.extConnected = false)
    (last : List LastOp) :
    Inv (ExternalTransport.run ctx (last.map LastOp.op)) ∧
      (ExternalTransport.run ctx (last.map LastOp.op)).extConnected = false := by
  induction last generalizing ctx with
  | nil => exact ⟨h, hidle⟩
  | cons op last ih =>
    have hstep : Inv (ExternalTransport.step ctx op.op) := by
      apply h.step
      cases op <;> trivial
    refine ih hstep ?_
    cases op with
    | queueWrite =>
      show (if ctx.external then ctx.extQueueWrite else ctx).extConnected = false
      unfold Context.extQueueWrite
      simp [hidle]
    | recv =>
      show (if ctx.external then ctx.recvFromExt else ctx).extConnected = false
      unfold Context.recvFromExt
      simp [hidle]
    | close =>
      show (if ctx.external then ctx.extClose else ctx).extConnected = false
      split
      · rfl
      · exact hidle

theorem Inv.init : Inv {} := by
  refine ⟨fun hc => absurd hc Bool.false_ne_true, fun _ => .inl rfl, fun _ _ => .inl rfl,
    fun _ _ => rfl, Nat.le_refl 0⟩

/-- **In every orderly life of a context each successful connect of the application is followed
by exactly one close, and its send and receive callbacks are only called in between.** -/
theorem callbacks_are_bracketed (ops : List Op) (last : List LastOp)
    (ho : RunOrderly {} ops) : Bracketed (lifetime ops last).log := by
  have hrun := Inv.init.run ho
  have hclosed : Inv (step (run {} ops) .close) ∧
      (step (run {} ops) .close).extConnected = false := by
    show Inv (if (run {} ops).external then (run {} ops).extClose else run {} ops) ∧
      (if (run {} ops).external then (run {} ops).extClose else run {} ops).extConnected = false
    split
    · exact hrun.extClose
    · rename_i htcp
      refine ⟨hrun, ?_⟩
      cases hc : (run {} ops).extConnected with
      | false => rfl
      | true => exact absurd (hrun.connected hc).1 htcp
  obtain ⟨hend, hidle⟩ := hclosed.1.last hclosed.2 last
  intro r
  by_cases hr : r = (lifetime ops last).ext.registration
  · rw [hr]
    rcases hend.idle hidle with hf | hc
    · exact .inl hf
    · exact .inr hc.1
  · exact hend.others r hr

/-- A transport with all its callbacks. -/
def allCallbacks : Callbacks := ⟨true, true, true, true, 0⟩

/-- A connection, its loss and a second one on a transport that was set again. -/
def setTwice : List Op :=
  [.setTransport .quic (some allCallbacks), .connectAsync ['h'] 0, .queueWrite, .recv, .close,
    .setTransport .auto (some allCallbacks), .connectAsync ['h'] 0, .queueWrite]

theorem callbacks_are_bracketed_twice :
    (lifetime setTwice [.close]).log = [.connect 1 true, .send 1, .recv 1, .close 1,
        .connect 2 true, .send 2, .close 2] ∧
      Bracketed (lifetime setTwice [.close]).log := by
  refine ⟨by decide, callbacks_are_bracketed setTwice [.close] ?_⟩
  simp only [setTwice, RunOrderly, Orderly]
  decide

/-- **A context that is connected again is never closed, and neither is one that was closed before it
was connected.** -/
theorem close_pointer_is_used_up :
    (lifetime [.setTransport .quic (some allCallbacks), .connectAsync ['h'] 0, .close,
      .connectAsync ['h'] 0] []).log = [.connect 1 true, .close 1, .connect 1 true] ∧
    (lifetime [.setTransport .quic (some allCallbacks), .close, .connectAsync ['h'] 0] []).log =
      [.close 1, .connect 1 true] ∧
    ¬Bracketed [.connect 1 true, .close 1, .connect 1 true] ∧
    ¬Bracketed [.close 1, .connect 1 true] := by
  refine ⟨by decide, by decide, ?_, ?_⟩
  · intro h
    exact absurd (h 1) (by decide)
  · intro h
    exact absurd (h 1) (by decide)

end Libsmb2.ExternalTransport
