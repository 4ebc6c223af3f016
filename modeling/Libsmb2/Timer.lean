import Libsmb2.Lifecycle

/-!
# The timer interface

`smb2_get_timeout` and `smb2_next_timeout_ms` tell an event loop how long it may wait, and
`smb2_service_timeout` runs what is due.  The first two look for the earliest deadline of the
requests in the queues and of the transport; `next_timeout`, which a transport may publish, is a
parameter here (no transport of the library does so).

* `reportsDue_iff` — a deadline is reported as due exactly if one of them has been reached.
-/

set_option autoImplicit false

namespace Libsmb2

open Util

def INT_MAX : Int := 2147483647

/-- The deadline of the request has been reached. -/
def Pdu.due (t : Nat) (p : Pdu) : Bool := p.timeout != 0 && decide (p.timeout ≤ t)

theorem Pdu.due_iff {t : Nat} {p : Pdu} : p.due t = true ↔ p.timeout ≠ 0 ∧ p.timeout ≤ t := by
  simp [Pdu.due]

/-- A deadline of zero is none; of the others the earlier one is kept. -/
def sooner : Option Nat → Nat → Option Nat
  | none, timeout => if timeout = 0 then none else some timeout
  | some deadline, timeout =>
    if timeout ≠ 0 ∧ timeout < deadline then some timeout else some deadline

/-- `smb2_earliest_deadline`. -/
def earliestDeadline (ctx : Context) (nextTimeout : Nat) : Option Nat :=
  let deadline := (ctx.heads .out).foldl (fun d p => sooner d p.timeout) none
  let deadline := (ctx.heads .wait).foldl (fun d p => sooner d p.timeout) deadline
  sooner deadline nextTimeout

/-- `smb2_get_timeout`: the seconds that are left, if a timer is pending. -/
def getTimeout (ctx : Context) (nextTimeout : Nat) : Option Nat :=
  (earliestDeadline ctx nextTimeout).map fun deadline =>
    if deadline > ctx.now then deadline - ctx.now else 0

/-- `smb2_next_timeout_ms`. -/
def nextTimeoutMs (ctx : Context) (nextTimeout : Nat) : Int :=
  match earliestDeadline ctx nextTimeout with
  | none => -1
  | some deadline =>
    if deadline ≤ ctx.now then 0
    else
      let secs : Int := deadline - ctx.now
      if secs > INT_MAX / 1000 then INT_MAX else secs * 1000

/-- `smb2_service_timeout`.  The hook of the external transport runs the loops once more. -/
def serviceTimeout (K : Crypto) (ctx : Context) : Context :=
  let ctx := if ctx.timeout ≠ 0 then timeoutPdus K ctx else ctx
  if ctx.fault = none ∧ ctx.transportType = .ext ∧ ctx.timeout ≠ 0 then timeoutPdus K ctx else ctx

/-! ## What is reported -/

/-- This deadline has been reached. -/
def Reached (t : Nat) (deadline : Option Nat) : Prop := ∃ d ∈ deadline, d ≤ t

theorem reached_sooner {t : Nat} {deadline : Option Nat} {timeout : Nat} :
    Reached t (sooner deadline timeout) ↔
      Reached t deadline ∨ (timeout ≠ 0 ∧ timeout ≤ t) := by
  unfold Reached
  cases deadline with
  | none =>
    unfold sooner
    by_cases h : timeout = 0
    · simp [h]
    · simp [h]
  | some d =>
    simp only [sooner]
    split <;> simp only [Option.mem_def, Option.some.injEq, exists_eq_left'] <;> omega

theorem reached_foldl {t : Nat} (ps : List Pdu) (deadline : Option Nat) :
    Reached t (ps.foldl (fun d p => sooner d p.timeout) deadline) ↔
      Reached t deadline ∨ ∃ p ∈ ps, p.due t = true := by
  induction ps generalizing deadline with
  | nil => simp
  | cons p ps ih =>
    rw [List.foldl_cons, ih, reached_sooner, or_assoc]
    simp only [List.mem_cons, exists_eq_or_imp, Pdu.due_iff]

/-- The earliest deadline is due exactly if one of them is. -/
theorem reached_earliest (ctx : Context) (t nextTimeout : Nat) :
    Reached t (earliestDeadline ctx nextTimeout) ↔
      (∃ q, ∃ p ∈ ctx.heads q, p.due t = true) ∨ (nextTimeout ≠ 0 ∧ nextTimeout ≤ t) := by
  unfold earliestDeadline
  simp only
  rw [reached_sooner, reached_foldl, reached_foldl]
  have hnone : ¬ Reached t none := by
    rintro ⟨d, hd, -⟩
    cases hd
  constructor
  · rintro ((hout | hwait) | hnext)
    · exact .inl ⟨.out, hout.resolve_left hnone⟩
    · exact .inl ⟨.wait, hwait⟩
    · exact .inr hnext
  · rintro (⟨q, hq⟩ | hnext)
    · cases q with
      | out => exact .inl (.inl (.inr hq))
      | wait => exact .inl (.inr hq)
    · exact .inr hnext

theorem getTimeout_zero (ctx : Context) (nextTimeout : Nat) :
    getTimeout ctx nextTimeout = some 0 ↔ Reached ctx.now (earliestDeadline ctx nextTimeout) := by
  unfold getTimeout Reached
  cases earliestDeadline ctx nextTimeout with
  | none => simp
  | some d =>
    simp only [Option.map_some, Option.some.injEq, Option.mem_def, exists_eq_left']
    split <;> omega

theorem nextTimeoutMs_zero (ctx : Context) (nextTimeout : Nat) :
    nextTimeoutMs ctx nextTimeout = 0 ↔ Reached ctx.now (earliestDeadline ctx nextTimeout) := by
  unfold nextTimeoutMs Reached
  cases earliestDeadline ctx nextTimeout with
  | none => simp
  | some d =>
    simp only [Option.mem_def, Option.some.injEq, exists_eq_left']
    unfold INT_MAX
    split
    · simp_all
    · split <;> omega

/-- The deadline of a request is reported as due: one of the functions says so, and it is not that
of the transport. -/
def ReportsDue (ctx : Context) (nextTimeout : Nat) : Prop :=
  (nextTimeoutMs ctx nextTimeout = 0 ∨ getTimeout ctx nextTimeout = some 0) ∧
    (nextTimeout = 0 ∨ ctx.now < nextTimeout)

/-- **What is reported as due**: there is a request in a queue whose deadline has been reached. -/
theorem reportsDue_iff (ctx : Context) (nextTimeout : Nat) :
    ReportsDue ctx nextTimeout ↔ (∃ q, ∃ p ∈ ctx.heads q, p.due ctx.now = true) ∧
      (nextTimeout = 0 ∨ ctx.now < nextTimeout) := by
  unfold ReportsDue
  rw [nextTimeoutMs_zero, getTimeout_zero, or_self, reached_earliest]
  constructor
  · rintro ⟨hdue | hnext, hlate⟩
    · exact ⟨hdue, hlate⟩
    · omega
  · rintro ⟨hdue, hlate⟩
    exact ⟨.inl hdue, hlate⟩

end Libsmb2
