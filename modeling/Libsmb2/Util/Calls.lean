/-!
# Machines that answer calls

A machine takes a call, changes its state and answers.  Two machines that stay in a relation and
answer alike, call by call, answer every run of calls alike.

* `Simulates.state`, `Simulates.answers` — what holds of one call, of a run.
-/

set_option autoImplicit false

namespace Libsmb2.Util

structure Machine (σ ι ο : Type) where
  step : σ → ι → σ × ο

namespace Machine

variable {σ τ ι ο : Type}

/-- The state after some calls. -/
def state (M : Machine σ ι ο) (s : σ) (calls : List ι) : σ :=
  calls.foldl (fun s i => (M.step s i).1) s

/-- The answers to some calls. -/
def answers (M : Machine σ ι ο) : σ → List ι → List ο
  | _, [] => []
  | s, i :: calls => (M.step s i).2 :: M.answers (M.step s i).1 calls

/-- Related states answer a call alike and go on to related states. -/
structure Simulates (M : Machine σ ι ο) (N : Machine τ ι ο) (R : σ → τ → Prop) : Prop where
  next : ∀ {s t} (i : ι), R s t → R (M.step s i).1 (N.step t i).1
  same : ∀ {s t} (i : ι), R s t → (M.step s i).2 = (N.step t i).2

variable {M : Machine σ ι ο} {N : Machine τ ι ο} {R : σ → τ → Prop} {s : σ} {t : τ}

theorem Simulates.state (h : M.Simulates N R) (hr : R s t) (calls : List ι) :
    R (M.state s calls) (N.state t calls) := by
  induction calls generalizing s t with
  | nil => exact hr
  | cons i calls ih => exact ih (h.next i hr)

theorem Simulates.answers (h : M.Simulates N R) (hr : R s t) (calls : List ι) :
    M.answers s calls = N.answers t calls := by
  induction calls generalizing s t with
  | nil => rfl
  | cons i calls ih => rw [Machine.answers, Machine.answers, h.same i hr, ih (h.next i hr)]

end Machine

end Libsmb2.Util
