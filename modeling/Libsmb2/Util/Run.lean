/-!
# Runs of a function that may fail

A C function works on memory and returns 0 or -1; after a failure the memory is what it was when
the function gave up, and a caller may still look at it.  A run may also do what no function may
do (`fault`); nothing is said of the memory then.

* `Run.bind_done`, `Run.bind_fail`, `Run.bind_fault` — one function after another;
* `Run.run_thenAlways` — what is done behind a function whether it fails or not;
* `Run.FaultsIn.bind` — the faults of one function after another;
* `Run.Keeps.bind`, `Run.Keeps.thenAlways` — what neither of two functions changes;
* `Run.Relates.bind`, `Run.Relates.thenAlways` — how the memory behind a run has to do with the
  memory before it.
-/

set_option autoImplicit false

namespace Libsmb2.Util

/-- How a run ends: with a value, with a failure, or with a fault. -/
inductive Outcome (σ φ α : Type)
  | done (a : α) (s : σ)
  | fail (s : σ)
  | fault (f : φ)
  deriving DecidableEq, Repr

/-- What follows a run that has not failed. -/
def Outcome.andThen {σ φ α β : Type} (o : Outcome σ φ α) (f : α → σ → Outcome σ φ β) :
    Outcome σ φ β :=
  match o with
  | .done a t => f a t
  | .fail t => .fail t
  | .fault e => .fault e

/-- A function on the memory `σ`, with the faults `φ`. -/
structure Run (σ φ α : Type) where
  run : σ → Outcome σ φ α

namespace Run

section
variable {σ φ α β : Type}

instance : Monad (Run σ φ) where
  pure a := ⟨fun s => .done a s⟩
  bind x f := ⟨fun s => (x.run s).andThen fun a t => (f a).run t⟩

def fail : Run σ φ α := ⟨fun s => .fail s⟩

def fault (e : φ) : Run σ φ α := ⟨fun _ => .fault e⟩

def get : Run σ φ σ := ⟨fun s => .done s s⟩

def modify (f : σ → σ) : Run σ φ Unit := ⟨fun s => .done () (f s)⟩

/-- A function, and what is done behind it whether it fails or not. -/
def thenAlways (x : Run σ φ α) (y : Run σ φ Unit) : Run σ φ α := ⟨fun s =>
  match x.run s with
  | .done a t => (y >>= fun _ => pure a).run t
  | .fail t => (y >>= fun _ => fail).run t
  | .fault e => .fault e⟩

variable {x : Run σ φ α} {f : α → Run σ φ β} {s t : σ}

@[simp] theorem run_pure (a : α) (s : σ) : (pure a : Run σ φ α).run s = .done a s := rfl

@[simp] theorem run_fail (s : σ) : (fail : Run σ φ α).run s = .fail s := rfl

@[simp] theorem run_fault (e : φ) (s : σ) : (fault e : Run σ φ α).run s = .fault e := rfl

@[simp] theorem run_get (s : σ) : (get : Run σ φ σ).run s = .done s s := rfl

@[simp] theorem run_modify (g : σ → σ) (s : σ) :
    (modify g : Run σ φ Unit).run s = .done () (g s) := rfl

theorem run_bind (x : Run σ φ α) (f : α → Run σ φ β) (s : σ) :
    (x >>= f).run s = (x.run s).andThen fun a t => (f a).run t := rfl

@[simp] theorem andThen_done (a : α) (s : σ) (f : α → σ → Outcome σ φ β) :
    (Outcome.done a s).andThen f = f a s := rfl

@[simp] theorem andThen_fail (s : σ) (f : α → σ → Outcome σ φ β) :
    (Outcome.fail s).andThen f = .fail s := rfl

@[simp] theorem andThen_fault (e : φ) (f : α → σ → Outcome σ φ β) :
    (Outcome.fault e).andThen f = .fault e := rfl

@[simp] theorem run_ite (p : Prop) [Decidable p] (x y : Run σ φ α) (s : σ) :
    (if p then x else y).run s = if p then x.run s else y.run s := by
  split <;> rfl

theorem run_thenAlways (x : Run σ φ α) (y : Run σ φ Unit) (s : σ) :
    (x.thenAlways y).run s = match x.run s with
      | .done a t => (y.run t).andThen fun _ t => .done a t
      | .fail t => (y.run t).andThen fun _ t => .fail t
      | .fault e => .fault e :=
  rfl

theorem bind_done {a : α} (h : x.run s = .done a t) : (x >>= f).run s = (f a).run t := by
  rw [run_bind, h, andThen_done]

theorem bind_fail (h : x.run s = .fail t) : (x >>= f).run s = .fail t := by
  rw [run_bind, h, andThen_fail]

theorem bind_fault {e : φ} (h : x.run s = .fault e) : (x >>= f).run s = .fault e := by
  rw [run_bind, h, andThen_fault]

@[simp] theorem get_bind (f : σ → Run σ φ β) (s : σ) : (get >>= f).run s = (f s).run s := rfl

@[simp] theorem modify_bind (g : σ → σ) (f : Unit → Run σ φ β) (s : σ) :
    (modify g >>= f).run s = (f ()).run (g s) := rfl

@[simp] theorem pure_bind' (a : α) (f : α → Run σ φ β) (s : σ) :
    (pure a >>= f).run s = (f a).run s := rfl

theorem map_id' (x : Run σ φ α) : id <$> x = x := by
  cases x with
  | mk x =>
    apply congrArg Run.mk
    funext s
    change (x s).andThen _ = _
    cases x s with
    | done a t => rfl
    | fail t => rfl
    | fault e => rfl

theorem bind_assoc' {γ : Type} (x : Run σ φ α) (f : α → Run σ φ β) (g : β → Run σ φ γ) :
    x >>= f >>= g = x >>= fun a => f a >>= g := by
  apply congrArg Run.mk
  funext s
  change ((x.run s).andThen _).andThen _ = (x.run s).andThen _
  cases x.run s with
  | done a t => rfl
  | fail t => rfl
  | fault e => rfl

instance : LawfulMonad (Run σ φ) := LawfulMonad.mk' _ map_id' (fun _ _ => rfl) bind_assoc'

/-! ## Faults -/

/-- The function has no other faults than these. -/
def FaultsIn (P : φ → Prop) (x : Run σ φ α) : Prop := ∀ s e, x.run s = .fault e → P e

variable {P : φ → Prop}

theorem FaultsIn.pure (a : α) : FaultsIn P (pure a : Run σ φ α) := fun _ _ h => nomatch h

theorem FaultsIn.fail : FaultsIn P (fail : Run σ φ α) := fun _ _ h => nomatch h

theorem FaultsIn.modify (g : σ → σ) : FaultsIn P (modify g : Run σ φ Unit) :=
  fun _ _ h => nomatch h

theorem FaultsIn.get : FaultsIn P (get : Run σ φ σ) := fun _ _ h => nomatch h

theorem FaultsIn.fault {e : φ} (he : P e) : FaultsIn P (fault e : Run σ φ α) := by
  intro s e' h
  cases h
  exact he

theorem FaultsIn.bind (hx : FaultsIn P x) (hf : ∀ a, FaultsIn P (f a)) :
    FaultsIn P (x >>= f) := by
  intro s e h
  rw [run_bind] at h
  cases hrun : x.run s with
  | done a t =>
    rw [hrun] at h
    exact hf a t e h
  | fail t =>
    rw [hrun] at h
    cases h
  | fault _ =>
    rw [hrun] at h
    cases h
    exact hx s e hrun

/-! ## Frames -/

/-- A run keeps what is looked at of the memory, and has no other faults than these. -/
def Keeps {δ : Type} (look : σ → δ) (P : φ → Prop) (x : Run σ φ α) : Prop :=
  ∀ s, match x.run s with
    | .done _ t => look t = look s
    | .fail _ => True
    | .fault e => P e

variable {δ : Type} {look : σ → δ}

theorem Keeps.pure (a : α) : Keeps look P (pure a : Run σ φ α) := fun _ => rfl

theorem Keeps.fail : Keeps look P (fail : Run σ φ α) := fun _ => trivial

theorem Keeps.fault {e : φ} (he : P e) : Keeps look P (fault e : Run σ φ α) := fun _ => he

theorem Keeps.get : Keeps look P (get : Run σ φ σ) := fun _ => rfl

theorem Keeps.modify {g : σ → σ} (hg : ∀ s, look (g s) = look s) :
    Keeps look P (modify g : Run σ φ Unit) := hg

theorem Keeps.bind (hx : Keeps look P x) (hf : ∀ a, Keeps look P (f a)) :
    Keeps look P (x >>= f) := by
  intro s
  have hfirst := hx s
  rw [run_bind]
  cases hrun : x.run s with
  | done a t =>
    rw [hrun] at hfirst
    have hthen := hf a t
    rw [andThen_done]
    cases hrun' : (f a).run t with
    | done b r =>
      rw [hrun'] at hthen
      exact hthen.trans hfirst
    | fail r => trivial
    | fault e =>
      rw [hrun'] at hthen
      exact hthen
  | fail t => trivial
  | fault e =>
    rw [hrun] at hfirst
    exact hfirst

theorem Keeps.thenAlways {y : Run σ φ Unit} (hx : Keeps look P x) (hy : Keeps look P y) :
    Keeps look P (x.thenAlways y) := by
  intro s
  have hfirst := hx s
  rw [run_thenAlways]
  cases hrun : x.run s with
  | done a t =>
    rw [hrun] at hfirst
    have hthen := hy t
    dsimp only
    cases hrun' : y.run t with
    | done b r =>
      rw [hrun'] at hthen
      exact hthen.trans hfirst
    | fail r => trivial
    | fault e =>
      rw [hrun'] at hthen
      exact hthen
  | fail t =>
    have hthen := hy t
    dsimp only
    cases hrun' : y.run t with
    | done b r => trivial
    | fail r => trivial
    | fault e =>
      rw [hrun'] at hthen
      exact hthen
  | fault e =>
    rw [hrun] at hfirst
    exact hfirst

end

/-! ## Relations -/

section
variable {σ φ α β : Type}

/-- A run that ends with a value leads from a memory to one that it is related to. -/
def Relates (R : σ → σ → Prop) (x : Run σ φ α) : Prop := ∀ s a t, x.run s = .done a t → R s t

variable {R : σ → σ → Prop} {x : Run σ φ α} {f : α → Run σ φ β}

theorem Relates.fail : Relates R (fail : Run σ φ α) := fun _ _ _ h => nomatch h

theorem Relates.fault (e : φ) : Relates R (fault e : Run σ φ α) := fun _ _ _ h => nomatch h

theorem Relates.modify {g : σ → σ} (hg : ∀ s, R s (g s)) :
    Relates R (modify g : Run σ φ Unit) := by
  intro s a t h
  cases h
  exact hg s

theorem Relates.pure (hrefl : ∀ s, R s s) (a : α) : Relates R (pure a : Run σ φ α) := by
  intro s b t h
  cases h
  exact hrefl s

theorem Relates.get (hrefl : ∀ s, R s s) : Relates R (get : Run σ φ σ) := by
  intro s a t h
  cases h
  exact hrefl s

theorem Relates.bind (htrans : ∀ {r s t}, R r s → R s t → R r t) (hx : Relates R x)
    (hf : ∀ a, Relates R (f a)) : Relates R (x >>= f) := by
  intro s b r h
  rw [run_bind] at h
  cases hrun : x.run s with
  | done a t =>
    rw [hrun] at h
    exact htrans (hx s a t hrun) (hf a t b r h)
  | fail t =>
    rw [hrun] at h
    cases h
  | fault e =>
    rw [hrun] at h
    cases h

theorem Relates.thenAlways (htrans : ∀ {r s t}, R r s → R s t → R r t) {y : Run σ φ Unit}
    (hx : Relates R x) (hy : Relates R y) : Relates R (x.thenAlways y) := by
  intro s b r h
  rw [run_thenAlways] at h
  cases hrun : x.run s with
  | done a t =>
    rw [hrun] at h
    dsimp only at h
    cases hrun' : y.run t with
    | done u t' =>
      rw [hrun'] at h
      cases h
      exact htrans (hx s _ t hrun) (hy t u _ hrun')
    | fail t' =>
      rw [hrun'] at h
      cases h
    | fault e =>
      rw [hrun'] at h
      cases h
  | fail t =>
    rw [hrun] at h
    dsimp only at h
    cases hrun' : y.run t with
    | done u t' =>
      rw [hrun'] at h
      cases h
    | fail t' =>
      rw [hrun'] at h
      cases h
    | fault e =>
      rw [hrun'] at h
      cases h
  | fault e =>
    rw [hrun] at h
    cases h

end

end Run

end Libsmb2.Util
