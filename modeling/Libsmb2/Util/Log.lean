import Mathlib.Data.List.Basic

/-!
# Logs that only grow

A run of a program keeps a log of what happened.  `Logged P a b` says that the log `b` is
the log `a` followed by events of kind `P`; it composes along a run, and an event of the
later log is an old one or one of that kind.
-/

set_option autoImplicit false

namespace Libsmb2.Util

variable {α : Type} {P Q : α → Prop} {a b c : List α} {e : α}

/-- The log grew by events of this kind. -/
def Logged (P : α → Prop) (old new : List α) : Prop :=
  ∃ es, new = old ++ es ∧ ∀ e ∈ es, P e

namespace Logged

theorem refl (l : List α) : Logged P l l :=
  ⟨[], by simp, by simp⟩

theorem trans (h₁ : Logged P a b) (h₂ : Logged P b c) : Logged P a c := by
  obtain ⟨x, rfl, hx⟩ := h₁
  obtain ⟨y, rfl, hy⟩ := h₂
  refine ⟨x ++ y, by simp, ?_⟩
  intro e he
  rcases List.mem_append.mp he with he | he
  · exact hx e he
  · exact hy e he

theorem mono (hPQ : ∀ e, P e → Q e) (hl : Logged P a b) : Logged Q a b := by
  obtain ⟨x, rfl, hx⟩ := hl
  exact ⟨x, rfl, fun e he => hPQ e (hx e he)⟩

theorem push (he : P e) : Logged P a (a ++ [e]) :=
  ⟨[e], rfl, by simpa using he⟩

/-- An event of the whole log is an old one or a new one. -/
theorem mem (hl : Logged P a b) (he : e ∈ b) : e ∈ a ∨ P e := by
  obtain ⟨x, rfl, hx⟩ := hl
  rcases List.mem_append.mp he with he | he
  · exact .inl he
  · exact .inr (hx e he)

/-- What has happened stays in the log. -/
theorem subset (hl : Logged P a b) (he : e ∈ a) : e ∈ b := by
  obtain ⟨x, rfl, _⟩ := hl
  exact List.mem_append_left _ he

theorem isPrefix (hl : Logged P a b) : a <+: b := by
  obtain ⟨x, rfl, _⟩ := hl
  exact List.prefix_append a x

end Logged

/-- An entry of a log that has grown by one is the new one, or stood in the old log. -/
theorem concat_split {l pre post : List α} {x : α} (h : l ++ [e] = pre ++ x :: post) :
    (post = [] ∧ pre = l ∧ x = e) ∨ ∃ post', post = post' ++ [e] ∧ l = pre ++ x :: post' := by
  rcases List.eq_nil_or_concat post with rfl | ⟨post', y, rfl⟩
  · obtain ⟨hl, hx⟩ := List.append_inj' h rfl
    exact .inl ⟨rfl, hl.symm, (List.singleton_inj.mp hx).symm⟩
  · have h' : l ++ [e] = (pre ++ x :: post') ++ [y] := by simpa using h
    obtain ⟨hl, hy⟩ := List.append_inj' h' rfl
    refine .inr ⟨post', ?_, hl⟩
    rw [List.singleton_inj.mp hy]
    simp

/-- An entry of a log that has grown is an old one, or a new one. -/
theorem append_split {l es pre post : List α} {x : α}
    (h : l ++ es = pre ++ x :: post) :
    (∃ post', l = pre ++ x :: post') ∨ ∃ es₁ es₂, es = es₁ ++ x :: es₂ ∧ pre = l ++ es₁ := by
  rcases List.append_eq_append_iff.mp h with ⟨as, hpre, hes⟩ | ⟨bs, hl, hpost⟩
  · exact .inr ⟨as, post, hes, hpre⟩
  · cases bs with
    | nil => exact .inr ⟨[], post, by simpa using hpost.symm, by simpa using hl.symm⟩
    | cons b bs =>
      obtain ⟨rfl, -⟩ := List.cons.inj hpost
      exact .inl ⟨bs, hl⟩

end Libsmb2.Util
