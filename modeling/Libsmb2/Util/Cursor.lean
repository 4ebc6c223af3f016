import Mathlib.Data.List.Nodup
import Mathlib.Data.List.Count
import Mathlib.Algebra.Ring.Nat

/-!
# A cursor in a list that changes under it

A loop holds a pointer to an entry of a list while entries are removed and appended.
`after i l` is what lies from the entry `i` on; the lemmas say how its length, which such a
loop counts down, depends on the changes, and how removing entries lowers a sum of weights.
-/

set_option autoImplicit false

namespace Libsmb2.Util

section
variable {α : Type}

theorem sum_map_filter_le (w : α → Nat) (k : α → Bool) (l : List α) :
    ((l.filter k).map w).sum ≤ (l.map w).sum := by
  induction l with
  | nil => simp
  | cons x l ih =>
    by_cases hk : k x = true
    · simp only [List.filter_cons_of_pos hk, List.map_cons, List.sum_cons]
      omega
    · simp only [List.filter_cons_of_neg hk, List.map_cons, List.sum_cons]
      omega

/-- An entry that a filter drops does not weigh any more. -/
theorem sum_map_filter_add_le (w : α → Nat) {k : α → Bool} {l : List α} {x : α} (hx : x ∈ l)
    (hk : k x = false) : ((l.filter k).map w).sum + w x ≤ (l.map w).sum := by
  induction l with
  | nil => cases hx
  | cons y l ih =>
    rcases List.mem_cons.mp hx with rfl | hx
    · have hle := sum_map_filter_le w k l
      have hneg : ¬ k x = true := by simp [hk]
      simp only [List.filter_cons_of_neg hneg, List.map_cons, List.sum_cons]
      omega
    · have ih := ih hx
      by_cases hy : k y = true
      · simp only [List.filter_cons_of_pos hy, List.map_cons, List.sum_cons]
        omega
      · simp only [List.filter_cons_of_neg hy, List.map_cons, List.sum_cons]
        omega

theorem length_dropWhile_filter_le (p k : α → Bool) (l : List α) :
    ((l.filter k).dropWhile p).length ≤ (l.dropWhile p).length := by
  induction l with
  | nil => simp
  | cons x l ih =>
    by_cases hp : p x = true
    · by_cases hk : k x = true
      · simpa [List.filter_cons, hk, List.dropWhile_cons, hp] using ih
      · simpa [List.filter_cons, hk, List.dropWhile_cons, hp] using ih
    · have hlen : (((x :: l).filter k).dropWhile p).length ≤ ((x :: l).filter k).length :=
        (List.dropWhile_sublist p).length_le
      have hfil := List.length_filter_le k (x :: l)
      rw [List.dropWhile_cons_of_neg hp]
      omega

theorem length_dropWhile_le_cons (p : α → Bool) (x : α) (l : List α) :
    (l.dropWhile p).length ≤ ((x :: l).dropWhile p).length := by
  by_cases hp : p x = true
  · exact (List.dropWhile_cons_of_pos (l := l) hp) ▸ Nat.le_refl _
  · rw [List.dropWhile_cons_of_neg hp]
    have hlen : (l.dropWhile p).length ≤ l.length := (List.dropWhile_sublist p).length_le
    simp only [List.length_cons]
    omega

theorem length_dropWhile_append_le (p : α → Bool) (l m : List α) :
    ((l ++ m).dropWhile p).length ≤ (l.dropWhile p).length + m.length := by
  induction l with
  | nil =>
    have hlen : (m.dropWhile p).length ≤ m.length := (List.dropWhile_sublist p).length_le
    simpa using hlen
  | cons x l ih =>
    by_cases hp : p x = true
    · simpa [List.dropWhile_cons, hp] using ih
    · rw [List.cons_append, List.dropWhile_cons_of_neg hp, List.dropWhile_cons_of_neg hp]
      simp only [List.length_cons, List.length_append]
      omega

end

section
variable {α : Type} [DecidableEq α]

/-- The entries from `i` on. -/
def after (i : α) (l : List α) : List α := l.dropWhile fun x => x != i

/-- The next entry of a list without repetitions is one entry further. -/
theorem after_next {i j : α} {l t : List α} (hn : l.Nodup) (ha : after i l = i :: j :: t) :
    after j l = j :: t := by
  unfold after at ha ⊢
  induction l with
  | nil => simp at ha
  | cons x l ih =>
    have hn' := (List.nodup_cons.mp hn).2
    by_cases hx : x = i
    · subst hx
      rw [List.dropWhile_cons_of_neg (by simp)] at ha
      have hl : l = j :: t := (List.cons.inj ha).2
      have hne : x ≠ j := by
        rintro rfl
        exact (List.nodup_cons.mp hn).1 (hl ▸ List.mem_cons_self ..)
      rw [List.dropWhile_cons_of_pos (by simpa using hne), hl,
        List.dropWhile_cons_of_neg (by simp)]
    · rw [List.dropWhile_cons_of_pos (by simpa using hx)] at ha
      have hj : j ∈ l := by
        have hsub := (List.dropWhile_sublist (l := l) fun x => x != i).subset
        exact hsub (ha ▸ List.mem_cons_of_mem _ (List.mem_cons_self ..))
      have hne : x ≠ j := by
        rintro rfl
        exact (List.nodup_cons.mp hn).1 hj
      rw [List.dropWhile_cons_of_pos (by simpa using hne)]
      exact ih hn' ha

theorem after_eq_cons {i x : α} {l t : List α} (ha : after i l = x :: t) : x = i := by
  unfold after at ha
  induction l with
  | nil => simp at ha
  | cons y l ih =>
    by_cases hy : y = i
    · subst hy
      rw [List.dropWhile_cons_of_neg (by simp)] at ha
      exact ((List.cons.inj ha).1).symm
    · rw [List.dropWhile_cons_of_pos (by simpa using hy)] at ha
      exact ih ha

end

end Libsmb2.Util
