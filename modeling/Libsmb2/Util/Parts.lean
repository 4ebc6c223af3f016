import Libsmb2.Util.Bytes

/-!
# Octet strings one after another

Where the parts of a concatenation begin.

* `slice_flatten` — a field of a part is the field of the whole behind the part's offset.
-/

set_option autoImplicit false

namespace Libsmb2.Util

variable {parts : List Bytes}

/-- The offset of part `i`. -/
def offset (parts : List Bytes) (i : Nat) : Nat := (parts.take i).flatten.length

@[simp] theorem offset_zero (parts : List Bytes) : offset parts 0 = 0 := by
  simp [offset]

theorem offset_cons_succ (p : Bytes) (parts : List Bytes) (i : Nat) :
    offset (p :: parts) (i + 1) = p.length + offset parts i := by
  simp [offset]

theorem offset_succ {i : Nat} (h : i < parts.length) :
    offset parts (i + 1) = offset parts i + parts[i].length := by
  simp only [offset, List.take_succ_eq_append_getElem h, List.flatten_append,
    List.length_append, List.flatten_singleton]

/-- **A field of a part stands behind the offset of the part.** -/
theorem slice_flatten {i o n : Nat} (h : i < parts.length) (hfits : o + n ≤ parts[i].length) :
    slice parts.flatten (offset parts i + o) n = slice parts[i] o n := by
  induction parts generalizing i with
  | nil => cases h
  | cons p parts ih =>
    rw [List.flatten_cons]
    cases i with
    | zero =>
      rw [offset_zero, Nat.zero_add]
      exact slice_append_left hfits
    | succ i =>
      have hstep := ih (Nat.lt_of_succ_lt_succ h) hfits
      rw [offset_cons_succ, slice_append_right (by omega)]
      rw [Nat.add_assoc, Nat.add_sub_cancel_left]
      exact hstep

end Libsmb2.Util
