import Mathlib.Data.Finset.Basic

/-!
# Blocks on a heap

Blocks that are allocated and released, known by their addresses, none of which is handed out
twice.  Releasing a null pointer does nothing and releasing what is not allocated is a fault, so
that a run without one releases no block twice.

* `Heap.malloc`, `Heap.free` — a block more, and a block less;
* `Heap.free_malloc` — a new block can be released, which leaves what there was.
-/

set_option autoImplicit false

namespace Libsmb2.Util

/-- The addresses of the blocks that are allocated, all of them before the next. -/
structure Heap where
  next : Nat
  allocated : Finset Nat
  lt_next : ∀ b ∈ allocated, b < next

namespace Heap

def empty : Heap where
  next := 0
  allocated := ∅
  lt_next := fun b hb => absurd hb (Finset.notMem_empty b)

/-- A block that has not been handed out before. -/
def malloc (h : Heap) : Nat × Heap :=
  (h.next, {
    next := h.next + 1
    allocated := insert h.next h.allocated
    lt_next := by
      intro b hb
      rcases Finset.mem_insert.mp hb with rfl | hb
      · exact Nat.lt_succ_self _
      · exact Nat.lt_succ_of_lt (h.lt_next b hb) })

/-- Without a block. -/
def erase (h : Heap) (b : Nat) : Heap where
  next := h.next
  allocated := h.allocated.erase b
  lt_next := fun b' hb' => h.lt_next b' (Finset.mem_of_mem_erase hb')

/-- `free`; `none` is a fault. -/
def free (h : Heap) : Option Nat → Option Heap
  | none => some h
  | some b => if b ∈ h.allocated then some (h.erase b) else none

section
variable {h : Heap} {b : Nat}

theorem next_not_mem (h : Heap) : h.next ∉ h.allocated := fun hmem =>
  Nat.lt_irrefl _ (h.lt_next _ hmem)

theorem malloc_mem (h : Heap) : h.malloc.1 ∈ h.malloc.2.allocated := Finset.mem_insert_self _ _

theorem free_of_mem (hb : b ∈ h.allocated) : h.free (some b) = some (h.erase b) := if_pos hb

theorem erase_not_mem (h : Heap) (b : Nat) : b ∉ (h.erase b).allocated := Finset.notMem_erase _ _

/-- A new block that is released leaves what there was. -/
@[simp] theorem erase_malloc (h : Heap) :
    (h.malloc.2.erase h.malloc.1).allocated = h.allocated := by
  show (insert h.next h.allocated).erase h.next = h.allocated
  exact Finset.erase_insert h.next_not_mem

theorem free_malloc (h : Heap) : ∃ h', h.malloc.2.free (some h.malloc.1) = some h' ∧
    h'.allocated = h.allocated := ⟨_, free_of_mem h.malloc_mem, h.erase_malloc⟩

end

end Heap

end Libsmb2.Util
