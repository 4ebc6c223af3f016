import Libsmb2.Util.Window

/-!
# Blocks that are filled

A block of memory as it is allocated, with nothing in it, and what is stored there: fields, by an
accessor that leaves out what does not fit, and copies, which are made without a look at the size.

* `runStores_inside_iff` — a sequence of stores stays in the block exactly if its copies fit;
* `isSome_runStores_iff` — an octet of a new block is written exactly if a store that fits has it;
* `slice_octets_of_mem`, `holds_octets` — what does not overlap a later store is read back.
-/

set_option autoImplicit false

namespace Libsmb2.Util

/-- A block, and which of its octets have been written. -/
structure Block where
  size : Nat
  cell : Nat → Option UInt8

namespace Block

/-- As it is allocated. -/
def fresh (size : Nat) : Block := ⟨size, fun _ => none⟩

def put (b : Block) (off : Nat) (bs : Bytes) : Block :=
  { b with cell := fun i => if off ≤ i ∧ i < off + bs.length then bs[i - off]? else b.cell i }

/-- The first `n` octets, of which those that have not been written hold whatever was there. -/
def octets (b : Block) (junk : Nat → UInt8) (n : Nat) : Bytes :=
  (List.range n).map fun i => (b.cell i).getD (junk i)

/-- The first `n` octets are in the block and have been written. -/
def Filled (b : Block) (n : Nat) : Prop := n ≤ b.size ∧ ∀ i < n, (b.cell i).isSome

@[simp] theorem fresh_size (size : Nat) : (fresh size).size = size := rfl

@[simp] theorem put_size (b : Block) (off : Nat) (bs : Bytes) : (b.put off bs).size = b.size := rfl

@[simp] theorem length_octets (b : Block) (junk : Nat → UInt8) (n : Nat) :
    (b.octets junk n).length = n := by
  simp [octets]

end Block

/-- A field at an offset, or a copy to one. -/
inductive Store
  | set (off : Nat) (bs : Bytes)
  | copy (off : Nat) (bs : Bytes)
  deriving DecidableEq, Repr

namespace Store

def off : Store → Nat
  | set off _ => off
  | copy off _ => off

def bytes : Store → Bytes
  | set _ bs => bs
  | copy _ bs => bs

/-- Where the store ends. -/
def stop (st : Store) : Nat := st.off + st.bytes.length

/-- It does not leave a block of this size: a field never does, and a copy of nothing. -/
def Fits (size : Nat) : Store → Prop
  | set _ _ => True
  | copy off bs => bs = [] ∨ off + bs.length ≤ size

instance (size : Nat) (st : Store) : Decidable (st.Fits size) := by
  cases st
  · exact inferInstanceAs (Decidable True)
  · exact inferInstanceAs (Decidable (_ ∨ _))

/-- It is made in a block of this size, and the octet is one of its own. -/
def Covers (size i : Nat) (st : Store) : Prop := st.off ≤ i ∧ i < st.stop ∧ st.stop ≤ size

/-- Neither has an octet of the other. -/
def Apart (st st' : Store) : Prop := st.stop ≤ st'.off ∨ st'.stop ≤ st.off

/-- What a store that fits makes of a block. -/
def apply (b : Block) (st : Store) : Block := if st.stop ≤ b.size then b.put st.off st.bytes else b

def run (b : Block) (st : Store) : Except Overrun Block :=
  match st with
  | set off bs => .ok (if b.size < off + bs.length then b else b.put off bs)
  | copy off bs =>
    if bs = [] then .ok b
    else if off + bs.length ≤ b.size then .ok (b.put off bs)
    else .error .write

theorem apply_set (b : Block) (off : Nat) (bs : Bytes) :
    (set off bs).apply b = if off + bs.length ≤ b.size then b.put off bs else b := rfl

theorem apply_copy (b : Block) (off : Nat) (bs : Bytes) :
    (copy off bs).apply b = if off + bs.length ≤ b.size then b.put off bs else b := rfl

section
variable {b : Block} {st st' : Store} {i : Nat}

@[simp] theorem apply_size : (st.apply b).size = b.size := by
  unfold apply
  split <;> rfl

theorem put_nil (b : Block) (off : Nat) : b.put off [] = b := by
  unfold Block.put
  simp only [List.length_nil, Nat.add_zero]
  congr 1
  funext i
  exact if_neg (by omega)

theorem run_of_fits (h : st.Fits b.size) : st.run b = .ok (st.apply b) := by
  cases st with
  | set off bs =>
    rw [apply_set]
    unfold run
    simp only
    by_cases hin : off + bs.length ≤ b.size
    · rw [if_neg (by omega), if_pos hin]
    · rw [if_pos (by omega), if_neg hin]
  | copy off bs =>
    rw [apply_copy]
    unfold run
    simp only
    by_cases hnil : bs = []
    · rw [if_pos hnil, hnil, put_nil, ite_self]
    · have hin : off + bs.length ≤ b.size := h.resolve_left hnil
      rw [if_neg hnil, if_pos hin, if_pos hin]

theorem run_of_not_fits (h : ¬ st.Fits b.size) : st.run b = .error .write := by
  cases st with
  | set off bs => exact absurd trivial h
  | copy off bs =>
    obtain ⟨hnil, hin⟩ := not_or.mp h
    unfold run
    simp only
    rw [if_neg hnil, if_neg hin]

theorem cell_apply_of_covers (h : st.Covers b.size i) :
    (st.apply b).cell i = st.bytes[i - st.off]? := by
  obtain ⟨hlow, hhigh, hin⟩ := h
  unfold apply
  rw [if_pos hin]
  exact if_pos ⟨hlow, hhigh⟩

theorem cell_apply_of_not_covers (h : ¬ st.Covers b.size i) : (st.apply b).cell i = b.cell i := by
  unfold apply
  split
  · rename_i hin
    exact if_neg fun ⟨hlow, hhigh⟩ => h ⟨hlow, hhigh, hin⟩
  · rfl

theorem Covers.isSome (h : st.Covers b.size i) : (st.bytes[i - st.off]?).isSome := by
  obtain ⟨hlow, hhigh, -⟩ := h
  unfold stop at hhigh
  rw [List.getElem?_eq_getElem (by omega)]
  rfl

theorem Apart.not_covers {size : Nat} (h : st.Apart st') (hi : st.Covers size i) :
    ¬ st'.Covers size i := by
  rintro ⟨hlow', hhigh', -⟩
  obtain ⟨hlow, hhigh, -⟩ := hi
  rcases h with h | h <;> omega

end

end Store

/-- One after the other. -/
def runStores (b : Block) (stores : List Store) : Except Overrun Block :=
  stores.foldlM Store.run b

section
variable {b : Block} {stores : List Store} {i : Nat}

@[simp] theorem size_foldl_apply : (stores.foldl Store.apply b).size = b.size := by
  induction stores generalizing b with
  | nil => rfl
  | cons st stores ih =>
    rw [List.foldl_cons, ih, Store.apply_size]

theorem runStores_eq (h : ∀ st ∈ stores, st.Fits b.size) :
    runStores b stores = .ok (stores.foldl Store.apply b) := by
  induction stores generalizing b with
  | nil => rfl
  | cons st stores ih =>
    unfold runStores
    rw [List.foldlM_cons, Store.run_of_fits (h st List.mem_cons_self)]
    refine ih fun st' hst' => ?_
    rw [Store.apply_size]
    exact h st' (List.mem_cons_of_mem st hst')

/-- Nothing but a copy leaves the block. -/
theorem runStores_inside_iff : Inside (runStores b stores) ↔ ∀ st ∈ stores, st.Fits b.size := by
  constructor
  · induction stores generalizing b with
    | nil => simp
    | cons st stores ih =>
      intro h
      unfold runStores at h
      rw [List.foldlM_cons] at h
      obtain ⟨b', hb', hrest⟩ := inside_bind_iff.mp h
      by_cases hfits : st.Fits b.size
      · rw [Store.run_of_fits hfits] at hb'
        cases hb'
        intro st' hst'
        rcases List.mem_cons.mp hst' with rfl | hst'
        · exact hfits
        · have hall := ih hrest st' hst'
          rwa [Store.apply_size] at hall
      · rw [Store.run_of_not_fits hfits] at hb'
        cases hb'
  · intro h
    exact ⟨_, runStores_eq h⟩

/-- An octet is written if it was before, or if a store has it. -/
theorem isSome_foldl_apply_iff : ((stores.foldl Store.apply b).cell i).isSome ↔
    (b.cell i).isSome ∨ ∃ st ∈ stores, st.Covers b.size i := by
  induction stores generalizing b with
  | nil => simp
  | cons st stores ih =>
    rw [List.foldl_cons, ih, Store.apply_size, List.exists_mem_cons_iff]
    by_cases h : st.Covers b.size i
    · rw [Store.cell_apply_of_covers h]
      exact iff_of_true (.inl h.isSome) (.inr (.inl h))
    · rw [Store.cell_apply_of_not_covers h]
      constructor
      · rintro (hold | hlater)
        · exact .inl hold
        · exact .inr (.inr hlater)
      · rintro (hold | hnow | hlater)
        · exact .inl hold
        · exact absurd hnow h
        · exact .inr hlater

/-- An octet of a new block is written exactly if a store has it. -/
theorem isSome_runStores_iff {size : Nat} :
    ((stores.foldl Store.apply (.fresh size)).cell i).isSome ↔ ∃ st ∈ stores, st.Covers size i := by
  rw [isSome_foldl_apply_iff]
  exact or_iff_right (by simp [Block.fresh])

theorem cell_foldl_apply_of_none (h : ∀ st ∈ stores, ¬ st.Covers b.size i) :
    (stores.foldl Store.apply b).cell i = b.cell i := by
  induction stores generalizing b with
  | nil => rfl
  | cons st stores ih =>
    rw [List.foldl_cons, ih]
    · exact Store.cell_apply_of_not_covers (h st List.mem_cons_self)
    · intro st' hst'
      rw [Store.apply_size]
      exact h st' (List.mem_cons_of_mem st hst')

/-- Of stores that are apart, each is read back. -/
theorem cell_foldl_apply_of_mem (hapart : stores.Pairwise Store.Apart) {st : Store}
    (hst : st ∈ stores) (h : st.Covers b.size i) :
    (stores.foldl Store.apply b).cell i = st.bytes[i - st.off]? := by
  induction stores generalizing b with
  | nil => cases hst
  | cons st' stores ih =>
    obtain ⟨hhead, htail⟩ := List.pairwise_cons.mp hapart
    rw [List.foldl_cons]
    rcases List.mem_cons.mp hst with rfl | hst
    · rw [cell_foldl_apply_of_none, Store.cell_apply_of_covers h]
      intro st' hst'
      rw [Store.apply_size]
      exact (hhead st' hst').not_covers h
    · exact ih htail hst (by rwa [Store.apply_size])

theorem slice_octets_of_cells {off n : Nat} {bs : Bytes}
    (hcells : ∀ (i : Nat) (hi : i < bs.length), b.cell (off + i) = some bs[i])
    (hstop : off + bs.length ≤ n) (junk : Nat → UInt8) :
    slice (b.octets junk n) off bs.length = bs := by
  apply List.ext_getElem
  · rw [length_slice, Block.length_octets]
    omega
  · intro i hi hi'
    simp only [slice, Block.octets, List.getElem_take, List.getElem_drop, List.getElem_map,
      List.getElem_range, hcells i hi', Option.getD_some]

/-- A store is read back if it is apart from those around it and from all that follow. -/
theorem slice_octets_append {tail : List Store} {n : Nat} (hapart : stores.Pairwise Store.Apart)
    {st : Store} (hst : st ∈ stores) (htail : ∀ st' ∈ tail, st.Apart st') (hstop : st.stop ≤ n)
    (hsize : st.stop ≤ b.size) (junk : Nat → UInt8) :
    slice (((stores ++ tail).foldl Store.apply b).octets junk n) st.off st.bytes.length =
      st.bytes := by
  refine slice_octets_of_cells (fun i hi => ?_) hstop junk
  have hcovers : st.Covers b.size (st.off + i) := ⟨by omega, by unfold Store.stop; omega, hsize⟩
  rw [List.foldl_append, cell_foldl_apply_of_none, cell_foldl_apply_of_mem hapart hst hcovers,
    Nat.add_sub_cancel_left, List.getElem?_eq_getElem hi]
  intro st' hst'
  rw [size_foldl_apply]
  exact (htail st' hst').not_covers hcovers

theorem slice_octets_of_mem {size n : Nat} (hapart : stores.Pairwise Store.Apart) {st : Store}
    (hst : st ∈ stores) (hstop : st.stop ≤ n) (hsize : st.stop ≤ size) (junk : Nat → UInt8) :
    slice ((stores.foldl Store.apply (.fresh size)).octets junk n) st.off st.bytes.length =
      st.bytes := by
  have hslice : slice (((stores ++ []).foldl Store.apply (.fresh size)).octets junk n) st.off
      st.bytes.length = st.bytes := slice_octets_append hapart hst (by simp) hstop hsize junk
  rwa [List.append_nil] at hslice

/-- Each store is found where it was made. -/
def Holds (stores : List Store) (bs : Bytes) : Prop :=
  ∀ st ∈ stores, slice bs st.off st.bytes.length = st.bytes

theorem Holds.mono {sub : List Store} {bs : Bytes} (h : Holds stores bs)
    (hsub : ∀ st ∈ sub, st ∈ stores) : Holds sub bs := fun st hst => h st (hsub st hst)

/-- Stores that are apart are all found in what is sent. -/
theorem holds_octets {size n : Nat} (hapart : stores.Pairwise Store.Apart)
    (hstop : ∀ st ∈ stores, st.stop ≤ n) (hsize : n ≤ size) (junk : Nat → UInt8) :
    Holds stores ((stores.foldl Store.apply (.fresh size)).octets junk n) := fun st hst =>
  slice_octets_of_mem hapart hst (hstop st hst) (Nat.le_trans (hstop st hst) hsize) junk

end

end Libsmb2.Util
