import Libsmb2.Dcerpc.Lsa

/-!
# The memory of decoded arrays

What an allocation leaves as it was, and how a loop over elements runs up to the first one that it
does not get over.

* `allocArray_run` — an array is allocated, unless its size wraps around;
* `Heap.Extends` — new blocks behind those that there are;
* `elements_done`, `elements_stops` — a loop whose steps keep an invariant.
-/

set_option autoImplicit false

namespace Libsmb2.Dcerpc

open Util

@[simp] theorem Addr.add_add (a : Addr) (m n : Nat) : (a.add m).add n = a.add (m + n) := by
  simp [Addr.add, Nat.add_assoc]

@[simp] theorem Addr.add_zero (a : Addr) : a.add 0 = a := rfl

@[simp] theorem Addr.block_add (a : Addr) (n : Nat) : (a.add n).block = a.block := rfl

@[simp] theorem Addr.off_add (a : Addr) (n : Nat) : (a.add n).off = a.off + n := rfl

theorem Addr.add_inj {a : Addr} {m n : Nat} : a.add m = a.add n ↔ m = n := by
  constructor
  · intro h
    have hoff : a.off + m = a.off + n := congrArg Addr.off h
    omega
  · rintro rfl
    rfl

/-! ## Blocks -/

namespace Heap

variable {h h' h'' : Heap} {a p x : Addr} {c : Cell} {size off w : Nat}

theorem Fits.block_lt (hfits : h.Fits a w) : a.block < h.length := by
  obtain ⟨b, hb, -⟩ := hfits
  exact (List.getElem?_eq_some_iff.mp hb).1

@[simp] theorem length_put : (h.put a c).length = h.length := List.length_modify ..

/-- An array of exactly so many octets begins here. -/
def Sized (h : Heap) (p : Addr) (size : Nat) : Prop :=
  p.off = 0 ∧ ∃ b, h[p.block]? = some b ∧ b.size = size

theorem Sized.fits (hsized : h.Sized p size) : h.Fits (p.add off) w ↔ off + w ≤ size := by
  obtain ⟨hoff, b, hb, rfl⟩ := hsized
  constructor
  · rintro ⟨b', hb', hle⟩
    rw [Addr.block_add, hb] at hb'
    cases hb'
    simpa [hoff] using hle
  · exact fun hle => ⟨b, hb, by simpa [hoff] using hle⟩

@[simp] theorem sized_put : (h.put a c).Sized p size ↔ h.Sized p size := by
  unfold Sized
  rw [getElem?_put]
  cases h[p.block]? with
  | none => simp
  | some b =>
    by_cases hblock : a.block = p.block
    · simp [hblock]
    · simp [hblock]

theorem sized_fresh (h : Heap) (size : Nat) : (h ++ [Block.fresh size]).Sized ⟨h.length, 0⟩ size :=
  ⟨rfl, Block.fresh size, List.getElem?_concat_length, rfl⟩

theorem Sized.size_unique {m n : Nat} (hm : h.Sized p m) (hn : h.Sized p n) : m = n := by
  obtain ⟨-, b, hb, rfl⟩ := hm
  obtain ⟨-, b', hb', rfl⟩ := hn
  rw [hb] at hb'
  cases hb'
  rfl

theorem Sized.append (hsized : h.Sized p size) (new : Heap) : (h ++ new).Sized p size := by
  obtain ⟨hoff, b, hb, hsize⟩ := hsized
  have hlt := (List.getElem?_eq_some_iff.mp hb).1
  exact ⟨hoff, b, by rw [List.getElem?_append_left hlt, hb], hsize⟩

theorem cell_append (hlt : x.block < h.length) (new : Heap) : (h ++ new).cell x = h.cell x := by
  rw [cell, cell, List.getElem?_append_left hlt]

/-- Blocks behind those that there are; of these no size has changed, and only the field `a`. -/
structure Extends (a : Addr) (h h' : Heap) : Prop where
  length : h.length ≤ h'.length
  fits : ∀ x w, x.block < h.length → (h'.Fits x w ↔ h.Fits x w)
  sized : ∀ x size, h.Sized x size → h'.Sized x size
  cell : ∀ x, x.block < h.length → x ≠ a → h'.cell x = h.cell x

theorem Extends.trans (hfirst : h.Extends a h') (hsecond : h'.Extends a h'') : h.Extends a h'' where
  length := hfirst.length.trans hsecond.length
  fits x w hlt := (hsecond.fits x w (hlt.trans_le hfirst.length)).trans (hfirst.fits x w hlt)
  sized x size hsized := hsecond.sized x size (hfirst.sized x size hsized)
  cell x hlt hne :=
    (hsecond.cell x (hlt.trans_le hfirst.length) hne).trans (hfirst.cell x hlt hne)

theorem extends_put : h.Extends a (h.put a c) :=
  ⟨by rw [length_put], fun _ _ _ => fits_put, fun _ _ hsized => sized_put.mpr hsized,
    fun _ _ hne => cell_put_ne hne⟩

theorem extends_append (a : Addr) (new : Heap) : h.Extends a (h ++ new) where
  length := by
    rw [List.length_append]
    exact Nat.le_add_right _ _
  fits x w hlt := by
    unfold Fits
    rw [List.getElem?_append_left hlt]
  sized x size hsized := hsized.append new
  cell x hlt _ := cell_append hlt new

/-- The block of an array, and the pointer to it. -/
def withArray (h : Heap) (a : Addr) (size : Nat) : Heap :=
  (h ++ [Block.fresh size]).put a (.ref ⟨h.length, 0⟩)

theorem extends_withArray : h.Extends a (h.withArray a size) :=
  (extends_append a _).trans extends_put

theorem sized_withArray : (h.withArray a size).Sized ⟨h.length, 0⟩ size :=
  sized_put.mpr (sized_fresh h size)

theorem cell_withArray (hfits : h.Fits a 8) : (h.withArray a size).cell a = .ref ⟨h.length, 0⟩ :=
  cell_put (hfits.append _)

@[simp] theorem length_withArray : (h.withArray a size).length = h.length + 1 := by
  simp [withArray]

end Heap

/-! ## Allocation -/

section
variable {s : State Lsa} {a : Addr} {count elemSize : Nat}

/-- An array is allocated, unless its size wraps around with its header. -/
theorem allocArray_run (hfits : s.heap.Fits a 8) : (allocArray count elemSize a).run s =
    if 2 ^ 64 ≤ count * elemSize % 2 ^ 64 + 8 then .fault .write
    else if Allocates (count * elemSize % 2 ^ 64) then
      .done () { s with heap := s.heap.withArray a (count * elemSize % 2 ^ 64) }
    else .fail { s with heap := s.heap.put a (.num 0) } := by
  generalize hsize : count * elemSize % 2 ^ 64 = size
  rw [allocArray, Run.run_bind, hsize, smb2AllocData]
  dsimp only
  split
  · rfl
  · split
    · rw [Run.andThen_done, store_run, if_pos (hfits.append _)]
      rfl
    · rw [Run.andThen_done, Run.run_bind, store_run, if_pos hfits, Run.andThen_done, Run.run_fail]

theorem allocates_small {size : Nat} (h : size < 2 ^ 62) : Allocates size := by
  unfold Allocates
  omega

/-- A small array is allocated. -/
theorem allocArray_small (hfits : s.heap.Fits a 8) (hsmall : count * elemSize < 2 ^ 62) :
    (allocArray count elemSize a).run s =
      .done () { s with heap := s.heap.withArray a (count * elemSize) } := by
  have hmod : count * elemSize % 2 ^ 64 = count * elemSize := Nat.mod_eq_of_lt (by omega)
  rw [allocArray_run hfits, hmod, if_neg (by omega), if_pos (allocates_small hsmall)]

end

/-- Behind an allocation of a SID for each of so many pointers. -/
structure SidBlocks (n : Nat) (p : Addr) (h h' : Heap) : Prop where
  length : h.length ≤ h'.length
  fits : ∀ x w, x.block < h.length → (h'.Fits x w ↔ h.Fits x w)
  sized : ∀ x size, h.Sized x size → h'.Sized x size
  cell : ∀ x, x.block < h.length → (∀ j < n, x ≠ p.add (j * 8)) → h'.cell x = h.cell x
  sids : ∀ j < n, ∃ r, h'.cell (p.add (j * 8)) = .ref r ∧ h'.Sized r RPC_SID_SIZE

/-- A SID is allocated for every pointer. -/
theorem allocSids_run {n : Nat} {p : Addr} {s : State Lsa}
    (hfits : ∀ j < n, s.heap.Fits (p.add (j * 8)) 8) :
    ∃ h, (allocSids n p).run s = .done () { s with heap := h } ∧ SidBlocks n p s.heap h := by
  induction n generalizing p s with
  | zero =>
    exact ⟨s.heap, rfl, Nat.le_refl _, fun _ _ _ => Iff.rfl, fun _ _ h => h, fun _ _ _ => rfl,
      nofun⟩
  | succ n ih =>
    have hfirst : s.heap.Fits p 8 := by
      have hzero := hfits 0 (by omega)
      rwa [Nat.zero_mul, Addr.add_zero] at hzero
    have hnew := @Heap.extends_withArray s.heap p (1 * RPC_SID_SIZE)
    have hnext : ∀ j, (p.add 8).add (j * 8) = p.add ((j + 1) * 8) := by
      intro j
      rw [Addr.add_add, Nat.succ_mul, Nat.add_comm]
    obtain ⟨h, hrun, hblocks⟩ := ih (p := p.add 8)
      (s := { s with heap := s.heap.withArray p (1 * RPC_SID_SIZE) }) (by
        intro j hj
        have hlater := hfits (j + 1) (by omega)
        rw [hnext]
        exact (hnew.fits _ _ hlater.block_lt).mpr hlater)
    have hlen : s.heap.length ≤ (s.heap.withArray p (1 * RPC_SID_SIZE)).length := hnew.length
    refine ⟨h, ?_, hnew.length.trans hblocks.length, fun x w hlt => ?_, fun x size hsized => ?_,
      fun x hlt hne => ?_, fun j hj => ?_⟩
    · rw [allocSids, Run.bind_done (allocArray_small hfirst (by decide))]
      exact hrun
    · exact (hblocks.fits x w (by dsimp only; omega)).trans (hnew.fits x w hlt)
    · exact hblocks.sized x size (hnew.sized x size hsized)
    · have hzero := hne 0 (by omega)
      rw [Nat.zero_mul, Addr.add_zero] at hzero
      rw [hblocks.cell x (by dsimp only; omega) fun j hj => by
        rw [hnext]
        exact hne (j + 1) (by omega)]
      exact hnew.cell x hlt hzero
    · cases j with
      | zero =>
        refine ⟨⟨s.heap.length, 0⟩, ?_, hblocks.sized _ _ Heap.sized_withArray⟩
        rw [Nat.zero_mul, Addr.add_zero, hblocks.cell p (by
          have := hfirst.block_lt
          dsimp only
          omega) fun j _ => by
            rw [hnext]
            exact (Addr.add_ne (by omega)).symm]
        exact Heap.cell_withArray hfirst
      | succ j =>
        obtain ⟨r, hr, hsid⟩ := hblocks.sids j (by omega)
        rw [hnext] at hr
        exact ⟨r, hr, hsid⟩

/-- `SidInfo` and the SIDs are allocated. -/
theorem allocSidInfo_run {count : Nat} {a : Addr} {s : State Lsa} (hfits : s.heap.Fits a 8)
    (hsmall : count * 8 < 2 ^ 62) :
    ∃ h, (allocSidInfo count a).run s = .done () { s with heap := h } ∧ s.heap.Extends a h
      ∧ h.cell a = .ref ⟨s.heap.length, 0⟩ ∧ h.Sized ⟨s.heap.length, 0⟩ (count * 8)
      ∧ ∀ j < count, ∃ r, h.cell ((⟨s.heap.length, 0⟩ : Addr).add (j * 8)) = .ref r
        ∧ h.Sized r RPC_SID_SIZE := by
  have hnew := @Heap.extends_withArray s.heap a (count * 8)
  have hsized := @Heap.sized_withArray s.heap a (count * 8)
  have hlt := hfits.block_lt
  obtain ⟨h, hrun, hblocks⟩ := @allocSids_run count ⟨s.heap.length, 0⟩
    { s with heap := s.heap.withArray a (count * 8) } fun j hj => hsized.fits.mpr (by omega)
  have hold : ∀ x : Addr, x.block < s.heap.length →
      ∀ j < count, x ≠ (⟨s.heap.length, 0⟩ : Addr).add (j * 8) := by
    intro x hx j _ hsame
    rw [hsame] at hx
    exact absurd hx (Nat.lt_irrefl _)
  have hin : ∀ x : Addr, x.block < s.heap.length →
      x.block < (s.heap.withArray a (count * 8)).length := fun x hx => hx.trans_le hnew.length
  have hcell : (s.heap.withArray a (count * 8)).cell a = .ref ⟨s.heap.length, 0⟩ :=
    Heap.cell_withArray hfits
  have hfits' := (hnew.fits a 8 hlt).mpr hfits
  refine ⟨h, ?_, ⟨hnew.length.trans hblocks.length, fun x w hx => ?_, fun x size hs => ?_,
    fun x hx hne => ?_⟩, ?_, hblocks.sized _ _ hsized, hblocks.sids⟩
  · rw [allocSidInfo, Run.bind_done (allocArray_small hfits hsmall), Run.run_bind, load_run]
    dsimp only
    rw [if_pos (hfits'.mono (by decide)), Run.andThen_done, hcell]
    exact hrun
  · exact (hblocks.fits x w (hin x hx)).trans (hnew.fits x w hx)
  · exact hblocks.sized x size (hnew.sized x size hs)
  · exact (hblocks.cell x (hin x hx) (hold x hx)).trans (hnew.cell x hx hne)
  · exact (hblocks.cell a (hin a hlt) (hold a hlt)).trans hcell

/-! ## Loops -/

section
variable {κ : Type} {coder : Addr → Ndr κ Unit} {size : Nat} {p : Addr}
  {I : Nat → State κ → Prop} {ok : Nat → Prop}
  (hstep : ∀ i s, I i s → ok i →
    ∃ t, (coder (p.add (i * size))).run s = .done () t ∧ I (i + 1) t)

include hstep

/-- A loop whose steps all end. -/
theorem elements_done {n i : Nat} {s : State κ} (h : I i s) (hok : ∀ j, i ≤ j → j < i + n → ok j) :
    ∃ t, (elements size coder n (p.add (i * size))).run s = .done () t ∧ I (i + n) t := by
  induction n generalizing i s with
  | zero => exact ⟨s, rfl, h⟩
  | succ n ih =>
    obtain ⟨t, ht, hinv⟩ := hstep i s h (hok i (Nat.le_refl i) (by omega))
    obtain ⟨r, hr, hinv'⟩ := ih hinv fun j hj hlt => hok j (by omega) (by omega)
    refine ⟨r, ?_, by rw [show i + (n + 1) = i + 1 + n by omega]; exact hinv'⟩
    rw [elements, Run.bind_done ht, Addr.add_add, ← Nat.succ_mul]
    exact hr

/-- A loop up to a step that may not end. -/
theorem elements_stops {n m i : Nat} {s : State κ} (h : I i s) (him : i ≤ m) (hm : m < i + n)
    (hok : ∀ j, i ≤ j → j < m → ok j) :
    ∃ t rest, I m t ∧ (elements size coder n (p.add (i * size))).run s =
      ((coder (p.add (m * size))).run t).andThen rest := by
  induction n generalizing i s with
  | zero => omega
  | succ n ih =>
    by_cases hhere : i = m
    · subst hhere
      exact ⟨s, _, h, rfl⟩
    · obtain ⟨t, ht, hinv⟩ := hstep i s h (hok i (Nat.le_refl i) (by omega))
      obtain ⟨r, rest, hinv', hr⟩ := ih hinv (by omega) (by omega)
        fun j hj hlt => hok j (by omega) hlt
      refine ⟨r, rest, hinv', ?_⟩
      rw [elements, Run.bind_done ht, Addr.add_add, ← Nat.succ_mul]
      exact hr

end

/-! ## Numbers -/

/-- A number that is decoded where it is expected. -/
theorem ndrUintCoderAt_decodes {κ : Type} {env : Env} (hdir : env.direction = .decode) {w : Nat}
    {s : State κ} (hpass : s.isConformanceRun = false) (hw : 0 < w) (hdvd : w ∣ s.offset)
    (a : Addr) : (ndrUintCoderAt env w a).run s =
      if s.buf.length < s.offset + w then .fail s
      else if s.heap.Fits a w then .done () { s with
        offset := s.offset + w
        heap := s.heap.put a (.num (env.number (slice s.buf s.offset w))) }
      else .fault .write := by
  rw [ndrUintCoderAt, Run.get_bind, if_neg (by simp [hpass]), hdir]
  dsimp only
  rw [Run.run_bind, dcerpcGet_run, alignUp_of_dvd hw hdvd]
  split
  · rfl
  · rw [Run.andThen_done, store_run]

end Libsmb2.Dcerpc
