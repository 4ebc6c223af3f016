import Libsmb2.Dcerpc.Ndr

/-!
# NDR strings

`ndr_encode_utf16`, `ndr_decode_utf16` and `_ndr_utf16z_coder`.  The field of a string holds a
`char *`, and between the two passes a pointer to a `struct dcerpc_utf16` with that `char *` in it.

* `ndrDecodeUtf16_counts`, `ndrDecodeUtf16_units` — what the two passes of the decoder do;
* `convertsInside_iff` — when what is converted lies inside the buffer.
-/

set_option autoImplicit false

namespace Libsmb2.Dcerpc

open Util

section

variable {κ : Type}

/-- The block that a field of a string points to between the passes. -/
structure Utf16 where
  maxCount : Nat := 0
  offset : Nat := 0
  actualCount : Nat := 0
  units : List Nat := []
  utf8 : Cell
  deriving DecidableEq, Repr

def Utf16.cell (u : Utf16) : Cell := .utf16 u.maxCount u.offset u.actualCount u.units u.utf8

def loadUtf16 (a : Addr) : Ndr κ Utf16 := do
  match ← load a with
  | .utf16 maxCount offset actualCount units utf8 =>
    pure ⟨maxCount, offset, actualCount, units, utf8⟩
  | _ => Run.fault .null

def storeUtf16 (a : Addr) (u : Utf16) : Ndr κ Unit := store a 8 u.cell

/-- `smb2_utf8_to_utf16`, of `""` for a null pointer. -/
def unitsOf : Cell → Option (List Nat)
  | .text s => utf8ToUtf16 s.octets
  | _ => some []

/-- The code units of a string, in the byte order of the PDU. -/
def setUnits (env : Env) : List Nat → Ndr κ Unit
  | [] => pure ()
  | u :: us => do
    let _ ← ndrUint16Coder env u
    setUnits env us

/-- `ndr_encode_utf16`. -/
def ndrEncodeUtf16 (env : Env) (a : Addr) (nult : Bool) : Ndr κ Unit := do
  let s ← Run.get
  let u ← loadUtf16 a
  if s.isConformanceRun then
    match unitsOf u.utf8 with
    | none => Run.fail
    | some units => do
      let val := if nult then units.length + 1 else units.length
      let actualCount := val % 4294967296
      let val := if !nult && val % 2 = 1 then val + 1 else val
      let maxCount := val % 4294967296
      storeUtf16 a ⟨maxCount, 0, actualCount, units, u.utf8⟩
      let _ ← ndrConformanceCoder env maxCount
      let _ ← ndrConformanceCoder env 0
      let _ ← ndrConformanceCoder env actualCount
      needAlignment 2
  else do
    setUnits env u.units
    if nult then do
      let _ ← ndrUint16Coder env 0
      pure ()
    else pure ()

/-- The loop that turns big-endian code units around in the buffer, from the `i`th on. -/
def swapUnits (env : Env) : Nat → Nat → Ndr κ Unit
  | 0, _ => pure ()
  | n + 1, i => do
    let s ← Run.get
    -- `dcerpc_get_uint16` with an offset of its own
    let o := alignUp 2 (s.offset + 2 * i)
    if s.buf.length < o + 2 then Run.fail
    else do
      let v := env.number (slice s.buf o 2)
      Run.modify fun s => { s with buf := patch s.buf (s.offset + 2 * i) (le 2 v) }
      swapUnits env n (i + 1)

/-- `smb2_utf16_to_utf8` of the code units at the offset, and a copy of what it returns. -/
def convertUnits (a : Addr) (u : Utf16) : Ndr κ Unit := do
  let s ← Run.get
  if s.buf.length < s.offset + 2 * u.actualCount then Run.fault .read
  else do
    setOffset (s.offset + 2 * u.actualCount)
    let octets := slice s.buf s.offset (2 * u.actualCount)
    storeUtf16 a { u with utf8 := .text (.ofBytes (utf16ToUtf8 (utf16Units octets))) }

/-- `ndr_decode_utf16`. -/
def ndrDecodeUtf16 (env : Env) (a : Addr) : Ndr κ Unit := do
  let s ← Run.get
  let u ← loadUtf16 a
  if s.isConformanceRun then do
    let maxCount ← ndrConformanceCoder env 0
    let u := { u with maxCount := maxCount % 4294967296 }
    storeUtf16 a u
    let offset ← ndrConformanceCoder env 0
    let u := { u with offset := offset % 4294967296 }
    storeUtf16 a u
    let actualCount ← ndrConformanceCoder env 0
    storeUtf16 a { u with actualCount := actualCount % 4294967296 }
    needAlignment 2
  else
    -- the sum is of `uint32_t`s
    if s.buf.length < (s.offset + 2 * u.actualCount) % 4294967296 then Run.fail
    else do
      if !env.littleEndian then swapUnits env u.actualCount 0 else pure ()
      convertUnits a u

/-- Swap the pointer back. -/
def swapBack (a : Addr) : Ndr κ Unit := do
  let u ← loadUtf16 a
  store a 8 u.utf8

/-- `_ndr_utf16z_coder`. -/
def ndrUtf16zCoder' (env : Env) (a : Addr) (nult : Bool) : Ndr κ Unit := do
  let s ← Run.get
  if s.isConformanceRun then do
    let utf8 ← load a
    storeUtf16 a { utf8 := utf8 }
    match env.direction with
    | .decode => ndrDecodeUtf16 env a
    | .encode => ndrEncodeUtf16 env a nult
  else
    Run.thenAlways
      (match env.direction with
      | .decode => ndrDecodeUtf16 env a
      | .encode => ndrEncodeUtf16 env a nult)
      (swapBack a)

/-- `ndr_utf16z_coder`. -/
def ndrUtf16zCoder (env : Env) (a : Addr) : Ndr κ Unit := ndrUtf16zCoder' env a true

/-- `ndr_utf16_coder`. -/
def ndrUtf16Coder (env : Env) (a : Addr) : Ndr κ Unit := ndrUtf16zCoder' env a false

/-! ## Decoding -/

variable {env : Env} {s : State κ} {a : Addr}

theorem loadUtf16_run {u : Utf16} (hfits : s.heap.Fits a 8) (hcell : s.heap.cell a = u.cell) :
    (loadUtf16 a).run s = .done u s := by
  rw [loadUtf16, Run.run_bind, load_run, if_pos (hfits.mono (by decide)), Run.andThen_done, hcell]
  rfl

/-- The count with this number, of the three from `o` on. -/
def Env.count (env : Env) (buf : Bytes) (o i : Nat) : Nat :=
  env.number (slice buf (o + i * env.word) env.word) % 4294967296

section

variable {u : Utf16} (hdir : env.direction = .decode) (hfits : s.heap.Fits a 8)
  (hcell : s.heap.cell a = u.cell)

include hdir hfits hcell

/-- The first pass over a string reads its counts. -/
theorem ndrDecodeUtf16_counts (hrun : s.isConformanceRun = true)
    (hlen : alignUp env.word s.offset + 3 * env.word ≤ s.buf.length) :
    (ndrDecodeUtf16 env a).run s = .done () { s with
      offset := alignUp env.word s.offset + 3 * env.word
      maxAlignment := max s.maxAlignment 2
      heap := s.heap.put a (Utf16.cell { u with
        maxCount := env.count s.buf (alignUp env.word s.offset) 0
        offset := env.count s.buf (alignUp env.word s.offset) 1
        actualCount := env.count s.buf (alignUp env.word s.offset) 2 }) } := by
  have hdvd := dvd_alignUp env.word s.offset
  have hpos := word_pos env
  generalize ho : alignUp env.word s.offset = o at *
  have halign : alignUp env.word (o + env.word) = o + env.word :=
    alignUp_of_dvd hpos (Nat.dvd_add_self_right.mpr hdvd)
  have halign' : alignUp env.word (o + env.word + env.word) = o + env.word + env.word :=
    alignUp_of_dvd hpos (Nat.dvd_add_self_right.mpr (Nat.dvd_add_self_right.mpr hdvd))
  have hfit : ¬ s.buf.length < o + env.word := by omega
  have hfit' : ¬ s.buf.length < o + env.word + env.word := by omega
  have hfit'' : ¬ s.buf.length < o + env.word + env.word + env.word := by omega
  rw [ndrDecodeUtf16, Run.get_bind, Run.run_bind, loadUtf16_run hfits hcell, Run.andThen_done, hrun]
  simp only [if_true, Run.run_bind, ndrConformanceCoder, Run.run_get, Run.andThen_done, hrun, hdir,
    Bool.not_true, Bool.false_eq_true, if_false, dcerpcGet_run, ho, halign, halign', hfit, hfit',
    hfit'', storeUtf16, store_run, hfits, Heap.fits_put, needAlignment, Run.run_modify, Heap.put_put]
  have hend : o + env.word + env.word + env.word = o + 3 * env.word := by omega
  have hcount : env.count s.buf o 0 = env.number (slice s.buf o env.word) % 4294967296 := by
    rw [Env.count, Nat.zero_mul, Nat.add_zero]
  have hcount' : env.count s.buf o 1
      = env.number (slice s.buf (o + env.word) env.word) % 4294967296 := by
    rw [Env.count, Nat.one_mul]
  have hcount'' : env.count s.buf o 2
      = env.number (slice s.buf (o + env.word + env.word) env.word) % 4294967296 := by
    rw [Env.count, Nat.two_mul, ← Nat.add_assoc]
  rw [hend, hcount, hcount', hcount'']

/-- Counts that do not fit are a failure. -/
theorem ndrDecodeUtf16_short (hrun : s.isConformanceRun = true)
    (hlen : s.buf.length < alignUp env.word s.offset + 3 * env.word) :
    ∃ t, (ndrDecodeUtf16 env a).run s = .fail t := by
  have hdvd := dvd_alignUp env.word s.offset
  have hpos := word_pos env
  generalize ho : alignUp env.word s.offset = o at *
  have halign : alignUp env.word (o + env.word) = o + env.word :=
    alignUp_of_dvd hpos (Nat.dvd_add_self_right.mpr hdvd)
  have halign' : alignUp env.word (o + env.word + env.word) = o + env.word + env.word :=
    alignUp_of_dvd hpos (Nat.dvd_add_self_right.mpr (Nat.dvd_add_self_right.mpr hdvd))
  rw [ndrDecodeUtf16, Run.get_bind, Run.run_bind, loadUtf16_run hfits hcell, Run.andThen_done, hrun]
  simp only [if_true, Run.run_bind, ndrConformanceCoder, Run.run_get, Run.andThen_done, hrun, hdir,
    Bool.not_true, Bool.false_eq_true, if_false, dcerpcGet_run, ho]
  by_cases hfirst : s.buf.length < o + env.word
  · simp [hfirst]
  simp only [hfirst, if_false, Run.andThen_done, storeUtf16, store_run, hfits, if_true, halign,
    Bool.not_true, Bool.false_eq_true, dcerpcGet_run]
  by_cases hsecond : s.buf.length < o + env.word + env.word
  · simp [hsecond]
  simp only [hsecond, if_false, Run.andThen_done, Heap.fits_put, hfits, if_true, halign',
    Bool.not_true, Bool.false_eq_true, dcerpcGet_run]
  have hthird : s.buf.length < o + env.word + env.word + env.word := by omega
  simp [hthird]

end

/-- Big-endian code units are turned around as far as there are any. -/
theorem swapUnits_run (n i : Nat) (heven : 2 ∣ s.offset) :
    (s.offset + 2 * (i + n) ≤ s.buf.length →
      ∃ buf, (swapUnits env n i).run s = .done () { s with buf := buf } ∧ buf.length = s.buf.length)
    ∧ (s.offset + 2 * i ≤ s.buf.length → s.buf.length < s.offset + 2 * (i + n) →
      ∃ t, (swapUnits env n i).run s = .fail t ∧ t.heap = s.heap) := by
  induction n generalizing i s with
  | zero =>
    refine ⟨fun _ => ⟨s.buf, rfl, rfl⟩, fun h h' => ?_⟩
    omega
  | succ n ih =>
    have halign : alignUp 2 (s.offset + 2 * i) = s.offset + 2 * i :=
      alignUp_of_dvd (by decide) ((Nat.dvd_add_right heven).mpr (Nat.dvd_mul_right _ _))
    simp only [swapUnits, Run.get_bind, halign, Run.run_ite, Run.modify_bind]
    by_cases hfit : s.buf.length < s.offset + 2 * i + 2
    · rw [if_pos hfit]
      exact ⟨fun h => absurd h (by omega), fun _ _ => ⟨s, rfl, rfl⟩⟩
    · rw [if_neg hfit]
      have hpatch : ∀ v, (patch s.buf (s.offset + 2 * i) (le 2 v)).length = s.buf.length := by
        intro v
        apply length_patch
        rw [length_le]
        omega
      obtain ⟨hdone, hfail⟩ := ih (i + 1) (s := { s with
        buf := patch s.buf (s.offset + 2 * i)
          (le 2 (env.number (slice s.buf (s.offset + 2 * i) 2))) }) heven
      simp only [hpatch] at hdone hfail
      exact ⟨fun h => hdone (by omega), fun _ h => hfail (by omega) (by omega)⟩


theorem convertUnits_run {u : Utf16} (hfits : s.heap.Fits a 8) :
    (convertUnits a u).run s =
      if s.buf.length < s.offset + 2 * u.actualCount then .fault .read
      else .done () { s with
        offset := s.offset + 2 * u.actualCount
        heap := s.heap.put a (Utf16.cell { u with utf8 := .text (.ofBytes (utf16ToUtf8
          (utf16Units (slice s.buf s.offset (2 * u.actualCount))))) }) } := by
  simp only [convertUnits, Run.get_bind, Run.run_ite, Run.run_fault, setOffset, Run.modify_bind,
    storeUtf16, store_run, hfits, if_true]

section

variable {u : Utf16} (hfits : s.heap.Fits a 8)

include hfits

/-- The second pass over a string converts its code units, unless they are not there. -/
theorem ndrDecodeUtf16_units (hcell : s.heap.cell a = u.cell) (hrun : s.isConformanceRun = false)
    (heven : 2 ∣ s.offset) (hstart : s.offset ≤ s.buf.length) :
    (s.offset + 2 * u.actualCount ≤ s.buf.length → ∃ buf v, buf.length = s.buf.length ∧
      (ndrDecodeUtf16 env a).run s = .done () { s with
        buf := buf
        offset := s.offset + 2 * u.actualCount
        heap := s.heap.put a (Utf16.cell { u with utf8 := v }) })
    ∧ (s.buf.length < s.offset + 2 * u.actualCount →
      (env.littleEndian = false ∨ s.buf.length < (s.offset + 2 * u.actualCount) % 4294967296) →
      ∃ t : State κ, (ndrDecodeUtf16 env a).run s = .fail t ∧ t.heap = s.heap)
    ∧ (s.buf.length < s.offset + 2 * u.actualCount → env.littleEndian = true →
      (s.offset + 2 * u.actualCount) % 4294967296 ≤ s.buf.length →
      (ndrDecodeUtf16 env a).run s = .fault .read) := by
  obtain ⟨hswap, hshort⟩ := @swapUnits_run κ env s u.actualCount 0 heven
  rw [Nat.zero_add] at hswap hshort
  rw [ndrDecodeUtf16, Run.get_bind, Run.run_bind, loadUtf16_run hfits hcell, Run.andThen_done, hrun]
  simp only [Bool.false_eq_true, if_false, Run.run_ite, Run.run_bind]
  generalize hend : s.offset + 2 * u.actualCount = e at *
  have hmod : e % 4294967296 ≤ e := Nat.mod_le _ _
  refine ⟨fun hin => ?_, fun hout hstop => ?_, fun hout hlittle hpass => ?_⟩
  · rw [if_neg (by omega)]
    cases hlittle : env.littleEndian with
    | true =>
      have hunits := convertUnits_run (u := u) hfits
      rw [hend, if_neg (by omega), hrun] at hunits
      exact ⟨s.buf, _, rfl, hunits⟩
    | false =>
      obtain ⟨buf, hbuf, hlen⟩ := hswap hin
      have hunits := convertUnits_run (u := u) (s := { s with buf := buf }) hfits
      dsimp only at hunits
      rw [hend, hlen, if_neg (by omega), hrun] at hunits
      refine ⟨buf, _, hlen, Eq.trans ?_ hunits⟩
      rw [if_pos (by decide), hbuf, Run.andThen_done, hrun]
  · by_cases hfail : s.buf.length < e % 4294967296
    · exact ⟨s, by rw [if_pos hfail, Run.run_fail], rfl⟩
    · rcases hstop with hbig | habs
      · obtain ⟨t, ht, hheap⟩ := hshort hstart hout
        refine ⟨t, ?_, hheap⟩
        rw [if_neg hfail, hbig, if_pos (by decide), ht, Run.andThen_fail]
      · exact absurd habs hfail
  · rw [if_neg (by omega), hlittle, if_neg (by decide), convertUnits_run hfits, hend, if_pos hout]

end

/-! ## A string in the buffer -/

/-- Where the code units of a string begin that is read next. -/
def unitsStart (env : Env) (s : State κ) : Nat :=
  alignUp 2 (alignUp env.word s.offset + 3 * env.word)

/-- How many code units the third count says there are. -/
def unitsCount (env : Env) (s : State κ) : Nat := env.count s.buf (alignUp env.word s.offset) 2

theorem unitsStart_eq (env : Env) (s : State κ) :
    unitsStart env s = alignUp env.word s.offset + 3 * env.word ∧ 2 ∣ unitsStart env s := by
  have hword : 2 ∣ env.word := by
    unfold Env.word
    split <;> decide
  have hdvd : 2 ∣ alignUp env.word s.offset + 3 * env.word :=
    (Nat.dvd_add_right (hword.trans (dvd_alignUp _ _))).mpr (Nat.dvd_mul_left_of_dvd hword 3)
  rw [unitsStart, alignUp_of_dvd (by decide) hdvd]
  exact ⟨rfl, hdvd⟩

section

variable (nult : Bool) (hdir : env.direction = .decode) (hfits : s.heap.Fits a 8)

include hdir hfits

theorem ndrUtf16zCoder_first :
    (ndrUtf16zCoder' env a nult).run { s with maxAlignment := 1, isConformanceRun := true }
      = (ndrDecodeUtf16 env a).run { s with
        maxAlignment := 1
        isConformanceRun := true
        heap := s.heap.put a (Utf16.cell { utf8 := s.heap.cell a }) } := by
  rw [ndrUtf16zCoder', Run.get_bind, if_pos rfl, Run.run_bind, load_run,
    if_pos (hfits.mono (by decide)), Run.andThen_done, Run.run_bind, storeUtf16, store_run,
    if_pos hfits, Run.andThen_done, hdir]

/-- The first pass, and the alignment behind it. -/
theorem ndrUtf16zCoder_counts (hlen : unitsStart env s ≤ s.buf.length) :
    ∃ u : Utf16, u.actualCount = unitsCount env s ∧
      (ndrDoCoder (ndrUtf16zCoder' env a nult)).run s
        = (ndrUtf16zCoder' env a nult).run { s with
            offset := unitsStart env s
            maxAlignment := 2
            isConformanceRun := false
            heap := s.heap.put a u.cell } := by
  obtain ⟨hstart, -⟩ := unitsStart_eq env s
  refine ⟨{ utf8 := s.heap.cell a
            maxCount := env.count s.buf (alignUp env.word s.offset) 0
            offset := env.count s.buf (alignUp env.word s.offset) 1
            actualCount := unitsCount env s }, rfl, ?_⟩
  have hcounts := ndrDecodeUtf16_counts (u := { utf8 := s.heap.cell a }) hdir
    (s := { s with
      maxAlignment := 1
      isConformanceRun := true
      heap := s.heap.put a (Utf16.cell { utf8 := s.heap.cell a }) })
    (Heap.fits_put.mpr hfits) (Heap.cell_put hfits) rfl (by rw [← hstart]; exact hlen)
  rw [ndrDoCoder_run, ndrUtf16zCoder_first nult hdir hfits, hcounts, Run.andThen_done]
  dsimp only
  rw [Heap.put_put]
  rfl

/-- Counts that do not fit. -/
theorem ndrUtf16zCoder_short (hlen : s.buf.length < unitsStart env s) :
    ∃ t, (ndrDoCoder (ndrUtf16zCoder' env a nult)).run s = .fail t := by
  obtain ⟨hstart, -⟩ := unitsStart_eq env s
  obtain ⟨t, ht⟩ := ndrDecodeUtf16_short (u := { utf8 := s.heap.cell a }) hdir
    (s := { s with
      maxAlignment := 1
      isConformanceRun := true
      heap := s.heap.put a (Utf16.cell { utf8 := s.heap.cell a }) })
    (Heap.fits_put.mpr hfits) (Heap.cell_put hfits) rfl (by rw [← hstart]; exact hlen)
  refine ⟨t, ?_⟩
  rw [ndrDoCoder_run, ndrUtf16zCoder_first nult hdir hfits, ht, Run.andThen_fail]

end

/-- The pointer that was swapped is put back, whatever the second pass makes of the string. -/
theorem swapBack_run {u : Utf16} (hfits : s.heap.Fits a 8) (hcell : s.heap.cell a = u.cell) :
    (swapBack a).run s = .done () { s with heap := s.heap.put a u.utf8 } := by
  rw [swapBack, Run.run_bind, loadUtf16_run hfits hcell, Run.andThen_done, store_run, if_pos hfits]

/-- What is converted lies inside the buffer, from the aligned offset on, and the offset moves on
behind it. -/
def ConvertsInside (env : Env) (a : Addr) (nult : Bool) (s : State κ) : Prop :=
  (ndrDoCoder (ndrUtf16zCoder' env a nult)).run s ≠ .fault .read ∧
    ∀ t, (ndrDoCoder (ndrUtf16zCoder' env a nult)).run s = .done () t →
      unitsStart env s + 2 * unitsCount env s ≤ s.buf.length
        ∧ t.offset = unitsStart env s + 2 * unitsCount env s

/-- The end of the code units wraps around to an offset inside the buffer. -/
def WrapsInside (env : Env) (s : State κ) : Prop :=
  unitsStart env s ≤ s.buf.length
    ∧ s.buf.length < unitsStart env s + 2 * unitsCount env s
    ∧ (unitsStart env s + 2 * unitsCount env s) % 4294967296 ≤ s.buf.length

/-- **A string is converted inside the buffer** unless the octets are little-endian and their end
is taken for an offset inside it, because it is counted in a `uint32_t`. -/
theorem convertsInside_iff (hdir : env.direction = .decode) (hfits : s.heap.Fits a 8)
    (nult : Bool) :
    ConvertsInside env a nult s ↔ ¬ (env.littleEndian = true ∧ WrapsInside env s) := by
  by_cases hlen : s.buf.length < unitsStart env s
  · obtain ⟨t, ht⟩ := ndrUtf16zCoder_short nult hdir hfits hlen
    have hno : ¬ (env.littleEndian = true ∧ WrapsInside env s) := by
      rintro ⟨-, hle, -⟩
      omega
    refine iff_of_true ?_ hno
    rw [ConvertsInside, ht]
    exact ⟨nofun, nofun⟩
  obtain ⟨-, heven⟩ := unitsStart_eq env s
  obtain ⟨u, hcount, hrun⟩ := ndrUtf16zCoder_counts nult hdir hfits (by omega)
  rw [ConvertsInside, hrun, ndrUtf16zCoder', Run.get_bind, if_neg (by simp), hdir,
    Run.run_thenAlways]
  dsimp only
  obtain ⟨hin, hstop, hpass⟩ := @ndrDecodeUtf16_units κ env { s with
      offset := unitsStart env s
      maxAlignment := 2
      isConformanceRun := false
      heap := s.heap.put a u.cell } a u
    (Heap.fits_put.mpr hfits) (Heap.cell_put hfits) rfl heven (by dsimp only; omega)
  rw [hcount] at hin hstop hpass
  by_cases hfit : unitsStart env s + 2 * unitsCount env s ≤ s.buf.length
  · have hno : ¬ (env.littleEndian = true ∧ WrapsInside env s) := by
      rintro ⟨-, -, hout, -⟩
      omega
    refine iff_of_true ?_ hno
    obtain ⟨buf, v, -, hdone⟩ := hin hfit
    rw [hdone]
    dsimp only
    rw [swapBack_run (Heap.fits_put.mpr (Heap.fits_put.mpr hfits))
      (Heap.cell_put (Heap.fits_put.mpr hfits)), Run.andThen_done]
    refine ⟨nofun, fun t ht => ?_⟩
    cases ht
    exact ⟨hfit, rfl⟩
  have hout : s.buf.length < unitsStart env s + 2 * unitsCount env s := by omega
  by_cases hstops : env.littleEndian = false
      ∨ s.buf.length < (unitsStart env s + 2 * unitsCount env s) % 4294967296
  · have hno : ¬ (env.littleEndian = true ∧ WrapsInside env s) := by
      rintro ⟨hlittle, -, -, hpass⟩
      rcases hstops with hbig | hfail
      · rw [hlittle] at hbig
        cases hbig
      · omega
    refine iff_of_true ?_ hno
    obtain ⟨t, ht, hheap⟩ := hstop hout hstops
    rw [ht]
    dsimp only
    rw [swapBack_run (u := u) (by rw [hheap]; exact Heap.fits_put.mpr hfits)
      (by rw [hheap]; exact Heap.cell_put hfits), Run.andThen_done]
    exact ⟨nofun, nofun⟩
  · have hlittle : env.littleEndian = true := by
      rw [← Bool.not_eq_false]
      exact fun hbig => hstops (.inl hbig)
    have hwraps : (unitsStart env s + 2 * unitsCount env s) % 4294967296 ≤ s.buf.length := by
      rw [← Nat.not_lt]
      exact fun hfail => hstops (.inr hfail)
    have hyes : env.littleEndian = true ∧ WrapsInside env s :=
      ⟨hlittle, by omega, hout, hwraps⟩
    rw [hpass hout hlittle hwraps]
    exact iff_of_false (fun h => h.1 rfl) (fun h => h hyes)

end

/-! ## A count of 2^31 -/

/-- A reply that is looked at from its start, and a field for a string. -/
def stringAt (buf : Bytes) : State Unit where
  buf := buf
  offset := 0
  heap := [Block.fresh 8]
  topLevel := false
  ptrId := 0
  curPtr := 0
  ptrs := []
  isConformanceRun := false
  maxAlignment := 1
  sizeIs := 0
  switchIs := 0

/-- NDR32, in little-endian order. -/
def ndr32Reply : Env := ⟨0, .decode, true⟩

theorem fits_stringAt (buf : Bytes) : (stringAt buf).heap.Fits ⟨0, 0⟩ 8 :=
  ⟨Block.fresh 8, rfl, Nat.le_refl _⟩

/-- The string `"A"` with its terminator. -/
theorem convertsInside_letter : ConvertsInside ndr32Reply ⟨0, 0⟩ true
    (stringAt (le 4 2 ++ le 4 0 ++ le 4 2 ++ [0x41, 0, 0, 0])) := by
  refine (convertsInside_iff rfl (fits_stringAt _) true).mpr ?_
  unfold WrapsInside
  decide

/-- A count of 2^31 in a reply of twelve octets: 4 GiB behind it are converted. -/
theorem conversion_leaves_the_buffer : ¬ ConvertsInside ndr32Reply ⟨0, 0⟩ true
    (stringAt (le 4 0 ++ le 4 0 ++ le 4 2147483648)) := by
  intro h
  apply h.1
  rfl

end Libsmb2.Dcerpc
