import Libsmb2.Util.Run
import Libsmb2.Util.Bytes
import Libsmb2.Unicode
import Libsmb2.SecurityDescriptor

/-!
# NDR coders

`dcerpc.c`: the coders of `ENCODING_NDR`, for both directions.  A coder runs on the state of the
PDU, on the buffer with its offset, and on the memory of the values, which is in blocks; a field
has an offset in its block.  The type of a coder is a parameter: a deferred pointer names the
coder that is to be run, and the service says what it does.

Offsets are `int`s in the source, and a buffer has less than 2^31 octets; here they are natural
numbers.  `calloc` fails for what no memory holds (`Allocates`).
-/

set_option autoImplicit false

namespace Libsmb2.Dcerpc

open Util

/-! ## Memory -/

/-- What a run must not do. -/
inductive Fault
  /-- A read outside a buffer or a block. -/
  | read
  /-- A write outside an array or a block. -/
  | write
  /-- A write of `ptrs[MAX_DEFERRED_PTR]`. -/
  | deferred
  /-- The use of a pointer that is null or not set. -/
  | null
  | endless
  deriving DecidableEq, Repr

/-- A pointer: a block, and an offset in it. -/
structure Addr where
  block : Nat
  off : Nat
  deriving DecidableEq, Repr

def Addr.add (a : Addr) (n : Nat) : Addr := { a with off := a.off + n }

theorem Addr.add_ne {a : Addr} {n : Nat} (hn : 0 < n) : a.add n ≠ a := by
  intro h
  have hoff : a.off + n = a.off := congrArg Addr.off h
  omega

/-- What stands at an offset.  Fresh memory is `num 0`, which is the null pointer too. -/
inductive Cell
  | num (n : Nat)
  | ref (a : Addr)
  | text (s : CString)
  /-- `struct dcerpc_utf16`: `max_count`, `offset`, `actual_count`, `utf16` and `utf8`. -/
  | utf16 (maxCount offset actualCount : Nat) (units : List Nat) (utf8 : Cell)
  deriving DecidableEq, Repr

/-- A block of memory. -/
structure Block where
  size : Nat
  cells : Nat → Cell

def Block.fresh (size : Nat) : Block := ⟨size, fun _ => .num 0⟩

abbrev Heap := List Block

namespace Heap

/-- A field of `w` octets at `a` lies in its block. -/
def Fits (h : Heap) (a : Addr) (w : Nat) : Prop := ∃ b, h[a.block]? = some b ∧ a.off + w ≤ b.size

instance (h : Heap) (a : Addr) (w : Nat) : Decidable (h.Fits a w) :=
  match hb : h[a.block]? with
  | none => .isFalse fun ⟨_, hb', _⟩ => by simp [hb] at hb'
  | some b => decidable_of_iff (a.off + w ≤ b.size)
      ⟨fun h => ⟨b, hb, h⟩, fun ⟨_, hb', h⟩ => by
        rw [hb] at hb'
        cases hb'
        exact h⟩

def cell (h : Heap) (a : Addr) : Cell :=
  match h[a.block]? with
  | none => .num 0
  | some b => b.cells a.off

def put (h : Heap) (a : Addr) (c : Cell) : Heap :=
  h.modify a.block fun b => { b with cells := Function.update b.cells a.off c }

section
variable {h : Heap} {a a' : Addr} {w w' : Nat} {c c' : Cell}

theorem Fits.mono (hfits : h.Fits a w) (hw : w' ≤ w) : h.Fits a w' := by
  obtain ⟨b, hb, hle⟩ := hfits
  exact ⟨b, hb, by omega⟩

/-- A field in a larger one. -/
theorem Fits.add (hfits : h.Fits a w) {off : Nat} (hoff : off + w' ≤ w) : h.Fits (a.add off) w' := by
  obtain ⟨b, hb, hle⟩ := hfits
  exact ⟨b, hb, by rw [Addr.add]; dsimp only; omega⟩

theorem Fits.append (hfits : h.Fits a w) (h' : Heap) : (h ++ h').Fits a w := by
  obtain ⟨b, hb, hle⟩ := hfits
  obtain ⟨hlt, rfl⟩ := List.getElem?_eq_some_iff.mp hb
  exact ⟨_, by rw [List.getElem?_append_left hlt, List.getElem?_eq_getElem hlt], hle⟩

theorem fits_fresh (h : Heap) (size : Nat) : (h ++ [Block.fresh size]).Fits ⟨h.length, 0⟩ size :=
  ⟨Block.fresh size, List.getElem?_concat_length, by rw [Block.fresh]; dsimp only; omega⟩

theorem getElem?_put (i : Nat) : (h.put a c)[i]? = (h[i]?).map fun b =>
    if a.block = i then { b with cells := Function.update b.cells a.off c } else b := by
  rw [put, List.getElem?_modify]
  cases h[i]? with
  | none => rfl
  | some b =>
    split
    · rfl
    · rfl

@[simp] theorem fits_put : (h.put a c).Fits a' w ↔ h.Fits a' w := by
  rw [Fits, Fits, getElem?_put]
  cases h[a'.block]? with
  | none => simp
  | some b =>
    by_cases hblock : a.block = a'.block
    · simp [hblock]
    · simp [hblock]

theorem cell_put (hfits : h.Fits a w) : (h.put a c).cell a = c := by
  obtain ⟨b, hb, -⟩ := hfits
  rw [cell, getElem?_put, hb]
  simp

theorem cell_put_ne (hne : a' ≠ a) : (h.put a c).cell a' = h.cell a' := by
  rw [cell, cell, getElem?_put]
  cases h[a'.block]? with
  | none => rfl
  | some b =>
    by_cases hblock : a.block = a'.block
    · have hoff : a'.off ≠ a.off := by
        intro hoff
        apply hne
        cases a
        cases a'
        simp_all
      simp [hblock, Function.update_of_ne hoff]
    · simp [hblock]

theorem put_put : (h.put a c).put a c' = h.put a c' := by
  apply List.ext_getElem?
  intro i
  rw [getElem?_put, getElem?_put, getElem?_put, Option.map_map]
  congr
  funext b
  by_cases hblock : a.block = i
  · simp [hblock]
  · simp [hblock]

/-- What stood there is put back. -/
theorem put_cell : h.put a (h.cell a) = h := by
  apply List.ext_getElem?
  intro i
  rw [getElem?_put, cell]
  by_cases hblock : a.block = i
  · subst hblock
    cases h[a.block]? with
    | none => rfl
    | some b => simp
  · simp [hblock]

end

end Heap

def Cell.toNat : Cell → Nat
  | .num n => n
  | _ => 0

def Cell.toRef : Cell → Option Addr
  | .ref a => some a
  | _ => none

/-! ## The PDU -/

inductive Direction
  | decode
  | encode
  deriving DecidableEq, Repr

/-- `tctx_id` of the context; `direction` and the byte order of the PDU. -/
structure Env where
  tctxId : Nat
  direction : Direction
  littleEndian : Bool
  deriving DecidableEq, Repr

inductive PtrType
  | ref
  | unique
  | full
  deriving DecidableEq, Repr

/-- `MAX_DEFERRED_PTR`. -/
def MAX_DEFERRED_PTR : Nat := 1024

def RPTR : Nat := 0x5270747272747052
def UPTR : Nat := 0x5570747272747055

/-- The buffer and the offset, the memory, and what `struct dcerpc_pdu` keeps for the coders;
`max_ptr` is the length of `ptrs`. -/
structure State (κ : Type) where
  buf : Bytes
  offset : Nat
  heap : Heap
  topLevel : Bool
  ptrId : Nat
  curPtr : Nat
  ptrs : List (κ × Addr)
  isConformanceRun : Bool
  maxAlignment : Nat
  sizeIs : Int
  switchIs : Int

/-- A coder. -/
abbrev Ndr (κ α : Type) : Type := Run (State κ) Fault α

section

variable {κ : Type}

/-! ## Fields of a value -/

/-- `*a`. -/
def load (a : Addr) : Ndr κ Cell := ⟨fun s =>
  if s.heap.Fits a 1 then .done (s.heap.cell a) s else .fault .read⟩

/-- A field of `w` octets. -/
def store (a : Addr) (w : Nat) (c : Cell) : Ndr κ Unit := ⟨fun s =>
  if s.heap.Fits a w then .done () { s with heap := s.heap.put a c } else .fault .write⟩

theorem load_run (a : Addr) (s : State κ) : (load a).run s =
    if s.heap.Fits a 1 then .done (s.heap.cell a) s else .fault .read :=
  rfl

theorem store_run (a : Addr) (w : Nat) (c : Cell) (s : State κ) : (store a w c).run s =
    if s.heap.Fits a w then .done () { s with heap := s.heap.put a c } else .fault .write :=
  rfl

/-- `smb2_alloc_data`.  A size that wraps around leaves no room for the header of the entry. -/
def smb2AllocData (size : Nat) : Ndr κ (Option Addr) := ⟨fun s =>
  if 2 ^ 64 ≤ size + 8 then .fault .write
  else if Allocates size then
    .done (some ⟨s.heap.length, 0⟩) { s with heap := s.heap ++ [Block.fresh size] }
  else .done none s⟩

/-! ## Numbers -/

/-- `(n + (a - 1)) & ~(a - 1)`, for a power of two. -/
def alignUp (a n : Nat) : Nat := (n + (a - 1)) / a * a

theorem alignUp_of_dvd {w n : Nat} (hw : 0 < w) (h : w ∣ n) : alignUp w n = n := by
  obtain ⟨k, rfl⟩ := h
  rw [alignUp, Nat.mul_add_div hw, Nat.div_eq_of_lt (by omega), Nat.add_zero, Nat.mul_comm]

theorem dvd_alignUp (w n : Nat) : w ∣ alignUp w n := Dvd.intro_left _ rfl

theorem le_alignUp {w : Nat} (hw : 0 < w) (n : Nat) : n ≤ alignUp w n := by
  have hdiv := Nat.div_add_mod (n + (w - 1)) w
  have hmod := Nat.mod_lt (n + (w - 1)) hw
  rw [Nat.mul_comm] at hdiv
  rw [alignUp]
  omega

/-- The octets of a number in the byte order of the PDU. -/
def Env.octets (env : Env) (w n : Nat) : Bytes :=
  if env.littleEndian then le w n else (le w n).reverse

def Env.number (env : Env) (bs : Bytes) : Nat :=
  fromLe (if env.littleEndian then bs else bs.reverse)

def setOffset (n : Nat) : Ndr κ Unit := Run.modify fun s => { s with offset := n }

/-- `dcerpc_get_uint8`, `dcerpc_get_uint16`, `dcerpc_get_uint32` and `dcerpc_get_uint64`. -/
def dcerpcGet (env : Env) (w : Nat) : Ndr κ Nat := do
  Run.modify fun s => { s with offset := alignUp w s.offset }
  let s ← Run.get
  if s.buf.length < s.offset + w then Run.fail
  else do
    setOffset (s.offset + w)
    pure (env.number (slice s.buf s.offset w))

/-- `dcerpc_set_uint8`, `dcerpc_set_uint16`, `dcerpc_set_uint32` and `dcerpc_set_uint64`. -/
def dcerpcSet (env : Env) (w value : Nat) : Ndr κ Unit := do
  Run.modify fun s => { s with offset := alignUp w s.offset }
  let s ← Run.get
  if s.buf.length < s.offset + w then Run.fail
  else Run.modify fun s =>
    { s with buf := patch s.buf s.offset (env.octets w value), offset := s.offset + w }

theorem dcerpcGet_run (env : Env) (w : Nat) (s : State κ) :
    (dcerpcGet env w).run s =
      if s.buf.length < alignUp w s.offset + w then .fail { s with offset := alignUp w s.offset }
      else .done (env.number (slice s.buf (alignUp w s.offset) w))
        { s with offset := alignUp w s.offset + w } := by
  simp only [dcerpcGet, Run.modify_bind, Run.get_bind, Run.run_ite]
  rfl

theorem dcerpcSet_run (env : Env) (w value : Nat) (s : State κ) :
    (dcerpcSet env w value).run s =
      if s.buf.length < alignUp w s.offset + w then .fail { s with offset := alignUp w s.offset }
      else .done () { s with
        buf := patch s.buf (alignUp w s.offset) (env.octets w value)
        offset := alignUp w s.offset + w } := by
  simp only [dcerpcSet, Run.modify_bind, Run.get_bind, Run.run_ite]
  rfl

/-- The alignment that a field asks for. -/
def needAlignment (w : Nat) : Ndr κ Unit :=
  Run.modify fun s => { s with maxAlignment := max s.maxAlignment w }

/-- `ndr_uint8_coder`, `ndr_uint16_coder` and `ndr_uint32_coder` with a pointer to a local value:
the value behind them. -/
def ndrUintCoder (env : Env) (w value : Nat) : Ndr κ Nat := do
  let s ← Run.get
  if s.isConformanceRun then do
    needAlignment w
    pure value
  else
    match env.direction with
    | .decode => dcerpcGet env w
    | .encode => do
      dcerpcSet env w value
      pure value

def ndrUint8Coder (env : Env) (value : Nat) : Ndr κ Nat := ndrUintCoder env 1 value

def ndrUint16Coder (env : Env) (value : Nat) : Ndr κ Nat := ndrUintCoder env 2 value

def ndrUint32Coder (env : Env) (value : Nat) : Ndr κ Nat := ndrUintCoder env 4 value

/-- The size of a word that depends on the transfer syntax. -/
def Env.word (env : Env) : Nat := if env.tctxId ≠ 0 then 8 else 4

theorem word_pos (env : Env) : 0 < env.word := by
  unfold Env.word
  split <;> decide

/-- `ndr_uint3264_coder`. -/
def ndrUint3264Coder (env : Env) (value : Nat) : Ndr κ Nat := ndrUintCoder env env.word value

/-- A coder with a pointer to a field: only decoding writes to it. -/
def ndrUintCoderAt (env : Env) (w : Nat) (a : Addr) : Ndr κ Unit := do
  let s ← Run.get
  if s.isConformanceRun then needAlignment w
  else
    match env.direction with
    | .decode => do
      let value ← dcerpcGet env w
      store a w (.num value)
    | .encode => do
      let value ← load a
      dcerpcSet env w value.toNat

def ndrUint8CoderAt (env : Env) (a : Addr) : Ndr κ Unit := ndrUintCoderAt env 1 a

def ndrUint32CoderAt (env : Env) (a : Addr) : Ndr κ Unit := ndrUintCoderAt env 4 a

/-- `ndr_conformance_coder`. -/
def ndrConformanceCoder (env : Env) (value : Nat) : Ndr κ Nat := do
  let s ← Run.get
  if !s.isConformanceRun then pure value
  else
    match env.direction with
    | .decode => dcerpcGet env env.word
    | .encode => do
      dcerpcSet env env.word value
      pure value

/-! ## Pointers -/

/-- `dcerpc_add_deferred_pointer`. -/
def dcerpcAddDeferredPointer (k : κ) (a : Addr) : Ndr κ Unit := do
  let s ← Run.get
  if MAX_DEFERRED_PTR ≤ s.ptrs.length then Run.fault .deferred
  else Run.modify fun s => { s with ptrs := s.ptrs ++ [(k, a)] }

/-- `ndr_do_coder`. -/
def ndrDoCoder (coder : Ndr κ Unit) : Ndr κ Unit := do
  Run.modify fun s => { s with maxAlignment := 1, isConformanceRun := true }
  coder
  Run.modify fun s =>
    { s with offset := alignUp s.maxAlignment s.offset, isConformanceRun := false }
  coder

theorem ndrDoCoder_run (coder : Ndr κ Unit) (s : State κ) : (ndrDoCoder coder).run s =
    (coder.run { s with maxAlignment := 1, isConformanceRun := true }).andThen fun _ t =>
      coder.run { t with offset := alignUp t.maxAlignment t.offset, isConformanceRun := false } :=
  rfl

def setTopLevel (b : Bool) : Ndr κ Unit := Run.modify fun s => { s with topLevel := b }

/-- `dcerpc_process_deferred_pointers`; a turn takes one of the pointers. -/
def dcerpcProcessDeferredPointers (run : κ → Addr → Ndr κ Unit) : Nat → Ndr κ Unit
  | 0 => Run.fault .endless
  | turns + 1 => do
    let s ← Run.get
    if s.curPtr = s.ptrs.length then pure ()
    else
      match s.ptrs[s.curPtr]? with
      | none => Run.fault .read
      | some (k, a) => do
        Run.modify fun s => { s with curPtr := s.curPtr + 1 }
        ndrDoCoder (run k a)
        dcerpcProcessDeferredPointers run turns

/-- What follows a pointer: it is followed at once at the top level, and later below it. -/
def follow (run : κ → Addr → Ndr κ Unit) (k : κ) (a : Addr) : Ndr κ Unit := do
  let s ← Run.get
  if s.topLevel then do
    setTopLevel false
    ndrDoCoder (run k a)
    setTopLevel s.topLevel
  else dcerpcAddDeferredPointer k a

/-- The label `out` of `ndr_encode_ptr` and `ndr_decode_ptr`. -/
def ptrOut (run : κ → Addr → Ndr κ Unit) : Ndr κ Unit := do
  let s ← Run.get
  if s.topLevel then do
    setTopLevel false
    dcerpcProcessDeferredPointers run (MAX_DEFERRED_PTR + 1)
    setTopLevel s.topLevel
  else pure ()

/-- `PTR_REF`, of both `ndr_encode_ptr` and `ndr_decode_ptr`. -/
def refPtr (env : Env) (run : κ → Addr → Ndr κ Unit) (k : κ) (a : Addr) : Ndr κ Unit := do
  let s ← Run.get
  if s.topLevel then follow run k a
  else do
    let _ ← ndrUint3264Coder env RPTR
    dcerpcAddDeferredPointer k a

/-- `ndr_encode_ptr`. -/
def ndrEncodePtr (env : Env) (run : κ → Addr → Ndr κ Unit) (ptr : Option Addr) (type : PtrType)
    (k : κ) : Ndr κ Unit := do
  let s ← Run.get
  if s.isConformanceRun then needAlignment env.word
  else
    match type, ptr with
    | .ref, none => Run.fault .null
    | .ref, some a => do
      refPtr env run k a
      ptrOut run
    | .full, none | .unique, none => do
      let _ ← ndrUint3264Coder env 0
      ptrOut run
    | .full, some a => do
      Run.modify fun s => { s with ptrId := s.ptrId + 1 }
      let _ ← ndrUint3264Coder env (s.ptrId + 1)
      follow run k a
      ptrOut run
    | .unique, some a => do
      let _ ← ndrUint3264Coder env UPTR
      follow run k a
      ptrOut run

/-- `ndr_decode_ptr`. -/
def ndrDecodePtr (env : Env) (run : κ → Addr → Ndr κ Unit) (ptr : Option Addr) (type : PtrType)
    (k : κ) : Ndr κ Unit := do
  let s ← Run.get
  if s.isConformanceRun then
    if type = .ref ∧ s.topLevel then pure () else needAlignment env.word
  else
    match type, ptr with
    | .ref, none => Run.fault .null
    | .ref, some a => do
      refPtr env run k a
      ptrOut run
    | .unique, ptr => do
      let p ← ndrUint3264Coder env 0
      match p, ptr with
      | 0, _ => pure ()
      | _, none => pure ()
      | _, some a => do
        follow run k a
        ptrOut run
    | .full, _ => ptrOut run

/-- `ndr_ptr_coder`. -/
def ndrPtrCoder (env : Env) (run : κ → Addr → Ndr κ Unit) (ptr : Option Addr) (type : PtrType)
    (k : κ) : Ndr κ Unit :=
  match env.direction with
  | .decode => ndrDecodePtr env run ptr type k
  | .encode => ndrEncodePtr env run ptr type k

/-! ## Arrays and unions -/

/-- The loop over the elements of an array from `a` on. -/
def elements (elemSize : Nat) (coder : Addr → Ndr κ Unit) : Nat → Addr → Ndr κ Unit
  | 0, _ => pure ()
  | n + 1, a => do
    coder a
    elements elemSize coder n (a.add elemSize)

/-- An `int` as a `uint64_t`. -/
def toUint64 (n : Int) : Nat := (n % 18446744073709551616).toNat

/-- `ndr_carray_coder`. -/
def ndrCarrayCoder (env : Env) (num : Int) (a : Addr) (elemSize : Nat)
    (coder : Addr → Ndr κ Unit) : Ndr κ Unit := do
  let p ← ndrConformanceCoder env (toUint64 num)
  if p ≠ toUint64 num then Run.fail else elements elemSize coder p a

/-- `ndr_union_coder`, with a pointer to a local discriminant: the discriminant behind it. -/
def ndrUnionCoder (env : Env) (switchIs : Nat) (coder : Ndr κ Unit) : Ndr κ Nat := do
  let p ← ndrUint3264Coder env switchIs
  Run.modify fun s => { s with switchIs := toInt32 p }
  coder
  pure (p % 4294967296)

/-- The discriminant is written back.  Encoding writes back what it has read. -/
def storeSwitchIs (env : Env) (switchIs : Addr) (p : Nat) : Ndr κ Unit :=
  match env.direction with
  | .decode => store switchIs 4 (.num (p % 4294967296))
  | .encode => pure ()

/-- `ndr_union_coder`, with a pointer to a field. -/
def ndrUnionCoderAt (env : Env) (switchIs : Addr) (coder : Ndr κ Unit) : Ndr κ Unit := do
  let value ← load switchIs
  let p ← ndrUint3264Coder env value.toNat
  storeSwitchIs env switchIs p
  Run.modify fun s => { s with switchIs := toInt32 p }
  coder

end

/-- The coder of a number ends with it, or fails. -/
theorem ndrUintCoder_faults {κ : Type} {env : Env} {w value : Nat} (P : Fault → Prop) :
    Run.FaultsIn (σ := State κ) P (ndrUintCoder env w value) := by
  have hget : Run.FaultsIn (σ := State κ) P (dcerpcGet env w) := by
    refine (Run.FaultsIn.modify _).bind fun _ => Run.FaultsIn.get.bind fun s => ?_
    split
    · exact .fail
    · exact (Run.FaultsIn.modify _).bind fun _ => .pure _
  have hset : Run.FaultsIn (σ := State κ) P (dcerpcSet env w value) := by
    refine (Run.FaultsIn.modify _).bind fun _ => Run.FaultsIn.get.bind fun s => ?_
    split
    · exact .fail
    · exact .modify _
  refine Run.FaultsIn.get.bind fun s => ?_
  split
  · exact (Run.FaultsIn.modify _).bind fun _ => .pure _
  cases env.direction with
  | decode => exact hget
  | encode => exact hset.bind fun _ => .pure _

/-! ## What is read in the second pass -/

/-- The octet at an offset. -/
def octet (buf : Bytes) (o : Nat) : Nat := fromLe (slice buf o 1)

theorem number_slice_one (env : Env) (buf : Bytes) (o : Nat) :
    env.number (slice buf o 1) = octet buf o := by
  have hlen : (slice buf o 1).length ≤ 1 := by
    rw [length_slice]
    omega
  have hrev : (slice buf o 1).reverse = slice buf o 1 := by
    rcases h : slice buf o 1 with _ | ⟨b, _ | ⟨c, rest⟩⟩
    · rfl
    · rfl
    · rw [h] at hlen
      simp at hlen
  rw [Env.number, hrev, ite_self, octet]

theorem number_slice_lt {env : Env} (buf : Bytes) (o w : Nat) :
    env.number (slice buf o w) < 256 ^ w := by
  have hlen : (slice buf o w).length ≤ w := by
    rw [length_slice]
    exact Nat.min_le_left _ _
  rw [Env.number]
  split
  · exact (fromLe_lt _).trans_le (Nat.pow_le_pow_right (by decide) hlen)
  · refine (fromLe_lt _).trans_le (Nat.pow_le_pow_right (by decide) ?_)
    rw [List.length_reverse]
    exact hlen

/-- The second pass of a coder reads `k` octets at the offset `o`, and what it reads is `a`; it
fails if they are not there. -/
def Reads {κ α : Type} (buf : Bytes) (o k : Nat) (x : Ndr κ α) (a : α) : Prop :=
  ∀ s, s.buf = buf → s.offset = o → s.isConformanceRun = false →
    (o + k ≤ buf.length → x.run s = .done a { s with offset := o + k })
    ∧ (buf.length < o + k → ∃ t, x.run s = .fail t)

section

variable {κ α β : Type} {buf : Bytes} {o k l : Nat} {x : Ndr κ α} {a : α}

theorem Reads.bind {f : α → Ndr κ β} {b : β} (hx : Reads buf o k x a)
    (hf : Reads buf (o + k) l (f a) b) : Reads buf o (k + l) (x >>= f) b := by
  intro s hbuf hoff hrun
  obtain ⟨hdone, hfail⟩ := hx s hbuf hoff hrun
  by_cases hin : o + k ≤ buf.length
  · obtain ⟨hdone', hfail'⟩ := hf { s with offset := o + k } hbuf rfl hrun
    rw [Run.bind_done (hdone hin)]
    exact ⟨fun h => by rw [hdone' (by omega), Nat.add_assoc], fun h => hfail' (by omega)⟩
  · obtain ⟨t, ht⟩ := hfail (by omega)
    exact ⟨fun h => absurd h (by omega), fun _ => ⟨t, Run.bind_fail ht⟩⟩

theorem Reads.map (f : α → β) (hx : Reads buf o k x a) :
    Reads buf o k (x >>= fun a => pure (f a)) (f a) := by
  intro s hbuf hoff hrun
  obtain ⟨hdone, hfail⟩ := hx s hbuf hoff hrun
  refine ⟨fun hin => Run.bind_done (hdone hin), fun hout => ?_⟩
  obtain ⟨t, ht⟩ := hfail hout
  exact ⟨t, Run.bind_fail ht⟩

/-- What follows octets that are there. -/
theorem Reads.run_bind {f : α → Ndr κ β} {s : State κ} (hx : Reads buf o k x a)
    (hbuf : s.buf = buf) (hoff : s.offset = o) (hrun : s.isConformanceRun = false)
    (h : o + k ≤ buf.length) : (x >>= f).run s = (f a).run { s with offset := o + k } :=
  Run.bind_done ((hx s hbuf hoff hrun).1 h)

/-- The second pass of a coder fails unless `k` octets are there. -/
def Needs (buf : Bytes) (o k : Nat) (y : Ndr κ β) : Prop :=
  ∀ s, s.buf = buf → s.offset = o → s.isConformanceRun = false → buf.length < o + k →
    ∃ t, y.run s = .fail t

theorem Reads.needs (f : α → Ndr κ β) (hx : Reads buf o k x a) : Needs buf o k (x >>= f) := by
  intro s hbuf hoff hrun hout
  obtain ⟨t, ht⟩ := (hx s hbuf hoff hrun).2 hout
  exact ⟨t, Run.bind_fail ht⟩

theorem Reads.needs_bind {f : α → Ndr κ β} (hx : Reads buf o k x a)
    (hf : Needs buf (o + k) l (f a)) : Needs buf o (k + l) (x >>= f) := by
  intro s hbuf hoff hrun hout
  by_cases hin : o + k ≤ buf.length
  · rw [hx.run_bind hbuf hoff hrun hin]
    exact hf _ hbuf rfl hrun (by omega)
  · exact hx.needs f s hbuf hoff hrun (by omega)

/-- A number that is read where it is expected. -/
theorem ndrUintCoder_reads {env : Env} (hdir : env.direction = .decode) {w : Nat} (value : Nat)
    (hw : 0 < w) (hdvd : w ∣ o) :
    Reads (κ := κ) buf o w (ndrUintCoder env w value) (env.number (slice buf o w)) := by
  intro s hbuf hoff hrun
  subst hbuf
  subst hoff
  rw [ndrUintCoder, Run.get_bind, hrun, if_neg (by decide), hdir, dcerpcGet_run,
    alignUp_of_dvd hw hdvd]
  refine ⟨fun hin => ?_, fun hout => ?_⟩
  · rw [if_neg (by omega), hrun]
  · rw [if_pos hout]
    exact ⟨_, rfl⟩

theorem ndrUint8Coder_reads {env : Env} (hdir : env.direction = .decode) (value : Nat) :
    Reads (κ := κ) buf o 1 (ndrUint8Coder env value) (octet buf o) := by
  rw [← number_slice_one env]
  exact ndrUintCoder_reads hdir value (by decide) (Nat.one_dvd _)

theorem ndrUint16Coder_reads {env : Env} (hdir : env.direction = .decode) (value : Nat)
    (hdvd : 2 ∣ o) :
    Reads (κ := κ) buf o 2 (ndrUint16Coder env value) (env.number (slice buf o 2)) :=
  ndrUintCoder_reads hdir value (by decide) hdvd

theorem ndrUint32Coder_reads {env : Env} (hdir : env.direction = .decode) (value : Nat)
    (hdvd : 4 ∣ o) :
    Reads (κ := κ) buf o 4 (ndrUint32Coder env value) (env.number (slice buf o 4)) :=
  ndrUintCoder_reads hdir value (by decide) hdvd

end

end Libsmb2.Dcerpc
