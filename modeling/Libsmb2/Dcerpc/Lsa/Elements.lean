import Libsmb2.Dcerpc.Deferred
import Libsmb2.Dcerpc.Lsa.Memory
import Libsmb2.Dcerpc.Lsa.Strings

/-!
# Elements of decoded arrays

Sub-authorities, pointers to SIDs, and translated names: where they stand in the buffer, and what
is decoded of them into an array that may be too small.

* `subAuthorities_steps`, `sids_steps`, `names_steps` — one element of each;
* `Elements.Steps.loop` — a loop over them.
-/

set_option autoImplicit false

namespace Libsmb2.Dcerpc

open Util

/-! ## Where an array stands -/

/-- The arrays whose size stands in a reply twice. -/
inductive LsaArray
  | subAuthorities
  | sids
  | names
  deriving DecidableEq, Repr

namespace LsaArray

/-- The coder of the structure of an array. -/
def coder : LsaArray → Lsa
  | subAuthorities => .rpcSid
  | sids => .prpcSidArray
  | names => .tnArray

/-- `SubAuthorityCount`, or `Entries`. -/
def field (a : Addr) : LsaArray → Addr
  | subAuthorities => a.add 1
  | sids => a
  | names => a

/-- The values that the field can have. -/
def limit : LsaArray → Nat
  | subAuthorities => 256
  | sids => 4294967296
  | names => 4294967296

/-- The size of an element in memory. -/
def elemSize : LsaArray → Nat
  | subAuthorities => 4
  | sids => 8
  | names => TRANSLATED_NAME_EX_SIZE

variable (env : Env)

/-- The octets of an element in the buffer. -/
def elemOctets : LsaArray → Nat
  | subAuthorities => 4
  | sids => env.word
  | names => 3 * env.word + 8

/-- The alignment of an element. -/
def elemAlign : LsaArray → Nat
  | subAuthorities => 4
  | sids => env.word
  | names => env.word

/-- The size of the count in front of the elements. -/
def countWidth : LsaArray → Nat
  | subAuthorities => env.word
  | sids => 4
  | names => env.word

/-- Where the count stands, if the field has this value in the first pass. -/
def place (offset entries : Nat) : LsaArray → Nat
  | subAuthorities => alignUp env.word offset
  | sids => alignUp (if entries = 0 then 4 else env.word) offset
  | names => alignUp env.word offset

/-- Where what is in front of the elements ends. -/
def headerEnd (o : Nat) : LsaArray → Nat
  | subAuthorities => o + env.word + 8
  | sids => o + 4
  | names => o + env.word

/-- Where the first element stands. -/
def first (o : Nat) : LsaArray → Nat
  | subAuthorities => o + env.word + 8
  | sids => alignUp env.word (o + 4)
  | names => o + env.word

/-- How many elements are decoded. -/
def count (buf : Bytes) (o : Nat) (k : LsaArray) : Nat :=
  env.number (slice buf o (k.countWidth env))

/-- The value of the field behind the decoder. -/
def fieldValue (buf : Bytes) (o entries : Nat) : LsaArray → Nat
  | subAuthorities => octet buf (o + env.word + 1)
  | sids => entries
  | names => entries

/-- The element that stands here has a pointer that is not null. -/
def PointsAt (buf : Bytes) (e : Nat) : LsaArray → Prop
  | subAuthorities => False
  | sids => env.number (slice buf e env.word) ≠ 0
  | names => env.number (slice buf (e + 2 * env.word) env.word) ≠ 0

instance (buf : Bytes) (e : Nat) : (k : LsaArray) → Decidable (k.PointsAt env buf e)
  | subAuthorities => .isFalse id
  | sids => inferInstanceAs (Decidable (_ ≠ _))
  | names => inferInstanceAs (Decidable (_ ≠ _))

end LsaArray

/-! ## The elements -/

/-- The elements that are decoded from here on, into an array of so many octets, with so many
pointers deferred before. -/
structure Elements where
  env : Env
  kind : LsaArray
  buf : Bytes
  first : Nat
  size : Nat
  ptrs : Nat

namespace Elements

variable (x : Elements)

/-- Where an element stands. -/
def offset (i : Nat) : Nat := x.first + i * x.kind.elemOctets x.env

/-- The element with this number has a pointer that is not null. -/
def Points (i : Nat) : Prop := x.kind.PointsAt x.env x.buf (x.offset i)

instance (i : Nat) : Decidable (x.Points i) :=
  inferInstanceAs (Decidable (x.kind.PointsAt x.env x.buf (x.offset i)))

/-- How many pointers are deferred when the elements in front of this one have been decoded. -/
def pointers : Nat → Nat
  | 0 => x.ptrs
  | i + 1 => pointers i + if x.Points i then 1 else 0

/-- There is room for the pointer of an element, if it has one. -/
def Room (i : Nat) : Prop := x.Points i → x.pointers i < MAX_DEFERRED_PTR

/-- An element is decoded: it lies in the buffer and in the array. -/
def GetsOver (i : Nat) : Prop :=
  x.offset (i + 1) ≤ x.buf.length ∧ (i + 1) * x.kind.elemSize ≤ x.size ∧ x.Room i

/-- The octets are there of a field that does not lie in the array.  Of a translated name the
first field may lie in it, and then the next one that is written does not. -/
def LeavesAt (i : Nat) : Prop :=
  match x.kind with
  | .subAuthorities => x.size < (i + 1) * 4 ∧ x.offset i + 4 ≤ x.buf.length
  | .sids => False
  | .names =>
    x.size < i * TRANSLATED_NAME_EX_SIZE + 4 ∧ x.offset i + 4 ≤ x.buf.length
    ∨ i * TRANSLATED_NAME_EX_SIZE + 4 ≤ x.size ∧ x.size < (i + 1) * TRANSLATED_NAME_EX_SIZE
      ∧ x.offset i + 3 * x.env.word + 4 ≤ x.buf.length ∧ x.Room i

/-- An element of the array at `p` is what the buffer says, and its pointer is deferred. -/
def Decoded (p : Addr) (h : Heap) (ptrs : List (Lsa × Addr)) (i : Nat) : Prop :=
  match x.kind with
  | .subAuthorities =>
    h.cell (p.add (i * 4)) = .num (x.env.number (slice x.buf (x.offset i) 4))
  | .sids => ∃ r, h.cell (p.add (i * 8)) = .ref r ∧ h.Sized r RPC_SID_SIZE
    ∧ (x.Points i → (.rpcSid, r) ∈ ptrs)
  | .names =>
    h.cell (p.add (i * TRANSLATED_NAME_EX_SIZE)) =
      .num (x.env.number (slice x.buf (x.offset i) 4))
    ∧ h.cell (p.add (i * TRANSLATED_NAME_EX_SIZE + 16)) =
      .num (x.env.number (slice x.buf (x.offset i + 3 * x.env.word) 4))
    ∧ h.cell (p.add (i * TRANSLATED_NAME_EX_SIZE + 20)) =
      .num (x.env.number (slice x.buf (x.offset i + 3 * x.env.word + 4) 4))
    ∧ (x.Points i → (.utf16, p.add (i * TRANSLATED_NAME_EX_SIZE + 8)) ∈ ptrs)

end Elements

/-! ## The loops -/

/-- The coder of an element. -/
def LsaArray.elemCoder (env : Env) (run : LsaRun) : LsaArray → Addr → Ndr Lsa Unit
  | .subAuthorities, a => ndrUint32CoderAt env a
  | .sids, a => do
    let sid ← load a
    ndrPtrCoder env run sid.toRef .unique .rpcSid
  | .names, a => lsaTranslatedNameExCoder env run a

/-- A run that has come to no end, and has written nothing outside a block. -/
def Stops {κ α : Type} (o : Util.Outcome (State κ) Fault α) : Prop :=
  match o with
  | .done _ _ => False
  | .fail _ => True
  | .fault f => f ≠ .write

theorem Stops.andThen {κ α β : Type} {o : Util.Outcome (State κ) Fault α} (h : Stops o)
    (f : α → State κ → Util.Outcome (State κ) Fault β) : Stops (o.andThen f) := by
  cases o with
  | done a t => exact h.elim
  | fail t => trivial
  | fault e => exact h

/-- In front of the element with this number. -/
structure Elements.Loop (x : Elements) (p : Addr) (h : Heap) (i : Nat) (s : State Lsa) : Prop where
  buf : s.buf = x.buf
  -- the pointers to the SIDs are aligned when the first of them is read
  offset : alignUp (if x.kind = .sids then x.env.word else 1) s.offset = x.offset i
  pass : s.isConformanceRun = false
  topLevel : s.topLevel = false
  ptrs : s.ptrs.length = x.pointers i
  fits : ∀ a w, s.heap.Fits a w ↔ h.Fits a w
  sized : ∀ a n, s.heap.Sized a n ↔ h.Sized a n
  cell : ∀ a, a.block ≠ p.block ∨ x.kind = .sids → s.heap.cell a = h.cell a
  decoded : ∀ j < i, x.Decoded p s.heap s.ptrs j

/-- The array that the elements are decoded into. -/
structure Elements.Ready (x : Elements) (p : Addr) (h : Heap) : Prop where
  direction : x.env.direction = .decode
  sized : h.Sized p x.size
  aligned : x.kind ≠ .sids → x.kind.elemAlign x.env ∣ x.first
  multiple : 8 ∣ x.size ∨ x.kind = .subAuthorities
  sids : x.kind = .sids → ∀ i, (i + 1) * 8 ≤ x.size →
    ∃ r, h.cell (p.add (i * 8)) = .ref r ∧ h.Sized r RPC_SID_SIZE

/-- What the decoders of elements do, at every element that they come to. -/
structure Elements.Steps (x : Elements) (p : Addr) (h : Heap) (coder : Addr → Ndr Lsa Unit) :
    Prop where
  goesOn : ∀ i s, x.Loop p h i s → x.GetsOver i →
    ∃ t, (coder (p.add (i * x.kind.elemSize))).run s = .done () t ∧ x.Loop p h (i + 1) t
  leaves : ∀ i s, x.Loop p h i s → x.LeavesAt i →
    (coder (p.add (i * x.kind.elemSize))).run s = .fault .write
  stops : ∀ i s, x.Loop p h i s → ¬ x.GetsOver i → ¬ x.LeavesAt i →
    Stops ((coder (p.add (i * x.kind.elemSize))).run s)

section
variable {x : Elements} {p : Addr} {h : Heap} {run : LsaRun} {i : Nat} {s : State Lsa}

theorem Elements.pointers_succ (x : Elements) (i : Nat) :
    x.pointers (i + 1) = x.pointers i + if x.Points i then 1 else 0 := rfl

theorem Elements.offset_zero (x : Elements) : x.offset 0 = x.first := by
  rw [offset, Nat.zero_mul, Nat.add_zero]

theorem Elements.offset_succ (x : Elements) (i : Nat) :
    x.offset (i + 1) = x.offset i + x.kind.elemOctets x.env := by
  rw [offset, offset, Nat.succ_mul, Nat.add_assoc]

theorem alignUp_one (n : Nat) : alignUp 1 n = n := by
  rw [alignUp]
  omega

/-- Outside the pointers to SIDs an element is read where the last one ends. -/
theorem Elements.Loop.offset_eq (hloop : x.Loop p h i s) (hkind : x.kind ≠ .sids) :
    s.offset = x.offset i := by
  have hoff := hloop.offset
  rw [if_neg hkind, alignUp_one] at hoff
  exact hoff

/-- Every element is aligned. -/
theorem Elements.Ready.dvd_offset (hready : x.Ready p h) (hkind : x.kind ≠ .sids) (i : Nat) :
    x.kind.elemAlign x.env ∣ x.offset i := by
  refine (Nat.dvd_add_right (hready.aligned hkind)).mpr (Dvd.dvd.mul_left ?_ i)
  cases x.kind with
  | subAuthorities => exact Nat.dvd_refl 4
  | sids => exact Nat.dvd_refl _
  | names =>
    refine (Nat.dvd_add_right (Nat.dvd_mul_left _ _)).mpr ?_
    show x.env.word ∣ 8
    unfold Env.word
    split <;> decide

/-- What has been decoded stays, where only later elements are written. -/
theorem Elements.Decoded.mono {h' : Heap} {ptrs ptrs' : List (Lsa × Addr)} {j : Nat}
    (hdecoded : x.Decoded p h ptrs j) (hj : j < i)
    (hcell : ∀ m < i * x.kind.elemSize, h'.cell (p.add m) = h.cell (p.add m))
    (hsized : ∀ a n, h'.Sized a n ↔ h.Sized a n) (hptrs : ∀ e ∈ ptrs, e ∈ ptrs') :
    x.Decoded p h' ptrs' j := by
  have hle : (j + 1) * x.kind.elemSize ≤ i * x.kind.elemSize := Nat.mul_le_mul_right _ hj
  rw [Nat.succ_mul] at hle
  unfold Decoded at hdecoded ⊢
  cases hkind : x.kind with
  | subAuthorities =>
    simp only [hkind, LsaArray.elemSize] at hdecoded hcell hle ⊢
    rw [hcell _ (by omega)]
    exact hdecoded
  | sids =>
    simp only [hkind, LsaArray.elemSize] at hdecoded hcell hle ⊢
    obtain ⟨r, hr, hsid, hpoints⟩ := hdecoded
    exact ⟨r, (hcell _ (by omega)).trans hr, (hsized r _).mpr hsid, fun h => hptrs _ (hpoints h)⟩
  | names =>
    simp only [hkind, LsaArray.elemSize, TRANSLATED_NAME_EX_SIZE] at hdecoded hcell hle ⊢
    obtain ⟨huse, hindex, hflags, hpoints⟩ := hdecoded
    exact ⟨(hcell _ (by omega)).trans huse, (hcell _ (by omega)).trans hindex,
      (hcell _ (by omega)).trans hflags, fun h => hptrs _ (hpoints h)⟩

/-! ### Sub-authorities -/

theorem subAuthorities_steps (hready : x.Ready p h) (hkind : x.kind = .subAuthorities) :
    x.Steps p h (ndrUint32CoderAt x.env) := by
  have hnull : ∀ i, ¬ x.Points i := by
    intro i hpoints
    unfold Elements.Points at hpoints
    rw [hkind] at hpoints
    exact hpoints
  have hrun : ∀ i s, x.Loop p h i s →
      (ndrUint32CoderAt x.env (p.add (i * x.kind.elemSize))).run s =
        if x.buf.length < x.offset i + 4 then .fail s
        else if (i + 1) * 4 ≤ x.size then .done () { s with
          offset := x.offset i + 4
          heap := s.heap.put (p.add (i * 4))
            (.num (x.env.number (slice x.buf (x.offset i) 4))) }
        else .fault .write := by
    intro i s hloop
    have hoff := hloop.offset_eq (by rw [hkind]; decide)
    have hdvd : 4 ∣ s.offset := by
      have halign := hready.dvd_offset (by rw [hkind]; decide) i
      rw [hkind] at halign
      rw [hoff]
      exact halign
    have hfits : s.heap.Fits (p.add (i * 4)) 4 ↔ (i + 1) * 4 ≤ x.size := by
      rw [hloop.fits, hready.sized.fits, Nat.succ_mul]
    rw [ndrUint32CoderAt, ndrUintCoderAt_decodes hready.direction hloop.pass (by decide) hdvd,
      hoff, hloop.buf, hkind]
    simp only [LsaArray.elemSize, hfits]
  have hnext : ∀ i, x.offset (i + 1) = x.offset i + 4 := by
    intro i
    rw [Elements.offset_succ, hkind]
    rfl
  refine ⟨fun i s hloop hover => ?_, fun i s hloop hleaves => ?_, fun i s hloop hno hstay => ?_⟩
  · obtain ⟨hin, hfit, -⟩ := hover
    rw [hnext] at hin
    rw [hkind] at hfit
    change (i + 1) * 4 ≤ x.size at hfit
    have hfits : s.heap.Fits (p.add (i * 4)) 4 := by
      rw [hloop.fits, hready.sized.fits]
      omega
    rw [hrun i s hloop, if_neg (by omega), if_pos hfit]
    refine ⟨_, rfl, hloop.buf, ?_, hloop.pass, hloop.topLevel, ?_, fun a w => ?_, fun a n => ?_,
      fun a ha => ?_, fun j hj => ?_⟩
    · rw [if_neg (by rw [hkind]; decide), alignUp_one, hnext]
    · rw [Elements.pointers_succ, if_neg (hnull i)]
      exact hloop.ptrs
    · exact Heap.fits_put.trans (hloop.fits a w)
    · exact Heap.sized_put.trans (hloop.sized a n)
    · rcases ha with ha | ha
      · rw [Heap.cell_put_ne fun hsame => ha (by rw [hsame]; rfl)]
        exact hloop.cell a (.inl ha)
      · rw [hkind] at ha
        cases ha
    · by_cases hlast : j = i
      · subst hlast
        simp only [Elements.Decoded, hkind]
        exact Heap.cell_put hfits
      · refine (hloop.decoded j (by omega)).mono (i := i) (by omega) (fun m hm => ?_)
          (fun a n => Heap.sized_put) fun e he => he
        rw [hkind] at hm
        change m < i * 4 at hm
        exact Heap.cell_put_ne fun hsame => by rw [Addr.add_inj] at hsame; omega
  · unfold Elements.LeavesAt at hleaves
    rw [hkind] at hleaves
    dsimp only at hleaves
    rw [hrun i s hloop, if_neg (by omega), if_neg (by omega)]
  · rw [hrun i s hloop]
    by_cases hin : x.buf.length < x.offset i + 4
    · rw [if_pos hin]
      trivial
    · have hfit : (i + 1) * 4 ≤ x.size := by
        by_contra hfit
        apply hstay
        unfold Elements.LeavesAt
        rw [hkind]
        dsimp only
        omega
      refine absurd ⟨?_, ?_, fun hpoints => absurd hpoints (hnull i)⟩ hno
      · rw [hnext]
        omega
      · rw [hkind]
        exact hfit

/-! ### Pointers to SIDs -/

/-- What a pointer with this value does below the top level, when it has been read. -/
def deferPointer (n o : Nat) (e : Lsa × Addr) (s : State Lsa) :
    Util.Outcome (State Lsa) Fault Unit :=
  if n = 0 then .done () { s with offset := o }
  else if MAX_DEFERRED_PTR ≤ s.ptrs.length then .fault .deferred
  else .done () { s with offset := o, ptrs := s.ptrs ++ [e] }

section
variable {n o : Nat} {e : Lsa × Addr}

theorem deferPointer_room (hroom : n ≠ 0 → s.ptrs.length < MAX_DEFERRED_PTR) :
    ∃ new, deferPointer n o e s = .done () { s with offset := o, ptrs := s.ptrs ++ new }
      ∧ new.length = (if n ≠ 0 then 1 else 0) ∧ (n ≠ 0 → e ∈ new) := by
  unfold deferPointer
  by_cases hnull : n = 0
  · rw [if_pos hnull, if_neg (not_not.mpr hnull)]
    exact ⟨[], by rw [List.append_nil], rfl, fun h => absurd hnull h⟩
  · have hlt := hroom hnull
    rw [if_neg hnull, if_neg (by omega), if_pos hnull]
    exact ⟨[e], rfl, rfl, fun _ => List.mem_singleton.mpr rfl⟩

theorem deferPointer_full (hfull : ¬ (n ≠ 0 → s.ptrs.length < MAX_DEFERRED_PTR)) :
    deferPointer n o e s = .fault .deferred := by
  rw [Classical.not_imp, Nat.not_lt] at hfull
  unfold deferPointer
  rw [if_neg hfull.1, if_pos hfull.2]

end

theorem sids_steps (hready : x.Ready p h) (hkind : x.kind = .sids) :
    x.Steps p h (LsaArray.elemCoder x.env run .sids) := by
  have hsize : 8 ∣ x.size := hready.multiple.resolve_right (by rw [hkind]; decide)
  have hpoints : ∀ i, x.Points i ↔ x.env.number (slice x.buf (x.offset i) x.env.word) ≠ 0 := by
    intro i
    unfold Elements.Points
    rw [hkind]
    exact Iff.rfl
  have hnext : ∀ i, x.offset (i + 1) = x.offset i + x.env.word := by
    intro i
    rw [Elements.offset_succ, hkind]
    rfl
  have hroom : ∀ i s, x.Loop p h i s → (x.Room i ↔
      (x.env.number (slice x.buf (x.offset i) x.env.word) ≠ 0 →
        s.ptrs.length < MAX_DEFERRED_PTR)) := by
    intro i s hloop
    rw [Elements.Room, hpoints, hloop.ptrs]
  have hrun : ∀ i s, x.Loop p h i s → (i + 1) * 8 ≤ x.size →
      ∃ r, h.cell (p.add (i * 8)) = .ref r ∧ h.Sized r RPC_SID_SIZE ∧
      (LsaArray.elemCoder x.env run .sids (p.add (i * x.kind.elemSize))).run s =
        if x.buf.length < x.offset i + x.env.word then .fail { s with offset := x.offset i }
        else deferPointer (x.env.number (slice x.buf (x.offset i) x.env.word))
          (x.offset i + x.env.word) (.rpcSid, r) s := by
    intro i s hloop hfit
    obtain ⟨r, hr, hsid⟩ := hready.sids hkind i hfit
    have hoff := hloop.offset
    rw [if_pos hkind] at hoff
    have hfits : s.heap.Fits (p.add (i * 8)) 1 := by
      rw [hloop.fits, hready.sized.fits]
      omega
    refine ⟨r, hr, hsid, ?_⟩
    rw [LsaArray.elemCoder, hkind, LsaArray.elemSize, Run.run_bind, load_run, if_pos hfits,
      Run.andThen_done, hloop.cell _ (.inr hkind), hr, Cell.toRef,
      ndrDecodePtr_run hready.direction hloop.pass hloop.topLevel, hoff, ← hloop.buf]
    rfl
  refine ⟨fun i s hloop hgets => ?_, fun i s hloop hleaves => ?_, fun i s hloop hno _ => ?_⟩
  · obtain ⟨hin, hfit, hptr⟩ := hgets
    rw [hnext] at hin
    rw [hkind] at hfit
    obtain ⟨r, hr, hsid, hcoder⟩ := hrun i s hloop hfit
    obtain ⟨new, hnew, hlen, hmem⟩ := deferPointer_room (o := x.offset i + x.env.word)
      (e := (.rpcSid, r)) ((hroom i s hloop).mp hptr)
    rw [hcoder, if_neg (by omega), hnew]
    refine ⟨_, rfl, hloop.buf, ?_, hloop.pass, hloop.topLevel, ?_, hloop.fits, hloop.sized,
      hloop.cell, fun j hj => ?_⟩
    · have halign : x.env.word ∣ x.offset i + x.env.word := by
        rw [Nat.dvd_add_self_right, ← hloop.offset, if_pos hkind]
        exact dvd_alignUp _ _
      rw [if_pos hkind, alignUp_of_dvd (word_pos _) halign, hnext]
    · rw [List.length_append, hloop.ptrs, hlen, Elements.pointers_succ]
      simp only [hpoints]
    · by_cases hlast : j = i
      · subst hlast
        simp only [Elements.Decoded, hkind]
        refine ⟨r, (hloop.cell _ (.inr hkind)).trans hr, (hloop.sized r _).mpr hsid, fun hp => ?_⟩
        exact List.mem_append_right _ (hmem ((hpoints j).mp hp))
      · exact (hloop.decoded j (by omega)).mono (i := i) (by omega) (fun _ _ => rfl)
          (fun _ _ => Iff.rfl) fun e he => List.mem_append_left _ he
  · unfold Elements.LeavesAt at hleaves
    rw [hkind] at hleaves
    exact hleaves.elim
  · by_cases hfit : (i + 1) * 8 ≤ x.size
    · obtain ⟨r, -, -, hcoder⟩ := hrun i s hloop hfit
      rw [hcoder]
      by_cases hin : x.buf.length < x.offset i + x.env.word
      · rw [if_pos hin]
        trivial
      · rw [if_neg hin, deferPointer_full fun hlt => hno ⟨?_, ?_, (hroom i s hloop).mpr hlt⟩]
        · exact nofun
        · rw [hnext]
          omega
        · rw [hkind]
          exact hfit
    · have hfits : ¬ s.heap.Fits (p.add (i * 8)) 1 := by
        rw [hloop.fits, hready.sized.fits]
        omega
      rw [LsaArray.elemCoder, hkind, LsaArray.elemSize, Run.run_bind, load_run, if_neg hfits]
      exact nofun

/-! ### Translated names -/

section
variable {env : Env} (hdir : env.direction = .decode) (hpass : s.isConformanceRun = false)

include hdir hpass

/-- A string below the top level is read up to its pointer, which is deferred unless it is
null. -/
theorem lsaRpcUnicodeStringCoder_run (htop : s.topLevel = false) {e : Nat} (hdvd : env.word ∣ e)
    (hoff : s.offset = e + 4) (a : Addr) :
    (s.buf.length < e + 3 * env.word → Stops ((lsaRpcUnicodeStringCoder env run a).run s))
    ∧ (e + 3 * env.word ≤ s.buf.length →
      (lsaRpcUnicodeStringCoder env run a).run s =
        deferPointer (env.number (slice s.buf (e + 2 * env.word) env.word)) (e + 3 * env.word)
          (.utf16, a) s) := by
  have hword := four_le_word env
  have hlengths : alignUp env.word s.offset = e + env.word := by
    rw [hoff]
    exact alignUp_add_four hdvd
  have hpointer : alignUp env.word (e + env.word + 4) = e + 2 * env.word := by
    rw [alignUp_add_four (Nat.dvd_add_self_right.mpr hdvd)]
    omega
  obtain ⟨hdone, hfail⟩ := unicodeHeaderCoder_decodes (s := s) (a := a) hdir hpass
  rw [hlengths] at hdone hfail
  have hthird : e + 2 * env.word + env.word = e + 3 * env.word := by omega
  refine ⟨fun hout => ?_, fun hin => ?_⟩
  · by_cases hhead : s.buf.length < e + env.word + 4
    · obtain ⟨t, ht⟩ := hfail hhead
      rw [lsaRpcUnicodeStringCoder, Run.bind_fail ht]
      trivial
    · rw [lsaRpcUnicodeStringCoder, Run.bind_done (hdone (by omega)),
        ndrDecodePtr_run hdir (by exact hpass) (by exact htop)]
      dsimp only
      rw [hpointer, if_pos (by omega)]
      trivial
  · rw [lsaRpcUnicodeStringCoder, Run.bind_done (hdone (by omega)),
      ndrDecodePtr_run hdir (by exact hpass) (by exact htop)]
    dsimp only
    rw [hpointer, if_neg (by omega), hthird]
    rfl

/-- A number that is decoded into an element. -/
theorem ndrUint32CoderAt_run {e : Nat} (hdvd : 4 ∣ e) (hoff : s.offset = e) (a : Addr) :
    (ndrUint32CoderAt env a).run s =
      if s.buf.length < e + 4 then .fail s
      else if s.heap.Fits a 4 then .done () { s with
        offset := e + 4
        heap := s.heap.put a (.num (env.number (slice s.buf e 4))) }
      else .fault .write := by
  subst hoff
  exact ndrUintCoderAt_decodes hdir hpass (by decide) hdvd a

/-- Two numbers behind one another. -/
theorem twoNumbers_run {e : Nat} (hdvd : 4 ∣ e) (hoff : s.offset = e) (a b : Addr) :
    (do
      ndrUint32CoderAt env a
      ndrUint32CoderAt env b : Ndr Lsa Unit).run s =
      if s.buf.length < e + 4 then .fail s
      else if ¬ s.heap.Fits a 4 then .fault .write
      else if s.buf.length < e + 8 then .fail { s with
        offset := e + 4
        heap := s.heap.put a (.num (env.number (slice s.buf e 4))) }
      else if s.heap.Fits b 4 then .done () { s with
        offset := e + 8
        heap := (s.heap.put a (.num (env.number (slice s.buf e 4)))).put b
          (.num (env.number (slice s.buf (e + 4) 4))) }
      else .fault .write := by
  rw [Run.run_bind, ndrUint32CoderAt_run hdir hpass hdvd hoff]
  by_cases hfirst : s.buf.length < e + 4
  · rw [if_pos hfirst, if_pos hfirst, Run.andThen_fail]
  rw [if_neg hfirst, if_neg hfirst]
  by_cases hfits : s.heap.Fits a 4
  · rw [if_pos hfits, if_neg (not_not.mpr hfits), Run.andThen_done,
      ndrUint32CoderAt_run hdir (by exact hpass) (Nat.dvd_add_self_right.mpr hdvd) rfl]
    simp only [Heap.fits_put, Nat.add_assoc, Nat.reduceAdd]
  · rw [if_neg hfits, if_pos hfits, Run.andThen_fault]

section
variable {e : Nat} (hdvd : env.word ∣ e) (hoff : s.offset = e) (y : Addr)

include hdvd hoff

/-- The memory in which the first field of a translated name is decoded. -/
theorem translatedName_first (hin : e + 4 ≤ s.buf.length) (hfits : s.heap.Fits y 4) :
    (lsaTranslatedNameExCoder env run y).run s = (do
      lsaRpcUnicodeStringCoder env run (y.add 8)
      ndrUint32CoderAt env (y.add 16)
      ndrUint32CoderAt env (y.add 20)).run { s with
        offset := e + 4
        heap := s.heap.put y (.num (env.number (slice s.buf e 4))) } := by
  have hnumber := ndrUint32CoderAt_run hdir hpass ((four_dvd_word env).trans hdvd) hoff y
  rw [if_neg (by omega), if_pos hfits] at hnumber
  rw [lsaTranslatedNameExCoder, Run.bind_done hnumber]

variable (htop : s.topLevel = false)

include htop

/-- A translated name up to its string. -/
theorem translatedName_string (hin : e + 3 * env.word ≤ s.buf.length) (hfits : s.heap.Fits y 4)
    (hroom : env.number (slice s.buf (e + 2 * env.word) env.word) ≠ 0 →
      s.ptrs.length < MAX_DEFERRED_PTR) :
    ∃ new, (lsaTranslatedNameExCoder env run y).run s = (do
        ndrUint32CoderAt env (y.add 16)
        ndrUint32CoderAt env (y.add 20) : Ndr Lsa Unit).run { s with
          offset := e + 3 * env.word
          heap := s.heap.put y (.num (env.number (slice s.buf e 4)))
          ptrs := s.ptrs ++ new }
      ∧ new.length =
        (if env.number (slice s.buf (e + 2 * env.word) env.word) ≠ 0 then 1 else 0)
      ∧ (env.number (slice s.buf (e + 2 * env.word) env.word) ≠ 0 →
        (.utf16, y.add 8) ∈ new) := by
  have hword := four_le_word env
  obtain ⟨-, hstring⟩ := @lsaRpcUnicodeStringCoder_run run { s with
    offset := e + 4
    heap := s.heap.put y (.num (env.number (slice s.buf e 4))) } env hdir hpass htop e hdvd rfl
    (y.add 8)
  obtain ⟨new, hnew, hlen, hmem⟩ := deferPointer_room (o := e + 3 * env.word)
    (e := (.utf16, y.add 8)) (s := { s with
      offset := e + 4
      heap := s.heap.put y (.num (env.number (slice s.buf e 4))) }) hroom
  rw [translatedName_first hdir hpass hdvd hoff y (by omega) hfits,
    Run.bind_done ((hstring hin).trans hnew)]
  exact ⟨new, rfl, hlen, hmem⟩

/-- A translated name that lies in the buffer and in the array. -/
theorem translatedName_done (hin : e + 3 * env.word + 8 ≤ s.buf.length)
    (hfits : s.heap.Fits y 4) (hindex : s.heap.Fits (y.add 16) 4)
    (hflags : s.heap.Fits (y.add 20) 4)
    (hroom : env.number (slice s.buf (e + 2 * env.word) env.word) ≠ 0 →
      s.ptrs.length < MAX_DEFERRED_PTR) :
    ∃ new, (lsaTranslatedNameExCoder env run y).run s = .done () { s with
        offset := e + 3 * env.word + 8
        heap := ((s.heap.put y (.num (env.number (slice s.buf e 4)))).put (y.add 16)
          (.num (env.number (slice s.buf (e + 3 * env.word) 4)))).put (y.add 20)
          (.num (env.number (slice s.buf (e + 3 * env.word + 4) 4)))
        ptrs := s.ptrs ++ new }
      ∧ new.length =
        (if env.number (slice s.buf (e + 2 * env.word) env.word) ≠ 0 then 1 else 0)
      ∧ (env.number (slice s.buf (e + 2 * env.word) env.word) ≠ 0 →
        (.utf16, y.add 8) ∈ new) := by
  obtain ⟨new, hrun, hlen, hmem⟩ := @translatedName_string run s env hdir hpass e hdvd hoff y htop
    (by omega) hfits hroom
  have hword := four_dvd_word env
  have hfour : 4 ∣ e + 3 * env.word :=
    (Nat.dvd_add_right (hword.trans hdvd)).mpr (Dvd.dvd.mul_left hword 3)
  refine ⟨new, ?_, hlen, hmem⟩
  rw [hrun, twoNumbers_run hdir (by exact hpass) hfour rfl]
  dsimp only
  rw [if_neg (by omega), if_neg (not_not.mpr (Heap.fits_put.mpr hindex)), if_neg (by omega),
    if_pos (Heap.fits_put.mpr hflags)]

/-- A field of a translated name that is come to and does not lie in the array. -/
theorem translatedName_leaves (h : e + 4 ≤ s.buf.length ∧ ¬ s.heap.Fits y 4
    ∨ s.heap.Fits y 4 ∧ ¬ s.heap.Fits (y.add 16) 4 ∧ e + 3 * env.word + 4 ≤ s.buf.length
      ∧ (env.number (slice s.buf (e + 2 * env.word) env.word) ≠ 0 →
        s.ptrs.length < MAX_DEFERRED_PTR)) :
    (lsaTranslatedNameExCoder env run y).run s = .fault .write := by
  have hword := four_dvd_word env
  rcases h with ⟨hin, hno⟩ | ⟨hfits, hno, hin, hroom⟩
  · have hnumber := ndrUint32CoderAt_run hdir hpass (hword.trans hdvd) hoff y
    rw [if_neg (by omega), if_neg hno] at hnumber
    rw [lsaTranslatedNameExCoder, Run.bind_fault hnumber]
  · obtain ⟨new, hrun, -, -⟩ := @translatedName_string run s env hdir hpass e hdvd hoff y htop
      (by omega) hfits hroom
    have hfour : 4 ∣ e + 3 * env.word :=
      (Nat.dvd_add_right (hword.trans hdvd)).mpr (Dvd.dvd.mul_left hword 3)
    rw [hrun, twoNumbers_run hdir (by exact hpass) hfour rfl]
    dsimp only
    rw [if_neg (by omega), if_pos (by rw [Heap.fits_put]; exact hno)]

/-- A translated name that is cut off, or whose pointer has no room. -/
theorem translatedName_stops (h : s.buf.length < e + 4
    ∨ s.heap.Fits y 4 ∧ (s.buf.length < e + 3 * env.word + 4
      ∨ ¬ (env.number (slice s.buf (e + 2 * env.word) env.word) ≠ 0 →
        s.ptrs.length < MAX_DEFERRED_PTR)
      ∨ s.heap.Fits (y.add 16) 4 ∧ s.buf.length < e + 3 * env.word + 8)) :
    Stops ((lsaTranslatedNameExCoder env run y).run s) := by
  have hword := four_dvd_word env
  by_cases hfirst : s.buf.length < e + 4
  · have hnumber := ndrUint32CoderAt_run hdir hpass (hword.trans hdvd) hoff y
    rw [if_pos hfirst] at hnumber
    rw [lsaTranslatedNameExCoder, Run.bind_fail hnumber]
    trivial
  obtain ⟨hfits, h⟩ := h.resolve_left hfirst
  obtain ⟨hcut, hstring⟩ := @lsaRpcUnicodeStringCoder_run run { s with
    offset := e + 4
    heap := s.heap.put y (.num (env.number (slice s.buf e 4))) } env hdir hpass htop e hdvd rfl
    (y.add 8)
  by_cases hin : s.buf.length < e + 3 * env.word
  · rw [translatedName_first hdir hpass hdvd hoff y (by omega) hfits]
    exact (hcut hin).andThen _
  by_cases hroom : env.number (slice s.buf (e + 2 * env.word) env.word) ≠ 0 →
      s.ptrs.length < MAX_DEFERRED_PTR
  · obtain ⟨new, hrun, -, -⟩ := @translatedName_string run s env hdir hpass e hdvd hoff y htop
      (by omega) hfits hroom
    have hfour : 4 ∣ e + 3 * env.word :=
      (Nat.dvd_add_right (hword.trans hdvd)).mpr (Dvd.dvd.mul_left hword 3)
    rw [hrun, twoNumbers_run hdir (by exact hpass) hfour rfl]
    dsimp only
    rcases h with hshort | hfull | ⟨hindex, hshort⟩
    · rw [if_pos hshort]
      trivial
    · exact absurd hroom hfull
    · rw [if_neg (not_not.mpr (Heap.fits_put.mpr hindex)), if_pos hshort]
      split <;> trivial
  · rw [translatedName_first hdir hpass hdvd hoff y (by omega) hfits,
      Run.bind_fault ((hstring (by dsimp only; omega)).trans (deferPointer_full hroom))]
    exact nofun

end

end

section
variable (hkind : x.kind = .names)

include hkind

theorem names_points (i : Nat) : x.Points i ↔
    x.env.number (slice x.buf (x.offset i + 2 * x.env.word) x.env.word) ≠ 0 := by
  unfold Elements.Points
  rw [hkind]
  exact Iff.rfl

theorem names_room (hloop : x.Loop p h i s) : x.Room i ↔
    (x.env.number (slice x.buf (x.offset i + 2 * x.env.word) x.env.word) ≠ 0 →
      s.ptrs.length < MAX_DEFERRED_PTR) := by
  rw [Elements.Room, names_points hkind, hloop.ptrs]

theorem names_offset_succ (i : Nat) : x.offset (i + 1) = x.offset i + 3 * x.env.word + 8 := by
  rw [Elements.offset_succ, hkind, Nat.add_assoc]
  rfl

theorem names_elemSize : x.kind.elemSize = 24 := by
  rw [hkind]
  rfl

theorem names_leavesAt (i : Nat) : x.LeavesAt i ↔
    (x.size < i * 24 + 4 ∧ x.offset i + 4 ≤ x.buf.length
    ∨ i * 24 + 4 ≤ x.size ∧ x.size < (i + 1) * 24
      ∧ x.offset i + 3 * x.env.word + 4 ≤ x.buf.length ∧ x.Room i) := by
  unfold Elements.LeavesAt
  rw [hkind]
  exact Iff.rfl

theorem names_offset_eq (hloop : x.Loop p h i s) : s.offset = x.offset i :=
  hloop.offset_eq (by rw [hkind]; decide)

variable (hready : x.Ready p h)

include hready

theorem names_size : 8 ∣ x.size := hready.multiple.resolve_right (by rw [hkind]; decide)

theorem names_dvd_offset (i : Nat) : x.env.word ∣ x.offset i := by
  have halign := hready.dvd_offset (by rw [hkind]; decide) i
  rw [hkind] at halign
  exact halign

omit hkind in
/-- A field of four octets of an element lies in the array. -/
theorem names_fits (hloop : x.Loop p h i s) (off : Nat) :
    s.heap.Fits (p.add (i * 24 + off)) 4 ↔ i * 24 + off + 4 ≤ x.size := by
  rw [hloop.fits, hready.sized.fits]

theorem names_goesOn (hloop : x.Loop p h i s) (hgets : x.GetsOver i) :
    ∃ t, (lsaTranslatedNameExCoder x.env run (p.add (i * x.kind.elemSize))).run s = .done () t
      ∧ x.Loop p h (i + 1) t := by
  have helem := names_elemSize hkind
  obtain ⟨hin, hfit, hptr⟩ := hgets
  rw [names_offset_succ hkind] at hin
  rw [helem] at hfit ⊢
  have hfirst : s.heap.Fits (p.add (i * 24)) 4 := (names_fits hready hloop 0).mpr (by omega)
  have hindex : s.heap.Fits ((p.add (i * 24)).add 16) 4 := by
    rw [Addr.add_add, names_fits hready hloop 16]
    omega
  have hflags : s.heap.Fits ((p.add (i * 24)).add 20) 4 := by
    rw [Addr.add_add, names_fits hready hloop 20]
    omega
  obtain ⟨new, hrun, hlen, hmem⟩ := @translatedName_done run s x.env hready.direction hloop.pass
    (x.offset i) (names_dvd_offset hkind hready i) (names_offset_eq hkind hloop) (p.add (i * 24))
    hloop.topLevel (by rw [hloop.buf]; exact hin) hfirst hindex hflags
    (by rw [hloop.buf]; exact (names_room hkind hloop).mp hptr)
  rw [hloop.buf] at hlen hmem
  refine ⟨_, hrun, hloop.buf, ?_, hloop.pass, hloop.topLevel, ?_, fun a w => ?_, fun a n => ?_,
    fun a ha => ?_, fun j hj => ?_⟩
  · rw [if_neg (by rw [hkind]; decide), alignUp_one, names_offset_succ hkind]
  · rw [List.length_append, hloop.ptrs, hlen, Elements.pointers_succ]
    simp only [names_points hkind]
  · simp only [Heap.fits_put]
    exact hloop.fits a w
  · simp only [Heap.sized_put]
    exact hloop.sized a n
  · have hblock : a.block ≠ p.block := ha.resolve_right (by rw [hkind]; decide)
    have hne : ∀ n, a ≠ p.add n := fun n hsame => hblock (by rw [hsame]; rfl)
    simp only [Addr.add_add]
    rw [Heap.cell_put_ne (hne _), Heap.cell_put_ne (hne _), Heap.cell_put_ne (hne _)]
    exact hloop.cell a (.inl hblock)
  · by_cases hlast : j = i
    · subst hlast
      have hne : ∀ m n, m ≠ n → p.add (j * 24 + m) ≠ p.add (j * 24 + n) := by
        intro m n hmn hsame
        rw [Addr.add_inj] at hsame
        omega
      simp only [Elements.Decoded, hkind, TRANSLATED_NAME_EX_SIZE, hloop.buf]
      simp only [Addr.add_add] at hindex hflags hmem ⊢
      refine ⟨?_, ?_, ?_, fun hp =>
        List.mem_append_right _ (hmem ((names_points hkind j).mp hp))⟩
      · have hlast := hne 0 20 (by decide)
        have hthird := hne 0 16 (by decide)
        rw [Nat.add_zero] at hlast hthird
        rw [Heap.cell_put_ne hlast, Heap.cell_put_ne hthird]
        exact Heap.cell_put hfirst
      · rw [Heap.cell_put_ne (hne 16 20 (by decide))]
        exact Heap.cell_put (Heap.fits_put.mpr hindex)
      · exact Heap.cell_put (Heap.fits_put.mpr (Heap.fits_put.mpr hflags))
    · refine (hloop.decoded j (by omega)).mono (i := i) (by omega) (fun m hm => ?_)
        (fun a n => by simp only [Heap.sized_put]) fun e he => List.mem_append_left _ he
      rw [helem] at hm
      have hne : ∀ n, p.add m ≠ p.add (i * 24 + n) := by
        intro n hsame
        rw [Addr.add_inj] at hsame
        omega
      simp only [Addr.add_add]
      rw [Heap.cell_put_ne (hne 20), Heap.cell_put_ne (hne 16)]
      exact Heap.cell_put_ne (hne 0)

theorem names_leaves (hloop : x.Loop p h i s) (hleave : x.LeavesAt i) :
    (lsaTranslatedNameExCoder x.env run (p.add (i * x.kind.elemSize))).run s = .fault .write := by
  have hsize := names_size hkind hready
  have hfirst := names_fits hready hloop 0
  rw [names_elemSize hkind]
  refine translatedName_leaves hready.direction hloop.pass (names_dvd_offset hkind hready i)
    (names_offset_eq hkind hloop) _ hloop.topLevel ?_
  rw [Addr.add_add, names_fits hready hloop 16, hloop.buf]
  rcases (names_leavesAt hkind i).mp hleave with ⟨hout, hin⟩ | ⟨hfit, hout, hin, hptr⟩
  · refine .inl ⟨hin, fun hfit => ?_⟩
    have hinside := hfirst.mp hfit
    omega
  · refine .inr ⟨hfirst.mpr (by omega), by omega, hin, (names_room hkind hloop).mp hptr⟩

theorem names_stops (hloop : x.Loop p h i s) (hno : ¬ x.GetsOver i) (hstay : ¬ x.LeavesAt i) :
    Stops ((lsaTranslatedNameExCoder x.env run (p.add (i * x.kind.elemSize))).run s) := by
  have hsize := names_size hkind hready
  rw [names_elemSize hkind]
  refine translatedName_stops hready.direction hloop.pass (names_dvd_offset hkind hready i)
    (names_offset_eq hkind hloop) _ hloop.topLevel ?_
  rw [Addr.add_add, names_fits hready hloop 16, hloop.buf, ← names_room hkind hloop]
  rw [names_leavesAt hkind] at hstay
  by_cases hfirst : x.buf.length < x.offset i + 4
  · exact .inl hfirst
  refine .inr ⟨(names_fits hready hloop 0).mpr (by omega), ?_⟩
  by_cases hin : x.buf.length < x.offset i + 3 * x.env.word + 4
  · exact .inl hin
  by_cases hptr : x.Room i
  · have hfit : ¬ x.size < (i + 1) * 24 := fun hout =>
      hstay (.inr ⟨by omega, hout, by omega, hptr⟩)
    refine .inr (.inr ⟨by omega, ?_⟩)
    by_contra hend
    refine hno ⟨?_, ?_, hptr⟩
    · rw [names_offset_succ hkind]
      omega
    · rw [names_elemSize hkind]
      omega
  · exact .inr (.inl hptr)

end

theorem names_steps (hready : x.Ready p h) (hkind : x.kind = .names) :
    x.Steps p h (lsaTranslatedNameExCoder x.env run) where
  goesOn _ _ hloop := names_goesOn hkind hready hloop
  leaves _ _ hloop := names_leaves hkind hready hloop
  stops _ _ hloop := names_stops hkind hready hloop

/-! ### All of them -/

/-- An element that is come to does not lie in the array. -/
def Elements.Leaves (x : Elements) (n : Nat) : Prop :=
  ∃ i < n, (∀ j < i, x.GetsOver j) ∧ x.LeavesAt i

/-- A loop over elements gets over all of them, or leaves the array, or stops. -/
theorem Elements.Steps.loop {coder : Addr → Ndr Lsa Unit} (hsteps : x.Steps p h coder)
    (hloop : x.Loop p h 0 s) (n : Nat) :
    ((∀ i < n, x.GetsOver i) →
      ∃ t, (elements x.kind.elemSize coder n p).run s = .done () t ∧ x.Loop p h n t)
    ∧ (x.Leaves n → (elements x.kind.elemSize coder n p).run s = .fault .write)
    ∧ ((¬ ∀ i < n, x.GetsOver i) → ¬ x.Leaves n →
      Stops ((elements x.kind.elemSize coder n p).run s)) := by
  have hstart : p = p.add (0 * x.kind.elemSize) := by rw [Nat.zero_mul, Addr.add_zero]
  rw [hstart]
  refine ⟨fun hall => ?_, ?_, fun hsome hstay => ?_⟩
  · obtain ⟨t, ht, hinv⟩ := elements_done (n := n) hsteps.goesOn hloop
      fun j _ hj => hall j (by omega)
    rw [Nat.zero_add] at hinv
    rw [← hstart] at ht ⊢
    exact ⟨t, ht, hinv⟩
  · rintro ⟨i, hi, hbefore, hleaves⟩
    obtain ⟨t, rest, hinv, ht⟩ := elements_stops (n := n) hsteps.goesOn hloop (Nat.zero_le i)
      (by omega) fun j _ hj => hbefore j hj
    rw [ht, hsteps.leaves i t hinv hleaves, Run.andThen_fault]
  · classical
    push Not at hsome
    obtain ⟨i, ⟨hi, hno⟩, hleast⟩ := Nat.findX hsome
    have hbefore : ∀ j < i, x.GetsOver j := by
      intro j hj
      by_contra hover
      exact hleast j hj ⟨by omega, hover⟩
    obtain ⟨t, rest, hinv, ht⟩ := elements_stops (n := n) hsteps.goesOn hloop (Nat.zero_le i)
      (by omega) fun j _ hj => hbefore j hj
    rw [ht]
    exact (hsteps.stops i t hinv hno fun hleaves => hstay ⟨i, hi, hbefore, hleaves⟩).andThen rest

end

end Libsmb2.Dcerpc
