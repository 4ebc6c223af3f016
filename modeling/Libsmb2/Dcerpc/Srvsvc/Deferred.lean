import Libsmb2.Dcerpc.Deferred
import Libsmb2.Dcerpc.Srvsvc

/-!
# The pointers of a reply

How many pointers the replies of the server service defer: the container of the shares, the array
in it, and the strings of every share, as far as they lie in the buffer.

* `fieldsCoder_defers` — the pointers in one share;
* `shares_defers` — those in an array of shares;
* `container_do` — the pointer to the array.
-/

set_option autoImplicit false

namespace Libsmb2.Dcerpc

open Util

/-! ## One share -/

def scanField (env : Env) (buf : Bytes) : Field → Nat → Scan
  | .string _ => scanPtr env buf
  | .dword _ => scanNumber 4 buf

/-- The members of a share. -/
def scanFields (env : Env) (buf : Bytes) : List Field → Nat → Scan
  | [], o => ⟨0, some o⟩
  | f :: fs, o => (scanField env buf f o).andThen (scanFields env buf fs)

/-- The strings that are deferred in a share. -/
def IsString (e : Srvsvc × Addr) : Prop := e.1 = .utf16z

/-- The alignments that are asked for in a first pass. -/
def Aligned (env : Env) (m : Nat) : Prop := m = 1 ∨ m = 4 ∨ m = env.word

theorem Aligned.max {env : Env} {m n : Nat} (hm : Aligned env m) (hn : Aligned env n) :
    Aligned env (max m n) := by
  rcases Nat.le_total m n with h | h
  · rwa [Nat.max_eq_right h]
  · rwa [Nat.max_eq_left h]

theorem Aligned.dvd {env : Env} {m : Nat} (hm : Aligned env m) : m ∣ env.word := by
  rcases hm with rfl | rfl | rfl
  · exact Nat.one_dvd _
  · unfold Env.word
    split <;> decide
  · exact Nat.dvd_refl _

section

variable {env : Env} {s : State Srvsvc} {a : Addr}

section

variable (hdir : env.direction = .decode) (run : SrvsvcRun)

include hdir

theorem fieldsCoder_defers (hrun : s.isConformanceRun = false) (htop : s.topLevel = false)
    {fs : List Field} (hfits : ∀ f ∈ fs, s.heap.Fits (a.add f.off) 4) :
    Defers IsString (fieldsCoder env run a fs) s (scanFields env s.buf fs s.offset) := by
  induction fs generalizing s with
  | nil => exact .pure ()
  | cons f fs ih =>
    have hfirst : Defers IsString (fieldCoder env run a f) s (scanField env s.buf f s.offset) := by
      cases f with
      | string off => exact ndrPtrCoder_defers hdir hrun htop run rfl
      | dword off => exact ndrUintCoderAt_defers hdir hrun (hfits _ (List.mem_cons_self ..))
    apply hfirst.bind
    intro _ t halike _
    rw [← halike.buf]
    apply ih (halike.isConformanceRun.trans hrun) (halike.topLevel.trans htop)
    intro f hf
    exact halike.fits _ _ (hfits f (List.mem_cons_of_mem _ hf))

/-- The first pass over a pointer below the top level. -/
theorem ndrPtrCoder_survey (hrun : s.isConformanceRun = true) (p : Option Addr) (k : Srvsvc) :
    (ndrPtrCoder env run p .unique k).run s
      = .done () { s with maxAlignment := max s.maxAlignment env.word } := by
  rw [ndrPtrCoder, hdir]
  dsimp only
  rw [ndrDecodePtr, Run.get_bind, if_pos hrun, if_neg (by simp)]
  rfl

omit hdir in
theorem ndrUintCoderAt_survey (hrun : s.isConformanceRun = true) (w : Nat) (a : Addr) :
    (ndrUintCoderAt env w a).run s
      = .done () { s with maxAlignment := max s.maxAlignment w } := by
  rw [ndrUintCoderAt, Run.get_bind, if_pos hrun]
  rfl

/-- The first pass over the members of a share asks for alignments only. -/
theorem fieldsCoder_survey (hrun : s.isConformanceRun = true)
    (halign : Aligned env s.maxAlignment) (fs : List Field) (a : Addr) :
    ∃ m, Aligned env m ∧ (fieldsCoder env run a fs).run s = .done () { s with maxAlignment := m } := by
  induction fs generalizing s with
  | nil => exact ⟨_, halign, rfl⟩
  | cons f fs ih =>
    rw [fieldsCoder]
    cases f with
    | string off =>
      obtain ⟨m, hm, hdone⟩ := ih (s := { s with maxAlignment := max s.maxAlignment env.word })
        hrun (halign.max (.inr (.inr rfl)))
      refine ⟨m, hm, ?_⟩
      rw [fieldCoder, Run.bind_done (ndrPtrCoder_survey hdir run hrun _ _), hdone]
    | dword off =>
      obtain ⟨m, hm, hdone⟩ := ih (s := { s with maxAlignment := max s.maxAlignment 4 })
        hrun (halign.max (.inr (.inl rfl)))
      refine ⟨m, hm, ?_⟩
      rw [fieldCoder, ndrUint32CoderAt, Run.bind_done (ndrUintCoderAt_survey hrun _ _), hdone]

theorem elements_survey (hrun : s.isConformanceRun = true)
    (halign : Aligned env s.maxAlignment) (fs : List Field) (elemSize n : Nat) (a : Addr) :
    ∃ m, Aligned env m ∧ (elements elemSize (fun a => fieldsCoder env run a fs) n a).run s
      = .done () { s with maxAlignment := m } := by
  induction n generalizing s a with
  | zero => exact ⟨_, halign, rfl⟩
  | succ n ih =>
    obtain ⟨m, hm, hdone⟩ := fieldsCoder_survey hdir run hrun halign fs a
    obtain ⟨m', hm', hdone'⟩ := ih (s := { s with maxAlignment := m }) hrun hm
      (a.add elemSize)
    exact ⟨m', hm', by rw [elements, Run.bind_done hdone, hdone']⟩

/-! ## An array of shares -/

omit hdir in
theorem scanPtr_le {buf : Bytes} {o o' : Nat} (h : (scanPtr env buf o).next = some o') :
    o + 4 ≤ o' := by
  have hle := le_alignUp (word_pos env) o
  have hword : 4 ≤ env.word := by
    unfold Env.word
    split <;> decide
  rw [scanPtr] at h
  split at h
  · cases h
  · have heq : alignUp env.word o + env.word = o' := by simpa using h
    omega

omit hdir in
theorem scanFields_le {buf : Bytes} {fs : List Field} {o o' : Nat}
    (h : (scanFields env buf fs o).next = some o') : o ≤ o' := by
  induction fs generalizing o with
  | nil =>
    cases h
    exact Nat.le_refl _
  | cons f fs ih =>
    rw [scanFields, Scan.andThen] at h
    cases hnext : (scanField env buf f o).next with
    | none =>
      rw [hnext] at h
      dsimp only at h
      rw [hnext] at h
      cases h
    | some p =>
      rw [hnext] at h
      have hrest := ih h
      have hfirst : o ≤ p := by
        cases f with
        | string off => exact (Nat.le_add_right _ _).trans (scanPtr_le hnext)
        | dword off =>
          have hle := le_alignUp (w := 4) (by decide) o
          rw [scanField, scanNumber] at hnext
          split at hnext
          · cases hnext
          · have heq : alignUp 4 o + 4 = p := by simpa using hnext
            omega
      omega

omit hdir in
/-- A share with a name takes four octets or more. -/
theorem scanFields_step {buf : Bytes} {off : Nat} {fs : List Field} {o o' : Nat}
    (h : (scanFields env buf (.string off :: fs) o).next = some o') : o + 4 ≤ o' := by
  rw [scanFields, Scan.andThen] at h
  cases hnext : (scanField env buf (.string off) o).next with
  | none =>
    rw [hnext] at h
    dsimp only at h
    rw [hnext] at h
    cases h
  | some p =>
    rw [hnext] at h
    exact (scanPtr_le hnext).trans (scanFields_le h)

/-- A share with a name, whose memory need not be there if the buffer has ended. -/
theorem share_defers (hrun : s.isConformanceRun = false) (htop : s.topLevel = false) {off : Nat}
    {fs : List Field}
    (hfits : s.offset < s.buf.length → ∀ f ∈ Field.string off :: fs, s.heap.Fits (a.add f.off) 4) :
    Defers IsString (fieldsCoder env run a (.string off :: fs)) s
      (scanFields env s.buf (.string off :: fs) s.offset) := by
  by_cases hin : s.offset < s.buf.length
  · exact fieldsCoder_defers hdir run hrun htop (hfits hin)
  · have hname : Defers IsString (fieldCoder env run a (.string off)) s
        (scanPtr env s.buf s.offset) := ndrPtrCoder_defers hdir hrun htop run rfl
    apply hname.bind
    intro _ t _ hnext
    have hle := le_alignUp (word_pos env) s.offset
    have hpos := word_pos env
    rw [scanPtr, if_pos (by omega)] at hnext
    cases hnext

/-- The shares behind their number. -/
def scanShares (env : Env) (buf : Bytes) (count : Nat) (fs : List Field) (o : Nat) : Scan :=
  if buf.length < alignUp env.word o + env.word then ⟨0, none⟩
  else if env.number (slice buf (alignUp env.word o) env.word) ≠ count then ⟨0, none⟩
  else scanElements (scanFields env buf fs) count (alignUp env.word o + env.word)

theorem shares_defers (hrun : s.isConformanceRun = false) (htop : s.topLevel = false) {off : Nat}
    {fs : List Field} {elemSize : Nat} (hsize : ∀ f ∈ Field.string off :: fs, f.off + 4 ≤ elemSize)
    (hfits : ∀ i < toUint64 s.sizeIs, 4 * i < s.buf.length →
      s.heap.Fits (a.add (i * elemSize)) elemSize) :
    Defers IsString (ndrDoCoder (sharesCoder env elemSize
        (fun a => fieldsCoder env run a (.string off :: fs)) a)) s
      (scanShares env s.buf (toUint64 s.sizeIs) (.string off :: fs) s.offset) := by
  have hpos := word_pos env
  have hle := le_alignUp hpos s.offset
  rw [scanShares]
  by_cases hlen : s.buf.length < alignUp env.word s.offset + env.word
  · rw [if_pos hlen]
    refine ⟨fun _ => ⟨{ s with
      offset := alignUp env.word s.offset
      maxAlignment := 1
      isConformanceRun := true }, ?_⟩, fun h => absurd rfl h⟩
    rw [ndrDoCoder_run, sharesCoder, Run.get_bind, ndrCarrayCoder, Run.run_bind,
      ndrConformanceCoder, Run.get_bind, if_neg (by simp), hdir]
    dsimp only
    rw [dcerpcGet_run, if_pos hlen]
    rfl
  rw [if_neg hlen]
  have hcount : ∀ coder : Addr → Ndr Srvsvc Unit,
      (sharesCoder env elemSize coder a).run
        { s with maxAlignment := 1, isConformanceRun := true }
      = (if env.number (slice s.buf (alignUp env.word s.offset) env.word) ≠ toUint64 s.sizeIs then
          Run.fail
        else elements elemSize coder
          (env.number (slice s.buf (alignUp env.word s.offset) env.word)) a).run { s with
            offset := alignUp env.word s.offset + env.word
            maxAlignment := 1
            isConformanceRun := true } := by
    intro coder
    rw [sharesCoder, Run.get_bind, ndrCarrayCoder, Run.run_bind, ndrConformanceCoder, Run.get_bind,
      if_neg (by simp), hdir]
    dsimp only
    rw [dcerpcGet_run, if_neg hlen, Run.andThen_done]
  by_cases hne : env.number (slice s.buf (alignUp env.word s.offset) env.word) ≠ toUint64 s.sizeIs
  · rw [if_pos hne]
    refine ⟨fun _ => ⟨{ s with
      offset := alignUp env.word s.offset + env.word
      maxAlignment := 1
      isConformanceRun := true }, ?_⟩, fun h => absurd rfl h⟩
    rw [ndrDoCoder_run, hcount, if_pos hne]
    rfl
  rw [if_neg hne]
  rw [not_not] at hne
  obtain ⟨m, hm, hsurvey⟩ := elements_survey (s := { s with
    offset := alignUp env.word s.offset + env.word
    maxAlignment := 1
    isConformanceRun := true }) hdir run rfl (.inl rfl) (.string off :: fs) elemSize
    (toUint64 s.sizeIs) a
  have hmdvd : m ∣ alignUp env.word s.offset + env.word :=
    hm.dvd.trans ((Nat.dvd_add_left (Nat.dvd_refl _)).mpr (dvd_alignUp _ _))
  have hmpos : 0 < m := Nat.pos_of_dvd_of_pos hm.dvd hpos
  apply ndrDoCoder_defers (t := { s with
    offset := alignUp env.word s.offset + env.word
    maxAlignment := m
    isConformanceRun := true })
  · rw [hcount, if_neg (by simpa using hne), hne, hsurvey]
  · exact ⟨rfl, rfl, rfl, hrun.symm, fun _ _ h => h⟩
  · rfl
  dsimp only
  rw [alignUp_of_dvd hmpos hmdvd]
  -- the second pass takes the number of elements for granted
  have hsecond : ∀ coder : Addr → Ndr Srvsvc Unit, (sharesCoder env elemSize coder a).run { s with
        offset := alignUp env.word s.offset + env.word
        maxAlignment := m
        isConformanceRun := false }
      = (elements elemSize coder (toUint64 s.sizeIs) a).run { s with
        offset := alignUp env.word s.offset + env.word
        maxAlignment := m
        isConformanceRun := false } := by
    intro coder
    rw [sharesCoder, Run.get_bind, ndrCarrayCoder, Run.run_bind, ndrConformanceCoder, Run.get_bind,
      if_pos (by simp), Run.run_pure, Run.andThen_done, if_neg (by simp)]
  refine Defers.of_run (hsecond _) (.refl _) rfl ?_
  apply elements_defers (I := fun t => t.isConformanceRun = false ∧ t.topLevel = false
    ∧ t.buf = s.buf)
  · rintro r t ⟨hr, hrtop, hrbuf⟩ halike
    exact ⟨halike.isConformanceRun.trans hr, halike.topLevel.trans hrtop, halike.buf.trans hrbuf⟩
  · intro o o' h
    exact scanFields_step h
  · rintro b t ⟨ht, httop, htbuf⟩ hin
    rw [← htbuf]
    apply share_defers hdir run ht httop
    intro hlt f hf
    exact (hin hlt).add (hsize f hf)
  · exact ⟨rfl, htop, rfl⟩
  · intro i hi hin
    exact hfits i hi (by dsimp only at hin; omega)

/-- One share that a pointer at the top level names. -/
theorem shareStruct_defers (hrun : s.isConformanceRun = false) (htop : s.topLevel = false)
    (hdvd : env.word ∣ s.offset) {fs : List Field}
    (hfits : ∀ f ∈ fs, s.heap.Fits (a.add f.off) 4) :
    Defers IsString (ndrDoCoder (fieldsCoder env run a fs)) s
      (scanFields env s.buf fs s.offset) := by
  obtain ⟨m, hm, hsurvey⟩ := fieldsCoder_survey (s := { s with
    maxAlignment := 1
    isConformanceRun := true }) hdir run rfl (.inl rfl) fs a
  apply ndrDoCoder_defers hsurvey
  · exact ⟨rfl, rfl, rfl, hrun.symm, fun _ _ h => h⟩
  · rfl
  dsimp only
  rw [alignUp_of_dvd (Nat.pos_of_dvd_of_pos hm.dvd (word_pos env)) (hm.dvd.trans hdvd)]
  apply fieldsCoder_defers hdir run
  · rfl
  · exact htop
  · exact hfits

/-! ## The container -/

/-- A container at the offset has entries. -/
def HasEntries (env : Env) (buf : Bytes) (o : Nat) : Prop :=
  alignUp env.word (o + 4) + env.word ≤ buf.length
    ∧ env.number (slice buf o 4) ≠ 0
    ∧ env.number (slice buf (alignUp env.word (o + 4)) env.word) ≠ 0

instance (env : Env) (buf : Bytes) (o : Nat) : Decidable (HasEntries env buf o) :=
  inferInstanceAs (Decidable (_ ∧ _))

omit hdir in
theorem setSizeIs_run (v : Nat) : (setSizeIs v).run s
    = .done () (if v ≠ 0 then { s with sizeIs := toInt32 v } else s) :=
  rfl

/-- Memory for the entries, where there is none. -/
theorem allocEntries_run {v elemSize : Nat} (hv : v ≠ 0) (hmax : v * elemSize ≤ 2 ^ 40)
    (hfits : s.heap.Fits a 8) (hnull : s.heap.cell a = .num 0) :
    (allocEntries env v elemSize a).run s = .done () { s with
      heap := (s.heap ++ [Block.fresh (v * elemSize)]).put a (.ref ⟨s.heap.length, 0⟩) } := by
  have halloc : Allocates (v * elemSize) := by
    rw [Allocates]
    omega
  have hdata : (smb2AllocData (v * elemSize)).run s = .done (some ⟨s.heap.length, 0⟩)
      { s with heap := s.heap ++ [Block.fresh (v * elemSize)] } := by
    rw [smb2AllocData]
    dsimp only
    rw [if_neg (by omega), if_pos halloc]
  rw [allocEntries, if_pos ⟨hdir, hv⟩, Run.run_bind, load_run, if_pos (hfits.mono (by decide)),
    Run.andThen_done, hnull, if_pos (by rfl), Run.bind_done hdata]
  dsimp only
  rw [store_run, if_pos (hfits.append _)]

section

variable {elemSize : Nat} {carray : Srvsvc} (hfits : s.heap.Fits a 16)
  (hcount : s.heap.cell a = .num 0) (hnull : s.heap.cell (a.add 8) = .num 0)

include hfits hcount hnull

/-- The first pass over a container finds no entries in memory that is fresh. -/
theorem container_survey (hrun : s.isConformanceRun = true) :
    (containerCoder env run elemSize carray a).run s
      = .done () { s with maxAlignment := max (max s.maxAlignment 4) env.word } := by
  have hptr : s.heap.Fits (a.add 8) 1 := hfits.add (by decide)
  rw [containerCoder, ndrUint32CoderAt, Run.bind_done (ndrUintCoderAt_survey hrun 4 a),
    Run.run_bind, load_run, if_pos (hfits.mono (by decide)), Run.andThen_done, hcount]
  dsimp only [Cell.toNat]
  rw [setSizeIs, Run.modify_bind, if_neg (by simp), allocEntries, if_neg (by simp), Run.pure_bind',
    Run.run_bind, load_run, if_pos hptr, Run.andThen_done, hnull]
  exact ndrPtrCoder_survey (s := { s with maxAlignment := max s.maxAlignment 4 }) hdir run hrun _ _

omit hcount in
/-- The second pass over a container, up to the pointer to its entries. -/
theorem container_entries (hrun : s.isConformanceRun = false) (hdvd : 4 ∣ s.offset)
    (hsize : elemSize ≤ 56) :
    (s.buf.length < s.offset + 4 →
      ∃ t, (containerCoder env run elemSize carray a).run s = .fail t)
    ∧ (s.offset + 4 ≤ s.buf.length → env.number (slice s.buf s.offset 4) = 0 →
      ∃ h : Heap, (containerCoder env run elemSize carray a).run s
        = (ndrPtrCoder env run none .unique carray).run { s with
            offset := s.offset + 4
            heap := h })
    ∧ (s.offset + 4 ≤ s.buf.length → env.number (slice s.buf s.offset 4) ≠ 0 →
      ∃ (b : Addr) (h : Heap), h.Fits b (env.number (slice s.buf s.offset 4) * elemSize) ∧
        (containerCoder env run elemSize carray a).run s
          = (ndrPtrCoder env run (some b) .unique carray).run { s with
              offset := s.offset + 4
              heap := h
              sizeIs := toInt32 (env.number (slice s.buf s.offset 4)) }) := by
  have hnum : s.heap.Fits a 4 := hfits.mono (by decide)
  have hptr : s.heap.Fits (a.add 8) 8 := hfits.add (by decide)
  have hne : a.add 8 ≠ a := Addr.add_ne (by decide)
  rw [containerCoder, ndrUint32CoderAt, Run.run_bind, ndrUintCoderAt, Run.get_bind,
    if_neg (by simp [hrun]), hdir]
  dsimp only
  rw [Run.run_bind, dcerpcGet_run, alignUp_of_dvd (by decide) hdvd]
  by_cases hlen : s.buf.length < s.offset + 4
  · rw [if_pos hlen]
    exact ⟨fun _ => ⟨_, rfl⟩, fun h => absurd h (by omega), fun h => absurd h (by omega)⟩
  have hvlt : env.number (slice s.buf s.offset 4) < 4294967296 := number_slice_lt _ _ _
  rw [if_neg hlen]
  generalize env.number (slice s.buf s.offset 4) = v at hvlt ⊢
  have hcell : (s.heap.put a (.num v)).cell (a.add 8) = .num 0 := by
    rw [Heap.cell_put_ne hne, hnull]
  rw [Run.andThen_done, store_run, if_pos hnum, Run.andThen_done, Run.run_bind,
    load_run, if_pos (Heap.fits_put.mpr (hnum.mono (by decide))), Run.andThen_done]
  dsimp only
  rw [Heap.cell_put hnum, Cell.toNat, Run.run_bind, setSizeIs_run, Run.andThen_done]
  refine ⟨fun h => absurd h hlen, fun _ hzero => ?_, fun _ hv => ?_⟩
  · subst hzero
    refine ⟨s.heap.put a (.num 0), ?_⟩
    rw [if_neg (by decide), allocEntries, if_neg (by simp), Run.pure_bind', Run.run_bind, load_run,
      if_pos (Heap.fits_put.mpr (hptr.mono (by decide))), Run.andThen_done, hcell]
    rfl
  · have hmul : v * elemSize ≤ 4294967296 * 56 := Nat.mul_le_mul (Nat.le_of_lt hvlt) hsize
    -- the array is the next block
    have hentries := @allocEntries_run env { s with
      offset := s.offset + 4
      heap := s.heap.put a (.num v)
      sizeIs := toInt32 v } _ hdir v elemSize hv (by omega) (Heap.fits_put.mpr hptr) hcell
    generalize hheap : s.heap.put a (.num v) = h at hentries hcell ⊢
    have hfits' : (h ++ [Block.fresh (v * elemSize)]).Fits (a.add 8) 8 := by
      rw [← hheap]
      exact (Heap.fits_put.mpr hptr).append _
    refine ⟨⟨h.length, 0⟩, (h ++ [Block.fresh (v * elemSize)]).put (a.add 8) (.ref ⟨h.length, 0⟩),
      Heap.fits_put.mpr (Heap.fits_fresh h _), ?_⟩
    rw [if_pos hv, Run.bind_done hentries, Run.run_bind, load_run,
      if_pos (Heap.fits_put.mpr (hfits'.mono (by decide))), Run.andThen_done, Heap.cell_put hfits',
      Cell.toRef]

/-- What is done for a container that is deferred. -/
theorem container_do (hrun : s.isConformanceRun = false) (htop : s.topLevel = false)
    (hdvd : env.word ∣ s.offset) (hsize : elemSize ≤ 56) :
    let coder := containerCoder env run elemSize carray a
    let ref := alignUp env.word (s.offset + 4)
    (¬ HasEntries env s.buf s.offset → Settled s ((ndrDoCoder coder).run s))
    ∧ (HasEntries env s.buf s.offset → MAX_DEFERRED_PTR ≤ s.ptrs.length →
      (ndrDoCoder coder).run s = .fault .deferred)
    ∧ (HasEntries env s.buf s.offset → s.ptrs.length < MAX_DEFERRED_PTR → ∃ (b : Addr) (h : Heap),
      h.Fits b (env.number (slice s.buf s.offset 4) * elemSize) ∧
        (ndrDoCoder coder).run s = .done () { s with
          offset := ref + env.word
          maxAlignment := env.word
          heap := h
          ptrs := s.ptrs ++ [(carray, b)]
          sizeIs := toInt32 (env.number (slice s.buf s.offset 4)) }) := by
  intro coder ref
  have hword : 4 ≤ env.word ∧ 4 ∣ env.word := by
    unfold Env.word
    split
    · decide
    · decide
  have hle : s.offset + 4 ≤ ref := le_alignUp (word_pos env) _
  have hmax : max (max 1 4) env.word = env.word := by
    rw [Nat.max_def, Nat.max_def]
    simp [hword.1]
  have hdo : (ndrDoCoder coder).run s = coder.run { s with maxAlignment := env.word } := by
    rw [ndrDoCoder_run, container_survey hdir run (s := { s with
      maxAlignment := 1
      isConformanceRun := true }) hfits hcount hnull rfl, Run.andThen_done]
    dsimp only
    rw [hmax, alignUp_of_dvd (word_pos env) hdvd, ← hrun]
  rw [hdo]
  obtain ⟨hshort, hnone, hsome⟩ := @container_entries env { s with maxAlignment := env.word } a
    hdir run elemSize carray hfits hnull hrun (hword.2.trans hdvd) hsize
  dsimp only at hshort hnone hsome
  by_cases hlen : s.buf.length < s.offset + 4
  · have hno : ¬ HasEntries env s.buf s.offset := fun h => absurd h.1 (by omega)
    refine ⟨fun _ => ?_, fun h => absurd h hno, fun h => absurd h hno⟩
    obtain ⟨t, ht⟩ := hshort hlen
    rw [ht]
    trivial
  by_cases hzero : env.number (slice s.buf s.offset 4) = 0
  · have hno : ¬ HasEntries env s.buf s.offset := fun h => h.2.1 hzero
    refine ⟨fun _ => ?_, fun h => absurd h hno, fun h => absurd h hno⟩
    obtain ⟨h, hptr⟩ := hnone (by omega) hzero
    rw [hptr, ndrDecodePtr_null hdir]
    · dsimp only
      split
      · trivial
      · rfl
    · exact hrun
  · obtain ⟨b, h, hb, hptr⟩ := hsome (by omega) hzero
    have hpointer : HasEntries env s.buf s.offset ↔ ref + env.word ≤ s.buf.length
        ∧ env.number (slice s.buf ref env.word) ≠ 0 :=
      and_congr_right fun _ => and_iff_right hzero
    rw [hptr, ndrDecodePtr_run hdir]
    rotate_left
    · exact hrun
    · exact htop
    dsimp only
    by_cases hout : s.buf.length < ref + env.word
    · have hno : ¬ HasEntries env s.buf s.offset := fun h => absurd h.1 (by omega)
      rw [if_pos hout]
      exact ⟨fun _ => trivial, fun h => absurd h hno, fun h => absurd h hno⟩
    rw [if_neg hout]
    by_cases href : env.number (slice s.buf ref env.word) = 0
    · have hno : ¬ HasEntries env s.buf s.offset := fun h => h.2.2 href
      rw [if_pos href]
      exact ⟨fun _ => rfl, fun h => absurd h hno, fun h => absurd h hno⟩
    rw [if_neg href]
    have hyes := hpointer.mpr ⟨by omega, href⟩
    refine ⟨fun h => absurd hyes h, fun _ hfull => if_pos hfull, fun _ hroom => ⟨b, h, hb, ?_⟩⟩
    rw [if_neg (by omega)]

end

end

end

end Libsmb2.Dcerpc
