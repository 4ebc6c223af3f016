import Libsmb2.Dcerpc.Lsa.Elements

/-!
# Arrays with two counts

The sub-authorities of a SID, the SIDs and the translated names: how many elements are decoded is
said by the count in front of them, and how many there are for the caller by a field of their
structure, which is never compared with it.

* `coder_first` — what the first pass leaves, which is no more than an array that is not used;
* `arrays_match_counts_iff` — when an array that is decoded has as many elements as its field says.
-/

set_option autoImplicit false

namespace Libsmb2.Dcerpc

open Util

/-! ## The first pass -/

section
variable {env : Env} {s : State Lsa} {a : Addr} {k : LsaArray} {entries : Nat}

/-- The structure of an array with this value of its field, below the top level. -/
structure Stands (k : LsaArray) (a : Addr) (entries : Nat) (s : State Lsa) : Prop where
  topLevel : s.topLevel = false
  fits : s.heap.Fits a 16
  field : s.heap.cell (k.field a) = .num entries
  limit : entries < k.limit

/-- The field is read. -/
theorem Stands.load (h : Stands k a entries s) :
    (load (k.field a)).run s = .done (.num entries) s := by
  have hfits : s.heap.Fits (k.field a) 1 := by
    cases k with
    | subAuthorities => exact h.fits.add (by decide)
    | sids => exact h.fits.mono (by decide)
    | names => exact h.fits.mono (by decide)
  rw [load_run, if_pos hfits, h.field]

theorem ndrUintCoder_first (hpass : s.isConformanceRun = true) (w value : Nat) :
    (ndrUintCoder env w value).run s =
      .done value { s with maxAlignment := max s.maxAlignment w } := by
  rw [ndrUintCoder, Run.get_bind, if_pos hpass]
  rfl

theorem ndrUintCoderAt_first (hpass : s.isConformanceRun = true) (w : Nat) (a : Addr) :
    (ndrUintCoderAt env w a).run s = .done () { s with maxAlignment := max s.maxAlignment w } := by
  rw [ndrUintCoderAt, Run.get_bind, if_pos hpass]
  rfl

/-- A loop whose steps all end. -/
theorem elements_all {coder : Addr → Ndr Lsa Unit} {size : Nat} {I : Nat → State Lsa → Prop}
    (hstep : ∀ i t b, I i t → ∃ t', (coder b).run t = .done () t' ∧ I (i + 1) t') {n : Nat}
    (h : I 0 s) (p : Addr) : ∃ t, (elements size coder n p).run s = .done () t ∧ I n t := by
  have hrun := @elements_done Lsa coder size p I (fun _ => True)
    (fun i t hinv _ => hstep i t _ hinv) n 0 s h fun _ _ _ => trivial
  rw [Nat.zero_mul, Addr.add_zero, Nat.zero_add] at hrun
  exact hrun

/-- The elements of an array that has been allocated. -/
theorem arrayElements_run {coder : Addr → Ndr Lsa Unit} {size : Nat} {p : Addr}
    (hfits : s.heap.Fits a 8) (hcell : s.heap.cell a = .ref p) (n : Nat) :
    (arrayElements size coder n a).run s = (elements size coder n p).run s := by
  cases n with
  | zero => rfl
  | succ n =>
    rw [arrayElements, Run.run_bind, load_run, if_pos (hfits.mono (by decide)), Run.andThen_done,
      hcell]
    rfl

variable (hdir : env.direction = .decode) (hpass : s.isConformanceRun = true)
  (hmax : s.maxAlignment = 1)

include hdir hpass hmax

/-- The first pass over a SID. -/
theorem rpcSid_first (h : Stands .subAuthorities a entries s) :
    (lsaRpcSidCoder env a).run s = .done () { s with
      maxAlignment := env.word
      heap := s.heap.withArray (a.add 8) (entries * 4) } := by
  have hword := four_le_word env
  have hload : (load (a.add 1)).run s = .done (.num entries) s := h.load
  have hlimit : entries < 256 := h.limit
  have hfits : s.heap.Fits (a.add 8) 8 := h.fits.add (by decide)
  have hsame : ∀ (t : State Lsa) (w : Nat), t.isConformanceRun = true → t.maxAlignment = env.word →
      w ≤ env.word → ∀ b, (ndrUintCoderAt env w b).run t = .done () t := by
    intro t w ht hm hw b
    rw [ndrUintCoderAt_first ht, hm, max_eq_left hw, ← hm]
  have hloop : ∀ (t : State Lsa) (w size n : Nat), t.isConformanceRun = true →
      t.maxAlignment = env.word → w ≤ env.word → ∀ b,
      (elements size (ndrUintCoderAt env w) n b).run t = .done () t := by
    intro t w size n ht hm hw b
    obtain ⟨t', ht', rfl⟩ := @elements_all t (ndrUintCoderAt env w) size (fun _ r => r = t)
      (by rintro i r c rfl; exact ⟨r, hsame r w ht hm hw c, rfl⟩) n rfl b
    exact ht'
  have hcount : (ndrUint3264Coder env entries).run s =
      .done entries { s with maxAlignment := env.word } := by
    rw [ndrUint3264Coder, ndrUintCoder_first hpass, hmax, max_eq_right (by omega)]
  have halloc := @allocArray_small { s with maxAlignment := env.word } (a.add 8) entries 4 hfits
    (by omega)
  have hfits' : (s.heap.withArray (a.add 8) (entries * 4)).Fits (a.add 8) 8 :=
    (Heap.extends_withArray.fits _ _ hfits.block_lt).mpr hfits
  have helements := @arrayElements_run { s with
    maxAlignment := env.word
    heap := s.heap.withArray (a.add 8) (entries * 4) } (a.add 8) (ndrUint32CoderAt env) 4 _ hfits'
    (Heap.cell_withArray hfits) entries
  have hbyte := hsame { s with maxAlignment := env.word } 1 hpass rfl (by omega)
  have hbytes := hloop { s with maxAlignment := env.word } 1 1 6 hpass rfl (by omega) (a.add 2)
  have hwords := hloop { s with
    maxAlignment := env.word
    heap := s.heap.withArray (a.add 8) (entries * 4) } 4 4 entries hpass rfl hword
  rw [lsaRpcSidCoder, Run.bind_done hload, Cell.toNat, Run.bind_done hcount, ndrUint8CoderAt,
    Run.bind_done (hbyte a), ndrUint8CoderAt, Run.bind_done (hbyte _)]
  change ((elements 1 (ndrUintCoderAt env 1) 6 (a.add 2)) >>= _).run _ = _
  rw [Run.bind_done hbytes, whenDecoding, hdir, Run.bind_done halloc, helements]
  exact hwords _

omit hmax in
/-- A pointer in the first pass. -/
theorem ndrPtrCoder_first (run : LsaRun) (ptr : Option Addr) (k : Lsa) :
    (ndrPtrCoder env run ptr .unique k).run s =
      .done () { s with maxAlignment := max s.maxAlignment env.word } := by
  rw [ndrPtrCoder, hdir]
  dsimp only
  rw [ndrDecodePtr, Run.get_bind, if_pos hpass]
  rfl

/-- The first pass over pointers to SIDs, which are allocated. -/
theorem prpcSidArray_first (run : LsaRun) (h : Stands .sids a entries s) :
    ∃ h', (lsaPrpcSidArrayCoder env run a).run s = .done () { s with
        maxAlignment := if entries = 0 then 4 else env.word
        heap := h' }
      ∧ s.heap.Extends (a.add 8) h' := by
  have hword := four_le_word env
  have hload : (load a).run s = .done (.num entries) s := h.load
  have hlimit : entries < 4294967296 := h.limit
  have hfits : s.heap.Fits (a.add 8) 8 := h.fits.add (by decide)
  have hcount : (ndrUint32Coder env entries).run s =
      .done entries { s with maxAlignment := 4 } := by
    rw [ndrUint32Coder, ndrUintCoder_first hpass, hmax]
    rfl
  obtain ⟨h', halloc, hext, hcell, hsized, hsids⟩ := @allocSidInfo_run entries (a.add 8)
    { s with maxAlignment := 4 } hfits (by omega)
  have hfits' : h'.Fits (a.add 8) 8 := (hext.fits _ _ hfits.block_lt).mpr hfits
  have hstep : ∀ i (t : State Lsa),
      t = { s with maxAlignment := if i = 0 then 4 else env.word, heap := h' } → i < entries →
      ∃ t', (LsaArray.elemCoder env run .sids
          ((⟨s.heap.length, 0⟩ : Addr).add (i * 8))).run t = .done () t'
        ∧ t' = { s with maxAlignment := if i + 1 = 0 then 4 else env.word, heap := h' } := by
    rintro i t rfl hi
    obtain ⟨r, hr, -⟩ := hsids i hi
    refine ⟨_, ?_, rfl⟩
    rw [LsaArray.elemCoder, Run.run_bind, load_run, if_pos (hsized.fits.mpr (by omega)),
      Run.andThen_done, ndrPtrCoder_first hdir (by exact hpass), if_neg (Nat.succ_ne_zero i)]
    dsimp only
    rw [max_eq_right (by split <;> omega)]
  obtain ⟨t, ht, rfl⟩ := @elements_done Lsa (LsaArray.elemCoder env run .sids) 8 ⟨s.heap.length, 0⟩
    (fun i t => t = { s with maxAlignment := if i = 0 then 4 else env.word, heap := h' })
    (fun i => i < entries) hstep entries 0 _ rfl fun j _ hj => by omega
  rw [Nat.zero_mul, Addr.add_zero, Nat.zero_add, if_pos rfl] at ht
  have helements := @arrayElements_run { s with maxAlignment := 4, heap := h' } (a.add 8)
    (LsaArray.elemCoder env run .sids) 8 _ hfits' hcell entries
  refine ⟨h', ?_, hext⟩
  rw [lsaPrpcSidArrayCoder, Run.bind_done hload, Cell.toNat, Run.bind_done hcount, whenDecoding,
    hdir, Run.bind_done halloc]
  exact helements.trans ht

omit hmax in
/-- The first pass over a translated name. -/
theorem translatedName_aligns (run : LsaRun) (hmax : s.maxAlignment = env.word) (b : Addr) :
    (lsaTranslatedNameExCoder env run b).run s =
      .done () { s with offset := alignUp env.word s.offset } := by
  have hword := four_le_word env
  have hnumber : ∀ (t : State Lsa) (b : Addr), t.isConformanceRun = true →
      t.maxAlignment = env.word → (ndrUint32CoderAt env b).run t = .done () t := by
    intro t b ht hm
    rw [ndrUint32CoderAt, ndrUintCoderAt_first ht, hm, max_eq_left hword, ← hm]
  have hlength : ∀ (t : State Lsa) (n : Nat), t.isConformanceRun = true →
      t.maxAlignment = env.word → (ndrUint16Coder env n).run t = .done n t := by
    intro t n ht hm
    rw [ndrUint16Coder, ndrUintCoder_first ht, hm, max_eq_left (by omega), ← hm]
  have hheader : (unicodeHeaderCoder env (b.add 8)).run s =
      .done () { s with offset := alignUp env.word s.offset } := by
    have hfirst := hlength { s with offset := alignUp env.word s.offset } 0 hpass hmax
    rw [unicodeHeaderCoder, Run.modify_bind, unicodeLengths, hdir]
    change ((ndrUint16Coder env 0) >>= _).run _ = _
    rw [Run.bind_done hfirst, Run.bind_done hfirst]
    rfl
  have hpointer : (ndrPtrCoder env run (some (b.add 8)) .unique .utf16).run { s with
      offset := alignUp env.word s.offset } =
      .done () { s with offset := alignUp env.word s.offset } := by
    rw [ndrPtrCoder_first hdir (by exact hpass)]
    dsimp only
    rw [hmax, max_self]
  have hstring : (lsaRpcUnicodeStringCoder env run (b.add 8)).run s =
      .done () { s with offset := alignUp env.word s.offset } := by
    rw [lsaRpcUnicodeStringCoder, Run.bind_done hheader, hpointer]
  have hfields := hnumber { s with offset := alignUp env.word s.offset }
  rw [lsaTranslatedNameExCoder, Run.bind_done (hnumber s b hpass hmax), Run.bind_done hstring,
    Run.bind_done (hfields (b.add 16) hpass hmax), hfields (b.add 20) hpass hmax]

/-- The first pass over translated names, which aligns the first of them. -/
theorem tnArray_first (run : LsaRun) (h : Stands .names a entries s) :
    ∃ o, (tnArrayCoder env run a).run s = .done () { s with
        offset := o
        maxAlignment := env.word
        heap := s.heap.withArray (a.add 8) (entries * TRANSLATED_NAME_EX_SIZE) }
      ∧ alignUp env.word o = alignUp env.word s.offset := by
  have hword := four_le_word env
  have hload : (load a).run s = .done (.num entries) s := h.load
  have hlimit : entries < 4294967296 := h.limit
  have hfits : s.heap.Fits (a.add 8) 8 := h.fits.add (by decide)
  have hcount : (ndrUint3264Coder env entries).run s =
      .done entries { s with maxAlignment := env.word } := by
    rw [ndrUint3264Coder, ndrUintCoder_first hpass, hmax, max_eq_right (by omega)]
  have hsmall : entries * TRANSLATED_NAME_EX_SIZE < 2 ^ 62 := by
    unfold TRANSLATED_NAME_EX_SIZE
    omega
  have halloc := @allocArray_small { s with maxAlignment := env.word } (a.add 8) entries
    TRANSLATED_NAME_EX_SIZE hfits hsmall
  have hfits' : (s.heap.withArray (a.add 8) (entries * TRANSLATED_NAME_EX_SIZE)).Fits
      (a.add 8) 8 := (Heap.extends_withArray.fits _ _ hfits.block_lt).mpr hfits
  have helements := @arrayElements_run { s with
    maxAlignment := env.word
    heap := s.heap.withArray (a.add 8) (entries * TRANSLATED_NAME_EX_SIZE) } (a.add 8)
    (lsaTranslatedNameExCoder env run) TRANSLATED_NAME_EX_SIZE _ hfits' (Heap.cell_withArray hfits)
    entries
  obtain ⟨t, ht, o, rfl, ho⟩ := @elements_all { s with
    maxAlignment := env.word
    heap := s.heap.withArray (a.add 8) (entries * TRANSLATED_NAME_EX_SIZE) }
    (lsaTranslatedNameExCoder env run) TRANSLATED_NAME_EX_SIZE
    (fun _ t => ∃ o, t = { s with
      offset := o
      maxAlignment := env.word
      heap := s.heap.withArray (a.add 8) (entries * TRANSLATED_NAME_EX_SIZE) }
      ∧ alignUp env.word o = alignUp env.word s.offset) (by
    rintro i t b ⟨o, rfl, ho⟩
    refine ⟨_, translatedName_aligns hdir (by exact hpass) run (by rfl) b, alignUp env.word o, rfl,
      ?_⟩
    rw [alignUp_alignUp (word_pos env), ho]) entries ⟨s.offset, rfl, rfl⟩ ⟨s.heap.length, 0⟩
  refine ⟨o, ?_, ho⟩
  rw [tnArrayCoder, Run.bind_done hload, Cell.toNat, Run.bind_done hcount, whenDecoding, hdir,
    Run.bind_done halloc]
  exact helements.trans ht

end

/-- From the state in front of the first pass to the state behind it. -/
structure AfterFirst (env : Env) (k : LsaArray) (a : Addr) (entries : Nat) (s t : State Lsa) :
    Prop where
  buf : t.buf = s.buf
  topLevel : t.topLevel = s.topLevel
  ptrs : t.ptrs = s.ptrs
  place : alignUp t.maxAlignment t.offset = k.place env s.offset entries
  heap : s.heap.Extends (a.add 8) t.heap

section
variable {env : Env} {s : State Lsa} {a : Addr} {k : LsaArray} {entries : Nat}

theorem coder_first (hdir : env.direction = .decode) (h : Stands k a entries s) :
    ∃ t, (lsaRun env k.coder a).run { s with maxAlignment := 1, isConformanceRun := true } =
        .done () t
      ∧ AfterFirst env k a entries s t := by
  have hstands : Stands k a entries { s with maxAlignment := 1, isConformanceRun := true } :=
    ⟨h.topLevel, h.fits, h.field, h.limit⟩
  cases k with
  | subAuthorities =>
    exact ⟨_, rpcSid_first hdir rfl rfl hstands, rfl, rfl, rfl, rfl, Heap.extends_withArray⟩
  | sids =>
    obtain ⟨h', hrun, hext⟩ := prpcSidArray_first hdir rfl rfl (fun _ _ => Run.fault .endless)
      hstands
    exact ⟨_, hrun, rfl, rfl, rfl, rfl, hext⟩
  | names =>
    obtain ⟨o, hrun, ho⟩ := tnArray_first hdir rfl rfl (fun _ _ => Run.fault .endless) hstands
    exact ⟨_, hrun, rfl, rfl, rfl, ho, Heap.extends_withArray⟩

theorem LsaArray.block_field (k : LsaArray) (a : Addr) : (k.field a).block = a.block := by
  cases k <;> rfl

theorem LsaArray.field_ne (k : LsaArray) (a : Addr) : k.field a ≠ a.add 8 := by
  cases k with
  | subAuthorities => exact fun hsame => by rw [LsaArray.field, Addr.add_inj] at hsame; omega
  | sids => exact (Addr.add_ne (by decide)).symm
  | names => exact (Addr.add_ne (by decide)).symm

/-- The structure stands behind the first pass as before. -/
theorem AfterFirst.stands {t : State Lsa} (hafter : AfterFirst env k a entries s t)
    (h : Stands k a entries s) : Stands k a entries t where
  topLevel := hafter.topLevel.trans h.topLevel
  fits := (hafter.heap.fits _ _ h.fits.block_lt).mpr h.fits
  field := by
    rw [hafter.heap.cell _ (by rw [k.block_field]; exact h.fits.block_lt) (k.field_ne a), h.field]
  limit := h.limit

/-! ## The second pass -/

/-- The elements that are decoded in the second pass. -/
def elementsOf (env : Env) (k : LsaArray) (buf : Bytes) (o ptrs : Nat) : Elements where
  env := env
  kind := k
  buf := buf
  first := k.first env o
  size := k.count env buf o * k.elemSize % 2 ^ 64
  ptrs := ptrs

/-- The octets in front of an array of numbers, which are decoded into a structure. -/
theorem uint8s_run (hdir : env.direction = .decode) (hpass : s.isConformanceRun = false) {n : Nat}
    (hfits : ∀ j < n, s.heap.Fits (a.add j) 1) (hin : s.offset ≤ s.buf.length) :
    (s.buf.length < s.offset + n →
      ∃ t, (elements 1 (ndrUint8CoderAt env) n a).run s = .fail t)
    ∧ (s.offset + n ≤ s.buf.length → ∃ h : Heap,
      (elements 1 (ndrUint8CoderAt env) n a).run s =
        .done () { s with offset := s.offset + n, heap := h }
      ∧ h.length = s.heap.length ∧ (∀ b w, h.Fits b w ↔ s.heap.Fits b w)
      ∧ (∀ b m, h.Sized b m ↔ s.heap.Sized b m)
      ∧ (∀ b, (∀ j < n, b ≠ a.add j) → h.cell b = s.heap.cell b)
      ∧ ∀ j < n, h.cell (a.add j) = .num (octet s.buf (s.offset + j))) := by
  induction n generalizing s a with
  | zero =>
    refine ⟨fun hout => ?_, fun _ => ?_⟩
    · omega
    · exact ⟨s.heap, rfl, rfl, fun _ _ => Iff.rfl, fun _ _ => Iff.rfl, fun _ _ => rfl, nofun⟩
  | succ n ih =>
    have hfirst : s.heap.Fits a 1 := hfits 0 (by omega)
    have hrun := ndrUintCoderAt_decodes hdir hpass Nat.one_pos (Nat.one_dvd _) a
    rw [if_pos hfirst, number_slice_one] at hrun
    by_cases hlen : s.buf.length < s.offset + 1
    · rw [if_pos hlen] at hrun
      exact ⟨fun _ => ⟨s, Run.bind_fail hrun⟩, fun h => absurd h (by omega)⟩
    rw [if_neg hlen] at hrun
    have hnext : ∀ j, (a.add 1).add j = a.add (j + 1) := by
      intro j
      rw [Addr.add_add, Nat.add_comm]
    obtain ⟨hshort, hdone⟩ := ih (a := a.add 1) (s := { s with
      offset := s.offset + 1
      heap := s.heap.put a (.num (octet s.buf s.offset)) }) hpass (by
        intro j hj
        rw [hnext]
        exact Heap.fits_put.mpr (hfits (j + 1) (by omega))) (by dsimp only; omega)
    refine ⟨fun hout => ?_, fun hroom => ?_⟩
    · obtain ⟨t, ht⟩ := hshort (by dsimp only; omega)
      exact ⟨t, (Run.bind_done hrun).trans ht⟩
    · obtain ⟨h, ht, hlength, hfit, hsized, hcell, hbytes⟩ := hdone (by dsimp only; omega)
      refine ⟨h, ?_, ?_, fun b w => ?_, fun b m => ?_, fun b hb => ?_, fun j hj => ?_⟩
      · rw [elements, ndrUint8CoderAt, Run.bind_done hrun]
        rw [show s.offset + (n + 1) = s.offset + 1 + n by omega]
        exact ht
      · rw [hlength, Heap.length_put]
      · exact (hfit b w).trans Heap.fits_put
      · exact (hsized b m).trans Heap.sized_put
      · rw [hcell b fun j hj => by rw [hnext]; exact hb (j + 1) (by omega)]
        exact Heap.cell_put_ne (hb 0 (by omega))
      · cases j with
        | zero =>
          rw [Addr.add_zero, hcell a fun j _ => by
            rw [hnext]
            exact (Addr.add_ne (by omega)).symm]
          exact Heap.cell_put hfirst
        | succ j =>
          have hbyte := hbytes j (by omega)
          rw [hnext] at hbyte
          rw [hbyte, show s.offset + (j + 1) = s.offset + 1 + j by omega]

section
variable (hdir : env.direction = .decode) (hpass : s.isConformanceRun = false)

include hdir

/-- An array is allocated and its elements are decoded. -/
theorem allocated_run {coder : Addr → Ndr Lsa Unit} {elemSize : Nat}
    (hfits : s.heap.Fits a 8) (n : Nat) :
    (whenDecoding env (allocArray n elemSize a) >>= fun _ =>
      arrayElements elemSize coder n a).run s =
      if 2 ^ 64 ≤ n * elemSize % 2 ^ 64 + 8 then .fault .write
      else if Allocates (n * elemSize % 2 ^ 64) then
        (elements elemSize coder n ⟨s.heap.length, 0⟩).run { s with
          heap := s.heap.withArray a (n * elemSize % 2 ^ 64) }
      else .fail { s with heap := s.heap.put a (.num 0) } := by
  rw [whenDecoding, hdir]
  dsimp only
  rw [Run.run_bind, allocArray_run hfits]
  split
  · rfl
  · split
    · have hfits' : (s.heap.withArray a (n * elemSize % 2 ^ 64)).Fits a 8 :=
        (Heap.extends_withArray.fits _ _ hfits.block_lt).mpr hfits
      rw [Run.andThen_done]
      exact arrayElements_run hfits' (Heap.cell_withArray hfits) n
    · rfl

include hpass

/-- A number in front of an array that is decoded where it is expected. -/
theorem ndrUintCoder_decodes {w : Nat} (hw : 0 < w) (hdvd : w ∣ s.offset) (value : Nat) :
    (ndrUintCoder env w value).run s =
      if s.buf.length < s.offset + w then .fail s
      else .done (env.number (slice s.buf s.offset w)) { s with offset := s.offset + w } := by
  rw [ndrUintCoder_run hdir hpass, dcerpcGet_run, alignUp_of_dvd hw hdvd]

end

/-- What the second pass over an array does, up to its elements. -/
structure SecondPass (env : Env) (k : LsaArray) (a : Addr) (entries : Nat) (s : State Lsa)
    (x : Elements) (coder : Ndr Lsa Unit) : Prop where
  short : s.buf.length < k.headerEnd env s.offset → Stops (coder.run s)
  wraps : k.headerEnd env s.offset ≤ s.buf.length → 2 ^ 64 ≤ x.size + 8 →
    coder.run s = .fault .write
  refused : k.headerEnd env s.offset ≤ s.buf.length → x.size + 8 < 2 ^ 64 → ¬ Allocates x.size →
    Stops (coder.run s)
  loops : k.headerEnd env s.offset ≤ s.buf.length → x.size + 8 < 2 ^ 64 → Allocates x.size →
    ∃ p h s', coder.run s =
        (elements k.elemSize (k.elemCoder env fun _ _ => Run.fault .endless)
          (k.count env s.buf s.offset) p).run s'
      ∧ x.Ready p h ∧ x.Loop p h 0 s'
      ∧ h.cell (k.field a) = .num (k.fieldValue env s.buf s.offset entries)
      ∧ h.cell (a.add 8) = .ref p ∧ p.block ≠ a.block

section
variable (hdir : env.direction = .decode) (hpass : s.isConformanceRun = false)

include hdir hpass

/-- What is in front of the sub-authorities of a SID. -/
theorem rpcSid_header (hdvd : env.word ∣ s.offset) (h : Stands .subAuthorities a entries s) :
    (s.buf.length < s.offset + env.word + 8 → Stops ((lsaRpcSidCoder env a).run s))
    ∧ (s.offset + env.word + 8 ≤ s.buf.length → ∃ h' : Heap,
      (lsaRpcSidCoder env a).run s =
        (whenDecoding env (allocArray (env.number (slice s.buf s.offset env.word)) 4 (a.add 8)) >>=
          fun _ => arrayElements 4 (ndrUint32CoderAt env)
            (env.number (slice s.buf s.offset env.word)) (a.add 8)).run
          { s with offset := s.offset + env.word + 8, heap := h' }
      ∧ h'.length = s.heap.length ∧ (∀ b w, h'.Fits b w ↔ s.heap.Fits b w)
      ∧ h'.cell (a.add 1) = .num (octet s.buf (s.offset + env.word + 1))) := by
  have hload : (load (a.add 1)).run s = .done (.num entries) s := h.load
  have hcount := ndrUintCoder_decodes hdir hpass (word_pos env) hdvd (Cell.toNat (.num entries))
  -- the eight octets in front of the pointer are decoded one behind the other
  have hcoder : lsaRpcSidCoder env a = (do
      let subAuthorityCount ← load (a.add 1)
      let count ← ndrUint3264Coder env subAuthorityCount.toNat
      elements 1 (ndrUint8CoderAt env) 8 a
      whenDecoding env (allocArray count 4 (a.add 8))
      arrayElements 4 (ndrUint32CoderAt env) count (a.add 8)) := by
    unfold lsaRpcSidCoder
    simp only [elements, bind_assoc, Addr.add_add]
  rw [hcoder, Run.bind_done hload, ndrUint3264Coder]
  by_cases hcut : s.buf.length < s.offset + env.word
  · rw [if_pos hcut] at hcount
    rw [Run.bind_fail hcount]
    exact ⟨fun _ => trivial, fun hin => absurd hin (by omega)⟩
  rw [if_neg hcut] at hcount
  rw [Run.bind_done hcount]
  obtain ⟨hshort, hdone⟩ := @uint8s_run env { s with offset := s.offset + env.word } a hdir hpass 8
    (fun j hj => h.fits.add (by omega)) (by dsimp only; omega)
  refine ⟨fun hout => ?_, fun hin => ?_⟩
  · obtain ⟨t, ht⟩ := hshort hout
    rw [Run.bind_fail ht]
    trivial
  · obtain ⟨h', hrun, hlen, hfits, -, -, hvalues⟩ := hdone hin
    rw [Run.bind_done hrun]
    exact ⟨h', rfl, hlen, hfits, hvalues 1 (by omega)⟩

/-- Where an array is allocated behind what is in front of it, and decoded. -/
theorem SecondPass.of_header {coder : Ndr Lsa Unit} (hkind : k ≠ .sids)
    (hdvd : env.word ∣ s.offset) (htop : s.topLevel = false)
    (hshort : s.buf.length < k.headerEnd env s.offset → Stops (coder.run s))
    (hdone : k.headerEnd env s.offset ≤ s.buf.length → ∃ h' : Heap,
      coder.run s = (whenDecoding env
          (allocArray (k.count env s.buf s.offset) k.elemSize (a.add 8)) >>= fun _ =>
        arrayElements k.elemSize (k.elemCoder env fun _ _ => Run.fault .endless)
          (k.count env s.buf s.offset) (a.add 8)).run
          { s with offset := k.first env s.offset, heap := h' }
      ∧ h'.Fits (a.add 8) 8
      ∧ h'.cell (k.field a) = .num (k.fieldValue env s.buf s.offset entries)) :
    SecondPass env k a entries s (elementsOf env k s.buf s.offset s.ptrs.length) coder := by
  have hrun : ∀ h' : Heap, h'.Fits (a.add 8) 8 → _ := fun h' hptr =>
    @allocated_run env { s with offset := k.first env s.offset, heap := h' } (a.add 8) hdir
      (k.elemCoder env fun _ _ => Run.fault .endless) k.elemSize hptr (k.count env s.buf s.offset)
  have halign : k.elemAlign env ∣ k.first env s.offset := by
    have hword := four_dvd_word env
    cases k with
    | subAuthorities =>
      exact (Nat.dvd_add_right ((Nat.dvd_add_right (hword.trans hdvd)).mpr hword)).mpr (by decide)
    | sids => exact absurd rfl hkind
    | names => exact Nat.dvd_add_self_right.mpr hdvd
  have hmultiple : 8 ∣ k.count env s.buf s.offset * k.elemSize % 2 ^ 64 ∨ k = .subAuthorities := by
    cases k with
    | subAuthorities => exact .inr rfl
    | sids => exact absurd rfl hkind
    | names =>
      refine .inl ((Nat.dvd_mod_iff (by decide)).mpr (Dvd.dvd.mul_left ?_ _))
      decide
  refine ⟨hshort, fun hin hwrap => ?_, fun hin hfit hno => ?_, fun hin hfit hyes => ?_⟩
  · obtain ⟨h', hcoder, hptr, -⟩ := hdone hin
    rw [hcoder, hrun h' hptr, if_pos (by exact hwrap)]
  · obtain ⟨h', hcoder, hptr, -⟩ := hdone hin
    rw [hcoder, hrun h' hptr, if_neg (by exact Nat.not_le.mpr hfit), if_neg (by exact hno)]
    trivial
  · obtain ⟨h', hcoder, hptr, hcell⟩ := hdone hin
    have hlt : a.block < h'.length := hptr.block_lt
    refine ⟨⟨h'.length, 0⟩,
      h'.withArray (a.add 8) (k.count env s.buf s.offset * k.elemSize % 2 ^ 64),
      { s with
        offset := k.first env s.offset
        heap := h'.withArray (a.add 8) (k.count env s.buf s.offset * k.elemSize % 2 ^ 64) },
      ?_, ⟨hdir, Heap.sized_withArray, fun _ => halign, hmultiple, fun hsids => absurd hsids hkind⟩,
      ⟨rfl, ?_, hpass, htop, rfl, fun _ _ => Iff.rfl, fun _ _ => Iff.rfl, fun _ _ => rfl, nofun⟩,
      ?_, Heap.cell_withArray hptr, Nat.ne_of_gt hlt⟩
    · rw [hcoder, hrun h' hptr, if_neg (by exact Nat.not_le.mpr hfit), if_pos (by exact hyes)]
    · rw [if_neg (by exact hkind), alignUp_one, Elements.offset_zero]
      rfl
    · rw [Heap.extends_withArray.cell _ (by rw [k.block_field]; exact hlt) (k.field_ne a), hcell]

theorem rpcSid_second (hdvd : env.word ∣ s.offset) (h : Stands .subAuthorities a entries s) :
    SecondPass env .subAuthorities a entries s
      (elementsOf env .subAuthorities s.buf s.offset s.ptrs.length) (lsaRpcSidCoder env a) := by
  obtain ⟨hshort, hdone⟩ := rpcSid_header hdir hpass hdvd h
  refine .of_header hdir hpass (by decide) hdvd h.topLevel hshort fun hin => ?_
  obtain ⟨h', hrun, -, hfits, hcell⟩ := hdone hin
  exact ⟨h', hrun, (hfits _ _).mpr (h.fits.add (by decide)), hcell⟩

theorem tnArray_second (hdvd : env.word ∣ s.offset) (h : Stands .names a entries s) :
    SecondPass env .names a entries s
      (elementsOf env .names s.buf s.offset s.ptrs.length)
      (tnArrayCoder env (fun _ _ => Run.fault .endless) a) := by
  have hload : (load a).run s = .done (.num entries) s := h.load
  have hcount := ndrUintCoder_decodes hdir hpass (word_pos env) hdvd (Cell.toNat (.num entries))
  have hcoder : (tnArrayCoder env (fun _ _ => Run.fault .endless) a).run s = _ :=
    Run.bind_done hload
  refine .of_header hdir hpass (by decide) hdvd h.topLevel (fun hout => ?_) fun hin => ?_
  · change s.buf.length < s.offset + env.word at hout
    rw [if_pos hout] at hcount
    rw [hcoder, ndrUint3264Coder, Run.bind_fail hcount]
    trivial
  · change s.offset + env.word ≤ s.buf.length at hin
    rw [if_neg (by omega)] at hcount
    refine ⟨s.heap, ?_, h.fits.add (by decide), h.field⟩
    rw [hcoder, ndrUint3264Coder, Run.bind_done hcount]
    rfl

theorem prpcSidArray_second (hdvd : 4 ∣ s.offset) (h : Stands .sids a entries s) :
    SecondPass env .sids a entries s (elementsOf env .sids s.buf s.offset s.ptrs.length)
      (lsaPrpcSidArrayCoder env (fun _ _ => Run.fault .endless) a) := by
  have hload : (load a).run s = .done (.num entries) s := h.load
  have hcount := ndrUintCoder_decodes hdir hpass (w := 4) (by decide) hdvd
    (Cell.toNat (.num entries))
  have hcoder : (lsaPrpcSidArrayCoder env (fun _ _ => Run.fault .endless) a).run s = _ :=
    Run.bind_done hload
  have hlt : LsaArray.count env s.buf s.offset .sids < 4294967296 :=
    number_slice_lt s.buf s.offset 4
  have hsize : (elementsOf env .sids s.buf s.offset s.ptrs.length).size =
      LsaArray.count env s.buf s.offset .sids * 8 := Nat.mod_eq_of_lt (by
    show LsaArray.count env s.buf s.offset .sids * 8 < 2 ^ 64
    omega)
  refine ⟨fun hout => ?_, fun _ hwrap => ?_, fun _ _ hno => ?_, fun hin _ _ => ?_⟩
  · change s.buf.length < s.offset + 4 at hout
    rw [if_pos hout] at hcount
    rw [hcoder, ndrUint32Coder, Run.bind_fail hcount]
    trivial
  · rw [hsize] at hwrap
    omega
  · exact absurd (allocates_small (by rw [hsize]; omega)) hno
  · change s.offset + 4 ≤ s.buf.length at hin
    rw [if_neg (by omega)] at hcount
    have hfits : s.heap.Fits (a.add 8) 8 := h.fits.add (by decide)
    obtain ⟨h', halloc, hext, hcell, hsized, hsids⟩ := @allocSidInfo_run
      (LsaArray.count env s.buf s.offset .sids) (a.add 8) { s with offset := s.offset + 4 } hfits
      (by omega)
    have hfits' : h'.Fits (a.add 8) 8 := (hext.fits _ _ hfits.block_lt).mpr hfits
    have helements := @arrayElements_run { s with offset := s.offset + 4, heap := h' } (a.add 8)
      (LsaArray.elemCoder env (fun _ _ => Run.fault .endless) .sids) 8 _ hfits' hcell
      (LsaArray.count env s.buf s.offset .sids)
    refine ⟨⟨s.heap.length, 0⟩, h', { s with offset := s.offset + 4, heap := h' }, ?_,
      ⟨hdir, by rw [hsize]; exact hsized, fun hkind => absurd rfl hkind,
        .inl (by rw [hsize]; exact Nat.dvd_mul_left 8 _), fun _ i hi => ?_⟩,
      ⟨rfl, ?_, hpass, h.topLevel, rfl, fun _ _ => Iff.rfl, fun _ _ => Iff.rfl, fun _ _ => rfl,
        nofun⟩, ?_, hcell, Nat.ne_of_gt h.fits.block_lt⟩
    · rw [hcoder, ndrUint32Coder, Run.bind_done hcount, whenDecoding, hdir]
      exact (Run.bind_done halloc).trans helements
    · rw [hsize] at hi
      exact hsids i (by omega)
    · rw [Elements.offset_zero]
      rfl
    · exact (hext.cell a h.fits.block_lt (LsaArray.field_ne .sids a)).trans h.field

end

end

/-! ## Both passes -/

section
variable {env : Env} {s : State Lsa} {a : Addr} {k : LsaArray} {entries : Nat}
  (hdir : env.direction = .decode)

include hdir

theorem coder_second (hpass : s.isConformanceRun = false) (hdvd : k.countWidth env ∣ s.offset)
    (h : Stands k a entries s) : SecondPass env k a entries s
      (elementsOf env k s.buf s.offset s.ptrs.length) (lsaRun env k.coder a) := by
  cases k with
  | subAuthorities => exact rpcSid_second hdir hpass hdvd h
  | sids => exact prpcSidArray_second hdir hpass hdvd h
  | names => exact tnArray_second hdir hpass hdvd h

omit hdir in
theorem LsaArray.dvd_place (k : LsaArray) (o entries : Nat) :
    k.countWidth env ∣ k.place env o entries := by
  cases k with
  | subAuthorities => exact dvd_alignUp _ _
  | sids =>
    refine Nat.dvd_trans ?_ (dvd_alignUp _ _)
    show 4 ∣ if entries = 0 then 4 else env.word
    split
    · exact Nat.dvd_refl 4
    · exact four_dvd_word env
  | names => exact dvd_alignUp _ _

/-- The elements of an array that begins at an aligned offset. -/
abbrev arrayOf (env : Env) (k : LsaArray) (entries : Nat) (s : State Lsa) : Elements :=
  elementsOf env k s.buf (k.place env s.offset entries) s.ptrs.length

/-- How many elements are decoded. -/
abbrev countOf (env : Env) (k : LsaArray) (entries : Nat) (s : State Lsa) : Nat :=
  k.count env s.buf (k.place env s.offset entries)

/-- What the field says behind the decoder. -/
abbrev fieldOf (env : Env) (k : LsaArray) (entries : Nat) (s : State Lsa) : Nat :=
  k.fieldValue env s.buf (k.place env s.offset entries) entries

/-- The octets in front of the elements are there. -/
abbrev HeaderThere (env : Env) (k : LsaArray) (entries : Nat) (s : State Lsa) : Prop :=
  k.headerEnd env (k.place env s.offset entries) ≤ s.buf.length

/-- Both passes are the second one, from the aligned offset on. -/
theorem array_run (h : Stands k a entries s) : ∃ t : State Lsa, t.buf = s.buf
    ∧ t.offset = k.place env s.offset entries
    ∧ (ndrDoCoder (lsaRun env k.coder a)).run s = (lsaRun env k.coder a).run t
    ∧ SecondPass env k a entries t (arrayOf env k entries s) (lsaRun env k.coder a) := by
  obtain ⟨t, hrun, hafter⟩ := coder_first hdir h
  have hstands := hafter.stands h
  have hsecond := @coder_second env { t with
    offset := alignUp t.maxAlignment t.offset
    isConformanceRun := false } a k entries hdir rfl
    (by dsimp only; rw [hafter.place]; exact k.dvd_place s.offset entries)
    ⟨hstands.topLevel, hstands.fits, hstands.field, hstands.limit⟩
  refine ⟨{ t with offset := alignUp t.maxAlignment t.offset, isConformanceRun := false },
    hafter.buf, hafter.place, ?_, ?_⟩
  · rw [ndrDoCoder_run, hrun, Run.andThen_done]
  · rw [arrayOf, ← hafter.buf, ← hafter.place, ← hafter.ptrs]
    exact hsecond

/-- The array has as many elements as the field says, and they have been decoded. -/
def Filled (env : Env) (k : LsaArray) (a : Addr) (entries : Nat) (s : State Lsa) (n : Nat)
    (t : State Lsa) : Prop :=
  ∃ p, t.heap.cell (a.add 8) = .ref p ∧ t.heap.Sized p (n * k.elemSize)
    ∧ ∀ i < n, (arrayOf env k entries s).Decoded p t.heap t.ptrs i

/-- All of the elements are decoded. -/
def AllDecoded (env : Env) (k : LsaArray) (entries : Nat) (s : State Lsa) : Prop :=
  HeaderThere env k entries s ∧ (arrayOf env k entries s).size + 8 < 2 ^ 64
    ∧ Allocates (arrayOf env k entries s).size
    ∧ ∀ i < countOf env k entries s, (arrayOf env k entries s).GetsOver i

/-- Something is written outside the memory of the array: its header, when its size wraps around,
or an element. -/
def WritesOutside (env : Env) (k : LsaArray) (entries : Nat) (s : State Lsa) : Prop :=
  HeaderThere env k entries s ∧ (2 ^ 64 ≤ (arrayOf env k entries s).size + 8
    ∨ (arrayOf env k entries s).size + 8 < 2 ^ 64 ∧ Allocates (arrayOf env k entries s).size
      ∧ (arrayOf env k entries s).Leaves (countOf env k entries s))

omit hdir in
/-- The decoders of the elements, for the elements that stand where the array begins. -/
theorem arrayOf_steps {p : Addr} {h' : Heap} (hready : (arrayOf env k entries s).Ready p h') :
    (arrayOf env k entries s).Steps p h' (k.elemCoder env fun _ _ => Run.fault .endless) := by
  cases k with
  | subAuthorities => exact subAuthorities_steps hready rfl
  | sids => exact sids_steps hready rfl
  | names => exact names_steps hready rfl

omit hdir in
/-- A size that all of the elements fit into has not wrapped around. -/
theorem arrayOf_size (hall : ∀ i < countOf env k entries s, (arrayOf env k entries s).GetsOver i) :
    (arrayOf env k entries s).size = countOf env k entries s * k.elemSize := by
  have hle : (arrayOf env k entries s).size ≤ countOf env k entries s * k.elemSize :=
    Nat.mod_le _ _
  generalize hcount : countOf env k entries s = n at *
  cases n with
  | zero => omega
  | succ n =>
    obtain ⟨-, hfit, -⟩ := hall n (Nat.lt_succ_self n)
    exact Nat.le_antisymm hle hfit

theorem array_outcome (h : Stands k a entries s) :
    (WritesOutside env k entries s →
      (ndrDoCoder (lsaRun env k.coder a)).run s = .fault .write)
    ∧ (AllDecoded env k entries s → ∃ t, (ndrDoCoder (lsaRun env k.coder a)).run s = .done () t
      ∧ t.heap.cell (k.field a) = .num (fieldOf env k entries s)
      ∧ Filled env k a entries s (countOf env k entries s) t)
    ∧ (¬ WritesOutside env k entries s → ¬ AllDecoded env k entries s →
      Stops ((ndrDoCoder (lsaRun env k.coder a)).run s)) := by
  obtain ⟨t, hbuf, hoff, hrun, hsecond⟩ := array_run hdir h
  obtain ⟨hshort, hwraps, hrefused, hloops⟩ := hsecond
  rw [hbuf, hoff] at hshort hwraps hrefused hloops
  rw [hrun]
  refine ⟨?_, ?_, fun hstay hsome => ?_⟩
  · rintro ⟨hin, hwrap | ⟨hfit, hyes, hleaves⟩⟩
    · exact hwraps hin hwrap
    · obtain ⟨p, h', s', hloop, hready, hstart, -⟩ := hloops hin hfit hyes
      rw [hloop]
      exact ((arrayOf_steps hready).loop hstart _).2.1 hleaves
  · rintro ⟨hin, hfit, hyes, hall⟩
    obtain ⟨p, h', s', hloop, hready, hstart, hfield, hptr, hne⟩ := hloops hin hfit hyes
    obtain ⟨t', ht', hend⟩ := ((arrayOf_steps hready).loop hstart _).1 hall
    refine ⟨t', hloop.trans ht', ?_, p, ?_, ?_, hend.decoded⟩
    · rw [hend.cell _ (.inl (by rw [k.block_field]; exact hne.symm)), hfield]
    · rw [hend.cell (a.add 8) (.inl hne.symm), hptr]
    · rw [← arrayOf_size hall]
      exact (hend.sized p _).mpr hready.sized
  · by_cases hin : HeaderThere env k entries s
    · by_cases hwrap : 2 ^ 64 ≤ (arrayOf env k entries s).size + 8
      · exact absurd ⟨hin, .inl hwrap⟩ hstay
      have hfit := Nat.lt_of_not_le hwrap
      by_cases hyes : Allocates (arrayOf env k entries s).size
      · obtain ⟨p, h', s', hloop, hready, hstart, -⟩ := hloops hin hfit hyes
        rw [hloop]
        exact ((arrayOf_steps hready).loop hstart _).2.2
          (fun hall => hsome ⟨hin, hfit, hyes, hall⟩)
          fun hleaves => hstay ⟨hin, .inr ⟨hfit, hyes, hleaves⟩⟩
      · exact hrefused hin hfit hyes
    · exact hshort (Nat.lt_of_not_le hin)

/-- Nothing is written outside an array, and an array that is decoded has as many elements as its
field says. -/
def ArrayMatches (env : Env) (k : LsaArray) (a : Addr) (entries : Nat) (s : State Lsa) : Prop :=
  (ndrDoCoder (lsaRun env k.coder a)).run s ≠ .fault .write
  ∧ ∀ t, (ndrDoCoder (lsaRun env k.coder a)).run s = .done () t →
    ∃ n, t.heap.cell (k.field a) = .num n ∧ Filled env k a entries s n t

omit hdir in
/-- An array has only one number of elements. -/
theorem Filled.unique {t : State Lsa} {m n : Nat} (hm : Filled env k a entries s m t)
    (hn : Filled env k a entries s n t) : m = n := by
  obtain ⟨p, hp, hsized, -⟩ := hm
  obtain ⟨q, hq, hsized', -⟩ := hn
  rw [hp] at hq
  cases hq
  exact Nat.eq_of_mul_eq_mul_right (by cases k <;> decide) (hsized.size_unique hsized')

/-- An array whose field says something else than the count in front of it is not filled. -/
theorem ArrayMatches.count_eq (h : Stands k a entries s) (hmatches : ArrayMatches env k a entries s)
    (hall : AllDecoded env k entries s) : countOf env k entries s = fieldOf env k entries s := by
  obtain ⟨t, ht, hfield, hfilled⟩ := (array_outcome hdir h).2.1 hall
  obtain ⟨n, hcell, hsame⟩ := hmatches.2 t ht
  rw [hfield] at hcell
  cases hcell
  exact hfilled.unique hsame

/-- **The arrays of a reply match their fields** unless something is written outside one of them,
or the elements that are decoded are not as many as the field says. -/
theorem arrays_match_counts_iff (h : Stands k a entries s) : ArrayMatches env k a entries s ↔
    ¬ (WritesOutside env k entries s
      ∨ AllDecoded env k entries s ∧ countOf env k entries s ≠ fieldOf env k entries s) := by
  obtain ⟨hwrites, hdone, hstops⟩ := array_outcome hdir h
  constructor
  · rintro hmatches (hout | ⟨hall, hne⟩)
    · exact hmatches.1 (hwrites hout)
    · exact hne (hmatches.count_eq hdir h hall)
  · intro hno
    rw [not_or, not_and, not_not] at hno
    obtain ⟨hstay, hsame⟩ := hno
    by_cases hall : AllDecoded env k entries s
    · obtain ⟨t, ht, hfield, hfilled⟩ := hdone hall
      refine ⟨by rw [ht]; exact nofun, fun t' ht' => ?_⟩
      rw [ht] at ht'
      cases ht'
      rw [hsame hall] at hfilled
      exact ⟨_, hfield, hfilled⟩
    · have hstop := hstops hstay hall
      refine ⟨fun hfault => ?_, fun t ht => ?_⟩
      · rw [hfault] at hstop
        exact hstop rfl
      · rw [ht] at hstop
        exact hstop.elim

end

/-- A SID with this `SubAuthorityCount` and one sub-authority. -/
def sidReply (subAuthorityCount : UInt8) : State Lsa where
  buf := [1, 0, 0, 0, 1, subAuthorityCount, 0, 0, 0, 0, 0, 5, 18, 0, 0, 0]
  offset := 0
  heap := [Block.fresh RPC_SID_SIZE]
  topLevel := false
  ptrId := 0
  curPtr := 0
  ptrs := []
  isConformanceRun := false
  maxAlignment := 1
  sizeIs := 0
  switchIs := 0

theorem sidReply_stands (n : UInt8) : Stands .subAuthorities ⟨0, 0⟩ 0 (sidReply n) :=
  ⟨rfl, ⟨_, rfl, Nat.le_refl _⟩, rfl, by decide⟩

/-- The well-known SID of the local system. -/
theorem local_system_matches :
    ArrayMatches ndr32Reply .subAuthorities ⟨0, 0⟩ 0 (sidReply 1) := by
  refine (arrays_match_counts_iff rfl (sidReply_stands 1)).mpr ?_
  rintro (⟨-, hwrap | ⟨-, -, i, hi, -, hleaves, -⟩⟩ | ⟨-, hne⟩)
  · exact absurd hwrap (by decide)
  · have hlast : i = 0 := by
      change i < 1 at hi
      omega
    subst hlast
    exact absurd hleaves (by decide)
  · exact absurd hne (by decide)

/-- One sub-authority is decoded, and `SubAuthorityCount` is 2. -/
theorem sub_authority_count_unchecked :
    Stands .subAuthorities ⟨0, 0⟩ 0 (sidReply 2) ∧
      ¬ ArrayMatches ndr32Reply .subAuthorities ⟨0, 0⟩ 0 (sidReply 2) := by
  refine ⟨sidReply_stands 2, fun h => ?_⟩
  have hsame := h.count_eq rfl (sidReply_stands 2) ⟨by decide, by decide, by decide,
    fun i hi => ?_⟩
  · exact absurd hsame (by decide)
  · have hlast : i = 0 := by
      change i < 1 at hi
      omega
    subst hlast
    exact ⟨by decide, by decide, fun hnull => hnull.elim⟩

end Libsmb2.Dcerpc
