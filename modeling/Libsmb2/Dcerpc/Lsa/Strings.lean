import Libsmb2.Dcerpc.Deferred
import Libsmb2.Dcerpc.Encoding
import Libsmb2.Dcerpc.Lsa

/-!
# Strings with a header

`RPC_UNICODE_STRING`: two lengths and a pointer stand in front of the counts and of the code units,
which are coded when the pointer is followed.

* `ndrUtf16Coder_decodes` — a string that was written is read back;
* `Quiet.followed` — what a pointer names is coded behind it, at the top level and below it;
* `codeString_encodes`, `codeString_decodes` — the whole of a string;
* `unicode_string_agrees_iff` — when the lengths say what the counts do.
-/

set_option autoImplicit false

namespace Libsmb2.Dcerpc

open Util

/-! ## A string is read back -/

section
variable {κ : Type} {env : Env} {s : State κ} {a : Addr} {us : List Nat}

/-- Big-endian code units are turned around where they stand. -/
theorem swapUnits_octets (hlt : ∀ u ∈ us, u < 65536) (heven : 2 ∣ s.offset) (i : Nat)
    (hroom : s.offset + 2 * i + 2 * us.length ≤ s.buf.length)
    (hunits : slice s.buf (s.offset + 2 * i) (2 * us.length) = us.flatMap (env.octets 2)) :
    (swapUnits env us.length i).run s =
      .done () { s with buf := patch s.buf (s.offset + 2 * i) (utf16Octets us) } := by
  induction us generalizing i s with
  | nil => rw [show utf16Octets [] = [] from rfl, patch_nil]; rfl
  | cons u us ih =>
    have halign : alignUp 2 (s.offset + 2 * i) = s.offset + 2 * i :=
      alignUp_of_dvd (by decide) ((Nat.dvd_add_right heven).mpr (Nat.dvd_mul_right _ _))
    rw [List.length_cons] at hroom hunits
    rw [show 2 * (us.length + 1) = 2 + 2 * us.length by omega, slice_add,
      List.flatMap_cons] at hunits
    have hlen : (slice s.buf (s.offset + 2 * i) 2).length = 2 := by
      rw [length_slice]
      omega
    obtain ⟨hhead, htail⟩ := List.append_inj hunits (by rw [hlen, Env.length_octets])
    have hnumber : env.number (slice s.buf (s.offset + 2 * i) 2) = u := by
      rw [hhead, Env.number_octets]
      exact Nat.mod_eq_of_lt (hlt u List.mem_cons_self)
    have hfirst : (patch s.buf (s.offset + 2 * i) (le 2 u)).length = s.buf.length :=
      length_patch (by rw [length_le]; omega)
    have hrest := ih (s := { s with buf := patch s.buf (s.offset + 2 * i) (le 2 u) })
      (fun v hv => hlt v (List.mem_cons_of_mem u hv)) heven (i + 1)
      (by dsimp only; rw [hfirst]; omega)
      (by
        dsimp only
        rw [slice_patch_after (by omega) (by rw [length_le]; omega)]
        exact htail)
    have hbehind : patch (patch s.buf (s.offset + 2 * i) (le 2 u))
        (s.offset + 2 * i + (le 2 u).length) (utf16Octets us) =
        patch s.buf (s.offset + 2 * i) (utf16Octets (u :: us)) :=
      patch_behind (by rw [length_le, length_utf16Octets]; omega)
    rw [length_le] at hbehind
    dsimp only at hrest
    rw [show s.offset + 2 * (i + 1) = s.offset + 2 * i + 2 by omega, hbehind] at hrest
    rw [List.length_cons, swapUnits, Run.get_bind, halign]
    dsimp only
    rw [if_neg (by omega), hnumber, Run.modify_bind]
    exact hrest

/-- The second pass over a string converts the code units that stand there. -/
theorem ndrDecodeUtf16_octets {u : Utf16} (hfits : s.heap.Fits a 8)
    (hcell : s.heap.cell a = u.cell) (hpass : s.isConformanceRun = false) (heven : 2 ∣ s.offset)
    (hlt : ∀ v ∈ us, v < 65536) (hcount : u.actualCount = us.length)
    (hroom : s.offset + 2 * us.length ≤ s.buf.length)
    (hunits : slice s.buf s.offset (2 * us.length) = us.flatMap (env.octets 2)) :
    ∃ buf, (ndrDecodeUtf16 env a).run s = .done () { s with
      buf := buf
      offset := s.offset + 2 * us.length
      heap := s.heap.put a (Utf16.cell { u with utf8 := .text (.ofBytes (utf16ToUtf8 us)) }) } := by
  have hmod := Nat.mod_le (s.offset + 2 * us.length) 4294967296
  rw [ndrDecodeUtf16, Run.get_bind, Run.run_bind, loadUtf16_run hfits hcell, Run.andThen_done,
    if_neg (by simp [hpass]), hcount, if_neg (by omega)]
  simp only [Run.run_ite, Run.run_bind]
  cases hlittle : env.littleEndian with
  | true =>
    have horder : env.octets 2 = le 2 := by
      funext n
      simp [Env.octets, hlittle]
    have hsame : slice s.buf s.offset (2 * us.length) = utf16Octets us := by
      rw [hunits, horder, utf16Octets]
    have hconvert := convertUnits_run (u := u) hfits
    rw [hcount, if_neg (by omega), hsame, utf16Units_utf16Octets hlt] at hconvert
    refine ⟨s.buf, ?_⟩
    rw [if_neg (by decide)]
    exact hconvert
  | false =>
    have hswap := @swapUnits_octets κ env s us hlt heven 0 (by simpa using hroom)
      (by simpa using hunits)
    rw [Nat.mul_zero, Nat.add_zero] at hswap
    have hlen : (patch s.buf s.offset (utf16Octets us)).length = s.buf.length :=
      length_patch (by rw [length_utf16Octets]; exact hroom)
    have hsame : slice (patch s.buf s.offset (utf16Octets us)) s.offset (2 * us.length) =
        utf16Octets us := by
      rw [← length_utf16Octets us]
      exact slice_patch_same (by omega)
    have hconvert := convertUnits_run (u := u)
      (s := { s with buf := patch s.buf s.offset (utf16Octets us) }) hfits
    dsimp only at hconvert
    rw [hcount, hlen, if_neg (by omega), hsame, utf16Units_utf16Octets hlt] at hconvert
    refine ⟨patch s.buf s.offset (utf16Octets us), ?_⟩
    rw [if_pos (by decide), hswap, Run.andThen_done]
    exact hconvert

/-- A string without a terminator, behind its counts. -/
def stringOctets (env : Env) (us : List Nat) : Bytes :=
  countOctets env false us ++ us.flatMap (env.octets 2)

theorem length_stringOctets : (stringOctets env us).length = 3 * env.word + 2 * us.length := by
  rw [stringOctets, List.length_append, length_countOctets, length_flatMap_octets]

/-- The first and the third of the counts. -/
theorem slice_stringOctets :
    slice (stringOctets env us) 0 env.word = env.octets env.word (maxCountOf false us.length)
    ∧ slice (stringOctets env us) (2 * env.word) env.word =
      env.octets env.word (actualCountOf false us.length) := by
  have hwhole : stringOctets env us = env.octets env.word (maxCountOf false us.length) ++
      (env.octets env.word 0 ++ (env.octets env.word (actualCountOf false us.length) ++
        us.flatMap (env.octets 2))) := by
    simp [stringOctets, countOctets]
  rw [hwhole]
  refine ⟨?_, ?_⟩
  · rw [slice_append_left (by simp)]
    exact slice_zero (by simp)
  · rw [slice_append_right (by simp; omega), slice_append_right (by simp; omega),
      slice_append_left (by simp; omega)]
    have hzero : 2 * env.word - (env.octets env.word (maxCountOf false us.length)).length -
        (env.octets env.word 0).length = 0 := by
      simp
      omega
    rw [hzero]
    exact slice_zero (by simp)

/-- **A string is written** behind its counts. -/
theorem ndrUtf16Coder_encodes (hdir : env.direction = .encode) (hfits : s.heap.Fits a 8)
    (hunits : unitsOf (s.heap.cell a) = some us)
    (hroom : alignUp env.word s.offset + (3 * env.word + 2 * us.length) ≤ s.buf.length) :
    (ndrDoCoder (ndrUtf16Coder env a)).run s = .done () { s with
      buf := patch s.buf (alignUp env.word s.offset) (stringOctets env us)
      offset := alignUp env.word s.offset + (3 * env.word + 2 * us.length)
      maxAlignment := 2
      isConformanceRun := false } := by
  have hplain : unitOctets env false us = us.flatMap (env.octets 2) := List.append_nil _
  obtain ⟨hdone, -, -⟩ := ndrUtf16zCoder_encodes hdir hfits false hunits
  rw [hplain, length_flatMap_octets, Nat.add_assoc] at hdone
  exact hdone hroom

/-- **A string that was written is read back**: the field holds its UTF-8 form. -/
theorem ndrUtf16Coder_decodes (hdir : env.direction = .decode) (hfits : s.heap.Fits a 8)
    (hlt : ∀ u ∈ us, u < 65536) (hcount : us.length < 4294967296)
    (hroom : alignUp env.word s.offset + (3 * env.word + 2 * us.length) ≤ s.buf.length)
    (hoctets : slice s.buf (alignUp env.word s.offset) (3 * env.word + 2 * us.length) =
      stringOctets env us) :
    ∃ buf, (ndrDoCoder (ndrUtf16Coder env a)).run s = .done () { s with
      buf := buf
      offset := alignUp env.word s.offset + (3 * env.word + 2 * us.length)
      maxAlignment := 2
      heap := s.heap.put a (.text (.ofBytes (utf16ToUtf8 us)))
      isConformanceRun := false } := by
  obtain ⟨hstart, heven⟩ := unitsStart_eq env s
  have hword := word_pos env
  have hunits : slice s.buf (alignUp env.word s.offset + 3 * env.word) (2 * us.length) =
      us.flatMap (env.octets 2) := by
    rw [← slice_slice (n := 3 * env.word + 2 * us.length) (by omega), hoctets, stringOctets,
      slice_append_right (by rw [length_countOctets]), length_countOctets, Nat.sub_self]
    exact slice_zero (by rw [length_flatMap_octets])
  have hactual : unitsCount env s = us.length := by
    have hthird : slice s.buf (alignUp env.word s.offset + 2 * env.word) env.word =
        env.octets env.word (actualCountOf false us.length) := by
      rw [← slice_slice (n := 3 * env.word + 2 * us.length) (by omega), hoctets]
      exact slice_stringOctets.2
    have hpow : (4294967296 : Nat) ∣ 256 ^ env.word := by
      unfold Env.word
      split <;> decide
    rw [unitsCount, Env.count, hthird, Env.number_octets, Nat.mod_mod_of_dvd _ hpow]
    show us.length % 4294967296 % 4294967296 = us.length
    omega
  obtain ⟨u, hu, hrun⟩ := ndrUtf16zCoder_counts (s := s) false hdir hfits (by omega)
  rw [hactual] at hu
  obtain ⟨buf, hbuf⟩ := @ndrDecodeUtf16_octets κ env { s with
      offset := unitsStart env s
      maxAlignment := 2
      isConformanceRun := false
      heap := s.heap.put a u.cell } a us u
    (Heap.fits_put.mpr hfits) (Heap.cell_put hfits) rfl heven hlt hu
    (by dsimp only; omega) (by dsimp only; rw [hstart]; exact hunits)
  dsimp only at hbuf
  rw [Heap.put_put] at hbuf
  have hback := swapBack_run (a := a)
    (u := { u with utf8 := .text (.ofBytes (utf16ToUtf8 us)) })
    (s := { s with
      buf := buf
      offset := unitsStart env s + 2 * us.length
      maxAlignment := 2
      isConformanceRun := false
      heap := s.heap.put a (Utf16.cell { u with utf8 := .text (.ofBytes (utf16ToUtf8 us)) }) })
    (Heap.fits_put.mpr hfits) (Heap.cell_put hfits)
  dsimp only at hback
  rw [Heap.put_put] at hback
  refine ⟨buf, ?_⟩
  rw [ndrUtf16Coder, hrun, ndrUtf16zCoder', Run.get_bind, if_neg (by simp), hdir,
    Run.run_thenAlways]
  dsimp only
  rw [hbuf]
  dsimp only
  rw [hback, hstart, Nat.add_assoc]
  rfl

end

/-! ## What a pointer names -/

/-- A state of the second pass in which no pointer waits to be followed, and one more can. -/
structure Quiet {κ : Type} (s : State κ) : Prop where
  pass : s.isConformanceRun = false
  drained : s.curPtr = s.ptrs.length
  room : s.ptrs.length < MAX_DEFERRED_PTR

section
variable {κ : Type} {run : κ → Addr → Ndr κ Unit} {s : State κ}

theorem processDeferred_drained (turns : Nat) (h : s.curPtr = s.ptrs.length) :
    (dcerpcProcessDeferredPointers run (turns + 1)).run s = .done () s := by
  rw [dcerpcProcessDeferredPointers, Run.get_bind, if_pos h]
  rfl

/-- The label `out` where no pointer waits. -/
theorem ptrOut_drained (h : s.curPtr = s.ptrs.length) : (ptrOut run).run s = .done () s := by
  rw [ptrOut, Run.get_bind]
  by_cases htop : s.topLevel = true
  · have hnone : (dcerpcProcessDeferredPointers run (MAX_DEFERRED_PTR + 1)).run
        { s with topLevel := false } = .done () { s with topLevel := false } :=
      processDeferred_drained MAX_DEFERRED_PTR h
    rw [if_pos htop, setTopLevel, Run.modify_bind, Run.bind_done hnone, htop, setTopLevel,
      Run.run_modify]
    dsimp only
    rw [← htop]
  · rw [if_neg htop]
    rfl

/-- A coder ends with this buffer and this memory, and leaves the pointers alone. -/
def Codes (P : Bytes → Heap → Prop) (coder : Ndr κ Unit) (s : State κ) : Prop :=
  ∃ t, coder.run s = .done () t ∧ P t.buf t.heap ∧ t.ptrs = s.ptrs ∧ t.curPtr = s.curPtr

variable {k : κ} {a : Addr} {P : Bytes → Heap → Prop}

/-- What a pointer names is coded where the pointer ends, at once or as the next of those that
wait. -/
theorem Quiet.followed (h : Quiet s)
    (hbody : ∀ r : State κ, r.buf = s.buf → r.offset = s.offset → r.heap = s.heap →
      Codes P (ndrDoCoder (run k a)) r) :
    ∃ t, ((follow run k a >>= fun _ => ptrOut run) >>= fun _ =>
        dcerpcProcessDeferredPointers run (MAX_DEFERRED_PTR + 1)).run s = .done () t
      ∧ P t.buf t.heap := by
  rw [bind_assoc]
  by_cases htop : s.topLevel = true
  · obtain ⟨t, ht, hcoded, hptrs, hcur⟩ := hbody { s with topLevel := false } rfl rfl rfl
    have hfollow : (follow run k a).run s = .done () { t with topLevel := s.topLevel } := by
      rw [follow, Run.get_bind, if_pos htop, setTopLevel, Run.modify_bind, Run.bind_done ht]
      rfl
    have hdrained : t.curPtr = t.ptrs.length := by
      rw [hcur, hptrs]
      exact h.drained
    have hout := @ptrOut_drained κ run { t with topLevel := s.topLevel } hdrained
    rw [Run.bind_done hfollow, Run.bind_done hout]
    exact ⟨_, processDeferred_drained _ hdrained, hcoded⟩
  · have hfull : ¬ MAX_DEFERRED_PTR ≤ s.ptrs.length := Nat.not_le.mpr h.room
    have hfollow : (follow run k a).run s = .done () { s with ptrs := s.ptrs ++ [(k, a)] } := by
      rw [follow, Run.get_bind, if_neg htop, dcerpcAddDeferredPointer, Run.get_bind, if_neg hfull]
      rfl
    have hout : (ptrOut run).run { s with ptrs := s.ptrs ++ [(k, a)] } =
        .done () { s with ptrs := s.ptrs ++ [(k, a)] } := by
      rw [ptrOut, Run.get_bind, if_neg htop]
      rfl
    obtain ⟨t, ht, hcoded, hptrs, hcur⟩ := hbody
      { s with ptrs := s.ptrs ++ [(k, a)], curPtr := s.ptrs.length + 1 } rfl rfl rfl
    have hturn := @processDeferred_turn κ run MAX_DEFERRED_PTR
      { s with ptrs := s.ptrs ++ [(k, a)] } k a s.ptrs rfl h.drained
    have hdrained : t.curPtr = t.ptrs.length := by
      rw [hcur, hptrs]
      simp
    rw [Run.bind_done hfollow, Run.bind_done hout, hturn]
    dsimp only
    rw [ht, Run.andThen_done]
    exact ⟨t, processDeferred_drained (MAX_DEFERRED_PTR - 1) hdrained, hcoded⟩

end

/-! ## The lengths -/

theorem four_le_word (env : Env) : 4 ≤ env.word := by
  unfold Env.word
  split <;> decide

theorem four_dvd_word (env : Env) : 4 ∣ env.word := by
  unfold Env.word
  split <;> decide

/-- `Length` counts octets, modulo 2^16. -/
theorem unicodeLength_eq (strlen : Nat) : unicodeLength strlen = 2 * (strlen % 32768) := by
  unfold unicodeLength
  omega

/-- `MaximumLength` is rounded as `max_count` is. -/
theorem unicodeMaxLength_eq {n : Nat} (h : n < 32767) :
    unicodeMaxLength (2 * n) = 2 * maxCountOf false n := by
  have hbit : (2 * n) &&& 0x02 = 2 * (n % 2) := by
    have hand : (n &&& 1) <<< 1 = n <<< 1 &&& 1 <<< 1 := Nat.shiftLeft_and_distrib
    rw [Nat.and_one_is_mod, Nat.shiftLeft_eq, Nat.shiftLeft_eq] at hand
    rw [Nat.mul_comm 2 n, Nat.mul_comm 2]
    exact hand.symm
  unfold unicodeMaxLength maxCountOf
  rw [hbit]
  rcases Nat.mod_two_eq_zero_or_one n with hn | hn
  · simp [hn]
    omega
  · simp [hn]
    omega

/-- The lengths of a string with so many octets. -/
def headerLengths (env : Env) (strlen : Nat) : Bytes :=
  env.octets 2 (unicodeLength strlen) ++
    env.octets 2 (unicodeMaxLength (unicodeLength strlen))

theorem length_headerLengths (env : Env) (strlen : Nat) :
    (headerLengths env strlen).length = 4 := by
  simp [headerLengths]

section
variable {env : Env} {s : State Lsa} {a : Addr}

/-- The lengths are written where they are expected. -/
theorem unicodeHeaderCoder_encodes (hdir : env.direction = .encode)
    (hpass : s.isConformanceRun = false) (hfits : s.heap.Fits a 8) {str : CString}
    (hcell : s.heap.cell a = .text str) (hroom : alignUp env.word s.offset + 4 ≤ s.buf.length) :
    (unicodeHeaderCoder env a).run s = .done () { s with
      buf := patch s.buf (alignUp env.word s.offset) (headerLengths env str.octets.length)
      offset := alignUp env.word s.offset + 4 } := by
  have heven : 2 ∣ alignUp env.word s.offset :=
    (Nat.dvd_trans (by decide) (four_dvd_word env)).trans (dvd_alignUp _ _)
  have hwrites : Writes (κ := Lsa) false (alignUp env.word s.offset) (do
      let _ ← ndrUint16Coder env (unicodeLength str.octets.length)
      let _ ← ndrUint16Coder env (unicodeMaxLength (unicodeLength str.octets.length))
      pure ()) () (headerLengths env str.octets.length ++ []) := by
    rw [headerLengths, List.append_assoc]
    apply (ndrUintCoder_writes hdir _ (by decide) heven).bind (env.length_octets 2 _)
    apply (ndrUintCoder_writes hdir _ (by decide) (Nat.dvd_add_self_right.mpr heven)).bind
      (env.length_octets 2 _)
    exact .pure ()
  obtain ⟨hdone, -⟩ := hwrites { s with offset := alignUp env.word s.offset } rfl hpass
  rw [List.append_nil, length_headerLengths] at hdone
  have hlengths : (unicodeLengths env a).run { s with offset := alignUp env.word s.offset } =
      .done (unicodeLength str.octets.length, unicodeMaxLength (unicodeLength str.octets.length))
        { s with offset := alignUp env.word s.offset } := by
    rw [unicodeLengths, hdir]
    dsimp only
    rw [Run.run_bind, load_run, if_pos (hfits.mono (by decide)), Run.andThen_done, hcell]
    rfl
  rw [unicodeHeaderCoder, Run.modify_bind, Run.bind_done hlengths]
  exact hdone hroom

/-- The lengths are skipped, if they are there. -/
theorem unicodeHeaderCoder_decodes (hdir : env.direction = .decode)
    (hpass : s.isConformanceRun = false) :
    (alignUp env.word s.offset + 4 ≤ s.buf.length → (unicodeHeaderCoder env a).run s =
      .done () { s with offset := alignUp env.word s.offset + 4 })
    ∧ (s.buf.length < alignUp env.word s.offset + 4 →
      ∃ t, (unicodeHeaderCoder env a).run s = .fail t) := by
  have heven : 2 ∣ alignUp env.word s.offset :=
    (Nat.dvd_trans (by decide) (four_dvd_word env)).trans (dvd_alignUp _ _)
  have hreads : Reads (κ := Lsa) s.buf (alignUp env.word s.offset) (2 + 2) (do
      let _ ← ndrUint16Coder env 0
      let _ ← ndrUint16Coder env 0
      pure ()) () :=
    (ndrUint16Coder_reads hdir 0 heven).bind
      ((ndrUint16Coder_reads hdir 0 (Nat.dvd_add_self_right.mpr heven)).map fun _ => ())
  rw [unicodeHeaderCoder, Run.modify_bind, unicodeLengths, hdir]
  exact hreads { s with offset := alignUp env.word s.offset } rfl rfl hpass

end

/-! ## The whole of a string -/

/-- A string, and what its pointer names. -/
def codeString (env : Env) (a : Addr) : Ndr Lsa Unit := do
  lsaRpcUnicodeStringCoder env (lsaRun env) a
  dcerpcProcessDeferredPointers (lsaRun env) (MAX_DEFERRED_PTR + 1)

/-- A buffer in which a string is encoded at an offset. -/
def withString (env : Env) (buf : Bytes) (o strlen : Nat) (us : List Nat) : Bytes :=
  patch (patch (patch buf o (headerLengths env strlen))
    (o + env.word) (env.octets env.word UPTR))
    (o + 2 * env.word) (stringOctets env us)

section
variable {env : Env} {buf : Bytes} {o strlen : Nat} {us : List Nat}
  (hroom : o + 5 * env.word + 2 * us.length ≤ buf.length)

include hroom

theorem length_withPointer : (patch buf o (headerLengths env strlen)).length = buf.length
    ∧ (patch (patch buf o (headerLengths env strlen)) (o + env.word)
      (env.octets env.word UPTR)).length = buf.length := by
  have hword := four_le_word env
  have hfirst : (patch buf o (headerLengths env strlen)).length = buf.length :=
    length_patch (by rw [length_headerLengths]; omega)
  refine ⟨hfirst, ?_⟩
  rw [length_patch, hfirst]
  rw [Env.length_octets, hfirst]
  omega

theorem length_withString : (withString env buf o strlen us).length = buf.length := by
  obtain ⟨-, hlen⟩ := @length_withPointer env buf o strlen us hroom
  rw [withString, length_patch, hlen]
  rw [length_stringOctets, hlen]
  omega

/-- The lengths stand in front. -/
theorem slice_withString_lengths :
    slice (withString env buf o strlen us) o 4 = headerLengths env strlen := by
  have hword := four_le_word env
  obtain ⟨hfirst, hlen⟩ := @length_withPointer env buf o strlen us hroom
  rw [withString, slice_patch_before (by omega) (by omega),
    slice_patch_before (by omega) (by omega), ← length_headerLengths env strlen]
  exact slice_patch_same (by omega)

/-- The pointer stands behind them. -/
theorem slice_withString_pointer :
    slice (withString env buf o strlen us) (o + env.word) env.word =
      env.octets env.word UPTR := by
  obtain ⟨hfirst, hlen⟩ := @length_withPointer env buf o strlen us hroom
  have hsame : slice (patch (patch buf o (headerLengths env strlen)) (o + env.word)
      (env.octets env.word UPTR)) (o + env.word) (env.octets env.word UPTR).length =
      env.octets env.word UPTR := slice_patch_same (by omega)
  rw [Env.length_octets] at hsame
  rw [withString, slice_patch_before (by omega) (by omega)]
  exact hsame

/-- The string stands behind the pointer. -/
theorem slice_withString_string :
    slice (withString env buf o strlen us) (o + 2 * env.word) (3 * env.word + 2 * us.length) =
      stringOctets env us := by
  obtain ⟨hfirst, hlen⟩ := @length_withPointer env buf o strlen us hroom
  rw [withString, ← length_stringOctets]
  exact slice_patch_same (by omega)

end

section
variable {env : Env} {s : State Lsa} {a : Addr} {str : CString} {us : List Nat}

/-- The pointer of a string is aligned behind its lengths. -/
theorem alignUp_add_four {o : Nat} (h : env.word ∣ o) :
    alignUp env.word (o + 4) = o + env.word := by
  obtain ⟨k, rfl⟩ := h
  rw [alignUp]
  unfold Env.word
  split <;> omega

/-- **A string is encoded**: the lengths, the pointer, the counts and the code units. -/
theorem codeString_encodes (hdir : env.direction = .encode) (hquiet : Quiet s)
    (hfits : s.heap.Fits a 8) (hcell : s.heap.cell a = .text str)
    (hunits : utf8ToUtf16 str.octets = some us)
    (hroom : alignUp env.word s.offset + 5 * env.word + 2 * us.length ≤ s.buf.length) :
    ∃ t, (codeString env a).run s = .done () t
      ∧ t.buf = withString env s.buf (alignUp env.word s.offset) str.octets.length us := by
  have hword := four_le_word env
  obtain ⟨hfirst, hlen⟩ := @length_withPointer env s.buf _ str.octets.length us hroom
  have hheader := unicodeHeaderCoder_encodes hdir hquiet.pass hfits hcell (by omega)
  generalize ho : alignUp env.word s.offset = o at *
  have hbehind : alignUp env.word (o + 4) = o + env.word :=
    alignUp_add_four (ho ▸ dvd_alignUp env.word s.offset)
  have hset := dcerpcSet_run env env.word UPTR { s with
    buf := patch s.buf o (headerLengths env str.octets.length)
    offset := o + 4 }
  dsimp only at hset
  rw [hbehind, hfirst, if_neg (by omega)] at hset
  have hpointer : (ndrUint3264Coder env UPTR).run { s with
      buf := patch s.buf o (headerLengths env str.octets.length)
      offset := o + 4 } = .done UPTR { s with
        buf := patch (patch s.buf o (headerLengths env str.octets.length)) (o + env.word)
          (env.octets env.word UPTR)
        offset := o + env.word + env.word } := by
    rw [ndrUint3264Coder, ndrUintCoder, Run.get_bind, if_neg (by simp [hquiet.pass]), hdir]
    exact Run.bind_done hset
  have hdvd : env.word ∣ o + env.word + env.word := by
    rw [Nat.dvd_add_self_right, Nat.dvd_add_self_right, ← ho]
    exact dvd_alignUp _ _
  have hplace : alignUp env.word (o + env.word + env.word) = o + 2 * env.word := by
    rw [alignUp_of_dvd (word_pos env) hdvd]
    omega
  have hbody : ∀ r : State Lsa,
      r.buf = patch (patch s.buf o (headerLengths env str.octets.length)) (o + env.word)
        (env.octets env.word UPTR) → r.offset = o + env.word + env.word → r.heap = s.heap →
      Codes (fun buf _ => buf = withString env s.buf o str.octets.length us)
        (ndrDoCoder (lsaRun env .utf16 a)) r := by
    intro r hbuf hoff hheap
    have hwritten := @ndrUtf16Coder_encodes Lsa env r a us hdir
      (by rw [hheap]; exact hfits) (by rw [hheap, hcell]; exact hunits)
      (by rw [hoff, hplace, hbuf, hlen]; omega)
    rw [hoff, hplace, hbuf] at hwritten
    exact ⟨_, hwritten, rfl, rfl, rfl⟩
  obtain ⟨t, ht, hbuf⟩ := Quiet.followed (s := { s with
    buf := patch (patch s.buf o (headerLengths env str.octets.length)) (o + env.word)
      (env.octets env.word UPTR)
    offset := o + env.word + env.word }) ⟨hquiet.pass, hquiet.drained, hquiet.room⟩ hbody
  refine ⟨t, ?_, hbuf⟩
  rw [codeString, lsaRpcUnicodeStringCoder, bind_assoc, Run.bind_done hheader, ndrPtrCoder, hdir]
  dsimp only
  rw [ndrEncodePtr, Run.run_bind, Run.get_bind, if_neg (by simp [hquiet.pass]), ← Run.run_bind,
    bind_assoc, Run.bind_done hpointer]
  exact ht

/-- The pointer of a string is not null. -/
theorem uptr_ne_zero (env : Env) : UPTR % 256 ^ env.word ≠ 0 := by
  unfold Env.word
  split <;> decide

/-- **An encoded string is decoded** to what it was. -/
theorem codeString_decodes (hdir : env.direction = .decode) (hquiet : Quiet s)
    (hfits : s.heap.Fits a 8) (hunits : utf8ToUtf16 str.octets = some us)
    (hcount : us.length < 4294967296)
    (hroom : alignUp env.word s.offset + 5 * env.word + 2 * us.length ≤ s.buf.length)
    (hpointer : slice s.buf (alignUp env.word s.offset + env.word) env.word =
      env.octets env.word UPTR)
    (hstring : slice s.buf (alignUp env.word s.offset + 2 * env.word)
      (3 * env.word + 2 * us.length) = stringOctets env us) :
    ∃ t, (codeString env a).run s = .done () t ∧ t.heap.cell a = .text str := by
  have hword := four_le_word env
  have hheader := (unicodeHeaderCoder_decodes (a := a) hdir hquiet.pass).1 (by omega)
  have hback : CString.ofBytes (utf16ToUtf8 us) = str := by
    rw [utf16ToUtf8_utf8ToUtf16 hunits]
    exact CString.ext_octets (CString.ofBytes_octets str)
  generalize ho : alignUp env.word s.offset = o at *
  have hbehind : alignUp env.word (o + 4) = o + env.word :=
    alignUp_add_four (ho ▸ dvd_alignUp env.word s.offset)
  have hread : (ndrUint3264Coder env 0).run { s with offset := o + 4 } =
      .done (UPTR % 256 ^ env.word) { s with offset := o + env.word + env.word } := by
    rw [ndrUint3264Coder, ndrUintCoder, Run.get_bind, if_neg (by simp [hquiet.pass]), hdir,
      dcerpcGet_run]
    dsimp only
    rw [hbehind, if_neg (by omega), hpointer, Env.number_octets]
  have hdvd : env.word ∣ o + env.word + env.word := by
    rw [Nat.dvd_add_self_right, Nat.dvd_add_self_right, ← ho]
    exact dvd_alignUp _ _
  have hplace : alignUp env.word (o + env.word + env.word) = o + 2 * env.word := by
    rw [alignUp_of_dvd (word_pos env) hdvd]
    omega
  have hbody : ∀ r : State Lsa, r.buf = s.buf → r.offset = o + env.word + env.word →
      r.heap = s.heap → Codes (fun _ heap => heap.cell a = .text str)
        (ndrDoCoder (lsaRun env .utf16 a)) r := by
    intro r hbuf hoff hheap
    have hfits' : r.heap.Fits a 8 := by
      rw [hheap]
      exact hfits
    obtain ⟨buf, hdecoded⟩ := @ndrUtf16Coder_decodes Lsa env r a us hdir hfits'
      (utf8ToUtf16_eq_some.mp hunits).lt hcount (by rw [hoff, hplace, hbuf]; omega)
      (by rw [hoff, hplace, hbuf]; exact hstring)
    rw [hback] at hdecoded
    exact ⟨_, hdecoded, Heap.cell_put hfits', rfl, rfl⟩
  obtain ⟨t, ht, hcell⟩ := Quiet.followed (s := { s with offset := o + env.word + env.word })
    ⟨hquiet.pass, hquiet.drained, hquiet.room⟩ hbody
  refine ⟨t, ?_, hcell⟩
  rw [codeString, lsaRpcUnicodeStringCoder, bind_assoc, Run.bind_done hheader, ndrPtrCoder, hdir]
  dsimp only
  rw [ndrDecodePtr, Run.run_bind, Run.get_bind, if_neg (by simp [hquiet.pass]), ← Run.run_bind,
    bind_assoc, Run.bind_done hread]
  obtain ⟨p, hp⟩ := Nat.exists_eq_succ_of_ne_zero (uptr_ne_zero env)
  rw [hp]
  exact ht

end

/-! ## The lengths and the counts -/

/-- `Length` and `MaximumLength` of the string at an offset are twice its `actual_count` and its
`max_count`. -/
structure HeaderAgrees (env : Env) (buf : Bytes) (o : Nat) : Prop where
  length : env.number (slice buf o 2) =
    2 * env.number (slice buf (o + 4 * env.word) env.word)
  maximumLength : env.number (slice buf (o + 2) 2) =
    2 * env.number (slice buf (o + 2 * env.word) env.word)

def Env.encoding (env : Env) : Env := { env with direction := .encode }

def Env.decoding (env : Env) : Env := { env with direction := .decode }

/-- Wherever there is room for it, a string of these code units is encoded so that its header
agrees with its body, and decoded to what it was. -/
def UnicodeStringAgrees (env : Env) (str : CString) (us : List Nat) : Prop :=
  ∀ (s : State Lsa) (a : Addr), Quiet s → s.heap.Fits a 8 → s.heap.cell a = .text str →
    alignUp env.word s.offset + 5 * env.word + 2 * us.length ≤ s.buf.length →
    ∃ t, (codeString env.encoding a).run s = .done () t
      ∧ HeaderAgrees env t.buf (alignUp env.word s.offset)
      ∧ ∀ (r : State Lsa) (b : Addr), Quiet r → r.heap.Fits b 8 → r.buf = t.buf →
        r.offset = s.offset →
        ∃ r', (codeString env.decoding b).run r = .done () r' ∧ r'.heap.cell b = .text str

section
variable {env : Env} {buf : Bytes} {o strlen : Nat} {us : List Nat}
  (hroom : o + 5 * env.word + 2 * us.length ≤ buf.length) (hshort : us.length < 32767)

include hroom

/-- `Length` and `MaximumLength` in the buffer. -/
theorem number_lengths :
    env.number (slice (withString env buf o strlen us) o 2) = unicodeLength strlen
    ∧ env.number (slice (withString env buf o strlen us) (o + 2) 2) =
      unicodeMaxLength (unicodeLength strlen) := by
  have hlengths := @slice_withString_lengths env buf o strlen us hroom
  have hword := four_le_word env
  rw [show 4 = 2 + 2 from rfl, slice_add, headerLengths] at hlengths
  have hfirst : (slice (withString env buf o strlen us) o 2).length = 2 := by
    rw [length_slice, length_withString hroom]
    omega
  obtain ⟨hlen, hmax⟩ := List.append_inj hlengths (by rw [hfirst, Env.length_octets])
  rw [hlen, hmax, Env.number_octets, Env.number_octets]
  unfold unicodeMaxLength unicodeLength
  omega

include hshort

/-- `max_count` and `actual_count` in the buffer. -/
theorem number_counts :
    env.number (slice (withString env buf o strlen us) (o + 2 * env.word) env.word) =
      maxCountOf false us.length
    ∧ env.number (slice (withString env buf o strlen us) (o + 4 * env.word) env.word) =
      us.length := by
  have hstring := @slice_withString_string env buf o strlen us hroom
  obtain ⟨hmax, hactual⟩ := @slice_stringOctets env us
  have hpow : 65536 ≤ 256 ^ env.word := by
    unfold Env.word
    split <;> decide
  rw [← hstring, slice_slice (by omega)] at hmax hactual
  rw [show o + 2 * env.word + 2 * env.word = o + 4 * env.word by omega] at hactual
  rw [Nat.add_zero] at hmax
  rw [hmax, hactual, Env.number_octets, Env.number_octets]
  refine ⟨Nat.mod_eq_of_lt ?_, ?_⟩
  · unfold maxCountOf
    simp only [Bool.not_false, Bool.true_and, decide_eq_true_eq, Bool.false_eq_true, if_false]
    split <;> omega
  · show us.length % 4294967296 % 256 ^ env.word = us.length
    rw [Nat.mod_eq_of_lt (by omega), Nat.mod_eq_of_lt (by omega)]

/-- **The header agrees with the body** if and only if the UTF-8 form has as many octets as the
UTF-16 form has code units, modulo 2^15. -/
theorem headerAgrees_iff :
    HeaderAgrees env (withString env buf o strlen us) o ↔ strlen % 32768 = us.length := by
  obtain ⟨hlen, hmax⟩ := @number_lengths env buf o strlen us hroom
  obtain ⟨hmaxCount, hactual⟩ := @number_counts env buf o strlen us hroom hshort
  constructor
  · intro h
    have hsame := h.length
    rw [hlen, hactual, unicodeLength_eq] at hsame
    omega
  · intro h
    have hsame : unicodeLength strlen = 2 * us.length := by rw [unicodeLength_eq, h]
    refine ⟨?_, ?_⟩
    · rw [hlen, hactual, hsame]
    · rw [hmax, hmaxCount, hsame, unicodeMaxLength_eq hshort]

end

/-- A string in a field of its own, and room for so many octets. -/
def textAt (str : CString) (room : Nat) : State Lsa where
  buf := zeros room
  offset := 0
  heap := [⟨8, fun _ => .text str⟩]
  topLevel := false
  ptrId := 0
  curPtr := 0
  ptrs := []
  isConformanceRun := false
  maxAlignment := 1
  sizeIs := 0
  switchIs := 0

section
variable {env : Env} {str : CString} {us : List Nat} (hunits : utf8ToUtf16 str.octets = some us)
  (hshort : us.length < 32767)

include hunits hshort

/-- Where the header agrees with the body there are as many octets as code units. -/
theorem UnicodeStringAgrees.length (h : UnicodeStringAgrees env str us) :
    str.octets.length % 32768 = us.length := by
  have hstart : alignUp env.encoding.word 0 = 0 := alignUp_of_dvd (word_pos _) (Nat.dvd_zero _)
  have hquiet : Quiet (textAt str (5 * env.word + 2 * us.length)) :=
    ⟨rfl, rfl, Nat.zero_lt_succ _⟩
  have hfits : (textAt str (5 * env.word + 2 * us.length)).heap.Fits ⟨0, 0⟩ 8 :=
    ⟨_, rfl, Nat.le_refl _⟩
  have hroom : 0 + 5 * env.word + 2 * us.length ≤
      (zeros (5 * env.word + 2 * us.length)).length := by
    rw [length_zeros]
    omega
  have hroom' : alignUp env.word (textAt str (5 * env.word + 2 * us.length)).offset +
      5 * env.word + 2 * us.length ≤ (textAt str (5 * env.word + 2 * us.length)).buf.length := by
    show alignUp env.encoding.word 0 + _ + _ ≤ _
    rw [hstart]
    exact hroom
  obtain ⟨t, ht, hagrees, -⟩ := h _ ⟨0, 0⟩ hquiet hfits rfl hroom'
  obtain ⟨t', ht', hbuf⟩ := @codeString_encodes env.encoding _ _ str us rfl hquiet hfits rfl hunits
    hroom'
  rw [ht] at ht'
  cases ht'
  rw [hbuf] at hagrees
  change HeaderAgrees env (withString env _ (alignUp env.encoding.word 0) _ us)
    (alignUp env.encoding.word 0) at hagrees
  rw [hstart] at hagrees
  exact (headerAgrees_iff hroom hshort).mp hagrees

/-- **The header of an encoded string agrees with its body** if and only if its UTF-8 form has as
many octets as its UTF-16 form has code units, modulo 2^15. -/
theorem unicode_string_agrees_iff :
    UnicodeStringAgrees env str us ↔ str.octets.length % 32768 = us.length := by
  refine ⟨fun h => h.length hunits hshort, fun h s a hquiet hfits hcell hroom => ?_⟩
  obtain ⟨t, ht, hbuf⟩ := @codeString_encodes env.encoding s a str us rfl hquiet hfits hcell hunits
    hroom
  change t.buf = withString env s.buf (alignUp env.word s.offset) str.octets.length us at hbuf
  refine ⟨t, ht, ?_, ?_⟩
  · rw [hbuf]
    exact (headerAgrees_iff hroom hshort).mpr h
  · intro r b hquiet' hfits' hsame hoff
    have hlen : r.buf.length = s.buf.length := by
      rw [hsame, hbuf]
      exact length_withString hroom
    refine codeString_decodes rfl hquiet' hfits' hunits (by omega) ?_ ?_ ?_
    · rw [hlen, hoff]
      exact hroom
    · rw [hsame, hbuf, hoff]
      exact slice_withString_pointer hroom
    · rw [hsame, hbuf, hoff]
      exact slice_withString_string hroom

end

/-- The letter `A`. -/
theorem letter_agrees : UnicodeStringAgrees ndr32Reply ⟨[0x41], by decide⟩ [0x41] :=
  (unicode_string_agrees_iff (by decide) (by decide)).mpr (by decide)

/-- The letter `é`: `Length` is 4, and `actual_count` is 1. -/
theorem header_counts_octets : utf8ToUtf16 [0xc3, 0xa9] = some [0xe9] ∧
    ¬ UnicodeStringAgrees ndr32Reply ⟨[0xc3, 0xa9], by decide⟩ [0xe9] := by
  refine ⟨by decide, fun h => ?_⟩
  have hlen := h.length (by decide) (by decide)
  exact absurd hlen (by decide)

end Libsmb2.Dcerpc
