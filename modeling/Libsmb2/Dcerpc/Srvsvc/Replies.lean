import Libsmb2.Dcerpc.Srvsvc.Deferred
import Libsmb2.Dcerpc.Replies

/-!
# Replies of the server service

All pointers of a reply are deferred before the first string is decoded: the container, the array
in it, and the strings in every share.

* `container_process` — the pointers that follow a container;
* `deferred_stay_inside_iff` — when the pointers of a reply have room.
-/

set_option autoImplicit false

namespace Libsmb2.Dcerpc

open Util

/-! ## Levels -/

/-- The levels of information about a share. -/
inductive ShareLevel
  | level0
  | level1
  | level2
  deriving DecidableEq, Repr

namespace ShareLevel

def fields : ShareLevel → List Field
  | level0 => shareInfo0Fields
  | level1 => shareInfo1Fields
  | level2 => shareInfo2Fields

def size : ShareLevel → Nat
  | level0 => SHARE_INFO_0_SIZE
  | level1 => SHARE_INFO_1_SIZE
  | level2 => SHARE_INFO_2_SIZE

def struct : ShareLevel → Srvsvc
  | level0 => .shareInfo0Struct
  | level1 => .shareInfo1Struct
  | level2 => .shareInfo2Struct

def carray : ShareLevel → Srvsvc
  | level0 => .shareInfo0Carray
  | level1 => .shareInfo1Carray
  | level2 => .shareInfo2Carray

def container : ShareLevel → Srvsvc
  | level0 => .shareInfo0Container
  | level1 => .shareInfo1Container
  | level2 => .shareInfo2Container

/-- The level that a discriminant stands for. -/
def ofInt : Int → Option ShareLevel
  | 0 => some level0
  | 1 => some level1
  | 2 => some level2
  | _ => none

theorem ofInt_none {level : Int} (h0 : level ≠ 0) (h1 : level ≠ 1) (h2 : level ≠ 2) :
    ofInt level = none := by
  unfold ofInt
  split
  · exact absurd rfl h0
  · exact absurd rfl h1
  · exact absurd rfl h2
  · rfl

theorem size_le (l : ShareLevel) : l.size ≤ 56 := by
  cases l with
  | level0 => decide
  | level1 => decide
  | level2 => decide

/-- A share has a name. -/
theorem fields_eq (l : ShareLevel) : ∃ fs, l.fields = .string 0 :: fs := by
  cases l with
  | level0 => exact ⟨_, rfl⟩
  | level1 => exact ⟨_, rfl⟩
  | level2 => exact ⟨_, rfl⟩

theorem field_le (l : ShareLevel) : ∀ f ∈ l.fields, f.off + 4 ≤ l.size := by
  cases l with
  | level0 => decide
  | level1 => decide
  | level2 => decide

end ShareLevel

section

variable (env : Env) (run : SrvsvcRun) (l : ShareLevel) (a : Addr)

/-- What is done for the pointer that a level is for. -/
def levelRun (kind : ShareLevel → Srvsvc) (s : State Srvsvc) :
    Util.Outcome (State Srvsvc) Fault Unit :=
  match ShareLevel.ofInt s.switchIs with
  | none => .done () s
  | some l => (ndrPtrCoder env run (some a) .unique (kind l)).run s

theorem srvsvcCoder_struct : srvsvcCoder env run l.struct a = fieldsCoder env run a l.fields := by
  cases l with
  | level0 => rfl
  | level1 => rfl
  | level2 => rfl

theorem srvsvcCoder_carray : srvsvcCoder env run l.carray a
    = sharesCoder env l.size (fun a => fieldsCoder env run a l.fields) a := by
  cases l with
  | level0 => rfl
  | level1 => rfl
  | level2 => rfl

theorem srvsvcCoder_container : srvsvcCoder env run l.container a
    = containerCoder env run l.size l.carray a := by
  cases l with
  | level0 => rfl
  | level1 => rfl
  | level2 => rfl

theorem srvsvcShareEnumUnionCoder_run (s : State Srvsvc) :
    (srvsvcShareEnumUnionCoder env run a).run s = levelRun env run a ShareLevel.container s := by
  rw [srvsvcShareEnumUnionCoder, Run.get_bind, levelRun]
  generalize s.switchIs = level
  split
  · rfl
  · rfl
  · rfl
  · rw [ShareLevel.ofInt_none (by assumption) (by assumption) (by assumption)]
    rfl

theorem srvsvcShareInfoCoder_run (s : State Srvsvc) :
    (srvsvcShareInfoCoder env run a).run s = levelRun env run a ShareLevel.struct s := by
  rw [srvsvcShareInfoCoder, Run.get_bind, levelRun]
  generalize s.switchIs = level
  split
  · rfl
  · rfl
  · rfl
  · rw [ShareLevel.ofInt_none (by assumption) (by assumption) (by assumption)]
    rfl

end

/-! ## The pointers that follow a container -/

section

variable {env : Env} {s : State Srvsvc} {a : Addr} {pre : List (Srvsvc × Addr)} {turns : Nat}

theorem srvsvcRun_string (hdir : env.direction = .decode) {e : Srvsvc × Addr} (he : IsString e) :
    Settles (srvsvcRun env e.1 e.2) := by
  obtain ⟨k, b⟩ := e
  cases he
  exact ndrUtf16zCoder_settles hdir b true

/-- The array behind a container has memory for all that lies in the buffer. -/
theorem entries_fit {h : Heap} {b : Addr} {v elemSize len : Nat} (hfits : h.Fits b (v * elemSize))
    (hv : v < 4294967296) (hlen : len < 2147483648) {i : Nat} (hi : i < toUint64 (toInt32 v))
    (hin : 4 * i < len) : h.Fits (b.add (i * elemSize)) elemSize := by
  have hlt : i < v := by
    by_cases hsmall : v < 2147483648
    · rw [toInt32_of_lt hsmall, toUint64] at hi
      omega
    · omega
  apply hfits.add
  rw [← Nat.succ_mul]
  exact Nat.mul_le_mul_right _ hlt

/-- The pointers in an array of shares are deferred, as long as they have room, and followed. -/
theorem carray_process (hdir : env.direction = .decode) (l : ShareLevel) {b : Addr} {v : Nat}
    (hptrs : s.ptrs = pre ++ [(l.carray, b)]) (hcur : s.curPtr = pre.length)
    (hrun : s.isConformanceRun = false) (htop : s.topLevel = false)
    (hlen : s.buf.length < 2147483648) (hsize : s.sizeIs = toInt32 v) (hv : v < 4294967296)
    (hfits : s.heap.Fits b (v * l.size)) :
    let n := (scanShares env s.buf (toUint64 s.sizeIs) l.fields s.offset).count
    let process := (dcerpcProcessDeferredPointers (srvsvcRun env) (turns + 1)).run s
    (¬ NoRoom n s.ptrs.length → Drained process)
    ∧ (NoRoom n s.ptrs.length → process = .fault .deferred) := by
  obtain ⟨fs, hname⟩ := l.fields_eq
  have hsizes := l.field_le
  have hcoder := srvsvcCoder_carray env (fun _ _ => Run.fault .endless) l b
  rw [hname] at hsizes hcoder ⊢
  have hshares := shares_defers (s := { s with curPtr := pre.length + 1 }) hdir
    (fun _ _ => Run.fault .endless) hrun htop hsizes fun i hi hin => by
      rw [hsize] at hi
      exact entries_fit hfits hv hlen hi hin
  rw [← hcoder] at hshares
  exact processDeferred_last hptrs hcur
    (hshares.mono fun e he => srvsvcRun_string hdir he)

/-- How many pointers follow a container at the offset. -/
def entriesPointers (env : Env) (buf : Bytes) (fs : List Field) (o : Nat) : Nat :=
  if HasEntries env buf o then
    1 + (scanShares env buf (toUint64 (toInt32 (env.number (slice buf o 4)))) fs
      (alignUp env.word (o + 4) + env.word)).count
  else 0

/-- The pointers that follow a container are deferred, as long as they have room, and followed. -/
theorem container_process (hdir : env.direction = .decode) (l : ShareLevel)
    (hptrs : s.ptrs = pre ++ [(l.container, a)]) (hcur : s.curPtr = pre.length)
    (hrun : s.isConformanceRun = false) (htop : s.topLevel = false) (hdvd : env.word ∣ s.offset)
    (hfits : s.heap.Fits a 16) (hcount : s.heap.cell a = .num 0)
    (hnull : s.heap.cell (a.add 8) = .num 0) (hlen : s.buf.length < 2147483648) :
    let n := entriesPointers env s.buf l.fields s.offset
    let process := (dcerpcProcessDeferredPointers (srvsvcRun env) (turns + 3)).run s
    (¬ NoRoom n s.ptrs.length → Drained process)
    ∧ (NoRoom n s.ptrs.length → process = .fault .deferred) := by
  intro n process
  obtain ⟨hnone, hfull, hroom⟩ := @container_do env { s with curPtr := pre.length + 1 } a
    hdir (fun _ _ => Run.fault .endless) l.size l.carray hfits hcount hnull hrun htop hdvd
    l.size_le
  dsimp only at hnone hfull hroom
  have hplen : s.ptrs.length = pre.length + 1 := by rw [hptrs, List.length_append]; rfl
  have hprocess : process = ((ndrDoCoder (containerCoder env (fun _ _ => Run.fault .endless) l.size
      l.carray a)).run { s with curPtr := pre.length + 1 }).andThen fun _ t =>
        (dcerpcProcessDeferredPointers (srvsvcRun env) (turns + 2)).run t := by
    rw [← srvsvcCoder_container]
    exact processDeferred_turn hptrs hcur
  by_cases hentries : HasEntries env s.buf s.offset
  swap
  · have hzero : n = 0 := if_neg hentries
    refine ⟨fun _ => ?_, fun h => absurd hzero h.1⟩
    have hsettled := hnone hentries
    rw [hprocess]
    cases hdone : (ndrDoCoder (containerCoder env (fun _ _ => Run.fault .endless) l.size l.carray
        a)).run { s with curPtr := pre.length + 1 } with
    | done _ t =>
      rw [hdone] at hsettled
      have hkept : t.ptrs = s.ptrs ∧ t.curPtr = pre.length + 1 ∧ t.topLevel = s.topLevel := by
        simpa [Settled, State.deferred] using hsettled
      have hend : t.curPtr = t.ptrs.length := by rw [hkept.2.1, hkept.1, hplen]
      rw [Run.andThen_done, dcerpcProcessDeferredPointers, Run.get_bind, if_pos hend]
      exact hend
    | fail t => trivial
    | fault f =>
      rw [hdone] at hsettled
      exact hsettled
  have hn : n = 1 + (scanShares env s.buf
      (toUint64 (toInt32 (env.number (slice s.buf s.offset 4)))) l.fields
      (alignUp env.word (s.offset + 4) + env.word)).count := if_pos hentries
  by_cases hmax : MAX_DEFERRED_PTR ≤ s.ptrs.length
  · refine ⟨fun h => absurd ⟨by omega, by omega⟩ h, fun _ => ?_⟩
    rw [hprocess, hfull hentries hmax, Run.andThen_fault]
  obtain ⟨b, h, hb, hdone⟩ := hroom hentries (by omega)
  rw [hprocess, hdone, Run.andThen_done]
  have hvlt : env.number (slice s.buf s.offset 4) < 4294967296 := number_slice_lt _ _ _
  have hcarray := @carray_process env { s with
    curPtr := pre.length + 1
    offset := alignUp env.word (s.offset + 4) + env.word
    maxAlignment := env.word
    heap := h
    ptrs := s.ptrs ++ [(l.carray, b)]
    sizeIs := toInt32 (env.number (slice s.buf s.offset 4)) } s.ptrs (turns + 1) hdir l b
    (env.number (slice s.buf s.offset 4)) rfl hplen.symm hrun htop hlen
    (by dsimp only) (by exact hvlt) (by exact hb)
  dsimp only at hcarray
  rw [List.length_append, List.length_singleton] at hcarray
  have hsame : NoRoom n s.ptrs.length ↔ NoRoom (n - 1) (s.ptrs.length + 1) := by
    rw [NoRoom, NoRoom]
    omega
  rw [hsame, hn, Nat.add_sub_cancel_left]
  exact hcarray

/-! ## The list of shares -/

/-- The second pass over a discriminant, and what it is written to. -/
theorem ndrUnionCoderAt_run (hdir : env.direction = .decode) (hrun : s.isConformanceRun = false)
    (hfits : s.heap.Fits a 4) (coder : Ndr Srvsvc Unit) :
    (ndrUnionCoderAt env a coder).run s =
      if s.buf.length < alignUp env.word s.offset + env.word then
        .fail { s with offset := alignUp env.word s.offset }
      else coder.run { s with
        offset := alignUp env.word s.offset + env.word
        heap := s.heap.put a (.num
          (env.number (slice s.buf (alignUp env.word s.offset) env.word) % 4294967296))
        switchIs := toInt32 (env.number (slice s.buf (alignUp env.word s.offset) env.word)) } := by
  rw [ndrUnionCoderAt, Run.run_bind, load_run, if_pos (hfits.mono (by decide)), Run.andThen_done,
    ndrUint3264Coder, Run.run_bind, ndrUintCoder_run hdir hrun, dcerpcGet_run]
  by_cases hlen : s.buf.length < alignUp env.word s.offset + env.word
  · rw [if_pos hlen, if_pos hlen, Run.andThen_fail]
  · rw [if_neg hlen, if_neg hlen, Run.andThen_done, storeSwitchIs, hdir]
    dsimp only
    rw [Run.run_bind, store_run, if_pos hfits, Run.andThen_done, Run.modify_bind]

section

variable (hdir : env.direction = .decode) (run : SrvsvcRun) (hfits : s.heap.Fits a 24)
  (hcell : s.heap.cell a = .num 0)

include hdir hfits hcell

/-- The first pass over a list of shares takes it for one of level 0. -/
theorem enumStruct_survey (hrun : s.isConformanceRun = true) (halign : s.maxAlignment = 1) :
    (srvsvcShareEnumStructCoder env run a).run s = .done () { s with
      maxAlignment := env.word
      heap := s.heap.put a (.num 0)
      switchIs := 0 } := by
  have hword : max (max (max 1 4) env.word) env.word = env.word := by
    unfold Env.word
    split
    · decide
    · decide
  have hvalue : (ndrUint3264Coder env 0).run { s with maxAlignment := max s.maxAlignment 4 }
      = .done 0 { s with maxAlignment := max (max s.maxAlignment 4) env.word } := by
    rw [ndrUint3264Coder, ndrUintCoder, Run.get_bind, if_pos hrun]
    rfl
  rw [srvsvcShareEnumStructCoder, ndrUint32CoderAt, Run.bind_done (ndrUintCoderAt_survey hrun 4 a),
    ndrUnionCoderAt, Run.run_bind, load_run, if_pos (hfits.mono (by decide)), Run.andThen_done, hcell,
    Cell.toNat, Run.bind_done hvalue, storeSwitchIs, hdir]
  dsimp only
  rw [Run.run_bind, store_run, if_pos (hfits.mono (by decide)), Run.andThen_done, Run.modify_bind,
    srvsvcShareEnumUnionCoder_run]
  change (ndrPtrCoder env run _ .unique _).run _ = _
  rw [ndrPtrCoder_survey hdir]
  · dsimp only
    rw [halign, hword]
    rfl
  · exact hrun

/-- The second pass, up to the pointer to a container. -/
theorem enumStruct_pointer (hrun : s.isConformanceRun = false) (hoff : s.offset = 24) :
    let sw := alignUp env.word 28
    let coder := srvsvcShareEnumStructCoder env run a
    (s.buf.length < sw + env.word → ∃ t, (ndrDoCoder coder).run s = .fail t)
    ∧ (sw + env.word ≤ s.buf.length → ∃ c, (ndrDoCoder coder).run s
      = (srvsvcShareEnumUnionCoder env run (a.add 8)).run { s with
          offset := sw + env.word
          maxAlignment := env.word
          heap := s.heap.put a c
          switchIs := toInt32 (env.number (slice s.buf sw env.word)) }) := by
  intro sw coder
  have hdvd : env.word ∣ 24 := by
    unfold Env.word
    split
    · decide
    · decide
  have hle : 28 ≤ sw := le_alignUp (word_pos env) _
  have hdo : (ndrDoCoder coder).run s = coder.run { s with
      maxAlignment := env.word
      heap := s.heap.put a (.num 0)
      switchIs := 0 } := by
    rw [ndrDoCoder_run, enumStruct_survey hdir run]
    rotate_left
    · exact hfits
    · exact hcell
    · rfl
    · rfl
    rw [Run.andThen_done]
    dsimp only
    rw [hoff, alignUp_of_dvd (word_pos env) hdvd, ← hoff, ← hrun]
  rw [hdo]
  change (_ → ∃ t, (srvsvcShareEnumStructCoder env run a).run _ = _)
    ∧ (_ → ∃ c, (srvsvcShareEnumStructCoder env run a).run _ = _)
  rw [srvsvcShareEnumStructCoder, ndrUint32CoderAt, Run.run_bind, ndrUintCoderAt, Run.get_bind,
    if_neg (by simp [hrun]), hdir]
  dsimp only
  rw [Run.run_bind, dcerpcGet_run]
  dsimp only
  rw [hoff, alignUp_of_dvd (by decide) (by decide)]
  by_cases hlen : s.buf.length < 28
  · rw [if_pos (by omega)]
    exact ⟨fun _ => ⟨_, rfl⟩, fun h => absurd h (by have := word_pos env; omega)⟩
  rw [if_neg (by omega), Run.andThen_done, store_run,
    if_pos (Heap.fits_put.mpr (hfits.mono (by decide))), Run.andThen_done, ndrUnionCoderAt_run hdir]
  rotate_left
  · exact hrun
  · exact Heap.fits_put.mpr (Heap.fits_put.mpr (hfits.mono (by decide)))
  dsimp only
  by_cases hout : s.buf.length < sw + env.word
  · rw [if_pos hout]
    exact ⟨fun _ => ⟨_, rfl⟩, fun h => absurd h (by omega)⟩
  · rw [if_neg hout, Heap.put_put, Heap.put_put]
    exact ⟨fun h => absurd h hout, fun _ => ⟨_, rfl⟩⟩

end

/-! ## One share -/

theorem srvsvcShareInfoStructCoder_run (env : Env) (run : SrvsvcRun) (a : Addr)
    (s : State Srvsvc) : (srvsvcShareInfoStructCoder env run a).run s
      = ((ndrUint3264Coder env (toUint64 s.switchIs % 4294967296)).run s).andThen fun p t =>
        levelRun env run a ShareLevel.struct { t with switchIs := toInt32 p } := by
  rw [srvsvcShareInfoStructCoder, Run.get_bind, Run.run_bind, ndrUnionCoder, Run.run_bind]
  cases (ndrUint3264Coder env (toUint64 s.switchIs % 4294967296)).run s with
  | done p t =>
    rw [Run.andThen_done, Run.andThen_done, Run.modify_bind, Run.run_bind,
      srvsvcShareInfoCoder_run]
    generalize levelRun env run a ShareLevel.struct _ = o
    cases o with
    | done _ t => simp only [Run.andThen_done, Run.run_pure]
    | fail t => simp only [Run.andThen_fail]
    | fault f => simp only [Run.andThen_fault]
  | fail t => simp only [Run.andThen_fail]
  | fault f => simp only [Run.andThen_fault]

/-- The first pass over the pointer that a level is for. -/
theorem levelRun_survey (hdir : env.direction = .decode) (run : SrvsvcRun)
    (hrun : s.isConformanceRun = true) (halign : s.maxAlignment = env.word)
    (kind : ShareLevel → Srvsvc) : levelRun env run a kind s = .done () s := by
  rw [levelRun]
  cases ShareLevel.ofInt s.switchIs with
  | none => rfl
  | some l =>
    dsimp only
    rw [ndrPtrCoder_survey hdir run hrun, halign, Nat.max_self, ← halign]

/-- The coder of one share, up to the pointer to it. -/
theorem shareInfoStruct_pointer (hdir : env.direction = .decode) (run : SrvsvcRun)
    (hrun : s.isConformanceRun = false) (hoff : s.offset = 24) :
    let coder := srvsvcShareInfoStructCoder env run a
    (s.buf.length < 24 + env.word → ∃ t, (ndrDoCoder coder).run s = .fail t)
    ∧ (24 + env.word ≤ s.buf.length → (ndrDoCoder coder).run s
      = levelRun env run a ShareLevel.struct { s with
          offset := 24 + env.word
          maxAlignment := env.word
          switchIs := toInt32 (env.number (slice s.buf 24 env.word)) }) := by
  intro coder
  have hdvd : env.word ∣ 24 := by
    unfold Env.word
    split
    · decide
    · decide
  have hone : max 1 env.word = env.word := Nat.max_eq_right (word_pos env)
  obtain ⟨level, hsurvey⟩ : ∃ level, coder.run { s with maxAlignment := 1, isConformanceRun := true }
      = .done () { s with
          maxAlignment := env.word
          isConformanceRun := true
          switchIs := level } := by
    rw [srvsvcShareInfoStructCoder_run]
    dsimp only
    generalize toUint64 s.switchIs % 4294967296 = value
    have hvalue : (ndrUint3264Coder env value).run
          { s with maxAlignment := 1, isConformanceRun := true }
        = .done value { s with maxAlignment := max 1 env.word, isConformanceRun := true } := by
      rw [ndrUint3264Coder, ndrUintCoder, Run.get_bind, if_pos rfl]
      rfl
    refine ⟨toInt32 value, ?_⟩
    rw [hvalue, Run.andThen_done]
    dsimp only
    rw [hone]
    exact levelRun_survey hdir run (by rfl) (by rfl) _
  rw [ndrDoCoder_run, hsurvey, Run.andThen_done]
  dsimp only
  rw [hoff, alignUp_of_dvd (word_pos env) hdvd]
  change (_ → ∃ t, (srvsvcShareInfoStructCoder env run a).run _ = _)
    ∧ (_ → (srvsvcShareInfoStructCoder env run a).run _ = _)
  rw [srvsvcShareInfoStructCoder_run, ndrUint3264Coder, ndrUintCoder_run hdir (by rfl),
    dcerpcGet_run]
  dsimp only
  rw [alignUp_of_dvd (word_pos env) hdvd]
  by_cases hlen : s.buf.length < 24 + env.word
  · rw [if_pos hlen]
    exact ⟨fun _ => ⟨_, rfl⟩, fun h => absurd h (by omega)⟩
  · rw [if_neg hlen, Run.andThen_done, ← hrun]
    dsimp only
    generalize toInt32 (env.number (slice s.buf 24 env.word)) = level
    exact ⟨fun h => absurd h hlen, fun _ => rfl⟩

/-! ## The top level -/

/-- A run ends if so many pointers have room, and writes behind the array if they have not. -/
def EndsWithRoom {α : Type} (count ptrs : Nat) (o : Util.Outcome (State Srvsvc) Fault α) : Prop :=
  (¬ NoRoom count ptrs → Ends o) ∧ (NoRoom count ptrs → o = .fault .deferred)

theorem EndsWithRoom.andThen {α β : Type} {count ptrs : Nat} {o : Util.Outcome (State Srvsvc) Fault α}
    {f : α → State Srvsvc → Util.Outcome (State Srvsvc) Fault β} (ho : EndsWithRoom count ptrs o)
    (hf : ∀ a t, Idle t → Ends (f a t)) : EndsWithRoom count ptrs (o.andThen f) := by
  refine ⟨fun hroom => (ho.1 hroom).andThen hf, fun hno => ?_⟩
  rw [ho.2 hno, Run.andThen_fault]

theorem EndsWithRoom.fault_iff {α : Type} {count ptrs : Nat}
    {o : Util.Outcome (State Srvsvc) Fault α} (h : EndsWithRoom count ptrs o) :
    o = .fault .deferred ↔ NoRoom count ptrs := by
  refine ⟨fun hfault => ?_, h.2⟩
  by_contra hroom
  have hends := h.1 hroom
  rw [hfault] at hends
  exact hends rfl

theorem Ends.withRoom {α : Type} {o : Util.Outcome (State Srvsvc) Fault α} (h : Ends o) (ptrs : Nat) :
    EndsWithRoom 0 ptrs o :=
  ⟨fun _ => h, fun hno => absurd rfl hno.1⟩

section

variable (hdir : env.direction = .decode) {k : Srvsvc}

include hdir

/-- A pointer at the top level, to what is coded at once, and then all that it defers. -/
theorem srvsvcPtr_ref (hrun : s.isConformanceRun = false) (htop : s.topLevel = true) :
    (srvsvcPtr env a .ref k).run s
      = ((ndrDoCoder (srvsvcRun env k a)).run { s with topLevel := false }).andThen fun _ t =>
        ((dcerpcProcessDeferredPointers (srvsvcRun env) (MAX_DEFERRED_PTR + 1)).run
          { t with topLevel := false }).andThen fun _ t => .done () { t with topLevel := true } := by
  rw [srvsvcPtr, ndrPtrCoder, hdir]
  dsimp only
  rw [ndrDecodePtr, Run.get_bind, if_neg (by simp [hrun]), Run.run_bind, refPtr, Run.get_bind,
    if_pos htop, follow, Run.get_bind, if_pos htop, setTopLevel, Run.modify_bind, Run.run_bind]
  cases (ndrDoCoder (srvsvcRun env k a)).run { s with topLevel := false } with
  | done _ t =>
    rw [Run.andThen_done, Run.andThen_done, setTopLevel, Run.run_modify, Run.andThen_done, ptrOut,
      Run.get_bind, if_pos htop, setTopLevel, Run.modify_bind, Run.run_bind]
    dsimp only
    rw [htop]
    rfl
  | fail t => rfl
  | fault f => rfl

theorem srvsvcPtr_ends {type : PtrType} (hk : Settles (srvsvcRun env k a)) (hs : Idle s) :
    Ends ((srvsvcPtr env a type k).run s) := by
  have hfollow : ∀ s : State Srvsvc, Idle s → Ends ((follow (srvsvcRun env) k a).run s) := by
    intro s hs
    rw [follow, Run.get_bind, if_pos hs.1, setTopLevel, Run.modify_bind, Run.run_bind]
    have hkept := ndrDoCoder_settles hk { s with topLevel := false }
    cases hdo : (ndrDoCoder (srvsvcRun env k a)).run { s with topLevel := false } with
    | done _ t =>
      rw [hdo] at hkept
      have hptrs : t.ptrs = s.ptrs ∧ t.curPtr = s.curPtr ∧ t.topLevel = false := by
        simpa [State.deferred] using hkept
      exact ⟨hs.1, by rw [hptrs.1, hptrs.2.1, hs.2]⟩
    | fail t => trivial
    | fault f =>
      rw [hdo] at hkept
      exact hkept
  have hout : ∀ s : State Srvsvc, Idle s → Ends ((ptrOut (srvsvcRun env)).run s) := by
    intro s hs
    rw [ptrOut, Run.get_bind, if_pos hs.1, setTopLevel, Run.modify_bind, Run.run_bind,
      dcerpcProcessDeferredPointers, Run.get_bind, if_pos hs.2]
    exact hs
  rw [srvsvcPtr, ndrPtrCoder, hdir]
  dsimp only
  unfold ndrDecodePtr
  rw [Run.get_bind]
  split
  · split
    · exact hs
    · exact hs
  cases type with
  | ref =>
    rw [Run.run_bind, refPtr, Run.get_bind, if_pos hs.1]
    exact (hfollow s hs).andThen fun _ t ht => hout t ht
  | unique =>
    apply ((ndrUintCoder_settles hdir _ _).ends hs).andThen
    intro p t ht
    cases p with
    | zero => exact ht
    | succ p => exact (hfollow t ht).andThen fun _ r hr => hout r hr
  | full => exact hout s hs

end

/-! ## The pointer that a level is for -/

/-- How many pointers there are from the one at an offset on, where the one that it stands for has
`more` of them. -/
def levelPointers (env : Env) (buf : Bytes) (level : Int) (o : Nat) (more : ShareLevel → Nat) :
    Nat :=
  match ShareLevel.ofInt level with
  | none => 0
  | some l =>
    if buf.length < o + env.word ∨ env.number (slice buf o env.word) = 0 then 0 else 1 + more l

/-- What is done for the pointer that a level is for, and for those that it leads to. -/
theorem levelRun_room (hdir : env.direction = .decode) (hrun : s.isConformanceRun = false)
    (htop : s.topLevel = false) (hcur : s.curPtr = s.ptrs.length) (hdvd : env.word ∣ s.offset)
    {kind : ShareLevel → Srvsvc} {more : ShareLevel → Nat}
    (hmore : ∀ l, ShareLevel.ofInt s.switchIs = some l →
      let process := (dcerpcProcessDeferredPointers (srvsvcRun env) (MAX_DEFERRED_PTR + 1)).run
        { s with offset := s.offset + env.word, ptrs := s.ptrs ++ [(kind l, a)] }
      (¬ NoRoom (more l) (s.ptrs.length + 1) → Drained process)
      ∧ (NoRoom (more l) (s.ptrs.length + 1) → process = .fault .deferred)) :
    EndsWithRoom (levelPointers env s.buf s.switchIs s.offset more) s.ptrs.length
      ((levelRun env (fun _ _ => Run.fault .endless) a kind s).andThen fun _ t =>
        ((dcerpcProcessDeferredPointers (srvsvcRun env) (MAX_DEFERRED_PTR + 1)).run
          { t with topLevel := false }).andThen fun _ t => .done () { t with topLevel := true }) := by
  -- with no pointer of its own nothing is left to be followed
  have hidle : ∀ t : State Srvsvc, t.curPtr = t.ptrs.length →
      Ends (((dcerpcProcessDeferredPointers (srvsvcRun env) (MAX_DEFERRED_PTR + 1)).run
        { t with topLevel := false }).andThen fun _ t =>
          (.done () { t with topLevel := true } : Util.Outcome (State Srvsvc) Fault Unit)) := by
    intro t ht
    rw [dcerpcProcessDeferredPointers, Run.get_bind, if_pos ht]
    exact ⟨rfl, ht⟩
  rw [levelPointers, levelRun]
  cases hlevel : ShareLevel.ofInt s.switchIs with
  | none => exact (hidle s hcur).withRoom _
  | some l =>
    have hthen := hmore l hlevel
    dsimp only at hthen ⊢
    rw [ndrDecodePtr_run hdir hrun htop, alignUp_of_dvd (word_pos env) hdvd]
    by_cases hlen : s.buf.length < s.offset + env.word
    · rw [if_pos hlen, if_pos (.inl hlen)]
      exact Ends.withRoom (o := .fail _) trivial _
    by_cases hnull : env.number (slice s.buf s.offset env.word) = 0
    · rw [if_neg hlen, if_pos hnull, if_pos (.inr hnull), Run.andThen_done]
      exact (hidle { s with offset := s.offset + env.word } hcur).withRoom _
    rw [if_neg hlen, if_neg hnull, if_neg (by simp [hlen, hnull])]
    by_cases hfull : MAX_DEFERRED_PTR ≤ s.ptrs.length
    · rw [if_pos hfull, Run.andThen_fault]
      refine ⟨fun hno => absurd ⟨by omega, by omega⟩ hno, fun _ => rfl⟩
    rw [if_neg hfull, Run.andThen_done]
    have hsame : NoRoom (1 + more l) s.ptrs.length ↔ NoRoom (more l) (s.ptrs.length + 1) := by
      rw [NoRoom, NoRoom]
      omega
    have hstate : ({ s with
        topLevel := false
        offset := s.offset + env.word
        ptrs := s.ptrs ++ [(kind l, a)] } : State Srvsvc)
        = { s with offset := s.offset + env.word, ptrs := s.ptrs ++ [(kind l, a)] } := by
      rw [← htop]
    rw [EndsWithRoom, hsame]
    dsimp only
    rw [hstate]
    refine ⟨fun hroom => ?_, fun hno => by rw [hthen.2 hno, Run.andThen_fault]⟩
    have hdrained := hthen.1 hroom
    revert hdrained
    generalize (dcerpcProcessDeferredPointers (srvsvcRun env) (MAX_DEFERRED_PTR + 1)).run _ = o
    intro hdrained
    cases o with
    | done _ t => exact ⟨rfl, hdrained⟩
    | fail t => trivial
    | fault f => exact hdrained

theorem levelPointers_short {buf : Bytes} {level : Int} {o : Nat} {more : ShareLevel → Nat}
    (h : buf.length < o + env.word) : levelPointers env buf level o more = 0 := by
  rw [levelPointers]
  cases ShareLevel.ofInt level with
  | none => rfl
  | some l => exact if_pos (.inl h)

theorem levelPointers_some {buf : Bytes} {level : Int} {o : Nat} {more : ShareLevel → Nat}
    {l : ShareLevel} (hlevel : ShareLevel.ofInt level = some l) (hlen : o + env.word ≤ buf.length)
    (href : env.number (slice buf o env.word) ≠ 0) :
    levelPointers env buf level o more = 1 + more l := by
  rw [levelPointers, hlevel]
  dsimp only
  rw [if_neg]
  rintro (h | h)
  · omega
  · exact href h

/-! ## Replies that have pointers -/

/-- How many pointers a list of shares has. -/
def enumPointers (env : Env) (buf : Bytes) : Nat :=
  let sw := alignUp env.word 28
  levelPointers env buf (toInt32 (env.number (slice buf sw env.word))) (sw + env.word) fun l =>
    entriesPointers env buf l.fields (sw + env.word + env.word)

/-- How many pointers the information about one share has. -/
def getInfoPointers (env : Env) (buf : Bytes) : Nat :=
  levelPointers env buf (toInt32 (env.number (slice buf 24 env.word))) (24 + env.word) fun l =>
    (scanFields env buf l.fields (24 + env.word + env.word)).count

section

variable (hdir : env.direction = .decode) (hs : Idle s) (hrun : s.isConformanceRun = false)
  (hoff : s.offset = 24) (hlen : s.buf.length < 2147483648)

include hdir hs hrun hoff hlen

/-- The list of shares at the top level. -/
theorem enumStruct_room (hfits : s.heap.Fits a 24) (hcell : s.heap.cell a = .num 0)
    (hcount : s.heap.cell (a.add 8) = .num 0) (hnull : s.heap.cell ((a.add 8).add 8) = .num 0) :
    EndsWithRoom (enumPointers env s.buf) s.ptrs.length
      ((srvsvcPtr env a .ref .shareEnumStruct).run s) := by
  have hcoder : srvsvcRun env .shareEnumStruct a
    = srvsvcShareEnumStructCoder env (fun _ _ => Run.fault .endless) a := rfl
  obtain ⟨hshort, hpointer⟩ := enumStruct_pointer (s := { s with topLevel := false }) hdir
    (fun _ _ => Run.fault .endless) hfits hcell hrun hoff
  rw [srvsvcPtr_ref hdir hrun hs.1, hcoder]
  dsimp only at hshort hpointer
  by_cases hout : s.buf.length < alignUp env.word 28 + env.word
  · obtain ⟨t, ht⟩ := hshort hout
    rw [ht, Run.andThen_fail, enumPointers, levelPointers_short (by omega)]
    exact Ends.withRoom (o := .fail t) trivial _
  obtain ⟨c, hc⟩ := hpointer (by omega)
  rw [hc, srvsvcShareEnumUnionCoder_run]
  dsimp only [enumPointers]
  generalize toInt32 (env.number (slice s.buf (alignUp env.word 28) env.word)) = level
  have hdvd : env.word ∣ alignUp env.word 28 + env.word :=
    Nat.dvd_add_self_right.mpr (dvd_alignUp _ _)
  have hne : a.add 8 ≠ a := Addr.add_ne (by decide)
  have hne' : (a.add 8).add 8 ≠ a := Addr.add_ne (a := a) (n := 16) (by decide)
  have hroom := @levelRun_room env { s with
      topLevel := false
      offset := alignUp env.word 28 + env.word
      maxAlignment := env.word
      heap := s.heap.put a c
      switchIs := level } (a.add 8) hdir hrun rfl hs.2 hdvd ShareLevel.container
    (fun l => entriesPointers env s.buf l.fields (alignUp env.word 28 + env.word + env.word))
    fun l _ => by
      have hprocess := @container_process env { s with
          topLevel := false
          offset := alignUp env.word 28 + env.word + env.word
          maxAlignment := env.word
          heap := s.heap.put a c
          ptrs := s.ptrs ++ [(l.container, a.add 8)]
          switchIs := level } (a.add 8) s.ptrs 1022
        hdir l rfl hs.2 hrun rfl (Nat.dvd_add_self_right.mpr hdvd)
        (Heap.fits_put.mpr (hfits.add (by decide))) (by rw [Heap.cell_put_ne hne]; exact hcount)
        (by rw [Heap.cell_put_ne hne']; exact hnull) hlen
      dsimp only at hprocess
      rw [List.length_append, List.length_singleton] at hprocess
      exact hprocess
  exact hroom

omit hlen in
/-- One share at the top level. -/
theorem shareInfoStruct_room (hfits : s.heap.Fits a 56) :
    EndsWithRoom (getInfoPointers env s.buf) s.ptrs.length
      ((srvsvcPtr env a .ref .shareInfoStruct).run s) := by
  have hword : env.word ∣ 24 := by
    unfold Env.word
    split
    · decide
    · decide
  obtain ⟨hshort, hpointer⟩ := shareInfoStruct_pointer (a := a) (s := { s with topLevel := false })
    hdir (fun _ _ => Run.fault .endless) hrun hoff
  have hcoder : srvsvcRun env .shareInfoStruct a
    = srvsvcShareInfoStructCoder env (fun _ _ => Run.fault .endless) a := rfl
  rw [srvsvcPtr_ref hdir hrun hs.1, hcoder]
  dsimp only at hshort hpointer
  by_cases hout : s.buf.length < 24 + env.word
  · obtain ⟨t, ht⟩ := hshort hout
    rw [ht, Run.andThen_fail, getInfoPointers, levelPointers_short (by omega)]
    exact Ends.withRoom (o := .fail t) trivial _
  have hdvd : env.word ∣ 24 + env.word := Nat.dvd_add_self_right.mpr hword
  rw [hpointer (by omega), getInfoPointers]
  generalize toInt32 (env.number (slice s.buf 24 env.word)) = level
  have hroom := @levelRun_room env { s with
      topLevel := false
      offset := 24 + env.word
      maxAlignment := env.word
      switchIs := level } a hdir hrun rfl hs.2 hdvd ShareLevel.struct
    (fun l => (scanFields env s.buf l.fields (24 + env.word + env.word)).count)
    fun l _ => by
      have hstruct := srvsvcCoder_struct env (fun _ _ => Run.fault .endless) l a
      have hshare := @shareStruct_defers env { s with
        topLevel := false
        offset := 24 + env.word + env.word
        maxAlignment := env.word
        curPtr := s.ptrs.length + 1
        ptrs := s.ptrs ++ [(l.struct, a)]
        switchIs := level } a hdir
        (fun _ _ => Run.fault .endless) hrun rfl (Nat.dvd_add_self_right.mpr hdvd)
        l.fields (fun f hf => hfits.add ((l.field_le f hf).trans l.size_le))
      rw [← hstruct] at hshare
      have hlast := @processDeferred_last Srvsvc (srvsvcRun env) MAX_DEFERRED_PTR { s with
          topLevel := false
          offset := 24 + env.word + env.word
          maxAlignment := env.word
          ptrs := s.ptrs ++ [(l.struct, a)]
          switchIs := level } l.struct a s.ptrs _ rfl hs.2
        (hshare.mono fun e he => srvsvcRun_string hdir he)
      dsimp only at hlast
      rw [List.length_append, List.length_singleton] at hlast
      exact hlast
  exact hroom

end

end

/-! ## Replies -/

/-- The replies of the server service; the level is that of the request. -/
inductive SrvsvcReply
  | netrShareAdd
  | netrShareEnum
  | netrShareGetInfo (level : Nat)
  | netrShareSetInfo
  | netrShareDel
  | netrShareCheck
  deriving DecidableEq, Repr

namespace SrvsvcReply

def coder (reply : SrvsvcReply) (env : Env) (a : Addr) : Ndr Srvsvc Unit :=
  match reply with
  | netrShareAdd => srvsvcNetrShareAddRepCoder env a
  | netrShareEnum => srvsvcNetrShareEnumRepCoder env a
  | netrShareGetInfo level => srvsvcNetrShareGetInfoRepCoder env level a
  | netrShareSetInfo => srvsvcNetrShareAddRepCoder env a
  | netrShareDel => srvsvcNetrShareDelRepCoder env a
  | netrShareCheck => srvsvcNetrShareCheckRepCoder env a

/-- The size of the structure that a reply is decoded to. -/
def size : SrvsvcReply → Nat
  | netrShareAdd => 8
  | netrShareEnum => 40
  | netrShareGetInfo _ => 64
  | netrShareSetInfo => 8
  | netrShareDel => 4
  | netrShareCheck => 8

/-- The pointers of a reply. -/
def stubPointers (reply : SrvsvcReply) (env : Env) (buf : Bytes) : Nat :=
  match reply with
  | netrShareEnum => enumPointers env buf
  | netrShareGetInfo _ => getInfoPointers env buf
  | _ => 0

/-- The pointers of a response, if its stub is come to. -/
def pointers (reply : SrvsvcReply) (env : Env) (buf : Bytes) : Nat :=
  if 23 ≤ buf.length ∧ env.number (slice buf 16 4) ≤ 16 * 1024 * 1024 then
    reply.stubPointers env buf
  else 0

/-- The call of a reply, with the state that its request has left. -/
def call (reply : SrvsvcReply) (pdu : Pdu) (state : State Srvsvc) : Call Srvsvc where
  pdu := pdu
  coder := reply.coder
  decodeSize := reply.size
  state := state

end SrvsvcReply

section

variable {env : Env} {s : State Srvsvc} {a : Addr}

/-- The pointers of a reply are all deferred before one of them is followed, or it fails. -/
theorem SrvsvcReply.coder_room (hdir : env.direction = .decode) (reply : SrvsvcReply)
    (hs : Idle s) (hrun : s.isConformanceRun = false) (hoff : s.offset = 24)
    (hlen : s.buf.length < 2147483648) (hfits : s.heap.Fits a reply.size)
    (hfresh : ∀ n, s.heap.cell (a.add n) = .num 0) :
    EndsWithRoom (reply.stubPointers env s.buf) s.ptrs.length ((reply.coder env a).run s) := by
  have hdword : ∀ b, Settles (srvsvcRun env .uint32 b) := fun b => ndrUintCoderAt_settles hdir 4 b
  have hstatus : ∀ b, ∀ t : State Srvsvc, Idle t → Ends ((ndrUint32CoderAt env b).run t) :=
    fun b t ht => (ndrUintCoderAt_settles hdir 4 b).ends ht
  have hparmErr : Ends ((srvsvcNetrShareAddRepCoder env a).run s) :=
    (srvsvcPtr_ends hdir (hdword _) hs).andThen fun _ t ht => hstatus _ t ht
  cases reply with
  | netrShareAdd => exact hparmErr.withRoom _
  | netrShareEnum =>
    have hfirst := enumStruct_room hdir hs hrun hoff hlen (hfits.mono (by decide)) (hfresh 0)
      (hfresh 8) (hfresh 16)
    apply hfirst.andThen
    intro _ t ht
    apply (srvsvcPtr_ends hdir (hdword _) ht).andThen
    intro _ t ht
    apply (srvsvcPtr_ends hdir (hdword _) ht).andThen
    intro _ t ht
    exact hstatus _ t ht
  | netrShareGetInfo level =>
    have hfirst : ∀ sw, EndsWithRoom (getInfoPointers env s.buf) s.ptrs.length
        ((srvsvcPtr env a .ref .shareInfoStruct).run { s with switchIs := sw }) :=
      fun sw => shareInfoStruct_room (s := { s with switchIs := sw }) hdir hs hrun hoff
        (hfits.mono (show 56 ≤ 64 by decide))
    rw [SrvsvcReply.coder, srvsvcNetrShareGetInfoRepCoder, setSwitchIs, Run.modify_bind,
      Run.run_bind, SrvsvcReply.stubPointers]
    exact (hfirst _).andThen fun _ t ht => hstatus _ t ht
  | netrShareSetInfo => exact hparmErr.withRoom _
  | netrShareDel => exact (hstatus _ s hs).withRoom _
  | netrShareCheck =>
    have hcheck : Ends ((srvsvcNetrShareCheckRepCoder env a).run s) :=
      (srvsvcPtr_ends hdir (hdword _) hs).andThen fun _ t ht => hstatus _ t ht
    exact hcheck.withRoom _

end

/-- No pointer is written behind the array while a response is decoded. -/
def DeferredInside (call : Call Srvsvc) (env : Env) (buf : Bytes) : Prop :=
  (dcerpcResponseCoder env (some (call.stub env)) call.pdu.rsp).run
    { call.reply.rewind buf with offset := 16 } ≠ .fault .deferred

section

variable (reply : SrvsvcReply) (pdu : Pdu) {state : State Srvsvc}
  (hfollowed : state.curPtr = state.ptrs.length) {env : Env} (hdir : env.direction = .decode)
  {buf : Bytes} (hlen : buf.length < 2147483648)

include hfollowed hdir hlen

theorem deferredInside_iff_room :
    DeferredInside (reply.call pdu state) env buf
      ↔ ¬ NoRoom (reply.pointers env buf) state.ptrs.length := by
  have hroom := reply.coder_room (a := ⟨state.heap.length, 0⟩)
    (s := { (reply.call pdu state).reply.rewind buf with offset := 24 }) hdir ⟨rfl, hfollowed⟩ rfl
    rfl hlen (Heap.fits_fresh _ _) fun n => by
      change Heap.cell (state.heap ++ [Block.fresh reply.size]) _ = _
      rw [Heap.cell, Addr.add, List.getElem?_concat_length]
      rfl
  have hfault := hroom.fault_iff
  rw [DeferredInside, ne_eq, dcerpcResponseCoder_fault_iff hdir _ _ rfl rfl rfl,
    SrvsvcReply.pointers]
  change ¬ (_ ∧ _ ∧ (reply.coder env ⟨state.heap.length, 0⟩).run
    { (reply.call pdu state).reply.rewind buf with offset := 24 } = _) ↔ _
  rw [hfault]
  change ¬ (23 ≤ buf.length ∧ env.number (slice buf 16 4) ≤ 16 * 1024 * 1024
    ∧ NoRoom (reply.stubPointers env buf) state.ptrs.length) ↔ _
  by_cases hreach : 23 ≤ buf.length ∧ env.number (slice buf 16 4) ≤ 16 * 1024 * 1024
  · rw [if_pos hreach, and_iff_right hreach.1, and_iff_right hreach.2]
  · rw [if_neg hreach, ← and_assoc]
    exact iff_of_true (fun h => hreach h.1) fun h => h.1 rfl

/-- **The deferred pointers of a response stay in their array** if and only if it has none or they
have room behind those of the request, which have all been followed. -/
theorem deferred_stay_inside_iff :
    DeferredInside (reply.call pdu state) env buf ↔
      reply.pointers env buf = 0
        ∨ state.ptrs.length + reply.pointers env buf ≤ MAX_DEFERRED_PTR := by
  rw [deferredInside_iff_room reply pdu hfollowed hdir hlen, NoRoom]
  omega

end

/-! ## A list of 511 shares -/

/-- The state that a request leaves which has asked for shares of level 1: its container is the
only pointer that was deferred. -/
def sharesAsked : State Srvsvc where
  buf := []
  offset := 0
  heap := [Block.fresh 40]
  topLevel := true
  ptrId := 0
  curPtr := 1
  ptrs := [(.shareInfo1Container, ⟨0, 16⟩)]
  isConformanceRun := false
  maxAlignment := 4
  sizeIs := 0
  switchIs := 1

/-- A response with shares of level 1, up to the first of them. -/
def sharesHeader (n : Nat) : Bytes :=
  [5, 0, 2, 3, 0x10, 0, 0, 0] ++ zeros 16 ++ le 4 1 ++ le 4 1 ++ le 4 1 ++ le 4 n ++ le 4 1 ++ le 4 n

/-- The shares all have a name and a remark. -/
def sharesReply (n : Nat) : Bytes := sharesHeader n ++ List.replicate (12 * n) 1

/-- A response with two shares, which have four pointers. -/
theorem deferred_stay_inside_two :
    DeferredInside (SrvsvcReply.netrShareEnum.call {} sharesAsked) ndr32Reply (sharesReply 2) :=
  (deferred_stay_inside_iff _ _ rfl rfl (by decide)).mpr (.inr (by decide +kernel))

def Field.isString : Field → Bool
  | .string _ => true
  | .dword _ => false

section

variable {env : Env} {buf : Bytes} {start : Nat} (hword : env.word = 4)
  (hdense : ∀ o, start ≤ o → o + 4 ≤ buf.length → env.number (slice buf o 4) ≠ 0)

include hword hdense

/-- Where no number is zero, every string of a share is a pointer. -/
theorem scanFields_dense (fs : List Field) {o : Nat} (hstart : start ≤ o) (hdvd : 4 ∣ o)
    (hin : o + 4 * fs.length ≤ buf.length) :
    scanFields env buf fs o = ⟨fs.countP Field.isString, some (o + 4 * fs.length)⟩ := by
  induction fs generalizing o with
  | nil => rfl
  | cons f fs ih =>
    rw [List.length_cons] at hin
    have hrest := ih (o := o + 4) (by omega) (Nat.dvd_add_self_right.mpr hdvd) (by omega)
    have halign : alignUp 4 o = o := alignUp_of_dvd (by decide) hdvd
    have hend : o + 4 + 4 * fs.length = o + 4 * (fs.length + 1) := by omega
    rw [hend] at hrest
    cases f with
    | string off =>
      have hptr : scanField env buf (.string off) o = ⟨1, some (o + 4)⟩ := by
        rw [scanField, scanPtr, hword, halign, if_neg (by omega),
          if_neg (hdense o hstart (by omega))]
      rw [scanFields, hptr, Scan.andThen_some, hrest, List.length_cons, List.countP_cons_of_pos rfl,
        Nat.add_comm 1]
    | dword off =>
      have hnum : scanField env buf (.dword off) o = ⟨0, some (o + 4)⟩ := by
        rw [scanField, scanNumber, halign, if_neg (by omega)]
      rw [scanFields, hnum, Scan.andThen_some, hrest, List.length_cons,
        List.countP_cons_of_neg Bool.false_ne_true, Nat.zero_add]

theorem scanElements_dense (fs : List Field) (n : Nat) {o : Nat} (hstart : start ≤ o)
    (hdvd : 4 ∣ o) (hin : o + n * (4 * fs.length) ≤ buf.length) :
    scanElements (scanFields env buf fs) n o
      = ⟨n * fs.countP Field.isString, some (o + n * (4 * fs.length))⟩ := by
  induction n generalizing o with
  | zero => simp [scanElements]
  | succ n ih =>
    rw [Nat.succ_mul] at hin
    have hrest := ih (o := o + 4 * fs.length) (by omega)
      ((Nat.dvd_add_right hdvd).mpr (Nat.dvd_mul_right _ _)) (by omega)
    have hcount : fs.countP Field.isString + n * fs.countP Field.isString
        = (n + 1) * fs.countP Field.isString := by
      rw [Nat.succ_mul, Nat.add_comm]
    have hend : o + 4 * fs.length + n * (4 * fs.length) = o + (n + 1) * (4 * fs.length) := by
      rw [Nat.succ_mul n]
      omega
    rw [scanElements, scanFields_dense hword hdense fs hstart hdvd (by omega), Scan.andThen_some,
      hrest, ← hcount, ← hend]

end

/-- A list of shares of level 1 that is all there, with no number in it that is zero. -/
theorem enumPointers_dense {buf : Bytes} {n : Nat} (hlen : buf.length = 48 + n * 12) (hpos : 0 < n)
    (hlt : n < 2147483648) (hlevel : ndr32Reply.number (slice buf 28 4) = 1)
    (href : ndr32Reply.number (slice buf 32 4) ≠ 0) (hcount : ndr32Reply.number (slice buf 36 4) = n)
    (hentries : ndr32Reply.number (slice buf 40 4) ≠ 0)
    (hmax : ndr32Reply.number (slice buf 44 4) = n)
    (hdense : ∀ o, 48 ≤ o → o + 4 ≤ buf.length → ndr32Reply.number (slice buf o 4) ≠ 0) :
    enumPointers ndr32Reply buf = 1 + (1 + n * 2) := by
  have hword : ndr32Reply.word = 4 := rfl
  have halign : alignUp 4 28 = 28 ∧ alignUp 4 40 = 40 ∧ alignUp 4 44 = 44 := by decide
  have hone : ShareLevel.ofInt (toInt32 (ndr32Reply.number (slice buf 28 4)))
      = some .level1 := by
    rw [hlevel]
    decide
  have hsize : toUint64 (toInt32 n) = n := by
    rw [toInt32_of_lt hlt, toUint64]
    omega
  have hscan : scanElements (scanFields ndr32Reply buf shareInfo1Fields) n 48
      = ⟨n * 2, some (48 + n * 12)⟩ :=
    scanElements_dense hword hdense shareInfo1Fields n (Nat.le_refl _) (by decide) hlen.ge
  have hshares : scanShares ndr32Reply buf n shareInfo1Fields 44
      = scanElements (scanFields ndr32Reply buf shareInfo1Fields) n 48 := by
    rw [scanShares, hword, halign.2.2, if_neg (by omega), if_neg (by simpa using hmax)]
  have hhas : HasEntries ndr32Reply buf 36 := by
    rw [HasEntries, hword, halign.2.1, hcount]
    exact ⟨by omega, by omega, hentries⟩
  have hmore : entriesPointers ndr32Reply buf shareInfo1Fields 36 = 1 + n * 2 := by
    rw [entriesPointers, if_pos hhas, hword, halign.2.1, hcount, hsize, hshares, hscan]
  have hlevels := @levelPointers_some ndr32Reply buf _ 32
    (fun l => entriesPointers ndr32Reply buf l.fields 36) _ hone (by rw [hword]; omega) href
  rw [← hmore, enumPointers, hword, halign.1]
  exact hlevels

/-- With 511 shares, and the pointer of the request, one pointer has no room. -/
theorem deferred_leave_the_array :
    ¬ DeferredInside (SrvsvcReply.netrShareEnum.call {} sharesAsked) ndr32Reply
      (sharesReply 511) := by
  have hlen : (sharesReply 511).length = 48 + 511 * 12 := by
    rw [sharesReply, List.length_append, List.length_replicate]
    rfl
  -- what is read of the header
  have hheader : ∀ o, o + 4 ≤ 48 → slice (sharesReply 511) o 4 = slice (sharesHeader 511) o 4 :=
    fun o h => slice_append_left h
  have hdense : ∀ o, 48 ≤ o → o + 4 ≤ (sharesReply 511).length →
      ndr32Reply.number (slice (sharesReply 511) o 4) ≠ 0 := by
    intro o ho hin
    have hones : slice (sharesReply 511) o 4 = [1, 1, 1, 1] := by
      have hright : slice (sharesReply 511) o 4 = slice (List.replicate (12 * 511) 1) (o - 48) 4 :=
        slice_append_right (x := sharesHeader 511) ho
      rw [hright, slice, List.drop_replicate, List.take_replicate, Nat.min_eq_left (by omega)]
      rfl
    rw [hones]
    decide
  have hpointers := enumPointers_dense hlen (by decide) (by decide)
    (by rw [hheader 28 (by decide)]; decide) (by rw [hheader 32 (by decide)]; decide)
    (by rw [hheader 36 (by decide)]; decide) (by rw [hheader 40 (by decide)]; decide)
    (by rw [hheader 44 (by decide)]; decide) hdense
  have hhint : ndr32Reply.number (slice (sharesReply 511) 16 4) = 0 := by
    rw [hheader 16 (by decide)]
    decide
  have hroom := @deferredInside_iff_room .netrShareEnum {} sharesAsked rfl ndr32Reply rfl
    (sharesReply 511) (by omega)
  rw [hroom, SrvsvcReply.pointers, if_pos ⟨by omega, by omega⟩, SrvsvcReply.stubPointers, hpointers]
  decide

end Libsmb2.Dcerpc
