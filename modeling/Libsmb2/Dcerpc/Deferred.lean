import Libsmb2.Dcerpc.Strings

/-!
# Deferred pointers

What a decoder does to the pointers that are deferred.  Below the top level it adds those that it
finds in the buffer, up to where the buffer ends (`Defers`); and the coder of a string adds none
(`Settles`), so that the ones that are left are followed without any more.

* `Defers.bind` — one decoder after another;
* `elements_defers` — the elements of an array;
* `processDeferred_settles` — pointers that are followed and defer none.
-/

set_option autoImplicit false

namespace Libsmb2.Dcerpc

open Util

/-! ## What is found in a buffer -/

/-- How many pointers there are up to an offset, which is missing if the buffer ends before. -/
structure Scan where
  count : Nat
  next : Option Nat
  deriving DecidableEq, Repr

def Scan.andThen (w : Scan) (f : Nat → Scan) : Scan :=
  match w.next with
  | none => w
  | some o => ⟨w.count + (f o).count, (f o).next⟩

theorem Scan.andThen_some (n o : Nat) (f : Nat → Scan) :
    (⟨n, some o⟩ : Scan).andThen f = ⟨n + (f o).count, (f o).next⟩ := rfl

/-- A number of `w` octets. -/
def scanNumber (w : Nat) (buf : Bytes) (o : Nat) : Scan :=
  if buf.length < alignUp w o + w then ⟨0, none⟩ else ⟨0, some (alignUp w o + w)⟩

/-- A pointer, which is counted if it is not null. -/
def scanPtr (env : Env) (buf : Bytes) (o : Nat) : Scan :=
  if buf.length < alignUp env.word o + env.word then ⟨0, none⟩
  else ⟨if env.number (slice buf (alignUp env.word o) env.word) = 0 then 0 else 1,
    some (alignUp env.word o + env.word)⟩

/-- A number of elements. -/
def scanElements (scan : Nat → Scan) : Nat → Nat → Scan
  | 0, o => ⟨0, some o⟩
  | n + 1, o => (scan o).andThen (scanElements scan n)

section

variable {κ α β : Type} {env : Env}

/-! ## Decoders that defer pointers -/

/-- The states that a decoder below the top level leads to. -/
structure Alike (s t : State κ) : Prop where
  buf : t.buf = s.buf
  curPtr : t.curPtr = s.curPtr
  topLevel : t.topLevel = s.topLevel
  isConformanceRun : t.isConformanceRun = s.isConformanceRun
  fits : ∀ a w, s.heap.Fits a w → t.heap.Fits a w

theorem Alike.refl (s : State κ) : Alike s s := ⟨rfl, rfl, rfl, rfl, fun _ _ h => h⟩

theorem Alike.trans {r s t : State κ} (h : Alike r s) (h' : Alike s t) : Alike r t where
  buf := h'.buf.trans h.buf
  curPtr := h'.curPtr.trans h.curPtr
  topLevel := h'.topLevel.trans h.topLevel
  isConformanceRun := h'.isConformanceRun.trans h.isConformanceRun
  fits a w hfits := h'.fits a w (h.fits a w hfits)

/-- The decoder defers the pointers that a scan has found, and ends where the scan does; it writes
behind the array of pointers if they have no room. -/
def Defers (P : κ × Addr → Prop) (x : Ndr κ α) (s : State κ) (w : Scan) : Prop :=
  (w.count = 0 ∨ s.ptrs.length + w.count ≤ MAX_DEFERRED_PTR →
    match w.next with
    | none => ∃ t, x.run s = .fail t
    | some o => ∃ a t new, x.run s = .done a t ∧ t.offset = o ∧ Alike s t
        ∧ t.ptrs = s.ptrs ++ new ∧ new.length = w.count ∧ ∀ e ∈ new, P e)
  ∧ (w.count ≠ 0 → MAX_DEFERRED_PTR < s.ptrs.length + w.count → x.run s = .fault .deferred)

variable {P : κ × Addr → Prop} {x : Ndr κ α} {f : α → Ndr κ β} {s : State κ} {w : Scan}

theorem Defers.pure (a : α) : Defers P (pure a : Ndr κ α) s ⟨0, some s.offset⟩ :=
  ⟨fun _ => ⟨a, s, [], rfl, rfl, .refl s, (List.append_nil _).symm, rfl, nofun⟩,
    fun h => absurd rfl h⟩

theorem Defers.bind {g : Nat → Scan} (hx : Defers P x s w)
    (hf : ∀ a t, Alike s t → w.next = some t.offset → Defers P (f a) t (g t.offset)) :
    Defers P (x >>= f) s (w.andThen g) := by
  obtain ⟨hroom, hfull⟩ := hx
  cases hnext : w.next with
  | none =>
    have hthen : w.andThen g = w := by rw [Scan.andThen, hnext]
    rw [hthen]
    refine ⟨fun h => ?_, fun h h' => Run.bind_fault (hfull h h')⟩
    have := hroom h
    rw [hnext] at this ⊢
    obtain ⟨t, ht⟩ := this
    exact ⟨t, Run.bind_fail ht⟩
  | some o =>
    have hthen : w.andThen g = ⟨w.count + (g o).count, (g o).next⟩ := by rw [Scan.andThen, hnext]
    rw [hthen, Defers]
    rw [hnext] at hroom
    dsimp only at hroom ⊢
    by_cases hfirst : w.count = 0 ∨ s.ptrs.length + w.count ≤ MAX_DEFERRED_PTR
    · obtain ⟨a, t, new, hrun, hoff, halike, hptrs, hlen, hnew⟩ := hroom hfirst
      obtain ⟨hroom', hfull'⟩ := hf a t halike (by rw [hnext, hoff])
      rw [hoff] at hroom' hfull'
      have htlen : t.ptrs.length = s.ptrs.length + w.count := by
        rw [hptrs, List.length_append, hlen]
      rw [htlen] at hroom' hfull'
      rw [Run.bind_done hrun]
      refine ⟨fun h => ?_, fun h h' => hfull' (by omega) (by omega)⟩
      have := hroom' (by omega)
      revert this
      cases (g o).next with
      | none => exact id
      | some o' =>
        rintro ⟨b, r, new', hrun', hoff', halike', hptrs', hlen', hnew'⟩
        refine ⟨b, r, new ++ new', hrun', hoff', halike.trans halike', ?_, ?_, ?_⟩
        · rw [hptrs', hptrs, List.append_assoc]
        · rw [List.length_append, hlen, hlen']
        · intro e he
          rcases List.mem_append.mp he with he | he
          · exact hnew e he
          · exact hnew' e he
    · refine ⟨fun h => absurd h (by omega), fun _ _ => Run.bind_fault (hfull ?_ ?_)⟩
      · omega
      · omega

theorem Defers.mono {Q : κ × Addr → Prop} (h : Defers P x s w) (hPQ : ∀ e, P e → Q e) :
    Defers Q x s w := by
  obtain ⟨hroom, hfull⟩ := h
  refine ⟨fun h => ?_, hfull⟩
  have := hroom h
  revert this
  cases w.next with
  | none => exact id
  | some o =>
    rintro ⟨a, t, new, hrun, hoff, halike, hptrs, hlen, hnew⟩
    exact ⟨a, t, new, hrun, hoff, halike, hptrs, hlen, fun e he => hPQ e (hnew e he)⟩

/-- A number that is decoded in the second pass. -/
theorem ndrUintCoder_run (hdir : env.direction = .decode) (hrun : s.isConformanceRun = false)
    (w value : Nat) : (ndrUintCoder env w value).run s = (dcerpcGet env w).run s := by
  rw [ndrUintCoder, Run.get_bind, if_neg (by simp [hrun]), hdir]

/-- A number that is decoded into a field. -/
theorem ndrUintCoderAt_defers (hdir : env.direction = .decode) (hrun : s.isConformanceRun = false)
    {a : Addr} {w : Nat} (hfits : s.heap.Fits a w) :
    Defers P (ndrUintCoderAt env w a) s (scanNumber w s.buf s.offset) := by
  rw [Defers, ndrUintCoderAt, Run.get_bind, if_neg (by simp [hrun]), hdir, scanNumber]
  dsimp only
  rw [Run.run_bind, dcerpcGet_run]
  by_cases hlen : s.buf.length < alignUp w s.offset + w
  · rw [if_pos hlen, if_pos hlen]
    exact ⟨fun _ => ⟨_, rfl⟩, fun h => absurd rfl h⟩
  · rw [if_neg hlen, if_neg hlen, Run.andThen_done, store_run, if_pos hfits]
    refine ⟨fun _ => ⟨(), _, [], rfl, rfl, ⟨rfl, rfl, rfl, rfl, fun _ _ h => ?_⟩,
      (List.append_nil _).symm, rfl, nofun⟩, fun h => absurd rfl h⟩
    exact Heap.fits_put.mpr h

/-- A pointer that is decoded below the top level. -/
theorem ndrDecodePtr_run (hdir : env.direction = .decode) (hrun : s.isConformanceRun = false)
    (htop : s.topLevel = false) (run : κ → Addr → Ndr κ Unit) (a : Addr) (k : κ) :
    (ndrPtrCoder env run (some a) .unique k).run s =
      if s.buf.length < alignUp env.word s.offset + env.word then
        .fail { s with offset := alignUp env.word s.offset }
      else if env.number (slice s.buf (alignUp env.word s.offset) env.word) = 0 then
        .done () { s with offset := alignUp env.word s.offset + env.word }
      else if MAX_DEFERRED_PTR ≤ s.ptrs.length then .fault .deferred
      else .done () { s with
        offset := alignUp env.word s.offset + env.word
        ptrs := s.ptrs ++ [(k, a)] } := by
  rw [ndrPtrCoder, hdir]
  dsimp only
  rw [ndrDecodePtr, Run.get_bind, if_neg (by simp [hrun]), ndrUint3264Coder, Run.run_bind,
    ndrUintCoder_run hdir hrun, dcerpcGet_run]
  by_cases hlen : s.buf.length < alignUp env.word s.offset + env.word
  · rw [if_pos hlen, if_pos hlen, Run.andThen_fail]
  rw [if_neg hlen, if_neg hlen, Run.andThen_done]
  cases env.number (slice s.buf (alignUp env.word s.offset) env.word) with
  | zero => rfl
  | succ p =>
    change (follow run k a >>= fun _ => ptrOut run).run _ = _
    rw [if_neg (by omega), follow, Run.run_bind, Run.get_bind, if_neg (by simp [htop]),
      dcerpcAddDeferredPointer, Run.get_bind]
    by_cases hfull : MAX_DEFERRED_PTR ≤ s.ptrs.length
    · rw [if_pos hfull, if_pos hfull, Run.run_fault, Run.andThen_fault]
    · rw [if_neg hfull, if_neg hfull, Run.run_modify, Run.andThen_done, ptrOut, Run.get_bind]
      rw [if_neg (by simp [htop]), Run.run_pure]

/-- A pointer that nothing is decoded for. -/
theorem ndrDecodePtr_null (hdir : env.direction = .decode) (hrun : s.isConformanceRun = false)
    (run : κ → Addr → Ndr κ Unit) (k : κ) :
    (ndrPtrCoder env run none .unique k).run s =
      if s.buf.length < alignUp env.word s.offset + env.word then
        .fail { s with offset := alignUp env.word s.offset }
      else .done () { s with offset := alignUp env.word s.offset + env.word } := by
  rw [ndrPtrCoder, hdir]
  dsimp only
  rw [ndrDecodePtr, Run.get_bind, if_neg (by simp [hrun]), ndrUint3264Coder, Run.run_bind,
    ndrUintCoder_run hdir hrun, dcerpcGet_run]
  by_cases hlen : s.buf.length < alignUp env.word s.offset + env.word
  · rw [if_pos hlen, if_pos hlen, Run.andThen_fail]
  · rw [if_neg hlen, if_neg hlen, Run.andThen_done]
    cases env.number (slice s.buf (alignUp env.word s.offset) env.word) with
    | zero => rfl
    | succ p => rfl

theorem ndrPtrCoder_defers (hdir : env.direction = .decode) (hrun : s.isConformanceRun = false)
    (htop : s.topLevel = false) (run : κ → Addr → Ndr κ Unit) {a : Addr} {k : κ} (hk : P (k, a)) :
    Defers P (ndrPtrCoder env run (some a) .unique k) s (scanPtr env s.buf s.offset) := by
  rw [Defers, ndrDecodePtr_run hdir hrun htop, scanPtr]
  by_cases hlen : s.buf.length < alignUp env.word s.offset + env.word
  · rw [if_pos hlen, if_pos hlen]
    exact ⟨fun _ => ⟨_, rfl⟩, fun h => absurd rfl h⟩
  rw [if_neg hlen, if_neg hlen]
  by_cases hnull : env.number (slice s.buf (alignUp env.word s.offset) env.word) = 0
  · rw [if_pos hnull, if_pos hnull]
    exact ⟨fun _ => ⟨(), _, [], rfl, rfl, ⟨rfl, rfl, rfl, rfl, fun _ _ h => h⟩,
      (List.append_nil _).symm, rfl, nofun⟩, fun h => absurd rfl h⟩
  · rw [if_neg hnull, if_neg hnull]
    dsimp only
    by_cases hfull : MAX_DEFERRED_PTR ≤ s.ptrs.length
    · rw [if_pos hfull]
      exact ⟨fun h => absurd h (by omega), fun _ _ => rfl⟩
    · rw [if_neg hfull]
      refine ⟨fun _ => ⟨(), _, [(k, a)], rfl, rfl, ⟨rfl, rfl, rfl, rfl, fun _ _ h => h⟩, rfl, rfl,
        ?_⟩, fun _ h => absurd h (by omega)⟩
      intro e he
      rw [List.mem_singleton.mp he]
      exact hk

/-- What a decoder defers that starts as another one does. -/
theorem Defers.of_run {y : Ndr κ α} {s' : State κ} (hrun : y.run s = x.run s') (halike : Alike s s')
    (hptrs : s'.ptrs = s.ptrs) (h : Defers P x s' w) : Defers P y s w := by
  rw [Defers, hptrs] at h
  rw [Defers, hrun]
  obtain ⟨hroom, hfull⟩ := h
  refine ⟨fun h => ?_, hfull⟩
  have := hroom h
  revert this
  cases w.next with
  | none => exact id
  | some o =>
    rintro ⟨a, t, new, hdone, hoff, halike', hrest⟩
    exact ⟨a, t, new, hdone, hoff, halike.trans halike', hrest⟩

/-- What is deferred in the second pass, where the first one leaves these pointers. -/
theorem ndrDoCoder_defers {coder : Ndr κ Unit} {t : State κ}
    (hfirst : coder.run { s with maxAlignment := 1, isConformanceRun := true } = .done () t)
    (halike : Alike s { t with isConformanceRun := false }) (hptrs : t.ptrs = s.ptrs)
    (hsecond : Defers P coder
      { t with offset := alignUp t.maxAlignment t.offset, isConformanceRun := false } w) :
    Defers P (ndrDoCoder coder) s w := by
  have halike' : Alike s
      { t with offset := alignUp t.maxAlignment t.offset, isConformanceRun := false } :=
    ⟨halike.buf, halike.curPtr, halike.topLevel, halike.isConformanceRun, halike.fits⟩
  refine hsecond.of_run ?_ halike' hptrs
  rw [ndrDoCoder_run, hfirst, Run.andThen_done]

/-- The elements of an array are decoded one after another, as far as they lie in the buffer; each
of them takes four octets or more. -/
theorem elements_defers {elemSize : Nat} {coder : Addr → Ndr κ Unit} {scan : Nat → Scan}
    {I : State κ → Prop} (hI : ∀ s t, I s → Alike s t → I t)
    (hstep : ∀ o o', (scan o).next = some o' → o + 4 ≤ o')
    (hcoder : ∀ a s, I s → (s.offset < s.buf.length → s.heap.Fits a elemSize) →
      Defers P (coder a) s (scan s.offset))
    {n : Nat} {a : Addr} (hs : I s)
    (hfits : ∀ i < n, s.offset + 4 * i < s.buf.length →
      s.heap.Fits (a.add (i * elemSize)) elemSize) :
    Defers P (elements elemSize coder n a) s (scanElements scan n s.offset) := by
  induction n generalizing a s with
  | zero => exact .pure ()
  | succ n ih =>
    have hzero : a.add (0 * elemSize) = a := by rw [Nat.zero_mul]; rfl
    have hfirst := hfits 0 (by omega)
    rw [hzero] at hfirst
    apply (hcoder a s hs hfirst).bind
    intro _ t halike hnext
    have hmore := hstep _ _ hnext
    apply ih (hI s t hs halike)
    intro i hi hin
    have haddr : (a.add elemSize).add (i * elemSize) = a.add ((i + 1) * elemSize) := by
      rw [Nat.succ_mul, Addr.add, Addr.add, Addr.add, Nat.add_comm (i * elemSize)]
      simp only [Nat.add_assoc]
    rw [haddr]
    rw [halike.buf] at hin
    exact halike.fits _ _ (hfits (i + 1) (by omega) (by omega))

/-! ## Decoders that defer nothing -/

/-- The pointers that are deferred, and whether what is decoded is at the top level. -/
def State.deferred (s : State κ) : List (κ × Addr) × Nat × Bool := (s.ptrs, s.curPtr, s.topLevel)

/-- The decoder leaves the pointers that are deferred as they are. -/
abbrev Settles (x : Ndr κ α) : Prop := Run.Keeps State.deferred (· ≠ .deferred) x

theorem load_settles (a : Addr) : Settles (load (κ := κ) a) := by
  intro s
  rw [load_run]
  by_cases h : s.heap.Fits a 1
  · rw [if_pos h]
  · rw [if_neg h]
    exact nofun

theorem store_settles (a : Addr) (w : Nat) (c : Cell) : Settles (store (κ := κ) a w c) := by
  intro s
  rw [store_run]
  by_cases h : s.heap.Fits a w
  · rw [if_pos h]
    rfl
  · rw [if_neg h]
    exact nofun

theorem dcerpcGet_settles (w : Nat) : Settles (dcerpcGet (κ := κ) env w) := by
  intro s
  rw [dcerpcGet_run]
  by_cases h : s.buf.length < alignUp w s.offset + w
  · rw [if_pos h]
    trivial
  · rw [if_neg h]
    rfl

section

variable (hdir : env.direction = .decode)

include hdir

theorem ndrUintCoder_settles (w value : Nat) : Settles (ndrUintCoder (κ := κ) env w value) := by
  refine Run.Keeps.get.bind fun s => ?_
  split
  · exact (Run.Keeps.modify (by intro; rfl)).bind fun _ => .pure _
  · rw [hdir]
    exact dcerpcGet_settles w

theorem ndrUintCoderAt_settles (w : Nat) (a : Addr) :
    Settles (ndrUintCoderAt (κ := κ) env w a) := by
  refine Run.Keeps.get.bind fun s => ?_
  split
  · exact .modify (by intro; rfl)
  · rw [hdir]
    exact (dcerpcGet_settles w).bind fun _ => store_settles _ _ _

theorem ndrConformanceCoder_settles (value : Nat) :
    Settles (ndrConformanceCoder (κ := κ) env value) := by
  refine Run.Keeps.get.bind fun s => ?_
  split
  · exact .pure _
  · rw [hdir]
    exact dcerpcGet_settles _

end

theorem loadUtf16_settles (a : Addr) : Settles (loadUtf16 (κ := κ) a) := by
  refine (load_settles a).bind fun c => ?_
  split
  · exact .pure _
  · exact .fault nofun

theorem swapUnits_settles (n i : Nat) : Settles (swapUnits (κ := κ) env n i) := by
  induction n generalizing i with
  | zero => exact .pure _
  | succ n ih =>
    refine Run.Keeps.get.bind fun s => ?_
    dsimp only
    split
    · exact .fail
    · exact (Run.Keeps.modify (by intro; rfl)).bind fun _ => ih (i + 1)

/-- The decoder of a string defers nothing. -/
theorem ndrUtf16zCoder_settles (hdir : env.direction = .decode) (a : Addr) (nult : Bool) :
    Settles (ndrUtf16zCoder' (κ := κ) env a nult) := by
  have hconvert : ∀ u, Settles (κ := κ) (convertUnits a u) := by
    intro u
    refine Run.Keeps.get.bind fun s => ?_
    split
    · exact .fault nofun
    · exact (Run.Keeps.modify (by intro; rfl)).bind fun _ => store_settles _ _ _
  have hdecode : Settles (κ := κ) (ndrDecodeUtf16 env a) := by
    refine Run.Keeps.get.bind fun s => (loadUtf16_settles a).bind fun u => ?_
    split
    · refine (ndrConformanceCoder_settles hdir _).bind fun _ => (store_settles _ _ _).bind fun _ =>
        (ndrConformanceCoder_settles hdir _).bind fun _ => (store_settles _ _ _).bind fun _ =>
        (ndrConformanceCoder_settles hdir _).bind fun _ => (store_settles _ _ _).bind fun _ =>
        .modify (by intro; rfl)
    · split
      · exact .fail
      · dsimp only
        split
        · exact (swapUnits_settles _ _).bind fun _ => hconvert u
        · exact hconvert u
  refine Run.Keeps.get.bind fun s => ?_
  rw [hdir]
  split
  · exact (load_settles a).bind fun _ => (store_settles _ _ _).bind fun _ => hdecode
  · exact hdecode.thenAlways ((loadUtf16_settles a).bind fun _ => store_settles _ _ _)

theorem ndrDoCoder_settles {coder : Ndr κ Unit} (h : Settles coder) : Settles (ndrDoCoder coder) :=
  (Run.Keeps.modify (by intro; rfl)).bind fun _ => h.bind fun _ =>
    (Run.Keeps.modify (by intro; rfl)).bind fun _ => h

/-! ## The top level -/

/-- No pointer is left to be followed at the top level. -/
def Idle (s : State κ) : Prop := s.topLevel = true ∧ s.curPtr = s.ptrs.length

/-- A run writes inside the array of pointers, and leaves none of them. -/
def Ends (o : Util.Outcome (State κ) Fault α) : Prop :=
  match o with
  | .done _ t => Idle t
  | .fail _ => True
  | .fault f => f ≠ .deferred

theorem Ends.andThen {o : Util.Outcome (State κ) Fault α} {f : α → State κ → Util.Outcome (State κ) Fault β}
    (ho : Ends o) (hf : ∀ a t, Idle t → Ends (f a t)) : Ends (o.andThen f) := by
  cases o with
  | done a t => exact hf a t ho
  | fail t => trivial
  | fault e => exact ho

/-- The pointers that are deferred have been left as they were. -/
def Settled (s : State κ) (o : Util.Outcome (State κ) Fault α) : Prop :=
  match o with
  | .done _ t => t.deferred = s.deferred
  | .fail _ => True
  | .fault f => f ≠ .deferred

theorem Settles.ends {x : Ndr κ α} (hx : Settles x) {s : State κ} (hs : Idle s) :
    Ends (x.run s) := by
  have hkeeps := hx s
  cases hrun : x.run s with
  | done a t =>
    rw [hrun] at hkeeps
    have hptrs : t.ptrs = s.ptrs ∧ t.curPtr = s.curPtr ∧ t.topLevel = s.topLevel := by
      simpa [State.deferred] using hkeeps
    obtain ⟨hptrs, hcur, htop⟩ := hptrs
    exact ⟨htop.trans hs.1, by rw [hptrs, hcur, hs.2]⟩
  | fail t => trivial
  | fault e =>
    rw [hrun] at hkeeps
    exact hkeeps

/-- All pointers have been followed, unless the decoder has failed. -/
def Drained (o : Util.Outcome (State κ) Fault α) : Prop :=
  match o with
  | .done _ t => t.curPtr = t.ptrs.length
  | .fail _ => True
  | .fault f => f ≠ .deferred

/-- Pointers that are followed and defer none. -/
theorem processDeferred_settles {run : κ → Addr → Ndr κ Unit} {turns : Nat} {s : State κ}
    (hrun : ∀ e ∈ s.ptrs.drop s.curPtr, Settles (run e.1 e.2)) :
    Drained ((dcerpcProcessDeferredPointers run turns).run s) := by
  induction turns generalizing s with
  | zero => exact nofun
  | succ turns ih =>
    rw [dcerpcProcessDeferredPointers, Run.get_bind]
    by_cases hend : s.curPtr = s.ptrs.length
    · rw [if_pos hend, Run.run_pure]
      exact hend
    rw [if_neg hend]
    cases hget : s.ptrs[s.curPtr]? with
    | none => exact nofun
    | some e =>
      obtain ⟨k, a⟩ := e
      obtain ⟨hlt, hval⟩ := List.getElem?_eq_some_iff.mp hget
      have hdrop : s.ptrs.drop s.curPtr = (k, a) :: s.ptrs.drop (s.curPtr + 1) := by
        rw [← hval, List.drop_eq_getElem_cons hlt]
      have hfirst := ndrDoCoder_settles (hrun (k, a) (by rw [hdrop]; exact List.mem_cons_self ..))
      dsimp only
      rw [Run.modify_bind, Run.run_bind]
      have hkeeps := hfirst { s with curPtr := s.curPtr + 1 }
      cases hdone : (ndrDoCoder (run k a)).run { s with curPtr := s.curPtr + 1 } with
      | done b t =>
        rw [hdone] at hkeeps
        have hptrs : t.ptrs = s.ptrs ∧ t.curPtr = s.curPtr + 1 ∧ t.topLevel = s.topLevel := by
          simpa [State.deferred] using hkeeps
        rw [Run.andThen_done]
        apply ih
        rw [hptrs.1, hptrs.2.1]
        intro e he
        exact hrun e (by rw [hdrop]; exact List.mem_cons_of_mem _ he)
      | fail t => trivial
      | fault f =>
        rw [hdone] at hkeeps
        exact hkeeps

/-- So many pointers have no room behind those that there are. -/
def NoRoom (count ptrs : Nat) : Prop := count ≠ 0 ∧ MAX_DEFERRED_PTR < ptrs + count

instance (count ptrs : Nat) : Decidable (NoRoom count ptrs) := inferInstanceAs (Decidable (_ ∧ _))

/-- One turn takes the next of the pointers. -/
theorem processDeferred_turn {run : κ → Addr → Ndr κ Unit} {turns : Nat} {s : State κ} {k : κ}
    {a : Addr} {pre : List (κ × Addr)} (hptrs : s.ptrs = pre ++ [(k, a)])
    (hcur : s.curPtr = pre.length) :
    (dcerpcProcessDeferredPointers run (turns + 1)).run s
      = ((ndrDoCoder (run k a)).run { s with curPtr := pre.length + 1 }).andThen fun _ t =>
        (dcerpcProcessDeferredPointers run turns).run t := by
  have hlen : s.ptrs.length = pre.length + 1 := by rw [hptrs, List.length_append]; rfl
  have hget : s.ptrs[s.curPtr]? = some (k, a) := by
    rw [hptrs, hcur, List.getElem?_append_right (Nat.le_refl _), Nat.sub_self]
    rfl
  rw [dcerpcProcessDeferredPointers, Run.get_bind, if_neg (by omega), hget]
  dsimp only
  rw [Run.modify_bind, Run.run_bind, hcur]

/-- The last pointer, and those that it defers, which defer none. -/
theorem processDeferred_last {run : κ → Addr → Ndr κ Unit} {turns : Nat} {s : State κ} {k : κ}
    {a : Addr} {pre : List (κ × Addr)} {w : Scan} (hptrs : s.ptrs = pre ++ [(k, a)])
    (hcur : s.curPtr = pre.length)
    (h : Defers (fun e => Settles (run e.1 e.2)) (ndrDoCoder (run k a))
      { s with curPtr := pre.length + 1 } w) :
    (¬ NoRoom w.count s.ptrs.length →
      Drained ((dcerpcProcessDeferredPointers run (turns + 1)).run s))
    ∧ (NoRoom w.count s.ptrs.length →
      (dcerpcProcessDeferredPointers run (turns + 1)).run s = .fault .deferred) := by
  have hlen : s.ptrs.length = pre.length + 1 := by rw [hptrs, List.length_append]; rfl
  obtain ⟨hroom, hfull⟩ := h
  rw [processDeferred_turn hptrs hcur]
  refine ⟨fun hno => ?_, fun hover => ?_⟩
  · have hfirst := hroom (by
      by_contra hno'
      rw [not_or] at hno'
      exact hno ⟨hno'.1, by dsimp only at hno'; omega⟩)
    revert hfirst
    cases w.next with
    | none =>
      rintro ⟨t, ht⟩
      rw [ht]
      trivial
    | some o =>
      rintro ⟨_, t, new, hdone, -, halike, hnew, -, hsettles⟩
      rw [hdone, Run.andThen_done]
      have hdrop : t.ptrs.drop t.curPtr = new := by
        rw [hnew, halike.curPtr]
        exact List.drop_left' hlen
      exact processDeferred_settles (by rw [hdrop]; exact hsettles)
  · rw [hfull hover.1 hover.2, Run.andThen_fault]

end

end Libsmb2.Dcerpc
