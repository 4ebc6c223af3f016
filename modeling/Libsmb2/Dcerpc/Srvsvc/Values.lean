import Libsmb2.Dcerpc.Encoding
import Libsmb2.Dcerpc.Srvsvc

/-!
# The value that is encoded

Between its two passes the field of a string holds a pointer to the block with its counts.  The
second pass puts back what it held, also if it fails; a first pass that fails does not.

* `guarded` — the coders, stopped at a string whose first pass is to fail;
* `Tracks.bind` — a coder and the guarded one, one after another;
* `encoding_leaves_the_value_iff` — when the value is the one that was handed over.
-/

set_option autoImplicit false

namespace Libsmb2.Dcerpc

open Util

/-! ## Coders with a guard -/

/-- The coders that `ndr_do_coder` is called with. -/
inductive Coded
  | named (k : Srvsvc)
  | netrShareAddReq
  | netrShareAddRep
  | netrShareEnumReq
  | netrShareEnumRep
  | netrShareGetInfoReq
  | netrShareGetInfoRep (reqLevel : Nat)
  | netrShareSetInfoReq
  | netrShareDelReq
  | netrShareDelRep
  | netrShareCheckReq
  | netrShareCheckRep
  deriving DecidableEq, Repr

/-- The coders under their names. -/
def coderOf (env : Env) : Coded → Addr → Ndr Srvsvc Unit
  | .named k => srvsvcRun env k
  | .netrShareAddReq => srvsvcNetrShareAddReqCoder env
  | .netrShareAddRep => srvsvcNetrShareAddRepCoder env
  | .netrShareEnumReq => srvsvcNetrShareEnumReqCoder env
  | .netrShareEnumRep => srvsvcNetrShareEnumRepCoder env
  | .netrShareGetInfoReq => srvsvcNetrShareGetInfoReqCoder env
  | .netrShareGetInfoRep reqLevel => srvsvcNetrShareGetInfoRepCoder env reqLevel
  | .netrShareSetInfoReq => srvsvcNetrShareSetInfoReqCoder env
  | .netrShareDelReq => srvsvcNetrShareDelReqCoder env
  | .netrShareDelRep => srvsvcNetrShareDelRepCoder env
  | .netrShareCheckReq => srvsvcNetrShareCheckReqCoder env
  | .netrShareCheckRep => srvsvcNetrShareCheckRepCoder env

section
variable (env : Env) (run : SrvsvcRun)

/-- A pointer at the top level that is followed like this. -/
def ptrWith (a : Addr) (type : PtrType) (k : Srvsvc) : Ndr Srvsvc Unit :=
  ndrPtrCoder env run (some a) type k

/-- The same coders, whose pointers are followed like this. -/
def coderWith : Coded → Addr → Ndr Srvsvc Unit
  | .named k, a => run k a
  | .netrShareAddReq, a => do
    ptrWith env run a .unique .utf16z
    ndrUint32CoderAt env (a.add 8)
    setSwitchIsAt (a.add 8)
    ptrWith env run (a.add 16) .ref .shareInfoStruct
    ptrWith env run (a.add 72) .unique .uint32
  | .netrShareAddRep, a => do
    ptrWith env run a .unique .uint32
    ndrUint32CoderAt env (a.add 4)
  | .netrShareEnumReq, a => do
    ptrWith env run a .unique .utf16z
    ptrWith env run (a.add 8) .ref .shareEnumStructStruct
    ptrWith env run (a.add 32) .ref .uint32
    ptrWith env run (a.add 36) .unique .uint32
  | .netrShareEnumRep, a => do
    ptrWith env run a .ref .shareEnumStruct
    ptrWith env run (a.add 24) .ref .uint32
    ptrWith env run (a.add 28) .unique .uint32
    ndrUint32CoderAt env (a.add 32)
  | .netrShareGetInfoReq, a => do
    ptrWith env run a .unique .utf16z
    ptrWith env run (a.add 8) .ref .utf16z
    ndrUint32CoderAt env (a.add 16)
    setSwitchIsAt (a.add 16)
  | .netrShareGetInfoRep reqLevel, a => do
    setSwitchIs reqLevel
    ptrWith env run a .ref .shareInfoStruct
    ndrUint32CoderAt env (a.add 56)
  | .netrShareSetInfoReq, a => do
    ptrWith env run a .unique .utf16z
    ptrWith env run (a.add 8) .ref .utf16z
    ndrUint32CoderAt env (a.add 16)
    setSwitchIsAt (a.add 16)
    ptrWith env run (a.add 24) .ref .shareInfoStruct
    ptrWith env run (a.add 80) .unique .uint32
  | .netrShareDelReq, a => do
    ptrWith env run a .unique .utf16z
    ptrWith env run (a.add 8) .ref .utf16z
    ndrUint32CoderAt env (a.add 16)
  | .netrShareDelRep, a => ndrUint32CoderAt env a
  | .netrShareCheckReq, a => do
    ptrWith env run a .unique .utf16z
    ptrWith env run (a.add 8) .ref .utf16z
  | .netrShareCheckRep, a => do
    ptrWith env run a .ref .uint32
    ndrUint32CoderAt env (a.add 4)

end

theorem coderWith_srvsvcRun (env : Env) (c : Coded) :
    coderWith env (srvsvcRun env) c = coderOf env c := by
  cases c with
  | _ => rfl

/-- The string in a field can be converted, and there is room for its counts. -/
def StringFits (env : Env) (a : Addr) (s : State Srvsvc) : Prop :=
  unitsOf (s.heap.cell a) ≠ none ∧ alignUp env.word s.offset + 3 * env.word ≤ s.buf.length

instance (env : Env) (a : Addr) (s : State Srvsvc) : Decidable (StringFits env a s) :=
  inferInstanceAs (Decidable (_ ∧ _))

/-- The coder of a string, which stops before a first pass that is to fail. -/
def guardedString (env : Env) (a : Addr) : Ndr Srvsvc Unit := do
  let s ← Run.get
  if s.isConformanceRun = true ∧ ¬ StringFits env a s then Run.fault .null
  else ndrUtf16zCoder env a

/-- What a pointer names, with the guard before every string. -/
def guarded (env : Env) : SrvsvcRun
  | .utf16z, a => guardedString env a
  | k, a => srvsvcRun env k a

/-! ## What a coder leaves -/

/-- The value is the one that was handed over, whether the coder fails or not. -/
def LeavesValue {α : Type} (s : State Srvsvc) : Util.Outcome (State Srvsvc) Fault α → Prop
  | .done _ t | .fail t => t.heap = s.heap
  | .fault _ => True

/-- The guarded coder does what the coder does, and the value is left; or it stops where the coder
fails and does not leave the value. -/
def Tracks {α : Type} (x y : Ndr Srvsvc α) : Prop :=
  ∀ s, (∃ f, x.run s = .fault f) ∨ (y.run s = x.run s ∧ LeavesValue s (x.run s)) ∨
    ∃ t, x.run s = .fail t ∧ t.heap ≠ s.heap ∧ ∃ f, y.run s = .fault f

section
variable {α β : Type} {x y : Ndr Srvsvc α} {f g : α → Ndr Srvsvc β}

theorem Tracks.refl (h : ∀ s, LeavesValue s (x.run s)) : Tracks x x :=
  fun s => .inr (.inl ⟨rfl, h s⟩)

theorem Tracks.pure (a : α) : Tracks (pure a : Ndr Srvsvc α) (pure a) := .refl fun _ => rfl

theorem Tracks.fail : Tracks (Run.fail : Ndr Srvsvc α) Run.fail := .refl fun _ => rfl

theorem Tracks.fault (e : Fault) : Tracks (Run.fault e : Ndr Srvsvc α) (Run.fault e) :=
  fun _ => .inl ⟨e, rfl⟩

theorem Tracks.get : Tracks (Run.get : Ndr Srvsvc _) Run.get := .refl fun _ => rfl

theorem Tracks.modify {h : State Srvsvc → State Srvsvc} (hheap : ∀ s, (h s).heap = s.heap) :
    Tracks (Run.modify h : Ndr Srvsvc Unit) (Run.modify h) := .refl hheap

/-- One coder after another. -/
theorem Tracks.bind (hx : Tracks x y) (hf : ∀ a, Tracks (f a) (g a)) :
    Tracks (x >>= f) (y >>= g) := by
  intro s
  rcases hx s with ⟨e, he⟩ | ⟨hsame, hleaves⟩ | ⟨t, ht, hheap, e, he⟩
  · exact .inl ⟨e, Run.bind_fault he⟩
  · cases hrun : x.run s with
    | done a t =>
      rw [hrun] at hsame hleaves
      have hheap : t.heap = s.heap := hleaves
      rw [Run.bind_done hrun, Run.bind_done hsame]
      rcases hf a t with hfault | ⟨hsame', hleaves'⟩ | ⟨r, hr, hchanged, hstop⟩
      · exact .inl hfault
      · refine .inr (.inl ⟨hsame', ?_⟩)
        cases hrun' : (f a).run t with
        | done b r =>
          rw [hrun'] at hleaves'
          exact Eq.trans hleaves' hheap
        | fail r =>
          rw [hrun'] at hleaves'
          exact Eq.trans hleaves' hheap
        | fault e => trivial
      · exact .inr (.inr ⟨r, hr, by rw [← hheap]; exact hchanged, hstop⟩)
    | fail t =>
      rw [hrun] at hsame hleaves
      rw [Run.bind_fail hrun, Run.bind_fail hsame]
      exact .inr (.inl ⟨rfl, hleaves⟩)
    | fault e => exact .inl ⟨e, Run.bind_fault hrun⟩
  · exact .inr (.inr ⟨t, Run.bind_fail ht, hheap, e, Run.bind_fault he⟩)

/-- The value is left if and only if the guard does not stop the coder. -/
theorem Tracks.leavesValue_iff (h : Tracks x y) (s : State Srvsvc) :
    LeavesValue s (x.run s) ↔ (∃ f, x.run s = .fault f) ∨ y.run s = x.run s := by
  rcases h s with ⟨e, he⟩ | ⟨hsame, hleaves⟩ | ⟨t, ht, hheap, e, he⟩
  · rw [he]
    exact iff_of_true trivial (.inl ⟨e, rfl⟩)
  · exact iff_of_true hleaves (.inr hsame)
  · rw [ht, he]
    refine iff_of_false hheap ?_
    rintro (⟨f, hf⟩ | hf)
    · cases hf
    · cases hf

end

/-! ## Coders without strings -/

section
variable {env : Env}

theorem load_tracks (a : Addr) : Tracks (load a) (load a) := by
  refine .refl fun s => ?_
  rw [load_run]
  split
  · exact rfl
  · trivial

theorem dcerpcSet_tracks (w value : Nat) : Tracks (dcerpcSet env w value) (dcerpcSet env w value) := by
  refine .refl fun s => ?_
  rw [dcerpcSet_run]
  split
  · exact rfl
  · exact rfl

theorem needAlignment_tracks (w : Nat) : Tracks (needAlignment w) (needAlignment w) :=
  .modify fun _ => rfl

theorem setTopLevel_tracks (b : Bool) : Tracks (setTopLevel b) (setTopLevel b) :=
  .modify fun _ => rfl

theorem dcerpcAddDeferredPointer_tracks (k : Srvsvc) (a : Addr) :
    Tracks (dcerpcAddDeferredPointer k a) (dcerpcAddDeferredPointer k a) := by
  refine Tracks.get.bind fun s => ?_
  split
  · exact .fault _
  · exact .modify fun _ => rfl

section
variable (hdir : env.direction = .encode)

include hdir

theorem ndrUintCoder_tracks (w value : Nat) :
    Tracks (ndrUintCoder env w value) (ndrUintCoder env w value) := by
  refine Tracks.get.bind fun s => ?_
  split
  · exact (needAlignment_tracks w).bind fun _ => .pure value
  · rw [hdir]
    exact (dcerpcSet_tracks w value).bind fun _ => .pure value

theorem ndrUintCoderAt_tracks (w : Nat) (a : Addr) :
    Tracks (ndrUintCoderAt env w a) (ndrUintCoderAt env w a) := by
  refine Tracks.get.bind fun s => ?_
  split
  · exact needAlignment_tracks w
  · rw [hdir]
    exact (load_tracks a).bind fun _ => dcerpcSet_tracks _ _

theorem ndrConformanceCoder_tracks (value : Nat) :
    Tracks (ndrConformanceCoder env value) (ndrConformanceCoder env value) := by
  refine Tracks.get.bind fun s => ?_
  split
  · exact .pure value
  · rw [hdir]
    exact (dcerpcSet_tracks _ _).bind fun _ => .pure value

end

/-! ## Pointers -/

/-- What the guarded coders do behind a pointer. -/
def Follows (run run' : SrvsvcRun) : Prop :=
  ∀ k a, Tracks (ndrDoCoder (run k a)) (ndrDoCoder (run' k a))

theorem ndrDoCoder_tracks {x y : Ndr Srvsvc Unit} (h : Tracks x y) :
    Tracks (ndrDoCoder x) (ndrDoCoder y) := by
  refine Tracks.bind (.modify fun _ => rfl) fun _ => h.bind fun _ => ?_
  exact Tracks.bind (.modify fun _ => rfl) fun _ => h

section
variable {run run' : SrvsvcRun} (hrun : Follows run run')

include hrun

theorem dcerpcProcessDeferredPointers_tracks (turns : Nat) :
    Tracks (dcerpcProcessDeferredPointers run turns) (dcerpcProcessDeferredPointers run' turns) := by
  induction turns with
  | zero => exact .fault _
  | succ turns ih =>
    refine Tracks.get.bind fun s => ?_
    split
    · exact .pure ()
    · split
      · exact .fault _
      · exact Tracks.bind (.modify fun _ => rfl) fun _ => (hrun _ _).bind fun _ => ih

theorem follow_tracks (k : Srvsvc) (a : Addr) : Tracks (follow run k a) (follow run' k a) := by
  refine Tracks.get.bind fun s => ?_
  split
  · exact (setTopLevel_tracks _).bind fun _ => (hrun k a).bind fun _ => setTopLevel_tracks _
  · exact dcerpcAddDeferredPointer_tracks k a

theorem ptrOut_tracks : Tracks (ptrOut run) (ptrOut run') := by
  refine Tracks.get.bind fun s => ?_
  split
  · exact (setTopLevel_tracks _).bind fun _ =>
      (dcerpcProcessDeferredPointers_tracks hrun _).bind fun _ => setTopLevel_tracks _
  · exact .pure ()

variable (hdir : env.direction = .encode)

include hdir

theorem refPtr_tracks (k : Srvsvc) (a : Addr) :
    Tracks (refPtr env run k a) (refPtr env run' k a) := by
  refine Tracks.get.bind fun s => ?_
  split
  · exact follow_tracks hrun k a
  · exact (ndrUintCoder_tracks hdir _ _).bind fun _ => dcerpcAddDeferredPointer_tracks k a

theorem ndrPtrCoder_tracks (ptr : Option Addr) (type : PtrType) (k : Srvsvc) :
    Tracks (ndrPtrCoder env run ptr type k) (ndrPtrCoder env run' ptr type k) := by
  unfold ndrPtrCoder
  rw [hdir]
  refine Tracks.get.bind fun s => ?_
  split
  · exact needAlignment_tracks _
  · have hnumber : ∀ value, Tracks (ndrUint3264Coder env value) (ndrUint3264Coder env value) :=
      fun value => ndrUintCoder_tracks hdir _ value
    cases type with
    | ref =>
      cases ptr with
      | none => exact .fault _
      | some a => exact (refPtr_tracks hrun hdir k a).bind fun _ => ptrOut_tracks hrun
    | unique =>
      cases ptr with
      | none => exact (hnumber 0).bind fun _ => ptrOut_tracks hrun
      | some a =>
        exact (hnumber UPTR).bind fun _ => (follow_tracks hrun k a).bind fun _ => ptrOut_tracks hrun
    | full =>
      cases ptr with
      | none => exact (hnumber 0).bind fun _ => ptrOut_tracks hrun
      | some a =>
        exact Tracks.bind (.modify fun _ => rfl) fun _ => (hnumber _).bind fun _ =>
          (follow_tracks hrun k a).bind fun _ => ptrOut_tracks hrun

/-! ## Arrays and structures -/

theorem fieldsCoder_tracks (fs : List Field) (a : Addr) :
    Tracks (fieldsCoder env run a fs) (fieldsCoder env run' a fs) := by
  induction fs with
  | nil => exact .pure ()
  | cons f fs ih =>
    refine Tracks.bind ?_ fun _ => ih
    cases f with
    | string off => exact ndrPtrCoder_tracks hrun hdir _ _ _
    | dword off => exact ndrUintCoderAt_tracks hdir _ _

theorem sharesCoder_tracks (fs : List Field) (elemSize : Nat) (a : Addr) :
    Tracks (sharesCoder env elemSize (fun a => fieldsCoder env run a fs) a)
      (sharesCoder env elemSize (fun a => fieldsCoder env run' a fs) a) := by
  have helements : ∀ n a, Tracks (elements elemSize (fun a => fieldsCoder env run a fs) n a)
      (elements elemSize (fun a => fieldsCoder env run' a fs) n a) := by
    intro n
    induction n with
    | zero => exact fun a => .pure ()
    | succ n ih => exact fun a => (fieldsCoder_tracks hrun hdir fs a).bind fun _ => ih _
  refine Tracks.get.bind fun s => (ndrConformanceCoder_tracks hdir _).bind fun p => ?_
  split
  · exact .fail
  · exact helements _ _

/-- The array of a container that is encoded is there. -/
theorem containerCoder_tracks (elemSize : Nat) (carray : Srvsvc) (a : Addr) :
    Tracks (containerCoder env run elemSize carray a) (containerCoder env run' elemSize carray a) := by
  have hsize : ∀ n, Tracks (setSizeIs n) (setSizeIs n) := by
    intro n
    refine .modify fun s => ?_
    split
    · rfl
    · rfl
  have halloc : ∀ n a, Tracks (allocEntries env n elemSize a) (allocEntries env n elemSize a) := by
    intro n a
    unfold allocEntries
    rw [if_neg (by simp [hdir])]
    exact .pure ()
  refine (ndrUintCoderAt_tracks hdir _ a).bind fun _ => (load_tracks a).bind fun n => ?_
  refine (hsize _).bind fun _ => (halloc _ _).bind fun _ => (load_tracks _).bind fun p => ?_
  exact ndrPtrCoder_tracks hrun hdir _ _ _

/-- The coders that are no strings. -/
theorem srvsvcCoder_tracks {k : Srvsvc} (hk : k ≠ .utf16z) (a : Addr) :
    Tracks (srvsvcCoder env run k a) (srvsvcCoder env run' k a) := by
  have hptr : ∀ a k, Tracks (ndrPtrCoder env run (some a) .unique k)
      (ndrPtrCoder env run' (some a) .unique k) := fun a k => ndrPtrCoder_tracks hrun hdir _ _ k
  have hswitch : ∀ n : Int, Tracks (Run.modify fun s => { s with switchIs := n })
      (Run.modify fun s => { s with switchIs := n }) := fun n => .modify fun _ => rfl
  have hunion : ∀ a, Tracks (srvsvcShareEnumUnionCoder env run a)
      (srvsvcShareEnumUnionCoder env run' a) := by
    intro a
    refine Tracks.get.bind fun s => ?_
    split
    · exact hptr _ _
    · exact hptr _ _
    · exact hptr _ _
    · exact .pure ()
  have henum : Tracks (srvsvcShareEnumStructCoder env run a)
      (srvsvcShareEnumStructCoder env run' a) := by
    refine (ndrUintCoderAt_tracks hdir _ a).bind fun _ => (load_tracks _).bind fun _ => ?_
    refine (ndrUintCoder_tracks hdir _ _).bind fun p => Tracks.bind ?_ fun _ =>
      (hswitch _).bind fun _ => hunion _
    unfold storeSwitchIs
    rw [hdir]
    exact .pure ()
  cases k with
  | uint32 => exact ndrUintCoderAt_tracks hdir _ a
  | utf16z => exact absurd rfl hk
  | shareInfo0Struct => exact fieldsCoder_tracks hrun hdir _ a
  | shareInfo1Struct => exact fieldsCoder_tracks hrun hdir _ a
  | shareInfo2Struct => exact fieldsCoder_tracks hrun hdir _ a
  | shareInfo0Carray => exact sharesCoder_tracks hrun hdir _ _ a
  | shareInfo1Carray => exact sharesCoder_tracks hrun hdir _ _ a
  | shareInfo2Carray => exact sharesCoder_tracks hrun hdir _ _ a
  | shareInfo0Container => exact containerCoder_tracks hrun hdir _ _ a
  | shareInfo1Container => exact containerCoder_tracks hrun hdir _ _ a
  | shareInfo2Container => exact containerCoder_tracks hrun hdir _ _ a
  | shareEnumStruct => exact henum
  | shareEnumStructStruct => exact henum
  | shareInfoStruct =>
    refine Tracks.get.bind fun s => Tracks.bind ?_ fun _ => .pure ()
    refine (ndrUintCoder_tracks hdir _ _).bind fun _ => (hswitch _).bind fun _ =>
      Tracks.bind ?_ fun _ => .pure _
    refine Tracks.get.bind fun s => ?_
    split
    · exact hptr _ _
    · exact hptr _ _
    · exact hptr _ _
    · exact .pure ()

end

/-! ## Strings -/

/-- A field is not part of what it holds. -/
theorem Utf16.cell_ne (u : Utf16) : u.cell ≠ u.utf8 := by
  intro h
  have hsize := congrArg sizeOf h
  rw [Utf16.cell] at hsize
  simp at hsize

theorem put_ne {heap : Heap} {a : Addr} (hfits : heap.Fits a 8) {u : Utf16}
    (hcell : u.utf8 = heap.cell a) : heap.put a u.cell ≠ heap := by
  intro h
  have hput : (heap.put a u.cell).cell a = u.cell := Heap.cell_put hfits
  rw [h, ← hcell] at hput
  exact u.cell_ne hput.symm

section
variable {a : Addr} {s : State Srvsvc}

theorem string_faults (hfits : ¬ s.heap.Fits a 8) :
    ∃ f, (ndrDoCoder (ndrUtf16zCoder env a)).run s = .fault f := by
  rw [ndrDoCoder_run, ndrUtf16zCoder, ndrUtf16zCoder', Run.get_bind, if_pos rfl, Run.run_bind,
    load_run]
  by_cases hload : s.heap.Fits a 1
  · rw [if_pos hload, Run.andThen_done, Run.run_bind, storeUtf16, store_run, if_neg hfits]
    exact ⟨_, rfl⟩
  · rw [if_neg hload]
    exact ⟨_, rfl⟩

/-- The guard stops before a first pass that is to fail. -/
theorem guardedString_stops (h : ¬ StringFits env a s) :
    ∃ f, (ndrDoCoder (guardedString env a)).run s = .fault f := by
  refine ⟨.null, ?_⟩
  rw [ndrDoCoder_run, guardedString, Run.get_bind, if_pos ⟨rfl, h⟩]
  rfl

/-- It stops nowhere else. -/
theorem guardedString_same (h : StringFits env a s) :
    (ndrDoCoder (guardedString env a)).run s = (ndrDoCoder (ndrUtf16zCoder env a)).run s := by
  have hsecond : ∀ t : State Srvsvc, t.isConformanceRun = false →
      (guardedString env a).run t = (ndrUtf16zCoder env a).run t := by
    intro t hpass
    rw [guardedString, Run.get_bind, if_neg]
    rw [hpass]
    exact fun hno => Bool.false_ne_true hno.1
  have hfirst : (guardedString env a).run { s with maxAlignment := 1, isConformanceRun := true } =
      (ndrUtf16zCoder env a).run { s with maxAlignment := 1, isConformanceRun := true } := by
    rw [guardedString, Run.get_bind, if_neg fun hno => hno.2 h]
  rw [ndrDoCoder_run, ndrDoCoder_run, hfirst]
  refine congrArg (Util.Outcome.andThen _) ?_
  funext _ t
  exact hsecond _ rfl

end

/-- **A string is left** unless its first pass fails. -/
theorem string_tracks (hdir : env.direction = .encode) (a : Addr) :
    Tracks (ndrDoCoder (ndrUtf16zCoder env a)) (ndrDoCoder (guardedString env a)) := by
  intro s
  by_cases hfits : s.heap.Fits a 8
  swap
  · exact .inl (string_faults hfits)
  cases hunits : unitsOf (s.heap.cell a) with
  | none =>
    obtain ⟨t, ht, hheap⟩ := ndrUtf16zCoder_unconverted
      (s := { s with maxAlignment := 1, isConformanceRun := true }) hdir hfits true rfl hunits
    refine .inr (.inr ⟨t, ?_, ?_, guardedString_stops fun h => h.1 hunits⟩)
    · rw [ndrDoCoder_run, ndrUtf16zCoder, ht, Run.andThen_fail]
    · rw [hheap]
      exact put_ne hfits rfl
  | some us =>
    obtain ⟨hdone, hunfit, hshort⟩ := ndrUtf16zCoder_encodes hdir hfits true hunits
    by_cases hcounts : alignUp env.word s.offset + 3 * env.word ≤ s.buf.length
    · have hfitsString : StringFits env a s := ⟨by rw [hunits]; exact nofun, hcounts⟩
      refine .inr (.inl ⟨guardedString_same hfitsString, ?_⟩)
      rw [ndrUtf16zCoder]
      by_cases hroom : alignUp env.word s.offset + 3 * env.word + (unitOctets env true us).length ≤
          s.buf.length
      · rw [hdone hroom]
        exact rfl
      · obtain ⟨t, ht, hheap⟩ := hunfit hcounts (Nat.lt_of_not_le hroom)
        rw [ht]
        exact hheap
    · obtain ⟨t, ht, hheap⟩ := hshort (Nat.lt_of_not_le hcounts)
      refine .inr (.inr ⟨t, ht, ?_, guardedString_stops fun h => hcounts h.2⟩)
      rw [hheap]
      exact put_ne hfits rfl

theorem guarded_follows (hdir : env.direction = .encode) : Follows (srvsvcRun env) (guarded env) := by
  intro k a
  by_cases hk : k = .utf16z
  · subst hk
    exact string_tracks hdir a
  · have hsame : guarded env k a = srvsvcRun env k a := by
      cases k with
      | utf16z => exact absurd rfl hk
      | _ => rfl
    rw [hsame]
    exact ndrDoCoder_tracks (srvsvcCoder_tracks (fun _ _ => ndrDoCoder_tracks (.fault _)) hdir hk a)

end

/-! ## Values -/

/-- What is written is in the byte order of the context. -/
def encodeEnv (tctxId : Nat) (littleEndian : Bool) : Env := ⟨tctxId, .encode, littleEndian⟩

theorem coderWith_tracks (tctxId : Nat) (littleEndian : Bool) (c : Coded) (a : Addr) :
    Tracks (ndrDoCoder (coderOf (encodeEnv tctxId littleEndian) c a))
      (ndrDoCoder (coderWith (encodeEnv tctxId littleEndian)
        (guarded (encodeEnv tctxId littleEndian)) c a)) := by
  have hdir : (encodeEnv tctxId littleEndian).direction = .encode := rfl
  have hrun := guarded_follows hdir
  generalize encodeEnv tctxId littleEndian = env at *
  have hptr : ∀ a type k, Tracks (ptrWith env (srvsvcRun env) a type k)
      (ptrWith env (guarded env) a type k) := fun a type k => ndrPtrCoder_tracks hrun hdir _ type k
  have hnumber : ∀ a, Tracks (ndrUint32CoderAt env a) (ndrUint32CoderAt env a) :=
    fun a => ndrUintCoderAt_tracks hdir 4 a
  have hlevel : ∀ a, Tracks (setSwitchIsAt a) (setSwitchIsAt a) :=
    fun a => (load_tracks a).bind fun _ => .modify fun _ => rfl
  rw [← coderWith_srvsvcRun]
  cases c with
  | named k => exact hrun k a
  | netrShareAddReq =>
    exact ndrDoCoder_tracks ((hptr _ _ _).bind fun _ => (hnumber _).bind fun _ => (hlevel _).bind
      fun _ => (hptr _ _ _).bind fun _ => hptr _ _ _)
  | netrShareAddRep => exact ndrDoCoder_tracks ((hptr _ _ _).bind fun _ => hnumber _)
  | netrShareEnumReq =>
    exact ndrDoCoder_tracks ((hptr _ _ _).bind fun _ => (hptr _ _ _).bind fun _ =>
      (hptr _ _ _).bind fun _ => hptr _ _ _)
  | netrShareEnumRep =>
    exact ndrDoCoder_tracks ((hptr _ _ _).bind fun _ => (hptr _ _ _).bind fun _ =>
      (hptr _ _ _).bind fun _ => hnumber _)
  | netrShareGetInfoReq =>
    exact ndrDoCoder_tracks ((hptr _ _ _).bind fun _ => (hptr _ _ _).bind fun _ =>
      (hnumber _).bind fun _ => hlevel _)
  | netrShareGetInfoRep reqLevel =>
    exact ndrDoCoder_tracks (Tracks.bind (.modify fun _ => rfl) fun _ => (hptr _ _ _).bind fun _ =>
      hnumber _)
  | netrShareSetInfoReq =>
    exact ndrDoCoder_tracks ((hptr _ _ _).bind fun _ => (hptr _ _ _).bind fun _ =>
      (hnumber _).bind fun _ => (hlevel _).bind fun _ => (hptr _ _ _).bind fun _ => hptr _ _ _)
  | netrShareDelReq =>
    exact ndrDoCoder_tracks ((hptr _ _ _).bind fun _ => (hptr _ _ _).bind fun _ => hnumber _)
  | netrShareDelRep => exact ndrDoCoder_tracks (hnumber _)
  | netrShareCheckReq => exact ndrDoCoder_tracks ((hptr _ _ _).bind fun _ => hptr _ _ _)
  | netrShareCheckRep => exact ndrDoCoder_tracks ((hptr _ _ _).bind fun _ => hnumber _)

/-- **The value is the one that was handed over**, whether the coder succeeds or fails, if and only
if no string is reached that cannot be converted or whose counts have no room. -/
theorem encoding_leaves_the_value_iff (tctxId : Nat) (littleEndian : Bool) (c : Coded) (a : Addr)
    (s : State Srvsvc) :
    LeavesValue s ((ndrDoCoder (coderOf (encodeEnv tctxId littleEndian) c a)).run s) ↔
      (∃ f, (ndrDoCoder (coderOf (encodeEnv tctxId littleEndian) c a)).run s = .fault f) ∨
        (ndrDoCoder (coderWith (encodeEnv tctxId littleEndian)
            (guarded (encodeEnv tctxId littleEndian)) c a)).run s =
          (ndrDoCoder (coderOf (encodeEnv tctxId littleEndian) c a)).run s :=
  (coderWith_tracks tctxId littleEndian c a).leavesValue_iff s

/-- A NetrShareCheck for a server whose name is no UTF-8. -/
def illNamed : State Srvsvc where
  buf := zeros 64
  offset := 0
  heap := [⟨16, fun o => if o = 0 then .text (.ofBytes [0xff]) else .num 0⟩]
  topLevel := true
  ptrId := 0
  curPtr := 0
  ptrs := []
  isConformanceRun := false
  maxAlignment := 0
  sizeIs := 0
  switchIs := 0

/-- The field of the name is left with the pointer to the block. -/
theorem failed_encoding_leaves_a_block : ¬ LeavesValue illNamed
    ((ndrDoCoder (coderOf (encodeEnv 0 true) .netrShareCheckReq ⟨0, 0⟩)).run illNamed) := by
  intro h
  obtain ⟨t, ht, hcell⟩ : ∃ t,
      (ndrDoCoder (coderOf (encodeEnv 0 true) .netrShareCheckReq ⟨0, 0⟩)).run illNamed = .fail t
      ∧ t.heap.cell ⟨0, 0⟩ = Utf16.cell { utf8 := .text (.ofBytes [0xff]) } := ⟨_, rfl, rfl⟩
  rw [ht] at h
  have hheap : t.heap = illNamed.heap := h
  rw [hheap] at hcell
  cases hcell

end Libsmb2.Dcerpc
