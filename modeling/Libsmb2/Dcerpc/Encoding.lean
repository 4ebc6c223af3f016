import Libsmb2.Dcerpc
import Libsmb2.Dcerpc.Strings

/-!
# What coders write

A pass of a coder writes its octets behind one another (`Writes`), and every coder moves forward in
the buffer and leaves what stands before it (`Forward`), in both directions and whatever the
pointers name.

* `Writes.bind`, `ndrUintCoder_writes` — the octets of a sequence, and those of a number;
* `dcerpcPduCoder_writes` — the header of a request;
* `Forward.bind`, `ndrDoCoder_forward`, `ndrPtrCoder_forward` — from coder to coder.
-/

set_option autoImplicit false

namespace Libsmb2.Dcerpc

open Util

/-! ## Octets -/

@[simp] theorem Env.length_octets (env : Env) (w n : Nat) : (env.octets w n).length = w := by
  unfold Env.octets
  split
  · exact length_le w n
  · rw [List.length_reverse, length_le]

/-- A number is read as it was written. -/
theorem Env.number_octets (env : Env) (w n : Nat) :
    env.number (env.octets w n) = n % 256 ^ w := by
  unfold Env.number Env.octets
  cases env.littleEndian with
  | true => exact fromLe_le w n
  | false =>
    show fromLe (le w n).reverse.reverse = _
    rw [List.reverse_reverse, fromLe_le]

section
variable {κ α β : Type} {env : Env} {first : Bool} {o k : Nat} {x : Ndr κ α} {a : α}
  {bs bs' : Bytes}

/-- The first or the second pass of a coder writes these octets at the offset `o`, and what it ends
with is `a`; it fails if there is no room for them. -/
def Writes (first : Bool) (o : Nat) (x : Ndr κ α) (a : α) (bs : Bytes) : Prop :=
  ∀ s, s.offset = o → s.isConformanceRun = first →
    (o + bs.length ≤ s.buf.length →
      x.run s = .done a { s with buf := patch s.buf o bs, offset := o + bs.length })
    ∧ (o ≤ s.buf.length → s.buf.length < o + bs.length →
      ∃ t, x.run s = .fail t ∧ t.heap = s.heap)

theorem Writes.pure (a : α) : Writes (κ := κ) first o (pure a) a [] := by
  intro s hoff hpass
  subst hoff
  refine ⟨fun _ => ?_, fun h h' => ?_⟩
  · rw [patch_nil]
    rfl
  · rw [List.length_nil] at h'
    omega

/-- What is written behind `k` octets. -/
theorem Writes.bind {f : α → Ndr κ β} {b : β} (hx : Writes first o x a bs)
    (hk : bs.length = k) (hf : Writes first (o + k) (f a) b bs') :
    Writes first o (x >>= f) b (bs ++ bs') := by
  intro s hoff hpass
  subst hk
  obtain ⟨hdone, hfail⟩ := hx s hoff hpass
  rw [List.length_append]
  by_cases hin : o + bs.length ≤ s.buf.length
  · obtain ⟨hdone', hfail'⟩ :=
      hf { s with buf := patch s.buf o bs, offset := o + bs.length } rfl hpass
    have hlen : (patch s.buf o bs).length = s.buf.length := length_patch hin
    rw [Run.bind_done (hdone hin)]
    dsimp only at hdone' hfail'
    rw [hlen] at hdone' hfail'
    refine ⟨fun h => ?_, fun _ h => hfail' hin (by omega)⟩
    rw [hdone' (by omega), patch_behind (by omega), Nat.add_assoc]
  · refine ⟨fun h => absurd h (by omega), fun hstart _ => ?_⟩
    obtain ⟨t, ht, hheap⟩ := hfail hstart (by omega)
    exact ⟨t, Run.bind_fail ht, hheap⟩

/-- A number that is written where it is expected. -/
theorem ndrUintCoder_writes (hdir : env.direction = .encode) {w : Nat} (value : Nat) (hw : 0 < w)
    (hdvd : w ∣ o) :
    Writes (κ := κ) false o (ndrUintCoder env w value) value (env.octets w value) := by
  intro s hoff hpass
  subst hoff
  rw [ndrUintCoder, Run.get_bind, hpass, if_neg (by decide), hdir]
  dsimp only
  rw [Run.run_bind, dcerpcSet_run, alignUp_of_dvd hw hdvd, Env.length_octets]
  refine ⟨fun hin => ?_, fun _ hout => ?_⟩
  · rw [if_neg (by omega), Run.andThen_done, hpass]
    rfl
  · rw [if_pos hout]
    exact ⟨_, rfl, rfl⟩

/-- A count that is written in the first pass, where it is expected. -/
theorem ndrConformanceCoder_writes (hdir : env.direction = .encode) (value : Nat)
    (hdvd : env.word ∣ o) : Writes (κ := κ) true o (ndrConformanceCoder env value) value
      (env.octets env.word value) := by
  intro s hoff hpass
  subst hoff
  rw [ndrConformanceCoder, Run.get_bind, hpass, if_neg (by decide), hdir]
  dsimp only
  rw [Run.run_bind, dcerpcSet_run, alignUp_of_dvd (word_pos env) hdvd, Env.length_octets]
  refine ⟨fun hin => ?_, fun _ hout => ?_⟩
  · rw [if_neg (by omega), Run.andThen_done, hpass]
    rfl
  · rw [if_pos hout]
    exact ⟨_, rfl, rfl⟩

end

/-! ## The header of a request -/

/-- The octets of a header, in its own byte order. -/
def Header.octets (env : Env) (hdr : Header) : Bytes :=
  let order := env.withDrep hdr.packedDrep0
  List.flatten [
    env.octets 1 hdr.rpcVers, env.octets 1 hdr.rpcVersMinor, env.octets 1 hdr.ptype,
    env.octets 1 hdr.pfcFlags, env.octets 1 hdr.packedDrep0, env.octets 1 hdr.packedDrep1,
    env.octets 1 hdr.packedDrep2, env.octets 1 hdr.packedDrep3, order.octets 2 hdr.fragLength,
    order.octets 2 hdr.authLength, order.octets 4 hdr.callId]

def RequestPdu.octets (env : Env) (req : RequestPdu) : Bytes :=
  List.flatten [
    env.octets 4 req.allocHint, env.octets 2 req.contextId, env.octets 2 req.opnum]

section
variable {κ : Type} {env : Env}

theorem dcerpcHeaderCoder_writes (hdir : env.direction = .encode) (hdr : Header) :
    Writes (κ := κ) false 0 (dcerpcHeaderCoder env true hdr) hdr (hdr.octets env) := by
  have horder : (env.withDrep hdr.packedDrep0).direction = .encode := hdir
  have hbyte : ∀ o value,
      Writes (κ := κ) false o (ndrUint8Coder env value) value (env.octets 1 value) :=
    fun o value => ndrUintCoder_writes hdir value (by decide) (Nat.one_dvd o)
  apply (hbyte 0 _).bind (env.length_octets 1 _)
  apply (hbyte 1 _).bind (env.length_octets 1 _)
  apply (hbyte 2 _).bind (env.length_octets 1 _)
  apply (hbyte 3 _).bind (env.length_octets 1 _)
  apply (hbyte 4 _).bind (env.length_octets 1 _)
  apply (hbyte 5 _).bind (env.length_octets 1 _)
  apply (hbyte 6 _).bind (env.length_octets 1 _)
  apply (hbyte 7 _).bind (env.length_octets 1 _)
  apply (ndrUintCoder_writes horder _ (by decide) (by decide)).bind (Env.length_octets _ 2 _)
  apply (ndrUintCoder_writes horder _ (by decide) (by decide)).bind (Env.length_octets _ 2 _)
  apply (ndrUintCoder_writes horder _ (by decide) (by decide)).bind (Env.length_octets _ 4 _)
  exact .pure hdr

theorem dcerpcRequestCoder_writes (hdir : env.direction = .encode) (req : RequestPdu) :
    Writes (κ := κ) false 16 (dcerpcRequestCoder env req) req (req.octets env) := by
  apply (ndrUintCoder_writes hdir _ (by decide) (by decide)).bind (Env.length_octets _ 4 _)
  apply (ndrUintCoder_writes hdir _ (by decide) (by decide)).bind (Env.length_octets _ 2 _)
  apply (ndrUintCoder_writes hdir _ (by decide) (by decide)).bind (Env.length_octets _ 2 _)
  exact .pure req

theorem Header.length_octets (env : Env) (hdr : Header) : (hdr.octets env).length = 16 := by
  simp [Header.octets]

theorem RequestPdu.length_octets (env : Env) (req : RequestPdu) : (req.octets env).length = 8 := by
  simp [RequestPdu.octets]

/-- A request begins with 24 octets. -/
theorem dcerpcPduCoder_writes (hdir : env.direction = .encode)
    (coder : Option (Env → Ndr κ Unit)) (pdu : Pdu) (hptype : pdu.hdr.ptype = PDU_TYPE_REQUEST) :
    Writes (κ := κ) false 0 (dcerpcPduCoder env coder pdu) pdu
      (pdu.hdr.octets env ++ pdu.req.octets (env.withDrep pdu.hdr.packedDrep0)) := by
  have horder : (env.withDrep pdu.hdr.packedDrep0).direction = .encode := hdir
  have hbody : bodyOf pdu.hdr.ptype = some .request := by
    rw [hptype]
    rfl
  apply (dcerpcHeaderCoder_writes hdir pdu.hdr).bind (Header.length_octets env pdu.hdr)
  rw [hbody]
  rw [← List.append_nil (pdu.req.octets _)]
  exact (dcerpcRequestCoder_writes horder pdu.req).bind (RequestPdu.length_octets _ pdu.req)
    (.pure pdu)

end

/-! ## Moving forward -/

/-- From a state that a coder is called in to one that it ends in. -/
structure Moves {κ : Type} (s t : State κ) : Prop where
  length : t.buf.length = s.buf.length
  offset : s.offset ≤ t.offset
  before : t.buf.take s.offset = s.buf.take s.offset
  align : 0 < s.maxAlignment → 0 < t.maxAlignment
  pass : s.isConformanceRun = false → t.isConformanceRun = false

section
variable {κ α β : Type} {env : Env}

theorem Moves.refl (s : State κ) : Moves s s := ⟨rfl, le_rfl, rfl, id, id⟩

theorem Moves.trans {r s t : State κ} (h : Moves r s) (h' : Moves s t) : Moves r t where
  length := h'.length.trans h.length
  offset := h.offset.trans h'.offset
  before := by
    have hshort : ∀ bs : Bytes, bs.take r.offset = (bs.take s.offset).take r.offset := by
      intro bs
      rw [List.take_take, Nat.min_eq_left h.offset]
    rw [hshort, h'.before, ← hshort, h.before]
  align := fun hpos => h'.align (h.align hpos)
  pass := fun hpass => h'.pass (h.pass hpass)

/-- What does not concern the buffer. -/
theorem Moves.of_buf {s t : State κ} (hbuf : t.buf = s.buf) (hoff : s.offset ≤ t.offset)
    (halign : s.maxAlignment ≤ t.maxAlignment) (hpass : t.isConformanceRun = s.isConformanceRun) :
    Moves s t :=
  ⟨by rw [hbuf], hoff, by rw [hbuf], fun h => h.trans_le halign, fun h => hpass.trans h⟩

/-- What is written behind the offset. -/
theorem Moves.patch {s : State κ} {o n : Nat} {new : Bytes} (ho : s.offset ≤ o) (hn : s.offset ≤ n)
    (hroom : o + new.length ≤ s.buf.length) :
    Moves s { s with buf := patch s.buf o new, offset := n } where
  length := length_patch hroom
  offset := hn
  before := by
    have hbefore : slice (Util.patch s.buf o new) 0 s.offset = slice s.buf 0 s.offset :=
      slice_patch_before (by omega) (by omega)
    simpa [slice] using hbefore
  align := id
  pass := id

/-- A coder that does not fail moves forward, whatever it is called for. -/
abbrev Forward (x : Ndr κ α) : Prop := Run.Relates Moves x

variable {x : Ndr κ α} {f : α → Ndr κ β}

theorem Forward.pure (a : α) : Forward (pure a : Ndr κ α) := Run.Relates.pure Moves.refl a

theorem Forward.get : Forward (Run.get : Ndr κ (State κ)) := Run.Relates.get Moves.refl

theorem Forward.bind (hx : Forward x) (hf : ∀ a, Forward (f a)) : Forward (x >>= f) :=
  Run.Relates.bind Moves.trans hx hf

theorem Forward.thenAlways {y : Ndr κ Unit} (hx : Forward x) (hy : Forward y) :
    Forward (x.thenAlways y) := Run.Relates.thenAlways (R := Moves) Moves.trans hx hy

/-- What does not concern the buffer. -/
theorem Forward.modify {g : State κ → State κ} (hbuf : ∀ s, (g s).buf = s.buf)
    (hoff : ∀ s, s.offset ≤ (g s).offset) (halign : ∀ s, s.maxAlignment ≤ (g s).maxAlignment)
    (hpass : ∀ s, (g s).isConformanceRun = s.isConformanceRun) :
    Forward (Run.modify g : Ndr κ Unit) :=
  Run.Relates.modify fun s => .of_buf (hbuf s) (hoff s) (halign s) (hpass s)

theorem load_forward (a : Addr) : Forward (load (κ := κ) a) := by
  intro s c t h
  rw [load_run] at h
  split at h
  · cases h
    exact .refl s
  · cases h

theorem store_forward (a : Addr) (w : Nat) (c : Cell) : Forward (store (κ := κ) a w c) := by
  intro s u t h
  rw [store_run] at h
  split at h
  · cases h
    exact .of_buf rfl le_rfl le_rfl rfl
  · cases h

theorem dcerpcGet_forward {w : Nat} (hw : 0 < w) : Forward (dcerpcGet (κ := κ) env w) := by
  intro s n t h
  rw [dcerpcGet_run] at h
  have hle := le_alignUp hw s.offset
  split at h
  · cases h
  · cases h
    exact .of_buf rfl (by dsimp only; omega) le_rfl rfl

theorem dcerpcSet_forward {w : Nat} (hw : 0 < w) (value : Nat) :
    Forward (dcerpcSet (κ := κ) env w value) := by
  intro s u t h
  rw [dcerpcSet_run] at h
  have hle := le_alignUp hw s.offset
  split at h
  · cases h
  · cases h
    exact .patch hle (by omega) (by rw [Env.length_octets]; omega)

theorem needAlignment_forward (w : Nat) : Forward (needAlignment (κ := κ) w) :=
  .modify (fun _ => rfl) (fun _ => le_rfl) (fun _ => le_max_left _ _) fun _ => rfl

theorem ndrUintCoder_forward {w : Nat} (hw : 0 < w) (value : Nat) :
    Forward (ndrUintCoder (κ := κ) env w value) := by
  refine Forward.get.bind fun s => ?_
  split
  · exact (needAlignment_forward w).bind fun _ => .pure value
  · cases env.direction with
    | decode => exact dcerpcGet_forward hw
    | encode => exact (dcerpcSet_forward hw value).bind fun _ => .pure value

theorem ndrUint3264Coder_forward (value : Nat) : Forward (ndrUint3264Coder (κ := κ) env value) :=
  ndrUintCoder_forward (word_pos env) value

theorem ndrUintCoderAt_forward {w : Nat} (hw : 0 < w) (a : Addr) :
    Forward (ndrUintCoderAt (κ := κ) env w a) := by
  refine Forward.get.bind fun s => ?_
  split
  · exact needAlignment_forward w
  · cases env.direction with
    | decode => exact (dcerpcGet_forward hw).bind fun _ => store_forward a w _
    | encode => exact (load_forward a).bind fun _ => dcerpcSet_forward hw _

theorem ndrConformanceCoder_forward (value : Nat) :
    Forward (ndrConformanceCoder (κ := κ) env value) := by
  refine Forward.get.bind fun s => ?_
  split
  · exact .pure value
  · cases env.direction with
    | decode => exact dcerpcGet_forward (word_pos env)
    | encode => exact (dcerpcSet_forward (word_pos env) value).bind fun _ => .pure value

theorem dcerpcAddDeferredPointer_forward (k : κ) (a : Addr) :
    Forward (dcerpcAddDeferredPointer k a) := by
  refine Forward.get.bind fun s => ?_
  split
  · exact Run.Relates.fault _
  · exact .modify (fun _ => rfl) (fun _ => le_rfl) (fun _ => le_rfl) fun _ => rfl

theorem setTopLevel_forward (b : Bool) : Forward (setTopLevel (κ := κ) b) :=
  .modify (fun _ => rfl) (fun _ => le_rfl) (fun _ => le_rfl) fun _ => rfl

/-- Both passes, of which the second one begins at an aligned offset. -/
theorem ndrDoCoder_forward {coder : Ndr κ Unit} (h : Forward coder) :
    Forward (ndrDoCoder coder) := by
  intro s u t hrun
  rw [ndrDoCoder_run] at hrun
  cases hfirst : coder.run { s with maxAlignment := 1, isConformanceRun := true } with
  | done v r =>
    rw [hfirst, Run.andThen_done] at hrun
    have hmoves := h _ _ _ hfirst
    have hmoves' := h _ _ _ hrun
    have hpos : 0 < r.maxAlignment := hmoves.align Nat.one_pos
    have hsame : Moves s { r with
        offset := alignUp r.maxAlignment r.offset, isConformanceRun := false } :=
      ⟨hmoves.length, hmoves.offset.trans (le_alignUp hpos r.offset), hmoves.before, fun _ => hpos,
        fun _ => rfl⟩
    exact hsame.trans hmoves'
  | fail r =>
    rw [hfirst] at hrun
    cases hrun
  | fault e =>
    rw [hfirst] at hrun
    cases hrun

section
variable {run : κ → Addr → Ndr κ Unit} (hrun : ∀ k a, Forward (run k a))

include hrun

theorem dcerpcProcessDeferredPointers_forward (turns : Nat) :
    Forward (dcerpcProcessDeferredPointers run turns) := by
  induction turns with
  | zero => exact Run.Relates.fault _
  | succ turns ih =>
    refine Forward.get.bind fun s => ?_
    split
    · exact .pure ()
    · split
      · exact Run.Relates.fault _
      · refine Forward.bind ?_ fun _ => (ndrDoCoder_forward (hrun _ _)).bind fun _ => ih
        exact .modify (fun _ => rfl) (fun _ => le_rfl) (fun _ => le_rfl) fun _ => rfl

theorem follow_forward (k : κ) (a : Addr) : Forward (follow run k a) := by
  refine Forward.get.bind fun s => ?_
  split
  · exact (setTopLevel_forward false).bind fun _ => (ndrDoCoder_forward (hrun k a)).bind fun _ =>
      setTopLevel_forward _
  · exact dcerpcAddDeferredPointer_forward k a

theorem ptrOut_forward : Forward (ptrOut run) := by
  refine Forward.get.bind fun s => ?_
  split
  · exact (setTopLevel_forward false).bind fun _ =>
      (dcerpcProcessDeferredPointers_forward hrun _).bind fun _ => setTopLevel_forward _
  · exact .pure ()

theorem refPtr_forward (k : κ) (a : Addr) : Forward (refPtr env run k a) := by
  refine Forward.get.bind fun s => ?_
  split
  · exact follow_forward hrun k a
  · exact (ndrUint3264Coder_forward RPTR).bind fun _ => dcerpcAddDeferredPointer_forward k a

theorem ndrEncodePtr_forward (ptr : Option Addr) (type : PtrType) (k : κ) :
    Forward (ndrEncodePtr env run ptr type k) := by
  refine Forward.get.bind fun s => ?_
  split
  · exact needAlignment_forward _
  · have hnull : Forward (do
        let _ ← ndrUint3264Coder env 0
        ptrOut run) := (ndrUint3264Coder_forward 0).bind fun _ => ptrOut_forward hrun
    have hfollow : ∀ a, Forward (do
        follow run k a
        ptrOut run) := fun a => (follow_forward hrun k a).bind fun _ => ptrOut_forward hrun
    cases type with
    | ref =>
      cases ptr with
      | none => exact Run.Relates.fault _
      | some a => exact (refPtr_forward hrun k a).bind fun _ => ptrOut_forward hrun
    | unique =>
      cases ptr with
      | none => exact hnull
      | some a => exact (ndrUint3264Coder_forward UPTR).bind fun _ => hfollow a
    | full =>
      cases ptr with
      | none => exact hnull
      | some a =>
        refine Forward.bind ?_ fun _ => (ndrUint3264Coder_forward _).bind fun _ => hfollow a
        exact .modify (fun _ => rfl) (fun _ => le_rfl) (fun _ => le_rfl) fun _ => rfl

theorem ndrDecodePtr_forward (ptr : Option Addr) (type : PtrType) (k : κ) :
    Forward (ndrDecodePtr env run ptr type k) := by
  refine Forward.get.bind fun s => ?_
  split
  · split
    · exact .pure ()
    · exact needAlignment_forward _
  · cases type with
    | ref =>
      cases ptr with
      | none => exact Run.Relates.fault _
      | some a => exact (refPtr_forward hrun k a).bind fun _ => ptrOut_forward hrun
    | unique =>
      refine (ndrUint3264Coder_forward 0).bind fun p => ?_
      split
      · exact .pure ()
      · exact .pure ()
      · exact (follow_forward hrun k _).bind fun _ => ptrOut_forward hrun
    | full => exact ptrOut_forward hrun

theorem ndrPtrCoder_forward (ptr : Option Addr) (type : PtrType) (k : κ) :
    Forward (ndrPtrCoder env run ptr type k) := by
  unfold ndrPtrCoder
  cases env.direction with
  | decode => exact ndrDecodePtr_forward hrun ptr type k
  | encode => exact ndrEncodePtr_forward hrun ptr type k

end

theorem elements_forward {coder : Addr → Ndr κ Unit} (hcoder : ∀ a, Forward (coder a))
    (elemSize n : Nat) (a : Addr) : Forward (elements elemSize coder n a) := by
  induction n generalizing a with
  | zero => exact .pure ()
  | succ n ih => exact (hcoder a).bind fun _ => ih _

theorem ndrCarrayCoder_forward {coder : Addr → Ndr κ Unit} (hcoder : ∀ a, Forward (coder a))
    (num : Int) (a : Addr) (elemSize : Nat) :
    Forward (ndrCarrayCoder env num a elemSize coder) := by
  refine (ndrConformanceCoder_forward _).bind fun p => ?_
  split
  · exact Run.Relates.fail
  · exact elements_forward hcoder elemSize p a

theorem setSwitchIs_forward (n : Int) :
    Forward (Run.modify fun s : State κ => { s with switchIs := n }) :=
  .modify (fun _ => rfl) (fun _ => le_rfl) (fun _ => le_rfl) fun _ => rfl

theorem ndrUnionCoder_forward {coder : Ndr κ Unit} (hcoder : Forward coder) (switchIs : Nat) :
    Forward (ndrUnionCoder env switchIs coder) :=
  (ndrUint3264Coder_forward _).bind fun _ => (setSwitchIs_forward _).bind fun _ =>
    hcoder.bind fun _ => .pure _

theorem ndrUnionCoderAt_forward {coder : Ndr κ Unit} (hcoder : Forward coder) (switchIs : Addr) :
    Forward (ndrUnionCoderAt env switchIs coder) := by
  refine (load_forward _).bind fun value => (ndrUint3264Coder_forward _).bind fun p => ?_
  refine Forward.bind ?_ fun _ => (setSwitchIs_forward _).bind fun _ => hcoder
  unfold storeSwitchIs
  cases env.direction with
  | decode => exact store_forward _ _ _
  | encode => exact .pure ()

/-! ## Strings -/

theorem loadUtf16_forward (a : Addr) : Forward (loadUtf16 (κ := κ) a) := by
  refine (load_forward a).bind fun c => ?_
  split
  · exact .pure _
  · exact Run.Relates.fault _

theorem setUnits_forward (us : List Nat) : Forward (setUnits (κ := κ) env us) := by
  induction us with
  | nil => exact .pure ()
  | cons u us ih => exact (ndrUintCoder_forward (by decide) u).bind fun _ => ih

theorem ndrEncodeUtf16_forward (a : Addr) (nult : Bool) :
    Forward (ndrEncodeUtf16 (κ := κ) env a nult) := by
  refine Forward.get.bind fun s => (loadUtf16_forward a).bind fun u => ?_
  split
  · split
    · exact Run.Relates.fail
    · exact (store_forward _ _ _).bind fun _ => (ndrConformanceCoder_forward _).bind fun _ =>
        (ndrConformanceCoder_forward _).bind fun _ => (ndrConformanceCoder_forward _).bind fun _ =>
        needAlignment_forward 2
  · refine (setUnits_forward _).bind fun _ => ?_
    split
    · exact (ndrUintCoder_forward (by decide) 0).bind fun _ => .pure ()
    · exact .pure ()

/-- The code units that are turned around stand behind the offset. -/
theorem swapUnits_forward (n i : Nat) : Forward (swapUnits (κ := κ) env n i) := by
  induction n generalizing i with
  | zero => exact .pure ()
  | succ n ih =>
    intro s u t h
    rw [swapUnits, Run.get_bind] at h
    dsimp only at h
    have hle := le_alignUp (by decide : 0 < 2) (s.offset + 2 * i)
    split at h
    · cases h
    · rw [Run.modify_bind] at h
      refine Moves.trans ?_ (ih (i + 1) _ _ _ h)
      exact .patch (by omega) le_rfl (by rw [length_le]; omega)

theorem convertUnits_forward (a : Addr) (u : Utf16) : Forward (convertUnits (κ := κ) a u) := by
  intro s v t h
  rw [convertUnits, Run.get_bind] at h
  split at h
  · cases h
  · refine Moves.trans ?_ (store_forward a 8 _ _ v t h)
    exact .of_buf rfl (Nat.le_add_right _ _) le_rfl rfl

theorem ndrDecodeUtf16_forward (a : Addr) : Forward (ndrDecodeUtf16 (κ := κ) env a) := by
  refine Forward.get.bind fun s => (loadUtf16_forward a).bind fun u => ?_
  split
  · exact (ndrConformanceCoder_forward _).bind fun _ => (store_forward _ _ _).bind fun _ =>
      (ndrConformanceCoder_forward _).bind fun _ => (store_forward _ _ _).bind fun _ =>
      (ndrConformanceCoder_forward _).bind fun _ => (store_forward _ _ _).bind fun _ =>
      needAlignment_forward 2
  · split
    · exact Run.Relates.fail
    · split
      · exact (swapUnits_forward _ _).bind fun _ => convertUnits_forward a u
      · exact convertUnits_forward a u

theorem ndrUtf16_forward (a : Addr) (nult : Bool) :
    Forward (κ := κ) (match env.direction with
      | .decode => ndrDecodeUtf16 env a
      | .encode => ndrEncodeUtf16 env a nult) := by
  cases env.direction with
  | decode => exact ndrDecodeUtf16_forward a
  | encode => exact ndrEncodeUtf16_forward a nult

theorem ndrUtf16zCoder_forward (a : Addr) (nult : Bool) :
    Forward (ndrUtf16zCoder' (κ := κ) env a nult) := by
  have hpass := @ndrUtf16_forward κ env a nult
  refine Forward.get.bind fun s => ?_
  split
  · exact (load_forward a).bind fun _ => (store_forward _ _ _).bind fun _ => hpass
  · exact hpass.thenAlways ((loadUtf16_forward a).bind fun _ => store_forward _ _ _)

end

/-! ## Strings that are written -/

/-- `actual_count` of a string of so many code units. -/
def actualCountOf (nult : Bool) (n : Nat) : Nat := (if nult then n + 1 else n) % 4294967296

/-- `max_count`, which is even if there is no terminator. -/
def maxCountOf (nult : Bool) (n : Nat) : Nat :=
  let val := if nult then n + 1 else n
  (if !nult && val % 2 = 1 then val + 1 else val) % 4294967296

/-- The counts of a string. -/
def countOctets (env : Env) (nult : Bool) (us : List Nat) : Bytes :=
  List.flatten [
    env.octets env.word (maxCountOf nult us.length), env.octets env.word 0,
    env.octets env.word (actualCountOf nult us.length)]

/-- Its code units, and the terminator. -/
def unitOctets (env : Env) (nult : Bool) (us : List Nat) : Bytes :=
  us.flatMap (env.octets 2) ++ if nult then env.octets 2 0 else []

section
variable {κ : Type} {env : Env} {o : Nat} {s : State κ} {a : Addr} {nult : Bool} {us : List Nat}

theorem length_countOctets : (countOctets env nult us).length = 3 * env.word := by
  simp [countOctets]
  omega

theorem length_flatMap_octets : (us.flatMap (env.octets 2)).length = 2 * us.length := by
  induction us with
  | nil => rfl
  | cons u us ih =>
    rw [List.flatMap_cons, List.length_append, ih, Env.length_octets, List.length_cons]
    omega

theorem length_unitOctets :
    (unitOctets env nult us).length = 2 * (if nult then us.length + 1 else us.length) := by
  rw [unitOctets, List.length_append, length_flatMap_octets]
  cases nult with
  | true =>
    show 2 * us.length + (env.octets 2 0).length = 2 * (us.length + 1)
    rw [Env.length_octets]
    omega
  | false => rfl

theorem setUnits_writes (hdir : env.direction = .encode) (heven : 2 ∣ o) (us : List Nat) :
    Writes (κ := κ) false o (setUnits env us) () (us.flatMap (env.octets 2)) := by
  induction us generalizing o with
  | nil => exact .pure ()
  | cons u us ih =>
    exact (ndrUintCoder_writes hdir u (by decide) heven).bind (env.length_octets 2 u)
      (ih (Nat.dvd_add_self_right.mpr heven))

/-- The second pass writes the code units. -/
theorem setUnits_nult_writes (nult : Bool) (us : List Nat) (hdir : env.direction = .encode)
    (heven : 2 ∣ o) :
    Writes (κ := κ) false o (do
      setUnits env us
      if nult then do
        let _ ← ndrUint16Coder env 0
        pure ()
      else pure ()) () (unitOctets env nult us) := by
  refine (setUnits_writes hdir heven us).bind length_flatMap_octets ?_
  cases nult with
  | true =>
    show Writes false _ _ () (env.octets 2 0)
    rw [← List.append_nil (env.octets 2 0)]
    refine (ndrUintCoder_writes hdir 0 (by decide) ?_).bind (env.length_octets 2 0) (.pure ())
    exact (Nat.dvd_add_right heven).mpr (Nat.dvd_mul_right 2 us.length)
  | false => exact .pure ()

theorem alignUp_alignUp {w : Nat} (hw : 0 < w) (n : Nat) : alignUp w (alignUp w n) = alignUp w n :=
  alignUp_of_dvd hw (dvd_alignUp w n)

/-- The first count of a string is written where it is expected. -/
theorem ndrConformanceCoder_align (hdir : env.direction = .encode)
    (hpass : s.isConformanceRun = true) (value : Nat) :
    (ndrConformanceCoder env value).run s =
      (ndrConformanceCoder env value).run { s with offset := alignUp env.word s.offset } := by
  rw [ndrConformanceCoder, Run.get_bind, Run.get_bind, hpass, if_neg (by decide), hdir]
  dsimp only
  rw [Run.run_bind, Run.run_bind, dcerpcSet_run, dcerpcSet_run, alignUp_alignUp (word_pos env), hpass]

/-- The block behind the field of a string whose counts are written. -/
def counted (nult : Bool) (us : List Nat) (utf8 : Cell) : Cell :=
  Utf16.cell ⟨maxCountOf nult us.length, 0, actualCountOf nult us.length, us, utf8⟩

/-- The counts, and the alignment that is asked for. -/
theorem ndrEncodeUtf16_run (hdir : env.direction = .encode) (hfits : s.heap.Fits a 8)
    {u : Utf16} (hcell : s.heap.cell a = u.cell) (hunits : unitsOf u.utf8 = some us)
    (hpass : s.isConformanceRun = true) : (ndrEncodeUtf16 env a nult).run s = ((do
      let _ ← ndrConformanceCoder env (maxCountOf nult us.length)
      let _ ← ndrConformanceCoder env 0
      let _ ← ndrConformanceCoder env (actualCountOf nult us.length)
      pure ()) >>= fun _ => needAlignment 2).run { s with
        offset := alignUp env.word s.offset
        heap := s.heap.put a (counted nult us u.utf8) } := by
  have halign := ndrConformanceCoder_align (s := { s with
    heap := s.heap.put a (counted nult us u.utf8) }) hdir hpass (maxCountOf nult us.length)
  rw [ndrEncodeUtf16, Run.get_bind, Run.run_bind, loadUtf16_run hfits hcell, Run.andThen_done,
    if_pos hpass, hunits]
  dsimp only
  rw [Run.run_bind, storeUtf16, store_run, if_pos hfits, Run.andThen_done, Run.run_bind]
  simp only [bind_assoc, pure_bind]
  rw [Run.run_bind]
  exact congrArg (Util.Outcome.andThen · _) halign

/-- The first pass over a string writes its counts. -/
theorem ndrEncodeUtf16_counts (nult : Bool) {u : Utf16} (hdir : env.direction = .encode)
    (hfits : s.heap.Fits a 8) (hcell : s.heap.cell a = u.cell)
    (hunits : unitsOf u.utf8 = some us) (hpass : s.isConformanceRun = true) :
    (alignUp env.word s.offset + 3 * env.word ≤ s.buf.length →
      (ndrEncodeUtf16 env a nult).run s = .done () { s with
        buf := patch s.buf (alignUp env.word s.offset) (countOctets env nult us)
        offset := alignUp env.word s.offset + 3 * env.word
        maxAlignment := max s.maxAlignment 2
        heap := s.heap.put a (counted nult us u.utf8) })
    ∧ (s.buf.length < alignUp env.word s.offset + 3 * env.word →
      ∃ t, (ndrEncodeUtf16 env a nult).run s = .fail t
        ∧ t.heap = s.heap.put a (counted nult us u.utf8)) := by
  have hword := dvd_alignUp env.word s.offset
  have hcounts : Writes (κ := κ) true (alignUp env.word s.offset) (do
      let _ ← ndrConformanceCoder env (maxCountOf nult us.length)
      let _ ← ndrConformanceCoder env 0
      let _ ← ndrConformanceCoder env (actualCountOf nult us.length)
      pure ()) () (countOctets env nult us) := by
    apply (ndrConformanceCoder_writes hdir _ hword).bind (Env.length_octets _ _ _)
    apply (ndrConformanceCoder_writes hdir _ (Nat.dvd_add_self_right.mpr hword)).bind
      (Env.length_octets _ _ _)
    apply (ndrConformanceCoder_writes hdir _ (Nat.dvd_add_self_right.mpr
      (Nat.dvd_add_self_right.mpr hword))).bind (Env.length_octets _ _ _)
    exact .pure ()
  obtain ⟨hdone, hfail⟩ := hcounts { s with
    offset := alignUp env.word s.offset
    heap := s.heap.put a (counted nult us u.utf8) } rfl hpass
  rw [length_countOctets] at hdone hfail
  rw [ndrEncodeUtf16_run hdir hfits hcell hunits hpass]
  refine ⟨fun hin => ?_, fun hout => ?_⟩
  · rw [Run.bind_done (hdone hin)]
    rfl
  · by_cases hstart : alignUp env.word s.offset ≤ s.buf.length
    · obtain ⟨t, ht, hheap⟩ := hfail hstart hout
      exact ⟨t, Run.bind_fail ht, hheap⟩
    · -- there is no room for the first count
      obtain ⟨t, ht, hheap⟩ : ∃ t, (ndrConformanceCoder env (maxCountOf nult us.length)).run
          { s with
            offset := alignUp env.word s.offset
            heap := s.heap.put a (counted nult us u.utf8) } = .fail t
          ∧ t.heap = s.heap.put a (counted nult us u.utf8) := by
        rw [ndrConformanceCoder, Run.get_bind, hpass, if_neg (by decide), hdir]
        dsimp only
        rw [Run.run_bind, dcerpcSet_run, alignUp_alignUp (word_pos env),
          if_pos (by dsimp only; omega)]
        exact ⟨_, rfl, rfl⟩
      exact ⟨t, Run.bind_fail (Run.bind_fail ht), hheap⟩

section
variable (hdir : env.direction = .encode) (hfits : s.heap.Fits a 8)

include hdir hfits

theorem ndrUtf16zCoder_swap (hpass : s.isConformanceRun = true) :
    (ndrUtf16zCoder' env a nult).run s = (ndrEncodeUtf16 env a nult).run { s with
      heap := s.heap.put a (Utf16.cell { utf8 := s.heap.cell a }) } := by
  rw [ndrUtf16zCoder', Run.get_bind, if_pos hpass, Run.run_bind, load_run,
    if_pos (hfits.mono (by decide)), Run.andThen_done, Run.run_bind, storeUtf16, store_run,
    if_pos hfits, Run.andThen_done, hdir]

/-- A string that is no UTF-8 leaves the field swapped. -/
theorem ndrUtf16zCoder_unconverted (nult : Bool) (hpass : s.isConformanceRun = true)
    (hunits : unitsOf (s.heap.cell a) = none) : ∃ t,
    (ndrUtf16zCoder' env a nult).run s = .fail t
      ∧ t.heap = s.heap.put a (Utf16.cell { utf8 := s.heap.cell a }) := by
  rw [ndrUtf16zCoder_swap hdir hfits hpass, ndrEncodeUtf16, Run.get_bind, Run.run_bind,
    loadUtf16_run (u := { utf8 := s.heap.cell a }) (Heap.fits_put.mpr hfits) (Heap.cell_put hfits),
    Run.andThen_done, if_pos hpass, hunits]
  exact ⟨_, rfl, rfl⟩

/-- The first pass over a string that is converted. -/
theorem ndrUtf16zCoder_counted (nult : Bool) (hpass : s.isConformanceRun = true)
    (hunits : unitsOf (s.heap.cell a) = some us) :
    (alignUp env.word s.offset + 3 * env.word ≤ s.buf.length →
      (ndrUtf16zCoder' env a nult).run s = .done () { s with
        buf := patch s.buf (alignUp env.word s.offset) (countOctets env nult us)
        offset := alignUp env.word s.offset + 3 * env.word
        maxAlignment := max s.maxAlignment 2
        heap := s.heap.put a (counted nult us (s.heap.cell a)) })
    ∧ (s.buf.length < alignUp env.word s.offset + 3 * env.word →
      ∃ t, (ndrUtf16zCoder' env a nult).run s = .fail t
        ∧ t.heap = s.heap.put a (counted nult us (s.heap.cell a))) := by
  have hcounts := ndrEncodeUtf16_counts nult (u := { utf8 := s.heap.cell a })
    (s := { s with heap := s.heap.put a (Utf16.cell { utf8 := s.heap.cell a }) }) hdir
    (Heap.fits_put.mpr hfits) (Heap.cell_put hfits) hunits hpass
  rw [ndrUtf16zCoder_swap hdir hfits hpass]
  dsimp only at hcounts
  rw [Heap.put_put] at hcounts
  exact hcounts

/-- The second pass puts the pointer back, whether there is room for the code units or not. -/
theorem ndrUtf16zCoder_units (nult : Bool) {u : Utf16} (hpass : s.isConformanceRun = false)
    (heven : 2 ∣ s.offset) (hstart : s.offset ≤ s.buf.length) (hcell : s.heap.cell a = u.cell) :
    (s.offset + (unitOctets env nult u.units).length ≤ s.buf.length →
      (ndrUtf16zCoder' env a nult).run s = .done () { s with
        buf := patch s.buf s.offset (unitOctets env nult u.units)
        offset := s.offset + (unitOctets env nult u.units).length
        heap := s.heap.put a u.utf8 })
    ∧ (s.buf.length < s.offset + (unitOctets env nult u.units).length →
      ∃ t, (ndrUtf16zCoder' env a nult).run s = .fail t ∧ t.heap = s.heap.put a u.utf8) := by
  obtain ⟨hdone, hfail⟩ := setUnits_nult_writes nult u.units hdir heven s rfl hpass
  have hrun : (ndrEncodeUtf16 env a nult).run s = (do
      setUnits env u.units
      if nult then do
        let _ ← ndrUint16Coder env 0
        pure ()
      else pure ()).run s := by
    rw [ndrEncodeUtf16, Run.get_bind, Run.run_bind, loadUtf16_run hfits hcell, Run.andThen_done,
      if_neg (by simp [hpass])]
  rw [ndrUtf16zCoder', Run.get_bind, if_neg (by simp [hpass]), hdir, Run.run_thenAlways]
  dsimp only
  rw [hrun]
  refine ⟨fun hin => ?_, fun hout => ?_⟩
  · rw [hdone hin]
    dsimp only
    rw [swapBack_run (u := u) (by exact hfits) (by exact hcell)]
    rfl
  · obtain ⟨t, ht, hheap⟩ := hfail hstart hout
    rw [ht]
    dsimp only
    rw [swapBack_run (u := u) (by rw [hheap]; exact hfits) (by rw [hheap]; exact hcell),
      Run.andThen_done, hheap]
    exact ⟨_, rfl, rfl⟩

/-- **A string is written** behind its counts, and the field holds what it held. -/
theorem ndrUtf16zCoder_encodes (nult : Bool) (hunits : unitsOf (s.heap.cell a) = some us) :
    (alignUp env.word s.offset + 3 * env.word + (unitOctets env nult us).length ≤ s.buf.length →
      (ndrDoCoder (ndrUtf16zCoder' env a nult)).run s = .done () { s with
        buf := patch s.buf (alignUp env.word s.offset)
          (countOctets env nult us ++ unitOctets env nult us)
        offset := alignUp env.word s.offset + 3 * env.word + (unitOctets env nult us).length
        maxAlignment := 2
        isConformanceRun := false })
    ∧ (alignUp env.word s.offset + 3 * env.word ≤ s.buf.length →
      s.buf.length < alignUp env.word s.offset + 3 * env.word + (unitOctets env nult us).length →
        ∃ t, (ndrDoCoder (ndrUtf16zCoder' env a nult)).run s = .fail t ∧ t.heap = s.heap)
    ∧ (s.buf.length < alignUp env.word s.offset + 3 * env.word →
      ∃ t, (ndrDoCoder (ndrUtf16zCoder' env a nult)).run s = .fail t
        ∧ t.heap = s.heap.put a (counted nult us (s.heap.cell a))) := by
  have hword : 2 ∣ env.word := by
    unfold Env.word
    split <;> decide
  have heven : 2 ∣ alignUp env.word s.offset + 3 * env.word :=
    (Nat.dvd_add_right (hword.trans (dvd_alignUp _ _))).mpr (Nat.dvd_mul_left_of_dvd hword 3)
  obtain ⟨hfirst, hshort⟩ := ndrUtf16zCoder_counted
    (s := { s with maxAlignment := 1, isConformanceRun := true }) hdir hfits nult rfl hunits
  rw [ndrDoCoder_run]
  dsimp only at hfirst hshort
  by_cases hin : alignUp env.word s.offset + 3 * env.word ≤ s.buf.length
  · have hlen : (patch s.buf (alignUp env.word s.offset) (countOctets env nult us)).length =
        s.buf.length := length_patch (by rw [length_countOctets]; exact hin)
    obtain ⟨hdone, hfail⟩ := ndrUtf16zCoder_units
      (u := ⟨maxCountOf nult us.length, 0, actualCountOf nult us.length, us, s.heap.cell a⟩)
      (s := { s with
        buf := patch s.buf (alignUp env.word s.offset) (countOctets env nult us)
        offset := alignUp env.word s.offset + 3 * env.word
        maxAlignment := 2
        isConformanceRun := false
        heap := s.heap.put a (counted nult us (s.heap.cell a)) })
      hdir (Heap.fits_put.mpr hfits) nult rfl heven (by dsimp only; rw [hlen]; exact hin)
      (Heap.cell_put hfits)
    dsimp only at hdone hfail
    rw [hlen, Heap.put_put, Heap.put_cell] at hdone hfail
    rw [hfirst hin, Run.andThen_done]
    dsimp only
    rw [show max 1 2 = 2 from rfl, alignUp_of_dvd (by decide) heven]
    refine ⟨fun h => ?_, fun _ h => hfail h, fun h => absurd h (by omega)⟩
    have hbehind : patch (patch s.buf (alignUp env.word s.offset) (countOctets env nult us))
        (alignUp env.word s.offset + (countOctets env nult us).length) (unitOctets env nult us) =
        patch s.buf (alignUp env.word s.offset)
          (countOctets env nult us ++ unitOctets env nult us) :=
      patch_behind (by rw [length_countOctets]; exact h)
    rw [length_countOctets] at hbehind
    rw [hdone h, hbehind]
  · obtain ⟨t, ht, hheap⟩ := hshort (by omega)
    rw [ht, Run.andThen_fail]
    exact ⟨fun h => absurd h (by omega), fun h => absurd h hin, fun _ => ⟨t, rfl, hheap⟩⟩

end

end

end Libsmb2.Dcerpc
