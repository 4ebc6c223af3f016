import Libsmb2.Dcerpc.Binding
import Libsmb2.Dcerpc.Deferred
import Libsmb2.Dcerpc.Encoding
import Libsmb2.Dcerpc.Srvsvc
import Libsmb2.Unicode.Passes

/-!
# Requests

`dcerpc_call_async`, which encodes a request behind its header into a buffer of 128 KiB and writes
the length into the header afterwards, where it has 16 bits.

* `RequestCoder` — a coder with what every coder does, and those of the server service;
* `dcerpcCallAsync_encoded` — what is queued for a request that has been encoded;
* `request_is_one_fragment_iff` — when the length is the right one.
-/

set_option autoImplicit false

namespace Libsmb2.Dcerpc

open Util

/-! ## The call -/

/-- A coder of requests, which moves forward in the buffer. -/
structure RequestCoder (κ : Type) where
  coder : Env → Addr → Ndr κ Unit
  forward : ∀ env a, Forward (coder env a)

/-- A call: what it is told, the memory with the request in it, and whether the PDU and the IOCTL
are allocated. -/
structure AsyncCall (κ : Type) where
  dce : Context
  opnum : Nat
  reqCoder : RequestCoder κ
  req : Addr
  heap : Heap
  allocatesPdu : Bool
  allocatesIoctl : Bool

/-- What a call comes to: an error, or an IOCTL with this input. -/
inductive Called
  | failed (err : Int)
  | queued (input : Bytes)
  | faulted (f : Fault)
  deriving DecidableEq, Repr

section
variable {κ : Type}

namespace AsyncCall

def env (c : AsyncCall κ) : Env := (⟨c.dce.tctxId, .encode, false⟩ : Env).withDrep c.dce.packedDrep0

def pdu (c : AsyncCall κ) : Pdu where
  hdr :=
    { rpcVers := 5
      rpcVersMinor := 0
      ptype := PDU_TYPE_REQUEST
      pfcFlags := PFC_FIRST_FRAG ||| PFC_LAST_FRAG
      packedDrep0 := c.dce.packedDrep0
      fragLength := 0
      authLength := 0
      callId := c.dce.callId }
  req :=
    { allocHint := 0
      contextId := c.dce.tctxId
      opnum := c.opnum }

/-- The state of the new PDU, at the start of its payload. -/
def start (c : AsyncCall κ) : State κ where
  buf := zeros NSE_BUF_SIZE
  offset := 0
  heap := c.heap
  topLevel := true
  ptrId := 0
  curPtr := 0
  ptrs := []
  isConformanceRun := false
  maxAlignment := 0
  sizeIs := 0
  switchIs := 0

/-- The blob behind the header. -/
def encodeBlob (c : AsyncCall κ) : Ndr κ Unit := do
  setTopLevel true
  c.reqCoder.coder c.env c.req

end AsyncCall

/-- `iov.len` is set, and `frag_length` and `alloc_hint` are written. -/
def fixup (env : Env) : Ndr κ Unit := do
  let s ← Run.get
  Run.modify fun s => { s with buf := s.buf.take s.offset }
  atOffset 8 (dcerpcSet env 2 (s.offset % 65536))
  let _ ← atOffset 16 (ndrUint32Coder env (((s.offset : Int) - 24) % 4294967296).toNat)
  pure ()

/-- `dcerpc_call_async`. -/
def dcerpcCallAsync (c : AsyncCall κ) : Called :=
  if c.allocatesPdu = false then .failed (-ENOMEM)
  else match (dcerpcPduCoder c.env none c.pdu).run c.start with
    | .fault f => .faulted f
    | .fail _ => .failed (-ENOMEM)
    | .done _ s =>
      match (c.encodeBlob >>= fun _ => fixup c.env).run s with
      | .fault f => .faulted f
      | .fail _ => .failed (-1)
      | .done _ t =>
        if c.allocatesIoctl = false then .failed (-ENOMEM)
        -- the input is the first `iov.len` octets of the payload
        else if t.buf.length < t.offset then .faulted .read
        else .queued t.buf

/-! ## One fragment -/

/-- The byte order that a PDU says it has. -/
def orderOf (bs : Bytes) : Env := (⟨0, .decode, false⟩ : Env).withDrep (octet bs 4)

/-- A request in one fragment, with the length and the hint that belong to it. -/
structure IsRequest (bs : Bytes) : Prop where
  header : 24 ≤ bs.length
  vers : octet bs 0 = 5
  minor : octet bs 1 = 0
  ptype : octet bs 2 = PDU_TYPE_REQUEST
  flags : octet bs 3 = PFC_FIRST_FRAG ||| PFC_LAST_FRAG
  fragLength : (orderOf bs).number (slice bs 8 2) = bs.length
  allocHint : (orderOf bs).number (slice bs 16 4) = bs.length - 24

/-- The call fails, or queues a request in one fragment. -/
def FailsOrIsOneFragment (r : Called) : Prop :=
  (∃ err, r = .failed err) ∨ ∃ input, r = .queued input ∧ IsRequest input

namespace AsyncCall

/-- The header of the request. -/
def header (c : AsyncCall κ) : Bytes := c.pdu.hdr.octets c.env ++ c.pdu.req.octets c.env

/-- The state behind the header. -/
def headed (c : AsyncCall κ) : State κ :=
  { c.start with buf := patch (zeros NSE_BUF_SIZE) 0 c.header, offset := 24 }

variable (c : AsyncCall κ)

theorem length_header : c.header.length = 24 := by
  rw [header, List.length_append, Header.length_octets, RequestPdu.length_octets]

theorem header_run : (dcerpcPduCoder c.env none c.pdu).run c.start = .done c.pdu c.headed := by
  have hroom : 0 + 24 ≤ c.start.buf.length := by
    show 24 ≤ (zeros NSE_BUF_SIZE).length
    rw [length_zeros]
    decide
  have hdir : c.env.direction = .encode := rfl
  obtain ⟨hdone, -⟩ := dcerpcPduCoder_writes (κ := κ) hdir none c.pdu rfl c.start rfl rfl
  have hheader : c.pdu.hdr.octets c.env ++
      c.pdu.req.octets (c.env.withDrep c.pdu.hdr.packedDrep0) = c.header := rfl
  rw [hheader, length_header] at hdone
  exact hdone hroom

theorem length_headed : c.headed.buf.length = NSE_BUF_SIZE := by
  show (patch (zeros NSE_BUF_SIZE) 0 c.header).length = NSE_BUF_SIZE
  rw [length_patch, length_zeros]
  rw [length_header, length_zeros]
  decide

theorem take_headed : c.headed.buf.take 24 = c.header := by
  show (patch (zeros NSE_BUF_SIZE) 0 c.header).take 24 = c.header
  rw [← c.length_header, patch]
  simp

end AsyncCall

theorem dcerpcSet_done {env : Env} {s : State κ} {w : Nat} (value : Nat) (hw : 0 < w)
    (hdvd : w ∣ s.offset) (hroom : s.offset + w ≤ s.buf.length) :
    (dcerpcSet env w value).run s = .done () { s with
      buf := patch s.buf s.offset (env.octets w value)
      offset := s.offset + w } := by
  rw [dcerpcSet_run, alignUp_of_dvd hw hdvd, if_neg (by omega)]

/-- What is written into the header afterwards. -/
theorem fixup_run {env : Env} {s : State κ} (hdir : env.direction = .encode)
    (hpass : s.isConformanceRun = false) (hoff : 24 ≤ s.offset) (hlen : 24 ≤ s.buf.length) :
    (fixup env).run s = .done () { s with
      buf := patch (patch (s.buf.take s.offset) 8 (env.octets 2 (s.offset % 65536))) 16
        (env.octets 4 ((s.offset - 24) % 4294967296)) } := by
  have htake : 24 ≤ (s.buf.take s.offset).length := by
    rw [List.length_take]
    omega
  have hpatch : (patch (s.buf.take s.offset) 8 (env.octets 2 (s.offset % 65536))).length =
      (s.buf.take s.offset).length := length_patch (by rw [Env.length_octets]; omega)
  have hhint : (((s.offset : Int) - 24) % 4294967296).toNat = (s.offset - 24) % 4294967296 := by
    omega
  rw [fixup, Run.get_bind, Run.modify_bind, hhint]
  simp only [atOffset, Run.get_bind, bind_assoc, setOffset, Run.modify_bind, pure_bind]
  rw [Run.run_bind, dcerpcSet_done _ (by decide) (show 2 ∣ 8 by decide) (by dsimp only; omega)]
  simp only [Run.andThen_done, Run.modify_bind, Run.get_bind]
  obtain ⟨hdone, -⟩ := ndrUintCoder_writes (κ := κ) (o := 16) (w := 4) hdir
    ((s.offset - 24) % 4294967296) (by decide) (by decide) { s with
      buf := patch (s.buf.take s.offset) 8 (env.octets 2 (s.offset % 65536))
      offset := 16 } rfl hpass
  rw [Env.length_octets] at hdone
  rw [ndrUint32Coder, Run.bind_done (hdone (by dsimp only; omega))]
  rfl

theorem Env.octets_one (env : Env) (n : Nat) : env.octets 1 n = [UInt8.ofNat n] := by
  unfold Env.octets
  split
  · rfl
  · rfl

theorem Env.number_congr {env env' : Env} (h : env.littleEndian = env'.littleEndian) (bs : Bytes) :
    env.number bs = env'.number bs := by
  unfold Env.number
  rw [h]

/-- An octet says the same byte order as the number in it. -/
theorem Env.withDrep_mod (env : Env) (drep : Nat) : env.withDrep (drep % 256) = env.withDrep drep := by
  have hmask : drep % 256 &&& DCERPC_DR_LITTLE_ENDIAN = drep &&& DCERPC_DR_LITTLE_ENDIAN := by
    rw [← Nat.and_two_pow_sub_one_eq_mod drep 8, Nat.and_assoc]
    rfl
  unfold Env.withDrep
  rw [hmask]

theorem AsyncCall.header_cons (c : AsyncCall κ) : ∃ rest, c.header =
    5 :: 0 :: UInt8.ofNat PDU_TYPE_REQUEST :: 3 :: UInt8.ofNat c.dce.packedDrep0 :: rest := by
  unfold AsyncCall.header Header.octets
  simp only [Env.octets_one, List.flatten_cons, List.cons_append]
  exact ⟨_, rfl⟩

/-- What is sent if `bs` is what has been encoded, and ends at `n`. -/
def sent (env : Env) (bs : Bytes) (n : Nat) : Bytes :=
  patch (patch (bs.take n) 8 (env.octets 2 (n % 65536))) 16 (env.octets 4 ((n - 24) % 4294967296))

section
variable {env : Env} {bs : Bytes} {n : Nat} (hn : 24 ≤ n) (hlen : 24 ≤ bs.length)

include hn hlen

theorem length_patched : (patch (bs.take n) 8 (env.octets 2 (n % 65536))).length =
    (bs.take n).length := by
  apply length_patch
  rw [Env.length_octets, List.length_take]
  omega

theorem length_sent : (sent env bs n).length = min n bs.length := by
  unfold sent
  rw [length_patch, length_patched hn hlen, List.length_take]
  rw [length_patched hn hlen, Env.length_octets, List.length_take]
  omega

/-- What stands before the length is what has been encoded. -/
theorem slice_sent {i k : Nat} (hik : i + k ≤ 8) :
    slice (sent env bs n) i k = slice (bs.take 24) i k := by
  have htake : (bs.take n).length = min n bs.length := List.length_take
  unfold sent
  rw [slice_patch_before (by omega) (by rw [length_patched hn hlen]; omega),
    slice_patch_before hik (by omega)]
  show slice (slice bs 0 n) i k = slice (slice bs 0 24) i k
  rw [slice_slice (by omega), slice_slice (by omega)]

theorem number_fragLength : env.number (slice (sent env bs n) 8 2) = n % 65536 := by
  have htake : (bs.take n).length = min n bs.length := List.length_take
  have hfield : slice (patch (bs.take n) 8 (env.octets 2 (n % 65536))) 8
      (env.octets 2 (n % 65536)).length = _ := slice_patch_same (by omega)
  rw [Env.length_octets] at hfield
  unfold sent
  rw [slice_patch_before (by omega) (by rw [length_patched hn hlen]; omega), hfield,
    Env.number_octets]
  omega

theorem number_allocHint : env.number (slice (sent env bs n) 16 4) = (n - 24) % 4294967296 := by
  have htake : (bs.take n).length = min n bs.length := List.length_take
  have hfield : slice (sent env bs n) 16 (env.octets 4 ((n - 24) % 4294967296)).length = _ :=
    slice_patch_same (by rw [length_patched hn hlen]; omega)
  rw [Env.length_octets] at hfield
  rw [hfield, Env.number_octets]
  omega

end

/-- What is sent is one fragment unless its length does not fit into the header. -/
theorem isRequest_sent_iff {c : AsyncCall κ} {t : State κ} (h : Moves c.headed t)
    (hin : t.offset ≤ t.buf.length) :
    IsRequest (sent c.env t.buf t.offset) ↔ t.offset < 65536 := by
  have hn : 24 ≤ t.offset := h.offset
  have hbuf : t.buf.length = NSE_BUF_SIZE := h.length.trans c.length_headed
  have hlen : 24 ≤ t.buf.length := hn.trans hin
  have hmax : t.offset ≤ 131072 := hin.trans hbuf.le
  have hsent : (sent c.env t.buf t.offset).length = t.offset := by
    rw [length_sent hn hlen, Nat.min_eq_left hin]
  have htake : t.buf.take 24 = c.header := h.before.trans c.take_headed
  obtain ⟨rest, hrest⟩ := c.header_cons
  have hoctet : ∀ i, i < 8 → octet (sent c.env t.buf t.offset) i = octet c.header i := by
    intro i hi
    unfold octet
    rw [slice_sent hn hlen (by omega), htake]
  have hdrep : octet c.header 4 = c.dce.packedDrep0 % 256 := by
    rw [hrest]
    show (UInt8.ofNat c.dce.packedDrep0).toNat + 256 * 0 = _
    rw [UInt8.toNat_ofNat']
    rfl
  have horder : (orderOf (sent c.env t.buf t.offset)).littleEndian = c.env.littleEndian := by
    unfold orderOf
    rw [hoctet 4 (by decide), hdrep, Env.withDrep_mod]
    rfl
  have hfrag : (orderOf (sent c.env t.buf t.offset)).number
      (slice (sent c.env t.buf t.offset) 8 2) = t.offset % 65536 := by
    rw [Env.number_congr horder, number_fragLength hn hlen]
  have hhint : (orderOf (sent c.env t.buf t.offset)).number
      (slice (sent c.env t.buf t.offset) 16 4) = t.offset - 24 := by
    rw [Env.number_congr horder, number_allocHint hn hlen, Nat.mod_eq_of_lt (by omega)]
  constructor
  · intro hreq
    have hlength := hreq.fragLength
    rw [hfrag, hsent] at hlength
    omega
  · intro hfits
    exact
      { header := by rw [hsent]; exact hn
        vers := by rw [hoctet 0 (by decide), hrest]; rfl
        minor := by rw [hoctet 1 (by decide), hrest]; rfl
        ptype := by rw [hoctet 2 (by decide), hrest]; rfl
        flags := by
          rw [hoctet 3 (by decide), hrest]
          show 3 + 256 * 0 = 1 ||| 2
          rfl
        fragLength := by rw [hfrag, hsent, Nat.mod_eq_of_lt hfits]
        allocHint := by rw [hhint, hsent] }

/-- The encoding of the request ends at this offset, after the header. -/
def AsyncCall.EndsAt (c : AsyncCall κ) (n : Nat) : Prop :=
  ∃ t, c.encodeBlob.run c.headed = .done () t ∧ t.offset = n

/-- The coder of the request stays in its memory and in the table of the pointers that
it defers. -/
def AsyncCall.StaysInside (c : AsyncCall κ) : Prop := ∀ f, c.encodeBlob.run c.headed ≠ .fault f

theorem AsyncCall.encodeBlob_forward (c : AsyncCall κ) : Forward c.encodeBlob :=
  (setTopLevel_forward true).bind fun _ => c.reqCoder.forward c.env c.req

/-- What is queued for a request that has been encoded. -/
theorem dcerpcCallAsync_encoded {c : AsyncCall κ} {t : State κ} (hpdu : c.allocatesPdu = true)
    (hrun : c.encodeBlob.run c.headed = .done () t) : dcerpcCallAsync c =
      if c.allocatesIoctl = false then .failed (-ENOMEM)
      else if t.buf.length < t.offset then .faulted .read
      else .queued (sent c.env t.buf t.offset) := by
  have hmoves : Moves c.headed t := c.encodeBlob_forward _ _ _ hrun
  have hn : 24 ≤ t.offset := hmoves.offset
  have hlen : 24 ≤ t.buf.length := by
    rw [hmoves.length, c.length_headed]
    decide
  have hdir : c.env.direction = .encode := rfl
  have hfixup := fixup_run (s := t) hdir (hmoves.pass rfl) hn hlen
  have hshort : (sent c.env t.buf t.offset).length < t.offset ↔ t.buf.length < t.offset := by
    rw [length_sent hn hlen]
    omega
  unfold dcerpcCallAsync
  rw [if_neg (by simp [hpdu]), c.header_run]
  dsimp only
  rw [Run.bind_done hrun, hfixup]
  exact if_congr Iff.rfl rfl (if_congr hshort rfl rfl)

/-- A request that cannot be encoded fails, unless its coder leaves the memory. -/
theorem dcerpcCallAsync_stopped {c : AsyncCall κ} (hpdu : c.allocatesPdu = true)
    (hnone : ¬ ∃ n, c.EndsAt n) : (∃ err, dcerpcCallAsync c = .failed err) ∧ c.StaysInside ∨
      (∃ f, dcerpcCallAsync c = .faulted f) ∧ ¬ c.StaysInside := by
  unfold dcerpcCallAsync
  rw [if_neg (by simp [hpdu]), c.header_run]
  dsimp only
  cases hrun : c.encodeBlob.run c.headed with
  | done u t => exact absurd ⟨t.offset, t, hrun, rfl⟩ hnone
  | fail t =>
    rw [Run.bind_fail hrun]
    refine .inl ⟨⟨_, rfl⟩, fun f => ?_⟩
    rw [hrun]
    exact nofun
  | fault f =>
    rw [Run.bind_fault hrun]
    exact .inr ⟨⟨_, rfl⟩, fun h => h f hrun⟩

/-- **A call fails or queues one fragment** if and only if the coder of the request stays inside and
its encoding, if it is finished, ends before the octet 65536. -/
theorem request_is_one_fragment_iff (c : AsyncCall κ) : FailsOrIsOneFragment (dcerpcCallAsync c) ↔
    (c.allocatesPdu = true → c.StaysInside ∧
      (c.allocatesIoctl = true → ∀ n, c.EndsAt n → n < 65536)) := by
  cases hpdu : c.allocatesPdu with
  | false =>
    have hfailed : dcerpcCallAsync c = .failed (-ENOMEM) := if_pos hpdu
    exact iff_of_true (.inl ⟨_, hfailed⟩) nofun
  | true =>
    simp only [forall_const]
    by_cases hends : ∃ n, c.EndsAt n
    swap
    · rcases dcerpcCallAsync_stopped hpdu hends with ⟨hfailed, hinside⟩ | ⟨⟨f, hfault⟩, hnot⟩
      · exact iff_of_true (.inl hfailed) ⟨hinside, fun _ n hn => absurd ⟨n, hn⟩ hends⟩
      · refine iff_of_false ?_ fun h => hnot h.1
        rw [hfault]
        rintro (⟨err, herr⟩ | ⟨input, hinput, -⟩)
        · cases herr
        · cases hinput
    obtain ⟨n, t, hrun, -⟩ := hends
    have hmoves : Moves c.headed t := c.encodeBlob_forward _ _ _ hrun
    have hbuf : t.buf.length = 131072 := hmoves.length.trans c.length_headed
    have hinside : c.StaysInside := by
      intro f hf
      rw [hrun] at hf
      cases hf
    have hend : (∀ n, c.EndsAt n → n < 65536) ↔ t.offset < 65536 := by
      constructor
      · exact fun h => h _ ⟨t, hrun, rfl⟩
      · rintro h m ⟨t', hrun', rfl⟩
        rw [hrun] at hrun'
        cases hrun'
        exact h
    rw [and_iff_right hinside, hend, dcerpcCallAsync_encoded hpdu hrun]
    cases hioctl : c.allocatesIoctl with
    | false => exact iff_of_true (.inl ⟨_, rfl⟩) nofun
    | true =>
      rw [if_neg (by decide), forall_prop_of_true rfl]
      by_cases hover : t.buf.length < t.offset
      · rw [if_pos hover]
        refine iff_of_false ?_ (by omega)
        rintro (⟨err, herr⟩ | ⟨input, hinput, -⟩)
        · cases herr
        · cases hinput
      · rw [if_neg hover, ← isRequest_sent_iff hmoves (Nat.le_of_not_lt hover)]
        constructor
        · rintro (⟨err, herr⟩ | ⟨input, hinput, hreq⟩)
          · cases herr
          · cases hinput
            exact hreq
        · exact fun h => .inr ⟨_, rfl, h⟩

end

/-! ## The requests of the server service -/

section
variable {env : Env}

theorem smb2AllocData_forward {κ : Type} (size : Nat) : Forward (smb2AllocData (κ := κ) size) := by
  intro s p t h
  unfold smb2AllocData at h
  dsimp only at h
  split at h
  · cases h
  · split at h
    · cases h
      exact .of_buf rfl le_rfl le_rfl rfl
    · cases h
      exact .refl s

section
variable {run : SrvsvcRun} (hrun : ∀ k a, Forward (run k a))

include hrun

theorem fieldsCoder_forward (fs : List Field) (a : Addr) : Forward (fieldsCoder env run a fs) := by
  induction fs with
  | nil => exact .pure ()
  | cons f fs ih =>
    refine Forward.bind ?_ fun _ => ih
    cases f with
    | string off => exact ndrPtrCoder_forward hrun _ _ _
    | dword off => exact ndrUintCoderAt_forward (by decide) _

theorem sharesCoder_forward (fs : List Field) (elemSize : Nat) (a : Addr) :
    Forward (sharesCoder env elemSize (fun a => fieldsCoder env run a fs) a) :=
  Forward.get.bind fun s =>
    ndrCarrayCoder_forward (fun a => fieldsCoder_forward hrun fs a) s.sizeIs a elemSize

theorem containerCoder_forward (elemSize : Nat) (carray : Srvsvc) (a : Addr) :
    Forward (containerCoder env run elemSize carray a) := by
  have hsize : ∀ n, Forward (setSizeIs n) := by
    intro n
    refine .modify ?_ ?_ ?_ ?_
    all_goals
      intro s
      split <;> rfl
  have halloc : ∀ n a, Forward (allocEntries env n elemSize a) := by
    intro n a
    unfold allocEntries
    split
    · refine (load_forward a).bind fun p => ?_
      split
      · refine (smb2AllocData_forward _).bind fun b => ?_
        cases b with
        | none => exact Run.Relates.fail
        | some b => exact store_forward _ _ _
      · exact .pure ()
    · exact .pure ()
  refine (ndrUintCoderAt_forward (by decide) a).bind fun _ => (load_forward a).bind fun n => ?_
  refine (hsize _).bind fun _ => (halloc _ _).bind fun _ => (load_forward _).bind fun p => ?_
  exact ndrPtrCoder_forward hrun _ _ _

theorem srvsvcCoder_forward (k : Srvsvc) (a : Addr) : Forward (srvsvcCoder env run k a) := by
  have hunion : ∀ a, Forward (srvsvcShareEnumUnionCoder env run a) := by
    intro a
    refine Forward.get.bind fun s => ?_
    split
    · exact ndrPtrCoder_forward hrun _ _ _
    · exact ndrPtrCoder_forward hrun _ _ _
    · exact ndrPtrCoder_forward hrun _ _ _
    · exact .pure ()
  have henum : Forward (srvsvcShareEnumStructCoder env run a) :=
    (ndrUintCoderAt_forward (by decide) a).bind fun _ => ndrUnionCoderAt_forward (hunion _) _
  cases k with
  | uint32 => exact ndrUintCoderAt_forward (by decide) a
  | utf16z => exact ndrUtf16zCoder_forward a true
  | shareInfo0Struct => exact fieldsCoder_forward hrun _ a
  | shareInfo1Struct => exact fieldsCoder_forward hrun _ a
  | shareInfo2Struct => exact fieldsCoder_forward hrun _ a
  | shareInfo0Carray => exact sharesCoder_forward hrun _ _ a
  | shareInfo1Carray => exact sharesCoder_forward hrun _ _ a
  | shareInfo2Carray => exact sharesCoder_forward hrun _ _ a
  | shareInfo0Container => exact containerCoder_forward hrun _ _ a
  | shareInfo1Container => exact containerCoder_forward hrun _ _ a
  | shareInfo2Container => exact containerCoder_forward hrun _ _ a
  | shareEnumStruct => exact henum
  | shareEnumStructStruct => exact henum
  | shareInfoStruct =>
    refine Forward.get.bind fun s => (ndrUnionCoder_forward ?_ _).bind fun _ => .pure ()
    refine Forward.get.bind fun s => ?_
    split
    · exact ndrPtrCoder_forward hrun _ _ _
    · exact ndrPtrCoder_forward hrun _ _ _
    · exact ndrPtrCoder_forward hrun _ _ _
    · exact .pure ()

end

theorem srvsvcRun_forward (k : Srvsvc) (a : Addr) : Forward (srvsvcRun env k a) :=
  srvsvcCoder_forward (fun _ _ => Run.Relates.fault _) k a

theorem srvsvcPtr_forward (a : Addr) (type : PtrType) (k : Srvsvc) :
    Forward (srvsvcPtr env a type k) := ndrPtrCoder_forward srvsvcRun_forward _ _ _

theorem setSwitchIsAt_forward (a : Addr) : Forward (setSwitchIsAt a) :=
  (load_forward a).bind fun _ => setSwitchIs_forward _

end

/-- A NetrShareAdd. -/
def netrShareAddRequest : RequestCoder Srvsvc where
  coder := srvsvcNetrShareAddReqCoder
  forward := fun _ a => (srvsvcPtr_forward a _ _).bind fun _ =>
    (ndrUintCoderAt_forward (by decide) _).bind fun _ => (setSwitchIsAt_forward _).bind fun _ =>
    (srvsvcPtr_forward _ _ _).bind fun _ => srvsvcPtr_forward _ _ _

/-- A NetrShareEnum. -/
def netrShareEnumRequest : RequestCoder Srvsvc where
  coder := srvsvcNetrShareEnumReqCoder
  forward := fun _ a => (srvsvcPtr_forward a _ _).bind fun _ => (srvsvcPtr_forward _ _ _).bind fun _ =>
    (srvsvcPtr_forward _ _ _).bind fun _ => srvsvcPtr_forward _ _ _

/-- A NetrShareGetInfo. -/
def netrShareGetInfoRequest : RequestCoder Srvsvc where
  coder := srvsvcNetrShareGetInfoReqCoder
  forward := fun _ a => (srvsvcPtr_forward a _ _).bind fun _ => (srvsvcPtr_forward _ _ _).bind fun _ =>
    (ndrUintCoderAt_forward (by decide) _).bind fun _ => setSwitchIsAt_forward _

/-- A NetrShareSetInfo. -/
def netrShareSetInfoRequest : RequestCoder Srvsvc where
  coder := srvsvcNetrShareSetInfoReqCoder
  forward := fun _ a => (srvsvcPtr_forward a _ _).bind fun _ => (srvsvcPtr_forward _ _ _).bind fun _ =>
    (ndrUintCoderAt_forward (by decide) _).bind fun _ => (setSwitchIsAt_forward _).bind fun _ =>
    (srvsvcPtr_forward _ _ _).bind fun _ => srvsvcPtr_forward _ _ _

/-- A NetrShareDel. -/
def netrShareDelRequest : RequestCoder Srvsvc where
  coder := srvsvcNetrShareDelReqCoder
  forward := fun _ a => (srvsvcPtr_forward a _ _).bind fun _ => (srvsvcPtr_forward _ _ _).bind fun _ =>
    ndrUintCoderAt_forward (by decide) _

/-- A NetrShareCheck. -/
def netrShareCheckRequest : RequestCoder Srvsvc where
  coder := srvsvcNetrShareCheckReqCoder
  forward := fun _ a => (srvsvcPtr_forward a _ _).bind fun _ => srvsvcPtr_forward _ _ _

/-! ## A long name -/

/-- Where the encoding of a string ends that is to begin at this offset. -/
def stringEnd (env : Env) (o n : Nat) : Nat := alignUp env.word o + 3 * env.word + 2 * (n + 1)

/-- A state at the top level that is ready to encode a pointer of a request, in this memory. -/
structure Ready (heap : Heap) (o : Nat) (s : State Srvsvc) : Prop where
  offset : s.offset = o
  length : s.buf.length = NSE_BUF_SIZE
  heap : s.heap = heap
  idle : Idle s
  pass : s.isConformanceRun = false

section
variable {env : Env} {heap : Heap} {a : Addr} {us : List Nat} {s : State Srvsvc} {o : Nat}

theorem ptrOut_idle {run : SrvsvcRun} (h : Idle s) : (ptrOut run).run s = .done () s := by
  obtain ⟨htop, hcur⟩ := h
  have hnone : (dcerpcProcessDeferredPointers run (MAX_DEFERRED_PTR + 1)).run
      { s with topLevel := false } = .done () { s with topLevel := false } := by
    rw [dcerpcProcessDeferredPointers, Run.get_bind, if_pos hcur]
    rfl
  rw [ptrOut, Run.get_bind, if_pos htop, setTopLevel, Run.modify_bind, Run.bind_done hnone, htop,
    setTopLevel, Run.run_modify]
  dsimp only
  rw [← htop]

/-- A string that a pointer at the top level names is encoded at once. -/
theorem follow_string (hdir : env.direction = .encode) (h : Ready heap o s)
    (hfits : heap.Fits a 8) (hunits : unitsOf (heap.cell a) = some us)
    (hroom : stringEnd env o us.length ≤ NSE_BUF_SIZE) :
    ∃ t, (follow (srvsvcRun env) .utf16z a).run s = .done () t
      ∧ Ready heap (stringEnd env o us.length) t := by
  obtain ⟨rfl, hlen, rfl, ⟨htop, hcur⟩, hpass⟩ := h
  have hunitsLen : (unitOctets env true us).length = 2 * (us.length + 1) := length_unitOctets
  obtain ⟨hdone, -, -⟩ := ndrUtf16zCoder_encodes (s := { s with topLevel := false }) hdir hfits true
    hunits
  dsimp only at hdone
  rw [hunitsLen, hlen] at hdone
  have hstring := hdone hroom
  have hbuf : (patch s.buf (alignUp env.word s.offset)
      (countOctets env true us ++ unitOctets env true us)).length = NSE_BUF_SIZE := by
    rw [length_patch, hlen]
    rw [List.length_append, length_countOctets, hunitsLen, hlen]
    unfold stringEnd at hroom
    omega
  rw [follow, Run.get_bind, if_pos htop, setTopLevel, Run.modify_bind]
  refine ⟨_, Run.bind_done hstring, rfl, hbuf, rfl, ⟨htop, hcur⟩, rfl⟩

theorem word_ready (hdir : env.direction = .encode) (h : Ready heap o s) (value : Nat)
    (hroom : alignUp env.word o + env.word ≤ NSE_BUF_SIZE) :
    ∃ t, (ndrUint3264Coder env value).run s = .done value t
      ∧ Ready heap (alignUp env.word o + env.word) t := by
  obtain ⟨rfl, hlen, rfl, hidle, hpass⟩ := h
  have hbuf : (patch s.buf (alignUp env.word s.offset) (env.octets env.word value)).length =
      NSE_BUF_SIZE := by
    rw [length_patch, hlen]
    rw [Env.length_octets, hlen]
    exact hroom
  have hset := dcerpcSet_run env env.word value s
  rw [hlen, if_neg (by omega)] at hset
  rw [ndrUint3264Coder, ndrUintCoder, Run.get_bind, if_neg (by simp [hpass]), hdir]
  exact ⟨_, Run.bind_done hset, rfl, hbuf, rfl, hidle, hpass⟩

/-- A string behind a unique pointer at the top level. -/
theorem uniqueString_ready (hdir : env.direction = .encode) (h : Ready heap o s)
    (hfits : heap.Fits a 8) (hunits : unitsOf (heap.cell a) = some us)
    (hroom : stringEnd env (alignUp env.word o + env.word) us.length ≤ NSE_BUF_SIZE) :
    ∃ t, (srvsvcPtr env a .unique .utf16z).run s = .done () t
      ∧ Ready heap (stringEnd env (alignUp env.word o + env.word) us.length) t := by
  have hle := le_alignUp (word_pos env) (alignUp env.word o + env.word)
  obtain ⟨r, hword, hr⟩ := word_ready hdir h UPTR (by unfold stringEnd at hroom; omega)
  obtain ⟨t, hstring, ht⟩ := follow_string hdir hr hfits hunits hroom
  refine ⟨t, ?_, ht⟩
  rw [srvsvcPtr, ndrPtrCoder, hdir]
  dsimp only
  rw [ndrEncodePtr, Run.get_bind, if_neg (by simp [h.pass]), Run.bind_done hword,
    Run.bind_done hstring]
  exact ptrOut_idle ht.idle

/-- A string behind a reference pointer at the top level. -/
theorem refString_ready (hdir : env.direction = .encode) (h : Ready heap o s)
    (hfits : heap.Fits a 8) (hunits : unitsOf (heap.cell a) = some us)
    (hroom : stringEnd env o us.length ≤ NSE_BUF_SIZE) :
    ∃ t, (srvsvcPtr env a .ref .utf16z).run s = .done () t
      ∧ Ready heap (stringEnd env o us.length) t := by
  obtain ⟨t, hstring, ht⟩ := follow_string hdir h hfits hunits hroom
  refine ⟨t, ?_, ht⟩
  have href : (refPtr env (srvsvcRun env) .utf16z a).run s = .done () t := by
    rw [refPtr, Run.get_bind, if_pos h.idle.1]
    exact hstring
  rw [srvsvcPtr, ndrPtrCoder, hdir]
  dsimp only
  rw [ndrEncodePtr, Run.get_bind, if_neg (by simp [h.pass])]
  dsimp only
  rw [Run.bind_done href]
  exact ptrOut_idle ht.idle

end

/-- A NetrShareCheck for a server with a name of 32768 letters. -/
def longNameCall : AsyncCall Srvsvc where
  dce := newContext .ndr32
  opnum := 0x14
  reqCoder := netrShareCheckRequest
  req := ⟨0, 0⟩
  heap := [⟨16, fun o => if o = 0 then .text (letters 32768) else .num 0⟩]
  allocatesPdu := true
  allocatesIoctl := true

theorem longName_units : unitsOf (.text (letters 32768)) =
    some (utf16Encode (List.replicate 32768 'a')) :=
  utf8ToUtf16_eq_some.mpr (transcodes_iff.mpr ⟨_, letters_octets _, rfl⟩)

theorem longNameCall_encoded : ∃ t, longNameCall.encodeBlob.run longNameCall.headed = .done () t
    ∧ t.offset = 65594 := by
  have hready : Ready longNameCall.heap 24 { longNameCall.headed with topLevel := true } :=
    ⟨rfl, longNameCall.length_headed, rfl, ⟨rfl, rfl⟩, rfl⟩
  have hfits : ∀ o, o + 8 ≤ 16 → longNameCall.heap.Fits ⟨0, o⟩ 8 := fun o ho => ⟨_, rfl, ho⟩
  have hdir : longNameCall.env.direction = .encode := rfl
  have hempty : unitsOf (longNameCall.heap.cell ⟨0, 8⟩) = some [] := rfl
  obtain ⟨r, hserver, hr⟩ := uniqueString_ready hdir hready (hfits 0 (by decide)) longName_units (by
    rw [letters_units]
    decide)
  rw [letters_units] at hr
  obtain ⟨t, hname, ht⟩ := refString_ready hdir hr (hfits 8 (by decide)) hempty (by decide)
  refine ⟨t, ?_, ht.offset.trans (by decide)⟩
  rw [AsyncCall.encodeBlob, setTopLevel, Run.modify_bind]
  exact (Run.bind_done hserver).trans hname

/-- 65594 octets are sent, of which the header counts 58. -/
theorem long_name_is_not_one_fragment : ¬ FailsOrIsOneFragment (dcerpcCallAsync longNameCall) := by
  intro h
  obtain ⟨t, hrun, hoff⟩ := longNameCall_encoded
  have hmoves : Moves longNameCall.headed t := longNameCall.encodeBlob_forward _ _ _ hrun
  have hbuf : t.buf.length = NSE_BUF_SIZE := hmoves.length.trans longNameCall.length_headed
  have hin : t.offset ≤ t.buf.length := by
    rw [hoff, hbuf]
    decide
  have hqueued := dcerpcCallAsync_encoded rfl hrun
  have hioctl : longNameCall.allocatesIoctl = true := rfl
  rw [hioctl, if_neg (by decide), if_neg (Nat.not_lt.mpr hin)] at hqueued
  rw [hqueued] at h
  rcases h with ⟨err, herr⟩ | ⟨input, hinput, hreq⟩
  · cases herr
  · cases hinput
    have hlt := (isRequest_sent_iff hmoves hin).mp hreq
    rw [hoff] at hlt
    omega

end Libsmb2.Dcerpc
