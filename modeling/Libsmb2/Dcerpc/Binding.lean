import Libsmb2.Dcerpc

/-!
# The bind

`dcerpc_bind_async`, which offers the transfer contexts, and `smb2_bind_cb`, which decodes the reply
and takes the first context that is accepted.  A callback is a list of events: the coder of a body
that is started, the PDU when all of it has been decoded, and the callback of the caller.

* `ackResultsCoder_run` — the results that are read, and the one that is written behind the array;
* `dcerpcPduCoder_run` — the coder that the type in the header names;
* `ack_is_bounded_iff` — when the results lie in their array and the context was offered.
-/

set_option autoImplicit false

namespace Libsmb2.Dcerpc

open Util

/-! ## What is offered -/

/-- The values of `smb2->ndr`: 0, 1 and 2. -/
inductive Transfer
  | ndr3264
  | ndr32
  | ndr64
  deriving DecidableEq, Repr

/-- What is used of `struct dcerpc_context`. -/
structure Context where
  ndr : Transfer
  syn : SyntaxId
  tctxId : Nat
  packedDrep0 : Nat
  callId : Nat
  deriving DecidableEq, Repr

/-- The context elements of `dcerpc_bind_async`. -/
def offeredContexts (dce : Context) : List PContElem :=
  (if dce.ndr = .ndr3264 ∨ dce.ndr = .ndr32 then [⟨0, 1, dce.syn, [ndr32Syntax]⟩] else [])
    ++ (if dce.ndr = .ndr3264 ∨ dce.ndr = .ndr64 then [⟨1, 1, dce.syn, [ndr64Syntax]⟩] else [])

/-- The PDU that `dcerpc_bind_async` encodes, and keeps for the reply. -/
def bindRequest (dce : Context) : Pdu where
  hdr :=
    { rpcVers := 5
      rpcVersMinor := 0
      ptype := PDU_TYPE_BIND
      pfcFlags := PFC_FIRST_FRAG ||| PFC_LAST_FRAG
      packedDrep0 := dce.packedDrep0
      fragLength := 0
      authLength := 0
      callId := dce.callId }
  bind :=
    { maxXmitFrag := 32768
      maxRecvFrag := 32768
      assocGroupId := 0
      nContextElem := if dce.ndr = .ndr3264 then 2 else 1
      pContElem := offeredContexts dce }

/-! ## The reply -/

/-- The memory of a PDU between two passes, at the start of a buffer. -/
def State.rewind {κ : Type} (s : State κ) (buf : Bytes) : State κ :=
  { s with buf := buf, offset := 0, topLevel := true, isConformanceRun := false }

/-- The state of a PDU that no stub is decoded into. -/
def noStub : State Empty where
  buf := []
  offset := 0
  heap := []
  topLevel := true
  ptrId := 0
  curPtr := 0
  ptrs := []
  isConformanceRun := false
  maxAlignment := 0
  sizeIs := 0
  switchIs := 0

inductive Event
  | started (body : Body)
  | decoded (pdu : Pdu)
  | called (status : Int)
  | faulted (f : Fault)
  deriving DecidableEq, Repr

/-- The byte order that a PDU is decoded in until its header has been read. -/
def Pdu.env (pdu : Pdu) (tctxId : Nat) : Env :=
  (⟨tctxId, .decode, false⟩ : Env).withDrep pdu.hdr.packedDrep0

/-- The coder of a body that `dcerpc_pdu_coder` comes to. -/
def startedBody {κ : Type} (env : Env) (pdu : Pdu) (s : State κ) : Option Body :=
  match (dcerpcHeaderCoder env true pdu.hdr).run s with
  | .done hdr _ => bodyOf hdr.ptype
  | _ => none

def startedEvents {κ : Type} (env : Env) (pdu : Pdu) (s : State κ) : List Event :=
  (startedBody env pdu s).toList.map .started

/-- `smb2_free_data` of the output, and what follows it.  The pointer is not set when the reply
has no output. -/
def freeOutput (output : Bytes) (events : List Event) : List Event :=
  if output = [] then [.faulted .null] else events

/-- The first of the results that is an acceptance. -/
def firstAccepted (results : List ContextResult) : Option Nat :=
  results.findIdx? fun r => r.ackResult = ACK_RESULT_ACCEPTANCE

/-- `dce->tctx_id` for the `i`th result. -/
def Transfer.selected (ndr : Transfer) (i : Nat) : Nat :=
  match ndr with
  | .ndr3264 => i
  | .ndr32 => 0
  | .ndr64 => 1

/-- What `smb2_bind_cb` makes of a PDU, behind the output. -/
def bindDecoded (dce : Context) (pdu : Pdu) : List Event × Nat :=
  if pdu.hdr.ptype ≠ PDU_TYPE_BIND_ACK then ([.called (-EINVAL)], dce.tctxId)
  else if pdu.bindAck.numResults < 1 then ([.called (-EINVAL)], dce.tctxId)
  else
    match firstAccepted pdu.bindAck.results with
    | none => ([.called (-EINVAL)], dce.tctxId)
    | some i => ([.called 0], dce.ndr.selected i)

/-- What follows `dcerpc_pdu_coder` in `smb2_bind_cb`. -/
def bindReply (dce : Context) (output : Bytes) :
    Util.Outcome (State Empty) Fault Pdu → List Event × Nat
  | .fault f => ([.faulted f], dce.tctxId)
  | .fail _ => (freeOutput output [.called (-EINVAL)], dce.tctxId)
  | .done pdu _ =>
    (.decoded pdu :: freeOutput output (bindDecoded dce pdu).1, (bindDecoded dce pdu).2)

/-- `smb2_bind_cb`: its events, and `dce->tctx_id` behind it. -/
def smb2BindCb (dce : Context) (status : Nat) (output : Bytes) : List Event × Nat :=
  let pdu := bindRequest dce
  let env := pdu.env dce.tctxId
  if status ≠ 0 then ([.called (-nterrorToErrno status)], dce.tctxId)
  else
    let reply := bindReply dce output ((dcerpcPduCoder env none pdu).run (noStub.rewind output))
    (startedEvents env pdu (noStub.rewind output) ++ reply.1, reply.2)

/-! ## Results -/

section

variable {κ : Type} {env : Env} {buf : Bytes} {o : Nat}

/-- The octets at an offset. -/
def octetsAt (buf : Bytes) (o : Nat) : Nat → List Nat
  | 0 => []
  | n + 1 => octet buf o :: octetsAt buf (o + 1) n

/-- The result at an offset. -/
def resultAt (env : Env) (buf : Bytes) (o : Nat) : ContextResult where
  ackResult := env.number (slice buf o 2)
  ackReason := env.number (slice buf (o + 2) 2)
  uuid :=
    { v1 := env.number (slice buf (o + 4) 4)
      v2 := env.number (slice buf (o + 8) 2)
      v3 := env.number (slice buf (o + 10) 2)
      v4 := octetsAt buf (o + 12) 8 }
  syntaxVersion := env.number (slice buf (o + 20) 4)

theorem ndrUint8sCoder_reads (hdir : env.direction = .decode) (v : Nat) (vs : List Nat) :
    Reads (κ := κ) buf o (vs.length + 1) (ndrUint8sCoder env (v :: vs))
      (octetsAt buf o (vs.length + 1)) := by
  induction vs generalizing v o with
  | nil => exact (ndrUint8Coder_reads hdir v).map fun v => [v]
  | cons w ws ih =>
    have hrest := (ih (o := o + 1) w).map fun vs => octet buf o :: vs
    have h := (ndrUint8Coder_reads hdir v).bind (f := fun v => do
      let vs ← ndrUint8sCoder env (w :: ws)
      pure (v :: vs)) hrest
    rw [Nat.add_comm] at h
    exact h

theorem ndrUuidCoder_reads (hdir : env.direction = .decode) (hdvd : 4 ∣ o) {uuid : Uuid}
    (hlen : uuid.v4.length = 8) :
    Reads (κ := κ) buf o 16 (ndrUuidCoder env uuid)
      { v1 := env.number (slice buf o 4)
        v2 := env.number (slice buf (o + 4) 2)
        v3 := env.number (slice buf (o + 6) 2)
        v4 := octetsAt buf (o + 8) 8 } := by
  have heven : 2 ∣ o := Nat.dvd_trans (by decide) hdvd
  obtain ⟨v1, v2, v3, v4⟩ := uuid
  obtain - | ⟨v, vs⟩ := v4
  · cases hlen
  have hvs : vs.length = 7 := by simpa using hlen
  have hoctets := @ndrUint8sCoder_reads κ env buf (o + 8) hdir v vs
  rw [hvs] at hoctets
  apply (ndrUint32Coder_reads hdir _ hdvd).bind (l := 12)
  apply (ndrUint16Coder_reads hdir _ (by omega)).bind (l := 10)
  apply (ndrUint16Coder_reads hdir _ (by omega)).bind (l := 8)
  exact hoctets.map _

/-- One turn of the loop over the results. -/
def ackResultCoder (env : Env) (r : ContextResult) : Ndr κ ContextResult := do
  let ackResult ← ndrUint16Coder env r.ackResult
  let ackReason ← ndrUint16Coder env r.ackReason
  let uuid ← ndrUuidCoder env r.uuid
  let syntaxVersion ← ndrUint32Coder env r.syntaxVersion
  pure ⟨ackResult, ackReason, uuid, syntaxVersion⟩

theorem ackResultCoder_reads (hdir : env.direction = .decode) (hdvd : 4 ∣ o) {r : ContextResult}
    (hlen : r.uuid.v4.length = 8) :
    Reads (κ := κ) buf o 24 (ackResultCoder env r) (resultAt env buf o) := by
  apply (ndrUint16Coder_reads hdir _ (by omega)).bind (l := 22)
  apply (ndrUint16Coder_reads hdir _ (by omega)).bind (l := 20)
  apply (ndrUuidCoder_reads hdir (by omega) hlen).bind (l := 4)
  exact (ndrUint32Coder_reads hdir _ (by omega)).map _

theorem ackResultsCoder_succ {i : Nat} (hi : i < MAX_ACK_RESULTS) (old : List ContextResult)
    (n : Nat) : ackResultsCoder (κ := κ) env old (n + 1) i
      = ackResultCoder env (old.getD i ⟨0, 0, ⟨0, 0, 0, List.replicate 8 0⟩, 0⟩) >>= fun a =>
        ackResultsCoder env old n (i + 1) >>= fun rs => pure (a :: rs) := by
  have hno : ¬ MAX_ACK_RESULTS ≤ i := by omega
  simp only [ackResultsCoder, ackResultCoder, if_neg hno, bind_assoc, pure_bind]

/-- The results from the `i`th on: they are read, or the first field of the fifth is written, or
the buffer ends before. -/
theorem ackResultsCoder_run (hdir : env.direction = .decode) {n i : Nat} (hi : i ≤ MAX_ACK_RESULTS)
    {s : State κ} (hdvd : 4 ∣ s.offset) (hrun : s.isConformanceRun = false) :
    (i + n ≤ MAX_ACK_RESULTS → (n = 0 ∨ s.offset + 24 * n ≤ s.buf.length) →
      (ackResultsCoder env [] n i).run s
        = .done ((List.range n).map fun j => resultAt env s.buf (s.offset + 24 * j))
          { s with offset := s.offset + 24 * n })
    ∧ (MAX_ACK_RESULTS < i + n → s.offset + 24 * (MAX_ACK_RESULTS - i) + 2 ≤ s.buf.length →
      (ackResultsCoder env [] n i).run s = .fault .write)
    ∧ (n ≠ 0 → (i + n ≤ MAX_ACK_RESULTS → s.buf.length < s.offset + 24 * n) →
      (MAX_ACK_RESULTS < i + n → s.buf.length < s.offset + 24 * (MAX_ACK_RESULTS - i) + 2) →
      ∃ t, (ackResultsCoder env [] n i).run s = .fail t) := by
  induction n generalizing i s with
  | zero =>
    refine ⟨fun _ _ => rfl, fun h => ?_, fun h => absurd rfl h⟩
    omega
  | succ n ih =>
    by_cases hfull : MAX_ACK_RESULTS ≤ i
    · have hi : i = MAX_ACK_RESULTS := by omega
      subst hi
      have hread := @ndrUint16Coder_reads κ s.buf _ env hdir 0
        (Nat.dvd_trans (by decide) hdvd)
      refine ⟨fun h => ?_, fun _ hin => ?_, fun _ _ hout => ?_⟩
      · omega
      · exact hread.run_bind rfl rfl hrun (by omega)
      · exact hread.needs _ s rfl rfl hrun (by have := hout (by omega); omega)
    rw [ackResultsCoder_succ (by omega)]
    have hread := @ackResultCoder_reads κ env s.buf _ hdir hdvd
      ⟨0, 0, ⟨0, 0, 0, List.replicate 8 0⟩, 0⟩ rfl
    by_cases hone : s.offset + 24 ≤ s.buf.length
    · obtain ⟨hdone, hwrite, hfail⟩ := ih (i := i + 1) (by omega)
        (s := { s with offset := s.offset + 24 }) (by dsimp only; omega) hrun
      dsimp only at hdone hwrite hfail
      rw [List.getD_nil, hread.run_bind rfl rfl hrun hone]
      refine ⟨fun h hin => ?_, fun h hin => ?_, fun _ hin hout => ?_⟩
      · rw [Run.bind_done (hdone (by omega) (by omega)), List.range_succ_eq_map, List.map_cons,
          List.map_map]
        have hmap : (fun j => resultAt env s.buf (s.offset + 24 * j)) ∘ Nat.succ
            = fun j => resultAt env s.buf (s.offset + 24 + 24 * j) := by
          funext j
          simp only [Function.comp_apply]
          congr 1
          omega
        rw [hmap]
        have hend : s.offset + 24 + 24 * n = s.offset + 24 * (n + 1) := by omega
        rw [hend]
        rfl
      · exact Run.bind_fault (hwrite (by omega) (by omega))
      · by_cases hlast : n = 0
        · subst hlast
          have := hin (by omega)
          omega
        · obtain ⟨t, ht⟩ := hfail hlast (fun h => by have := hin (by omega); omega)
            (fun h => by have := hout (by omega); omega)
          exact ⟨t, Run.bind_fail ht⟩
    · rw [List.getD_nil]
      refine ⟨fun _ hin => ?_, fun _ hin => ?_, fun _ _ _ => ?_⟩
      · omega
      · omega
      · exact hread.needs _ s rfl rfl hrun (by omega)

/-! ## The acknowledgement -/

/-- Where the number of results stands, behind the secondary address. -/
def ackStart (env : Env) (buf : Bytes) : Nat := alignUp 4 (26 + env.number (slice buf 24 2))

def ackCount (env : Env) (buf : Bytes) : Nat := octet buf (ackStart env buf)

/-- The results that are there. -/
def ackResults (env : Env) (buf : Bytes) : List ContextResult :=
  (List.range (ackCount env buf)).map fun j => resultAt env buf (ackStart env buf + 4 + 24 * j)

/-- The results lie in the buffer, and there is room for them. -/
def AckFits (env : Env) (buf : Bytes) : Prop :=
  ackStart env buf < buf.length ∧ ackCount env buf ≤ MAX_ACK_RESULTS
    ∧ (ackCount env buf = 0 ∨ ackStart env buf + 4 + 24 * ackCount env buf ≤ buf.length)

/-- There are more results than there is room for, and the first field of the fifth one lies in
the buffer. -/
def AckOverflows (env : Env) (buf : Bytes) : Prop :=
  MAX_ACK_RESULTS < ackCount env buf
    ∧ ackStart env buf + 4 + 24 * MAX_ACK_RESULTS + 2 ≤ buf.length

instance (env : Env) (buf : Bytes) : Decidable (AckFits env buf) := by
  unfold AckFits
  infer_instance

instance (env : Env) (buf : Bytes) : Decidable (AckOverflows env buf) := by
  unfold AckOverflows
  infer_instance

theorem dcerpcBindAckCoder_run (hdir : env.direction = .decode) {ack : BindAckPdu}
    (hnew : ack.results = []) {s : State κ} (hoff : s.offset = 16) (hrun : s.isConformanceRun = false) :
    (AckFits env s.buf → ∃ ack' t, (dcerpcBindAckCoder env ack).run s = .done ack' t
      ∧ ack'.numResults = ackCount env s.buf ∧ ack'.results = ackResults env s.buf)
    ∧ (AckOverflows env s.buf → (dcerpcBindAckCoder env ack).run s = .fault .write)
    ∧ (¬ AckFits env s.buf → ¬ AckOverflows env s.buf →
      ∃ t, (dcerpcBindAckCoder env ack).run s = .fail t) := by
  have hle : 26 ≤ ackStart env s.buf := (Nat.le_add_right _ _).trans (le_alignUp (by decide) _)
  have hdvd : 4 ∣ ackStart env s.buf := dvd_alignUp _ _
  have hxmit := @ndrUint16Coder_reads κ s.buf 16 env hdir ack.maxXmitFrag
    (by decide)
  have hrecv := @ndrUint16Coder_reads κ s.buf 18 env hdir ack.maxRecvFrag
    (by decide)
  have hgroup := @ndrUint32Coder_reads κ s.buf 20 env hdir ack.assocGroupId
    (by decide)
  have haddr := @ndrUint16Coder_reads κ s.buf 24 env hdir 0 (by decide)
  by_cases hhead : 26 ≤ s.buf.length
  swap
  · refine ⟨fun h => ?_, fun h => ?_, fun _ _ => ?_⟩
    · have := h.1
      omega
    · have := h.2
      omega
    · apply hxmit.needs_bind (l := 8) (hrecv.needs_bind (l := 6) (hgroup.needs_bind (l := 2)
        (haddr.needs _))) s rfl hoff hrun (by omega)
  rw [dcerpcBindAckCoder, hxmit.run_bind rfl hoff hrun (by omega),
    hrecv.run_bind (s := { s with offset := 18 }) rfl rfl hrun (by omega),
    hgroup.run_bind (s := { s with offset := 20 }) rfl rfl hrun (by omega),
    haddr.run_bind (s := { s with offset := 24 }) rfl rfl hrun (by omega), Run.modify_bind]
  dsimp only
  rw [← ackStart]
  have hcount := @ndrUint8Coder_reads κ s.buf (ackStart env s.buf) env hdir
    ack.numResults
  by_cases hlen : ackStart env s.buf < s.buf.length
  swap
  · refine ⟨fun h => absurd h.1 hlen, fun h => ?_, fun _ _ => ?_⟩
    · have := h.2
      omega
    · exact hcount.needs _ _ rfl rfl hrun (by omega)
  rw [hcount.run_bind (s := { s with offset := ackStart env s.buf }) rfl rfl hrun hlen, skip,
    Run.modify_bind]
  have hstart : ackStart env s.buf + 1 + 3 = ackStart env s.buf + 4 := rfl
  obtain ⟨hdone, hwrite, hfail⟩ := ackResultsCoder_run (κ := κ) hdir (n := ackCount env s.buf)
    (i := 0) (by decide)
    (s := { s with offset := ackStart env s.buf + 1 + 3 }) (by dsimp only; omega) hrun
  simp only [Nat.zero_add, Nat.sub_zero, hstart] at hdone hwrite hfail
  rw [hstart, hnew]
  refine ⟨fun h => ?_, fun h => ?_, fun hfits hover => ?_⟩
  · obtain ⟨-, hroom, hin⟩ := h
    exact ⟨_, _, Run.bind_done (hdone hroom hin), rfl, rfl⟩
  · exact Run.bind_fault (hwrite h.1 h.2)
  · obtain ⟨t, ht⟩ := hfail
      (fun h => hfits ⟨hlen, by omega, .inl h⟩)
      (fun hroom => by
        by_contra hin
        exact hfits ⟨hlen, hroom, .inr (by omega)⟩)
      (fun hroom => by
        by_contra hin
        exact hover ⟨hroom, by omega⟩)
    exact ⟨t, Run.bind_fail ht⟩

end

/-! ## The dispatch -/

section

variable {κ : Type} {env : Env} {buf : Bytes}

theorem dcerpcPduCoder_run (hdir : env.direction = .decode) (coder : Option (Env → Ndr κ Unit))
    (pdu : Pdu) (s : State κ) (h : 16 ≤ buf.length) :
    (dcerpcPduCoder env coder pdu).run (s.rewind buf) =
      match bodyOf (octet buf 2) with
      | none => .fail { s.rewind buf with offset := 16 }
      | some body =>
        (bodyCoder (env.withDrep (octet buf 4)) coder { pdu with hdr := headerOf env true buf }
          body).run { s.rewind buf with offset := 16 } := by
  have hhdr := dcerpcHeaderCoder_reads (κ := κ) hdir true pdu.hdr buf
  rw [dcerpcPduCoder, hhdr.run_bind rfl rfl rfl h]
  have hptype : (headerOf env true buf).ptype = octet buf 2 := rfl
  rw [hptype]
  cases bodyOf (octet buf 2) with
  | none => rfl
  | some body => rfl

theorem dcerpcPduCoder_short (hdir : env.direction = .decode) (coder : Option (Env → Ndr κ Unit))
    (pdu : Pdu) (s : State κ) (h : buf.length < 16) :
    ∃ t, (dcerpcPduCoder env coder pdu).run (s.rewind buf) = .fail t :=
  (dcerpcHeaderCoder_reads (κ := κ) hdir true pdu.hdr buf).needs _ _ rfl rfl rfl h

theorem startedBody_eq (hdir : env.direction = .decode) (pdu : Pdu) (s : State κ) :
    startedBody env pdu (s.rewind buf) = if 16 ≤ buf.length then bodyOf (octet buf 2) else none := by
  obtain ⟨hdone, hfail⟩ := dcerpcHeaderCoder_reads (κ := κ) hdir true pdu.hdr buf (s.rewind buf)
    rfl rfl rfl
  by_cases h : 16 ≤ buf.length
  · rw [startedBody, hdone h, if_pos h]
    rfl
  · obtain ⟨t, ht⟩ := hfail (by omega)
    rw [startedBody, ht, if_neg h]

/-- The coder of a body leaves the header as it is. -/
theorem bodyCoder_hdr {coder : Option (Env → Ndr κ Unit)} {pdu pdu' : Pdu} {body : Body}
    {s t : State κ} (h : (bodyCoder env coder pdu body).run s = .done pdu' t) :
    pdu'.hdr = pdu.hdr := by
  have hpure : ∀ {α : Type} {x : Ndr κ α} {f : α → Pdu}, (∀ a, (f a).hdr = pdu.hdr) →
      (x >>= fun a => pure (f a)).run s = .done pdu' t → pdu'.hdr = pdu.hdr := by
    intro α x f hf hdone
    rw [Run.run_bind] at hdone
    cases hx : x.run s with
    | done a r =>
      rw [hx] at hdone
      cases hdone
      exact hf a
    | fail r =>
      rw [hx] at hdone
      cases hdone
    | fault f =>
      rw [hx] at hdone
      cases hdone
  cases body with
  | bind => exact hpure (f := fun bind => { pdu with bind := bind }) (fun _ => rfl) h
  | bindAck => exact hpure (f := fun bindAck => { pdu with bindAck := bindAck }) (fun _ => rfl) h
  | request => exact hpure (f := fun req => { pdu with req := req }) (fun _ => rfl) h
  | response => exact hpure (f := fun rsp => { pdu with rsp := rsp }) (fun _ => rfl) h

/-! ## The faults of the other bodies -/

theorem ndrUint8sCoder_faults (P : Fault → Prop) (vs : List Nat) :
    Run.FaultsIn (σ := State κ) P (ndrUint8sCoder env vs) := by
  induction vs with
  | nil => exact .pure _
  | cons v vs ih => exact (ndrUintCoder_faults P).bind fun _ => ih.bind fun _ => .pure _

theorem ndrUuidCoder_faults (P : Fault → Prop) (uuid : Uuid) :
    Run.FaultsIn (σ := State κ) P (ndrUuidCoder env uuid) :=
  (ndrUintCoder_faults P).bind fun _ => (ndrUintCoder_faults P).bind fun _ =>
    (ndrUintCoder_faults P).bind fun _ => (ndrUint8sCoder_faults P _).bind fun _ => .pure _

theorem syntaxIdCoder_faults (P : Fault → Prop) (syn : SyntaxId) :
    Run.FaultsIn (σ := State κ) P (syntaxIdCoder env syn) :=
  (ndrUuidCoder_faults P _).bind fun _ => (ndrUintCoder_faults P).bind fun _ =>
    (ndrUintCoder_faults P).bind fun _ => .pure _

theorem transferSyntaxesCoder_faults (n : Nat) (syns : List SyntaxId) :
    Run.FaultsIn (σ := State κ) (· = .null) (transferSyntaxesCoder env n syns) := by
  induction n generalizing syns with
  | zero => exact .pure _
  | succ n ih =>
    cases syns with
    | nil => exact .fault rfl
    | cons syn syns =>
      exact (syntaxIdCoder_faults _ syn).bind fun _ => (ih syns).bind fun _ => .pure _

theorem contextElemsCoder_faults (n : Nat) (elems : List PContElem) :
    Run.FaultsIn (σ := State κ) (· = .null) (contextElemsCoder env n elems) := by
  induction n generalizing elems with
  | zero => exact .pure _
  | succ n ih =>
    cases elems with
    | nil => exact .fault rfl
    | cons e elems =>
      exact (ndrUintCoder_faults _).bind fun _ => (ndrUintCoder_faults _).bind fun _ =>
        (Run.FaultsIn.modify _).bind fun _ => (syntaxIdCoder_faults _ _).bind fun _ =>
        (transferSyntaxesCoder_faults _ _).bind fun _ => (ih elems).bind fun _ => .pure _

theorem atOffset_faults {P : Fault → Prop} {α : Type} {coder : Ndr κ α} (o : Nat)
    (h : Run.FaultsIn P coder) : Run.FaultsIn P (atOffset o coder) :=
  Run.FaultsIn.get.bind fun _ => (Run.FaultsIn.modify _).bind fun _ => h.bind fun _ =>
    (Run.FaultsIn.modify _).bind fun _ => .pure _

theorem dcerpcBindCoder_faults (bind : BindPdu) :
    Run.FaultsIn (σ := State κ) (· = .null) (dcerpcBindCoder env bind) :=
  (ndrUintCoder_faults _).bind fun _ => (ndrUintCoder_faults _).bind fun _ =>
    (ndrUintCoder_faults _).bind fun _ => (ndrUintCoder_faults _).bind fun _ =>
    (Run.FaultsIn.modify _).bind fun _ => (contextElemsCoder_faults _ _).bind fun _ =>
    Run.FaultsIn.get.bind fun _ => (atOffset_faults 8 (ndrUintCoder_faults _)).bind fun _ => .pure _

theorem dcerpcRequestCoder_faults (P : Fault → Prop) (req : RequestPdu) :
    Run.FaultsIn (σ := State κ) P (dcerpcRequestCoder env req) :=
  (ndrUintCoder_faults P).bind fun _ => (ndrUintCoder_faults P).bind fun _ =>
    (ndrUintCoder_faults P).bind fun _ => .pure _

/-- The coder of a response has the faults of the coder of its stub, which may be missing. -/
theorem dcerpcResponseCoder_faults {P : Fault → Prop} {coder : Option (Ndr κ Unit)}
    (hnull : coder = none → P .null) (hcoder : ∀ c, coder = some c → Run.FaultsIn P c)
    (rsp : ResponsePdu) : Run.FaultsIn P (dcerpcResponseCoder env coder rsp) := by
  refine (ndrUintCoder_faults _).bind fun allocHint => ?_
  split
  · exact .fail
  refine (ndrUintCoder_faults _).bind fun _ => (ndrUintCoder_faults _).bind fun _ =>
    (Run.FaultsIn.modify _).bind fun _ => (Run.FaultsIn.modify _).bind fun _ => ?_
  have hstub : Run.FaultsIn P (stubCoder coder) := by
    cases coder with
    | none => exact .fault (hnull rfl)
    | some coder => exact hcoder coder rfl
  exact hstub.bind fun _ => (Run.FaultsIn.modify _).bind fun _ => .pure _

/-- A body other than an acknowledgement uses no array of the PDU. -/
theorem bodyCoder_faults {body : Body} (hbody : body ≠ .bindAck) (pdu : Pdu) :
    Run.FaultsIn (σ := State κ) (· = .null) (bodyCoder env none pdu body) := by
  cases body with
  | bind => exact (dcerpcBindCoder_faults _).bind fun _ => .pure _
  | bindAck => exact absurd rfl hbody
  | request => exact (dcerpcRequestCoder_faults _ _).bind fun _ => .pure _
  | response =>
    have hrsp := @dcerpcResponseCoder_faults κ env (· = .null) none
      (fun _ => rfl) (fun _ h => nomatch h) pdu.rsp
    exact hrsp.bind fun _ => .pure _

end

/-! ## The bound -/

/-- `SMB2_STATUS_END_OF_FILE`, which `nterror_to_errno` takes for no error. -/
def STATUS_END_OF_FILE : Nat := 0xC0000011

theorem nterrorToErrno_eq_zero {status : Nat} :
    nterrorToErrno status = 0 ↔ status = 0 ∨ status = STATUS_END_OF_FILE := by
  have hcases : ∀ c ∈ errnoCases, c.1 ≠ 0 := by decide
  rw [nterrorToErrno, STATUS_END_OF_FILE]
  by_cases h : status = 0 ∨ status = 0xC0000011
  · rw [if_pos h]
    exact iff_of_true rfl h
  · rw [if_neg h]
    refine iff_of_false ?_ h
    split
    next c hc => exact hcases c (List.mem_of_find?_eq_some hc)
    next => decide

/-- The callbacks and the faults stand behind the coders that are started. -/
theorem mem_started_append {started : Option Body} {e : Event}
    (he : ∀ body, e ≠ .started body) (events : List Event) :
    e ∈ started.toList.map .started ++ events ↔ e ∈ events := by
  rw [List.mem_append, or_iff_right]
  intro h
  obtain ⟨body, -, hbody⟩ := List.mem_map.mp h
  exact he body hbody.symm

section

variable {env : Env} {dce : Context} {status : Nat} {output : Bytes}

/-- The byte order of a reply to a bind. -/
def replyOrder (dce : Context) (output : Bytes) : Env :=
  (⟨dce.tctxId, .decode, false⟩ : Env).withDrep (octet output 4)

/-- The reply to a bind is an acknowledgement. -/
def IsAck (status : Nat) (output : Bytes) : Prop :=
  status = 0 ∧ 16 ≤ output.length ∧ octet output 2 = PDU_TYPE_BIND_ACK

/-- The results are written in their array, an acknowledgement that does not fit is rejected, and
the context of a bind that succeeds was offered, and its result is an acceptance. -/
structure AckIsBounded (dce : Context) (status : Nat) (output : Bytes) : Prop where
  inside : .faulted .write ∉ (smb2BindCb dce status output).1
  rejects : IsAck status output → ¬ AckFits (replyOrder dce output) output →
    (smb2BindCb dce status output).1 = [.started .bindAck, .called (-EINVAL)]
  selects : .called 0 ∈ (smb2BindCb dce status output).1 →
    ∃ (p : Nat) (elem : PContElem) (pdu : Pdu) (r : ContextResult),
      (offeredContexts dce)[p]? = some elem ∧ elem.pContId = (smb2BindCb dce status output).2
        ∧ .decoded pdu ∈ (smb2BindCb dce status output).1 ∧ pdu.bindAck.results[p]? = some r
        ∧ r.ackResult = ACK_RESULT_ACCEPTANCE

theorem bodyOf_eq_bindAck {ptype : Nat} : bodyOf ptype = some .bindAck ↔ ptype = PDU_TYPE_BIND_ACK := by
  rw [bodyOf]
  by_cases hbind : ptype = PDU_TYPE_BIND
  · simp [hbind, PDU_TYPE_BIND, PDU_TYPE_BIND_ACK]
  by_cases hack : ptype = PDU_TYPE_BIND_ACK
  · simp [hack, PDU_TYPE_BIND, PDU_TYPE_BIND_ACK]
  rw [if_neg hbind, if_neg hack]
  refine iff_of_false ?_ hack
  split
  · exact nofun
  · split
    · exact nofun
    · exact nofun

/-- Without a coder for a stub, a PDU that is no acknowledgement is not taken for one, and nothing
is written behind the results. -/
theorem dcerpcPduCoder_other (hdir : env.direction = .decode) (pdu : Pdu)
    (hno : ¬ (16 ≤ output.length ∧ octet output 2 = PDU_TYPE_BIND_ACK)) :
    match (dcerpcPduCoder env none pdu).run (noStub.rewind output) with
    | .fault f => f = .null
    | .fail _ => True
    | .done pdu' _ => pdu'.hdr.ptype ≠ PDU_TYPE_BIND_ACK := by
  by_cases hlen : 16 ≤ output.length
  swap
  · obtain ⟨t, ht⟩ := @dcerpcPduCoder_short _ _ output hdir none pdu noStub (by omega)
    rw [ht]
    trivial
  have hptype : octet output 2 ≠ PDU_TYPE_BIND_ACK := fun h => hno ⟨hlen, h⟩
  rw [dcerpcPduCoder_run hdir none pdu noStub hlen]
  cases hbody : bodyOf (octet output 2) with
  | none => trivial
  | some body =>
    have hack : body ≠ .bindAck := by
      rintro rfl
      exact hptype (bodyOf_eq_bindAck.mp hbody)
    dsimp only
    generalize hrun : (bodyCoder _ _ _ _).run _ = out
    cases out with
    | fault f => exact bodyCoder_faults hack _ _ _ hrun
    | fail t => trivial
    | done pdu' t =>
      change pdu'.hdr.ptype ≠ PDU_TYPE_BIND_ACK
      rw [bodyCoder_hdr hrun]
      exact hptype

/-- What is no acknowledgement is decoded without a write to the results, and is no success. -/
theorem smb2BindCb_other (hno : ¬ IsAck status output) (hstatus : status ≠ STATUS_END_OF_FILE) :
    .faulted .write ∉ (smb2BindCb dce status output).1
      ∧ .called 0 ∉ (smb2BindCb dce status output).1 := by
  rw [smb2BindCb]
  by_cases hzero : status = 0
  · rw [if_neg (by simpa using hzero)]
    dsimp only
    rw [startedEvents, mem_started_append (e := .faulted .write) nofun, mem_started_append (e := .called 0) nofun]
    have hother := @dcerpcPduCoder_other ((bindRequest dce).env dce.tctxId) output
      rfl (bindRequest dce) (fun h => hno ⟨hzero, h⟩)
    generalize (dcerpcPduCoder _ _ _).run _ = out at hother
    cases out with
    | fault f =>
      cases hother
      simp [bindReply]
    | fail t =>
      rw [bindReply, freeOutput]
      split
      · simp
      · simp [EINVAL]
    | done pdu t =>
      rw [bindReply, bindDecoded, if_pos hother, freeOutput]
      split
      · simp
      · simp [EINVAL]
  · have herrno : nterrorToErrno status ≠ 0 := by
      rw [ne_eq, nterrorToErrno_eq_zero, not_or]
      exact ⟨hzero, hstatus⟩
    rw [if_pos hzero]
    constructor
    · simp
    · simpa [eq_comm] using herrno

/-- An acknowledgement that fits. -/
theorem smb2BindCb_fits (hack : IsAck status output)
    (hfits : AckFits (replyOrder dce output) output) :
    ∃ pdu : Pdu, smb2BindCb dce status output
        = (.started .bindAck :: .decoded pdu :: (bindDecoded dce pdu).1, (bindDecoded dce pdu).2)
      ∧ pdu.hdr.ptype = PDU_TYPE_BIND_ACK
      ∧ pdu.bindAck.numResults = ackCount (replyOrder dce output) output
      ∧ pdu.bindAck.results = ackResults (replyOrder dce output) output := by
  obtain ⟨hstatus, hlen, hptype⟩ := hack
  have hsome : output ≠ [] := by
    rintro rfl
    cases hlen
  obtain ⟨hdone, -, -⟩ := @dcerpcBindAckCoder_run _ (replyOrder dce output) rfl {} rfl
    { noStub.rewind output with offset := 16 } rfl rfl
  obtain ⟨ack, t, hrun, hcount, hresults⟩ := hdone hfits
  refine ⟨{ bindRequest dce with
    hdr := headerOf ((bindRequest dce).env dce.tctxId) true output
    bindAck := ack }, ?_, hptype, hcount, hresults⟩
  rw [smb2BindCb, if_neg (by simpa using hstatus)]
  dsimp only
  rw [startedEvents, startedBody_eq rfl, if_pos hlen, dcerpcPduCoder_run rfl _ _ _ hlen, hptype,
    bodyOf_eq_bindAck.mpr rfl]
  have hbody : (bodyCoder (((bindRequest dce).env dce.tctxId).withDrep (octet output 4)) none
      { bindRequest dce with hdr := headerOf ((bindRequest dce).env dce.tctxId) true output }
      .bindAck).run { noStub.rewind output with offset := 16 } = _ := Run.bind_done hrun
  dsimp only
  rw [hbody, Run.run_pure, bindReply, freeOutput, if_neg hsome]
  rfl

/-- An acknowledgement that does not fit is rejected, or the result behind the last one is
written. -/
theorem smb2BindCb_unfit (hack : IsAck status output)
    (hfits : ¬ AckFits (replyOrder dce output) output) :
    (smb2BindCb dce status output).1 = [.started .bindAck,
      if AckOverflows (replyOrder dce output) output then .faulted .write
      else .called (-EINVAL)] := by
  obtain ⟨hstatus, hlen, hptype⟩ := hack
  have hsome : output ≠ [] := by
    rintro rfl
    cases hlen
  obtain ⟨-, hwrite, hfail⟩ := @dcerpcBindAckCoder_run _ (replyOrder dce output) rfl {}
    rfl { noStub.rewind output with offset := 16 } rfl rfl
  rw [smb2BindCb, if_neg (by simpa using hstatus)]
  dsimp only
  rw [startedEvents, startedBody_eq rfl, if_pos hlen, dcerpcPduCoder_run rfl _ _ _ hlen, hptype,
    bodyOf_eq_bindAck.mpr rfl]
  dsimp only
  by_cases hover : AckOverflows (replyOrder dce output) output
  · have hbody : (bodyCoder (((bindRequest dce).env dce.tctxId).withDrep (octet output 4)) none
        { bindRequest dce with hdr := headerOf ((bindRequest dce).env dce.tctxId) true output }
        .bindAck).run { noStub.rewind output with offset := 16 } = _ := Run.bind_fault (hwrite hover)
    rw [hbody, if_pos hover]
    rfl
  · obtain ⟨t, ht⟩ := hfail hfits hover
    have hbody : (bodyCoder (((bindRequest dce).env dce.tctxId).withDrep (octet output 4)) none
        { bindRequest dce with hdr := headerOf ((bindRequest dce).env dce.tctxId) true output }
        .bindAck).run { noStub.rewind output with offset := 16 } = _ := Run.bind_fail ht
    rw [hbody, if_neg hover, bindReply, freeOutput, if_neg hsome]
    rfl

theorem not_fits_of_overflows {env : Env} (h : AckOverflows env output) : ¬ AckFits env output := by
  rintro ⟨-, hroom, -⟩
  exact absurd h.1 (by omega)

/-- The first acceptance of an acknowledgement is among the results that were asked for. -/
def AcceptsOffered (dce : Context) (output : Bytes) : Prop :=
  ∀ i, firstAccepted (ackResults (replyOrder dce output) output) = some i →
    i < (offeredContexts dce).length

/-- The context that is selected for an acceptance was offered in its position. -/
theorem offered_selected {i : Nat} {results : List ContextResult}
    (hi : firstAccepted results = some i) :
    (∃ (p : Nat) (elem : PContElem) (r : ContextResult), (offeredContexts dce)[p]? = some elem
        ∧ elem.pContId = dce.ndr.selected i ∧ results[p]? = some r
        ∧ r.ackResult = ACK_RESULT_ACCEPTANCE)
      ↔ i < (offeredContexts dce).length := by
  obtain ⟨hlt, hr, hbefore⟩ := List.findIdx?_eq_some_iff_getElem.mp hi
  have hr : results[i].ackResult = ACK_RESULT_ACCEPTANCE := by simpa using hr
  have hfirst : ∀ (p : Nat) (r : ContextResult), results[p]? = some r →
      r.ackResult = ACK_RESULT_ACCEPTANCE → i ≤ p := by
    intro p r hp hacc
    by_contra hlt'
    obtain ⟨hp', rfl⟩ := List.getElem?_eq_some_iff.mp hp
    have := hbefore p (by omega)
    simp [hacc] at this
  have hresult : results[i]? = some results[i] := List.getElem?_eq_getElem hlt
  cases hndr : dce.ndr with
  | ndr3264 =>
    have hoffered : offeredContexts dce
        = [⟨0, 1, dce.syn, [ndr32Syntax]⟩, ⟨1, 1, dce.syn, [ndr64Syntax]⟩] := by
      rw [offeredContexts, hndr]
      rfl
    rw [hoffered, Transfer.selected]
    constructor
    · rintro ⟨p, elem, r, helem, hid, -, -⟩
      rcases p with _ | _ | p
      · cases helem
        rw [← hid]
        exact Nat.zero_lt_succ _
      · cases helem
        rw [← hid]
        exact Nat.lt_succ_self _
      · cases helem
    · intro hlt
      rcases i with _ | _ | i
      · exact ⟨0, _, _, rfl, rfl, hresult, hr⟩
      · exact ⟨1, _, _, rfl, rfl, hresult, hr⟩
      · simp at hlt
  | ndr32 =>
    have hoffered : offeredContexts dce = [⟨0, 1, dce.syn, [ndr32Syntax]⟩] := by
      rw [offeredContexts, hndr]
      rfl
    rw [hoffered, Transfer.selected]
    constructor
    · rintro ⟨p, elem, r, helem, -, hp, hacc⟩
      rcases p with _ | p
      · exact Nat.lt_succ_of_le (hfirst 0 r hp hacc)
      · cases helem
    · intro hlt
      obtain rfl : i = 0 := by simpa using hlt
      exact ⟨0, _, _, rfl, rfl, hresult, hr⟩
  | ndr64 =>
    have hoffered : offeredContexts dce = [⟨1, 1, dce.syn, [ndr64Syntax]⟩] := by
      rw [offeredContexts, hndr]
      rfl
    rw [hoffered, Transfer.selected]
    constructor
    · rintro ⟨p, elem, r, helem, -, hp, hacc⟩
      rcases p with _ | p
      · exact Nat.lt_succ_of_le (hfirst 0 r hp hacc)
      · cases helem
    · intro hlt
      obtain rfl : i = 0 := by simpa using hlt
      exact ⟨0, _, _, rfl, rfl, hresult, hr⟩

/-- What `smb2_bind_cb` makes of an acknowledgement with these results. -/
theorem bindDecoded_eq {pdu : Pdu} (hptype : pdu.hdr.ptype = PDU_TYPE_BIND_ACK)
    (hcount : pdu.bindAck.numResults = pdu.bindAck.results.length) :
    bindDecoded dce pdu = match firstAccepted pdu.bindAck.results with
      | none => ([.called (-EINVAL)], dce.tctxId)
      | some i => ([.called 0], dce.ndr.selected i) := by
  rw [bindDecoded, if_neg (by simpa using hptype), hcount]
  split
  next h =>
    have hnil : pdu.bindAck.results = [] := by
      rw [← List.length_eq_zero_iff]
      omega
    rw [hnil]
    rfl
  next => rfl

/-- **An acknowledgement is decoded inside the array of results, and what it selects was offered
and accepted**, if and only if no fifth result is written, and the first acceptance is one of
those that were asked for. -/
theorem ack_is_bounded_iff (dce : Context) (status : Nat) (output : Bytes) :
    AckIsBounded dce status output ↔ status ≠ STATUS_END_OF_FILE ∧ (IsAck status output →
      ¬ AckOverflows (replyOrder dce output) output
        ∧ (AckFits (replyOrder dce output) output → AcceptsOffered dce output)) := by
  by_cases heof : status = STATUS_END_OF_FILE
  · -- the callback is told of success, and nothing has been decoded
    refine iff_of_false (fun h => ?_) fun h => h.1 heof
    subst heof
    obtain ⟨p, elem, pdu, r, -, -, hdecoded, -⟩ := h.selects (List.mem_singleton.mpr rfl)
    have := List.mem_singleton.mp hdecoded
    cases this
  rw [and_iff_right heof]
  by_cases hack : IsAck status output
  swap
  · obtain ⟨hwrite, hcalled⟩ := @smb2BindCb_other dce _ _ hack heof
    exact iff_of_true ⟨hwrite, fun h => absurd h hack, fun h => absurd h hcalled⟩
      fun h => absurd h hack
  have hgo : (IsAck status output → ¬ AckOverflows (replyOrder dce output) output
      ∧ (AckFits (replyOrder dce output) output → AcceptsOffered dce output))
      ↔ ¬ AckOverflows (replyOrder dce output) output
        ∧ (AckFits (replyOrder dce output) output → AcceptsOffered dce output) :=
    ⟨fun h => h hack, fun h _ => h⟩
  rw [hgo]
  by_cases hfits : AckFits (replyOrder dce output) output
  swap
  · have hevents := smb2BindCb_unfit hack hfits
    by_cases hover : AckOverflows (replyOrder dce output) output
    · rw [if_pos hover] at hevents
      refine iff_of_false (fun h => h.inside ?_) fun h => h.1 hover
      rw [hevents]
      simp
    · rw [if_neg hover] at hevents
      refine iff_of_true ⟨?_, fun _ _ => hevents, fun h => ?_⟩ ⟨hover, fun h => absurd h hfits⟩
      · rw [hevents]
        simp
      · rw [hevents] at h
        simp [EINVAL] at h
  have hover : ¬ AckOverflows (replyOrder dce output) output :=
    fun h => not_fits_of_overflows h hfits
  obtain ⟨pdu, hevents, hptype, hcount, hresults⟩ := @smb2BindCb_fits dce _ _ hack hfits
  have hlength : pdu.bindAck.numResults = pdu.bindAck.results.length := by
    rw [hcount, hresults, ackResults, List.length_map, List.length_range]
  rw [bindDecoded_eq hptype hlength, hresults] at hevents
  have haccepts : (¬ AckOverflows (replyOrder dce output) output
      ∧ (AckFits (replyOrder dce output) output → AcceptsOffered dce output))
      ↔ AcceptsOffered dce output := ⟨fun h => h.2 hfits, fun h => ⟨hover, fun _ => h⟩⟩
  rw [haccepts]
  cases hfirst : firstAccepted (ackResults (replyOrder dce output) output) with
  | none =>
    rw [hfirst] at hevents
    refine iff_of_true ⟨?_, fun _ h => absurd hfits h, fun h => ?_⟩ fun i hi => ?_
    · rw [hevents]
      simp
    · rw [hevents] at h
      simp [EINVAL] at h
    · rw [hfirst] at hi
      cases hi
  | some i =>
    rw [hfirst] at hevents
    have hoffered := @offered_selected dce _ _ hfirst
    have hall : AcceptsOffered dce output ↔ i < (offeredContexts dce).length := by
      rw [AcceptsOffered, hfirst]
      simp
    rw [hall, ← hoffered]
    constructor
    · intro h
      obtain ⟨p, elem, pdu', r, helem, hid, hdecoded, hr, hacc⟩ := h.selects (by
        rw [hevents]
        simp)
      rw [hevents] at hid hdecoded
      obtain rfl : pdu' = pdu := by simpa using hdecoded
      rw [hresults] at hr
      exact ⟨p, elem, r, helem, hid, hr, hacc⟩
    · rintro ⟨p, elem, r, helem, hid, hr, hacc⟩
      refine ⟨?_, fun _ h => absurd hfits h, fun _ => ⟨p, elem, pdu, r, helem, ?_, ?_, ?_, hacc⟩⟩
      · rw [hevents]
        simp
      · rw [hevents]
        exact hid
      · rw [hevents]
        simp
      · rw [hresults]
        exact hr

end

/-! ## Five results -/

/-- The context of a new connection. -/
def newContext (ndr : Transfer) : Context := ⟨ndr, ndr32Syntax, 0, DCERPC_DR_LITTLE_ENDIAN, 0⟩

/-- A little-endian acknowledgement with this number of results, and these octets behind it. -/
def ackReply (numResults : UInt8) (results : Bytes) : Bytes :=
  [5, 0, 12, 3, 0x10, 0, 0, 0] ++ zeros 20 ++ [numResults, 0, 0, 0] ++ results

/-- The results of the PDU that an event says has been decoded. -/
def Event.ackResults : Event → Option (List Nat)
  | .decoded pdu => some (pdu.bindAck.results.map ContextResult.ackResult)
  | _ => none

/-- Five results, of which the last one is cut off: its first field is written behind the array.
The second result alone is accepted: a client that has offered one context takes that one.  And a
bind that ends with `SMB2_STATUS_END_OF_FILE` has succeeded. -/
theorem ack_is_not_bounded :
    ¬ AckIsBounded (newContext .ndr32) 0 (ackReply 5 (zeros 98))
    ∧ ¬ AckIsBounded (newContext .ndr32) 0 (ackReply 2 ([2, 0] ++ zeros 46))
    ∧ ¬ AckIsBounded (newContext .ndr32) STATUS_END_OF_FILE [] := by
  refine ⟨fun h => h.inside ?_, fun h => ?_, fun h => ?_⟩
  · have hevents : (smb2BindCb (newContext .ndr32) 0 (ackReply 5 (zeros 98))).1
        = [.started .bindAck, .faulted .write] := by
      decide +kernel
    rw [hevents]
    simp
  · have hcalled : .called 0 ∈ (smb2BindCb (newContext .ndr32) 0
        (ackReply 2 ([2, 0] ++ zeros 46))).1 := by
      decide +kernel
    have hresults : (smb2BindCb (newContext .ndr32) 0
        (ackReply 2 ([2, 0] ++ zeros 46))).1.filterMap Event.ackResults = [[2, 0]] := by
      decide +kernel
    obtain ⟨p, elem, pdu, r, helem, -, hdecoded, hr, hacc⟩ := h.selects hcalled
    have hmem := List.mem_filterMap.mpr ⟨_, hdecoded, (rfl : Event.ackResults _ = some _)⟩
    rw [hresults, List.mem_singleton] at hmem
    rcases p with _ | p
    · have hzero : (pdu.bindAck.results.map ContextResult.ackResult)[0]? = some r.ackResult := by
        rw [List.getElem?_map, hr]
        rfl
      rw [hmem, hacc] at hzero
      cases hzero
    · cases helem
  · obtain ⟨p, elem, pdu, r, -, -, hdecoded, -⟩ := h.selects (List.mem_singleton.mpr rfl)
    have := List.mem_singleton.mp hdecoded
    cases this

end Libsmb2.Dcerpc
