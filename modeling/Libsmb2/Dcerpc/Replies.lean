import Libsmb2.Dcerpc.Binding
import Libsmb2.Dcerpc.Fragments

/-!
# Replies

`dcerpc_call_cb`, which puts the fragments of a reply together and decodes it, beside
`smb2_bind_cb`.  Both leave it to the type in the header which coder is run, and look at the type
when all has been decoded.

* `dcerpcResponseCoder_fault_iff` — the coder of a stub behind the header of a response;
* `replies_decoded_as_asked_iff` — which replies are decoded as what was asked for.
-/

set_option autoImplicit false

namespace Libsmb2.Dcerpc

open Util

/-! ## The callback of a call -/

/-- A call that waits for its reply: the PDU, the coder of the reply with the size that it is
decoded to, and the state that the request has left. -/
structure Call (κ : Type) where
  pdu : Pdu
  coder : Env → Addr → Ndr κ Unit
  decodeSize : Nat
  state : State κ

section

variable {κ : Type}

/-- What follows `dcerpc_pdu_coder` in `dcerpc_call_cb`. -/
def callReply (output : Bytes) : Util.Outcome (State κ) Fault Pdu → List Event
  | .fault f => [.faulted f]
  | .fail _ => freeOutput output [.called (-EINVAL)]
  | .done pdu _ => .decoded pdu :: freeOutput output
      (if pdu.hdr.ptype ≠ PDU_TYPE_RESPONSE then [.called (-EINVAL)] else [.called 0])

/-- The state with the payload of a reply. -/
def Call.reply (call : Call κ) : State κ :=
  { call.state with heap := call.state.heap ++ [Block.fresh call.decodeSize] }

/-- The coder of the payload. -/
def Call.stub (call : Call κ) (env : Env) : Ndr κ Unit :=
  call.coder env ⟨call.state.heap.length, 0⟩

/-- `dcerpc_call_cb`: its events. -/
def dcerpcCallCb (call : Call κ) (tctxId status : Nat) (output : Bytes) : List Event :=
  let env := call.pdu.env tctxId
  if status ≠ 0 then [.called (-nterrorToErrno status)]
  else if ¬ Allocates call.decodeSize then [.called (-ENOMEM)]
  else
    match dceUnfragmentIoctl env output with
    | .error f => [.faulted f]
    | .ok (buf, len) =>
      let s := call.reply.rewind (buf.take len)
      startedEvents env call.pdu s
        ++ callReply output ((dcerpcPduCoder env (some call.stub) call.pdu).run s)

end

/-! ## What was asked for -/

def Event.isCalled : Event → Bool
  | .called _ => true
  | _ => false

/-- No coder of another body is started, a success is a body that has been decoded, and the caller
is called once. -/
structure DecodedAsAsked (body : Body) (events : List Event) : Prop where
  only : ∀ b, .started b ∈ events → b = body
  complete : .called 0 ∈ events → ∃ pdu : Pdu, .decoded pdu ∈ events ∧ bodyOf pdu.hdr.ptype = some body
  once : events.countP Event.isCalled = 1

/-- What is put together from the fragments of a reply. -/
def received (env : Env) (output : Bytes) : Bytes :=
  match dceUnfragmentIoctl env output with
  | .error _ => output
  | .ok (buf, len) => buf.take len

/-- The type in a header names no other body. -/
def NamesOnly (body : Body) (reply : Bytes) : Prop :=
  16 ≤ reply.length → ∀ b, bodyOf (octet reply 2) = some b → b = body

/-- The replies to a bind that are decoded as one. -/
def BindReplyFits (dce : Context) (status : Nat) (output : Bytes) : Prop :=
  status ≠ STATUS_END_OF_FILE ∧ (status = 0 →
    output ≠ [] ∧ NamesOnly .bindAck output
      ∧ (IsAck status output → ¬ AckOverflows (replyOrder dce output) output))

section

variable {κ : Type}

/-- The coder of the stub does nothing that no function may do, if it is come to. -/
def StubRuns (call : Call κ) (tctxId : Nat) (reply : Bytes) : Prop :=
  let env := (call.pdu.env tctxId).withDrep (octet reply 4)
  octet reply 2 = PDU_TYPE_RESPONSE → 23 ≤ reply.length →
    env.number (slice reply 16 4) ≤ 16 * 1024 * 1024 →
    ∀ f, (call.stub env).run { call.reply.rewind reply with offset := 24 } ≠ .fault f

/-- The replies to a call that are decoded as one. -/
def CallReplyFits (call : Call κ) (tctxId status : Nat) (output : Bytes) : Prop :=
  status ≠ STATUS_END_OF_FILE ∧ (status = 0 → Allocates call.decodeSize →
    output ≠ []
      ∧ FragmentsInside tctxId (call.pdu.env tctxId).littleEndian output
      ∧ NamesOnly .response (received (call.pdu.env tctxId) output)
      ∧ StubRuns call tctxId (received (call.pdu.env tctxId) output))

/-! ## The coder of a stub -/

/-- The coder of a response faults if and only if it comes to the coder of the stub, and that
does. -/
theorem dcerpcResponseCoder_fault_iff {env : Env} (hdir : env.direction = .decode)
    (coder : Ndr κ Unit) (rsp : ResponsePdu) {s : State κ} (hoff : s.offset = 16)
    (htop : s.topLevel = true) (hrun : s.isConformanceRun = false) (f : Fault) :
    (dcerpcResponseCoder env (some coder) rsp).run s = .fault f ↔
      23 ≤ s.buf.length ∧ env.number (slice s.buf 16 4) ≤ 16 * 1024 * 1024
        ∧ coder.run { s with offset := 24 } = .fault f := by
  have hhint := @ndrUint32Coder_reads κ s.buf 16 env hdir rsp.allocHint
    (by decide)
  have hcontext := @ndrUint16Coder_reads κ s.buf 20 env hdir rsp.contextId
    (by decide)
  have hcancel := @ndrUint8Coder_reads κ s.buf 22 env hdir rsp.cancelCount
  rw [dcerpcResponseCoder]
  by_cases hfour : 20 ≤ s.buf.length
  swap
  · obtain ⟨t, ht⟩ := hhint.needs _ s rfl hoff hrun (by omega)
    rw [ht]
    exact iff_of_false (by rintro ⟨⟩) fun h => absurd h.1 (by omega)
  rw [hhint.run_bind rfl hoff hrun (by omega)]
  by_cases hmax : 16 * 1024 * 1024 < env.number (slice s.buf 16 4)
  · rw [if_pos hmax, Run.run_fail]
    exact iff_of_false (by rintro ⟨⟩) fun h => absurd h.2.1 (by omega)
  rw [if_neg hmax]
  by_cases hsix : 22 ≤ s.buf.length
  swap
  · obtain ⟨t, ht⟩ := hcontext.needs _ { s with offset := 20 } rfl rfl hrun (by omega)
    rw [ht]
    exact iff_of_false (by rintro ⟨⟩) fun h => absurd h.1 (by omega)
  rw [hcontext.run_bind (s := { s with offset := 20 }) rfl rfl hrun (by omega)]
  by_cases hseven : 23 ≤ s.buf.length
  swap
  · obtain ⟨t, ht⟩ := hcancel.needs _ { s with offset := 22 } rfl rfl hrun (by omega)
    rw [ht]
    exact iff_of_false (by rintro ⟨⟩) fun h => absurd h.1 hseven
  rw [hcancel.run_bind (s := { s with offset := 22 }) rfl rfl hrun (by omega), skip,
    Run.modify_bind, setTopLevel, Run.modify_bind, stubCoder, Run.run_bind]
  have hstate : ({ s with offset := 24, topLevel := true } : State κ) = { s with offset := 24 } := by
    rw [← htop]
  dsimp only
  rw [hstate, and_iff_right hseven, and_iff_right (by omega)]
  cases coder.run { s with offset := 24 } with
  | done a t => exact iff_of_false (by rintro ⟨⟩) (by rintro ⟨⟩)
  | fail t => exact iff_of_false (by rintro ⟨⟩) (by rintro ⟨⟩)
  | fault f' => simp only [Run.andThen_fault, Util.Outcome.fault.injEq]

/-- The coder of a response does nothing that no function may do if the coder of the stub does
not. -/
theorem dcerpcResponseCoder_reaches {env : Env} (hdir : env.direction = .decode)
    (coder : Ndr κ Unit) (rsp : ResponsePdu) {s : State κ} (hoff : s.offset = 16)
    (htop : s.topLevel = true) (hrun : s.isConformanceRun = false) :
    (∀ f, (dcerpcResponseCoder env (some coder) rsp).run s ≠ .fault f) ↔
      (23 ≤ s.buf.length → env.number (slice s.buf 16 4) ≤ 16 * 1024 * 1024 →
        ∀ f, coder.run { s with offset := 24 } ≠ .fault f) := by
  simp only [ne_eq, dcerpcResponseCoder_fault_iff hdir coder rsp hoff htop hrun]
  constructor
  · intro h hlen hhint f hfault
    exact h f ⟨hlen, hhint, hfault⟩
  · rintro h f ⟨hlen, hhint, hfault⟩
    exact h hlen hhint f hfault

end

/-! ## Events -/

section

variable {body : Body}

theorem not_decodedAsAsked_fault (f : Fault) : ¬ DecodedAsAsked body [.faulted f] := by
  intro h
  exact absurd h.once (by simp [Event.isCalled])

theorem decodedAsAsked_called {e : Int} : DecodedAsAsked body [.called e] ↔ e ≠ 0 := by
  constructor
  · rintro h rfl
    obtain ⟨pdu, hpdu, -⟩ := h.complete (List.mem_singleton.mpr rfl)
    simp at hpdu
  · intro he
    refine ⟨by simp, fun h => ?_, rfl⟩
    simp [eq_comm] at h
    exact absurd h he

theorem decodedAsAsked_decoded {pdu : Pdu} {e : Int} :
    DecodedAsAsked body [.decoded pdu, .called e] ↔ (e = 0 → bodyOf pdu.hdr.ptype = some body) := by
  constructor
  · rintro h rfl
    obtain ⟨pdu', hpdu, hptype⟩ := h.complete (by simp)
    simp only [List.mem_cons, Event.decoded.injEq, reduceCtorEq, List.not_mem_nil, or_false] at hpdu
    rw [← hpdu]
    exact hptype
  · intro h
    refine ⟨by simp, fun he => ⟨pdu, by simp, h ?_⟩, rfl⟩
    simpa [eq_comm] using he

/-- The coder that is started has to be the one that was asked for. -/
theorem decodedAsAsked_started {started : Option Body} {events : List Event}
    (hevents : ∀ b, .started b ∉ events) :
    DecodedAsAsked body (started.toList.map .started ++ events)
      ↔ (∀ b, started = some b → b = body) ∧ DecodedAsAsked body events := by
  have hcalled := @mem_started_append started (.called 0) nofun events
  have hdecoded := fun pdu => @mem_started_append started (.decoded pdu) nofun events
  have hcount : (started.toList.map Event.started ++ events).countP Event.isCalled
      = events.countP Event.isCalled := by
    cases started with
    | none => rfl
    | some b => rfl
  constructor
  · rintro ⟨honly, hcomplete, honce⟩
    refine ⟨?_, fun b hb => absurd hb (hevents b), fun h => ?_, by rwa [hcount] at honce⟩
    · rintro b rfl
      exact honly b (by simp)
    · obtain ⟨pdu, hpdu, hptype⟩ := hcomplete (hcalled.mpr h)
      exact ⟨pdu, (hdecoded pdu).mp hpdu, hptype⟩
  · rintro ⟨hstarted, hasked⟩
    refine ⟨fun b hb => ?_, fun h => ?_, by rw [hcount]; exact hasked.once⟩
    · rcases List.mem_append.mp hb with hb | hb
      · obtain ⟨b', hb', heq⟩ := List.mem_map.mp hb
        cases heq
        exact hstarted b (by simpa using hb')
      · exact absurd hb (hevents b)
    · obtain ⟨pdu, hpdu, hptype⟩ := hasked.complete (hcalled.mp h)
      exact ⟨pdu, (hdecoded pdu).mpr hpdu, hptype⟩

theorem freeOutput_of_ne {output : Bytes} (h : output ≠ []) (events : List Event) :
    freeOutput output events = events := if_neg h

end

/-! ## Binds -/

section

variable {dce : Context} {status : Nat} {output : Bytes}

theorem bindDecoded_called (pdu : Pdu) : ∃ e, (bindDecoded dce pdu).1 = [.called e] := by
  rw [bindDecoded]
  split
  · exact ⟨_, rfl⟩
  split
  · exact ⟨_, rfl⟩
  split
  · exact ⟨_, rfl⟩
  · exact ⟨_, rfl⟩

theorem bind_decoded_as_asked_iff : DecodedAsAsked .bindAck (smb2BindCb dce status output).1
    ↔ BindReplyFits dce status output := by
  by_cases hstatus : status = 0
  swap
  · rw [smb2BindCb, if_pos hstatus, decodedAsAsked_called, neg_ne_zero, ne_eq,
      nterrorToErrno_eq_zero, BindReplyFits]
    simp [hstatus]
  have heof : status ≠ STATUS_END_OF_FILE := by
    rw [hstatus]
    decide
  have hgo : BindReplyFits dce status output ↔ output ≠ [] ∧ NamesOnly .bindAck output
      ∧ (IsAck status output → ¬ AckOverflows (replyOrder dce output) output) :=
    ⟨fun h => h.2 hstatus, fun h => ⟨heof, fun _ => h⟩⟩
  rw [hgo]
  by_cases hack : IsAck status output
  · have hsome : output ≠ [] := by
      rintro rfl
      cases hack.2.1
    have hnames : NamesOnly .bindAck output := by
      intro _ b hb
      rw [bodyOf_eq_bindAck.mpr hack.2.2] at hb
      cases hb
      rfl
    have hstarted : ∀ events, Event.started .bindAck :: events
        = (some Body.bindAck).toList.map Event.started ++ events := fun _ => rfl
    rw [and_iff_right hsome, and_iff_right hnames]
    by_cases hfits : AckFits (replyOrder dce output) output
    · obtain ⟨pdu, hevents, hptype, -, -⟩ := @smb2BindCb_fits dce _ _ hack hfits
      obtain ⟨e, he⟩ := @bindDecoded_called dce pdu
      rw [hevents, he, hstarted, decodedAsAsked_started (by simp), decodedAsAsked_decoded]
      refine iff_of_true ⟨?_, fun _ => bodyOf_eq_bindAck.mpr hptype⟩
        fun _ hover => not_fits_of_overflows hover hfits
      rintro b hb
      cases hb
      rfl
    · rw [smb2BindCb_unfit hack hfits, hstarted]
      by_cases hover : AckOverflows (replyOrder dce output) output
      · rw [if_pos hover, decodedAsAsked_started (by simp)]
        exact iff_of_false (fun h => not_decodedAsAsked_fault _ h.2) fun h => h hack hover
      · rw [if_neg hover, decodedAsAsked_started (by simp), decodedAsAsked_called]
        refine iff_of_true ⟨?_, by decide⟩ fun _ => hover
        rintro b hb
        cases hb
        rfl
  have hnot : (IsAck status output → ¬ AckOverflows (replyOrder dce output) output) ↔ True :=
    iff_true_intro fun h => absurd h hack
  rw [hnot, and_true, smb2BindCb, if_neg (by simpa using hstatus)]
  dsimp only
  rw [startedEvents, startedBody_eq rfl]
  by_cases hlen : 16 ≤ output.length
  · have hsome : output ≠ [] := by
      rintro rfl
      cases hlen
    rw [if_pos hlen, dcerpcPduCoder_run rfl _ _ _ hlen, and_iff_right hsome]
    cases hbody : bodyOf (octet output 2) with
    | none =>
      dsimp only
      rw [bindReply, freeOutput_of_ne hsome, decodedAsAsked_started (by simp),
        decodedAsAsked_called]
      refine iff_of_true ⟨by simp, by decide⟩ fun _ b hb => ?_
      rw [hbody] at hb
      cases hb
    | some b =>
      have hother : b ≠ .bindAck := by
        rintro rfl
        exact hack ⟨hstatus, hlen, bodyOf_eq_bindAck.mp hbody⟩
      refine iff_of_false (fun h => hother (h.only b (by simp))) fun h => hother (h hlen b hbody)
  · obtain ⟨t, ht⟩ := @dcerpcPduCoder_short Empty
      ((bindRequest dce).env dce.tctxId) output rfl none (bindRequest dce) noStub (by omega)
    rw [if_neg hlen, ht, bindReply]
    have hnames : NamesOnly .bindAck output := fun h => absurd h hlen
    rw [and_iff_left hnames]
    by_cases hsome : output = []
    · rw [freeOutput, if_pos hsome, decodedAsAsked_started (by simp)]
      exact iff_of_false (fun h => not_decodedAsAsked_fault _ h.2) fun h => h hsome
    · rw [freeOutput_of_ne hsome, decodedAsAsked_started (by simp), decodedAsAsked_called]
      exact iff_of_true ⟨by simp, by decide⟩ hsome

end

/-! ## Calls -/

section

variable {κ : Type} {call : Call κ} {tctxId status : Nat} {output : Bytes}

theorem bodyOf_eq_response {ptype : Nat} :
    bodyOf ptype = some .response ↔ ptype = PDU_TYPE_RESPONSE := by
  rw [bodyOf]
  by_cases hrsp : ptype = PDU_TYPE_RESPONSE
  · simp [hrsp, PDU_TYPE_RESPONSE, PDU_TYPE_BIND, PDU_TYPE_BIND_ACK, PDU_TYPE_REQUEST]
  rw [if_neg hrsp]
  refine iff_of_false ?_ hrsp
  split
  · simp
  split
  · simp
  split
  · simp
  · simp

/-- What is made of a response, whose stub has to do nothing that no function may do. -/
theorem callReply_response_iff {s : State κ} {env : Env} {pdu : Pdu} (hsome : output ≠ [])
    (hptype : pdu.hdr.ptype = PDU_TYPE_RESPONSE) {coder : Env → Ndr κ Unit} :
    DecodedAsAsked .response (callReply output ((bodyCoder env (some coder) pdu .response).run s))
      ↔ ∀ f, (dcerpcResponseCoder env (some (coder env)) pdu.rsp).run s ≠ .fault f := by
  have hrun : (bodyCoder env (some coder) pdu .response).run s
      = ((dcerpcResponseCoder env (some (coder env)) pdu.rsp).run s).andThen fun rsp t =>
        .done { pdu with rsp := rsp } t := rfl
  rw [hrun]
  cases (dcerpcResponseCoder env (some (coder env)) pdu.rsp).run s with
  | done rsp t =>
    rw [Run.andThen_done, callReply, freeOutput_of_ne hsome, if_neg (by simpa using hptype),
      decodedAsAsked_decoded]
    exact iff_of_true (fun _ => bodyOf_eq_response.mpr hptype) fun f => nofun
  | fail t =>
    rw [Run.andThen_fail, callReply, freeOutput_of_ne hsome, decodedAsAsked_called]
    exact iff_of_true (by decide) fun f => nofun
  | fault f =>
    rw [Run.andThen_fault, callReply]
    exact iff_of_false (not_decodedAsAsked_fault f) fun h => h f rfl

/-- What is put together from a reply is decoded as what was asked for. -/
theorem callReply_iff (reply : Bytes) (hsome : output ≠ []) :
    DecodedAsAsked .response
        (startedEvents (call.pdu.env tctxId) call.pdu (call.reply.rewind reply)
          ++ callReply output ((dcerpcPduCoder (call.pdu.env tctxId) (some call.stub) call.pdu).run
            (call.reply.rewind reply)))
      ↔ NamesOnly .response reply ∧ StubRuns call tctxId reply := by
  rw [startedEvents, startedBody_eq rfl]
  by_cases hlen : 16 ≤ reply.length
  swap
  · obtain ⟨t, ht⟩ := @dcerpcPduCoder_short κ (call.pdu.env tctxId) reply rfl
      (some call.stub) call.pdu call.reply (by omega)
    rw [if_neg hlen, ht, callReply, freeOutput_of_ne hsome, decodedAsAsked_started (by simp),
      decodedAsAsked_called]
    refine iff_of_true ⟨by simp, by decide⟩ ⟨fun h => absurd h hlen, fun _ h => ?_⟩
    omega
  rw [if_pos hlen, dcerpcPduCoder_run rfl _ _ _ hlen]
  cases hbody : bodyOf (octet reply 2) with
  | none =>
    dsimp only
    rw [callReply, freeOutput_of_ne hsome, decodedAsAsked_started (by simp), decodedAsAsked_called]
    refine iff_of_true ⟨by simp, by decide⟩ ⟨fun _ b hb => ?_, fun hptype => ?_⟩
    · rw [hbody] at hb
      cases hb
    · rw [bodyOf_eq_response.mpr hptype] at hbody
      cases hbody
  | some b =>
    by_cases hrsp : b = .response
    · subst hrsp
      have hptype := bodyOf_eq_response.mp hbody
      have hnames : NamesOnly .response reply := by
        intro _ b hb
        rw [hbody] at hb
        cases hb
        rfl
      have hevents : ∀ b, Event.started b ∉ callReply output
          ((bodyCoder ((call.pdu.env tctxId).withDrep (octet reply 4)) (some call.stub)
            { call.pdu with hdr := headerOf (call.pdu.env tctxId) true reply } .response).run
            { call.reply.rewind reply with offset := 16 }) := by
        intro b
        generalize (bodyCoder _ _ _ _).run _ = out
        cases out with
        | done pdu t =>
          rw [callReply, freeOutput_of_ne hsome]
          split
          · simp
          · simp
        | fail t =>
          rw [callReply, freeOutput_of_ne hsome]
          simp
        | fault f => simp [callReply]
      dsimp only
      rw [decodedAsAsked_started hevents, callReply_response_iff hsome (by exact hptype),
        dcerpcResponseCoder_reaches (by rfl) _ _ rfl rfl rfl, and_iff_right hnames,
        and_iff_right (by simp)]
      exact ⟨fun h _ => h, fun h => h hptype⟩
    · exact iff_of_false (fun h => hrsp (h.only b (by simp))) fun h => hrsp (h.1 hlen b hbody)

theorem call_decoded_as_asked_iff : DecodedAsAsked .response (dcerpcCallCb call tctxId status output)
    ↔ CallReplyFits call tctxId status output := by
  rw [dcerpcCallCb, CallReplyFits]
  by_cases hstatus : status = 0
  swap
  · rw [if_pos hstatus, decodedAsAsked_called, neg_ne_zero, ne_eq, nterrorToErrno_eq_zero]
    simp [hstatus]
  have heof : status ≠ STATUS_END_OF_FILE := by
    rw [hstatus]
    decide
  rw [if_neg (by simpa using hstatus), and_iff_right heof]
  by_cases halloc : Allocates call.decodeSize
  swap
  · rw [if_pos halloc, decodedAsAsked_called]
    exact iff_of_true (by decide) fun _ h => absurd h halloc
  rw [if_neg (by simpa using halloc)]
  have hgo : ∀ p : Prop, (status = 0 → Allocates call.decodeSize → p) ↔ p :=
    fun p => ⟨fun h => h hstatus halloc, fun h _ _ => h⟩
  have hinside := @dceUnfragmentIoctl_ok_iff tctxId (call.pdu.env tctxId).littleEndian output
  have henv : replyEnv tctxId (call.pdu.env tctxId).littleEndian = call.pdu.env tctxId := rfl
  rw [henv] at hinside
  rw [hgo, ← hinside, received]
  dsimp only
  cases hunfrag : dceUnfragmentIoctl (call.pdu.env tctxId) output with
  | error f =>
    refine iff_of_false (not_decodedAsAsked_fault f) ?_
    rintro ⟨-, ⟨r, hr⟩, -⟩
    cases hr
  | ok r =>
    obtain ⟨buf, len⟩ := r
    have hok : ∃ r, Except.ok (buf, len) = (Except.ok r : Except Fault (Bytes × Nat)) := ⟨_, rfl⟩
    rw [and_iff_right hok]
    by_cases hsome : output = []
    · -- an output that is empty is left as it is
      subst hsome
      rw [← henv, dceUnfragmentIoctl, decodeHeader_short (by decide)] at hunfrag
      cases hunfrag
      obtain ⟨t, ht⟩ := @dcerpcPduCoder_short κ (call.pdu.env tctxId) [] rfl
        (some call.stub) call.pdu call.reply (by decide)
      have htake : ([] : Bytes).take ([] : Bytes).length = [] := rfl
      dsimp only
      rw [htake, startedEvents, startedBody_eq rfl, ht, callReply, freeOutput, if_pos rfl,
        if_neg (by decide), decodedAsAsked_started (by simp)]
      exact iff_of_false (fun h => not_decodedAsAsked_fault _ h.2) fun h => h.1 rfl
    · rw [and_iff_right hsome]
      exact callReply_iff _ hsome

end

/-- **A reply is decoded as what was asked for**, and the caller is called once, if and only if it
fits: its status is not taken for a success without a reply, it has an output, its fragments lie
inside it, its type names no other body, its results have room, and the coder of the stub does
nothing that no function may do. -/
theorem replies_decoded_as_asked_iff {κ : Type} (dce : Context) (call : Call κ)
    (tctxId status : Nat) (output : Bytes) :
    (DecodedAsAsked .bindAck (smb2BindCb dce status output).1 ↔ BindReplyFits dce status output)
    ∧ (DecodedAsAsked .response (dcerpcCallCb call tctxId status output)
        ↔ CallReplyFits call tctxId status output) := by
  constructor
  · exact bind_decoded_as_asked_iff
  · exact call_decoded_as_asked_iff

/-- A header of 16 octets, little-endian, of this type, and eight octets behind it. -/
def bareReply (ptype : UInt8) : Bytes := [5, 0, ptype, 3, 0x10, 0, 0, 0] ++ zeros 16

/-- A call whose reply has an empty stub. -/
def emptyCall : Call Empty where
  pdu := {}
  coder := fun _ _ => pure ()
  decodeSize := 8
  state := noStub

/-- A response to a bind, whose PDU has no coder for a stub; a request, whose coder is run for a
call; and a reply without an output, whose pointer is freed. -/
theorem replies_decoded_as_told :
    ¬ DecodedAsAsked .bindAck (smb2BindCb (newContext .ndr32) 0 (bareReply 2)).1
    ∧ ¬ DecodedAsAsked .response (dcerpcCallCb emptyCall 0 0 (bareReply 0))
    ∧ ¬ DecodedAsAsked .response (dcerpcCallCb emptyCall 0 0 []) := by
  refine ⟨fun h => ?_, fun h => ?_, fun h => ?_⟩
  · have hstarted : .started .response ∈ (smb2BindCb (newContext .ndr32) 0 (bareReply 2)).1 := by
      decide +kernel
    cases h.only _ hstarted
  · have hstarted : .started .request ∈ dcerpcCallCb emptyCall 0 0 (bareReply 0) := by
      decide +kernel
    cases h.only _ hstarted
  · have hevents : dcerpcCallCb emptyCall 0 0 [] = [.faulted .null] := by
      decide +kernel
    rw [hevents] at h
    exact absurd h.once (by decide)

end Libsmb2.Dcerpc
