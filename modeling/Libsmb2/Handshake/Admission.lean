import Libsmb2.Server.Gate

/-!
# What a client has checked before it connects to a share

A client on which the server has the callbacks of the handshake run: in any order, on any message
and for any request, and between them the application does what it wants.

* `ClientOp.run_admits` — what one call admits, it has derived the key for and checked;
* `admissions_are_checked` — **in every run, a context that signs comes to the tree connect only in
  a call that derives its key from a session key, and on a reply that has that key's signature if
  it is flagged as signed.**  A reply that is not flagged is not checked.
-/

set_option autoImplicit false

namespace Libsmb2

open Util

/-- What happens to a client. -/
inductive ClientOp
  | connect
  | invoke (rx : Receiver) (p : Pdu) (status : Nat)
  | act (a : Action)

def ClientOp.run (L : Library) (K : Crypto) (ctx : Context) : ClientOp → Context
  | .connect => connectCb L K ctx
  | .invoke rx p status => invokeClient L K rx p status ctx
  | .act a => Libsmb2.act K ctx a

/-- An admission by this call, behind the events `es`, has been checked. -/
structure Checks (K : Crypto) (op : ClientOp) (es : List Event) (a : Admission) : Prop where
  key : ∃ key, .derived .signing a.signingKey key ∈ es ∧ key ≠ [] ∧
    key.take KEY_SIZE ≠ zeros KEY_SIZE
  reply : ∃ rx p, op = .invoke rx p STATUS_SUCCESS ∧ a.hdr = rx.hdr ∧
    (rx.hdr.hasFlag FLAGS_SIGNED = true → slice rx.header 48 SIGNATURE_SIZE =
      signature K a.dialect a.signingKey (rx.signedVectors 1))

/-- The log grows, and this holds of the admissions in it that sign. -/
def AdmitsOnly (P : List Event → Admission → Prop) (old new : List Event) : Prop :=
  ∃ es, new = old ++ es ∧
    ∀ pre a post, es = pre ++ .admitted a :: post → a.sign = true → P pre a

section
variable {P : List Event → Admission → Prop} {old mid new es fs : List Event} {a : Admission}

theorem AdmitsOnly.of_aside (h : Logged (fun e => e.aside = true) old new) :
    AdmitsOnly P old new := by
  obtain ⟨es, rfl, hes⟩ := h
  refine ⟨es, rfl, ?_⟩
  rintro pre a post rfl
  cases hes (.admitted a) (by simp)

theorem AdmitsOnly.trans (hP : ∀ l pre a, P pre a → P (l ++ pre) a) (h₁ : AdmitsOnly P old mid)
    (h₂ : AdmitsOnly P mid new) : AdmitsOnly P old new := by
  obtain ⟨es, rfl, hes⟩ := h₁
  obtain ⟨fs, rfl, hfs⟩ := h₂
  refine ⟨es ++ fs, List.append_assoc _ _ _, ?_⟩
  intro pre a post h ha
  rcases append_split h with ⟨post', rfl⟩ | ⟨fs₁, fs₂, rfl, rfl⟩
  · exact hes pre a post' rfl ha
  · exact hP _ _ _ (hfs fs₁ a fs₂ rfl ha)

theorem AdmitsOnly.one (hes : ∀ e ∈ es, e.aside = true) (hfs : ∀ e ∈ fs, e.aside = true)
    (ha : a.sign = true → P es a) : AdmitsOnly P old (old ++ (es ++ .admitted a :: fs)) := by
  refine ⟨_, rfl, ?_⟩
  intro pre b post h hb
  rcases append_split h with ⟨post', rfl⟩ | ⟨fs₁, fs₂, hfs', rfl⟩
  · cases hes (.admitted b) (by simp)
  · cases fs₁ with
    | nil =>
      obtain ⟨rfl, -⟩ : a = b ∧ fs = fs₂ := by simpa using hfs'
      rw [List.append_nil]
      exact ha hb
    | cons e fs₁ =>
      obtain ⟨-, rfl⟩ := List.cons.inj hfs'
      cases hfs (.admitted b) (by simp)

end

section
variable {L : Library} {K : Crypto} {rx : Receiver} {ctx : Context}

/-- The log goes on with what says nothing about an admission. -/
abbrev Onward (ctx ctx' : Context) : Prop := Logged (fun e => e.aside = true) ctx.log ctx'.log

theorem queueAndHash_onward (ctx : Context) (p : Pdu) : Onward ctx (queueAndHash K ctx p) := by
  have hq := (queuePdu_aside (K := K) ctx (.single p)).log
  unfold queueAndHash
  simp only
  split
  · split
    · exact hq
    · exact hq
  · exact hq

theorem connectDone_onward (ctx : Context) (ret : Int) : Onward ctx (connectDone K ctx ret) :=
  ((emit_aside ctx rfl).trans (react_aside _)).log

theorem connectFailed_onward (ctx : Context) : Onward ctx (connectFailed K ctx) :=
  (closeContext_aside ctx).log.trans (connectDone_onward _ _)

theorem newRequest_onward (ctx : Context) (command : Command) (cb : Callback)
    (body : Option (List Bytes)) : Onward ctx (newRequest ctx command cb body).2 := by
  have h := (allocatePdu_aside ctx command cb).log
  unfold newRequest
  split
  · rename_i halloc
    rwa [halloc] at h
  · rename_i halloc
    rwa [halloc] at h

theorem continueSetup_onward (ctx : Context) (input : Option Bytes) :
    Onward ctx (continueSetup L K ctx input) := by
  have hsend : Onward ctx (sendSessionSetupRequest L K ctx input).1 := by
    unfold sendSessionSetupRequest
    split
    · exact .refl _
    split
    · exact (closeContext_aside ctx).log
    rename_i auth token _
    have hnew := newRequest_onward { ctx with authData := some auth } .sessionSetup .sessionSetupCb
      (L.sessionSetupRequest { ctx with authData := some auth } token)
    simp only
    split
    · rename_i hnone
      rw [hnone] at hnew
      exact hnew.trans (closeContext_aside _).log
    · rename_i hsome
      rw [hsome] at hnew
      exact hnew.trans (queueAndHash_onward _ _)
  unfold continueSetup
  split
  · rename_i h
    rwa [h] at hsend
  · rename_i h
    rw [h] at hsend
    split
    · exact hsend.trans (connectFailed_onward _)
    · exact hsend

theorem connectCb_onward (ctx : Context) : Onward ctx (connectCb L K ctx) := by
  have hnew := newRequest_onward (initPreauthHash ctx) .negotiate .negotiateCb
    (L.negotiateRequest (initPreauthHash ctx) (offeredDialects ctx.version))
  unfold connectCb
  simp only
  split
  · rename_i hnone
    exact hnew.trans (hnone ▸ connectDone_onward _ _)
  · rename_i hsome
    exact hnew.trans (hsome ▸ queueAndHash_onward _ _)

theorem negotiateCb_onward (rx : Receiver) (status : Nat) (payload : Payload) (ctx : Context) :
    Onward ctx (negotiateCb L K rx status payload ctx) := by
  unfold negotiateCb
  simp only
  split
  · exact connectFailed_onward (updatePreauthHash K ctx _)
  split
  · rename_i rep
    have hnoted :
        Onward ctx (ctx.emit (.negotiated ⟨offeredDialects ctx.version, ctx.sealing, rep⟩)) :=
      (emit_aside ctx rfl).log
    split
    · exact connectFailed_onward (K := K) { updatePreauthHash K ctx _ with
        dialect := rep.dialectRevision, cypher := rep.cypher }
    split
    · exact connectFailed_onward (K := K) { updatePreauthHash K ctx _ with
        dialect := rep.dialectRevision, cypher := rep.cypher }
    split
    · exact hnoted.trans (continueSetup_onward _ _)
    · exact hnoted.trans (connectFailed_onward _)
  · exact .refl _

/-- The log goes on with an admission under the keys of this context. -/
def Admitting (rx : Receiver) (ctx : Context) (log : List Event) : Prop :=
  ∃ a fs, log = ctx.log ++ .admitted a :: fs ∧ (∀ e ∈ fs, e.aside = true) ∧ a.sign = ctx.sign ∧
    a.dialect = ctx.dialect ∧ a.signingKey = ctx.signingKey ∧ a.hdr = rx.hdr

theorem treeConnect_admits (rx : Receiver) (ctx : Context) :
    Admitting rx ctx (treeConnect L K rx ctx).log := by
  let a : Admission := ⟨ctx.sign, ctx.dialect, ctx.signingKey, rx.hdr,
    rx.vectorsFrom rx.headerIndex, rx.headerIndex = 1⟩
  have hrest : Onward (ctx.emit (.admitted a)) (treeConnect L K rx ctx) := by
    have hnew := newRequest_onward (ctx.emit (.admitted a)) .treeConnect .treeConnectCb
      (L.treeConnectRequest (ctx.emit (.admitted a)))
    unfold treeConnect
    simp only
    split
    · exact connectDone_onward _ _
    split
    · rename_i hnone
      exact hnew.trans (hnone ▸ connectFailed_onward _)
    · rename_i hsome
      exact hnew.trans (hsome ▸ (queuePdu_aside _ _).log)
  obtain ⟨fs, hlog, hfs⟩ := hrest
  refine ⟨a, fs, ?_, hfs, rfl, rfl, rfl, rfl⟩
  rw [hlog]
  exact List.append_assoc _ _ _

/-- The signature decides if the reply is flagged. -/
def Signed (K : Crypto) (rx : Receiver) (ctx : Context) : Prop :=
  rx.hdr.hasFlag FLAGS_SIGNED = true →
    slice rx.header 48 SIGNATURE_SIZE = calcSignature K ctx (rx.signedVectors 1)

theorem checkSetup_cases (L : Library) (K : Crypto) (rx : Receiver) (ctx : Context) :
    Onward ctx (checkSetup L K rx ctx) ∨
    Admitting rx ctx (checkSetup L K rx ctx).log ∧ Signed K rx ctx := by
  have hverify : ∀ d : Context,
      let d' := if slice rx.header 48 SIGNATURE_SIZE = calcSignature K d (rx.signedVectors 1) then
          treeConnect L K rx d
        else connectDone K d (-1)
      Onward d d' ∨ Admitting rx d d'.log ∧ Signed K rx d := by
    intro d
    simp only
    split
    · rename_i hgood
      exact .inr ⟨treeConnect_admits rx d, fun _ => hgood⟩
    · exact .inl (connectDone_onward _ _)
  unfold checkSetup
  split
  · split
    · split
      · exact .inl (connectDone_onward ctx.popMem _)
      · simp only
        split
        · exact hverify ctx.popMem
        · exact hverify ctx
    · exact .inl (.refl _)
  · rename_i hplain
    exact .inr ⟨treeConnect_admits rx ctx, fun hflag => absurd hflag hplain⟩

theorem finishSetup_admits (rx : Receiver) (p : Pdu) (ctx : Context) :
    AdmitsOnly (Checks K (.invoke rx p STATUS_SUCCESS)) ctx.log (finishSetup L K rx ctx).log := by
  unfold finishSetup
  simp only
  split
  · have hkey := (getSessionKey_aside ctx).log
    generalize getSessionKey ctx = x at hkey
    obtain ⟨y, hy⟩ : ∃ y, y = x.1.emit (.setUp ⟨x.1.sign, x.1.sealing, x.1.dialect,
      if x.2 then some x.1.sessionKey else none⟩) := ⟨_, rfl⟩
    have hset : Onward ctx y := hy ▸ hkey.trans (.push rfl)
    rw [← hy]
    split
    · exact .of_aside (hset.trans (connectFailed_onward _))
    · rename_i hvalid
      have hderive := (createSigningKey_aside (K := K) y).log
      rcases checkSetup_cases L K rx (createSigningKey K y) with h | h
      · exact .of_aside (hset.trans (hderive.trans h))
      · obtain ⟨⟨a, fs, hnew, hfs, hsign, hdialect, hkey, hhdr⟩, hsig⟩ := h
        obtain ⟨es, hes, haside⟩ := hset
        obtain ⟨ds, hds, hdaside⟩ := hderive
        rw [hnew, hds, hes, List.append_assoc, List.append_assoc, ← List.append_assoc es]
        refine .one (List.forall_mem_append.mpr ⟨haside, hdaside⟩) hfs fun ha => ?_
        have hgood : x.2 = true ∧ validSessionKey y = true := by
          simpa [show y.sign = true from hsign.symm.trans ha] using hvalid
        refine ⟨⟨y.sessionKey, ?_, ?_⟩, rx, p, rfl, hhdr, ?_⟩
        · rw [hkey, ← List.append_cancel_left hds]
          exact List.mem_append_right _ (List.mem_cons_of_mem _ (List.mem_cons_self ..))
        · simpa [validSessionKey] using hgood.2
        · rw [hdialect, hkey]
          exact hsig
  · rename_i hplain
    obtain ⟨a, fs, hnew, hfs, hsign, -⟩ := treeConnect_admits (L := L) (K := K) rx
      (ctx.emit (.setUp ⟨ctx.sign, ctx.sealing, ctx.dialect, none⟩))
    rw [hnew]
    show AdmitsOnly _ ctx.log (ctx.log ++ [_] ++ _)
    rw [List.append_assoc]
    refine .one (by simp [Event.aside]) hfs fun ha => absurd (hsign.symm.trans ha) ?_
    intro hsigns
    exact hplain (by rw [show ctx.sign = true from hsigns]; rfl)

theorem sessionSetupCb_admits (rx : Receiver) (p : Pdu) (status : Nat) (payload : Payload)
    (ctx : Context) : AdmitsOnly (Checks K (.invoke rx p status)) ctx.log
      (sessionSetupCb L K rx status payload ctx).log := by
  unfold sessionSetupCb
  split
  · refine .of_aside ?_
    split
    · split
      · exact connectFailed_onward _
      · exact continueSetup_onward (updatePreauthHash K ctx _) _
    · exact .refl _
  split
  · exact .of_aside (connectFailed_onward _)
  rename_i hstatus
  rw [not_not.mp hstatus]
  split
  · split
    · exact finishSetup_admits rx p { ctx with sealing := true, sign := false }
    · exact finishSetup_admits rx p ctx
  · exact .of_aside (.refl _)

theorem Checks.later {op : ClientOp} (l es : List Event) (a : Admission) (h : Checks K op es a) :
    Checks K op (l ++ es) a where
  key := h.key.imp fun _ hk => ⟨List.mem_append_right _ hk.1, hk.2⟩
  reply := h.reply

/-- **What one call admits** has been checked. -/
theorem ClientOp.run_admits (op : ClientOp) (ctx : Context) :
    AdmitsOnly (Checks K op) ctx.log (op.run L K ctx).log := by
  cases op with
  | connect => exact .of_aside (connectCb_onward ctx)
  | act a => exact .of_aside (act_aside ctx a).log
  | invoke rx p status =>
    have hemit := (emit_aside ctx (e := .completed p.id status) rfl).log
    unfold ClientOp.run invokeClient
    refine .trans Checks.later (.of_aside hemit) ?_
    simp only
    split
    · exact .of_aside (negotiateCb_onward _ _ _ _)
    · exact sessionSetupCb_admits rx p status p.payload _
    · refine .of_aside ?_
      unfold treeConnectCb
      split
      · exact connectFailed_onward _
      · exact connectDone_onward _ _
    · exact .of_aside (react_aside _).log

end

/-- The run of `ops` on `ctx` admits behind the events `es`: in one of its calls, which has derived
the key and checked the reply itself. -/
def AdmittedByCall (L : Library) (K : Crypto) (ops : List ClientOp) (ctx : Context)
    (es : List Event) (a : Admission) : Prop :=
  ∃ before op after earlier own post, ops = before ++ op :: after ∧ es = earlier ++ own ∧
    (before.foldl (ClientOp.run L K) ctx).log = ctx.log ++ earlier ∧
    (op.run L K (before.foldl (ClientOp.run L K) ctx)).log =
      ctx.log ++ (earlier ++ (own ++ .admitted a :: post)) ∧
    Checks K op own a

/-- **Admissions are checked** in every run: a context that signs comes to the tree connect in a
call that derives the signing key from a session key which is not zero, and on a reply that has the
signature under this key if it is flagged as signed. -/
theorem admissions_are_checked (L : Library) (K : Crypto) (ops : List ClientOp) (ctx : Context) :
    AdmitsOnly (AdmittedByCall L K ops ctx) ctx.log (ops.foldl (ClientOp.run L K) ctx).log := by
  induction ops generalizing ctx with
  | nil => exact .of_aside (.refl _)
  | cons op ops ih =>
    obtain ⟨es, hes, hfirst⟩ := op.run_admits (L := L) (K := K) ctx
    obtain ⟨fs, hfs, hrest⟩ := ih (op.run L K ctx)
    refine ⟨es ++ fs, ?_, ?_⟩
    · rw [List.foldl_cons, hfs, hes, List.append_assoc]
    intro pre a post h ha
    rcases append_split h with ⟨post', rfl⟩ | ⟨fs₁, fs₂, rfl, rfl⟩
    · exact ⟨[], op, ops, [], pre, post', rfl, rfl, (List.append_nil _).symm, hes,
        hfirst pre a post' rfl ha⟩
    · -- the admission is one of a later call
      obtain ⟨before, o, after, earlier, own, post', rfl, rfl, hlog, hown, hchecks⟩ :=
        hrest fs₁ a fs₂ rfl ha
      refine ⟨op :: before, o, after, es ++ earlier, own, post', rfl,
        (List.append_assoc _ _ _).symm, ?_, ?_, hchecks⟩
      · rw [List.foldl_cons, hlog, hes, List.append_assoc]
      · rw [List.foldl_cons, hown, hes, List.append_assoc, List.append_assoc]

/-! ## A signed admission -/

/-- A signature that is the key itself. -/
def keyCrypto : Crypto :=
  { echoCrypto with
    hmacSha256 := fun key _ => (key ++ zeros 32).take 32
    hmacSha256_length := by simp }

def sharedKey : Bytes := le 16 0x100f0e0d0c0b0a090807060504030201

/-- A library that answers every challenge, and finds this key in it. -/
def answeringLibrary : Library :=
  { trustingLibrary with encodeAuth := fun _ _ => some ([], some sharedKey) }

/-- A reply that signs, and its callback. -/
def setupReply (cb : Callback) (command : Command) (payload : Payload) (status : Nat) : ClientOp :=
  let hdr : Header := {
    protocolId := Header.smb2sign
    structSize := HEADER_SIZE
    command := command
    status := status
    flags := FLAGS_SIGNED
    signature := sharedKey }
  .invoke { hdr := hdr, iov := [⟨false, SPL_SIZE⟩, ⟨true, HEADER_SIZE⟩, ⟨false, 8⟩],
            received := be32 72 ++ hdr.encode ++ zeros 8 }
    { id := 1, cb := cb, payload := payload } status

/-- The client asks for signatures; the server agrees, sends a challenge, and takes the answer. -/
def signedSetup : List ClientOp :=
  [.act (.setSign true), .connect,
    setupReply .negotiateCb .negotiate
      (.negotiateReply { securityMode := NEGOTIATE_SIGNING_ENABLED, dialectRevision := VERSION_0210 })
      STATUS_SUCCESS,
    setupReply .sessionSetupCb .sessionSetup
      (.sessionSetupReply { securityBuffer := bareNtlmMessage 2 }) STATUS_MORE_PROCESSING_REQUIRED,
    .act (.tick 1),
    setupReply .sessionSetupCb .sessionSetup (.sessionSetupReply {}) STATUS_SUCCESS]

theorem signed_setup_is_admitted :
    let log := (signedSetup.foldl (ClientOp.run answeringLibrary keyCrypto) {}).log
    log.any (fun e => match e with
      | .admitted a => a.sign && a.hdr.hasFlag FLAGS_SIGNED && a.signingKey = sharedKey
      | _ => false) = true ∧
    AdmitsOnly (AdmittedByCall answeringLibrary keyCrypto signedSetup {}) [] log :=
  ⟨by decide +kernel, admissions_are_checked answeringLibrary keyCrypto signedSetup {}⟩

end Libsmb2
