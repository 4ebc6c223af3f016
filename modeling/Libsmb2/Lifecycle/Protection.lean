import Libsmb2.Lifecycle.Framing

/-!
# Protection of what is sent

What `smb2_write_to_socket` hands to the transport for an established session is sealed, or
signed, as the context demands at that moment (`Protected`).  Signing and sealing happen when
a chain is queued, and neither stops it from being sent.

* `offers_are_protected` — every chain that a client hands to the transport is protected, if
  each chain was queued in the state in which it has to be written, in a form that can be
  protected, and the memory for it was there (`Ready`).
* `plain_text_without_memory` — a client that seals, out of memory: the request goes out in
  plain text.
-/

set_option autoImplicit false

namespace Libsmb2

open Util Relation

/-- The two commands that a session is set up with are not protected. -/
def Command.protectable (c : Command) : Bool := c != .negotiate && c != .sessionSetup

/-- These vectors carry the flag and the signature of their own octets. -/
structure SignedOctets (K : Crypto) (dialect : Nat) (key : Bytes) (out : List Bytes) : Prop where
  flag : fromLe (slice out.flatten 16 4) &&& FLAGS_SIGNED ≠ 0
  signature : slice out.flatten 48 SIGNATURE_SIZE = signature K dialect key out

/-- **What the settings of a context demand of a chain that is written.** -/
structure Protected (K : Crypto) (sec : Security) (c : Chain) : Prop where
  sealing : sec.sealing = true → (∃ p ∈ c.members, p.header.command.protectable = true) →
    ∃ nonce, c.frame.drop SPL_SIZE = sealOctets K sec.serverinKey sec.sessionId nonce c.octets
  signing : sec.sealing = false → sec.sign = true →
    (∃ p ∈ c.members, p.header.command.protectable = true) → c.frame.drop SPL_SIZE = c.octets ∧
      ∀ p ∈ c.members, p.header.command.protectable = true →
        SignedOctets K sec.dialect sec.signingKey p.out

/-- The chain `c₀`, queued under the settings `sec₀`, can be sealed for a write under `sec`. -/
structure ReadyToSeal (l : List Event) (c₀ : Chain) (sec₀ sec : Security) : Prop where
  sealing : sec₀.sealing = true
  sealed : c₀.head.sealed = true
  key : sec₀.serverinKey = sec.serverinKey
  session : sec₀.sessionId = sec.sessionId
  memory : .unprotected .serverin c₀.head.id ∉ l

/-- The chain `c₀`, queued under the settings `sec₀`, can be signed for a write under `sec`. -/
structure ReadyToSign (l : List Event) (c₀ : Chain) (sec₀ sec : Security) : Prop where
  sign : sec₀.sign = true
  plain : c₀.head.sealed = false
  session : sec₀.sessionId ≠ 0
  sessionKey : sec₀.sessionKey ≠ []
  dialect : sec₀.dialect = sec.dialect
  key : sec₀.signingKey = sec.signingKey
  vectors : ∀ p ∈ c₀.members, 2 ≤ p.out.length
  memory : ∀ p ∈ c₀.members, .unprotected .signing p.id ∉ l

instance (l : List Event) (c₀ : Chain) (sec₀ sec : Security) :
    Decidable (ReadyToSeal l c₀ sec₀ sec) :=
  decidable_of_iff (sec₀.sealing = true ∧ c₀.head.sealed = true ∧
      sec₀.serverinKey = sec.serverinKey ∧ sec₀.sessionId = sec.sessionId ∧
      .unprotected .serverin c₀.head.id ∉ l)
    ⟨fun h => ⟨h.1, h.2.1, h.2.2.1, h.2.2.2.1, h.2.2.2.2⟩,
      fun h => ⟨h.sealing, h.sealed, h.key, h.session, h.memory⟩⟩

instance (l : List Event) (c₀ : Chain) (sec₀ sec : Security) :
    Decidable (ReadyToSign l c₀ sec₀ sec) :=
  decidable_of_iff (sec₀.sign = true ∧ c₀.head.sealed = false ∧ sec₀.sessionId ≠ 0 ∧
      sec₀.sessionKey ≠ [] ∧ sec₀.dialect = sec.dialect ∧ sec₀.signingKey = sec.signingKey ∧
      (∀ p ∈ c₀.members, 2 ≤ p.out.length) ∧ ∀ p ∈ c₀.members, .unprotected .signing p.id ∉ l)
    ⟨fun h => ⟨h.1, h.2.1, h.2.2.1, h.2.2.2.1, h.2.2.2.2.1, h.2.2.2.2.2.1, h.2.2.2.2.2.2.1,
        h.2.2.2.2.2.2.2⟩,
      fun h => ⟨h.sign, h.plain, h.session, h.sessionKey, h.dialect, h.key, h.vectors, h.memory⟩⟩

/-- The chains that were queued, with the settings of that moment. -/
def queuedChains (l : List Event) : List (Chain × Security) :=
  l.filterMap fun
    | .queued c sec => some (c, sec)
    | _ => none

/-- The chains that were handed to the transport, with the settings of that moment. -/
def offeredChains (l : List Event) : List (Chain × Security) :=
  l.filterMap fun
    | .offered c sec => some (c, sec)
    | _ => none

variable {l l' : List Event} {c c₀ : Chain}

theorem mem_queuedChains {sec : Security} :
    (c, sec) ∈ queuedChains l ↔ .queued c sec ∈ l := by
  rw [queuedChains, List.mem_filterMap]
  constructor
  · rintro ⟨e, he, h⟩
    cases e with
    | queued c' sec' =>
      cases h
      exact he
    | _ => cases h
  · intro h
    exact ⟨_, h, rfl⟩

theorem mem_offeredChains {sec : Security} :
    (c, sec) ∈ offeredChains l ↔ .offered c sec ∈ l := by
  rw [offeredChains, List.mem_filterMap]
  constructor
  · rintro ⟨e, he, h⟩
    cases e with
    | offered c' sec' =>
      cases h
      exact he
    | _ => cases h
  · intro h
    exact ⟨_, h, rfl⟩

/-- **Every chain that was written had been queued ready for it.** -/
def Ready (l : List Event) : Prop :=
  ∀ x ∈ queuedChains l, ∀ y ∈ offeredChains l, x.1.head.id = y.1.head.id → y.2.sessionId ≠ 0 →
    (∃ p ∈ y.1.members, p.header.command.protectable = true) →
    (y.2.sealing = true → ReadyToSeal l x.1 x.2 y.2) ∧
      (y.2.sealing = false → y.2.sign = true → ReadyToSign l x.1 x.2 y.2)

instance (l : List Event) : Decidable (Ready l) := by
  unfold Ready
  infer_instance

theorem ReadyToSeal.earlier {sec₀ sec : Security}
    (hsub : l ⊆ l') (hr : ReadyToSeal l' c₀ sec₀ sec) : ReadyToSeal l c₀ sec₀ sec :=
  ⟨hr.sealing, hr.sealed, hr.key, hr.session, fun h => hr.memory (hsub h)⟩

theorem ReadyToSign.earlier {sec₀ sec : Security}
    (hsub : l ⊆ l') (hr : ReadyToSign l' c₀ sec₀ sec) : ReadyToSign l c₀ sec₀ sec :=
  ⟨hr.sign, hr.plain, hr.session, hr.sessionKey, hr.dialect, hr.key, hr.vectors,
    fun p hp h => hr.memory p hp (hsub h)⟩

theorem Ready.earlier (h : l <+: l') (hp : Ready l') : Ready l := by
  rintro ⟨c₀, sec₀⟩ hq ⟨c, sec⟩ ho hid hs hcmd
  have hq' := mem_queuedChains.mpr (h.subset (mem_queuedChains.mp hq))
  have ho' := mem_offeredChains.mpr (h.subset (mem_offeredChains.mp ho))
  obtain ⟨hseal, hsign⟩ := hp _ hq' _ ho' hid hs hcmd
  exact ⟨fun h₁ => (hseal h₁).earlier h.subset, fun h₁ h₂ => (hsign h₁ h₂).earlier h.subset⟩

section
variable {K : Crypto} {D : Decoders} {G I : Prop}

/-! ## Signing a member -/

theorem signed_flag (n : Nat) : fromLe (le 4 (n ||| FLAGS_SIGNED)) &&& FLAGS_SIGNED ≠ 0 := by
  rw [fromLe_le]
  intro h
  have hbit : Nat.testBit ((n ||| FLAGS_SIGNED) % 2 ^ 32 &&& FLAGS_SIGNED) 3 = false := by
    have : (256 : Nat) ^ 4 = 2 ^ 32 := by norm_num
    rw [← this, h, Nat.zero_testBit]
  rw [Nat.testBit_and, Nat.testBit_mod_two_pow, Nat.testBit_or] at hbit
  simp [FLAGS_SIGNED, Nat.testBit] at hbit

/-- The vectors that signing leaves carry the flag and their own signature. -/
theorem putSignature_signed {p : Pdu} {v : Bytes} {vs : List Bytes} (hout : p.out = v :: vs)
    (hv : v.length = HEADER_SIZE) (dialect : Nat) (key : Bytes) :
    SignedOctets K dialect key
      (p.markSigned.putSignature (signature K dialect key p.markSigned.out)).out := by
  have hlen := length_signature K dialect key p.markSigned.out
  generalize hsig : signature K dialect key p.markSigned.out = sig at hlen
  have hmark : p.markSigned.out = patch v 16 (le 4 (p.header.flags ||| FLAGS_SIGNED)) :: vs := by
    simp only [Pdu.markSigned, hout, patchHead, Header.setFlag]
  have hw : (patch v 16 (le 4 (p.header.flags ||| FLAGS_SIGNED))).length = HEADER_SIZE := by
    rw [length_patch, hv]
    simp only [length_le, hv, HEADER_SIZE]
    omega
  generalize hwv : patch v 16 (le 4 (p.header.flags ||| FLAGS_SIGNED)) = w at hmark hw
  have hzero : (patch w 48 (zeros SIGNATURE_SIZE)).length = HEADER_SIZE := by
    rw [length_patch, hw]
    simp only [length_zeros, hw, HEADER_SIZE, SIGNATURE_SIZE]
    omega
  have hfin : (p.markSigned.putSignature sig).out = patch w 48 sig :: vs := by
    simp only [Pdu.putSignature, hmark, clearSignature, patchHead]
    rw [patch_patch (by rw [length_zeros, hlen])]
    rw [hlen, hw, HEADER_SIZE, SIGNATURE_SIZE]
  have hsame : clearSignature (patch w 48 sig :: vs) = clearSignature p.markSigned.out := by
    simp only [clearSignature, hmark]
    rw [patch_patch (by rw [length_zeros, hlen])]
    rw [length_zeros, hw, HEADER_SIZE, SIGNATURE_SIZE]
  have hend : (patch w 48 sig).length = HEADER_SIZE := by
    rw [length_patch, hw]
    rw [hlen, hw, HEADER_SIZE, SIGNATURE_SIZE]
  constructor
  · rw [hfin, List.flatten_cons, slice_append_left (by rw [hend, HEADER_SIZE]; omega),
      slice_patch_before (by omega) (by rw [hw, HEADER_SIZE]; omega), ← hwv]
    have hoff : 16 ≤ v.length := by
      rw [hv, HEADER_SIZE]
      omega
    have hfield : slice (patch v 16 (le 4 (p.header.flags ||| FLAGS_SIGNED))) 16
        (le 4 (p.header.flags ||| FLAGS_SIGNED)).length = le 4 (p.header.flags ||| FLAGS_SIGNED) :=
      slice_patch_same hoff
    rw [length_le] at hfield
    rw [hfield]
    exact signed_flag _
  · have hoff : 48 ≤ w.length := by
      rw [hw, HEADER_SIZE]
      omega
    have hread : slice (patch w 48 sig) 48 sig.length = sig := slice_patch_same hoff
    rw [hlen] at hread
    have hown : signature K dialect key (patch w 48 sig :: vs) = sig := by
      have heq : signature K dialect key (patch w 48 sig :: vs) =
          signature K dialect key p.markSigned.out := by
        simp only [signature, hsame]
      rw [heq, hsig]
    rw [hfin, List.flatten_cons,
      slice_append_left (by rw [hend, HEADER_SIZE, SIGNATURE_SIZE]), hread, hown]

variable {ctx ctx' : Context}

/-- **What signing a member comes to**: the flag and the signature, or no memory. -/
theorem pduAddSignature_signed {p : Pdu} {v : Bytes} {vs : List Bytes}
    (hset : p.header.command ≠ .sessionSetup) (hout : p.out = v :: vs)
    (hv : v.length = HEADER_SIZE) (hvs : vs ≠ []) (hsid : ctx.sessionId ≠ 0)
    (hkey : ctx.sessionKey ≠ []) :
    SignedOctets K ctx.dialect ctx.signingKey (pduAddSignature K ctx p).2.1.out ∨
      .unprotected .signing p.id ∈ (pduAddSignature K ctx p).1.log := by
  have hu : unsignedSetup p = false := by
    simp [unsignedSetup, hset]
  have hlen : ¬ p.out.length < 2 := by
    cases vs with
    | nil => exact absurd rfl hvs
    | cons w ws =>
      simp only [hout, List.length_cons]
      omega
  have hhead : ¬ (p.out.headD []).length ≠ HEADER_SIZE := by
    simp [hout, hv]
  have hput := putSignature_signed (K := K) hout hv ctx.dialect ctx.signingKey
  unfold pduAddSignature calcSignature
  simp only [hu, hlen, hhead, hsid, hkey, Bool.false_eq_true, if_false]
  split
  · split
    · exact .inl hput
    · exact .inr (List.mem_append_right _ (List.mem_singleton.mpr rfl))
  · exact .inl hput

theorem pduAddSignature_keeps (ctx : Context) (p : Pdu) :
    (pduAddSignature K ctx p).2.1.header.command = p.header.command ∧
      (pduAddSignature K ctx p).2.1.sealed = p.sealed := by
  refine pduAddSignature_cases K ctx p ?_ ?_ ?_ ?_
  · intro _
    exact ⟨rfl, rfl⟩
  · exact ⟨rfl, rfl⟩
  · exact ⟨rfl, rfl⟩
  · exact ⟨rfl, rfl⟩

theorem signMember_sealed (ctx : Context) (p : Pdu) :
    (signMember K ctx p).2.sealed = p.sealed := by
  unfold signMember
  split
  · exact (pduAddSignature_keeps ctx p).2
  · rfl

/-! ## The settings stay as they are while a client queues -/

theorem pduAddSignature_security (ctx : Context) (p : Pdu) :
    (pduAddSignature K ctx p).1.security = ctx.security :=
  pduAddSignature_cases K ctx p (fun _ => rfl) rfl rfl rfl

theorem signMember_security (ctx : Context) (p : Pdu) :
    (signMember K ctx p).1.security = ctx.security := by
  unfold signMember
  split
  · exact pduAddSignature_security ctx p
  · rfl

theorem encodeMember_client (hc : ctx.isServer = false) (mid : Nat) (p : Pdu) :
    encodeMember ctx mid p =
      ({ ctx with messageId := (ctx.messageId + max 1 p.header.creditCharge) % 2 ^ 64 },
        { p with
          header := { p.header with messageId := ctx.messageId }
          out := { p.header with messageId := ctx.messageId }.encode :: p.out.tail
          prevCompoundMid := mid }) := by
  simp only [encodeMember, encodeHeader, hc, Bool.false_eq_true, if_false]

theorem queueMember_client (hc : ctx.isServer = false) (mid : Nat) (p : Pdu) :
    (queueMember K ctx mid p).1.security = ctx.security ∧
      (queueMember K ctx mid p).1.isServer = false := by
  have hq := queueMember_quiet (G := True) (K := K) ctx mid p (fun _ => trivial)
  refine ⟨?_, hq.isServer.trans hc⟩
  simp only [queueMember]
  rw [signMember_security, encodeMember_client hc]
  rfl

theorem signMember_signed {p : Pdu} {v : Bytes} {vs : List Bytes}
    (hsign : ctx.sign = true) (hcmd : (signMember K ctx p).2.header.command.protectable = true)
    (hout : p.out = v :: vs) (hv : v.length = HEADER_SIZE) (hvs : vs ≠ [])
    (hsid : ctx.sessionId ≠ 0) (hkey : ctx.sessionKey ≠ []) :
    SignedOctets K ctx.dialect ctx.signingKey (signMember K ctx p).2.out ∨
      .unprotected .signing p.id ∈ (signMember K ctx p).1.log := by
  have hs : signsOnQueue ctx p = true := by
    simp [signsOnQueue, hsign]
  unfold signMember at hcmd ⊢
  rw [if_pos hs] at hcmd ⊢
  refine pduAddSignature_signed ?_ hout hv hvs hsid hkey
  intro hset
  rw [(pduAddSignature_keeps ctx p).1, hset] at hcmd
  cases hcmd

/-- A member that can be signed is signed. -/
theorem queueMember_signed (hc : ctx.isServer = false) {p : Pdu} (mid : Nat)
    (hw : p.header.WellFormed) (hvs : 2 ≤ p.out.length) (hsign : ctx.sign = true)
    (hsid : ctx.sessionId ≠ 0) (hkey : ctx.sessionKey ≠ [])
    (hcmd : (queueMember K ctx mid p).2.header.command.protectable = true) :
    SignedOctets K ctx.dialect ctx.signingKey (queueMember K ctx mid p).2.out ∨
      .unprotected .signing p.id ∈ (queueMember K ctx mid p).1.log := by
  have htail : p.out.tail ≠ [] := by
    intro h
    have := congrArg List.length h
    simp only [List.length_tail, List.length_nil] at this
    omega
  have hlen : ({ p.header with messageId := ctx.messageId } : Header).encode.length =
      HEADER_SIZE := Header.length_encode ⟨hw.protocolId, hw.signature⟩
  have henc := encodeMember_client hc mid p
  have hsec : (encodeMember ctx mid p).1.security = ctx.security := by
    rw [henc]
    rfl
  have hout : (encodeMember ctx mid p).2.out =
      ({ p.header with messageId := ctx.messageId } : Header).encode :: p.out.tail := by
    rw [henc]
  have hid : (encodeMember ctx mid p).2.id = p.id := by
    rw [henc]
  simp only [queueMember] at hcmd ⊢
  generalize encodeMember ctx mid p = x at hsec hout hid hcmd ⊢
  simp only [Context.security, Security.mk.injEq] at hsec
  obtain ⟨h₁, _, h₂, h₃, h₄, h₅, _⟩ := hsec
  rw [← h₄, ← h₅, ← hid]
  exact signMember_signed (h₁.trans hsign) hcmd hout hlen htail (h₂ ▸ hsid) (h₃ ▸ hkey)

theorem queueMembers_security (ps : List Pdu) (hc : ctx.isServer = false)
    (mid : Nat) : (queueMembers K ctx mid ps).1.security = ctx.security := by
  induction ps generalizing ctx mid with
  | nil => rfl
  | cons p ps ih =>
    obtain ⟨hsec, hc'⟩ := queueMember_client (K := K) hc mid p
    simp only [queueMembers]
    rw [ih hc', hsec]

/-- What can be signed in a chain. -/
structure Signable (ctx : Context) (ps : List Pdu) : Prop where
  sign : ctx.sign = true
  session : ctx.sessionId ≠ 0
  sessionKey : ctx.sessionKey ≠ []
  members : ∀ p ∈ ps, p.header.WellFormed ∧ 2 ≤ p.out.length

theorem Signable.of_security {ps qs : List Pdu} (hs : Signable ctx ps)
    (hsec : ctx'.security = ctx.security) (hsub : ∀ q ∈ qs, q ∈ ps) : Signable ctx' qs := by
  simp only [Context.security, Security.mk.injEq] at hsec
  obtain ⟨h₁, _, h₂, h₃, _⟩ := hsec
  exact ⟨h₁.trans hs.sign, h₂ ▸ hs.session, h₃ ▸ hs.sessionKey, fun q hq => hs.members q (hsub q hq)⟩

/-- All members that can be signed are signed. -/
theorem queueMembers_signed (ps : List Pdu) (hc : ctx.isServer = false)
    (mid : Nat) (hs : Signable ctx ps)
    (hmem : ∀ p ∈ ps, .unprotected .signing p.id ∉ (queueMembers K ctx mid ps).1.log) :
    ∀ p ∈ (queueMembers K ctx mid ps).2, p.header.command.protectable = true →
      SignedOctets K ctx.dialect ctx.signingKey p.out := by
  induction ps generalizing ctx mid with
  | nil =>
    intro p hp
    cases hp
  | cons q ps ih =>
    obtain ⟨hsec, hc'⟩ := queueMember_client (K := K) hc mid q
    have hs' := hs.of_security hsec (fun p hp => List.mem_cons_of_mem q hp)
    have hrest := ih hc' (queueMember K ctx mid q).2.header.messageId hs'
      (fun p hp => hmem p (List.mem_cons_of_mem _ hp))
    simp only [Context.security, Security.mk.injEq] at hsec
    simp only [queueMembers]
    intro p hp hcmd
    rcases List.mem_cons.mp hp with rfl | hp
    · obtain ⟨hw, hlen⟩ := hs.members q (List.mem_cons_self ..)
      rcases queueMember_signed hc mid hw hlen hs.sign hs.session hs.sessionKey hcmd with h | h
      · exact h
      · refine absurd ?_ (hmem q (List.mem_cons_self ..))
        exact (queueMembers_quiet (G := True) ps _ _ (fun _ => trivial)).log.subset h
    · rw [← hsec.2.2.2.2.1, ← hsec.2.2.2.2.2.1]
      exact hrest p hp hcmd

/-! ## Sealing a chain -/

theorem encryptPdu_sealed (hf : (encryptPdu K ctx c).1.fault = none)
    (hs : ctx.sealing = true) (hc : c.head.sealed = true) :
    (∃ nonce, (encryptPdu K ctx c).2.head.sealed = true ∧ (encryptPdu K ctx c).2.head.crypt =
        sealOctets K ctx.serverinKey ctx.sessionId nonce c.octets) ∨
      .unprotected .serverin c.head.id ∈ (encryptPdu K ctx c).1.log := by
  unfold encryptPdu at hf ⊢
  simp only [hs, hc, Bool.not_true, Bool.false_eq_true, if_false] at hf ⊢
  split
  · rename_i hbig
    rw [if_pos hbig] at hf
    cases hf
  · split
    · exact .inl ⟨nextNonce ctx, rfl, rfl⟩
    · exact .inr (List.mem_append_right _ (List.mem_singleton.mpr rfl))

theorem encryptPdu_plain (ctx : Context) (hc : c.head.sealed = false) :
    encryptPdu K ctx c = (ctx, c) := by
  unfold encryptPdu
  simp only [hc, Bool.not_false, if_true]
  split <;> rfl

/-- Sealing leaves the plain vectors of the members as they are. -/
theorem encryptPdu_members (ctx : Context) (c : Chain) :
    (encryptPdu K ctx c).2.members.map (fun p => (p.out, p.header.command)) =
      c.members.map (fun p => (p.out, p.header.command)) :=
  encryptPdu_cases K ctx c rfl rfl rfl rfl

theorem encryptPdu_log (ctx : Context) (c : Chain) :
    ctx.log <+: (encryptPdu K ctx c).1.log := by
  refine encryptPdu_cases K ctx c ?_ ?_ ?_ ?_
  · exact List.prefix_refl _
  · exact List.prefix_refl _
  · exact List.prefix_append _ _
  · exact List.prefix_append _ _

theorem octets_of_outs {c d : Chain} (h : c.members.map (fun p => (p.out, p.header.command)) =
    d.members.map (fun p => (p.out, p.header.command))) : c.octets = d.octets := by
  have houts : ∀ e : Chain, e.octets =
      ((e.members.map fun p => (p.out, p.header.command)).map fun x => x.1.flatten).flatten := by
    intro e
    simp only [Chain.octets, List.map_map]
    rfl
  rw [houts, houts, h]

/-! ## A chain that was queued -/

/-- What queueing has made of the chain `c₀`. -/
structure Prepared (K : Crypto) (l : List Event) (sec₀ : Security) (c₀ c : Chain) : Prop where
  sealed : sec₀.sealing = true → c₀.head.sealed = true →
    .unprotected .serverin c₀.head.id ∉ l → ∃ nonce, c.head.sealed = true ∧
      c.head.crypt = sealOctets K sec₀.serverinKey sec₀.sessionId nonce c.octets
  plain : c₀.head.sealed = false → c.head.sealed = false
  signed : sec₀.sign = true → sec₀.sessionId ≠ 0 → sec₀.sessionKey ≠ [] →
    (∀ p ∈ c₀.members, 2 ≤ p.out.length ∧ .unprotected .signing p.id ∉ l) →
    ∀ p ∈ c.members, p.header.command.protectable = true →
      SignedOctets K sec₀.dialect sec₀.signingKey p.out

theorem Prepared.later {sec₀ : Security}
    (hp : Prepared K l sec₀ c₀ c) (hsub : l ⊆ l') : Prepared K l' sec₀ c₀ c :=
  ⟨fun h₁ h₂ h₃ => hp.sealed h₁ h₂ (fun h => h₃ (hsub h)), hp.plain,
    fun h₁ h₂ h₃ h₄ => hp.signed h₁ h₂ h₃ fun p hpm => ⟨(h₄ p hpm).1, fun h => (h₄ p hpm).2 (hsub h)⟩⟩

/-- **What `smb2_queue_pdu` makes of a client's chain.** -/
theorem preparePdu_prepared (hc : ctx.isServer = false)
    (hw : ∀ p ∈ c.members, p.header.WellFormed) (hf : (preparePdu K ctx c).1.fault = none) :
    Prepared K (preparePdu K ctx c).1.log ctx.security c (preparePdu K ctx c).2 := by
  have hprep : preparePdu K ctx c = encryptPdu K
      (queueMembers K (queueMember K ctx 0 c.head).1
        (queueMember K ctx 0 c.head).2.header.messageId c.rest).1
      ⟨(queueMember K ctx 0 c.head).2, (queueMembers K (queueMember K ctx 0 c.head).1
        (queueMember K ctx 0 c.head).2.header.messageId c.rest).2⟩ := by
    simp only [preparePdu, hc, Bool.false_eq_true, if_false]
  have hall : (queueMembers K ctx 0 c.members) =
      ((queueMembers K (queueMember K ctx 0 c.head).1
        (queueMember K ctx 0 c.head).2.header.messageId c.rest).1,
       (queueMember K ctx 0 c.head).2 :: (queueMembers K (queueMember K ctx 0 c.head).1
        (queueMember K ctx 0 c.head).2.header.messageId c.rest).2) := rfl
  have hsec := queueMembers_security (K := K) c.members hc 0
  have hsealed : (queueMember K ctx 0 c.head).2.sealed = c.head.sealed := by
    simp only [queueMember]
    rw [signMember_sealed, encodeMember_client hc]
  have hid : (queueMember K ctx 0 c.head).2.id = c.head.id := by
    have := queueMember_tag (K := K) ctx 0 c.head
    simp only [Pdu.tag, Prod.mk.injEq] at this
    exact this.1
  have hsigned := queueMembers_signed (K := K) c.members hc 0
  rw [hall] at hsec hsigned
  rw [hprep] at hf ⊢
  generalize queueMembers K (queueMember K ctx 0 c.head).1
        (queueMember K ctx 0 c.head).2.header.messageId c.rest = x at hf hsec hsigned ⊢
  generalize (queueMember K ctx 0 c.head).2 = q at hf hsealed hid hsigned ⊢
  have houts := encryptPdu_members (K := K) x.1 ⟨q, x.2⟩
  have hgrow := encryptPdu_log (K := K) x.1 ⟨q, x.2⟩
  simp only [Context.security, Security.mk.injEq] at hsec ⊢
  obtain ⟨_, h₁, h₂, _, _, _, h₃⟩ := hsec
  constructor
  · intro hs hcs hmem
    have hcs' : q.sealed = true := hsealed.trans hcs
    rcases encryptPdu_sealed (c := ⟨q, x.2⟩) hf (h₁.trans hs) hcs' with ⟨nonce, h⟩ | h
    · refine ⟨nonce, h.1, ?_⟩
      rw [h.2, h₂, h₃, octets_of_outs houts]
    · rw [hid] at h
      exact absurd h hmem
  · intro hcs
    rw [encryptPdu_plain x.1 (c := ⟨q, x.2⟩) (hsealed.trans hcs)]
    exact hsealed.trans hcs
  · intro hsign hsid hkey hmem p hp hcmd
    have hin : (p.out, p.header.command) ∈
        (encryptPdu K x.1 ⟨q, x.2⟩).2.members.map (fun r => (r.out, r.header.command)) :=
      List.mem_map.mpr ⟨p, hp, rfl⟩
    rw [houts] at hin
    obtain ⟨r, hr, he⟩ := List.mem_map.mp hin
    simp only [Prod.mk.injEq] at he
    rw [← he.1]
    refine hsigned ⟨hsign, hsid, hkey, fun p hp => ⟨hw p hp, (hmem p hp).1⟩⟩ ?_ r hr (he.2 ▸ hcmd)
    intro p hp h
    exact (hmem p hp).2 (hgrow.subset h)

/-! ## The steps -/

/-- The invariant: what waits to be sent was prepared, and what was offered was protected. -/
structure Guarding (K : Crypto) (ctx : Context) : Prop where
  client : ctx.isServer = false
  wellFormed : ∀ c ∈ ctx.held, ∀ p ∈ c.members, p.header.WellFormed
  prepared : ∀ c ∈ ctx.outqueue, ∃ c₀ sec₀, .queued c₀ sec₀ ∈ ctx.log ∧
    c₀.head.id = c.head.id ∧ Prepared K ctx.log sec₀ c₀ c
  offers : ∀ c sec, .offered c sec ∈ ctx.log → sec.sessionId ≠ 0 → Protected K sec c

/-- A change that adds no chain and offers none. -/
theorem Guarding.of_subset (hi : Guarding K ctx) (es : List Event)
    (hsv : ctx'.isServer = ctx.isServer) (hh : ∀ c ∈ ctx'.held, c ∈ ctx.held)
    (ho : ∀ c ∈ ctx'.outqueue, c ∈ ctx.outqueue) (hl : ctx'.log = ctx.log ++ es)
    (hes : ∀ c sec, .offered c sec ∉ es) : Guarding K ctx' := by
  have hsub : ctx.log ⊆ ctx'.log := hl ▸ List.subset_append_left _ _
  refine ⟨hsv.trans hi.client, fun c hc => hi.wellFormed c (hh c hc), ?_, ?_⟩
  · intro c hc
    obtain ⟨c₀, sec₀, hq, hid, hp⟩ := hi.prepared c (ho c hc)
    exact ⟨c₀, sec₀, hsub hq, hid, hp.later hsub⟩
  · intro c sec hoff
    rw [hl] at hoff
    rcases List.mem_append.mp hoff with h | h
    · exact hi.offers c sec h
    · exact absurd h (hes c sec)

theorem Guarding.freePdu (hi : Guarding K ctx) (id : Nat) :
    Guarding K (ctx.freePdu id) := by
  refine hi.of_subset _ rfl (fun c hc => hc) (fun c hc => List.mem_of_mem_filter hc) rfl ?_
  intro c sec h
  obtain ⟨d, _, hd⟩ := List.mem_map.mp h
  cases hd

theorem Guarding.retirePdu (hi : Guarding K ctx) (p : Pdu) :
    Guarding K (ctx.retirePdu p) := by
  unfold Context.retirePdu
  split
  · exact hi.of_subset [] rfl (fun c hc => hc) (fun c hc => hc) (by simp) (by simp)
  · exact (hi.freePdu p.id).of_subset [] rfl (fun c hc => hc) (fun c hc => hc)
      (by simp [Context.noteRelease]) (by simp)

theorem Guarding.emit (hi : Guarding K ctx) {e : Event}
    (he : ∀ c sec, e ≠ .offered c sec) : Guarding K (ctx.emit e) := by
  refine hi.of_subset [e] rfl (fun c hc => hc) (fun c hc => hc) rfl ?_
  intro c sec h
  exact he c sec (List.mem_singleton.mp h).symm

theorem Guarding.unlink (hi : Guarding K ctx) (q : Queue) (id : Nat) :
    Guarding K (ctx.unlink q id) := by
  cases q with
  | out =>
    refine hi.of_subset _ rfl (fun c hc => hc) (fun c hc => List.mem_of_mem_filter hc) rfl ?_
    intro c sec h
    obtain ⟨d, _, hd⟩ := List.mem_map.mp h
    cases hd
  | wait =>
    refine hi.of_subset _ rfl (fun c hc => hc) (fun c hc => hc) rfl ?_
    intro c sec h
    cases List.mem_singleton.mp h

theorem Guarding.quiet (hi : Guarding K ctx) (hq : Quiet G ctx ctx') :
    Guarding K ctx' := by
  obtain ⟨k, ho, _⟩ := hq.out
  obtain ⟨k', hh⟩ := hq.held
  obtain ⟨es, hl, hes⟩ := hq.log
  refine hi.of_subset es hq.isServer ?_ ?_ hl ?_
  · intro c hc
    rw [hh] at hc
    exact List.mem_of_mem_filter hc
  · intro c hc
    rw [ho] at hc
    exact List.mem_of_mem_filter hc
  · intro c sec h
    rcases hes _ h with hn | ⟨_, d, hd⟩
    · cases hn
    · cases hd

/-- A chain is submitted. -/
theorem Guarding.submit {id : Nat} (hi : Guarding K ctx)
    (hc : ctx.findHeld id = some c) (hf : (submitted K ctx id c).fault = none) :
    Guarding K (submitted K ctx id c) := by
  obtain ⟨hmem, _⟩ := Context.findHeld_mem hc
  have hstart : Guarding K ((ctx.dropHeld id).emit (.queued c ctx.security)) :=
    hi.of_subset [.queued c ctx.security] rfl (fun d hd => List.mem_of_mem_filter hd)
      (fun d hd => hd) rfl (fun d sec h => by cases List.mem_singleton.mp h)
  have hprep := preparePdu_prepared (K := K) hstart.client (hi.wellFormed c hmem)
  have htag := Chain.head_eq_of_tags
    (preparePdu_tag (K := K) ((ctx.dropHeld id).emit (.queued c ctx.security)) c)
  rcases preparePdu_quiet (G := True) (K := K) ((ctx.dropHeld id).emit (.queued c ctx.security)) c
    (fun _ => trivial) with hov | hq
  · exact absurd hf hov.fault
  · generalize hx : preparePdu K ((ctx.dropHeld id).emit (.queued c ctx.security)) c = x at *
    have hsub : submitted K ctx id c = { x.1 with
        outqueue := x.1.outqueue ++ [x.2], log := x.1.log ++ [.enqueued x.2] } := by
      simp only [submitted, hx]
    rw [hsub] at hf ⊢
    have hx₁ := hstart.quiet hq
    have hlog : x.1.log ⊆ x.1.log ++ [.enqueued x.2] := List.subset_append_left _ _
    simp only [Pdu.tag, Prod.mk.injEq] at htag
    refine ⟨hx₁.client, hx₁.wellFormed, ?_, ?_⟩
    · intro d hd
      rcases List.mem_append.mp hd with hd | hd
      · obtain ⟨c₀, sec₀, hqd, hid, hp⟩ := hx₁.prepared d hd
        exact ⟨c₀, sec₀, hlog hqd, hid, hp.later hlog⟩
      · rw [List.mem_singleton.mp hd]
        refine ⟨c, ctx.security, hlog (hq.log.subset ?_), htag.1.symm, (hprep hf).later hlog⟩
        exact List.mem_append_right _ (List.mem_singleton.mpr rfl)
    · intro d sec hoff
      rcases List.mem_append.mp hoff with h | h
      · exact hx₁.offers d sec h
      · cases List.mem_singleton.mp h

/-- **A chain is handed to the transport**: it was queued ready for it. -/
theorem Guarding.offer {rest : List Chain} (hi : Guarding K ctx)
    (hq : ctx.outqueue = c :: rest) (hr : Ready (ctx.emit (.offered c ctx.security)).log) :
    Guarding K (ctx.emit (.offered c ctx.security)) := by
  have hsub : ctx.log ⊆ (ctx.emit (.offered c ctx.security)).log := List.subset_append_left _ _
  have hmem : (c, ctx.security) ∈ offeredChains (ctx.emit (.offered c ctx.security)).log :=
    mem_offeredChains.mpr (List.mem_append_right _ (List.mem_singleton.mpr rfl))
  have hdrop : c.frame.drop SPL_SIZE = if c.head.sealed then c.head.crypt else c.octets := by
    unfold Chain.frame
    exact List.drop_left' (by simp [SPL_SIZE])
  refine ⟨hi.client, hi.wellFormed, ?_, ?_⟩
  · intro d hd
    obtain ⟨c₀, sec₀, hqd, hid, hp⟩ := hi.prepared d hd
    exact ⟨c₀, sec₀, hsub hqd, hid, hp.later hsub⟩
  · intro d sec hoff hsid
    rcases List.mem_append.mp hoff with h | h
    · exact hi.offers d sec h hsid
    · obtain ⟨rfl, rfl⟩ := Event.offered.inj (List.mem_singleton.mp h)
      obtain ⟨c₀, sec₀, hqd, hid, hp⟩ := hi.prepared d (hq ▸ List.mem_cons_self ..)
      have hp := hp.later hsub
      have hqd := mem_queuedChains.mpr (hsub hqd)
      constructor
      · intro hseal hcmd
        have hready := (hr _ hqd _ hmem hid hsid hcmd).1 hseal
        obtain ⟨nonce, hsl, hcr⟩ := hp.sealed hready.sealing hready.sealed hready.memory
        refine ⟨nonce, ?_⟩
        rw [hdrop, if_pos hsl, hcr, hready.key, hready.session]
      · intro hplain hsign hcmd
        have hready := (hr _ hqd _ hmem hid hsid hcmd).2 hplain hsign
        refine ⟨?_, ?_⟩
        · rw [hdrop, hp.plain hready.plain]
          rfl
        · rw [← hready.dialect, ← hready.key]
          exact hp.signed hready.sign hready.session hready.sessionKey
            (fun p hpm => ⟨hready.vectors p hpm, hready.memory p hpm⟩)

/-- The transport took a part of the first chain. -/
theorem Guarding.accept {rest : List Chain} (n : Nat)
    (hi : Guarding K ctx) (hq : ctx.outqueue = c :: rest) :
    Guarding K (accepted ctx c rest n) := by
  have hrest : ∀ d ∈ rest, d ∈ ctx.outqueue := by
    intro d hd
    rw [hq]
    exact List.mem_cons_of_mem _ hd
  rcases accepted_eq ctx c rest n with ⟨wire, credits, ledger, he | he⟩ <;> rw [he]
  · exact hi.of_subset [] rfl (fun d hd => hd) hrest (by simp) (by simp)
  · refine ⟨hi.client, hi.wellFormed, ?_, hi.offers⟩
    intro d hd
    rcases List.mem_cons.mp hd with rfl | hd
    · obtain ⟨c₀, sec₀, hqd, hid, hp⟩ := hi.prepared c (hq ▸ List.mem_cons_self ..)
      refine ⟨c₀, sec₀, hqd, hid, hp.sealed, hp.plain, ?_⟩
      intro h₁ h₂ h₃ h₄ p hpm hcmd
      rcases List.mem_cons.mp hpm with rfl | hpm
      · exact hp.signed h₁ h₂ h₃ h₄ c.head (List.mem_cons_self ..) hcmd
      · exact hp.signed h₁ h₂ h₃ h₄ p (List.mem_cons_of_mem _ hpm) hcmd
    · exact hi.prepared d (hrest d hd)

/-- Joining two chains keeps their headers well formed. -/
theorem addCompoundPdu_wellFormed {c next : Chain} (hc : ∀ p ∈ c.members, p.header.WellFormed)
    (hn : ∀ p ∈ next.members, p.header.WellFormed) :
    ∀ p ∈ (addCompoundPdu c next).members, p.header.WellFormed := by
  have hmap : (addCompoundPdu c next).members.map (·.header.WellFormed) =
      c.members.map (·.header.WellFormed) ++ next.members.map (·.header.WellFormed) :=
    addCompoundPdu_map c next
      (fun _ _ _ => propext ⟨fun h => ⟨h.1, h.2⟩, fun h => ⟨h.1, h.2⟩⟩)
      (fun _ _ _ => propext ⟨fun h => ⟨h.1, h.2⟩, fun h => ⟨h.1, h.2⟩⟩)
  intro p hp
  have hw : p.header.WellFormed ∈ (addCompoundPdu c next).members.map (·.header.WellFormed) :=
    List.mem_map_of_mem hp
  rw [hmap, ← List.map_append] at hw
  obtain ⟨p', hp', he⟩ := List.mem_map.mp hw
  rw [← he]
  exact (List.mem_append.mp hp').elim (hc p') (hn p')

/-- **The steps of the queues keep the guard.** -/
theorem Step.guarding (hs : Step K G ctx ctx') (hi : Guarding K ctx)
    (hf : ctx'.fault = none) (hr : Ready ctx'.log) : Guarding K ctx' := by
  cases hs with
  | quiet hq => exact hi.quiet hq
  | crash hc => exact absurd hf hc.fault
  | alloc p hid hn hw =>
    refine ⟨hi.client, ?_, hi.prepared, hi.offers⟩
    intro c hc
    rcases List.mem_append.mp hc with hc | hc
    · exact hi.wellFormed c hc
    · rw [List.mem_singleton.mp hc]
      intro q hq
      rw [List.mem_singleton.mp hq]
      exact hw
  | compound a b c next hc hn =>
    obtain ⟨hmem, _⟩ := Context.findHeld_mem hc
    obtain ⟨hmem', _⟩ := Context.findHeld_mem hn
    refine ⟨hi.client, ?_, hi.prepared, hi.offers⟩
    intro d hd
    rcases List.mem_append.mp hd with hd | hd
    · exact hi.wellFormed d (List.mem_of_mem_filter (List.mem_of_mem_filter hd))
    · rw [List.mem_singleton.mp hd]
      exact addCompoundPdu_wellFormed (hi.wellFormed c hmem)
        (hi.wellFormed next (List.mem_of_mem_filter hmem'))
  | submit id c hc hf₀ hf' => exact hi.submit hc hf'
  | refuse id c hG hc =>
    exact hi.of_subset [.queued c ctx.security] rfl (fun d hd => List.mem_of_mem_filter hd)
      (fun d hd => hd) rfl (fun d sec h => by cases List.mem_singleton.mp h)
  | offer c rest hq => exact hi.offer hq hr
  | accept c rest n hq hlt => exact hi.accept n hq
  | finish q p status hp => exact (hi.unlink q p.id).emit (fun c sec h => by cases h)
  | forgo q p hp hcb => exact (hi.unlink q p.id).freePdu p.id
  | purge id status hd => exact hi.freePdu id

theorem Steps.guarding (hs : Steps K G ctx ctx') (hi : Guarding K ctx)
    (hf : ctx'.fault = none) (hr : Ready ctx'.log) : Guarding K ctx' := by
  induction hs with
  | refl => exact hi
  | tail _ hstep ih =>
    have hk := hstep.keeps.grows
    exact hstep.guarding (ih (hk.fault hf) (hr.earlier hk.log)) hf hr

theorem Guarding.matched (hi : Guarding K ctx) (hdr : Header) :
    Guarding K (matchReply ctx hdr).ctx := by
  have hsame : ∀ {d d' : Context}, Guarding K d → d'.isServer = d.isServer → d'.held = d.held →
      d'.outqueue = d.outqueue → d'.log = d.log → Guarding K d' := by
    intro d d' hd hsv hh ho hl
    exact hd.of_subset [] hsv (fun c hc => hh ▸ hc) (fun c hc => ho ▸ hc) (by simp [hl]) (by simp)
  have hdrop : Guarding K (dropPdu ctx) := by
    unfold dropPdu
    split
    · rename_i q _
      exact hsame (hi.freePdu q.id) rfl rfl rfl rfl
    · exact hi
  unfold matchReply
  split
  · split
    · exact hi
    · simp only [Context.allocatePdu]
      by_cases hm : ctx.allocOk = true
      · simp only [hm, if_true]
        exact hsame hi rfl rfl rfl rfl
      · simp only [hm]
        exact hsame hi rfl rfl rfl rfl
  · unfold claimPdu
    split
    · exact hdrop
    · split
      · exact hsame hdrop rfl rfl rfl rfl
      · exact hsame hdrop rfl rfl rfl rfl

/-- **Reading keeps the guard.** -/
theorem CtxStep.guarding (hs : CtxStep (appHooks K D) I ctx ctx')
    (hi : Guarding K ctx) (hf : ctx'.fault = none) (hr : Ready ctx'.log) : Guarding K ctx' := by
  have hinvoke : ∀ (p : Pdu) (status : Nat), (invokeCallback K p status ctx).fault = none →
      Ready (invokeCallback K p status ctx).log → Guarding K (invokeCallback K p status ctx) := by
    intro p status hf hr
    have hrun := invokeCallback_steps (K := K) (G := True) p status ctx (fun _ => trivial)
    exact hrun.guarding (hi.emit (fun c sec h => by cases h)) hf hr
  cases hs with
  | note hdr =>
    obtain ⟨cur, mid, he⟩ := noteHeader_eq ctx hdr
    rw [he]
    exact hi.of_subset [] rfl (fun c hc => hc) (fun c hc => hc) (by simp) (by simp)
  | grant hdr =>
    unfold grantCredits
    split
    · exact hi
    · exact hi.of_subset [] rfl (fun c hc => hc) (fun c hc => hc) (List.append_nil _).symm (by simp)
  | adopt p hdr hsv hp =>
    exact hi.of_subset [] rfl (fun c hc => hc) (fun c hc => hc) (by simp) (by simp)
  | matched hdr hc hp => exact hi.matched hdr
  | decoded p d hp =>
    obtain ⟨_, _, _, _, he⟩ := applyEffects_eq ctx d.effects
    simp only [applyDecoded, he]
    exact hi.of_subset [] rfl (fun c hc => hc) (fun c hc => hc) (by simp) (by simp)
  | opened => exact hi.emit (fun c sec h => by cases h)
  | replied rx p hc hp hcb hst hap =>
    have hk := retirePdu_grows (invokeCallback K p rx.hdr.status ctx) p
    have hcall := hinvoke p rx.hdr.status (hk.fault hf) (hr.earlier hk.log)
    exact (hcall.retirePdu p).of_subset [] rfl (fun c hc => hc) (fun c hc => hc)
      (by simp [afterReply, appHooks]) (by simp)
  | served rx p hsv hp hcb =>
    rw [hi.client] at hsv
    cases hsv
  | interim rx p hpt hfind hcb hn => exact hinvoke p rx.hdr.status hf hr

theorem guarding_invariant : Invariant K D G Ready (Guarding K) where
  earlier h hp := hp.earlier h
  step hs hi hf hp := hs.guarding hi hf hp
  recv hs _ _ hi hf hp := hs.guarding hi hf hp

end

/-- **Protection is never dropped silently**: every chain that a client with a session hands
to the transport is sealed as a whole or signed member by member, as the context demands
then, if every chain was queued ready for it. -/
theorem offers_are_protected (K : Crypto) (D : Decoders) (s : Session) (ops : List Op)
    (hb : Blank s) (hc : s.ctx.isServer = false) (hf : (runOps K D s ops).ctx.fault = none)
    (hr : Ready (runOps K D s ops).ctx.log) (c : Chain) (sec : Security)
    (ho : .offered c sec ∈ (runOps K D s ops).ctx.log) (hs : sec.sessionId ≠ 0) :
    Protected K sec c := by
  have hblank : Guarding K s.ctx := by
    refine ⟨hc, ?_, ?_, ?_⟩
    · simp [hb.held]
    · simp [hb.outqueue]
    · simp [hb.log]
  have hrun := runOps_steady (guarding_invariant (K := K) (D := D) (G := True)) ops s
    (fun _ => trivial) (fun _ _ _ => hc) (hb.steady hblank) hf hr
  exact hrun.1.inv.offers c sec ho hs

/-! ## A compound that is sealed, and one that is not -/

/-- A client that seals, with this memory. -/
def sealingClient (mem : List Bool) : Session where
  smb2 := { ctx := {
    dialect := VERSION_0302
    sealing := true
    sessionId := 0x1122
    sessionKey := le 16 0x100f0e0d0c0b0a090807060504030201
    signingKey := le 16 7
    serverinKey := le 16 8
    serveroutKey := le 16 9
    credits := 10
    env := { mem := mem, tx := [.accept 1000] } } }

/-- Two echo requests, sent as a compound. -/
def sendCompound : List Op := [allocEcho 1, allocEcho 2, .act (.compound 1 2), .act (.queue 1)]

theorem sealingClient_blank (mem : List Bool) : Blank (sealingClient mem) :=
  ⟨rfl, rfl, rfl, rfl, rfl, rfl, rfl, rfl⟩

/-- What this client hands to the transport is sealed. -/
theorem compound_is_sealed :
    (∀ c sec, .offered c sec ∈
        (runOps echoCrypto plainDecoders (sealingClient [true, true, true]) sendCompound).ctx.log →
      sec.sessionId ≠ 0 → Protected echoCrypto sec c) ∧
    (offeredChains (runOps echoCrypto plainDecoders (sealingClient [true, true, true])
      sendCompound).ctx.log).map (fun x => (x.1.ids, x.2.sessionId, x.2.sealing)) =
        [([1, 2], 0x1122, true)] := by
  refine ⟨?_, by decide +kernel⟩
  exact offers_are_protected echoCrypto plainDecoders (sealingClient [true, true, true])
    sendCompound (sealingClient_blank _) rfl (by decide +kernel) (by decide +kernel)

/-- **Without memory for the cipher text the compound is sent in plain text.** -/
theorem plain_text_without_memory :
    Blank (sealingClient [true, true, false]) ∧
    (runOps echoCrypto plainDecoders (sealingClient [true, true, false]) sendCompound).ctx.fault =
      none ∧
    ∃ c sec, .offered c sec ∈ (runOps echoCrypto plainDecoders (sealingClient [true, true, false])
        sendCompound).ctx.log ∧
      sec.sessionId ≠ 0 ∧ sec.sealing = true ∧ c.frame.drop SPL_SIZE = c.octets ∧
      ¬ Protected echoCrypto sec c := by
  refine ⟨sealingClient_blank _, by decide +kernel, ?_⟩
  have hsent : ∃ x ∈ offeredChains (runOps echoCrypto plainDecoders
      (sealingClient [true, true, false]) sendCompound).ctx.log, x.2.sessionId ≠ 0 ∧
      x.2.sealing = true ∧ x.1.frame.drop SPL_SIZE = x.1.octets ∧
      (x.1.octets.take 4 = Header.smb2sign) ∧
      ∃ p ∈ x.1.members, p.header.command.protectable = true := by
    decide +kernel
  obtain ⟨⟨c, sec⟩, hx, hsid, hseal, hplain, hmagic, hcmd⟩ := hsent
  refine ⟨c, sec, mem_offeredChains.mp hx, hsid, hseal, hplain, ?_⟩
  intro hprot
  obtain ⟨nonce, he⟩ := hprot.sealing hseal hcmd
  -- a sealed frame opens with another magic number
  rw [hplain] at he
  rw [he] at hmagic
  simp [sealOctets, Header.smb3tfrm, Header.smb2sign] at hmagic

end Libsmb2
