import Libsmb2.Lifecycle.Protection

/-!
# Chains of replies

`smb2_queue_pdu` on a server: every member of the chain is matched with the waiting request
that it answers (`smb2_correlate_reply`) and its header is encoded.  The loop runs over the
members with `p`, but sets the flags of a reply through `pdu`, that is, on the head of the chain
in every iteration.

* `replies_are_marked` — a chain goes out as it should if the members behind its head carry the
  flags already, and, if each member has a request of its own, only then;
* `second_reply_is_not_marked` — a chain that does not.
-/

set_option autoImplicit false

namespace Libsmb2

open Util

/-- `smb2_queue_pdu` frees a reply that has no message id. -/
def Context.refusesReply (ctx : Context) (c : Chain) : Bool :=
  ctx.isServer && c.head.header.messageId = 0 && c.head.header.command != .negotiate

/-- What `smb2_queue_pdu` passes to `smb2_add_to_outqueue`. -/
def queuedReply (K : Crypto) (ctx : Context) (c : Chain) : Option (Context × Chain) :=
  if ctx.refusesReply c then none
  else
    let x := preparePdu K (ctx.emit (.queued c ctx.security)) c
    if x.1.fault = none then some x else none

/-- The first 48 octets of a request are those of its header: all fields but the signature. -/
def Pdu.Encoded (p : Pdu) : Prop := slice (p.out.headD []) 0 48 = slice p.header.encode 0 48

/-- A reply was sent as `p'`, to the request that waited for it. -/
structure SentReply (ctx : Context) (p p' : Pdu) : Prop where
  encoded : p'.Encoded
  redir : p'.header.hasFlag FLAGS_SERVER_TO_REDIR = true
  async : p'.header.status = STATUS_PENDING → p'.header.hasFlag FLAGS_ASYNC_COMMAND = true
  request : ∃ req, ctx.findPdu p.header.messageId = some req ∧
    p'.header.messageId = req.header.messageId ∧
    (p'.header.command = .treeConnect ∨ p'.header.hasFlag FLAGS_ASYNC_COMMAND = true ∨
      p'.header.treeId = req.header.treeId)

/-- The chain is queued, each member is sent as a reply to its request, and the requests that
leave the wait queue are those that got their final reply. -/
def RepliesSent (K : Crypto) (ctx : Context) (c : Chain) : Prop :=
  ∃ ctx' c', queuedReply K ctx c = some (ctx', c') ∧
    List.Forall₂ (SentReply ctx) c.members c'.members ∧
    ∀ q ∈ ctx.waitqueue, q.id ∉ (queuePdu K ctx c).waitqueue.map Pdu.id ↔
      ∃ p ∈ c.members, p.header.status ≠ STATUS_PENDING ∧
        ctx.findPdu p.header.messageId = some q

/-- The members all answer a waiting request, and none does so after the final reply. -/
structure AnswersWaiting (ctx : Context) (c : Chain) : Prop where
  waiting : ∀ p ∈ c.members, (ctx.findPdu p.header.messageId).isSome = true
  once : c.members.Pairwise fun p p' =>
    p.header.status ≠ STATUS_PENDING → p.header.messageId ≠ p'.header.messageId

/-- The head has a message id, the members behind it carry the flags of a reply already, and a
chain that is sealed fits its buffer. -/
structure MarkedBehind (ctx : Context) (c : Chain) : Prop where
  named : c.head.header.messageId ≠ 0 ∨ c.head.header.command = .negotiate
  redir : ∀ p ∈ c.rest, p.header.hasFlag FLAGS_SERVER_TO_REDIR = true
  async : ∀ p ∈ c.rest, p.header.status = STATUS_PENDING →
    p.header.hasFlag FLAGS_ASYNC_COMMAND = true
  fits : ctx.sealing = true → c.head.sealed = true →
    TRANSFORM_HEADER_SIZE + c.octets.length < 4294967296

/-- The fields that are arrays in the source have their length. -/
structure Pdu.Formed (p : Pdu) : Prop where
  header : p.header.WellFormed
  out : ∃ v vs, p.out = v :: vs ∧ v.length = HEADER_SIZE

/-! ## Flags -/

theorem Header.hasFlag_setFlag (h : Header) (f g : Nat) :
    (h.setFlag f).hasFlag g = (h.hasFlag g || (f &&& g != 0)) := by
  simp only [Header.hasFlag, Header.setFlag, Nat.and_or_distrib_right]
  rw [Bool.eq_iff_iff]
  simp only [bne_iff_ne, Bool.or_eq_true, ne_eq, Nat.or_eq_zero_iff]
  exact Classical.not_and_iff_not_or_not

/-! ## The header of a reply and its octets -/

/-- A field between two others is overwritten. -/
theorem patch_between (a : Bytes) {b : Bytes} (c : Bytes) {new : Bytes}
    (h : b.length = new.length) : patch (a ++ (b ++ c)) a.length new = a ++ (new ++ c) := by
  have htake : (a ++ (b ++ c)).take a.length = a := List.take_left
  have hdrop : (a ++ (b ++ c)).drop (a.length + new.length) = c := by
    rw [← List.append_assoc, ← h, ← List.length_append, List.drop_left]
  simp only [patch, htake, hdrop, List.append_assoc]

/-- Setting a flag overwrites the field of the flags. -/
theorem Header.encode_setFlag {h : Header} (hw : h.WellFormed) (f : Nat) :
    (h.setFlag f).encode = patch h.encode 16 (le 4 (h.flags ||| f)) := by
  have hp := hw.protocolId
  have hsplit : ∀ g : Header, g.encode = (g.protocolId ++ le 2 g.structSize ++
      le 2 g.creditCharge ++ le 4 g.status ++ le 2 g.command.code ++
      le 2 g.creditRequestResponse) ++ (le 4 g.flags ++ (le 4 g.nextCommand ++ (le 8 g.messageId ++
        (le 4 g.processId ++ (le 4 g.treeId ++ (le 8 g.sessionId ++ g.signature)))))) := by
    intro g
    simp only [Header.encode, List.append_assoc]
  have hlen : (h.protocolId ++ le 2 h.structSize ++ le 2 h.creditCharge ++ le 4 h.status ++
      le 2 h.command.code ++ le 2 h.creditRequestResponse).length = 16 := by
    simp only [List.length_append, length_le, hp]
  have hwidth : (le 4 h.flags).length = (le 4 (h.flags ||| f)).length := by
    simp only [length_le]
  have hpatch := patch_between (h.protocolId ++ le 2 h.structSize ++ le 2 h.creditCharge ++
      le 4 h.status ++ le 2 h.command.code ++ le 2 h.creditRequestResponse)
    (le 4 h.nextCommand ++ (le 8 h.messageId ++ (le 4 h.processId ++ (le 4 h.treeId ++
      (le 8 h.sessionId ++ h.signature))))) hwidth
  rw [hlen] at hpatch
  rw [hsplit, hsplit h, hpatch]
  rfl

/-- The signature is behind the first 48 octets. -/
theorem Header.encode_front {h : Header} (hw : h.WellFormed) : ∃ front : Bytes,
    front.length = 48 ∧ ∀ sig, ({ h with signature := sig } : Header).encode = front ++ sig := by
  refine ⟨h.protocolId ++ le 2 h.structSize ++ le 2 h.creditCharge ++ le 4 h.status ++
    le 2 h.command.code ++ le 2 h.creditRequestResponse ++ le 4 h.flags ++ le 4 h.nextCommand ++
    le 8 h.messageId ++ le 4 h.processId ++ le 4 h.treeId ++ le 8 h.sessionId, ?_, ?_⟩
  · simp only [List.length_append, length_le, hw.protocolId]
  · intro sig
    simp only [Header.encode, List.append_assoc]

theorem Header.encode_putSignature {h : Header} (hw : h.WellFormed) (sig : Bytes) :
    slice ({ h with signature := sig } : Header).encode 0 48 = slice h.encode 0 48 := by
  obtain ⟨front, hlen, hfront⟩ := Header.encode_front hw
  have hself : h.encode = front ++ h.signature := hfront h.signature
  rw [hfront, hself, slice_append_left (by omega), slice_append_left (by omega)]

/-- A member that has just been encoded, and signed or not: its first vector is the header as it
is now, and no vector has changed its length. -/
structure Pdu.Signs (p p' : Pdu) : Prop where
  encoded : p'.Encoded
  length : p'.octets.length = p.octets.length
  messageId : p'.header.messageId = p.header.messageId
  status : p'.header.status = p.header.status
  command : p'.header.command = p.header.command
  treeId : p'.header.treeId = p.header.treeId
  sealed : p'.sealed = p.sealed
  redir : p'.header.hasFlag FLAGS_SERVER_TO_REDIR = p.header.hasFlag FLAGS_SERVER_TO_REDIR
  async : p'.header.hasFlag FLAGS_ASYNC_COMMAND = p.header.hasFlag FLAGS_ASYNC_COMMAND

variable {p q p' : Pdu}

theorem Pdu.Signs.refl {vs : List Bytes} (hout : p.out = p.header.encode :: vs) :
    p.Signs p := by
  refine ⟨?_, rfl, rfl, rfl, rfl, rfl, rfl, rfl, rfl⟩
  show slice (p.out.headD []) 0 48 = slice p.header.encode 0 48
  rw [hout]
  rfl

theorem markSigned_signs (hw : p.header.WellFormed) {vs : List Bytes}
    (hout : p.out = p.header.encode :: vs) :
    p.Signs p.markSigned ∧ p.markSigned.out = p.markSigned.header.encode :: vs := by
  have hv := Header.length_encode hw
  have henc : p.markSigned.out = p.markSigned.header.encode :: vs := by
    show patchHead p.out 16 (le 4 (p.header.setFlag FLAGS_SIGNED).flags) =
      (p.header.setFlag FLAGS_SIGNED).encode :: vs
    rw [hout, Header.encode_setFlag hw]
    rfl
  refine ⟨⟨?_, ?_, rfl, rfl, rfl, rfl, rfl, ?_, ?_⟩, henc⟩
  · show slice (p.markSigned.out.headD []) 0 48 = slice p.markSigned.header.encode 0 48
    rw [henc]
    rfl
  · have hw' : p.markSigned.header.WellFormed := hw.setFlag FLAGS_SIGNED
    simp only [Pdu.octets, henc, hout, List.flatten_cons, List.length_append, hv,
      Header.length_encode hw']
  · show (p.header.setFlag FLAGS_SIGNED).hasFlag FLAGS_SERVER_TO_REDIR = _
    rw [Header.hasFlag_setFlag]
    exact Bool.or_false _
  · show (p.header.setFlag FLAGS_SIGNED).hasFlag FLAGS_ASYNC_COMMAND = _
    rw [Header.hasFlag_setFlag]
    exact Bool.or_false _

/-- The octets of the signature are overwritten. -/
theorem Pdu.Signs.patchSignature (h : p.Signs p') {v : Bytes} {vs : List Bytes}
    (hout : p'.out = v :: vs) (hv : v.length = HEADER_SIZE) {sig : Bytes}
    (hsig : sig.length = SIGNATURE_SIZE) :
    p.Signs { p' with out := patch v 48 sig :: vs } := by
  refine ⟨?_, ?_, h.messageId, h.status, h.command, h.treeId, h.sealed, h.redir, h.async⟩
  · have henc : slice (p'.out.headD []) 0 48 = slice p'.header.encode 0 48 := h.encoded
    rw [hout] at henc
    show slice (patch v 48 sig) 0 48 = slice p'.header.encode 0 48
    rw [slice_patch_before (by omega) (by rw [hv, HEADER_SIZE]; omega)]
    exact henc
  · have hlen := h.length
    simp only [Pdu.octets, hout, List.flatten_cons, List.length_append] at hlen ⊢
    rw [length_patch (by rw [hv, hsig, HEADER_SIZE, SIGNATURE_SIZE])]
    exact hlen

theorem pduAddSignature_signs (K : Crypto) (ctx : Context) (hw : p.header.WellFormed)
    {vs : List Bytes} (hout : p.out = p.header.encode :: vs) :
    p.Signs (pduAddSignature K ctx p).2.1 := by
  have hself : p.Signs p := .refl hout
  obtain ⟨hmark, hmarkOut⟩ := markSigned_signs hw hout
  have hlen : p.markSigned.header.encode.length = HEADER_SIZE :=
    Header.length_encode (hw.setFlag FLAGS_SIGNED)
  have hclear := hmark.patchSignature hmarkOut hlen (length_zeros SIGNATURE_SIZE)
  have hclearOut : clearSignature p.markSigned.out =
      patch p.markSigned.header.encode 48 (zeros SIGNATURE_SIZE) :: vs := by
    rw [hmarkOut]
    rfl
  have hput : ∀ sig : Bytes, sig.length = SIGNATURE_SIZE →
      p.Signs (p.markSigned.putSignature sig) := by
    intro sig hsig
    have hzero : (patch p.markSigned.header.encode 48 (zeros SIGNATURE_SIZE)).length =
        HEADER_SIZE := by
      rw [length_patch (by rw [hlen, length_zeros, HEADER_SIZE, SIGNATURE_SIZE])]
      exact hlen
    have h := hclear.patchSignature rfl hzero hsig
    have hfin : (p.markSigned.putSignature sig).out =
        patch (patch p.markSigned.header.encode 48 (zeros SIGNATURE_SIZE)) 48 sig :: vs := by
      show patchHead (clearSignature p.markSigned.out) 48 sig = _
      rw [hclearOut]
      rfl
    refine ⟨?_, ?_, h.messageId, h.status, h.command, h.treeId, h.sealed, h.redir, h.async⟩
    · have henc := h.encoded
      show slice ((p.markSigned.putSignature sig).out.headD []) 0 48 = _
      rw [hfin]
      exact henc.trans (Header.encode_putSignature (hw.setFlag FLAGS_SIGNED) sig).symm
    · have hl := h.length
      simp only [Pdu.octets] at hl ⊢
      rw [hfin]
      exact hl
  refine pduAddSignature_cases K ctx p ?_ ?_ ?_ ?_
  · intro _
    exact hself
  · exact hput _ (length_signature K _ _ _)
  · exact hput _ (length_signature K _ _ _)
  · have h := hclear
    rw [← hclearOut] at h
    exact h

theorem signMember_signs (K : Crypto) (ctx : Context) (hw : p.header.WellFormed)
    {vs : List Bytes} (hout : p.out = p.header.encode :: vs) :
    p.Signs (signMember K ctx p).2 := by
  unfold signMember
  split
  · exact pduAddSignature_signs K ctx hw hout
  · exact .refl hout

/-! ## The requests that wait -/

/-- The interim reply to a request, as `smb2_correlate_reply` recognises it. -/
def Pdu.interim (p : Pdu) : Bool :=
  p.header.hasFlag FLAGS_ASYNC_COMMAND && p.header.status = STATUS_PENDING

/-- A waiting request that may have been marked as asynchronous: the mark goes where the tree
id was. -/
structure MarkedAs (q q' : Pdu) : Prop where
  id : q'.id = q.id
  messageId : q'.header.messageId = q.header.messageId
  tree : q'.header.hasFlag FLAGS_ASYNC_COMMAND = true ∨ q'.header.treeId = q.header.treeId

/-- What is left of the wait queue `l`: some requests are gone, others are marked. -/
def Thinned (l l' : List Pdu) : Prop :=
  ∃ (keep : Pdu → Bool) (mark : Pdu → Pdu), (∀ q, MarkedAs q (mark q)) ∧
    l' = (l.filter keep).map mark

theorem Thinned.refl (l : List Pdu) : Thinned l l :=
  ⟨fun _ => true, fun q => q, fun _ => ⟨rfl, rfl, .inr rfl⟩, by simp⟩

/-- The first match is still the first where it is kept. -/
theorem find?_filter_of_kept {α : Type} {l : List α} {f keep : α → Bool} {a : α}
    (h : l.find? f = some a) (hk : keep a = true) : (l.filter keep).find? f = some a := by
  rw [List.find?_filter]
  rw [List.find?_eq_some_iff_append] at h ⊢
  obtain ⟨hf, pre, post, rfl, hpre⟩ := h
  refine ⟨by simp [hk, hf], pre, post, rfl, ?_⟩
  intro x hx
  have hx' : f x = false := by simpa using hpre x hx
  simp [hx']

theorem eq_of_id_eq {l : List Pdu} (hids : (l.map Pdu.id).Nodup) {q r : Pdu} (hq : q ∈ l)
    (hr : r ∈ l) (h : q.id = r.id) : q = r :=
  List.inj_on_of_nodup_map hids hq hr h

/-- A request that still waits is found under its message id. -/
theorem Thinned.find {l l' : List Pdu} (ht : Thinned l l') (hids : (l.map Pdu.id).Nodup)
    {mid : Nat} (hq : l.find? (fun p => p.header.messageId == mid) = some q)
    (hin : q.id ∈ l'.map Pdu.id) :
    ∃ q', l'.find? (fun p => p.header.messageId == mid) = some q' ∧ MarkedAs q q' := by
  obtain ⟨keep, mark, hmark, rfl⟩ := ht
  have hkeep : keep q = true := by
    obtain ⟨q', hq', hid⟩ := List.mem_map.mp hin
    obtain ⟨r, hr, rfl⟩ := List.mem_map.mp hq'
    obtain ⟨hrl, hrk⟩ := List.mem_filter.mp hr
    have hrq : r = q := eq_of_id_eq hids hrl (List.mem_of_find?_eq_some hq)
      ((hmark r).id.symm.trans hid)
    rw [← hrq]
    exact hrk
  refine ⟨mark q, ?_, hmark q⟩
  have hsame : ((fun p : Pdu => p.header.messageId == mid) ∘ mark) =
      fun p : Pdu => p.header.messageId == mid := by
    funext p
    simp only [Function.comp_apply, (hmark p).messageId]
  rw [List.find?_map, hsame, find?_filter_of_kept hq hkeep]
  rfl

/-- The requests are marked once more. -/
theorem Thinned.mark {l l' : List Pdu} (ht : Thinned l l') {f : Pdu → Pdu}
    (hf : ∀ q, MarkedAs q (f q)) (hflag : ∀ q, q.header.hasFlag FLAGS_ASYNC_COMMAND = true →
      (f q).header.hasFlag FLAGS_ASYNC_COMMAND = true) : Thinned l (l'.map f) := by
  obtain ⟨keep, mark, hmark, rfl⟩ := ht
  refine ⟨keep, fun q => f (mark q), ?_, by rw [List.map_map]; rfl⟩
  intro q
  refine ⟨(hf _).id.trans (hmark q).id, (hf _).messageId.trans (hmark q).messageId, ?_⟩
  rcases (hmark q).tree with ha | htree
  · exact .inl (hflag _ ha)
  · rcases (hf (mark q)).tree with ha | htree'
    · exact .inl ha
    · exact .inr (htree'.trans htree)

/-- A request is gone. -/
theorem Thinned.drop {l l' : List Pdu} (ht : Thinned l l') (id : Nat) :
    Thinned l (l'.filter fun p => p.id != id) := by
  obtain ⟨keep, mark, hmark, rfl⟩ := ht
  refine ⟨fun q => keep q && q.id != id, mark, hmark, ?_⟩
  rw [List.filter_map, List.filter_filter]
  congr 1
  apply List.filter_congr
  intro q _
  simp only [Function.comp_apply, (hmark q).id]
  exact Bool.and_comm _ _

/-! ## One member -/

/-- The reply `p'` that is made of `p` for the request `q`. -/
structure RepliesTo (q p p' : Pdu) : Prop where
  messageId : p'.header.messageId = p.header.messageId
  status : p'.header.status = p.header.status
  command : p'.header.command = p.header.command
  tree : p.header.command = .treeConnect ∨ p'.header.hasFlag FLAGS_ASYNC_COMMAND = true ∨
    p'.header.treeId = q.header.treeId
  redir : p'.header.hasFlag FLAGS_SERVER_TO_REDIR = p.header.hasFlag FLAGS_SERVER_TO_REDIR
  async : p.header.hasFlag FLAGS_ASYNC_COMMAND = true →
    p'.header.hasFlag FLAGS_ASYNC_COMMAND = true

/-- What a reply takes over leaves the rest of it alone. -/
structure SameArrays (p p' : Pdu) : Prop where
  out : p'.out = p.out
  sealed : p'.sealed = p.sealed
  wellFormed : p.header.WellFormed → p'.header.WellFormed

theorem adoptRequest_repliesTo {q q' p : Pdu} (hm : MarkedAs q q')
    (hmid : q'.header.messageId = p.header.messageId)
    (hsync : q'.header.hasFlag FLAGS_ASYNC_COMMAND = false) :
    RepliesTo q p (adoptRequest p q') := by
  refine ⟨hmid, rfl, rfl, ?_, rfl, fun h => h⟩
  by_cases hc : p.header.command = .treeConnect
  · exact .inl hc
  · refine .inr (.inr ?_)
    have htree : (adoptRequest p q').header.treeId = q'.header.treeId := by
      simp only [adoptRequest, hc, if_false]
    rw [htree]
    rcases hm.tree with ha | ht
    · exact absurd (ha.symm.trans hsync) (by decide)
    · exact ht

/-- A reply that is asynchronous in the end. -/
theorem RepliesTo.of_async (hmid : p'.header.messageId = p.header.messageId)
    (hstatus : p'.header.status = p.header.status)
    (hcommand : p'.header.command = p.header.command)
    (hredir : p'.header.hasFlag FLAGS_SERVER_TO_REDIR = p.header.hasFlag FLAGS_SERVER_TO_REDIR)
    (hasync : p'.header.hasFlag FLAGS_ASYNC_COMMAND = true) : RepliesTo q p p' :=
  ⟨hmid, hstatus, hcommand, .inr (.inl hasync), hredir, fun _ => hasync⟩

variable {ctx : Context}

/-- **What correlating a member does**, when its request still waits. -/
theorem correlateReply_spec {l : List Pdu} (hids : (l.map Pdu.id).Nodup)
    (ht : Thinned l ctx.waitqueue)
    (hq : l.find? (fun r => r.header.messageId == p.header.messageId) = some q)
    (hin : q.id ∈ ctx.waitqueue.map Pdu.id) :
    Thinned l (correlateReply ctx p).1.waitqueue ∧
    (∀ r ∈ l, r.id ∈ (correlateReply ctx p).1.waitqueue.map Pdu.id ↔
      r.id ∈ ctx.waitqueue.map Pdu.id ∧ (p.interim = true ∨ r ≠ q)) ∧
    RepliesTo q p (correlateReply ctx p).2 ∧ SameArrays p (correlateReply ctx p).2 := by
  obtain ⟨q', hfind, hm⟩ := ht.find hids hq hin
  have hfind' : ctx.findPdu p.header.messageId = some q' := hfind
  have hmid : q'.header.messageId = p.header.messageId := by
    simpa using List.find?_some hfind
  have hql := List.mem_of_find?_eq_some hq
  have hinterim : ((adoptRequest p q').header.hasFlag FLAGS_ASYNC_COMMAND &&
      decide ((adoptRequest p q').header.status = STATUS_PENDING)) = p.interim := rfl
  unfold correlateReply
  simp only [hfind', hinterim]
  cases hint : p.interim with
  | true =>
    -- the request stays and is marked
    simp only [if_true, true_or, and_true]
    have hflag : p.header.hasFlag FLAGS_ASYNC_COMMAND = true := by
      simp only [Pdu.interim, Bool.and_eq_true] at hint
      exact hint.1
    refine ⟨?_, ?_, ?_, ⟨rfl, rfl, fun hw => ⟨hw.protocolId, hw.signature⟩⟩⟩
    · apply ht.mark
      · intro r
        split
        · refine ⟨rfl, rfl, .inl ?_⟩
          rw [Header.hasFlag_setFlag]
          exact Bool.or_true _
        · exact ⟨rfl, rfl, .inr rfl⟩
      · intro r hr
        split
        · rw [Header.hasFlag_setFlag]
          exact Bool.or_true _
        · exact hr
    · intro r _
      have hsame : (ctx.waitqueue.map fun r : Pdu =>
          if r.id = q'.id then
            { r with header :=
              (r.header.setAsyncId ((ctx.asyncId + 1) % 2 ^ 64)).setFlag FLAGS_ASYNC_COMMAND }
          else r).map Pdu.id = ctx.waitqueue.map Pdu.id := by
        rw [List.map_map]
        apply List.map_congr_left
        intro r _
        simp only [Function.comp_apply]
        split <;> rfl
      rw [hsame]
    · exact .of_async hmid rfl rfl rfl hflag
  | false =>
    simp only [Bool.false_eq_true, if_false, false_or]
    refine ⟨ht.drop q'.id, ?_, ?_⟩
    · intro r hr
      have hne : r ≠ q ↔ r.id ≠ q'.id := by
        rw [hm.id]
        refine not_congr ⟨fun h => h ▸ rfl, fun h => eq_of_id_eq hids hr hql h⟩
      rw [hne]
      simp only [Context.freePdu, List.mem_map, List.mem_filter, bne_iff_ne]
      constructor
      · rintro ⟨s, ⟨hs, hid⟩, hsr⟩
        exact ⟨⟨s, hs, hsr⟩, fun h => hid (hsr.trans h)⟩
      · rintro ⟨⟨s, hs, hsr⟩, hid⟩
        exact ⟨s, ⟨hs, fun h => hid (hsr.symm.trans h)⟩, hsr⟩
    · cases hasync : q'.header.hasFlag FLAGS_ASYNC_COMMAND with
      | true =>
        simp only [if_true]
        refine ⟨.of_async hmid rfl rfl ?_ ?_, ⟨rfl, rfl, fun hw => ⟨hw.protocolId, hw.signature⟩⟩⟩
        · show ((adoptRequest p q').header.setFlag FLAGS_ASYNC_COMMAND).hasFlag
            FLAGS_SERVER_TO_REDIR = _
          rw [Header.hasFlag_setFlag]
          exact Bool.or_false _
        · show ((adoptRequest p q').header.setFlag FLAGS_ASYNC_COMMAND).hasFlag
            FLAGS_ASYNC_COMMAND = true
          rw [Header.hasFlag_setFlag]
          exact Bool.or_true _
      | false =>
        simp only [Bool.false_eq_true, if_false]
        exact ⟨adoptRequest_repliesTo hm hmid hasync,
          ⟨rfl, rfl, fun hw => ⟨hw.protocolId, hw.signature⟩⟩⟩

theorem correlateReply_keeps (ctx : Context) (p : Pdu) :
    (correlateReply ctx p).1.isServer = ctx.isServer ∧
      (correlateReply ctx p).1.fault = ctx.fault ∧
      (correlateReply ctx p).1.sealing = ctx.sealing := by
  unfold correlateReply
  split
  · split <;> exact ⟨rfl, rfl, rfl⟩
  · simp only
    split <;> exact ⟨rfl, rfl, rfl⟩

/-- The reply to `q` as it stands in the chain that goes out. -/
structure MadeFor (q p p' : Pdu) : Prop extends RepliesTo q p p' where
  encoded : p'.Encoded
  length : p'.octets.length = p.octets.length
  sealed : p'.sealed = p.sealed

/-- What the loop of `smb2_queue_pdu` leaves alone on a server. -/
structure SameServer (ctx ctx' : Context) : Prop where
  isServer : ctx'.isServer = ctx.isServer
  fault : ctx'.fault = ctx.fault
  sealing : ctx'.sealing = ctx.sealing

theorem SameServer.trans {a b c : Context} (h₁ : SameServer a b) (h₂ : SameServer b c) :
    SameServer a c :=
  ⟨h₂.isServer.trans h₁.isServer, h₂.fault.trans h₁.fault, h₂.sealing.trans h₁.sealing⟩

section
variable {K : Crypto} {l : List Pdu}

/-- **What one iteration does** to a member whose request still waits. -/
theorem queueMember_spec (hids : (l.map Pdu.id).Nodup) (hs : ctx.isServer = true)
    (ht : Thinned l ctx.waitqueue) (mid : Nat) (hp : p.Formed)
    (hq : l.find? (fun r => r.header.messageId == p.header.messageId) = some q)
    (hin : q.id ∈ ctx.waitqueue.map Pdu.id) :
    SameServer ctx (queueMember K ctx mid p).1 ∧
    Thinned l (queueMember K ctx mid p).1.waitqueue ∧
    (∀ r ∈ l, r.id ∈ (queueMember K ctx mid p).1.waitqueue.map Pdu.id ↔
      r.id ∈ ctx.waitqueue.map Pdu.id ∧ (p.interim = true ∨ r ≠ q)) ∧
    MadeFor q p (queueMember K ctx mid p).2 := by
  obtain ⟨hthin, hleft, hrep, harr⟩ := correlateReply_spec hids ht hq hin
  obtain ⟨hsv, hfault, hsealing⟩ := correlateReply_keeps ctx p
  obtain ⟨v, vs, hout, hv⟩ := hp.out
  have hw := harr.wellFormed hp.header
  have henc : encodeMember ctx mid p = ((correlateReply ctx p).1,
      { (correlateReply ctx p).2 with
        out := (correlateReply ctx p).2.header.encode :: (correlateReply ctx p).2.out.tail }) := by
    simp only [encodeMember, encodeHeader, hs, hsv, if_true]
  simp only [queueMember, henc]
  generalize hx : (correlateReply ctx p).1 = x at hthin hleft hsv hfault hsealing ⊢
  generalize hy : (correlateReply ctx p).2 = y at hrep harr hw ⊢
  have hquiet := signMember_quiet (G := False) (K := K) x
    { y with out := y.header.encode :: y.out.tail }
  obtain ⟨-, hwait, -⟩ := hquiet.same (fun h => h)
  have hsec := signMember_security (K := K) x { y with out := y.header.encode :: y.out.tail }
  have hsigns := signMember_signs K x (p := { y with out := y.header.encode :: y.out.tail }) hw rfl
  refine ⟨⟨hquiet.isServer.trans hsv, hquiet.fault.trans hfault, ?_⟩, ?_, ?_, ?_⟩
  · exact (congrArg Security.sealing hsec).trans hsealing
  · rw [hwait]
    exact hthin
  · rw [hwait]
    exact hleft
  · refine ⟨⟨hsigns.messageId.trans hrep.messageId, hsigns.status.trans hrep.status,
      hsigns.command.trans hrep.command, ?_, hsigns.redir.trans hrep.redir,
      fun h => hsigns.async.trans (hrep.async h)⟩, hsigns.encoded, ?_,
      hsigns.sealed.trans harr.sealed⟩
    · rcases hrep.tree with hc | ha | htree
      · exact .inl hc
      · exact .inr (.inl (hsigns.async.trans ha))
      · exact .inr (.inr (hsigns.treeId.trans htree))
    · rw [hsigns.length]
      simp only [Pdu.octets, harr.out, hout, List.tail_cons, List.flatten_cons,
        List.length_append, hv, Header.length_encode hw]

/-- **What the loop does** to members whose requests wait. -/
theorem queueMembers_spec (hids : (l.map Pdu.id).Nodup) (ps : List Pdu)
    (mid : Nat) (hs : ctx.isServer = true) (ht : Thinned l ctx.waitqueue)
    (hform : ∀ p ∈ ps, p.Formed)
    (hwait : ∀ p ∈ ps, ∃ q, l.find? (fun r => r.header.messageId == p.header.messageId) = some q ∧
      q.id ∈ ctx.waitqueue.map Pdu.id)
    (honce : ps.Pairwise fun p p' =>
      p.interim = false → p.header.messageId ≠ p'.header.messageId) :
    SameServer ctx (queueMembers K ctx mid ps).1 ∧
    (∀ r ∈ l, r.id ∈ (queueMembers K ctx mid ps).1.waitqueue.map Pdu.id ↔
      r.id ∈ ctx.waitqueue.map Pdu.id ∧ ¬∃ p ∈ ps, p.interim = false ∧
        l.find? (fun s => s.header.messageId == p.header.messageId) = some r) ∧
    List.Forall₂ (fun p p' => ∃ q, l.find? (fun r => r.header.messageId == p.header.messageId) =
      some q ∧ MadeFor q p p') ps (queueMembers K ctx mid ps).2 := by
  induction ps generalizing ctx mid with
  | nil =>
    refine ⟨⟨rfl, rfl, rfl⟩, ?_, .nil⟩
    intro r _
    simp [queueMembers]
  | cons p ps ih =>
    obtain ⟨q, hq, hin⟩ := hwait p (List.mem_cons_self ..)
    obtain ⟨hsame, hthin, hleft, hmade⟩ := queueMember_spec (K := K) hids hs ht mid
      (hform p (List.mem_cons_self ..)) hq hin
    obtain ⟨hone, honce⟩ := List.pairwise_cons.mp honce
    have hwait' : ∀ p' ∈ ps, ∃ q', l.find? (fun r => r.header.messageId ==
        p'.header.messageId) = some q' ∧
        q'.id ∈ (queueMember K ctx mid p).1.waitqueue.map Pdu.id := by
      intro p' hp'
      obtain ⟨q', hq', hin'⟩ := hwait p' (List.mem_cons_of_mem _ hp')
      refine ⟨q', hq', (hleft q' (List.mem_of_find?_eq_some hq')).mpr ⟨hin', ?_⟩⟩
      cases hint : p.interim with
      | true => exact .inl rfl
      | false =>
        -- a request that was answered has another message id
        refine .inr ?_
        rintro rfl
        have h₁ : q'.header.messageId = p.header.messageId := by simpa using List.find?_some hq
        have h₂ : q'.header.messageId = p'.header.messageId := by simpa using List.find?_some hq'
        exact hone p' hp' hint (h₁.symm.trans h₂)
    obtain ⟨hsame', hleft', hmade'⟩ := ih (queueMember K ctx mid p).2.header.messageId
      (hsame.isServer.trans hs) hthin (fun p' hp' => hform p' (List.mem_cons_of_mem _ hp'))
      hwait' honce
    refine ⟨hsame.trans hsame', ?_, .cons ⟨q, hq, hmade⟩ hmade'⟩
    intro r hr
    have hiff : (p.interim = true ∨ r ≠ q) ↔ ¬(p.interim = false ∧
        l.find? (fun s => s.header.messageId == p.header.messageId) = some r) := by
      rw [hq]
      cases p.interim <;> simp [eq_comm]
    refine (hleft' r hr).trans ?_
    rw [hleft r hr, hiff, and_assoc]
    simp only [List.mem_cons, exists_eq_or_imp, not_or]

/-! ## The chain -/

theorem encryptPdu_fault_iff (ctx : Context) (c : Chain) :
    (encryptPdu K ctx c).1.fault = none ↔ ctx.fault = none ∧ (ctx.sealing = true →
      c.head.sealed = true → TRANSFORM_HEADER_SIZE + c.octets.length < 4294967296) := by
  unfold encryptPdu
  cases hs : ctx.sealing with
  | false => simp
  | true =>
    cases hc : c.head.sealed with
    | false => simp
    | true =>
      simp only [Bool.not_true, Bool.false_eq_true, if_false, forall_true_left]
      split
      · rename_i hbig
        refine iff_of_false (fun h => by cases h) ?_
        rintro ⟨_, hfit⟩
        omega
      · rename_i hfit
        have hfit : TRANSFORM_HEADER_SIZE + c.octets.length < 4294967296 := by omega
        split <;> exact ⟨fun h => ⟨h, hfit⟩, fun h => h.1⟩

/-- Sealing leaves the wait queue alone, and of the members everything but the cipher text. -/
theorem encryptPdu_keeps (ctx : Context) (c : Chain) :
    (encryptPdu K ctx c).1.waitqueue = ctx.waitqueue ∧
      (encryptPdu K ctx c).1.isServer = ctx.isServer ∧
      (encryptPdu K ctx c).2.rest = c.rest ∧
      ((encryptPdu K ctx c).2.head.header = c.head.header ∧
        (encryptPdu K ctx c).2.head.out = c.head.out) := by
  refine encryptPdu_cases K ctx c ?_ ?_ ?_ ?_
  · exact ⟨rfl, rfl, rfl, rfl, rfl⟩
  · exact ⟨rfl, rfl, rfl, rfl, rfl⟩
  · exact ⟨rfl, rfl, rfl, rfl, rfl⟩
  · exact ⟨rfl, rfl, rfl, rfl, rfl⟩

/-- A server keeps no sent reply. -/
theorem reply_rule :
    WriteRule (fun ctx => ctx.isServer = true) (fun a b => b.waitqueue = a.waitqueue) where
  idle _ := rfl
  overrun _ := rfl
  blocked _ _ _ := rfl
  taken := by
    intro ctx c rest n tx hs _
    obtain ⟨wire, credits, ledger, he | he⟩ :=
      accepted_eq (ctx.emit (.offered c ctx.security)) c rest n <;> rw [he]
    · exact ⟨hs, fun _ h => h.trans (if_pos hs)⟩
    · exact ⟨hs, fun _ h => h⟩

theorem addToOutqueue_waitqueue (hs : ctx.isServer = true) (c : Chain) :
    (addToOutqueue ctx c).waitqueue = ctx.waitqueue := by
  unfold addToOutqueue
  simp only
  split
  · exact reply_rule.writeToSocket_rel hs
  · rfl

theorem queuePdu_of_queuedReply {ctx ctx' : Context} {c c' : Chain}
    (h : queuedReply K ctx c = some (ctx', c')) : queuePdu K ctx c = addToOutqueue ctx' c' := by
  unfold queuedReply at h
  split at h
  · cases h
  · rename_i hr
    simp only at h
    split at h
    · rename_i hf
      have hx := Option.some.inj h
      have hr' : ¬((ctx.emit (.queued c ctx.security)).isServer &&
          decide (c.head.header.messageId = 0) && c.head.header.command != .negotiate) = true := hr
      unfold queuePdu
      simp only
      rw [if_neg hr']
      rw [if_pos hf, hx]
    · cases h

/-- The octets of a chain are as many as those of its members. -/
theorem length_octets_of_made {c c' : Chain}
    (h : List.Forall₂ (fun p p' : Pdu => p'.octets.length = p.octets.length) c.members c'.members) :
    c'.octets.length = c.octets.length := by
  have hsum : ∀ d : Chain, d.octets.length = (d.members.map fun p => p.octets.length).sum := by
    intro d
    simp only [Chain.octets, List.length_flatten, List.map_map, Function.comp_def]
  rw [hsum, hsum]
  congr 1
  generalize c.members = ps at h
  generalize c'.members = qs at h
  induction h with
  | nil => rfl
  | cons hpq _ ih => simp only [List.map_cons, hpq, ih]

theorem markReply_formed (h : p.Formed) : (markReply p).Formed := by
  obtain ⟨v, vs, hout, hv⟩ := h.out
  refine ⟨?_, v, vs, hout, hv⟩
  unfold markReply
  simp only
  split
  · exact (h.header.setFlag _).setFlag _
  · exact h.header.setFlag _

/-- The head of a chain carries the flags it should. -/
theorem markReply_flags (p : Pdu) :
    (markReply p).header.hasFlag FLAGS_SERVER_TO_REDIR = true ∧
      (p.header.status = STATUS_PENDING →
        (markReply p).header.hasFlag FLAGS_ASYNC_COMMAND = true) := by
  have hredir : (p.header.setFlag FLAGS_SERVER_TO_REDIR).hasFlag FLAGS_SERVER_TO_REDIR = true := by
    rw [Header.hasFlag_setFlag]
    exact Bool.or_true _
  unfold markReply
  simp only
  split
  · refine ⟨?_, fun _ => ?_⟩
    · rw [Header.hasFlag_setFlag, hredir]
      rfl
    · rw [Header.hasFlag_setFlag]
      exact Bool.or_true _
  · rename_i hstatus
    exact ⟨hredir, fun h => absurd h hstatus⟩

theorem markReply_keeps (p : Pdu) : (markReply p).header.messageId = p.header.messageId ∧
    (markReply p).header.status = p.header.status ∧
    (markReply p).header.command = p.header.command ∧ (markReply p).octets = p.octets ∧
    (markReply p).sealed = p.sealed := by
  unfold markReply
  simp only
  split <;> exact ⟨rfl, rfl, rfl, rfl, trivial⟩

/-- The interim replies are the heads with that status, and what carries the flag. -/
theorem markReply_interim (p : Pdu) :
    (markReply p).interim = decide (p.header.status = STATUS_PENDING) := by
  unfold Pdu.interim
  rw [(markReply_keeps p).2.1]
  by_cases hs : p.header.status = STATUS_PENDING
  · rw [(markReply_flags p).2 hs]
    rfl
  · simp only [hs, decide_false, Bool.and_false]

theorem preparePdu_server (hs : ctx.isServer = true) (c : Chain) : ∃ h t,
    (queueMembers K ctx 0 (markReply c.head :: c.rest)).2 = h :: t ∧ preparePdu K ctx c =
      encryptPdu K (queueMembers K ctx 0 (markReply c.head :: c.rest)).1 ⟨h, t⟩ := by
  refine ⟨(queueMember K ctx 0 (markReply c.head)).2, (queueMembers K
    (queueMember K ctx 0 (markReply c.head)).1
    (queueMember K ctx 0 (markReply c.head)).2.header.messageId c.rest).2, ?_, ?_⟩
  · simp only [queueMembers]
  · simp only [preparePdu, queueMembers, hs, if_true]

/-- **What `smb2_queue_pdu` makes of a chain of replies** whose requests wait until they get a
reply that is not an interim one. -/
theorem queuedReply_spec {c : Chain} (hs : ctx.isServer = true)
    (hf : ctx.fault = none) (hids : (ctx.waitqueue.map Pdu.id).Nodup)
    (hform : ∀ p ∈ c.members, p.Formed)
    (hwait : ∀ p ∈ c.members, (ctx.findPdu p.header.messageId).isSome = true)
    (honce : (markReply c.head :: c.rest).Pairwise fun p p' =>
      p.interim = false → p.header.messageId ≠ p'.header.messageId)
    (hnamed : ctx.refusesReply c = false) :
    ((queuedReply K ctx c).isSome = true ↔ (ctx.sealing = true → c.head.sealed = true →
      TRANSFORM_HEADER_SIZE + c.octets.length < 4294967296)) ∧
    ∀ ctx' c', queuedReply K ctx c = some (ctx', c') →
      (∀ r ∈ ctx.waitqueue, r.id ∈ (queuePdu K ctx c).waitqueue.map Pdu.id ↔
        ¬∃ p ∈ markReply c.head :: c.rest, p.interim = false ∧
          ctx.findPdu p.header.messageId = some r) ∧
      List.Forall₂ (fun p p' => p'.Encoded ∧ ∃ q, ctx.findPdu p.header.messageId = some q ∧
        RepliesTo q p p') (markReply c.head :: c.rest) c'.members := by
  obtain ⟨hkmid, hkstatus, hkcommand, hkoctets, hksealed⟩ := markReply_keeps c.head
  have hform' : ∀ p ∈ markReply c.head :: c.rest, p.Formed := by
    intro p hp
    rcases List.mem_cons.mp hp with rfl | hp
    · exact markReply_formed (hform _ (List.mem_cons_self ..))
    · exact hform p (List.mem_cons_of_mem _ hp)
  have hwait' : ∀ p ∈ markReply c.head :: c.rest, ∃ q,
      ctx.findPdu p.header.messageId = some q ∧ q.id ∈ ctx.waitqueue.map Pdu.id := by
    intro p hp
    have hsome : (ctx.findPdu p.header.messageId).isSome = true := by
      rcases List.mem_cons.mp hp with rfl | hp
      · rw [hkmid]
        exact hwait _ (List.mem_cons_self ..)
      · exact hwait p (List.mem_cons_of_mem _ hp)
    obtain ⟨q, hq⟩ := Option.isSome_iff_exists.mp hsome
    exact ⟨q, hq, List.mem_map_of_mem (List.mem_of_find?_eq_some hq)⟩
  have hs' : (ctx.emit (.queued c ctx.security)).isServer = true := hs
  obtain ⟨hsame, hleft, hmade⟩ := queueMembers_spec (K := K) hids (markReply c.head :: c.rest) 0
    hs' (.refl _) hform' hwait' honce
  obtain ⟨h, t, hmembers, hprep⟩ := preparePdu_server (K := K) hs' c
  generalize queueMembers K (ctx.emit (.queued c ctx.security)) 0
    (markReply c.head :: c.rest) = x at hsame hleft hmade hprep hmembers
  rw [hmembers] at hmade
  obtain ⟨hheadMade, hrestMade⟩ := List.forall₂_cons.mp hmade
  obtain ⟨hwaitq, hsv, hrest, hhead, hhout⟩ := encryptPdu_keeps (K := K) x.1 ⟨h, t⟩
  have hoct : (Chain.octets ⟨h, t⟩).length = c.octets.length := by
    apply length_octets_of_made
    refine .cons ?_ ?_
    · obtain ⟨q, -, hm⟩ := hheadMade
      rw [hm.length, hkoctets]
    · exact hrestMade.imp fun _ _ ⟨_, _, hm⟩ => hm.length
  have hseal : h.sealed = c.head.sealed := by
    obtain ⟨q, -, hm⟩ := hheadMade
    exact hm.sealed.trans hksealed
  have hquiet : (preparePdu K (ctx.emit (.queued c ctx.security)) c).1.fault = none ↔
      (ctx.sealing = true → c.head.sealed = true →
        TRANSFORM_HEADER_SIZE + c.octets.length < 4294967296) := by
    rw [hprep, encryptPdu_fault_iff, hoct]
    have hx₁ : x.1.fault = none := hsame.fault.trans hf
    have hx₂ : x.1.sealing = ctx.sealing := hsame.sealing
    rw [hx₁, hx₂]
    simp only [hseal, true_and]
  have hq : queuedReply K ctx c =
      if (preparePdu K (ctx.emit (.queued c ctx.security)) c).1.fault = none then
        some (preparePdu K (ctx.emit (.queued c ctx.security)) c) else none := by
    unfold queuedReply
    rw [hnamed]
    rfl
  refine ⟨?_, ?_⟩
  · rw [hq, ← hquiet]
    split
    · rename_i hok
      exact iff_of_true rfl hok
    · rename_i hov
      exact iff_of_false (fun h => by cases h) hov
  · intro ctx' c' hsome
    have hx : preparePdu K (ctx.emit (.queued c ctx.security)) c = (ctx', c') := by
      rw [hq] at hsome
      split at hsome
      · exact Option.some.inj hsome
      · cases hsome
    rw [hx] at hprep
    have hc₁ : ctx' = (encryptPdu K x.1 ⟨h, t⟩).1 := congrArg Prod.fst hprep
    have hc₂ : c' = (encryptPdu K x.1 ⟨h, t⟩).2 := congrArg Prod.snd hprep
    have hw : (queuePdu K ctx c).waitqueue = x.1.waitqueue := by
      rw [queuePdu_of_queuedReply hsome, addToOutqueue_waitqueue, hc₁, hwaitq]
      rw [hc₁, hsv]
      exact hsame.isServer.trans hs
    refine ⟨?_, ?_⟩
    · intro r hr
      rw [hw, hleft r hr]
      exact and_iff_right (List.mem_map_of_mem hr)
    · show List.Forall₂ _ (markReply c.head :: c.rest) (c'.head :: c'.rest)
      rw [hc₂, hrest]
      refine .cons ?_ ?_
      · obtain ⟨q, hfind, hm⟩ := hheadMade
        refine ⟨?_, q, hfind, ?_⟩
        · have henc := hm.encoded
          unfold Pdu.Encoded at henc ⊢
          rw [hhead, hhout]
          exact henc
        · have hm := hm.toRepliesTo
          exact ⟨by rw [hhead]; exact hm.messageId, by rw [hhead]; exact hm.status,
            by rw [hhead]; exact hm.command, by rw [hhead]; exact hm.tree,
            by rw [hhead]; exact hm.redir, by rw [hhead]; exact hm.async⟩
      · exact hrestMade.imp fun _ _ ⟨q, hfind, hm⟩ => ⟨hm.encoded, q, hfind, hm.toRepliesTo⟩

theorem refusesReply_eq_false (hs : ctx.isServer = true) (c : Chain) :
    ctx.refusesReply c = false ↔
      c.head.header.messageId ≠ 0 ∨ c.head.header.command = .negotiate := by
  unfold Context.refusesReply
  simp only [hs, Bool.true_and, Bool.and_eq_false_iff, decide_eq_false_iff_not, bne_eq_false_iff_eq]

/-- The members that are no interim replies are the final ones. -/
theorem MarkedBehind.interim_iff {c : Chain} (hm : MarkedBehind ctx c)
    (hp : p ∈ c.rest) : p.interim = false ↔ p.header.status ≠ STATUS_PENDING := by
  unfold Pdu.interim
  rw [Bool.and_eq_false_iff, decide_eq_false_iff_not]
  constructor
  · rintro (hflag | hs)
    · intro hpend
      exact absurd (hm.async p hp hpend) (by rw [hflag]; decide)
    · exact hs
  · exact .inr

theorem repliesSent_of_marked {c : Chain} (hs : ctx.isServer = true)
    (hf : ctx.fault = none) (hids : (ctx.waitqueue.map Pdu.id).Nodup)
    (hform : ∀ p ∈ c.members, p.Formed) (hwait : AnswersWaiting ctx c)
    (hm : MarkedBehind ctx c) : RepliesSent K ctx c := by
  obtain ⟨hkmid, hkstatus, hkcommand, -, -⟩ := markReply_keeps c.head
  have hhead : (markReply c.head).interim = false ↔ c.head.header.status ≠ STATUS_PENDING := by
    rw [markReply_interim, decide_eq_false_iff_not]
  have honce : (markReply c.head :: c.rest).Pairwise fun p p' =>
      p.interim = false → p.header.messageId ≠ p'.header.messageId := by
    obtain ⟨hone, hrest⟩ := List.pairwise_cons.mp hwait.once
    refine List.pairwise_cons.mpr ⟨?_, ?_⟩
    · intro p' hp' hint
      rw [hkmid]
      exact hone p' hp' (hhead.mp hint)
    · exact hrest.imp_of_mem fun hp _ h hint => h ((hm.interim_iff hp).mp hint)
  obtain ⟨hsome, hspec⟩ := queuedReply_spec (K := K) hs hf hids hform hwait.waiting honce
    ((refusesReply_eq_false hs c).mpr hm.named)
  obtain ⟨⟨ctx', c'⟩, hq⟩ := Option.isSome_iff_exists.mp (hsome.mpr hm.fits)
  obtain ⟨hleft, hmade⟩ := hspec ctx' c' hq
  obtain ⟨hmadeHead, hmadeRest⟩ := List.forall₂_cons.mp hmade
  refine ⟨ctx', c', hq, .cons ?_ ?_, ?_⟩
  · obtain ⟨henc, q, hfind, hr⟩ := hmadeHead
    rw [hkmid] at hfind
    have hqm : q.header.messageId = c.head.header.messageId := by
      simpa using List.find?_some hfind
    refine ⟨henc, hr.redir.trans (markReply_flags c.head).1, ?_, q, hfind, ?_, ?_⟩
    · intro hpend
      exact hr.async ((markReply_flags c.head).2 (hkstatus.symm.trans (hr.status.symm.trans hpend)))
    · rw [hr.messageId, hkmid, hqm]
    · rw [hr.command]
      exact hr.tree
  · have hmem := List.forall₂_iff_get.mp hmadeRest
    refine List.forall₂_iff_get.mpr ⟨hmem.1, ?_⟩
    intro i h₁ h₂
    obtain ⟨henc, q, hfind, hr⟩ := hmem.2 i h₁ h₂
    have hp := List.get_mem c.rest ⟨i, h₁⟩
    have hqm : q.header.messageId = (c.rest.get ⟨i, h₁⟩).header.messageId := by
      simpa using List.find?_some hfind
    refine ⟨henc, hr.redir.trans (hm.redir _ hp), ?_, q, hfind, ?_, ?_⟩
    · intro hpend
      exact hr.async (hm.async _ hp (hr.status.symm.trans hpend))
    · rw [hr.messageId, hqm]
    · rw [hr.command]
      exact hr.tree
  · intro q hql
    rw [hleft q hql, Classical.not_not]
    constructor
    · rintro ⟨p, hp, hint, hfind⟩
      rcases List.mem_cons.mp hp with rfl | hp
      · rw [hkmid] at hfind
        exact ⟨c.head, List.mem_cons_self .., hhead.mp hint, hfind⟩
      · exact ⟨p, List.mem_cons_of_mem _ hp, (hm.interim_iff hp).mp hint, hfind⟩
    · rintro ⟨p, hp, hfin, hfind⟩
      rcases List.mem_cons.mp hp with rfl | hp
      · refine ⟨markReply c.head, List.mem_cons_self .., hhead.mpr hfin, ?_⟩
        rw [hkmid]
        exact hfind
      · exact ⟨p, List.mem_cons_of_mem _ hp, (hm.interim_iff hp).mpr hfin, hfind⟩

theorem marked_of_repliesSent {c : Chain} (hs : ctx.isServer = true)
    (hf : ctx.fault = none) (hids : (ctx.waitqueue.map Pdu.id).Nodup)
    (hform : ∀ p ∈ c.members, p.Formed) (hwait : AnswersWaiting ctx c)
    (hown : (c.members.map fun p => p.header.messageId).Nodup) (hr : RepliesSent K ctx c) :
    MarkedBehind ctx c := by
  obtain ⟨ctx', c', hq, hsent, hleft⟩ := hr
  obtain ⟨hkmid, -, -, -, -⟩ := markReply_keeps c.head
  have honce : (markReply c.head :: c.rest).Pairwise fun p p' =>
      p.interim = false → p.header.messageId ≠ p'.header.messageId := by
    have hne : ((markReply c.head :: c.rest).map fun p => p.header.messageId).Nodup := by
      rw [List.map_cons, hkmid]
      exact hown
    refine List.Pairwise.imp ?_ (List.pairwise_map.mp hne)
    intro p p' h _
    exact h
  have hnamed : ctx.refusesReply c = false := by
    cases hrf : ctx.refusesReply c with
    | false => rfl
    | true =>
      unfold queuedReply at hq
      rw [if_pos hrf] at hq
      cases hq
  obtain ⟨hsome, hspec⟩ := queuedReply_spec (K := K) hs hf hids hform hwait.waiting honce hnamed
  obtain ⟨hleft', hmade⟩ := hspec ctx' c' hq
  refine ⟨(refusesReply_eq_false hs c).mp hnamed, ?_, ?_, hsome.mp (by rw [hq]; rfl)⟩
  · -- the flag of a member is the one it came with
    intro p hp
    obtain ⟨-, hmadeRest⟩ := List.forall₂_cons.mp hmade
    obtain ⟨-, hsentRest⟩ := List.forall₂_cons.mp hsent
    obtain ⟨i, hi, rfl⟩ := List.mem_iff_getElem.mp hp
    have hi' : i < c'.rest.length := by
      rw [← hmadeRest.length_eq]
      exact hi
    obtain ⟨-, q, -, hrep⟩ := (List.forall₂_iff_get.mp hmadeRest).2 i hi hi'
    exact hrep.redir.symm.trans ((List.forall₂_iff_get.mp hsentRest).2 i hi hi').redir
  · -- without the flag the request would be gone after an interim reply
    intro p hp hpend
    by_contra hflag
    have hpm : p ∈ c.members := List.mem_cons_of_mem _ hp
    obtain ⟨q, hfind⟩ := Option.isSome_iff_exists.mp (hwait.waiting p hpm)
    have hql : q ∈ ctx.waitqueue := List.mem_of_find?_eq_some hfind
    have hgone : q.id ∉ (queuePdu K ctx c).waitqueue.map Pdu.id := by
      rw [hleft' q hql, Classical.not_not]
      refine ⟨p, List.mem_cons_of_mem _ hp, ?_, hfind⟩
      rw [Bool.not_eq_true] at hflag
      simp only [Pdu.interim, hflag, Bool.false_and]
    obtain ⟨p', hp', hfin, hfind'⟩ := (hleft q hql).mp hgone
    have h₁ : q.header.messageId = p.header.messageId := by simpa using List.find?_some hfind
    have h₂ : q.header.messageId = p'.header.messageId := by simpa using List.find?_some hfind'
    have heq : p' = p := List.inj_on_of_nodup_map hown hp' hpm (h₂.symm.trans h₁)
    rw [heq] at hfin
    exact hfin hpend

end

/-- **A server sends a chain of replies as it should** — every member marked as a reply, the
interim ones as asynchronous, each with the ids of its request, which waits until its final
reply — if the members behind the head carry the flags already.  If every member has a request
of its own, it does so only then. -/
theorem replies_are_marked (K : Crypto) (ctx : Context) (c : Chain) (hs : ctx.isServer = true)
    (hf : ctx.fault = none) (hids : (ctx.waitqueue.map Pdu.id).Nodup)
    (hform : ∀ p ∈ c.members, p.Formed) (hwait : AnswersWaiting ctx c) :
    (MarkedBehind ctx c → RepliesSent K ctx c) ∧
      ((c.members.map fun p => p.header.messageId).Nodup →
        (RepliesSent K ctx c ↔ MarkedBehind ctx c)) := by
  have hmarked := repliesSent_of_marked (K := K) hs hf hids hform hwait
  exact ⟨hmarked, fun hown => ⟨marked_of_repliesSent hs hf hids hform hwait hown, hmarked⟩⟩

/-- A server with two requests that wait. -/
def twoWaiting : Context :=
  { isServer := true
    dialect := VERSION_0210
    waitqueue := [
      { id := 1, header := { command := .create, messageId := 5, treeId := 7 } },
      { id := 2, header := { command := .read, messageId := 6, treeId := 7 } }] }

/-- A reply as `smb2_allocate_pdu` makes it, for a request and with a status. -/
def replyFor (id mid status flags : Nat) (command : Command) : Pdu :=
  { id := id
    header := {
      protocolId := Header.smb2sign
      structSize := HEADER_SIZE
      command := command
      creditCharge := 1
      status := status
      flags := flags
      messageId := mid
      processId := 0xFEFF
      signature := zeros SIGNATURE_SIZE }
    out := [zeros HEADER_SIZE, zeros 8] }

/-- The reply to a CREATE and the interim reply to the READ behind it, which has these flags. -/
def createAndRead (flags : Nat) : Chain :=
  addCompoundPdu (.single (replyFor 3 5 0 0 .create))
    (.single (replyFor 4 6 STATUS_PENDING flags .read))

theorem createAndRead_formed (flags : Nat) : ∀ p ∈ (createAndRead flags).members, p.Formed := by
  intro p hp
  simp only [createAndRead, addCompoundPdu, Chain.single, Chain.members, List.reverse_nil,
    List.mem_cons, List.not_mem_nil, or_false] at hp
  rcases hp with rfl | rfl
  · exact ⟨⟨rfl, rfl⟩, _, _, rfl, rfl⟩
  · refine ⟨⟨rfl, rfl⟩, _, _, rfl, ?_⟩
    rw [length_patch (by simp [HEADER_SIZE])]
    exact length_zeros HEADER_SIZE

theorem createAndRead_waits (flags : Nat) : AnswersWaiting twoWaiting (createAndRead flags) := by
  refine ⟨?_, ?_⟩
  · intro p hp
    simp only [createAndRead, addCompoundPdu, Chain.single, Chain.members, List.reverse_nil,
      List.mem_cons, List.not_mem_nil, or_false] at hp
    rcases hp with rfl | rfl
    · rfl
    · rfl
  · simp [createAndRead, addCompoundPdu, Chain.single, Chain.members, replyFor, Header.setFlag]

theorem replies_are_marked_two :
    RepliesSent echoCrypto twoWaiting
      (createAndRead (FLAGS_SERVER_TO_REDIR ||| FLAGS_ASYNC_COMMAND)) := by
  apply (replies_are_marked echoCrypto twoWaiting
    (createAndRead (FLAGS_SERVER_TO_REDIR ||| FLAGS_ASYNC_COMMAND)) rfl rfl (by decide)
    (createAndRead_formed _) (createAndRead_waits _)).1
  exact ⟨.inl (by decide), by decide, by decide, fun h => absurd h (by decide)⟩

/-- **The interim reply behind the head is sent without the flags of a reply, and the request
that it leaves open is dropped.** -/
theorem second_reply_is_not_marked :
    AnswersWaiting twoWaiting (createAndRead 0) ∧
    ((queuedReply echoCrypto twoWaiting (createAndRead 0)).map fun x =>
      x.2.members.map fun p => p.header.flags) =
        some [FLAGS_SERVER_TO_REDIR, FLAGS_RELATED_OPERATIONS] ∧
    (queuePdu echoCrypto twoWaiting (createAndRead 0)).waitqueue = [] ∧
    ¬RepliesSent echoCrypto twoWaiting (createAndRead 0) := by
  refine ⟨createAndRead_waits 0, by decide +kernel, by decide +kernel, ?_⟩
  intro h
  have hm := marked_of_repliesSent rfl rfl (by decide) (createAndRead_formed 0)
    (createAndRead_waits 0) (by decide) h
  exact absurd (hm.redir _ (List.mem_singleton.mpr rfl)) (by decide)

end Libsmb2
