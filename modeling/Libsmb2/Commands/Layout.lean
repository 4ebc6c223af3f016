import Libsmb2.Commands
import Libsmb2.Util.Parts

/-!
# The layout of a compound chain

`smb2_add_compound_pdu` takes the offset of the next header from the vectors of the last member
at the moment of chaining.  Every encoder pads its vectors, but the payload of a WRITE is added
behind the padding.

* `Built` — the chains that are made of the commands of the encoders;
* `Built.linked` — their headers are linked, and their members as long as their commands;
* `queueMember_sends` — what `smb2_queue_pdu` leaves of a member;
* `chains_are_well_laid` — when a chain goes out as it should;
* `gathered_vectors_fit` — when `smb2_write_to_socket` has room for its vectors.
-/

set_option autoImplicit false

namespace Libsmb2

open Util

/-! ## Chains of commands -/

/-- A command, and the settings under which it was encoded. -/
structure Issued where
  settings : Settings
  cmd : Cmd

/-- The command leaves a multiple of eight octets. -/
def Issued.Padded (x : Issued) : Prop := x.cmd.Padded x.settings

/-- A chain of requests that were made of these commands, in order. -/
inductive Built : List Issued → Chain → Prop
  | one {x : Issued} {ctx ctx' : Context} {cb : Callback} {p : Pdu}
      (made : x.cmd.async x.settings ctx cb = (some p, ctx')) : Built [x] (.single p)
  | chained {xs ys : List Issued} {c d : Chain} (hc : Built xs c) (hd : Built ys d) :
      Built (xs ++ ys) (addCompoundPdu c d)

/-- Where the header of member `i` is in the octets of a chain. -/
def Chain.headerAt (c : Chain) (i : Nat) : Nat := offset (c.members.map Pdu.octets) i

/-- The 32-bit field at an offset of the octets of a chain. -/
def Chain.field32 (c : Chain) (off : Nat) : Nat := fromLe (slice c.octets off 4)

/-- A chain as it is to be sent: the headers are aligned, each has the distance to the next one,
and all but the first are marked as related. -/
structure WellLaid (c : Chain) : Prop where
  headers : ∀ p ∈ c.members, (p.out.headD []).length = HEADER_SIZE
  aligned : ∀ i < c.members.length, 8 ∣ c.headerAt i
  next : ∀ i < c.members.length, c.field32 (c.headerAt i + 20) =
    if i + 1 < c.members.length then c.headerAt (i + 1) - c.headerAt i else 0
  related : ∀ i < c.members.length, 0 < i →
    c.field32 (c.headerAt i + 16) &&& FLAGS_RELATED_OPERATIONS ≠ 0

/-! ## What the encoders leave -/

/-- A request of a command, with its place in the chain left open. -/
structure MadeOf (x : Issued) (p : Pdu) : Prop where
  formed : p.Formed
  padded : 8 ∣ p.octets.length ↔ x.Padded
  room : p.out.length ≤ MAX_VECTORS

theorem octets_length (p : Pdu) : p.octets.length = octetCount p.out := octetCount_eq p.out

section
variable {S : Settings} {ctx ctx' : Context} {cb : Callback} {c : Cmd} {p : Pdu}

/-- What an encoder returns: the request of the allocator with its vectors. -/
theorem Cmd.async_spec (h : c.async S ctx cb = (some p, ctx')) : ∃ q out,
    ctx.allocatePdu c.command cb = (some q, ctx') ∧
      c.marshal S ctx'.version ctx'.passthrough = some out ∧
      p = { q with
        header := { q.header with
          creditCharge := (c.creditCharge S).getD q.header.creditCharge }
        out := out
        inIov := c.inIov S } := by
  unfold Cmd.async at h
  generalize ctx.allocatePdu c.command cb = made at h
  obtain ⟨_ | q, ctx₁⟩ := made
  · cases h
  · simp only at h
    generalize hvectors : c.marshal S ctx₁.version ctx₁.passthrough = vectors at h
    cases hbuf : c.hasBuffer S with
    | false => simp [hbuf] at h
    | true =>
      cases vectors with
      | none => simp [hbuf] at h
      | some out =>
        simp only [hbuf, if_true, Prod.mk.injEq, Option.some.injEq] at h
        obtain ⟨rfl, rfl⟩ := h
        exact ⟨q, out, rfl, hvectors, rfl⟩

/-- An encoder refuses its arguments or runs out of memory, or returns a request. -/
theorem Cmd.async_isSome (hmem : ctx.allocOk = true) (hbuf : c.hasBuffer S = true)
    (hout : (c.marshal S ctx.version ctx.passthrough).isSome = true) :
    (c.async S ctx cb).1.isSome = true := by
  obtain ⟨out, hout⟩ := Option.isSome_iff_exists.mp hout
  unfold Cmd.async Context.allocatePdu
  have hversion : ctx.popMem.version = ctx.version := rfl
  have hpassthrough : ctx.popMem.passthrough = ctx.passthrough := rfl
  simp only [hmem, if_true, hbuf, hversion, hpassthrough, hout, Option.isSome_some]

/-- The request that the allocator returns. -/
theorem allocatePdu_spec {command : Command} {q : Pdu}
    (h : ctx.allocatePdu command cb = (some q, ctx')) :
    q.header.WellFormed ∧ q.header.command = command ∧ q.header.nextCommand = 0 ∧
      q.header.creditCharge = (if ctx.dialect = VERSION_0202 ∨ command = .negotiate then 0 else 1) ∧
      ctx'.isServer = ctx.isServer ∧ ctx'.messageId = ctx.messageId := by
  unfold Context.allocatePdu at h
  split at h
  · cases h
    exact ⟨⟨rfl, length_zeros _⟩, rfl, rfl, rfl, rfl, rfl⟩
  · cases h

theorem Cmd.async_madeOf {x : Issued} (h : x.cmd.async x.settings ctx cb = (some p, ctx')) :
    MadeOf x p ∧ p.header.nextCommand = 0 := by
  obtain ⟨q, out, halloc, hout, rfl⟩ := Cmd.async_spec h
  obtain ⟨hw, -, hnext, -⟩ := allocatePdu_spec halloc
  obtain ⟨⟨body, hbody⟩, hroom, hpad⟩ := Cmd.marshal_spec hout
  refine ⟨⟨⟨⟨hw.protocolId, hw.signature⟩, zeros HEADER_SIZE, body, hbody, length_zeros _⟩,
    ?_, hroom⟩, hnext⟩
  rw [octets_length, Nat.dvd_iff_mod_eq_zero]
  exact hpad

end

/-! ## Chaining -/

/-- The last member of a chain, when another one is linked behind it. -/
def Pdu.link (p : Pdu) : Pdu :=
  { p with
    header := { p.header with nextCommand := p.octets.length }
    out := patchHead p.out 20 (le 4 p.octets.length) }

/-- The head of a chain, when it is linked behind another one. -/
def Pdu.related (p : Pdu) : Pdu :=
  { p with
    header := p.header.setFlag FLAGS_RELATED_OPERATIONS
    out := patchHead p.out 16 (le 4 (p.header.setFlag FLAGS_RELATED_OPERATIONS).flags) }

theorem addCompoundPdu_members (c d : Chain) : ∃ before last,
    c.members = before ++ [last] ∧
      (addCompoundPdu c d).members = before ++ last.link :: d.head.related :: d.rest := by
  unfold addCompoundPdu
  simp only
  split
  · rename_i hrest
    have hnil : c.rest = [] := by simpa using hrest
    refine ⟨[], c.head, ?_, rfl⟩
    rw [Chain.members, hnil]
    rfl
  · rename_i last before hrest
    have hsplit : c.rest = before.reverse ++ [last] := by
      rw [← List.reverse_reverse c.rest, hrest, List.reverse_cons]
    refine ⟨c.head :: before.reverse, last, ?_, rfl⟩
    rw [Chain.members, hsplit]
    rfl

theorem patchHead_formed {p : Pdu} (h : p.Formed) (off : Nat) (new : Bytes) {header : Header}
    (hw : header.WellFormed) (hfits : off + new.length ≤ HEADER_SIZE) :
    ({ p with header := header, out := patchHead p.out off new } : Pdu).Formed ∧
      ({ p with header := header, out := patchHead p.out off new } : Pdu).octets.length =
        p.octets.length := by
  obtain ⟨v, vs, hout, hv⟩ := h.out
  have hlen : (patch v off new).length = v.length := length_patch (by omega)
  refine ⟨⟨hw, patch v off new, vs, ?_, hlen.trans hv⟩, ?_⟩
  · rw [hout]
    rfl
  · simp only [Pdu.octets, hout, patchHead, List.flatten_cons, List.length_append, hlen]

theorem length_patchHead (vecs : List Bytes) (off : Nat) (new : Bytes) :
    (patchHead vecs off new).length = vecs.length := by
  cases vecs <;> rfl

section
variable {x : Issued} {p : Pdu}

theorem MadeOf.link (h : MadeOf x p) : MadeOf x p.link ∧ p.link.octets.length = p.octets.length := by
  have hw : ({ p.header with nextCommand := p.octets.length } : Header).WellFormed :=
    ⟨h.formed.header.protocolId, h.formed.header.signature⟩
  obtain ⟨hformed, hlen⟩ := patchHead_formed h.formed 20 (le 4 p.octets.length) hw
    (by simp [HEADER_SIZE])
  refine ⟨⟨hformed, ?_, ?_⟩, hlen⟩
  · rw [show p.link.octets.length = p.octets.length from hlen]
    exact h.padded
  · rw [show p.link.out.length = p.out.length from length_patchHead ..]
    exact h.room

theorem MadeOf.related (h : MadeOf x p) :
    MadeOf x p.related ∧ p.related.octets.length = p.octets.length := by
  obtain ⟨hformed, hlen⟩ := patchHead_formed h.formed 16
    (le 4 (p.header.setFlag FLAGS_RELATED_OPERATIONS).flags)
    (h.formed.header.setFlag FLAGS_RELATED_OPERATIONS) (by simp [HEADER_SIZE])
  refine ⟨⟨hformed, ?_, ?_⟩, hlen⟩
  · rw [show p.related.octets.length = p.octets.length from hlen]
    exact h.padded
  · rw [show p.related.out.length = p.out.length from length_patchHead ..]
    exact h.room

end

/-- The members of a chain are linked: each has its own length as the distance to the next. -/
structure Linked (ms : List Pdu) : Prop where
  next : ∀ p ∈ ms.dropLast, p.header.nextCommand = p.octets.length
  last : ∀ p ∈ ms.getLast?, p.header.nextCommand = 0
  related : ∀ p ∈ ms.tail, p.header.hasFlag FLAGS_RELATED_OPERATIONS = true

theorem Linked.append {before rest : List Pdu} {last hd : Pdu} (hc : Linked (before ++ [last]))
    (hd' : Linked (hd :: rest)) (hlen : last.link.octets.length = last.octets.length)
    (hlen' : hd.related.octets.length = hd.octets.length) :
    Linked (before ++ last.link :: hd.related :: rest) := by
  refine ⟨fun p hp => ?_, fun p hp => ?_, fun p hp => ?_⟩
  · rw [List.dropLast_append_cons, List.dropLast_cons_of_ne_nil (by simp)] at hp
    rcases List.mem_append.mp hp with hp | hp
    · refine hc.next p ?_
      rwa [List.dropLast_concat]
    · rcases List.mem_cons.mp hp with rfl | hp
      · exact hlen.symm
      · cases rest with
        | nil => cases hp
        | cons q rest =>
          rw [List.dropLast_cons_of_ne_nil (by simp)] at hp
          have hnext := hd'.next
          rw [List.dropLast_cons_of_ne_nil (by simp)] at hnext
          rcases List.mem_cons.mp hp with rfl | hp
          · exact (hnext hd (List.mem_cons_self ..)).trans hlen'.symm
          · exact hnext p (List.mem_cons_of_mem _ hp)
  · have hlast := hd'.last
    rw [List.getLast?_append, List.getLast?_cons_cons] at hp
    cases rest with
    | nil =>
      obtain rfl : hd.related = p := by simpa using hp
      exact hlast hd (by simp)
    | cons q rest =>
      rw [List.getLast?_cons_cons] at hp hlast
      refine hlast p ?_
      cases hq : (q :: rest).getLast? with
      | none => simp at hq
      | some r =>
        rw [hq] at hp
        exact hp
  · have hbehind : ∀ q ∈ hd.related :: rest,
        q.header.hasFlag FLAGS_RELATED_OPERATIONS = true := by
      intro q hq
      rcases List.mem_cons.mp hq with rfl | hq
      · show (hd.header.setFlag FLAGS_RELATED_OPERATIONS).hasFlag FLAGS_RELATED_OPERATIONS = true
        rw [Header.hasFlag_setFlag]
        exact Bool.or_true _
      · exact hd'.related q hq
    cases before with
    | nil => exact hbehind p hp
    | cons b before =>
      rcases List.mem_append.mp hp with hp | hp
      · exact hc.related p (List.mem_append_left _ hp)
      · rcases List.mem_cons.mp hp with rfl | hp
        · exact hc.related last (List.mem_append_right _ (by simp))
        · exact hbehind p hp

theorem forall₂_concat {α β : Type} {R : α → β → Prop} {as : List α} {bs : List β} {b : β}
    (h : List.Forall₂ R as (bs ++ [b])) :
    ∃ front a, as = front ++ [a] ∧ List.Forall₂ R front bs ∧ R a b := by
  induction bs generalizing as with
  | nil =>
    cases h with
    | cons ha hnil =>
      cases hnil
      exact ⟨[], _, rfl, .nil, ha⟩
  | cons c bs ih =>
    cases h with
    | cons ha has =>
      obtain ⟨front, a, rfl, hfront, hlast⟩ := ih has
      exact ⟨_ :: front, a, rfl, .cons ha hfront, hlast⟩

/-- **The members of a chain** are the requests of its commands, linked in order. -/
theorem Built.linked {xs : List Issued} {c : Chain} (h : Built xs c) :
    List.Forall₂ MadeOf xs c.members ∧ Linked c.members := by
  induction h with
  | one made =>
    obtain ⟨hmade, hnext⟩ := Cmd.async_madeOf made
    refine ⟨.cons hmade .nil, ⟨fun p hp => ?_, fun p hp => ?_, fun p hp => ?_⟩⟩
    · cases hp
    · obtain rfl := Option.mem_some.mp hp
      exact hnext
    · cases hp
  | @chained xs ys c d hc hd ihc ihd =>
    obtain ⟨hmade, hlinked⟩ := ihc
    obtain ⟨hmade', hlinked'⟩ := ihd
    obtain ⟨before, last, hmembers, hsum⟩ := addCompoundPdu_members c d
    rw [hmembers] at hmade hlinked
    obtain ⟨front, x, rfl, hfront, hlast⟩ := forall₂_concat hmade
    cases hmade' with
    | cons hhead hrest =>
      have hback := List.Forall₂.cons hlast.link.1 (.cons hhead.related.1 hrest)
      have hall := List.rel_append hfront hback
      rw [hsum, List.append_assoc]
      exact ⟨hall, hlinked.append hlinked' hlast.link.2 hhead.related.2⟩

theorem Built.formed {xs : List Issued} {c : Chain} (h : Built xs c) :
    ∀ p ∈ c.members, p.Formed := by
  obtain ⟨hmade, -⟩ := h.linked
  intro p hp
  obtain ⟨i, hi, rfl⟩ := List.getElem_of_mem hp
  exact (hmade.get (by rw [hmade.length_eq]; exact hi) hi).formed

/-! ## Queueing -/

/-- `p'` goes out for the member `p` of a chain. -/
structure Pdu.Sends (p p' : Pdu) : Prop where
  head : ∃ v vs, p'.out = v :: vs ∧ v.length = HEADER_SIZE ∧
    slice v 20 4 = le 4 p.header.nextCommand ∧
    ∃ flags, slice v 16 4 = le 4 flags ∧ ∀ f, p.header.hasFlag f = true → flags &&& f ≠ 0
  length : p'.octets.length = p.octets.length
  count : p'.out.length = p.out.length

/-- A header that is `h` but for what queueing fills in. -/
structure Header.Completes (h h' : Header) : Prop where
  wellFormed : h'.WellFormed
  next : h'.nextCommand = h.nextCommand
  flags : ∀ f, h.hasFlag f = true → h'.hasFlag f = true

theorem Header.Completes.setFlag {h h' : Header} (hc : h.Completes h') (f : Nat) :
    h.Completes (h'.setFlag f) := by
  refine ⟨hc.wellFormed.setFlag f, hc.next, fun g hg => ?_⟩
  rw [Header.hasFlag_setFlag, hc.flags g hg]
  rfl

theorem Header.Completes.refl {h : Header} (hw : h.WellFormed) : h.Completes h :=
  ⟨hw, rfl, fun _ => id⟩

section
variable {K : Crypto} {ctx : Context} {p : Pdu}

theorem markReply_completes (h : p.header.WellFormed) :
    p.header.Completes (markReply p).header := by
  have hc := (Header.Completes.refl h).setFlag FLAGS_SERVER_TO_REDIR
  unfold markReply
  simp only
  split
  · exact hc.setFlag _
  · exact hc

theorem correlateReply_completes (ctx : Context) (h : p.header.WellFormed) :
    p.header.Completes (correlateReply ctx p).2.header ∧
      (correlateReply ctx p).2.out = p.out := by
  have hc := Header.Completes.refl h
  unfold correlateReply
  split
  · split
    · exact ⟨⟨⟨hc.wellFormed.protocolId, hc.wellFormed.signature⟩, rfl, fun _ => id⟩, rfl⟩
    · exact ⟨hc, rfl⟩
  · rename_i req _
    have hadopt : p.header.Completes (adoptRequest p req).header :=
      ⟨⟨h.protocolId, h.signature⟩, rfl, fun _ => id⟩
    simp only
    split
    · exact ⟨⟨⟨h.protocolId, h.signature⟩, rfl, fun _ => id⟩, rfl⟩
    · split
      · have hflag := hadopt.setFlag FLAGS_ASYNC_COMMAND
        exact ⟨⟨⟨h.protocolId, h.signature⟩, rfl, hflag.flags⟩, rfl⟩
      · exact ⟨hadopt, rfl⟩

theorem encodeMember_completes (ctx : Context) (mid : Nat) (h : p.Formed) :
    p.header.Completes (encodeMember ctx mid p).2.header ∧
      (encodeMember ctx mid p).2.out = (encodeMember ctx mid p).2.header.encode :: p.out.tail := by
  obtain ⟨hcorr, hout⟩ := correlateReply_completes ctx h.header
  unfold encodeMember encodeHeader
  cases hs : ctx.isServer with
  | true =>
    have hs' : (correlateReply ctx p).1.isServer = true := (correlateReply_keeps ctx p).1.trans hs
    simp only [if_true, hs', hout]
    exact ⟨hcorr, trivial⟩
  | false =>
    simp only [Bool.false_eq_true, if_false, hs]
    exact ⟨⟨⟨h.header.protocolId, h.header.signature⟩, rfl, fun _ => id⟩, trivial⟩

/-- The vectors begin with one that has room for a header. -/
def Headed (out : List Bytes) : Prop := ∃ v vs, out = v :: vs ∧ v.length = HEADER_SIZE

theorem Headed.patchHead {out : List Bytes} (h : Headed out) {off : Nat} {new : Bytes}
    (hfits : off + new.length ≤ HEADER_SIZE) : Headed (patchHead out off new) := by
  obtain ⟨v, vs, rfl, hv⟩ := h
  refine ⟨patch v off new, vs, rfl, ?_⟩
  rw [length_patch (by omega)]
  exact hv

theorem clearSignature_eq (out : List Bytes) :
    clearSignature out = patchHead out 48 (zeros SIGNATURE_SIZE) := by
  cases out <;> rfl

/-- Signing sets one flag and the signature, and adds no vector. -/
theorem signMember_vectors (K : Crypto) (ctx : Context) (hp : Headed p.out) : ∃ h sig,
    (h = p.header ∨ h = p.header.setFlag FLAGS_SIGNED) ∧
      (signMember K ctx p).2.header = { h with signature := sig } ∧
      Headed (signMember K ctx p).2.out ∧ (signMember K ctx p).2.out.length = p.out.length := by
  have hself : ∃ h sig, (h = p.header ∨ h = p.header.setFlag FLAGS_SIGNED) ∧
      p.header = { h with signature := sig } ∧ Headed p.out ∧ p.out.length = p.out.length :=
    ⟨p.header, p.header.signature, .inl rfl, rfl, hp, rfl⟩
  have hmark : Headed p.markSigned.out ∧ p.markSigned.out.length = p.out.length :=
    ⟨hp.patchHead (by simp [HEADER_SIZE]), length_patchHead ..⟩
  have hclear : Headed (clearSignature p.markSigned.out) ∧
      (clearSignature p.markSigned.out).length = p.out.length := by
    rw [clearSignature_eq]
    exact ⟨hmark.1.patchHead (by simp [HEADER_SIZE, SIGNATURE_SIZE]),
      (length_patchHead ..).trans hmark.2⟩
  have hput : ∀ sig : Bytes, sig.length = SIGNATURE_SIZE →
      Headed (p.markSigned.putSignature sig).out ∧
        (p.markSigned.putSignature sig).out.length = p.out.length := fun sig hsig =>
    ⟨hclear.1.patchHead (by simp [hsig, HEADER_SIZE, SIGNATURE_SIZE]),
      (length_patchHead ..).trans hclear.2⟩
  unfold signMember
  split
  · have hsig := hput _ (length_signature K ctx.dialect ctx.signingKey p.markSigned.out)
    refine pduAddSignature_cases K ctx p ?_ ?_ ?_ ?_
    · intro _
      exact hself
    · exact ⟨p.header.setFlag FLAGS_SIGNED, _, .inr rfl, rfl, hsig⟩
    · exact ⟨p.header.setFlag FLAGS_SIGNED, _, .inr rfl, rfl, hsig⟩
    · exact ⟨p.header.setFlag FLAGS_SIGNED, p.header.signature, .inr rfl, rfl, hclear⟩
  · exact hself

/-- What the first 48 octets of a vector say, if they are those of a header. -/
theorem slice_of_front {v front : Bytes} {o n : Nat} (h : slice v 0 48 = slice front 0 48)
    (ho : o + n ≤ 48) : slice v o n = slice front o n := by
  have hcut : ∀ x : Bytes, slice x o n = slice (slice x 0 48) o n := by
    intro x
    simp only [slice, List.drop_zero, List.drop_take, List.take_take]
    rw [Nat.min_eq_left (by omega)]
  rw [hcut v, hcut front, h]

/-- **What `smb2_queue_pdu` leaves of a member**: its length and its vectors, and in its header
vector the distance to the next member and all flags that were set. -/
theorem queueMember_sends (K : Crypto) (ctx : Context) (mid : Nat) (h : p.Formed) :
    p.Sends (queueMember K ctx mid p).2 := by
  obtain ⟨v, vs, hout, hv⟩ := h.out
  unfold queueMember
  simp only
  obtain ⟨henc, henout⟩ := encodeMember_completes ctx mid h
  generalize encodeMember ctx mid p = x at henc henout
  have hheaded : Headed x.2.out := ⟨_, _, henout, Header.length_encode henc.wellFormed⟩
  have hsigns := signMember_signs K x.1 henc.wellFormed henout
  obtain ⟨g, sig, hg, hheader, ⟨w, ws, hw, hwlen⟩, hcount⟩ := signMember_vectors K x.1 hheaded
  have hcompletes : p.header.Completes g := by
    rcases hg with rfl | rfl
    · exact henc
    · exact henc.setFlag _
  have hfront : slice w 0 48 = slice g.encode 0 48 := by
    have hencoded := hsigns.encoded
    unfold Pdu.Encoded at hencoded
    rw [hw, hheader, Header.encode_putSignature hcompletes.wellFormed] at hencoded
    exact hencoded
  refine ⟨⟨w, ws, hw, hwlen, ?_, g.flags, ?_, ?_⟩, ?_, ?_⟩
  · rw [slice_of_front hfront (by omega), Header.encode_nextCommand hcompletes.wellFormed,
      hcompletes.next]
  · rw [slice_of_front hfront (by omega), Header.encode_flags hcompletes.wellFormed]
  · intro f hf
    simpa only [Header.hasFlag, bne_iff_ne] using hcompletes.flags f hf
  · rw [hsigns.length]
    simp only [Pdu.octets, henout, hout, List.tail_cons, List.flatten_cons, List.length_append,
      Header.length_encode henc.wellFormed, hv]
  · rw [hcount, henout, hout]
    rfl

theorem queueMembers_sends (K : Crypto) (ps : List Pdu) (ctx : Context) (mid : Nat)
    (h : ∀ p ∈ ps, p.Formed) : List.Forall₂ Pdu.Sends ps (queueMembers K ctx mid ps).2 := by
  induction ps generalizing ctx mid with
  | nil => exact .nil
  | cons p ps ih =>
    obtain ⟨hp, hps⟩ := List.forall_mem_cons.mp h
    exact .cons (queueMember_sends K ctx mid hp) (ih _ _ hps)

end

section
variable {K : Crypto} {ctx ctx' : Context} {c c' : Chain} {xs : List Issued}

theorem Pdu.Sends.of_completes {p q p' : Pdu} (hc : p.header.Completes q.header)
    (hout : q.out = p.out) (h : q.Sends p') : p.Sends p' := by
  obtain ⟨v, vs, hv, hlen, hnext, flags, hflags, hset⟩ := h.head
  refine ⟨⟨v, vs, hv, hlen, ?_, flags, hflags, fun f hf => hset f (hc.flags f hf)⟩, ?_, ?_⟩
  · rw [hnext, hc.next]
  · rw [h.length, Pdu.octets, Pdu.octets, hout]
  · rw [h.count, hout]

/-- Every member of a chain is sent, whatever the role of the context. -/
theorem queuedReply_sends (h : queuedReply K ctx c = some (ctx', c'))
    (hformed : ∀ p ∈ c.members, p.Formed) :
    List.Forall₂ Pdu.Sends c.members c'.members ∧ ctx'.fault = none := by
  obtain ⟨hhead, hrest⟩ := List.forall_mem_cons.mp hformed
  unfold queuedReply at h
  simp only at h
  split at h
  · cases h
  · split at h
    · rename_i hfault
      generalize ctx.emit (.queued c ctx.security) = ctx₁ at h hfault
      unfold preparePdu at h hfault
      simp only at h hfault
      have hfirst : c.head.Sends (queueMember K ctx₁ 0
          (if ctx₁.isServer then markReply c.head else c.head)).2 := by
        split
        · have hmark := queueMember_sends K ctx₁ 0 (markReply_formed hhead)
          exact hmark.of_completes (markReply_completes hhead.header) rfl
        · exact queueMember_sends K ctx₁ 0 hhead
      generalize queueMember K ctx₁ 0 (if ctx₁.isServer then markReply c.head else c.head) = x
        at h hfault hfirst
      have hbehind := queueMembers_sends K c.rest x.1 x.2.header.messageId hrest
      generalize queueMembers K x.1 x.2.header.messageId c.rest = y at h hfault hbehind
      obtain ⟨env, es, sealed, crypt, -, hctx, hchain⟩ := encryptPdu_eq K y.1 ⟨x.2, y.2⟩ hfault
      have hpair := Option.some.inj h
      rw [hpair] at hchain hfault
      subst hchain
      exact ⟨.cons ⟨hfirst.head, hfirst.length, hfirst.count⟩ hbehind, hfault⟩
    · cases h

/-! ## The layout -/

theorem forall_mem_dropLast {α : Type} {l : List α} {P : α → Prop} :
    (∀ a ∈ l.dropLast, P a) ↔ ∀ i (h : i + 1 < l.length), P l[i] := by
  constructor
  · intro hall i hi
    have hlt : i < l.dropLast.length := by
      rw [List.length_dropLast]
      omega
    have hmem : l.dropLast[i] ∈ l.dropLast := List.getElem_mem hlt
    rw [List.getElem_dropLast] at hmem
    exact hall _ hmem
  · intro hall a ha
    obtain ⟨i, hi, rfl⟩ := List.getElem_of_mem ha
    rw [List.length_dropLast] at hi
    rw [List.getElem_dropLast]
    exact hall i (by omega)

theorem Linked.next_at {ms : List Pdu} (h : Linked ms) {i : Nat} (hi : i < ms.length) :
    ms[i].header.nextCommand = if i + 1 < ms.length then ms[i].octets.length else 0 := by
  split
  · rename_i hsucc
    exact forall_mem_dropLast.mp h.next i hsucc
  · refine h.last _ ?_
    rw [List.getLast?_eq_getElem?]
    have hlast : ms.length - 1 = i := by omega
    rw [hlast, List.getElem?_eq_getElem hi]
    rfl

theorem Linked.related_at {ms : List Pdu} (h : Linked ms) {i : Nat} (hi : i < ms.length)
    (hpos : 0 < i) : ms[i].header.hasFlag FLAGS_RELATED_OPERATIONS = true := by
  refine h.related _ ?_
  obtain ⟨j, rfl⟩ : ∃ j, i = j + 1 := ⟨i - 1, by omega⟩
  have hlt : j < ms.tail.length := by
    rw [List.length_tail]
    omega
  have htail : ms.tail[j] = ms[j + 1] := List.getElem_tail hlt
  rw [← htail]
  exact List.getElem_mem _

theorem and_related_mod (n : Nat) (h : n &&& FLAGS_RELATED_OPERATIONS ≠ 0) :
    n % 2 ^ 32 &&& FLAGS_RELATED_OPERATIONS ≠ 0 := by
  have hfour : FLAGS_RELATED_OPERATIONS = FLAGS_RELATED_OPERATIONS % 2 ^ 32 := rfl
  have hmod : n % 2 ^ 32 &&& FLAGS_RELATED_OPERATIONS = (n &&& FLAGS_RELATED_OPERATIONS) % 2 ^ 32 := by
    rw [Nat.and_mod_two_pow, ← hfour]
  have hle : n &&& FLAGS_RELATED_OPERATIONS ≤ 4 := Nat.and_le_right
  rw [hmod, Nat.mod_eq_of_lt (by omega)]
  exact h

/-- The members of a chain, before and after they are queued, by their place. -/
structure Laid (ms : List Pdu) (c' : Chain) : Prop where
  length : c'.members.length = ms.length
  header : ∀ p ∈ c'.members, (p.out.headD []).length = HEADER_SIZE
  size : ∀ i (hi : i < ms.length), c'.headerAt (i + 1) = c'.headerAt i + ms[i].octets.length
  next : ∀ i (hi : i < ms.length),
    c'.field32 (c'.headerAt i + 20) = ms[i].header.nextCommand % 2 ^ 32
  related : ∀ i (hi : i < ms.length), ms[i].header.hasFlag FLAGS_RELATED_OPERATIONS = true →
    c'.field32 (c'.headerAt i + 16) &&& FLAGS_RELATED_OPERATIONS ≠ 0

theorem laid_of_sends (h : List.Forall₂ Pdu.Sends c.members c'.members) : Laid c.members c' := by
  have hlen := h.length_eq
  have hat : ∀ i (hi : i < c.members.length) (hi' : i < c'.members.length),
      c.members[i].Sends c'.members[i] := fun i hi hi' => h.get hi hi'
  have hpart : ∀ i (hi : i < c'.members.length) (hi' : i < (c'.members.map Pdu.octets).length),
      (c'.members.map Pdu.octets)[i] = c'.members[i].octets := fun i _ hi' => List.getElem_map ..
  have hfield : ∀ i (hi : i < c'.members.length) o, o + 4 ≤ HEADER_SIZE →
      ∀ v vs, c'.members[i].out = v :: vs → v.length = HEADER_SIZE →
        c'.field32 (c'.headerAt i + o) = fromLe (slice v o 4) := by
    intro i hi o ho v vs hout hv
    have hi' : i < (c'.members.map Pdu.octets).length := by
      rw [List.length_map]
      exact hi
    have hoctets : (c'.members.map Pdu.octets)[i] = v ++ vs.flatten := by
      rw [hpart i hi hi', Pdu.octets, hout, List.flatten_cons]
    unfold Chain.field32 Chain.headerAt Chain.octets
    rw [slice_flatten hi' (by rw [hoctets, List.length_append]; omega), hoctets,
      slice_append_left (by omega)]
  refine ⟨hlen.symm, fun p' hp' => ?_, fun i hi => ?_, fun i hi => ?_, fun i hi hflag => ?_⟩
  · obtain ⟨i, hi, rfl⟩ := List.getElem_of_mem hp'
    obtain ⟨v, vs, hout, hv, -⟩ := (hat i (by omega) hi).head
    rw [hout]
    exact hv
  · have hi' : i < (c'.members.map Pdu.octets).length := by
      rw [List.length_map]
      omega
    unfold Chain.headerAt
    rw [offset_succ hi', hpart i (by omega) hi', (hat i hi (by omega)).length]
  · obtain ⟨v, vs, hout, hv, hnext, -⟩ := (hat i hi (by omega)).head
    rw [hfield i (by omega) 20 (by simp [HEADER_SIZE]) v vs hout hv, hnext, fromLe_le]
    rfl
  · obtain ⟨v, vs, hout, hv, -, flags, hflags, hset⟩ := (hat i hi (by omega)).head
    rw [hfield i (by omega) 16 (by simp [HEADER_SIZE]) v vs hout hv, hflags, fromLe_le]
    exact and_related_mod flags (hset _ hflag)

/-- **A chain of commands is laid out as it should be** iff no member before the last has a
payload that ends off a multiple of eight, and none has 2^32 octets. -/
theorem chains_are_well_laid (hb : Built xs c) (hq : queuedReply K ctx c = some (ctx', c')) :
    WellLaid c' ↔ (∀ x ∈ xs.dropLast, x.Padded) ∧
      ∀ p ∈ c.members.dropLast, p.octets.length < 2 ^ 32 := by
  obtain ⟨hmade, hlinked⟩ := hb.linked
  have hcount : xs.length = c.members.length := hmade.length_eq
  have hlaid := laid_of_sends (queuedReply_sends hq hb.formed).1
  have hlen := hlaid.length
  -- both sides, member by member
  have hpadded : (∀ x ∈ xs.dropLast, x.Padded) ↔
      ∀ i (hi : i + 1 < c.members.length), 8 ∣ c.members[i].octets.length := by
    rw [forall_mem_dropLast]
    refine ⟨fun h i hi => ?_, fun h i hi => ?_⟩
    · exact (hmade.get (by omega) (by omega)).padded.mpr (h i (by omega))
    · exact (hmade.get (by omega) (by omega)).padded.mp (h i (by omega))
  have haligned : (∀ i < c'.members.length, 8 ∣ c'.headerAt i) ↔
      ∀ i (hi : i + 1 < c.members.length), 8 ∣ c.members[i].octets.length := by
    have hsizes : ∀ i (hi : i < c.members.length), 8 ∣ c'.headerAt i →
        (8 ∣ c'.headerAt (i + 1) ↔ 8 ∣ c.members[i].octets.length) := by
      intro i hi hdvd
      rw [hlaid.size i hi]
      exact (Nat.dvd_add_iff_right hdvd).symm
    refine ⟨fun h i hi => ?_, fun h i hi => ?_⟩
    · exact (hsizes i (by omega) (h i (by omega))).mp (h (i + 1) (by omega))
    · induction i with
      | zero => exact Nat.dvd_zero 8
      | succ i ih => exact (hsizes i (by omega) (ih (by omega))).mpr (h i (by omega))
  rw [hpadded, forall_mem_dropLast, ← haligned]
  constructor
  · intro hwell
    refine ⟨hwell.aligned, fun i hi => ?_⟩
    have hnext := hwell.next i (by omega)
    rw [hlaid.next i (by omega), hlinked.next_at (by omega), if_pos hi, if_pos (by omega),
      hlaid.size i (by omega)] at hnext
    omega
  · rintro ⟨haligned, hsmall⟩
    refine ⟨hlaid.header, haligned, fun i hi => ?_, fun i hi hpos => ?_⟩
    · rw [hlaid.next i (by omega), hlinked.next_at (by omega), hlen]
      split
      · rename_i hsucc
        have hlt := hsmall i hsucc
        rw [hlaid.size i (by omega)]
        omega
      · rfl
    · exact hlaid.related i (by omega) (hlinked.related_at (by omega) hpos)

end

/-- The file that the commands of the examples are about. -/
def someFile : FileId := ⟨zeros 16, rfl⟩

/-- The request of a command, the `n`-th of a context. -/
def issue (x : Issued) (n : Nat) : Pdu :=
  (x.cmd.async x.settings { dialect := VERSION_0302, nextId := n } .none).1.getD {}

theorem built_issue {x : Issued} {n : Nat}
    (h : (x.cmd.async x.settings { dialect := VERSION_0302, nextId := n } .none).1.isSome = true) :
    Built [x] (.single (issue x n)) := by
  obtain ⟨p, hp⟩ := Option.isSome_iff_exists.mp h
  have hissue : issue x n = p := by
    rw [issue, hp]
    rfl
  rw [hissue]
  exact .one (Prod.ext hp rfl)

/-- A WRITE of one octet, and the CLOSE of the file. -/
def writeOne : Issued := ⟨{}, .write { length := 1, buf := fun _ => 0, fileId := someFile }⟩
def closeFile : Issued := ⟨{}, .close 0 someFile⟩

def writeThenClose : Chain :=
  addCompoundPdu (.single (issue writeOne 1)) (.single (issue closeFile 2))

/-- **The CLOSE behind a WRITE of one octet is at offset 113.** -/
theorem close_is_misaligned : Built [writeOne, closeFile] writeThenClose ∧
    ∃ ctx' c', queuedReply echoCrypto {} writeThenClose = some (ctx', c') ∧
      c'.headerAt 1 = 113 ∧ ¬WellLaid c' := by
  refine ⟨.chained (built_issue (by decide +kernel)) (built_issue (by decide +kernel)), ?_⟩
  have hqueued : (queuedReply echoCrypto {} writeThenClose).map (fun x =>
      (x.2.headerAt 1, x.2.members.length)) = some (113, 2) := by decide +kernel
  obtain ⟨⟨ctx', c'⟩, hq, hpair⟩ := Option.map_eq_some_iff.mp hqueued
  obtain ⟨hat, hcount⟩ := Prod.mk.inj hpair
  refine ⟨ctx', c', hq, hat, fun hwell => ?_⟩
  have hdvd := hwell.aligned 1 (by rw [hcount]; omega)
  rw [hat] at hdvd
  omega

theorem chains_are_well_laid_closes :
    Built [closeFile, closeFile]
        (addCompoundPdu (.single (issue closeFile 1)) (.single (issue closeFile 2))) ∧
      ∃ ctx' c', queuedReply echoCrypto {}
        (addCompoundPdu (.single (issue closeFile 1)) (.single (issue closeFile 2))) =
          some (ctx', c') ∧ WellLaid c' := by
  have hb : Built ([closeFile] ++ [closeFile])
      (addCompoundPdu (.single (issue closeFile 1)) (.single (issue closeFile 2))) :=
    .chained (built_issue (by decide +kernel)) (built_issue (by decide +kernel))
  have hsome : (queuedReply echoCrypto {}
      (addCompoundPdu (.single (issue closeFile 1)) (.single (issue closeFile 2)))).isSome = true := by
    decide +kernel
  obtain ⟨⟨ctx', c'⟩, hq⟩ := Option.isSome_iff_exists.mp hsome
  refine ⟨hb, ctx', c', hq, (chains_are_well_laid hb hq).mpr ⟨fun x hx => ?_, ?_⟩⟩
  · obtain rfl : x = closeFile := by simpa using hx
    trivial
  · decide +kernel

/-! ## The gather array -/

/-- The vectors that `smb2_write_to_socket` copies into an array of `SMB2_MAX_VECTORS`, the length
prefix first. -/
def gathered (ctx : Context) : Nat :=
  match ctx.outqueue with
  | [] => 0
  | c :: _ =>
    if getCreditCharge ctx c > ctx.creditsU32 then 0
    else if c.head.sealed then 2
    else 1 + c.niov

section
variable {K : Crypto} {ctx ctx' ctx₂ : Context} {c c' : Chain} {rest : List Chain}
  {xs : List Issued}

theorem niov_of_sends (h : List.Forall₂ Pdu.Sends c.members c'.members) : c'.niov = c.niov := by
  unfold Chain.niov
  generalize c.members = ps at h
  generalize c'.members = qs at h
  induction h with
  | nil => rfl
  | cons hpq _ ih => simp only [List.map_cons, List.sum_cons, hpq.count, ih]

/-- **The vectors of a plain chain fit the array** iff its members have at most 255 in all, or
the credits do not allow the chain to be sent. -/
theorem gathered_vectors_fit (hb : Built xs c) (hq : queuedReply K ctx c = some (ctx', c'))
    (hplain : c'.head.sealed = false) (hout : ctx₂.outqueue = c' :: rest) :
    gathered ctx₂ ≤ MAX_VECTORS ↔
      c.niov < MAX_VECTORS ∨ ctx₂.creditsU32 < getCreditCharge ctx₂ c' := by
  have hniov := niov_of_sends (queuedReply_sends hq hb.formed).1
  unfold gathered
  rw [hout]
  simp only [hplain, Bool.false_eq_true, if_false, hniov]
  split
  · rename_i hcredits
    exact ⟨fun _ => .inr hcredits, fun _ => Nat.zero_le _⟩
  · omega

end

/-- A READ: the header, the fixed part, one octet and the padding. -/
def readFile : Issued := ⟨{}, .read { length := 1, fileId := someFile }⟩

/-- `n + 1` READs in a chain. -/
def reads : Nat → Chain
  | 0 => .single (issue readFile 1)
  | n + 1 => addCompoundPdu (reads n) (.single (issue readFile (n + 2)))

theorem reads_built (n : Nat) : Built (List.replicate (n + 1) readFile) (reads n) := by
  have hissued : ∀ k, (readFile.cmd.async readFile.settings
      { dialect := VERSION_0302, nextId := k } .none).1.isSome = true := by
    have hout : (readFile.cmd.marshal readFile.settings .any false).isSome = true := by
      decide +kernel
    exact fun _ => Cmd.async_isSome rfl (by decide +kernel) hout
  induction n with
  | zero => exact built_issue (hissued 1)
  | succ n ih =>
    rw [List.replicate_succ']
    exact .chained ih (built_issue (hissued (n + 2)))

/-- A context that has 64 credits. -/
def sixtyFour : Context := { dialect := VERSION_0302, credits := 64 }

/-- **A chain of 64 READs is not rejected**: its 257 vectors are written past the array. -/
theorem reads_overrun : Built (List.replicate 64 readFile) (reads 63) ∧
    (reads 63).niov + 1 = 257 ∧
    (queuePdu echoCrypto sixtyFour (reads 63)).fault = some .vectorOverrun := by
  refine ⟨reads_built 63, by decide +kernel, by decide +kernel⟩

theorem gathered_vectors_fit_one : Built [readFile] (reads 0) ∧
    ∃ ctx' c', queuedReply echoCrypto sixtyFour (reads 0) = some (ctx', c') ∧
      c'.head.sealed = false ∧ gathered { sixtyFour with outqueue := [c'] } ≤ MAX_VECTORS := by
  refine ⟨reads_built 0, ?_⟩
  have hqueued : (queuedReply echoCrypto sixtyFour (reads 0)).map (fun x => x.2.head.sealed) =
      some false := by decide +kernel
  obtain ⟨⟨ctx', c'⟩, hq, hplain⟩ := Option.map_eq_some_iff.mp hqueued
  exact ⟨ctx', c', hq, hplain,
    (gathered_vectors_fit (reads_built 0) hq hplain rfl).mpr (.inl (by decide +kernel))⟩

end Libsmb2
