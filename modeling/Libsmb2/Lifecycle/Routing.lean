import Libsmb2.Lifecycle.Framing
import Libsmb2.Receive.Events

/-!
# Whose reply is it

A client looks the request of a reply up by its message id.  The receive path reports each
lookup with the context it was made in (`RxEvent.matched`) and each callback that it runs
(`RxEvent.dispatched`), so that the routing of replies is a property of its log.

* `Ordered` — the invariant of the queues: the chains that were queued are linked by the
  message ids of their members, all members of a chain leave the out queue together, and where
  a reply has been taken for a member, the member before it no longer waits;
* `Step.ordered` — every step of the queues keeps it;
* `phase_routes` — every phase keeps it, and routes what it dispatches;
* `replies_are_routed` — hence in every run each callback that a reply runs is that of the
  waiting request with its message id.
-/

set_option autoImplicit false

namespace Libsmb2

open Util Relation

/-- What links a request into its chain, and finds it when its reply comes. -/
structure Pdu.Key where
  id : Nat
  messageId : Nat
  prevMid : Nat
  deriving DecidableEq, Repr

def Pdu.key (p : Pdu) : Pdu.Key := ⟨p.id, p.header.messageId, p.prevCompoundMid⟩

/-- Each member of a chain knows the message id of the one before it. -/
def Chain.Linked (c : Chain) : Prop :=
  c.members.IsChain fun p q => q.prevCompoundMid = p.header.messageId

/-- `p` stands directly before `q` in the chain. -/
def Chain.Before (c : Chain) (p q : Pdu) : Prop := ∃ l r, c.members = l ++ p :: q :: r

variable {p q : Pdu}

theorem Chain.Linked.before {c : Chain} (hl : c.Linked) (hb : c.Before p q) :
    q.prevCompoundMid = p.header.messageId := by
  obtain ⟨l, r, he⟩ := hb
  unfold Chain.Linked at hl
  rw [he] at hl
  have htail := (List.isChain_append.mp hl).2.1
  exact (List.isChain_cons_cons.mp htail).1

/-- Only the message id of the head matters to the members behind it. -/
theorem Chain.Linked.of_head {c : Chain} (hl : c.Linked)
    (hm : p.header.messageId = c.head.header.messageId) : Chain.Linked ⟨p, c.rest⟩ := by
  unfold Chain.Linked Chain.members at hl ⊢
  cases hr : c.rest with
  | nil => exact List.isChain_singleton _
  | cons q qs =>
    rw [hr] at hl
    obtain ⟨hq, hrest⟩ := List.isChain_cons_cons.mp hl
    exact List.isChain_cons_cons.mpr ⟨hq.trans hm.symm, hrest⟩

theorem Chain.Before.mem {c : Chain} (hb : c.Before p q) :
    p ∈ c.members ∧ q ∈ c.members := by
  obtain ⟨l, r, he⟩ := hb
  rw [he]
  simp

theorem Chain.ids_of_keys {c d : Chain} (hk : c.members.map Pdu.key = d.members.map Pdu.key) :
    c.ids = d.ids := by
  have := congrArg (List.map Pdu.Key.id) hk
  simpa [Chain.ids, Pdu.key, Function.comp_def] using this

/-! ## The queues -/

/-- What is known of the queues when `T` are the requests that a reply was taken for. -/
structure Ordered (T : Nat → Prop) (ctx : Context) : Prop where
  distinct : Distinct ctx
  linked : ∀ c, .enqueued c ∈ ctx.log → c.Linked
  known : ∀ c, .enqueued c ∈ ctx.log → ∀ i ∈ c.ids, i < ctx.nextId ∧ occ ctx.held i = 0
  apart : ∀ c d, .enqueued c ∈ ctx.log → .enqueued d ∈ ctx.log → ∀ i ∈ c.ids, i ∈ d.ids → c = d
  queued : ∀ c ∈ ctx.outqueue, ∃ d, .enqueued d ∈ ctx.log ∧
    d.members.map Pdu.key = c.members.map Pdu.key
  waits : ∀ w ∈ ctx.waitqueue, ∀ c, .enqueued c ∈ ctx.log → ∀ q ∈ c.members, q.id = w.id →
    q.key = w.key
  /-- The members of a chain are sent together. -/
  together : ∀ c, .enqueued c ∈ ctx.log → ∀ i ∈ c.ids, ∀ j ∈ c.ids,
    j ∈ ctx.waitqueue.map Pdu.id → occ ctx.outqueue i = 0
  taken : ∀ i, T i → i < ctx.nextId ∧ ctx.occurs i = 0
  order : ∀ c, .enqueued c ∈ ctx.log → ∀ p q, c.Before p q → p.header.messageId ≠ 0 → T q.id →
    ctx.occurs p.id = 0

/-- A change that only takes requests away. -/
structure Shrinks (ctx ctx' : Context) : Prop where
  enqueued : ∀ c, .enqueued c ∈ ctx'.log → .enqueued c ∈ ctx.log
  kept : ∀ c, .enqueued c ∈ ctx.log → .enqueued c ∈ ctx'.log
  nextId : ctx.nextId ≤ ctx'.nextId
  held : ctx'.held.Sublist ctx.held
  out : ctx'.outqueue.Sublist ctx.outqueue
  wait : ctx'.waitqueue.Sublist ctx.waitqueue

section
variable {K : Crypto} {D : Decoders} {G : Prop} {T T' : Nat → Prop} {ctx ctx' : Context}

theorem occ_sublist {cs ds : List Chain} (h : cs.Sublist ds) (i : Nat) : occ cs i ≤ occ ds i := by
  induction h with
  | slnil => exact le_refl _
  | cons d _ ih =>
    rw [occ_cons]
    omega
  | cons_cons d _ ih =>
    rw [occ_cons, occ_cons]
    omega

theorem Shrinks.occurs (hs : Shrinks ctx ctx') (i : Nat) : ctx'.occurs i ≤ ctx.occurs i := by
  have hh := occ_sublist hs.held i
  have ho := occ_sublist hs.out i
  have hw := (hs.wait.map Pdu.id).count_le i
  simp only [Context.occurs]
  omega

/-- **What only takes requests away keeps the order.** -/
theorem Ordered.shrink (ho : Ordered T ctx) (hs : Shrinks ctx ctx') (hT : ∀ i, T' i → T i) :
    Ordered T' ctx' where
  distinct := by
    constructor
    · intro i
      exact (hs.occurs i).trans (ho.distinct.once i)
    · intro i hi
      have := hs.occurs i
      have := ho.distinct.fresh i (hs.nextId.trans hi)
      omega
  linked c hc := ho.linked c (hs.enqueued c hc)
  known c hc i hi := by
    obtain ⟨hlt, hz⟩ := ho.known c (hs.enqueued c hc) i hi
    have := occ_sublist hs.held i
    exact ⟨hlt.trans_le hs.nextId, by omega⟩
  apart c d hc hd := ho.apart c d (hs.enqueued c hc) (hs.enqueued d hd)
  queued c hc := by
    obtain ⟨d, hd, hk⟩ := ho.queued c (hs.out.subset hc)
    exact ⟨d, hs.kept d hd, hk⟩
  waits w hw c hc := ho.waits w (hs.wait.subset hw) c (hs.enqueued c hc)
  together c hc i hi j hj hw := by
    have hz := ho.together c (hs.enqueued c hc) i hi j hj ((hs.wait.map Pdu.id).subset hw)
    have := occ_sublist hs.out i
    omega
  taken i hi := by
    obtain ⟨hlt, hz⟩ := ho.taken i (hT i hi)
    have := hs.occurs i
    exact ⟨hlt.trans_le hs.nextId, by omega⟩
  order c hc p q hb hm hq := by
    have hz := ho.order c (hs.enqueued c hc) p q hb hm (hT _ hq)
    have := hs.occurs p.id
    omega

theorem Shrinks.of_same (hl : ∀ c, .enqueued c ∈ ctx'.log ↔ .enqueued c ∈ ctx.log)
    (hid : ctx'.nextId = ctx.nextId) (hh : ctx'.held = ctx.held)
    (ho : ctx'.outqueue = ctx.outqueue) (hw : ctx'.waitqueue = ctx.waitqueue) :
    Shrinks ctx ctx' :=
  ⟨fun c => (hl c).mp, fun c => (hl c).mpr, hid.ge, by rw [hh], by rw [ho], by rw [hw]⟩

theorem Shrinks.refl (ctx : Context) : Shrinks ctx ctx :=
  .of_same (fun _ => Iff.rfl) rfl rfl rfl rfl

theorem Shrinks.trans {ctx'' : Context} (h₁ : Shrinks ctx ctx') (h₂ : Shrinks ctx' ctx'') :
    Shrinks ctx ctx'' :=
  ⟨fun c hc => h₁.enqueued c (h₂.enqueued c hc), fun c hc => h₂.kept c (h₁.kept c hc),
    h₁.nextId.trans h₂.nextId, h₂.held.trans h₁.held, h₂.out.trans h₁.out, h₂.wait.trans h₁.wait⟩

/-- Events that do not put a chain on the out queue. -/
theorem enqueued_append {l k : List Event} (he : ∀ c, .enqueued c ∉ k) (c : Chain) :
    .enqueued c ∈ l ++ k ↔ .enqueued c ∈ l := by
  constructor
  · intro h
    rcases List.mem_append.mp h with h | h
    · exact h
    · exact absurd h (he c)
  · exact List.mem_append_left _

theorem emit_shrinks {e : Event} (he : ∀ c, e ≠ .enqueued c) (ctx : Context) :
    Shrinks ctx (ctx.emit e) :=
  .of_same (enqueued_append (fun c h => he c (List.mem_singleton.mp h).symm)) rfl rfl rfl rfl

theorem freePdu_shrinks (ctx : Context) (id : Nat) : Shrinks ctx (ctx.freePdu id) := by
  have hl := enqueued_append (l := ctx.log)
    (k := (ctx.outqueue.filter fun c => c.head.id == id).map .removed) (by simp)
  exact ⟨fun c => (hl c).mp, fun c => (hl c).mpr, le_refl _, .refl _, List.filter_sublist,
    List.filter_sublist⟩

theorem unlink_shrinks (ctx : Context) (q : Queue) (id : Nat) : Shrinks ctx (ctx.unlink q id) := by
  cases q with
  | out =>
    have hl := enqueued_append (l := ctx.log)
      (k := (ctx.outqueue.filter fun c => c.head.id == id).map .removed) (by simp)
    exact ⟨fun c => (hl c).mp, fun c => (hl c).mpr, le_refl _, .refl _, List.filter_sublist,
      .refl _⟩
  | wait =>
    have hl := enqueued_append (l := ctx.log)
      (k := [.expired id (ctx.pdu.map Pdu.id == some id)]) (by simp)
    exact ⟨fun c => (hl c).mp, fun c => (hl c).mpr, le_refl _, .refl _, .refl _,
      List.filter_sublist⟩

theorem Quiet.shrinks (hq : Quiet G ctx ctx') (hc : ctx.isServer = false) : Shrinks ctx ctx' := by
  obtain ⟨es, hl, he⟩ := hq.log
  obtain ⟨k₁, ho, _⟩ := hq.out
  obtain ⟨k₂, hh⟩ := hq.held
  have hno : ∀ c, .enqueued c ∉ es := by
    intro c hmem
    rcases he _ hmem with h | ⟨_, d, h⟩
    · cases h
    · cases h
  have hl' := enqueued_append (l := ctx.log) hno
  rw [← hl] at hl'
  refine ⟨fun c => (hl' c).mp, fun c => (hl' c).mpr, hq.nextId.ge, ?_, ?_, hq.sub hc⟩
  · rw [hh]
    exact List.filter_sublist
  · rw [ho]
    exact List.filter_sublist

/-! ## Queueing links the members -/

/-- A client numbers a member, and signing leaves the number alone. -/
theorem signMember_key (ctx : Context) (p : Pdu) : (signMember K ctx p).2.key = p.key := by
  unfold signMember
  split
  · exact pduAddSignature_cases K ctx p (fun _ => rfl) rfl rfl rfl
  · rfl

theorem queueMember_prevMid (hc : ctx.isServer = false) (mid : Nat) (p : Pdu) :
    (queueMember K ctx mid p).2.prevCompoundMid = mid := by
  have hkey := signMember_key (K := K) (encodeMember ctx mid p).1 (encodeMember ctx mid p).2
  have hprev : (queueMember K ctx mid p).2.prevCompoundMid =
      (encodeMember ctx mid p).2.prevCompoundMid := congrArg Pdu.Key.prevMid hkey
  rw [hprev]
  unfold encodeMember
  simp only [hc, Bool.false_eq_true, if_false]

/-- The loop of `smb2_queue_pdu` links each member to the one before it. -/
theorem queueMembers_linked (ps : List Pdu) (hc : ctx.isServer = false) (p : Pdu) :
    (p :: (queueMembers K ctx p.header.messageId ps).2).IsChain
      fun p q => q.prevCompoundMid = p.header.messageId := by
  induction ps generalizing ctx p with
  | nil => exact List.isChain_singleton _
  | cons q qs ih =>
    have hq := queueMember_quiet (G := True) (K := K) ctx p.header.messageId q (fun _ => trivial)
    have hprev := queueMember_prevMid (K := K) hc p.header.messageId q
    have hrest := ih (hq.isServer.trans hc) (queueMember K ctx p.header.messageId q).2
    exact List.isChain_cons_cons.mpr ⟨hprev, hrest⟩

theorem preparePdu_linked (hc : ctx.isServer = false) (c : Chain) :
    (preparePdu K ctx c).2.Linked := by
  have hseal : ∀ (ctx : Context) (d : Chain), d.Linked → (encryptPdu K ctx d).2.Linked := by
    intro ctx d hd
    exact encryptPdu_cases K ctx d hd hd (hd.of_head rfl) (hd.of_head rfl)
  unfold preparePdu
  simp only [hc, Bool.false_eq_true, if_false]
  refine hseal _ _ ?_
  have hq := queueMember_quiet (G := True) (K := K) ctx 0 c.head (fun _ => trivial)
  exact queueMembers_linked c.rest (hq.isServer.trans hc) (queueMember K ctx 0 c.head).2

/-- What the application holds was never queued, nor has a reply been taken for it. -/
theorem Ordered.unqueued (ho : Ordered T ctx) {c : Chain} (hc : c ∈ ctx.held) {i : Nat}
    (hi : i ∈ c.ids) : (∀ d, .enqueued d ∈ ctx.log → i ∉ d.ids) ∧ ¬ T i ∧
      i ∉ ctx.waitqueue.map Pdu.id ∧ occ ctx.outqueue i = 0 := by
  have hpos := occ_pos_of_mem hc hi
  have honce := ho.distinct.once i
  simp only [Context.occurs] at honce
  refine ⟨?_, ?_, ?_, by omega⟩
  · intro d hd hmem
    have := (ho.known d hd i hmem).2
    omega
  · intro hT
    have := (ho.taken i hT).2
    simp only [Context.occurs] at this
    omega
  · exact List.count_eq_zero.mp (by omega)

/-- A chain goes from the application to the out queue. -/
theorem submitted_ordered {id : Nat} {c : Chain} (ho : Ordered T ctx) (hc : ctx.isServer = false)
    (hfind : ctx.findHeld id = some c) (hf : (submitted K ctx id c).fault = none) :
    Ordered T (submitted K ctx id c) := by
  obtain ⟨hmem, hid⟩ := Context.findHeld_mem hfind
  have hocc := submitted_occurs hfind hf
  have hids := Chain.ids_eq_of_tags
    (preparePdu_tag (K := K) ((ctx.dropHeld id).emit (.queued c ctx.security)) c)
  have hc' : ((ctx.dropHeld id).emit (.queued c ctx.security)).isServer = false := hc
  have hlinked := preparePdu_linked (K := K) hc' c
  have hnew : ∀ i ∈ c.ids, _ := fun i hi => ho.unqueued hmem hi
  rcases preparePdu_quiet (G := False) (K := K) ((ctx.dropHeld id).emit (.queued c ctx.security)) c
    (fun hs => by simp [Context.emit, Context.dropHeld, hc] at hs) with hov | hq
  · exact absurd hf hov.fault
  obtain ⟨hout, hwait, hheld⟩ := hq.same (fun h => h)
  have hlog := (hq.shrinks hc)
  unfold submitted at hocc ⊢
  simp only at hocc ⊢
  generalize preparePdu K ((ctx.dropHeld id).emit (.queued c ctx.security)) c = x at *
  -- the chain that is new in the log, and the others
  have henq : ∀ d, .enqueued d ∈ x.1.log ++ [.enqueued x.2] → d = x.2 ∨ .enqueued d ∈ ctx.log := by
    intro d hd
    rcases List.mem_append.mp hd with hd | hd
    · have hin := hlog.enqueued d hd
      simp only [Context.emit, Context.dropHeld] at hin
      refine .inr ?_
      simpa using hin
    · exact .inl (by simpa using hd)
  have hold : ∀ d, .enqueued d ∈ ctx.log → .enqueued d ∈ x.1.log ++ [.enqueued x.2] := by
    intro d hd
    refine List.mem_append_left _ (hlog.kept d ?_)
    exact List.mem_append_left _ hd
  have hheld' : ∀ i, occ x.1.held i ≤ occ ctx.held i := by
    intro i
    rw [hheld]
    exact occ_filter_le _ _ i
  have hlater : ∀ i, i ∈ c.ids → occ x.1.held i = 0 := by
    intro i hi
    have hdrop := occ_filter_add_le (k := fun c => c.head.id != id) hmem (by simp [hid]) i
    have hpos := List.count_pos_iff.mpr hi
    have honce := ho.distinct.once i
    simp only [Context.occurs] at honce
    rw [hheld]
    simp only [Context.emit, Context.dropHeld]
    omega
  constructor
  · exact ho.distinct.of_le hocc.1.ge hocc.2
  · intro d hd
    rcases henq d hd with rfl | hd
    · exact hlinked
    · exact ho.linked d hd
  · intro d hd i hi
    rcases henq d hd with rfl | hd
    · rw [hids] at hi
      have hlt : i < ctx.nextId := by
        by_contra hge
        have hfresh := ho.distinct.fresh i (by omega)
        have hpos := occ_pos_of_mem hmem hi
        simp only [Context.occurs] at hfresh
        omega
      exact ⟨by rw [hocc.1]; exact hlt, hlater i hi⟩
    · obtain ⟨hlt, hz⟩ := ho.known d hd i hi
      exact ⟨by rw [hocc.1]; exact hlt, Nat.le_zero.mp (hz ▸ hheld' i)⟩
  · intro d e hd he i hid' hie
    rcases henq d hd with rfl | hd <;> rcases henq e he with rfl | he
    · rfl
    · rw [hids] at hid'
      exact absurd hie ((hnew i hid').1 e he)
    · rw [hids] at hie
      exact absurd hid' ((hnew i hie).1 d hd)
    · exact ho.apart d e hd he i hid' hie
  · intro d hd
    rw [hout] at hd
    rcases List.mem_append.mp hd with hd | hd
    · obtain ⟨e, he, hk⟩ := ho.queued d hd
      exact ⟨e, hold e he, hk⟩
    · have hd' : d = x.2 := List.mem_singleton.mp hd
      subst hd'
      exact ⟨x.2, List.mem_append_right _ (List.mem_singleton.mpr rfl), rfl⟩
  · intro w hw d hd q hqd hqw
    rw [hwait] at hw
    rcases henq d hd with rfl | hd
    · have hqi : q.id ∈ c.ids := by
        rw [← hids]
        exact Chain.mem_ids hqd
      exact absurd (List.mem_map.mpr ⟨w, hw, hqw.symm⟩) (hnew _ hqi).2.2.1
    · exact ho.waits w hw d hd q hqd hqw
  · intro d hd i hi j hj hw
    rw [hwait] at hw
    rcases henq d hd with rfl | hd
    · rw [hids] at hj
      exact absurd hw (hnew j hj).2.2.1
    · have hz := ho.together d hd i hi j hj hw
      have hni : i ∉ c.ids := by
        intro hic
        exact (hnew i hic).1 d hd hi
      have hcount : x.2.ids.count i = 0 := by
        rw [hids]
        exact List.count_eq_zero.mpr hni
      have hout' : x.1.outqueue = ctx.outqueue := hout
      simp only [hout', occ_append, occ_cons, occ_nil, hcount, hz]
  · intro i hi
    obtain ⟨hlt, hz⟩ := ho.taken i hi
    have := hocc.2 i
    exact ⟨by rw [hocc.1]; exact hlt, by omega⟩
  · intro d hd p q hb hm hq'
    rcases henq d hd with rfl | hd
    · have hqi : q.id ∈ c.ids := by
        rw [← hids]
        exact Chain.mem_ids hb.mem.2
      exact absurd hq' (hnew _ hqi).2.1
    · have hz := ho.order d hd p q hb hm hq'
      have := hocc.2 p.id
      omega

/-! ## The steps of the queues -/

/-- A request is allocated. -/
theorem alloc_ordered (ho : Ordered T ctx) (hid : p.id = ctx.nextId) :
    Ordered T { ctx with held := ctx.held ++ [.single p], nextId := ctx.nextId + 1 } := by
  have hone : ∀ i, (Chain.single p).ids.count i = if ctx.nextId = i then 1 else 0 := by
    intro i
    simp only [Chain.single, Chain.ids, Chain.members, List.map_cons, List.map_nil,
      List.count_singleton, hid, beq_iff_eq]
  constructor
  · constructor
    · intro i
      have honce := ho.distinct.once i
      have hfresh := ho.distinct.fresh i
      simp only [Context.occurs, occ_append, occ_cons, occ_nil, hone] at honce hfresh ⊢
      split <;> omega
    · intro i hi
      have hfresh := ho.distinct.fresh i
      simp only [Context.occurs, occ_append, occ_cons, occ_nil, hone] at hi hfresh ⊢
      split <;> omega
  · exact ho.linked
  · intro c hc i hi
    obtain ⟨hlt, hz⟩ := ho.known c hc i hi
    refine ⟨Nat.lt_succ_of_lt hlt, ?_⟩
    simp only [occ_append, occ_cons, occ_nil, hone]
    split <;> omega
  · exact ho.apart
  · exact ho.queued
  · exact ho.waits
  · exact ho.together
  · intro i hi
    obtain ⟨hlt, hz⟩ := ho.taken i hi
    refine ⟨Nat.lt_succ_of_lt hlt, ?_⟩
    simp only [Context.occurs, occ_append, occ_cons, occ_nil, hone] at hz ⊢
    split <;> omega
  · intro c hc p' q hb hm hq
    have hz := ho.order c hc p' q hb hm hq
    have hlt := (ho.known c hc p'.id (Chain.mem_ids hb.mem.1)).1
    simp only [Context.occurs, occ_append, occ_cons, occ_nil, hone] at hz ⊢
    split <;> omega

/-- Two chains of the application are joined. -/
theorem joined_ordered {a b : Nat} {c next : Chain} (ho : Ordered T ctx)
    (hc : ctx.findHeld a = some c) (hn : (ctx.dropHeld a).findHeld b = some next) :
    Ordered T (joined ctx a b c next) := by
  have hocc := joined_occurs hc hn
  have hheld : ∀ i, occ (joined ctx a b c next).held i ≤ occ ctx.held i := by
    intro i
    have := hocc i
    simp only [Context.occurs, joined, Context.dropHeld] at this ⊢
    omega
  constructor
  · exact ho.distinct.of_le (le_refl _) hocc
  · exact ho.linked
  · intro d hd i hi
    obtain ⟨hlt, hz⟩ := ho.known d hd i hi
    exact ⟨hlt, Nat.le_zero.mp (hz ▸ hheld i)⟩
  · exact ho.apart
  · exact ho.queued
  · exact ho.waits
  · exact ho.together
  · intro i hi
    obtain ⟨hlt, hz⟩ := ho.taken i hi
    exact ⟨hlt, Nat.le_zero.mp (hz ▸ hocc i)⟩
  · intro d hd p q hb hm hq
    exact Nat.le_zero.mp (ho.order d hd p q hb hm hq ▸ hocc p.id)

/-- The first chain of the out queue has been sent: its members wait. -/
theorem sent_ordered {c c' : Chain} {rest : List Chain} {ws : List Pdu} (cr : Int)
    (ld : List Posting) (w : Bytes) (ho : Ordered T ctx) (hq : ctx.outqueue = c :: rest)
    (hk : c'.members.map Pdu.key = c.members.map Pdu.key)
    (hws : ws = ctx.waitqueue ++ c'.members) :
    Ordered T { ctx with
      wire := w
      outqueue := rest
      credits := cr
      ledger := ld
      waitqueue := ws } := by
  subst hws
  have hids : c'.ids = c.ids := Chain.ids_of_keys hk
  have hmap : c'.members.map Pdu.id = c.ids := hids
  obtain ⟨d₀, hd₀, hk₀⟩ := ho.queued c (by rw [hq]; exact List.mem_cons_self ..)
  have hids₀ : d₀.ids = c.ids := Chain.ids_of_keys hk₀
  have hcin : c ∈ ctx.outqueue := by
    rw [hq]
    exact List.mem_cons_self ..
  have honce := ho.distinct.once
  have hocc : ∀ i, Context.occurs { ctx with
      wire := w
      outqueue := rest
      credits := cr
      waitqueue := ctx.waitqueue ++ c'.members } i = ctx.occurs i := by
    intro i
    simp only [Context.occurs, hq, occ_cons, List.map_append, List.count_append, hmap]
    omega
  constructor
  · exact ho.distinct.of_le (le_refl _) (fun i => (hocc i).le)
  · exact ho.linked
  · exact ho.known
  · exact ho.apart
  · intro d hd
    exact ho.queued d (by rw [hq]; exact List.mem_cons_of_mem _ hd)
  · intro x hx d hd q hqd hqx
    rcases List.mem_append.mp hx with hx | hx
    · exact ho.waits x hx d hd q hqd hqx
    · -- a member of the chain just sent: its chain in the log is `d₀`
      have hxi : x.id ∈ d₀.ids := by
        rw [hids₀, ← hids]
        exact Chain.mem_ids hx
      have hdd : d = d₀ := by
        refine ho.apart d d₀ hd hd₀ x.id ?_ hxi
        rw [← hqx]
        exact Chain.mem_ids hqd
      subst hdd
      have hxk : x.key ∈ d.members.map Pdu.key := by
        rw [hk₀, ← hk]
        exact List.mem_map.mpr ⟨x, hx, rfl⟩
      obtain ⟨y, hy, hyk⟩ := List.mem_map.mp hxk
      have hnd : (d.members.map Pdu.id).Nodup := by
        refine List.nodup_iff_count_le_one.mpr ?_
        intro i
        have h₁ := honce i
        have h₂ : (d.members.map Pdu.id).count i = c.ids.count i := by
          show d.ids.count i = c.ids.count i
          rw [hids₀]
        simp only [Context.occurs, hq, occ_cons] at h₁
        omega
      have hyx : y.id = x.id := congrArg Pdu.Key.id hyk
      have hqy : q = y := by
        refine List.inj_on_of_nodup_map hnd hqd hy ?_
        rw [hqx, hyx]
      rw [hqy]
      exact hyk
  · intro d hd i hi j hj hw
    have hle : occ rest i ≤ occ ctx.outqueue i := by
      rw [hq, occ_cons]
      omega
    rw [List.map_append, hmap] at hw
    rcases List.mem_append.mp hw with hw | hw
    · have := ho.together d hd i hi j hj hw
      simp only
      omega
    · have hdd : d = d₀ := by
        refine ho.apart d d₀ hd hd₀ j hj ?_
        rw [hids₀]
        exact hw
      subst hdd
      rw [hids₀] at hi
      have hpos := List.count_pos_iff.mpr hi
      have h₁ := honce i
      simp only [Context.occurs, hq, occ_cons] at h₁
      simp only
      omega
  · intro i hi
    obtain ⟨hlt, hz⟩ := ho.taken i hi
    exact ⟨hlt, (hocc i).trans hz⟩
  · intro d hd p q hb hm hq'
    exact (hocc p.id).trans (ho.order d hd p q hb hm hq')

theorem accepted_ordered {c : Chain} {rest : List Chain} (n : Nat) (ho : Ordered T ctx)
    (hc : ctx.isServer = false) (hq : ctx.outqueue = c :: rest) :
    Ordered T (accepted ctx c rest n) := by
  rcases accepted_eq ctx c rest n with ⟨wire, credits, ledger, he | he⟩ <;> rw [he]
  · have hkeys : (c.advance n).members.map Pdu.key = c.members.map Pdu.key := rfl
    have hsent := sent_ordered credits ledger wire ho hq hkeys rfl
    simp only [hc, Bool.false_eq_true, if_false] at hsent ⊢
    exact hsent
  · -- the chain stays in front, with more of it sent
    have hocc : ∀ i, occ (c.advance n :: rest) i = occ ctx.outqueue i := by
      intro i
      rw [hq, occ_cons, occ_cons, c.advance_ids]
    constructor
    · refine ho.distinct.of_le (le_refl _) ?_
      intro i
      simp only [Context.occurs, hocc]
      exact le_refl _
    · exact ho.linked
    · exact ho.known
    · exact ho.apart
    · intro d hd
      rcases List.mem_cons.mp hd with rfl | hd
      · exact ho.queued c (by rw [hq]; exact List.mem_cons_self ..)
      · exact ho.queued d (by rw [hq]; exact List.mem_cons_of_mem _ hd)
    · exact ho.waits
    · intro d hd i hi j hj hw
      exact (hocc i).trans (ho.together d hd i hi j hj hw)
    · intro i hi
      obtain ⟨hlt, hz⟩ := ho.taken i hi
      simp only [Context.occurs, hocc] at hz ⊢
      exact ⟨hlt, hz⟩
    · intro d hd p q hb hm hq'
      have hz := ho.order d hd p q hb hm hq'
      simp only [Context.occurs, hocc] at hz ⊢
      exact hz

/-- **A step of the queues keeps the order.** -/
theorem Step.ordered (hs : Step K G ctx ctx') (hc : ctx.isServer = false) (ho : Ordered T ctx)
    (hf : ctx'.fault = none) : Ordered T ctx' := by
  have hsame : ∀ {ctx' : Context}, Shrinks ctx ctx' → Ordered T ctx' :=
    fun h => ho.shrink h (fun _ => id)
  cases hs with
  | quiet hq => exact hsame (hq.shrinks hc)
  | crash hcr => exact absurd hf hcr.fault
  | alloc p hid hn hw => exact alloc_ordered ho hid
  | compound a b c next hc' hn => exact joined_ordered ho hc' hn
  | submit id c hc' hf₀ hf' => exact submitted_ordered ho hc hc' hf'
  | refuse id c hG hc' =>
    have hdrop : Shrinks ctx (ctx.dropHeld id) :=
      ⟨fun _ h => h, fun _ h => h, le_refl _, List.filter_sublist, .refl _, .refl _⟩
    exact hsame (hdrop.trans (emit_shrinks (by simp) _))
  | offer c rest hq => exact hsame (emit_shrinks (by simp) ctx)
  | accept c rest n hq hlt => exact accepted_ordered n ho hc hq
  | finish q p status hp =>
    exact hsame ((unlink_shrinks ctx q p.id).trans (emit_shrinks (by simp) _))
  | forgo q p hp hcb => exact hsame ((unlink_shrinks ctx q p.id).trans (freePdu_shrinks _ p.id))
  | purge id status hd => exact hsame (freePdu_shrinks ctx id)

theorem Steps.ordered (hs : Steps K G ctx ctx') (hc : ctx.isServer = false) (ho : Ordered T ctx)
    (hf : ctx'.fault = none) : Ordered T ctx' := by
  induction hs with
  | refl => exact ho
  | @tail mid last hrun hstep ih =>
    have hf' := hstep.keeps.fault_before hf
    have hc' : mid.isServer = false := (Steps.keeps hrun).isServer.trans hc
    exact hstep.ordered hc' (ih hf') hf

end

/-! ## The log of the receive path -/

/-- A part of a message was decoded. -/
def RxEvent.isDecoding : RxEvent → Bool
  | .decodedFixed _ _ => true
  | .decodedVariable _ _ => true
  | _ => false

/-- A new message is looked at. -/
def RxEvent.isLookup : RxEvent → Bool
  | .matched _ _ => true
  | .pending _ => true
  | _ => false

/-- A reply has run the callback of this request. -/
def Answered (log : List RxEvent) (i : Nat) : Prop := ∃ d, .dispatched d ∈ log ∧ d.pdu.id = i

/-- The lookup for `hdr` found `p`, the first waiting request with its message id, and took it
and nothing else off the wait queue. -/
structure Claimed (ctx : Context) (hdr : Header) (p : Pdu) : Prop where
  messageId : p.header.messageId = hdr.messageId
  removed : ∃ before after, ctx.waitqueue = before ++ p :: after ∧
    (∀ w ∈ before, w.header.messageId ≠ hdr.messageId) ∧
    (matchReply ctx hdr).ctx.waitqueue = before ++ after

/-- What a reply that runs a callback has gone through, if this is the log before it. -/
structure Routed (log : List RxEvent) (d : Dispatch) : Prop where
  claimed : ¬ d.hdr.unsolicited → ∃ earlier ctx p ds,
    log = earlier ++ .matched d.hdr ctx :: ds ∧ (∀ e ∈ ds, e.isDecoding = true) ∧
      Claimed ctx d.hdr p ∧ SamePdu p d.pdu
  /-- While an earlier member of its chain waits, a member between them was given up. -/
  inOrder : ∀ c, .enqueued c ∈ d.ctx.log → ∀ l p m q r, c.members = l ++ p :: (m ++ q :: r) →
    q.id = d.pdu.id → (∀ x ∈ p :: m, x.header.messageId ≠ 0) →
    p.id ∈ d.ctx.waitqueue.map Pdu.id →
    ∃ x ∈ m, x.id ∉ d.ctx.waitqueue.map Pdu.id ∧ ¬ Answered log x.id

/-- **The replies in a log are routed.** -/
structure RoutedLog (log : List RxEvent) : Prop where
  dispatched : ∀ pre d post, log = pre ++ .dispatched d :: post → Routed pre d
  unmatched : ∀ pre hdr ctx post, log = pre ++ .matched hdr ctx :: post → ¬ hdr.unsolicited →
    (∀ w ∈ ctx.waitqueue, w.header.messageId ≠ hdr.messageId) →
    matchReply ctx hdr = .unknown ctx ∧ ∀ e ∈ post.head?, e.isLookup = true

/-- The current request `q` is the one that the last lookup found. -/
def Claims (log : List RxEvent) (hdr : Header) (q : Pdu) : Prop :=
  ∃ earlier ctx ctx' p ds, log = earlier ++ .matched hdr ctx :: ds ∧
    (∀ e ∈ ds, e.isDecoding = true) ∧ ctx.pdu = none ∧ Distinct ctx ∧
    matchReply ctx hdr = .found ctx' ∧ ctx'.pdu = some p ∧ SamePdu p q

section
variable {K : Crypto} {D : Decoders} {ctx ctx' : Context} {log : List RxEvent} {hdr : Header}

theorem matchReply_unwaited (hp : ctx.pdu = none) (hu : ¬ hdr.unsolicited)
    (hw : ∀ w ∈ ctx.waitqueue, w.header.messageId ≠ hdr.messageId) :
    matchReply ctx hdr = .unknown ctx := by
  have hfind : ctx.findPdu hdr.messageId = none := by
    refine List.find?_eq_none.mpr ?_
    intro w hmem
    simpa using hw w hmem
  unfold Header.unsolicited at hu
  rw [matchReply, if_neg hu, dropPdu_of_none hp]
  simp only [claimPdu, hfind]

/-- The request that a lookup finds waits, and the member before it does not. -/
theorem matchReply_claims (hp : ctx.pdu = none) (hu : ¬ hdr.unsolicited)
    (hm : matchReply ctx hdr = .found ctx') (hq : ctx'.pdu = some p) :
    ctx.findPdu hdr.messageId = some p ∧ ctx' = { ctx.delist p.id with pdu := some p } ∧
      (p.prevCompoundMid ≠ 0 → ctx.findPdu p.prevCompoundMid = none) := by
  have hl := matchReply_lookup ctx hdr
  rw [hm] at hl
  cases hl with
  | current p hu' hp' => exact absurd hu' hu
  | made p hu' hp' hid hown => exact absurd hu' hu
  | claimed p hu' hf hprev =>
    cases hq
    rw [dropPdu_of_none hp] at hf hprev ⊢
    exact ⟨hf, rfl, hprev⟩

theorem Claimed.of_found (hd : Distinct ctx) (hp : ctx.pdu = none)
    (hu : ¬ hdr.unsolicited) (hm : matchReply ctx hdr = .found ctx') (hq : ctx'.pdu = some p) :
    Claimed ctx hdr p := by
  obtain ⟨hfind, hctx, _⟩ := matchReply_claims hp hu hm hq
  obtain ⟨hmid, before, after, hsplit, hfirst⟩ := List.find?_eq_some_iff_append.mp hfind
  refine ⟨by simpa using hmid, before, after, hsplit, ?_, ?_⟩
  · intro w hw
    simpa using hfirst w hw
  · -- the ids of the wait queue are distinct, so only `p` is removed
    have honce := hd.once p.id
    simp only [Context.occurs, hsplit, List.map_append, List.map_cons, List.count_append,
      List.count_cons_self] at honce
    have hkeep : ∀ ws : List Pdu, (ws.map Pdu.id).count p.id = 0 →
        ws.filter (fun w => w.id != p.id) = ws := by
      intro ws hz
      refine List.filter_eq_self.mpr ?_
      intro w hw
      have hne : w.id ≠ p.id := by
        intro he
        exact List.count_eq_zero.mp hz (List.mem_map.mpr ⟨w, hw, he⟩)
      simpa using hne
    rw [hm, hctx]
    simp only [Match.ctx, Context.delist, hsplit, List.filter_append, List.filter_cons,
      bne_self_eq_false, Bool.false_eq_true, if_false]
    rw [hkeep before (by omega), hkeep after (by omega)]

/-! ## The log grows -/

theorem Answered.push {e : RxEvent} {i : Nat} (h : Answered (log ++ [e]) i) :
    Answered log i ∨ ∃ d, e = .dispatched d ∧ d.pdu.id = i := by
  obtain ⟨d, hd, hi⟩ := h
  rcases List.mem_append.mp hd with hd | hd
  · exact .inl ⟨d, hd, hi⟩
  · exact .inr ⟨d, (List.mem_singleton.mp hd).symm, hi⟩

/-- The first event behind a lookup, once another event has come. -/
theorem head_concat {post : List RxEvent} {e x : RxEvent} (hx : x ∈ (post ++ [e]).head?) :
    (post = [] ∧ x = e) ∨ x ∈ post.head? := by
  cases post with
  | nil => exact .inl ⟨rfl, by simpa using hx.symm⟩
  | cons y ys => exact .inr hx

theorem RoutedLog.push_lookup (hr : RoutedLog log) (hp : ctx.pdu = none) (hdr : Header) :
    RoutedLog (log ++ [.matched hdr ctx]) where
  dispatched pre d post he := by
    rcases concat_split he with ⟨_, _, hx⟩ | ⟨post', _, hl⟩
    · cases hx
    · exact hr.dispatched pre d post' hl
  unmatched pre hdr' ctx' post he hu hw := by
    rcases concat_split he with ⟨rfl, _, hx⟩ | ⟨post', rfl, hl⟩
    · cases hx
      exact ⟨matchReply_unwaited hp hu hw, by simp⟩
    · obtain ⟨hm, hnext⟩ := hr.unmatched pre hdr' ctx' post' hl hu hw
      refine ⟨hm, ?_⟩
      intro x hx
      rcases head_concat hx with ⟨_, rfl⟩ | hx
      · rfl
      · exact hnext x hx

theorem RoutedLog.push_pending (hr : RoutedLog log) (d : Dispatch) :
    RoutedLog (log ++ [.pending d]) where
  dispatched pre d' post he := by
    rcases concat_split he with ⟨_, _, hx⟩ | ⟨post', _, hl⟩
    · cases hx
    · exact hr.dispatched pre d' post' hl
  unmatched pre hdr' ctx' post he hu hw := by
    rcases concat_split he with ⟨_, _, hx⟩ | ⟨post', rfl, hl⟩
    · cases hx
    · obtain ⟨hm, hnext⟩ := hr.unmatched pre hdr' ctx' post' hl hu hw
      refine ⟨hm, ?_⟩
      intro x hx
      rcases head_concat hx with ⟨_, rfl⟩ | hx
      · rfl
      · exact hnext x hx

/-- The last lookup found something, so it is not one that found nothing. -/
theorem Claims.not_unmatched (hc : Claims log hdr q) {pre : List RxEvent}
    {hdr' : Header} {ctx' : Context} (hl : log = pre ++ [.matched hdr' ctx']) :
    matchReply ctx' hdr' ≠ .unknown ctx' := by
  obtain ⟨earlier, ctx₀, ctx₁, p, ds, he, hds, _, _, hm, _, _⟩ := hc
  rw [he] at hl
  rcases List.eq_nil_or_concat ds with rfl | ⟨ds', y, rfl⟩
  · obtain ⟨_, hx⟩ := List.append_inj' hl rfl
    have hx' := List.singleton_inj.mp hx
    cases hx'
    rw [hm]
    intro h
    cases h
  · have hl' : (earlier ++ .matched hdr ctx₀ :: ds') ++ [y] = pre ++ [.matched hdr' ctx'] := by
      simpa using hl
    obtain ⟨_, hy⟩ := List.append_inj' hl' rfl
    have hy' := List.singleton_inj.mp hy
    have hdec := hds y (by simp)
    rw [hy'] at hdec
    cases hdec

theorem RoutedLog.push_claimed {e : RxEvent} (hr : RoutedLog log)
    (hc : Claims log hdr q) (hm : ∀ hdr ctx, e ≠ .matched hdr ctx)
    (hd : ∀ d, e = .dispatched d → Routed log d) : RoutedLog (log ++ [e]) where
  dispatched pre d post he := by
    rcases concat_split he with ⟨_, rfl, hx⟩ | ⟨post', _, hl⟩
    · exact hd d hx.symm
    · exact hr.dispatched pre d post' hl
  unmatched pre hdr' ctx' post he hu hw := by
    rcases concat_split he with ⟨_, _, hx⟩ | ⟨post', rfl, hl⟩
    · exact absurd hx.symm (hm hdr' ctx')
    · obtain ⟨hunk, hnext⟩ := hr.unmatched pre hdr' ctx' post' hl hu hw
      refine ⟨hunk, ?_⟩
      intro x hx
      rcases head_concat hx with ⟨rfl, _⟩ | hx
      · exact absurd hunk (hc.not_unmatched hl)
      · exact hnext x hx

theorem Claims.push {e : RxEvent} (hc : Claims log hdr q) (he : e.isDecoding = true) :
    Claims (log ++ [e]) hdr q := by
  obtain ⟨earlier, ctx₀, ctx₁, p, ds, hl, hds, hrest⟩ := hc
  refine ⟨earlier, ctx₀, ctx₁, p, ds ++ [e], by rw [hl]; simp, ?_, hrest⟩
  intro x hx
  rcases List.mem_append.mp hx with hx | hx
  · exact hds x hx
  · rw [List.mem_singleton.mp hx]
    exact he

/-! ## Phases -/

/-- The requests that a reply has been taken for. -/
def takenBy (s : Smb2) (i : Nat) : Prop := Answered s.rx.log i ∨ s.ctx.pdu.map Pdu.id = some i

/-- What holds of a client while it reads. -/
structure Routes (s : Smb2) : Prop where
  client : s.ctx.isServer = false
  fault : s.ctx.fault = none
  routed : RoutedLog s.rx.log
  ordered : Ordered (takenBy s) s.ctx
  claims : ∀ q, s.ctx.pdu = some q → Claims s.rx.log s.rx.hdr q

/-- What is left of that when a read fails. -/
structure Halted (s : Smb2) : Prop where
  client : s.ctx.isServer = false
  fault : s.ctx.fault = none
  routed : RoutedLog s.rx.log
  ordered : Ordered (Answered s.rx.log) s.ctx

/-- What is left of that when the program runs into undefined behaviour. -/
structure Crashed (s : Smb2) : Prop where
  client : s.ctx.isServer = false
  routed : RoutedLog s.rx.log

variable {s s' : Smb2}

theorem Routes.halted (hr : Routes s) : Halted s :=
  ⟨hr.client, hr.fault, hr.routed, hr.ordered.shrink (.refl _) (fun _ h => .inl h)⟩

theorem Routes.crashed (hr : Routes s) : Crashed s := ⟨hr.client, hr.routed⟩

theorem Routes.of_same (hr : Routes s) (hctx : s'.ctx = s.ctx)
    (hlog : s'.rx.log = s.rx.log) (hhdr : s'.rx.hdr = s.rx.hdr) : Routes s' := by
  have htaken : takenBy s' = takenBy s := by
    funext i
    simp only [takenBy, hctx, hlog]
  refine ⟨by rw [hctx]; exact hr.client, by rw [hctx]; exact hr.fault, by rw [hlog]; exact hr.routed,
    by rw [htaken, hctx]; exact hr.ordered, ?_⟩
  intro q hq
  rw [hctx] at hq
  rw [hlog, hhdr]
  exact hr.claims q hq

/-- The context changes, and no request is current. -/
theorem Routes.of_none (hr : Routes s) (hf : s'.ctx.fault = none)
    (hsv : s'.ctx.isServer = s.ctx.isServer) (hp : s'.ctx.pdu = none)
    (hl : RoutedLog s'.rx.log) (ho : Ordered (Answered s'.rx.log) s'.ctx) : Routes s' := by
  refine ⟨hsv.trans hr.client, hf, hl, ho.shrink (.refl _) ?_, ?_⟩
  · rintro i (h | h)
    · exact h
    · rw [hp] at h
      cases h
  · intro q hq
    rw [hp] at hq
    cases hq

/-- How the flows of a phase leave a client. -/
abbrev Flow.Routing (f : Flow) : Prop :=
  f.Ends (fun s => Routes s ∧ Idle s) Halted (fun _ s => Crashed s)

/-- The machine reads on from a state that routes. -/
theorem Flow.Reads.routing {f : Flow} {states : List RecvState} (hf : f.Reads s states)
    (hr : Routes s) (hi : f.Leaves Idle) : f.Routing := by
  cases f with
  | more s' => exact ⟨hr.of_same hf.1.ctx hf.1.log hf.1.hdr, hi⟩
  | fail e s' => exact (hr.of_same hf.ctx hf.log hf.hdr).halted
  | _ => exact hf.elim

theorem headed_shrinks (ctx : Context) (hdr : Header) :
    Shrinks ctx (grantCredits (noteHeader ctx hdr) hdr) ∧
      (grantCredits (noteHeader ctx hdr) hdr).fault = ctx.fault := by
  obtain ⟨cur, mid, he⟩ := noteHeader_eq ctx hdr
  rw [he]
  unfold grantCredits
  split
  · exact ⟨.of_same (fun _ => Iff.rfl) rfl rfl rfl rfl, rfl⟩
  · exact ⟨.of_same (fun _ => Iff.rfl) rfl rfl rfl rfl, rfl⟩

/-- A header has been noted between two messages. -/
theorem Routes.headed (hr : Routes s) (hp : s.ctx.pdu = none) (hdr : Header) :
    Routes (headedIn s hdr) := by
  obtain ⟨hs, hf⟩ := headed_shrinks s.ctx hdr
  exact hr.of_none (hf.trans hr.fault) (headedIn_isServer s hdr) ((headedIn_pdu s hdr).trans hp)
    hr.routed (hr.halted.ordered.shrink hs (fun _ h => h))

/-- A lookup changes what was taken by no more than what it found. -/
theorem answered_lookup {hdr : Header} {ctx : Context} {i : Nat}
    (h : Answered (log ++ [.matched hdr ctx]) i) : Answered log i := by
  rcases h.push with h | ⟨d, he, _⟩
  · exact h
  · cases he

/-- A lookup that leaves no current request. -/
theorem Routes.looked {ctx : Context} (hr : Routes s) (hp : s.ctx.pdu = none)
    (hs : Shrinks s.ctx ctx) (hsv : ctx.isServer = s.ctx.isServer) (hf : ctx.fault = s.ctx.fault)
    (hn : ctx.pdu = none) : Routes (matchedIn s ctx) :=
  hr.of_none (hf.trans hr.fault) hsv hn (hr.routed.push_lookup hp s.rx.hdr)
    (hr.halted.ordered.shrink hs (fun _ h => answered_lookup h))

/-- A lookup that fails. -/
theorem Routes.lookup_halted {ctx : Context} (hr : Routes s) (hp : s.ctx.pdu = none)
    (hs : Shrinks s.ctx ctx) (hsv : ctx.isServer = s.ctx.isServer)
    (hf : ctx.fault = s.ctx.fault) : Halted (matchedIn s ctx) :=
  ⟨hsv.trans hr.client, hf.trans hr.fault, hr.routed.push_lookup hp s.rx.hdr,
    hr.halted.ordered.shrink hs (fun _ h => answered_lookup h)⟩

/-- A reply has been taken for one more request. -/
theorem Ordered.take {T T' : Nat → Prop} {i : Nat} (ho : Ordered T ctx)
    (hT : ∀ j, T' j → T j ∨ j = i) (hi : i < ctx.nextId ∧ ctx.occurs i = 0)
    (hord : ∀ c, .enqueued c ∈ ctx.log → ∀ p q, c.Before p q → p.header.messageId ≠ 0 →
      q.id = i → ctx.occurs p.id = 0) : Ordered T' ctx where
  distinct := ho.distinct
  linked := ho.linked
  known := ho.known
  apart := ho.apart
  queued := ho.queued
  waits := ho.waits
  together := ho.together
  taken j hj := by
    rcases hT j hj with h | rfl
    · exact ho.taken j h
    · exact hi
  order c hc p q hb hm hq := by
    rcases hT q.id hq with h | h
    · exact ho.order c hc p q hb hm h
    · exact hord c hc p q hb hm h

/-- The member before a request that a lookup finds is in no queue. -/
theorem Ordered.claimed {T : Nat → Prop} {mid : Nat} (ho : Ordered T ctx)
    (hfind : ctx.findPdu mid = some p)
    (hprev : p.prevCompoundMid ≠ 0 → ctx.findPdu p.prevCompoundMid = none) {c : Chain}
    (hc : .enqueued c ∈ ctx.log) {x y : Pdu} (hb : c.Before x y) (hx : x.header.messageId ≠ 0)
    (hy : y.id = p.id) : ctx.occurs x.id = 0 := by
  have hmem : p ∈ ctx.waitqueue := List.mem_of_find?_eq_some hfind
  have hxy := hb.mem
  have hkey := ho.waits p hmem c hc y hxy.2 hy
  have hlink := (ho.linked c hc).before hb
  have hmid : p.prevCompoundMid = x.header.messageId := by
    have := congrArg Pdu.Key.prevMid hkey
    exact this.symm.trans hlink
  have hnone : ctx.findPdu x.header.messageId = none := by
    rw [← hmid]
    exact hprev (by rw [hmid]; exact hx)
  have hwait : x.id ∉ ctx.waitqueue.map Pdu.id := by
    intro hin
    obtain ⟨w, hw, hid⟩ := List.mem_map.mp hin
    have hwk := ho.waits w hw c hc x hxy.1 hid.symm
    have hwm : w.header.messageId = x.header.messageId := (congrArg Pdu.Key.messageId hwk).symm
    have := List.find?_eq_none.mp hnone w hw
    simp [hwm] at this
  have hpw : y.id ∈ ctx.waitqueue.map Pdu.id := List.mem_map.mpr ⟨p, hmem, hy.symm⟩
  have hout := ho.together c hc x.id (Chain.mem_ids hxy.1) y.id (Chain.mem_ids hxy.2) hpw
  have hheld := (ho.known c hc x.id (Chain.mem_ids hxy.1)).2
  have hzero := List.count_eq_zero.mpr hwait
  simp only [Context.occurs]
  omega

/-- The lookup found the request of the reply. -/
theorem Routes.found {ctx' : Context} (hr : Routes s) (hp : s.ctx.pdu = none)
    (hm : matchReply s.ctx s.rx.hdr = .found ctx') : Routes (matchedIn s ctx') := by
  have hlog : RoutedLog (matchedIn s ctx').rx.log := hr.routed.push_lookup hp s.rx.hdr
  have hord := hr.halted.ordered
  have hclaims : ∀ p : Pdu, ctx'.pdu = some p → Claims (matchedIn s ctx').rx.log s.rx.hdr p :=
    fun p hq => ⟨s.rx.log, s.ctx, ctx', p, [], rfl, by simp, hp, hord.distinct, hm, hq, rfl, rfl, rfl⟩
  have htaken : ∀ {q : Pdu} {j : Nat}, ctx'.pdu = some q → takenBy (matchedIn s ctx') j →
      Answered s.rx.log j ∨ j = q.id := by
    rintro q j hq (h | h)
    · exact .inl (answered_lookup h)
    · have hj : q.id = j := by simpa [matchedIn, hq] using h
      exact .inr hj.symm
  have hl := matchReply_lookup s.ctx s.rx.hdr
  rw [hm] at hl
  cases hl with
  | current p hu hp' =>
    rw [hp] at hp'
    cases hp'
  | made p hu hp' hid hown =>
    have hs : Shrinks s.ctx
        { s.ctx.popMem with pdu := some p, nextId := s.ctx.nextId + 1 } :=
      ⟨fun _ h => h, fun _ h => h, Nat.le_succ _, .refl _, .refl _, .refl _⟩
    have hfresh := hord.distinct.fresh s.ctx.nextId (le_refl _)
    refine ⟨hr.client, hr.fault, hlog, ?_, hclaims⟩
    refine (hord.shrink hs (fun _ h => h)).take (i := p.id) (fun _ => htaken rfl) ?_ ?_
    · rw [hid]
      exact ⟨Nat.lt_succ_self _, hfresh⟩
    · intro c hc x y hb _ hy
      have hlt := (hord.known c hc y.id (Chain.mem_ids hb.mem.2)).1
      omega
  | claimed p hu hf hprev =>
    rw [dropPdu_of_none hp] at hf hprev hlog hclaims htaken ⊢
    have hmem : p ∈ s.ctx.waitqueue := List.mem_of_find?_eq_some hf
    have hs : Shrinks s.ctx { s.ctx.delist p.id with pdu := some p } :=
      ⟨fun _ h => h, fun _ h => h, le_refl _, .refl _, .refl _, List.filter_sublist⟩
    have hw := hord.distinct.waiting hmem
    refine ⟨hr.client, hr.fault, hlog, ?_, hclaims⟩
    refine (hord.shrink hs (fun _ h => h)).take (i := p.id) (fun _ => htaken rfl) ⟨hw.1, ?_⟩ ?_
    · have hself := count_filter_self s.ctx.waitqueue p.id
      simp only [matchedIn, Context.occurs, Context.delist]
      omega
    · intro c hc x y hb hx hy
      have hz := hord.claimed hf hprev hc hb hx hy
      exact Nat.le_zero.mp (hz ▸ hs.occurs x.id)

/-- A part of the message has been decoded. -/
theorem Routes.decoded (hr : Routes s) (hd : Decodes (appHooks K D) s s') :
    Routes s' := by
  have hkeep : ∀ (p : Pdu) (d : Decoded) (e : RxEvent), s.ctx.pdu = some p → e.isDecoding = true →
      Routes { ctx := applyDecoded s.ctx p d, rx := s.rx.emit e } := by
    intro p d e hp he
    have hclaims := hr.claims p hp
    obtain ⟨_, _, _, _, heff⟩ := applyEffects_eq s.ctx d.effects
    simp only [applyDecoded, heff]
    have hanswered : ∀ i, Answered (s.rx.log ++ [e]) i → Answered s.rx.log i := by
      intro i h
      rcases h.push with h | ⟨d', hd', _⟩
      · exact h
      · rw [hd'] at he
        cases he
    refine ⟨hr.client, hr.fault, ?_, ?_, ?_⟩
    · refine hr.routed.push_claimed hclaims ?_ ?_
      · rintro hdr ctx rfl
        cases he
      · rintro d' rfl
        cases he
    · refine hr.ordered.shrink (.of_same (fun _ => Iff.rfl) rfl rfl rfl rfl) ?_
      rintro i (h | h)
      · exact .inl (hanswered i h)
      · refine .inr ?_
        rw [hp]
        exact h
    · rintro q ⟨rfl⟩
      obtain ⟨earlier, ctx₀, ctx₁, p₀, ds, hl, hds, hn, hdist, hm, hp₁, hsame⟩ := hclaims.push he
      exact ⟨earlier, ctx₀, ctx₁, p₀, ds, hl, hds, hn, hdist, hm, hp₁, hsame.id, hsame.header,
        hsame.cb⟩
  cases hd with
  | fixedPart p hp hst => exact hkeep p _ _ hp rfl
  | variablePart p hp hst => exact hkeep p _ _ hp rfl

/-! ## The callback -/

/-- Where an earlier member of a chain still waits, one between it and a request that a reply
was taken for was given up. -/
theorem Ordered.given_up {T : Nat → Prop} (ho : Ordered T ctx) {c : Chain}
    (hc : .enqueued c ∈ ctx.log) (l : List Pdu) (p : Pdu) (m : List Pdu) (q : Pdu) (r : List Pdu)
    (he : c.members = l ++ p :: (m ++ q :: r)) (hq : T q.id)
    (hmid : ∀ x ∈ p :: m, x.header.messageId ≠ 0) (hp : p.id ∈ ctx.waitqueue.map Pdu.id) :
    ∃ x ∈ m, x.id ∉ ctx.waitqueue.map Pdu.id ∧ ¬ T x.id := by
  induction m using List.reverseRecOn generalizing q r with
  | nil =>
    have hz := ho.order c hc p q ⟨l, r, he⟩ (hmid p (List.mem_cons_self ..)) hq
    have hpos := List.count_pos_iff.mpr hp
    simp only [Context.occurs] at hz
    omega
  | append_singleton m x ih =>
    have hbefore : c.Before x q := ⟨l ++ p :: m, r, by rw [he]; simp⟩
    have hx := hmid x (by simp)
    have hz := ho.order c hc x q hbefore hx hq
    have hw : x.id ∉ ctx.waitqueue.map Pdu.id := by
      refine List.count_eq_zero.mp ?_
      simp only [Context.occurs] at hz
      omega
    by_cases hT : T x.id
    · have he' : c.members = l ++ p :: (m ++ x :: q :: r) := by
        rw [he]
        simp
      obtain ⟨y, hy, hrest⟩ := ih x (q :: r) he' hT (fun y hy => hmid y (by
        rcases List.mem_cons.mp hy with rfl | hy
        · exact List.mem_cons_self ..
        · exact List.mem_cons_of_mem _ (List.mem_append_left _ hy)))
      exact ⟨y, List.mem_append_left _ hy, hrest⟩
    · exact ⟨x, by simp, hw, hT⟩

/-- **What the receive path dispatches is routed.** -/
theorem Routes.dispatches (hr : Routes s) (hp : s.ctx.pdu = some p) :
    Routed s.rx.log (dispatchOf s p) where
  claimed hu := by
    obtain ⟨earlier, ctx, ctx', q, ds, hl, hds, hn, hd, hm, hq, hsame⟩ := hr.claims p hp
    exact ⟨earlier, ctx, q, ds, hl, hds, .of_found hd hn hu hm hq, hsame⟩
  inOrder c hc l x m q r he hq hmid hx := by
    have htaken : takenBy s q.id := .inr (by rw [hp, hq]; rfl)
    obtain ⟨y, hy, hw, hT⟩ := hr.ordered.given_up hc l x m q r he htaken hmid hx
    exact ⟨y, hy, hw, fun ha => hT (.inl ha)⟩

theorem retirePdu_shrinks (ctx : Context) (p : Pdu) : Shrinks ctx (ctx.retirePdu p) := by
  unfold Context.retirePdu
  split
  · exact .of_same (fun _ => Iff.rfl) rfl rfl rfl rfl
  · exact (freePdu_shrinks ctx p.id).trans (.of_same (fun _ => Iff.rfl) rfl rfl rfl rfl)

/-- A callback keeps the order, whatever the application does in it. -/
theorem invokeCallback_ordered {T : Nat → Prop} (p : Pdu) (status : Nat) (ho : Ordered T ctx)
    (hc : ctx.isServer = false) (hf : (invokeCallback K p status ctx).fault = none) :
    Ordered T (invokeCallback K p status ctx) := by
  have hrun := invokeCallback_steps (K := K) (G := True) p status ctx (fun _ => trivial)
  have hstart := ho.shrink (emit_shrinks (e := .completed p.id status) (by simp) ctx) (fun _ h => h)
  exact hrun.ordered hc hstart hf

/-- The callback of the current request has run. -/
theorem Routes.dispatched (hr : Routes s) (hp : s.ctx.pdu = some p) :
    Crashed (dispatchedIn (appHooks K D) s p) ∧
      ((dispatchedIn (appHooks K D) s p).ctx.fault = none →
        Routes (dispatchedIn (appHooks K D) s p)) := by
  have hlog : RoutedLog (s.rx.log ++ [.dispatched (dispatchOf s p)]) := by
    refine hr.routed.push_claimed (hr.claims p hp) (fun _ _ h => by cases h) ?_
    rintro d ⟨rfl⟩
    exact hr.dispatches hp
  have hctx : (dispatchedIn (appHooks K D) s p).ctx = afterReply (appHooks K D) s.rx p s.ctx := by
    simp only [dispatchedIn, hr.client, Bool.false_eq_true, if_false]
  have hsv : (afterReply (appHooks K D) s.rx p s.ctx).isServer = s.ctx.isServer :=
    (retirePdu_isServer _ p).trans ((appHooks K D).invoke_isServer s.rx p s.rx.hdr.status s.ctx)
  refine ⟨⟨by rw [hctx, hsv]; exact hr.client, hlog⟩, ?_⟩
  intro hf
  rw [hctx] at hf
  have hf' : (invokeCallback K p s.rx.hdr.status s.ctx).fault = none :=
    (retirePdu_grows (invokeCallback K p s.rx.hdr.status s.ctx) p).fault hf
  have ho := (invokeCallback_ordered p s.rx.hdr.status hr.ordered hr.client hf').shrink
    (retirePdu_shrinks _ p) (fun _ h => h)
  refine hr.of_none (by rw [hctx]; exact hf) (by rw [hctx]; exact hsv) (by rw [hctx]; rfl) hlog ?_
  rw [hctx]
  refine ho.shrink (.of_same (fun _ => Iff.rfl) rfl rfl rfl rfl) ?_
  intro i h
  rcases h.push with h | ⟨d, hd, hi⟩
  · exact .inl h
  · cases hd
    refine .inr ?_
    rw [hp, ← hi]
    rfl

/-- An interim reply has been shown to the callback of its request. -/
theorem Routes.pending (hr : Routes s) (hn : s.ctx.pdu = none) :
    Crashed (pendingIn (appHooks K D) s p) ∧
      ((pendingIn (appHooks K D) s p).ctx.fault = none →
        Routes (pendingIn (appHooks K D) s p)) := by
  have hlog := hr.routed.push_pending (dispatchOf s p)
  have hsv := (appHooks K D).invoke_isServer s.rx p s.rx.hdr.status s.ctx
  have hpdu := (appHooks K D).invoke_pdu s.rx p s.rx.hdr.status s.ctx
  refine ⟨⟨hsv.trans hr.client, hlog⟩, ?_⟩
  intro hf
  have ho := invokeCallback_ordered p s.rx.hdr.status hr.halted.ordered hr.client hf
  refine hr.of_none hf hsv (hpdu.trans hn) hlog (ho.shrink (.refl _) ?_)
  intro i h
  rcases h.push with h | ⟨d, hd, _⟩
  · exact h
  · cases hd

theorem endMember_routing (hcr : Crashed s) (hr : s.ctx.fault = none → Routes s)
    (hi : (endMember s).Leaves Idle) : (endMember s).Routing := by
  rcases endMember_cases s with ⟨f, _, he⟩ | ⟨hf, he | ⟨s', he, hs, _⟩ | he⟩
  · rw [he]
    exact hcr
  · rw [he]
    exact (hr hf).halted
  · rw [he] at hi ⊢
    exact ⟨(hr hf).of_same hs.ctx hs.log hs.hdr, hi⟩
  · rw [he] at hi ⊢
    exact ⟨(hr hf).of_same rfl rfl rfl, hi⟩

/-- A message that is complete. -/
theorem Completes.routing {f : Flow} {off : Nat}
    (hco : Completes (appHooks K D) K off s f)
    (hr : Routes s) (hi : f.Leaves Idle)
    (hn : s.rx.hdr.status = STATUS_PENDING → s.ctx.pdu = none) : f.Routing := by
  cases hco with
  | refused e => exact hr.halted
  | overflow => exact hr.crashed
  | missing hp => exact hr.crashed
  | uncalled p hp hcb hst => exact hr.crashed
  | dispatched p hp hcb hst => exact endMember_routing (hr.dispatched hp).1 (hr.dispatched hp).2 hi
  | quiet hst => exact ⟨hr.of_same rfl rfl rfl, hi⟩
  | unshown p hpt hp hcb hst => exact hr.crashed
  | shown p hpt hp hcb hst hf => exact ⟨((hr.pending (hn hst)).2 hf).of_same rfl rfl rfl, hi⟩
  | broken p f hpt hp hcb hst hf => exact (hr.pending (hn hst)).1

/-- **A phase routes replies.** -/
theorem phase_routes (xfrm : Bool) (off : Nat) (hr : Routes s) (hi : Idle s)
    (hpos : s.rx.numDone ≠ 0) : (phase (appHooks K D) K xfrm off s).Routing := by
  have hleaves := phase_idle (h := appHooks K D) (K := K) xfrm off hpos hi
  have hnone : s.rx.state ∉ [RecvState.fixed, .variable, .pad] → s.ctx.pdu = none :=
    hi.pdu_none hr.client
  have hbody : s.rx.hdr.status = STATUS_PENDING → s.ctx.pdu = none := by
    intro hst
    cases hp : s.ctx.pdu with
    | none => rfl
    | some p => exact absurd hst (hi.not_pending hp hr.client)
  have hdoes := phase_does (h := appHooks K D) (K := K) xfrm off s
  generalize phase (appHooks K D) K xfrm off s = f at hdoes hleaves ⊢
  cases hdoes with
  | reads f hst hread => exact hread.routing hr hleaves
  | overflow => exact hr.crashed
  | headed hdr f hst hread hp =>
    exact hread.routing (hr.headed (hnone (by simp [hst])) hdr) hleaves
  | flushed hdr hst hs =>
    rw [hr.client] at hs
    cases hs
  | unmatched hdr ctx hst hc hs hm =>
    have hp := (headedIn_pdu s hdr).trans (hnone (by simp [hst]))
    have hr' := hr.headed (hnone (by simp [hst])) hdr
    have hlooked : Routes (matchedIn (headedIn s hdr) ctx) := by
      rw [matchReply_unknown_eq hp hm]
      exact hr'.looked hp (.refl _) rfl rfl hp
    unfold skipRest at hleaves ⊢
    split at hleaves
    · rename_i hbig
      rw [if_pos hbig]
      exact hlooked.halted
    · rename_i hfit
      rw [if_neg hfit]
      have hread : (expect (matchedIn (headedIn s hdr) ctx) .unknown
          (restLength (matchedIn (headedIn s hdr) ctx).rx xfrm)).Reads
            (matchedIn (headedIn s hdr) ctx) [.unknown] := expect_reads (by simp) _
      exact hread.routing hlooked hleaves
  | outOfOrder hdr ctx hst hc hm =>
    have hp := (headedIn_pdu s hdr).trans (hnone (by simp [hst]))
    have hr' := hr.headed (hnone (by simp [hst])) hdr
    have hl := matchReply_lookup (headedIn s hdr).ctx hdr
    rw [hm] at hl
    obtain ⟨p, hu, hf⟩ := hl
    rw [dropPdu_of_none hp]
    exact hr'.lookup_halted hp (.of_same (fun _ => Iff.rfl) rfl rfl rfl rfl) rfl rfl
  | noMemory hdr ctx hst hc hm =>
    have hp := (headedIn_pdu s hdr).trans (hnone (by simp [hst]))
    have hr' := hr.headed (hnone (by simp [hst])) hdr
    have hl := matchReply_lookup (headedIn s hdr).ctx hdr
    rw [hm] at hl
    obtain ⟨hu, _⟩ := hl
    exact hr'.lookup_halted hp (.of_same (fun _ => Iff.rfl) rfl rfl rfl rfl) rfl rfl
  | found hdr ctx f hst hc hs hm hread =>
    have hp := (headedIn_pdu s hdr).trans (hnone (by simp [hst]))
    have hr' := hr.headed (hnone (by simp [hst])) hdr
    exact hread.routing (hr'.found hp hm) hleaves
  | taken hdr p f hst hs hp hn hread =>
    rw [hr.client] at hs
    cases hs
  | missing hst hp => exact hr.crashed
  | decoded s' f hd hread => exact hread.routing (hr.decoded hd) hleaves
  | ended s' f hd hco =>
    refine hco.routing (hr.decoded hd) hleaves ?_
    intro hst
    have hstate : s.ctx.pdu ≠ none ∧ s'.rx.hdr = s.rx.hdr := by
      cases hd with
      | fixedPart p hp _ => exact ⟨by rw [hp]; simp, rfl⟩
      | variablePart p hp _ => exact ⟨by rw [hp]; simp, rfl⟩
    rw [hstate.2] at hst
    exact absurd (hbody hst) hstate.1
  | padded f hst hco => exact hco.routing hr hleaves hbody
  | opened plain s' hst hctx hlog hhdr hs' =>
    have hp := hnone (by simp [hst])
    have ho := hr.halted.ordered.shrink
      (emit_shrinks (e := .used .serverout s.ctx.serveroutKey) (by simp) s.ctx) (fun _ h => h)
    rw [← hctx, ← hlog] at ho
    have hf : s'.ctx.fault = none := by
      rw [hctx]
      exact hr.fault
    have hn : s'.ctx.pdu = none := by
      rw [hctx]
      exact hp
    have hsv : s'.ctx.isServer = s.ctx.isServer := by
      rw [hctx]
      rfl
    have hrouted : RoutedLog s'.rx.log := by
      rw [hlog]
      exact hr.routed
    exact ⟨hr.of_none hf hsv hn hrouted ho, hleaves⟩
  | unopened e hst =>
    have hr' : Routes { s with rx := { s.rx with numDone := 0 } } := hr.of_same rfl rfl rfl
    exact hr'.halted
  | skipped hst => exact ⟨hr.of_same rfl rfl rfl, hleaves⟩

/-! ## Runs -/

theorem routing_rule (K : Crypto) (D : Decoders) :
    ReadRule (appHooks K D) K (fun s => Routes s ∧ Idle s) Halted (fun _ s => Crashed s) where
  stored bs h := ⟨h.1.of_same rfl rfl rfl, h.2.store bs⟩
  started h := by
    refine ⟨h.1.of_same (start_ctx _) ?_ ?_, h.2.start⟩
    · unfold start
      split <;> rfl
    · unfold start
      split <;> rfl
  plain h hz := by
    refine ⟨h.1.of_same rfl rfl rfl, ?_⟩
    intro hc
    rcases h.2 hc with hn | ⟨hb, _⟩
    · exact .inl hn
    · exact absurd hz hb.started
  phase xfrm off _ h hpos := phase_routes xfrm off h.1 h.2 hpos
  negotiate stale _ h hsv := by
    rw [h.1.client] at hsv
    cases hsv
  fails h := h.1.halted
  faults h := ⟨h.1.crashed, h.1.crashed⟩

/-- What holds of a run between two operations. -/
structure RunRoutes (s : Session) : Prop where
  client : s.ctx.isServer = false
  routed : RoutedLog s.smb2.rx.log
  halted : s.ctx.fault = none → Halted s.smb2
  reads : s.ctx.fault = none → s.broken = false → Routes s.smb2 ∧ Idle s.smb2

/-- Steps of the queues, from outside the receive path. -/
theorem RunRoutes.steps {s : Session} {G : Prop} (hr : RunRoutes s) (hf₀ : s.ctx.fault = none)
    (hrun : Steps K G s.ctx ctx') : RunRoutes (s.setCtx ctx') := by
  have hk := hrun.keeps
  have hc : ctx'.isServer = false := hk.isServer.trans hr.client
  refine ⟨hc, hr.routed, ?_, ?_⟩
  · intro hf
    exact ⟨hc, hf, hr.routed, hrun.ordered hr.client (hr.halted hf₀).ordered hf⟩
  · intro hf hb
    obtain ⟨hroutes, hidle⟩ := hr.reads hf₀ hb
    have ho := hrun.ordered hr.client hroutes.ordered hf
    have htaken : ∀ i, takenBy (s.setCtx ctx').smb2 i → takenBy s.smb2 i := by
      rintro i (h | h)
      · exact .inl h
      · have hpdu : ctx'.pdu = s.smb2.ctx.pdu := hk.pdu
        exact .inr (hpdu ▸ h)
    refine ⟨⟨hc, hf, hr.routed, ho.shrink (.refl _) htaken, ?_⟩, ?_⟩
    · intro q hq
      exact hroutes.claims q (hk.pdu.symm.trans hq)
    · intro _
      rcases hidle hr.client with hn | ⟨hbody, hap⟩
      · exact .inl (hk.pdu.trans hn)
      · -- the current request is in no queue, and comes to none
        refine .inr ⟨hbody, ?_⟩
        intro p hp _ hmem
        have htaken' : takenBy s.smb2 p.id := .inr (by
          have hp' : s.smb2.ctx.pdu = some p := hk.pdu.symm.trans hp
          rw [hp']
          rfl)
        have hz := (ho.taken p.id htaken').2
        have hpos := List.count_pos_iff.mpr hmem
        simp only [Context.occurs] at hz
        simp only [Session.setCtx] at hpos
        omega

theorem runOp_routes {s : Session} (op : Op) (hr : RunRoutes s) (hf : s.ctx.fault = none) :
    RunRoutes (runOp K D s op) := by
  cases op with
  | act a => exact hr.steps hf (act_steps (G := True) a (fun _ => trivial) hf)
  | write => exact hr.steps hf (writeToSocket_steps (K := K) (G := True) s.ctx)
  | timeout =>
    exact hr.steps hf (timeoutPdus_steps (G := True) (fun _ => trivial)
      (hr.halted hf).ordered.distinct hf)
  | recv rs bs =>
    simp only [runOp]
    by_cases hb : s.broken = true
    · rw [if_pos hb]
      exact hr
    · rw [if_neg hb]
      have hb' : s.broken = false := by simpa using hb
      have hends := (routing_rule K D).readFromSocket_ends rs bs s.smb2 {} (hr.reads hf hb')
        (Locals.sane_fresh _)
      cases hout : readFromSocket (appHooks K D) K rs bs s.smb2 {} with
      | waiting s' rest =>
        rw [hout] at hends
        exact ⟨hends.1.client, hends.1.routed, fun _ => hends.1.halted, fun _ _ => hends⟩
      | failed e s' rest =>
        rw [hout] at hends
        refine ⟨hends.client, hends.routed, fun _ => hends, ?_⟩
        intro _ h
        cases h
      | faulted f s' rest =>
        rw [hout] at hends
        refine ⟨hends.client, hends.routed, ?_, ?_⟩
        · intro h
          cases h
        · intro h
          cases h

theorem runOps_routes (ops : List Op) {s : Session} (hr : RunRoutes s) :
    RunRoutes (runOps K D s ops) := by
  induction ops generalizing s with
  | nil => exact hr
  | cons op ops ih =>
    by_cases hf : s.ctx.fault = none
    · simp only [runOps, hf, if_true]
      exact ih (runOp_routes op hr hf)
    · rw [runOps_of_fault _ hf]
      exact hr

theorem Blank.routes {s : Session} (hb : Blank s) (hc : s.ctx.isServer = false)
    (hl : s.smb2.rx.log = []) : RunRoutes s := by
  have hpdu : s.smb2.ctx.pdu = none := hb.pdu
  have henq : ∀ c, .enqueued c ∉ s.ctx.log := by
    intro c hmem
    rw [hb.log] at hmem
    cases hmem
  have hrouted : RoutedLog s.smb2.rx.log := by
    rw [hl]
    refine ⟨?_, ?_⟩
    · intro pre d post he
      simp at he
    · intro pre hdr ctx post he
      simp at he
  have hordered : Ordered (fun _ => False) s.ctx := by
    refine ⟨hb.distinct, fun c hc => absurd hc (henq c), fun c hc => absurd hc (henq c),
      fun c d hc => absurd hc (henq c), ?_, ?_, fun c hc => absurd hc (henq c),
      fun i h => h.elim, fun c hc => absurd hc (henq c)⟩
    · intro c hmem
      rw [hb.outqueue] at hmem
      cases hmem
    · intro w hmem
      rw [hb.waitqueue] at hmem
      cases hmem
  have hans : ∀ i, ¬ Answered s.smb2.rx.log i := by
    rintro i ⟨d, hd, _⟩
    rw [hl] at hd
    cases hd
  have hroutes : Routes s.smb2 := by
    refine ⟨hc, hb.fault, hrouted, hordered.shrink (.refl _) ?_, ?_⟩
    · rintro i (h | h)
      · exact hans i h
      · rw [hpdu] at h
        cases h
    · intro q hq
      rw [hpdu] at hq
      cases hq
  exact ⟨hc, hrouted, fun _ => hroutes.halted, fun _ _ => ⟨hroutes, hb.idle⟩⟩

/-- A reply that nobody waits for is skipped: the machine reads what is left of the frame, and
ends the frame without a callback. -/
theorem replyHeader_skips {h : Hooks} (xfrm : Bool) (hp : s.ctx.pdu = none)
    (hu : ¬ s.rx.hdr.unsolicited)
    (hw : ∀ w ∈ s.ctx.waitqueue, w.header.messageId ≠ s.rx.hdr.messageId)
    (hpos : 0 < restLength s.rx xfrm) (hmax : restLength s.rx xfrm ≤ MAX_PDU_SIZE)
    (hroom : s.rx.iov.length < MAX_VECTORS) :
    ∃ s', replyHeader xfrm s = .more s' ∧ s'.ctx = s.ctx ∧ s'.rx.state = .unknown ∧
      s'.rx.totalSize = s.rx.totalSize + (restLength s.rx xfrm).toNat ∧
      ∀ off bs, phase h K xfrm off (store s' bs) =
        .done { store s' bs with rx := { (store s' bs).rx with numDone := 0 } } := by
  have hm := matchReply_unwaited hp hu hw
  have hfit : ¬ restLength (matchedIn s s.ctx).rx xfrm > MAX_PDU_SIZE := not_lt.mpr hmax
  have hnn : ¬ restLength (matchedIn s s.ctx).rx xfrm < 0 := not_lt.mpr hpos.le
  have hvec : ¬ MAX_VECTORS ≤ (matchedIn s s.ctx).rx.iov.length := not_le.mpr hroom
  refine ⟨{ ctx := s.ctx, rx := { (matchedIn s s.ctx).rx with
    state := .unknown
    iov := s.rx.iov ++ [⟨false, (restLength s.rx xfrm).toNat⟩]
    total := s.rx.total + (restLength s.rx xfrm).toNat } }, ?_, rfl, rfl, ?_, ?_⟩
  · unfold replyHeader
    rw [hm]
    simp only
    rw [if_neg hfit]
    unfold expect
    rw [if_neg hnn]
    unfold addIovector
    rw [if_neg hvec]
    rfl
  · simp [Receiver.totalSize]
  · intro off bs
    rfl

end

/-- **Reply routing.**  In every run of a client, each reply that runs a callback runs that of
the request which waited with its message id, and which alone left the wait queue when the reply
was looked up; an earlier member of its chain still waits only if one between them was given up
unanswered.  A reply that nobody waits for runs no callback and changes no queue, and if what is
left of its frame is not too long it is skipped. -/
theorem replies_are_routed (K : Crypto) (D : Decoders) (s : Session) (ops : List Op)
    (hb : Blank s) (hc : s.ctx.isServer = false) (hl : s.smb2.rx.log = []) :
    RoutedLog (runOps K D s ops).smb2.rx.log ∧
      ∀ (xfrm : Bool) (t : Smb2), t.ctx.pdu = none → ¬ t.rx.hdr.unsolicited →
        (∀ w ∈ t.ctx.waitqueue, w.header.messageId ≠ t.rx.hdr.messageId) →
        0 < restLength t.rx xfrm → restLength t.rx xfrm ≤ MAX_PDU_SIZE →
        t.rx.iov.length < MAX_VECTORS →
        ∃ t', replyHeader xfrm t = .more t' ∧ t'.ctx = t.ctx ∧ t'.rx.state = .unknown ∧
          t'.rx.totalSize = t.rx.totalSize + (restLength t.rx xfrm).toNat ∧
          ∀ off bs, phase (appHooks K D) K xfrm off (store t' bs) =
            .done { store t' bs with rx := { (store t' bs).rx with numDone := 0 } } := by
  refine ⟨(runOps_routes ops (hb.routes hc hl)).routed, ?_⟩
  intro xfrm t hp hu hw hpos hmax hroom
  exact replyHeader_skips xfrm hp hu hw hpos hmax hroom

/-! ## Two runs -/

/-- A client that has used the message id 0 and sends what it is given. -/
def countingClient : Session where
  smb2 := { ctx := {
    dialect := VERSION_0210
    credits := 10
    messageId := 1
    env := { tx := List.replicate 8 (.accept 1000) } } }

theorem countingClient_blank : Blank countingClient := ⟨rfl, rfl, rfl, rfl, rfl, rfl, rfl, rfl⟩

/-- The frame of a reply to an echo request. -/
def echoFrame (mid : Nat) : Bytes :=
  be32 68 ++ (echoHeader mid 0 1 (zeros 16)).encode ++ echoBody

/-- Two requests are answered in the wrong order, one of them twice. -/
def answeredTwice : List Op :=
  [allocEcho 1, allocEcho 2, .act (.queue 1), .act (.queue 2), .recv wholeReads (echoFrame 2),
    .recv wholeReads (echoFrame 1), .recv wholeReads (echoFrame 2)]

/-- The requests whose callbacks replies ran, in order. -/
def answeredIds (log : List RxEvent) : List Nat :=
  log.filterMap fun
    | .dispatched d => some d.pdu.id
    | _ => none

/-- A client that has read the header of a reply which nobody waits for. -/
def lostReply : Smb2 where
  rx := {
    state := .header
    spl := 68
    hdr := echoHeader 7 0 1 (zeros 16)
    iov := [⟨false, SPL_SIZE⟩, ⟨true, HEADER_SIZE⟩]
    total := 68
    numDone := 68 }

theorem answeredTwice_routed :
    RoutedLog (runOps echoCrypto plainDecoders countingClient answeredTwice).smb2.rx.log ∧
      answeredIds (runOps echoCrypto plainDecoders countingClient answeredTwice).smb2.rx.log =
        [2, 1] ∧
      ∃ t, replyHeader false lostReply = .more t ∧ t.rx.state = .unknown := by
  have hrun := replies_are_routed echoCrypto plainDecoders countingClient answeredTwice
    countingClient_blank rfl rfl
  obtain ⟨t, hmore, _, hst, _⟩ := hrun.2 false lostReply rfl (by decide) (by decide) (by decide)
    (by decide) (by decide)
  exact ⟨hrun.1, by decide +kernel, t, hmore, hst⟩

/-- Of a chain of three, the second request is cancelled while it waits, and the third is
answered. -/
def middleCancelled : List Op :=
  [allocEcho 1, allocEcho 2, allocEcho 3, .act (.compound 1 2), .act (.compound 1 3),
    .act (.queue 1), .act (.free 2), .recv wholeReads (echoFrame 3)]

/-- The header of a reply that nobody waits for, in a frame of more than 16 MiB. -/
def hugeUnmatched : List Op :=
  [.recv wholeReads (be32 0x1000100 ++ (echoHeader 7 0 1 (zeros 16)).encode)]

/-- A reply to a member of a chain whose first member waits. -/
def RxEvent.outruns (first last : Nat) : RxEvent → Bool
  | .dispatched d => decide (d.pdu.id = last ∧ first ∈ d.ctx.waitqueue.map Pdu.id)
  | _ => false

/-- A chain of these requests is queued. -/
def Event.sends (ids : List Nat) : Event → Bool
  | .enqueued c => c.ids == ids
  | _ => false

theorem exists_enqueued {log : List Event} {ids : List Nat} (h : log.any (Event.sends ids) = true) :
    ∃ c, .enqueued c ∈ log ∧ c.ids = ids := by
  obtain ⟨e, he, hids⟩ := List.any_eq_true.mp h
  cases e with
  | enqueued c => exact ⟨c, he, beq_iff_eq.mp hids⟩
  | _ => cases hids

/-- **Only the member directly before a request has to have been answered**, so that the third
member of a chain is dispatched while the first still waits once the second was cancelled; and a
reply that nobody waits for ends the connection if its frame is too long. -/
theorem third_member_outruns_first :
    Blank countingClient ∧
      (∃ c, .enqueued c ∈ (runOps echoCrypto plainDecoders countingClient middleCancelled).ctx.log ∧
        c.ids = [1, 2, 3]) ∧
      (∃ e ∈ (runOps echoCrypto plainDecoders countingClient middleCancelled).smb2.rx.log,
        e.outruns 1 3 = true) ∧
      (runOps echoCrypto plainDecoders countingClient hugeUnmatched).ctx.fault = none ∧
      (runOps echoCrypto plainDecoders countingClient hugeUnmatched).broken = true := by
  refine ⟨countingClient_blank, ?_, by decide +kernel, by decide +kernel, by decide +kernel⟩
  apply exists_enqueued
  decide +kernel

end Libsmb2
