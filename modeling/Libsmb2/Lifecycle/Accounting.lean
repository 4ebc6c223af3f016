import Libsmb2.Lifecycle.Framing

/-!
# Every request is completed exactly once

A request that was queued sits on the out queue, alone or behind the head of its chain, on
the wait queue, or in `smb2->pdu`, or its callback has run once (`Accounted`).

* `lifetime_completes_once` — over the whole life of a client, the callback of every
  request that was queued runs exactly once, if no chain of several requests times out or
  is shut down on the out queue, no request times out while it is the current one, and the
  last callbacks of the teardown queue nothing.
* `chain_member_never_completed` — a compound of two requests that times out before it is
  sent: the second callback never runs.
-/

set_option autoImplicit false

namespace Libsmb2

open Util Relation

/-- How often the callback of a request has run. -/
def completions (l : List Event) (i : Nat) : Nat :=
  l.countP fun
    | .completed j _ => j == i
    | _ => false

/-- The request was handed to `smb2_queue_pdu`, alone or inside a chain. -/
def WasQueued (l : List Event) (i : Nat) : Prop := ∃ c sec, .queued c sec ∈ l ∧ i ∈ c.ids

/-- **Exactly once.** -/
def CompletedOnce (l : List Event) : Prop := ∀ i, WasQueued l i → completions l i = 1

/-- What must not happen: a chain of several requests leaves the out queue unsent, the
current request times out, a request without a callback is queued. -/
def Event.accountable : Event → Bool
  | .removed c => c.rest.isEmpty
  | .expired _ current => !current
  | .queued c _ => c.members.all fun p => p.cb != .none
  | _ => true

def AllAccountable (l : List Event) : Prop := ∀ e ∈ l, e.accountable = true

instance (l : List Event) : Decidable (AllAccountable l) :=
  inferInstanceAs (Decidable (∀ e ∈ l, e.accountable = true))

theorem AllAccountable.earlier {l l' : List Event} (h : l <+: l') (hp : AllAccountable l') :
    AllAccountable l := fun e he => hp e (h.subset he)

@[simp] theorem completions_append (l m : List Event) (i : Nat) :
    completions (l ++ m) i = completions l i + completions m i := by
  simp [completions]

@[simp] theorem completions_nil (i : Nat) : completions [] i = 0 := rfl

theorem completions_completed (j st i : Nat) :
    completions [.completed j st] i = if i = j then 1 else 0 := by
  by_cases h : i = j
  · subst h
    simp [completions]
  · have : (j == i) = false := by simpa using fun e => h e.symm
    simp [completions, h, this]

theorem completions_eq_zero {l : List Event} (h : ∀ e ∈ l, ∀ j st, e ≠ .completed j st) (i : Nat) :
    completions l i = 0 := by
  simp only [completions, List.countP_eq_zero]
  intro e he
  cases e with
  | completed j st => exact absurd rfl (h _ he j st)
  | _ => simp

theorem completions_ne_zero {l : List Event} {i st : Nat} (h : .completed i st ∈ l) :
    completions l i ≠ 0 := by
  simp only [completions, ne_eq, List.countP_eq_zero, not_forall]
  exact ⟨_, h, by simp⟩

/-- The requests that an event hands to `smb2_queue_pdu`. -/
def Event.queuedIds : Event → List Nat
  | .queued c _ => c.ids
  | _ => []

theorem wasQueued_iff {l : List Event} {i : Nat} :
    WasQueued l i ↔ i ∈ l.flatMap Event.queuedIds := by
  rw [List.mem_flatMap]
  constructor
  · rintro ⟨c, sec, hc, hi⟩
    exact ⟨_, hc, hi⟩
  · rintro ⟨e, he, hi⟩
    cases e with
    | queued c sec => exact ⟨c, sec, he, hi⟩
    | _ => cases hi

instance (l : List Event) (i : Nat) : Decidable (WasQueued l i) :=
  decidable_of_iff _ wasQueued_iff.symm

theorem WasQueued.append {l m : List Event} {i : Nat} :
    WasQueued (l ++ m) i ↔ WasQueued l i ∨ WasQueued m i := by
  rw [wasQueued_iff, wasQueued_iff, wasQueued_iff, List.flatMap_append, List.mem_append]

theorem not_wasQueued {l : List Event} (h : ∀ e ∈ l, ∀ c sec, e ≠ .queued c sec) (i : Nat) :
    ¬ WasQueued l i := by
  rintro ⟨c, sec, hc, _⟩
  exact h _ hc c sec rfl

/-- Where a request can be. -/
def onWait (ctx : Context) (i : Nat) : Nat := (ctx.waitqueue.map Pdu.id).count i

/-- **The books of a client.**  `b` says that the callback of the current request is
running. -/
structure Accounted (b : Bool) (ctx : Context) : Prop where
  client : ctx.isServer = false
  direct : ctx.passthrough = false
  distinct : Distinct ctx
  outCalls : ∀ c ∈ ctx.outqueue, ∀ p ∈ c.members, p.cb ≠ .none
  waitCalls : ∀ p ∈ ctx.waitqueue, p.cb ≠ .none
  pduCalls : ∀ p, ctx.pdu = some p → p.cb ≠ .none
  heldOpen : ∀ i, occ ctx.held i ≠ 0 → completions ctx.log i = 0
  outOpen : ∀ i, occ ctx.outqueue i ≠ 0 → completions ctx.log i = 0
  waitOpen : ∀ i, onWait ctx i ≠ 0 → ctx.pdu.map Pdu.id ≠ some i → completions ctx.log i = 0
  current : ∀ p, ctx.pdu = some p → completions ctx.log p.id = (if b then 1 else 0) ∧
    occ ctx.held p.id = 0 ∧ occ ctx.outqueue p.id = 0 ∧ p.id < ctx.nextId
  settled : ∀ i, WasQueued ctx.log i → completions ctx.log i = 1 ∨ occ ctx.outqueue i ≠ 0 ∨
    onWait ctx i ≠ 0 ∨ ctx.pdu.map Pdu.id = some i
  bound : ∀ i, completions ctx.log i ≠ 0 → i < ctx.nextId

section
variable {K : Crypto} {D : Decoders} {b : Bool}

/-- Events that are not about completion. -/
def Event.incidental : Event → Bool
  | .queued _ _ => false
  | .completed _ _ => false
  | _ => true

theorem incidental_completions {es : List Event} (h : ∀ e ∈ es, e.incidental = true) (i : Nat) :
    completions es i = 0 := by
  refine completions_eq_zero ?_ i
  rintro e he j st rfl
  exact absurd (h _ he) (by simp [Event.incidental])

theorem incidental_not_queued {es : List Event} (h : ∀ e ∈ es, e.incidental = true) (i : Nat) :
    ¬ WasQueued es i := by
  refine not_wasQueued ?_ i
  rintro e he c sec rfl
  exact absurd (h _ he) (by simp [Event.incidental])

variable {ctx ctx' : Context}

/-- Queues, current request and ids as they were, and nothing about completion logged. -/
theorem Accounted.of_same (hi : Accounted b ctx) (es : List Event)
    (ho : ctx'.outqueue = ctx.outqueue) (hw : ctx'.waitqueue = ctx.waitqueue)
    (hh : ctx'.held = ctx.held) (hpdu : ctx'.pdu = ctx.pdu) (hid : ctx'.nextId = ctx.nextId)
    (hsv : ctx'.isServer = ctx.isServer) (hpt : ctx'.passthrough = ctx.passthrough)
    (hl : ctx'.log = ctx.log ++ es) (he : ∀ e ∈ es, e.incidental = true) : Accounted b ctx' := by
  have hcomp : ∀ i, completions ctx'.log i = completions ctx.log i := by
    intro i
    rw [hl, completions_append, incidental_completions he]
    omega
  have hq : ∀ i, WasQueued ctx'.log i → WasQueued ctx.log i := by
    intro i h
    rw [hl, WasQueued.append] at h
    rcases h with h | h
    · exact h
    · exact absurd h (incidental_not_queued he i)
  refine ⟨hsv ▸ hi.client, hpt ▸ hi.direct, ?_, ho ▸ hi.outCalls, hw ▸ hi.waitCalls,
    hpdu ▸ hi.pduCalls, ?_, ?_, ?_, ?_, ?_, ?_⟩
  · refine hi.distinct.of_le (by omega) ?_
    intro i
    simp only [Context.occurs, ho, hw, hh]
    exact le_refl _
  · intro i h
    rw [hcomp]
    exact hi.heldOpen i (hh ▸ h)
  · intro i h
    rw [hcomp]
    exact hi.outOpen i (ho ▸ h)
  · intro i h hne
    rw [hcomp]
    refine hi.waitOpen i ?_ (hpdu ▸ hne)
    simpa only [onWait, hw] using h
  · intro p hp
    rw [hcomp, hh, ho, hid]
    exact hi.current p (hpdu ▸ hp)
  · intro i h
    simp only [hcomp, ho, hpdu, onWait, hw]
    exact hi.settled i (hq i h)
  · intro i h
    rw [hcomp] at h
    rw [hid]
    exact hi.bound i h

/-- Requests moved on: from the application to the out queue, from there to the wait queue.
Nothing was completed. -/
structure Moves (ctx ctx' : Context) : Prop where
  pdu : ctx'.pdu = ctx.pdu
  nextId : ctx.nextId ≤ ctx'.nextId
  completions : ∀ i, completions ctx'.log i = completions ctx.log i
  held : ∀ i, occ ctx'.held i ≠ 0 → occ ctx.held i ≠ 0 ∨ ctx.nextId ≤ i
  out : ∀ i, occ ctx'.outqueue i ≠ 0 → occ ctx.outqueue i ≠ 0 ∨ occ ctx.held i ≠ 0
  wait : ∀ i, onWait ctx' i ≠ 0 → onWait ctx i ≠ 0 ∨ occ ctx.outqueue i ≠ 0
  queued : ∀ i, WasQueued ctx'.log i → WasQueued ctx.log i ∨ occ ctx'.outqueue i ≠ 0
  outStays : ∀ i, occ ctx.outqueue i ≠ 0 → occ ctx'.outqueue i ≠ 0 ∨ onWait ctx' i ≠ 0
  waitStays : ∀ i, onWait ctx i ≠ 0 → onWait ctx' i ≠ 0

theorem Accounted.move (hi : Accounted b ctx) (hm : Moves ctx ctx')
    (hd : Distinct ctx') (hsv : ctx'.isServer = ctx.isServer)
    (hpt : ctx'.passthrough = ctx.passthrough)
    (hoc : ∀ c ∈ ctx'.outqueue, ∀ p ∈ c.members, p.cb ≠ .none)
    (hwc : ∀ p ∈ ctx'.waitqueue, p.cb ≠ .none) : Accounted b ctx' := by
  refine ⟨hsv ▸ hi.client, hpt ▸ hi.direct, hd, hoc, hwc, hm.pdu ▸ hi.pduCalls, ?_, ?_, ?_, ?_,
    ?_, ?_⟩
  · intro i h
    rw [hm.completions]
    rcases hm.held i h with h | h
    · exact hi.heldOpen i h
    · by_contra hne
      have := hi.bound i hne
      omega
  · intro i h
    rw [hm.completions]
    rcases hm.out i h with h | h
    · exact hi.outOpen i h
    · exact hi.heldOpen i h
  · intro i h hne
    rw [hm.completions]
    rcases hm.wait i h with h | h
    · exact hi.waitOpen i h (hm.pdu ▸ hne)
    · exact hi.outOpen i h
  · intro p hp
    obtain ⟨hcomp, hheld, hout, hlt⟩ := hi.current p (hm.pdu ▸ hp)
    rw [hm.completions]
    refine ⟨hcomp, ?_, ?_, hlt.trans_le hm.nextId⟩
    · by_contra hne
      rcases hm.held p.id hne with h | h
      · exact h hheld
      · omega
    · by_contra hne
      rcases hm.out p.id hne with h | h
      · exact h hout
      · exact h hheld
  · intro i h
    rw [hm.completions, hm.pdu]
    rcases hm.queued i h with h | h
    · rcases hi.settled i h with h | h | h | h
      · exact .inl h
      · rcases hm.outStays i h with h | h
        · exact .inr (.inl h)
        · exact .inr (.inr (.inl h))
      · exact .inr (.inr (.inl (hm.waitStays i h)))
      · exact .inr (.inr (.inr h))
    · exact .inr (.inl h)
  · intro i h
    rw [hm.completions] at h
    exact (hi.bound i h).trans_le hm.nextId

/-- A request that is not held occurs in no held chain. -/
theorem alloc_moves (ctx : Context) (p : Pdu) (hid : p.id = ctx.nextId) :
    Moves ctx { ctx with held := ctx.held ++ [.single p], nextId := ctx.nextId + 1 } where
  pdu := rfl
  nextId := Nat.le_succ _
  completions _ := rfl
  held i h := by
    by_cases hlt : ctx.nextId ≤ i
    · exact .inr hlt
    · left
      simp only [occ_append, occ_cons, occ_nil, Chain.single, Chain.ids, Chain.members,
        List.map_cons, List.map_nil, hid] at h
      rw [List.count_cons_of_ne (by omega)] at h
      simpa using h
  out i h := .inl h
  wait i h := .inl h
  queued i h := .inl h
  outStays i h := .inl h
  waitStays i h := h

theorem joined_moves {i j : Nat} {c next : Chain} (hc : ctx.findHeld i = some c)
    (hn : (ctx.dropHeld i).findHeld j = some next) : Moves ctx (joined ctx i j c next) where
  pdu := rfl
  nextId := le_refl _
  completions _ := rfl
  held k h := by
    have hle := joined_occurs hc hn k
    left
    simp only [Context.occurs] at hle
    have ho : occ (joined ctx i j c next).outqueue k = occ ctx.outqueue k := rfl
    have hw : ((joined ctx i j c next).waitqueue.map Pdu.id).count k =
        (ctx.waitqueue.map Pdu.id).count k := rfl
    omega
  out k h := .inl h
  wait k h := .inl h
  queued k h := .inl h
  outStays k h := .inl h
  waitStays k h := h

/-- **The chain that a client submits** goes to the out queue, whole. -/
theorem submitted_moves {id : Nat} {c : Chain} (hcl : ctx.isServer = false)
    (hc : ctx.findHeld id = some c) (hf : (submitted K ctx id c).fault = none) :
    Moves ctx (submitted K ctx id c) ∧
      ∃ c', (submitted K ctx id c).outqueue = ctx.outqueue ++ [c'] ∧
        (submitted K ctx id c).waitqueue = ctx.waitqueue ∧
        c'.members.map Pdu.tag = c.members.map Pdu.tag := by
  obtain ⟨hmem, hid⟩ := Context.findHeld_mem hc
  have hno : ((ctx.dropHeld id).emit (.queued c ctx.security)).isServer = true → False := by
    intro h
    have : ctx.isServer = true := h
    rw [hcl] at this
    cases this
  rcases preparePdu_quiet (G := False) (K := K) ((ctx.dropHeld id).emit (.queued c ctx.security)) c
    hno with hov | hq
  · exact absurd hf hov.fault
  · have htags := preparePdu_tag (K := K) ((ctx.dropHeld id).emit (.queued c ctx.security)) c
    generalize hx : preparePdu K ((ctx.dropHeld id).emit (.queued c ctx.security)) c = x at hq htags
    have hsub : submitted K ctx id c = { x.1 with
        outqueue := x.1.outqueue ++ [x.2], log := x.1.log ++ [.enqueued x.2] } := by
      simp only [submitted, hx]
    obtain ⟨ho, hw, hh⟩ := hq.same not_false
    have ho' : x.1.outqueue = ctx.outqueue := ho
    have hw' : x.1.waitqueue = ctx.waitqueue := hw
    have hh' : x.1.held = ctx.held.filter fun d => d.head.id != id := hh
    obtain ⟨es, hlog, hes⟩ := hq.log
    have hlog' : x.1.log = ctx.log ++ ([.queued c ctx.security] ++ es) := by
      rw [hlog]
      simp [Context.emit, Context.dropHeld]
    have hinc : ∀ e ∈ es, e.incidental = true := by
      intro e he
      rcases hes e he with hn | ⟨hfalse, _⟩
      · cases e <;> simp_all [Event.neutral, Event.incidental]
      · exact hfalse.elim
    have hids := Chain.ids_eq_of_tags htags
    rw [hsub]
    refine ⟨⟨hq.pdu, le_of_eq hq.nextId.symm, ?_, ?_, ?_, ?_, ?_, ?_, ?_⟩, x.2, ?_, hw', htags⟩
    · intro i
      have hzero : completions [.queued c ctx.security] i = 0 := rfl
      have hzero' : completions [.enqueued x.2] i = 0 := rfl
      simp only [hlog', completions_append, incidental_completions hinc, hzero, hzero']
      omega
    · intro i h
      left
      have hle := occ_filter_le ctx.held (fun d => d.head.id != id) i
      simp only [hh'] at h
      omega
    · intro i h
      simp only [ho', occ_append, occ_cons, occ_nil, hids] at h
      by_cases hcount : c.ids.count i = 0
      · left
        omega
      · right
        have hle := occ_filter_add_le (k := fun d => d.head.id != id) hmem (by simp [hid]) i
        omega
    · intro i h
      left
      simpa only [onWait, hw'] using h
    · intro i h
      simp only [hlog', WasQueued.append] at h
      rcases h with (h | h | h) | h
      · exact .inl h
      · obtain ⟨d, sec, hd, hid⟩ := h
        have hdc : d = c := by
          have := List.mem_singleton.mp hd
          cases this
          rfl
        right
        simp only [occ_append, occ_cons, occ_nil, hids]
        have := Chain.count_ids_ne_zero.mpr (hdc ▸ hid)
        omega
      · exact absurd h (incidental_not_queued hinc i)
      · exact absurd h (incidental_not_queued (by simp [Event.incidental]) i)
    · intro i h
      left
      simp only [ho', occ_append]
      omega
    · intro i h
      simpa only [onWait, hw'] using h
    · simp only [ho']

/-- What the transport took of a client's first chain: its members go to the wait queue when
the frame is out. -/
theorem accepted_moves {c : Chain} {rest : List Chain} (n : Nat)
    (hcl : ctx.isServer = false) (hq : ctx.outqueue = c :: rest) :
    Moves ctx (accepted ctx c rest n) ∧
      ∃ c' : Chain, c'.members.map Pdu.id = c.members.map Pdu.id ∧
        c'.members.map Pdu.cb = c.members.map Pdu.cb ∧
        (((accepted ctx c rest n).outqueue = c' :: rest ∧
            (accepted ctx c rest n).waitqueue = ctx.waitqueue) ∨
          ((accepted ctx c rest n).outqueue = rest ∧
            (accepted ctx c rest n).waitqueue = ctx.waitqueue ++ c'.members)) := by
  have hids := c.advance_ids n
  rcases accepted_eq ctx c rest n with ⟨wire, credits, ledger, he | he⟩ <;> rw [he]
  · simp only [hcl, Bool.false_eq_true, if_false]
    have hwait : ∀ i, ((ctx.waitqueue ++ (c.advance n).members).map Pdu.id).count i =
        onWait ctx i + c.ids.count i := by
      intro i
      rw [List.map_append, List.count_append, ← hids]
      rfl
    refine ⟨⟨rfl, le_refl _, fun _ => rfl, fun i h => .inl h, ?_, ?_, fun i h => .inl h, ?_, ?_⟩,
      c.advance n, hids, rfl, .inr (by simp)⟩
    · intro i h
      left
      simp only [hq, occ_cons] at h ⊢
      omega
    · intro i h
      simp only [onWait, hwait] at h
      by_cases hz : c.ids.count i = 0
      · left
        simp only [onWait] at h ⊢
        omega
      · right
        simp only [hq, occ_cons]
        omega
    · intro i h
      simp only [hq, occ_cons] at h
      simp only [onWait, hwait]
      by_cases hz : c.ids.count i = 0
      · left
        omega
      · right
        omega
    · intro i h
      simp only [onWait, hwait] at h ⊢
      omega
  · have hocc : ∀ i, occ (c.advance n :: rest) i = occ ctx.outqueue i := by
      intro i
      rw [hq, occ_cons, occ_cons, hids]
    refine ⟨⟨rfl, le_refl _, fun _ => rfl, fun i h => .inl h, ?_, fun i h => .inl h,
      fun i h => .inl h, ?_, fun i h => h⟩, c.advance n, hids, rfl, .inl ⟨rfl, rfl⟩⟩
    · intro i h
      exact .inl (hocc i ▸ h)
    · intro i h
      exact .inl ((hocc i).symm ▸ h)

theorem cb_of_tags {c c' : Chain} (h : c'.members.map Pdu.tag = c.members.map Pdu.tag)
    (hc : ∀ p ∈ c.members, p.cb ≠ .none) : ∀ p ∈ c'.members, p.cb ≠ .none := by
  intro p hp
  have hmem : p.tag ∈ c.members.map Pdu.tag := h ▸ List.mem_map_of_mem hp
  obtain ⟨q, hq, he⟩ := List.mem_map.mp hmem
  have hcb : q.cb = p.cb := by
    simp only [Pdu.tag, Prod.mk.injEq] at he
    exact he.2.1
  exact hcb ▸ hc q hq

theorem cb_of_map {c c' : Chain} (h : c'.members.map Pdu.cb = c.members.map Pdu.cb)
    (hc : ∀ p ∈ c.members, p.cb ≠ .none) : ∀ p ∈ c'.members, p.cb ≠ .none := by
  intro p hp
  have hmem : p.cb ∈ c.members.map Pdu.cb := h ▸ List.mem_map_of_mem hp
  obtain ⟨q, hq, he⟩ := List.mem_map.mp hmem
  exact he ▸ hc q hq

/-! ## Completion -/

/-- A request leaves a queue and its callback runs: its books are closed.  The other
requests are where they were. -/
theorem Accounted.complete (hi : Accounted b ctx) (id status : Nat)
    (es : List Event) (hopen : completions ctx.log id = 0) (hlt : id < ctx.nextId)
    (hheld : occ ctx'.held id = 0) (hout : occ ctx'.outqueue id = 0) (hwait : onWait ctx' id = 0)
    (hcur : ctx.pdu.map Pdu.id ≠ some id)
    (hsame : ∀ i, i ≠ id → occ ctx'.held i = occ ctx.held i ∧
      occ ctx'.outqueue i = occ ctx.outqueue i ∧ onWait ctx' i = onWait ctx i)
    (hoc : ∀ c ∈ ctx'.outqueue, c ∈ ctx.outqueue) (hwc : ∀ p ∈ ctx'.waitqueue, p ∈ ctx.waitqueue)
    (hd : Distinct ctx') (hpdu : ctx'.pdu = ctx.pdu) (hid : ctx'.nextId = ctx.nextId)
    (hsv : ctx'.isServer = ctx.isServer) (hpt : ctx'.passthrough = ctx.passthrough)
    (hl : ctx'.log = ctx.log ++ es ++ [.completed id status])
    (he : ∀ e ∈ es, e.incidental = true) : Accounted b ctx' := by
  have hcomp : ∀ i, completions ctx'.log i = completions ctx.log i + (if i = id then 1 else 0) := by
    intro i
    rw [hl, completions_append, completions_append, incidental_completions he,
      completions_completed]
    omega
  have hother : ∀ i, i ≠ id → completions ctx'.log i = completions ctx.log i := by
    intro i hne
    rw [hcomp, if_neg hne]
    omega
  have hq : ∀ i, WasQueued ctx'.log i → WasQueued ctx.log i := by
    intro i h
    rw [hl, WasQueued.append, WasQueued.append] at h
    rcases h with (h | h) | h
    · exact h
    · exact absurd h (incidental_not_queued he i)
    · exact absurd h (not_wasQueued (by simp) i)
  refine ⟨hsv ▸ hi.client, hpt ▸ hi.direct, hd, fun c hc => hi.outCalls c (hoc c hc),
    fun p hp => hi.waitCalls p (hwc p hp), hpdu ▸ hi.pduCalls, ?_, ?_, ?_, ?_, ?_, ?_⟩
  · intro i h
    have hne : i ≠ id := fun heq => h (heq ▸ hheld)
    rw [hother i hne]
    exact hi.heldOpen i ((hsame i hne).1 ▸ h)
  · intro i h
    have hne : i ≠ id := fun heq => h (heq ▸ hout)
    rw [hother i hne]
    exact hi.outOpen i ((hsame i hne).2.1 ▸ h)
  · intro i h hpd
    have hne : i ≠ id := fun heq => h (heq ▸ hwait)
    rw [hother i hne]
    exact hi.waitOpen i ((hsame i hne).2.2 ▸ h) (hpdu ▸ hpd)
  · intro p hp
    rw [hpdu] at hp
    have hne : p.id ≠ id := by
      intro heq
      apply hcur
      rw [hp, Option.map_some, heq]
    obtain ⟨hc, hh, ho, hb⟩ := hi.current p hp
    rw [hother _ hne, (hsame _ hne).1, (hsame _ hne).2.1, hid]
    exact ⟨hc, hh, ho, hb⟩
  · intro i h
    by_cases hne : i = id
    · left
      rw [hcomp, if_pos hne, hne, hopen]
    · rw [hother i hne, (hsame i hne).2.1, (hsame i hne).2.2, hpdu]
      exact hi.settled i (hq i h)
  · intro i h
    rw [hid]
    by_cases hne : i = id
    · exact hne ▸ hlt
    · rw [hother i hne] at h
      exact hi.bound i h

/-- A filter that drops single requests of one id leaves the others as often as they were. -/
theorem occ_filter_single {cs : List Chain} {id : Nat}
    (h : ∀ c ∈ cs, c.head.id = id → c.rest = []) {i : Nat} (hne : i ≠ id) :
    occ (cs.filter fun c => c.head.id != id) i = occ cs i := by
  induction cs with
  | nil => rfl
  | cons c cs ih =>
    have ih := ih (fun d hd => h d (List.mem_cons_of_mem _ hd))
    by_cases hc : c.head.id = id
    · have hrest := h c (List.mem_cons_self ..) hc
      have hz : c.ids.count i = 0 := by
        simp only [Chain.ids, Chain.members, hrest, List.map_cons, List.map_nil, hc]
        rw [List.count_cons_of_ne (fun e => hne e.symm)]
        rfl
      rw [List.filter_cons_of_neg (by simp [hc]), ih, occ_cons, hz]
      omega
    · rw [List.filter_cons_of_pos (by simpa using hc), occ_cons, occ_cons, ih]

theorem mem_heads_out {p : Pdu} (hp : p ∈ ctx.heads .out) :
    ∃ c ∈ ctx.outqueue, c.head = p := List.mem_map.mp hp

/-- **Timeout or shutdown of an entry of a queue** closes the books of one request. -/
theorem Accounted.finish (hi : Accounted b ctx) {q : Queue} {p : Pdu}
    (status : Nat) (hp : p ∈ ctx.heads q)
    (hd : Distinct ((ctx.unlink q p.id).emit (.completed p.id status)))
    (hall : AllAccountable ((ctx.unlink q p.id).emit (.completed p.id status)).log) :
    Accounted b ((ctx.unlink q p.id).emit (.completed p.id status)) := by
  have honce := hi.distinct.once p.id
  simp only [Context.occurs] at honce
  cases q with
  | out =>
    obtain ⟨c, hc, rfl⟩ := mem_heads_out hp
    have hsingle : ∀ d ∈ ctx.outqueue, d.head.id = c.head.id → d.rest = [] := by
      intro d hdm hdid
      have hmem : Event.removed d ∈
          ((ctx.unlink .out c.head.id).emit (.completed c.head.id status)).log := by
        refine List.mem_append_left _ (List.mem_append_right _ ?_)
        exact List.mem_map.mpr ⟨d, List.mem_filter.mpr ⟨hdm, by simp [hdid]⟩, rfl⟩
      simpa [Event.accountable] using hall _ hmem
    have hocc := occ_ne_zero_of_mem hc
    have hgone := occ_filter_add_le (k := fun d => d.head.id != c.head.id) hc (by simp) c.head.id
    have hself : c.ids.count c.head.id ≠ 0 :=
      Chain.count_ids_ne_zero.mpr (List.mem_cons_self ..)
    refine hi.complete c.head.id status
      ((ctx.outqueue.filter fun d => d.head.id == c.head.id).map .removed)
      (hi.outOpen _ hocc) ?_ ?_ ?_ ?_ ?_ ?_ ?_ ?_ hd rfl rfl rfl rfl rfl ?_
    · by_contra hge
      have hz := hi.distinct.fresh c.head.id (by omega)
      simp only [Context.occurs] at hz
      omega
    · simp only [Context.unlink, Context.emit]
      omega
    · simp only [Context.unlink, Context.emit]
      omega
    · simp only [Context.unlink, Context.emit, onWait]
      omega
    · intro hcur
      cases hpd : ctx.pdu with
      | none => simp [hpd] at hcur
      | some r =>
        simp only [hpd, Option.map_some, Option.some.injEq] at hcur
        exact hocc (hcur ▸ (hi.current r hpd).2.2.1)
    · intro i hne
      exact ⟨rfl, occ_filter_single hsingle hne, rfl⟩
    · intro d hdm
      exact List.mem_of_mem_filter hdm
    · exact fun r hr => hr
    · intro e he
      obtain ⟨d, _, rfl⟩ := List.mem_map.mp he
      rfl
  | wait =>
    have hmem : p ∈ ctx.waitqueue := hp
    have hcount : (ctx.waitqueue.map Pdu.id).count p.id ≠ 0 := by
      rw [ne_eq, List.count_eq_zero, not_not]
      exact List.mem_map_of_mem hmem
    have hcur : ctx.pdu.map Pdu.id ≠ some p.id := by
      intro hcur
      have hexp : Event.expired p.id true ∈
          ((ctx.unlink .wait p.id).emit (.completed p.id status)).log := by
        refine List.mem_append_left _ (List.mem_append_right _ ?_)
        simp [hcur]
      have := hall _ hexp
      simp [Event.accountable] at this
    refine hi.complete p.id status
      [.expired p.id (ctx.pdu.map Pdu.id == some p.id)]
      (hi.waitOpen _ hcount hcur) ?_ ?_ ?_ ?_ hcur ?_ ?_ ?_ hd rfl rfl rfl rfl rfl ?_
    · by_contra hge
      have hz := hi.distinct.fresh p.id (by omega)
      simp only [Context.occurs] at hz
      omega
    · simp only [Context.unlink, Context.emit]
      omega
    · simp only [Context.unlink, Context.emit]
      omega
    · exact count_filter_self ctx.waitqueue p.id
    · intro i hne
      exact ⟨rfl, rfl, count_filter_other hne⟩
    · exact fun c hc => hc
    · intro r hr
      exact List.mem_of_mem_filter hr
    · simp [Event.incidental]

/-- Freeing a request whose callback has run changes nothing but the wait queue's copy of
the current one. -/
theorem Accounted.purge (hi : Accounted b ctx) {id : Nat}
    (hdone : completions ctx.log id ≠ 0) (hd : Distinct (ctx.freePdu id)) :
    Accounted b (ctx.freePdu id) := by
  have hkeep : ∀ c ∈ ctx.outqueue, (c.head.id != id) = true := by
    intro c hc
    have hocc := occ_ne_zero_of_mem hc
    have hopen := hi.outOpen _ hocc
    have hne : c.head.id ≠ id := by
      intro heq
      exact hdone (heq ▸ hopen)
    simpa using hne
  have hout : (ctx.freePdu id).outqueue = ctx.outqueue := List.filter_eq_self.mpr hkeep
  have hlog : (ctx.freePdu id).log = ctx.log := by
    have hnil : (ctx.outqueue.filter fun c => c.head.id == id) = [] := by
      rw [List.filter_eq_nil_iff]
      intro c hc
      simpa using hkeep c hc
    simp only [Context.freePdu, hnil, List.map_nil, List.append_nil]
  have hwait : ∀ i, onWait (ctx.freePdu id) i ≠ 0 → onWait ctx i ≠ 0 ∧ i ≠ id := by
    intro i h
    have hne : i ≠ id := by
      rintro rfl
      exact h (count_filter_self ctx.waitqueue i)
    refine ⟨?_, hne⟩
    have := count_filter_other (l := ctx.waitqueue) hne
    simp only [onWait, Context.freePdu] at h ⊢
    omega
  refine ⟨hi.client, hi.direct, hd, hout ▸ hi.outCalls, ?_, hi.pduCalls, hlog ▸ hi.heldOpen, ?_,
    ?_, ?_, ?_, hlog ▸ hi.bound⟩
  · intro p hp
    exact hi.waitCalls p (List.mem_of_mem_filter hp)
  · rw [hlog, hout]
    exact hi.outOpen
  · intro i h hne
    rw [hlog]
    exact hi.waitOpen i (hwait i h).1 hne
  · intro p hp
    rw [hlog, hout]
    exact hi.current p hp
  · intro i h
    rw [hlog] at h ⊢
    rw [hout]
    by_cases hne : i = id
    · rcases hi.settled i h with h | h | h | h
      · exact .inl h
      · exact .inr (.inl h)
      · by_cases hcur : ctx.pdu.map Pdu.id = some i
        · exact .inr (.inr (.inr hcur))
        · have := hi.waitOpen i h hcur
          exact absurd (hne ▸ this) hdone
      · exact .inr (.inr (.inr h))
    · rcases hi.settled i h with h | h | h | h
      · exact .inl h
      · exact .inr (.inl h)
      · right; right; left
        have := count_filter_other (l := ctx.waitqueue) hne
        simp only [onWait, Context.freePdu] at h ⊢
        omega
      · exact .inr (.inr (.inr h))

/-! ## The steps of the queues -/

theorem Quiet.incidental (hq : Quiet False ctx ctx') :
    ∃ es, ctx'.log = ctx.log ++ es ∧ ∀ e ∈ es, e.incidental = true := by
  obtain ⟨es, hlog, hes⟩ := hq.log
  refine ⟨es, hlog, ?_⟩
  intro e he
  rcases hes e he with hn | ⟨hfalse, _⟩
  · cases e <;> simp_all [Event.neutral, Event.incidental]
  · exact hfalse.elim

/-- **A step of the queues keeps the books**, whether or not the callback of the current
request is running. -/
theorem Step.accounted (hs : Step K False ctx ctx') (hi : Accounted b ctx)
    (hf : ctx'.fault = none) (hall : AllAccountable ctx'.log) : Accounted b ctx' := by
  have hd := hs.distinct hi.distinct hf
  cases hs with
  | quiet hq =>
    obtain ⟨ho, hw, hh⟩ := hq.same not_false
    obtain ⟨es, hlog, hes⟩ := hq.incidental
    exact hi.of_same es ho hw hh hq.pdu hq.nextId hq.isServer hq.passthrough hlog hes
  | crash hc => exact absurd hf hc.fault
  | alloc p hid hn hw =>
    exact hi.move (alloc_moves ctx p hid) hd rfl rfl hi.outCalls hi.waitCalls
  | compound i j c next hc hn =>
    exact hi.move (joined_moves hc hn) hd rfl rfl hi.outCalls hi.waitCalls
  | submit id c hc hf₀ hf' =>
    obtain ⟨hm, c', hout, hwait, htags⟩ := submitted_moves (K := K) hi.client hc hf'
    have hk := (Step.submit (K := K) (G := False) ctx id c hc hf₀ hf').keeps
    have hqueued : .queued c ctx.security ∈ (submitted K ctx id c).log := by
      have hprep := preparePdu_quiet (G := True) (K := K)
        ((ctx.dropHeld id).emit (.queued c ctx.security)) c (fun _ => trivial)
      rcases hprep with hov | hq
      · exact absurd hf' hov.fault
      · refine List.mem_append_left _ (hq.log.subset ?_)
        exact List.mem_append_right _ (List.mem_singleton.mpr rfl)
    have hcbs : ∀ p ∈ c.members, p.cb ≠ .none := by
      simpa [Event.accountable] using hall _ hqueued
    refine hi.move hm hd hk.isServer hk.passthrough ?_ (hwait ▸ hi.waitCalls)
    intro d hdm
    rw [hout] at hdm
    rcases List.mem_append.mp hdm with hdm | hdm
    · exact hi.outCalls d hdm
    · rw [List.mem_singleton.mp hdm]
      exact cb_of_tags htags hcbs
  | refuse id c hG hc => exact hG.elim
  | offer c rest hq =>
    exact hi.of_same [.offered c ctx.security] rfl rfl rfl rfl rfl rfl rfl rfl
      (by simp [Event.incidental])
  | accept c rest n hq hlt =>
    obtain ⟨hm, c', _, hcb, hplace⟩ := accepted_moves n hi.client hq
    have hk := accepted_keeps ctx c rest n
    have hc' : ∀ p ∈ c'.members, p.cb ≠ .none := by
      refine cb_of_map hcb (hi.outCalls c ?_)
      rw [hq]
      exact List.mem_cons_self ..
    have hrest : ∀ d ∈ rest, ∀ p ∈ d.members, p.cb ≠ .none := by
      intro d hdm
      refine hi.outCalls d ?_
      rw [hq]
      exact List.mem_cons_of_mem _ hdm
    rcases hplace with ⟨hout, hwait⟩ | ⟨hout, hwait⟩
    · refine hi.move hm hd hk.isServer hk.passthrough ?_ (hwait ▸ hi.waitCalls)
      intro d hdm
      rw [hout] at hdm
      rcases List.mem_cons.mp hdm with rfl | hdm
      · exact hc'
      · exact hrest d hdm
    · refine hi.move hm hd hk.isServer hk.passthrough ?_ ?_
      · intro d hdm
        rw [hout] at hdm
        exact hrest d hdm
      intro p hp
      rw [hwait] at hp
      rcases List.mem_append.mp hp with hp | hp
      · exact hi.waitCalls p hp
      · exact hc' p hp
  | finish q p status hp => exact hi.finish status hp hd hall
  | forgo q p hp hcb =>
    cases q with
    | out =>
      obtain ⟨c, hc, rfl⟩ := mem_heads_out hp
      exact absurd hcb (hi.outCalls c hc _ (List.mem_cons_self ..))
    | wait => exact absurd hcb (hi.waitCalls p hp)
  | purge id status hdone => exact hi.purge (completions_ne_zero hdone) hd

theorem Steps.accounted (hs : Steps K False ctx ctx') (hi : Accounted b ctx)
    (hf : ctx'.fault = none) (hall : AllAccountable ctx'.log) : Accounted b ctx' := by
  induction hs with
  | refl => exact hi
  | tail _ hstep ih =>
    have hk := hstep.keeps.grows
    exact hstep.accounted (ih (hk.fault hf) (hall.earlier hk.log)) hf hall

/-! ## Replies -/

/-- The callback of the current request starts. -/
theorem Accounted.start (hi : Accounted false ctx) {p : Pdu}
    (hp : ctx.pdu = some p) (status : Nat) :
    Accounted true (ctx.emit (.completed p.id status)) := by
  obtain ⟨hzero, hheld, hout, hlt⟩ := hi.current p hp
  have hopen : completions ctx.log p.id = 0 := hzero
  have hcomp : ∀ i, completions (ctx.emit (.completed p.id status)).log i =
      completions ctx.log i + (if i = p.id then 1 else 0) := by
    intro i
    simp only [Context.emit, completions_append, completions_completed]
  have hother : ∀ i, i ≠ p.id → completions (ctx.emit (.completed p.id status)).log i =
      completions ctx.log i := by
    intro i hne
    rw [hcomp, if_neg hne]
    omega
  refine ⟨hi.client, hi.direct, ⟨hi.distinct.once, hi.distinct.fresh⟩, hi.outCalls, hi.waitCalls,
    hi.pduCalls, ?_, ?_, ?_, ?_, ?_, ?_⟩
  · intro i h
    rw [hother i (fun heq => h (heq ▸ hheld))]
    exact hi.heldOpen i h
  · intro i h
    rw [hother i (fun heq => h (heq ▸ hout))]
    exact hi.outOpen i h
  · intro i h hne
    have hcur : i ≠ p.id := by
      rintro rfl
      apply hne
      simp only [Context.emit, hp, Option.map_some]
    rw [hother i hcur]
    exact hi.waitOpen i h hne
  · intro r hr
    have : r = p := Option.some.inj (hr.symm.trans hp)
    subst this
    rw [hcomp, hopen, if_pos rfl]
    exact ⟨rfl, hheld, hout, hlt⟩
  · intro i h
    have hq : WasQueued ctx.log i := by
      rcases WasQueued.append.mp h with h | h
      · exact h
      · exact absurd h (not_wasQueued (by simp) i)
    rw [hcomp]
    by_cases hne : i = p.id
    · left
      rw [if_pos hne, hne, hopen]
    · rw [if_neg hne, Nat.add_zero]
      exact hi.settled i hq
  · intro i h
    by_cases hne : i = p.id
    · exact hne ▸ hlt
    · rw [hother i hne] at h
      exact hi.bound i h

/-- The callback of the current request has returned, and the request is freed. -/
theorem Accounted.release (hi : Accounted true ctx) {p : Pdu}
    (hp : ctx.pdu = some p) : Accounted false { ctx.freePdu p.id with pdu := none } := by
  have hdone : completions ctx.log p.id = 1 := (hi.current p hp).1
  have hi' : Accounted true (ctx.freePdu p.id) := hi.purge (by omega)
    (hi.distinct.of_le (le_refl _) (freePdu_occurs ctx p.id))
  have hp' : (ctx.freePdu p.id).pdu = some p := hp
  have hdone' : completions (ctx.freePdu p.id).log p.id = 1 := (hi'.current p hp').1
  refine ⟨hi'.client, hi'.direct, ⟨hi'.distinct.once, hi'.distinct.fresh⟩, hi'.outCalls,
    hi'.waitCalls, ?_, hi'.heldOpen, hi'.outOpen, ?_, ?_, ?_, hi'.bound⟩
  · intro r hr
    cases hr
  · intro i h _
    refine hi'.waitOpen i h ?_
    intro hcur
    rw [hp', Option.map_some, Option.some.injEq] at hcur
    exact h (hcur ▸ count_filter_self ctx.waitqueue p.id)
  · intro r hr
    cases hr
  · intro i h
    rcases hi'.settled i h with h | h | h | h
    · exact .inl h
    · exact .inr (.inl h)
    · exact .inr (.inr (.inl h))
    · left
      rw [hp', Option.map_some, Option.some.injEq] at h
      exact h ▸ hdone'

/-- A request that no queue holds becomes the current one. -/
theorem Accounted.adopt (hi : Accounted b ctx) {p : Pdu}
    (hnone : ctx.pdu = none) (hp : ctx'.pdu = some p) (hcb : p.cb ≠ .none)
    (hopen : completions ctx.log p.id = 0) (hheld : occ ctx.held p.id = 0)
    (hout : occ ctx.outqueue p.id = 0) (hlt : p.id < ctx'.nextId) (ho : ctx'.outqueue = ctx.outqueue)
    (hh : ctx'.held = ctx.held) (hwc : ∀ r ∈ ctx'.waitqueue, r ∈ ctx.waitqueue)
    (hw : ∀ i, i ≠ p.id → onWait ctx' i = onWait ctx i) (hd : Distinct ctx')
    (hid : ctx.nextId ≤ ctx'.nextId) (hsv : ctx'.isServer = ctx.isServer)
    (hpt : ctx'.passthrough = ctx.passthrough) (hl : ctx'.log = ctx.log) :
    Accounted false ctx' := by
  have hne : ∀ i, ctx'.pdu.map Pdu.id ≠ some i → i ≠ p.id := by
    rintro i h rfl
    exact h (by rw [hp, Option.map_some])
  refine ⟨hsv ▸ hi.client, hpt ▸ hi.direct, hd, ho ▸ hi.outCalls,
    fun r hr => hi.waitCalls r (hwc r hr), ?_, ?_, ?_, ?_, ?_, ?_, ?_⟩
  · intro r hr
    rw [hp] at hr
    cases hr
    exact hcb
  · rw [hh, hl]
    exact hi.heldOpen
  · rw [ho, hl]
    exact hi.outOpen
  · intro i h hcur
    rw [hw i (hne i hcur)] at h
    rw [hl]
    refine hi.waitOpen i h ?_
    simp [hnone]
  · intro r hr
    rw [hp] at hr
    cases hr
    rw [hl, hh, ho]
    exact ⟨hopen, hheld, hout, hlt⟩
  · intro i h
    rw [hl] at h ⊢
    by_cases hcur : i = p.id
    · right; right; right
      rw [hp, hcur, Option.map_some]
    · rw [ho, hw i hcur]
      rcases hi.settled i h with h | h | h | h
      · exact .inl h
      · exact .inr (.inl h)
      · exact .inr (.inr (.inl h))
      · simp [hnone] at h
  · intro i h
    rw [hl] at h
    exact (hi.bound i h).trans_le hid

/-- A reply is matched with its request. -/
theorem Accounted.matched (hi : Accounted false ctx) (hnone : ctx.pdu = none)
    (hdr : Header) (hd : Distinct (matchReply ctx hdr).ctx) :
    Accounted false (matchReply ctx hdr).ctx := by
  have hdrop : dropPdu ctx = ctx := by
    unfold dropPdu
    rw [hnone]
  have hfresh := hi.distinct.fresh ctx.nextId (le_refl _)
  simp only [Context.occurs] at hfresh
  unfold matchReply at hd ⊢
  rw [hdrop] at hd ⊢
  split at hd
  · rename_i hbreak
    simp only [hbreak, and_self, if_true, hnone, Context.allocatePdu] at hd ⊢
    by_cases hm : ctx.allocOk = true
    · simp only [hm, if_true] at hd ⊢
      have hopen : completions ctx.log ctx.nextId = 0 := by
        by_contra hne
        have := hi.bound _ hne
        omega
      have hheld : occ ctx.held ctx.nextId = 0 := by omega
      have hout : occ ctx.outqueue ctx.nextId = 0 := by omega
      exact hi.adopt hnone rfl (fun h => by cases h) hopen hheld hout (Nat.lt_succ_self _) rfl rfl
        (fun r hr => hr) (fun i _ => rfl) hd (Nat.le_succ _) rfl rfl rfl
    · simp only [hm] at hd ⊢
      exact hi.of_same [] rfl rfl rfl rfl rfl rfl rfl (by simp [Match.ctx, Context.popMem])
        (by simp)
  · rename_i hbreak
    simp only [hbreak, if_false] at hd ⊢
    unfold claimPdu at hd ⊢
    split
    · exact hi
    · rename_i p hfind
      have hmem : p ∈ ctx.waitqueue := List.mem_of_find?_eq_some hfind
      have hcount : onWait ctx p.id ≠ 0 := by
        rw [onWait, ne_eq, List.count_eq_zero, not_not]
        exact List.mem_map_of_mem hmem
      have honce := hi.distinct.once p.id
      simp only [Context.occurs] at honce
      have hcount' : (ctx.waitqueue.map Pdu.id).count p.id ≠ 0 := hcount
      have hlt : p.id < ctx.nextId := by
        by_contra hge
        have := hi.distinct.fresh p.id (by omega)
        simp only [Context.occurs] at this
        omega
      have hopen := hi.waitOpen p.id hcount (by simp [hnone])
      simp only [hfind] at hd
      split
      · rename_i hprev
        simp only [hprev] at hd
        exact hi.adopt hnone rfl (hi.waitCalls p hmem) hopen (by omega) (by omega) hlt rfl rfl
          (fun r hr => hr) (fun i _ => rfl) ⟨hi.distinct.once, hi.distinct.fresh⟩ (le_refl _)
          rfl rfl rfl
      · rename_i hprev
        simp only [hprev, if_false] at hd
        exact hi.adopt hnone rfl (hi.waitCalls p hmem) hopen (by omega) (by omega) hlt rfl rfl
          (fun r hr => List.mem_of_mem_filter hr) (fun i hne => count_filter_other hne) hd
          (le_refl _) rfl rfl rfl

/-- A decoder leaves its payload in the current request. -/
theorem Accounted.payload (hi : Accounted b ctx) {p : Pdu}
    (hp : ctx.pdu = some p) (payload : Payload) :
    Accounted b { ctx with pdu := some { p with payload := payload } } := by
  have hmap : ctx.pdu.map Pdu.id = some p.id := by rw [hp, Option.map_some]
  refine ⟨hi.client, hi.direct, ⟨hi.distinct.once, hi.distinct.fresh⟩, hi.outCalls, hi.waitCalls,
    ?_, hi.heldOpen, hi.outOpen, ?_, ?_, ?_, hi.bound⟩
  · rintro r ⟨rfl⟩
    exact hi.pduCalls p hp
  · intro i h hne
    exact hi.waitOpen i h (hmap ▸ hne)
  · rintro r ⟨rfl⟩
    exact hi.current p hp
  · intro i h
    have := hi.settled i h
    rwa [hmap] at this

/-- The callback of the current request has returned, and its caller keeps the request. -/
theorem Accounted.surrender (hi : Accounted true ctx) {p : Pdu}
    (hp : ctx.pdu = some p) (hw : onWait ctx p.id = 0) (ids : List Nat) :
    Accounted false { ctx with kept := ids, pdu := none } := by
  have hdone : completions ctx.log p.id = 1 := (hi.current p hp).1
  refine ⟨hi.client, hi.direct, ⟨hi.distinct.once, hi.distinct.fresh⟩, hi.outCalls,
    hi.waitCalls, ?_, hi.heldOpen, hi.outOpen, ?_, ?_, ?_, hi.bound⟩
  · intro r hr
    cases hr
  · intro i h _
    refine hi.waitOpen i h ?_
    intro hcur
    rw [hp, Option.map_some, Option.some.injEq] at hcur
    exact h (hcur ▸ hw)
  · intro r hr
    cases hr
  · intro i h
    rcases hi.settled i h with h | h | h | h
    · exact .inl h
    · exact .inr (.inl h)
    · exact .inr (.inr (.inl h))
    · left
      rw [hp, Option.map_some, Option.some.injEq] at h
      exact h ▸ hdone

/-- A reply's callback, from the dispatch to the free. -/
theorem Accounted.replied (hi : Accounted false ctx) {p : Pdu}
    (hp : ctx.pdu = some p) {status : Nat}
    (hrun : Steps K False (ctx.emit (.completed p.id status)) ctx') (hf : ctx'.fault = none)
    (hall : AllAccountable (ctx'.freePdu p.id).log) :
    Accounted false { ctx'.freePdu p.id with pdu := none } := by
  have hi' := hrun.accounted (hi.start hp status) hf (hall.earlier (List.prefix_append _ _))
  exact hi'.release (hrun.keeps.pdu.trans hp)

/-- **A step of the receive path keeps the books.** -/
theorem CtxStep.accounted (hs : CtxStep (appHooks K D) True ctx ctx')
    (hcov : Covers False ctx) (hi : Accounted false ctx) (hf : ctx'.fault = none)
    (hall : AllAccountable ctx'.log) : Accounted false ctx' := by
  have hd := hs.distinct hi.client hi.distinct hf
  cases hs with
  | note hdr =>
    obtain ⟨cur, mid, he⟩ := noteHeader_eq ctx hdr
    rw [he]
    exact hi.of_same [] rfl rfl rfl rfl rfl rfl rfl (by simp) (by simp)
  | grant hdr =>
    unfold grantCredits
    split
    · exact hi
    · exact hi.of_same [] rfl rfl rfl rfl rfl rfl rfl (List.append_nil _).symm (by simp)
  | adopt p hdr hsv hp =>
    rw [hi.client] at hsv
    cases hsv
  | matched hdr hc hp => exact hi.matched (hp trivial) hdr hd
  | decoded p d hp =>
    obtain ⟨sid, sl, ids, cur, he⟩ := applyEffects_eq ctx d.effects
    have hi' : Accounted false (applyEffects ctx d.effects) := by
      rw [he]
      exact hi.of_same [] rfl rfl rfl rfl rfl rfl rfl (by simp) (by simp)
    refine hi'.payload ?_ d.payload
    rw [he]
    exact hp
  | opened =>
    exact hi.of_same [.used .serverout ctx.serveroutKey] rfl rfl rfl rfl rfl rfl rfl rfl
      (by simp [Event.incidental])
  | replied rx p hc hp hcb hst hap =>
    have hrun := invokeCallback_steps (K := K) p rx.hdr.status ctx hcov
    unfold afterReply Context.retirePdu at hf hall ⊢
    by_cases hown : p.callerFrees = true
    · simp only [hown, if_true] at hf hall ⊢
      have hi' := hrun.accounted (hi.start hp rx.hdr.status) hf hall
      obtain ⟨_, hh, ho, hlt⟩ := hi.current p hp
      have hw := List.count_eq_zero.mpr (hap trivial p hp hown)
      have hgone := (hrun.absent hf hlt (i := p.id) (by
        simp only [Context.occurs, Context.emit]
        omega)).2
      simp only [Context.occurs] at hgone
      have hw' : onWait (invokeCallback K p rx.hdr.status ctx) p.id = 0 := by
        simp only [onWait]
        omega
      exact hi'.surrender (hrun.keeps.pdu.trans hp) hw' _
    · simp only [hown, Bool.false_eq_true, if_false] at hf hall ⊢
      refine (hi.replied hp hrun hf hall).of_same [] rfl rfl rfl rfl rfl rfl rfl
        ?_ (by simp)
      simp only [List.append_nil]
      rfl
  | served rx p hsv hp hcb =>
    rw [hi.client] at hsv
    cases hsv
  | interim rx p hpt hfind hcb hn =>
    rw [hi.direct] at hpt
    cases hpt

theorem accounted_invariant :
    Invariant K D False AllAccountable (Accounted false) where
  earlier h hp := hp.earlier h
  step hs hi hf hp := hs.accounted hi hf hp
  recv hs _ hcov hi hf hp := hs.accounted hcov hi hf hp

/-! ## Teardown -/

/-- Calls that put requests on the out queue. -/
def Action.isQueue : Action → Bool
  | .queue _ => true
  | _ => false

/-- The callbacks that are still to run queue nothing. -/
def Context.queuesNothing (ctx : Context) : Prop :=
  ∀ as ∈ ctx.env.reactions, ∀ a ∈ as, a.isQueue = false

instance (ctx : Context) : Decidable ctx.queuesNothing :=
  inferInstanceAs (Decidable (∀ as ∈ ctx.env.reactions, ∀ a ∈ as, a.isQueue = false))

theorem perform_outqueue {a : Action} (ha : a.isQueue = false)
    (ho : ctx.outqueue = []) : (perform K ctx a).outqueue = [] := by
  cases a with
  | alloc command body cb creditCharge inIov =>
    simp only [perform, Context.allocatePdu]
    by_cases hm : ctx.allocOk = true
    · simp only [hm, if_true]
      exact ho
    · simp only [hm]
      exact ho
  | compound pdu nextPdu =>
    simp only [perform]
    split <;> exact ho
  | queue pdu => cases ha
  | free pdu =>
    simp only [perform]
    split
    · exact ho
    · split
      · simp only [Context.noteRelease, Context.freePdu, ho, List.filter_nil]
      · split <;> exact ho
  | setSign b => exact ho
  | setSeal b => exact ho
  | setTimeout t => exact ho
  | tick t => exact ho
  | close => exact ho

theorem runActions_outqueue (as : List Action)
    (has : ∀ a ∈ as, a.isQueue = false) (ho : ctx.outqueue = []) :
    (runActions K ctx as).outqueue = [] := by
  induction as generalizing ctx with
  | nil => exact ho
  | cons a as ih =>
    unfold runActions
    split
    · exact ih (fun a ha => has a (List.mem_cons_of_mem _ ha))
        (perform_outqueue (has a (List.mem_cons_self ..)) ho)
    · exact ho

/-- A callback that queues nothing leaves an empty out queue empty. -/
theorem invokeApp_outqueue (p : Pdu) (status : Nat) (hn : ctx.queuesNothing)
    (ho : ctx.outqueue = []) :
    (invokeApp K p status ctx).outqueue = [] ∧ (invokeApp K p status ctx).queuesNothing := by
  have hgrow := invokeApp_grows (K := K) p status ctx
  constructor
  · unfold invokeApp react
    split
    · exact ho
    · rename_i as rest hr
      refine runActions_outqueue as (hn as ?_) ho
      have hr' : ctx.env.reactions = as :: rest := hr
      rw [hr']
      exact List.mem_cons_self ..
  · intro as has
    exact hn as (hgrow.env.reactions.subset has)

theorem freePdu_outqueue (id : Nat) (ho : ctx.outqueue = []) :
    (ctx.freePdu id).outqueue = [] := by
  simp only [Context.freePdu, ho, List.filter_nil]

theorem shutdown_outqueue (p : Pdu) (hn : ctx.queuesNothing)
    (ho : ctx.outqueue = []) :
    (shutdown K .wait p ctx).outqueue = [] ∧ (shutdown K .wait p ctx).queuesNothing := by
  unfold shutdown
  by_cases hcb : p.cb = .none
  · simp only [hcb, if_true]
    split
    · exact ⟨freePdu_outqueue p.id ho, hn⟩
    · exact ⟨ho, hn⟩
  · simp only [hcb, if_false]
    have hn₁ : (ctx.unlink .wait p.id).queuesNothing := hn
    obtain ⟨ho', hn'⟩ := invokeApp_outqueue (K := K) p STATUS_SHUTDOWN hn₁ ho
    split
    · exact ⟨freePdu_outqueue p.id ho', hn'⟩
    · exact ⟨ho', hn'⟩

theorem destroyLoop_outqueue (fuel : Nat) (hn : ctx.queuesNothing)
    (ho : ctx.outqueue = []) : (destroyLoop K .wait fuel ctx).outqueue = [] := by
  induction fuel generalizing ctx with
  | zero =>
    unfold destroyLoop
    split <;> exact ho
  | succ fuel ih =>
    unfold destroyLoop
    split
    · exact ho
    · rename_i p ps hq
      obtain ⟨ho', hn'⟩ := shutdown_outqueue (K := K) p hn ho
      simp only
      split
      · exact ih hn' ho'
      · exact ho'

/-- The current request is shut down: no request is the current one, and no request came
to the out queue. -/
theorem destroyCurrent_accounted (hi : Accounted false ctx)
    (hcov : Covers False ctx) (hn : ctx.queuesNothing) (ho : ctx.outqueue = [])
    (hf : (destroyCurrent K ctx).fault = none) (hall : AllAccountable (destroyCurrent K ctx).log) :
    Accounted false (destroyCurrent K ctx) ∧ (destroyCurrent K ctx).pdu = none ∧
      (destroyCurrent K ctx).outqueue = [] ∧ (destroyCurrent K ctx).queuesNothing := by
  unfold destroyCurrent at hf hall ⊢
  cases hp : ctx.pdu with
  | none => exact ⟨hi, hp, ho, hn⟩
  | some p =>
    have hcb := hi.pduCalls p hp
    simp only [hp, hcb, if_false] at hf hall ⊢
    obtain ⟨ho', hn'⟩ := invokeApp_outqueue (K := K) p STATUS_SHUTDOWN hn ho
    by_cases hf' : (invokeApp K p STATUS_SHUTDOWN ctx).fault = none
    · simp only [hf', if_true] at hf hall ⊢
      have hrun : Steps K False (ctx.emit (.completed p.id STATUS_SHUTDOWN))
          (invokeApp K p STATUS_SHUTDOWN ctx) := react_steps _ hcov
      generalize invokeApp K p STATUS_SHUTDOWN ctx = ran at ho' hn' hf' hall hrun ⊢
      refine ⟨(hi.replied hp hrun hf' hall).of_same [] rfl rfl rfl rfl rfl rfl
        rfl ?_ (by simp), by trivial, freePdu_outqueue p.id ho', hn'⟩
      simp only [List.append_nil]
      rfl
    · simp only [hf', if_false] at hf

/-- Nothing is left: everything that was queued has been completed. -/
theorem Accounted.completedOnce (hi : Accounted false ctx)
    (ho : ctx.outqueue = []) (hw : ctx.waitqueue = []) (hp : ctx.pdu = none) :
    CompletedOnce ctx.log := by
  intro i hq
  rcases hi.settled i hq with h | h | h | h
  · exact h
  · simp [ho] at h
  · simp [onWait, hw] at h
  · simp [hp] at h

theorem destroyContext_log (ctx : Context) :
    let out := destroyOut K ctx
    let cur := destroyCurrent K out
    (destroyContext K ctx).fault = none → out.fault = none ∧ cur.fault = none ∧
      destroyContext K ctx = destroyQueue K .wait cur := by
  simp only
  intro hf
  unfold destroyContext at hf ⊢
  simp only at hf ⊢
  split at hf
  · rename_i hout
    split at hf
    · rename_i hcur
      exact ⟨hout, hcur, by rw [if_pos hout, if_pos hcur]⟩
    · rename_i hcur
      exact absurd hf hcur
  · rename_i hout
    exact absurd hf hout

theorem destroyCurrent_grows (ctx : Context) : Grows ctx (destroyCurrent K ctx) := by
  unfold destroyCurrent
  split
  · exact .refl _
  · rename_i p hp
    have hcall : Grows ctx (if p.cb = .none then ctx else invokeApp K p STATUS_SHUTDOWN ctx) := by
      split
      · exact .refl _
      · exact invokeApp_grows p STATUS_SHUTDOWN ctx
    simp only
    generalize (if p.cb = .none then ctx else invokeApp K p STATUS_SHUTDOWN ctx) = d at hcall ⊢
    split
    · exact hcall.trans ((freePdu_grows d p.id).trans
        (.of_same rfl rfl (.refl _) rfl (List.prefix_refl _)))
    · exact hcall

theorem destroyContext_grows (hcov : Covers False ctx) (hf₀ : ctx.fault = none)
    (hf : (destroyContext K ctx).fault = none) : Grows ctx (destroyContext K ctx) := by
  obtain ⟨hfout, hfcur, he⟩ := destroyContext_log (K := K) ctx hf
  have hcov₁ : Covers False { ctx with connected := false } := hcov
  have hclose : Grows ctx { ctx with connected := false } :=
    .of_same rfl rfl (.refl _) rfl (List.prefix_refl _)
  have hout := (destroyQueue_steps (K := K) (q := .out) hcov₁ hf₀).1.keeps.grows
  have hcur := destroyCurrent_grows (K := K) (destroyOut K ctx)
  have hwait := (destroyQueue_steps (K := K) (q := .wait) ((hcov₁.grow hout).grow hcur)
    hfcur).1.keeps.grows
  rw [he]
  exact hclose.trans (hout.trans (hcur.trans hwait))

/-- **Teardown completes all that is left.** -/
theorem destroyContext_completes (hi : Accounted false ctx)
    (hcov : Covers False ctx) (hf₀ : ctx.fault = none)
    (hf : (destroyContext K ctx).fault = none) (hall : AllAccountable (destroyContext K ctx).log)
    (hn : (destroyOut K ctx).queuesNothing) : CompletedOnce (destroyContext K ctx).log := by
  obtain ⟨hfout, hfcur, he⟩ := destroyContext_log (K := K) ctx hf
  have hcov₁ : Covers False { ctx with connected := false } := hcov
  obtain ⟨hsteps, hempty⟩ := destroyQueue_steps (K := K) (q := .out) hcov₁ hf₀
  have hout₀ : (destroyOut K ctx).outqueue = [] := by
    have : (destroyOut K ctx).outqueue.map Chain.head = [] := hempty hfout
    exact List.map_eq_nil_iff.mp this
  have hcov₂ : Covers False (destroyOut K ctx) := hcov₁.keep hsteps.keeps
  rw [he] at hf hall ⊢
  have hi₀ : Accounted false { ctx with connected := false } :=
    hi.of_same [] rfl rfl rfl rfl rfl rfl rfl (by simp) (by simp)
  have hcurGrow := destroyCurrent_grows (K := K) (destroyOut K ctx)
  obtain ⟨hwsteps, hwempty⟩ := destroyQueue_steps (K := K) (q := .wait)
    (hcov₂.grow hcurGrow) hfcur
  have hlogw := hwsteps.keeps.log
  have hallcur := hall.earlier hlogw
  have hallout := hallcur.earlier hcurGrow.log
  have hiout := hsteps.accounted hi₀ hfout hallout
  obtain ⟨hicur, hpdu, hout₁, hn₁⟩ :=
    destroyCurrent_accounted (K := K) hiout hcov₂ hn hout₀ hfcur hallcur
  have hiend := hwsteps.accounted hicur hf hall
  exact hiend.completedOnce (destroyLoop_outqueue _ hn₁ hout₁) (hwempty hf)
    (hwsteps.keeps.pdu.trans hpdu)

theorem Blank.accounted {s : Session} (hb : Blank s) (hc : s.ctx.isServer = false)
    (hp : s.ctx.passthrough = false) : Accounted false s.ctx := by
  refine ⟨hc, hp, hb.distinct, ?_, ?_, ?_, ?_, ?_, ?_, ?_, ?_, ?_⟩
  · simp [hb.outqueue]
  · simp [hb.waitqueue]
  · simp [hb.pdu]
  · simp [hb.held]
  · simp [hb.outqueue]
  · simp [onWait, hb.waitqueue]
  · simp [hb.pdu]
  · rw [hb.log]
    rintro i ⟨c, sec, hc, _⟩
    cases hc
  · simp [hb.log]

end

/-- **Exactly-once completion.**  Over the life of a client context without passthrough that
frees no request itself, the callback of every request that was queued runs exactly once,
if no chain of several requests leaves the out queue unsent, no request times out while it
is the current one, every request has a callback, and the callbacks that the teardown runs
once the out queue is empty queue nothing. -/
theorem lifetime_completes_once (K : Crypto) (D : Decoders) (s : Session) (ops : List Op)
    (hb : Blank s) (hc : s.ctx.isServer = false) (hp : s.ctx.passthrough = false)
    (hfree : ¬ freesRequests s ops) (hf : (lifetime K D s ops).fault = none)
    (hall : AllAccountable (lifetime K D s ops).log)
    (hn : (destroyOut K (runOps K D s ops).ctx).queuesNothing) :
    CompletedOnce (lifetime K D s ops).log := by
  have hf₀ : (runOps K D s ops).ctx.fault = none := by
    unfold lifetime at hf
    simp only at hf
    split at hf
    · assumption
    · exact hf
  have he : lifetime K D s ops = destroyContext K (runOps K D s ops).ctx := by
    unfold lifetime
    simp only [hf₀, if_true]
  rw [he] at hf hall ⊢
  have hG : s.ctx.isServer = true ∨ freesRequests s ops → False := by
    rintro (h | h)
    · rw [hc] at h
      cases h
    · exact hfree h
  have htriv : Invariant K D False (fun _ => True) (fun _ => True) :=
    ⟨fun _ _ => trivial, fun _ _ _ _ => trivial, fun _ _ _ _ _ _ => trivial⟩
  have hgrow := (runOps_steady htriv ops s hG (fun _ _ _ => hc)
    (hb.steady trivial) hf₀ trivial).2
  have hcov : Covers False (runOps K D s ops).ctx := by
    refine Covers.grow ?_ hgrow
    rintro (h | h)
    · exact hG (.inl h)
    · exact hG (.inr (.inl h))
  have hlog := (destroyContext_grows (K := K) hcov hf₀ hf).log
  have hst := runOps_steady (accounted_invariant (K := K) (D := D)) ops s hG (fun _ _ _ => hc)
    (hb.steady (hb.accounted hc hp)) hf₀ (hall.earlier hlog)
  exact destroyContext_completes hst.1.inv hcov hf₀ hf hall hn

/-! ## Two runs -/

/-- A client whose transport takes what it gets, and whose requests time out. -/
def timedClient : Session where
  smb2 := { ctx := {
    dialect := VERSION_0210
    credits := 10
    timeout := 5
    env := { tx := List.replicate 8 (.accept 1000) } } }

/-- A compound and a third request are sent, one reply arrives, two requests time out, and a
fourth request waits until the teardown. -/
def mixedLife : List Op :=
  [allocEcho 1, allocEcho 2, allocEcho 3, .act (.compound 1 2), .act (.queue 1), .act (.queue 3),
    .recv wholeReads (be32 68 ++ (echoHeader 1 0 1 (zeros 16)).encode ++ echoBody),
    .act (.tick 6), .act (.setTimeout 0), allocEcho 4, .act (.queue 4), .timeout]

theorem timedClient_blank : Blank timedClient := ⟨rfl, rfl, rfl, rfl, rfl, rfl, rfl, rfl⟩

theorem mixedLife_frees_nothing : ¬ freesRequests timedClient mixedLife := by
  rintro (⟨as, has, _⟩ | ⟨a, ha, hfree⟩)
  · cases has
  · cases a <;> simp_all [mixedLife, allocEcho, Action.isFree]

theorem mixedLife_completes_once :
    CompletedOnce (lifetime echoCrypto plainDecoders timedClient mixedLife).log :=
  lifetime_completes_once echoCrypto plainDecoders timedClient mixedLife timedClient_blank rfl rfl
    mixedLife_frees_nothing (by decide +kernel) (by decide +kernel) (by decide +kernel)

/-- The same client on a transport that takes nothing. -/
def blockedClient : Session where
  smb2 := { ctx := { dialect := VERSION_0210, credits := 10, timeout := 5 } }

/-- A compound of two requests times out before it is sent. -/
def compoundTimesOut : List Op :=
  [allocEcho 1, allocEcho 2, .act (.compound 1 2), .act (.queue 1), .act (.tick 6), .timeout]

/-- **The second request of a compound that times out unsent is freed with the first**, and
its callback never runs. -/
theorem chain_member_never_completed :
    Blank blockedClient ∧ blockedClient.ctx.isServer = false ∧
      blockedClient.ctx.passthrough = false ∧
      (lifetime echoCrypto plainDecoders blockedClient compoundTimesOut).fault = none ∧
      ¬ CompletedOnce (lifetime echoCrypto plainDecoders blockedClient compoundTimesOut).log := by
  refine ⟨⟨rfl, rfl, rfl, rfl, rfl, rfl, rfl, rfl⟩, rfl, rfl, by decide +kernel, ?_⟩
  intro h
  have hq : WasQueued (lifetime echoCrypto plainDecoders blockedClient compoundTimesOut).log 2 := by
    decide +kernel
  have hzero : completions (lifetime echoCrypto plainDecoders blockedClient compoundTimesOut).log 2 =
      0 := by decide +kernel
  have := h 2 hq
  omega

end Libsmb2
