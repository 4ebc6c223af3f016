import Libsmb2.Lifecycle.Deals
import Libsmb2.Lifecycle.Framing
import Libsmb2.Timer
import Mathlib.Data.List.TakeWhile

/-!
# Deadlines

`smb2_timeout_pdus` walks through both queues and completes every request whose deadline has
passed.  While it does so the callbacks may queue, send and free requests.

The argument follows one request: `watched` are the deadlines that are due, and the position of
the request `n` that the loop goes on with.  Whatever a callback does, it adds nothing to them and
keeps their order (`Drift`), so that nothing that is due ends up behind the loop.

* `deadlines_are_serviced` — **if no request in the queues has its deadline at this very second,
  `smb2_service_timeout` completes a request whenever a deadline is reported as due, and leaves
  none behind.**
* `deadline_of_this_second_spins` — a request whose deadline is the current second is reported as
  due, and nothing is done about it.
-/

set_option autoImplicit false

namespace Libsmb2

open Util Relation

/-- The id and the deadline of a request. -/
def Pdu.slot (p : Pdu) : Nat × Nat := (p.id, p.timeout)

/-- The slot is due, or that of the request `n`. -/
def watches (t : Nat) (n : Option Nat) (x : Nat × Nat) : Bool :=
  (x.2 != 0 && decide (x.2 ≤ t)) || some x.1 == n

theorem watches_slot (t : Nat) (n : Option Nat) (p : Pdu) :
    watches t n p.slot = (p.due t || some p.id == n) := rfl

/-- What the loop must not miss. -/
def watched (t : Nat) (n : Option Nat) (q : Queue) (ctx : Context) : List (Nat × Nat) :=
  ((ctx.heads q).map Pdu.slot).filter (watches t n)

/-- A request that is neither due nor `n`. -/
def Pdu.idle (t : Nat) (n : Option Nat) (p : Pdu) : Prop := p.due t = false ∧ some p.id ≠ n

theorem Pdu.idle_iff {t : Nat} {n : Option Nat} {p : Pdu} : p.idle t n ↔ watches t n p.slot = false := by
  rw [watches_slot]
  simp [Pdu.idle]

/-- What holds while the loop over the queue `q` runs: the requests that can still enter the queue
are idle. -/
structure Watch (t : Nat) (n : Option Nat) (q : Queue) (ctx : Context) : Prop where
  now : t ≤ ctx.now
  known : ∀ i, n = some i → i < ctx.nextId
  held : ∀ c ∈ ctx.held, ∀ p ∈ c.members, p.idle t n
  rest : ∀ c ∈ ctx.outqueue, ∀ p ∈ c.rest, p.due t = false
  sharp : ∀ r, ∀ p ∈ ctx.heads r, p.due t = true → p.timeout < t
  out : q = .wait → ∀ c ∈ ctx.outqueue, ∀ p ∈ c.members, p.idle t n

/-- A change that adds nothing to what is watched, and keeps its order. -/
def Drift (t : Nat) (n : Option Nat) (q : Queue) (ctx ctx' : Context) : Prop :=
  Watch t n q ctx → Watch t n q ctx' ∧ (watched t n q ctx').Sublist (watched t n q ctx)

section
variable {K : Crypto} {t : Nat} {n : Option Nat} {q : Queue} {ctx ctx' ctx'' : Context}

theorem Drift.refl (ctx : Context) : Drift t n q ctx ctx := fun h => ⟨h, .refl _⟩

theorem Drift.trans (h₁ : Drift t n q ctx ctx') (h₂ : Drift t n q ctx' ctx'') :
    Drift t n q ctx ctx'' := by
  intro hw
  obtain ⟨hw', hs⟩ := h₁ hw
  obtain ⟨hw'', hs'⟩ := h₂ hw'
  exact ⟨hw'', hs'.trans hs⟩

theorem due_of_slot {p p' : Pdu} (h : p'.slot = p.slot) : p'.due t = p.due t := by
  have ht : p'.timeout = p.timeout := congrArg Prod.snd h
  unfold Pdu.due
  rw [ht]

/-- A change that at most takes requests away. -/
theorem Drift.of_sub (hnow : ctx.now ≤ ctx'.now) (hid : ctx.nextId ≤ ctx'.nextId)
    (hheld : ctx'.held ⊆ ctx.held) (hout : ctx'.outqueue.Sublist ctx.outqueue)
    (hwait : (ctx'.waitqueue.map Pdu.slot).Sublist (ctx.waitqueue.map Pdu.slot)) :
    Drift t n q ctx ctx' := by
  intro hw
  have hheads : ∀ r, ((ctx'.heads r).map Pdu.slot).Sublist ((ctx.heads r).map Pdu.slot) := by
    intro r
    cases r with
    | out => exact (hout.map _).map _
    | wait => exact hwait
  refine ⟨⟨hw.now.trans hnow, fun i hi => (hw.known i hi).trans_le hid, ?_, ?_, ?_, ?_⟩, (hheads q).filter _⟩
  · exact fun c hc => hw.held c (hheld hc)
  · exact fun c hc => hw.rest c (hout.subset hc)
  · intro r p hp hdue
    obtain ⟨p', hp', he⟩ := List.mem_map.mp ((hheads r).subset (List.mem_map_of_mem hp))
    have hlt := hw.sharp r p' hp' (by rw [due_of_slot he]; exact hdue)
    have ht : p'.timeout = p.timeout := congrArg Prod.snd he
    omega
  · exact fun hq c hc => hw.out hq c (hout.subset hc)

theorem Drift.of_same (hnow : ctx'.now = ctx.now) (hid : ctx'.nextId = ctx.nextId)
    (hheld : ctx'.held = ctx.held) (hout : ctx'.outqueue = ctx.outqueue)
    (hwait : ctx'.waitqueue = ctx.waitqueue) : Drift t n q ctx ctx' := by
  apply Drift.of_sub hnow.ge hid.ge
  · rw [hheld]
    exact fun _ h => h
  · rw [hout]
  · rw [hwait]

theorem freePdu_drift (ctx : Context) (id : Nat) : Drift t n q ctx (ctx.freePdu id) :=
  .of_sub le_rfl le_rfl (fun _ h => h) List.filter_sublist (List.filter_sublist.map _)

theorem unlink_drift (ctx : Context) (r : Queue) (id : Nat) : Drift t n q ctx (ctx.unlink r id) := by
  cases r with
  | out => exact .of_sub le_rfl le_rfl (fun _ h => h) List.filter_sublist (.refl _)
  | wait => exact .of_sub le_rfl le_rfl (fun _ h => h) (.refl _) (List.filter_sublist.map _)

theorem dropHeld_drift (ctx : Context) (id : Nat) : Drift t n q ctx (ctx.dropHeld id) :=
  .of_sub le_rfl le_rfl (fun _ h => List.mem_of_mem_filter h) (.refl _) (.refl _)

/-! ## Queueing -/

/-- A request that is answered leaves the queues, or is marked there. -/
theorem correlateReply_drift (ctx : Context) (p : Pdu) :
    Drift t n q ctx (correlateReply ctx p).1 ∧ (correlateReply ctx p).2.slot = p.slot := by
  unfold correlateReply
  split
  · split
    · exact ⟨.refl _, rfl⟩
    · exact ⟨.refl _, rfl⟩
  · rename_i req _
    simp only
    split
    · refine ⟨.of_sub le_rfl le_rfl (fun _ h => h) (.refl _) ?_, rfl⟩
      rw [List.map_map]
      refine (List.map_congr_left ?_ : _ = ctx.waitqueue.map Pdu.slot) ▸ .refl _
      intro x _
      simp only [Function.comp_apply]
      split <;> rfl
    · refine ⟨freePdu_drift ctx req.id, ?_⟩
      split <;> rfl

theorem queueMember_drift (ctx : Context) (mid : Nat) (p : Pdu) :
    Drift t n q ctx (queueMember K ctx mid p).1 ∧ (queueMember K ctx mid p).2.slot = p.slot := by
  have henc : Drift t n q ctx (encodeMember ctx mid p).1 ∧
      (encodeMember ctx mid p).2.slot = p.slot := by
    have hhdr : ∀ (d : Context) (r : Pdu), Drift t n q d (encodeHeader d r).1 ∧
        (encodeHeader d r).2.slot = r.slot := by
      intro d r
      unfold encodeHeader
      split
      · exact ⟨.refl _, rfl⟩
      · exact ⟨.of_same rfl rfl rfl rfl rfl, rfl⟩
    unfold encodeMember
    by_cases hs : ctx.isServer = true
    · obtain ⟨h₁, h₂⟩ := correlateReply_drift (t := t) (n := n) (q := q) ctx p
      obtain ⟨h₃, h₄⟩ := hhdr (correlateReply ctx p).1 (correlateReply ctx p).2
      simp only [hs, if_true]
      exact ⟨h₁.trans h₃, h₄.trans h₂⟩
    · simp only [hs, Bool.false_eq_true, if_false]
      exact hhdr ctx p
  obtain ⟨env, es, flags, sig, out, -, h₁, h₂⟩ :=
    signMember_eq (K := K) (encodeMember ctx mid p).1 (encodeMember ctx mid p).2
  refine ⟨henc.1.trans ?_, ?_⟩
  · show Drift t n q _ (signMember K (encodeMember ctx mid p).1 (encodeMember ctx mid p).2).1
    rw [h₁]
    exact .of_same rfl rfl rfl rfl rfl
  · show (signMember K (encodeMember ctx mid p).1 (encodeMember ctx mid p).2).2.slot = _
    rw [h₂]
    exact henc.2

theorem queueMembers_drift (ps : List Pdu) (ctx : Context) (mid : Nat) :
    Drift t n q ctx (queueMembers K ctx mid ps).1 ∧
      (queueMembers K ctx mid ps).2.map Pdu.slot = ps.map Pdu.slot := by
  induction ps generalizing ctx mid with
  | nil => exact ⟨.refl _, rfl⟩
  | cons p ps ih =>
    obtain ⟨h₁, h₂⟩ := queueMember_drift (K := K) (t := t) (n := n) (q := q) ctx mid p
    obtain ⟨h₃, h₄⟩ := ih (queueMember K ctx mid p).1 (queueMember K ctx mid p).2.header.messageId
    refine ⟨h₁.trans h₃, ?_⟩
    simp only [queueMembers, List.map_cons, h₂, h₄]

theorem encryptPdu_drift (ctx : Context) (c : Chain) : Drift t n q ctx (encryptPdu K ctx c).1 ∧
    (encryptPdu K ctx c).2.members.map Pdu.slot = c.members.map Pdu.slot := by
  refine encryptPdu_cases K ctx c ?_ ?_ ?_ ?_
  · exact ⟨.refl _, rfl⟩
  · exact ⟨.of_same rfl rfl rfl rfl rfl, rfl⟩
  · exact ⟨.of_same rfl rfl rfl rfl rfl, rfl⟩
  · exact ⟨.of_same rfl rfl rfl rfl rfl, rfl⟩

theorem preparePdu_drift (ctx : Context) (c : Chain) : Drift t n q ctx (preparePdu K ctx c).1 ∧
    (preparePdu K ctx c).2.members.map Pdu.slot = c.members.map Pdu.slot := by
  have hhead : (if ctx.isServer then markReply c.head else c.head).slot = c.head.slot := by
    split <;> rfl
  unfold preparePdu
  simp only
  generalize (if ctx.isServer then markReply c.head else c.head) = head at hhead
  obtain ⟨h₁, h₂⟩ := queueMember_drift (K := K) (t := t) (n := n) (q := q) ctx 0 head
  obtain ⟨h₃, h₄⟩ := queueMembers_drift (K := K) (t := t) (n := n) (q := q) c.rest
    (queueMember K ctx 0 head).1 (queueMember K ctx 0 head).2.header.messageId
  obtain ⟨h₅, h₆⟩ := encryptPdu_drift (K := K) (t := t) (n := n) (q := q)
    (queueMembers K (queueMember K ctx 0 head).1 (queueMember K ctx 0 head).2.header.messageId
      c.rest).1
    ⟨(queueMember K ctx 0 head).2, (queueMembers K (queueMember K ctx 0 head).1
      (queueMember K ctx 0 head).2.header.messageId c.rest).2⟩
  refine ⟨h₁.trans (h₃.trans h₅), h₆.trans ?_⟩
  show (queueMember K ctx 0 head).2.slot :: _ = c.head.slot :: c.rest.map Pdu.slot
  rw [h₂, h₄, hhead]

/-- An idle chain is put on the out queue. -/
theorem Watch.enqueue (hw : Watch t n q ctx) {c : Chain} (hc : ∀ p ∈ c.members, p.idle t n)
    (hnow : ctx'.now = ctx.now) (hid : ctx'.nextId = ctx.nextId) (hheld : ctx'.held = ctx.held)
    (hout : ctx'.outqueue = ctx.outqueue ++ [c]) (hwait : ctx'.waitqueue = ctx.waitqueue) :
    Watch t n q ctx' ∧ (watched t n q ctx').Sublist (watched t n q ctx) := by
  have hhead : c.head.idle t n := hc c.head (List.mem_cons_self ..)
  have hmem : ∀ d ∈ ctx'.outqueue, d ∈ ctx.outqueue ∨ d = c := by
    intro d hd
    rw [hout] at hd
    rcases List.mem_append.mp hd with hd | hd
    · exact .inl hd
    · exact .inr (List.mem_singleton.mp hd)
  refine ⟨⟨hnow ▸ hw.now, hid ▸ hw.known, hheld ▸ hw.held, ?_, ?_, ?_⟩, ?_⟩
  · intro d hd p hp
    rcases hmem d hd with hd | rfl
    · exact hw.rest d hd p hp
    · exact (hc p (List.mem_cons_of_mem _ hp)).1
  · intro r p hp hdue
    cases r with
    | out =>
      obtain ⟨d, hd, rfl⟩ := List.mem_map.mp hp
      rcases hmem d hd with hd | rfl
      · exact hw.sharp .out d.head (List.mem_map_of_mem hd) hdue
      · rw [hhead.1] at hdue
        cases hdue
    | wait =>
      have hp : p ∈ ctx'.waitqueue := hp
      rw [hwait] at hp
      exact hw.sharp .wait p hp hdue
  · intro hq d hd
    rcases hmem d hd with hd | rfl
    · exact hw.out hq d hd
    · exact hc
  · unfold watched
    cases q with
    | out =>
      show List.Sublist (((ctx'.outqueue.map Chain.head).map Pdu.slot).filter _) _
      rw [hout, List.map_append, List.map_append, List.filter_append]
      have hnone : ([c].map Chain.head |>.map Pdu.slot).filter (watches t n) = [] := by
        simp [Pdu.idle_iff.mp hhead]
      rw [hnone, List.append_nil]
      exact .refl _
    | wait =>
      show List.Sublist ((ctx'.waitqueue.map Pdu.slot).filter _) _
      rw [hwait]
      exact .refl _

/-! ## Writing -/

theorem advance_slots (c : Chain) (k : Nat) :
    (c.advance k).members.map Pdu.slot = c.members.map Pdu.slot := rfl

/-- A chain has been sent. -/
theorem Watch.sent (hw : Watch t n q ctx) {c : Chain} {rest : List Chain} (k : Nat)
    (hq : ctx.outqueue = c :: rest) (hnow : ctx'.now = ctx.now) (hid : ctx'.nextId = ctx.nextId)
    (hheld : ctx'.held = ctx.held) (hout : ctx'.outqueue = rest)
    (hwait : ctx'.waitqueue = ctx.waitqueue ∨
      ctx'.waitqueue = ctx.waitqueue ++ (c.advance k).members) :
    Watch t n q ctx' ∧ (watched t n q ctx').Sublist (watched t n q ctx) := by
  have hin : c ∈ ctx.outqueue := hq ▸ List.mem_cons_self ..
  have hsub : ctx'.outqueue.Sublist ctx.outqueue := by
    rw [hout, hq]
    exact List.sublist_cons_self ..
  -- the deadlines of the members
  have hmembers : ∀ p ∈ (c.advance k).members, p.due t = true → p.timeout < t := by
    intro p hp hdue
    rcases List.mem_cons.mp hp with rfl | hp
    · exact hw.sharp .out c.head (List.mem_map_of_mem hin) hdue
    · rw [hw.rest c hin p hp] at hdue
      cases hdue
  refine ⟨⟨hnow ▸ hw.now, hid ▸ hw.known, hheld ▸ hw.held, ?_, ?_, ?_⟩, ?_⟩
  · exact fun d hd => hw.rest d (hsub.subset hd)
  · intro r p hp hdue
    cases r with
    | out =>
      obtain ⟨d, hd, rfl⟩ := List.mem_map.mp hp
      exact hw.sharp .out d.head (List.mem_map_of_mem (hsub.subset hd)) hdue
    | wait =>
      have hp : p ∈ ctx'.waitqueue := hp
      rcases hwait with he | he
      · rw [he] at hp
        exact hw.sharp .wait p hp hdue
      · rw [he] at hp
        rcases List.mem_append.mp hp with hp | hp
        · exact hw.sharp .wait p hp hdue
        · exact hmembers p hp hdue
  · exact fun hq' d hd => hw.out hq' d (hsub.subset hd)
  · cases q with
    | out =>
      unfold watched
      show List.Sublist (((ctx'.outqueue.map Chain.head).map Pdu.slot).filter _) _
      exact ((hsub.map Chain.head).map Pdu.slot).filter _
    | wait =>
      unfold watched
      show List.Sublist ((ctx'.waitqueue.map Pdu.slot).filter _) _
      rcases hwait with he | he
      · rw [he]
        exact .refl _
      · rw [he, List.map_append, List.filter_append, advance_slots]
        have hnone : (c.members.map Pdu.slot).filter (watches t n) = [] := by
          apply List.filter_eq_nil_iff.mpr
          intro x hx
          obtain ⟨p, hp, rfl⟩ := List.mem_map.mp hx
          rw [Pdu.idle_iff.mp (hw.out rfl c hin p hp)]
          decide
        rw [hnone, List.append_nil]
        exact .refl _

theorem accepted_drift {c : Chain} {rest : List Chain} (k : Nat) (hq : ctx.outqueue = c :: rest) :
    Drift t n q ctx (accepted ctx c rest k) := by
  intro hw
  rcases accepted_eq ctx c rest k with ⟨wire, credits, ledger, he | he⟩ <;> rw [he]
  · apply hw.sent k hq
    · rfl
    · rfl
    · rfl
    · rfl
    · simp only
      split
      · exact .inl rfl
      · exact .inr rfl
  · have hsame : (((c.advance k :: rest).map Chain.head).map Pdu.slot) =
        (ctx.outqueue.map Chain.head).map Pdu.slot := by
      rw [hq]
      rfl
    have hmem : ∀ d ∈ c.advance k :: rest, ∃ d' ∈ ctx.outqueue,
        d.members.map Pdu.slot = d'.members.map Pdu.slot ∧ d.rest = d'.rest := by
      intro d hd
      rw [hq]
      rcases List.mem_cons.mp hd with rfl | hd
      · exact ⟨c, List.mem_cons_self .., rfl, rfl⟩
      · exact ⟨d, List.mem_cons_of_mem _ hd, rfl, rfl⟩
    refine ⟨⟨hw.now, hw.known, hw.held, ?_, ?_, ?_⟩, ?_⟩
    · intro d hd p hp
      obtain ⟨d', hd', -, hrest⟩ := hmem d hd
      rw [hrest] at hp
      exact hw.rest d' hd' p hp
    · intro r p hp hdue
      cases r with
      | out =>
        have hslot : p.slot ∈ (ctx.outqueue.map Chain.head).map Pdu.slot :=
          hsame ▸ List.mem_map_of_mem hp
        obtain ⟨p', hp', he⟩ := List.mem_map.mp hslot
        have hlt := hw.sharp .out p' hp' (by rw [due_of_slot he]; exact hdue)
        have ht : p'.timeout = p.timeout := congrArg Prod.snd he
        omega
      | wait => exact hw.sharp .wait p hp hdue
    · intro hq' d hd p hp
      obtain ⟨d', hd', hslots, -⟩ := hmem d hd
      have hslot : p.slot ∈ d'.members.map Pdu.slot := hslots ▸ List.mem_map_of_mem hp
      obtain ⟨p', hp', he⟩ := List.mem_map.mp hslot
      rw [Pdu.idle_iff, ← he]
      exact Pdu.idle_iff.mp (hw.out hq' d' hd' p' hp')
    · cases q with
      | out =>
        show List.Sublist ((((c.advance k :: rest).map Chain.head).map Pdu.slot).filter _) _
        rw [hsame]
        exact .refl _
      | wait => exact .refl _

theorem writeToSocket_drift (ctx : Context) : Drift t n q ctx (writeToSocket ctx).1 :=
  (WriteRule.of_trans (R := Drift t n q) .refl .trans (fun _ => .of_same rfl rfl rfl rfl rfl)
    (fun _ => .of_same rfl rfl rfl rfl rfl) (fun k hq _ => accepted_drift k hq)
    (fun _ _ => .of_same rfl rfl rfl rfl rfl)).writeToSocket_rel trivial

/-- A chain that the application holds is queued. -/
theorem queuePdu_drift {id : Nat} {c : Chain} (hc : ctx.findHeld id = some c) :
    Drift t n q ctx (queuePdu K (ctx.dropHeld id) c) := by
  intro hw
  have hidle := hw.held c (List.mem_of_find?_eq_some hc)
  have hemit : Drift t n q (ctx.dropHeld id)
      ((ctx.dropHeld id).emit (.queued c (ctx.dropHeld id).security)) :=
    .of_same rfl rfl rfl rfl rfl
  have hdrop := (dropHeld_drift ctx id).trans hemit
  unfold queuePdu
  simp only
  split
  · exact hdrop hw
  · obtain ⟨hprep, hslots⟩ := preparePdu_drift (K := K) (t := t) (n := n) (q := q)
      ((ctx.dropHeld id).emit (.queued c (ctx.dropHeld id).security)) c
    generalize preparePdu K ((ctx.dropHeld id).emit (.queued c (ctx.dropHeld id).security)) c =
      x at hprep hslots
    obtain ⟨hw', hs'⟩ := (hdrop.trans hprep) hw
    split
    · have hidle' : ∀ p ∈ x.2.members, p.idle t n := by
        intro p hp
        have hslot : p.slot ∈ c.members.map Pdu.slot := hslots ▸ List.mem_map_of_mem hp
        obtain ⟨p', hp', he⟩ := List.mem_map.mp hslot
        rw [Pdu.idle_iff, ← he]
        exact Pdu.idle_iff.mp (hidle p' hp')
      let next : Context := { x.1 with
        outqueue := x.1.outqueue ++ [x.2]
        log := x.1.log ++ [.enqueued x.2] }
      have henq : Watch t n q next ∧ (watched t n q next).Sublist (watched t n q x.1) :=
        hw'.enqueue hidle' rfl rfl rfl rfl rfl
      unfold addToOutqueue
      simp only
      split
      · obtain ⟨hw₂, hs₂⟩ := writeToSocket_drift next henq.1
        exact ⟨hw₂, hs₂.trans (henq.2.trans hs')⟩
      · exact ⟨henq.1, henq.2.trans hs'⟩
    · exact ⟨hw', hs'⟩

/-! ## Calls of the application -/

/-- A request is allocated: its deadline lies ahead. -/
theorem Watch.alloc (hw : Watch t n q ctx) {p : Pdu}
    (hheld : ctx'.held = ctx.held ++ [Chain.single p]) (hnow : ctx'.now = ctx.now)
    (hid : ctx'.nextId = ctx.nextId + 1) (hout : ctx'.outqueue = ctx.outqueue)
    (hwait : ctx'.waitqueue = ctx.waitqueue) (hp : p.id = ctx.nextId)
    (ht : p.timeout = if ctx.timeout = 0 then 0 else ctx.now + ctx.timeout) :
    Watch t n q ctx' ∧ (watched t n q ctx').Sublist (watched t n q ctx) := by
  have hheads : ∀ r, ctx'.heads r = ctx.heads r := by
    intro r
    cases r with
    | out =>
      show ctx'.outqueue.map Chain.head = ctx.outqueue.map Chain.head
      rw [hout]
    | wait => exact hwait
  have hidle : p.idle t n := by
    refine ⟨?_, ?_⟩
    · have hlate := hw.now
      rw [Bool.eq_false_iff, ne_eq, Pdu.due_iff, ht]
      split <;> omega
    · intro he
      have := hw.known p.id he.symm
      omega
  refine ⟨⟨hnow ▸ hw.now, ?_, ?_, hout ▸ hw.rest, ?_, hout ▸ hw.out⟩, ?_⟩
  · intro i hi
    have := hw.known i hi
    omega
  · rw [hheld]
    intro c hc x hx
    rcases List.mem_append.mp hc with hc | hc
    · exact hw.held c hc x hx
    · rw [List.mem_singleton.mp hc] at hx
      rw [List.mem_singleton.mp hx]
      exact hidle
  · intro r x hx
    rw [hheads r] at hx
    exact hw.sharp r x hx
  · unfold watched
    rw [hheads q]

/-- Two chains that the application holds are joined. -/
theorem joined_drift {a b : Nat} {c next : Chain} (hc : ctx.findHeld a = some c)
    (hn : (ctx.dropHeld a).findHeld b = some next) : Drift t n q ctx (joined ctx a b c next) := by
  intro hw
  have hjoin : ∀ p ∈ (addCompoundPdu c next).members, p.idle t n := by
    intro p hp
    have hstub : p.stub ∈ c.stubs ++ next.stubs := by
      rw [← addCompoundPdu_stubs]
      exact List.mem_map_of_mem hp
    have hsame : ∃ p' ∈ c.members ++ next.members, p'.stub = p.stub := by
      rw [Chain.stubs, Chain.stubs, ← List.map_append] at hstub
      exact List.mem_map.mp hstub
    obtain ⟨p', hp', he⟩ := hsame
    have hslot : p'.slot = p.slot := by
      have h₁ : p'.id = p.id := congrArg Pdu.Stub.id he
      have h₂ : p'.timeout = p.timeout := congrArg Pdu.Stub.timeout he
      unfold Pdu.slot
      rw [h₁, h₂]
    rw [Pdu.idle_iff, ← hslot]
    apply Pdu.idle_iff.mp
    rcases List.mem_append.mp hp' with hp' | hp'
    · exact hw.held c (List.mem_of_find?_eq_some hc) p' hp'
    · exact hw.held next (List.mem_of_mem_filter (List.mem_of_find?_eq_some hn)) p' hp'
  refine ⟨⟨hw.now, hw.known, ?_, hw.rest, hw.sharp, hw.out⟩, .refl _⟩
  intro d hd
  have hd : d ∈ ((ctx.dropHeld a).dropHeld b).held ++ [addCompoundPdu c next] := hd
  rcases List.mem_append.mp hd with hd | hd
  · exact hw.held d (List.mem_of_mem_filter (List.mem_of_mem_filter hd))
  · rw [List.mem_singleton.mp hd]
    exact hjoin

theorem perform_drift (ctx : Context) (a : Action) : Drift t n q ctx (perform K ctx a) := by
  cases a with
  | alloc command body cb creditCharge inIov =>
    simp only [perform, Context.allocatePdu]
    by_cases hm : ctx.allocOk = true
    · simp only [hm, if_true]
      intro hw
      exact hw.alloc rfl rfl rfl rfl rfl rfl rfl
    · simp only [hm]
      exact .of_same rfl rfl rfl rfl rfl
  | compound pdu nextPdu =>
    simp only [perform]
    split
    · rename_i c next hc hn
      exact joined_drift hc hn
    · exact .of_same rfl rfl rfl rfl rfl
  | queue pdu =>
    simp only [perform]
    split
    · rename_i c hc
      exact queuePdu_drift hc
    · exact .of_same rfl rfl rfl rfl rfl
  | free pdu =>
    simp only [perform]
    split
    · exact (dropHeld_drift ctx pdu).trans (.of_same rfl rfl rfl rfl rfl)
    · split
      · exact (freePdu_drift ctx pdu).trans (.of_same rfl rfl rfl rfl rfl)
      · split
        · exact .of_same rfl rfl rfl rfl rfl
        · exact .of_same rfl rfl rfl rfl rfl
  | setSign b => exact .of_same rfl rfl rfl rfl rfl
  | setSeal b => exact .of_same rfl rfl rfl rfl rfl
  | setTimeout s => exact .of_same rfl rfl rfl rfl rfl
  | tick s => exact .of_sub (Nat.le_add_right _ _) le_rfl (fun _ h => h) (.refl _) (.refl _)
  | close => exact .of_same rfl rfl rfl rfl rfl

theorem runActions_drift (as : List Action) (ctx : Context) :
    Drift t n q ctx (runActions K ctx as) := by
  induction as generalizing ctx with
  | nil => exact .refl _
  | cons a as ih =>
    have hnote : Drift t n q ctx (ctx.notePasses a) := .of_same rfl rfl rfl rfl rfl
    unfold runActions
    split
    · exact (hnote.trans (perform_drift _ a)).trans (ih _)
    · exact .refl _

theorem invokeApp_drift (p : Pdu) (status : Nat) (ctx : Context) :
    Drift t n q ctx (invokeApp K p status ctx) := by
  have hemit : Drift t n q ctx (ctx.emit (.completed p.id status)) := .of_same rfl rfl rfl rfl rfl
  refine hemit.trans ?_
  show Drift t n q _ (react K (ctx.emit (.completed p.id status)))
  unfold react
  split
  · exact .refl _
  · rename_i as rest _
    have hpop : Drift t n q (ctx.emit (.completed p.id status))
        ((ctx.emit (.completed p.id status)).setReactions rest) := .of_same rfl rfl rfl rfl rfl
    exact hpop.trans (runActions_drift as _)

/-- **Whatever a callback does, nothing that is due gets behind the loop.** -/
theorem expire_drift (r : Queue) (p : Pdu) (ctx : Context) :
    Drift t n q ctx (expire K r p ctx) := by
  have hcall := (unlink_drift (t := t) (n := n) (q := q) ctx r p.id).trans
    (invokeApp_drift (K := K) p STATUS_IO_TIMEOUT _)
  unfold expire
  split
  · exact .of_same rfl rfl rfl rfl rfl
  · simp only
    split
    · exact (hcall.trans (freePdu_drift _ p.id)).trans (.of_same rfl rfl rfl rfl rfl)
    · exact hcall

/-! ## One turn of the loops -/

/-- The requests that a callback may still queue or send are not due. -/
structure Unhurried (t : Nat) (ctx : Context) : Prop where
  now : t ≤ ctx.now
  held : ∀ c ∈ ctx.held, ∀ p ∈ c.members, p.due t = false
  rest : ∀ c ∈ ctx.outqueue, ∀ p ∈ c.rest, p.due t = false

/-- No request in a queue has its deadline at `t`. -/
def Sharp (t : Nat) (ctx : Context) : Prop :=
  ∀ r, ∀ p ∈ ctx.heads r, p.due t = true → p.timeout < t

/-- What holds between two turns of the loop over the queue `q`. -/
structure Serviceable (t : Nat) (q : Queue) (ctx : Context) : Prop where
  sharp : Sharp t ctx
  calm : q = .wait → ∀ p ∈ ctx.heads .out, p.due t = false
  easy : ctx.env.reactions = [] ∨ Unhurried t ctx

variable {r : Queue}

theorem occurs_of_head {p : Pdu} (hp : p ∈ ctx.heads r) :
    match r with
    | .out => 0 < occ ctx.outqueue p.id
    | .wait => 0 < (ctx.waitqueue.map Pdu.id).count p.id := by
  cases r with
  | out =>
    obtain ⟨c, hc, rfl⟩ := List.mem_map.mp hp
    exact Nat.pos_of_ne_zero (occ_ne_zero_of_mem hc)
  | wait => exact List.count_pos_iff.mpr (List.mem_map_of_mem hp)

/-- What the loop goes on with can be watched. -/
theorem Unhurried.watch (hu : Unhurried t ctx) (hs : Sharp t ctx) (hd : Distinct ctx)
    (hcalm : q = .wait → ∀ p ∈ ctx.heads .out, p.due t = false)
    (hn : ∀ i, n = some i → ∃ p ∈ ctx.heads q, p.id = i) : Watch t n q ctx := by
  have honce := hd.once
  simp only [Context.occurs] at honce
  refine ⟨hu.now, ?_, ?_, hu.rest, hs, ?_⟩
  · intro i hi
    obtain ⟨p, hp, rfl⟩ := hn i hi
    by_contra hge
    have hzero := hd.fresh p.id (by omega)
    have hpos := occurs_of_head hp
    simp only [Context.occurs] at hzero
    cases q <;> simp only at hpos <;> omega
  · intro c hc x hx
    refine ⟨hu.held c hc x hx, ?_⟩
    intro he
    obtain ⟨p, hp, hid⟩ := hn x.id he.symm
    have hpos := occurs_of_head hp
    have hheld := occ_pos_of_mem hc (Chain.mem_ids hx)
    have := honce x.id
    rw [hid] at hpos
    cases q <;> simp only at hpos <;> omega
  · rintro rfl c hc x hx
    refine ⟨?_, ?_⟩
    · rcases List.mem_cons.mp hx with rfl | hx
      · exact hcalm rfl c.head (List.mem_map_of_mem hc)
      · exact hu.rest c hc x hx
    · intro he
      obtain ⟨p, hp, hid⟩ := hn x.id he.symm
      have hpos := occurs_of_head hp
      have hout := occ_pos_of_mem hc (Chain.mem_ids hx)
      have := honce x.id
      rw [hid] at hpos
      simp only at hpos
      omega

/-- What a turn does if the callback does nothing. -/
structure Still (p : Pdu) (ctx ctx' : Context) : Prop where
  fault : ctx'.fault = none
  reactions : ctx'.env.reactions = []
  now : ctx'.now = ctx.now
  timeout : ctx'.timeout = ctx.timeout
  transport : ctx'.transportType = ctx.transportType
  heads : ∀ r, ctx'.heads r = (ctx.heads r).filter fun x => x.id != p.id

theorem map_head_filter (cs : List Chain) (i : Nat) :
    (cs.filter fun c => c.head.id != i).map Chain.head =
      (cs.map Chain.head).filter fun x => x.id != i := by
  rw [List.filter_map]
  rfl

theorem freePdu_heads (ctx : Context) (i : Nat) (r : Queue) :
    (ctx.freePdu i).heads r = (ctx.heads r).filter fun x => x.id != i := by
  cases r with
  | out => exact map_head_filter ctx.outqueue i
  | wait => rfl

/-- What is freed afterwards may already be unlinked. -/
theorem unlink_heads (ctx : Context) (r r' : Queue) (i : Nat) :
    ((ctx.unlink r i).heads r').filter (fun x => x.id != i) =
      (ctx.heads r').filter fun x => x.id != i := by
  cases r <;> cases r' <;> simp [Context.heads, Context.unlink, map_head_filter, List.filter_filter]

theorem expire_still {p : Pdu} (hr : ctx.env.reactions = []) (hcb : p.cb ≠ .none)
    (hf : ctx.fault = none) : Still p ctx (expire K r p ctx) := by
  have hunlink : (ctx.unlink r p.id).env = ctx.env ∧ (ctx.unlink r p.id).fault = ctx.fault ∧
      (ctx.unlink r p.id).now = ctx.now ∧ (ctx.unlink r p.id).timeout = ctx.timeout ∧
      (ctx.unlink r p.id).transportType = ctx.transportType := by
    cases r <;> exact ⟨rfl, rfl, rfl, rfl, rfl⟩
  obtain ⟨henv, hfault, hnow, htimeout, htype⟩ := hunlink
  have hheads := unlink_heads ctx r
  generalize hu : ctx.unlink r p.id = u at henv hfault hnow htimeout htype
  have hcall : invokeApp K p STATUS_IO_TIMEOUT u = u.emit (.completed p.id STATUS_IO_TIMEOUT) := by
    show react K (u.emit (.completed p.id STATUS_IO_TIMEOUT)) = _
    unfold react
    have hr' : (u.emit (.completed p.id STATUS_IO_TIMEOUT)).env.reactions = [] := by
      show u.env.reactions = []
      rw [henv]
      exact hr
    rw [hr']
  have hf' : (u.emit (.completed p.id STATUS_IO_TIMEOUT)).fault = none := hfault.trans hf
  unfold expire
  rw [if_neg hcb, hu]
  simp only
  rw [hcall, if_pos hf']
  refine ⟨hf', ?_, hnow, htimeout, htype, ?_⟩
  · show u.env.reactions = []
    rw [henv]
    exact hr
  · intro r'
    rw [← hheads r' p.id, hu, ← freePdu_heads]
    cases r' <;> rfl

/-- A turn that returns had a callback to run. -/
theorem expire_called {p : Pdu} (hf : (expire K r p ctx).fault = none) :
    p.cb ≠ .none ∧ ctx.fault = none := by
  have hgrows := invokeApp_grows (K := K) p STATUS_IO_TIMEOUT (ctx.unlink r p.id)
  have hfault : (ctx.unlink r p.id).fault = ctx.fault := by
    cases r <;> rfl
  unfold expire at hf
  split at hf
  · cases hf
  · rename_i hcb
    simp only at hf
    split at hf
    · rename_i hok
      exact ⟨hcb, hfault ▸ hgrows.fault hok⟩
    · rename_i hbad
      exact absurd hf hbad

theorem Serviceable.of_sub (hs : Serviceable t q ctx)
    (hsub : ∀ r, ((ctx'.heads r).map Pdu.slot).Sublist ((ctx.heads r).map Pdu.slot))
    (heasy : ctx'.env.reactions = [] ∨ Unhurried t ctx') : Serviceable t q ctx' := by
  have hfrom : ∀ r, ∀ p ∈ ctx'.heads r, ∃ p' ∈ ctx.heads r, p'.slot = p.slot := by
    intro r p hp
    exact List.mem_map.mp ((hsub r).subset (List.mem_map_of_mem hp))
  refine ⟨?_, ?_, heasy⟩
  · intro r p hp hdue
    obtain ⟨p', hp', he⟩ := hfrom r p hp
    have hlt := hs.sharp r p' hp' (by rw [due_of_slot he]; exact hdue)
    have ht : p'.timeout = p.timeout := congrArg Prod.snd he
    omega
  · intro hq p hp
    obtain ⟨p', hp', he⟩ := hfrom .out p hp
    rw [← due_of_slot he]
    exact hs.calm hq p' hp'

/-- **One turn of a loop** adds nothing to what is watched. -/
theorem expire_serviceable (hs : Serviceable t q ctx) (hd : Distinct ctx) (r : Queue) (p : Pdu)
    (hn : ∀ i, n = some i → ∃ x ∈ ctx.heads q, x.id = i)
    (hf : (expire K r p ctx).fault = none) : Serviceable t q (expire K r p ctx) ∧
      (watched t n q (expire K r p ctx)).Sublist (watched t n q ctx) := by
  rcases hs.easy with hr | hu
  · obtain ⟨hcb, hf₀⟩ := expire_called hf
    have hstill := expire_still (K := K) (r := r) hr hcb hf₀
    have hsub : ∀ r', (((expire K r p ctx).heads r').map Pdu.slot).Sublist
        ((ctx.heads r').map Pdu.slot) := by
      intro r'
      rw [hstill.heads r']
      exact List.filter_sublist.map _
    exact ⟨hs.of_sub hsub (.inl hstill.reactions), (hsub q).filter _⟩
  · have hw := hu.watch hs.sharp hd hs.calm hn
    obtain ⟨hw', hsub⟩ := expire_drift (K := K) r p ctx hw
    refine ⟨⟨hw'.sharp, ?_, .inr ⟨hw'.now, ?_, hw'.rest⟩⟩, hsub⟩
    · intro hq x hx
      obtain ⟨c, hc, rfl⟩ := List.mem_map.mp hx
      exact (hw'.out hq c hc c.head (List.mem_cons_self ..)).1
    · exact fun c hc x hx => (hw'.held c hc x hx).1

theorem expire_removes {p : Pdu} (hf : (expire K r p ctx).fault = none) (r' : Queue) :
    ∀ x ∈ (expire K r p ctx).heads r', x.id ≠ p.id := by
  unfold expire at hf ⊢
  split at hf
  · cases hf
  · rename_i hcb
    rw [if_neg hcb]
    simp only at hf ⊢
    split at hf
    · rename_i hok
      rw [if_pos hok]
      intro x hx
      cases r' with
      | out =>
        obtain ⟨c, hc, rfl⟩ := List.mem_map.mp hx
        simpa using (List.mem_filter.mp hc).2
      | wait => simpa using (List.mem_filter.mp hx).2
    · rename_i hbad
      exact absurd hf hbad

/-! ## The loop over a queue -/

theorem Serviceable.emit (hs : Serviceable t q ctx) (e : Event) : Serviceable t q (ctx.emit e) := by
  refine hs.of_sub ?_ ?_
  · intro r
    rw [emit_heads]
  · rcases hs.easy with hr | hu
    · exact .inl hr
    · exact .inr ⟨hu.now, hu.held, hu.rest⟩

theorem watched_emit (ctx : Context) (e : Event) : watched t n q (ctx.emit e) = watched t n q ctx := by
  unfold watched
  rw [emit_heads]

theorem watched_nil : watched t none q ctx = [] ↔ ∀ p ∈ ctx.heads q, p.due t = false := by
  unfold watched
  rw [List.filter_eq_nil_iff]
  simp only [List.mem_map, forall_exists_index, and_imp, forall_apply_eq_imp_iff₂, watches_slot]
  simp

/-- Nothing that is due lies behind the loop. -/
def Swept (t : Nat) (q : Queue) (cur : Option Nat) (ctx : Context) : Prop :=
  match cur with
  | none => ∀ p ∈ ctx.heads q, p.due t = false
  | some i => i ∈ ctx.ids q → ∀ p ∈ (ctx.heads q).takeWhile (fun x => x.id != i), p.due t = false

/-- The request `i` is the first of those that are watched. -/
theorem takeWhile_swept {i d : Nat} {rest : List (Nat × Nat)} {ps : List Pdu}
    (hsub : ((ps.map Pdu.slot).filter (watches t (some i))).Sublist ((i, d) :: rest))
    (hrest : ∀ x ∈ rest, x.1 ≠ i) (hi : i ∈ ps.map Pdu.id) :
    ∀ p ∈ ps.takeWhile (fun x => x.id != i), p.due t = false := by
  induction ps with
  | nil => exact fun p hp => nomatch hp
  | cons x ps ih =>
    by_cases hx : x.id = i
    · simp [hx]
    · have hi' : i ∈ ps.map Pdu.id := by
        rcases List.mem_cons.mp hi with h | h
        · exact absurd h.symm hx
        · exact h
      have hdue : x.due t = false := by
        by_contra hdue
        have hkeep : watches t (some i) x.slot = true := by
          rw [watches_slot]
          simp [Bool.eq_true_of_not_eq_false hdue]
        rw [List.map_cons, List.filter_cons_of_pos hkeep] at hsub
        rcases List.sublist_cons_iff.mp hsub with h | ⟨l, h, -⟩
        · obtain ⟨y, hy, rfl⟩ := List.mem_map.mp hi'
          have hmem : y.slot ∈ rest := by
            apply h.subset
            apply List.mem_cons_of_mem
            refine List.mem_filter.mpr ⟨List.mem_map_of_mem hy, ?_⟩
            rw [watches_slot]
            simp
          exact hrest y.slot hmem rfl
        · have hslot : x.slot = (i, d) := (List.cons.inj h).1
          exact hx (congrArg Prod.fst hslot)
      have hdrop : watches t (some i) x.slot = false := by
        rw [watches_slot]
        simp [hdue, hx]
      rw [List.map_cons, List.filter_cons_of_neg (by simp [hdrop])] at hsub
      rw [List.takeWhile_cons_of_pos (by simpa using hx)]
      intro p hp
      rcases List.mem_cons.mp hp with rfl | hp
      · exact hdue
      · exact ih hsub hi' p hp

/-- The entry that the loop has come to. -/
theorem heads_split {i : Nat} {p : Pdu} {tail : List Pdu}
    (hdw : ((ctx.heads q).dropWhile fun x => x.id != i) = p :: tail) :
    ctx.heads q = (ctx.heads q).takeWhile (fun x => x.id != i) ++ p :: tail ∧ p.id = i := by
  refine ⟨?_, ?_⟩
  · rw [← hdw]
    exact List.takeWhile_append_dropWhile.symm
  · have hcur := heads_dropWhile ctx q i
    rw [hdw, List.map_cons] at hcur
    exact after_eq_cons hcur

theorem Distinct.apart (hd : Distinct ctx) {xs ys : List Pdu} {a : Pdu}
    (hsplit : ctx.heads q = xs ++ a :: ys) :
    (∀ x ∈ xs, x.id ≠ a.id) ∧ ∀ y ∈ ys, y.id ≠ a.id := by
  have hnodup := hd.nodup_ids q
  unfold Context.ids at hnodup
  rw [hsplit, List.map_append, List.map_cons, List.nodup_middle, List.nodup_cons,
    ← List.map_append] at hnodup
  have hne : ∀ x ∈ xs ++ ys, x.id ≠ a.id := by
    intro x hx he
    exact hnodup.1 (he ▸ List.mem_map_of_mem hx)
  refine ⟨fun x hx => hne x ?_, fun y hy => hne y ?_⟩
  · exact List.mem_append_left _ hx
  · exact List.mem_append_right _ hy

section
variable {before tail : List Pdu} {p : Pdu}

/-- The loop goes past an entry that is not due. -/
theorem Swept.pass (hd : Distinct ctx) (hsplit : ctx.heads q = before ++ p :: tail)
    (hb : ∀ x ∈ before, x.due t = false) (hp : p.due t = false) :
    Swept t q (tail.head?.map Pdu.id) ctx := by
  have hfront : ∀ x ∈ before ++ [p], x.due t = false := by
    intro x hx
    rcases List.mem_append.mp hx with hx | hx
    · exact hb x hx
    · rw [List.mem_singleton.mp hx]
      exact hp
  cases tail with
  | nil =>
    intro x hx
    rw [hsplit] at hx
    exact hfront x hx
  | cons a tail =>
    intro _ x hx
    have hsplit' : ctx.heads q = (before ++ [p]) ++ a :: tail := by
      rw [hsplit]
      simp
    have hne := (hd.apart hsplit').1
    rw [hsplit', List.takeWhile_append_of_pos (by simpa using hne),
      List.takeWhile_cons_of_neg (by simp), List.append_nil] at hx
    exact hfront x hx

/-- The loop goes on after an entry that has expired. -/
theorem Swept.expired {e : Event} (hs : Serviceable t q ctx) (hd : Distinct ctx)
    (hsplit : ctx.heads q = before ++ p :: tail) (hb : ∀ x ∈ before, x.due t = false)
    (hf : (expire K q p (ctx.emit e)).fault = none) :
    Swept t q (tail.head?.map Pdu.id) (expire K q p (ctx.emit e)) := by
  have hd' : Distinct (ctx.emit e) := ⟨hd.once, hd.fresh⟩
  have htail : ∀ x ∈ tail, x ∈ ctx.heads q := by
    intro x hx
    rw [hsplit]
    exact List.mem_append_right _ (List.mem_cons_of_mem _ hx)
  have hn : ∀ i, tail.head?.map Pdu.id = some i → ∃ x ∈ (ctx.emit e).heads q, x.id = i := by
    intro i hi
    obtain ⟨x, hx, rfl⟩ := Option.map_eq_some_iff.mp hi
    rw [emit_heads]
    exact ⟨x, htail x (List.mem_of_mem_head? hx), rfl⟩
  obtain ⟨-, hsub⟩ := expire_serviceable (hs.emit e) hd' q p hn hf
  rw [watched_emit] at hsub
  -- what is watched are the entry itself and those behind it
  have hnone : (before.map Pdu.slot).filter (watches t (tail.head?.map Pdu.id)) = [] := by
    apply List.filter_eq_nil_iff.mpr
    intro y hy
    obtain ⟨x, hx, rfl⟩ := List.mem_map.mp hy
    have hne : some x.id ≠ tail.head?.map Pdu.id := by
      cases tail with
      | nil => exact Option.some_ne_none _
      | cons a tail =>
        have hsplit' : ctx.heads q = (before ++ [p]) ++ a :: tail := by
          rw [hsplit]
          simp
        have := (hd.apart hsplit').1 x (List.mem_append_left _ hx)
        simpa using this
    rw [watches_slot]
    simp [hb x hx, hne]
  have hfrom : (watched t (tail.head?.map Pdu.id) q ctx).Sublist
      (p.slot :: (tail.map Pdu.slot).filter (watches t (tail.head?.map Pdu.id))) := by
    unfold watched
    rw [hsplit, List.map_append, List.filter_append, hnone, List.nil_append, List.map_cons,
      List.filter_cons]
    split
    · exact .refl _
    · exact List.sublist_cons_self ..
  have hgone : ∀ l, watched t (tail.head?.map Pdu.id) q (expire K q p (ctx.emit e)) ≠ p.slot :: l := by
    intro l he
    have hmem : p.slot ∈ watched t (tail.head?.map Pdu.id) q (expire K q p (ctx.emit e)) := by
      rw [he]
      exact List.mem_cons_self ..
    obtain ⟨x, hx, hslot⟩ := List.mem_map.mp (List.mem_of_mem_filter hmem)
    exact expire_removes hf q x hx (congrArg Prod.fst hslot)
  have hclean : (watched t (tail.head?.map Pdu.id) q (expire K q p (ctx.emit e))).Sublist
      ((tail.map Pdu.slot).filter (watches t (tail.head?.map Pdu.id))) := by
    rcases List.sublist_cons_iff.mp (hsub.trans hfrom) with h | ⟨l, h, -⟩
    · exact h
    · exact absurd h (hgone l)
  cases tail with
  | nil => exact watched_nil.mp (List.sublist_nil.mp hclean)
  | cons a tail =>
    intro hi
    have hsplit' : ctx.heads q = (before ++ [p]) ++ a :: tail := by
      rw [hsplit]
      simp
    refine takeWhile_swept (hclean.trans List.filter_sublist) ?_ hi
    intro y hy
    obtain ⟨x, hx, rfl⟩ := List.mem_map.mp hy
    exact (hd.apart hsplit').2 x hx

end

/-- What every turn keeps, and what passing an entry keeps, holds once the loop has ended. -/
theorem timeoutLoop_rule {P : Option Nat → Context → Prop}
    (hturn : ∀ i p tail (d : Context), P (some i) d →
      ((d.heads q).dropWhile fun x => x.id != i) = p :: tail → p.timeout ≠ 0 ∧ p.timeout < t →
      (expire K q p (d.emit (.lapsed (d.lapse q p (tail.head?.map Pdu.id))))).fault = none →
      P (tail.head?.map Pdu.id)
        (expire K q p (d.emit (.lapsed (d.lapse q p (tail.head?.map Pdu.id))))))
    (hpass : ∀ i p tail (d : Context), P (some i) d →
      ((d.heads q).dropWhile fun x => x.id != i) = p :: tail → ¬ (p.timeout ≠ 0 ∧ p.timeout < t) →
      P (tail.head?.map Pdu.id) d)
    (fuel : Nat) (cur : Option Nat) (h : P cur ctx)
    (hf : (timeoutLoop K q t fuel cur ctx).fault = none) :
    P none (timeoutLoop K q t fuel cur ctx) := by
  induction fuel generalizing cur ctx with
  | zero =>
    cases cur with
    | none => exact h
    | some i => cases hf
  | succ fuel ih =>
    cases cur with
    | none => exact h
    | some i =>
      unfold timeoutLoop at hf ⊢
      split at hf
      · cases hf
      · rename_i p tail hdw
        simp only at hf ⊢
        split at hf
        · rename_i hold
          rw [if_pos hold]
          split at hf
          · rename_i hok
            rw [if_pos hok]
            exact ih _ (hturn i p tail ctx h hdw hold hok) hf
          · rename_i hbad
            exact absurd hf hbad
        · rename_i hyoung
          rw [if_neg hyoung]
          exact ih _ (hpass i p tail ctx h hdw hyoung) hf

theorem expire_distinct {p : Pdu} {e : Event} (hd : Distinct ctx) (hp : p ∈ ctx.heads q)
    (hf : (expire K q p (ctx.emit e)).fault = none) : Distinct (expire K q p (ctx.emit e)) := by
  have hp' : p ∈ (ctx.emit e).heads q := by
    rw [emit_heads]
    exact hp
  have hd' : Distinct (ctx.emit e) := ⟨hd.once, hd.fresh⟩
  exact (expire_steps (K := K) (G := True) (fun _ => trivial) hp').distinct hd' hf

/-- **Once the loop over a queue has ended, nothing in it is due.** -/
theorem timeoutQueue_drains (hs : Serviceable t q ctx) (hd : Distinct ctx)
    (hf : (timeoutQueue K q t ctx).fault = none) :
    Serviceable t q (timeoutQueue K q t ctx) ∧ Distinct (timeoutQueue K q t ctx) ∧
      ∀ p ∈ (timeoutQueue K q t ctx).heads q, p.due t = false := by
  unfold timeoutQueue at hf ⊢
  refine timeoutLoop_rule (K := K) (q := q) (t := t)
    (P := fun cur d => Serviceable t q d ∧ Distinct d ∧ Swept t q cur d) ?_ ?_ _ _ ?_ hf
  · rintro i p tail d ⟨hs, hd, hsw⟩ hdw - hok
    obtain ⟨hsplit, hid⟩ := heads_split hdw
    have hp : p ∈ d.heads q := by
      rw [hsplit]
      exact List.mem_append_right _ (List.mem_cons_self ..)
    have hb := hsw (hid ▸ List.mem_map_of_mem hp)
    have hd' : ∀ e, Distinct (d.emit e) := fun e => ⟨hd.once, hd.fresh⟩
    have hs' := (expire_serviceable (n := none) (hs.emit _) (hd' _) q p (by simp) hok).1
    exact ⟨hs', expire_distinct hd hp hok, .expired hs hd hsplit hb hok⟩
  · rintro i p tail d ⟨hs, hd, hsw⟩ hdw hyoung
    obtain ⟨hsplit, hid⟩ := heads_split hdw
    have hp : p ∈ d.heads q := by
      rw [hsplit]
      exact List.mem_append_right _ (List.mem_cons_self ..)
    have hb := hsw (hid ▸ List.mem_map_of_mem hp)
    have hdue : p.due t = false := by
      by_contra hdue
      have hdue := Bool.eq_true_of_not_eq_false hdue
      exact hyoung ⟨(Pdu.due_iff.mp hdue).1, hs.sharp q p hp hdue⟩
    exact ⟨hs, hd, .pass hd hsplit hb hdue⟩
  · refine ⟨hs, hd, ?_⟩
    cases hq : ctx.heads q with
    | nil =>
      intro p hp
      rw [hq] at hp
      cases hp
    | cons a ps =>
      intro _ p hp
      rw [hq, List.takeWhile_cons_of_neg (by simp)] at hp
      cases hp

/-- Nothing in the queues is due, and nothing that is can enter them. -/
structure Rested (t : Nat) (ctx : Context) : Prop where
  serviceable : Serviceable t .wait ctx
  distinct : Distinct ctx
  wait : ∀ p ∈ ctx.heads .wait, p.due t = false

theorem Rested.due (hr : Rested t ctx) (r : Queue) : ∀ p ∈ ctx.heads r, p.due t = false := by
  cases r with
  | out => exact hr.serviceable.calm rfl
  | wait => exact hr.wait

/-- A later pass leaves it so. -/
theorem Rested.timeoutQueue (hr : Rested t ctx) {t' : Nat}
    (hf : (timeoutQueue K q t' ctx).fault = none) : Rested t (timeoutQueue K q t' ctx) := by
  unfold Libsmb2.timeoutQueue at hf ⊢
  refine timeoutLoop_rule (K := K) (q := q) (t := t') (P := fun _ d => Rested t d) ?_ ?_ _ _ hr hf
  · intro i p tail d hr hdw _ hok
    obtain ⟨hsplit, -⟩ := heads_split hdw
    have hp : p ∈ d.heads q := by
      rw [hsplit]
      exact List.mem_append_right _ (List.mem_cons_self ..)
    have hd' : ∀ e, Distinct (d.emit e) := fun e => ⟨hr.distinct.once, hr.distinct.fresh⟩
    obtain ⟨hs', hsub⟩ := expire_serviceable (n := none) (hr.serviceable.emit _) (hd' _) q p
      (by simp) hok
    rw [watched_emit, watched_nil.mpr hr.wait] at hsub
    exact ⟨hs', expire_distinct hr.distinct hp hok, watched_nil.mp (List.sublist_nil.mp hsub)⟩
  · exact fun i p tail d hr _ _ => hr

/-- `smb2_timeout_pdus` leaves nothing that is due. -/
theorem timeoutPdus_rested (hs : Serviceable ctx.now .out ctx) (hd : Distinct ctx)
    (hf : (timeoutPdus K ctx).fault = none) : Rested ctx.now (timeoutPdus K ctx) := by
  unfold timeoutPdus at hf ⊢
  simp only at hf ⊢
  split at hf
  · rename_i hok
    rw [if_pos hok]
    obtain ⟨hs', hd', hout⟩ := timeoutQueue_drains hs hd hok
    obtain ⟨hs₂, hd₂, hwait⟩ := timeoutQueue_drains ⟨hs'.sharp, fun _ => hout, hs'.easy⟩ hd' hf
    exact ⟨hs₂, hd₂, hwait⟩
  · rename_i hbad
    exact absurd hf hbad

theorem Rested.timeoutPdus (hr : Rested t ctx) (hf : (timeoutPdus K ctx).fault = none) :
    Rested t (timeoutPdus K ctx) := by
  unfold Libsmb2.timeoutPdus at hf ⊢
  simp only at hf ⊢
  split at hf
  · rename_i hok
    rw [if_pos hok]
    exact (hr.timeoutQueue hok).timeoutQueue hf
  · rename_i hbad
    exact absurd hf hbad

/-! ## What is completed -/

/-- A request has been completed with `SMB2_STATUS_IO_TIMEOUT`. -/
def Expired (ctx ctx' : Context) : Prop :=
  ∃ es i, ctx'.log = ctx.log ++ es ∧ .completed i STATUS_IO_TIMEOUT ∈ es

theorem Expired.extend (h : Expired ctx ctx') (hlog : ctx'.log <+: ctx''.log) :
    Expired ctx ctx'' := by
  obtain ⟨es, i, he, hi⟩ := h
  obtain ⟨fs, hfs⟩ := hlog
  refine ⟨es ++ fs, i, ?_, List.mem_append_left _ hi⟩
  rw [← hfs, he, List.append_assoc]

theorem Expired.shift (hlog : ctx.log <+: ctx'.log) (h : Expired ctx' ctx'') :
    Expired ctx ctx'' := by
  obtain ⟨es, i, he, hi⟩ := h
  obtain ⟨fs, hfs⟩ := hlog
  refine ⟨fs ++ es, i, ?_, List.mem_append_right _ hi⟩
  rw [he, ← hfs, List.append_assoc]

theorem expire_expired {p : Pdu} (hf : (expire K r p ctx).fault = none) :
    Expired ctx (expire K r p ctx) := by
  have hunlink := (unlink_keeps ctx r p.id).log
  have hdone : Expired (ctx.unlink r p.id)
      ((ctx.unlink r p.id).emit (.completed p.id STATUS_IO_TIMEOUT)) :=
    ⟨_, p.id, rfl, List.mem_singleton.mpr rfl⟩
  have hreact := (react_steps (K := K) (G := True)
    ((ctx.unlink r p.id).emit (.completed p.id STATUS_IO_TIMEOUT)) (fun _ => trivial)).keeps.log
  have hcall : Expired ctx (invokeApp K p STATUS_IO_TIMEOUT (ctx.unlink r p.id)) :=
    (hdone.extend hreact).shift hunlink
  obtain ⟨hcb, -⟩ := expire_called hf
  unfold expire at hf ⊢
  rw [if_neg hcb]
  simp only
  split
  · exact hcall.extend (List.prefix_append _ _)
  · exact hcall

/-- A loop that changes anything has completed a request. -/
theorem timeoutQueue_progress (hf : (timeoutQueue K q t ctx).fault = none) :
    timeoutQueue K q t ctx = ctx ∨ Expired ctx (timeoutQueue K q t ctx) := by
  unfold timeoutQueue at hf ⊢
  refine timeoutLoop_rule (K := K) (q := q) (t := t)
    (P := fun _ d => d = ctx ∨ Expired ctx d) ?_ ?_ _ _ (.inl rfl) hf
  · intro i p tail d h _ _ hok
    have hlog : ∀ e, d.log <+: (d.emit e).log := fun e => List.prefix_append _ _
    have hexp := (expire_expired hok).shift (hlog _)
    rcases h with rfl | h
    · exact .inr hexp
    · obtain ⟨es, -, he, -⟩ := hexp
      exact .inr (h.extend ⟨es, he.symm⟩)
  · exact fun i p tail d h _ _ => h

theorem timeoutPdus_progress (hf : (timeoutPdus K ctx).fault = none) :
    timeoutPdus K ctx = ctx ∨ Expired ctx (timeoutPdus K ctx) := by
  unfold timeoutPdus at hf ⊢
  simp only at hf ⊢
  split at hf
  · rename_i hok
    rw [if_pos hok]
    have hlog := timeoutLoop_log (K := K) (q := .wait) (t := ctx.now)
      ((timeoutQueue K .out ctx.now ctx).pending + 1)
      (((timeoutQueue K .out ctx.now ctx).heads .wait).head?.map Pdu.id)
      (timeoutQueue K .out ctx.now ctx)
    rcases timeoutQueue_progress hok with he | he
    · rw [he] at hf ⊢
      exact timeoutQueue_progress hf
    · exact .inr (he.extend hlog)
  · rename_i hbad
    exact absurd hf hbad

/-! ## Callbacks that do nothing -/

/-- The callbacks neither queue, send nor free requests. -/
structure Passive (t : Nat) (ctx : Context) : Prop where
  reactions : ctx.env.reactions = []
  distinct : Distinct ctx
  now : ctx.now = t

/-- Every request whose deadline lies in the past has a callback. -/
def Called (t : Nat) (ctx : Context) : Prop :=
  ∀ r, ∀ p ∈ ctx.heads r, p.timeout ≠ 0 ∧ p.timeout < t → p.cb ≠ .none

theorem Passive.expire (h : Passive t ctx) {p : Pdu} {e : Event} (hp : p ∈ ctx.heads q)
    (hcb : p.cb ≠ .none) (hf : ctx.fault = none) :
    Passive t (expire K q p (ctx.emit e)) ∧ (expire K q p (ctx.emit e)).fault = none ∧
      ∀ r, (expire K q p (ctx.emit e)).heads r = (ctx.heads r).filter fun x => x.id != p.id := by
  have hf' : (ctx.emit e).fault = none := hf
  have hr : (ctx.emit e).env.reactions = [] := h.reactions
  have hstill := expire_still (K := K) (r := q) hr hcb hf'
  refine ⟨⟨hstill.reactions, expire_distinct h.distinct hp hstill.fault, ?_⟩, hstill.fault, ?_⟩
  · exact hstill.now.trans h.now
  · intro r
    rw [hstill.heads r, emit_heads]

/-- The requests in the queues have ids of their own. -/
theorem Distinct.head_eq (hd : Distinct ctx) {p x : Pdu} (hp : p ∈ ctx.heads q)
    (hx : x ∈ ctx.heads r) (he : x.id = p.id) : x = p := by
  have honce := hd.once p.id
  have hq := occurs_of_head hp
  have hr := occurs_of_head hx
  simp only [Context.occurs] at honce
  rw [he] at hr
  have hqr : q = r := by
    cases q <;> cases r <;> simp only at hq hr <;> first | rfl | omega
  subst hqr
  exact List.inj_on_of_nodup_map (hd.nodup_ids q) hx hp he

/-- A loop over a queue returns. -/
theorem timeoutLoop_returns (fuel : Nat) (cur : Option Nat) (h : Passive t ctx)
    (hf : ctx.fault = none) (hc : Called t ctx)
    (hcur : ∀ i, cur = some i → i ∈ ctx.ids q ∧ ctx.ahead q (· != i) < fuel) :
    Passive t (timeoutLoop K q t fuel cur ctx) ∧
      (timeoutLoop K q t fuel cur ctx).fault = none ∧ Called t (timeoutLoop K q t fuel cur ctx) := by
  induction fuel generalizing cur ctx with
  | zero =>
    cases cur with
    | none => exact ⟨h, hf, hc⟩
    | some i => exact absurd (hcur i rfl).2 (Nat.not_lt_zero _)
  | succ fuel ih =>
    cases cur with
    | none => exact ⟨h, hf, hc⟩
    | some i =>
      obtain ⟨hin, hfuel⟩ := hcur i rfl
      unfold timeoutLoop
      split
      · rename_i hnil
        obtain ⟨x, hx, rfl⟩ := List.mem_map.mp hin
        have hall := List.dropWhile_eq_nil_iff.mp hnil x hx
        simp at hall
      · rename_i p tail hdw
        obtain ⟨hsplit, -⟩ := heads_split hdw
        have hp : p ∈ ctx.heads q := by
          rw [hsplit]
          exact List.mem_append_right _ (List.mem_cons_self ..)
        have hnext := ahead_next h.distinct hdw
        -- the next entry is in the queue, and it is not this one
        have hlater : ∀ j, tail.head?.map Pdu.id = some j →
            ∃ x ∈ ctx.heads q, x.id = j ∧ x.id ≠ p.id := by
          intro j hj
          obtain ⟨x, hx, rfl⟩ := Option.map_eq_some_iff.mp hj
          have hx := List.mem_of_mem_head? hx
          refine ⟨x, ?_, rfl, (h.distinct.apart hsplit).2 x hx⟩
          rw [hsplit]
          exact List.mem_append_right _ (List.mem_cons_of_mem _ hx)
        simp only
        split
        · rename_i hold
          generalize ctx.lapse q p (tail.head?.map Pdu.id) = l
          obtain ⟨h', hok, hheads⟩ := h.expire (K := K) (e := .lapsed l) hp (hc q p hp hold) hf
          rw [if_pos hok]
          refine ih _ h' hok ?_ ?_
          · intro r x hx
            rw [hheads r] at hx
            exact hc r x (List.mem_of_mem_filter hx)
          · intro j hj
            obtain ⟨x, hx, rfl, hne⟩ := hlater j hj
            refine ⟨?_, ?_⟩
            · unfold Context.ids
              rw [hheads q]
              exact List.mem_map_of_mem (List.mem_filter.mpr ⟨hx, by simpa using hne⟩)
            · have hcov : Covers True (ctx.emit (.lapsed l)) := fun _ => trivial
              have hle := expire_ahead hcov hok q (· != x.id)
              rw [emit_ahead] at hle
              have := hnext x.id hj
              omega
        · refine ih _ h hf hc ?_
          intro j hj
          obtain ⟨x, hx, rfl, -⟩ := hlater j hj
          have := hnext x.id hj
          exact ⟨List.mem_map_of_mem hx, by omega⟩

theorem timeoutQueue_returns (h : Passive t ctx) (hf : ctx.fault = none) (hc : Called t ctx) :
    Passive t (timeoutQueue K q t ctx) ∧ (timeoutQueue K q t ctx).fault = none ∧
      Called t (timeoutQueue K q t ctx) := by
  refine timeoutLoop_returns _ _ h hf hc ?_
  intro i hi
  obtain ⟨x, hx, rfl⟩ := Option.map_eq_some_iff.mp hi
  have := ahead_le_pending ctx q (· != x.id)
  exact ⟨List.mem_map_of_mem (List.mem_of_mem_head? hx), by omega⟩

theorem timeoutPdus_returns (h : Passive t ctx) (hf : ctx.fault = none) (hc : Called t ctx) :
    Passive t (timeoutPdus K ctx) ∧ (timeoutPdus K ctx).fault = none ∧
      Called t (timeoutPdus K ctx) := by
  obtain ⟨h₁, hf₁, hc₁⟩ := timeoutQueue_returns (K := K) (q := .out) h hf hc
  unfold timeoutPdus
  simp only
  rw [h.now, if_pos hf₁]
  exact timeoutQueue_returns h₁ hf₁ hc₁

/-- A request that the loop does not complete stays in its queue. -/
theorem timeoutQueue_stays {x : Pdu}
    (hkeep : ¬ (x.timeout ≠ 0 ∧ x.timeout < t ∧ x.cb ≠ .none)) (h : Passive t ctx)
    (hx : x ∈ ctx.heads r) (hf : (timeoutQueue K q t ctx).fault = none) :
    Passive t (timeoutQueue K q t ctx) ∧ x ∈ (timeoutQueue K q t ctx).heads r := by
  unfold timeoutQueue at hf ⊢
  refine timeoutLoop_rule (K := K) (q := q) (t := t)
    (P := fun _ d => Passive t d ∧ x ∈ d.heads r) ?_ ?_ _ _ ⟨h, hx⟩ hf
  · rintro i p tail d ⟨h, hx⟩ hdw hold hok
    obtain ⟨hsplit, -⟩ := heads_split hdw
    have hp : p ∈ d.heads q := by
      rw [hsplit]
      exact List.mem_append_right _ (List.mem_cons_self ..)
    obtain ⟨hcb, hf₀⟩ := expire_called hok
    obtain ⟨h', -, hheads⟩ := h.expire (K := K)
      (e := .lapsed (d.lapse q p (tail.head?.map Pdu.id))) hp hcb hf₀
    refine ⟨h', ?_⟩
    have hne : x.id ≠ p.id := by
      intro he
      have hsame := h.distinct.head_eq hp hx he
      exact hkeep (hsame ▸ ⟨hold.1, hold.2, hcb⟩)
    rw [hheads r]
    exact List.mem_filter.mpr ⟨hx, by simpa using hne⟩
  · exact fun i p tail d h _ _ => h

theorem timeoutPdus_stays {x : Pdu}
    (hkeep : ¬ (x.timeout ≠ 0 ∧ x.timeout < t ∧ x.cb ≠ .none)) (h : Passive t ctx)
    (hx : x ∈ ctx.heads r) (hf : (timeoutPdus K ctx).fault = none) :
    Passive t (timeoutPdus K ctx) ∧ x ∈ (timeoutPdus K ctx).heads r := by
  unfold timeoutPdus at hf ⊢
  simp only at hf ⊢
  rw [h.now] at hf ⊢
  split at hf
  · rename_i hok
    rw [if_pos hok]
    obtain ⟨h₁, hx₁⟩ := timeoutQueue_stays hkeep h hx hok
    exact timeoutQueue_stays hkeep h₁ hx₁ hf
  · rename_i hbad
    exact absurd hf hbad

/-! ## `smb2_service_timeout` -/

/-- What one pass keeps, `smb2_service_timeout` keeps: it is one pass, or two. -/
theorem serviceTimeout_rule {P : Context → Prop} (ht : ctx.timeout ≠ 0)
    (hfirst : (timeoutPdus K ctx).fault = none → P (timeoutPdus K ctx))
    (hagain : ∀ d, P d → (timeoutPdus K d).fault = none → P (timeoutPdus K d))
    (hf : (serviceTimeout K ctx).fault = none) : P (serviceTimeout K ctx) := by
  unfold serviceTimeout at hf ⊢
  rw [if_pos ht] at hf ⊢
  simp only at hf ⊢
  split at hf
  · rename_i hext
    rw [if_pos hext]
    exact hagain _ (hfirst hext.1) hf
  · rename_i htcp
    rw [if_neg htcp]
    exact hfirst hf

theorem serviceTimeout_progress (ht : ctx.timeout ≠ 0)
    (hf : (serviceTimeout K ctx).fault = none) :
    serviceTimeout K ctx = ctx ∨ Expired ctx (serviceTimeout K ctx) := by
  refine serviceTimeout_rule (P := fun d => d = ctx ∨ Expired ctx d) ht timeoutPdus_progress ?_ hf
  intro d hd hok
  rcases hd with rfl | hd
  · exact timeoutPdus_progress hok
  · exact .inr (hd.extend (timeoutPdus_log d))

theorem serviceTimeout_returns (h : Passive ctx.now ctx) (hf : ctx.fault = none)
    (hc : Called ctx.now ctx) : (serviceTimeout K ctx).fault = none := by
  have hpass : ∀ d, (Passive ctx.now d ∧ d.fault = none ∧ Called ctx.now d) →
      Passive ctx.now (timeoutPdus K d) ∧ (timeoutPdus K d).fault = none ∧
        Called ctx.now (timeoutPdus K d) :=
    fun d hd => timeoutPdus_returns hd.1 hd.2.1 hd.2.2
  unfold serviceTimeout
  simp only
  generalize hd : (if ctx.timeout ≠ 0 then timeoutPdus K ctx else ctx) = d
  have hready : Passive ctx.now d ∧ d.fault = none ∧ Called ctx.now d := by
    rw [← hd]
    split
    · exact hpass ctx ⟨h, hf, hc⟩
    · exact ⟨h, hf, hc⟩
  split
  · exact (hpass d hready).2.1
  · exact hready.2.1

/-- `smb2_service_timeout` does what the report asks for: it completes a request with
`SMB2_STATUS_IO_TIMEOUT` if a deadline is reported as due, and afterwards none is. -/
structure Serviced (K : Crypto) (ctx : Context) : Prop where
  returns : (serviceTimeout K ctx).fault = none
  completes : ∀ nextTimeout, ReportsDue ctx nextTimeout → Expired ctx (serviceTimeout K ctx)
  rests : ∀ r, ∀ p ∈ (serviceTimeout K ctx).heads r, p.due ctx.now = false

/-- No deadline is this very second: all that are due are serviced. -/
theorem Serviceable.serviced (hs : Serviceable ctx.now .out ctx) (ht : ctx.timeout ≠ 0)
    (hd : Distinct ctx) (hf : (serviceTimeout K ctx).fault = none) : Serviced K ctx := by
  have hrest : Rested ctx.now (serviceTimeout K ctx) :=
    serviceTimeout_rule (P := Rested ctx.now) ht (timeoutPdus_rested hs hd)
      (fun d hr hok => hr.timeoutPdus hok) hf
  refine ⟨hf, ?_, hrest.due⟩
  intro nextTimeout hdue
  rcases serviceTimeout_progress ht hf with he | he
  · obtain ⟨⟨r, p, hp, hpdue⟩, -⟩ := (reportsDue_iff ctx nextTimeout).mp hdue
    have hnot := hrest.due r p (he.symm ▸ hp)
    rw [hpdue] at hnot
    cases hnot
  · exact he

/-- A request that is due and not completed contradicts it. -/
theorem Serviced.gone (h : Serviced K ctx) (hr : ctx.env.reactions = []) (hd : Distinct ctx)
    (ht : ctx.timeout ≠ 0) {p : Pdu} (hp : p ∈ ctx.heads r)
    (hdue : p.due ctx.now = true) : p.timeout < ctx.now ∧ p.cb ≠ .none := by
  by_contra hno
  have hkeep : ¬ (p.timeout ≠ 0 ∧ p.timeout < ctx.now ∧ p.cb ≠ .none) := fun hk => hno hk.2
  have hpass : Passive ctx.now ctx := ⟨hr, hd, rfl⟩
  have hstays := serviceTimeout_rule (P := fun d => Passive ctx.now d ∧ p ∈ d.heads r) ht
    (timeoutPdus_stays hkeep hpass hp) (fun d hd hok => timeoutPdus_stays hkeep hd.1 hd.2 hok)
    h.returns
  have hrest := h.rests r p hstays.2
  rw [hdue] at hrest
  cases hrest

end

/-- **A reported deadline is serviced** if no request has its deadline at this very second and
those whose deadline has passed have a callback: exactly then if the callbacks do nothing, and also
if they queue and send requests that are not yet due. -/
theorem deadlines_are_serviced (K : Crypto) (ctx : Context) (ht : ctx.timeout ≠ 0)
    (hd : Distinct ctx) (hf : ctx.fault = none) :
    (ctx.env.reactions = [] → (Serviced K ctx ↔ Sharp ctx.now ctx ∧ Called ctx.now ctx)) ∧
      (Sharp ctx.now ctx → Unhurried ctx.now ctx → (serviceTimeout K ctx).fault = none →
        Serviced K ctx) := by
  refine ⟨fun hr => ⟨?_, ?_⟩, ?_⟩
  · intro h
    refine ⟨fun r p hp hdue => (h.gone hr hd ht hp hdue).1, ?_⟩
    intro r p hp hold
    have hdue : p.due ctx.now = true := Pdu.due_iff.mpr ⟨hold.1, hold.2.le⟩
    exact (h.gone hr hd ht hp hdue).2
  · rintro ⟨hs, hc⟩
    have hserv : Serviceable ctx.now .out ctx := ⟨hs, fun hq => (by cases hq), .inl hr⟩
    exact hserv.serviced ht hd (serviceTimeout_returns ⟨hr, hd, rfl⟩ hf hc)
  · intro hs hu hok
    have hserv : Serviceable ctx.now .out ctx := ⟨hs, fun hq => (by cases hq), .inr hu⟩
    exact hserv.serviced ht hd hok

/-! ## A request that is never completed -/

/-- A client that gives its requests five seconds. -/
def hastyClient : Session where
  smb2 := { ctx := {
    dialect := VERSION_0210
    credits := 10
    now := 1000
    timeout := 5
    env := { tx := [.accept 100, .accept 100] } } }

/-- A request is sent, and the clock goes on. -/
def waitFor (secs : Nat) : List Op := [allocEcho 1, .act (.queue 1), .act (.tick secs)]

theorem hastyClient_distinct (secs : Nat)
    (hf : (runOps echoCrypto plainDecoders hastyClient (waitFor secs)).ctx.fault = none) :
    Distinct (runOps echoCrypto plainDecoders hastyClient (waitFor secs)).ctx := by
  have hinv : Invariant echoCrypto plainDecoders True (fun _ => True) (fun _ => True) :=
    ⟨fun _ _ => trivial, fun _ _ _ _ => trivial, fun _ _ _ _ _ _ => trivial⟩
  have hblank : Blank hastyClient := ⟨rfl, rfl, rfl, rfl, rfl, rfl, rfl, rfl⟩
  exact (runOps_steady hinv (waitFor secs) hastyClient (fun _ => trivial) (fun _ _ _ => rfl)
    (hblank.steady trivial) hf trivial).1.distinct

/-- One second after its deadline the request is completed. -/
theorem overdue_request_is_serviced :
    Serviced echoCrypto (runOps echoCrypto plainDecoders hastyClient (waitFor 6)).ctx := by
  have hf : (runOps echoCrypto plainDecoders hastyClient (waitFor 6)).ctx.fault = none := by
    decide +kernel
  have hsharp : Sharp (runOps echoCrypto plainDecoders hastyClient (waitFor 6)).ctx.now
      (runOps echoCrypto plainDecoders hastyClient (waitFor 6)).ctx := by
    intro r
    cases r <;> decide +kernel
  have hcalled : Called (runOps echoCrypto plainDecoders hastyClient (waitFor 6)).ctx.now
      (runOps echoCrypto plainDecoders hastyClient (waitFor 6)).ctx := by
    intro r
    cases r <;> decide +kernel
  exact ((deadlines_are_serviced echoCrypto _ (by decide +kernel) (hastyClient_distinct 6 hf) hf).1
    (by decide +kernel)).mpr ⟨hsharp, hcalled⟩

/-- **A deadline of this very second is reported and not serviced**: the event loop is told not to
wait, and nothing is done. -/
theorem deadline_of_this_second_spins :
    nextTimeoutMs (runOps echoCrypto plainDecoders hastyClient (waitFor 5)).ctx 0 = 0 ∧
    getTimeout (runOps echoCrypto plainDecoders hastyClient (waitFor 5)).ctx 0 = some 0 ∧
    ¬ Expired (runOps echoCrypto plainDecoders hastyClient (waitFor 5)).ctx
      (serviceTimeout echoCrypto (runOps echoCrypto plainDecoders hastyClient (waitFor 5)).ctx) ∧
    nextTimeoutMs
      (serviceTimeout echoCrypto (runOps echoCrypto plainDecoders hastyClient (waitFor 5)).ctx) 0 =
        0 := by
  refine ⟨by decide +kernel, by decide +kernel, ?_, by decide +kernel⟩
  rintro ⟨es, i, he, hi⟩
  have hlen : (serviceTimeout echoCrypto
      (runOps echoCrypto plainDecoders hastyClient (waitFor 5)).ctx).log.length =
        (runOps echoCrypto plainDecoders hastyClient (waitFor 5)).ctx.log.length := by
    decide +kernel
  rw [he, List.length_append] at hlen
  have hnil : es = [] := List.length_eq_zero_iff.mp (by omega)
  rw [hnil] at hi
  cases hi

end Libsmb2
