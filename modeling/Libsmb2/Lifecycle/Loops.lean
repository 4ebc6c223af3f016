import Libsmb2.Lifecycle.Steps
import Libsmb2.Util.Cursor

/-!
# The loops over the queues

`smb2_timeout_pdus` and `smb2_destroy_context` walk over queues that the callbacks they run
change.  No request is in two places (`Distinct`), and the entries from the cursor on,
together with the requests that can still come (`Context.ahead`), only get fewer; so the
loops end within their fuel, and are sequences of steps.
-/

set_option autoImplicit false

namespace Libsmb2

open Util Relation

/-! ## No request is in two places -/

/-- How often a request occurs in these chains. -/
def occ (cs : List Chain) (i : Nat) : Nat := (cs.map fun c => c.ids.count i).sum

@[simp] theorem occ_nil (i : Nat) : occ [] i = 0 := rfl

@[simp] theorem occ_append (cs ds : List Chain) (i : Nat) :
    occ (cs ++ ds) i = occ cs i + occ ds i := by
  simp [occ]

@[simp] theorem occ_cons (c : Chain) (cs : List Chain) (i : Nat) :
    occ (c :: cs) i = c.ids.count i + occ cs i := by
  simp [occ]

theorem occ_filter_le (cs : List Chain) (k : Chain → Bool) (i : Nat) :
    occ (cs.filter k) i ≤ occ cs i := sum_map_filter_le _ k cs

variable {c c' next : Chain}

theorem occ_filter_add_le {cs : List Chain} {k : Chain → Bool} (hc : c ∈ cs)
    (hk : k c = false) (i : Nat) : occ (cs.filter k) i + c.ids.count i ≤ occ cs i :=
  sum_map_filter_add_le (fun c => c.ids.count i) hc hk

theorem Chain.ids_eq_of_tags
    (h : c'.members.map Pdu.tag = c.members.map Pdu.tag) : c'.ids = c.ids := by
  have hid : ∀ d : Chain, d.ids = (d.members.map Pdu.tag).map Prod.fst := by
    intro d
    simp only [Chain.ids, List.map_map]
    rfl
  rw [hid, hid, h]

theorem Chain.head_eq_of_tags
    (h : c'.members.map Pdu.tag = c.members.map Pdu.tag) : c'.head.tag = c.head.tag := by
  simp only [Chain.members, List.map_cons] at h
  exact (List.cons.inj h).1

theorem Chain.size_eq_of_tags
    (h : c'.members.map Pdu.tag = c.members.map Pdu.tag) : c'.size = c.size := by
  have := congrArg List.length h
  simpa [Chain.size] using this

theorem Chain.count_ids_ne_zero {i : Nat} : c.ids.count i ≠ 0 ↔ i ∈ c.ids := by
  rw [ne_eq, List.count_eq_zero, not_not]

variable {p : Pdu}

theorem Chain.mem_ids (hp : p ∈ c.members) : p.id ∈ c.ids :=
  List.mem_map_of_mem hp

/-- A member of a chain in the list occurs there. -/
theorem occ_pos_of_mem {cs : List Chain} {i : Nat} (hc : c ∈ cs) (hi : i ∈ c.ids) :
    0 < occ cs i := by
  induction cs with
  | nil => cases hc
  | cons d cs ih =>
    rw [occ_cons]
    rcases List.mem_cons.mp hc with rfl | hc
    · have hcount := List.count_pos_iff.mpr hi
      omega
    · have hrest := ih hc
      omega

theorem occ_ne_zero_of_mem {cs : List Chain} (hc : c ∈ cs) : occ cs c.head.id ≠ 0 :=
  Nat.pos_iff_ne_zero.mp (occ_pos_of_mem hc (Chain.mem_ids (List.mem_cons_self ..)))

/-- What linking two chains does not touch stands in the members in their order. -/
theorem addCompoundPdu_map {β : Type} {f : Pdu → β} (c next : Chain)
    (hlink : ∀ (p : Pdu) n out,
      f { p with header := { p.header with nextCommand := n }, out := out } = f p)
    (hflag : ∀ (p : Pdu) flag out, f { p with header := p.header.setFlag flag, out := out } = f p) :
    (addCompoundPdu c next).members.map f = c.members.map f ++ next.members.map f := by
  unfold addCompoundPdu
  simp only
  split
  · rename_i hr
    rw [List.reverse_eq_nil_iff] at hr
    simp only [Chain.members, hr, List.map_cons, List.map_nil, hlink, hflag]
    rfl
  · rename_i last before hr
    have hrest : c.rest = before.reverse ++ [last] := by
      rw [← List.reverse_reverse c.rest, hr, List.reverse_cons]
    simp only [Chain.members, hrest, List.map_cons, List.map_append, List.map_nil,
      List.append_assoc, List.cons_append, List.nil_append, hlink, hflag]

theorem addCompoundPdu_tags (c next : Chain) :
    (addCompoundPdu c next).members.map Pdu.tag =
      c.members.map Pdu.tag ++ next.members.map Pdu.tag :=
  addCompoundPdu_map c next (fun _ _ _ => rfl) (fun _ _ _ => rfl)

theorem addCompoundPdu_ids (c next : Chain) : (addCompoundPdu c next).ids = c.ids ++ next.ids := by
  have h := congrArg (List.map Prod.fst) (addCompoundPdu_tags c next)
  simpa [Chain.ids, List.map_map, Function.comp_def, Pdu.tag] using h

theorem addCompoundPdu_size (c next : Chain) :
    (addCompoundPdu c next).size = c.size + next.size := by
  have h := congrArg List.length (addCompoundPdu_tags c next)
  simpa [Chain.size] using h

variable {ctx ctx' : Context}

theorem Context.findHeld_mem {id : Nat}
    (h : ctx.findHeld id = some c) : c ∈ ctx.held ∧ c.head.id = id := by
  refine ⟨List.mem_of_find?_eq_some h, ?_⟩
  have := List.find?_some h
  simpa using this

namespace Context

/-- How often a request occurs in the hands of the application and in the queues. -/
def occurs (ctx : Context) (i : Nat) : Nat :=
  occ ctx.held i + occ ctx.outqueue i + (ctx.waitqueue.map Pdu.id).count i

end Context

/-- **No request is in two places**, and none has an id that was not given out. -/
structure Distinct (ctx : Context) : Prop where
  once : ∀ i, ctx.occurs i ≤ 1
  fresh : ∀ i, ctx.nextId ≤ i → ctx.occurs i = 0

section
variable {G : Prop} {K : Crypto}

theorem count_filter_le (l : List Nat) (k : Nat → Bool) (i : Nat) :
    (l.filter k).count i ≤ l.count i :=
  List.Sublist.count_le _ List.filter_sublist

theorem count_filter_other {l : List Pdu} {id i : Nat} (hne : i ≠ id) :
    ((l.filter fun p => p.id != id).map Pdu.id).count i = (l.map Pdu.id).count i := by
  induction l with
  | nil => rfl
  | cons p l ih =>
    by_cases hp : p.id = id
    · rw [List.filter_cons_of_neg (by simp [hp]), ih, List.map_cons,
        List.count_cons_of_ne (by omega)]
    · rw [List.filter_cons_of_pos (by simpa using hp), List.map_cons, List.map_cons,
        List.count_cons, List.count_cons, ih]

theorem count_filter_self (l : List Pdu) (id : Nat) :
    ((l.filter fun p => p.id != id).map Pdu.id).count id = 0 := by
  rw [List.count_eq_zero]
  intro h
  obtain ⟨p, hp, hid⟩ := List.mem_map.mp h
  have := (List.mem_filter.mp hp).2
  simp [hid] at this

theorem Quiet.occurs_le (hq : Quiet G ctx ctx') (i : Nat) :
    occ ctx'.held i ≤ occ ctx.held i ∧ occ ctx'.outqueue i ≤ occ ctx.outqueue i ∧
      (ctx'.waitqueue.map Pdu.id).count i ≤ (ctx.waitqueue.map Pdu.id).count i := by
  obtain ⟨k₁, ho, _⟩ := hq.out
  obtain ⟨k₂, hw⟩ := hq.wait
  obtain ⟨k₃, hh⟩ := hq.held
  rw [ho, hw, hh]
  exact ⟨occ_filter_le _ _ i, occ_filter_le _ _ i, count_filter_le _ _ i⟩

/-- The chain that was submitted went from the application to the out queue. -/
theorem submitted_occurs {id : Nat} (hc : ctx.findHeld id = some c)
    (hf : (submitted K ctx id c).fault = none) :
    (submitted K ctx id c).nextId = ctx.nextId ∧
      ∀ i, (submitted K ctx id c).occurs i ≤ ctx.occurs i := by
  obtain ⟨hmem, hid⟩ := Context.findHeld_mem hc
  rcases preparePdu_quiet (G := True) (K := K) ((ctx.dropHeld id).emit (.queued c ctx.security)) c
    (fun _ => trivial) with hov | hq
  · exact absurd hf hov.fault
  · refine ⟨hq.nextId, ?_⟩
    intro i
    have hids := Chain.ids_eq_of_tags
      (preparePdu_tag (K := K) ((ctx.dropHeld id).emit (.queued c ctx.security)) c)
    have hdrop := occ_filter_add_le (k := fun c => c.head.id != id) hmem (by simp [hid]) i
    obtain ⟨hh, ho, hw⟩ := hq.occurs_le i
    simp only [submitted, Context.occurs, occ_append, occ_cons, occ_nil, hids]
    simp only [Context.dropHeld, Context.emit] at hh ho hw ⊢
    omega

theorem joined_occurs {a b : Nat}
    (hc : ctx.findHeld a = some c) (hn : (ctx.dropHeld a).findHeld b = some next) (i : Nat) :
    (joined ctx a b c next).occurs i ≤ ctx.occurs i := by
  obtain ⟨hmem, hid⟩ := Context.findHeld_mem hc
  obtain ⟨hmem', hid'⟩ := Context.findHeld_mem hn
  have h₁ := occ_filter_add_le (k := fun c => c.head.id != a) hmem (by simp [hid]) i
  have h₂ := occ_filter_add_le (k := fun c => c.head.id != b) hmem' (by simp [hid']) i
  have hids := addCompoundPdu_ids c next
  simp only [joined, Context.occurs, Context.dropHeld, occ_append, occ_cons, occ_nil, hids,
    List.count_append] at h₁ h₂ ⊢
  omega

theorem accepted_occurs (ctx : Context) {rest : List Chain} (n : Nat)
    (hq : ctx.outqueue = c :: rest) (i : Nat) :
    (accepted ctx c rest n).nextId = ctx.nextId ∧
      (accepted ctx c rest n).occurs i ≤ ctx.occurs i := by
  rcases accepted_eq ctx c rest n with ⟨wire, credits, ledger, he | he⟩ <;> rw [he]
  · refine ⟨rfl, ?_⟩
    simp only [Context.occurs, hq, occ_cons]
    split
    · omega
    · rw [List.map_append, List.count_append, ← Chain.ids, Chain.advance_ids]
      omega
  · refine ⟨rfl, ?_⟩
    simp only [Context.occurs, hq, occ_cons, Chain.advance_ids]
    omega

theorem unlink_occurs (ctx : Context) (q : Queue) (id i : Nat) :
    (ctx.unlink q id).occurs i ≤ ctx.occurs i := by
  cases q with
  | out =>
    have := occ_filter_le ctx.outqueue (fun c => c.head.id != id) i
    simp only [Context.unlink, Context.occurs]
    omega
  | wait =>
    have := count_filter_le (ctx.waitqueue.map Pdu.id) (fun j => j != id) i
    simp only [Context.unlink, Context.occurs]
    rw [List.filter_map] at this
    simp only [Function.comp_def] at this
    omega

theorem freePdu_occurs (ctx : Context) (id i : Nat) :
    (ctx.freePdu id).occurs i ≤ ctx.occurs i := by
  have ho := occ_filter_le ctx.outqueue (fun c => c.head.id != id) i
  have hw := count_filter_le (ctx.waitqueue.map Pdu.id) (fun j => j != id) i
  rw [List.filter_map] at hw
  simp only [Function.comp_def] at hw
  simp only [Context.freePdu, Context.occurs]
  omega

theorem unlink_nextId (ctx : Context) (q : Queue) (id : Nat) :
    (ctx.unlink q id).nextId = ctx.nextId := by
  cases q <;> rfl

theorem Keeps.fault_before (hk : Keeps ctx ctx') (hf : ctx'.fault = none) :
    ctx.fault = none := by
  rcases hk.fault with he | he
  · rw [← he, hf]
  · exact absurd hf he.1

/-- A step leaves no request more often than it was, and an allocation adds the next one. -/
theorem Step.occurs_le (hs : Step K G ctx ctx') (hf : ctx'.fault = none) :
    ctx.nextId ≤ ctx'.nextId ∧ ∀ i, ctx'.occurs i ≤
      ctx.occurs i + (if ctx.nextId ≤ i ∧ i < ctx'.nextId then 1 else 0) := by
  -- all steps but an allocation
  have of_le : ∀ {ctx' : Context}, ctx'.nextId = ctx.nextId →
      (∀ i, ctx'.occurs i ≤ ctx.occurs i) → ctx.nextId ≤ ctx'.nextId ∧ ∀ i, ctx'.occurs i ≤
        ctx.occurs i + (if ctx.nextId ≤ i ∧ i < ctx'.nextId then 1 else 0) := by
    intro ctx' hid hle
    refine ⟨hid.ge, ?_⟩
    intro i
    have := hle i
    omega
  cases hs with
  | quiet hq =>
    refine of_le hq.nextId ?_
    intro i
    have := hq.occurs_le i
    simp only [Context.occurs]
    omega
  | crash hc => exact absurd hf hc.fault
  | alloc p hid hn hw =>
    refine ⟨Nat.le_succ _, ?_⟩
    intro i
    simp only [Context.occurs, occ_append, occ_cons, occ_nil, Chain.single, Chain.ids,
      Chain.members, List.map_cons, List.map_nil, List.count_singleton, hid]
    by_cases hi : i = ctx.nextId
    · subst hi
      simp
      omega
    · have : (ctx.nextId == i) = false := by simpa using fun h => hi h.symm
      simp only [this, Bool.false_eq_true, if_false]
      omega
  | compound a b c next hc hn => exact of_le rfl (joined_occurs hc hn)
  | submit id c hc hf₀ hf' =>
    obtain ⟨hid, hle⟩ := submitted_occurs hc hf'
    exact of_le hid hle
  | refuse id c hG hc =>
    refine of_le rfl ?_
    intro i
    have := occ_filter_le ctx.held (fun c => c.head.id != id) i
    simp only [Context.occurs, Context.dropHeld, Context.emit]
    omega
  | offer c rest hq => exact of_le rfl (fun _ => le_refl _)
  | accept c rest n hq hlt =>
    exact of_le (accepted_occurs ctx n hq 0).1 (fun i => (accepted_occurs ctx n hq i).2)
  | finish q p status hp => exact of_le (unlink_nextId ctx q p.id) (unlink_occurs ctx q p.id)
  | forgo q p hp hcb =>
    refine of_le (unlink_nextId ctx q p.id) ?_
    intro i
    exact (freePdu_occurs _ _ i).trans (unlink_occurs ctx q p.id i)
  | purge id status hd' => exact of_le rfl (freePdu_occurs ctx id)

/-- **Steps keep requests apart.** -/
theorem Step.distinct (hs : Step K G ctx ctx') (hd : Distinct ctx)
    (hf : ctx'.fault = none) : Distinct ctx' := by
  obtain ⟨hid, hle⟩ := hs.occurs_le hf
  constructor
  · intro i
    have h₁ := hle i
    have h₂ := hd.once i
    have h₃ := hd.fresh i
    split at h₁ <;> omega
  · intro i hi
    have h₁ := hle i
    have h₂ := hd.fresh i (hid.trans hi)
    split at h₁ <;> omega

/-- A request that no queue holds comes to none. -/
theorem Steps.absent (hs : Steps K G ctx ctx') (hf : ctx'.fault = none) {i : Nat}
    (hi : i < ctx.nextId) (ha : ctx.occurs i = 0) : i < ctx'.nextId ∧ ctx'.occurs i = 0 := by
  induction hs with
  | refl => exact ⟨hi, ha⟩
  | tail _ hstep ih =>
    obtain ⟨hid, hle⟩ := hstep.occurs_le hf
    have hf' := (hstep.keeps.fault_before hf)
    obtain ⟨hi', ha'⟩ := ih hf'
    have h₁ := hle i
    refine ⟨by omega, ?_⟩
    split at h₁ <;> omega

theorem Steps.distinct (hs : Steps K G ctx ctx') (hd : Distinct ctx)
    (hf : ctx'.fault = none) : Distinct ctx' := by
  induction hs with
  | refl => exact hd
  | tail _ hstep ih =>
    refine hstep.distinct (ih ?_) hf
    rcases hstep.keeps.fault with he | he
    · rw [← he, hf]
    · exact absurd hf he.1

end

/-! ## What lies ahead of a cursor -/

namespace Context

def ids (ctx : Context) (q : Queue) : List Nat := (ctx.heads q).map Pdu.id

/-- The requests that can still move into a queue. -/
def feed (ctx : Context) : Queue → Nat
  | .out => (ctx.held.map Chain.size).sum
  | .wait => (ctx.held.map Chain.size).sum + (ctx.outqueue.map Chain.size).sum

/-- The entries of a queue from a cursor on, and those that can still come.  The cursor is
given by the entries before it. -/
def reach (ctx : Context) (q : Queue) (b : Nat → Bool) : Nat :=
  ((ctx.ids q).dropWhile b).length + ctx.feed q

/-- The requests that the reactions can still allocate. -/
def allocations (ctx : Context) : Nat :=
  (ctx.env.reactions.map fun as => (as.map Action.allocates).sum).sum

end Context

section
variable {G : Prop} {K : Crypto}

theorem Chain.size_pos (c : Chain) : 0 < c.size := by
  simp [Chain.size, Chain.members]

/-- Filtering the queues brings a cursor nearer to the end. -/
theorem reach_filter_le {c d : Context} (k₁ k₃ : Chain → Bool) (k₂ : Nat → Bool)
    (ho : d.outqueue = c.outqueue.filter k₁)
    (hw : d.waitqueue.map Pdu.id = (c.waitqueue.map Pdu.id).filter k₂)
    (hh : d.held = c.held.filter k₃) (q : Queue) (b : Nat → Bool) :
    d.reach q b ≤ c.reach q b := by
  have hheld := sum_map_filter_le Chain.size k₃ c.held
  have hout := sum_map_filter_le Chain.size k₁ c.outqueue
  cases q with
  | out =>
    have hcur : ((d.ids .out).dropWhile b).length ≤ ((c.ids .out).dropWhile b).length := by
      have hmap : ∀ l : List Chain, ((l.map Chain.head).map Pdu.id).dropWhile b =
          ((l.dropWhile fun x => b x.head.id).map Chain.head).map Pdu.id := by
        intro l
        simp only [List.map_map, List.dropWhile_map]
        rfl
      simp only [Context.ids, Context.heads, ho, hmap, List.length_map]
      exact length_dropWhile_filter_le _ _ _
    simp only [Context.reach, Context.feed, hh]
    omega
  | wait =>
    have hcur : ((d.ids .wait).dropWhile b).length ≤ ((c.ids .wait).dropWhile b).length := by
      simp only [Context.ids, Context.heads, hw]
      exact length_dropWhile_filter_le _ _ _
    simp only [Context.reach, Context.feed, hh, ho]
    omega

theorem freePdu_reach (ctx : Context) (id : Nat) (q : Queue) (b : Nat → Bool) :
    (ctx.freePdu id).reach q b ≤ ctx.reach q b :=
  reach_filter_le (fun c => c.head.id != id) (fun _ => true) (fun j => j != id) rfl
    (by simp [Context.freePdu, List.filter_map, Function.comp_def])
    (by simp [Context.freePdu]) q b

theorem unlink_reach (ctx : Context) (q' : Queue) (id : Nat) (q : Queue) (b : Nat → Bool) :
    (ctx.unlink q' id).reach q b ≤ ctx.reach q b := by
  cases q' with
  | out =>
    exact reach_filter_le (fun c => c.head.id != id) (fun _ => true) (fun _ => true) rfl
      (by simp [Context.unlink]) (by simp [Context.unlink]) q b
  | wait =>
    exact reach_filter_le (fun _ => true) (fun _ => true) (fun j => j != id) (by simp [Context.unlink])
      (by simp [Context.unlink, List.filter_map, Function.comp_def]) (by simp [Context.unlink]) q b

theorem accepted_reach {rest : List Chain} (n : Nat)
    (hq : ctx.outqueue = c :: rest) (q : Queue) (b : Nat → Bool) :
    (accepted ctx c rest n).reach q b ≤ ctx.reach q b := by
  have hcons := length_dropWhile_le_cons b c.head.id
    ((rest.map Chain.head).map Pdu.id)
  rcases accepted_eq ctx c rest n with ⟨wire, credits, ledger, he | he⟩ <;> rw [he]
  · cases q with
    | out =>
      simp only [Context.reach, Context.ids, Context.heads, Context.feed, hq, List.map_cons]
      omega
    | wait =>
      have happ := length_dropWhile_append_le b (ctx.waitqueue.map Pdu.id)
        (c.head.id :: c.rest.map Pdu.id)
      simp only [Context.reach, Context.ids, Context.heads, Context.feed, hq, List.map_cons,
        List.sum_cons, Chain.size, Chain.members, List.length_cons] at happ ⊢
      split
      · omega
      · simp only [List.map_append, List.map_cons, List.length_map, Chain.advance] at happ ⊢
        omega
  · cases q with
    | out =>
      simp only [Context.reach, Context.ids, Context.heads, Context.feed, hq, List.map_cons]
      exact le_refl _
    | wait =>
      simp only [Context.reach, Context.ids, Context.heads, Context.feed, hq, List.map_cons,
        List.sum_cons, Chain.size, Chain.members, List.length_cons]
      exact le_refl _

theorem submitted_reach {id : Nat} (hc : ctx.findHeld id = some c)
    (hf : (submitted K ctx id c).fault = none) (q : Queue) (b : Nat → Bool) :
    (submitted K ctx id c).reach q b ≤ ctx.reach q b := by
  obtain ⟨hmem, hid⟩ := Context.findHeld_mem hc
  rcases preparePdu_quiet (G := True) (K := K) ((ctx.dropHeld id).emit (.queued c ctx.security)) c
    (fun _ => trivial) with hov | hq
  · exact absurd hf hov.fault
  · have htags := preparePdu_tag (K := K) ((ctx.dropHeld id).emit (.queued c ctx.security)) c
    have hsize := Chain.size_eq_of_tags htags
    have hpos := c.size_pos
    have hdrop := sum_map_filter_add_le Chain.size (k := fun c => c.head.id != id) hmem
      (by simp [hid])
    obtain ⟨k₁, ho, _⟩ := hq.out
    obtain ⟨k₂, hw⟩ := hq.wait
    obtain ⟨k₃, hh⟩ := hq.held
    have hle := reach_filter_le k₁ k₃ k₂ ho hw hh q b
    cases q with
    | out =>
      have happ := length_dropWhile_append_le b
        (((preparePdu K ((ctx.dropHeld id).emit (.queued c ctx.security)) c).1.outqueue.map
          Chain.head).map Pdu.id) [((preparePdu K ((ctx.dropHeld id).emit
            (.queued c ctx.security)) c).2.head.id)]
      simp only [submitted, Context.reach, Context.ids, Context.heads, Context.feed,
        Context.dropHeld, Context.emit, List.map_append, List.map_cons, List.map_nil,
        List.length_singleton] at hle happ hdrop hsize ⊢
      omega
    | wait =>
      simp only [submitted, Context.reach, Context.ids, Context.heads, Context.feed,
        Context.dropHeld, Context.emit, List.map_append, List.map_cons, List.map_nil,
        List.sum_append, List.sum_cons, List.sum_nil] at hle hdrop hsize ⊢
      omega

theorem joined_reach {a b : Nat}
    (hc : ctx.findHeld a = some c) (hn : (ctx.dropHeld a).findHeld b = some next) (q : Queue)
    (f : Nat → Bool) : (joined ctx a b c next).reach q f ≤ ctx.reach q f := by
  obtain ⟨hmem, hid⟩ := Context.findHeld_mem hc
  obtain ⟨hmem', hid'⟩ := Context.findHeld_mem hn
  have h₁ := sum_map_filter_add_le Chain.size (k := fun c => c.head.id != a) hmem (by simp [hid])
  have h₂ := sum_map_filter_add_le Chain.size (k := fun c => c.head.id != b) hmem'
    (by simp [hid'])
  have hsize := addCompoundPdu_size c next
  cases q <;>
  · simp only [joined, Context.reach, Context.ids, Context.heads, Context.feed, Context.dropHeld,
      List.map_append, List.map_cons, List.map_nil, List.sum_append, List.sum_cons,
      List.sum_nil] at h₁ h₂ ⊢
    omega

/-- **Only an allocation brings a request ahead of a cursor.** -/
theorem Step.reach (hs : Step K G ctx ctx') (hf : ctx'.fault = none)
    (q : Queue) (b : Nat → Bool) : ctx'.reach q b + ctx.nextId ≤ ctx.reach q b + ctx'.nextId := by
  cases hs with
  | quiet hq =>
    obtain ⟨k₁, ho, _⟩ := hq.out
    obtain ⟨k₂, hw⟩ := hq.wait
    obtain ⟨k₃, hh⟩ := hq.held
    have := reach_filter_le k₁ k₃ k₂ ho hw hh q b
    have := hq.nextId
    omega
  | crash hc => exact absurd hf hc.fault
  | alloc p hid hn hw =>
    have hsize : (Chain.single p).size = 1 := rfl
    cases q <;>
    · simp only [Context.reach, Context.ids, Context.heads, Context.feed, List.map_append,
        List.map_cons, List.map_nil, List.sum_append, List.sum_cons, List.sum_nil]
      omega
  | compound i j c next hc hn =>
    have := joined_reach hc hn q b
    exact Nat.add_le_add_right this _
  | submit id c hc hf₀ hf' =>
    have h₁ := submitted_reach hc hf' q b
    have h₂ := (submitted_occurs hc hf').1
    omega
  | refuse id c hG hc =>
    have := reach_filter_le (c := ctx) (fun _ => true) (fun c => c.head.id != id) (fun _ => true)
      (show ((ctx.dropHeld id).emit (.queued c ctx.security)).outqueue = _ by
        simp [Context.dropHeld, Context.emit])
      (by simp [Context.dropHeld, Context.emit]) rfl q b
    exact Nat.add_le_add_right this _
  | offer c rest hq => exact le_refl _
  | accept c rest n hq hlt =>
    have h₁ := accepted_reach n hq q b
    have h₂ := (accepted_occurs ctx n hq 0).1
    omega
  | finish q' p status hp =>
    have h₁ := unlink_reach ctx q' p.id q b
    have h₂ := unlink_nextId ctx q' p.id
    have h₃ : ((ctx.unlink q' p.id).emit (.completed p.id status)).reach q b =
        (ctx.unlink q' p.id).reach q b := by
      cases q <;> rfl
    have h₄ : ((ctx.unlink q' p.id).emit (.completed p.id status)).nextId =
        (ctx.unlink q' p.id).nextId := rfl
    omega
  | forgo q' p hp hcb =>
    have h₁ := unlink_reach ctx q' p.id q b
    have h₂ := unlink_nextId ctx q' p.id
    have h₃ := freePdu_reach (ctx.unlink q' p.id) p.id q b
    have h₄ : ((ctx.unlink q' p.id).freePdu p.id).nextId = (ctx.unlink q' p.id).nextId := rfl
    omega
  | purge id status hd =>
    have h₁ := freePdu_reach ctx id q b
    exact Nat.add_le_add_right h₁ _

theorem Steps.reach (hs : Steps K G ctx ctx') (hf : ctx'.fault = none)
    (q : Queue) (b : Nat → Bool) : ctx'.reach q b + ctx.nextId ≤ ctx.reach q b + ctx'.nextId := by
  induction hs with
  | refl => exact le_refl _
  | tail _ hstep ih =>
    have h₁ := ih (hstep.keeps.fault_before hf)
    have h₂ := hstep.reach hf q b
    omega

/-! ## Callbacks allocate what their script says -/

theorem writeToSocket_nextId (ctx : Context) : (writeToSocket ctx).1.nextId = ctx.nextId :=
  (WriteRule.of_trans (R := fun a b => b.nextId = a.nextId) (fun _ => rfl)
    (fun h₁ h₂ => h₂.trans h₁) (fun _ => rfl) (fun _ => rfl)
    (fun n hq _ => (accepted_occurs _ n hq 0).1) (fun _ _ => rfl)).writeToSocket_rel trivial

theorem queuePdu_nextId (ctx : Context) (c : Chain) : (queuePdu K ctx c).nextId = ctx.nextId := by
  unfold queuePdu
  simp only
  split
  · rfl
  · have hprep : (preparePdu K (ctx.emit (.queued c ctx.security)) c).1.nextId = ctx.nextId := by
      rcases preparePdu_quiet (G := True) (K := K) (ctx.emit (.queued c ctx.security)) c
        (fun _ => trivial) with hov | hq
      · exact hov.nextId
      · exact hq.nextId
    split
    · unfold addToOutqueue
      simp only
      split
      · rw [writeToSocket_nextId]
        exact hprep
      · exact hprep
    · exact hprep

theorem perform_nextId (ctx : Context) (a : Action) :
    (perform K ctx a).nextId ≤ ctx.nextId + a.allocates := by
  cases a with
  | alloc command body cb creditCharge inIov =>
    simp only [perform, Context.allocatePdu, Action.allocates]
    by_cases hm : ctx.allocOk = true
    · simp [hm, Context.post]
    · simp [hm, Context.popMem]
  | compound pdu nextPdu =>
    simp only [perform]
    split
    · exact Nat.le_add_right _ _
    · exact Nat.le_add_right _ _
  | queue pdu =>
    simp only [perform]
    split
    · rw [queuePdu_nextId]
      exact Nat.le_add_right _ _
    · exact Nat.le_add_right _ _
  | free pdu =>
    simp only [perform]
    split
    · exact Nat.le_add_right _ _
    · split
      · exact Nat.le_add_right _ _
      · split <;> exact Nat.le_add_right _ _
  | setSign b => exact Nat.le_add_right _ _
  | setSeal b => exact Nat.le_add_right _ _
  | setTimeout t => exact Nat.le_add_right _ _
  | tick t => exact Nat.le_add_right _ _
  | close => exact Nat.le_add_right _ _

theorem act_nextId (ctx : Context) (a : Action) :
    (act K ctx a).nextId ≤ ctx.nextId + a.allocates := perform_nextId (ctx.notePasses a) a

theorem runActions_nextId (as : List Action) (ctx : Context) :
    (runActions K ctx as).nextId ≤ ctx.nextId + (as.map Action.allocates).sum := by
  induction as generalizing ctx with
  | nil => exact Nat.le_add_right _ _
  | cons a as ih =>
    unfold runActions
    split
    · have h₁ := ih (act K ctx a)
      have h₂ := act_nextId (K := K) ctx a
      simp only [List.map_cons, List.sum_cons]
      omega
    · exact Nat.le_add_right _ _

theorem allocations_le_of_suffix
    (h : ctx'.env.reactions <:+ ctx.env.reactions) : ctx'.allocations ≤ ctx.allocations := by
  obtain ⟨pre, hpre⟩ := h
  simp only [Context.allocations, ← hpre, List.map_append, List.sum_append]
  omega

theorem react_allocations (ctx : Context) :
    (react K ctx).nextId + (react K ctx).allocations ≤ ctx.nextId + ctx.allocations := by
  unfold react
  split
  · exact le_refl _
  · rename_i as rest hr
    have h₁ := runActions_nextId (K := K) as (ctx.setReactions rest)
    have hrun : Steps K True _ _ :=
      runActions_steps (K := K) as (ctx.setReactions rest) (fun _ => trivial)
    have h₂ := allocations_le_of_suffix hrun.keeps.env.reactions
    have h₃ : ctx.allocations = (as.map Action.allocates).sum +
        (ctx.setReactions rest).allocations := by
      simp only [Context.allocations, Context.setReactions, hr, List.map_cons, List.sum_cons]
    have h₄ : (ctx.setReactions rest).nextId = ctx.nextId := rfl
    omega

/-- What lies ahead of a cursor, with what the reactions can add to it. -/
def Context.ahead (ctx : Context) (q : Queue) (b : Nat → Bool) : Nat := ctx.reach q b + ctx.allocations

theorem react_ahead (ctx : Context) (hG : Covers G ctx) (hf : (react K ctx).fault = none)
    (q : Queue) (b : Nat → Bool) : (react K ctx).ahead q b ≤ ctx.ahead q b := by
  have h₁ := (react_steps (K := K) ctx hG).reach hf q b
  have h₂ := react_allocations (K := K) ctx
  simp only [Context.ahead]
  omega

/-! ## The loops are sequences of steps -/

theorem Covers.unlink (hG : Covers G ctx) (q : Queue) (id : Nat) :
    Covers G (ctx.unlink q id) := hG.keep (unlink_keeps ctx q id)

variable {q : Queue}

/-- A callback that runs for a request taken off its queue, and the free that follows. -/
theorem finish_steps (hG : Covers G ctx) (status : Nat)
    (hp : p ∈ ctx.heads q) :
    Steps K G ctx (invokeApp K p status (ctx.unlink q p.id)) := by
  refine .head (.finish ctx q p status hp) ?_
  exact react_steps _ (hG.unlink q p.id)

theorem finish_purge_steps (hG : Covers G ctx) (status : Nat)
    (hp : p ∈ ctx.heads q) :
    Steps K G ctx ((invokeApp K p status (ctx.unlink q p.id)).freePdu p.id) := by
  have hrun := finish_steps (K := K) hG status hp
  refine hrun.tail (.purge _ p.id status ?_)
  have hreact := react_steps (K := K) ((ctx.unlink q p.id).emit (.completed p.id status))
    (hG.unlink q p.id)
  refine hreact.keeps.log.subset ?_
  exact List.mem_append_right _ (List.mem_singleton.mpr rfl)

theorem expire_steps (hG : Covers G ctx)
    (hp : p ∈ ctx.heads q) : Steps K G ctx (expire K q p ctx) := by
  unfold expire
  split
  · exact .single (.crash (.raise ctx (by decide)))
  · simp only
    split
    · exact (finish_purge_steps hG STATUS_IO_TIMEOUT hp).tail (.quiet (.noteRelease _ _ _))
    · exact finish_steps hG STATUS_IO_TIMEOUT hp

theorem shutdown_steps (hG : Covers G ctx) (hf : ctx.fault = none)
    (hp : p ∈ ctx.heads q) : Steps K G ctx (shutdown K q p ctx) := by
  unfold shutdown
  simp only
  by_cases hcb : p.cb = .none
  · have hf' : (ctx.unlink q p.id).fault = none := by
      cases q <;> exact hf
    simp only [hcb, if_true, hf']
    exact .head (.forgo ctx q p hp hcb) (.single (.quiet (.noteRelease _ _ _)))
  · simp only [hcb, if_false]
    split
    · exact (finish_purge_steps hG STATUS_SHUTDOWN hp).tail (.quiet (.noteRelease _ _ _))
    · exact finish_steps hG STATUS_SHUTDOWN hp

@[simp]
theorem noteRelease_ahead (ctx : Context) (byCaller : Bool) (ps : List Pdu) (q : Queue)
    (b : Nat → Bool) : (ctx.noteRelease byCaller ps).ahead q b = ctx.ahead q b := by
  cases q <;> rfl

theorem finish_ahead (hG : Covers G ctx) (status : Nat)
    (hf : (invokeApp K p status (ctx.unlink q p.id)).fault = none) (q' : Queue) (b : Nat → Bool) :
    ((invokeApp K p status (ctx.unlink q p.id)).freePdu p.id).ahead q' b ≤ ctx.ahead q' b := by
  have h₁ := react_ahead (K := K) ((ctx.unlink q p.id).emit (.completed p.id status))
    (hG.unlink q p.id) hf q' b
  have h₂ := unlink_reach ctx q p.id q' b
  have h₃ : ((ctx.unlink q p.id).emit (.completed p.id status)).reach q' b =
      (ctx.unlink q p.id).reach q' b := by
    cases q' <;> rfl
  have h₄ : ((ctx.unlink q p.id).emit (.completed p.id status)).allocations = ctx.allocations := by
    cases q <;> rfl
  have h₅ := freePdu_reach (invokeApp K p status (ctx.unlink q p.id)) p.id q' b
  have h₆ : ((invokeApp K p status (ctx.unlink q p.id)).freePdu p.id).allocations =
      (invokeApp K p status (ctx.unlink q p.id)).allocations := rfl
  have h₇ : invokeApp K p status (ctx.unlink q p.id) =
      react K ((ctx.unlink q p.id).emit (.completed p.id status)) := rfl
  simp only [Context.ahead, h₇] at h₁ h₅ h₆ ⊢
  omega

/-- The heads of a queue have ids of their own. -/
theorem Distinct.nodup_ids (hd : Distinct ctx) (q : Queue) : (ctx.ids q).Nodup := by
  rw [List.nodup_iff_count_le_one]
  intro i
  have honce := hd.once i
  cases q with
  | out =>
    have hhead : ∀ cs : List Chain, ((cs.map Chain.head).map Pdu.id).count i ≤ occ cs i := by
      intro cs
      induction cs with
      | nil => simp
      | cons c cs ih =>
        simp only [List.map_cons, occ_cons, List.count_cons, Chain.ids, Chain.members]
        omega
    have := hhead ctx.outqueue
    simp only [Context.ids, Context.heads, Context.occurs] at honce ⊢
    omega
  | wait =>
    simp only [Context.ids, Context.heads, Context.occurs] at honce ⊢
    omega

theorem heads_dropWhile (ctx : Context) (q : Queue) (id : Nat) :
    after id (ctx.ids q) = ((ctx.heads q).dropWhile fun p => p.id != id).map Pdu.id := by
  simp only [after, Context.ids, List.dropWhile_map]
  rfl

theorem emit_heads (ctx : Context) (e : Event) (q : Queue) : (ctx.emit e).heads q = ctx.heads q := by
  cases q <;> rfl

theorem emit_ahead (ctx : Context) (e : Event) (q : Queue) (b : Nat → Bool) :
    (ctx.emit e).ahead q b = ctx.ahead q b := by
  cases q <;> rfl

theorem emit_lapsed_quiet (ctx : Context) (l : Lapse) : Quiet G ctx (ctx.emit (.lapsed l)) :=
  .of_same rfl rfl rfl rfl rfl rfl rfl rfl rfl (.refl _) (.push (.inl rfl))

theorem expire_ahead (hG : Covers G ctx)
    (hf : (expire K q p ctx).fault = none) (q' : Queue) (b : Nat → Bool) :
    (expire K q p ctx).ahead q' b ≤ ctx.ahead q' b := by
  unfold expire at hf ⊢
  split at hf
  · cases hf
  · rename_i hcb
    simp only [hcb, if_false] at hf ⊢
    split at hf
    · rename_i hf'
      simp only [hf', if_true, noteRelease_ahead]
      exact finish_ahead hG STATUS_IO_TIMEOUT hf' q' b
    · rename_i hf'
      exact absurd hf hf'

/-- The next entry is one further, so there is less ahead of it. -/
theorem ahead_next {id : Nat} {tail : List Pdu}
    (hd : Distinct ctx) (hdw : ((ctx.heads q).dropWhile fun x => x.id != id) = p :: tail) (j : Nat)
    (hj : tail.head?.map Pdu.id = some j) :
    ctx.ahead q (· != j) + 1 ≤ ctx.ahead q (· != id) := by
  have hcur := heads_dropWhile ctx q id
  rw [hdw, List.map_cons] at hcur
  cases tail with
  | nil => cases hj
  | cons r tail =>
    simp only [List.head?_cons, Option.map_some, Option.some.injEq] at hj
    have hid := after_eq_cons hcur
    rw [hid, List.map_cons, hj] at hcur
    have hafter := after_next (hd.nodup_ids q) hcur
    unfold after at hcur hafter
    simp only [Context.ahead, Context.reach, hcur, hafter, List.length_cons]
    omega

/-- **A timeout loop is a sequence of steps** when its fuel exceeds what lies ahead. -/
theorem timeoutLoop_steps {t : Nat} (fuel : Nat) (cur : Option Nat) (ctx : Context)
    (hG : Covers G ctx) (hd : Distinct ctx) (hf : ctx.fault = none)
    (hfuel : ∀ i, cur = some i → ctx.ahead q (· != i) < fuel) :
    Steps K G ctx (timeoutLoop K q t fuel cur ctx) := by
  induction fuel generalizing cur ctx with
  | zero =>
    cases cur with
    | none => exact .refl
    | some i => exact absurd (hfuel i rfl) (Nat.not_lt_zero _)
  | succ fuel ih =>
    cases cur with
    | none => exact .refl
    | some id =>
      have hfuel := hfuel id rfl
      unfold timeoutLoop
      split
      · exact .single (.crash (.raise ctx (by decide)))
      · rename_i p tail hdw
        have hp : p ∈ ctx.heads q :=
          (List.dropWhile_sublist _).subset (hdw ▸ List.mem_cons_self ..)
        have hnext := ahead_next hd hdw
        simp only
        split
        · generalize ctx.lapse q p (tail.head?.map Pdu.id) = l
          have hp' : p ∈ (ctx.emit (.lapsed l)).heads q := by
            rw [emit_heads]
            exact hp
          have hG' : Covers G (ctx.emit (.lapsed l)) := hG
          have hsteps : Steps K G ctx (expire K q p (ctx.emit (.lapsed l))) :=
            .head (.quiet (emit_lapsed_quiet ctx l)) (expire_steps hG' hp')
          split
          · rename_i hf'
            refine hsteps.trans (ih _ _ (hG.keep hsteps.keeps) (hsteps.distinct hd hf') hf' ?_)
            intro j hj
            have hle := expire_ahead hG' hf' q (· != j)
            have := hnext j hj
            rw [emit_ahead] at hle
            omega
          · exact hsteps
        · refine ih _ _ hG hd hf ?_
          intro j hj
          have := hnext j hj
          omega

theorem ahead_le_pending (ctx : Context) (q : Queue) (b : Nat → Bool) : ctx.ahead q b ≤ ctx.pending := by
  have hsize : ∀ cs : List Chain, cs.length ≤ (cs.map Chain.size).sum := by
    intro cs
    induction cs with
    | nil => simp
    | cons c cs ih =>
      have := c.size_pos
      simp only [List.length_cons, List.map_cons, List.sum_cons]
      omega
  have hout := hsize ctx.outqueue
  have hlen : ((ctx.ids q).dropWhile b).length ≤ (ctx.ids q).length :=
    (List.dropWhile_sublist _).length_le
  cases q with
  | out =>
    simp only [Context.ids, Context.heads, List.length_map] at hlen
    simp only [Context.ahead, Context.reach, Context.feed, Context.allocations, Context.pending]
    simp only [Context.ids, Context.heads] at hlen ⊢
    omega
  | wait =>
    simp only [Context.ids, Context.heads, List.length_map] at hlen
    simp only [Context.ahead, Context.reach, Context.feed, Context.allocations, Context.pending]
    simp only [Context.ids, Context.heads] at hlen ⊢
    omega

theorem timeoutQueue_steps {t : Nat} (hG : Covers G ctx)
    (hd : Distinct ctx) (hf : ctx.fault = none) : Steps K G ctx (timeoutQueue K q t ctx) := by
  refine timeoutLoop_steps _ _ _ hG hd hf ?_
  intro i _
  have := ahead_le_pending ctx q (· != i)
  omega

/-- **`smb2_timeout_pdus` is a sequence of steps.** -/
theorem timeoutPdus_steps (hG : Covers G ctx) (hd : Distinct ctx)
    (hf : ctx.fault = none) : Steps K G ctx (timeoutPdus K ctx) := by
  have hout := timeoutQueue_steps (K := K) (q := .out) (t := ctx.now) hG hd hf
  unfold timeoutPdus
  simp only
  split
  · rename_i hf'
    exact hout.trans (timeoutQueue_steps (hG.keep hout.keeps) (hout.distinct hd hf') hf')
  · exact hout

theorem heads_head_mem {ps : List Pdu}
    (h : ctx.heads q = p :: ps) : p ∈ ctx.heads q := h ▸ List.mem_cons_self ..

/-- Taking the head off its queue leaves less ahead. -/
theorem unlink_head_reach {ps : List Pdu}
    (h : ctx.heads q = p :: ps) :
    (ctx.unlink q p.id).reach q (fun _ => false) + 1 ≤ ctx.reach q (fun _ => false) := by
  have hdrop : ∀ l : List Nat, l.dropWhile (fun _ => false) = l := by
    intro l
    cases l <;> rfl
  cases q with
  | out =>
    cases hq : ctx.outqueue with
    | nil => simp [Context.heads, hq] at h
    | cons c cs =>
      simp only [Context.heads, hq, List.map_cons] at h
      have hp : c.head = p := (List.cons.inj h).1
      have hlen := List.length_filter_le (fun d : Chain => d.head.id != p.id) cs
      have hfil : ((c :: cs).filter fun d : Chain => d.head.id != p.id) =
          cs.filter fun d : Chain => d.head.id != p.id :=
        List.filter_cons_of_neg (by simp [hp])
      simp only [Context.reach, Context.ids, Context.heads, Context.feed, Context.unlink, hdrop,
        List.length_map, hq, hfil, List.length_cons]
      omega
  | wait =>
    simp only [Context.heads] at h
    have hlen := List.length_filter_le (fun d : Pdu => d.id != p.id) ps
    have hfil : ((p :: ps).filter fun d : Pdu => d.id != p.id) =
        ps.filter fun d : Pdu => d.id != p.id := List.filter_cons_of_neg (by simp)
    simp only [Context.reach, Context.ids, Context.heads, Context.feed, Context.unlink, hdrop,
      List.length_map, h, hfil, List.length_cons]
    omega

theorem shutdown_ahead (hG : Covers G ctx) {ps : List Pdu}
    (h : ctx.heads q = p :: ps) (hf : (shutdown K q p ctx).fault = none) :
    (shutdown K q p ctx).ahead q (fun _ => false) + 1 ≤ ctx.ahead q (fun _ => false) := by
  have h₁ := unlink_head_reach h
  unfold shutdown at hf ⊢
  simp only at hf ⊢
  by_cases hcb : p.cb = .none
  · simp only [hcb, if_true] at hf ⊢
    have hf' : (ctx.unlink q p.id).fault = none := by
      split at hf
      · exact hf
      · exact hf
    have h₂ := freePdu_reach (ctx.unlink q p.id) p.id q (fun _ => false)
    have h₃ : ((ctx.unlink q p.id).freePdu p.id).allocations = ctx.allocations := by
      cases q <;> rfl
    simp only [hf', if_true, noteRelease_ahead]
    simp only [Context.ahead]
    omega
  · simp only [hcb, if_false] at hf ⊢
    split at hf
    · rename_i hf'
      simp only [hf', if_true]
      have h₂ := react_ahead (K := K) ((ctx.unlink q p.id).emit (.completed p.id STATUS_SHUTDOWN))
        (hG.unlink q p.id) hf' q (fun _ => false)
      have h₃ := freePdu_reach (invokeApp K p STATUS_SHUTDOWN (ctx.unlink q p.id)) p.id q
        (fun _ => false)
      have h₄ : ((invokeApp K p STATUS_SHUTDOWN (ctx.unlink q p.id)).freePdu p.id).allocations =
          (invokeApp K p STATUS_SHUTDOWN (ctx.unlink q p.id)).allocations := rfl
      have h₅ : ((ctx.unlink q p.id).emit (.completed p.id STATUS_SHUTDOWN)).ahead q
          (fun _ => false) = (ctx.unlink q p.id).reach q (fun _ => false) + ctx.allocations := by
        cases q <;> rfl
      have h₆ : invokeApp K p STATUS_SHUTDOWN (ctx.unlink q p.id) =
          react K ((ctx.unlink q p.id).emit (.completed p.id STATUS_SHUTDOWN)) := rfl
      rw [noteRelease_ahead]
      simp only [Context.ahead, h₆] at h₂ h₃ h₄ h₅ ⊢
      omega
    · rename_i hf'
      exact absurd hf hf'

/-- **A teardown loop is a sequence of steps** that empties its queue. -/
theorem destroyLoop_steps (fuel : Nat) (ctx : Context) (hG : Covers G ctx)
    (hf : ctx.fault = none) (hfuel : ctx.ahead q (fun _ => false) < fuel) :
    Steps K G ctx (destroyLoop K q fuel ctx) ∧
      ((destroyLoop K q fuel ctx).fault = none → (destroyLoop K q fuel ctx).heads q = []) := by
  induction fuel generalizing ctx with
  | zero => exact absurd hfuel (Nat.not_lt_zero _)
  | succ fuel ih =>
    unfold destroyLoop
    split
    · rename_i hq
      exact ⟨.refl, fun _ => hq⟩
    · rename_i p ps hq
      simp only
      have hsteps := shutdown_steps (K := K) hG hf (heads_head_mem hq)
      split
      · rename_i hf'
        have hless := shutdown_ahead hG hq hf'
        have hrec := ih _ (hG.keep hsteps.keeps) hf' (by omega)
        exact ⟨hsteps.trans hrec.1, hrec.2⟩
      · rename_i hf'
        exact ⟨hsteps, fun h => absurd h hf'⟩

theorem destroyQueue_steps (hG : Covers G ctx)
    (hf : ctx.fault = none) :
    Steps K G ctx (destroyQueue K q ctx) ∧
      ((destroyQueue K q ctx).fault = none → (destroyQueue K q ctx).heads q = []) := by
  refine destroyLoop_steps _ _ hG hf ?_
  have := ahead_le_pending ctx q (fun _ => false)
  omega

end

end Libsmb2
