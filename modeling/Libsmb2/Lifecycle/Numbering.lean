import Libsmb2.Lifecycle.Deals
import Libsmb2.Lifecycle.Protection
import Mathlib.Order.CompletePartialOrder

/-!
# Message ids

`smb2_encode_header` numbers the requests of a client with a counter that it advances by the
credit charge of each, at least by one; `smb2_close_context` sets it back to zero.  The replies
are told apart by these numbers (`smb2_find_pdu`).

* `message_ids_are_consecutive` — **between two calls of `smb2_close_context` the ranges of ids
  of all requests that are queued follow one another** from the first value of the counter on,
  and each member of a chain remembers the id of the member before it.
-/

set_option autoImplicit false

namespace Libsmb2

open Util Relation

/-- The message ids that a request takes. -/
def Pdu.span (p : Pdu) : Nat := max 1 p.header.creditCharge

/-- The requests have the numbers that the counter gives them from `n` on, and leave it there. -/
inductive Counted : Nat → List Pdu → Nat → Prop
  | nil (n : Nat) : Counted n [] n
  | cons {n m : Nat} {p : Pdu} {ps : List Pdu} (hp : p.header.messageId = n)
      (hps : Counted ((n + p.span) % 2 ^ 64) ps m) : Counted n (p :: ps) m

/-- Each request remembers the number of the one before it, the first of them `mid`. -/
def Remembers : Nat → List Pdu → Prop
  | _, [] => True
  | mid, p :: ps => p.prevCompoundMid = mid ∧ Remembers p.header.messageId ps

/-- The counter over a stretch of the log. -/
inductive Replayed : Nat → List Event → Nat → Prop
  | nil (n : Nat) : Replayed n [] n
  | enqueued {n m k : Nat} {c : Chain} {es : List Event} (hc : Counted n c.members m)
      (hr : Remembers 0 c.members) (hes : Replayed m es k) : Replayed n (.enqueued c :: es) k
  | closed {n k : Nat} {es : List Event} (hes : Replayed 0 es k) : Replayed n (.closed :: es) k
  | other {n k : Nat} {e : Event} {es : List Event} (hq : ∀ c, e ≠ .enqueued c)
      (hc : e ≠ .closed) (hes : Replayed n es k) : Replayed n (e :: es) k

variable {es l₀ fs : List Event}

theorem Replayed.append {n m k : Nat} (h₁ : Replayed n es m)
    (h₂ : Replayed m fs k) : Replayed n (es ++ fs) k := by
  induction h₁ with
  | nil n => exact h₂
  | enqueued hc hr _ ih => exact .enqueued hc hr (ih h₂)
  | closed _ ih => exact .closed (ih h₂)
  | other hq hc _ ih => exact .other hq hc (ih h₂)

theorem Replayed.of_beside {n : Nat} (h : ∀ e ∈ es, e.beside = true) :
    Replayed n es n := by
  induction es with
  | nil => exact .nil n
  | cons e es ih =>
    have he := h e (List.mem_cons_self ..)
    refine .other ?_ ?_ (ih fun e' he' => h e' (List.mem_cons_of_mem _ he'))
    · rintro c rfl
      cases he
    · rintro rfl
      cases he

/-- What is left of a replay after a stretch of the log. -/
theorem Replayed.split {n k : Nat} (h : Replayed n (es ++ fs) k) :
    ∃ m, Replayed n es m ∧ Replayed m fs k := by
  induction es generalizing n with
  | nil => exact ⟨n, .nil n, h⟩
  | cons e es ih =>
    cases h with
    | enqueued hc hr hes =>
      obtain ⟨m, h₁, h₂⟩ := ih hes
      exact ⟨m, .enqueued hc hr h₁, h₂⟩
    | closed hes =>
      obtain ⟨m, h₁, h₂⟩ := ih hes
      exact ⟨m, .closed h₁, h₂⟩
    | other hq hc hes =>
      obtain ⟨m, h₁, h₂⟩ := ih hes
      exact ⟨m, .other hq hc h₁, h₂⟩

/-! ## Queueing a chain -/

section
variable {K : Crypto} {ctx ctx' : Context}

theorem queueMember_counted (hs : ctx.isServer = false) (mid : Nat) (p : Pdu) :
    (queueMember K ctx mid p).2.header.messageId = ctx.messageId ∧
      (queueMember K ctx mid p).2.prevCompoundMid = mid ∧
      (queueMember K ctx mid p).1.messageId =
        (ctx.messageId + (queueMember K ctx mid p).2.span) % 2 ^ 64 ∧
      (queueMember K ctx mid p).1.isServer = false := by
  obtain ⟨env, es, flags, sig, out, -, h₁, h₂⟩ := queueMember_eq (K := K) hs mid p
  rw [h₁, h₂]
  exact ⟨rfl, rfl, rfl, hs⟩

theorem queueMembers_counted (ps : List Pdu) (hs : ctx.isServer = false) (mid : Nat) :
    Counted ctx.messageId (queueMembers K ctx mid ps).2 (queueMembers K ctx mid ps).1.messageId ∧
      Remembers mid (queueMembers K ctx mid ps).2 := by
  induction ps generalizing ctx mid with
  | nil => exact ⟨.nil _, trivial⟩
  | cons p ps ih =>
    obtain ⟨hmid, hprev, hnext, hs'⟩ := queueMember_counted (K := K) hs mid p
    obtain ⟨hc, hr⟩ := ih hs' (queueMember K ctx mid p).2.header.messageId
    rw [hnext] at hc
    exact ⟨.cons hmid hc, hprev, hr⟩

/-- Sealing changes neither a number nor the counter. -/
theorem encryptPdu_counted (ctx : Context) (c : Chain) {n : Nat}
    (hc : Counted n c.members ctx.messageId) (hr : Remembers 0 c.members) :
    Counted n (encryptPdu K ctx c).2.members (encryptPdu K ctx c).1.messageId ∧
      Remembers 0 (encryptPdu K ctx c).2.members := by
  have hhead : ∀ (p : Pdu) (m : Nat), p.header = c.head.header →
      p.prevCompoundMid = c.head.prevCompoundMid → Counted n c.members m →
      Counted n (p :: c.rest) m ∧ Remembers 0 (p :: c.rest) := by
    intro p m hp hprev hcount
    cases hcount with
    | cons hm hps =>
      refine ⟨.cons (by rw [hp]; exact hm) ?_, hprev.trans hr.1, by rw [hp]; exact hr.2⟩
      have hspan : p.span = c.head.span := by
        unfold Pdu.span
        rw [hp]
      rw [hspan]
      exact hps
  refine encryptPdu_cases K ctx c ?_ ?_ ?_ ?_
  · exact ⟨hc, hr⟩
  · exact ⟨hc, hr⟩
  · exact hhead _ _ rfl rfl hc
  · exact hhead _ _ rfl rfl hc

theorem preparePdu_counted (hs : ctx.isServer = false) (c : Chain) :
    Counted ctx.messageId (preparePdu K ctx c).2.members (preparePdu K ctx c).1.messageId ∧
      Remembers 0 (preparePdu K ctx c).2.members := by
  obtain ⟨hc, hr⟩ := queueMembers_counted (K := K) (c.head :: c.rest) hs 0
  unfold preparePdu
  simp only [hs, Bool.false_eq_true, if_false]
  exact encryptPdu_counted _ _ hc hr

/-! ## Runs -/

/-- The counter is what the events since the log `l₀` leave of `n₀`. -/
def Numbering (l₀ : List Event) (n₀ : Nat) (ctx : Context) : Prop :=
  ∃ es, ctx.log = l₀ ++ es ∧ Replayed n₀ es ctx.messageId

/-- A change that adds a stretch to the log and moves the counter over it. -/
theorem Numbering.push {n₀ : Nat} (h : Numbering l₀ n₀ ctx)
    (hlog : ctx'.log = ctx.log ++ es) (hes : Replayed ctx.messageId es ctx'.messageId) :
    Numbering l₀ n₀ ctx' := by
  obtain ⟨fs, hfs, hr⟩ := h
  exact ⟨fs ++ es, by rw [hlog, hfs, List.append_assoc], hr.append hes⟩

theorem submitted_numbering {n₀ : Nat} {id : Nat} {c : Chain}
    (hs : ctx.isServer = false) (hf : (submitted K ctx id c).fault = none)
    (h : Numbering l₀ n₀ ctx) : Numbering l₀ n₀ (submitted K ctx id c) := by
  let queued := (ctx.dropHeld id).emit (.queued c ctx.security)
  have hs' : queued.isServer = false := hs
  obtain ⟨n, env, es, hes, heq, -⟩ := preparePdu_eq (K := K) (c := c) hs' hf
  obtain ⟨hc, hr⟩ := preparePdu_counted (K := K) hs' c
  have hlog : (submitted K ctx id c).log = ctx.log ++
      (.queued c ctx.security :: (es ++ [.enqueued (preparePdu K queued c).2])) := by
    show (preparePdu K queued c).1.log ++ [.enqueued (preparePdu K queued c).2] = _
    rw [heq]
    show ctx.log ++ [_] ++ es ++ _ = _
    simp
  refine h.push hlog (.other (fun _ h => by cases h) (fun h => by cases h) ?_)
  have hsign : Replayed ctx.messageId es ctx.messageId :=
    .of_beside fun e he => Event.beside_of_protects (hes e he)
  exact hsign.append (.enqueued hc hr (.nil _))

/-- **Every change keeps the numbering.** -/
theorem Deal.numbering {n₀ : Nat} (hd : Deal K ctx ctx')
    (hf : ctx'.fault = none) (h : Numbering l₀ n₀ ctx) : Numbering l₀ n₀ ctx' := by
  cases hd with
  | level hl =>
    obtain ⟨es, hlog, hes⟩ := hl.log
    refine h.push hlog ?_
    rw [hl.messageId]
    exact .of_beside hes
  | crash hc => exact absurd hf hc
  | alloc p hid hask => exact h
  | submit id c hc hs hf₀ hf' => exact submitted_numbering hs hf h
  | offer c rest ht =>
    exact h.push rfl (.other (fun _ h => by cases h) (fun h => by cases h) (.nil _))
  | accept c rest n ht hs hdist =>
    obtain ⟨wire, he | he⟩ := accepted_client hs c rest n
    · rw [he]
      exact h
    · rw [he]
      exact h
  | grant hdr hs =>
    unfold grantCredits
    rw [if_neg (by rw [hs]; decide)]
    exact h
  | close => exact h.push rfl (.closed (.nil _))

/-! ## A stretch between two closes -/

/-- The requests that were put on the out queue, in order. -/
def numbered : List Event → List Pdu
  | [] => []
  | .enqueued c :: es => c.members ++ numbered es
  | _ :: es => numbered es

/-- The requests take the ids from `n` on, one range after the other. -/
def Consecutive : Nat → List Pdu → Prop
  | _, [] => True
  | n, p :: ps => p.header.messageId = n ∧ Consecutive (n + p.span) ps

/-- The message ids of a request. -/
def Pdu.messageIds (p : Pdu) : Set Nat :=
  Set.Ico p.header.messageId (p.header.messageId + p.span)

theorem Counted.append {n m k : Nat} {ps qs : List Pdu} (h₁ : Counted n ps m)
    (h₂ : Counted m qs k) : Counted n (ps ++ qs) k := by
  induction h₁ with
  | nil n => exact h₂
  | cons hp _ ih => exact .cons hp (ih h₂)

theorem numbered_of_ne {e : Event} (he : ∀ c, e ≠ .enqueued c) (es : List Event) :
    numbered (e :: es) = numbered es := by
  cases e with
  | enqueued c => exact absurd rfl (he c)
  | _ => rfl

/-- Where the context is not closed, the whole stretch is counted. -/
theorem Replayed.counted {n k : Nat} (h : Replayed n es k)
    (hopen : .closed ∉ es) : Counted n (numbered es) k := by
  induction h with
  | nil n => exact .nil n
  | enqueued hc _ _ ih => exact hc.append (ih fun hm => hopen (List.mem_cons_of_mem _ hm))
  | closed _ _ => exact absurd (List.mem_cons_self ..) hopen
  | other hq _ _ ih =>
    rw [numbered_of_ne hq]
    exact ih fun hm => hopen (List.mem_cons_of_mem _ hm)

theorem Replayed.remembers {n k : Nat} (h : Replayed n es k) {c : Chain}
    (hc : .enqueued c ∈ es) : Remembers 0 c.members := by
  induction h with
  | nil n => cases hc
  | enqueued _ hr _ ih =>
    rcases List.mem_cons.mp hc with he | hc
    · cases he
      exact hr
    · exact ih hc
  | closed _ ih =>
    rcases List.mem_cons.mp hc with he | hc
    · cases he
    · exact ih hc
  | other hq _ _ ih =>
    rcases List.mem_cons.mp hc with he | hc
    · exact absurd he.symm (hq c)
    · exact ih hc

theorem Pdu.span_pos (p : Pdu) : 0 < p.span := by
  unfold Pdu.span
  omega

/-- A counter that does not wrap numbers consecutively. -/
theorem Counted.consecutive {n k : Nat} {ps : List Pdu} (h : Counted n ps k)
    (hb : n + (ps.map Pdu.span).sum ≤ 2 ^ 64) : Consecutive n ps := by
  induction h with
  | nil n => trivial
  | @cons n m p ps hp hps ih =>
    refine ⟨hp, ?_⟩
    rw [List.map_cons, List.sum_cons] at hb
    cases ps with
    | nil => trivial
    | cons q qs =>
      -- there is a request after this one, so the counter is still below the limit
      have hq := q.span_pos
      rw [List.map_cons, List.sum_cons] at hb
      have hmod : (n + p.span) % 2 ^ 64 = n + p.span := Nat.mod_eq_of_lt (by omega)
      rw [hmod] at ih
      apply ih
      rw [List.map_cons, List.sum_cons]
      omega

theorem Consecutive.lower {n : Nat} {ps : List Pdu} (h : Consecutive n ps) {p : Pdu}
    (hp : p ∈ ps) : n ≤ p.header.messageId := by
  induction ps generalizing n with
  | nil => cases hp
  | cons q qs ih =>
    rcases List.mem_cons.mp hp with rfl | hp
    · exact h.1.ge
    · have := ih h.2 hp
      omega

theorem Consecutive.disjoint {n : Nat} {ps : List Pdu} (h : Consecutive n ps) :
    ps.Pairwise fun p q => Disjoint p.messageIds q.messageIds := by
  induction ps generalizing n with
  | nil => exact .nil
  | cons p ps ih =>
    refine .cons ?_ (ih h.2)
    intro q hq
    have hle : p.header.messageId + p.span ≤ q.header.messageId := by
      rw [h.1]
      exact h.2.lower hq
    apply Set.disjoint_left.mpr
    intro i hi hi'
    have h₁ := hi.2
    have h₂ := hi'.1
    omega

/-- What the counter starts a stretch with: its initial value, or zero after a close. -/
inductive StartsWith (n₀ : Nat) : List Event → Nat → Prop
  | initial : StartsWith n₀ [] n₀
  | reset (pre : List Event) : StartsWith n₀ (pre ++ [.closed]) 0

theorem Replayed.startsWith {n₀ first n : Nat} {pre : List Event} (h : StartsWith n₀ pre first)
    (hr : Replayed n₀ pre n) : n = first := by
  cases h with
  | initial =>
    cases hr
    rfl
  | reset pre =>
    obtain ⟨m, _, h₂⟩ := hr.split
    cases h₂ with
    | closed hes =>
      cases hes
      rfl
    | other hq hc hes => exact absurd rfl hc

end

/-- **Message ids are consecutive**: between two calls of `smb2_close_context` the ranges of ids
of the requests that a client queues are disjoint and follow one another from the first value of
the counter on, as long as it does not exceed 2 ^ 64, and each member of a chain remembers the id
of the member before it. -/
theorem message_ids_are_consecutive (K : Crypto) (D : Decoders) (s : Session) (ops : List Op)
    (hb : Blank s) (hc : s.ctx.isServer = false) (hf : (runOps K D s ops).ctx.fault = none)
    (pre stretch post : List Event) (first : Nat)
    (hlog : (runOps K D s ops).ctx.log = pre ++ stretch ++ post)
    (hfirst : StartsWith s.ctx.messageId pre first) (hopen : .closed ∉ stretch)
    (hbound : first + ((numbered stretch).map Pdu.span).sum ≤ 2 ^ 64) :
    Consecutive first (numbered stretch) ∧
      ((numbered stretch).Pairwise fun p q => Disjoint p.messageIds q.messageIds) ∧
      ∀ c, .enqueued c ∈ stretch → Remembers 0 c.members := by
  have hstart : Numbering [] s.ctx.messageId s.ctx := ⟨[], hb.log, .nil _⟩
  have hrun := runOps_deals (K := K) (D := D) ops s hc (hb.steady trivial)
  obtain ⟨es, hes, hr⟩ := hrun.invariant (fun c d h hf' => h.numbering hf') hstart hf
  rw [List.nil_append] at hes
  rw [← hes, hlog] at hr
  obtain ⟨m, hm, -⟩ := hr.split
  obtain ⟨n, hpre, hstretch⟩ := hm.split
  obtain rfl := hpre.startsWith hfirst
  have hcons := (hstretch.counted hopen).consecutive hbound
  exact ⟨hcons, hcons.disjoint, fun c hm => hstretch.remembers hm⟩

/-- A client whose counter is at five. -/
def advancedClient : Session where
  smb2 := { ctx := {
    dialect := VERSION_0302
    messageId := 5
    credits := 10
    env := { tx := [.accept 1000, .accept 1000] } } }

/-- A request, a close, another request, and a compound whose first member takes three ids. -/
def closeBetween : List Op :=
  [allocEcho 1, .act (.queue 1), .act .close, allocEcho 2, .act (.queue 2),
    .act (.alloc .read [le 2 49] (.app 3) (some 3) []), allocEcho 4, .act (.compound 3 4),
    .act (.queue 3)]

theorem closeBetween_log :
    (runOps echoCrypto plainDecoders advancedClient closeBetween).ctx.log =
      (runOps echoCrypto plainDecoders advancedClient closeBetween).ctx.log.take 4 ++ [.closed] ++
        (runOps echoCrypto plainDecoders advancedClient closeBetween).ctx.log.drop 5 ++ [] := by
  decide +kernel

/-- After the close the requests take the ids from zero on. -/
theorem message_ids_after_close :
    (numbered ((runOps echoCrypto plainDecoders advancedClient closeBetween).ctx.log.drop 5)).map
        (fun p => (p.id, p.header.messageId, p.span, p.prevCompoundMid)) =
      [(2, 0, 1, 0), (3, 1, 3, 0), (4, 4, 1, 1)] ∧
    Consecutive 0
      (numbered ((runOps echoCrypto plainDecoders advancedClient closeBetween).ctx.log.drop 5)) := by
  refine ⟨by decide +kernel, ?_⟩
  exact (message_ids_are_consecutive echoCrypto plainDecoders advancedClient closeBetween
    ⟨rfl, rfl, rfl, rfl, rfl, rfl, rfl, rfl⟩ rfl (by decide +kernel) _ _ [] 0 closeBetween_log
    (.reset _) (by decide +kernel) (by decide +kernel)).1

end Libsmb2
