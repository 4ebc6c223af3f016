import Libsmb2.Lifecycle.Framing
import Libsmb2.Receive.Rule
import Mathlib.Data.List.TakeWhile

/-!
# Who owns a request

Every request that a client allocates is, at every moment, in exactly one of these places:
with the application, in a queue or behind the head of a queued chain, in `smb2->pdu`, left
to its caller, or released.  `tally` counts them; a change that is `Balanced` moves requests
and loses none.

* `act_conserves`, `invokeCallback_conserves`, `timeoutPdus_conserves` — the calls of the application, the
  callbacks and the timeouts are balanced as long as what happens is `Proper`: the
  application passes only requests that it may pass, and nothing expires that its caller has
  to free;
* `CtxStep.conserves` — so is reading;
* `pdus_are_owned_once` — hence in every run no request is released twice, forgotten, or
  referred to after its release, and a caller's request is released by its caller.
-/

set_option autoImplicit false

namespace Libsmb2

open Util Relation

namespace Context

/-- Whether this is the current request. -/
def current (ctx : Context) (i : Nat) : Nat := if ctx.pdu.map Pdu.id = some i then 1 else 0

/-- How often a request was released, and in how many places it still is.  A request that is
the current one while it still waits (its reply came out of order) counts once. -/
def tally (ctx : Context) (i : Nat) : Nat :=
  (ctx.releases.map Release.id).count i + ctx.kept.count i + occ ctx.held i +
    occ ctx.outqueue i + max ((ctx.waitqueue.map Pdu.id).count i) (ctx.current i)

theorem current_congr {ctx ctx' : Context} (hp : ctx'.pdu = ctx.pdu) (i : Nat) :
    ctx'.current i = ctx.current i := by
  simp only [current, hp]

end Context

/-- No request is in two places, and none has an id that was not given out. -/
structure Sound (ctx : Context) : Prop where
  once : ∀ i, ctx.tally i ≤ 1
  fresh : ∀ i, ctx.nextId ≤ i → ctx.tally i = 0

/-- Nobody but its caller has released a request that its caller has to free. -/
def Release.Rightful (r : Release) : Prop := r.owned = true → r.byCaller = true

/-- Requests have moved, and those that were allocated meanwhile are somewhere. -/
structure Balanced (ctx ctx' : Context) : Prop where
  nextId : ctx.nextId ≤ ctx'.nextId
  tally : ∀ i, ctx'.tally i = ctx.tally i + (if ctx.nextId ≤ i ∧ i < ctx'.nextId then 1 else 0)
  releases : Logged Release.Rightful ctx.releases ctx'.releases

section
variable {K : Crypto} {D : Decoders} {ctx ctx' ctx'' : Context}

theorem Balanced.of_moved (hid : ctx'.nextId = ctx.nextId)
    (ht : ∀ i, ctx'.tally i = ctx.tally i)
    (hr : Logged Release.Rightful ctx.releases ctx'.releases) : Balanced ctx ctx' := by
  refine ⟨hid.ge, ?_, hr⟩
  intro i
  rw [ht, hid]
  split <;> omega

theorem Balanced.of_same (hid : ctx'.nextId = ctx.nextId) (hr : ctx'.releases = ctx.releases)
    (hk : ctx'.kept = ctx.kept) (hh : ctx'.held = ctx.held) (ho : ctx'.outqueue = ctx.outqueue)
    (hw : ctx'.waitqueue = ctx.waitqueue) (hp : ctx'.pdu = ctx.pdu) : Balanced ctx ctx' := by
  refine .of_moved hid ?_ ?_
  · intro i
    simp only [Context.tally, Context.current, hr, hk, hh, ho, hw, hp]
  · rw [hr]
    exact .refl _

theorem Balanced.refl (ctx : Context) : Balanced ctx ctx := .of_same rfl rfl rfl rfl rfl rfl rfl

theorem Balanced.trans (h₁ : Balanced ctx ctx') (h₂ : Balanced ctx' ctx'') : Balanced ctx ctx'' := by
  refine ⟨h₁.nextId.trans h₂.nextId, ?_, h₁.releases.trans h₂.releases⟩
  intro i
  have n₁ := h₁.nextId
  have n₂ := h₂.nextId
  rw [h₂.tally, h₁.tally]
  split <;> split <;> split <;> omega

theorem Sound.after (hs : Sound ctx) (hb : Balanced ctx ctx') : Sound ctx' := by
  have hid := hb.nextId
  constructor
  · intro i
    have h₁ := hs.once i
    have h₂ := hs.fresh i
    rw [hb.tally]
    split <;> omega
  · intro i hi
    have h₂ := hs.fresh i (by omega)
    rw [hb.tally]
    split <;> omega

theorem Sound.distinct (hs : Sound ctx) : Distinct ctx := by
  constructor
  · intro i
    have := hs.once i
    simp only [Context.tally] at this
    simp only [Context.occurs]
    omega
  · intro i hi
    have := hs.fresh i hi
    simp only [Context.tally] at this
    simp only [Context.occurs]
    omega

/-! ## Chains that leave a list -/

theorem occ_filter_split (cs : List Chain) (k : Chain → Bool) (i : Nat) :
    occ (cs.filter k) i + occ (cs.filter fun c => !k c) i = occ cs i := by
  induction cs with
  | nil => rfl
  | cons c cs ih =>
    by_cases hk : k c = true
    · rw [List.filter_cons_of_pos hk, List.filter_cons_of_neg (by simp [hk]), occ_cons, occ_cons]
      omega
    · rw [List.filter_cons_of_neg hk, List.filter_cons_of_pos (by simp [hk]), occ_cons, occ_cons]
      omega

theorem filter_other_head {cs : List Chain} {id : Nat} (h : occ cs id = 0) :
    cs.filter (fun d => d.head.id == id) = [] := by
  rw [List.filter_eq_nil_iff]
  intro c hc
  have := occ_ne_zero_of_mem hc
  intro he
  rw [beq_iff_eq.mp he] at this
  exact this h

/-- The one chain with this head. -/
theorem filter_head {cs : List Chain} {c : Chain} (hc : c ∈ cs) (h : occ cs c.head.id ≤ 1) :
    cs.filter (fun d => d.head.id == c.head.id) = [c] := by
  induction cs with
  | nil => cases hc
  | cons d cs ih =>
    rw [occ_cons] at h
    rcases List.mem_cons.mp hc with rfl | hc
    · have hhead : c.ids.count c.head.id ≠ 0 :=
        Chain.count_ids_ne_zero.mpr (List.mem_cons_self ..)
      rw [List.filter_cons_of_pos (by simp), filter_other_head (by omega)]
    · have hne : d.head.id ≠ c.head.id := by
        intro he
        have h₁ : d.ids.count c.head.id ≠ 0 :=
          Chain.count_ids_ne_zero.mpr (he ▸ List.mem_cons_self ..)
        have h₂ := occ_ne_zero_of_mem hc
        omega
      rw [List.filter_cons_of_neg (by simpa using hne)]
      exact ih hc (by omega)

theorem bne_filter (cs : List Chain) (id : Nat) :
    (cs.filter fun d => !(d.head.id == id)) = cs.filter fun d => d.head.id != id := rfl

/-- A chain leaves the list, and takes its members along. -/
theorem occ_without {cs : List Chain} {c : Chain} (hc : c ∈ cs) (h : occ cs c.head.id ≤ 1)
    (i : Nat) : occ (cs.filter fun d => d.head.id != c.head.id) i + c.ids.count i = occ cs i := by
  have hsplit := occ_filter_split cs (fun d => d.head.id == c.head.id) i
  rw [filter_head hc h, bne_filter, occ_cons, occ_nil] at hsplit
  omega

theorem filter_id {l : List Pdu} {p : Pdu} (hp : p ∈ l) (h : (l.map Pdu.id).count p.id ≤ 1) :
    l.filter (fun q => q.id == p.id) = [p] := by
  induction l with
  | nil => cases hp
  | cons q l ih =>
    rw [List.map_cons, List.count_cons] at h
    rcases List.mem_cons.mp hp with rfl | hp
    · have hrest : (l.map Pdu.id).count p.id = 0 := by
        simp at h
        omega
      have hnil : l.filter (fun q => q.id == p.id) = [] := by
        rw [List.filter_eq_nil_iff]
        intro r hr he
        exact List.count_eq_zero.mp hrest (List.mem_map.mpr ⟨r, hr, beq_iff_eq.mp he⟩)
      rw [List.filter_cons_of_pos (by simp), hnil]
    · have hmem : 0 < (l.map Pdu.id).count p.id :=
        List.count_pos_iff.mpr (List.mem_map.mpr ⟨p, hp, rfl⟩)
      have hne : q.id ≠ p.id := by
        intro he
        simp [he] at h
        omega
      rw [List.filter_cons_of_neg (by simpa using hne)]
      refine ih hp ?_
      simp [hne] at h
      exact h

theorem count_filter_split (l : List Pdu) (id i : Nat) :
    ((l.filter fun p => p.id == id).map Pdu.id).count i +
      ((l.filter fun p => p.id != id).map Pdu.id).count i = (l.map Pdu.id).count i := by
  induction l with
  | nil => rfl
  | cons p l ih =>
    by_cases hp : p.id = id
    · rw [List.filter_cons_of_pos (by simp [hp]), List.filter_cons_of_neg (by simp [hp]),
        List.map_cons, List.map_cons, List.count_cons, List.count_cons]
      omega
    · rw [List.filter_cons_of_neg (by simp [hp]), List.filter_cons_of_pos (by simp [hp]),
        List.map_cons, List.map_cons, List.count_cons, List.count_cons]
      omega

/-! ## What the application may do -/

/-- The application passes requests that it may pass, and an entry that expires belongs to
the library alone. -/
def Event.proper : Event → Bool
  | .passed .free place => decide (place ∈ [Place.held, .queued, .waiting, .kept])
  | .passed _ place => decide (place = .held)
  | .lapsed l => decide ((∀ p ∈ l.pdu :: l.behind, p.callerFrees = false) ∧ l.current = false ∧
      l.freesNext = false)
  | _ => true

def Proper (log : List Event) : Prop := ∀ e ∈ log, e.proper = true

instance (log : List Event) : Decidable (Proper log) :=
  inferInstanceAs (Decidable (∀ e ∈ log, e.proper = true))

theorem Proper.earlier {l l' : List Event} (ho : Proper l') (h : l <+: l') : Proper l :=
  fun e he => ho e (h.subset he)

theorem place_held {id : Nat} (h : ctx.place id = .held) :
    ∃ c, ctx.findHeld id = some c := by
  unfold Context.place at h
  split at h
  · cases h
  · split at h
    · rename_i hheld
      exact Option.isSome_iff_exists.mp hheld
    · split at h
      · cases h
      · split at h
        · cases h
        · split at h
          · cases h
          · split at h <;> cases h

/-- A request that the application may free exists, and is not the one being received. -/
theorem place_free {id : Nat} (h : ctx.place id ∈ [Place.held, .queued, .waiting, .kept]) :
    ctx.current id = 0 ∧ ((∃ c, ctx.findHeld id = some c) ∨ ctx.ownsHead id = true ∨
      id ∈ ctx.kept) := by
  unfold Context.place at h
  split at h
  · simp at h
  · rename_i hcur
    refine ⟨by simp [Context.current, hcur], ?_⟩
    split at h
    · rename_i hheld
      exact .inl (Option.isSome_iff_exists.mp hheld)
    · split at h
      · rename_i hout
        exact .inr (.inl (by simp [Context.ownsHead, hout]))
      · split at h
        · rename_i hwait
          exact .inr (.inl (by simp only [Context.ownsHead, hwait, Bool.or_true]))
        · split at h
          · rename_i hkept
            exact .inr (.inr hkept)
          · split at h <;> simp at h

/-! ## Writing and queueing -/

/-- Where a change can come from: no stale pointer was followed, and nothing was lost. -/
structure Conserves (ctx ctx' : Context) : Prop where
  stale : ctx'.fault ≠ some .stalePdu
  balanced : ctx'.fault = none → Balanced ctx ctx'

theorem Conserves.of_balanced (hf : ctx.fault = none) (hf' : ctx'.fault = ctx.fault)
    (hb : Balanced ctx ctx') : Conserves ctx ctx' :=
  ⟨by rw [hf', hf]; simp, fun _ => hb⟩

theorem Conserves.refl (hf : ctx.fault = none) : Conserves ctx ctx := .of_balanced hf rfl (.refl ctx)

theorem Conserves.raise {c : Context} {f : Fault} (hne : f ≠ .stalePdu) : Conserves ctx (c.raise f) := by
  refine ⟨by simpa [Context.raise] using hne, ?_⟩
  intro h
  cases h

theorem Balanced.conserves (hb : Balanced ctx ctx') (ht : Conserves ctx' ctx'') : Conserves ctx ctx'' :=
  ⟨ht.stale, fun hf => hb.trans (ht.balanced hf)⟩

/-- The chain in front of the out queue moves on. -/
theorem accepted_balanced {c : Chain} {rest : List Chain} (n : Nat) (hc : ctx.isServer = false)
    (hs : Sound ctx) (hq : ctx.outqueue = c :: rest) : Balanced ctx (accepted ctx c rest n) := by
  rcases accepted_eq ctx c rest n with ⟨wire, credits, ledger, he | he⟩ <;> rw [he]
  · refine .of_moved rfl ?_ (.refl _)
    intro i
    have honce := hs.once i
    simp only [Context.tally, hq, occ_cons] at honce
    simp only [Context.tally, Context.current, hq, occ_cons, hc, Bool.false_eq_true, if_false,
      List.map_append, List.count_append, Chain.ids, Chain.members, Chain.advance,
      List.map_cons] at honce ⊢
    -- a request that is sent is not the current one
    omega
  · refine .of_moved rfl ?_ (.refl _)
    intro i
    simp only [Context.tally, Context.current, hq, occ_cons, Chain.advance_ids]

theorem conserves_rule :
    WriteRule (fun ctx => ctx.isServer = false ∧ Sound ctx ∧ ctx.fault = none) Conserves where
  idle h := .refl h.2.2
  overrun _ := .raise (by decide)
  blocked _ h _ := .of_balanced h.2.2 rfl (.of_same rfl rfl rfl rfl rfl rfl rfl)
  taken := by
    rintro ctx c rest n tx ⟨hc, hs, hf⟩ e
    obtain ⟨hq, _⟩ := writeTurn_offer e
    have h₁ : Balanced ctx (ctx.emit (.offered c ctx.security)) :=
      .of_same rfl rfl rfl rfl rfl rfl rfl
    have hc₁ : (ctx.emit (.offered c ctx.security)).isServer = false := hc
    have h₂ := accepted_balanced n hc₁ (hs.after h₁) hq
    have h₃ : Balanced (accepted (ctx.emit (.offered c ctx.security)) c rest n)
        ((accepted (ctx.emit (.offered c ctx.security)) c rest n).setTx tx) :=
      .of_same rfl rfl rfl rfl rfl rfl rfl
    have hkeep := accepted_keeps (ctx.emit (.offered c ctx.security)) c rest n
    have hb := (h₁.trans h₂).trans h₃
    exact ⟨⟨hkeep.isServer.trans hc, hs.after hb, (accepted_fault _ c rest n).trans hf⟩,
      fun _ h => hb.conserves h⟩

theorem writeToSocket_conserves (hc : ctx.isServer = false) (hs : Sound ctx) (hf : ctx.fault = none) :
    Conserves ctx (writeToSocket ctx).1 := conserves_rule.writeToSocket_rel ⟨hc, hs, hf⟩

/-- The books of a context: what was released, and what was left to its caller. -/
structure SameBooks (ctx ctx' : Context) : Prop where
  kept : ctx'.kept = ctx.kept
  releases : ctx'.releases = ctx.releases

theorem SameBooks.trans (h₁ : SameBooks ctx ctx') (h₂ : SameBooks ctx' ctx'') :
    SameBooks ctx ctx'' := ⟨h₂.kept.trans h₁.kept, h₂.releases.trans h₁.releases⟩

theorem signMember_books (ctx : Context) (p : Pdu) : SameBooks ctx (signMember K ctx p).1 := by
  unfold signMember
  split
  · exact pduAddSignature_cases K ctx p (fun _ => ⟨rfl, rfl⟩) ⟨rfl, rfl⟩ ⟨rfl, rfl⟩ ⟨rfl, rfl⟩
  · exact ⟨rfl, rfl⟩

theorem queueMember_books (hc : ctx.isServer = false) (mid : Nat) (p : Pdu) :
    SameBooks ctx (queueMember K ctx mid p).1 := by
  have hencode : SameBooks ctx (encodeMember ctx mid p).1 := by
    unfold encodeMember encodeHeader
    simp only [hc, Bool.false_eq_true, if_false]
    exact ⟨rfl, rfl⟩
  exact hencode.trans (signMember_books _ _)

theorem queueMembers_books (ps : List Pdu) (hc : ctx.isServer = false) (mid : Nat) :
    SameBooks ctx (queueMembers K ctx mid ps).1 := by
  induction ps generalizing ctx mid with
  | nil => exact ⟨rfl, rfl⟩
  | cons p ps ih =>
    have hq := queueMember_quiet (G := True) (K := K) ctx mid p (fun _ => trivial)
    exact (queueMember_books hc mid p).trans (ih (hq.isServer.trans hc) _)

theorem encryptPdu_books (ctx : Context) (c : Chain) : SameBooks ctx (encryptPdu K ctx c).1 :=
  encryptPdu_cases K ctx c ⟨rfl, rfl⟩ ⟨rfl, rfl⟩ ⟨rfl, rfl⟩ ⟨rfl, rfl⟩

theorem preparePdu_books (ctx : Context) (hc : ctx.isServer = false) (c : Chain) :
    SameBooks ctx (preparePdu K ctx c).1 := by
  unfold preparePdu
  simp only [hc, Bool.false_eq_true, if_false]
  have hq := queueMember_quiet (G := True) (K := K) ctx 0 c.head (fun _ => trivial)
  exact ((queueMember_books hc 0 c.head).trans
    (queueMembers_books c.rest (hq.isServer.trans hc) _)).trans (encryptPdu_books _ _)

theorem encryptPdu_fault (ctx : Context) (c : Chain) :
    (encryptPdu K ctx c).1.fault = ctx.fault ∨
      (encryptPdu K ctx c).1.fault = some .heapOverflow :=
  encryptPdu_cases K ctx c (.inl rfl) (.inr rfl) (.inl rfl) (.inl rfl)

/-- All that can go wrong when a chain is prepared is that it is too long to be sealed. -/
theorem preparePdu_fault (ctx : Context) (c : Chain) :
    (preparePdu K ctx c).1.fault = ctx.fault ∨
      (preparePdu K ctx c).1.fault = some .heapOverflow := by
  unfold preparePdu
  simp only
  generalize (if ctx.isServer then markReply c.head else c.head) = head
  have hq := queueMember_quiet (G := True) (K := K) ctx 0 head (fun _ => trivial)
  have hqs := queueMembers_quiet (G := True) (K := K) c.rest (queueMember K ctx 0 head).1
    (queueMember K ctx 0 head).2.header.messageId (fun _ => trivial)
  rcases encryptPdu_fault (K := K) (queueMembers K (queueMember K ctx 0 head).1
    (queueMember K ctx 0 head).2.header.messageId c.rest).1 ⟨(queueMember K ctx 0 head).2,
      (queueMembers K (queueMember K ctx 0 head).1 (queueMember K ctx 0 head).2.header.messageId
        c.rest).2⟩ with h | h
  · exact .inl (h.trans (hqs.fault.trans hq.fault))
  · exact .inr h

/-- The chain that the application held is in the out queue. -/
theorem submitted_balanced {id : Nat} {c : Chain} (hc : ctx.isServer = false) (hs : Sound ctx)
    (hfind : ctx.findHeld id = some c) (hf : (submitted K ctx id c).fault = none) :
    Balanced ctx (submitted K ctx id c) := by
  obtain ⟨hmem, hid⟩ := Context.findHeld_mem hfind
  have hbooks := preparePdu_books (K := K) ((ctx.dropHeld id).emit (.queued c ctx.security)) hc c
  have hcl : ((ctx.dropHeld id).emit (.queued c ctx.security)).isServer = true → False := by
    intro h
    rw [show ((ctx.dropHeld id).emit (.queued c ctx.security)).isServer = ctx.isServer from rfl,
      hc] at h
    cases h
  rcases preparePdu_quiet (G := False) (K := K) ((ctx.dropHeld id).emit (.queued c ctx.security)) c
    hcl with hov | hq
  · exact absurd hf hov.fault
  · obtain ⟨ho, hw, hh⟩ := hq.same not_false
    have hids := Chain.ids_eq_of_tags
      (preparePdu_tag (K := K) ((ctx.dropHeld id).emit (.queued c ctx.security)) c)
    refine .of_moved hq.nextId ?_ ?_
    · intro i
      have honce := hs.once c.head.id
      have hout := occ_without hmem (by simp only [Context.tally] at honce; omega) i
      have hcur : (submitted K ctx id c).current i = ctx.current i :=
        Context.current_congr hq.pdu i
      rw [hid] at hout
      simp only [Context.tally, hcur]
      simp only [submitted, hbooks.kept, hbooks.releases, ho, hw, hh, occ_append, occ_cons,
        occ_nil, hids]
      simp only [Context.dropHeld, Context.emit]
      omega
    · simp only [submitted, hbooks.releases]
      exact .refl _

theorem queuePdu_conserves {id : Nat} {c : Chain} (hc : ctx.isServer = false) (hs : Sound ctx)
    (hf : ctx.fault = none) (hfind : ctx.findHeld id = some c) :
    Conserves ctx (queuePdu K (ctx.dropHeld id) c) := by
  have hsub := submitted_balanced (K := K) hc hs hfind
  have hprep := preparePdu_quiet (G := True) (K := K)
    ((ctx.dropHeld id).emit (.queued c (ctx.dropHeld id).security)) c (fun _ => trivial)
  have hc' : ((ctx.dropHeld id).emit (.queued c (ctx.dropHeld id).security)).isServer = false := hc
  unfold queuePdu
  simp only [hc', Bool.false_and, Bool.false_eq_true, if_false]
  split
  · rename_i hok
    have hsub := hsub hok
    unfold addToOutqueue
    simp only
    split
    · refine hsub.conserves (writeToSocket_conserves ?_ (hs.after hsub) hok)
      rcases hprep with hov | hq
      · exact hov.isServer.trans hc
      · exact hq.isServer.trans hc
    · exact .of_balanced hf (hok.trans hf.symm) hsub
  · rename_i hbad
    rcases hprep with hov | hq
    · refine ⟨?_, fun h => absurd h hbad⟩
      rcases preparePdu_fault (K := K)
        ((ctx.dropHeld id).emit (.queued c (ctx.dropHeld id).security)) c with h | h
      · exact absurd (h.trans hf) hbad
      · rw [h]
        simp
    · exact absurd (hq.fault.trans hf) hbad

/-! ## Calls of the application -/

theorem noteRelease_count (ctx : Context) (b : Bool) (ps : List Pdu) (i : Nat) :
    ((ctx.noteRelease b ps).releases.map Release.id).count i =
      (ctx.releases.map Release.id).count i + (ps.map Pdu.id).count i := by
  simp only [Context.noteRelease, List.map_append, List.map_map, List.count_append]
  rfl

theorem noteRelease_byCaller (ctx : Context) (ps : List Pdu) :
    Logged Release.Rightful ctx.releases (ctx.noteRelease true ps).releases := by
  refine ⟨_, rfl, ?_⟩
  intro r hr _
  obtain ⟨p, _, rfl⟩ := List.mem_map.mp hr
  rfl

theorem held_balanced (p : Pdu) (hid : p.id = ctx.nextId) : Balanced ctx
    { ctx with held := ctx.held ++ [.single p], nextId := ctx.nextId + 1 } := by
  refine ⟨Nat.le_succ _, ?_, .refl _⟩
  intro i
  simp only [Context.tally, Context.current, occ_append, occ_cons, occ_nil, Chain.single,
    Chain.ids, Chain.members, List.map_cons, List.map_nil, List.count_singleton, hid]
  by_cases hi : ctx.nextId = i
  · have hbeq : (ctx.nextId == i) = true := by simpa using hi
    have hin : ctx.nextId ≤ i ∧ i < ctx.nextId + 1 := by omega
    rw [if_pos hbeq, if_pos hin]
    omega
  · have hbeq : ¬ (ctx.nextId == i) = true := by simpa using hi
    have hin : ¬ (ctx.nextId ≤ i ∧ i < ctx.nextId + 1) := by omega
    rw [if_neg hbeq, if_neg hin]
    omega

theorem alloc_balanced (p : Pdu) (hid : p.id = ctx.nextId) : Balanced ctx
    ({ ctx with held := ctx.held ++ [Chain.single p], nextId := ctx.nextId + 1 }.post
      (.asked p ctx.unsent)) :=
  (held_balanced p hid).trans (.of_same rfl rfl rfl rfl rfl rfl rfl)

theorem joined_balanced {a b : Nat} {c next : Chain} (hs : Sound ctx)
    (hc : ctx.findHeld a = some c) (hn : (ctx.dropHeld a).findHeld b = some next) :
    Balanced ctx (joined ctx a b c next) := by
  obtain ⟨hmem, hid⟩ := Context.findHeld_mem hc
  obtain ⟨hmem', hid'⟩ := Context.findHeld_mem hn
  have hids := addCompoundPdu_ids c next
  refine .of_moved rfl ?_ (.refl _)
  intro i
  have h₁ := hs.once c.head.id
  have h₂ := hs.once next.head.id
  have hle := occ_filter_le ctx.held (fun d => d.head.id != a) next.head.id
  simp only [Context.tally] at h₁ h₂
  have h₃ := occ_without hmem (by omega) i
  have h₄ := occ_without hmem' (by simp only [Context.dropHeld]; omega) i
  rw [hid] at h₃
  rw [hid'] at h₄
  have hcur : (joined ctx a b c next).current i = ctx.current i := Context.current_congr rfl i
  simp only [Context.tally, hcur]
  simp only [joined, Context.dropHeld, occ_append, occ_cons, occ_nil, hids,
    List.count_append] at h₃ h₄ ⊢
  omega

/-- The application frees a chain that it held. -/
theorem freeHeld_balanced {id : Nat} {c : Chain} (hs : Sound ctx)
    (hc : ctx.findHeld id = some c) :
    Balanced ctx ((ctx.dropHeld id).noteRelease true c.members) := by
  obtain ⟨hmem, hid⟩ := Context.findHeld_mem hc
  refine .of_moved rfl ?_ (noteRelease_byCaller _ _)
  intro i
  have h₁ := hs.once c.head.id
  simp only [Context.tally] at h₁
  have h₂ := occ_without hmem (by omega) i
  rw [hid] at h₂
  have hcur : ((ctx.dropHeld id).noteRelease true c.members).current i = ctx.current i :=
    Context.current_congr rfl i
  simp only [Context.tally, hcur, noteRelease_count]
  simp only [Context.noteRelease, Context.dropHeld]
  simp only [Chain.ids] at h₂
  omega

theorem linkedWith_count (ctx : Context) (id i : Nat) :
    ((ctx.linkedWith id).map Pdu.id).count i =
      occ (ctx.outqueue.filter fun c => c.head.id == id) i +
        ((ctx.waitqueue.filter fun p => p.id == id).map Pdu.id).count i := by
  have hflat : ∀ cs : List Chain, ((cs.flatMap Chain.members).map Pdu.id).count i = occ cs i := by
    intro cs
    induction cs with
    | nil => rfl
    | cons c cs ih =>
      rw [List.flatMap_cons, List.map_append, List.count_append, ih, occ_cons]
      rfl
  simp only [Context.linkedWith, List.map_append, List.count_append, hflat]

/-- The application frees a request that a queue links. -/
theorem freeLinked_balanced {id : Nat} (hcur : ctx.current id = 0) :
    Balanced ctx ((ctx.freePdu id).noteRelease true (ctx.linkedWith id)) := by
  refine .of_moved rfl ?_ (noteRelease_byCaller (ctx.freePdu id) _)
  intro i
  have h₁ := occ_filter_split ctx.outqueue (fun c => c.head.id == id) i
  have h₂ := count_filter_split ctx.waitqueue id i
  rw [bne_filter] at h₁
  have hcurrent : ((ctx.freePdu id).noteRelease true (ctx.linkedWith id)).current i =
      ctx.current i := Context.current_congr rfl i
  simp only [Context.tally, hcurrent, noteRelease_count, linkedWith_count]
  simp only [Context.noteRelease, Context.freePdu]
  by_cases hi : i = id
  · have h₃ := count_filter_self ctx.waitqueue id
    subst hi
    omega
  · have h₃ := count_filter_other (l := ctx.waitqueue) hi
    omega

/-- A caller frees a complete request. -/
theorem freeKept_balanced {id : Nat} (hk : id ∈ ctx.kept) : Balanced ctx { ctx with
    kept := ctx.kept.erase id, releases := ctx.releases ++ [⟨id, true, true⟩] } := by
  refine .of_moved rfl ?_ (.push (fun _ => rfl))
  intro i
  simp only [Context.tally, Context.current, List.map_append, List.map_cons, List.map_nil,
    List.count_append, List.count_singleton]
  by_cases hi : i = id
  · subst hi
    have hpos := List.count_pos_iff.mpr hk
    rw [List.count_erase_self]
    simp only [beq_self_eq_true, if_true]
    omega
  · have hbeq : ¬ (id == i) = true := by simpa using fun h => hi h.symm
    rw [List.count_erase_of_ne hi, if_neg hbeq]
    omega

/-- **What an application may do is balanced.** -/
theorem perform_conserves (a : Action) (hc : ctx.isServer = false) (hs : Sound ctx)
    (hf : ctx.fault = none) (ho : ∀ e ∈ ctx.passes a, e.proper = true) :
    Conserves ctx (perform K ctx a) := by
  have hsame : ∀ ctx' : Context, ctx'.fault = ctx.fault → ctx'.nextId = ctx.nextId →
      ctx'.releases = ctx.releases → ctx'.kept = ctx.kept → ctx'.held = ctx.held →
      ctx'.outqueue = ctx.outqueue → ctx'.waitqueue = ctx.waitqueue → ctx'.pdu = ctx.pdu →
      Conserves ctx ctx' := by
    intro ctx' h₀ h₁ h₂ h₃ h₄ h₅ h₆ h₇
    exact .of_balanced hf h₀ (.of_same h₁ h₂ h₃ h₄ h₅ h₆ h₇)
  cases a with
  | alloc command body cb creditCharge inIov =>
    simp only [perform, Context.allocatePdu]
    by_cases hm : ctx.allocOk = true
    · simp only [hm, if_true]
      have hpop : Balanced ctx ctx.popMem := .of_same rfl rfl rfl rfl rfl rfl rfl
      exact .of_balanced hf rfl (hpop.trans (alloc_balanced _ rfl))
    · simp only [hm]
      exact hsame _ rfl rfl rfl rfl rfl rfl rfl rfl
  | compound pdu nextPdu =>
    have h₁ : ctx.place pdu = .held := of_decide_eq_true (ho _ (List.mem_cons_self ..))
    have h₂ : (ctx.dropHeld pdu).place nextPdu = .held :=
      of_decide_eq_true (ho _ (List.mem_cons_of_mem _ (List.mem_singleton.mpr rfl)))
    obtain ⟨c, hfc⟩ := place_held h₁
    obtain ⟨next, hfn⟩ := place_held h₂
    simp only [perform, hfc, hfn]
    exact .of_balanced hf rfl (joined_balanced hs hfc hfn)
  | queue pdu =>
    have h₁ : ctx.place pdu = .held := of_decide_eq_true (ho _ (List.mem_singleton.mpr rfl))
    obtain ⟨c, hfc⟩ := place_held h₁
    simp only [perform, hfc]
    exact queuePdu_conserves hc hs hf hfc
  | free pdu =>
    obtain ⟨hcur, hplace⟩ :=
      place_free (of_decide_eq_true (ho _ (List.mem_singleton.mpr rfl)))
    simp only [perform]
    split
    · rename_i c hfc
      exact .of_balanced hf rfl (freeHeld_balanced hs hfc)
    · rename_i hnone
      split
      · exact .of_balanced hf rfl (freeLinked_balanced hcur)
      · rename_i hown
        split
        · rename_i hk
          exact .of_balanced hf rfl (freeKept_balanced hk)
        · rename_i hk
          rcases hplace with ⟨c, hfc⟩ | h | h
          · rw [hnone] at hfc
            cases hfc
          · exact absurd h hown
          · exact absurd h hk
  | setSign b => exact hsame _ rfl rfl rfl rfl rfl rfl rfl rfl
  | setSeal b => exact hsame _ rfl rfl rfl rfl rfl rfl rfl rfl
  | setTimeout t => exact hsame _ rfl rfl rfl rfl rfl rfl rfl rfl
  | tick t => exact hsame _ rfl rfl rfl rfl rfl rfl rfl rfl
  | close => exact hsame _ rfl rfl rfl rfl rfl rfl rfl rfl

theorem act_conserves (a : Action) (hc : ctx.isServer = false) (hs : Sound ctx)
    (hf : ctx.fault = none) (ho : Proper (act K ctx a).log) : Conserves ctx (act K ctx a) := by
  have hnote : Balanced ctx (ctx.notePasses a) := .of_same rfl rfl rfl rfl rfl rfl rfl
  have hf' : (ctx.notePasses a).fault = none := hf
  have hlog : (ctx.notePasses a).log <+: (act K ctx a).log :=
    (perform_steps (K := K) (G := True) a (fun _ => trivial) hf').keeps.log
  refine hnote.conserves (perform_conserves a hc (hs.after hnote) hf ?_)
  intro e he
  exact ho e (hlog.subset (List.mem_append_right _ he))

theorem runActions_conserves (as : List Action) (hc : ctx.isServer = false) (hs : Sound ctx)
    (hf : ctx.fault = none) (ho : Proper (runActions K ctx as).log) :
    Conserves ctx (runActions K ctx as) := by
  induction as generalizing ctx with
  | nil => exact .refl hf
  | cons a as ih =>
    simp only [runActions, hf, if_true] at ho ⊢
    have hrun : Steps K True (act K ctx a) (runActions K (act K ctx a) as) :=
      runActions_steps as _ (fun _ => trivial)
    have hact := act_conserves a hc hs hf (ho.earlier hrun.keeps.log)
    by_cases hf' : (act K ctx a).fault = none
    · have hc' := (act_steps (K := K) (G := True) a (fun _ => trivial) hf).keeps.isServer.trans hc
      exact (hact.balanced hf').conserves (ih hc' (hs.after (hact.balanced hf')) hf' ho)
    · cases as with
      | nil => exact hact
      | cons b bs =>
        simp only [runActions, hf', if_false]
        exact ⟨hact.stale, fun h => absurd h hf'⟩

theorem react_conserves (hc : ctx.isServer = false) (hs : Sound ctx) (hf : ctx.fault = none)
    (ho : Proper (react K ctx).log) : Conserves ctx (react K ctx) := by
  unfold react at ho ⊢
  split
  · exact .refl hf
  · rename_i as rest hr
    simp only [hr] at ho
    have hpop : Balanced ctx (ctx.setReactions rest) := .of_same rfl rfl rfl rfl rfl rfl rfl
    exact hpop.conserves (runActions_conserves as hc (hs.after hpop) hf ho)

theorem invokeApp_conserves (p : Pdu) (status : Nat) (hc : ctx.isServer = false) (hs : Sound ctx)
    (hf : ctx.fault = none) (ho : Proper (invokeApp K p status ctx).log) :
    Conserves ctx (invokeApp K p status ctx) := by
  have hemit : Balanced ctx (ctx.emit (.completed p.id status)) :=
    .of_same rfl rfl rfl rfl rfl rfl rfl
  exact hemit.conserves (react_conserves hc (hs.after hemit) hf ho)

theorem invokeCallback_conserves (p : Pdu) (status : Nat) (hc : ctx.isServer = false) (hs : Sound ctx)
    (hf : ctx.fault = none) (ho : Proper (invokeCallback K p status ctx).log) :
    Conserves ctx (invokeCallback K p status ctx) := by
  have hrun : Steps K True (invokeApp K p status ctx).popBreak (invokeCallback K p status ctx) :=
    runActions_steps _ _ (fun _ => trivial)
  have happ := invokeApp_conserves p status hc hs hf (ho.earlier hrun.keeps.log)
  unfold invokeCallback at ho ⊢
  simp only at ho ⊢
  by_cases hf' : (invokeApp K p status ctx).fault = none
  · have hpop : Balanced (invokeApp K p status ctx) (invokeApp K p status ctx).popBreak :=
      .of_same rfl rfl rfl rfl rfl rfl rfl
    have hb := (happ.balanced hf').trans hpop
    have hc' := (invokeApp_grows (K := K) p status ctx).isServer.trans hc
    exact hb.conserves (runActions_conserves _ hc' (hs.after hb) hf' ho)
  · have hstay : ∀ as, runActions K (invokeApp K p status ctx).popBreak as =
        (invokeApp K p status ctx).popBreak := by
      intro as
      cases as with
      | nil => rfl
      | cons a as =>
        have hf'' : (invokeApp K p status ctx).popBreak.fault ≠ none := hf'
        simp only [runActions, hf'', if_false]
    rw [hstay]
    exact ⟨happ.stale, fun h => absurd h hf'⟩

/-! ## Timeouts -/

theorem behind_rest {c : Chain} (hs : Sound ctx) (hc : c ∈ ctx.outqueue) :
    ctx.behind .out c.head.id = c.rest := by
  have honce := hs.once c.head.id
  simp only [Context.tally] at honce
  simp only [Context.behind, filter_head hc (by omega), List.flatMap_cons, List.flatMap_nil,
    List.append_nil]

variable {q : Queue}

/-- An entry leaves its queue with the members behind it. -/
theorem unlink_tally (hs : Sound ctx) {p : Pdu} (hp : p ∈ ctx.heads q)
    (hcur : ctx.current p.id = 0) (i : Nat) :
    (ctx.unlink q p.id).tally i + ((p :: ctx.behind q p.id).map Pdu.id).count i = ctx.tally i := by
  have honce := hs.once p.id
  simp only [Context.tally] at honce
  cases q with
  | out =>
    obtain ⟨c, hc, rfl⟩ := List.mem_map.mp hp
    have hwithout := occ_without hc (by omega) i
    have hsame : (ctx.unlink .out c.head.id).current i = ctx.current i :=
      Context.current_congr rfl i
    rw [behind_rest hs hc]
    simp only [Context.tally, hsame]
    simp only [Context.unlink]
    simp only [Chain.ids, Chain.members] at hwithout
    omega
  | wait =>
    have hp' : p ∈ ctx.waitqueue := hp
    have hsplit := count_filter_split ctx.waitqueue p.id i
    have hone := filter_id hp' (by omega)
    have hsame : (ctx.unlink .wait p.id).current i = ctx.current i :=
      Context.current_congr rfl i
    rw [hone] at hsplit
    simp only [Context.tally, hsame, Context.behind]
    simp only [Context.unlink]
    by_cases hi : i = p.id
    · subst hi
      omega
    · have hother : (([p] : List Pdu).map Pdu.id).count i = 0 := by
        simp only [List.map_cons, List.map_nil]
        rw [List.count_eq_zero]
        simpa using hi
      omega

theorem freePdu_absent {id : Nat} (h : ctx.occurs id = 0) :
    (ctx.freePdu id).outqueue = ctx.outqueue ∧ (ctx.freePdu id).waitqueue = ctx.waitqueue := by
  simp only [Context.occurs] at h
  constructor
  · refine List.filter_eq_self.mpr ?_
    intro c hc
    have hne := occ_ne_zero_of_mem hc
    simp only [bne_iff_ne, ne_eq]
    intro he
    rw [he] at hne
    omega
  · refine List.filter_eq_self.mpr ?_
    intro p hp
    simp only [bne_iff_ne, ne_eq]
    intro he
    have hpos := List.count_pos_iff.mpr (List.mem_map.mpr ⟨p, hp, he⟩)
    omega

theorem noteRelease_library (ctx : Context) {ps : List Pdu} (h : ∀ p ∈ ps, p.callerFrees = false) :
    Logged Release.Rightful ctx.releases (ctx.noteRelease false ps).releases := by
  refine ⟨_, rfl, ?_⟩
  intro r hr howned
  obtain ⟨p, hp, rfl⟩ := List.mem_map.mp hr
  have hcaller : p.callerFrees = true := howned
  rw [h p hp] at hcaller
  cases hcaller

theorem discard_tally {id : Nat} (h : ctx.occurs id = 0) (b : Bool) (ps : List Pdu) (i : Nat) :
    ((ctx.freePdu id).noteRelease b ps).tally i = ctx.tally i + (ps.map Pdu.id).count i := by
  obtain ⟨hout, hwait⟩ := freePdu_absent h
  have hcur : ((ctx.freePdu id).noteRelease b ps).current i = ctx.current i :=
    Context.current_congr rfl i
  simp only [Context.tally, hcur, noteRelease_count]
  simp only [Context.noteRelease, hout, hwait]
  simp only [Context.freePdu]
  omega

/-- **An entry that expires is released once**, if nobody else has a right to it. -/
theorem expire_conserves {p : Pdu} (hc : ctx.isServer = false) (hs : Sound ctx)
    (hf : ctx.fault = none) (hp : p ∈ ctx.heads q) (hcur : ctx.current p.id = 0)
    (hown : ∀ r ∈ p :: ctx.behind q p.id, r.callerFrees = false)
    (ho : Proper (expire K q p ctx).log) : Conserves ctx (expire K q p ctx) := by
  have htally := unlink_tally hs hp hcur
  have hid := unlink_nextId ctx q p.id
  have hrel : (ctx.unlink q p.id).releases = ctx.releases := by
    cases q <;> rfl
  have hu : Sound (ctx.unlink q p.id) := by
    constructor
    · intro i
      have h₁ := htally i
      have h₂ := hs.once i
      omega
    · intro i hi
      have h₁ := htally i
      have h₂ := hs.fresh i (by omega)
      omega
  have hfu : (ctx.unlink q p.id).fault = none := by
    cases q <;> exact hf
  have hcu : (ctx.unlink q p.id).isServer = false := by
    cases q <;> exact hc
  unfold expire at ho ⊢
  split
  · exact .raise (by decide)
  · rename_i hcb
    simp only [hcb, if_false] at ho ⊢
    split
    · rename_i hf'
      simp only [hf', if_true] at ho
      have hcall := invokeApp_conserves p STATUS_IO_TIMEOUT hcu hu hfu
        (ho.earlier (List.prefix_append _ _))
      have hb := hcall.balanced hf'
      -- the request is nowhere any more, so that freeing it moves nothing else
      have hgone : (invokeApp K p STATUS_IO_TIMEOUT (ctx.unlink q p.id)).tally p.id = 0 := by
        have h₁ := htally p.id
        have h₂ := hs.once p.id
        have h₃ := hs.fresh p.id
        have h₄ : 0 < ((p :: ctx.behind q p.id).map Pdu.id).count p.id :=
          List.count_pos_iff.mpr (List.mem_cons_self ..)
        have h₅ := hb.nextId
        rw [hb.tally]
        split <;> omega
      have habs : (invokeApp K p STATUS_IO_TIMEOUT (ctx.unlink q p.id)).occurs p.id = 0 := by
        simp only [Context.tally] at hgone
        simp only [Context.occurs]
        omega
      have hfree := discard_tally habs false (p :: ctx.behind q p.id)
      refine .of_balanced hf (hf'.trans hf.symm) ⟨hid ▸ hb.nextId, ?_, ?_⟩
      · intro i
        have h₁ := htally i
        have h₂ := hb.tally i
        rw [hid] at h₂
        rw [hfree]
        show _ = _ + (if ctx.nextId ≤ i ∧
          i < (invokeApp K p STATUS_IO_TIMEOUT (ctx.unlink q p.id)).nextId then 1 else 0)
        omega
      · have h₁ := hb.releases
        rw [hrel] at h₁
        exact h₁.trans (noteRelease_library _ hown)
    · rename_i hf'
      simp only [hf', if_false] at ho
      exact ⟨(invokeApp_conserves p STATUS_IO_TIMEOUT hcu hu hfu ho).stale, fun h => absurd h hf'⟩

/-! ### The entry that a loop goes on with -/

theorem accepted_wait (ctx : Context) (c : Chain) (rest : List Chain) (n : Nat) :
    ctx.waitqueue <+: (accepted ctx c rest n).waitqueue := by
  rcases accepted_eq ctx c rest n with ⟨wire, credits, ledger, he | he⟩ <;> rw [he]
  · simp only
    split
    · exact List.prefix_refl _
    · exact List.prefix_append _ _

theorem writeToSocket_wait (ctx : Context) :
    ctx.waitqueue <+: (writeToSocket ctx).1.waitqueue :=
  (WriteRule.of_trans (R := fun a b => a.waitqueue <+: b.waitqueue) (fun _ => List.prefix_refl _)
    List.IsPrefix.trans (fun _ => List.prefix_refl _) (fun _ => List.prefix_refl _)
    (fun n _ _ => accepted_wait _ _ _ n) (fun _ _ => List.prefix_refl _)).writeToSocket_rel trivial

theorem Context.mem_ids_of_subset {j : Nat} (hj : j ∈ ctx.ids q)
    (ho : q = .out → ∀ c ∈ ctx.outqueue, c ∈ ctx'.outqueue)
    (hw : q = .wait → ∀ p ∈ ctx.waitqueue, p ∈ ctx'.waitqueue) : j ∈ ctx'.ids q := by
  obtain ⟨p, hp, hid⟩ := List.mem_map.mp hj
  cases q with
  | out =>
    obtain ⟨c, hc, rfl⟩ := List.mem_map.mp hp
    exact List.mem_map.mpr ⟨c.head, List.mem_map.mpr ⟨c, ho rfl c hc, rfl⟩, hid⟩
  | wait => exact List.mem_map.mpr ⟨p, hw rfl p hp, hid⟩

/-- Queueing takes nothing off a queue that a loop is walking. -/
theorem queuePdu_ids {j : Nat} {c : Chain} (hc : ctx.isServer = false)
    (hf : ctx.fault = none) (hj : j ∈ ctx.ids q)
    (hf' : (queuePdu K ctx c).fault = none) : j ∈ (queuePdu K ctx c).ids q := by
  have hcl : (ctx.emit (.queued c ctx.security)).isServer = true → False := by
    intro h
    rw [show (ctx.emit (.queued c ctx.security)).isServer = ctx.isServer from rfl, hc] at h
    cases h
  have hc' : (ctx.emit (.queued c ctx.security)).isServer = false := hc
  have hprep := preparePdu_quiet (G := False) (K := K) (ctx.emit (.queued c ctx.security)) c hcl
  unfold queuePdu at hf' ⊢
  simp only [hc', Bool.false_and, Bool.false_eq_true, if_false] at hf' ⊢
  rcases hprep with hov | hq
  · simp only [hov.fault, if_false] at hf'
  · obtain ⟨ho, hw, _⟩ := hq.same not_false
    have hok := hq.fault.trans hf
    simp only [hok, if_true] at hf' ⊢
    unfold addToOutqueue
    simp only
    split
    · rename_i hempty
      -- the queue was empty: no loop is walking it
      refine Context.mem_ids_of_subset hj ?_ ?_
      · rintro rfl c hc
        rw [ho] at hempty
        rw [show ctx.outqueue = [] from hempty] at hc
        cases hc
      · rintro rfl p hp
        refine (writeToSocket_wait _).subset ?_
        simp only [hw]
        exact hp
    · refine Context.mem_ids_of_subset hj ?_ ?_
      · rintro rfl c hc
        refine List.mem_append_left _ ?_
        rw [ho]
        exact hc
      · rintro rfl p hp
        simp only [hw]
        exact hp

theorem freePdu_ids {id j : Nat} (hj : j ∈ ctx.ids q) (hne : j ≠ id) :
    j ∈ (ctx.freePdu id).ids q := by
  obtain ⟨p, hp, rfl⟩ := List.mem_map.mp hj
  cases q with
  | out =>
    obtain ⟨c, hc, rfl⟩ := List.mem_map.mp hp
    refine List.mem_map.mpr ⟨c.head, List.mem_map.mpr ⟨c, ?_, rfl⟩, rfl⟩
    exact List.mem_filter.mpr ⟨hc, by simpa using hne⟩
  | wait => exact List.mem_map.mpr ⟨p, List.mem_filter.mpr ⟨hp, by simpa using hne⟩, rfl⟩

theorem unlink_ids {id j : Nat} (hj : j ∈ ctx.ids q) (hne : j ≠ id) :
    j ∈ (ctx.unlink q id).ids q := by
  have h := freePdu_ids hj hne
  cases q with
  | out => exact h
  | wait => exact h

theorem act_ids {j : Nat} {a : Action} (hc : ctx.isServer = false)
    (hf : ctx.fault = none) (hj : j ∈ ctx.ids q) (ha : a ≠ .free j)
    (hf' : (act K ctx a).fault = none) : j ∈ (act K ctx a).ids q := by
  have hsame : ∀ ctx' : Context, ctx'.outqueue = ctx.outqueue → ctx'.waitqueue = ctx.waitqueue →
      j ∈ ctx'.ids q := by
    intro ctx' ho hw
    refine Context.mem_ids_of_subset hj ?_ ?_
    · rintro - c hmem
      rw [ho]
      exact hmem
    · rintro - p hmem
      rw [hw]
      exact hmem
  unfold act at hf' ⊢
  cases a with
  | alloc command body cb creditCharge inIov =>
    simp only [perform, Context.allocatePdu]
    split
    · rename_i e
      split at e
      · cases e
      · cases e
        exact hsame _ rfl rfl
    · rename_i e
      split at e
      · cases e
        exact hsame _ rfl rfl
      · cases e
  | compound pdu nextPdu =>
    simp only [perform]
    split <;> exact hsame _ rfl rfl
  | queue pdu =>
    simp only [perform] at hf' ⊢
    split
    · rename_i c hfc
      simp only [hfc] at hf'
      exact queuePdu_ids hc hf (hsame _ rfl rfl) hf'
    · exact hsame _ rfl rfl
  | free pdu =>
    have hne : j ≠ pdu := by
      rintro rfl
      exact ha rfl
    have hfree : ∀ ctx' : Context, ctx'.outqueue = (ctx.freePdu pdu).outqueue →
        ctx'.waitqueue = (ctx.freePdu pdu).waitqueue → j ∈ ctx'.ids q := by
      intro ctx' ho hw
      refine Context.mem_ids_of_subset (freePdu_ids hj hne) ?_ ?_
      · rintro - c hmem
        rw [ho]
        exact hmem
      · rintro - p hmem
        rw [hw]
        exact hmem
    simp only [perform]
    split
    · exact hsame _ rfl rfl
    · split
      · exact hfree _ rfl rfl
      · split <;> exact hsame _ rfl rfl
  | setSign b => exact hsame _ rfl rfl
  | setSeal b => exact hsame _ rfl rfl
  | setTimeout s => exact hsame _ rfl rfl
  | tick s => exact hsame _ rfl rfl
  | close => exact hsame _ rfl rfl

theorem runActions_ids {j : Nat} (as : List Action) (hc : ctx.isServer = false)
    (hf : ctx.fault = none) (hj : j ∈ ctx.ids q) (has : ∀ a ∈ as, a ≠ .free j)
    (hf' : (runActions K ctx as).fault = none) : j ∈ (runActions K ctx as).ids q := by
  induction as generalizing ctx with
  | nil => exact hj
  | cons a as ih =>
    simp only [runActions, hf, if_true] at hf' ⊢
    have hrun : Steps K True (act K ctx a) (runActions K (act K ctx a) as) :=
      runActions_steps as _ (fun _ => trivial)
    have hfa := hrun.keeps.fault_before hf'
    have hact := act_steps (K := K) (G := True) a (fun _ => trivial) hf
    exact ih (hact.keeps.isServer.trans hc) hfa
      (act_ids hc hf hj (has a (List.mem_cons_self ..)) hfa)
      (fun b hb => has b (List.mem_cons_of_mem _ hb)) hf'

/-- A callback that does not free the next entry leaves it where it is. -/
theorem expire_ids {p : Pdu} {j : Nat} (hc : ctx.isServer = false)
    (hf : ctx.fault = none) (hj : j ∈ ctx.ids q) (hne : j ≠ p.id)
    (has : ∀ a ∈ ctx.env.reactions.headD [], a ≠ .free j)
    (hf' : (expire K q p ctx).fault = none) : j ∈ (expire K q p ctx).ids q := by
  unfold expire at hf' ⊢
  split at hf'
  · cases hf'
  · rename_i hcb
    simp only [hcb, if_false] at hf' ⊢
    split at hf'
    · rename_i hfa
      simp only [hfa, if_true]
      have hcall : j ∈ (invokeApp K p STATUS_IO_TIMEOUT (ctx.unlink q p.id)).ids q := by
        have hju := unlink_ids hj hne
        have hfu : (ctx.unlink q p.id).fault = none := by
          cases q <;> exact hf
        have hcu : (ctx.unlink q p.id).isServer = false := by
          cases q <;> exact hc
        have hre : (ctx.unlink q p.id).env = ctx.env := by
          cases q <;> rfl
        unfold invokeApp react at hfa ⊢
        simp only [Context.emit, hre] at hfa ⊢
        cases hr : ctx.env.reactions with
        | nil =>
          simp only [hr] at hfa ⊢
          refine Context.mem_ids_of_subset hju ?_ ?_
          · exact fun _ c hc => hc
          · exact fun _ r hr => hr
        | cons as rest =>
          simp only [hr] at hfa ⊢
          refine runActions_ids as hcu hfu ?_ ?_ hfa
          · refine Context.mem_ids_of_subset hju ?_ ?_
            · exact fun _ c hc => hc
            · exact fun _ r hr => hr
          · intro a ha
            refine has a ?_
            rw [hr]
            exact ha
      exact freePdu_ids hcall hne
    · rename_i hfa
      exact absurd hf' hfa

theorem expire_isServer (q : Queue) (p : Pdu) (ctx : Context) :
    (expire K q p ctx).isServer = ctx.isServer := by
  have hu := (unlink_keeps ctx q p.id).isServer
  have hcall := (invokeApp_grows (K := K) p STATUS_IO_TIMEOUT (ctx.unlink q p.id)).isServer
  unfold expire
  split
  · rfl
  · simp only
    split
    · exact hcall.trans hu
    · exact hcall.trans hu

/-- One turn of a timeout loop. -/
theorem lapse_conserves {p : Pdu} {next : Option Nat} {l : Lapse}
    (hc : ctx.isServer = false) (hs : Sound ctx) (hf : ctx.fault = none) (hp : p ∈ ctx.heads q)
    (hl : ctx.lapse q p next = l) (hord : Event.proper (.lapsed l) = true)
    (ho : Proper (expire K q p (ctx.emit (.lapsed l))).log) :
    Conserves ctx (expire K q p (ctx.emit (.lapsed l))) := by
  obtain ⟨hown, hcurrent, _⟩ := of_decide_eq_true hord
  subst hl
  have hcur : ctx.current p.id = 0 := by
    simp only [Context.lapse, beq_eq_false_iff_ne, ne_eq] at hcurrent
    simp only [Context.current, hcurrent, if_false]
  have hemit : Balanced ctx (ctx.emit (.lapsed (ctx.lapse q p next))) :=
    .of_same rfl rfl rfl rfl rfl rfl rfl
  have hc' : (ctx.emit (.lapsed (ctx.lapse q p next))).isServer = false := hc
  have hbehind : (ctx.emit (.lapsed (ctx.lapse q p next))).behind q p.id = ctx.behind q p.id := by
    cases q <;> rfl
  refine hemit.conserves (expire_conserves hc' (hs.after hemit) hf ?_ hcur ?_ ho)
  · rw [emit_heads]
    exact hp
  · rw [hbehind]
    exact hown

theorem lapse_ids {p : Pdu} {next : Option Nat} {l : Lapse} {j : Nat}
    (hc : ctx.isServer = false) (hf : ctx.fault = none) (hl : ctx.lapse q p next = l)
    (hord : Event.proper (.lapsed l) = true) (hj : j ∈ ctx.ids q) (hne : j ≠ p.id)
    (hnext : next = some j)
    (hf' : (expire K q p (ctx.emit (.lapsed l))).fault = none) :
    j ∈ (expire K q p (ctx.emit (.lapsed l))).ids q := by
  obtain ⟨_, _, hnofree⟩ := of_decide_eq_true hord
  subst hl hnext
  have hc' : (ctx.emit (.lapsed (ctx.lapse q p (some j)))).isServer = false := hc
  refine expire_ids hc' hf ?_ hne ?_ hf'
  · simp only [Context.ids, emit_heads]
    exact hj
  · intro a ha hfree
    subst hfree
    simp only [Context.lapse, Option.any_some, List.any_eq_false] at hnofree
    exact hnofree _ ha (by simp)

/-- **A timeout loop is balanced**: it never follows a stale pointer, and every request that it
takes off a queue is released. -/
theorem timeoutLoop_conserves {t : Nat} (fuel : Nat) (cur : Option Nat)
    (hc : ctx.isServer = false) (hs : Sound ctx) (hf : ctx.fault = none)
    (hcur : ∀ j, cur = some j → j ∈ ctx.ids q)
    (ho : Proper (timeoutLoop K q t fuel cur ctx).log) :
    Conserves ctx (timeoutLoop K q t fuel cur ctx) := by
  induction fuel generalizing cur ctx with
  | zero =>
    cases cur with
    | none => exact .refl hf
    | some i => exact .raise (by decide)
  | succ fuel ih =>
    cases cur with
    | none => exact .refl hf
    | some id =>
      have hmem := hcur id rfl
      unfold timeoutLoop at ho ⊢
      split
      · rename_i hnil
        obtain ⟨r, hr, hid⟩ := List.mem_map.mp hmem
        have hall := List.dropWhile_eq_nil_iff.mp hnil r hr
        simp [hid] at hall
      · rename_i p tail hdw
        simp only [hdw] at ho
        have hp : p ∈ ctx.heads q :=
          (List.dropWhile_sublist _).subset (hdw ▸ List.mem_cons_self ..)
        have htail : ∀ r ∈ tail, r ∈ ctx.heads q := by
          intro r hr
          exact (List.dropWhile_sublist _).subset (hdw ▸ List.mem_cons_of_mem _ hr)
        have hnext : ∀ j, tail.head?.map Pdu.id = some j → j ∈ ctx.ids q ∧ j ≠ p.id := by
          intro j hj
          cases tail with
          | nil => cases hj
          | cons r tail =>
            simp only [List.head?_cons, Option.map_some, Option.some.injEq] at hj
            subst hj
            refine ⟨List.mem_map.mpr ⟨r, htail r (List.mem_cons_self ..), rfl⟩, ?_⟩
            have hnodup := (hs.distinct.nodup_ids q).sublist
              ((List.dropWhile_sublist fun p : Pdu => p.id != id).map Pdu.id)
            rw [hdw] at hnodup
            simp only [List.map_cons, List.nodup_cons, List.mem_cons, not_or] at hnodup
            exact fun h => hnodup.1.1 h.symm
        simp only at ho ⊢
        by_cases hold : p.timeout ≠ 0 ∧ p.timeout < t
        · rw [if_pos hold] at ho ⊢
          generalize hl : ctx.lapse q p (tail.head?.map Pdu.id) = l at ho ⊢
          have hexp : Event.lapsed l ∈ (expire K q p (ctx.emit (.lapsed l))).log :=
            (expire_log q p _).subset (List.mem_append_right _ (List.mem_singleton.mpr rfl))
          by_cases hf' : (expire K q p (ctx.emit (.lapsed l))).fault = none
          · rw [if_pos hf'] at ho ⊢
            have hlog := timeoutLoop_log (K := K) (q := q) (t := t) fuel (tail.head?.map Pdu.id)
              (expire K q p (ctx.emit (.lapsed l)))
            have horderly := ho _ (hlog.subset hexp)
            have hconserves := lapse_conserves hc hs hf hp hl horderly (ho.earlier hlog)
            have hb := hconserves.balanced hf'
            refine hb.conserves (ih _ ?_ (hs.after hb) hf' ?_ ho)
            · exact (expire_isServer q p _).trans hc
            · intro j hj
              obtain ⟨hmem', hne⟩ := hnext j hj
              exact lapse_ids hc hf hl horderly hmem' hne hj hf'
          · rw [if_neg hf'] at ho ⊢
            exact lapse_conserves hc hs hf hp hl (ho _ hexp) ho
        · rw [if_neg hold] at ho ⊢
          exact ih _ hc hs hf (fun j hj => (hnext j hj).1) ho

theorem timeoutPdus_conserves (hc : ctx.isServer = false) (hs : Sound ctx) (hf : ctx.fault = none)
    (ho : Proper (timeoutPdus K ctx).log) : Conserves ctx (timeoutPdus K ctx) := by
  have hhead : ∀ (c : Context) (q : Queue) (j : Nat),
      (c.heads q).head?.map Pdu.id = some j → j ∈ c.ids q := by
    intro c q j hj
    cases hh : c.heads q with
    | nil =>
      rw [hh] at hj
      cases hj
    | cons p ps =>
      rw [hh] at hj
      simp only [List.head?_cons, Option.map_some, Option.some.injEq] at hj
      simp only [Context.ids, hh, List.map_cons, hj]
      exact List.mem_cons_self ..
  unfold timeoutPdus at ho ⊢
  simp only at ho ⊢
  by_cases hf' : (timeoutQueue K .out ctx.now ctx).fault = none
  · rw [if_pos hf'] at ho ⊢
    have hlog := timeoutLoop_log (K := K) (q := .wait) (t := ctx.now)
      ((timeoutQueue K .out ctx.now ctx).pending + 1)
      (((timeoutQueue K .out ctx.now ctx).heads .wait).head?.map Pdu.id)
      (timeoutQueue K .out ctx.now ctx)
    have hout := timeoutLoop_conserves (K := K) (q := .out) (t := ctx.now) _ _ hc hs hf
      (hhead ctx .out) (ho.earlier hlog)
    have hb := hout.balanced hf'
    have hc' : (timeoutQueue K .out ctx.now ctx).isServer = false := by
      have hsteps := timeoutQueue_steps (K := K) (G := True) (q := .out) (t := ctx.now)
        (fun _ => trivial) hs.distinct hf
      exact hsteps.keeps.isServer.trans hc
    exact hb.conserves (timeoutLoop_conserves _ _ hc' (hs.after hb) hf' (hhead _ .wait) ho)
  · rw [if_neg hf'] at ho ⊢
    exact timeoutLoop_conserves _ _ hc hs hf (hhead ctx .out) ho

/-! ## Reading -/

/-- A request is made for the reply that has come in. -/
theorem adopt_balanced (p : Pdu) (hid : p.id = ctx.nextId) (hs : Sound ctx) (hp : ctx.pdu = none) :
    Balanced ctx { ctx with pdu := some p, nextId := ctx.nextId + 1 } := by
  refine ⟨Nat.le_succ _, ?_, .refl _⟩
  intro i
  have hfresh := hs.fresh i
  have hnone : ctx.current i = 0 := by simp [Context.current, hp]
  simp only [Context.tally, hnone] at hfresh ⊢
  simp only [Context.current, Option.map_some, Option.some.injEq, hid]
  by_cases hi : ctx.nextId = i
  · have hin : ctx.nextId ≤ i ∧ i < ctx.nextId + 1 := by omega
    rw [if_pos hi, if_pos hin]
    omega
  · have hin : ¬ (ctx.nextId ≤ i ∧ i < ctx.nextId + 1) := by omega
    rw [if_neg hi, if_neg hin]
    omega

/-- The reply of a client takes its request off the wait queue, or is given one of its own. -/
theorem matchReply_balanced (hdr : Header) (hs : Sound ctx) (hp : ctx.pdu = none) :
    Balanced ctx (matchReply ctx hdr).ctx ∧ (matchReply ctx hdr).ctx.fault = ctx.fault := by
  have hnone : ∀ i, ctx.current i = 0 := by
    intro i
    simp [Context.current, hp]
  unfold matchReply
  split
  · simp only [hp, Context.allocatePdu]
    by_cases hm : ctx.allocOk = true
    · simp only [hm, if_true]
      have hpop : Balanced ctx ctx.popMem := .of_same rfl rfl rfl rfl rfl rfl rfl
      exact ⟨hpop.trans (adopt_balanced _ rfl (hs.after hpop) hp), rfl⟩
    · simp only [hm]
      exact ⟨.of_same rfl rfl rfl rfl rfl rfl rfl, rfl⟩
  · simp only [dropPdu, hp]
    unfold claimPdu
    split
    · exact ⟨.refl ctx, rfl⟩
    · rename_i p hfind
      have hmem : p ∈ ctx.waitqueue := List.mem_of_find?_eq_some hfind
      have hpos : 0 < (ctx.waitqueue.map Pdu.id).count p.id :=
        List.count_pos_iff.mpr (List.mem_map.mpr ⟨p, hmem, rfl⟩)
      have honce := hs.once p.id
      simp only [Context.tally] at honce
      split
      · refine ⟨.of_moved rfl ?_ (.refl _), rfl⟩
        intro i
        have hi := hnone i
        simp only [Context.tally, hi]
        simp only [Match.ctx, Context.current, Option.map_some, Option.some.injEq]
        by_cases hid : p.id = i
        · subst hid
          rw [if_pos rfl]
          omega
        · rw [if_neg hid]
      · refine ⟨.of_moved rfl ?_ (.refl _), rfl⟩
        intro i
        have hi := hnone i
        simp only [Context.tally, hi]
        simp only [Match.ctx, Context.delist, Context.current, Option.map_some, Option.some.injEq]
        by_cases hid : p.id = i
        · subst hid
          have hself := count_filter_self ctx.waitqueue p.id
          rw [if_pos rfl]
          omega
        · have hother := count_filter_other (l := ctx.waitqueue) (fun h => hid h.symm)
          rw [if_neg hid]
          omega

/-- The callback of the current request has returned: the request goes to its caller, or is
released. -/
theorem retirePdu_balanced {p : Pdu} (hs : Sound ctx) (hp : ctx.pdu = some p)
    (hw : p.callerFrees = true → ctx.occurs p.id = 0) :
    Balanced ctx { ctx.retirePdu p with pdu := none } := by
  have hcur : ∀ i, ctx.current i = if p.id = i then 1 else 0 := by
    intro i
    simp only [Context.current, hp, Option.map_some, Option.some.injEq]
  have honce := hs.once p.id
  have hone := hcur p.id
  rw [if_pos rfl] at hone
  simp only [Context.tally] at honce
  unfold Context.retirePdu
  by_cases hown : p.callerFrees = true
  · have habs := hw hown
    simp only [Context.occurs] at habs
    simp only [hown, if_true]
    refine .of_moved rfl ?_ (.refl _)
    intro i
    simp only [Context.tally, hcur i]
    simp only [Context.current, Option.map_none, List.count_append, List.count_singleton]
    by_cases hi : p.id = i
    · subst hi
      simp
      omega
    · simp [hi]
  · simp only [hown, Bool.false_eq_true, if_false]
    have hown' : p.callerFrees = false := by simpa using hown
    refine .of_moved rfl ?_ (noteRelease_library (ctx.freePdu p.id) (by simpa using hown'))
    intro i
    have hsplit := occ_filter_split ctx.outqueue (fun c => c.head.id == p.id) i
    rw [filter_other_head (by omega), bne_filter, occ_nil] at hsplit
    simp only [Context.tally, hcur i, noteRelease_count]
    simp only [Context.noteRelease, Context.freePdu, Context.current, Option.map_none,
      List.map_cons, List.map_nil, List.count_singleton]
    by_cases hi : p.id = i
    · subst hi
      have hself := count_filter_self ctx.waitqueue p.id
      simp
      omega
    · have hother := count_filter_other (l := ctx.waitqueue) (fun h => hi h.symm)
      simp [hi]
      omega

theorem retirePdu_fault (ctx : Context) (p : Pdu) : (ctx.retirePdu p).fault = ctx.fault := by
  unfold Context.retirePdu
  split <;> rfl

/-- **Reading is balanced.** -/
theorem CtxStep.conserves (hstep : CtxStep (appHooks K D) True ctx ctx') (hc : ctx.isServer = false)
    (hs : Sound ctx) (hf : ctx.fault = none) (ho : Proper ctx'.log) : Conserves ctx ctx' := by
  cases hstep with
  | note hdr =>
    obtain ⟨cur, mid, he⟩ := noteHeader_eq ctx hdr
    rw [he]
    exact .of_balanced hf rfl (.of_same rfl rfl rfl rfl rfl rfl rfl)
  | grant hdr =>
    unfold grantCredits
    split
    · exact .refl hf
    · exact .of_balanced hf rfl (.of_same rfl rfl rfl rfl rfl rfl rfl)
  | adopt p hdr hsv hp =>
    rw [hc] at hsv
    cases hsv
  | matched hdr _ hp =>
    obtain ⟨hb, hf'⟩ := matchReply_balanced hdr hs (hp trivial)
    exact .of_balanced hf hf' hb
  | decoded p d hp =>
    obtain ⟨_, _, _, _, he⟩ := applyEffects_eq ctx d.effects
    simp only [applyDecoded, he]
    refine .of_balanced hf rfl (.of_moved rfl ?_ (.refl _))
    intro i
    simp only [Context.tally, Context.current, hp, Option.map_some]
  | opened => exact .of_balanced hf rfl (.of_same rfl rfl rfl rfl rfl rfl rfl)
  | replied rx p _ hp hcb hst hap =>
    have hretire := retirePdu_grows (invokeCallback K p rx.hdr.status ctx) p
    have hcall := invokeCallback_conserves p rx.hdr.status hc hs hf (ho.earlier hretire.log)
    have hfault : (afterReply (appHooks K D) rx p ctx).fault =
        (invokeCallback K p rx.hdr.status ctx).fault := retirePdu_fault _ p
    refine ⟨by rw [hfault]; exact hcall.stale, ?_⟩
    intro hf'
    rw [hfault] at hf'
    have hb := hcall.balanced hf'
    have hrun := invokeCallback_steps (K := K) (G := True) p rx.hdr.status ctx (fun _ => trivial)
    refine hb.trans (retirePdu_balanced (hs.after hb) (hrun.keeps.pdu.trans hp) ?_)
    -- the callback cannot put the current request back on a queue
    intro hown
    have hone : ctx.current p.id = 1 := by simp [Context.current, hp]
    have hwait := List.count_eq_zero.mpr (hap trivial p hp hown)
    have honce := hs.once p.id
    have hfresh := hs.fresh p.id
    simp only [Context.tally] at honce hfresh
    refine (hrun.absent hf' ?_ ?_).2
    · show p.id < ctx.nextId
      omega
    · show ctx.occurs p.id = 0
      simp only [Context.occurs]
      omega
  | served rx p hsv hp hcb =>
    rw [hc] at hsv
    cases hsv
  | interim rx p hpt hfind hcb hn => exact invokeCallback_conserves p rx.hdr.status hc hs hf ho

theorem invokeCallback_of_fault (p : Pdu) (status : Nat) (hf : ctx.fault ≠ none) :
    (invokeCallback K p status ctx).fault = ctx.fault := by
  have happ : (invokeApp K p status ctx).fault = ctx.fault := by
    unfold invokeApp react
    split
    · rfl
    · rename_i as rest _
      have hf' : ((ctx.emit (.completed p.id status)).setReactions rest).fault ≠ none := hf
      rw [runActions_of_fault as hf']
      rfl
  have hf' : (invokeApp K p status ctx).popBreak.fault ≠ none := by
    show (invokeApp K p status ctx).fault ≠ none
    rw [happ]
    exact hf
  unfold invokeCallback
  simp only
  rw [runActions_of_fault _ hf']
  exact happ

theorem matchReply_fault (ctx : Context) (hdr : Header) :
    (matchReply ctx hdr).ctx.fault = ctx.fault := by
  have hdrop : (dropPdu ctx).fault = ctx.fault := by
    unfold dropPdu
    split <;> rfl
  have hl := matchReply_lookup ctx hdr
  generalize matchReply ctx hdr = m at hl ⊢
  cases hl with
  | unknown hu hf => exact hdrop
  | outOfOrder p hu hf => exact hdrop
  | claimed p hu hf hprev => exact hdrop
  | _ => rfl

/-- A fault stays. -/
theorem CtxStep.of_fault (hstep : CtxStep (appHooks K D) True ctx ctx') (hc : ctx.isServer = false)
    (hf : ctx.fault ≠ none) : ctx'.fault = ctx.fault := by
  cases hstep with
  | note hdr =>
    obtain ⟨cur, mid, he⟩ := noteHeader_eq ctx hdr
    rw [he]
  | grant hdr =>
    unfold grantCredits
    split <;> rfl
  | adopt p hdr hsv hp => rfl
  | matched hdr _ hp => exact matchReply_fault ctx hdr
  | decoded p d hp =>
    obtain ⟨_, _, _, _, he⟩ := applyEffects_eq ctx d.effects
    simp only [applyDecoded, he]
  | opened => rfl
  | replied rx p _ hp hcb hst hap =>
    exact (retirePdu_fault _ p).trans (invokeCallback_of_fault p rx.hdr.status hf)
  | served rx p hsv hp hcb =>
    rw [hc] at hsv
    cases hsv
  | interim rx p hpt hfind hcb hn => exact invokeCallback_of_fault p rx.hdr.status hf

theorem CtxSteps.conserves (hrun : CtxSteps (appHooks K D) True ctx ctx') (hc : ctx.isServer = false)
    (hs : Sound ctx) (hf : ctx.fault = none) (ho : Proper ctx'.log) : Conserves ctx ctx' := by
  induction hrun with
  | refl => exact .refl hf
  | @tail mid last hrun hstep ih =>
    have hmid := ih (ho.earlier hstep.grows.log)
    have hc' : mid.isServer = false := (CtxSteps.grows hrun).isServer.trans hc
    by_cases hf' : mid.fault = none
    · have hb := hmid.balanced hf'
      exact hb.conserves (hstep.conserves hc' (hs.after hb) hf' ho)
    · have hlast := hstep.of_fault hc' hf'
      refine ⟨by rw [hlast]; exact hmid.stale, ?_⟩
      intro hnone
      rw [hlast] at hnone
      exact absurd hnone hf'

/-- The receive path of a client follows no stale pointer of its own. -/
theorem client_rule (h : Hooks) (K : Crypto) : ReadRule h K (fun s => s.ctx.isServer = false)
    (fun _ => True) (fun f s => f = .stalePdu → s.ctx.fault = some .stalePdu) where
  stored _ hc := hc
  started hc := by rw [start_ctx]; exact hc
  plain hc _ := hc
  phase xfrm off s hc _ := by
    have hb := phase_regular (h := h) (K := K) xfrm off s
    have hc' := (phase_isServer (h := h) (K := K) xfrm off s).trans hc
    cases hph : phase h K xfrm off s with
    | fail e s' => trivial
    | fault f s' =>
      rw [hph] at hb
      rintro rfl
      rcases hb with hb | hb
      · simp at hb
      · exact hb
    | _ =>
      rw [hph] at hc'
      exact hc'
  negotiate stale s hc hsv := by
    rw [hc] at hsv
    cases hsv
  fails _ := trivial
  faults _ := by simp

/-! ## Runs -/

theorem runOp_log (op : Op) (s : Session) (hf : s.ctx.fault = none) :
    s.ctx.log <+: (runOp K D s op).ctx.log := by
  cases op with
  | act a => exact (act_steps (G := True) a (fun _ => trivial) hf).keeps.log
  | write => exact (writeToSocket_steps (K := K) (G := True) s.ctx).keeps.log
  | timeout => exact timeoutPdus_log s.ctx
  | recv rs bs =>
    simp only [runOp]
    split
    · exact List.prefix_refl _
    · have hrun := readFromSocket_steps (h := appHooks K D) (K := K) (I := False) rs bs s.smb2 {}
        (Locals.sane_fresh _) (fun h => h.elim)
      cases hout : readFromSocket (appHooks K D) K rs bs s.smb2 {} with
      | waiting s' rest =>
        rw [hout] at hrun
        exact hrun.grows.log
      | failed e s' rest =>
        rw [hout] at hrun
        exact hrun.grows.log
      | faulted f s' rest =>
        rw [hout] at hrun
        exact hrun.grows.log

theorem runOps_log (ops : List Op) (s : Session) : s.ctx.log <+: (runOps K D s ops).ctx.log := by
  induction ops generalizing s with
  | nil => exact List.prefix_refl _
  | cons op ops ih =>
    by_cases hf : s.ctx.fault = none
    · simp only [runOps, hf, if_true]
      exact (runOp_log op s hf).trans (ih _)
    · rw [runOps_of_fault _ hf]

/-- **One operation is balanced.** -/
theorem runOp_conserves {s : Session} (op : Op) (hc : s.ctx.isServer = false) (hs : Steady Sound s)
    (hf : s.ctx.fault = none) (ho : Proper (runOp K D s op).ctx.log) :
    Conserves s.ctx (runOp K D s op).ctx := by
  cases op with
  | act a => exact act_conserves a hc hs.inv hf ho
  | write => exact writeToSocket_conserves hc hs.inv hf
  | timeout => exact timeoutPdus_conserves hc hs.inv hf ho
  | recv rs bs =>
    unfold runOp at ho ⊢
    by_cases hb : s.broken = true
    · simp only [hb, if_true]
      exact .refl hf
    · have hb' : s.broken = false := by simpa using hb
      simp only [hb', Bool.false_eq_true, if_false] at ho ⊢
      have hrun := readFromSocket_steps (h := appHooks K D) (K := K) (I := True) rs bs s.smb2 {}
        (Locals.sane_fresh _) (fun _ => hs.idle hb')
      have hends := (client_rule (appHooks K D) K).readFromSocket_ends rs bs s.smb2 {} hc
        (Locals.sane_fresh _)
      cases hout : readFromSocket (appHooks K D) K rs bs s.smb2 {} with
      | waiting s' rest =>
        rw [hout] at hrun ho
        exact hrun.conserves hc hs.inv hf ho
      | failed e s' rest =>
        rw [hout] at hrun ho
        exact hrun.conserves hc hs.inv hf ho
      | faulted f s' rest =>
        rw [hout] at hrun ho hends
        have hconserves := hrun.conserves hc hs.inv hf ho
        refine .raise ?_
        rintro rfl
        exact hconserves.stale (hends rfl)

/-- A context that has just been set up has released nothing. -/
structure Fresh (s : Session) : Prop extends Blank s where
  kept : s.ctx.kept = []
  releases : s.ctx.releases = []

theorem Fresh.tally {s : Session} (hb : Fresh s) (i : Nat) : s.ctx.tally i = 0 := by
  simp [Context.tally, Context.current, hb.kept, hb.releases, hb.held, hb.outqueue, hb.waitqueue,
    hb.pdu]

theorem Fresh.sound {s : Session} (hb : Fresh s) : Sound s.ctx :=
  ⟨fun i => by rw [hb.tally]; omega, fun i _ => hb.tally i⟩

/-- **A run is balanced.** -/
theorem runOps_conserves (ops : List Op) {s : Session} (hc : s.ctx.isServer = false)
    (hs : Steady Sound s) (hf : s.ctx.fault = none) (ho : Proper (runOps K D s ops).ctx.log) :
    Conserves s.ctx (runOps K D s ops).ctx := by
  induction ops generalizing s with
  | nil => exact .refl hf
  | cons op ops ih =>
    simp only [runOps, hf, if_true] at ho ⊢
    have hop := runOp_conserves op hc hs hf (ho.earlier (runOps_log ops _))
    by_cases hf' : (runOp K D s op).ctx.fault = none
    · have htriv : Invariant K D True (fun _ => True) (fun _ => True) :=
        ⟨fun _ _ => trivial, fun _ _ _ _ => trivial, fun _ _ _ _ _ _ => trivial⟩
      obtain ⟨hst, hgr⟩ := runOp_steady htriv (fun _ => trivial) (fun _ _ _ => hc)
        ⟨trivial, hs.distinct, hs.idle, hs.clear⟩ hf hf' trivial
      have hb := hop.balanced hf'
      have hs' : Steady Sound (runOp K D s op) :=
        ⟨hs.inv.after hb, hst.distinct, hst.idle, hst.clear⟩
      exact hb.conserves (ih (hgr.isServer.trans hc) hs' hf' ho)
    · rw [runOps_of_fault ops hf']
      exact hop

/-! ## The owners of the requests -/

/-- Who owns the requests of a client, from the first one it allocated on. -/
structure Owned (first : Nat) (ctx : Context) : Prop where
  /-- Each request was released once, or is in one place. -/
  once : ∀ i, first ≤ i → i < ctx.nextId → ctx.tally i = 1
  /-- No request was released twice. -/
  nodup : (ctx.releases.map Release.id).Nodup
  /-- Nothing refers to a request that was released. -/
  severed : ∀ r ∈ ctx.releases, occ ctx.held r.id = 0 ∧ occ ctx.outqueue r.id = 0 ∧
    r.id ∉ ctx.waitqueue.map Pdu.id ∧ ctx.pdu.map Pdu.id ≠ some r.id ∧ r.id ∉ ctx.kept
  /-- Only its caller has released a request that its caller has to free. -/
  rightful : ∀ r ∈ ctx.releases, r.owned = true → r.byCaller = true

theorem Sound.severed (hs : Sound ctx) {r : Release} (hr : r ∈ ctx.releases) :
    occ ctx.held r.id = 0 ∧ occ ctx.outqueue r.id = 0 ∧ r.id ∉ ctx.waitqueue.map Pdu.id ∧
      ctx.pdu.map Pdu.id ≠ some r.id ∧ r.id ∉ ctx.kept := by
  have hpos : 0 < (ctx.releases.map Release.id).count r.id :=
    List.count_pos_iff.mpr (List.mem_map.mpr ⟨r, hr, rfl⟩)
  have honce := hs.once r.id
  simp only [Context.tally] at honce
  refine ⟨by omega, by omega, ?_, ?_, ?_⟩
  · exact List.count_eq_zero.mp (by omega)
  · intro hcur
    have hone : ctx.current r.id = 1 := by simp [Context.current, hcur]
    omega
  · exact List.count_eq_zero.mp (by omega)

/-- **Requests are owned by one.**  In a run of a client whose application passes only requests
that it may pass, and in which nothing expires that its caller has to free, that is being
received, or whose callback frees what the loop goes on with, no stale pointer is followed and
every request is released once, by the one who has to. -/
theorem pdus_are_owned_once (K : Crypto) (D : Decoders) (s : Session) (ops : List Op)
    (hb : Fresh s) (hc : s.ctx.isServer = false) (ho : Proper (runOps K D s ops).ctx.log) :
    (runOps K D s ops).ctx.fault ≠ some .stalePdu ∧
      ((runOps K D s ops).ctx.fault = none → Owned s.ctx.nextId (runOps K D s ops).ctx) := by
  have hrun := runOps_conserves (K := K) (D := D) ops hc (hb.steady hb.sound) hb.fault ho
  refine ⟨hrun.stale, ?_⟩
  intro hf
  have hbal := hrun.balanced hf
  have hsound := hb.sound.after hbal
  refine ⟨?_, ?_, fun r hr => hsound.severed hr, ?_⟩
  · intro i hlo hhi
    rw [hbal.tally, hb.tally, if_pos ⟨hlo, hhi⟩]
  · refine List.nodup_iff_count_le_one.mpr ?_
    intro i
    have honce := hsound.once i
    simp only [Context.tally] at honce
    omega
  · obtain ⟨new, hnew, hright⟩ := hbal.releases
    intro r hr
    rw [hnew, hb.releases, List.nil_append] at hr
    exact hright r hr

end

/-! ## Two runs -/

/-- A client whose callbacks free nothing, and whose requests time out after five seconds. -/
def ownedClient : Session where
  smb2 := { ctx := {
    dialect := VERSION_0210
    credits := 10
    timeout := 5
    env := { tx := List.replicate 8 (.accept 1000) } } }

theorem ownedClient_fresh : Fresh ownedClient :=
  ⟨⟨rfl, rfl, rfl, rfl, rfl, rfl, rfl, rfl⟩, rfl, rfl⟩

/-- A request as `smb2_opendir` makes it. -/
def allocOwned (n : Nat) : Op := .act (.alloc .echo [echoBody] (.owned n) none [])

/-- A caller's request is answered and then freed by its caller, the second request is
cancelled, and the third times out. -/
def ownersInTurn : List Op :=
  [allocOwned 1, allocEcho 2, allocEcho 3, .act (.queue 1), .act (.queue 2), .act (.queue 3),
    .recv wholeReads (be32 68 ++ (echoHeader 0 0 1 (zeros 16)).encode ++ echoBody),
    .act (.free 1), .act (.free 2), .act (.tick 6), .timeout]

theorem ownersInTurn_own_once :
    Owned 1 (runOps echoCrypto plainDecoders ownedClient ownersInTurn).ctx ∧
      (runOps echoCrypto plainDecoders ownedClient ownersInTurn).ctx.releases =
        [⟨1, true, true⟩, ⟨2, false, true⟩, ⟨3, false, false⟩] :=
  ⟨(pdus_are_owned_once echoCrypto plainDecoders ownedClient ownersInTurn ownedClient_fresh rfl
    (by decide +kernel)).2 (by decide +kernel), by decide +kernel⟩

/-- A caller's request times out, and its caller frees it. -/
def ownedTimesOut : List Op :=
  [allocOwned 1, .act (.queue 1), .act (.tick 6), .timeout, .act (.free 1)]

/-- A request is cancelled while its reply is half received, and the rest arrives. -/
def cancelledInFlight : List Op :=
  [allocEcho 1, .act (.queue 1),
    .recv wholeReads (be32 68 ++ (echoHeader 0 0 1 (zeros 16)).encode), .act (.free 1)]

/-- **`smb2_timeout_pdus` frees what its caller has to free**, so that the caller frees it a
second time; and a request that is cancelled while its reply arrives is freed under
`smb2->pdu`. -/
theorem timeout_releases_callers_request :
    Fresh ownedClient ∧ ownedClient.ctx.isServer = false ∧
      (⟨1, true, false⟩ ∈
        (runOps echoCrypto plainDecoders ownedClient (ownedTimesOut.take 4)).ctx.releases) ∧
      (runOps echoCrypto plainDecoders ownedClient ownedTimesOut).ctx.fault = some .stalePdu ∧
      (runOps echoCrypto plainDecoders ownedClient cancelledInFlight).ctx.fault =
        some .stalePdu :=
  ⟨ownedClient_fresh, rfl, by decide +kernel, by decide +kernel, by decide +kernel⟩

end Libsmb2
