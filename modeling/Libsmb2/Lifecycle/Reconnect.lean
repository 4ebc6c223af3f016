import Libsmb2.Lifecycle.Numbering
import Libsmb2.Lifecycle.Routing

/-!
# Closing a context and connecting it again

`smb2_close_context` closes the transport and resets the message ids, the tree ids and the keys.
It leaves the queues, the vectors of a half-received frame and the position in a half-sent one as
they are, and so do the functions that connect a context.  What was left behind meets the new
connection.

* `reconnect_starts_clean` — **if nothing was queued, waiting or half received when the context
  was closed, the new connection starts with a length prefix, none of the requests of the old one
  is completed or sent any more, and no two requests in the queues have the same message id.**
* `old_callback_gets_new_reply` — if a request was waiting, the reply to the first request of the
  new connection runs its callback.
-/

set_option autoImplicit false

namespace Libsmb2

open Util Relation

/-! ## Requests that are gone -/

/-- The requests that an event completes or hands to the transport. -/
def Event.touches : Event → List Nat
  | .completed i _ => [i]
  | .offered c _ => c.ids
  | _ => []

def Event.spares (B : Nat → Prop) (e : Event) : Prop := ∀ i ∈ e.touches, ¬ B i

/-- The requests in `B` are gone: nothing refers to them, and nothing has happened to them since
the log was `l₀`. -/
structure Buried (B : Nat → Prop) (l₀ : List Event) (ctx : Context) : Prop where
  client : ctx.isServer = false
  absent : ∀ i, B i → i < ctx.nextId ∧ ctx.occurs i = 0
  current : ∀ p, ctx.pdu = some p → ¬ B p.id
  quiet : Logged (Event.spares B) l₀ ctx.log

section
variable {K : Crypto} {D : Decoders} {G I : Prop} {B : Nat → Prop} {l₀ : List Event}
  {ctx ctx' : Context}

/-- A change that refers to no other requests than before. -/
theorem Buried.of_le (h : Buried B l₀ ctx) (hsv : ctx'.isServer = ctx.isServer)
    (hid : ctx.nextId ≤ ctx'.nextId) (hocc : ∀ i, ctx'.occurs i ≤ ctx.occurs i)
    (hp : ctx'.pdu = ctx.pdu) (hlog : Logged (Event.spares B) ctx.log ctx'.log) :
    Buried B l₀ ctx' := by
  refine ⟨hsv.trans h.client, ?_, ?_, h.quiet.trans hlog⟩
  · intro i hi
    obtain ⟨hlt, hzero⟩ := h.absent i hi
    have := hocc i
    exact ⟨by omega, by omega⟩
  · rw [hp]
    exact h.current

theorem Buried.of_same (h : Buried B l₀ ctx) (hsv : ctx'.isServer = ctx.isServer)
    (hid : ctx'.nextId = ctx.nextId) (hh : ctx'.held = ctx.held)
    (ho : ctx'.outqueue = ctx.outqueue) (hw : ctx'.waitqueue = ctx.waitqueue)
    (hp : ctx'.pdu = ctx.pdu) (hlog : ctx'.log = ctx.log) : Buried B l₀ ctx' := by
  refine h.of_le hsv hid.ge ?_ hp ?_
  · intro i
    simp only [Context.occurs, hh, ho, hw, le_refl]
  · rw [hlog]
    exact .refl _

theorem Event.spares_of_none {e : Event} (h : e.touches = []) : e.spares B := by
  intro i hi
  rw [h] at hi
  cases hi

theorem removed_spares (cs : List Chain) (l : List Event) :
    Logged (Event.spares B) l (l ++ cs.map .removed) := by
  refine ⟨_, rfl, ?_⟩
  intro e he
  obtain ⟨c, -, rfl⟩ := List.mem_map.mp he
  exact Event.spares_of_none rfl

theorem unlink_spares (ctx : Context) (q : Queue) (id : Nat) :
    Logged (Event.spares B) ctx.log (ctx.unlink q id).log := by
  cases q with
  | out => exact removed_spares _ _
  | wait => exact .push (Event.spares_of_none rfl)

/-- What is queued or waits is not gone. -/
theorem Buried.not_head (h : Buried B l₀ ctx) {q : Queue} {p : Pdu} (hp : p ∈ ctx.heads q) :
    ¬ B p.id := by
  intro hB
  have hzero := (h.absent p.id hB).2
  simp only [Context.occurs] at hzero
  cases q with
  | out =>
    obtain ⟨c, hc, rfl⟩ := List.mem_map.mp hp
    have := occ_ne_zero_of_mem hc
    omega
  | wait =>
    have hpos : 0 < (ctx.waitqueue.map Pdu.id).count p.id :=
      List.count_pos_iff.mpr (List.mem_map.mpr ⟨p, hp, rfl⟩)
    omega

/-- What a step logs concerns no request that is gone. -/
theorem Step.spares (hs : Step K G ctx ctx') (h : Buried B l₀ ctx) (hf : ctx'.fault = none) :
    Logged (Event.spares B) ctx.log ctx'.log := by
  cases hs with
  | quiet hq =>
    refine hq.log.mono ?_
    rintro e (hn | ⟨-, c, rfl⟩)
    · apply Event.spares_of_none
      cases e <;> first | rfl | cases hn
    · exact Event.spares_of_none rfl
  | crash hc => exact absurd hf hc.fault
  | alloc p hid hn hw => exact .refl _
  | compound a b c next hc hn => exact .refl _
  | submit id c hc hf₀ hf' =>
    obtain ⟨-, -, -, -, -, -, hlog⟩ := submitted_same (K := K) h.client hf
    refine hlog.mono ?_
    intro e he
    apply Event.spares_of_none
    cases e <;> first | rfl | cases he
  | refuse id c hG hc => exact .push (Event.spares_of_none rfl)
  | offer c rest hq =>
    refine .push ?_
    intro i hi hB
    have hpos := occ_pos_of_mem (hq ▸ List.mem_cons_self ..) hi
    have hzero := (h.absent i hB).2
    simp only [Context.occurs] at hzero
    omega
  | accept c rest n hq hlt =>
    obtain ⟨wire, he | he⟩ := accepted_client h.client c rest n
    · rw [he]
      exact .refl _
    · rw [he]
      exact .refl _
  | finish q p status hp =>
    refine (unlink_spares ctx q p.id).trans (.push ?_)
    intro i hi
    rw [List.mem_singleton.mp hi]
    exact h.not_head hp
  | forgo q p hp hcb => exact (unlink_spares ctx q p.id).trans (removed_spares _ _)
  | purge id status hd => exact removed_spares _ _

/-- **A step does not bring back what is gone.** -/
theorem Step.buried (hs : Step K G ctx ctx') (h : Buried B l₀ ctx) (hf : ctx'.fault = none) :
    Buried B l₀ ctx' := by
  have hk := hs.keeps
  refine ⟨hk.isServer.trans h.client, ?_, ?_, h.quiet.trans (hs.spares h hf)⟩
  · intro i hi
    obtain ⟨hlt, hzero⟩ := h.absent i hi
    exact Steps.absent (.single hs) hf hlt hzero
  · rw [hk.pdu]
    exact h.current

theorem Steps.buried (hs : Steps K G ctx ctx') (h : Buried B l₀ ctx) (hf : ctx'.fault = none) :
    Buried B l₀ ctx' := by
  induction hs with
  | refl => exact h
  | tail _ hstep ih => exact hstep.buried (ih (hstep.keeps.grows.fault hf)) hf

theorem Buried.emit (h : Buried B l₀ ctx) {e : Event} (he : e.spares B) :
    Buried B l₀ (ctx.emit e) :=
  h.of_le rfl le_rfl (fun _ => le_rfl) rfl (.push he)

theorem Buried.retirePdu (h : Buried B l₀ ctx) (p : Pdu) : Buried B l₀ (ctx.retirePdu p) := by
  obtain ⟨hid, hle⟩ := retirePdu_occurs ctx p
  have hk := retirePdu_grows ctx p
  refine h.of_le hk.isServer hid.ge hle ?_ ?_
  · unfold Context.retirePdu
    split <;> rfl
  · unfold Context.retirePdu
    split
    · exact .refl _
    · exact removed_spares _ _

/-- The request that a reply is matched with is not gone. -/
theorem Buried.matched (h : Buried B l₀ ctx) (hdr : Header) (hp : ctx.pdu = none) :
    Buried B l₀ (matchReply ctx hdr).ctx := by
  obtain ⟨hid, hle⟩ := matchReply_occurs ctx hdr
  have hk := matchReply_grows ctx hdr
  refine ⟨hk.isServer.trans h.client, ?_, ?_, ?_⟩
  · intro i hi
    obtain ⟨hlt, hzero⟩ := h.absent i hi
    have := hle i
    exact ⟨by omega, by omega⟩
  · unfold matchReply
    split
    · simp only [hp, Context.allocatePdu]
      by_cases hm : ctx.allocOk = true
      · simp only [hm, if_true]
        rintro p ⟨rfl⟩ hB
        -- a request made for a notification has a new id
        have hlt := (h.absent _ hB).1
        exact absurd hlt (lt_irrefl _)
      · simp only [hm]
        exact h.current
    · simp only [dropPdu, hp]
      unfold claimPdu
      split
      · exact h.current
      · rename_i p hfind
        have hwait : p ∈ ctx.heads .wait := List.mem_of_find?_eq_some hfind
        split
        · rintro q ⟨rfl⟩
          exact h.not_head hwait
        · rintro q ⟨rfl⟩
          exact h.not_head hwait
  · have hlog : (matchReply ctx hdr).ctx.log = ctx.log := by
      unfold matchReply
      split
      · simp only [hp, Context.allocatePdu]
        by_cases hm : ctx.allocOk = true
        · simp only [hm, if_true]
          rfl
        · simp only [hm]
          rfl
      · simp only [dropPdu, hp]
        unfold claimPdu
        split
        · rfl
        · split <;> rfl
    rw [hlog]
    exact h.quiet

/-- **Reading does not bring back what is gone.** -/
theorem CtxStep.buried (hs : CtxStep (appHooks K D) True ctx ctx') (h : Buried B l₀ ctx)
    (hf : ctx'.fault = none) : Buried B l₀ ctx' := by
  have hinvoke : ∀ (p : Pdu) (status : Nat), ¬ B p.id →
      (invokeCallback K p status ctx).fault = none →
      Buried B l₀ (invokeCallback K p status ctx) := by
    intro p status hp hf
    have hrun := invokeCallback_steps (K := K) (G := True) p status ctx (fun _ => trivial)
    refine hrun.buried (h.emit ?_) hf
    intro i hi
    rw [List.mem_singleton.mp hi]
    exact hp
  cases hs with
  | note hdr =>
    obtain ⟨cur, mid, he⟩ := noteHeader_eq ctx hdr
    rw [he]
    exact h.of_same rfl rfl rfl rfl rfl rfl rfl
  | grant hdr =>
    unfold grantCredits
    split
    · exact h
    · exact h.of_same rfl rfl rfl rfl rfl rfl rfl
  | adopt p hdr hsv hp =>
    rw [h.client] at hsv
    cases hsv
  | matched hdr hc hp => exact h.matched hdr (hp trivial)
  | decoded p d hp =>
    obtain ⟨_, _, _, _, he⟩ := applyEffects_eq ctx d.effects
    simp only [applyDecoded, he]
    refine ⟨h.client, h.absent, ?_, h.quiet⟩
    rintro q ⟨rfl⟩
    exact h.current p hp
  | opened => exact h.emit (Event.spares_of_none rfl)
  | replied rx p hc hp hcb hst hap =>
    have hk := retirePdu_grows (invokeCallback K p rx.hdr.status ctx) p
    have hcall := hinvoke p rx.hdr.status (h.current p hp) (hk.fault hf)
    have hret := hcall.retirePdu p
    refine ⟨hret.client, hret.absent, ?_, hret.quiet⟩
    intro q hq
    cases hq
  | served rx p hsv hp hcb =>
    rw [h.client] at hsv
    cases hsv
  | interim rx p hpt hfind hcb hn =>
    have hwait : p ∈ ctx.heads .wait := List.mem_of_find?_eq_some hfind
    exact hinvoke p rx.hdr.status (h.not_head hwait) hf

theorem buried_invariant : Invariant K D True (fun _ => True) (Buried B l₀) where
  earlier _ _ := trivial
  step hs hj hf _ := hs.buried hj hf
  recv hs _ _ hj hf _ := hs.buried hj hf

/-! ## The message ids of a connection -/

/-- The requests in the two queues. -/
def Context.linked (ctx : Context) : List Pdu :=
  ctx.outqueue.flatMap Chain.members ++ ctx.waitqueue

/-- Every request in the queues was numbered since the log was `l₀`. -/
def Stemming (l₀ : List Event) (ctx : Context) : Prop :=
  ∃ es, ctx.log = l₀ ++ es ∧ (.closed ∉ es → ∀ p ∈ ctx.linked, ∃ q ∈ numbered es,
    q.id = p.id ∧ q.header.messageId = p.header.messageId)

theorem numbered_append (es fs : List Event) :
    numbered (es ++ fs) = numbered es ++ numbered fs := by
  induction es with
  | nil => rfl
  | cons e es ih =>
    cases e with
    | enqueued c => simp only [List.cons_append, numbered, ih, List.append_assoc]
    | _ => exact ih

theorem Stemming.push (h : Stemming l₀ ctx) {es : List Event} (hlog : ctx'.log = ctx.log ++ es)
    (hold : ∀ p ∈ ctx'.linked, (∃ q ∈ ctx.linked, q.id = p.id ∧
      q.header.messageId = p.header.messageId) ∨ p ∈ numbered es) : Stemming l₀ ctx' := by
  obtain ⟨fs, hfs, hstem⟩ := h
  refine ⟨fs ++ es, by rw [hlog, hfs, List.append_assoc], ?_⟩
  intro hopen p hp
  rw [numbered_append]
  rcases hold p hp with ⟨q, hq, hid, hmid⟩ | hnew
  · obtain ⟨r, hr, hid', hmid'⟩ := hstem (fun hm => hopen (List.mem_append_left _ hm)) q hq
    exact ⟨r, List.mem_append_left _ hr, hid'.trans hid, hmid'.trans hmid⟩
  · exact ⟨p, List.mem_append_right _ hnew, rfl, rfl⟩

/-- A change that adds no request to the queues. -/
theorem Stemming.of_subset (h : Stemming l₀ ctx) {es : List Event}
    (hlog : ctx'.log = ctx.log ++ es) (hsub : ∀ p ∈ ctx'.linked, p ∈ ctx.linked) :
    Stemming l₀ ctx' :=
  h.push hlog fun p hp => .inl ⟨p, hsub p hp, rfl, rfl⟩

/-- A chain that was handed to the transport has the ids it had. -/
theorem Stemming.advance (h : Stemming l₀ ctx) {c : Chain} {rest : List Chain} (n : Nat)
    (hq : ctx.outqueue = c :: rest) (hlog : ctx'.log = ctx.log)
    (hsub : ∀ p ∈ ctx'.linked, p ∈ (c.advance n).members ∨ p ∈ ctx.linked) :
    Stemming l₀ ctx' := by
  have hlog' : ctx'.log = ctx.log ++ [] := by rw [hlog, List.append_nil]
  refine h.push hlog' ?_
  intro p hp
  have hhead : ∀ q ∈ c.members, q ∈ ctx.linked := by
    intro q hmem
    refine List.mem_append_left _ (List.mem_flatMap.mpr ⟨c, ?_, hmem⟩)
    rw [hq]
    exact List.mem_cons_self ..
  rcases hsub p hp with hp | hp
  · rcases List.mem_cons.mp hp with rfl | hp
    · exact .inl ⟨c.head, hhead _ (List.mem_cons_self ..), rfl, rfl⟩
    · exact .inl ⟨p, hhead p (List.mem_cons_of_mem _ hp), rfl, rfl⟩
  · exact .inl ⟨p, hp, rfl, rfl⟩

theorem Deal.stemming (hd : Deal K ctx ctx') (hf : ctx'.fault = none) (h : Stemming l₀ ctx) :
    Stemming l₀ ctx' := by
  cases hd with
  | level hl =>
    obtain ⟨es, hlog, -⟩ := hl.log
    refine h.of_subset hlog ?_
    intro p hp
    rcases List.mem_append.mp hp with hp | hp
    · obtain ⟨c, hc, hmem⟩ := List.mem_flatMap.mp hp
      exact List.mem_append_left _ (List.mem_flatMap.mpr ⟨c, hl.out hc, hmem⟩)
    · exact List.mem_append_right _ (hl.wait hp)
  | crash hc => exact absurd hf hc
  | alloc p hid hask => exact h.of_subset (List.append_nil _).symm (fun _ hp => hp)
  | submit id c hc hs hf₀ hf' =>
    let queued := (ctx.dropHeld id).emit (.queued c ctx.security)
    have hs' : queued.isServer = false := hs
    obtain ⟨n, env, es, -, heq, -⟩ := preparePdu_eq (K := K) (c := c) hs' hf
    have hout : (submitted K ctx id c).outqueue =
        ctx.outqueue ++ [(preparePdu K queued c).2] := by
      show (preparePdu K queued c).1.outqueue ++ _ = _
      rw [heq]
      rfl
    have hwait : (submitted K ctx id c).waitqueue = ctx.waitqueue := by
      show (preparePdu K queued c).1.waitqueue = _
      rw [heq]
      rfl
    have hlog : (submitted K ctx id c).log = ctx.log ++
        ((.queued c ctx.security :: es) ++ [.enqueued (preparePdu K queued c).2]) := by
      show (preparePdu K queued c).1.log ++ [.enqueued (preparePdu K queued c).2] = _
      rw [heq]
      show ctx.log ++ [_] ++ es ++ _ = _
      simp
    refine h.push hlog ?_
    intro p hp
    unfold Context.linked at hp
    rw [hout, hwait, List.flatMap_append] at hp
    rcases List.mem_append.mp hp with hp | hp
    · rcases List.mem_append.mp hp with hp | hp
      · exact .inl ⟨p, List.mem_append_left _ hp, rfl, rfl⟩
      · right
        rw [numbered_append]
        apply List.mem_append_right
        simpa [numbered] using hp
    · exact .inl ⟨p, List.mem_append_right _ hp, rfl, rfl⟩
  | offer c rest ht => exact h.of_subset rfl (fun _ hp => hp)
  | accept c rest n ht hs hdist =>
    obtain ⟨hq, -⟩ := writeTurn_offer ht
    have hrest : ∀ p ∈ rest.flatMap Chain.members, p ∈ ctx.linked := by
      intro p hp
      obtain ⟨d, hd, hmem⟩ := List.mem_flatMap.mp hp
      refine List.mem_append_left _ (List.mem_flatMap.mpr ⟨d, ?_, hmem⟩)
      rw [hq]
      exact List.mem_cons_of_mem _ hd
    obtain ⟨wire, he | he⟩ := accepted_client hs c rest n
    · rw [he]
      refine h.advance n hq rfl ?_
      intro p hp
      rcases List.mem_append.mp hp with hp | hp
      · rw [List.flatMap_cons] at hp
        rcases List.mem_append.mp hp with hp | hp
        · exact .inl hp
        · exact .inr (hrest p hp)
      · exact .inr (List.mem_append_right _ hp)
    · rw [he]
      refine h.advance n hq rfl ?_
      intro p hp
      rcases List.mem_append.mp hp with hp | hp
      · exact .inr (hrest p hp)
      · rcases List.mem_append.mp hp with hp | hp
        · exact .inr (List.mem_append_right _ hp)
        · exact .inl hp
  | grant hdr hs =>
    unfold grantCredits
    rw [if_neg (by rw [hs]; decide)]
    exact h.of_subset (List.append_nil _).symm (fun _ hp => hp)
  | close => exact h.of_subset rfl (fun _ hp => hp)

/-- Requests with the same first id are the same. -/
theorem Consecutive.same {n : Nat} {ps : List Pdu} (h : Consecutive n ps) {p q : Pdu}
    (hp : p ∈ ps) (hq : q ∈ ps) (he : p.header.messageId = q.header.messageId) : p = q := by
  by_contra hne
  have hsym : Std.Symm fun p q : Pdu => Disjoint p.messageIds q.messageIds := ⟨fun _ _ h => h.symm⟩
  have hdis := h.disjoint.forall hp hq hne
  have hin : ∀ r : Pdu, r.header.messageId ∈ r.messageIds := fun r =>
    ⟨le_rfl, Nat.lt_add_of_pos_right r.span_pos⟩
  exact Set.disjoint_left.mp hdis (hin p) (he ▸ hin q)

/-- No request is linked twice. -/
theorem Distinct.linked (hd : Distinct ctx) : (ctx.linked.map Pdu.id).Nodup := by
  apply List.nodup_iff_count_le_one.mpr
  intro i
  have honce := hd.once i
  have hout : ∀ cs : List Chain, ((cs.flatMap Chain.members).map Pdu.id).count i = occ cs i := by
    intro cs
    induction cs with
    | nil => rfl
    | cons c cs ih =>
      rw [List.flatMap_cons, List.map_append, List.count_append, ih, occ_cons]
      rfl
  unfold Context.linked
  rw [List.map_append, List.count_append, hout]
  simp only [Context.occurs] at honce
  omega

/-- Requests that stem from one stretch of the counter have different message ids. -/
theorem Stemming.nodup (hd : Distinct ctx) {es : List Event}
    (hstem : ∀ p ∈ ctx.linked, ∃ q ∈ numbered es, q.id = p.id ∧
      q.header.messageId = p.header.messageId) {n : Nat} (hc : Consecutive n (numbered es)) :
    (ctx.linked.map fun p => p.header.messageId).Nodup := by
  have hids := hd.linked
  apply List.Nodup.map_on _ hids.of_map
  intro p hp q hq he
  obtain ⟨p', hp', hpid, hpmid⟩ := hstem p hp
  obtain ⟨q', hq', hqid, hqmid⟩ := hstem q hq
  have hsame : p' = q' := hc.same hp' hq' (by rw [hpmid, hqmid, he])
  apply List.inj_on_of_nodup_map hids hp hq
  rw [← hpid, ← hqid, hsame]

end

/-! ## The new connection -/

/-- The context is closed, the application makes some calls, and the context is connected again.
Connecting touches neither the queues nor the receive state. -/
def reconnect (K : Crypto) (s : Session) (between : List Action) : Session where
  smb2 := { s.smb2 with
    ctx := { runActions K s.ctx.closeContext between with connected := true } }

/-- Nothing is queued, nothing waits for a reply, and no part of a frame has been received. -/
structure Settled (s : Session) : Prop where
  outqueue : s.ctx.outqueue = []
  waitqueue : s.ctx.waitqueue = []
  pdu : s.ctx.pdu = none
  numDone : s.smb2.rx.numDone = 0

/-- The first octet that is read is the first one of a length prefix. -/
def ExpectsPrefix (s : Session) : Prop :=
  (start s.smb2).rx.state = .spl ∧ (start s.smb2).rx.numDone = 0

theorem expectsPrefix_of_numDone {s : Session} (h : s.smb2.rx.numDone = 0) : ExpectsPrefix s := by
  unfold ExpectsPrefix start
  rw [if_pos h]
  exact ⟨rfl, h⟩

section
variable {K : Crypto} {D : Decoders} {s : Session}

/-- The state of a context that is connected again. -/
theorem Settled.reconnect (h : Settled s) (hc : s.ctx.isServer = false) (hd : Distinct s.ctx)
    (between : List Action) (hf : (reconnect K s between).ctx.fault = none) :
    (reconnect K s between).ctx.isServer = false ∧
      (∀ J : Context → Prop, J (reconnect K s between).ctx → Steady J (reconnect K s between)) ∧
      Deals K s.ctx.closeContext (reconnect K s between).ctx ∧
      Buried (fun i => i < s.ctx.nextId ∧ occ s.ctx.held i = 0)
        (s.ctx.log ++ [.closed]) (reconnect K s between).ctx := by
  have hd' : Distinct s.ctx.closeContext := ⟨hd.once, hd.fresh⟩
  have hsteps := runActions_steps (K := K) (G := True) between s.ctx.closeContext (fun _ => trivial)
  have hdeals : Deals K s.ctx.closeContext (runActions K s.ctx.closeContext between) :=
    runActions_deals between hc hd'
  have hdist := hsteps.distinct hd' hf
  have hk := hsteps.keeps
  have hpdu : (Libsmb2.reconnect K s between).ctx.pdu = none := hk.pdu.trans h.pdu
  refine ⟨hk.isServer.trans hc, ?_, ?_, ?_⟩
  · intro J hj
    exact ⟨hj, ⟨hdist.once, hdist.fresh⟩, fun _ => .of_none hpdu, fun _ _ => .of_none hpdu⟩
  · exact hdeals.tail (.level (.of_same rfl rfl rfl rfl rfl rfl rfl rfl rfl (.refl _)))
  · have hclosed : Buried (fun i => i < s.ctx.nextId ∧ occ s.ctx.held i = 0)
        (s.ctx.log ++ [.closed]) s.ctx.closeContext := by
      refine ⟨hc, ?_, ?_, .refl _⟩
      · rintro i ⟨hlt, hheld⟩
        refine ⟨hlt, ?_⟩
        show occ s.ctx.held i + occ s.ctx.outqueue i + (s.ctx.waitqueue.map Pdu.id).count i = 0
        rw [h.outqueue, h.waitqueue, hheld]
        rfl
      · intro p hp
        have hnone := h.pdu
        rw [show s.ctx.pdu = some p from hp] at hnone
        cases hnone
    exact (hsteps.buried hclosed hf).of_same rfl rfl rfl rfl rfl rfl rfl

/-- No fault of an earlier part of the run is forgotten. -/
theorem reconnect_fault (ops : List Op) (between : List Action)
    (hf : (runOps K D (reconnect K s between) ops).ctx.fault = none) :
    (reconnect K s between).ctx.fault = none ∧ s.ctx.fault = none := by
  have hre : (reconnect K s between).ctx.fault = none := by
    by_contra hbad
    rw [runOps_of_fault ops hbad] at hf
    exact hbad hf
  refine ⟨hre, ?_⟩
  by_contra hbad
  have hfault : (runActions K s.ctx.closeContext between).fault = none := hre
  rw [runActions_of_fault between (by exact hbad)] at hfault
  exact hbad hfault

end

/-- **A context at rest starts clean on a new connection**: the first octet that is received is
the first one of a length prefix, no request that was queued for the old connection is completed
or handed to the transport, and no two requests in the queues have the same message id as long as
the counter does not exceed 2 ^ 64. -/
theorem reconnect_starts_clean (K : Crypto) (D : Decoders) (s : Session) (ops : List Op)
    (between : List Action) (ops' : List Op) (hb : Blank s) (hc : s.ctx.isServer = false)
    (hrx : s.smb2.rx.log = []) (hrest : Settled (runOps K D s ops))
    (hf : (runOps K D (reconnect K (runOps K D s ops) between) ops').ctx.fault = none)
    (es : List Event)
    (hlog : (runOps K D (reconnect K (runOps K D s ops) between) ops').ctx.log =
      (runOps K D s ops).ctx.log ++ [.closed] ++ es)
    (hopen : .closed ∉ es) (hbound : ((numbered es).map Pdu.span).sum ≤ 2 ^ 64) :
    ExpectsPrefix (reconnect K (runOps K D s ops) between) ∧
      (∀ c, .enqueued c ∈ (runOps K D s ops).ctx.log → ∀ i ∈ c.ids,
        (∀ status, .completed i status ∉ es) ∧ ∀ d sec, .offered d sec ∈ es → i ∉ d.ids) ∧
      ((runOps K D (reconnect K (runOps K D s ops) between) ops').ctx.linked.map
        fun p => p.header.messageId).Nodup := by
  have hroutes := runOps_routes (K := K) (D := D) ops (hb.routes hc hrx)
  obtain ⟨hf₁, hf₀⟩ := reconnect_fault ops' between hf
  have hord := (hroutes.halted hf₀).ordered
  generalize runOps K D s ops = t at *
  obtain ⟨hc', hsteady, hdeals, hburied⟩ := hrest.reconnect (K := K) hroutes.client hord.distinct
    between hf₁
  have hrun : Deals K t.ctx.closeContext (runOps K D (reconnect K t between) ops').ctx :=
    hdeals.trans (runOps_deals ops' _ hc' (hsteady _ trivial))
  refine ⟨expectsPrefix_of_numDone hrest.numDone, ?_, ?_⟩
  · -- the requests of the old connection are gone
    have hend := (runOps_steady (buried_invariant (K := K) (D := D)) ops' _ (fun _ => trivial)
      (fun _ _ _ => hc') (hsteady _ hburied) hf trivial).1.inv
    obtain ⟨es', hlog', hspare⟩ := hend.quiet
    have hes : es' = es := List.append_cancel_left (hlog'.symm.trans hlog)
    subst hes
    intro c hq i hi
    have hold := hord.known c hq i hi
    refine ⟨?_, ?_⟩
    · intro status hmem
      exact hspare _ hmem i (List.mem_singleton_self i) hold
    · intro d sec hmem hid
      exact hspare _ hmem i hid hold
  · -- the counter starts at zero, and so do the message ids in the queues
    have hstem : Stemming (t.ctx.log ++ [.closed]) t.ctx.closeContext := by
      refine ⟨[], (List.append_nil _).symm, ?_⟩
      intro _ p hp
      have hp : p ∈ t.ctx.outqueue.flatMap Chain.members ++ t.ctx.waitqueue := hp
      rw [hrest.outqueue, hrest.waitqueue] at hp
      cases hp
    have hnum : Numbering (t.ctx.log ++ [.closed]) 0 t.ctx.closeContext :=
      ⟨[], (List.append_nil _).symm, .nil _⟩
    obtain ⟨es₁, hlog₁, hstem'⟩ := hrun.invariant (fun _ _ hd hf' => hd.stemming hf') hstem hf
    obtain ⟨es₂, hlog₂, hreplay⟩ := hrun.invariant (fun _ _ hd hf' => hd.numbering hf') hnum hf
    have h₁ : es₁ = es := List.append_cancel_left (hlog₁.symm.trans hlog)
    have h₂ : es₂ = es := List.append_cancel_left (hlog₂.symm.trans hlog)
    subst h₁
    subst h₂
    have hcons := (hreplay.counted hopen).consecutive (by omega)
    have hdist := (runOps_steady (buried_invariant (K := K) (D := D)) ops' _ (fun _ => trivial)
      (fun _ _ _ => hc') (hsteady _ hburied) hf trivial).1.distinct
    exact Stemming.nodup hdist (hstem' hopen) hcons

/-- A client that has just been connected. -/
def newClient : Session where
  smb2 := { ctx := {
    dialect := VERSION_0210
    credits := 10
    env := { tx := List.replicate 8 (.accept 1000) } } }

theorem newClient_blank : Blank newClient := ⟨rfl, rfl, rfl, rfl, rfl, rfl, rfl, rfl⟩

/-- A request is sent and answered. -/
def answered : List Op := [allocEcho 1, .act (.queue 1), .recv wholeReads (echoFrame 0)]

/-- A request is sent and waits. -/
def unanswered : List Op := [allocEcho 1, .act (.queue 1)]

/-- A request is sent on the new connection and answered. -/
def answeredAgain : List Op := [allocEcho 2, .act (.queue 2), .recv wholeReads (echoFrame 0)]

/-- The requests that a run completed, in order. -/
def completedIds (log : List Event) : List Nat :=
  log.filterMap fun
    | .completed i _ => some i
    | _ => none

theorem answered_log :
    (runOps echoCrypto plainDecoders (reconnect echoCrypto
        (runOps echoCrypto plainDecoders newClient answered) []) answeredAgain).ctx.log =
      (runOps echoCrypto plainDecoders newClient answered).ctx.log ++ [.closed] ++
        (runOps echoCrypto plainDecoders (reconnect echoCrypto
          (runOps echoCrypto plainDecoders newClient answered) []) answeredAgain).ctx.log.drop 6 := by
  decide +kernel

/-- The reply on the new connection completes the new request only. -/
theorem new_callback_gets_new_reply :
    completedIds ((runOps echoCrypto plainDecoders (reconnect echoCrypto
      (runOps echoCrypto plainDecoders newClient answered) []) answeredAgain).ctx.log.drop 6) =
        [2] ∧
    ExpectsPrefix (reconnect echoCrypto (runOps echoCrypto plainDecoders newClient answered) []) := by
  refine ⟨by decide +kernel, ?_⟩
  exact (reconnect_starts_clean echoCrypto plainDecoders newClient answered [] answeredAgain
    newClient_blank rfl rfl
    ⟨by decide +kernel, by decide +kernel, by decide +kernel, by decide +kernel⟩
    (by decide +kernel) _ answered_log (by decide +kernel) (by decide +kernel)).1

/-- **A request that was waiting when the context was closed gets the reply to the first request
of the new connection**, which has the same message id. -/
theorem old_callback_gets_new_reply :
    Blank newClient ∧ newClient.ctx.isServer = false ∧
    (∃ c, .enqueued c ∈ (runOps echoCrypto plainDecoders newClient unanswered).ctx.log ∧
      c.ids = [1]) ∧
    ((runOps echoCrypto plainDecoders (reconnect echoCrypto
      (runOps echoCrypto plainDecoders newClient unanswered) [])
        (answeredAgain.take 2)).ctx.linked.map fun p => (p.id, p.header.messageId)) =
          [(1, 0), (2, 0)] ∧
    (runOps echoCrypto plainDecoders (reconnect echoCrypto
      (runOps echoCrypto plainDecoders newClient unanswered) []) answeredAgain).ctx.fault = none ∧
    completedIds ((runOps echoCrypto plainDecoders (reconnect echoCrypto
      (runOps echoCrypto plainDecoders newClient unanswered) []) answeredAgain).ctx.log.drop
        (runOps echoCrypto plainDecoders newClient unanswered).ctx.log.length) = [1] := by
  refine ⟨newClient_blank, rfl, ?_, by decide +kernel, by decide +kernel, by decide +kernel⟩
  apply exists_enqueued
  decide +kernel

end Libsmb2
