import Libsmb2.Lifecycle.Runs
import Libsmb2.Receive.Chunking

/-!
# The outgoing stream

What the transport has accepted is a sequence of whole frames, in the order in which their
chains were queued, followed by the part of the first chain's frame that has been sent so
far (`Framed`).

* `stream_is_framed` — this holds in every state that a run reaches, for clients and
  servers, if no chain whose frame was started has been taken off the queue and every chain
  is short enough for its length prefix.
* `timeout_breaks_framing` — a request that times out while its frame is half sent leaves a
  torso in the stream, and the next frame follows it.
-/

set_option autoImplicit false

namespace Libsmb2

open Util Relation

/-- The chain as it was queued. -/
def Chain.unsent (c : Chain) : Chain := { c with head := { c.head with numDone := 0 } }

@[simp] theorem Chain.unsent_frame (c : Chain) : c.unsent.frame = c.frame := rfl

/-- A frame that the length prefix can announce. -/
def Chain.announceable (c : Chain) : Bool := c.frame.length < 4294967296

/-- The chains that were queued, in order. -/
def enqueuedChains (l : List Event) : List Chain :=
  l.filterMap fun
    | .enqueued c => some c
    | _ => none

/-- The part of the first frame that the transport has. -/
def started : List Chain → Bytes
  | [] => []
  | c :: _ => c.frame.take c.head.numDone

/-- **The stream**: whole frames of chains in queueing order, then a strict beginning of the
frame of the first chain of the out queue. -/
def StreamOk (ctx : Context) : Prop :=
  ∃ sent : List Chain,
    (sent ++ ctx.outqueue.map Chain.unsent).Sublist (enqueuedChains ctx.log) ∧
    ctx.wire = (sent.map Chain.frame).flatten ++ started ctx.outqueue ∧
    (∀ c rest, ctx.outqueue = c :: rest → c.head.numDone < c.frame.length) ∧
    ∀ c ∈ sent, c.frame = be32 (c.frame.length - SPL_SIZE) ++ c.frame.drop SPL_SIZE ∧
      c.frame.length - SPL_SIZE < 4294967296

/-- A chain is taken off the queue only if its frame has not been started, and queued only
if it fits its length prefix. -/
def Event.orderly : Event → Bool
  | .removed c => c.head.numDone == 0
  | .enqueued c => c.announceable
  | _ => true

/-- **Nothing that was started was given up.** -/
def NothingAborted (l : List Event) : Prop := ∀ e ∈ l, e.orderly = true

instance (l : List Event) : Decidable (NothingAborted l) :=
  inferInstanceAs (Decidable (∀ e ∈ l, e.orderly = true))

/-- The invariant: only the first chain of the out queue has been started. -/
structure Framed (ctx : Context) : Prop where
  stream : ∃ sent : List Chain,
    (sent ++ ctx.outqueue.map Chain.unsent).Sublist (enqueuedChains ctx.log) ∧
    ctx.wire = (sent.map Chain.frame).flatten ++ started ctx.outqueue
  first : ∀ c rest, ctx.outqueue = c :: rest →
    c.head.numDone < c.frame.length ∧ ∀ d ∈ rest, d.head.numDone = 0
  fresh : ∀ c ∈ ctx.held, c.head.numDone = 0

theorem NothingAborted.earlier {l l' : List Event} (h : l <+: l') (hp : NothingAborted l') :
    NothingAborted l :=
  fun e he => hp e (h.subset he)

theorem NothingAborted.removed {l : List Event} (hp : NothingAborted l) {c : Chain}
    (hc : .removed c ∈ l) : c.head.numDone = 0 := by
  simpa [Event.orderly] using hp _ hc

theorem NothingAborted.enqueued {l : List Event} (hp : NothingAborted l) {c : Chain}
    (hc : .enqueued c ∈ l) : c.announceable = true := hp _ hc

theorem Chain.frame_pos (c : Chain) : 0 < c.frame.length := by
  simp only [Chain.frame, List.length_append, length_be32]
  omega

/-- The body of a frame that can be announced has the announced length. -/
theorem Chain.length_frame {c : Chain} (h : c.announceable = true) :
    c.frame.length = SPL_SIZE + c.spl := by
  have hlt : c.frame.length < 4294967296 := by simpa [Chain.announceable] using h
  have hlen : c.frame.length =
      4 + (if c.head.sealed then c.head.crypt.length else c.octets.length) := by
    simp only [Chain.frame, List.length_append, length_be32]
    split <;> rfl
  have hspl : c.spl = if c.head.sealed then c.head.crypt.length else c.octets.length := by
    unfold Chain.spl
    exact Nat.mod_eq_of_lt (by omega)
  rw [hlen, hspl, SPL_SIZE]

theorem Chain.frame_eq {c : Chain} (h : c.announceable = true) :
    c.frame = be32 (c.frame.length - SPL_SIZE) ++ c.frame.drop SPL_SIZE ∧
      c.frame.length - SPL_SIZE < 4294967296 := by
  have hlen := c.length_frame h
  have hlt : c.frame.length < 4294967296 := by simpa [Chain.announceable] using h
  refine ⟨?_, by omega⟩
  have hspl : c.frame.length - SPL_SIZE = c.spl := by omega
  rw [hspl]
  have hdrop : c.frame.drop SPL_SIZE = if c.head.sealed then c.head.crypt else c.octets := by
    unfold Chain.frame
    exact List.drop_left' (by simp [SPL_SIZE])
  rw [hdrop]
  rfl

section
variable {K : Crypto} {D : Decoders} {G I : Prop}

theorem enqueuedChains_append (l m : List Event) :
    enqueuedChains (l ++ m) = enqueuedChains l ++ enqueuedChains m := by
  simp [enqueuedChains]

theorem enqueuedChains_grow {l l' : List Event} (h : l <+: l') :
    (enqueuedChains l).Sublist (enqueuedChains l') := by
  obtain ⟨m, rfl⟩ := h
  rw [enqueuedChains_append]
  exact List.sublist_append_left _ _

variable {ctx ctx' : Context}

/-- Chains that were not started are taken off the queue. -/
theorem Framed.filter (hi : Framed ctx) {f g : Chain → Bool}
    (ho : ctx'.outqueue = ctx.outqueue.filter f)
    (hr : ∀ c ∈ ctx.outqueue, f c = false → c.head.numDone = 0)
    (hw : ctx'.wire = ctx.wire) (hh : ctx'.held = ctx.held.filter g)
    (hl : (enqueuedChains ctx.log).Sublist (enqueuedChains ctx'.log)) : Framed ctx' where
  stream := by
    obtain ⟨sent, hsub, hwire⟩ := hi.stream
    refine ⟨sent, ?_, ?_⟩
    · refine List.Sublist.trans ?_ (hsub.trans hl)
      rw [ho]
      exact (List.Sublist.refl sent).append (List.filter_sublist.map Chain.unsent)
    · rw [hw, hwire, ho]
      congr 1
      cases hq : ctx.outqueue with
      | nil => rfl
      | cons c rest =>
        obtain ⟨_, hrest⟩ := hi.first c rest hq
        by_cases hk : f c = true
        · rw [List.filter_cons_of_pos hk]
          rfl
        · have hz : c.head.numDone = 0 :=
            hr c (hq ▸ List.mem_cons_self ..) (by simpa using hk)
          rw [List.filter_cons_of_neg hk]
          simp only [started, hz, List.take_zero]
          cases hq' : rest.filter f with
          | nil => rfl
          | cons d ds =>
            have hd : d ∈ rest := List.mem_of_mem_filter (hq' ▸ List.mem_cons_self ..)
            simp only [hrest d hd, List.take_zero]
  first := by
    intro d ds hq'
    rw [ho] at hq'
    cases hq : ctx.outqueue with
    | nil => simp [hq] at hq'
    | cons c rest =>
      obtain ⟨hlt, hrest⟩ := hi.first c rest hq
      rw [hq] at hq'
      by_cases hk : f c = true
      · rw [List.filter_cons_of_pos hk] at hq'
        obtain ⟨rfl, rfl⟩ := List.cons.inj hq'
        exact ⟨hlt, fun e he => hrest e (List.mem_of_mem_filter he)⟩
      · rw [List.filter_cons_of_neg hk] at hq'
        have hmem : ∀ e ∈ d :: ds, e.head.numDone = 0 := by
          intro e he
          rw [← hq'] at he
          exact hrest e (List.mem_of_mem_filter he)
        refine ⟨?_, fun e he => hmem e (List.mem_cons_of_mem _ he)⟩
        rw [hmem d (List.mem_cons_self ..)]
        exact d.frame_pos
  fresh := by
    intro c hc
    rw [hh] at hc
    exact hi.fresh c (List.mem_of_mem_filter hc)

/-- A change of the queues by frees, all of them logged. -/
theorem Framed.freed (hi : Framed ctx) {f g : Chain → Bool}
    (hp : NothingAborted ctx'.log) (ho : ctx'.outqueue = ctx.outqueue.filter f)
    (hr : ∀ c ∈ ctx.outqueue, f c = false → .removed c ∈ ctx'.log)
    (hw : ctx'.wire = ctx.wire) (hh : ctx'.held = ctx.held.filter g)
    (hl : ctx.log <+: ctx'.log) : Framed ctx' :=
  hi.filter ho (fun c hc hk => hp.removed (hr c hc hk)) hw hh (enqueuedChains_grow hl)

theorem Framed.unlink (hi : Framed ctx) {q : Queue} {id : Nat}
    (hp : NothingAborted (ctx.unlink q id).log) : Framed (ctx.unlink q id) := by
  cases q with
  | out =>
    refine hi.freed (f := fun c => c.head.id != id) (g := fun _ => true) hp rfl ?_ rfl
      (by simp [Context.unlink]) (List.prefix_append _ _)
    intro c hc hk
    refine List.mem_append_right _ (List.mem_map.mpr ⟨c, List.mem_filter.mpr ⟨hc, ?_⟩, rfl⟩)
    simpa using hk
  | wait =>
    exact hi.freed (f := fun _ => true) (g := fun _ => true) hp
      (by simp [Context.unlink]) (by simp) rfl (by simp [Context.unlink]) (List.prefix_append _ _)

theorem Framed.freePdu (hi : Framed ctx) {id : Nat}
    (hp : NothingAborted (ctx.freePdu id).log) : Framed (ctx.freePdu id) := by
  refine hi.freed (f := fun c => c.head.id != id) (g := fun _ => true) hp rfl ?_ rfl
    (by simp [Context.freePdu]) (List.prefix_append _ _)
  intro c hc hk
  refine List.mem_append_right _ (List.mem_map.mpr ⟨c, List.mem_filter.mpr ⟨hc, ?_⟩, rfl⟩)
  simpa using hk

/-- The queues and the wire are as they were. -/
theorem Framed.of_same (hi : Framed ctx)
    (ho : ctx'.outqueue = ctx.outqueue) (hw : ctx'.wire = ctx.wire) (hh : ctx'.held = ctx.held)
    (hl : ctx.log <+: ctx'.log) : Framed ctx' :=
  hi.filter (f := fun _ => true) (g := fun _ => true) (by simp [ho]) (by simp) hw
    (by simp [hh]) (enqueuedChains_grow hl)

theorem Framed.retirePdu (hi : Framed ctx) {p : Pdu}
    (hp : NothingAborted (ctx.retirePdu p).log) : Framed (ctx.retirePdu p) := by
  unfold Context.retirePdu at hp ⊢
  split
  · exact hi.of_same rfl rfl rfl (List.prefix_refl _)
  · rename_i hown
    simp only [hown] at hp
    exact (hi.freePdu hp).of_same rfl rfl rfl (List.prefix_refl _)

theorem Framed.submit {id : Nat} {c : Chain} (hi : Framed ctx)
    (hc : ctx.findHeld id = some c) (hf : (submitted K ctx id c).fault = none)
    (hp : NothingAborted (submitted K ctx id c).log) : Framed (submitted K ctx id c) := by
  obtain ⟨hmem, _⟩ := Context.findHeld_mem hc
  rcases preparePdu_quiet (G := True) (K := K) ((ctx.dropHeld id).emit (.queued c ctx.security)) c
    (fun _ => trivial) with hov | hq
  · exact absurd hf hov.fault
  · have hz : (preparePdu K ((ctx.dropHeld id).emit (.queued c ctx.security)) c).2.head.numDone
        = 0 := by
      have htag := Chain.head_eq_of_tags
        (preparePdu_tag (K := K) ((ctx.dropHeld id).emit (.queued c ctx.security)) c)
      simp only [Pdu.tag, Prod.mk.injEq] at htag
      rw [htag.2.2]
      exact hi.fresh c hmem
    generalize hx : preparePdu K ((ctx.dropHeld id).emit (.queued c ctx.security)) c = x at hq hz
    have hsub : submitted K ctx id c = { x.1 with
        outqueue := x.1.outqueue ++ [x.2], log := x.1.log ++ [.enqueued x.2] } := by
      simp only [submitted, hx]
    rw [hsub] at hp ⊢
    -- before the chain is appended, only frees happened
    obtain ⟨k, ho, hr⟩ := hq.out
    obtain ⟨k', hh⟩ := hq.held
    have hlog : ctx.log <+: x.1.log :=
      (List.prefix_append ctx.log _).trans hq.log.isPrefix
    have hx1 : Framed x.1 := by
      refine hi.freed (f := k) (g := fun d => k' d && d.head.id != id)
        (hp.earlier (List.prefix_append _ _)) ho hr hq.wire ?_ hlog
      rw [hh]
      simp only [Context.emit, Context.dropHeld, List.filter_filter]
    have hunsent : x.2.unsent = x.2 := by
      unfold Chain.unsent
      rw [← hz]
    obtain ⟨sent, hsubl, hwire⟩ := hx1.stream
    refine ⟨⟨sent, ?_, ?_⟩, ?_, hx1.fresh⟩
    · simp only [enqueuedChains_append, List.map_append, List.map_cons, List.map_nil, hunsent]
      rw [← List.append_assoc]
      exact hsubl.append (List.Sublist.refl _)
    · rw [hwire]
      congr 1
      cases hq' : x.1.outqueue with
      | nil => simp [started, hz]
      | cons d ds => rfl
    · intro d ds hq'
      cases hq'' : x.1.outqueue with
      | nil =>
        simp only [hq'', List.nil_append] at hq'
        obtain ⟨rfl, rfl⟩ := List.cons.inj hq'
        refine ⟨?_, by simp⟩
        rw [hz]
        exact Chain.frame_pos _
      | cons e es =>
        simp only [hq'', List.cons_append] at hq'
        obtain ⟨rfl, rfl⟩ := List.cons.inj hq'
        obtain ⟨hlt, hrest⟩ := hx1.first _ _ hq''
        refine ⟨hlt, ?_⟩
        intro g hg
        rcases List.mem_append.mp hg with hg | hg
        · exact hrest g hg
        · rw [List.mem_singleton.mp hg]
          exact hz

/-- Every chain on the out queue was queued. -/
theorem Framed.announceable (hi : Framed ctx) (hp : NothingAborted ctx.log)
    {c : Chain} (hc : c ∈ ctx.outqueue) : c.announceable = true := by
  obtain ⟨sent, hsub, _⟩ := hi.stream
  have hmem : c.unsent ∈ enqueuedChains ctx.log :=
    hsub.subset (List.mem_append_right _ (List.mem_map.mpr ⟨c, hc, rfl⟩))
  simp only [enqueuedChains, List.mem_filterMap] at hmem
  obtain ⟨e, he, hec⟩ := hmem
  cases e with
  | enqueued d =>
    cases hec
    exact (hp.enqueued he : c.unsent.announceable = true)
  | _ => cases hec

theorem take_append_slice (bs : Bytes) (n k : Nat) : bs.take n ++ slice bs n k = bs.take (n + k) := by
  rw [slice, List.take_add]

theorem Framed.accept {c : Chain} {rest : List Chain} (hi : Framed ctx)
    (hp : NothingAborted ctx.log) (hq : ctx.outqueue = c :: rest) (n : Nat) :
    Framed (accepted ctx c rest n) := by
  have hann := hi.announceable hp (hq ▸ List.mem_cons_self ..)
  have hlen := c.length_frame hann
  have hlt : c.frame.length < 4294967296 := by simpa [Chain.announceable] using hann
  obtain ⟨hfirst, hrest⟩ := hi.first c rest hq
  obtain ⟨sent, hsub, hwire⟩ := hi.stream
  rw [hq] at hsub hwire
  simp only [started, List.map_cons] at hsub hwire
  have hz : started rest = [] := by
    cases hr : rest with
    | nil => rfl
    | cons d ds => simp [started, hrest d (hr ▸ List.mem_cons_self ..)]
  generalize hk : min n (c.frame.length - c.head.numDone) = k
  have hkle : c.head.numDone + k ≤ c.frame.length := by omega
  have hwire' : ctx.wire ++ slice c.frame c.head.numDone k =
      (sent.map Chain.frame).flatten ++ c.frame.take (c.head.numDone + k) := by
    rw [hwire, List.append_assoc, take_append_slice]
  unfold accepted
  simp only [hk]
  split
  · -- the whole frame is out
    rename_i hdone
    have hall : c.head.numDone + k = c.frame.length := by
      rw [hlen] at hlt hkle ⊢
      rw [hdone]
      exact Nat.mod_eq_of_lt hlt
    obtain ⟨credits, ledger, he⟩ := sentMembers_eq { ctx with
      wire := ctx.wire ++ slice c.frame c.head.numDone k, outqueue := rest }
      ({ c with head := { c.head with numDone := c.head.numDone + k } } : Chain).members
    rw [he]
    refine ⟨⟨sent ++ [c.unsent], ?_, ?_⟩, ?_, hi.fresh⟩
    · simpa using hsub
    · simp only [hwire', hall, List.take_length, hz, List.map_append, List.map_cons, List.map_nil,
        List.flatten_append, List.flatten_cons, List.flatten_nil, List.append_nil,
        Chain.unsent_frame]
    · intro d ds hq'
      simp only at hq'
      have hd : d.head.numDone = 0 := hrest d (hq' ▸ List.mem_cons_self ..)
      refine ⟨?_, fun e hme => hrest e (hq' ▸ List.mem_cons_of_mem _ hme)⟩
      rw [hd]
      exact d.frame_pos
  · -- a part of it is out
    rename_i hdone
    have hpart : c.head.numDone + k < c.frame.length := by
      have hne : c.head.numDone + k ≠ c.frame.length := by
        intro h
        apply hdone
        rw [h, hlen]
        exact (Nat.mod_eq_of_lt (hlen ▸ hlt)).symm
      omega
    refine ⟨⟨sent, ?_, ?_⟩, ?_, hi.fresh⟩
    · exact hsub
    · exact hwire'
    · intro d ds hq'
      obtain ⟨rfl, rfl⟩ := List.cons.inj hq'
      exact ⟨hpart, hrest⟩

/-- **The steps of the queues keep the stream framed.** -/
theorem Step.framed (hs : Step K G ctx ctx') (hi : Framed ctx)
    (hf : ctx'.fault = none) (hp : NothingAborted ctx'.log) : Framed ctx' := by
  have hlog := hs.keeps.log
  have hp₀ := hp.earlier hlog
  cases hs with
  | quiet hq =>
    obtain ⟨k, ho, hr⟩ := hq.out
    obtain ⟨k', hh⟩ := hq.held
    exact hi.freed hp ho hr hq.wire hh hlog
  | crash hc => exact absurd hf hc.fault
  | alloc p hid hn hw =>
    refine ⟨hi.stream, hi.first, ?_⟩
    intro c hc
    rcases List.mem_append.mp hc with hc | hc
    · exact hi.fresh c hc
    · rw [List.mem_singleton.mp hc]
      exact hn
  | compound a b c next hc hn =>
    obtain ⟨hmem, _⟩ := Context.findHeld_mem hc
    refine ⟨hi.stream, hi.first, ?_⟩
    intro d hd
    rcases List.mem_append.mp hd with hd | hd
    · simp only [Context.dropHeld, List.filter_filter] at hd
      exact hi.fresh d (List.mem_of_mem_filter hd)
    · rw [List.mem_singleton.mp hd]
      have htags := addCompoundPdu_tags c next
      simp only [Chain.members, List.map_cons, List.cons_append] at htags
      have hhead := (List.cons.inj htags).1
      simp only [Pdu.tag, Prod.mk.injEq] at hhead
      rw [hhead.2.2]
      exact hi.fresh c hmem
  | submit id c hc hf₀ hf' => exact hi.submit hc hf' hp
  | refuse id c hG hc =>
    exact hi.filter (f := fun _ => true) (g := fun d => d.head.id != id)
      (by simp [Context.dropHeld, Context.emit]) (by simp) rfl rfl (enqueuedChains_grow hlog)
  | offer c rest hq => exact hi.of_same rfl rfl rfl hlog
  | accept c rest n hq hlt => exact hi.accept hp₀ hq n
  | finish q p status hp' =>
    have hu : Framed (ctx.unlink q p.id) := hi.unlink (hp.earlier (List.prefix_append _ _))
    exact hu.of_same rfl rfl rfl (List.prefix_append _ _)
  | forgo q p hp' hcb =>
    have hu : Framed (ctx.unlink q p.id) := hi.unlink (hp.earlier (List.prefix_append _ _))
    exact hu.freePdu hp
  | purge id status hd => exact hi.freePdu hp

theorem Steps.framed (hs : Steps K G ctx ctx') (hi : Framed ctx)
    (hf : ctx'.fault = none) (hp : NothingAborted ctx'.log) : Framed ctx' := by
  induction hs with
  | refl => exact hi
  | tail _ hstep ih =>
    have hk := hstep.keeps.grows
    exact hstep.framed (ih (hk.fault hf) (hp.earlier hk.log)) hf hp

theorem matchReply_framed (hdr : Header) (hi : Framed ctx)
    (hp : NothingAborted (matchReply ctx hdr).ctx.log) : Framed (matchReply ctx hdr).ctx := by
  have hdrop : NothingAborted (dropPdu ctx).log → Framed (dropPdu ctx) := by
    intro hp
    unfold dropPdu at hp ⊢
    split
    · rename_i q hq
      simp only [hq] at hp
      exact (hi.freePdu hp).of_same rfl rfl rfl (List.prefix_refl _)
    · exact hi
  have hl := matchReply_lookup ctx hdr
  generalize matchReply ctx hdr = m at hl hp ⊢
  cases hl with
  | unknown hu hf => exact hdrop hp
  | outOfOrder p hu hf => exact (hdrop hp).of_same rfl rfl rfl (List.prefix_refl _)
  | claimed p hu hf hprev => exact (hdrop hp).of_same rfl rfl rfl (List.prefix_refl _)
  | _ => exact hi.of_same rfl rfl rfl (List.prefix_refl _)

/-- **Reading keeps the stream framed.** -/
theorem CtxStep.framed (hs : CtxStep (appHooks K D) I ctx ctx')
    (hc : ctx.isServer = false) (hi : Framed ctx) (hf : ctx'.fault = none)
    (hp : NothingAborted ctx'.log) : Framed ctx' := by
  have hinvoke : ∀ (p : Pdu) (status : Nat), (invokeCallback K p status ctx).fault = none →
      NothingAborted (invokeCallback K p status ctx).log → Framed (invokeCallback K p status ctx) := by
    intro p status hf hp
    have hrun := invokeCallback_steps (K := K) (G := True) p status ctx (fun _ => trivial)
    exact hrun.framed (hi.of_same rfl rfl rfl (List.prefix_append _ _)) hf hp
  cases hs with
  | note hdr =>
    obtain ⟨cur, mid, he⟩ := noteHeader_eq ctx hdr
    rw [he]
    exact hi.of_same rfl rfl rfl (List.prefix_refl _)
  | grant hdr =>
    unfold grantCredits
    split
    · exact hi
    · exact hi.of_same rfl rfl rfl (List.prefix_refl _)
  | adopt p hdr hsv hp => exact hi.of_same rfl rfl rfl (List.prefix_refl _)
  | matched hdr hc' hp' => exact matchReply_framed hdr hi hp
  | decoded p d hp =>
    obtain ⟨_, _, _, _, he⟩ := applyEffects_eq ctx d.effects
    simp only [applyDecoded, he]
    exact hi.of_same rfl rfl rfl (List.prefix_refl _)
  | opened => exact hi.of_same rfl rfl rfl (List.prefix_append _ _)
  | replied rx p hc' hp' hcb hst hap =>
    have hk := retirePdu_grows (invokeCallback K p rx.hdr.status ctx) p
    have hdone := hinvoke p rx.hdr.status (hk.fault hf) (hp.earlier hk.log)
    exact (hdone.retirePdu hp).of_same rfl rfl rfl (List.prefix_refl _)
  | served rx p hsv hp' hcb =>
    rw [hc] at hsv
    cases hsv
  | interim rx p hpt hf' hcb hn => exact hinvoke p rx.hdr.status hf hp

theorem framed_invariant : Invariant K D G NothingAborted Framed where
  earlier := fun h hp => hp.earlier h
  step := fun hs hi hf hp => hs.framed hi hf hp
  recv := fun hs hc _ hi hf hp => hs.framed hc hi hf hp

end

/-- **The outgoing stream is framed at every moment of every run** in which no chain whose
frame has been started is timed out or freed, and every chain queued fits the length
prefix. -/
theorem stream_is_framed (K : Crypto) (D : Decoders) (s : Session) (ops : List Op)
    (hb : Blank s) (hsv : readsOnlyAsClient s ops)
    (hf : (runOps K D s ops).ctx.fault = none)
    (hp : NothingAborted (runOps K D s ops).ctx.log) : StreamOk (runOps K D s ops).ctx := by
  have hblank : Framed s.ctx := by
    refine ⟨⟨[], ?_, ?_⟩, ?_, ?_⟩
    · simp [hb.outqueue]
    · simp [hb.wire, hb.outqueue, started]
    · intro c rest hq
      rw [hb.outqueue] at hq
      cases hq
    · intro c hc
      rw [hb.held] at hc
      cases hc
  have hrun := runOps_steady (framed_invariant (K := K) (D := D) (G := True)) ops s
    (fun _ => trivial) hsv (hb.steady hblank) hf hp
  have hi := hrun.1.inv
  obtain ⟨sent, hsub, hwire⟩ := hi.stream
  refine ⟨sent, hsub, hwire, fun c rest hq => (hi.first c rest hq).1, ?_⟩
  intro c hc
  have hmem : c ∈ enqueuedChains (runOps K D s ops).ctx.log :=
    hsub.subset (List.mem_append_left _ hc)
  simp only [enqueuedChains, List.mem_filterMap] at hmem
  obtain ⟨e, he, hec⟩ := hmem
  cases e with
  | enqueued d =>
    cases hec
    exact Chain.frame_eq (hp.enqueued he)
  | _ => cases hec

/-! ## Two requests and a short write -/

/-- Decoders that keep the octets of the message as the payload. -/
def plainDecoders : Decoders where
  decodeFixed := plainHooks.decodeFixed
  decodeVariable := plainHooks.decodeVariable

/-- A client whose transport takes ten octets, blocks, and then takes all. -/
def shortWriter : Session where
  smb2 := { ctx := {
    dialect := VERSION_0210
    credits := 10
    env := { tx := [.accept 10, .eagain, .accept 100, .accept 100] } } }

def allocEcho (n : Nat) : Op := .act (.alloc .echo [echoBody] (.app n) none [])

theorem shortWriter_blank : Blank shortWriter := ⟨rfl, rfl, rfl, rfl, rfl, rfl, rfl, rfl⟩

/-- The request behind a half-sent one times out: the half-sent one is still completed. -/
def timeoutBehind : List Op :=
  [allocEcho 1, .act (.setTimeout 5), allocEcho 2, .act (.queue 1), .act (.queue 2),
    .act (.tick 6), .timeout, .write]

theorem timeoutBehind_is_framed :
    StreamOk (runOps echoCrypto plainDecoders shortWriter timeoutBehind).ctx :=
  stream_is_framed echoCrypto plainDecoders shortWriter timeoutBehind shortWriter_blank
    (fun _ _ _ => rfl) (by decide +kernel) (by decide +kernel)

/-- The half-sent request itself times out, and another is queued. -/
def timeoutStarted : List Op :=
  [.act (.setTimeout 5), allocEcho 1, .act (.queue 1), .act (.tick 6), .timeout, allocEcho 2,
    .act (.queue 2)]

/-- **A request that times out half sent leaves a torso in the stream**, and the frame of the
next request follows it. -/
theorem timeout_breaks_framing : Blank shortWriter ∧
    (runOps echoCrypto plainDecoders shortWriter timeoutStarted).ctx.fault = none ∧
    ¬ StreamOk (runOps echoCrypto plainDecoders shortWriter timeoutStarted).ctx := by
  refine ⟨shortWriter_blank, by decide +kernel, ?_⟩
  rintro ⟨sent, hsub, hwire, _⟩
  have hall : ∀ sent ∈ (enqueuedChains
      (runOps echoCrypto plainDecoders shortWriter timeoutStarted).ctx.log).sublists,
      (runOps echoCrypto plainDecoders shortWriter timeoutStarted).ctx.wire ≠
        (sent.map Chain.frame).flatten ++
          started (runOps echoCrypto plainDecoders shortWriter timeoutStarted).ctx.outqueue := by
    decide +kernel
  refine hall sent (List.mem_sublists.mpr ?_) hwire
  exact (List.sublist_append_left _ _).trans hsub

end Libsmb2
