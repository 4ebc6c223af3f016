import Libsmb2.Receive.Steps

/-!
# The rule of the receive machine

A property `J` of the states that every phase keeps holds wherever the machine goes on, for
any stream and any schedule (`readFromSocket_ends`), and inside a decrypted buffer
(`readBuf_ends`).  What holds when it gives up is `E`, and what holds when it runs into
undefined behaviour is `F`; both may say more than `J` about the last phase, and less about the
state it leaves.

* `readFromSocket_steps` — whatever the peer sends, the context changes by the listed steps only;
* `readFromSocket_idle` — and a client that waits has no request, or is reading its reply.
-/

set_option autoImplicit false

namespace Libsmb2

open Util

/-- How a phase ends. -/
def Flow.Ends (J E : Smb2 → Prop) (F : Fault → Smb2 → Prop) : Flow → Prop
  | .fail _ s => E s
  | .fault f s => F f s
  | f => J f.smb2

def BufResult.Ends (J E : Smb2 → Prop) (F : Fault → Smb2 → Prop) : BufResult → Prop
  | .ok s => J s
  | .error _ s => E s
  | .fault f s => F f s

def Turn.Ends (J E : Smb2 → Prop) (F : Fault → Smb2 → Prop) : Turn → Prop
  | .next s l => J s ∧ l.Sane s
  | .failed _ s => E s
  | .faulted f s => F f s

def Outcome.Ends (J E : Smb2 → Prop) (F : Fault → Smb2 → Prop) : Outcome → Prop
  | .waiting s _ => J s
  | .failed _ s _ => E s
  | .faulted f s _ => F f s

variable {h : Hooks} {K : Crypto}

/-- The answer to an SMB1 negotiate ends the call. -/
theorem smb1Negotiate_ends (stale : Bool) (s : Smb2) :
    (∃ s', smb1Negotiate h stale s = .done s' ∧ s'.rx.numDone = 0) ∨
      ∃ f s', smb1Negotiate h stale s = .fault f s' := by
  unfold smb1Negotiate
  split
  · exact .inr ⟨_, _, rfl⟩
  · split
    · exact .inr ⟨_, _, rfl⟩
    · split
      · exact .inr ⟨_, _, rfl⟩
      · simp only
        split
        · exact .inr ⟨_, _, rfl⟩
        · exact .inl ⟨_, rfl, rfl⟩

/-- What the phases have to keep inside a decrypted buffer. -/
structure BufRule (h : Hooks) (K : Crypto) (J E : Smb2 → Prop) (F : Fault → Smb2 → Prop) :
    Prop where
  stored : ∀ {s : Smb2} (bs : Bytes), J s → J (store s bs)
  phase : ∀ (off : Nat) {s : Smb2}, J s → s.rx.numDone ≠ 0 → (phase h K true off s).Ends J E F
  negotiate : ∀ (stale : Bool) {s : Smb2}, J s → s.ctx.isServer = true →
    (smb1Negotiate h stale s).Ends J E F
  fails : ∀ {s : Smb2}, J s → E s
  faults : ∀ {s : Smb2}, J s → F .vectorOverrun s ∧ F .outOfFuel s

/-- A decrypted buffer that is read to its end leaves the receiver between frames. -/
theorem BufRule.readBuf_ends {J E : Smb2 → Prop} {F : Fault → Smb2 → Prop}
    (hr : BufRule h K J E F) (fuel : Nat) (plain : Bytes) (s : Smb2) (l : Locals) (hj : J s) :
    (readBuf h K fuel plain s l).Ends (fun s => J s ∧ s.rx.numDone = 0) E F := by
  induction fuel generalizing plain s l with
  | zero => exact (hr.faults hj).2
  | succ fuel ih =>
    unfold readBuf
    split
    · exact (hr.faults hj).1
    · simp only
      split
      · exact hr.fails hj
      · split
        · exact ih _ _ _ (hr.stored _ hj)
        · rename_i hroom _ hfull
          have hph := hr.phase l.iovOffset
            (hr.stored (plain.take (s.rx.totalSize - s.rx.numDone)) hj)
            (store_done (by omega) hfull)
          have hreg := phase_regular (h := h) (K := K) true l.iovOffset
            (store s (plain.take (s.rx.totalSize - s.rx.numDone)))
          generalize Libsmb2.phase h K true l.iovOffset _ = f at hph hreg ⊢
          cases f with
          | more s' => exact ih _ s' _ hph
          | chained s' => exact ih _ s' _ hph
          | done s' => exact ⟨hph, hreg.1⟩
          | fail e s' => exact hph
          | fault f s' => exact hph
          | flush s' =>
            have hneg : (smb1Negotiate h l.stale s').Ends J E F := hr.negotiate l.stale hph hreg.1
            rcases smb1Negotiate_ends (h := h) l.stale s' with ⟨s2, e, hz⟩ | ⟨f, s2, e⟩
            · simp only [e] at hneg ⊢
              exact ⟨hneg, hz⟩
            · simp only [e] at hneg ⊢
              exact hneg
          | decrypt plain' s' => exact ih _ s' _ hph

theorem readBuf_ok_numDone {fuel : Nat} {plain : Bytes} {s s' : Smb2} {l : Locals}
    (e : readBuf h K fuel plain s l = .ok s') : s'.rx.numDone = 0 := by
  have hends : ∀ f : Flow, f.Ends (fun _ => True) (fun _ => True) (fun _ _ => True) := by
    intro f
    cases f <;> trivial
  have hrule : BufRule h K (fun _ => True) (fun _ => True) (fun _ _ => True) :=
    ⟨fun _ _ => trivial, fun _ _ _ _ => hends _, fun _ _ _ _ => hends _, fun _ => trivial,
      fun _ => ⟨trivial, trivial⟩⟩
  have hb := hrule.readBuf_ends fuel plain s l trivial
  rw [e] at hb
  exact hb.2

/-- What the phases have to keep. -/
structure ReadRule (h : Hooks) (K : Crypto) (J E : Smb2 → Prop) (F : Fault → Smb2 → Prop) :
    Prop where
  stored : ∀ {s : Smb2} (bs : Bytes), J s → J (store s bs)
  started : ∀ {s : Smb2}, J s → J (start s)
  plain : ∀ {s : Smb2}, J s → s.rx.numDone = 0 → J { s with rx := { s.rx with enc := false } }
  phase : ∀ (xfrm : Bool) (off : Nat) {s : Smb2}, J s → s.rx.numDone ≠ 0 →
    (phase h K xfrm off s).Ends J E F
  negotiate : ∀ (stale : Bool) {s : Smb2}, J s → s.ctx.isServer = true →
    (smb1Negotiate h stale s).Ends J E F
  fails : ∀ {s : Smb2}, J s → E s
  faults : ∀ {s : Smb2}, J s → F .vectorOverrun s ∧ F .outOfFuel s

namespace ReadRule

variable {J E : Smb2 → Prop} {F : Fault → Smb2 → Prop}

theorem toBuf (hr : ReadRule h K J E F) : BufRule h K J E F :=
  ⟨hr.stored, hr.phase true, hr.negotiate, hr.fails, hr.faults⟩

theorem settle_ends (hr : ReadRule h K J E F) {l : Locals} {f : Flow} (hf : f.Ends J E F)
    (hl : l.Sane f.smb2) (hfl : ∀ s, f = .flush s → s.ctx.isServer = true) :
    (settle h K l f).Ends J E F := by
  cases f with
  | more s => exact ⟨hf, hl⟩
  | chained s => exact ⟨hf, hl⟩
  | done s => exact ⟨hf, Locals.sane_fresh _⟩
  | fail e s => exact hf
  | fault f s => exact hf
  | flush s => exact ⟨hf, fun _ => hfl s rfl⟩
  | decrypt plain s =>
    have hb := hr.toBuf.readBuf_ends (plain.length + 1) plain s {} hf
    simp only [settle]
    generalize readBuf h K _ plain s {} = r at hb ⊢
    cases r with
    | ok s' => exact ⟨hr.plain hb.1 hb.2, Locals.sane_fresh _⟩
    | error e s' => exact hb
    | fault f s' => exact hb

theorem arrive_ends (hr : ReadRule h K J E F) {s : Smb2} {l : Locals} (bs : Bytes) (hj : J s)
    (hl : l.Sane s) (hlt : s.rx.numDone < s.rx.totalSize) : (arrive h K s l bs).Ends J E F := by
  unfold arrive
  simp only
  split
  · exact ⟨hr.stored bs hj, hl⟩
  · rename_i hfull
    have hph := hr.phase false l.iovOffset (hr.stored bs hj) (store_done hlt hfull)
    refine hr.settle_ends hph ?_ (fun s' e => phase_flush_isServer e)
    intro hf
    rw [phase_isServer]
    exact hl hf

theorem park_ends (hr : ReadRule h K J E F) {s : Smb2} (bs : Bytes) (hj : J s) :
    (park s bs).Ends J E F := by
  unfold park
  split
  · exact (hr.faults hj).1
  · exact hr.fails hj
  · exact hj

theorem negotiate_turn_ends (hr : ReadRule h K J E F) {s : Smb2} {l : Locals} (hj : J s)
    (hs : s.ctx.isServer = true) : (settle h K {} (smb1Negotiate h l.stale s)).Ends J E F := by
  have hneg := hr.negotiate l.stale hj hs
  rcases smb1Negotiate_ends (h := h) l.stale s with ⟨s2, e2, _⟩ | ⟨f, s2, e2⟩
  · rw [e2] at hneg ⊢
    exact ⟨hneg, Locals.sane_fresh _⟩
  · rw [e2] at hneg ⊢
    exact hneg

/-- **The rule**: whatever the peer sends and however it arrives. -/
theorem readFromSocket_ends (hr : ReadRule h K J E F) (rs : List Recv) (bs : Bytes) (s : Smb2)
    (l : Locals) (hj : J s) (hl : l.Sane s) : (readFromSocket h K rs bs s l).Ends J E F := by
  induction rs generalizing bs s l with
  | nil =>
    unfold readFromSocket
    split
    · rename_i hfl
      have hturn := hr.negotiate_turn_ends (l := l) hj (hl hfl)
      generalize settle h K {} _ = t at hturn ⊢
      cases t with
      | next s' l' => exact hr.park_ends bs (hr.started hturn.1)
      | failed e s' => exact hturn
      | faulted f s' => exact hturn
    · exact hr.park_ends bs (hr.started hj)
  | cons r rs ih =>
    have hstart := hr.started hj
    unfold readFromSocket
    split
    · rename_i hfl
      split
      · exact ih _ _ _ hj hl
      · have hturn := hr.negotiate_turn_ends (l := l) hj (hl hfl)
        generalize settle h K {} _ = t at hturn ⊢
        cases t with
        | next s' l' => exact ih _ _ _ hturn.1 hturn.2
        | failed e s' => exact hturn
        | faulted f s' => exact hturn
    · have hagain := ih bs (start s) {} hstart (Locals.sane_fresh _)
      split
      · exact (hr.faults hstart).1
      · exact hr.fails hstart
      · exact hstart
      · rename_i hg
        obtain ⟨hlt, _⟩ := gate_ready hg
        split
        · exact hagain
        · exact hr.fails hstart
        · exact hr.fails hstart
        · rename_i n
          split
          · exact hagain
          · simp only
            have hl0 : l.Sane (start s) := by
              intro hfl
              rw [start_ctx]
              exact hl hfl
            have hturn := hr.arrive_ends (bs.take (min (n + 1) (offered (start s)))) hstart hl0 hlt
            generalize arrive h K (start s) l _ = t at hturn ⊢
            cases t with
            | next s' l' => exact ih _ _ _ hturn.1 hturn.2
            | failed e s' => exact hturn
            | faulted f s' => exact hturn

end ReadRule

/-! ## What a run does to a context -/

/-- The context goes on from `ctx` by the listed steps. -/
theorem steps_rule (h : Hooks) (K : Crypto) (I : Prop) (ctx : Context) :
    ReadRule h K (fun s => CtxSteps h I ctx s.ctx ∧ (I → Idle s)) (fun s => CtxSteps h I ctx s.ctx)
      (fun _ s => CtxSteps h I ctx s.ctx) where
  stored bs hj := ⟨hj.1, fun i => (hj.2 i).store bs⟩
  started hj := ⟨(start_ctx _).symm ▸ hj.1, fun i => (hj.2 i).start⟩
  plain hj _ := by
    refine ⟨hj.1, fun i hc => ?_⟩
    rcases hj.2 i hc with hp | ⟨hb, hap⟩
    · exact .inl hp
    · exact .inr ⟨⟨hb.state, hb.status, hb.started⟩, hap⟩
  phase xfrm off s hj hpos := by
    have hsteps := hj.1.trans (phase_steps (K := K) xfrm off s hj.2)
    have hidle := fun i => phase_idle (h := h) (K := K) xfrm off hpos (hj.2 i)
    generalize phase h K xfrm off s = f at hsteps hidle
    cases f with
    | fail e s' => exact hsteps
    | fault f s' => exact hsteps
    | _ => exact ⟨hsteps, hidle⟩
  negotiate stale s hj hs := by
    have hn := smb1Negotiate_steps (h := h) (I := I) stale hs
    have hrole := hn.isServer.trans hs
    generalize smb1Negotiate h stale s = f at hn hrole
    cases f with
    | fail e s' => exact hj.1.trans hn
    | fault f s' => exact hj.1.trans hn
    | _ => exact ⟨hj.1.trans hn, fun _ => idle_of_server hrole⟩
  fails hj := hj.1
  faults hj := ⟨hj.1, hj.1⟩

/-- **Whatever the peer sends and however it arrives, the receive path changes the
context by the listed steps only.** -/
theorem readFromSocket_steps {I : Prop} (rs : List Recv) (bs : Bytes) (s : Smb2) (l : Locals)
    (hl : l.Sane s) (hi : I → Idle s) :
    CtxSteps h I s.ctx (readFromSocket h K rs bs s l).smb2.ctx := by
  have hends := (steps_rule h K I s.ctx).readFromSocket_ends rs bs s l ⟨.refl, hi⟩ hl
  generalize readFromSocket h K rs bs s l = o at hends
  cases o with
  | waiting s' rest => exact hends.1
  | failed e s' rest => exact hends
  | faulted f s' rest => exact hends

/-- Calls that end with the client waiting leave it between messages or inside one. -/
theorem readFromSocket_idle {rs : List Recv} {bs rest : Bytes} {s s' : Smb2} {l : Locals}
    (hl : l.Sane s) (hi : Idle s) (e : readFromSocket h K rs bs s l = .waiting s' rest) :
    Idle s' := by
  have hends := (steps_rule h K True s.ctx).readFromSocket_ends rs bs s l ⟨.refl, fun _ => hi⟩ hl
  rw [e] at hends
  exact hends.2 trivial

/-- A read leaves a client a client, with nothing to flush. -/
theorem arrive_client {s s' : Smb2} {l l' : Locals} {bs : Bytes} (hc : s.ctx.isServer = false)
    (hl : l.flushing = false) (hlt : s.rx.numDone < s.rx.totalSize)
    (e : arrive h K s l bs = .next s' l') : s'.ctx.isServer = false ∧ l'.flushing = false := by
  have hends := (steps_rule h K False s.ctx).arrive_ends bs ⟨.refl, False.elim⟩
    (fun hf => absurd (hl.symm.trans hf) (by decide)) hlt
  rw [e] at hends
  have hrole := hends.1.1.isServer.trans hc
  refine ⟨hrole, Bool.eq_false_iff.mpr fun hf => ?_⟩
  cases hrole.symm.trans (hends.2 hf)

end Libsmb2
