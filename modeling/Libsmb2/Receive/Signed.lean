import Libsmb2.Receive.Layout

/-!
# Signatures on received replies

A client that signs verifies a reply before it runs the callback of the request, and the
octets it verifies are those of the reply: its own header and body, wherever the reply
stands in a compound.

* `flagged_replies_are_authentic` — over every stream and every intact schedule of reads, a
  callback of a signing client runs for a plain reply that is flagged as signed only if the
  signature in the reply is the one `smb2_calc_signature` gives for it.
* `unsigned_reply_is_dispatched` — the flag is the peer's to set: a reply without it is not
  verified, and reaches the callback with success.
-/

set_option autoImplicit false

namespace Libsmb2

open Util

variable {h : Hooks} {K : Crypto}

/-- The signature of the reply is the one of its own header, with the signature cleared,
and its own body. -/
def Dispatch.Authentic (K : Crypto) (d : Dispatch) : Prop :=
  slice d.octets 48 SIGNATURE_SIZE = calcSignature K d.ctx [d.octets]

instance (K : Crypto) (d : Dispatch) : Decidable (d.Authentic K) :=
  inferInstanceAs (Decidable (_ = _))

/-- A plain reply to a request other than negotiate and session setup, on a context that
signs and has a session key. -/
def Dispatch.owesSignature (d : Dispatch) : Bool :=
  d.ctx.sign && !d.ctx.sessionKey.isEmpty && !d.enc &&
    d.pdu.header.command != .negotiate && d.pdu.header.command != .sessionSetup

/-- The header of the reply makes the receive path verify it. -/
def Dispatch.flagged (d : Dispatch) : Bool :=
  d.hdr.hasFlag FLAGS_SIGNED && d.hdr.command != .sessionSetup && d.hdr.status != STATUS_PENDING

/-- The callbacks that ran, with the replies they were given. -/
def Outcome.dispatches (o : Outcome) : List Dispatch :=
  o.smb2.rx.log.filterMap fun
    | .dispatched d => some d
    | .pending d => some d
    | _ => none

/-- A flagged reply that owes a signature carries it. -/
def RxEvent.Guarded (K : Crypto) (e : RxEvent) : Prop :=
  ∀ d, e = .dispatched d ∨ e = .pending d → d.owesSignature = true → d.flagged = true →
    d.Authentic K

theorem RxEvent.Unsealed.guarded {e : RxEvent} (hu : e.Unsealed) : e.Guarded K := by
  intro d hd ho _
  have henc := hu d hd
  simp [Dispatch.owesSignature, henc] at ho

/-- A phase whose offset is the one of its message verifies that message. -/
theorem NewEvent.guarded {off : Nat} {s : Smb2} {e : RxEvent} (ht : Tidy s.rx) (hf : Full s.rx)
    (hoff : checksSignature s = true → off = s.rx.memberOffset) (he : NewEvent K off s e) :
    e.Guarded K := by
  intro d hd ho hfl
  simp only [Dispatch.owesSignature, Dispatch.flagged, Bool.and_eq_true, bne_iff_ne] at ho hfl
  cases he with
  | matched hdr hst hc => rcases hd with hd | hd <;> cases hd
  | requested hdr p hst hs hp => rcases hd with hd | hd <;> cases hd
  | decodedFixed p hp => rcases hd with hd | hd <;> cases hd
  | decodedVariable p hp => rcases hd with hd | hd <;> cases hd
  | pending d' hst henc =>
    rcases hd with hd | hd
    · cases hd
    · cases hd
      exact absurd hst hfl.2
  | dispatched p d' hp hsame hcb hc hst =>
    rcases hd with hd | hd
    · cases hd
      have hsign : d.ctx.sign = true := ho.1.1.1.1
      have hmust : mustVerify { ctx := d.ctx, rx := s.rx } = true := by
        simp only [mustVerify, hsign, ← hc.hdr, hfl.1.1, Bool.true_and, bne_iff_ne]
        exact hfl.1.2
      have hlay : ∃ pre bodies, Layout s.rx pre bodies := by
        have hshape := ht.shape
        unfold Shape at hshape
        simp only [List.mem_cons, List.not_mem_nil, or_false] at hst
        rcases hst with hst | hst | hst <;> simpa only [hst] using hshape
      obtain ⟨pre, bodies, hl⟩ := hlay
      have hcheck : checksSignature s = true := by
        have hm : mustVerify s = true := by
          simpa only [mustVerify, hc.sign] using hmust
        simp only [List.mem_cons, List.not_mem_nil, or_false] at hst
        rcases hst with hst | hst | hst <;> simp [checksSignature, hm, hst]
      have hgood := hc.verified hmust
      rw [hoff hcheck] at hgood
      have hsig := verify_good (s := { ctx := d.ctx, rx := s.rx }) hl hf hgood
      simp only [Dispatch.Authentic, hc.octets]
      exact hsig
    · cases hd

theorem Tidy.store {s : Smb2} (ht : Tidy s.rx) {bs : Bytes}
    (hle : bs.length ≤ s.rx.totalSize - s.rx.numDone) : Tidy (store s bs).rx where
  plain := ht.plain
  length := by
    have hlen := ht.length
    simp only [Libsmb2.store, List.length_append]
    omega
  room := by
    have hroom := ht.room
    simp only [store_numDone, store_totalSize]
    omega
  shape := by
    have hshape := ht.shape
    unfold Shape at hshape ⊢
    simp only [Libsmb2.store]
    split
    · rename_i hst
      simpa only [hst] using hshape
    · rename_i hst
      simpa only [hst] using hshape
    all_goals first
      | trivial
      | rename_i hst
        simp only [hst] at hshape
        obtain ⟨pre, bodies, hl⟩ := hshape
        exact ⟨pre, bodies, hl.before, hl.iov, hl.plain, hl.offset⟩

/-- The preamble of a read sets up the vectors of a new frame. -/
theorem Resting.start {s : Smb2} (hr : Resting s) : Tidy (start s).rx := by
  obtain ⟨hplain, hz | ht⟩ := hr
  · simp only [Libsmb2.start, hz, if_true]
    exact ⟨hplain, rfl, by simp, rfl⟩
  · unfold Libsmb2.start
    split
    · rename_i hz
      exact ⟨ht.plain, hz.symm, by simp [hz], rfl⟩
    · exact ht

/-- The flow of a phase leads to the next read with the receiver at rest. -/
theorem settle_guarded {l : Locals} {f : Flow} {n : Nat} (hc : f.smb2.ctx.isServer = false)
    (hkeep : f.KeepsTidy) (hreg : f.Regular n false) :
    Logged (RxEvent.Guarded K) f.smb2.rx.log (settle h K l f).smb2.rx.log ∧
      ∀ s' l', settle h K l f = .next s' l' → Resting s' := by
  cases f with
  | more s => exact ⟨.refl _, fun s' l' e => by cases e; exact ⟨hkeep.1.plain, .inr hkeep.1⟩⟩
  | chained s => exact ⟨.refl _, fun s' l' e => by cases e; exact ⟨hkeep.1.plain, .inr hkeep.1⟩⟩
  | done s => exact ⟨.refl _, fun s' l' e => by cases e; exact ⟨hreg.2, .inl hreg.1⟩⟩
  | fail e s => exact ⟨.refl _, fun s' l' e => by cases e⟩
  | fault e s => exact ⟨.refl _, fun s' l' e => by cases e⟩
  | flush s => cases hreg.1.symm.trans hc
  | decrypt plain s =>
    have hb := readBuf_unsealed (h := h) (K := K) (plain.length + 1) plain s {} hreg
    have hb := hb.mono fun e he => he.guarded (K := K)
    simp only [settle, Flow.smb2]
    split
    · rename_i s1 e1
      rw [e1] at hb
      refine ⟨hb, fun s' l' e => ?_⟩
      cases e
      have hz : s1.rx.numDone = 0 := readBuf_ok_numDone e1
      exact ⟨rfl, .inl hz⟩
    · rename_i e' s1 e1
      rw [e1] at hb
      exact ⟨hb, fun s' l' e => by cases e⟩
    · rename_i f s1 e1
      rw [e1] at hb
      exact ⟨hb, fun s' l' e => by cases e⟩

/-- One read: what it reports is guarded, and the receiver is at rest again. -/
theorem arrive_guarded {s : Smb2} {l : Locals} {bs : Bytes} (hc : s.ctx.isServer = false)
    (ht : Tidy s.rx) (hlt : s.rx.numDone < s.rx.totalSize)
    (hle : bs.length ≤ s.rx.totalSize - s.rx.numDone)
    (hoff : checksSignature (store s bs) = true → l.iovOffset = s.rx.memberOffset) :
    Logged (RxEvent.Guarded K) s.rx.log (arrive h K s l bs).smb2.rx.log ∧
      ∀ s' l', arrive h K s l bs = .next s' l' → Resting s' := by
  have ht' := ht.store hle
  unfold arrive
  simp only
  split
  · refine ⟨.refl _, fun s' l' e => ?_⟩
    cases e
    exact ⟨ht'.plain, .inr ht'⟩
  · rename_i hfull
    have hf : Full (store s bs).rx := by
      have hroom := ht'.room
      exact ⟨ht'.length, by omega⟩
    have hlog := (phase_logged (h := h) (K := K) false l.iovOffset (store s bs)).mono
      fun e he => he.guarded ht' hf hoff
    have hreg := phase_regular (h := h) (K := K) false l.iovOffset (store s bs)
    rw [ht'.plain] at hreg
    have hset := settle_guarded (h := h) (K := K) (l := l)
      ((phase_isServer false l.iovOffset (store s bs)).trans hc)
      (phase_tidy ht' hf (store_done hlt hfull)) hreg
    exact ⟨hlog.trans hset.1, hset.2⟩

/-- **Every run on an intact schedule reports guarded events only.** -/
theorem readFromSocket_guarded (rs : List Recv) (bs : Bytes) (s : Smb2) (l : Locals)
    (hc : s.ctx.isServer = false) (hl : l.flushing = false) (hr : Resting s)
    (hi : intact h K rs bs s l = true) :
    Logged (RxEvent.Guarded K) s.rx.log (readFromSocket h K rs bs s l).smb2.rx.log := by
  have hlogs : ∀ s : Smb2, (start s).rx.log = s.rx.log := by
    intro s
    unfold start
    split <;> rfl
  have hpark : ∀ (s : Smb2) (bs : Bytes), (park (start s) bs).smb2.rx.log = s.rx.log := by
    intro s bs
    unfold park
    split <;> exact hlogs s
  induction rs generalizing bs s l with
  | nil =>
    simp only [readFromSocket, hl, Bool.false_eq_true, if_false, hpark]
    exact .refl _
  | cons r rs ih =>
    have hc' : (start s).ctx.isServer = false := by rw [start_ctx]; exact hc
    have ht := hr.start
    have hfresh : intact h K rs bs (start s) {} = true →
        Logged (RxEvent.Guarded K) s.rx.log (readFromSocket h K rs bs (start s) {}).smb2.rx.log := by
      intro hi
      have := ih bs (start s) {} hc' rfl ⟨ht.plain, .inr ht⟩ hi
      rwa [hlogs] at this
    unfold readFromSocket
    unfold intact at hi
    simp only [hl, Bool.false_eq_true, if_false]
    cases hg : gate (start s) with
    | overrun =>
      simp only [Outcome.smb2, hlogs]
      exact .refl _
    | closed =>
      simp only [Outcome.smb2, hlogs]
      exact .refl _
    | parked =>
      simp only [Outcome.smb2, hlogs]
      exact .refl _
    | ready =>
      simp only [hg] at hi
      obtain ⟨hlt, _⟩ := gate_ready hg
      cases r with
      | wouldBlock => exact hfresh hi
      | closed =>
        simp only [Outcome.smb2, hlogs]
        exact .refl _
      | failed =>
        simp only [Outcome.smb2, hlogs]
        exact .refl _
      | data n =>
        simp only at hi ⊢
        by_cases hbs : bs = []
        · subst hbs
          simp only [if_true] at hi ⊢
          exact hfresh hi
        · simp only [hbs, if_false, Bool.and_eq_true] at hi ⊢
          obtain ⟨hoff, hi⟩ := hi
          have hk := offered_le (start s)
          have hle : (bs.take (min (n + 1) (offered (start s)))).length ≤
              (start s).rx.totalSize - (start s).rx.numDone := by
            simp only [List.length_take]
            omega
          have hstep := arrive_guarded (h := h) (K := K) (l := l) hc' ht hlt hle
            (fun hv => by simpa [hv] using hoff)
          rw [hlogs] at hstep
          cases ha : arrive h K (start s) l (bs.take (min (n + 1) (offered (start s)))) with
          | next s' l' =>
            obtain ⟨hc'', hl'⟩ := arrive_client hc' hl hlt ha
            simp only [ha] at hi hstep ⊢
            exact hstep.1.trans (ih _ s' l' hc'' hl' (hstep.2 _ _ rfl) hi)
          | failed e s' =>
            rw [ha] at hstep
            exact hstep.1
          | faulted f s' =>
            rw [ha] at hstep
            exact hstep.1

/-- **Signed replies are verified over their own octets.**  Whatever arrives at a client, if
no cut separates a signed message from its offset, then every callback that runs for a
plain reply flagged as signed, on a context that signs, has a reply with the signature that
`smb2_calc_signature` gives for that reply. -/
theorem flagged_replies_are_authentic (h : Hooks) (K : Crypto) (ctx : Context) (rs : List Recv)
    (bs : Bytes) (hc : ctx.isServer = false)
    (hi : intact h K rs bs { ctx := ctx } {} = true) :
    ∀ d ∈ (readFromSocket h K rs bs { ctx := ctx } {}).dispatches,
      d.owesSignature = true → d.flagged = true → d.Authentic K := by
  intro d hd
  have hlog := readFromSocket_guarded (h := h) (K := K) rs bs { ctx := ctx } {} hc rfl
    ⟨rfl, .inl rfl⟩ hi
  simp only [Outcome.dispatches, List.mem_filterMap] at hd
  obtain ⟨e, he, hed⟩ := hd
  rcases hlog.mem he with hnil | hg
  · cases hnil
  · cases e with
    | dispatched d' =>
      cases hed
      exact hg d (.inl rfl)
    | pending d' =>
      cases hed
      exact hg d (.inr rfl)
    | matched _ _ => cases hed
    | requested _ _ => cases hed
    | decodedFixed _ _ => cases hed
    | decodedVariable _ _ => cases hed

theorem echo_reply_is_authentic :
    intact plainHooks echoCrypto wholeReads echoReply echoClient {} = true ∧
      ∀ d ∈ (readFromSocket plainHooks echoCrypto wholeReads echoReply echoClient {}).dispatches,
        d.owesSignature = true → d.flagged = true → d.Authentic echoCrypto := by
  have hi : intact plainHooks echoCrypto wholeReads echoReply echoClient {} = true := by
    decide +kernel
  refine ⟨hi, ?_⟩
  exact flagged_replies_are_authentic plainHooks echoCrypto echoClient.ctx wholeReads echoReply
    rfl hi

/-- An echo reply that nobody signed. -/
def forgedReply : Bytes := be32 68 ++ (echoHeader 1 0 1 (zeros 16)).encode ++ echoBody

/-- **A reply without the flag reaches the callback with success**, on an intact schedule. -/
theorem unsigned_reply_is_dispatched :
    intact plainHooks echoCrypto wholeReads forgedReply echoClient {} = true ∧
      ∃ d ∈ (readFromSocket plainHooks echoCrypto wholeReads forgedReply echoClient {}).dispatches,
        d.owesSignature = true ∧ d.hdr.status = STATUS_SUCCESS ∧ ¬ d.Authentic echoCrypto := by
  constructor
  · decide +kernel
  · decide +kernel

end Libsmb2
