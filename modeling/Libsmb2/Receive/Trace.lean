import Libsmb2.Receive.Signed

/-!
# What a run of the receive path passes

`smb2_read_data` comes back to the label `read_more_data` from eleven places.  `trace` runs
the machine as `readFromSocket` does and lists what it passes: each arrival at that label,
each phase whose octets are all there, and each frame and each decrypted buffer that ended
with result 0.

The accounting of the vectors is what the skipping loop at the label relies on:

* `skipVectors` — that loop;
* `vectors_are_accounted` — **in every run that meets no bare header, the counter `total_size` is
  the length of the vectors at each arrival and exceeds `num_done`**, so the loop stops at a
  vector, and the twelve octets moved behind a transform header fit;
* `bare_pending_overruns` — an interim reply that ends its frame breaks it.
-/

set_option autoImplicit false

namespace Libsmb2

open Util

/-- What a run of the receive path passes. -/
inductive Visit
  /-- The label `read_more_data`. -/
  | readMore (s : Smb2)
  /-- All octets of the current phase are there; the flag is `has_xfrmhdr`. -/
  | filled (xfrm : Bool) (s : Smb2)
  /-- A frame has ended with result 0: the octets of the stream since it began. -/
  | frame (octets : Bytes)
  /-- A decrypted buffer will not be read further: what is left of it. -/
  | buffer (rest : Bytes)
  deriving DecidableEq, Repr

/-- The call of `smb2_read_data` on the transport returns 0 after this. -/
def Flow.endsFrame : Flow → Bool
  | .done _ => true
  | .decrypt _ _ => true
  | _ => false

/-- What the reads of a run meet: an answer of the transport, or a call that would block and
after it whatever the application, its timers and its writes do to the context. -/
inductive Input
  | recv (r : Recv)
  | app (change : Context → Context)

namespace Input

/-- The octets that a read of the stream `bs` could return, none of them if it would block;
nothing if it fails. -/
def octets (bs : Bytes) : Input → Option Bytes
  | .recv (.data n) => some (bs.take (n + 1))
  | .recv .wouldBlock => some []
  | .recv .closed => none
  | .recv .failed => none
  | .app _ => some []

/-- The application has the context. -/
def leave (s : Smb2) : Input → Smb2
  | .app change => { s with ctx := change s.ctx }
  | .recv _ => s

end Input

section
variable (h : Hooks) (K : Crypto)

/-- What `readBuf` passes. -/
def traceBuf : Nat → Bytes → Smb2 → Locals → List Visit
  | 0, _, _, _ => []
  | fuel + 1, plain, s, l =>
    .readMore s ::
      if s.rx.totalSize ≤ s.rx.numDone ∨ plain = [] then []
      else
        let want := s.rx.totalSize - s.rx.numDone
        let s := store s (plain.take want)
        let rest := plain.drop want
        if s.rx.numDone < s.rx.totalSize then traceBuf fuel rest s l
        else .filled true s ::
          match phase h K true l.iovOffset s with
          | .more s => traceBuf fuel rest s l
          | .chained s =>
            traceBuf fuel rest s { l with iovOffset := s.rx.iov.length - 2, stale := true }
          | .done _ => [.buffer rest]
          -- the flush reads the buffer to its end
          | .flush _ => [.buffer []]
          | .decrypt plain' s => .buffer rest :: traceBuf fuel plain' s {}
          | .fail _ _ => []
          | .fault _ _ => []

/-- What the buffer of a transform frame adds. -/
def traceNested : Flow → List Visit
  | .decrypt plain s => traceBuf h K (plain.length + 1) plain s {}
  | _ => []

/-- What `readFromSocket` passes when the application runs in between; `seen` are the octets
of the stream since the frame began. -/
def trace : List Input → Bytes → Bytes → Smb2 → Locals → List Visit
  | [], _, _, s, l => if l.flushing then [] else [.readMore (start s)]
  | i :: is, seen, bs, s, l =>
    if l.flushing then
      match i.octets bs with
      -- the flush takes at most 32 octets a read
      | some (b :: k) => trace is (seen ++ (b :: k).take 32) (bs.drop (min (k.length + 1) 32)) s l
      | _ =>
        match settle h K {} (smb1Negotiate h l.stale s) with
        | .next s l => .frame seen :: trace is [] bs (i.leave s) l
        | _ => []
    else .readMore (start s) ::
      if gate (start s) = .ready then
        match i.octets bs with
        | none => []
        | some [] => trace is seen bs (i.leave (start s)) {}
        | some (b :: k) =>
          let got := (b :: k).take (offered (start s))
          let s' := store (start s) got
          let seen' := seen ++ got
          let rest := bs.drop got.length
          if s'.rx.numDone < s'.rx.totalSize then trace is seen' rest s' l
          else
            let f := phase h K false l.iovOffset s'
            .filled false s' :: (traceNested h K f ++
              match settle h K l f with
              | .next s'' l'' =>
                if f.endsFrame then .frame seen' :: trace is [] rest s'' l''
                else trace is seen' rest s'' l''
              | _ => [])
      else []

end

/-! ## The skipping loop -/

/-- The loop of `smb2_read_data` that skips the vectors already filled: the vectors left and
the octets already in the first of them, or nothing if it runs off the end. -/
def skipVectors : List IoVec → Nat → Option (List IoVec × Nat)
  | [], _ => none
  | v :: vs, numDone =>
    if v.len ≤ numDone then skipVectors vs (numDone - v.len) else some (v :: vs, numDone)

theorem skipVectors_isSome (vs : List IoVec) (numDone : Nat) :
    (skipVectors vs numDone).isSome = true ↔ numDone < (vs.map IoVec.len).sum := by
  induction vs generalizing numDone with
  | nil => simp [skipVectors]
  | cons v vs ih =>
    simp only [skipVectors, List.map_cons, List.sum_cons]
    split
    · rw [ih]
      omega
    · simp only [Option.isSome_some, true_iff]
      omega

/-! ## Accounted runs -/

/-- The length of the vector that is to take the cipher text of a transform frame. -/
def transformLength (rx : Receiver) : Int := toInt32 ((rx.spl : Int) - TRANSFORM_HEADER_SIZE)

/-- Twelve octets are moved behind a transform header. -/
def movesTransform (rx : Receiver) : Prop :=
  rx.state = .header ∧ rx.header.take 4 = Header.smb3tfrm ∧ 0 ≤ transformLength rx ∧
    rx.iov.length < MAX_VECTORS

/-- The accounting of the vectors at a point of a run. -/
def Visit.Accounted : Visit → Prop
  | .readMore s => s.rx.total = (s.rx.iov.map IoVec.len).sum ∧ s.rx.numDone < s.rx.total ∧
      (skipVectors s.rx.iov s.rx.numDone).isSome = true
  | .filled _ s => movesTransform s.rx → 12 ≤ transformLength s.rx
  | .frame _ => True
  | .buffer _ => True

/-- The reply to no request that waits. -/
def unmatched (ctx : Context) (hdr : Header) : Bool :=
  !(hdr.command = .oplockBreak && hdr.messageId = 0xffffffffffffffff) &&
    ((dropPdu ctx).findPdu hdr.messageId).isNone

/-- The rest of the frame is skipped after this header. -/
def skipsRest (ctx : Context) (hdr : Header) : Bool :=
  hdr.hasFlag FLAGS_SERVER_TO_REDIR != ctx.isServer &&
    (hdr.status = STATUS_PENDING || !ctx.isServer && unmatched ctx hdr)

/-- A header that ends its frame although the rest of the frame is to be skipped, or a
transform header with no more than twelve octets of cipher text. -/
def bareHeader (xfrm : Bool) (s : Smb2) : Bool :=
  if s.rx.header.take 4 = Header.smb3tfrm then
    0 ≤ transformLength s.rx && transformLength s.rx ≤ 12
  else match Header.decode s.rx.header with
    | none => false
    | some hdr => skipsRest s.ctx hdr && restLength s.rx xfrm = 0

/-- No header met here is bare. -/
def Visit.Ample : Visit → Prop
  | .filled xfrm s => s.rx.state = .header → bareHeader xfrm s = false
  | _ => True

instance : DecidablePred Visit.Ample
  | .readMore _ => inferInstanceAs (Decidable True)
  | .filled xfrm s => inferInstanceAs (Decidable (s.rx.state = .header → bareHeader xfrm s = false))
  | .frame _ => inferInstanceAs (Decidable True)
  | .buffer _ => inferInstanceAs (Decidable True)

instance (rx : Receiver) : Decidable (movesTransform rx) :=
  inferInstanceAs (Decidable (_ ∧ _ ∧ _ ∧ _))

instance : DecidablePred Visit.Accounted
  | .readMore _ => inferInstanceAs (Decidable (_ ∧ _ ∧ _))
  | .filled _ s => inferInstanceAs (Decidable (movesTransform s.rx → 12 ≤ transformLength s.rx))
  | .frame _ => inferInstanceAs (Decidable True)
  | .buffer _ => inferInstanceAs (Decidable True)

/-! ## The counter is kept -/

/-- **The invariant at `read_more_data`.** -/
structure Metered (rx : Receiver) : Prop where
  total : rx.total = rx.totalSize
  room : rx.numDone < rx.totalSize
  header : rx.state = .header → ∃ pre, rx.iov = pre ++ [⟨true, HEADER_SIZE⟩]

/-- The same when all octets have arrived. -/
structure Brimful (rx : Receiver) : Prop where
  total : rx.total = rx.totalSize
  done : rx.numDone = rx.totalSize
  header : rx.state = .header → ∃ pre, rx.iov = pre ++ [⟨true, HEADER_SIZE⟩]

/-- Whatever is read next is accounted for. -/
def Flow.KeepsMetered : Flow → Prop
  | .more s => Metered s.rx
  | .chained s => Metered s.rx
  | .decrypt _ s => Metered s.rx
  | _ => True

variable {s s' : Smb2}

theorem Metered.accounted (hm : Metered s.rx) : (Visit.readMore s).Accounted := by
  have hroom : s.rx.numDone < s.rx.total := by
    rw [hm.total]
    exact hm.room
  exact ⟨hm.total, hroom, (skipVectors_isSome _ _).mpr hm.room⟩

section
variable {h : Hooks} {K : Crypto}

/-- A vector of some octets is added for the next phase. -/
theorem expect_metered {st : RecvState} {len : Int} (htot : s.rx.total = s.rx.totalSize)
    (hdone : s.rx.numDone ≤ s.rx.totalSize) (hlen : len ≠ 0) (hst : st ≠ .header) :
    (expect s st len).KeepsMetered := by
  refine expect_cases s st len ?_ ?_
  · intro _
    trivial
  · intro hpos
    have hsum := totalSize_push s.rx ⟨false, len.toNat⟩
    simp only [Receiver.totalSize] at hsum htot hdone
    constructor
    · simp only [Receiver.totalSize]
      omega
    · simp only [Receiver.totalSize]
      omega
    · intro hh
      exact absurd hh hst

/-- A header vector is added. -/
theorem addHeader_metered (e : addIovector s true HEADER_SIZE = some s')
    (htot : s.rx.total = s.rx.totalSize) (hdone : s.rx.numDone ≤ s.rx.totalSize)
    (st : RecvState) : Metered { s'.rx with state := st } := by
  have hrx := addIovector_rx e
  have hsum := totalSize_push s.rx ⟨true, HEADER_SIZE⟩
  simp only [Receiver.totalSize] at hsum htot hdone
  constructor
  · simp only [hrx, Receiver.totalSize]
    omega
  · simp only [hrx, Receiver.totalSize, HEADER_SIZE] at hsum ⊢
    omega
  · intro _
    exact ⟨s.rx.iov, by simp only [hrx]⟩

/-- The fixed part of every message has some octets. -/
theorem getFixedSize_pos {ctx : Context} {hdr : Header} {p : Pdu} {n : Nat}
    (e : getFixedSize ctx hdr p = some n) : 2 ≤ n := by
  unfold getFixedSize at e
  split at e
  · cases hc : p.header.command <;> simp [hc, requestSize] at e <;> omega
  · split at e
    · simp only [Option.some.injEq, ERROR_REPLY_SIZE] at e
      omega
    · cases hc : p.header.command <;> simp [hc, replySize] at e <;> omega

theorem expectFixed_metered (htot : s.rx.total = s.rx.totalSize)
    (hdone : s.rx.numDone ≤ s.rx.totalSize) : (expectFixed s).KeepsMetered := by
  unfold expectFixed
  split
  · trivial
  · split
    · trivial
    · rename_i n e
      have hpos := getFixedSize_pos e
      refine expect_metered htot hdone ?_ (by decide)
      omega

/-- The vectors of the application and the buffer behind them hold a body that is not empty. -/
theorem expectVariable_metered {ns : List Nat} {len : Nat}
    (htot : s.rx.total = s.rx.totalSize) (hdone : s.rx.numDone ≤ s.rx.totalSize)
    (hlen : len ≠ 0) : (expectVariable s ns len).KeepsMetered := by
  induction ns generalizing s len with
  | nil =>
    unfold expectVariable
    exact expect_metered htot hdone (by omega) (by decide)
  | cons n ns ih =>
    unfold expectVariable
    split
    · trivial
    · rename_i s' e
      have hrx := addIovector_rx e
      have hsum := totalSize_push s.rx ⟨false, min n len⟩
      simp only [Receiver.totalSize] at hsum htot hdone
      split
      · constructor
        · simp only [hrx, Receiver.totalSize]
          omega
        · simp only [hrx, Receiver.totalSize]
          omega
        · intro hh
          cases hh
      · refine ih ?_ ?_ (by omega)
        · simp only [hrx, Receiver.totalSize]
          omega
        · simp only [hrx, Receiver.totalSize]
          omega

theorem endMember_metered (htot : s.rx.total = s.rx.totalSize)
    (hdone : s.rx.numDone ≤ s.rx.totalSize) : (endMember s).KeepsMetered := by
  unfold endMember
  split
  · trivial
  · split
    · split
      · trivial
      · rename_i s' e
        exact addHeader_metered e htot hdone .header
    · trivial

theorem complete_metered {off : Nat} (htot : s.rx.total = s.rx.totalSize)
    (hdone : s.rx.numDone ≤ s.rx.totalSize) : (complete h K off s).KeepsMetered := by
  have hcompletes := complete_completes (h := h) (K := K) off s
  generalize complete h K off s = f at hcompletes ⊢
  cases hcompletes with
  | dispatched p hp hcb hst hv => exact endMember_metered htot hdone
  | _ => trivial

theorem padOrComplete_metered {off : Nat} (htot : s.rx.total = s.rx.totalSize)
    (hdone : s.rx.numDone ≤ s.rx.totalSize) : (padOrComplete h K off s).KeepsMetered := by
  unfold padOrComplete
  simp only
  split
  · trivial
  · split
    · rename_i hpos
      exact expect_metered htot hdone (by omega) (by decide)
    · exact complete_metered htot hdone

theorem matchReply_unknown {ctx ctx' : Context} {hdr : Header}
    (e : matchReply ctx hdr = .unknown ctx') : unmatched ctx hdr = true := by
  have hl := matchReply_lookup ctx hdr
  rw [e] at hl
  cases hl with
  | unknown hu hf =>
    simp only [unmatched, hf, Option.isNone_none, Bool.and_true, Bool.not_eq_true',
      Bool.and_eq_false_iff, decide_eq_false_iff_not]
    exact not_and_or.mp hu

/-- What `unmatched` and `skipsRest` look at is not what a header changes first. -/
theorem skipsRest_noted (ctx : Context) (hdr : Header) :
    skipsRest (grantCredits (noteHeader ctx hdr) hdr) hdr = skipsRest ctx hdr := by
  obtain ⟨cur, mid, he⟩ := noteHeader_eq ctx hdr
  rw [he]
  have hgrant : ∀ c : Context, ∃ n l, grantCredits c hdr = { c with credits := n, ledger := l } := by
    intro c
    unfold grantCredits
    split
    · exact ⟨c.credits, c.ledger, rfl⟩
    · exact ⟨_, _, rfl⟩
  obtain ⟨n, l, hn⟩ := hgrant { ctx with treeCur := cur, messageId := mid }
  rw [hn]
  simp only [skipsRest, unmatched, dropPdu]
  cases ctx.pdu <;> rfl

/-- A header that is not followed by nothing to skip. -/
theorem smb2Header_metered {xfrm : Bool} (htot : s.rx.total = s.rx.totalSize)
    (hdone : s.rx.numDone ≤ s.rx.totalSize)
    (hrest : skipsRest s.ctx s.rx.hdr = true → restLength s.rx xfrm ≠ 0) :
    (smb2Header xfrm s).KeepsMetered := by
  unfold smb2Header
  simp only
  split
  · trivial
  · split
    · trivial
    · rename_i hclient hserver
      have hrole : (s.rx.hdr.hasFlag FLAGS_SERVER_TO_REDIR != s.ctx.isServer) = true := by
        cases hr : s.rx.hdr.hasFlag FLAGS_SERVER_TO_REDIR <;> cases hs : s.ctx.isServer <;>
          simp_all
      split
      · rename_i hpend
        refine expect_metered htot hdone (hrest ?_) (by decide)
        simp [skipsRest, hrole, hpend]
      · split
        · unfold requestHeader
          split
          · trivial
          · exact expectFixed_metered htot hdone
        · rename_i hnot
          unfold replyHeader
          split
          · rename_i ctx' e
            simp only
            split
            · trivial
            · refine expect_metered htot hdone (hrest ?_) (by decide)
              have hu := matchReply_unknown e
              simp only [skipsRest, hrole, hu, Bool.true_and, Bool.and_true, Bool.or_eq_true,
                Bool.not_eq_true']
              exact .inr (by simpa using hnot)
          · trivial
          · trivial
          · exact expectFixed_metered htot hdone

theorem transformHeader_metered (hb : Brimful s.rx) (hst : s.rx.state = .header)
    (hlen : 0 ≤ transformLength s.rx → 12 < transformLength s.rx) :
    (transformHeader s).KeepsMetered := by
  obtain ⟨pre, hiov⟩ := hb.header hst
  have htot := hb.total
  have hdone := hb.done
  unfold transformHeader
  simp only
  split
  · trivial
  · rename_i hneg
    split
    · trivial
    · split
      · trivial
      · have hbig : 12 < toInt32 ((s.rx.spl : Int) - TRANSFORM_HEADER_SIZE) := by
          refine hlen ?_
          simp only [transformLength]
          omega
        -- the header vector shrinks by the twelve octets that are moved
        simp only [Receiver.totalSize, hiov, List.map_append, List.map_cons, List.map_nil,
          List.sum_append, List.sum_cons, List.sum_nil, HEADER_SIZE] at htot hdone
        constructor
        · simp [Receiver.totalSize, hiov, htot, TRANSFORM_HEADER_SIZE]
          omega
        · simp [Receiver.totalSize, hiov, hdone, TRANSFORM_HEADER_SIZE] at hbig ⊢
          omega
        · intro hh
          cases hh

/-- `SMB2_RECV_HEADER`. -/
theorem headerPhase_metered {xfrm : Bool} (hb : Brimful s.rx)
    (hst : s.rx.state = .header) (hbare : bareHeader xfrm s = false) :
    (headerPhase xfrm s).KeepsMetered := by
  unfold headerPhase
  unfold bareHeader at hbare
  split
  · rename_i hx
    rw [if_pos hx] at hbare
    refine transformHeader_metered hb hst ?_
    intro hnn
    simp only [Bool.and_eq_false_iff, decide_eq_false_iff_not] at hbare
    omega
  · rename_i hx
    rw [if_neg hx] at hbare
    split
    · trivial
    · rename_i hdr e
      simp only [e] at hbare
      simp only
      split
      · trivial
      · refine smb2Header_metered (s := ⟨_, _⟩) hb.total (le_of_eq hb.done) ?_
        intro hskip
        simp only [skipsRest_noted] at hskip
        simp only [hskip, Bool.true_and, decide_eq_false_iff_not] at hbare
        exact hbare

/-- **A phase leaves the vectors accounted for**, unless its header is bare. -/
theorem phase_metered {xfrm : Bool} (off : Nat) (hb : Brimful s.rx)
    (hample : (Visit.filled xfrm s).Ample) : (phase h K xfrm off s).KeepsMetered := by
  have htot := hb.total
  have hdone := le_of_eq hb.done
  unfold phase
  split
  · unfold splPhase
    simp only
    split
    · trivial
    · rename_i s' e
      have hrx := addIovector_rx e
      have hm := addHeader_metered e htot hdone .header
      simpa only [Flow.KeepsMetered, hrx] using hm
  · rename_i hst
    exact headerPhase_metered hb hst (hample hst)
  · unfold fixedPhase
    split
    · trivial
    · simp only
      split
      · trivial
      · split
        · exact padOrComplete_metered htot hdone
        · exact expectVariable_metered htot hdone (by omega)
  · unfold variablePhase
    split
    · trivial
    · simp only
      split
      · trivial
      · exact padOrComplete_metered htot hdone
  · exact complete_metered htot hdone
  · unfold transformPhase
    simp only
    split
    · trivial
    · refine ⟨rfl, ?_, fun _ => ⟨[], rfl⟩⟩
      show 0 < HEADER_SIZE + 0
      decide
  · trivial

/-! ## The counter over whole runs -/

theorem Brimful.of_store {bs : Bytes} (hm : Metered s.rx)
    (hle : bs.length ≤ s.rx.totalSize - s.rx.numDone)
    (hfull : ¬ (store s bs).rx.numDone < (store s bs).rx.totalSize) : Brimful (store s bs).rx where
  total := hm.total
  done := by
    have hroom := hm.room
    simp only [store_numDone, store_totalSize] at hfull ⊢
    omega
  header := hm.header

theorem Metered.store {bs : Bytes} (hm : Metered s.rx)
    (hroom : (store s bs).rx.numDone < (store s bs).rx.totalSize) : Metered (store s bs).rx :=
  ⟨hm.total, hroom, hm.header⟩

/-- The twelve octets of a transform header that is not bare fit. -/
theorem Visit.Ample.fits {xfrm : Bool} (ha : (Visit.filled xfrm s).Ample) :
    (Visit.filled xfrm s).Accounted := by
  rintro ⟨hst, hx, hnn, _⟩
  have hb := ha hst
  rw [bareHeader, if_pos hx] at hb
  simp only [Bool.and_eq_false_iff, decide_eq_false_iff_not] at hb
  omega

/-- The run inside a transform frame. -/
theorem traceBuf_accounted (fuel : Nat) (plain : Bytes) (s : Smb2) (l : Locals)
    (hm : Metered s.rx) (hample : ∀ v ∈ traceBuf h K fuel plain s l, v.Ample) :
    ∀ v ∈ traceBuf h K fuel plain s l, v.Accounted := by
  induction fuel generalizing plain s l with
  | zero =>
    intro v hv
    cases hv
  | succ fuel ih =>
    unfold traceBuf at hample ⊢
    rw [List.forall_mem_cons] at hample ⊢
    refine ⟨hm.accounted, ?_⟩
    replace hample := hample.2
    split at hample
    · rename_i hstop
      rw [if_pos hstop]
      intro v hv
      cases hv
    · rename_i hgo
      rw [if_neg hgo]
      simp only at hample ⊢
      split at hample
      · rename_i hroom
        rw [if_pos hroom]
        exact ih _ _ _ (hm.store hroom) hample
      · rename_i hfull
        rw [if_neg hfull]
        rw [List.forall_mem_cons] at hample ⊢
        refine ⟨hample.1.fits, ?_⟩
        have hb := Brimful.of_store hm (by simp) hfull
        have hphase := phase_metered (h := h) (K := K) l.iovOffset hb hample.1
        replace hample := hample.2
        generalize phase h K true l.iovOffset _ = f at hphase hample ⊢
        cases f with
        | more s' => exact ih _ _ _ hphase hample
        | chained s' => exact ih _ _ _ hphase hample
        | done s' => simp [Visit.Accounted]
        | flush s' => simp [Visit.Accounted]
        | fail e s' => simp
        | fault e s' => simp
        | decrypt plain' s' =>
          simp only [List.forall_mem_cons] at hample ⊢
          exact ⟨trivial, ih _ _ _ hphase hample.2⟩

/-- Between two reads the vectors are accounted for, or the next frame begins. -/
def AtRest (s : Smb2) : Prop := s.rx.numDone = 0 ∨ Metered s.rx

theorem AtRest.start (hr : AtRest s) : Metered (start s).rx := by
  unfold Libsmb2.start
  split
  · rename_i hz
    refine ⟨rfl, ?_, fun hh => by cases hh⟩
    show s.rx.numDone < SPL_SIZE + 0
    rw [hz]
    decide
  · rename_i hnz
    exact hr.resolve_left hnz

/-- The flow of a phase leads to the next read with the vectors accounted for. -/
theorem settle_atRest {l l' : Locals} {f : Flow} {n : Nat} {enc : Bool}
    (hk : f.KeepsMetered) (hreg : f.Regular n enc)
    (e : settle h K l f = .next s' l') : AtRest s' ∨ l'.flushing = true := by
  cases f with
  | more s =>
    cases e
    exact .inl (.inr hk)
  | chained s =>
    cases e
    exact .inl (.inr hk)
  | done s =>
    cases e
    exact .inl (.inl hreg.1)
  | flush s =>
    cases e
    exact .inr rfl
  | fail e' s => cases e
  | fault e' s => cases e
  | decrypt plain s =>
    simp only [settle] at e
    split at e
    · rename_i s1 e1
      have hz : s1.rx.numDone = 0 := readBuf_ok_numDone e1
      cases e
      exact .inl (.inl hz)
    · cases e
    · cases e

/-- The answer to an SMB1 negotiate leaves the receiver between frames. -/
theorem settle_negotiate {l : Locals} {stale : Bool}
    (e : settle h K {} (smb1Negotiate h stale s) = .next s' l) :
    s'.rx.numDone = 0 ∧ l.flushing = false := by
  rcases smb1Negotiate_ends (h := h) stale s with ⟨s2, e2, hz⟩ | ⟨f, s2, e2⟩
  · rw [e2] at e
    cases e
    exact ⟨hz, rfl⟩
  · rw [e2] at e
    cases e

theorem AtRest.leave (hr : AtRest s) (i : Input) : AtRest (i.leave s) := by
  cases i with
  | recv r => exact hr
  | app change => exact hr

/-- **The counter is kept over whole runs.** -/
theorem trace_metered (is : List Input) (seen bs : Bytes) (s : Smb2) (l : Locals)
    (hr : AtRest s ∨ l.flushing = true)
    (hample : ∀ v ∈ trace h K is seen bs s l, v.Ample) :
    ∀ v ∈ trace h K is seen bs s l, v.Accounted := by
  induction is generalizing seen bs s l with
  | nil =>
    unfold trace
    split
    · simp
    · rename_i hfl
      simp only [List.mem_singleton, forall_eq]
      exact (AtRest.start (hr.resolve_right hfl)).accounted
  | cons i is ih =>
    unfold trace at hample ⊢
    split at hample
    · rename_i hfl
      rw [if_pos hfl]
      split at hample
      · exact ih _ _ _ _ (.inr hfl) hample
      · split at hample
        · rename_i s' l' e
          obtain ⟨hz, _⟩ := settle_negotiate e
          simp only [List.forall_mem_cons] at hample ⊢
          exact ⟨trivial, ih _ _ _ _ (.inl (AtRest.leave (.inl hz) i)) hample.2⟩
        · simp
    · rename_i hfl
      rw [if_neg hfl]
      have hm := AtRest.start (hr.resolve_right hfl)
      rw [List.forall_mem_cons] at hample ⊢
      refine ⟨hm.accounted, ?_⟩
      replace hample := hample.2
      split at hample
      · rename_i hg
        rw [if_pos hg]
        cases hoct : i.octets bs with
        | none => simp
        | some oct =>
          rw [hoct] at hample
          cases oct with
          | nil => exact ih _ _ _ _ (.inl (AtRest.leave (.inr hm) i)) hample
          | cons b k =>
            simp only at hample ⊢
            split at hample
            · rename_i hroom
              rw [if_pos hroom]
              exact ih _ _ _ _ (.inl (.inr (hm.store hroom))) hample
            · rename_i hfull
              rw [if_neg hfull]
              have hle : ((b :: k).take (offered (start s))).length ≤
                  (start s).rx.totalSize - (start s).rx.numDone := by
                have ho := offered_le (start s)
                rw [List.length_take]
                omega
              have hb := Brimful.of_store hm hle hfull
              rw [List.forall_mem_cons] at hample ⊢
              have hphase := phase_metered (h := h) (K := K) l.iovOffset hb hample.1
              have hreg := phase_regular (h := h) (K := K) false l.iovOffset
                (store (start s) ((b :: k).take (offered (start s))))
              refine ⟨hample.1.fits, ?_⟩
              replace hample := hample.2
              generalize phase h K false l.iovOffset _ = f at hphase hreg hample ⊢
              rw [List.forall_mem_append] at hample ⊢
              constructor
              · cases f with
                | decrypt plain s1 => exact traceBuf_accounted _ _ _ _ hphase hample.1
                | _ => simp [traceNested]
              · replace hample := hample.2
                split at hample
                · rename_i s1 l1 e1
                  have hnext := settle_atRest hphase hreg e1
                  split at hample
                  · rename_i hend
                    rw [if_pos hend]
                    simp only [List.forall_mem_cons] at hample ⊢
                    exact ⟨trivial, ih _ _ _ _ hnext hample.2⟩
                  · rename_i hend
                    rw [if_neg hend]
                    exact ih _ _ _ _ hnext hample
                · simp
      · rename_i hg
        rw [if_neg hg]
        simp

end

/-- **Receive vector accounting.**  Whatever arrives and however it is cut, in either role,
whatever the callbacks and the application do: if no header of the run is bare, then at each
arrival at `read_more_data` the counter is the length of the vectors and exceeds the octets
already read, the loop stops at a vector, and the octets moved behind a transform header
fit. -/
theorem vectors_are_accounted (h : Hooks) (K : Crypto) (is : List Input) (bs : Bytes)
    (ctx : Context) (hample : ∀ v ∈ trace h K is [] bs { ctx := ctx } {}, v.Ample) :
    ∀ v ∈ trace h K is [] bs { ctx := ctx } {}, v.Accounted :=
  trace_metered is [] bs _ {} (.inl (.inl rfl)) hample

/-- A signed compound reply that arrives in whole phases. -/
theorem echo_vectors_are_accounted :
    trace plainHooks echoCrypto (wholeReads.map .recv) [] echoReply { ctx := echoClient.ctx } {}
        ≠ [] ∧
      ∀ v ∈ trace plainHooks echoCrypto (wholeReads.map .recv) [] echoReply
        { ctx := echoClient.ctx } {}, v.Accounted := by
  constructor
  · decide +kernel
  · exact vectors_are_accounted plainHooks echoCrypto (wholeReads.map .recv) echoReply
      echoClient.ctx (by decide +kernel)

/-- A frame that holds the header of an interim reply and nothing else. -/
def barePending : Bytes :=
  be32 64 ++ { echoHeader 1 0 1 (zeros 16) with status := STATUS_PENDING }.encode

/-- A frame of a transform header and eight octets. -/
def shortTransform : Bytes := be32 60 ++ (Header.smb3tfrm ++ zeros 60)

/-- **A bare header breaks the accounting**: after an interim reply that ends its frame the
skipping loop runs off the vectors, and twelve octets are moved into a vector of eight. -/
theorem bare_pending_overruns :
    ¬ (∀ v ∈ trace plainHooks echoCrypto [.recv (.data 99), .recv (.data 99)] [] barePending
        { ctx := echoClient.ctx } {}, v.Accounted) ∧
      ¬ (∀ v ∈ trace plainHooks echoCrypto [.recv (.data 99), .recv (.data 99)] [] shortTransform
        { ctx := echoClient.ctx } {}, v.Accounted) := by
  decide +kernel

end Libsmb2
