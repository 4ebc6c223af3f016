import Libsmb2.Receive.Chunking
import Libsmb2.Signing.Library

/-!
# Sealed messages on their way

An endpoint seals with its `serverin_key` and opens with its `serverout_key`, whatever its role.

* `transform_frame_phases` — the three phases in which a transform frame is read;
* `transform_frame_intact` — no signature is due in them, so that the frame may be cut anywhere;
* `sealed_chain_arrives` — **what one endpoint seals, an endpoint opens that holds the key, however
  the stream is cut: the nested run reads the octets of the chain and no others.**
-/

set_option autoImplicit false

namespace Libsmb2

open Util

/-- The machine once a transform frame has been opened: it is to read the plain text. -/
def unsealed (s : Smb2) (plain : Bytes) : Smb2 where
  ctx := s.ctx.emit (.used .serverout s.ctx.serveroutKey)
  rx := { s.rx with
    state := .header
    spl := plain.length % 4294967296
    iov := [⟨true, HEADER_SIZE⟩]
    total := HEADER_SIZE
    numDone := 0
    received := []
    enc := true }

/-- The nested run on a plain text, and what follows it in the stream. -/
def readSealed (h : Hooks) (K : Crypto) (plain rest : Bytes) (s : Smb2) : Outcome :=
  (settle h K {} (.decrypt plain (unsealed s plain))).resume (feedAll h K rest) rest

/-- `intact`, but that the reads of the first `n` octets are not looked at. -/
def intactBehind (h : Hooks) (K : Crypto) : Nat → List Recv → Bytes → Smb2 → Locals → Bool
  | 0, rs, bs, s, l => intact h K rs bs s l
  | _ + 1, [], _, _, _ => true
  | n + 1, r :: rs, bs, s, l =>
    match gate (start s), r with
    | .ready, .data m =>
      if bs = [] then intactBehind h K (n + 1) rs bs (start s) {}
      else
        let k := min (m + 1) (offered (start s))
        match arrive h K (start s) l (bs.take k) with
        | .next s l => intactBehind h K (n + 1 - k) rs (bs.drop k) s l
        | _ => true
    | .ready, .wouldBlock => intactBehind h K (n + 1) rs bs (start s) {}
    | _, _ => true

section
variable {h : Hooks} {K : Crypto} {s : Smb2} {nonce plain : Bytes} {sessionId : Nat}

theorem length_sealOctets {key : Bytes} (hnonce : nonce.length = 11) :
    (sealOctets K key sessionId nonce plain).length = 52 + plain.length := by
  simp [sealOctets, transformAad, Header.smb3tfrm, K.ccmTag_length, K.ccmEncrypt_length, hnonce]
  omega

/-! ## Phases that check no signature -/

/-- These octets complete a phase, and no signature is due at its end. -/
structure UnsignedPhase (s : Smb2) (xs : Bytes) : Prop where
  ready : gate (start s) = .ready
  length : xs.length = (start s).rx.totalSize - (start s).rx.numDone
  unsigned : ∀ bs, checksSignature (store (start s) bs) = false

theorem UnsignedPhase.length_pos {xs : Bytes} (q : UnsignedPhase s xs) : 0 < xs.length := by
  have hroom := (gate_ready q.ready).1
  have hlen := q.length
  omega

theorem UnsignedPhase.arrive_eq {xs : Bytes} (q : UnsignedPhase s xs) (l : Locals) :
    arrive h K (start s) l xs =
      settle h K l (phase h K false l.iovOffset (store (start s) xs)) := by
  have hroom := (gate_ready q.ready).1
  have hdone : ¬ (store (start s) xs).rx.numDone < (store (start s) xs).rx.totalSize := by
    rw [store_numDone, store_totalSize, q.length]
    omega
  rw [arrive, if_neg hdone]

theorem UnsignedPhase.feedAll_eq {xs : Bytes} (q : UnsignedPhase s xs) (rest : Bytes) :
    feedAll h K (xs ++ rest) s =
      (arrive h K (start s) (uncut (start s)) xs).resume (feedAll h K rest) rest :=
  feedAll_phase xs rest s (List.length_pos_iff.mp q.length_pos) q.ready q.length.le

/-- Some octets of the phase have been read. -/
theorem UnsignedPhase.drop {xs : Bytes} (q : UnsignedPhase s xs) {k : Nat} (hpos : 0 < k)
    (hk : k < xs.length) :
    UnsignedPhase (store (start s) (xs.take k)) (xs.drop k) := by
  obtain ⟨hroom, hconn⟩ := gate_ready q.ready
  have hlen := q.length
  have hstart : start (store (start s) (xs.take k)) = store (start s) (xs.take k) :=
    start_of_pos (by rw [store_numDone, List.length_take]; omega)
  refine ⟨?_, ?_, ?_⟩
  · rw [hstart]
    exact gate_of_room (by simp; omega) hconn
  · rw [hstart]
    simp
    omega
  · intro bs
    rw [hstart, ← store_append]
    exact q.unsigned _

/-- **A phase that checks no signature may be cut anywhere.** -/
theorem UnsignedPhase.intact {xs ys : Bytes} {n : Nat} (q : UnsignedPhase s xs)
    (hnext : ∀ s' l', arrive h K (start s) (uncut (start s)) xs = .next s' l' →
      ∀ rs l, intactBehind h K n rs ys s' l = true → intact h K rs ys s' l = true)
    (rs : List Recv) (l : Locals)
    (hb : intactBehind h K (xs.length + n) rs (xs ++ ys) s l = true) :
    intact h K rs (xs ++ ys) s l = true := by
  induction rs generalizing xs s l with
  | nil => rfl
  | cons r rs ih =>
    have hne : xs ++ ys ≠ [] :=
      List.append_ne_nil_of_left_ne_nil (List.length_pos_iff.mp q.length_pos) ys
    obtain ⟨m, hm⟩ : ∃ m, xs.length + n = m + 1 := ⟨xs.length + n - 1, by
      have := q.length_pos
      omega⟩
    have hagain : UnsignedPhase (start s) xs := by
      refine ⟨?_, ?_, ?_⟩ <;> rw [start_start]
      exacts [q.ready, q.length, q.unsigned]
    rw [hm] at hb
    unfold intactBehind at hb
    unfold Libsmb2.intact
    cases r with
    | closed => simp only [q.ready]
    | failed => simp only [q.ready]
    | wouldBlock =>
      simp only [q.ready] at hb ⊢
      exact ih hagain (by rwa [start_start]) {} (by rwa [hm])
    | data j =>
      simp only [q.ready, hne, if_false] at hb ⊢
      have hoff := offered_le (start s)
      have hpos := offered_pos (gate_ready q.ready).1
      have hlen := q.length
      generalize hk : min (j + 1) (offered (start s)) = k at hb ⊢
      have htake : (xs ++ ys).take k = xs.take k := List.take_append_of_le_length (by omega)
      have hdrop : (xs ++ ys).drop k = xs.drop k ++ ys := List.drop_append_of_le_length (by omega)
      rw [htake, hdrop] at hb ⊢
      rw [q.unsigned, Bool.not_false, Bool.true_or, Bool.true_and]
      by_cases hfull : k = xs.length
      · -- the read completes the phase
        subst hfull
        rw [List.take_length, List.drop_length, List.nil_append] at hb ⊢
        have hforget : (arrive h K (start s) l xs).forget =
            (arrive h K (start s) (uncut (start s)) xs).forget :=
          arrive_forget (by simp [q.unsigned])
        cases ha : arrive h K (start s) l xs with
        | failed e s' => rfl
        | faulted f s' => rfl
        | next s' l' =>
          rw [ha] at hb hforget
          cases hu : arrive h K (start s) (uncut (start s)) xs with
          | failed e s'' => cases hu ▸ hforget
          | faulted f s'' => cases hu ▸ hforget
          | next s'' l'' =>
            obtain rfl : s' = s'' := by
              rw [hu] at hforget
              exact (Turn.next.inj hforget).1
            exact hnext s' l'' hu rs l' (by rwa [← hm, Nat.add_sub_cancel_left] at hb)
      · have hmid : ∀ l, arrive h K (start s) l (xs.take k) =
            .next (store (start s) (xs.take k)) l := by
          intro l
          rw [arrive, if_pos (by simp; omega)]
        have hq := q.drop (by omega) (show k < xs.length by omega)
        have hstart : start (store (start s) (xs.take k)) = store (start s) (xs.take k) :=
          start_of_pos (by rw [store_numDone, List.length_take]; omega)
        have hsame : arrive h K (store (start s) (xs.take k)) (uncut (start s)) (xs.drop k) =
            arrive h K (start s) (uncut (start s)) xs := by
          unfold arrive
          rw [← store_append, List.take_append_drop]
        simp only [hmid] at hb ⊢
        refine ih hq ?_ l ?_
        · rw [hstart, uncut_store, hsame]
          exact hnext
        · rwa [List.length_drop, show xs.length - k + n = m + 1 - k by omega]

/-! ## The three phases of a transform frame -/

/-- The length prefix has been read. -/
def announced (s : Smb2) (n : Nat) : Smb2 where
  ctx := s.ctx
  rx := { s.rx with
    state := .header
    spl := n
    iov := [⟨false, SPL_SIZE⟩, ⟨true, HEADER_SIZE⟩]
    total := SPL_SIZE + HEADER_SIZE
    numDone := SPL_SIZE
    received := be32 n }

theorem announced_next {n : Nat} (hn : n < 4294967296) (hidle : s.rx.numDone = 0)
    (hc : s.ctx.connected = true) :
    UnsignedPhase s (be32 n) ∧
      arrive h K (start s) (uncut (start s)) (be32 n) = .next (announced s n) (uncut (start s)) := by
  have hstart : start s = { s with rx := { s.rx with
      state := .spl
      spl := 0
      iov := [⟨false, SPL_SIZE⟩]
      total := SPL_SIZE
      received := [] } } := by
    rw [start, if_pos hidle]
  have hspl : fromBe ((be32 n).take SPL_SIZE) = n := by
    rw [List.take_of_length_le (by simp [SPL_SIZE]), fromBe, be32, List.reverse_reverse, fromLe_le]
    exact Nat.mod_eq_of_lt hn
  have hq : UnsignedPhase s (be32 n) := by
    refine ⟨?_, ?_, ?_⟩ <;> rw [hstart]
    · exact gate_of_room (by simp [Receiver.totalSize, SPL_SIZE, hidle]) hc
    · simp [Receiver.totalSize, SPL_SIZE, hidle]
    · simp [checksSignature, store]
  refine ⟨hq, ?_⟩
  rw [hq.arrive_eq, hstart]
  simp only [phase, splPhase, store, List.nil_append, addIovector, List.length_singleton, hspl]
  simp [MAX_VECTORS, settle, announced, hidle, SPL_SIZE]

/-- The transform header has been read, with twelve octets of the cipher text behind it. -/
def transforming (s : Smb2) (n : Nat) (bs : Bytes) : Smb2 where
  ctx := s.ctx
  rx := { s.rx with
    state := .trfm
    spl := n
    iov := [⟨false, SPL_SIZE⟩, ⟨true, TRANSFORM_HEADER_SIZE⟩, ⟨false, n - TRANSFORM_HEADER_SIZE⟩]
    total := SPL_SIZE + n
    numDone := SPL_SIZE + HEADER_SIZE
    received := be32 n ++ bs }

theorem start_announced (n : Nat) : start (announced s n) = announced s n :=
  start_of_pos (by simp [announced, SPL_SIZE])

theorem transforming_next {n : Nat} {bs : Bytes} (hn : 64 ≤ n) (hmax : n < 2147483648)
    (hc : s.ctx.connected = true) (hbs : bs.length = HEADER_SIZE)
    (hid : bs.take 4 = Header.smb3tfrm) :
    UnsignedPhase (announced s n) bs ∧
      arrive h K (start (announced s n)) (uncut (start (announced s n))) bs =
        .next (transforming s n bs) (uncut (announced s n)) := by
  have hheader : (store (announced s n) bs).rx.header = bs := by
    show slice (be32 n ++ bs) 4 64 = bs
    rw [slice_append_right (by simp), length_be32, Nat.sub_self, slice_zero (by rw [hbs]; rfl)]
  have hlen : toInt32 ((n : Int) - TRANSFORM_HEADER_SIZE) = ((n - 52 : Nat) : Int) := by
    simp only [toInt32, TRANSFORM_HEADER_SIZE]
    omega
  have hq : UnsignedPhase (announced s n) bs := by
    refine ⟨?_, ?_, ?_⟩ <;> rw [start_announced]
    · exact gate_of_room (by simp [announced, Receiver.totalSize, HEADER_SIZE]) hc
    · rw [hbs]
      rfl
    · simp [checksSignature, store, announced]
  refine ⟨hq, ?_⟩
  rw [hq.arrive_eq, start_announced]
  show settle h K _ (headerPhase false _) = _
  rw [headerPhase, hheader, if_pos hid, transformHeader]
  have htotal : SPL_SIZE + HEADER_SIZE - 12 + (n - 52) = SPL_SIZE + n := by
    simp only [SPL_SIZE, HEADER_SIZE]
    omega
  simp only [store, announced, hlen, Int.toNat_natCast, hbs, htotal]
  rw [if_neg (by omega), if_neg (by decide), if_neg (by omega)]
  rfl

/-- The fields that `smb3_decrypt_pdu` reads. -/
theorem sealOctets_fields (K : Crypto) (key plain : Bytes) (sessionId : Nat)
    (hnonce : nonce.length = 11) :
    let x := sealOctets K key sessionId nonce plain
    let aad := transformAad nonce plain.length sessionId
    let sealed := K.ccmEncrypt key nonce aad plain
    slice x 4 16 = sealed.2 ∧ slice x 20 11 = nonce ∧ slice x 20 32 = aad ∧
      x.drop 52 = sealed.1 := by
  intro x aad sealed
  have ht : sealed.2.length = 16 := K.ccmTag_length _ _ _ _
  have ha : aad.length = 32 := by simp [aad, transformAad, hnonce]
  have hid : Header.smb3tfrm.length = 4 := rfl
  have hx : x = Header.smb3tfrm ++ sealed.2 ++ aad ++ sealed.1 := rfl
  have haad : slice x 20 32 = aad := by
    rw [hx, slice_append_left (by simp [hid, ht, ha]), slice_append_right (by simp [hid, ht]),
      List.length_append, hid, ht, slice_zero (by omega)]
  refine ⟨?_, ?_, haad, ?_⟩
  · rw [hx, slice_append_left (by simp [hid, ht, ha]), slice_append_left (by simp [hid, ht]),
      slice_append_right (by rw [hid]), hid, Nat.sub_self, slice_zero (by omega)]
  · rw [slice_take x 20 (show 11 ≤ 32 by omega), haad]
    exact List.take_left' hnonce
  · rw [hx]
    exact List.drop_left' (by simp [hid, ht, ha])

theorem opened_next (sessionId : Nat) (hK : K.Opens) (hnonce : nonce.length = 11)
    (hmin : 12 < plain.length) (hc : s.ctx.connected = true) :
    let x := sealOctets K s.ctx.serveroutKey sessionId nonce plain
    let t := transforming s x.length (x.take HEADER_SIZE)
    UnsignedPhase t (x.drop HEADER_SIZE) ∧
      arrive h K (start t) (uncut (start t)) (x.drop HEADER_SIZE) =
        settle h K {} (.decrypt plain (unsealed s plain)) := by
  intro x t
  obtain ⟨htag, hkeyed, haad, htext⟩ :=
    sealOctets_fields K s.ctx.serveroutKey plain sessionId hnonce
  have hlen : x.length = 52 + plain.length := length_sealOctets hnonce
  have hstart : start t = t := start_of_pos (by simp [t, transforming, SPL_SIZE])
  have hsizes : t.rx.totalSize = 4 + x.length ∧ t.rx.numDone = 68 := by
    refine ⟨?_, rfl⟩
    simp only [t, transforming, Receiver.totalSize, List.map_cons, List.map_nil, List.sum_cons,
      List.sum_nil, SPL_SIZE, TRANSFORM_HEADER_SIZE]
    omega
  have hq : UnsignedPhase t (x.drop HEADER_SIZE) := by
    refine ⟨?_, ?_, ?_⟩ <;> rw [hstart]
    · exact gate_of_room (by omega) hc
    · rw [List.length_drop, HEADER_SIZE]
      omega
    · simp [checksSignature, store, t, transforming]
  refine ⟨hq, ?_⟩
  have hreceived :
      be32 x.length ++ x.take HEADER_SIZE ++ x.drop HEADER_SIZE = be32 x.length ++ x := by
    rw [List.append_assoc, List.take_append_drop]
  generalize hr : be32 x.length ++ x = r at hreceived
  have hfield : ∀ o k, o + k ≤ 52 → slice (slice r 4 52) o k = slice x o k := by
    intro o k hok
    rw [slice_slice hok, ← hr, slice_append_right (by simp), length_be32, Nat.add_sub_cancel_left]
  have hback : K.ccmDecrypt s.ctx.serveroutKey (slice (slice r 4 52) 20 11)
      (slice (slice r 4 52) 20 32) (r.drop 56) (slice (slice r 4 52) 4 16) = some plain := by
    have hrest : r.drop 56 = x.drop 52 := by
      rw [← hr, List.drop_append, length_be32, List.drop_of_length_le (by simp)]
      rfl
    rw [hfield 20 11 (by omega), hfield 20 32 (by omega), hfield 4 16 (by omega), hrest, htag,
      haad, hkeyed, htext]
    exact hK s.ctx.serveroutKey nonce _ plain
  have hopen : transformPhase K (store t (x.drop HEADER_SIZE)) =
      .decrypt plain (unsealed s plain) := by
    unfold transformPhase
    rw [show (store t (x.drop HEADER_SIZE)).rx.received = r from hreceived]
    extract_lets
    split
    · rename_i hnone
      cases hnone.symm.trans hback
    · rename_i hsome
      cases hsome.symm.trans hback
      rfl
  rw [hq.arrive_eq, hstart]
  show settle h K _ (transformPhase K _) = _
  rw [hopen]
  rfl

/-- The three phases of a transform frame under the key that the receiver opens with. -/
theorem transform_frame_phases (h : Hooks) (sessionId : Nat) (hK : K.Opens)
    (hnonce : nonce.length = 11)
    (hmin : 12 < plain.length) (hmax : 52 + plain.length < 2147483648)
    (hidle : s.rx.numDone = 0) (hc : s.ctx.connected = true) :
    ∃ a b c t u, be32 (52 + plain.length) ++ sealOctets K s.ctx.serveroutKey sessionId nonce plain =
        a ++ (b ++ c) ∧
      UnsignedPhase s a ∧ UnsignedPhase t b ∧ UnsignedPhase u c ∧
      (∃ l, arrive h K (start s) (uncut (start s)) a = .next t l) ∧
      (∃ l, arrive h K (start t) (uncut (start t)) b = .next u l) ∧
      arrive h K (start u) (uncut (start u)) c =
        settle h K {} (.decrypt plain (unsealed s plain)) := by
  let x := sealOctets K s.ctx.serveroutKey sessionId nonce plain
  have hx : x.length = 52 + plain.length := length_sealOctets hnonce
  have hfront : (x.take HEADER_SIZE).length = HEADER_SIZE := by
    rw [List.length_take, hx, HEADER_SIZE]
    omega
  obtain ⟨ha, hat⟩ := announced_next (h := h) (K := K) (show x.length < 4294967296 by omega) hidle hc
  obtain ⟨hb, hbu⟩ := transforming_next (h := h) (K := K) (s := s) (show 64 ≤ x.length by omega)
    (by omega) hc hfront rfl
  obtain ⟨hq, hopen⟩ := opened_next (h := h) sessionId hK hnonce hmin hc
  refine ⟨_, _, _, _, _, ?_, ha, hb, hq, ⟨_, hat⟩, ⟨_, hbu⟩, hopen⟩
  rw [List.take_append_drop, hx]

/-- **A transform frame under the key that the receiver opens with.** -/
theorem transform_frame_opens (hK : K.Opens) (rest : Bytes) (hnonce : nonce.length = 11)
    (hmin : 12 < plain.length) (hmax : 52 + plain.length < 2147483648)
    (hidle : s.rx.numDone = 0) (hc : s.ctx.connected = true) :
    feedAll h K (be32 (52 + plain.length) ++
      sealOctets K s.ctx.serveroutKey sessionId nonce plain ++ rest) s =
        readSealed h K plain rest s := by
  obtain ⟨a, b, c, t, u, heq, qa, qb, qc, ⟨la, ha⟩, ⟨lb, hb⟩, hopen⟩ :=
    transform_frame_phases h sessionId hK hnonce hmin hmax hidle hc
  rw [heq, List.append_assoc, List.append_assoc, qa.feedAll_eq, ha]
  show feedAll h K (b ++ (c ++ rest)) t = _
  rw [qb.feedAll_eq, hb]
  show feedAll h K (c ++ rest) u = _
  rw [qc.feedAll_eq, hopen]
  rfl

/-- **Such a frame may be cut anywhere**: no signature is due at the end of its phases, and its
nested run is not cut. -/
theorem transform_frame_intact (hK : K.Opens) (rest : Bytes) (hnonce : nonce.length = 11)
    (hmin : 12 < plain.length) (hmax : 52 + plain.length < 2147483648)
    (hidle : s.rx.numDone = 0) (hc : s.ctx.connected = true) (rs : List Recv) (l : Locals)
    (hb : intactBehind h K (56 + plain.length) rs (be32 (52 + plain.length) ++
      sealOctets K s.ctx.serveroutKey sessionId nonce plain ++ rest) s l = true) :
    intact h K rs (be32 (52 + plain.length) ++
      sealOctets K s.ctx.serveroutKey sessionId nonce plain ++ rest) s l = true := by
  obtain ⟨a, b, c, t, u, heq, qa, qb, qc, ⟨la, hta⟩, ⟨lb, htb⟩, -⟩ :=
    transform_frame_phases h sessionId hK hnonce hmin hmax hidle hc
  have hlen : 56 + plain.length = a.length + (b.length + (c.length + 0)) := by
    have := congrArg List.length heq
    simp only [List.length_append, length_be32, length_sealOctets hnonce] at this
    omega
  rw [heq, List.append_assoc, List.append_assoc, hlen] at hb
  rw [heq, List.append_assoc, List.append_assoc]
  refine qa.intact (fun t' l' ht rs l hb => ?_) rs l hb
  obtain rfl : t = t' := (Turn.next.inj (hta.symm.trans ht)).1
  refine qb.intact (fun u' l' hu rs l hb => ?_) rs l hb
  obtain rfl : u = u' := (Turn.next.inj (htb.symm.trans hu)).1
  refine qc.intact (fun s' l' _ rs l hb => ?_) rs l hb
  rwa [intactBehind] at hb

end

/-- **What one endpoint seals, an endpoint opens that holds the key**, whatever the roles are: the
nested run reads the octets of the chain and no others, and the rest of the stream follows.  A
client may read the frame in any pieces, and what follows it in pieces that leave it intact. -/
theorem sealed_chain_arrives (h : Hooks) {K : Crypto} (hK : K.Opens) {ctx : Context} {c : Chain}
    {s : Smb2} (rest : Bytes) (hseal : ctx.sealing = true) (hc : c.head.sealed = true)
    (hmem : ctx.allocOk = true) (hmin : 12 < c.octets.length)
    (hmax : 52 + c.octets.length < 2147483648) (hkey : s.ctx.serveroutKey = ctx.serverinKey)
    (hidle : s.rx.numDone = 0) (hconn : s.ctx.connected = true) :
    let frame := (encryptPdu K ctx c).2.frame
    feedAll h K (frame ++ rest) s = readSealed h K c.octets rest s ∧
    ∀ rs, s.ctx.isServer = false → (∀ r ∈ rs, r.isCut = true) →
      intactBehind h K frame.length rs (frame ++ rest) s {} = true →
      (readFromSocket h K rs (frame ++ rest) s {}).delivered = true →
      readFromSocket h K rs (frame ++ rest) s {} = readSealed h K c.octets rest s := by
  intro frame
  have hcrypt : (encryptPdu K ctx c).2 = { c with head := { c.head with
      crypt := sealOctets K ctx.serverinKey ctx.sessionId (nextNonce ctx) c.octets } } := by
    unfold encryptPdu
    rw [hseal, hc, hmem, if_neg (by decide), if_neg (by decide),
      if_neg (by rw [TRANSFORM_HEADER_SIZE]; omega), if_pos rfl]
  have hnonce : (nextNonce ctx).length = 11 := by simp [nextNonce]
  have hframe : frame = be32 (52 + c.octets.length) ++
      sealOctets K s.ctx.serveroutKey ctx.sessionId (nextNonce ctx) c.octets := by
    simp only [frame, hcrypt, Chain.frame, Chain.spl, hc, if_true, hkey]
    rw [length_sealOctets hnonce, Nat.mod_eq_of_lt (by omega)]
  have hsize : frame.length = 56 + c.octets.length := by
    rw [hframe, List.length_append, length_be32, length_sealOctets hnonce]
    omega
  have hfeed : feedAll h K (frame ++ rest) s = readSealed h K c.octets rest s := by
    rw [hframe]
    exact transform_frame_opens hK rest hnonce hmin hmax hidle hconn
  refine ⟨hfeed, ?_⟩
  intro rs hclient hcut hb hd
  have hi : intact h K rs (frame ++ rest) s {} = true := by
    rw [hsize, hframe] at hb
    rw [hframe]
    exact transform_frame_intact hK rest hnonce hmin hmax hidle hconn rs {} hb
  rw [readFromSocket_eq_feedAll rs _ s {} hclient rfl hcut hi hd, hfeed]

/-- A client that holds the key and waits for an echo. -/
def openingClient : Smb2 :=
  { ctx := { serveroutKey := [7], sessionId := 0x1122, waitqueue := [echoRequest 1 0] } }

/-- The reply, sealed with the key. -/
def sealedEcho : Chain :=
  (encryptPdu (libraryCrypto maskCipher) { sealing := true, serverinKey := [7], sessionId := 0x1122 }
    ⟨{ sealed := true, out := [(echoHeader 1 0 1 (zeros 16)).encode, echoBody] }, []⟩).2

/-- Pieces, with a would-block return in two of the phases, and an octet of the next frame. -/
def brokenReads : List Recv :=
  [.data 1, .data 9, .wouldBlock, .data 29, .data 99, .data 49, .wouldBlock, .data 99, .data 0]

theorem sealed_echo_arrives :
    let plain := (echoHeader 1 0 1 (zeros 16)).encode ++ echoBody
    let run := readFromSocket plainHooks (libraryCrypto maskCipher) brokenReads
      (sealedEcho.frame ++ [0]) openingClient {}
    run = readSealed plainHooks (libraryCrypto maskCipher) plain [0] openingClient ∧
      run.calls.map (fun c => (c.1, c.2.2.2.2)) = [(1, plain)] :=
  ⟨(sealed_chain_arrives plainHooks (libraryCrypto_opens maskCipher) [0] rfl rfl rfl (by decide)
    (by decide) rfl rfl rfl).2 brokenReads rfl (by decide) (by decide +kernel) (by decide +kernel),
    by decide +kernel⟩

end Libsmb2
