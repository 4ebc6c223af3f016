import Libsmb2.Receive.Rule

/-!
# Receiving in pieces

A client reads its input through a state machine that a read may leave at any octet.
`feedAll` is the machine without the cuts: one octet after the other, and the offset of
the message being received taken from the vectors instead of the local `iov_offset`.

* `readFromSocket_eq_feedAll` — on any schedule of reads and would-block returns, the
  calls do what `feedAll` does, provided `intact`: whenever a signature is due, the local
  `iov_offset` still is the offset of the message.
* `reads_independent_of_cuts` — two ways of cutting one stream invoke the same callbacks,
  with the same headers and payloads, and end alike.
* `cut_compound_loses_signature` — the proviso matters: a would-block return inside the
  second member of a signed compound makes the code verify it over the wrong vectors.
-/

set_option autoImplicit false

namespace Libsmb2

open Util

variable {h : Hooks} {K : Crypto}

/-! ## The machine without cuts -/

/-- The locals of a call of `smb2_read_data` that was never interrupted. -/
def uncut (s : Smb2) : Locals := { iovOffset := s.rx.memberOffset }

/-- Feed the stream octet by octet. -/
def feedAll (h : Hooks) (K : Crypto) : Bytes → Smb2 → Outcome
  | [], s => park (start s) []
  | b :: bs, s =>
    match gate (start s) with
    | .overrun => .faulted .vectorOverrun (start s) (b :: bs)
    | .closed => .failed .readFailed (start s) (b :: bs)
    | .parked => .waiting (start s) (b :: bs)
    | .ready =>
      match arrive h K (start s) (uncut (start s)) [b] with
      | .next s _ => feedAll h K bs s
      | .failed e s => .failed e s bs
      | .faulted f s => .faulted f s bs

/-- A phase that ends here may have to verify a signature: the context signs, and the
header is flagged and not one of a session setup. -/
def checksSignature (s : Smb2) : Bool :=
  mustVerify s && (s.rx.state = .fixed || s.rx.state = .variable || s.rx.state = .pad)

/-- **Every signature is checked at the offset of its own message**: no would-block return
came between the start of a later member of a compound and the check of its signature. -/
def intact (h : Hooks) (K : Crypto) : List Recv → Bytes → Smb2 → Locals → Bool
  | [], _, _, _ => true
  | r :: rs, bs, s, l =>
    match gate (start s), r with
    | .ready, .data n =>
      if bs = [] then intact h K rs bs (start s) {}
      else
        let k := min (n + 1) (offered (start s))
        (!checksSignature (store (start s) (bs.take k)) ||
          l.iovOffset == (start s).rx.memberOffset) &&
        match arrive h K (start s) l (bs.take k) with
        | .next s l => intact h K rs (bs.drop k) s l
        | _ => true
    | .ready, .wouldBlock => intact h K rs bs (start s) {}
    | _, _ => true

/-! ## Where the offset matters -/

theorem complete_offset {s : Smb2} {off off' : Nat} (ho : mustVerify s = true → off = off') :
    complete h K off s = complete h K off' s := by
  unfold complete
  by_cases hv : mustVerify s = true
  · rw [ho hv]
  · simp only [hv]
    rfl

theorem padOrComplete_offset {s : Smb2} {off off' : Nat}
    (ho : mustVerify s = true → off = off') :
    padOrComplete h K off s = padOrComplete h K off' s := by
  unfold padOrComplete
  rw [complete_offset ho]

theorem applyEffects_sign (ctx : Context) (e : Effects) :
    (applyEffects ctx e).sign = ctx.sign := by
  obtain ⟨_, _, _, _, he⟩ := applyEffects_eq ctx e
  rw [he]

/-- Decoding does not change whether the message has to be verified. -/
theorem mustVerify_decoded (s : Smb2) (p : Pdu) (d : Decoded) (e : RxEvent) :
    mustVerify { ctx := applyDecoded s.ctx p d, rx := s.rx.emit e } = mustVerify s := by
  simp only [mustVerify, applyDecoded, Receiver.emit, applyEffects_sign]

theorem phase_offset {s : Smb2} {off off' : Nat} {xfrm : Bool}
    (ho : checksSignature s = true → off = off') :
    phase h K xfrm off s = phase h K xfrm off' s := by
  unfold phase
  split
  · rfl
  · rfl
  · rename_i hst
    have ho' : mustVerify s = true → off = off' := by
      intro hv
      exact ho (by simp [checksSignature, hv, hst])
    unfold fixedPhase
    split
    · rfl
    · rename_i p hp
      simp only
      rw [padOrComplete_offset (by rwa [mustVerify_decoded])]
  · rename_i hst
    have ho' : mustVerify s = true → off = off' := by
      intro hv
      exact ho (by simp [checksSignature, hv, hst])
    unfold variablePhase
    split
    · rfl
    · rename_i p hp
      simp only
      rw [padOrComplete_offset (by rwa [mustVerify_decoded])]
  · rename_i hst
    refine complete_offset ?_
    intro hv
    exact ho (by simp [checksSignature, hv, hst])
  · rfl
  · rfl

/-! ## Reads of several octets -/

@[simp] theorem store_memberOffset (s : Smb2) (bs : Bytes) :
    (store s bs).rx.memberOffset = s.rx.memberOffset := rfl

@[simp] theorem store_totalSize (s : Smb2) (bs : Bytes) :
    (store s bs).rx.totalSize = s.rx.totalSize := rfl

@[simp] theorem store_numDone (s : Smb2) (bs : Bytes) :
    (store s bs).rx.numDone = s.rx.numDone + bs.length := rfl

theorem store_append (s : Smb2) (xs ys : Bytes) : store s (xs ++ ys) = store (store s xs) ys := by
  simp [store, Nat.add_assoc]

theorem uncut_store (s : Smb2) (bs : Bytes) : uncut (store s bs) = uncut s := rfl

theorem start_of_pos {s : Smb2} (hs : s.rx.numDone ≠ 0) : start s = s := by
  simp [start, hs]

theorem start_start (s : Smb2) : start (start s) = start s := by
  unfold start
  split
  · rename_i hz
    simp [hz]
  · rfl

theorem gate_of_room {s : Smb2} (hlt : s.rx.numDone < s.rx.totalSize)
    (hc : s.ctx.connected = true) : gate s = .ready := by
  unfold gate
  rw [if_neg (by omega), if_pos hc]

/-- Go on after a read, or stop. -/
def Turn.resume (k : Smb2 → Outcome) (rest : Bytes) : Turn → Outcome
  | .next s _ => k s
  | .failed e s => .failed e s rest
  | .faulted f s => .faulted f s rest

/-- Inside a phase, octets that arrive together arrive one by one. -/
theorem feedAll_phase (xs rest : Bytes) (s : Smb2) (hne : xs ≠ [])
    (hg : gate (start s) = .ready)
    (hlen : xs.length ≤ (start s).rx.totalSize - (start s).rx.numDone) :
    feedAll h K (xs ++ rest) s =
      (arrive h K (start s) (uncut (start s)) xs).resume (feedAll h K rest) rest := by
  obtain ⟨hlt, hconn⟩ := gate_ready hg
  induction xs generalizing s with
  | nil => exact absurd rfl hne
  | cons b xs ih =>
    cases xs with
    | nil =>
      simp only [List.cons_append, List.nil_append, feedAll, hg]
      cases arrive h K (start s) (uncut (start s)) [b] <;> rfl
    | cons b' xs =>
      -- the first octet does not complete the phase
      have hmid : (store (start s) [b]).rx.numDone < (store (start s) [b]).rx.totalSize := by
        simp only [List.length_cons] at hlen
        simp
        omega
      have hone : arrive h K (start s) (uncut (start s)) [b] =
          .next (store (start s) [b]) (uncut (start s)) := by
        unfold arrive
        simp only [hmid, if_true]
      have hpos : start (store (start s) [b]) = store (start s) [b] :=
        start_of_pos (by simp)
      have hgate : gate (start (store (start s) [b])) = .ready := by
        rw [hpos]
        exact gate_of_room hmid hconn
      have hrest := ih (store (start s) [b]) (by simp) hgate
        (by
          rw [hpos]
          simp only [List.length_cons] at hlen ⊢
          simp
          omega)
        (by rw [hpos]; exact hmid) (by rw [hpos]; exact hconn)
      rw [List.cons_append]
      simp only [feedAll, hg, hone]
      rw [hrest, hpos, uncut_store]
      have happ : arrive h K (store (start s) [b]) (uncut (start s)) (b' :: xs) =
          arrive h K (start s) (uncut (start s)) (b :: b' :: xs) := by
        unfold arrive
        rw [← store_append]
        rfl
      rw [happ]

/-! ## Schedules -/

/-- The answers that only cut the stream: some octets, or would-block. -/
def Recv.isCut : Recv → Bool
  | .data _ => true
  | .wouldBlock => true
  | _ => false

/-- The whole stream was taken in, or the calls ended for good before its end. -/
def Outcome.delivered : Outcome → Bool
  | .waiting s rest => rest = [] || gate s = .parked
  | _ => true

def Turn.forget : Turn → Turn
  | .next s _ => .next s {}
  | t => t

theorem Turn.resume_forget {t u : Turn} (k : Smb2 → Outcome) (rest : Bytes)
    (e : t.forget = u.forget) : t.resume k rest = u.resume k rest := by
  have key : ∀ v : Turn, v.forget.resume k rest = v.resume k rest := by
    intro v
    cases v <;> rfl
  rw [← key t, e, key u]

/-- The locals only decide where the next signature is checked. -/
theorem settle_forget (l l' : Locals) (f : Flow) :
    (settle h K l f).forget = (settle h K l' f).forget := by
  cases f with
  | decrypt plain s =>
    simp only [settle]
  | _ => rfl

/-- A read does what it does in the uncut machine, as long as the signature that is due,
if any, is checked at the right offset. -/
theorem arrive_forget {s : Smb2} {l : Locals} {xs : Bytes}
    (ho : checksSignature (store s xs) = true → l.iovOffset = s.rx.memberOffset) :
    (arrive h K s l xs).forget = (arrive h K s (uncut s) xs).forget := by
  unfold arrive
  simp only
  split
  · rfl
  · have hph : phase h K false l.iovOffset (store s xs) =
        phase h K false (uncut s).iovOffset (store s xs) := phase_offset ho
    rw [hph]
    exact settle_forget l (uncut s) _

theorem offered_le (s : Smb2) : offered s ≤ s.rx.totalSize - s.rx.numDone := by
  unfold offered
  split
  · exact le_refl _
  · -- the end of a vector is at most the end of all of them
    have hle : ∀ i, s.rx.offset i ≤ s.rx.totalSize := by
      intro i
      exact List.Sublist.sum_le_sum ((List.take_sublist i s.rx.iov).map IoVec.len)
        (fun _ _ => Nat.zero_le _)
    simp only
    cases hf : ((List.range s.rx.iov.length).map fun i => s.rx.offset (i + 1)).find?
        fun e => decide (s.rx.numDone < e) with
    | none => simp
    | some e =>
      have hm := List.mem_of_find?_eq_some hf
      simp only [List.mem_map] at hm
      obtain ⟨i, _, rfl⟩ := hm
      have := hle (i + 1)
      simp only [Option.getD_some]
      omega

theorem offered_pos {s : Smb2} (hlt : s.rx.numDone < s.rx.totalSize) : 0 < offered s := by
  unfold offered
  split
  · omega
  · simp only
    cases hf : ((List.range s.rx.iov.length).map fun i => s.rx.offset (i + 1)).find?
        fun e => decide (s.rx.numDone < e) with
    | none =>
      simp only [Option.getD_none]
      omega
    | some e =>
      have hp := List.find?_some hf
      simp only [decide_eq_true_eq] at hp
      simp only [Option.getD_some]
      omega

theorem feedAll_start (bs : Bytes) (s : Smb2) : feedAll h K bs (start s) = feedAll h K bs s := by
  cases bs with
  | nil => simp only [feedAll, start_start]
  | cons b bs => simp only [feedAll, start_start]

/-- **Cuts do not matter to an intact run.** -/
theorem readFromSocket_eq_feedAll (rs : List Recv) (bs : Bytes) (s : Smb2) (l : Locals)
    (hc : s.ctx.isServer = false) (hl : l.flushing = false)
    (hcut : ∀ r ∈ rs, r.isCut = true) (hi : intact h K rs bs s l = true)
    (hd : (readFromSocket h K rs bs s l).delivered = true) :
    readFromSocket h K rs bs s l = feedAll h K bs s := by
  induction rs generalizing bs s l with
  | nil =>
    simp only [readFromSocket, hl] at hd ⊢
    cases bs with
    | nil => rfl
    | cons b bs =>
      simp only [feedAll]
      unfold park at hd ⊢
      cases hg : gate (start s) with
      | overrun => rfl
      | closed => rfl
      | parked => rfl
      | ready =>
        -- octets are left and the transport would deliver them
        simp [hg, Outcome.delivered] at hd
  | cons r rs ih =>
    have hcut' : ∀ r ∈ rs, r.isCut = true := fun r hr => hcut r (List.mem_cons_of_mem _ hr)
    have hc' : (start s).ctx.isServer = false := by rw [start_ctx]; exact hc
    have hfresh : intact h K rs bs (start s) {} = true →
        (readFromSocket h K rs bs (start s) {}).delivered = true →
        readFromSocket h K rs bs (start s) {} = feedAll h K bs s := by
      intro hi hd
      rw [ih bs (start s) {} hc' rfl hcut' hi hd, feedAll_start]
    have hr := hcut r (List.mem_cons_self ..)
    unfold readFromSocket at hd ⊢
    unfold intact at hi
    simp only [hl] at hd ⊢
    cases hg : gate (start s) with
    | overrun =>
      cases bs <;> simp [feedAll, park, hg]
    | closed =>
      cases bs <;> simp [feedAll, park, hg]
    | parked =>
      cases bs <;> simp [feedAll, park, hg]
    | ready =>
      simp only [hg] at hd hi ⊢
      cases r with
      | closed => cases hr
      | failed => cases hr
      | wouldBlock => exact hfresh hi hd
      | data n =>
        simp only at hd hi ⊢
        by_cases hbs : bs = []
        · subst hbs
          simp only [if_true] at hd hi ⊢
          exact hfresh hi hd
        · simp only [hbs, if_false] at hd hi ⊢
          rw [Bool.and_eq_true] at hi
          obtain ⟨hoff, hi⟩ := hi
          have hoff : checksSignature (store (start s)
              (bs.take (min (n + 1) (offered (start s))))) = true →
              l.iovOffset = (start s).rx.memberOffset := by
            intro hv
            simpa [hv] using hoff
          obtain ⟨hlt, _⟩ := gate_ready hg
          have hk := offered_le (start s)
          have hk' := offered_pos hlt
          generalize hkeq : min (n + 1) (offered (start s)) = k at hd hi hoff ⊢
          have hne : bs.take k ≠ [] := by
            simp only [ne_eq, List.take_eq_nil_iff, not_or]
            exact ⟨by omega, hbs⟩
          have hlen : (bs.take k).length ≤
              (start s).rx.totalSize - (start s).rx.numDone := by
            simp only [List.length_take]
            omega
          have hspec := feedAll_phase (h := h) (K := K) (bs.take k) (bs.drop k) s hne hg hlen
          rw [List.take_append_drop] at hspec
          rw [hspec, ← Turn.resume_forget _ _ (arrive_forget (l := l) hoff)]
          cases ha : arrive h K (start s) l (bs.take k) with
          | next s' l' =>
            simp only [ha] at hd hi ⊢
            obtain ⟨hc'', hl'⟩ := arrive_client hc' hl hlt ha
            exact ih _ s' l' hc'' hl' hcut' hi hd
          | failed e s' => rfl
          | faulted f s' => rfl

/-! ## The two-run law -/

/-- What the application sees of a run: the callbacks, each with the header and the
payload it was given. -/
def Outcome.calls (o : Outcome) : List (Nat × Callback × Header × Payload × Bytes) :=
  o.smb2.rx.log.filterMap fun
    | .dispatched d => some (d.pdu.id, d.pdu.cb, d.hdr, d.pdu.payload, d.octets)
    | .pending d => some (d.pdu.id, d.pdu.cb, d.hdr, d.pdu.payload, d.octets)
    | _ => none

/-- The result of a run: still connected, or the reason why it ended. -/
inductive Ending
  | waiting
  | failed (e : ReadError)
  | faulted (f : Fault)
  deriving DecidableEq, Repr

def Outcome.ending : Outcome → Ending
  | .waiting _ _ => .waiting
  | .failed e _ _ => .failed e
  | .faulted f _ _ => .faulted f

/-- Two schedules are indistinguishable to the application. -/
def SameRun (h : Hooks) (K : Crypto) (s : Smb2) (bs : Bytes) (rs₁ rs₂ : List Recv) : Prop :=
  (readFromSocket h K rs₁ bs s {}).calls = (readFromSocket h K rs₂ bs s {}).calls ∧
    (readFromSocket h K rs₁ bs s {}).ending = (readFromSocket h K rs₂ bs s {}).ending

/-- A schedule cuts the stream of the peer into reads, and delivers all of it. -/
structure Cuts (h : Hooks) (K : Crypto) (s : Smb2) (bs : Bytes) (rs : List Recv) : Prop where
  cut : ∀ r ∈ rs, r.isCut = true
  delivered : (readFromSocket h K rs bs s {}).delivered = true

/-- **Two intact ways of cutting a stream are indistinguishable**, whatever the stream, the
client's context, its decoders and its callbacks. -/
theorem reads_independent_of_cuts (h : Hooks) (K : Crypto) (s : Smb2) (bs : Bytes)
    (rs₁ rs₂ : List Recv) (hc : s.ctx.isServer = false)
    (h₁ : Cuts h K s bs rs₁) (h₂ : Cuts h K s bs rs₂)
    (i₁ : intact h K rs₁ bs s {} = true) (i₂ : intact h K rs₂ bs s {} = true) :
    SameRun h K s bs rs₁ rs₂ := by
  have e₁ := readFromSocket_eq_feedAll rs₁ bs s {} hc rfl h₁.cut i₁ h₁.delivered
  have e₂ := readFromSocket_eq_feedAll rs₂ bs s {} hc rfl h₂.cut i₂ h₂.delivered
  unfold SameRun
  rw [e₁, e₂]
  exact ⟨rfl, rfl⟩

/-! ## A signed compound reply -/

/-- Decoders that keep the octets of the message as the payload, and callbacks that do
nothing. -/
def plainHooks : Hooks where
  decodeFixed _ rx _ p := { ret := 0, payload := .other p.header.command rx.member }
  decodeVariable _ rx _ p := { ret := 0, payload := .other p.header.command rx.member }
  invoke _ _ _ ctx := ctx
  invoke_isServer _ _ _ _ := rfl
  invoke_pdu _ _ _ _ := rfl

def echoHeader (mid next flags : Nat) (signature : Bytes) : Header :=
  { protocolId := Header.smb2sign, structSize := 64, creditCharge := 1, command := .echo,
    creditRequestResponse := 1, flags := flags, nextCommand := next, messageId := mid,
    processId := 0xFEFF, sessionId := 0x1122, signature := signature }

def echoBody : Bytes := [4, 0, 0, 0]

/-- The two members of the reply, with these signatures. -/
def firstEcho (signature : Bytes) : Bytes :=
  (echoHeader 1 72 9 signature).encode ++ (echoBody ++ zeros 4)

def secondEcho (signature : Bytes) : Bytes :=
  (echoHeader 2 0 13 signature).encode ++ echoBody

/-- HMAC-SHA-256 under the key `01 .. 10` of the messages of the examples: the two members,
the octets that a cut makes the client verify, and an echo reply that is not flagged. -/
def echoDigest (msg : Bytes) : Bytes :=
  if msg = firstEcho (zeros 16) then
    [0x75, 0xe6, 0xdb, 0x74, 0xa9, 0xab, 0x23, 0x16, 0xbc, 0xae, 0x47, 0xf5, 0xb9, 0xb4, 0x68, 0xc2,
      0x2e, 0xc6, 0x7f, 0x03, 0xcd, 0x24, 0x60, 0xb7, 0x9c, 0x1e, 0x35, 0x74, 0xb3, 0x6c, 0xdb, 0x64]
  else if msg = secondEcho (zeros 16) then
    [0x64, 0xc4, 0x36, 0x0c, 0x90, 0x57, 0xd0, 0x29, 0x15, 0x58, 0x4e, 0x00, 0x8e, 0x72, 0x32, 0x1d,
      0x5e, 0x42, 0x12, 0x9c, 0xf5, 0xd2, 0x4e, 0x5d, 0x6a, 0xf0, 0x41, 0xc3, 0xfa, 0x58, 0x8b, 0xb8]
  else if msg = (echoHeader 2 0 13 (zeros 16)).encode ++ (echoBody ++ zeros 4) ++
      secondEcho (zeros 16) then
    [0xee, 0x68, 0xd0, 0xc6, 0x82, 0x77, 0x97, 0x5e, 0x76, 0xc6, 0x6a, 0x69, 0x80, 0x7b, 0x75, 0x67,
      0x98, 0xcb, 0x70, 0x96, 0xef, 0xf5, 0xda, 0x45, 0x9f, 0x17, 0x5b, 0x41, 0xe4, 0x15, 0xea, 0xe0]
  else if msg = (echoHeader 1 0 1 (zeros 16)).encode ++ echoBody then
    [0x97, 0x1f, 0x0e, 0x01, 0xff, 0x1d, 0x9d, 0x79, 0xab, 0xec, 0x20, 0x2d, 0xcf, 0xf5, 0xe7, 0x1e,
      0xa3, 0x8e, 0x2f, 0xa6, 0x21, 0xc7, 0x70, 0x05, 0x29, 0xb4, 0xd3, 0x5e, 0xe1, 0x59, 0x4c, 0xef]
  else zeros 32

def echoCrypto : Crypto where
  cmac _ _ := zeros 16
  hmacSha256 _ m := echoDigest m
  sha512 _ := zeros 64
  ccmEncrypt _ _ _ p := (p, zeros 16)
  ccmDecrypt _ _ _ c _ := some c
  cmac_length _ _ := by simp
  hmacSha256_length _ m := by
    unfold echoDigest
    split
    · rfl
    · split
      · rfl
      · split
        · rfl
        · split
          · rfl
          · simp
  sha512_length _ := by simp
  ccmEncrypt_length _ _ _ _ := rfl
  ccmTag_length _ _ _ _ := by simp
  ccmDecrypt_length _ _ _ _ _ _ h := by
    cases h
    rfl

def echoRequest (mid prev : Nat) : Pdu :=
  { id := mid, header := echoHeader mid 0 0 (zeros 16), cb := .app mid, prevCompoundMid := prev }

/-- A client that signs and waits for the replies to a compound of two echo requests. -/
def echoClient : Smb2 where
  ctx := {
    dialect := VERSION_0210
    sign := true
    sessionId := 0x1122
    sessionKey := le 16 0x100f0e0d0c0b0a090807060504030201
    signingKey := le 16 0x100f0e0d0c0b0a090807060504030201
    waitqueue := [echoRequest 1 0, echoRequest 2 1]
    nextId := 3 }

/-- The compound reply, each member signed. -/
def echoReply : Bytes :=
  be32 140 ++ firstEcho ((echoDigest (firstEcho (zeros 16))).take 16) ++
    secondEcho ((echoDigest (secondEcho (zeros 16))).take 16)

/-- Whole phases, and a would-block return inside the first member. -/
def wholeReads : List Recv := List.replicate 6 (.data 100)
def cutFirst : List Recv := [.data 100, .data 9, .wouldBlock] ++ List.replicate 5 (.data 100)
/-- A would-block return between the header and the body of the second member. -/
def cutSecond : List Recv := List.replicate 5 (.data 100) ++ [.wouldBlock, .data 100]

theorem echo_reads_independent : SameRun plainHooks echoCrypto echoClient echoReply wholeReads
    cutFirst :=
  reads_independent_of_cuts plainHooks echoCrypto echoClient echoReply wholeReads cutFirst rfl
    ⟨by decide, by decide +kernel⟩ ⟨by decide, by decide +kernel⟩ (by decide +kernel)
    (by decide +kernel)

/-- Both schedules only cut the stream and deliver it, and yet they differ: cut inside the
second member, the compound ends with a wrong signature. -/
theorem cut_compound_loses_signature :
    Cuts plainHooks echoCrypto echoClient echoReply wholeReads ∧
      Cuts plainHooks echoCrypto echoClient echoReply cutSecond ∧
      ¬ SameRun plainHooks echoCrypto echoClient echoReply wholeReads cutSecond ∧
      (readFromSocket plainHooks echoCrypto wholeReads echoReply echoClient {}).ending = .waiting ∧
      (readFromSocket plainHooks echoCrypto cutSecond echoReply echoClient {}).ending =
        .failed .wrongSignature := by
  have e₁ : (readFromSocket plainHooks echoCrypto wholeReads echoReply echoClient {}).ending =
      .waiting := by decide +kernel
  have e₂ : (readFromSocket plainHooks echoCrypto cutSecond echoReply echoClient {}).ending =
      .failed .wrongSignature := by decide +kernel
  refine ⟨⟨by decide, by decide +kernel⟩, ⟨by decide, by decide +kernel⟩, ?_, e₁, e₂⟩
  intro hsame
  rw [SameRun, e₁, e₂] at hsame
  cases hsame.2

end Libsmb2
