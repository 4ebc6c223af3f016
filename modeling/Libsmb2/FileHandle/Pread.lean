import Libsmb2.Receive.Cases
import Libsmb2.Receive.Layout
import Libsmb2.Commands.Charges
import Libsmb2.Errors

/-!
# The result of a READ

`smb2_pread_async` asks for some octets and gives the receive machine the caller's buffer for
them.  The reply is decoded by `smb2_process_read_fixed`, or by `smb2_process_error_fixed` if its
status is an error, and `read_cb` reads the length in what they leave behind.

* `BodyStep` — the machine between the header of a reply and its end; `Running` is its invariant;
* `read_results_are_bounded_iff` — never more octets than were asked for go through the caller's
  buffer; what `read_cb` passes on is their number, and moves the handle on success only, exactly
  for the replies in which the length is at most what was asked for, or zero at the end of file;
* `long_reply_exceeds` — a reply with more data, and an end of file with error data.
-/

set_option autoImplicit false

namespace Libsmb2.Pread

open Util Relation

def STATUS_END_OF_FILE : Nat := 0xC0000011
def READ_REPLY_SIZE : Nat := 17

/-! ## The decoders -/

/-- `struct smb2_read_reply`, without the pointer to the data. -/
structure ReadReply where
  dataOffset : Nat
  dataLength : Nat
  dataRemaining : Nat

/-- `struct smb2_error_reply`, likewise. -/
structure ErrorReply where
  errorContextCount : Nat
  byteCount : Nat

/-- The structure in memory, where three octets pad the first member. -/
def ReadReply.memory (rep : ReadReply) : Bytes :=
  le 1 rep.dataOffset ++ zeros 3 ++ le 4 rep.dataLength ++ le 4 rep.dataRemaining

def ErrorReply.memory (rep : ErrorReply) : Bytes :=
  le 1 rep.errorContextCount ++ zeros 3 ++ le 4 rep.byteCount

/-- `smb2->in.iov[smb2->in.niov - 1]`. -/
def lastVector (rx : Receiver) : Bytes :=
  match rx.iov.getLast? with
  | none => []
  | some v => rx.content (rx.iov.length - 1) v

/-- `smb2_process_read_fixed`. -/
def smb2ProcessReadFixed (rx : Receiver) (p : Pdu) : Decoded :=
  let iov := lastVector rx
  if READ_REPLY_SIZE < fromLe (slice iov 0 2) then { ret := -1, payload := p.payload }
  else
    let rep : ReadReply := {
      dataOffset := fromLe (slice iov 2 1)
      dataLength := fromLe (slice iov 4 4)
      dataRemaining := fromLe (slice iov 8 4) }
    if rep.dataLength = 0 then { ret := 0, payload := .other p.header.command rep.memory }
    else if rep.dataOffset ≠ HEADER_SIZE + 16 then { ret := -1, payload := .null }
    else { ret := toInt32 rep.dataLength, payload := .other p.header.command rep.memory }

/-- `smb2_process_error_fixed`. -/
def smb2ProcessErrorFixed (rx : Receiver) (p : Pdu) : Decoded :=
  let iov := lastVector rx
  let structSize := fromLe (slice iov 0 2)
  if structSize ≠ ERROR_REPLY_SIZE ∨ structSize - structSize % 2 ≠ iov.length then
    { ret := -1, payload := p.payload }
  else
    let rep : ErrorReply := {
      errorContextCount := fromLe (slice iov 2 1)
      byteCount := fromLe (slice iov 4 4) }
    { ret := toInt32 rep.byteCount, payload := .other p.header.command rep.memory }

/-- `smb2_process_read_variable` and `smb2_process_error_variable`: they point into the last
vector. -/
def processVariable (p : Pdu) : Decoded := { ret := 0, payload := p.payload }

/-- Decoders and callbacks that decode the replies to a READ as the source does. -/
def decodingReads (h : Hooks) : Hooks :=
  { h with
    decodeFixed := fun d rx ctx p =>
      match d with
      | .reply .read => smb2ProcessReadFixed rx p
      | .error => smb2ProcessErrorFixed rx p
      | d => h.decodeFixed d rx ctx p
    decodeVariable := fun d rx ctx p =>
      match d with
      | .reply .read => processVariable p
      | .error => processVariable p
      | d => h.decodeVariable d rx ctx p }

/-! ## The callback -/

/-- What `read_cb` reads in its private data and in the handle. -/
structure ReadData where
  offset : UInt64
  fhOffset : UInt64

/-- What `read_cb` passes on, and the offset of the handle then. -/
structure Completion where
  result : Int
  fhOffset : UInt64
  deriving DecidableEq, Repr

/-- `rep->data_length`: the number at offset 4 of the payload, whichever structure it is.  There
is none behind a NULL. -/
def dataLength : Payload → Option Nat
  | .other _ memory => some (fromLe (slice memory 4 4))
  | _ => none

/-- `read_cb`. -/
def readCb (status : Nat) (payload : Payload) (rd : ReadData) : Option Completion :=
  if status ≠ STATUS_SUCCESS ∧ status ≠ STATUS_END_OF_FILE then
    some { result := -nterrorToErrno status, fhOffset := rd.fhOffset }
  else
    (dataLength payload).map fun n : Nat => {
      result := toInt32 n
      fhOffset := if status = STATUS_SUCCESS then rd.offset + UInt64.ofNat n else rd.fhOffset }

/-! ## The body of a reply -/

/-- Octets arrive for the vectors of a phase, or it has them all and the next one begins. -/
inductive BodyStep (h : Hooks) (K : Crypto) : Smb2 → Smb2 → Prop
  | arrive (s : Smb2) (bs : Bytes) (hfits : s.rx.numDone + bs.length ≤ s.rx.totalSize) :
      BodyStep h K s (store s bs)
  | next (s s' : Smb2) (xfrm : Bool) (off : Nat) (hfull : s.rx.numDone = s.rx.totalSize)
      (hmore : phase h K xfrm off s = .more s') : BodyStep h K s s'

/-- `q` is `p` as it waits for its reply. -/
structure SentFrom (p q : Pdu) : Prop where
  command : q.header.command = p.header.command
  inIov : q.inIov = p.inIov
  payload : q.payload = p.payload

/-- A client has decoded the header of a reply to `p`, which arrived in `s₀`. -/
structure ReplyTo (h : Hooks) (K : Crypto) (p : Pdu) (s₀ s : Smb2) : Prop where
  client : s₀.ctx.isServer = false
  state : s₀.rx.state = .header
  full : Full s₀.rx
  next : ∃ xfrm off, phase h K xfrm off s₀ = .more s
  matched : s.rx.state = .fixed ∧ ∃ q, s.ctx.pdu = some q ∧ SentFrom p q

/-- The lengths of the vectors into the caller's buffers that `len` octets are read through. -/
def callerVectors : List Nat → Nat → List Nat
  | [], _ => []
  | n :: ns, len => if len = 0 then [] else min n len :: callerVectors ns (len - min n len)

/-- How many of the vectors behind the fixed part are the caller's. -/
def callerCount (p : Pdu) : Nat :=
  (callerVectors p.inIov ((dataLength p.payload).getD 0)).length

/-- The octets that have gone through the caller's vectors; `first` is the first vector behind
the fixed part. -/
def stored (first : Nat) (s : Smb2) : Bytes :=
  match s.ctx.pdu with
  | none => []
  | some p => slice s.rx.received (s.rx.offset first)
      (((s.rx.iov.drop first).take (callerCount p)).map IoVec.len).sum

/-- The callback is run for the message that is complete in `s`. -/
def CallsBack (h : Hooks) (K : Crypto) (s : Smb2) (d : Dispatch) : Prop :=
  s.rx.numDone = s.rx.totalSize ∧ ∃ xfrm off es,
    (phase h K xfrm off s).smb2.rx.log = s.rx.log ++ es ∧ RxEvent.dispatched d ∈ es

/-! ## What is claimed of a result -/

/-- The number at offset 4 of the fixed part, which is the last vector of `s`: the length of the
data of a READ reply, the number of octets of an error reply. -/
def lengthField (s s' : Smb2) : Nat :=
  fromLe (slice s'.rx.received (s.rx.offset (s.rx.iov.length - 1) + 4) 4)

/-- Of `L` octets that were asked for, `n` have been stored. -/
structure Bounded (L n status : Nat) (rd : ReadData) (x : Completion) : Prop where
  atMost : 0 ≤ x.result → x.result ≤ L
  stored : 0 ≤ x.result → x.result = n
  atEnd : status = STATUS_END_OF_FILE → x.result = 0
  offset : x.fhOffset =
    if status = STATUS_SUCCESS then rd.offset + UInt64.ofNat x.result.toNat else rd.fhOffset

/-- The callback of a dispatched reply passes on what it should, whatever its private data. -/
def Results (L n : Nat) (d : Dispatch) : Prop :=
  ∀ rd, ∃ x, readCb d.hdr.status d.pdu.payload rd = some x ∧ Bounded L n d.hdr.status rd x

/-- A successful reply has no more data than was asked for, and the end of file has none. -/
def Within (L status len : Nat) : Prop :=
  (status = STATUS_SUCCESS → len ≤ L) ∧ (status = STATUS_END_OF_FILE → len = 0)

instance (L status len : Nat) : Decidable (Within L status len) :=
  inferInstanceAs (Decidable (_ ∧ _))

/-! ## Sums of vectors -/

theorem callerVectors_sum (ns : List Nat) (len : Nat) :
    (callerVectors ns len).sum = min ns.sum len := by
  induction ns generalizing len with
  | nil => simp [callerVectors]
  | cons n ns ih =>
    unfold callerVectors
    split
    · rename_i hz
      simp [hz]
    · rw [List.sum_cons, List.sum_cons, ih]
      omega

/-- The vectors that a variable part of `len` octets is read through. -/
def variableVectors (ns : List Nat) (len : Nat) : List IoVec :=
  (callerVectors ns len).map (IoVec.mk false) ++
    if ns.sum < len then [⟨false, len - ns.sum⟩] else []

theorem sum_plain (ns : List Nat) : ((ns.map (IoVec.mk false)).map IoVec.len).sum = ns.sum := by
  have hlen : IoVec.len ∘ IoVec.mk false = id := rfl
  rw [List.map_map, hlen, List.map_id]

theorem variableVectors_zero (ns : List Nat) : variableVectors ns 0 = [] := by
  cases ns <;> simp [variableVectors, callerVectors]

theorem variableVectors_cons {n len : Nat} (ns : List Nat) (hlen : len ≠ 0) :
    variableVectors (n :: ns) len = ⟨false, min n len⟩ :: variableVectors ns (len - min n len) := by
  have hsum : (n :: ns).sum = n + ns.sum := List.sum_cons
  unfold variableVectors
  rw [callerVectors, if_neg hlen, List.map_cons, List.cons_append]
  by_cases hover : (n :: ns).sum < len
  · have hover' : ns.sum < len - min n len := by omega
    have hrest : len - min n len - ns.sum = len - (n :: ns).sum := by omega
    rw [if_pos hover, if_pos hover', hrest]
  · have hover' : ¬ ns.sum < len - min n len := by omega
    rw [if_neg hover, if_neg hover']

/-- What the FIXED phase sets up for `len` octets: the caller's vectors, then one for the rest. -/
theorem expectVariable_more {ns : List Nat} {len : Nat} {s s' : Smb2} (hlen : len ≠ 0)
    (h : expectVariable s ns len = .more s') :
    s'.ctx = s.ctx ∧ s'.rx.state = .variable ∧ s'.rx.hdr = s.rx.hdr ∧
      s'.rx.received = s.rx.received ∧ s'.rx.numDone = s.rx.numDone ∧
        s'.rx.iov = s.rx.iov ++ variableVectors ns len := by
  induction ns generalizing len s with
  | nil =>
    unfold expectVariable expect at h
    rw [if_neg (by omega)] at h
    split at h
    · cases h
    · rename_i s₁ e
      cases h
      have hctx : s₁.ctx = s.ctx := addIovector_ctx e
      have hrx := addIovector_rx e
      have hpos : 0 < len := Nat.pos_of_ne_zero hlen
      simp only [hrx, hctx, variableVectors, callerVectors, List.map_nil, List.nil_append,
        List.sum_nil, hpos, if_true, Int.toNat_natCast, Nat.sub_zero, and_self]
  | cons n ns ih =>
    unfold expectVariable at h
    split at h
    · cases h
    · rename_i s₁ e
      have hctx : s₁.ctx = s.ctx := addIovector_ctx e
      have hrx := addIovector_rx e
      split at h
      · rename_i hrest
        cases h
        simp only [hrx, hctx, variableVectors_cons ns hlen, hrest, variableVectors_zero, and_self]
      · rename_i hrest
        obtain ⟨h₁, h₂, h₃, h₄, h₅, h₆⟩ := ih hrest h
        refine ⟨h₁.trans hctx, h₂, h₃.trans ?_, h₄.trans ?_, h₅.trans ?_, h₆.trans ?_⟩
        · rw [hrx]
        · rw [hrx]
        · rw [hrx]
        · rw [hrx, variableVectors_cons ns hlen, List.append_assoc]
          rfl

/-! ## What the decoders leave behind -/

/-- The second member of either structure stands at offset 4. -/
theorem dataLength_memory (c : Command) (first len : Nat) (rest : Bytes) (h : len < 2 ^ 32) :
    dataLength (.other c (le 1 first ++ zeros 3 ++ le 4 len ++ rest)) = some len := by
  have hlen : (le 1 first ++ zeros 3).length = 4 := by simp
  have hfield : slice (le 1 first ++ zeros 3 ++ le 4 len ++ rest) 4 4 = le 4 len := by
    rw [List.append_assoc _ (le 4 len), slice_append_right (by omega), hlen, Nat.sub_self,
      slice_append_left (by simp), slice_zero (by simp)]
  rw [dataLength, hfield, fromLe_le]
  exact congrArg some (Nat.mod_eq_of_lt h)

/-- What is decoded of a fixed part that is not refused: its length field, which is also what is
left to read. -/
structure Length (n : Nat) (d : Decoded) : Prop where
  payload : dataLength d.payload = some n
  small : n < 2 ^ 31
  rest : d.ret.toNat = n

variable {payload : Payload}

/-- The length field is what is left to read, unless it is taken for a negative number. -/
theorem Length.of_toInt32 {n : Nat} (hp : dataLength payload = some n)
    (hlt : n < 2 ^ 32) (h : ¬ toInt32 n < 0) : Length n { ret := toInt32 n, payload } := by
  obtain ⟨hsmall, hrest⟩ := toInt32_nonneg hlt h
  refine ⟨hp, hsmall, ?_⟩
  dsimp only
  exact hrest

theorem smb2ProcessReadFixed_length {rx : Receiver} {p : Pdu}
    (h : ¬ (smb2ProcessReadFixed rx p).ret < 0) :
    Length (fromLe (slice (lastVector rx) 4 4)) (smb2ProcessReadFixed rx p) := by
  have hlt : fromLe (slice (lastVector rx) 4 4) < 2 ^ 32 := fromLe_slice_lt (lastVector rx) 4 4
  have hmemory := dataLength_memory p.header.command (fromLe (slice (lastVector rx) 2 1))
    (fromLe (slice (lastVector rx) 4 4)) (le 4 (fromLe (slice (lastVector rx) 8 4))) hlt
  unfold smb2ProcessReadFixed at h ⊢
  simp only at h ⊢
  split
  · rename_i hsize
    rw [if_pos hsize] at h
    exact absurd (show (-1 : Int) < 0 by decide) h
  · rename_i hsize
    rw [if_neg hsize] at h
    split
    · rename_i hzero
      refine ⟨hmemory, ?_, ?_⟩
      · omega
      · exact hzero.symm
    · rename_i hzero
      rw [if_neg hzero] at h
      split
      · rename_i hoff
        rw [if_pos hoff] at h
        exact absurd (show (-1 : Int) < 0 by decide) h
      · rename_i hoff
        rw [if_neg hoff] at h
        refine .of_toInt32 hmemory hlt ?_
        dsimp only at h
        exact h

theorem smb2ProcessErrorFixed_length {rx : Receiver} {p : Pdu}
    (h : ¬ (smb2ProcessErrorFixed rx p).ret < 0) :
    Length (fromLe (slice (lastVector rx) 4 4)) (smb2ProcessErrorFixed rx p) := by
  have hlt : fromLe (slice (lastVector rx) 4 4) < 2 ^ 32 := fromLe_slice_lt (lastVector rx) 4 4
  have hmemory := dataLength_memory p.header.command (fromLe (slice (lastVector rx) 2 1))
    (fromLe (slice (lastVector rx) 4 4)) [] hlt
  rw [List.append_nil] at hmemory
  unfold smb2ProcessErrorFixed at h ⊢
  simp only at h ⊢
  split
  · rename_i hsize
    rw [if_pos hsize] at h
    exact absurd (show (-1 : Int) < 0 by decide) h
  · rename_i hsize
    rw [if_neg hsize] at h
    refine .of_toInt32 hmemory hlt ?_
    dsimp only at h
    exact h

/-- The decoder of the reply to a READ. -/
theorem decoderFor_read {ctx : Context} {hdr : Header} {q : Pdu} (hc : ctx.isServer = false)
    (hq : q.header.command = .read) :
    decoderFor ctx hdr q = .error ∨ decoderFor ctx hdr q = .reply .read := by
  unfold decoderFor
  rw [hc, hq]
  cases isErrorResponse hdr with
  | true => exact Or.inl rfl
  | false => exact Or.inr rfl

section
variable {h : Hooks} {K : Crypto} {q : Pdu}

theorem fixedDecoded_length {s : Smb2} (hc : s.ctx.isServer = false)
    (hq : q.header.command = .read) (hret : ¬ (fixedDecoded (decodingReads h) s q).ret < 0) :
    Length (fromLe (slice (lastVector s.rx) 4 4)) (fixedDecoded (decodingReads h) s q) := by
  have herror : fixedConstant .error = none := rfl
  have hread : fixedConstant (.reply .read) = none := rfl
  unfold fixedDecoded at hret ⊢
  rcases decoderFor_read hc hq with hd | hd
  · rw [hd, herror] at hret ⊢
    exact smb2ProcessErrorFixed_length hret
  · rw [hd, hread] at hret ⊢
    exact smb2ProcessReadFixed_length hret

theorem variableDecoded_eq {s : Smb2} (hc : s.ctx.isServer = false)
    (hq : q.header.command = .read) :
    variableDecoded (decodingReads h) s q = { ret := 0, payload := q.payload } := by
  have herror : variableConstant .error = none := rfl
  have hread : variableConstant (.reply .read) = none := by decide
  unfold variableDecoded
  rcases decoderFor_read hc hq with hd | hd
  · rw [hd, herror]
    rfl
  · rw [hd, hread]
    rfl

end

/-! ## From the header to the fixed part -/

theorem expect_more {s s' : Smb2} {st : RecvState} {len : Int} (h : expect s st len = .more s') :
    s'.ctx = s.ctx ∧ s'.rx = { s.rx with
      iov := s.rx.iov ++ [⟨false, len.toNat⟩]
      total := s.rx.total + len.toNat
      state := st } := by
  revert h
  refine expect_cases s st len ?_ ?_
  · intro _ h
    cases h
  · intro _ h
    cases h
    exact ⟨rfl, rfl⟩

/-- What `expectFixed` starts from has the vectors and the octets of `s₀`. -/
structure FixedFrom (s₀ s₁ s : Smb2) : Prop where
  next : expectFixed s₁ = .more s
  client : s₁.ctx.isServer = false
  iov : s₁.rx.iov = s₀.rx.iov
  received : s₁.rx.received = s₀.rx.received
  numDone : s₁.rx.numDone = s₀.rx.numDone

theorem replyHeader_fixed {xfrm : Bool} {s₀ s : Smb2} (hc : s₀.ctx.isServer = false)
    (h : replyHeader xfrm s₀ = .more s) (hst : s.rx.state = .fixed) :
    ∃ s₁, FixedFrom s₀ s₁ s := by
  have hserver := matchReply_isServer s₀.ctx s₀.rx.hdr
  unfold replyHeader at h
  split at h
  · simp only at h
    split at h
    · cases h
    · obtain ⟨-, hrx⟩ := expect_more h
      rw [hrx] at hst
      cases hst
  · cases h
  · cases h
  · rename_i ctx hm
    rw [hm] at hserver
    exact ⟨_, h, hserver.trans hc, rfl, rfl, rfl⟩

theorem headerPhase_fixed {xfrm : Bool} {s₀ s : Smb2} (hc : s₀.ctx.isServer = false)
    (h : headerPhase xfrm s₀ = .more s) (hst : s.rx.state = .fixed) : ∃ s₁, FixedFrom s₀ s₁ s := by
  unfold headerPhase at h
  split at h
  · unfold transformHeader at h
    simp only at h
    split at h
    · cases h
    · split at h
      · cases h
      · split at h
        · cases h
        · cases h
          cases hst
  · split at h
    · cases h
    · rename_i hdr _
      have hserver : (headedIn s₀ hdr).ctx.isServer = false :=
        (grantCredits_isServer _ hdr).trans ((noteHeader_isServer s₀.ctx hdr).trans hc)
      simp only [noteHeader_isServer, hc, Bool.false_and, Bool.false_eq_true, if_false] at h
      have h : smb2Header xfrm (headedIn s₀ hdr) = .more s := h
      unfold smb2Header at h
      simp only at h
      split at h
      · cases h
      · split at h
        · cases h
        · split at h
          · obtain ⟨-, hrx⟩ := expect_more h
            rw [hrx] at hst
            cases hst
          · rw [if_neg (by simp [hserver])] at h
            obtain ⟨s₁, hfrom⟩ := replyHeader_fixed hserver h hst
            exact ⟨s₁, hfrom.next, hfrom.client, hfrom.iov, hfrom.received, hfrom.numDone⟩

/-- The machine waits for the fixed part of a reply to the READ `q`. -/
structure Begun (q : Pdu) (s : Smb2) : Prop where
  state : s.rx.state = .fixed
  client : s.ctx.isServer = false
  pdu : s.ctx.pdu = some q
  command : q.header.command = .read
  payload : q.payload = .null
  vectors : ∃ pre n, s.rx.iov = pre ++ [⟨false, n⟩] ∧ 8 ≤ n
  length : s.rx.received.length = s.rx.numDone
  room : s.rx.numDone ≤ s.rx.totalSize

/-- The fixed part of a reply to a READ has eight octets at least. -/
theorem getFixedSize_read {ctx : Context} {hdr : Header} {q : Pdu} {n : Nat}
    (hc : ctx.isServer = false) (hq : q.header.command = .read)
    (h : getFixedSize ctx hdr q = some n) : 8 ≤ n - n % 2 := by
  unfold getFixedSize at h
  rw [hc, hq] at h
  simp only [Bool.false_eq_true, if_false] at h
  split at h
  · cases h
    decide
  · cases h
    decide

theorem ReplyTo.begun {h : Hooks} {K : Crypto} {p : Pdu} {s₀ s : Smb2} (hr : ReplyTo h K p s₀ s)
    (hp : p.header.command = .read) (hnull : p.payload = .null) :
    ∃ q, SentFrom p q ∧ Begun q s := by
  obtain ⟨xfrm, off, hnext⟩ := hr.next
  obtain ⟨hfixed, q, hq, hsent⟩ := hr.matched
  have hphase : headerPhase xfrm s₀ = .more s := by
    rw [← hnext, phase, hr.state]
  obtain ⟨s₁, hfrom⟩ := headerPhase_fixed hr.client hphase hfixed
  have hread : q.header.command = .read := hsent.command.trans hp
  have hnext₁ := hfrom.next
  unfold expectFixed at hnext₁
  split at hnext₁
  · cases hnext₁
  · rename_i q' hq'
    split at hnext₁
    · cases hnext₁
    · rename_i n hsize
      obtain ⟨hctx, hrx⟩ := expect_more hnext₁
      have hsame : q' = q := by
        rw [hctx, hq'] at hq
        exact Option.some.inj hq
      rw [hsame] at hsize
      have hlarge := getFixedSize_read hfrom.client hread hsize
      have htot := totalSize_push s₁.rx ⟨false, n - n % 2⟩
      have hdone := hr.full.done
      have hlen := hr.full.length
      have hiov : s.rx.iov = s₁.rx.iov ++ [⟨false, n - n % 2⟩] := by
        rw [hrx]
        rfl
      refine ⟨q, hsent, hfixed, ?_, hq, hread, hsent.payload.trans hnull, ⟨_, _, hiov, hlarge⟩,
        ?_, ?_⟩
      · rw [hctx]
        exact hfrom.client
      · rw [hrx, hfrom.received, hfrom.numDone]
        exact hlen
      · have hnum : s.rx.numDone = s₀.rx.numDone := by rw [hrx, hfrom.numDone]
        simp only [Receiver.totalSize, hfrom.iov, hiov] at htot hdone ⊢
        omega

/-! ## From the fixed part to the end -/

/-- Where the machine can be in the reply to `q` that it began in `s`. -/
inductive Stage (q : Pdu) (s s' : Smb2) : Prop
  /-- The fixed part is read. -/
  | fixedPart (hst : s'.rx.state = .fixed) (hpdu : s'.ctx.pdu = some q)
      (hiov : s'.rx.iov = s.rx.iov)
  /-- The fixed part has been decoded, and what is behind it is read. -/
  | body (payload : Payload) (rest : List IoVec) (hst : s'.rx.state ∈ [RecvState.variable, .pad])
      (hpdu : s'.ctx.pdu = some { q with payload := payload })
      (hlen : dataLength payload = some (lengthField s s')) (hsmall : lengthField s s' < 2 ^ 31)
      (hiov : s'.rx.iov = s.rx.iov ++
        (callerVectors q.inIov (lengthField s s')).map (IoVec.mk false) ++ rest)
      (harrived : s.rx.totalSize ≤ s'.rx.received.length)

/-- The invariant of the machine in the body of a reply. -/
structure Running (q : Pdu) (s s' : Smb2) : Prop where
  hdr : s'.rx.hdr = s.rx.hdr
  client : s'.ctx.isServer = false
  length : s'.rx.received.length = s'.rx.numDone
  room : s'.rx.numDone ≤ s'.rx.totalSize
  stage : Stage q s s'

section
variable {h : Hooks} {K : Crypto} {q : Pdu} {s s' s'' : Smb2}

theorem Begun.running (hb : Begun q s) : Running q s s :=
  ⟨rfl, hb.client, hb.length, hb.room, .fixedPart hb.state hb.pdu rfl⟩

/-- The length field lies in the fixed part. -/
theorem Begun.field_le (hb : Begun q s) :
    s.rx.offset (s.rx.iov.length - 1) + 4 + 4 ≤ s.rx.totalSize := by
  obtain ⟨pre, n, hiov, hn⟩ := hb.vectors
  have hoff : s.rx.offset (s.rx.iov.length - 1) = (pre.map IoVec.len).sum := by
    rw [Receiver.offset, hiov]
    simp
  have htot : s.rx.totalSize = (pre.map IoVec.len).sum + n := by
    rw [Receiver.totalSize, hiov]
    simp
  omega

theorem lengthField_of_prefix (hb : Begun q s) (harrived : s.rx.totalSize ≤ s'.rx.received.length)
    {bs : Bytes} (hrec : s''.rx.received = s'.rx.received ++ bs) :
    lengthField s s'' = lengthField s s' := by
  have hfield := hb.field_le
  unfold lengthField
  rw [hrec, slice_append_left (by omega)]

theorem lengthField_of_received (hrec : s''.rx.received = s'.rx.received) :
    lengthField s s'' = lengthField s s' := by
  unfold lengthField
  rw [hrec]

/-- The fixed part is the last vector while it is read. -/
theorem lengthField_lastVector (hb : Begun q s) (hiov : s'.rx.iov = s.rx.iov) :
    fromLe (slice (lastVector s'.rx) 4 4) = lengthField s s' := by
  obtain ⟨pre, n, hvectors, hn⟩ := hb.vectors
  have hoff : s'.rx.offset (s'.rx.iov.length - 1) = s.rx.offset (s.rx.iov.length - 1) := by
    rw [Receiver.offset, Receiver.offset, hiov]
  have hlast : s'.rx.iov.getLast? = some ⟨false, n⟩ := by
    rw [hiov, hvectors]
    exact List.getLast?_concat
  unfold lastVector lengthField
  rw [hlast]
  simp only [Receiver.content, Bool.false_eq_true, if_false]
  rw [slice_slice (by omega), hoff]

/-- Octets arrive. -/
theorem Running.store (hb : Begun q s) (hr : Running q s s') {bs : Bytes}
    (hfits : s'.rx.numDone + bs.length ≤ s'.rx.totalSize) : Running q s (store s' bs) := by
  refine ⟨hr.hdr, hr.client, ?_, hfits, ?_⟩
  · show (s'.rx.received ++ bs).length = s'.rx.numDone + bs.length
    rw [List.length_append, hr.length]
  · cases hr.stage with
    | fixedPart hst hpdu hiov => exact .fixedPart hst hpdu hiov
    | body payload rest hst hpdu hlen hsmall hiov harrived =>
      have hsame : lengthField s (Libsmb2.store s' bs) = lengthField s s' :=
        lengthField_of_prefix hb harrived rfl
      refine .body payload rest hst hpdu ?_ ?_ ?_ ?_
      · rw [hsame]
        exact hlen
      · rw [hsame]
        exact hsmall
      · rw [hsame]
        exact hiov
      · show s.rx.totalSize ≤ (s'.rx.received ++ bs).length
        rw [List.length_append]
        omega

/-- A message that is complete is not read on. -/
theorem Completes.not_more {f : Flow} {off : Nat} (hc : Completes h K off s f) : f ≠ .more s' := by
  intro he
  cases hc with
  | dispatched p hp hcb hst =>
    rcases endMember_cases (dispatchedIn h s p) with ⟨_, _, hm⟩ | ⟨_, hm | ⟨_, hm, _⟩ | hm⟩
    all_goals
      rw [hm] at he
      cases he
  | _ => cases he

theorem padOrComplete_more {off : Nat} (hmore : padOrComplete h K off s = .more s') :
    expect s .pad (padLength s.rx) = .more s' := by
  unfold padOrComplete at hmore
  simp only at hmore
  split at hmore
  · cases hmore
  · split at hmore
    · exact hmore
    · exact absurd hmore (Completes.not_more (complete_completes off s))

/-- The machine goes on behind the fixed part, with more vectors and the same octets. -/
theorem Running.behind (hr : Running q s s') (rest : List IoVec)
    {added : List IoVec}
    (hhdr : s''.rx.hdr = s'.rx.hdr) (hclient : s''.ctx.isServer = s'.ctx.isServer)
    (hrec : s''.rx.received = s'.rx.received) (hnum : s''.rx.numDone = s'.rx.numDone)
    (hadded : s''.rx.iov = s'.rx.iov ++ added) (hst : s''.rx.state ∈ [RecvState.variable, .pad])
    (hpdu : s''.ctx.pdu = some { q with payload := payload })
    (hlen : dataLength payload = some (lengthField s s')) (hsmall : lengthField s s' < 2 ^ 31)
    (hiov : s''.rx.iov = s.rx.iov ++
      (callerVectors q.inIov (lengthField s s')).map (IoVec.mk false) ++ rest)
    (harrived : s.rx.totalSize ≤ s'.rx.received.length) : Running q s s'' := by
  have hsame := lengthField_of_received (s := s) hrec
  have htot : s'.rx.totalSize ≤ s''.rx.totalSize := by
    rw [Receiver.totalSize, Receiver.totalSize, hadded, List.map_append, List.sum_append]
    exact Nat.le_add_right _ _
  have hroom := hr.room
  refine ⟨hhdr.trans hr.hdr, hclient.trans hr.client, ?_, ?_,
    .body payload rest hst hpdu ?_ ?_ ?_ ?_⟩
  · rw [hrec, hnum]
    exact hr.length
  · omega
  · rw [hsame]
    exact hlen
  · rw [hsame]
    exact hsmall
  · rw [hsame]
    exact hiov
  · rw [hrec]
    exact harrived

/-- The fixed part has been decoded: a vector for the padding is next, or those of the caller. -/
theorem Running.fixedPhase (hb : Begun q s) (hr : Running q s s')
    (hfull : s'.rx.numDone = s'.rx.totalSize) {off : Nat} (hpdu : s'.ctx.pdu = some q)
    (hiov : s'.rx.iov = s.rx.iov) (hmore : fixedPhase (decodingReads h) K off s' = .more s'') :
    Running q s s'' := by
  have harrived : s.rx.totalSize ≤ s'.rx.received.length := by
    rw [hr.length, hfull, Receiver.totalSize, Receiver.totalSize, hiov]
  unfold Libsmb2.fixedPhase at hmore
  rw [hpdu] at hmore
  simp only at hmore
  split at hmore
  · cases hmore
  · rename_i hret
    have hd := fixedDecoded_length hr.client hb.command hret
    rw [lengthField_lastVector hb hiov] at hd
    have hclient := applyDecoded_isServer s'.ctx q (fixedDecoded (decodingReads h) s' q)
    split at hmore
    · rename_i hzero
      have hnone : lengthField s s' = 0 := by
        rw [← hd.rest, hzero]
        rfl
      obtain ⟨hctx, hrx⟩ := expect_more (padOrComplete_more hmore)
      have hadded : s''.rx.iov = s'.rx.iov ++ [⟨false, (padLength s'.rx).toNat⟩] := by
        rw [hrx]
        rfl
      refine hr.behind [⟨false, (padLength s'.rx).toNat⟩] ?_ ?_ ?_ ?_ hadded ?_ ?_
        hd.payload hd.small ?_ harrived
      · rw [hrx]
        rfl
      · rw [hctx]
        exact hclient
      · rw [hrx]
        rfl
      · rw [hrx]
        rfl
      · rw [hrx]
        simp
      · rw [hctx]
        rfl
      · rw [hadded, hiov, hnone]
        cases q.inIov <;> simp [callerVectors]
    · rename_i hzero
      have hlen : lengthField s s' ≠ 0 := by
        have hrest := hd.rest
        omega
      rw [hd.rest] at hmore
      obtain ⟨hctx, hstate, hhdr, hrec, hnum, hadded⟩ := expectVariable_more hlen hmore
      refine hr.behind (if q.inIov.sum < lengthField s s' then
          [⟨false, lengthField s s' - q.inIov.sum⟩] else []) hhdr ?_ hrec hnum hadded ?_ ?_
        hd.payload hd.small ?_ harrived
      · rw [hctx]
        exact hclient
      · rw [hstate]
        simp
      · rw [hctx]
        rfl
      · rw [hadded, ← hiov, variableVectors, List.append_assoc]
        rfl

/-- The variable part has been decoded: only padding can be left. -/
theorem Running.variablePhase (hb : Begun q s) (hr : Running q s s') {off : Nat}
    {rest : List IoVec} (hpdu : s'.ctx.pdu = some { q with payload := payload })
    (hlen : dataLength payload = some (lengthField s s')) (hsmall : lengthField s s' < 2 ^ 31)
    (hiov : s'.rx.iov = s.rx.iov ++
      (callerVectors q.inIov (lengthField s s')).map (IoVec.mk false) ++ rest)
    (harrived : s.rx.totalSize ≤ s'.rx.received.length)
    (hmore : variablePhase (decodingReads h) K off s' = .more s'') : Running q s s'' := by
  have hd := variableDecoded_eq (h := h) (q := { q with payload := payload }) hr.client hb.command
  unfold Libsmb2.variablePhase at hmore
  rw [hpdu] at hmore
  simp only [hd] at hmore
  rw [if_neg (by decide)] at hmore
  obtain ⟨hctx, hrx⟩ := expect_more (padOrComplete_more hmore)
  have hadded : s''.rx.iov = s'.rx.iov ++ [⟨false, (padLength s'.rx).toNat⟩] := by
    rw [hrx]
    rfl
  refine hr.behind (rest ++ [⟨false, (padLength s'.rx).toNat⟩]) ?_ ?_ ?_ ?_ hadded ?_ ?_
    hlen hsmall ?_ harrived
  · rw [hrx]
    rfl
  · rw [hctx]
    exact applyDecoded_isServer _ _ _
  · rw [hrx]
    rfl
  · rw [hrx]
    rfl
  · rw [hrx]
    simp
  · rw [hctx]
    rfl
  · rw [hadded, hiov, List.append_assoc]

/-- **The step lemma of the body.** -/
theorem Running.step (hb : Begun q s) (hr : Running q s s')
    (hstep : BodyStep (decodingReads h) K s' s'') : Running q s s'' := by
  cases hstep with
  | arrive bs hfits => exact hr.store hb hfits
  | next _ xfrm off hfull hmore =>
    unfold phase at hmore
    cases hr.stage with
    | fixedPart hst hpdu hiov =>
      rw [hst] at hmore
      exact hr.fixedPhase hb hfull hpdu hiov hmore
    | body payload rest hst hpdu hlen hsmall hiov harrived =>
      rcases List.mem_pair.mp hst with hst | hst
      · rw [hst] at hmore
        exact hr.variablePhase hb hpdu hlen hsmall hiov harrived hmore
      · rw [hst] at hmore
        exact absurd hmore (Completes.not_more (complete_completes off s'))

/-- **The run lemma of the body.** -/
theorem Begun.run (hb : Begun q s) (hrun : ReflTransGen (BodyStep (decodingReads h) K) s s') :
    Running q s s' := by
  induction hrun with
  | refl => exact hb.running
  | tail _ hstep ih => exact ih.step hb hstep

/-! ## What has been stored -/

/-- The caller's vectors come right behind the fixed part. -/
theorem stored_behind {len : Nat} {rest : List IoVec}
    (hpdu : s'.ctx.pdu = some { q with payload := payload }) (hlen : dataLength payload = some len)
    (hiov : s'.rx.iov = s.rx.iov ++ (callerVectors q.inIov len).map (IoVec.mk false) ++ rest) :
    stored s.rx.iov.length s' =
      slice s'.rx.received s.rx.totalSize (min q.inIov.sum len) := by
  have hoff : s'.rx.offset s.rx.iov.length = s.rx.totalSize := by
    rw [Receiver.offset, hiov, List.append_assoc, List.take_left]
    rfl
  have hmine : (s'.rx.iov.drop s.rx.iov.length).take (callerVectors q.inIov len).length =
      (callerVectors q.inIov len).map (IoVec.mk false) := by
    rw [hiov, List.append_assoc, List.drop_left]
    exact List.take_left' (List.length_map _)
  unfold stored
  rw [hpdu]
  simp only [callerCount, hlen, Option.getD_some]
  rw [hmine, sum_plain, callerVectors_sum, hoff]

theorem stored_fixedPart (hb : Begun q s) (hpdu : s'.ctx.pdu = some q) :
    stored s.rx.iov.length s' = [] := by
  have hcount : callerCount q = 0 := by
    unfold callerCount
    rw [hb.payload]
    cases q.inIov <;> rfl
  unfold stored
  rw [hpdu]
  simp only [hcount, List.take_zero]
  rfl

/-- No more octets than the caller's buffers hold are stored. -/
theorem Running.stored_le (hb : Begun q s) (hr : Running q s s') :
    (stored s.rx.iov.length s').length ≤ q.inIov.sum := by
  cases hr.stage with
  | fixedPart hst hpdu hiov =>
    rw [stored_fixedPart hb hpdu]
    exact Nat.zero_le _
  | body payload rest hst hpdu hlen hsmall hiov harrived =>
    rw [stored_behind hpdu hlen hiov, length_slice]
    omega

/-! ## What the callback gets -/

/-- A dispatch is that of the current request with the last header. -/
def Answers (s : Smb2) (e : RxEvent) : Prop :=
  ∀ d, e = .dispatched d → s.ctx.pdu = some d.pdu ∧ d.hdr = s.rx.hdr

theorem Completes.answers {f : Flow} {off : Nat} (hc : Completes h K off s f) :
    Logged (Answers s) s.rx.log f.smb2.rx.log := by
  refine hc.logged (fun p hp _ _ _ => ?_) (fun p _ => ?_)
  · rintro d ⟨rfl⟩
    exact ⟨hp, rfl⟩
  · rintro d ⟨⟩

theorem padOrComplete_logged (off : Nat) (s : Smb2) :
    Logged (Answers s) s.rx.log (padOrComplete h K off s).smb2.rx.log := by
  unfold padOrComplete
  simp only
  split
  · exact .refl _
  · split
    · rw [(expect_reads (List.mem_singleton.mpr rfl) _).readsOn.log]
      exact .refl _
    · exact Completes.answers (complete_completes off s)

/-- What is reported when the reply that the machine began in `s` is complete in `s'`. -/
def Reported (L : Nat) (s s' : Smb2) (e : RxEvent) : Prop :=
  ∀ d, e = .dispatched d → d.hdr = s.rx.hdr ∧
    dataLength d.pdu.payload = some (lengthField s s') ∧ lengthField s s' < 2 ^ 31 ∧
      (stored s.rx.iov.length s').length = min L (lengthField s s')

/-- What a decoder reports is no dispatch. -/
theorem Reported.decoded {L : Nat} {e : RxEvent} {old : List RxEvent} (hne : ∀ d, e ≠ .dispatched d) :
    Logged (Reported L s s') old (old ++ [e]) :=
  .push fun d hd => absurd hd (hne d)

theorem Running.fixedPhase_logged (hb : Begun q s) (hr : Running q s s') {off : Nat}
    (hpdu : s'.ctx.pdu = some q) (hiov : s'.rx.iov = s.rx.iov) :
    Logged (Reported q.inIov.sum s s') s'.rx.log
      (Libsmb2.fixedPhase (decodingReads h) K off s').smb2.rx.log := by
  unfold Libsmb2.fixedPhase
  rw [hpdu]
  simp only
  split
  · exact Reported.decoded fun d hd => by cases hd
  · rename_i hret
    have hd := fixedDecoded_length hr.client hb.command hret
    rw [lengthField_lastVector hb hiov] at hd
    split
    · rename_i hzero
      have hnone : lengthField s s' = 0 := by
        rw [← hd.rest, hzero]
        rfl
      refine (Reported.decoded fun d hd => by cases hd).trans ((padOrComplete_logged off _).mono ?_)
      intro e he d hdis
      obtain ⟨hp, hhdr⟩ := he d hdis
      have hpayload : d.pdu.payload = (fixedDecoded (decodingReads h) s' q).payload := by
        rw [← Option.some.inj hp]
      refine ⟨hhdr.trans hr.hdr, ?_, hd.small, ?_⟩
      · rw [hpayload]
        exact hd.payload
      · rw [stored_fixedPart hb hpdu, hnone, Nat.min_zero]
        rfl
    · rw [(expectVariable_reads _ _ _).readsOn.log]
      exact Reported.decoded fun d hd => by cases hd

/-- A reply behind whose fixed part all octets have arrived. -/
theorem Running.reported (hr : Running q s s') (hfull : s'.rx.numDone = s'.rx.totalSize)
    {rest : List IoVec} (hpdu : s'.ctx.pdu = some { q with payload := payload })
    (hlen : dataLength payload = some (lengthField s s')) (hsmall : lengthField s s' < 2 ^ 31)
    (hiov : s'.rx.iov = s.rx.iov ++
      (callerVectors q.inIov (lengthField s s')).map (IoVec.mk false) ++ rest)
    {e : RxEvent} (he : ∀ d, e = .dispatched d → d.pdu.payload = payload ∧ d.hdr = s'.rx.hdr) :
    Reported q.inIov.sum s s' e := by
  intro d hd
  obtain ⟨hp, hhdr⟩ := he d hd
  have htot : s'.rx.totalSize = s.rx.totalSize + min q.inIov.sum (lengthField s s') +
      (rest.map IoVec.len).sum := by
    rw [Receiver.totalSize, hiov, List.map_append, List.map_append, List.sum_append,
      List.sum_append, sum_plain, callerVectors_sum]
    rfl
  refine ⟨hhdr.trans hr.hdr, ?_, hsmall, ?_⟩
  · rw [hp]
    exact hlen
  · rw [stored_behind hpdu hlen hiov, length_slice, hr.length, hfull]
    omega

theorem Running.phase_logged (hb : Begun q s) (hr : Running q s s')
    (hfull : s'.rx.numDone = s'.rx.totalSize) (xfrm : Bool) (off : Nat) :
    Logged (Reported q.inIov.sum s s') s'.rx.log
      (phase (decodingReads h) K xfrm off s').smb2.rx.log := by
  unfold phase
  cases hr.stage with
  | fixedPart hst hpdu hiov =>
    rw [hst]
    exact hr.fixedPhase_logged hb hpdu hiov
  | body payload rest hst hpdu hlen hsmall hiov harrived =>
    rcases List.mem_pair.mp hst with hst | hst
    · have hd := variableDecoded_eq (h := h) (q := { q with payload := payload }) hr.client
        hb.command
      rw [hst]
      simp only
      unfold Libsmb2.variablePhase
      rw [hpdu]
      simp only [hd]
      rw [if_neg (by decide)]
      refine (Reported.decoded fun d hd => by cases hd).trans ((padOrComplete_logged off _).mono ?_)
      intro e he
      apply hr.reported hfull hpdu hlen hsmall hiov
      intro d hdis
      obtain ⟨hp, hhdr⟩ := he d hdis
      refine ⟨?_, hhdr⟩
      rw [← Option.some.inj hp]
    · rw [hst]
      refine (Completes.answers (complete_completes off s')).mono ?_
      intro e he
      apply hr.reported hfull hpdu hlen hsmall hiov
      intro d hdis
      obtain ⟨hp, hhdr⟩ := he d hdis
      refine ⟨?_, hhdr⟩
      rw [hpdu] at hp
      rw [← Option.some.inj hp]

/-- What the callback gets. -/
theorem Running.callsBack (hb : Begun q s) (hr : Running q s s') {d : Dispatch}
    (hcall : CallsBack (decodingReads h) K s' d) : Reported q.inIov.sum s s' (.dispatched d) := by
  obtain ⟨hfull, xfrm, off, es, hlog, hd⟩ := hcall
  obtain ⟨es', hlog', hall⟩ := hr.phase_logged (h := h) (K := K) hb hfull xfrm off
  rw [hlog] at hlog'
  rw [← List.append_cancel_left hlog'] at hall
  exact hall _ hd

end

/-! ## The result -/

/-- Every status is an error to the callback but the two that it takes for none. -/
theorem nterrorToErrno_pos {status : Nat} (hok : status ≠ STATUS_SUCCESS)
    (heof : status ≠ STATUS_END_OF_FILE) : 0 < nterrorToErrno status := by
  have hcases : ∀ c ∈ errnoCases, 0 < c.1 := by decide
  have hno : ¬ (status = 0 ∨ status = 0xC0000011) := not_or.mpr ⟨hok, heof⟩
  unfold nterrorToErrno
  rw [if_neg hno]
  split
  · rename_i c hc
    exact hcases c (List.mem_of_find?_eq_some hc)
  · decide

/-- A reply that is an error moves nothing, and its result is negative. -/
theorem readCb_failed {status : Nat} (hok : status ≠ STATUS_SUCCESS)
    (heof : status ≠ STATUS_END_OF_FILE) (L n : Nat) (payload : Payload) (rd : ReadData) :
    ∃ x, readCb status payload rd = some x ∧ Bounded L n status rd x := by
  have hneg : -nterrorToErrno status < 0 := by
    have hpos := nterrorToErrno_pos hok heof
    omega
  refine ⟨_, if_pos ⟨hok, heof⟩, ?_, ?_, ?_, ?_⟩
  · intro h
    exact absurd h (by dsimp only; omega)
  · intro h
    exact absurd h (by dsimp only; omega)
  · intro h
    exact absurd h heof
  · rw [if_neg hok]

theorem readCb_passes {status len : Nat} (h : status = STATUS_SUCCESS ∨ status = STATUS_END_OF_FILE)
    (hlen : dataLength payload = some len) (hsmall : len < 2 ^ 31)
    (rd : ReadData) : readCb status payload rd = some {
      result := len
      fhOffset := if status = STATUS_SUCCESS then rd.offset + UInt64.ofNat len
        else rd.fhOffset } := by
  have hno : ¬ (status ≠ STATUS_SUCCESS ∧ status ≠ STATUS_END_OF_FILE) := by
    rintro ⟨hok, heof⟩
    exact h.elim hok heof
  have hint : toInt32 (len : Int) = len := toInt32_of_lt hsmall
  unfold readCb
  rw [if_neg hno, hlen, Option.map_some, hint]

/-- The length that a reply announces decides. -/
theorem results_iff {L len : Nat} {d : Dispatch} (hlen : dataLength d.pdu.payload = some len)
    (hsmall : len < 2 ^ 31) : Results L (min L len) d ↔ Within L d.hdr.status len := by
  have hdistinct : STATUS_SUCCESS ≠ STATUS_END_OF_FILE := by decide
  by_cases hpass : d.hdr.status = STATUS_SUCCESS ∨ d.hdr.status = STATUS_END_OF_FILE
  · have hread := readCb_passes hpass hlen hsmall
    constructor
    · intro h
      obtain ⟨x, hx, hbounded⟩ := h ⟨0, 0⟩
      rw [hread] at hx
      cases hx
      refine ⟨fun _ => ?_, fun heof => ?_⟩
      · exact Int.ofNat_le.mp (hbounded.atMost (Int.natCast_nonneg len))
      · exact Int.natCast_eq_zero.mp (hbounded.atEnd heof)
    · rintro ⟨hok, heof⟩ rd
      have hle : len ≤ L := by
        rcases hpass with hs | hs
        · exact hok hs
        · rw [heof hs]
          exact Nat.zero_le _
      refine ⟨_, hread rd, ?_, ?_, ?_, ?_⟩
      · intro _
        exact Int.ofNat_le.mpr hle
      · intro _
        rw [Nat.min_eq_right hle]
      · intro hs
        exact Int.natCast_eq_zero.mpr (heof hs)
      · rw [Int.toNat_natCast]
  · have hok : d.hdr.status ≠ STATUS_SUCCESS := fun h => hpass (.inl h)
    have heof : d.hdr.status ≠ STATUS_END_OF_FILE := fun h => hpass (.inr h)
    refine iff_of_true ?_ ⟨fun h => absurd h hok, fun h => absurd h heof⟩
    intro rd
    exact readCb_failed hok heof L (min L len) d.pdu.payload rd

/-! ## The requests -/

/-- What `smb2_pread_async` queues. -/
theorem preadAsync_spec {S : Settings} {ctx ctx' : Context} {fileId : FileId} {buf : Bool}
    {count : UInt32} {offset : Nat} {cb : Callback} {p : Pdu}
    (h : preadAsync S ctx fileId buf count offset cb = (some p, ctx')) :
    p.header.command = .read ∧ p.payload = .null ∧ p.inIov.sum = p.lengthField := by
  unfold preadAsync at h
  obtain ⟨hfield, -⟩ := Cmd.Transfers.spec (by exact rfl) h
  obtain ⟨q, out, hq, -, rfl⟩ := Cmd.async_spec h
  unfold Context.allocatePdu at hq
  split at hq
  · cases hq
    refine ⟨rfl, rfl, ?_⟩
    rw [hfield]
    simp only [Cmd.inIov]
    split
    · rename_i hzero
      rw [hzero]
      rfl
    · simp
  · cases hq

/-- **The results of a READ**: no more octets than were asked for go through the caller's buffer,
and the callback passes on what it should exactly if the length in the reply is within bounds. -/
theorem read_results_are_bounded_iff {S : Settings} {ctx ctx' : Context} {fileId : FileId}
    {buf : Bool} {count : UInt32} {offset : Nat} {cb : Callback} {p : Pdu}
    (hread : preadAsync S ctx fileId buf count offset cb = (some p, ctx')) {h : Hooks} {K : Crypto}
    {s₀ s s' : Smb2} (hreply : ReplyTo (decodingReads h) K p s₀ s)
    (hrun : ReflTransGen (BodyStep (decodingReads h) K) s s') :
    (stored s.rx.iov.length s').length ≤ p.lengthField ∧
      ∀ d, CallsBack (decodingReads h) K s' d →
        (Results p.lengthField (stored s.rx.iov.length s').length d ↔
          Within p.lengthField s.rx.hdr.status (lengthField s s')) := by
  obtain ⟨hcommand, hnull, hsum⟩ := preadAsync_spec hread
  obtain ⟨q, hsent, hb⟩ := hreply.begun hcommand hnull
  have hr := hb.run hrun
  have hbound : q.inIov.sum = p.lengthField := by rw [hsent.inIov, hsum]
  refine ⟨?_, ?_⟩
  · rw [← hbound]
    exact hr.stored_le hb
  · intro d hcall
    obtain ⟨hhdr, hlen, hsmall, hstored⟩ := hr.callsBack hb hcall d rfl
    rw [hstored, hbound, ← hhdr]
    exact results_iff hlen hsmall

/-! ## Replies to a READ of four octets -/

def readOfFour : Pdu :=
  (preadAsync multiCredit sixtyFour someFile true 4 0 (.app 7)).1.getD {}

def replyHeaderOf (status : Nat) : Header :=
  { protocolId := Header.smb2sign, structSize := HEADER_SIZE, command := .read, status := status,
    flags := FLAGS_SERVER_TO_REDIR, signature := zeros SIGNATURE_SIZE }

/-- A client that waits for the reply, when the header of a reply with this status has arrived
and `n` octets are to come. -/
def headerArrived (status n : Nat) : Smb2 where
  ctx := { dialect := VERSION_0210, waitqueue := [readOfFour] }
  rx := {
    state := .header
    spl := HEADER_SIZE + n
    iov := [⟨false, SPL_SIZE⟩, ⟨true, HEADER_SIZE⟩]
    total := SPL_SIZE + HEADER_SIZE
    numDone := SPL_SIZE + HEADER_SIZE
    received := be32 (HEADER_SIZE + n) ++ (replyHeaderOf status).encode }

/-- The phase that is complete runs. -/
def advance (s : Smb2) : Flow := phase (decodingReads plainHooks) echoCrypto false 0 s

/-- The dispatch that a phase reports. -/
def reportOf (s : Smb2) : Option Dispatch :=
  ((advance s).smb2.rx.log.drop s.rx.log.length).findSome? fun e =>
    match e with
    | .dispatched d => some d
    | _ => none

/-- The phases of a reply follow one another, up to the callback: its header leads to `s`, its
fixed part to `s₁`, and what is behind it is `body`. -/
structure Arrives (s₀ s s₁ : Smb2) (fixed body : Bytes) : Prop where
  header : advance s₀ = .more s
  matched : s.rx.state = .fixed ∧ s.ctx.pdu = some readOfFour
  fixedFits : s.rx.numDone + fixed.length = s.rx.totalSize
  fixedPart : advance (store s fixed) = .more s₁
  bodyFits : s₁.rx.numDone + body.length = s₁.rx.totalSize
  reports : (reportOf (store s₁ body)).isSome = true

instance (s₀ s s₁ : Smb2) (fixed body : Bytes) : Decidable (Arrives s₀ s s₁ fixed body) :=
  decidable_of_iff (_ ∧ (_ ∧ _) ∧ _ ∧ _ ∧ _ ∧ _)
    ⟨fun ⟨h₁, h₂, h₃, h₄, h₅, h₆⟩ => ⟨h₁, h₂, h₃, h₄, h₅, h₆⟩,
      fun h => ⟨h.1, h.2, h.3, h.4, h.5, h.6⟩⟩

section
variable {s₀ s s₁ : Smb2} {fixed body : Bytes}

theorem Arrives.replyTo (h : Arrives s₀ s s₁ fixed body) (hc : s₀.ctx.isServer = false)
    (hst : s₀.rx.state = .header) (hf : Full s₀.rx) :
    ReplyTo (decodingReads plainHooks) echoCrypto readOfFour s₀ s :=
  ⟨hc, hst, hf, ⟨false, 0, h.header⟩, h.matched.1, readOfFour, h.matched.2, rfl, rfl, rfl⟩

theorem Arrives.run (h : Arrives s₀ s s₁ fixed body) :
    ReflTransGen (BodyStep (decodingReads plainHooks) echoCrypto) s (store s₁ body) := by
  have hfixed : BodyStep (decodingReads plainHooks) echoCrypto s (store s fixed) :=
    .arrive s fixed (le_of_eq h.fixedFits)
  have hdecoded : BodyStep (decodingReads plainHooks) echoCrypto (store s fixed) s₁ :=
    .next _ _ false 0 h.fixedFits h.fixedPart
  have hbody : BodyStep (decodingReads plainHooks) echoCrypto s₁ (store s₁ body) :=
    .arrive s₁ body (le_of_eq h.bodyFits)
  exact ((ReflTransGen.single hfixed).tail hdecoded).tail hbody

theorem Arrives.callsBack {q : Pdu} (h : Arrives s₀ s s₁ fixed body) (hb : Begun q s) :
    ∃ d, CallsBack (decodingReads plainHooks) echoCrypto (store s₁ body) d := by
  obtain ⟨d, hd⟩ := Option.isSome_iff_exists.mp h.reports
  obtain ⟨es, hlog, -⟩ := (hb.run h.run).phase_logged (h := plainHooks) (K := echoCrypto) hb
    h.bodyFits false 0
  have hdrop : (advance (store s₁ body)).smb2.rx.log.drop (store s₁ body).rx.log.length = es := by
    unfold advance
    rw [hlog]
    exact List.drop_left
  unfold reportOf at hd
  rw [hdrop] at hd
  obtain ⟨e, he, hed⟩ := List.exists_of_findSome?_eq_some hd
  refine ⟨d, h.bodyFits, false, 0, es, hlog, ?_⟩
  split at hed
  · cases hed
    exact he
  · cases hed

/-- The callback of a reply that is out of bounds passes on what it should not. -/
theorem Arrives.exceeds (h : Arrives s₀ s s₁ fixed body) (hc : s₀.ctx.isServer = false)
    (hst : s₀.rx.state = .header) (hf : Full s₀.rx)
    (hout : ¬ Within readOfFour.inIov.sum s.rx.hdr.status (lengthField s (store s₁ body))) :
    ∃ d, CallsBack (decodingReads plainHooks) echoCrypto (store s₁ body) d ∧
      ¬ Results readOfFour.inIov.sum (stored s.rx.iov.length (store s₁ body)).length d := by
  obtain ⟨q, hsent, hb⟩ := (h.replyTo hc hst hf).begun rfl rfl
  obtain ⟨d, hd⟩ := h.callsBack hb
  obtain ⟨hhdr, hlen, hsmall, hstored⟩ := (hb.run h.run).callsBack hb hd d rfl
  refine ⟨d, hd, fun hresults => hout ?_⟩
  rw [hstored, hsent.inIov] at hresults
  rw [← hhdr]
  exact (results_iff hlen hsmall).mp hresults

end

/-- The fixed part of a READ reply, and that of an error reply. -/
def readFixed (dataLength : Nat) : Bytes :=
  le 2 READ_REPLY_SIZE ++ le 2 (HEADER_SIZE + 16) ++ le 4 dataLength ++ zeros 8

def errorFixed (byteCount : Nat) : Bytes := le 2 ERROR_REPLY_SIZE ++ zeros 2 ++ le 4 byteCount

def headerDecoded (status : Nat) (fixed body : Bytes) : Smb2 :=
  (advance (headerArrived status (fixed ++ body).length)).smb2

def fixedPartDecoded (status : Nat) (fixed body : Bytes) : Smb2 :=
  (advance (store (headerDecoded status fixed body) fixed)).smb2

/-- The client when the whole reply has arrived. -/
def replyArrived (status : Nat) (fixed body : Bytes) : Smb2 :=
  store (fixedPartDecoded status fixed body) body

abbrev ReplyArrives (status : Nat) (fixed body : Bytes) : Prop :=
  Arrives (headerArrived status (fixed ++ body).length) (headerDecoded status fixed body)
    (fixedPartDecoded status fixed body) fixed body

theorem read_results_are_bounded_four : ∃ d,
    CallsBack (decodingReads plainHooks) echoCrypto
      (replyArrived STATUS_SUCCESS (readFixed 4) [1, 2, 3, 4]) d ∧
    Results 4 4 d := by
  have h : ReplyArrives STATUS_SUCCESS (readFixed 4) [1, 2, 3, 4] := by decide +kernel
  have hread : (preadAsync multiCredit sixtyFour someFile true 4 0 (.app 7)).1 =
      some readOfFour := by decide +kernel
  have hreply := h.replyTo rfl rfl ⟨by decide +kernel, by decide +kernel⟩
  obtain ⟨q, hsent, hb⟩ := hreply.begun (by decide +kernel) (by decide +kernel)
  obtain ⟨d, hd⟩ := h.callsBack hb
  have hiff := (read_results_are_bounded_iff (Prod.ext hread rfl) hreply h.run).2 d hd
  have hfour : readOfFour.lengthField = 4 := by decide +kernel
  have hstored : (stored (headerDecoded STATUS_SUCCESS (readFixed 4) [1, 2, 3, 4]).rx.iov.length
      (replyArrived STATUS_SUCCESS (readFixed 4) [1, 2, 3, 4])).length = 4 := by decide +kernel
  have hstored' : (stored (headerDecoded STATUS_SUCCESS (readFixed 4) [1, 2, 3, 4]).rx.iov.length
      (store (fixedPartDecoded STATUS_SUCCESS (readFixed 4) [1, 2, 3, 4]) [1, 2, 3, 4])).length =
      4 := hstored
  rw [hfour, hstored'] at hiff
  refine ⟨d, hd, hiff.mpr ?_⟩
  decide +kernel

/-- The results of a READ are what they should be, for every reply with this status. -/
def ClaimedFor (status : Nat) (p : Pdu) : Prop :=
  ∀ s₀ s s' d, ReplyTo (decodingReads plainHooks) echoCrypto p s₀ s →
    ReflTransGen (BodyStep (decodingReads plainHooks) echoCrypto) s s' →
      CallsBack (decodingReads plainHooks) echoCrypto s' d → s.rx.hdr.status = status →
        Results p.inIov.sum (stored s.rx.iov.length s').length d

/-- **A successful reply with eight octets to a READ of four**, and an end of file with three
octets of error data. -/
theorem long_reply_exceeds :
    (preadAsync multiCredit sixtyFour someFile true 4 0 (.app 7)).1 = some readOfFour ∧
      readOfFour.inIov.sum = 4 ∧ ¬ ClaimedFor STATUS_SUCCESS readOfFour ∧
        ¬ ClaimedFor STATUS_END_OF_FILE readOfFour := by
  refine ⟨by decide +kernel, by decide +kernel, ?_, ?_⟩
  · intro hall
    have h : ReplyArrives STATUS_SUCCESS (readFixed 8) [1, 2, 3, 4, 5, 6, 7, 8] := by
      decide +kernel
    have hf : Full (headerArrived STATUS_SUCCESS 24).rx := ⟨by decide +kernel, by decide +kernel⟩
    obtain ⟨d, hd, hnot⟩ := h.exceeds rfl rfl hf (by decide +kernel)
    exact hnot (hall _ _ _ d (h.replyTo rfl rfl hf) h.run hd (by decide +kernel))
  · intro hall
    have h : ReplyArrives STATUS_END_OF_FILE (errorFixed 3) [1, 2, 3] := by decide +kernel
    have hf : Full (headerArrived STATUS_END_OF_FILE 11).rx :=
      ⟨by decide +kernel, by decide +kernel⟩
    obtain ⟨d, hd, hnot⟩ := h.exceeds rfl rfl hf (by decide +kernel)
    exact hnot (hall _ _ _ d (h.replyTo rfl rfl hf) h.run hd (by decide +kernel))

end Libsmb2.Pread
