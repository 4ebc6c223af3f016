import Libsmb2.Lifecycle.Framing

/-!
# The gather vectors of a write

`smb2_write_to_socket` once more, with the array of vectors that it builds for the first chain
on every turn, and the loop that skips what has been sent.  The transport takes the first octets
of what it is offered.

* `writeVectors_eq` — with the vectors the loop does what it does on the octets of the chain;
* `chain_is_sent_once` — over all calls, the octets of a chain are sent in order and once, and
  the chain leaves the out queue with the last one.
-/

set_option autoImplicit false

namespace Libsmb2

open Util

/-- The vectors that a chain is sent from: the cipher text, or those of all members. -/
def Chain.vectors (c : Chain) : List Bytes :=
  if c.head.sealed then [c.head.crypt] else c.members.flatMap Pdu.out

/-- The array `iov`, with the length prefix in front. -/
def Chain.iov (c : Chain) : List Bytes := be32 c.spl :: c.vectors

/-- The loop over the vectors that have been written, and the adjustment of the first one that
has not; `none` if the loop runs past the last vector. -/
def skipWritten : List Bytes → Nat → Option (List Bytes)
  | [], _ => none
  | v :: vs, numDone =>
    if v.length ≤ numDone then skipWritten vs (numDone - v.length)
    else some (v.drop numDone :: vs)

/-- What a turn of the loop finds. -/
inductive GatherTurn
  | idle
  | overrun
  | offer (c : Chain) (rest : List Chain) (iov : List Bytes)
  deriving DecidableEq, Repr

def gatherTurn (ctx : Context) : GatherTurn :=
  match ctx.outqueue with
  | [] => .idle
  | c :: rest =>
    if getCreditCharge ctx c > ctx.creditsU32 then .idle
    else if !c.head.sealed && MAX_VECTORS < c.niov + 1 then .overrun
    else match skipWritten c.iov c.head.numDone with
      | none => .overrun
      | some iov => .offer c rest iov

/-- The chain with so many of its octets sent. -/
def Chain.sentTo (c : Chain) (numDone : Nat) : Chain :=
  { c with head := { c.head with numDone := numDone } }

/-- The transport took the first `n` octets of the vectors, or all if there are fewer. -/
def acceptedVectors (ctx : Context) (c : Chain) (rest : List Chain) (iov : List Bytes) (n : Nat) :
    Context :=
  let count := min n iov.flatten.length
  let c' := c.sentTo (c.head.numDone + count)
  let ctx := { ctx with wire := ctx.wire ++ iov.flatten.take count }
  if c.head.numDone + count = (SPL_SIZE + c.spl) % 4294967296 then
    sentMembers { ctx with outqueue := rest } c'.members
  else { ctx with outqueue := c' :: rest }

/-- The loop of `smb2_write_to_socket`. -/
def writeVectors : List WriteResult → Context → Context × Int
  | [], ctx =>
    match gatherTurn ctx with
    | .overrun => (ctx.raise .vectorOverrun, 0)
    | _ => (ctx, 0)
  | r :: tx, ctx =>
    match gatherTurn ctx with
    | .idle => (ctx, 0)
    | .overrun => (ctx.raise .vectorOverrun, 0)
    | .offer c rest iov =>
      let ctx := ctx.emit (.offered c ctx.security)
      match r with
      | .eagain => (ctx.setTx tx, 0)
      | .error => (ctx.setTx tx, -1)
      | .accept n => writeVectors tx ((acceptedVectors ctx c rest iov n).setTx tx)

/-! ## Skipping -/

theorem skipWritten_none (iov : List Bytes) (n : Nat) :
    skipWritten iov n = none ↔ iov.flatten.length ≤ n := by
  induction iov generalizing n with
  | nil => simp [skipWritten]
  | cons v vs ih =>
    rw [skipWritten, List.flatten_cons, List.length_append]
    split
    · rw [ih]
      omega
    · simp only [reduceCtorEq, false_iff]
      omega

/-- What is offered is what has not been written. -/
theorem skipWritten_some {iov iov' : List Bytes} {n : Nat} (h : skipWritten iov n = some iov') :
    iov'.flatten = iov.flatten.drop n := by
  induction iov generalizing n with
  | nil => cases h
  | cons v vs ih =>
    rw [skipWritten] at h
    rw [List.flatten_cons, List.drop_append]
    split at h
    · rename_i hle
      rw [ih h, List.drop_of_length_le hle, List.nil_append]
    · rename_i hlt
      cases h
      rw [show n - v.length = 0 by omega]
      rfl

theorem Chain.iov_flatten (c : Chain) : c.iov.flatten = c.frame := by
  unfold Chain.iov Chain.frame Chain.vectors
  rw [List.flatten_cons]
  congr 1
  split
  · simp
  · rw [Chain.octets, List.flatMap_def, List.flatten_flatten, List.map_map]
    rfl

/-! ## The loop -/

/-- A turn with the vectors is a turn with the octets. -/
theorem gatherTurn_eq (ctx : Context) :
    match gatherTurn ctx with
    | .idle => writeTurn ctx = .idle
    | .overrun => writeTurn ctx = .overrun
    | .offer c rest iov => writeTurn ctx = .offer c rest ∧ ctx.outqueue = c :: rest ∧
        iov.flatten = c.frame.drop c.head.numDone ∧ c.head.numDone < c.frame.length := by
  unfold gatherTurn writeTurn
  cases hq : ctx.outqueue with
  | nil => rfl
  | cons c rest =>
    simp only
    by_cases hcredit : getCreditCharge ctx c > ctx.creditsU32
    · rw [if_pos hcredit, if_pos hcredit]
    · rw [if_neg hcredit, if_neg hcredit]
      by_cases hmany : (!c.head.sealed && decide (MAX_VECTORS < c.niov + 1)) = true
      · rw [if_pos hmany, if_pos hmany]
      · rw [if_neg hmany, if_neg hmany]
        cases hskip : skipWritten c.iov c.head.numDone with
        | none =>
          have hle := (skipWritten_none _ _).mp hskip
          rw [Chain.iov_flatten] at hle
          exact if_pos hle
        | some iov =>
          have hflat := skipWritten_some hskip
          rw [Chain.iov_flatten] at hflat
          have hlt : ¬ c.frame.length ≤ c.head.numDone := by
            rw [← Chain.iov_flatten, ← skipWritten_none, hskip]
            simp
          exact ⟨if_neg hlt, rfl, hflat, by omega⟩

variable {ctx : Context} {rest : List Chain}

theorem gatherTurn_offers {c : Chain} {iov : List Bytes}
    (h : gatherTurn ctx = .offer c rest iov) : iov.flatten = c.frame.drop c.head.numDone := by
  have hturn := gatherTurn_eq ctx
  rw [h] at hturn
  exact hturn.2.2.1

theorem acceptedVectors_eq (ctx : Context) {c : Chain} (rest : List Chain) {iov : List Bytes}
    (hiov : iov.flatten = c.frame.drop c.head.numDone) (n : Nat) :
    acceptedVectors ctx c rest iov n = accepted ctx c rest n := by
  unfold acceptedVectors accepted
  simp only [hiov, List.length_drop]
  rfl

/-- **The loop over the gather vectors is the loop over the octets of the chain.** -/
theorem writeVectors_eq (tx : List WriteResult) (ctx : Context) :
    writeVectors tx ctx = writeLoop tx ctx := by
  induction tx generalizing ctx with
  | nil =>
    have h := gatherTurn_eq ctx
    unfold writeVectors writeLoop
    cases ht : gatherTurn ctx with
    | idle =>
      rw [ht] at h
      simp only [h]
    | overrun =>
      rw [ht] at h
      simp only [h]
    | offer c rest iov =>
      rw [ht] at h
      simp only [h.1]
  | cons r tx ih =>
    have h := gatherTurn_eq ctx
    unfold writeVectors writeLoop
    cases ht : gatherTurn ctx with
    | idle =>
      rw [ht] at h
      simp only [h]
    | overrun =>
      rw [ht] at h
      simp only [h]
    | offer c rest iov =>
      rw [ht] at h
      simp only [h.1]
      cases r with
      | eagain => rfl
      | error => rfl
      | accept n =>
        simp only
        rw [ih, acceptedVectors_eq _ rest h.2.2.1]

/-! ## One chain over all calls -/

/-- Nothing of the chain has been sent, its vectors have room behind the length prefix, and the
prefix can hold their length. -/
structure Chain.Fits (c : Chain) : Prop where
  fresh : c.head.numDone = 0
  few : c.head.sealed = true ∨ c.niov ≤ MAX_VECTORS - 1
  short : c.vectors.flatten.length < 4294967292

/-- The octets that the chain is on the wire. -/
def Chain.stream (c : Chain) : Bytes :=
  be32 c.vectors.flatten.length ++ c.vectors.flatten

/-- The chain is the first one of the out queue, and so much of it has been accepted: it was
queued, a turn has not finished it, or the loop returned and anything but this chain changed
before the next turn. -/
inductive Sending (c : Chain) : Context → Bytes → Prop
  | queued {ctx : Context} {rest : List Chain} (h : ctx.outqueue = c :: rest) : Sending c ctx []
  | turn {ctx : Context} {sent : Bytes} {c' : Chain} {rest : List Chain} {iov : List Bytes}
      {n : Nat} (h : Sending c ctx sent) (hoffer : gatherTurn ctx = .offer c' rest iov)
      (hstays : (acceptedVectors ctx c' rest iov n).outqueue ≠ rest) :
      Sending c (acceptedVectors ctx c' rest iov n) (sent ++ iov.flatten.take n)
  | meanwhile {ctx ctx' : Context} {sent : Bytes} {c' : Chain} {rest rest' : List Chain}
      (h : Sending c ctx sent) (hq : ctx.outqueue = c' :: rest)
      (hq' : ctx'.outqueue = c' :: rest') : Sending c ctx' sent

/-- The chain has left the out queue, and its members are at the end of the wait queue, in the
order of the chain; those of a server are freed. -/
def Leaves (c : Chain) (rest : List Chain) (ctx ctx' : Context) : Prop :=
  ctx'.outqueue = rest ∧
    ctx'.waitqueue =
      if ctx.isServer then ctx.waitqueue
      else ctx.waitqueue ++ (c.sentTo c.stream.length).members

/-- The chain is first in the out queue still, with this much of it sent. -/
def Stays (c : Chain) (rest : List Chain) (numDone : Nat) (ctx ctx' : Context) : Prop :=
  ctx'.outqueue = c.sentTo numDone :: rest ∧ ctx'.waitqueue = ctx.waitqueue

/-- There are credits for the chain. -/
def Context.Affords (ctx : Context) (c : Chain) : Prop := getCreditCharge ctx c ≤ ctx.creditsU32

instance (ctx : Context) (c : Chain) : Decidable (ctx.Affords c) :=
  inferInstanceAs (Decidable (_ ≤ _))

/-- What a turn does if there are credits: the loop over the written vectors does not run past the
last one, what is offered is the rest of the chain, and what is accepted of it comes next on the
wire.  The chain leaves exactly if that was the rest. -/
def TurnSends (c : Chain) (rest : List Chain) (ctx : Context) (sent : Bytes) : Prop :=
  if ctx.Affords c then
    ∃ iov, gatherTurn ctx = .offer (c.sentTo sent.length) rest iov ∧
      iov.flatten = c.stream.drop sent.length ∧
      ∀ n, let ctx' := acceptedVectors ctx (c.sentTo sent.length) rest iov n
        let sent' := sent ++ iov.flatten.take n
        ctx'.wire = ctx.wire ++ iov.flatten.take n ∧ sent' <+: c.stream ∧
          if sent' = c.stream then Leaves c rest ctx ctx'
          else Stays c rest sent'.length ctx ctx'
  else gatherTurn ctx = .idle

/-- How much of `left` octets the transport takes until it takes nothing more, or has taken all; and
its answers that are left then. -/
def transportTakes : List WriteResult → Nat → Nat × List WriteResult
  | .accept n :: tx, left =>
    if left ≤ n then (left, tx)
    else (n + (transportTakes tx (left - n)).1, (transportTakes tx (left - n)).2)
  | _, _ => (0, [])

/-- What a call makes of what is left of a chain when the transport takes so much of it: it sends
that and leaves the chain first in the queue, or it has sent all of it and goes on with the chains
behind it. -/
def CallAdvances (c : Chain) (rest : List Chain) (ctx : Context) (sent : Bytes) (count : Nat)
    (call : Context × Int) (tx' : List WriteResult) : Prop :=
  if count = (c.stream.drop sent.length).length then
    ∃ ctx', call = writeVectors tx' ctx' ∧ ctx'.wire = ctx.wire ++ c.stream.drop sent.length ∧
      Leaves c rest ctx ctx'
  else Sending c call.1 (sent ++ (c.stream.drop sent.length).take count) ∧
    call.1.wire = ctx.wire ++ (c.stream.drop sent.length).take count ∧
    Stays c rest (sent.length + count) ctx call.1

/-- What a call does: it sends what the transport takes, or nothing without credits. -/
def CallSends (c : Chain) (rest : List Chain) (ctx : Context) (sent : Bytes)
    (tx : List WriteResult) : Prop :=
  let takes := transportTakes tx (c.stream.drop sent.length).length
  if ctx.Affords c then CallAdvances c rest ctx sent takes.1 (writeVectors tx ctx) takes.2
  else CallAdvances c rest ctx sent 0 (writeVectors tx ctx) []

section
variable {c : Chain}

theorem Chain.Fits.stream_eq (hc : c.Fits) : c.stream = c.frame := by
  have hspl : c.spl = c.vectors.flatten.length := by
    have hflat := congrArg List.length c.iov_flatten
    have hshort := hc.short
    simp only [Chain.iov, List.flatten_cons, List.length_append, length_be32, Chain.frame] at hflat
    unfold Chain.spl
    split
    · rename_i hs
      rw [if_pos hs] at hflat
      omega
    · rename_i hs
      rw [if_neg hs] at hflat
      omega
  rw [← Chain.iov_flatten, Chain.iov, List.flatten_cons, hspl]
  rfl

theorem Chain.Fits.announceable (hc : c.Fits) : c.announceable = true := by
  have hshort := hc.short
  simp only [Chain.announceable, decide_eq_true_eq]
  rw [← hc.stream_eq]
  simp only [Chain.stream, List.length_append, length_be32]
  omega

theorem Chain.sentTo_fresh (hc : c.head.numDone = 0) : c.sentTo 0 = c := by
  unfold Chain.sentTo
  rw [← hc]

/-- What is left of the chain is offered if there are credits, and the array does not overflow. -/
theorem gatherTurn_sentTo (hc : c.Fits) {d : Nat}
    (hq : ctx.outqueue = c.sentTo d :: rest) (hd : d < c.stream.length) :
    if ctx.Affords c then ∃ iov, gatherTurn ctx = .offer (c.sentTo d) rest iov ∧
      iov.flatten = c.stream.drop d
    else gatherTurn ctx = .idle := by
  have hfew : (!(c.sentTo d).head.sealed && decide (MAX_VECTORS < (c.sentTo d).niov + 1)) = false := by
    rcases hc.few with h | h
    · have hs : (c.sentTo d).head.sealed = true := h
      rw [hs]
      rfl
    · have hn : (c.sentTo d).niov = c.niov := rfl
      have hmax : MAX_VECTORS = 256 := rfl
      rw [hn, decide_eq_false (by omega), Bool.and_false]
  have hiov : (c.sentTo d).iov.flatten = c.stream := by
    rw [hc.stream_eq]
    exact (c.sentTo d).iov_flatten
  have hcharge : getCreditCharge ctx (c.sentTo d) = getCreditCharge ctx c := rfl
  unfold gatherTurn
  simp only [hq, hfew, hcharge]
  by_cases hafford : ctx.Affords c
  · rw [if_pos hafford, if_neg (Nat.not_lt.mpr hafford), if_neg (by decide)]
    show ∃ iov, (match skipWritten (c.sentTo d).iov d with
      | none => GatherTurn.overrun
      | some iov => .offer (c.sentTo d) rest iov) = .offer (c.sentTo d) rest iov ∧
        iov.flatten = c.stream.drop d
    cases hskip : skipWritten (c.sentTo d).iov d with
    | none =>
      have hle := (skipWritten_none _ _).mp hskip
      rw [hiov] at hle
      omega
    | some iov => exact ⟨iov, rfl, by rw [skipWritten_some hskip, hiov]⟩
  · rw [if_neg hafford, if_pos (Nat.lt_of_not_le hafford)]

variable {sent : Bytes}

/-- An accepted write of what is left. -/
theorem acceptedVectors_sentTo (hc : c.Fits) (ctx : Context) (rest : List Chain)
    (hsent : sent <+: c.stream) {iov : List Bytes} (hiov : iov.flatten = c.stream.drop sent.length)
    (n : Nat) :
    let ctx' := acceptedVectors ctx (c.sentTo sent.length) rest iov n
    let sent' := sent ++ iov.flatten.take n
    ctx'.wire = ctx.wire ++ iov.flatten.take n ∧ sent' <+: c.stream ∧
      if sent' = c.stream then Leaves c rest ctx ctx' else Stays c rest sent'.length ctx ctx' := by
  intro ctx' sent'
  obtain ⟨left, hleft⟩ := hsent
  have hdrop : iov.flatten = left := by
    rw [hiov, ← hleft, List.drop_left]
  have hlen : c.stream.length = (SPL_SIZE + (c.sentTo sent.length).spl) % 4294967296 := by
    have hlt : c.frame.length < 4294967296 := by simpa [Chain.announceable] using hc.announceable
    have hframe := c.length_frame hc.announceable
    rw [hc.stream_eq]
    exact hframe.trans (Nat.mod_eq_of_lt (by omega)).symm
  have htake : left.take (min n left.length) = left.take n := by
    rw [List.take_eq_take_iff]
    omega
  have hcount : (left.take n).length = min n left.length := List.length_take
  have hsent' : sent' = sent ++ left.take n := by simp only [sent', hdrop]
  have hsplit := congrArg List.length hleft
  rw [List.length_append] at hsplit
  -- the chain is complete exactly if the counter says so
  have hdone : sent.length + min n left.length = c.stream.length ↔ sent' = c.stream := by
    rw [hsent', ← hleft, List.append_cancel_left_eq, List.length_append]
    constructor
    · intro h
      exact List.take_of_length_le (by omega)
    · intro h
      have := congrArg List.length h
      rw [hcount] at this
      omega
  refine ⟨?_, ?_, ?_⟩
  · simp only [ctx', acceptedVectors, hdrop, htake]
    split
    · obtain ⟨credits, ledger, he⟩ := sentMembers_eq
        { ctx with wire := ctx.wire ++ left.take n, outqueue := rest }
        ((c.sentTo sent.length).sentTo ((c.sentTo sent.length).head.numDone +
          min n left.length)).members
      rw [he]
    · rfl
  · rw [hsent', ← hleft]
    exact (List.prefix_append_right_inj sent).mpr (List.take_prefix n left)
  · by_cases hall : sent' = c.stream
    · rw [if_pos hall]
      have hcond : (c.sentTo sent.length).head.numDone + min n left.length =
          (SPL_SIZE + (c.sentTo sent.length).spl) % 4294967296 := by
        rw [← hlen]
        exact hdone.mpr hall
      have hnum : (c.sentTo sent.length).head.numDone + min n left.length = c.stream.length :=
        hdone.mpr hall
      simp only [ctx', acceptedVectors, hdrop, if_pos hcond]
      obtain ⟨credits, ledger, he⟩ := sentMembers_eq
        { ctx with wire := ctx.wire ++ left.take (min n left.length), outqueue := rest }
        ((c.sentTo sent.length).sentTo ((c.sentTo sent.length).head.numDone +
          min n left.length)).members
      rw [he, hnum]
      exact ⟨rfl, rfl⟩
    · rw [if_neg hall]
      have hcond : ¬ (c.sentTo sent.length).head.numDone + min n left.length =
          (SPL_SIZE + (c.sentTo sent.length).spl) % 4294967296 := by
        rw [← hlen]
        exact fun h => hall (hdone.mp h)
      simp only [ctx', acceptedVectors, hdrop, if_neg hcond]
      refine ⟨?_, rfl⟩
      rw [hsent', List.length_append, hcount]
      rfl

/-- As long as the chain stays, the credits do. -/
theorem acceptedVectors_affords {c' : Chain} {iov : List Bytes}
    {n : Nat} (hstays : (acceptedVectors ctx c' rest iov n).outqueue ≠ rest) :
    (acceptedVectors ctx c' rest iov n).Affords c ↔ ctx.Affords c := by
  unfold acceptedVectors at hstays ⊢
  simp only at hstays ⊢
  split at hstays
  · obtain ⟨credits, ledger, he⟩ := sentMembers_eq { ctx with
      wire := ctx.wire ++ iov.flatten.take (min n iov.flatten.length)
      outqueue := rest } (c'.sentTo (c'.head.numDone + min n iov.flatten.length)).members
    rw [he] at hstays
    exact absurd rfl hstays
  · rename_i hpart
    rw [if_neg hpart]
    exact Iff.rfl

/-- What holds of a chain while it is first: so many of its octets have been sent, in order, and
not all of them. -/
theorem Sending.invariant (hc : c.Fits) (h : Sending c ctx sent) :
    sent <+: c.stream ∧ sent.length < c.stream.length ∧
      ∃ rest, ctx.outqueue = c.sentTo sent.length :: rest := by
  induction h with
  | @queued ctx rest hq =>
    refine ⟨List.nil_prefix, ?_, rest, ?_⟩
    · rw [hc.stream_eq]
      exact c.frame_pos
    · rw [hq, List.length_nil, Chain.sentTo_fresh hc.fresh]
  | @turn ctx sent c' rest iov n _ hoffer hstays ih =>
    obtain ⟨hsent, hlt, rest', hq⟩ := ih
    have hturn := gatherTurn_sentTo hc hq hlt
    rw [hoffer] at hturn
    split at hturn
    · obtain ⟨iov', hoffer', hiov⟩ := hturn
      cases hoffer'
      obtain ⟨_, hpre, hif⟩ := acceptedVectors_sentTo hc ctx rest hsent hiov n
      by_cases hall : sent ++ iov.flatten.take n = c.stream
      · rw [if_pos hall] at hif
        exact absurd hif.1 hstays
      · rw [if_neg hall] at hif
        refine ⟨hpre, ?_, rest, hif.1⟩
        have hle := hpre.length_le
        have hne : (sent ++ iov.flatten.take n).length ≠ c.stream.length := fun he =>
          hall (hpre.eq_of_length he)
        omega
    · cases hturn
  | @meanwhile ctx ctx' sent c' rest rest' _ hq hq' ih =>
    obtain ⟨hsent, hlt, rest'', hqs⟩ := ih
    rw [hq] at hqs
    cases hqs
    exact ⟨hsent, hlt, rest', hq'⟩

theorem Sending.turnSends (hc : c.Fits) (h : Sending c ctx sent)
    (hq : ctx.outqueue = c.sentTo sent.length :: rest) :
    TurnSends c rest ctx sent := by
  obtain ⟨hsent, hlt, _⟩ := h.invariant hc
  have hturn := gatherTurn_sentTo hc hq hlt
  unfold TurnSends
  split_ifs at hturn ⊢
  · obtain ⟨iov, hoffer, hiov⟩ := hturn
    exact ⟨iov, hoffer, hiov, acceptedVectors_sentTo hc ctx rest hsent hiov⟩
  · exact hturn

/-- A call in which the transport takes nothing. -/
theorem Sending.advances_zero (hc : c.Fits) (h : Sending c ctx sent)
    (hq : ctx.outqueue = c.sentTo sent.length :: rest) {call : Context × Int}
    (hq' : call.1.outqueue = ctx.outqueue) (hw : call.1.waitqueue = ctx.waitqueue)
    (hwire : call.1.wire = ctx.wire) (tx' : List WriteResult) :
    CallAdvances c rest ctx sent 0 call tx' := by
  have hlt := (h.invariant hc).2.1
  have hsent : Sending c call.1 sent := h.meanwhile hq (hq'.trans hq)
  unfold CallAdvances
  rw [List.length_drop, if_neg (by omega), List.take_zero, List.append_nil, List.append_nil]
  exact ⟨hsent, hwire, hq'.trans hq, hw⟩

/-- A turn of a call that does not finish the chain, and what the rest of the call does. -/
theorem CallAdvances.later {ctx ctx₂ : Context} {n count : Nat}
    {call : Context × Int} {tx' : List WriteResult}
    (hn : n < (c.stream.drop sent.length).length)
    (hwire : ctx₂.wire = ctx.wire ++ (c.stream.drop sent.length).take n)
    (hserver : ctx₂.isServer = ctx.isServer) (hwait : ctx₂.waitqueue = ctx.waitqueue)
    (h : CallAdvances c rest ctx₂ (sent ++ (c.stream.drop sent.length).take n) count call tx') :
    CallAdvances c rest ctx sent (n + count) call tx' := by
  have htake : ((c.stream.drop sent.length).take n).length = n := by
    rw [List.length_take]
    omega
  have hdrop : c.stream.drop (sent ++ (c.stream.drop sent.length).take n).length =
      (c.stream.drop sent.length).drop n := by
    rw [List.length_append, htake, List.drop_drop]
  have hjoin : (c.stream.drop sent.length).take n ++
      ((c.stream.drop sent.length).drop n).take count =
      (c.stream.drop sent.length).take (n + count) := List.take_add.symm
  unfold CallAdvances at h ⊢
  rw [hdrop, List.length_drop] at h
  by_cases hall : n + count = (c.stream.drop sent.length).length
  · rw [if_pos (by omega)] at h
    rw [if_pos hall]
    obtain ⟨ctx', hcall, hw, hout, hin⟩ := h
    refine ⟨ctx', hcall, ?_, hout, ?_⟩
    · rw [hw, hwire, List.append_assoc, List.take_append_drop]
    · rw [hin, hserver, hwait]
  · rw [if_neg (by omega)] at h
    rw [if_neg hall]
    obtain ⟨hsending, hw, hout, hin⟩ := h
    refine ⟨?_, ?_, ?_, hin.trans hwait⟩
    · rwa [List.append_assoc, hjoin] at hsending
    · rw [hw, hwire, List.append_assoc, hjoin]
    · rwa [List.length_append, htake, Nat.add_assoc] at hout

/-- A call for whose chain there are credits. -/
theorem Sending.advances (hc : c.Fits) (tx : List WriteResult)
    (h : Sending c ctx sent)
    (hq : ctx.outqueue = c.sentTo sent.length :: rest) (hafford : ctx.Affords c) :
    CallAdvances c rest ctx sent (transportTakes tx (c.stream.drop sent.length).length).1
      (writeVectors tx ctx) (transportTakes tx (c.stream.drop sent.length).length).2 := by
  induction tx generalizing ctx sent with
  | nil =>
    have hturn := h.turnSends hc hq
    unfold TurnSends at hturn
    rw [if_pos hafford] at hturn
    obtain ⟨iov, hoffer, -⟩ := hturn
    have hcall : writeVectors [] ctx = (ctx, 0) := by
      unfold writeVectors
      rw [hoffer]
    rw [hcall]
    exact h.advances_zero hc hq rfl rfl rfl _
  | cons r tx ih =>
    have hturn := h.turnSends hc hq
    unfold TurnSends at hturn
    rw [if_pos hafford] at hturn
    obtain ⟨iov, hoffer, hiov, -⟩ := hturn
    -- the offer is logged, and nothing else changes before the transport answers
    let ctx₁ := ctx.emit (.offered (c.sentTo sent.length) ctx.security)
    have hoffer₁ : gatherTurn ctx₁ = .offer (c.sentTo sent.length) rest iov := hoffer
    have h₁ : Sending c ctx₁ sent := h.meanwhile hq hq
    obtain ⟨hsent, _, _⟩ := h.invariant hc
    cases r with
    | eagain =>
      have hcall : writeVectors (.eagain :: tx) ctx = (ctx₁.setTx tx, 0) := by
        unfold writeVectors
        rw [hoffer]
      rw [hcall]
      exact h.advances_zero hc hq rfl rfl rfl _
    | error =>
      have hcall : writeVectors (.error :: tx) ctx = (ctx₁.setTx tx, -1) := by
        unfold writeVectors
        rw [hoffer]
      rw [hcall]
      exact h.advances_zero hc hq rfl rfl rfl _
    | accept n =>
      let ctx₂ := acceptedVectors ctx₁ (c.sentTo sent.length) rest iov n
      have hcall : writeVectors (.accept n :: tx) ctx = writeVectors tx (ctx₂.setTx tx) := by
        conv_lhs => unfold writeVectors
        rw [hoffer]
      obtain ⟨hwire, _, hif⟩ := acceptedVectors_sentTo hc ctx₁ rest hsent hiov n
      rw [hiov] at hwire hif
      rw [hcall, transportTakes]
      by_cases hn : (c.stream.drop sent.length).length ≤ n
      · -- the rest of the chain is taken
        have hall : (c.stream.drop sent.length).take n = c.stream.drop sent.length :=
          List.take_of_length_le hn
        obtain ⟨left, hleft⟩ := hsent
        have hwhole : sent ++ c.stream.drop sent.length = c.stream := by
          rw [← hleft, List.drop_left]
        rw [hall, if_pos hwhole] at hif
        rw [hall] at hwire
        rw [if_pos hn]
        unfold CallAdvances
        rw [if_pos rfl]
        exact ⟨ctx₂.setTx tx, rfl, hwire, hif⟩
      · have hpart : sent ++ (c.stream.drop sent.length).take n ≠ c.stream := by
          intro hall
          have hlen := congrArg List.length hall
          rw [List.length_append, List.length_take] at hlen
          rw [List.length_drop] at hlen hn
          omega
        rw [if_neg hpart] at hif
        have hstays : ctx₂.outqueue ≠ rest := by
          rw [hif.1]
          exact List.cons_ne_self _ _
        have htaken : iov.flatten.take n = (c.stream.drop sent.length).take n := by rw [hiov]
        have h₂ : Sending c ctx₂ (sent ++ (c.stream.drop sent.length).take n) := by
          rw [← htaken]
          exact h₁.turn hoffer₁ hstays
        have h₃ : Sending c (ctx₂.setTx tx) (sent ++ (c.stream.drop sent.length).take n) :=
          h₂.meanwhile hif.1 hif.1
        have hafford₂ : (ctx₂.setTx tx).Affords c := (acceptedVectors_affords hstays).mpr hafford
        have hserver : (ctx₂.setTx tx).isServer = ctx.isServer := by
          show (acceptedVectors ctx₁ (c.sentTo sent.length) rest iov n).isServer = _
          rw [acceptedVectors_eq ctx₁ rest (gatherTurn_offers hoffer)]
          exact (accepted_keeps ctx₁ (c.sentTo sent.length) rest n).isServer
        have hlater := ih h₃ hif.1 hafford₂
        have hleft : (c.stream.drop (sent ++ (c.stream.drop sent.length).take n).length).length =
            (c.stream.drop sent.length).length - n := by
          rw [List.length_drop, List.length_append, List.length_take, List.length_drop]
          rw [List.length_drop] at hn
          omega
        rw [hleft] at hlater
        rw [if_neg hn]
        exact hlater.later (Nat.lt_of_not_le hn) hwire hserver hif.2

theorem Sending.callSends (hc : c.Fits) (tx : List WriteResult)
    (h : Sending c ctx sent)
    (hq : ctx.outqueue = c.sentTo sent.length :: rest) : CallSends c rest ctx sent tx := by
  unfold CallSends
  by_cases hafford : ctx.Affords c
  · rw [if_pos hafford]
    exact h.advances hc tx hq hafford
  · have hturn := h.turnSends hc hq
    unfold TurnSends at hturn
    rw [if_neg hafford] at hturn
    have hcall : writeVectors tx ctx = (ctx, 0) := by
      cases tx with
      | nil =>
        unfold writeVectors
        rw [hturn]
      | cons r tx =>
        unfold writeVectors
        rw [hturn]
    rw [if_neg hafford, hcall]
    exact h.advances_zero hc hq rfl rfl rfl _

/-- **Over all calls, what has been accepted of a chain are its first octets, each of them once;
if there are credits what comes next is offered, and of that a call sends what the transport takes.
The chain leaves the out queue with its last octet, its members in order behind the requests that
wait.** -/
theorem chain_is_sent_once (hc : c.Fits) {ctx : Context} {sent : Bytes} (h : Sending c ctx sent) :
    sent <+: c.stream ∧ sent.length < c.stream.length ∧
      ∃ rest, ctx.outqueue = c.sentTo sent.length :: rest ∧ TurnSends c rest ctx sent ∧
        ∀ tx, CallSends c rest ctx sent tx := by
  obtain ⟨hsent, hlt, rest, hq⟩ := h.invariant hc
  exact ⟨hsent, hlt, rest, hq, h.turnSends hc hq, fun tx => h.callSends hc tx hq⟩

end

/-- Two members, one with an empty vector between two others. -/
def smallChain : Chain := ⟨{ out := [[1], [], [2, 3]] }, [{ id := 1, out := [[4]] }]⟩

/-- It alone is to be sent. -/
def smallQueue : Context := { outqueue := [smallChain], credits := 128 }

/-- The transport takes seven octets of eight, in two writes. -/
theorem chain_is_sent_once_small :
    (∃ iov, gatherTurn smallQueue = .offer (smallChain.sentTo 0) [] iov ∧
      iov.flatten = [0, 0, 0, 4, 1, 2, 3, 4]) ∧
    (writeVectors [.accept 3, .accept 4, .eagain] smallQueue).1.wire = [0, 0, 0, 4, 1, 2, 3] ∧
    Stays smallChain [] 7 smallQueue (writeVectors [.accept 3, .accept 4, .eagain] smallQueue).1 := by
  have hc : smallChain.Fits := ⟨rfl, Or.inr (by decide), by decide⟩
  have hs : Sending smallChain smallQueue [] := .queued rfl
  have hafford : smallQueue.Affords smallChain := by decide
  obtain ⟨-, -, rest, hq, hturn, hcall⟩ := chain_is_sent_once hc hs
  obtain rfl : rest = [] := (List.cons.inj hq).2.symm
  have hsends := hcall [.accept 3, .accept 4, .eagain]
  unfold TurnSends at hturn
  unfold CallSends CallAdvances at hsends
  rw [if_pos hafford] at hturn hsends
  rw [if_neg (by decide)] at hsends
  obtain ⟨iov, hoffer, hiov, -⟩ := hturn
  exact ⟨⟨iov, hoffer, hiov⟩, hsends.2.1, hsends.2.2⟩

end Libsmb2
