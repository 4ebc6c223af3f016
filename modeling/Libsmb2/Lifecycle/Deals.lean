import Libsmb2.Lifecycle.Runs

/-!
# What a run does to the counters of a client

`Step` says what happens to the queues; `Deal` says what happens to the message ids, the credits
and the ledger of a client.  Apart from the changes that leave them alone (`Level`), there are
six: a request is allocated, a chain is queued, offered to the transport or taken by it, a
received header grants credits, and the context is closed.

* `runOps_deals` — every run of a client is a sequence of such changes.
-/

set_option autoImplicit false

namespace Libsmb2

open Util Relation

/-- Events that neither number nor send a request. -/
def Event.beside : Event → Bool
  | .enqueued _ => false
  | .offered _ _ => false
  | .closed => false
  | _ => true

/-- What a request costs and asks for, and its deadline. -/
structure Pdu.Stub where
  id : Nat
  command : Command
  creditCharge : Nat
  asks : Nat
  timeout : Nat
  deriving DecidableEq, Repr

def Pdu.stub (p : Pdu) : Pdu.Stub :=
  ⟨p.id, p.header.command, p.header.creditCharge, p.header.creditRequestResponse, p.timeout⟩

def Chain.stubs (c : Chain) : List Pdu.Stub := c.members.map Pdu.stub

/-- The weight of a chain, where `w` weighs its members. -/
def Chain.weigh (w : Pdu.Stub → Nat) (c : Chain) : Nat := (c.stubs.map w).sum

def weighAll (w : Pdu.Stub → Nat) (cs : List Chain) : Nat := (cs.map (Chain.weigh w)).sum

/-- The weight of the requests that have not been sent. -/
def Context.weigh (ctx : Context) (w : Pdu.Stub → Nat) : Nat :=
  weighAll w ctx.held + weighAll w ctx.outqueue

theorem weighAll_append (w : Pdu.Stub → Nat) (cs ds : List Chain) :
    weighAll w (cs ++ ds) = weighAll w cs + weighAll w ds := by
  simp [weighAll]

theorem weighAll_single (w : Pdu.Stub → Nat) (c : Chain) : weighAll w [c] = c.weigh w := by
  simp [weighAll]

theorem weighAll_filter (w : Pdu.Stub → Nat) (cs : List Chain) (k : Chain → Bool) :
    weighAll w (cs.filter k) ≤ weighAll w cs :=
  (List.filter_sublist.map (Chain.weigh w)).sum_le_sum fun _ _ => Nat.zero_le _

/-- A chain and the others it is not dropped with. -/
theorem weighAll_without (w : Pdu.Stub → Nat) {cs : List Chain} {c : Chain} (hc : c ∈ cs)
    {k : Chain → Bool} (hk : k c = false) :
    c.weigh w + weighAll w (cs.filter k) ≤ weighAll w cs := by
  obtain ⟨before, after, rfl⟩ := List.append_of_mem hc
  have h₁ := weighAll_filter w before k
  have h₂ := weighAll_filter w after k
  rw [← List.singleton_append, List.filter_append, List.filter_append]
  simp only [weighAll_append, weighAll_single]
  have hnone : [c].filter k = [] := by simp [hk]
  rw [hnone]
  show _ + (_ + (0 + _)) ≤ _
  omega

/-- A chain that the application holds, and what it holds without it. -/
theorem weighAll_held (w : Pdu.Stub → Nat) {ctx : Context} {id : Nat} {c : Chain}
    (hc : ctx.findHeld id = some c) :
    c.weigh w + weighAll w (ctx.dropHeld id).held ≤ weighAll w ctx.held := by
  apply weighAll_without w (List.mem_of_find?_eq_some hc)
  simpa using List.find?_some hc

/-- A change that leaves the counters alone, and at most drops requests. -/
structure Level (ctx ctx' : Context) : Prop where
  credits : ctx'.credits = ctx.credits
  dialect : ctx'.dialect = ctx.dialect
  messageId : ctx'.messageId = ctx.messageId
  ledger : ctx'.ledger = ctx.ledger
  isServer : ctx'.isServer = ctx.isServer
  fault : ctx'.fault = ctx.fault
  log : Logged (fun e => e.beside = true) ctx.log ctx'.log
  out : ctx'.outqueue ⊆ ctx.outqueue
  wait : ctx'.waitqueue ⊆ ctx.waitqueue
  unsent : ∀ w, ctx'.weigh w ≤ ctx.weigh w

namespace Level

variable {ctx ctx' ctx'' : Context}

theorem of_same (hcr : ctx'.credits = ctx.credits) (hdi : ctx'.dialect = ctx.dialect)
    (hmi : ctx'.messageId = ctx.messageId) (hle : ctx'.ledger = ctx.ledger)
    (hsv : ctx'.isServer = ctx.isServer) (hf : ctx'.fault = ctx.fault)
    (hout : ctx'.outqueue = ctx.outqueue) (hwait : ctx'.waitqueue = ctx.waitqueue)
    (hheld : ctx'.held = ctx.held) (hlog : Logged (fun e => e.beside = true) ctx.log ctx'.log) :
    Level ctx ctx' where
  credits := hcr
  dialect := hdi
  messageId := hmi
  ledger := hle
  isServer := hsv
  fault := hf
  log := hlog
  out := by rw [hout]; exact fun _ h => h
  wait := by rw [hwait]; exact fun _ h => h
  unsent := by
    intro w
    unfold Context.weigh
    rw [hheld, hout]

theorem refl (ctx : Context) : Level ctx ctx :=
  .of_same rfl rfl rfl rfl rfl rfl rfl rfl rfl (.refl _)

theorem trans (h₁ : Level ctx ctx') (h₂ : Level ctx' ctx'') : Level ctx ctx'' where
  credits := h₂.credits.trans h₁.credits
  dialect := h₂.dialect.trans h₁.dialect
  messageId := h₂.messageId.trans h₁.messageId
  ledger := h₂.ledger.trans h₁.ledger
  isServer := h₂.isServer.trans h₁.isServer
  fault := h₂.fault.trans h₁.fault
  log := h₁.log.trans h₂.log
  out := fun _ h => h₁.out (h₂.out h)
  wait := fun _ h => h₁.wait (h₂.wait h)
  unsent := fun w => (h₂.unsent w).trans (h₁.unsent w)

theorem emit (ctx : Context) {e : Event} (he : e.beside = true) : Level ctx (ctx.emit e) :=
  .of_same rfl rfl rfl rfl rfl rfl rfl rfl rfl (.push he)

theorem noteRelease (ctx : Context) (byCaller : Bool) (ps : List Pdu) :
    Level ctx (ctx.noteRelease byCaller ps) :=
  .of_same rfl rfl rfl rfl rfl rfl rfl rfl rfl (.refl _)

/-- Chains leave the out queue and are logged. -/
theorem removed_beside (cs : List Chain) (l : List Event) :
    Logged (fun e => e.beside = true) l (l ++ cs.map .removed) := by
  refine ⟨_, rfl, ?_⟩
  intro e he
  obtain ⟨c, _, rfl⟩ := List.mem_map.mp he
  rfl

theorem freePdu (ctx : Context) (id : Nat) : Level ctx (ctx.freePdu id) where
  credits := rfl
  dialect := rfl
  messageId := rfl
  ledger := rfl
  isServer := rfl
  fault := rfl
  log := removed_beside _ _
  out := List.filter_sublist.subset
  wait := List.filter_sublist.subset
  unsent := fun w => Nat.add_le_add_left (weighAll_filter w _ _) _

theorem unlink (ctx : Context) (q : Queue) (id : Nat) : Level ctx (ctx.unlink q id) := by
  cases q with
  | out =>
    exact ⟨rfl, rfl, rfl, rfl, rfl, rfl, removed_beside _ _, List.filter_sublist.subset,
      fun _ h => h, fun w => Nat.add_le_add_left (weighAll_filter w _ _) _⟩
  | wait =>
    exact ⟨rfl, rfl, rfl, rfl, rfl, rfl, .push rfl, fun _ h => h, List.filter_sublist.subset,
      fun _ => le_rfl⟩

theorem dropHeld (ctx : Context) (id : Nat) : Level ctx (ctx.dropHeld id) where
  credits := rfl
  dialect := rfl
  messageId := rfl
  ledger := rfl
  isServer := rfl
  fault := rfl
  log := .refl _
  out := fun _ h => h
  wait := fun _ h => h
  unsent := fun w => Nat.add_le_add_right (weighAll_filter w _ _) _

end Level

/-- **The changes of the counters of a client.** -/
inductive Deal (K : Crypto) : Context → Context → Prop
  | level {ctx ctx' : Context} (h : Level ctx ctx') : Deal K ctx ctx'
  | crash {ctx ctx' : Context} (h : ctx'.fault ≠ none) : Deal K ctx ctx'
  | alloc (ctx : Context) (p : Pdu) (hid : p.id = ctx.nextId)
      (hask : p.header.creditRequestResponse = ((MAX_CREDITS - ctx.credits) % 65536).toNat) :
      Deal K ctx ({ ctx with
        held := ctx.held ++ [Chain.single p]
        nextId := ctx.nextId + 1 }.post (.asked p ctx.unsent))
  | submit (ctx : Context) (id : Nat) (c : Chain) (hc : ctx.findHeld id = some c)
      (hs : ctx.isServer = false) (hf : ctx.fault = none)
      (hf' : (submitted K ctx id c).fault = none) : Deal K ctx (submitted K ctx id c)
  | offer (ctx : Context) (c : Chain) (rest : List Chain) (h : writeTurn ctx = .offer c rest) :
      Deal K ctx (ctx.emit (.offered c ctx.security))
  | accept (ctx : Context) (c : Chain) (rest : List Chain) (n : Nat)
      (h : writeTurn ctx = .offer c rest) (hs : ctx.isServer = false) (hd : Distinct ctx) :
      Deal K ctx (accepted ctx c rest n)
  | grant (ctx : Context) (hdr : Header) (hs : ctx.isServer = false) :
      Deal K ctx (grantCredits ctx hdr)
  | close (ctx : Context) : Deal K ctx ctx.closeContext

abbrev Deals (K : Crypto) : Context → Context → Prop := ReflTransGen (Deal K)

section
variable {K : Crypto} {ctx ctx' : Context}

theorem grantCredits_fault (ctx : Context) (hdr : Header) :
    (grantCredits ctx hdr).fault = ctx.fault := by
  unfold grantCredits
  split <;> rfl

/-- No change clears a fault. -/
theorem Deal.fault_before (h : Deal K ctx ctx') (hf : ctx'.fault = none) : ctx.fault = none := by
  cases h with
  | level h => exact h.fault.symm.trans hf
  | crash h => exact absurd hf h
  | alloc p hid hask => exact hf
  | submit id c hc hs hf₀ _ => exact hf₀
  | offer c rest h => exact hf
  | accept c rest n h hs hd => exact (accepted_fault ctx c rest n).symm.trans hf
  | grant hdr hs => exact (grantCredits_fault ctx hdr).symm.trans hf
  | close => exact hf

/-- **The rule for runs**: what every change keeps holds after a run without a fault. -/
theorem Deals.invariant {J : Context → Prop}
    (hstep : ∀ c d, Deal K c d → d.fault = none → J c → J d) (hrun : Deals K ctx ctx')
    (hj : J ctx) (hf : ctx'.fault = none) : J ctx' := by
  induction hrun with
  | refl => exact hj
  | tail _ hlast ih => exact hstep _ _ hlast hf (ih (hlast.fault_before hf))

/-! ## Sending a chain on a client -/

/-- The postings of a sent chain: each member is charged in turn. -/
def movedPostings (place : Nat) (charge : Pdu → Nat) : Int → List Pdu → List Posting
  | _, [] => []
  | n, p :: ps => ⟨place, .moved p, n - charge p⟩ :: movedPostings place charge (n - charge p) ps

/-- `smb2_get_real_credit_charge_for_one_pdu` of a request. -/
def Context.charge (ctx : Context) (p : Pdu) : Nat := realCreditCharge ctx p.header

/-- What moving the members of a chain to the wait queue changes. -/
theorem sentMembers_client (ps : List Pdu) (hs : ctx.isServer = false) : sentMembers ctx ps =
    { ctx with
      credits := ctx.credits - (ps.map ctx.charge).sum
      waitqueue := ctx.waitqueue ++ ps
      ledger := ctx.ledger ++ movedPostings ctx.log.length ctx.charge ctx.credits ps } := by
  induction ps generalizing ctx with
  | nil => simp [sentMembers, movedPostings]
  | cons p ps ih =>
    have hsum : ctx.credits - ctx.charge p - (ps.map ctx.charge).sum =
        ctx.credits - ((p :: ps).map ctx.charge).sum := by
      rw [List.map_cons, List.sum_cons, Nat.cast_add]
      omega
    have hwait : ctx.waitqueue ++ [p] ++ ps = ctx.waitqueue ++ p :: ps := by simp
    have hledger : ctx.ledger ++ [⟨ctx.log.length, .moved p, ctx.credits - ctx.charge p⟩] ++
        movedPostings ctx.log.length ctx.charge (ctx.credits - ctx.charge p) ps =
          ctx.ledger ++ movedPostings ctx.log.length ctx.charge ctx.credits (p :: ps) := by
      rw [movedPostings, List.append_assoc, List.singleton_append]
    unfold sentMembers
    rw [if_neg (by rw [hs]; decide), ← hsum, ← hwait, ← hledger]
    exact ih hs

/-- **All that an accepted write changes**: the chain has advanced, or it was sent and its
members wait. -/
theorem accepted_client (hs : ctx.isServer = false) (c : Chain) (rest : List Chain) (n : Nat) :
    ∃ wire, accepted ctx c rest n =
        { ctx with wire := wire, outqueue := c.advance n :: rest } ∨
      accepted ctx c rest n = { ctx with
        wire := wire
        outqueue := rest
        credits := ctx.credits - getCreditCharge ctx c
        waitqueue := ctx.waitqueue ++ (c.advance n).members
        ledger := ctx.ledger ++
          movedPostings ctx.log.length ctx.charge ctx.credits (c.advance n).members } := by
  refine ⟨ctx.wire ++ slice c.frame c.head.numDone
    (min n (c.frame.length - c.head.numDone)), ?_⟩
  unfold accepted
  simp only
  split
  · rw [sentMembers_client _ (by exact hs)]
    exact .inr rfl
  · exact .inl rfl

/-! ## Preparing a chain on a client -/

theorem signMember_eq (ctx : Context) (p : Pdu) : ∃ env es flags sig out,
    (∀ e ∈ es, e.protects = true) ∧
      (signMember K ctx p).1 = { ctx with env := env, log := ctx.log ++ es } ∧
      (signMember K ctx p).2 =
        { p with header := { p.header with flags := flags, signature := sig }, out := out } := by
  unfold signMember
  split
  · exact pduAddSignature_eq K ctx p
  · exact ⟨ctx.env, [], _, _, _, by simp, by rw [List.append_nil], rfl⟩

/-- All that numbering and signing a member changes. -/
theorem queueMember_eq (hs : ctx.isServer = false) (mid : Nat) (p : Pdu) :
    ∃ env es flags sig out, (∀ e ∈ es, e.protects = true) ∧
      (queueMember K ctx mid p).1 = { ctx with
        messageId := (ctx.messageId + max 1 p.header.creditCharge) % 2 ^ 64
        env := env
        log := ctx.log ++ es } ∧
      (queueMember K ctx mid p).2 = { p with
        header := { p.header with messageId := ctx.messageId, flags := flags, signature := sig }
        out := out
        prevCompoundMid := mid } := by
  obtain ⟨env, es, flags, sig, out, hes, h₁, h₂⟩ :=
    signMember_eq (K := K) (encodeMember ctx mid p).1 (encodeMember ctx mid p).2
  have henc : encodeMember ctx mid p =
      ({ ctx with messageId := (ctx.messageId + max 1 p.header.creditCharge) % 2 ^ 64 },
        { p with
          header := { p.header with messageId := ctx.messageId }
          out := { p.header with messageId := ctx.messageId }.encode :: p.out.tail
          prevCompoundMid := mid }) := by
    simp only [encodeMember, encodeHeader, hs, Bool.false_eq_true, if_false]
  rw [henc] at h₁ h₂
  refine ⟨env, es, flags, sig, out, hes, ?_, ?_⟩
  · show (signMember K (encodeMember ctx mid p).1 (encodeMember ctx mid p).2).1 = _
    rw [henc]
    exact h₁
  · show (signMember K (encodeMember ctx mid p).1 (encodeMember ctx mid p).2).2 = _
    rw [henc]
    exact h₂

/-- All that the loop of `smb2_queue_pdu` changes in the context of a client. -/
theorem queueMembers_eq (ps : List Pdu) (hs : ctx.isServer = false) (mid : Nat) :
    ∃ n env es, (∀ e ∈ es, e.protects = true) ∧
      (queueMembers K ctx mid ps).1 =
        { ctx with messageId := n, env := env, log := ctx.log ++ es } ∧
      (queueMembers K ctx mid ps).2.map Pdu.stub = ps.map Pdu.stub := by
  induction ps generalizing ctx mid with
  | nil => exact ⟨ctx.messageId, ctx.env, [], by simp, by simp [queueMembers], rfl⟩
  | cons p ps ih =>
    obtain ⟨env, es, flags, sig, out, hes, h₁, h₂⟩ := queueMember_eq (K := K) hs mid p
    have hs' : (queueMember K ctx mid p).1.isServer = false := by
      rw [h₁]
      exact hs
    obtain ⟨n, env', es', hes', h₁', h₂'⟩ := ih hs' (queueMember K ctx mid p).2.header.messageId
    refine ⟨n, env', es ++ es', ?_, ?_, ?_⟩
    · intro e he
      rcases List.mem_append.mp he with he | he
      · exact hes e he
      · exact hes' e he
    · show (queueMembers K (queueMember K ctx mid p).1
        (queueMember K ctx mid p).2.header.messageId ps).1 = _
      rw [h₁', h₁]
      simp only [List.append_assoc]
    · simp only [queueMembers, List.map_cons, h₂']
      rw [h₂]
      rfl

/-- **All that preparing a chain changes** in the context of a client. -/
theorem preparePdu_eq (hs : ctx.isServer = false) {c : Chain}
    (hf : (preparePdu K ctx c).1.fault = none) :
    ∃ n env es, (∀ e ∈ es, e.protects = true) ∧
      (preparePdu K ctx c).1 = { ctx with messageId := n, env := env, log := ctx.log ++ es } ∧
      (preparePdu K ctx c).2.stubs = c.stubs := by
  obtain ⟨n, env, es, hes, h₁, h₂⟩ := queueMembers_eq (K := K) (c.head :: c.rest) hs 0
  unfold preparePdu at hf ⊢
  simp only [hs, Bool.false_eq_true, if_false] at hf ⊢
  obtain ⟨env', es', sealed, crypt, hes', h₁', h₂'⟩ :=
    encryptPdu_eq K (queueMembers K ctx 0 (c.head :: c.rest)).1 _ hf
  refine ⟨n, env', es ++ es', ?_, ?_, ?_⟩
  · intro e he
    rcases List.mem_append.mp he with he | he
    · exact hes e he
    · exact hes' e he
  · refine h₁'.trans ?_
    generalize (queueMembers K ctx 0 (c.head :: c.rest)).1 = d at h₁
    subst h₁
    simp only [hs, List.append_assoc]
  · refine (congrArg Chain.stubs h₂').trans ?_
    exact h₂

theorem Event.beside_of_protects {e : Event} (h : e.protects = true) : e.beside = true := by
  cases e <;> first | rfl | cases h

/-- What queueing a chain logs. -/
def Event.queues : Event → Bool
  | .queued _ _ => true
  | .enqueued _ => true
  | .used _ _ => true
  | .unprotected _ _ => true
  | _ => false

theorem Event.queues_of_protects {e : Event} (h : e.protects = true) : e.queues = true := by
  cases e <;> first | rfl | cases h

/-- What preparing and queueing a chain leaves alone. -/
theorem submitted_same {id : Nat} {c : Chain} (hs : ctx.isServer = false)
    (hf : (submitted K ctx id c).fault = none) :
    (submitted K ctx id c).isServer = false ∧
      (submitted K ctx id c).dialect = ctx.dialect ∧
      (submitted K ctx id c).credits = ctx.credits ∧
      (submitted K ctx id c).ledger = ctx.ledger ∧
      (submitted K ctx id c).held = (ctx.dropHeld id).held ∧
      (∃ c', c'.stubs = c.stubs ∧ (submitted K ctx id c).outqueue = ctx.outqueue ++ [c']) ∧
      Logged (fun e => e.queues = true) ctx.log (submitted K ctx id c).log := by
  let queued := (ctx.dropHeld id).emit (.queued c ctx.security)
  have hs' : queued.isServer = false := hs
  obtain ⟨n, env, es, hes, heq, hst⟩ := preparePdu_eq (K := K) (c := c) hs' hf
  unfold submitted
  simp only
  rw [show preparePdu K ((ctx.dropHeld id).emit (.queued c ctx.security)) c =
    preparePdu K queued c from rfl, heq]
  refine ⟨hs, rfl, rfl, rfl, rfl, ⟨_, hst, rfl⟩, ?_⟩
  refine ⟨.queued c ctx.security :: (es ++ [.enqueued (preparePdu K queued c).2]), ?_, ?_⟩
  · show ctx.log ++ [_] ++ es ++ _ = _
    simp
  · intro e he
    rcases List.mem_cons.mp he with rfl | he
    · rfl
    · rcases List.mem_append.mp he with he | he
      · exact Event.queues_of_protects (hes e he)
      · rw [List.mem_singleton.mp he]
        rfl

/-! ## Writing and queueing -/

theorem deals_rule (K : Crypto) :
    WriteRule (fun ctx => ctx.isServer = false ∧ Distinct ctx ∧ ctx.fault = none) (Deals K) where
  idle _ := .refl
  overrun _ := .single (.crash (by simp [Context.raise]))
  blocked tx _ e := .head (.offer _ _ _ e)
    (.single (.level (.of_same rfl rfl rfl rfl rfl rfl rfl rfl rfl (.refl _))))
  taken := by
    rintro ctx c rest n tx ⟨hs, hd, hf⟩ e
    obtain ⟨hq, hlt⟩ := writeTurn_offer e
    have hd' : Distinct (ctx.emit (.offered c ctx.security)) := ⟨hd.once, hd.fresh⟩
    have hstep : Step K True (ctx.emit (.offered c ctx.security))
        (accepted (ctx.emit (.offered c ctx.security)) c rest n) := .accept _ c rest n hq hlt
    have hfa : (accepted (ctx.emit (.offered c ctx.security)) c rest n).fault = none :=
      (accepted_fault _ c rest n).trans hf
    have hda := hstep.distinct hd' hfa
    have htx : ∀ d : Context, Level d (d.setTx tx) := fun d =>
      .of_same rfl rfl rfl rfl rfl rfl rfl rfl rfl (.refl _)
    refine ⟨⟨hstep.keeps.isServer.trans hs, ⟨hda.once, hda.fresh⟩, hfa⟩, fun ctx' h => ?_⟩
    exact .head (.offer ctx c rest e) (.head (.accept _ c rest n e hs hd')
      (.head (.level (htx _)) h))

theorem writeToSocket_deals (hs : ctx.isServer = false) (hd : Distinct ctx)
    (hf : ctx.fault = none) : Deals K ctx (writeToSocket ctx).1 :=
  (deals_rule K).writeToSocket_rel ⟨hs, hd, hf⟩

theorem queuePdu_deals {id : Nat} {c : Chain} (hs : ctx.isServer = false) (hd : Distinct ctx)
    (hf : ctx.fault = none) (hc : ctx.findHeld id = some c) :
    Deals K ctx (queuePdu K (ctx.dropHeld id) c) := by
  have hclient : ((ctx.dropHeld id).emit (.queued c (ctx.dropHeld id).security)).isServer =
      false := hs
  unfold queuePdu
  simp only [hclient, Bool.false_and, Bool.false_eq_true, if_false]
  split
  · rename_i hok
    have hok' : (submitted K ctx id c).fault = none := hok
    have hstep : Step K True ctx (submitted K ctx id c) := .submit ctx id c hc hf hok'
    refine .head (.submit ctx id c hc hs hf hok') ?_
    unfold addToOutqueue
    simp only
    split
    · exact writeToSocket_deals (hstep.keeps.isServer.trans hs) (hstep.distinct hd hok') hok'
    · exact .refl
  · rename_i hbad
    exact .single (.crash hbad)

/-! ## Calls of the application -/

theorem addCompoundPdu_stubs (c next : Chain) :
    (addCompoundPdu c next).stubs = c.stubs ++ next.stubs :=
  addCompoundPdu_map c next (fun _ _ _ => rfl) (fun _ _ _ => rfl)

/-- Two chains that the application holds are joined. -/
theorem joined_level {a b : Nat} {c next : Chain} (hc : ctx.findHeld a = some c)
    (hn : (ctx.dropHeld a).findHeld b = some next) : Level ctx (joined ctx a b c next) := by
  refine ⟨rfl, rfl, rfl, rfl, rfl, rfl, .refl _, fun _ h => h, fun _ h => h, ?_⟩
  intro w
  have h₁ := weighAll_held w hc
  have h₂ := weighAll_held w hn
  have hjoin : (addCompoundPdu c next).weigh w = c.weigh w + next.weigh w := by
    unfold Chain.weigh
    rw [addCompoundPdu_stubs, List.map_append, List.sum_append]
  show weighAll w (((ctx.dropHeld a).dropHeld b).held ++ [addCompoundPdu c next]) +
    weighAll w ctx.outqueue ≤ weighAll w ctx.held + weighAll w ctx.outqueue
  rw [weighAll_append, weighAll_single, hjoin]
  omega

theorem perform_deals (a : Action) (hs : ctx.isServer = false) (hd : Distinct ctx)
    (hf : ctx.fault = none) : Deals K ctx (perform K ctx a) := by
  have hpop : Level ctx ctx.popMem := .of_same rfl rfl rfl rfl rfl rfl rfl rfl rfl (.refl _)
  cases a with
  | alloc command body cb creditCharge inIov =>
    simp only [perform, Context.allocatePdu]
    by_cases hm : ctx.allocOk = true
    · simp only [hm, if_true]
      refine .head (.level hpop) (.single ?_)
      apply Deal.alloc ctx.popMem (marshal _ body creditCharge inIov)
      · rfl
      · rfl
    · simp only [hm]
      exact .single (.level hpop)
  | compound pdu nextPdu =>
    simp only [perform]
    split
    · rename_i c next hc hn
      exact .single (.level (joined_level hc hn))
    · exact .single (.crash (by simp [Context.raise]))
  | queue pdu =>
    simp only [perform]
    split
    · rename_i c hc
      exact queuePdu_deals hs hd hf hc
    · exact .single (.crash (by simp [Context.raise]))
  | free pdu =>
    simp only [perform]
    split
    · rename_i c hc
      exact .single (.level ((Level.dropHeld ctx pdu).trans (.noteRelease _ _ _)))
    · split
      · exact .single (.level ((Level.freePdu ctx pdu).trans (.noteRelease _ _ _)))
      · split
        · exact .single (.level (.of_same rfl rfl rfl rfl rfl rfl rfl rfl rfl (.refl _)))
        · exact .single (.crash (by simp [Context.raise]))
  | setSign b => exact .single (.level (.of_same rfl rfl rfl rfl rfl rfl rfl rfl rfl (.refl _)))
  | setSeal b => exact .single (.level (.of_same rfl rfl rfl rfl rfl rfl rfl rfl rfl (.refl _)))
  | setTimeout t => exact .single (.level (.of_same rfl rfl rfl rfl rfl rfl rfl rfl rfl (.refl _)))
  | tick t => exact .single (.level (.of_same rfl rfl rfl rfl rfl rfl rfl rfl rfl (.refl _)))
  | close => exact .single (.close ctx)

theorem notePasses_level (ctx : Context) (a : Action) : Level ctx (ctx.notePasses a) := by
  refine .of_same rfl rfl rfl rfl rfl rfl rfl rfl rfl ⟨ctx.passes a, rfl, ?_⟩
  intro e he
  obtain ⟨_, _, rfl⟩ := Context.of_mem_passes he
  rfl

theorem act_deals (a : Action) (hs : ctx.isServer = false) (hd : Distinct ctx)
    (hf : ctx.fault = none) : Deals K ctx (act K ctx a) := by
  have hnoted : Distinct (ctx.notePasses a) := ⟨hd.once, hd.fresh⟩
  exact .head (.level (notePasses_level ctx a)) (perform_deals a hs hnoted hf)

theorem runActions_deals (as : List Action) (hs : ctx.isServer = false) (hd : Distinct ctx) :
    Deals K ctx (runActions K ctx as) := by
  induction as generalizing ctx with
  | nil => exact .refl
  | cons a as ih =>
    unfold runActions
    split
    · rename_i hf
      have hsteps := act_steps (K := K) (G := True) a (fun _ => trivial) hf
      refine (act_deals a hs hd hf).trans ?_
      by_cases hf' : (act K ctx a).fault = none
      · exact ih (hsteps.keeps.isServer.trans hs) (hsteps.distinct hd hf')
      · rw [runActions_of_fault as hf']
    · exact .refl

/-! ## Callbacks and loops -/

theorem react_deals (hs : ctx.isServer = false) (hd : Distinct ctx) :
    Deals K ctx (react K ctx) := by
  unfold react
  split
  · exact .refl
  · rename_i as rest _
    have hpop : Level ctx (ctx.setReactions rest) :=
      .of_same rfl rfl rfl rfl rfl rfl rfl rfl rfl (.refl _)
    exact .head (.level hpop) (runActions_deals as hs ⟨hd.once, hd.fresh⟩)

theorem invokeApp_deals (p : Pdu) (status : Nat) (hs : ctx.isServer = false)
    (hd : Distinct ctx) : Deals K ctx (invokeApp K p status ctx) :=
  .head (.level (.emit ctx rfl)) (react_deals hs ⟨hd.once, hd.fresh⟩)

theorem invokeCallback_deals (p : Pdu) (status : Nat) (hs : ctx.isServer = false)
    (hd : Distinct ctx) : Deals K ctx (invokeCallback K p status ctx) := by
  have happ := invokeApp_deals (K := K) p status hs hd
  have hsteps := react_steps (K := K) (G := True) (ctx.emit (.completed p.id status))
    (fun _ => trivial)
  refine happ.trans ?_
  unfold invokeCallback
  simp only
  by_cases hf : (invokeApp K p status ctx).fault = none
  · have hpop : Level (invokeApp K p status ctx) (invokeApp K p status ctx).popBreak :=
      .of_same rfl rfl rfl rfl rfl rfl rfl rfl rfl (.refl _)
    have hd' := hsteps.distinct ⟨hd.once, hd.fresh⟩ hf
    refine .head (.level hpop) (runActions_deals _ ?_ ⟨hd'.once, hd'.fresh⟩)
    exact hsteps.keeps.isServer.trans hs
  · refine .single (.crash ?_)
    rw [runActions_of_fault _ (by exact hf)]
    exact hf

theorem unlink_distinct (hd : Distinct ctx) (q : Queue) (id : Nat) :
    Distinct (ctx.unlink q id) := by
  apply hd.of_le
  · rw [unlink_nextId]
  · intro i
    exact unlink_occurs ctx q id i

theorem expire_deals (q : Queue) (p : Pdu) (hs : ctx.isServer = false) (hd : Distinct ctx) :
    Deals K ctx (expire K q p ctx) := by
  have hs' : (ctx.unlink q p.id).isServer = false := (unlink_keeps ctx q p.id).isServer.trans hs
  have happ := invokeApp_deals (K := K) p STATUS_IO_TIMEOUT hs' (unlink_distinct hd q p.id)
  unfold expire
  split
  · exact .single (.crash (by simp [Context.raise]))
  · simp only
    refine .head (.level (.unlink ctx q p.id)) (happ.trans ?_)
    split
    · exact .single (.level ((Level.freePdu _ p.id).trans (.noteRelease _ _ _)))
    · exact .refl

theorem timeoutLoop_deals {q : Queue} {t : Nat} (fuel : Nat) (cur : Option Nat)
    (hs : ctx.isServer = false) (hd : Distinct ctx) :
    Deals K ctx (timeoutLoop K q t fuel cur ctx) := by
  induction fuel generalizing cur ctx with
  | zero =>
    cases cur with
    | none => exact .refl
    | some i => exact .single (.crash (by simp [timeoutLoop, Context.raise]))
  | succ fuel ih =>
    cases cur with
    | none => exact .refl
    | some id =>
      unfold timeoutLoop
      split
      · exact .single (.crash (by simp [Context.raise]))
      · rename_i p tail hdw
        have hp : p ∈ ctx.heads q :=
          (List.dropWhile_sublist _).subset (hdw ▸ List.mem_cons_self ..)
        simp only
        split
        · generalize ctx.lapse q p (tail.head?.map Pdu.id) = l
          have hd' : Distinct (ctx.emit (.lapsed l)) := ⟨hd.once, hd.fresh⟩
          have hp' : p ∈ (ctx.emit (.lapsed l)).heads q := by
            rw [emit_heads]
            exact hp
          have hsteps := expire_steps (K := K) (G := True) (fun _ => trivial) hp'
          have hs' : (ctx.emit (.lapsed l)).isServer = false := hs
          refine .head (.level (.emit ctx rfl)) ((expire_deals q p hs' hd').trans ?_)
          split
          · rename_i hf
            exact ih _ (hsteps.keeps.isServer.trans hs') (hsteps.distinct hd' hf)
          · exact .refl
        · exact ih _ hs hd

theorem timeoutPdus_deals (hs : ctx.isServer = false) (hd : Distinct ctx)
    (hf : ctx.fault = none) : Deals K ctx (timeoutPdus K ctx) := by
  have hsteps := timeoutQueue_steps (K := K) (G := True) (q := .out) (t := ctx.now)
    (fun _ => trivial) hd hf
  have hout : Deals K ctx (timeoutQueue K .out ctx.now ctx) := timeoutLoop_deals _ _ hs hd
  unfold timeoutPdus
  simp only
  refine hout.trans ?_
  split
  · rename_i hf'
    exact timeoutLoop_deals _ _ (hsteps.keeps.isServer.trans hs) (hsteps.distinct hd hf')
  · exact .refl

/-! ## The receive path -/

theorem noteHeader_level (hdr : Header) (hs : ctx.isServer = false) :
    Level ctx (noteHeader ctx hdr) := by
  have hsel : ∀ tid : Nat, Level ctx (ctx.selectTreeId tid) := by
    intro tid
    unfold Context.selectTreeId
    split
    · exact .of_same rfl rfl rfl rfl rfl rfl rfl rfl rfl (.refl _)
    · exact .refl ctx
  unfold noteHeader
  split
  · exact .refl ctx
  · simp only
    split
    · rw [if_neg (by rw [(hsel hdr.treeId).isServer, hs]; decide)]
      exact hsel hdr.treeId
    · rw [if_neg (by rw [hs]; decide)]
      exact .refl ctx

theorem matchReply_level (ctx : Context) (hdr : Header) : Level ctx (matchReply ctx hdr).ctx := by
  have hdrop : Level ctx (dropPdu ctx) := by
    unfold dropPdu
    split
    · rename_i p _
      refine (Level.freePdu ctx p.id).trans ?_
      exact .of_same rfl rfl rfl rfl rfl rfl rfl rfl rfl (.refl _)
    · exact .refl ctx
  have hl := matchReply_lookup ctx hdr
  generalize matchReply ctx hdr = m at hl ⊢
  cases hl with
  | unknown hu hf => exact hdrop
  | outOfOrder p hu hf =>
    exact hdrop.trans (.of_same rfl rfl rfl rfl rfl rfl rfl rfl rfl (.refl _))
  | claimed p hu hf hprev =>
    exact hdrop.trans ⟨rfl, rfl, rfl, rfl, rfl, rfl, .refl _, fun _ h => h,
      List.filter_sublist.subset, fun _ => le_rfl⟩
  | _ => exact .of_same rfl rfl rfl rfl rfl rfl rfl rfl rfl (.refl _)

theorem retirePdu_level (ctx : Context) (p : Pdu) : Level ctx (ctx.retirePdu p) := by
  unfold Context.retirePdu
  split
  · exact .of_same rfl rfl rfl rfl rfl rfl rfl rfl rfl (.refl _)
  · exact (Level.freePdu ctx p.id).trans (.noteRelease _ _ _)

theorem CtxStep.deals {D : Decoders} {I : Prop} (hstep : CtxStep (appHooks K D) I ctx ctx')
    (hs : ctx.isServer = false) (hd : Distinct ctx) : Deals K ctx ctx' := by
  cases hstep with
  | note hdr => exact .single (.level (noteHeader_level hdr hs))
  | grant hdr => exact .single (.grant ctx hdr hs)
  | adopt p hdr hsv hp =>
    rw [hs] at hsv
    cases hsv
  | matched hdr hc hp => exact .single (.level (matchReply_level ctx hdr))
  | decoded p d hp =>
    obtain ⟨_, _, _, _, he⟩ := applyEffects_eq ctx d.effects
    simp only [applyDecoded, he]
    exact .single (.level (.of_same rfl rfl rfl rfl rfl rfl rfl rfl rfl (.refl _)))
  | opened => exact .single (.level (.emit ctx rfl))
  | replied rx p hc hp hcb hst hap =>
    refine (invokeCallback_deals p rx.hdr.status hs hd).trans ?_
    refine .head (.level (retirePdu_level _ p)) (.single (.level ?_))
    exact .of_same rfl rfl rfl rfl rfl rfl rfl rfl rfl (.refl _)
  | served rx p hsv hp hcb =>
    rw [hs] at hsv
    cases hsv
  | interim rx p hpt hf hcb hn => exact invokeCallback_deals p rx.hdr.status hs hd

/-- What a sequence of changes of the receive path comes to, if it meets no fault. -/
theorem CtxSteps.deals {D : Decoders} (hrun : CtxSteps (appHooks K D) True ctx ctx')
    (hs : ctx.isServer = false) (hd : Distinct ctx) : Deals K ctx ctx' := by
  have hboth : (ctx'.fault = none → Distinct ctx') ∧ Deals K ctx ctx' := by
    induction hrun with
    | refl => exact ⟨fun _ => hd, .refl⟩
    | @tail before after hbefore hstep ih =>
      have hk := hstep.grows
      have hs' := (CtxSteps.grows hbefore).isServer.trans hs
      by_cases hf : before.fault = none
      · have hd' := ih.1 hf
        exact ⟨hstep.distinct hs' hd', ih.2.trans (hstep.deals hs' hd')⟩
      · refine ⟨fun hf' => absurd (hk.fault hf') hf, ih.2.tail (.crash ?_)⟩
        exact fun hf' => hf (hk.fault hf')
  exact hboth.2

/-! ## Runs -/

theorem runOp_deals {D : Decoders} {s : Session} (op : Op) (hc : s.ctx.isServer = false)
    (hs : Steady (fun _ => True) s) (hf : s.ctx.fault = none) :
    Deals K s.ctx (runOp K D s op).ctx := by
  cases op with
  | act a => exact act_deals a hc hs.distinct hf
  | write => exact writeToSocket_deals hc hs.distinct hf
  | timeout => exact timeoutPdus_deals hc hs.distinct hf
  | recv rs bs =>
    unfold runOp
    by_cases hb : s.broken = true
    · simp only [hb, if_true]
      exact .refl
    · have hb' : s.broken = false := by simpa using hb
      simp only [hb', Bool.false_eq_true, if_false]
      have hrun := readFromSocket_steps (h := appHooks K D) (K := K) (I := True) rs bs s.smb2 {}
        (Locals.sane_fresh _) (fun _ => hs.idle hb')
      have hdeals := CtxSteps.deals hrun hc hs.distinct
      cases hout : readFromSocket (appHooks K D) K rs bs s.smb2 {} with
      | waiting s' rest =>
        rw [hout] at hdeals
        exact hdeals
      | failed e s' rest =>
        rw [hout] at hdeals
        exact hdeals
      | faulted f s' rest => exact .single (.crash (by simp [Session.absorb, Session.ctx, Context.raise]))

/-- **Every run of a client is a sequence of changes of its counters.** -/
theorem runOps_deals {D : Decoders} (ops : List Op) (s : Session) (hc : s.ctx.isServer = false)
    (hs : Steady (fun _ => True) s) : Deals K s.ctx (runOps K D s ops).ctx := by
  have htriv : Invariant K D True (fun _ => True) (fun _ => True) :=
    ⟨fun _ _ => trivial, fun _ _ _ _ => trivial, fun _ _ _ _ _ _ => trivial⟩
  induction ops generalizing s with
  | nil => exact .refl
  | cons op ops ih =>
    unfold runOps
    split
    · rename_i hf
      refine (runOp_deals (D := D) op hc hs hf).trans ?_
      by_cases hf' : (runOp K D s op).ctx.fault = none
      · obtain ⟨hs', hk⟩ := runOp_steady htriv (fun _ => trivial) (fun _ _ _ => hc) hs hf hf' trivial
        exact ih _ (hk.isServer.trans hc) hs'
      · rw [runOps_of_fault ops hf']
    · exact .refl

end

end Libsmb2
