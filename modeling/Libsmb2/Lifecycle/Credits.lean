import Libsmb2.Lifecycle.Deals
import Libsmb2.Lifecycle.Protection

/-!
# Credits

A client may send a chain only if it has the credits that the members cost.  They are checked
against `smb2->credits` each time before octets of the chain are handed to the transport, and
taken away member by member when the last octet has been accepted; every header that is received
grants new ones.  The ledger records these changes with the balance that each of them leaves.

* `credits_are_gated` — **the balance never becomes negative, no chain is offered that costs more
  than there is, and the balance is the initial one plus all grants minus all charges.**
* `credits_stay_bounded` — the balance also stays within `MAX_CREDITS`, if no request is
  allocated while others can still bring in more credits than it costs.
-/

set_option autoImplicit false

namespace Libsmb2

open Util Relation

/-! ## Sums over the ledger -/

/-- What a received header grants. -/
def Item.grants : Item → Nat
  | .granted _ n => n
  | _ => 0

/-- What a sent request costs. -/
def Item.charges (ctx : Context) : Item → Nat
  | .moved p => ctx.charge p
  | _ => 0

/-- What a sent request asks for. -/
def Item.asks : Item → Nat
  | .moved p => p.header.creditRequestResponse
  | _ => 0

def total (f : Item → Nat) (l : List Posting) : Nat := (l.map fun q => f q.item).sum

theorem total_append (f : Item → Nat) (l m : List Posting) :
    total f (l ++ m) = total f l + total f m := by
  simp [total]

theorem total_single (f : Item → Nat) (q : Posting) : total f [q] = f q.item := by
  simp [total]

/-- The initial credits, plus all that was granted, minus the charges of all requests that were
moved to the wait queue. -/
def Context.balance (ctx : Context) (l : List Posting) : Int :=
  ctx.credits + total Item.grants l - total (Item.charges ctx) l

theorem balance_push (ctx : Context) (l : List Posting) (q : Posting) :
    ctx.balance (l ++ [q]) = ctx.balance l + q.item.grants - q.item.charges ctx := by
  unfold Context.balance
  simp only [total_append, total_single]
  omega

/-- Every entry of the ledger records the balance that it leaves. -/
def Tallied (s₀ : Context) (l : List Posting) : Prop :=
  ∀ pre q post, l = pre ++ q :: post → q.credits = s₀.balance (pre ++ [q])

theorem Tallied.nil (s₀ : Context) : Tallied s₀ [] := by
  intro pre q post h
  simp at h

theorem Tallied.push {s₀ : Context} {l : List Posting} (h : Tallied s₀ l) {q : Posting}
    (hq : q.credits = s₀.balance (l ++ [q])) : Tallied s₀ (l ++ [q]) := by
  intro pre x post hl
  obtain ⟨-, rfl, rfl⟩ | ⟨post', -, hl'⟩ := concat_split hl
  · exact hq
  · exact h pre x post' hl'

/-- The postings of a sent chain keep the tally. -/
theorem Tallied.moved {s₀ : Context} {l : List Posting} (h : Tallied s₀ l) (place : Nat)
    (ps : List Pdu) {n : Int} (hn : n = s₀.balance l) :
    Tallied s₀ (l ++ movedPostings place s₀.charge n ps) ∧
      s₀.balance (l ++ movedPostings place s₀.charge n ps) = n - (ps.map s₀.charge).sum := by
  induction ps generalizing l n with
  | nil =>
    simp only [movedPostings, List.append_nil, List.map_nil, List.sum_nil]
    exact ⟨h, by omega⟩
  | cons p ps ih =>
    have hstep : n - s₀.charge p =
        s₀.balance (l ++ [⟨place, .moved p, n - s₀.charge p⟩]) := by
      rw [balance_push, hn]
      simp only [Item.grants, Item.charges]
      omega
    obtain ⟨ht, hb⟩ := ih (h.push hstep) hstep
    have hcons : l ++ movedPostings place s₀.charge n (p :: ps) =
        l ++ [⟨place, .moved p, n - s₀.charge p⟩] ++
          movedPostings place s₀.charge (n - s₀.charge p) ps := by
      rw [movedPostings, List.append_assoc, List.singleton_append]
    rw [hcons, List.map_cons, List.sum_cons]
    refine ⟨ht, hb.trans ?_⟩
    omega

/-! ## The ledger of a run -/

section
variable {K : Crypto} {s₀ ctx ctx' : Context}

/-- What the ledger of a client says at any time of a run from `s₀`. -/
structure Kept (s₀ ctx : Context) : Prop where
  client : ctx.isServer = false
  dialect : ctx.dialect = s₀.dialect
  tallied : Tallied s₀ ctx.ledger
  credits : ctx.credits = s₀.balance ctx.ledger
  places : ∀ q ∈ ctx.ledger, q.place ≤ ctx.log.length
  asked : ∀ q ∈ ctx.ledger, ∀ p unsent, q.item = .asked p unsent →
    p.header.creditRequestResponse = ((MAX_CREDITS - q.credits) % 65536).toNat

/-- The charges depend only on the dialect. -/
theorem Kept.charge (h : Kept s₀ ctx) : ctx.charge = s₀.charge := by
  funext p
  unfold Context.charge realCreditCharge
  rw [h.dialect]

/-- One posting that leaves the right balance. -/
theorem Kept.post (h : Kept s₀ ctx) (i : Item) {credits : Int}
    (hcr : credits = ctx.credits + i.grants - i.charges s₀) (hcl : ctx'.isServer = false)
    (hdi : ctx'.dialect = ctx.dialect) (hnew : ctx'.credits = credits)
    (hlog : ctx'.log = ctx.log)
    (hle : ctx'.ledger = ctx.ledger ++ [⟨ctx.log.length, i, credits⟩])
    (hask : ∀ p unsent, i = .asked p unsent →
      p.header.creditRequestResponse = ((MAX_CREDITS - credits) % 65536).toNat) :
    Kept s₀ ctx' := by
  have hbal : credits = s₀.balance (ctx.ledger ++ [⟨ctx.log.length, i, credits⟩]) := by
    rw [balance_push, ← h.credits]
    exact hcr
  refine ⟨hcl, hdi.trans h.dialect, ?_, ?_, ?_, ?_⟩
  · rw [hle]
    exact h.tallied.push hbal
  · rw [hle, hnew]
    exact hbal
  · rw [hle, hlog]
    intro q hq
    rcases List.mem_append.mp hq with hq | hq
    · exact h.places q hq
    · rw [List.mem_singleton.mp hq]
  · rw [hle]
    intro q hq p unsent hp
    rcases List.mem_append.mp hq with hq | hq
    · exact h.asked q hq p unsent hp
    · rw [List.mem_singleton.mp hq] at hp ⊢
      exact hask p unsent hp

/-- A change that leaves the ledger alone. -/
theorem Kept.of_same (h : Kept s₀ ctx) (hcl : ctx'.isServer = false)
    (hdi : ctx'.dialect = ctx.dialect) (hcr : ctx'.credits = ctx.credits)
    (hle : ctx'.ledger = ctx.ledger) (hlog : ctx.log <+: ctx'.log) : Kept s₀ ctx' := by
  refine ⟨hcl, hdi.trans h.dialect, ?_, ?_, ?_, ?_⟩
  · rw [hle]
    exact h.tallied
  · rw [hle, hcr]
    exact h.credits
  · rw [hle]
    intro q hq
    exact (h.places q hq).trans hlog.length_le
  · rw [hle]
    exact h.asked

theorem mem_movedPostings {place : Nat} {charge : Pdu → Nat} {n : Int} {ps : List Pdu}
    {q : Posting} (hq : q ∈ movedPostings place charge n ps) :
    q.place = place ∧ (∃ p, q.item = .moved p) ∧ q.credits ≤ n ∧
      n - (ps.map charge).sum ≤ q.credits := by
  induction ps generalizing n with
  | nil => cases hq
  | cons p ps ih =>
    rw [List.map_cons, List.sum_cons]
    rcases List.mem_cons.mp hq with rfl | hq
    · refine ⟨rfl, ⟨p, rfl⟩, ?_, ?_⟩
      · show n - charge p ≤ n
        omega
      · show n - _ ≤ n - charge p
        omega
    · obtain ⟨hp, hm, h₁, h₂⟩ := ih hq
      exact ⟨hp, hm, by omega, by omega⟩

/-- **Every change keeps the ledger.** -/
theorem Deal.kept (hd : Deal K ctx ctx') (hf : ctx'.fault = none) (h : Kept s₀ ctx) :
    Kept s₀ ctx' := by
  cases hd with
  | level hl =>
    exact h.of_same (hl.isServer.trans h.client) hl.dialect hl.credits hl.ledger hl.log.isPrefix
  | crash hc => exact absurd hf hc
  | alloc p hid hask =>
    have hsame : ctx.credits = ctx.credits + (Item.asked p ctx.unsent).grants -
        (Item.asked p ctx.unsent).charges s₀ := by
      simp [Item.grants, Item.charges]
    refine h.post (.asked p ctx.unsent) hsame h.client rfl rfl rfl rfl ?_
    rintro p' unsent ⟨⟩
    exact hask
  | submit id c hc hs hf₀ hf' =>
    obtain ⟨hcl, hdi, hcr, hle, -, -, hlog⟩ := submitted_same (K := K) hs hf
    exact h.of_same hcl hdi hcr hle hlog.isPrefix
  | offer c rest ht => exact h.of_same h.client rfl rfl rfl (List.prefix_append ..)
  | accept c rest n ht hs hdist =>
    obtain ⟨wire, he | he⟩ := accepted_client hs c rest n
    · rw [he]
      exact h.of_same h.client rfl rfl rfl (List.prefix_refl _)
    · rw [he]
      have hcharge := h.charge
      obtain ⟨ht, hb⟩ := h.tallied.moved ctx.log.length (c.advance n).members h.credits
      refine ⟨h.client, h.dialect, ?_, ?_, ?_, ?_⟩
      · show Tallied s₀ (ctx.ledger ++ movedPostings _ ctx.charge _ _)
        rw [hcharge]
        exact ht
      · show ctx.credits - getCreditCharge ctx c =
          s₀.balance (ctx.ledger ++ movedPostings _ ctx.charge _ _)
        rw [hcharge, hb]
        show ctx.credits - ((c.members.map ctx.charge).sum : Nat) = _
        rw [hcharge]
        rfl
      · intro q hq
        rcases List.mem_append.mp hq with hq | hq
        · exact h.places q hq
        · exact (mem_movedPostings hq).1.le
      · intro q hq p unsent hp
        rcases List.mem_append.mp hq with hq | hq
        · exact h.asked q hq p unsent hp
        · obtain ⟨p', hp'⟩ := (mem_movedPostings hq).2.1
          rw [hp'] at hp
          cases hp
  | grant hdr hs =>
    unfold grantCredits
    rw [if_neg (by rw [hs]; decide)]
    have hmore : ctx.credits + hdr.creditRequestResponse = ctx.credits +
        (Item.granted hdr.messageId hdr.creditRequestResponse).grants -
          (Item.granted hdr.messageId hdr.creditRequestResponse).charges s₀ := by
      simp [Item.grants, Item.charges]
    exact h.post _ hmore h.client rfl rfl rfl rfl (fun _ _ h => by cases h)
  | close => exact h.of_same h.client rfl rfl rfl (List.prefix_append ..)

/-! ## Gating -/

/-- The entries that were made before the event with this index. -/
def before (i : Nat) (l : List Posting) : List Posting := l.filter fun q => q.place ≤ i

/-- No chain was offered that cost more than there was. -/
def Offers (s₀ : Context) (log : List Event) (ledger : List Posting) : Prop :=
  ∀ pre c sec post, log = pre ++ .offered c sec :: post →
    getCreditCharge s₀ c ≤ s₀.balance (before pre.length ledger)

theorem Offers.log_grows {log log' : List Event} {ledger : List Posting}
    (h : Offers s₀ log ledger) (hlog : Logged (fun e => ∀ d sec, e ≠ .offered d sec) log log') :
    Offers s₀ log' ledger := by
  obtain ⟨es, rfl, hes⟩ := hlog
  intro pre c sec post heq
  obtain ⟨as, rfl, has⟩ | ⟨bs, rfl, hbs⟩ := List.append_eq_append_iff.mp heq
  · -- the event is one of the new ones
    exact absurd rfl (hes _ (by rw [has]; simp) c sec)
  · cases bs with
    | nil => exact absurd rfl (hes _ (by rw [List.nil_append] at hbs; rw [← hbs]; simp) c sec)
    | cons b bs =>
      obtain ⟨rfl, -⟩ := List.cons.inj hbs
      exact h pre c sec bs rfl

/-- Later entries do not count for earlier events. -/
theorem Offers.ledger_grows {log : List Event} {ledger more : List Posting}
    (h : Offers s₀ log ledger) (hmore : ∀ q ∈ more, q.place = log.length) :
    Offers s₀ log (ledger ++ more) := by
  intro pre c sec post heq
  have hnone : before pre.length more = [] := by
    apply List.filter_eq_nil_iff.mpr
    intro q hq
    have hplace := hmore q hq
    rw [heq, List.length_append, List.length_cons] at hplace
    simp only [decide_eq_true_eq]
    omega
  have hsame : before pre.length (ledger ++ more) = before pre.length ledger := by
    unfold before at hnone ⊢
    rw [List.filter_append, hnone, List.append_nil]
  rw [hsame]
  exact h pre c sec post heq

/-- What holds as long as the counter does not overflow. -/
structure Gated (s₀ ctx : Context) : Prop where
  credits : 0 ≤ ctx.credits
  entries : ∀ q ∈ ctx.ledger, 0 ≤ q.credits
  offers : Offers s₀ ctx.log ctx.ledger

theorem writeTurn_charge {c : Chain} {rest : List Chain} (h : writeTurn ctx = .offer c rest) :
    getCreditCharge ctx c ≤ ctx.creditsU32 := by
  unfold writeTurn at h
  split at h
  · cases h
  · split at h
    · cases h
    · rename_i hle
      split at h
      · cases h
      · split at h
        · cases h
        · cases h
          exact Nat.le_of_not_lt hle

/-- What may be offered can be paid. -/
theorem charge_le_credits {c : Chain} {rest : List Chain} (h : writeTurn ctx = .offer c rest)
    (hpos : 0 ≤ ctx.credits) (hlt : ctx.credits < 2 ^ 31) :
    (getCreditCharge ctx c : Int) ≤ ctx.credits := by
  have hle := writeTurn_charge h
  unfold Context.creditsU32 at hle
  rw [Int.emod_eq_of_lt hpos (by omega)] at hle
  omega

theorem Kept.getCreditCharge (h : Kept s₀ ctx) (c : Chain) :
    getCreditCharge ctx c = Libsmb2.getCreditCharge s₀ c := by
  show (c.members.map ctx.charge).sum = (c.members.map s₀.charge).sum
  rw [h.charge]

theorem Gated.of_same (h : Gated s₀ ctx) (hcr : ctx'.credits = ctx.credits)
    (hle : ctx'.ledger = ctx.ledger)
    (hlog : Logged (fun e => ∀ d sec, e ≠ .offered d sec) ctx.log ctx'.log) : Gated s₀ ctx' := by
  refine ⟨by rw [hcr]; exact h.credits, ?_, ?_⟩
  · rw [hle]
    exact h.entries
  · rw [hle]
    exact h.offers.log_grows hlog

/-- One posting that does not spend. -/
theorem Gated.post (h : Gated s₀ ctx) {i : Item} (hcr : 0 ≤ ctx'.credits)
    (hlog : ctx'.log = ctx.log)
    (hle : ctx'.ledger = ctx.ledger ++ [⟨ctx.log.length, i, ctx'.credits⟩]) : Gated s₀ ctx' := by
  refine ⟨hcr, ?_, ?_⟩
  · rw [hle]
    intro q hq
    rcases List.mem_append.mp hq with hq | hq
    · exact h.entries q hq
    · rw [List.mem_singleton.mp hq]
      exact hcr
  · rw [hle, hlog]
    apply h.offers.ledger_grows
    intro q hq
    rw [List.mem_singleton.mp hq]

/-- **Every change keeps the gate**, as long as the counter is in range. -/
theorem Deal.gated (hd : Deal K ctx ctx') (hf : ctx'.fault = none) (hk : Kept s₀ ctx)
    (hlt : s₀.balance ctx.ledger < 2 ^ 31) (h : Gated s₀ ctx) : Gated s₀ ctx' := by
  rw [← hk.credits] at hlt
  cases hd with
  | level hl =>
    refine h.of_same hl.credits hl.ledger (hl.log.mono ?_)
    rintro e he d sec rfl
    cases he
  | crash hc => exact absurd hf hc
  | alloc p hid hask => exact h.post h.credits rfl rfl
  | submit id c hc hs hf₀ hf' =>
    obtain ⟨-, -, hcr, hle, -, -, hlog⟩ := submitted_same (K := K) hs hf
    refine h.of_same hcr hle (hlog.mono ?_)
    rintro e he d sec rfl
    cases he
  | offer c rest ht =>
    refine ⟨h.credits, h.entries, ?_⟩
    intro pre d sec post heq
    obtain ⟨-, rfl, he⟩ | ⟨post', -, heq'⟩ := concat_split heq
    · have hall : before ctx.log.length ctx.ledger = ctx.ledger := by
        apply List.filter_eq_self.mpr
        intro q hq
        simpa using hk.places q hq
      cases he
      show (getCreditCharge s₀ c : Int) ≤ s₀.balance (before ctx.log.length ctx.ledger)
      rw [hall, ← hk.credits, ← hk.getCreditCharge]
      exact charge_le_credits ht h.credits hlt
    · exact h.offers pre d sec post' heq'
  | accept c rest n ht hs hdist =>
    have hpay := charge_le_credits ht h.credits hlt
    obtain ⟨wire, he | he⟩ := accepted_client hs c rest n
    · rw [he]
      exact h.of_same rfl rfl (.refl _)
    · rw [he]
      refine ⟨?_, ?_, ?_⟩
      · show 0 ≤ ctx.credits - getCreditCharge ctx c
        omega
      · intro q hq
        rcases List.mem_append.mp hq with hq | hq
        · exact h.entries q hq
        · have hlow := (mem_movedPostings hq).2.2.2
          have hsum : ((c.advance n).members.map ctx.charge).sum = getCreditCharge ctx c := rfl
          rw [hsum] at hlow
          omega
      · apply h.offers.ledger_grows
        intro q hq
        exact (mem_movedPostings hq).1
  | grant hdr hs =>
    have hpos := h.credits
    unfold grantCredits
    rw [if_neg (by rw [hs]; decide)]
    have hmore : 0 ≤ ctx.credits + hdr.creditRequestResponse := by omega
    exact h.post hmore rfl rfl
  | close =>
    refine h.of_same rfl rfl (.push ?_)
    rintro d sec h
    cases h

/-- The ledger only grows. -/
theorem Deal.ledger (hd : Deal K ctx ctx') (hf : ctx'.fault = none) :
    ctx.ledger <+: ctx'.ledger := by
  cases hd with
  | level hl => rw [hl.ledger]
  | crash hc => exact absurd hf hc
  | alloc p hid hask => exact List.prefix_append ..
  | submit id c hc hs hf₀ hf' =>
    obtain ⟨-, -, -, hle, -⟩ := submitted_same (K := K) hs hf
    rw [hle]
  | offer c rest ht => exact List.prefix_refl _
  | accept c rest n ht hs hdist =>
    obtain ⟨wire, he | he⟩ := accepted_client hs c rest n
    · rw [he]
    · rw [he]
      exact List.prefix_append ..
  | grant hdr hs =>
    unfold grantCredits
    rw [if_neg (by rw [hs]; decide)]
    exact List.prefix_append ..
  | close => exact List.prefix_refl _

/-- The balance stays below 2 ^ 31 all along this ledger. -/
def InRange (s₀ : Context) (l : List Posting) : Prop := ∀ m, m <+: l → s₀.balance m < 2 ^ 31

theorem Deals.kept (hrun : Deals K ctx ctx') (hf : ctx'.fault = none) (h : Kept s₀ ctx) :
    Kept s₀ ctx' :=
  hrun.invariant (fun _ _ hd hf' => hd.kept hf') h hf

theorem Deals.gated (hrun : Deals K ctx ctx') (hf : ctx'.fault = none) (hk : Kept s₀ ctx)
    (h : Gated s₀ ctx) (hr : InRange s₀ ctx'.ledger) : Gated s₀ ctx' := by
  have hboth : Kept s₀ ctx' ∧ (InRange s₀ ctx'.ledger → Gated s₀ ctx') := by
    refine hrun.invariant (J := fun c => Kept s₀ c ∧ (InRange s₀ c.ledger → Gated s₀ c)) ?_
      ⟨hk, fun _ => h⟩ hf
    rintro c d hd hf' ⟨hk', hg⟩
    refine ⟨hd.kept hf' hk', fun hr' => ?_⟩
    have hpre := hd.ledger hf'
    exact hd.gated hf' hk' (hr' _ hpre) (hg fun m hm => hr' m (hm.trans hpre))
  exact hboth.2 hr

end

/-- A client at the beginning of its ledger. -/
structure Opening (s : Session) : Prop extends Blank s where
  client : s.ctx.isServer = false
  ledger : s.ctx.ledger = []
  credits : 0 ≤ s.ctx.credits

theorem Opening.kept {s : Session} (h : Opening s) : Kept s.ctx s.ctx := by
  refine ⟨h.client, rfl, ?_, ?_, ?_, ?_⟩
  · rw [h.ledger]
    exact .nil _
  · rw [h.ledger]
    simp [Context.balance, total]
  · rw [h.ledger]
    simp
  · rw [h.ledger]
    simp

theorem Opening.gated {s : Session} (h : Opening s) : Gated s.ctx s.ctx := by
  refine ⟨h.credits, ?_, ?_⟩
  · rw [h.ledger]
    simp
  · intro pre c sec post hlog
    rw [h.log] at hlog
    simp at hlog

theorem Opening.deals (K : Crypto) (D : Decoders) {s : Session} (h : Opening s) (ops : List Op) :
    Deals K s.ctx (runOps K D s ops).ctx :=
  runOps_deals ops s h.client (h.toBlank.steady trivial)

/-- **Credits are gated**: in every run of a client in which the balance stays below 2 ^ 31, it
never becomes negative, a chain is handed to the transport only if the balance covers the charges
of all its members, and at all times the balance is the initial one plus all credits that were
granted minus the charges of all requests that were moved to the wait queue. -/
theorem credits_are_gated (K : Crypto) (D : Decoders) (s : Session) (ops : List Op)
    (ho : Opening s) (hf : (runOps K D s ops).ctx.fault = none)
    (hr : InRange s.ctx (runOps K D s ops).ctx.ledger) :
    (0 ≤ (runOps K D s ops).ctx.credits ∧ ∀ q ∈ (runOps K D s ops).ctx.ledger, 0 ≤ q.credits) ∧
      Offers s.ctx (runOps K D s ops).ctx.log (runOps K D s ops).ctx.ledger ∧
      (runOps K D s ops).ctx.credits = s.ctx.balance (runOps K D s ops).ctx.ledger ∧
      Tallied s.ctx (runOps K D s ops).ctx.ledger := by
  have hrun := ho.deals K D ops
  have hk := hrun.kept hf ho.kept
  have hg := hrun.gated hf ho.kept ho.gated hr
  exact ⟨⟨hg.credits, hg.entries⟩, hg.offers, hk.credits, hk.tallied⟩

/-! ## The limit -/

/-- The message id that an entry is about. -/
def Item.mid : Item → Nat
  | .asked _ _ => 0
  | .granted mid _ => mid
  | .moved p => p.header.messageId

/-- An amount, if it is about this message id. -/
def Item.only (mid : Nat) (f : Item → Nat) (i : Item) : Nat := if i.mid = mid then f i else 0

/-- The server grants to each request, in all replies to it, at most what the request asked
for. -/
def Honest (l : List Posting) : Prop :=
  ∀ m, m <+: l → ∀ mid, total (Item.only mid Item.grants) m ≤ total (Item.only mid Item.asks) m

/-- What a request asks for beyond its charge. -/
def Context.surplus (ctx : Context) (p : Pdu) : Nat :=
  p.header.creditRequestResponse - ctx.charge p

/-- What the requests that were sent asked for and were not granted so far. -/
def outstanding (l : List Posting) : Int := total Item.asks l - total Item.grants l

/-- Whenever a request is allocated, the others that are not answered or not even sent can bring
in at most what it costs, or it asks for no more than it costs. -/
def Restrained (s₀ : Context) (l : List Posting) : Prop :=
  ∀ pre place p unsent credits post, l = pre ++ ⟨place, .asked p unsent, credits⟩ :: post →
    outstanding pre + (unsent.map s₀.surplus).sum ≤ s₀.charge p ∨
      (MAX_CREDITS : Int) ≤ s₀.balance pre + s₀.charge p

/-- A total is the sum over the message ids. -/
theorem total_eq_sum (f : Item → Nat) (l : List Posting) {n : Nat}
    (hn : ∀ q ∈ l, q.item.mid < n) :
    total f l = ∑ mid ∈ Finset.range n, total (Item.only mid f) l := by
  induction l with
  | nil => simp [total]
  | cons q l ih =>
    have hcons : ∀ g : Item → Nat, total g (q :: l) = g q.item + total g l := by
      intro g
      simp [total]
    have hq : ∑ mid ∈ Finset.range n, Item.only mid f q.item = f q.item := by
      unfold Item.only
      rw [Finset.sum_ite_eq, if_pos]
      exact Finset.mem_range.mpr (hn q (List.mem_cons_self ..))
    simp only [hcons, Finset.sum_add_distrib, hq]
    rw [ih fun q' hq' => hn q' (List.mem_cons_of_mem _ hq')]

theorem exists_mid_bound (l : List Posting) : ∃ n, ∀ q ∈ l, q.item.mid < n := by
  induction l with
  | nil => exact ⟨0, by simp⟩
  | cons q l ih =>
    obtain ⟨n, hn⟩ := ih
    refine ⟨n + q.item.mid + 1, ?_⟩
    intro x hx
    rcases List.mem_cons.mp hx with rfl | hx
    · omega
    · have := hn x hx
      omega

/-- An honest server never grants more than was asked for. -/
theorem Honest.outstanding_nonneg {l m : List Posting} (h : Honest l) (hm : m <+: l) :
    0 ≤ outstanding m := by
  obtain ⟨n, hn⟩ := exists_mid_bound m
  have hsum : total Item.grants m ≤ total Item.asks m := by
    rw [total_eq_sum Item.grants m hn, total_eq_sum Item.asks m hn]
    exact Finset.sum_le_sum fun mid _ => h m hm mid
  unfold outstanding
  omega

theorem Honest.earlier {l m : List Posting} (h : Honest l) (hm : m <+: l) : Honest m :=
  fun k hk => h k (hk.trans hm)

theorem Restrained.earlier {s₀ : Context} {l m : List Posting} (h : Restrained s₀ l)
    (hm : m <+: l) : Restrained s₀ m := by
  obtain ⟨more, rfl⟩ := hm
  rintro pre place p unsent credits post rfl
  exact h pre place p unsent credits (post ++ more) (by simp)

section
variable {K : Crypto} {s₀ ctx ctx' : Context}

/-- The weight of a request that has not been sent. -/
def Context.surplusOf (ctx : Context) (x : Pdu.Stub) : Nat :=
  x.asks - (if x.command = .negotiate then x.creditCharge
    else if ctx.dialect ≤ VERSION_0202 then x.creditCharge + 1
    else x.creditCharge)

theorem weigh_surplus (s₀ : Context) (c : Chain) :
    c.weigh s₀.surplusOf = (c.members.map s₀.surplus).sum := by
  unfold Chain.weigh Chain.stubs
  rw [List.map_map]
  rfl

/-- The requests that have not been sent, weighed. -/
theorem weigh_unsent (s₀ ctx : Context) :
    ctx.weigh s₀.surplusOf = (ctx.unsent.map s₀.surplus).sum := by
  have hall : ∀ cs : List Chain,
      weighAll s₀.surplusOf cs = ((cs.flatMap Chain.members).map s₀.surplus).sum := by
    intro cs
    induction cs with
    | nil => rfl
    | cons c cs ih =>
      rw [← List.singleton_append, weighAll_append, weighAll_single, weigh_surplus, ih]
      simp
  unfold Context.weigh Context.unsent
  rw [hall, hall, List.flatMap_append, List.map_append, List.sum_append]

/-- The credits there can be once all requests have been sent and answered. -/
def Context.potential (s₀ ctx : Context) : Int :=
  ctx.credits + outstanding ctx.ledger + ctx.weigh s₀.surplusOf

/-- What holds of an honest server and a restrained client. -/
structure Limited (s₀ ctx : Context) : Prop extends Gated s₀ ctx where
  potential : s₀.potential ctx ≤ MAX_CREDITS
  limit : ∀ q ∈ ctx.ledger, q.credits ≤ MAX_CREDITS

/-- The potential bounds the credits. -/
theorem Limited.credits_le (h : Limited s₀ ctx) (hh : Honest ctx.ledger) :
    ctx.credits ≤ MAX_CREDITS := by
  have hpot := h.potential
  have hout := hh.outstanding_nonneg (List.prefix_refl _)
  unfold Context.potential at hpot
  omega

theorem outstanding_push (l : List Posting) (q : Posting) :
    outstanding (l ++ [q]) = outstanding l + q.item.asks - q.item.grants := by
  unfold outstanding
  simp only [total_append, total_single]
  omega

theorem outstanding_moved (l : List Posting) (place : Nat) (charge : Pdu → Nat) (n : Int)
    (ps : List Pdu) : outstanding (l ++ movedPostings place charge n ps) =
      outstanding l + (ps.map fun p => p.header.creditRequestResponse).sum := by
  induction ps generalizing l n with
  | nil => simp [movedPostings]
  | cons p ps ih =>
    rw [movedPostings, ← List.singleton_append, ← List.append_assoc, ih, outstanding_push,
      List.map_cons, List.sum_cons]
    show outstanding l + (p.header.creditRequestResponse : Nat) - ((0 : Nat) : Int) + _ = _
    omega

/-- What the members of a chain ask for is covered by their charges and their surplus. -/
theorem asks_le (s₀ : Context) (ps : List Pdu) :
    (ps.map fun p => p.header.creditRequestResponse).sum ≤
      (ps.map s₀.charge).sum + (ps.map s₀.surplus).sum := by
  induction ps with
  | nil => simp
  | cons p ps ih =>
    simp only [List.map_cons, List.sum_cons]
    have hp : p.header.creditRequestResponse ≤ s₀.charge p + s₀.surplus p := by
      unfold Context.surplus
      omega
    omega

/-- A change that leaves the ledger alone and drops requests at most. -/
theorem Limited.of_same (h : Limited s₀ ctx) (hg : Gated s₀ ctx')
    (hcr : ctx'.credits = ctx.credits) (hle : ctx'.ledger = ctx.ledger)
    (hw : ctx'.weigh s₀.surplusOf ≤ ctx.weigh s₀.surplusOf) : Limited s₀ ctx' := by
  have hpot := h.potential
  refine ⟨hg, ?_, ?_⟩
  · unfold Context.potential at hpot ⊢
    rw [hcr, hle]
    omega
  · rw [hle]
    exact h.limit

/-- A request is allocated. -/
theorem Limited.alloc (h : Limited s₀ ctx) (hk : Kept s₀ ctx) (hh : Honest ctx.ledger)
    {p : Pdu}
    (hask : p.header.creditRequestResponse = ((MAX_CREDITS - ctx.credits) % 65536).toNat)
    (hr : outstanding ctx.ledger + (ctx.unsent.map s₀.surplus).sum ≤ s₀.charge p ∨
      (MAX_CREDITS : Int) ≤ s₀.balance ctx.ledger + s₀.charge p)
    (hg : Gated s₀ ctx') (hcr : ctx'.credits = ctx.credits)
    (hle : ctx'.ledger = ctx.ledger ++ [⟨ctx.log.length, .asked p ctx.unsent, ctx.credits⟩])
    (hw : ctx'.weigh s₀.surplusOf = ctx.weigh s₀.surplusOf + s₀.surplus p) :
    Limited s₀ ctx' := by
  have hpot := h.potential
  have hmax := h.credits_le hh
  have hpos := h.credits
  -- within the limit the difference does not wrap
  have hask' : (p.header.creditRequestResponse : Int) = MAX_CREDITS - ctx.credits := by
    rw [hask]
    unfold MAX_CREDITS at hmax ⊢
    omega
  have hout : outstanding ctx'.ledger = outstanding ctx.ledger := by
    rw [hle, outstanding_push]
    show outstanding ctx.ledger + ((0 : Nat) : Int) - ((0 : Nat) : Int) = _
    omega
  refine ⟨hg, ?_, ?_⟩
  · rw [← weigh_unsent, ← hk.credits] at hr
    unfold Context.potential at hpot ⊢
    rw [hcr, hout, hw]
    unfold Context.surplus
    omega
  · rw [hle]
    intro q hq
    rcases List.mem_append.mp hq with hq | hq
    · exact h.limit q hq
    · rw [List.mem_singleton.mp hq]
      exact hmax

/-- A chain was sent. -/
theorem Limited.sent (h : Limited s₀ ctx) (hk : Kept s₀ ctx) (hh : Honest ctx.ledger) {c : Chain}
    {rest : List Chain} (hq : ctx.outqueue = c :: rest) (n : Nat) {wire : Bytes}
    (hg : Gated s₀ { ctx with
      wire := wire
      outqueue := rest
      credits := ctx.credits - getCreditCharge ctx c
      waitqueue := ctx.waitqueue ++ (c.advance n).members
      ledger := ctx.ledger ++
        movedPostings ctx.log.length ctx.charge ctx.credits (c.advance n).members }) :
    Limited s₀ { ctx with
      wire := wire
      outqueue := rest
      credits := ctx.credits - getCreditCharge ctx c
      waitqueue := ctx.waitqueue ++ (c.advance n).members
      ledger := ctx.ledger ++
        movedPostings ctx.log.length ctx.charge ctx.credits (c.advance n).members } := by
  have hpot := h.potential
  have hmax := h.credits_le hh
  have hasks := asks_le s₀ c.members
  have hcharge : getCreditCharge ctx c = (c.members.map s₀.charge).sum := by
    rw [hk.getCreditCharge]
    rfl
  have hweigh : ctx.weigh s₀.surplusOf =
      weighAll s₀.surplusOf ctx.held + ((c.members.map s₀.surplus).sum +
        weighAll s₀.surplusOf rest) := by
    unfold Context.weigh
    rw [hq, ← List.singleton_append, weighAll_append, weighAll_single, weigh_surplus]
  refine ⟨hg, ?_, ?_⟩
  · unfold Context.potential at hpot ⊢
    rw [outstanding_moved]
    show ctx.credits - (getCreditCharge ctx c : Nat) + (outstanding ctx.ledger +
        ((c.members.map fun p => p.header.creditRequestResponse).sum : Nat)) +
      ((weighAll s₀.surplusOf ctx.held + weighAll s₀.surplusOf rest : Nat) : Int) ≤ _
    rw [hcharge]
    omega
  · intro q hq
    rcases List.mem_append.mp hq with hq | hq
    · exact h.limit q hq
    · have hle := (mem_movedPostings hq).2.2.1
      omega

/-- Credits are granted. -/
theorem Limited.grant (h : Limited s₀ ctx) {mid n : Nat} (hg : Gated s₀ ctx')
    (hcr : ctx'.credits = ctx.credits + n)
    (hle : ctx'.ledger = ctx.ledger ++ [⟨ctx.log.length, .granted mid n, ctx'.credits⟩])
    (hw : ctx'.weigh s₀.surplusOf = ctx.weigh s₀.surplusOf) (hh : Honest ctx'.ledger) :
    Limited s₀ ctx' := by
  have hpot := h.potential
  have hnonneg := hh.outstanding_nonneg (List.prefix_refl _)
  have hout : outstanding ctx'.ledger = outstanding ctx.ledger - n := by
    rw [hle, outstanding_push]
    show outstanding ctx.ledger + ((0 : Nat) : Int) - (n : Int) = _
    omega
  have hpot' : s₀.potential ctx' ≤ MAX_CREDITS := by
    unfold Context.potential at hpot ⊢
    rw [hcr, hout, hw]
    omega
  refine ⟨hg, hpot', ?_⟩
  rw [hle]
  intro q hq
  rcases List.mem_append.mp hq with hq | hq
  · exact h.limit q hq
  · rw [List.mem_singleton.mp hq]
    unfold Context.potential at hpot'
    show ctx'.credits ≤ MAX_CREDITS
    omega

/-- **Every change keeps the limit**, if the server is honest and the client restrained. -/
theorem Deal.limited (hd : Deal K ctx ctx') (hf : ctx'.fault = none) (hk : Kept s₀ ctx)
    (hh : Honest ctx'.ledger) (hr : Restrained s₀ ctx'.ledger) (h : Limited s₀ ctx) :
    Limited s₀ ctx' := by
  have hh₀ := hh.earlier (hd.ledger hf)
  have hmax := h.credits_le hh₀
  have hlt : s₀.balance ctx.ledger < 2 ^ 31 := by
    rw [← hk.credits]
    unfold MAX_CREDITS at hmax
    omega
  have hg := hd.gated hf hk hlt h.toGated
  cases hd with
  | level hl => exact h.of_same hg hl.credits hl.ledger (hl.unsent _)
  | crash hc => exact absurd hf hc
  | alloc p hid hask =>
    have hnew := hr ctx.ledger ctx.log.length p ctx.unsent ctx.credits [] rfl
    refine h.alloc hk hh₀ hask hnew hg rfl rfl ?_
    show weighAll _ (ctx.held ++ [Chain.single p]) + weighAll _ ctx.outqueue =
      weighAll _ ctx.held + weighAll _ ctx.outqueue + s₀.surplus p
    rw [weighAll_append, weighAll_single, weigh_surplus]
    show _ + (s₀.surplus p + 0) + _ = _
    omega
  | submit id c hc hs hf₀ hf' =>
    obtain ⟨-, -, hcr, hle, hheld, ⟨c', hst, hout⟩, -⟩ := submitted_same (K := K) hs hf
    refine h.of_same hg hcr hle ?_
    have hw := weighAll_held s₀.surplusOf hc
    have hsame : c'.weigh s₀.surplusOf = c.weigh s₀.surplusOf := by
      unfold Chain.weigh
      rw [hst]
    unfold Context.weigh
    rw [hheld, hout, weighAll_append, weighAll_single, hsame]
    omega
  | offer c rest ht => exact h.of_same hg rfl rfl le_rfl
  | accept c rest n ht hs hdist =>
    obtain ⟨hq, -⟩ := writeTurn_offer ht
    obtain ⟨wire, he | he⟩ := accepted_client hs c rest n
    · rw [he] at hg ⊢
      refine h.of_same hg rfl rfl ?_
      show weighAll _ ctx.held + weighAll _ (c.advance n :: rest) ≤
        weighAll _ ctx.held + weighAll _ ctx.outqueue
      rw [hq]
      exact le_rfl
    · rw [he] at hg ⊢
      exact h.sent hk hh₀ hq n hg
  | grant hdr hs =>
    unfold grantCredits at hg hh ⊢
    rw [if_neg (by rw [hs]; decide)] at hg hh ⊢
    exact h.grant hg rfl rfl rfl hh
  | close => exact h.of_same hg rfl rfl le_rfl

theorem Deals.limited (hrun : Deals K ctx ctx') (hf : ctx'.fault = none) (hk : Kept s₀ ctx)
    (h : Limited s₀ ctx) (hh : Honest ctx'.ledger) (hr : Restrained s₀ ctx'.ledger) :
    Limited s₀ ctx' := by
  have hboth : Kept s₀ ctx' ∧
      (Honest ctx'.ledger → Restrained s₀ ctx'.ledger → Limited s₀ ctx') := by
    refine hrun.invariant
      (J := fun c => Kept s₀ c ∧ (Honest c.ledger → Restrained s₀ c.ledger → Limited s₀ c)) ?_
      ⟨hk, fun _ _ => h⟩ hf
    rintro c d hd hf' ⟨hk', hl⟩
    have hpre := hd.ledger hf'
    refine ⟨hd.kept hf' hk', fun hh' hr' => ?_⟩
    exact hd.limited hf' hk' hh' hr' (hl (hh'.earlier hpre) (hr'.earlier hpre))
  exact hboth.2 hh hr

end

/-- **Credit requests do not wrap**: a client that starts within the limit, talks to an honest
server and is restrained keeps its balance within `MAX_CREDITS` at all times, and every request
that it allocates asks for the difference. -/
theorem credits_stay_bounded (K : Crypto) (D : Decoders) (s : Session) (ops : List Op)
    (ho : Opening s) (hmax : s.ctx.credits ≤ MAX_CREDITS)
    (hf : (runOps K D s ops).ctx.fault = none) (hh : Honest (runOps K D s ops).ctx.ledger)
    (hr : Restrained s.ctx (runOps K D s ops).ctx.ledger) :
    (0 ≤ (runOps K D s ops).ctx.credits ∧ (runOps K D s ops).ctx.credits ≤ MAX_CREDITS) ∧
      (∀ q ∈ (runOps K D s ops).ctx.ledger, 0 ≤ q.credits ∧ q.credits ≤ MAX_CREDITS) ∧
      ∀ q ∈ (runOps K D s ops).ctx.ledger, ∀ p unsent, q.item = .asked p unsent →
        (p.header.creditRequestResponse : Int) = MAX_CREDITS - q.credits := by
  have hstart : Limited s.ctx s.ctx := by
    refine ⟨ho.gated, ?_, ?_⟩
    · unfold Context.potential Context.weigh
      rw [ho.ledger, ho.held, ho.outqueue]
      simp only [outstanding, total, weighAll, List.map_nil, List.sum_nil]
      omega
    · rw [ho.ledger]
      simp
  have hrun := ho.deals K D ops
  have hk := hrun.kept hf ho.kept
  have hl := hrun.limited hf ho.kept hstart hh hr
  refine ⟨⟨hl.credits, hl.credits_le hh⟩, fun q hq => ⟨hl.entries q hq, hl.limit q hq⟩, ?_⟩
  intro q hq p unsent hp
  have hpos := hl.entries q hq
  have hle := hl.limit q hq
  rw [hk.asked q hq p unsent hp]
  unfold MAX_CREDITS at hle ⊢
  omega

/-! ## Two requests, one after the other and at once -/

/-- The ledger is in range, as far as it goes. -/
theorem inRange_of_inits {s₀ : Context} {l : List Posting}
    (h : ∀ m ∈ l.inits, s₀.balance m < 2 ^ 31) : InRange s₀ l :=
  fun m hm => h m ((List.mem_inits m l).mpr hm)

/-- Only the message ids of the ledger matter. -/
theorem honest_of_mids {l : List Posting} (h : ∀ m ∈ l.inits, ∀ mid ∈ l.map (·.item.mid),
    total (Item.only mid Item.grants) m ≤ total (Item.only mid Item.asks) m) : Honest l := by
  intro m hm mid
  by_cases hmid : mid ∈ l.map (·.item.mid)
  · exact h m ((List.mem_inits m l).mpr hm) mid hmid
  · have hzero : total (Item.only mid Item.grants) m = 0 := by
      unfold total
      rw [List.sum_eq_zero_iff]
      intro x hx
      obtain ⟨q, hq, rfl⟩ := List.mem_map.mp hx
      unfold Item.only
      rw [if_neg]
      rintro rfl
      exact hmid (List.mem_map.mpr ⟨q, hm.subset hq, rfl⟩)
    omega

/-- The condition on the entry with this index. -/
def restrainedAt (s₀ : Context) (l : List Posting) (i : Nat) : Bool :=
  match l[i]? with
  | some ⟨_, .asked p unsent, _⟩ =>
    outstanding (l.take i) + (unsent.map s₀.surplus).sum ≤ s₀.charge p ||
      (MAX_CREDITS : Int) ≤ s₀.balance (l.take i) + s₀.charge p
  | _ => true

theorem restrained_of_indices {s₀ : Context} {l : List Posting}
    (h : ∀ i ∈ List.range l.length, restrainedAt s₀ l i = true) : Restrained s₀ l := by
  rintro pre place p unsent credits post rfl
  have hi := h pre.length (by simp)
  unfold restrainedAt at hi
  simpa using hi

/-- A client with one credit. -/
def poorClient : Session where
  smb2 := { ctx := {
    dialect := VERSION_0210
    credits := 1
    messageId := 1
    env := { tx := List.replicate 8 (.accept 1000) } } }

theorem poorClient_opening : Opening poorClient :=
  ⟨⟨rfl, rfl, rfl, rfl, rfl, rfl, rfl, rfl⟩, rfl, rfl, by decide⟩

/-- The reply to an echo request that grants credits. -/
def grantFrame (mid n : Nat) : Bytes :=
  be32 68 ++ { echoHeader mid 0 1 (zeros 16) with creditRequestResponse := n }.encode ++ echoBody

/-- A request is allocated when the one before it has been answered. -/
def oneAfterTheOther : List Op :=
  [allocEcho 1, .act (.queue 1), .recv wholeReads (grantFrame 1 1023), allocEcho 2,
    .act (.queue 2), .recv wholeReads (grantFrame 2 1)]

/-- Both requests are allocated at once, then a third. -/
def bothAtOnce : List Op :=
  [allocEcho 1, allocEcho 2, .act (.queue 1), .recv wholeReads (grantFrame 1 1023),
    .act (.queue 2), .recv wholeReads (grantFrame 2 1023), allocEcho 3]

/-- The balance of the client over two requests. -/
theorem credits_of_two_requests :
    (runOps echoCrypto plainDecoders poorClient oneAfterTheOther).ctx.ledger.map (·.credits) =
      [1, 0, 1023, 1023, 1022, 1023] ∧
    Offers poorClient.ctx (runOps echoCrypto plainDecoders poorClient oneAfterTheOther).ctx.log
      (runOps echoCrypto plainDecoders poorClient oneAfterTheOther).ctx.ledger := by
  refine ⟨by decide +kernel, ?_⟩
  exact (credits_are_gated echoCrypto plainDecoders poorClient oneAfterTheOther
    poorClient_opening (by decide +kernel) (inRange_of_inits (by decide +kernel))).2.1

/-- One after the other they stay within the limit. -/
theorem credits_one_after_the_other :
    (runOps echoCrypto plainDecoders poorClient oneAfterTheOther).ctx.ledger ≠ [] ∧
      ∀ q ∈ (runOps echoCrypto plainDecoders poorClient oneAfterTheOther).ctx.ledger,
        0 ≤ q.credits ∧ q.credits ≤ MAX_CREDITS := by
  refine ⟨by decide +kernel, ?_⟩
  exact (credits_stay_bounded echoCrypto plainDecoders poorClient oneAfterTheOther
    poorClient_opening (by decide) (by decide +kernel) (honest_of_mids (by decide +kernel))
    (restrained_of_indices (by decide +kernel))).2.1

/-- A request that asks for so many credits. -/
def Item.asksFor (credits : Nat) : Item → Bool
  | .asked p _ => decide (p.header.creditRequestResponse = credits)
  | _ => false

/-- **Two requests that are allocated at once ask for the same credits**: the balance exceeds the
limit although the server grants no more than each asked for, and the next request asks for the
difference modulo 2 ^ 16. -/
theorem credits_asked_for_twice :
    Opening poorClient ∧ poorClient.ctx.credits ≤ MAX_CREDITS ∧
    (runOps echoCrypto plainDecoders poorClient bothAtOnce).ctx.fault = none ∧
    Honest (runOps echoCrypto plainDecoders poorClient bothAtOnce).ctx.ledger ∧
    (runOps echoCrypto plainDecoders poorClient bothAtOnce).ctx.credits = 2045 ∧
    ∃ q ∈ (runOps echoCrypto plainDecoders poorClient bothAtOnce).ctx.ledger, ∃ p unsent,
      q.item = .asked p unsent ∧ p.header.creditRequestResponse = 64515 ∧
        (MAX_CREDITS : Int) - q.credits = -1021 := by
  refine ⟨poorClient_opening, by decide, by decide +kernel, honest_of_mids (by decide +kernel),
    by decide +kernel, ?_⟩
  have hlast : ∃ q ∈ (runOps echoCrypto plainDecoders poorClient bothAtOnce).ctx.ledger,
      q.item.asksFor 64515 = true ∧ (MAX_CREDITS : Int) - q.credits = -1021 := by
    decide +kernel
  obtain ⟨q, hq, hp, hdiff⟩ := hlast
  cases hitem : q.item with
  | asked p unsent =>
    rw [hitem] at hp
    exact ⟨q, hq, p, unsent, hitem, of_decide_eq_true hp, hdiff⟩
  | _ =>
    rw [hitem] at hp
    cases hp

end Libsmb2
