import Libsmb2.Receive

/-!
# The life of a request

What an application does with a context over time: it builds requests, chains and queues
them, writes, reads, lets requests time out, and in the end destroys the context.  Every
callback that a context runs may in turn do any of the things an application can do from
there (`Action`); what it does is the next entry of the script `env.reactions`.

* `act` — one call of the application;
* `timeoutPdus`, `destroyContext` — `smb2_timeout_pdus` and `smb2_destroy_context`.

The timeout loops hold a pointer to the next entry across the callback.  The pointer is
the `id` of that entry; if the callback has freed it, the loop goes on in freed memory
(`Fault.stalePdu`).  Both loops count down `pending`, the number of requests that exist or
can still be allocated by a reaction.
-/

set_option autoImplicit false

namespace Libsmb2

open Util

/-! ## Calls of the application -/

/-- The request as the marshalling function of its command leaves it. -/
def marshal (p : Pdu) (body : List Bytes) (creditCharge : Option Nat) (inIov : List Nat) : Pdu :=
  { p with
    header := { p.header with creditCharge := creditCharge.getD p.header.creditCharge }
    out := p.out ++ body
    inIov := inIov }

namespace Context

/-- The chain that the application holds under this request. -/
def findHeld (ctx : Context) (id : Nat) : Option Chain :=
  ctx.held.find? fun c => c.head.id == id

def dropHeld (ctx : Context) (id : Nat) : Context :=
  { ctx with held := ctx.held.filter fun c => c.head.id != id }

/-- `smb2_free_pdu` is safe on the head of a chain that exists. -/
def ownsHead (ctx : Context) (id : Nat) : Bool :=
  (ctx.outqueue.any fun c => c.head.id == id) || (ctx.waitqueue.any fun p => p.id == id)

/-- What `smb2_free_pdu` releases with a request that a queue links. -/
def linkedWith (ctx : Context) (id : Nat) : List Pdu :=
  (ctx.outqueue.filter fun c => c.head.id == id).flatMap Chain.members ++
    ctx.waitqueue.filter fun p => p.id == id

/-- Where a request is. -/
def place (ctx : Context) (id : Nat) : Place :=
  if ctx.pdu.map Pdu.id = some id then .receiving
  else if (ctx.findHeld id).isSome then .held
  else if ctx.outqueue.any fun c => c.head.id == id then .queued
  else if ctx.waitqueue.any fun p => p.id == id then .waiting
  else if id ∈ ctx.kept then .kept
  else if (ctx.held ++ ctx.outqueue).any fun c => c.rest.any fun p => p.id == id then .inside
  else .gone

/-- What a call of the application passes to the library. -/
def passes (ctx : Context) : Action → List Event
  | .compound pdu nextPdu =>
    [.passed .compound (ctx.place pdu), .passed .compound ((ctx.dropHeld pdu).place nextPdu)]
  | .queue pdu => [.passed .queue (ctx.place pdu)]
  | .free pdu => [.passed .free (ctx.place pdu)]
  | _ => []

def notePasses (ctx : Context) (a : Action) : Context :=
  { ctx with log := ctx.log ++ ctx.passes a }

theorem of_mem_passes {ctx : Context} {a : Action} {e : Event} (he : e ∈ ctx.passes a) :
    ∃ call place, e = .passed call place := by
  cases a with
  | compound pdu nextPdu =>
    simp only [passes, List.mem_cons, List.not_mem_nil, or_false] at he
    exact he.elim (⟨_, _, ·⟩) (⟨_, _, ·⟩)
  | queue pdu => exact ⟨_, _, List.mem_singleton.mp he⟩
  | free pdu => exact ⟨_, _, List.mem_singleton.mp he⟩
  | _ => cases he

end Context

/-- What a call of the application does.  A request that does not exist (any more), or that
sits inside a chain, is freed memory or is freed under its chain. -/
def perform (K : Crypto) (ctx : Context) : Action → Context
  | .alloc command body cb creditCharge inIov =>
    match ctx.allocatePdu command cb with
    | (none, ctx) => ctx
    | (some p, ctx) =>
      let p := marshal p body creditCharge inIov
      let unsent := ctx.unsent
      let ctx := { ctx with held := ctx.held ++ [Chain.single p] }
      ctx.post (.asked p unsent)
  | .compound pdu nextPdu =>
    match ctx.findHeld pdu, (ctx.dropHeld pdu).findHeld nextPdu with
    | some c, some next =>
      let ctx := (ctx.dropHeld pdu).dropHeld nextPdu
      { ctx with held := ctx.held ++ [addCompoundPdu c next] }
    | _, _ => ctx.raise .stalePdu
  | .queue pdu =>
    match ctx.findHeld pdu with
    | some c => queuePdu K (ctx.dropHeld pdu) c
    | none => ctx.raise .stalePdu
  | .free pdu =>
    match ctx.findHeld pdu with
    | some c => (ctx.dropHeld pdu).noteRelease true c.members
    | none =>
      if ctx.ownsHead pdu then (ctx.freePdu pdu).noteRelease true (ctx.linkedWith pdu)
      else if pdu ∈ ctx.kept then
        { ctx with
          kept := ctx.kept.erase pdu
          releases := ctx.releases ++ [⟨pdu, true, true⟩] }
      else ctx.raise .stalePdu
  | .setSign b => { ctx with sign := b }
  | .setSeal b => { ctx with sealing := b }
  | .setTimeout seconds => { ctx with timeout := seconds }
  | .tick seconds => { ctx with now := ctx.now + seconds }
  | .close => ctx.closeContext

/-- One call of the application. -/
def act (K : Crypto) (ctx : Context) (a : Action) : Context := perform K (ctx.notePasses a) a

def runActions (K : Crypto) (ctx : Context) : List Action → Context
  | [] => ctx
  | a :: as => if ctx.fault = none then runActions K (act K ctx a) as else ctx

def Context.setReactions (ctx : Context) (reactions : List (List Action)) : Context :=
  { ctx with env := { ctx.env with reactions := reactions } }

/-- The application inside a callback. -/
def react (K : Crypto) (ctx : Context) : Context :=
  match ctx.env.reactions with
  | [] => ctx
  | as :: rest => runActions K (ctx.setReactions rest) as

/-- A command callback runs. -/
def invokeApp (K : Crypto) (p : Pdu) (status : Nat) (ctx : Context) : Context :=
  react K (ctx.emit (.completed p.id status))

/-- The vectors of the acknowledgement of a break, padded to 64 bits. -/
def breakBody (rep : BreakReply) (answer : Nat) : Option (List Bytes) :=
  match rep.breakType with
  | .oplockNotification =>
    some [le 2 24 ++ le 1 answer ++ zeros 5 ++ slice (rep.fileId ++ zeros 16) 0 16]
  | .leaseNotification =>
    some [le 2 36 ++ zeros 2 ++ le 4 rep.leaseFlags ++ slice (rep.leaseKey ++ zeros 16) 0 16 ++
      le 4 answer ++ zeros 8, zeros 4]
  | _ => none

/-- What `smb2_oplock_break_notify` does after the callback of the application: it allocates
an acknowledgement with a `NULL` callback and queues it.  A passthrough context leaves that to
the application. -/
def breakAck (ctx : Context) (p : Pdu) (status : Nat) : List Action :=
  if p.cb = .oplockBreakNotify ∧ ctx.passthrough = false ∧ status = 0 then
    match p.payload with
    | .breakReply rep =>
      match breakBody rep (ctx.env.breaks.headD 0) with
      | some body =>
        .alloc .oplockBreak body .none none [] ::
          if ctx.allocOk then [.queue ctx.nextId] else []
      | none => []
    | _ => []
  else []

def Context.popBreak (ctx : Context) : Context :=
  { ctx with env := { ctx.env with breaks := ctx.env.breaks.tail } }

/-- The callback of a reply runs.  A break notification is acknowledged by the library. -/
def invokeCallback (K : Crypto) (p : Pdu) (status : Nat) (ctx : Context) : Context :=
  let ctx := invokeApp K p status ctx
  runActions K ctx.popBreak (breakAck ctx p status)

/-! ## Timeouts and teardown -/

inductive Queue
  | out
  | wait
  deriving DecidableEq, Repr

namespace Context

/-- The requests that a queue links. -/
def heads (ctx : Context) : Queue → List Pdu
  | .out => ctx.outqueue.map Chain.head
  | .wait => ctx.waitqueue

/-- `SMB2_LIST_REMOVE`. -/
def unlink (ctx : Context) (q : Queue) (id : Nat) : Context :=
  match q with
  | .out => { ctx with
      outqueue := ctx.outqueue.filter fun c => c.head.id != id
      log := ctx.log ++ (ctx.outqueue.filter fun c => c.head.id == id).map .removed }
  | .wait => { ctx with
      waitqueue := ctx.waitqueue.filter fun p => p.id != id
      log := ctx.log ++ [.expired id (ctx.pdu.map Pdu.id == some id)] }

end Context

def Action.allocates : Action → Nat
  | .alloc _ _ _ _ _ => 1
  | _ => 0

def Chain.size (c : Chain) : Nat := c.members.length

/-- The requests that exist, and those that the reactions can still allocate. -/
def Context.pending (ctx : Context) : Nat :=
  (ctx.held.map Chain.size).sum + (ctx.outqueue.map Chain.size).sum + ctx.waitqueue.length +
    (ctx.env.reactions.map fun as => (as.map Action.allocates).sum).sum

/-- The members behind an entry of the out queue. -/
def Context.behind (ctx : Context) (q : Queue) (id : Nat) : List Pdu :=
  match q with
  | .out => (ctx.outqueue.filter fun c => c.head.id == id).flatMap Chain.rest
  | .wait => []

/-- One turn of a loop of `smb2_timeout_pdus` on an entry that has expired. -/
def expire (K : Crypto) (q : Queue) (p : Pdu) (ctx : Context) : Context :=
  if p.cb = .none then ctx.raise .nullCallback
  else
    let ctx' := invokeApp K p STATUS_IO_TIMEOUT (ctx.unlink q p.id)
    if ctx'.fault = none then
      (ctx'.freePdu p.id).noteRelease false (p :: ctx.behind q p.id)
    else ctx'

/-- What a loop of `smb2_timeout_pdus` finds when it comes to an expired entry. -/
def Context.lapse (ctx : Context) (q : Queue) (p : Pdu) (next : Option Nat) : Lapse where
  pdu := p
  behind := ctx.behind q p.id
  current := ctx.pdu.map Pdu.id == some p.id
  freesNext := next.any fun id => (ctx.env.reactions.headD []).any fun a => a == .free id

/-- The loop of `smb2_timeout_pdus` over one queue, from the entry with this id on. -/
def timeoutLoop (K : Crypto) (q : Queue) (t : Nat) : Nat → Option Nat → Context → Context
  | _, none, ctx => ctx
  | 0, some _, ctx => ctx.raise .outOfFuel
  | fuel + 1, some id, ctx =>
    match (ctx.heads q).dropWhile fun p => p.id != id with
    | [] => ctx.raise .stalePdu
    | p :: after =>
      let next := after.head?.map Pdu.id
      if p.timeout ≠ 0 ∧ p.timeout < t then
        let ctx := expire K q p (ctx.emit (.lapsed (ctx.lapse q p next)))
        if ctx.fault = none then timeoutLoop K q t fuel next ctx else ctx
      else timeoutLoop K q t fuel next ctx

def timeoutQueue (K : Crypto) (q : Queue) (t : Nat) (ctx : Context) : Context :=
  timeoutLoop K q t (ctx.pending + 1) ((ctx.heads q).head?.map Pdu.id) ctx

/-- `smb2_timeout_pdus`. -/
def timeoutPdus (K : Crypto) (ctx : Context) : Context :=
  let ctx' := timeoutQueue K .out ctx.now ctx
  if ctx'.fault = none then timeoutQueue K .wait ctx.now ctx' else ctx'

/-- One entry of a queue is shut down. -/
def shutdown (K : Crypto) (q : Queue) (p : Pdu) (ctx : Context) : Context :=
  let gone := p :: ctx.behind q p.id
  let ctx := ctx.unlink q p.id
  let ctx := if p.cb = .none then ctx else invokeApp K p STATUS_SHUTDOWN ctx
  if ctx.fault = none then (ctx.freePdu p.id).noteRelease false gone else ctx

/-- The loop of `smb2_destroy_context` over one queue. -/
def destroyLoop (K : Crypto) (q : Queue) : Nat → Context → Context
  | fuel, ctx =>
    match ctx.heads q with
    | [] => ctx
    | p :: _ =>
      match fuel with
      | 0 => ctx.raise .outOfFuel
      | fuel + 1 =>
        let ctx := shutdown K q p ctx
        if ctx.fault = none then destroyLoop K q fuel ctx else ctx

def destroyQueue (K : Crypto) (q : Queue) (ctx : Context) : Context :=
  destroyLoop K q (ctx.pending + 1) ctx

/-- The current request is shut down. -/
def destroyCurrent (K : Crypto) (ctx : Context) : Context :=
  match ctx.pdu with
  | none => ctx
  | some p =>
    let ctx := if p.cb = .none then ctx else invokeApp K p STATUS_SHUTDOWN ctx
    if ctx.fault = none then { (ctx.freePdu p.id).noteRelease false [p] with pdu := none } else ctx

/-- The transport is closed and the out queue is shut down. -/
def destroyOut (K : Crypto) (ctx : Context) : Context :=
  destroyQueue K .out { ctx with connected := false }

/-- `smb2_destroy_context`, as far as it concerns requests. -/
def destroyContext (K : Crypto) (ctx : Context) : Context :=
  let ctx := destroyOut K ctx
  if ctx.fault = none then
    let ctx := destroyCurrent K ctx
    if ctx.fault = none then destroyQueue K .wait ctx else ctx
  else ctx

end Libsmb2
