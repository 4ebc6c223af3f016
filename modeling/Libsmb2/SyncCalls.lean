import Libsmb2.PathOps

/-!
# Synchronous calls

The wrappers of `sync.c`.  Each allocates a `struct sync_cb_data`, starts the asynchronous
operation with a callback of its own and waits for it (`wait_for_reply`).  When the wait fails
the wrapper leaves the operation behind, and each has its own way to hand over the block.

A state is what the calls on one context hold: their blocks, and the requests that are
outstanding for them.  The queues are kept call by call: what a call has on the out queue (one
request or one chain), what it has on the wait queue, and whether one of its requests is
`smb2->pdu`.  A connection that a transport is still making counts as the first request of a
connect.  `smb2_notify_change` opens and closes its directory through `smb2_open` and
`smb2_close`: those are calls of their own.  The memory of the requests themselves is not
looked at here.

* `Step`, `State.run` — what the application, the peer, the clock and the teardown do;
* `Met`, `Kept` — what a step is asked, and what then holds of the blocks.
-/

set_option autoImplicit false

namespace Libsmb2.SyncCalls

open Util PathOps

/-! ## Callbacks of the operations -/

def STATUS_CANCELLED : UInt32 := 0xC0000120
def STATUS_SHUTDOWN : UInt32 := 0xffffffff
def STATUS_IO_TIMEOUT : UInt32 := 0xC00000B5
def STATUS_NO_MORE_FILES : UInt32 := 0x80000006
def STATUS_END_OF_FILE : UInt32 := 0xC0000011
def STATUS_MORE_PROCESSING_REQUIRED : UInt32 := 0xC0000016

/-- The callbacks of the requests that the wrappers send, with the file handle where the
request is about one. -/
inductive Cb
  | connectCb
  | negotiateCb
  | sessionSetupCb
  | treeConnectCb
  | disconnectCb1
  | disconnectCb2
  | opendirCb
  | queryCb
  | odCloseCb
  | openCb
  | closeCb (fh : Nat)
  | fsyncCb (fh : Nat)
  | readCb (fh : Nat)
  | writeCb (fh : Nat)
  | createCb1
  | createCb2
  | fstatCb1
  | getinfoCb1
  | getinfoCb2
  | getinfoCb3
  | truncCb1
  | truncCb2
  | truncCb3
  | renameCb1
  | renameCb2
  | renameCb3
  | ftruncCb1
  | readlinkCb1
  | readlinkCb2
  | readlinkCb3
  | echoCb
  | notifyChangeCb
  | smb2OpenCb
  | smb2BindCb
  | dcerpcCallCb
  deriving DecidableEq, Repr

/-- What the decoders make of the buffer of a QUERY_INFO reply. -/
inductive Info
  | file (fs : FileAllInfo)
  | fsSize (vfs : FsFullSizeInfo)
  deriving DecidableEq, Repr

def Info.fill : Info → Result
  | .file fs => fillStat fs
  | .fsSize vfs => fillStatvfs vfs

/-- The completion of a request: its status, whether `command_data` is there, the decoded buffer
of a QUERY_INFO, the length in the reply to a READ or a WRITE; and what the callback of an
operation in several requests comes to: whether the reply suits it and the next command can be
created, and what it reports otherwise. -/
structure Completion where
  status : UInt32
  payload : Bool := false
  info : Option Info := none
  length : Nat := 0
  goesOn : Bool := false
  failure : Int := -ENOMEM
  deriving DecidableEq, Repr

/-- The completions by `smb2_timeout_pdus` and by `smb2_destroy_context`. -/
def ioTimeout : Completion := { status := STATUS_IO_TIMEOUT }
def shutDown : Completion := { status := STATUS_SHUTDOWN }

namespace Completion

def errno (c : Completion) : Int := -nterrorToErrno c.status.toNat

/-- The error of a callback in the middle of an operation. -/
def error (c : Completion) : Int := if c.status = 0 then c.failure else c.errno

def queryInfo (c : Completion) : Option (QueryInfoReply Info) :=
  if c.payload then some ⟨0, 0, c.info⟩ else none

end Completion

namespace Cb

/-- The request that a callback queues. -/
def next (c : Completion) : Cb → Option Cb
  | connectCb => if c.status = 0 ∧ c.goesOn then some negotiateCb else none
  | negotiateCb => if c.status = 0 ∧ c.goesOn then some sessionSetupCb else none
  | sessionSetupCb =>
    if c.status = STATUS_MORE_PROCESSING_REQUIRED ∧ c.goesOn then some sessionSetupCb
    else if c.status = 0 ∧ c.goesOn then some treeConnectCb
    else none
  | disconnectCb1 => if c.status = 0 ∧ c.goesOn then some disconnectCb2 else none
  | opendirCb => if c.status = 0 ∧ c.goesOn then some queryCb else none
  | queryCb =>
    if c.status = 0 ∧ c.goesOn then some queryCb
    else if c.status = STATUS_NO_MORE_FILES ∧ c.goesOn then some odCloseCb
    else none
  | smb2OpenCb => if c.status = 0 ∧ c.goesOn then some smb2BindCb else none
  | smb2BindCb => if c.status = 0 ∧ c.goesOn then some dcerpcCallCb else none
  | _ => none

/-- The callback of the wrapper is called and the block of the operation is freed. -/
def settle (status : Int) (data : Bool) (w : World) : World :=
  { (w.note (.report status data)).note .freeBlock with block := none }

/-- A callback that looks at the block of its operation and settles it. -/
def settles (status : Int) (data : Bool) (w : World) : World :=
  withBlock w fun _ => settle status data w

/-- A callback in the middle of an operation: the next request is queued, or the error is
reported. -/
def proceeds (cb : Cb) (c : Completion) (error : Int) (w : World) : World :=
  withBlock w fun _ => if (cb.next c).isSome then w.note .queued else settle error false w

/-- A callback that hands over what it has opened and keeps it. -/
def handsOver (c : Completion) (w : World) : World :=
  withBlock w fun _ =>
    if c.status ≠ 0 then settle c.errno false w else w.note (.report 0 true)

/-- `fstat_cb_1`: the reply is looked at before the status is. -/
def fstat (c : Completion) (w : World) : World :=
  match c.queryInfo with
  | none => { w.note .readNull with crashed := true }
  | some rep =>
    if c.status ≠ 0 then settles c.errno false w
    else
      match rep.outputBuffer with
      | none => { w.note .readNull with crashed := true }
      | some info => settles 0 true { w.note .readBuffer with result := some info.fill }

/-- A callback runs. -/
def run (c : Completion) : Cb → World → World
  | connectCb => proceeds connectCb c (if c.status = 0 then c.failure else -c.status.toNat)
  | negotiateCb => proceeds negotiateCb c c.error
  | sessionSetupCb => proceeds sessionSetupCb c c.error
  | treeConnectCb => settles c.errno false
  | disconnectCb1 => proceeds disconnectCb1 c (-ENOMEM)
  | disconnectCb2 => settles 0 false
  | opendirCb => proceeds opendirCb c (if c.status = 0 then -ENOMEM else c.errno)
  | queryCb =>
    proceeds queryCb c
      (if c.status = 0 ∨ c.status = STATUS_NO_MORE_FILES then -ENOMEM else c.errno)
  | odCloseCb => handsOver c
  | openCb => handsOver c
  | closeCb _ => fun w => w.note (.report c.errno false)
  | fsyncCb _ => fun w => w.note (.report c.errno false)
  | readCb _ =>
    settles (if c.status ≠ 0 ∧ c.status ≠ STATUS_END_OF_FILE then c.errno else c.length) true
  | writeCb _ =>
    settles (if c.status ≠ 0 ∧ c.status ≠ STATUS_END_OF_FILE then c.errno else c.length) true
  | createCb1 => fun w => w
  | createCb2 => settles c.errno false
  | fstatCb1 => fstat c
  | getinfoCb1 => PathOps.getinfoCb1 c.status
  | getinfoCb2 => PathOps.getinfoCb2 Info.fill c.status c.queryInfo
  | getinfoCb3 => PathOps.getinfoCb3 c.status
  | truncCb1 => PathOps.truncCb1 c.status
  | truncCb2 => PathOps.truncCb2 c.status
  | truncCb3 => PathOps.truncCb3 c.status
  | renameCb1 => PathOps.renameCb1 c.status
  | renameCb2 => PathOps.renameCb2 c.status
  | renameCb3 => PathOps.renameCb3 c.status
  | ftruncCb1 => settles c.errno false
  | readlinkCb1 => fun w => withBlock w fun _ => { w with block := some c.status }
  | readlinkCb2 => keepStatus c.status
  | readlinkCb3 => fun w => withBlock w fun kept => settle (-nterrorToErrno kept.toNat) true w
  | echoCb => settles c.errno false
  | notifyChangeCb =>
    if c.status ≠ 0 ∨ c.payload = false then
      settles (if c.status ≠ 0 then c.status.toInt32.toInt else - EIO) false
    else settles 0 true
  | smb2OpenCb => proceeds smb2OpenCb c c.error
  | smb2BindCb => proceeds smb2BindCb c c.error
  | dcerpcCallCb => settles (if c.status ≠ 0 then c.errno else c.failure) c.goesOn

/-- The callbacks of a chain that only keep something for the last one. -/
def keeps : Cb → Bool
  | createCb1 | getinfoCb1 | getinfoCb2 | truncCb1 | truncCb2 | renameCb1 | renameCb2
  | readlinkCb1 | readlinkCb2 => true
  | _ => false

/-- The member of the chain before this one (`prev_compound_mid`). -/
def prev : Cb → Option Cb
  | createCb2 => some createCb1
  | getinfoCb2 => some getinfoCb1
  | getinfoCb3 => some getinfoCb2
  | truncCb2 => some truncCb1
  | truncCb3 => some truncCb2
  | renameCb2 => some renameCb1
  | renameCb3 => some renameCb2
  | readlinkCb2 => some readlinkCb1
  | readlinkCb3 => some readlinkCb2
  | _ => none

/-- The handle in which the operation keeps the callback of its caller. -/
def through : Cb → Option Nat
  | closeCb fh | fsyncCb fh => some fh
  | _ => none

/-- The handle whose offset a successful completion moves. -/
def moves : Cb → Option Nat
  | readCb fh | writeCb fh => some fh
  | _ => none

end Cb

/-! ## Wrappers -/

/-- The synchronous calls.  `notifyChange` and `shareEnum` are `smb2_notify_change` and
`smb2_share_enum_sync`. -/
inductive Wrapper
  | connectShare
  | disconnectShare
  | opendir
  | open
  | close (fh : Nat)
  | fsync (fh : Nat)
  | pread (fh : Nat)
  | pwrite (fh : Nat)
  | read (fh : Nat)
  | write (fh : Nat)
  | unlink
  | rmdir
  | mkdir
  | fstat (fh : Nat)
  | stat
  | rename
  | statvfs
  | truncate
  | ftruncate (fh : Nat)
  | readlink
  | echo
  | notifyChange
  | shareEnum
  deriving DecidableEq, Repr

/-- `struct sync_cb_data`; of `ptr` whether it is set. -/
structure SyncCbData where
  isFinished : Bool := false
  status : UInt32 := 0
  ptr : Bool := false
  deriving DecidableEq, Repr

namespace SyncCbData

def cancelled (b : SyncCbData) : Bool := b.status == STATUS_CANCELLED

def cancel (b : SyncCbData) : SyncCbData := { b with status := STATUS_CANCELLED }

def finish (b : SyncCbData) (status : Int) : SyncCbData :=
  { b with isFinished := true, status := .ofInt status }

end SyncCbData

/-! The callbacks of the wrappers: what is left of the block, `none` when it is freed. -/

/-- `sync_connect_cb`, for the block that is embedded in the context. -/
def syncConnectCb (status : Int) (b : SyncCbData) : Option SyncCbData :=
  if b.cancelled then some b else some (b.finish status)

/-- `sync_opendir_cb`. -/
def syncOpendirCb (status : Int) (data : Bool) (b : SyncCbData) : Option SyncCbData :=
  if UInt32.ofInt status = STATUS_SHUTDOWN then some b
  else
    some { b with
      isFinished := true
      status := if status ≠ 0 then .ofInt status else b.status
      ptr := data }

/-- `sync_open_cb`. -/
def syncOpenCb (data : Bool) (b : SyncCbData) : Option SyncCbData :=
  some { b with isFinished := true, ptr := data }

/-- A block that was left behind is freed, another one takes the status. -/
def freeOrFinish (status : Int) (b : SyncCbData) : Option SyncCbData :=
  if b.cancelled then none else some (b.finish status)

/-- `sync_close_cb`. -/
def syncCloseCb (status : Int) (b : SyncCbData) : Option SyncCbData :=
  if UInt32.ofInt status = STATUS_SHUTDOWN then some b else freeOrFinish status b

def syncFsyncCb : Int → SyncCbData → Option SyncCbData := freeOrFinish
def syncGenericStatusCb : Int → SyncCbData → Option SyncCbData := freeOrFinish
def readlinkCb : Int → SyncCbData → Option SyncCbData := freeOrFinish
def syncEchoCb : Int → SyncCbData → Option SyncCbData := freeOrFinish

/-- `sync_notify_change_cb`. -/
def syncNotifyChangeCb (data : Bool) (b : SyncCbData) : Option SyncCbData :=
  if b.cancelled then some b else some { b with isFinished := true, ptr := data }

/-- `sync_share_enum_cb`. -/
def syncShareEnumCb (status : Int) (data : Bool) (b : SyncCbData) : Option SyncCbData :=
  if b.cancelled then none else some { b.finish status with ptr := data }

namespace Wrapper

/-- The block is `connect_cb_data` of the context. -/
def embedded : Wrapper → Bool
  | connectShare | disconnectShare => true
  | _ => false

/-- The callback of a wrapper. -/
def cb (status : Int) (data : Bool) : Wrapper → SyncCbData → Option SyncCbData
  | connectShare | disconnectShare => syncConnectCb status
  | opendir => syncOpendirCb status data
  | .open => syncOpenCb data
  | close _ => syncCloseCb status
  | fsync _ => syncFsyncCb status
  | readlink => readlinkCb status
  | echo => syncEchoCb status
  | notifyChange => syncNotifyChangeCb data
  | shareEnum => syncShareEnumCb status data
  | _ => syncGenericStatusCb status

/-- The callback returns without a look at the block. -/
def ignores (status : Int) : Wrapper → Bool
  | opendir | close _ => UInt32.ofInt status == STATUS_SHUTDOWN
  | _ => false

/-- The requests that are queued by the asynchronous operation, as one chain. -/
def requests : Wrapper → List Cb
  | connectShare => [.connectCb]
  | disconnectShare => [.disconnectCb1]
  | opendir => [.opendirCb]
  | .open => [.openCb]
  | close fh => [.closeCb fh]
  | fsync fh => [.fsyncCb fh]
  | pread fh | read fh => [.readCb fh]
  | pwrite fh | write fh => [.writeCb fh]
  | unlink | rmdir | mkdir => [.createCb1, .createCb2]
  | fstat _ => [.fstatCb1]
  | stat | statvfs => [.getinfoCb1, .getinfoCb2, .getinfoCb3]
  | truncate => [.truncCb1, .truncCb2, .truncCb3]
  | rename => [.renameCb1, .renameCb2, .renameCb3]
  | ftruncate _ => [.ftruncCb1]
  | readlink => [.readlinkCb1, .readlinkCb2, .readlinkCb3]
  | echo => [.echoCb]
  | notifyChange => [.notifyChangeCb]
  | shareEnum => [.smb2OpenCb]

/-- The handle that a wrapper is given. -/
def fh : Wrapper → Option Nat
  | close fh | fsync fh | pread fh | pwrite fh | read fh | write fh | fstat fh | ftruncate fh =>
    some fh
  | _ => none

end Wrapper

/-! ## States -/

/-- `struct smb2fh`: the call whose callback it holds (none for one of the application), and
whether it has been freed. -/
structure Handle where
  cb : Option Nat := none
  released : Bool := false
  deriving DecidableEq, Repr

/-- A synchronous call. -/
structure Call where
  wrapper : Wrapper
  /-- Its block, unless that is freed or embedded. -/
  block : Option SyncCbData := some {}
  /-- `wait_for_reply` runs. -/
  inside : Bool := true
  /-- It failed while a request was outstanding. -/
  abandoned : Bool := false
  queued : List Cb
  /-- `smb2->pdu`, if that is a request of this call. -/
  receiving : Option Cb := none
  /-- `smb2->pdu` is still linked in the wait queue: its reply came out of order. -/
  linked : Bool := false
  waiting : List Cb := []
  op : World := { block := some 0 }

/-- The requests that are outstanding for a call. -/
def Call.pending (call : Call) : List Cb := call.queued ++ call.receiving.toList ++ call.waiting

/-- The blocks. -/
inductive Cell
  | call (i : Nat)
  | context
  deriving DecidableEq, Repr

inductive Event
  /-- The callback of a wrapper is called, with a block that is or is not allocated. -/
  | called (cell : Cell) (allocated : Bool)
  | released (cell : Cell)
  deriving DecidableEq, Repr

structure State where
  passthrough : Bool := false
  calls : List Call := []
  handles : Nat → Handle := fun _ => {}
  /-- The flushes and closes of the application itself, and which of them are closes. -/
  others : List (Nat × Bool) := []
  connectCbData : Option SyncCbData := some {}
  destroying : Bool := false
  destroyed : Bool := false
  crashed : Bool := false
  log : List Event := []

namespace State

def note (s : State) (e : Event) : State := { s with log := s.log ++ [e] }

def modify (s : State) (i : Nat) (f : Call → Call) : State :=
  { s with calls := s.calls.modify i f }

def crash (s : State) : State := { s with crashed := true }

def setHandle (s : State) (fh : Nat) (h : Handle) : State :=
  { s with handles := Function.update s.handles fh h }

/-- The block of a call. -/
def block (s : State) (call : Call) : Option SyncCbData :=
  if call.wrapper.embedded then s.connectCbData else call.block

def cell (i : Nat) (call : Call) : Cell := if call.wrapper.embedded then .context else .call i

def setBlock (s : State) (i : Nat) (call : Call) (b : Option SyncCbData) : State :=
  if call.wrapper.embedded then { s with connectCbData := b }
  else s.modify i fun call => { call with block := b }

/-- `free` of the block of a call. -/
def release (s : State) (i : Nat) : State :=
  (s.modify i fun call => { call with block := none }).note (.released (.call i))

/-- The callback of the wrapper of a call. -/
def callBack (s : State) (i : Nat) (status : Int) (data : Bool) : State :=
  match s.calls[i]? with
  | none => s
  | some call =>
    let s' := s.note (.called (cell i call) (s.block call).isSome)
    if call.wrapper.ignores status then s'
    else
      match s.block call with
      | none => s'.crash
      | some b =>
        match call.wrapper.cb status data b with
        | some b' => s'.setBlock i call (some b')
        | none => s'.release i

/-- The call whose wrapper a callback of an operation tells. -/
def target (s : State) (i : Nat) (cb : Cb) : Option Nat :=
  match cb.through with
  | some fh => (s.handles fh).cb
  | none => some i

def tell (target : Option Nat) (s : State) (r : Int × Bool) : State :=
  match target with
  | some j => s.callBack j r.1 r.2
  | none => s

/-- The callback uses its handle after `free_smb2fh`. -/
def staleHandle (s : State) (cb : Cb) (c : Completion) : Bool :=
  cb.through.any (fun fh => (s.handles fh).released)
    || cb.moves.any (fun fh => c.status = 0 && (s.handles fh).released)

/-- `free_smb2fh` at the end of `close_cb`. -/
def freeHandle (s : State) : Cb → State
  | .closeCb fh => s.setHandle fh { s.handles fh with released := true }
  | _ => s

/-- A request of a call completes; it has been taken off its queue. -/
def complete (s : State) (i : Nat) (cb : Cb) (c : Completion) : State :=
  match s.calls[i]? with
  | none => s
  | some call =>
    if s.staleHandle cb c then s.crash
    else
      let op := cb.run c call.op
      let s' := s.modify i fun call =>
        { call with op := op, queued := call.queued ++ (cb.next c).toList }
      let told := (reports (op.log.drop call.op.log.length)).foldl (tell (s.target i cb)) s'
      (if op.crashed then told.crash else told).freeHandle cb

end State

/-! ## Steps -/

inductive Step
  /-- A wrapper is called, and the operation starts. -/
  | call (wrapper : Wrapper)
  /-- What a call has on the out queue is sent. -/
  | send (i : Nat)
  /-- The header of the reply to a waiting request is read. -/
  | header (i : Nat) (cb : Cb)
  /-- The reply is complete. -/
  | reply (i : Nat) (c : Completion)
  /-- An interim reply, which a passthrough context hands on. -/
  | interim (i : Nat) (cb : Cb) (c : Completion)
  /-- `smb2_timeout_pdus`, on the out queue and on the wait queue. -/
  | timeoutOut (i : Nat)
  | timeoutWait (i : Nat) (cb : Cb)
  /-- `wait_for_reply` fails. -/
  | abandon (i : Nat)
  /-- `wait_for_reply` finds the call finished. -/
  | finish (i : Nat)
  /-- The application calls `smb2_fsync_async` or `smb2_close_async` itself; and its request
  completes. -/
  | application (fh : Nat) (close : Bool)
  | applicationDone (fh : Nat) (close : Bool) (status : Int)
  /-- `smb2_destroy_context` begins, shuts down the next request of a call, and frees the
  context. -/
  | destroy
  | shutdown (i : Nat)
  | free
  deriving DecidableEq, Repr

namespace State

/-- What a failing wait leaves of a call that keeps to the convention. -/
def leave (s : State) (i : Nat) (call : Call) : State :=
  s.setBlock i call ((s.block call).map SyncCbData.cancel)

/-- `smb2_free_pdu` of a request, which clears neither `smb2->pdu` nor what is behind it. -/
def freePdu (s : State) (i : Nat) (cb : Cb) : State :=
  s.modify i fun call =>
    { call with queued := call.queued.filter (· != cb), waiting := call.waiting.filter (· != cb) }

/-- The failing branch of a wrapper. -/
def onFailure (s : State) (i : Nat) (call : Call) : State :=
  match call.wrapper with
  | .opendir => (s.release i).freePdu i .opendirCb
  | .open => s.freePdu i .openCb
  | .close _ | .notifyChange => (s.leave i call).release i
  | .shareEnum => s
  | _ => s.leave i call

/-- The end of a wrapper that succeeds.  `smb2_opendir` hands the block to the directory, and
nothing frees the one of `smb2_open`: its PDU has no `free_cb`. -/
def onSuccess (s : State) (i : Nat) (call : Call) (b : SyncCbData) : State :=
  match call.wrapper with
  | .connectShare | .disconnectShare | .open => s
  | .opendir => if b.ptr then s else s.release i
  | _ => s.release i

def receives (s : State) : Bool := s.calls.any fun call => call.receiving.isSome

/-- A wrapper is called. -/
def start (s : State) (wrapper : Wrapper) : State :=
  let i := s.calls.length
  if wrapper.fh.any fun fh => (s.handles fh).released then s.crash
  else
    let s := { s with calls := s.calls ++ [{ wrapper := wrapper, queued := wrapper.requests }] }
    match wrapper with
    | .close fh | .fsync fh => s.setHandle fh { s.handles fh with cb := some i }
    | _ => s

/-- The head of what a call has on the out queue is completed without having been sent;
`smb2_free_pdu` frees the chain behind it. -/
def dropQueued (s : State) (i : Nat) (call : Call) (c : Completion) : State :=
  match call.queued with
  | [] => s
  | cb :: _ => (s.modify i fun call => { call with queued := [] }).complete i cb c

def endWaiting (s : State) (i : Nat) (cb : Cb) (c : Completion) : State :=
  (s.modify i fun call => { call with waiting := call.waiting.erase cb }).complete i cb c

def endReceiving (s : State) (i : Nat) (cb : Cb) (c : Completion) : State :=
  (s.modify i fun call => { call with receiving := none }).complete i cb c

/-- One turn of the loops of `smb2_destroy_context`: the out queue, then the request that is
being received, then the wait queue. -/
def shutdownNext (s : State) (i : Nat) (call : Call) : State :=
  if s.calls.any fun call => call.queued ≠ [] then s.dropQueued i call shutDown
  else if s.receives then
    match call.receiving with
    | none => s
    | some cb =>
      -- a request that is linked as well leaves the wait queue with `smb2_free_pdu`
      if call.linked then
        (s.modify i fun call => { call with waiting := call.waiting.erase cb, linked := false })
          |>.endReceiving i cb shutDown
      else s.endReceiving i cb shutDown
  else
    match call.waiting with
    | [] => s
    | cb :: _ => s.endWaiting i cb shutDown

/-- Nothing is left to shut down. -/
def drained (s : State) : Bool :=
  s.others = [] && s.calls.all fun call => call.pending = []

/-- A request of the application itself completes. -/
def endOther (s : State) (fh : Nat) (close : Bool) (status : Int) : State :=
  if (s.handles fh).released then s.crash
  else
    let s := tell (s.handles fh).cb { s with others := s.others.erase (fh, close) } (status, false)
    if close then s.setHandle fh { s.handles fh with released := true } else s

/-- A step that concerns a call. -/
def onCall (s : State) (i : Nat) (f : Call → State) : State :=
  match s.calls[i]? with
  | none => s
  | some call => f call

/-- A step of the teardown is made while the context is destroyed, any other before. -/
def admits (s : State) : Step → Bool
  | .shutdown _ | .free => s.destroying
  | .applicationDone _ _ _ => true
  | _ => !s.destroying

def perform (s : State) : Step → State
  | .call wrapper => s.start wrapper
  | .send i =>
    s.modify i fun call => { call with waiting := call.waiting ++ call.queued, queued := [] }
  | .header i cb =>
    s.onCall i fun call =>
      if s.receives ∨ cb ∉ call.waiting then s
      else if cb.prev.any fun p => p ∈ call.waiting then
        s.modify i fun call => { call with receiving := some cb, linked := true }
      else
        s.modify i fun call =>
          { call with receiving := some cb, waiting := call.waiting.erase cb }
  | .reply i c =>
    s.onCall i fun call =>
      match call.receiving with
      | none => s
      | some cb => if call.linked then s.crash else s.endReceiving i cb c
  | .interim i cb c =>
    s.onCall i fun call =>
      if s.passthrough ∧ cb ∈ call.waiting then s.complete i cb c else s
  | .timeoutOut i => s.onCall i fun call => s.dropQueued i call ioTimeout
  | .timeoutWait i cb =>
    s.onCall i fun call => if cb ∈ call.waiting then s.endWaiting i cb ioTimeout else s
  | .abandon i =>
    s.onCall i fun call =>
      if call.inside then
        (s.onFailure i call).modify i fun call' =>
          { call' with inside := false, abandoned := call.pending ≠ [] }
      else s
  | .finish i =>
    s.onCall i fun call =>
      match s.block call with
      | none => s
      | some b =>
        if call.inside ∧ b.isFinished then
          (s.onSuccess i call b).modify i fun call => { call with inside := false }
        else s
  | .application fh close =>
    if (s.handles fh).released then s.crash
    else { s.setHandle fh {} with others := s.others ++ [(fh, close)] }
  | .applicationDone fh close status =>
    if (fh, close) ∈ s.others then s.endOther fh close status else s
  | .destroy => { s with destroying := true }
  | .shutdown i => s.onCall i fun call => s.shutdownNext i call
  | .free =>
    if s.drained then
      { s.note (.released .context) with connectCbData := none, destroyed := true }
    else s

def step (s : State) (x : Step) : State :=
  if s.crashed || s.destroyed || !s.admits x then s else s.perform x

def run (s : State) (steps : List Step) : State := steps.foldl step s

end State

/-! ## What is asked of a run -/

/-- The callback finds what it reads: a reply where `fstat_cb_1` looks at one, and a buffer
where a QUERY_INFO has succeeded. -/
def Readable (c : Completion) (op : World) : Cb → Prop
  | .fstatCb1 => c.payload = true ∧ (c.status = 0 → c.info ≠ none)
  | .getinfoCb2 =>
    ∀ kept, op.block = some kept → keepFirst kept c.status = 0 →
      c.payload = true ∧ c.info ≠ none
  | _ => True

/-- A completion that does no harm: the last request of a chain is the last one outstanding, the
handle of a flush or a close holds the callback of the call and has not been freed, nor has one
whose offset is moved, and the callback finds what it reads. -/
structure Fit (s : State) (i : Nat) (call : Call) (cb : Cb) (c : Completion) : Prop where
  last : cb.keeps = false → call.pending = [cb]
  own : ∀ fh, cb.through = some fh → s.handles fh = { cb := some i, released := false }
  open' : ∀ fh, cb.moves = some fh → c.status = 0 → (s.handles fh).released = false
  readable : Readable c call.op cb

/-- What a failing wait may leave outstanding. -/
def Abandonable (call : Call) : Prop :=
  call.pending = [] ∨
    match call.wrapper with
    | .open | .close _ | .notifyChange | .shareEnum => False
    | .opendir => call.pending = [.opendirCb] ∧ call.receiving = none
    | _ => True

/-- The condition on a step, in the state where it is made. -/
def Met (s : State) : Step → Prop
  | .call wrapper => ∀ fh, wrapper.fh = some fh → (s.handles fh).released = false
  | .header i cb =>
    ∀ call, s.calls[i]? = some call → ∀ p, cb.prev = some p → p ∉ call.waiting
  | .reply i c =>
    ∀ call, s.calls[i]? = some call → ∀ cb, call.receiving = some cb → Fit s i call cb c
  | .interim _ _ _ => s.passthrough = false
  | .timeoutOut i =>
    ∀ call, s.calls[i]? = some call → ∀ cb rest, call.queued = cb :: rest →
      (call.abandoned = true → rest = []) ∧ Fit s i call cb ioTimeout
  | .timeoutWait i cb =>
    ∀ call, s.calls[i]? = some call → cb ∈ call.waiting → Fit s i call cb ioTimeout
  | .abandon i => ∀ call, s.calls[i]? = some call → call.inside = true → Abandonable call
  | .application fh _ => (s.handles fh).released = false
  | .applicationDone fh _ _ => s.handles fh = {}
  | .shutdown i =>
    ∀ call, s.calls[i]? = some call →
      (∀ cb rest, call.queued = cb :: rest →
        (call.abandoned = true → rest = []) ∧ Fit s i call cb shutDown)
      ∧ (call.queued = [] → ∀ cb, call.receiving.or call.waiting.head? = some cb →
        Fit s i call cb shutDown)
  | _ => True

/-- Every step of a run meets the condition where it is made. -/
def RunMet : State → List Step → Prop
  | _, [] => True
  | s, x :: xs => Met s x ∧ RunMet (s.step x) xs

/-- No callback has found its block gone, nothing has been used after it was freed, and when
the context has been destroyed the block of each call that was left behind has been released
once. -/
structure Kept (s : State) : Prop where
  found : ∀ cell, .called cell false ∉ s.log
  sound : s.crashed = false
  once : s.destroyed = true → ∀ i call, s.calls[i]? = some call → call.abandoned = true →
    s.log.count (.released (State.cell i call)) = 1

end Libsmb2.SyncCalls
