import Libsmb2.Commands
import Libsmb2.Errors

/-!
# Watching a directory

`smb2_notify_change_filehandle_async` and `notify_change_cb` of `libsmb2.c`.  A watch is a
request that is outstanding with a block; a looping one is armed again from the block after
every reply.  What the nested event loop of `smb2_close` comes to is given with the completion,
as are the outcomes of the allocations of the next request.  The texts made with `strerror` are
left out.

* `decodeChanges_records` — a chain of records in the reply is read as it stands;
* `step_meets_iff` — what one completion does for a watch, and when that is what it should;
* `watches_are_kept_up` — the same for the whole run of a watch.
-/

set_option autoImplicit false

namespace Libsmb2.ChangeNotify

open Util

/-! ## Changes -/

/-- `struct smb2_file_notify_change_information`, one node of the list. -/
structure Change where
  action : Nat := 0
  name : Option Bytes := none
  deriving DecidableEq, Repr

/-- A field of four octets. -/
def u32 (vec : Bytes) (off : Nat) : Nat := fromLe (slice vec off 4)

/-- The name of the record at `off`. -/
def nameAt (vec : Bytes) (off : Nat) : Bytes :=
  utf16ToUtf8 (utf16Units (slice vec (off + 12) (u32 vec (off + 8) / 2 * 2)))

/-- `smb2_decode_filenotifychangeinformation`, from the node for the record at `off`.  `none`
is a read behind the reply, or a chain that leads back into itself: there are `vec.length + 1`
offsets at which the first comparison lets the function go on. -/
def decodeChanges (vec : Bytes) : Nat → Nat → Option (List Change)
  | 0, _ => none
  | calls + 1, off =>
    -- the comparison is unsigned: an offset close to the end of the range passes it
    if vec.length < (off + 12) % 4294967296 then some [{}]
    else if vec.length < off + 12 then none
    else if vec.length < off + 12 + u32 vec (off + 8) / 2 * 2 then none
    else
      let change : Change := ⟨u32 vec (off + 4), some (nameAt vec off)⟩
      if u32 vec off ≠ 0 then
        (decodeChanges vec calls ((off + u32 vec off) % 4294967296)).map (change :: ·)
      else some [change]

/-- The buffer of a reply, decoded. -/
def decodeReply (output : Bytes) : Option (List Change) :=
  decodeChanges output (output.length + 2) 0

/-! ## The watch -/

/-- `struct notify_change_cb_data`.  Its `status` is never set. -/
structure Block where
  /-- The watch has a callback. -/
  cb : Bool
  fh : FileId
  filter : UInt16
  flags : UInt32
  loop : UInt32

inductive Event
  | setError (text : String)
  /-- A CHANGE_NOTIFY request is queued. -/
  | requested (req : ChangeNotifyArgs)
  /-- The callback of the application is called. -/
  | report (status : Int) (changes : Option (List Change))
  /-- `smb2_close` closes the directory. -/
  | closed (fh : FileId)

/-- The outstanding request of a watch, and what has happened.  `lost` is a read behind a
reply. -/
structure World where
  pending : Option Block := none
  lost : Bool := false
  log : List Event := []

/-- What the allocations of a request come to. -/
inductive Alloc
  | noBlock
  | noPdu
  | granted
  deriving DecidableEq, Repr

def DEFAULT_OUTPUT_BUFFER_LENGTH : UInt32 := 0xffff

/-- The request of a watch. -/
def changeNotifyRequest (fh : FileId) (flags : UInt16) (filter : UInt32) : ChangeNotifyArgs where
  flags := flags.toNat
  outputBufferLength := DEFAULT_OUTPUT_BUFFER_LENGTH
  fileId := fh
  completionFilter := filter.toNat

/-- `smb2_notify_change_filehandle_async`. -/
def notifyChangeFilehandleAsync (alloc : Alloc) (fh : FileId) (flags : UInt16) (filter loop : UInt32)
    (cb : Bool) (w : World) : Int × World :=
  match alloc with
  | .noBlock =>
    (-1, { w with log := w.log ++ [.setError "Failed to allocate notify_change_data"] })
  | .noPdu =>
    (-1, { w with log := w.log ++ [.setError "Failed to create change_notify command\n"] })
  | .granted =>
    -- the block has 16 bits for the filter
    let block : Block := ⟨cb, fh, filter.toUInt16, flags.toUInt32, loop⟩
    (0, { w with
      pending := some block
      log := w.log ++ [.requested (changeNotifyRequest fh flags filter)] })

/-- `output` and `output_buffer_length` of a `struct smb2_change_notify_reply`. -/
structure Reply where
  output : Bytes
  short : output.length < 2 ^ 32

/-- A completion of the request: the status and the reply if there is one, the allocations of a
further request, whether `smb2_close` can close the directory, and whether the connection
lives on. -/
structure Completion where
  status : UInt32
  reply : Option Reply := none
  rearm : Alloc := .granted
  closes : Bool := true
  live : Bool := true

/-- The callback of the application, if it gave one. -/
def Block.tell (b : Block) (status : Int) (changes : Option (List Change)) : List Event :=
  if b.cb then [.report status changes] else []

/-- `smb2_close`, inside the callback. -/
def closeEvents (fh : FileId) (c : Completion) : List Event := if c.closes then [.closed fh] else []

/-- The status of a callback without a reply. -/
def errorStatus (status : UInt32) : Int := if status ≠ 0 then toInt32 status.toNat else - EIO

/-- `notify_change_cb`. -/
def notifyChangeCb (b : Block) (c : Completion) (w : World) : World :=
  let w := { w with pending := none }
  match if c.status ≠ 0 then none else c.reply with
  | none => { w with log := w.log ++ b.tell (errorStatus c.status) none }
  | some rep =>
    match decodeReply rep.output with
    | none => { w with lost := true }
    | some changes =>
      let w := { w with log := w.log ++ b.tell (-nterrorToErrno 0) (some changes) }
      if b.loop ≠ 0 then
        (notifyChangeFilehandleAsync c.rearm b.fh b.flags.toUInt16 b.filter.toUInt32 b.loop b.cb w).2
      else { w with log := w.log ++ closeEvents b.fh c }

/-- `smb2_notify_change_async`, with the directory that `smb2_open` has opened. -/
def notifyChangeAsync (alloc : Alloc) (opened : Option FileId) (flags : UInt16)
    (filter loop : UInt32) (cb : Bool) : Int × World :=
  match opened with
  | none => (-1, {})
  | some fh => notifyChangeFilehandleAsync alloc fh flags filter loop cb {}

/-! ## Runs -/

/-- The arguments of a watch, and the directory. -/
structure Watch where
  fh : FileId
  flags : UInt16
  filter : UInt32
  loop : UInt32
  cb : Bool

def Watch.start (a : Watch) (alloc : Alloc) : Int × World :=
  notifyChangeAsync alloc (some a.fh) a.flags a.filter a.loop a.cb

/-- The completions of a watch, each with what the callback did.  A watch without a request has
ended. -/
def history (w : World) : List Completion → List (Completion × List Event)
  | [] => []
  | c :: cs =>
    match w.pending with
    | none => []
    | some b =>
      let w' := notifyChangeCb b c w
      (c, w'.log.drop w.log.length) :: history w' cs

/-! ## What a watch should do -/

/-- The records of a change list, from the one at `off`. -/
inductive Records (vec : Bytes) : Nat → List Change → Prop
  | last {off : Nat} (hfits : off + 12 + u32 vec (off + 8) / 2 * 2 ≤ vec.length)
      (hnext : u32 vec off = 0) :
      Records vec off [⟨u32 vec (off + 4), some (nameAt vec off)⟩]
  | next {off : Nat} {changes : List Change}
      (hfits : off + 12 + u32 vec (off + 8) / 2 * 2 ≤ vec.length) (hnext : u32 vec off ≠ 0)
      (hrest : Records vec (off + u32 vec off) changes) :
      Records vec off (⟨u32 vec (off + 4), some (nameAt vec off)⟩ :: changes)

/-- The changes in the buffer of a reply; one that is too short for a record has none. -/
def IsChanges (output : Bytes) (changes : List Change) : Prop :=
  Records output 0 changes ∨ output.length < 12 ∧ changes = []

/-- The list that is handed to the application stands for these changes: a blank node is no
change. -/
def Carries (data changes : List Change) : Prop := data = changes ∨ changes = [] ∧ data = [{}]

def reports (events : List Event) : List (Int × Option (List Change)) :=
  events.filterMap fun
    | .report status changes => some (status, changes)
    | _ => none

def requests (events : List Event) : List ChangeNotifyArgs :=
  events.filterMap fun
    | .requested req => some req
    | _ => none

def closes (events : List Event) : List FileId :=
  events.filterMap fun
    | .closed fh => some fh
    | _ => none

/-- The watch ends: nothing is queued, and the directory is closed if the connection lives. -/
def Ends (a : Watch) (c : Completion) (events : List Event) : Prop :=
  requests events = [] ∧ (c.live = true → closes events = [a.fh])

/-- What should come of a reply: one callback with its changes; a looping watch is armed again as
it was, or says that it cannot be. -/
def MeetsReply (a : Watch) (c : Completion) (rep : Reply) (events : List Event) : Prop :=
  ∃ data changes, IsChanges rep.output changes ∧ Carries data changes ∧
    if a.loop ≠ 0 then
      (reports events = [(0, some data)] ∧ closes events = []
          ∧ requests events = [changeNotifyRequest a.fh a.flags a.filter])
        ∨ ∃ status, status ≠ 0 ∧ reports events = [(0, some data), (status, none)] ∧ Ends a c events
    else reports events = [(0, some data)] ∧ Ends a c events

/-- What should come of a completion. -/
def Meets (a : Watch) (c : Completion) (events : List Event) : Prop :=
  match if c.status ≠ 0 then none else c.reply with
  | some rep => MeetsReply a c rep events
  | none => ∃ status, status ≠ 0 ∧ reports events = [(status, none)] ∧ Ends a c events

/-- A watch that is kept up: every completion does what it should, and the directory is closed at
most once in the whole run. -/
def KeptUp (a : Watch) (steps : List (Completion × List Event)) : Prop :=
  (∀ s ∈ steps, Meets a s.1 s.2) ∧ (closes (steps.flatMap Prod.snd)).length ≤ 1

/-- The completion is one that the code handles: the reply is a chain of records; a looping
watch has a filter of 16 bits and gets its next request; a watch that ends with a reply can be
closed; and one that ends with an error does so with the connection. -/
def Fine (a : Watch) (c : Completion) : Prop :=
  a.cb = true ∧
    match if c.status ≠ 0 then none else c.reply with
    | some rep => (∃ changes, IsChanges rep.output changes) ∧
        if a.loop ≠ 0 then c.rearm = .granted ∧ a.filter.toNat < 65536
        else c.live = true → c.closes = true
    | none => c.live = false

/-! ## Reading a change list -/

theorem Records.length_le {vec : Bytes} {off : Nat} {changes : List Change}
    (h : Records vec off changes) : changes.length + off ≤ vec.length := by
  induction h with
  | last hfits _ =>
    simp only [List.length_singleton]
    omega
  | next hfits hnext _ ih =>
    simp only [List.length_cons]
    omega

theorem Records.fits {vec : Bytes} {off : Nat} {changes : List Change}
    (h : Records vec off changes) : off + 12 + u32 vec (off + 8) / 2 * 2 ≤ vec.length := by
  cases h with
  | last hfits _ => exact hfits
  | next hfits _ _ => exact hfits

/-- **A chain of records is read as it stands.** -/
theorem decodeChanges_records {vec : Bytes} {off calls : Nat} {changes : List Change}
    (h : Records vec off changes) (hvec : vec.length < 2 ^ 32) (hcalls : changes.length ≤ calls) :
    decodeChanges vec calls off = some changes := by
  induction h generalizing calls with
  | @last off hfits hnext =>
    cases calls with
    | zero => simp at hcalls
    | succ calls =>
      rw [decodeChanges, Nat.mod_eq_of_lt (by omega), if_neg (by omega), if_neg (by omega),
        if_neg (by omega)]
      simp [hnext]
  | @next off changes hfits hnext hrest ih =>
    cases calls with
    | zero => simp at hcalls
    | succ calls =>
      have hplace := hrest.fits
      have hlen : changes.length ≤ calls := by simpa using hcalls
      have hstep := ih hlen
      rw [decodeChanges, Nat.mod_eq_of_lt (by omega), if_neg (by omega), if_neg (by omega),
        if_neg (by omega)]
      simp only [if_pos hnext]
      rw [Nat.mod_eq_of_lt (by omega), hstep]
      rfl

/-- The changes of a reply reach the application. -/
theorem decodeReply_changes {rep : Reply} {changes : List Change}
    (h : IsChanges rep.output changes) :
    ∃ data, decodeReply rep.output = some data ∧ Carries data changes := by
  have hshort := rep.short
  rcases h with hrecords | ⟨hlen, rfl⟩
  · have hlen := hrecords.length_le
    exact ⟨changes, decodeChanges_records hrecords hshort (by omega), .inl rfl⟩
  · refine ⟨[{}], ?_, .inr ⟨rfl, rfl⟩⟩
    rw [decodeReply, decodeChanges, if_pos (by simpa using hlen)]

/-! ## One completion -/

/-- The block of a watch, in every request of it. -/
def Watch.block (a : Watch) : Block := ⟨a.cb, a.fh, a.filter.toUInt16, a.flags.toUInt32, a.loop⟩

section
variable {a : Watch} {c : Completion}

/-- What is left of a filter. -/
def Watch.kept (a : Watch) : UInt32 := a.filter.toUInt16.toUInt32

theorem Watch.kept_eq_iff (a : Watch) :
    changeNotifyRequest a.fh a.flags a.kept = changeNotifyRequest a.fh a.flags a.filter
      ↔ a.filter.toNat < 65536 := by
  have hkept : a.kept.toNat = a.filter.toNat % 65536 := by simp [Watch.kept]
  constructor
  · intro h
    have hfilter := congrArg ChangeNotifyArgs.completionFilter h
    simp only [changeNotifyRequest, hkept] at hfilter
    omega
  · intro h
    simp [changeNotifyRequest, hkept, Nat.mod_eq_of_lt h]

/-- Arming a watch again from its block. -/
theorem rearm_eq (alloc : Alloc) (w : World) :
    (notifyChangeFilehandleAsync alloc a.block.fh a.block.flags.toUInt16 a.block.filter.toUInt32
        a.loop a.block.cb w).2
      = match alloc with
        | .noBlock => { w with log := w.log ++ [.setError "Failed to allocate notify_change_data"] }
        | .noPdu =>
          { w with log := w.log ++ [.setError "Failed to create change_notify command
"] }
        | .granted => { w with
            pending := some a.block
            log := w.log ++ [.requested (changeNotifyRequest a.fh a.flags a.kept)] } := by
  have hfilter : a.kept.toUInt16 = a.filter.toUInt16 := by
    apply UInt16.toNat_inj.mp
    simp [Watch.kept]
  have hkept : a.block.filter.toUInt32 = a.kept := rfl
  have hflags : a.block.flags.toUInt16 = a.flags := by simp [Watch.block]
  cases alloc with
  | noBlock => rfl
  | noPdu => rfl
  | granted =>
    simp only [notifyChangeFilehandleAsync, hkept, hflags, hfilter]
    rfl

theorem toInt32_ne_zero {status : UInt32} (h : status ≠ 0) : toInt32 status.toNat ≠ 0 := by
  have hlt := status.toNat_lt
  have hne : status.toNat ≠ 0 := fun h0 => h (UInt32.toNat_inj.mp h0)
  unfold toInt32
  simp only
  split <;> omega

theorem errorStatus_ne_zero (status : UInt32) : errorStatus status ≠ 0 := by
  unfold errorStatus
  split_ifs with h
  · exact toInt32_ne_zero h
  · decide

/-- What the code does beyond the callback with the changes. -/
def followUp (a : Watch) (c : Completion) : List Event :=
  if a.loop ≠ 0 then
    match c.rearm with
    | .noBlock => [.setError "Failed to allocate notify_change_data"]
    | .noPdu => [.setError "Failed to create change_notify command
"]
    | .granted => [.requested (changeNotifyRequest a.fh a.flags a.kept)]
  else closeEvents a.fh c

/-- What the callback does, beyond what was logged. -/
def doneBy (a : Watch) (c : Completion) : List Event :=
  match if c.status ≠ 0 then none else c.reply with
  | none => a.block.tell (errorStatus c.status) none
  | some rep =>
    match decodeReply rep.output with
    | none => []
    | some changes => a.block.tell 0 (some changes) ++ followUp a c

theorem notifyChangeCb_log (w : World) :
    (notifyChangeCb a.block c w).log = w.log ++ doneBy a c := by
  have herrno : -nterrorToErrno 0 = 0 := rfl
  have hloop : a.block.loop = a.loop := rfl
  simp only [notifyChangeCb, doneBy, followUp, herrno, hloop]
  cases if c.status ≠ 0 then none else c.reply with
  | none => rfl
  | some rep =>
    cases hdecode : decodeReply rep.output with
    | none => simp [hdecode]
    | some changes =>
      simp only [hdecode]
      by_cases hzero : a.loop = 0
      · simp [hzero, Watch.block]
      · simp only [ne_eq, hzero, not_false_eq_true, if_true, rearm_eq]
        cases c.rearm <;> simp

/-- The request of a watch always has its block. -/
theorem notifyChangeCb_pending (w : World) :
    (notifyChangeCb a.block c w).pending = none
      ∨ (notifyChangeCb a.block c w).pending = some a.block := by
  have hloop : a.block.loop = a.loop := rfl
  simp only [notifyChangeCb, hloop]
  cases if c.status ≠ 0 then none else c.reply with
  | none => exact .inl rfl
  | some rep =>
    cases hdecode : decodeReply rep.output with
    | none => simp [hdecode]
    | some changes =>
      simp only [hdecode]
      by_cases hzero : a.loop = 0
      · simp [hzero]
      · simp only [ne_eq, hzero, not_false_eq_true, if_true, rearm_eq]
        cases c.rearm <;> simp

/-! ## What a completion should do -/

theorem reports_append (x y : List Event) : reports (x ++ y) = reports x ++ reports y := by
  simp [reports]

theorem requests_append (x y : List Event) : requests (x ++ y) = requests x ++ requests y := by
  simp [requests]

theorem closes_append (x y : List Event) : closes (x ++ y) = closes x ++ closes y := by
  simp [closes]

theorem reports_tell (b : Block) (status : Int) (changes : Option (List Change)) :
    reports (b.tell status changes) = if b.cb then [(status, changes)] else [] := by
  unfold Block.tell
  split <;> rfl

theorem requests_tell (b : Block) (status : Int) (changes : Option (List Change)) :
    requests (b.tell status changes) = [] := by
  unfold Block.tell
  split <;> rfl

theorem closes_tell (b : Block) (status : Int) (changes : Option (List Change)) :
    closes (b.tell status changes) = [] := by
  unfold Block.tell
  split <;> rfl

theorem reports_followUp (a : Watch) (c : Completion) : reports (followUp a c) = [] := by
  unfold followUp closeEvents
  cases c.rearm <;> split_ifs <;> rfl

theorem requests_followUp (a : Watch) (c : Completion) :
    requests (followUp a c) = if a.loop ≠ 0 ∧ c.rearm = .granted
      then [changeNotifyRequest a.fh a.flags a.kept] else [] := by
  unfold followUp closeEvents
  cases c.rearm <;> split_ifs <;> simp_all [requests]

theorem closes_followUp (a : Watch) (c : Completion) :
    closes (followUp a c) = if a.loop = 0 ∧ c.closes = true then [a.fh] else [] := by
  unfold followUp closeEvents
  cases c.rearm <;> split_ifs <;> simp_all [closes]

theorem closes_doneBy (a : Watch) (c : Completion) : (closes (doneBy a c)).length ≤ 1 := by
  unfold doneBy
  cases if c.status ≠ 0 then none else c.reply with
  | none => simp [closes_tell]
  | some rep =>
    cases hdecode : decodeReply rep.output with
    | none => simp [hdecode, closes]
    | some changes =>
      simp only [hdecode, closes_append, closes_tell, closes_followUp, List.nil_append]
      split_ifs <;> simp

/-- A watch that ends with an error is closed by nobody. -/
theorem ends_error_iff (status : Int) :
    Ends a c (a.block.tell status none) ↔ c.live = false := by
  simp [Ends, requests_tell, closes_tell]

theorem meetsReply_lost {rep : Reply} (h : decodeReply rep.output = none) (events : List Event) :
    ¬ MeetsReply a c rep events := by
  rintro ⟨data, changes, hchanges, -⟩
  obtain ⟨decoded, hdecoded, -⟩ := decodeReply_changes hchanges
  rw [h] at hdecoded
  cases hdecoded

/-- **A reply.**  What the code does is what it should do exactly if the list is well formed and
the watch can go on, or be closed. -/
theorem meetsReply_iff {rep : Reply} {data : List Change} (h : decodeReply rep.output = some data) :
    MeetsReply a c rep (a.block.tell 0 (some data) ++ followUp a c)
      ↔ a.cb = true ∧ (∃ changes, IsChanges rep.output changes) ∧
        if a.loop ≠ 0 then c.rearm = .granted ∧ a.filter.toNat < 65536
        else c.live = true → c.closes = true := by
  have hcb : a.block.cb = a.cb := rfl
  unfold MeetsReply Ends
  simp only [reports_append, requests_append, closes_append, reports_tell, requests_tell,
    closes_tell, reports_followUp, requests_followUp, closes_followUp, hcb, List.append_nil,
    List.nil_append]
  constructor
  · rintro ⟨data', changes, hchanges, hcarries, hmeets⟩
    by_cases hloop : a.loop = 0
    · simp only [hloop, ne_eq, not_true_eq_false, if_false, true_and] at hmeets ⊢
      obtain ⟨hreports, -, hclosed⟩ := hmeets
      have htold : a.cb = true := by
        by_contra hsilent
        simp [hsilent] at hreports
      refine ⟨htold, ⟨changes, hchanges⟩, fun hlive => ?_⟩
      by_contra hopen
      simpa [hopen] using hclosed hlive
    · simp only [ne_eq, hloop, not_false_eq_true, if_true, true_and, false_and, if_false] at hmeets ⊢
      rcases hmeets with ⟨hreports, hrequests⟩ | ⟨status, -, hreports, -⟩
      · have htold : a.cb = true := by
          by_contra hsilent
          simp [hsilent] at hreports
        by_cases hrearm : c.rearm = .granted
        · rw [if_pos hrearm] at hrequests
          exact ⟨htold, ⟨changes, hchanges⟩, hrearm, a.kept_eq_iff.mp (List.cons.inj hrequests).1⟩
        · exact absurd hrequests (by simp [hrearm])
      · -- the application is never told that a watch could not be armed again
        split_ifs at hreports
        have hlen := congrArg List.length hreports
        simp at hlen
  · rintro ⟨htold, ⟨changes, hchanges⟩, hrest⟩
    obtain ⟨data', hdata', hcarries⟩ := decodeReply_changes hchanges
    rw [h] at hdata'
    obtain rfl := Option.some.inj hdata'
    refine ⟨data, changes, hchanges, hcarries, ?_⟩
    by_cases hloop : a.loop = 0
    · simp only [hloop, ne_eq, not_true_eq_false, if_false, htold, if_true, true_and, false_and]
        at hrest ⊢
      intro hlive
      simp [hrest hlive]
    · simp only [ne_eq, hloop, not_false_eq_true, if_true, htold, true_and, false_and, if_false]
        at hrest ⊢
      left
      rw [if_pos hrest.1, a.kept_eq_iff.mpr hrest.2]

/-- **One completion** of a watch. -/
theorem step_meets_iff (a : Watch) (c : Completion) : Meets a c (doneBy a c) ↔ Fine a c := by
  have hcb : a.block.cb = a.cb := rfl
  unfold Meets Fine doneBy
  cases if c.status ≠ 0 then none else c.reply with
  | none =>
    simp only [reports_tell, ends_error_iff, hcb]
    constructor
    · rintro ⟨status, -, hreports, hlive⟩
      refine ⟨?_, hlive⟩
      by_contra hsilent
      simp [hsilent] at hreports
    · rintro ⟨htold, hlive⟩
      exact ⟨errorStatus c.status, errorStatus_ne_zero c.status, by simp [htold], hlive⟩
  | some rep =>
    cases hdecode : decodeReply rep.output with
    | none =>
      refine iff_of_false (meetsReply_lost hdecode _) ?_
      rintro ⟨-, ⟨changes, hchanges⟩, -⟩
      obtain ⟨data, hdata, -⟩ := decodeReply_changes hchanges
      rw [hdecode] at hdata
      cases hdata
    | some data =>
      simp only [hdecode]
      exact meetsReply_iff hdecode

/-! ## The run -/

/-- The steps of a watch are its completions, with what each did. -/
theorem mem_history {w : World} {cs : List Completion} {s : Completion × List Event}
    (hw : w.pending = none ∨ w.pending = some a.block) (h : s ∈ history w cs) :
    s.2 = doneBy a s.1 := by
  induction cs generalizing w with
  | nil => cases h
  | cons c cs ih =>
    rcases hw with hnone | hsome
    · rw [history, hnone] at h
      cases h
    · rw [history, hsome] at h
      rcases List.mem_cons.mp h with rfl | hrest
      · simp [notifyChangeCb_log]
      · exact ih (notifyChangeCb_pending w) hrest

theorem start_pending (a : Watch) (alloc : Alloc) :
    (a.start alloc).2.pending = none ∨ (a.start alloc).2.pending = some a.block := by
  cases alloc with
  | noBlock => exact .inl rfl
  | noPdu => exact .inl rfl
  | granted => exact .inr rfl

/-- A watch that goes on has not closed its directory. -/
theorem closes_of_pending {w : World} (h : (notifyChangeCb a.block c w).pending ≠ none) :
    closes (doneBy a c) = [] := by
  have hloop : a.block.loop = a.loop := rfl
  simp only [notifyChangeCb, doneBy, hloop] at h ⊢
  cases hrep : (if c.status ≠ 0 then none else c.reply) with
  | none => simp [hrep] at h
  | some rep =>
    simp only [hrep] at h ⊢
    cases hdecode : decodeReply rep.output with
    | none => rfl
    | some changes =>
      simp only [hdecode] at h ⊢
      by_cases hzero : a.loop = 0
      · simp [hzero] at h
      · simp [closes_append, closes_tell, closes_followUp, hzero]

/-- A directory is closed by the last step alone. -/
theorem closes_history {w : World} (cs : List Completion)
    (hw : w.pending = none ∨ w.pending = some a.block) :
    (closes ((history w cs).flatMap Prod.snd)).length ≤ 1 := by
  induction cs generalizing w with
  | nil => simp [history, closes]
  | cons c cs ih =>
    rcases hw with hnone | hsome
    · simp [history, hnone, closes]
    · simp only [history, hsome, List.flatMap_cons, notifyChangeCb_log, List.drop_left,
        closes_append, List.length_append]
      rcases notifyChangeCb_pending (a := a) (c := c) w with hended | hgoes
      · -- nothing completes behind the end
        have hrest : history (notifyChangeCb a.block c w) cs = [] := by
          cases cs with
          | nil => rfl
          | cons d ds => simp [history, hended]
        rw [hrest]
        have hone : (closes (doneBy a c)).length ≤ 1 := closes_doneBy a c
        simpa [closes] using hone
      · have hnow := closes_of_pending (a := a) (c := c) (w := w) (by simp [hgoes])
        have hlater := ih (.inr hgoes)
        rw [hnow]
        simpa using hlater

/-- **A watch over its whole run.**  It is kept up exactly if every completion is one that the
code handles. -/
theorem watches_are_kept_up (a : Watch) (alloc : Alloc) (cs : List Completion) :
    KeptUp a (history (a.start alloc).2 cs)
      ↔ ∀ s ∈ history (a.start alloc).2 cs, Fine a s.1 := by
  have hpending := start_pending a alloc
  have hsteps : (∀ s ∈ history (a.start alloc).2 cs, Meets a s.1 s.2)
      ↔ ∀ s ∈ history (a.start alloc).2 cs, Fine a s.1 := by
    refine forall₂_congr fun s hs => ?_
    rw [mem_history hpending hs]
    exact step_meets_iff a s.1
  exact ⟨fun h => hsteps.mp h.1, fun h => ⟨hsteps.mpr h, closes_history cs hpending⟩⟩

end

/-! ## Watches that are not -/

/-- A watch of the names in a directory. -/
def someWatch (filter loop : UInt32) : Watch := ⟨⟨zeros 16, length_zeros 16⟩, 0, filter, loop, true⟩

/-- A reply with one change. -/
def oneChange : Reply := ⟨zeros 12, by decide⟩

theorem history_single (a : Watch) (c : Completion) :
    history (a.start .granted).2 [c] = [(c, doneBy a c)] := by
  have hpending : (a.start .granted).2.pending = some a.block := rfl
  simp only [history, hpending, notifyChangeCb_log, List.drop_left]

theorem fine_of_keptUp {a : Watch} {c : Completion}
    (h : KeptUp a (history (a.start .granted).2 [c])) : Fine a c := by
  rw [history_single] at h
  exact (step_meets_iff a c).mp (h.1 _ (List.mem_singleton_self _))

/-- An error on a connection that lives on leaves the directory open, and a filter of more than
16 bits is lost with the first reply. -/
theorem watches_are_lost :
    ¬ KeptUp (someWatch 1 1)
        (history ((someWatch 1 1).start .granted).2 [{ status := 0xC00000B5 }])
      ∧ ¬ KeptUp (someWatch 0x10000 1)
        (history ((someWatch 0x10000 1).start .granted).2
          [{ status := 0, reply := some oneChange }]) := by
  constructor
  · intro h
    have hfine := fine_of_keptUp h
    simp [Fine] at hfine
  · intro h
    have hfine := fine_of_keptUp h
    simp [Fine, someWatch] at hfine

end Libsmb2.ChangeNotify
