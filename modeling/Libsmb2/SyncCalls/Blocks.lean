import Libsmb2.SyncCalls

/-!
# Blocks of synchronous calls

What a run of synchronous calls keeps about their blocks.

* `Cb.run_keeps`, `Cb.run_ends` — what a callback of an operation tells, and what it leaves;
* `State.Frame` — a step on one call, as the others see it;
* `step_good`, `run_good` — the invariant over a step and over a run;
* `abandoned_blocks_are_released_once` — the block of a call that was left behind is there at
  every completion and is released once.
-/

set_option autoImplicit false

namespace Libsmb2.SyncCalls

open Util PathOps

/-! ## What the callbacks do -/

variable {w : World}

theorem withBlock_eq {kept : UInt32} (h : w.block = some kept) (f : UInt32 → World) :
    withBlock w f = f kept := by
  simp [withBlock, h]

namespace Cb

/-- What a callback adds to the log of its operation, and what it leaves. -/
structure Ran (w w' : World) (told : List (Int × Bool)) : Prop where
  log : ∃ events, w'.log = w.log ++ events ∧ reports events = told
  crashed : w'.crashed = w.crashed

theorem Ran.told {w w' : World} {told : List (Int × Bool)} (h : Ran w w' told) :
    reports (w'.log.drop w.log.length) = told := by
  obtain ⟨events, hlog, htold⟩ := h.log
  rw [hlog, List.drop_left, htold]

theorem settle_ran (status : Int) (data : Bool) (w : World) :
    Ran w (settle status data w) [(status, data)] :=
  ⟨⟨[.report status data, .freeBlock], by simp [settle, World.note], rfl⟩, rfl⟩

theorem settles_ran (status : Int) (data : Bool) (h : w.block ≠ none) :
    Ran w (settles status data w) [(status, data)] := by
  obtain ⟨kept, hkept⟩ := Option.ne_none_iff_exists'.mp h
  rw [settles, withBlock_eq hkept]
  exact settle_ran status data w

theorem report_ran (status : Int) (data : Bool) (w : World) :
    Ran w (w.note (.report status data)) [(status, data)] :=
  ⟨⟨[.report status data], rfl, rfl⟩, rfl⟩

theorem handsOver_ran (c : Completion) (h : w.block ≠ none) :
    ∃ told, Ran w (handsOver c w) [told] := by
  obtain ⟨kept, hkept⟩ := Option.ne_none_iff_exists'.mp h
  rw [handsOver, withBlock_eq hkept]
  split_ifs with hstatus
  · exact ⟨_, settle_ran c.errno false w⟩
  · exact ⟨_, report_ran 0 true w⟩

theorem keepStatus_ran (status : UInt32) (h : w.block ≠ none) :
    Ran w (keepStatus status w) [] ∧ (keepStatus status w).block ≠ none := by
  obtain ⟨kept, hkept⟩ := Option.ne_none_iff_exists'.mp h
  rw [keepStatus, withBlock_eq hkept]
  exact ⟨⟨⟨[], by simp, rfl⟩, rfl⟩, Option.some_ne_none _⟩

theorem reportStatus_ran (data : Bool) (status : UInt32) (h : w.block ≠ none) :
    ∃ told, Ran w (reportStatus data status w) [told] := by
  obtain ⟨kept, hkept⟩ := Option.ne_none_iff_exists'.mp h
  rw [reportStatus, withBlock_eq hkept]
  exact ⟨_, settle_ran (-nterrorToErrno (keepFirst kept status).toNat) data w⟩

/-- `fstat_cb_1` reports once where it has what it reads. -/
theorem fstat_ran {c : Completion} (h : w.block ≠ none)
    (hr : Readable c w .fstatCb1) : ∃ told, Ran w (fstat c w) [told] := by
  obtain ⟨hpayload, hinfo⟩ := hr
  obtain ⟨kept, hkept⟩ := Option.ne_none_iff_exists'.mp h
  simp only [fstat, Completion.queryInfo, hpayload, if_true]
  split_ifs with hstatus
  · exact ⟨_, settles_ran c.errno false h⟩
  · obtain ⟨info, hsome⟩ := Option.ne_none_iff_exists'.mp (hinfo (not_not.mp hstatus))
    rw [hsome]
    refine ⟨(0, true), ⟨[.readBuffer, .report 0 true, .freeBlock], ?_, rfl⟩, ?_⟩
    · simp [settles, withBlock, hkept, settle, World.note]
    · simp [settles, withBlock, hkept, settle, World.note]

/-- A callback that only keeps something. -/
theorem run_keeps {cb : Cb} {c : Completion} (hk : cb.keeps = true)
    (h : w.block ≠ none) (hr : Readable c w cb) :
    Ran w (cb.run c w) [] ∧ (cb.run c w).block ≠ none ∧ cb.next c = none := by
  cases cb <;> first | exact Bool.noConfusion (show false = true from hk) | skip
  case createCb1 => exact ⟨⟨⟨[], by simp [run], rfl⟩, rfl⟩, h, rfl⟩
  case getinfoCb2 =>
    obtain ⟨kept, hkept⟩ := Option.ne_none_iff_exists'.mp h
    have hbuffer : keepFirst kept c.status = 0 →
        c.queryInfo.bind QueryInfoReply.outputBuffer ≠ none := by
      intro hzero
      obtain ⟨hpayload, hinfo⟩ := hr kept hkept hzero
      simpa [Completion.queryInfo, hpayload] using hinfo
    obtain ⟨result, events, hrun, hevents⟩ := getinfoCb2_eq Info.fill hkept hbuffer
    rw [show run c getinfoCb2 w = _ from hrun]
    refine ⟨⟨⟨events, rfl, ?_⟩, rfl⟩, Option.some_ne_none _, rfl⟩
    rcases hevents with rfl | rfl <;> rfl
  case readlinkCb1 =>
    obtain ⟨kept, hkept⟩ := Option.ne_none_iff_exists'.mp h
    rw [show run c readlinkCb1 w = _ from withBlock_eq hkept _]
    exact ⟨⟨⟨[], by simp, rfl⟩, rfl⟩, Option.some_ne_none _, rfl⟩
  all_goals exact ⟨(keepStatus_ran c.status h).1, (keepStatus_ran c.status h).2, rfl⟩

/-- A callback in the middle of an operation goes on or reports once. -/
theorem proceeds_ran (cb : Cb) (c : Completion) (error : Int) (h : w.block ≠ none) :
    (cb.next c = none ∧ ∃ told, Ran w (proceeds cb c error w) [told])
      ∨ ((cb.next c).isSome = true ∧ Ran w (proceeds cb c error w) []
        ∧ (proceeds cb c error w).block ≠ none) := by
  obtain ⟨kept, hkept⟩ := Option.ne_none_iff_exists'.mp h
  rw [proceeds, withBlock_eq hkept]
  cases hnext : cb.next c with
  | none => exact .inl ⟨rfl, _, settle_ran error false w⟩
  | some cb' => exact .inr ⟨rfl, ⟨⟨[.queued], rfl, rfl⟩, rfl⟩, h⟩

/-- A request that a callback queues is a single one that reports. -/
theorem next_keeps {cb cb' : Cb} {c : Completion} (h : cb.next c = some cb') :
    cb'.keeps = false := by
  cases cb <;> simp only [next] at h <;> first | cases h | skip
  all_goals split_ifs at h <;> cases h <;> rfl

/-- A callback at the end of a chain goes on or reports once. -/
theorem run_ends {cb : Cb} {c : Completion} (hk : cb.keeps = false)
    (h : w.block ≠ none) (hr : Readable c w cb) :
    (cb.next c = none ∧ ∃ told, Ran w (cb.run c w) [told])
      ∨ ((cb.next c).isSome = true ∧ Ran w (cb.run c w) [] ∧ (cb.run c w).block ≠ none) := by
  cases cb <;> first | exact Bool.noConfusion (show true = false from hk) | skip
  case connectCb | negotiateCb | sessionSetupCb | disconnectCb1 | opendirCb | queryCb
    | smb2OpenCb | smb2BindCb => exact proceeds_ran _ c _ h
  case odCloseCb | openCb => exact .inl ⟨rfl, handsOver_ran c h⟩
  case closeCb | fsyncCb => exact .inl ⟨rfl, _, report_ran c.errno false w⟩
  case fstatCb1 => exact .inl ⟨rfl, fstat_ran h hr⟩
  case getinfoCb3 | truncCb3 | renameCb3 => exact .inl ⟨rfl, reportStatus_ran _ c.status h⟩
  case readlinkCb3 =>
    obtain ⟨kept, hkept⟩ := Option.ne_none_iff_exists'.mp h
    rw [show run c readlinkCb3 w = _ from withBlock_eq hkept _]
    exact .inl ⟨rfl, _, settle_ran _ true w⟩
  case notifyChangeCb =>
    refine .inl ⟨rfl, ?_⟩
    simp only [run]
    split_ifs with hfailed hstatus
    · exact ⟨_, settles_ran _ false h⟩
    · exact ⟨_, settles_ran _ false h⟩
    · exact ⟨_, settles_ran 0 true h⟩
  all_goals exact .inl ⟨rfl, _, settles_ran _ _ h⟩

end Cb

/-! ## What a step on one call leaves alone -/

namespace State

/-- How often the block of a call has been released. -/
def releases (s : State) (i : Nat) : Nat := s.log.count (.released (.call i))

/-- A step on a call: the other calls stay, and what is logged is about the call. -/
structure Frame (i : Nat) (s s' : State) : Prop where
  calls : ∀ j, j ≠ i → s'.calls[j]? = s.calls[j]?
  length : s'.calls.length = s.calls.length
  log : ∃ events, s'.log = s.log ++ events
    ∧ ∀ e ∈ events, (∃ cell, e = .called cell true) ∨ e = .released (.call i)
  crashed : s'.crashed = s.crashed
  destroyed : s'.destroyed = s.destroyed
  context : s.connectCbData ≠ none → s'.connectCbData ≠ none

variable {i : Nat} {s s' s'' : State}

theorem Frame.refl (i : Nat) (s : State) : Frame i s s :=
  ⟨fun _ _ => rfl, rfl, ⟨[], by simp, by simp⟩, rfl, rfl, id⟩

theorem Frame.trans (h : Frame i s s') (h' : Frame i s' s'') : Frame i s s'' := by
  obtain ⟨events, hlog, hevents⟩ := h.log
  obtain ⟨events', hlog', hevents'⟩ := h'.log
  refine ⟨fun j hj => (h'.calls j hj).trans (h.calls j hj), h'.length.trans h.length,
    ⟨events ++ events', by rw [hlog', hlog, List.append_assoc], ?_⟩,
    h'.crashed.trans h.crashed, h'.destroyed.trans h.destroyed, fun hc => h'.context (h.context hc)⟩
  intro e he
  rcases List.mem_append.mp he with he | he
  · exact hevents e he
  · exact hevents' e he

/-- Nothing is logged but what the frame allows. -/
theorem Frame.releases (h : Frame i s s') {j : Nat} (hj : j ≠ i) :
    s'.releases j = s.releases j := by
  obtain ⟨events, hlog, hevents⟩ := h.log
  have hnone : events.count (.released (.call j)) = 0 := by
    apply List.count_eq_zero.mpr
    intro hmem
    rcases hevents _ hmem with ⟨cell, heq⟩ | heq
    · cases heq
    · exact hj (by injection heq with heq; injection heq)
  rw [State.releases, hlog, List.count_append, hnone, Nat.add_zero, State.releases]

theorem Frame.released_context (h : Frame i s s') :
    s'.log.count (.released .context) = s.log.count (.released .context) := by
  obtain ⟨events, hlog, hevents⟩ := h.log
  have hnone : events.count (.released .context) = 0 := by
    apply List.count_eq_zero.mpr
    intro hmem
    rcases hevents _ hmem with ⟨cell, heq⟩ | heq
    · cases heq
    · injection heq with heq
      cases heq
  rw [hlog, List.count_append, hnone, Nat.add_zero]

theorem Frame.found (h : Frame i s s') (hs : ∀ cell, .called cell false ∉ s.log) :
    ∀ cell, .called cell false ∉ s'.log := by
  obtain ⟨events, hlog, hevents⟩ := h.log
  intro cell hmem
  rw [hlog] at hmem
  rcases List.mem_append.mp hmem with hmem | hmem
  · exact hs cell hmem
  · rcases hevents _ hmem with ⟨cell', heq⟩ | heq
    · injection heq with _ heq
      cases heq
    · cases heq

theorem Frame.modify (i : Nat) (s : State) (f : Call → Call) : Frame i s (s.modify i f) := by
  refine ⟨fun j hj => ?_, List.length_modify _ _ _, ⟨[], by simp [State.modify], by simp⟩, rfl, rfl, id⟩
  simp [State.modify, Ne.symm hj]

theorem Frame.called (i : Nat) (s : State) (cell : Cell) :
    Frame i s (s.note (.called cell true)) :=
  ⟨fun _ _ => rfl, rfl, ⟨_, rfl, fun _ he => .inl ⟨cell, List.mem_singleton.mp he⟩⟩, rfl, rfl, id⟩

theorem Frame.release (i : Nat) (s : State) : Frame i s (s.release i) :=
  (Frame.modify i s _).trans
    ⟨fun _ _ => rfl, rfl, ⟨_, rfl, fun _ he => .inr (List.mem_singleton.mp he)⟩, rfl, rfl, id⟩

theorem Frame.setBlock (i : Nat) (s : State) (call : Call) (b : SyncCbData) :
    Frame i s (s.setBlock i call (some b)) := by
  unfold State.setBlock
  split_ifs with hembedded
  · exact ⟨fun _ _ => rfl, rfl, ⟨[], by simp, by simp⟩, rfl, rfl, fun _ => Option.some_ne_none _⟩
  · exact Frame.modify i s _

theorem modify_call {f : Call → Call} {call : Call} (h : s.calls[i]? = some call) :
    (s.modify i f).calls[i]? = some (f call) := by
  simp [State.modify, h]

@[simp] theorem modify_releases (f : Call → Call) (j : Nat) :
    (s.modify i f).releases j = s.releases j := rfl

@[simp] theorem called_releases (cell : Cell) (b : Bool) (j : Nat) :
    (s.note (.called cell b)).releases j = s.releases j := by
  simp [State.releases, State.note, List.count_append]

@[simp] theorem setHandle_releases (fh : Nat) (h : Handle) (j : Nat) :
    (s.setHandle fh h).releases j = s.releases j := rfl

@[simp] theorem release_releases (s : State) (i : Nat) :
    (s.release i).releases i = s.releases i + 1 := by
  simp [State.releases, State.release, State.note, State.modify, List.count_append]

@[simp] theorem setBlock_releases (call : Call) (b : Option SyncCbData) (j : Nat) :
    (s.setBlock i call b).releases j = s.releases j := by
  unfold State.setBlock
  split_ifs <;> rfl

theorem release_call {call : Call} (h : s.calls[i]? = some call) :
    (s.release i).calls[i]? = some { call with block := none } :=
  modify_call h

theorem setBlock_call {call : Call} (call' : Call) (b : Option SyncCbData)
    (h : s.calls[i]? = some call) :
    ∃ block, (s.setBlock i call' b).calls[i]? = some { call with block := block }
      ∧ (call'.wrapper.embedded = false → block = b) := by
  unfold State.setBlock
  split_ifs with hembedded
  · exact ⟨call.block, h, fun hfalse => by rw [hembedded] at hfalse; cases hfalse⟩
  · exact ⟨b, modify_call h, fun _ => rfl⟩

end State

/-! ## The callback of a wrapper -/

/-- The wrappers that keep to the convention: a callback that finds its block cancelled frees
it. -/
def Wrapper.conventional : Wrapper → Bool
  | .connectShare | .disconnectShare | .opendir | .open | .close _ | .notifyChange
  | .shareEnum => false
  | _ => true

theorem Wrapper.conventional_frees {w : Wrapper} (h : w.conventional = true) (status : Int)
    (data : Bool) {b : SyncCbData} (hb : b.cancelled = true) :
    w.ignores status = false ∧ w.cb status data b = none := by
  have hfree : freeOrFinish status b = none := by simp [freeOrFinish, hb]
  cases w <;> first | exact Bool.noConfusion (show false = true from h) | exact ⟨rfl, hfree⟩

theorem Wrapper.conventional_own {w : Wrapper} (h : w.conventional = true) :
    w.embedded = false := by
  cases w <;> first | exact Bool.noConfusion (show false = true from h) | rfl

/-- A callback that finds the block of its call: nothing else is touched, the requests of the
call stay, and a block that was left behind by the convention is released. -/
theorem State.callBack_spec {s : State} {i : Nat} {call : Call} (h : s.calls[i]? = some call)
    (hb : s.block call ≠ none) (status : Int) (data : Bool) :
    State.Frame i s (s.callBack i status data)
      ∧ (∃ block, (s.callBack i status data).calls[i]? = some { call with block := block })
      ∧ (call.wrapper.conventional = true → (∀ b, call.block = some b → b.cancelled = true) →
        (s.callBack i status data).releases i = s.releases i + 1) := by
  obtain ⟨b, hsome⟩ := Option.ne_none_iff_exists'.mp hb
  have hcalled := State.Frame.called i s (State.cell i call)
  simp only [State.callBack, h, hsome, Option.isSome_some]
  split_ifs with hignores
  · refine ⟨hcalled, ⟨call.block, h⟩, fun hconv hcancelled => ?_⟩
    rw [State.block, Wrapper.conventional_own hconv] at hsome
    rw [(Wrapper.conventional_frees hconv status data (hcancelled b hsome)).1] at hignores
    cases hignores
  · cases hcb : call.wrapper.cb status data b with
    | some b' =>
      refine ⟨hcalled.trans (State.Frame.setBlock i _ call b'), ?_, fun hconv hcancelled => ?_⟩
      · obtain ⟨block, hblock, -⟩ := State.setBlock_call call (some b')
          (s := s.note (.called (State.cell i call) true)) h
        exact ⟨block, hblock⟩
      · rw [State.block, Wrapper.conventional_own hconv] at hsome
        rw [(Wrapper.conventional_frees hconv status data (hcancelled b hsome)).2] at hcb
        cases hcb
    | none =>
      refine ⟨hcalled.trans (State.Frame.release i _), ⟨none, State.release_call h⟩, fun _ _ => ?_⟩
      rw [State.release_releases, State.called_releases]

/-! ## The invariant -/

/-- The requests that end a chain or stand alone. -/
def enders (l : List Cb) : Nat := l.countP fun cb => !cb.keeps

/-- A block that a callback will still look for; `n` is how often it has been released. -/
structure Owed (n : Nat) (call : Call) : Prop where
  block : ∃ b, call.block = some b ∧ b.isFinished = false
    ∧ (call.abandoned = true → b.cancelled = true)
  frees : call.abandoned = true → call.wrapper.conventional = true
  unreleased : n = 0

/-- What holds of a call at every moment: one of its requests will tell it, and its block is
there; or nothing is outstanding, and a block that was left behind has been released. -/
structure GoodCall (n : Nat) (call : Call) : Prop where
  linked : call.linked = false
  sound : call.op.crashed = false
  left : call.abandoned = true → call.inside = false
  whole : call.queued ≠ [] → call.receiving = none ∧ call.waiting = []
  standing : (enders call.pending = 1 ∧ call.op.block ≠ none
      ∧ (call.wrapper.embedded = false → Owed n call))
    ∨ (call.pending = []
      ∧ (call.abandoned = true → call.wrapper.embedded = false → n = 1))

/-- The invariant, but for what it says of one call. -/
structure Bystanders (i : Nat) (s : State) : Prop where
  others : ∀ j call, j ≠ i → s.calls[j]? = some call → GoodCall (s.releases j) call
  unborn : ∀ j, s.calls.length ≤ j → j ≠ i → s.releases j = 0
  sound : s.crashed = false
  alive : s.destroyed = false
  context : s.connectCbData ≠ none
  kept : s.log.count (.released .context) = 0
  found : ∀ cell, .called cell false ∉ s.log

/-- The invariant of a context that has not been destroyed. -/
structure Good (s : State) : Prop where
  calls : ∀ i call, s.calls[i]? = some call → GoodCall (s.releases i) call
  unborn : ∀ j, s.calls.length ≤ j → s.releases j = 0
  sound : s.crashed = false
  alive : s.destroyed = false
  context : s.connectCbData ≠ none
  kept : s.log.count (.released .context) = 0
  found : ∀ cell, .called cell false ∉ s.log

section
variable {i : Nat} {s s' : State} {call : Call} {cb : Cb} {c : Completion}

theorem Good.bystanders (h : Good s) (i : Nat) : Bystanders i s :=
  ⟨fun j call _ => h.calls j call, fun j hj _ => h.unborn j hj, h.sound, h.alive, h.context,
    h.kept, h.found⟩

theorem Bystanders.frame (h : Bystanders i s) (hf : State.Frame i s s') : Bystanders i s' := by
  refine ⟨fun j call hj hcall => ?_, fun j hj hne => ?_, hf.crashed.trans h.sound,
    hf.destroyed.trans h.alive, hf.context h.context, ?_, hf.found h.found⟩
  · rw [hf.releases hj]
    exact h.others j call hj ((hf.calls j hj).symm.trans hcall)
  · rw [hf.releases hne]
    exact h.unborn j (hf.length ▸ hj) hne
  · rw [hf.released_context]
    exact h.kept

theorem Bystanders.good (h : Bystanders i s) (hcall : s.calls[i]? = some call)
    (hgood : GoodCall (s.releases i) call) : Good s := by
  refine ⟨fun j call' hj => ?_, fun j hj => ?_, h.sound, h.alive, h.context, h.kept, h.found⟩
  · by_cases hne : j = i
    · subst hne
      obtain rfl := Option.some.inj (hcall.symm.trans hj)
      exact hgood
    · exact h.others j call' hne hj
  · refine h.unborn j hj fun heq => ?_
    subst heq
    rw [List.getElem?_eq_none hj] at hcall
    cases hcall

/-- A call whose block is there. -/
structure Bare (n : Nat) (call : Call) : Prop where
  linked : call.linked = false
  sound : call.op.crashed = false
  left : call.abandoned = true → call.inside = false
  whole : call.queued ≠ [] → call.receiving = none ∧ call.waiting = []
  owed : call.wrapper.embedded = false → Owed n call

/-- A call whose next request has been taken off its queue, and what the rest of it is. -/
structure Ready (n : Nat) (call : Call) (cb : Cb) : Prop extends Bare n call where
  block : call.op.block ≠ none
  keeps : cb.keeps = true →
    enders call.pending = 1 ∨ (call.pending = [] ∧ call.abandoned = false)
  ends : cb.keeps = false → call.pending = []

/-- The callback of the wrapper ends a call of which nothing is outstanding. -/
theorem Bystanders.callBack (h : Bystanders i s) (hcall : s.calls[i]? = some call)
    (hr : Bare (s.releases i) call) (hempty : call.pending = []) (status : Int)
    (data : Bool) : Good (s.callBack i status data) := by
  have hblock : s.block call ≠ none := by
    unfold State.block
    split_ifs with hembedded
    · exact h.context
    · obtain ⟨b, hb, -⟩ := (hr.owed (by simpa using hembedded)).block
      exact hb ▸ Option.some_ne_none _
  obtain ⟨hframe, ⟨block, hcall'⟩, hfrees⟩ := State.callBack_spec hcall hblock status data
  refine (h.frame hframe).good hcall' ⟨hr.linked, hr.sound, hr.left, hr.whole, .inr ⟨hempty, ?_⟩⟩
  intro habandoned hembedded
  have howed := hr.owed hembedded
  rw [hfrees (howed.frees habandoned) fun b hb => ?_, howed.unreleased]
  obtain ⟨b', hb', -, hcancelled⟩ := howed.block
  obtain rfl := Option.some.inj (hb.symm.trans hb')
  exact hcancelled habandoned

/-- A freed handle is nothing to the calls. -/
theorem Good.freeHandle (h : Good s) (cb : Cb) : Good (s.freeHandle cb) := by
  unfold State.freeHandle
  split
  · exact ⟨h.calls, h.unborn, h.sound, h.alive, h.context, h.kept, h.found⟩
  · exact h

/-- **The completion of a request** keeps the invariant. -/
theorem Bystanders.complete (h : Bystanders i s) (hcall : s.calls[i]? = some call)
    (hr : Ready (s.releases i) call cb)
    (hown : ∀ fh, cb.through = some fh → s.handles fh = { cb := some i, released := false })
    (hopen : ∀ fh, cb.moves = some fh → c.status = 0 → (s.handles fh).released = false)
    (hreads : Readable c call.op cb) : Good (s.complete i cb c) := by
  have hstale : s.staleHandle cb c = false := by
    rw [State.staleHandle, Bool.or_eq_false_iff, Option.any_eq_false, Option.any_eq_false]
    refine ⟨fun fh hfh => ?_, fun fh hfh => ?_⟩
    · rw [hown fh hfh]
    · rw [Bool.and_eq_false_imp]
      intro hstatus
      exact hopen fh hfh (of_decide_eq_true hstatus)
  have htarget : s.target i cb = some i := by
    unfold State.target
    split
    · rename_i fh hfh
      rw [hown fh hfh]
    · rfl
  rw [State.complete, hcall]
  simp only [hstale, Bool.false_eq_true, if_false, htarget]
  apply Good.freeHandle
  have hmodify := h.frame (State.Frame.modify i s fun call' =>
    { call' with op := cb.run c call.op, queued := call'.queued ++ (cb.next c).toList })
  cases hk : cb.keeps with
  | true =>
    -- the end of the chain is still outstanding, or has been dropped
    obtain ⟨hran, hleft, hnext⟩ := Cb.run_keeps hk hr.block hreads
    have hcrashed : (cb.run c call.op).crashed = false := hran.crashed.trans hr.sound
    simp only [hran.told, hcrashed, List.foldl_nil, Bool.false_eq_true, if_false]
    refine hmodify.good (State.modify_call hcall) ⟨hr.linked, hcrashed, hr.left, ?_, ?_⟩
    · simpa [hnext] using hr.whole
    · simp only [hnext, Option.toList_none, List.append_nil]
      rcases hr.keeps hk with hone | ⟨hempty, habandoned⟩
      · exact .inl ⟨hone, hleft, fun he => ⟨(hr.owed he).block, (hr.owed he).frees,
          (hr.owed he).unreleased⟩⟩
      · exact .inr ⟨hempty, fun h => absurd (habandoned.symm.trans h) Bool.false_ne_true⟩
  | false =>
    have hempty := hr.ends hk
    rcases Cb.run_ends hk hr.block hreads with ⟨hnext, told, hran⟩ | ⟨hnext, hran, hleft⟩
    · -- the wrapper is told
      have hcrashed : (cb.run c call.op).crashed = false := hran.crashed.trans hr.sound
      simp only [hran.told, hcrashed, List.foldl_cons, List.foldl_nil, Bool.false_eq_true, if_false]
      refine hmodify.callBack (State.modify_call hcall) ⟨hr.linked, hcrashed, hr.left, ?_, ?_⟩ ?_
        told.1 told.2
      · simpa [hnext] using hr.whole
      · exact fun he => ⟨(hr.owed he).block, (hr.owed he).frees, (hr.owed he).unreleased⟩
      · simpa [Call.pending, hnext] using hempty
    · -- the next request takes the place of this one
      obtain ⟨cb', hcb'⟩ := Option.isSome_iff_exists.mp hnext
      have hcrashed : (cb.run c call.op).crashed = false := hran.crashed.trans hr.sound
      simp only [hran.told, hcrashed, List.foldl_nil, Bool.false_eq_true, if_false]
      obtain ⟨hqueued, hreceiving, hwaiting⟩ : call.queued = [] ∧ call.receiving = none
          ∧ call.waiting = [] := by
        simpa [Call.pending] using hempty
      refine hmodify.good (State.modify_call hcall) ⟨hr.linked, hcrashed, hr.left,
        fun _ => ⟨hreceiving, hwaiting⟩, .inl ⟨?_, hleft, fun he => ⟨(hr.owed he).block,
          (hr.owed he).frees, (hr.owed he).unreleased⟩⟩⟩
      simp [Call.pending, hqueued, hreceiving, hwaiting, hcb', enders, Cb.next_keeps hcb']

/-! ## Steps -/

/-- A request is taken off its queue and completes. -/
theorem Good.take (h : Good s) (hcall : s.calls[i]? = some call) {f : Call → Call}
    (hready : Ready (s.releases i) (f call) cb) (hfit : Fit s i call cb c)
    (hop : (f call).op = call.op) : Good ((s.modify i f).complete i cb c) := by
  apply ((h.bystanders i).frame (State.Frame.modify i s f)).complete (State.modify_call hcall)
    hready hfit.own hfit.open'
  rw [hop]
  exact hfit.readable

theorem GoodCall.outstanding {n : Nat} (h : GoodCall n call) (hcb : cb ∈ call.pending) :
    enders call.pending = 1 ∧ call.op.block ≠ none
      ∧ (call.wrapper.embedded = false → Owed n call) := by
  rcases h.standing with hout | ⟨hempty, -⟩
  · exact hout
  · rw [hempty] at hcb
    cases hcb

/-- A call of which nothing is outstanding takes any queues without a request. -/
theorem Owed.requeue {n : Nat} (h : Owed n call) (queued waiting : List Cb)
    (receiving : Option Cb) :
    Owed n { call with queued := queued, receiving := receiving, waiting := waiting } :=
  ⟨h.block, h.frees, h.unreleased⟩

/-- A request leaves the others where they are. -/
theorem GoodCall.ready {n : Nat} (h : GoodCall n call) (queued : List Cb)
    (receiving : Option Cb) (waiting : List Cb)
    (hperm : call.pending.Perm (cb :: (queued ++ receiving.toList ++ waiting)))
    (hwhole : queued ≠ [] → receiving = none ∧ waiting = [])
    (hlast : cb.keeps = false → call.pending = [cb]) :
    Ready n { call with queued := queued, receiving := receiving, waiting := waiting } cb := by
  obtain ⟨hone, hblock, howed⟩ := h.outstanding (hperm.mem_iff.mpr List.mem_cons_self)
  refine ⟨⟨h.linked, h.sound, h.left, hwhole, fun he => (howed he).requeue _ _ _⟩, hblock, ?_, ?_⟩
  · intro hk
    left
    have hcount := hperm.countP_eq fun cb => !cb.keeps
    rw [List.countP_cons_of_neg (by simp [hk])] at hcount
    exact hcount.symm.trans hone
  · intro hk
    rw [hlast hk] at hperm
    exact List.perm_nil.mp ((List.perm_cons cb).mp hperm).symm

theorem Good.endReceiving (h : Good s) (hcall : s.calls[i]? = some call)
    (hcb : call.receiving = some cb) (hfit : Fit s i call cb c) :
    Good (s.endReceiving i cb c) := by
  have hg := h.calls i call hcall
  have hqueued : call.queued = [] := by
    by_contra hne
    rw [(hg.whole hne).1] at hcb
    cases hcb
  refine h.take hcall (hg.ready call.queued none call.waiting ?_ ?_ hfit.last) hfit rfl
  · simp [Call.pending, hqueued, hcb]
  · exact fun hne => absurd hqueued hne

theorem Good.endWaiting (h : Good s) (hcall : s.calls[i]? = some call)
    (hcb : cb ∈ call.waiting) (hfit : Fit s i call cb c) : Good (s.endWaiting i cb c) := by
  have hg := h.calls i call hcall
  have hqueued : call.queued = [] := by
    by_contra hne
    rw [(hg.whole hne).2] at hcb
    cases hcb
  refine h.take hcall (hg.ready call.queued call.receiving (call.waiting.erase cb) ?_ ?_ hfit.last)
    hfit rfl
  · simp only [Call.pending, hqueued, List.nil_append]
    exact ((List.perm_cons_erase hcb).append_left _).trans List.perm_middle
  · exact fun hne => absurd hqueued hne

/-- What leaves the out queue unsent was alone, or nothing has been left behind. -/
theorem Good.dropQueued (h : Good s) (hcall : s.calls[i]? = some call)
    (hmet : ∀ cb rest, call.queued = cb :: rest →
      (call.abandoned = true → rest = []) ∧ Fit s i call cb c) :
    Good (s.dropQueued i call c) := by
  have hg := h.calls i call hcall
  unfold State.dropQueued
  split
  · exact h
  · rename_i cb rest hqueued
    obtain ⟨hrest, hfit⟩ := hmet cb rest hqueued
    obtain ⟨hreceiving, hwaiting⟩ := hg.whole (hqueued ▸ List.cons_ne_nil cb rest)
    have hmem : cb ∈ call.pending := by simp [Call.pending, hqueued]
    obtain ⟨-, hblock, howed⟩ := hg.outstanding hmem
    have hempty : ([] ++ call.receiving.toList ++ call.waiting : List Cb) = [] := by
      simp [hreceiving, hwaiting]
    apply h.take hcall _ hfit rfl
    refine ⟨⟨hg.linked, hg.sound, hg.left, fun hne => absurd rfl hne,
      fun he => (howed he).requeue [] call.waiting call.receiving⟩, hblock, fun hk => .inr
        ⟨hempty, ?_⟩, fun _ => hempty⟩
    -- a chain whose head only keeps something had more members
    by_contra habandoned
    have hone := (hg.outstanding hmem).1
    rw [Call.pending, hqueued, hrest (by simpa using habandoned), hreceiving, hwaiting] at hone
    simp [enders, hk] at hone

theorem Good.onCall (h : Good s) {f : Call → State}
    (hf : ∀ call, s.calls[i]? = some call → Good (f call)) : Good (s.onCall i f) := by
  unfold State.onCall
  split
  · exact h
  · rename_i call hcall
    exact hf call hcall

/-- A step that only moves a call. -/
theorem Good.move (h : Good s) (hcall : s.calls[i]? = some call) {f : Call → Call}
    (hf : GoodCall (s.releases i) call → GoodCall (s.releases i) (f call)) :
    Good (s.modify i f) :=
  ((h.bystanders i).frame (State.Frame.modify i s f)).good (State.modify_call hcall)
    (hf (h.calls i call hcall))

/-- Requests change their places. -/
theorem GoodCall.requeue {n : Nat} (h : GoodCall n call) {queued waiting : List Cb}
    {receiving : Option Cb}
    (hperm : call.pending.Perm (queued ++ receiving.toList ++ waiting))
    (hwhole : queued ≠ [] → receiving = none ∧ waiting = []) :
    GoodCall n { call with queued := queued, receiving := receiving, waiting := waiting } := by
  refine ⟨h.linked, h.sound, h.left, hwhole, ?_⟩
  rcases h.standing with ⟨hone, hblock, howed⟩ | ⟨hempty, honce⟩
  · left
    exact ⟨(hperm.countP_eq _).symm.trans hone, hblock, fun he => (howed he).requeue _ _ _⟩
  · right
    rw [hempty] at hperm
    exact ⟨List.nil_perm.mp hperm, honce⟩

theorem Good.send (h : Good s) (i : Nat) : Good (s.perform (.send i)) := by
  cases hcall : s.calls[i]? with
  | none =>
    have hsame : s.perform (.send i) = s := by
      simp only [State.perform, State.modify]
      rw [List.modify_eq_self (List.getElem?_eq_none_iff.mp hcall)]
    rw [hsame]
    exact h
  | some call =>
    apply h.move hcall
    intro hg
    apply hg.requeue
    · by_cases hqueued : call.queued = []
      · simp [Call.pending, hqueued]
      · obtain ⟨hreceiving, hwaiting⟩ := hg.whole hqueued
        simp [Call.pending, hreceiving, hwaiting]
    · exact fun hne => absurd rfl hne

theorem Good.header (h : Good s) {cb : Cb} (hmet : Met s (.header i cb)) :
    Good (s.perform (.header i cb)) := by
  apply h.onCall
  intro call hcall
  split_ifs with hno hprev
  · exact h
  · obtain ⟨p, hp, hmem⟩ := (Option.any_eq_true _ _).mp hprev
    exact absurd (of_decide_eq_true hmem) (hmet call hcall p hp)
  · obtain ⟨hreceives, hmem⟩ := not_or.mp hno
    rw [not_not] at hmem
    apply h.move hcall
    intro hg
    have hqueued : call.queued = [] := by
      by_contra hne
      rw [(hg.whole hne).2] at hmem
      cases hmem
    have hreceiving : call.receiving = none := by
      by_contra hne
      apply hreceives
      exact List.any_eq_true.mpr ⟨call, List.mem_of_getElem? hcall, Option.isSome_iff_ne_none.mpr hne⟩
    apply hg.requeue
    · simp only [Call.pending, hqueued, hreceiving, Option.toList_none, Option.toList_some,
        List.nil_append]
      exact List.perm_cons_erase hmem
    · exact fun hne => absurd hqueued hne

/-- What the invariant says of a state but for its calls. -/
theorem Good.update (h : Good s) (hcalls : s'.calls = s.calls) (hlog : s'.log = s.log)
    (hcrashed : s'.crashed = s.crashed) (hdestroyed : s'.destroyed = s.destroyed)
    (hcontext : s'.connectCbData ≠ none) : Good s' := by
  have hreleases : ∀ j, s'.releases j = s.releases j := fun j => by
    rw [State.releases, hlog, State.releases]
  refine ⟨fun j call hj => ?_, fun j hj => ?_, hcrashed.trans h.sound, hdestroyed.trans h.alive,
    hcontext, ?_, ?_⟩
  · rw [hreleases]
    exact h.calls j call (hcalls ▸ hj)
  · rw [hreleases]
    exact h.unborn j (hcalls ▸ hj)
  · rw [hlog]
    exact h.kept
  · rw [hlog]
    exact h.found

/-- Every operation starts with one chain that reports at its end. -/
theorem Wrapper.requests_end (w : Wrapper) : enders w.requests = 1 := by
  cases w <;> rfl

/-- A call that has just been made. -/
theorem started_good (w : Wrapper) : GoodCall 0 { wrapper := w, queued := w.requests } := by
  refine ⟨rfl, rfl, fun h => absurd h Bool.false_ne_true, fun _ => ⟨rfl, rfl⟩, .inl ⟨?_,
    Option.some_ne_none _, fun _ => ⟨⟨{}, rfl, rfl, fun h => absurd h Bool.false_ne_true⟩,
      fun h => absurd h Bool.false_ne_true, rfl⟩⟩⟩
  simpa [Call.pending] using w.requests_end

theorem Good.start (h : Good s) {w : Wrapper} (hmet : Met s (.call w)) : Good (s.start w) := by
  have hopen : (w.fh.any fun fh => (s.handles fh).released) = false := by
    rw [Option.any_eq_false]
    intro fh hfh
    simp [hmet fh hfh]
  have hadded : Good { s with calls := s.calls ++ [{ wrapper := w, queued := w.requests }] } := by
    refine ⟨fun j call hj => ?_, fun j hj => ?_, h.sound, h.alive, h.context, h.kept, h.found⟩
    · by_cases hlt : j < s.calls.length
      · exact h.calls j call (by simpa [List.getElem?_append_left hlt] using hj)
      · have hge : s.calls.length ≤ j := not_lt.mp hlt
        change GoodCall (s.releases j) call
        rw [h.unborn j hge]
        simp only [List.getElem?_append_right hge] at hj
        have hmem := List.mem_of_getElem? hj
        rw [List.mem_singleton.mp hmem]
        exact started_good w
    · exact h.unborn j (by simp at hj; omega)
  unfold State.start
  rw [hopen]
  simp only [Bool.false_eq_true, if_false]
  split
  · exact hadded.update rfl rfl rfl rfl hadded.context
  · exact hadded.update rfl rfl rfl rfl hadded.context
  · exact hadded

/-- A call that keeps to the convention is left with its block cancelled. -/
theorem Good.leave (h : Good s) (hcall : s.calls[i]? = some call)
    (hconv : call.wrapper.conventional = true ∨ call.wrapper.embedded = true)
    (hinside : call.inside = true) :
    Good ((s.leave i call).modify i fun call' =>
      { call' with inside := false, abandoned := call.pending ≠ [] }) := by
  have hg := h.calls i call hcall
  have habandoned : call.abandoned = false := by
    by_contra hne
    rw [hg.left (by simpa using hne)] at hinside
    cases hinside
  by_cases hembedded : call.wrapper.embedded = true
  · obtain ⟨b, hb⟩ := Option.ne_none_iff_exists'.mp h.context
    have hset : s.leave i call = { s with connectCbData := some b.cancel } := by
      simp [State.leave, State.setBlock, State.block, hembedded, hb]
    rw [hset]
    have hcancelled : Good { s with connectCbData := some b.cancel } :=
      h.update rfl rfl rfl rfl (Option.some_ne_none _)
    apply hcancelled.move hcall
    intro hg
    refine ⟨hg.linked, hg.sound, fun _ => rfl, hg.whole, ?_⟩
    rcases hg.standing with ⟨hone, hblock, -⟩ | ⟨hempty, -⟩
    · exact .inl ⟨hone, hblock, fun he => absurd hembedded (by simpa using he)⟩
    · exact .inr ⟨hempty, fun _ he => absurd hembedded (by simpa using he)⟩
  · have hown : call.wrapper.embedded = false := by simpa using hembedded
    have hset : s.leave i call
        = s.modify i fun call' => { call' with block := call.block.map SyncCbData.cancel } := by
      simp [State.leave, State.setBlock, State.block, hown]
    rw [hset]
    refine (((h.bystanders i).frame (State.Frame.modify i s _)).frame
      (State.Frame.modify i _ _)).good (State.modify_call (State.modify_call hcall)) ?_
    refine ⟨hg.linked, hg.sound, fun _ => rfl, hg.whole, ?_⟩
    rcases hg.standing with ⟨hone, hblock, howed⟩ | ⟨hempty, -⟩
    · left
      refine ⟨hone, hblock, fun _ => ?_⟩
      obtain ⟨⟨b, hb, hfinished, -⟩, -, hzero⟩ := howed hown
      refine ⟨⟨b.cancel, by rw [hb]; rfl, hfinished, fun _ => by
        simp [SyncCbData.cancelled, SyncCbData.cancel]⟩, fun _ => ?_, hzero⟩
      exact hconv.resolve_right hembedded
    · right
      exact ⟨hempty, fun hab => absurd hempty (by simpa using hab)⟩

theorem State.Frame.leave (hc : s.connectCbData ≠ none) (call : Call) :
    State.Frame i s (s.leave i call) := by
  by_cases hembedded : call.wrapper.embedded = true
  · obtain ⟨b, hb⟩ := Option.ne_none_iff_exists'.mp hc
    have hset : s.leave i call = s.setBlock i call (some b.cancel) := by
      simp [State.leave, State.block, hembedded, hb]
    rw [hset]
    exact State.Frame.setBlock i s call b.cancel
  · have hown : call.wrapper.embedded = false := by simpa using hembedded
    simp only [State.leave, State.setBlock, hown, Bool.false_eq_true, if_false]
    exact State.Frame.modify i s _

theorem State.leave_call (hcall : s.calls[i]? = some call) :
    ∃ block, (s.leave i call).calls[i]? = some { call with block := block } := by
  obtain ⟨block, h, -⟩ := State.setBlock_call call ((s.block call).map SyncCbData.cancel) hcall
  exact ⟨block, h⟩

/-- The failing branch of a wrapper touches its own call, and brings no request. -/
theorem State.onFailure_spec (hcall : s.calls[i]? = some call) (hc : s.connectCbData ≠ none) :
    State.Frame i s (s.onFailure i call)
      ∧ ∃ block queued waiting, (s.onFailure i call).calls[i]?
          = some { call with block := block, queued := queued, waiting := waiting }
        ∧ (call.pending = [] → queued = [] ∧ waiting = []) := by
  have hempty : call.pending = [] → call.queued = [] ∧ call.waiting = [] := by
    simp only [Call.pending, List.append_eq_nil_iff]
    exact fun ⟨⟨hq, _⟩, hw⟩ => ⟨hq, hw⟩
  have hfilter : ∀ cb, call.pending = [] →
      call.queued.filter (· != cb) = [] ∧ call.waiting.filter (· != cb) = [] := by
    intro cb hp
    obtain ⟨hq, hw⟩ := hempty hp
    simp [hq, hw]
  have hleave := State.Frame.leave (i := i) hc call
  obtain ⟨block, hblock⟩ := State.leave_call hcall
  unfold State.onFailure
  split
  · exact ⟨(State.Frame.release i s).trans (State.Frame.modify i _ _), none, _, _,
      State.modify_call (State.release_call hcall), hfilter _⟩
  · exact ⟨State.Frame.modify i s _, call.block, _, _, State.modify_call hcall, hfilter _⟩
  · exact ⟨hleave.trans (State.Frame.release i _), none, call.queued, call.waiting,
      (State.release_call hblock :), hempty⟩
  · exact ⟨hleave.trans (State.Frame.release i _), none, call.queued, call.waiting,
      (State.release_call hblock :), hempty⟩
  · exact ⟨State.Frame.refl i s, call.block, call.queued, call.waiting, hcall, hempty⟩
  · exact ⟨hleave, block, call.queued, call.waiting, hblock, hempty⟩

/-- `smb2_opendir` takes its CREATE back and frees its block. -/
theorem Good.leaveOpendir (h : Good s) (hcall : s.calls[i]? = some call)
    (hpending : call.pending = [.opendirCb]) (hreceiving : call.receiving = none)
    (hown : call.wrapper.embedded = false) :
    Good (((s.release i).freePdu i .opendirCb).modify i fun call' =>
      { call' with inside := false, abandoned := call.pending ≠ [] }) := by
  have hg := h.calls i call hcall
  refine (((h.bystanders i).frame (State.Frame.release i s)).frame
    ((State.Frame.modify i _ _).trans (State.Frame.modify i _ _))).good
      (State.modify_call (State.modify_call (State.release_call hcall))) ?_
  simp only [Call.pending, hreceiving, Option.toList_none, List.append_nil] at hpending
  have hgone : ∀ cb ∈ call.queued ++ call.waiting, cb = .opendirCb := by
    rw [hpending]
    exact fun cb hcb => List.mem_singleton.mp hcb
  have hfilter : call.queued.filter (· != .opendirCb) = []
      ∧ call.waiting.filter (· != .opendirCb) = [] := by
    simp only [List.filter_eq_nil_iff]
    exact ⟨fun cb hcb => by simp [hgone cb (List.mem_append_left _ hcb)],
      fun cb hcb => by simp [hgone cb (List.mem_append_right _ hcb)]⟩
  refine ⟨hg.linked, hg.sound, fun _ => rfl, fun _ => ⟨hreceiving, hfilter.2⟩, .inr ⟨?_, ?_⟩⟩
  · simp [Call.pending, hreceiving, hfilter]
  · intro _ _
    have hmem : .opendirCb ∈ call.pending := by simp [Call.pending, hreceiving, hpending]
    obtain ⟨-, -, howed⟩ := hg.outstanding hmem
    change (s.release i).releases i = 1
    rw [State.release_releases, (howed hown).unreleased]

theorem Good.abandon (h : Good s) (hmet : Met s (.abandon i)) :
    Good (s.perform (.abandon i)) := by
  apply h.onCall
  intro call hcall
  split_ifs with hinside
  · have hg := h.calls i call hcall
    by_cases hpending : call.pending = []
    · -- the call had been told already
      obtain ⟨hframe, block, queued, waiting, hcall', hempty⟩ :=
        State.onFailure_spec hcall h.context
      obtain ⟨hqueued, hwaiting⟩ := hempty hpending
      have hreceiving : call.receiving = none := by
        simp only [Call.pending, List.append_eq_nil_iff, Option.toList_eq_nil_iff] at hpending
        exact hpending.1.2
      refine (((h.bystanders i).frame hframe).frame (State.Frame.modify i _ _)).good
        (State.modify_call hcall') ⟨hg.linked, hg.sound, fun _ => rfl,
          fun _ => ⟨hreceiving, hwaiting⟩, .inr ⟨?_, fun hab => absurd hpending (by simpa using hab)⟩⟩
      simp [Call.pending, hqueued, hwaiting, hreceiving]
    · have hleft := (hmet call hcall hinside).resolve_left hpending
      have hconv : ∀ w, call.wrapper = w → w.conventional = true ∨ w.embedded = true →
          s.onFailure i call = s.leave i call →
          Good ((s.onFailure i call).modify i fun call' =>
            { call' with inside := false, abandoned := call.pending ≠ [] }) := by
        intro w hw hw' heq
        rw [heq]
        exact h.leave hcall (hw ▸ hw') hinside
      cases hw : call.wrapper <;> simp only [hw] at hleft
      case opendir =>
        rw [State.onFailure, hw]
        exact h.leaveOpendir hcall hleft.1 hleft.2 (by rw [hw]; rfl)
      case connectShare | disconnectShare =>
        exact hconv _ hw (.inr rfl) (by rw [State.onFailure, hw])
      all_goals exact hconv _ hw (.inl rfl) (by rw [State.onFailure, hw])
  · exact h

/-- What a wrapper does with its block when it has been told. -/
theorem State.onSuccess_cases (s : State) (i : Nat) (call : Call) (b : SyncCbData) :
    s.onSuccess i call b = s
      ∨ (call.wrapper.embedded = false ∧ s.onSuccess i call b = s.release i) := by
  unfold State.onSuccess
  generalize call.wrapper = w
  cases w <;> dsimp only
  case connectShare | disconnectShare | «open» => exact .inl rfl
  case opendir =>
    split_ifs
    · exact .inl rfl
    · exact .inr ⟨rfl, rfl⟩
  all_goals exact .inr ⟨rfl, rfl⟩

/-- A call that has been told returns. -/
theorem Good.finish (h : Good s) (i : Nat) : Good (s.perform (.finish i)) := by
  apply h.onCall
  intro call hcall
  split
  · exact h
  · rename_i b hb
    split_ifs with hdone
    · have hg := h.calls i call hcall
      have habandoned : call.abandoned = false := by
        by_contra hne
        have hinside := hdone.1
        rw [hg.left (by simpa using hne)] at hinside
        cases hinside
      by_cases hembedded : call.wrapper.embedded = true
      · have hstays : s.onSuccess i call b = s :=
          (State.onSuccess_cases s i call b).resolve_right
            fun hr => absurd (hembedded.symm.trans hr.1) Bool.noConfusion
        rw [hstays]
        apply h.move hcall
        refine fun hg => ⟨hg.linked, hg.sound, fun _ => rfl, hg.whole, ?_⟩
        rcases hg.standing with ⟨hone, hblock, -⟩ | ⟨hempty, -⟩
        · exact .inl ⟨hone, hblock, fun he => absurd hembedded (by simpa using he)⟩
        · exact .inr ⟨hempty, fun _ he => absurd hembedded (by simpa using he)⟩
      · have hown : call.wrapper.embedded = false := by simpa using hembedded
        obtain ⟨hframe, block, hcall'⟩ : State.Frame i s (s.onSuccess i call b)
            ∧ ∃ block, (s.onSuccess i call b).calls[i]? = some { call with block := block } := by
          rcases State.onSuccess_cases s i call b with heq | ⟨-, heq⟩
          · rw [heq]
            exact ⟨State.Frame.refl i s, call.block, hcall⟩
          · rw [heq]
            exact ⟨State.Frame.release i s, none, State.release_call hcall⟩
        refine (((h.bystanders i).frame hframe).frame (State.Frame.modify i _ _)).good
          (State.modify_call hcall') ⟨hg.linked, hg.sound, fun _ => rfl, hg.whole, .inr ⟨?_,
            fun hab => absurd (habandoned.symm.trans hab) Bool.false_ne_true⟩⟩
        rcases hg.standing with ⟨-, -, howed⟩ | ⟨hempty, -⟩
        · -- the block of a call with outstanding requests is not finished
          obtain ⟨⟨b', hb', hfinished, -⟩, -, -⟩ := howed hown
          rw [State.block, hown, if_neg Bool.false_ne_true] at hb
          obtain rfl := Option.some.inj (hb.symm.trans hb')
          rw [hfinished] at hdone
          exact absurd hdone.2 Bool.false_ne_true
        · exact hempty
    · exact h

/-- The requests of the application itself tell no wrapper. -/
theorem Good.endOther (h : Good s) {fh : Nat} {close : Bool} {status : Int}
    (hmet : s.handles fh = {}) : Good (s.endOther fh close status) := by
  unfold State.endOther
  rw [hmet]
  simp only [Bool.false_eq_true, if_false, State.tell]
  have hbefore : Good { s with others := s.others.erase (fh, close) } :=
    h.update rfl rfl rfl rfl h.context
  split_ifs
  · exact hbefore.update rfl rfl rfl rfl hbefore.context
  · exact hbefore

/-- One turn of the loops of `smb2_destroy_context`. -/
theorem Good.shutdown (h : Good s) (hmet : Met s (.shutdown i)) :
    Good (s.perform (.shutdown i)) := by
  apply h.onCall
  intro call hcall
  obtain ⟨hqueued, hrest⟩ := hmet call hcall
  have hg := h.calls i call hcall
  unfold State.shutdownNext
  split
  · exact h.dropQueued hcall hqueued
  · rename_i hany
    have hnone : call.queued = [] := by
      by_contra hne
      exact hany (List.any_eq_true.mpr ⟨call, List.mem_of_getElem? hcall, decide_eq_true hne⟩)
    split
    · split
      · exact h
      · rename_i cb hcb
        rw [hg.linked, if_neg Bool.false_ne_true]
        exact h.endReceiving hcall hcb (hrest hnone cb (by rw [hcb]; rfl))
    · rename_i hreceives
      have hreceiving : call.receiving = none := by
        by_contra hne
        exact hreceives (List.any_eq_true.mpr ⟨call, List.mem_of_getElem? hcall,
          Option.isSome_iff_ne_none.mpr hne⟩)
      split
      · exact h
      · rename_i cb rest hwaiting
        apply h.endWaiting hcall (by rw [hwaiting]; exact List.mem_cons_self)
        exact hrest hnone cb (by rw [hreceiving, hwaiting]; rfl)

/-- The end of a context. -/
structure Over (s : State) : Prop where
  destroyed : s.destroyed = true
  kept : Kept s

theorem Good.free (h : Good s) : Good (s.perform .free) ∨ Over (s.perform .free) := by
  simp only [State.perform]
  split_ifs with hdrained
  · right
    refine ⟨rfl, ?_, h.sound, fun _ i call hcall habandoned => ?_⟩
    · intro cell hmem
      rcases List.mem_append.mp hmem with hmem | hmem
      · exact h.found cell hmem
      · cases List.mem_singleton.mp hmem
    · have hg := h.calls i call hcall
      have hall := (Bool.and_eq_true_iff.mp hdrained).2
      have hempty : call.pending = [] :=
        of_decide_eq_true (List.all_eq_true.mp hall call (List.mem_of_getElem? hcall))
      simp only [State.note, List.count_append]
      by_cases hembedded : call.wrapper.embedded = true
      · -- the block goes with the context
        rw [State.cell, if_pos hembedded, h.kept]
        rfl
      · have hown : call.wrapper.embedded = false := by simpa using hembedded
        have hother : [Event.released Cell.context].count (.released (.call i)) = 0 := rfl
        rw [State.cell, if_neg hembedded, hother, Nat.add_zero]
        rcases hg.standing with ⟨hone, -⟩ | ⟨-, honce⟩
        · rw [hempty] at hone
          exact absurd hone (by decide)
        · exact honce habandoned hown
  · exact .inl h

/-- **The step lemma.**  A step that meets its condition keeps the invariant or ends the
context. -/
theorem step_good (h : Good s) (x : Step) (hmet : Met s x) : Good (s.step x) ∨ Over (s.step x) := by
  unfold State.step
  split_ifs
  · exact .inl h
  · cases x with
    | call w => exact .inl (h.start hmet)
    | send i => exact .inl (h.send i)
    | header i cb => exact .inl (h.header hmet)
    | reply i c =>
      left
      apply h.onCall
      intro call hcall
      split
      · exact h
      · rename_i cb hcb
        rw [(h.calls i call hcall).linked, if_neg Bool.false_ne_true]
        exact h.endReceiving hcall hcb (hmet call hcall cb hcb)
    | interim i cb c =>
      left
      apply h.onCall
      intro call hcall
      rw [if_neg fun hp => absurd (hmet.symm.trans hp.1) Bool.false_ne_true]
      exact h
    | timeoutOut i => exact .inl (h.onCall fun call hcall => h.dropQueued hcall (hmet call hcall))
    | timeoutWait i cb =>
      left
      apply h.onCall
      intro call hcall
      split_ifs with hmem
      · exact h.endWaiting hcall hmem (hmet call hcall hmem)
      · exact h
    | abandon i => exact .inl (h.abandon hmet)
    | finish i => exact .inl (h.finish i)
    | application fh close =>
      left
      have hopen : (s.handles fh).released = false := hmet
      simp only [State.perform, hopen, Bool.false_eq_true, if_false]
      exact h.update rfl rfl rfl rfl h.context
    | applicationDone fh close status =>
      left
      simp only [State.perform]
      split_ifs
      · exact h.endOther hmet
      · exact h
    | destroy => exact .inl (h.update rfl rfl rfl rfl h.context)
    | shutdown i => exact .inl (h.shutdown hmet)
    | free => exact h.free

end

/-! ## Runs -/

/-- A context before its first synchronous call. -/
def Fresh (s : State) : Prop :=
  s.calls = [] ∧ s.log = [] ∧ s.crashed = false ∧ s.destroyed = false ∧ s.connectCbData ≠ none

theorem Fresh.good {s : State} (h : Fresh s) : Good s := by
  obtain ⟨hcalls, hlog, hsound, halive, hcontext⟩ := h
  refine ⟨?_, ?_, hsound, halive, hcontext, ?_, ?_⟩
  · simp [hcalls]
  · simp [State.releases, hlog]
  · simp [hlog]
  · simp [hlog]

theorem Over.step {s : State} (h : Over s) (x : Step) : s.step x = s := by
  simp [State.step, h.destroyed]

theorem Good.kept' {s : State} (h : Good s) : Kept s :=
  ⟨h.found, h.sound, fun hd => absurd (h.alive.symm.trans hd) Bool.false_ne_true⟩

/-- The run lemma. -/
theorem run_good : ∀ {s : State} (steps : List Step), Good s ∨ Over s → RunMet s steps →
    Good (s.run steps) ∨ Over (s.run steps)
  | _, [], h, _ => h
  | _, x :: xs, .inl h, ⟨hmet, hrest⟩ => run_good xs (step_good h x hmet) hrest
  | s, x :: xs, .inr h, ⟨_, hrest⟩ => by
    rw [h.step x] at hrest
    have hrun : s.run (x :: xs) = s.run xs := by
      simp only [State.run, List.foldl_cons, h.step x]
    rw [hrun]
    exact run_good xs (.inr h) hrest

/-- **Abandoned synchronous calls.**  In every run whose steps meet the condition, every
callback of a wrapper finds its block, nothing is used after it was freed, and when the context
has been destroyed the block of each call whose wait failed while a request was outstanding has
been released exactly once. -/
theorem abandoned_blocks_are_released_once (s : State) (steps : List Step) (hs : Fresh s)
    (hmet : RunMet s steps) : Kept (s.run steps) := by
  rcases run_good steps (.inl hs.good) hmet with h | h
  · exact h.kept'
  · exact h.kept

/-- A flush whose wait fails, and the end of its context. -/
def leftFlush : List Step :=
  [.call (.fsync 3), .send 0, .abandon 0, .destroy, .shutdown 0, .free]

theorem leftFlush_met : RunMet {} leftFlush := by
  refine ⟨fun _ _ => rfl, trivial, ?_, trivial, ?_, trivial, trivial⟩
  · rintro call h -
    obtain rfl := Option.some.inj h
    exact .inr trivial
  · intro call h
    obtain rfl := Option.some.inj h
    refine ⟨fun cb rest hq => (nomatch hq), fun _ cb hcb => ?_⟩
    obtain rfl := Option.some.inj hcb
    refine ⟨fun _ => rfl, fun fh hfh => ?_, fun fh hfh => (nomatch hfh), trivial⟩
    obtain rfl := Option.some.inj hfh
    rfl

theorem abandoned_blocks_are_released_once_fsync :
    Kept (State.run {} leftFlush) ∧ (State.run {} leftFlush).destroyed = true :=
  ⟨abandoned_blocks_are_released_once {} leftFlush
    ⟨rfl, rfl, rfl, rfl, Option.some_ne_none _⟩ leftFlush_met, by decide⟩

/-- The waits of an `smb2_close`, of an `smb2_opendir` whose CREATE has been answered and of an
`smb2_notify_change` fail, and the request completes. -/
def leftClose : List Step :=
  [.call (.close 3), .send 0, .abandon 0, .header 0 (.closeCb 3), .reply 0 { status := 0 }]

def leftOpendir : List Step :=
  [.call .opendir, .send 0, .header 0 .opendirCb, .reply 0 { status := 0, goesOn := true },
    .send 0, .abandon 0, .timeoutWait 0 .queryCb]

def leftNotifyChange : List Step :=
  [.call .notifyChange, .send 0, .abandon 0, .timeoutWait 0 .notifyChangeCb]

/-- The wait of a wrapper fails, and the context is destroyed. -/
def leftToTheEnd (w : Wrapper) : List Step :=
  [.call w, .abandon 0, .destroy, .shutdown 0, .free]

/-- Callbacks that find their block gone, blocks that are never released, and a reply that is
not there. -/
theorem abandoned_blocks_are_lost :
    (∃ cell, .called cell false ∈ (State.run {} leftClose).log)
      ∧ (∃ cell, .called cell false ∈ (State.run {} leftOpendir).log)
      ∧ (∃ cell, .called cell false ∈ (State.run {} leftNotifyChange).log)
      ∧ ¬ Kept (State.run {} (leftToTheEnd .open))
      ∧ ¬ Kept (State.run {} (leftToTheEnd .shareEnum))
      ∧ ¬ Kept (State.run {} (leftToTheEnd .stat))
      ∧ ¬ Kept (State.run {} (leftToTheEnd (.fstat 3))) := by
  have hnever : ∀ s : State, ∀ call, s.destroyed = true → s.calls[0]? = some call →
      call.abandoned = true → s.log.count (.released (State.cell 0 call)) = 0 → ¬ Kept s := by
    intro s call hd hcall ha hzero hk
    rw [hk.once hd 0 call hcall ha] at hzero
    exact absurd hzero Nat.one_ne_zero
  refine ⟨⟨.call 0, by decide⟩, ⟨.call 0, by decide⟩, ⟨.call 0, by decide⟩,
    hnever _ _ (by decide) rfl (by decide) (by decide),
    hnever _ _ (by decide) rfl (by decide) (by decide),
    hnever _ _ (by decide) rfl (by decide) (by decide), fun hk => ?_⟩
  exact absurd hk.sound (by decide)

end Libsmb2.SyncCalls
