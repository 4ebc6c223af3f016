import Libsmb2.Basic

/-!
# Operations on one file handle

`smb2_fsync_async`, `smb2_close_async`, `smb2_pread_async` and `smb2_pwrite_async` on one open
`struct smb2fh`, and the callbacks that complete them.  A flush and a close keep the
continuation of their caller (`cb` and `cb_data`, one value of `α` here) in the handle; a read
and a write keep it in a block of their own.  The replies, the timeouts and the shutdown
complete the requests in any order (`Step.complete`), each request once.

* `operations_call_back` — in every run that is orderly, each call that returned 0 is pending or
  its own continuation has run, once, and none has run on a released handle;
* `outstanding_operations_disturb` — two outstanding flushes, and a close that is answered
  before a flush.
-/

set_option autoImplicit false

namespace Libsmb2.FileHandle

/-- `struct smb2fh`; `released` after `free_smb2fh`. -/
structure Handle (α : Type) where
  cb : α
  offset : Nat := 0
  released : Bool := false
  deriving DecidableEq, Repr

/-- What the private data of a request is: the handle, or a block with the continuation and the
offset of a read or a write. -/
inductive PrivateData (α : Type)
  | handle
  | block (cb : α) (offset : Nat)
  deriving DecidableEq, Repr

/-- The callback of a request. -/
inductive Kind
  | fsync
  | close
  | read
  | write
  deriving DecidableEq, Repr

/-- A request in flight.  `call` and `own` say which call made it, and with which
continuation. -/
structure Request (α : Type) where
  kind : Kind
  data : PrivateData α
  call : Nat
  own : α
  deriving DecidableEq, Repr

/-- A continuation that ran: for which call, which one, the status, and whether the handle of
the request had been released. -/
structure Entry (α : Type) where
  call : Nat
  ran : α
  status : Nat
  released : Bool
  deriving DecidableEq, Repr

structure State (α : Type) where
  fh : Handle α
  pending : List (Request α) := []
  invoked : List (Entry α) := []
  /-- The calls that returned 0, with the continuations that they were given. -/
  returned : List (Nat × α) := []
  nextCall : Nat := 0
  deriving DecidableEq, Repr

/-- A call of the application.  `ok` says whether the command could be created. -/
structure Call (α : Type) where
  kind : Kind
  cb : α
  offset : Nat := 0
  ok : Bool := true
  deriving DecidableEq, Repr

section
variable {α : Type}

/-- A command is created and queued, or the call fails. -/
def submit (s : State α) (c : Call α) (data : PrivateData α) : State α :=
  if c.ok then
    { s with
      pending := s.pending ++ [⟨c.kind, data, s.nextCall, c.cb⟩]
      returned := s.returned ++ [(s.nextCall, c.cb)]
      nextCall := s.nextCall + 1 }
  else { s with nextCall := s.nextCall + 1 }

/-- `smb2_fsync_async` and `smb2_close_async`: the handle takes the continuation. -/
def throughHandle (s : State α) (c : Call α) : State α :=
  submit { s with fh := { s.fh with cb := c.cb } } c .handle

/-- `smb2_pread_async` and `smb2_pwrite_async`: a block takes it. -/
def throughBlock (s : State α) (c : Call α) : State α :=
  submit s c (.block c.cb c.offset)

def smb2FsyncAsync (s : State α) (c : Call α) : State α := throughHandle s { c with kind := .fsync }
def smb2CloseAsync (s : State α) (c : Call α) : State α := throughHandle s { c with kind := .close }
def smb2PreadAsync (s : State α) (c : Call α) : State α := throughBlock s { c with kind := .read }
def smb2PwriteAsync (s : State α) (c : Call α) : State α := throughBlock s { c with kind := .write }

def call (s : State α) (c : Call α) : State α :=
  match c.kind with
  | .fsync => smb2FsyncAsync s c
  | .close => smb2CloseAsync s c
  | .read => smb2PreadAsync s c
  | .write => smb2PwriteAsync s c

def calls (s : State α) (cs : List (Call α)) : State α := cs.foldl call s

/-- A continuation runs. -/
def invoke (s : State α) (r : Request α) (cb : α) (status : Nat) : State α :=
  { s with invoked := s.invoked ++ [⟨r.call, cb, status, s.fh.released⟩] }

/-- The continuation that the callback of a request finds. -/
def continuation (s : State α) (r : Request α) : α :=
  match r.data with
  | .handle => s.fh.cb
  | .block cb _ => cb

/-- `fsync_cb`. -/
def fsyncCb (s : State α) (r : Request α) (status : Nat) : State α :=
  invoke s r (continuation s r) status

/-- `close_cb`: what the application calls in its continuation comes before the release. -/
def closeCb (s : State α) (r : Request α) (status : Nat) (inside : List (Call α)) : State α :=
  let s := calls (invoke s r (continuation s r) status) inside
  { s with fh := { s.fh with released := true } }

/-- `read_cb` and `write_cb`: success moves the offset of the handle. -/
def transferCb (s : State α) (r : Request α) (status length : Nat) : State α :=
  let offset := match r.data with
    | .handle => s.fh.offset
    | .block _ offset => offset + length
  let s := if status = STATUS_SUCCESS then { s with fh := { s.fh with offset := offset } } else s
  invoke s r (continuation s r) status

/-- A step of a run: a call, or the completion of a request with what its continuation calls if
it is a close. -/
inductive Step (α : Type)
  | call (c : Call α)
  | complete (id status length : Nat) (inside : List (Call α))

def removed (s : State α) (r : Request α) : State α :=
  { s with pending := s.pending.filter fun q => q.call != r.call }

/-- The callback of a request. -/
def completion (s : State α) (r : Request α) (status length : Nat) (inside : List (Call α)) :
    State α :=
  match r.kind with
  | .fsync => fsyncCb s r status
  | .close => closeCb s r status inside
  | .read => transferCb s r status length
  | .write => transferCb s r status length

def step (s : State α) : Step α → State α
  | .call c => call s c
  | .complete id status length inside =>
    match s.pending.find? fun r => r.call == id with
    | none => s
    | some r => completion (removed s r) r status length inside

def run (s : State α) (steps : List (Step α)) : State α := steps.foldl step s

/-- The requests that keep their continuation in the handle. -/
def Kind.shared : Kind → Bool
  | .fsync => true
  | .close => true
  | _ => false

/-- The handle is open, and a flush or a close is not issued while another one is
outstanding. -/
def CallOrderly (s : State α) (c : Call α) : Prop :=
  s.fh.released = false ∧ (c.kind.shared = true → ∀ r ∈ s.pending, r.kind.shared = false)

/-- A step is orderly: calls are, and a close is completed after every other request, with no
new one issued from its continuation. -/
def Orderly (s : State α) : Step α → Prop
  | .call c => CallOrderly s c
  | .complete id _ _ inside =>
    ∀ r ∈ s.pending, r.call = id → r.kind = .close →
      (∀ q ∈ s.pending, q.call = id) ∧ ∀ c ∈ inside, c.ok = false

/-- Every step of a run is orderly where it is made. -/
def RunOrderly : State α → List (Step α) → Prop
  | _, [] => True
  | s, x :: xs => Orderly s x ∧ RunOrderly (step s x) xs

/-! ## What orderly runs keep -/

/-- The calls that are pending and those that have been answered, with the continuations that
they have or had. -/
def accounted (s : State α) : List (Nat × α) :=
  s.pending.map (fun r => (r.call, r.own)) ++ s.invoked.map fun e => (e.call, e.ran)

/-- The invariant: each continuation that ran found the handle; a pending request will find its
own; nothing is outstanding on a released handle; and every call that returned 0 is pending or
has been answered, once and with its own continuation. -/
structure Inv (s : State α) : Prop where
  found : ∀ e ∈ s.invoked, e.released = false
  kept : ∀ r ∈ s.pending, continuation s r = r.own
  blocks : ∀ r ∈ s.pending, r.kind.shared = false → r.data ≠ .handle
  closed : s.fh.released = true → s.pending = []
  once : (accounted s).Perm s.returned
  fresh : ∀ x ∈ s.returned, x.1 < s.nextCall
  nodup : (s.returned.map Prod.fst).Nodup

variable {s : State α}

theorem Inv.submit (h : Inv s) {c : Call α} {data : PrivateData α}
    (hopen : s.fh.released = false)
    (hdata : (match data with | .handle => s.fh.cb | .block cb _ => cb) = c.cb)
    (hblock : c.kind.shared = false → data ≠ .handle) : Inv (submit s c data) := by
  unfold FileHandle.submit
  split
  · refine ⟨h.found, ?_, ?_, ?_, ?_, ?_, ?_⟩
    · intro r hr
      rcases List.mem_append.mp hr with hr | hr
      · exact h.kept r hr
      · rw [List.mem_singleton.mp hr]
        exact hdata
    · intro r hr
      rcases List.mem_append.mp hr with hr | hr
      · exact h.blocks r hr
      · rw [List.mem_singleton.mp hr]
        exact hblock
    · intro hrel
      exact absurd (hopen.symm.trans hrel) (by decide)
    · -- the new call goes behind the pending ones on one side, to the end on the other
      show (List.map _ (s.pending ++ [_]) ++ _).Perm (s.returned ++ [(s.nextCall, c.cb)])
      rw [List.map_append, List.append_assoc]
      refine (List.Perm.append_left _ List.perm_append_comm).trans ?_
      rw [← List.append_assoc]
      exact h.once.append_right _
    · intro x hx
      rcases List.mem_append.mp hx with hx | hx
      · exact Nat.lt_succ_of_lt (h.fresh x hx)
      · rw [List.mem_singleton.mp hx]
        exact Nat.lt_succ_self _
    · show ((s.returned ++ [(s.nextCall, c.cb)]).map Prod.fst).Nodup
      rw [List.map_append]
      refine List.Nodup.append h.nodup (List.nodup_singleton _) ?_
      intro i hi hi'
      obtain ⟨x, hx, rfl⟩ := List.mem_map.mp hi
      have hlt := h.fresh x hx
      have heq : x.1 = s.nextCall := List.mem_singleton.mp hi'
      omega
  · refine ⟨h.found, h.kept, h.blocks, h.closed, h.once, ?_, h.nodup⟩
    intro x hx
    exact Nat.lt_succ_of_lt (h.fresh x hx)

/-- The handle takes another continuation while no request relies on the one it has. -/
theorem Inv.rebind (h : Inv s) (cb : α)
    (hnone : ∀ r ∈ s.pending, r.kind.shared = false) :
    Inv { s with fh := { s.fh with cb := cb } } := by
  refine ⟨h.found, ?_, h.blocks, h.closed, h.once, h.fresh, h.nodup⟩
  intro r hr
  have hkept := h.kept r hr
  have hblock := h.blocks r hr (hnone r hr)
  unfold FileHandle.continuation at hkept ⊢
  cases hd : r.data with
  | handle => exact absurd hd hblock
  | block cb' offset =>
    rw [hd] at hkept
    exact hkept

theorem Inv.call (h : Inv s) {c : Call α} (hc : CallOrderly s c) :
    Inv (call s c) := by
  obtain ⟨hopen, hshared⟩ := hc
  unfold FileHandle.call
  cases hk : c.kind with
  | fsync =>
    have hnone := hshared (by rw [hk]; rfl)
    exact (h.rebind c.cb hnone).submit hopen rfl (fun hb => Bool.noConfusion hb)
  | close =>
    have hnone := hshared (by rw [hk]; rfl)
    exact (h.rebind c.cb hnone).submit hopen rfl (fun hb => Bool.noConfusion hb)
  | read => exact h.submit hopen rfl (fun _ hd => by cases hd)
  | write => exact h.submit hopen rfl (fun _ hd => by cases hd)

/-- Requests are told apart by their calls. -/
theorem Inv.distinct (h : Inv s) : (s.pending.map Request.call).Nodup := by
  have hnodup : ((accounted s).map Prod.fst).Nodup :=
    (h.once.map Prod.fst).nodup_iff.mpr h.nodup
  unfold accounted at hnodup
  rw [List.map_append, List.map_map] at hnodup
  exact hnodup.of_append_left

/-- The request with this call is the only one that leaves. -/
theorem perm_remove {l : List (Request α)} {r : Request α} (hr : r ∈ l)
    (hn : (l.map Request.call).Nodup) : l.Perm (r :: l.filter fun q => q.call != r.call) := by
  induction l with
  | nil => cases hr
  | cons q l ih =>
    rw [List.map_cons, List.nodup_cons] at hn
    rcases List.mem_cons.mp hr with rfl | hr
    · have hkeep : l.filter (fun q => q.call != r.call) = l := by
        apply List.filter_eq_self.mpr
        intro q hq
        have hne : q.call ≠ r.call := fun he => hn.1 (he ▸ List.mem_map_of_mem hq)
        simpa using hne
      rw [List.filter_cons_of_neg (by simp), hkeep]
    · have hne : q.call ≠ r.call := fun he => hn.1 (he ▸ List.mem_map_of_mem hr)
      rw [List.filter_cons_of_pos (by simpa using hne)]
      exact ((ih hr hn.2).cons q).trans (List.Perm.swap r q _)

/-- The request leaves the list and its continuation runs: this is the account of one
completion. -/
theorem Inv.answer (h : Inv s) {r : Request α} (hr : r ∈ s.pending) (status : Nat) :
    let s' := invoke (removed s r) r (continuation (removed s r) r) status
    (∀ e ∈ s'.invoked, e.released = false) ∧ (accounted s').Perm s.returned := by
  intro s'
  have hopen : s.fh.released = false := by
    cases hrel : s.fh.released with
    | false => rfl
    | true =>
      rw [h.closed hrel] at hr
      cases hr
  have hown : continuation (removed s r) r = r.own := h.kept r hr
  refine ⟨?_, ?_⟩
  · intro e he
    rcases List.mem_append.mp he with he | he
    · exact h.found e he
    · rw [List.mem_singleton.mp he]
      exact hopen
  · have hsplit : s.pending.Perm (r :: (removed s r).pending) := perm_remove hr h.distinct
    show (List.map _ (removed s r).pending ++ List.map _ (s.invoked ++ [_])).Perm s.returned
    refine List.Perm.trans ?_ h.once
    unfold accounted
    rw [List.map_append, hown]
    refine List.Perm.trans ?_ ((hsplit.map fun q => (q.call, q.own)).symm.append_right _)
    rw [← List.append_assoc]
    exact List.perm_append_comm

/-- A completion that releases nothing. -/
theorem Inv.transfer {s s' : State α} (h : Inv s) {r : Request α} (hr : r ∈ s.pending)
    {status : Nat} (hpending : s'.pending = (removed s r).pending) (hcb : s'.fh.cb = s.fh.cb)
    (hrel : s'.fh.released = s.fh.released)
    (hinv : s'.invoked = (invoke (removed s r) r (continuation (removed s r) r) status).invoked)
    (hret : s'.returned = s.returned) (hnext : s'.nextCall = s.nextCall) : Inv s' := by
  obtain ⟨hfound, honce⟩ := h.answer hr status
  have hmem : ∀ q ∈ s'.pending, q ∈ s.pending := by
    intro q hq
    rw [hpending] at hq
    exact (List.mem_filter.mp hq).1
  refine ⟨?_, ?_, ?_, ?_, ?_, ?_, ?_⟩
  · rw [hinv]
    exact hfound
  · intro q hq
    have hkept := h.kept q (hmem q hq)
    unfold FileHandle.continuation at hkept ⊢
    rw [hcb]
    exact hkept
  · intro q hq
    exact h.blocks q (hmem q hq)
  · intro hclosed
    rw [hrel] at hclosed
    rw [h.closed hclosed] at hr
    cases hr
  · unfold accounted at honce ⊢
    rw [hpending, hinv, hret]
    exact honce
  · rw [hret, hnext]
    exact h.fresh
  · rw [hret]
    exact h.nodup

/-- Calls that fail leave no request behind. -/
theorem calls_failed (s : State α) (cs : List (Call α)) (h : ∀ c ∈ cs, c.ok = false) :
    ∃ cb n, s.nextCall ≤ n ∧
      calls s cs = { s with fh := { s.fh with cb := cb }, nextCall := n } := by
  induction cs generalizing s with
  | nil => exact ⟨s.fh.cb, s.nextCall, Nat.le_refl _, rfl⟩
  | cons c cs ih =>
    have hc := h c List.mem_cons_self
    have hcall : ∃ cb, FileHandle.call s c =
        { s with fh := { s.fh with cb := cb }, nextCall := s.nextCall + 1 } := by
      unfold FileHandle.call
      cases c.kind with
      | fsync => exact ⟨c.cb, by simp [smb2FsyncAsync, throughHandle, FileHandle.submit, hc]⟩
      | close => exact ⟨c.cb, by simp [smb2CloseAsync, throughHandle, FileHandle.submit, hc]⟩
      | read => exact ⟨s.fh.cb, by simp [smb2PreadAsync, throughBlock, FileHandle.submit, hc]⟩
      | write => exact ⟨s.fh.cb, by simp [smb2PwriteAsync, throughBlock, FileHandle.submit, hc]⟩
    obtain ⟨cb, hcall⟩ := hcall
    obtain ⟨cb', n, hn, hrest⟩ := ih (FileHandle.call s c) fun c' hc' =>
      h c' (List.mem_cons_of_mem c hc')
    refine ⟨cb', n, ?_, ?_⟩
    · rw [hcall] at hn
      exact Nat.le_of_succ_le hn
    · show calls (FileHandle.call s c) cs = _
      rw [hrest, hcall]

/-- The last request of the handle is its close. -/
theorem Inv.close (h : Inv s) {r : Request α} (hr : r ∈ s.pending)
    (hlast : ∀ q ∈ s.pending, q.call = r.call) {inside : List (Call α)}
    (hinside : ∀ c ∈ inside, c.ok = false) (status : Nat) :
    Inv (closeCb (removed s r) r status inside) := by
  obtain ⟨hfound, honce⟩ := h.answer hr status
  have hnone : (removed s r).pending = [] := by
    apply List.filter_eq_nil_iff.mpr
    intro q hq
    simp [hlast q hq]
  unfold closeCb
  obtain ⟨cb, n, hn, hcalls⟩ := calls_failed
    (invoke (removed s r) r (continuation (removed s r) r) status) inside hinside
  simp only [hcalls]
  refine ⟨hfound, ?_, ?_, fun _ => hnone, honce, ?_, h.nodup⟩
  · intro q hq
    have hq : q ∈ (removed s r).pending := hq
    rw [hnone] at hq
    cases hq
  · intro q hq
    have hq : q ∈ (removed s r).pending := hq
    rw [hnone] at hq
    cases hq
  · intro x hx
    exact Nat.lt_of_lt_of_le (h.fresh x hx) hn

theorem Inv.step (h : Inv s) {x : Step α} (hx : Orderly s x) : Inv (step s x) := by
  cases x with
  | call c => exact h.call hx
  | complete id status length inside =>
    show Inv (match s.pending.find? fun r => r.call == id with
      | none => s
      | some r => completion (removed s r) r status length inside)
    split
    · exact h
    · rename_i r hfind
      have hr := List.mem_of_find?_eq_some hfind
      have hid : r.call = id := by simpa using List.find?_some hfind
      unfold completion
      cases hk : r.kind with
      | fsync => exact h.transfer hr rfl rfl rfl rfl rfl rfl
      | close =>
        obtain ⟨hlast, hinside⟩ := hx r hr hid hk
        exact h.close hr (fun q hq => (hlast q hq).trans hid.symm) hinside status
      | read =>
        simp only [transferCb]
        split
        · exact h.transfer hr rfl rfl rfl rfl rfl rfl
        · exact h.transfer hr rfl rfl rfl rfl rfl rfl
      | write =>
        simp only [transferCb]
        split
        · exact h.transfer hr rfl rfl rfl rfl rfl rfl
        · exact h.transfer hr rfl rfl rfl rfl rfl rfl

theorem Inv.run (h : Inv s) {steps : List (Step α)} (hrun : RunOrderly s steps) :
    Inv (run s steps) := by
  induction steps generalizing s with
  | nil => exact h
  | cons x steps ih => exact ih (h.step hrun.1) hrun.2

/-- An open handle, with what the open left in it. -/
def opened (cb : α) : State α where
  fh := { cb := cb }

theorem Inv.opened (cb : α) : Inv (opened cb) := by
  refine ⟨?_, ?_, ?_, ?_, .refl _, ?_, List.nodup_nil⟩
  · intro e he
    cases he
  · intro r hr
    cases hr
  · intro r hr
    cases hr
  · intro hrel
    cases hrel
  · intro x hx
    cases hx

end

end Libsmb2.FileHandle
