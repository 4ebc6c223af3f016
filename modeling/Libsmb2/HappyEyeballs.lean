import Libsmb2.Util.Bytes

/-!
# Connecting to one of several addresses

`tcp_connect` and `tcp_service` while no socket has been connected yet: the attempts that run in
parallel (`connecting_fds`), the addresses that are left (`next_addrinfo`), and the callback that
`tcp_connect` installed.  The list of addresses is the one that `interleave_addrinfo` leaves; how
a call of `connect_async_ai` ends is part of the event that causes it (`Start`).

`untried` and `progress` are bookkeeping: how many addresses no attempt has been made for, and
the sockets of the attempts that have neither failed nor succeeded.

* `failures_are_reported_last` — the callback runs at most once, and a step reports a failure
  only when every address has been tried and has failed, exactly if `Cond` holds for it;
* `one_failure_of_two_is_reported` — two attempts in parallel, and the failure of the first one
  fails the connection.
-/

set_option autoImplicit false

namespace Libsmb2.HappyEyeballs

open Util

/-- How `connect_async_ai` ends. -/
inductive Start
  | inProgress (fd : Nat)
  /-- The address family is unknown. -/
  | einval
  /-- There is no socket, or `connect` fails at once. -/
  | eio
  deriving DecidableEq, Repr

/-- What `connect_async_ai` returns. -/
def Start.err : Start → Int
  | .inProgress _ => 0
  | .einval => -22
  | .eio => -5

/-- The part of `struct smb2_context` that connecting uses. -/
structure Connecting where
  fd : Option Nat := none
  connectingFds : List Nat := []
  nextAddrinfo : List Nat
  connectCb : Bool := false
  /-- The statuses that the callback was called with. -/
  calls : List Int := []
  untried : Nat
  progress : List Nat := []
  deriving DecidableEq, Repr

/-- A call of `tcp_service`.  `fd` is `none` for an invalid socket; `soError` is what `getsockopt`
reports; `ioFails` is whether reading and writing an established connection fail; `starts` is
how the attempts end that the call makes. -/
structure Event where
  fd : Option Nat
  pollErr : Bool := false
  pollHup : Bool := false
  pollOut : Bool := false
  pollIn : Bool := false
  soError : Int := 0
  ioFails : Bool := false
  starts : List Start := []
  deriving DecidableEq, Repr

/-- The loop of `smb2_connect_async_next_addr`: the socket of the first attempt that starts, and
the addresses behind it. -/
def firstStart : List Nat → List Start → Int → Except Int (Nat × List Nat)
  | [], _, err => .error err
  | _ :: rest, starts, _ =>
    match starts.headD .eio with
    | .inProgress fd => .ok (fd, rest)
    | start => firstStart rest starts.tail start.err

/-- `smb2_connect_async_next_addr`. -/
def connectAsyncNextAddr (s : Connecting) (starts : List Start) : Connecting × Int :=
  match firstStart s.nextAddrinfo starts (-1) with
  | .ok (fd, rest) =>
    ({ s with
      connectingFds := s.connectingFds ++ [fd]
      nextAddrinfo := rest
      untried := min s.untried rest.length
      progress := s.progress ++ [fd] }, 0)
  | .error err => ({ s with untried := 0 }, err)

/-- The sockets of an array, read back from its octets. -/
def socketsOf : Nat → Bytes → List Nat
  | 0, _ => []
  | n + 1, bs => fromLe (bs.take 4) :: socketsOf n (bs.drop 4)

/-- The `memmove` of `smb2_close_connecting_fd`: the length is a number of sockets, taken for a
number of octets. -/
def closeGap (fds : List Nat) (i : Nat) : List Nat :=
  let octets := fds.flatMap (le 4)
  socketsOf fds.length (patch octets (4 * i) (slice octets (4 * (i + 1)) (fds.length - i - 1)))

/-- `smb2_close_connecting_fd`. -/
def closeConnectingFd (s : Connecting) (fd : Nat) : Connecting :=
  match s.connectingFds.findIdx? (· == fd) with
  | none => s
  | some i => { s with connectingFds := (closeGap s.connectingFds i).dropLast }

/-- `smb2_close_connecting_fds`. -/
def closeConnectingFds (s : Connecting) : Connecting :=
  { s with connectingFds := [], nextAddrinfo := [], progress := [] }

/-- The callback runs, if it is still there. -/
def callConnectCb (s : Connecting) (status : Int) : Connecting :=
  if s.connectCb then { s with connectCb := false, calls := s.calls ++ [status] } else s

/-- An attempt has failed. -/
def noteFailed (s : Connecting) (fd : Nat) : Connecting :=
  { s with progress := s.progress.erase fd }

/-- What `tcp_service` does about a socket with an error, in both places: it goes on with the
next address, or reports the error. -/
def attemptFailed (s : Connecting) (fd : Nat) (err : Int) (starts : List Start) :
    Connecting × Int :=
  let s := noteFailed s fd
  if s.fd = none ∧ s.nextAddrinfo ≠ [] then
    let x := connectAsyncNextAddr (closeConnectingFd s fd) starts
    if x.2 = 0 then (x.1, 0) else (callConnectCb x.1 x.2, -1)
  else (callConnectCb s err, -1)

/-- `tcp_service` for a socket that it knows. -/
def serviceSocket (s : Connecting) (fd : Nat) (e : Event) : Connecting × Int :=
  if e.pollErr then attemptFailed s fd e.soError e.starts
  else if e.pollHup then (noteFailed s fd, -1)
  else if s.fd = none ∧ e.pollOut then
    if e.soError ≠ 0 then attemptFailed s fd e.soError e.starts
    else (callConnectCb { closeConnectingFds s with fd := some fd } 0, 0)
  -- there is nothing to read from while no socket is connected
  else if e.pollIn ∧ (s.fd = none ∨ e.ioFails) then (s, -1)
  else if e.pollOut ∧ e.ioFails then (s, -1)
  else (s, 0)

/-- `tcp_service`. -/
def tcpService (s : Connecting) (e : Event) : Connecting × Int :=
  match e.fd with
  | none =>
    if s.nextAddrinfo ≠ [] then
      let x := connectAsyncNextAddr s e.starts
      (x.1, if x.2 = 0 then 0 else -1)
    else (s, 0)
  | some fd =>
    if s.fd = some fd ∨ fd ∈ s.connectingFds then serviceSocket s fd e else (s, 0)

/-- `tcp_connect`, from the list of addresses on. -/
def tcpConnect (addrs : List Nat) (starts : List Start) : Connecting × Int :=
  let x := connectAsyncNextAddr { nextAddrinfo := addrs, untried := addrs.length } starts
  if x.2 = 0 then ({ x.1 with connectCb := true }, 0)
  else ({ x.1 with nextAddrinfo := [] }, x.2)

def run (s : Connecting) (events : List Event) : Connecting :=
  events.foldl (fun s e => (tcpService s e).1) s

/-- One of the remaining addresses can be started. -/
def startable (addrs : List Nat) (starts : List Start) : Bool :=
  (firstStart addrs starts (-1)).isOk

/-- The call fails the connection: it returns -1 or hands an error to the callback. -/
def Reports (s : Connecting) (e : Event) : Prop :=
  (tcpService s e).2 = -1 ∨ ∃ err, err ≠ 0 ∧ (tcpService s e).1.calls = s.calls ++ [err]

/-- Every address has been tried and has failed. -/
def Exhausted (s : Connecting) : Prop := s.untried = 0 ∧ s.progress = []

/-- The event is a failure of the attempt on this socket that `tcp_service` acts upon. -/
def Event.fails (e : Event) : Bool := e.pollErr || (!e.pollHup && e.pollOut && e.soError != 0)

/-- A failed attempt is the last one, or another address can be started; a tick finds no address
left, or one that can be started, or no attempt in progress; a hang-up or a readable socket
comes when nothing else is left. -/
def Cond (s : Connecting) (e : Event) : Prop :=
  match e.fd with
  | none => s.nextAddrinfo = [] ∨ startable s.nextAddrinfo e.starts = true ∨ s.progress = []
  | some fd =>
    fd ∈ s.connectingFds →
      if e.fails then startable s.nextAddrinfo e.starts = true ∨ s.progress.erase fd = []
      else if e.pollHup then s.untried = 0 ∧ s.progress.erase fd = []
      else if e.pollOut then True
      else if e.pollIn then s.untried = 0 ∧ s.progress = []
      else True

/-! ## Steps -/

theorem firstStart_error {addrs : List Nat} {starts : List Start} {err err' : Int}
    (hne : err ≠ 0) (h : firstStart addrs starts err = .error err') : err' ≠ 0 := by
  induction addrs generalizing starts err with
  | nil =>
    cases h
    exact hne
  | cons a addrs ih =>
    simp only [firstStart] at h
    cases hs : starts.headD .eio with
    | inProgress fd =>
      rw [hs] at h
      cases h
    | einval =>
      rw [hs] at h
      exact ih (by decide) h
    | eio =>
      rw [hs] at h
      exact ih (by decide) h

/-- An attempt is started: there is one more in progress, and the addresses behind it are
left. -/
theorem connectAsyncNextAddr_starts (s : Connecting) (starts : List Start)
    (h : startable s.nextAddrinfo starts = true) :
    (connectAsyncNextAddr s starts).2 = 0 ∧ (connectAsyncNextAddr s starts).1.fd = s.fd ∧
      (connectAsyncNextAddr s starts).1.connectCb = s.connectCb ∧
      (connectAsyncNextAddr s starts).1.calls = s.calls ∧
      (connectAsyncNextAddr s starts).1.untried ≤
        (connectAsyncNextAddr s starts).1.nextAddrinfo.length := by
  unfold startable at h
  unfold connectAsyncNextAddr
  cases hf : firstStart s.nextAddrinfo starts (-1) with
  | error err =>
    rw [hf] at h
    cases h
  | ok x => exact ⟨rfl, rfl, rfl, rfl, Nat.min_le_right _ _⟩

/-- No address can be started: all of them have been tried now. -/
theorem connectAsyncNextAddr_fails (s : Connecting) (starts : List Start)
    (h : startable s.nextAddrinfo starts = false) :
    (connectAsyncNextAddr s starts).2 ≠ 0 ∧
      (connectAsyncNextAddr s starts).1 = { s with untried := 0 } := by
  unfold startable at h
  unfold connectAsyncNextAddr
  cases hf : firstStart s.nextAddrinfo starts (-1) with
  | error err => exact ⟨firstStart_error (by decide) hf, rfl⟩
  | ok x =>
    rw [hf] at h
    cases h

theorem startable_nil (starts : List Start) : startable [] starts = false := rfl

/-- What a run keeps: the callback has not been called while it is there, and is called once;
and no address is untried where none is left. -/
structure Inv (s : Connecting) : Prop where
  fresh : s.connectCb = true → s.calls = []
  once : s.calls.length ≤ 1
  left : s.fd = none → s.untried ≤ s.nextAddrinfo.length

variable {s : Connecting}

theorem callConnectCb_inv (h : Inv s) (status : Int) :
    Inv (callConnectCb s status) := by
  unfold callConnectCb
  split
  · rename_i hcb
    refine ⟨fun hfalse => absurd hfalse Bool.false_ne_true, ?_, h.left⟩
    rw [h.fresh hcb]
    exact Nat.le_refl 1
  · exact h

theorem closeConnectingFd_same (s : Connecting) (fd : Nat) :
    (closeConnectingFd s fd).fd = s.fd ∧ (closeConnectingFd s fd).connectCb = s.connectCb ∧
      (closeConnectingFd s fd).calls = s.calls ∧
      (closeConnectingFd s fd).nextAddrinfo = s.nextAddrinfo ∧
      (closeConnectingFd s fd).untried = s.untried ∧
      (closeConnectingFd s fd).progress = s.progress := by
  unfold closeConnectingFd
  split <;> exact ⟨rfl, rfl, rfl, rfl, rfl, rfl⟩

theorem connectAsyncNextAddr_inv (h : Inv s) (starts : List Start) :
    Inv (connectAsyncNextAddr s starts).1 := by
  cases hs : startable s.nextAddrinfo starts with
  | true =>
    obtain ⟨_, _, hcb, hcalls, hleft⟩ := connectAsyncNextAddr_starts s _ hs
    refine ⟨?_, ?_, fun _ => hleft⟩
    · rw [hcb, hcalls]
      exact h.fresh
    · rw [hcalls]
      exact h.once
  | false =>
    obtain ⟨_, he⟩ := connectAsyncNextAddr_fails s _ hs
    rw [he]
    exact ⟨h.fresh, h.once, fun _ => Nat.zero_le _⟩

theorem attemptFailed_inv (h : Inv s) (fd : Nat) (err : Int)
    (starts : List Start) : Inv (attemptFailed s fd err starts).1 := by
  have hnote : Inv (noteFailed s fd) := ⟨h.fresh, h.once, h.left⟩
  have hclose : Inv (closeConnectingFd (noteFailed s fd) fd) := by
    obtain ⟨hfd, hcb, hcalls, hnext, huntried, _⟩ := closeConnectingFd_same (noteFailed s fd) fd
    refine ⟨?_, ?_, ?_⟩
    · rw [hcb, hcalls]
      exact hnote.fresh
    · rw [hcalls]
      exact hnote.once
    · rw [hfd, huntried, hnext]
      exact hnote.left
  unfold attemptFailed
  simp only
  split
  · split
    · exact connectAsyncNextAddr_inv hclose starts
    · exact callConnectCb_inv (connectAsyncNextAddr_inv hclose starts) _
  · exact callConnectCb_inv hnote err

theorem tcpService_inv (h : Inv s) (e : Event) : Inv (tcpService s e).1 := by
  unfold tcpService
  split
  · split
    · exact connectAsyncNextAddr_inv h e.starts
    · exact h
  · rename_i fd _
    split
    · unfold serviceSocket
      split
      · exact attemptFailed_inv h fd e.soError e.starts
      · split
        · exact ⟨h.fresh, h.once, h.left⟩
        · split
          · split
            · exact attemptFailed_inv h fd e.soError e.starts
            · apply callConnectCb_inv
              exact ⟨h.fresh, h.once, fun hfd => by cases hfd⟩
          · split
            · exact h
            · split
              · exact h
              · exact h
    · exact h

theorem run_inv (h : Inv s) (events : List Event) : Inv (run s events) := by
  induction events generalizing s with
  | nil => exact h
  | cons e events ih => exact ih (tcpService_inv h e)

theorem tcpConnect_inv (addrs : List Nat) (starts : List Start) :
    Inv (tcpConnect addrs starts).1 := by
  have hstart : Inv { nextAddrinfo := addrs, untried := addrs.length } :=
    ⟨fun hcb => absurd hcb Bool.false_ne_true, Nat.zero_le _, fun _ => Nat.le_refl _⟩
  have hnext := connectAsyncNextAddr_inv hstart starts
  unfold tcpConnect
  simp only
  split
  · rename_i hok
    refine ⟨?_, hnext.once, hnext.left⟩
    intro _
    cases hs : startable addrs starts with
    | true => exact (connectAsyncNextAddr_starts _ starts hs).2.2.2.1
    | false => exact absurd hok (connectAsyncNextAddr_fails _ starts hs).1
  · rename_i hfail
    cases hs : startable addrs starts with
    | true => exact absurd (connectAsyncNextAddr_starts _ starts hs).1 hfail
    | false =>
      rw [(connectAsyncNextAddr_fails _ starts hs).2]
      exact ⟨fun hcb => absurd hcb Bool.false_ne_true, Nat.zero_le _, fun _ => Nat.zero_le _⟩

/-! ## When a failure is reported -/

/-- A call that returns 0 and calls nothing back reports nothing. -/
theorem not_reports {e : Event} (hret : (tcpService s e).2 = 0)
    (hcalls : (tcpService s e).1.calls = s.calls) : ¬Reports s e := by
  rintro (hneg | ⟨err, _, happend⟩)
  · rw [hret] at hneg
    cases hneg
  · rw [hcalls] at happend
    have hlen := congrArg List.length happend
    simp at hlen

theorem callConnectCb_progress (s : Connecting) (status : Int) :
    (callConnectCb s status).progress = s.progress ∧
      (callConnectCb s status).untried = s.untried := by
  unfold callConnectCb
  split <;> exact ⟨rfl, rfl⟩

/-- A failed attempt reports nothing if another address can be started; otherwise every address
has been tried, and what counts is whether another attempt is in progress. -/
theorem attemptFailed_cases (h : Inv s) (hfd : s.fd = none) (fd : Nat) (err : Int)
    (starts : List Start) :
    (startable s.nextAddrinfo starts = true → (attemptFailed s fd err starts).2 = 0 ∧
      (attemptFailed s fd err starts).1.calls = s.calls) ∧
    (startable s.nextAddrinfo starts = false → (attemptFailed s fd err starts).2 = -1 ∧
      (Exhausted (attemptFailed s fd err starts).1 ↔ s.progress.erase fd = [])) := by
  obtain ⟨hfd', _, hcalls', hnext, _, hprog⟩ := closeConnectingFd_same (noteFailed s fd) fd
  have hsame : (closeConnectingFd (noteFailed s fd) fd).nextAddrinfo = s.nextAddrinfo := hnext
  refine ⟨?_, ?_⟩
  · intro hs
    have hne : s.nextAddrinfo ≠ [] := by
      intro hnil
      rw [hnil, startable_nil] at hs
      cases hs
    obtain ⟨hzero, _, _, hcalls, _⟩ :=
      connectAsyncNextAddr_starts (closeConnectingFd (noteFailed s fd) fd) starts (by rw [hsame]; exact hs)
    unfold attemptFailed
    simp only
    rw [if_pos (show (noteFailed s fd).fd = none ∧ (noteFailed s fd).nextAddrinfo ≠ [] from
      ⟨hfd, hne⟩), if_pos hzero]
    exact ⟨rfl, hcalls.trans hcalls'⟩
  · intro hs
    unfold attemptFailed
    simp only
    by_cases hne : s.nextAddrinfo = []
    · have hleft := h.left hfd
      rw [hne] at hleft
      rw [if_neg (show ¬((noteFailed s fd).fd = none ∧ (noteFailed s fd).nextAddrinfo ≠ []) from
        fun hc => hc.2 hne)]
      refine ⟨rfl, ?_⟩
      obtain ⟨hp, hu⟩ := callConnectCb_progress (noteFailed s fd) err
      unfold Exhausted
      rw [hp, hu]
      exact ⟨fun hx => hx.2, fun hx => ⟨Nat.le_zero.mp hleft, hx⟩⟩
    · obtain ⟨hnz, he⟩ :=
        connectAsyncNextAddr_fails (closeConnectingFd (noteFailed s fd) fd) starts (by rw [hsame]; exact hs)
      rw [if_pos (show (noteFailed s fd).fd = none ∧ (noteFailed s fd).nextAddrinfo ≠ [] from
        ⟨hfd, hne⟩), if_neg hnz]
      refine ⟨rfl, ?_⟩
      obtain ⟨hp, hu⟩ := callConnectCb_progress
        (connectAsyncNextAddr (closeConnectingFd (noteFailed s fd) fd) starts).1
        (connectAsyncNextAddr (closeConnectingFd (noteFailed s fd) fd) starts).2
      unfold Exhausted
      rw [hp, hu, he]
      show 0 = 0 ∧ (closeConnectingFd (noteFailed s fd) fd).progress = [] ↔ _
      rw [hprog]
      exact ⟨fun hx => hx.2, fun hx => ⟨rfl, hx⟩⟩

/-- A call that returns -1 is right to do so if everything has failed. -/
theorem reports_iff {e : Event} (hret : (tcpService s e).2 = -1) :
    (Reports s e → Exhausted (tcpService s e).1) ↔ Exhausted (tcpService s e).1 :=
  ⟨fun h => h (.inl hret), fun h _ => h⟩

theorem tcpService_failed (h : Inv s) (hfd : s.fd = none) {e : Event} {fd : Nat}
    {err : Int} (hcall : tcpService s e = attemptFailed s fd err e.starts) :
    (Reports s e → Exhausted (tcpService s e).1) ↔
      (startable s.nextAddrinfo e.starts = true ∨ s.progress.erase fd = []) := by
  obtain ⟨hgo, hend⟩ := attemptFailed_cases h hfd fd err e.starts
  cases hs : startable s.nextAddrinfo e.starts with
  | true =>
    obtain ⟨hret, hcalls⟩ := hgo hs
    have hnot := not_reports (s := s) (e := e) (by rw [hcall]; exact hret)
      (by rw [hcall]; exact hcalls)
    exact ⟨fun _ => .inl rfl, fun _ hr => absurd hr hnot⟩
  | false =>
    obtain ⟨hret, hex⟩ := hend hs
    rw [reports_iff (by rw [hcall]; exact hret), hcall, hex]
    exact ⟨fun hx => .inr hx, fun hx => hx.resolve_left Bool.false_ne_true⟩

/-- **A step reports a failure only when everything has failed, exactly if `Cond` holds.** -/
theorem tcpService_reports (h : Inv s) (hfd : s.fd = none) (e : Event) :
    (Reports s e → Exhausted (tcpService s e).1) ↔ Cond s e := by
  cases hefd : e.fd with
  | none =>
    simp only [Cond, hefd]
    by_cases hne : s.nextAddrinfo = []
    · have hcall : tcpService s e = (s, 0) := by simp [tcpService, hefd, hne]
      have hnot := not_reports (s := s) (e := e) (by rw [hcall]) (by rw [hcall])
      exact ⟨fun _ => .inl hne, fun _ hr => absurd hr hnot⟩
    · have hcall : tcpService s e = ((connectAsyncNextAddr s e.starts).1,
          if (connectAsyncNextAddr s e.starts).2 = 0 then 0 else -1) := by
        simp [tcpService, hefd, hne]
      cases hs : startable s.nextAddrinfo e.starts with
      | true =>
        obtain ⟨hzero, _, _, hcalls, _⟩ := connectAsyncNextAddr_starts s _ hs
        have hnot := not_reports (s := s) (e := e) (by rw [hcall]; exact if_pos hzero)
          (by rw [hcall]; exact hcalls)
        exact ⟨fun _ => .inr (.inl rfl), fun _ hr => absurd hr hnot⟩
      | false =>
        obtain ⟨hnz, he⟩ := connectAsyncNextAddr_fails s _ hs
        rw [reports_iff (by rw [hcall]; exact if_neg hnz), hcall]
        show Exhausted (connectAsyncNextAddr s e.starts).1 ↔ _
        rw [he]
        constructor
        · intro hx
          exact .inr (.inr hx.2)
        · rintro (hnil | hs' | hx)
          · exact absurd hnil hne
          · exact absurd hs' Bool.false_ne_true
          · exact ⟨rfl, hx⟩
  | some fd =>
    simp only [Cond, hefd]
    by_cases hmem : fd ∈ s.connectingFds
    · have hcall : tcpService s e = serviceSocket s fd e := by simp [tcpService, hefd, hmem]
      rw [show (fd ∈ s.connectingFds → _) ↔ _ from ⟨fun hx => hx hmem, fun hx _ => hx⟩]
      cases herr : e.pollErr with
      | true =>
        have hcall' : tcpService s e = attemptFailed s fd e.soError e.starts := by
          rw [hcall]
          simp [serviceSocket, herr]
        rw [tcpService_failed h hfd hcall', if_pos (by simp [Event.fails, herr])]
      | false =>
        cases hhup : e.pollHup with
        | true =>
          have hcall' : tcpService s e = (noteFailed s fd, -1) := by
            rw [hcall]
            simp [serviceSocket, herr, hhup]
          rw [reports_iff (by rw [hcall']), hcall', if_neg (by simp [Event.fails, herr, hhup]),
            if_pos rfl]
          rfl
        | false =>
          cases hout : e.pollOut with
          | true =>
            by_cases hso : e.soError = 0
            · have hcall' : tcpService s e =
                  (callConnectCb { closeConnectingFds s with fd := some fd } 0, 0) := by
                rw [hcall]
                simp [serviceSocket, herr, hhup, hfd, hout, hso]
              rw [if_neg (by simp [Event.fails, herr, hhup, hout, hso]), if_neg (by simp),
                if_pos rfl]
              refine ⟨fun _ => trivial, fun _ hr => ?_⟩
              rcases hr with hneg | ⟨err, herr0, happend⟩
              · rw [hcall'] at hneg
                cases hneg
              · -- the callback was told about a success
                exfalso
                rw [hcall'] at happend
                unfold callConnectCb at happend
                split at happend
                · have hlast := List.append_cancel_left happend
                  exact herr0 (List.singleton_inj.mp hlast).symm
                · have hlen := congrArg List.length happend
                  simp [closeConnectingFds] at hlen
            · have hcall' : tcpService s e = attemptFailed s fd e.soError e.starts := by
                rw [hcall]
                simp [serviceSocket, herr, hhup, hfd, hout, hso]
              rw [tcpService_failed h hfd hcall',
                if_pos (by simp [Event.fails, herr, hhup, hout, hso])]
          | false =>
            cases hin : e.pollIn with
            | true =>
              have hcall' : tcpService s e = (s, -1) := by
                rw [hcall]
                simp [serviceSocket, herr, hhup, hfd, hout, hin]
              rw [reports_iff (by rw [hcall']), hcall',
                if_neg (by simp [Event.fails, herr, hhup, hout]), if_neg (by simp),
                if_neg (by simp), if_pos rfl]
              rfl
            | false =>
              have hcall' : tcpService s e = (s, 0) := by
                rw [hcall]
                simp [serviceSocket, herr, hhup, hfd, hout, hin]
              have hnot := not_reports (s := s) (e := e) (by rw [hcall']) (by rw [hcall'])
              rw [if_neg (by simp [Event.fails, herr, hhup, hout]), if_neg (by simp),
                if_neg (by simp), if_neg (by simp)]
              exact ⟨fun _ => trivial, fun _ hr => absurd hr hnot⟩
    · have hcall : tcpService s e = (s, 0) := by simp [tcpService, hefd, hmem, hfd]
      have hnot := not_reports (s := s) (e := e) (by rw [hcall]) (by rw [hcall])
      exact ⟨fun _ hin => absurd hin hmem, fun _ hr => absurd hr hnot⟩

/-- **Connecting to several addresses.**  In every state of every run the callback has been
called at most once, and while no socket is connected a step reports a failure only when every
address has been tried and has failed, exactly if `Cond` holds for the step. -/
theorem failures_are_reported_last (addrs : List Nat) (starts : List Start)
    (events : List Event) :
    let s := run (tcpConnect addrs starts).1 events
    s.calls.length ≤ 1 ∧
      (s.fd = none → ∀ e, (Reports s e → Exhausted (tcpService s e).1) ↔ Cond s e) := by
  intro s
  have h := run_inv (tcpConnect_inv addrs starts) events
  exact ⟨h.once, fun hfd e => tcpService_reports h hfd e⟩

/-- The first of two addresses fails before the second one is tried. -/
theorem failures_are_reported_last_two :
    let s := run (tcpConnect [0, 1] [.inProgress 5]).1 []
    Reports s { fd := some 5, pollErr := true, starts := [.inProgress 6] } →
      Exhausted (tcpService s { fd := some 5, pollErr := true, starts := [.inProgress 6] }).1 := by
  have h := failures_are_reported_last [0, 1] [.inProgress 5] []
  exact ((h.2 rfl) { fd := some 5, pollErr := true, starts := [.inProgress 6] }).mpr
    (fun _ => by decide)

/-- **Two attempts run in parallel** and the first one fails: the callback gets the error and the
call returns -1, while the second attempt is in progress. -/
theorem one_failure_of_two_is_reported :
    let s := run (tcpConnect [0, 1] [.inProgress 5]).1 [{ fd := none, starts := [.inProgress 6] }]
    let x := tcpService s { fd := some 5, pollErr := true, soError := 111 }
    s.progress = [5, 6] ∧ x.2 = -1 ∧ x.1.calls = [111] ∧ x.1.progress = [6] := by
  decide

end Libsmb2.HappyEyeballs
