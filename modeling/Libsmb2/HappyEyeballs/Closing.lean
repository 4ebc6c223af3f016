import Libsmb2.HappyEyeballs
import Mathlib.Data.List.TakeWhile

/-!
# Closing one of several connecting sockets

What `smb2_close_connecting_fd` leaves of `connecting_fds`.  Its `memmove` moves as many octets
as there are sockets behind the one that is closed, and a socket has four.

* `closeConnectingFd_removes_iff` — the socket is removed and the others are kept, in order,
  exactly if `Removable` holds;
* `closing_the_first_of_three_loses_the_last` — three sockets, of which the first one is closed.
-/

set_option autoImplicit false

namespace Libsmb2.HappyEyeballs

open Util

/-- The socket is not in the array, or no socket is behind it, or one is that has the same upper
three octets. -/
def Removable (fds : List Nat) (fd : Nat) : Prop :=
  match fds.dropWhile (· != fd) with
  | [] => True
  | [_] => True
  | [_, last] => last / 256 = fd / 256
  | _ => False

instance (fds : List Nat) (fd : Nat) : Decidable (Removable fds fd) := by
  unfold Removable
  split <;> infer_instance

theorem length_octets (fds : List Nat) : (fds.flatMap (le 4)).length = 4 * fds.length := by
  induction fds with
  | nil => rfl
  | cons d fds ih =>
    simp only [List.flatMap_cons, List.length_append, length_le, List.length_cons, ih]
    omega

/-- The sockets whose octets stand first are read back. -/
theorem socketsOf_octets_append {fds : List Nat} (hfds : ∀ d ∈ fds, d < 4294967296) (n : Nat)
    (bs : Bytes) :
    socketsOf (fds.length + n) (fds.flatMap (le 4) ++ bs) = fds ++ socketsOf n bs := by
  induction fds with
  | nil => simp
  | cons d fds ih =>
    have hd : fromLe (le 4 d) = d := by
      rw [fromLe_le]
      exact Nat.mod_eq_of_lt (hfds d (by simp))
    have hlen : (d :: fds).length + n = (fds.length + n) + 1 := by
      simp only [List.length_cons]
      omega
    rw [hlen, List.flatMap_cons, List.append_assoc, socketsOf]
    rw [List.take_left' (length_le 4 d), List.drop_left' (length_le 4 d), hd,
      ih (fun d' h => hfds d' (by simp [h]))]
    rfl

theorem length_socketsOf (n : Nat) (bs : Bytes) : (socketsOf n bs).length = n := by
  induction n generalizing bs with
  | zero => rfl
  | succ n ih => simp [socketsOf, ih]

theorem socketsOf_get (n : Nat) (bs : Bytes) (m : Nat) (h : m < n) :
    (socketsOf n bs)[m]? = some (fromLe (slice bs (4 * m) 4)) := by
  induction n generalizing bs m with
  | zero => omega
  | succ n ih =>
    cases m with
    | zero => simp [socketsOf, slice]
    | succ m =>
      rw [socketsOf, List.getElem?_cons_succ, ih _ _ (by omega)]
      rw [slice, List.drop_drop, show 4 + 4 * m = 4 * (m + 1) by omega]
      rfl

/-- What stands in the array from the closed socket on, before the count goes down. -/
def afterMove (fd : Nat) (behind : List Nat) : List Nat :=
  let octets := behind.flatMap (le 4)
  socketsOf (behind.length + 1)
    (octets.take behind.length ++ (le 4 fd ++ octets).drop behind.length)

/-- The sockets before the closed one stay. -/
theorem closeGap_split {before : List Nat} (hbefore : ∀ d ∈ before, d < 4294967296) (fd : Nat)
    (behind : List Nat) :
    closeGap (before ++ fd :: behind) before.length = before ++ afterMove fd behind := by
  have hlen : (before ++ fd :: behind).length = before.length + (behind.length + 1) := by simp
  have hcount : before.length + (behind.length + 1) - before.length - 1 = behind.length := by
    omega
  have hoctets : (before ++ fd :: behind).flatMap (le 4) =
      before.flatMap (le 4) ++ (le 4 fd ++ behind.flatMap (le 4)) := by simp
  have hb := length_octets before
  have hmoved : slice ((before ++ fd :: behind).flatMap (le 4)) (4 * (before.length + 1))
      behind.length = (behind.flatMap (le 4)).take behind.length := by
    rw [hoctets, slice_append_right (by omega), slice_append_right (by simp; omega)]
    simp only [slice, length_le, hb]
    congr 1
    rw [show 4 * (before.length + 1) - 4 * before.length - 4 = 0 by omega]
    rfl
  have hk : ((behind.flatMap (le 4)).take behind.length).length = behind.length := by
    rw [List.length_take, length_octets]
    omega
  unfold closeGap
  simp only [hlen, hcount, hmoved]
  rw [patch, hoctets, hk, ← hb, List.take_left, List.drop_length_add_append, List.append_assoc,
    socketsOf_octets_append hbefore]
  rfl

/-- One socket is behind the closed one: its low octet is all that is moved. -/
theorem afterMove_one (fd last : Nat) (hfd : fd < 4294967296) :
    (afterMove fd [last]).dropLast = [last % 256 + 256 * (fd / 256)] := by
  have hle (n : Nat) : le 4 n = UInt8.ofNat n :: le 3 (n / 256) := rfl
  have h3 (n : Nat) : (le 3 (n / 256)).length = 3 := length_le 3 _
  have hhigh : fromLe (le 3 (fd / 256)) = fd / 256 := by
    rw [fromLe_le]
    exact Nat.mod_eq_of_lt (by omega)
  have hx : (afterMove fd [last]) =
      [fromLe (UInt8.ofNat last :: le 3 (fd / 256)), fromLe (le 4 last)] := by
    simp only [afterMove, List.flatMap_cons, List.flatMap_nil, List.append_nil, List.length_cons,
      List.length_nil, hle, List.take_succ_cons, List.take_zero, List.cons_append,
      List.drop_succ_cons, List.drop_zero, List.nil_append, socketsOf,
      List.take_left' (h3 fd), List.drop_left' (h3 fd)]
    rw [List.take_of_length_le (by simp)]
  rw [hx]
  simp [fromLe, hhigh]

/-- The last of the sockets that are left was not moved, when two sockets or more are behind the
closed one. -/
theorem afterMove_last (fd : Nat) {behind : List Nat} (h2 : 2 ≤ behind.length)
    (hfd : fd < 4294967296) (hbehind : ∀ d ∈ behind, d < 4294967296) :
    (afterMove fd behind).dropLast[behind.length - 1]? = (fd :: behind)[behind.length - 1]? := by
  have hall : ∀ d ∈ fd :: behind, d < 4294967296 := by
    intro d hd
    rcases List.mem_cons.mp hd with rfl | hd
    · exact hfd
    · exact hbehind d hd
  have hoct := length_octets behind
  -- the octet string before the move differs in its first `behind.length` octets only
  have hsame : slice ((behind.flatMap (le 4)).take behind.length ++
        (le 4 fd ++ behind.flatMap (le 4)).drop behind.length) (4 * (behind.length - 1)) 4 =
      slice ((fd :: behind).flatMap (le 4)) (4 * (behind.length - 1)) 4 := by
    have ht : ((behind.flatMap (le 4)).take behind.length).length = behind.length := by
      rw [List.length_take]
      omega
    rw [slice_append_right (by omega), ht, slice, List.drop_drop]
    rw [show behind.length + (4 * (behind.length - 1) - behind.length) =
      4 * (behind.length - 1) by omega]
    rfl
  have hread := socketsOf_octets_append hall 0 []
  rw [List.append_nil, socketsOf, List.append_nil] at hread
  rw [List.getElem?_dropLast, if_pos (by rw [afterMove, length_socketsOf]; omega), afterMove,
    socketsOf_get _ _ _ (by omega), hsame, ← socketsOf_get (fd :: behind).length _ _
      (by simp only [List.length_cons]; omega)]
  exact congrArg (fun l => l[behind.length - 1]?) hread

/-- What is left from the closed socket on are the sockets behind it, exactly if there is none,
or one that differs from the closed one in the low octet only. -/
theorem afterMove_keeps_iff {fd : Nat} {behind : List Nat} (hnd : (fd :: behind).Nodup)
    (hfd : fd < 4294967296) (hbehind : ∀ d ∈ behind, d < 4294967296) :
    (afterMove fd behind).dropLast = behind ↔ Removable (fd :: behind) fd := by
  have hhere : (fd :: behind).dropWhile (· != fd) = fd :: behind := by simp
  rw [Removable, hhere]
  match behind with
  | [] => simp [afterMove, socketsOf]
  | [last] =>
    rw [afterMove_one fd last hfd]
    simp only [List.cons.injEq, and_true]
    omega
  | a :: b :: rest =>
    simp only [iff_false]
    intro heq
    have htwo : 2 ≤ (a :: b :: rest).length := by simp
    have hlast := afterMove_last fd htwo hfd hbehind
    rw [heq] at hlast
    -- two neighbours of a list without duplicates differ
    have h1 : (fd :: a :: b :: rest)[rest.length + 2]? = (fd :: a :: b :: rest)[rest.length + 1]? :=
      hlast
    have hinj : rest.length + 2 = rest.length + 1 := (List.getElem?_inj (by simp) hnd).mp h1
    omega

theorem dropWhile_mem {fd : Nat} {before behind : List Nat} (h : fd ∉ before) :
    (before ++ fd :: behind).dropWhile (· != fd) = fd :: behind := by
  induction before with
  | nil => simp
  | cons d before ih =>
    have hd : d ≠ fd := fun e => h (by simp [e])
    have hrest : fd ∉ before := fun hm => h (by simp [hm])
    simpa [hd] using ih hrest

theorem findIdx_mem {fd : Nat} {before behind : List Nat} (h : fd ∉ before) :
    (before ++ fd :: behind).findIdx? (· == fd) = some before.length := by
  have hnone : before.findIdx? (· == fd) = none := by
    rw [List.findIdx?_eq_none_iff]
    intro d hd
    simpa using fun e : d = fd => h (e ▸ hd)
  simp [List.findIdx?_append, hnone, List.findIdx?_cons]

/-- **Closing a connecting socket removes it from the array, and keeps the others in order,
exactly if it is the last one, or the last but one and alike in the upper octets.** -/
theorem closeConnectingFd_removes_iff (s : Connecting) (fd : Nat)
    (hnd : s.connectingFds.Nodup) (hfds : ∀ d ∈ s.connectingFds, d < 4294967296) :
    (closeConnectingFd s fd).connectingFds = s.connectingFds.erase fd ↔
      Removable s.connectingFds fd := by
  by_cases hmem : fd ∈ s.connectingFds
  · obtain ⟨before, behind, hsplit⟩ := List.append_of_mem hmem
    rw [hsplit] at hnd hfds
    have hbefore : fd ∉ before := fun h =>
      (List.nodup_append.mp hnd).2.2 fd h fd (by simp) rfl
    have hclose : (closeConnectingFd s fd).connectingFds =
        before ++ (afterMove fd behind).dropLast := by
      have hne : afterMove fd behind ≠ [] := by
        intro h
        have hlen := congrArg List.length h
        simp [afterMove, length_socketsOf] at hlen
      rw [closeConnectingFd, hsplit, findIdx_mem hbefore]
      show (closeGap (before ++ fd :: behind) before.length).dropLast = _
      rw [closeGap_split (fun d h => hfds d (by simp [h])), List.dropLast_append_of_ne_nil hne]
    have herase : (before ++ fd :: behind).erase fd = before ++ behind := by
      rw [List.erase_append_right _ hbefore, List.erase_cons_head]
    have hkeeps := afterMove_keeps_iff (List.nodup_append.mp hnd).2.1 (hfds fd (by simp))
      (fun d h => hfds d (by simp [h]))
    rw [hclose, hsplit, herase, List.append_cancel_left_eq, hkeeps, Removable, Removable,
      dropWhile_mem hbefore]
    simp
  · have hnone : s.connectingFds.findIdx? (· == fd) = none := by
      rw [List.findIdx?_eq_none_iff]
      intro d hd
      simpa using fun e : d = fd => hmem (e ▸ hd)
    have hall : s.connectingFds.dropWhile (· != fd) = [] := by
      rw [List.dropWhile_eq_nil_iff]
      intro d hd
      simpa using fun e : d = fd => hmem (e ▸ hd)
    rw [closeConnectingFd, hnone, List.erase_of_not_mem hmem, Removable, hall]
    simp

theorem closeConnectingFd_removes_iff_last :
    (closeConnectingFd { nextAddrinfo := [], connectingFds := [3, 4], untried := 0 }
      4).connectingFds = [3, 4].erase 4 :=
  (closeConnectingFd_removes_iff { nextAddrinfo := [], connectingFds := [3, 4], untried := 0 } 4
    (by decide) (by decide)).mpr (by decide)

/-- The first of the sockets 5, 6 and 7 is closed: the array is left with 6 twice, and 7 is
lost. -/
theorem closing_the_first_of_three_loses_the_last :
    (closeConnectingFd { nextAddrinfo := [], connectingFds := [5, 6, 7], untried := 0 }
      5).connectingFds = [6, 6] ∧ [5, 6, 7].erase 5 = [6, 7] := by
  decide

end Libsmb2.HappyEyeballs
