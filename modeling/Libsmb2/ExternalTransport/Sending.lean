import Libsmb2.ExternalTransport
import Libsmb2.Errors

/-!
# Sending through the external transport

The loop of `ext_queue_write` over its vectors.  Only their lengths matter; an octet is named by
its position in the concatenation of the vectors.  The send callback of the application is any
sequence of returned values, one for each call.

* `extQueueWrite_accounts_iff` — what the callback accepted are the first octets, as many as the
  call returns, exactly if `Clean` holds;
* `a_vector_over_INT_MAX_leaves_a_gap` — a vector of 2^31 octets with one behind it.
-/

set_option autoImplicit false

namespace Libsmb2.ExternalTransport

def INT_MAX : Nat := 2147483647

/-- What a call of the send callback returns, and what it leaves in `errno`. -/
structure Returned where
  ret : Int
  errno : Int := 0
  deriving DecidableEq, Repr

/-- The result of `ext_queue_write`, and the ranges that the callback accepted: where they
start, and how long they are. -/
structure Written where
  ret : Int := 0
  errno : Option Int := none
  error : Option String := none
  accepted : List (Nat × Nat) := []
  deriving DecidableEq, Repr

/-- The length that is handed to the callback. -/
def offered (len : Nat) : Nat := if INT_MAX < len then INT_MAX else len

/-- A failure hands back what was sent before it. -/
def failWith (x : Written) (errno : Int) : Written :=
  if 0 < x.ret then x else { x with ret := -1, errno := some errno }

def tooMany (r : Returned) (len : Nat) : String :=
  s!"external send returned more bytes ({r.ret}) than requested ({offered len})"

/-- The loop of `ext_queue_write`: `k` counts the calls of the callback, and `pos` is where the
next vector starts. -/
def sendVectors (send : Nat → Returned) : Nat → Nat → Written → List Nat → Written
  | _, _, x, [] => x
  | k, pos, x, len :: iov =>
    if len = 0 then sendVectors send k pos x iov
    else
      let r := send k
      if r.ret < 0 then failWith x r.errno
      else if offered len < r.ret then
        failWith { x with error := some (tooMany r len) } EIO
      else
        let x := { x with ret := x.ret + r.ret, accepted := x.accepted ++ [(pos, r.ret.toNat)] }
        if r.ret < offered len then x else sendVectors send (k + 1) (pos + len) x iov

/-- `ext_queue_write`. -/
def Context.queueWrite (ctx : Context) (send : Nat → Returned) (iov : List Nat) : Written :=
  if !ctx.extConnected then { ret := -1, errno := some EAGAIN }
  else if !ctx.ext.send then { ret := -1, errno := some EINVAL }
  else sendVectors send 0 0 {} iov

/-- The positions in some ranges, one range after the other. -/
def positions (ranges : List (Nat × Nat)) : List Nat :=
  ranges.flatMap fun range => List.range' range.1 range.2

/-- The callback accepted as many octets as are returned, from the first one on and in order; it
accepted none if the call failed. -/
def Accounts (x : Written) : Prop :=
  (0 ≤ x.ret → positions x.accepted = List.range x.ret.toNat) ∧
    (x.ret = -1 → positions x.accepted = [])

/-- The callback accepts something of a vector. -/
def Accepts (r : Returned) (len : Nat) : Prop := 0 < r.ret ∧ r.ret ≤ offered len

/-- Where all vectors up to one over `INT_MAX` are accepted, as far as they are offered, nothing
is accepted of the next one.  The vectors are not empty, and `k` is the first call. -/
def CleanFrom (send : Nat → Returned) (k : Nat) (lens : List Nat) : Prop :=
  ∀ j len next, lens[j]? = some len → lens[j + 1]? = some next → INT_MAX < len →
    (∀ i l, i ≤ j → lens[i]? = some l → (send (k + i)).ret = offered l) →
      ¬ Accepts (send (k + (j + 1))) next

/-- Once the callback has accepted `INT_MAX` octets of a longer vector, it accepts nothing more
in the call. -/
def Clean (send : Nat → Returned) (iov : List Nat) : Prop :=
  CleanFrom send 0 (iov.filter (· ≠ 0))

theorem offered_pos {len : Nat} (h : len ≠ 0) : 0 < offered len := by
  unfold offered INT_MAX
  split <;> omega

theorem offered_of_le {len : Nat} (h : len ≤ INT_MAX) : offered len = len :=
  if_neg (by omega)

theorem offered_of_lt {len : Nat} (h : INT_MAX < len) : offered len = INT_MAX :=
  if_pos h

theorem positions_append (a b : List (Nat × Nat)) :
    positions (a ++ b) = positions a ++ positions b :=
  List.flatMap_append

/-- Empty vectors are skipped. -/
theorem sendVectors_filter (send : Nat → Returned) (k pos : Nat) (x : Written) (iov : List Nat) :
    sendVectors send k pos x iov = sendVectors send k pos x (iov.filter (· ≠ 0)) := by
  induction iov generalizing k pos x with
  | nil => rfl
  | cons len iov ih =>
    by_cases h : len = 0
    · rw [List.filter_cons_of_neg (by simp [h]), sendVectors, if_pos h]
      exact ih k pos x
    · rw [List.filter_cons_of_pos (by simp [h]), sendVectors, sendVectors]
      simp only [if_neg h, ih]

/-! ## One vector -/

variable {send : Nat → Returned}

/-- The callback accepts nothing of the vector. -/
theorem sendVectors_stops {k len : Nat} (hlen : len ≠ 0)
    (h : ¬ Accepts (send k) len) (pos : Nat) (x : Written) (iov : List Nat) :
    let y := sendVectors send k pos x (len :: iov)
    positions y.accepted = positions x.accepted ∧
      (y.ret = x.ret ∨ (x.ret ≤ 0 ∧ y.ret = -1)) := by
  intro y
  have hpos := offered_pos hlen
  have hfail (z : Written) (hz : z.accepted = x.accepted) (hret : z.ret = x.ret) (e : Int) :
      positions (failWith z e).accepted = positions x.accepted ∧
        ((failWith z e).ret = x.ret ∨ (x.ret ≤ 0 ∧ (failWith z e).ret = -1)) := by
    unfold failWith
    split
    · exact ⟨by rw [hz], Or.inl hret⟩
    · exact ⟨by rw [hz], Or.inr ⟨by omega, rfl⟩⟩
  by_cases hneg : (send k).ret < 0
  · simp only [y, sendVectors, if_neg hlen, if_pos hneg]
    exact hfail x rfl rfl _
  by_cases hover : offered len < (send k).ret
  · simp only [y, sendVectors, if_neg hlen, if_neg hneg, if_pos hover]
    exact hfail { x with error := some (tooMany (send k) len) } rfl rfl _
  · -- what is left is a return of 0, a short write
    have hzero : (send k).ret = 0 := by
      unfold Accepts at h
      omega
    simp only [y, sendVectors, if_neg hlen, if_neg hneg, if_neg hover]
    rw [if_pos (by omega), hzero]
    refine ⟨?_, Or.inl (Int.add_zero _)⟩
    rw [positions_append]
    simp [positions]

/-- The callback accepts a part of the vector. -/
theorem sendVectors_short {k len : Nat} (hlen : len ≠ 0)
    (h0 : 0 ≤ (send k).ret) (h : (send k).ret < offered len) (pos : Nat) (x : Written)
    (iov : List Nat) :
    let y := sendVectors send k pos x (len :: iov)
    y.accepted = x.accepted ++ [(pos, (send k).ret.toNat)] ∧ y.ret = x.ret + (send k).ret := by
  simp only [sendVectors, if_neg hlen]
  rw [if_neg (by omega), if_neg (by omega), if_pos h]
  exact ⟨rfl, rfl⟩

/-- The callback accepts all that it is offered. -/
theorem sendVectors_full {k len : Nat} (hlen : len ≠ 0)
    (h : (send k).ret = offered len) (pos : Nat) (x : Written) (iov : List Nat) :
    sendVectors send k pos x (len :: iov) = sendVectors send (k + 1) (pos + len)
      { x with ret := x.ret + (send k).ret, accepted := x.accepted ++ [(pos, offered len)] } iov := by
  have hnat : (send k).ret.toNat = offered len := by omega
  simp only [sendVectors, if_neg hlen]
  rw [if_neg (by omega), if_neg (by omega), if_neg (by omega), hnat]

/-- What has been accepted stays accepted, and is counted. -/
theorem sendVectors_extends (send : Nat → Returned) (k pos : Nat) (x : Written) (hx : 0 < x.ret)
    (iov : List Nat) :
    let y := sendVectors send k pos x iov
    (∃ more, positions y.accepted = positions x.accepted ++ more) ∧ x.ret ≤ y.ret := by
  induction iov generalizing k pos x with
  | nil => exact ⟨⟨[], (List.append_nil _).symm⟩, Int.le_refl _⟩
  | cons len iov ih =>
    by_cases hlen : len = 0
    · simp only [sendVectors, if_pos hlen]
      exact ih k pos x hx
    by_cases hacc : Accepts (send k) len
    · obtain ⟨hr0, hr⟩ := hacc
      by_cases hfull : (send k).ret = offered len
      · rw [sendVectors_full hlen hfull]
        obtain ⟨⟨more, hmore⟩, hle⟩ := ih (k + 1) (pos + len)
          { x with ret := x.ret + (send k).ret, accepted := x.accepted ++ [(pos, offered len)] }
          (by show 0 < x.ret + (send k).ret; omega)
        refine ⟨⟨positions [(pos, offered len)] ++ more, ?_⟩, ?_⟩
        · rw [hmore, positions_append, List.append_assoc]
        · exact Int.le_trans (Int.le_add_of_nonneg_right (by omega)) hle
      · have h0 : 0 ≤ (send k).ret := by omega
        have hshort : (send k).ret < offered len := by omega
        obtain ⟨ha, hret⟩ := sendVectors_short hlen h0 hshort pos x iov
        intro y
        refine ⟨⟨_, by rw [ha, positions_append]⟩, ?_⟩
        rw [hret]
        omega
    · obtain ⟨ha, hret⟩ := sendVectors_stops hlen hacc pos x iov
      intro y
      refine ⟨⟨[], by rw [ha, List.append_nil]⟩, ?_⟩
      rcases hret with hret | ⟨hneg, _⟩
      · exact Int.le_of_eq hret.symm
      · omega

/-! ## The account -/

theorem range_append (n len : Nat) : List.range n ++ List.range' n len = List.range (n + len) := by
  rw [List.range_eq_range', List.range_eq_range', ← List.range'_append_1 (s := 0), Nat.zero_add]

/-- The account of a loop that has accepted the first `n` octets. -/
structure Kept (x : Written) (n : Nat) : Prop where
  ret : x.ret = n
  accepted : positions x.accepted = List.range n

theorem Kept.accounts {x : Written} {n : Nat} (h : Kept x n) : Accounts x := by
  refine ⟨fun _ => by rw [h.accepted, h.ret, Int.toNat_natCast], fun hneg => ?_⟩
  have := h.ret
  omega

theorem Kept.grow {x : Written} {n : Nat} (h : Kept x n) (len : Nat) :
    Kept { x with ret := x.ret + len, accepted := x.accepted ++ [(n, len)] } (n + len) := by
  refine ⟨?_, ?_⟩
  · show x.ret + len = _
    rw [h.ret]
    omega
  · show positions (x.accepted ++ [(n, len)]) = _
    rw [positions_append, h.accepted, ← range_append]
    simp [positions]

/-- Nothing of the next vector is accepted: the account stays as it is. -/
theorem Kept.stops {x : Written} {n : Nat} (h : Kept x n) {k len : Nat}
    (hlen : len ≠ 0) (hstop : ¬ Accepts (send k) len) (pos : Nat) (iov : List Nat) :
    Accounts (sendVectors send k pos x (len :: iov)) := by
  obtain ⟨ha, hret⟩ := sendVectors_stops hlen hstop pos x iov
  rw [h.accepted] at ha
  rcases hret with hret | ⟨hle, hneg⟩
  · exact Kept.accounts ⟨hret.trans h.ret, ha⟩
  · have hn : n = 0 := by
      have := h.ret
      omega
    subst hn
    exact ⟨fun h0 => by omega, fun _ => ha⟩

/-- Something is accepted behind a gap: the octet at the gap is returned and was not
accepted. -/
theorem Kept.gap {x : Written} {n : Nat} (h : Kept x n) (hn : 0 < n)
    {k len pos : Nat} (hlen : len ≠ 0) (hacc : Accepts (send k) len) (hpos : n < pos)
    (iov : List Nat) : ¬ Accounts (sendVectors send k pos x (len :: iov)) := by
  -- what this vector adds is in the account at the end
  have hhead : ∃ more, positions (sendVectors send k pos x (len :: iov)).accepted =
      positions x.accepted ++ pos :: more ∧
        n < (sendVectors send k pos x (len :: iov)).ret := by
    obtain ⟨hr0, hr⟩ := hacc
    have hcons (c : Nat) (hc : 0 < c) (l : List (Nat × Nat)) : ∃ more,
        positions (l ++ [(pos, c)]) = positions l ++ pos :: more := by
      obtain ⟨m, rfl⟩ : ∃ m, c = m + 1 := ⟨c - 1, by omega⟩
      exact ⟨List.range' (pos + 1) m, by rw [positions_append]; simp [positions, List.range'_succ]⟩
    have hret := h.ret
    by_cases hfull : (send k).ret = offered len
    · rw [sendVectors_full hlen hfull]
      obtain ⟨⟨more, hmore⟩, hle⟩ := sendVectors_extends send (k + 1) (pos + len)
        { x with ret := x.ret + (send k).ret, accepted := x.accepted ++ [(pos, offered len)] }
        (by show 0 < x.ret + (send k).ret; omega) iov
      obtain ⟨more', hmore'⟩ := hcons (offered len) (offered_pos hlen) x.accepted
      refine ⟨more' ++ more, ?_, ?_⟩
      · rw [hmore, hmore', List.append_assoc]
        rfl
      · have hle' : x.ret + (send k).ret ≤ _ := hle
        omega
    · have h0 : 0 ≤ (send k).ret := by omega
      have hshort : (send k).ret < offered len := by omega
      obtain ⟨ha, hret'⟩ := sendVectors_short hlen h0 hshort pos x iov
      obtain ⟨more', hmore'⟩ := hcons (send k).ret.toNat (by omega) x.accepted
      refine ⟨more', by rw [ha, hmore'], ?_⟩
      rw [hret']
      omega
  obtain ⟨more, hmore, hlt⟩ := hhead
  intro hacct
  have hrange := hacct.1 (by omega)
  have hat : (positions (sendVectors send k pos x (len :: iov)).accepted)[n]? = some pos := by
    rw [hmore, h.accepted, List.getElem?_append_right (by simp), List.length_range,
      Nat.sub_self]
    rfl
  rw [hrange, List.getElem?_range (by omega)] at hat
  have := Option.some.inj hat
  omega

theorem cleanFrom_cons_full {k len : Nat} {lens : List Nat}
    (h : (send k).ret = offered len) :
    CleanFrom send k (len :: lens) ↔
      (INT_MAX < len → ∀ next, lens[0]? = some next → ¬ Accepts (send (k + 1)) next) ∧
        CleanFrom send (k + 1) lens := by
  constructor
  · intro hclean
    refine ⟨fun hlong next hnext => hclean 0 len next rfl hnext hlong ?_, ?_⟩
    · intro i l hi hl
      have hi0 : i = 0 := by omega
      subst hi0
      cases hl
      exact h
    · intro j l next hl hnext hlong hall
      have hclean' := hclean (j + 1) l next hl hnext hlong ?_
      · rwa [show k + 1 + (j + 1) = k + (j + 1 + 1) by omega]
      · intro i l' hi hl'
        cases i with
        | zero =>
          cases hl'
          exact h
        | succ i =>
          have := hall i l' (by omega) hl'
          rwa [show k + 1 + i = k + (i + 1) by omega] at this
  · rintro ⟨hhead, htail⟩ j l next hl hnext hlong hall
    cases j with
    | zero =>
      cases hl
      exact hhead hlong next hnext
    | succ j =>
      have htail' := htail j l next hl hnext hlong ?_
      · rwa [show k + 1 + (j + 1) = k + (j + 1 + 1) by omega] at htail'
      · intro i l' hi hl'
        have := hall (i + 1) l' (by omega) hl'
        rwa [show k + (i + 1) = k + 1 + i by omega] at this

/-- A vector that is not accepted in full ends the loop: nothing behind it matters. -/
theorem cleanFrom_cons_part {k len : Nat} {lens : List Nat}
    (h : (send k).ret ≠ offered len) : CleanFrom send k (len :: lens) :=
  fun _ _ _ _ _ _ hall => absurd (hall 0 len (Nat.zero_le _) rfl) h

theorem sendVectors_accounts_iff {k n : Nat} {x : Written}
    (hx : Kept x n) {lens : List Nat} (hlens : ∀ len ∈ lens, len ≠ 0) :
    Accounts (sendVectors send k n x lens) ↔ CleanFrom send k lens := by
  induction lens generalizing k n x with
  | nil => exact iff_of_true hx.accounts (fun _ _ _ h => nomatch h)
  | cons len lens ih =>
    have hlen := hlens len (by simp)
    have htail : ∀ l ∈ lens, l ≠ 0 := fun l hl => hlens l (by simp [hl])
    by_cases hacc : Accepts (send k) len
    · obtain ⟨hr0, hr⟩ := hacc
      by_cases hfull : (send k).ret = offered len
      · rw [sendVectors_full hlen hfull, hfull, cleanFrom_cons_full hfull]
        have hgrown := hx.grow (offered len)
        by_cases hlong : INT_MAX < len
        · -- the next vector starts behind the octets that were not offered
          have hoff := offered_of_lt hlong
          have hmax : 0 < INT_MAX := by decide
          cases lens with
          | nil =>
            exact iff_of_true hgrown.accounts
              ⟨fun _ _ h => (nomatch h), fun _ _ _ h => nomatch h⟩
          | cons next lens =>
            have hnext := htail next (by simp)
            by_cases hnacc : Accepts (send (k + 1)) next
            · refine iff_of_false (hgrown.gap (by omega) hnext hnacc (by omega) lens) ?_
              intro h
              exact h.1 hlong next rfl hnacc
            · refine iff_of_true (hgrown.stops hnext hnacc _ lens) ⟨fun _ _ h => ?_, ?_⟩
              · cases h
                exact hnacc
              · apply cleanFrom_cons_part
                intro h
                have hpos := offered_pos hnext
                exact hnacc ⟨by omega, by omega⟩
        · rw [offered_of_le (by omega)] at hgrown ⊢
          rw [ih hgrown htail]
          simp [hlong]
      · have h0 : 0 ≤ (send k).ret := by omega
        have hshort : (send k).ret < offered len := by omega
        obtain ⟨ha, hret⟩ := sendVectors_short hlen h0 hshort n x lens
        have hgrown := hx.grow (send k).ret.toNat
        refine iff_of_true (Kept.accounts (n := n + (send k).ret.toNat) ⟨?_, ?_⟩)
          (cleanFrom_cons_part hfull)
        · rw [hret, ← hgrown.ret, Int.toNat_of_nonneg h0]
        · rw [ha]
          exact hgrown.accepted
    · refine iff_of_true (hx.stops hlen hacc n lens) (cleanFrom_cons_part ?_)
      intro h
      have hpos := offered_pos hlen
      exact hacc ⟨by omega, by omega⟩

/-- **What the callback accepts are the first octets of the vectors, as many as the call returns,
and none if it fails, exactly if no call follows on one that took `INT_MAX` octets of a longer
vector.** -/
theorem extQueueWrite_accounts_iff (ctx : Context) (send : Nat → Returned) (iov : List Nat) :
    Accounts (ctx.queueWrite send iov) ↔
      (ctx.extConnected = true → ctx.ext.send = true → Clean send iov) := by
  have hnone (e : Int) : Accounts { ret := -1, errno := some e } :=
    ⟨fun h => absurd h (show ¬ (0 : Int) ≤ -1 by decide), fun _ => rfl⟩
  unfold Context.queueWrite
  cases hconn : ctx.extConnected with
  | false => exact iff_of_true (hnone EAGAIN) (fun h => by cases h)
  | true =>
    cases hsend : ctx.ext.send with
    | false => exact iff_of_true (hnone EINVAL) (fun _ h => by cases h)
    | true =>
      have hkept : Kept {} 0 := ⟨rfl, rfl⟩
      show Accounts (sendVectors send 0 0 {} iov) ↔ (true = true → true = true → Clean send iov)
      rw [sendVectors_filter, sendVectors_accounts_iff hkept (by simp)]
      simp [Clean]

/-- The callback takes `INT_MAX` octets of a vector of one more, and the octet of the next
vector: 2^31 octets are returned, and octet 2^31 - 1 was never handed over. -/
theorem a_vector_over_INT_MAX_leaves_a_gap :
    ¬ Accounts (({ extConnected := true, ext := { send := true } } : Context).queueWrite
      (fun k => ⟨if k = 0 then 2147483647 else 1, 0⟩) [2147483648, 1]) := by
  intro hbad
  have hkept : Kept {} 0 := ⟨rfl, rfl⟩
  have hclean := (sendVectors_accounts_iff hkept (by simp)).mp hbad
  refine hclean 0 2147483648 1 rfl rfl (by decide) ?_ (by unfold Accepts; decide)
  intro i l hi hl
  have hi0 : i = 0 := by omega
  subst hi0
  cases hl
  decide

end Libsmb2.ExternalTransport
