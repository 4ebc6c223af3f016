import Mathlib.Order.Bounds.Basic
import Libsmb2.Process.Negotiate
import Libsmb2.Server

/-!
# The dialect that a server selects

`smb2_process_negotiate_request_variable` keeps ten dialects of a NEGOTIATE request, and the loops
of `smb2_negotiate_request_cb` run from the last to the first of as many as the request says it has.

* `selectDialect_eq` — the loops find the last dialect that is accepted;
* `selectsHighest_iff` — the highest common dialect is selected, from what was received, exactly when
  the list is short, all there, and no accepted dialect in it is above the last one.
-/

set_option autoImplicit false

namespace Libsmb2

open Util

/-- The values of `smb2->version`. -/
inductive SmbVersion
  | any
  | any2
  | any3
  | v0202
  | v0210
  | v0300
  | v0302
  | v0311
  deriving DecidableEq, Repr

def SmbVersion.toVersion : SmbVersion → Version
  | any => .any
  | any2 => .any2
  | any3 => .any3
  | v0202 => .dialect VERSION_0202
  | v0210 => .dialect VERSION_0210
  | v0300 => .dialect VERSION_0300
  | v0302 => .dialect VERSION_0302
  | v0311 => .dialect VERSION_0311

/-- `dialects` in `smb2_negotiate_request_cb`. -/
def SmbVersion.accepted (version : SmbVersion) : List Nat := acceptedDialects version.toVersion

theorem SmbVersion.accepted_ne_zero (version : SmbVersion) : 0 ∉ version.accepted := by
  cases version <;> decide

def NEGOTIATE_MAX_DIALECTS : Nat := 10

/-- The loop of `smb2_process_negotiate_request_variable` over the first `n` dialects.  `old` is what
`malloc` returned for `req->dialects`, and what is behind it. -/
def storeDialects (iov : Bytes) (old : Nat → UInt16) : Nat → Nat → UInt16
  | 0 => old
  | d + 1 => Function.update (storeDialects iov old d) d (uint16At iov (d * 2) (old d))

/-- `req->dialects` after `smb2_process_negotiate_request_variable`. -/
def processDialects (iov : Bytes) (dialectCount : Nat) (old : Nat → UInt16) : Nat → UInt16 :=
  storeDialects iov old (min dialectCount NEGOTIATE_MAX_DIALECTS)

/-- The inner loop: `smb2->dialect` after it, which is 0 before it. -/
def matchDialect (dialects : List Nat) (value : Nat) : Nat :=
  (dialects.reverse.find? (· == value)).getD 0

/-- The outer loop, for `dialect_index + 1`. -/
def selectDialect (dialects : List Nat) (wire : Nat → UInt16) : Nat → Option Nat
  | 0 => none
  | i + 1 =>
    if matchDialect dialects (wire i).toNat ≠ 0 then
      some (matchDialect dialects (wire i).toNat)
    else selectDialect dialects wire i

/-- The indices of `req->dialects` that the outer loop reads. -/
def consulted (dialects : List Nat) (wire : Nat → UInt16) : Nat → List Nat
  | 0 => []
  | i + 1 =>
    i :: if matchDialect dialects (wire i).toNat ≠ 0 then [] else consulted dialects wire i

/-- What `smb2_negotiate_request_cb` does with the dialects. -/
inductive DialectChoice
  /-- Another request is asked for. -/
  | again
  /-- The connection is closed. -/
  | close
  | dialect (d : Nat)
  deriving DecidableEq, Repr

/-- The dialects of a request, from the variable part to `smb2_negotiate_request_cb`. -/
def chooseDialect (version : SmbVersion) (iov : Bytes) (dialectCount : Nat) (old : Nat → UInt16) :
    DialectChoice :=
  if dialectCount = 0 then .again
  else match selectDialect version.accepted (processDialects iov dialectCount old) dialectCount with
    | none => .close
    | some d => .dialect d

/-! ## The loops -/

theorem storeDialects_eq (iov : Bytes) (old : Nat → UInt16) (n d : Nat) :
    storeDialects iov old n d = if d < n then uint16At iov (d * 2) (old d) else old d := by
  induction n with
  | zero => rfl
  | succ n ih =>
    rw [storeDialects]
    by_cases hd : d = n
    · rw [hd, Function.update_self, if_pos (Nat.lt_succ_self n)]
    · rw [Function.update_of_ne hd, ih]
      by_cases hlt : d < n
      · rw [if_pos hlt, if_pos (by omega)]
      · rw [if_neg hlt, if_neg (by omega)]

theorem matchDialect_eq (dialects : List Nat) (value : Nat) :
    matchDialect dialects value = if value ∈ dialects then value else 0 := by
  unfold matchDialect
  cases hfind : dialects.reverse.find? (· == value) with
  | none =>
    have hnone := List.find?_eq_none.mp hfind
    have hnot : value ∉ dialects := by
      intro hmem
      have hne := hnone value (List.mem_reverse.mpr hmem)
      simp at hne
    rw [if_neg hnot]
    rfl
  | some d =>
    have hd : d = value := by simpa using List.find?_some hfind
    have hmem : value ∈ dialects := by
      rw [← hd]
      exact List.mem_reverse.mp (List.mem_of_find?_eq_some hfind)
    rw [if_pos hmem, hd]
    rfl

/-- The dialects of the first `n` that are accepted, in their order. -/
def acceptedOf (dialects : List Nat) (wire : Nat → UInt16) (n : Nat) : List Nat :=
  ((List.range n).map fun i => (wire i).toNat).filter (· ∈ dialects)

theorem acceptedOf_succ (dialects : List Nat) (wire : Nat → UInt16) (n : Nat) :
    acceptedOf dialects wire (n + 1) = acceptedOf dialects wire n ++
      if (wire n).toNat ∈ dialects then [(wire n).toNat] else [] := by
  unfold acceptedOf
  rw [List.range_succ, List.map_append, List.filter_append]
  by_cases h : (wire n).toNat ∈ dialects <;> simp [h]

theorem mem_acceptedOf {dialects : List Nat} {wire : Nat → UInt16} {n d : Nat} :
    d ∈ acceptedOf dialects wire n ↔ (∃ i < n, (wire i).toNat = d) ∧ d ∈ dialects := by
  simp [acceptedOf]

/-- The loops find the last dialect that is accepted. -/
theorem selectDialect_eq {dialects : List Nat} (h0 : 0 ∉ dialects) (wire : Nat → UInt16) (n : Nat) :
    selectDialect dialects wire n = (acceptedOf dialects wire n).getLast? := by
  induction n with
  | zero => rfl
  | succ n ih =>
    rw [selectDialect, matchDialect_eq, acceptedOf_succ, ih]
    by_cases h : (wire n).toNat ∈ dialects
    · have hne : (wire n).toNat ≠ 0 := fun hz => h0 (hz ▸ h)
      rw [if_pos h, if_pos hne, if_pos h, List.getLast?_concat]
    · rw [if_neg h, if_neg (fun hne => hne rfl), if_neg h, List.append_nil]

theorem consulted_lt {dialects : List Nat} {wire : Nat → UInt16} {n i : Nat}
    (h : i ∈ consulted dialects wire n) : i < n := by
  induction n with
  | zero => cases h
  | succ n ih =>
    rw [consulted] at h
    rcases List.mem_cons.mp h with rfl | hrest
    · exact Nat.lt_succ_self i
    · split at hrest
      · cases hrest
      · exact Nat.lt_succ_of_lt (ih hrest)

/-! ## What was received -/

/-- The dialect at index `i` has been received and kept. -/
def DialectReceived (iov : Bytes) (dialectCount i : Nat) : Prop :=
  i < dialectCount ∧ i < NEGOTIATE_MAX_DIALECTS ∧ i * 2 + 2 ≤ iov.length

/-- The dialect at index `i` of the request. -/
def wireDialect (iov : Bytes) (i : Nat) : UInt16 := .ofNat (fromLe (slice iov (i * 2) 2))

theorem processDialects_decoded {iov : Bytes} {dialectCount i : Nat} (old : Nat → UInt16)
    (h : DialectReceived iov dialectCount i) :
    processDialects iov dialectCount old i = wireDialect iov i := by
  obtain ⟨hcount, hmax, hlen⟩ := h
  rw [processDialects, storeDialects_eq, if_pos (by omega), uint16At, if_pos hlen, wireDialect]

/-- The received dialects that `smb2->version` allows. -/
def commonDialects (version : SmbVersion) (iov : Bytes) (dialectCount : Nat) : Set Nat :=
  {d | (∃ i, DialectReceived iov dialectCount i ∧ (wireDialect iov i).toNat = d) ∧ d ∈ version.accepted}

/-- The callback reads what was received, selects the highest common dialect, and closes the
connection when there is none. -/
structure SelectsHighest (version : SmbVersion) (iov : Bytes) (dialectCount : Nat)
    (old : Nat → UInt16) : Prop where
  decoded : ∀ i ∈ consulted version.accepted (processDialects iov dialectCount old) dialectCount,
    DialectReceived iov dialectCount i
  highest : ∀ d, chooseDialect version iov dialectCount old = .dialect d ↔
    IsGreatest (commonDialects version iov dialectCount) d
  close : chooseDialect version iov dialectCount old = .close ↔
    commonDialects version iov dialectCount = ∅

/-- The accepted dialects of the request, in its order. -/
def acceptedList (version : SmbVersion) (iov : Bytes) (dialectCount : Nat) : List Nat :=
  acceptedOf version.accepted (wireDialect iov) dialectCount

/-- The list has at most ten dialects, all received, and none of those that are accepted is above
the last one of them. -/
structure ListFits (version : SmbVersion) (iov : Bytes) (dialectCount : Nat) : Prop where
  short : dialectCount ≤ NEGOTIATE_MAX_DIALECTS
  received : dialectCount * 2 ≤ iov.length
  last : ∀ e ∈ (acceptedList version iov dialectCount).getLast?,
    ∀ d ∈ acceptedList version iov dialectCount, d ≤ e

section

variable {version : SmbVersion} {iov : Bytes} {dialectCount : Nat}

theorem acceptedOf_congr {dialects : List Nat} {wire wire' : Nat → UInt16} {n : Nat}
    (h : ∀ i < n, wire i = wire' i) : acceptedOf dialects wire n = acceptedOf dialects wire' n := by
  unfold acceptedOf
  congr 1
  refine List.map_congr_left fun i hi => ?_
  rw [h i (List.mem_range.mp hi)]

/-- What is selected of a short list that is all there. -/
theorem selectDialect_received (hshort : dialectCount ≤ NEGOTIATE_MAX_DIALECTS)
    (hreceived : dialectCount * 2 ≤ iov.length) (old : Nat → UInt16) :
    selectDialect version.accepted (processDialects iov dialectCount old) dialectCount =
      (acceptedList version iov dialectCount).getLast? := by
  rw [selectDialect_eq version.accepted_ne_zero, acceptedList]
  congr 1
  refine acceptedOf_congr fun i hi => processDialects_decoded old ⟨hi, by omega, by omega⟩

theorem mem_commonDialects (hshort : dialectCount ≤ NEGOTIATE_MAX_DIALECTS)
    (hreceived : dialectCount * 2 ≤ iov.length) {d : Nat} :
    d ∈ commonDialects version iov dialectCount ↔ d ∈ acceptedList version iov dialectCount := by
  rw [acceptedList, mem_acceptedOf]
  constructor
  · rintro ⟨⟨i, hi, hd⟩, hmem⟩
    exact ⟨⟨i, hi.1, hd⟩, hmem⟩
  · rintro ⟨⟨i, hi, hd⟩, hmem⟩
    exact ⟨⟨i, ⟨hi, by omega, by omega⟩, hd⟩, hmem⟩

theorem chooseDialect_received (hcount : dialectCount ≠ 0)
    (hshort : dialectCount ≤ NEGOTIATE_MAX_DIALECTS) (hreceived : dialectCount * 2 ≤ iov.length)
    (old : Nat → UInt16) (choice : DialectChoice) :
    chooseDialect version iov dialectCount old = choice ↔
      (match (acceptedList version iov dialectCount).getLast? with
        | none => .close
        | some d => .dialect d) = choice := by
  rw [chooseDialect, if_neg hcount, selectDialect_received hshort hreceived old]

/-- The last of the accepted dialects is the highest of them. -/
theorem isGreatest_of_last (hshort : dialectCount ≤ NEGOTIATE_MAX_DIALECTS)
    (hreceived : dialectCount * 2 ≤ iov.length)
    (hlast : ∀ e ∈ (acceptedList version iov dialectCount).getLast?,
      ∀ d ∈ acceptedList version iov dialectCount, d ≤ e) (d : Nat) :
    (match (acceptedList version iov dialectCount).getLast? with
        | none => .close
        | some d => .dialect d) = DialectChoice.dialect d ↔
      IsGreatest (commonDialects version iov dialectCount) d := by
  cases he : (acceptedList version iov dialectCount).getLast? with
  | none =>
    have hnil := List.getLast?_eq_none_iff.mp he
    constructor
    · intro hnot
      cases hnot
    · intro hgreatest
      have hmem := (mem_commonDialects hshort hreceived).mp hgreatest.1
      rw [hnil] at hmem
      cases hmem
  | some e =>
    have hmem := (mem_commonDialects hshort hreceived).mpr (List.mem_of_getLast? he)
    have hgreatest : IsGreatest (commonDialects version iov dialectCount) e :=
      ⟨hmem, fun d hd => hlast e he d ((mem_commonDialects hshort hreceived).mp hd)⟩
    constructor
    · intro hd
      cases hd
      exact hgreatest
    · intro hd
      rw [hgreatest.unique hd]

theorem empty_of_last (hshort : dialectCount ≤ NEGOTIATE_MAX_DIALECTS)
    (hreceived : dialectCount * 2 ≤ iov.length) :
    (match (acceptedList version iov dialectCount).getLast? with
        | none => .close
        | some d => .dialect d) = DialectChoice.close ↔
      commonDialects version iov dialectCount = ∅ := by
  cases he : (acceptedList version iov dialectCount).getLast? with
  | none =>
    have hnil := List.getLast?_eq_none_iff.mp he
    refine iff_of_true rfl (Set.eq_empty_iff_forall_notMem.mpr fun d hd => ?_)
    have hmem := (mem_commonDialects hshort hreceived).mp hd
    rw [hnil] at hmem
    cases hmem
  | some e =>
    have hmem := (mem_commonDialects hshort hreceived).mpr (List.mem_of_getLast? he)
    refine iff_of_false (fun hnot => nomatch hnot) (fun hnot => ?_)
    rw [hnot] at hmem
    exact hmem

/-- **The highest common dialect is selected exactly of lists that fit.** -/
theorem selectsHighest_iff (hcount : dialectCount ≠ 0) :
    (∀ old, SelectsHighest version iov dialectCount old) ↔ ListFits version iov dialectCount := by
  constructor
  · intro h
    have hlast : DialectReceived iov dialectCount (dialectCount - 1) := by
      refine (h fun _ => 0).decoded (dialectCount - 1) ?_
      obtain ⟨n, rfl⟩ : ∃ n, dialectCount = n + 1 := ⟨dialectCount - 1, by omega⟩
      exact List.mem_cons_self
    obtain ⟨_, hmax, hlen⟩ := hlast
    have hshort : dialectCount ≤ NEGOTIATE_MAX_DIALECTS := by omega
    have hreceived : dialectCount * 2 ≤ iov.length := by omega
    refine ⟨hshort, hreceived, ?_⟩
    intro e he d hd
    have hchoice : chooseDialect version iov dialectCount (fun _ => 0) = .dialect e := by
      rw [chooseDialect_received hcount hshort hreceived, Option.mem_def.mp he]
    have hgreatest := ((h fun _ => 0).highest e).mp hchoice
    exact hgreatest.2 ((mem_commonDialects hshort hreceived).mpr hd)
  · rintro ⟨hshort, hreceived, hlast⟩ old
    constructor
    case decoded =>
      intro i hi
      have hlt := consulted_lt hi
      exact ⟨hlt, by omega, by omega⟩
    case highest =>
      intro d
      rw [chooseDialect_received hcount hshort hreceived]
      exact isGreatest_of_last hshort hreceived hlast d
    case close =>
      rw [chooseDialect_received hcount hshort hreceived]
      exact empty_of_last hshort hreceived

end

/-- A list in the order of its values fits. -/
theorem sorted_dialects_are_selected :
    SelectsHighest .any (le 2 VERSION_0202 ++ le 2 VERSION_0311) 2 fun _ => 0 := by
  refine (selectsHighest_iff (by decide)).mpr ⟨by decide, by decide, ?_⟩ fun _ => 0
  have hlist : acceptedList .any (le 2 VERSION_0202 ++ le 2 VERSION_0311) 2 =
      [VERSION_0202, VERSION_0311] := by decide +kernel
  intro e he d hd
  rw [hlist] at he hd
  cases he
  rcases List.mem_cons.mp hd with rfl | hd
  · exact Nat.le_of_ble_eq_true rfl
  · exact Nat.le_of_eq (List.mem_singleton.mp hd)

/-- Of 3.1.1 and 2.0.2, in that order, a server that can do both selects 2.0.2. -/
theorem lower_dialect_is_selected :
    ¬SelectsHighest .any (le 2 VERSION_0311 ++ le 2 VERSION_0202) 2 fun _ => 0 := by
  intro h
  have hchoice : chooseDialect .any (le 2 VERSION_0311 ++ le 2 VERSION_0202) 2 (fun _ => 0) =
      .dialect VERSION_0202 := by decide +kernel
  have hgreatest := (h.highest VERSION_0202).mp hchoice
  have hbound : VERSION_0311 ≤ VERSION_0202 :=
    hgreatest.2 ⟨⟨0, ⟨by decide, by decide, by decide⟩, by decide +kernel⟩, by decide⟩
  exact absurd hbound (by decide)

end Libsmb2
