import Libsmb2.Context
import Libsmb2.Util.Calls

/-!
# The stack of tree ids

`smb2->tree_id[]` with `tree_id_top` and `tree_id_cur`, as `smb2_connect_tree_id`,
`smb2_disconnect_tree_id` and `smb2_select_tree_id` handle them: an array whose entry 0 is not
used, searched and compacted in place, and a selection that is kept as an index.

What the array stands for is its prefix up to `tree_id_top` (`TreeStack.ids`).  Each call is a
call on that list, the one that `Context` works with (`connect_ids`, `disconnect_ids`,
`select_ids`).

* `array_is_the_list` — in every sequence of calls the array and the list select the same tree;
* `tree_ids_are_stacked` — after every sequence of calls the indices are in bounds, the list
  holds the connected ids in connection order, and a call that fails changes nothing;
  disconnecting an id that is not selected keeps the selected id exactly when `Keeps` holds;
* `first_of_three_moves_selection` — three trees, the second one selected: disconnecting the
  first selects the third.
-/

set_option autoImplicit false

namespace Libsmb2

/-- The array and its two indices. -/
structure TreeStack where
  slots : List Nat
  top : Nat
  cur : Nat
  sized : slots.length = MAX_TREE_NESTING
  deriving DecidableEq, Repr

namespace TreeStack

/-- `smb2->tree_id[i]`. -/
def slot (s : TreeStack) (i : Nat) : Nat := s.slots.getD i 0

/-- The macro `smb2_tree_id`. -/
def treeId (s : TreeStack) : Nat := s.slot s.cur

/-- The loop that looks for a tree id: `i` is where it stopped. -/
def search (s : TreeStack) (tid : Nat) : Nat → Nat → Nat
  | 0, i => i
  | fuel + 1, i =>
    if i ≤ s.top ∧ i ≤ MAX_TREE_NESTING then
      if s.slot i = tid then i else search s tid fuel (i + 1)
    else i

/-- The slot of a tree id, or `top + 1`. -/
def find (s : TreeStack) (tid : Nat) : Nat := s.search tid s.top 1

/-- The loop that closes the gap at `j`. -/
def shift (top : Nat) : Nat → Nat → List Nat → List Nat
  | 0, _, slots => slots
  | fuel + 1, j, slots =>
    if j < top then shift top fuel (j + 1) (slots.set j (slots.getD (j + 1) 0)) else slots

theorem length_shift (top fuel j : Nat) (slots : List Nat) :
    (shift top fuel j slots).length = slots.length := by
  induction fuel generalizing j slots with
  | zero => rfl
  | succ fuel ih =>
    unfold shift
    split
    · rw [ih, List.length_set]
    · rfl

/-- `smb2_select_tree_id`. -/
def select (s : TreeStack) (tid : Nat) : TreeStack × Int :=
  if s.find tid ≤ s.top then ({ s with cur := s.find tid }, 0) else (s, -1)

/-- `smb2_connect_tree_id`. -/
def connect (s : TreeStack) (tid : Nat) : TreeStack × Int :=
  if s.top < MAX_TREE_NESTING - 1 then
    ({ s with
        slots := s.slots.set (s.top + 1) tid
        top := s.top + 1
        cur := s.top + 1
        sized := by rw [List.length_set, s.sized] }, 0)
  else (s, -1)

/-- `smb2_disconnect_tree_id`. -/
def disconnect (s : TreeStack) (tid : Nat) : TreeStack × Int :=
  if 0 < s.top ∧ s.find tid ≤ s.top then
    ({ s with
        slots := shift s.top s.top (s.find tid) s.slots
        top := s.top - 1
        cur := if s.top - 1 < s.cur then s.top - 1 else s.cur
        sized := by rw [length_shift, s.sized] }, 0)
  else (s, -1)

/-- The entries up to the top, the unused one first. -/
def ids (s : TreeStack) : List Nat := s.slots.take (s.top + 1)

/-- The connected tree ids. -/
def connected (s : TreeStack) : List Nat := s.ids.tail

/-- What the calls keep. -/
structure Ok (s : TreeStack) : Prop where
  cur_le : s.cur ≤ s.top
  top_lt : s.top < MAX_TREE_NESTING
  cur_pos : 0 < s.top → 0 < s.cur

/-! ## The array as a list -/

variable {s : TreeStack}

theorem slot_eq {i : Nat} (h : i ≤ s.top) : s.slot i = s.ids.getD i 0 := by
  unfold slot ids
  rw [List.getD_eq_getElem?_getD, List.getD_eq_getElem?_getD, List.getElem?_take_of_lt (by omega)]

theorem length_ids (h : s.Ok) : s.ids.length = s.top + 1 := by
  have htop := h.top_lt
  rw [ids, List.length_take, s.sized]
  omega

theorem length_connected (h : s.Ok) : s.connected.length = s.top := by
  rw [connected, List.length_tail, length_ids h]
  omega

/-- The loop runs through the entries that do not match. -/
theorem search_spec (h : s.top < MAX_TREE_NESTING) (tid fuel i : Nat)
    (hfuel : s.top < i + fuel) :
    (s.search tid fuel i ≤ s.top → s.slot (s.search tid fuel i) = tid) ∧
      (∀ k, i ≤ k → k < s.search tid fuel i → k ≤ s.top → s.slot k ≠ tid) ∧
      i ≤ s.search tid fuel i := by
  induction fuel generalizing i with
  | zero =>
    refine ⟨?_, ?_, Nat.le_refl i⟩
    · intro hle
      have hle : i ≤ s.top := hle
      omega
    · intro k hik hk
      have hk : k < i := hk
      omega
  | succ fuel ih =>
    unfold search
    split
    · split
      · rename_i hit
        refine ⟨fun _ => hit, ?_, Nat.le_refl i⟩
        intro k hik hk
        omega
      · rename_i hmiss
        obtain ⟨hfound, hnone, hle⟩ := ih (i + 1) (by omega)
        refine ⟨hfound, ?_, by omega⟩
        intro k hik hk htop
        by_cases he : k = i
        · rw [he]
          exact hmiss
        · exact hnone k (by omega) hk htop
    · rename_i hout
      refine ⟨?_, ?_, Nat.le_refl i⟩
      · intro hle
        omega
      · intro k hik hk
        omega

/-- What `find` returns is the first slot of the id. -/
theorem find_spec (h : s.Ok) (tid : Nat) :
    (s.find tid ≤ s.top → s.slot (s.find tid) = tid) ∧
      (∀ k, 1 ≤ k → k < s.find tid → k ≤ s.top → s.slot k ≠ tid) ∧ 1 ≤ s.find tid :=
  search_spec h.top_lt tid s.top 1 (by omega)

/-- Past the gap each entry comes one slot down. -/
theorem getElem?_shift {top : Nat} (fuel j : Nat) (slots : List Nat) (htop : top < slots.length)
    (hfuel : top ≤ j + fuel) (k : Nat) :
    (shift top fuel j slots)[k]? = if j ≤ k ∧ k < top then slots[k + 1]? else slots[k]? := by
  induction fuel generalizing j slots with
  | zero =>
    rw [if_neg (by omega)]
    rfl
  | succ fuel ih =>
    unfold shift
    split
    · rename_i hj
      rw [ih (j + 1) _ (by rw [List.length_set]; exact htop) (by omega)]
      have hnext : slots.getD (j + 1) 0 = (slots[j + 1]?).getD 0 := List.getD_eq_getElem?_getD ..
      by_cases hk : j ≤ k ∧ k < top
      · rw [if_pos hk]
        by_cases he : k = j
        · subst he
          rw [if_neg (by omega), List.getElem?_set_self (by omega), hnext,
            List.getElem?_eq_getElem (by omega)]
          rfl
        · rw [if_pos (by omega), List.getElem?_set_ne (by omega)]
      · rw [if_neg hk, if_neg (by omega)]
        by_cases he : k = j
        · omega
        · rw [List.getElem?_set_ne (by omega)]
    · rw [if_neg (by omega)]

theorem shift_take {top i : Nat} {slots : List Nat} (htop : top < slots.length) (hi : i ≤ top) :
    (shift top top i slots).take top = (slots.take (top + 1)).eraseIdx i := by
  apply List.ext_getElem?
  intro k
  have hshift := getElem?_shift top i slots htop (by omega) k
  rw [List.getElem?_take, hshift, List.getElem?_eraseIdx]
  by_cases hk : k < top
  · rw [if_pos hk]
    by_cases hik : k < i
    · rw [if_pos hik, if_neg (by omega), List.getElem?_take_of_lt (by omega)]
    · rw [if_neg hik, if_pos (by omega), List.getElem?_take_of_lt (by omega)]
  · rw [if_neg hk]
    by_cases hik : k < i
    · omega
    · rw [if_neg hik, List.getElem?_eq_none (by rw [List.length_take]; omega)]

/-! ## The calls on the list -/

theorem connect_ids (s : TreeStack) (tid : Nat) :
    (s.connect tid).1.ids = if s.top < MAX_TREE_NESTING - 1 then s.ids ++ [tid] else s.ids := by
  unfold connect
  split
  · rename_i hroom
    have hlt : s.top + 1 < s.slots.length := by
      rw [s.sized]
      have hmax : MAX_TREE_NESTING = 32 := rfl
      omega
    show (s.slots.set (s.top + 1) tid).take (s.top + 1 + 1) = s.slots.take (s.top + 1) ++ [tid]
    rw [List.take_add_one, List.take_set_of_le (Nat.le_refl _), List.getElem?_set_self hlt]
    rfl
  · rfl

theorem disconnect_ids (h : s.Ok) (tid : Nat) :
    (s.disconnect tid).1.ids = if s.find tid ≤ s.top then s.ids.eraseIdx (s.find tid)
      else s.ids := by
  have hpos := (find_spec h tid).2.2
  unfold disconnect
  split
  · rename_i hfound
    rw [if_pos hfound.2]
    have htop : s.top < s.slots.length := by
      rw [s.sized]
      exact h.top_lt
    show (shift s.top s.top (s.find tid) s.slots).take (s.top - 1 + 1) = _
    rw [Nat.sub_add_cancel hfound.1, shift_take htop hfound.2]
    rfl
  · rename_i hnone
    rw [if_neg (by omega)]

theorem select_ids (s : TreeStack) (tid : Nat) : (s.select tid).1.ids = s.ids := by
  unfold select
  split <;> rfl

theorem slot_connected (h : s.Ok) {i : Nat} (hi : i < s.connected.length) :
    s.connected[i] = s.slot (i + 1) := by
  have hlen := length_connected h
  have hids := length_ids h
  rw [slot_eq (by omega), List.getD_eq_getElem?_getD, List.getElem?_eq_getElem (by omega)]
  simp only [connected, List.getElem_tail, Option.getD_some]

/-- The loop finds what a search of the list finds. -/
theorem findIdx?_connected (h : s.Ok) (tid : Nat) :
    s.connected.findIdx? (· == tid) = if s.find tid ≤ s.top then some (s.find tid - 1)
      else none := by
  obtain ⟨hfound, hnone, hpos⟩ := find_spec h tid
  have hlen := length_connected h
  split
  · rename_i hle
    rw [List.findIdx?_eq_some_iff_getElem]
    have hlt : s.find tid - 1 < s.connected.length := by omega
    refine ⟨hlt, ?_, ?_⟩
    · rw [slot_connected h hlt, Nat.sub_add_cancel hpos]
      simpa using hfound hle
    · intro j hj
      rw [slot_connected h (by omega)]
      simpa using hnone (j + 1) (by omega) (by omega) (by omega)
  · rename_i hgt
    rw [List.findIdx?_eq_none_iff]
    intro x hx
    obtain ⟨j, hj, rfl⟩ := List.getElem_of_mem hx
    rw [slot_connected h hj]
    simpa using hnone (j + 1) (by omega) (by omega) (by omega)

theorem connect_connected (h : s.Ok) (tid : Nat) :
    (s.connect tid).1.connected =
      if s.connected.length < MAX_TREE_NESTING - 1 then s.connected ++ [tid] else s.connected := by
  have hids := length_ids h
  rw [length_connected h, connected, connect_ids]
  split
  · rw [List.tail_append_of_ne_nil (by intro hnil; rw [hnil] at hids; cases hids)]
    rfl
  · rfl

/-- Disconnecting removes the first entry with the id. -/
theorem disconnect_connected (h : s.Ok) (tid : Nat) :
    (s.disconnect tid).1.connected = s.connected.erase tid := by
  have hpos := (find_spec h tid).2.2
  rw [List.erase_eq_eraseP', List.eraseP_eq_eraseIdx, findIdx?_connected h, connected,
    disconnect_ids h]
  split
  · obtain ⟨i, hi⟩ : ∃ i, s.find tid = i + 1 := ⟨s.find tid - 1, by omega⟩
    rw [hi]
    show (s.ids.eraseIdx (i + 1)).tail = s.ids.tail.eraseIdx i
    cases s.ids with
    | nil => rfl
    | cons x xs => rfl
  · rfl

/-! ## The context's model of the stack -/

/-- A context and a stack hold the same tree ids. -/
def Represents (s : TreeStack) (ctx : Context) : Prop := s.ids = ctx.treeIds ∧ s.cur = ctx.treeCur

theorem Represents.treeId {ctx : Context} (h : s.Ok) (hr : s.Represents ctx) :
    ctx.treeId = s.treeId := by
  have hcur := h.cur_le
  have hids := length_ids h
  unfold Context.treeId TreeStack.treeId
  rw [slot_eq hcur, hr.1, hr.2, List.getD_eq_getElem?_getD, List.getD_eq_getElem?_getD,
    List.getElem?_eq_getElem (by rw [← hr.1, ← hr.2]; omega)]
  rfl

theorem Represents.connect {ctx : Context} (h : s.Ok) (hr : s.Represents ctx)
    (tid : Nat) : (s.connect tid).1.Represents (ctx.connectTreeId tid) := by
  obtain ⟨hids, hcur⟩ := hr
  have hlen := length_ids h
  have htop : ctx.treeIds.length - 1 = s.top := by
    rw [← hids, hlen]
    omega
  refine ⟨?_, ?_⟩
  · rw [connect_ids, Context.connectTreeId, htop]
    split
    · rw [hids]
    · exact hids
  · rw [TreeStack.connect, Context.connectTreeId, htop]
    split
    · show s.top + 1 = ctx.treeIds.length
      rw [← hids, hlen]
    · exact hcur

theorem Represents.select {ctx : Context} (h : s.Ok) (hr : s.Represents ctx)
    (tid : Nat) : (s.select tid).1.Represents (ctx.selectTreeId tid) := by
  obtain ⟨hids, hcur⟩ := hr
  have hpos := (find_spec h tid).2.2
  have hfind := findIdx?_connected h tid
  have hdrop : ctx.treeIds.drop 1 = s.connected := by
    rw [← hids, List.drop_one]
    rfl
  unfold TreeStack.select Context.selectTreeId
  rw [hdrop, hfind]
  by_cases hle : s.find tid ≤ s.top
  · rw [if_pos hle, if_pos hle]
    exact ⟨hids, (Nat.sub_add_cancel hpos).symm⟩
  · rw [if_neg hle, if_neg hle]
    exact ⟨hids, hcur⟩

theorem Represents.disconnect {ctx : Context} (h : s.Ok) (hr : s.Represents ctx)
    (tid : Nat) : (s.disconnect tid).1.Represents (ctx.disconnectTreeId tid) := by
  obtain ⟨hids, hcur⟩ := hr
  have hpos := (find_spec h tid).2.2
  have hlen := length_ids h
  have hfind := findIdx?_connected h tid
  have hnew := disconnect_ids h tid
  have hdrop : ctx.treeIds.drop 1 = s.connected := by
    rw [← hids, List.drop_one]
    rfl
  unfold Context.disconnectTreeId
  rw [hdrop, hfind]
  by_cases hle : s.find tid ≤ s.top
  · rw [if_pos hle] at hnew
    rw [if_pos hle]
    have hsub : s.find tid - 1 + 1 = s.find tid := Nat.sub_add_cancel hpos
    refine ⟨?_, ?_⟩
    · show (s.disconnect tid).1.ids = ctx.treeIds.eraseIdx (s.find tid - 1 + 1)
      rw [hnew, hids, hsub]
    · show (s.disconnect tid).1.cur = min ctx.treeCur ((ctx.treeIds.eraseIdx _).length - 1)
      rw [hsub, List.length_eraseIdx_of_lt (by rw [← hids]; omega), ← hids, hlen, ← hcur,
        TreeStack.disconnect, if_pos ⟨by omega, hle⟩]
      show (if s.top - 1 < s.cur then s.top - 1 else s.cur) = _
      split <;> omega
  · have hfail : (s.disconnect tid).1 = s := by
      rw [TreeStack.disconnect, if_neg (by omega)]
    rw [if_neg hle, hfail]
    exact ⟨hids, hcur⟩

/-! ## Sequences of calls -/

/-- A call. -/
inductive Call
  | connect (tid : Nat)
  | disconnect (tid : Nat)
  | select (tid : Nat)
  deriving DecidableEq, Repr

def step (s : TreeStack) : Call → TreeStack × Int
  | .connect tid => s.connect tid
  | .disconnect tid => s.disconnect tid
  | .select tid => s.select tid

def run (s : TreeStack) (calls : List Call) : TreeStack := calls.foldl (fun s c => (s.step c).1) s

/-- The tree ids that are connected after these calls, in connection order. -/
def connectedAfter (calls : List Call) : List Nat :=
  calls.foldl (fun ids c => match c with
    | .connect tid => if ids.length < MAX_TREE_NESTING - 1 then ids ++ [tid] else ids
    | .disconnect tid => ids.erase tid
    | .select _ => ids) []

/-- The selection survives the removal of this id: the id is not connected, or it is above the
selected entry, or the selected entry is the topmost one, or the one above it has the same id. -/
def Keeps (s : TreeStack) (tid : Nat) : Prop :=
  tid ∉ s.connected ∨ s.cur < s.find tid ∨ s.cur = s.top ∨ s.slot (s.cur + 1) = s.treeId

theorem Ok.step (h : s.Ok) (c : Call) : (s.step c).1.Ok := by
  obtain ⟨hcur, htop, hpos⟩ := h
  have hmax : MAX_TREE_NESTING = 32 := rfl
  cases c with
  | connect tid =>
    show (s.connect tid).1.Ok
    unfold TreeStack.connect
    split
    · exact ⟨Nat.le_refl _, by show s.top + 1 < _; omega, fun _ => Nat.succ_pos _⟩
    · exact ⟨hcur, htop, hpos⟩
  | disconnect tid =>
    show (s.disconnect tid).1.Ok
    unfold TreeStack.disconnect
    split
    · rename_i hfound
      refine ⟨?_, ?_, ?_⟩
      · show (if s.top - 1 < s.cur then s.top - 1 else s.cur) ≤ s.top - 1
        split <;> omega
      · show s.top - 1 < MAX_TREE_NESTING
        omega
      · show 0 < s.top - 1 → 0 < if s.top - 1 < s.cur then s.top - 1 else s.cur
        intro hstill
        have := hpos hfound.1
        split <;> omega
    · exact ⟨hcur, htop, hpos⟩
  | select tid =>
    show (s.select tid).1.Ok
    unfold TreeStack.select
    split
    · rename_i hfound
      exact ⟨hfound, htop, fun _ => (find_spec ⟨hcur, htop, hpos⟩ tid).2.2⟩
    · exact ⟨hcur, htop, hpos⟩

/-- A call that fails changes nothing. -/
theorem step_fails {c : Call} (h : (s.step c).2 ≠ 0) : (s.step c).1 = s := by
  cases c with
  | connect tid =>
    have h : (s.connect tid).2 ≠ 0 := h
    show (s.connect tid).1 = s
    unfold TreeStack.connect at h ⊢
    split
    · rename_i hroom
      rw [if_pos hroom] at h
      exact absurd rfl h
    · rfl
  | disconnect tid =>
    have h : (s.disconnect tid).2 ≠ 0 := h
    show (s.disconnect tid).1 = s
    unfold TreeStack.disconnect at h ⊢
    split
    · rename_i hfound
      rw [if_pos hfound] at h
      exact absurd rfl h
    · rfl
  | select tid =>
    have h : (s.select tid).2 ≠ 0 := h
    show (s.select tid).1 = s
    unfold TreeStack.select at h ⊢
    split
    · rename_i hfound
      rw [if_pos hfound] at h
      exact absurd rfl h
    · rfl

theorem find_le_iff (h : s.Ok) (tid : Nat) :
    s.find tid ≤ s.top ↔ tid ∈ s.connected := by
  have hfind := findIdx?_connected h tid
  constructor
  · intro hle
    rw [if_pos hle, List.findIdx?_eq_some_iff_getElem] at hfind
    obtain ⟨hlt, hhit, _⟩ := hfind
    have heq : s.connected[s.find tid - 1] = tid := by simpa using hhit
    rw [← heq]
    exact List.getElem_mem hlt
  · intro hmem
    by_cases hle : s.find tid ≤ s.top
    · exact hle
    · rw [if_neg hle, List.findIdx?_eq_none_iff] at hfind
      have hmiss := hfind tid hmem
      simp at hmiss

/-- The selected id after a disconnect, when another one was disconnected. -/
theorem disconnect_treeId (h : s.Ok) {tid : Nat} (hne : tid ≠ s.treeId) :
    (s.disconnect tid).1.treeId = s.treeId ↔ s.Keeps tid := by
  obtain ⟨hhit, hmiss, hpos⟩ := find_spec h tid
  have hmem := find_le_iff h tid
  have hcur := h.cur_le
  have htop : s.top < s.slots.length := by
    rw [s.sized]
    exact h.top_lt
  unfold Keeps
  by_cases hle : s.find tid ≤ s.top
  · -- the slot that becomes the selected one, and what it held before
    have hslot : ∀ k, ((shift s.top s.top (s.find tid) s.slots).getD k 0) =
        if s.find tid ≤ k ∧ k < s.top then s.slot (k + 1) else s.slot k := by
      intro k
      rw [List.getD_eq_getElem?_getD, getElem?_shift s.top _ s.slots htop (by omega) k]
      split
      · exact (List.getD_eq_getElem?_getD ..).symm
      · exact (List.getD_eq_getElem?_getD ..).symm
    have hother : s.find tid ≠ s.cur := by
      intro he
      exact hne (by rw [TreeStack.treeId, ← he, hhit hle])
    have hnew : (s.disconnect tid).1.treeId =
        (shift s.top s.top (s.find tid) s.slots).getD
          (if s.top - 1 < s.cur then s.top - 1 else s.cur) 0 := by
      unfold TreeStack.disconnect
      rw [if_pos ⟨by omega, hle⟩]
      rfl
    rw [hnew, hslot]
    by_cases hlow : s.cur < s.find tid
    · rw [if_neg (show ¬s.top - 1 < s.cur by omega), if_neg (by omega)]
      exact ⟨fun _ => .inr (.inl hlow), fun _ => rfl⟩
    · by_cases hlast : s.cur = s.top
      · have hsel : s.slot s.top = s.treeId := by
          rw [← hlast]
          rfl
        rw [if_pos (show s.top - 1 < s.cur by omega), if_pos (by omega),
          Nat.sub_add_cancel (by omega : 1 ≤ s.top), hsel]
        exact ⟨fun _ => .inr (.inr (.inl hlast)), fun _ => rfl⟩
      · rw [if_neg (show ¬s.top - 1 < s.cur by omega), if_pos (by omega)]
        constructor
        · intro hsame
          exact .inr (.inr (.inr hsame))
        · rintro (hout | hlt | he | hsame)
          · exact absurd (hmem.mp hle) hout
          · exact absurd hlt hlow
          · exact absurd he hlast
          · exact hsame
  · have hfail : (s.disconnect tid).1 = s := by
      unfold TreeStack.disconnect
      rw [if_neg (by omega)]
    rw [hfail]
    exact ⟨fun _ => .inl fun hin => hle (hmem.mpr hin), fun _ => rfl⟩

theorem step_connected (h : s.Ok) (c : Call) :
    (s.step c).1.connected = match c with
      | .connect tid => if s.connected.length < MAX_TREE_NESTING - 1 then s.connected ++ [tid]
        else s.connected
      | .disconnect tid => s.connected.erase tid
      | .select _ => s.connected := by
  cases c with
  | connect tid => exact connect_connected h tid
  | disconnect tid => exact disconnect_connected h tid
  | select tid => exact congrArg List.tail (select_ids s tid)

/-- The array follows the list of connected ids through every sequence of calls. -/
theorem run_spec (h : s.Ok) (calls : List Call) :
    (s.run calls).Ok ∧ (s.run calls).connected = calls.foldl (fun ids c => match c with
      | .connect tid => if ids.length < MAX_TREE_NESTING - 1 then ids ++ [tid] else ids
      | .disconnect tid => ids.erase tid
      | .select _ => ids) s.connected := by
  induction calls generalizing s with
  | nil => exact ⟨h, rfl⟩
  | cons c calls ih =>
    obtain ⟨hok, hids⟩ := ih (h.step c)
    refine ⟨hok, ?_⟩
    show ((s.step c).1.run calls).connected = _
    rw [hids, step_connected h c]
    rfl

/-- A stack on which nothing is connected. -/
def empty (slots : List Nat) (sized : slots.length = MAX_TREE_NESTING) : TreeStack where
  slots := slots
  top := 0
  cur := 0
  sized := sized

/-- **The tree ids are a stack, and the selection survives a disconnect exactly when the index
still points at it.** -/
theorem tree_ids_are_stacked (slots : List Nat) (sized : slots.length = MAX_TREE_NESTING)
    (calls : List Call) :
    let s := (empty slots sized).run calls
    (s.cur ≤ s.top ∧ s.top ≤ MAX_TREE_NESTING - 1) ∧ s.connected = connectedAfter calls ∧
      (∀ c, (s.step c).2 ≠ 0 → (s.step c).1 = s) ∧
      ∀ tid, tid ≠ s.treeId → ((s.disconnect tid).1.treeId = s.treeId ↔ s.Keeps tid) := by
  intro s
  have hempty : (empty slots sized).Ok := by
    refine ⟨Nat.le_refl 0, ?_, fun hpos => absurd hpos (Nat.lt_irrefl 0)⟩
    show 0 < MAX_TREE_NESTING
    decide
  obtain ⟨hok, hids⟩ := run_spec hempty calls
  have hstart : (empty slots sized).connected = [] := by
    show (slots.take 1).tail = []
    cases slots <;> rfl
  rw [hstart] at hids
  refine ⟨⟨hok.cur_le, ?_⟩, hids, fun c hc => step_fails hc, ?_⟩
  · exact Nat.le_sub_one_of_lt hok.top_lt
  · intro tid hne
    exact disconnect_treeId hok hne

/-- A stack with a selection, for the witness and the counterexample. -/
def threeTrees : List Call := [.connect 1, .connect 2, .connect 3, .select 2]

theorem tree_ids_are_stacked_three :
    let s := (empty (List.replicate 32 0) rfl).run threeTrees
    s.connected = [1, 2, 3] ∧ (s.disconnect 3).1.treeId = 2 := by
  have h := tree_ids_are_stacked (List.replicate 32 0) rfl threeTrees
  refine ⟨h.2.1, (h.2.2.2 3 (by decide +kernel)).mpr (.inr (.inl (by decide +kernel)))⟩

/-- Disconnecting the first of three trees moves the selection from the second to the third. -/
theorem first_of_three_moves_selection :
    let s := (empty (List.replicate 32 0) rfl).run threeTrees
    s.treeId = 2 ∧ (s.disconnect 1).2 = 0 ∧ (s.disconnect 1).1.treeId = 3 := by
  decide +kernel

/-! ## The array and the list -/

open Util

/-- The calls on a context. -/
def callContext (ctx : Context) : Call → Context
  | .connect tid => ctx.connectTreeId tid
  | .disconnect tid => ctx.disconnectTreeId tid
  | .select tid => ctx.selectTreeId tid

/-- The array, which answers a call with the tree id that is selected then. -/
def arrayMachine : Machine TreeStack Call Nat := ⟨fun s c => ((s.step c).1, (s.step c).1.treeId)⟩

/-- Likewise the list of a context. -/
def listMachine : Machine Context Call Nat :=
  ⟨fun ctx c => (callContext ctx c, (callContext ctx c).treeId)⟩

theorem Represents.step {ctx : Context} (h : s.Ok) (hr : s.Represents ctx)
    (c : Call) : (s.step c).1.Represents (callContext ctx c) := by
  cases c with
  | connect tid => exact hr.connect h tid
  | disconnect tid => exact hr.disconnect h tid
  | select tid => exact hr.select h tid

theorem array_simulates :
    arrayMachine.Simulates listMachine fun s ctx => s.Ok ∧ s.Represents ctx where
  next c h := ⟨h.1.step c, h.2.step h.1 c⟩
  same c h := ((h.2.step h.1 c).treeId (h.1.step c)).symm

/-- **In every sequence of calls** from an empty stack the array and the list of a context hold the
same ids and select the same tree after each call. -/
theorem array_is_the_list (slots : List Nat) (sized : slots.length = MAX_TREE_NESTING)
    (ctx : Context) (calls : List Call) :
    let s := empty slots sized
    let ctx := { ctx with treeIds := slots.take 1, treeCur := 0 }
    arrayMachine.answers s calls = listMachine.answers ctx calls ∧
      (arrayMachine.state s calls).Represents (listMachine.state ctx calls) := by
  intro s ctx
  have hstart : s.Ok ∧ s.Represents ctx :=
    ⟨⟨Nat.le_refl 0, show 0 < MAX_TREE_NESTING by decide, fun hpos => hpos⟩, rfl, rfl⟩
  exact ⟨array_simulates.answers hstart calls, (array_simulates.state hstart calls).2⟩

theorem array_is_the_list_three : listMachine.answers {} threeTrees = [1, 2, 3, 2] := by
  have h := (array_is_the_list (List.replicate 32 0) rfl {} threeTrees).1
  exact h.symm.trans (by decide +kernel)

end TreeStack

end Libsmb2
