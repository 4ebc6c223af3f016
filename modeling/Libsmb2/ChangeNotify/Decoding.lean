import Libsmb2.ChangeNotify
import Libsmb2.Util.Window

/-!
# Decoding a change list

`smb2_decode_filenotifychangeinformation` with everything that it reads.  It calls itself on an
offset that is added up in 32 bits from what the server has sent, the offsets are given to the
readers as `int`s, and what they do not read is whatever the stack holds.

* `decodeFrom` — the calls, each with the offset that it begins at;
* `Chain` — a list that is decoded as it should be;
* `change_list_is_decoded_iff` — when a list is decoded inside its buffer, from front to back.
-/

set_option autoImplicit false

namespace Libsmb2.ChangeNotify

open Util

/-! ## The decoder -/

/-- What the stack holds in `name_len` and `tmp` as a call begins. -/
structure Locals where
  nameLen : UInt32
  tmp : UInt32

/-- What is read of the record at `off`: its node, and what is added to the offset. -/
def decodeNode (vec : Bytes) (stack : Locals) (off : Nat) : Except Overrun (Change × Nat) := do
  let action ← (Window.whole vec).getAt 4 (toInt32 ((off + 4) % 4294967296 : Nat)) 0
  let nameLen ← (Window.whole vec).getAt 4 (toInt32 ((off + 8) % 4294967296 : Nat)) stack.nameLen.toNat
  let name ← (Window.whole vec).read ((off + 12) % 4294967296) (nameLen / 2 * 2)
  let next ← (Window.whole vec).getAt 4 (toInt32 off) stack.tmp.toNat
  .ok (⟨action, some (utf16ToUtf8 (utf16Units name))⟩, next)

/-- One call of `smb2_decode_filenotifychangeinformation`: the nodes that it fills, with the offsets
that they are read at, if `rest` is what the next call does. -/
def decodeCall (vec : Bytes) (stack : Locals)
    (rest : Nat → Option (Except Overrun (List (Nat × Change)))) (off : Nat) :
    Option (Except Overrun (List (Nat × Change))) :=
  if vec.length < (off + 12) % 4294967296 then some (.ok [(off, {})])
  else match decodeNode vec stack off with
    | .error e => some (.error e)
    | .ok (change, next) =>
      if next = 0 then some (.ok [(off, change)])
      else (rest ((off + next) % 4294967296)).map fun run => run.map ((off, change) :: ·)

/-- The calls, from the one for the record at `off`; `none` is that `calls` of them are not enough. -/
def decodeFrom (vec : Bytes) (stack : Nat → Locals) :
    Nat → Nat → Nat → Option (Except Overrun (List (Nat × Change)))
  | 0, _, _ => none
  | calls + 1, depth, off =>
    decodeCall vec (stack depth) (decodeFrom vec stack calls (depth + 1)) off

/-- Whatever the stack holds, the calls come to an end at rising offsets without a read outside the
buffer, and a chain of records is read as it stands. -/
def Bounded (vec : Bytes) : Prop :=
  ∀ stack, ∃ calls trace, decodeFrom vec stack calls 0 0 = some (.ok trace) ∧
    (trace.map Prod.fst).Pairwise (· < ·) ∧
    ∀ changes, Records vec 0 changes → trace.map Prod.snd = changes

/-- From the record at `off` the list leads to one that ends it, or to an offset with no room for a
record, and no record begins so far back that its offset is no `int`. -/
inductive Chain (vec : Bytes) : Nat → Prop
  | past {off : Nat} (hlong : vec.length < off + 12) (hoff : off + 12 < 2 ^ 32) : Chain vec off
  | last {off : Nat} (hfits : off + 12 + u32 vec (off + 8) / 2 * 2 ≤ vec.length)
      (hlow : off + 8 < 2 ^ 31) (hnext : u32 vec off = 0) : Chain vec off
  | next {off : Nat} (hfits : off + 12 + u32 vec (off + 8) / 2 * 2 ≤ vec.length)
      (hlow : off + 8 < 2 ^ 31) (hnext : u32 vec off ≠ 0) (hrest : Chain vec (off + u32 vec off)) :
      Chain vec off

section
variable {vec : Bytes} {stack : Locals} {off : Nat}

/-! ## What is read of one record -/

/-- A field before the end of the range of an `int`. -/
theorem getAt_low (hoff : off + 4 ≤ vec.length) (hlow : off < 2 ^ 31) (old : Nat) :
    (Window.whole vec).getAt 4 (toInt32 off) old = .ok (u32 vec off) := by
  have hlen : (Window.whole vec).len = vec.length := rfl
  rw [toInt32_of_lt (by omega), Window.getAt_natCast (by omega), Window.get_of_le (by omega) hoff]
  rfl

/-- Behind it a field counts from the end of the range. -/
theorem toInt32_high (hhigh : 2 ^ 31 ≤ off) (hoff : off < 2 ^ 32) :
    toInt32 off = (off : Int) - 2 ^ 32 := by
  unfold toInt32
  simp only
  rw [Int.emod_eq_of_lt (by omega) (by omega), if_neg (by omega)]
  omega

/-- A field that is neither read nor refused. -/
theorem getAt_high (hhigh : 2 ^ 31 ≤ off) (hoff : off + 4 < 2 ^ 32) (hvec : vec.length < 2 ^ 32)
    (old : Nat) : (Window.whole vec).getAt 4 (toInt32 off) old = .ok old := by
  have hlen : (Window.whole vec).len = vec.length := rfl
  rw [toInt32_high hhigh (by omega)]
  exact Window.getAt_far (by omega) (by omega) (by omega) old

/-- A field that begins just before the buffer. -/
theorem getAt_end (hend : 2 ^ 32 ≤ off + 4) (hoff : off < 2 ^ 32) (hroom : 4 ≤ vec.length)
    (hvec : vec.length < 2 ^ 32) (old : Nat) :
    ¬ Inside ((Window.whole vec).getAt 4 (toInt32 off) old) := by
  have hlen : (Window.whole vec).len = vec.length := rfl
  rw [toInt32_high (by omega) hoff,
    Window.getAt_before (by omega) (by omega) (by omega) (by omega)]
  exact not_inside_error _

/-- A record in the front of the buffer: its name has to be in it. -/
theorem decodeNode_low (hoff : off + 12 ≤ vec.length) (hlow : off + 8 < 2 ^ 31) :
    decodeNode vec stack off =
      if off + 12 + u32 vec (off + 8) / 2 * 2 ≤ vec.length then
        .ok (⟨u32 vec (off + 4), some (nameAt vec off)⟩, u32 vec off)
      else .error .read := by
  unfold decodeNode
  rw [Nat.mod_eq_of_lt (by omega), Nat.mod_eq_of_lt (by omega), Nat.mod_eq_of_lt (by omega),
    getAt_low (by omega) (by omega), getAt_low (by omega) hlow, getAt_low (by omega) (by omega)]
  simp only [bind, Except.bind]
  split_ifs with hfits
  · rw [Window.read_of_le hfits]
    rfl
  · rw [Window.read_of_lt (by omega) (by simpa using hfits)]

/-- A record whose length of the name is not read: the stack may hold any. -/
theorem decodeNode_high (hstack : stack.nameLen = 0xffffffff) (hhigh : 2 ^ 31 ≤ off + 8)
    (hoff : off + 12 < 2 ^ 32) (hvec : vec.length < 2 ^ 32) :
    ¬ Inside (decodeNode vec stack off) := by
  unfold decodeNode
  rw [Nat.mod_eq_of_lt (show off + 8 < 4294967296 by omega),
    Nat.mod_eq_of_lt (show off + 12 < 4294967296 by omega), getAt_high hhigh hoff hvec]
  intro h
  obtain ⟨action, -, h⟩ := inside_bind_iff.mp h
  obtain ⟨nameLen, hnameLen, h⟩ := inside_bind_iff.mp h
  obtain ⟨name, hname, -⟩ := inside_bind_iff.mp h
  have hlong : nameLen / 2 * 2 = 4294967294 := by
    rw [← Except.ok.inj hnameLen, hstack]
    rfl
  have hread : Inside ((Window.whole vec).read (off + 12) (nameLen / 2 * 2)) := ⟨name, hname⟩
  rw [hlong, Window.inside_read_iff (by omega), Window.whole_octets] at hread
  omega

/-- A record across the end of the range begins before the buffer. -/
theorem decodeNode_end (hend : 2 ^ 32 ≤ off + 12) (hoff : off < 2 ^ 32) (hroom : 12 ≤ vec.length)
    (hvec : vec.length < 2 ^ 32) : ¬ Inside (decodeNode vec stack off) := by
  unfold decodeNode
  intro h
  obtain ⟨action, haction, h⟩ := inside_bind_iff.mp h
  obtain ⟨nameLen, hnameLen, h⟩ := inside_bind_iff.mp h
  obtain ⟨name, -, h⟩ := inside_bind_iff.mp h
  obtain ⟨next, hnext, -⟩ := inside_bind_iff.mp h
  -- one of the three fields lies across the front of the buffer
  by_cases hfirst : off + 8 < 4294967296
  · rw [Nat.mod_eq_of_lt hfirst] at hnameLen
    exact getAt_end (by omega) hfirst (by omega) hvec _ ⟨_, hnameLen⟩
  by_cases hsecond : off + 4 < 4294967296
  · rw [Nat.mod_eq_of_lt hsecond] at haction
    exact getAt_end (by omega) hsecond (by omega) hvec _ ⟨_, haction⟩
  · exact getAt_end (by omega) hoff (by omega) hvec _ ⟨_, hnext⟩

end

section
variable {vec : Bytes} {stack : Nat → Locals} {calls depth off : Nat}
  {trace : List (Nat × Change)}

/-! ## The calls -/

theorem decodeFrom_past (h : vec.length < (off + 12) % 4294967296) :
    decodeFrom vec stack (calls + 1) depth off = some (.ok [(off, {})]) := by
  rw [decodeFrom, decodeCall, if_pos h]

/-- A record in the front of the buffer. -/
theorem decodeFrom_low (hfits : off + 12 + u32 vec (off + 8) / 2 * 2 ≤ vec.length)
    (hlow : off + 8 < 2 ^ 31) :
    decodeFrom vec stack (calls + 1) depth off =
      if u32 vec off = 0 then some (.ok [(off, ⟨u32 vec (off + 4), some (nameAt vec off)⟩)])
      else (decodeFrom vec stack calls (depth + 1) ((off + u32 vec off) % 4294967296)).map fun run =>
        run.map ((off, ⟨u32 vec (off + 4), some (nameAt vec off)⟩) :: ·) := by
  rw [decodeFrom, decodeCall, Nat.mod_eq_of_lt (by omega), if_neg (by omega),
    decodeNode_low (by omega) hlow, if_pos hfits]

/-- What a call that comes to an end has done. -/
theorem decodeFrom_cases
    (h : decodeFrom vec stack (calls + 1) depth off = some (.ok trace)) :
    (vec.length < (off + 12) % 4294967296 ∧ trace = [(off, {})]) ∨
      (off + 12) % 4294967296 ≤ vec.length ∧
        ∃ change next, decodeNode vec (stack depth) off = .ok (change, next) ∧
          (next = 0 ∧ trace = [(off, change)] ∨ next ≠ 0 ∧ ∃ rest,
            decodeFrom vec stack calls (depth + 1) ((off + next) % 4294967296) = some (.ok rest) ∧
              trace = (off, change) :: rest) := by
  rw [decodeFrom, decodeCall] at h
  split at h
  · rename_i hpast
    cases h
    exact .inl ⟨hpast, rfl⟩
  rename_i hroom
  refine .inr ⟨by omega, ?_⟩
  cases hnode : decodeNode vec (stack depth) off with
  | error e => simp [hnode] at h
  | ok node =>
    obtain ⟨change, next⟩ := node
    simp only [hnode] at h
    refine ⟨change, next, rfl, ?_⟩
    split at h
    · rename_i hlast
      cases h
      exact .inl ⟨hlast, rfl⟩
    · rename_i hnext
      refine .inr ⟨hnext, ?_⟩
      obtain ⟨run, hrun, hmap⟩ := Option.map_eq_some_iff.mp h
      cases run with
      | error e => cases hmap
      | ok rest =>
        cases hmap
        exact ⟨rest, hrun, rfl⟩

/-- A run begins where it is told to. -/
theorem decodeFrom_head (h : decodeFrom vec stack calls depth off = some (.ok trace)) :
    ∃ change rest, trace = (off, change) :: rest := by
  cases calls with
  | zero => cases h
  | succ calls =>
    rcases decodeFrom_cases h with ⟨-, rfl⟩ | ⟨-, change, next, -, ⟨-, rfl⟩ | ⟨-, rest, -, rfl⟩⟩
    · exact ⟨_, _, rfl⟩
    · exact ⟨_, _, rfl⟩
    · exact ⟨_, _, rfl⟩

/-! ## A chain is decoded -/

/-- **A chain is decoded** inside the buffer and from front to back, whatever the stack holds. -/
theorem Chain.decoded (h : Chain vec off) (stack : Nat → Locals) (depth : Nat) :
    ∃ calls trace, decodeFrom vec stack calls depth off = some (.ok trace) ∧
      (trace.map Prod.fst).Pairwise (· < ·) ∧ (∀ o ∈ trace.map Prod.fst, off ≤ o) ∧
      ∀ changes, Records vec off changes → trace.map Prod.snd = changes := by
  induction h generalizing depth with
  | @past off hlong hoff =>
    refine ⟨1, _, decodeFrom_past (by omega), by simp, by simp, ?_⟩
    intro changes hrecords
    have hfits := hrecords.fits
    omega
  | @last off hfits hlow hnext =>
    refine ⟨1, _, (decodeFrom_low hfits hlow).trans (if_pos hnext), by simp, by simp, ?_⟩
    intro changes hrecords
    cases hrecords with
    | last _ _ => rfl
    | next _ hmore _ => exact absurd hnext hmore
  | @next off hfits hlow hnext hrest ih =>
    obtain ⟨calls, trace, hrun, hrising, hbehind, hrecords⟩ := ih (depth + 1)
    have hoff : off + u32 vec off < 2 ^ 32 := by
      cases hrest with
      | past _ hoff => omega
      | last hfits _ _ => omega
      | next hfits _ _ _ => omega
    refine ⟨calls + 1, (off, ⟨u32 vec (off + 4), some (nameAt vec off)⟩) :: trace, ?_, ?_, ?_, ?_⟩
    · rw [decodeFrom_low hfits hlow, if_neg hnext, Nat.mod_eq_of_lt (by omega), hrun]
      rfl
    · rw [List.map_cons, List.pairwise_cons]
      refine ⟨fun o ho => ?_, hrising⟩
      have hle := hbehind o ho
      simp only
      omega
    · intro o ho
      rcases List.mem_cons.mp ho with rfl | ho
      · exact Nat.le_refl _
      · have hle := hbehind o ho
        omega
    · intro changes hchanges
      cases hchanges with
      | last _ hlast => exact absurd hlast hnext
      | next _ _ hmore =>
        rw [List.map_cons, hrecords _ hmore]

/-! ## Nothing else is -/

/-- What the stack may hold that is worst for the reading of a name. -/
def fullStack : Nat → Locals := fun _ => ⟨0xffffffff, 0⟩

/-- A record that is read with any stack lies in front of the end of the range. -/
theorem low_of_node {node : Change × Nat} (h : decodeNode vec (fullStack depth) off = .ok node)
    (hroom : (off + 12) % 4294967296 ≤ vec.length) (hoff : off < 2 ^ 32)
    (hlong : off = 0 ∨ 12 ≤ vec.length) (hvec : vec.length < 2 ^ 32) :
    off + 8 < 2 ^ 31 ∧ off + 12 ≤ vec.length := by
  by_cases hend : 2 ^ 32 ≤ off + 12
  · exact absurd ⟨node, h⟩ (decodeNode_end hend hoff (by omega) hvec)
  rw [Nat.mod_eq_of_lt (by omega)] at hroom
  by_cases hhigh : 2 ^ 31 ≤ off + 8
  · exact absurd ⟨node, h⟩ (decodeNode_high rfl hhigh (by omega) hvec)
  exact ⟨by omega, hroom⟩

/-- **A list that is decoded is a chain.** -/
theorem chain_of_decoded (hvec : vec.length < 2 ^ 32)
    (h : decodeFrom vec fullStack calls depth off = some (.ok trace))
    (hrising : (trace.map Prod.fst).Pairwise (· < ·)) (hoff : off < 2 ^ 32)
    (hlong : off = 0 ∨ 12 ≤ vec.length) : Chain vec off := by
  induction calls generalizing depth off trace with
  | zero => cases h
  | succ calls ih =>
    rcases decodeFrom_cases h with ⟨hpast, -⟩ | ⟨hroom, change, next, hnode, hrest⟩
    · -- with no room for a record in the whole buffer, the offset is still the first
      have hend : off + 12 < 2 ^ 32 := by
        rcases hlong with rfl | hlong
        · omega
        · omega
      rw [Nat.mod_eq_of_lt (by omega)] at hpast
      exact .past hpast hend
    obtain ⟨hlow, hinside⟩ := low_of_node hnode hroom hoff hlong hvec
    rw [decodeNode_low hinside hlow] at hnode
    split at hnode
    · rename_i hfits
      obtain ⟨rfl, rfl⟩ := Prod.mk.inj (Except.ok.inj hnode)
      rcases hrest with ⟨hlast, -⟩ | ⟨hnext, rest, hrun, rfl⟩
      · exact .last hfits hlow hlast
      · obtain ⟨first, others, rfl⟩ := decodeFrom_head hrun
        rw [List.map_cons, List.pairwise_cons] at hrising
        have hbehind : off < (off + u32 vec off) % 4294967296 := hrising.1 _ (by simp)
        have hnextlt : u32 vec off < 2 ^ 32 := fromLe_slice_lt vec off 4
        have hsum : (off + u32 vec off) % 4294967296 = off + u32 vec off := by omega
        have hchain := ih hrun hrising.2 (Nat.mod_lt _ (by omega)) (.inr (by omega))
        rw [hsum] at hchain
        exact .next hfits hlow hnext hchain
    · cases hnode

/-- **Change lists.**  The buffer of a reply is decoded inside itself, from front to back and to its
end, exactly if it is a chain. -/
theorem change_list_is_decoded_iff (rep : Reply) : Bounded rep.output ↔ Chain rep.output 0 := by
  constructor
  · intro h
    obtain ⟨calls, trace, hrun, hrising, -⟩ := h fullStack
    exact chain_of_decoded rep.short hrun hrising (by omega) (.inl rfl)
  · intro h stack
    obtain ⟨calls, trace, hrun, hrising, -, hrecords⟩ := h.decoded stack 0
    exact ⟨calls, trace, hrun, hrising, hrecords⟩

end

/-! ## Lists that are not -/

/-- A record whose name is said to be longer than the buffer. -/
def longNameReply : Reply := ⟨zeros 8 ++ le 4 2, by simp⟩

/-- Two records, the second of which leads back to the first. -/
def roundReply : Reply := ⟨le 4 16 ++ (zeros 12 ++ (le 4 0xfffffff0 ++ zeros 8)), by simp⟩

/-- A name is read behind the buffer, and a list that leads back is followed for ever. -/
theorem change_lists_are_not_bounded :
    ¬ Bounded longNameReply.output ∧ ¬ Bounded roundReply.output := by
  constructor
  · intro h
    obtain ⟨calls, trace, hrun, hrising, -⟩ := h fullStack
    have hlen : longNameReply.output.length = 12 := by simp [longNameReply]
    have hname : u32 longNameReply.output 8 = 2 := rfl
    cases chain_of_decoded longNameReply.short hrun hrising (by omega) (.inl rfl) with
    | past hlong _ => omega
    | last hfits _ _ =>
      rw [Nat.zero_add, Nat.zero_add, hname] at hfits
      omega
    | next hfits _ _ _ =>
      rw [Nat.zero_add, Nat.zero_add, hname] at hfits
      omega
  · intro h
    obtain ⟨calls, trace, hrun, hrising, -⟩ := h fullStack
    have hlen : roundReply.output.length = 28 := by simp [roundReply]
    have hfirst : u32 roundReply.output 0 = 16 := rfl
    have hsecond : u32 roundReply.output 16 = 0xfffffff0 := rfl
    cases chain_of_decoded roundReply.short hrun hrising (by omega) (.inl rfl) with
    | past hlong _ => omega
    | last _ _ hlast => omega
    | next _ _ _ hrest =>
      rw [hfirst, Nat.zero_add] at hrest
      cases hrest with
      | past hlong _ => omega
      | last _ _ hlast => omega
      | next _ _ _ hback =>
        rw [hsecond] at hback
        cases hback with
        | past _ hoff => omega
        | last _ hlow _ => omega
        | next _ hlow _ _ => omega

end Libsmb2.ChangeNotify
