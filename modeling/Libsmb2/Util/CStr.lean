import Libsmb2.Util.Window

/-!
# Strings in a buffer

A string is what stands at a pointer up to the next zero.  `strchr` looks for an octet in it, and
writing a zero over what it has found cuts the string in two.  A string without a zero behind it in
its buffer is an access outside the buffer.

* `StandsAt` — a string stands at a pointer, and `StandsAt.stringAt`, `StandsAt.strchr_eq`, what is
  read of it;
* `split` — a string before and behind the first octet of a kind;
* `StandsAt.cutAt_some` — the same in a buffer, where nothing else changes.
-/

set_option autoImplicit false

namespace Libsmb2.Util.CStr

/-! ## Reading -/

/-- The octet at a pointer. -/
def byteAt (buf : Bytes) (p : Nat) : Except Overrun UInt8 :=
  match buf[p]? with
  | none => .error .read
  | some b => .ok b

/-- What comes before the first zero. -/
def untilZero : Bytes → Except Overrun Bytes
  | [] => .error .read
  | b :: bs => if b = 0 then .ok [] else (untilZero bs).map (b :: ·)

/-- The string at a pointer. -/
def stringAt (buf : Bytes) (p : Nat) : Except Overrun Bytes := untilZero (buf.drop p)

/-- The first octet of a kind, if it comes before the first zero. -/
def find (c : UInt8) : Bytes → Nat → Except Overrun (Option Nat)
  | [], _ => .error .read
  | b :: bs, p =>
    if b = c then .ok (some p) else if b = 0 then .ok none else find c bs (p + 1)

/-- `strchr`. -/
def strchr (buf : Bytes) (p : Nat) (c : UInt8) : Except Overrun (Option Nat) :=
  find c (buf.drop p) p

/-- A zero in place of the first octet of a kind, and the pointer behind it. -/
def cutAt (buf : Bytes) (p : Nat) (c : UInt8) : Except Overrun (Bytes × Option Nat) :=
  (strchr buf p c).map fun
    | none => (buf, none)
    | some q => (buf.set q 0, some (q + 1))

/-- A string before and behind the first octet of a kind. -/
def split (c : UInt8) : Bytes → Option (Bytes × Bytes)
  | [] => none
  | b :: bs => if b = c then some ([], bs) else (split c bs).map fun s => (b :: s.1, s.2)

/-! ## Splitting -/

section
variable {c : UInt8} {s a b : Bytes}

theorem split_eq_none (h : split c s = none) : c ∉ s := by
  induction s with
  | nil => exact List.not_mem_nil
  | cons x s ih =>
    unfold split at h
    split at h
    · cases h
    · rename_i hne
      intro hmem
      rcases List.mem_cons.mp hmem with rfl | hmem
      · exact hne rfl
      · exact ih (Option.map_eq_none_iff.mp h) hmem

theorem split_eq_some (h : split c s = some (a, b)) : s = a ++ c :: b ∧ c ∉ a := by
  induction s generalizing a with
  | nil => cases h
  | cons x s ih =>
    unfold split at h
    split at h
    · rename_i heq
      cases h
      rw [heq]
      exact ⟨rfl, List.not_mem_nil⟩
    · rename_i hne
      obtain ⟨⟨a', b'⟩, hsplit, hpair⟩ := Option.map_eq_some_iff.mp h
      cases hpair
      obtain ⟨hs, hmem⟩ := ih hsplit
      refine ⟨by rw [hs]; rfl, fun hin => ?_⟩
      rcases List.mem_cons.mp hin with rfl | hin
      · exact hne rfl
      · exact hmem hin

theorem split_append (h : c ∉ a) : split c (a ++ c :: b) = some (a, b) := by
  induction a with
  | nil => simp [split]
  | cons x a ih =>
    have hne : ¬ x = c := fun heq => h (heq ▸ List.mem_cons_self)
    have hrest := ih fun hmem => h (List.mem_cons_of_mem x hmem)
    rw [List.cons_append, split, if_neg hne, hrest]
    rfl

theorem split_of_not_mem (h : c ∉ s) : split c s = none := by
  cases hs : split c s with
  | none => rfl
  | some r =>
    have hmem := (split_eq_some hs).1
    refine absurd ?_ h
    rw [hmem]
    simp

end

/-! ## Strings at a pointer -/

/-- The string stands at the pointer. -/
structure StandsAt (buf : Bytes) (p : Nat) (s : Bytes) : Prop where
  noZero : 0 ∉ s
  stands : ∃ rest, buf.drop p = s ++ 0 :: rest

section
variable {buf buf' s a b : Bytes} {p q : Nat} {c : UInt8}

theorem untilZero_append (h : 0 ∉ s) (rest : Bytes) : untilZero (s ++ 0 :: rest) = .ok s := by
  induction s with
  | nil => rfl
  | cons x s ih =>
    have hne : ¬ x = 0 := fun heq => h (heq ▸ List.mem_cons_self)
    have hrest := ih fun hmem => h (List.mem_cons_of_mem x hmem)
    rw [List.cons_append, untilZero, if_neg hne, hrest]
    rfl

theorem find_append (hc : c ≠ 0) (h : 0 ∉ s) (rest : Bytes) (p : Nat) :
    find c (s ++ 0 :: rest) p = .ok ((split c s).map fun r => p + r.1.length) := by
  induction s generalizing p with
  | nil => simp [find, split, hc.symm]
  | cons x s ih =>
    have hne : ¬ x = 0 := fun heq => h (heq ▸ List.mem_cons_self)
    have hrest := ih (fun hmem => h (List.mem_cons_of_mem x hmem)) (p + 1)
    rw [List.cons_append, find, split]
    split
    · rfl
    · rw [hrest]
      cases split c s with
      | none => rfl
      | some r =>
        simp only [Option.map_some, List.length_cons]
        congr 2
        omega

theorem StandsAt.length_lt (h : StandsAt buf p s) : p + s.length < buf.length := by
  obtain ⟨rest, hrest⟩ := h.stands
  have hlen := congrArg List.length hrest
  rw [List.length_drop, List.length_append, List.length_cons] at hlen
  omega

theorem StandsAt.stringAt (h : StandsAt buf p s) : stringAt buf p = .ok s := by
  obtain ⟨rest, hrest⟩ := h.stands
  rw [CStr.stringAt, hrest, untilZero_append h.noZero]

theorem StandsAt.byteAt (h : StandsAt buf p s) : byteAt buf p = .ok (s.headD 0) := by
  obtain ⟨rest, hrest⟩ := h.stands
  have hget : buf[p]? = (buf.drop p)[0]? := by rw [List.getElem?_drop]; rfl
  rw [CStr.byteAt, hget, hrest]
  cases s <;> rfl

theorem StandsAt.strchr_eq (h : StandsAt buf p s) (hc : c ≠ 0) :
    strchr buf p c = .ok ((split c s).map fun r => p + r.1.length) := by
  obtain ⟨rest, hrest⟩ := h.stands
  rw [strchr, hrest, find_append hc h.noZero]

/-- The string behind an octet of another. -/
theorem StandsAt.behind (h : StandsAt buf p (a ++ s)) : StandsAt buf (p + a.length) s := by
  obtain ⟨rest, hrest⟩ := h.stands
  refine ⟨fun hmem => h.noZero (List.mem_append_right a hmem), rest, ?_⟩
  rw [← List.drop_drop, hrest, List.append_assoc, List.drop_left]

/-- A string that ends before the first change. -/
theorem StandsAt.of_take (h : StandsAt buf p s) (hsame : buf'.take q = buf.take q)
    (hin : p + s.length < q) : StandsAt buf' p s := by
  obtain ⟨rest, hrest⟩ := h.stands
  have hpre : (buf'.drop p).take (s.length + 1) = s ++ [0] := by
    have hq : ∀ l : Bytes, (l.drop p).take (s.length + 1) =
        ((l.take q).drop p).take (s.length + 1) := by
      intro l
      rw [List.drop_take, List.take_take, Nat.min_eq_left (by omega)]
    rw [hq, hsame, ← hq, hrest, List.take_append]
    simp
  refine ⟨h.noZero, (buf'.drop p).drop (s.length + 1), ?_⟩
  rw [← List.singleton_append, ← List.append_assoc, ← hpre, List.take_append_drop]

/-- A string in what has not changed. -/
theorem StandsAt.of_drop (h : StandsAt buf p s) (hsame : buf'.drop p = buf.drop p) :
    StandsAt buf' p s := by
  obtain ⟨rest, hrest⟩ := h.stands
  exact ⟨h.noZero, rest, hsame.trans hrest⟩

/-- What a cut has made of a string. -/
structure Parted (buf : Bytes) (p : Nat) (a b buf' : Bytes) : Prop where
  before : StandsAt buf' p a
  behind : StandsAt buf' (p + a.length + 1) b
  take_eq : buf'.take p = buf.take p
  drop_eq : buf'.drop (p + a.length + 1) = buf.drop (p + a.length + 1)

/-- A zero in a string cuts it in two. -/
theorem StandsAt.set (h : StandsAt buf p (a ++ c :: b)) :
    Parted buf p a b (buf.set (p + a.length) 0) := by
  obtain ⟨rest, hrest⟩ := h.stands
  have hdrop : (buf.set (p + a.length) 0).drop p = a ++ 0 :: (b ++ 0 :: rest) := by
    rw [List.drop_set, if_neg (by omega), Nat.add_sub_cancel_left, hrest, List.append_assoc,
      List.set_append_right a.length 0 (Nat.le_refl _)]
    simp
  refine ⟨⟨fun hmem => h.noZero (List.mem_append_left _ hmem), _, hdrop⟩,
    ⟨fun hmem => h.noZero (List.mem_append_right a (List.mem_cons_of_mem c hmem)), rest, ?_⟩,
    ?_, ?_⟩
  · rw [Nat.add_assoc, ← List.drop_drop, hdrop, List.drop_append]
    simp
  · exact List.take_set_of_le (by omega)
  · rw [List.drop_set, if_pos (by omega)]

theorem StandsAt.cutAt_none (h : StandsAt buf p s) (hc : c ≠ 0) (hs : split c s = none) :
    cutAt buf p c = .ok (buf, none) := by
  rw [CStr.cutAt, h.strchr_eq hc, hs]
  rfl

/-- **A string is cut** at the first octet of a kind. -/
theorem StandsAt.cutAt_some (h : StandsAt buf p s) (hc : c ≠ 0) (hs : split c s = some (a, b)) :
    cutAt buf p c = .ok (buf.set (p + a.length) 0, some (p + a.length + 1)) ∧
      Parted buf p a b (buf.set (p + a.length) 0) := by
  refine ⟨by rw [CStr.cutAt, h.strchr_eq hc, hs]; rfl, ?_⟩
  rw [(split_eq_some hs).1] at h
  exact h.set

end

end Libsmb2.Util.CStr
