import Libsmb2.Util.Bytes

/-!
# Windows on a buffer

A pointer into a buffer together with the length that a reader believes in.  The length is an
unsigned number of 64 bits that is counted down as the pointer moves on, and nothing keeps it from
being counted down past zero; a read stops the run if it leaves the buffer (`Overrun`).

* `Inside` — a run that stays inside its buffers, and `Inside.bind`, that it does so step by step;
* `Sound.get`, `Sound.read`, `Sound.skip` — a window whose length is not more than what is there is
  read inside the buffer, and stays one as long as it is not counted down past zero;
* `read_within`, `get_within`, `skip_within` — what is read of a piece of a buffer does not depend on
  what follows it.
-/

set_option autoImplicit false

namespace Libsmb2.Util

/-- An access outside a buffer. -/
inductive Overrun
  | read
  | write
  deriving DecidableEq, Repr

/-- The run does not leave its buffers. -/
def Inside {α : Type} (run : Except Overrun α) : Prop := ∃ a, run = .ok a

section
variable {α β : Type} {run : Except Overrun α}

theorem Inside.ok (a : α) : Inside (.ok a) := ⟨a, rfl⟩

theorem Inside.bind {f : α → Except Overrun β} (hrun : Inside run)
    (hf : ∀ a, run = .ok a → Inside (f a)) : Inside (run >>= f) := by
  obtain ⟨a, rfl⟩ := hrun
  exact hf a rfl

theorem Inside.map {f : α → β} (hrun : Inside run) : Inside (run.map f) := by
  obtain ⟨a, rfl⟩ := hrun
  exact ⟨f a, rfl⟩

theorem Inside.of_map {f : α → β} (h : Inside (run.map f)) : Inside run := by
  obtain ⟨b, hb⟩ := h
  cases run with
  | error e => cases hb
  | ok a => exact .ok a

theorem not_inside_error (e : Overrun) : ¬ Inside (.error e : Except Overrun α) := by
  rintro ⟨a, h⟩
  cases h

theorem inside_map_iff {f : α → β} : Inside (run.map f) ↔ Inside run := ⟨.of_map, .map⟩

theorem inside_bind_iff {f : α → Except Overrun β} :
    Inside (run >>= f) ↔ ∃ a, run = .ok a ∧ Inside (f a) := by
  constructor
  · intro h
    cases run with
    | error e => exact absurd h (not_inside_error e)
    | ok a => exact ⟨a, rfl, h⟩
  · rintro ⟨a, rfl, h⟩
    exact h

theorem not_inside_bind {f : α → Except Overrun β} (h : ¬ Inside run) : ¬ Inside (run >>= f) := by
  intro hbind
  obtain ⟨a, rfl, -⟩ := inside_bind_iff.mp hbind
  exact h (.ok a)

end

/-- Subtraction of `size_t`. -/
def sub64 (a b : Nat) : Nat := if b ≤ a then a - b else a + 2 ^ 64 - b

theorem sub64_of_le {a b : Nat} (h : b ≤ a) : sub64 a b = a - b := if_pos h

theorem sub64_of_lt {a b : Nat} (h : a < b) : sub64 a b = a + 2 ^ 64 - b := if_neg (by omega)

/-- The octets from a pointer to the end of its buffer, and the length that readers believe in. -/
structure Window where
  octets : Bytes
  len : Nat
  deriving DecidableEq, Repr

namespace Window

/-- A buffer and its length. -/
def whole (bs : Bytes) : Window := ⟨bs, bs.length⟩

/-- The length is not more than what is there. -/
def Sound (v : Window) : Prop := v.len ≤ v.octets.length

/-- `memcpy` out of the buffer. -/
def read (v : Window) (off n : Nat) : Except Overrun Bytes :=
  if n = 0 ∨ off + n ≤ v.octets.length then .ok (slice v.octets off n) else .error .read

/-- A little-endian field of `n` octets; one that does not fit the length stays what it was. -/
def get (v : Window) (n off old : Nat) : Except Overrun Nat :=
  if v.len < off + n then .ok old else (v.read off n).map fromLe

/-- `smb2_get_uint*`, whose offset is an `int`: the end of the field is computed as a `size_t`, and
so passes for one in the buffer if the field begins just before it. -/
def getAt (v : Window) (n : Nat) (offset : Int) (old : Nat) : Except Overrun Nat :=
  if v.len < ((offset + n) % 2 ^ 64).toNat then .ok old
  else if 0 ≤ offset then (v.read offset.toNat n).map fromLe
  else .error .read

/-- The pointer moves on and the length is counted down. -/
def skip (v : Window) (k : Nat) : Window := ⟨v.octets.drop k, sub64 v.len k⟩

@[simp] theorem skip_len (v : Window) (k : Nat) : (v.skip k).len = sub64 v.len k := rfl

@[simp] theorem skip_octets (v : Window) (k : Nat) : (v.skip k).octets = v.octets.drop k := rfl

@[simp] theorem whole_len (bs : Bytes) : (whole bs).len = bs.length := rfl

@[simp] theorem whole_octets (bs : Bytes) : (whole bs).octets = bs := rfl

theorem sound_whole (bs : Bytes) : (whole bs).Sound := Nat.le_refl _

section
variable {v : Window} {off n k : Nat}

theorem read_of_le (h : off + n ≤ v.octets.length) : v.read off n = .ok (slice v.octets off n) :=
  if_pos (.inr h)

theorem read_of_lt (hn : n ≠ 0) (h : v.octets.length < off + n) : v.read off n = .error .read := by
  refine if_neg ?_
  rintro (h0 | hle)
  · exact hn h0
  · omega

theorem inside_read_of_le (h : off + n ≤ v.octets.length) : Inside (v.read off n) :=
  ⟨_, read_of_le h⟩

/-- Octets that are there are read. -/
theorem read_of_slice {bs : Bytes} (h : slice v.octets off n = bs) (hlen : bs.length = n) :
    v.read off n = .ok bs := by
  have hle : n = 0 ∨ off + n ≤ v.octets.length := by
    rw [← h, length_slice] at hlen
    omega
  rw [← h]
  exact if_pos hle

theorem inside_read_zero : Inside (v.read off 0) := ⟨_, if_pos (.inl rfl)⟩

theorem inside_read_iff (hn : n ≠ 0) : Inside (v.read off n) ↔ off + n ≤ v.octets.length := by
  constructor
  · intro h
    by_contra hlong
    rw [read_of_lt hn (by omega)] at h
    exact not_inside_error _ h
  · exact inside_read_of_le

theorem get_of_le (hlen : off + n ≤ v.len) (h : off + n ≤ v.octets.length) (old : Nat) :
    v.get n off old = .ok (fromLe (slice v.octets off n)) := by
  unfold get
  rw [if_neg (by omega), read_of_le h]
  rfl

theorem get_of_lt (hlen : off + n ≤ v.len) (hn : n ≠ 0) (h : v.octets.length < off + n)
    (old : Nat) : v.get n off old = .error .read := by
  unfold get
  rw [if_neg (by omega), read_of_lt hn h]
  rfl

theorem skip_skip {j : Nat} (h : j + k ≤ v.len) : (v.skip j).skip k = v.skip (j + k) := by
  have hlen : sub64 (sub64 v.len j) k = sub64 v.len (j + k) := by
    rw [sub64_of_le (show j ≤ v.len by omega), sub64_of_le (by omega), sub64_of_le h, Nat.sub_sub]
  unfold skip
  simp only
  rw [hlen, List.drop_drop]

theorem get_short (hlen : v.len < off + n) (old : Nat) : v.get n off old = .ok old := if_pos hlen

/-- At an offset that is not negative it makes no difference that it is an `int`. -/
theorem getAt_natCast (h : off + n < 2 ^ 64) (old : Nat) : v.getAt n off old = v.get n off old := by
  have hstop : ((off : Int) + n) % 2 ^ 64 = (off + n : Nat) := by
    rw [Int.emod_eq_of_lt (by omega) (by omega)]
    omega
  unfold getAt get
  rw [hstop, Int.toNat_natCast, if_pos (Int.natCast_nonneg off), Int.toNat_natCast]

/-- Far before the buffer nothing is read. -/
theorem getAt_far {offset : Int} (hlow : - 2 ^ 62 ≤ offset) (hfar : offset + n < 0)
    (hlen : v.len < 2 ^ 63) (old : Nat) : v.getAt n offset old = .ok old := by
  have hstop : (offset + n) % 2 ^ 64 = offset + n + 2 ^ 64 := by
    rw [← Int.add_emod_right, Int.emod_eq_of_lt (by omega) (by omega)]
  unfold getAt
  rw [hstop, if_pos (by omega)]

/-- Just before the buffer the end of the field is in it. -/
theorem getAt_before {offset : Int} (hneg : offset < 0) (hnear : 0 ≤ offset + n)
    (hlen : offset + n ≤ v.len) (hsize : v.len < 2 ^ 63) (old : Nat) :
    v.getAt n offset old = .error .read := by
  have hstop : (offset + n) % 2 ^ 64 = offset + n := Int.emod_eq_of_lt hnear (by omega)
  unfold getAt
  rw [hstop, if_neg (by omega), if_neg (by omega)]

/-! ## Sound windows -/

theorem Sound.read (hv : v.Sound) (h : off + n ≤ v.len) : Inside (v.read off n) :=
  ⟨_, read_of_le (Nat.le_trans h hv)⟩

theorem Sound.get (hv : v.Sound) (n off old : Nat) : Inside (v.get n off old) := by
  by_cases hlen : off + n ≤ v.len
  · exact ⟨_, get_of_le hlen (Nat.le_trans hlen hv) old⟩
  · exact ⟨old, get_short (by omega) old⟩

theorem Sound.skip (hv : v.Sound) (h : k ≤ v.len) : (v.skip k).Sound := by
  have hlen : (v.skip k).len = v.len - k := sub64_of_le h
  have hoctets : (v.skip k).octets.length = v.octets.length - k := List.length_drop
  unfold Sound at *
  omega

/-! ## What follows a piece -/

/-- A piece of a buffer, with the next `k` octets of what follows it. -/
def within (x t : Bytes) (k : Nat) : Window := ⟨x ++ t, x.length + k⟩

variable {x t : Bytes}

theorem within_append (x y t : Bytes) (k : Nat) :
    within (x ++ y) t k = within x (y ++ t) (y.length + k) := by
  unfold within
  rw [List.append_assoc, List.length_append, Nat.add_assoc]

theorem read_within (h : off + n ≤ x.length) : (within x t k).read off n = .ok (slice x off n) := by
  have hin : off + n ≤ (within x t k).octets.length := by
    have hlength : (within x t k).octets.length = x.length + t.length := List.length_append
    omega
  rw [read_of_le hin]
  exact congrArg Except.ok (slice_append_left h)

theorem get_within (h : off + n ≤ x.length) (old : Nat) :
    (within x t k).get n off old = .ok (fromLe (slice x off n)) := by
  have hlen : (within x t k).len = x.length + k := rfl
  unfold get
  rw [if_neg (by omega), read_within h]
  rfl

theorem skip_within {j : Nat} (h : j ≤ x.length) :
    (within x t k).skip j = within (x.drop j) t k := by
  have hlen : sub64 (x.length + k) j = (x.drop j).length + k := by
    rw [sub64_of_le (by omega), List.length_drop]
    omega
  unfold within skip
  simp only
  rw [hlen, List.drop_append_of_le_length h]

/-- All of the window is read. -/
theorem read_all_within (h : k ≤ t.length) :
    (within x t k).read 0 (within x t k).len = .ok (x ++ t.take k) := by
  have hlen : (within x t k).len = x.length + k := rfl
  have hoctets : (within x t k).octets = x ++ t := rfl
  rw [read_of_le (by rw [hlen, hoctets, List.length_append]; omega), hlen, hoctets, slice,
    List.drop_zero, List.take_length_add_append]

end

end Window

end Libsmb2.Util
