import Libsmb2.Errors
import Mathlib.Tactic

/-!
# Seeking

`smb2_lseek` on one file handle.  Its sums are additions of `int64_t`; what an addition that
overflows yields is left open by C, and is a parameter here (`overflow`).

* `lseek_atomic_iff` — a call stores and returns the exact position, or fails and changes
  nothing, exactly if `Exact` holds for it, and a run of such calls leaves the handle at the
  position of the last successful one;
* `failed_seek_moves_the_handle` — a seek before the start of the file, from its end.
-/

set_option autoImplicit false

namespace Libsmb2.Seek

def SEEK_SET : Int := 0
def SEEK_CUR : Int := 1
def SEEK_END : Int := 2

/-- A position in a file: what an `int64_t` holds that is not negative. -/
def Position (n : Int) : Prop := 0 ≤ n ∧ n < 9223372036854775808

instance (n : Int) : Decidable (Position n) := inferInstanceAs (Decidable (_ ∧ _))

/-- The part of `struct smb2fh` that a seek uses. -/
structure Smb2fh where
  offset : Int
  endOfFile : Int
  deriving DecidableEq, Repr

/-- The arguments of a call; `currentOffset` says whether that pointer is given. -/
structure Call where
  offset : Int
  whence : Int
  currentOffset : Bool := false
  lower : -9223372036854775808 ≤ offset
  upper : offset < 9223372036854775808

/-- The handle, the returned value, what is stored through `current_offset`, and the text of the
error. -/
structure Outcome where
  fh : Smb2fh
  ret : Int
  current : Option Int := none
  error : Option String := none
  deriving DecidableEq, Repr

/-- An addition of two values of `int64_t`. -/
def add64 (overflow : Int → Int → Int) (a b : Int) : Int :=
  if -9223372036854775808 ≤ a + b ∧ a + b < 9223372036854775808 then a + b else overflow a b

/-- A seek fails and leaves the handle as it is given. -/
def refuse (fh : Smb2fh) (error : String) : Outcome := { fh, ret := -EINVAL, error }

/-- The end of a successful seek: the new offset is stored, and read back for the caller. -/
def moveTo (fh : Smb2fh) (c : Call) (offset : Int) : Outcome :=
  { fh := { fh with offset }
    ret := offset
    current := if c.currentOffset then some offset else none }

/-- `smb2_lseek`. -/
def lseek (overflow : Int → Int → Int) (fh : Smb2fh) (c : Call) : Outcome :=
  if c.whence = SEEK_SET then
    if c.offset < 0 then refuse fh "Lseek() offset would becomenegative"
    else moveTo fh c c.offset
  else if c.whence = SEEK_CUR then
    if add64 overflow fh.offset c.offset < 0 then refuse fh "Lseek() offset would becomenegative"
    else moveTo fh c (add64 overflow fh.offset c.offset)
  else if c.whence = SEEK_END then
    -- the offset is overwritten before the sum is checked
    let fh := { fh with offset := fh.endOfFile }
    if add64 overflow fh.offset c.offset < 0 then refuse fh "Lseek() offset would becomenegative"
    else moveTo fh c (add64 overflow fh.offset c.offset)
  else refuse fh s!"Invalid whence({c.whence}) for lseek"

/-- What the offset of a call counts from. -/
def base (fh : Smb2fh) (c : Call) : Option Int :=
  if c.whence = SEEK_SET then some 0
  else if c.whence = SEEK_CUR then some fh.offset
  else if c.whence = SEEK_END then some fh.endOfFile
  else none

/-- The call stores and returns the exact new position, or fails and moves nothing. -/
def Atomic (fh : Smb2fh) (c : Call) (x : Outcome) : Prop :=
  (∃ b, base fh c = some b ∧ Position (b + c.offset) ∧ x.ret = b + c.offset ∧
    x.fh.offset = b + c.offset) ∨
  (x.ret < 0 ∧ x.fh.offset = fh.offset)

/-- The sum of a seek from the offset does not overflow, or is taken for a negative one; that of
a seek from the end is a position, or the handle is there already and the sum is negative, or
taken for it. -/
def Exact (overflow : Int → Int → Int) (fh : Smb2fh) (c : Call) : Prop :=
  (c.whence = SEEK_CUR →
    fh.offset + c.offset < 9223372036854775808 ∨ overflow fh.offset c.offset < 0) ∧
  (c.whence = SEEK_END →
    Position (fh.endOfFile + c.offset) ∨
      fh.offset = fh.endOfFile ∧ add64 overflow fh.endOfFile c.offset < 0)

def run (overflow : Int → Int → Int) (fh : Smb2fh) (calls : List Call) : Smb2fh :=
  calls.foldl (fun fh c => (lseek overflow fh c).fh) fh

/-- Every call of a run is made where it is exact. -/
def RunExact (overflow : Int → Int → Int) : Smb2fh → List Call → Prop
  | _, [] => True
  | fh, c :: calls => Exact overflow fh c ∧ RunExact overflow (lseek overflow fh c).fh calls

/-- The position that the last successful call of a run returned, or `last` if there is none. -/
def lastSought (overflow : Int → Int → Int) : Smb2fh → Int → List Call → Int
  | _, last, [] => last
  | fh, last, c :: calls =>
    let x := lseek overflow fh c
    lastSought overflow x.fh (if 0 ≤ x.ret then x.ret else last) calls

section
variable (overflow : Int → Int → Int)

theorem add64_of_position {a b : Int} (h : Position (a + b)) : add64 overflow a b = a + b :=
  if_pos ⟨by have := h.1; omega, h.2⟩

/-- A sum that overflows is too large: one of its parts is a position. -/
theorem add64_of_small {a b : Int} (ha : 0 ≤ a) (hb : -9223372036854775808 ≤ b)
    (h : a + b < 9223372036854775808) : add64 overflow a b = a + b :=
  if_pos ⟨by omega, h⟩

theorem add64_of_large {a b : Int} (h : 9223372036854775808 ≤ a + b) :
    add64 overflow a b = overflow a b :=
  if_neg (by omega)

theorem refuse_ret (fh : Smb2fh) (error : String) : (refuse fh error).ret < 0 := by
  show -EINVAL < 0
  decide

theorem refuse_atomic (fh : Smb2fh) (c : Call) (error : String) :
    Atomic fh c (refuse fh error) :=
  Or.inr ⟨refuse_ret fh error, rfl⟩

variable {fh fh' : Smb2fh}

theorem moveTo_atomic {c : Call} {b : Int} (hb : base fh c = some b)
    (h : Position (b + c.offset)) : Atomic fh c (moveTo fh' c (b + c.offset)) :=
  Or.inl ⟨b, hb, h, rfl, rfl⟩

/-- A seek that yields anything but the exact position is not atomic. -/
theorem moveTo_not_atomic {c : Call} {b n : Int} (hb : base fh c = some b)
    (h : ¬ Position (b + c.offset)) (hn : 0 ≤ n) : ¬ Atomic fh c (moveTo fh' c n) := by
  rintro (⟨b', hb', hpos, _⟩ | ⟨hneg, _⟩)
  · rw [hb] at hb'
    cases hb'
    exact h hpos
  · have hret : n < 0 := hneg
    omega

theorem lseek_set_atomic {c : Call} (hw : c.whence = SEEK_SET) :
    Atomic fh c (lseek overflow fh c) := by
  rw [lseek, if_pos hw]
  split
  · exact refuse_atomic fh c _
  · rename_i hneg
    have hpos : Position (0 + c.offset) := ⟨by omega, by have := c.upper; omega⟩
    have hbase : base fh c = some 0 := if_pos hw
    have hmove : Atomic fh c (moveTo fh c (0 + c.offset)) := moveTo_atomic hbase hpos
    rwa [Int.zero_add] at hmove

theorem lseek_cur_atomic_iff {c : Call} (hfh : Position fh.offset)
    (hw : c.whence = SEEK_CUR) :
    Atomic fh c (lseek overflow fh c) ↔
      fh.offset + c.offset < 9223372036854775808 ∨ overflow fh.offset c.offset < 0 := by
  have hset : c.whence ≠ SEEK_SET := by rw [hw]; decide
  have hbase : base fh c = some fh.offset := by rw [base, if_neg hset, if_pos hw]
  rw [lseek, if_neg hset, if_pos hw]
  by_cases hsmall : fh.offset + c.offset < 9223372036854775808
  · rw [add64_of_small overflow hfh.1 c.lower hsmall]
    refine iff_of_true ?_ (Or.inl hsmall)
    split
    · exact refuse_atomic fh c _
    · rename_i hneg
      exact moveTo_atomic hbase ⟨by omega, hsmall⟩
  · rw [add64_of_large overflow (by omega)]
    split
    · rename_i hneg
      exact iff_of_true (refuse_atomic fh c _) (Or.inr hneg)
    · rename_i hneg
      refine iff_of_false (moveTo_not_atomic hbase ?_ (by omega)) (by omega)
      intro h
      exact hsmall h.2

theorem lseek_end_atomic_iff {c : Call} (hw : c.whence = SEEK_END) :
    Atomic fh c (lseek overflow fh c) ↔
      Position (fh.endOfFile + c.offset) ∨
        fh.offset = fh.endOfFile ∧ add64 overflow fh.endOfFile c.offset < 0 := by
  have hset : c.whence ≠ SEEK_SET := by rw [hw]; decide
  have hcur : c.whence ≠ SEEK_CUR := by rw [hw]; decide
  have hbase : base fh c = some fh.endOfFile := by
    rw [base, if_neg hset, if_neg hcur, if_pos hw]
  rw [lseek, if_neg hset, if_neg hcur, if_pos hw]
  by_cases hpos : Position (fh.endOfFile + c.offset)
  · have hnot : ¬ fh.endOfFile + c.offset < 0 := by have := hpos.1; omega
    simp only [add64_of_position overflow hpos, if_neg hnot]
    exact iff_of_true (moveTo_atomic hbase hpos) (Or.inl hpos)
  · simp only [hpos, false_or]
    split
    · -- the error leaves the handle at the end of the file
      rename_i hneg
      constructor
      · rintro (⟨b, hb, hposb, _⟩ | ⟨_, hsame⟩)
        · rw [hbase] at hb
          cases hb
          exact absurd hposb hpos
        · exact ⟨hsame.symm, hneg⟩
      · intro h
        exact Or.inr ⟨refuse_ret _ _, h.1.symm⟩
    · rename_i hneg
      exact iff_of_false (moveTo_not_atomic hbase hpos (by omega)) (fun h => hneg h.2)

theorem lseek_iff (hfh : Position fh.offset) (c : Call) :
    Atomic fh c (lseek overflow fh c) ↔ Exact overflow fh c := by
  unfold Exact
  by_cases hset : c.whence = SEEK_SET
  · have hcur : c.whence ≠ SEEK_CUR := by rw [hset]; decide
    have hend : c.whence ≠ SEEK_END := by rw [hset]; decide
    exact iff_of_true (lseek_set_atomic overflow hset)
      ⟨fun h => absurd h hcur, fun h => absurd h hend⟩
  by_cases hcur : c.whence = SEEK_CUR
  · have hend : c.whence ≠ SEEK_END := by rw [hcur]; decide
    rw [lseek_cur_atomic_iff overflow hfh hcur]
    simp [hcur, SEEK_CUR, SEEK_END]
  by_cases hend : c.whence = SEEK_END
  · rw [lseek_end_atomic_iff overflow hend]
    simp [hend, SEEK_CUR, SEEK_END]
  · rw [lseek, if_neg hset, if_neg hcur, if_neg hend]
    exact iff_of_true (refuse_atomic fh c _) ⟨fun h => absurd h hcur, fun h => absurd h hend⟩

/-- An atomic call leaves the handle at a position: the one that it returns, or the one
before. -/
theorem Atomic.sought {c : Call} {x : Outcome} (h : Atomic fh c x)
    (hfh : Position fh.offset) :
    x.fh.offset = (if 0 ≤ x.ret then x.ret else fh.offset) ∧ Position x.fh.offset := by
  rcases h with ⟨b, _, hpos, hret, hoff⟩ | ⟨hneg, hoff⟩
  · rw [hret, hoff, if_pos hpos.1]
    exact ⟨rfl, hpos⟩
  · rw [hoff, if_neg (by omega)]
    exact ⟨rfl, hfh⟩

theorem run_sought (hfh : Position fh.offset) {calls : List Call}
    (h : RunExact overflow fh calls) :
    (run overflow fh calls).offset = lastSought overflow fh fh.offset calls ∧
      Position (run overflow fh calls).offset := by
  induction calls generalizing fh with
  | nil => exact ⟨rfl, hfh⟩
  | cons c calls ih =>
    have hatomic := (lseek_iff overflow hfh c).mpr h.1
    obtain ⟨hoff, hpos⟩ := hatomic.sought hfh
    have hrest := ih hpos h.2
    rw [hoff] at hrest
    exact hrest

/-- **A seek is atomic and exact exactly if `Exact` holds, and a run of such seeks leaves the
handle at the position of the last successful one, which is not negative.** -/
theorem lseek_atomic_iff (fh : Smb2fh) (hfh : Position fh.offset) :
    (∀ c, Atomic fh c (lseek overflow fh c) ↔ Exact overflow fh c) ∧
      ∀ calls, RunExact overflow fh calls →
        (run overflow fh calls).offset = lastSought overflow fh fh.offset calls ∧
          0 ≤ (run overflow fh calls).offset := by
  refine ⟨lseek_iff overflow hfh, ?_⟩
  intro calls hcalls
  obtain ⟨hlast, hpos⟩ := run_sought overflow hfh hcalls
  exact ⟨hlast, hpos.1⟩

end

/-- The sums of two's complement machines. -/
def wrapped (a b : Int) : Int :=
  (a + b + 9223372036854775808) % 18446744073709551616 - 9223372036854775808

/-- A seek before the start of the file is refused, and one from the end of the file is not. -/
def twoSeeks : List Call :=
  [⟨-5, SEEK_CUR, false, by decide, by decide⟩, ⟨-10, SEEK_END, false, by decide, by decide⟩]

theorem lseek_atomic_two :
    (run wrapped ⟨3, 100⟩ twoSeeks).offset = 90 ∧
      lastSought wrapped ⟨3, 100⟩ 3 twoSeeks = 90 := by
  have h := ((lseek_atomic_iff wrapped ⟨3, 100⟩ (by decide)).2 twoSeeks (by
    refine ⟨⟨?_, ?_⟩, ⟨?_, ?_⟩, trivial⟩
    · intro _
      exact Or.inl (by decide)
    · intro h
      exact absurd h (by decide)
    · intro h
      exact absurd h (by decide)
    · intro _
      exact Or.inl (by decide))).1
  have hlast : lastSought wrapped ⟨3, 100⟩ 3 twoSeeks = 90 := by decide
  exact ⟨h.trans hlast, hlast⟩

/-- To twenty octets before the start of a file of ten octets. -/
def earlySeek : Call := ⟨-30, SEEK_END, false, by decide, by decide⟩

/-- The seek fails, and the handle that was at 3 is at 10. -/
theorem failed_seek_moves_the_handle :
    (Position 3 ∧ Position 10) ∧ ¬ Atomic ⟨3, 10⟩ earlySeek (lseek wrapped ⟨3, 10⟩ earlySeek) := by
  refine ⟨⟨by decide, by decide⟩, fun hbad => ?_⟩
  rcases hbad with ⟨b, hb, _, hret, _⟩ | ⟨_, hsame⟩
  · have hb' : some 10 = some b := hb
    cases hb'
    exact absurd hret (by decide)
  · exact absurd hsame (by decide)

end Libsmb2.Seek
