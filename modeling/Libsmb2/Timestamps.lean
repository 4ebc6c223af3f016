import Libsmb2.Directory

/-!
# Times on the wire

`timestamps.c`: a Windows time counts tenths of microseconds from 1601, a `struct smb2_timeval` has
seconds from 1970 and microseconds.

* `conversions_inverse_iff` — the conversions are inverse from 1970 on, and only there.
-/

set_option autoImplicit false

namespace Libsmb2

/-- The Windows time of the first of January 1970. -/
def UNIX_EPOCH : Nat := 116444736000000000

/-- A Windows time is what its conversion says, but for the last digit, and is converted back. -/
structure ConversionsInverse (t : Nat) : Prop where
  usec : 0 ≤ (winToTimeval t).usec ∧ (winToTimeval t).usec ≤ 999999
  total : (t : Int) - t % 10 =
    10000000 * (winToTimeval t).sec + 10 * (winToTimeval t).usec + 116444736000000000
  back : timevalToWin (winToTimeval t) = t - t % 10

section
variable {t : Nat}

theorem unixSeconds_of_le (h : UNIX_EPOCH ≤ t) (hlt : t < 2 ^ 64) :
    unixSeconds t = (t - UNIX_EPOCH) / 10000000 := by
  unfold unixSeconds UNIX_EPOCH at *
  omega

/-- Before 1970 the difference wraps around, and the seconds are those of a time that far ahead. -/
theorem unixSeconds_of_lt (h : t < UNIX_EPOCH) :
    unixSeconds t = (t + 2 ^ 64 - UNIX_EPOCH) / 10000000 := by
  unfold unixSeconds UNIX_EPOCH at *
  omega

theorem unixMicros_lt (t : Nat) : unixMicros t < 1000000 := Nat.mod_lt _ (by decide)

/-- The seconds and the microseconds of a time from 1970 on. -/
theorem seconds_micros (h : UNIX_EPOCH ≤ t) (hlt : t < 2 ^ 64) :
    10000000 * unixSeconds t + 10 * unixMicros t + UNIX_EPOCH = t - t % 10 := by
  rw [unixSeconds_of_le h hlt]
  unfold unixMicros UNIX_EPOCH at *
  omega

/-- Two multiples of ten are not 2^64 apart. -/
theorem not_ten_apart {n q : Nat} (hq : q = 1) (h : 2 ^ 64 * q + (t - t % 10) = 10 * n) :
    False := by
  subst hq
  have hten : t - t % 10 = 10 * (t / 10) := by omega
  rw [hten] at h
  omega

/-- A sum that wraps around has another last digit. -/
theorem wrapped_sum_ne {sec usec d : Nat} (hle : 10000000 * sec ≤ d)
    (hd : d + UNIX_EPOCH = t + 2 ^ 64) (hlt : d < 10000000 * sec + 10000000)
    (husec : usec < 1000000) (h : t < UNIX_EPOCH) :
    (10000000 * sec + 10 * usec + UNIX_EPOCH) % 2 ^ 64 ≠ t - t % 10 := by
  intro hsame
  have hsum := Nat.div_add_mod (10000000 * sec + 10 * usec + UNIX_EPOCH) (2 ^ 64)
  have hten : 10000000 * sec + 10 * usec + UNIX_EPOCH =
      10 * (1000000 * sec + usec + 11644473600000000) := by
    unfold UNIX_EPOCH
    omega
  have hdigit : t - t % 10 ≤ t := Nat.sub_le _ _
  rw [hsame] at hsum
  generalize (10000000 * sec + 10 * usec + UNIX_EPOCH) / 2 ^ 64 = q at hsum
  refine not_ten_apart ?_ (hsum.trans hten)
  clear hten hsame
  generalize t - t % 10 = r at *
  unfold UNIX_EPOCH at *
  omega

/-- Before 1970 they are those of another time, which is not converted back. -/
theorem seconds_micros_before (h : t < UNIX_EPOCH) :
    (10000000 * unixSeconds t + 10 * unixMicros t + UNIX_EPOCH) % 2 ^ 64 ≠ t - t % 10 := by
  have hdiff : t + 2 ^ 64 - UNIX_EPOCH + UNIX_EPOCH = t + 2 ^ 64 :=
    Nat.sub_add_cancel (by unfold UNIX_EPOCH; omega)
  have hmicros := unixMicros_lt t
  rw [unixSeconds_of_lt h]
  generalize t + 2 ^ 64 - UNIX_EPOCH = d at hdiff ⊢
  have hle := Nat.mul_div_le d 10000000
  have hlt := Nat.lt_mul_div_succ d (show 0 < 10000000 by decide)
  rw [Nat.mul_succ] at hlt
  exact wrapped_sum_ne hle hdiff hlt hmicros h

theorem timevalToWin_winToTimeval (t : Nat) : timevalToWin (winToTimeval t) =
    (10000000 * unixSeconds t + 10 * unixMicros t + UNIX_EPOCH) % 2 ^ 64 := by
  have htotal : (unixSeconds t : Int) * 10000000 + 116444736000000000 + unixMicros t * 10 =
      (10000000 * unixSeconds t + 10 * unixMicros t + UNIX_EPOCH : Nat) := by
    unfold UNIX_EPOCH
    push_cast
    ring
  unfold timevalToWin winToTimeval
  dsimp only
  rw [htotal]
  exact Int.toNat_natCast _

/-- **The conversions of times are inverse** exactly from 1970 on. -/
theorem conversions_inverse_iff (hlt : t < 2 ^ 63) :
    ConversionsInverse t ↔ 116444736000000000 ≤ t := by
  have hmicros := unixMicros_lt t
  constructor
  · intro h
    by_contra hearly
    exact seconds_micros_before (Nat.lt_of_not_le hearly)
      ((timevalToWin_winToTimeval t).symm.trans h.back)
  · intro h
    have htotal := seconds_micros h (by omega)
    refine ⟨⟨?_, ?_⟩, ?_, ?_⟩
    · exact Int.natCast_nonneg _
    · show ((unixMicros t : Nat) : Int) ≤ 999999
      omega
    · show (t : Int) - t % 10 = 10000000 * (unixSeconds t : Nat) + 10 * (unixMicros t : Nat) + _
      unfold UNIX_EPOCH at htotal
      omega
    · rw [timevalToWin_winToTimeval, htotal, Nat.mod_eq_of_lt (by omega)]

end

/-- The first of July 2019. -/
theorem conversions_inverse_in_2019 : ConversionsInverse 132064128000000000 :=
  (conversions_inverse_iff (by decide)).mpr (by decide)

/-- The last second of 1969. -/
theorem year_1969_is_not_converted : ¬ ConversionsInverse 116444735990000000 :=
  fun h => absurd h.back (by decide)

end Libsmb2
