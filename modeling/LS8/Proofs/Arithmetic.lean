import Mathlib
import LS8.Arithmetic

/-!
# Arithmetic on natural numbers

The operations on bytes, described by what they do to the natural numbers that
the bytes stand for.  Shifting is multiplying or dividing by a power of two,
whatever the count, and comparing is comparing numbers.
-/

namespace LS8

/-- The flag register after a comparison. -/
theorem Flags.toNat_bits_compare (left right : UInt8) :
    (compare left right).bits.toNat =
      if left.toNat = right.toNat then 1
      else if right.toNat < left.toNat then 2
      else 4 := by
  have order : Ord.compare left right = compareOfLessAndEq left right := rfl
  rw [compare, order, compareOfLessAndEq]
  split
  case isTrue less =>
    rw [UInt8.lt_iff_toNat_lt] at less
    rw [if_neg (by omega), if_neg (by omega)]
    rfl
  case isFalse notLess =>
    rw [UInt8.lt_iff_toNat_lt] at notLess
    split
    case isTrue equal =>
      rw [if_pos (congrArg UInt8.toNat equal)]
      rfl
    case isFalse different =>
      rw [← UInt8.toNat_inj] at different
      rw [if_neg different, if_pos (by omega)]
      rfl

/-- The flag register is odd exactly after a comparison of equals. -/
theorem Flags.bits_odd_iff (flags : Flags) :
    flags.bits.toNat % 2 = 1 ↔ flags.isEqual = true := by
  obtain ⟨last⟩ := flags
  rcases last with _ | (_ | _ | _) <;> decide

namespace AluOp

theorem toNat_sub (left right : UInt8) :
    (left - right).toNat = (left.toNat + 256 - right.toNat) % 256 := by
  have right_lt := right.toNat_lt
  rw [UInt8.toNat_sub]
  congr 1
  omega

/-- Shifting left multiplies by a power of two, modulo 256. -/
theorem toNat_shiftLeft (value count : UInt8) :
    (shiftLeft value count).toNat =
      value.toNat * 2 ^ count.toNat % 256 := by
  unfold shiftLeft
  split
  case isTrue small =>
    have count_lt : count.toNat < 8 := small
    rw [UInt8.toNat_shiftLeft, Nat.mod_eq_of_lt count_lt, Nat.shiftLeft_eq]
  case isFalse large =>
    have count_le : 8 ≤ count.toNat := Nat.le_of_not_lt large
    have divides : 256 ∣ 2 ^ count.toNat := Nat.pow_dvd_pow 2 count_le
    exact (Nat.mod_eq_zero_of_dvd (Nat.dvd_mul_left_of_dvd divides _)).symm

/-- Shifting right divides by a power of two. -/
theorem toNat_shiftRight (value count : UInt8) :
    (shiftRight value count).toNat = value.toNat / 2 ^ count.toNat := by
  unfold shiftRight
  split
  case isTrue small =>
    have count_lt : count.toNat < 8 := small
    rw [UInt8.toNat_shiftRight, Nat.mod_eq_of_lt count_lt,
      Nat.shiftRight_eq_div_pow]
  case isFalse large =>
    have count_le : 8 ≤ count.toNat := Nat.le_of_not_lt large
    have value_lt : value.toNat < 2 ^ count.toNat :=
      Nat.lt_of_lt_of_le value.toNat_lt (Nat.pow_le_pow_right (by omega) count_le)
    exact (Nat.div_eq_of_lt value_lt).symm

end AluOp
end LS8
