/-!
Binary floating point by rank.

The non-negative finite numbers of a binary format are counted upward from zero: number `r`
has *rank* `r`. A format is given by its width `w`, the number of stored fraction bits. Every
number is a whole multiple of the smallest positive one, and `units w r` is that multiple, so
order, rounding and equality are exact arithmetic on natural numbers.
-/

namespace HostBridge.Rank

/-- The significand of the number of rank `r`. -/
def significand (w r : Nat) : Nat := if r < 1 <<< w then r else 1 <<< w + r % (1 <<< w)

/-- How far the significand of rank `r` is shifted left of the smallest positive number. -/
def shift (w r : Nat) : Nat := r >>> w - 1

/-- The number of rank `r` as a multiple of the smallest positive number. -/
def units (w r : Nat) : Nat := significand w r <<< shift w r

/-- The quotient rounded to the nearest whole number, a half to the even neighbour. -/
def divRound (num den : Nat) : Nat :=
  let q := num / den
  let r := num % den
  if 2 * r < den then q else if den < 2 * r then q + 1 else q + q % 2

/--
The rank whose units are nearest to `num / den`, ties to the even rank. The spacing of the
numbers around the quotient is a power of two, and rounding the quotient to that spacing
gives the significand; a carry into the next power of two is the next rank all the same.
-/
def nearest (w num den : Nat) : Nat :=
  let s := (num / den).log2 - w
  s <<< w + divRound num (den <<< s)

@[simp] theorem units_zero (w : Nat) : units w 0 = 0 := by
  have h : 0 < 1 <<< w := Nat.shiftLeft_eq 1 w ▸ Nat.mul_pos Nat.one_pos (Nat.two_pow_pos w)
  rw [units, significand, if_pos h, Nat.zero_shiftLeft]

theorem divRound_self_mul (q den : Nat) (h : 0 < den) : divRound (den * q) den = q := by
  simp [divRound, Nat.mul_div_cancel_left _ h, h]

end HostBridge.Rank
