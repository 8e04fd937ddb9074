import HostBridge.Double.Shortest
import HostBridge.Proofs.Double.Exact
import Mathlib.Tactic.Ring

/-!
The shortest decimal of a double is read as the double.

How a decimal is rounded depends on its value only, so zeros at the end of its digits may be
dropped, and its sign is the sign of the double. A decimal that the search offers has been read
back before it is offered; the exact value, which stands behind the search, is read back because
the units of a rank are rounded to that rank.
-/

namespace HostBridge

/-! ### Rounding -/

namespace Rank

lemma divRound_mul_left {c : ℕ} (hc : 0 < c) (num den : ℕ) :
    divRound (c * num) (c * den) = divRound num den := by
  have hlt : ∀ a b, c * a < c * b ↔ a < b := fun a b => Nat.mul_lt_mul_left hc
  simp only [divRound, Nat.mul_div_mul_left _ _ hc, Nat.mul_mod_mul_left, Nat.mul_left_comm 2 c,
    hlt]

/-- Rounding depends on the value of the quotient only. -/
lemma nearest_mul_left {c : ℕ} (hc : 0 < c) (w num den : ℕ) :
    nearest w (c * num) (c * den) = nearest w num den := by
  simp only [nearest, Nat.mul_div_mul_left _ _ hc, Nat.shiftLeft_eq, Nat.mul_assoc,
    divRound_mul_left hc]

/-- The number of a rank is rounded to that rank. -/
lemma nearest_units (w r : ℕ) : nearest w (units w r) 1 = r := by
  have hpos : 0 < 2 ^ w := Nat.two_pow_pos w
  by_cases hr : r < 2 ^ w
  · have hshift : r / 2 ^ w - 1 = 0 := by rw [Nat.div_eq_of_lt hr]
    have hlog : r.log2 - w = 0 := by
      rcases Nat.eq_zero_or_pos r with rfl | hr0
      · simp
      · have := (Nat.log2_lt hr0.ne').mpr hr
        omega
    have hround := divRound_self_mul r 1 Nat.one_pos
    rw [Nat.one_mul] at hround
    have hunits : units w r = r := by
      rw [units, significand, shift, Nat.one_shiftLeft, if_pos hr, Nat.shiftRight_eq_div_pow,
        hshift, Nat.shiftLeft_zero]
    rw [hunits, nearest, Nat.div_one, hlog, Nat.zero_shiftLeft, Nat.shiftLeft_zero, hround,
      Nat.zero_add]
  · -- the quotient says how far to shift, the remainder completes the significand
    have hdiv : 1 ≤ r / 2 ^ w := (Nat.one_le_div_iff hpos).mpr (Nat.le_of_not_lt hr)
    have hmod : r % 2 ^ w < 2 ^ w := Nat.mod_lt _ hpos
    have hlo : 2 ^ w ≤ 2 ^ w + r % 2 ^ w := Nat.le_add_right _ _
    have hhi : 2 ^ w + r % 2 ^ w < 2 ^ (w + 1) := by rw [pow_succ]; omega
    have hsplit : (r / 2 ^ w - 1) * 2 ^ w + (2 ^ w + r % 2 ^ w) = r := by
      obtain ⟨q, hq⟩ := Nat.exists_eq_add_of_le hdiv
      have := Nat.div_add_mod r (2 ^ w)
      rw [hq] at this ⊢
      rw [Nat.add_sub_cancel_left, ← Nat.add_assoc, ← Nat.succ_mul, Nat.mul_comm]
      rwa [Nat.add_comm 1 q] at this
    conv_lhs => rw [← hsplit]
    rw [units_add hlo hhi, nearest_mul hlo hhi, hsplit]

lemma units_pos {w r : ℕ} (hr : 0 < r) : 0 < units w r := by
  refine Nat.pos_of_ne_zero fun h => ?_
  have hround := nearest_units w r
  rw [h, ← units_zero w, nearest_units] at hround
  omega

/-- A bound on the units of the ranks below a number of powers of two. -/
lemma units_lt {w b r : ℕ} (hb : 0 < b) (h : r < (b + 1) <<< w) :
    units w r < 2 ^ (w + b) := by
  have hpos : 0 < 2 ^ w := Nat.two_pow_pos w
  have hshift : shift w r ≤ b - 1 := by
    rw [Nat.shiftLeft_eq] at h
    have hdiv : r / 2 ^ w < b + 1 := (Nat.div_lt_iff_lt_mul hpos).mpr h
    rw [shift, Nat.shiftRight_eq_div_pow]
    omega
  have hsignificand : significand w r < 2 ^ (w + 1) := by
    have hmod : r % 2 ^ w < 2 ^ w := Nat.mod_lt _ hpos
    rw [significand, Nat.one_shiftLeft, pow_succ]
    split <;> omega
  calc units w r < 2 ^ (w + 1) * 2 ^ shift w r := by
        rw [units, Nat.shiftLeft_eq]
        exact Nat.mul_lt_mul_of_pos_right hsignificand (Nat.two_pow_pos _)
    _ ≤ 2 ^ (w + b) := by
        rw [← pow_add]
        exact Nat.pow_le_pow_right (by decide) (by omega)

end Rank

/-! ### The value of a decimal -/

namespace Decimal

lemma width_pos {n : ℕ} (hn : n ≠ 0) : width n = (Nat.toDigits 10 n).length := if_neg hn

lemma width_le_iff {n k : ℕ} (hn : n ≠ 0) (hk : 0 < k) : width n ≤ k ↔ n < 10 ^ k := by
  rw [width_pos hn, Nat.length_toDigits_le_iff (by decide) hk]

lemma width_mul_ten {n : ℕ} (hn : n ≠ 0) : width (n * 10) = width n + 1 := by
  have hle : 10 ≤ n * 10 := by omega
  rw [width_pos (by omega), width_pos hn, Nat.toDigits_of_base_le (by decide) hle,
    Nat.mul_div_cancel n (by decide), List.length_append, List.length_singleton]

/-- Zeros at the end of the digits are moved into the exponent. -/
lemma exists_trimZeros (fuel digits : ℕ) (exponent : ℤ) :
    ∃ k : ℕ, digits = (trimZeros fuel digits exponent).digits * 10 ^ k ∧
      (trimZeros fuel digits exponent).exponent = exponent + k := by
  induction fuel generalizing digits exponent with
  | zero => exact ⟨0, by simp [trimZeros], by simp [trimZeros]⟩
  | succ fuel ih =>
    unfold trimZeros
    split
    · rename_i h
      obtain ⟨k, hdigits, hexponent⟩ := ih (digits / 10) (exponent + 1)
      refine ⟨k + 1, ?_, by rw [hexponent]; push_cast; ring⟩
      calc digits = digits / 10 * 10 := (Nat.div_mul_cancel (Nat.dvd_of_mod_eq_zero h.2)).symm
        _ = _ := by rw [pow_succ, ← Nat.mul_assoc, ← hdigits]
    · exact ⟨0, by simp, by simp⟩

end Decimal

namespace Double

lemma ofRatio_mul_left {c : ℕ} (hc : 0 < c) (negative : Bool) (num den : ℕ) :
    ofRatio negative (c * num) (c * den) = ofRatio negative num den := by
  rw [ofRatio, Nat.mul_assoc, Rank.nearest_mul_left hc, ofRatio]

/-- The quotient of a decimal, with the power of ten above or below. -/
lemma ofDecimal_eq (negative : Bool) (d : Decimal) :
    ofDecimal negative d =
      if d.digits = 0 then zero negative
      else if 400 < d.point then .infinite negative
      else if d.point < -400 then zero negative
      else ofRatio negative (d.digits * 10 ^ d.exponent.toNat) (10 ^ (-d.exponent).toNat) := by
  obtain ⟨n, e | e⟩ := d
  · simp [ofDecimal, withRatio]
  · simp [ofDecimal, withRatio, Int.neg_negSucc]

lemma ofDecimal_mul_ten (negative : Bool) (n : ℕ) (e : ℤ) :
    ofDecimal negative ⟨n * 10, e⟩ = ofDecimal negative ⟨n, e + 1⟩ := by
  by_cases hn : n = 0
  · subst hn; rfl
  have hpoint : (⟨n * 10, e⟩ : Decimal).point = (⟨n, e + 1⟩ : Decimal).point := by
    simp only [Decimal.point, Decimal.width_mul_ten hn]
    push_cast; ring
  have hratio : ofRatio negative (n * 10 * 10 ^ e.toNat) (10 ^ (-e).toNat) =
      ofRatio negative (n * 10 ^ (e + 1).toNat) (10 ^ (-(e + 1)).toNat) := by
    rcases lt_or_ge e 0 with he | he
    · have habove : e.toNat = 0 ∧ (e + 1).toNat = 0 := by omega
      have hbelow : (-e).toNat = (-(e + 1)).toNat + 1 := by omega
      rw [habove.1, habove.2, hbelow, pow_succ', pow_zero, Nat.mul_one, Nat.mul_one,
        Nat.mul_comm n 10, ofRatio_mul_left (by decide)]
    · have habove : (e + 1).toNat = e.toNat + 1 := by omega
      have hbelow : (-e).toNat = (-(e + 1)).toNat := by omega
      rw [habove, hbelow, pow_succ', Nat.mul_assoc]
  have hzero : n * 10 ≠ 0 := by omega
  simp only [ofDecimal_eq, hpoint, hratio, hn, hzero]

lemma ofDecimal_mul_pow (negative : Bool) (n k : ℕ) (e : ℤ) :
    ofDecimal negative ⟨n * 10 ^ k, e⟩ = ofDecimal negative ⟨n, e + k⟩ := by
  induction k generalizing e with
  | zero => simp
  | succ k ih =>
    rw [pow_succ, ← Nat.mul_assoc, ofDecimal_mul_ten, ih]
    congr 2
    push_cast; ring

lemma ofDecimal_trim (negative : Bool) (d : Decimal) :
    ofDecimal negative d.trim = ofDecimal negative d := by
  obtain ⟨n, e⟩ := d
  obtain ⟨k, hdigits, hexponent⟩ := Decimal.exists_trimZeros (Decimal.width n) n e
  have hmove := ofDecimal_mul_pow negative (Decimal.trim ⟨n, e⟩).digits k e
  rw [Decimal.trim] at hmove ⊢
  rw [← hdigits, ← hexponent] at hmove
  exact hmove.symm

/-! ### Ranks -/

lemma ofRank_of_lt {rank : ℕ} (h : rank < FiniteDouble.count) (negative : Bool) :
    ofRank negative rank = .finite ⟨negative, ⟨rank, h⟩⟩ := dif_pos h

/-- The size of a decimal settles the rank of its double, and its sign the sign. -/
lemma exists_rank (d : Decimal) :
    ∃ rank, ∀ negative, ofDecimal negative d = ofRank negative rank := by
  have hzero : ∀ negative, zero negative = ofRank negative 0 := fun _ =>
    (ofRank_of_lt (by decide) _).symm
  have hinfinite : ∀ negative, infinite negative = ofRank negative FiniteDouble.count := by
    intro negative
    rw [ofRank, dif_neg (Nat.lt_irrefl _)]
  simp only [ofDecimal_eq]
  split
  · exact ⟨0, hzero⟩
  split
  · exact ⟨FiniteDouble.count, hinfinite⟩
  split
  · exact ⟨0, hzero⟩
  · exact ⟨_, fun _ => rfl⟩

/-- What is read back with a sign is read back with the other sign. -/
lemma ofDecimal_eq_finite {d : Decimal} {rank : Fin FiniteDouble.count}
    (h : ofDecimal false d = ofRank false rank) (negative : Bool) :
    ofDecimal negative d = .finite ⟨negative, rank⟩ := by
  obtain ⟨r, hr⟩ := exists_rank d
  rw [hr, ofRank_of_lt rank.isLt] at h
  by_cases hlt : r < FiniteDouble.count
  · rw [ofRank_of_lt hlt] at h
    cases h
    rw [hr, ofRank_of_lt hlt]
  · rw [ofRank, dif_neg hlt] at h
    cases h

/-! ### The shortest decimal -/

lemma readsBack_iff {rank : ℕ} {d : Decimal} :
    readsBack rank d = true ↔ ofDecimal false d = ofRank false rank := beq_iff_eq

lemma ofDecimal_of_decimalOfWidth? {tie : Tie} {rank : ℕ} {point : ℤ} {count : ℕ} {d : Decimal}
    (h : decimalOfWidth? tie rank point count = some d) :
    ofDecimal false d = ofRank false rank := by
  unfold decimalOfWidth? at h
  dsimp only at h
  split at h
  · rename_i hnear
    cases h
    rw [ofDecimal_trim, readsBack_iff.mp hnear]
  · split at h
    · rename_i hfar
      cases h
      rw [ofDecimal_trim, readsBack_iff.mp hfar]
    · cases h

/-- The exact digits of a rank, over the power of ten that goes with them. -/
lemma ofRatio_exact {e : ℕ} (he : unitDenominator = 2 ^ e) (negative : Bool) (rank : ℕ) :
    ofRatio negative (Rank.units 52 rank * 5 ^ e) (10 ^ e) = ofRank negative rank := by
  have hnum : Rank.units 52 rank * 5 ^ e * 2 ^ e = 10 ^ e * Rank.units 52 rank := by
    rw [Nat.mul_assoc, ← Nat.mul_pow, Nat.mul_comm]
  have hpos : 0 < 10 ^ e := Nat.pow_pos (by decide)
  have hround := Rank.nearest_mul_left hpos 52 (Rank.units 52 rank) 1
  rw [Nat.mul_one, Rank.nearest_units] at hround
  rw [ofRatio, he, hnum, hround]

lemma two_pow_le (k : ℕ) : 2 ^ (3 * k) ≤ 10 ^ k := by
  rw [pow_mul]
  exact Nat.pow_le_pow_left (by decide) k

lemma ten_pow_le (k : ℕ) : 10 ^ (2 * k) ≤ 5 ^ (3 * k) := by
  rw [pow_mul, pow_mul]
  exact Nat.pow_le_pow_left (by decide) k

/-- The exact digits are neither so many nor so few that they are not looked at. -/
lemma width_exact {e rank : ℕ} (he : e = 1074) (hpos : 0 < rank)
    (h : rank < FiniteDouble.count) :
    e < Decimal.width (Rank.units 52 rank * 5 ^ e) + 400 ∧
      Decimal.width (Rank.units 52 rank * 5 ^ e) ≤ e + 400 := by
  have hunits : 0 < Rank.units 52 rank := Rank.units_pos hpos
  have hnum : Rank.units 52 rank * 5 ^ e ≠ 0 :=
    Nat.mul_ne_zero hunits.ne' (Nat.pow_pos (by decide)).ne'
  have hlow : ∀ k, 0 < k → 3 * k ≤ e → ¬ Decimal.width (Rank.units 52 rank * 5 ^ e) ≤ 2 * k := by
    intro k hk hke
    rw [Decimal.width_le_iff hnum (by omega), Nat.not_lt]
    calc 10 ^ (2 * k) ≤ 5 ^ (3 * k) := ten_pow_le k
      _ ≤ 5 ^ e := Nat.pow_le_pow_right (by decide) hke
      _ ≤ Rank.units 52 rank * 5 ^ e := Nat.le_mul_of_pos_left _ hunits
  have hhigh : ∀ k, 2098 ≤ e + 3 * k →
      Decimal.width (Rank.units 52 rank * 5 ^ e) ≤ e + k := by
    intro k hk
    have hlt : Rank.units 52 rank < 2 ^ (e + 3 * k) := by
      obtain ⟨b, hb⟩ : ∃ b, b = 2046 := ⟨_, rfl⟩
      have hcount : FiniteDouble.count = (b + 1) <<< 52 := by rw [hb]; rfl
      refine (Rank.units_lt (by omega) (hcount ▸ h)).trans_le ?_
      exact Nat.pow_le_pow_right (by decide) (by omega)
    rw [Decimal.width_le_iff hnum (by omega)]
    calc Rank.units 52 rank * 5 ^ e < 2 ^ (e + 3 * k) * 5 ^ e :=
          Nat.mul_lt_mul_of_pos_right hlt (Nat.pow_pos (by decide))
      _ = 2 ^ (3 * k) * 10 ^ e := by
          rw [pow_add, Nat.mul_right_comm, ← Nat.mul_pow, Nat.mul_comm]
      _ ≤ 10 ^ k * 10 ^ e := Nat.mul_le_mul_right _ (two_pow_le k)
      _ = 10 ^ (e + k) := by rw [← pow_add, Nat.add_comm]
  have hlow := hlow 337 (by decide) (by omega)
  have hhigh := hhigh 400 (by omega)
  omega

lemma ofDecimal_exactDecimal {rank : ℕ} (hpos : 0 < rank) (h : rank < FiniteDouble.count) :
    ofDecimal false (exactDecimal rank) = ofRank false rank := by
  -- the exponent is kept as a variable, so that no power of it is ever formed
  obtain ⟨e, he⟩ : ∃ e, e = 1074 := ⟨_, rfl⟩
  have hexact : exactDecimal rank = Decimal.trim ⟨Rank.units 52 rank * 5 ^ e, -e⟩ := by
    have hcast : (e : ℤ) = 1074 := by omega
    rw [exactDecimal, ← he, hcast, Nat.pow_eq]
  have hunit : unitDenominator = 2 ^ e := by
    have hshift : unitDenominator = 1 <<< e := by rw [he]; rfl
    rw [hshift, Nat.one_shiftLeft]
  have hnum : Rank.units 52 rank * 5 ^ e ≠ 0 :=
    Nat.mul_ne_zero (Rank.units_pos hpos).ne' (Nat.pow_pos (by decide)).ne'
  have hpoint : (⟨Rank.units 52 rank * 5 ^ e, -e⟩ : Decimal).point =
      Decimal.width (Rank.units 52 rank * 5 ^ e) - e := rfl
  obtain ⟨hlow, hhigh⟩ := width_exact he hpos h
  rw [hexact, ofDecimal_trim, ofDecimal_eq, if_neg hnum, hpoint, if_neg (by omega),
    if_neg (by omega)]
  simp only [Int.toNat_neg_natCast, Int.neg_neg, Int.toNat_natCast, pow_zero, Nat.mul_one]
  exact ofRatio_exact hunit false rank

/-- **The shortest decimal is read back**, with either sign. -/
theorem ofDecimal_shortest (tie : Tie) (rank : Fin FiniteDouble.count) (hpos : 0 < rank.val)
    (negative : Bool) :
    ofDecimal negative (shortest tie rank) = .finite ⟨negative, rank⟩ := by
  refine ofDecimal_eq_finite ?_ negative
  unfold shortest
  dsimp only
  rcases hfound : (List.range 17).findSome? _ with _ | d
  · rw [Option.getD_none]
    exact ofDecimal_exactDecimal hpos rank.isLt
  · obtain ⟨count, -, hcount⟩ := List.exists_of_findSome?_eq_some hfound
    rw [Option.getD_some]
    exact ofDecimal_of_decimalOfWidth? hcount

/-- The shortest decimal of a number other than zero has digits. -/
lemma shortest_digits_ne_zero (tie : Tie) {rank : Fin FiniteDouble.count} (hpos : 0 < rank.val) :
    (shortest tie rank).digits ≠ 0 := by
  intro hzero
  have hread := ofDecimal_shortest tie rank hpos false
  rw [ofDecimal_eq, if_pos hzero] at hread
  cases hread
  exact Nat.lt_irrefl 0 hpos

end Double

end HostBridge
