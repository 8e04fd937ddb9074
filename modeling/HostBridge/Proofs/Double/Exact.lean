import HostBridge.Double.Basic
import Mathlib.Algebra.Group.Nat.Defs
import Mathlib.Tactic.Lemma

/-!
Integers of at most 53 bits are doubles.

Such an integer is a significand of full width at some place, and rounding a number of that form
to the nearest rank gives back the number. So distinct integers of that size are distinct doubles.
-/

namespace HostBridge

/-! ### Numbers with a significand of full width -/

namespace Rank

variable {w s sig : ℕ}

/-- The rank of a number with a significand of full width at the place `s`. -/
lemma units_add (hlo : 2 ^ w ≤ sig) (hhi : sig < 2 ^ (w + 1)) :
    units w (s * 2 ^ w + sig) = sig * 2 ^ s := by
  have hpos : 0 < 2 ^ w := Nat.two_pow_pos w
  obtain ⟨f, rfl⟩ := Nat.exists_eq_add_of_le hlo
  have hf : f < 2 ^ w := by rw [pow_succ] at hhi; omega
  have hrank : s * 2 ^ w + (2 ^ w + f) = f + (s + 1) * 2 ^ w := by rw [Nat.succ_mul]; omega
  have hdiv : (f + (s + 1) * 2 ^ w) / 2 ^ w = s + 1 := by
    rw [Nat.add_mul_div_right _ _ hpos, Nat.div_eq_of_lt hf, Nat.zero_add]
  have hmod : (f + (s + 1) * 2 ^ w) % 2 ^ w = f := by
    rw [Nat.add_mul_mod_self_right, Nat.mod_eq_of_lt hf]
  have hnormal : ¬ f + (s + 1) * 2 ^ w < 2 ^ w := by rw [Nat.succ_mul]; omega
  rw [hrank, units, significand, shift, Nat.one_shiftLeft, Nat.shiftRight_eq_div_pow, hdiv, hmod,
    if_neg hnormal, Nat.shiftLeft_eq, Nat.add_sub_cancel]

/-- Such a number is rounded to its own rank. -/
lemma nearest_mul (hlo : 2 ^ w ≤ sig) (hhi : sig < 2 ^ (w + 1)) :
    nearest w (sig * 2 ^ s) 1 = s * 2 ^ w + sig := by
  have hpos : 0 < 2 ^ w := Nat.two_pow_pos w
  have hsig : sig ≠ 0 := by omega
  have hlog : (sig * 2 ^ s).log2 = w + s := by
    refine (Nat.log2_eq_iff ?_).mpr ⟨?_, ?_⟩
    · exact Nat.mul_ne_zero hsig (Nat.ne_of_gt (Nat.two_pow_pos s))
    · rw [pow_add]; exact Nat.mul_le_mul_right _ hlo
    · rw [show w + s + 1 = w + 1 + s by omega, pow_add]
      exact Nat.mul_lt_mul_of_pos_right hhi (Nat.two_pow_pos s)
  rw [nearest, Nat.div_one, hlog, Nat.add_sub_cancel_left, Nat.one_shiftLeft, Nat.shiftLeft_eq,
    Nat.mul_comm sig, divRound_self_mul _ _ (Nat.two_pow_pos s)]

end Rank

/-! ### Integers -/

namespace Double

/-- A positive integer of at most `w + 1` bits, shifted far enough, has a significand. -/
lemma exists_significand {w e n : ℕ} (hwe : w ≤ e) (hpos : n ≠ 0) (hlt : n < 2 ^ (w + 1)) :
    ∃ sig s, n * 2 ^ e = sig * 2 ^ s ∧ 2 ^ w ≤ sig ∧ sig < 2 ^ (w + 1) ∧ s ≤ e := by
  have hlog : n.log2 < w + 1 := (Nat.log2_lt hpos).mpr hlt
  refine ⟨n * 2 ^ (w - n.log2), e - (w - n.log2), ?_, ?_, ?_, by omega⟩
  · rw [Nat.mul_assoc, ← pow_add, Nat.add_sub_cancel' (by omega)]
  · calc 2 ^ w = 2 ^ n.log2 * 2 ^ (w - n.log2) := by rw [← pow_add]; congr 1; omega
      _ ≤ n * 2 ^ (w - n.log2) := Nat.mul_le_mul_right _ (Nat.log2_self_le hpos)
  · calc n * 2 ^ (w - n.log2) < 2 ^ (n.log2 + 1) * 2 ^ (w - n.log2) :=
          Nat.mul_lt_mul_of_pos_right Nat.lt_log2_self (Nat.two_pow_pos _)
      _ = 2 ^ (w + 1) := by rw [← pow_add]; congr 1; omega

/-- The unit is a power of two; which one does not matter, as long as it is within range. -/
lemma unitDenominator_eq : ∃ e, 52 ≤ e ∧ e ≤ 2000 ∧ unitDenominator = 1 <<< e :=
  ⟨1074, by omega, by omega, rfl⟩

lemma unitDenominator_pos : 0 < unitDenominator := by
  obtain ⟨e, -, -, hunit⟩ := unitDenominator_eq
  rw [hunit, Nat.one_shiftLeft]
  exact Nat.two_pow_pos e

/-- An integer of at most 53 bits is the double of a rank whose units say how large it is. -/
lemma ofInt_eq_finite {n : ℤ} (h : n.natAbs < 2 ^ 53) :
    ∃ rank : Fin FiniteDouble.count, ofInt n = .finite ⟨decide (n < 0), rank⟩ ∧
      Rank.units 52 rank = n.natAbs * unitDenominator := by
  by_cases hzero : n.natAbs = 0
  · obtain rfl := Int.natAbs_eq_zero.mp hzero
    refine ⟨⟨0, by decide⟩, rfl, ?_⟩
    rw [hzero, Nat.zero_mul, Rank.units_zero]
  · obtain ⟨e, hle, hge, hunit⟩ := unitDenominator_eq
    obtain ⟨sig, s, hnum, hlo, hhi, hs⟩ := exists_significand hle hzero h
    have hrank : s * 2 ^ 52 + sig < FiniteDouble.count := by
      rw [FiniteDouble.count, Nat.shiftLeft_eq]; omega
    refine ⟨⟨s * 2 ^ 52 + sig, hrank⟩, ?_, ?_⟩
    · rw [ofInt, ofRatio, hunit, Nat.one_shiftLeft, hnum, Rank.nearest_mul hlo hhi, ofRank,
        dif_pos hrank]
    · rw [hunit, Nat.one_shiftLeft, hnum]; exact Rank.units_add hlo hhi

lemma ofInt_injective {m n : ℤ} (hm : m.natAbs < 2 ^ 53) (hn : n.natAbs < 2 ^ 53)
    (h : (ofInt m).equals (ofInt n) = true) : m = n := by
  obtain ⟨r, hr, hunits⟩ := ofInt_eq_finite hm
  obtain ⟨r', hr', hunits'⟩ := ofInt_eq_finite hn
  rw [hr, hr'] at h
  simp only [equals, Bool.and_eq_true, beq_iff_eq, Bool.or_eq_true] at h
  obtain ⟨rfl, hsign⟩ := h
  have hpos := unitDenominator_pos
  have habs : m.natAbs = n.natAbs := Nat.mul_right_cancel hpos (hunits.symm.trans hunits')
  rcases hsign with hsign | hzero
  · rw [decide_eq_decide] at hsign
    omega
  · have hm0 : m.natAbs * unitDenominator = 0 := by rw [← hunits, hzero, Rank.units_zero]
    have := Nat.mul_eq_zero.mp hm0
    omega

end Double

end HostBridge
