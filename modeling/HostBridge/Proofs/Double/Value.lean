import HostBridge.Proofs.Double.Exact
import HostBridge.Proofs.Double.Shortest
import Mathlib.Algebra.Order.Ring.Rat

/-!
The numbers that doubles denote.

A finite double is a whole multiple of the smallest positive one. Two finite doubles are equal if
they denote the same number, and an integer of at most 53 bits equals the doubles that denote it.
-/

namespace HostBridge

/-- What multiple of the smallest positive double a finite double is. -/
def FiniteDouble.signedUnits (x : FiniteDouble) : ℤ :=
  if x.negative then -(Rank.units 52 x.rank : ℤ) else Rank.units 52 x.rank

lemma Rank.units_injective {w m n : ℕ} (h : units w m = units w n) : m = n := by
  rw [← nearest_units w m, h, nearest_units]

namespace Double

/-- The number that a double denotes; infinities and a not-a-number denote none. -/
def value? : Double → Option ℚ
  | .finite x => some (x.signedUnits / unitDenominator)
  | _ => none

/-- Plus and minus zero are the only two finite doubles that are the same multiple. -/
lemma equals_finite_iff {a b : FiniteDouble} :
    (Double.finite a).equals (.finite b) = true ↔ a.signedUnits = b.signedUnits := by
  obtain ⟨s, r⟩ := a
  obtain ⟨t, q⟩ := b
  have hsame : Rank.units 52 r = Rank.units 52 q ↔ r = q :=
    ⟨fun h => Fin.ext (Rank.units_injective h), fun h => by rw [h]⟩
  have hzero : ∀ k : Fin FiniteDouble.count, Rank.units 52 k = 0 ↔ k.val = 0 := by
    intro k
    refine ⟨fun h => ?_, fun h => by rw [h, Rank.units_zero]⟩
    by_contra hk
    have hpos := Rank.units_pos (w := 52) (Nat.pos_of_ne_zero hk)
    omega
  have hr := hzero r
  have hq := hzero q
  simp only [equals, FiniteDouble.signedUnits, Bool.and_eq_true, Bool.or_eq_true, beq_iff_eq,
    ← hsame]
  cases s <;> cases t <;> simp <;> omega

lemma signedUnits_ofInt {n : ℤ} (h : n.natAbs < 2 ^ 53) :
    ∃ x, ofInt n = .finite x ∧ x.signedUnits = n * unitDenominator := by
  obtain ⟨rank, hrank, hunits⟩ := ofInt_eq_finite h
  refine ⟨_, hrank, ?_⟩
  rw [FiniteDouble.signedUnits, hunits]
  push_cast
  by_cases hneg : n < 0
  · rw [if_pos (by simpa using hneg), abs_of_neg hneg]
    ring
  · rw [if_neg (by simpa using hneg), abs_of_nonneg (by omega)]

/-- An integer of at most 53 bits equals the doubles that denote it. -/
theorem ofInt_equals_iff {n : ℤ} (h : n.natAbs < 2 ^ 53) {x : Double} :
    (ofInt n).equals x = true ↔ x.value? = some (n : ℚ) := by
  obtain ⟨a, ha, hunits⟩ := signedUnits_ofInt h
  rw [ha]
  cases x with
  | nan | infinite => exact iff_of_false nofun nofun
  | finite b =>
    have hpos : (unitDenominator : ℚ) ≠ 0 := Nat.cast_ne_zero.mpr unitDenominator_pos.ne'
    rw [equals_finite_iff, hunits, value?, Option.some.injEq, div_eq_iff hpos, eq_comm]
    norm_cast

end Double

end HostBridge
