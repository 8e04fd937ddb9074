import HostBridge.Double.Rank
import HostBridge.Decimal.Basic

/-!
Double-precision numbers.

A finite double is a sign and a rank, the two infinities and a single not-a-number stand
beside them; what a not-a-number carries is never shown, so one suffices. Conversions are
correctly rounded: an exact quotient is formed first and rounded once, a half to even.
-/

namespace HostBridge

/-- How many finite doubles have a given sign. -/
def FiniteDouble.count : Nat := 2047 <<< 52

structure FiniteDouble where
  negative : Bool
  rank : Fin FiniteDouble.count
deriving DecidableEq, Repr

inductive Double where
  | nan
  | infinite (negative : Bool)
  | finite (value : FiniteDouble)
deriving DecidableEq, Repr

namespace Double

def zero (negative : Bool) : Double := .finite ⟨negative, ⟨0, by decide⟩⟩

instance : Inhabited Double := ⟨zero false⟩

/-- The number of the given rank, or infinity when there is none. -/
def ofRank (negative : Bool) (rank : Nat) : Double :=
  if h : rank < FiniteDouble.count then .finite ⟨negative, ⟨rank, h⟩⟩ else .infinite negative

/-- The smallest positive double is one over this. -/
def unitDenominator : Nat := 1 <<< 1074

/-- The double nearest to a quotient. -/
def ofRatio (negative : Bool) (num den : Nat) : Double :=
  ofRank negative (Rank.nearest 52 (num * unitDenominator) den)

def ofInt (n : Int) : Double := ofRatio (n < 0) n.natAbs 1

/--
The quotient that a decimal denotes, given to `k`. Decimals so large or so small that every
format in use takes them for infinity or zero are answered without forming the power of ten.
-/
def withRatio (negative : Bool) (d : Decimal) (k : Nat → Nat → Double) : Double :=
  if d.digits = 0 then zero negative
  else if 400 < d.point then .infinite negative
  else if d.point < -400 then zero negative
  else match d.exponent with
    | .ofNat e => k (d.digits * Nat.pow 10 e) 1
    | .negSucc e => k d.digits (Nat.pow 10 (e + 1))

/-- The double nearest to a decimal. -/
def ofDecimal (negative : Bool) (d : Decimal) : Double :=
  withRatio negative d (ofRatio negative)

/-- The single-precision number nearest to a decimal, as a double. -/
def ofDecimalSingle (negative : Bool) (d : Decimal) : Double :=
  withRatio negative d fun num den =>
    let rank := Rank.nearest 23 (num <<< 149) den
    if rank < 255 <<< 23 then ofRatio negative (Rank.units 23 rank) (1 <<< 149)
    else .infinite negative

/-- Numeric equality: a not-a-number equals nothing, and the two zeros are equal. -/
def equals : Double → Double → Bool
  | .infinite s, .infinite t => s == t
  | .finite x, .finite y => x.rank == y.rank && (x.negative == y.negative || x.rank.val == 0)
  | _, _ => false

def isNan : Double → Bool
  | .nan => true
  | _ => false

end Double

end HostBridge
