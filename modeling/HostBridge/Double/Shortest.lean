import HostBridge.Double.Basic

/-!
The shortest decimal of a double.

Among the decimals that read back as the double, those with the fewest digits are
considered, and of these the one nearest to the double is taken. For each count of digits
only the two neighbours of the double on the grid of that count can qualify. Seventeen
digits always suffice; the exact value of the double stands behind them, so that the search
needs no proof of this to be total.
-/

namespace HostBridge

namespace Double

/-- Which of two equally near decimals is taken. -/
inductive Tie where
  | toEven
  | upward
deriving DecidableEq, Repr

/-- The place of the point of a positive quotient. -/
def pointOf (num den : Nat) : Int :=
  if den ≤ num then Decimal.width (num / den)
  else 1 - (Decimal.width ((num + den - 1) / num - 1) : Int)

/-- Whether the lower neighbour of a quotient with the given floor and remainder is taken. -/
def Tie.roundsDown (tie : Tie) (floor remainder den : Nat) : Bool :=
  2 * remainder < den || (2 * remainder == den && match tie with
    | .toEven => floor % 2 == 0
    | .upward => false)

/-- The two neighbours of a quotient on the grid `10 ^ exponent`, the preferred one first. -/
def neighbours (tie : Tie) (num den : Nat) (exponent : Int) : Decimal × Decimal :=
  let (n, d) := match exponent with
    | .ofNat e => (num, den * Nat.pow 10 e)
    | .negSucc e => (num * Nat.pow 10 (e + 1), den)
  let lower : Decimal := ⟨n / d, exponent⟩
  let upper : Decimal := ⟨n / d + 1, exponent⟩
  if tie.roundsDown (n / d) (n % d) d then (lower, upper) else (upper, lower)

/-- Whether a decimal reads back as the positive double of a rank. -/
def readsBack (rank : Nat) (d : Decimal) : Bool := ofDecimal false d == ofRank false rank

/--
The decimal with `count` digits that reads back as the positive double of a rank, the place of
whose point is given.
-/
def decimalOfWidth? (tie : Tie) (rank : Nat) (point : Int) (count : Nat) : Option Decimal :=
  let (near, far) := neighbours tie (Rank.units 52 rank) unitDenominator (point - count)
  if readsBack rank near then some near.trim
  else if readsBack rank far then some far.trim
  else none

/-- The value of the positive double of a rank, as a decimal with all its digits. -/
def exactDecimal (rank : Nat) : Decimal := Decimal.trim ⟨Rank.units 52 rank * Nat.pow 5 1074, -1074⟩

/-- The shortest decimal of the positive double of a rank. -/
def shortest (tie : Tie) (rank : Nat) : Decimal :=
  let point := pointOf (Rank.units 52 rank) unitDenominator
  ((List.range 17).findSome? fun n => decimalOfWidth? tie rank point (n + 1)).getD
    (exactDecimal rank)

/-- How finite doubles are written. -/
structure Style extends Decimal.Layout where
  tie : Tie

end Double

/-- The text of a finite double; zero is written in full. -/
def FiniteDouble.render (style : Double.Style) (x : FiniteDouble) : List Char :=
  let size := if x.rank.val = 0 then ['0', '.', '0']
    else (Double.shortest style.tie x.rank).render style.toLayout
  if x.negative then '-' :: size else size

end HostBridge
