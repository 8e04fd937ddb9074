/-!
Decimal numbers `digits * 10 ^ exponent`, and how they are laid out as text.

A layout says which numbers are written out in full and which with an exponent; everything
else about the written form follows from the digits and the place of the point.
-/

namespace HostBridge

structure Decimal where
  digits : Nat
  exponent : Int
deriving DecidableEq, Repr

namespace Decimal

/-- How many decimal digits a number has; zero has none. -/
def width (n : Nat) : Nat := if n = 0 then 0 else (Nat.toDigits 10 n).length

/-- Drops up to `fuel` zeros from the end of the digits. -/
def trimZeros : Nat → Nat → Int → Decimal
  | 0, digits, exponent => ⟨digits, exponent⟩
  | fuel + 1, digits, exponent =>
    if digits ≠ 0 ∧ digits % 10 = 0 then trimZeros fuel (digits / 10) (exponent + 1)
    else ⟨digits, exponent⟩

/-- The same number with no zero at the end of its digits. -/
def trim (d : Decimal) : Decimal := trimZeros (width d.digits) d.digits d.exponent

/-- The place of the point: the number lies between `10 ^ (point - 1)` and `10 ^ point`. -/
def point (d : Decimal) : Int := width d.digits + d.exponent

/-- Which numbers are written in full, and how an exponent is signed. -/
structure Layout where
  /-- The least place of the point written in full. -/
  least : Int
  /-- The greatest place of the point written in full. -/
  greatest : Int
  /-- Whether an exponent that is not negative bears a sign. -/
  plus : Bool

/-- Digits in full: at least one digit stands on either side of the point. -/
def positional (digits : List Char) (point : Int) : List Char :=
  match point with
  | .ofNat (p + 1) =>
    if p + 1 < digits.length then digits.take (p + 1) ++ '.' :: digits.drop (p + 1)
    else digits ++ List.replicate (p + 1 - digits.length) '0' ++ ['.', '0']
  | .ofNat 0 => '0' :: '.' :: digits
  | .negSucc n => '0' :: '.' :: (List.replicate (n + 1) '0' ++ digits)

/-- One digit before the point, no point if there is no more, and the exponent of ten. -/
def scientific (plus : Bool) (digits : List Char) (power : Int) : List Char :=
  let fraction := match digits.drop 1 with
    | [] => []
    | rest => '.' :: rest
  let sign := if power < 0 then ['-'] else if plus then ['+'] else []
  digits.take 1 ++ fraction ++ 'e' :: (sign ++ Nat.toDigits 10 power.natAbs)

/-- The text of a positive decimal. -/
def render (layout : Layout) (d : Decimal) : List Char :=
  let digits := Nat.toDigits 10 d.digits
  if layout.least ≤ d.point ∧ d.point ≤ layout.greatest then positional digits d.point
  else scientific layout.plus digits (d.point - 1)

end Decimal

end HostBridge
