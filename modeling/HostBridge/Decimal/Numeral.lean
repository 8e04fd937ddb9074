import HostBridge.Decimal.Basic

/-!
Numerals: the written form of decimal numbers.

A numeral is a sign, the digits before the point, and optionally digits after it and an
exponent. Reading takes the longest numeral off the front of a text; what it denotes is left
to the reader of the format, which may treat whole and fractional numerals apart.
-/

namespace HostBridge

structure Numeral where
  negative : Bool
  whole : List Char
  fraction : Option (List Char)
  exponent : Option Int
deriving DecidableEq, Repr

namespace Numeral

/-- The number that a list of decimal digits denotes. -/
def digitsValue (digits : List Char) : Nat :=
  digits.foldl (fun n c => 10 * n + (c.toNat - '0'.toNat)) 0

/-- A whole numeral has neither a fraction nor an exponent. -/
def isWhole (n : Numeral) : Bool := n.fraction.isNone && n.exponent.isNone

/-- The size of the number, its sign apart. -/
def size (n : Numeral) : Decimal :=
  let fraction := n.fraction.getD []
  ⟨digitsValue (n.whole ++ fraction), n.exponent.getD 0 - fraction.length⟩

/-- At least one digit, and what follows the digits. -/
def digits? (cs : List Char) : Option (List Char × List Char) :=
  match cs.takeWhile Char.isDigit with
  | [] => none
  | ds => some (ds, cs.dropWhile Char.isDigit)

/-- The digits before the point: a zero stands alone. -/
def whole? : List Char → Option (List Char × List Char)
  | '0' :: rest => some (['0'], rest)
  | cs => digits? cs

def fraction? : List Char → Option (Option (List Char) × List Char)
  | '.' :: rest => (digits? rest).map fun (ds, rest) => (some ds, rest)
  | cs => some (none, cs)

/-- The sign of an exponent and its digits. -/
def power? : List Char → Option (Int × List Char)
  | '-' :: rest => (digits? rest).map fun (ds, rest) => (-(digitsValue ds : Int), rest)
  | '+' :: rest => (digits? rest).map fun (ds, rest) => ((digitsValue ds : Int), rest)
  | cs => (digits? cs).map fun (ds, rest) => ((digitsValue ds : Int), rest)

def exponent? : List Char → Option (Option Int × List Char)
  | c :: rest =>
    if c = 'e' ∨ c = 'E' then (power? rest).map fun (e, rest) => (some e, rest)
    else some (none, c :: rest)
  | [] => some (none, [])

/-- The size of a numeral after its sign. -/
def unsigned? (negative : Bool) (cs : List Char) : Option (Numeral × List Char) := do
  let (whole, cs) ← whole? cs
  let (fraction, cs) ← fraction? cs
  let (exponent, cs) ← exponent? cs
  some (⟨negative, whole, fraction, exponent⟩, cs)

/-- The longest numeral at the front of a text, and what follows it. -/
def read? : List Char → Option (Numeral × List Char)
  | '-' :: rest => unsigned? true rest
  | cs => unsigned? false cs

end Numeral

end HostBridge
