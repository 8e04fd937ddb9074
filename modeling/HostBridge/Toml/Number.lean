import HostBridge.Decimal.Numeral
import HostBridge.Double.Basic
import HostBridge.Text.Reader
import HostBridge.Toml.Document

/-!
Numbers in TOML documents.

Underscores may part the digits of a number. An integer must fit in 64 bits; a fractional number
must not lie beyond the largest double, and is otherwise passed over.
-/

namespace HostBridge.Toml

/-- Digits after a first one, an underscore allowed before each. -/
def moreDigits (isDigit : Char → Bool) : List Char → List Char × List Char
  | [] => ([], [])
  | c :: rest =>
    if isDigit c then
      let (digits, rest) := moreDigits isDigit rest
      (c :: digits, rest)
    else if c = '_' then
      match rest with
      | [] => ([], [c])
      | d :: tail =>
        if isDigit d then
          let (digits, rest) := moreDigits isDigit tail
          (d :: digits, rest)
        else ([], c :: d :: tail)
    else ([], c :: rest)

def readDigits (isDigit : Char → Bool) : Reader (List Char)
  | c :: rest =>
    if isDigit c then
      let (digits, rest) := moreDigits isDigit rest
      some (c :: digits, rest)
    else none
  | [] => none

/-- Integers are limited to 64 bits. -/
def integer? (n : Int) : Option Value :=
  if -0x8000000000000000 ≤ n ∧ n < 0x8000000000000000 then some (.integer n) else none

/-- An integer in a base other than ten, after its mark. -/
def readBased (base : Nat) : Reader Value := fun cs => do
  let digit? (c : Char) := (Text.hexDigit? c).filter (· < base)
  let (digits, rest) ← readDigits (fun c => (digit? c).isSome) cs
  let n := (digits.filterMap digit?).foldl (fun n d => base * n + d) 0
  let v ← integer? n
  some (v, rest)

/-- A sign, which may be left out; whether it is a minus. -/
def readSign : List Char → Bool × List Char
  | '-' :: rest => (true, rest)
  | '+' :: rest => (false, rest)
  | cs => (false, cs)

/-- The digits before the point: a zero stands alone. -/
def readWhole : Reader (List Char)
  | '0' :: rest => some (['0'], rest)
  | cs => readDigits Char.isDigit cs

def readFraction : Reader (Option (List Char))
  | '.' :: rest => (readDigits Char.isDigit rest).map fun (ds, rest) => (some ds, rest)
  | cs => some (none, cs)

def readExponent : Reader (Option Int)
  | [] => some (none, [])
  | c :: rest =>
    if c = 'e' ∨ c = 'E' then do
      let (negative, rest) := readSign rest
      let (digits, rest) ← readDigits Char.isDigit rest
      let n : Int := Numeral.digitsValue digits
      some (some (if negative then -n else n), rest)
    else some (none, c :: rest)

/-- The value of a numeral: a fractional one must not lie beyond the largest double. -/
def ofNumeral? (n : Numeral) : Option Value :=
  if n.isWhole then
    let size : Int := Numeral.digitsValue n.whole
    integer? (if n.negative then -size else size)
  else if Double.ofDecimal n.negative n.size = .infinite false then none
  else some .other

/-- A number in base ten, or one of the numbers that have names. -/
def readDecimal : Reader Value := fun cs =>
  match readSign cs with
  | (_, 'i' :: 'n' :: 'f' :: rest) => some (.other, rest)
  | (_, 'n' :: 'a' :: 'n' :: rest) => some (.other, rest)
  | (negative, rest) => do
    let (whole, rest) ← readWhole rest
    let (fraction, rest) ← readFraction rest
    let (exponent, rest) ← readExponent rest
    let v ← ofNumeral? ⟨negative, whole, fraction, exponent⟩
    some (v, rest)

def readNumber : Reader Value
  | '0' :: 'x' :: rest => readBased 16 rest
  | '0' :: 'o' :: rest => readBased 8 rest
  | '0' :: 'b' :: rest => readBased 2 rest
  | cs => readDecimal cs

end HostBridge.Toml
