import HostBridge.Decimal.Numeral
import HostBridge.Toml.Document
import HostBridge.Toml.Text

/-!
Dates and times in TOML documents.

Every field of a moment has a fixed number of digits and lies in its range. The moment itself is
passed over.
-/

namespace HostBridge.Toml

/-- A number written in exactly so many digits that lies in a range. -/
def readField (count least most : Nat) : Reader Nat := fun cs =>
  let digits := cs.take count
  let n := Numeral.digitsValue digits
  if digits.length = count ∧ digits.all Char.isDigit ∧ least ≤ n ∧ n ≤ most then
    some (n, cs.drop count)
  else none

def daysOfMonth (year month : Nat) : Nat :=
  if month = 2 then
    if year % 4 = 0 ∧ (year % 100 ≠ 0 ∨ year % 400 = 0) then 29 else 28
  else if month ∈ [4, 6, 9, 11] then 30
  else 31

/-- What follows a date. -/
def skipDate (cs : List Char) : Option (List Char) := do
  let (year, rest) ← readField 4 0 9999 cs
  let (month, rest) ← readField 2 1 12 (← skipMark '-' rest)
  let (_, rest) ← readField 2 1 (daysOfMonth year month) (← skipMark '-' rest)
  some rest

/-- What follows a fraction of a second, which may be left out. -/
def skipSubsecond : List Char → List Char
  | '.' :: c :: rest =>
    if c.isDigit then rest.dropWhile Char.isDigit else '.' :: c :: rest
  | cs => cs

/-- What follows the time of a day; a minute may have a leap second. -/
def skipTime (cs : List Char) : Option (List Char) := do
  let (_, rest) ← readField 2 0 23 cs
  let (_, rest) ← readField 2 0 59 (← skipMark ':' rest)
  let (_, rest) ← readField 2 0 60 (← skipMark ':' rest)
  some (skipSubsecond rest)

/-- What follows the distance of a clock from universal time. -/
def skipOffset : List Char → Option (List Char)
  | [] => none
  | c :: rest =>
    if c = 'Z' ∨ c = 'z' then some rest
    else if c = '+' ∨ c = '-' then do
      let (_, rest) ← readField 2 0 23 rest
      let (_, rest) ← readField 2 0 59 (← skipMark ':' rest)
      some rest
    else none

/-- What follows the time of a day and an offset, after what parts them from the date. -/
def skipClock : List Char → Option (List Char)
  | [] => none
  | c :: rest =>
    if c = 'T' ∨ c = 't' ∨ c = ' ' then
      (skipTime rest).map fun rest => (skipOffset rest).getD rest
    else none

/-- A date, a date with the time of the day, or the time of a day alone. -/
def readMoment : Reader Value := fun cs =>
  match skipDate cs with
  | some rest => some (.other, (skipClock rest).getD rest)
  | none => (skipTime cs).map fun rest => (.other, rest)

end HostBridge.Toml
