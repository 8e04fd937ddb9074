/-!
Reading text from the front.

A reader takes what it reads off the front of a text and returns the rest. Hexadecimal digits
and quoted text with escapes are read alike in every format; which escapes there are, and which
characters may stand for themselves, is up to the format.
-/

namespace HostBridge

/-- What is read off the front of a text, and the rest; nothing if the text is malformed. -/
abbrev Reader (α : Type) := List Char → Option (α × List Char)

namespace Text

def hexDigit? (c : Char) : Option Nat :=
  if '0' ≤ c ∧ c ≤ '9' then some (c.toNat - '0'.toNat)
  else if 'a' ≤ c ∧ c ≤ 'f' then some (c.toNat - 'a'.toNat + 10)
  else if 'A' ≤ c ∧ c ≤ 'F' then some (c.toNat - 'A'.toNat + 10)
  else none

/-- Exactly so many hexadecimal digits, after those that denote `n`. -/
def readHex (n : Nat) : Nat → Reader Nat
  | 0, cs => some (n, cs)
  | _ + 1, [] => none
  | count + 1, c :: rest => do
    let digit ← hexDigit? c
    readHex (16 * n + digit) count rest

/-- The text up to the closing quote, in at most `fuel` characters with the quote. -/
def readQuoted (escape : Reader Char) (plain : Char → Bool) : Nat → Reader (List Char)
  | 0, _ => none
  | _, [] => none
  | fuel + 1, c :: rest =>
    if c = '"' then some ([], rest)
    else if c = '\\' then do
      let (c, rest) ← escape rest
      let (cs, rest) ← readQuoted escape plain fuel rest
      some (c :: cs, rest)
    else if plain c then do
      let (cs, rest) ← readQuoted escape plain fuel rest
      some (c :: cs, rest)
    else none

end Text

end HostBridge
