import HostBridge.Decimal.Numeral
import HostBridge.Json.Library
import HostBridge.Text.Reader

/-!
Reading JSON text, with every numeral rounded to the nearest double.

Arrays and objects may contain one another to a fixed depth, by which the reader of values
recurses. Strings and lists of items are no longer than the whole text, whose length is given to
the readers as a limit, and bounds their loops.
-/

namespace HostBridge.Json

def skipBlanks (cs : List Char) : List Char := cs.dropWhile isBlank

/-! ### Strings -/

/-- A code unit, in four hexadecimal digits. -/
def readUnit : Reader Nat := Text.readHex 0 4

/-- The character of a code unit, or of a leading surrogate and the escape that follows it. -/
def readUnicode : Reader Char := fun cs => do
  let (unit, rest) ← readUnit cs
  if 0xD800 ≤ unit ∧ unit < 0xDC00 then
    match rest with
    | '\\' :: 'u' :: rest =>
      let (trail, rest) ← readUnit rest
      if 0xDC00 ≤ trail ∧ trail < 0xE000 then
        some (Char.ofNat (0x10000 + (unit - 0xD800) * 0x400 + (trail - 0xDC00)), rest)
      else none
    | _ => none
  else if 0xDC00 ≤ unit ∧ unit < 0xE000 then none
  else some (Char.ofNat unit, rest)

/-- What follows a backslash. -/
def readEscape : Reader Char
  | '"' :: rest => some ('"', rest)
  | '\\' :: rest => some ('\\', rest)
  | '/' :: rest => some ('/', rest)
  | 'b' :: rest => some (Char.ofNat 8, rest)
  | 'f' :: rest => some (Char.ofNat 12, rest)
  | 'n' :: rest => some ('\n', rest)
  | 'r' :: rest => some ('\r', rest)
  | 't' :: rest => some ('\t', rest)
  | 'u' :: rest => readUnicode rest
  | _ => none

/-- A character that stands for itself in a string, quote and backslash apart. -/
def isPlain (c : Char) : Bool := 32 ≤ c.toNat

/-- A string after its opening quote. -/
def readString (limit : Nat) : Reader String := fun cs =>
  (Text.readQuoted readEscape isPlain limit cs).map fun (s, rest) => (String.ofList s, rest)

/-! ### Numbers -/

/--
A whole numeral that fits in 64 bits is an integer, except that minus zero is the negative
zero; any other numeral is the nearest double, which must be finite.
-/
def Number.ofNumeral? (n : Numeral) : Option Number :=
  let asFloat := Number.ofDouble? (Double.ofDecimal n.negative n.size)
  if n.isWhole then
    let value : Int := Numeral.digitsValue n.whole
    if n.negative then
      if value = 0 then asFloat
      else if -0x8000000000000000 ≤ -value then Number.ofInt? (-value) else asFloat
    else if value < 0x10000000000000000 then Number.ofInt? value else asFloat
  else asFloat

def readNumber : Reader Number := fun cs => do
  let (numeral, rest) ← Numeral.read? cs
  let number ← Number.ofNumeral? numeral
  some (number, rest)

/-! ### Values -/

/-- A value that has a name. -/
def readNamed : Reader Json
  | 'n' :: 'u' :: 'l' :: 'l' :: rest => some (null, rest)
  | 't' :: 'r' :: 'u' :: 'e' :: rest => some (boolean true, rest)
  | 'f' :: 'a' :: 'l' :: 's' :: 'e' :: rest => some (boolean false, rest)
  | _ => none

/-- A value other than an array or object. -/
def readScalar (limit : Nat) : Reader Json
  | '"' :: rest => (readString limit rest).map fun (s, rest) => (string s, rest)
  | cs => readNamed cs <|> (readNumber cs).map fun (n, rest) => (number n, rest)

/-- One or more items parted by commas, up to the closing bracket. -/
def readItems {α : Type} (item : Reader α) (close : Char) : Nat → Reader (List α)
  | 0, _ => none
  | limit + 1, cs => do
    let (a, rest) ← item cs
    match skipBlanks rest with
    | [] => none
    | c :: rest =>
      if c = ',' then do
        let (as, rest) ← readItems item close limit rest
        some (a :: as, rest)
      else if c = close then some ([a], rest)
      else none

/-- The items of a sequence after its opening bracket. -/
def readSequence {α : Type} (limit : Nat) (item : Reader α) (close : Char) : Reader (List α) :=
  fun cs =>
    match skipBlanks cs with
    | [] => none
    | c :: rest =>
      if c = close then some ([], rest) else readItems item close limit (c :: rest)

/-- A key, a colon and a value, which is read as its key asks. -/
def readMember {α β : Type} (key : Reader α) (value : α → Reader β) : Reader (α × β) := fun cs =>
  match skipBlanks cs with
  | '"' :: rest => do
    let (key, rest) ← key rest
    match skipBlanks rest with
    | ':' :: rest => do
      let (value, rest) ← value key rest
      some ((key, value), rest)
    | _ => none
  | _ => none

/-- A value in which arrays and objects contain one another to at most the given depth. -/
def readValue (limit : Nat) : Nat → Reader Json
  | 0 => fun cs => readScalar limit (skipBlanks cs)
  | depth + 1 => fun cs =>
    match skipBlanks cs with
    | '[' :: rest =>
      (readSequence limit (readValue limit depth) ']' rest).map
        fun (items, rest) => (array items, rest)
    | '\x7b' :: rest =>
      (readSequence limit (readMember (readString limit) fun _ => readValue limit depth)
        '\x7d' rest).map fun (members, rest) => (object members, rest)
    | cs => readScalar limit cs

/-- What a reader, given a limit, makes of a whole text. -/
def readAll? {α : Type} (reader : Nat → Reader α) (text : String) : Option α :=
  let cs := text.toList
  match reader cs.length cs with
  | some (a, rest) => if (skipBlanks rest).isEmpty then some a else none
  | none => none

/-- The canonical tree of a whole text. -/
def parse? (text : String) : Option Json :=
  (readAll? (readValue · maxDepth) text).map canonical

end HostBridge.Json
