import HostBridge.Text.Reader

/-!
Text in TOML documents: blanks, ends of lines and strings.

A string stands on one line between quotes or apostrophes, or on many lines between three of
them. Only between quotes are there escapes. What a string of many lines holds is passed over.
-/

namespace HostBridge.Toml

def isBlank (c : Char) : Bool := c = ' ' || c = '\t'

def skipBlanks (cs : List Char) : List Char := cs.dropWhile isBlank

/-- What follows the end of a line. -/
def lineEnd? : List Char → Option (List Char)
  | '\n' :: rest => some rest
  | '\r' :: '\n' :: rest => some rest
  | _ => none

/-- What follows a mark. -/
def skipMark (mark : Char) : List Char → Option (List Char)
  | [] => none
  | c :: rest => if c = mark then some rest else none

/-- A character that may stand in text: of the controls only the tab. -/
def isPlain (c : Char) : Bool := c = '\t' || 32 ≤ c.toNat && c.toNat ≠ 127

/-! ### Strings -/

/-- The character whose number is written in so many hexadecimal digits. -/
def readUnicode (count : Nat) : Reader Char := fun cs => do
  let (n, rest) ← Text.readHex 0 count cs
  if n.isValidChar then some (Char.ofNat n, rest) else none

/-- What follows a backslash. -/
def readEscape : Reader Char
  | '"' :: rest => some ('"', rest)
  | '\\' :: rest => some ('\\', rest)
  | 'b' :: rest => some (Char.ofNat 8, rest)
  | 't' :: rest => some ('\t', rest)
  | 'n' :: rest => some ('\n', rest)
  | 'f' :: rest => some (Char.ofNat 12, rest)
  | 'r' :: rest => some ('\r', rest)
  | 'u' :: rest => readUnicode 4 rest
  | 'U' :: rest => readUnicode 8 rest
  | _ => none

/-- A string with escapes, after its opening quote. -/
def readBasic : Reader String := fun cs =>
  (Text.readQuoted readEscape isPlain cs.length cs).map fun (s, rest) => (String.ofList s, rest)

/-- A string without escapes, after its opening apostrophe. -/
def readLiteral : Reader String := fun cs =>
  let isContent (c : Char) := isPlain c && c ≠ '\''
  match cs.dropWhile isContent with
  | '\'' :: rest => some (String.ofList (cs.takeWhile isContent), rest)
  | _ => none

/-- What follows a backslash and the escape, or the end of the line, that it introduces. -/
def skipEscape (cs : List Char) : Option (List Char) :=
  match readEscape cs with
  | some (_, rest) => some rest
  | none => lineEnd? (skipBlanks cs)

/--
What follows a string of many lines, after its opening quotes. One or two quotes are content;
three end the string, and up to two more before them are content.
-/
def skipBlock (quote : Char) : Nat → List Char → Option (List Char)
  | 0, _ => none
  | _, [] => none
  | fuel + 1, c :: rest =>
    if c = quote then
      let more := (rest.takeWhile (· = quote)).length
      let rest := rest.dropWhile (· = quote)
      if more < 2 then skipBlock quote fuel rest
      else if more < 5 then some rest
      else none
    else if c = '\\' ∧ quote = '"' then do
      let rest ← skipEscape rest
      skipBlock quote fuel rest
    else if isPlain c then skipBlock quote fuel rest
    else do
      let rest ← lineEnd? (c :: rest)
      skipBlock quote fuel rest

end HostBridge.Toml
