import HostBridge.Toml.Moment
import HostBridge.Toml.Number
import HostBridge.Toml.Text

/-!
Reading TOML documents.

Arrays and inline tables may contain one another to a fixed depth, by which the reader of values
recurses. Keys, items and lines take at least one character each, so the length of a text bounds
how many there are.
-/

namespace HostBridge.Toml

/-- How many arrays and inline tables may contain one another, and the parts of a dotted key. -/
def maxDepth : Nat := 79

/-! ### Keys -/

def isBare (c : Char) : Bool := c.isAlphanum || c = '_' || c = '-'

/-- A part of a dotted key. -/
def readPart : Reader String
  | '"' :: rest => readBasic rest
  | '\'' :: rest => readLiteral rest
  | cs =>
    match cs.takeWhile isBare with
    | [] => none
    | name => some (String.ofList name, cs.dropWhile isBare)

/-- A key of at most so many parts: the parts before the last, and the last. -/
def readKey : Nat → Reader (List String × String)
  | 0, _ => none
  | count + 1, cs => do
    let (part, rest) ← readPart (skipBlanks cs)
    match skipBlanks rest with
    | '.' :: rest => do
      let ((path, key), rest) ← readKey count rest
      some ((part :: path, key), rest)
    | rest => some (([], part), rest)

/-- A key, an equals sign and a value. -/
def readAssignment (value : Reader Value) : Reader (List String × String × Value) := fun cs => do
  let ((path, key), rest) ← readKey maxDepth cs
  let (v, rest) ← value (skipBlanks (← skipMark '=' rest))
  some ((path, key, v), rest)

/-! ### Values -/

/-- A value other than an array or a table. -/
def readScalar : Reader Value
  | 't' :: 'r' :: 'u' :: 'e' :: rest => some (.boolean true, rest)
  | 'f' :: 'a' :: 'l' :: 's' :: 'e' :: rest => some (.boolean false, rest)
  | '"' :: '"' :: '"' :: rest => (skipBlock '"' rest.length rest).map fun rest => (.other, rest)
  | '\'' :: '\'' :: '\'' :: rest =>
    (skipBlock '\'' rest.length rest).map fun rest => (.other, rest)
  | '"' :: rest => (readBasic rest).map fun (_, rest) => (.other, rest)
  | '\'' :: rest => (readLiteral rest).map fun (_, rest) => (.other, rest)
  | cs => (readMoment cs).or (readNumber cs)

/-- What follows blanks, line ends and comments; a comment reaches to the end of its line. -/
def skipGaps (inComment : Bool) : List Char → List Char
  | [] => []
  | c :: rest =>
    if inComment ∧ isPlain c then skipGaps true rest
    else if isBlank c ∨ c = '\n' then skipGaps false rest
    else if c = '#' then skipGaps true rest
    else if c = '\r' then
      match rest with
      | '\n' :: rest => skipGaps false rest
      | _ => c :: rest
    else c :: rest

/-- What follows the items of an array, a comma allowed after the last. -/
def skipItems (value : Reader Value) : Nat → List Char → Option (List Char)
  | 0, _ => none
  | fuel + 1, cs =>
    match skipGaps false cs with
    | ']' :: rest => some rest
    | cs => do
      let (_, rest) ← value cs
      match skipGaps false rest with
      | ',' :: rest => skipItems value fuel rest
      | ']' :: rest => some rest
      | _ => none

/-- What follows the assignments of an inline table, none of them repeated. -/
def skipMembers (value : Reader Value) (entries : Entries) : Nat → List Char → Option (List Char)
  | 0, _ => none
  | fuel + 1, cs => do
    let ((path, key, v), rest) ← readAssignment value cs
    let entries ← entries.assign path key v .header
    match skipBlanks rest with
    | ',' :: rest => skipMembers value entries fuel rest
    | '\x7d' :: rest => some rest
    | _ => none

/-- What follows an inline table, after its opening brace. -/
def skipInlineTable (value : Reader Value) (cs : List Char) : Option (List Char) :=
  match skipBlanks cs with
  | '\x7d' :: rest => some rest
  | cs => skipMembers value [] cs.length cs

/-- A value in which arrays and inline tables contain one another to at most the given depth. -/
def readValue : Nat → Reader Value
  | 0 => readScalar
  | depth + 1 => fun
    | '[' :: rest =>
      (skipItems (readValue depth) (rest.length + 1) rest).map fun rest => (.other, rest)
    | '\x7b' :: rest => (skipInlineTable (readValue depth) rest).map fun rest => (.other, rest)
    | cs => readScalar cs

/-! ### Lines -/

/-- What follows a comment, which may be left out. -/
def skipComment : List Char → List Char
  | '#' :: rest => rest.dropWhile isPlain
  | cs => cs

/-- What follows the rest of a line, which may hold blanks and a comment only. -/
def finishLine? (cs : List Char) : Option (List Char) :=
  match skipComment (skipBlanks cs) with
  | [] => some []
  | cs => lineEnd? cs

def readLine : Reader Line := fun cs =>
  match skipBlanks cs with
  | '[' :: '[' :: rest => do
    let ((path, key), rest) ← readKey maxDepth rest
    let rest ← finishLine? (← skipMark ']' (← skipMark ']' rest))
    some (.element path key, rest)
  | '[' :: rest => do
    let ((path, key), rest) ← readKey maxDepth rest
    let rest ← finishLine? (← skipMark ']' rest)
    some (.table path key, rest)
  | cs =>
    match finishLine? cs with
    | some rest => some (.blank, rest)
    | none => do
      let ((path, key, v), rest) ← readAssignment (readValue maxDepth) cs
      let rest ← finishLine? rest
      some (.assignment path key v, rest)

def readLines : Nat → List Char → Option (List Line)
  | _, [] => some []
  | 0, _ => none
  | fuel + 1, cs => do
    let (line, rest) ← readLine cs
    let lines ← readLines fuel rest
    some (line :: lines)

/-- The document of a whole text, which may begin with a byte order mark. -/
def parse? (text : String) : Option Document := do
  let cs := match text.toList with
    | '\uFEFF' :: rest => rest
    | cs => cs
  let lines ← readLines cs.length cs
  Document.ofLines? lines

end HostBridge.Toml
