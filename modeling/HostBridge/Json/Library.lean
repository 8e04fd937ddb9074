import HostBridge.Json.Basic

/-!
Libraries that read and write JSON text.

Terms and events become text, and texts become terms and events, only through a library, of which
no more is known than what it reads and writes. A lawful one answers with canonical trees that are
nested no deeper than a limit, and reads back what it wrote within that limit. How a library rounds
a numeral is its own affair: a tree is read back if the library keeps each of its doubles.
-/

namespace HostBridge.Json

/-- How many arrays and objects may contain one another in a text. -/
def maxDepth : Nat := 127

def isBlank (c : Char) : Bool := c == ' ' || c == '\t' || c == '\n' || c == '\r'

mutual

/-- The doubles among the numbers of a tree. -/
def doubles : Json → List FiniteDouble
  | number (.float x) => [x]
  | array items => itemsDoubles items
  | object members => membersDoubles members
  | _ => []

def itemsDoubles : List Json → List FiniteDouble
  | [] => []
  | item :: rest => doubles item ++ itemsDoubles rest

def membersDoubles : List (String × Json) → List FiniteDouble
  | [] => []
  | (_, value) :: rest => doubles value ++ membersDoubles rest

end

class Library where
  /-- The tree of a whole text, or why the text has none. -/
  read : (text : String) → Except String Json
  /-- The text of a tree, without blanks. -/
  write : (json : Json) → String

/-- A double that the library reads back as it wrote it. -/
def Library.Keeps [Library] (x : FiniteDouble) : Prop :=
  read (write (.number (.float x))) = .ok (.number (.float x))

/-- A tree whose doubles the library keeps; so are all trees if it keeps every finite double. -/
def Kept [Library] (json : Json) : Prop := ∀ x ∈ json.doubles, Library.Keeps x

class LawfulLibrary [Library] : Prop where
  /-- What was written is read back, in canonical order, also with blanks behind it. -/
  read_write : ∀ {json : Json}, json.depth ≤ maxDepth → json.Kept →
    ∀ blanks : String, blanks.toList.all isBlank = true →
      Library.read (Library.write json ++ blanks) = .ok json.canonical
  /-- The keys of an object that was read ascend. -/
  canonical_of_read : ∀ {text : String} {json : Json},
    Library.read text = .ok json → json.canonical = json
  depth_of_read : ∀ {text : String} {json : Json},
    Library.read text = .ok json → json.depth ≤ maxDepth

end HostBridge.Json
