import HostBridge.Double.Basic
import HostBridge.Operator

/-!
Wire terms.

A term is the envelope of every value that the engine and the host exchange: two numbers of
provenance, assigned by the engine and never interpreted by the host, and a tagged payload.
The payload is generic in the terms it contains, so that a term is one recursive structure.
-/

namespace HostBridge

/-- The tags of payloads. -/
inductive Tag where
  | string | boolean | number | list | dictionary
  | external | call | var | expression | pattern
deriving DecidableEq, Repr

namespace Tag

def all : List Tag :=
  [string, boolean, number, list, dictionary, external, call, var, expression, pattern]

def name : Tag → String
  | string => "String"
  | boolean => "Boolean"
  | number => "Number"
  | list => "List"
  | dictionary => "Dictionary"
  | external => "ExternalInstance"
  | call => "Call"
  | var => "Variable"
  | expression => "Expression"
  | pattern => "Pattern"

def ofName? (name : String) : Option Tag := all.find? (·.name == name)

@[simp] theorem ofName?_name (tag : Tag) : ofName? tag.name = some tag := by
  cases tag <;> decide

theorem name_of_ofName? {name : String} {tag : Tag} (h : ofName? name = some tag) :
    tag.name = name := by
  simpa using List.find?_some h

end Tag

inductive Numeric where
  | integer (value : Int32)
  | float (value : Double)
deriving DecidableEq, Repr

/-- A reference to a host object by its instance id. -/
structure Handle (τ : Type) where
  id : UInt64
  /-- The call that made the object, if the engine made it. -/
  constructor : Option τ
  repr : Option String
  /-- The name of the object's class, if the class is registered. -/
  classRepr : Option String
  classId : Option UInt64
deriving Repr

/-- What a term carries; `τ` is the type of the terms inside. -/
inductive Payload (τ : Type) where
  | string (text : String)
  | boolean (value : Bool)
  | number (value : Numeric)
  | list (items : List τ)
  | dictionary (fields : List (String × τ))
  | external (handle : Handle τ)
  | call (name : String) (args : List τ) (kwargs : Option (List (String × τ)))
  | var (name : String)
  | expression (operator : Operator) (args : List τ)
  /-- A pattern over fields, of a class if it bears a tag. -/
  | pattern (tag : Option String) (fields : List (String × τ))
deriving Repr

def Payload.tag {τ : Type} : Payload τ → Tag
  | string .. => .string
  | boolean .. => .boolean
  | number .. => .number
  | list .. => .list
  | dictionary .. => .dictionary
  | external .. => .external
  | call .. => .call
  | var .. => .var
  | expression .. => .expression
  | pattern .. => .pattern

structure Term where
  id : UInt64
  offset : UInt64
  value : Payload Term
deriving Repr

namespace Term

/-- A term of the host: the engine fills in where it comes from. -/
def ofHost (value : Payload Term) : Term := ⟨0, 0, value⟩

instance : Inhabited Term := ⟨ofHost (.boolean false)⟩

def tag (t : Term) : Tag := t.value.tag

end Term

/-! ### Equality

Terms are equal member by member, where floats are compared as numbers: a term that holds a
not-a-number does not equal itself. -/

def Numeric.equals : Numeric → Numeric → Bool
  | .integer m, .integer n => m == n
  | .float x, .float y => x.equals y
  | _, _ => false

namespace Term

mutual

def equals : Term → Term → Bool
  | ⟨i, o, v⟩, ⟨j, p, w⟩ => i == j && o == p && payloadEquals v w
termination_by structural t => t

def payloadEquals : Payload Term → Payload Term → Bool
  | .string s, .string t => s == t
  | .boolean b, .boolean c => b == c
  | .number m, .number n => m.equals n
  | .list xs, .list ys => listEquals xs ys
  | .dictionary xs, .dictionary ys => fieldsEqual xs ys
  | .external h, .external k => handleEquals h k
  | .call f xs kw, .call g ys lw => f == g && listEquals xs ys && kwargsEqual kw lw
  | .var x, .var y => x == y
  | .expression f xs, .expression g ys => f == g && listEquals xs ys
  | .pattern t xs, .pattern u ys => t == u && fieldsEqual xs ys
  | _, _ => false
termination_by structural v => v

/-- Handles are equal when all that they say is equal. -/
def handleEquals : Handle Term → Handle Term → Bool
  | ⟨m, c, r, k, i⟩, ⟨n, d, s, l, j⟩ =>
    m == n && constructorEquals c d && r == s && k == l && i == j
termination_by structural h => h

def listEquals : List Term → List Term → Bool
  | [], [] => true
  | x :: xs, y :: ys => equals x y && listEquals xs ys
  | _, _ => false
termination_by structural ts => ts

def fieldsEqual : List (String × Term) → List (String × Term) → Bool
  | [], [] => true
  | (k, x) :: xs, (l, y) :: ys => k == l && equals x y && fieldsEqual xs ys
  | _, _ => false
termination_by structural ts => ts

def kwargsEqual : Option (List (String × Term)) → Option (List (String × Term)) → Bool
  | none, none => true
  | some xs, some ys => fieldsEqual xs ys
  | _, _ => false
termination_by structural ts => ts

def constructorEquals : Option Term → Option Term → Bool
  | none, none => true
  | some x, some y => equals x y
  | _, _ => false
termination_by structural t => t

end

end Term

end HostBridge
