import HostBridge.Object
import HostBridge.Table
import HostBridge.Term.Basic

/-!
Host values.

These are the values that host code and the engine exchange: primitives, containers, the
symbolic values that the engine emits, references to instances as they stand on the wire, and
host objects. A dictionary is keyed by text in ascending order; a map has any keys, in any
order.
-/

namespace HostBridge

inductive Value (α : Type) where
  /-- The absent value, which the engine knows as the instance of the session's nil object. -/
  | nil
  | boolean (value : Bool)
  | integer (value : Int32)
  | float (value : Double)
  | string (text : String)
  | list (items : List (Value α))
  | dictionary (fields : List (String × Value α))
  | map (pairs : List (Value α × Value α))
  /-- A reference to an instance, not yet resolved to its object. -/
  | reference (handle : Handle Term)
  | object (object : Object α)
  | predicate (name : String) (args : List (Value α))
      (kwargs : Option (List (String × Value α)))
  | var (name : String)
  | expression (operator : Operator) (args : List (Value α))
  | pattern (tag : Option String) (fields : List (String × Value α))
deriving Repr, Inhabited

namespace Value

variable {α : Type}

/-- The name of the kind of a value. -/
def kind : Value α → String
  | nil => "nil"
  | boolean _ => "boolean"
  | integer _ => "integer"
  | float _ => "float"
  | string _ => "string"
  | list _ => "list"
  | dictionary _ => "dictionary"
  | map _ => "map"
  | reference _ => "instance"
  | object _ => "object"
  | predicate .. => "predicate"
  | var _ => "variable"
  | expression .. => "expression"
  | pattern .. => "pattern"

/-! ### Views -/

def isNil : Value α → Bool
  | nil => true
  | _ => false

def string? : Value α → Option String
  | string s => some s
  | _ => none

def integer? : Value α → Option Int32
  | integer n => some n
  | _ => none

def boolean? : Value α → Option Bool
  | boolean b => some b
  | _ => none

/-- The number that an integer or a float denotes. -/
def number? : Value α → Option Double
  | integer n => some (.ofInt n.toInt)
  | float x => some x
  | _ => none

def object? : Value α → Option (Object α)
  | object o => some o
  | _ => none

/-! ### Tables with any keys -/

/-- The entries of pairs whose keys are all text. -/
def textEntries? : List (Value α × Value α) → Option (List (String × Value α))
  | [] => some []
  | (string key, value) :: rest => (textEntries? rest).map ((key, value) :: ·)
  | _ :: _ => none

/-- The value of a native table: a dictionary if every key is text, and else a map. -/
def ofPairs (pairs : List (Value α × Value α)) : Value α :=
  match textEntries? pairs with
  | some entries => dictionary (Table.ofList entries)
  | none => map pairs

end Value

end HostBridge
