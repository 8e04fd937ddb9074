/-!
The operators of the policy language, by their names on the wire.
-/

namespace HostBridge

inductive Operator where
  | debug | print | cut | isIn | isa | new | dot | not
  | mul | div | mod | rem | add | sub
  | eq | geq | leq | neq | gt | lt
  | unify | or | and | forAll | assign
deriving DecidableEq, Repr

namespace Operator

/-- Every operator, in the order of the language's grammar. -/
def all : List Operator :=
  [debug, print, cut, isIn, isa, new, dot, not, mul, div, mod, rem, add, sub,
   eq, geq, leq, neq, gt, lt, unify, or, and, forAll, assign]

def name : Operator → String
  | debug => "Debug"
  | print => "Print"
  | cut => "Cut"
  | isIn => "In"
  | isa => "Isa"
  | new => "New"
  | dot => "Dot"
  | not => "Not"
  | mul => "Mul"
  | div => "Div"
  | mod => "Mod"
  | rem => "Rem"
  | add => "Add"
  | sub => "Sub"
  | eq => "Eq"
  | geq => "Geq"
  | leq => "Leq"
  | neq => "Neq"
  | gt => "Gt"
  | lt => "Lt"
  | unify => "Unify"
  | or => "Or"
  | and => "And"
  | forAll => "ForAll"
  | assign => "Assign"

/-- The operator of a name; names are exact. -/
def ofName? (name : String) : Option Operator := all.find? (·.name == name)

@[simp] theorem ofName?_name (op : Operator) : ofName? op.name = some op := by
  cases op <;> decide

theorem name_of_ofName? {name : String} {op : Operator} (h : ofName? name = some op) :
    op.name = name := by
  simpa using List.find?_some h

end Operator

end HostBridge
