import HostBridge.Value.Basic

/-!
Two equalities of host values.

Plain equality compares member by member: floats as numbers, so that a not-a-number differs
from itself, an integer never equals a float, and objects are compared by identity. The
equivalence that the engine's equality operator asks for relaxes this at three places: an
integer and a float are compared as numbers, a not-a-number is equivalent to itself, and
objects are compared by a relation that the host supplies.
-/

namespace HostBridge.Value

variable {α : Type}

/-! ### Plain equality -/

mutual

def equals : Value α → Value α → Bool
  | nil, nil => true
  | boolean b, boolean c => b == c
  | integer m, integer n => m == n
  | float x, float y => x.equals y
  | string s, string t => s == t
  | list xs, list ys => itemsEqual xs ys
  | dictionary xs, dictionary ys => fieldsEqual xs ys
  | map xs, map ys => pairsEqual xs ys
  | reference h, reference k => Term.handleEquals h k
  | object o, object p => o.same p
  | predicate f xs kw, predicate g ys lw => f == g && itemsEqual xs ys && kwargsEqual kw lw
  | var x, var y => x == y
  | expression f xs, expression g ys => f == g && itemsEqual xs ys
  | pattern t xs, pattern u ys => t == u && fieldsEqual xs ys
  | _, _ => false
termination_by structural v => v

def itemsEqual : List (Value α) → List (Value α) → Bool
  | [], [] => true
  | x :: xs, y :: ys => equals x y && itemsEqual xs ys
  | _, _ => false
termination_by structural xs => xs

def fieldsEqual : List (String × Value α) → List (String × Value α) → Bool
  | [], [] => true
  | (k, x) :: xs, (l, y) :: ys => k == l && equals x y && fieldsEqual xs ys
  | _, _ => false
termination_by structural xs => xs

def pairsEqual : List (Value α × Value α) → List (Value α × Value α) → Bool
  | [], [] => true
  | (k, x) :: xs, (l, y) :: ys => equals k l && equals x y && pairsEqual xs ys
  | _, _ => false
termination_by structural xs => xs

def kwargsEqual :
    Option (List (String × Value α)) → Option (List (String × Value α)) → Bool
  | none, none => true
  | some xs, some ys => fieldsEqual xs ys
  | _, _ => false
termination_by structural xs => xs

end

/-! ### Equivalence -/

/-- Numeric equality under which a not-a-number equals itself. -/
def numbersAgree (x y : Double) : Bool := x.equals y || (x.isNan && y.isNan)

variable (alike : Object α → Object α → Bool)

mutual

/-- Equivalence of values, objects being compared by `alike`. -/
def equivalent : Value α → Value α → Bool
  | nil, nil => true
  | boolean b, boolean c => b == c
  | integer m, integer n => m == n
  | integer m, float y => numbersAgree (.ofInt m.toInt) y
  | float x, integer n => numbersAgree x (.ofInt n.toInt)
  | float x, float y => numbersAgree x y
  | string s, string t => s == t
  | list xs, list ys => itemsEquivalent xs ys
  | dictionary xs, dictionary ys => fieldsEquivalent xs ys
  | map xs, map ys => pairsEquivalent xs ys
  | reference h, reference k => Term.handleEquals h k
  | object o, object p => alike o p
  | predicate f xs kw, predicate g ys lw =>
    f == g && itemsEquivalent xs ys && kwargsEquivalent kw lw
  | var x, var y => x == y
  | expression f xs, expression g ys => f == g && itemsEquivalent xs ys
  | pattern t xs, pattern u ys => t == u && fieldsEquivalent xs ys
  | _, _ => false
termination_by structural v => v

def itemsEquivalent : List (Value α) → List (Value α) → Bool
  | [], [] => true
  | x :: xs, y :: ys => equivalent x y && itemsEquivalent xs ys
  | _, _ => false
termination_by structural xs => xs

def fieldsEquivalent : List (String × Value α) → List (String × Value α) → Bool
  | [], [] => true
  | (k, x) :: xs, (l, y) :: ys => k == l && equivalent x y && fieldsEquivalent xs ys
  | _, _ => false
termination_by structural xs => xs

def pairsEquivalent : List (Value α × Value α) → List (Value α × Value α) → Bool
  | [], [] => true
  | (k, x) :: xs, (l, y) :: ys => equivalent k l && equivalent x y && pairsEquivalent xs ys
  | _, _ => false
termination_by structural xs => xs

def kwargsEquivalent :
    Option (List (String × Value α)) → Option (List (String × Value α)) → Bool
  | none, none => true
  | some xs, some ys => fieldsEquivalent xs ys
  | _, _ => false
termination_by structural xs => xs

end

end HostBridge.Value
