import HostBridge.Double.Basic
import HostBridge.Table

/-!
JSON trees.

A number is either an integer that fits in 64 bits, signed or unsigned, or a finite double;
which of the two it is depends on how it was written and is never forgotten. The members of
an object are a list of entries. A tree is canonical when the keys of every object ascend, so
that a canonical tree has one written form.
-/

namespace HostBridge

inductive Json.Number where
  | integer (value : Int) (inRange : -0x8000000000000000 ≤ value ∧ value < 0x10000000000000000)
  | float (value : FiniteDouble)
deriving DecidableEq, Repr

inductive Json where
  | null
  | boolean (value : Bool)
  | number (value : Json.Number)
  | string (value : String)
  | array (items : List Json)
  | object (members : List (String × Json))
deriving Repr, Inhabited

namespace Json

/-! ### Numbers -/

namespace Number

def ofInt? (n : Int) : Option Number :=
  if h : -0x8000000000000000 ≤ n ∧ n < 0x10000000000000000 then some (.integer n h) else none

/-- A double is a JSON number unless it is infinite or not a number. -/
def ofDouble? : Double → Option Number
  | .finite x => some (.float x)
  | _ => none

def ofWord (n : UInt64) : Number :=
  .integer n.toNat ⟨by omega, by have := n.toNat_lt; omega⟩

def ofInt32 (n : Int32) : Number :=
  .integer n.toInt ⟨by have := n.le_toInt; omega, by have := n.toInt_lt; omega⟩

/-- The value of an integer that is not negative. -/
def word? : Number → Option UInt64
  | .integer n _ => if 0 ≤ n then some (UInt64.ofNat n.toNat) else none
  | .float _ => none

/-- The value of an integer below `2 ^ 63`. -/
def signed? : Number → Option Int
  | .integer n _ => if n < 0x8000000000000000 then some n else none
  | .float _ => none

def toDouble : Number → Double
  | .integer n _ => Double.ofInt n
  | .float x => .finite x

end Number

/-! ### Trees -/

/-- The name of the kind of a tree's root. -/
def kind : Json → String
  | null => "null"
  | boolean _ => "boolean"
  | number _ => "number"
  | string _ => "string"
  | array _ => "array"
  | object _ => "object"

def ofWord (n : UInt64) : Json := .number (.ofWord n)

def ofInt32 (n : Int32) : Json := .number (.ofInt32 n)

def ofOption {α : Type} (encode : α → Json) : Option α → Json
  | none => null
  | some a => encode a

mutual

/-- How many arrays and objects contain one another along the deepest branch. -/
def depth : Json → Nat
  | array items => itemsDepth items + 1
  | object members => membersDepth members + 1
  | _ => 0

def itemsDepth : List Json → Nat
  | [] => 0
  | item :: rest => max (depth item) (itemsDepth rest)

def membersDepth : List (String × Json) → Nat
  | [] => 0
  | (_, value) :: rest => max (depth value) (membersDepth rest)

end

mutual

/-- The tree with the members of every object in ascending order, the last of a key kept. -/
def canonical : Json → Json
  | array items => array (canonicalItems items)
  | object members => object (Table.ofList (canonicalMembers members))
  | json => json

def canonicalItems : List Json → List Json
  | [] => []
  | item :: rest => canonical item :: canonicalItems rest

def canonicalMembers : List (String × Json) → List (String × Json)
  | [] => []
  | (key, value) :: rest => (key, canonical value) :: canonicalMembers rest

end

end Json

end HostBridge
