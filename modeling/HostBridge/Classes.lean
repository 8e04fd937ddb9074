import HostBridge.Class
import HostBridge.Table

/-!
The class table of a session.

Names are unique. A type, known by its name, is answered with the class that was first registered
over it. The ancestry of a class is a chain of registered names that starts with its own, nearest
ancestor first; a class for which none was recorded is its own sole ancestor.
-/

namespace HostBridge

structure Classes (α : Type) where
  byName : Table String (Class α)
  /-- The name of the first class over each type. -/
  byType : Table String String
  ancestries : Table String (List String)

namespace Classes

variable {α : Type}

def empty : Classes α := ⟨[], [], []⟩

def contains (t : Classes α) (name : String) : Bool := Table.contains name t.byName

def get (t : Classes α) (name : String) : Except ClassError (Class α) :=
  match t.byName.lookup name with
  | some c => .ok c
  | none => .error (.unknown name)

/-- The names of the classes, in ascending order. -/
def names (t : Classes α) : List String := Table.keys t.byName

def size (t : Classes α) : Nat := t.byName.length

/-- The name of the class that stands for a type. -/
def nameOf? (t : Classes α) (typeName : String) : Option String := t.byType.lookup typeName

/-- The name of an object's class. -/
def classOf? (t : Classes α) (o : Object α) : Option String := t.nameOf? o.typeName

/-- The state in which a class of a new name has been added. -/
def add (t : Classes α) (c : Class α) : Classes α where
  byName := Table.insert c.name c t.byName
  byType := match c.typeName with
    | some typeName => Table.insertNew typeName c.name t.byType
    | none => t.byType
  ancestries := t.ancestries

def register (c : Class α) : EStateM ClassError (Classes α) Unit := fun t =>
  if t.contains c.name then .error (.nameTaken c.name) t else .ok () (t.add c)

/-! ### Ancestry -/

/-- The chain of a class: its own name stands first, and is put there if it does not. -/
def chainOf (name : String) (ancestors : List String) : List String :=
  if ancestors.head? = some name then ancestors else name :: ancestors

/-- The chain of a class, if every name in it is registered. -/
def validateAncestry (t : Classes α) (name : String) (ancestors : List String) :
    Except ClassError (List String) :=
  let chain := chainOf name ancestors
  match chain.find? (!t.contains ·) with
  | some unknown => .error (.unknown unknown)
  | none => .ok chain

def registerAncestry (name : String) (ancestors : List String) :
    EStateM ClassError (Classes α) Unit := fun t =>
  match t.validateAncestry name ancestors with
  | .ok chain => .ok () { t with ancestries := Table.insert name chain t.ancestries }
  | .error e => .error e t

/-- The chain of a registered class. -/
def ancestry (t : Classes α) (name : String) : Except ClassError (List String) :=
  if t.contains name then .ok ((t.ancestries.lookup name).getD [name])
  else .error (.unknown name)

/-- Whether a class is another or descends from it; both must be registered. -/
def isSubclass (t : Classes α) (left right : String) : Except ClassError Bool := do
  let chain ← t.ancestry left
  if t.contains right then .ok (chain.contains right) else .error (.unknown right)

/-! ### Equality of objects -/

/-- What the equality hook of the objects' common class says, if there is one. -/
def equal? (t : Classes α) (o p : Object α) : Option Bool :=
  if o.typeName = p.typeName then do
    let name ← t.classOf? o
    let c ← t.byName.lookup name
    let hook ← c.equality
    some (hook o.content p.content)
  else none

/-- Objects are alike when they are the same, or their class's hook says that they are equal. -/
def alike (t : Classes α) (o p : Object α) : Bool := o.same p || (t.equal? o p).getD false

def describe (t : Classes α) : String :=
  let names := ", ".intercalate (t.names.map Text.quoted)
  s!"ClassRegistry \x7b classes: [{names}] \x7d"

end Classes

end HostBridge
