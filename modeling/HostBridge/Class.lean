import HostBridge.Error
import HostBridge.Text.Quoted
import HostBridge.Value.Basic

/-!
Classes: the names by which policies know types of host objects.

A class may be backed by a type of host objects, which is known by its name. Its constructors are
tried in the order in which they were added, and an equality hook may compare its objects by what
they hold. A class that is put together for one type builds objects of that type only.
-/

namespace HostBridge

/-- One way to build an object from positional arguments. -/
structure Constructor (α : Type) where
  /-- The exact number of arguments; none if any number will do. -/
  arity : Option Nat
  /-- What the object holds, or why the arguments are rejected. -/
  build : List (Value α) → Except String (Content α)

def Constructor.accepts {α : Type} (k : Constructor α) (count : Nat) : Bool :=
  match k.arity with
  | none => true
  | some n => n == count

structure Class (α : Type) where
  name : String
  /-- The name of the type of the class's objects. -/
  typeName : Option String
  constructors : List (Constructor α)
  equality : Option (Content α → Content α → Bool)

namespace Class

variable {α : Type}

/-- A class without a type, which only stands in ancestries. -/
def named (name : String) : Class α := ⟨name, none, [], none⟩

def hasConstructor (c : Class α) : Bool := !c.constructors.isEmpty

/-- The first success of the constructors, or else the last failure. -/
def firstBuilt (args : List (Value α)) :
    List (Constructor α) → Option String → Except (Option String) (Content α)
  | [], failure => .error failure
  | k :: rest, _ =>
    match k.build args with
    | .ok content => .ok content
    | .error message => firstBuilt args rest (some message)

/-- What a new object of the class holds, built from positional arguments. -/
def construct (c : Class α) (args : List (Value α)) : Except ClassError (Content α) :=
  if c.constructors.isEmpty then
    .error (.notConstructed c.name "class has no registered constructor")
  else
    match firstBuilt args (c.constructors.filter (·.accepts args.length)) none with
    | .ok content => .ok content
    | .error failure => .error (.notConstructed c.name
        (failure.getD s!"no constructor takes {args.length} argument(s)"))

def describe (c : Class α) : String :=
  let type := match c.typeName with
    | none => "None"
    | some name => s!"Some({Text.quoted name})"
  s!"Class \x7b name: {Text.quoted c.name}, type: {type}, " ++
    s!"constructors: {c.constructors.length}, equality: {c.equality.isSome} \x7d"

/-- What the constructors of a class build is of the class's type. -/
def WellTyped (c : Class α) : Prop :=
  ∀ k ∈ c.constructors, ∀ args content, k.build args = .ok content →
    c.typeName = some content.typeName

end Class

/-- A class of one type of objects: all that its constructors build is of that type. -/
structure TypedClass (α : Type) extends Class α where
  wellTyped : toClass.WellTyped

namespace TypedClass

variable {α : Type}

/-- A class of a type, without constructors. -/
def ofType (name typeName : String) : TypedClass α where
  toClass := ⟨name, some typeName, [], none⟩
  wellTyped := nofun

/-- Adds a constructor, which builds objects of the type only. -/
def addConstructor (c : TypedClass α) (arity : Option Nat)
    (build : List (Value α) →
      Except String { content : Content α // c.typeName = some content.typeName }) :
    TypedClass α where
  toClass := { c.toClass with
    constructors := c.constructors ++ [⟨arity, fun args => (build args).map (·.val)⟩] }
  wellTyped := by
    intro k hk args content hbuild
    rcases List.mem_append.mp hk with hk | hk
    · exact c.wellTyped k hk args content hbuild
    · obtain rfl := List.mem_singleton.mp hk
      dsimp only at hbuild
      cases hresult : build args with
      | error message => rw [hresult] at hbuild; cases hbuild
      | ok built => rw [hresult] at hbuild; cases hbuild; exact built.property

/-- Sets the hook by which objects of the class are compared. -/
def withEquality (c : TypedClass α) (hook : Content α → Content α → Bool) : TypedClass α where
  toClass := { c.toClass with equality := some hook }
  wellTyped := c.wellTyped

end TypedClass

end HostBridge
