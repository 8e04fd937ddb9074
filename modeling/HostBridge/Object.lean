import HostBridge.Text.Quoted

/-!
Host objects.

An object is known by its address: two handles are the same object exactly when they agree on
it. What it holds does not change, so the text that describes it is part of it. The library
knows two kinds of objects of its own, the absent value of a session and the stand-in of a
class; all others belong to the host, whose data `α` only the host's constructors and equality
hooks look at.

The type of an object is known by its name, which stands for the identity of the type: no two types
have the same name here, so that what is told apart by type is told apart by name. Where the name
is shown, it is shown as it is.
-/

namespace HostBridge

inductive Content (α : Type) where
  | nil
  | classHandle (name : String)
  | foreign (typeName repr : String) (data : α)
deriving Repr

structure Object (α : Type) where
  address : Nat
  content : Content α
deriving Repr

/-- The name of the type of what an object holds, which stands for the type itself. -/
def Content.typeName {α : Type} : Content α → String
  | nil => "polar_host::host::Nil"
  | classHandle _ => "polar_host::polar::ClassHandle"
  | foreign typeName _ _ => typeName

/-- The text that describes what an object holds. -/
def Content.repr {α : Type} : Content α → String
  | nil => "Nil"
  | classHandle name => s!"ClassHandle \x7b name: {Text.quoted name} \x7d"
  | foreign _ repr _ => repr

namespace Object

variable {α : Type}

def typeName (o : Object α) : String := o.content.typeName

def repr (o : Object α) : String := o.content.repr

/-- Whether two objects are one and the same. -/
def same (o p : Object α) : Bool := o.address == p.address

@[simp] theorem same_self (o : Object α) : o.same o = true := by simp [same]

theorem same_comm (o p : Object α) : o.same p = p.same o := by simp [same, Bool.beq_comm]

theorem same_trans {o p q : Object α} (h : o.same p = true) (h' : p.same q = true) :
    o.same q = true := by simp_all [same]

end Object

end HostBridge
