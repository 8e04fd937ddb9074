import HostBridge.Object
import HostBridge.Step
import HostBridge.Table

/-!
The instances of a session: host objects under the ids by which the engine refers to them.

Two tables are kept. One holds the object of every bound id; the other holds, for every bound
object, the id under which it was first bound. Beside them stands the next id to be issued,
which is past every id ever bound and is gone once the greatest id has been bound. Clearing
the tables keeps it, so no id is issued twice.
-/

namespace HostBridge

abbrev InstanceId := UInt64

/-- The greatest id. -/
def InstanceId.greatest : InstanceId := 0xFFFFFFFFFFFFFFFF

/-- The id after an id, if there is one. -/
def InstanceId.next? (id : InstanceId) : Option InstanceId :=
  if id = greatest then none else some (id + 1)

structure Instances (α : Type) where
  byId : Table InstanceId (Object α)
  firstId : Table Nat InstanceId
  /-- The next id to be issued; none once the ids are exhausted. -/
  next : Option InstanceId

namespace Instances

variable {α : Type}

/-- No instance is bound, and ids are issued from one upward. -/
def empty : Instances α := ⟨[], [], some 1⟩

def object? (s : Instances α) (id : InstanceId) : Option (Object α) := s.byId.lookup id

/-- The id under which an object was first bound. -/
def idOf? (s : Instances α) (o : Object α) : Option InstanceId := s.firstId.lookup o.address

def has (s : Instances α) (id : InstanceId) : Bool := (s.object? id).isSome

def size (s : Instances α) : Nat := s.byId.length

def get (s : Instances α) (id : InstanceId) : Except InstanceError (Object α) :=
  match s.object? id with
  | some o => .ok o
  | none => .error (.unbound id)

/-- The next id to be issued after an id has been bound. -/
def nextPast (next : Option InstanceId) (id : InstanceId) : Option InstanceId :=
  match next with
  | some n => if n ≤ id then id.next? else some n
  | none => none

/-- The state in which an id is bound to an object. -/
def bind (s : Instances α) (o : Object α) (id : InstanceId) : Instances α where
  byId := Table.insert id o s.byId
  firstId := Table.insertNew o.address id s.firstId
  next := nextPast s.next id

/-- The id of an object, which is bound to the next id if it has none. -/
def register (o : Object α) : EStateM InstanceError (Instances α) InstanceId := fun s =>
  match s.idOf? o with
  | some id => .ok id s
  | none =>
    match s.next with
    | none => .error .exhausted s
    | some id =>
      match s.object? id with
      | some existing => .error (.taken id existing.repr o.repr) s
      | none => .ok id (s.bind o id)

/-- Binds an object to an id that the engine chose; an id is never bound anew. -/
def registerWithId (o : Object α) (id : InstanceId) :
    EStateM InstanceError (Instances α) Unit := fun s =>
  match s.object? id with
  | some existing =>
    if existing.same o then .ok () s else .error (.taken id existing.repr o.repr) s
  | none => .ok () (s.bind o id)

/-- Every instance is dropped; ids go on where they were. -/
def clear (s : Instances α) : Instances α := { s with byId := [], firstId := [] }

def describe (s : Instances α) : String := s!"InstanceRegistry \x7b count: {s.size} \x7d"

end Instances

end HostBridge
