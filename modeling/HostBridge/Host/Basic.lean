import HostBridge.Codec
import HostBridge.Config.Basic
import HostBridge.Value.Equality

/-!
A host session.

A session holds its settings, its instances and classes, and the object that stands for the
absent value, which is bound to id zero as long as the session lasts. It also hands out the
addresses of new objects: an object is new when its address has not been used.
-/

namespace HostBridge

structure Host (α : Type) where
  config : Config
  instances : Instances α
  classes : Classes α
  nil : Object α
  /-- The address of the next new object. -/
  fresh : Nat

namespace Host

variable {α β : Type}

/-- The id of the absent value. -/
def nilId : InstanceId := 0

/-- A session over a prepared class table. -/
def withClasses (config : Config) (classes : Classes α) : Host α :=
  let nil : Object α := ⟨0, .nil⟩
  { config, classes, nil, instances := Instances.empty.bind nil nilId, fresh := 1 }

def new (config : Config) : Host α := withClasses config .empty

def codec (h : Host α) : Codec α where
  classes := h.classes
  nil := h.nil
  acceptExpression := h.config.acceptExpression
  rejectUnregistered := h.config.rejectUnregistered

def setAcceptExpression (h : Host α) (accept : Bool) : Host α :=
  { h with config := { h.config with acceptExpression := accept } }

/-! ### Steps on a part -/

def onInstances (step : Step (Instances α) β) : Step (Host α) β :=
  Step.onPart (·.instances) (fun h instances => { h with instances }) step

def onClasses (step : Step (Classes α) β) : Step (Host α) β :=
  Step.onPart (·.classes) (fun h classes => { h with classes }) step

/-! ### Terms and values -/

/-- The term of a value. -/
def toTerm (v : Value α) : Step (Host α) Term := fun h => onInstances (h.codec.encode v) h

/-- The value of a term, references unresolved. -/
def toValue (h : Host α) (t : Term) : Except Error (Value α) := h.codec.decode t

/-- The value of a term, references resolved. -/
def toResolved (h : Host α) (t : Term) : Except Error (Value α) :=
  h.codec.decodeResolved h.instances t

/-- A value with each reference swapped for what it stands for. -/
def resolve (h : Host α) (v : Value α) : Except Error (Value α) := h.codec.resolve h.instances v

/-- The values of several terms, references resolved. -/
def toResolvedList (h : Host α) : List Term → Except Error (List (Value α))
  | [] => .ok []
  | t :: rest => do
    let v ← h.toResolved t
    let vs ← toResolvedList h rest
    .ok (v :: vs)

/-- The equivalence that the equality operator asks for. -/
def valuesEqual (h : Host α) (v w : Value α) : Bool := v.equivalent h.classes.alike w

/-! ### Classes and instances -/

def registerClass (c : Class α) : Step (Host α) Unit :=
  onClasses (Step.widen (Classes.register c))

def registerAncestry (name : String) (ancestors : List String) : Step (Host α) Unit :=
  onClasses (Step.widen (Classes.registerAncestry name ancestors))

/-- A new object. -/
def allocate (content : Content α) : Step (Host α) (Object α) := fun h =>
  .ok ⟨h.fresh, content⟩ { h with fresh := h.fresh + 1 }

/-- The id of an object, which is given one if it has none. -/
def cacheInstance (o : Object α) : Step (Host α) InstanceId :=
  onInstances (Step.widen (Instances.register o))

/-- Binds a new object to the next id. -/
def cacheNew (content : Content α) : Step (Host α) InstanceId := fun h =>
  match Instances.register ⟨h.fresh, content⟩ h.instances with
  | .ok id instances => .ok id { h with instances, fresh := h.fresh + 1 }
  | .error e _ => .error (.instances e) h

def getInstance (h : Host α) (id : InstanceId) : Except Error (Object α) :=
  (h.instances.get id).mapError .instances

/-- Every instance is dropped but the absent value, which is bound again. -/
def endSession : Step (Host α) Unit := do
  modify fun h => { h with instances := h.instances.clear }
  let h ← get
  onInstances (Step.widen (Instances.registerWithId h.nil nilId))

def describe (h : Host α) : String :=
  s!"Host \x7b config: {h.config.describe}, instances: {h.instances.describe}, " ++
  s!"classes: {h.classes.describe} \x7d"

end Host

end HostBridge
