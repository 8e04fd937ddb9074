import HostBridge.Host.Basic

/-!
What the engine asks of the host.

The engine cannot build host objects, does not know the ancestry of classes and cannot compare
host objects; it asks the host for all three. A question changes nothing. Only the making of an
instance does, and only if it succeeds.
-/

namespace HostBridge.Host

variable {α : Type}

/-! ### Making instances -/

/-- Builds an object of a class and binds it to the id that the engine chose. -/
def construct (name : String) (args : List (Value α)) (id : InstanceId) :
    Step (Host α) (Object α) := fun h =>
  match h.classes.get name with
  | .error e => .error (.classes e) h
  | .ok c =>
    match c.construct args with
    | .error e => .error (.classes e) h
    | .ok content =>
      let o : Object α := ⟨h.fresh, content⟩
      match Instances.registerWithId o id h.instances with
      | .error e _ => .error (.instances e) h
      | .ok _ instances => .ok o { h with instances, fresh := h.fresh + 1 }

/-- Builds an instance of a class from a list of positional arguments. -/
def makeInstance (name : String) (args : Term) (id : InstanceId) : Step (Host α) (Object α) :=
  fun h =>
    match args.value with
    | .list items =>
      match h.toResolvedList items with
      | .ok values => construct name values id h
      | .error e => .error e h
    | other =>
      .error (.term (.mismatch "constructor arguments" "List" other.tag.name)) h

/-- Builds an instance from the call that names its class; keyword arguments are refused. -/
def makeInstanceFromCall (call : Term) (id : InstanceId) : Step (Host α) (Object α) := fun h =>
  match call.value with
  | .call name args kwargs =>
    if (kwargs.getD []).isEmpty then
      match h.toResolvedList args with
      | .ok values => construct name values id h
      | .error e => .error e h
    else .error (.classes (.notConstructed name "keyword arguments are not supported")) h
  | other => .error (.term (.mismatch "constructor" "Call" other.tag.name)) h

/-! ### Classes of instances -/

/-- Whether the instance that a term refers to belongs to a class. -/
def isa (h : Host α) (t : Term) (name : String) : Except Error Bool :=
  match t.value with
  | .external handle => do
    let o ← h.getInstance handle.id
    if h.classes.contains name then
      match h.classes.classOf? o with
      | some own => (h.classes.isSubclass own name).mapError .classes
      | none => .ok false
    else .error (.classes (.unknown name))
  | other => .error (.term (.mismatch "isa instance" "ExternalInstance" other.tag.name))

def isSubclass (h : Host α) (left right : String) : Except Error Bool :=
  (h.classes.isSubclass left right).mapError .classes

/--
Whether one name is more specific than another for an instance: on the ancestry of the
instance's own class, from the class outward, it is met first.
-/
def isSubspecializer (h : Host α) (id : InstanceId) (left right : String) :
    Except Error Bool := do
  let o ← h.getInstance id
  if left = right then .ok false
  else
    match h.classes.classOf? o with
    | none => .ok false
    | some own =>
      let chain ← (h.classes.ancestry own).mapError .classes
      .ok (chain.find? (fun name => name == left || name == right) == some left)

/-! ### Operators -/

/-- Evaluates an operator on its operands; equality alone is known. -/
def apply (h : Host α) (operator : Operator) (args : List Term) : Except Error Bool :=
  if operator = .eq then
    match args with
    | [left, right] => do
      let v ← h.toResolved left
      let w ← h.toResolved right
      .ok (h.valuesEqual v w)
    | _ => .error (.operator (.arity operator.name 2 args.length))
  else .error (.operator (.unimplemented operator.name))

/-- Evaluates the operator of a name on a list of operands. -/
def evaluate (h : Host α) (name : String) (args : Term) : Except Error Bool :=
  if Operator.ofName? name = some .eq then
    match args.value with
    | .list items => h.apply .eq items
    | other => .error (.term (.mismatch "operator arguments" "List" other.tag.name))
  else .error (.operator (.unimplemented name))

end HostBridge.Host
