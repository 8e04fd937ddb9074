import HostBridge.Classes
import HostBridge.Instances
import HostBridge.Value.Show

/-!
Terms as host values, and host values as terms.

Decoding is a function of the term alone and leaves references as they stand; resolving then
swaps each reference for the object it names. Encoding issues ids for the objects it meets,
and what it has issued stays issued if it fails further on.
-/

namespace HostBridge

structure Codec (α : Type) where
  classes : Classes α
  /-- The object that stands for the absent value. -/
  nil : Object α
  /-- Whether expressions may be decoded. -/
  acceptExpression : Bool
  /-- Whether objects without a registered class are refused. -/
  rejectUnregistered : Bool

namespace Codec

variable {α : Type}

/-! ### Decoding -/

section Decode

variable (acceptExpression : Bool)

mutual

/-- The value of a term, references unresolved. -/
def decodeTerm : Term → Except TermError (Value α)
  | ⟨_, _, .string s⟩ => .ok (.string s)
  | ⟨_, _, .boolean b⟩ => .ok (.boolean b)
  | ⟨_, _, .number (.integer n)⟩ => .ok (.integer n)
  | ⟨_, _, .number (.float x)⟩ => .ok (.float x)
  | ⟨_, _, .list items⟩ => (decodeList items).map .list
  | ⟨_, _, .dictionary fields⟩ => (decodeFields fields).map .dictionary
  | ⟨_, _, .external handle⟩ => .ok (.reference handle)
  | ⟨_, _, .call name args kwargs⟩ => do
    let args ← decodeList args
    let kwargs ← decodeKwargs kwargs
    .ok (.predicate name args kwargs)
  | ⟨_, _, .var name⟩ => .ok (.var name)
  | ⟨_, _, .expression operator args⟩ =>
    if acceptExpression then (decodeList args).map (.expression operator)
    else .error .expressionNotAllowed
  | ⟨_, _, .pattern tag fields⟩ => (decodeFields fields).map (.pattern tag)
termination_by structural t => t

def decodeList : List Term → Except TermError (List (Value α))
  | [] => .ok []
  | t :: rest => do
    let v ← decodeTerm t
    let vs ← decodeList rest
    .ok (v :: vs)
termination_by structural ts => ts

def decodeFields : List (String × Term) → Except TermError (List (String × Value α))
  | [] => .ok []
  | (key, t) :: rest => do
    let v ← decodeTerm t
    let vs ← decodeFields rest
    .ok ((key, v) :: vs)
termination_by structural ts => ts

def decodeKwargs :
    Option (List (String × Term)) → Except TermError (Option (List (String × Value α)))
  | none => .ok none
  | some fields => (decodeFields fields).map some
termination_by structural ts => ts

end

end Decode

/-! ### Resolving -/

section Resolve

variable (instances : Instances α) (nilObject : Object α)

/-- What a reference stands for: the absent value if it names the nil object. -/
def resolveHandle (handle : Handle Term) : Except InstanceError (Value α) :=
  match instances.get handle.id with
  | .ok o => .ok (if o.same nilObject then .nil else .object o)
  | .error e => .error e

mutual

/-- A value with each reference in it swapped for what it stands for. -/
def resolveValue : Value α → Except InstanceError (Value α)
  | .reference handle => resolveHandle instances nilObject handle
  | .list items => (resolveList items).map .list
  | .dictionary fields => (resolveFields fields).map .dictionary
  | .map pairs => (resolvePairs pairs).map .map
  | .predicate name args kwargs => do
    let args ← resolveList args
    let kwargs ← resolveKwargs kwargs
    .ok (.predicate name args kwargs)
  | .expression operator args => (resolveList args).map (.expression operator)
  | .pattern tag fields => (resolveFields fields).map (.pattern tag)
  | value => .ok value
termination_by structural v => v

def resolveList : List (Value α) → Except InstanceError (List (Value α))
  | [] => .ok []
  | v :: rest => do
    let v ← resolveValue v
    let vs ← resolveList rest
    .ok (v :: vs)
termination_by structural vs => vs

def resolveFields : List (String × Value α) → Except InstanceError (List (String × Value α))
  | [] => .ok []
  | (key, v) :: rest => do
    let v ← resolveValue v
    let vs ← resolveFields rest
    .ok ((key, v) :: vs)
termination_by structural vs => vs

def resolvePairs :
    List (Value α × Value α) → Except InstanceError (List (Value α × Value α))
  | [] => .ok []
  | (k, v) :: rest => do
    let k ← resolveValue k
    let v ← resolveValue v
    let vs ← resolvePairs rest
    .ok ((k, v) :: vs)
termination_by structural vs => vs

def resolveKwargs :
    Option (List (String × Value α)) → Except InstanceError (Option (List (String × Value α)))
  | none => .ok none
  | some fields => (resolveFields fields).map some
termination_by structural vs => vs

end

end Resolve

/-! ### Encoding -/

section Encode

variable (c : Codec α)

/-- A reference to an object, which is given an id if it has none. -/
def encodeReference (o : Object α) (repr : String) (classRepr : Option String) :
    Step (Instances α) Term := do
  let id ← Step.widen (Instances.register o)
  pure (.ofHost (.external ⟨id, none, some repr, classRepr, none⟩))

/-- A host object; whether it may be sent is settled before it is given an id. -/
def encodeObject (o : Object α) : Step (Instances α) Term :=
  match c.classes.classOf? o with
  | some name => encodeReference o o.repr (some name)
  | none =>
    if c.rejectUnregistered then throw (.classes (.unknown o.typeName))
    else encodeReference o o.repr none

mutual

/-- The term of a value. -/
def encode : Value α → Step (Instances α) Term
  | .nil => encodeReference c.nil "nil" none
  | .boolean b => pure (.ofHost (.boolean b))
  | .integer n => pure (.ofHost (.number (.integer n)))
  | .float x => pure (.ofHost (.number (.float x)))
  | .string s => pure (.ofHost (.string s))
  | .list items => do
    let ts ← encodeList items
    pure (.ofHost (.list ts))
  | .dictionary fields => do
    let ts ← encodeFields fields
    pure (.ofHost (.dictionary ts))
  | .map pairs => do
    let ts ← encodePairs pairs
    pure (.ofHost (.dictionary (Table.ofList ts)))
  | .reference handle => pure (.ofHost (.external handle))
  | .object o => encodeObject c o
  | .predicate name args kwargs => do
    let args ← encodeList args
    let kwargs ← encodeKwargs kwargs
    pure (.ofHost (.call name args kwargs))
  | .var name => pure (.ofHost (.var name))
  | .expression operator args => do
    let args ← encodeList args
    pure (.ofHost (.expression operator args))
  | .pattern tag fields => do
    let ts ← encodeFields fields
    pure (.ofHost (.pattern tag ts))
termination_by structural v => v

def encodeList : List (Value α) → Step (Instances α) (List Term)
  | [] => pure []
  | v :: rest => do
    let t ← encode v
    let ts ← encodeList rest
    pure (t :: ts)
termination_by structural vs => vs

def encodeFields : List (String × Value α) → Step (Instances α) (List (String × Term))
  | [] => pure []
  | (key, v) :: rest => do
    let t ← encode v
    let ts ← encodeFields rest
    pure ((key, t) :: ts)
termination_by structural vs => vs

/-- The entries of a map in their order; every key must be text. -/
def encodePairs : List (Value α × Value α) → Step (Instances α) (List (String × Term))
  | [] => pure []
  | (.string key, v) :: rest => do
    let t ← encode v
    let ts ← encodePairs rest
    pure ((key, t) :: ts)
  | (key, _) :: _ => throw (.term (.keyNotText key.shown))
termination_by structural vs => vs

def encodeKwargs :
    Option (List (String × Value α)) → Step (Instances α) (Option (List (String × Term)))
  | none => pure none
  | some fields => do
    let ts ← encodeFields fields
    pure (some ts)
termination_by structural vs => vs

end

end Encode

def decode (c : Codec α) (t : Term) : Except Error (Value α) :=
  (decodeTerm c.acceptExpression t).mapError .term

def resolve (c : Codec α) (instances : Instances α) (v : Value α) : Except Error (Value α) :=
  (resolveValue instances c.nil v).mapError .instances

/-- The value of a term, references resolved. -/
def decodeResolved (c : Codec α) (instances : Instances α) (t : Term) :
    Except Error (Value α) := do
  let v ← c.decode t
  c.resolve instances v

end Codec

end HostBridge
