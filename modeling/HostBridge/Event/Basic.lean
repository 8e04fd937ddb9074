import HostBridge.Term.Printer
import HostBridge.Term.Reader
import HostBridge.Text.Quoted

/-!
Events: what the engine asks of the host, as it stands on the wire.

An event is an object with one member, whose key is the event's kind and whose value holds the
event's fields. The fields may stand in any order beside members that are ignored. Of several
faults a field of the wrong shape is reported before a missing one.
-/

namespace HostBridge

inductive Event where
  /-- Make the instance that a call describes. -/
  | makeExternal (instanceId : UInt64) (constructor : Term)
  /-- Does an instance belong to a class? -/
  | isa (callId : UInt64) (subject : Term) (classTag : String)
  /-- Does the left class descend from the right one? -/
  | isSubclass (callId : UInt64) (left right : String)
  /-- Is the left class the more specific one for an instance? -/
  | isSubspecializer (callId : UInt64) (instanceId : UInt64) (left right : String)
  /-- What does an operator say of its operands? -/
  | operation (callId : UInt64) (operator : String) (args : List Term)

namespace Event

inductive Kind where
  | makeExternal | isa | isSubclass | isSubspecializer | operation
deriving DecidableEq, Repr

namespace Kind

def all : List Kind := [makeExternal, isa, isSubclass, isSubspecializer, operation]

def name : Kind → String
  | makeExternal => "MakeExternal"
  | isa => "ExternalIsa"
  | isSubclass => "ExternalIsSubclass"
  | isSubspecializer => "ExternalIsSubSpecializer"
  | operation => "ExternalOp"

def ofName? (name : String) : Option Kind := all.find? (·.name == name)

@[simp] theorem ofName?_name (kind : Kind) : ofName? kind.name = some kind := by
  cases kind <;> decide

end Kind

def kind : Event → Kind
  | makeExternal .. => .makeExternal
  | isa .. => .isa
  | isSubclass .. => .isSubclass
  | isSubspecializer .. => .isSubspecializer
  | operation .. => .operation

/-! ### Writing -/

/-- The fields of an event, in the order in which they are declared. -/
def fieldsJson : Event → List (String × Json)
  | makeExternal id constructor =>
    [("instance_id", .ofWord id), ("constructor", constructor.toJson)]
  | isa call subject classTag =>
    [("call_id", .ofWord call), ("instance", subject.toJson), ("class_tag", .string classTag)]
  | isSubclass call left right =>
    [("call_id", .ofWord call), ("left_class_tag", .string left),
     ("right_class_tag", .string right)]
  | isSubspecializer call id left right =>
    [("call_id", .ofWord call), ("instance_id", .ofWord id), ("left_class_tag", .string left),
     ("right_class_tag", .string right)]
  | operation call operator args =>
    [("call_id", .ofWord call), ("operator", .string operator),
     ("args", .array (Term.listJson args))]

def toJson (e : Event) : Json := .object [(e.kind.name, .object e.fieldsJson)]

def print [Json.Library] (e : Event) : String := Json.Library.write e.toJson

/-! ### Reading fields -/

/-- What stands in a field, as a message about it says. -/
def found : Json → String
  | .null => "null"
  | .boolean b => s!"boolean `{b}`"
  | .number (.integer n _) => s!"integer `{n}`"
  | .number (.float x) => s!"floating point `{String.ofList (x.render Json.floatStyle)}`"
  | .string s => s!"string {Text.quoted s}"
  | .array _ => "sequence"
  | .object _ => "map"

def wrongType (expected : String) (json : Json) : String :=
  s!"invalid type: {found json}, expected {expected}"

def readWord (json : Json) : Except String UInt64 :=
  match json with
  | .number (.integer n h) =>
    match Json.Number.word? (.integer n h) with
    | some w => .ok w
    | none => .error s!"invalid value: {found json}, expected u64"
  | _ => .error (wrongType "u64" json)

def readText : Json → Except String String
  | .string s => .ok s
  | json => .error (wrongType "a string" json)

def readTerm (json : Json) : Except String Term := (Term.ofJson json).mapError (·.message)

def readTerms : Json → Except String (List Term)
  | .array items => (Term.listItems items).mapError (·.message)
  | json => .error (wrongType "a sequence" json)

/-! ### Reading -/

/-- The shapes that fields have. -/
inductive Shape where
  | word | text | term | terms
deriving DecidableEq, Repr

/-- Whether a tree has a shape, or what is wrong with it. -/
def Shape.check (json : Json) : Shape → Except String Unit
  | word => (readWord json).map fun _ => ()
  | text => (readText json).map fun _ => ()
  | term => (readTerm json).map fun _ => ()
  | terms => (readTerms json).map fun _ => ()

/-- The fields of each kind of event, in the order in which they are declared. -/
def Kind.fields : Kind → List (String × Shape)
  | makeExternal => [("instance_id", .word), ("constructor", .term)]
  | isa => [("call_id", .word), ("instance", .term), ("class_tag", .text)]
  | isSubclass =>
    [("call_id", .word), ("left_class_tag", .text), ("right_class_tag", .text)]
  | isSubspecializer =>
    [("call_id", .word), ("instance_id", .word), ("left_class_tag", .text),
     ("right_class_tag", .text)]
  | operation => [("call_id", .word), ("operator", .text), ("args", .terms)]

/-- The first fault among the members that are fields, in the order of the members. -/
def checkMembers (fields : List (String × Shape)) :
    List (String × Json) → Except String Unit
  | [] => .ok ()
  | (key, json) :: rest => do
    match fields.lookup key with
    | some shape => shape.check json
    | none => .ok ()
    checkMembers fields rest

/-- A field that must be there. -/
def readField {β : Type} (key : String) (read : Json → Except String β)
    (members : List (String × Json)) : Except String β :=
  match members.lookup key with
  | some json => read json
  | none => .error s!"missing field `{key}`"

/-- The event of a kind, read field by field in the order in which they are declared. -/
def ofMembers (members : List (String × Json)) : Kind → Except String Event
  | .makeExternal => do
    let id ← readField "instance_id" readWord members
    let constructor ← readField "constructor" readTerm members
    .ok (makeExternal id constructor)
  | .isa => do
    let call ← readField "call_id" readWord members
    let subject ← readField "instance" readTerm members
    let classTag ← readField "class_tag" readText members
    .ok (isa call subject classTag)
  | .isSubclass => do
    let call ← readField "call_id" readWord members
    let left ← readField "left_class_tag" readText members
    let right ← readField "right_class_tag" readText members
    .ok (isSubclass call left right)
  | .isSubspecializer => do
    let call ← readField "call_id" readWord members
    let id ← readField "instance_id" readWord members
    let left ← readField "left_class_tag" readText members
    let right ← readField "right_class_tag" readText members
    .ok (isSubspecializer call id left right)
  | .operation => do
    let call ← readField "call_id" readWord members
    let operator ← readField "operator" readText members
    let args ← readField "args" readTerms members
    .ok (operation call operator args)

/-- The event of a kind whose fields stand in a tree. -/
def ofPayload (kind : Kind) : Json → Except String Event
  | .object members => do
    checkMembers kind.fields members
    ofMembers members kind
  | json => .error (wrongType "struct variant" json)

def ofJson (json : Json) : Except TermError Event := do
  let (tag, payload) ← json.getTagged "event"
  match Kind.ofName? tag with
  | none => .error (.unknownTag tag "event")
  | some kind => (ofPayload kind payload).mapError (.mismatch tag "event payload")

/-- The event of a JSON text. -/
def parse [Json.Library] (text : String) : Except TermError Event :=
  match Json.Library.read text with
  | .ok json => ofJson json
  | .error message => .error (.malformed message)

end Event

end HostBridge
