import HostBridge.Error
import HostBridge.Json.Library
import HostBridge.Json.Printer
import HostBridge.Term.Basic

/-!
Reading terms.

The reader walks the tree once. What it looks for in an object it looks up and reads in one
pass over the members, so that it recurses on the tree itself. The first fault met is
reported; an object's other members are ignored.
-/

namespace HostBridge

/-- What a place requires, against the kind of the tree that stands there. -/
def TermError.unexpected (context expected : String) (json : Json) : TermError :=
  .mismatch context expected json.kind

/-- A required member is absent. -/
def TermError.missing (context member : String) : TermError :=
  .mismatch context s!"field `{member}`" "nothing"

/-- An object that should have one member has another number of them. -/
def TermError.notOneTag (context : String) (count : Nat) : TermError :=
  .mismatch context "object with exactly one tag" s!"object with {count} keys"

namespace Json

def getString (context : String) : Json → Except TermError String
  | .string s => .ok s
  | json => .error (.unexpected context "string" json)

def getBoolean (context : String) : Json → Except TermError Bool
  | .boolean b => .ok b
  | json => .error (.unexpected context "boolean" json)

/-- An integer that is not negative and fits in 64 bits. -/
def getWord (context : String) (json : Json) : Except TermError UInt64 :=
  match json with
  | .number n => match n.word? with
    | some w => .ok w
    | none => .error (.unexpected context "unsigned integer" json)
  | _ => .error (.unexpected context "unsigned integer" json)

/-- The one member of an object, as its tag and what stands under it. -/
def getTagged (context : String) : Json → Except TermError (String × Json)
  | .object [member] => .ok member
  | .object members => .error (.notOneTag context members.length)
  | json => .error (.unexpected context "object" json)

/-- A required member. -/
def getMember (context key : String) (members : List (String × Json)) : Except TermError Json :=
  match members.lookup key with
  | some json => .ok json
  | none => .error (.missing context key)

/-- A member that may be absent or null. -/
def getOptional {α : Type} (get : Json → Except TermError α) :
    Option Json → Except TermError (Option α)
  | none => .ok none
  | some .null => .ok none
  | some json => (get json).map some

end Json

namespace Numeric

def ofInteger (n : Json.Number) : Except TermError Numeric :=
  match n.signed? with
  | none => .error (.mismatch "Integer" "integer" (String.ofList n.print))
  | some value =>
    if -0x80000000 ≤ value ∧ value < 0x80000000 then .ok (.integer (Int32.ofInt value))
    else .error (.mismatch "Integer" "32-bit integer" (String.ofList (Json.printInt value)))

def ofFloat : Json → Except TermError Numeric
  | .string "Infinity" => .ok (.float (.infinite false))
  | .string "-Infinity" => .ok (.float (.infinite true))
  | .string "NaN" => .ok (.float .nan)
  | .string other => .error (.mismatch "Float" "a floating point number" s!"`{other}`")
  | .number n => .ok (.float n.toDouble)
  | json => .error (.unexpected "Float" "number or string" json)

def ofJson (json : Json) : Except TermError Numeric := do
  let (tag, payload) ← json.getTagged "Number"
  if tag = "Integer" then
    match payload with
    | .number n => ofInteger n
    | _ => .error (.unexpected "Integer" "number" payload)
  else if tag = "Float" then ofFloat payload
  else .error (.unknownTag tag "Number")

end Numeric

namespace Term

/-- An id that may be absent, and is then zero. -/
def provenance (key : String) (members : List (String × Json)) : Except TermError UInt64 :=
  match members.lookup key with
  | none => .ok 0
  | some json => json.getWord s!"Term.{key}"

def operatorOf (name : String) : Except TermError Operator :=
  match Operator.ofName? name with
  | some op => .ok op
  | none => .error (.unknownOperator name)

mutual

def ofJson : Json → Except TermError Term
  | .object members => do
    let id ← provenance "id" members
    let offset ← provenance "offset" members
    let value ← valueMember members
    .ok ⟨id, offset, value⟩
  | json => .error (.unexpected "Term" "object" json)
termination_by structural json => json

def valueMember : List (String × Json) → Except TermError (Payload Term)
  | [] => .error (.missing "Term" "value")
  | (key, json) :: rest => if key = "value" then taggedPayload json else valueMember rest
termination_by structural members => members

/-- A payload under its tag. -/
def taggedPayload : Json → Except TermError (Payload Term)
  | .object [(name, json)] =>
    match Tag.ofName? name with
    | some tag => payload tag json
    | none => .error (.unknownTag name "value")
  | .object members => .error (.notOneTag "value" members.length)
  | json => .error (.unexpected "value" "object" json)
termination_by structural json => json

def payload : Tag → Json → Except TermError (Payload Term)
  | .string, json => (json.getString "String").map .string
  | .boolean, json => (json.getBoolean "Boolean").map .boolean
  | .number, json => (Numeric.ofJson json).map .number
  | .list, .array items => (listItems items).map .list
  | .list, json => .error (.unexpected "List" "array" json)
  | .dictionary, .object members => (fieldsMember "Dictionary" members).map .dictionary
  | .dictionary, json => .error (.unexpected "Dictionary" "object" json)
  | .external, .object members => do
    let id ← (← Json.getMember "ExternalInstance" "instance_id" members).getWord
      "ExternalInstance.instance_id"
    let constructor ← constructorMember members
    let classId ← Json.getOptional (Json.getWord "ExternalInstance.class_id")
      (members.lookup "class_id")
    let repr ← Json.getOptional (Json.getString "ExternalInstance.repr") (members.lookup "repr")
    let classRepr ← Json.getOptional (Json.getString "ExternalInstance.class_repr")
      (members.lookup "class_repr")
    .ok (.external ⟨id, constructor, repr, classRepr, classId⟩)
  | .external, json => .error (.unexpected "ExternalInstance" "object" json)
  | .call, .object members => do
    let name ← (← Json.getMember "Call" "name" members).getString "Call.name"
    let args ← argsMember "Call" "Call.args" members
    let kwargs ← kwargsMember members
    .ok (.call name args kwargs)
  | .call, json => .error (.unexpected "Call" "object" json)
  | .var, json => (json.getString "Variable").map .var
  | .expression, .object members => do
    let name ← (← Json.getMember "Expression" "operator" members).getString
      "Expression.operator"
    let operator ← operatorOf name
    let args ← argsMember "Expression" "Expression.args" members
    .ok (.expression operator args)
  | .expression, json => .error (.unexpected "Expression" "object" json)
  | .pattern, .object [("Instance", .object members)] => do
    let tag ← (← Json.getMember "Pattern.Instance" "tag" members).getString
      "Pattern.Instance.tag"
    let fields ← patternMember members
    .ok (.pattern (some tag) fields)
  | .pattern, .object [("Instance", json)] => .error (.unexpected "Pattern.Instance" "object" json)
  | .pattern, .object [("Dictionary", json)] =>
    (dictionaryOf "Pattern.Dictionary" json).map (.pattern none)
  | .pattern, .object [(name, _)] => .error (.unknownTag name "Pattern")
  | .pattern, .object members => .error (.notOneTag "Pattern" members.length)
  | .pattern, json => .error (.unexpected "Pattern" "object" json)
termination_by structural _ json => json

-- members that hold terms

def constructorMember : List (String × Json) → Except TermError (Option Term)
  | [] => .ok none
  | (key, json) :: rest =>
    if key = "constructor" then
      match json with
      | .null => .ok none
      | json => (ofJson json).map some
    else constructorMember rest
termination_by structural members => members

def argsMember (place context : String) : List (String × Json) → Except TermError (List Term)
  | [] => .error (.missing place "args")
  | (key, json) :: rest =>
    if key = "args" then listOf context json else argsMember place context rest
termination_by structural members => members

def kwargsMember : List (String × Json) → Except TermError (Option (List (String × Term)))
  | [] => .ok none
  | (key, json) :: rest =>
    if key = "kwargs" then
      match json with
      | .null => .ok none
      | json => (tableOf "Call.kwargs" json).map some
    else kwargsMember rest
termination_by structural members => members

def patternMember : List (String × Json) → Except TermError (List (String × Term))
  | [] => .error (.missing "Pattern.Instance" "fields")
  | (key, json) :: rest =>
    if key = "fields" then dictionaryOf "Pattern.Instance.fields" json else patternMember rest
termination_by structural members => members

/-- The fields of a dictionary, which stand under a member of their own. -/
def dictionaryOf (context : String) : Json → Except TermError (List (String × Term))
  | .object members => fieldsMember context members
  | json => .error (.unexpected context "object" json)
termination_by structural json => json

def fieldsMember (context : String) :
    List (String × Json) → Except TermError (List (String × Term))
  | [] => .error (.missing context "fields")
  | (key, json) :: rest =>
    if key = "fields" then tableOf context json else fieldsMember context rest
termination_by structural members => members

-- lists and tables of terms

def listOf (context : String) : Json → Except TermError (List Term)
  | .array items => listItems items
  | json => .error (.unexpected context "array" json)
termination_by structural json => json

def tableOf (context : String) : Json → Except TermError (List (String × Term))
  | .object members => tableEntries members
  | json => .error (.unexpected context "object" json)
termination_by structural json => json

def listItems : List Json → Except TermError (List Term)
  | [] => .ok []
  | json :: rest => do
    let t ← ofJson json
    let ts ← listItems rest
    .ok (t :: ts)
termination_by structural items => items

def tableEntries : List (String × Json) → Except TermError (List (String × Term))
  | [] => .ok []
  | (key, json) :: rest => do
    let t ← ofJson json
    let ts ← tableEntries rest
    .ok ((key, t) :: ts)
termination_by structural members => members

end

/-- The term of a JSON text. -/
def parse [Json.Library] (text : String) : Except TermError Term :=
  match Json.Library.read text with
  | .ok json => ofJson json
  | .error message => .error (.malformed message)

end Term

end HostBridge
