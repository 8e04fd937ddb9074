import HostBridge.Json.Library
import HostBridge.Term.Basic

/-!
Writing terms.

Every term has one tree, with the members of its objects in ascending order, and so one text for
each library that writes it. An absent constructor, class id or keyword table is left out; an
absent description or class name is written as null.
-/

namespace HostBridge

/-- Infinities and the not-a-number, which no JSON number denotes, are written as strings. -/
def Double.toJson : Double → Json
  | .nan => .string "NaN"
  | .infinite false => .string "Infinity"
  | .infinite true => .string "-Infinity"
  | .finite x => .number (.float x)

def Numeric.toJson : Numeric → Json
  | .integer n => .object [("Integer", .ofInt32 n)]
  | .float x => .object [("Float", x.toJson)]

namespace Term

/-- A member, if there is a value for it. -/
def memberOf (key : String) : Option Json → List (String × Json)
  | none => []
  | some json => [(key, json)]

mutual

def toJson : Term → Json
  | ⟨id, offset, value⟩ =>
    .object [("id", .ofWord id), ("offset", .ofWord offset), ("value", payloadJson value)]
termination_by structural t => t

/-- The payload under its tag. -/
def payloadJson : Payload Term → Json
  | .string text => .object [("String", .string text)]
  | .boolean value => .object [("Boolean", .boolean value)]
  | .number value => .object [("Number", value.toJson)]
  | .list items => .object [("List", .array (listJson items))]
  | .dictionary fields => .object [("Dictionary", .object [("fields", .object (fieldsJson fields))])]
  | .external handle => .object [("ExternalInstance", handleJson handle)]
  | .call name args kwargs =>
    .object [("Call", .object
      (("args", .array (listJson args)) ::
        (memberOf "kwargs" (kwargsJson kwargs) ++ [("name", .string name)])))]
  | .var name => .object [("Variable", .string name)]
  | .expression operator args =>
    .object [("Expression", .object
      [("args", .array (listJson args)), ("operator", .string operator.name)])]
  | .pattern (some tag) fields =>
    .object [("Pattern", .object [("Instance", .object
      [("fields", .object [("fields", .object (fieldsJson fields))]), ("tag", .string tag)])])]
  | .pattern none fields =>
    .object [("Pattern", .object
      [("Dictionary", .object [("fields", .object (fieldsJson fields))])])]
termination_by structural v => v

def handleJson : Handle Term → Json
  | ⟨id, constructor, repr, classRepr, classId⟩ =>
    .object (memberOf "class_id" (classId.map .ofWord) ++
      ("class_repr", .ofOption .string classRepr) ::
      (memberOf "constructor" (constructorJson constructor) ++
        [("instance_id", .ofWord id), ("repr", .ofOption .string repr)]))
termination_by structural h => h

def listJson : List Term → List Json
  | [] => []
  | t :: rest => toJson t :: listJson rest
termination_by structural ts => ts

def fieldsJson : List (String × Term) → List (String × Json)
  | [] => []
  | (key, t) :: rest => (key, toJson t) :: fieldsJson rest
termination_by structural ts => ts

def kwargsJson : Option (List (String × Term)) → Option Json
  | none => none
  | some fields => some (.object (fieldsJson fields))
termination_by structural ts => ts

def constructorJson : Option Term → Option Json
  | none => none
  | some t => some (toJson t)
termination_by structural t => t

end

/-- The text of a term. -/
def print [Json.Library] (t : Term) : String := Json.Library.write t.toJson

end Term

end HostBridge
