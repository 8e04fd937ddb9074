import HostBridge.Event.Basic
import HostBridge.Host.Callbacks
import HostBridge.Json.Exact
import HostBridge.Json.Skim

/-!
Answers to events.

An event that asks a question is answered under the number of its call. The making of an
instance is not answered. An answer is read straight from its text, by the exact reader.
-/

namespace HostBridge

structure Answer where
  callId : UInt64
  result : Bool
deriving DecidableEq, Repr

namespace Answer

def toJson (a : Answer) : Json :=
  .object [("call_id", .ofWord a.callId), ("result", .boolean a.result)]

def print [Json.Library] (a : Answer) : String := Json.Library.write a.toJson

/-- The one value under a key that must occur exactly once. -/
def sole? (key : String) (members : List (String × Json)) : Option Json :=
  match members.filter (·.1 == key) with
  | [(_, json)] => some json
  | _ => none

def ofParts? : Json → Json → Option Answer
  | .number n, .boolean result => n.word?.map (⟨·, result⟩)
  | _, _ => none

def ofMembers? (members : List (String × Json)) : Option Answer := do
  let call ← sole? "call_id" members
  let result ← sole? "result" members
  ofParts? call result

def ofItems? : List Json → Option Answer
  | [call, result] => ofParts? call result
  | _ => none

/-- A part of an answer, which is neither an array nor an object. -/
def readPart (limit : Nat) : Reader Json := Json.readValue limit 0

/-- The value of a member, passed over unless it is one of the two that count. -/
def readMemberValue (limit : Nat) (key : String) : Reader Json := fun cs =>
  if key = "call_id" ∨ key = "result" then readPart limit cs
  else (Json.skimValue limit cs).map fun (_, rest) => (.null, rest)

/-- An answer is an object with its two members, or a pair. -/
def read (limit : Nat) : Reader (Option Answer) := fun cs =>
  match Json.skipBlanks cs with
  | '\x7b' :: rest =>
    let member := Json.readMember (Json.readString limit) (readMemberValue limit)
    (Json.readSequence limit member '\x7d' rest).map fun (ms, rest) => (ofMembers? ms, rest)
  | '[' :: rest =>
    (Json.readSequence limit (readPart limit) ']' rest).map fun (as, rest) => (ofItems? as, rest)
  | _ => none

def parse? (text : String) : Option Answer := (Json.readAll? read text).join

end Answer

namespace Host

variable {α : Type}

/-- The answer to a question, which the session is asked without being changed. -/
def answer (h : Host α) : Event → Except Error (Option Answer)
  | .makeExternal .. => .ok none
  | .isa call subject name => (h.isa subject name).map (some ⟨call, ·⟩)
  | .isSubclass call left right => (h.isSubclass left right).map (some ⟨call, ·⟩)
  | .isSubspecializer call id left right =>
    (h.isSubspecializer id left right).map (some ⟨call, ·⟩)
  | .operation call operator args =>
    (h.evaluate operator (.ofHost (.list args))).map (some ⟨call, ·⟩)

/-- Does what an event asks for. -/
def handle : Event → Step (Host α) (Option Answer)
  | .makeExternal id constructor => do
    let _ ← makeInstanceFromCall constructor id
    pure none
  | question => do
    let h ← get
    Step.ofExcept (h.answer question)

end Host

end HostBridge
