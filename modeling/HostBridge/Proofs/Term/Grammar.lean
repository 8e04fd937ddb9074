import HostBridge.Json.Basic
import HostBridge.Term.Basic
import Mathlib.Data.List.Forall2

/-!
The grammar of terms: which trees spell which terms.

What is said of an object is said of what stands under its keys, so that its other members do
not matter. Only an object that tells a kind apart, by its one key, has no other members. The
grammar says nothing of how a tree is read, and nothing of the trees that spell no term.
-/

namespace HostBridge.Json

/-! ### Parts without terms -/

/-- An integer from zero to the greatest word. -/
inductive SpellsWord : Json → UInt64 → Prop
  | intro {n : Int} {inRange} {word : UInt64} : n = word.toNat →
    SpellsWord (.number (.integer n inRange)) word

/-- A word that may be left out, and is then zero. -/
inductive SpellsProvenance : Option Json → UInt64 → Prop
  | absent : SpellsProvenance none 0
  | present {json : Json} {word : UInt64} : json.SpellsWord word →
    SpellsProvenance (some json) word

inductive SpellsText : Json → String → Prop
  | intro (text : String) : SpellsText (.string text) text

/-- Any number, or one of the three names of what no number denotes. -/
inductive SpellsFloat : Json → Double → Prop
  | number (n : Number) : SpellsFloat (.number n) n.toDouble
  | infinity : SpellsFloat (.string "Infinity") (.infinite false)
  | negativeInfinity : SpellsFloat (.string "-Infinity") (.infinite true)
  | nan : SpellsFloat (.string "NaN") .nan

inductive SpellsNumeric : Json → Numeric → Prop
  | integer {n : Int} {inRange} {value : Int32} : n = value.toInt →
    SpellsNumeric (.object [("Integer", .number (.integer n inRange))]) (.integer value)
  | float {json : Json} {x : Double} : json.SpellsFloat x →
    SpellsNumeric (.object [("Float", json)]) (.float x)

/-- What may be left out, or be null. -/
inductive SpellsOption {β : Type} (R : Json → β → Prop) : Option Json → Option β → Prop
  | absent : SpellsOption R none none
  | null : SpellsOption R (some .null) none
  | present {json : Json} {b : β} : R json b → SpellsOption R (some json) (some b)

/-- The ten tags by their names. -/
inductive SpellsTag : String → Tag → Prop
  | string : SpellsTag "String" .string
  | boolean : SpellsTag "Boolean" .boolean
  | number : SpellsTag "Number" .number
  | list : SpellsTag "List" .list
  | dictionary : SpellsTag "Dictionary" .dictionary
  | external : SpellsTag "ExternalInstance" .external
  | call : SpellsTag "Call" .call
  | var : SpellsTag "Variable" .var
  | expression : SpellsTag "Expression" .expression
  | pattern : SpellsTag "Pattern" .pattern

/-! ### Parts with terms -/

section Parts

variable (R : Json → Term → Prop)

inductive SpellsList : Json → List Term → Prop
  | intro {items : List Json} {ts : List Term} : List.Forall₂ R items ts →
    SpellsList (.array items) ts

/-- Entries under the same keys, in the same order. -/
inductive SpellsEntries : List (String × Json) → List (String × Term) → Prop
  | nil : SpellsEntries [] []
  | cons {key : String} {json : Json} {t : Term} {members : List (String × Json)}
    {fields : List (String × Term)} : R json t → SpellsEntries members fields →
    SpellsEntries ((key, json) :: members) ((key, t) :: fields)

inductive SpellsTable : Json → List (String × Term) → Prop
  | intro {members : List (String × Json)} {fields : List (String × Term)} :
    SpellsEntries R members fields → SpellsTable (.object members) fields

/-- A table under a member of its own. -/
inductive SpellsDictionary : Json → List (String × Term) → Prop
  | intro {members : List (String × Json)} {json : Json} {fields : List (String × Term)} :
    members.lookup "fields" = some json → SpellsTable R json fields →
    SpellsDictionary (.object members) fields

/-- What stands under a tag. -/
inductive SpellsPayload : Tag → Json → Payload Term → Prop
  | string (text : String) : SpellsPayload .string (.string text) (.string text)
  | boolean (value : Bool) : SpellsPayload .boolean (.boolean value) (.boolean value)
  | number {json : Json} {n : Numeric} : json.SpellsNumeric n →
    SpellsPayload .number json (.number n)
  | list {json : Json} {items : List Term} : SpellsList R json items →
    SpellsPayload .list json (.list items)
  | dictionary {json : Json} {fields : List (String × Term)} : SpellsDictionary R json fields →
    SpellsPayload .dictionary json (.dictionary fields)
  | external {members : List (String × Json)} {handle : Handle Term} {id : Json} :
    members.lookup "instance_id" = some id → id.SpellsWord handle.id →
    SpellsOption R (members.lookup "constructor") handle.constructor →
    SpellsOption SpellsText (members.lookup "repr") handle.repr →
    SpellsOption SpellsText (members.lookup "class_repr") handle.classRepr →
    SpellsOption SpellsWord (members.lookup "class_id") handle.classId →
    SpellsPayload .external (.object members) (.external handle)
  | call {members : List (String × Json)} {name : String} {json : Json} {args : List Term}
    {kwargs : Option (List (String × Term))} :
    members.lookup "name" = some (.string name) →
    members.lookup "args" = some json → SpellsList R json args →
    SpellsOption (SpellsTable R) (members.lookup "kwargs") kwargs →
    SpellsPayload .call (.object members) (.call name args kwargs)
  | var (name : String) : SpellsPayload .var (.string name) (.var name)
  | expression {members : List (String × Json)} {operator : Operator} {json : Json}
    {args : List Term} :
    members.lookup "operator" = some (.string operator.name) →
    members.lookup "args" = some json → SpellsList R json args →
    SpellsPayload .expression (.object members) (.expression operator args)
  | taggedPattern {members : List (String × Json)} {tag : String} {json : Json}
    {fields : List (String × Term)} :
    members.lookup "tag" = some (.string tag) →
    members.lookup "fields" = some json → SpellsDictionary R json fields →
    SpellsPayload .pattern (.object [("Instance", .object members)]) (.pattern (some tag) fields)
  | barePattern {json : Json} {fields : List (String × Term)} : SpellsDictionary R json fields →
    SpellsPayload .pattern (.object [("Dictionary", json)]) (.pattern none fields)

end Parts

/-- **The grammar**: the tree spells the term. -/
inductive Spells : Json → Term → Prop
  | intro {members : List (String × Json)} {id offset : UInt64} {name : String} {tag : Tag}
    {json : Json} {value : Payload Term} :
    SpellsProvenance (members.lookup "id") id →
    SpellsProvenance (members.lookup "offset") offset →
    members.lookup "value" = some (.object [(name, json)]) →
    SpellsTag name tag → SpellsPayload Spells tag json value →
    Spells (.object members) ⟨id, offset, value⟩

end HostBridge.Json
