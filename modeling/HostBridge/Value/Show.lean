import HostBridge.Double.Shortest
import HostBridge.Value.Basic

/-!
The text of host values, for people to read.

Strings are quoted, keys of dictionaries and names are not. Keyword arguments of a predicate
are not shown.
-/

namespace HostBridge

/--
Numbers from `1e-4` up to `1e16` are written in full, an exponent bears a sign only when
negative, and of two equally near shortest forms the larger is taken.
-/
def Double.shownStyle : Double.Style where
  least := -3
  greatest := 16
  plus := false
  tie := .upward

def Double.shown : Double → String
  | .nan => "NaN"
  | .infinite false => "inf"
  | .infinite true => "-inf"
  | .finite x => String.ofList (x.render shownStyle)

/-- A reference as it is shown: the id, and the description if there is one. -/
def Handle.shown {τ : Type} (handle : Handle τ) : String :=
  match handle.repr with
  | some repr => s!"<instance {handle.id}: {repr}>"
  | none => s!"<instance {handle.id}>"

namespace Value

variable {α : Type}

def commaSeparated (parts : List String) : String := ", ".intercalate parts

def braced (parts : List String) : String := s!"\x7b{commaSeparated parts}\x7d"

mutual

def shown : Value α → String
  | nil => "nil"
  | boolean b => toString b
  | integer n => toString n
  | float x => x.shown
  | string s => Text.quoted s
  | list items => s!"[{commaSeparated (itemsShown items)}]"
  | dictionary fields => braced (fieldsShown fields)
  | map pairs => braced (pairsShown pairs)
  | reference handle => handle.shown
  | object o => o.repr
  | predicate name args _ => s!"{name}({commaSeparated (itemsShown args)})"
  | var name => name
  | expression operator args => s!"{operator.name}({commaSeparated (itemsShown args)})"
  | pattern tag fields => tag.getD "" ++ braced (fieldsShown fields)
termination_by structural v => v

def itemsShown : List (Value α) → List String
  | [] => []
  | v :: rest => shown v :: itemsShown rest
termination_by structural vs => vs

def fieldsShown : List (String × Value α) → List String
  | [] => []
  | (key, v) :: rest => s!"{key}: {shown v}" :: fieldsShown rest
termination_by structural vs => vs

def pairsShown : List (Value α × Value α) → List String
  | [] => []
  | (k, v) :: rest => s!"{shown k}: {shown v}" :: pairsShown rest
termination_by structural vs => vs

end

end Value

end HostBridge
