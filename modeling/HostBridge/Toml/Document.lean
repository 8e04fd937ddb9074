import HostBridge.Table

/-!
TOML documents.

A document grows line by line: a header opens a table, and an assignment adds an entry to the
table that was opened last. What may still grow depends on how a table came about. Of values
only those are told apart that settings hold.
-/

namespace HostBridge.Toml

/-- A value; the content of a real number, a string, a time, an array or a table is left out. -/
inductive Value where
  | boolean (b : Bool)
  | integer (n : Int)
  | other
deriving DecidableEq, Repr

/-- How a table came about. -/
inductive Origin where
  /-- Under its own header, or as the top of the document. -/
  | header
  /-- On the way to a table with a header. -/
  | implied
  /-- On the way to a value with a dotted key. -/
  | dotted
deriving DecidableEq, Repr

inductive Entry where
  | value (v : Value)
  | table (origin : Origin) (entries : List (String × Entry))
  /-- An array of tables, of which only the last can still grow. -/
  | tables (last : List (String × Entry))

abbrev Entries := Fields Entry

/-- How assignments and headers differ on their way through tables. -/
inductive Route where
  | key
  | header
deriving DecidableEq, Repr

/-- The origin of the tables that are made on the way. -/
def Route.origin : Route → Origin
  | key => .dotted
  | header => .implied

/-- The keys of a dotted key do not enter a table that has a header of its own. -/
def Route.enters (route : Route) (origin : Origin) : Bool :=
  !(route = key && origin = .header)

/-- Changes the entries that a path leads to, given with their origin. -/
def Entries.change (route : Route) (f : Origin → Entries → Option Entries) :
    List String → Origin → Entries → Option Entries
  | [], origin, entries => f origin entries
  | key :: path, _, entries =>
    match entries.lookup key with
    | none => do
      let inner ← change route f path route.origin []
      some (entries.insert key (.table route.origin inner))
    | some (.value _) => none
    | some (.table origin inner) =>
      if route.enters origin then do
        let inner ← change route f path origin inner
        some (entries.insert key (.table origin inner))
      else none
    | some (.tables last) => do
      let last ← change route f path .header last
      some (entries.insert key (.tables last))

/--
Assigns a value to a dotted key, given as the keys before the last and the last. The key must be
new, and a table that has got entries under a header gets no more by dotted keys, nor the other
way around.
-/
def Entries.assign (path : List String) (key : String) (v : Value) (origin : Origin)
    (entries : Entries) : Option Entries :=
  entries.change .key (fun origin entries =>
    if (origin = .dotted) = (path = []) ∨ entries.contains key then none
    else some (entries.insert key (.value v))) path origin

/-- Opens a table under a header; a table that was only implied so far is taken over. -/
def Entries.openTable (path : List String) (key : String) (entries : Entries) : Option Entries :=
  entries.change .header (fun _ entries =>
    match entries.lookup key with
    | none => some (entries.insert key (.table .header []))
    | some (.table .implied inner) => some (entries.insert key (.table .header inner))
    | some _ => none) path .header

/-- Adds a table to an array of tables. -/
def Entries.openElement (path : List String) (key : String) (entries : Entries) :
    Option Entries :=
  entries.change .header (fun _ entries =>
    match entries.lookup key with
    | none | some (.tables _) => some (entries.insert key (.tables []))
    | some _ => none) path .header

/-- A line of a document, a key being given as the keys before its last and the last. -/
inductive Line where
  | blank
  | assignment (path : List String) (key : String) (value : Value)
  | table (path : List String) (key : String)
  | element (path : List String) (key : String)
deriving DecidableEq, Repr

structure Document where
  entries : Entries
  /-- The path of the table that was opened last. -/
  place : List String

namespace Document

def empty : Document := ⟨[], []⟩

def add (d : Document) : Line → Option Document
  | .blank => some d
  | .assignment path key v =>
    (d.entries.change .header (fun origin entries => entries.assign path key v origin) d.place
      .header).map fun entries => ⟨entries, d.place⟩
  | .table path key =>
    (d.entries.openTable path key).map fun entries => ⟨entries, path ++ [key]⟩
  | .element path key =>
    (d.entries.openElement path key).map fun entries => ⟨entries, path ++ [key]⟩

def ofLines? (lines : List Line) : Option Document := lines.foldlM add empty

/-- The value of a key at the top, tables being values as well. -/
def value? (d : Document) (key : String) : Option Value :=
  (d.entries.lookup key).map fun
    | .value v => v
    | .table .. | .tables _ => .other

end Document

end HostBridge.Toml
