import HostBridge.CommandLine.Request
import HostBridge.Config.File
import HostBridge.Host.Basic
import HostBridge.Term.Printer
import HostBridge.Term.Reader
import HostBridge.Value.Show

/-!
Running the command line.

A run reads its files, and the standard input if it must, by whatever means it is given. What it
makes of the texts depends on nothing else. The line that a command prints and the records that it
leaves in the log are kept apart: both go to the standard output, the records in whatever form the
log gives them, unless the log leaves them out.
-/

namespace HostBridge.CommandLine

/-! ### Records -/

/-- What a run tells the log, the finer traces of single terms apart. -/
inductive Record where
  /-- A session begins, with what the settings say of expressions and the number of its classes. -/
  | sessionBegun (acceptExpression : Bool) (classes : Nat)
  /-- A term with a tag was read. -/
  | termRead (tag : String)
deriving DecidableEq, Repr

namespace Record

/-- The part of the program that speaks. -/
def target : Record → String
  | sessionBegun .. => "polar_host::host"
  | termRead _ => "polar_host"

def message : Record → String
  | sessionBegun .. => "initializing host session"
  | termRead _ => "term is well-formed"

def fields : Record → List (String × String)
  | sessionBegun acceptExpression classes =>
    [("accept_expression", toString acceptExpression), ("classes", toString classes)]
  | termRead tag => [("tag", tag)]

end Record

/-- What a log writes of each record, which is nothing if it leaves the record out. -/
abbrev Log := Record → String

namespace Log

/-- What a log writes of several records. -/
def text (log : Log) (records : List Record) : String := String.join (records.map log)

theorem text_eq_empty_iff {log : Log} {records : List Record} :
    log.text records = "" ↔ ∀ r ∈ records, log r = "" := by
  induction records with
  | nil => exact ⟨nofun, fun _ => rfl⟩
  | cons r rest ih =>
    rw [text] at ih
    rw [text, List.map_cons, String.join_cons, String.append_eq_empty_iff, ih,
      List.forall_mem_cons]

end Log

/-! ### Outcomes -/

/-- How a run reads; a reading that fails says why. -/
structure Surroundings (m : Type → Type) where
  readFile : String → m (Except String String)
  readInput : m (Except String String)

inductive Outcome where
  | done (records : List Record) (output : String)
  | failed (records : List Record) (message : String)
  | misused
deriving DecidableEq, Repr

namespace Outcome

def exitCode : Outcome → UInt32
  | done .. => 0
  | failed .. => 1
  | misused => 2

/-- What the command prints. -/
def output : Outcome → String
  | done _ output => output
  | failed .. | misused => ""

def records : Outcome → List Record
  | done records _ | failed records _ => records
  | misused => []

/-- What is written to the standard output: the records come first. -/
def written (log : Log) (o : Outcome) : String := log.text o.records ++ o.output

/-- What is written is what the command prints where the log leaves out all records, and only
there. -/
theorem written_eq_output_iff {log : Log} {o : Outcome} :
    o.written log = o.output ↔ ∀ r ∈ o.records, log r = "" := by
  have hcancel : log.text o.records ++ o.output = "" ++ o.output ↔ log.text o.records = "" :=
    String.append_left_inj o.output
  rw [String.empty_append] at hcancel
  exact hcancel.trans Log.text_eq_empty_iff

/-- What is written to the standard error. -/
def complaint : Outcome → String
  | done .. => ""
  | failed _ message => s!"error: {message}\n"
  | misused => "usage: polar-host [--config PATH] (decode | check) [--file PATH]\n"

end Outcome

/-- What a command makes of the text of a term: what it tells the log, and the line it prints. -/
structure Reply where
  records : List Record
  line : Except Error String

/-- The session of a run, which accepts expressions if the settings or the switch say so. -/
def session (config : Config) (acceptExpression : Bool) : Host Empty :=
  if acceptExpression then (Host.new config).setAcceptExpression true else .new config

theorem acceptExpression_session (config : Config) (acceptExpression : Bool) :
    (session config acceptExpression).config.acceptExpression =
      (config.acceptExpression || acceptExpression) := by
  cases acceptExpression with
  | false => rw [Bool.or_false]; rfl
  | true => rw [Bool.or_true]; rfl

variable [Json.Library]

/-- The reply of a command whose switch for expressions is given or not. -/
def answer (verb : Verb) (config : Config) (acceptExpression : Bool) (text : String) : Reply :=
  match Term.parse text with
  | .error e => ⟨[], .error (.term e)⟩
  | .ok t =>
    match verb with
    | .check => ⟨[.termRead t.tag.name], .ok (t.print ++ "\n")⟩
    | .decode =>
      let host := session config acceptExpression
      let line := do
        let v ← host.toValue t
        .ok s!"{v.shown} ({v.kind})\n"
      ⟨[.sessionBegun config.acceptExpression host.classes.size], line⟩

variable {m : Type → Type} [Monad m]

/-- The settings of a run. -/
def settings (world : Surroundings m) (o : Options) : m (Except ConfigError Config) :=
  match o.config with
  | none => pure (.ok {})
  | some path => do
    let read ← world.readFile path
    pure (Config.ofFile path read)

/-- The text of the term. -/
def input (world : Surroundings m) (o : Options) : m (Except String String) :=
  match o.file with
  | none => world.readInput
  | some path => world.readFile path

def run (world : Surroundings m) (args : List String) : m Outcome := do
  match Request.ofArguments? args with
  | none => pure .misused
  | some .version => pure (.done [] "polar-host 0.1.0\n")
  | some (.inspect verb o) =>
    match ← settings world o with
    | .error e => pure (.failed [] e.message)
    | .ok config =>
      match ← input world o with
      | .error cause => pure (.failed [] cause)
      | .ok text =>
        match answer verb config o.acceptExpression text with
        | ⟨records, .error e⟩ => pure (.failed records e.message)
        | ⟨records, .ok output⟩ => pure (.done records output)

end HostBridge.CommandLine
