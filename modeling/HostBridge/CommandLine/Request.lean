/-!
What the command line asks for.

A command line names one of two commands. Options may stand before and after it: a file of
settings on either side, where the later side prevails, and the options of the command after it.
On each side an option is given at most once.
-/

namespace HostBridge.CommandLine

inductive Verb where
  /-- Shows the host value of a term. -/
  | decode
  /-- Shows the canonical text of a term. -/
  | check
deriving DecidableEq, Repr

structure Options where
  /-- The file of the settings. -/
  config : Option String := none
  /-- The file of the term, which else comes from the standard input. -/
  file : Option String := none
  acceptExpression : Bool := false
deriving DecidableEq, Repr

inductive Request where
  | version
  | inspect (verb : Verb) (options : Options)
deriving DecidableEq, Repr

/-- What an argument looks like. -/
inductive Argument where
  | word (text : String)
  /-- One dash and letters. -/
  | letters (letters : List Char)
  | option (name : String)
  | assignment (name value : String)
  /-- Two dashes alone, after which nothing is an option. -/
  | finish
deriving DecidableEq, Repr

def Argument.ofText (text : String) : Argument :=
  match text.toList with
  | ['-', '-'] => finish
  | '-' :: '-' :: rest =>
    match rest.dropWhile (· ≠ '=') with
    | [] => option (String.ofList rest)
    | _ :: value => assignment (String.ofList (rest.takeWhile (· ≠ '='))) (String.ofList value)
  | '-' :: c :: rest => letters (c :: rest)
  | _ => word text

/-- A path for an option that has none yet; no path is empty. -/
def givePath? (given : Option String) (path : String) : Option (Option String) :=
  if given.isNone ∧ path ≠ "" then some (some path) else none

/-- Gives an option that takes a value; before the command there is only one. -/
def Options.give? (o : Options) (verb : Option Verb) (name value : String) : Option Options :=
  if name = "config" then do
    let config ← givePath? o.config value
    some { o with config }
  else if name = "file" ∧ verb.isSome then do
    let file ← givePath? o.file value
    some { o with file }
  else none

/-- Gives an option whose value is the next argument, which must be a word. -/
def Options.giveNext? (o : Options) (verb : Option Verb) (name value : String) :
    Option Options :=
  match Argument.ofText value with
  | .word value => o.give? verb name value
  | _ => none

/-- The arguments after the command. -/
def readOptions (verb : Verb) (o : Options) : List String → Option Options
  | [] => some o
  | arg :: rest =>
    match Argument.ofText arg with
    | .finish => if rest.isEmpty then some o else none
    | .assignment name value => do
      let o ← o.give? verb name value
      readOptions verb o rest
    | .option name =>
      if name = "accept-expression" then
        if verb = .decode ∧ !o.acceptExpression then
          readOptions verb { o with acceptExpression := true } rest
        else none
      else
        match rest with
        | [] => none
        | value :: rest => do
          let o ← o.giveNext? verb name value
          readOptions verb o rest
    | .letters _ | .word _ => none

def Verb.ofName? (name : String) : Option Verb :=
  if name = "decode" then some decode
  else if name = "check" then some check
  else none

/-- The request of a command, with the settings from before it unless others follow it. -/
def inspect? (outer : Options) (name : String) (rest : List String) : Option Request := do
  let verb ← Verb.ofName? name
  let o ← readOptions verb {} rest
  some (.inspect verb { o with config := o.config.or outer.config })

/-- The arguments up to the command, and then the rest. -/
def readRequest (outer : Options) : List String → Option Request
  | [] => none
  | arg :: rest =>
    match Argument.ofText arg with
    | .word name => inspect? outer name rest
    | .letters letters => if letters.head? = some 'V' then some .version else none
    | .assignment name value => do
      let outer ← outer.give? none name value
      readRequest outer rest
    | .option name =>
      if name = "version" then some .version
      else
        match rest with
        | [] => none
        | value :: rest => do
          let outer ← outer.giveNext? none name value
          readRequest outer rest
    | .finish => none

/-- The request of a command line, if it is well-formed. -/
def Request.ofArguments? (args : List String) : Option Request := readRequest {} args

end HostBridge.CommandLine
