/-!
What can go wrong between the host and the engine.

An error is a cause. Its message, its diagnostic code, its advice and the failure underneath
are functions of the cause.
-/

namespace HostBridge

/-- Failures to read or write a wire term. -/
inductive TermError where
  /-- Some part of a term has another shape than its place requires. -/
  | mismatch (context expected actual : String)
  | unknownTag (tag context : String)
  | unknownOperator (name : String)
  | expressionNotAllowed
  | keyNotText (key : String)
  | unsupportedItem (index : Nat) (kind : String)
  /-- The text is not JSON. -/
  | malformed (message : String)
deriving DecidableEq, Repr

/-- Failures of the instance table. -/
inductive InstanceError where
  | unbound (id : UInt64)
  | taken (id : UInt64) (existing incoming : String)
  | exhausted
deriving DecidableEq, Repr

/-- Failures of the class table. -/
inductive ClassError where
  | unknown (name : String)
  | notConstructed (name message : String)
  | nameTaken (name : String)
deriving DecidableEq, Repr

/-- Failures to evaluate an operator. -/
inductive OperatorError where
  | unimplemented (operator : String)
  | arity (operator : String) (expected actual : Nat)
deriving DecidableEq, Repr

/-- Failures to load or save a configuration. -/
inductive ConfigError where
  | unreadable (path cause : String)
  | unwritable (path cause : String)
  | malformed (path message : String)
deriving DecidableEq, Repr

/-- Failures of the engine, or of what is read on its behalf. -/
inductive EngineError where
  | rejected (operation message : String)
  | sourceUnreadable (path cause : String)
deriving DecidableEq, Repr

inductive Error where
  | term (error : TermError)
  | instances (error : InstanceError)
  | classes (error : ClassError)
  | operator (error : OperatorError)
  | config (error : ConfigError)
  | engine (error : EngineError)
deriving DecidableEq, Repr

instance : Coe TermError Error := ⟨.term⟩
instance : Coe InstanceError Error := ⟨.instances⟩
instance : Coe ClassError Error := ⟨.classes⟩
instance : Coe OperatorError Error := ⟨.operator⟩
instance : Coe ConfigError Error := ⟨.config⟩
instance : Coe EngineError Error := ⟨.engine⟩

/-! ### Messages -/

def TermError.message : TermError → String
  | mismatch context expected actual =>
    s!"decode error in {context}: expected {expected}, got {actual}"
  | unknownTag tag context => s!"unrecognized tag `{tag}` in {context}"
  | unknownOperator name => s!"unknown operator `{name}`"
  | expressionNotAllowed =>
    "received an Expression from the engine while expression acceptance is disabled"
  | keyNotText key => s!"cannot convert map with non-string key `{key}` to a Dictionary"
  | unsupportedItem index kind => s!"unsupported list element at index {index}: {kind}"
  | malformed message => s!"malformed term JSON: {message}"

def InstanceError.message : InstanceError → String
  | unbound id => s!"unregistered instance: {id}"
  | taken id existing incoming =>
    s!"instance id {id} is already bound to {existing}, cannot rebind to {incoming}"
  | exhausted => "instance id space exhausted"

def ClassError.message : ClassError → String
  | unknown name => s!"unknown class: {name}"
  | notConstructed name message => s!"cannot construct {name}: {message}"
  | nameTaken name => s!"class `{name}` is already registered"

def OperatorError.message : OperatorError → String
  | unimplemented operator => s!"unimplemented operation: {operator}"
  | arity operator expected actual =>
    s!"operator {operator} expects {expected} arguments, got {actual}"

def ConfigError.message : ConfigError → String
  | unreadable path _ => s!"failed to read config: {path}"
  | unwritable path _ => s!"failed to write config: {path}"
  | malformed path message => s!"invalid config {path}: {message}"

def EngineError.message : EngineError → String
  | rejected operation message => s!"engine call `{operation}` failed: {message}"
  | sourceUnreadable path _ => s!"failed to read policy source {path}"

def Error.message : Error → String
  | term e => e.message
  | instances e => e.message
  | classes e => e.message
  | operator e => e.message
  | config e => e.message
  | engine e => e.message

/-! ### Diagnostic codes -/

def TermError.code : TermError → String
  | mismatch .. => "polar::term::decode"
  | unknownTag .. => "polar::term::unrecognized_tag"
  | unknownOperator .. => "polar::term::unknown_operator"
  | expressionNotAllowed => "polar::term::expression_not_allowed"
  | keyNotText .. => "polar::term::non_string_key"
  | unsupportedItem .. => "polar::term::unsupported_list_element"
  | malformed .. => "polar::term::json"

def InstanceError.code : InstanceError → String
  | unbound .. => "polar::instance::unregistered"
  | taken .. => "polar::instance::duplicate"
  | exhausted => "polar::instance::exhausted"

def ClassError.code : ClassError → String
  | unknown .. => "polar::class::unknown"
  | notConstructed .. => "polar::class::constructor"
  | nameTaken .. => "polar::class::duplicate"

def OperatorError.code : OperatorError → String
  | unimplemented .. => "polar::operator::unimplemented"
  | arity .. => "polar::operator::arity"

def ConfigError.code : ConfigError → String
  | unreadable .. => "polar::config::read"
  | unwritable .. => "polar::config::write"
  | malformed .. => "polar::config::parse"

def EngineError.code : EngineError → String
  | rejected .. => "polar::engine::call"
  | sourceUnreadable .. => "polar::engine::source_read"

def Error.code : Error → String
  | term e => e.code
  | instances e => e.code
  | classes e => e.code
  | operator e => e.code
  | config e => e.code
  | engine e => e.code

/-! ### Advice -/

def TermError.advice : TermError → String
  | mismatch .. =>
    "The wire term does not have the shape its tag requires. Check that the engine and host " ++
    "agree on the term format version."
  | unknownTag .. =>
    "The engine produced a tag the host does not know. Valid value tags are: String, Boolean, " ++
    "Number, List, Dictionary, ExternalInstance, Call, Variable, Expression, Pattern."
  | unknownOperator .. =>
    "Operator names follow the engine grammar, e.g. `Eq`, `Unify`, `And`."
  | expressionNotAllowed =>
    "The Expression type is only supported when using data filtering features. Did you " ++
    "perform an operation over an unbound variable in your policy? To receive Expression " ++
    "results, set `accept_expression = true` in the host config."
  | keyNotText .. =>
    "The engine only supports dictionaries with string keys. Convert the keys first."
  | unsupportedItem .. =>
    "The list element has no term representation. Convert it to a host value first."
  | malformed .. =>
    "The input is not valid JSON. Terms are exchanged as one JSON object per term."

def InstanceError.advice : InstanceError → String
  | unbound .. =>
    "The engine referenced an instance id the host never registered. Instances are only valid " ++
    "within the session that created them."
  | taken .. => "Instance ids are never reused within a session. Allocate a fresh id."
  | exhausted => "Every instance id has been handed out. Start a new session."

def ClassError.advice : ClassError → String
  | unknown .. => "Register the class with the host before referring to it from a policy."
  | notConstructed name _ =>
    s!"No registered constructor of `{name}` accepts these arguments. Check the argument " ++
    "count and types used in the policy's `new` call."
  | nameTaken .. => "Class names must be unique within a session."

def OperatorError.advice : OperatorError → String
  | unimplemented .. => "The host only evaluates `Eq` over external values."
  | arity .. => "External operators are always binary."

def ConfigError.advice : ConfigError → String
  | unreadable .. => "Check that the file exists and is readable."
  | unwritable .. => "Check that the parent directory is writable."
  | malformed .. =>
    "The config is TOML. Known keys: accept_expression, trace, reject_unregistered_classes."

def EngineError.advice : EngineError → String
  | rejected .. => "The reasoning engine rejected the call. Its message is reported verbatim."
  | sourceUnreadable .. => "Check that the policy file exists and is readable."

def Error.advice : Error → String
  | term e => e.advice
  | instances e => e.advice
  | classes e => e.advice
  | operator e => e.advice
  | config e => e.advice
  | engine e => e.advice

/-! ### Causes -/

/-- The failure of the file system underneath, if there is one. -/
def Error.cause? : Error → Option String
  | config (.unreadable _ cause) => some cause
  | config (.unwritable _ cause) => some cause
  | engine (.sourceUnreadable _ cause) => some cause
  | _ => none

end HostBridge
