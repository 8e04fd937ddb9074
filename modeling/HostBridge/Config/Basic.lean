/-!
The settings of a host session.
-/

namespace HostBridge

structure Config where
  /-- Whether expressions of the engine may be decoded. -/
  acceptExpression : Bool := false
  /-- The trace level that is passed on to the engine's queries. -/
  trace : UInt32 := 0
  /-- Whether objects without a registered class are refused. -/
  rejectUnregistered : Bool := false
deriving DecidableEq, Repr, Inhabited

namespace Config

/-- The text of the file that holds the settings. -/
def render (c : Config) : String :=
  s!"accept_expression = {c.acceptExpression}\n" ++
  s!"trace = {c.trace}\n" ++
  s!"reject_unregistered_classes = {c.rejectUnregistered}\n"

def describe (c : Config) : String :=
  s!"HostConfig \x7b accept_expression: {c.acceptExpression}, trace: {c.trace}, " ++
  s!"reject_unregistered_classes: {c.rejectUnregistered} \x7d"

end Config

end HostBridge
