import HostBridge.Config.Basic
import HostBridge.Error
import HostBridge.Toml.Reader

/-!
Reading settings.

Settings are written as a TOML document. A setting that is left out has its default, one that is
there must be of its kind, and entries of other names are passed over.
-/

namespace HostBridge.Config

/-- A setting of the given kind, or its default if it is left out. -/
def setting {α : Type} (d : Toml.Document) (name : String) (default : α)
    (ofValue : Toml.Value → Option α) : Option α :=
  match d.value? name with
  | none => some default
  | some v => ofValue v

def switch? : Toml.Value → Option Bool
  | .boolean b => some b
  | _ => none

/-- A number of 32 bits without a sign. -/
def level? : Toml.Value → Option UInt32
  | .integer n => if 0 ≤ n ∧ n < 0x100000000 then some (UInt32.ofNat n.toNat) else none
  | _ => none

def ofDocument? (d : Toml.Document) : Option Config := do
  let acceptExpression ← setting d "accept_expression" false switch?
  let trace ← setting d "trace" 0 level?
  let rejectUnregistered ← setting d "reject_unregistered_classes" false switch?
  some { acceptExpression, trace, rejectUnregistered }

/-- The settings in a text, of which the origin is named in errors. -/
def parse (origin text : String) : Except ConfigError Config :=
  match Toml.parse? text with
  | none => .error (.malformed origin "the text is not a TOML document")
  | some d =>
    match ofDocument? d with
    | none => .error (.malformed origin "a setting is not of its kind")
    | some c => .ok c

end HostBridge.Config
