import HostBridge.Config.Reader
import HostBridge.Files.Basic

/-!
Settings kept in files.

Loading takes the settings from the text that reading the file answered. Saving first creates
the directory in which the file lies, and those around it.
-/

namespace HostBridge.Config

/-- The settings in the file of a path, given its text or why it cannot be read. -/
def ofFile (path : String) (read : Except String String) : Except ConfigError Config :=
  match read with
  | .ok text => parse path text
  | .error cause => .error (.unreadable path cause)

def load (fs : Files) (path : String) : Except ConfigError Config :=
  ofFile path ((fs.readText path).mapError FileError.message)

/-- Creates the directory in which a path lies. -/
def makeRoom (path : String) : EStateM ConfigError Files Unit :=
  match Path.parent? path with
  | none => pure ()
  | some outer =>
    (Files.createDirectories outer).adaptExcept fun e => .unwritable outer e.message

def save (c : Config) (path : String) : EStateM ConfigError Files Unit := do
  makeRoom path
  (Files.writeBytes path c.render.toUTF8).adaptExcept fun e => .unwritable path e.message

end HostBridge.Config
