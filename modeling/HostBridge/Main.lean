import HostBridge.CommandLine.Run
import HostBridge.Json.Exact

/-!
The command line program, over the exact library.
-/

namespace HostBridge.CommandLine

/-- The text of some bytes. -/
def textOf (bytes : ByteArray) : Except String String :=
  match String.fromUTF8? bytes with
  | some text => .ok text
  | none => .error "stream did not contain valid UTF-8"

def readFile (path : String) : IO (Except String String) := do
  try return textOf (← IO.FS.readBinFile path)
  catch e => return .error (toString e)

/-- The bytes of a stream up to its end. -/
partial def readToEnd (stream : IO.FS.Stream) (bytes : ByteArray) : IO ByteArray := do
  let more ← stream.read 65536
  if more.isEmpty then return bytes else readToEnd stream (bytes ++ more)

def readInput : IO (Except String String) := do
  try return textOf (← readToEnd (← IO.getStdin) .empty)
  catch e => return .error (toString e)

/-- A log that writes a line for each record. -/
def lines : Log := fun r =>
  let fields := r.fields.map fun (name, value) => s!" {name}={value}"
  s!"INFO {r.target}: {r.message}{String.join fields}\n"

end HostBridge.CommandLine

open HostBridge.CommandLine in
def main (args : List String) : IO UInt32 := do
  let outcome ← run ⟨readFile, readInput⟩ args
  IO.print (outcome.written lines)
  IO.eprint outcome.complaint
  return outcome.exitCode
