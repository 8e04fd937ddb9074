import HostBridge.Json.Reader

/-!
Passing over JSON values.

A value that nobody asks for has only to be well formed: its numbers may be of any size, its
strings may hold any code unit, and its arrays and objects may contain one another to any depth.
-/

namespace HostBridge.Json

/-- Reads, and keeps nothing of what is read. -/
def discard {α : Type} (reader : Reader α) : Reader Unit := fun cs =>
  (reader cs).map fun (_, rest) => ((), rest)

/-- What follows a backslash; a surrogate need not have a partner. -/
def skimEscape : Reader Char
  | 'u' :: rest => (readUnit rest).map fun (_, rest) => ('u', rest)
  | cs => readEscape cs

/-- A string after its opening quote. -/
def skimString (limit : Nat) : Reader Unit :=
  discard (Text.readQuoted skimEscape isPlain limit)

/-- A value other than an array or object. -/
def skimScalar (limit : Nat) : Reader Unit
  | '"' :: rest => skimString limit rest
  | cs => discard readNamed cs <|> discard Numeral.read? cs

/-- A value in which arrays and objects contain one another to at most the given depth. -/
def skimNested (limit : Nat) : Nat → Reader Unit
  | 0 => fun cs => skimScalar limit (skipBlanks cs)
  | depth + 1 => fun cs =>
    match skipBlanks cs with
    | '[' :: rest => discard (readSequence limit (skimNested limit depth) ']') rest
    | '\x7b' :: rest =>
      discard (readSequence limit (readMember (skimString limit) fun _ => skimNested limit depth)
        '\x7d') rest
    | cs => skimScalar limit cs

/-- A value of any depth, which is less than the length of the text. -/
def skimValue (limit : Nat) : Reader Unit := skimNested limit limit

end HostBridge.Json
