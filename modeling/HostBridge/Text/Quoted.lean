import HostBridge.Text.Combining
import HostBridge.Text.Unprintable

/-!
Text in double quotes, as it is shown to people.

The quote, the backslash and the usual blanks have short escapes. What could not be seen, or
would fuse with its neighbour, is written as its code point; the rest stands for itself.
-/

namespace HostBridge.Text

/-- The code point in lower-case hexadecimal, without padding. -/
def escapeCodePoint (c : Char) : List Char :=
  '\\' :: 'u' :: '\x7b' :: (Nat.toDigits 16 c.toNat ++ ['\x7d'])

def quoteChar (c : Char) : List Char :=
  if c = '"' then ['\\', '"']
  else if c = '\\' then ['\\', '\\']
  else if c = '\n' then ['\\', 'n']
  else if c = '\t' then ['\\', 't']
  else if c = '\r' then ['\\', 'r']
  else if c.toNat = 0 then ['\\', '0']
  else if 32 ≤ c.toNat ∧ c.toNat < 127 then [c]
  else if isCombining c || !isPrintable c then escapeCodePoint c
  else [c]

def quoted (s : String) : String := String.ofList ('"' :: (s.toList.flatMap quoteChar ++ ['"']))

end HostBridge.Text
