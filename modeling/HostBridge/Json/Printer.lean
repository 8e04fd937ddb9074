import HostBridge.Double.Shortest
import HostBridge.Json.Basic

/-!
JSON text without blanks.

Members are written in the order in which the tree lists them. In strings only the quote, the
backslash and the characters below the space are escaped.
-/

namespace HostBridge.Json

/--
Numbers from `1e-5` up to `1e16` are written in full, an exponent always bears its sign, and
of two equally near shortest forms the one with the even last digit is taken.
-/
def floatStyle : Double.Style where
  least := -4
  greatest := 16
  plus := true
  tie := .toEven

def printInt (n : Int) : List Char :=
  if n < 0 then '-' :: Nat.toDigits 10 n.natAbs else Nat.toDigits 10 n.natAbs

def Number.print : Number → List Char
  | .integer n _ => printInt n
  | .float x => x.render floatStyle

/-- Two lower-case hexadecimal digits. -/
def hexPair (n : Nat) : List Char := [Nat.digitChar (n / 16 % 16), Nat.digitChar (n % 16)]

def escape (c : Char) : List Char :=
  if c = '"' then ['\\', '"']
  else if c = '\\' then ['\\', '\\']
  else if c = '\n' then ['\\', 'n']
  else if c = '\t' then ['\\', 't']
  else if c = '\r' then ['\\', 'r']
  else if c = Char.ofNat 8 then ['\\', 'b']
  else if c = Char.ofNat 12 then ['\\', 'f']
  else if c.toNat < 32 then '\\' :: 'u' :: '0' :: '0' :: hexPair c.toNat
  else [c]

def printString (s : String) : List Char := '"' :: (s.toList.flatMap escape ++ ['"'])

mutual

/-- The text of a tree. -/
def printChars : Json → List Char
  | null => ['n', 'u', 'l', 'l']
  | boolean true => ['t', 'r', 'u', 'e']
  | boolean false => ['f', 'a', 'l', 's', 'e']
  | number n => n.print
  | string s => printString s
  | array [] => ['[', ']']
  | array (item :: rest) => '[' :: (printChars item ++ printItems rest)
  | object [] => ['\x7b', '\x7d']
  | object ((key, value) :: rest) =>
    '\x7b' :: (printString key ++ ':' :: (printChars value ++ printMembers rest))

/-- The items after the first, and the closing bracket. -/
def printItems : List Json → List Char
  | [] => [']']
  | item :: rest => ',' :: (printChars item ++ printItems rest)

/-- The members after the first, and the closing bracket. -/
def printMembers : List (String × Json) → List Char
  | [] => ['\x7d']
  | (key, value) :: rest =>
    ',' :: (printString key ++ ':' :: (printChars value ++ printMembers rest))

end

def print (json : Json) : String := String.ofList (printChars json)

end HostBridge.Json
