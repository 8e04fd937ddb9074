/-!
Paths as texts.

A path is a text of pieces parted by slashes. An empty piece or a single dot says nothing,
unless it comes first: there an empty piece is the root and a dot is the working directory.
-/

namespace HostBridge.Path

/-- The pieces of a path, parted by slashes. -/
def pieces (path : String) : List String :=
  let rec go : List Char → List Char → List String
    | [], piece => [String.ofList piece.reverse]
    | c :: rest, piece =>
      if c = '/' then String.ofList piece.reverse :: go rest [] else go rest (c :: piece)
  go path.toList []

def isAbsolute (path : String) : Bool := path.startsWith "/"

/-- Whether a piece after the first says nothing. -/
def isVacant (piece : String) : Bool := piece = "" || piece = "."

/-- Pieces in reverse order without the vacant ones that come first, the last piece kept. -/
def dropVacant : List String → List String
  | piece :: next :: rest =>
    if isVacant piece then dropVacant (next :: rest) else piece :: next :: rest
  | pieces => pieces

/-- The path of the directory that a path lies in; the root and the empty path have none. -/
def parent? (path : String) : Option String :=
  match dropVacant (pieces path).reverse with
  | [] => none
  | [""] => none
  | _ :: rest =>
    match dropVacant rest with
    | [""] => some "/"
    | outer => some ("/".intercalate outer.reverse)

end HostBridge.Path
