import HostBridge.Files.Path

/-!
A tree of files under one directory.

Files hold bytes. A path leads step by step from the top: every step but the last must lead to
a directory that is there. Above the top lie directories in which nothing else is known, and an
absolute path leads nowhere.
-/

namespace HostBridge

inductive FileError where
  | notFound
  | notADirectory
  | isADirectory
  | alreadyExists
  | nullInName
  | nameTooLong
  | notText
deriving DecidableEq, Repr

def FileError.message : FileError → String
  | notFound => "No such file or directory"
  | notADirectory => "Not a directory"
  | isADirectory => "Is a directory"
  | alreadyExists => "File exists"
  | nullInName => "file name contained an unexpected NUL byte"
  | nameTooLong => "File name too long"
  | notText => "stream did not contain valid UTF-8"

inductive FileEntry where
  | directory
  | file (bytes : ByteArray)

/-- The entries, by the names that lead to them from the top, steps up first. -/
structure Files where
  entries : List (List String × FileEntry)

namespace Files

def empty : Files := ⟨[]⟩

/-- What is at a place; the top and all places above it are directories. -/
def entry? (fs : Files) (place : List String) : Option FileEntry :=
  if place.all (· == "..") then some .directory else fs.entries.lookup place

def put (fs : Files) (place : List String) (entry : FileEntry) : Files :=
  ⟨(place, entry) :: fs.entries.filter (·.1 != place)⟩

/-- The steps of a path; a slash at the end is a step that stays where it is. -/
def steps (path : String) : List String :=
  let pieces := Path.pieces path
  pieces.filter (· != "") ++ (if pieces.getLast? = some "" then ["."] else [])

/-- How many bytes a name may have. -/
def maxName : Nat := 255

/-- How many bytes a path may have. -/
def maxPath : Nat := 4095

/-- The place around a place. -/
def around (place : List String) : List String :=
  if place.all (· == "..") then place ++ [".."] else place.dropLast

/-- Where a step leads from a directory. -/
def step (fs : Files) (place : List String) (name : String) : Except FileError (List String) :=
  match fs.entry? place with
  | none => .error .notFound
  | some (.file _) => .error .notADirectory
  | some .directory =>
    if maxName < name.utf8ByteSize then .error .nameTooLong
    else if name = "." then .ok place
    else if name = ".." then .ok (around place)
    else .ok (place ++ [name])

/-- Where a path leads; nothing need be there yet. -/
def locate (fs : Files) (path : String) : Except FileError (List String) :=
  if path.contains (Char.ofNat 0) then .error .nullInName
  else if maxPath < path.utf8ByteSize then .error .nameTooLong
  else if path = "" ∨ Path.isAbsolute path then .error .notFound
  else (steps path).foldlM fs.step []

def isDirectory (fs : Files) (path : String) : Bool :=
  match fs.locate path with
  | .ok place => match fs.entry? place with
    | some .directory => true
    | _ => false
  | .error _ => false

def readBytes (fs : Files) (path : String) : Except FileError ByteArray := do
  match fs.entry? (← fs.locate path) with
  | none => .error .notFound
  | some .directory => .error .isADirectory
  | some (.file bytes) => .ok bytes

def readText (fs : Files) (path : String) : Except FileError String := do
  match String.fromUTF8? (← fs.readBytes path) with
  | some text => .ok text
  | none => .error .notText

def writeBytes (path : String) (bytes : ByteArray) : EStateM FileError Files Unit := fun fs =>
  match fs.locate path with
  | .error e => .error e fs
  | .ok place =>
    match fs.entry? place with
    | some .directory => .error .isADirectory fs
    | _ => .ok () (fs.put place (.file bytes))

def createDirectory (path : String) : EStateM FileError Files Unit := fun fs =>
  match fs.locate path with
  | .error e => .error e fs
  | .ok place =>
    match fs.entry? place with
    | some _ => .error .alreadyExists fs
    | none => .ok () (fs.put place .directory)

/-- Creates a directory unless one is there already. -/
def ensureDirectory (path : String) : EStateM FileError Files Unit := fun fs =>
  match createDirectory path fs with
  | .error e fs => if fs.isDirectory path then .ok () fs else .error e fs
  | result => result

/-- Creates a directory and those it lies in, going up at most `fuel` times. -/
def createPath : Nat → String → EStateM FileError Files Unit
  | 0, path => ensureDirectory path
  | fuel + 1, path => fun fs =>
    if path = "" then .ok () fs
    else
      match ensureDirectory path fs with
      | .error .notFound fs =>
        match Path.parent? path with
        | none => .error .notFound fs
        | some outer =>
          match createPath fuel outer fs with
          | .error e fs => .error e fs
          | .ok () fs => ensureDirectory path fs
      | result => result

/-- Creates a directory and those it lies in; a path has no more parents than characters. -/
def createDirectories (path : String) : EStateM FileError Files Unit :=
  createPath (path.length + 1) path

end Files

end HostBridge
