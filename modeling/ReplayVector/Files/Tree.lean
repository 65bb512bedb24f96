import ReplayVector.Files.Disk

/-!
# Files in memory

A tree of directories and files as a finite map from locations, the names on the way from the root,
to what is there. It is a `Disk`, and shows what a failing step leaves behind.
-/

namespace ReplayVector

/-- What is at a location. -/
inductive FileEntry where
  | file (contents : Bytes)
  | directory
  deriving DecidableEq, Inhabited

/-- Directories and files, and the directory that paths start from. -/
structure FileTree where
  /-- What there is besides the root, each location once. -/
  entries : List (List String × FileEntry)
  current : List String
  deriving DecidableEq, Inhabited

namespace FileTree

/-- What is at a location; the root is always there. -/
def get? (t : FileTree) : List String → Option FileEntry
  | [] => some .directory
  | location => t.entries.lookup location

/-- Removes what is at a location. -/
def erase (t : FileTree) (location : List String) : FileTree :=
  { t with entries := t.entries.filter fun e => e.1 ≠ location }

/-- Puts something at a location. -/
def set (t : FileTree) (location : List String) (e : FileEntry) : FileTree :=
  { t with entries := (t.erase location).entries ++ [(location, e)] }

/-- The longest name, in bytes. -/
def longestName : Nat := 255

/-- A name that files can have. -/
def isName (part : String) : Bool :=
  part ≠ "" ∧ part ≠ "." ∧ part ≠ ".." ∧ part.utf8ByteSize ≤ longestName

/-- The longest path, in bytes. -/
def longestPath : Nat := 4095

/-- A path that can be followed at all: it is not too long and holds no zero character. -/
def isPath (p : Path) : Bool :=
  p.toString.utf8ByteSize ≤ longestPath ∧ ! p.toString.toList.contains '\x00'

/-- Where a path starts. -/
def start (t : FileTree) (p : Path) : List String := if p.isAbsolute then [] else t.current

/-- What there is below the current directory, with the names on the way. -/
def below (t : FileTree) : List (List String × FileEntry) :=
  t.entries.filterMap fun (location, e) =>
    let names := location.drop t.current.length
    if names ≠ [] ∧ t.current.isPrefixOf location then some (names, e) else none

/-- Follows the parts of a path through directories. -/
def walk (t : FileTree) : List String → List String → Option (List String)
  | location, [] => some location
  | location, part :: parts =>
    if Path.isBlank part then walk t location parts
    else if part = ".." then walk t location.dropLast parts
    else if t.get? (location ++ [part]) = some .directory then walk t (location ++ [part]) parts
    else none

/-- Follows the parts of a path and creates directories that are missing. The second component
tells whether the end was reached. -/
def walkCreating (t : FileTree) : List String → List String → FileTree × Bool
  | _, [] => (t, true)
  | location, part :: parts =>
    if Path.isBlank part then walkCreating t location parts
    else if part = ".." then walkCreating t location.dropLast parts
    else
      let next := location ++ [part]
      match t.get? next with
      | some .directory => walkCreating t next parts
      | some (.file _) => (t, false)
      | none =>
        if isName part then walkCreating (t.set next .directory) next parts else (t, false)

/-- Creates the directories that a path names, unless they are there. The second component tells
whether the end was reached. -/
def makeDirectories (t : FileTree) (p : Path) : FileTree × Bool :=
  if isPath p then t.walkCreating (t.start p) p.parts else (t, false)

/-- The location of the directory that a path names. -/
def directoryAt (t : FileTree) (p : Path) : Option (List String) := t.walk (t.start p) p.parts

/-- The location that a path names, whether something is there or not. Its last part has to be a
name, and what comes before has to be a directory. -/
def locate (t : FileTree) (p : Path) : Option (List String) := do
  let name ← p.parts.getLast?
  if isPath p ∧ isName name then
    return (← t.walk (t.start p) p.parts.dropLast) ++ [name]
  else none

/-- A name that is not taken in a directory. -/
def freshName (t : FileTree) (location : List String) : Option String :=
  ((List.range (t.entries.length + 1)).map fun n => s!".tmp{n}").find? fun name =>
    (t.get? (location ++ [name])).isNone

/-- Appends to a file. -/
def append (t : FileTree) (location : List String) (contents : Bytes) : Option FileTree :=
  match t.get? location with
  | some (.file before) => some (t.set location (.file (before ++ contents)))
  | _ => none

/-- Moves a file to another location, unless a directory is there. -/
def move (t : FileTree) (source target : List String) : Option FileTree :=
  match t.get? source, t.get? target with
  | some (.file _), some .directory => none
  | some (.file contents), _ => some ((t.erase source).set target (.file contents))
  | _, _ => none

/-- Changes the tree if that is possible. -/
def change [Monad m] (f : FileTree → Option FileTree) : StateT FileTree m Bool :=
  modifyGet fun t =>
    match f t with
    | some t => (true, t)
    | none => (false, t)

/-- Creates an empty file with a new name, and gives its path. Nothing may be at that path, and it
has to be one that can be followed. -/
def addTemporary (t : FileTree) (p : Path) : Option (Path × FileTree) := do
  let name ← t.freshName (← t.directoryAt p)
  let temporary : Path := ⟨p.parts ++ [name]⟩
  let location ← t.locate temporary
  if (t.get? location).isNone then return (temporary, t.set location (.file [])) else none

/-- The disk that is a tree in memory. -/
def disk [Monad m] : Disk (StateT FileTree m) where
  createDirectories p := modifyGet fun t =>
    let (t, whole) := t.makeDirectories p
    (whole, t)
  createTemporary p := modifyGet fun t =>
    match t.addTemporary p with
    | some (temporary, t) => (some temporary, t)
    | none => (none, t)
  write p contents := change fun t => do t.append (← t.locate p) contents
  sync p := return ((← get).locate p).isSome
  rename p q := change fun t => do t.move (← t.locate p) (← t.locate q)
  remove p := modify fun t =>
    match t.locate p with
    | some location => t.erase location
    | none => t

end FileTree

end ReplayVector
