/-!
# Paths

A path is the sequence of its parts between slashes. Parts that are empty and dots name nothing,
except that a dot may begin a path.
-/

namespace ReplayVector

/-- The name of a file or directory, by way of the directories that lead to it. -/
structure Path where
  parts : List String
  deriving DecidableEq, Inhabited

namespace Path

/-- Reads a path. -/
def ofString (s : String) : Path := ⟨s.splitOn "/"⟩

/-- The text of a path. -/
def toString (p : Path) : String := "/".intercalate p.parts

instance : ToString Path := ⟨toString⟩

/-- The part names nothing. -/
def isBlank (part : String) : Bool := part = "" ∨ part = "."

/-- The parts up to the last one that names something. -/
def trimEnd (parts : List String) : List String := (parts.reverse.dropWhile isBlank).reverse

/-- What a path starts with, and the other parts: the root, the dot that stands for the working
directory, or nothing. -/
def split (p : Path) : List String × List String :=
  match p.parts with
  | "" :: rest => if rest.isEmpty then ([], []) else ([""], rest)
  | "." :: rest => (["."], rest)
  | parts => ([], parts)

/-- The path starts from the root. -/
def isAbsolute (p : Path) : Bool := p.split.1 = [""]

/-- The path without the last part that names something; `none` if there is no such part. -/
def parent? (p : Path) : Option Path :=
  let (start, rest) := p.split
  match trimEnd rest with
  | [] => if start = ["."] then some ⟨[""]⟩ else none
  | named =>
    match start, trimEnd named.dropLast with
    | [""], [] => some ⟨["", ""]⟩
    | [], [] => some ⟨[""]⟩
    | start, parts => some ⟨start ++ parts⟩

/-- The directory that a path is in: its parent, or the working directory. -/
def directory (p : Path) : Path :=
  match p.parent? with
  | some q => if q.parts = [""] then ⟨["."]⟩ else q
  | none => ⟨["."]⟩

/-- A path inside a directory. Paths that start from the root stay as they are. -/
def under (p directory : Path) : Path :=
  if p.isAbsolute then p else ⟨directory.parts ++ p.parts⟩

end Path

end ReplayVector
