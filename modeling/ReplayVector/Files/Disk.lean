import ReplayVector.Failure
import ReplayVector.Files.Path

/-!
# Writing documents

A document is written in steps: its directory is created, a temporary file beside it takes the
bytes, and renaming puts that file in its place. So the document is there as a whole or not at all.
A `Disk` says how the steps are taken, and each of them may fail.
-/

namespace ReplayVector

/-- The steps of writing a document. -/
inductive WriteStep where
  | createDirectories
  | createTemporary
  | write
  | sync
  | rename
  deriving DecidableEq, Inhabited

/-- How the steps are taken, with the effects of a monad. -/
structure Disk (m : Type → Type) where
  /-- Creates a directory and those that lead to it, unless they are there; false if that fails. -/
  createDirectories : Path → m Bool
  /-- Creates an empty file with a new name in a directory. -/
  createTemporary : Path → m (Option Path)
  /-- Appends to a file. -/
  write : Path → Bytes → m Bool
  /-- Waits until a file has been stored. -/
  sync : Path → m Bool
  /-- Gives a file another name and replaces the file of that name. -/
  rename : Path → Path → m Bool
  remove : Path → m Unit

namespace Disk

/-- The disk on which some steps fail. A number tells how far such a step gets: creating directories
ends after that many parts of the path, and writing after that many bytes. The other steps fail
without an effect. -/
def failing [Monad m] (fails : WriteStep → Option Nat) (d : Disk m) : Disk m where
  createDirectories p := do
    match fails .createDirectories with
    | some parts =>
      let _ ← d.createDirectories ⟨p.parts.take parts⟩
      return false
    | none => d.createDirectories p
  createTemporary p :=
    if (fails .createTemporary).isSome then return none else d.createTemporary p
  write p bs := do
    match fails .write with
    | some bytes =>
      let _ ← d.write p (bs.take bytes)
      return false
    | none => d.write p bs
  sync p := if (fails .sync).isSome then return false else d.sync p
  rename p q := if (fails .rename).isSome then return false else d.rename p q
  remove := d.remove

/-- Fills a temporary file and puts it in place; the cause of a failure. -/
def fill [Monad m] (d : Disk m) (temporary p : Path) (contents : Bytes) : m (Option Cause) := do
  if ! (← d.write temporary contents) then return some .unworded
  else if ! (← d.sync temporary) then return some .unworded
  else if ! (← d.rename temporary p) then return some (.persisting p.toString)
  else return none

/-- Writes a document. After a failure no temporary file is left. -/
def writeAtomically [Monad m] (d : Disk m) (p : Path) (contents : Bytes) :
    m (Except Failure Unit) := do
  let directory := p.directory
  if ! (← d.createDirectories directory) then
    return .error (.of (.creatingDirectory directory.toString))
  else
    match ← d.createTemporary directory with
    | none => return .error (.of (.creatingTemporary directory.toString))
    | some temporary =>
      match ← d.fill temporary p contents with
      | none => return .ok ()
      | some cause =>
        d.remove temporary
        return .error (.of cause)

end Disk

end ReplayVector
