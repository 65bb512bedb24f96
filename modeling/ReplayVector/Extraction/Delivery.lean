import ReplayVector.Extraction
import ReplayVector.Files.Tree

/-!
# Delivering test vectors

A run extracts a vector and writes its document to a file or to the standard output. Nothing is
written before the whole vector is there.
-/

namespace ReplayVector

/-- Where a document goes. -/
inductive Destination where
  | file (p : Path)
  | standardOutput
  deriving DecidableEq

/-- How documents are written, with the effects of a monad. -/
structure Output (m : Type → Type) where
  disk : Disk m
  /-- Writes to the standard output; false if that fails. -/
  print : Bytes → m Bool

namespace Output

/-- Writes a document to where it goes. -/
def deliver [Monad m] (o : Output m) (d : Destination) (document : Bytes) :
    m (Except Failure Unit) := do
  match d with
  | .file p => o.disk.writeAtomically p document
  | .standardOutput => if ← o.print document then return .ok () else return .error .unworded

/-- Files and a standard output that are held in memory. -/
def inMemory [Monad m] : Output (StateT FileTree (StateT Bytes m)) where
  disk := FileTree.disk
  print bs := do
    modifyThe Bytes (· ++ bs)
    return true

end Output

/-- The bytes of the document of a vector. -/
def TestVector.bytes (v : TestVector) : Bytes := Bytes.ofString v.document

namespace Extractor

/-- Extracts a vector and writes its document. -/
def run [Monad m] (x : Extractor m) (o : Output m) (d : Destination)
    (request : ExtractionRequest) : m (Except StageFault Extraction) := do
  match ← x.extract request with
  | .error f => return .error f
  | .ok extraction =>
    if ← x.cancelled then return .error { stage := .serialize, fault := .cancelled }
    else
      match ← o.deliver d extraction.vector.bytes with
      | .error f => return .error { stage := .serialize, fault := .of .serialization f }
      | .ok () => return .ok extraction

end Extractor

end ReplayVector
