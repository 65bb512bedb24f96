import ReplayVector.Extraction.Delivery
import ReplayVector.Proofs.Extraction.Effects
import ReplayVector.Proofs.Extraction.Gate
import ReplayVector.Proofs.Files.Disk

/-!
# Documents are delivered as a whole

Whatever ends a run, its destination has the whole document or what it had before. No file is
written before the vector is there, and a disk that fails in any step of writing, however far the
step got, is left without a part of the document.

What may be left are directories that lead to the destination. The path of the destination can go
back through the destination itself, and then that is one of them: `Extractor.run_creates_target`.

* `Extractor.run_of_extract_error`, `run_of_cancelled`, `run_of_extract_ok`: the course of a run.
* `Extractor.run_delivers`: what a run leaves behind.
-/

namespace ReplayVector.Extractor

variable {σ : Type}

-- ---------------------------------------------------------------------------
-- The course of a run
-- ---------------------------------------------------------------------------

private theorem lift_bind_apply {α β : Type} (c : StateM σ α)
    (k : α → StateT FileTree (StateM σ) β) (t : FileTree) (s : σ) :
    ((liftM c : StateT FileTree (StateM σ) α) >>= k) t s = k (c s).1 t (c s).2 := rfl

section Course

variable {x : Extractor (StateM σ)} {request : ExtractionRequest} {s s' s'' : σ}
  {f : StageFault} {e : Extraction} (o : Output (StateT FileTree (StateM σ))) (d : Destination)
  (t : FileTree)

/-- A run without a vector touches no file. -/
theorem run_of_extract_error (h : x.extract request s = (.error f, s')) :
    x.lift.run o d request t s = ((.error f, t), s') := by
  rw [run, extract_lift, lift_bind_apply, h]
  rfl

/-- Nor does a run that is asked to end before it writes. -/
theorem run_of_cancelled (h : x.extract request s = (.ok e, s'))
    (hcancelled : x.cancelled s' = (true, s'')) :
    x.lift.run o d request t s =
      ((.error { stage := .serialize, fault := .cancelled }, t), s'') := by
  rw [run, extract_lift, lift_bind_apply, h]
  dsimp only
  rw [cancelled_lift, lift_bind_apply, hcancelled]
  rfl

/-- Otherwise a run with a vector delivers it. -/
theorem run_of_extract_ok (h : x.extract request s = (.ok e, s'))
    (hcancelled : x.cancelled s' = (false, s'')) :
    x.lift.run o d request t s =
      match o.deliver d e.vector.bytes t s'' with
      | ((.error f, t'), c) =>
        ((.error { stage := .serialize, fault := .of .serialization f }, t'), c)
      | ((.ok (), t'), c) => ((.ok e, t'), c) := by
  rw [run, extract_lift, lift_bind_apply, h]
  dsimp only
  rw [cancelled_lift, lift_bind_apply, hcancelled]
  have hbind (k : Except Failure Unit → StateT FileTree (StateM σ) (Except StageFault Extraction)) :
      (o.deliver d e.vector.bytes >>= k) t s'' =
        k (o.deliver d e.vector.bytes t s'').1.1 (o.deliver d e.vector.bytes t s'').1.2
          (o.deliver d e.vector.bytes t s'').2 := rfl
  rw [if_neg Bool.false_ne_true, hbind]
  rcases o.deliver d e.vector.bytes t s'' with ⟨⟨_ | _, t'⟩, c⟩ <;> rfl

end Course

-- ---------------------------------------------------------------------------
-- What a run leaves behind
-- ---------------------------------------------------------------------------

/-- A run that fails leaves the destination as it was, unless the path goes back and the destination
is one of the directories that lead to it. A run that ends well leaves the whole document there, and
no other file that was not there before. -/
theorem run_delivers (x : Extractor (StateM σ)) (fails : WriteStep → Option Nat)
    (print : Bytes → StateT FileTree (StateM σ) Bool) (p : Path) (request : ExtractionRequest)
    (t : FileTree) (s : σ) :
    match x.lift.run { disk := FileTree.disk.failing fails, print } (.file p) request t s with
    | ((.error f, t'), _) =>
      (f.stage ≠ .serialize → t' = t) ∧ (∀ l, t.KeepsAt t' (t.way p.directory) l) ∧
        (".." ∉ p.parts → t'.get? (t.target p) = t.get? (t.target p))
    | ((.ok e, t'), _) =>
      t'.get? (t.target p) = some (.file e.vector.bytes) ∧
        ∀ l, l ≠ t.target p → t.KeepsAt t' (t.way p.directory) l := by
  rcases hextract : x.extract request s with ⟨_ | e, s'⟩
  · rw [run_of_extract_error _ _ _ hextract]
    exact ⟨fun _ => rfl, fun l => .inl rfl, fun _ => rfl⟩
  · rcases hlook : x.cancelled s' with ⟨_ | _, s''⟩
    · rw [run_of_extract_ok _ _ _ hextract hlook]
      obtain ⟨r, t', hwrite, hr⟩ :=
        FileTree.yields_writeAtomically (m := StateM σ) (t := t) fails p e.vector.bytes
      have hdeliver : Output.deliver { disk := FileTree.disk.failing fails, print } (.file p)
          e.vector.bytes t s'' = ((r, t'), s'') := congrFun hwrite s''
      rw [hdeliver]
      cases r with
      | error f =>
        -- what may be added is on the way to the destination, and so is not the destination itself
        refine ⟨fun h => absurd rfl h, hr, fun hback => ?_⟩
        exact (hr _).resolve_right fun h => FileTree.target_notMem_way hback h.1
      | ok _ => exact hr
    · rw [run_of_cancelled _ _ _ hextract hlook]
      exact ⟨fun _ => rfl, fun l => .inl rfl, fun _ => rfl⟩

-- ---------------------------------------------------------------------------
-- A path that goes back through its own end
-- ---------------------------------------------------------------------------

/-- An engine that reads the root of the state and changes nothing. -/
def sampleEngine : Engine := fun e => do
  let _ ← BlockM.read e.preroot
  return { receipt := .plain .ok 0, postroot := e.preroot }

/-- A run on the small chain that delivers to a file in an empty directory, where no step fails. -/
def sampleRun (p : Path) : (Except StageFault Extraction × FileTree) × Fixture.Chain :=
  let x : Extractor (StateM Fixture.Chain) := { sampleExtractor with engine := sampleEngine }
  let o : Output (StateT FileTree (StateM Fixture.Chain)) :=
    { disk := FileTree.disk, print := fun _ => return true }
  x.lift.run o (.file p) (.ofCid sampleCid) { entries := [], current := [] }
    (sampleChain (.plain .ok 0))

set_option maxRecDepth 20000 in
/-- The end of the path is on the way to its directory. So the run creates it as a directory, and
then cannot put the document in its place. -/
theorem run_creates_target :
    let p : Path := ⟨["a", "b", "..", "b"]⟩
    let t : FileTree := { entries := [], current := [] }
    (sampleRun p).1.1 = .error {
      stage := .serialize
      fault := .serialization [.persisting "a/b/../b"] } ∧
    t.get? (t.target p) = none ∧ (sampleRun p).1.2.get? (t.target p) = some .directory := by
  decide +kernel

end ReplayVector.Extractor
