import ReplayVector.Extraction.Retention
import ReplayVector.Proofs.Store.Recording

/-!
# Recording what an execution reads

A retention by reads begins a record, executes the message, ends the record and only then writes
the archive. So what it records are the reads of that execution and no others, whatever was read
before, and afterwards nothing is recorded any more, whether it went well or not.

* `Retained.run_accessedCids`: a retention by reads over a recording store.
* `BlockStore.records_exactly`: calls of a recording store, and a retention by reads.
-/

namespace ReplayVector

variable {m : Type → Type} [Monad m]

section Retention

variable [LawfulMonad m]

private theorem run_liftM {ε α : Type} {n : Type → Type} [Monad n] (x : n α) :
    (liftM x : ExceptT ε n α).run = Except.ok <$> x := rfl

/-- Nothing is recorded while an archive is written. -/
private theorem run_workspace_off {α : Type} (s : BlockStore m) (kind : List Cause → Fault)
    (p : BlockM α) :
    ((Workspace.traced s).run kind p).run.run .off =
      (fun r => (r.mapError (Fault.of kind), .off)) <$> p.run s := by
  have hrun := p.run_traced_off s
  simp only [Workspace.run, Workspace.traced, ExceptT.run_mk, StateT.run_bind, StateT.run_pure,
    hrun, map_eq_pure_bind, bind_assoc, pure_bind]

/-- A retention by reads executes the message over the inner store, and archives what that
execution found. No record is kept afterwards, and the one before does not matter. -/
theorem Retained.run_accessedCids (s : BlockStore m) (engine : Engine) (e : Execution)
    (record : ReadRecord) :
    (accessedCids (.traced s) engine e).run.run record = (do
      let (executed, log) ← (engine e).runLogged s
      match executed with
      | .error f => return (.error (.of .replay f), .off)
      | .ok outcome =>
        let written ← ((ofListed e.preroot outcome (StoreAnswer.found log)).context
          .writingTracedArchive).run s
        return (written.mapError (Fault.of .retention), .off)) := by
  have hexecuted := (engine e).run_traced s record.start
  have hrecord (log : List StoreAnswer) : (log.foldl StoreAnswer.note record.start).finish =
      (StoreAnswer.found log, .off) := by
    have hfold := StoreAnswer.foldl_note [] log
    rw [List.nil_append] at hfold
    rw [ReadRecord.start]
    exact congrArg ReadRecord.finish hfold
  simp only [accessedCids, Workspace.traced, ExceptT.run_bind, run_liftM, ExceptT.run_lift,
    StateT.run_bind, map_eq_pure_bind, bind_assoc, pure_bind, StateT.run_modify,
    StateT.run_modifyGet, hexecuted, hrecord]
  refine bind_congr fun ended => ?_
  obtain ⟨executed, log⟩ := ended
  cases executed with
  | error f => rfl
  | ok outcome =>
    have hwritten := run_workspace_off s .retention
      ((ofListed e.preroot outcome (StoreAnswer.found log)).context .writingTracedArchive)
    rw [map_eq_pure_bind] at hwritten
    exact hwritten

end Retention

/-- A store that records what is read from another one does so without being noticed, and records
exactly what was found. -/
structure BlockStore.RecordsExactly (s : BlockStore m) : Prop where
  /-- The log of calls over the recording store is that of the same calls over the store alone,
  but that each end of a record hands out what was found since it was begun. -/
  calls : ∃ noted : List (TracingEvent Unit) → List (TracingEvent (List Cid)) × ReadRecord,
    (∀ calls, (TracingCall.performTraced s calls).run .off =
      noted <$> TracingCall.performAlone s calls) ∧
    ∀ log, (noted log).1.map TracingEvent.forget = log ∧
      ∀ before reads after, (noted log).1 = before ++ .finished reads :: after →
        reads.Nodup ∧ ∀ c, c ∈ reads ↔ TracingEvent.FoundSince before c
  /-- A retention by reads archives what its execution found over the store alone, whatever was
  recorded before, and writes the archive over the store alone; then the record is off. -/
  retention : ∀ (engine : Engine) (e : Execution) (record : ReadRecord),
    Prod.fst <$> (engine e).runLogged s = (engine e).run s ∧
    (Retained.accessedCids (.traced s) engine e).run.run record = (do
      let (executed, log) ← (engine e).runLogged s
      match executed with
      | .error f => return (.error (.of .replay f), .off)
      | .ok outcome =>
        let written ← ((Retained.ofListed e.preroot outcome (StoreAnswer.found log)).context
          .writingTracedArchive).run s
        return (written.mapError (Fault.of .retention), .off))

/-- Reads are recorded exactly, over every store. -/
theorem BlockStore.records_exactly [LawfulMonad m] (s : BlockStore m) : s.RecordsExactly where
  calls := by
    refine ⟨TracingEvent.noteAll .off, fun calls => ?_, fun log => ?_⟩
    · exact TracingCall.run_performTraced s calls .off
    · have hforget := TracingEvent.map_forget_noteAll .off log
      exact ⟨hforget, fun _ _ _ => TracingEvent.mem_reads⟩
  retention engine e record := by
    have hplain := (engine e).map_fst_runLogged s
    have hlisted := Retained.run_accessedCids s engine e record
    exact ⟨hplain, hlisted⟩

/-- Reads from memory are recorded exactly. -/
theorem Memory.records_exactly_store : LawfulMonad (StateM Memory) ∧
    (Memory.store : BlockStore (StateM Memory)).RecordsExactly :=
  ⟨inferInstance, BlockStore.records_exactly Memory.store⟩

end ReplayVector
