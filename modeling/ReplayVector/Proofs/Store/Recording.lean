import ReplayVector.Proofs.Store.Calls
import ReplayVector.Store.Tracing

/-!
# Reads are recorded as they happen

A store that records its reads does what the store inside of it does, and its record follows from
what that store answered. So a run over it is a run over the inner store alone, with its log noted
in the record; and an end of a record hands out what was found since the record was begun.

* `StoreCall.run_perform`: a call of a recording store.
* `BlockM.run_traced`: a computation over a recording store.
* `TracingCall.run_performTraced`: a sequence of calls, among them beginnings and ends of records.
* `TracingEvent.mem_reads`: what an end of a record hands out.
-/

namespace ReplayVector

variable {m : Type → Type} [Monad m] {α ρ : Type}

-- ---------------------------------------------------------------------------
-- What calls find
-- ---------------------------------------------------------------------------

namespace StoreAnswer

/-- The block that a call has found. -/
def found? : StoreAnswer → Option Cid
  | got c (.ok (some _)) => some c
  | had c (.ok true) => some c
  | _ => none

/-- The blocks that calls have found, each once. -/
def found (answers : List StoreAnswer) : List Cid := (answers.filterMap found?).foldl insertNew []

/-- The record after a call has been answered. -/
def note (record : ReadRecord) (a : StoreAnswer) : ReadRecord :=
  match a.found? with
  | some c => record.add c
  | none => record

/-- One more answer adds at most one block to what was found. -/
theorem found_concat (answers : List StoreAnswer) (a : StoreAnswer) :
    found (answers ++ [a]) =
      match a.found? with
      | some c => insertNew (found answers) c
      | none => found answers := by
  rw [found, List.filterMap_append, List.foldl_append]
  cases h : a.found? with
  | none =>
    rw [List.filterMap_cons_none h]
    rfl
  | some c =>
    rw [List.filterMap_cons_some h]
    rfl

/-- A block was found if an answer had it. -/
theorem mem_found {answers : List StoreAnswer} {c : Cid} :
    c ∈ found answers ↔ ∃ a ∈ answers, a.found? = some c := by
  rw [found, mem_foldl_insertNew, List.mem_filterMap]
  exact or_iff_right List.not_mem_nil

/-- It is listed once. -/
theorem nodup_found (answers : List StoreAnswer) : (found answers).Nodup := by
  have hfold (cs found : List Cid) (h : found.Nodup) : (cs.foldl insertNew found).Nodup := by
    induction cs generalizing found with
    | nil => exact h
    | cons c cs ih => exact ih _ (nodup_insertNew h c)
  exact hfold _ [] List.nodup_nil

theorem note_off (a : StoreAnswer) : note .off a = .off := by
  unfold note
  split <;> rfl

/-- A record that is kept gains what is found. -/
theorem note_found (answers : List StoreAnswer) (a : StoreAnswer) :
    note ⟨some (found answers)⟩ a = ⟨some (found (answers ++ [a]))⟩ := by
  rw [found_concat]
  unfold note
  cases a.found? <;> rfl

/-- A record lists what was found since it was started. -/
theorem foldl_note (past answers : List StoreAnswer) :
    answers.foldl note ⟨some (found past)⟩ = ⟨some (found (past ++ answers))⟩ := by
  induction answers generalizing past with
  | nil => rw [List.append_nil]; rfl
  | cons a answers ih => rw [List.foldl_cons, note_found, ih, List.append_assoc]; rfl

end StoreAnswer

-- ---------------------------------------------------------------------------
-- Calls and computations
-- ---------------------------------------------------------------------------

open StoreAnswer (note)

section Runs

variable [LawfulMonad m]

/-- A question is handed on, and its answer noted. -/
theorem BlockStore.run_get_traced (s : BlockStore m) (c : Cid) (record : ReadRecord) :
    (s.traced.get c).run record = (fun r => (r, note record (.got c r))) <$> s.get c := by
  rw [map_eq_pure_bind]
  simp only [traced, StateT.run_bind, StateT.run_monadLift, monadLift_self, bind_assoc, pure_bind]
  refine bind_congr fun r => ?_
  rcases r with _ | _ | _ <;> simp [note, StoreAnswer.found?]

theorem BlockStore.run_has_traced (s : BlockStore m) (c : Cid) (record : ReadRecord) :
    (s.traced.has c).run record = (fun r => (r, note record (.had c r))) <$> s.has c := by
  rw [map_eq_pure_bind]
  simp only [traced, StateT.run_bind, StateT.run_monadLift, monadLift_self, bind_assoc, pure_bind]
  refine bind_congr fun r => ?_
  rcases r with _ | _ | _ <;> simp [note, StoreAnswer.found?]

/-- A block is handed on, and nothing noted. -/
theorem BlockStore.run_put_traced (s : BlockStore m) (b : Block) (record : ReadRecord) :
    (s.traced.put b).run record = (fun r => (r, record)) <$> s.put b := by
  rw [map_eq_pure_bind]
  simp only [traced, StateT.run_monadLift, monadLift_self]

/-- A call of a recording store is the call of the inner store, and its answer is noted. -/
theorem StoreCall.run_perform (s : BlockStore m) (call : StoreCall) (record : ReadRecord) :
    (call.perform s.traced).run record = (fun a => (a, note record a)) <$> call.perform s := by
  cases call with
  | get c => simp [perform, BlockStore.run_get_traced]
  | has c => simp [perform, BlockStore.run_has_traced]
  | put b => simp [perform, BlockStore.run_put_traced, note, StoreAnswer.found?]

end Runs

/-- Lets a store answer a computation, and keeps a log of the answers. -/
def BlockM.runLogged (s : BlockStore m) : BlockM α → m (Except Failure α × List StoreAnswer)
  | .done r => return (r, [])
  | .get c next => do
    let r ← s.get c
    let (ended, log) ← (next r).runLogged s
    return (ended, .got c r :: log)
  | .has c next => do
    let r ← s.has c
    let (ended, log) ← (next r).runLogged s
    return (ended, .had c r :: log)
  | .put b next => do
    let r ← s.put b
    let (ended, log) ← (next r).runLogged s
    return (ended, .put b r :: log)

section Runs

variable [LawfulMonad m]

/-- A log changes nothing. -/
theorem BlockM.map_fst_runLogged (s : BlockStore m) (p : BlockM α) :
    Prod.fst <$> p.runLogged s = p.run s := by
  induction p with
  | done r => simp [runLogged, run]
  | get c next ih => simp [runLogged, run, ← ih]
  | has c next ih => simp [runLogged, run, ← ih]
  | put b next ih => simp [runLogged, run, ← ih]

/-- The log of two computations in turn is that of the one, then that of the other. -/
theorem BlockM.runLogged_andThen (s : BlockStore m) {β : Type} (p : BlockM β)
    (f : Except Failure β → BlockM α) : (p.andThen f).runLogged s =
      p.runLogged s >>= fun x => (fun y => (y.1, x.2 ++ y.2)) <$> (f x.1).runLogged s := by
  induction p with
  | done r => simp [runLogged, andThen]
  | get c next ih => simp [runLogged, andThen, ih]
  | has c next ih => simp [runLogged, andThen, ih]
  | put b next ih => simp [runLogged, andThen, ih]

/-- A computation over a recording store is the computation over the inner store, and its log is
noted. -/
theorem BlockM.run_traced (s : BlockStore m) (p : BlockM α) (record : ReadRecord) :
    (p.run s.traced).run record =
      (fun ended => (ended.1, ended.2.foldl note record)) <$> p.runLogged s := by
  -- on the computation; the record goes on from the answer that was noted last
  induction p generalizing record with
  | done r => simp [runLogged, run]
  | get c next ih => simp [runLogged, run, BlockStore.run_get_traced, ih]
  | has c next ih => simp [runLogged, run, BlockStore.run_has_traced, ih]
  | put b next ih =>
    simp [runLogged, run, BlockStore.run_put_traced, ih, note, StoreAnswer.found?]

/-- While no record is kept, a recording store is the inner store. -/
theorem BlockM.run_traced_off (s : BlockStore m) (p : BlockM α) :
    (p.run s.traced).run .off = (fun r => (r, .off)) <$> p.run s := by
  have hoff (log : List StoreAnswer) : log.foldl note .off = .off := by
    induction log with
    | nil => rfl
    | cons a log ih => rw [List.foldl_cons, StoreAnswer.note_off, ih]
  rw [run_traced, ← map_fst_runLogged, Functor.map_map]
  simp only [hoff]

end Runs

-- ---------------------------------------------------------------------------
-- Beginnings and ends of records
-- ---------------------------------------------------------------------------

/-- A call of a store that records its reads. -/
inductive TracingCall where
  | ask (call : StoreCall)
  | start
  | finish

/-- How a call went. The end of a record hands out something. -/
inductive TracingEvent (ρ : Type) where
  | answered (a : StoreAnswer)
  | started
  | finished (reads : ρ)

namespace TracingEvent

/-- The event without what was handed out. -/
def forget : TracingEvent ρ → TracingEvent Unit
  | answered a => answered a
  | started => started
  | finished _ => finished ()

/-- What has been answered since the latest beginning of a record, if that has not ended yet; the
events are listed from the last one back. -/
def window? : List (TracingEvent ρ) → Option (List StoreAnswer)
  | [] => none
  | answered a :: past => (window? past).map (· ++ [a])
  | started :: _ => some []
  | finished _ :: _ => none

/-- A block was found since the latest beginning of a record, and no record has ended since. -/
def FoundSince (past : List (TracingEvent ρ)) (c : Cid) : Prop :=
  ∃ (earlier : List (TracingEvent ρ)) (window : List StoreAnswer),
    past = earlier ++ started :: window.map answered ∧ ∃ a ∈ window, a.found? = some c

/-- The event over a store that records, and the record after it. -/
def note (record : ReadRecord) : TracingEvent Unit → TracingEvent (List Cid) × ReadRecord
  | answered a => (answered a, a.note record)
  | started => (started, record.start)
  | finished () => (finished record.finish.1, record.finish.2)

/-- The events over a store that records, and the record after them. -/
def noteAll (record : ReadRecord) : List (TracingEvent Unit) →
    List (TracingEvent (List Cid)) × ReadRecord
  | [] => ([], record)
  | e :: es =>
    let noted := e.note record
    let rest := noteAll noted.2 es
    (noted.1 :: rest.1, rest.2)

end TracingEvent

namespace TracingCall

/-- Makes a call, with the given ways to begin and to end a record. -/
def perform (s : BlockStore m) (start : m Unit) (finish : m ρ) : TracingCall → m (TracingEvent ρ)
  | ask call => return .answered (← call.perform s)
  | .start => do
    start
    return .started
  | .finish => return .finished (← finish)

/-- Makes calls one after the other. -/
def performAll (s : BlockStore m) (start : m Unit) (finish : m ρ) (calls : List TracingCall) :
    m (List (TracingEvent ρ)) :=
  calls.mapM (perform s start finish)

/-- Makes calls of a store without recording anything. -/
def performAlone (s : BlockStore m) (calls : List TracingCall) : m (List (TracingEvent Unit)) :=
  performAll s (pure ()) (pure ()) calls

/-- Makes calls of the store that records what is read from another one. -/
def performTraced (s : BlockStore m) (calls : List TracingCall) :
    StateT ReadRecord m (List (TracingEvent (List Cid))) :=
  performAll s.traced (modify ReadRecord.start) (modifyGet ReadRecord.finish) calls

variable [LawfulMonad m]

/-- A call over the recording store is the call itself, noted. -/
private theorem run_perform (s : BlockStore m) (call : TracingCall) (record : ReadRecord) :
    (perform s.traced (modify ReadRecord.start) (modifyGet ReadRecord.finish) call).run record =
      TracingEvent.note record <$> perform s (pure ()) (pure ()) call := by
  cases call with
  | ask call => simp [perform, StoreCall.run_perform, TracingEvent.note]
  | start => simp [perform, TracingEvent.note]
  | finish => simp [perform, TracingEvent.note]

/-- Calls of a recording store are calls of the inner store alone, and their log is noted. -/
theorem run_performTraced (s : BlockStore m) (calls : List TracingCall) (record : ReadRecord) :
    (performTraced s calls).run record =
      TracingEvent.noteAll record <$> performAlone s calls := by
  unfold performTraced performAlone performAll
  -- on the calls; each one hands its record on to the next
  induction calls generalizing record with
  | nil => simp [TracingEvent.noteAll]
  | cons call calls ih => simp [List.mapM_cons, run_perform, ih, TracingEvent.noteAll]

end TracingCall

namespace TracingEvent

/-- What is noted leaves the calls and their answers alone. -/
theorem map_forget_noteAll (record : ReadRecord) (log : List (TracingEvent Unit)) :
    (noteAll record log).1.map forget = log := by
  induction log generalizing record with
  | nil => rfl
  | cons e es ih =>
    rw [noteAll, List.map_cons, ih]
    cases e <;> rfl

/-- What stands since the last start. -/
private theorem window?_eq_some {past : List (TracingEvent ρ)} {window : List StoreAnswer} :
    window? past = some window ↔
      ∃ earlier, past = window.reverse.map answered ++ started :: earlier := by
  induction past generalizing window with
  | nil => simp [window?]
  | cons e past ih =>
    -- the first event is the last one, so it tells how the window ends
    rcases List.eq_nil_or_concat window with rfl | ⟨window, a, rfl⟩
    · cases e <;> simp [window?]
    · cases e with
      | started => simp [window?]
      | finished reads => simp [window?]
      | answered a' =>
        rw [window?, Option.map_eq_some_iff, List.concat_eq_append, List.reverse_concat,
          List.map_cons]
        constructor
        · rintro ⟨window', hwindow, heq⟩
          obtain ⟨rfl, ha⟩ := List.append_inj' heq rfl
          obtain ⟨earlier, hpast⟩ := ih.mp hwindow
          rw [hpast, List.singleton_inj.mp ha]
          exact ⟨earlier, rfl⟩
        · rintro ⟨earlier, heq⟩
          obtain ⟨heq, hpast⟩ := List.cons.inj heq
          exact ⟨window, ih.mpr ⟨earlier, hpast⟩, by rw [TracingEvent.answered.inj heq]⟩

/-- A block was found since then if it is listed. -/
theorem foundSince_iff {past : List (TracingEvent ρ)} {c : Cid} :
    FoundSince past c ↔
      ∃ window, window? past.reverse = some window ∧ c ∈ StoreAnswer.found window := by
  have hpast (earlier : List (TracingEvent ρ)) (window : List StoreAnswer) :
      past = earlier.reverse ++ started :: window.map answered ↔
        past.reverse = window.reverse.map answered ++ started :: earlier := by
    rw [← List.reverse_inj]
    simp
  constructor
  · rintro ⟨earlier, window, hwindow, hfound⟩
    rw [← List.reverse_reverse earlier, hpast] at hwindow
    exact ⟨window, window?_eq_some.mpr ⟨_, hwindow⟩, StoreAnswer.mem_found.mpr hfound⟩
  · rintro ⟨window, hwindow, hfound⟩
    obtain ⟨earlier, hearlier⟩ := window?_eq_some.mp hwindow
    exact ⟨earlier.reverse, window, (hpast earlier window).mpr hearlier,
      StoreAnswer.mem_found.mp hfound⟩

/-- The record is what was found in the window. -/
private theorem reads_note {record : ReadRecord} {past : List (TracingEvent (List Cid))}
    (h : record.reads = (window? past).map StoreAnswer.found) (e : TracingEvent Unit) :
    (e.note record).2.reads = (window? ((e.note record).1 :: past)).map StoreAnswer.found := by
  cases e with
  | answered a =>
    obtain ⟨reads⟩ := record
    dsimp only at h
    subst h
    cases hwindow : window? past with
    | none =>
      have hoff : a.note ⟨none⟩ = .off := StoreAnswer.note_off a
      simp [note, window?, hwindow, hoff, ReadRecord.off]
    | some window => simp [note, window?, hwindow, StoreAnswer.note_found]
  | started => rfl
  | finished u => rfl

/-- What is listed at the end of a window is what was found in it. -/
private theorem reads_of_noteAll {record : ReadRecord} {past : List (TracingEvent (List Cid))}
    (h : record.reads = (window? past).map StoreAnswer.found) {log : List (TracingEvent Unit)}
    {before after : List (TracingEvent (List Cid))} {reads : List Cid}
    (hlog : (noteAll record log).1 = before ++ finished reads :: after) :
    reads = ((window? (before.reverse ++ past)).map StoreAnswer.found).getD [] := by
  -- on the log; an event that has been noted is the latest of the past
  induction log generalizing record past before with
  | nil => simp [noteAll] at hlog
  | cons e es ih =>
    cases before with
    | nil =>
      cases e with
      | finished u =>
        cases hlog
        show record.reads.getD [] = _
        rw [h]
        rfl
      | answered a => cases hlog
      | started => cases hlog
    | cons e' before =>
      obtain ⟨he, hes⟩ := List.cons.inj hlog
      have hreads := ih (reads_note h e) hes
      rw [he] at hreads
      simpa using hreads

/-- An end of a record hands out exactly what was found since the latest beginning of one, each
block once, if no record has ended in between. -/
theorem mem_reads {log : List (TracingEvent Unit)} {before after : List (TracingEvent (List Cid))}
    {reads : List Cid} (hlog : (noteAll .off log).1 = before ++ finished reads :: after) :
    reads.Nodup ∧ ∀ c, c ∈ reads ↔ FoundSince before c := by
  have hoff : ReadRecord.off.reads =
      (window? ([] : List (TracingEvent (List Cid)))).map StoreAnswer.found := rfl
  have hreads := reads_of_noteAll hoff hlog
  rw [List.append_nil] at hreads
  cases hwindow : window? before.reverse with
  | none =>
    rw [hwindow] at hreads
    subst hreads
    refine ⟨List.nodup_nil, fun c => ?_⟩
    rw [foundSince_iff, hwindow]
    simp
  | some window =>
    rw [hwindow] at hreads
    subst hreads
    refine ⟨StoreAnswer.nodup_found window, fun c => ?_⟩
    rw [foundSince_iff, hwindow]
    simp

end TracingEvent

end ReplayVector
