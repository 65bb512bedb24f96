import ReplayVector.Proofs.Execution.Steady
import ReplayVector.Proofs.Extraction.Runs

/-!
# What a run is put together from does not crash

Archives are written and loaded without a crash, whatever is in them. Questions to a node that does
not crash come to no crash either, in all cases but one: above a block at the last height there is
nothing to ask for.

* `Archive.always_write`, `Archive.steady_load`: archives.
* `SteadyInquiry`: questions that come to no crash.
* `Resolved.locate_crashes_iff`: when locating a message crashes.
-/

namespace ReplayVector

open BlockM

variable {α β : Type}

-- a visit is not to be run to its limit
attribute [local irreducible] Archive.visitLimit

-- ---------------------------------------------------------------------------
-- Archives
-- ---------------------------------------------------------------------------

namespace Archive

/-- A block without structured data has no links, which is no crash. -/
theorem uncrashed_children (follow : Cid → Bool) (b : Block) : Uncrashed (children follow b) := by
  unfold children
  repeat' split
  all_goals first | exact uncrashed_ok _ | exact uncrashed_because _

/-- A visit ends early for a reason that is no crash. -/
theorem always_visit (follow : Cid → Bool) (fuel : Nat) (seen : List Cid) (visited : List Block)
    (stack : List Cid) : (visit follow fuel seen visited stack).Always fun r =>
      ∃ v, r = .ok v ∧ v.failure ≠ some .crash := by
  induction fuel generalizing seen visited stack with
  | zero => exact ⟨_, rfl, nofun⟩
  | succ fuel ih =>
    unfold visit
    split
    · exact ⟨_, rfl, nofun⟩
    · next c stack _ =>
      intro a ha
      rcases a with e | _ | data
      · exact ⟨_, rfl, fun heq => uncrashed_error.mp ha (Option.some.inj heq)⟩
      · exact ⟨_, rfl, nofun⟩
      · have hchildren := uncrashed_children follow ⟨c, data⟩
        dsimp only
        cases hlinks : children follow ⟨c, data⟩ with
        | error e =>
          rw [hlinks] at hchildren
          exact ⟨_, rfl, fun heq => uncrashed_error.mp hchildren (Option.some.inj heq)⟩
        | ok links => exact ih _ _ _

/-- Whatever its walk comes upon, an archive has a result of its own. -/
theorem always_collect (follow : Cid → Bool) (roots : Roots) :
    (Visit.archive roots <$> collect follow roots).Always fun r =>
      ∃ w, r = .ok w ∧ Uncrashed w.result := by
  unfold collect
  generalize visitLimit = fuel
  refine Always.bind (always_visit _ fuel _ _ _) fun v hv => ⟨_, rfl, ?_⟩
  unfold Visit.archive
  cases hf : v.failure with
  | none => exact uncrashed_ok _
  | some e =>
    rw [hf] at hv
    exact uncrashed_error.mpr fun he => hv (congrArg some he)

/-- So it is when all that is reachable is written. -/
theorem always_write (roots : Roots) :
    (write roots).Always fun r => ∃ w, r = .ok w ∧ Uncrashed w.result :=
  always_collect _ roots

/-- And when listed blocks are written, too. -/
theorem always_writeIncluding (roots : Roots) (listed : List Cid) :
    (writeIncluding roots listed).Always fun r => ∃ w, r = .ok w ∧ Uncrashed w.result :=
  always_collect _ roots

theorem uncrashed_ofFrames (frames : List Bytes) (whole : Bool) :
    Uncrashed (ofFrames frames whole) := by
  unfold ofFrames
  split
  · exact uncrashed_because _
  · split
    · exact uncrashed_because _
    · dsimp only
      split
      · split
        · exact uncrashed_ok _
        · exact uncrashed_because _
      · split
        · exact uncrashed_ok _
        · exact uncrashed_because _

theorem steady_putAll (bs : List Block) : (putAll bs).Steady := by
  induction bs with
  | nil => exact steady_pure _
  | cons b bs ih =>
    exact (steady_ofExcept b.uncrashed_verify).bind fun _ => (steady_write b).bind fun _ => ih

/-- An archive that is cut short or damaged fails to load. -/
theorem steady_load (bs : Bytes) : (load bs).Steady := by
  refine (steady_ofExcept (uncrashed_ofFrames _ _)).bind fun contents => ?_
  refine (steady_putAll contents.blocks).bind fun _ => ?_
  split
  · exact steady_pure _
  · exact steady_because _

end Archive

-- ---------------------------------------------------------------------------
-- Retained state
-- ---------------------------------------------------------------------------

namespace Retained

/-- What is retained fails if the archive does. -/
theorem steady_ofWritten {p : BlockM Archive.Written} (preroot : Cid) (outcome : Outcome)
    (h : p.Always fun r => ∃ w, r = .ok w ∧ Uncrashed w.result) :
    (p >>= fun written => ofExcept (ofOutcome preroot outcome written)).Steady := by
  refine Always.bind h fun _ hw => ?_
  exact steady_ofExcept (hw.map _)

theorem steady_ofReachable (preroot : Cid) (outcome : Outcome) :
    (ofReachable preroot outcome).Steady := by
  have harchive := Archive.always_write ⟨preroot, [outcome.postroot]⟩
  exact steady_ofWritten preroot outcome harchive

theorem steady_ofListed (preroot : Cid) (outcome : Outcome) (listed : List Cid) :
    (ofListed preroot outcome listed).Steady :=
  steady_ofWritten preroot outcome (Archive.always_writeIncluding _ _)

end Retained

-- ---------------------------------------------------------------------------
-- Questions
-- ---------------------------------------------------------------------------

variable {σ : Type}

/-- Wherever the chain stands, no answer is a crash. -/
def Node.Steady (n : Node (StateM σ)) : Prop :=
  ∀ {α : Type} (q : Question α) (s : σ), Uncrashed (n.ask q s).1

/-- Wherever the chain stands, the questions do not come to a crash. -/
def SteadyInquiry (p : ExceptT Failure (StateM σ) α) : Prop := ∀ s, Uncrashed (p.run s).1

section Inquiries

variable {n : Node (StateM σ)} {p : ExceptT Failure (StateM σ) α}
  {f : α → ExceptT Failure (StateM σ) β} {s : σ}

theorem steadyInquiry_pure (a : α) : SteadyInquiry (pure a : ExceptT Failure (StateM σ) α) :=
  fun _ => uncrashed_ok a

theorem steadyInquiry_throw (causes : List Cause) :
    SteadyInquiry (throw (.because causes) : ExceptT Failure (StateM σ) α) :=
  fun _ => uncrashed_because causes

/-- After questions that do not come to a crash, it depends on the rest. -/
theorem SteadyInquiry.bind_crashes (hp : SteadyInquiry p) :
    ((p >>= f).run s).1 = .error .crash ↔
      ∃ a s', p.run s = (.ok a, s') ∧ ((f a).run s').1 = .error .crash := by
  have hsteady := hp s
  rw [run_question_bind]
  rcases hrun : p.run s with ⟨e | a, s'⟩
  · rw [hrun] at hsteady
    exact ⟨fun h => absurd (Except.error.inj h) (uncrashed_error.mp hsteady),
      fun ⟨_, _, h, _⟩ => nomatch h⟩
  · exact ⟨fun h => ⟨a, s', rfl, h⟩, fun ⟨_, _, heq, h⟩ => by cases heq; exact h⟩

/-- Questions that do not crash, one after the other. -/
theorem SteadyInquiry.bind (hp : SteadyInquiry p) (hf : ∀ a, SteadyInquiry (f a)) :
    SteadyInquiry (p >>= f) := by
  intro s h
  obtain ⟨a, s', -, hcrash⟩ := hp.bind_crashes.mp h
  exact hf a s' hcrash

/-- Before questions that do not come to a crash, it depends on the first ones. -/
theorem crashes_bind (hf : ∀ a, SteadyInquiry (f a)) :
    ((p >>= f).run s).1 = .error .crash ↔ (p.run s).1 = .error .crash := by
  rw [run_question_bind]
  rcases p.run s with ⟨e | a, s'⟩
  · exact error_eq_congr
  · exact ⟨fun h => absurd h (hf a s'), fun h => nomatch h⟩

/-- A steady node answers or fails. -/
theorem steadyInquiry_query (hn : n.Steady) (q : Question α) : SteadyInquiry (n.query q) :=
  fun s => hn q s

theorem steadyInquiry_queryFor (hn : n.Steady) (c : Cause) (q : Question α) :
    SteadyInquiry (n.queryFor c q) := fun s => (hn q s).withContext c

/-- What the questions are for only matters if there is no answer. -/
theorem run_queryFor_eq_ok {c : Cause} {q : Question α} {a : α} {s' : σ} :
    (n.queryFor c q).run s = (.ok a, s') ↔ n.ask q s = (.ok a, s') := by
  have hquery : (n.queryFor c q).run s = (withContext c (n.ask q s).1, (n.ask q s).2) := rfl
  rw [hquery]
  rcases n.ask q s with ⟨e | a', s''⟩
  · constructor
    · exact fun h => nomatch (congrArg Prod.fst h : Except.error (e.context c) = .ok a)
    · exact fun h => nomatch (congrArg Prod.fst h : Except.error e = .ok a)
  · exact Iff.rfl

/-- A message that is not found is an ordinary failure. -/
theorem Resolved.steadyInquiry_search (hn : n.Steady) (c : Cid) : SteadyInquiry (search n c) := by
  refine (steadyInquiry_queryFor hn _ _).bind fun found => ?_
  cases found with
  | none => exact steadyInquiry_throw _
  | some found =>
    refine (steadyInquiry_query hn _).bind fun execution => ?_
    split
    · exact steadyInquiry_throw _
    · exact (steadyInquiry_queryFor hn _ _).bind fun _ => steadyInquiry_pure _

/-- Above the last height there is nothing to ask for. -/
theorem Resolved.around_crashes_iff (hn : n.Steady) (block : Cid) :
    ((around n block).run s).1 = .error .crash ↔
      ∃ header s', n.ask (.block block) s = (.ok header, s') ∧ header.height = Int64.maxValue := by
  rw [around, (steadyInquiry_queryFor hn _ _).bind_crashes]
  constructor
  · rintro ⟨header, s', hheader, hcrash⟩
    refine ⟨header, s', run_queryFor_eq_ok.mp hheader, ?_⟩
    by_contra hlast
    rw [if_neg hlast] at hcrash
    exact ((steadyInquiry_queryFor hn _ _).bind fun _ => (steadyInquiry_queryFor hn _ _).bind
      fun _ => steadyInquiry_pure _) s' hcrash
  · rintro ⟨header, s', hheader, hlast⟩
    exact ⟨header, s', run_queryFor_eq_ok.mpr hheader, by rw [if_pos hlast]; rfl⟩

/-- Locating a message crashes if there is a hint at the last height, and in no other case. -/
theorem Resolved.locate_crashes_iff (hn : n.Steady) (c : Cid) (hint : Option Cid) :
    ((locate n c hint).run s).1 = .error .crash ↔
      ∃ block message s' header s'', hint = some block ∧ n.ask (.message c) s = (.ok message, s') ∧
        n.ask (.block block) s' = (.ok header, s'') ∧ header.height = Int64.maxValue := by
  have hrest (message : Message) (found : Tipset × Tipset) : SteadyInquiry (
      if found.2.key.lists found.1.parents then pure ⟨message, found.1, found.2⟩
      else throw (.of (.notParent found.2.key found.1.key)) :
        ExceptT Failure (StateM σ) Resolved) := by
    split
    · exact steadyInquiry_pure _
    · exact steadyInquiry_throw _
  rw [locate, (steadyInquiry_queryFor hn _ _).bind_crashes]
  constructor
  · rintro ⟨message, s', hmessage, hcrash⟩
    cases hint with
    | none => exact absurd hcrash (((steadyInquiry_search hn c).bind (hrest message)) s')
    | some block =>
      obtain ⟨header, s'', hheader, hlast⟩ :=
        (around_crashes_iff hn block).mp ((crashes_bind (hrest message)).mp hcrash)
      exact ⟨block, message, s', header, s'', rfl, run_queryFor_eq_ok.mp hmessage, hheader, hlast⟩
  · rintro ⟨block, message, s', header, s'', rfl, hmessage, hheader, hlast⟩
    exact ⟨message, s', run_queryFor_eq_ok.mpr hmessage, (crashes_bind (hrest message)).mpr
      ((around_crashes_iff hn block).mpr ⟨header, s'', hheader, hlast⟩)⟩

end Inquiries

end ReplayVector
