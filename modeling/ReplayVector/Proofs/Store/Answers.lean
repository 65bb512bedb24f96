import ReplayVector.Proofs.Store.Insists
import ReplayVector.Proofs.Store.Recording

/-!
# What the answers of a store settle

Nothing is assumed of a store here. It may fail, forget what was written to it, or be used by others
in between. But what it is asked and what it answers can be told from a log, and the blocks in a log
are those that were taken or given out. As long as no two different ones of them share an
identifier, a computation that needs every block has two ways to go: it does what it does on these
blocks, or one of them is withheld from it or not taken.

* `StoreAnswer.blocks`: the blocks in a log.
* `BlockM.Ran`: a run over a store.
* `BlockM.Insists.of_ran`: what such a computation ends with and writes.
* `BlockM.Insists.of_ran_known`: one that only looks, at blocks that are known.
-/

namespace ReplayVector

open BlockM

-- ---------------------------------------------------------------------------
-- Blocks in a log
-- ---------------------------------------------------------------------------

namespace StoreAnswer

/-- The block that was taken or given out. -/
def block? : StoreAnswer → Option Block
  | got c (.ok (some data)) => some ⟨c, data⟩
  | put b (.ok ()) => some b
  | _ => none

/-- The blocks that were taken or given out. -/
def blocks (log : List StoreAnswer) : List Block := log.filterMap block?

/-- The bytes that were taken or given out first under each identifier. -/
def view (log : List StoreAnswer) : View :=
  fun c => ((blocks log).find? (·.cid == c)).map Block.data

/-- The block was asked for and not given out. -/
def Withheld (log : List StoreAnswer) (c : Cid) : Prop :=
  ∃ a, got c a ∈ log ∧ ∀ data, a ≠ .ok (some data)

/-- A block was not taken. -/
def Refused (log : List StoreAnswer) : Prop := ∃ b e, put b (.error e) ∈ log

/-- A block was withheld or not taken. -/
def Denied (log : List StoreAnswer) : Prop := (∃ c, Withheld log c) ∨ Refused log

/-- A denial stays one when more was answered before. -/
theorem Denied.cons {log : List StoreAnswer} (h : Denied log) (a : StoreAnswer) :
    Denied (a :: log) := by
  rcases h with ⟨c, answer, hanswer, hnot⟩ | ⟨b, e, hrefused⟩
  · exact Or.inl ⟨c, answer, List.mem_cons_of_mem _ hanswer, hnot⟩
  · exact Or.inr ⟨b, e, List.mem_cons_of_mem _ hrefused⟩

/-- Blocks that came up first, and those that came up later. -/
theorem blocks_append (log more : List StoreAnswer) :
    blocks (log ++ more) = blocks log ++ blocks more := List.filterMap_append

/-- What the answers show is a block that came up. -/
theorem mem_of_view_eq_some {log : List StoreAnswer} {c : Cid} {data : Bytes}
    (h : view log c = some data) : ⟨c, data⟩ ∈ blocks log := by
  obtain ⟨b, hb, rfl⟩ := Option.map_eq_some_iff.mp h
  have hcid := List.find?_some hb
  rw [beq_iff_eq] at hcid
  rw [← hcid]
  exact List.mem_of_find?_eq_some hb

/-- The other way round, some block came up under the identifier. -/
theorem exists_of_view_ne_none {log : List StoreAnswer} {c : Cid} (h : view log c ≠ none) :
    ∃ b ∈ blocks log, b.cid = c := by
  obtain ⟨data, hdata⟩ := Option.ne_none_iff_exists'.mp h
  exact ⟨_, mem_of_view_eq_some hdata, rfl⟩

theorem collisionFree_left {log more : List StoreAnswer}
    (hfree : CollisionFree fun b => b ∈ blocks (log ++ more)) :
    CollisionFree fun b => b ∈ blocks log := by
  refine hfree.mono fun b hb => ?_
  rw [blocks_append]
  exact List.mem_append_left _ hb

/-- Among blocks without collisions, those in a log are found there. -/
theorem view_of_mem {log : List StoreAnswer} (hfree : CollisionFree fun b => b ∈ blocks log)
    {b : Block} (hb : b ∈ blocks log) : view log b.cid = some b.data := by
  cases hview : view log b.cid with
  | none =>
    have hnone := List.find?_eq_none.mp (Option.map_eq_none_iff.mp hview) b hb
    simp at hnone
  | some data =>
    have heq := hfree _ b (mem_of_view_eq_some hview) hb rfl
    rw [← heq]

/-- Among blocks without collisions, further ones do not contradict a log. -/
theorem eq_of_view_eq_some {log more : List StoreAnswer}
    (hfree : CollisionFree fun b => b ∈ blocks (log ++ more)) {b : Block} (hb : b ∈ blocks more)
    {data : Bytes} (hdata : view log b.cid = some data) : data = b.data := by
  rw [blocks_append] at hfree
  have heq := hfree _ b (List.mem_append_left _ (mem_of_view_eq_some hdata))
    (List.mem_append_right _ hb) rfl
  rw [← heq]

end StoreAnswer

-- ---------------------------------------------------------------------------
-- Runs
-- ---------------------------------------------------------------------------

namespace BlockM

open StoreAnswer (blocks Withheld Refused Denied)

variable {σ α β : Type}

/-- Over the store, in some state of it, the computation ends with the result after these answers. -/
def Ran (s : BlockStore (StateM σ)) (p : BlockM α) (r : Except Failure α)
    (log : List StoreAnswer) : Prop :=
  ∃ st st', p.runLogged s st = ((r, log), st')

variable {s : BlockStore (StateM σ)} {p : BlockM α} {r : Except Failure α}
  {log : List StoreAnswer}

theorem Ran.eq_of_done {r' : Except Failure α} (h : Ran s (done r') r log) : r' = r ∧ log = [] := by
  obtain ⟨st, st', h⟩ := h
  cases h
  exact ⟨rfl, rfl⟩

/-- A run that starts with a question has its answer first. -/
theorem Ran.of_get {c : Cid} {next : Except Failure (Option Bytes) → BlockM α}
    (h : Ran s (get c next) r log) : ∃ a rest, log = .got c a :: rest ∧ Ran s (next a) r rest := by
  obtain ⟨st, st', h⟩ := h
  -- the first answer, then the rest of the run
  let x := (next (s.get c st).1).runLogged s (s.get c st).2
  have hrun : (get c next).runLogged s st = ((x.1.1, .got c (s.get c st).1 :: x.1.2), x.2) := rfl
  rw [hrun] at h
  obtain ⟨h, -⟩ := Prod.mk.inj h
  obtain ⟨rfl, rfl⟩ := Prod.mk.inj h
  exact ⟨_, _, rfl, _, _, rfl⟩

theorem Ran.of_has {c : Cid} {next : Except Failure Bool → BlockM α} (h : Ran s (has c next) r log) :
    ∃ a rest, log = .had c a :: rest ∧ Ran s (next a) r rest := by
  obtain ⟨st, st', h⟩ := h
  let x := (next (s.has c st).1).runLogged s (s.has c st).2
  have hrun : (has c next).runLogged s st = ((x.1.1, .had c (s.has c st).1 :: x.1.2), x.2) := rfl
  rw [hrun] at h
  obtain ⟨h, -⟩ := Prod.mk.inj h
  obtain ⟨rfl, rfl⟩ := Prod.mk.inj h
  exact ⟨_, _, rfl, _, _, rfl⟩

/-- One that starts with a block has what became of it first. -/
theorem Ran.of_put {b : Block} {next : Except Failure Unit → BlockM α}
    (h : Ran s (put b next) r log) : ∃ a rest, log = .put b a :: rest ∧ Ran s (next a) r rest := by
  obtain ⟨st, st', h⟩ := h
  let x := (next (s.put b st).1).runLogged s (s.put b st).2
  have hrun : (put b next).runLogged s st = ((x.1.1, .put b (s.put b st).1 :: x.1.2), x.2) := rfl
  rw [hrun] at h
  obtain ⟨h, -⟩ := Prod.mk.inj h
  obtain ⟨rfl, rfl⟩ := Prod.mk.inj h
  exact ⟨_, _, rfl, _, _, rfl⟩

/-- A run of two computations in turn is a run of the one, then a run of the other. -/
theorem Ran.of_andThen {p : BlockM β} {f : Except Failure β → BlockM α}
    (h : Ran s (p.andThen f) r log) : ∃ r₁ log₁ log₂,
      Ran s p r₁ log₁ ∧ Ran s (f r₁) r log₂ ∧ log = log₁ ++ log₂ := by
  obtain ⟨st, st', h⟩ := h
  rw [runLogged_andThen] at h
  let x := p.runLogged s st
  let y := (f x.1.1).runLogged s x.2
  obtain ⟨h, -⟩ := Prod.mk.inj (h : ((y.1.1, x.1.2 ++ y.1.2), y.2) = ((r, log), st'))
  obtain ⟨rfl, rfl⟩ := Prod.mk.inj h
  exact ⟨x.1.1, x.1.2, y.1.2, ⟨_, _, rfl⟩, ⟨_, _, rfl⟩, rfl⟩

/-- A run that ends well is one run after another. -/
theorem Ran.of_bind_ok {p : BlockM β} {g : β → BlockM α} {a : α} (h : Ran s (p >>= g) (.ok a) log) :
    ∃ b log₁ log₂, Ran s p (.ok b) log₁ ∧ Ran s (g b) (.ok a) log₂ ∧ log = log₁ ++ log₂ := by
  obtain ⟨x, log₁, log₂, hp, hg, rfl⟩ := Ran.of_andThen h
  cases x with
  | error e => cases hg.eq_of_done.1
  | ok b => exact ⟨b, log₁, log₂, hp, hg, rfl⟩

/-- A run that is tried is a run. -/
theorem Ran.of_attempt {r : Except Failure α} (h : Ran s p.attempt (.ok r) log) : Ran s p r log := by
  obtain ⟨r₁, log₁, log₂, hp, hdone, rfl⟩ := Ran.of_andThen h
  obtain ⟨hr, rfl⟩ := hdone.eq_of_done
  cases hr
  rwa [List.append_nil]

variable {miss : Except Failure α → Prop} {view : View}

private theorem Ran.of_endsIn (h : Ran s p r log) (hends : p.EndsIn miss) : miss r := by
  obtain ⟨r', rfl, hmiss⟩ := hends
  obtain ⟨rfl, -⟩ := h.eq_of_done
  exact hmiss

/-- A computation that only looks has nothing refused. -/
theorem Quiet.of_ran (h : p.Quiet) (hran : Ran s p r log) : ¬Refused log := by
  induction p generalizing log with
  | done r' =>
    obtain ⟨-, rfl⟩ := hran.eq_of_done
    rintro ⟨b, e, hrefused⟩
    cases hrefused
  | get c next ih =>
    obtain ⟨a, rest, rfl, hrest⟩ := hran.of_get
    rintro ⟨b, e, hrefused⟩
    rcases List.mem_cons.mp hrefused with heq | hrefused
    · cases heq
    · exact ih a (h a) hrest ⟨b, e, hrefused⟩
  | has c next ih =>
    obtain ⟨a, rest, rfl, hrest⟩ := hran.of_has
    rintro ⟨b, e, hrefused⟩
    rcases List.mem_cons.mp hrefused with heq | hrefused
    · cases heq
    · exact ih a (h a) hrest ⟨b, e, hrefused⟩
  | put b next => exact h.elim

/-- A computation that needs every block does what it does on the blocks in its log, and writes some
of them, or one was withheld from it or not taken. -/
theorem Insists.of_ran (h : p.Insists miss) (hran : Ran s p r log)
    (hview : ∀ b ∈ blocks log, view b.cid = some b.data) :
    (∃ ws, p.on view = (r, ws) ∧ ∀ b ∈ ws, b ∈ blocks log) ∨ miss r ∧ Denied log := by
  -- on the computation; each answer is the one that the view gives, or the last one
  induction p generalizing log with
  | done r' =>
    obtain ⟨rfl, rfl⟩ := hran.eq_of_done
    exact Or.inl ⟨[], rfl, by simp⟩
  | get c next ih =>
    obtain ⟨a, rest, rfl, hrest⟩ := hran.of_get
    have hwithheld (ha : ∀ data, a ≠ .ok (some data)) : Denied (.got c a :: rest) :=
      Or.inl ⟨c, a, List.mem_cons_self .., ha⟩
    rcases a with e | _ | data
    · exact Or.inr ⟨hrest.of_endsIn (h.1 e), hwithheld (by simp)⟩
    · exact Or.inr ⟨hrest.of_endsIn h.2.1, hwithheld (by simp)⟩
    · -- the block was there, so the view has it too
      have hfound : view c = some data := hview ⟨c, data⟩ (List.mem_cons_self ..)
      have hlater : ∀ b ∈ blocks rest, view b.cid = some b.data :=
        fun b hb => hview b (List.mem_cons_of_mem _ hb)
      rcases ih _ (h.2.2 data) hrest hlater with ⟨ws, hon, hws⟩ | ⟨hmiss, hdenied⟩
      · refine Or.inl ⟨ws, ?_, fun b hb => List.mem_cons_of_mem _ (hws b hb)⟩
        rw [on, hfound]
        exact hon
      · exact Or.inr ⟨hmiss, hdenied.cons _⟩
  | has c next => exact h.elim
  | put b next ih =>
    obtain ⟨a, rest, rfl, hrest⟩ := hran.of_put
    cases a with
    | error e =>
      exact Or.inr ⟨hrest.of_endsIn (h.1 e), Or.inr ⟨b, e, List.mem_cons_self ..⟩⟩
    | ok _ =>
      have hlater : ∀ b ∈ blocks rest, view b.cid = some b.data :=
        fun b' hb => hview b' (List.mem_cons_of_mem _ hb)
      rcases ih _ h.2 hrest hlater with ⟨ws, hon, hws⟩ | ⟨hmiss, hdenied⟩
      · refine Or.inl ⟨b :: ws, by rw [on, hon], ?_⟩
        intro b' hb'
        rcases List.mem_cons.mp hb' with rfl | hb'
        · exact List.mem_cons_self ..
        · exact List.mem_cons_of_mem _ (hws b' hb')
      · exact Or.inr ⟨hmiss, hdenied.cons _⟩

/-- A computation that finds all it needs among known blocks gives the same over any store that does
not contradict them, unless one of the known blocks is withheld from it. -/
theorem Insists.of_ran_gives (h : p.Insists miss) {a : α} (hgives : p.Gives view a)
    (hmiss : ¬miss (.ok a)) (hran : Ran s p r log)
    (hview : ∀ b ∈ blocks log, ∀ data, view b.cid = some data → data = b.data) :
    r = .ok a ∨ miss r ∧ ∃ c, view c ≠ none ∧ Withheld log c := by
  induction p generalizing log with
  | done r' =>
    obtain ⟨rfl, -⟩ := hran.eq_of_done
    exact Or.inl (congrArg Prod.fst hgives)
  | get c next ih =>
    obtain ⟨answer, rest, rfl, hrest⟩ := hran.of_get
    have hgives' : (next (.ok (view c))).Gives view a := hgives
    -- what is given depends on the block
    have hknown : view c ≠ none := by
      intro hnone
      obtain ⟨r', hr', hends⟩ := h.2.1
      rw [hnone, hr'] at hgives'
      have heq : r' = .ok a := congrArg Prod.fst hgives'
      exact hmiss (heq ▸ hends)
    have hwithheld (ha : ∀ data, answer ≠ .ok (some data)) :
        ∃ c', view c' ≠ none ∧ Withheld (.got c answer :: rest) c' :=
      ⟨c, hknown, answer, List.mem_cons_self .., ha⟩
    match answer with
    | .error e => exact Or.inr ⟨hrest.of_endsIn (h.1 e), hwithheld (by simp)⟩
    | .ok none => exact Or.inr ⟨hrest.of_endsIn h.2.1, hwithheld (by simp)⟩
    | .ok (some data) =>
      obtain ⟨data', hdata'⟩ := Option.ne_none_iff_exists'.mp hknown
      obtain rfl := hview ⟨c, data⟩ (List.mem_cons_self ..) data' hdata'
      rw [hdata'] at hgives'
      rcases ih _ (h.2.2 _) hgives' hrest fun b hb => hview b (List.mem_cons_of_mem _ hb) with
        hr | ⟨hr, c', hc', a', ha', hnot⟩
      · exact Or.inl hr
      · exact Or.inr ⟨hr, c', hc', a', List.mem_cons_of_mem _ ha', hnot⟩
  | has c next => exact h.elim
  | put b next => exact absurd (congrArg Prod.snd hgives) (List.cons_ne_nil _ _)

/-- A computation that finds all it needs among the blocks of a log gives the same over a store
later, unless one of these blocks is withheld from it. -/
theorem Insists.of_ran_known (h : p.Insists miss) {known : List StoreAnswer} {a : α}
    (hgives : p.Gives (StoreAnswer.view known) a) (hmiss : ¬miss (.ok a)) (hran : Ran s p r log)
    (hfree : CollisionFree fun b => b ∈ blocks (known ++ log)) :
    r = .ok a ∨ miss r ∧ ∃ b ∈ blocks known, Withheld log b.cid := by
  refine (h.of_ran_gives hgives hmiss hran fun b hb data hdata =>
    StoreAnswer.eq_of_view_eq_some hfree hb hdata).imp_right ?_
  rintro ⟨hr, c, hc, hwithheld⟩
  obtain ⟨b, hb, rfl⟩ := StoreAnswer.exists_of_view_ne_none hc
  exact ⟨hr, b, hb, hwithheld⟩

end BlockM

-- ---------------------------------------------------------------------------
-- Memory
-- ---------------------------------------------------------------------------

namespace Memory

variable {α : Type}

/-- What a computation does in memory, with a log. -/
def execLogged (m : Memory) (p : BlockM α) : (Except Failure α × List StoreAnswer) × Memory :=
  (p.runLogged store : StateM Memory _) m

/-- A run in memory, with its answers. -/
theorem ran_of_execLogged {m m' : Memory} {p : BlockM α} {r : Except Failure α}
    {log : List StoreAnswer} (h : m.execLogged p = ((r, log), m')) : Ran store p r log := ⟨m, m', h⟩

end Memory

end ReplayVector
