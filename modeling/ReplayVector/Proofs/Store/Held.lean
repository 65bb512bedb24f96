import ReplayVector.Proofs.Store.Paths

/-!
# Runs in memory, and writes kept aside

A run along a path in memory needs nothing but the blocks that the path reads, and it needs all of
them. What it writes may be kept aside with the same outcome. And as long as no two different
blocks share an identifier, whatever has been held stays held.

* `Path.exec`, `Path.exec_miss`: a run in memory where all blocks of a path are held, and one
  where some are not.
* `Path.buffered`: a run whose writes are discarded.
* `Memory.Holds`, `CollisionFree`: blocks that are held together.
* `Memory.grows_exec`: what memory holds after a run.
-/

namespace ReplayVector

/-! ## Runs in memory -/

namespace BlockM

variable {α β : Type}

/-- A run in memory where all blocks of a path are held goes along it. -/
theorem Path.exec {miss : Except Failure α → Prop} {p : BlockM α} {rs ws : List Block}
    {r : Except Failure α} (h : Path miss p rs ws r) {m : Memory}
    (hrs : ∀ b ∈ rs, m.get? b.cid = some b.data) : m.exec p = (r, m.putAll ws) := by
  induction h generalizing m with
  | done r => rfl
  | @get c next data rs ws r _ h ih =>
    rw [Memory.exec_get, hrs _ (List.mem_cons_self ..)]
    exact ih fun b hb => hrs b (List.mem_cons_of_mem _ hb)
  | @put b next ws r h ih => exact ih (m := m.put b) (by simp)

/-- A run in memory where a block of a path is missing, and the others are held or missing too,
misses it. -/
theorem Path.exec_miss {miss : Except Failure α → Prop} {p : BlockM α} {rs ws : List Block}
    {r : Except Failure α} (h : Path miss p rs ws r) {m : Memory}
    (hm : ∀ b ∈ rs, m.get? b.cid = none ∨ m.get? b.cid = some b.data)
    (hmissing : ∃ b ∈ rs, m.get? b.cid = none) : miss (m.exec p).1 := by
  induction h with
  | done r =>
    obtain ⟨b, hb, -⟩ := hmissing
    cases hb
  | @get c next data rs ws r hstrict h ih =>
    rcases hm _ (List.mem_cons_self ..) with hnone | hsome
    · obtain ⟨r', hr', hmiss⟩ := hstrict.2
      rw [Memory.exec_get, hnone, hr']
      exact hmiss
    · rw [Memory.exec_get, hsome]
      refine ih (fun b hb => hm b (List.mem_cons_of_mem _ hb)) ?_
      -- the missing block is not the one just read
      obtain ⟨b, hb, hnone⟩ := hmissing
      rcases List.mem_cons.mp hb with rfl | hb
      · rw [hsome] at hnone
        cases hnone
      · exact ⟨b, hb, hnone⟩
  | put h ih =>
    obtain ⟨b, hb, -⟩ := hmissing
    cases hb

/-- A run in memory that ends with a value has found all blocks of a path. -/
theorem Path.held_of_ok {p : BlockM α} {rs ws : List Block} {r : Except Failure α}
    (h : Path Failed p rs ws r) {m : Memory}
    (hm : ∀ b ∈ rs, m.get? b.cid = none ∨ m.get? b.cid = some b.data) {a : α}
    (hok : (m.exec p).1 = .ok a) : ∀ b ∈ rs, m.get? b.cid = some b.data := by
  refine fun b hb => (hm b hb).resolve_left fun hnone => ?_
  obtain ⟨e, he⟩ := h.exec_miss hm ⟨b, hb, hnone⟩
  rw [he] at hok
  cases hok

end BlockM

namespace Memory

/-! ## Blocks held together -/

/-- A block among others after an insertion is the new one or one of them. -/
theorem mem_insert {bs : List Block} {b b' : Block} (h : b' ∈ insert bs b) : b' = b ∨ b' ∈ bs := by
  induction bs with
  | nil => exact Or.inl (List.mem_singleton.mp h)
  | cons b₁ bs ih =>
    rw [insert] at h
    split at h
    · rcases List.mem_cons.mp h with h | h
      · exact Or.inl h
      · exact Or.inr (List.mem_cons_of_mem _ h)
    · rcases List.mem_cons.mp h with h | h
      · exact Or.inr (h ▸ List.mem_cons_self ..)
      · rcases ih h with h | h
        · exact Or.inl h
        · exact Or.inr (List.mem_cons_of_mem _ h)

/-- A block that is held after another was put is that one or was held before. -/
theorem mem_put {m : Memory} {b b' : Block} (h : b' ∈ (m.put b).blocks) :
    b' = b ∨ b' ∈ m.blocks := mem_insert h

/-- A block that is held after several were put is one of them or was held before. -/
theorem mem_putAll {m : Memory} {bs : List Block} {b : Block} (h : b ∈ (m.putAll bs).blocks) :
    b ∈ bs ∨ b ∈ m.blocks := by
  induction bs generalizing m with
  | nil => exact Or.inr h
  | cons b₁ bs ih =>
    rcases ih h with h | h
    · exact Or.inl (List.mem_cons_of_mem _ h)
    · rcases mem_put h with rfl | h
      · exact Or.inl (List.mem_cons_self ..)
      · exact Or.inr h

theorem putAll_append (m : Memory) (bs bs' : List Block) :
    m.putAll (bs ++ bs') = (m.putAll bs).putAll bs' := List.foldl_append

theorem putAll_cons (m : Memory) (b : Block) (bs : List Block) :
    m.putAll (b :: bs) = (m.put b).putAll bs := rfl

end Memory

/-- No two different ones of the blocks share an identifier. -/
def CollisionFree (blocks : Blocks) : Prop :=
  ∀ b b', blocks b → blocks b' → b.cid = b'.cid → b = b'

/-- Among fewer blocks there are no more collisions. -/
theorem CollisionFree.mono {blocks blocks' : Blocks} (h : CollisionFree blocks')
    (hsub : ∀ b, blocks b → blocks' b) : CollisionFree blocks := by
  intro b b' hb hb' hcid
  exact h b b' (hsub b hb) (hsub b' hb') hcid

/-- No two different ones of the blocks share an identifier, as can be tried out. -/
def Block.areDistinct (bs : List Block) : Bool :=
  bs.all fun b => bs.all fun b' => b.cid != b'.cid || b == b'

/-- Blocks that were tried out have no collisions. -/
theorem CollisionFree.of_areDistinct {bs : List Block} (h : Block.areDistinct bs = true) :
    CollisionFree fun b => b ∈ bs := by
  intro b b' hb hb' heq
  have hpair := List.all_eq_true.mp (List.all_eq_true.mp h b hb) b' hb'
  simpa [heq] using hpair

namespace Memory

/-- All of the blocks are held. -/
def Holds (m : Memory) (blocks : Blocks) : Prop :=
  ∀ b, blocks b → m.get? b.cid = some b.data

/-- Only such blocks are held. -/
def Within (m : Memory) (blocks : Blocks) : Prop := ∀ b ∈ m.blocks, blocks b

/-- Among blocks without collisions, one of them is held as it is or not at all. -/
theorem Within.get? {m : Memory} {blocks : Blocks} (h : m.Within blocks)
    (hfree : CollisionFree blocks) {b : Block} (hb : blocks b) :
    m.get? b.cid = none ∨ m.get? b.cid = some b.data := by
  cases hget : m.get? b.cid with
  | none => exact Or.inl rfl
  | some data =>
    have heq := hfree _ _ (h _ (get?_eq_some hget)) hb rfl
    exact Or.inr (congrArg some (congrArg Block.data heq))

theorem within_empty (blocks : Blocks) : empty.Within blocks := by
  intro b hb
  cases hb

/-- Blocks that are some of these are some of those. -/
theorem Within.mono {m : Memory} {blocks blocks' : Blocks} (h : m.Within blocks)
    (hsub : ∀ b, blocks b → blocks' b) : m.Within blocks' := fun b hb => hsub b (h b hb)

/-- One more such block may be put. -/
theorem Within.put {m : Memory} {blocks : Blocks} (h : m.Within blocks) {b : Block}
    (hb : blocks b) : (m.put b).Within blocks := by
  intro b' hb'
  rcases mem_put hb' with rfl | hb'
  · exact hb
  · exact h b' hb'

/-- So may several. -/
theorem Within.putAll {m : Memory} {blocks : Blocks} (h : m.Within blocks)
    {bs : List Block} (hbs : ∀ b ∈ bs, blocks b) : (m.putAll bs).Within blocks := by
  intro b hb
  rcases mem_putAll hb with hb | hb
  · exact hbs b hb
  · exact h b hb

/-- Among blocks without collisions, one that is put keeps what was held. -/
theorem get?_put_of_get? {m : Memory} {blocks : Blocks} (hfree : CollisionFree blocks)
    (hm : m.Within blocks) {b : Block} (hb : blocks b) {c : Cid} {data : Bytes}
    (hc : m.get? c = some data) : (m.put b).get? c = some data := by
  rw [get?_put]
  split
  · next heq =>
    have hheld := hm _ (get?_eq_some hc)
    have := hfree _ _ hb hheld heq
    rw [this]
  · exact hc

/-- Among blocks without collisions, those that are put keep what was held. -/
theorem get?_putAll_of_get? {m : Memory} {blocks : Blocks} (hfree : CollisionFree blocks)
    (hm : m.Within blocks) {bs : List Block} (hbs : ∀ b ∈ bs, blocks b) {c : Cid} {data : Bytes}
    (hc : m.get? c = some data) : (m.putAll bs).get? c = some data := by
  induction bs generalizing m with
  | nil => exact hc
  | cons b bs ih =>
    have hb := hbs b (List.mem_cons_self ..)
    rw [putAll_cons]
    exact ih (hm.put hb) (fun b' h' => hbs b' (List.mem_cons_of_mem _ h'))
      (get?_put_of_get? hfree hm hb hc)

/-- Among blocks without collisions, those that were put are held. -/
theorem get?_putAll_of_mem {m : Memory} {blocks : Blocks} (hfree : CollisionFree blocks)
    (hm : m.Within blocks) {bs : List Block} (hbs : ∀ b ∈ bs, blocks b) {b : Block}
    (hb : b ∈ bs) : (m.putAll bs).get? b.cid = some b.data := by
  induction bs generalizing m with
  | nil => cases hb
  | cons b₁ bs ih =>
    have hb₁ := hbs b₁ (List.mem_cons_self ..)
    have hrest := fun b' h' => hbs b' (List.mem_cons_of_mem b₁ h')
    rw [putAll_cons]
    rcases List.mem_cons.mp hb with rfl | hb
    · exact get?_putAll_of_get? hfree (hm.put hb₁) hrest (by rw [get?_put, if_pos rfl])
    · exact ih (hm.put hb₁) hrest hb

/-- What is put is held beside what was held. -/
theorem Holds.putAll {m : Memory} {held blocks : Blocks} (h : m.Holds held)
    (hfree : CollisionFree blocks) (hm : m.Within blocks) {bs : List Block}
    (hbs : ∀ b ∈ bs, blocks b) : (m.putAll bs).Holds (held.also bs) := by
  rintro b (hb | hb)
  · exact get?_putAll_of_get? hfree hm hbs (h b hb)
  · exact get?_putAll_of_mem hfree hm hbs hb

/-- A memory holds what another one does, and further blocks. -/
structure Grows (blocks : Blocks) (m m' : Memory) (bs : List Block) : Prop where
  mem : ∀ b ∈ bs, blocks b
  within : m'.Within blocks
  keeps : ∀ c data, m.get? c = some data → m'.get? c = some data
  holds : ∀ b ∈ bs, m'.get? b.cid = some b.data

/-- Among blocks without collisions, memory grows by what is put. -/
theorem grows_putAll {m : Memory} {blocks : Blocks} (hfree : CollisionFree blocks)
    (hm : m.Within blocks) {bs : List Block} (hbs : ∀ b ∈ bs, blocks b) :
    Grows blocks m (m.putAll bs) bs where
  mem := hbs
  within := hm.putAll hbs
  keeps := fun _ _ hc => get?_putAll_of_get? hfree hm hbs hc
  holds := fun _ hb => get?_putAll_of_mem hfree hm hbs hb

/-- Among blocks without collisions, a run in memory keeps what is held and holds what it writes. -/
theorem grows_exec {α : Type} {m m' : Memory} {blocks : Blocks} (hfree : CollisionFree blocks)
    (hm : m.Within blocks) {p : BlockM α} {r : Except Failure α} (h : m.exec p = (r, m'))
    (hws : ∀ b ∈ m.writes p, blocks b) : Grows blocks m m' (m.writes p) := by
  have hheld := exec_snd m p
  rw [h] at hheld
  rw [show m' = _ from hheld]
  exact grows_putAll hfree hm hws

/-- The first part of a run that ends well, and what is left of the run. -/
theorem grows_bind {α β : Type} {m m'' : Memory} {blocks : Blocks} (hfree : CollisionFree blocks)
    (hm : m.Within blocks) {p : BlockM α} {f : α → BlockM β} {b : β}
    (h : m.exec (p >>= f) = (.ok b, m'')) (hws : ∀ b ∈ m.writes (p >>= f), blocks b) :
    ∃ a m', m.exec p = (.ok a, m') ∧ Grows blocks m m' (m.writes p) ∧
      m'.exec (f a) = (.ok b, m'') ∧ ∀ b ∈ m'.writes (f a), blocks b := by
  obtain ⟨a, m', hp, hf⟩ := of_exec_bind_ok h
  rw [writes_bind hp] at hws
  exact ⟨a, m', hp, grows_exec hfree hm hp fun b hb => hws b (List.mem_append_left _ hb), hf,
    fun b hb => hws b (List.mem_append_right _ hb)⟩

end Memory

/-! ## Writes kept aside -/

namespace BlockM

variable {α β : Type}

/-- As long as nothing is aside, questions are handed on. -/
private theorem aside_get (c : Cid) (next : Except Failure (Option Bytes) → BlockM α) :
    (get c next).aside .empty = get c fun r => (next r).aside .empty := rfl

/-- With writes kept aside a failure stays one. -/
private theorem aside_failed {p : BlockM α} (h : p.EndsIn Failed) :
    (p.aside .empty).EndsIn Failed := by
  obtain ⟨_, rfl, e, rfl⟩ := h
  exact endsIn_failed e

/-- A path that has only read goes on along a path of what follows. -/
theorem Path.andThen {miss : Except Failure α → Prop} {miss' : Except Failure β → Prop}
    {p : BlockM α} {f : Except Failure α → BlockM β} {rs rs' ws : List Block}
    {r : Except Failure α} {r' : Except Failure β} (h : Path miss p rs [] r)
    (hf : Path miss' (f r) rs' ws r') (hmiss : ∀ r, miss r → (f r).EndsIn miss') :
    Path miss' (p.andThen f) (rs ++ rs') ws r' := by
  induction p generalizing rs with
  | done r =>
    cases h
    exact hf
  | get c next ih =>
    cases h with
    | get hstrict h =>
      exact .get ⟨fun e => (hstrict.1 e).andThen hmiss, hstrict.2.andThen hmiss⟩ (ih _ h)
  | has c next => cases h
  | put b next => cases h

/-- The writes of a path are kept aside one after the other. -/
private theorem Path.aside_writes {p : BlockM α} {ws : List Block} {r : Except Failure α}
    (h : Path Failed p [] ws r) (writes : Memory) :
    Path Failed (p.aside writes) [] [] (r.map fun a => (a, writes.putAll ws)) := by
  induction p generalizing ws writes with
  | done r =>
    cases h
    exact .done _
  | get c next ih => cases h
  | has c next ih => cases h
  | put b next ih =>
    cases h with
    | put h => exact ih _ h (writes.put b)

/-- With its writes kept aside a path reads the same blocks. -/
private theorem Path.aside {p : BlockM α} {rs ws : List Block} {r : Except Failure α}
    (h : Path Failed p rs ws r) :
    Path Failed (p.aside .empty) rs [] (r.map fun a => (a, Memory.empty.putAll ws)) := by
  induction h with
  | done r => exact .done _
  | get hstrict h ih =>
    rw [aside_get]
    exact .get ⟨fun e => aside_failed (hstrict.1 e), aside_failed hstrict.2⟩ ih
  | put h ih => exact (Path.put h).aside_writes .empty

/-- Discarding the writes is keeping them aside and forgetting them at the end. -/
private theorem buffered_eq (p : BlockM α) :
    p.buffered = (p.aside .empty).andThen fun r => done (r.map (·.1)) := map_eq _ _

/-- A run whose writes are discarded reads what the run itself reads, and ends as it does. -/
theorem Path.buffered {p : BlockM α} {rs ws : List Block} {r : Except Failure α}
    (h : Path Failed p rs ws r) : Path Failed p.buffered rs [] r := by
  have hlast : Path Failed (BlockM.done ((r.map fun a => (a, Memory.empty.putAll ws)).map (·.1)))
      [] [] r := by
    cases r with
    | ok a => exact .done _
    | error e => exact .done _
  rw [buffered_eq, ← List.append_nil rs]
  refine h.aside.andThen hlast ?_
  rintro _ ⟨e, rfl⟩
  exact endsIn_failed e

end BlockM

end ReplayVector
