import ReplayVector.Files.Tree
import ReplayVector.Proofs.Files.Path

/-!
# Trees that change

What the changes of a tree do to what is at its locations, and where the paths lead afterwards.

* `FileTree.Grows`: nothing is lost, and at most directories are added, at listed locations.
* `FileTree.Beside`: there is one more file, and nothing else is different.
* `FileTree.grows_makeDirectories`: creating directories adds some on the way of the path.
* `FileTree.Beside.locate_eq`: one more file does not lead any path elsewhere.
-/

namespace ReplayVector.FileTree

/-- Where a path leads to, whatever there is. -/
def target (t : FileTree) (p : Path) : List String := Path.follow (t.start p) p.names

/-- The locations that a path leads through. -/
def way (t : FileTree) (p : Path) : List (List String) := Path.passed (t.start p) p.names

variable {t t' t'' : FileTree} {l : List String} {contents : Bytes}

-- ---------------------------------------------------------------------------
-- Single changes
-- ---------------------------------------------------------------------------

private theorem lookup_filter_ne (entries : List (List String × FileEntry)) (l l' : List String) :
    (entries.filter fun e => e.1 ≠ l).lookup l' = if l' = l then none else entries.lookup l' := by
  induction entries with
  | nil => simp
  | cons e entries ih =>
    obtain ⟨k, e⟩ := e
    rw [List.filter_cons]
    by_cases hk : k = l
    · rw [if_neg (by simp [hk]), ih]
      split
      · rfl
      · next hne => simp [List.lookup_cons, beq_eq_false_iff_ne.mpr (hk ▸ hne : l' ≠ k)]
    · rw [if_pos (by simp [hk])]
      by_cases hl : l' = k
      · simp [hl, hk]
      · simpa [List.lookup_cons, beq_eq_false_iff_ne.mpr hl] using ih

/-- What is at a place other than the top is listed there. -/
theorem get?_eq_lookup (t : FileTree) (h : l ≠ []) : t.get? l = t.entries.lookup l := by
  cases l with
  | nil => exact absurd rfl h
  | cons name names => rfl

@[simp] theorem get?_nil (t : FileTree) : t.get? [] = some .directory := rfl

/-- After something was erased, the rest is as before. -/
theorem get?_erase (t : FileTree) (h : l ≠ []) (l' : List String) :
    (t.erase l).get? l' = if l' = l then none else t.get? l' := by
  by_cases hroot : l' = []
  · rw [hroot, get?_nil, if_neg (Ne.symm h), get?_nil]
  · rw [get?_eq_lookup _ hroot, get?_eq_lookup _ hroot]
    exact lookup_filter_ne t.entries l l'

/-- After something was set, it is there and the rest is as before. -/
theorem get?_set (t : FileTree) (h : l ≠ []) (e : FileEntry) (l' : List String) :
    (t.set l e).get? l' = if l' = l then some e else t.get? l' := by
  have herase := t.get?_erase h l'
  by_cases hroot : l' = []
  · rw [hroot, get?_nil, if_neg (Ne.symm h), get?_nil]
  · rw [get?_eq_lookup _ hroot] at herase ⊢
    rw [set, List.lookup_append, herase]
    split
    · next heq => simp [heq]
    · next hne =>
      have hbeq : (l' == l) = false := beq_eq_false_iff_ne.mpr hne
      simp [List.lookup_cons, hbeq]

-- ---------------------------------------------------------------------------
-- Trees that grow
-- ---------------------------------------------------------------------------

/-- What is at a location is there afterwards; where nothing was and the location is listed, a
directory may be there. -/
def KeepsAt (t t' : FileTree) (ls : List (List String)) (l : List String) : Prop :=
  t'.get? l = t.get? l ∨ l ∈ ls ∧ t.get? l = none ∧ t'.get? l = some .directory

/-- Nothing is lost, and at most directories at the listed locations are added. -/
structure Grows (t t' : FileTree) (ls : List (List String)) : Prop where
  current : t'.current = t.current
  keepsAt : ∀ l, t.KeepsAt t' ls l

variable {ls ls' : List (List String)}

theorem KeepsAt.mono (h : t.KeepsAt t' ls l) (hsub : ls ⊆ ls') : t.KeepsAt t' ls' l :=
  h.imp_right fun h => ⟨hsub h.1, h.2⟩

/-- What is kept by one change and by the next is kept by both. -/
theorem KeepsAt.trans (h : t.KeepsAt t' ls l) (h' : t'.KeepsAt t'' ls l) : t.KeepsAt t'' ls l := by
  obtain heq | ⟨hmem, hnone, hnew⟩ := h
  · obtain heq' | ⟨hmem, hnone, hnew⟩ := h'
    · exact .inl (heq'.trans heq)
    · exact .inr ⟨hmem, heq ▸ hnone, hnew⟩
  · obtain heq' | ⟨-, hnone', -⟩ := h'
    · exact .inr ⟨hmem, hnone, heq'.trans hnew⟩
    -- a directory that is there cannot be added again
    · rw [hnew] at hnone'
      cases hnone'

theorem Grows.refl (t : FileTree) (ls : List (List String)) : t.Grows t ls :=
  ⟨rfl, fun _ => .inl rfl⟩

theorem Grows.mono (h : t.Grows t' ls) (hsub : ls ⊆ ls') : t.Grows t' ls' := by
  refine ⟨h.current, fun l => ?_⟩
  exact (h.keepsAt l).mono hsub

/-- One growth after the other. -/
theorem Grows.trans (h : t.Grows t' ls) (h' : t'.Grows t'' ls) : t.Grows t'' ls := by
  refine ⟨h'.current.trans h.current, fun l => ?_⟩
  exact (h.keepsAt l).trans (h'.keepsAt l)

/-- A path leads to the same place, for the current directory is the same. -/
theorem Grows.target_eq (h : t.Grows t' ls) (p : Path) : t'.target p = t.target p := by
  rw [target, target, start, start, h.current]

/-- A directory where nothing was. -/
theorem grows_set_directory (h : l ≠ []) (hnone : t.get? l = none) :
    t.Grows (t.set l .directory) [l] := by
  refine ⟨rfl, fun l' => ?_⟩
  by_cases heq : l' = l
  · exact .inr ⟨List.mem_singleton.mpr heq, heq ▸ hnone, by rw [get?_set t h, if_pos heq]⟩
  · exact .inl (by rw [get?_set t h, if_neg heq])

/-- Creating the directories on the way adds only places that the way passes. -/
theorem grows_walkCreating (t : FileTree) (l parts : List String) :
    t.Grows (t.walkCreating l parts).1 (Path.passed l (Path.namesOf parts)) := by
  -- by induction on the parts: each of them adds at most the directory that it leads to
  induction parts generalizing t l with
  | nil => exact Grows.refl t _
  | cons part parts ih =>
    rw [walkCreating]
    cases hblank : Path.isBlank part with
    | true =>
      rw [Path.namesOf_cons_blank hblank]
      exact ih t l
    | false =>
      rw [Path.namesOf_cons hblank, Path.passed]
      by_cases hback : part = ".."
      · simp only [hback]
        exact ih t _
      · simp only [hback]
        have hnext : (l ++ [part]) ≠ [] := by simp
        cases hget : t.get? (l ++ [part]) with
        | none =>
          by_cases hname : isName part = true
          · simp only [hname]
            have hset := grows_set_directory hnext hget
            exact (hset.mono (by simp)).trans ((ih _ _).mono (List.subset_cons_self _ _))
          · simp only [hname]
            exact Grows.refl t _
        | some e =>
          cases e with
          | file contents => exact Grows.refl t _
          | directory => exact (ih t _).mono (List.subset_cons_self _ _)

/-- Creating the directories of a path adds directories that the path leads through. -/
theorem grows_makeDirectories (t : FileTree) (p : Path) :
    t.Grows (t.makeDirectories p).1 (t.way p) := by
  rw [makeDirectories]
  split
  · exact t.grows_walkCreating _ _
  · exact Grows.refl t _

-- ---------------------------------------------------------------------------
-- Where paths lead
-- ---------------------------------------------------------------------------

/-- A walk that arrives is where its names lead. -/
theorem walk_eq_follow {parts : List String} {l l' : List String} (h : t.walk l parts = some l') :
    l' = Path.follow l (Path.namesOf parts) := by
  -- by induction on the parts: whatever is missing ends the walk without a location
  induction parts generalizing l with
  | nil => exact (Option.some.inj h).symm
  | cons part parts ih =>
    rw [walk] at h
    cases hblank : Path.isBlank part with
    | true =>
      rw [Path.namesOf_cons_blank hblank]
      rw [hblank] at h
      exact ih h
    | false =>
      rw [Path.namesOf_cons hblank, Path.follow]
      rw [hblank] at h
      by_cases hback : part = ".."
      · rw [if_pos hback] at h ⊢
        exact ih h
      · rw [if_neg hback] at h ⊢
        by_cases hnext : t.get? (l ++ [part]) = some .directory
        · exact ih ((if_pos hnext).symm.trans h)
        · cases (if_neg hnext).symm.trans h

/-- A name is not blank. -/
theorem isBlank_of_isName {part : String} (h : isName part = true) :
    Path.isBlank part = false := by
  simp_all [isName, Path.isBlank]

/-- Nor does it lead back. -/
theorem ne_back_of_isName {part : String} (h : isName part = true) : part ≠ ".." := by
  simp_all [isName]

/-- A path leads to its target, and that is not the root, if it can be located at all. -/
theorem of_locate_eq_some {p : Path} (h : t.locate p = some l) : l = t.target p ∧ l ≠ [] := by
  rw [locate] at h
  cases hlast : p.parts.getLast? with
  | none =>
    rw [hlast] at h
    cases h
  | some name =>
    simp only [hlast, Option.bind_eq_bind, Option.bind_some] at h
    split at h
    · next hname =>
      cases hwalk : t.walk (t.start p) p.parts.dropLast with
      | none =>
        rw [hwalk] at h
        cases h
      | some l₀ =>
        rw [hwalk] at h
        -- the last part is a name, so all the names are those before it and this one
        have hl : l = l₀ ++ [name] := (Option.some.inj h).symm
        have hparts : p.parts.dropLast ++ [name] = p.parts :=
          List.dropLast_append_getLast? name hlast
        have hnames : p.names = Path.namesOf p.parts.dropLast ++ [name] := by
          rw [Path.names, ← hparts, Path.namesOf_append, hparts,
            Path.namesOf_cons (isBlank_of_isName hname.2), Path.namesOf_nil]
        refine ⟨?_, by simp [hl]⟩
        rw [target, hnames, Path.follow_append, ← walk_eq_follow hwalk, hl, Path.follow,
          if_neg (ne_back_of_isName hname.2), Path.follow]
    · cases h

/-- Paths lead to the same places in trees with the same directories. -/
theorem walk_congr (h : ∀ l, t'.get? l = some .directory ↔ t.get? l = some .directory)
    (l parts : List String) : t'.walk l parts = t.walk l parts := by
  induction parts generalizing l with
  | nil => rfl
  | cons part parts ih => simp only [walk, ih, h]

/-- Where a path leads depends on the directories alone. -/
theorem locate_congr (hcurrent : t'.current = t.current)
    (h : ∀ l, t'.get? l = some .directory ↔ t.get? l = some .directory) (p : Path) :
    t'.locate p = t.locate p := by
  have hstart : t'.start p = t.start p := by rw [start, start, hcurrent]
  simp only [locate, hstart, walk_congr h]

/-- A path that does not go back does not lead to its directory through its own end. -/
theorem target_notMem_way {p : Path} (h : ".." ∉ p.parts) : t.target p ∉ t.way p.directory := by
  have hnames : ".." ∉ p.names := fun hmem => h (List.mem_of_mem_filter hmem)
  rw [target, way, Path.names_directory]
  by_cases hnone : p.names = []
  · rw [hnone]
    exact List.not_mem_nil
  · have hstart : t.start p.directory = t.start p := by
      rw [start, start, Path.isAbsolute_directory hnone]
    rw [hstart]
    exact Path.follow_notMem_passed hnames _

-- ---------------------------------------------------------------------------
-- One more file
-- ---------------------------------------------------------------------------

/-- There is one more file, and nothing else is different. -/
structure Beside (t t' : FileTree) (l : List String) (contents : Bytes) : Prop where
  ne_nil : l ≠ []
  current : t'.current = t.current
  absent : t.get? l = none
  present : t'.get? l = some (.file contents)
  others : ∀ l', l' ≠ l → t'.get? l' = t.get? l'

theorem beside_set (h : l ≠ []) (habsent : t.get? l = none) (contents : Bytes) :
    t.Beside (t.set l (.file contents)) l contents where
  ne_nil := h
  current := rfl
  absent := habsent
  present := by rw [get?_set t h, if_pos rfl]
  others l' hne := by rw [get?_set t h, if_neg hne]

/-- There is the file, and nothing else is different. -/
structure Placed (t t' : FileTree) (l : List String) (contents : Bytes) : Prop where
  present : t'.get? l = some (.file contents)
  others : ∀ l', l' ≠ l → t'.get? l' = t.get? l'

namespace Beside

variable (h : t.Beside t' l contents)
include h

theorem get?_directory (l' : List String) :
    t'.get? l' = some .directory ↔ t.get? l' = some .directory := by
  by_cases heq : l' = l
  · rw [heq, h.present, h.absent]
    simp
  · rw [h.others l' heq]

theorem locate_eq (p : Path) : t'.locate p = t.locate p :=
  locate_congr h.current h.get?_directory p

/-- The file may get other contents. -/
theorem set (contents' : Bytes) : t.Beside (t'.set l (.file contents')) l contents' where
  ne_nil := h.ne_nil
  current := h.current
  absent := h.absent
  present := by rw [get?_set t' h.ne_nil, if_pos rfl]
  others l' hne := by rw [get?_set t' h.ne_nil, if_neg hne, h.others l' hne]

/-- Without the file, everything is as before. -/
theorem get?_erase (l' : List String) : (t'.erase l).get? l' = t.get? l' := by
  rw [FileTree.get?_erase t' h.ne_nil]
  split
  · next heq => rw [heq, h.absent]
  · next hne => exact h.others l' hne

/-- Moving the file away from where it is puts it in its place. -/
theorem of_move {target : List String} (hne : target ≠ []) (hmove : t'.move l target = some t'') :
    t.Placed t'' target contents := by
  -- it is a file that is moved, and without it the tree is what it was
  have hmoved : t'' = (t'.erase l).set target (.file contents) := by
    rw [move, h.present] at hmove
    split at hmove
    · cases hmove
    · next heq _ =>
      cases heq
      exact (Option.some.inj hmove).symm
    · cases hmove
  subst hmoved
  refine ⟨by rw [get?_set _ hne, if_pos rfl], fun l' hne' => ?_⟩
  rw [get?_set _ hne, if_neg hne', h.get?_erase]

end Beside

end ReplayVector.FileTree
