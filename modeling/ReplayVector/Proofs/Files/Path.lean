import Mathlib.Data.List.DropRight
import ReplayVector.Files.Path

/-!
# Where paths lead

Only the parts of a path that name something lead anywhere, and two dots lead back. So every path
has a place that it leads to and directories that it leads through, whatever there is on the disk.

* `Path.names_directory`, `Path.isAbsolute_directory`: the directory of a path has all its names
  but the last, and starts where the path starts.
* `Path.follow_notMem_passed`: a path that never goes back does not lead through its own end.
-/

namespace ReplayVector.Path

/-- The parts that name something. -/
def namesOf (parts : List String) : List String := parts.filter fun part => !isBlank part

/-- The parts of a path that name something. -/
def names (p : Path) : List String := namesOf p.parts

/-- Where names lead to from a location. -/
def follow : List String → List String → List String
  | location, [] => location
  | location, name :: names =>
    if name = ".." then follow location.dropLast names else follow (location ++ [name]) names

/-- The locations that names lead through, as far as they do not lead back. -/
def passed : List String → List String → List (List String)
  | _, [] => []
  | location, name :: names =>
    if name = ".." then passed location.dropLast names
    else (location ++ [name]) :: passed (location ++ [name]) names

-- ---------------------------------------------------------------------------
-- Names
-- ---------------------------------------------------------------------------

@[simp] theorem namesOf_nil : namesOf [] = [] := rfl

/-- A blank part is no name. -/
theorem namesOf_cons_blank {part : String} (h : isBlank part = true) (parts : List String) :
    namesOf (part :: parts) = namesOf parts := by
  simp [namesOf, h]

/-- Any other part is one. -/
theorem namesOf_cons {part : String} (h : isBlank part = false) (parts : List String) :
    namesOf (part :: parts) = part :: namesOf parts := by
  simp [namesOf, h]

theorem namesOf_append (parts parts' : List String) :
    namesOf (parts ++ parts') = namesOf parts ++ namesOf parts' :=
  List.filter_append ..

/-- Parts without a name at their end are left out without a loss. -/
theorem namesOf_trimEnd (parts : List String) : namesOf (trimEnd parts) = namesOf parts := by
  show namesOf (parts.rdropWhile isBlank) = namesOf parts
  induction parts using List.reverseRecOn with
  | nil => rfl
  | append_singleton parts part ih =>
    rw [List.rdropWhile_concat]
    split
    · next h => rw [ih, namesOf_append, namesOf_cons_blank h, namesOf_nil, List.append_nil]
    · rfl

/-- A path is blank to its end if it has no names. -/
theorem trimEnd_eq_nil_iff (parts : List String) : trimEnd parts = [] ↔ namesOf parts = [] := by
  show parts.rdropWhile isBlank = [] ↔ _
  rw [List.rdropWhile_eq_nil_iff, namesOf, List.filter_eq_nil_iff]
  simp

/-- After the parts without a name at the end, the last part is the last name. -/
theorem namesOf_dropLast_trimEnd (parts : List String) :
    namesOf (trimEnd parts).dropLast = (namesOf parts).dropLast := by
  rw [← namesOf_trimEnd parts]
  by_cases h : trimEnd parts = []
  · rw [h]
    rfl
  · have hlast : isBlank ((trimEnd parts).getLast h) = false :=
      Bool.eq_false_iff.mpr (List.rdropWhile_last_not isBlank parts h)
    conv_rhs => rw [← List.dropLast_append_getLast h, namesOf_append, namesOf_cons hlast]
    rw [namesOf_nil, List.dropLast_concat]

-- ---------------------------------------------------------------------------
-- How paths start
-- ---------------------------------------------------------------------------

/-- A path starts from the root, with a dot, or with its first name. -/
theorem split_cases (p : Path) :
    (∃ rest, rest ≠ [] ∧ p.parts = "" :: rest ∧ p.split = ([""], rest)) ∨
      (∃ rest, p.parts = "." :: rest ∧ p.split = (["."], rest)) ∨
      (p.split = ([], p.parts) ∨ p.parts = [""] ∧ p.split = ([], [])) := by
  rcases p with ⟨parts⟩
  unfold split
  split
  · next rest h =>
    cases rest with
    -- an empty part alone is the empty path, which starts nowhere
    | nil => exact .inr (.inr (.inr ⟨h, rfl⟩))
    | cons part rest => exact .inl ⟨part :: rest, by simp, h, rfl⟩
  · next rest h => exact .inr (.inl ⟨rest, h, rfl⟩)
  · exact .inr (.inr (.inl rfl))

/-- What a path starts with names nothing. -/
theorem namesOf_split (p : Path) : namesOf p.split.2 = p.names := by
  obtain ⟨rest, -, hparts, hsplit⟩ | ⟨rest, hparts, hsplit⟩ | hsplit | ⟨hparts, hsplit⟩ :=
    p.split_cases
  · rw [hsplit, names, hparts, namesOf_cons_blank rfl]
  · rw [hsplit, names, hparts, namesOf_cons_blank rfl]
  · rw [hsplit, names]
  · rw [hsplit, names, hparts]
    rfl

/-- A path is absolute if it starts with a slash, with something behind it. -/
theorem isAbsolute_iff (p : Path) :
    p.isAbsolute = true ↔ ∃ rest, rest ≠ [] ∧ p.parts = "" :: rest := by
  constructor
  · intro h
    obtain ⟨rest, hne, hparts, -⟩ | ⟨rest, -, hsplit⟩ | hsplit | ⟨-, hsplit⟩ := p.split_cases
    · exact ⟨rest, hne, hparts⟩
    all_goals
      rw [isAbsolute, hsplit] at h
      cases h
  · rintro ⟨rest, hne, hparts⟩
    rw [isAbsolute, split, hparts]
    cases rest with
    | nil => exact absurd rfl hne
    | cons part rest => rfl

/-- A path that starts from the root still does with further parts. -/
theorem isAbsolute_of_isPrefix {p q : Path} (h : q.parts <+: p.parts) (hq : q.isAbsolute = true) :
    p.isAbsolute = true := by
  obtain ⟨more, hmore⟩ := h
  obtain ⟨rest, hne, hrest⟩ := q.isAbsolute_iff.mp hq
  refine p.isAbsolute_iff.mpr ⟨rest ++ more, by simp [hne], ?_⟩
  rw [← hmore, hrest, List.cons_append]

/-- The path `q` starts where `p` starts and leads along its names, unless it names nothing. -/
def Leads (q p : Path) : Prop :=
  q.names <+: p.names ∧ (q.names = [] ∨ q.isAbsolute = p.isAbsolute)

/-- The first parts of a path lead along it. -/
theorem leads_take (p : Path) (n : Nat) : Leads ⟨p.parts.take n⟩ p := by
  have hfront : p.parts.take n <+: p.parts := List.take_prefix n p.parts
  refine ⟨hfront.filter _, ?_⟩
  cases habsolute : p.isAbsolute with
  | false =>
    refine .inr (Bool.eq_false_iff.mpr fun h => ?_)
    rw [isAbsolute_of_isPrefix hfront h] at habsolute
    cases habsolute
  | true =>
    obtain ⟨rest, hne, hrest⟩ := p.isAbsolute_iff.mp habsolute
    rw [hrest]
    -- with less than two parts nothing is named yet, and the path may not start from the root
    match n with
    | 0 => exact .inl rfl
    | 1 => exact .inl rfl
    | n + 2 =>
      refine .inr ((isAbsolute_iff _).mpr ⟨rest.take (n + 1), ?_, rfl⟩)
      simpa using hne

-- ---------------------------------------------------------------------------
-- The directory of a path
-- ---------------------------------------------------------------------------

/-- The parts before the last name. -/
def upper (parts : List String) : List String := trimEnd (trimEnd parts).dropLast

/-- One level up is one name less. -/
theorem namesOf_upper (parts : List String) : namesOf (upper parts) = (namesOf parts).dropLast := by
  rw [upper, namesOf_trimEnd, namesOf_dropLast_trimEnd]

/-- Its parts are the first ones of the path. -/
theorem upper_prefix (parts : List String) : upper parts <+: parts := by
  have hname := List.rdropWhile_prefix isBlank parts
  have hlast := List.dropLast_prefix (parts.rdropWhile isBlank)
  exact (List.rdropWhile_prefix isBlank _).trans (hlast.trans hname)

/-- The directory of a path without a name is the working directory. -/
theorem directory_of_names_eq_nil {p : Path} (h : p.names = []) : p.directory = ⟨["."]⟩ := by
  have hrest : trimEnd p.split.2 = [] := by
    rw [trimEnd_eq_nil_iff, namesOf_split, h]
  rw [directory, parent?]
  generalize p.split = q at hrest
  obtain ⟨start, rest⟩ := q
  simp only [hrest]
  by_cases hstart : start = ["."] <;> simp [hstart]

/-- The directory of a path that names something consists of what the path starts with and the
parts before the last name. An empty part or a dot stands in where that is nothing. -/
theorem directory_of_names_ne_nil {p : Path} (h : p.names ≠ []) :
    (upper p.split.2 ≠ [] ∧ p.directory.parts = p.split.1 ++ upper p.split.2) ∨
      namesOf (upper p.split.2) = [] ∧
        p.directory.parts = if p.split.1 = [""] then ["", ""] else ["."] := by
  have hstart : p.split.1 = [""] ∨ p.split.1 = ["."] ∨ p.split.1 = [] := by
    obtain ⟨_, -, -, h⟩ | ⟨_, -, h⟩ | h | ⟨-, h⟩ := p.split_cases <;> rw [h] <;> simp
  have hrest : trimEnd p.split.2 ≠ [] := by
    rw [Ne, trimEnd_eq_nil_iff, namesOf_split]
    exact h
  rw [directory, parent?]
  generalize p.split = q at *
  obtain ⟨start, rest⟩ := q
  dsimp only at *
  cases htrim : trimEnd rest with
  | nil => exact absurd htrim hrest
  | cons part parts =>
    have hupper : trimEnd (part :: parts).dropLast = upper rest := by rw [upper, htrim]
    simp only [hupper]
    generalize upper rest = up
    obtain rfl | rfl | rfl := hstart
    · cases up <;> simp
    · cases up <;> simp
    · cases up with
      | nil => simp
      | cons part parts =>
        by_cases hblank : part :: parts = [""]
        · rw [hblank]
          exact .inr ⟨rfl, rfl⟩
        · exact .inl ⟨by simp, congrArg Path.parts (if_neg hblank)⟩

/-- The directory of a path leads along its names but the last. -/
theorem names_directory (p : Path) : p.directory.names = p.names.dropLast := by
  by_cases h : p.names = []
  · rw [directory_of_names_eq_nil h, h]
    rfl
  · have hsplit : namesOf p.split.1 = [] := by
      obtain ⟨_, -, -, h⟩ | ⟨_, -, h⟩ | h | ⟨-, h⟩ := p.split_cases <;> rw [h] <;> rfl
    have hupper : namesOf (upper p.split.2) = p.names.dropLast := by
      rw [namesOf_upper, namesOf_split]
    obtain ⟨-, hparts⟩ | ⟨hnone, hparts⟩ := directory_of_names_ne_nil h
    · rw [names, hparts, namesOf_append, hsplit, hupper, List.nil_append]
    · rw [names, hparts, ← hupper, hnone]
      split <;> rfl

/-- The directory of a path that names something starts where the path starts. -/
theorem isAbsolute_directory {p : Path} (h : p.names ≠ []) :
    p.directory.isAbsolute = p.isAbsolute := by
  have hparts := directory_of_names_ne_nil h
  cases habsolute : p.isAbsolute with
  | true =>
    have hstart : p.split.1 = [""] := of_decide_eq_true habsolute
    rw [hstart] at hparts
    refine (isAbsolute_iff _).mpr ?_
    obtain ⟨hne, hparts⟩ | ⟨-, hparts⟩ := hparts
    · exact ⟨upper p.split.2, hne, hparts⟩
    · exact ⟨[""], by simp, hparts⟩
  | false =>
    have hstart : p.split.1 ≠ [""] := of_decide_eq_false habsolute
    rw [if_neg hstart] at hparts
    refine Bool.eq_false_iff.mpr fun hdirectory => ?_
    obtain ⟨-, hparts⟩ | ⟨-, hparts⟩ := hparts
    -- the directory is a front part of the path then, and that does not start from the root
    · have hfront : p.directory.parts <+: p.parts := by
        rw [hparts]
        obtain ⟨_, -, -, hsplit⟩ | ⟨_, hp, hsplit⟩ | hsplit | ⟨_, hsplit⟩ := p.split_cases
        · rw [hsplit] at hstart
          exact absurd rfl hstart
        · rw [hp, hsplit]
          exact List.cons_prefix_cons.mpr ⟨rfl, upper_prefix _⟩
        · rw [hsplit]
          exact upper_prefix _
        · rw [hsplit]
          exact List.nil_prefix
      rw [isAbsolute_of_isPrefix hfront hdirectory] at habsolute
      cases habsolute
    · obtain ⟨_, -, hroot⟩ := (isAbsolute_iff _).mp hdirectory
      rw [hparts] at hroot
      exact absurd (List.cons.inj hroot).1 (by decide)

-- ---------------------------------------------------------------------------
-- The way
-- ---------------------------------------------------------------------------

/-- What the first names lead through, all of them lead through. -/
theorem passed_subset {names names' : List String} (h : names <+: names')
    (location : List String) : passed location names ⊆ passed location names' := by
  induction names generalizing names' location with
  | nil => exact List.nil_subset _
  | cons name names ih =>
    obtain ⟨more, rfl⟩ := h
    have hrest : names <+: names ++ more := List.prefix_append names more
    simp only [List.cons_append, passed]
    split
    · exact ih hrest _
    · exact List.cons_subset_cons _ (ih hrest _)

/-- Names are followed one after the other. -/
theorem follow_append (location names names' : List String) :
    follow location (names ++ names') = follow (follow location names) names' := by
  induction names generalizing location with
  | nil => rfl
  | cons name names ih =>
    rw [List.cons_append, follow, follow]
    split
    · exact ih _
    · exact ih _

/-- Without steps back they are appended. -/
theorem follow_eq_append {names : List String} (h : ".." ∉ names) (location : List String) :
    follow location names = location ++ names := by
  induction names generalizing location with
  | nil => exact (List.append_nil location).symm
  | cons name names ih =>
    rw [List.mem_cons, not_or] at h
    rw [follow, if_neg (Ne.symm h.1), ih h.2, List.append_assoc]
    rfl

/-- On the way no place is deeper than there are names. -/
theorem length_le_of_mem_passed {location l : List String} {names : List String}
    (h : l ∈ passed location names) : l.length ≤ location.length + names.length := by
  induction names generalizing location with
  | nil => cases h
  | cons name names ih =>
    rw [passed] at h
    rw [List.length_cons]
    split at h
    · have := ih h
      rw [List.length_dropLast] at this
      omega
    · rcases List.mem_cons.mp h with rfl | h
      · simp
      · have := ih h
        rw [List.length_append, List.length_singleton] at this
        omega

/-- Names that never lead back do not lead to their end before the last of them. -/
theorem follow_notMem_passed {names : List String} (h : ".." ∉ names) (location : List String) :
    follow location names ∉ passed location names.dropLast := by
  intro hmem
  have hlength := length_le_of_mem_passed hmem
  rw [follow_eq_append h, List.length_append, List.length_dropLast] at hlength
  cases names with
  | nil => cases hmem
  | cons name names =>
    rw [List.length_cons] at hlength
    omega

end ReplayVector.Path
