import ReplayVector.Proofs.Json.Numbers
import ReplayVector.Proofs.Json.Strings

/-!
# Texts of JSON values

`Spells j cs` says that the characters `cs` are a text of the value `j`: blanks may stand after an
opening bracket, after a comma or colon, and before a closing bracket, as in both layouts of the
printer. A reader that is given enough room reads every such text.

* `readValue_of_spells`: the value at the front of a longer text.
* `read_of_spells`: the value that a text holds, with blanks behind it.
* `Printed`: the indented layout of a value is a text of it.
* `read_compact`: so is the compact layout of any value that has a text.
-/

namespace ReplayVector.Json

/-! ## Texts -/

/-- Nothing but blanks. -/
def Blanks (ws : List Char) : Prop := ∀ c ∈ ws, isBlank c = true

theorem blanks_nil : Blanks [] := fun _ h => by cases h

mutual

/-- The characters are a text of the value. -/
inductive Spells : Json → List Char → Prop
  | null : Spells .null "null".toList
  | boolTrue : Spells (.bool true) "true".toList
  | boolFalse : Spells (.bool false) "false".toList
  | number (n : Int) : Spells (ofInt n) (Int.repr n).toList
  | string (s : String) : Spells (ofString s) (quote s)
  | emptyArray : Spells (.array []) ['[', ']']
  | array {ws cs tail : List Char} {j : Json} {js : List Json} (hws : Blanks ws)
      (hj : Spells j cs) (hjs : SpellsItems js tail) :
      Spells (.array (j :: js)) ('[' :: (ws ++ (cs ++ tail)))
  | emptyObject : Spells (.object []) ['\x7b', '\x7d']
  | object {ws ws' cs tail : List Char} {name : String} {j : Json}
      {ms : List (Option String × Json)} (hws : Blanks ws) (hws' : Blanks ws') (hj : Spells j cs)
      (hms : SpellsMembers ms tail) :
      Spells (.object ((some name, j) :: ms))
        ('\x7b' :: (ws ++ (quote name ++ ':' :: (ws' ++ (cs ++ tail)))))

/-- The characters are a text of further items of an array, and its closing bracket. -/
inductive SpellsItems : List Json → List Char → Prop
  | nil {ws : List Char} (hws : Blanks ws) : SpellsItems [] (ws ++ [']'])
  | cons {ws cs tail : List Char} {j : Json} {js : List Json} (hws : Blanks ws)
      (hj : Spells j cs) (hjs : SpellsItems js tail) :
      SpellsItems (j :: js) (',' :: (ws ++ (cs ++ tail)))

/-- The characters are a text of further members of an object, and its closing brace. -/
inductive SpellsMembers : List (Option String × Json) → List Char → Prop
  | nil {ws : List Char} (hws : Blanks ws) : SpellsMembers [] (ws ++ ['\x7d'])
  | cons {ws ws' cs tail : List Char} {name : String} {j : Json}
      {ms : List (Option String × Json)} (hws : Blanks ws) (hws' : Blanks ws') (hj : Spells j cs)
      (hms : SpellsMembers ms tail) :
      SpellsMembers ((some name, j) :: ms)
        (',' :: (ws ++ (quote name ++ ':' :: (ws' ++ (cs ++ tail)))))

end

/-! ## Blanks and first characters -/

theorem skipBlanks_append {ws : List Char} (h : Blanks ws) (cs : List Char) :
    skipBlanks (ws ++ cs) = skipBlanks cs := by
  rw [skipBlanks, skipBlanks, List.dropWhile_append_of_pos h]

theorem skipBlanks_cons {c : Char} (h : isBlank c = false) (cs : List Char) :
    skipBlanks (c :: cs) = c :: cs := by
  rw [skipBlanks, List.dropWhile_cons_of_neg (by rw [h]; exact Bool.false_ne_true)]

/-- Blanks before a value do not matter. -/
theorem readValue_blanks {ws : List Char} (h : Blanks ws) (fuel : Nat) (cs : List Char) :
    readValue fuel (ws ++ cs) = readValue fuel cs := by
  cases fuel with
  | zero => rfl
  | succ fuel => rw [readValue, readValue, skipBlanks_append h]

/-- Blanks before an item do not matter. -/
theorem readItems_blanks {ws : List Char} (h : Blanks ws) (fuel : Nat) (cs : List Char) :
    readItems fuel (ws ++ cs) = readItems fuel cs := by
  cases fuel with
  | zero => rfl
  | succ fuel => rw [readItems, readItems, readValue_blanks h]

/-- Blanks before a member do not matter. -/
theorem readMembers_blanks {ws : List Char} (h : Blanks ws) (fuel : Nat) (cs : List Char) :
    readMembers fuel (ws ++ cs) = readMembers fuel cs := by
  cases fuel with
  | zero => rfl
  | succ fuel => rw [readMembers, readMembers, skipBlanks_append h]

theorem skipBlanks_quote_append (s : String) (cs : List Char) :
    skipBlanks (quote s ++ cs) = quote s ++ cs := by
  obtain ⟨tail, heq, -⟩ := scanString_quote s cs
  rw [heq]
  exact skipBlanks_cons (by decide) _

/-- A value's text begins with a character that is no blank and closes nothing. -/
theorem Spells.head {j : Json} {cs : List Char} (h : Spells j cs) :
    ∃ c tail, cs = c :: tail ∧ isBlank c = false ∧ c ≠ ']' ∧ c ≠ '\x7d' := by
  cases h with
  | null => exact ⟨'n', _, rfl, by decide⟩
  | boolTrue => exact ⟨'t', _, rfl, by decide⟩
  | boolFalse => exact ⟨'f', _, rfl, by decide⟩
  | number n =>
    rw [toList_repr]
    split
    · exact ⟨'-', _, rfl, by decide⟩
    · cases hd : decimal n.natAbs with
      | nil => exact absurd hd (decimal_ne_nil _)
      | cons d ds =>
        have hdigit : d.isDigit = true :=
          isDigit_of_mem_decimal (n := n.natAbs) (by rw [hd]; exact List.mem_cons_self ..)
        refine ⟨d, ds, rfl, ?_, ?_, ?_⟩
        · rw [Bool.eq_false_iff]
          intro hblank
          simp only [isBlank, Bool.or_eq_true, decide_eq_true_eq] at hblank
          rcases hblank with ((rfl | rfl) | rfl) | rfl <;> exact absurd hdigit (by decide)
        · rintro rfl
          exact absurd hdigit (by decide)
        · rintro rfl
          exact absurd hdigit (by decide)
  | string s => exact ⟨'"', _, rfl, by decide⟩
  | emptyArray => exact ⟨'[', _, rfl, by decide⟩
  | array => exact ⟨'[', _, rfl, by decide⟩
  | emptyObject => exact ⟨'\x7b', _, rfl, by decide⟩
  | object => exact ⟨'\x7b', _, rfl, by decide⟩

/-- Blanks before a value are all that is skipped. -/
theorem skipBlanks_of_spells {j : Json} {ws cs : List Char} (hws : Blanks ws) (h : Spells j cs)
    (rest : List Char) : skipBlanks (ws ++ (cs ++ rest)) = cs ++ rest := by
  obtain ⟨c, tail, rfl, hc, -, -⟩ := h.head
  rw [skipBlanks_append hws]
  exact skipBlanks_cons hc _

/-- Blanks delimit a number, and so does a character that is not part of one. -/
theorem delimits_blanks {ws rest : List Char} (hws : Blanks ws) (hrest : Delimits rest) :
    Delimits (ws ++ rest) := by
  cases ws with
  | nil => exact hrest
  | cons w ws =>
    have hw := hws w (List.mem_cons_self ..)
    apply delimits_cons
    simp only [isBlank, Bool.or_eq_true, decide_eq_true_eq] at hw
    rcases hw with ((rfl | rfl) | rfl) | rfl <;> decide

/-- What follows an item ends it. -/
theorem SpellsItems.delimits {js : List Json} {tail : List Char} (h : SpellsItems js tail)
    (rest : List Char) : Delimits (tail ++ rest) := by
  cases h with
  | nil hws =>
    rw [List.append_assoc]
    exact delimits_blanks hws (delimits_cons _ (by decide))
  | cons => exact delimits_cons _ (by decide)

/-- What follows a member ends it. -/
theorem SpellsMembers.delimits {ms : List (Option String × Json)} {tail : List Char}
    (h : SpellsMembers ms tail) (rest : List Char) : Delimits (tail ++ rest) := by
  cases h with
  | nil hws =>
    rw [List.append_assoc]
    exact delimits_blanks hws (delimits_cons _ (by decide))
  | cons => exact delimits_cons _ (by decide)

/-! ## Reading -/

theorem readWord_append (word : String) (value : Json) (rest : List Char) :
    readWord word value (word.toList ++ rest) = (value, some rest) := by
  rw [readWord, if_pos (by simp), ← String.length_toList, List.drop_left]

/-- A number at the front of a text is read by its first character. -/
theorem readValue_number (fuel : Nat) (n : Int) {rest : List Char} (hrest : Delimits rest) :
    readValue (fuel + 1) ((Int.repr n).toList ++ rest) = (ofInt n, some rest) := by
  have hscan := scanNumber_repr_append n hrest
  have hskip := skipBlanks_of_spells blanks_nil (Spells.number n) rest
  obtain ⟨c, tail, hcs, hblank, -, -⟩ := (Spells.number n).head
  have hfirst : c = '-' ∨ c.isDigit = true := by
    rw [toList_repr] at hcs
    split at hcs
    · cases hcs
      exact Or.inl rfl
    · exact Or.inr (isDigit_of_mem_decimal (n := n.natAbs)
        (by rw [hcs]; exact List.mem_cons_self ..))
  have hne (d : Char) (hd : d ≠ '-' ∧ d.isDigit = false) : c ≠ d := by
    rintro rfl
    rcases hfirst with h | h
    · exact hd.1 h
    · rw [hd.2] at h
      exact Bool.noConfusion h
  have hofInt : ofInt n = .number (String.ofList (c :: tail)) := by
    rw [ofInt, ← hcs]
    simp
  rw [List.nil_append, hcs] at hskip
  rw [hcs] at hscan
  rw [readValue, hcs, hskip, hofInt, List.cons_append]
  split
  · next heq => cases heq
  · next heq => cases heq; exact absurd rfl (hne '"' (by decide))
  · next heq => cases heq; exact absurd rfl (hne '[' (by decide))
  · next heq => cases heq; exact absurd rfl (hne '\x7b' (by decide))
  · next heq =>
    cases heq
    rw [if_neg (hne 'n' (by decide)), if_neg (hne 't' (by decide)), if_neg (hne 'f' (by decide)),
      ← List.cons_append, hscan]

mutual

/-- A value's text is read as the value, and what ends it is handed on. Two units of fuel for each
character are enough: every item costs one unit more than its value. -/
theorem readValue_of_spells {j : Json} {cs : List Char} (h : Spells j cs) (fuel : Nat)
    (hfuel : 2 * cs.length ≤ fuel) {rest : List Char} (hrest : Delimits rest) :
    readValue fuel (cs ++ rest) = (j, some rest) := by
  obtain ⟨c₀, tail₀, hcs₀, -⟩ := h.head
  obtain ⟨fuel, rfl⟩ : ∃ k, fuel = k + 1 := ⟨fuel - 1, by
    rw [hcs₀, List.length_cons] at hfuel
    omega⟩
  -- by the kind of value; items and members come with their own lemmas, with less fuel
  match h with
  | .null => exact readWord_append "null" .null rest
  | .boolTrue => exact readWord_append "true" (.bool true) rest
  | .boolFalse => exact readWord_append "false" (.bool false) rest
  | .number n => exact readValue_number fuel n hrest
  | .string s =>
    obtain ⟨tail, heq, hscan⟩ := scanString_quote s rest
    rw [readValue, skipBlanks_quote_append, heq]
    simp only [hscan, textOf_map_char]
    rfl
  | .emptyArray => rfl
  | @Spells.array ws cs tail j js hws hj hjs =>
    have hitems := readItems_of_spells hj hjs fuel (by
      simp only [List.length_cons, List.length_append] at hfuel ⊢
      omega) rest
    have hskip := skipBlanks_of_spells hws hj (tail ++ rest)
    obtain ⟨c, cs', hcs, -, hclose, -⟩ := hj.head
    have hopen : skipBlanks ('[' :: (ws ++ (cs ++ (tail ++ rest)))) =
        '[' :: (ws ++ (cs ++ (tail ++ rest))) := skipBlanks_cons (by decide) _
    simp only [List.cons_append, List.append_assoc]
    rw [readValue, hopen]
    simp only [hskip]
    split
    · next heq =>
      rw [hcs] at heq
      cases heq
      exact absurd rfl hclose
    · rw [hitems]
  | .emptyObject => rfl
  | @Spells.object ws ws' cs tail name j ms hws hws' hj hms =>
    have hmembers := readMembers_of_spells name hws' hj hms fuel (by
      simp only [List.length_cons, List.length_append] at hfuel ⊢
      omega) rest
    have hskip : skipBlanks (ws ++ (quote name ++ ':' :: (ws' ++ (cs ++ (tail ++ rest))))) =
        quote name ++ ':' :: (ws' ++ (cs ++ (tail ++ rest))) := by
      rw [skipBlanks_append hws, skipBlanks_quote_append]
    have hopen : ∀ cs, skipBlanks ('\x7b' :: cs) = '\x7b' :: cs :=
      fun cs => skipBlanks_cons (by decide) cs
    simp only [List.cons_append, List.append_assoc]
    rw [readValue, hopen]
    simp only [hskip]
    split
    · next heq =>
      simp [quote] at heq
    · rw [hmembers]
termination_by fuel

/-- An item and those after it are read up to the closing bracket. -/
theorem readItems_of_spells {j : Json} {js : List Json} {cs tail : List Char} (hj : Spells j cs)
    (hjs : SpellsItems js tail) (fuel : Nat) (hfuel : 2 * (cs.length + tail.length) ≤ fuel)
    (rest : List Char) : readItems fuel (cs ++ (tail ++ rest)) = (j :: js, some rest) := by
  obtain ⟨c₀, tail₀, hcs₀, -⟩ := hj.head
  obtain ⟨fuel, rfl⟩ : ∃ k, fuel = k + 1 := ⟨fuel - 1, by
    rw [hcs₀, List.length_cons] at hfuel
    omega⟩
  have hvalue := readValue_of_spells hj fuel (by
    match hjs with
    | .nil _ | .cons .. =>
      simp only [List.length_cons, List.length_append] at hfuel
      omega) (hjs.delimits rest)
  rw [readItems, hvalue]
  match hjs with
  | .nil hws =>
    simp only [List.append_assoc, skipBlanks_append hws, List.cons_append, List.nil_append]
    rw [skipBlanks_cons (by decide)]
    rfl
  | @SpellsItems.cons ws cs' tail' _ _ hws hj' hjs' =>
    have hmore := readItems_of_spells hj' hjs' fuel (by
      simp only [List.length_cons, List.length_append] at hfuel ⊢
      omega) rest
    simp only [List.cons_append, List.append_assoc]
    rw [skipBlanks_cons (by decide)]
    simp only [readItems_blanks hws, hmore]
termination_by fuel

/-- A member and those after it are read up to the closing brace. -/
theorem readMembers_of_spells (name : String) {j : Json} {ms : List (Option String × Json)}
    {ws cs tail : List Char} (hws : Blanks ws) (hj : Spells j cs) (hms : SpellsMembers ms tail)
    (fuel : Nat) (hfuel : 2 * (cs.length + tail.length) ≤ fuel) (rest : List Char) :
    readMembers fuel (quote name ++ ':' :: (ws ++ (cs ++ (tail ++ rest)))) =
      ((some name, j) :: ms, some rest) := by
  obtain ⟨c₀, tail₀, hcs₀, -⟩ := hj.head
  obtain ⟨fuel, rfl⟩ : ∃ k, fuel = k + 1 := ⟨fuel - 1, by
    rw [hcs₀, List.length_cons] at hfuel
    omega⟩
  have hvalue := readValue_of_spells hj fuel (by
    match hms with
    | .nil _ | .cons .. =>
      simp only [List.length_cons, List.length_append] at hfuel
      omega) (hms.delimits rest)
  obtain ⟨cs₁, heq, hscan⟩ :=
    scanString_quote name (':' :: (ws ++ (cs ++ (tail ++ rest))))
  have hcolon : ∀ cs, skipBlanks (':' :: cs) = ':' :: cs :=
    fun cs => skipBlanks_cons (by decide) cs
  rw [readMembers, skipBlanks_quote_append, heq]
  simp only [hscan, textOf_map_char, hcolon, readValue_blanks hws, hvalue]
  match hms with
  | .nil hws =>
    simp only [List.append_assoc, skipBlanks_append hws, List.cons_append, List.nil_append]
    rw [skipBlanks_cons (by decide)]
    rfl
  | @SpellsMembers.cons ws₁ ws₂ cs' tail' name' _ _ hws₁ hws₂ hj' hms' =>
    have hmore := readMembers_of_spells name' hws₂ hj' hms' fuel (by
      simp only [List.length_cons, List.length_append] at hfuel ⊢
      omega) rest
    simp only [List.cons_append, List.append_assoc]
    rw [skipBlanks_cons (by decide)]
    simp only [readMembers_blanks hws₁, hmore]
termination_by fuel

end

/-- A text of a value, with blanks behind it, holds the value and nothing else. -/
theorem read_of_spells {j : Json} {cs ws : List Char} (h : Spells j cs) (hws : Blanks ws) :
    read (String.ofList (cs ++ ws)) = (j, some []) := by
  have hdelimits : Delimits ws := by
    have := delimits_blanks hws delimits_nil
    rwa [List.append_nil] at this
  have hskip : skipBlanks ws = [] := by
    have := skipBlanks_append hws []
    rw [List.append_nil] at this
    rw [this]
    rfl
  rw [read, String.toList_ofList]
  simp only [readValue_of_spells h (2 * (cs ++ ws).length + 2)
    (by rw [List.length_append]; omega) hdelimits, Option.map_some, hskip]

/-! ## The indented layout -/

theorem blanks_newLine (level : Nat) : Blanks (newLine level) := by
  intro c hc
  rcases List.mem_cons.mp hc with rfl | hc
  · decide
  · rw [(List.mem_replicate.mp hc).2]
    decide

/-- The indented layout of a value is a text of it, at every level. -/
def Printed (j : Json) : Prop := ∀ level, Spells j (prettyChars level j)

theorem printed_ofInt (n : Int) : Printed (ofInt n) := fun _ => Spells.number n

theorem printed_ofNat (n : Nat) : Printed (ofNat n) := printed_ofInt n

theorem printed_ofString (s : String) : Printed (ofString s) := fun _ => Spells.string s

private theorem spells_prettyItems {js : List Json} (h : ∀ j ∈ js, Printed j) (level : Nat) :
    SpellsItems js (prettyItems level js) := by
  induction js with
  | nil => exact SpellsItems.nil (blanks_newLine level)
  | cons j js ih =>
    have hj := h j (List.mem_cons_self ..) (level + 1)
    have hjs := ih fun j' h' => h j' (List.mem_cons_of_mem _ h')
    rw [prettyItems]
    simpa using SpellsItems.cons (blanks_newLine (level + 1)) hj hjs

/-- An array of printed items is printed. -/
theorem printed_array {js : List Json} (h : ∀ j ∈ js, Printed j) : Printed (.array js) := by
  intro level
  cases js with
  | nil => exact Spells.emptyArray
  | cons j js =>
    have hj := h j (List.mem_cons_self ..) (level + 1)
    have hjs := spells_prettyItems (fun j' h' => h j' (List.mem_cons_of_mem _ h')) level
    rw [prettyChars]
    simpa using Spells.array (blanks_newLine (level + 1)) hj hjs

private theorem blanks_single : Blanks [' '] := by
  intro c hc
  rw [List.mem_singleton.mp hc]
  decide

private theorem spells_prettyMembers {ms : List (String × Json)} (h : ∀ m ∈ ms, Printed m.2)
    (level : Nat) :
    SpellsMembers (ms.map fun (name, value) => (some name, value))
      (prettyMembers level (ms.map fun (name, value) => (some name, value))) := by
  induction ms with
  | nil => exact SpellsMembers.nil (blanks_newLine level)
  | cons m ms ih =>
    have hm := h m (List.mem_cons_self ..) (level + 1)
    have hms := ih fun m' h' => h m' (List.mem_cons_of_mem _ h')
    rw [List.map_cons, prettyMembers]
    simpa using SpellsMembers.cons (blanks_newLine (level + 1)) blanks_single hm hms

/-- A record of printed values is printed. -/
theorem printed_record {ms : List (String × Json)} (h : ∀ m ∈ ms, Printed m.2) :
    Printed (record ms) := by
  intro level
  cases ms with
  | nil => exact Spells.emptyObject
  | cons m ms =>
    have hm := h m (List.mem_cons_self ..) (level + 1)
    have hms := spells_prettyMembers (fun m' h' => h m' (List.mem_cons_of_mem _ h')) level
    rw [record, List.map_cons, prettyChars]
    simpa using Spells.object (blanks_newLine (level + 1)) blanks_single hm hms

/-- Reading the indented layout of a printed value, with a line break behind it. -/
theorem read_pretty {j : Json} (h : Printed j) : read (j.pretty ++ "\n") = (j, some []) := by
  have hbreak : Blanks ['\n'] := by
    intro c hc
    rw [List.mem_singleton.mp hc]
    decide
  have htext : j.pretty ++ "\n" = String.ofList (j.prettyChars 0 ++ ['\n']) := by
    rw [pretty, String.ofList_append]
  rw [htext]
  exact read_of_spells (h 0) hbreak

/-! ## The layout without blanks -/

mutual

/-- A value that has a text has its compact layout as a text. -/
theorem Spells.compact {j : Json} {cs : List Char} (h : Spells j cs) :
    Spells j (compactChars j) := by
  -- on the value; what was between its parts in the other text is dropped
  match h with
  | .null => exact .null
  | .boolTrue => exact .boolTrue
  | .boolFalse => exact .boolFalse
  | .number n => exact .number n
  | .string s => exact .string s
  | .emptyArray => exact .emptyArray
  | .array _ hj hjs =>
    rw [compactChars]
    exact .array blanks_nil hj.compact hjs.compact
  | .emptyObject => exact .emptyObject
  | @Spells.object _ _ _ _ name j ms _ _ hj hms =>
    have hobject : Spells (.object ((some name, j) :: ms)) _ :=
      .object blanks_nil blanks_nil hj.compact hms.compact
    rw [compactChars]
    simpa using hobject

/-- Further items have their compact layout as a text. -/
theorem SpellsItems.compact {js : List Json} {cs : List Char} (h : SpellsItems js cs) :
    SpellsItems js (compactItems js) := by
  match h with
  | .nil _ => exact .nil blanks_nil
  | .cons _ hj hjs =>
    rw [compactItems]
    exact .cons blanks_nil hj.compact hjs.compact

/-- Further members have their compact layout as a text. -/
theorem SpellsMembers.compact {ms : List (Option String × Json)} {cs : List Char}
    (h : SpellsMembers ms cs) : SpellsMembers ms (compactMembers ms) := by
  match h with
  | .nil _ => exact .nil blanks_nil
  | @SpellsMembers.cons _ _ _ _ name j ms _ _ hj hms =>
    have hmembers : SpellsMembers ((some name, j) :: ms) _ :=
      .cons blanks_nil blanks_nil hj.compact hms.compact
    rw [compactMembers]
    simpa using hmembers

end

/-- Reading the compact layout of a value that has a text. -/
theorem read_compact {j : Json} {cs : List Char} (h : Spells j cs) :
    read j.compact = (j, some []) := by
  have hread := read_of_spells h.compact blanks_nil
  rw [List.append_nil] at hread
  exact hread

end ReplayVector.Json
