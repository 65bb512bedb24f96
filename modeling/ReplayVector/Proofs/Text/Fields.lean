import ReplayVector.Text.Fields

/-!
# Fields are cut where they were joined

The separator stands in no field, so a text is cut exactly between the fields that were joined.

* `fields_join`, `fields_flatMap`: cutting a text into the fields it was made of.
* `cut?_append`, `cut?_eq_none_iff`: the first separator of a text.
-/

namespace ReplayVector.Text

variable {separator : Char}

theorem fields_append {field : List Char} (h : separator ∉ field) (cs : List Char) :
    fields separator (field ++ separator :: cs) = field :: fields separator cs := by
  induction field with
  | nil => rw [List.nil_append, fields, if_pos rfl]
  | cons c field ih =>
    have hc : c ≠ separator := (List.ne_of_not_mem_cons h).symm
    rw [List.cons_append, fields, if_neg hc, ih (List.not_mem_of_not_mem_cons h)]

/-- A text without separators is one field. -/
theorem fields_of_notMem {field : List Char} (h : separator ∉ field) :
    fields separator field = [field] := by
  induction field with
  | nil => rfl
  | cons c field ih =>
    have hc : c ≠ separator := (List.ne_of_not_mem_cons h).symm
    rw [fields, if_neg hc, ih (List.not_mem_of_not_mem_cons h)]

/-- Joined fields are cut apart again. -/
theorem fields_join {fs : List (List Char)} (hne : fs ≠ []) (h : ∀ f ∈ fs, separator ∉ f) :
    fields separator (join separator fs) = fs := by
  induction fs with
  | nil => exact absurd rfl hne
  | cons f fs ih =>
    obtain ⟨hf, hfs⟩ := List.forall_mem_cons.mp h
    by_cases hlast : fs = []
    · rw [hlast]
      exact fields_of_notMem hf
    · rw [join_cons hlast, fields_append hf, ih hlast hfs]

/-- A joined text has no characters but those of the fields and separators. -/
theorem mem_of_mem_join {fs : List (List Char)} {c : Char} (h : c ∈ join separator fs) :
    (∃ f ∈ fs, c ∈ f) ∨ c = separator := by
  induction fs with
  | nil => exact absurd h List.not_mem_nil
  | cons f fs ih =>
    by_cases hlast : fs = []
    · rw [hlast] at h
      exact .inl ⟨f, List.mem_cons_self .., h⟩
    · rw [join_cons hlast, List.mem_append, List.mem_cons] at h
      rcases h with hf | hc | hrest
      · exact .inl ⟨f, List.mem_cons_self .., hf⟩
      · exact .inr hc
      · exact (ih hrest).imp_left fun ⟨g, hg, hc⟩ => ⟨g, List.mem_cons_of_mem _ hg, hc⟩

/-- Fields with a separator before each are cut apart again, after an empty one. -/
theorem fields_flatMap {fs : List (List Char)} (h : ∀ f ∈ fs, separator ∉ f) :
    fields separator (fs.flatMap (separator :: ·)) = [] :: fs := by
  suffices hcut : ∀ f, separator ∉ f →
      fields separator (f ++ fs.flatMap (separator :: ·)) = f :: fs from
    hcut [] List.not_mem_nil
  induction fs with
  | nil =>
    intro f hf
    rw [List.flatMap_nil, List.append_nil, fields_of_notMem hf]
  | cons g fs ih =>
    intro f hf
    obtain ⟨hg, hfs⟩ := List.forall_mem_cons.mp h
    rw [List.flatMap_cons, List.cons_append, fields_append hf, ih hfs g hg]

/-- No field has a separator in it. -/
theorem notMem_of_mem_fields {cs field : List Char} (h : field ∈ fields separator cs) :
    separator ∉ field := by
  induction cs generalizing field with
  | nil =>
    rw [List.mem_singleton.mp h]
    exact List.not_mem_nil
  | cons c cs ih =>
    rw [fields] at h
    split at h
    · rcases List.mem_cons.mp h with rfl | h
      · exact List.not_mem_nil
      · exact ih h
    · next hc =>
      split at h
      · next heq => exact absurd heq (fields_ne_nil separator cs)
      · next first rest heq =>
        rw [heq] at ih
        rcases List.mem_cons.mp h with rfl | h
        · exact List.not_mem_cons_of_ne_of_not_mem (Ne.symm hc) (ih (List.mem_cons_self ..))
        · exact ih (List.mem_cons_of_mem _ h)

theorem cut?_append {front : List Char} (h : separator ∉ front) (rest : List Char) :
    cut? separator (front ++ separator :: rest) = some (front, rest) := by
  induction front with
  | nil => rw [List.nil_append, cut?, if_pos rfl]
  | cons c front ih =>
    have hc : c ≠ separator := (List.ne_of_not_mem_cons h).symm
    rw [List.cons_append, cut?, if_neg hc, ih (List.not_mem_of_not_mem_cons h), Option.map_some]

theorem cut?_eq_none_iff {cs : List Char} : cut? separator cs = none ↔ separator ∉ cs := by
  induction cs with
  | nil => simp [cut?]
  | cons c cs ih =>
    rw [cut?]
    split
    · next h => simp [h]
    · next h => rw [Option.map_eq_none_iff, ih, List.mem_cons, not_or, eq_comm, and_iff_right h]

end ReplayVector.Text
