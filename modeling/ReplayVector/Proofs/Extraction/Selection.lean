import ReplayVector.Extraction.Precursors

/-!
# Which messages are selected

The wanted message is the first one of a list that has its identifier or its content. What is
selected before it are the messages that the choice keeps, in their order, and nothing that comes
later in the list plays a part.

* `Selection.select_cons_of_wanted`, `Selection.select_cons_of_not_wanted`: one message.
* `Selection.select_append`: messages before the wanted one.
* `Selection.precursors_select_cons`: what is selected before it.
* `Selection.select_exact`: what is selected of any list.
-/

namespace ReplayVector

/-- The messages that a choice keeps: all of them, or those of the target's sender. -/
def PrecursorChoice.kept (choice : PrecursorChoice) (target : Message) (ns : List NamedMessage) :
    List NamedMessage :=
  ns.filter fun n => choice = .all ∨ n.message.sender = target.sender

namespace Selection

variable {choice : PrecursorChoice} {c : Cid} {target : Message} {n : NamedMessage}
  {ns pre post : List NamedMessage}

/-- The message has the identifier of the wanted one, or its content. -/
def Wanted (c : Cid) (target : Message) (n : NamedMessage) : Prop := n.cid = c ∨ n.message = target

/-- The message stands at the index, and none before it is wanted. -/
structure FirstWanted (c : Cid) (target : Message) (ns : List NamedMessage) (k : Nat)
    (n : NamedMessage) : Prop where
  getElem : ns[k]? = some n
  wanted : Wanted c target n
  least : ∀ j < k, ∀ n', ns[j]? = some n' → ¬Wanted c target n'

theorem isTarget_iff : isTarget c target n = true ↔ Wanted c target n := by
  simp [isTarget, Wanted]

theorem includes_iff (choice : PrecursorChoice) (target : Message) (n : NamedMessage) :
    choice.includes target n = decide (choice = .all ∨ n.message.sender = target.sender) := by
  cases choice with
  | all => simp [PrecursorChoice.includes]
  | sender => exact Bool.eq_iff_iff.mpr (by simp [PrecursorChoice.includes])

/-- The wanted message is the last one that is selected. -/
@[simp] theorem precursors_of_found (ns : List NamedMessage) (n : NamedMessage) :
    (⟨ns ++ [n], true⟩ : Selection).precursors = ns := List.dropLast_concat

@[simp] theorem target_of_found (ns : List NamedMessage) (n : NamedMessage) :
    (⟨ns ++ [n], true⟩ : Selection).target = some n := List.getLast?_concat

/-- The wanted message ends the search, whether or not the choice would keep it. -/
theorem select_cons_of_wanted (h : Wanted c target n) (ns : List NamedMessage) :
    select choice c target (n :: ns) = ⟨[n], true⟩ := by
  rw [select, if_pos (isTarget_iff.mpr h)]

/-- Another message is kept or passed over, and the search goes on. -/
theorem select_cons_of_not_wanted (h : ¬Wanted c target n) (ns : List NamedMessage) :
    select choice c target (n :: ns) =
      ⟨if choice.includes target n then n :: (select choice c target ns).related
        else (select choice c target ns).related, (select choice c target ns).found⟩ := by
  rw [select, if_neg fun htarget => h (isTarget_iff.mp htarget)]
  split <;> rfl

/-- A message that is found is selected. -/
theorem related_ne_nil (h : (select choice c target ns).found = true) :
    (select choice c target ns).related ≠ [] := by
  induction ns with
  | nil => cases h
  | cons n ns ih =>
    by_cases hn : Wanted c target n
    · rw [select_cons_of_wanted hn]
      exact List.cons_ne_nil n []
    · rw [select_cons_of_not_wanted hn] at h ⊢
      dsimp only at h ⊢
      split
      · exact List.cons_ne_nil _ _
      · exact ih h

/-- So is what comes before the wanted message. -/
theorem precursors_select_cons (h : ¬Wanted c target n) (ns : List NamedMessage) :
    (select choice c target (n :: ns)).precursors =
      if choice.includes target n then n :: (select choice c target ns).precursors
      else (select choice c target ns).precursors := by
  rw [select_cons_of_not_wanted h]
  split
  · unfold precursors
    split
    · next hfound => exact List.dropLast_cons_of_ne_nil (related_ne_nil hfound)
    · rfl
  · rfl

/-- Messages that are not wanted are kept or passed over, one after the other. -/
theorem select_append (h : ∀ n ∈ pre, ¬Wanted c target n) (ns : List NamedMessage) :
    select choice c target (pre ++ ns) =
      ⟨choice.kept target pre ++ (select choice c target ns).related,
        (select choice c target ns).found⟩ := by
  induction pre with
  | nil => rfl
  | cons n pre ih =>
    have hn : ¬Wanted c target n := h n (List.mem_cons_self ..)
    have hrest := ih fun n' hn' => h n' (List.mem_cons_of_mem _ hn')
    rw [List.cons_append, select_cons_of_not_wanted hn, hrest, includes_iff,
      PrecursorChoice.kept, PrecursorChoice.kept, List.filter_cons]
    split <;> rfl

/-- A message of a list is the first wanted one, or none of them is wanted. -/
theorem firstWanted_or_none (c : Cid) (target : Message) (ns : List NamedMessage) :
    (∃ k n, FirstWanted c target ns k n) ∨ ∀ n ∈ ns, ¬Wanted c target n := by
  cases hfind : ns.findIdx? (isTarget c target) with
  | none =>
    refine Or.inr fun n hn hwanted => ?_
    have hnot := List.findIdx?_eq_none_iff.mp hfind n hn
    rw [isTarget_iff.mpr hwanted] at hnot
    cases hnot
  | some k =>
    obtain ⟨hk, hwanted, hleast⟩ := List.findIdx?_eq_some_iff_getElem.mp hfind
    refine Or.inl ⟨k, ns[k], List.getElem?_eq_getElem hk, isTarget_iff.mp hwanted, ?_⟩
    intro j hj n' hn' hwanted'
    obtain ⟨hlt, rfl⟩ := List.getElem?_eq_some_iff.mp hn'
    exact hleast j hj (isTarget_iff.mpr hwanted')

/-- A list is what comes before its first wanted message, that message, and the rest. -/
theorem FirstWanted.split {k : Nat} (h : FirstWanted c target ns k n) :
    (∃ post, ns = ns.take k ++ n :: post) ∧ ∀ n' ∈ ns.take k, ¬Wanted c target n' := by
  obtain ⟨hk, rfl⟩ := List.getElem?_eq_some_iff.mp h.getElem
  refine ⟨⟨ns.drop (k + 1), ?_⟩, fun n' hn' => ?_⟩
  · rw [List.getElem_cons_drop, List.take_append_drop]
  · obtain ⟨j, hj, rfl⟩ := List.mem_take_iff_getElem.mp hn'
    exact h.least j (by omega) _ (List.getElem?_eq_getElem (by omega))

/-- Selection is exact. If there is a first wanted message, it is found, whichever way it matches,
and before it is selected just what the choice keeps of the messages before it; with the wanted one
at the end this is all that is related, even if the choice would not keep that one. If there is
none, nothing is found, and just what the choice keeps of the whole list is related. -/
theorem select_exact (choice : PrecursorChoice) (c : Cid) (target : Message)
    (ns : List NamedMessage) :
    (∃ k n, FirstWanted c target ns k n ∧
      (select choice c target ns).found = true ∧
      (select choice c target ns).target = some n ∧
      (select choice c target ns).precursors = choice.kept target (ns.take k) ∧
      (select choice c target ns).related = choice.kept target (ns.take k) ++ [n]) ∨
    (∀ n ∈ ns, ¬Wanted c target n) ∧
      (select choice c target ns).found = false ∧
      (select choice c target ns).target = none ∧
      (select choice c target ns).precursors = choice.kept target ns ∧
      (select choice c target ns).related = choice.kept target ns := by
  rcases firstWanted_or_none c target ns with ⟨k, n, hfirst⟩ | hnone
  · obtain ⟨⟨post, hsplit⟩, hbefore⟩ := hfirst.split
    have hselect : select choice c target ns =
        ⟨choice.kept target (ns.take k) ++ [n], true⟩ := by
      conv => lhs; rw [hsplit]
      rw [select_append hbefore, select_cons_of_wanted hfirst.wanted]
    rw [hselect]
    exact Or.inl ⟨k, n, hfirst, rfl, target_of_found _ n, precursors_of_found _ n, rfl⟩
  · have hselect : select choice c target ns = ⟨choice.kept target ns, false⟩ := by
      have happend := @select_append choice _ _ _ hnone []
      rwa [List.append_nil, select, List.append_nil] at happend
    rw [hselect]
    exact Or.inr ⟨hnone, rfl, rfl, rfl, rfl⟩

end Selection

end ReplayVector
