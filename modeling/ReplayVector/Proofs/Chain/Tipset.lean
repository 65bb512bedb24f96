import ReplayVector.Proofs.Chain.Forms

/-!
# Which parts make a tipset

A tipset is read from a key, headers and a height. These are checked one after the other: that
there are headers, that they are as many as the key lists, that they agree, and that the height is
theirs. What passes is kept as it is.

* `Tipset.ofParts_eq_ok_iff`: the parts that are accepted, and what comes of them.
* `Tipset.firstWrong_of_ofParts`: the others, by the first check they fail.
* `Tipset.read_consistent`: the same for what stands in a document.
-/

namespace ReplayVector.Tipset

open Json

variable {key : TipsetKey} {headers : List BlockHeader} {height : Epoch}

/-- The parts belong together: there are headers, as many as the key lists, all at the given height
and with the same parents in the same order. -/
structure Consistent (key : TipsetKey) (headers : List BlockHeader) (height : Epoch) : Prop where
  nonempty : headers ≠ []
  count : headers.length = key.cids.length
  agree : ∀ h ∈ headers, ∀ h' ∈ headers, h.height = h'.height ∧ h.parents = h'.parents
  height : ∀ h ∈ headers, h.height = height

/-- What is said about parts that do not belong together: the first thing that is wrong with them,
everything before it being right. -/
inductive FirstWrong (key : TipsetKey) (headers : List BlockHeader) (height : Epoch) :
    String → Prop where
  | noBlocks (h : headers = []) : FirstWrong key headers height s!"tipset {key} has no blocks"
  | count (hnonempty : headers ≠ []) (h : headers.length ≠ key.cids.length) :
    FirstWrong key headers height
      s!"tipset {key} lists {key.cids.length} blocks but carries {headers.length} headers"
  | agree (hnonempty : headers ≠ []) (hcount : headers.length = key.cids.length)
      (h : ∃ h ∈ headers, ∃ h' ∈ headers, h.height ≠ h'.height ∨ h.parents ≠ h'.parents) :
    FirstWrong key headers height s!"blocks of tipset {key} disagree on height or parents"
  | height (hnonempty : headers ≠ []) (hcount : headers.length = key.cids.length)
      (hagree : ∀ h ∈ headers, ∀ h' ∈ headers, h.height = h'.height ∧ h.parents = h'.parents)
      {actual : Epoch} (hactual : ∀ h ∈ headers, h.height = actual) (h : actual ≠ height) :
    FirstWrong key headers height
      s!"tipset {key} claims height {height.toInt} but its blocks are at {actual.toInt}"

/-- Headers agree with each other if they agree with the first. -/
theorem agree_cons_iff {first : BlockHeader} {rest : List BlockHeader} :
    (∀ h ∈ first :: rest, ∀ h' ∈ first :: rest, h.height = h'.height ∧ h.parents = h'.parents) ↔
      ∀ h ∈ rest, h.height = first.height ∧ h.parents = first.parents := by
  constructor
  · intro hall h hh
    exact hall h (List.mem_cons_of_mem _ hh) first (List.mem_cons_self ..)
  · intro hrest
    have hfirst : ∀ h ∈ first :: rest, h.height = first.height ∧ h.parents = first.parents :=
      List.forall_mem_cons.mpr ⟨⟨rfl, rfl⟩, hrest⟩
    intro h hh h' hh'
    obtain ⟨hheight, hparents⟩ := hfirst h hh
    obtain ⟨hheight', hparents'⟩ := hfirst h' hh'
    exact ⟨hheight.trans hheight'.symm, hparents.trans hparents'.symm⟩

/-- The headers of a tipset are as many as its key lists, and say what the tipset says. -/
theorem headers_agree (t : Tipset) : t.headers.length = t.key.cids.length ∧
    ∀ h ∈ t.headers, h.height = t.height ∧ h.parents = t.parents := by
  refine ⟨congrArg (· + 1) t.length_eq, ?_⟩
  exact List.forall_mem_cons.mpr ⟨⟨rfl, rfl⟩, t.agree⟩

/-- A tipset's own parts belong together. -/
theorem consistent (t : Tipset) : Consistent t.key t.headers t.height where
  nonempty := List.cons_ne_nil _ _
  count := t.headers_agree.1
  agree := agree_cons_iff.mpr t.agree
  height h hh := (t.headers_agree.2 h hh).1

/-- The checks, in the order in which they are made. -/
private theorem ofParts_cons (first : BlockHeader) (rest : List BlockHeader) :
    ofParts key (first :: rest) height =
      if hcount : rest.length = key.rest.length then
        if hagree : ∀ h ∈ rest, h.height = first.height ∧ h.parents = first.parents then
          if first.height = height then .ok ⟨key, first, rest, hcount, hagree⟩
          else .error (.height key.toString height.toInt first.height.toInt)
        else .error (.disagreement key.toString)
      else .error (.count key.toString (key.rest.length + 1) (rest.length + 1)) := by
  show (ofHeaders key first rest).bind _ = _
  unfold ofHeaders
  split
  · split <;> rfl
  · rfl

/-- Parts that are accepted are those of the tipset. -/
theorem parts_of_ofParts {t : Tipset} (h : ofParts key headers height = .ok t) :
    t.key = key ∧ t.headers = headers ∧ t.height = height := by
  cases headers with
  | nil => cases h
  | cons first rest =>
    rw [ofParts_cons] at h
    split at h
    · split at h
      · split at h
        · next hheight =>
          cases h
          exact ⟨rfl, rfl, hheight⟩
        · cases h
      · cases h
    · cases h

/-- The parts that are accepted are those that belong together. -/
theorem ofParts_eq_ok_iff :
    (∃ t, ofParts key headers height = .ok t) ↔ Consistent key headers height := by
  constructor
  · rintro ⟨t, h⟩
    obtain ⟨rfl, rfl, rfl⟩ := parts_of_ofParts h
    exact t.consistent
  · rintro ⟨hnonempty, hcount, hagree, hheight⟩
    obtain ⟨first, rest, rfl⟩ := List.exists_cons_of_ne_nil hnonempty
    have hlength : rest.length = key.rest.length := Nat.succ.inj hcount
    let t : Tipset := ⟨key, first, rest, hlength, agree_cons_iff.mp hagree⟩
    have hfirst : t.height = height := hheight first (List.mem_cons_self ..)
    exact ⟨t, hfirst ▸ ofParts_self t⟩

/-- What is said about parts that are not accepted is the first thing that is wrong. -/
theorem firstWrong_of_ofParts {defect : TipsetDefect}
    (h : ofParts key headers height = .error defect) :
    FirstWrong key headers height defect.message := by
  cases headers with
  | nil =>
    cases h
    exact .noBlocks rfl
  | cons first rest =>
    have hnonempty : first :: rest ≠ [] := List.cons_ne_nil _ _
    rw [ofParts_cons] at h
    split at h
    · next hlength =>
      have hcount : (first :: rest).length = key.cids.length := congrArg (· + 1) hlength
      split at h
      · next hrest =>
        split at h
        · cases h
        · next hheight =>
          cases h
          have hactual : ∀ h ∈ first :: rest, h.height = first.height :=
            List.forall_mem_cons.mpr ⟨rfl, fun h hh => (hrest h hh).1⟩
          exact .height hnonempty hcount (agree_cons_iff.mpr hrest) hactual hheight
      · next hrest =>
        cases h
        -- one of the other headers differs from the first
        simp only [not_forall] at hrest
        obtain ⟨h, hh, hne⟩ := hrest
        exact .agree hnonempty hcount
          ⟨h, List.mem_cons_of_mem _ hh, first, List.mem_cons_self .., not_and_or.mp hne⟩
    · next hlength =>
      cases h
      exact .count hnonempty fun heq => hlength (Nat.succ.inj heq)

-- ---------------------------------------------------------------------------
-- Tipsets in a document
-- ---------------------------------------------------------------------------

/-- Three parts as they are written, whether they belong together or not. -/
def partsJson (key : TipsetKey) (headers : List BlockHeader) (height : Epoch) : Json := record [
  ("Cids", TipsetKey.form.toJson key),
  ("Blocks", BlockHeader.form.list.toJson headers),
  ("Height", Form.int64.toJson height)]

/-- The parts are read back one by one. -/
theorem read_partsJson (key : TipsetKey) (headers : List BlockHeader) (height : Epoch) :
    fields.read nesting (partsJson key headers height) =
      .ok (some key, some headers, some height, ()) := by
  have hkey : TipsetKey.form.Faithful 4 := TipsetKey.form_faithful.mono (by omega)
  have hwritten : fields.Written 4 _ (some key, some headers, some height, ()) :=
    .member hkey key <| .member BlockHeader.form_faithful.list headers <|
      .flat Form.int64_faithful height .nil
  exact Fields.read_record (by decide) (by decide) (hwritten.given (by decide))

/-- Three parts that have been read make a tipset exactly if they belong together. If they do not,
the first thing that is wrong with them is said; if they do, the tipset has them as its own and is
written as them. So the headers of a tipset are as many as its key lists, and every one of them
has its height and its parents. -/
theorem read_consistent :
    (∀ depth j key headers height,
      fields.read depth j = .ok (some key, some headers, some height, ()) →
      ((∃ t, form.decoder depth j = .ok t) ↔ Consistent key headers height) ∧
      (∀ r, form.decoder depth j = .error r →
        ∃ text, r.message? = some text ∧ FirstWrong key headers height text) ∧
      ∀ t, form.decoder depth j = .ok t →
        (t.key = key ∧ t.headers = headers ∧ t.height = height) ∧
        form.toJson t = partsJson key headers height) ∧
    ∀ t : Tipset, t.headers.length = t.key.cids.length ∧
      ∀ h ∈ t.headers, h.height = t.height ∧ h.parents = t.parents := by
  refine ⟨fun depth j key headers height hread => ?_, headers_agree⟩
  have hdecoder : form.decoder depth j =
      (ofParts key headers height).mapError Refusal.badTipset := by
    show (fields.read depth j).bind _ = _
    rw [hread]
    simp only [Except.bind, bind, required]
    cases ofParts key headers height <;> rfl
  rw [hdecoder, ← ofParts_eq_ok_iff]
  cases hparts : ofParts key headers height with
  | ok t =>
    refine ⟨iff_of_true ⟨t, rfl⟩ ⟨t, rfl⟩, fun r h => ?_, fun t' h => ?_⟩ <;> cases h
    obtain ⟨rfl, rfl, rfl⟩ := parts_of_ofParts hparts
    exact ⟨⟨rfl, rfl, rfl⟩, rfl⟩
  | error defect =>
    have hnone {ε : Type} (e : ε) : ¬∃ t : Tipset, Except.error e = .ok t := by
      rintro ⟨t, h⟩
      cases h
    refine ⟨iff_of_false (hnone _) (hnone _), fun r h => ?_, fun t h => absurd ⟨t, h⟩ (hnone _)⟩
    cases h
    exact ⟨defect.message, rfl, firstWrong_of_ofParts hparts⟩

/-- Two headers at different heights, with a key for both. -/
def unequalHeights : Json :=
  partsJson ⟨default, [default]⟩ [.sample [] 5 1, .sample [] 6 1] 5

theorem read_consistent_unequalHeights :
    fields.read nesting unequalHeights =
      .ok (some ⟨default, [default]⟩, some [.sample [] 5 1, .sample [] 6 1], some 5, ()) ∧
    ¬∃ t, form.decoder nesting unequalHeights = .ok t := by
  have hread := read_partsJson ⟨default, [default]⟩ [.sample [] 5 1, .sample [] 6 1] 5
  refine ⟨hread, fun h => ?_⟩
  have hconsistent := (read_consistent.1 _ _ _ _ _ hread).1.mp h
  exact absurd (hconsistent.height (.sample [] 6 1) (by simp)) (by decide)

end ReplayVector.Tipset
