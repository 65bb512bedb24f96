import ReplayVector.Proofs.Files.Tree

/-!
# Writing documents on a failing disk

A document is written as a whole or not at all, whichever step fails and however far it gets. What
a failure leaves behind are directories: some of those that the path of the document's directory
leads through.

* `FileTree.Yields`: what a computation on a tree does, with one rule for each step of writing.
* `FileTree.yields_fill`: a temporary file stays a file beside the tree until it is in its place.
* `FileTree.yields_writeAtomically`: what writing does.
-/

namespace ReplayVector.FileTree

variable {m : Type → Type} [Monad m] {α β : Type} {t t' : FileTree} {l : List String}
  {contents : Bytes}

/-- From the tree, the computation does nothing but change the tree, and `Q` holds of its result
and the new tree. -/
def Yields (t : FileTree) (c : StateT FileTree m α) (Q : α → FileTree → Prop) : Prop :=
  ∃ a t', c.run t = pure (a, t') ∧ Q a t'

-- ---------------------------------------------------------------------------
-- Rules
-- ---------------------------------------------------------------------------

theorem yields_pure {a : α} {Q : α → FileTree → Prop} (h : Q a t) :
    t.Yields (pure a : StateT FileTree m α) Q :=
  ⟨a, t, StateT.run_pure a t, h⟩

theorem yields_modifyGet {f : FileTree → α × FileTree} {Q : α → FileTree → Prop}
    (h : Q (f t).1 (f t).2) : t.Yields (modifyGet f : StateT FileTree m α) Q :=
  ⟨(f t).1, (f t).2, rfl, h⟩

theorem yields_get : t.Yields (get : StateT FileTree m FileTree) fun a t' => a = t ∧ t' = t :=
  ⟨t, t, rfl, rfl, rfl⟩

/-- A change that cannot be made leaves the tree alone. -/
theorem yields_change (f : FileTree → Option FileTree) :
    t.Yields (change f : StateT FileTree m Bool)
      fun done t' => done = (f t).isSome ∧ t' = (f t).getD t := by
  refine yields_modifyGet ?_
  cases f t <;> exact ⟨rfl, rfl⟩

/-- One step on the disk after the other. -/
theorem Yields.bind [LawfulMonad m] {c : StateT FileTree m α} {f : α → StateT FileTree m β}
    {Q : α → FileTree → Prop} {R : β → FileTree → Prop} (h : t.Yields c Q)
    (hf : ∀ a t', Q a t' → t'.Yields (f a) R) : t.Yields (c >>= f) R := by
  obtain ⟨a, t', hrun, ha⟩ := h
  obtain ⟨b, t'', hrun', hb⟩ := hf a t' ha
  exact ⟨b, t'', by rw [StateT.run_bind, hrun, pure_bind, hrun'], hb⟩

/-- Less may be said of what a step yields. -/
theorem Yields.mono {c : StateT FileTree m α} {Q R : α → FileTree → Prop} (h : t.Yields c Q)
    (himp : ∀ a t', Q a t' → R a t') : t.Yields c R := by
  obtain ⟨a, t', hrun, ha⟩ := h
  exact ⟨a, t', hrun, himp a t' ha⟩

-- ---------------------------------------------------------------------------
-- The steps
-- ---------------------------------------------------------------------------

/-- The way to a place on a path is a part of the way along it. -/
theorem way_subset {p q : Path} (h : q.Leads p) (t : FileTree) : t.way q ⊆ t.way p := by
  obtain ⟨hnames, hnone | habsolute⟩ := h
  · rw [way, hnone]
    exact List.nil_subset _
  · have hstart : t.start q = t.start p := by rw [start, start, habsolute]
    rw [way, way, hstart]
    exact Path.passed_subset hnames _

variable (fails : WriteStep → Option Nat)

/-- Whatever fails, creating directories adds only places on the way. -/
theorem yields_createDirectories [LawfulMonad m] (p : Path) :
    t.Yields ((disk.failing fails : Disk (StateT FileTree m)).createDirectories p)
      fun _ t' => t.Grows t' (t.way p) := by
  have hleads (q : Path) (hq : q.Leads p) :
      t.Yields ((disk : Disk (StateT FileTree m)).createDirectories q)
        fun _ t' => t.Grows t' (t.way p) :=
    yields_modifyGet ((t.grows_makeDirectories q).mono (way_subset hq t))
  simp only [Disk.failing]
  cases fails .createDirectories with
  | none => exact hleads p ⟨List.prefix_rfl, .inr rfl⟩
  -- a step that fails gets along some of the parts, which lead along the path
  | some n => exact (hleads _ (p.leads_take n)).bind fun _ _ h => yields_pure h

/-- A temporary file is new, and its path leads to it. -/
theorem yields_createTemporary (p : Path) :
    t.Yields ((disk.failing fails : Disk (StateT FileTree m)).createTemporary p)
      fun created t' => match created with
        | none => t' = t
        | some temporary => ∃ l, t.locate temporary = some l ∧ t.Beside t' l [] := by
  simp only [Disk.failing]
  split
  · exact yields_pure rfl
  · refine yields_modifyGet ?_
    cases hadd : t.addTemporary p with
    | none => rfl
    | some added =>
      obtain ⟨temporary, t'⟩ := added
      simp only [addTemporary, Option.bind_eq_bind, Option.bind_eq_some_iff] at hadd
      obtain ⟨-, -, name, -, l, hlocate, hadd⟩ := hadd
      -- the name is only taken where nothing is
      split at hadd
      · next habsent =>
        cases hadd
        have hbeside := beside_set (of_locate_eq_some hlocate).2
          (Option.isNone_iff_eq_none.mp habsent) []
        exact ⟨l, hlocate, hbeside⟩
      · cases hadd

variable {temporary : Path}

/-- Writing to the temporary file leaves it a file, with some of the bytes more. -/
theorem yields_write [LawfulMonad m] (h : t.Beside t' l contents)
    (hl : t.locate temporary = some l) (bs : Bytes) :
    t'.Yields ((disk.failing fails : Disk (StateT FileTree m)).write temporary bs)
      fun written t'' =>
        ∃ more, t.Beside t'' l (contents ++ more) ∧ (written = true → more = bs) := by
  have hwrite (bs : Bytes) : t'.Yields ((disk : Disk (StateT FileTree m)).write temporary bs)
      fun _ t'' => t.Beside t'' l (contents ++ bs) := by
    have happend : (do t'.append (← t'.locate temporary) bs) =
        some (t'.set l (.file (contents ++ bs))) := by
      rw [h.locate_eq, hl, Option.bind_eq_bind, Option.bind_some, append, h.present]
    refine (yields_change _).mono fun written t'' hw => ?_
    rw [hw.2, happend]
    exact h.set _
  simp only [Disk.failing]
  cases fails .write with
  | none => exact (hwrite bs).mono fun _ _ hw => ⟨bs, hw, fun _ => rfl⟩
  -- a step that fails writes some of the bytes, and says so
  | some n => exact (hwrite _).bind fun _ _ hw => yields_pure ⟨_, hw, nofun⟩

/-- Nothing is changed by bringing a file to the disk. -/
theorem yields_sync [LawfulMonad m] :
    t'.Yields ((disk.failing fails : Disk (StateT FileTree m)).sync temporary)
      fun _ t'' => t'' = t' := by
  simp only [Disk.failing]
  split
  · exact yields_pure rfl
  · exact yields_get.bind fun _ _ h => yields_pure h.2

/-- Renaming puts the temporary file in its place, or does nothing. -/
theorem yields_rename (h : t.Beside t' l contents) (hl : t.locate temporary = some l) (p : Path) :
    t'.Yields ((disk.failing fails : Disk (StateT FileTree m)).rename temporary p)
      fun renamed t'' => if renamed then t.Placed t'' (t.target p) contents else t'' = t' := by
  simp only [Disk.failing]
  split
  · exact yields_pure rfl
  · refine (yields_change _).mono fun renamed t'' hr => ?_
    cases hmove : (do t'.move (← t'.locate temporary) (← t'.locate p) : Option FileTree) with
    | none =>
      rw [hmove] at hr
      rw [hr.1, hr.2]
      rfl
    | some moved =>
      rw [hmove] at hr
      rw [hr.1, hr.2]
      simp only [h.locate_eq, hl, Option.bind_eq_bind, Option.bind_some] at hmove
      obtain ⟨place, hlocate, hmove⟩ := Option.bind_eq_some_iff.mp hmove
      obtain ⟨rfl, hne⟩ := of_locate_eq_some hlocate
      exact h.of_move hne hmove

/-- Removing the temporary file leaves the tree as it was. -/
theorem yields_remove (h : t.Beside t' l contents) (hl : t.locate temporary = some l) :
    t'.Yields ((disk.failing fails : Disk (StateT FileTree m)).remove temporary)
      fun _ t'' => t.Grows t'' [] := by
  refine yields_modifyGet ?_
  simp only [h.locate_eq, hl]
  exact ⟨h.current, fun l' => .inl (h.get?_erase l')⟩

-- ---------------------------------------------------------------------------
-- Writing
-- ---------------------------------------------------------------------------

/-- The temporary file is put in its place with all the bytes, or it is still a file beside the
tree. -/
theorem yields_fill [LawfulMonad m] (h : t.Beside t' l []) (hl : t.locate temporary = some l)
    (p : Path) (bs : Bytes) :
    t'.Yields ((disk.failing fails : Disk (StateT FileTree m)).fill temporary p bs)
      fun cause t'' => match cause with
        | none => t.Placed t'' (t.target p) bs
        | some _ => ∃ contents, t.Beside t'' l contents := by
  -- only the last step moves the file, so one that fails before leaves it beside the tree
  refine (yields_write fails h hl bs).bind fun written t₁ hwrite => ?_
  obtain ⟨more, hbeside, hall⟩ := hwrite
  rw [List.nil_append] at hbeside
  cases written with
  | false => exact yields_pure ⟨more, hbeside⟩
  | true =>
    obtain rfl := hall rfl
    refine (yields_sync fails).bind fun stored t₂ hsync => ?_
    subst hsync
    cases stored with
    | false => exact yields_pure ⟨more, hbeside⟩
    | true =>
      refine (yields_rename fails hbeside hl p).bind fun renamed t₃ hrename => ?_
      cases renamed with
      | false =>
        obtain rfl : t₃ = t₂ := hrename
        exact yields_pure ⟨more, hbeside⟩
      | true => exact yields_pure hrename

/-- A document is written as a whole, or nothing but directories is added. -/
theorem yields_writeAtomically [LawfulMonad m] (p : Path) (bs : Bytes) :
    t.Yields ((disk.failing fails : Disk (StateT FileTree m)).writeAtomically p bs)
      fun r t' => match r with
        | .error _ => ∀ l, t.KeepsAt t' (t.way p.directory) l
        | .ok () => t'.get? (t.target p) = some (.file bs) ∧
            ∀ l, l ≠ t.target p → t.KeepsAt t' (t.way p.directory) l := by
  refine (yields_createDirectories fails p.directory).bind fun made t₁ hgrows => ?_
  cases made with
  | false => exact yields_pure hgrows.keepsAt
  | true =>
    refine (yields_createTemporary fails p.directory).bind fun created t₂ hcreated => ?_
    cases created with
    | none =>
      obtain rfl : t₂ = t₁ := hcreated
      exact yields_pure hgrows.keepsAt
    | some temporary =>
      obtain ⟨l, hl, hbeside⟩ := hcreated
      refine (yields_fill fails hbeside hl p bs).bind fun cause t₃ hfill => ?_
      cases cause with
      | none =>
        -- the directories that were created do not change where the path leads
        have hplaced : t₁.Placed t₃ (t.target p) bs := hgrows.target_eq p ▸ hfill
        exact yields_pure ⟨hplaced.present, fun l hne =>
          (hgrows.keepsAt l).trans (.inl (hplaced.others l hne))⟩
      | some cause =>
        -- without the temporary file there are only the directories
        obtain ⟨contents, hbeside⟩ := hfill
        refine (yields_remove fails hbeside hl).bind fun _ t₄ hremove => ?_
        exact yields_pure (hgrows.trans (hremove.mono (List.nil_subset _))).keepsAt

end ReplayVector.FileTree
