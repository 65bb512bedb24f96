import ReplayVector.Proofs.Execution.Runs
import ReplayVector.Proofs.State.Readable

/-!
# States whose registry may be unreadable

A transfer does not need all of a state. Where its actors can be read, but the registry is missing
or some of its address map, there is still a ledger that tells what a transfer does if it ends well:
an address stands for what the registry answers, and for nothing if there is no answer.

* `Ledger.observed`: what can be observed of a state.
* `TreeM.Obeys`: computations on trees that do as the ledger says, if they end well.
* `Transfer.of_apply_observed`: transfers.
-/

namespace ReplayVector

open BlockM

variable {neat : Prop} {view view' : View}

-- ---------------------------------------------------------------------------
-- Answers of the registry
-- ---------------------------------------------------------------------------

/-- What the registry with the given state answers. -/
def Registry.answer (head : Cid) (a : Address) : BlockM (Option ActorId) := do
  (← readAs ofCbor? head).lookup a

/-- What can be observed of a state with the given actors. -/
def Ledger.observed (view : View) (actors : Actors) : Ledger where
  actors
  ids a := (actors .registry).bind fun init =>
    match ((Registry.answer init.head a).on view).1 with
    | .ok found => found
    | .error _ => none

namespace StateTree

variable {base : Base} {L : Ledger} {t : StateTree}

/-- The tree remembers an answer. -/
def remember (t : StateTree) (a : Address) : Option ActorId → StateTree
  | none => t
  | some id => { t with resolved := (a, id) :: t.resolved }

/-- The registry is asked over the head of its actor. -/
theorem askRegistry_eq (t : StateTree) (a : Address) :
    t.askRegistry a = t.findActor .registry >>= fun (actor, t) =>
      ofOption .unworded actor >>= fun init => Registry.answer init.head a >>= fun found =>
        pure (found, t.remember a found) := by
  rw [askRegistry]
  refine bind_congr fun (actor, t) => bind_congr fun init => ?_
  rw [Registry.answer, bind_assoc]
  refine bind_congr fun registry => bind_congr fun found => ?_
  cases found <;> rfl

/-- The tree shows a ledger, as far as the registry answers. -/
structure Bears (neat : Prop) (view : View) (base : Base) (L : Ledger) (t : StateTree) : Prop where
  actors : t.HasActors neat view base L.actors
  answers : ∀ init a found, L.actors .registry = some init →
    ((Registry.answer init.head a).on view).1 = .ok found → L.ids a = found
  resolved : ∀ a id, (a, id) ∈ t.resolved → L.ids a = some id

/-- An actor that is found is the one of the ledger. -/
theorem Bears.of_findActor (h : t.Bears neat view base L) {id : ActorId} {found : Option Actor}
    {t' : StateTree} (hfind : ((t.findActor id).on view).1 = .ok (found, t')) :
    found = L.actors id ∧ t'.Bears neat view base L := by
  obtain ⟨t'', hgives, ht'', hresolved⟩ := h.actors.gives_findActor id
  have hgives' : (t.findActor id).on view = (.ok _, []) := hgives
  rw [hgives'] at hfind
  cases hfind
  exact ⟨rfl, ht'', h.answers, hresolved.symm ▸ h.resolved⟩

/-- What comes first in a computation that ends well. -/
private theorem of_bind_fst {α β : Type} {p : BlockM α} {f : α → BlockM β} {b : β}
    (h : ((p >>= f).on view).1 = .ok b) :
    ∃ a, (p.on view).1 = .ok a ∧ ((f a).on view).1 = .ok b := by
  obtain ⟨a, ws₁, ws₂, hp, hf, -⟩ := of_on_bind_ok (Prod.ext h rfl)
  exact ⟨a, by rw [hp], by rw [hf]⟩

/-- A number that is found is the one of the ledger. -/
theorem Bears.of_findId (h : t.Bears neat view base L) {a : Address} {found : Option ActorId}
    {t' : StateTree} (hfind : ((t.findId a).on view).1 = .ok (found, t')) :
    found = L.resolve a ∧ t'.Bears neat view base L := by
  rw [findId] at hfind
  split at hfind
  · next id hid =>
    cases hfind
    exact ⟨by rw [Ledger.resolve, hid], h⟩
  · next hid =>
    have hresolve : L.resolve a = L.ids a := by rw [Ledger.resolve, hid]
    rw [hresolve]
    split at hfind
    · next id hknown =>
      cases hfind
      exact ⟨(h.resolved a id (Hamt.mem_of_lookup hknown)).symm, h⟩
    · rw [askRegistry_eq] at hfind
      obtain ⟨⟨actor, t₁⟩, hregistry, hfind⟩ := of_bind_fst hfind
      obtain ⟨hactor, ht₁⟩ := h.of_findActor hregistry
      obtain ⟨init, hinit, hfind⟩ := of_bind_fst hfind
      obtain ⟨answer, hanswer, hdone⟩ := of_bind_fst hfind
      cases hdone
      have hpresent : L.actors .registry = some init := by
        rw [← hactor]
        cases actor with
        | none => cases hinit
        | some actor =>
          cases hinit
          rfl
      have hids := h.answers init a found hpresent hanswer
      refine ⟨hids.symm, ?_⟩
      cases found with
      | none => exact ht₁
      | some id =>
        obtain ⟨hrepresents, hnodup, hfound, hsame, hthere, hfresh⟩ := ht₁.actors
        refine ⟨⟨hrepresents, hnodup, hfound, hsame, hthere, hfresh⟩, h.answers, ?_⟩
        intro b j hmem
        rcases List.mem_cons.mp hmem with heq | hmem
        · cases heq
          exact hids
        · exact ht₁.resolved b j hmem

/-- Setting an actor in the tree is setting it in the ledger. -/
theorem Bears.setActor (h : t.Bears neat view base L) {id : ActorId} {old a : Actor}
    (hold : L.actors id = some old) (hhead : a.head = old.head) :
    (t.setActor id a).Bears neat view base (L.setActor id a) where
  actors := h.actors.setActor (Or.inr (by rw [hold]; simp)) a
  answers := by
    intro init b found hinit hanswer
    rw [Ledger.actors_setActor] at hinit
    split at hinit
    · next heq =>
      cases hinit
      exact h.answers old b found (heq ▸ hold) (hhead ▸ hanswer)
    · exact h.answers init b found hinit hanswer
  resolved := h.resolved

/-- All of the actors under a root can be read. -/
def ActorsReadable (view : View) (root : Cid) : Prop :=
  ∃ r : StateRoot, (readAs StateRoot.ofCbor? root).Gives view r ∧ r.version = version ∧
    Hamt.Readable view Actor.packing Hamt.levels r.actors

theorem ActorsReadable.stores {root : Cid} (h : ActorsReadable view root) :
    ∃ base actors, StoresActors False view base actors root := by
  obtain ⟨r, hroot, hversion, htrie⟩ := h
  obtain ⟨base, hbase⟩ := htrie.stores Actor.packing_lawful
  exact ⟨base, fun id => base (key id), r, hroot, hversion, hbase, fun _ => rfl⟩

theorem StoresActors.readable {actors : Actors} {root : Cid}
    (h : StoresActors neat view base actors root) : ActorsReadable view root := by
  obtain ⟨r, hroot, hversion, hstores, -⟩ := h
  exact ⟨r, hroot, hversion, Hamt.readable_of_storedAt hstores⟩

/-- What is observed of a state is what there is to load. -/
theorem StoresActors.gives_bears {actors : Actors} {root : Cid}
    (h : StoresActors neat view base actors root) :
    ∃ t, (load root).Gives view t ∧ t.Bears neat view base (.observed view actors) ∧
      t.resolved = [] := by
  obtain ⟨t, hload, ht, hresolved⟩ := h.gives_load
  refine ⟨t, hload, ⟨ht, ?_, fun a id hmem => ?_⟩, hresolved⟩
  · intro init a found hinit hanswer
    have hinit' : actors .registry = some init := hinit
    show (actors .registry).bind _ = found
    rw [hinit', Option.bind_some, hanswer]
  · rw [hresolved] at hmem
    cases hmem

/-- An address is resolved as the observed ledger says. -/
theorem StoresActors.gives_idAt {actors : Actors} {root : Cid}
    (h : StoresActors neat view base actors root) {a : Address} {id : ActorId}
    (hid : (Ledger.observed view actors).resolve a = some id) :
    (idAt root a).Gives view (some id) := by
  obtain ⟨t, hload, ht, hresolved⟩ := h.gives_bears
  have hfind : ∃ t', (t.findId a).Gives view (some id, t') := by
    rw [findId]
    rw [Ledger.resolve] at hid
    split
    · next j hj =>
      rw [hj] at hid
      cases hid
      exact ⟨t, gives_pure view _⟩
    · next hj =>
      rw [hj] at hid
      rw [hresolved, askRegistry_eq]
      obtain ⟨init, hinit, hanswer⟩ := Option.bind_eq_some_iff.mp hid
      obtain ⟨t', hfind, -, -⟩ := ht.actors.gives_findActor .registry
      have hinit' : (Ledger.observed view actors).actors .registry = some init := hinit
      rw [hinit'] at hfind
      have hgives : (Registry.answer init.head a).Gives view (some id) := by
        refine Prod.ext ?_ ?_
        · cases hon : ((Registry.answer init.head a).on view).1 with
          | error e =>
            rw [hon] at hanswer
            cases hanswer
          | ok found =>
            rw [hon] at hanswer
            rw [show found = some id from hanswer]
        · refine Quiet.on_snd ?_ view
          exact Quiet.bind (quiet_readAs _ _) fun r => reading_quiet.registryLookup r a
      exact ⟨_, hfind.bind ((gives_pure view init).bind (hgives.bind (gives_pure view _)))⟩
  obtain ⟨t', hgives⟩ := hfind
  exact hload.bind ((hgives.summarize _).bind (gives_pure view _))

end StateTree

-- ---------------------------------------------------------------------------
-- Computations on trees
-- ---------------------------------------------------------------------------

/-- If the computation ends well on a tree that bears a ledger, it ends as given. -/
def TreeM.Obeys (neat : Prop) (view : View) (base : StateTree.Base) {α : Type} (x : TreeM α)
    (L : Ledger) (r : Option (α × Ledger)) : Prop :=
  ∀ t : StateTree, t.Bears neat view base L → ∀ a t', ((x t).on view).1 = .ok (a, t') →
    ∃ L', r = some (a, L') ∧ t'.Bears neat view base L'

/-- A value is that of the computation whose causes were replaced. -/
private theorem of_summarize {α : Type} {p : BlockM α} {c : Cause} {a : α}
    (h : ((p.summarize c).on view).1 = .ok a) : (p.on view).1 = .ok a := by
  rw [on_summarize] at h
  cases hp : (p.on view).1 with
  | error e =>
    rw [hp] at h
    cases h
  | ok b =>
    rw [hp] at h
    cases h
    rfl

theorem TreeM.tracks_obeys (neat : Prop) (view : View) (base : StateTree.Base) :
    Tracks fun {_} => TreeM.Obeys neat view base where
  pure := by
    intro α a L t ht b t' h
    cases h
    exact ⟨L, rfl, ht⟩
  fail := by
    intro α f L t ht b t' h
    cases h
  bind := by
    intro α β x f L L' a r hx hf t ht b t' h
    obtain ⟨⟨a', t₁⟩, hfirst, hrest⟩ := StateTree.of_bind_fst h
    obtain ⟨L₁, heq, ht₁⟩ := hx t ht a' t₁ hfirst
    cases heq
    exact hf t₁ ht₁ b t' hrest
  bind_none := by
    intro α β x f L hx t ht b t' h
    obtain ⟨⟨a', t₁⟩, hfirst, -⟩ := StateTree.of_bind_fst h
    obtain ⟨L₁, heq, -⟩ := hx t ht a' t₁ hfirst
    cases heq
  resolve := by
    intro a L t ht found t' h
    obtain ⟨rfl, ht'⟩ := ht.of_findId (of_summarize h)
    exact ⟨L, rfl, ht'⟩
  getActor := by
    intro id L t ht found t' h
    obtain ⟨rfl, ht'⟩ := ht.of_findActor (of_summarize h)
    exact ⟨L, rfl, ht'⟩
  setActor := by
    intro id old a L hold hhead t ht b t' h
    cases h
    exact ⟨_, rfl, ht.setActor hold hhead⟩

-- ---------------------------------------------------------------------------
-- Transfers
-- ---------------------------------------------------------------------------

namespace Transfer

/-- A transfer that ends well on a state whose actors can be read does what the ledger says that can
be observed of the state. The actors after it can be read too. -/
theorem of_apply_observed {e : Execution} {base : StateTree.Base} {actors : Actors}
    (h : StateTree.StoresActors neat view base actors e.preroot) {outcome : Outcome}
    {ws : List Block} (happly : (apply e).on view = (.ok outcome, ws))
    (hsub : Hamt.Within view view') (hws : ∀ b ∈ ws, view' b.cid = some b.data) :
    ∃ s base', (Ledger.observed view actors).settle e = some s ∧ outcome.receipt = s.receipt ∧
      (∀ code, s = .rejected code → outcome.postroot = e.preroot) ∧
      StateTree.StoresActors neat view' base' (s.after (.observed view actors)).actors
        outcome.postroot := by
  obtain ⟨t, hload, ht, -⟩ := h.gives_bears
  rw [apply_eq, hload.on_bind] at happly
  obtain ⟨⟨ending, t'⟩, ws₁, ws₂, hcourse, hconclude, rfl⟩ := of_on_bind_ok happly
  have hobeys := tracks_course (TreeM.tracks_obeys neat view base) e (L := .observed view actors)
  obtain ⟨L', heq, ht'⟩ := hobeys t ht ending t' (congrArg Prod.fst hcourse)
  obtain ⟨s, hsettle, hs⟩ := Option.map_eq_some_iff.mp heq
  cases hs
  cases s with
  | rejected code =>
    cases hconclude
    exact ⟨.rejected code, base, hsettle, rfl, fun _ _ => rfl, h.mono hsub⟩
  | settled code L' =>
    obtain ⟨root, ws₃, ws₄, hwrite, hdone, rfl⟩ := of_on_bind_ok hconclude
    cases hdone
    have hwritten : ∀ b ∈ ws₃, view' b.cid = some b.data := fun b hb => hws b (by simp [hb])
    exact ⟨.settled code L', _, hsettle, rfl, nofun, ht'.actors.of_write hsub hwrite hwritten⟩

end Transfer

end ReplayVector
