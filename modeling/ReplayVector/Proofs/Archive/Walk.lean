import ReplayVector.Archive.Writer
import ReplayVector.Proofs.Cid.Count
import ReplayVector.Proofs.Store.Held

/-!
# Visits of what is reachable

A visit over blocks that are all there, and all of which can be searched for links, comes to its
end: it visits each identifier at most once, and there are fewer identifiers than the visit may
take steps. It has then visited the roots and all that the visited blocks link to.

* `Visiting`: what holds at every step of a visit.
* `visit_path`: the steps of a visit.
* `collect_path`: a visit from roots.
-/

namespace ReplayVector.Archive

open BlockM

/-- The visit ended early. -/
def Missed (r : Except Failure Visit) : Prop := ∃ v e, r = .ok v ∧ v.failure = some e

/-- The blocks that a visit goes through: the identifiers are in `P`, and those in `P` are there
and lead to others in `P`. -/
def Open (follow : Cid → Bool) (view : View) (P : Cid → Prop) : Prop :=
  ∀ c, P c → c.isIdentity = false → ∃ data links, view c = some data ∧
    children follow ⟨c, data⟩ = .ok links ∧ ∀ l ∈ links, P l

/-- The identifiers of blocks, and those that stand for themselves. -/
def Covered (bs : List Block) (c : Cid) : Prop := c.isIdentity = true ∨ c ∈ bs.map (·.cid)

theorem Covered.mono {bs bs' : List Block} {c : Cid} (h : Covered bs c)
    (hsub : ∀ b ∈ bs, b ∈ bs') : Covered bs' c := by
  rcases h with h | h
  · exact Or.inl h
  · obtain ⟨b, hb, rfl⟩ := List.mem_map.mp h
    exact Or.inr (List.mem_map_of_mem (hsub b hb))

private theorem covered_iff {bs : List Block} {c : Cid} :
    (c.isIdentity || (bs.map (·.cid)).contains c) = true ↔ Covered bs c := by
  rw [Bool.or_eq_true, List.contains_iff_mem, Covered]

private theorem mem_of_dropWhile {α : Type} {p : α → Bool} {l : List α} {a : α} (ha : a ∈ l) :
    p a = true ∨ a ∈ l.dropWhile p := by
  induction l with
  | nil => cases ha
  | cons b l ih =>
    rw [List.dropWhile_cons]
    split
    · next hb =>
      rcases List.mem_cons.mp ha with rfl | ha
      · exact Or.inl hb
      · exact ih ha
    · exact Or.inr ha

/-- What a visit has come to when it is over: the blocks in order, each once and as it is held;
with the roots and the links of all blocks among them. -/
structure Visited (follow : Cid → Bool) (view : View) (P : Cid → Prop) (roots : List Cid)
    (bs : List Block) : Prop where
  nodup : (bs.map (·.cid)).Nodup
  held : ∀ b ∈ bs, P b.cid ∧ b.cid.isIdentity = false ∧ view b.cid = some b.data
  roots : ∀ c ∈ roots, Covered bs c
  links : ∀ b ∈ bs, ∀ links, children follow b = .ok links → ∀ l ∈ links, Covered bs l

/-- How far a visit has come: the blocks visited, the last one first, and the stack. The roots and
the links of all blocks are among them, or still on the stack. -/
structure Visiting (follow : Cid → Bool) (view : View) (P : Cid → Prop) (roots : List Cid)
    (visited : List Block) (stack : List Cid) : Prop where
  nodup : (visited.map (·.cid)).Nodup
  held : ∀ b ∈ visited, P b.cid ∧ b.cid.isIdentity = false ∧ view b.cid = some b.data
  pending : ∀ c ∈ stack, P c
  roots : ∀ c ∈ roots, Covered visited c ∨ c ∈ stack
  links : ∀ b ∈ visited, ∀ links, children follow b = .ok links →
    ∀ l ∈ links, Covered visited l ∨ l ∈ stack

variable {follow : Cid → Bool} {view : View} {P : Cid → Prop}

namespace Visiting

variable {roots : List Cid} {visited : List Block} {stack : List Cid}

theorem start (hroots : ∀ c ∈ roots, P c) : Visiting follow view P roots [] roots where
  nodup := .nil
  held _ hb := absurd hb List.not_mem_nil
  pending := hroots
  roots _ hc := Or.inr hc
  links _ hb := absurd hb List.not_mem_nil

/-- What is covered is taken off the stack. -/
theorem skip (h : Visiting follow view P roots visited stack) {p : Cid → Bool}
    (hp : ∀ c, p c = true → Covered visited c) :
    Visiting follow view P roots visited (stack.dropWhile p) := by
  have hrest (c : Cid) (hc : Covered visited c ∨ c ∈ stack) :
      Covered visited c ∨ c ∈ stack.dropWhile p :=
    hc.elim Or.inl fun hc => (mem_of_dropWhile hc).imp_left (hp c)
  exact {
    nodup := h.nodup
    held := h.held
    pending := fun c hc => h.pending c ((List.dropWhile_sublist p).subset hc)
    roots := fun c hc => hrest c (h.roots c hc)
    links := fun b hb links hchildren l hl => hrest l (h.links b hb links hchildren l hl) }

/-- The next block goes on top of those visited, its links on top of the stack. -/
theorem push {c : Cid} {data : Bytes} {links : List Cid}
    (h : Visiting follow view P roots visited (c :: stack)) (hid : c.isIdentity = false)
    (hunseen : c ∉ visited.map (·.cid)) (hdata : view c = some data)
    (hchildren : children follow ⟨c, data⟩ = .ok links) (hP : ∀ l ∈ links, P l) :
    Visiting follow view P roots (⟨c, data⟩ :: visited) (links ++ stack) := by
  have hstep (c' : Cid) (hc' : Covered visited c' ∨ c' ∈ c :: stack) :
      Covered (⟨c, data⟩ :: visited) c' ∨ c' ∈ links ++ stack := by
    rcases hc' with hc' | hc'
    · exact Or.inl (hc'.mono fun b hb => List.mem_cons_of_mem _ hb)
    · rcases List.mem_cons.mp hc' with rfl | hc'
      · exact Or.inl (Or.inr (List.mem_cons_self ..))
      · exact Or.inr (List.mem_append_right _ hc')
  obtain ⟨hc, hpending⟩ := List.forall_mem_cons.mp h.pending
  refine ⟨List.nodup_cons.mpr ⟨hunseen, h.nodup⟩,
    List.forall_mem_cons.mpr ⟨⟨hc, hid, hdata⟩, h.held⟩, ?_, fun c' hc' => hstep c' (h.roots c' hc'),
    ?_⟩
  · intro c' hc'
    rcases List.mem_append.mp hc' with hc' | hc'
    · exact hP c' hc'
    · exact hpending c' hc'
  · intro b hb links' hchildren' l hl
    rcases List.mem_cons.mp hb with rfl | hb
    · rw [hchildren] at hchildren'
      cases hchildren'
      exact Or.inr (List.mem_append_left _ hl)
    · exact hstep l (h.links b hb links' hchildren' l hl)

/-- Once the stack is empty, all is visited. -/
theorem finish (h : Visiting follow view P roots visited []) :
    Visited follow view P roots visited.reverse := by
  have hcovered (c : Cid) (hc : Covered visited c ∨ c ∈ ([] : List Cid)) :
      Covered visited.reverse c :=
    (hc.resolve_right List.not_mem_nil).mono fun b hb => List.mem_reverse.mpr hb
  refine ⟨?_, fun b hb => h.held b (List.mem_reverse.mp hb),
    fun c hc => hcovered c (h.roots c hc), fun b hb links hchildren l hl =>
      hcovered l (h.links b (List.mem_reverse.mp hb) links hchildren l hl)⟩
  rw [List.map_reverse]
  exact List.pairwise_reverse.mpr (h.nodup.imp fun hne => hne.symm)

end Visiting

/-- A visit goes on from the blocks visited and the stack until all is visited. -/
private theorem visit_path (hopen : Open follow view P) {fuel : Nat} {roots : List Cid}
    {visited : List Block} {stack : List Cid} (h : Visiting follow view P roots visited stack)
    (hfuel : visited.length + fuel = visitLimit) :
    ∃ new, BlockM.Path Missed (visit follow fuel (visited.map (·.cid)) visited stack) new []
        (.ok ⟨visited.reverse ++ new, none⟩) ∧
      Visited follow view P roots (visited.reverse ++ new) := by
  induction fuel generalizing visited stack with
  | zero =>
    -- more different identifiers than there are
    have hcount := Cid.length_lt_of_nodup h.nodup
    rw [List.length_map] at hcount
    exact absurd hfuel (by rw [visitLimit]; omega)
  | succ fuel ih =>
    have hrest := h.skip fun c => covered_iff.mp
    rw [visit]
    split
    · next hdrop =>
      rw [hdrop] at hrest
      refine ⟨[], ?_, ?_⟩
      · rw [List.append_nil]
        exact .done _
      · rw [List.append_nil]
        exact hrest.finish
    · next c stack' hdrop =>
      rw [hdrop] at hrest
      obtain ⟨hid, hunseen⟩ : c.isIdentity = false ∧ c ∉ visited.map (·.cid) := by
        have hhead := List.head?_dropWhile_not
          (fun c => c.isIdentity || (visited.map (·.cid)).contains c) stack
        rw [hdrop] at hhead
        simpa using hhead
      obtain ⟨data, links, hdata, hchildren, hP⟩ :=
        hopen c (hrest.pending c (List.mem_cons_self ..)) hid
      obtain ⟨new, hpath, hvisited⟩ := ih (hrest.push hid hunseen hdata hchildren hP)
        (by rw [List.length_cons]; omega)
      have hassoc : (⟨c, data⟩ :: visited).reverse ++ new = visited.reverse ++ ⟨c, data⟩ :: new := by
        simp
      rw [hassoc] at hpath hvisited
      refine ⟨⟨c, data⟩ :: new, .get ⟨?_, ?_⟩ ?_, hvisited⟩
      · exact fun e => ⟨_, rfl, _, e, rfl, rfl⟩
      · exact ⟨_, rfl, _, _, rfl, rfl⟩
      · dsimp only
        rw [hchildren]
        exact hpath

/-- The links that a visit from roots follows. -/
def following (follow : Cid → Bool) (roots : Roots) (c : Cid) : Bool :=
  roots.cids.contains c || follow c

/-- A visit over blocks that are all there visits the roots and all that is reachable. -/
theorem collect_path {roots : Roots} (hopen : Open (following follow roots) view P)
    (hroots : ∀ c ∈ roots.cids, P c) :
    ∃ bs, BlockM.Path Missed (collect follow roots) bs [] (.ok ⟨bs, none⟩) ∧
      Visited (following follow roots) view P roots.cids bs := by
  have hfuel : ([] : List Block).length + visitLimit = visitLimit := by
    rw [List.length_nil, Nat.zero_add]
  obtain ⟨bs, hpath, hvisited⟩ := visit_path hopen (.start hroots) hfuel
  rw [List.reverse_nil, List.nil_append] at hpath hvisited
  refine ⟨bs, ?_, hvisited⟩
  rw [collect]
  exact hpath

end ReplayVector.Archive
