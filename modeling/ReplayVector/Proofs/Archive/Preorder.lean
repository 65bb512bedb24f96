import ReplayVector.Archive.Writer
import ReplayVector.Proofs.Cid.Count
import ReplayVector.Proofs.Store.Programs

/-!
# The order of an archive

A writer keeps the identifiers it has yet to visit on a stack, on which one may stand several times,
and long after it was visited. What comes of that is the order of the recursion that visits a block,
then everything its links lead to, one link after the other, and skips what was visited before.

* `Preorder`: the recursion, as the relation between what was visited before and after.
* `Preorder.append`: a stack is visited like its parts, one after the other.
* `exec_visit`: a visit goes in this order, up to the first block that is missing or broken.
* `exec_writeAs`: what an archive holds, and when writing one fails.
-/

namespace ReplayVector.Archive

-- ---------------------------------------------------------------------------
-- The recursion
-- ---------------------------------------------------------------------------

/-- Visiting identifiers in order: what was visited before and after, in the order of the visits.
A new identifier is visited, then everything under it, then what comes next. -/
inductive Preorder (children : Cid → List Cid) : List Cid → List Cid → List Cid → Prop
  | done (seen : List Cid) : Preorder children seen [] seen
  | skip {c : Cid} {cs seen order : List Cid} (h : c.isIdentity = true ∨ c ∈ seen)
      (rest : Preorder children seen cs order) : Preorder children seen (c :: cs) order
  | visit {c : Cid} {cs seen seen' order : List Cid} (hid : c.isIdentity = false) (hnew : c ∉ seen)
      (under : Preorder children (seen ++ [c]) (children c) seen')
      (rest : Preorder children seen' cs order) : Preorder children seen (c :: cs) order

namespace Preorder

variable {children children' : Cid → List Cid} {c : Cid} {cs cs' seen seen' order order' : List Cid}

/-- What was visited stays so, and is followed by what is new. -/
theorem grows (h : Preorder children seen cs order) : ∃ new, order = seen ++ new := by
  induction h with
  | done seen => exact ⟨[], (List.append_nil seen).symm⟩
  | skip _ _ ih => exact ih
  | @visit c cs seen seen' order hid hnew _ _ ih₁ ih₂ =>
    obtain ⟨new, rfl⟩ := ih₁
    obtain ⟨new', rfl⟩ := ih₂
    exact ⟨c :: (new ++ new'), by simp⟩

theorem mem_of_seen (h : Preorder children seen cs order) (hc : c ∈ seen) : c ∈ order := by
  obtain ⟨new, rfl⟩ := h.grows
  exact List.mem_append_left _ hc

/-- Nothing is visited twice. -/
theorem nodup (h : Preorder children seen cs order) (hseen : seen.Nodup) : order.Nodup := by
  induction h with
  | done seen => exact hseen
  | skip _ _ ih => exact ih hseen
  | visit hid hnew _ _ ih₁ ih₂ =>
    refine ih₂ (ih₁ ?_)
    rw [List.nodup_append]
    refine ⟨hseen, by simp, ?_⟩
    intro a ha b hb heq
    rw [List.mem_singleton] at hb
    exact hnew (hb ▸ heq ▸ ha)

/-- The recursion has one outcome. -/
theorem unique (h : Preorder children seen cs order) (h' : Preorder children seen cs order') :
    order' = order := by
  induction h generalizing order' with
  | done seen =>
    cases h'
    rfl
  | skip hskip _ ih =>
    cases h' with
    | skip _ h' => exact ih h'
    | visit hid hnew _ _ =>
      rcases hskip with hskip | hskip
      · rw [hskip] at hid
        cases hid
      · exact absurd hskip hnew
  | visit hid hnew _ _ ih₁ ih₂ =>
    cases h' with
    | skip hskip _ =>
      rcases hskip with hskip | hskip
      · rw [hskip] at hid
        cases hid
      · exact absurd hskip hnew
    | visit _ _ h₁ h₂ =>
      obtain rfl := ih₁ h₁
      exact ih₂ h₂

/-- The parts of a stack are visited one after the other. So what a block links to may go on top of
the stack instead of into a recursive call. -/
theorem append (h : Preorder children seen cs seen') (h' : Preorder children seen' cs' order) :
    Preorder children seen (cs ++ cs') order := by
  induction h with
  | done seen => exact h'
  | skip hskip _ ih => exact .skip hskip (ih h')
  | visit hid hnew under _ _ ih => exact .visit hid hnew under (ih h')

theorem of_append (h : Preorder children seen (cs ++ cs') order) :
    ∃ seen', Preorder children seen cs seen' ∧ Preorder children seen' cs' order := by
  induction cs generalizing seen with
  | nil => exact ⟨seen, .done seen, h⟩
  | cons c cs ih =>
    cases h with
    | skip hskip h =>
      obtain ⟨seen', h₁, h₂⟩ := ih h
      exact ⟨seen', .skip hskip h₁, h₂⟩
    | visit hid hnew under h =>
      obtain ⟨seen', h₁, h₂⟩ := ih h
      exact ⟨seen', .visit hid hnew under h₁, h₂⟩

/-- The next identifier that is neither skipped nor done. -/
theorem of_dropWhile {p : Cid → Bool} (hp : ∀ c, p c = true ↔ c.isIdentity = true ∨ c ∈ seen)
    (h : Preorder children seen cs order) : Preorder children seen (cs.dropWhile p) order := by
  induction cs with
  | nil => exact h
  | cons c cs ih =>
    rw [List.dropWhile_cons]
    split
    · next hc =>
      cases h with
      | skip _ h => exact ih h
      | visit hid hnew _ _ =>
        rcases (hp c).mp hc with hskip | hskip
        · rw [hskip] at hid
          cases hid
        · exact absurd hskip hnew
    · exact h

/-- A fresh identifier on top of the stack is visited, and its links take its place. -/
theorem of_cons (hc : ¬(c.isIdentity = true ∨ c ∈ seen)) (h : Preorder children seen (c :: cs) order) :
    Preorder children (seen ++ [c]) (children c ++ cs) order := by
  cases h with
  | skip hskip _ => exact absurd hskip hc
  | visit _ _ under h => exact under.append h

/-- Only the links of what is visited matter. -/
theorem congr (h : Preorder children seen cs order)
    (heq : ∀ c ∈ order, children' c = children c) : Preorder children' seen cs order := by
  induction h with
  | done seen => exact .done seen
  | skip hskip _ ih => exact .skip hskip (ih heq)
  | @visit c cs seen seen' order hid hnew under rest ih₁ ih₂ =>
    have hseen' : ∀ c ∈ seen', children' c = children c := by
      intro c' hc'
      exact heq c' (rest.mem_of_seen hc')
    have hc : children' c = children c :=
      hseen' c (under.mem_of_seen (List.mem_append_right _ (List.mem_singleton_self c)))
    exact .visit hid hnew (hc ▸ ih₁ hseen') (ih₂ heq)

/-- All of the stack is visited, or skipped for good. -/
theorem covers (h : Preorder children seen cs order) :
    ∀ c ∈ cs, c.isIdentity = true ∨ c ∈ order := by
  induction h with
  | done seen => exact fun c hc => (by cases hc)
  | skip hskip rest ih =>
    intro c hc
    rcases List.mem_cons.mp hc with rfl | hc
    · exact hskip.imp_right rest.mem_of_seen
    · exact ih c hc
  | visit hid hnew under rest _ ih =>
    intro c hc
    rcases List.mem_cons.mp hc with rfl | hc
    · exact Or.inr (rest.mem_of_seen (under.mem_of_seen (by simp)))
    · exact ih c hc

/-- With a block, everything that its links lead to is visited. -/
theorem closed (h : Preorder children seen cs order) {l : Cid} (hc : c ∈ order) (hnew : c ∉ seen)
    (hl : l ∈ children c) : l.isIdentity = true ∨ l ∈ order := by
  induction h with
  | done seen => exact absurd hc hnew
  | skip _ _ ih => exact ih hc hnew
  | @visit c' cs seen seen' order _ _ under rest ih₁ ih₂ =>
    by_cases hseen' : c ∈ seen'
    · refine Or.imp_right rest.mem_of_seen ?_
      by_cases heq : c = c'
      · exact under.covers l (heq ▸ hl)
      · exact ih₁ hseen' (by simp [hnew, heq])
    · exact ih₂ hc hseen'

/-- The recursion comes to its end, since there are not so many identifiers. -/
theorem exists_of_nodup (children : Cid → List Cid) {seen : List Cid} (hseen : seen.Nodup)
    (cs : List Cid) : ∃ order, Preorder children seen cs order := by
  suffices ∀ fuel seen, seen.Nodup → seen.length + fuel = visitLimit → ∀ cs,
      ∃ order, Preorder children seen cs order by
    have hlt := Cid.length_lt_of_nodup hseen
    exact this (visitLimit - seen.length) seen hseen (by unfold visitLimit; omega) cs
  intro fuel
  induction fuel with
  | zero =>
    intro seen hseen hfuel
    have hlt := Cid.length_lt_of_nodup hseen
    unfold visitLimit at hfuel
    omega
  | succ fuel ih =>
    intro seen hseen hfuel cs
    induction cs with
    | nil => exact ⟨seen, .done seen⟩
    | cons c cs ihcs =>
      by_cases hskip : c.isIdentity = true ∨ c ∈ seen
      · obtain ⟨order, h⟩ := ihcs
        exact ⟨order, .skip hskip h⟩
      · have hid : c.isIdentity = false := by
          cases hc : c.isIdentity with
          | false => rfl
          | true => exact absurd (Or.inl hc) hskip
        have hnew : c ∉ seen := fun hc => hskip (Or.inr hc)
        have hnodup : (seen ++ [c]).Nodup := by
          simp [List.nodup_append, hseen]
          intro a ha heq
          exact hnew (heq ▸ ha)
        -- one call for the links and the rest of the stack together, then cut in two
        obtain ⟨order, h⟩ := ih (seen ++ [c]) hnodup
          (by rw [List.length_append, List.length_singleton]; omega) (children c ++ cs)
        obtain ⟨seen', under, rest⟩ := h.of_append
        exact ⟨order, .visit hid hnew under rest⟩

end Preorder

-- ---------------------------------------------------------------------------
-- What is visited
-- ---------------------------------------------------------------------------

variable {m : Memory} {roots : Roots} {listed : Option (List Cid)}

/-- Writes an archive of what is reachable from the roots, over the listed blocks only if there is
a list. -/
def writeAs (roots : Roots) : Option (List Cid) → BlockM Written
  | none => write roots
  | some listed => writeIncluding roots listed

/-- The links that lead on: to roots, and to listed blocks or, without a list, to any. -/
def leadsOn (roots : Roots) (listed : Option (List Cid)) (c : Cid) : Bool :=
  roots.cids.contains c || (listed.elim true fun cs => cs.contains c)

/-- What comes under a block: the links of structured data that stores keep and that lead on, in
their order. Nothing comes under other blocks, missing ones, and structured data that is broken. -/
def under (m : Memory) (roots : Roots) (listed : Option (List Cid)) (c : Cid) : List Cid :=
  if c.codec = Cid.dagCbor then
    match (m.get? c).bind Cbor.decode? with
    | some v => v.links.filter fun l => l.isStoredBlock && leadsOn roots listed l
    | none => []
  else []

/-- The block is there and, if it is structured data, not broken. -/
def Sound (m : Memory) (c : Cid) : Prop :=
  ∃ data, m.get? c = some data ∧ (c.codec = Cid.dagCbor → ∃ v, Cbor.decode? data = some v)

/-- The blocks that are held under identifiers. -/
def blocksAt (m : Memory) (cs : List Cid) : List Block :=
  cs.filterMap fun c => (m.get? c).map fun data => ⟨c, data⟩

/-- Blocks that are held are those under their identifiers. -/
theorem blocksAt_map {bs : List Block} (h : ∀ b ∈ bs, m.get? b.cid = some b.data) :
    blocksAt m (bs.map (·.cid)) = bs := by
  induction bs with
  | nil => rfl
  | cons b bs ih =>
    have hb := h b (List.mem_cons_self ..)
    rw [List.map_cons, blocksAt, List.filterMap_cons, hb]
    exact congrArg (b :: ·) (ih fun b' hb' => h b' (List.mem_cons_of_mem _ hb'))

theorem get?_of_mem_blocksAt {cs : List Cid} {b : Block} (h : b ∈ blocksAt m cs) :
    m.get? b.cid = some b.data := by
  obtain ⟨c, -, hb⟩ := List.mem_filterMap.mp h
  obtain ⟨data, hdata, rfl⟩ := Option.map_eq_some_iff.mp hb
  exact hdata

/-- Blocks that are all there are as many as their identifiers. -/
theorem map_blocksAt {cs : List Cid} (h : ∀ c ∈ cs, Sound m c) :
    (blocksAt m cs).map (·.cid) = cs := by
  induction cs with
  | nil => rfl
  | cons c cs ih =>
    obtain ⟨data, hdata, -⟩ := h c (List.mem_cons_self ..)
    rw [blocksAt, List.filterMap_cons, hdata]
    exact congrArg (c :: ·) (ih fun c' hc' => h c' (List.mem_cons_of_mem _ hc'))

/-- A visit follows what comes under a block, unless that is broken. -/
private theorem children_eq {c : Cid} {data : Bytes} (hdata : m.get? c = some data) :
    (Sound m c ∧ children (leadsOn roots listed) ⟨c, data⟩ = .ok (under m roots listed c)) ∨
    (¬Sound m c ∧ ∃ e, children (leadsOn roots listed) ⟨c, data⟩ = .error e) := by
  unfold children under
  by_cases hcodec : c.codec = Cid.dagCbor
  · rw [if_pos hcodec, if_pos hcodec, hdata, Option.bind_some]
    cases hv : Cbor.decode? data with
    | some v => exact Or.inl ⟨⟨data, hdata, fun _ => ⟨v, hv⟩⟩, rfl⟩
    | none =>
      refine Or.inr ⟨?_, _, rfl⟩
      rintro ⟨data', hdata', hdecode⟩
      obtain ⟨v, hv'⟩ := hdecode hcodec
      rw [hdata] at hdata'
      obtain rfl := Option.some.inj hdata'
      rw [hv] at hv'
      cases hv'
  · rw [if_neg hcodec, if_neg hcodec]
    exact Or.inl ⟨⟨data, hdata, fun h => absurd h hcodec⟩, rfl⟩

/-- How far a visit has come: the blocks visited, the last one first. -/
structure Progress (m : Memory) (visited : List Block) : Prop where
  nodup : (visited.map (·.cid)).Nodup
  held : ∀ b ∈ visited, m.get? b.cid = some b.data
  sound : ∀ b ∈ visited, Sound m b.cid

theorem Progress.push {visited : List Block} {c : Cid} {data : Bytes} (h : Progress m visited)
    (hunseen : c ∉ visited.map (·.cid)) (hdata : m.get? c = some data) (hsound : Sound m c) :
    Progress m (⟨c, data⟩ :: visited) where
  nodup := List.nodup_cons.mpr ⟨hunseen, h.nodup⟩
  held := List.forall_mem_cons.mpr ⟨hdata, h.held⟩
  sound := List.forall_mem_cons.mpr ⟨hsound, h.sound⟩

/-- What a visit comes to: the blocks in order, or a failure at one of them. -/
def ComesTo (m : Memory) (order : List Cid) (v : Visit) : Prop :=
  (v = ⟨blocksAt m order, none⟩ ∧ ∀ c ∈ order, Sound m c) ∨
  ((∃ e, v.failure = some e) ∧ ∃ c ∈ order, ¬Sound m c)

/-- The loop agrees with the recursion: what is on the stack is visited in the order in which the
recursion would visit it, although identifiers stand there until they come up again. -/
theorem exec_visit {fuel : Nat} {visited : List Block} {stack order : List Cid}
    (h : Progress m visited) (hfuel : visited.length + fuel = visitLimit)
    (horder : Preorder (under m roots listed) (visited.reverse.map (·.cid)) stack order) :
    ∃ v, m.exec (visit (leadsOn roots listed) fuel (visited.map (·.cid)) visited stack) =
      (.ok v, m) ∧ ComesTo m order v := by
  induction fuel generalizing visited stack with
  | zero =>
    -- more different identifiers than there are
    have hlt := Cid.length_lt_of_nodup h.nodup
    rw [List.length_map] at hlt
    unfold visitLimit at hfuel
    omega
  | succ fuel ih =>
    have hskip : ∀ c : Cid, (c.isIdentity || (visited.map (·.cid)).contains c) = true ↔
        c.isIdentity = true ∨ c ∈ visited.reverse.map (·.cid) := by
      intro c
      simp
    have hrest := horder.of_dropWhile hskip
    rw [visit]
    split
    · next hdrop =>
      -- nothing is left on the stack
      rw [hdrop] at hrest
      cases hrest
      refine ⟨_, rfl, Or.inl ⟨?_, ?_⟩⟩
      · rw [blocksAt_map fun b hb => h.held b (List.mem_reverse.mp hb)]
      · intro c hc
        obtain ⟨b, hb, rfl⟩ := List.mem_map.mp hc
        exact h.sound b (List.mem_reverse.mp hb)
    · next c stack' hdrop =>
      rw [hdrop] at hrest
      have hfresh : ¬(c.isIdentity = true ∨ c ∈ visited.reverse.map (·.cid)) := by
        rw [← hskip c, Bool.not_eq_true]
        have hhead := List.head?_dropWhile_not
          (fun c => c.isIdentity || (visited.map (·.cid)).contains c) stack
        rw [hdrop] at hhead
        simpa using hhead
      have hnext := hrest.of_cons hfresh
      have hc : c ∈ order := hnext.mem_of_seen (by simp)
      rw [Memory.exec_get]
      cases hdata : m.get? c with
      | none =>
        refine ⟨_, rfl, Or.inr ⟨⟨_, rfl⟩, c, hc, ?_⟩⟩
        rintro ⟨data, hdata', -⟩
        rw [hdata] at hdata'
        cases hdata'
      | some data =>
        dsimp only
        rcases children_eq hdata with ⟨hsound, hchildren⟩ | ⟨hbroken, e, hchildren⟩
        · -- the block goes on top of those visited, what comes under it on top of the stack
          have hunseen : c ∉ visited.map (·.cid) := by
            intro hmem
            exact hfresh (Or.inr (by simpa using hmem))
          rw [hchildren]
          refine ih (h.push hunseen hdata hsound) (by rw [List.length_cons]; omega) ?_
          simpa using hnext
        · rw [hchildren]
          exact ⟨_, rfl, Or.inr ⟨⟨e, rfl⟩, c, hc, hbroken⟩⟩

-- ---------------------------------------------------------------------------
-- What is written
-- ---------------------------------------------------------------------------

/-- What a writer has come to once its visit is over. -/
theorem exec_writeAs_of_visit {v : Visit}
    (h : m.exec (visit (leadsOn roots listed) visitLimit [] [] roots.cids) = (.ok v, m)) :
    m.exec (writeAs roots listed) = (.ok (v.archive roots), m) := by
  have heq : writeAs roots listed = (do
      let v ← visit (leadsOn roots listed) visitLimit [] [] roots.cids
      return v.archive roots) := by
    cases listed <;> rfl
  rw [heq, Memory.exec_bind, h]
  rfl

/-- The visit that a writer makes goes through the blocks in the order of the recursion. -/
theorem exec_visit_roots (m : Memory) (roots : Roots) (listed : Option (List Cid)) :
    ∃ order v, Preorder (under m roots listed) [] roots.cids order ∧
      m.exec (visit (leadsOn roots listed) visitLimit [] [] roots.cids) = (.ok v, m) ∧
      ComesTo m order v := by
  obtain ⟨order, horder⟩ := Preorder.exists_of_nodup (under m roots listed) .nil roots.cids
  have hnothing : Progress m [] := ⟨.nil, by simp, by simp⟩
  obtain ⟨v, hv, hcomes⟩ := @exec_visit m roots listed visitLimit [] roots.cids order hnothing
    (by rw [List.length_nil, Nat.zero_add]) horder
  exact ⟨order, v, horder, hv, hcomes⟩

/-- Writing an archive goes through the blocks in the order of the recursion that starts from the
roots, each block once, and changes nothing. It fails if and only if one of these blocks is missing
or broken; else the archive consists of the header and a frame for each of the blocks. -/
theorem exec_writeAs (m : Memory) (roots : Roots) (listed : Option (List Cid)) :
    ∃ order written, m.exec (writeAs roots listed) = (.ok written, m) ∧
      Preorder (under m roots listed) [] roots.cids order ∧
      (∀ order', Preorder (under m roots listed) [] roots.cids order' → order' = order) ∧
      order.Nodup ∧
      ((∃ n, written.result = .ok n) ↔ ∀ c ∈ order, Sound m c) ∧
      ∀ n, written.result = .ok n →
        n = order.length ∧ ∃ blocks : List Block, blocks.map (·.cid) = order ∧
          (∀ b ∈ blocks, m.get? b.cid = some b.data) ∧
          written.bytes = headerFrame roots ++ blocks.flatMap blockFrame := by
  obtain ⟨order, v, horder, hv, hcomes⟩ := exec_visit_roots m roots listed
  refine ⟨order, v.archive roots, exec_writeAs_of_visit hv, horder, fun _ h => horder.unique h,
    horder.nodup .nil, ?_⟩
  rcases hcomes with ⟨rfl, hsound⟩ | ⟨⟨e, hfailure⟩, c, hc, hbroken⟩
  · have hcids := map_blocksAt hsound
    refine ⟨⟨fun _ => hsound, fun _ => ⟨_, rfl⟩⟩, ?_⟩
    intro n hn
    obtain rfl : (blocksAt m order).length = n := Except.ok.inj hn
    refine ⟨?_, blocksAt m order, hcids, fun b hb => get?_of_mem_blocksAt hb, rfl⟩
    rw [← List.length_map (f := fun b : Block => b.cid), hcids]
  · have herror : (v.archive roots).result = .error e := by
      simp only [Visit.archive, hfailure]
    refine ⟨⟨?_, fun h => absurd (h c hc) hbroken⟩, ?_⟩
    · rintro ⟨n, hn⟩
      rw [herror] at hn
      cases hn
    · intro n hn
      rw [herror] at hn
      cases hn

end ReplayVector.Archive
