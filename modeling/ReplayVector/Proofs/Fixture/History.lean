import ReplayVector.Proofs.Execution.Transfer
import ReplayVector.Proofs.Fixture.State

/-!
# States that come of a new one

A new state, and executions one after the other, each on one of the roots that have come up. All
blocks that were computed on the way link to none but each other, and all roots are among them.

* `Memory.exec_grounded`: a run in memory that writes grounded blocks.
* `Fixture.History`: how states come about.
* `Fixture.History.closed`: what they consist of.
-/

namespace ReplayVector

open BlockM

/-! ## Runs that read and write -/

namespace Memory

variable {α : Type}

/-- What a path writes is what a run along it writes. -/
theorem writes_of_path {miss : Except Failure α → Prop} {p : BlockM α} {rs ws : List Block}
    {r : Except Failure α} (h : BlockM.Path miss p rs ws r) {m : Memory}
    (hrs : ∀ b ∈ rs, m.get? b.cid = some b.data) : m.writes p = ws := by
  induction h generalizing m with
  | done r => rfl
  | @get c next data rs ws r _ h ih =>
    rw [writes, hrs _ (List.mem_cons_self ..)]
    exact ih fun b hb => hrs b (List.mem_cons_of_mem _ hb)
  | @put b next ws r h ih => rw [writes, ih (by simp)]

/-- A run among blocks that link to none but each other, which writes blocks that link to what has
come up, leaves such blocks. -/
theorem exec_grounded {post : Known → Except Failure α → Prop} {known : Known} {p : BlockM α}
    (h : p.Grounded post known) {blocks : Blocks} (hblocks : blocks.Closed)
    (hknown : known.Within blocks) {m : Memory} (hm : m.Within blocks) :
    Extends blocks (m.writes p) fun known => post known (m.exec p).1 := by
  induction p generalizing known blocks m with
  | done r =>
    have hnil := blocks.also_nil.symm
    exact ⟨hnil ▸ hblocks, known, hnil ▸ hknown, h⟩
  | get c next ih =>
    rw [exec_get, writes]
    cases hdata : m.get? c with
    | none => exact ih _ (h.2.1 _ fun data v hr => (by cases hr)) hblocks hknown hm
    | some data =>
      obtain ⟨v, hv, hlinks⟩ := hblocks _ (hm _ (get?_eq_some hdata))
      exact ih _ (h.2.2 data v hv.decode? hv.tidy) hblocks (hknown.add hlinks) hm
  | has c next => exact h.elim
  | put b next ih =>
    have hnext := ih _ h.2.2 (hblocks.also (hknown.grounded h.1)) (hknown.insert b)
      (Within.put (fun b' hb' => Or.inl (hm b' hb')) (Or.inr (List.mem_singleton_self b)))
    have hcons := (blocks.also_cons b ((m.put b).writes (next (.ok ())))).symm
    obtain ⟨known', hwithin, hpost⟩ := hnext.reached
    exact ⟨hcons ▸ hnext.closed, known', hcons ▸ hwithin, hpost⟩

end Memory

namespace Fixture

/-! ## Histories -/

/-- How states come about: the blocks held, all blocks that were computed, and the roots. What an
execution does with the blocks it computes is up to its mode. -/
inductive History (accounts : Nat) : Memory → List Block → List Cid → Prop
  | created {s : State} {held : Memory}
      (h : Memory.empty.exec (newState accounts) = (.ok s, held)) :
      History accounts held (Memory.empty.writes (newState accounts)) [s.root]
  | executed {held held' : Memory} {involved : List Block} {roots : List Cid}
      (before : History accounts held involved roots) {e : Execution} (hroot : e.preroot ∈ roots)
      {outcome : Outcome} (h : held.exec (Transfer.engine e) = (.ok outcome, held')) :
      History accounts held' (involved ++ held.writes (Transfer.apply e))
        (outcome.postroot :: roots)

/-- What is known of a history. -/
structure History.Sound (held : Memory) (involved : List Block) (roots : List Cid) : Prop where
  closed : Blocks.Closed fun b => b ∈ involved
  within : held.Within fun b => b ∈ involved
  roots : ∀ c ∈ roots, Blocks.names (fun b => b ∈ involved) c

theorem blocks_of_list (bs : List Block) : Blocks.also (fun _ => False) bs = fun b => b ∈ bs := by
  funext b
  simp [Blocks.also]

theorem also_list (bs bs' : List Block) :
    Blocks.also (fun b => b ∈ bs) bs' = fun b => b ∈ bs ++ bs' := by
  funext b
  simp [Blocks.also]

/-- As long as no two different blocks share an identifier, the blocks that were computed link to
none but each other. -/
theorem History.sound {accounts : Nat} {held : Memory} {involved : List Block} {roots : List Cid}
    (h : History accounts held involved roots) (hfree : CollisionFree fun b => b ∈ involved) :
    History.Sound held involved roots := by
  induction h with
  | @created s held hrun =>
    -- a new state is made of nothing
    have hempty : Blocks.Closed fun _ => False := fun b hb => hb.elim
    have hextends := Memory.exec_grounded (m := .empty)
      (@grounded_newState (fun _ => False) accounts) hempty
      (fun c hc _ => hc.elim) (Memory.within_empty _)
    obtain ⟨known, hwithin, hpost⟩ := hextends.reached
    have hclosed := hextends.closed
    rw [blocks_of_list] at hwithin hclosed
    rw [hrun] at hpost
    have hroot := hpost s rfl
    refine ⟨hclosed, ?_, ?_⟩
    · have hheld := Memory.exec_snd .empty (newState accounts)
      rw [hrun] at hheld
      rw [show held = _ from hheld]
      exact Memory.Within.putAll (Memory.within_empty _) fun b hb => hb
    · intro c hc
      rw [List.mem_singleton.mp hc]
      exact hwithin _ hroot.1 hroot.2
  | @executed held held' involved roots before e hroot outcome hrun ih =>
    have hsound := ih (hfree.mono fun b hb => List.mem_append_left _ hb)
    -- an execution finds all that it reads, and its blocks join the others
    obtain ⟨rs, ws, r, hcourse⟩ := Transfer.exists_course hsound.closed e (hsound.roots _ hroot)
    have hagree (b : Block) (hb : b ∈ rs) :=
      hsound.within.get? (hfree.mono fun b hb => List.mem_append_left _ hb) (hcourse.mem b hb)
    have hheld := hcourse.engine.held_of_ok hagree (congrArg Prod.fst hrun)
    rw [hcourse.engine.exec hheld] at hrun
    obtain ⟨rfl, rfl⟩ := Prod.mk.inj hrun
    rw [Memory.writes_of_path hcourse.apply hheld]
    obtain ⟨known, hwithin, hpost⟩ := hcourse.extends_.reached
    have hclosed := hcourse.extends_.closed
    rw [also_list] at hwithin hclosed
    refine ⟨hclosed, ?_, ?_⟩
    · refine (hsound.within.mono fun b hb => List.mem_append_left _ hb).putAll fun b hb => ?_
      exact List.mem_append_right _ (Transfer.mem_of_mem_kept hb)
    · intro c hc
      rcases List.mem_cons.mp hc with rfl | hc
      · have hstores := hpost outcome rfl
        exact hwithin _ hstores.1 hstores.2
      · exact Blocks.names_mono (fun b hb => List.mem_append_left _ hb) (hsound.roots c hc)

end Fixture

end ReplayVector
