import ReplayVector.Proofs.Execution.Course
import ReplayVector.State.Mask

/-!
# How states are read

Whatever is looked up in a state, one kind of step is taken: structured data of some shape are read.
All else is putting such steps together. So a form of computations that these steps have, and that
is kept when computations are put together, is the form of every way to look something up, and of
changing a tree in memory.

* `BlockM.Reading`: forms that reading a state has.
* `BlockM.Writing`: forms that writing a trie has.
* `Reading.get?`, `Reading.set`: tries.
* `Reading.findActor`, `Reading.resolve`: trees.
* `Reading.moveValue`, `Reading.apply`: transfers.
-/

namespace ReplayVector

namespace BlockM

/-- Reading structured data has the form, and computations that are put together from others that
have it do so too. -/
structure Reading (C : {α : Type} → BlockM α → Prop) : Prop where
  pure : ∀ {α : Type} (a : α), C (pure a : BlockM α)
  because : ∀ {α : Type} (causes : List Cause), C (fail (.because causes) : BlockM α)
  bind : ∀ {α β : Type} {p : BlockM α} {g : α → BlockM β}, C p → (∀ a, C (g a)) → C (p >>= g)
  context : ∀ {α : Type} {p : BlockM α} (c : Cause), C p → C (p.context c)
  summarize : ∀ {α : Type} {p : BlockM α} (c : Cause), C p → C (p.summarize c)
  readAs : ∀ {α : Type} (k : Cbor → Option α) (c : Cid), C (readAs k c)

namespace Reading

variable {C : {α : Type} → BlockM α → Prop} (h : Reading C)

include h

/-- What is there is returned, and what is missing is a failure with causes. -/
theorem ofOption {α : Type} (causes : List Cause) (o : Option α) :
    C (ofOption (.because causes) o) := by
  cases o with
  | none => exact h.because causes
  | some a => exact h.pure a

/-- A fold is a sequence of its steps. -/
private theorem foldlM {γ δ : Type} {f : γ → δ → BlockM γ} (hf : ∀ c d, C (f c d)) (ds : List δ)
    (c : γ) : C (ds.foldlM f c) := by
  induction ds generalizing c with
  | nil => exact h.pure c
  | cons d ds ih =>
    rw [List.foldlM_cons]
    exact h.bind (hf c d) ih

-- ---------------------------------------------------------------------------
-- Tries
-- ---------------------------------------------------------------------------

section Tries

open Hamt

variable {β : Type} (p : Packing β)

/-- A node is a block read through its code. -/
theorem loadNode (c : Cid) : C (Hamt.loadNode p c) := h.readAs _ c

/-- A look-up reads one node for each link on its path. -/
theorem lookup (key : Bytes) (rest : List UInt8) (slots : Slots β) :
    C (Hamt.lookup p key rest slots) := by
  induction rest generalizing slots with
  | nil => exact h.because _
  | cons i rest ih =>
    unfold Hamt.lookup
    split
    · exact h.pure _
    · exact h.pure _
    · exact h.bind (h.loadNode p _) fun inner => h.bind (ih inner) fun _ => h.pure _
    · exact h.bind (ih _) fun _ => h.pure _

/-- An insertion reads as a look-up does; it writes nothing yet. -/
theorem insert [DecidableEq β] (height : Nat) (rest : List UInt8) (key : Bytes) (value : β)
    (slots : Slots β) : C (Hamt.insert p height rest key value slots) := by
  induction height generalizing rest key value slots with
  | zero => exact h.because _
  | succ height ih =>
    cases rest with
    | nil => exact h.because _
    | cons i rest =>
      have hbelow {stored : Option Cid} (inner : Slots β) : C (do
          let r ← Hamt.insert p height rest key value inner
          return (r.1, Hamt.put i (.node (if r.1 then none else stored) r.2) slots)) :=
        h.bind (ih rest key value inner) fun _ => h.pure _
      unfold Hamt.insert
      split
      · exact h.pure _
      · split
        · split <;> exact h.pure _
        · split
          · exact h.pure _
          · -- the entries of a full bucket move to a new node
            refine h.bind (ih rest key value []) fun _ => h.bind ?_ fun _ => h.pure _
            refine h.foldlM (fun inner (e : Bytes × β) => ?_) _ _
            exact h.bind (ih _ e.1 e.2 inner) fun _ => h.pure _
      · exact h.bind (h.loadNode p _) hbelow
      · exact hbelow _

theorem load (c : Cid) : C (Hamt.load p c) := by
  refine h.bind (h.loadNode p c) fun root => ?_
  exact h.pure _

theorem get? (m : Hamt β) (key : Bytes) : C (m.get? p key) := by
  refine h.bind (h.lookup p key _ m.root) fun found => ?_
  exact h.pure _

theorem set [DecidableEq β] (m : Hamt β) (key : Bytes) (value : β) : C (m.set p key value) := by
  refine h.bind (h.insert p levels _ key value m.root) fun changed => ?_
  exact h.pure _

end Tries

-- ---------------------------------------------------------------------------
-- Registries
-- ---------------------------------------------------------------------------

/-- A registry reads its map and looks up the key in it. -/
theorem registryLookup (r : Registry) (a : Address) : C (r.lookup a) := by
  refine h.bind (h.load _ _) fun m => ?_
  exact h.bind (h.get? _ m _) fun _ => h.pure _

theorem loadMap (r : Registry) : C r.loadMap := h.context _ (h.load _ _)

/-- Entries are copied by reading one map and changing another in memory. -/
theorem copyEntries (retain : List Address) (map pruned : Hamt ActorId) :
    C (Registry.copyEntries retain map pruned) := by
  induction retain generalizing map pruned with
  | nil => exact h.pure _
  | cons a retain ih =>
    unfold Registry.copyEntries
    split
    · exact ih map pruned
    · refine h.bind (h.context _ (h.get? _ map _)) fun (found, map) => ?_
      cases found with
      | none => exact ih map pruned
      | some id => exact h.bind (h.context _ (h.set _ pruned _ id)) fun _ => ih map _

-- ---------------------------------------------------------------------------
-- Trees
-- ---------------------------------------------------------------------------

/-- A tree is loaded from its root, or from the map itself in the older form. -/
theorem loadTree (root : Cid) : C (StateTree.load root) := by
  refine h.summarize _ (h.bind (h.summarize _ (h.readAs _ root)) fun r => ?_)
  split
  · exact h.because _
  · exact h.bind (h.load _ _) fun _ => h.pure _

/-- An actor is found among those in memory or read from the map. -/
theorem findActor (t : StateTree) (id : ActorId) : C (t.findActor id) := by
  unfold StateTree.findActor
  split
  · exact h.pure _
  · exact h.bind (h.get? _ _ _) fun _ => h.pure _

/-- To get an actor is to find it and to remember it. -/
theorem getActor (t : StateTree) (id : ActorId) : C (t.getActor id) :=
  h.summarize _ (h.findActor t id)

/-- The registry is the state of an actor of the tree. -/
theorem askRegistry (t : StateTree) (a : Address) : C (t.askRegistry a) := by
  refine h.bind (h.findActor t .registry) fun (actor, t) => ?_
  refine h.bind (h.ofOption _ actor) fun actor => h.bind (h.readAs _ _) fun registry => ?_
  refine h.bind (h.registryLookup registry a) fun found => ?_
  cases found <;> exact h.pure _

/-- The number of an address is known, remembered, or asked of the registry. -/
theorem findId (t : StateTree) (a : Address) : C (t.findId a) := by
  unfold StateTree.findId
  split
  · exact h.pure _
  · split
    · exact h.pure _
    · exact h.askRegistry t a

/-- To resolve an address is to find its number and to remember it. -/
theorem resolve (t : StateTree) (a : Address) : C (t.resolve a) := h.summarize _ (h.findId t a)

end Reading

-- ---------------------------------------------------------------------------
-- Writing
-- ---------------------------------------------------------------------------

/-- Writing structured data has the form, and computations that are put together from others that
have it do so too. -/
structure Writing (C : {α : Type} → BlockM α → Prop) : Prop where
  pure : ∀ {α : Type} (a : α), C (pure a : BlockM α)
  because : ∀ {α : Type} (causes : List Cause), C (fail (.because causes) : BlockM α)
  bind : ∀ {α β : Type} {p : BlockM α} {g : α → BlockM β}, C p → (∀ a, C (g a)) → C (p >>= g)
  writeCbor : ∀ v : Cbor, C (writeCbor v)

namespace Writing

open Hamt

variable {C : {α : Type} → BlockM α → Prop} (h : Writing C) {β : Type} (p : Packing β)

include h

/-- A node is written as one block. -/
private theorem storeNode (slots : Slots β) : C (Hamt.storeNode p slots) := by
  refine h.bind ?_ h.writeCbor
  cases nodeCbor? p slots with
  | none => exact h.because _
  | some v => exact h.pure v

-- along the branches of a trie, those below a branch before it
mutual

/-- A branch in memory is written from the bottom up; the others are there already. -/
private theorem flushBranch : (b : Branch β) → C (Hamt.flushBranch p b)
  | .bucket _ => by
    rw [Hamt.flushBranch]
    exact h.pure _
  | .link _ => by
    rw [Hamt.flushBranch]
    exact h.pure _
  | .node (some _) _ => by
    rw [Hamt.flushBranch]
    exact h.pure _
  | .node none slots => by
    rw [Hamt.flushBranch]
    exact h.bind (flushSlots slots) fun _ => h.bind (h.storeNode p _) fun _ => h.pure _

/-- So are all branches of a node, in order. -/
private theorem flushSlots : (slots : Slots β) → C (Hamt.flushSlots p slots)
  | [] => by
    rw [Hamt.flushSlots]
    exact h.pure _
  | (_, b) :: rest => by
    rw [Hamt.flushSlots]
    exact h.bind (flushBranch b) fun _ => h.bind (flushSlots rest) fun _ => h.pure _

end

/-- Writing the changed nodes of a trie has the form. -/
theorem flush (m : Hamt β) : C (m.flush p) := by
  unfold Hamt.flush
  split
  · exact h.pure _
  · exact h.bind (h.flushSlots p m.root) fun _ => h.bind (h.storeNode p _) fun _ => h.pure _

end Writing

end BlockM

-- ---------------------------------------------------------------------------
-- Computations on trees
-- ---------------------------------------------------------------------------

namespace TreeM

/-- Whatever the tree, the computation has the form. -/
def Has (C : {α : Type} → BlockM α → Prop) {α : Type} (x : TreeM α) : Prop := ∀ t, C (x t)

end TreeM

namespace BlockM.Reading

variable {C : {α : Type} → BlockM α → Prop} (h : Reading C) {α β : Type}

include h

theorem tree_pure (a : α) : TreeM.Has C (Pure.pure a : TreeM α) := fun _ => h.pure _

/-- A computation over blocks leaves the tree alone. -/
theorem tree_lift {p : BlockM α} (hp : C p) : TreeM.Has C (liftM p : TreeM α) := by
  intro _
  exact h.bind hp fun _ => h.pure _

/-- One step over a tree after the other. -/
theorem tree_bind {x : TreeM α} {f : α → TreeM β} (hx : TreeM.Has C x)
    (hf : ∀ a, TreeM.Has C (f a)) : TreeM.Has C (x >>= f) := by
  intro t
  exact h.bind (hx t) fun r => hf r.1 r.2

theorem tree_resolve (a : Address) : TreeM.Has C (TreeM.resolve a) := fun t => h.resolve t a

theorem tree_getActor (id : ActorId) : TreeM.Has C (TreeM.getActor id) := fun t => h.getActor t id

theorem tree_setActor (id : ActorId) (a : Actor) : TreeM.Has C (TreeM.setActor id a) :=
  fun _ => h.pure _

/-- Selecting resolves and gets, one address after the other. -/
theorem select (retain : List Address) (found : List (ActorId × Actor)) :
    TreeM.Has C (StateTree.select retain found) := by
  induction retain generalizing found with
  | nil => exact h.tree_pure found
  | cons a retain ih =>
    unfold StateTree.select
    refine h.tree_bind (h.tree_resolve a) fun id => ?_
    cases id with
    | none => exact ih found
    | some id =>
      refine h.tree_bind (h.tree_getActor id) fun actor => ?_
      cases actor with
      | none => exact ih found
      | some actor =>
        dsimp only
        split <;> exact ih _

-- ---------------------------------------------------------------------------
-- Transfers
-- ---------------------------------------------------------------------------

open Transfer

/-- Who a message pays is its receiver, or whom its parameters name. -/
theorem beneficiary (m : Message) (receiver : ActorId) :
    TreeM.Has C (Transfer.beneficiary m receiver) := by
  unfold Transfer.beneficiary
  split
  · exact h.tree_pure _
  · exact h.tree_bind (h.tree_lift (h.ofOption _ _)) fun a => h.tree_resolve a

/-- A credit gets the actor and sets it. -/
theorem credit (id : ActorId) (missing : Cause) (amount : TokenAmount) :
    TreeM.Has C (Transfer.credit id missing amount) := by
  refine h.tree_bind (h.tree_getActor id) fun a => ?_
  cases a with
  | none => exact h.tree_lift (h.because _)
  | some a => exact h.tree_setActor id _

/-- A transfer of value sets the sender and credits the actor that is paid, once both are found. -/
theorem moveValue (m : Message) (senderId : ActorId) (sender : Actor) :
    TreeM.Has C (Transfer.moveValue m senderId sender) := by
  refine h.tree_bind (h.tree_resolve m.receiver) fun receiver => ?_
  cases receiver with
  | none => exact h.tree_pure _
  | some receiver =>
    dsimp only
    split
    · exact h.tree_pure _
    · refine h.tree_bind (h.beneficiary m receiver) fun id => ?_
      cases id with
      | none => exact h.tree_pure _
      | some id =>
        exact h.tree_bind (h.tree_setActor senderId _) fun _ =>
          h.tree_bind (h.credit id _ _) fun _ => h.tree_pure _

/-- A payment resolves its address and credits the actor. -/
theorem payProtocol (a : Address) (amount : TokenAmount) :
    TreeM.Has C (Transfer.payProtocol a amount) := by
  refine h.tree_bind (h.tree_resolve a) fun id => ?_
  cases id with
  | none => exact h.tree_lift (h.because _)
  | some id => exact h.credit id _ _

/-- The course of a message has the form too, if crashing has where that is what it does. -/
theorem course (e : Execution)
    (hcrash : ∀ {α : Type}, e.message.sequence + 1 = 0 → C (fail .crash : BlockM α)) :
    TreeM.Has C (Transfer.course e) := by
  refine h.tree_bind (h.tree_resolve e.message.sender) fun senderId => ?_
  cases senderId with
  | none => exact h.tree_pure _
  | some senderId =>
    refine h.tree_bind (h.tree_getActor senderId) fun sender => ?_
    cases sender with
    | none => exact h.tree_pure _
    | some sender =>
      dsimp only
      split
      · exact h.tree_pure _
      · next hsequence =>
        split
        · exact h.tree_lift (h.because _)
        · split
          · next hlast =>
            -- the sequence numbers of the sender and the message are the same
            rw [Classical.not_not.mp hsequence] at hlast
            exact h.tree_lift (hcrash hlast)
          · refine h.tree_bind (h.tree_setActor senderId _) fun _ => ?_
            refine h.tree_bind (h.moveValue e.message senderId _) fun code => ?_
            refine h.tree_bind (h.payProtocol _ _) fun _ => ?_
            refine h.tree_bind (h.payProtocol _ _) fun _ => ?_
            exact h.tree_pure _

/-- An execution ends by writing its tree, or by giving back the root it started from. -/
private theorem conclude (e : Execution) (hwrite : ∀ t : StateTree, C t.write) (ending : Ending)
    (t : StateTree) : C (Transfer.conclude e ending t) := by
  cases ending with
  | rejected code => exact h.pure _
  | settled code => exact h.bind (hwrite t) fun _ => h.pure _

/-- A message is applied by its course and its conclusion. It crashes only where a sequence number
has no successor. -/
theorem apply (e : Execution) (hwrite : ∀ t : StateTree, C t.write)
    (hcrash : ∀ {α : Type}, e.message.sequence + 1 = 0 → C (fail .crash : BlockM α)) :
    C (Transfer.apply e) := by
  rw [Transfer.apply_eq]
  refine h.bind (h.loadTree e.preroot) fun t => ?_
  refine h.bind (h.course e hcrash t) fun r => ?_
  exact h.conclude e hwrite r.1 r.2

end BlockM.Reading

end ReplayVector
