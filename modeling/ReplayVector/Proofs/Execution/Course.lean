import ReplayVector.Execution.Transfer
import ReplayVector.Proofs.Store.Programs

/-!
# The course of a message

Applying a message reads the state into a tree and changes the tree in memory; only then is the
tree written, unless the message was rejected. All that a message means is in the middle part, its
course, which is a computation on trees that writes nothing.

* `Transfer.course`: what a message does to the tree in memory.
* `Transfer.apply_eq`: applying a message is to load the tree, to take this course, and to conclude.
-/

namespace ReplayVector

open BlockM

/-- How a message ends before the state is written. -/
inductive Ending where
  /-- The state will be left alone. -/
  | rejected (code : ExitCode)
  /-- The state will be written. -/
  | settled (code : ExitCode)

namespace Transfer

/-- All that a message does to the tree in memory. -/
def course (e : Execution) : TreeM Ending := do
  match ← TreeM.resolve e.message.sender with
  | none => return .rejected .senderInvalid
  | some senderId =>
    match ← TreeM.getActor senderId with
    | none => return .rejected .senderInvalid
    | some sender =>
      if sender.sequence ≠ e.message.sequence then return .rejected .senderStateInvalid
      else
        let burn := e.baseFee.scale gas.toNat
        let tip := e.message.gasPremium.scale gas.toNat
        if sender.balance < burn + tip then fail (.of (.uncoveredGas e.message.sender))
        else if sender.sequence + 1 = 0 then fail .crash
        else
          let sender := { sender with
            sequence := sender.sequence + 1, balance := sender.balance - (burn + tip) }
          TreeM.setActor senderId sender
          let code ← moveValue e.message senderId sender
          payProtocol (.id .burnt) burn
          payProtocol (.id .reward) tip
          return .settled code

/-- The tree is written, unless the message was rejected. -/
def conclude (e : Execution) : Ending → StateTree → BlockM Outcome
  | .rejected code, _ => return { receipt := .plain code 0, postroot := e.preroot }
  | .settled code, t => return { receipt := .plain code gas, postroot := ← t.write }

theorem transact_eq (e : Execution) :
    transact e = course e >>= fun ending t => do return (← conclude e ending t, t) := by
  have hwrite (code : ExitCode) :
      (TreeM.write >>= fun root => pure { receipt := .plain code gas, postroot := root }) =
        fun t => do return (← conclude e (.settled code) t, t) := by
    funext t
    show (t.write >>= fun root => pure (root, t)) >>= (fun r => pure (_, r.2)) = (_ >>= _) >>= _
    rw [bind_assoc, bind_assoc]
    rfl
  rw [transact, course, bind_assoc]
  refine bind_congr fun senderId => ?_
  cases senderId with
  | none => rfl
  | some senderId =>
    dsimp only
    rw [bind_assoc]
    refine bind_congr fun sender => ?_
    cases sender with
    | none => rfl
    | some sender =>
      dsimp only
      split
      · rfl
      · split
        · rfl
        · split
          · rfl
          · simp only [bind_assoc, pure_bind, ← hwrite]

/-- Applying a message reads the tree, changes it in memory, and writes it. -/
theorem apply_eq (e : Execution) :
    apply e = StateTree.load e.preroot >>= fun t => course e t >>= fun r => conclude e r.1 r.2 := by
  refine bind_congr fun t => ?_
  rw [transact_eq]
  show Prod.fst <$> (course e t >>= fun r => conclude e r.1 r.2 >>= fun a => pure (a, r.2)) = _
  rw [map_bind]
  refine bind_congr fun r => ?_
  rw [map_bind]
  exact bind_pure (conclude e r.1 r.2)

end Transfer

end ReplayVector
