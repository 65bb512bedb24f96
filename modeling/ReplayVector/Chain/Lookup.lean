import ReplayVector.Chain.Message
import ReplayVector.Chain.Tipset

/-!
# What a node says about messages

Where a message was executed, which message an identifier names, and which actors a message
touches when it is run on trial.
-/

namespace ReplayVector

/-- Where a message was executed, and with what outcome. -/
structure MessageLookup where
  message : Cid
  receipt : Receipt
  /-- The tipset in which the message was executed. -/
  tipset : TipsetKey
  height : Epoch
  deriving DecidableEq

/-- A message with its identifier. -/
structure NamedMessage where
  cid : Cid
  message : Message
  deriving DecidableEq, Inhabited

/-- A call from one actor to another, and the calls made on its behalf. -/
inductive CallTrace where
  | call (sender receiver : Address) (subcalls : List CallTrace)
  deriving Inhabited

/-- The outcome of running a message on trial. -/
structure TrialRun where
  trace : CallTrace
  error : String
  deriving Inhabited

/-! ## The addresses of a trace -/

/-- Appends what is not in a list yet. -/
def insertNew [DecidableEq α] (as : List α) (a : α) : List α := if a ∈ as then as else as ++ [a]

theorem mem_insertNew {α : Type} [DecidableEq α] {as : List α} {a b : α} :
    b ∈ insertNew as a ↔ b ∈ as ∨ b = a := by
  rw [insertNew]
  split
  · next hmem => exact ⟨Or.inl, fun h => h.elim id fun heq => heq ▸ hmem⟩
  · simp

theorem insertNew_of_mem {α : Type} [DecidableEq α] {as : List α} {a : α} (h : a ∈ as) :
    insertNew as a = as := if_pos h

theorem nodup_insertNew {α : Type} [DecidableEq α] {as : List α} (h : as.Nodup) (a : α) :
    (insertNew as a).Nodup := by
  rw [insertNew]
  split
  · exact h
  · next hnew =>
    refine List.nodup_append.mpr ⟨h, List.nodup_cons.mpr ⟨List.not_mem_nil, List.nodup_nil⟩, ?_⟩
    rintro b hb c hc rfl
    exact hnew (List.mem_singleton.mp hc ▸ hb)

theorem mem_foldl_insertNew {α : Type} [DecidableEq α] {as bs : List α} {a : α} :
    a ∈ bs.foldl insertNew as ↔ a ∈ as ∨ a ∈ bs := by
  induction bs generalizing as with
  | nil => simp
  | cons b bs ih => rw [List.foldl_cons, ih, mem_insertNew, List.mem_cons, or_assoc]

namespace CallTrace

mutual

/-- Notes the parties of a call and then those of its subcalls, unless they have been noted. -/
def note (noted : List Address) : CallTrace → List Address
  | .call sender receiver subcalls =>
    noteAll (insertNew (insertNew noted sender) receiver) subcalls

/-- Notes the parties of calls, one call after the other. -/
def noteAll (noted : List Address) : List CallTrace → List Address
  | [] => noted
  | t :: ts => noteAll (t.note noted) ts

end

/-- The senders and receivers of a call and its subcalls in the order in which the calls are made,
each once. -/
def touched (t : CallTrace) : List Address := t.note []

end CallTrace

/-! ## JSON -/

open Json

namespace MessageLookup

/-- The fields of the JSON form. -/
def fields : Fields [Cid, Receipt, TipsetKey, Epoch] :=
  .cons ⟨"Message", Form.cid.decoder⟩ <|
  .cons ⟨"Receipt", Receipt.form.decoder⟩ <|
  .cons ⟨"TipSet", TipsetKey.form.decoder⟩ <|
  .cons ⟨"Height", Form.int64.decoder⟩ .nil

/-- The JSON form. -/
def form : Form MessageLookup where
  toJson l := record [
    ("Message", Form.cid.toJson l.message),
    ("Receipt", Receipt.form.toJson l.receipt),
    ("TipSet", TipsetKey.form.toJson l.tipset),
    ("Height", Form.int64.toJson l.height)]
  decoder depth j := do
    let (message, receipt, tipset, height, ()) ← fields.read depth j
    return {
      message := ← required message
      receipt := ← required receipt
      tipset := ← required tipset
      height := ← required height }

end MessageLookup

namespace NamedMessage

/-- The fields of the JSON form. -/
def fields : Fields [Cid, Message] :=
  .cons ⟨"Cid", Form.cid.decoder⟩ <|
  .cons ⟨"Message", Message.form.decoder⟩ .nil

/-- The JSON form. -/
def form : Form NamedMessage where
  toJson m := record [("Cid", Form.cid.toJson m.cid), ("Message", Message.form.toJson m.message)]
  decoder depth j := do
    let (cid, message, ()) ← fields.read depth j
    return { cid := ← required cid, message := ← required message }

end NamedMessage

namespace CallTrace

/-- The fields of the parties to a call. -/
def partyFields : Fields [Address, Address] :=
  .cons ⟨"From", Form.address.decoder⟩ <|
  .cons ⟨"To", Form.address.decoder⟩ .nil

/-- Reads the parties to a call. -/
def parties : Decoder (Address × Address) := fun depth j => do
  let (sender, receiver, ()) ← partyFields.read depth j
  return (← required sender, ← required receiver)

/-- Reads a call with at most `levels` levels of calls. -/
def decoderWithin : Nat → Decoder CallTrace
  | 0 => fun _ _ => .error .malformed
  | levels + 1 => fun depth j => do
    let fields : Fields [Address × Address, List CallTrace] :=
      .cons ⟨"Msg", parties⟩ <|
      .cons ⟨"Subcalls", nullableList (decoderWithin levels)⟩ .nil
    let (msg, subcalls, ()) ← fields.read depth j
    let (sender, receiver) ← required msg
    return .call sender receiver (subcalls.getD [])

mutual

/-- The JSON form of a call. -/
def toJson : CallTrace → Json
  | .call sender receiver subcalls => record [
      ("Msg", record [("From", Form.address.toJson sender), ("To", Form.address.toJson receiver)]),
      ("Subcalls", if subcalls.isEmpty then .null else .array (toJsonList subcalls))]

/-- The JSON forms of calls. -/
def toJsonList : List CallTrace → List Json
  | [] => []
  | t :: ts => t.toJson :: toJsonList ts

end

/-- The JSON form. The nesting of arrays and objects bounds that of calls. -/
def form : Form CallTrace where
  toJson := toJson
  decoder depth := decoderWithin depth depth

end CallTrace

namespace TrialRun

/-- The fields of the JSON form. -/
def fields : Fields [CallTrace, String] :=
  .cons ⟨"ExecutionTrace", CallTrace.form.decoder⟩ <|
  .cons ⟨"Error", Form.string.decoder⟩ .nil

/-- The JSON form. The error may be missing. -/
def form : Form TrialRun where
  toJson r := record [
    ("ExecutionTrace", CallTrace.form.toJson r.trace),
    ("Error", Form.string.toJson r.error)]
  decoder depth j := do
    let (trace, error, ()) ← fields.read depth j
    return { trace := ← required trace, error := error.getD "" }

end TrialRun

end ReplayVector
