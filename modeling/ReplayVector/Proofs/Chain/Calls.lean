import Mathlib.Data.List.Basic
import ReplayVector.Chain.Lookup

/-!
# The addresses that calls touch

The calls of a trace form a tree, and the parties of all of them are noted in the order in which
the calls are made. What has been noted before is noted again without effect, so the result is the
walk through the tree with only the first occurrence of every address left.

* `firstOccurrences_foldl`: noting the elements of a list one by one leaves its first occurrences.
* `CallTrace.note_eq`: noting a call with its subcalls is noting the walk through them.
* `CallTrace.mem_walk`: the walk meets the parties of every call, and nothing else.
-/

namespace ReplayVector

-- ---------------------------------------------------------------------------
-- First occurrences
-- ---------------------------------------------------------------------------

section
variable {α : Type} [DecidableEq α]

/-- The list has the elements of a walk, each once, in the order in which the walk first meets
them. -/
structure FirstOccurrences (walk list : List α) : Prop where
  nodup : list.Nodup
  mem_iff : ∀ a, a ∈ list ↔ a ∈ walk
  before_iff : ∀ a ∈ walk, ∀ b ∈ walk,
    (list.idxOf a < list.idxOf b ↔ walk.idxOf a < walk.idxOf b)

theorem firstOccurrences_nil : FirstOccurrences ([] : List α) [] where
  nodup := .nil
  mem_iff _ := .rfl
  before_iff _ ha := absurd ha List.not_mem_nil

/-- The walk goes one element further. -/
theorem FirstOccurrences.concat {walk list : List α} (h : FirstOccurrences walk list) (a : α) :
    FirstOccurrences (walk ++ [a]) (insertNew list a) where
  nodup := nodup_insertNew h.nodup a
  mem_iff b := by rw [mem_insertNew, h.mem_iff, List.mem_append, List.mem_singleton]
  before_iff b hb c hc := by
    by_cases ha : a ∈ walk
    · -- the walk has met the element before, so nothing is new in it
      have hold {x : α} (hx : x ∈ walk ++ [a]) : x ∈ walk :=
        (List.mem_append.mp hx).elim id fun hx => List.mem_singleton.mp hx ▸ ha
      rw [insertNew_of_mem ((h.mem_iff a).mpr ha), List.idxOf_append_of_mem (hold hb),
        List.idxOf_append_of_mem (hold hc)]
      exact h.before_iff b (hold hb) c (hold hc)
    · -- the element comes last in both, behind all that has been met before
      have hnew : a ∉ list := fun hmem => ha ((h.mem_iff a).mp hmem)
      have hlast : (walk ++ [a]).idxOf a = walk.length := by
        rw [List.idxOf_append_of_notMem ha, List.idxOf_cons_self, Nat.add_zero]
      have hlast' : (list ++ [a]).idxOf a = list.length := by
        rw [List.idxOf_append_of_notMem hnew, List.idxOf_cons_self, Nat.add_zero]
      have hold {x : α} (hx : x ∈ walk) : (walk ++ [a]).idxOf x = walk.idxOf x ∧
          walk.idxOf x < walk.length :=
        ⟨List.idxOf_append_of_mem hx, List.idxOf_lt_length_of_mem hx⟩
      have hold' {x : α} (hx : x ∈ walk) : (list ++ [a]).idxOf x = list.idxOf x ∧
          list.idxOf x < list.length :=
        have hx := (h.mem_iff x).mpr hx
        ⟨List.idxOf_append_of_mem hx, List.idxOf_lt_length_of_mem hx⟩
      rw [insertNew, if_neg hnew]
      rcases List.mem_append.mp hb with hb | hb <;> rcases List.mem_append.mp hc with hc | hc
      · rw [(hold hb).1, (hold hc).1, (hold' hb).1, (hold' hc).1]
        exact h.before_iff b hb c hc
      · have := hold hb
        have := hold' hb
        rw [List.mem_singleton.mp hc]
        omega
      · have := hold hc
        have := hold' hc
        rw [List.mem_singleton.mp hb]
        omega
      · rw [List.mem_singleton.mp hb, List.mem_singleton.mp hc]
        exact iff_of_false (Nat.lt_irrefl _) (Nat.lt_irrefl _)

/-- Noting what a walk meets, one element after the other, leaves its first occurrences. -/
theorem firstOccurrences_foldl (walk : List α) : FirstOccurrences walk (walk.foldl insertNew []) := by
  -- what has been walked already is carried along
  have hfrom (past list : List α) (h : FirstOccurrences past list) :
      FirstOccurrences (past ++ walk) (walk.foldl insertNew list) := by
    induction walk generalizing past list with
    | nil => rwa [List.append_nil]
    | cons a walk ih =>
      have := ih _ _ (h.concat a)
      rwa [List.append_assoc] at this
  exact hfrom [] [] firstOccurrences_nil

/-- It makes no difference whether a list or only its first occurrences are noted. -/
theorem foldl_insertNew_foldl (as bs : List α) :
    (bs.foldl insertNew []).foldl insertNew as = bs.foldl insertNew as := by
  have hfrom (cs : List α) : (bs.foldl insertNew cs).foldl insertNew as =
      (cs ++ bs).foldl insertNew as := by
    induction bs generalizing cs with
    | nil => rw [List.append_nil, List.foldl_nil]
    | cons b bs ih =>
      rw [List.foldl_cons, ih, insertNew]
      split
      · next hb =>
        have hnoted : b ∈ cs.foldl insertNew as := mem_foldl_insertNew.mpr (.inr hb)
        rw [List.foldl_append, List.foldl_append, List.foldl_cons, insertNew_of_mem hnoted]
      · rw [List.append_assoc, List.singleton_append]
  exact hfrom []

/-- What has all been noted is noted again without effect. -/
theorem foldl_insertNew_of_subset {as bs : List α} (h : ∀ b ∈ bs, b ∈ as) :
    bs.foldl insertNew as = as := by
  induction bs with
  | nil => rfl
  | cons b bs ih =>
    obtain ⟨hb, hbs⟩ := List.forall_mem_cons.mp h
    rw [List.foldl_cons, insertNew_of_mem hb, ih hbs]

end

-- ---------------------------------------------------------------------------
-- Walks through calls
-- ---------------------------------------------------------------------------

namespace CallTrace

/-- Who makes the call. -/
def sender : CallTrace → Address
  | .call sender _ _ => sender

/-- Who is called. -/
def receiver : CallTrace → Address
  | .call _ receiver _ => receiver

/-- The calls made on behalf of the call itself, in order. -/
def subcalls : CallTrace → List CallTrace
  | .call _ _ subcalls => subcalls

/-- A call is the trace's own, or is made on behalf of one of its subcalls, at any depth. -/
inductive Includes : CallTrace → CallTrace → Prop where
  | self (t : CallTrace) : Includes t t
  | subcall {t s c : CallTrace} (hs : s ∈ t.subcalls) (hc : Includes s c) : Includes t c

mutual

/-- The walk through a trace: the parties of the call, then the walks through its subcalls from
the first to the last. -/
def walk : CallTrace → List Address
  | .call sender receiver subcalls => sender :: receiver :: walkAll subcalls

/-- The walks through calls, one after the other. -/
def walkAll : List CallTrace → List Address
  | [] => []
  | t :: ts => t.walk ++ walkAll ts

end

mutual

/-- Noting a call with its subcalls is noting what the walk through them meets. -/
theorem note_eq (t : CallTrace) (noted : List Address) :
    t.note noted = t.walk.foldl insertNew noted := by
  match t with
  | .call sender receiver subcalls =>
    rw [note, walk, List.foldl_cons, List.foldl_cons]
    exact noteAll_eq subcalls _

theorem noteAll_eq (ts : List CallTrace) (noted : List Address) :
    noteAll noted ts = (walkAll ts).foldl insertNew noted := by
  match ts with
  | [] => rfl
  | t :: ts => rw [noteAll, walkAll, List.foldl_append, noteAll_eq ts, note_eq t]

end

/-- A party of one of the calls that a trace includes. -/
def Involves (t : CallTrace) (a : Address) : Prop :=
  ∃ c, t.Includes c ∧ (a = c.sender ∨ a = c.receiver)

theorem involves_call {sender receiver : Address} {subcalls : List CallTrace} {a : Address} :
    (call sender receiver subcalls).Involves a ↔
      a = sender ∨ a = receiver ∨ ∃ s ∈ subcalls, s.Involves a := by
  constructor
  · rintro ⟨c, hc, ha⟩
    cases hc with
    | self => exact ha.imp_right .inl
    | subcall hs hc => exact .inr (.inr ⟨_, hs, c, hc, ha⟩)
  · rintro (rfl | rfl | ⟨s, hs, c, hc, ha⟩)
    · exact ⟨_, .self _, .inl rfl⟩
    · exact ⟨_, .self _, .inr rfl⟩
    · exact ⟨c, .subcall hs hc, ha⟩

mutual

/-- The walk meets the parties of every call, and nothing else. -/
theorem mem_walk (t : CallTrace) {a : Address} : a ∈ t.walk ↔ t.Involves a := by
  match t with
  | .call sender receiver subcalls =>
    rw [walk, List.mem_cons, List.mem_cons, mem_walkAll subcalls, involves_call]

theorem mem_walkAll (ts : List CallTrace) {a : Address} :
    a ∈ walkAll ts ↔ ∃ t ∈ ts, t.Involves a := by
  match ts with
  | [] => simp [walkAll]
  | t :: ts => rw [walkAll, List.mem_append, mem_walk t, mem_walkAll ts, List.exists_mem_cons_iff]

end

/-- What a trace touches is what the walk through it meets, each address once. -/
theorem touched_eq (t : CallTrace) : t.touched = t.walk.foldl insertNew [] := note_eq t []

end CallTrace

end ReplayVector
