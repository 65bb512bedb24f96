import ReplayVector.Proofs.Execution.Insists
import ReplayVector.Proofs.State.Masked
import ReplayVector.Proofs.Store.Answers

/-!
# Giving IDs to addresses

A registry starts with an empty map, gives IDs to addresses and is restricted to some of them, in any
order and over any store. What has happened to it says what its map has. No ID is given out twice,
although a restricted registry forgets whom it gave its IDs, because the counter is never set back. It
does go up when an ID could not be written, so a refusal leaves a gap.

* `Registry.Step`, `Registry.History`: what may happen to a registry.
* `Registry.Step.stores`, `Registry.Step.next_le`: what one call does to the map and the counter.
* `Registry.Accounted`, `Registry.accounted_of_history`: what a registry has after any of it.
* `Registry.Refused`, `Registry.next_of_refused`: the gap that refusals leave.
-/

namespace ReplayVector

open BlockM
open StoreAnswer (blocks Withheld)

namespace Registry

-- ---------------------------------------------------------------------------
-- Calls on known blocks
-- ---------------------------------------------------------------------------

section View

variable {view view' : View} {base : Hamt.Entries ActorId} {r r' : Registry} {a : Address}
  {id : ActorId} {ws : List Block}

/-- A new registry is written without a look. -/
theorem blind_create (name : String) : (create name).Blind := by
  refine Blind.bind ((Hamt.blind_flush packing .empty).context _) fun done => ?_
  trivial

theorem orderly_create (name : String) : (create name).Orderly := (blind_create name).orderly

/-- What comes of a computation is the same whatever a failure is called. -/
private theorem on_of_context {α : Type} {p : BlockM α} {c : Cause} {a : α} {ws : List Block}
    (h : (p.context c).on view = (.ok a, ws)) : p.on view = (.ok a, ws) := by
  rw [on_context] at h
  rcases hp : p.on view with ⟨e | a', ws'⟩
  · rw [hp] at h
    cases h
  · rw [hp] at h
    exact h

/-- A new registry has an empty map. -/
theorem stores_of_create {name : String} (h : (create name).on view = (.ok r, ws))
    (hsub : Hamt.Within view view') (hws : ∀ b ∈ ws, view' b.cid = some b.data) :
    Hamt.Stores True view' packing (fun _ => none) r.addressMap ∧ r.nextId = .firstFree ∧
      r.networkName = name := by
  obtain ⟨⟨c, m⟩, ws₁, ws₂, hflush, hdone, rfl⟩ := of_on_bind_ok h
  cases hdone
  exact ⟨(Hamt.represents_empty True view packing).of_flush packing_lawful hsub
    (on_of_context hflush) fun b hb => hws b (List.mem_append_left _ hb), rfl, rfl⟩

/-- A new registry has no entries, on every view with what it wrote. -/
theorem has_of_create {name : String} (h : (create name).on view = (.ok r, ws))
    (hsub : Hamt.Within view view') (hws : ∀ b ∈ ws, view' b.cid = some b.data) :
    r.Has True view' (fun _ => none) ∧ r.networkName = name := by
  obtain ⟨hstores, -, hname⟩ := stores_of_create h hsub hws
  exact ⟨⟨_, hstores, fun _ _ => rfl⟩, hname⟩

/-- Writes an entry to the map of a registry and gives the identifier of the new map. -/
def storeEntry (r : Registry) (a : Address) (id : ActorId) : BlockM Cid := do
  let map ← (← r.loadMap).set packing a.toBytes id |>.context .writingAddressMap
  let (addressMap, _) ← (map.flush packing).context .storingAddressMap
  return addressMap

/-- What comes of giving an ID to an address, once it is known whether the entry was written. -/
def settle (r : Registry) : Except Failure Cid → Except Failure ActorId × Registry
  | .ok addressMap => (.ok r.nextId, { r with nextId := r.nextId + 1, addressMap })
  | .error e => (.error e, { r with nextId := r.nextId + 1 })

/-- Giving an ID to an address: IDs and exhausted counters are turned down at once, otherwise an entry
is written. -/
theorem assign_cases (r : Registry) (a : Address) :
    (a.id? ≠ none ∧ r.assign a = pure (.error (.of (.mappingId a)), r)) ∨
    (a.id? = none ∧ r.nextId + 1 = 0 ∧ r.assign a = pure (.error .crash, r)) ∨
    (a.id? = none ∧ r.nextId + 1 ≠ 0 ∧
      r.assign a = (r.storeEntry a r.nextId).attempt >>= fun x => pure (r.settle x)) := by
  by_cases hid : a.id? = none
  · by_cases hroom : r.nextId + 1 = 0
    · refine Or.inr (Or.inl ⟨hid, hroom, ?_⟩)
      rw [assign, if_neg (by simp [hid]), if_pos hroom]
    · refine Or.inr (Or.inr ⟨hid, hroom, ?_⟩)
      rw [assign, if_neg (by simp [hid]), if_neg hroom]
      refine congrArg (_ >>= ·) (funext fun x => ?_)
      cases x <;> rfl
  · refine Or.inl ⟨hid, ?_⟩
    rw [assign, if_pos (by simpa [Option.isSome_iff_ne_none] using hid)]

/-- An entry is set in a map that was read, and then the map is written. -/
theorem orderly_storeEntry (r : Registry) (a : Address) (id : ActorId) :
    (r.storeEntry a id).Orderly := by
  refine r.quiet_loadMap.orderly_bind fun map => ?_
  refine ((Hamt.quiet_set packing map _ _).context _).orderly_bind fun map' => ?_
  exact Blind.orderly (Blind.bind ((Hamt.blind_flush packing map').context _) fun _ => trivial)

theorem orderly_assign (r : Registry) (a : Address) : (r.assign a).Orderly := by
  rcases r.assign_cases a with ⟨-, h⟩ | ⟨-, -, h⟩ | ⟨-, -, h⟩
  · rw [h]
    trivial
  · rw [h]
    trivial
  · rw [h]
    exact (r.orderly_storeEntry a r.nextId).attempt.bind fun _ => trivial

/-- Once an entry was written, the new map has it. -/
theorem stores_of_storeEntry (hstores : Hamt.Stores True view packing base r.addressMap) {c : Cid}
    (h : (r.storeEntry a id).on view = (.ok c, ws)) (hsub : Hamt.Within view view')
    (hws : ∀ b ∈ ws, view' b.cid = some b.data) :
    Hamt.Stores True view' packing (Function.update base a.toBytes (some id)) c := by
  obtain ⟨map, hload, hmap⟩ := hstores.gives_load
  have hload' : r.loadMap.Gives view map := hload.context _
  rw [storeEntry, hload'.on_bind] at h
  have hshort : a.toBytes.length < 2 ^ 64 := by
    have := a.length_toBytes_le
    omega
  -- a neat map has room for the entry, or nothing is stored
  rcases hmap.set hshort (Or.inl trivial) id with ⟨map', hset, hmap'⟩ | ⟨hfails, -⟩
  · rw [(hset.context _).on_bind] at h
    obtain ⟨⟨c', m⟩, ws₁, ws₂, hflush, hdone, rfl⟩ := of_on_bind_ok h
    cases hdone
    exact hmap'.of_flush packing_lawful hsub (on_of_context hflush) fun b hb =>
      hws b (List.mem_append_left _ hb)
  · obtain ⟨e, ws', he⟩ := (hfails.context .writingAddressMap).bind fun map' => do
      return (← (map'.flush packing).context .storingAddressMap).1
    rw [he] at h
    cases h

/-- Once an ID was given to an address, the new map has it. -/
theorem stores_of_assign (hstores : Hamt.Stores True view packing base r.addressMap)
    (h : (r.assign a).on view = (.ok (.ok id, r'), ws)) (hsub : Hamt.Within view view')
    (hws : ∀ b ∈ ws, view' b.cid = some b.data) :
    Hamt.Stores True view' packing (Function.update base a.toBytes (some id)) r'.addressMap ∧
      r'.networkName = r.networkName := by
  rcases r.assign_cases a with ⟨-, heq⟩ | ⟨-, -, heq⟩ | ⟨-, -, heq⟩
  · rw [heq] at h
    cases h
  · rw [heq] at h
    cases h
  · rw [heq] at h
    obtain ⟨x, ws₁, ws₂, hstored, hdone, rfl⟩ := of_on_bind_ok h
    cases x with
    | error e => cases hdone
    | ok c =>
      cases hdone
      rw [on_attempt] at hstored
      have hwritten : (r.storeEntry a r.nextId).on view = (.ok c, ws₁) := by
        injection hstored with hc hws₁
        exact Prod.ext (Except.ok.inj hc) hws₁
      exact ⟨stores_of_storeEntry hstores hwritten hsub fun b hb =>
        hws b (List.mem_append_left _ hb), rfl⟩

/-- Giving the next ID to an address. -/
theorem Has.of_assign {ids : Address → Option ActorId} (h : r.Has True view ids)
    (hassign : (r.assign a).on view = (.ok (.ok id, r'), ws)) (hsub : Hamt.Within view view')
    (hws : ∀ b ∈ ws, view' b.cid = some b.data) :
    r'.Has True view' (Function.update ids a (some id)) ∧ r'.networkName = r.networkName := by
  obtain ⟨base, hstores, hids⟩ := h
  obtain ⟨hstores', hname⟩ := stores_of_assign hstores hassign hsub hws
  refine ⟨⟨_, hstores', fun b hb => ?_⟩, hname⟩
  rw [Function.update_apply, Function.update_apply, hids b hb]
  -- addresses are told apart by their bytes
  by_cases hba : b = a
  · simp [hba]
  · have hne : b.toBytes ≠ a.toBytes := fun heq => hba (Address.toBytes_injective heq)
    simp [hba, hne]

/-- Looking an address up in a stored map. -/
theorem gives_resolve {neat : Prop} (hstores : Hamt.Stores neat view packing base r.addressMap)
    (ha : a.id? = none) : (r.resolve a).Gives view (base a.toBytes) := by
  obtain ⟨map, hload, hmap⟩ := hstores.gives_load
  obtain ⟨map', hget, -⟩ := hmap.gives_get? a.toBytes
  have hload' : r.loadMap.Gives view map := hload.context _
  rw [resolve, ha]
  exact hload'.bind ((hget.context _).bind (gives_pure view _))

end View

-- ---------------------------------------------------------------------------
-- Calls over a store
-- ---------------------------------------------------------------------------

/-- A new registry needs its block to be taken. -/
theorem insists_create (name : String) : (create name).Insists Failed := by
  refine ((writing_insists.flush packing .empty).context _).bind fun done => ?_
  trivial

/-- To resolve an address takes every block on the way to it. -/
theorem insists_resolve (r : Registry) (a : Address) : (r.resolve a).Insists Failed := by
  unfold resolve
  split
  · trivial
  · exact (reading_insists.loadMap r).bind fun map =>
      ((reading_insists.get? packing map a.toBytes).context _).bind fun _ => trivial

/-- To cut a registry down takes every block of it that is read or written. -/
theorem insists_restrict (r : Registry) (retain : List Address) :
    (r.restrict retain).Insists Failed := by
  refine (reading_insists.loadMap r).bind fun map => ?_
  refine (reading_insists.copyEntries retain map .empty).bind fun pruned => ?_
  exact ((writing_insists.flush packing pruned).context _).bind fun _ => trivial

theorem insists_storeEntry (r : Registry) (a : Address) (id : ActorId) :
    (r.storeEntry a id).Insists Failed := by
  refine (reading_insists.loadMap r).bind fun map => ?_
  refine ((reading_insists.set packing map a.toBytes id).context _).bind fun map' => ?_
  exact ((writing_insists.flush packing map').context _).bind fun _ => trivial

/-- Without a block that is asked for or written, no ID is given out. -/
theorem insists_assign (r : Registry) (a : Address) :
    (r.assign a).Insists fun x => ∃ e r', x = .ok (.error e, r') := by
  rcases r.assign_cases a with ⟨-, h⟩ | ⟨-, -, h⟩ | ⟨-, -, h⟩
  · rw [h]
    trivial
  · rw [h]
    trivial
  · rw [h]
    refine (r.insists_storeEntry a r.nextId).attempt.andThen (fun x => ?_) ?_
    · cases x <;> trivial
    · rintro _ ⟨e, rfl⟩
      exact ⟨_, rfl, e, _, rfl⟩

variable {σ : Type} {s : BlockStore (StateM σ)} {r r' : Registry} {a : Address} {id : ActorId}
  {log : List StoreAnswer}

/-- Whatever the store, the counter is left alone if the address is turned down at once, and goes up
otherwise, whether or not the entry could be written. -/
theorem of_ran_assign {x : Except Failure (Except Failure ActorId × Registry)}
    (h : Ran s (r.assign a) x log) :
    (a.id? ≠ none ∧ x = .ok (.error (.of (.mappingId a)), r)) ∨
    (a.id? = none ∧ r.nextId + 1 = 0 ∧ x = .ok (.error .crash, r)) ∨
    (a.id? = none ∧ r.nextId + 1 ≠ 0 ∧ ∃ stored, x = .ok (r.settle stored)) := by
  rcases r.assign_cases a with ⟨hid, heq⟩ | ⟨hid, hroom, heq⟩ | ⟨hid, hroom, heq⟩
  · rw [heq] at h
    exact Or.inl ⟨hid, h.eq_of_done.1.symm⟩
  · rw [heq] at h
    exact Or.inr (Or.inl ⟨hid, hroom, h.eq_of_done.1.symm⟩)
  · rw [heq] at h
    obtain ⟨x₁, log₁, log₂, htried, hsettled, -⟩ := Ran.of_andThen h
    obtain ⟨stored, log₃, log₄, -, hattempt, -⟩ := Ran.of_andThen htried
    obtain ⟨rfl, -⟩ := hattempt.eq_of_done
    exact Or.inr (Or.inr ⟨hid, hroom, stored, hsettled.eq_of_done.1.symm⟩)

/-- An assignment that succeeds gives out the next number and moves the counter on by one. -/
theorem of_ran_assign_ok (h : Ran s (r.assign a) (.ok (.ok id, r')) log) :
    a.id? = none ∧ r.nextId + 1 ≠ 0 ∧ id = r.nextId ∧ r'.nextId = r.nextId + 1 := by
  rcases of_ran_assign h with ⟨-, heq⟩ | ⟨-, -, heq⟩ | ⟨hid, hroom, stored, heq⟩
  · cases heq
  · cases heq
  · cases stored with
    | error e => cases heq
    | ok c =>
      cases heq
      exact ⟨hid, hroom, rfl, rfl⟩

/-- Cutting a registry down leaves the counter alone. -/
theorem of_ran_restrict {retain : List Address} (h : Ran s (r.restrict retain) (.ok r') log) :
    r'.nextId = r.nextId := by
  obtain ⟨map, log₁, log₂, -, h, -⟩ := h.of_bind_ok
  obtain ⟨pruned, log₃, log₄, -, h, -⟩ := h.of_bind_ok
  obtain ⟨stored, log₅, log₆, -, h, -⟩ := h.of_bind_ok
  cases h.eq_of_done.1
  rfl

-- ---------------------------------------------------------------------------
-- Histories
-- ---------------------------------------------------------------------------

/-- What may happen to a registry. -/
inductive Event where
  | assigned (a : Address) (id : ActorId)
  /-- No ID could be given to the address. -/
  | refused (a : Address)
  | restricted (retain : List Address)

namespace Event

/-- The event leaves the ID of the address alone. -/
def Spares (a : Address) : Event → Prop
  | assigned b _ => b ≠ a
  | refused _ => True
  | restricted retain => a ∈ retain

/-- What the event does to the entries of the map. -/
def alter : Event → Hamt.Entries ActorId → Hamt.Entries ActorId
  | assigned a id, base => Function.update base a.toBytes (some id)
  | refused _, base => base
  | restricted retain, base =>
    fun key => if ∃ a ∈ retain, a.id? = none ∧ key = a.toBytes then base key else none

end Event

/-- The entries that the map has after the events. -/
def entries (past : List Event) : Hamt.Entries ActorId :=
  past.foldl (fun base e => e.alter base) fun _ => none

/-- The address got the ID last, and has not been dropped since. -/
def Kept (past : List Event) (a : Address) (id : ActorId) : Prop :=
  ∃ before after, past = before ++ .assigned a id :: after ∧ ∀ e ∈ after, e.Spares a

/-- A call that changes a registry, over a store in any state. -/
inductive Step (s : BlockStore (StateM σ)) (r : Registry) :
    Event → Registry → List StoreAnswer → Prop
  | assigned {a : Address} {id : ActorId} {r' : Registry} {log : List StoreAnswer}
      (h : Ran s (r.assign a) (.ok (.ok id, r')) log) : Step s r (.assigned a id) r' log
  | refused {a : Address} {e : Failure} {r' : Registry} {log : List StoreAnswer}
      (h : Ran s (r.assign a) (.ok (.error e, r')) log) : Step s r (.refused a) r' log
  | restricted {retain : List Address} {r' : Registry} {log : List StoreAnswer}
      (h : Ran s (r.restrict retain) (.ok r') log) : Step s r (.restricted retain) r' log

/-- A registry that was created, and what has happened to it since. Whatever else happens to the store
in between does not matter. -/
inductive History (s : BlockStore (StateM σ)) :
    List Event → Registry → List StoreAnswer → Prop
  | created {name : String} {r : Registry} {log : List StoreAnswer}
      (h : Ran s (create name) (.ok r) log) : History s [] r log
  | step {past : List Event} {e : Event} {r r' : Registry} {log more : List StoreAnswer}
      (h : History s past r log) (hstep : Step s r e r' more) :
      History s (past ++ [e]) r' (log ++ more)

variable {past : List Event} {e : Event} {more : List StoreAnswer} {view : View}
  {base : Hamt.Entries ActorId}

/-! ## Single steps -/

/-- The counter stays or goes up by one, and then it has not been the last one. -/
theorem Step.next (h : Step s r e r' log) :
    r'.nextId = r.nextId ∨ r.nextId + 1 ≠ 0 ∧ r'.nextId = r.nextId + 1 := by
  cases h with
  | assigned h =>
    obtain ⟨-, hroom, -, hnext⟩ := of_ran_assign_ok h
    exact Or.inr ⟨hroom, hnext⟩
  | refused h =>
    rcases of_ran_assign h with ⟨-, heq⟩ | ⟨-, -, heq⟩ | ⟨-, hroom, stored, heq⟩
    · cases heq
      exact Or.inl rfl
    · cases heq
      exact Or.inl rfl
    · cases stored with
      | error e =>
        cases heq
        exact Or.inr ⟨hroom, rfl⟩
      | ok c => cases heq
  | restricted h => exact Or.inl (of_ran_restrict h)

private theorem toNat_add_one {n : ActorId} (h : n + 1 ≠ 0) : (n + 1).toNat = n.toNat + 1 := by
  have hne : (n + 1).toNat ≠ 0 := fun heq => h (UInt64.toNat.inj heq)
  have hlt := n.toNat_lt
  rw [UInt64.toNat_add, UInt64.toNat_one] at hne ⊢
  omega

/-- No step moves the counter back. -/
theorem Step.next_le (h : Step s r e r' log) : r.nextId ≤ r'.nextId := by
  rw [UInt64.le_iff_toNat_le]
  rcases h.next with heq | ⟨hroom, heq⟩
  · rw [heq]
  · rw [heq, toNat_add_one hroom]
    omega

/-- The ID that is given out is the counter, which goes up. -/
theorem Step.of_assigned (h : Step s r (.assigned a id) r' log) :
    a.id? = none ∧ id = r.nextId ∧ id < r'.nextId := by
  cases h with
  | assigned h =>
    obtain ⟨hid, hroom, rfl, hnext⟩ := of_ran_assign_ok h
    refine ⟨hid, rfl, ?_⟩
    rw [hnext, UInt64.lt_iff_toNat_lt, toNat_add_one hroom]
    omega

/-- The entries that were copied are those of the retained addresses. -/
private theorem Copied.eq_alter {retain : List Address} {f : Hamt.Entries ActorId}
    (h : Copied (fun a => base a.toBytes) retain f) : f = (Event.restricted retain).alter base := by
  funext key
  simp only [Event.alter]
  split
  · next hlisted =>
    obtain ⟨a, ha, hid, rfl⟩ := hlisted
    rw [h.apply a hid, if_pos ha]
  · next hlisted =>
    by_contra hne
    exact hlisted (h.listed key hne)

/-- On the blocks of the log, the new map is stored with the entries that the event leaves. -/
theorem Step.stores (h : Step s r e r' log) (hview : ∀ b ∈ blocks log, view b.cid = some b.data)
    (hstores : Hamt.Stores True view packing base r.addressMap) :
    Hamt.Stores True view packing (e.alter base) r'.addressMap := by
  have hsame : Hamt.Within view view := fun _ _ h => h
  cases h with
  | assigned h =>
    rcases (insists_assign _ _).of_ran h hview with ⟨ws, hon, hws⟩ | ⟨⟨e, r'', hmiss⟩, -⟩
    · exact (stores_of_assign hstores hon hsame fun b hb => hview b (hws b hb)).1
    · cases hmiss
  | refused h =>
    rcases of_ran_assign h with ⟨-, heq⟩ | ⟨-, -, heq⟩ | ⟨-, -, stored, heq⟩
    · cases heq
      exact hstores
    · cases heq
      exact hstores
    · cases stored with
      | error e =>
        cases heq
        exact hstores
      | ok c => cases heq
  | restricted h =>
    rename_i retain
    rcases (insists_restrict _ _).of_ran h hview with ⟨ws, hon, hws⟩ | ⟨⟨e, hmiss⟩, -⟩
    · rcases on_restrict hstores (fun a _ => rfl) retain with
        ⟨f, addressMap, ws', hcopied, hon', hstored⟩ | ⟨-, -, hneat⟩
      · rw [hon'] at hon
        cases hon
        rw [← hcopied.eq_alter]
        exact hstored view hsame fun b hb => hview b (hws b hb)
      · exact (hneat trivial).elim
    · cases hmiss

/-! ## Whole histories -/

/-- The entries after one more step are those before it, altered by the step. -/
theorem entries_append (past : List Event) (e : Event) :
    entries (past ++ [e]) = e.alter (entries past) := by
  rw [entries, List.foldl_append]
  rfl

/-- A number is kept after one more step if the step gives it out, or spares it. -/
theorem kept_append : Kept (past ++ [e]) a id ↔ e = .assigned a id ∨ e.Spares a ∧ Kept past a id := by
  constructor
  · rintro ⟨before, after, heq, hafter⟩
    rcases List.eq_nil_or_concat after with rfl | ⟨after', e', rfl⟩
    · exact Or.inl (List.singleton_inj.mp (List.append_inj' heq rfl).2)
    · rw [List.concat_eq_append, ← List.cons_append, ← List.append_assoc] at heq
      obtain ⟨rfl, hlast⟩ := List.append_inj' heq rfl
      obtain rfl := List.singleton_inj.mp hlast
      exact Or.inr ⟨hafter e (by simp), before, after', rfl, fun e' he' => hafter e' (by simp [he'])⟩
  · rintro (rfl | ⟨he, before, after, rfl, hafter⟩)
    · exact ⟨past, [], rfl, by simp⟩
    · refine ⟨before, after ++ [e], by simp, fun e' he' => ?_⟩
      rcases List.mem_append.mp he' with he' | he'
      · exact hafter e' he'
      · obtain rfl := List.mem_singleton.mp he'
        exact he

theorem Kept.mem (h : Kept past a id) : .assigned a id ∈ past := by
  obtain ⟨before, after, rfl, -⟩ := h
  simp

/-- The counter starts at the first number that is free. -/
theorem History.first_le (h : History s past r log) : .firstFree ≤ r.nextId := by
  induction h with
  | created h =>
    obtain ⟨x, log₁, log₂, -, h, -⟩ := h.of_bind_ok
    cases h.eq_of_done.1
    exact UInt64.le_refl _
  | step h hstep ih => exact UInt64.le_trans ih hstep.next_le

/-- The IDs that have been given out lie between the first one and the counter. -/
theorem History.bounds (h : History s past r log) (hmem : .assigned a id ∈ past) :
    .firstFree ≤ id ∧ id < r.nextId := by
  induction h with
  | created h => cases hmem
  | step h hstep ih =>
    rcases List.mem_append.mp hmem with hmem | hmem
    · obtain ⟨hlow, hhigh⟩ := ih hmem
      exact ⟨hlow, UInt64.lt_of_lt_of_le hhigh hstep.next_le⟩
    · obtain rfl := List.mem_singleton.mp hmem
      obtain ⟨-, rfl, hhigh⟩ := hstep.of_assigned
      exact ⟨h.first_le, hhigh⟩

/-- An ID has been given to one address only. -/
theorem History.unique (h : History s past r log) {a' : Address} (hmem : .assigned a id ∈ past)
    (hmem' : .assigned a' id ∈ past) : a = a' := by
  induction h with
  | created h => cases hmem
  | step h hstep ih =>
    -- what is given out now is the counter, and all before are below it
    rename_i past e _ _ _ _
    have hnew {b b' : Address} (hold : .assigned b id ∈ past) (hlast : .assigned b' id ∈ [e]) :
        False := by
      obtain rfl := List.mem_singleton.mp hlast
      have hlt := (h.bounds hold).2
      rw [hstep.of_assigned.2.1] at hlt
      exact UInt64.lt_irrefl _ hlt
    rcases List.mem_append.mp hmem with hold | hlast
    · rcases List.mem_append.mp hmem' with hold' | hlast'
      · exact ih hold hold'
      · exact (hnew hold hlast').elim
    · rcases List.mem_append.mp hmem' with hold' | hlast'
      · exact (hnew hold' hlast).elim
      · have heq := (List.mem_singleton.mp hlast).trans (List.mem_singleton.mp hlast').symm
        exact (Event.assigned.inj heq).1

/-- The map has the IDs that were kept, under the bytes of the addresses. -/
theorem History.entries_eq_some_iff (h : History s past r log) {key : Bytes} :
    entries past key = some id ↔ ∃ a, a.id? = none ∧ key = a.toBytes ∧ Kept past a id := by
  induction h generalizing id with
  | created h =>
    refine ⟨fun heq => (by cases heq), ?_⟩
    rintro ⟨a, -, -, hkept⟩
    cases hkept.mem
  | step h hstep ih =>
    rename_i past e _ _ _ _
    rw [entries_append]
    simp only [kept_append]
    cases e with
    | assigned b j =>
      rw [Event.alter, Function.update_apply]
      split
      · next hkey =>
        obtain ⟨hid, -, -⟩ := hstep.of_assigned
        constructor
        · rintro heq
          obtain rfl := Option.some.inj heq
          exact ⟨b, hid, hkey, Or.inl rfl⟩
        · rintro ⟨a, -, rfl, heq | ⟨hother, -⟩⟩
          · rw [(Event.assigned.inj heq).2]
          · exact (hother (Address.toBytes_injective hkey).symm).elim
      · next hkey =>
        rw [ih]
        constructor
        · rintro ⟨a, hid, rfl, hkept⟩
          exact ⟨a, hid, rfl, Or.inr ⟨fun heq => hkey (heq ▸ rfl), hkept⟩⟩
        · rintro ⟨a, hid, rfl, heq | ⟨-, hkept⟩⟩
          · exact (hkey (by rw [(Event.assigned.inj heq).1])).elim
          · exact ⟨a, hid, rfl, hkept⟩
    | refused b =>
      rw [Event.alter, ih]
      simp [Event.Spares]
    | restricted retain =>
      simp only [Event.alter, Event.Spares, reduceCtorEq, false_or]
      split
      · next hlisted =>
        obtain ⟨b, hb, -, rfl⟩ := hlisted
        rw [ih]
        constructor
        · rintro ⟨a, hid, heq, hkept⟩
          obtain rfl := Address.toBytes_injective heq
          exact ⟨b, hid, rfl, hb, hkept⟩
        · rintro ⟨a, hid, heq, -, hkept⟩
          exact ⟨a, hid, heq, hkept⟩
      · next hlisted =>
        refine ⟨fun heq => (by cases heq), ?_⟩
        rintro ⟨a, hid, rfl, ha, -⟩
        exact (hlisted ⟨a, ha, hid, rfl⟩).elim

/-- On the blocks of the log, the map is stored with the entries that are left. -/
theorem History.stores (h : History s past r log)
    (hview : ∀ b ∈ blocks log, view b.cid = some b.data) :
    Hamt.Stores True view packing (entries past) r.addressMap := by
  induction h with
  | created h =>
    rcases (insists_create _).of_ran h hview with ⟨ws, hon, hws⟩ | ⟨⟨e, hmiss⟩, -⟩
    · exact (stores_of_create hon (fun _ _ h => h) fun b hb => hview b (hws b hb)).1
    · cases hmiss
  | step h hstep ih =>
    rw [StoreAnswer.blocks_append] at hview
    rw [entries_append]
    exact hstep.stores (fun b hb => hview b (List.mem_append_right _ hb))
      (ih fun b hb => hview b (List.mem_append_left _ hb))

/-- What a registry has, is about to give out, and answers. -/
structure Accounted (s : BlockStore (StateM σ)) (past : List Event) (r : Registry)
    (log : List StoreAnswer) : Prop where
  /-- The map is stored, among the blocks that were written or given out. -/
  stored : Hamt.Stores True (StoreAnswer.view log) packing (entries past) r.addressMap
  kept : ∀ key id, entries past key = some id ↔ ∃ a, a.id? = none ∧ key = a.toBytes ∧ Kept past a id
  bounds : ∀ key id, entries past key = some id → .firstFree ≤ id ∧ id < r.nextId
  distinct : ∀ key key' id, entries past key = some id → entries past key' = some id → key = key'
  /-- The next call does not set the counter back. -/
  grows : ∀ e r' more, Step s r e r' more → r.nextId ≤ r'.nextId
  /-- What it gives out has not been given to any address, whether or not that was kept. -/
  fresh : ∀ a id r' more, Step s r (.assigned a id) r' more → ∀ b, .assigned b id ∉ past
  /-- An address stands for the ID that was kept for it, unless the store withholds a block that it has
  given out or taken before. -/
  resolves : ∀ a x more, a.id? = none → Ran s (r.resolve a) x more →
    CollisionFree (fun b => b ∈ blocks (log ++ more)) →
      (∃ found, x = .ok found ∧ ∀ id, found = some id ↔ Kept past a id) ∨
      Failed x ∧ ∃ b ∈ blocks log, Withheld more b.cid

/-- As long as no two blocks involved share an identifier, a registry that was created has what was
kept since, and never mixes addresses up. -/
theorem accounted_of_history (h : History s past r log)
    (hfree : CollisionFree fun b => b ∈ blocks log) : Accounted s past r log where
  stored := h.stores fun _ hb => StoreAnswer.view_of_mem hfree hb
  kept := fun _ _ => h.entries_eq_some_iff
  bounds := by
    intro key id hkey
    obtain ⟨a, -, -, hkept⟩ := h.entries_eq_some_iff.mp hkey
    exact h.bounds hkept.mem
  distinct := by
    intro key key' id hkey hkey'
    obtain ⟨a, -, rfl, hkept⟩ := h.entries_eq_some_iff.mp hkey
    obtain ⟨a', -, rfl, hkept'⟩ := h.entries_eq_some_iff.mp hkey'
    rw [h.unique hkept.mem hkept'.mem]
  grows := fun _ _ _ hstep => hstep.next_le
  fresh := by
    intro a id r' more hstep b hmem
    have hlt := (h.bounds hmem).2
    rw [hstep.of_assigned.2.1] at hlt
    exact UInt64.lt_irrefl _ hlt
  resolves := by
    intro a x more ha hran hfree'
    have hstores := h.stores fun _ hb => StoreAnswer.view_of_mem hfree hb
    have hgives := gives_resolve hstores ha
    refine ((insists_resolve r a).of_ran_known hgives (by simp [Failed]) hran hfree').imp_left ?_
    rintro rfl
    refine ⟨_, rfl, fun id => ?_⟩
    rw [h.entries_eq_some_iff]
    constructor
    · rintro ⟨a', -, heq, hkept⟩
      rwa [Address.toBytes_injective heq]
    · exact fun hkept => ⟨a, ha, rfl, hkept⟩

/-! ## Two accounts -/

/-- The account of a made-up key. -/
def sampleHolder (i : UInt8) : Address := .ofPublicKey (List.replicate 65 i)

set_option maxRecDepth 20000 in
/-- One account gets an ID and is dropped, then another one gets the next ID. -/
private theorem sampleHistory_facts :
    (match Memory.empty.execLogged (create "testnet") with
      | ((.ok r₀, log₀), m₀) =>
        match m₀.execLogged (r₀.assign (sampleHolder 1)) with
        | ((.ok (.ok id₁, r₁), log₁), m₁) =>
          match m₁.execLogged (r₁.restrict []) with
          | ((.ok r₂, log₂), m₂) =>
            match m₂.execLogged (r₂.assign (sampleHolder 2)) with
            | ((.ok (.ok id₃, _), log₃), _) =>
              id₁ == 100 && id₃ == 101 &&
                Block.areDistinct (blocks (log₀ ++ log₁ ++ log₂ ++ log₃))
            | _ => false
          | _ => false
        | _ => false
      | _ => false) = true := by
  decide +kernel

/-- The registry of two accounts one of which was dropped. -/
theorem accounted_of_two_accounts :
    ∃ r log, History Memory.store
        [.assigned (sampleHolder 1) 100, .restricted [], .assigned (sampleHolder 2) 101] r log ∧
      Accounted Memory.store
        [.assigned (sampleHolder 1) 100, .restricted [], .assigned (sampleHolder 2) 101] r log := by
  have hfacts := sampleHistory_facts
  split at hfacts
  · next r₀ log₀ m₀ hcreate =>
    split at hfacts
    · next id₁ r₁ log₁ m₁ hfirst =>
      split at hfacts
      · next r₂ log₂ m₂ hrestrict =>
        split at hfacts
        · next id₃ r₃ log₃ m₃ hsecond =>
          simp only [Bool.and_eq_true, beq_iff_eq] at hfacts
          obtain ⟨⟨rfl, rfl⟩, hdistinct⟩ := hfacts
          have hhistory := (((History.created (Memory.ran_of_execLogged hcreate)).step
            (.assigned (Memory.ran_of_execLogged hfirst))).step
            (.restricted (Memory.ran_of_execLogged hrestrict))).step
            (.assigned (Memory.ran_of_execLogged hsecond))
          exact ⟨r₃, _, hhistory, accounted_of_history hhistory (.of_areDistinct hdistinct)⟩
        · cases hfacts
      · cases hfacts
    · cases hfacts
  · cases hfacts

-- ---------------------------------------------------------------------------
-- Refusals
-- ---------------------------------------------------------------------------

/-- Calls that were all refused, one after the other. -/
inductive Refused (s : BlockStore (StateM σ)) : List Address → Registry → Registry → Prop
  | none {r : Registry} : Refused s [] r r
  | first {a : Address} {as : List Address} {e : Failure} {r r' r'' : Registry}
      {log : List StoreAnswer} (h : Ran s (r.assign a) (.ok (.error e, r')) log)
      (he : e ≠ .crash) (hrest : Refused s as r' r'') : Refused s (a :: as) r r''

/-- A refusal leaves all but the counter, and the counter only if the address was turned down at
once. -/
theorem of_ran_assign_error {e : Failure} (h : Ran s (r.assign a) (.ok (.error e, r')) log)
    (he : e ≠ .crash) : r'.addressMap = r.addressMap ∧ r'.networkName = r.networkName ∧
      r'.nextId.toNat = r.nextId.toNat + if a.id? = none then 1 else 0 := by
  rcases of_ran_assign h with ⟨hid, heq⟩ | ⟨-, -, heq⟩ | ⟨hid, hroom, stored, heq⟩
  · cases heq
    rw [if_neg hid]
    exact ⟨rfl, rfl, rfl⟩
  · cases heq
    exact (he rfl).elim
  · cases stored with
    | error e =>
      cases heq
      rw [if_pos hid]
      exact ⟨rfl, rfl, toNat_add_one hroom⟩
    | ok c => cases heq

/-- Refusals leave the map and the name of the network alone. The counter goes up with each address
that could have had an ID, so the next ID that is given out is not the one that was refused first. -/
theorem next_of_refused {as : List Address} (h : Refused s as r r') :
    r'.addressMap = r.addressMap ∧ r'.networkName = r.networkName ∧
      r'.nextId.toNat = r.nextId.toNat + as.countP (fun a => a.id? = none) ∧
      ∀ a id r'' log, Ran s (r'.assign a) (.ok (.ok id, r'')) log →
        id.toNat = r.nextId.toNat + as.countP (fun a => a.id? = none) := by
  have hnext : r'.addressMap = r.addressMap ∧ r'.networkName = r.networkName ∧
      r'.nextId.toNat = r.nextId.toNat + as.countP (fun a => a.id? = none) := by
    induction h with
    | none => exact ⟨rfl, rfl, rfl⟩
    | first h he hrest ih =>
      obtain ⟨hmap, hname, hcount⟩ := of_ran_assign_error h he
      obtain ⟨hmap', hname', hcount'⟩ := ih
      refine ⟨hmap'.trans hmap, hname'.trans hname, ?_⟩
      rw [hcount', hcount, List.countP_cons]
      simp only [decide_eq_true_eq]
      omega
  refine ⟨hnext.1, hnext.2.1, hnext.2.2, fun a id r'' log hran => ?_⟩
  obtain ⟨-, -, rfl, -⟩ := of_ran_assign_ok hran
  exact hnext.2.2

/-- A registry whose map is not stored. -/
def unstored : Registry := ⟨.ofDagCbor [], .firstFree, "testnet"⟩

private theorem ran_assign_unstored : Ran Memory.store (unstored.assign (sampleHolder 1))
    (.ok (.error (.because [.loadingAddressMap, .unworded]), { unstored with nextId := 101 }))
    [.got (.ofDagCbor []) (.ok none)] :=
  ⟨.empty, .empty, rfl⟩

/-- One address is refused as the map is not stored, the other one as it is an ID. -/
theorem next_of_refused_twice :
    Refused Memory.store [sampleHolder 1, .id 5] unstored { unstored with nextId := 101 } ∧
      ∀ a id r'' log, Ran Memory.store (assign { unstored with nextId := 101 } a) (.ok (.ok id, r''))
        log → id.toNat = 101 := by
  have hrefused : Refused Memory.store [sampleHolder 1, .id 5] unstored
      { unstored with nextId := 101 } :=
    .first ran_assign_unstored (by simp) (.first ⟨.empty, .empty, rfl⟩ (by simp [Failure.of]) .none)
  exact ⟨hrefused, (next_of_refused hrefused).2.2.2⟩

/-- Giving an ID to an address may fail and change the registry all the same. -/
theorem not_unchanged_of_refused : ¬∀ (r : Registry) (a : Address) (m m' : Memory) (e : Failure)
    (r' : Registry), m.exec (r.assign a) = (.ok (.error e, r'), m') → r' = r := by
  intro h
  have hnext : Memory.empty.exec (unstored.assign (sampleHolder 1)) =
      (.ok (.error (.because [.loadingAddressMap, .unworded]), { unstored with nextId := 101 }), .empty) := rfl
  have heq := congrArg nextId (h _ _ _ _ _ _ hnext)
  exact absurd heq (by decide)

end Registry

end ReplayVector
