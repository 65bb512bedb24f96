import ReplayVector.Proofs.Store.Calls
import ReplayVector.Proofs.Store.Stores

/-!
# A store that reads through is coherent

Nothing is known of the source behind a store that reads through: it may answer the same question
differently each time, give wrong bytes or none at all. Still the store never changes its mind. It
checks what it fetches before it keeps it, and what it keeps or was given it stays with.

* `ReadThrough.Got`: all that a read can come to.
* `ReadThrough.Step`: all that a call can do.
* `ReadThrough.coherent_after`: what holds after any calls, over any source.
-/

namespace ReplayVector.ReadThrough

open StoreCall (lastPut?)

variable {σ : Type} {readBlock : Cid → StateM σ (Except Failure Bytes)}

-- ---------------------------------------------------------------------------
-- What a read can come to
-- ---------------------------------------------------------------------------

/-- A read of a block by a store that holds the memory `m`, with its source at `ch`: what it is
answered, and where it leaves the memory and the source. -/
inductive Got (readBlock : Cid → StateM σ (Except Failure Bytes)) (k : Cid) (m : Memory) (ch : σ) :
    Except Failure (Option Bytes) → Memory → σ → Prop
  | inline (hid : k.isIdentity = true) : Got readBlock k m ch (.ok (some k.hash.digest.val)) m ch
  | held {data : Bytes} (hid : k.isIdentity = false) (hm : m.get? k = some data) :
      Got readBlock k m ch (.ok (some data)) m ch
  | refused (hid : k.isIdentity = false) (hm : m.get? k = none)
      (hread : ∀ data, (readBlock k ch).1 = .ok data → (⟨k, data⟩ : Block).verify ≠ .ok ())
      (e : Failure) : Got readBlock k m ch (.error e) m (readBlock k ch).2
  | fetched {data : Bytes} (hid : k.isIdentity = false) (hm : m.get? k = none)
      (hread : (readBlock k ch).1 = .ok data) (hverify : (⟨k, data⟩ : Block).verify = .ok ()) :
      Got readBlock k m ch (.ok (some data)) (m.put ⟨k, data⟩) (readBlock k ch).2

/-- Every read comes to one of these. -/
theorem got_of_get {k : Cid} {m m' : Memory} {ch ch' : σ} {a : Except Failure (Option Bytes)}
    (h : (store readBlock).get k m ch = ((a, m'), ch')) : Got readBlock k m ch a m' ch' := by
  cases hid : k.isIdentity with
  | true =>
    rw [get_identity hid] at h
    cases h
    exact .inline hid
  | false =>
    rw [get_eq readBlock hid] at h
    cases hm : m.get? k with
    | some data =>
      rw [hm] at h
      cases h
      exact .held hid hm
    | none =>
      rw [hm, fetch_eq] at h
      cases hread : (readBlock k ch).1 with
      | error e =>
        rw [hread] at h
        cases h
        exact .refused hid hm (by simp [hread]) _
      | ok data =>
        rw [hread] at h
        cases hverify : (⟨k, data⟩ : Block).verify with
        | error e =>
          simp only [hverify] at h
          cases h
          exact .refused hid hm (by simp [hread, hverify]) _
        | ok u =>
          simp only [hverify] at h
          cases h
          exact .fetched hid hm hread hverify

section Outcomes

variable {k : Cid} {m m' : Memory} {ch ch' : σ}

/-- A block that could not be fetched is a failure, never missing. -/
theorem Got.ne_none {a : Except Failure (Option Bytes)} (h : Got readBlock k m ch a m' ch') :
    a ≠ .ok none := by
  cases h <;> nofun

/-- A read goes well if the block is inline or held, or the source gives it. -/
theorem Got.isOk_iff {a : Except Failure (Option Bytes)} (h : Got readBlock k m ch a m' ch') :
    a.isOk = true ↔ k.isIdentity = true ∨ (m.get? k).isSome = true ∨
      ∃ data, (readBlock k ch).1 = .ok data ∧ (⟨k, data⟩ : Block).verify = .ok () := by
  cases h with
  | inline hid => exact iff_of_true rfl (.inl hid)
  | held hid hm => exact iff_of_true rfl (.inr (.inl (by rw [hm]; rfl)))
  | fetched hid hm hread hverify => exact iff_of_true rfl (.inr (.inr ⟨_, hread, hverify⟩))
  | refused hid hm hread e =>
    refine iff_of_false Bool.false_ne_true ?_
    rintro (hid' | hm' | ⟨data, hdata, hverify⟩)
    · rw [hid] at hid'
      cases hid'
    · rw [hm] at hm'
      cases hm'
    · exact hread data hdata hverify

/-- A read that failed leaves the memory alone. -/
theorem Got.memory_of_error {e : Failure} (h : Got readBlock k m ch (.error e) m' ch') :
    m' = m := by
  cases h
  rfl

/-- A read asks for its own block, if it asks at all. -/
theorem Got.asks {a : Except Failure (Option Bytes)} (h : Got readBlock k m ch a m' ch') :
    ch' = ch ∨ ch' = (readBlock k ch).2 := by
  cases h with
  | inline => exact .inl rfl
  | held => exact .inl rfl
  | refused => exact .inr rfl
  | fetched => exact .inr rfl

end Outcomes

-- ---------------------------------------------------------------------------
-- What a call can do
-- ---------------------------------------------------------------------------

/-- A call takes a store and its source from one state to another. -/
inductive Step (readBlock : Cid → StateM σ (Except Failure Bytes)) :
    StoreCall → Memory → σ → Memory → σ → Prop
  | read {call : StoreCall} {k : Cid} {m m' : Memory} {ch ch' : σ}
      {a : Except Failure (Option Bytes)} (hcall : call = .get k ∨ call = .has k)
      (h : Got readBlock k m ch a m' ch') : Step readBlock call m ch m' ch'
  | put (b : Block) (m : Memory) (ch : σ) : Step readBlock (.put b) m ch (m.put b) ch

/-- Where a store and its source stand after some calls. -/
def after (readBlock : Cid → StateM σ (Except Failure Bytes)) (calls : List StoreCall) (m : Memory)
    (ch : σ) : Memory × σ :=
  let ended := StoreCall.performAll (store readBlock) calls m ch
  (ended.1.2, ended.2)

/-- Calls are made one after the other. -/
theorem after_cons (call : StoreCall) (calls : List StoreCall) (m : Memory) (ch : σ) :
    after readBlock (call :: calls) m ch =
      after readBlock calls (after readBlock [call] m ch).1 (after readBlock [call] m ch).2 := by
  unfold after StoreCall.performAll
  rw [List.mapM_cons, List.mapM_cons]
  rfl

/-- Every call is a step. -/
theorem step_after (call : StoreCall) (m : Memory) (ch : σ) :
    Step readBlock call m ch (after readBlock [call] m ch).1 (after readBlock [call] m ch).2 := by
  cases call with
  | get k => exact .read (.inl rfl) (got_of_get rfl)
  | has k =>
    have hget : Got readBlock k m ch _ _ _ := got_of_get rfl
    have hhas : after readBlock [.has k] m ch =
        (((store readBlock).has k m ch).1.2, ((store readBlock).has k m ch).2) := rfl
    rw [hhas, has_eq]
    exact .read (.inr rfl) hget
  | put b => exact .put b m ch

-- ---------------------------------------------------------------------------
-- What a store holds
-- ---------------------------------------------------------------------------

/-- The memory holds what was written last, and beside it only blocks that were checked. -/
structure Grounded (calls : List StoreCall) (m : Memory) : Prop where
  written : ∀ k data, lastPut? k calls = some data → m.get? k = some data
  checked : ∀ k data, lastPut? k calls = none → m.get? k = some data →
    (⟨k, data⟩ : Block).verify = .ok ()

namespace Grounded

variable {calls : List StoreCall} {m : Memory}

/-- A call that writes nothing and fetches nothing leaves everything as it is. -/
private theorem keep {call : StoreCall} (h : Grounded calls m) (hcall : ∀ k, call.put? k = none) :
    Grounded (calls ++ [call]) m := by
  have hlast (k : Cid) : lastPut? k (calls ++ [call]) = lastPut? k calls := by
    rw [StoreCall.lastPut?_concat, hcall]
    rfl
  exact ⟨fun k data hk => h.written k data (hlast k ▸ hk),
    fun k data hk => h.checked k data (hlast k ▸ hk)⟩

/-- A block that is not held was not written, so it may be fetched. -/
private theorem fetch {k : Cid} {data : Bytes} (h : Grounded calls m) (hm : m.get? k = none)
    (hverify : (⟨k, data⟩ : Block).verify = .ok ()) : Grounded calls (m.put ⟨k, data⟩) where
  written k' data' hk := by
    have hheld := h.written k' data' hk
    have hne : k ≠ k' := by
      rintro rfl
      rw [hm] at hheld
      cases hheld
    rw [Memory.get?_put, if_neg hne]
    exact hheld
  checked k' data' hk hheld := by
    rw [Memory.get?_put] at hheld
    split at hheld
    · next heq =>
      cases hheld
      cases heq
      exact hverify
    · exact h.checked k' data' hk hheld

/-- A block that was put is one of the calls. -/
private theorem put (h : Grounded calls m) (b : Block) :
    Grounded (calls ++ [.put b]) (m.put b) := by
  have hlast (k : Cid) : lastPut? k (calls ++ [.put b]) =
      if b.cid = k then some b.data else lastPut? k calls := by
    rw [StoreCall.lastPut?_concat, StoreCall.put?]
    split <;> rfl
  constructor
  · intro k data hk
    rw [hlast] at hk
    rw [Memory.get?_put]
    split at hk
    · exact (if_pos ‹_›).trans hk
    · exact (if_neg ‹_›).trans (h.written k data hk)
  · intro k data hk hm
    rw [hlast] at hk
    rw [Memory.get?_put] at hm
    split at hk
    · cases hk
    · exact h.checked k data hk ((if_neg ‹_›).symm.trans hm)

/-- The calls made so far are one more after each step. -/
theorem step {call : StoreCall} {m' : Memory} {ch ch' : σ} (h : Grounded calls m)
    (hstep : Step readBlock call m ch m' ch') : Grounded (calls ++ [call]) m' := by
  cases hstep with
  | put b => exact h.put b
  | read hcall hgot =>
    have hsame : Grounded (calls ++ [call]) m :=
      h.keep (by rcases hcall with rfl | rfl <;> exact fun _ => rfl)
    cases hgot with
    | inline => exact hsame
    | held => exact hsame
    | refused => exact hsame
    | fetched _ hm _ hverify => exact hsame.fetch hm hverify

/-- Whatever was called before, what is held came of a call. -/
theorem run (h : Grounded calls m) (ch : σ) (later : List StoreCall) :
    Grounded (calls ++ later) (after readBlock later m ch).1 := by
  induction later generalizing calls m ch with
  | nil =>
    rw [List.append_nil]
    exact h
  | cons call later ih =>
    rw [after_cons, ← List.singleton_append, ← List.append_assoc]
    exact ih (h.step (step_after call m ch)) _

end Grounded

/-- Nothing has been written to a store that holds nothing. -/
theorem grounded_empty : Grounded [] .empty where
  written _ _ hk := by cases hk
  checked _ _ _ hm := by cases hm

/-- It is settled which bytes the store gives for an identifier. -/
def Settled (k : Cid) (data : Bytes) (m : Memory) : Prop :=
  if k.isIdentity then data = k.hash.digest.val else m.get? k = some data

/-- A block that was got is held. -/
theorem Settled.of_got {k : Cid} {data : Bytes} {m m' : Memory} {ch ch' : σ}
    (h : Got readBlock k m ch (.ok (some data)) m' ch') : Settled k data m' := by
  cases h with
  | inline hid => exact (if_pos hid).mpr rfl
  | held hid hm => exact (if_neg (Bool.eq_false_iff.mp hid)).mpr hm
  | fetched hid =>
    refine (if_neg (Bool.eq_false_iff.mp hid)).mpr ?_
    rw [Memory.get?_put, if_pos rfl]

/-- It stays held unless another one is put in its place. -/
theorem Settled.step {k : Cid} {data : Bytes} {call : StoreCall} {m m' : Memory} {ch ch' : σ}
    (h : Settled k data m) (hcall : call.put? k = none) (hstep : Step readBlock call m ch m' ch') :
    Settled k data m' := by
  unfold Settled at h ⊢
  split at h
  · rwa [if_pos ‹_›]
  · rw [if_neg ‹_›]
    -- a write goes to another identifier, and what is fetched was not held
    cases hstep with
    | put b =>
      have hne : b.cid ≠ k := by
        intro heq
        rw [StoreCall.put?, if_pos heq] at hcall
        cases hcall
      rw [Memory.get?_put, if_neg hne]
      exact h
    | read _ hgot =>
      cases hgot with
      | inline => exact h
      | held => exact h
      | refused => exact h
      | fetched hid hm =>
        rw [Memory.get?_put, if_neg (by rintro rfl; rw [hm] at h; cases h)]
        exact h

/-- And so on through later calls. -/
theorem Settled.run {k : Cid} {data : Bytes} {calls : List StoreCall} {m : Memory} {ch : σ}
    (h : Settled k data m) (hcalls : ∀ call ∈ calls, call.put? k = none) :
    Settled k data (after readBlock calls m ch).1 := by
  induction calls generalizing m ch with
  | nil => exact h
  | cons call calls ih =>
    obtain ⟨hcall, hcalls⟩ := List.forall_mem_cons.mp hcalls
    rw [after_cons]
    exact ih (h.step hcall (step_after call m ch)) hcalls

/-- Once it is settled, no source is asked. -/
theorem Settled.get {k : Cid} {data : Bytes} {m : Memory} (h : Settled k data m) (ch : σ) :
    (store readBlock).get k m ch = ((.ok (some data), m), ch) := by
  unfold Settled at h
  split at h
  · next hid =>
    rw [h]
    exact get_identity hid m ch
  · next hid =>
    rw [get_eq readBlock (Bool.eq_false_iff.mpr hid), h]

-- ---------------------------------------------------------------------------
-- The source
-- ---------------------------------------------------------------------------

/-- What no read of the source changes, no call changes. -/
theorem view_step {τ : Type} {view : σ → τ} (hview : ∀ k ch, view (readBlock k ch).2 = view ch)
    {call : StoreCall} {m m' : Memory} {ch ch' : σ} (hstep : Step readBlock call m ch m' ch') :
    view ch' = view ch := by
  cases hstep with
  | put b => rfl
  | read _ hgot =>
    rcases hgot.asks with rfl | rfl
    · rfl
    · exact hview _ ch

/-- What answering does not change in the source, no call changes. -/
theorem view_after {τ : Type} {view : σ → τ} (hview : ∀ k ch, view (readBlock k ch).2 = view ch)
    (calls : List StoreCall) (m : Memory) (ch : σ) :
    view (after readBlock calls m ch).2 = view ch := by
  induction calls generalizing m ch with
  | nil => rfl
  | cons call calls ih => rw [after_cons, ih, view_step hview (step_after call m ch)]

-- ---------------------------------------------------------------------------
-- Coherence
-- ---------------------------------------------------------------------------

/-- The bytes that may be given for an identifier after some calls: those that it holds inline, or
else those that were written last, or else any that it is the identifier of. -/
def Due (calls : List StoreCall) (k : Cid) (data : Bytes) : Prop :=
  if k.isIdentity then data = k.hash.digest.val
  else match lastPut? k calls with
    | some written => data = written
    | none => (⟨k, data⟩ : Block).verify = .ok ()

/-- A block that was got is what a call put or what the source supplied and was verified. -/
theorem Grounded.due {calls : List StoreCall} {k : Cid} {data : Bytes} {m m' : Memory} {ch ch' : σ}
    (h : Grounded calls m) (hgot : Got readBlock k m ch (.ok (some data)) m' ch') :
    Due calls k data := by
  unfold Due
  cases hgot with
  | inline hid => rw [if_pos hid]
  | held hid hm =>
    rw [if_neg (Bool.eq_false_iff.mp hid)]
    cases hlast : lastPut? k calls with
    | none => exact h.checked k data hlast hm
    | some written =>
      rw [h.written k written hlast] at hm
      exact (Option.some.inj hm).symm
  | fetched hid hm _ hverify =>
    rw [if_neg (Bool.eq_false_iff.mp hid)]
    cases hlast : lastPut? k calls with
    | none => exact hverify
    | some written =>
      rw [h.written k written hlast] at hm
      cases hm

/-- What a store that reads through does next, after some calls that left it with the memory `m`
and its source at `ch`. -/
structure Coherent (readBlock : Cid → StateM σ (Except Failure Bytes)) (calls : List StoreCall)
    (m : Memory) (ch : σ) : Prop where
  /-- It never says that there is no block. -/
  get_ne_none : ∀ k, ((store readBlock).get k m ch).1.1 ≠ .ok none
  /-- A read goes well if the block is inline or held, or the source gives it right now. -/
  get_isOk : ∀ k, ((store readBlock).get k m ch).1.1.isOk = true ↔
    k.isIdentity = true ∨ (m.get? k).isSome = true ∨
      ∃ data, (readBlock k ch).1 = .ok data ∧ (⟨k, data⟩ : Block).verify = .ok ()
  /-- What was written last is held. -/
  holds_written : ∀ k data, lastPut? k calls = some data → m.get? k = some data
  get_due : ∀ k data, ((store readBlock).get k m ch).1.1 = .ok (some data) → Due calls k data
  /-- Until the identifier is written, a read that went well is repeated without the source: it
  goes alike over any other one, and leaves it alone. -/
  get_again : ∀ k data, ((store readBlock).get k m ch).1.1 = .ok (some data) →
    ∀ later : List StoreCall, (∀ call ∈ later, call.put? k = none) →
      ∀ {τ : Type} (other : Cid → StateM τ (Except Failure Bytes)) (t : τ),
        let held := (after readBlock (.get k :: later) m ch).1
        (store other).get k held t = ((.ok (some data), held), t)
  get_failed : ∀ k e, ((store readBlock).get k m ch).1.1 = .error e →
    ((store readBlock).get k m ch).1.2 = m
  /-- All that the source is asked for is the block that is read, and that at most once. -/
  get_asks : ∀ k, ((store readBlock).get k m ch).2 = ch ∨
    ((store readBlock).get k m ch).2 = (readBlock k ch).2
  has_eq : ∀ k, (store readBlock).has k m ch =
    ((.ok ((store readBlock).get k m ch).1.1.isOk, ((store readBlock).get k m ch).1.2),
      ((store readBlock).get k m ch).2)
  has_failed : ∀ k, ((store readBlock).has k m ch).1.1 ≠ .ok true →
    ((store readBlock).has k m ch).1.2 = m
  put_eq : ∀ b, (store readBlock).put b m ch = ((.ok (), m.put b), ch)

/-- So a store whose contents came of calls is coherent. -/
theorem Grounded.coherent {calls : List StoreCall} {m : Memory} (h : Grounded calls m) (ch : σ) :
    Coherent readBlock calls m ch := by
  -- each read comes to one of the four outcomes
  have hgot (k : Cid) : Got readBlock k m ch ((store readBlock).get k m ch).1.1
    ((store readBlock).get k m ch).1.2 ((store readBlock).get k m ch).2 := got_of_get rfl
  have hfailed (k : Cid) (e : Failure) (he : ((store readBlock).get k m ch).1.1 = .error e) :
      ((store readBlock).get k m ch).1.2 = m := Got.memory_of_error (he ▸ hgot k)
  constructor
  case get_ne_none => exact fun k => (hgot k).ne_none
  case get_isOk => exact fun k => (hgot k).isOk_iff
  case holds_written => exact h.written
  case get_due => exact fun k data hdata => h.due (hdata ▸ hgot k)
  case get_again =>
    intro k data hdata later hlater τ other t
    have hsettled : Settled k data ((store readBlock).get k m ch).1.2 := .of_got (hdata ▸ hgot k)
    have hheld : Settled k data (after readBlock (.get k :: later) m ch).1 := by
      rw [after_cons]
      exact hsettled.run hlater
    exact hheld.get t
  case get_failed => exact hfailed
  case get_asks => exact fun k => (hgot k).asks
  case has_eq => exact fun k => has_eq k m ch
  case has_failed =>
    intro k hfalse
    rw [has_eq] at hfalse ⊢
    cases hget : ((store readBlock).get k m ch).1.1 with
    | error e => exact hfailed k e hget
    | ok a => exact absurd (by rw [hget]; rfl) hfalse
  case put_eq => exact fun _ => rfl

/-- After any calls of a new store that reads through, whatever its source answers, the store is
coherent, and what answering does not change in the source is as it was at first. -/
theorem coherent_after (readBlock : Cid → StateM σ (Except Failure Bytes)) (calls : List StoreCall)
    (ch : σ) :
    Coherent readBlock calls (after readBlock calls .empty ch).1
        (after readBlock calls .empty ch).2 ∧
      ∀ {τ : Type} (view : σ → τ), (∀ k ch, view (readBlock k ch).2 = view ch) →
        view (after readBlock calls .empty ch).2 = view ch := by
  constructor
  · have hgrounded : Grounded calls (after readBlock calls .empty ch).1 := grounded_empty.run ch calls
    exact hgrounded.coherent _
  · intro τ view hview
    exact view_after hview calls .empty ch

end ReplayVector.ReadThrough
