import ReplayVector.Proofs.State.Tidy
import ReplayVector.Proofs.Store.Programs

/-!
# Computations that read before they write

Engines read blocks, each found by a link in one they have read before, and write at the end. That
is a property of the computation alone, whatever the answers are, as long as these are blocks of
a state: `Explores` says it of a part that reads, `Writes` of a part that writes, `Staged` of a
whole. A block that is missing or no structured data ends such a computation at once. All that is
written links to nothing but what has come up. `Grounded` is about computations that read and write
in any order, and that may go on without an answer.

* `Explores.andThen`, `Staged.andThen`: parts make up a whole.
* `Path`: the blocks that a run reads and writes, in order.
* `Staged.path`: among blocks that link to none but each other, nothing is missing.
-/

namespace ReplayVector.BlockM

variable {α β : Type}

/-! ## Parts -/

/-- The computation is at its end, with a result of the given kind. -/
def EndsIn (kind : Except Failure α → Prop) (p : BlockM α) : Prop := ∃ r, p = done r ∧ kind r

/-- The result is a failure. -/
def Failed (r : Except Failure α) : Prop := ∃ e, r = .error e

/-- After an answer that is no structured data, the computation is at its end. -/
def Strict (miss : Except Failure α → Prop) (next : Except Failure (Option Bytes) → BlockM α) :
    Prop :=
  (∀ e, (next (.error e)).EndsIn miss) ∧ (next (.ok none)).EndsIn miss ∧
    ∀ data, Cbor.decode? data = none → (next (.ok (some data))).EndsIn miss

/-- The computation only reads structured data, under identifiers that are known at the start or
come up as links. Without an answer it ends with a result in `miss`; else its result and what is
known at the end are in `post`. -/
def Explores (miss : Except Failure α → Prop) (post : Known → Except Failure α → Prop) :
    Known → BlockM α → Prop
  | known, done r => post known r
  | known, get c next =>
    known c ∧ c.codec = Cid.dagCbor ∧ Strict miss next ∧
      ∀ data v, Cbor.decode? data = some v → v.Tidy →
        Explores miss post (known.add v) (next (.ok (some data)))
  | _, has _ _ => False
  | _, put _ _ => False

/-- The computation asks for nothing and only writes blocks that link to what has come up, also after
a block was refused. -/
def Writes (post : Known → Except Failure α → Prop) : Known → BlockM α → Prop
  | known, done r => post known r
  | _, get _ _ => False
  | _, has _ _ => False
  | known, put b next =>
    b.Grounded known ∧ (∀ e, Writes post known (next (.error e))) ∧
      Writes post (known.insert b.cid) (next (.ok ()))

/-- The computation reads as above, and then may write as above. -/
def Staged (miss : Except Failure α → Prop) (post : Known → Except Failure α → Prop) :
    Known → BlockM α → Prop
  | known, done r => post known r
  | known, get c next =>
    known c ∧ c.codec = Cid.dagCbor ∧ Strict miss next ∧
      ∀ data v, Cbor.decode? data = some v → v.Tidy →
        Staged miss post (known.add v) (next (.ok (some data)))
  | _, has _ _ => False
  | known, put b next => Writes post known (put b next)

/-- The computation reads and writes in any order, both as above. It may go on without an answer. -/
def Grounded (post : Known → Except Failure α → Prop) : Known → BlockM α → Prop
  | known, done r => post known r
  | known, get c next =>
    known.Stores c ∧
      (∀ r, (∀ data v, r = .ok (some data) → Cbor.decode? data ≠ some v) →
        Grounded post known (next r)) ∧
      ∀ data v, Cbor.decode? data = some v → v.Tidy →
        Grounded post (known.add v) (next (.ok (some data)))
  | _, has _ _ => False
  | known, put b next =>
    b.Grounded known ∧ (∀ e, Grounded post known (next (.error e))) ∧
      Grounded post (known.insert b.cid) (next (.ok ()))

/-- A part that only writes is a whole without reads. -/
theorem Writes.staged {miss : Except Failure α → Prop} {post : Known → Except Failure α → Prop}
    {known : Known} {p : BlockM α} (h : p.Writes post known) : p.Staged miss post known := by
  cases p with
  | done r => exact h
  | get c next => exact h.elim
  | has c next => exact h.elim
  | put b next => exact h

/-- It is grounded, too. -/
theorem Writes.grounded {post : Known → Except Failure α → Prop} {known : Known} {p : BlockM α}
    (h : p.Writes post known) : p.Grounded post known := by
  induction p generalizing known with
  | done r => exact h
  | get c next => exact h.elim
  | has c next => exact h.elim
  | put b next ih => exact ⟨h.1, fun e => ih _ (h.2.1 e), ih _ h.2.2⟩

/-- A part that writes, and what follows each of its results. -/
theorem Writes.andThen {post : Known → Except Failure α → Prop}
    {post' : Known → Except Failure β → Prop} {known : Known} {p : BlockM α}
    {f : Except Failure α → BlockM β} (h : p.Writes post known)
    (hf : ∀ known r, post known r → (f r).Writes post' known) :
    (p.andThen f).Writes post' known := by
  induction p generalizing known with
  | done r => exact hf known r h
  | get c next => exact h.elim
  | has c next => exact h.elim
  | put b next ih => exact ⟨h.1, fun e => ih _ (h.2.1 e), ih _ h.2.2⟩

/-- A part that is grounded, and what follows each of its results. -/
theorem Grounded.andThen {post : Known → Except Failure α → Prop}
    {post' : Known → Except Failure β → Prop} {known : Known} {p : BlockM α}
    {f : Except Failure α → BlockM β} (h : p.Grounded post known)
    (hf : ∀ known r, post known r → (f r).Grounded post' known) :
    (p.andThen f).Grounded post' known := by
  induction p generalizing known with
  | done r => exact hf known r h
  | get c next ih =>
    exact ⟨h.1, fun r hr => ih r (h.2.1 r hr), fun data v hv htidy => ih _ (h.2.2 data v hv htidy)⟩
  | has c next => exact h.elim
  | put b next ih => exact ⟨h.1, fun e => ih _ (h.2.1 e), ih _ h.2.2⟩

/-- After its end a computation may go on to another end. -/
theorem EndsIn.andThen {miss : Except Failure α → Prop} {miss' : Except Failure β → Prop}
    {p : BlockM α} {f : Except Failure α → BlockM β} (h : p.EndsIn miss)
    (hf : ∀ r, miss r → (f r).EndsIn miss') : (p.andThen f).EndsIn miss' := by
  obtain ⟨r, rfl, hr⟩ := h
  exact hf r hr

/-- An answer that is no structured data ends the longer computation too. -/
private theorem Strict.andThen {miss : Except Failure α → Prop} {miss' : Except Failure β → Prop}
    {next : Except Failure (Option Bytes) → BlockM α} {f : Except Failure α → BlockM β}
    (h : Strict miss next) (hf : ∀ r, miss r → (f r).EndsIn miss') :
    Strict miss' fun r => (next r).andThen f := by
  refine ⟨?_, h.2.1.andThen hf, ?_⟩
  · intro e
    exact (h.1 e).andThen hf
  · intro data hdata
    exact (h.2.2 data hdata).andThen hf

/-- A part that reads, and what follows each of its results. -/
theorem Explores.andThen {miss : Except Failure α → Prop} {post : Known → Except Failure α → Prop}
    {miss' : Except Failure β → Prop} {post' : Known → Except Failure β → Prop} {known : Known}
    {p : BlockM α} {f : Except Failure α → BlockM β} (h : p.Explores miss post known)
    (hf : ∀ known r, post known r → (f r).Explores miss' post' known)
    (hmiss : ∀ r, miss r → (f r).EndsIn miss') : (p.andThen f).Explores miss' post' known := by
  induction p generalizing known with
  | done r => exact hf known r h
  | get c next ih =>
    obtain ⟨hknown, hcodec, hstrict, hnext⟩ := h
    exact ⟨hknown, hcodec, hstrict.andThen hmiss,
      fun data v hv htidy => ih _ (hnext data v hv htidy)⟩
  | has c next => exact h.elim
  | put b next => exact h.elim

/-- A part that reads, and a rest that also writes. -/
theorem Explores.staged_andThen {miss : Except Failure α → Prop}
    {post : Known → Except Failure α → Prop} {miss' : Except Failure β → Prop}
    {post' : Known → Except Failure β → Prop} {known : Known}
    {p : BlockM α} {f : Except Failure α → BlockM β} (h : p.Explores miss post known)
    (hf : ∀ known r, post known r → (f r).Staged miss' post' known)
    (hmiss : ∀ r, miss r → (f r).EndsIn miss') : (p.andThen f).Staged miss' post' known := by
  induction p generalizing known with
  | done r => exact hf known r h
  | get c next ih =>
    obtain ⟨hknown, hcodec, hstrict, hnext⟩ := h
    exact ⟨hknown, hcodec, hstrict.andThen hmiss,
      fun data v hv htidy => ih _ (hnext data v hv htidy)⟩
  | has c next => exact h.elim
  | put b next => exact h.elim

/-- A whole, and a rest that only writes. -/
theorem Staged.andThen {miss : Except Failure α → Prop} {post : Known → Except Failure α → Prop}
    {miss' : Except Failure β → Prop} {post' : Known → Except Failure β → Prop}
    {known : Known} {p : BlockM α} {f : Except Failure α → BlockM β} (h : p.Staged miss post known)
    (hf : ∀ known r, post known r → (f r).Writes post' known)
    (hmiss : ∀ r, miss r → (f r).EndsIn miss') : (p.andThen f).Staged miss' post' known := by
  induction p generalizing known with
  | done r => exact (hf known r h).staged
  | get c next ih =>
    obtain ⟨hknown, hcodec, hstrict, hnext⟩ := h
    exact ⟨hknown, hcodec, hstrict.andThen hmiss,
      fun data v hv htidy => ih _ (hnext data v hv htidy)⟩
  | has c next => exact h.elim
  | put b next => exact Writes.andThen (p := put b next) h hf

/-- A part that only reads is a whole without writes. -/
theorem Explores.staged {miss : Except Failure α → Prop} {post : Known → Except Failure α → Prop}
    {known : Known} {p : BlockM α} (h : p.Explores miss post known) :
    p.Staged miss post known := by
  induction p generalizing known with
  | done r => exact h
  | get c next ih =>
    obtain ⟨hknown, hcodec, hstrict, hnext⟩ := h
    exact ⟨hknown, hcodec, hstrict, fun data v hv htidy => ih _ (hnext data v hv htidy)⟩
  | has c next => exact h.elim
  | put b next => exact h.elim

/-- A whole is grounded in particular. -/
theorem Staged.grounded {miss : Except Failure α → Prop}
    {post : Known → Except Failure α → Prop} {known : Known} {p : BlockM α}
    (h : p.Staged miss post known) (hmiss : ∀ known r, miss r → post known r) :
    p.Grounded post known := by
  have hend {known : Known} {q : BlockM α} (hq : q.EndsIn miss) : q.Grounded post known := by
    obtain ⟨r, rfl, hr⟩ := hq
    exact hmiss known r hr
  induction p generalizing known with
  | done r => exact h
  | get c next ih =>
    obtain ⟨hknown, hcodec, ⟨herror, hnone, hbroken⟩, hnext⟩ := h
    refine ⟨⟨hknown, hcodec⟩, ?_, fun data v hv htidy => ih _ (hnext data v hv htidy)⟩
    intro r hr
    match r with
    | .error e => exact hend (herror e)
    | .ok none => exact hend hnone
    | .ok (some data) =>
      refine hend (hbroken data ?_)
      cases hv : Cbor.decode? data with
      | none => rfl
      | some v => exact absurd hv (hr data v rfl)
  | has c next => exact h.elim
  | put b next => exact Writes.grounded (p := put b next) h

/-! ## What is known grows -/

/-- What is known at the end of a part that reads has been known at its start, or came up. -/
theorem Explores.grows {miss : Except Failure α → Prop} {post : Known → Except Failure α → Prop}
    {known : Known} {p : BlockM α} (h : p.Explores miss post known) :
    p.Explores miss (fun known' r => known.Below known' ∧ post known' r) known := by
  suffices ∀ known', known.Below known' → p.Explores miss post known' →
      p.Explores miss (fun known'' r => known.Below known'' ∧ post known'' r) known' from
    this known (.refl known) h
  clear h
  induction p with
  | done r => exact fun known' hsub h => ⟨hsub, h⟩
  | get c next ih =>
    rintro known' hsub ⟨hknown, hcodec, hstrict, hnext⟩
    exact ⟨hknown, hcodec, hstrict, fun data v hv htidy =>
      ih _ _ (hsub.add v) (hnext data v hv htidy)⟩
  | has c next => exact fun _ _ h => h.elim
  | put b next => exact fun _ _ h => h.elim

/-- The same of a part that writes. -/
theorem Writes.grows {post : Known → Except Failure α → Prop} {known : Known} {p : BlockM α}
    (h : p.Writes post known) :
    p.Writes (fun known' r => known.Below known' ∧ post known' r) known := by
  suffices ∀ known', known.Below known' → p.Writes post known' →
      p.Writes (fun known'' r => known.Below known'' ∧ post known'' r) known' from
    this known (.refl known) h
  clear h
  induction p with
  | done r => exact fun known' hsub h => ⟨hsub, h⟩
  | get c next => exact fun _ _ h => h.elim
  | has c next => exact fun _ _ h => h.elim
  | put b next ih =>
    rintro known' hsub ⟨hb, hrefused, hnext⟩
    exact ⟨hb, fun e => ih _ _ hsub (hrefused e), ih _ _ (hsub.insert b.cid) hnext⟩

/-- The same of a part that does both. -/
theorem Grounded.grows {post : Known → Except Failure α → Prop} {known : Known} {p : BlockM α}
    (h : p.Grounded post known) :
    p.Grounded (fun known' r => known.Below known' ∧ post known' r) known := by
  suffices ∀ known', known.Below known' → p.Grounded post known' →
      p.Grounded (fun known'' r => known.Below known'' ∧ post known'' r) known' from
    this known (.refl known) h
  clear h
  induction p with
  | done r => exact fun known' hsub h => ⟨hsub, h⟩
  | get c next ih =>
    rintro known' hsub ⟨hc, hother, hnext⟩
    exact ⟨hc, fun r hr => ih r _ hsub (hother r hr), fun data v hv htidy =>
      ih _ _ (hsub.add v) (hnext data v hv htidy)⟩
  | has c next => exact fun _ _ h => h.elim
  | put b next ih =>
    rintro known' hsub ⟨hb, hrefused, hnext⟩
    exact ⟨hb, fun e => ih _ _ hsub (hrefused e), ih _ _ (hsub.insert b.cid) hnext⟩

/-! ## Values -/

/-- A statement about what is known and the value, if there is one. -/
def onValue (post : Known → α → Prop) : Known → Except Failure α → Prop :=
  fun known r => ∀ a, r = .ok a → post known a

/-- The computation explores and fails without an answer. -/
abbrev Finds (post : Known → α → Prop) (known : Known) (p : BlockM α) : Prop :=
  p.Explores Failed (onValue post) known

/-- Nothing is said about a failure. -/
theorem onValue_error {post : Known → α → Prop} (known : Known) (e : Failure) :
    onValue post known (.error e) := by
  intro a ha
  cases ha

theorem onValue_ok {post : Known → α → Prop} {known : Known} {a : α} (h : post known a) :
    onValue post known (.ok a) := by
  intro a' ha
  cases ha
  exact h

/-- A value at hand is found without a read. -/
theorem finds_pure {post : Known → α → Prop} {known : Known} {a : α} (h : post known a) :
    (pure a : BlockM α).Finds post known := onValue_ok h

theorem finds_fail (post : Known → α → Prop) (known : Known) (f : Failure) :
    (fail f : BlockM α).Finds post known := onValue_error known f

/-- A value that is missing is a failure, and one that is there is found. -/
theorem finds_ofOption {post : Known → α → Prop} {known : Known} (f : Failure) {o : Option α}
    (h : ∀ a, o = some a → post known a) : (ofOption f o).Finds post known := by
  cases o with
  | none => exact finds_fail post known f
  | some a => exact finds_pure (h a rfl)

theorem endsIn_failed (f : Failure) : (done (.error f) : BlockM α).EndsIn Failed :=
  ⟨_, rfl, f, rfl⟩

/-- A part that reads, and what follows its value. -/
theorem Explores.bind {post : Known → α → Prop} {post' : Known → β → Prop} {known : Known}
    {p : BlockM α} {f : α → BlockM β} (h : p.Finds post known)
    (hf : ∀ known' a, known.Below known' → post known' a → (f a).Finds post' known') :
    (p >>= f).Finds post' known := by
  refine h.grows.andThen ?_ ?_
  · rintro known r ⟨hsub, hr⟩
    cases r with
    | ok a => exact hf known a hsub (hr a rfl)
    | error e => exact onValue_error known e
  · rintro _ ⟨e, rfl⟩
    exact endsIn_failed e

/-- A part that reads, and a rest that goes on from its value and may write. -/
theorem Explores.staged_bind {post : Known → α → Prop} {post' : Known → β → Prop} {known : Known}
    {p : BlockM α} {f : α → BlockM β} (h : p.Finds post known)
    (hf : ∀ known' a, known.Below known' → post known' a →
      (f a).Staged Failed (onValue post') known') :
    (p >>= f).Staged Failed (onValue post') known := by
  refine h.grows.staged_andThen ?_ ?_
  · rintro known r ⟨hsub, hr⟩
    cases r with
    | ok a => exact hf known a hsub (hr a rfl)
    | error e => exact onValue_error known e
  · rintro _ ⟨e, rfl⟩
    exact endsIn_failed e

/-- A part that writes, and what follows its value. -/
theorem Writes.bind {post : Known → α → Prop} {post' : Known → β → Prop} {known : Known}
    {p : BlockM α} {f : α → BlockM β} (h : p.Writes (onValue post) known)
    (hf : ∀ known' a, known.Below known' → post known' a →
      (f a).Writes (onValue post') known') :
    (p >>= f).Writes (onValue post') known := by
  refine h.grows.andThen ?_
  rintro known r ⟨hsub, hr⟩
  cases r with
  | ok a => exact hf known a hsub (hr a rfl)
  | error e => exact onValue_error known e

/-- A part that is grounded, and what follows its value. -/
theorem Grounded.bind {post : Known → α → Prop} {post' : Known → β → Prop} {known : Known}
    {p : BlockM α} {f : α → BlockM β} (h : p.Grounded (onValue post) known)
    (hf : ∀ known' a, known.Below known' → post known' a →
      (f a).Grounded (onValue post') known') :
    (p >>= f).Grounded (onValue post') known := by
  refine h.grows.andThen ?_
  rintro known r ⟨hsub, hr⟩
  cases r with
  | ok a => exact hf known a hsub (hr a rfl)
  | error e => exact onValue_error known e

/-- A whole that fails without an answer is grounded in its value. -/
theorem Staged.value_grounded {post : Known → α → Prop} {known : Known} {p : BlockM α}
    (h : p.Staged Failed (onValue post) known) : p.Grounded (onValue post) known := by
  refine h.grounded ?_
  rintro known _ ⟨e, rfl⟩
  exact onValue_error known e

/-- So is a part that reads. -/
theorem Explores.value_grounded {post : Known → α → Prop} {known : Known} {p : BlockM α}
    (h : p.Finds post known) : p.Grounded (onValue post) known := h.staged.value_grounded

/-- Rewording a failure changes no value. -/
theorem onValue_mapError {post : Known → α → Prop} {known : Known} {r : Except Failure α}
    (h : onValue post known r) (g : Failure → Failure) : onValue post known (r.mapError g) := by
  cases r with
  | ok a => exact onValue_ok (h a rfl)
  | error e => exact onValue_error known _

theorem Explores.mapFailure {post : Known → α → Prop} {known : Known} {p : BlockM α}
    (h : p.Finds post known) (g : Failure → Failure) : (p.mapFailure g).Finds post known := by
  refine h.andThen (fun known r hr => onValue_mapError hr g) ?_
  rintro _ ⟨e, rfl⟩
  exact endsIn_failed _

theorem Writes.mapFailure {post : Known → α → Prop} {known : Known} {p : BlockM α}
    (h : p.Writes (onValue post) known) (g : Failure → Failure) :
    (p.mapFailure g).Writes (onValue post) known := by
  refine h.andThen fun known' r hr => ?_
  exact onValue_mapError hr g

theorem Grounded.mapFailure {post : Known → α → Prop} {known : Known} {p : BlockM α}
    (h : p.Grounded (onValue post) known) (g : Failure → Failure) :
    (p.mapFailure g).Grounded (onValue post) known := by
  refine h.andThen fun known' r hr => ?_
  exact onValue_mapError hr g

/-- A weaker statement about the result holds too. -/
theorem Explores.imp {miss : Except Failure α → Prop} {post post' : Known → Except Failure α → Prop}
    {known : Known} {p : BlockM α} (h : p.Explores miss post known)
    (himp : ∀ known r, post known r → post' known r) : p.Explores miss post' known := by
  rw [← andThen_done p]
  exact h.andThen himp fun r hr => ⟨r, rfl, hr⟩

/-! ## Structured data -/

/-- A block that is read as structured data brings its links up. -/
theorem finds_readCbor? {c : Cid} {known : Known} {g : Option Cbor → BlockM α}
    {post : Known → α → Prop} (hc : c.codec = Cid.dagCbor → known c)
    (hnone : (g none).EndsIn Failed)
    (hg : ∀ v, v.Tidy → (g (some v)).Finds post (known.add v)) :
    (readCbor? c >>= g).Finds post known := by
  rw [readCbor?]
  split
  · exact finds_fail post known _
  · next hcodec =>
    have hcodec : c.codec = Cid.dagCbor := by simpa using hcodec
    refine ⟨hc hcodec, hcodec, ⟨?_, ?_, ?_⟩, ?_⟩
    · intro e
      exact endsIn_failed e
    · exact hnone
    · intro data hdata
      simp only [andThen, hdata]
      exact endsIn_failed _
    · intro data v hv htidy
      simp only [andThen, hv]
      exact hg v htidy

/-- A block that is read as a value of some kind brings its links up. -/
theorem finds_readAs {g : Cbor → Option α} {c : Cid} {known : Known} {post : Known → α → Prop}
    (hc : c.codec = Cid.dagCbor → known c)
    (h : ∀ v a, v.Tidy → g v = some a → post (known.add v) a) :
    (readAs g c).Finds post known := by
  refine finds_readCbor? hc (endsIn_failed _) fun v htidy => ?_
  exact finds_ofOption _ fun a ha => h v a htidy ha

/-- A structured value that is written may be linked to. -/
theorem writes_writeCbor {v : Cbor} {known : Known} {post : Known → Cid → Prop}
    (hv : (Block.ofDagCbor v.encode).Carries v) (hlinks : ∀ c ∈ v.links, known.Allows c)
    (h : post (known.insert (Cid.ofDagCbor v.encode)) (Cid.ofDagCbor v.encode)) :
    (writeCbor v).Writes (onValue post) known := by
  have hblock : (Block.ofDagCbor v.encode).Grounded known := ⟨v, hv, hlinks⟩
  exact ⟨hblock, onValue_error known, onValue_ok h⟩

/-! ## Paths -/

/-- A run of a computation that reads and then writes: the blocks it reads, those it writes, all of
which are accepted, and what it ends with. Had a block been missing, the computation would have ended
in `miss`. -/
inductive Path (miss : Except Failure α → Prop) :
    BlockM α → List Block → List Block → Except Failure α → Prop
  | done (r : Except Failure α) : Path miss (done r) [] [] r
  | get {c : Cid} {next : Except Failure (Option Bytes) → BlockM α} {data : Bytes}
      {rs ws : List Block} {r : Except Failure α}
      (hmiss : (∀ e, (next (.error e)).EndsIn miss) ∧ (next (.ok none)).EndsIn miss)
      (h : Path miss (next (.ok (some data))) rs ws r) :
      Path miss (get c next) (⟨c, data⟩ :: rs) ws r
  | put {b : Block} {next : Except Failure Unit → BlockM α} {ws : List Block}
      {r : Except Failure α} (h : Path miss (next (.ok ())) [] ws r) :
      Path miss (put b next) [] (b :: ws) r

/-- Every read of a path is known when it is made, and is a block of a state. -/
def Chained : Known → List Block → Prop
  | _, [] => True
  | known, b :: rs => known b.cid ∧ ∃ v, b.Carries v ∧ Chained (known.add v) rs

/-- Blocks that may be added to some others: with them, these link to none but each other, and what
has come up is among them. -/
structure Extends (blocks : Blocks) (ws : List Block) (post : Known → Prop) : Prop where
  closed : (blocks.also ws).Closed
  reached : ∃ known : Known, known.Within (blocks.also ws) ∧ post known

/-- A part that writes has a run in which it reads nothing, and what it writes may be added. -/
theorem Writes.path (miss : Except Failure α → Prop) {post : Known → Except Failure α → Prop}
    {known : Known} {p : BlockM α} (h : p.Writes post known) {blocks : Blocks} (hblocks : blocks.Closed)
    (hknown : known.Within blocks) :
    ∃ ws r, Path miss p [] ws r ∧ Extends blocks ws fun known => post known r := by
  induction p generalizing known blocks with
  | done r =>
    refine ⟨[], r, .done r, ?_⟩
    have hnil := blocks.also_nil.symm
    exact ⟨hnil ▸ hblocks, known, hnil ▸ hknown, h⟩
  | get c next => exact h.elim
  | has c next => exact h.elim
  | put b next ih =>
    obtain ⟨hb, -, hnext⟩ := h
    obtain ⟨ws, r, hpath, hextends⟩ :=
      ih _ hnext (hblocks.also (hknown.grounded hb)) (hknown.insert b)
    refine ⟨b :: ws, r, .put hpath, ?_⟩
    have hcons := (blocks.also_cons b ws).symm
    obtain ⟨known', hwithin, hpost⟩ := hextends.reached
    exact ⟨hcons ▸ hextends.closed, known', hcons ▸ hwithin, hpost⟩

/-- Among blocks that link to none but each other, a computation that knows some of them finds all
that it reads, and may add what it writes. -/
theorem Staged.path {miss : Except Failure α → Prop} {post : Known → Except Failure α → Prop}
    {known : Known} {p : BlockM α} (h : p.Staged miss post known) {blocks : Blocks}
    (hblocks : blocks.Closed) (hknown : known.Within blocks) :
    ∃ rs ws r, Path miss p rs ws r ∧ (∀ b ∈ rs, blocks b) ∧ Chained known rs ∧
      Extends blocks ws fun known => post known r := by
  induction p generalizing known with
  | done r =>
    obtain ⟨ws, r, hpath, hextends⟩ := Writes.path miss (p := done r) h hblocks hknown
    exact ⟨[], ws, r, hpath, by simp, trivial, hextends⟩
  | get c next ih =>
    obtain ⟨hc, hcodec, hstrict, hnext⟩ := h
    obtain ⟨b, hb, rfl⟩ := hknown c hc hcodec
    obtain ⟨v, hv, hlinks⟩ := hblocks b hb
    obtain ⟨rs, ws, r, hpath, hrs, hchained, hextends⟩ :=
      ih _ (hnext b.data v hv.decode? hv.tidy) (hknown.add hlinks)
    refine ⟨b :: rs, ws, r, .get ⟨hstrict.1, hstrict.2.1⟩ hpath, ?_, ⟨hc, v, hv, hchained⟩, hextends⟩
    intro b' hb'
    rcases List.mem_cons.mp hb' with rfl | hb'
    · exact hb
    · exact hrs b' hb'
  | has c next => exact h.elim
  | put b next ih =>
    obtain ⟨ws, r, hpath, hextends⟩ := Writes.path miss (p := put b next) h hblocks hknown
    exact ⟨[], ws, r, hpath, by simp, trivial, hextends⟩

end ReplayVector.BlockM
