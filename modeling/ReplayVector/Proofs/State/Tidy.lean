import ReplayVector.Proofs.Cbor.RoundTrip
import ReplayVector.State.Registry

/-!
# What the blocks of a state look like

Every block of a state carries a structured value and stands under the digest of its encoding.
The values link to other such blocks or to code that stands in its identifier, nodes of tries have
small branches, and names are short, so that no block is long. `Block.Carries` says so of a block;
`Block.Grounded` says in addition that what it links to has come up before.
-/

namespace ReplayVector

namespace Cid

/-- Names structured data by a digest, or holds plain bytes. -/
def Tame (c : Cid) : Prop :=
  (c.codec = dagCbor ∧ c.isIdentity = false) ∨ (c.codec = raw ∧ c.isIdentity = true)

theorem tame_ofDagCbor (data : Bytes) : (ofDagCbor data).Tame := Or.inl ⟨rfl, rfl⟩

/-- An identifier that holds its bytes names no structured data. -/
theorem tame_inline (data : Bytes) : (inline data).Tame := Or.inr ⟨rfl, rfl⟩

/-- Among tame identifiers, stores keep those of structured data. -/
theorem Tame.isStoredBlock {c : Cid} (h : c.Tame) : c.isStoredBlock = (c.codec == dagCbor) := by
  rcases h with ⟨hcodec, hid⟩ | ⟨hcodec, hid⟩
  · simp [Cid.isStoredBlock, hcodec, hid]
  · simp [Cid.isStoredBlock, hcodec, hid, raw, dagCbor]

/-- The identifier of structured data is a digest. -/
theorem Tame.isIdentity {c : Cid} (h : c.Tame) (hcodec : c.codec = dagCbor) :
    c.isIdentity = false := by
  rcases h with ⟨-, hid⟩ | ⟨hraw, -⟩
  · exact hid
  · rw [hcodec] at hraw
    simp [raw, dagCbor] at hraw

end Cid

namespace Cbor

/-- The longest key of an entry in a trie. -/
def maxKey : Nat := 128

/-- The longest name of a network. -/
def maxName : Nat := 1024

/-- The branches of a node are numbered below 32, and each bucket holds few entries with short
keys. -/
def TidyNode (field : Bytes) (branches : List Cbor) : Prop :=
  (∀ i ∈ Hamt.bitsSet field, i < 32) ∧
    ∀ entries, .list entries ∈ branches → entries.length ≤ Hamt.bucketSize ∧
      ∀ key value, .list [.bytes key, value] ∈ entries → key.length ≤ maxKey

/-- The value is one that a state consists of. -/
structure Tidy (v : Cbor) : Prop where
  links : ∀ c ∈ v.links, c.Tame
  node : ∀ field branches, v = .list [.bytes field, .list branches] → TidyNode field branches
  name : ∀ addressMap next name, v = .list [.link addressMap, next, .text name] →
    name.utf8ByteSize ≤ maxName

end Cbor

namespace Block

/-- The longest block of a state. -/
def maxLength : Nat := 2 ^ 20

/-- The block is that of a tidy value. -/
structure Carries (b : Block) (v : Cbor) : Prop where
  eq : b = ofDagCbor v.encode
  fits : v.Fits Cbor.nesting
  tidy : v.Tidy
  length_le : v.encode.length ≤ maxLength

namespace Carries

variable {b : Block} {v : Cbor}

/-- The bytes of such a block are read as its value. -/
theorem decode? (h : b.Carries v) : Cbor.decode? b.data = some v := by
  rw [h.eq]
  exact Cbor.decode?_encode h.fits

/-- They are not many. -/
theorem data_length_le (h : b.Carries v) : b.data.length ≤ maxLength := by
  rw [h.eq]
  exact h.length_le

/-- Its identifier is the digest of its bytes. -/
theorem cid_eq (h : b.Carries v) : b.cid = Cid.ofDagCbor b.data := by
  rw [h.eq]
  rfl

/-- The block is genuine. -/
theorem verify (h : b.Carries v) : b.verify = .ok () := by
  have hid : b.cid.isIdentity = false := by
    rw [h.cid_eq]
    rfl
  have hhash : Multihash.ofData? b.cid.hash.code b.data = some b.cid.hash := by
    rw [h.cid_eq]
    rfl
  rw [Block.verify, hid, hhash]
  simp

/-- It names structured data. -/
theorem codec (h : b.Carries v) : b.cid.codec = Cid.dagCbor := by
  rw [h.cid_eq]
  rfl

theorem tame (h : b.Carries v) : b.cid.Tame := by
  rw [h.cid_eq]
  exact Cid.tame_ofDagCbor _

/-- The block does not stand in its identifier. -/
theorem stored (h : b.Carries v) : b.cid.isIdentity = false := h.tame.isIdentity h.codec

end Carries

end Block

/-! ## What has come up -/

/-- Identifiers that have come up. -/
abbrev Known := Cid → Prop

namespace Known

/-- What is known once a value was read. -/
def add (known : Known) (v : Cbor) : Known := fun c => known c ∨ c ∈ v.links

/-- What is known once a block was written. -/
def insert (known : Known) (c : Cid) : Known := fun c' => known c' ∨ c' = c

/-- A link that a block may contain: if it names structured data, it has come up. -/
def Allows (known : Known) (c : Cid) : Prop := c.Tame ∧ (c.codec = Cid.dagCbor → known c)

/-- What is known stays known. -/
def Below (known known' : Known) : Prop := ∀ c, known c → known' c

/-- The identifier names structured data and has come up. -/
def Stores (known : Known) (c : Cid) : Prop := known c ∧ c.codec = Cid.dagCbor

variable {known known' : Known}

theorem Below.refl (known : Known) : known.Below known := fun _ hc => hc

/-- Links that come up are known in addition. -/
theorem Below.add (h : known.Below known') (v : Cbor) : known.Below (known'.add v) :=
  fun c hc => Or.inl (h c hc)

/-- So is a block that was written. -/
theorem Below.insert (h : known.Below known') (c : Cid) : known.Below (known'.insert c) :=
  fun c hc => Or.inl (h c hc)

/-- A link that is allowed stays so when more is known. -/
theorem Allows.mono {c : Cid} (h : known.Allows c) (hsub : known.Below known') :
    known'.Allows c := by
  refine ⟨h.1, fun hcodec => ?_⟩
  exact hsub c (h.2 hcodec)

theorem Stores.mono {c : Cid} (h : known.Stores c) (hsub : known.Below known') :
    known'.Stores c := ⟨hsub c h.1, h.2⟩

/-- A block that was written has come up. -/
theorem stores_insert (known : Known) (data : Bytes) :
    (known.insert (Cid.ofDagCbor data)).Stores (Cid.ofDagCbor data) := ⟨Or.inr rfl, rfl⟩

/-- Code that stands in its identifier may always be linked to. -/
theorem allows_inline (known : Known) (data : Bytes) : known.Allows (Cid.inline data) := by
  refine ⟨Cid.tame_inline data, fun h => ?_⟩
  simp [Cid.inline, Cid.codec, Cid.raw, Cid.dagCbor] at h

/-- The links of a tidy value are allowed once it was read. -/
theorem allows_add (known : Known) {v : Cbor} (hv : v.Tidy) {c : Cid} (hc : c ∈ v.links) :
    (known.add v).Allows c := by
  refine ⟨hv.links c hc, fun _ => ?_⟩
  exact Or.inr hc

/-- A block that was just written may be linked to. -/
theorem allows_insert (known : Known) {c : Cid} (hc : c.Tame) : (known.insert c).Allows c :=
  ⟨hc, fun _ => Or.inr rfl⟩

end Known

/-- The block carries a tidy value that links to nothing but what has come up. -/
def Block.Grounded (b : Block) (known : Known) : Prop :=
  ∃ v, b.Carries v ∧ ∀ c ∈ v.links, known.Allows c

/-- A block whose links have come up stays one when more is known. -/
theorem Block.Grounded.mono {b : Block} {known known' : Known} (h : b.Grounded known)
    (hsub : known.Below known') : b.Grounded known' := by
  obtain ⟨v, hv, hlinks⟩ := h
  exact ⟨v, hv, fun c hc => (hlinks c hc).mono hsub⟩

/-! ## Sets of blocks -/

/-- Some blocks. -/
abbrev Blocks := Block → Prop

namespace Blocks

variable {blocks blocks' : Blocks}

/-- Some blocks and those of a list. -/
def also (blocks : Blocks) (bs : List Block) : Blocks := fun b => blocks b ∨ b ∈ bs

/-- The identifiers of some blocks. -/
def names (blocks : Blocks) : Known := fun c => ∃ b, blocks b ∧ b.cid = c

/-- Blocks of a state that link to none but each other. -/
def Closed (blocks : Blocks) : Prop := ∀ b, blocks b → b.Grounded blocks.names

/-- More blocks have more identifiers. -/
theorem names_mono (h : ∀ b, blocks b → blocks' b) {c : Cid} (hc : blocks.names c) :
    blocks'.names c := by
  obtain ⟨b, hb, rfl⟩ := hc
  exact ⟨b, h b hb, rfl⟩

theorem also_nil (blocks : Blocks) : blocks.also [] = blocks := by
  funext b
  simp [also]

/-- Blocks of one list and then of another. -/
theorem also_append (blocks : Blocks) (bs bs' : List Block) :
    blocks.also (bs ++ bs') = (blocks.also bs).also bs' := by
  funext b
  simp [also, or_assoc]

theorem also_cons (blocks : Blocks) (b : Block) (bs : List Block) :
    blocks.also (b :: bs) = (blocks.also [b]).also bs := also_append blocks [b] bs

end Blocks

/-- What is known of structured data is the identifier of one of the blocks. -/
def Known.Within (known : Known) (blocks : Blocks) : Prop :=
  ∀ c, known c → c.codec = Cid.dagCbor → blocks.names c

namespace Known

variable {known : Known} {blocks blocks' : Blocks}

/-- What is known of some blocks is known of more. -/
theorem Within.mono (h : known.Within blocks) (hsub : ∀ b, blocks b → blocks' b) :
    known.Within blocks' := by
  intro c hc hcodec
  exact Blocks.names_mono hsub (h c hc hcodec)

/-- A link that is allowed by what is known is allowed by the blocks. -/
theorem Within.allows (h : known.Within blocks) {c : Cid} (hc : known.Allows c) :
    blocks.names.Allows c := by
  refine ⟨hc.1, fun hcodec => ?_⟩
  exact h c (hc.2 hcodec) hcodec

/-- A block that links to what is known links to blocks. -/
theorem Within.grounded (h : known.Within blocks) {b : Block} (hb : b.Grounded known) :
    b.Grounded blocks.names := by
  obtain ⟨v, hv, hlinks⟩ := hb
  exact ⟨v, hv, fun c hc => h.allows (hlinks c hc)⟩

/-- Reading one of the blocks of a closed set leads nowhere else. -/
theorem Within.add (h : known.Within blocks) {v : Cbor}
    (hlinks : ∀ c ∈ v.links, blocks.names.Allows c) : (known.add v).Within blocks := by
  rintro c (hc | hc) hcodec
  · exact h c hc hcodec
  · exact (hlinks c hc).2 hcodec

/-- A block that was written is one of the blocks. -/
theorem Within.insert (h : known.Within blocks) (b : Block) :
    (known.insert b.cid).Within (blocks.also [b]) := by
  rintro c (hc | rfl) hcodec
  · exact h.mono (fun b' hb' => Or.inl hb') c hc hcodec
  · exact ⟨b, Or.inr (List.mem_singleton_self b), rfl⟩

end Known

/-- A block that links to blocks of a closed set may join it. -/
theorem Blocks.Closed.also {blocks : Blocks} (h : blocks.Closed) {b : Block}
    (hb : b.Grounded blocks.names) : (blocks.also [b]).Closed := by
  have hsub (c : Cid) (hc : blocks.names c) : (blocks.also [b]).names c :=
    names_mono (fun _ h => Or.inl h) hc
  rintro b' (hb' | hb')
  · exact (h b' hb').mono hsub
  · rw [List.mem_singleton.mp hb']
    exact hb.mono hsub

end ReplayVector
