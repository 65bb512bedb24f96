import ReplayVector.Proofs.State.Packing
import ReplayVector.Proofs.State.Tidy

/-!
# Nodes of tries

A node in memory is sound if its branches stand in the order of their numbers, which are below 32,
its buckets are small, and everything it links to has come up. Sound nodes are written as tidy
blocks, and tidy blocks are read as sound nodes.

* `bitsSet_bitField`: the bit field tells the numbers of the branches.
* `nodeOf?_nodeCbor?`: a node is read as it was written.
* `Sound.carries`, `sound_of_nodeOf?`: what sound nodes are written as, and how they are read.
-/

namespace ReplayVector

/-! ## Applying a partial function to all of a list -/

/-- A partial function that is defined on all of a list gives as many results, each one of an
element. -/
theorem mem_of_mapM {α β : Type} {f : α → Option β} {as : List α} {bs : List β}
    (h : as.mapM f = some bs) : bs.length = as.length ∧ ∀ b ∈ bs, ∃ a ∈ as, f a = some b := by
  induction as generalizing bs with
  | nil =>
    obtain rfl := Option.some.inj h
    simp
  | cons a as ih =>
    simp only [List.mapM_cons, Option.bind_eq_bind, Option.bind_eq_some_iff] at h
    obtain ⟨b, hb, bs', hbs, h⟩ := h
    obtain rfl := Option.some.inj h
    obtain ⟨hlen, hmem⟩ := ih hbs
    refine ⟨by simp [hlen], ?_⟩
    intro b' hb'
    rcases List.mem_cons.mp hb' with rfl | hb'
    · exact ⟨a, List.mem_cons_self .., hb⟩
    · obtain ⟨a', ha', hf⟩ := hmem b' hb'
      exact ⟨a', List.mem_cons_of_mem _ ha', hf⟩

/-- Where one function undoes the other up to `k`, it does so on lists. -/
theorem mapM_of_mapM {α β γ : Type} {f : α → Option β} {g : β → Option γ} {k : α → γ}
    {as : List α} {bs : List β} (h : as.mapM f = some bs)
    (hg : ∀ a ∈ as, ∀ b, f a = some b → g b = some (k a)) : bs.mapM g = some (as.map k) := by
  induction as generalizing bs with
  | nil =>
    obtain rfl := Option.some.inj h
    rfl
  | cons a as ih =>
    simp only [List.mapM_cons, Option.bind_eq_bind, Option.bind_eq_some_iff] at h
    obtain ⟨b, hb, bs', hbs, h⟩ := h
    obtain rfl := Option.some.inj h
    rw [List.mapM_cons, hg a (List.mem_cons_self ..) b hb,
      ih hbs fun a' ha' => hg a' (List.mem_cons_of_mem _ ha')]
    rfl

/-- It has results if it is defined on every element. -/
theorem mapM_isSome {α β : Type} {f : α → Option β} {as : List α}
    (h : ∀ a ∈ as, ∃ b, f a = some b) : ∃ bs, as.mapM f = some bs := by
  induction as with
  | nil => exact ⟨[], rfl⟩
  | cons a as ih =>
    obtain ⟨b, hb⟩ := h a (List.mem_cons_self ..)
    obtain ⟨bs, hbs⟩ := ih fun a' ha' => h a' (List.mem_cons_of_mem _ ha')
    exact ⟨b :: bs, by rw [List.mapM_cons, hb, hbs]; rfl⟩

/-! ## Bit fields -/

/-- A sum of powers of two is divisible by the least of them. -/
private theorem two_pow_dvd_sum {k : Nat} {l : List Nat} (h : ∀ i ∈ l, k ≤ i) :
    ∃ q, (l.map (2 ^ ·)).sum = 2 ^ k * q := by
  induction l with
  | nil => exact ⟨0, rfl⟩
  | cons i l ih =>
    obtain ⟨q, hq⟩ := ih fun j hj => h j (List.mem_cons_of_mem _ hj)
    have hk := h i (List.mem_cons_self ..)
    refine ⟨2 ^ (i - k) + q, ?_⟩
    rw [List.map_cons, List.sum_cons, hq, Nat.mul_add, ← Nat.pow_add, Nat.add_sub_cancel' hk]

/-- The bits of a sum of different powers of two. -/
private theorem testBit_sum {l : List Nat} (h : l.Pairwise (· < ·)) (j : Nat) :
    (l.map (2 ^ ·)).sum.testBit j = decide (j ∈ l) := by
  induction l with
  | nil => simp
  | cons i l ih =>
    obtain ⟨hi, hl⟩ := List.pairwise_cons.mp h
    obtain ⟨q, hq⟩ := two_pow_dvd_sum (k := i + 1) hi
    have hrest := ih hl
    have hlt : 2 ^ i < 2 ^ (i + 1) := Nat.pow_lt_pow_right (by omega) (by omega)
    rw [List.map_cons, List.sum_cons, hq, Nat.add_comm, Nat.testBit_two_pow_mul_add q hlt]
    rw [hq, Nat.testBit_two_pow_mul] at hrest
    split
    · next hj =>
      have hne : j ∉ l := fun hmem => by have := hi j hmem; omega
      rw [Nat.testBit_two_pow]
      simp [hne, eq_comm]
    · next hj =>
      have hge : j ≥ i + 1 := by omega
      have hji : j ≠ i := by omega
      simp only [hge, decide_true, Bool.true_and] at hrest
      simp [hrest, hji]

/-- Numbers in order below a bound are what is left of all numbers below it. -/
private theorem filter_range_mem {l : List Nat} {n : Nat} (h : l.Pairwise (· < ·))
    (hn : ∀ i ∈ l, i < n) : (List.range n).filter (fun j => decide (j ∈ l)) = l := by
  have hsorted : ((List.range n).filter fun j => decide (j ∈ l)).Pairwise (· < ·) :=
    List.pairwise_lt_range.filter _
  refine List.Perm.eq_of_pairwise (fun a b _ _ hab hba => by omega) hsorted h ?_
  rw [List.perm_ext_iff_of_nodup (hsorted.imp Nat.ne_of_lt) (h.imp Nat.ne_of_lt)]
  intro j
  simp only [List.mem_filter, List.mem_range, decide_eq_true_eq]
  exact ⟨fun hj => hj.2, fun hj => ⟨hn j hj, hj⟩⟩

/-! ## Links -/

/-- The links of a list are those of its items. -/
theorem Cbor.mem_linksOfItems {items : List Cbor} {c : Cid} :
    c ∈ linksOfItems items ↔ ∃ v ∈ items, c ∈ v.links := by
  induction items with
  | nil => simp [linksOfItems]
  | cons v vs ih => simp [linksOfItems, ih]

namespace Hamt

variable {β : Type}

/-- The branches of a node stand in the order of their numbers. -/
def Sorted (slots : Slots β) : Prop := slots.Pairwise fun s s' => s.1 < s'.1

/-- The branches of a node stand in the order of their numbers, which are below 32. -/
def Numbered (slots : Slots β) : Prop := Sorted slots ∧ ∀ s ∈ slots, s.1 < 32

/-- The order of branches is one of their numbers alone. -/
theorem Sorted.of_map_eq {slots slots' : Slots β} (h : Sorted slots)
    (heq : slots'.map (·.1) = slots.map (·.1)) : Sorted slots' := by
  have hpair := List.pairwise_map.mpr h
  rw [← heq] at hpair
  exact List.pairwise_map.mp hpair

theorem Numbered.of_map_eq {slots slots' : Slots β} (h : Numbered slots)
    (heq : slots'.map (·.1) = slots.map (·.1)) : Numbered slots' := by
  refine ⟨h.1.of_map_eq heq, ?_⟩
  intro s hs
  have hmem : s.1 ∈ slots.map (·.1) := heq ▸ List.mem_map_of_mem hs
  obtain ⟨s', hs', heq'⟩ := List.mem_map.mp hmem
  rw [← heq']
  exact h.2 s' hs'

/-- The numbers of the branches. -/
def numbers (slots : Slots β) : List Nat := slots.map fun s => s.1.toNat

/-- The numbers of branches in order are in order. -/
theorem Sorted.numbers_sorted {slots : Slots β} (h : Sorted slots) :
    (numbers slots).Pairwise (· < ·) := by
  refine List.pairwise_map.mpr (h.imp fun hlt => ?_)
  exact UInt8.lt_iff_toNat_lt.mp hlt

/-- They are below 32. -/
theorem Numbered.numbers_lt {slots : Slots β} (h : Numbered slots) {i : Nat}
    (hi : i ∈ numbers slots) : i < 32 := by
  obtain ⟨s, hs, rfl⟩ := List.mem_map.mp hi
  exact UInt8.lt_iff_toNat_lt.mp (h.2 s hs)

/-- The bit field of a node is the sum of a power of two for each branch. -/
private theorem bitField_eq (slots : Slots β) :
    bitField slots = Bytes.magnitude ((numbers slots).map (2 ^ ·)).sum := by
  rw [bitField, numbers, List.map_map]
  rfl

/-- The bit field of a node tells the numbers of its branches. -/
theorem bitsSet_bitField {slots : Slots β} (h : Sorted slots) :
    bitsSet (bitField slots) = slots.map (·.1) := by
  have hbits : ((numbers slots).map (2 ^ ·)).sum.testBit =
      fun j => decide (j ∈ numbers slots) := by
    funext j
    rw [testBit_sum h.numbers_sorted]
  have hbound : ∀ i ∈ numbers slots, i < 256 := by
    intro i hi
    obtain ⟨s, -, rfl⟩ := List.mem_map.mp hi
    exact s.1.toNat_lt
  rw [bitsSet, bitField_eq, Bytes.toNatBE_magnitude, hbits,
    filter_range_mem h.numbers_sorted hbound, numbers, List.map_map]
  simp [Function.comp_def]

/-- The bit field takes a byte for eight numbers. -/
theorem length_bitField_le {slots : Slots β} (h : Sorted slots) {width : Nat}
    (hlt : ∀ i ∈ numbers slots, i < 8 * width) : (bitField slots).length ≤ width := by
  have hpow : (256 : Nat) ^ width = 2 ^ (8 * width) := by
    rw [Nat.pow_mul]
  rw [bitField_eq]
  refine Bytes.length_magnitude_le ?_
  rw [hpow]
  refine Nat.lt_pow_two_of_testBit _ fun j hj => ?_
  rw [testBit_sum h.numbers_sorted, decide_eq_false_iff_not]
  intro hmem
  have := hlt j hmem
  omega

/-- A node has at most 32 branches. -/
theorem length_le_of_numbered {slots : Slots β} (h : Numbered slots) : slots.length ≤ 32 := by
  have hfilter := filter_range_mem h.1.numbers_sorted fun i hi => h.numbers_lt hi
  have hlen := List.length_filter_le (fun j => decide (j ∈ numbers slots)) (List.range 32)
  rw [hfilter, numbers, List.length_map, List.length_range] at hlen
  exact hlen

/-- The bits that are set are listed in order. -/
private theorem bitsSet_pairwise (field : Bytes) : (bitsSet field).Pairwise (· < ·) := by
  refine List.pairwise_map.mpr ?_
  refine (List.pairwise_lt_range.filter _).imp_of_mem ?_
  intro i j hi hj hlt
  have hj' := List.mem_range.mp (List.mem_filter.mp hj).1
  have hi' : i.toUInt8.toNat = i := Nat.mod_eq_of_lt (by omega)
  have hj'' : j.toUInt8.toNat = j := Nat.mod_eq_of_lt (by omega)
  rw [UInt8.lt_iff_toNat_lt, hi', hj'']
  exact hlt

/-! ## Codec -/

/-- What is left of a branch once it was written. -/
def Branch.stub : Branch β → Branch β
  | .node (some c) _ => .link c
  | b => b

/-- An entry is read as it was written. -/
private theorem entryOf?_entryCbor? [Linking β] {p : Packing β} (hp : p.Lawful) {e : Bytes × β} {v : Cbor}
    (h : entryCbor? p e = some v) : entryOf? p v = some e := by
  simp only [entryCbor?, Option.map_eq_some_iff] at h
  obtain ⟨v', hv', rfl⟩ := h
  rw [entryOf?, hp.read hv']
  rfl

/-- A branch is read as what is left of it once it was written. -/
private theorem branchOf?_branchCbor? [Linking β] {p : Packing β} (hp : p.Lawful) {b : Branch β} {v : Cbor}
    (h : branchCbor? p b = some v) : branchOf? p v = some b.stub := by
  match b with
  | .bucket entries =>
    simp only [branchCbor?, Option.map_eq_some_iff] at h
    obtain ⟨vs, hvs, rfl⟩ := h
    have hread := mapM_of_mapM (k := id) hvs fun e _ v hv => entryOf?_entryCbor? hp hv
    rw [branchOf?, hread, List.map_id]
    rfl
  | .link c =>
    obtain rfl := Option.some.inj h
    rfl
  | .node (some c) slots =>
    obtain rfl := Option.some.inj h
    rfl
  | .node none slots => cases h

/-- What a node is written as. -/
theorem nodeCbor?_eq_some {p : Packing β} {slots : Slots β} {v : Cbor}
    (h : nodeCbor? p slots = some v) :
    ∃ branches, (slots.mapM fun s => branchCbor? p s.2) = some branches ∧
      v = .list [.bytes (bitField slots), .list branches] := by
  simp only [nodeCbor?, Option.map_eq_some_iff] at h
  obtain ⟨branches, hbranches, rfl⟩ := h
  exact ⟨branches, hbranches, rfl⟩

/-- A node is read as it was written, but for the nodes below it. -/
theorem nodeOf?_nodeCbor? [Linking β] {p : Packing β} (hp : p.Lawful) {slots : Slots β}
    (hslots : Sorted slots) (hbound : slots.length ≤ 32) {v : Cbor}
    (h : nodeCbor? p slots = some v) :
    nodeOf? p v = some (slots.map fun s => (s.1, s.2.stub)) := by
  obtain ⟨branches, hbranches, rfl⟩ := nodeCbor?_eq_some h
  have hlen := (mem_of_mapM hbranches).1
  have hbits := bitsSet_bitField hslots
  have hfield : (bitField slots).length ≤ 32 := by
    refine length_bitField_le hslots fun i hi => ?_
    obtain ⟨s, -, rfl⟩ := List.mem_map.mp hi
    exact s.1.toNat_lt
  have hread := mapM_of_mapM (k := fun s => s.2.stub) hbranches fun s _ v hv =>
    branchOf?_branchCbor? hp hv
  rw [nodeOf?, if_neg (by omega), if_neg (by rw [hbits, List.length_map]; omega), hread, hbits,
    Option.map_some, List.zip_map']

/-- What is read as a node, and what of. -/
theorem nodeOf?_eq_some {p : Packing β} {slots : Slots β} {v : Cbor}
    (h : nodeOf? p v = some slots) :
    ∃ field branches bs, v = .list [.bytes field, .list branches] ∧
      branches.mapM (branchOf? p) = some bs ∧ (bitsSet field).length = bs.length ∧
      slots = (bitsSet field).zip bs := by
  unfold nodeOf? at h
  split at h
  · next field branches =>
    split at h
    · cases h
    · split at h
      · cases h
      · next hlen =>
        simp only [Option.map_eq_some_iff] at h
        obtain ⟨bs, hbs, rfl⟩ := h
        refine ⟨field, branches, bs, rfl, hbs, ?_, rfl⟩
        rw [(mem_of_mapM hbs).1]
        omega
  · cases h

/-- A node that was read has its branches in order, and not too many of them. -/
theorem sorted_of_nodeOf? {p : Packing β} {slots : Slots β} {v : Cbor}
    (h : nodeOf? p v = some slots) : Sorted slots ∧ slots.length ≤ 32 := by
  unfold nodeOf? at h
  split at h
  · next field branches =>
    split at h
    · cases h
    · split at h
      · cases h
      · next hbound hlen =>
        obtain ⟨bs, hbs, rfl⟩ := Option.map_eq_some_iff.mp h
        have hcount := (mem_of_mapM hbs).1
        have hnumbers : ((bitsSet field).zip bs).map (·.1) = bitsSet field :=
          List.map_fst_zip (by omega)
        refine ⟨?_, by rw [List.length_zip]; omega⟩
        have hpair := bitsSet_pairwise field
        rw [← hnumbers] at hpair
        exact List.pairwise_map.mp hpair
  · cases h

/-! ## Sound nodes -/

variable [Linking β]

/-- The links of a value have come up. -/
def Grounds (known : Known) (a : β) : Prop := ∀ c ∈ Linking.links a, known.Allows c

/-- The bucket is small, and the links of its values have come up. -/
def SoundBucket (known : Known) (entries : List (Bytes × β)) : Prop :=
  entries.length ≤ bucketSize ∧
    ∀ e ∈ entries, e.1.length ≤ Cbor.maxKey ∧ Grounds known e.2

mutual

/-- The branch is small, and all that it links to has come up. -/
def SoundBranch (known : Known) : Branch β → Prop
  | .bucket entries => SoundBucket known entries
  | .link c => known.Allows c
  | .node stored slots =>
    (∀ c, stored = some c → known.Allows c) ∧ Numbered slots ∧ SoundBranches known slots

/-- All of the branches are sound. -/
def SoundBranches (known : Known) : Slots β → Prop
  | [] => True
  | (_, b) :: rest => SoundBranch known b ∧ SoundBranches known rest

end

/-- The branches of a node are sound and stand in order. -/
def Sound (known : Known) (slots : Slots β) : Prop :=
  Numbered slots ∧ ∀ s ∈ slots, SoundBranch known s.2

theorem soundBranches_iff {known : Known} {slots : Slots β} :
    SoundBranches known slots ↔ ∀ s ∈ slots, SoundBranch known s.2 := by
  induction slots with
  | nil => simp [SoundBranches]
  | cons s slots ih => simp [SoundBranches, ih]

theorem soundBranch_bucket {known : Known} {entries : List (Bytes × β)} :
    SoundBranch known (.bucket entries) ↔ SoundBucket known entries := by
  rw [SoundBranch]

theorem soundBranch_node {known : Known} {stored : Option Cid} {slots : Slots β} :
    SoundBranch known (.node stored slots) ↔
      (∀ c, stored = some c → known.Allows c) ∧ Sound known slots := by
  rw [SoundBranch, Sound, soundBranches_iff]

theorem sound_nil (known : Known) : Sound known ([] : Slots β) :=
  ⟨⟨.nil, by simp⟩, by simp⟩

/-- What has come up stays so when more is known. -/
theorem Grounds.mono {known known' : Known} {a : β} (h : Grounds known a)
    (hsub : known.Below known') : Grounds known' a :=
  fun c hc => (h c hc).mono hsub

theorem SoundBucket.mono {known known' : Known} {entries : List (Bytes × β)}
    (h : SoundBucket known entries) (hsub : known.Below known') :
    SoundBucket known' entries := by
  refine ⟨h.1, fun e he => ?_⟩
  exact ⟨(h.2 e he).1, (h.2 e he).2.mono hsub⟩

mutual

/-- The same of a branch, by induction on the node. -/
theorem SoundBranch.mono {known known' : Known} (hsub : known.Below known') :
    {b : Branch β} → SoundBranch known b → SoundBranch known' b
  | .bucket _, h => SoundBucket.mono h hsub
  | .link _, h => Known.Allows.mono h hsub
  | .node _ _, h =>
    ⟨fun c hc => (h.1 c hc).mono hsub, h.2.1, SoundBranches.mono hsub h.2.2⟩

/-- And of all branches of a node. -/
theorem SoundBranches.mono {known known' : Known} (hsub : known.Below known') :
    {slots : Slots β} → SoundBranches known slots → SoundBranches known' slots
  | [], _ => trivial
  | (_, _) :: _, h => ⟨SoundBranch.mono hsub h.1, SoundBranches.mono hsub h.2⟩

end

theorem Sound.mono {known known' : Known} {slots : Slots β}
    (h : Sound known slots) (hsub : known.Below known') : Sound known' slots := by
  refine ⟨h.1, fun s hs => ?_⟩
  exact (h.2 s hs).mono hsub

/-! ## Reading and writing sound nodes -/

/-- Few entries with short keys are read as a sound bucket. -/
private theorem soundBucket_of_mapM {p : Packing β} (hp : p.Lawful) {known : Known}
    {items : List Cbor} {entries : List (Bytes × β)} (h : items.mapM (entryOf? p) = some entries)
    (hlen : items.length ≤ bucketSize)
    (hkeys : ∀ key value, .list [.bytes key, value] ∈ items → key.length ≤ Cbor.maxKey)
    (hlinks : ∀ v ∈ items, ∀ c ∈ v.links, known.Allows c) : SoundBucket known entries := by
  obtain ⟨heq, hmem⟩ := mem_of_mapM h
  refine ⟨by omega, fun e he => ?_⟩
  obtain ⟨item, hitem, hread⟩ := hmem e he
  unfold entryOf? at hread
  split at hread
  · next key v =>
    simp only [Option.map_eq_some_iff] at hread
    obtain ⟨a, ha, rfl⟩ := hread
    refine ⟨hkeys key v hitem, fun c hc => hlinks _ hitem c ?_⟩
    rw [← hp.links ha] at hc
    simp [Cbor.links, Cbor.linksOfItems, hc]
  · cases hread

/-- What a tidy block is read as is sound. -/
theorem sound_of_nodeOf? {p : Packing β} (hp : p.Lawful) {v : Cbor} (hv : v.Tidy)
    {slots : Slots β} (h : nodeOf? p v = some slots) (known : Known) :
    Sound (known.add v) slots := by
  obtain ⟨field, branches, bs, rfl, hbs, hlen, rfl⟩ := nodeOf?_eq_some h
  obtain ⟨hfield, hbuckets⟩ := hv.node field branches rfl
  have hsorted := (sorted_of_nodeOf? h).1
  have hlinks {item : Cbor} (hitem : item ∈ branches) {c : Cid} (hc : c ∈ item.links) :
      (known.add (.list [.bytes field, .list branches])).Allows c := by
    refine known.allows_add hv ?_
    simp only [Cbor.links, Cbor.linksOfItems, List.nil_append, List.append_nil]
    exact Cbor.mem_linksOfItems.mpr ⟨item, hitem, hc⟩
  refine ⟨⟨hsorted, ?_⟩, ?_⟩
  · intro s hs
    exact hfield s.1 (List.of_mem_zip hs).1
  · intro s hs
    obtain ⟨item, hitem, hread⟩ := (mem_of_mapM hbs).2 s.2 (List.of_mem_zip hs).2
    unfold branchOf? at hread
    split at hread
    · next c =>
      rw [← Option.some.inj hread]
      exact hlinks hitem (by simp [Cbor.links])
    · next entries =>
      simp only [Option.map_eq_some_iff] at hread
      obtain ⟨es, hes, heq⟩ := hread
      rw [← heq]
      obtain ⟨hcount, hkeys⟩ := hbuckets entries hitem
      refine soundBucket_of_mapM hp hes hcount hkeys fun v hv c hc => hlinks hitem ?_
      rw [Cbor.links]
      exact Cbor.mem_linksOfItems.mpr ⟨v, hv, hc⟩
    · cases hread

/-- The longest encoding of a branch. -/
private def branchLength : Nat := 7500

/-- What a sound branch is written as. -/
private structure Written (known : Known) (v : Cbor) : Prop where
  fits : v.Fits 4
  length_le : v.encode.length ≤ branchLength
  links : ∀ c ∈ v.links, known.Allows c
  bucket : ∀ items, v = .list items → items.length ≤ bucketSize ∧
    ∀ key value, .list [.bytes key, value] ∈ items → key.length ≤ Cbor.maxKey

/-- A branch on disk is written as its link. -/
private theorem written_link {known : Known} {c : Cid} (hc : known.Allows c) :
    Written known (.link c) := by
  have := Cbor.length_encode_link_le c
  refine ⟨trivial, by rw [branchLength]; omega, ?_, ?_⟩
  · intro c' hc'
    rw [Cbor.links, List.mem_singleton] at hc'
    exact hc' ▸ hc
  · intro items hitems
    cases hitems

/-- The longest encoding of an entry of a bucket. -/
private def entryLength : Nat := 2400

/-- What an entry of a sound bucket is written as. -/
private structure EntryWritten (known : Known) (item : Cbor) : Prop where
  fits : item.Fits 3
  length_le : item.encode.length ≤ entryLength
  links : ∀ c ∈ item.links, known.Allows c
  key : ∀ key value, item = .list [.bytes key, value] → key.length ≤ Cbor.maxKey

/-- An entry is written as a pair of its key and its value. -/
private theorem written_of_entryCbor? {p : Packing β} (hp : p.Lawful) {known : Known}
    {e : Bytes × β} (hkey : e.1.length ≤ Cbor.maxKey) (hgrounds : Grounds known e.2) {item : Cbor}
    (h : entryCbor? p e = some item) : EntryWritten known item := by
  simp only [entryCbor?, Option.map_eq_some_iff] at h
  obtain ⟨v, hv, rfl⟩ := h
  have hmaxKey : Cbor.maxKey = 128 := rfl
  refine ⟨⟨by simp, ?_⟩, ?_, ?_, ?_⟩
  · simp only [List.mem_cons, List.not_mem_nil, or_false, forall_eq_or_imp, forall_eq]
    refine ⟨?_, hp.fits hv⟩
    show e.1.length < 2 ^ 64
    omega
  · have hlen := hp.length_le hv
    have hbytes := Cbor.length_encode_bytes_le e.1
    have hmaxLength : Packing.maxLength = 2048 := rfl
    have hpair := Cbor.length_head_le 4 [Cbor.bytes e.1, v].length
    simp only [Cbor.encode, Cbor.encodeItems, List.length_append, List.length_nil] at hbytes ⊢
    rw [entryLength]
    omega
  · intro c hc
    simp only [Cbor.links, Cbor.linksOfItems, List.nil_append, List.append_nil] at hc
    rw [hp.links_of_toCbor? hv] at hc
    exact hgrounds c hc
  · intro key value heq
    cases heq
    exact hkey

/-- A bucket is written as the list of its entries. -/
private theorem written_bucket {known : Known} {items : List Cbor}
    (hcount : items.length ≤ bucketSize) (h : ∀ item ∈ items, EntryWritten known item) :
    Written known (.list items) := by
  have hbucketSize : bucketSize = 3 := rfl
  refine ⟨⟨by omega, fun item hitem => (h item hitem).fits⟩, ?_, ?_, ?_⟩
  · have := Cbor.length_encode_list_le _ _ _ hcount fun item hitem => (h item hitem).length_le
    rw [branchLength]
    rw [hbucketSize, entryLength] at this
    omega
  · intro c hc
    rw [Cbor.links] at hc
    obtain ⟨item, hitem, hc⟩ := Cbor.mem_linksOfItems.mp hc
    exact (h item hitem).links c hc
  · intro items' hitems'
    cases hitems'
    exact ⟨hcount, fun key value hitem => (h _ hitem).key key value rfl⟩

/-- A sound branch is written as a tidy part of a node. -/
private theorem written_of_branchCbor? {p : Packing β} (hp : p.Lawful) {known : Known}
    {b : Branch β} (hb : SoundBranch known b) {v : Cbor} (h : branchCbor? p b = some v) :
    Written known v := by
  cases b with
  | link c =>
    cases h
    exact written_link hb
  | node stored slots =>
    cases stored with
    | none => cases h
    | some c =>
      cases h
      exact written_link (hb.1 c rfl)
  | bucket entries =>
    simp only [branchCbor?, Option.map_eq_some_iff] at h
    obtain ⟨items, hitems, rfl⟩ := h
    obtain ⟨hcount, hmem⟩ := mem_of_mapM hitems
    refine written_bucket (hcount ▸ hb.1) fun item hitem => ?_
    obtain ⟨e, he, hwritten⟩ := hmem item hitem
    exact written_of_entryCbor? hp (hb.2 e he).1 (hb.2 e he).2 hwritten

/-- What a sound node is written as is the content of a tidy block. -/
theorem Sound.carries {p : Packing β} (hp : p.Lawful) {known : Known} {slots : Slots β}
    (h : Sound known slots) {v : Cbor} (hv : nodeCbor? p slots = some v) :
    (Block.ofDagCbor v.encode).Carries v ∧ ∀ c ∈ v.links, known.Allows c := by
  obtain ⟨branches, hbranches, rfl⟩ := nodeCbor?_eq_some hv
  obtain ⟨hcount, hmem⟩ := mem_of_mapM hbranches
  have hslots := length_le_of_numbered h.1
  have hfield : (bitField slots).length ≤ 4 :=
    length_bitField_le h.1.1 fun i hi => h.1.numbers_lt hi
  have hbranch (item : Cbor) (hitem : item ∈ branches) : Written known item := by
    obtain ⟨s, hs, hwritten⟩ := hmem item hitem
    exact written_of_branchCbor? hp (h.2 s hs) hwritten
  have hlinks : ∀ c ∈ (Cbor.list [.bytes (bitField slots), .list branches]).links,
      known.Allows c := by
    intro c hc
    simp only [Cbor.links, Cbor.linksOfItems, List.nil_append, List.append_nil] at hc
    obtain ⟨item, hitem, hc⟩ := Cbor.mem_linksOfItems.mp hc
    exact (hbranch item hitem).links c hc
  refine ⟨⟨rfl, ?_, ⟨fun c hc => (hlinks c hc).1, ?_, ?_⟩, ?_⟩, hlinks⟩
  · -- it fits
    have hfits : (Cbor.list [.bytes (bitField slots), .list branches]).Fits 6 := by
      refine ⟨by simp, ?_⟩
      simp only [List.mem_cons, List.not_mem_nil, or_false, forall_eq_or_imp, forall_eq]
      refine ⟨?_, by omega, fun item hitem => (hbranch item hitem).fits⟩
      show (bitField slots).length < 2 ^ 64
      omega
    exact hfits.mono (by decide)
  · -- it is a node with as many branches as bits
    intro field items heq
    cases heq
    refine ⟨?_, fun entries hentries => (hbranch _ hentries).bucket entries rfl⟩
    intro i hi
    rw [bitsSet_bitField h.1.1] at hi
    obtain ⟨s, hs, rfl⟩ := List.mem_map.mp hi
    exact h.1.2 s hs
  · intro addressMap next name heq
    cases heq
  · -- it is short, as each branch is
    have hitems := Cbor.length_encode_list_le _ 32 _ (by omega)
      fun item hitem => (hbranch item hitem).length_le
    have hbytes := Cbor.length_encode_bytes_le (bitField slots)
    have hhead := Cbor.length_head_le 4 [Cbor.bytes (bitField slots), .list branches].length
    rw [branchLength] at hitems
    have : Block.maxLength = 1048576 := rfl
    rw [Cbor.encode, List.length_append]
    simp only [Cbor.encodeItems, List.length_append, List.length_nil]
    omega

end Hamt

end ReplayVector
