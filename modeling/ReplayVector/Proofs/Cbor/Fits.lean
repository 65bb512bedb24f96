import ReplayVector.Proofs.Cbor.RoundTrip

/-!
# What is read can be written

The reader gives no values without an encoding: its numbers come from heads, which say at most
64 bits, its entries stand in order, and it goes down no further than its levels. So what was read
from a block is read again once it was written.

* `fits_of_readValue?`: what is read fits.
* `fits_of_decode?`: the same for a whole block.
-/

namespace ReplayVector

/-- A text is as long as the bytes it was read from. -/
theorem Bytes.utf8ByteSize_of_toString? {bs : Bytes} {s : String} (h : toString? bs = some s) :
    s.utf8ByteSize = bs.length := by
  unfold toString? String.fromUTF8? at h
  split at h
  · obtain rfl := Option.some.inj h
    simp [String.fromUTF8, String.utf8ByteSize, ByteArray.size]
  · cases h

namespace Cbor

/-! ## Heads -/

/-- Up to eight bytes make a number of 64 bits. -/
private theorem toNatBE_take?_lt {width : Nat} (hwidth : width ≤ 8) {bs front rest : Bytes}
    (h : Bytes.take? width bs = some (front, rest)) : Bytes.toNatBE front < 2 ^ 64 := by
  have hlen := (Bytes.eq_append_of_take? h).2
  have hlt := Bytes.toNatBE_lt front
  have hpow : 256 ^ front.length ≤ 256 ^ 8 := Nat.pow_le_pow_right (by decide) (by omega)
  omega

/-- No head says more than 64 bits. -/
theorem number_lt_of_readHead? {bs : Bytes} {h : Head} (hread : readHead? bs = some h) :
    h.number < 2 ^ 64 := by
  match bs with
  | [] => cases hread
  | b :: bs =>
    have hlong {width : Nat} (hwidth : width ≤ 8)
        (hw : (Bytes.take? width bs).map (fun x =>
          (⟨b.toNat / 32, b.toNat % 32, Bytes.toNatBE x.1, x.2⟩ : Head)) = some h) :
        h.number < 2 ^ 64 := by
      obtain ⟨⟨front, rest⟩, htake, rfl⟩ := Option.map_eq_some_iff.mp hw
      exact toNatBE_take?_lt hwidth htake
    simp only [readHead?] at hread
    split at hread
    · next hlow =>
      obtain rfl := Option.some.inj hread
      show b.toNat % 32 < 2 ^ 64
      omega
    · split at hread
      · exact hlong (by decide) hread
      · split at hread
        · exact hlong (by decide) hread
        · split at hread
          · exact hlong (by decide) hread
          · split at hread
            · exact hlong (by decide) hread
            · cases hread

/-! ## Strings and keys -/

/-- Bytes that were read are as many as their head says. -/
private theorem length_of_readBytes? {h : Head} {bs rest : Bytes}
    (hread : readBytes? h = some (bs, rest)) : bs.length = h.number :=
  (Bytes.eq_append_of_take? hread).2

/-- So are those of a text. -/
private theorem size_of_readText? {h : Head} {s : String} {rest : Bytes}
    (hread : readText? h = some (s, rest)) : s.utf8ByteSize = h.number := by
  simp only [readText?, Option.bind_eq_bind, Option.bind_eq_some_iff] at hread
  obtain ⟨⟨bs, rest'⟩, hbytes, s', hs, hpair⟩ := hread
  cases hpair
  rw [Bytes.utf8ByteSize_of_toString? hs, length_of_readBytes? hbytes]

private theorem size_lt_of_readKey? {bs : Bytes} {s : String} {rest : Bytes}
    (hread : readKey? bs = some (s, rest)) : s.utf8ByteSize < 2 ^ 64 := by
  simp only [readKey?, Option.bind_eq_bind, Option.bind_eq_some_iff] at hread
  obtain ⟨h, hhead, hread⟩ := hread
  split at hread
  · rw [size_of_readText? hread]
    exact number_lt_of_readHead? hhead
  · cases hread

/-! ## Items and entries -/

/-- Items that were read are as many as their head says, each of them read on its own. -/
private theorem of_readItems? {value : Bytes → Option (Cbor × Bytes)} {P : Cbor → Prop}
    (hvalue : ∀ bs v rest, value bs = some (v, rest) → P v) {n : Nat} {bs rest : Bytes}
    {vs : List Cbor} (h : readItems? value n bs = some (vs, rest)) :
    vs.length = n ∧ ∀ v ∈ vs, P v := by
  induction n generalizing bs vs with
  | zero =>
    cases h
    simp
  | succ n ih =>
    simp only [readItems?, Option.bind_eq_bind, Option.bind_eq_some_iff] at h
    obtain ⟨⟨v, bs'⟩, hv, ⟨vs', rest'⟩, hvs, hpair⟩ := h
    cases hpair
    obtain ⟨hlen, hall⟩ := ih hvs
    refine ⟨by rw [List.length_cons, hlen], ?_⟩
    intro v' hv'
    rcases List.mem_cons.mp hv' with rfl | hv'
    · exact hvalue bs v' bs' hv
    · exact hall v' hv'

/-- So are entries. -/
private theorem of_readEntries? {value : Bytes → Option (Cbor × Bytes)} {P : Cbor → Prop}
    (hvalue : ∀ bs v rest, value bs = some (v, rest) → P v) {n : Nat} {bs rest : Bytes}
    {es : List (String × Cbor)} (h : readEntries? value n bs = some (es, rest)) :
    es.length = n ∧ ∀ e ∈ es, e.1.utf8ByteSize < 2 ^ 64 ∧ P e.2 := by
  induction n generalizing bs es with
  | zero =>
    cases h
    simp
  | succ n ih =>
    simp only [readEntries?, Option.bind_eq_bind, Option.bind_eq_some_iff] at h
    obtain ⟨⟨k, bs'⟩, hk, ⟨v, bs''⟩, hv, ⟨es', rest'⟩, hes, hpair⟩ := h
    cases hpair
    obtain ⟨hlen, hall⟩ := ih hes
    refine ⟨by rw [List.length_cons, hlen], ?_⟩
    intro e he
    rcases List.mem_cons.mp he with rfl | he
    · exact ⟨size_lt_of_readKey? hk, hvalue bs' v bs'' hv⟩
    · exact hall e he

/-- A new key is put in its place. -/
private theorem of_insertKeyed? {k : String} {v : Cbor} {es es' : List (String × Cbor)}
    (h : insertKeyed? k v es = some es') :
    es'.length = es.length + 1 ∧ (∀ e ∈ es', e = (k, v) ∨ e ∈ es) ∧
      (es.Pairwise (fun e e' => e.1 < e'.1) → es'.Pairwise fun e e' => e.1 < e'.1) := by
  induction es generalizing es' with
  | nil =>
    obtain rfl := Option.some.inj h
    simp
  | cons e es ih =>
    obtain ⟨k', v'⟩ := e
    rw [insertKeyed?] at h
    split at h
    · cases h
    · next hne =>
      split at h
      · next hlt =>
        obtain rfl := Option.some.inj h
        refine ⟨rfl, fun e he => List.mem_cons.mp he, fun hsorted => ?_⟩
        refine List.pairwise_cons.mpr ⟨fun e he => ?_, hsorted⟩
        rcases List.mem_cons.mp he with rfl | he
        · exact hlt
        · exact String.lt_trans hlt ((List.pairwise_cons.mp hsorted).1 e he)
      · next hge =>
        obtain ⟨rest, hrest, rfl⟩ := Option.map_eq_some_iff.mp h
        obtain ⟨hlen, hmem, hsorted⟩ := ih hrest
        refine ⟨by simp [hlen], ?_, ?_⟩
        · intro e he
          rcases List.mem_cons.mp he with rfl | he
          · exact Or.inr (List.mem_cons_self ..)
          · exact (hmem e he).imp_right (List.mem_cons_of_mem _)
        · intro hpair
          obtain ⟨hfirst, hpair⟩ := List.pairwise_cons.mp hpair
          refine List.pairwise_cons.mpr ⟨fun e he => ?_, hsorted hpair⟩
          rcases hmem e he with rfl | he
          · have hle : k' ≤ k := String.not_lt.mp hge
            exact Std.lt_of_le_of_ne hle (Ne.symm hne)
          · exact hfirst e he

/-- Entries that were sorted are the same ones, in order. -/
private theorem of_sortEntries? {es es' : List (String × Cbor)} (h : sortEntries? es = some es') :
    es'.length = es.length ∧ (∀ e ∈ es', e ∈ es) ∧ es'.Pairwise fun e e' => e.1 < e'.1 := by
  induction es generalizing es' with
  | nil =>
    obtain rfl := Option.some.inj h
    simp
  | cons e es ih =>
    obtain ⟨k, v⟩ := e
    simp only [sortEntries?, Option.bind_eq_bind, Option.bind_eq_some_iff] at h
    obtain ⟨sorted, hsorted, hinsert⟩ := h
    obtain ⟨hlen, hmem, hpair⟩ := ih hsorted
    obtain ⟨hlen', hmem', hpair'⟩ := of_insertKeyed? hinsert
    refine ⟨by rw [hlen', hlen, List.length_cons], ?_, hpair' hpair⟩
    intro e he
    rcases hmem' e he with rfl | he
    · exact List.mem_cons_self ..
    · exact List.mem_cons_of_mem _ (hmem e he)

/-! ## Values -/

/-- What is read fits. -/
theorem fits_of_readValue? {depth : Nat} {bs rest : Bytes} {v : Cbor}
    (h : readValue? depth bs = some (v, rest)) : v.Fits depth := by
  -- by induction on the depth, one case for each major type in the head
  induction depth generalizing bs rest v with
  | zero => cases h
  | succ depth ih =>
    simp only [readValue?, Option.bind_eq_bind, Option.bind_eq_some_iff] at h
    obtain ⟨head, hhead, h⟩ := h
    have hnumber := number_lt_of_readHead? hhead
    split at h
    · cases h
      show -2 ^ 64 ≤ (head.number : Int) ∧ (head.number : Int) < 2 ^ 64
      omega
    · cases h
      show -2 ^ 64 ≤ -1 - (head.number : Int) ∧ -1 - (head.number : Int) < 2 ^ 64
      omega
    · obtain ⟨⟨bs', rest'⟩, hbytes, hpair⟩ := Option.map_eq_some_iff.mp h
      cases hpair
      show bs'.length < 2 ^ 64
      rw [length_of_readBytes? hbytes]
      exact hnumber
    · obtain ⟨⟨s, rest'⟩, htext, hpair⟩ := Option.map_eq_some_iff.mp h
      cases hpair
      show s.utf8ByteSize < 2 ^ 64
      rw [size_of_readText? htext]
      exact hnumber
    · obtain ⟨⟨vs, rest'⟩, hitems, hpair⟩ := Option.map_eq_some_iff.mp h
      cases hpair
      obtain ⟨hlen, hall⟩ := of_readItems? (fun _ _ _ hv => ih hv) hitems
      exact ⟨by rw [hlen]; exact hnumber, hall⟩
    · simp only [Option.bind_eq_some_iff] at h
      obtain ⟨⟨es, rest'⟩, hentries, sorted, hsorted, hpair⟩ := h
      cases hpair
      obtain ⟨hlen, hall⟩ := of_readEntries? (fun _ _ _ hv => ih hv) hentries
      obtain ⟨hlen', hmem, hpairwise⟩ := of_sortEntries? hsorted
      exact ⟨by rw [hlen', hlen]; exact hnumber, hpairwise, fun e he => hall e (hmem e he)⟩
    · split at h
      · obtain ⟨⟨c, rest'⟩, -, hpair⟩ := Option.map_eq_some_iff.mp h
        cases hpair
        trivial
      · cases h
    · split at h <;> cases h <;> trivial

/-- What a block is read as fits. -/
theorem fits_of_decode? {bs : Bytes} {v : Cbor} (h : decode? bs = some v) : v.Fits nesting := by
  unfold decode? at h
  split at h
  · next v' hread =>
    obtain rfl := Option.some.inj h
    exact fits_of_readValue? hread
  · cases h

end Cbor

end ReplayVector
