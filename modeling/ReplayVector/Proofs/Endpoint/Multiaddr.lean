import ReplayVector.Endpoint
import ReplayVector.Proofs.Address.Text
import ReplayVector.Proofs.Endpoint.Ip

/-!
# Addresses in layers are read from text as they were written

A slash stands before each part of the text of an address, so the parts are found again as long as
none of them has a slash in it. The name of a host may have one; such an address has no text.

* `Multiaddr.ofChars?_toChars_iff`: the addresses of services that have a text.
* `Multiaddr.of_url?`: the layers of an address that a URL expresses.
* `Multiaddr.colon_mem_toChars_iff`: the layers that bring colons into the text.
-/

namespace ReplayVector

open Json (decimal isDigit_of_mem_decimal)

-- ---------------------------------------------------------------------------
-- Layers
-- ---------------------------------------------------------------------------

namespace Layer

/-- The layer has a place in the address of a service; WebSockets are at the root there. -/
def Serves : Layer → Prop
  | ws path => path = "/"
  | wss path => path = "/"
  | other .. => False
  | _ => True

/-- Such a layer; if it is the name of a host, the name has no slash in it. -/
structure Legible (l : Layer) : Prop where
  serves : l.Serves
  slashFree : ∀ kind name, l = dns kind name → '/' ∉ name.toList

/-- A layer that is only a name takes one part. -/
theorem ofParts?_bare {name : List Char} {l : Layer} (h : bare? name = some l)
    (rest : List (List Char)) : ofParts? (name :: rest) = (ofParts? rest).map (l :: ·) := by
  cases rest with
  | nil =>
    show (bare? name).map ([·]) = _
    rw [h]
    rfl
  | cons argument rest => simp only [ofParts?, h]

/-- One with an argument takes two. -/
theorem ofParts?_argument {name argument : List Char} {l : Layer} (hname : bare? name = none)
    (h : withArgument? name argument = some l) (rest : List (List Char)) :
    ofParts? (name :: argument :: rest) = (ofParts? rest).map (l :: ·) := by
  simp only [ofParts?, hname, h]
  cases ofParts? rest <;> rfl

/-- The layer that stands first is read first. -/
theorem ofParts?_parts_append {l : Layer} (h : l.Legible) (rest : List (List Char)) :
    ofParts? (l.parts ++ rest) = (ofParts? rest).map (l :: ·) := by
  cases l with
  | ip4 a =>
    refine ofParts?_argument (by decide) ?_ rest
    show (Ipv4.ofChars? a.toChars).map ip4 = _
    rw [Ipv4.ofChars?_toChars, Option.map_some]
  | ip6 a =>
    refine ofParts?_argument (by decide) ?_ rest
    show (Ipv6.ofChars? a.toChars).map ip6 = _
    rw [Ipv6.ofChars?_toChars, Option.map_some]
  | dns kind name =>
    have hname : String.ofList name.toList = name := String.ofList_toList
    cases kind <;> refine ofParts?_argument (by decide) ?_ rest
    all_goals
      show some (dns _ (String.ofList name.toList)) = _
      rw [hname]
  | tcp port =>
    refine ofParts?_argument (by decide) ?_ rest
    show (Text.decimal? (2 ^ 16) (Nat.repr port.toNat).toList).map (fun n => tcp n.toUInt16) = _
    rw [Nat.toList_repr, Text.decimal?_decimal port.toNat_lt, Option.map_some]
    simp
  | http => exact ofParts?_bare (by decide) rest
  | https => exact ofParts?_bare (by decide) rest
  | ws path =>
    obtain rfl : path = "/" := h.serves
    exact ofParts?_bare (by decide) rest
  | wss path =>
    obtain rfl : path = "/" := h.serves
    exact ofParts?_bare (by decide) rest
  | other name argument => exact h.serves.elim

/-- Legible layers are read back from their parts. -/
theorem ofParts?_flatMap {ls : List Layer} (h : ∀ l ∈ ls, l.Legible) :
    ofParts? (ls.flatMap parts) = some ls := by
  induction ls with
  | nil => rfl
  | cons l ls ih =>
    obtain ⟨hl, hls⟩ := List.forall_mem_cons.mp h
    rw [List.flatMap_cons, ofParts?_parts_append hl, ih hls, Option.map_some]

/-- Their parts have no slash. -/
theorem slash_notMem_parts {l : Layer} (h : l.Legible) : ∀ p ∈ l.parts, '/' ∉ p := by
  cases l with
  | ip4 a =>
    have hslash : '/' ∉ a.toChars := a.notMem_toChars (by decide) (by decide)
    exact List.forall_mem_cons.mpr ⟨by decide, List.forall_mem_singleton.mpr hslash⟩
  | ip6 a =>
    exact List.forall_mem_cons.mpr
      ⟨by decide, List.forall_mem_singleton.mpr a.slash_notMem_toChars⟩
  | dns kind name =>
    refine List.forall_mem_cons.mpr ⟨?_, List.forall_mem_singleton.mpr (h.slashFree _ _ rfl)⟩
    cases kind <;> decide
  | tcp port =>
    refine List.forall_mem_cons.mpr ⟨by decide, List.forall_mem_singleton.mpr ?_⟩
    rw [Nat.toList_repr]
    exact fun hmem => absurd (isDigit_of_mem_decimal hmem) (by decide)
  | http => exact List.forall_mem_singleton.mpr (by decide)
  | https => exact List.forall_mem_singleton.mpr (by decide)
  | ws path =>
    obtain rfl : path = "/" := h.serves
    exact List.forall_mem_singleton.mpr (by decide)
  | wss path =>
    obtain rfl : path = "/" := h.serves
    exact List.forall_mem_singleton.mpr (by decide)
  | other name argument => exact h.serves.elim

/-- Addresses of version 6 have colons in them, names of hosts may have some. -/
def HasColon : Layer → Prop
  | ip6 _ => True
  | dns _ name => ':' ∈ name.toList
  | _ => False

/-- There is a colon in the parts of a layer of a served address where it has one itself. -/
theorem colon_mem_parts_iff {l : Layer} (h : l.Serves) :
    (∃ p ∈ l.parts, ':' ∈ p) ↔ l.HasColon := by
  cases l with
  | ip4 a =>
    refine iff_of_false (fun ⟨p, hp, hcolon⟩ => ?_) id
    rcases List.mem_cons.mp hp with rfl | hp
    · exact absurd hcolon (by decide)
    · rw [List.mem_singleton.mp hp] at hcolon
      exact a.notMem_toChars (by decide) (by decide) hcolon
  | ip6 a =>
    have hargument : a.toChars ∈ parts (ip6 a) := List.mem_cons_of_mem _ (List.mem_cons_self ..)
    exact iff_of_true ⟨a.toChars, hargument, a.colon_mem_toChars⟩ trivial
  | dns kind name =>
    have hkind : ':' ∉ kind.name.toList := by cases kind <;> decide
    show (∃ p ∈ [kind.name.toList, name.toList], ':' ∈ p) ↔ ':' ∈ name.toList
    simp [hkind]
  | tcp port =>
    refine iff_of_false (fun ⟨p, hp, hcolon⟩ => ?_) id
    rcases List.mem_cons.mp hp with rfl | hp
    · exact absurd hcolon (by decide)
    · rw [List.mem_singleton.mp hp, Nat.toList_repr] at hcolon
      exact absurd (isDigit_of_mem_decimal hcolon) (by decide)
  | http => exact iff_of_false (by decide) id
  | https => exact iff_of_false (by decide) id
  | ws path =>
    obtain rfl : path = "/" := h
    exact iff_of_false (by decide) id
  | wss path =>
    obtain rfl : path = "/" := h
    exact iff_of_false (by decide) id
  | other name argument => exact h.elim

private theorem bare?_ne_dns {name : List Char} {kind : DnsKind} {host : String} :
    bare? name ≠ some (dns kind host) := by
  unfold bare?
  split
  case h_5 => split <;> nofun
  all_goals nofun

/-- A host name is its argument. -/
private theorem of_withArgument?_dns {name argument : List Char} {kind : DnsKind} {host : String}
    (h : withArgument? name argument = some (dns kind host)) : host.toList = argument := by
  unfold withArgument? at h
  split at h
  case h_10 =>
    obtain ⟨accepts, -, h⟩ := Option.bind_eq_some_iff.mp h
    split at h <;> cases h
  -- only the four names of domains give such a layer, and they keep the argument as it is
  all_goals first
    | (cases h; exact String.toList_ofList)
    | (obtain ⟨_, -, h⟩ := Option.map_eq_some_iff.mp h; cases h)

/-- A name that has been read is one of the parts. -/
theorem mem_of_ofParts? {ps : List (List Char)} {ls : List Layer} (h : ofParts? ps = some ls)
    {kind : DnsKind} {name : String} (hmem : .dns kind name ∈ ls) : name.toList ∈ ps := by
  induction ps using ofParts?.induct generalizing ls with
  | case1 =>
    cases h
    cases hmem
  | case2 part =>
    obtain ⟨l, hl, rfl⟩ := Option.map_eq_some_iff.mp h
    obtain rfl := List.mem_singleton.mp hmem
    exact absurd hl bare?_ne_dns
  | case3 part argument rest l hbare ih =>
    simp only [ofParts?, hbare] at h
    obtain ⟨ls, hls, rfl⟩ := Option.map_eq_some_iff.mp h
    rcases List.mem_cons.mp hmem with rfl | hmem
    · exact absurd hbare bare?_ne_dns
    · exact List.mem_cons_of_mem _ (ih hls hmem)
  | case4 part argument rest hbare ih =>
    simp only [ofParts?, hbare] at h
    obtain ⟨l, hl, h⟩ := Option.bind_eq_some_iff.mp h
    obtain ⟨ls, hls, h⟩ := Option.bind_eq_some_iff.mp h
    cases h
    rcases List.mem_cons.mp hmem with rfl | hmem
    · rw [of_withArgument?_dns hl]
      exact List.mem_cons_of_mem _ (List.mem_cons_self ..)
    · exact List.mem_cons_of_mem _ (List.mem_cons_of_mem _ (ih hls hmem))

end Layer

-- ---------------------------------------------------------------------------
-- Addresses
-- ---------------------------------------------------------------------------

namespace Multiaddr

/-- The text of an address is cut into the parts of its layers. -/
theorem fields_toChars {a : Multiaddr} (h : ∀ l ∈ a.layers, l.Legible) :
    Text.fields '/' a.toChars = [] :: a.layers.flatMap Layer.parts := by
  refine Text.fields_flatMap fun p hp => ?_
  obtain ⟨l, hl, hp⟩ := List.mem_flatMap.mp hp
  exact Layer.slash_notMem_parts (h l hl) p hp

/-- So it is read back. -/
theorem ofChars?_toChars {a : Multiaddr} (h : ∀ l ∈ a.layers, l.Legible) :
    ofChars? a.toChars = some a := by
  rw [ofChars?, fields_toChars h]
  show (Layer.ofParts? (a.layers.flatMap Layer.parts)).map _ = _
  rw [Layer.ofParts?_flatMap h]
  rfl

/-- No name of a host has a slash in it. -/
def SlashFree (a : Multiaddr) : Prop :=
  ∀ kind name, .dns kind name ∈ a.layers → '/' ∉ name.toList

/-- What was read has no slash in its host names, for it was cut there. -/
theorem slashFree_of_ofChars? {cs : List Char} {a : Multiaddr} (h : ofChars? cs = some a) :
    a.SlashFree := by
  intro kind name hmem
  unfold ofChars? at h
  split at h
  · next ps hfields =>
    obtain ⟨ls, hls, rfl⟩ := Option.map_eq_some_iff.mp h
    have hname : name.toList ∈ Text.fields '/' cs :=
      hfields ▸ List.mem_cons_of_mem _ (Layer.mem_of_ofParts? hls hmem)
    exact Text.notMem_of_mem_fields hname
  · cases h

/-- An address of a service has a text exactly if no name in it has a slash. -/
theorem ofChars?_toChars_iff {a : Multiaddr} (h : ∀ l ∈ a.layers, l.Serves) :
    ofChars? a.toChars = some a ↔ a.SlashFree := by
  refine ⟨slashFree_of_ofChars?, fun hfree => ofChars?_toChars fun l hl => ⟨h l hl, ?_⟩⟩
  rintro kind name rfl
  exact hfree kind name hl

/-- A text that does not start with a slash is no address. -/
theorem ofChars?_eq_none {c : Char} (h : c ≠ '/') (cs : List Char) : ofChars? (c :: cs) = none := by
  rw [ofChars?, Text.fields, if_neg h]
  cases Text.fields '/' cs <;> rfl

/-! ## Addresses of services -/

/-- The layers after that of a host: perhaps a port, and a scheme. -/
def serviceLayers (port : Option UInt16) (last : Layer) : List Layer :=
  port.elim [last] fun p => [.tcp p, last]

/-- An address that a URL expresses has a host, perhaps a port, and a scheme. -/
theorem of_url? {a : Multiaddr} {u : Url} (h : a.url? = some u) :
    ∃ host port last s, a.layers = host :: serviceLayers port last ∧ scheme? last = some s ∧
      urlAt? s port host = some u := by
  unfold url? at h
  split at h
  · next host port last hlayers =>
    obtain ⟨s, hs, hu⟩ := Option.bind_eq_some_iff.mp h
    exact ⟨host, some port, last, s, hlayers, hs, hu⟩
  · next host last hlayers =>
    obtain ⟨s, hs, hu⟩ := Option.bind_eq_some_iff.mp h
    exact ⟨host, none, last, s, hlayers, hs, hu⟩
  · cases h

/-- A layer that names a scheme has no colon. -/
theorem of_scheme? {l : Layer} {s : Scheme} (h : scheme? l = some s) :
    l.Legible ∧ ¬ l.HasColon := by
  unfold scheme? at h
  split at h
  · exact ⟨⟨trivial, nofun⟩, id⟩
  · exact ⟨⟨trivial, nofun⟩, id⟩
  · exact ⟨⟨(Option.ite_none_right_eq_some.mp h).1, nofun⟩, id⟩
  · exact ⟨⟨(Option.ite_none_right_eq_some.mp h).1, nofun⟩, id⟩
  · cases h

/-- The layers after that of a host have neither slashes nor colons in them. -/
theorem of_mem_serviceLayers {port : Option UInt16} {last : Layer} {s : Scheme}
    (h : scheme? last = some s) : ∀ l ∈ serviceLayers port last, l.Legible ∧ ¬ l.HasColon := by
  cases port with
  | none => exact List.forall_mem_singleton.mpr (of_scheme? h)
  | some p =>
    exact List.forall_mem_cons.mpr
      ⟨⟨⟨trivial, nofun⟩, id⟩, List.forall_mem_singleton.mpr (of_scheme? h)⟩

/-- What stands where a host belongs is an address or a name. -/
theorem of_urlAt? {s : Scheme} {port : Option UInt16} {host : Layer} {u : Url}
    (h : urlAt? s port host = some u) :
    host.Serves ∧ ∃ kind argument, host.parts = [kind, argument] ∧ ':' ∉ kind := by
  cases host with
  | ip4 a => exact ⟨trivial, _, _, rfl, by decide⟩
  | ip6 a => exact ⟨trivial, _, _, rfl, by decide⟩
  | dns kind name => exact ⟨trivial, _, _, rfl, by cases kind <;> decide⟩
  | _ => cases h

/-- An address with a URL has no layers but those that serve one. -/
theorem serves_of_url? {a : Multiaddr} {u : Url} (h : a.url? = some u) :
    ∀ l ∈ a.layers, l.Serves := by
  obtain ⟨host, port, last, s, hlayers, hs, hu⟩ := of_url? h
  rw [hlayers]
  exact List.forall_mem_cons.mpr
    ⟨(of_urlAt? hu).1, fun l hl => (of_mem_serviceLayers hs l hl).1.serves⟩

/-- A URL needs a host: the layers after it express none. -/
theorem url?_serviceLayers (port : Option UInt16) {last : Layer} {s : Scheme}
    (h : scheme? last = some s) : url? ⟨serviceLayers port last⟩ = none := by
  cases port with
  | none => rfl
  | some p => simp [url?, serviceLayers, urlAt?, h]

/-- The text of an address has a colon in it if a layer has one. -/
theorem colon_mem_toChars_iff {a : Multiaddr} (h : ∀ l ∈ a.layers, l.Serves) :
    ':' ∈ a.toChars ↔ ∃ l ∈ a.layers, l.HasColon := by
  constructor
  · intro hcolon
    obtain ⟨p, hp, hcolon⟩ := List.mem_flatMap.mp hcolon
    obtain ⟨l, hl, hp⟩ := List.mem_flatMap.mp hp
    have hmem : ':' ∈ p := (List.mem_cons.mp hcolon).resolve_left (by decide)
    exact ⟨l, hl, (Layer.colon_mem_parts_iff (h l hl)).mp ⟨p, hp, hmem⟩⟩
  · rintro ⟨l, hl, hcolon⟩
    obtain ⟨p, hp, hmem⟩ := (Layer.colon_mem_parts_iff (h l hl)).mpr hcolon
    exact List.mem_flatMap.mpr
      ⟨p, List.mem_flatMap.mpr ⟨l, hl, hp⟩, List.mem_cons_of_mem _ hmem⟩

end Multiaddr

end ReplayVector
