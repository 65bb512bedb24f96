import ReplayVector.Proofs.Endpoint.Multiaddr

/-!
# Endpoints with and without a token

The first colon of the text of an endpoint ends the token. Behind a token the text of an address is
read as it is, but the text of an address alone must not have a colon of its own: what stands before
it would be taken for a token, and what follows it is no address of a service.

* `Endpoint.text_read_iff`: the endpoints that are read from their texts.
* `Endpoint.loopback_refused`: one that is not.
-/

namespace ReplayVector

namespace Multiaddr

/-- The text of an address. -/
def text (a : Multiaddr) : String := toString a

theorem toList_text (a : Multiaddr) : a.text.toList = a.toChars := String.toList_ofList

theorem colon_notMem_serviceLayers (port : Option UInt16) {last : Layer} {s : Scheme}
    (h : scheme? last = some s) : ':' ∉ toChars ⟨serviceLayers port last⟩ := by
  have hlayers : ∀ l ∈ serviceLayers port last, l.Legible ∧ ¬ l.HasColon := of_mem_serviceLayers h
  intro hmem
  obtain ⟨l, hl, hcolon⟩ := (colon_mem_toChars_iff fun l hl => (hlayers l hl).1.serves).mp hmem
  exact (hlayers l hl).2 hcolon

/-- The text of a service's address is that of its host, and that of the layers after it. -/
theorem exists_toChars_eq {a : Multiaddr} {u : Url} (hu : a.url? = some u) (hfree : a.SlashFree) :
    ∃ kind argument port last s,
      a.toChars = '/' :: kind ++ '/' :: argument ++ toChars ⟨serviceLayers port last⟩ ∧
      ':' ∉ kind ∧ '/' ∉ argument ∧ scheme? last = some s := by
  obtain ⟨host, port, last, s, hlayers, hs, hhost⟩ := of_url? hu
  obtain ⟨hserves, kind, argument, hparts, hkind⟩ := of_urlAt? hhost
  refine ⟨kind, argument, port, last, s, ?_, hkind, ?_, hs⟩
  · rw [toChars, hlayers, List.flatMap_cons, hparts]
    simp [toChars]
  · have hmem : host ∈ a.layers := hlayers ▸ List.mem_cons_self ..
    have hlegible : host.Legible := ⟨hserves, fun kind name heq => hfree kind name (heq ▸ hmem)⟩
    exact Layer.slash_notMem_parts hlegible argument (hparts ▸ by simp)

/-- The first colon is in the argument of the host: what follows it is the rest of the argument,
and the layers after the host. -/
theorem rest_of_cut {a : Multiaddr} {u : Url} (hu : a.url? = some u) (hfree : a.SlashFree)
    {front rest : List Char} (hcut : Text.cut? ':' a.toChars = some (front, rest)) :
    ∃ after port last s, rest = after ++ toChars ⟨serviceLayers port last⟩ ∧ '/' ∉ after ∧
      scheme? last = some s := by
  obtain ⟨kind, argument, port, last, s, htext, hkind, hslash, hs⟩ := exists_toChars_eq hu hfree
  have htail := colon_notMem_serviceLayers port hs
  have hcolon : ':' ∈ argument := by
    have hmem : ':' ∈ a.toChars := Decidable.of_not_not fun hnot => by
      rw [Text.cut?_eq_none_iff.mpr hnot] at hcut
      cases hcut
    rw [htext] at hmem
    simpa [hkind, htail] using hmem
  obtain ⟨before, after, rfl, hbefore⟩ := List.eq_append_cons_of_mem hcolon
  have hfront : ':' ∉ '/' :: kind ++ '/' :: before := by simp [hkind, hbefore]
  have hfirst := Text.cut?_append hfront (after ++ toChars ⟨serviceLayers port last⟩)
  have heq : a.toChars = '/' :: kind ++ '/' :: before ++
      ':' :: (after ++ toChars ⟨serviceLayers port last⟩) := by
    simp [htext]
  rw [heq, hfirst] at hcut
  have hafter : '/' ∉ after := fun hmem => hslash (by simp [hmem])
  exact ⟨after, port, last, s, (Prod.mk.inj (Option.some.inj hcut)).2.symm, hafter, hs⟩

/-- What follows the first colon in the text of a service's address is no address of a service. -/
theorem url?_of_cut {a : Multiaddr} {u : Url} (hu : a.url? = some u) (hfree : a.SlashFree)
    {front rest : List Char} (hcut : Text.cut? ':' a.toChars = some (front, rest)) :
    ∀ b, ofChars? rest = some b → b.url? = none := by
  obtain ⟨after, port, last, s, rfl, hslash, hs⟩ := rest_of_cut hu hfree hcut
  intro b hb
  cases after with
  | nil =>
    -- the layers after the host are an address, but without a host
    have hread : ofChars? (toChars ⟨serviceLayers port last⟩) = some ⟨serviceLayers port last⟩ :=
      ofChars?_toChars fun l hl => (of_mem_serviceLayers hs l hl).1
    rw [List.nil_append, hread] at hb
    rw [← Option.some.inj hb]
    exact url?_serviceLayers port hs
  | cons c after =>
    have hc : c ≠ '/' := fun heq => hslash (by simp [heq])
    rw [List.cons_append, ofChars?_eq_none hc] at hb
    cases hb

end Multiaddr

namespace Endpoint

/-- What is read of the text of an address, with what stood before it as a token. -/
def ofAddress (token : Option String) (cs : List Char) : Except Failure Endpoint :=
  match Multiaddr.ofChars? cs with
  | none => .error (.of (.badMultiaddr (String.ofList cs)))
  | some address =>
    match address.url? with
    | none => .error (.of .noUrl)
    | some url => .ok { address, url, token }

theorem ofString_of_cut {s : String} {front rest : List Char}
    (h : Text.cut? ':' s.toList = some (front, rest)) :
    ofString s = ofAddress (some (String.ofList front)) rest := by
  simp only [ofString, h]
  rfl

theorem ofString_of_notMem {s : String} (h : ':' ∉ s.toList) :
    ofString s = ofAddress none s.toList := by
  simp only [ofString, Text.cut?_eq_none_iff.mpr h]
  rfl

/-- An endpoint is read with the token that stood before it, of an address that a URL expresses. -/
theorem ofAddress_eq_ok_iff {token token' : Option String} {cs : List Char} {a : Multiaddr}
    {u : Url} (hu : a.url? = some u) :
    ofAddress token cs = .ok ⟨a, u, token'⟩ ↔ Multiaddr.ofChars? cs = some a ∧ token = token' := by
  constructor
  · intro h
    unfold ofAddress at h
    split at h
    · cases h
    · next address hread =>
      split at h
      · cases h
      · cases h
        exact ⟨hread, rfl⟩
  · rintro ⟨hread, rfl⟩
    simp only [ofAddress, hread, hu]

/-- Nothing is read of a text that is no address of a service. -/
theorem ofAddress_eq_error {cs : List Char}
    (h : ∀ a, Multiaddr.ofChars? cs = some a → a.url? = none) (token : Option String) :
    ∃ f, ofAddress token cs = .error f := by
  unfold ofAddress
  split
  · exact ⟨_, rfl⟩
  · next a hread =>
    rw [h a hread]
    exact ⟨_, rfl⟩

/-- Behind a token, what is read is the text of the address. -/
theorem ofString_token {token : String} (h : ':' ∉ token.toList) (a : Multiaddr) :
    ofString (token ++ ":" ++ a.text) = ofAddress (some token) a.toChars := by
  have hcut : Text.cut? ':' (token ++ ":" ++ a.text).toList = some (token.toList, a.toChars) := by
    rw [String.toList_append, String.toList_append, Multiaddr.toList_text, List.append_assoc]
    exact Text.cut?_append h a.toChars
  rw [ofString_of_cut hcut, String.ofList_toList]

/-- An address with a colon in its text is cut there, and its front taken for a token. -/
theorem ofString_of_colon {a : Multiaddr} (h : ':' ∈ a.toChars) :
    ∃ front rest, Text.cut? ':' a.toChars = some (front, rest) ∧
      ofString a.text = ofAddress (some (String.ofList front)) rest := by
  obtain ⟨front, rest, htext, hfront⟩ := List.eq_append_cons_of_mem h
  have hcut : Text.cut? ':' a.toChars = some (front, rest) := htext ▸ Text.cut?_append hfront rest
  exact ⟨front, rest, hcut, ofString_of_cut (a.toList_text.symm ▸ hcut)⟩

/-- The text of an endpoint with a token. -/
theorem toString_token (a : Multiaddr) (u : Url) (token : String) :
    toString ⟨a, u, some token⟩ = token ++ ":" ++ a.text := by
  apply String.toList_inj.mp
  rw [String.toList_append, String.toList_append, Multiaddr.toList_text, toString,
    String.toList_ofList]
  rfl

/-- The texts of an address that a URL expresses, with a token in front and without. The token
makes no difference to what is read, and what is read is written as it was. But without a token an
address is read only if it has no colon; those with addresses of version 6 have, and are refused. -/
theorem text_read_iff {a : Multiaddr} {u : Url} (hu : a.url? = some u) :
    (∀ token : String, ':' ∉ token.toList →
      (ofString (token ++ ":" ++ a.text) = .ok ⟨a, u, some token⟩ ↔ a.SlashFree) ∧
      toString ⟨a, u, some token⟩ = token ++ ":" ++ a.text) ∧
    (ofString a.text = .ok ⟨a, u, none⟩ ↔ a.SlashFree ∧ ∀ l ∈ a.layers, ¬ l.HasColon) ∧
    toString ⟨a, u, none⟩ = a.text ∧
    (a.SlashFree → (∃ l ∈ a.layers, l.HasColon) → ∃ f, ofString a.text = .error f) := by
  have hserves := Multiaddr.serves_of_url? hu
  have hreads := Multiaddr.ofChars?_toChars_iff hserves
  have hcolon := Multiaddr.colon_mem_toChars_iff hserves
  refine ⟨fun token htoken => ⟨?_, toString_token a u token⟩, ?_, rfl, fun hfree hhas => ?_⟩
  · rw [ofString_token htoken, ofAddress_eq_ok_iff hu, hreads, and_iff_left rfl]
  · by_cases hhas : ∃ l ∈ a.layers, l.HasColon
    · -- something that looks like a token has been read with it
      obtain ⟨front, rest, -, hread⟩ := ofString_of_colon (hcolon.mpr hhas)
      obtain ⟨l, hl, hl'⟩ := hhas
      rw [hread, ofAddress_eq_ok_iff hu]
      exact iff_of_false (fun h => nomatch h.2) fun h => h.2 l hl hl'
    · have hmem : ':' ∉ a.text.toList := by
        rwa [Multiaddr.toList_text, hcolon]
      rw [ofString_of_notMem hmem, ofAddress_eq_ok_iff hu, Multiaddr.toList_text, hreads,
        and_iff_left rfl]
      exact (and_iff_left fun l hl hl' => hhas ⟨l, hl, hl'⟩).symm
  · obtain ⟨front, rest, hfirst, hread⟩ := ofString_of_colon (hcolon.mpr hhas)
    rw [hread]
    exact ofAddress_eq_error (Multiaddr.url?_of_cut hu hfree hfirst) _

/-- A service at the loopback address of version 6. -/
private def loopback : Multiaddr :=
  ⟨[.ip6 ⟨⟨[0, 0, 0, 0, 0, 0, 0, 1], rfl⟩⟩, .tcp 1234, .ws "/"]⟩

/-- Its URL. -/
private def loopbackUrl : Url :=
  Url.root .ws (.ipv6 ⟨⟨[0, 0, 0, 0, 0, 0, 0, 1], rfl⟩⟩) (some 1234)

private theorem text_loopback : loopback.text = "/ip6/::1/tcp/1234/ws" := by decide

/-- Behind a token the address of the service is read, alone it is not. -/
theorem text_read_iff_loopback :
    ofString "secret:/ip6/::1/tcp/1234/ws" = .ok ⟨loopback, loopbackUrl, some "secret"⟩ ∧
    ofString "/ip6/::1/tcp/1234/ws" ≠ .ok ⟨loopback, loopbackUrl, none⟩ := by
  have hfree : loopback.SlashFree := fun kind name hmem => by simp [loopback] at hmem
  obtain ⟨htoken, halone, -⟩ := text_read_iff (a := loopback) (u := loopbackUrl) (by decide)
  rw [text_loopback] at halone
  refine ⟨?_, fun h => (halone.mp h).2 _ (List.mem_cons_self ..) trivial⟩
  have hread := ((htoken "secret" (by decide)).1).mpr hfree
  rw [text_loopback] at hread
  exact hread

/-- The address has a URL, but its text alone is refused at its own first colon. -/
theorem loopback_refused :
    loopback.url? = some loopbackUrl ∧
    ofString loopback.text = .error (.of (.badMultiaddr ":1/tcp/1234/ws")) := by
  refine ⟨by decide, ?_⟩
  rw [text_loopback]
  decide

end Endpoint

end ReplayVector
