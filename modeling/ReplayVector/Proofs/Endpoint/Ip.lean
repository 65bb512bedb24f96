import ReplayVector.Endpoint.Ip
import ReplayVector.Proofs.Bytes.Text
import ReplayVector.Proofs.Json.Numbers
import ReplayVector.Proofs.Text.Fields
import Mathlib.Data.List.TakeWhile
import Mathlib.Data.Nat.Digits.Defs

/-!
# Internet addresses are read from text as they were written

The text of a version 6 address leaves out the first of its longest runs of zeros. What is left on
both sides has eight groups less that run, so the reader puts as many zeros in between.

* `Ipv4.ofChars?_toChars`, `Ipv6.ofChars?_toChars`: reading undoes writing.
* `Ipv4.notMem_toChars`, `Ipv6.slash_notMem_toChars`, `Ipv6.colon_mem_toChars`: the characters of
  the texts.
-/

namespace ReplayVector

open Json (decimal decimal_ne_nil isDigit_of_mem_decimal all_isDigit_decimal foldl_decimal
  head?_decimal_ne)

/-- A partial function with results on all of a list is defined on each element. -/
private theorem isSome_of_mapM {α β : Type} {f : α → Option β} {as : List α} {bs : List β}
    (h : as.mapM f = some bs) : ∀ a ∈ as, (f a).isSome = true := by
  induction as generalizing bs with
  | nil => exact fun _ ha => absurd ha List.not_mem_nil
  | cons a as ih =>
    simp only [List.mapM_cons, Option.bind_eq_bind, Option.bind_eq_some_iff] at h
    obtain ⟨b, hb, bs', hbs, -⟩ := h
    exact List.forall_mem_cons.mpr ⟨hb ▸ rfl, ih hbs⟩

-- ---------------------------------------------------------------------------
-- Version 4
-- ---------------------------------------------------------------------------

namespace Ipv4

/-- An octet is read back from its decimal digits. -/
theorem octet?_decimal (b : UInt8) : octet? (decimal b.toNat) = some b := by
  have hlt : b.toNat < 256 := b.toNat_lt
  have hvalue : Text.digitsValue (decimal b.toNat) = b.toNat := foldl_decimal b.toNat
  by_cases hzero : b.toNat = 0
  · have hb : b = 0 := UInt8.toNat_inj.mp hzero
    rw [hb]
    rfl
  · have hhead := head?_decimal_ne hzero
    have hne : decimal b.toNat ≠ ['0'] := fun heq => hhead (by rw [heq]; rfl)
    have hlength : (decimal b.toNat).length ≤ 3 :=
      Nat.toDigits_length 10 b.toNat 3 (by omega) (by omega)
    have hread : decimal b.toNat ≠ [] ∧ (decimal b.toNat).length ≤ 3 ∧
        (decimal b.toNat).all Char.isDigit ∧ (decimal b.toNat).head? ≠ some '0' ∧
        Text.digitsValue (decimal b.toNat) < 256 :=
      ⟨decimal_ne_nil _, hlength, all_isDigit_decimal _, hhead, hvalue.symm ▸ hlt⟩
    rw [octet?, if_neg hne, if_pos hread, hvalue]
    simp

/-- So are all four of an address. -/
private theorem mapM_octet?_decimal (bs : Bytes) :
    (bs.map fun b => decimal b.toNat).mapM octet? = some bs := by
  induction bs with
  | nil => rfl
  | cons b bs ih =>
    rw [List.map_cons, List.mapM_cons, octet?_decimal, ih]
    rfl

/-- An address is its octets with dots between them. -/
theorem toChars_eq (a : Ipv4) :
    a.toChars = Text.join '.' (a.octets.val.map fun b => decimal b.toNat) := by
  simp only [toChars, Nat.toList_repr]

/-- The text has digits and dots only. -/
theorem notMem_toChars {c : Char} (hdigit : c.isDigit = false) (hdot : c ≠ '.') (a : Ipv4) :
    c ∉ a.toChars := by
  rw [toChars_eq]
  intro h
  rcases Text.mem_of_mem_join h with ⟨f, hf, hc⟩ | hc
  · obtain ⟨b, -, rfl⟩ := List.mem_map.mp hf
    rw [isDigit_of_mem_decimal hc] at hdigit
    cases hdigit
  · exact hdot hc

theorem dot_mem_toChars (a : Ipv4) : '.' ∈ a.toChars := by
  obtain ⟨⟨octets, hlength⟩⟩ := a
  match octets, hlength with
  | b :: b' :: rest, _ =>
    have hne : (b' :: rest).map (fun b => decimal b.toNat) ≠ [] := nofun
    rw [toChars_eq, List.map_cons, Text.join_cons hne]
    exact List.mem_append_right _ (List.mem_cons_self ..)

/-- It is read back from its text. -/
theorem ofChars?_toChars (a : Ipv4) : ofChars? a.toChars = some a := by
  have hne : a.octets.val.map (fun b => decimal b.toNat) ≠ [] := by
    intro h
    have := congrArg List.length h
    rw [List.length_map, a.octets.property] at this
    cases this
  have hfields : Text.fields '.' a.toChars = a.octets.val.map fun b => decimal b.toNat := by
    rw [toChars_eq]
    refine Text.fields_join hne fun f hf => ?_
    obtain ⟨b, -, rfl⟩ := List.mem_map.mp hf
    exact fun hdot => absurd (isDigit_of_mem_decimal hdot) (by decide)
  rw [ofChars?, hfields, mapM_octet?_decimal]
  show (Bytes.sized? 4 a.octets.val).bind (fun octets => some (Ipv4.mk octets)) = _
  rw [Bytes.sized?_val]
  rfl

end Ipv4
-- ---------------------------------------------------------------------------
-- Version 6
-- ---------------------------------------------------------------------------

namespace Ipv6

/-- The digits of a group. -/
abbrev hex (g : UInt16) : List Char := Nat.toDigits 16 g.toNat

/-- A digit is read as its value. -/
private theorem hexValue?_digitChar {d : Nat} (h : d < 16) :
    Bytes.hexValue? (Nat.digitChar d) = some d := by
  have hall : ∀ d < 16, Bytes.hexValue? (Nat.digitChar d) = some d := by decide
  exact hall d h

/-- The digits of a number are read one by one, and have its value. -/
private theorem mapM_hexValue?_toDigits (n : Nat) :
    ∃ ds, (Nat.toDigits 16 n).mapM Bytes.hexValue? = some ds ∧
      ds.foldl (fun n d => 16 * n + d) 0 = n := by
  induction n using Nat.strongRecOn with
  | ind n ih =>
    by_cases hlt : n < 16
    · refine ⟨[n], ?_, by simp⟩
      rw [Nat.toDigits_of_lt_base hlt, List.mapM_cons, hexValue?_digitChar hlt]
      rfl
    · obtain ⟨ds, hds, hvalue⟩ := ih (n / 16) (by omega)
      have hlast := hexValue?_digitChar (Nat.mod_lt n (show 0 < 16 by omega))
      refine ⟨ds ++ [n % 16], ?_, ?_⟩
      · rw [Nat.toDigits_of_base_le (by omega) (by omega), List.mapM_append, hds,
          List.mapM_cons, hlast]
        rfl
      · rw [List.foldl_append, hvalue]
        show 16 * (n / 16) + n % 16 = n
        omega

/-- A group consists of digits. -/
private theorem isSome_hexValue?_of_mem {g : UInt16} {c : Char} (h : c ∈ hex g) :
    (Bytes.hexValue? c).isSome = true := by
  obtain ⟨ds, hds, -⟩ := mapM_hexValue?_toDigits g.toNat
  exact isSome_of_mapM hds c h

/-- A group is read back from its digits. -/
theorem group?_hex (g : UInt16) : group? (hex g) = some g := by
  obtain ⟨ds, hds, hvalue⟩ := mapM_hexValue?_toDigits g.toNat
  have hlt : g.toNat < 65536 := g.toNat_lt
  have hlength : (hex g).length ≤ 4 := Nat.toDigits_length 16 g.toNat 4 (by omega) (by omega)
  rw [group?, if_pos ⟨Nat.toDigits_ne_nil, hlength⟩, hds, Option.map_some, hvalue]
  simp

/-- So are groups one after the other. -/
theorem readFields?_hex (tail : Bool) (gs : List UInt16) :
    readFields? tail (gs.map hex) = some gs := by
  induction gs with
  | nil => rfl
  | cons g gs ih =>
    cases gs with
    | nil => simp only [List.map_cons, List.map_nil, readFields?, group?_hex]
    | cons g' gs =>
      have hcons : (g' :: gs).map hex ≠ [] := nofun
      rw [List.map_cons, readFields?.eq_3 _ _ _ hcons, group?_hex, ih]
      rfl

/-- No group has a colon. -/
theorem colon_notMem_hex (g : UInt16) : ':' ∉ hex g := by
  intro h
  exact absurd (isSome_hexValue?_of_mem h) (by decide)

/-- Groups are read back from a text with colons between them. -/
theorem readGroups?_joinGroups (tail : Bool) (gs : List UInt16) :
    readGroups? tail (joinGroups gs) = some gs := by
  cases gs with
  | nil => rfl
  | cons g gs =>
    have hfields : Text.fields ':' (joinGroups (g :: gs)) = (g :: gs).map hex :=
      Text.fields_join nofun fun f hf => by
        obtain ⟨g', -, rfl⟩ := List.mem_map.mp hf
        exact colon_notMem_hex g'
    have hne : joinGroups (g :: gs) ≠ [] := fun h => by
      rw [h] at hfields
      cases gs with
      | nil => exact absurd (List.cons.inj hfields).1.symm Nat.toDigits_ne_nil
      | cons g' gs => cases (List.cons.inj hfields).2
    rw [readGroups?, if_neg hne, hfields, readFields?_hex]

/-! ## Two colons -/

/-- What stands before the first colon is left as it is. -/
theorem cutZeros?_append {front : List Char} (h : ':' ∉ front) (rest : List Char) :
    cutZeros? (front ++ rest) = (cutZeros? rest).map fun (f, b) => (front ++ f, b) := by
  induction front with
  | nil => simp
  | cons c front ih =>
    have hc : ':' ≠ c := List.ne_of_not_mem_cons h
    rw [List.cons_append, cutZeros?.eq_3 _ _ fun _ heq _ => hc heq.symm,
      ih (List.not_mem_of_not_mem_cons h), Option.map_map]
    rfl

/-- No two colons in a row stand in joined groups. -/
theorem cutZeros?_joinGroups (gs : List UInt16) (rest : List Char) :
    cutZeros? (joinGroups gs ++ rest) =
      (cutZeros? rest).map fun (f, b) => (joinGroups gs ++ f, b) := by
  induction gs with
  | nil => simp [joinGroups, Text.join]
  | cons g gs ih =>
    have hg := colon_notMem_hex g
    cases gs with
    | nil => exact cutZeros?_append hg rest
    | cons g' gs =>
      have hjoin : joinGroups (g :: g' :: gs) = hex g ++ ':' :: joinGroups (g' :: gs) := rfl
      have hcolon : cutZeros? (':' :: (joinGroups (g' :: gs) ++ rest)) =
          (cutZeros? (joinGroups (g' :: gs) ++ rest)).map fun (f, b) => (':' :: f, b) := by
        -- the first digit of the next group is no colon
        refine cutZeros?.eq_3 _ _ fun rest' _ heq => ?_
        obtain ⟨c, cs, hhex⟩ := List.exists_cons_of_ne_nil (l := hex g') Nat.toDigits_ne_nil
        have hc : ':' ≠ c := List.ne_of_not_mem_cons (hhex ▸ colon_notMem_hex g')
        obtain ⟨cs', hcs⟩ : ∃ cs', joinGroups (g' :: gs) = c :: cs' := by
          cases gs with
          | nil => exact ⟨cs, hhex⟩
          | cons g'' gs => exact ⟨cs ++ ':' :: joinGroups (g'' :: gs), by
              rw [← List.cons_append, ← hhex]
              rfl⟩
        rw [hcs, List.cons_append] at heq
        exact hc (List.cons.inj heq).1.symm
      rw [hjoin, List.append_assoc, List.cons_append, cutZeros?_append hg, hcolon, ih,
        Option.map_map, Option.map_map]
      refine congrArg (Option.map · _) (funext fun p => ?_)
      simp

/-! ## Runs of zeros -/

/-- Some groups in a row are zero. -/
def IsRun (gs : List UInt16) (run : Nat × Nat) : Prop :=
  run.1 + run.2 ≤ gs.length ∧ (gs.drop run.1).take run.2 = List.replicate run.2 0

/-- The longest run of zeros is one. -/
theorem isRun_longestZeros (gs : List UInt16) : IsRun gs (longestZeros gs) := by
  refine List.foldlRecOn _ _ ⟨Nat.zero_le _, rfl⟩ fun best hbest i hi => ?_
  show IsRun gs (if ((gs.drop i).takeWhile (· == 0)).length > best.2 then _ else best)
  split
  · have hi : i < gs.length := List.mem_range.mp hi
    have hprefix := List.takeWhile_prefix (l := gs.drop i) (· == 0)
    have hlength := hprefix.length_le
    rw [List.length_drop] at hlength
    refine ⟨by omega, ?_⟩
    rw [← List.prefix_iff_eq_take.mp hprefix]
    refine List.eq_replicate_of_mem fun g hg => ?_
    have hzero : (g == 0) = true := List.mem_takeWhile_imp (p := (· == 0)) hg
    exact eq_of_beq hzero
  · exact hbest

/-- The groups on both sides of a run, with the run between them. -/
theorem IsRun.append_eq {gs : List UInt16} {start run : Nat} (h : IsRun gs (start, run)) :
    gs.take start ++ List.replicate run 0 ++ gs.drop (start + run) = gs := by
  have hzeros : (gs.drop start).take run = List.replicate run 0 := h.2
  rw [← hzeros, List.append_assoc, ← List.drop_drop, List.take_append_drop, List.take_append_drop]

/-- An address is made of its own groups. -/
theorem ofGroups?_groups (a : Ipv6) : ofGroups? a.groups.val = some a := by
  rw [ofGroups?, dif_pos a.groups.property]

/-! ## Reading -/

/-- The reader puts back the run of zeros that is left out. -/
private theorem ofChars?_cut {a : Ipv6} {start run : Nat} (h : IsRun a.groups.val (start, run))
    (hrun : 1 ≤ run) :
    ofChars? (joinGroups (a.groups.val.take start) ++ [':', ':'] ++
      joinGroups (a.groups.val.drop (start + run))) = some a := by
  have hlength : a.groups.val.length = 8 := a.groups.property
  have hle : start + run ≤ a.groups.val.length := h.1
  have hcut : cutZeros? (joinGroups (a.groups.val.take start) ++ [':', ':'] ++
      joinGroups (a.groups.val.drop (start + run))) =
      some (joinGroups (a.groups.val.take start),
        joinGroups (a.groups.val.drop (start + run))) := by
    rw [List.append_assoc, cutZeros?_joinGroups]
    show some (joinGroups _ ++ [], _) = _
    rw [List.append_nil]
    rfl
  rw [ofChars?, hcut]
  show (readGroups? false (joinGroups _)).bind (fun front =>
    (readGroups? true (joinGroups _)).bind fun back =>
      if front.length + back.length ≤ 7 then
        ofGroups? (front ++ List.replicate (8 - front.length - back.length) 0 ++ back)
      else none) = _
  rw [readGroups?_joinGroups, readGroups?_joinGroups, Option.bind_some, Option.bind_some,
    List.length_take, List.length_drop, hlength, if_pos (by omega),
    show 8 - min start 8 - (8 - (start + run)) = run by omega, h.append_eq, ofGroups?_groups]

/-- Groups in hexadecimal are read back. -/
theorem ofChars?_toHexChars (a : Ipv6) : ofChars? a.toHexChars = some a := by
  have hrun : IsRun a.groups.val (longestZeros a.groups.val) := isRun_longestZeros _
  show ofChars? (if (longestZeros a.groups.val).2 ≤ 1 then joinGroups a.groups.val else _) = _
  split
  · have hnone : cutZeros? (joinGroups a.groups.val) = none := by
      have hcut := cutZeros?_joinGroups a.groups.val []
      rwa [List.append_nil] at hcut
    rw [ofChars?, hnone]
    show (readGroups? true (joinGroups a.groups.val)).bind ofGroups? = _
    rw [readGroups?_joinGroups, Option.bind_some, ofGroups?_groups]
  · next hlong => exact ofChars?_cut hrun (Nat.le_of_lt (Nat.lt_of_not_le hlong))

/-- An address of version 4 fills the two groups that it stands for. -/
private theorem ofIpv4_ofNat (g h : UInt16) :
    ofIpv4 (Ipv4.ofNat (g.toNat * 65536 + h.toNat)) = [g, h] := by
  have hg : g.toNat < 65536 := g.toNat_lt
  have hh : h.toNat < 65536 := h.toNat_lt
  have htwo (n : Nat) (x : UInt16) (hn : n % 65536 = x.toNat) :
      (n / 256).toUInt8.toUInt16 * 256 + n.toUInt8.toUInt16 = x := by
    apply UInt16.toNat_inj.mp
    simp
    omega
  have hhigh := htwo ((g.toNat * 65536 + h.toNat) / 256 / 256) g (by omega)
  have hlow := htwo (g.toNat * 65536 + h.toNat) h (by omega)
  exact congrArg₂ (fun x y => [x, y]) hhigh hlow

/-- An address of version 4 is no group: it has dots. -/
private theorem group?_ipv4 (a : Ipv4) : group? a.toChars = none := by
  have hnone : a.toChars.mapM Bytes.hexValue? = none := by
    cases hmapM : a.toChars.mapM Bytes.hexValue? with
    | none => rfl
    | some ds => exact absurd (isSome_of_mapM hmapM '.' a.dot_mem_toChars) (by decide)
  rw [group?, hnone, Option.map_none, ite_self]

/-- The last two groups are written as an address of version 4. -/
private theorem readGroups?_ipv4 (b : Ipv4) :
    readGroups? true ("ffff:".toList ++ b.toChars) = some (0xffff :: ofIpv4 b) := by
  have hcolon : ':' ∉ b.toChars := b.notMem_toChars (by decide) (by decide)
  have hgroup : group? "ffff".toList = some 0xffff := by decide
  show readFields? true (Text.fields ':' ("ffff".toList ++ ':' :: b.toChars)) = _
  rw [Text.fields_append (by decide), Text.fields_of_notMem hcolon]
  simp only [readFields?, hgroup, group?_ipv4, Ipv4.ofChars?_toChars, if_true, Option.map_some]
  rfl

/-- An address of version 4 inside one of version 6 is read back. -/
theorem ofChars?_mapped {a : Ipv6} {b : Ipv4} (h : a.mapped? = some b) :
    ofChars? ("::ffff:".toList ++ b.toChars) = some a := by
  have hread := readGroups?_ipv4 b
  unfold mapped? at h
  split at h
  · next g g' hgroups =>
    have hlast : ofIpv4 b = [g, g'] := by
      rw [← Option.some.inj h]
      exact ofIpv4_ofNat g g'
    show (readGroups? false []).bind (fun front =>
      (readGroups? true ("ffff:".toList ++ b.toChars)).bind fun back =>
        if front.length + back.length ≤ 7 then
          ofGroups? (front ++ List.replicate (8 - front.length - back.length) 0 ++ back)
        else none) = _
    rw [hread, hlast]
    show ofGroups? [0, 0, 0, 0, 0, 0xffff, g, g'] = _
    rw [← hgroups, ofGroups?_groups]
  · cases h

theorem ofChars?_toChars (a : Ipv6) : ofChars? a.toChars = some a := by
  unfold toChars
  split
  · next b h => exact ofChars?_mapped h
  · exact ofChars?_toHexChars a

/-! ## Characters -/

private theorem slash_notMem_joinGroups (gs : List UInt16) : '/' ∉ joinGroups gs := by
  intro h
  rcases Text.mem_of_mem_join h with ⟨f, hf, hmem⟩ | hcolon
  · obtain ⟨g, -, rfl⟩ := List.mem_map.mp hf
    exact absurd (isSome_hexValue?_of_mem hmem) (by decide)
  · cases hcolon

/-- No address has a slash. -/
theorem slash_notMem_toChars (a : Ipv6) : '/' ∉ a.toChars := by
  unfold toChars
  split
  · next b _ =>
    intro h
    rcases List.mem_append.mp h with hfront | hmem
    · exact absurd hfront (by decide)
    · exact b.notMem_toChars (by decide) (by decide) hmem
  · show '/' ∉ (if (longestZeros a.groups.val).2 ≤ 1 then joinGroups a.groups.val else _)
    split
    · exact slash_notMem_joinGroups _
    · simp only [List.mem_append, not_or]
      exact ⟨⟨slash_notMem_joinGroups _, by decide⟩, slash_notMem_joinGroups _⟩

/-- Whether a run of zeros is left out or not, there are colons between groups. -/
theorem colon_mem_toChars (a : Ipv6) : ':' ∈ a.toChars := by
  unfold toChars
  split
  · exact List.mem_append_left _ (by decide)
  · show ':' ∈ (if (longestZeros a.groups.val).2 ≤ 1 then joinGroups a.groups.val else _)
    split
    · obtain ⟨⟨gs, hlength⟩⟩ := a
      match gs, hlength with
      | g :: g' :: gs, _ =>
        exact List.mem_append_right (hex g) (List.mem_cons_self ..)
    · exact List.mem_append_left _ (List.mem_append_right _ (List.mem_cons_self ..))

end Ipv6

end ReplayVector
