/-!
# Punycode

A text of any characters in the letters, digits and hyphens of host names: first the ASCII
characters of the text and a hyphen, then for each other character, from the smallest, how many
places and code points lie between it and the one before. These distances are written in base 36,
least significant digit first; a digit below the threshold of its place is the last one, and the
thresholds follow the sizes of the distances.
-/

namespace ReplayVector.Text.Punycode

/-- A digit of base 36. -/
def digit (d : Nat) : Char := if d < 26 then Char.ofNat (97 + d) else Char.ofNat (22 + d)

/-- The value of a digit of base 36, of either case. -/
def digitValue? (c : Char) : Option Nat :=
  if 'a' ≤ c ∧ c ≤ 'z' then some (c.toNat - 97)
  else if 'A' ≤ c ∧ c ≤ 'Z' then some (c.toNat - 65)
  else if '0' ≤ c ∧ c ≤ '9' then some (c.toNat - 22)
  else none

/-- The least digit at a place that another one follows. -/
def threshold (bias place : Nat) : Nat := min 26 (max 1 (place - bias))

theorem threshold_pos (bias place : Nat) : 1 ≤ threshold bias place := by
  unfold threshold; omega

/-- Divides a distance until it is small, and counts how often that takes in steps of 36. -/
def shrink (delta : Nat) : Nat × Nat :=
  if 455 < delta then
    let (delta, steps) := shrink (delta / 35)
    (delta, steps + 36)
  else (delta, 0)
termination_by delta
decreasing_by omega

/-- The bias after a distance, in a text that now has `length` characters. -/
def adapt (delta length : Nat) (isFirst : Bool) : Nat :=
  let damped := if isFirst then delta / 700 else delta / 2
  let (rest, steps) := shrink (damped + damped / length)
  steps + 36 * rest / (rest + 38)

/-! ## Writing -/

/-- The digits of a distance, from a place on. -/
def digits (bias place n : Nat) : List Char :=
  let t := threshold bias place
  if n < t then [digit n]
  else digit (t + (n - t) % (36 - t)) :: digits bias (place + 36) ((n - t) / (36 - t))
termination_by n
decreasing_by
  have := threshold_pos bias place
  exact Nat.lt_of_le_of_lt (Nat.div_le_self _ _) (by omega)

/-- The text written so far, how many characters it stands for, the distance since the last of
them, and the bias. -/
structure Progress where
  text : List Char
  count : Nat
  delta : Nat
  bias : Nat

/-- Passes one place on the way through the text for the code point `n`. -/
def Progress.pass (basic n : Nat) (p : Progress) (c : Char) : Progress :=
  if c.toNat < n then { p with delta := p.delta + 1 }
  else if c.toNat = n then
    { text := p.text ++ digits p.bias 36 p.delta
      count := p.count + 1
      delta := 0
      bias := adapt p.delta (p.count + 1) (p.count == basic) }
  else p

/-- Goes through the text once for each of the code points, which ascend from `next`. -/
def Progress.run (basic : Nat) (cs : List Char) : List Nat → Nat → Progress → Progress
  | [], _, p => p
  | n :: ns, next, p =>
    let p := { p with delta := p.delta + (n - next) * (p.count + 1) }
    let p := cs.foldl (Progress.pass basic n) p
    run basic cs ns (n + 1) { p with delta := p.delta + 1 }

/-- The code points of a text that are not ASCII, ascending, each once. -/
def codePoints (cs : List Char) : List Nat :=
  ((cs.map Char.toNat).filter (128 ≤ ·)).mergeSort.eraseDups

/-- The text in letters, digits and hyphens. -/
def encode (cs : List Char) : List Char :=
  let basic := cs.filter (·.toNat < 128)
  let start : Progress :=
    { text := if basic.isEmpty then [] else basic ++ ['-'], count := basic.length, delta := 0, bias := 72 }
  (start.run basic.length cs (codePoints cs) 128).text

/-! ## Reading -/

/-- Reads a distance, the value of whose first digit is multiplied by `weight`; the rest is
shorter. -/
def distance? (bias place weight : Nat) :
    (cs : List Char) → Option (Nat × { rest : List Char // rest.length < cs.length })
  | [] => none
  | c :: cs => do
    let d ← digitValue? c
    let t := threshold bias place
    if d < t then return (d * weight, ⟨cs, by simp⟩)
    else
      let (n, ⟨rest, h⟩) ← distance? bias (place + 36) (weight * (36 - t)) cs
      return (d * weight + n, ⟨rest, by simp; omega⟩)

/-- Puts the characters that the rest of the text names into `text`; the next one is at least `n`,
and at this place or further on. -/
def insertAll? (bias n place : Nat) (text : List Char) (cs : List Char) : Option (List Char) :=
  if cs = [] then some text
  else
    match distance? bias 36 1 cs with
    | none => none
    | some (delta, ⟨rest, _⟩) =>
      let length := text.length + 1
      let n := n + (place + delta) / length
      let place := (place + delta) % length
      if n.isValidChar then
        insertAll? (adapt delta length (text.all (·.toNat < 128))) n (place + 1)
          (text.insertIdx place (Char.ofNat n)) rest
      else none
termination_by cs.length

/-- The part of a text before its last hyphen, and the part after it. Nothing is before a hyphen
that begins the text. -/
def split (cs : List Char) : List Char × List Char :=
  let back := cs.reverse.takeWhile (· != '-')
  let front := cs.take (cs.length - back.length - 1)
  if front.isEmpty then ([], cs) else (front, back.reverse)

/-- Reads a text in letters, digits and hyphens. -/
def decode? (cs : List Char) : Option (List Char) :=
  let (front, back) := split cs
  if front.all (·.toNat < 128) then insertAll? 72 128 0 front back else none

end ReplayVector.Text.Punycode
