import ReplayVector.Json.Basic

/-!
# Reading JSON text

The reader takes a text apart without judging its meaning and never fails: where the text stops
being JSON it leaves the mark `Json.broken` and no rest. The nesting of values is not limited here.
-/

namespace ReplayVector.Json

/-- Blanks between the parts of a text. -/
def isBlank (c : Char) : Bool := c = ' ' || c = '\n' || c = '\r' || c = '\t'

/-- The text without its leading blanks. -/
def skipBlanks (cs : List Char) : List Char := cs.dropWhile isBlank

/-! ## Strings -/

/-- A part of a string: a character, or one half of a surrogate pair. -/
inductive Unit16 where
  | char (c : Char)
  | half (n : Nat)

/-- The number that four hexadecimal digits write. -/
def hex4? (a b c d : Char) : Option Nat := do
  let a ← Bytes.hexValue? a
  let b ← Bytes.hexValue? b
  let c ← Bytes.hexValue? c
  let d ← Bytes.hexValue? d
  return ((a * 16 + b) * 16 + c) * 16 + d

/-- The part that a four-digit escape stands for. -/
def Unit16.ofNat (n : Nat) : Unit16 :=
  if 0xd800 ≤ n ∧ n < 0xe000 then .half n else .char (Char.ofNat n)

/-- The character that a letter after a backslash stands for. -/
def unescape? (c : Char) : Option Char :=
  match c with
  | '"' => some '"'
  | '\\' => some '\\'
  | '/' => some '/'
  | 'b' => some '\x08'
  | 'f' => some '\x0c'
  | 'n' => some '\n'
  | 'r' => some '\r'
  | 't' => some '\t'
  | _ => none

/-- The parts of a string up to its closing quote, and the text after it. -/
def scanString : List Char → Option (List Unit16 × List Char)
  | [] => none
  | '"' :: cs => some ([], cs)
  | '\\' :: 'u' :: a :: b :: c :: d :: cs => do
    let n ← hex4? a b c d
    let (units, rest) ← scanString cs
    return (Unit16.ofNat n :: units, rest)
  | '\\' :: c :: cs => do
    let c ← unescape? c
    let (units, rest) ← scanString cs
    return (.char c :: units, rest)
  | c :: cs =>
    if c.toNat < 0x20 ∨ c = '\\' then none
    else (scanString cs).map fun (units, rest) => (.char c :: units, rest)

/-- The text of the parts; `none` if a half stands alone. -/
def joinUnits : List Unit16 → Option (List Char)
  | [] => some []
  | .char c :: us => (joinUnits us).map (c :: ·)
  | .half hi :: .half lo :: us =>
    if hi < 0xdc00 ∧ 0xdc00 ≤ lo then
      (joinUnits us).map (Char.ofNat (0x10000 + (hi - 0xd800) * 0x400 + (lo - 0xdc00)) :: ·)
    else none
  | .half _ :: _ => none

/-- The text of a string's parts. -/
def textOf (units : List Unit16) : Option String := (joinUnits units).map String.ofList

/-! ## Numbers -/

/-- The digits at the front of a text, and the rest. -/
def digits (cs : List Char) : List Char × List Char :=
  (cs.takeWhile Char.isDigit, cs.dropWhile Char.isDigit)

/-- A run of digits, at least one. -/
def digits1 (cs : List Char) : Option (List Char × List Char) :=
  if (digits cs).1 = [] then none else some (digits cs)

/-- The whole part of a number: no zero leads other digits. -/
def scanWhole : List Char → Option (List Char × List Char)
  | '0' :: cs => if (cs.head?.any Char.isDigit) then none else some (['0'], cs)
  | cs => digits1 cs

/-- The fraction of a number, if there is one. -/
def scanFraction : List Char → Option (List Char × List Char)
  | '.' :: cs => (digits1 cs).map fun (ds, rest) => ('.' :: ds, rest)
  | cs => some ([], cs)

/-- The exponent of a number, if there is one. -/
def scanExponent : List Char → Option (List Char × List Char)
  | e :: cs =>
    if e = 'e' ∨ e = 'E' then
      match cs with
      | '+' :: cs => (digits1 cs).map fun (ds, rest) => (e :: '+' :: ds, rest)
      | '-' :: cs => (digits1 cs).map fun (ds, rest) => (e :: '-' :: ds, rest)
      | cs => (digits1 cs).map fun (ds, rest) => (e :: ds, rest)
    else some ([], e :: cs)
  | [] => some ([], [])

/-- A number without its sign. -/
def scanUnsigned (cs : List Char) : Option (List Char × List Char) := do
  let (whole, cs) ← scanWhole cs
  let (fraction, cs) ← scanFraction cs
  let (exponent, cs) ← scanExponent cs
  return (whole ++ fraction ++ exponent, cs)

/-- The spelling of the number at the front of a text. -/
def scanNumber : List Char → Option (List Char × List Char)
  | '-' :: cs => (scanUnsigned cs).map fun (ds, rest) => ('-' :: ds, rest)
  | cs => scanUnsigned cs

/-! ## Values -/

/-- A word that stands for a value. -/
def readWord (word : String) (value : Json) (cs : List Char) : Json × Option (List Char) :=
  if word.toList.isPrefixOf cs then (value, some (cs.drop word.length)) else (.broken, none)

mutual

/-- The value at the front of a text, and the text after it. The first argument bounds the
recursion; the length of the text suffices. -/
def readValue : Nat → List Char → Json × Option (List Char)
  | 0, _ => (.broken, none)
  | fuel + 1, cs =>
    match skipBlanks cs with
    | [] => (.broken, none)
    | '"' :: cs =>
      match scanString cs with
      | some (units, rest) => (.string (textOf units), some rest)
      | none => (.broken, none)
    | '[' :: cs =>
      match skipBlanks cs with
      | ']' :: rest => (.array [], some rest)
      | cs => let (items, rest) := readItems fuel cs; (.array items, rest)
    | '\x7b' :: cs =>
      match skipBlanks cs with
      | '\x7d' :: rest => (.object [], some rest)
      | cs => let (members, rest) := readMembers fuel cs; (.object members, rest)
    | c :: cs =>
      if c = 'n' then readWord "null" .null (c :: cs)
      else if c = 't' then readWord "true" (.bool true) (c :: cs)
      else if c = 'f' then readWord "false" (.bool false) (c :: cs)
      else match scanNumber (c :: cs) with
        | some (spelling, rest) => (.number (String.ofList spelling), some rest)
        | none => (.broken, none)

/-- The items of an array up to its closing bracket. -/
def readItems : Nat → List Char → List Json × Option (List Char)
  | 0, _ => ([.broken], none)
  | fuel + 1, cs =>
    match readValue fuel cs with
    | (j, none) => ([j], none)
    | (j, some cs) =>
      match skipBlanks cs with
      | ',' :: cs => let (js, rest) := readItems fuel cs; (j :: js, rest)
      | ']' :: rest => ([j], some rest)
      | _ => ([j, .broken], none)

/-- The members of an object up to its closing brace. -/
def readMembers : Nat → List Char → List (Option String × Json) × Option (List Char)
  | 0, _ => ([(none, .broken)], none)
  | fuel + 1, cs =>
    match skipBlanks cs with
    | '"' :: cs =>
      match scanString cs with
      | none => ([(none, .broken)], none)
      | some (units, cs) =>
        let name := textOf units
        match skipBlanks cs with
        | ':' :: cs =>
          match readValue fuel cs with
          | (j, none) => ([(name, j)], none)
          | (j, some cs) =>
            match skipBlanks cs with
            | ',' :: cs => let (ms, rest) := readMembers fuel cs; ((name, j) :: ms, rest)
            | '\x7d' :: rest => ([(name, j)], some rest)
            | _ => ([(name, j), (none, .broken)], none)
        | _ => ([(name, .broken)], none)
    | _ => ([(none, .broken)], none)

end

/-- The value that a text holds. What follows it, blanks apart, is given back; `none` if the text
is broken inside the value. -/
def read (s : String) : Json × Option (List Char) :=
  let cs := s.toList
  let (j, rest) := readValue (2 * cs.length + 2) cs
  (j, rest.map skipBlanks)

end ReplayVector.Json
