import ReplayVector.Bytes

/-!
# Amounts of the token

An amount is a whole number of attos, of either sign and any size. As text it is a decimal number.
As bytes it is empty for zero, else a sign byte and the magnitude, most significant byte first, in
at most 128 bytes.
-/

namespace ReplayVector

/-- An amount of attos. -/
structure TokenAmount where
  atto : Int
  deriving DecidableEq, Inhabited

namespace TokenAmount

instance : OfNat TokenAmount n := ⟨⟨n⟩⟩
instance : Add TokenAmount := ⟨fun a b => ⟨a.atto + b.atto⟩⟩
instance : Sub TokenAmount := ⟨fun a b => ⟨a.atto - b.atto⟩⟩
instance : LT TokenAmount := ⟨fun a b => a.atto < b.atto⟩
instance : LE TokenAmount := ⟨fun a b => a.atto ≤ b.atto⟩
instance (a b : TokenAmount) : Decidable (a < b) := inferInstanceAs (Decidable (a.atto < b.atto))
instance (a b : TokenAmount) : Decidable (a ≤ b) := inferInstanceAs (Decidable (a.atto ≤ b.atto))

/-- A number of times an amount. -/
def scale (n : Nat) (a : TokenAmount) : TokenAmount := ⟨a.atto * n⟩

/-- A number of whole tokens. -/
def ofWhole (n : Nat) : TokenAmount := ⟨n * 10 ^ 18⟩

/-- The longest byte form of an amount. -/
def maxBytes : Nat := 128

/-- The byte form; `none` if it would be too long. -/
def toBytes? (a : TokenAmount) : Option Bytes :=
  if a.atto = 0 then some []
  else
    let bs := (if a.atto < 0 then 1 else 0) :: Bytes.magnitude a.atto.natAbs
    if bs.length > maxBytes then none else some bs

/-- Reads the byte form. Leading zeros of the magnitude are accepted. -/
def ofBytes? : Bytes → Option TokenAmount
  | [] => some 0
  | sign :: bs =>
    if bs.length + 1 > maxBytes then none
    else if sign = 0 then some ⟨Bytes.toNatBE bs⟩
    else if sign = 1 then some ⟨-(Bytes.toNatBE bs : Int)⟩
    else none

/-! ## Text -/

/-- The value of decimal digits, between which underscores are skipped. -/
def readDigits : List Char → Nat → Option Nat
  | [], n => some n
  | '_' :: cs, n => readDigits cs n
  | c :: cs, n => if c.isDigit then readDigits cs (10 * n + (c.toNat - 48)) else none

/-- Reads digits that one plus sign may lead. -/
def readMagnitude (cs : List Char) : Option Nat :=
  let digits := match cs with
    | '+' :: rest => if rest.head? = some '+' then cs else rest
    | _ => cs
  match digits with
  | [] => none
  | '_' :: _ => none
  | cs => readDigits cs 0

/-- Reads a whole number: one sign, then digits, between which underscores are skipped. -/
def readInt (cs : List Char) : Option Int :=
  match cs with
  | '-' :: rest =>
    if rest.head? = some '+' then none else (readMagnitude rest).map fun n => -(n : Int)
  | _ => (readMagnitude cs).map fun n => (n : Int)

/-- Reads an amount of attos. -/
def ofString? (s : String) : Option TokenAmount := (readInt s.toList).map fun n => ⟨n⟩

/-- The attos in decimal. -/
def toString (a : TokenAmount) : String := Int.repr a.atto

instance : ToString TokenAmount := ⟨toString⟩

end TokenAmount

end ReplayVector
