import ReplayVector.Endpoint.Domain.Composition
import ReplayVector.Endpoint.Domain.Mapping
import ReplayVector.Text.Punycode

/-!
# Domain names

A domain name is a sequence of labels with dots between them. In its ASCII form a label with other
characters is `xn--` and the Punycode of its characters. A name is brought into this form by
replacing each character by what it becomes in a domain name, composing what belongs together, and
checking the labels: that no mark begins one, that characters which join others have others to
join, and that the directions of writing do not mix.
-/

namespace ReplayVector.Domain

/-! ## Labels -/

/-- The letters that begin a label in Punycode. -/
def punycodeMark : List Char := "xn--".toList

/-- The ASCII characters that may not stand in a host, besides the controls and the space. -/
def forbidden : List Char := "%#/:<>?@[\\]^|".toList

/-- An ASCII character that may not stand in a host. -/
def isForbidden (c : Char) : Bool := c.toNat ≤ 0x20 || c.toNat == 0x7f || forbidden.contains c

def isAscii (cs : List Char) : Bool := cs.all (·.toNat < 128)

/-- How the nearest character that is not transparent joins. -/
def nearestJoining (cs : List Char) : Joining :=
  match cs.dropWhile fun c => (Properties.of c).joining = .transparent with
  | [] => .none
  | c :: _ => (Properties.of c).joining

/-- The class of the marks that suppress a vowel. -/
def viramaClass : Nat := 9

/-- The joiners of a label, whose part before is given backwards, have what they join: a mark that
suppresses a vowel before them, or for the non-joiner letters that would join on both sides. -/
def joinersFit (before : List Char) : List Char → Bool
  | [] => true
  | c :: cs =>
    let afterVirama := match before with
      | [] => false
      | d :: _ => (Properties.of d).combiningClass == viramaClass
    let fits :=
      if c = '\u200c' then
        afterVirama ||
          ([Joining.left, .both].contains (nearestJoining before) &&
            [Joining.right, .both].contains (nearestJoining cs))
      else if c = '\u200d' then afterVirama
      else true
    fits && joinersFit (c :: before) cs

/-- A label of kept characters does not begin with a mark, and its joiners fit. -/
def isValid (label : List Char) : Bool :=
  match label with
  | [] => true
  | c :: _ => (Properties.of c).markClass.isNone && joinersFit [] label

/-- The most characters of a label that is written in Punycode. -/
def maxWritten : Nat := 1000

/-- The most characters of Punycode that are read. -/
def maxRead : Nat := 2000

/-- The characters of a label. What Punycode stands for has to be what a label with these
characters becomes, and not all of it ASCII. -/
def readLabel? (label : List Char) : Option (List Char) :=
  if punycodeMark.isPrefixOf label then
    let text := label.drop punycodeMark.length
    if isAscii text ∧ text.length ≤ maxRead then
      match Text.Punycode.decode? text with
      | some cs =>
        if ¬ isAscii cs ∧ cs.all isKept ∧ compose cs = cs ∧ isValid cs then some cs else none
      | none => none
    else none
  else if isAscii label ∨ isValid label then some label else none

/-- The ASCII form of the characters of a label. -/
def writeLabel? (cs : List Char) : Option (List Char) :=
  if isAscii cs then some cs
  else if cs.length ≤ maxWritten then some (punycodeMark ++ Text.Punycode.encode cs)
  else none

/-! ## Directions -/

/-- The direction of a character. -/
def direction (c : Char) : Direction := (Properties.of c).direction

/-- A character of a text from right to left. -/
def isRightToLeft (c : Char) : Bool :=
  [Direction.rightToLeft, .arabicLetter, .arabicNumber].contains (direction c)

/-- The directions that may stand in labels of either kind. -/
def neutralDirections : List Direction :=
  [.europeanNumber, .europeanSeparator, .commonSeparator, .europeanTerminator, .other,
   .boundaryNeutral, .nonspacingMark]

/-- The direction of the last character that is no mark. -/
def lastDirection? (label : List Char) : Option Direction :=
  ((label.map direction).reverse.dropWhile (· == .nonspacingMark)).head?

/-- The characters of a label run in one direction: it begins and ends with a letter of this
direction, or ends with a number, and it has numbers of one kind only. -/
def isOneWay (label : List Char) : Bool :=
  let directions := label.map direction
  let last := lastDirection? label
  match directions with
  | [] => true
  | .leftToRight :: _ =>
    directions.all (fun d => d == .leftToRight || neutralDirections.contains d) &&
      (last == some .leftToRight || last == some .europeanNumber)
  | .rightToLeft :: _ | .arabicLetter :: _ =>
    directions.all (fun d =>
      d == .rightToLeft || d == .arabicLetter || d == .arabicNumber ||
        neutralDirections.contains d) &&
      [some Direction.rightToLeft, some .arabicLetter, some .europeanNumber,
        some .arabicNumber].contains last &&
      !(directions.contains .europeanNumber && directions.contains .arabicNumber)
  | _ => false

/-! ## Names -/

/-- The ASCII form of a domain name. -/
def toAscii? (name : List Char) : Option (List Char) := do
  let mapped ← name.mapM mapChar?
  let labels ← (Text.fields '.' (compose mapped.flatten)).mapM readLabel?
  if (labels.any (·.any isRightToLeft)) ∧ ¬ labels.all isOneWay then none else
  let written ← labels.mapM writeLabel?
  let result := Text.join '.' written
  if result.any isForbidden then none else some result

end ReplayVector.Domain
