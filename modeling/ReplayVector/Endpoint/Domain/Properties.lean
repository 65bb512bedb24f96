import ReplayVector.Text.CodePointTable

/-!
# Properties of the characters of domain names

In which direction a character is written, how it joins its neighbours, and for marks in which
order they follow the character that they belong to.
-/

namespace ReplayVector.Domain

/-- How a character takes part in the direction of a text. -/
inductive Direction where
  | leftToRight
  | rightToLeft
  | arabicLetter
  | arabicNumber
  | europeanNumber
  | europeanSeparator
  | europeanTerminator
  | commonSeparator
  | nonspacingMark
  | boundaryNeutral
  | other
  deriving DecidableEq, Repr

/-- With which neighbours a character is joined. -/
inductive Joining where
  | none
  | left
  | right
  | both
  | causing
  | transparent
  deriving DecidableEq, Repr

/-- What is known of a character. -/
structure Properties where
  direction : Direction := .leftToRight
  joining : Joining := .none
  /-- For a mark, its class: marks of different classes may change places, and class 0 stays. -/
  markClass : Option Nat := none
  deriving DecidableEq

namespace Properties

/-- Reads a direction. -/
def readDirection (name : List Char) : Direction :=
  match String.ofList name with
  | "R" => .rightToLeft
  | "AL" => .arabicLetter
  | "AN" => .arabicNumber
  | "EN" => .europeanNumber
  | "ES" => .europeanSeparator
  | "ET" => .europeanTerminator
  | "CS" => .commonSeparator
  | "NSM" => .nonspacingMark
  | "BN" => .boundaryNeutral
  | "L" => .leftToRight
  | _ => .other

/-- Reads a way of joining. -/
def readJoining : List Char → Joining
  | ['L'] => .left
  | ['R'] => .right
  | ['D'] => .both
  | ['C'] => .causing
  | ['T'] => .transparent
  | _ => .none

/-- Reads what a row of the table says: the direction, the joining and the class of marks, with
slashes before them; what is left out at the end is ordinary. -/
def ofChars (cs : List Char) : Properties :=
  match Text.fields '/' cs with
  | [_, direction] => { direction := readDirection direction }
  | [_, direction, joining] =>
    { direction := readDirection direction, joining := readJoining joining }
  | [_, direction, joining, markClass] =>
    { direction := readDirection direction
      joining := readJoining joining
      markClass := some (Text.digitsValue markClass) }
  | _ => {}

end Properties

/-- Rows of code points that may stand in a domain name. -/
def propertyRows : String := "
  0/BN 9/S 1/B 1/S 1/WS 1/B 1/BN e/B 3/S 1/WS 1/ON 2/ET 3/ON 5/ES 1/CS 1/ES 1/CS 2/EN a/CS 1/ON
  26/L 1a/ON 4/BN 22/ON 1/ET 4/ON a/ET 6/ON 29/L 18/ON 1/L 1c1/ON 2/L 7/ON e/L 2/ON 1c/L 1/ON
  11/NSM/T/230 15/NSM/T/232 1/NSM/T/220 4/NSM/T/232 1/NSM/T/216 1/NSM/T/220 5/NSM/T/202
  2/NSM/T/220 4/NSM/T/202 2/NSM/T/220 b/NSM/T/1 5/NSM/T/220 4/NSM/T/230 a/NSM/T/220 3/NSM/T/230
  3/NSM/T/220 3/NSM/T/230 3/NSM/T/220 4/NSM/T/230 1/NSM/T/232 1/NSM/T/220 2/NSM/T/230 1/NSM/T/233
  1/NSM/T/234 2/NSM/T/233 1/NSM/T/234 2/NSM/T/233 1/NSM/T/230 e/L 4/ON 2/L 7f/ON 2/L 8b/NSM/T/230
  5/NSM/T/0 3/L ff/ON 5/ET 2/NSM/T/220 1/NSM/T/230 4/NSM/T/220 1/NSM/T/230 3/NSM/T/222 1/NSM/T/220
  1/NSM/T/230 6/NSM/T/220 6/NSM/T/230 2/NSM/T/220 1/NSM/T/230 2/NSM/T/222 1/NSM/T/228 1/NSM/T/230
  1/NSM/T/10 1/NSM/T/11 1/NSM/T/12 1/NSM/T/13 1/NSM/T/14 1/NSM/T/15 1/NSM/T/16 1/NSM/T/17
  1/NSM/T/18 1/NSM/T/19 2/NSM/T/20 1/NSM/T/21 1/NSM/T/22 1/R 1/NSM/T/23 1/R 1/NSM/T/24 1/NSM/T/25
  1/R 1/NSM/T/230 1/NSM/T/220 1/R 1/NSM/T/18 9/R 36/ON 2/AL 1/ET 2/AL 1/CS 1/AL 1/ON 2/NSM/T/230
  8/NSM/T/30 1/NSM/T/31 1/NSM/T/32 1/AL 5/AL/D 1/AL 1/AL/R 4/AL/D 1/AL/R 1/AL/D 1/AL/R 1/AL/D
  5/AL/R 4/AL/D d/AL/C 1/AL/D 7/AL/R 1/AL/D 2/NSM/T/27 1/NSM/T/28 1/NSM/T/29 1/NSM/T/30 1/NSM/T/31
  1/NSM/T/32 1/NSM/T/33 1/NSM/T/34 1/NSM/T/230 2/NSM/T/220 2/NSM/T/230 5/NSM/T/220 1/NSM/T/230
  2/NSM/T/220 1/AN a/ET 1/AN 2/AL 1/AL/D 2/NSM/T/35 1/AL/R 3/AL 5/AL/D f/AL/R 12/AL/D 26/AL/R
  1/AL/D 2/AL/R 9/AL/D 1/AL/R 1/AL/D 1/AL/R 1/AL/D 2/AL/R 2/AL 1/AL/R 1/NSM/T/230 8/ON 1/NSM/T/230
  4/NSM/T/220 1/NSM/T/230 1/AL 2/NSM/T/230 2/ON 1/NSM/T/220 1/NSM/T/230 2/NSM/T/220 1/AL/R 2/EN
  a/AL/D 3/AL 2/AL/D 1/AL 10/AL/R 1/NSM/T/36 1/AL/D 3/AL/R 5/AL/D 4/AL/R 1/AL/D 9/AL/R 1/AL/D
  1/AL/R 1/AL/D 1/AL/R 1/AL/D 2/AL/R 1/NSM/T/230 1/NSM/T/220 1/NSM/T/230 2/NSM/T/220 1/NSM/T/230
  2/NSM/T/220 3/NSM/T/230 1/NSM/T/220 2/NSM/T/230 1/NSM/T/220 1/NSM/T/230 3/NSM/T/220 1/NSM/T/230
  1/NSM/T/220 1/NSM/T/230 1/NSM/T/220 1/NSM/T/230 1/NSM/T/220 1/NSM/T/230 4/AL/R 1/AL/D b/AL/R
  3/AL/D f/AL/R 2/AL/D 4/AL/R 1/AL/D 1/AL/R 2/AL/D 3/AL/R 2/AL/D 6/AL 26/NSM/T/0 b/AL f/R a/R/D
  21/NSM/T/230 7/NSM/T/220 1/NSM/T/230 1/R 2/ON 4/R/C 3/NSM/T/220 1/R 18/NSM/T/230 4/R 1/NSM/T/230
  9/R 1/NSM/T/230 3/R 1/NSM/T/230 7/R 10/R/R 1/R/D 5/R/R 2/R/D 1/R/R 1/R/D a/R/R 1/R/D 1/R/R
  3/NSM/T/220 5/R 2/AL/D 1/AL 1/AL/D 4/AL 1/AL/R 1/AL/D 1/AL/R 1a/AL/C 3/AL/D 1/AL 2/AL/D 5/AL/R
  1/L/D 8/L/T 1/NSM/T/230 1/NSM/T/220 3/NSM/T/230 4/AL/D a/AL/R 3/AL 1/AL/R 1/AL/D 2/AL/R 2/AL/D
  6/AL/R 1/AL/D f/AL 1/NSM/T/230 5/NSM/T/220 5/NSM/T/230 f/NSM/T/220 1/NSM/T/230 2/NSM/T/220
  1/NSM/T/230 2/NSM/T/220 1/NSM/T/230 3/NSM/T/220 3/NSM/T/27 1/NSM/T/28 1/NSM/T/29 1/NSM/T/230
  3/NSM/T/220 1/NSM/T/230 2/NSM/T/220 2/NSM/T/230 5/NSM/T/0 3/L//0 1/L 36/NSM/T/0 1/L//0 1/NSM/T/7
  1/L 1/L//0 3/NSM/T/0 8/L//0 4/NSM/T/9 1/L//0 2/L 1/NSM/T/230 1/NSM/T/220 1/NSM/T/230 2/NSM/T/0
  b/L 2/NSM/T/0 2/L 1d/NSM/T/0 1/L//0 3/L 37/NSM/T/7 1/L 1/L//0 3/NSM/T/0 6/L//0 6/NSM/T/9 1/L
  9/L//0 9/L 2/NSM/T/0 4/L c/ET 2/L 7/ET 1/L 2/NSM/T/230 3/NSM/T/0 2/L//0 2/L 37/NSM/T/7 2/L//0
  3/NSM/T/0 c/NSM/T/9 4/NSM/T/0 b/L 14/NSM/T/0 2/L 3/NSM/T/0 1/L b/NSM/T/0 2/L//0 2/L 37/NSM/T/7
  1/L 1/L//0 3/NSM/T/0 8/L//0 4/NSM/T/9 3/L 12/NSM/T/0 4/L b/ET 8/L 1/NSM/T/0 8/L//0 3/L
  37/NSM/T/7 1/L 1/L//0 1/NSM/T/0 1/L//0 1/NSM/T/0 6/L//0 6/NSM/T/9 8/NSM/T/0 2/L//0 8/L 3/NSM/T/0
  4/L 1c/NSM/T/0 1/L 3b/L//0 2/NSM/T/0 1/L//0 c/NSM/T/9 3/L 7/L//0 f/L d/ON 6/ET 1/ON 6/NSM/T/0
  1/L//0 3/NSM/T/0 1/L 37/NSM/T/7 1/L 1/NSM/T/0 3/L//0 5/NSM/T/0 7/NSM/T/9 8/NSM/T/84 1/NSM/T/91
  2/L a/NSM/T/0 4/L 12/ON 7/L 2/NSM/T/0 1/L//0 2/L 38/NSM/T/7 1/L 1/L//0 1/L/T/0 1/L//0 6/L/T/0
  1/L//0 5/NSM/T/0 1/NSM/T/9 8/L//0 7/L 6/NSM/T/0 4/L d/L//0 d/NSM/T/0 2/L//0 2/L 37/NSM/T/9 2/L
  1/L//0 3/NSM/T/0 5/L//0 7/NSM/T/9 1/L 9/L//0 1/L a/NSM/T/0 4/L 1b/NSM/T/0 1/L//0 3/L 45/NSM/T/9
  5/L//0 3/NSM/T/0 6/L//0 e/L c/L//0 2/L 3d/NSM/T/0 1/L 2/NSM/T/0 4/NSM/T/103 2/NSM/T/9 5/ET 1/L
  7/NSM/T/0 1/NSM/T/107 4/NSM/T/0 3/L 62/NSM/T/0 1/L 2/NSM/T/0 4/NSM/T/118 2/NSM/T/9 1/NSM/T/0 2/L
  b/NSM/T/122 4/NSM/T/0 4/L 48/NSM/T/220 2/L 1b/NSM/T/220 1/L 1/NSM/T/220 1/L 1/NSM/T/216 1/ON
  4/L//0 2/L 31/NSM/T/129 1/NSM/T/130 2/NSM/T/132 6/NSM/T/130 4/NSM/T/0 1/L//0 1/NSM/T/130
  2/NSM/T/230 2/NSM/T/9 1/L 1/NSM/T/230 2/L 5/NSM/T/0 31/L 8/NSM/T/220 1/L 64/L//0 2/NSM/T/0
  4/L//0 1/NSM/T/0 5/NSM/T/7 1/L//0 1/NSM/T/9 2/L//0 2/NSM/T/0 2/L 17/L//0 2/NSM/T/0 2/L 4/NSM/T/0
  3/L 1/L//0 3/L 2/L//0 7/L 3/NSM/T/0 4/L d/NSM/T/0 1/L//0 2/NSM/T/0 2/L//0 6/NSM/T/220 1/L 1/L//0
  1/L a/L//0 3/NSM/T/0 1/L 2bf/NSM/T/230 3/L 30/ON 10/L 60/ON 1/L 29a/ON 5/L 72/NSM/T/0 2/NSM/T/9
  1/L//9 a/L 13/NSM/T/0 2/L//9 1/L 1d/NSM/T/0 e/L 12/NSM/T/0 e/L 36/L//0 1/NSM/T/0 7/L//0
  8/NSM/T/0 1/L//0 2/NSM/T/0 9/NSM/T/9 1/NSM/T/0 1/L 7/ET 1/L 1/NSM/T/230 3/L 10/ON 17/ON/D 1/ON
  2/ON/C 6/L 10/L/D 60/L 5/NSM/T/0 2/L/D 22/NSM/T/228 1/L/D 6/L 70/NSM/T/0 3/L//0 4/NSM/T/0 2/L//0
  9/NSM/T/0 1/L//0 6/NSM/T/222 1/NSM/T/230 1/NSM/T/220 5/ON 6/L 98/ON 22/L 17/NSM/T/230
  1/NSM/T/220 1/L//0 2/NSM/T/0 3/L 37/L//0 1/NSM/T/0 1/L//0 1/NSM/T/0 8/NSM/T/9 1/L//0 1/NSM/T/0
  1/L//0 2/NSM/T/0 8/L//0 6/NSM/T/0 2/NSM/T/230 a/NSM/T/220 1/L 30/NSM/T/230 5/NSM/T/220
  6/NSM/T/230 2/NSM/T/220 1/NSM/T/0 1/NSM/T/220 2/NSM/T/230 2/NSM/T/220 2/NSM/T/230 5/NSM/T/220
  1/NSM/T/230 4/L/T 31/NSM/T/0 4/L//0 1/L 2f/NSM/T/7 1/L//0 1/NSM/T/0 5/L//0 1/NSM/T/0 1/L//0
  5/NSM/T/0 1/L//0 1/L//9 1/L 26/NSM/T/230 1/NSM/T/220 1/NSM/T/230 7/L c/NSM/T/0 2/L//0 1/L
  1e/L//0 1/NSM/T/0 4/L//0 2/NSM/T/0 2/L//9 1/NSM/T/9 1/NSM/T/0 2/L 38/NSM/T/7 1/L//0 1/NSM/T/0
  2/L//0 3/NSM/T/0 1/L//0 1/NSM/T/0 3/L//9 a/L 28/L//0 8/NSM/T/0 8/L//0 2/NSM/T/0 1/NSM/T/7 4/L
  95/NSM/T/230 3/L 1/NSM/T/1 1/NSM/T/220 5/NSM/T/230 2/NSM/T/220 4/NSM/T/230 1/L//0 1/NSM/T/1 7/L
  4/NSM/T/220 1/L 6/NSM/T/230 1/L 2/L//0 1/NSM/T/230 2/L c6/NSM/T/230 2/NSM/T/220 1/NSM/T/230
  7/NSM/T/220 1/NSM/T/230 2/NSM/T/234 1/NSM/T/214 1/NSM/T/220 1/NSM/T/202 1/NSM/T/230 25/NSM/T/232
  1/NSM/T/228 2/NSM/T/220 1/NSM/T/218 1/NSM/T/230 1/NSM/T/233 1/NSM/T/220 1/NSM/T/230 1/NSM/T/220
  2/L 20b/BN 1/BN/C 3/ON 20/ET 5/ON f/CS 1/ON 5b/ET 21/L f/NSM/T/230 2/NSM/T/1 2/NSM/T/230
  4/NSM/T/1 3/NSM/T/230 2/NSM/T/0 4/NSM/T/230 1/NSM/T/0 3/NSM/T/1 2/NSM/T/230 1/NSM/T/220
  1/NSM/T/230 1/NSM/T/1 2/NSM/T/220 4/NSM/T/230 14/ON 2a/ET c/ON 14/L 3c/ON 88/ES 1/ET 1/ON 122/L
  45/ON 1a/L 1/ON 91/L 19/ON 26c/L 1/ON 153/L 100/ON 296/L 1/ON 99/L b5/ON 7/L 3/NSM/T/230 4/L
  6/ON 7/L 7f/NSM/T/9 1/L 60/NSM/T/230 20/ON 205/L 3/ON 19/L 9/NSM/T/218 1/NSM/T/228 1/NSM/T/232
  1/NSM/T/222 1/L//224 2/ON 1/L 6/ON 4/L 2/ON 4/L 58/NSM/T/8 4/L 3/ON 1/L 5a/ON 1/L c4/ON 24/L
  1bdc/ON 40/L 5690/ON 40/L 13d/ON 3/L 5f/NSM/T/230 1/NSM/T/0 3/ON 1/NSM/T/230 a/ON 3/L
  1d/NSM/T/230 2/L 50/NSM/T/230 2/L e/ON 23/L 65/ON 1/L 79/NSM/T/0 1/L 3/NSM/T/9 1/L 4/NSM/T/0 1/L
  17/L//0 2/NSM/T/0 2/L//0 1/ON 4/NSM/T/9 4/L 8/ET 8/L/D 32/L/L 1/L 1/ON c/L//0 2/L 32/L//0
  10/NSM/T/9 1/NSM/T/0 9/L 12/NSM/T/230 12/L d/NSM/T/0 1/L 26/NSM/T/0 5/NSM/T/220 3/L 19/NSM/T/0
  b/L//0 1/L//9 c/L 21/NSM/T/0 3/L//0 1/L 2f/NSM/T/7 1/L//0 2/NSM/T/0 4/L//0 2/NSM/T/0 2/L//0
  2/L//9 1/L 24/NSM/T/0 1/L 43/NSM/T/0 6/L//0 2/NSM/T/0 2/L//0 2/NSM/T/0 b/L 3/NSM/T/0 1/L
  8/NSM/T/0 1/L//0 3/L 2b/L//0 1/NSM/T/0 1/L//0 1/L 32/NSM/T/230 1/L 1/NSM/T/230 2/NSM/T/220 1/L
  2/NSM/T/230 2/L 5/NSM/T/230 2/L 1/NSM/T/230 1/L 29/L//0 1/NSM/T/0 2/L//0 2/L 5/L//0 1/NSM/T/9
  b/L 69/ON 56/L 23/L//0 2/NSM/T/0 1/L//0 2/NSM/T/0 1/L//0 2/L 1/L//0 1/NSM/T/9 3/L 4f2e/NSM/T/26
  94/AL 11/L 17b/ON 52/L 3f/ON 51/NSM/T/230 7/NSM/T/220 7/NSM/T/230 17/ON 2e/AL 18d/L 101/ON 1/L
  3e/ON 4d/L 3/ON 40/L 2d/NSM/T/220 83/L 60/NSM/T/220 1/EN 1f/L 76/NSM/T/230 a/L 480/R 11f/ON 1/R
  20/L 40/R 81/NSM/T/0 c/NSM/T/220 1/NSM/T/0 1/NSM/T/230 1/R 28/NSM/T/230 1/NSM/T/1 1/NSM/T/220
  5/NSM/T/9 1/R 80/R/D 5/R/R 1/R 1/R/R 1/R 1/R/R 2/R 2/R/L 1/R/R 5/R/D 4/R/L 1/R/D 5/R/R 1/R/D
  3/R/R 1/R 2/R/R 1/NSM/T/230 1/NSM/T/220 5/R/D 4/R/R 1/R 49/ON 7/R 40/R/D 1/R/R 1/R/D 1/R/R 3/R/D
  3/R/R 1/R/D 2/R/R 1/R/D 1/R/R 2/R/D 1/R/R 8/R 10/R/R 4/R/D 2/R 151/AL/L 1/AL/D 21/AL/R 1/AL/D
  1/NSM/T/230 c/AN 10/L 29/L/T 5/L f2/AN 20/R 2b/NSM/T/230 2/R 15/L/R 1/L/D 2/L 1/L/D a/L 2a/L/T
  3/NSM/T/220 3/R 30/AL/D 3/AL/R 1/AL/D 11/AL 1/NSM/T/220 2/NSM/T/230 3/NSM/T/220 1/NSM/T/230
  1/NSM/T/220 4/AL/D 3/AL/R 1/AL 1b/R/D 4/R/R 2/R/D c/NSM/T/230 1/NSM/T/220 1/NSM/T/230
  1/NSM/T/220 1/R 2a/R/D 1/R 1/R/D 2/R/R 3/R 1/R/D 1/R/R 2/R/D 2/R/R 1/R/D 2/R 1/R/D 1/R/R 2/R/D
  1/R 4/R/R 1/R/D 1/R/L 15/R 20/L//0 1/NSM/T/0 1/L//0 1/L 35/NSM/T/0 e/NSM/T/9 1/L b/ON 14/L
  a/NSM/T/9 1/L 2/NSM/T/0 2/L a/NSM/T/9 1/NSM/T/0 2/L//0 1/L 2d/L//0 3/NSM/T/0 4/L//0 2/NSM/T/9
  1/NSM/T/7 1/L 7/NSM/T/0 e/L 30/NSM/T/230 3/L 24/NSM/T/0 5/L//0 1/NSM/T/0 6/NSM/T/9 3/L f/L//0
  2/L 2c/NSM/T/7 1/L c/NSM/T/0 2/L//0 1/L 30/L//0 3/NSM/T/0 9/L//0 1/L//9 1/L 8/NSM/T/0 1/NSM/T/7
  1/NSM/T/0 2/L 1/L//0 1/NSM/T/0 1/L 5c/L//0 3/NSM/T/0 3/L//0 2/NSM/T/0 1/L//9 1/NSM/T/7 1/NSM/T/0
  1/L 6/NSM/T/0 1/L 2/NSM/T/0 3f/L 5f/NSM/T/0 1/L//0 3/NSM/T/0 6/NSM/T/7 1/NSM/T/9 6/L 10/NSM/T/0
  2/L//0 3/L 36/NSM/T/7 2/L 1/L//0 2/NSM/T/0 1/L//0 c/L//9 3/L 7/L//0 6/L 5/L//0 4/NSM/T/230 1a/L
  3b/L/T 7/L c/L/T 1/L 1/L/T 1/L 1/L/T 1/L e/L/T 1f/L 35/L//0 3/NSM/T/0 8/L//0 2/NSM/T/9 1/NSM/T/0
  2/L//0 1/NSM/T/7 1/L 17/NSM/T/230 1/L 51/L//0 3/NSM/T/0 6/L//0 1/NSM/T/0 1/L//0 4/NSM/T/0 2/L//0
  1/NSM/T/9 1/NSM/T/7 1/L eb/L//0 3/NSM/T/0 6/L//0 4/NSM/T/0 2/L//0 1/NSM/T/9 1/NSM/T/7 1/L
  1b/NSM/T/0 24/L 30/L//0 3/NSM/T/0 8/L//0 2/NSM/T/0 1/L//0 1/NSM/T/9 1/NSM/T/0 1/L 1f/ON 20/L
  2b/NSM/T/0 1/L//0 1/NSM/T/0 1/L//0 2/NSM/T/0 6/L//9 1/NSM/T/7 1/L 65/NSM/T/0 1/NSM//0 1/NSM/T/0
  1/L//0 2/NSM/T/0 4/L//0 1/NSM/T/0 4/NSM/T/9 5/L fc/L//0 3/NSM/T/0 9/L//0 1/NSM/T/9 1/NSM/T/7 1/L
  f5/L//0 b/NSM/T/0 2/L//9 1/NSM/T/9 1/L 1/L//0 1/L 1/L//0 1/NSM/T/7 1/L 8d/L//0 3/NSM/T/0 8/L//0
  4/NSM/T/9 1/L 3/L//0 1c/L 1/NSM/T/0 6/L/T/0 2/NSM/T/0 2/L 28/NSM/T/0 1/NSM/T/9 1/NSM/T/0 4/L//0
  1/L 1/NSM/T/0 4/L 8/NSM/T/9 9/L 1/NSM/T/0 6/L//0 2/NSM/T/0 3/L 2e/NSM/T/0 d/L//0 1/NSM/T/0
  1/NSM/T/9 1/L c6/L/T 1/L 1/L/T 3/L 1/L/T 1/L c8/L//0 1/NSM/T/0 e/L//0 1/L/T/9 1/L 52/NSM/T/0
  17/L//0 1/NSM/T/0 7/L//0 1/NSM/T/0 2/L//0 1/NSM/T/0 4b/L 31/NSM/T/0 11/NSM/T/7 1/NSM/T/0
  1/NSM/T/9 2/L 1/NSM/T/0 9/L 3a/L//0 6/NSM/T/0 3/L//0 2/NSM/T/0 1/L//0 1/NSM/T/9 1/L 15b/NSM/T/0
  2/L//0 2/L 9/NSM/T/0 2/L 1/L//0 1/L 30/L//0 2/NSM/T/0 8/L//0 2/NSM/T/0 1/L//9 1/NSM/T/9 1/L
  17/L/T 56/L 25/ON 8/ET 4/ON 1e/L 1441/NSM/T/0 1/L 6/NSM/T/0 19/L 2cbe/L/T c/L 3/L/T 3/L
  9c0/NSM/T/1 5/L 3b/NSM/T/230 7/L 418/NSM/T/0 1/L 1/L//0 3e/NSM/T/0 4/L 4f/ON 1/L 1/NSM/T/0
  c/L//6 2/L 4cab/NSM/T/0 1/NSM/T/1 1/L 1261/NSM/T/0 50/L 215/L//216 2/NSM/T/1 3/L 3/L//226
  1/L//216 d/NSM/T/220 8/L 2/NSM/T/230 5/NSM/T/220 2/L 1e/NSM/T/230 4/L 3b/ON 59/NSM/T/230 3/ON
  7b/L 40/ON 60/L 6a0/NSM/T/0 37/L 4/NSM/T/0 32/L 8/NSM/T/0 1/L e/NSM/T/0 1/L 16/NSM/T/0 465/L
  100/NSM/T/230 100/L 30/NSM/T/230 7/L 177/NSM/T/230 12/L 2c/NSM/T/230 4/L f/ET 1d1/L 1c/NSM/T/232
  2/NSM/T/220 1/NSM/T/230 1/L fe/L/T 2/L f3/L/T 1/L 2/L/T 1/L 7/L/T 2/L 5/L/T 9/L 102/R
  d0/NSM/T/220 52/R/D 22/NSM/T/230 6/NSM/T/7 1/R/T 5/R 321/AL 27f/ON 260/L 1d/ON 3/L 3d/ON 39/L
  7a/ON 478/L 4/ON 9b/L 4/ON 137/L 4e/ON 154/L c/ON 29/L 7/ON 2e/L 1/ON 7/L 8/ON e/L 4/ON 9/L 7/ON
  db/L"

/-- The properties of each code point that may stand in a domain name. -/
def properties : Text.CodePointTable Properties :=
  Text.CodePointTable.read Properties.ofChars propertyRows

namespace Properties

/-- The properties of a character. -/
def of (c : Char) : Properties := ((properties.row? c.toNat).map (·.2)).getD {}

/-- The class of a mark; 0 for every other character. -/
def combiningClass (p : Properties) : Nat := p.markClass.getD 0

end Properties

end ReplayVector.Domain
