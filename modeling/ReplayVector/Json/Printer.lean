import ReplayVector.Json.Basic

/-!
# JSON text

Two layouts: `compact` has no blanks, `pretty` puts every item and member on a line of its own,
indented by two blanks a level. In strings only quotes, backslashes and control characters below
the blank are escaped.
-/

namespace ReplayVector.Json

/-- The escape of a character inside a string. -/
def escapeChar (c : Char) : List Char :=
  if c = '"' then ['\\', '"']
  else if c = '\\' then ['\\', '\\']
  else if c = '\x08' then ['\\', 'b']
  else if c = '\x0c' then ['\\', 'f']
  else if c = '\n' then ['\\', 'n']
  else if c = '\r' then ['\\', 'r']
  else if c = '\t' then ['\\', 't']
  else if c.toNat < 0x20 then
    ['\\', 'u', '0', '0', Bytes.hexDigit (c.toNat / 16), Bytes.hexDigit (c.toNat % 16)]
  else [c]

/-- A string between quotes. -/
def quote (s : String) : List Char := '"' :: s.toList.flatMap escapeChar ++ ['"']

mutual

/-- The text without blanks. -/
def compactChars : Json → List Char
  | .null => "null".toList
  | .bool true => "true".toList
  | .bool false => "false".toList
  | .number spelling => spelling.toList
  | .string text => quote (text.getD "")
  | .array [] => ['[', ']']
  | .array (j :: js) => '[' :: compactChars j ++ compactItems js
  | .object [] => ['\x7b', '\x7d']
  | .object ((name, j) :: ms) =>
    '\x7b' :: quote (name.getD "") ++ ':' :: compactChars j ++ compactMembers ms
  | .broken => []

/-- The items after the first, and the closing bracket. -/
def compactItems : List Json → List Char
  | [] => [']']
  | j :: js => ',' :: compactChars j ++ compactItems js

/-- The members after the first, and the closing brace. -/
def compactMembers : List (Option String × Json) → List Char
  | [] => ['\x7d']
  | (name, j) :: ms => ',' :: quote (name.getD "") ++ ':' :: compactChars j ++ compactMembers ms

end

/-- The text without blanks. -/
def compact (j : Json) : String := String.ofList j.compactChars

/-- A new line, indented by the given number of levels. -/
def newLine (level : Nat) : List Char := '\n' :: List.replicate (2 * level) ' '

mutual

/-- The text with every item and member on its own line, inside the given number of levels. -/
def prettyChars (level : Nat) : Json → List Char
  | .array (j :: js) =>
    '[' :: newLine (level + 1) ++ prettyChars (level + 1) j ++ prettyItems level js
  | .object ((name, j) :: ms) =>
    '\x7b' :: newLine (level + 1) ++ quote (name.getD "") ++ ':' :: ' ' ::
      prettyChars (level + 1) j ++ prettyMembers level ms
  | j => compactChars j

/-- The items after the first, and the closing bracket. -/
def prettyItems (level : Nat) : List Json → List Char
  | [] => newLine level ++ [']']
  | j :: js => ',' :: newLine (level + 1) ++ prettyChars (level + 1) j ++ prettyItems level js

/-- The members after the first, and the closing brace. -/
def prettyMembers (level : Nat) : List (Option String × Json) → List Char
  | [] => newLine level ++ ['\x7d']
  | (name, j) :: ms =>
    ',' :: newLine (level + 1) ++ quote (name.getD "") ++ ':' :: ' ' ::
      prettyChars (level + 1) j ++ prettyMembers level ms

end

/-- The text with every item and member on its own line. -/
def pretty (j : Json) : String := String.ofList (j.prettyChars 0)

end ReplayVector.Json
