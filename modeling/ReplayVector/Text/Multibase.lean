import ReplayVector.Text.BaseEncoding

/-!
# Self-describing text of a byte string

The first character of the text names the alphabet of the rest. Reading accepts every alphabet of
the table, writing uses lower-case base 32.
-/

namespace ReplayVector.Text.Multibase

/-- The symbols that stand for whole bytes. -/
def emoji : List Char :=
  ("🚀🪐☄🛰🌌🌑🌒🌓🌔🌕🌖🌗🌘🌍🌏🌎🐉☀💻🖥💾💿😂❤😍🤣😊🙏💕😭😘👍" ++
    "😅👏😁🔥🥰💔💖💙😢🤔😆🙄💪😉☺👌🤗💜😔😎😇🌹🤦🎉💞✌✨🤷😱😌🌸🙌" ++
    "😋💗💚😏💛🙂💓🤩😄😀🖤😃💯🙈👇🎶😒🤭❣😜💋👀😪😑💥🙋😞😩😡🤪👊🥳" ++
    "😥🤤👉💃😳✋😚😝😴🌟😬🙃🍀🌷😻😓⭐✅🥺🌈😈🤘💦✔😣🏃💐☹🎊💘😠☝" ++
    "😕🌺🎂🌻😐🖕💝🙊😹🗣💫💀👑🎵🤞😛🔴😤🌼😫⚽🤙☕🏆🤫👈😮🙆🍻🍃🐶💁" ++
    "😲🌿🧡🎁⚡🌞🎈❌✊👋😰🤨😶🤝🚶💰🍓💢🤟🙁🚨💨🤬✈🎀🍺🤓😙💟🌱😖👶" ++
    "🥴▶➡❓💎💸⬇😨🌚🦋😷🕺⚠🙅😟😵👎🤲🤠🤧📌🔵💅🧐🐾🍒😗🤑🌊🤯🐷☎" ++
    "💧😯💆👆🎤🙇🍑❄🌴💣🐸💌📍🥀🤢👅💡💩👐📸👻🤐🤮🎼🥵🚩🍎🍊👼💍📣🥂").toList

/-- The alphabets of `2 ^ bits` symbols and the characters that name them. -/
def bitAlphabets : List (Char × BitAlphabet) :=
  let hexLower := decimalDigits ++ "abcdef"
  let hexUpper := decimalDigits ++ "ABCDEF"
  let lower := lowerLetters ++ "234567"
  let upper := upperLetters ++ "234567"
  let hex32Lower := decimalDigits ++ "abcdefghijklmnopqrstuv"
  let hex32Upper := decimalDigits ++ "ABCDEFGHIJKLMNOPQRSTUV"
  [('0', { bits := 1, symbols := ['0', '1'] }),
   ('7', { bits := 3, symbols := "01234567".toList }),
   ('f', { bits := 4, symbols := hexLower.toList }),
   ('F', { bits := 4, symbols := hexUpper.toList }),
   ('b', { bits := 5, symbols := lower.toList }),
   ('B', { bits := 5, symbols := upper.toList }),
   ('c', { bits := 5, symbols := lower.toList, block := 8 }),
   ('C', { bits := 5, symbols := upper.toList, block := 8 }),
   ('v', { bits := 5, symbols := hex32Lower.toList }),
   ('V', { bits := 5, symbols := hex32Upper.toList }),
   ('t', { bits := 5, symbols := hex32Lower.toList, block := 8 }),
   ('T', { bits := 5, symbols := hex32Upper.toList, block := 8 }),
   ('h', { bits := 5, symbols := "ybndrfg8ejkmcpqxot1uwisza345h769".toList }),
   ('m', { bits := 6, symbols := base64Symbols }),
   ('M', { bits := 6, symbols := base64Symbols, block := 4 }),
   ('u', { bits := 6, symbols := base64UrlSymbols }),
   ('U', { bits := 6, symbols := base64UrlSymbols, block := 4 }),
   ('🚀', { bits := 8, symbols := emoji })]

/-- The alphabets that write one number and the characters that name them. -/
def digitAlphabets : List (Char × List Char) :=
  [('9', decimalDigits.toList),
   ('k', (decimalDigits ++ lowerLetters).toList),
   ('K', (decimalDigits ++ upperLetters).toList),
   ('z', base58Symbols),
   ('Z', "123456789abcdefghijkmnopqrstuvwxyzABCDEFGHJKLMNPQRSTUVWXYZ".toList)]

/-- The letter that a letter counts as: in base 36 the case does not matter. -/
def letter : Char → Char → Char
  | 'k', c => c.toLower
  | 'K', c => c.toUpper
  | _, c => c

/-- Reads the text of a byte string. A null character announces the bytes themselves. -/
def decode (s : String) : Option Bytes :=
  match s.toList with
  | [] => none
  | c :: cs =>
    if c = '\x00' then some (Bytes.ofString (String.ofList cs))
    else match bitAlphabets.lookup c with
      | some a => a.decode cs
      | none => (digitAlphabets.lookup c).bind fun symbols => decodeDigits symbols (cs.map (letter c))

/-- The text of a byte string in lower-case base 32. -/
def encode (bs : Bytes) : String := String.ofList ('b' :: base32.encode bs)

end ReplayVector.Text.Multibase
