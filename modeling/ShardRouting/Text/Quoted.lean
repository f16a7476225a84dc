import ShardRouting.Text.Combining
import ShardRouting.Text.Unprintable

/-!
# Quoted text

Texts and characters as messages quote them. The quote that encloses and the backslash are escaped
by a backslash, the four common controls have a letter, and every other character that is
unprintable or combining is written by its hexadecimal code point. Main content: `quoted` and
`quotedChar`.
-/

namespace ShardRouting.Text

/-- The escape that gives a character by its code point, in lower-case hexadecimal digits. -/
def codePointEscape (c : Char) : List Char :=
  ['\\', 'u', '\x7b'] ++ Nat.toDigits 16 c.toNat ++ ['\x7d']

/-- A character as it is written between quotes of the given kind. -/
def escaped (quote c : Char) : List Char :=
  if c = '\x00' then ['\\', '0']
  else if c = '\t' then ['\\', 't']
  else if c = '\r' then ['\\', 'r']
  else if c = '\n' then ['\\', 'n']
  else if c = quote || c = '\\' then ['\\', c]
  else if isCombining c || isUnprintable c then codePointEscape c
  else [c]

/-- A text between double quotes. -/
def quoted (s : String) : String :=
  String.ofList ('\x22' :: (s.toList.flatMap (escaped '\x22') ++ ['\x22']))

/-- A character between single quotes. -/
def quotedChar (c : Char) : String :=
  String.ofList ('\x27' :: (escaped '\x27' c ++ ['\x27']))

end ShardRouting.Text
