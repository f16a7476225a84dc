/-!
# Blank characters

The characters with the Unicode property `White_Space`, and cutting them off the ends of a text.
Main content: `isBlank` and `trimmed`.
-/

namespace ShardRouting.Text

/-- The characters with the Unicode property `White_Space`, in code point order. -/
def blanks : List Char :=
  ['\t', '\n', '\x0b', '\x0c', '\r', ' ', '\u0085', '\u00a0', '\u1680', '\u2000', '\u2001',
    '\u2002', '\u2003', '\u2004', '\u2005', '\u2006', '\u2007', '\u2008', '\u2009', '\u200a',
    '\u2028', '\u2029', '\u202f', '\u205f', '\u3000']

/-- Whether a character is blank. -/
def isBlank (c : Char) : Bool :=
  blanks.contains c

/-- The characters that are left when those with a property are cut off both ends. -/
def trimmed (p : Char → Bool) (cs : List Char) : List Char :=
  ((cs.dropWhile p).reverse.dropWhile p).reverse

@[simp] theorem trimmed_nil (p : Char → Bool) : trimmed p [] = [] := rfl

/-- A text without the blanks at its ends. -/
def trim (s : String) : String :=
  String.ofList (trimmed isBlank s.toList)

end ShardRouting.Text
