import ShardRouting.Text.Blank

/-!
# Identifiers

The form under which names of tables and columns are compared: without the blanks around it,
without quoting characters at its ends, and in lower case as far as ASCII letters go.
-/

namespace ShardRouting.Identifier

/-- Whether a character quotes identifiers in some dialect. -/
def isQuote (c : Char) : Bool :=
  c = '\x60' || c = '\x22' || c = '[' || c = ']'

/-- The characters of the compared form of an identifier: blanks go first, then quotes. -/
def normalChars (cs : List Char) : List Char :=
  (Text.trimmed isQuote (Text.trimmed Text.isBlank cs)).map Char.toLower

/-- The compared form of an identifier. -/
def normalize (name : String) : String :=
  String.ofList (normalChars name.toList)

end ShardRouting.Identifier
