/-!
# Lines

The lines of a printed text. A line feed ends a line, as the end of the text does, and a carriage
return right in front of either belongs to the end. Main content: `lines`.
-/

namespace ShardRouting.Text

/-- The pieces of a text between its line feeds. -/
def splitLines (cs : List Char) : List (List Char) :=
  cs.foldr (fun c pieces =>
    if c = '\n' then [] :: pieces
    else
      match pieces with
      | piece :: pieces => (c :: piece) :: pieces
      | [] => [[c]]) [[]]

/-- A line without the carriage return that belongs to its end. -/
def withoutReturn (line : List Char) : List Char :=
  if line.getLast? = some '\r' then line.dropLast else line

/-- The lines of a text; an empty text is one empty line. -/
def lines (s : String) : List String :=
  (splitLines s.toList).map fun line => String.ofList (withoutReturn line)

end ShardRouting.Text
