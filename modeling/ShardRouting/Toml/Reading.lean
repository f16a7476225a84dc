import ShardRouting.Toml.Tables
import ShardRouting.Toml.Value

/-!
# Reading TOML

A text of the format is a list of lines: headers in brackets, and entries. The entries in front of
the first header belong to the whole document, the others to the table of the last header. Main
content: `Document.ofToml?`.
-/

namespace ShardRouting

namespace Toml

/-- A line that is not empty. -/
inductive Line where
  /-- A header, and whether it opens a further table of a list. -/
  | header (path : List String) (inList : Bool)
  /-- A value under a key. -/
  | entry (path : List String) (d : Document)

/-- Nothing but blanks up to the end of the line, which is passed. -/
def lineEnd? (ts : List Token) : Option (Kept Unit ts) :=
  have hts := length_skipBlanks_le ts
  match h : skipBlanks ts with
  | [] => some ⟨(), [], by simp⟩
  | .newline :: rest =>
    some ⟨(), rest, by rw [h] at hts; simp only [List.length_cons] at hts; omega⟩
  | _ => none

/-- The path of a header behind its opening brackets, and its closing brackets. -/
def headerPath? (inList : Bool) (ts : List Token) : Option (Kept (List String) ts) :=
  have hts := length_skipBlanks_le ts
  (key? (skipBlanks ts)).bind fun k =>
    match h : k.rest, inList with
    | .closeBracket :: .closeBracket :: rest, true =>
      some ⟨k.value, rest, by
        have := k.fewer; rw [h] at this; simp only [List.length_cons] at this; omega⟩
    | .closeBracket :: rest, false =>
      some ⟨k.value, rest, by
        have := k.fewer; rw [h] at this; simp only [List.length_cons] at this; omega⟩
    | _, _ => none

/-- The header behind its opening brackets, up to the end of its line. -/
def header? (inList : Bool) (ts : List Token) : Option (Kept Line ts) :=
  (headerPath? inList ts).bind fun k =>
    k.andThen? fun path ts =>
      (lineEnd? ts).map fun e => ⟨.header path inList, e.rest, e.noMore⟩

/-- The entry at the front of tokens, up to the end of its line. -/
def entry? (ts : List Token) : Option (Taken Line ts) :=
  (keyAndSign? ts).bind fun k =>
    (value? k.rest).bind fun v =>
      (lineEnd? v.rest).map fun e =>
        ⟨.entry k.value v.value, e.rest,
          Nat.lt_of_le_of_lt e.noMore (Nat.lt_trans v.fewer k.fewer)⟩

/-- The line at the front of tokens that start with neither a blank nor a line end. -/
def line? : (ts : List Token) → Option (Taken Line ts)
  | .openBracket :: .openBracket :: ts =>
    (header? true ts).map fun k => (k.behind _).taken _
  | .openBracket :: ts => (header? false ts).map (Kept.taken _)
  | ts => entry? ts

/-- The lines of tokens. -/
def lines? (ts : List Token) : Option (List Line) :=
  have hts := length_skipLines_le ts
  match h : skipLines ts with
  | [] => some []
  | start =>
    (line? start).bind fun l =>
      have : l.rest.length < ts.length := Nat.lt_of_lt_of_le l.fewer (h ▸ hts)
      (lines? l.rest).map (l.value :: ·)
  termination_by ts.length

/-- The entries in front of the first header, and each header with the entries behind it. -/
def grouped : List Line → Paths Document × List ((List String × Bool) × Paths Document)
  | [] => ([], [])
  | .entry path d :: ls => ((path, d) :: (grouped ls).1, (grouped ls).2)
  | .header path inList :: ls => ([], ((path, inList), (grouped ls).1) :: (grouped ls).2)

/-- The section of a header. -/
def section? (path : List String) (inList : Bool) (entries : Paths Document) :
    Option (List String × Section) :=
  (nested? entries).map fun es => (path, ⟨inList, es⟩)

end Toml

open Toml in
/-- The document that a text in TOML denotes. -/
def Document.ofToml? (s : String) : Option Document := do
  let lines ← lines? (← Token.scan? s)
  let groups := grouped lines
  let top ← section? [] false groups.1
  let sections ← groups.2.mapM fun g => section? g.1.1 g.1.2 g.2
  (assembled? (top :: sections)).map .table

end ShardRouting
