/-!
# Files

A directory with the files in it and below it, and reading one by its path. A path is followed name
by name from the directory; it may not leave it. Main content: `Files.read?`.
-/

namespace ShardRouting

/-- The files in and below a directory, by the names that lead to them. -/
structure Files where
  /-- The files, each with its bytes. -/
  contents : List (List String × List UInt8)

namespace Files

/-- Whether names lead to a directory. -/
def isDirectory (fs : Files) (names : List String) : Bool :=
  names.isEmpty ||
    fs.contents.any fun f => names.isPrefixOf f.1 && decide (names.length < f.1.length)

/-- Whether a part of a path is a name. -/
def isName (part : String) : Bool :=
  !(["", ".", ".."].contains part)

/-- The file at the end of a path that starts in a directory below. -/
def follow? (fs : Files) (names : List String) : List String → Option (List UInt8)
  | [] => none
  | [last] => if isName last then fs.contents.lookup (names ++ [last]) else none
  | part :: parts =>
    if part = ".." then if names.isEmpty then none else follow? fs names.dropLast parts
    else if isName part then
      if fs.isDirectory (names ++ [part]) then follow? fs (names ++ [part]) parts else none
    else follow? fs names parts

/-- The bytes of the file at a path. -/
def read? (fs : Files) (path : String) : Option (List UInt8) :=
  if path.startsWith "/" then none else fs.follow? [] (path.splitOn "/")

/-- Files by their paths. -/
def ofList (l : List (String × List UInt8)) : Files :=
  ⟨l.map fun f => (f.1.splitOn "/", f.2)⟩

end Files

end ShardRouting
