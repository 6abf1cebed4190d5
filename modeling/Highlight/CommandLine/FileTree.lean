/-!
# Trees of files

A directory given by the files in it, and how a path leads to one of them.
-/

namespace Highlight.CommandLine

/-- A directory: its files with their paths, part by part, and what they hold. -/
structure FileTree where
  files : List (List String × ByteArray)

namespace FileTree

/-- The parts of a path. -/
def parts (path : String) : List String := path.splitOn "/"

/-- Whether a part of a path leads nowhere else. -/
def staysInPlace (part : String) : Bool := part == "" || part == "."

/-- The directory of some files named by paths; of two files with one path the later one counts. -/
def ofFiles (files : List (String × ByteArray)) : FileTree :=
  ⟨(files.map fun (path, content) => ((parts path).filter (!staysInPlace ·), content)).reverse⟩

/-- Whether a place in the tree is a directory: the whole tree is, and so is what a file is in. -/
def isDirectory (t : FileTree) (place : List String) : Bool :=
  place.isEmpty || t.files.any fun (path, _) => place.isPrefixOf path && place != path

/-- Where a path leads from a place. Every part is looked up in a directory; nothing outside the
tree can be reached. -/
def resolve (t : FileTree) (place : List String) : List String → Option (List String)
  | [] => some place
  | part :: rest =>
    if !t.isDirectory place then none
    else if staysInPlace part then t.resolve place rest
    else if part = ".." then
      if place.isEmpty then none else t.resolve place.dropLast rest
    else t.resolve (place ++ [part]) rest

/-- What the file at a path holds, if the path leads to a file. -/
def read (t : FileTree) (path : String) : Option ByteArray :=
  if path.startsWith "/" then none
  else (t.resolve [] (parts path)).bind fun place => t.files.lookup place

end FileTree

end Highlight.CommandLine
