import SicXe.FileError
import SicXe.Text.Split

/-!
# SicXe.CommandLine.Path

A path is a way through a tree of directories: where it starts, and the steps it takes from
there.  Slashes divide the steps, and several of them count as one; a slash at the end says that
the path leads to a directory.
-/

namespace SicXe.CommandLine

/-- A step along a path. -/
inductive Path.Step where
  /-- Stay in a directory. -/
  | stay
  /-- Go to the directory around a directory. -/
  | up
  /-- Go to what has a name in a directory. -/
  | down (name : String)
  deriving Repr, DecidableEq

/-- The step of a name between slashes. -/
def Path.Step.ofName (name : List Char) : Path.Step :=
  if name = ['.'] then .stay
  else if name = ['.', '.'] then .up
  else .down (String.ofList name)

/-- A way through a tree of directories. -/
structure Path where
  /-- Whether the path starts at the root of the tree, not at the working directory. -/
  fromRoot : Bool
  steps : List Path.Step
  /-- Whether the path ends in a slash. -/
  endsInSlash : Bool
  deriving Repr, DecidableEq

namespace Path

/-- How many bytes a path may have at most. -/
def maxLength : Nat := 4095

/-- How many bytes a name in a directory may have at most. -/
def maxNameLength : Nat := 255

/-- The path of a text that holds something. -/
def ofText (text : String) : Path :=
  let pieces := Text.pieces '/' text.toList
  { fromRoot := text.toList.head? = some '/'
    steps := (pieces.filter (· ≠ [])).map Step.ofName
    endsInSlash := text.toList.getLast? = some '/' }

/-- Read a path.  An empty text leads nowhere. -/
def read (text : String) : Except FileError Path :=
  if text = "" then .error .notFound
  else if (Bytes.ofText text).length > maxLength then .error .nameTooLong
  else .ok (ofText text)

/-- The steps to the directory that holds what a path leads to, and a stay there. -/
def stepsAround (path : Path) : List Step :=
  path.steps.dropLast ++ [.stay]

end Path

end SicXe.CommandLine
