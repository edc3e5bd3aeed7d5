import CriticalSection.Error
import CriticalSection.Text.Lines

/-!
# Paths

A path names a file by the directories that lead to it, divided by slashes. It is followed from
the working directory, or from the root if it starts with a slash.
-/

set_option autoImplicit false

namespace CriticalSection

namespace Path

/-- A path behind another one. A path from the root stands for itself. -/
def join (directory path : String) : String :=
  let d := directory.toList
  if path.toList.head? = some '/' || d.isEmpty then path
  else if d.getLast? = some '/' then directory ++ path
  else directory ++ "/" ++ path

/-- The names on a path. -/
def names (path : String) : List String :=
  ((Text.pieces (· = '/') path.toList).filter fun piece => !piece.isEmpty).map String.ofList

/-- Whether a path is followed from the root. -/
def isAbsolute (path : String) : Bool := path.toList.head? = some '/'

/-- Whether a path ends with a slash, and so can only name a directory. -/
def namesDirectory (path : String) : Bool := path.toList.getLast? = some '/'

/-- The most bytes a path may have. -/
def maxLength : Nat := 4095

/-- The most bytes a name may have. -/
def maxNameLength : Nat := 255

/-- A path without its last name. -/
def parent (path : String) : String :=
  let front := (names path).dropLast
  (if isAbsolute path then "/" else "") ++ String.intercalate "/" front

/-- What is wrong with a path as a text. -/
def defect? (path : String) : Option SystemFailure :=
  if path.toList.contains (Char.ofNat 0) then some .invalidInput
  else if path.isEmpty then some .notFound
  else if maxLength < path.utf8ByteSize then some .invalidFilename
  else none

end Path

end CriticalSection
