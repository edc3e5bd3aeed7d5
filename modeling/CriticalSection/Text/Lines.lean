import CriticalSection.Text.Blank

/-!
# Lines and words

A text is cut into lines at its line feeds, and a line into words at its blank characters. A
carriage return directly before a line feed belongs to the line's end; behind the last line feed
there is a further line only if there is something to stand on it.
-/

set_option autoImplicit false

namespace CriticalSection.Text

/-- Puts a character in front of the first piece. -/
def pushFirst (c : Char) : List (List Char) → List (List Char)
  | [] => [[c]]
  | piece :: pieces => (c :: piece) :: pieces

/-- **The lines of a text**, without their ends. -/
def lines : List Char → List (List Char)
  | [] => []
  | '\n' :: rest => [] :: lines rest
  | '\r' :: '\n' :: rest => [] :: lines rest
  | c :: rest => pushFirst c (lines rest)

/-- The pieces between separating characters, empty ones included. -/
def pieces (separates : Char → Bool) : List Char → List (List Char)
  | [] => [[]]
  | c :: rest =>
    if separates c then [] :: pieces separates rest else pushFirst c (pieces separates rest)

/-- **The words of a text**: its longest pieces without a blank character. -/
def words (text : List Char) : List (List Char) :=
  (pieces isBlank text).filter fun piece => !piece.isEmpty

end CriticalSection.Text
