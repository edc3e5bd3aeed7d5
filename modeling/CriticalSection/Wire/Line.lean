import CriticalSection.Wire.Message
import CriticalSection.Text.Blank

/-!
# Lines

A message travels as one line: its JSON text, which holds no line feed, and a line feed. A line is
read without the blanks at its end.
-/

set_option autoImplicit false

namespace CriticalSection.Wire

/-- The line of a JSON value. -/
def encode (j : Json) : String := String.ofList (j.compact ++ ['\n'])

/-- Reads the JSON value on a line and makes a message of it. -/
def decode {α : Type} (ofJson? : Json → Option α) (line : String) : Outcome α :=
  match Json.read? (Text.trimEnd line.toList) with
  | none => fail (.codec "the line is no JSON value")
  | some j =>
    if j.strict Json.maxLevels then
      match ofJson? j with
      | some message => .ok message
      | none => fail (.codec "the line is no known message")
    else fail (.codec "the line is no proper JSON value")

/-- **The line of an operation.** -/
def operationLine (operation : Operation) : String := encode operation.json

/-- **Reads the line of an operation.** -/
def readOperation (line : String) : Outcome Operation := decode Operation.ofJson? line

/-- **The line of a reply.** -/
def replyLine (reply : Reply) : String := encode reply.json

/-- **Reads the line of a reply.** -/
def readReply (line : String) : Outcome Reply := decode Reply.ofJson? line

end CriticalSection.Wire
