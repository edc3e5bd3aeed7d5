import CriticalSection.Json.Value

/-!
# Writing JSON

Values are written on one line without spaces, or indented by two spaces a level. In strings only
the quote, the backslash and the characters below the space are written with a backslash.
-/

set_option autoImplicit false

namespace CriticalSection

namespace Json

/-- The hexadecimal digit for a number below sixteen. -/
def hexDigit (n : Nat) : Char :=
  if n < 10 then Char.ofNat ('0'.toNat + n) else Char.ofNat ('a'.toNat + (n - 10))

/-- How a character is written in a string. -/
def escape (c : Char) : List Char :=
  if c = '"' then ['\\', '"']
  else if c = '\\' then ['\\', '\\']
  else if c = '\x08' then ['\\', 'b']
  else if c = '\x0c' then ['\\', 'f']
  else if c = '\n' then ['\\', 'n']
  else if c = '\r' then ['\\', 'r']
  else if c = '\t' then ['\\', 't']
  else if c.toNat < 0x20 then
    ['\\', 'u', '0', '0', hexDigit (c.toNat / 16), hexDigit (c.toNat % 16)]
  else [c]

/-- **The text of a string.** -/
def quoted (content : String) : List Char :=
  '"' :: (content.toList.flatMap escape ++ ['"'])

mutual

/-- **The text of a value** on one line. -/
def compact : Json → List Char
  | .null => "null".toList
  | .bool true => "true".toList
  | .bool false => "false".toList
  | .number n => n.text.toList
  | .text content => quoted (content.getD "")
  | .array items => '[' :: (compactItems items ++ [']'])
  | .object fields => '\x7b' :: (compactFields fields ++ ['\x7d'])

/-- The items of an array, with commas between them. -/
def compactItems : List Json → List Char
  | [] => []
  | item :: rest => compact item ++ (if rest.isEmpty then [] else ',' :: compactItems rest)

/-- The fields of an object, with commas between them. -/
def compactFields : List (Option String × Json) → List Char
  | [] => []
  | (name, value) :: rest =>
    quoted (name.getD "") ++ ':' :: compact value ++
      (if rest.isEmpty then [] else ',' :: compactFields rest)

end

/-- The start of a line at a level. -/
def newLine (level : Nat) : List Char := '\n' :: List.replicate (2 * level) ' '

mutual

/-- **The text of a value** with each item and field on a line of its own. An array or object with
nothing in it stays on its line. -/
def indented (level : Nat) : Json → List Char
  | .null => "null".toList
  | .bool true => "true".toList
  | .bool false => "false".toList
  | .number n => n.text.toList
  | .text content => quoted (content.getD "")
  | .array [] => ['[', ']']
  | .array (item :: items) =>
    '[' :: (indentedItems (level + 1) (item :: items) ++ newLine level ++ [']'])
  | .object [] => ['\x7b', '\x7d']
  | .object (field :: fields) =>
    '\x7b' :: (indentedFields (level + 1) (field :: fields) ++ newLine level ++ ['\x7d'])

/-- The items of an array, each on a line. -/
def indentedItems (level : Nat) : List Json → List Char
  | [] => []
  | item :: rest =>
    newLine level ++ indented level item ++
      (if rest.isEmpty then [] else ',' :: indentedItems level rest)

/-- The fields of an object, each on a line. -/
def indentedFields (level : Nat) : List (Option String × Json) → List Char
  | [] => []
  | (name, value) :: rest =>
    newLine level ++ quoted (name.getD "") ++ ':' :: ' ' :: indented level value ++
      (if rest.isEmpty then [] else ',' :: indentedFields level rest)

end

end Json

end CriticalSection
