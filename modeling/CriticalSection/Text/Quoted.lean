import CriticalSection.Text.Hidden

/-!
# Quoted text

How a text is shown inside a message, so that its ends and its hidden characters can be seen.
-/

set_option autoImplicit false

namespace CriticalSection.Text

/-- How a character is shown between quotes. -/
def quotedChar (c : Char) : String :=
  if c = '"' then "\\\""
  else if c = '\\' then "\\\\"
  else if c = '\n' then "\\n"
  else if c = '\r' then "\\r"
  else if c = '\t' then "\\t"
  else if c = Char.ofNat 0 then "\\0"
  else if isHidden c then "\\u\x7b" ++ String.ofList (Nat.toDigits 16 c.toNat) ++ "\x7d"
  else c.toString

/-- **A text between quotes**: quotes, backslashes and hidden characters are written with a
backslash. -/
def quoted (text : String) : String :=
  text.toList.foldl (fun shown c => shown ++ quotedChar c) "\"" ++ "\""

end CriticalSection.Text
