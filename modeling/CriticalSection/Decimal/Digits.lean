/-!
# Digits

What the readers of numbers have in common: digits at the front of a text, and the exponent of a
number. Each gives what it read and the rest of the text.
-/

set_option autoImplicit false

namespace CriticalSection

namespace Decimal

/-- Takes digits off the front of a text. -/
def spanDigits (text : List Char) : List Char × List Char :=
  (text.takeWhile Char.isDigit, text.dropWhile Char.isDigit)

/-- Takes at least one digit off the front of a text. -/
def someDigits? (text : List Char) : Option (List Char × List Char) :=
  let (digits, rest) := spanDigits text
  if digits.isEmpty then none else some (digits, rest)

/-- Reads the exponent of a number, if it has one: `e` or `E`, an optional sign, and digits in the
form that `digits?` reads. -/
def readExponent? (digits? : List Char → Option (List Char × List Char)) :
    List Char → Option (Option (Bool × List Char) × List Char)
  | [] => some (none, [])
  | c :: rest =>
    if c = 'e' || c = 'E' then
      let (negative, rest) := match rest with
        | '-' :: rest => (true, rest)
        | '+' :: rest => (false, rest)
        | rest => (false, rest)
      (digits? rest).map fun (digits, rest) => (some (negative, digits), rest)
    else some (none, c :: rest)

end Decimal

end CriticalSection
