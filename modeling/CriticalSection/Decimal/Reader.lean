import CriticalSection.Decimal.Digits
import CriticalSection.Decimal.Numeral

/-!
# Reading floating-point numbers

A number is read from digits with an optional point and an optional power of ten, or from the
words for what is no finite number.
-/

set_option autoImplicit false

namespace CriticalSection

namespace Decimal

/-- Reads a numeral behind its sign: digits, of which some may stand behind a point and at least
one has to be there, and an optional exponent. Nothing may stand behind it. -/
def readNumeral? (negative : Bool) (text : List Char) : Option Numeral :=
  let (whole, rest) := spanDigits text
  let (fraction, rest) := match rest with
    | '.' :: rest => spanDigits rest
    | rest => ([], rest)
  if whole.isEmpty && fraction.isEmpty then none
  else
    match readExponent? someDigits? rest with
    | some (exponent, []) => some ⟨negative, whole, fraction, exponent⟩
    | _ => none

/-- **Reads a floating-point number**: an optional sign, then a number, an infinity (`inf` or
`infinity`) or `nan`, the words in letters of either case. -/
def readFloat? (text : String) : Option Float :=
  let (negative, unsigned) := match text.toList with
    | '-' :: rest => (true, rest)
    | '+' :: rest => (false, rest)
    | rest => (false, rest)
  let word := String.ofList (unsigned.map Char.toLower)
  if word = "inf" ∨ word = "infinity" then some (if negative then -1.0 / 0.0 else 1.0 / 0.0)
  else if word = "nan" then some (0.0 / 0.0)
  else (readNumeral? negative unsigned).map Numeral.toFloat

end Decimal

end CriticalSection
