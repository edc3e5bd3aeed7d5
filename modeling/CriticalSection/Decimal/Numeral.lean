import CriticalSection.Decimal.Binary64

/-!
# Numerals

A numeral is a number as it is written: a sign, digits before and behind a point, and a power of
ten. It stands for the floating-point number nearest to its exact value, however many digits it
has.
-/

set_option autoImplicit false

namespace CriticalSection

/-- A number as it is written. -/
structure Numeral where
  negative : Bool
  /-- The digits before the point. -/
  whole : List Char
  /-- The digits behind the point; there is no point if there are none. -/
  fraction : List Char
  /-- The exponent: whether it is negative, and its digits. -/
  exponent : Option (Bool × List Char)
  deriving DecidableEq, Repr

namespace Numeral

/-- The text of a numeral. -/
def text (n : Numeral) : String :=
  let sign := if n.negative then ['-'] else []
  let point := if n.fraction.isEmpty then [] else '.' :: n.fraction
  let power := match n.exponent with
    | none => []
    | some (negative, digits) => 'e' :: (if negative then '-' else '+') :: digits
  String.ofList (sign ++ n.whole ++ point ++ power)

/-- The numeral of a whole number. -/
def ofInt (n : Int) : Numeral := ⟨n < 0, (toString n.natAbs).toList, [], none⟩

/-- The value of a run of decimal digits, added behind the digits already read. -/
def digitsValue (start : Nat) (digits : List Char) : Nat :=
  digits.foldl (fun value c => value * 10 + (c.toNat - '0'.toNat)) start

/-- The power of ten of a numeral. -/
def power (n : Numeral) : Int :=
  match n.exponent with
  | none => 0
  | some (negative, digits) =>
    let value : Int := digitsValue 0 digits
    if negative then -value else value

/-- The floating-point number nearest to `digits * 10 ^ exponent`. A power of ten far outside the
range is not computed: the number is then infinite or zero. -/
def nearest (digits : Nat) (exponent : Int) : Float :=
  if digits = 0 then 0
  else
    let size := exponent + (Nat.log2 digits : Int) * 30103 / 100000
    if 400 < size then 1.0 / 0.0
    else if size < -400 then 0
    else match exponent with
      | .ofNat e => Float.ofScientific digits false e
      | .negSucc e => Float.ofScientific digits true (e + 1)

/-- **The floating-point number nearest to a numeral.** -/
def toFloat (n : Numeral) : Float :=
  let magnitude := nearest (digitsValue (digitsValue 0 n.whole) n.fraction)
    (n.power - n.fraction.length)
  if n.negative then -magnitude else magnitude

end Numeral

end CriticalSection
