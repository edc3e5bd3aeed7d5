import CriticalSection.Decimal.Numeral
import CriticalSection.Decimal.Shortest

/-!
# How a floating-point number is written

The digits of a number are settled by `Decimal.shortest`; a `Layout` settles the rest: for which
sizes the point stands at its place and for which an exponent follows the digits, and whether a
whole number keeps a point.
-/

set_option autoImplicit false

namespace CriticalSection

/-- The decisions of a way of writing floating-point numbers. -/
structure Layout where
  /-- The numbers of digits before the point, from the least to the greatest, for which the point
  stands at its place; none, if it always does. -/
  positional : Option (Int × Int)
  /-- How many digits there are behind a point at the least. -/
  places : Nat
  /-- Which of two equally near decimals is written. -/
  tie : Decimal.Tie
  deriving Repr

namespace Layout

/-- Digits with a point at its place: `size` of them stand before it. -/
def atPlace (places : Nat) (negative : Bool) (digits : List Char) (size : Int) : Numeral :=
  let whole : List Char :=
    if size ≤ 0 then ['0'] else (digits ++ List.replicate size.toNat '0').take size.toNat
  let fraction : List Char :=
    if size ≤ 0 then List.replicate (-size).toNat '0' ++ digits else digits.drop size.toNat
  ⟨negative, whole, fraction ++ List.replicate (places - fraction.length) '0', none⟩

/-- Digits with a point behind the first one, if there are more, and an exponent. -/
def withExponent (negative : Bool) (digits : List Char) (size : Int) : Numeral :=
  let exponent := size - 1
  ⟨negative, digits.take 1, digits.drop 1,
    some (decide (exponent < 0), (toString exponent.natAbs).toList)⟩

/-- The numeral of a decimal number with a sign. -/
def ofDecimal (layout : Layout) (negative : Bool) (d : Decimal) : Numeral :=
  let digits := if d.digits = 0 then [] else (toString d.digits).toList
  let size : Int := if d.digits = 0 then 0 else (digits.length : Int) + d.exponent
  let positional := match layout.positional with
    | none => true
    | some (least, greatest) => d.digits = 0 || (least ≤ size && size ≤ greatest)
  if positional then atPlace layout.places negative digits size
  else withExponent negative digits size

/-- **The numeral of a floating-point number**, if it is finite. Zero keeps its sign. -/
def numeral? (layout : Layout) (x : Float) : Option Numeral :=
  match Binary64.ofFloat x with
  | .nan | .infinite _ => none
  | .finite negative significand exponent =>
    some (layout.ofDecimal negative (Decimal.shortest layout.tie significand exponent))

/-- In reports a number is written without an exponent, and a whole number without a point. -/
def plain : Layout := ⟨none, 0, .up⟩

/-- **The text of a floating-point number in a report.** -/
def reportText (x : Float) : String :=
  match plain.numeral? x, Binary64.ofFloat x with
  | some numeral, _ => numeral.text
  | none, .infinite negative => if negative then "-inf" else "inf"
  | none, _ => "NaN"

/-- In estimate files a number has a digit behind its point, or an exponent if it is below
`0.00001` or not below `10 ^ 16`. -/
def estimate : Layout := ⟨some (-4, 16), 1, .even⟩

end Layout

end CriticalSection
