import CriticalSection.Decimal.Binary64

/-!
# Quantities of milliseconds

Offsets, delays and margins are numbers of milliseconds that need not be whole. What is computed
with them, shifting and halving and comparing, is written once over a class of number types and
runs on floating-point numbers; the same computations are available on the rational numbers, where
they are exact.
-/

set_option autoImplicit false

namespace CriticalSection

/-- **A type of numbers of milliseconds.** -/
class Quantity (α : Type) extends Add α, Sub α where
  /-- A whole number of milliseconds. -/
  ofInt : Int → α
  /-- Half of a quantity. -/
  half : α → α
  /-- The larger of two quantities. -/
  larger : α → α → α
  /-- Whether a quantity is smaller than another. -/
  less : α → α → Bool
  /-- The nearest whole number within 64 bits, of two equally near ones the larger. -/
  round : α → Int64

namespace Quantity

/-- The 64-bit number nearest to a whole number. -/
def clamp (n : Int) : Int64 :=
  if n < Int64.minValue.toInt then Int64.minValue
  else if Int64.maxValue.toInt < n then Int64.maxValue
  else Int64.ofInt n

/-- Floating-point quantities. What is no number is ignored beside one that is, and rounds to
zero. -/
instance : Quantity Float where
  ofInt n := Float.ofInt n
  half x := x / 2
  larger x y := if x.isNaN then y else if x < y then y else x
  less x y := x < y
  round x :=
    match Binary64.ofFloat (x + 0.5) with
    | .nan => 0
    | .infinite negative => if negative then Int64.minValue else Int64.maxValue
    | .finite negative significand exponent =>
      clamp (Binary64.floor negative significand exponent)

/-- Exact quantities. -/
instance : Quantity Rat where
  ofInt n := (n : Rat)
  half x := x / 2
  larger x y := if x < y then y else x
  less x y := decide (x < y)
  round x := clamp (x + 1 / 2).floor

end Quantity

end CriticalSection
