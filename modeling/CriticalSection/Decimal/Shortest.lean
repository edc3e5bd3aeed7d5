import CriticalSection.Decimal.Binary64

/-!
# Shortest decimal digits

A floating-point number stands for all the reals that round to it, and is written with the fewest
decimal digits that name one of them. For one digit, two digits and so on, the two neighbours of
the number among the decimals with so many digits are tried in exact arithmetic; the first grid
with a neighbour that rounds back wins, and of two such neighbours the nearer one.
-/

set_option autoImplicit false

namespace CriticalSection

/-- The decimal number `digits * 10 ^ exponent`. -/
structure Decimal where
  digits : Nat
  exponent : Int
  deriving DecidableEq, Repr

namespace Decimal

/-- The ratio of whole numbers equal to `n * 10 ^ e`. -/
def scaled (n : Nat) (e : Int) : Nat × Nat :=
  match e with
  | .ofNat e => (n * Nat.pow 10 e, 1)
  | .negSucc e => (n, Nat.pow 10 (e + 1))

/-! ## The reals that round to a number -/

/-- The reals around a number that round to it, as numerators over one denominator: the lower end,
the number itself and the upper end, and whether the ends belong to it. -/
structure Neighbourhood where
  low : Nat
  centre : Nat
  high : Nat
  denominator : Nat
  closed : Bool

/-- The reals that round to `significand * 2 ^ exponent`. They reach half way to the next number
on either side; below a power of two the numbers are twice as dense. An end rounds to the number
with the even significand. -/
def Neighbourhood.of (significand : Nat) (exponent : Int) : Neighbourhood :=
  let dense := significand = Nat.pow 2 52 ∧ -1074 < exponent
  let below := if dense then 1 else 2
  let (factor, denominator) := match exponent with
    | .ofNat e => (Nat.pow 2 e, 4)
    | .negSucc e => (1, 4 * Nat.pow 2 (e + 1))
  { low := (4 * significand - below) * factor
    centre := 4 * significand * factor
    high := (4 * significand + 2) * factor
    denominator := denominator
    closed := significand % 2 == 0 }

/-- Whether a decimal number lies in the neighbourhood. -/
def Neighbourhood.contains (around : Neighbourhood) (d : Decimal) : Bool :=
  let (numerator, denominator) := scaled d.digits d.exponent
  let value := numerator * around.denominator
  let low := around.low * denominator
  let high := around.high * denominator
  if around.closed then low ≤ value && value ≤ high else low < value && value < high

/-! ## The search -/

/-- Which way a number goes that lies half way between two decimals. -/
inductive Tie
  | up
  | even
  deriving DecidableEq, Repr

/-- The number of decimal digits of a positive number `numerator / denominator` before its point,
zero or negative when the first digit stands behind the point. -/
def magnitude (numerator denominator : Nat) : Int :=
  let guess : Int := (Nat.log2 numerator : Int) - Nat.log2 denominator
  -- `guess` is off by at most one from the binary logarithm, so this is at most one too small
  let start := Int.fdiv ((guess - 1) * 30103) 100000
  let reaches (k : Int) : Bool :=
    let (top, bottom) := scaled 1 k
    top * denominator ≤ numerator * bottom
  if reaches (start + 2) then start + 3
  else if reaches (start + 1) then start + 2
  else if reaches start then start + 1
  else start

/-- The neighbours of a number among the multiples of `10 ^ place`, the lower one first, and
whether the upper one is to be preferred. -/
def neighbours (tie : Tie) (around : Neighbourhood) (place : Int) : Nat × Bool :=
  let (top, bottom) := scaled 1 place
  let numerator := around.centre * bottom
  let denominator := around.denominator * top
  let lower := numerator / denominator
  let rest := 2 * (numerator % denominator)
  let up := denominator < rest ∨ (denominator = rest ∧ (tie = .up ∨ lower % 2 = 1))
  (lower, decide up)

/-- The decimal of the neighbourhood on the grid of `10 ^ place`, if there is one. -/
def onGrid? (tie : Tie) (around : Neighbourhood) (place : Int) : Option Decimal :=
  let (lower, up) := neighbours tie around place
  let below : Decimal := ⟨lower, place⟩
  let above : Decimal := ⟨lower + 1, place⟩
  match around.contains below, around.contains above with
  | true, true => some (if up then above else below)
  | true, false => some below
  | false, true => some above
  | false, false => none

/-- Searches the grids with `count`, then one digit more and so on, at most `fuel` of them. -/
def search (tie : Tie) (around : Neighbourhood) (size : Int) : Nat → Nat → Decimal
  | 0, count => ⟨(neighbours tie around (size - count)).1, size - count⟩
  | fuel + 1, count =>
    match onGrid? tie around (size - count) with
    | some d => d
    | none => search tie around size fuel (count + 1)

/-- Takes zeros off the end of the digits, at most `fuel` of them. -/
def trim : Nat → Decimal → Decimal
  | 0, d => d
  | fuel + 1, d =>
    if d.digits ≠ 0 ∧ d.digits % 10 = 0 then trim fuel ⟨d.digits / 10, d.exponent + 1⟩ else d

/-- **The shortest digits** of `significand * 2 ^ exponent`. Seventeen digits tell any two numbers
apart, so the search ends there. -/
def shortest (tie : Tie) (significand : Nat) (exponent : Int) : Decimal :=
  if significand = 0 then ⟨0, 0⟩
  else
    let around := Neighbourhood.of significand exponent
    let size := magnitude around.centre around.denominator
    trim 17 (search tie around size 17 1)

end Decimal

end CriticalSection
