/-!
# Binary floating-point numbers, taken apart

A 64-bit floating-point number is no number at all, an infinity, or a sign with a whole
significand and a power of two. Everything that is read off such a number exactly, its floor and
its decimal digits, is computed from these parts with whole numbers.
-/

set_option autoImplicit false

namespace CriticalSection

/-- The parts of a floating-point number; `finite s m e` stands for `m * 2 ^ e` with the sign
`s`, negative when it is set. -/
inductive Binary64
  | nan
  | infinite (negative : Bool)
  | finite (negative : Bool) (significand : Nat) (exponent : Int)
  deriving DecidableEq, Repr

namespace Binary64

/-- The parts of the number a 64-bit word stands for: a sign bit, eleven bits of exponent and 52
bits of fraction. The smallest exponent leaves the leading bit of the significand out. -/
def ofBits (word : Nat) : Binary64 :=
  let negative := word / Nat.pow 2 63 % 2 == 1
  let field : Nat := word / Nat.pow 2 52 % Nat.pow 2 11
  let fraction : Nat := word % Nat.pow 2 52
  if field = 2047 then if fraction = 0 then .infinite negative else .nan
  else if field = 0 then .finite negative fraction (-1074)
  else .finite negative (Nat.pow 2 52 + fraction) ((field : Int) - 1075)

/-- The parts of a floating-point number. -/
def ofFloat (x : Float) : Binary64 := ofBits x.toBits.toNat

/-- The largest whole number not above the number with the given parts. -/
def floor (negative : Bool) (significand : Nat) (exponent : Int) : Int :=
  let numerator : Int := if negative then -(significand : Int) else significand
  match exponent with
  | .ofNat e => numerator * Nat.pow 2 e
  | .negSucc e => Int.fdiv numerator (Nat.pow 2 (e + 1))

end Binary64

end CriticalSection
