/-!
# Reading whole numbers

A whole number is a run of the digits `0` to `9` behind an optional sign. It is read from the left
into a word, and the first character at which something is wrong decides what: a character that is
no digit, or a digit with which the value leaves the word.
-/

set_option autoImplicit false

namespace CriticalSection.Text

/-- What can be wrong with a whole number. -/
inductive IntegerDefect
  | invalidDigit
  | tooLarge
  | tooSmall
  deriving DecidableEq, Repr

/-- The text of a defect. -/
def IntegerDefect.message : IntegerDefect → String
  | .invalidDigit => "invalid digit found in string"
  | .tooLarge => "number too large to fit in target type"
  | .tooSmall => "number too small to fit in target type"

/-- Reads digits behind those with the given value; no value may exceed the limit. -/
def readDigits (limit : Nat) (excess : IntegerDefect) (value : Nat) :
    List Char → Except IntegerDefect Nat
  | [] => .ok value
  | c :: rest =>
    if c.isDigit then
      let value := value * 10 + (c.toNat - '0'.toNat)
      if limit < value then .error excess else readDigits limit excess value rest
    else .error .invalidDigit

/-- Reads a number from at least one digit. -/
def readMagnitude (limit : Nat) (excess : IntegerDefect) (digits : List Char) :
    Except IntegerDefect Nat :=
  if digits.isEmpty then .error .invalidDigit else readDigits limit excess 0 digits

/-- **Reads a signed 64-bit number**, with an optional sign. -/
def readInt64 : List Char → Except IntegerDefect Int64
  | '-' :: digits =>
    (readMagnitude (UInt64.size / 2) .tooSmall digits).map fun value => Int64.ofInt (-(value : Int))
  | '+' :: digits => (readMagnitude (UInt64.size / 2 - 1) .tooLarge digits).map Int64.ofNat
  | digits => (readMagnitude (UInt64.size / 2 - 1) .tooLarge digits).map Int64.ofNat

/-- **Reads a number from zero to a limit**, with an optional plus sign. -/
def readNat (limit : Nat) : List Char → Except IntegerDefect Nat
  | '+' :: digits => readMagnitude limit .tooLarge digits
  | digits => readMagnitude limit .tooLarge digits

end CriticalSection.Text
