import CriticalSection.Decimal.Digits
import CriticalSection.Json.Value

/-!
# Reading JSON

A reader takes a value off the front of a text and returns the rest. Blanks between the parts of a
value are spaces, tabs, line feeds and carriage returns. Values nest as deep as the text goes: the
number of steps is bounded by its length.
-/

set_option autoImplicit false

namespace CriticalSection

namespace Json

open Decimal (someDigits? readExponent?)

/-- Whether a character may stand between the parts of a value. -/
def isSpace (c : Char) : Bool := c = ' ' || c = '\t' || c = '\n' || c = '\r'

/-- Leaves out what stands between the parts of a value. -/
def skip (text : List Char) : List Char := text.dropWhile isSpace

/-! ## Strings -/

/-- The value of a hexadecimal digit. -/
def hexValue? (c : Char) : Option Nat :=
  if '0' ≤ c ∧ c ≤ '9' then some (c.toNat - '0'.toNat)
  else if 'a' ≤ c ∧ c ≤ 'f' then some (c.toNat - 'a'.toNat + 10)
  else if 'A' ≤ c ∧ c ≤ 'F' then some (c.toNat - 'A'.toNat + 10)
  else none

/-- Reads four hexadecimal digits. -/
def readUnit? : List Char → Option (Nat × List Char)
  | a :: b :: c :: d :: rest => do
    let a ← hexValue? a
    let b ← hexValue? b
    let c ← hexValue? c
    let d ← hexValue? d
    return (((a * 16 + b) * 16 + c) * 16 + d, rest)
  | _ => none

/-- The character a backslash and a letter stand for. -/
def shortEscape? (c : Char) : Option Char :=
  if c = '"' then some '"'
  else if c = '\\' then some '\\'
  else if c = '/' then some '/'
  else if c = 'b' then some '\x08'
  else if c = 'f' then some '\x0c'
  else if c = 'n' then some '\n'
  else if c = 'r' then some '\r'
  else if c = 't' then some '\t'
  else none

/-- What a string is made of: characters, and units given by their numbers. -/
inductive Piece
  | char (c : Char)
  | unit (value : Nat)
  deriving DecidableEq, Repr

/-- Reads the pieces of a string up to its closing quote. -/
def readPieces? : List Char → Option (List Piece × List Char)
  | [] => none
  | '"' :: rest => some ([], rest)
  | '\\' :: 'u' :: a :: b :: c :: d :: rest => do
    let (value, _) ← readUnit? [a, b, c, d]
    let (pieces, rest) ← readPieces? rest
    return (.unit value :: pieces, rest)
  | '\\' :: c :: rest => do
    let escaped ← shortEscape? c
    let (pieces, rest) ← readPieces? rest
    return (.char escaped :: pieces, rest)
  | c :: rest =>
    if c.toNat < 0x20 || c = '\\' then none
    else do
      let (pieces, rest) ← readPieces? rest
      return (.char c :: pieces, rest)

/-- The text some pieces make. A unit from `D800` to `DBFF` and one from `DC00` to `DFFF` directly
behind it make one character; neither makes one without the other. -/
def textOfPieces? : List Piece → Option (List Char)
  | [] => some []
  | .char c :: rest => (textOfPieces? rest).map (c :: ·)
  | .unit high :: .unit low :: rest =>
    if 0xD800 ≤ high ∧ high < 0xDC00 then
      if 0xDC00 ≤ low ∧ low < 0xE000 then
        let code := 0x10000 + (high - 0xD800) * 0x400 + (low - 0xDC00)
        (textOfPieces? rest).map (Char.ofNat code :: ·)
      else none
    else if 0xDC00 ≤ high ∧ high < 0xE000 then none
    else (textOfPieces? (.unit low :: rest)).map (Char.ofNat high :: ·)
  | .unit value :: rest =>
    if 0xD800 ≤ value ∧ value < 0xE000 then none
    else (textOfPieces? rest).map (Char.ofNat value :: ·)

/-- Reads a string behind its opening quote. -/
def readString? (text : List Char) : Option (Option String × List Char) :=
  (readPieces? text).map fun (pieces, rest) => ((textOfPieces? pieces).map String.ofList, rest)

/-! ## Numbers -/

/-- Reads a number. Before the point there are no zeros in front of other digits. -/
def readNumeral? (input : List Char) : Option (Numeral × List Char) := do
  let (negative, rest) := match input with
    | '-' :: rest => (true, rest)
    | rest => (false, rest)
  let (whole, rest) ← someDigits? rest
  if whole.head? = some '0' ∧ whole.length ≠ 1 then none
  let (fraction, rest) ← match rest with
    | '.' :: rest => someDigits? rest
    | rest => some ([], rest)
  let (exponent, rest) ← readExponent? someDigits? rest
  return (⟨negative, whole, fraction, exponent⟩, rest)

/-! ## Values -/

mutual

/-- Reads a value, in at most so many steps. -/
def readValue? : Nat → List Char → Option (Json × List Char)
  | 0, _ => none
  | steps + 1, input =>
    match skip input with
    | 'n' :: 'u' :: 'l' :: 'l' :: rest => some (.null, rest)
    | 't' :: 'r' :: 'u' :: 'e' :: rest => some (.bool true, rest)
    | 'f' :: 'a' :: 'l' :: 's' :: 'e' :: rest => some (.bool false, rest)
    | '"' :: rest => (readString? rest).map fun (content, rest) => (.text content, rest)
    | '[' :: rest =>
      match skip rest with
      | ']' :: rest => some (.array [], rest)
      | rest => (readItems? steps rest).map fun (items, rest) => (.array items, rest)
    | '\x7b' :: rest =>
      match skip rest with
      | '\x7d' :: rest => some (.object [], rest)
      | rest => (readFields? steps rest).map fun (fields, rest) => (.object fields, rest)
    | rest => (readNumeral? rest).map fun (numeral, rest) => (.number numeral, rest)

/-- Reads the items of an array up to its closing bracket. -/
def readItems? : Nat → List Char → Option (List Json × List Char)
  | 0, _ => none
  | steps + 1, input => do
    let (item, rest) ← readValue? steps input
    match skip rest with
    | ',' :: rest =>
      let (items, rest) ← readItems? steps rest
      return (item :: items, rest)
    | ']' :: rest => return ([item], rest)
    | _ => none

/-- Reads the fields of an object up to its closing brace. -/
def readFields? : Nat → List Char → Option (List (Option String × Json) × List Char)
  | 0, _ => none
  | steps + 1, input =>
    match skip input with
    | '"' :: rest => do
      let (name, rest) ← readString? rest
      match skip rest with
      | ':' :: rest =>
        let (value, rest) ← readValue? steps rest
        match skip rest with
        | ',' :: rest =>
          let (fields, rest) ← readFields? steps rest
          return ((name, value) :: fields, rest)
        | '\x7d' :: rest => return ([(name, value)], rest)
        | _ => none
      | _ => none
    | _ => none

end

/-- **Reads a whole text as a value.** -/
def read? (text : List Char) : Option Json :=
  match readValue? (2 * text.length + 2) text with
  | some (value, rest) => if (skip rest).isEmpty then some value else none
  | none => none

end Json

end CriticalSection
