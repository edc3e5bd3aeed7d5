import CriticalSection.Decimal.Numeral

/-!
# JSON values

A JSON value keeps what it was read from: numbers stay numerals, objects keep the order and the
repetitions of their fields. A string can be written that names half of a surrogate pair; such a
string is no text, which matters only to those who look at it.
-/

set_option autoImplicit false

namespace CriticalSection

/-- A JSON value. -/
inductive Json
  | null
  | bool (value : Bool)
  | number (numeral : Numeral)
  /-- A string; it has no content if what is written is no text. -/
  | text (content : Option String)
  | array (items : List Json)
  | object (fields : List (Option String × Json))
  deriving Repr

namespace Json

/-- A string with a content. -/
def ofString (content : String) : Json := .text (some content)

/-- A whole number. -/
def ofInt (n : Int) : Json := .number (.ofInt n)

/-- An object with named fields. -/
def ofFields (fields : List (String × Json)) : Json :=
  .object (fields.map fun (name, value) => (some name, value))

/-! ## Numbers -/

/-- The largest 64-bit word. -/
def lastWord : Nat := UInt64.size - 1

/-- Takes digits into a 64-bit word behind those it holds, as long as they fit: the word and the
digits that are left. -/
def takeDigits (word : Nat) : List Char → Nat × List Char
  | [] => (word, [])
  | c :: rest =>
    let next := word * 10 + (c.toNat - '0'.toNat)
    if next ≤ lastWord then takeDigits next rest else (word, c :: rest)

/-- A power of ten. -/
def powerOfTen (e : Nat) : Float := Float.ofScientific 1 false e

/-- Multiplies by a power of ten, below `10 ^ -308` in several steps; there is no result beyond the
range. Three steps bring every word to zero. -/
def scale : Nat → Float → Int → Option Float
  | steps, x, e =>
    if e = 0 then some x
    else if 0 ≤ e then
      if e ≤ 308 then
        let scaled := x * powerOfTen e.toNat
        if scaled.isInf then none else some scaled
      else if x == 0 then some x else none
    else if -308 ≤ e then some (x / powerOfTen (-e).toNat)
    else match steps with
      | 0 => some 0
      | steps + 1 => scale steps (x / powerOfTen 308) (e + 308)

/-- The largest exponent that is taken as it is written. -/
def lastExponent : Nat := UInt32.size / 2 - 1

/-- **The floating-point value of a number.** The digits that fit a 64-bit word are scaled by one
power of ten; further digits only count for the exponent. A number beyond the range has no
value. -/
def floatOfNumeral? (n : Numeral) : Option Float :=
  let (word, excess) := takeDigits 0 n.whole
  let (word, rest) := takeDigits word n.fraction
  let start : Int := (excess.length : Int) - ((n.fraction.length : Int) - rest.length)
  let magnitude : Option Float := match n.exponent with
    | none => scale 3 (Float.ofNat word) start
    | some (negative, digits) =>
      let exponent := Numeral.digitsValue 0 digits
      if lastExponent < exponent then
        if word = 0 || negative then some 0 else none
      else scale 3 (Float.ofNat word) (if negative then start - exponent else start + exponent)
  magnitude.map fun x => if n.negative then -x else x

/-- The whole number a numeral spells, without point, exponent or a sign before zero. -/
def intOfNumeral? (n : Numeral) : Option Int :=
  if n.fraction.isEmpty && n.exponent.isNone then
    let magnitude := Numeral.digitsValue 0 n.whole
    if n.negative then if magnitude = 0 then none else some (-(magnitude : Int))
    else some magnitude
  else none

/-! ## Looking into values -/

/-- The content of a string. -/
def string? : Json → Option String
  | .text content => content
  | _ => none

/-- A floating-point number. -/
def float? : Json → Option Float
  | .number n => floatOfNumeral? n
  | _ => none

/-- A number from zero to `2 ^ 64 - 1`. -/
def word? : Json → Option UInt64
  | .number n => match intOfNumeral? n with
    | some (.ofNat value) => if value ≤ lastWord then some (UInt64.ofNat value) else none
    | _ => none
  | _ => none

/-- A signed 64-bit number. -/
def int64? : Json → Option Int64
  | .number n => match intOfNumeral? n with
    | some value =>
      if Int64.minValue.toInt ≤ value ∧ value ≤ Int64.maxValue.toInt then
        some (Int64.ofInt value)
      else none
    | none => none
  | _ => none

/-- The items of an array. -/
def items? : Json → Option (List Json)
  | .array items => some items
  | _ => none

/-! ## Records

A record with known fields is written as an object, in which the fields stand in any order among
others, or as an array of the fields in their order. -/

/-- What a record is written as. -/
inductive Content
  | named (fields : List (Option String × Json))
  | listed (items : List Json)

/-- The value of a field that occurs once. -/
def field? (fields : List (Option String × Json)) (name : String) : Option Json :=
  match fields.filter fun (key, _) => key = some name with
  | [(_, value)] => some value
  | _ => none

/-- The values of the known fields of a record: each of them occurs once by name, or they are
listed without any other. -/
def Content.values? (names : List String) : Content → Option (List Json)
  | .named fields => names.mapM (field? fields)
  | .listed items => if items.length = names.length then some items else none

/-- The content of a record. The names in an object have to be texts. -/
def content? : Json → Option Content
  | .object fields => if fields.all (·.1.isSome) then some (.named fields) else none
  | .array items => some (.listed items)
  | _ => none

/-- The values of the known fields of a record. -/
def values? (names : List String) (j : Json) : Option (List Json) :=
  j.content?.bind (·.values? names)

/-- A record of one of several kinds: the kind stands in a field of a given name, or first on the
list. -/
def tagged? (tag : String) (j : Json) : Option (String × Content) :=
  match j.content? with
  | some (.named fields) => match field? fields tag with
    | some (.text (some kind)) => some (kind, .named fields)
    | _ => none
  | some (.listed (.text (some kind) :: rest)) => some (kind, .listed rest)
  | _ => none

/-! ## Messages

A message is read more strictly than a file: everything in it has to be a value, whether anybody
looks at it or not, and it nests at most so many levels. -/

/-- How many levels of arrays and objects a message may have. -/
def maxLevels : Nat := 127

mutual

/-- Whether a value nests at most the given number of levels and all its strings and numbers are
proper ones. -/
def strict (levels : Nat) : Json → Bool
  | .null => true
  | .bool _ => true
  | .number n => (floatOfNumeral? n).isSome
  | .text content => content.isSome
  | .array items => decide (0 < levels) && strictItems (levels - 1) items
  | .object fields => decide (0 < levels) && strictFields (levels - 1) fields

/-- The same for the items of an array. -/
def strictItems (levels : Nat) : List Json → Bool
  | [] => true
  | item :: rest => strict levels item && strictItems levels rest

/-- The same for the fields of an object. -/
def strictFields (levels : Nat) : List (Option String × Json) → Bool
  | [] => true
  | (name, value) :: rest => name.isSome && strict levels value && strictFields levels rest

end

end Json

end CriticalSection
