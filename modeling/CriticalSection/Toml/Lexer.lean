import CriticalSection.Decimal.Digits
import CriticalSection.Decimal.Numeral

/-!
# The words of TOML

Blanks, comments, keys, strings, numbers and dates. Each is read off the front of a text; what is
given is the value and the text behind it.
-/

set_option autoImplicit false

namespace CriticalSection.Toml

/-! ## Between the words -/

/-- Whether a character is a space or a tab. -/
def isSpace (c : Char) : Bool := c = ' ' || c = '\t'

/-- Leaves out spaces and tabs. -/
def skip (input : List Char) : List Char := input.dropWhile isSpace

/-- Whether a character may stand in a comment or a string on one line: no control character but
the tab. -/
def isPrintable (c : Char) : Bool := c = '\t' || (0x20 ≤ c.toNat && c.toNat ≠ 0x7F)

/-- Leaves out a comment, if there is one. -/
def skipComment : List Char → List Char
  | '#' :: rest => rest.dropWhile isPrintable
  | input => input

/-- Takes the end of a line. -/
def newline? : List Char → Option (List Char)
  | '\n' :: rest => some rest
  | '\r' :: '\n' :: rest => some rest
  | _ => none

/-- Takes what may follow on a line, up to its end or that of the text. -/
def lineEnd? (input : List Char) : Option (List Char) :=
  match skipComment (skip input) with
  | [] => some []
  | rest => newline? rest

/-- Leaves out spaces, comments and line ends, at most so many of them. -/
def skipLines : Nat → List Char → List Char
  | 0, input => input
  | steps + 1, input =>
    let rest := skipComment (skip input)
    match newline? rest with
    | some rest => skipLines steps rest
    | none => rest

/-! ## Strings -/

/-- Reads a number of hexadecimal digits, behind those with the given value. -/
def readHex? : Nat → Nat → List Char → Option (Nat × List Char)
  | 0, value, input => some (value, input)
  | count + 1, value, c :: rest =>
    if '0' ≤ c ∧ c ≤ '9' then readHex? count (value * 16 + (c.toNat - '0'.toNat)) rest
    else if 'a' ≤ c ∧ c ≤ 'f' then readHex? count (value * 16 + (c.toNat - 'a'.toNat + 10)) rest
    else if 'A' ≤ c ∧ c ≤ 'F' then readHex? count (value * 16 + (c.toNat - 'A'.toNat + 10)) rest
    else none
  | _, _, [] => none

/-- Reads the number of a character. -/
def readCode? (digits : Nat) (input : List Char) : Option (Char × List Char) :=
  match readHex? digits 0 input with
  | some (value, rest) =>
    if value.isValidChar then some (Char.ofNat value, rest) else none
  | none => none

/-- Reads what stands behind a backslash. -/
def readEscape? : List Char → Option (Char × List Char)
  | 'b' :: rest => some ('\x08', rest)
  | 'f' :: rest => some ('\x0c', rest)
  | 'n' :: rest => some ('\n', rest)
  | 'r' :: rest => some ('\r', rest)
  | 't' :: rest => some ('\t', rest)
  | '"' :: rest => some ('"', rest)
  | '\\' :: rest => some ('\\', rest)
  | 'u' :: rest => readCode? 4 rest
  | 'U' :: rest => readCode? 8 rest
  | _ => none

/-- Reads a string behind its opening quote, in at most so many steps. -/
def readBasic? : Nat → List Char → Option (List Char × List Char)
  | 0, _ => none
  | _, [] => none
  | steps + 1, c :: rest =>
    if c = '"' then some ([], rest)
    else if c = '\\' then do
      let (escaped, rest) ← readEscape? rest
      let (content, rest) ← readBasic? steps rest
      return (escaped :: content, rest)
    else if isPrintable c then do
      let (content, rest) ← readBasic? steps rest
      return (c :: content, rest)
    else none

/-- Reads a string between single quotes behind its opening quote. -/
def readLiteral? : List Char → Option (List Char × List Char)
  | [] => none
  | c :: rest =>
    if c = '\'' then some ([], rest)
    else if isPrintable c then do
      let (content, rest) ← readLiteral? rest
      return (c :: content, rest)
    else none

/-- Leaves out spaces and line ends behind a backslash at the end of a line. -/
def skipBreak : Nat → List Char → List Char
  | 0, input => input
  | steps + 1, input =>
    let rest := skip input
    match newline? rest with
    | some rest => skipBreak steps rest
    | none => rest

/-- The number of quotes at the front of a text. -/
def quotes (quote : Char) (input : List Char) : Nat := (input.takeWhile (· = quote)).length

/-- Reads a string over several lines behind its three opening quotes, in at most so many steps.
One or two quotes may stand anywhere, also directly before the three closing ones. Between double
quotes a backslash starts an escape, or leaves out the end of its line and the blanks behind. -/
def readLong? (quote : Char) (escapes : Bool) : Nat → List Char → Option (List Char × List Char)
  | 0, _ => none
  | _, [] => none
  | steps + 1, c :: rest =>
    if c = quote then
      let count := quotes quote (c :: rest)
      if 3 ≤ count then
        let inside := min (count - 3) 2
        some (List.replicate inside quote, (c :: rest).drop (inside + 3))
      else do
        let (content, rest) ← readLong? quote escapes steps rest
        return (quote :: content, rest)
    else if c = '\\' ∧ escapes then
      match newline? (skip rest) with
      | some rest => readLong? quote escapes steps (skipBreak rest.length rest)
      | none => do
        let (escaped, rest) ← readEscape? rest
        let (content, rest) ← readLong? quote escapes steps rest
        return (escaped :: content, rest)
    else match newline? (c :: rest) with
      | some rest => do
        let (content, rest) ← readLong? quote escapes steps rest
        return ('\n' :: content, rest)
      | none =>
        if isPrintable c then do
          let (content, rest) ← readLong? quote escapes steps rest
          return (c :: content, rest)
        else none

/-- Leaves out a line end directly behind the opening quotes. -/
def skipFirstBreak (input : List Char) : List Char := (newline? input).getD input

/-- Reads a string of any form. -/
def readString? (input : List Char) : Option (String × List Char) :=
  let content : Option (List Char × List Char) := match input with
    | '"' :: '"' :: '"' :: rest => readLong? '"' true (rest.length + 1) (skipFirstBreak rest)
    | '\'' :: '\'' :: '\'' :: rest => readLong? '\'' false (rest.length + 1) (skipFirstBreak rest)
    | '"' :: rest => readBasic? (rest.length + 1) rest
    | '\'' :: rest => readLiteral? rest
    | _ => none
  content.map fun (content, rest) => (String.ofList content, rest)

/-! ## Keys -/

/-- Whether a character may stand in a key without quotes. -/
def isKeyChar (c : Char) : Bool := c.isAlphanum || c = '-' || c = '_'

/-- Reads one part of a key. -/
def readPart? (input : List Char) : Option (String × List Char) :=
  match input with
  | '"' :: rest =>
    (readBasic? (rest.length + 1) rest).map fun (content, rest) => (String.ofList content, rest)
  | '\'' :: rest => (readLiteral? rest).map fun (content, rest) => (String.ofList content, rest)
  | _ =>
    let part := input.takeWhile isKeyChar
    if part.isEmpty then none else some (String.ofList part, input.dropWhile isKeyChar)

/-- The most parts a key may have. -/
def maxParts : Nat := 79

/-- Reads the parts of a key with points between them, at most so many. -/
def readParts? : Nat → List Char → Option (List String × List Char)
  | 0, _ => none
  | count + 1, input => do
    let (part, rest) ← readPart? (skip input)
    match skip rest with
    | '.' :: rest =>
      let (parts, rest) ← readParts? count rest
      return (part :: parts, rest)
    | rest => return ([part], rest)

/-- Reads a key: the names on the way, and its last name. -/
def readKey? (input : List Char) : Option ((List String × String) × List Char) := do
  let (parts, rest) ← readParts? maxParts input
  let last ← parts.getLast?
  return ((parts.dropLast, last), rest)

/-! ## Numbers -/

/-- Reads digits of a kind behind a first one, in which single underscores may stand between two
digits. -/
def readMoreDigits? (isDigit : Char → Bool) : List Char → Option (List Char × List Char)
  | [] => some ([], [])
  | '_' :: c :: rest =>
    if isDigit c then (readMoreDigits? isDigit rest).map fun (digits, rest) => (c :: digits, rest)
    else none
  | c :: rest =>
    if c = '_' then none
    else if isDigit c then
      (readMoreDigits? isDigit rest).map fun (digits, rest) => (c :: digits, rest)
    else some ([], c :: rest)

/-- Reads at least one digit of a kind. -/
def readDigits? (isDigit : Char → Bool) : List Char → Option (List Char × List Char)
  | [] => none
  | c :: rest =>
    if isDigit c then (readMoreDigits? isDigit rest).map fun (digits, rest) => (c :: digits, rest)
    else none

/-- Reads the digits before a point: a zero, or digits that do not start with one. -/
def readWhole? : List Char → Option (List Char × List Char)
  | '0' :: rest => some (['0'], rest)
  | input => readDigits? Char.isDigit input

/-- Reads a point and digits, if there is a point. -/
def readFraction? : List Char → Option (List Char × List Char)
  | '.' :: rest => readDigits? Char.isDigit rest
  | input => some ([], input)

/-- The value of digits in a base. -/
def valueInBase (base : Nat) (digits : List Char) : Nat :=
  digits.foldl (fun value c =>
    value * base +
      (if c.isDigit then c.toNat - '0'.toNat else c.toLower.toNat - 'a'.toNat + 10)) 0

/-- Whether a character is a hexadecimal digit. -/
def isHexDigit (c : Char) : Bool :=
  c.isDigit || ('a' ≤ c && c ≤ 'f') || ('A' ≤ c && c ≤ 'F')

/-- A number: whole or not. -/
inductive Number
  | whole (value : Int64)
  | float (value : Float)

/-- The 64-bit number with a value. -/
def wholeNumber? (value : Int) : Option Number :=
  if Int64.minValue.toInt ≤ value ∧ value ≤ Int64.maxValue.toInt then
    some (.whole (Int64.ofInt value))
  else none

/-- Reads a whole number in another base behind its mark. -/
def readInBase? (base : Nat) (isDigit : Char → Bool) (input : List Char) :
    Option (Number × List Char) := do
  let (digits, rest) ← readDigits? isDigit input
  let number ← wholeNumber? (valueInBase base digits)
  return (number, rest)

/-- The floating-point number of a numeral, unless it is too large. -/
def floatNumber? (numeral : Numeral) : Option Number :=
  let value := numeral.toFloat
  if value.isInf && !numeral.negative then none else some (.float value)

/-- Reads a number in base ten behind its sign. -/
def readDecimal? (negative : Bool) (input : List Char) : Option (Number × List Char) :=
  match input with
  | 'i' :: 'n' :: 'f' :: rest =>
    some (.float (if negative then -1.0 / 0.0 else 1.0 / 0.0), rest)
  | 'n' :: 'a' :: 'n' :: rest => some (.float (0.0 / 0.0), rest)
  | _ => do
    let (whole, rest) ← readWhole? input
    let (fraction, rest) ← readFraction? rest
    let (power, rest) ← Decimal.readExponent? (readDigits? Char.isDigit) rest
    if fraction.isEmpty ∧ power.isNone then
      let magnitude : Int := Numeral.digitsValue 0 whole
      let number ← wholeNumber? (if negative then -magnitude else magnitude)
      return (number, rest)
    else
      let number ← floatNumber? ⟨negative, whole, fraction, power⟩
      return (number, rest)

/-- **Reads a number.** -/
def readNumber? (input : List Char) : Option (Number × List Char) :=
  match input with
  | '0' :: 'x' :: rest => readInBase? 16 isHexDigit rest
  | '0' :: 'o' :: rest => readInBase? 8 (fun c => '0' ≤ c && c ≤ '7') rest
  | '0' :: 'b' :: rest => readInBase? 2 (fun c => c = '0' || c = '1') rest
  | '+' :: rest => readDecimal? false rest
  | '-' :: rest => readDecimal? true rest
  | _ => readDecimal? false input

/-! ## Dates -/

/-- Reads a number of exactly so many digits, behind those with the given value. -/
def readFixed? : Nat → Nat → List Char → Option (Nat × List Char)
  | 0, value, input => some (value, input)
  | count + 1, value, c :: rest =>
    if c.isDigit then readFixed? count (value * 10 + (c.toNat - '0'.toNat)) rest else none
  | _, _, [] => none

/-- Reads two digits with a value between two bounds. -/
def readPair? (least greatest : Nat) (input : List Char) : Option (Nat × List Char) :=
  match readFixed? 2 0 input with
  | some (value, rest) => if least ≤ value ∧ value ≤ greatest then some (value, rest) else none
  | none => none

/-- Takes a character. -/
def take? (c : Char) : List Char → Option (List Char)
  | d :: rest => if c = d then some rest else none
  | [] => none

/-- The number of days in a month. -/
def daysIn (year month : Nat) : Nat :=
  if month = 2 then
    if year % 4 = 0 ∧ (year % 100 ≠ 0 ∨ year % 400 = 0) then 29 else 28
  else if month = 4 ∨ month = 6 ∨ month = 9 ∨ month = 11 then 30
  else 31

/-- Takes the day of a date. -/
def day? (input : List Char) : Option (List Char) := do
  let (year, rest) ← readFixed? 4 0 input
  let rest ← take? '-' rest
  let (month, rest) ← readPair? 1 12 rest
  let rest ← take? '-' rest
  let (day, rest) ← readPair? 1 31 rest
  if day ≤ daysIn year month then some rest else none

/-- Takes the fraction of a second, if there is one. -/
def secondFraction (input : List Char) : List Char :=
  match input with
  | '.' :: rest =>
    let digits := rest.takeWhile Char.isDigit
    if digits.isEmpty then input else rest.dropWhile Char.isDigit
  | _ => input

/-- Takes the time of a date. -/
def timeOfDay? (input : List Char) : Option (List Char) := do
  let (_, rest) ← readPair? 0 23 input
  let rest ← take? ':' rest
  let (_, rest) ← readPair? 0 59 rest
  let rest ← take? ':' rest
  let (_, rest) ← readPair? 0 60 rest
  return secondFraction rest

/-- Takes the time zone of a date, if there is one. -/
def zone? (input : List Char) : Option (List Char) :=
  match input with
  | [] => some []
  | c :: rest =>
    if c = 'Z' || c = 'z' then some rest
    else if c = '+' || c = '-' then do
      let (_, rest) ← readPair? 0 23 rest
      let rest ← take? ':' rest
      let (_, rest) ← readPair? 0 59 rest
      return rest
    else some input

/-- **Takes a date**: a day, a time, or a day with a time and perhaps a time zone. -/
def date? (input : List Char) : Option (List Char) :=
  match day? input with
  | some rest =>
    match rest with
    | c :: time =>
      if c = 'T' || c = 't' || c = ' ' then
        match timeOfDay? time with
        | some rest => zone? rest
        | none => some rest
      else some rest
    | [] => some []
  | none => timeOfDay? input

end CriticalSection.Toml
