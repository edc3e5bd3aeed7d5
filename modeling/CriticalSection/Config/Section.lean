import CriticalSection.Toml.Value

/-!
# Sections

A section of a configuration has known fields in a known order. It is written as a table, in which
other keys are left alone, or as an array of its first fields. A date counts as a table without
fields.
-/

set_option autoImplicit false

namespace CriticalSection

/-- What a section is written as. -/
inductive Section
  | named (entries : List (String × Toml))
  | listed (items : List Toml)

namespace Section

/-- The section a value stands for. -/
def ofToml? : Toml → Option Section
  | .table _ entries => some (.named entries)
  | .date => some (.named [])
  | .array items => some (.listed items)
  | .tables elements => some (.listed elements)
  | _ => none

/-- The value of the field with a place and a name, if it is given. -/
def value? (s : Section) (place : Nat) (name : String) : Option Toml :=
  match s with
  | .named entries => Toml.lookup? entries name
  | .listed items => items[place]?

/-- A field of a section: its value, or a default if it is not given. There is no field if its
value is of another kind. -/
def field {α : Type} (s : Section) (place : Nat) (name : String) (ofToml? : Toml → Option α)
    (standard : α) : Option α :=
  match s.value? place name with
  | some value => ofToml? value
  | none => some standard

/-! ## Values of fields -/

/-- A text. -/
def text? : Toml → Option String
  | .string content => some content
  | _ => none

/-- A list of texts. -/
def texts? : Toml → Option (List String)
  | .array items => items.mapM text?
  | .tables elements => elements.mapM text?
  | _ => none

/-- A whole number from zero to a limit. -/
def nat? (limit : Nat) : Toml → Option Nat
  | .integer value =>
    match value.toInt with
    | .ofNat value => if value ≤ limit then some value else none
    | .negSucc _ => none
  | _ => none

/-- A number of 64 bits without a sign. -/
def word? (value : Toml) : Option UInt64 := (nat? (UInt64.size - 1) value).map UInt64.ofNat

/-- A number of 32 bits without a sign. -/
def count? (value : Toml) : Option UInt32 := (nat? (UInt32.size - 1) value).map UInt32.ofNat

/-- A quantity, whole or not. -/
def quantity? : Toml → Option Float
  | .float value => some value
  | .integer value => some (Float.ofInt value.toInt)
  | _ => none

end Section

end CriticalSection
