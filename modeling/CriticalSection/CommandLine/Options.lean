import CriticalSection.Text.Lines

/-!
# Options on a command line

The words of a command line are read from the left. A word that starts with two hyphens names an
option, one with a single hyphen lists the letters of options; the value of an option stands behind
an equals sign, directly behind its letter, or is the next word.
-/

set_option autoImplicit false

namespace CriticalSection.CommandLine

/-- What an option takes. -/
inductive Arity
  /-- Nothing, and it can be given once. -/
  | flag
  /-- A value, and it can be given once. -/
  | single
  /-- A value, and it can be given any number of times. -/
  | many
  deriving DecidableEq, Repr

/-- An option. -/
structure Rule where
  name : String
  letter : Option Char
  arity : Arity
  /-- Whether the next word is its value whatever it looks like. -/
  anyValue : Bool
  deriving DecidableEq, Repr

namespace Rule

/-- An option without a value. -/
def flag (name : String) (letter : Option Char) : Rule := ⟨name, letter, .flag, false⟩

/-- An option with a value. -/
def single (name : String) (letter : Option Char) : Rule := ⟨name, letter, .single, false⟩

/-- An option that can be given again. -/
def many (name : String) : Rule := ⟨name, none, .many, false⟩

end Rule

/-- The options that were given, in order, with their values. -/
abbrev Given := List (String × String)

/-- Why reading stopped before the last word. -/
inductive Stop
  /-- The words break a rule. -/
  | refused
  | asksHelp
  | asksVersion
  deriving DecidableEq, Repr

/-- The outcome of reading words. -/
abbrev Reading (α : Type) := Except Stop α

/-- The option that asks for help. -/
def help : Rule := .flag "help" (some 'h')

/-- The option that asks for the version. -/
def version : Rule := .flag "version" (some 'V')

/-- Gives an option a value. -/
def give (given : Given) (rule : Rule) (value : String) : Reading Given :=
  if rule = help then .error .asksHelp
  else if rule = version then .error .asksVersion
  else if rule.arity ≠ .many && given.any (fun (name, _) => name = rule.name) then
    .error .refused
  else .ok (given ++ [(rule.name, value)])

/-- Splits a text at its first equals sign. -/
def splitEquals (text : List Char) : List Char × Option (List Char) :=
  (text.takeWhile (· ≠ '='), (text.dropWhile (· ≠ '=')).tail?)

/-- Reads the letters of a word with one hyphen. The last option is left over if its value is still
to come. -/
def readLetters (rules : List Rule) : List Char → Given → Reading (Given × Option Rule)
  | [], given => .ok (given, none)
  | c :: rest, given =>
    match rules.find? fun rule => rule.letter = some c with
    | none => .error .refused
    | some rule =>
      if rule.arity = .flag then do readLetters rules rest (← give given rule "")
      else if rest.isEmpty then .ok (given, some rule)
      else
        let value := if rest.head? = some '=' then rest.tail else rest
        do return (← give given rule (String.ofList value), none)

/-- Reads a word with two hyphens. -/
def readName (rules : List Rule) (word : List Char) (given : Given) :
    Reading (Given × Option Rule) :=
  let (name, value) := splitEquals word
  match rules.find? fun rule => rule.name.toList = name with
  | none => .error .refused
  | some rule =>
    match rule.arity, value with
    | .flag, none => do return (← give given rule "", none)
    | .flag, some _ => .error .refused
    | _, some value => do return (← give given rule (String.ofList value), none)
    | _, none => .ok (given, some rule)

/-- What a word looks like. -/
inductive Form
  /-- Two hyphens alone, behind which there are no options. -/
  | close
  | name (text : List Char)
  | letters (text : List Char)
  | plain
  deriving DecidableEq, Repr

/-- The form of a word. -/
def Form.of : List Char → Form
  | ['-', '-'] => .close
  | '-' :: '-' :: text => .name text
  | ['-'] => .plain
  | '-' :: text => .letters text
  | _ => .plain

/-- **Reads words up to the first that is no option**, which is returned with those behind it. An
option whose value is still to come takes the next word, unless that looks like an option. -/
def read (rules : List Rule) :
    Option Rule → List String → Given → Reading (Given × List String)
  | none, [], given => .ok (given, [])
  | some _, [], _ => .error .refused
  | some rule, word :: rest, given =>
    if rule.anyValue || Form.of word.toList = .plain then do
      read rules none rest (← give given rule word)
    else .error .refused
  | none, word :: rest, given =>
    match Form.of word.toList with
    | .close => if rest.isEmpty then .ok (given, []) else .error .refused
    | .name text => do
      let (given, pending) ← readName rules text given
      read rules pending rest given
    | .letters text => do
      let (given, pending) ← readLetters rules text given
      read rules pending rest given
    | .plain => .ok (given, word :: rest)

end CriticalSection.CommandLine
