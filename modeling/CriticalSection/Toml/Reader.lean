import CriticalSection.Toml.Value
import CriticalSection.Toml.Lexer

/-!
# Reading TOML

A document is read line by line. A line is blank, states a table, or sets a key in the table stated
last. Values between brackets and braces nest at most so many levels.
-/

set_option autoImplicit false

namespace CriticalSection.Toml

/-- How many levels of brackets and braces a value may have. -/
def maxLevels : Nat := 79

/-- Reads a value that is no array and no table. -/
def readScalar? (input : List Char) : Option (Toml × List Char) :=
  match input with
  | 't' :: 'r' :: 'u' :: 'e' :: rest => some (.boolean true, rest)
  | 'f' :: 'a' :: 'l' :: 's' :: 'e' :: rest => some (.boolean false, rest)
  | c :: _ =>
    if c = '"' || c = '\'' then
      (readString? input).map fun (content, rest) => (.string content, rest)
    else match date? input with
      | some rest => some (.date, rest)
      | none =>
        (readNumber? input).map fun (number, rest) =>
          match number with
          | .whole value => (.integer value, rest)
          | .float value => (.float value, rest)
  | [] => none

mutual

/-- Reads a value, in at most so many steps and levels. -/
def readValue? : Nat → Nat → List Char → Option (Toml × List Char)
  | 0, _, _ => none
  | steps + 1, levels, '[' :: rest =>
    match levels with
    | 0 => none
    | levels + 1 => (readItems? steps levels rest).map fun (items, rest) => (.array items, rest)
  | steps + 1, levels, '\x7b' :: rest =>
    match levels with
    | 0 => none
    | levels + 1 =>
      match skip rest with
      | '\x7d' :: rest => some (.table .enclosed [], rest)
      | rest => readEntries? steps levels (.table .enclosed []) rest
  | _ + 1, _, input => readScalar? input

/-- Reads the items of an array up to its closing bracket. Between them there may be comments and
line ends, and behind the last one a comma. -/
def readItems? : Nat → Nat → List Char → Option (List Toml × List Char)
  | 0, _, _ => none
  | steps + 1, levels, input =>
    match skipLines input.length input with
    | ']' :: rest => some ([], rest)
    | rest => do
      let (item, rest) ← readValue? steps levels rest
      match skipLines rest.length rest with
      | ',' :: rest =>
        let (items, rest) ← readItems? steps levels rest
        return (item :: items, rest)
      | ']' :: rest => return ([item], rest)
      | _ => none

/-- Reads the entries of a table between braces up to its closing brace, and sets them in the
table. -/
def readEntries? : Nat → Nat → Toml → List Char → Option (Toml × List Char)
  | 0, _, _, _ => none
  | steps + 1, levels, entries, input => do
    let ((path, name), rest) ← readKey? input
    let rest ← take? '=' rest
    let (value, rest) ← readValue? steps levels (skip rest)
    let entries ← setKey path name value entries
    match skip rest with
    | ',' :: rest => readEntries? steps levels entries rest
    | '\x7d' :: rest => return (entries, rest)
    | _ => none

end

/-- What has been read of a document: its table, and the names of the table stated last. -/
structure Progress where
  root : Toml
  header : List String

/-- Reads a header behind its first bracket. -/
def readHeader? (progress : Progress) (input : List Char) : Option (Progress × List Char) :=
  match input with
  | '[' :: rest => do
    let ((path, name), rest) ← readKey? rest
    let rest ← take? ']' rest
    let rest ← take? ']' rest
    let root ← addTable path name progress.root
    return (⟨root, path ++ [name]⟩, rest)
  | _ => do
    let ((path, name), rest) ← readKey? input
    let rest ← take? ']' rest
    let root ← stateTable path name progress.root
    return (⟨root, path ++ [name]⟩, rest)

/-- Reads a key and its value. -/
def readSetting? (progress : Progress) (input : List Char) : Option (Progress × List Char) := do
  let ((path, name), rest) ← readKey? input
  let rest ← take? '=' rest
  let rest := skip rest
  let (value, rest) ← readValue? (2 * rest.length + 2) maxLevels rest
  let root ← setBelow progress.header path name value progress.root
  return (⟨root, progress.header⟩, rest)

/-- Reads the lines of a document, at most so many. -/
def readLines? : Nat → Progress → List Char → Option Progress
  | 0, _, _ => none
  | steps + 1, progress, input =>
    match skip input with
    | [] => some progress
    | c :: rest =>
      if c = '\n' || c = '\r' then do
        let rest ← newline? (c :: rest)
        readLines? steps progress rest
      else if c = '#' then do
        let rest ← lineEnd? (c :: rest)
        readLines? steps progress rest
      else do
        let (progress, rest) ←
          if c = '[' then readHeader? progress rest else readSetting? progress (c :: rest)
        let rest ← lineEnd? rest
        readLines? steps progress rest

/-- **Reads a document.** A mark of the byte order in front of it is left out. -/
def read? (text : String) : Option Toml :=
  let input := match text.toList with
    | '\uFEFF' :: rest => rest
    | input => input
  (readLines? (input.length + 1) ⟨.table .stated [], []⟩ input).map (·.root)

end CriticalSection.Toml
