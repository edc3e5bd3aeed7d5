import CriticalSection.Error

/-!
# TOML documents

A document is a table. Tables remember how they came about, because that decides whether a later
line may add to them: a table that was stated by a header or written inline is complete, one that
only lies on the way to another can still be stated, and one that was opened by a dotted key can be
extended by further dotted keys.
-/

set_option autoImplicit false

namespace CriticalSection

/-- How a table came about. -/
inductive TableOrigin
  /-- By a header of its own. -/
  | stated
  /-- By the header of a table below it. -/
  | implied
  /-- By a dotted key. -/
  | dotted
  /-- Between braces. -/
  | enclosed
  deriving DecidableEq, Repr

/-- A TOML value. Of a date only that it is one is kept. -/
inductive Toml
  | string (content : String)
  | integer (value : Int64)
  | float (value : Float)
  | boolean (value : Bool)
  | date
  | array (items : List Toml)
  | table (origin : TableOrigin) (entries : List (String × Toml))
  /-- The tables stated by headers in double brackets. -/
  | tables (elements : List Toml)

namespace Toml

/-- The entry with a name. -/
def lookup? (entries : List (String × Toml)) (name : String) : Option Toml :=
  (entries.find? fun (other, _) => other = name).map (·.2)

/-- The entries with another value for a name. -/
def withEntry (entries : List (String × Toml)) (name : String) (value : Toml) :
    List (String × Toml) :=
  if (lookup? entries name).isSome then
    entries.map fun (other, old) => if other = name then (name, value) else (other, old)
  else entries ++ [(name, value)]

/-- What leads from a table to another one. -/
inductive Route
  /-- The name in a header. -/
  | header
  /-- A dotted key. -/
  | key
  deriving DecidableEq, Repr

/-- The origin of a table that a route leads to for the first time. -/
def Route.origin : Route → TableOrigin
  | .header => .implied
  | .key => .dotted

/-- Whether a route leads into a table. -/
def Route.enters : Route → TableOrigin → Bool
  | _, .enclosed => false
  | .header, _ => true
  | .key, origin => origin = .implied || origin = .dotted

/-- **Changes the table that some names lead to.** Tables on the way are made where they are
missing; of several tables under one name the last is meant. -/
def change (route : Route) (f : TableOrigin → List (String × Toml) → Option Toml) :
    List String → Toml → Option Toml
  | [], .table origin entries => f origin entries
  | name :: rest, .table origin entries =>
    match lookup? entries name with
    | none =>
      (change route f rest (.table route.origin [])).map fun child =>
        .table origin (withEntry entries name child)
    | some (.table childOrigin childEntries) =>
      if route.enters childOrigin then
        (change route f rest (.table childOrigin childEntries)).map fun child =>
          .table origin (withEntry entries name child)
      else none
    | some (.tables elements) =>
      match elements.getLast? with
      | none => none
      | some last =>
        (change route f rest last).map fun child =>
          .table origin (withEntry entries name (.tables (elements.dropLast ++ [child])))
    | some _ => none
  | _, _ => none

/-- Sets a key in a table. A key is set once; a dotted key sets its last part in a table that
dotted keys have opened. -/
def setKey (path : List String) (name : String) (value : Toml) (table : Toml) : Option Toml :=
  change .key (fun origin entries =>
    if path.isEmpty || origin = .dotted then
      if (lookup? entries name).isSome then none
      else some (.table origin (entries ++ [(name, value)]))
    else none) path table

/-- States a table by a header. -/
def stateTable (path : List String) (name : String) (root : Toml) : Option Toml :=
  change .header (fun origin entries =>
    match lookup? entries name with
    | none => some (.table origin (entries ++ [(name, .table .stated [])]))
    | some (.table .implied children) =>
      some (.table origin (withEntry entries name (.table .stated children)))
    | some _ => none) path root

/-- States one more table under a name by a header in double brackets. -/
def addTable (path : List String) (name : String) (root : Toml) : Option Toml :=
  change .header (fun origin entries =>
    match lookup? entries name with
    | none => some (.table origin (entries ++ [(name, .tables [.table .stated []])]))
    | some (.tables elements) =>
      some (.table origin (withEntry entries name (.tables (elements ++ [.table .stated []]))))
    | some _ => none) path root

/-- Sets a key in the table that a header has stated. -/
def setBelow (header path : List String) (name : String) (value : Toml) (root : Toml) :
    Option Toml :=
  change .header (fun origin entries => setKey path name value (.table origin entries)) header root

end Toml

end CriticalSection
