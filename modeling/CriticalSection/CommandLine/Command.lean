import CriticalSection.CommandLine.Options
import CriticalSection.Decimal.Reader
import CriticalSection.Error
import CriticalSection.Text.Integer

/-!
# Commands

What can be asked of the program on its command line: to host a coordinator, to take part in a
round, to simulate one, to move a log in time and to verify logs.
-/

set_option autoImplicit false

namespace CriticalSection.CommandLine

/-- Settings of a simulated round that replace those of the configuration. -/
structure SimulateOptions where
  config : Option String
  processes : Option UInt64
  visits : Option UInt64
  holding : Option UInt64
  thinking : Option UInt64
  /-- By how much clocks may be ahead or behind. -/
  skew : UInt64
  logDirectory : Option String
  nameStart : Option String
  margin : Option Float
  deriving Repr

/-- What is verified, and under which margins. -/
structure VerifyOptions where
  logs : List String
  /-- The files with estimates, each of which gives a process its margin. -/
  estimates : List String
  /-- Margins that are given directly. -/
  margins : List (ProcessId × Float)
  margin : Option Float
  config : Option String
  deriving Repr

/-- A command. -/
inductive Command
  | serve (config : String)
  | run (config : String)
  | simulate (options : SimulateOptions)
  | adjust (log : String) (offset : Float)
  | verify (options : VerifyOptions)
  deriving Repr

/-! ## Values of options -/

/-- A path has at least one character. -/
def path? (value : String) : Option String := if value.isEmpty then none else some value

/-- A 64-bit count. -/
def word? (value : String) : Option UInt64 :=
  match Text.readNat (UInt64.size - 1) value.toList with
  | .ok n => some (UInt64.ofNat n)
  | .error _ => none

/-- The margin of a process: its name and the margin, with an equals sign between them. -/
def margin? (value : String) : Option (ProcessId × Float) :=
  match splitEquals value.toList with
  | (_, none) => none
  | (process, some margin) =>
    (Decimal.readFloat? (String.ofList margin)).map fun margin => (String.ofList process, margin)

namespace Given

/-- All values of an option. -/
def all {α : Type} (given : Given) (name : String) (read? : String → Option α) : Reading (List α) :=
  match ((given.filter fun (other, _) => other = name).mapM fun (_, value) => read? value) with
  | some values => .ok values
  | none => .error .refused

/-- The value of an option that may be left out. -/
def optional {α : Type} (given : Given) (name : String) (read? : String → Option α) :
    Reading (Option α) := do
  return (← all given name read?).head?

/-- The value of an option that has to be there. -/
def required {α : Type} (given : Given) (name : String) (read? : String → Option α) :
    Reading α := do
  match ← optional given name read? with
  | some value => return value
  | none => throw .refused

end Given

/-! ## The commands and their options -/

/-- The options that can be given anywhere. -/
def commonRules : List Rule := [.flag "quiet" (some 'q'), .flag "verbose" (some 'v'), help]

/-- The option that names a configuration. -/
def configRule : Rule := .single "config" (some 'c')

/-- The options of a command. -/
def rules? : String → Option (List Rule)
  | "serve" | "run" => some [configRule]
  | "simulate" => some [configRule, .single "processes" none, .single "iterations" none,
      .single "critical-section-ms" none, .single "think-time-ms" none,
      .single "max-skew-ms" none, .single "log-dir" none, .single "prefix" none,
      .single "default-margin-ms" none]
  | "adjust" => some [.single "log" none, ⟨"offset", none, .single, true⟩]
  | "verify" => some [.many "log", .many "estimate", .many "margin",
      .single "default-margin" none, configRule]
  | _ => none

/-- The command that some options make of a name. -/
def Command.ofGiven (name : String) (given : Given) : Reading Command :=
  match name with
  | "serve" => return .serve (← Given.required given "config" path?)
  | "run" => return .run (← Given.required given "config" path?)
  | "simulate" => return .simulate {
      config := ← Given.optional given "config" path?
      processes := ← Given.optional given "processes" word?
      visits := ← Given.optional given "iterations" word?
      holding := ← Given.optional given "critical-section-ms" word?
      thinking := ← Given.optional given "think-time-ms" word?
      skew := (← Given.optional given "max-skew-ms" word?).getD 0
      logDirectory := ← Given.optional given "log-dir" path?
      nameStart := ← Given.optional given "prefix" some
      margin := ← Given.optional given "default-margin-ms" Decimal.readFloat? }
  | "adjust" =>
    return .adjust (← Given.required given "log" path?)
      (← Given.required given "offset" Decimal.readFloat?)
  | "verify" => do
    let logs ← Given.all given "log" path?
    if logs.isEmpty then throw .refused
    return .verify {
      logs := logs
      estimates := ← Given.all given "estimate" path?
      margins := ← Given.all given "margin" margin?
      margin := ← Given.optional given "default-margin" Decimal.readFloat?
      config := ← Given.optional given "config" path? }
  | _ => throw .refused

/-- What the words behind `help` ask for: nothing, or one command, must be named. -/
def helpFor : List String → Stop
  | [] => .asksHelp
  | [name] => if name = "help" ∨ (rules? name).isSome then .asksHelp else .refused
  | _ => .refused

/-- **Reads a command line**: common options, the name of a command and its options. -/
def Command.ofWords (words : List String) : Reading Command := do
  match ← read (version :: commonRules) none words [] with
  | (_, []) => throw .refused
  | (_, name :: rest) =>
    match rules? name with
    | none => throw (if name = "help" then helpFor rest else .refused)
    | some rules =>
      match ← read (rules ++ commonRules) none rest [] with
      | (given, []) => Command.ofGiven name given
      | (_, _ :: _) => throw .refused

end CriticalSection.CommandLine
