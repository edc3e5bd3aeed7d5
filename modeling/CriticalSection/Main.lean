import CriticalSection.CommandLine.Perform

/-!
# The program

Loads the files that a command uses, performs the command on them and writes back what it has
changed. There is no network here: every endpoint is out of reach.
-/

set_option autoImplicit false

namespace CriticalSection.Program

/-- The names that lead to where a path ends, from the root. -/
def namesFrom (home : List String) (path : String) : List String :=
  (Path.names path).foldl
    (fun here name =>
      if name = "." then here else if name = ".." then here.dropLast else here ++ [name])
    (if Path.isAbsolute path then [] else home)

/-- Loads what stands on the way to a path and at its end. -/
def load (files : FileTree) (path : String) : IO FileTree := do
  let names := namesFrom files.home path
  let mut files := files
  for depth in [1 : names.length + 1] do
    let location := FileTree.locate (names.take depth)
    let place := (← IO.currentDir) / ("/" ++ location)
    if ← place.isDir then
      files := files.put location .directory
    else if ← place.pathExists then
      files := files.put location (.file (← IO.FS.readBinFile place))
  return files

/-- Loads what stands at some paths. -/
def loadAll (files : FileTree) (paths : List String) : IO FileTree := paths.foldlM load files

/-- Random numbers for the clocks of simulated processes. -/
def draws (count : Nat) : IO (List Nat) :=
  (List.range count).mapM fun _ => IO.rand 0 (UInt64.size - 1)

/-- Loads the files that a command line uses, and draws the random numbers. -/
def loadFor (files : FileTree) (words : List String) : IO (FileTree × List Nat) := do
  match CommandLine.Command.ofWords words with
  | .error _ => return (files, [])
  | .ok command =>
    let files ← loadAll files command.configuration?.toList
    match CommandLine.configuration files command.configuration? with
    | .error _ => return (files, [])
    | .ok config =>
      return (← loadAll files (command.paths config), ← draws (command.clocks config))

/-- Writes the files that are new or have another content. -/
def store (before after : FileTree) : IO Unit := do
  for (location, content) in after.files do
    let changed := match before.nodes[location]? with
      | some (.file old) => old.data != content.data
      | _ => true
    if changed then
      let place := (← IO.currentDir) / ("/" ++ location)
      if let some directory := place.parent then IO.FS.createDirAll directory
      IO.FS.writeBinFile place content

end CriticalSection.Program

/-- Runs the program and ends with its exit code. -/
def main (words : List String) : IO UInt32 := do
  let home := CriticalSection.Path.names (← IO.currentDir).toString
  let (files, draws) ← CriticalSection.Program.loadFor (.new home) words
  let surroundings : CriticalSection.CommandLine.Surroundings :=
    { files := files
      now := Int64.ofNat (← IO.monoMsNow)
      draws := draws
      network := .networkUnreachable }
  let effect := CriticalSection.CommandLine.run surroundings words
  CriticalSection.Program.store files effect.files
  (← IO.getStdout).putStr effect.output
  return UInt32.ofNat effect.exitCode
