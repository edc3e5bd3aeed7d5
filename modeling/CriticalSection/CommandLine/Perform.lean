import CriticalSection.CommandLine.Command
import CriticalSection.Participation
import CriticalSection.Simulation

/-!
# Performing commands

What a command does to the files, what it writes and how the program ends: with 0 if all is well,
with 1 if a verification finds a violation, with the code of the error that stopped it, with 2 if
the command line cannot be read, and with 101 if a computation leaves its range.
-/

set_option autoImplicit false

namespace CriticalSection.CommandLine

/-- What a command finds. -/
structure Surroundings where
  files : FileTree
  /-- The time in milliseconds. -/
  now : Int64
  /-- Random numbers, one for the clock of each simulated process. -/
  draws : List Nat
  /-- Why connections can neither be opened nor accepted. -/
  network : SystemFailure

/-- What a command leaves behind. -/
structure Effect where
  exitCode : Nat
  output : String
  files : FileTree

/-- What a command brings: whether all is well, and the text it writes. -/
abbrev Verdict := Bool × String

/-- The verdict that a report gives. -/
def Verdict.ofReport (report : Report Float) : Verdict :=
  (report.clean, report.text Layout.reportText ++ "\n")

/-- The verdict of a command that has nothing to say. -/
def Verdict.silent : Verdict := (true, "")

/-- The configuration in a file, or the standard one if no file is named. -/
def configuration (files : FileTree) : Option String → Outcome Config
  | none => .ok .standard
  | some path => Config.read files path

/-- A random skew of at most the given size. -/
def skew (size : UInt64) (draw : Nat) : Int64 :=
  let bound := min size.toNat (UInt64.size / 2 - 1)
  Int64.ofInt ((draw % (2 * bound + 1) : Nat) - (bound : Int))

/-! ## The commands -/

/-- Hosts a coordinator, for which connections have to be accepted. -/
def serve (w : Surroundings) (config : String) : Outcome Verdict := do
  let config ← Config.read w.files config
  fail (Endpoint.unreachable ⟨config.node.listen⟩ w.network)

/-- Takes part in a round. -/
def participate (w : Surroundings) (config : String) : Outcome Verdict × FileTree :=
  match Config.read w.files config with
  | .error fault => (.error fault, w.files)
  | .ok config =>
    let (outcome, files) := Participation.runAlone w.network config w.now w.files
    (outcome.map fun _ => .silent, files)

/-- The simulation that a configuration and the options describe. -/
def simulation (config : Config) (o : SimulateOptions) : Simulation Float where
  processes := o.processes.getD config.round.processes
  nameStart := o.nameStart.getD config.round.nameStart
  pacing :=
    { visits := o.visits.getD config.round.iterations
      holding := o.holding.getD config.round.holding
      thinking := o.thinking.getD config.round.thinking }
  samples := config.clock.samples
  logDirectory := o.logDirectory.getD config.round.logDirectory
  margin := o.margin.getD config.verifier.margin

/-- Simulates a round and verifies its logs. -/
def simulate (w : Surroundings) (o : SimulateOptions) : Outcome Verdict × FileTree :=
  match configuration w.files o.config with
  | .error fault => (.error fault, w.files)
  | .ok config =>
    let (outcome, files) :=
      (simulation config o).run (w.draws.map (skew o.skew)) w.now w.files
    (outcome.map fun result => .ofReport result.report, files)

/-- Moves a log in time. -/
def adjust (w : Surroundings) (log : String) (offset : Float) : Outcome Verdict × FileTree :=
  match Log.adjust w.files log offset with
  | .error fault => (.error fault, w.files)
  | .ok (_, files) => (.ok .silent, files)

/-- Verifies logs. A margin that is given directly replaces that of an estimate. -/
def verify (w : Surroundings) (o : VerifyOptions) : Outcome Verdict := do
  let config ← configuration w.files o.config
  let merged ← Log.merge w.files o.logs
  let estimates ← o.estimates.mapM (ProcessEstimate.read .float w.files)
  let common := o.margin.getD config.verifier.margin
  let margins := Margins.ofEstimates common (estimates.map fun e => (e.process, e.estimate))
  let margins := o.margins.foldl (fun m (process, margin) => m.set process margin) margins
  return .ofReport (Verifier.verify margins merged)

/-- **Performs a command.** -/
def Command.perform (w : Surroundings) : Command → Outcome Verdict × FileTree
  | .serve config => (CommandLine.serve w config, w.files)
  | .run config => participate w config
  | .simulate options => CommandLine.simulate w options
  | .adjust log offset => CommandLine.adjust w log offset
  | .verify options => (CommandLine.verify w options, w.files)

/-! ## The files of a command -/

/-- The path of the configuration that a command names. -/
def Command.configuration? : Command → Option String
  | .serve config | .run config => some config
  | .simulate options => options.config
  | .adjust .. => none
  | .verify options => options.config

/-- The other paths that a command uses under a configuration. -/
def Command.paths (config : Config) : Command → List String
  | .serve _ => []
  | .run _ =>
    [config.round.logDirectory, Participation.path config ".log",
      Participation.path config ".estimate.json"]
  | .simulate options =>
    let m := simulation config options
    m.logDirectory :: m.names.map m.logPath
  | .adjust log _ => [log]
  | .verify options => options.logs ++ options.estimates

/-- How many clocks of simulated processes a command sets. -/
def Command.clocks (config : Config) : Command → Nat
  | .simulate options => (simulation config options).processes.toNat
  | _ => 0

/-! ## The program -/

/-- The name of the program and its version. -/
def versionText : String := "lamport-mutex 0.1.0\n"

/-- How the program is used. -/
def helpText : String :=
  "Distributed mutual exclusion with verifiable logs\n\n" ++
    "Usage: lamport-mutex [OPTIONS] <COMMAND>\n\n" ++
    "Commands: serve, run, simulate, adjust, verify, help\n"

/-- The code with which the program ends. -/
def exitCode : Outcome Verdict → Nat
  | .ok (true, _) => 0
  | .ok (false, _) => 1
  | .error (.error cause) => cause.exitCode
  | .error .overflow => 101

/-- What the program writes. -/
def output : Outcome Verdict → String
  | .ok (_, text) => text
  | .error _ => ""

/-- **Runs the program** with the words of its command line. -/
def run (w : Surroundings) (words : List String) : Effect :=
  match Command.ofWords words with
  | .error .refused => ⟨2, "", w.files⟩
  | .error .asksHelp => ⟨0, helpText, w.files⟩
  | .error .asksVersion => ⟨0, versionText, w.files⟩
  | .ok command =>
    let (outcome, files) := command.perform w
    ⟨exitCode outcome, output outcome, files⟩

end CriticalSection.CommandLine
