import CriticalSection.Config.Section
import CriticalSection.Toml.Reader
import CriticalSection.Files.Tree

/-!
# Configuration

How a process takes part in a round, how clocks are compared, how a round is simulated and how
logs are verified. Every setting has a default, so the empty file is a configuration.
-/

set_option autoImplicit false

namespace CriticalSection

/-- The settings of a process and of the coordinator on its machine. -/
structure NodeConfig where
  /-- The process that is run. -/
  process : ProcessId
  /-- All processes that take part. -/
  processes : List ProcessId
  /-- The addresses of all coordinators. -/
  brokers : List String
  /-- The address of the coordinator on this machine. -/
  listen : String
  /-- How many processes open a barrier, unless it is the number of processes. -/
  expected : Option UInt64
  /-- The address of the coordinator the process subscribes at, unless it is the one on this
  machine. -/
  home : Option String
  /-- The pause before peers are looked for again, in milliseconds. -/
  peerPause : UInt64
  /-- How often peers are looked for. -/
  peerAttempts : UInt32
  deriving DecidableEq, Repr

/-- The settings for comparing clocks. -/
structure ClockConfig where
  samples : UInt64
  attempts : UInt32
  pause : UInt64
  /-- The longest pause between the two readings a coordinator gives of its clock. -/
  oraclePause : UInt64
  /-- A time server that is asked instead of the first coordinator. -/
  timeServer : Option String
  deriving DecidableEq, Repr

/-- The settings of a round. -/
structure RoundConfig where
  /-- The number of processes of a simulated round. -/
  processes : UInt64
  iterations : UInt64
  /-- The time inside the critical section and the time between two entries, in milliseconds. -/
  holding : UInt64
  thinking : UInt64
  logDirectory : String
  /-- What the names of the simulated processes start with. -/
  nameStart : String
  deriving DecidableEq, Repr

/-- The settings of the verification. -/
structure VerifierConfig where
  margin : Float
  deriving Repr

/-- A configuration. -/
structure Config where
  node : NodeConfig
  clock : ClockConfig
  round : RoundConfig
  verifier : VerifierConfig
  deriving Repr

namespace NodeConfig

/-- A round of one process. -/
def standard : NodeConfig where
  process := "P1"
  processes := ["P1"]
  brokers := ["127.0.0.1:7301"]
  listen := "127.0.0.1:7301"
  expected := none
  home := none
  peerPause := 100
  peerAttempts := 600

/-- How many processes open a barrier. -/
def expectedNodes (c : NodeConfig) : UInt64 :=
  c.expected.getD (UInt64.ofNat c.processes.length)

/-- The address of the coordinator the process subscribes at. -/
def homeBroker (c : NodeConfig) : String := c.home.getD c.listen

/-- Reads the settings of a process. -/
def ofSection? (s : Section) : Option NodeConfig := do
  let d := standard
  return {
    process := ← s.field 0 "process_id" Section.text? d.process
    processes := ← s.field 1 "processes" Section.texts? d.processes
    brokers := ← s.field 2 "brokers" Section.texts? d.brokers
    listen := ← s.field 3 "listen" Section.text? d.listen
    expected := ← s.field 4 "expected_nodes" (fun v => (Section.word? v).map some) d.expected
    home := ← s.field 5 "home_broker" (fun v => (Section.text? v).map some) d.home
    peerPause := ← s.field 6 "peer_poll_ms" Section.word? d.peerPause
    peerAttempts := ← s.field 7 "peer_poll_attempts" Section.count? d.peerAttempts }

end NodeConfig

namespace ClockConfig

/-- Ten samples, with five attempts at each. -/
def standard : ClockConfig := ⟨10, 5, 50, 10, none⟩

/-- Reads the settings for comparing clocks. -/
def ofSection? (s : Section) : Option ClockConfig := do
  let d := standard
  return {
    samples := ← s.field 0 "samples" Section.word? d.samples
    attempts := ← s.field 1 "max_retries" Section.count? d.attempts
    pause := ← s.field 2 "retry_backoff_ms" Section.word? d.pause
    oraclePause := ← s.field 3 "oracle_max_sleep_ms" Section.word? d.oraclePause
    timeServer := ← s.field 4 "sntp_server" (fun v => (Section.text? v).map some) d.timeServer }

end ClockConfig

namespace RoundConfig

/-- Three processes that enter ten times each. -/
def standard : RoundConfig := ⟨3, 10, 5, 5, "logs", "P"⟩

/-- Reads the settings of a round. -/
def ofSection? (s : Section) : Option RoundConfig := do
  let d := standard
  return {
    processes := ← s.field 0 "processes" Section.word? d.processes
    iterations := ← s.field 1 "iterations" Section.word? d.iterations
    holding := ← s.field 2 "critical_section_ms" Section.word? d.holding
    thinking := ← s.field 3 "think_time_ms" Section.word? d.thinking
    logDirectory := ← s.field 4 "log_dir" Section.text? d.logDirectory
    nameStart := ← s.field 5 "process_id_prefix" Section.text? d.nameStart }

end RoundConfig

namespace VerifierConfig

/-- A margin of two milliseconds. -/
def standard : VerifierConfig := ⟨2⟩

/-- Reads the settings of the verification. -/
def ofSection? (s : Section) : Option VerifierConfig := do
  return { margin := ← s.field 0 "default_margin_ms" Section.quantity? standard.margin }

end VerifierConfig

namespace Config

/-- The configuration with every setting at its default. -/
def standard : Config := ⟨.standard, .standard, .standard, .standard⟩

/-- Reads a section into settings. -/
def settings? {α : Type} (ofSection? : Section → Option α) (value : Toml) : Option α :=
  (Section.ofToml? value).bind ofSection?

/-- Reads the settings of a document. -/
def ofToml? (document : Toml) : Option Config := do
  let s ← Section.ofToml? document
  let d := standard
  return {
    node := ← s.field 0 "node" (settings? NodeConfig.ofSection?) d.node
    clock := ← s.field 1 "clock" (settings? ClockConfig.ofSection?) d.clock
    round := ← s.field 2 "simulation" (settings? RoundConfig.ofSection?) d.round
    verifier := ← s.field 3 "verifier" (settings? VerifierConfig.ofSection?) d.verifier }

/-- **Reads the configuration in a file.** -/
def read (files : FileTree) (path : String) : Outcome Config := do
  let text ← Outcome.ofFile path (files.readText path)
  match Toml.read? text with
  | none => fail (.config path "the text is no TOML document")
  | some document =>
    match ofToml? document with
    | none => fail (.config path "a setting has a value of another kind")
    | some config => .ok config

/-- Whether a configuration has every setting at its default. -/
def isStandard (c : Config) : Bool :=
  c.node = .standard && c.clock = .standard && c.round = .standard &&
    c.verifier.margin == VerifierConfig.standard.margin

end Config

end CriticalSection
