import CriticalSection.Cluster.Schedule
import CriticalSection.Offset.File
import CriticalSection.Verifier.Report

/-!
# Simulated rounds

A simulated round takes place at one coordinator. Each process compares its clock with that of the
coordinator, goes through its round with a log of its own and moves its log by the offset it has
estimated; the logs are then put together and verified under the margins of the estimates.
-/

set_option autoImplicit false

namespace CriticalSection

/-- How a round is simulated. -/
structure Simulation (α : Type) where
  /-- The number of processes. -/
  processes : UInt64
  /-- What the names of the processes start with. -/
  nameStart : String
  pacing : Pacing
  /-- How often a process compares its clock. -/
  samples : UInt64
  logDirectory : String
  /-- The least margin of a process. -/
  margin : α

namespace Simulation

/-- What a simulated round has brought. -/
structure Result (α : Type) where
  estimates : List (ProcessEstimate α)
  /-- The paths of the logs. -/
  logs : List String
  merged : Log
  report : Report α

variable {α : Type} [Quantity α]

/-- The names of the processes. -/
def names (m : Simulation α) : List ProcessId :=
  (List.range m.processes.toNat).map fun i => m.nameStart ++ toString (i + 1)

/-- The path of the log of a process. -/
def logPath (m : Simulation α) (p : ProcessId) : String :=
  Path.join m.logDirectory (p ++ ".log")

/-! ## The cluster -/

/-- There is one broker and one router, and each process has a token of its own. -/
abbrev extent (m : Simulation α) : Extent := ⟨1, 1, m.names.length⟩

/-- The coordinator of the round, at which all processes have subscribed. -/
def coordinator (m : Simulation α) : Coordinator :=
  m.names.foldl Coordinator.subscribe (.new m.processes)

/-- The cluster at the start of the round. -/
def cluster (m : Simulation α) (now : Int64) (files : FileTree) : Cluster m.extent where
  brokers := Vector.singleton ⟨Broker.localEndpoint "simulation", m.coordinator, none⟩
  routers := Vector.singleton (.new [Extent.only])
  cancelled := Vector.replicate m.names.length false
  now := now
  files := files

/-- The processes of the round. Clocks for which no skew is given are exact. -/
def clients (m : Simulation α) (skews : List Int64) : List (Client m.extent) :=
  (List.finRange m.names.length).map fun (i : Fin m.names.length) =>
    { process := m.names[i]
      processes := m.names
      home := none
      router := Extent.only
      skew := skews.getD i 0
      token := i }

/-! ## The round -/

/-- Before its round a process compares its clock and creates its log. -/
def prepare (m : Simulation α) (client : Client m.extent) (c : Cluster m.extent) :
    Outcome (Estimate α × LogWriter) × Cluster m.extent :=
  match (Sampling.standard.withSamples m.samples.toNat).estimate (client.peer Extent.only c) c with
  | (.error fault, c) => (.error fault, c)
  | (.ok estimate, c) =>
    match LogWriter.create c.files (m.logPath client.process) client.process with
    | .error fault => (.error fault, c)
    | .ok (writer, files) => (.ok (estimate, writer), { c with files := files })

/-- All processes start; those that are not prepared drop out. -/
def begin (m : Simulation α) :
    List (Client m.extent) → Schedule m.extent →
      List (ProcessId × Outcome (Estimate α)) × Schedule m.extent
  | [], x => ([], x)
  | client :: rest, x =>
    match m.prepare client x.cluster with
    | (.error fault, c) =>
      let (others, x) := begin m rest { x with cluster := c }
      ((client.process, .error fault) :: others, x)
    | (.ok (estimate, writer), c) =>
      let x : Schedule m.extent := { x with cluster := c }
      let round := Call.round client m.pacing (.start client writer)
      let (others, x) := begin m rest (x.call client.process round)
      ((client.process, .ok estimate) :: others, x)

/-- How the round of a process has ended. A round that waits for a process that has dropped out
does not end by itself. -/
def ending {m : Simulation α} (x : Schedule m.extent) (p : ProcessId) : Outcome Unit :=
  match x.calls.lookup p with
  | some (.ended outcome _) => outcome.map fun _ => ()
  | _ => fail (.interrupted "simulated process")

/-- After its round a process moves its log by the offset it has estimated. -/
def settle (m : Simulation α) (p : ProcessId) (estimate : Estimate α) (files : FileTree) :
    Outcome (ProcessEstimate α) × FileTree :=
  match Log.adjust files (m.logPath p) estimate.offset with
  | .error fault => (.error fault, files)
  | .ok (_, files) => (.ok ⟨p, estimate⟩, files)

/-- All processes whose round has ended well settle their logs. -/
def settleAll (m : Simulation α) (x : Schedule m.extent) :
    List (ProcessId × Outcome (Estimate α)) → FileTree →
      List (Outcome (ProcessEstimate α)) × FileTree
  | [], files => ([], files)
  | (p, prepared) :: rest, files =>
    let (outcome, files) := match prepared, ending x p with
      | .ok estimate, .ok () => m.settle p estimate files
      | .error fault, _ => (.error fault, files)
      | .ok _, .error fault => (.error fault, files)
    let (others, files) := settleAll m x rest files
    (outcome :: others, files)

/-- The estimates of all processes, or why there are none: a process whose computation has left
its range counts before one that has failed, and of those that have failed the first. -/
def gather (outcomes : List (Outcome (ProcessEstimate α))) :
    Outcome (List (ProcessEstimate α)) :=
  if outcomes.any fun outcome => outcome matches .error .overflow then
    fail (.interrupted "simulated process")
  else outcomes.mapM id

/-- The logs of all processes are put together and verified. -/
def verify (m : Simulation α) (files : FileTree) (estimates : List (ProcessEstimate α)) :
    Outcome (Result α) := do
  let logs := m.names.map m.logPath
  let merged ← Log.merge files logs
  let margins := Margins.ofEstimates m.margin (estimates.map fun e => (e.process, e.estimate))
  return ⟨estimates, logs, merged, Verifier.verify margins merged⟩

/-- **Simulates a round** that starts at a time, with clocks that are ahead by so much, and leaves
the logs in files. -/
def run (m : Simulation α) (skews : List Int64) (now : Int64) (files : FileTree) :
    Outcome (Result α) × FileTree :=
  match files.createDirectories m.logDirectory with
  | .error cause => (fail (.file m.logDirectory cause), files)
  | .ok files =>
    let (prepared, x) := m.begin (m.clients skews) (.new (m.cluster now files))
    let x := x.complete
    let (outcomes, files) := m.settleAll x prepared x.cluster.files
    ((gather outcomes).bind (m.verify files), files)

end Simulation

end CriticalSection
