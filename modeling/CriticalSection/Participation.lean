import CriticalSection.Cluster.Schedule
import CriticalSection.Config.Read
import CriticalSection.Offset.File
import CriticalSection.Wire.Endpoint

/-!
# Taking part in a round

A process that takes part in a round with coordinators elsewhere subscribes, waits until all others
can be found, compares its clock with that of the first coordinator or of a time server, goes
through its round, moves its log by the offset and leaves the estimate beside it. The first part
that fails ends it.
-/

set_option autoImplicit false

namespace CriticalSection

namespace Participation

/-- What a process does in a cluster, up to the first failure. -/
abbrev Act (s : Extent) (α : Type) := ExceptT Fault (StateM (Cluster s)) α

variable {s : Extent}

/-- Makes a call and waits for its end. -/
def await (call : Call s) : Act s Unit := ExceptT.mk fun c =>
  let x := ((Schedule.new c).call "" call).complete
  (match x.calls with
    | [(_, .ended outcome _)] => outcome.map fun _ => ()
    | _ => fail (.interrupted "call"), x.cluster)

/-- Changes files. -/
def change {α : Type} (f : FileTree → Outcome (α × FileTree)) : Act s α := ExceptT.mk fun c =>
  match f c.files with
  | .ok (value, files) => (.ok value, { c with files := files })
  | .error fault => (.error fault, c)

/-- How a configuration tells to compare clocks. -/
def sampling (clock : ClockConfig) : Sampling :=
  (Sampling.standard.withSamples clock.samples.toNat).withRetries clock.attempts clock.pause

/-- Compares the clock of a process with that of a coordinator, or of a time server if there is
one. -/
def compareClocks (config : Config) (client : Client s) (reference : Option (Fin s.brokers))
    (server : Option (TimeServer Float (Cluster s))) : Act s (Estimate Float) :=
  ExceptT.mk fun c =>
    match server, reference with
    | some server, _ => (sampling config.clock).estimateByServer server c
    | none, some b => (sampling config.clock).estimate (client.peer b c) c
    | none, none => (fail (.unroutable client.process), c)

/-- A file beside the log of a process. -/
def path (config : Config) (ending : String) : String :=
  Path.join config.round.logDirectory (config.node.process ++ ending)

/-- **Takes part in a round.** -/
def run (config : Config) (client : Client s) (reference : Option (Fin s.brokers))
    (server : Option (TimeServer Float (Cluster s))) : Act s Unit := do
  let directory := config.round.logDirectory
  let log := path config ".log"
  await (.subscribe client .start)
  await (.awaitPeers client config.node.peerPause config.node.peerAttempts (.start client))
  let estimate ← compareClocks config client reference server
  change fun files =>
    (Outcome.ofFile directory (files.createDirectories directory)).map fun files => ((), files)
  let writer ← change fun files => LogWriter.create files log client.process
  await (.round client
    ⟨config.round.iterations, config.round.holding, config.round.thinking⟩
    (.start client writer))
  let _ ← change fun files => Log.adjust files log estimate.offset
  change fun files =>
    (ProcessEstimate.write .float files (path config ".estimate.json")
      ⟨client.process, estimate⟩).map fun files => ((), files)

/-! ## Coordinators that are out of reach -/

/-- The addresses of all coordinators, that of the process's own included. -/
def addresses (node : NodeConfig) : List String :=
  if node.brokers.contains node.homeBroker then node.brokers
  else node.brokers ++ [node.homeBroker]

/-- The coordinators, none of which can be reached. -/
def outOfReach (cause : SystemFailure) (node : NodeConfig) :
    Vector Broker (addresses node).length :=
  ⟨((addresses node).map fun address =>
    (⟨address, .new 0, some (Endpoint.unreachable ⟨address⟩ cause)⟩ : Broker)).toArray, by simp⟩

/-- Where an address stands among those of all coordinators. -/
def position? (node : NodeConfig) (address : String) : Option (Fin (addresses node).length) :=
  (List.finRange (addresses node).length).find? fun i => (addresses node)[i] = address

/-- **Takes part in a round without a network**, over which neither a coordinator nor a time server
can be reached. -/
def runAlone (cause : SystemFailure) (config : Config) (now : Int64) (files : FileTree) :
    Outcome Unit × FileTree :=
  let node := config.node
  let s : Extent := ⟨(addresses node).length, 1, 1⟩
  match position? node node.homeBroker with
  | none => (fail (.unroutable node.process), files)
  | some home =>
    let client : Client s := ⟨node.process, node.processes, some home, Extent.only, 0, Extent.only⟩
    let c : Cluster s :=
      { brokers := outOfReach cause node
        routers := Vector.singleton (.new (List.finRange (addresses node).length))
        cancelled := Vector.singleton false
        now := now
        files := files }
    let reference := node.brokers.head?.bind (position? node)
    let server := config.clock.timeServer.map fun name =>
      (⟨name, fun c => (fail (.sntp name cause.text), c), fun _ c => c⟩ :
        TimeServer Float (Cluster s))
    let (outcome, c) := (run config client reference server).run.run c
    (outcome, c.files)

end Participation

end CriticalSection
