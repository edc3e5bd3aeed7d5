import Mathlib.Logic.Function.Basic
import CriticalSection.Cluster.Call
import CriticalSection.Proofs.Cluster

/-!
# Parties and their scenes

A **party** is a number of processes that compete for the critical section. Each of them is driven
by one client, all clients have the same list of processes, and each process is at home at one
broker. A **scene** is the state of everything: the cluster, the call each client has in progress,
and which clients hold the section between a call that let them in and the call that leaves.

What may happen next is an `Occasion`: a client begins a call, a call makes one of its moves, a
caller hangs up, a token is cancelled, a broker goes out of reach or comes back, a router asks
anew, or time passes. A call makes at most one call to a coordinator in a move, so runs over
arbitrary lists of occasions are all interleavings of these.
-/

set_option autoImplicit false

namespace CriticalSection

variable {s : Extent}

/-! ## Parties -/

/-- **A party**: its processes, and for each of them its client and the broker it is at home at. -/
structure Party (s : Extent) where
  processes : List ProcessId
  client : ProcessId → Client s
  host : ProcessId → Fin s.brokers
  process_client : ∀ p ∈ processes, (client p).process = p
  processes_client : ∀ p ∈ processes, (client p).processes = processes

/-- A call that the client of a process can be asked to make. -/
inductive Errand
  | acquire
  | release
  | lineUp (phase : Phase)
  | awaitPeers (pause : UInt64) (attempts : UInt32)
  /-- Entering, staying inside for a while and leaving, with what comes of the stay. -/
  | visit (duration : UInt64) (ending : Outcome Int)
  | round (pacing : Pacing) (writer : LogWriter)

namespace Errand

/-- The call for an errand, at its start. -/
def start (client : Client s) : Errand → Call s
  | acquire => .acquire client .start
  | release => .release client .start
  | lineUp phase => .lineUp client (.start client phase)
  | awaitPeers pause attempts => .awaitPeers client pause attempts (.start client)
  | visit duration ending => .visit client (.start (.arriving duration ending))
  | round pacing writer => .round client pacing (.start client writer)

/-- Whether an errand asks for the section, which a client that holds it does not. -/
def enters : Errand → Bool
  | acquire | visit .. | round .. => true
  | _ => false

/-- Whether an errand is to leave the section. -/
def leaves : Errand → Bool
  | release => true
  | _ => false

end Errand

/-! ## What a client is doing -/

/-- Where a client stands towards the critical section. -/
inductive Activity (s : Extent)
  | outside
  | entering (stage : Acquire s)
  | inside
  | leaving (stage : Release s)

/-- Whether a client is inside. -/
def Activity.isInside : Activity s → Bool
  | .inside => true
  | _ => false

theorem Activity.isInside_iff {a : Activity s} : a.isInside = true ↔ a = .inside := by
  cases a <;> simp [isInside]

/-- What a visit has its client do. -/
def Visit.activity {β ρ : Type} : Visit s β ρ → Activity s
  | entering stage _ => .entering stage
  | inside _ => .inside
  | leaving stage _ => .leaving stage

/-- What a round has its client do. -/
def Round.activity : Round s → Activity s
  | visiting visit _ => visit.activity
  | _ => .outside

namespace Call

/-- What a call has its client do. -/
def activity : Call s → Activity s
  | acquire _ stage => .entering stage
  | release _ stage => .leaving stage
  | visit _ v => v.activity
  | round _ _ r => r.activity
  | _ => .outside

/-- Whether a call has nothing to do with the section, so that a client that is inside may make
it. -/
def idle : Call s → Bool
  | lineUp .. | awaitPeers .. => true
  | _ => false

/-- Whether a call that ends leaves its client inside: an acquire that ends well does, and a visit
that is cut short inside. -/
def admits (call : Call s) (outcome : Outcome Yield) : Bool :=
  match call, outcome with
  | acquire .., .ok _ => true
  | _, _ => call.activity.isInside

end Call

/-! ## Calls that go on -/

namespace Call

/-- **A call goes on**: it is the same call of the same client, in whichever stage. -/
inductive GoesOn : Call s → Call s → Prop
  | subscribe (client : Client s) (stage stage' : Subscribe s) :
      GoesOn (.subscribe client stage) (.subscribe client stage')
  | acquire (client : Client s) (stage stage' : Acquire s) :
      GoesOn (.acquire client stage) (.acquire client stage')
  | release (client : Client s) (stage stage' : Release s) :
      GoesOn (.release client stage) (.release client stage')
  | lineUp (client : Client s) (line line' : LineUp s) :
      GoesOn (.lineUp client line) (.lineUp client line')
  | awaitPeers (client : Client s) (pause : UInt64) (attempts : UInt32)
      (stage stage' : AwaitPeers) :
      GoesOn (.awaitPeers client pause attempts stage) (.awaitPeers client pause attempts stage')
  | visit (client : Client s) (v v' : Visit s Stay Int) :
      GoesOn (.visit client v) (.visit client v')
  | round (client : Client s) (pacing : Pacing) (r r' : Round s) :
      GoesOn (.round client pacing r) (.round client pacing r')

/-- **A call that does not end with its move goes on.** -/
theorem goesOn_of_step {call call' : Call s} {place : Nat} {c : Cluster s}
    (h : (call.step place c).1 = .next call') : call.GoesOn call' := by
  cases call with
  | direct b reaction =>
      -- a call without a client waits or ends
      simp only [step] at h
      split at h <;> cases h
  | _ =>
      obtain ⟨stage', -, rfl⟩ := Move.exists_of_map_eq_next h
      constructor

end Call

/-! ## Scenes -/

/-- **A scene.** -/
structure Scene (s : Extent) where
  cluster : Cluster s
  /-- The call that is in progress for each process. -/
  calls : ProcessId → Option (Call s)
  /-- The processes that have been let in and have not asked to leave since. -/
  admitted : ProcessId → Bool

/-- What may happen in a scene. -/
inductive Occasion (s : Extent)
  | begin (p : ProcessId) (errand : Errand)
  /-- The call of a process moves; a fan-out moves the part at a place. -/
  | advance (p : ProcessId) (place : Nat)
  | hangUp (p : ProcessId)
  | cancel (token : Fin s.tokens)
  | setOutage (b : Fin s.brokers) (outage : Option Error)
  | refresh (r : Fin s.routers)
  | setTime (time : Int64)

namespace Scene

/-- What the client of a process is doing. -/
def activity (x : Scene s) (p : ProcessId) : Activity s :=
  if x.admitted p then .inside else (x.calls p).elim .outside Call.activity

/-- **A process is inside** from the move that lets it in to the call that asks to leave. -/
def Inside (x : Scene s) (p : ProcessId) : Prop := x.activity p = .inside

/-- Takes down that a process has begun a call. -/
def commence (x : Scene s) (party : Party s) (p : ProcessId) (errand : Errand) : Scene s where
  cluster := x.cluster
  calls := Function.update x.calls p (some (errand.start (party.client p)))
  admitted := if errand.leaves then Function.update x.admitted p false else x.admitted

/-- Takes down that the call of a process has reached another stage. -/
def proceed (x : Scene s) (p : ProcessId) (call : Call s) (c : Cluster s) : Scene s where
  cluster := c
  calls := Function.update x.calls p (some call)
  admitted := x.admitted

/-- Takes down that the call of a process has ended, and whether that leaves the process inside. -/
def conclude (x : Scene s) (p : ProcessId) (admits : Bool) (c : Cluster s) : Scene s where
  cluster := c
  calls := Function.update x.calls p none
  admitted := if admits then Function.update x.admitted p true else x.admitted

/-- **The scene after an occasion**, if it can arise. A client makes its calls one after another
and does not ask for the section while it is inside. -/
def step (party : Party s) (x : Scene s) : Occasion s → Option (Scene s)
  | .begin p errand =>
    if p ∈ party.processes ∧ (x.calls p).isNone ∧ (errand.enters && x.admitted p) = false then
      some (x.commence party p errand)
    else none
  | .advance p place =>
    match x.calls p with
    | none => none
    | some call =>
      match call.step place x.cluster with
      | (.wait, _) => none
      | (.next call, c) => some (x.proceed p call c)
      | (.finish outcome, c) => some (x.conclude p (call.admits outcome) c)
  | .hangUp p =>
    match x.calls p with
    | none => none
    | some call => some (x.conclude p call.activity.isInside (call.hangUp x.cluster))
  | .cancel token => some { x with cluster := x.cluster.cancel token }
  | .setOutage b outage => some { x with cluster := x.cluster.setOutage b outage }
  | .refresh r => some { x with cluster := x.cluster.refresh r }
  | .setTime time => some { x with cluster := { x.cluster with now := time } }

end Scene

/-! ## Runs -/

namespace Party

variable (party : Party s)

/-- The record of a process of the party. -/
def record (c : Cluster s) (p : ProcessId) : Record :=
  ((c.coordinator (party.host p)).records[p]?).getD .fresh

/-- The stamp of the latest request of a process. -/
def stamp (c : Cluster s) (p : ProcessId) : Stamp := ⟨(party.record c p).announced, p⟩

/-- No logical clock stands at the last time. -/
def InTime (c : Cluster s) : Prop :=
  ∀ p ∈ party.processes, (party.record c p).clock.time ≠ Clock.last

instance : DecidablePred party.InTime := fun c =>
  inferInstanceAs (Decidable (∀ p ∈ party.processes, (party.record c p).clock.time ≠ Clock.last))

/-- **An assembled party**: every process has subscribed at its home and nowhere else, and no call
has been made since. Some routers may have found some processes already. -/
structure Assembled (x : Scene s) : Prop where
  subscribed : ∀ (b : Fin s.brokers) (p : ProcessId), (x.cluster.coordinator b).records[p]? =
    if p ∈ party.processes ∧ b = party.host p then some .fresh else none
  unused : ∀ b, ∃ expected records,
    x.cluster.coordinator b = { Coordinator.new expected with records := records }
  routed : ∀ (r : Fin s.routers) (b : Fin s.brokers), ∀ p ∈ party.processes,
    (x.cluster.routers.get r).table[p]? = some b → b = party.host p
  idle : ∀ p, x.calls p = none ∧ x.admitted p = false

/-- **Runs** over occasions of some kind through scenes of some kind. -/
inductive Run (allows : Scene s → Occasion s → Prop) (keeps : Scene s → Prop) :
    Scene s → Scene s → Prop
  | refl (x : Scene s) : Run allows keeps x x
  | step {x y z : Scene s} (run : Run allows keeps x y) (occasion : Occasion s)
      (allowed : allows y occasion) (next : y.step party occasion = some z) (kept : keeps z) :
      Run allows keeps x z

section Play

variable (allows : Scene s → Occasion s → Prop) (keeps : Scene s → Prop)
  [∀ x o, Decidable (allows x o)] [DecidablePred keeps]

/-- The scene at which a run over some occasions ends, if it can be made. -/
def play (x : Scene s) : List (Occasion s) → Option (Scene s)
  | [] => some x
  | o :: rest =>
    match x.step party o with
    | none => none
    | some y => if allows x o ∧ keeps y then play y rest else none

end Play

variable {party} in
theorem Run.trans {allows : Scene s → Occasion s → Prop} {keeps : Scene s → Prop}
    {x y z : Scene s} (run : party.Run allows keeps x y) (run' : party.Run allows keeps y z) :
    party.Run allows keeps x z := by
  induction run' with
  | refl => exact run
  | step _ occasion allowed next kept ih => exact ih.step occasion allowed next kept

/-- **What can be played is a run.** -/
theorem run_of_play (allows : Scene s → Occasion s → Prop) (keeps : Scene s → Prop)
    [∀ x o, Decidable (allows x o)] [DecidablePred keeps] {occasions : List (Occasion s)}
    {x y : Scene s} (h : party.play allows keeps x occasions = some y) :
    party.Run allows keeps x y := by
  induction occasions generalizing x with
  | nil =>
      obtain rfl := Option.some.inj h
      exact .refl x
  | cons o rest ih =>
      simp only [play] at h
      split at h
      · cases h
      · next z hnext =>
          split at h
          · next hguard =>
              exact Run.trans (.step (.refl x) o hguard.1 hnext hguard.2) (ih h)
          · cases h

/-- **Reachable scenes**: an assembled party has come to them by any occasions whatever, with no
logical clock at the last time. -/
def Reachable (x : Scene s) : Prop :=
  ∃ start, party.Assembled start ∧
    party.Run (fun _ _ => True) (fun y => party.InTime y.cluster) start x

end Party

end CriticalSection
