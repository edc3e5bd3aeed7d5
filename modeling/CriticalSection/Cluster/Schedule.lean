import CriticalSection.Cluster.Call

/-!
# Schedules

A schedule is a cluster with the calls that are in progress in it, in the order in which they were
made. When something has happened the calls move on in turn, each as far as it can, over and over
until none can move; that is one way for them to take turns among all that are possible. Time
passes in steps of a millisecond.
-/

set_option autoImplicit false

namespace CriticalSection

variable {s : Extent}

/-- How far a call has come. -/
inductive Progress (s : Extent)
  | running (call : Call s)
  /-- The call ended at a time with an outcome. -/
  | ended (outcome : Outcome Yield) (time : Int64)

namespace Progress

/-- How many moves are left at most. -/
def cost : Progress s → Nat
  | running call => call.cost
  | ended .. => 0

/-- Whether a call has ended. -/
def isEnded : Progress s → Bool
  | running _ => false
  | ended .. => true

/-- Moves a call as far as it can go, in at most so many moves, and tells whether it moved now or
`before`. -/
def advance : Nat → Bool → Progress s → Cluster s → Bool × Progress s × Cluster s
  | 0, before, progress, c => (before, progress, c)
  | _ + 1, before, ended outcome time, c => (before, .ended outcome time, c)
  | moves + 1, before, running call, c =>
    match call.step (call.choice c) c with
    | (.wait, c) => (before, .running call, c)
    | (.finish outcome, c) => (true, .ended outcome c.now, c)
    | (.next call, c) => advance moves true (.running call) c

end Progress

/-- A cluster and the calls in progress. -/
structure Schedule (s : Extent) where
  cluster : Cluster s
  calls : List (String × Progress s)

/-- The end of a call: its name, its outcome and the time. -/
structure Ending where
  call : String
  outcome : Outcome Yield
  time : Int64

namespace Schedule

/-- A schedule without calls. -/
def new (cluster : Cluster s) : Schedule s := ⟨cluster, []⟩

/-- A call is made. -/
def call (x : Schedule s) (name : String) (call : Call s) : Schedule s :=
  { x with calls := x.calls ++ [(name, .running call)] }

/-- How many moves are left at most. -/
def cost (x : Schedule s) : Nat := x.calls.foldr (fun (_, progress) rest => progress.cost + rest) 0

/-- Moves each call as far as it can go, one after another, and tells whether any of them moved. -/
def pass : List (String × Progress s) → Cluster s →
    Bool × List (String × Progress s) × Cluster s
  | [], c => (false, [], c)
  | (name, progress) :: rest, c =>
    let (moved, progress, c) := progress.advance progress.cost false c
    let (others, rest, c) := pass rest c
    (moved || others, (name, progress) :: rest, c)

/-- At most so many passes, until nothing moves. -/
def passes : Nat → Schedule s → Schedule s
  | 0, x => x
  | count + 1, x =>
    let (moved, calls, c) := pass x.calls x.cluster
    if moved then passes count ⟨c, calls⟩ else ⟨c, calls⟩

/-- **Moves all calls until none can move.** A pass in which a call moves makes the moves that are
left fewer, so there is an end. -/
def settle (x : Schedule s) : Schedule s := x.passes (x.cost + 1)

/-- With another state of the cluster. -/
def update (x : Schedule s) (f : Cluster s → Cluster s) : Schedule s :=
  { x with cluster := f x.cluster }

/-- **Time passes**, a millisecond at a time. -/
def elapse : Nat → Schedule s → Schedule s
  | 0, x => x
  | count + 1, x => elapse count (x.update fun c => { c with now := c.now + 1 }).settle

/-- The end of a call, if it has ended. -/
def ending? : String × Progress s → Option Ending
  | (_, .running _) => none
  | (name, .ended outcome time) => some ⟨name, outcome, time⟩

/-- The calls that have ended, in the order of time, and the schedule without them. Calls that
ended at the same time stay in the order in which they were made. -/
def collect (x : Schedule s) : List Ending × Schedule s :=
  ((x.calls.filterMap ending?).mergeSort fun e f => e.time ≤ f.time,
    { x with calls := x.calls.filter fun (_, progress) => !progress.isEnded })

/-- The caller of a call hangs up; tells whether the call was in progress. -/
def hangUp (x : Schedule s) (name : String) : Bool × Schedule s :=
  match x.calls.find? fun (other, _) => other = name with
  | some (_, .running call) =>
    (true, ⟨call.hangUp x.cluster, x.calls.eraseP fun (other, _) => other = name⟩)
  | _ => (false, x)

/-! ## Running to the end -/

/-- The earliest time a call waits for. -/
def deadline? (x : Schedule s) : Option Int :=
  (x.calls.filterMap fun (_, progress) =>
    match progress with
    | .running call => call.deadline?
    | .ended .. => none).min?

/-- Lets the calls move and the clock jump to the next time a call waits for, at most so many
times. -/
def jumps : Nat → Schedule s → Schedule s
  | 0, x => x.settle
  | count + 1, x =>
    let x := x.settle
    match x.deadline? with
    | none => x
    | some time => jumps count (x.update fun c => { c with now := Int64.ofInt time })

/-- **Runs until no call can move and none waits for a time.** -/
def complete (x : Schedule s) : Schedule s := x.jumps x.cost

end Schedule

end CriticalSection
