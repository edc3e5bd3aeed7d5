import CriticalSection.Cluster.Calls
import CriticalSection.Log.Files

/-!
# Visits

A visit enters the critical section, does something there and leaves again. It leaves whether or
not what it did inside succeeded; what failed inside is reported before what failed in leaving. A
computation that leaves its range is no failure of that kind: it ends the visit where it is.
-/

set_option autoImplicit false

namespace CriticalSection

variable {s : Extent} {β ρ : Type}

/-- The stages of a visit that does `β` inside and brings `ρ` back. -/
inductive Visit (s : Extent) (β ρ : Type)
  | entering (stage : Acquire s) (body : β)
  | inside (body : β)
  | leaving (stage : Release s) (outcome : Outcome ρ)

namespace Visit

/-- A visit at its start. -/
def start (body : β) : Visit s β ρ := entering .start body

/-- What a visit brings back when it has left: the first failure, if there is one. -/
def result (outcome : Outcome ρ) (left : Outcome Unit) : Outcome ρ :=
  match outcome, left with
  | .error fault, _ => .error fault
  | .ok _, .error fault => .error fault
  | .ok value, .ok () => .ok value

/-- **The move of a visit.** What is done inside moves on by `body`. -/
def step (client : Client s) (body : β → Cluster s → Move β ρ × Cluster s) (place : Nat)
    (visit : Visit s β ρ) (c : Cluster s) : Move (Visit s β ρ) ρ × Cluster s :=
  match visit with
  | entering stage b =>
    match stage.step client place c with
    | (.wait, c) => (.wait, c)
    | (.next stage, c) => (.next (entering stage b), c)
    | (.finish (.ok _), c) => (.next (inside b), c)
    | (.finish (.error fault), c) => (.finish (.error fault), c)
  | inside b =>
    match body b c with
    | (.wait, c) => (.wait, c)
    | (.next b, c) => (.next (inside b), c)
    | (.finish (.error .overflow), c) => (.finish overflowed, c)
    | (.finish outcome, c) => (.next (leaving .start outcome), c)
  | leaving stage outcome =>
    match stage.step client c with
    | (.wait, c) => (.wait, c)
    | (.next stage, c) => (.next (leaving stage outcome), c)
    | (.finish (.error .overflow), c) => (.finish overflowed, c)
    | (.finish left, c) => (.finish (result outcome left), c)

/-- The part that moves first. -/
def choice (c : Cluster s) : Visit s β ρ → Nat
  | entering stage _ => stage.choice c
  | _ => 0

/-- The caller hangs up. -/
def hangUp (c : Cluster s) : Visit s β ρ → Cluster s
  | entering stage _ => stage.hangUp c
  | _ => c

/-- How many moves are left at most, given that of the body. -/
def cost (client : Client s) (body : β → Nat) : Visit s β ρ → Nat
  | entering stage b => stage.cost client + body b + 3
  | inside b => body b + 3
  | leaving stage _ => stage.cost

end Visit

/-! ## What is done inside -/

/-- Staying inside for a while and then ending in a given way. -/
inductive Stay
  | arriving (duration : UInt64) (ending : Outcome Int)
  | staying (deadline : Int) (ending : Outcome Int)

namespace Stay

/-- **Stays inside** until the time is over. -/
def step (stay : Stay) (c : Cluster s) : Move Stay Int × Cluster s :=
  match stay with
  | arriving duration ending => (.next (staying (c.after duration) ending), c)
  | staying deadline ending => (if c.reached deadline then .finish ending else .wait, c)

/-- When a wait ends. -/
def deadline? : Stay → Option Int
  | arriving .. => none
  | staying deadline _ => some deadline

/-- How many moves are left at most. -/
def cost : Stay → Nat
  | arriving .. => 2
  | staying .. => 1

end Stay

/-- Staying inside for a while with a record in the log of the process at either end. -/
inductive LoggedStay
  | arriving (writer : LogWriter) (duration : UInt64)
  | staying (writer : LogWriter) (deadline : Int)

namespace LoggedStay

/-- Writes an event at the time the clock of a client shows. -/
def record (client : Client s) (writer : LogWriter) (kind : EventKind) (c : Cluster s) :
    Outcome LogWriter × Cluster s :=
  match client.reading c with
  | .error fault => (.error fault, c)
  | .ok time =>
    (.ok (writer.record c.files kind time).1,
      { c with files := (writer.record c.files kind time).2 })

/-- **Stays inside** until the time is over, and logs the entry before and the exit after. -/
def step (client : Client s) (stay : LoggedStay) (c : Cluster s) :
    Move LoggedStay LogWriter × Cluster s :=
  match stay with
  | arriving writer duration =>
    match record client writer .enter c with
    | (.ok writer, c) => (.next (staying writer (c.after duration)), c)
    | (.error fault, c) => (.finish (.error fault), c)
  | staying writer deadline =>
    if c.reached deadline then
      match record client writer .exit c with
      | (outcome, c) => (.finish outcome, c)
    else (.wait, c)

/-- When a wait ends. -/
def deadline? : LoggedStay → Option Int
  | arriving .. => none
  | staying _ deadline => some deadline

/-- How many moves are left at most. -/
def cost : LoggedStay → Nat
  | arriving .. => 2
  | staying .. => 1

end LoggedStay

end CriticalSection
