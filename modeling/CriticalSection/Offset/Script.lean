import CriticalSection.Offset.Estimate

/-!
# Prepared exchanges

A script holds what a local clock will show and what a peer will answer, in order, and counts how
often the peer is asked and how long is waited. With the last reading used up the clock stands
still; with the last answer used up the peer fails.
-/

set_option autoImplicit false

namespace CriticalSection

/-- Prepared clock readings and answers, and what has happened so far. -/
structure Script where
  /-- The readings to come. -/
  readings : List Int64
  /-- The reading the clock stays at when there is none to come. -/
  latest : Int64
  /-- The answers to come; none is a failure. -/
  answers : List (Option (Int64 × Int64))
  /-- How often the peer was asked. -/
  asked : Nat
  /-- How many milliseconds were waited. -/
  waited : Nat
  deriving DecidableEq, Repr

namespace Script

/-- A script at its start. A clock without readings shows zero. -/
def start (readings : List Int64) (answers : List (Option (Int64 × Int64))) : Script :=
  ⟨readings, 0, answers, 0, 0⟩

/-- The next clock reading. -/
def reading (s : Script) : Int64 × Script :=
  match s.readings with
  | [] => (s.latest, s)
  | time :: rest => (time, { s with readings := rest, latest := time })

/-- The next answer. -/
def answer (s : Script) : Option (Int64 × Int64) × Script :=
  match s.answers with
  | [] => (none, { s with asked := s.asked + 1 })
  | reply :: rest => (reply, { s with answers := rest, asked := s.asked + 1 })

/-- The peer that follows a script. -/
def peer (name : String) : Peer Script where
  name := name
  reading s := (.ok s.reading.1, s.reading.2)
  ask s :=
    (match s.answer.1 with
      | some pair => .ok pair
      | none => fail (.remote "no answer"), s.answer.2)
  pause time s := { s with waited := s.waited + time.toNat }

end Script

end CriticalSection
