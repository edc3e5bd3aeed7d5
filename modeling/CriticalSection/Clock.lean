import CriticalSection.Error

/-!
# Logical clocks

A clock counts events. It moves on by one at each event of its own process (`tick`), and past
every time it hears of (`observe`), so whatever happened before an event has a smaller time. The
count is a 64-bit word: hearing of a time near its end stops at the last one, while ticking past
the end is a fault and leaves the clock at zero.
-/

set_option autoImplicit false

namespace CriticalSection

/-- A logical clock, showing the time of the latest event. -/
structure Clock where
  time : UInt64
  deriving DecidableEq, Repr

namespace Clock

/-- A clock that has seen nothing yet shows one. -/
def initial : Clock := ⟨1⟩

/-- The last time a clock can show. -/
def last : UInt64 := 0xFFFFFFFFFFFFFFFF

/-- **A local event**: the clock moves on by one and that is the time of the event. From the last
time the word starts again at zero and the event has no time. -/
def tick (c : Clock) : Outcome UInt64 × Clock :=
  (if c.time = last then overflowed else .ok (c.time + 1), ⟨c.time + 1⟩)

/-- **Hearing of a time**: the clock moves one past the later of its own time and the one heard
of, and stays at the last time when there is none beyond. -/
def observe (c : Clock) (heard : UInt64) : Clock :=
  let later := if c.time < heard then heard else c.time
  ⟨if later = last then last else later + 1⟩

end Clock

/-! ## Wall clocks that are set by hand -/

/-- The sum of two 64-bit times, if it is one. -/
def Time.sum? (a b : Int64) : Option Int64 :=
  let sum := a.toInt + b.toInt
  if Int64.minValue.toInt ≤ sum ∧ sum ≤ Int64.maxValue.toInt then some (Int64.ofInt sum) else none

/-- The difference of two 64-bit times, if it is one. -/
def Time.difference? (a b : Int64) : Option Int64 :=
  let difference := a.toInt - b.toInt
  if Int64.minValue.toInt ≤ difference ∧ difference ≤ Int64.maxValue.toInt then
    some (Int64.ofInt difference)
  else none

/-- A wall clock in milliseconds that only moves when it is told to. -/
structure ManualClock where
  now : Int64
  deriving DecidableEq, Repr

namespace ManualClock

/-- Sets the clock. -/
def set (_ : ManualClock) (time : Int64) : ManualClock := ⟨time⟩

/-- Moves the clock by a number of milliseconds and reads it. Past either end of the range the word
starts again at the other end and there is nothing to read. -/
def advance (c : ManualClock) (step : Int64) : Outcome Int64 × ManualClock :=
  (match Time.sum? c.now step with
    | some time => .ok time
    | none => overflowed, ⟨c.now + step⟩)

end ManualClock

end CriticalSection
