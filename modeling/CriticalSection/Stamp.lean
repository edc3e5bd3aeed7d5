import CriticalSection.Error

/-!
# Request stamps

A request for the critical section carries the logical time at which it was announced and the
process that announced it. Requests are ordered by time, and by process where the times agree, so
of two requests of different processes exactly one precedes the other.
-/

set_option autoImplicit false

namespace CriticalSection

/-- What identifies a request for the critical section. -/
structure Stamp where
  time : UInt64
  process : ProcessId
  deriving DecidableEq, Repr

/-- **Priority**: an earlier time goes first, and of equal times the smaller process. -/
def Stamp.precedes (a b : Stamp) : Bool :=
  a.time < b.time || (a.time == b.time && a.process < b.process)

end CriticalSection
