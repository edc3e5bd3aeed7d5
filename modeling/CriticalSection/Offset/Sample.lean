import CriticalSection.Clock
import CriticalSection.Quantity

/-!
# Clock samples

Two clocks are compared by an exchange: the local clock is read when a question leaves, the remote
clock when it arrives and when the answer leaves, and the local clock again when the answer
arrives. The exchange tells how long the two ways took together (the delay) and how far the remote
clock is ahead (the offset), the latter up to half the delay. Of several samples the one with the
smallest delay is the best.
-/

set_option autoImplicit false

namespace CriticalSection

/-- The four clock readings of an exchange, in the order in which they are taken. -/
structure Exchange where
  sent : Int64
  received : Int64
  answered : Int64
  returned : Int64
  deriving DecidableEq, Repr

/-- What an exchange tells, in milliseconds. -/
structure Sample (α : Type) where
  delay : α
  offset : α
  deriving DecidableEq, Repr

namespace Sample

variable {α : Type} [Quantity α]

/-- **The sample of an exchange**: the delay is the time on both ways, and not below zero; the
offset is half of what the way there seems to take longer than the way back. -/
def ofExchange (e : Exchange) : Outcome (Sample α) :=
  match Time.difference? e.received e.sent, Time.difference? e.returned e.answered with
  | some there, some back =>
    let there : α := Quantity.ofInt there.toInt
    let back : α := Quantity.ofInt back.toInt
    .ok ⟨Quantity.larger (there + back) (Quantity.ofInt 0), Quantity.half (there - back)⟩
  | _, _ => overflowed

/-- **The margin of a sample**: by how much its offset can be wrong. -/
def margin (s : Sample α) : α := Quantity.half s.delay

/-- The later of two samples, if its delay is smaller, and otherwise the earlier one. -/
def better (earlier later : Sample α) : Sample α :=
  if Quantity.less later.delay earlier.delay then later else earlier

/-- **The best of some samples**: the first one with the smallest delay. -/
def best? : List (Sample α) → Option (Sample α)
  | [] => none
  | sample :: rest => some (rest.foldl better sample)

end Sample

end CriticalSection
