import Std.Data.TreeMap
import CriticalSection.Offset.Estimate

/-!
# Margins

How far the times in a process's log may be from the true ones, in milliseconds: one number for
every process, and others for the processes that are named.
-/

set_option autoImplicit false

namespace CriticalSection

/-- The margin of every process. -/
structure Margins (α : Type) where
  /-- The margin of a process that has none of its own. -/
  standard : α
  /-- The processes with a margin of their own. -/
  own : Std.TreeMap ProcessId α

namespace Margins

variable {α : Type}

/-- The same margin for all. -/
def uniform (margin : α) : Margins α := ⟨margin, ∅⟩

/-- With a margin for one process; a later one replaces an earlier one. -/
def set (m : Margins α) (process : ProcessId) (margin : α) : Margins α :=
  { m with own := m.own.insert process margin }

/-- **The margin of a process.** -/
def get (m : Margins α) (process : ProcessId) : α := m.own.getD process m.standard

/-- **The margins that estimates give**: the margin of the estimate of a process, but never less
than the common one. -/
def ofEstimates [Quantity α] (standard : α) (estimates : List (ProcessId × Estimate α)) :
    Margins α :=
  estimates.foldl
    (fun m (process, estimate) => m.set process (Quantity.larger estimate.margin standard))
    (uniform standard)

end Margins

end CriticalSection
