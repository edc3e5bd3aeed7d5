import Std.Data.TreeMap
import CriticalSection.Cluster.Broker

/-!
# Routers

A router knows some brokers and keeps a table of the processes they host. The table is empty at
first. A process that is not in it makes the router ask all its brokers anew; the new table
replaces the old one.
-/

set_option autoImplicit false

namespace CriticalSection

/-- A router among `n` brokers. -/
structure Router (n : Nat) where
  /-- The brokers it asks, in order. -/
  brokers : List (Fin n)
  /-- The broker of each process it has heard of. -/
  table : Std.TreeMap ProcessId (Fin n)

namespace Router

variable {n : Nat}

/-- A router that has not asked yet. -/
def new (brokers : List (Fin n)) : Router n := ⟨brokers, ∅⟩

/-- A table with the processes that one more broker lists. -/
def addListing (brokers : Vector Broker n) (table : Std.TreeMap ProcessId (Fin n)) (b : Fin n) :
    Std.TreeMap ProcessId (Fin n) :=
  match (brokers.get b).listing? with
  | none => table
  | some listing => listing.foldl (fun table p => table.insert p b) table

/-- **Asks all brokers** which processes they host. Those that fail are left out; a process listed
by several is taken to be at the last of them. -/
def refresh (r : Router n) (brokers : Vector Broker n) : Router n :=
  { r with table := r.brokers.foldl (addListing brokers) ∅ }

/-- The number of processes a router knows. -/
def known (r : Router n) : Nat := r.table.size

/-- **The broker of a process**, after asking all brokers once if it is not in the table. -/
def route (r : Router n) (brokers : Vector Broker n) (p : ProcessId) :
    Option (Fin n) × Router n :=
  match r.table[p]? with
  | some b => (some b, r)
  | none => ((r.refresh brokers).table[p]?, r.refresh brokers)

end Router

end CriticalSection
