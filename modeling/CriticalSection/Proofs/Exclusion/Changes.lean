import CriticalSection.Proofs.Exclusion.Aside

/-!
# What clients do to the records

Towards the section a client does one of four things: it announces its request, it goes inside, it
leaves, or it asks another process. Each of them changes one record, at the home of its process.
A client that gives up also takes its requests from the queues of the other records.
-/

set_option autoImplicit false

namespace CriticalSection

variable {s : Extent}

namespace Party

variable {party : Party s} {c c' : Cluster s} {p q owner : ProcessId}

/-! ## Changes of one record -/

/-- A coordinator that has become `k`, in which the record of one process has changed by `g`. -/
def Changes (k₀ k : Coordinator) (owner : ProcessId) (g : Record → Record) : Prop :=
  ∀ q : ProcessId,
    k.records[q]? = if q = owner then (k₀.records[q]?).map g else k₀.records[q]?

variable {k : Coordinator} {g : Record → Record}

theorem Settled.record_of_changes (h : party.Settled c) (howner : owner ∈ party.processes)
    (hk : Changes (c.coordinator (party.host owner)) k owner g) (q : ProcessId) :
    party.record (c.withCoordinator (party.host owner) k) q =
      if q = owner then g (party.record c q) else party.record c q := by
  unfold record
  rw [Cluster.coordinator_withCoordinator]
  by_cases hq : q = owner
  · subst hq
    rw [if_pos rfl, if_pos rfl, hk, if_pos rfl, h.getElem?_records howner]
    rfl
  · rw [if_neg hq]
    split
    · next heq => rw [hk, if_neg hq, heq]
    · rfl

theorem Settled.of_changes (h : party.Settled c)
    (hk : Changes (c.coordinator (party.host owner)) k owner g) (horderly : k.Orderly) :
    party.Settled (c.withCoordinator (party.host owner) k) := by
  refine h.withCoordinator horderly fun q => ?_
  rw [hk]
  split
  · exact Option.isSome_map
  · rfl

/-! ## Announcing, entering, leaving and asking -/

/-- The cluster after a process has announced that it wants to enter. -/
def announce (party : Party s) (c : Cluster s) (p : ProcessId) : Cluster s :=
  c.withCoordinator (party.host p) ((c.coordinator (party.host p)).announce p).2

/-- The cluster after a process has gone inside. -/
def enter (party : Party s) (c : Cluster s) (p : ProcessId) : Cluster s :=
  c.withCoordinator (party.host p) ((c.coordinator (party.host p)).enter p).2

/-- The cluster after a process has left or withdrawn its request. -/
def leave (party : Party s) (c : Cluster s) (p : ProcessId) : Cluster s :=
  c.withCoordinator (party.host p) ((c.coordinator (party.host p)).leave p).2

/-- The cluster after a process has asked another one, `q`, for permission. -/
def ask (party : Party s) (c : Cluster s) (p q : ProcessId) : Cluster s :=
  c.withCoordinator (party.host q) ((c.coordinator (party.host q)).request q (party.stamp c p)).2

theorem changes_announce (k : Coordinator) (p : ProcessId) :
    Changes k (k.announce p).2 p fun r => r.announce.2 := k.records_announce p

theorem changes_enter (k : Coordinator) (p : ProcessId) : Changes k (k.enter p).2 p Record.enter :=
  k.records_enter p

theorem changes_leave (k : Coordinator) (p : ProcessId) :
    Changes k (k.leave p).2 p fun r => r.leave.2 := k.records_leave p

theorem changes_request (k : Coordinator) (owner : ProcessId) (request : Stamp) :
    Changes k (k.request owner request).2 owner fun r => r.ask owner k.issued request :=
  fun q => k.records_request owner q request

theorem changes_hangUp (k : Coordinator) {t : Ticket} (hplace : t.place = .record owner) :
    Changes k (k.hangUp t) owner fun r => r.drop t.number := by
  intro q
  rw [Coordinator.records_hangUp, hplace]
  simp only [Place.record.injEq, eq_comm]

section Settled

variable (h : party.Settled c) (hp : p ∈ party.processes)

include h hp

theorem Settled.record_announce (q : ProcessId) : party.record (party.announce c p) q =
    if q = p then (party.record c q).announce.2 else party.record c q :=
  h.record_of_changes hp (changes_announce _ p) q

theorem Settled.record_enter (q : ProcessId) : party.record (party.enter c p) q =
    if q = p then (party.record c q).enter else party.record c q :=
  h.record_of_changes hp (changes_enter _ p) q

theorem Settled.record_leave (q : ProcessId) : party.record (party.leave c p) q =
    if q = p then (party.record c q).leave.2 else party.record c q :=
  h.record_of_changes hp (changes_leave _ p) q

omit hp in
theorem Settled.record_ask (hq : q ∈ party.processes) (q' : ProcessId) :
    party.record (party.ask c p q) q' =
      if q' = q then
        (party.record c q').ask q (c.coordinator (party.host q)).issued (party.stamp c p)
      else party.record c q' :=
  h.record_of_changes hq (changes_request _ q _) q'

omit hp in
theorem Settled.announce : party.Settled (party.announce c p) :=
  h.of_changes (changes_announce _ p) ((h.orderly _).announce p)

omit hp in
theorem Settled.enter : party.Settled (party.enter c p) :=
  h.of_changes (changes_enter _ p) ((h.orderly _).enter p)

theorem Settled.leave (hlast : (party.record c p).clock.time ≠ Clock.last) :
    party.Settled (party.leave c p) :=
  h.of_changes (changes_leave _ p) ((h.orderly _).leave (h.getElem?_records hp) hlast)

omit hp in
theorem Settled.ask (q : ProcessId) : party.Settled (party.ask c p q) :=
  h.of_changes (changes_request _ q _) ((h.orderly _).request q _)

/-! ### The calls -/

/-- **A call at home** fails only while the broker is out of reach. -/
theorem Settled.call_announce (hlast : (party.record c p).clock.time ≠ Clock.last) :
    (c.call (party.host p) fun k => k.announce p) = match (c.brokers.get (party.host p)).outage with
      | some e => (fail e, c)
      | none => (.ok ((party.record c p).clock.time + 1), party.announce c p) := by
  rw [Cluster.call_eq]
  cases (c.brokers.get (party.host p)).outage with
  | some e => rfl
  | none =>
      simp only [Party.announce, Coordinator.announce, h.getElem?_records hp,
        Record.announce_of_ne_last hlast]

theorem Settled.call_enter :
    (c.call (party.host p) fun k => k.enter p) = match (c.brokers.get (party.host p)).outage with
      | some e => (fail e, c)
      | none => (.ok (), party.enter c p) := by
  rw [Cluster.call_eq]
  cases (c.brokers.get (party.host p)).outage with
  | some e => rfl
  | none =>
      simp only [Party.enter, Coordinator.enter, h.getElem?_records hp]

theorem Settled.call_leave (hlast : (party.record c p).clock.time ≠ Clock.last) :
    (c.call (party.host p) fun k => k.leave p) = match (c.brokers.get (party.host p)).outage with
      | some e => (fail e, c)
      | none => (.ok (), party.leave c p) := by
  rw [Cluster.call_eq]
  cases (c.brokers.get (party.host p)).outage with
  | some e => rfl
  | none =>
      simp only [Party.leave, Coordinator.leave, h.getElem?_records hp,
        Record.leave_of_ne_last hlast]

omit hp in
/-- **A request** is granted or parked as the record of the other process has it. -/
theorem Settled.request_ask (hq : q ∈ party.processes) :
    (c.request (party.host q) fun k => k.request q (party.stamp c p)) =
      match (c.brokers.get (party.host q)).outage with
      | some e => (.answered (fail e), c)
      | none =>
        (if (party.record c q).defers q (party.stamp c p) then
            .parked ⟨.record q, (c.coordinator (party.host q)).issued⟩
          else .answered (.ok ()), party.ask c p q) := by
  rw [Cluster.request_eq]
  cases (c.brokers.get (party.host q)).outage with
  | some e => rfl
  | none =>
      refine Prod.ext ?_ rfl
      simp only [Coordinator.request, h.getElem?_records hq]
      split <;> rfl

end Settled

end Party

end CriticalSection
