import CriticalSection.Cluster.State
import CriticalSection.Proofs.Coordinator

/-!
# What calls do to a cluster

A call to a broker reaches the coordinator behind it, unless the broker is out of reach, and leaves
all other coordinators alone. A router that looks for a process changes nothing but its own table,
which afterwards names a broker that lists the process.
-/

set_option autoImplicit false

namespace CriticalSection

/-! ## Vectors -/

section Vectors

variable {α : Type} {n : Nat}

@[simp] theorem Vector.get_ofFn (f : Fin n → α) (i : Fin n) : (Vector.ofFn f).get i = f i :=
  Vector.getElem_ofFn i.isLt

@[simp] theorem Vector.get_replicate (x : α) (i : Fin n) : (Vector.replicate n x).get i = x :=
  Vector.getElem_replicate i.isLt

theorem Vector.get_set (v : Vector α n) (i j : Fin n) (x : α) :
    (v.set i x).get j = if j = i then x else v.get j := by
  show (v.set i x)[(j : Nat)] = _
  rw [Vector.getElem_set]
  simp only [Fin.ext_iff, eq_comm]
  rfl

theorem Vector.set_get_self (v : Vector α n) (i : Fin n) : v.set i (v.get i) = v :=
  Vector.set_getElem_self i.isLt

end Vectors

/-! ## Routers -/

/-- A broker lists a process when it is asked for its processes. -/
def Broker.Lists (b : Broker) (p : ProcessId) : Prop :=
  b.outage = none ∧ (b.coordinator.records[p]?).isSome

namespace Router

variable {n : Nat} {brokers : Vector Broker n} {p : ProcessId}

theorem addListing_of_lists {table : Std.TreeMap ProcessId (Fin n)} {b : Fin n}
    (h : (brokers.get b).Lists p) : (addListing brokers table b)[p]? = some b := by
  have hkeys : p ∈ (brokers.get b).coordinator.records.keys := by
    rw [Std.TreeMap.mem_keys, Std.TreeMap.mem_iff_isSome_getElem?]
    exact h.2
  simp only [addListing, Broker.listing?, h.1]
  rw [Table.getElem?_foldl_insert, if_pos hkeys]

theorem addListing_of_not_lists {table : Std.TreeMap ProcessId (Fin n)} {b : Fin n}
    (h : ¬ (brokers.get b).Lists p) : (addListing brokers table b)[p]? = table[p]? := by
  unfold addListing Broker.listing?
  cases hout : (brokers.get b).outage with
  | some e => rfl
  | none =>
      have hkeys : p ∉ (brokers.get b).coordinator.records.keys := by
        rw [Std.TreeMap.mem_keys, Std.TreeMap.mem_iff_isSome_getElem?]
        exact fun hsome => h ⟨hout, hsome⟩
      show (List.foldl _ _ _)[p]? = _
      rw [Table.getElem?_foldl_insert, if_neg hkeys]

/-- A table that has been filled from some brokers names one of them that lists the process, or it
says what it said before and none of them does. -/
theorem getElem?_foldl_addListing (brokers : Vector Broker n) (p : ProcessId)
    (list : List (Fin n)) (table : Std.TreeMap ProcessId (Fin n)) :
    (∃ b ∈ list, (brokers.get b).Lists p ∧ (list.foldl (addListing brokers) table)[p]? = some b) ∨
      (∀ b ∈ list, ¬ (brokers.get b).Lists p) ∧
        (list.foldl (addListing brokers) table)[p]? = table[p]? := by
  induction list generalizing table with
  | nil => exact Or.inr ⟨by simp, rfl⟩
  | cons b rest ih =>
      rw [List.foldl_cons]
      -- A later broker that lists the process counts, else this one, else the table as it was.
      rcases ih (addListing brokers table b) with ⟨b', hmem, hlists, heq⟩ | ⟨hnone, heq⟩
      · exact Or.inl ⟨b', List.mem_cons_of_mem _ hmem, hlists, heq⟩
      · by_cases hb : (brokers.get b).Lists p
        · exact Or.inl ⟨b, List.mem_cons_self, hb, heq.trans (addListing_of_lists hb)⟩
        · refine Or.inr ⟨?_, heq.trans (addListing_of_not_lists hb)⟩
          intro b' hmem
          rcases List.mem_cons.mp hmem with rfl | hmem
          · exact hb
          · exact hnone b' hmem

/-- **A refreshed table** names only brokers that list the process. -/
theorem lists_of_refresh {r : Router n} {b : Fin n} (h : (r.refresh brokers).table[p]? = some b) :
    (brokers.get b).Lists p := by
  rcases getElem?_foldl_addListing brokers p r.brokers ∅ with
    ⟨b', -, hlists, heq⟩ | ⟨-, heq⟩
  · obtain rfl : b' = b := Option.some.inj (heq.symm.trans h)
    exact hlists
  · rw [refresh, heq, Std.TreeMap.getElem?_emptyc] at h
    cases h

/-- A router that asks a broker which lists the process finds a broker for it. -/
theorem isSome_refresh {r : Router n} {b : Fin n} (hb : b ∈ r.brokers)
    (h : (brokers.get b).Lists p) :
    ((r.refresh brokers).table[p]?).isSome := by
  rcases getElem?_foldl_addListing brokers p r.brokers ∅ with
    ⟨b', -, -, heq⟩ | ⟨hnone, -⟩
  · rw [refresh, heq]
    rfl
  · exact absurd h (hnone b hb)

end Router

/-! ## Brokers -/

namespace Cluster

variable {s : Extent}

/-- The coordinator of a broker. -/
def coordinator (c : Cluster s) (b : Fin s.brokers) : Coordinator := (c.brokers.get b).coordinator

/-- With another state of the coordinator of a broker. -/
def withCoordinator (c : Cluster s) (b : Fin s.brokers) (k : Coordinator) : Cluster s :=
  c.withBroker b { c.brokers.get b with coordinator := k }

theorem brokers_withBroker (c : Cluster s) (b b' : Fin s.brokers) (broker : Broker) :
    ((c.withBroker b broker).brokers.get b') = if b' = b then broker else c.brokers.get b' :=
  Vector.get_set c.brokers b b' broker

theorem coordinator_withCoordinator (c : Cluster s) (b b' : Fin s.brokers) (k : Coordinator) :
    (c.withCoordinator b k).coordinator b' = if b' = b then k else c.coordinator b' := by
  unfold coordinator withCoordinator
  rw [brokers_withBroker]
  split <;> rfl

theorem withBroker_self (c : Cluster s) (b : Fin s.brokers) :
    c.withBroker b (c.brokers.get b) = c := by
  unfold withBroker
  rw [Vector.set_get_self]

/-- **A call that is answered at once** fails and changes nothing while the broker is out of reach,
and reaches the coordinator otherwise. -/
theorem call_eq {α : Type} (c : Cluster s) (b : Fin s.brokers)
    (f : Coordinator → Outcome α × Coordinator) :
    c.call b f = match (c.brokers.get b).outage with
      | some e => (fail e, c)
      | none => ((f (c.coordinator b)).1, c.withCoordinator b (f (c.coordinator b)).2) := by
  simp only [call, Broker.call, withCoordinator]
  cases (c.brokers.get b).outage with
  | some e => exact Prod.ext rfl (withBroker_self c b)
  | none => rfl

/-- **A call that may have to wait**, likewise. -/
theorem request_eq (c : Cluster s) (b : Fin s.brokers)
    (f : Coordinator → Reaction Unit × Coordinator) :
    c.request b f = match (c.brokers.get b).outage with
      | some e => (.answered (fail e), c)
      | none => ((f (c.coordinator b)).1, c.withCoordinator b (f (c.coordinator b)).2) := by
  simp only [request, Broker.request, withCoordinator]
  cases (c.brokers.get b).outage with
  | some e => exact Prod.ext rfl (withBroker_self c b)
  | none => rfl

theorem routers_refresh (c : Cluster s) (r r' : Fin s.routers) :
    ((c.refresh r).routers.get r') =
      if r' = r then (c.routers.get r).refresh c.brokers else c.routers.get r' :=
  Vector.get_set c.routers r r' _

/-- Whose ticket has no answer is told nothing. -/
theorem outcome?_of_unanswered {c : Cluster s} {b : Fin s.brokers} {t : Ticket}
    (h : (c.coordinator b).answers[t.number]? = none) : c.outcome? b t = none := by
  unfold outcome? Coordinator.outcome?
  rw [← coordinator, h]

/-- Who has been granted what it waits for is told so. -/
theorem outcome?_of_granted {c : Cluster s} {b : Fin s.brokers} {t : Ticket}
    (h : (c.coordinator b).answers[t.number]? = some .granted) :
    c.outcome? b t = some (.ok ()) := by
  unfold outcome? Coordinator.outcome?
  rw [← coordinator, h]

/-- Who is told that all is well has been granted what it waits for. -/
theorem granted_of_outcome? {c : Cluster s} {b : Fin s.brokers} {t : Ticket}
    (h : c.outcome? b t = some (.ok ())) :
    (c.coordinator b).answers[t.number]? = some .granted := by
  unfold outcome? Coordinator.outcome? at h
  rw [← coordinator] at h
  split at h
  · cases h
  · assumption
  · cases h

theorem hangUp_eq (c : Cluster s) (b : Fin s.brokers) (t : Ticket) :
    c.hangUp b t = c.withCoordinator b ((c.coordinator b).hangUp t) := rfl

end Cluster

theorem Move.exists_of_map_eq_next {σ τ ρ θ : Type} {move : Move σ ρ} {f : σ → τ} {g : ρ → θ}
    {next : τ} (h : move.map f g = .next next) : ∃ stage, move = .next stage ∧ next = f stage := by
  cases move with
  | next stage => exact ⟨stage, rfl, (Move.next.inj h).symm⟩
  | _ => cases h

end CriticalSection
