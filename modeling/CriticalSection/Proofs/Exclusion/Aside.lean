import CriticalSection.Proofs.FanOut
import CriticalSection.Proofs.Exclusion.Party

/-!
# What has nothing to do with the records

A cluster of a party is **settled** when the records of its processes are where the routers look
for them. Routers that ask anew, arrivals at barriers and the files that are written are **aside**:
they keep a cluster settled, every record as it is, and whatever has been granted.
-/

set_option autoImplicit false

namespace CriticalSection

variable {s : Extent}

/-! ## Settled clusters -/

/-- **A settled cluster**: the processes of the party have records at their homes and nowhere else,
the tables of routers say so, and coordinators are orderly. -/
structure Party.Settled (party : Party s) (c : Cluster s) : Prop where
  hosted : ∀ (p : ProcessId) (b : Fin s.brokers),
    ((c.coordinator b).records[p]?).isSome ↔ p ∈ party.processes ∧ b = party.host p
  routed : ∀ p ∈ party.processes, ∀ (r : Fin s.routers) (b : Fin s.brokers),
    (c.routers.get r).table[p]? = some b → b = party.host p
  orderly : ∀ b, (c.coordinator b).Orderly

namespace Party

variable {party : Party s} {c c' c'' : Cluster s} {p q : ProcessId}

theorem Settled.getElem?_records (h : party.Settled c) (hp : p ∈ party.processes) :
    (c.coordinator (party.host p)).records[p]? = some (party.record c p) := by
  obtain ⟨r, hr⟩ := Option.isSome_iff_exists.mp ((h.hosted p _).mpr ⟨hp, rfl⟩)
  simp [record, hr]

/-- A cluster stays settled when one coordinator changes into an orderly one that hosts the same
processes. -/
theorem Settled.withCoordinator (h : party.Settled c) {b : Fin s.brokers} {k : Coordinator}
    (horderly : k.Orderly)
    (hrecords : ∀ q : ProcessId, (k.records[q]?).isSome = ((c.coordinator b).records[q]?).isSome) :
    party.Settled (c.withCoordinator b k) := by
  refine ⟨fun p b' => ?_, h.routed, fun b' => ?_⟩
  · rw [Cluster.coordinator_withCoordinator]
    split
    · next heq =>
        subst heq
        rw [hrecords]
        exact h.hosted p b'
    · exact h.hosted p b'
  · rw [Cluster.coordinator_withCoordinator]
    split
    · exact horderly
    · exact h.orderly b'

/-! ## What is aside -/

/-- **A change aside** keeps all records, whatever has been granted, and a settled cluster
settled. -/
structure Aside (party : Party s) (c c' : Cluster s) : Prop where
  settled : party.Settled c → party.Settled c'
  records : ∀ (b : Fin s.brokers) (q : ProcessId),
    (c'.coordinator b).records[q]? = (c.coordinator b).records[q]?
  granted : ∀ (b : Fin s.brokers) (n : Nat),
    (c.coordinator b).answers[n]? = some .granted → (c'.coordinator b).answers[n]? = some .granted

theorem Aside.refl (party : Party s) (c : Cluster s) : party.Aside c c :=
  ⟨id, fun _ _ => rfl, fun _ _ => id⟩

theorem Aside.trans (h : party.Aside c c') (h' : party.Aside c' c'') : party.Aside c c'' :=
  ⟨fun hs => h'.settled (h.settled hs), fun b q => (h'.records b q).trans (h.records b q),
    fun b n hn => h'.granted b n (h.granted b n hn)⟩

theorem Aside.record (h : party.Aside c c') (p : ProcessId) :
    party.record c' p = party.record c p := by
  unfold Party.record
  rw [h.records]

/-- What leaves all coordinators and routers alone is aside. -/
theorem Aside.of_eq (party : Party s)
    (hcoordinator : ∀ b, c'.coordinator b = c.coordinator b)
    (hrouters : c'.routers = c.routers) : party.Aside c c' := by
  refine ⟨fun h => ⟨?_, ?_, ?_⟩, ?_, ?_⟩
  · intro p b
    rw [hcoordinator]
    exact h.hosted p b
  · intro p hp r b
    rw [hrouters]
    exact h.routed p hp r b
  · intro b
    rw [hcoordinator]
    exact h.orderly b
  · intro b q
    rw [hcoordinator]
  · intro b n hn
    rw [hcoordinator]
    exact hn

/-- A coordinator may do what keeps it orderly, all its records and whatever it has granted. -/
theorem Aside.withCoordinator (party : Party s) (c : Cluster s) {b : Fin s.brokers}
    {k : Coordinator} (horderly : (c.coordinator b).Orderly → k.Orderly)
    (hrecords : ∀ q : ProcessId, k.records[q]? = (c.coordinator b).records[q]?)
    (hgranted : ∀ n : Nat, (c.coordinator b).answers[n]? = some .granted →
      k.answers[n]? = some .granted) : party.Aside c (c.withCoordinator b k) := by
  refine ⟨fun h => h.withCoordinator (horderly (h.orderly b)) fun q => by rw [hrecords], ?_, ?_⟩
  · intro b' q
    rw [Cluster.coordinator_withCoordinator]
    split
    · next heq =>
        subst heq
        exact hrecords q
    · rfl
  · intro b' n hn
    rw [Cluster.coordinator_withCoordinator]
    split
    · next heq =>
        subst heq
        exact hgranted n hn
    · exact hn

/-! ### Routers -/

/-- A router that asks all its brokers is aside: what they list is where the processes are at
home. -/
theorem aside_refresh (party : Party s) (c : Cluster s) (r : Fin s.routers) :
    party.Aside c (c.refresh r) := by
  refine ⟨fun h => ⟨h.hosted, ?_, h.orderly⟩, fun _ _ => rfl, fun _ _ => id⟩
  intro p hp r' b htable
  rw [Cluster.routers_refresh] at htable
  split at htable
  -- The new table is made from what the brokers list, and they list whom they host.
  · exact ((h.hosted p b).mp (Router.lists_of_refresh htable).2).2
  · exact h.routed p hp r' b htable

/-- Looking for a process is aside. -/
theorem aside_route (party : Party s) (c : Cluster s) (r : Fin s.routers) (p : ProcessId) :
    party.Aside c (c.route r p).2 := by
  rw [Cluster.route_eq]
  split
  · exact Aside.refl party c
  · exact aside_refresh party c r

/-- **A router finds a process at its home**, if it finds it. -/
theorem Settled.host_of_route (h : party.Settled c) (hp : p ∈ party.processes)
    {r : Fin s.routers} {b : Fin s.brokers} (hroute : (c.route r p).1 = some b) :
    b = party.host p := by
  unfold Cluster.route Router.route at hroute
  cases htable : (c.routers.get r).table[p]? with
  | some b' =>
      rw [htable] at hroute
      obtain rfl := Option.some.inj hroute
      exact h.routed p hp r b' htable
  | none =>
      rw [htable] at hroute
      exact ((h.hosted p b).mp (Router.lists_of_refresh hroute).2).2

/-- A client that looks for a process is aside, and finds it at its home. -/
theorem aside_clientRoute (party : Party s) (client : Client s) (p : ProcessId) (c : Cluster s) :
    party.Aside c (client.route p c).2 := by
  rw [Client.route_eq]
  split <;> exact aside_route party c client.router p

theorem Settled.host_of_clientRoute (h : party.Settled c) (hp : p ∈ party.processes)
    {client : Client s} {b : Fin s.brokers} (hroute : client.route p c = (.ok b, c')) :
    b = party.host p := by
  rw [Client.route_eq] at hroute
  split at hroute
  · next b' heq =>
      obtain rfl := Except.ok.inj (Prod.mk.inj hroute).1
      exact h.host_of_route hp heq
  · cases (Prod.mk.inj hroute).1

end Party

/-! ### Barriers -/

/-- Whether all parts of a fan-out that are parked wait at barriers. -/
def FanOut.AtBarriers (fan : FanOut s) : Prop :=
  ∀ e ∈ fan.parts, ∀ b t, e.2 = .parked b t → ∃ phase owner, t.place = .barrier phase owner

theorem FanOut.atBarriers_start (client : Client s) (processes : List ProcessId) :
    (FanOut.start client processes).AtBarriers := by
  intro e he b t heq
  obtain ⟨p, -, rfl⟩ := List.mem_map.mp he
  cases heq

theorem FanOut.AtBarriers.set {fan : FanOut s} (h : fan.AtBarriers) (place : Nat) {p : ProcessId}
    {part : Part s}
    (hpart : ∀ b t, part = .parked b t → ∃ phase owner, t.place = .barrier phase owner) :
    { fan with parts := fan.parts.set place (p, part) }.AtBarriers := by
  intro e he b t heq
  rcases List.mem_or_eq_of_mem_set he with he | rfl
  · exact h e he b t heq
  · exact hpart b t heq

namespace Party

variable {party : Party s} {c c' : Cluster s}

/-- Callers that wait at barriers hang up aside. -/
theorem aside_hangUp (party : Party s) {fan : FanOut s} (h : fan.AtBarriers) (c : Cluster s) :
    party.Aside c (fan.hangUp c) := by
  refine FanOut.hangUp_induct (party.Aside c ·) (.refl party c) fun e he c' hc' => hc'.trans ?_
  rcases hpart : e.2 with _ | _ | ⟨b, t⟩ | _ | _
  case parked =>
      obtain ⟨phase, owner, hplace⟩ := h e he b t hpart
      refine Aside.withCoordinator party c' (fun ho => ho.hangUp t) ?_ ?_
      · intro q
        rw [← Cluster.coordinator, Coordinator.records_hangUp, hplace, if_neg (by simp)]
      · intro n hn
        rw [← Cluster.coordinator, Coordinator.answers_hangUp]
        exact hn
  all_goals exact .refl party c'

/-- An arrival at a barrier is aside. -/
theorem aside_rendezvous (party : Party s) (c : Cluster s) (b : Fin s.brokers) (client : Client s)
    (phase : Phase) (owner : ProcessId) :
    party.Aside c (c.request b (LineUp.question client phase owner)).2 := by
  rw [Cluster.request_eq]
  split
  · exact .refl party c
  · refine Aside.withCoordinator party c
      (fun ho => ho.rendezvous phase owner client.process) ?_ ?_
    · intro q
      rw [LineUp.question, Coordinator.records_rendezvous]
    · exact fun n hn => Coordinator.granted_rendezvous hn phase owner client.process

/-- Who is parked at a barrier gets a ticket for it. -/
theorem place_of_rendezvous {b : Fin s.brokers} {client : Client s} {phase : Phase}
    {owner : ProcessId} {t : Ticket}
    (h : c.request b (LineUp.question client phase owner) = (.parked t, c')) :
    t.place = .barrier phase owner := by
  rw [Cluster.request_eq] at h
  split at h
  · cases (Prod.mk.inj h).1
  · have hreaction := (Prod.mk.inj h).1
    unfold LineUp.question Coordinator.rendezvous at hreaction
    dsimp only at hreaction
    split at hreaction <;> cases hreaction
    rfl

/-- A part of a fan-out to barriers moves aside, and is only parked at a barrier. -/
theorem aside_partStep (party : Party s) {client : Client s} {phase : Phase} {p : ProcessId}
    {part part' : Part s}
    (h : part.step client (LineUp.question client phase) p c = (some part', c')) :
    party.Aside c c' ∧
      ∀ b t, part' = .parked b t → ∃ phase owner, t.place = .barrier phase owner := by
  rcases Part.step_cases h with ⟨-, ⟨b, hroute, rfl⟩ | ⟨fault, hroute, rfl⟩⟩ |
    ⟨b, -, ⟨t, hrequest, rfl⟩ | ⟨outcome, hrequest, rfl⟩⟩ | ⟨b, t, outcome, -, -, rfl, rfl⟩
  · have haside := aside_clientRoute party client p c
    rw [hroute] at haside
    exact ⟨haside, by simp⟩
  · have haside := aside_clientRoute party client p c
    rw [hroute] at haside
    exact ⟨haside, by simp⟩
  · have haside := aside_rendezvous party c b client phase p
    rw [hrequest] at haside
    refine ⟨haside, fun b' t' heq => ?_⟩
    obtain ⟨rfl, rfl⟩ := Part.parked.inj heq
    exact ⟨phase, p, place_of_rendezvous hrequest⟩
  · have haside := aside_rendezvous party c b client phase p
    rw [hrequest] at haside
    exact ⟨haside, fun b' t heq => absurd heq (Part.ofOutcome_ne_parked outcome b' t)⟩
  · exact ⟨.refl party c', fun b' t heq => absurd heq (Part.ofOutcome_ne_parked outcome b' t)⟩

/-- **Lining up** is aside. -/
theorem aside_lineUp (party : Party s) {client : Client s} {place : Nat} {l : LineUp s}
    (hl : l.fan.AtBarriers) {move : Move (LineUp s) Unit}
    (h : l.step client place c = (move, c')) :
    party.Aside c c' ∧ ∀ l', move = .next l' → l'.fan.AtBarriers := by
  unfold LineUp.step at h
  split at h
  -- The token of the call has been cancelled.
  · obtain ⟨rfl, rfl⟩ := Prod.mk.inj h
    exact ⟨aside_hangUp party hl c, by simp⟩
  · rcases hstep : l.fan.step client (LineUp.question client l.phase) place c with ⟨m, c₁⟩
    rw [hstep] at h
    rcases FanOut.step_cases hstep with
      ⟨rfl, rfl⟩ | ⟨-, rfl, rfl⟩ | ⟨p, part, part', c₂, hpart, hpartStep, hproceed⟩
    · obtain ⟨rfl, rfl⟩ := Prod.mk.inj h
      exact ⟨.refl party c₁, by simp⟩
    · obtain ⟨rfl, rfl⟩ := Prod.mk.inj h
      exact ⟨.refl party c₁, by simp⟩
    · obtain ⟨haside, hparked⟩ := aside_partStep party hpartStep
      have hset := hl.set place (p := p) hparked
      -- The line ends, at which all parts hang up, or it goes on.
      rcases FanOut.proceed_cases hproceed with ⟨outcome, -, rfl, rfl⟩ | ⟨-, rfl, rfl⟩
      · obtain ⟨rfl, rfl⟩ := Prod.mk.inj h
        exact ⟨haside.trans (aside_hangUp party hset c₂), by simp⟩
      · obtain ⟨rfl, rfl⟩ := Prod.mk.inj h
        refine ⟨haside, fun l' heq => ?_⟩
        obtain rfl := Move.next.inj heq
        exact hset

/-- Waiting for peers is aside. -/
theorem aside_awaitPeers (party : Party s) (client : Client s) (pause : UInt64)
    (attempts : UInt32) (stage : AwaitPeers) (c : Cluster s) :
    party.Aside c (stage.step client pause attempts c).2 := by
  unfold AwaitPeers.step
  split
  · exact .refl party c
  · next pass p left =>
      have haside := aside_route party c client.router p
      split
      · next b c₁ heq =>
          rw [heq] at haside
          exact haside
      · next c₁ heq =>
          rw [heq] at haside
          split <;> exact haside
  · split
    · exact .refl party c
    · split <;> exact .refl party c

end Party

end CriticalSection
