import CriticalSection.Cluster.Calls
import CriticalSection.Proofs.Cluster

/-!
# The moves of a fan-out

A fan-out waits, ends well because all its parts have been answered, or moves one of its parts and
then goes on or ends, at which the parts that still wait hang up.
-/

set_option autoImplicit false

namespace CriticalSection

variable {s : Extent}

/-! ## What stays the same -/

/-- **The layout of a cluster** is which brokers are out of reach and which brokers the routers
know. Calls do not change it. -/
structure Cluster.SameLayout (c c' : Cluster s) : Prop where
  outage : ∀ b : Fin s.brokers, (c'.brokers.get b).outage = (c.brokers.get b).outage
  known : ∀ r : Fin s.routers, (c'.routers.get r).brokers = (c.routers.get r).brokers

/-- **What calls to coordinators keep**: the layout, the time and the files. -/
structure Cluster.Keeps (c c' : Cluster s) : Prop where
  layout : c.SameLayout c'
  now : c'.now = c.now
  files : c'.files = c.files

namespace Cluster

variable {c c' c'' : Cluster s}

theorem SameLayout.refl (c : Cluster s) : c.SameLayout c := ⟨fun _ => rfl, fun _ => rfl⟩

theorem SameLayout.trans (h : c.SameLayout c') (h' : c'.SameLayout c'') : c.SameLayout c'' :=
  ⟨fun b => (h'.outage b).trans (h.outage b), fun r => (h'.known r).trans (h.known r)⟩

theorem Keeps.refl (c : Cluster s) : c.Keeps c := ⟨.refl c, rfl, rfl⟩

theorem Keeps.trans (h : c.Keeps c') (h' : c'.Keeps c'') : c.Keeps c'' :=
  ⟨h.layout.trans h'.layout, h'.now.trans h.now, h'.files.trans h.files⟩

theorem keeps_withCoordinator (c : Cluster s) (b : Fin s.brokers) (k : Coordinator) :
    c.Keeps (c.withCoordinator b k) := by
  refine ⟨⟨fun b' => ?_, fun _ => rfl⟩, rfl, rfl⟩
  unfold withCoordinator
  rw [brokers_withBroker]
  split
  · next heq => rw [heq]
  · rfl

theorem keeps_refresh (c : Cluster s) (r : Fin s.routers) : c.Keeps (c.refresh r) := by
  refine ⟨⟨fun _ => rfl, fun r' => ?_⟩, rfl, rfl⟩
  rw [routers_refresh]
  split
  · next heq =>
      rw [heq]
      rfl
  · rfl

/-- A router that finds a process in its table does nothing, and otherwise asks anew. -/
theorem route_eq (c : Cluster s) (r : Fin s.routers) (p : ProcessId) :
    c.route r p = match (c.routers.get r).table[p]? with
      | some b => (some b, c)
      | none => (((c.refresh r).routers.get r).table[p]?, c.refresh r) := by
  simp only [route, Router.route, routers_refresh, if_true]
  cases (c.routers.get r).table[p]? with
  | some b =>
      rw [Vector.set_get_self]
  | none => rfl

theorem keeps_route (c : Cluster s) (r : Fin s.routers) (p : ProcessId) :
    c.Keeps (c.route r p).2 := by
  rw [route_eq]
  split
  · exact Keeps.refl c
  · exact keeps_refresh c r

theorem keeps_call {α : Type} (c : Cluster s) (b : Fin s.brokers)
    (f : Coordinator → Outcome α × Coordinator) : c.Keeps (c.call b f).2 := by
  rw [call_eq]
  split
  · exact Keeps.refl c
  · exact keeps_withCoordinator c b _

theorem keeps_request (c : Cluster s) (b : Fin s.brokers)
    (f : Coordinator → Reaction Unit × Coordinator) : c.Keeps (c.request b f).2 := by
  rw [request_eq]
  split
  · exact Keeps.refl c
  · exact keeps_withCoordinator c b _

end Cluster

/-- A client looks for a process through its router. -/
theorem Client.route_eq (client : Client s) (p : ProcessId) (c : Cluster s) :
    client.route p c = match (c.route client.router p).1 with
      | some b => (.ok b, (c.route client.router p).2)
      | none => (fail (.unroutable p), (c.route client.router p).2) := by
  unfold Client.route
  rcases c.route client.router p with ⟨_ | b, c'⟩ <;> rfl

theorem Client.keeps_route (client : Client s) (p : ProcessId) (c : Cluster s) :
    c.Keeps (client.route p c).2 := by
  rw [Client.route_eq]
  split <;> exact c.keeps_route _ _

/-! ## Parts -/

namespace Part

variable {client : Client s} {ask : Question} {p : ProcessId} {part part' : Part s}
  {c c' : Cluster s}

theorem step_none (h : part.step client ask p c = (none, c')) : c' = c := by
  cases part with
  | unrouted =>
      simp only [step] at h
      split at h <;> simp at h
  | routed b =>
      simp only [step] at h
      split at h <;> simp at h
  | parked b t => exact (Prod.mk.inj h).2.symm
  | answered => exact (Prod.mk.inj h).2.symm
  | failed fault => exact (Prod.mk.inj h).2.symm

/-- **The moves of a part**: it finds its broker, it asks there, or it takes the answer it has
waited for. -/
theorem step_cases (h : part.step client ask p c = (some part', c')) :
    (part = .unrouted ∧ ((∃ b, client.route p c = (.ok b, c') ∧ part' = .routed b) ∨
      ∃ fault, client.route p c = (.error fault, c') ∧ part' = .failed fault)) ∨
    (∃ b, part = .routed b ∧ ((∃ t, c.request b (ask p) = (.parked t, c') ∧ part' = .parked b t) ∨
      ∃ outcome, c.request b (ask p) = (.answered outcome, c') ∧ part' = ofOutcome outcome)) ∨
    ∃ b t outcome, part = .parked b t ∧ c.outcome? b t = some outcome ∧
      part' = ofOutcome outcome ∧ c' = c := by
  cases part with
  | unrouted =>
      simp only [step] at h
      split at h
      · next b c₁ heq =>
          obtain ⟨hpart, rfl⟩ := Prod.mk.inj h
          exact Or.inl ⟨rfl, Or.inl ⟨b, heq, (Option.some.inj hpart).symm⟩⟩
      · next fault c₁ heq =>
          obtain ⟨hpart, rfl⟩ := Prod.mk.inj h
          exact Or.inl ⟨rfl, Or.inr ⟨fault, heq, (Option.some.inj hpart).symm⟩⟩
  | routed b =>
      simp only [step] at h
      split at h
      · next t c₁ heq =>
          obtain ⟨hpart, rfl⟩ := Prod.mk.inj h
          exact Or.inr (Or.inl ⟨b, rfl, Or.inl ⟨t, heq, (Option.some.inj hpart).symm⟩⟩)
      · next outcome c₁ heq =>
          obtain ⟨hpart, rfl⟩ := Prod.mk.inj h
          exact Or.inr (Or.inl ⟨b, rfl, Or.inr ⟨outcome, heq, (Option.some.inj hpart).symm⟩⟩)
  | parked b t =>
      obtain ⟨hpart, rfl⟩ := Prod.mk.inj h
      obtain ⟨outcome, houtcome, rfl⟩ := Option.map_eq_some_iff.mp hpart
      exact Or.inr (Or.inr ⟨b, t, outcome, rfl, houtcome, rfl, rfl⟩)
  | answered => cases (Prod.mk.inj h).1
  | failed fault => cases (Prod.mk.inj h).1

theorem ofOutcome_ne_parked (outcome : Outcome Unit) (b : Fin s.brokers) (t : Ticket) :
    (ofOutcome outcome : Part s) ≠ .parked b t := by
  rcases outcome with fault | ⟨⟩ <;> simp [ofOutcome]

theorem keeps_step (client : Client s) (ask : Question) (p : ProcessId) (part : Part s)
    (c : Cluster s) : c.Keeps (part.step client ask p c).2 := by
  cases part with
  | unrouted =>
      have h := client.keeps_route p c
      simp only [step]
      split <;> simp_all
  | routed b =>
      have h := c.keeps_request b (ask p)
      simp only [step]
      split <;> simp_all
  | parked b t => exact .refl c
  | answered => exact .refl c
  | failed fault => exact .refl c

theorem keeps_hangUp (part : Part s) (c : Cluster s) : c.Keeps (part.hangUp c) := by
  cases part with
  | parked b t => exact c.keeps_withCoordinator b _
  | _ => exact .refl c

end Part

/-! ## Fan-outs -/

namespace FanOut

variable {client : Client s} {ask : Question} {place : Nat} {fan : FanOut s}
  {move : Move (FanOut s) Unit} {c c' : Cluster s}

/-- **What holds before all parts hang up** and is kept by each of them holds afterwards. -/
theorem hangUp_induct (P : Cluster s → Prop) (hstart : P c)
    (hpart : ∀ e ∈ fan.parts, ∀ c, P c → P (e.2.hangUp c)) : P (fan.hangUp c) := by
  unfold hangUp
  generalize fan.parts = parts at hpart
  induction parts generalizing c with
  | nil => exact hstart
  | cons e rest ih =>
      rw [List.foldl_cons]
      exact ih (hpart e List.mem_cons_self c hstart)
        fun e' he' => hpart e' (List.mem_cons_of_mem _ he')

theorem keeps_hangUp (fan : FanOut s) (c : Cluster s) : c.Keeps (fan.hangUp c) :=
  hangUp_induct (c.Keeps ·) (.refl c) fun e _ c' h => h.trans (e.2.keeps_hangUp c')

/-- A fan-out that ends well has been answered by all. -/
theorem complete_of_outcome (h : fan.outcome? = some (.ok ())) : fan.complete = true := by
  unfold outcome? at h
  split at h
  · cases h
  · split at h
    · assumption
    · cases h

/-- A fan-out that ends with a failure has a part that has failed. -/
theorem exists_fault_of_outcome {fault : Fault} (h : fan.outcome? = some (.error fault)) :
    ∃ e ∈ fan.parts, e.2.fault? = some fault := by
  unfold outcome? at h
  split at h
  · next fault' heq =>
      obtain rfl : fault' = fault := Except.error.inj (Option.some.inj h)
      obtain ⟨part, hdue, hfault⟩ := List.exists_of_findSome?_eq_some heq
      -- In order or not, the answer that is taken is that of some part.
      have hmem : part ∈ fan.parts.map Prod.snd := by
        unfold due at hdue
        dsimp only at hdue
        split at hdue
        · exact List.mem_of_find?_eq_some (Option.mem_toList.mp hdue)
        · exact hdue
      obtain ⟨e, he, rfl⟩ := List.mem_map.mp hmem
      exact ⟨e, he, hfault⟩
  · split at h <;> cases h

/-- Nobody waits any longer in a fan-out that has been answered by all. -/
theorem hangUp_of_complete (h : fan.complete = true) (c : Cluster s) : fan.hangUp c = c := by
  refine hangUp_induct (· = c) rfl fun e he c' hc' => ?_
  have hanswered : e.2.isAnswered = true := List.all_eq_true.mp h e he
  cases hpart : e.2 with
  | answered => exact hc'
  | _ => simp [hpart, Part.isAnswered] at hanswered

/-- What a fan-out does after a part has moved. -/
theorem proceed_cases (h : fan.proceed c = (move, c')) :
    (∃ outcome, fan.outcome? = some outcome ∧ move = .finish outcome ∧ c' = fan.hangUp c) ∨
      fan.outcome? = none ∧ move = .next fan ∧ c' = c := by
  unfold proceed at h
  split at h
  · next outcome heq =>
      obtain ⟨rfl, rfl⟩ := Prod.mk.inj h
      exact Or.inl ⟨outcome, heq, rfl, rfl⟩
  · next heq =>
      obtain ⟨rfl, rfl⟩ := Prod.mk.inj h
      exact Or.inr ⟨heq, rfl, rfl⟩

/-- **The moves of a fan-out.** -/
theorem step_cases (h : fan.step client ask place c = (move, c')) :
    (move = .wait ∧ c' = c) ∨ (fan.complete = true ∧ move = .finish (.ok ()) ∧ c' = c) ∨
      ∃ p part part' c₁, fan.parts[place]? = some (p, part) ∧
        part.step client ask p c = (some part', c₁) ∧
        { fan with parts := fan.parts.set place (p, part') }.proceed c₁ = (move, c') := by
  unfold step at h
  split at h
  · next hcomplete =>
      obtain ⟨rfl, rfl⟩ := Prod.mk.inj h
      exact Or.inr (Or.inl ⟨hcomplete, rfl, rfl⟩)
  · split at h
    · obtain ⟨rfl, rfl⟩ := Prod.mk.inj h
      exact Or.inl ⟨rfl, rfl⟩
    · next p part hpart =>
        rcases hstep : part.step client ask p c with ⟨_ | part', c₁⟩
        · rw [hstep] at h
          obtain ⟨rfl, rfl⟩ := Prod.mk.inj h
          exact Or.inl ⟨rfl, Part.step_none hstep⟩
        · rw [hstep] at h
          exact Or.inr (Or.inr ⟨p, part, part', c₁, hpart, hstep, h⟩)

theorem keeps_step (client : Client s) (ask : Question) (place : Nat) (fan : FanOut s)
    (c : Cluster s) : c.Keeps (fan.step client ask place c).2 := by
  rcases h : fan.step client ask place c with ⟨move, c'⟩
  rcases step_cases h with
    ⟨-, heq⟩ | ⟨-, -, heq⟩ | ⟨p, part, part', c₁, -, hstep, hproceed⟩
  · rw [heq]
    exact .refl c
  · rw [heq]
    exact .refl c
  · have hpart : c.Keeps c₁ := by
      have := part.keeps_step client ask p c
      rwa [hstep] at this
    rcases proceed_cases hproceed with ⟨outcome, -, -, heq⟩ | ⟨-, -, heq⟩
    · rw [heq]
      exact hpart.trans (keeps_hangUp _ c₁)
    · rw [heq]
      exact hpart

/-- A part that moves is still the part for the same process. -/
theorem map_fst_set {p : ProcessId} {part : Part s} (hpart : fan.parts[place]? = some (p, part))
    (part' : Part s) :
    (fan.parts.set place (p, part')).map Prod.fst = fan.parts.map Prod.fst := by
  refine List.ext_getElem? fun i => ?_
  rw [List.getElem?_map, List.getElem?_map, List.getElem?_set]
  split
  · next heq =>
      subst heq
      obtain ⟨hlt, hget⟩ := List.getElem?_eq_some_iff.mp hpart
      simp [hlt, hget]
  · rfl

end FanOut

/-! ## Calls of a client -/

theorem LineUp.keeps_step (client : Client s) (place : Nat) (l : LineUp s) (c : Cluster s) :
    c.Keeps (l.step client place c).2 := by
  unfold LineUp.step
  split
  · exact l.fan.keeps_hangUp c
  · have h := l.fan.keeps_step client (question client l.phase) place c
    split <;> simp_all

theorem AwaitPeers.keeps_step (client : Client s) (pause : UInt64) (attempts : UInt32)
    (stage : AwaitPeers) (c : Cluster s) : c.Keeps (stage.step client pause attempts c).2 := by
  unfold AwaitPeers.step
  split
  · exact .refl c
  · next pass p left =>
      have h := c.keeps_route client.router p
      split
      · simp_all
      · split <;> simp_all
  · split
    · exact .refl c
    · split <;> exact .refl c

theorem Acquire.keeps_step (client : Client s) (place : Nat) (stage : Acquire s)
    (c : Cluster s) : c.Keeps (stage.step client place c).2 := by
  cases stage with
  | start =>
      have h := client.keeps_route client.process c
      simp only [step]
      split <;> simp_all
  | routed own =>
      have h := c.keeps_call own fun coordinator => coordinator.announce client.process
      simp only [step]
      split <;> simp_all
  | gathering own time fan =>
      simp only [step]
      split
      · exact fan.keeps_hangUp c
      · have h := fan.keeps_step client (question client time) place c
        split <;> simp_all
  | withdrawing own =>
      have h := c.keeps_call own fun coordinator => coordinator.leave client.process
      simp only [step]
      split <;> simp_all
  | granted own time =>
      have h := c.keeps_call own fun coordinator => coordinator.enter client.process
      simp only [step]
      split <;> simp_all

theorem Release.keeps_step (client : Client s) (stage : Release s) (c : Cluster s) :
    c.Keeps (stage.step client c).2 := by
  cases stage with
  | start =>
      have h := client.keeps_route client.process c
      simp only [step]
      split <;> simp_all
  | routed own => exact c.keeps_call own fun coordinator => coordinator.leave client.process

end CriticalSection
