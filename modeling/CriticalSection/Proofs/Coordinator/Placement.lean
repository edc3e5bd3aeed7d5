import CriticalSection.Proofs.Coordinator.Mirroring
import CriticalSection.Proofs.Coordinator.Session

/-!
# Where processes have their place

Several coordinators can share the work: each process has its place at one of them, and whatever
concerns the process is asked there. Whoever makes calls, waits for them and looks at processes
cannot tell how the processes are placed: all goes as if there were a single coordinator.
-/

set_option autoImplicit false

namespace CriticalSection

/-! ## Definitions -/

/-- **What can be asked about a process.** -/
inductive Task
  | subscribe
  | announce
  | enter
  | leave
  | request (stamp : Stamp)
  | ready (caller : ProcessId)
  | finished (caller : ProcessId)
  deriving DecidableEq, Repr

/-- The operation with which something is asked about a process. -/
def Task.operation (owner : ProcessId) : Task → Operation
  | .subscribe => .subscribe owner
  | .announce => .announce owner
  | .enter => .enter owner
  | .leave => .leave owner
  | .request stamp => .request owner stamp
  | .ready caller => .ready owner caller
  | .finished caller => .finished owner caller

/-- **What callers see of a step**: the calls whose wait has ended, with their outcomes, the calls
that go on waiting, and what is told about each process. -/
@[ext]
structure View where
  finished : List (String × Outcome Value)
  waiting : List String
  /-- Whether a call that was given up was in progress. -/
  found : Bool
  snapshot : ProcessId → Outcome Coordinator.Snapshot

namespace Session

/-- What callers see of one step. -/
def view (s : Session) (act : Act) : View where
  finished := (s.step act).1
  waiting := (s.step act).2.calls.map Prod.fst
  found := match act with
    | .call .. => false
    | .hangUp name => (s.hangUp name).1
  snapshot := (s.step act).2.coordinator.snapshot

/-- What callers see of one step after the other. -/
def views (s : Session) : List Act → List View
  | [] => []
  | act :: acts => s.view act :: (s.step act).2.views acts

end Session

/-- Several coordinators, at which processes have their places, and the calls in progress. -/
structure Deployment (ι : Type) where
  place : ProcessId → ι
  coordinators : ι → Coordinator
  calls : List (String × Reaction Value)

namespace Deployment

/-- **What is done at a deployment**: something is asked about a process at its place, all
coordinators start anew and the one at the place of a process answers, or a caller hangs up. -/
inductive Act
  | call (name : String) (now : Int64) (owner : ProcessId) (task : Task)
  | restart (name : String) (now : Int64) (owner : ProcessId) (expected : UInt64)
  | hangUp (name : String)
  deriving DecidableEq

/-- The same done at a single coordinator. -/
def Act.atOne : Act → Session.Act
  | call name now owner task => .call name now (task.operation owner)
  | restart name now _ expected => .call name now (.restart expected)
  | hangUp name => .hangUp name

variable {ι : Type}

/-- A deployment of new coordinators. -/
def new (place : ProcessId → ι) (expected : UInt64) : Deployment ι :=
  ⟨place, fun _ => .new expected, []⟩

/-- The coordinator at which a process has its place. -/
def host (d : Deployment ι) (p : ProcessId) : Coordinator := d.coordinators (d.place p)

/-- What has become of a call. -/
def progress (d : Deployment ι) : Reaction Value → Option (Outcome Value)
  | .answered outcome => some outcome
  | .parked t => (d.host t.place.owner).progress (.parked t)

/-- The outcomes of the calls whose wait has ended, and the deployment without them. -/
def collect (d : Deployment ι) : List (String × Outcome Value) × Deployment ι :=
  (d.calls.filterMap fun (name, reaction) =>
      (d.progress reaction).map fun outcome => (name, outcome),
    { d with calls := d.calls.filter fun (_, reaction) => (d.progress reaction).isNone })

variable [DecidableEq ι]

/-- With another coordinator at the place of a process. -/
def withHost (d : Deployment ι) (p : ProcessId) (c : Coordinator) : Deployment ι :=
  { d with coordinators := Function.update d.coordinators (d.place p) c }

/-- **Something is asked about a process** at its place. -/
def call (d : Deployment ι) (name : String) (now : Int64) (owner : ProcessId) (task : Task) :
    Deployment ι :=
  let (reaction, coordinator) := (d.host owner).perform now (task.operation owner)
  { d.withHost owner coordinator with calls := d.calls ++ [(name, reaction)] }

/-- The caller of a call hangs up; tells whether the call was in progress. -/
def hangUp (d : Deployment ι) (name : String) : Bool × Deployment ι :=
  match d.calls.find? fun (other, _) => other = name with
  | none => (false, d)
  | some (_, reaction) =>
    let after := match reaction with
      | .answered _ => d
      | .parked t => d.withHost t.place.owner ((d.host t.place.owner).hangUp t)
    (true, { after with calls := d.calls.eraseP fun (other, _) => other = name })

/-- The deployment after something is done, before anything is collected. -/
def after (d : Deployment ι) : Act → Deployment ι
  | .call name now owner task => d.call name now owner task
  | .restart name now owner expected =>
    { d with
      coordinators := fun i => ((d.coordinators i).perform now (.restart expected)).2
      calls := d.calls ++ [(name, ((d.host owner).perform now (.restart expected)).1)] }
  | .hangUp name => (d.hangUp name).2

/-- **One step of a deployment**: something is done, and the calls whose wait has ended are
collected. -/
def step (d : Deployment ι) (act : Act) : List (String × Outcome Value) × Deployment ι :=
  (d.after act).collect

/-- What callers see of one step. -/
def view (d : Deployment ι) (act : Act) : View where
  finished := (d.step act).1
  waiting := (d.step act).2.calls.map Prod.fst
  found := match act with
    | .call .. => false
    | .restart .. => false
    | .hangUp name => (d.hangUp name).1
  snapshot p := ((d.step act).2.host p).snapshot p

/-- What callers see of one step after the other. -/
def views (d : Deployment ι) : List Act → List View
  | [] => []
  | act :: acts => d.view act :: (d.step act).2.views acts

end Deployment

/-! ## Tasks -/

theorem Reaction.renumber_congr {α : Type} {number number' : Ticket → Nat} {reaction : Reaction α}
    (h : ∀ t, reaction = .parked t → number t = number' t) :
    reaction.renumber number = reaction.renumber number' := by
  cases reaction with
  | answered outcome => rfl
  | parked t => rw [renumber, renumber, h t rfl]

namespace Coordinator.Mirrors

variable {ι : Type} [DecidableEq ι] {f : ProcessId → ι} {numbers : ι → Nat → Nat}
  {cs : ι → Coordinator} {c : Coordinator}

/-- **Whatever is asked about a process** goes at its place as at the single coordinator. -/
theorem perform (h : Mirrors f numbers cs c) (now : Int64) (owner : ProcessId) (task : Task) :
    ∃ numbers', Follows f numbers cs owner ((cs (f owner)).perform now (task.operation owner))
      (c.perform now (task.operation owner)) numbers' := by
  cases task with
  | subscribe =>
      have hissued : ((cs (f owner)).subscribe owner).issued = (cs (f owner)).issued := by
        unfold Coordinator.subscribe
        split <;> rfl
      exact ⟨numbers, .answered (h.subscribe owner) hissued _⟩
  | announce => exact ⟨numbers, (h.announce owner).map _⟩
  | enter => exact ⟨numbers, (h.enter owner).map _⟩
  | leave => exact ⟨numbers, (h.leave owner).map _⟩
  | request stamp =>
      obtain ⟨numbers', hfollows⟩ := h.request owner stamp
      exact ⟨numbers', hfollows.map _⟩
  | ready caller =>
      obtain ⟨numbers', hfollows⟩ := h.rendezvous .ready owner caller
      exact ⟨numbers', hfollows.map _⟩
  | finished caller =>
      obtain ⟨numbers', hfollows⟩ := h.rendezvous .finished owner caller
      exact ⟨numbers', hfollows.map _⟩

end Coordinator.Mirrors

namespace Deployment

variable {ι : Type} {numbers : ι → Nat → Nat} {d : Deployment ι} {s : Session}

/-- The number that a ticket of a deployment has at the single coordinator. -/
def number (d : Deployment ι) (numbers : ι → Nat → Nat) (t : Ticket) : Nat :=
  numbers (d.place t.place.owner) t.number

/-- **A deployment mirrors a session**: its coordinators mirror that of the session, and the calls
in progress are the same, up to the numbers of their tickets. -/
structure Mirrors (d : Deployment ι) (s : Session) (numbers : ι → Nat → Nat) : Prop where
  coordinators : Coordinator.Mirrors d.place numbers d.coordinators s.coordinator
  calls : s.calls = d.calls.map fun (name, reaction) => (name, reaction.renumber (d.number numbers))
  issued : ∀ e ∈ d.calls, ∀ t, e.2 = .parked t → t.number < (d.host t.place.owner).issued

namespace Mirrors

theorem new (place : ProcessId → ι) (expected : UInt64) :
    Mirrors (.new place expected) (.new expected) fun _ n => n :=
  ⟨.new place expected, rfl, fun _ he => absurd he List.not_mem_nil⟩

/-- **What is told about a process** is the same. -/
theorem snapshot_eq (h : d.Mirrors s numbers) (p : ProcessId) :
    (d.host p).snapshot p = s.coordinator.snapshot p := by
  unfold Coordinator.snapshot host
  rw [h.coordinators.records_eq p]
  cases hr : (d.coordinators (d.place p)).records[p]? with
  | none => rfl
  | some r => simp [Coordinator.Snapshot.of, Record.renumber]

/-- **What has become of a call** is the same. -/
theorem progress_eq (h : d.Mirrors s numbers) {e : String × Reaction Value} (he : e ∈ d.calls) :
    s.coordinator.progress (e.2.renumber (d.number numbers)) = d.progress e.2 := by
  obtain ⟨name, reaction⟩ := e
  cases reaction with
  | answered outcome => rfl
  | parked t =>
      have hanswers := (h.coordinators.part (d.place t.place.owner)).answers t.number
        (h.issued _ he t rfl)
      have houtcome : s.coordinator.outcome? ⟨t.place, d.number numbers t⟩ =
          (d.host t.place.owner).outcome? t := by
        unfold Coordinator.outcome? number host
        rw [hanswers]
      exact congrArg (Option.map fun outcome : Outcome Unit => outcome.map fun _ => Value.done)
        houtcome

/-- **The same calls are collected**, with the same outcomes, and the others stay. -/
theorem collect (h : d.Mirrors s numbers) :
    s.collect.1 = d.collect.1 ∧ d.collect.2.Mirrors s.collect.2 numbers := by
  have hprogress : ∀ e ∈ d.calls,
      s.coordinator.progress (e.2.renumber (d.number numbers)) = d.progress e.2 :=
    fun _ he => h.progress_eq he
  refine ⟨?_, h.coordinators, ?_, ?_⟩
  · unfold Session.collect Deployment.collect
    simp only [h.calls, List.filterMap_map]
    refine List.filterMap_congr fun e he => ?_
    simp only [Function.comp, hprogress e he]
  · unfold Session.collect Deployment.collect
    simp only [h.calls, List.filter_map]
    refine congrArg (List.map _) (List.filter_congr fun e he => ?_)
    simp only [Function.comp, hprogress e he]
  · exact fun e he => h.issued e (List.mem_filter.mp he).1

variable [DecidableEq ι]

/-- A call is added to those in progress, when it goes at its place as at the single coordinator. -/
theorem add (h : d.Mirrors s numbers) {owner : ProcessId}
    {here there : Reaction Value × Coordinator} {numbers' : ι → Nat → Nat}
    (hfollows : Coordinator.Follows d.place numbers d.coordinators owner here there numbers')
    (name : String) :
    Mirrors { d.withHost owner here.2 with calls := d.calls ++ [(name, here.1)] }
      ⟨there.2, s.calls ++ [(name, there.1)]⟩ numbers' := by
  refine ⟨hfollows.mirrors, ?_, fun e he t ht => ?_⟩
  · -- The tickets in progress keep their numbers, and the new one has that of the new reaction.
    have hold : ∀ e ∈ d.calls,
        (e.1, e.2.renumber (d.number numbers)) = (e.1, e.2.renumber (d.number numbers')) := by
      intro e he
      refine congrArg (Prod.mk e.1) (Reaction.renumber_congr fun t ht => ?_)
      exact (hfollows.kept _ _ (h.issued e he t ht)).symm
    have hnew : there.1 = here.1.renumber (d.number numbers') := by
      rw [hfollows.reaction]
      refine Reaction.renumber_congr fun t ht => ?_
      rw [number, (hfollows.parked t ht).1]
    show s.calls ++ [(name, there.1)] = (d.calls ++ [(name, here.1)]).map _
    rw [List.map_append, h.calls, List.map_congr_left hold, hnew]
    rfl
  · show t.number < (Function.update d.coordinators (d.place owner) here.2 (d.place _)).issued
    rcases List.mem_append.mp he with he | he
    · have hlt := h.issued e he t ht
      by_cases hplace : d.place t.place.owner = d.place owner
      · rw [host, hplace] at hlt
        rw [hplace, Function.update_self]
        exact Nat.lt_of_lt_of_le hlt hfollows.issued
      · rw [Function.update_of_ne hplace]
        exact hlt
    · obtain rfl := List.mem_singleton.mp he
      obtain ⟨howner, hlt⟩ := hfollows.parked t ht
      rw [howner, Function.update_self]
      exact hlt

/-- **The caller of a call hangs up**, at its place and at the single coordinator. -/
theorem hangUp (h : d.Mirrors s numbers) (name : String) :
    (s.hangUp name).1 = (d.hangUp name).1 ∧
      (d.hangUp name).2.Mirrors (s.hangUp name).2 numbers := by
  have hfind : s.calls.find? (fun e => e.1 = name) =
      (d.calls.find? fun e => e.1 = name).map fun e =>
        (e.1, e.2.renumber (d.number numbers)) := by
    rw [h.calls, List.find?_map]
    rfl
  have herase : s.calls.eraseP (fun e => e.1 = name) =
      (d.calls.eraseP fun e => e.1 = name).map fun e =>
        (e.1, e.2.renumber (d.number numbers)) := by
    rw [h.calls, List.eraseP_map]
    rfl
  unfold Session.hangUp Deployment.hangUp
  rw [hfind]
  cases hd : d.calls.find? fun e => e.1 = name with
  | none => exact ⟨rfl, h⟩
  | some e =>
      have he := List.mem_of_find?_eq_some hd
      -- Those that stay in progress have been in progress before.
      have hleft : ∀ {cs : ι → Coordinator},
          (∀ i, (cs i).issued = (d.coordinators i).issued) →
          ∀ e' ∈ d.calls.eraseP (fun e => e.1 = name), ∀ t, e'.2 = .parked t →
            t.number < (cs (d.place t.place.owner)).issued := by
        intro cs hcs e' he' t ht
        rw [hcs]
        exact h.issued e' (List.mem_of_mem_eraseP he') t ht
      obtain ⟨other, reaction⟩ := e
      cases reaction with
      | answered outcome =>
          exact ⟨rfl, h.coordinators, herase, hleft fun _ => rfl⟩
      | parked t =>
          refine ⟨rfl, h.coordinators.hangUp (h.issued _ he t rfl), herase, hleft fun i => ?_⟩
          show (Function.update d.coordinators _ _ i).issued = _
          by_cases hi : i = d.place t.place.owner
          · rw [hi, Function.update_self, host, Coordinator.issued_hangUp]
          · rw [Function.update_of_ne hi]

/-- **Whatever is done**, a deployment goes on mirroring. -/
theorem after (h : d.Mirrors s numbers) (act : Act) :
    ∃ numbers', (d.after act).Mirrors (s.after act.atOne) numbers' := by
  cases act with
  | call name now owner task =>
      obtain ⟨numbers', hfollows⟩ := h.coordinators.perform now owner task
      exact ⟨numbers', h.add hfollows name⟩
  | restart name now owner expected =>
      refine ⟨numbers, h.coordinators.restart expected, ?_, fun e he t ht => ?_⟩
      · show s.calls ++ [(name, .answered (.ok Value.done))] =
          (d.calls ++ [(name, Reaction.answered (.ok Value.done))]).map _
        rw [List.map_append, h.calls]
        rfl
      · rcases List.mem_append.mp he with he | he
        · exact h.issued e he t ht
        · obtain rfl := List.mem_singleton.mp he
          cases ht
  | hangUp name => exact ⟨numbers, (h.hangUp name).2⟩

/-- **One step looks the same**, and a deployment goes on mirroring. -/
theorem step (h : d.Mirrors s numbers) (act : Act) :
    d.view act = s.view act.atOne ∧
      ∃ numbers', (d.step act).2.Mirrors (s.step act.atOne).2 numbers' := by
  obtain ⟨numbers', hafter⟩ := h.after act
  obtain ⟨hfinished, hstep⟩ := hafter.collect
  refine ⟨?_, numbers', hstep⟩
  have hwaiting : (d.step act).2.calls.map Prod.fst = (s.step act.atOne).2.calls.map Prod.fst := by
    rw [show (s.step act.atOne).2.calls = _ from hstep.calls, List.map_map]
    rfl
  have hsnapshot : (fun p => ((d.step act).2.host p).snapshot p) =
      (s.step act.atOne).2.coordinator.snapshot := funext hstep.snapshot_eq
  have hfound : (d.view act).found = (s.view act.atOne).found := by
    cases act with
    | call name now owner task => rfl
    | restart name now owner expected => rfl
    | hangUp name => exact (h.hangUp name).1.symm
  exact View.ext hfinished.symm hwaiting hfound hsnapshot

end Mirrors

variable [DecidableEq ι]

/-- **Placement makes no difference.** However the processes are placed at several coordinators that
expect the same number of processes, callers see, step by step, what they would see if there were a
single coordinator: the same calls end with the same outcomes, the same calls go on waiting, and the
same is told about every process. -/
theorem views_eq (place : ProcessId → ι) (expected : UInt64) (acts : List Act) :
    (new place expected).views acts = (Session.new expected).views (acts.map Act.atOne) := by
  have hviews : ∀ (d : Deployment ι) (s : Session) (numbers : ι → Nat → Nat),
      d.Mirrors s numbers → d.views acts = s.views (acts.map Act.atOne) := by
    induction acts with
    | nil => exact fun _ _ _ _ => rfl
    | cons act acts ih =>
        intro d s numbers h
        obtain ⟨hview, numbers', hstep⟩ := h.step act
        rw [views, List.map_cons, Session.views, hview, ih _ _ _ hstep]
  exact hviews _ _ _ (.new place expected)

end Deployment

end CriticalSection
