import Mathlib.Data.List.Dedup
import CriticalSection.Proofs.Coordinator.Barriers
import CriticalSection.Proofs.Coordinator.Session

/-!
# Rounds at a barrier

Between two restarts the callers of one barrier fall into rounds: a round is complete with the first
caller at which as many different ones have come as are expected, and the next one begins behind it.
A barrier keeps the different callers of the round that is open (`Coordinator.Shows`). Whoever waits
at it goes through with the caller that completes the round, and is interrupted when the coordinator
starts anew before.
-/

set_option autoImplicit false

namespace CriticalSection

/-! ## Rounds -/

/-- How many different callers make a round. Nobody goes through a barrier without arriving. -/
def roundSize (expected : UInt64) : Nat := max expected.toNat 1

/-- **A complete round**: enough different callers have come, and without the last of them too few
had. -/
structure IsRound (expected : UInt64) (callers : List ProcessId) : Prop where
  enough : roundSize expected ≤ callers.dedup.length
  first : callers.dropLast.dedup.length < roundSize expected

/-- **Callers cut into rounds**: complete ones, and the one that is still open. -/
structure Cut (expected : UInt64) (callers : List ProcessId) (rounds : List (List ProcessId))
    (rest : List ProcessId) : Prop where
  all : callers = rounds.flatten ++ rest
  complete : ∀ round ∈ rounds, IsRound expected round
  unfinished : rest.dedup.length < roundSize expected

/-- **The turnout at a barrier**: how many processes are expected, and who has come since the open
round began, in order and with repetitions. -/
structure Turnout where
  expected : UInt64
  callers : List ProcessId

namespace Turnout

/-- **Whether a caller completes the round** that is open. -/
def Completes (t : Turnout) (caller : ProcessId) : Prop :=
  roundSize t.expected ≤ (t.callers ++ [caller]).dedup.length

instance (t : Turnout) (caller : ProcessId) : Decidable (t.Completes caller) :=
  inferInstanceAs (Decidable (_ ≤ _))

/-- One caller more, with whom the round stays open or a new one begins. -/
def come (t : Turnout) (caller : ProcessId) : Turnout :=
  { t with callers := if t.Completes caller then [] else t.callers ++ [caller] }

end Turnout

/-- **Who arrives at a barrier** with an operation, if anybody does. -/
def Operation.caller? (phase : Phase) (owner : ProcessId) : Operation → Option ProcessId
  | .ready p caller => if phase = .ready ∧ owner = p then some caller else none
  | .finished p caller => if phase = .finished ∧ owner = p then some caller else none
  | _ => none

/-- The operation that is performed when something is done in a session. -/
def Session.Act.operation? : Session.Act → Option Operation
  | .call _ _ operation => some operation
  | .hangUp _ => none

/-- Who arrives at a barrier when something is done. -/
def Session.Act.caller? (phase : Phase) (owner : ProcessId) (act : Session.Act) :
    Option ProcessId :=
  act.operation?.bind (Operation.caller? phase owner)

/-- The number of processes that a coordinator expects once it has started anew, if it does. -/
def Session.Act.restart? : Session.Act → Option UInt64
  | .call _ _ (.restart expected) => some expected
  | _ => none

namespace Turnout

open Session (Act)

/-- **The turnout after something is done.** Who hangs up has come all the same. -/
def after (t : Turnout) (phase : Phase) (owner : ProcessId) (act : Act) : Turnout :=
  match act.restart? with
  | some expected => ⟨expected, []⟩
  | none =>
    match act.caller? phase owner with
    | some caller => t.come caller
    | none => t

/-- The turnout after a number of things are done. -/
def run (t : Turnout) (phase : Phase) (owner : ProcessId) (acts : List Act) : Turnout :=
  acts.foldl (fun t act => t.after phase owner act) t

/-- **The answer with which the open round ends** when something is done, if it ends. -/
def ending (t : Turnout) (phase : Phase) (owner : ProcessId) (act : Act) : Option Answer :=
  match act.restart? with
  | some _ => some .interrupted
  | none =>
    match act.caller? phase owner with
    | some caller => if t.Completes caller then some .granted else none
    | none => none

/-- **The answer with which the open round ends** over a number of things that are done. -/
def firstEnding (t : Turnout) (phase : Phase) (owner : ProcessId) : List Act → Option Answer
  | [] => none
  | act :: acts =>
    (t.ending phase owner act).or ((t.after phase owner act).firstEnding phase owner acts)

end Turnout

/-- What an answer means to whoever waits at a barrier. -/
def Answer.outcomeAt (phase : Phase) (owner : ProcessId) : Answer → Outcome Value
  | .granted => .ok .done
  | .interrupted => fail (.interrupted (phase.word ++ " barrier at " ++ owner))

/-- A session after a number of things are done, each with what is collected then. -/
def Session.run (s : Session) (acts : List Session.Act) : Session :=
  acts.foldl (fun s act => (s.step act).2) s

/-! ## The cut -/

theorem roundSize_pos (expected : UInt64) : 0 < roundSize expected :=
  Nat.lt_of_lt_of_le Nat.zero_lt_one (Nat.le_max_right _ _)

theorem cut_nil (expected : UInt64) : Cut expected [] [] [] :=
  ⟨rfl, by simp, roundSize_pos expected⟩

namespace Turnout

open Session (Act)

variable {t : Turnout} {expected : UInt64} {callers : List ProcessId}
  {rounds : List (List ProcessId)} {phase : Phase} {owner : ProcessId}

/-- **One caller more** completes the open round or joins it, and the cut is right again. -/
theorem cut_come (h : Cut t.expected callers rounds t.callers) (caller : ProcessId) :
    ∃ rounds', Cut t.expected (callers ++ [caller]) rounds' (t.come caller).callers := by
  by_cases hcompletes : t.Completes caller
  · have hcallers : (t.come caller).callers = [] := if_pos hcompletes
    refine ⟨rounds ++ [t.callers ++ [caller]], ?_, ?_, ?_⟩
    · rw [hcallers, h.all]
      simp
    · intro round hround
      rcases List.mem_append.mp hround with hold | hnew
      · exact h.complete round hold
      · obtain rfl := List.mem_singleton.mp hnew
        refine ⟨hcompletes, ?_⟩
        rw [List.dropLast_concat]
        exact h.unfinished
    · rw [hcallers]
      exact roundSize_pos t.expected
  · have hcallers : (t.come caller).callers = t.callers ++ [caller] := if_neg hcompletes
    refine ⟨rounds, ?_, h.complete, ?_⟩
    · rw [hcallers, h.all, List.append_assoc]
    · rw [hcallers]
      exact Nat.lt_of_not_le hcompletes

theorem expected_after_of_none {act : Act} (h : act.restart? = none) :
    (t.after phase owner act).expected = t.expected := by
  unfold after
  rw [h]
  cases act.caller? phase owner <;> rfl

/-- **The open round is what the cut leaves**: without a restart all callers that came belong to the
complete rounds or to the open one. -/
theorem cut_run (acts : List Act) (hacts : ∀ act ∈ acts, act.restart? = none)
    (h : Cut t.expected callers rounds t.callers) :
    (t.run phase owner acts).expected = t.expected ∧
      ∃ rounds', Cut t.expected (callers ++ acts.filterMap (Act.caller? phase owner)) rounds'
        (t.run phase owner acts).callers := by
  induction acts generalizing t callers rounds with
  | nil => exact ⟨rfl, rounds, by simpa [run] using h⟩
  | cons act acts ih =>
      have hact := hacts act (by simp)
      have hrest : ∀ act ∈ acts, act.restart? = none := fun act hmem => hacts act (by simp [hmem])
      have hexpected : (t.after phase owner act).expected = t.expected :=
        expected_after_of_none hact
      show ((t.after phase owner act).run phase owner acts).expected = t.expected ∧ ∃ rounds',
        Cut t.expected _ rounds' ((t.after phase owner act).run phase owner acts).callers
      rw [← hexpected]
      cases hcaller : act.caller? phase owner with
      | none =>
          have hafter : t.after phase owner act = t := by simp [after, hact, hcaller]
          rw [List.filterMap_cons_none hcaller, hafter]
          exact ih hrest h
      | some caller =>
          have hafter : t.after phase owner act = t.come caller := by simp [after, hact, hcaller]
          obtain ⟨rounds', hcut⟩ := cut_come h caller
          rw [List.filterMap_cons_some hcaller, List.append_cons, hafter]
          exact ih hrest hcut

theorem run_append (t : Turnout) (before since : List Act) :
    t.run phase owner (before ++ since) = (t.run phase owner before).run phase owner since :=
  List.foldl_append

/-- Nobody has come at the beginning and right after a restart. -/
theorem run_of_restart {n : UInt64} {before : List Act}
    (h : before = [] ∧ n = expected ∨ before.getLast?.bind Act.restart? = some n) :
    (⟨expected, []⟩ : Turnout).run phase owner before = ⟨n, []⟩ := by
  rcases h with ⟨rfl, rfl⟩ | h
  · rfl
  · obtain ⟨act, hlast, hrestart⟩ := Option.bind_eq_some_iff.mp h
    obtain ⟨acts, rfl⟩ := List.getLast?_eq_some_iff.mp hlast
    rw [run_append]
    show Turnout.after _ phase owner act = ⟨n, []⟩
    unfold after
    rw [hrestart]

theorem after_of_caller? (name : String) (now : Int64) {operation : Operation} {caller : ProcessId}
    (h : operation.caller? phase owner = some caller) :
    t.after phase owner (.call name now operation) = t.come caller := by
  have hcaller : (Act.call name now operation).caller? phase owner = some caller := h
  have hrestart : (Act.call name now operation).restart? = none := by
    cases operation <;> first | rfl | cases h
  unfold after
  rw [hrestart, hcaller]

/-- An arrival counts if it is one at the barrier itself. -/
theorem after_arrival {act : Act} (hrestart : act.restart? = none) {other : Phase}
    {p caller : ProcessId}
    (hcaller : act.caller? phase owner = if phase = other ∧ owner = p then some caller else none) :
    t.after phase owner act = if phase = other ∧ owner = p then t.come caller else t := by
  unfold after
  rw [hrestart, hcaller]
  by_cases hsame : phase = other ∧ owner = p
  · rw [if_pos hsame, if_pos hsame]
  · rw [if_neg hsame, if_neg hsame]

theorem ending_arrival {act : Act} (hrestart : act.restart? = none) {other : Phase}
    {p caller : ProcessId}
    (hcaller : act.caller? phase owner = if phase = other ∧ owner = p then some caller else none) :
    t.ending phase owner act =
      if phase = other ∧ owner = p then if t.Completes caller then some .granted else none
      else none := by
  unfold ending
  rw [hrestart, hcaller]
  by_cases hsame : phase = other ∧ owner = p
  · rw [if_pos hsame, if_pos hsame]
  · rw [if_neg hsame, if_neg hsame]

end Turnout

/-! ## What a barrier shows -/

/-- A list without repetitions is as long as there are different callers in one with the same
members. -/
theorem length_eq_dedup {arrived callers : List ProcessId} (hnodup : arrived.Nodup)
    (hmem : ∀ p, p ∈ arrived ↔ p ∈ callers) : arrived.length = callers.dedup.length := by
  refine ((List.perm_ext_iff_of_nodup hnodup callers.nodup_dedup).mpr fun p => ?_).length_eq
  rw [hmem, List.mem_dedup]

namespace Coordinator

/-- **A barrier shows a turnout** if it has the different callers of the open round, each once, and
they are too few to complete it. -/
structure Shows (c : Coordinator) (phase : Phase) (owner : ProcessId) (t : Turnout) : Prop where
  expected : c.expected = t.expected
  nodup : (c.barrier phase owner).arrived.Nodup
  arrived : ∀ p, p ∈ (c.barrier phase owner).arrived ↔ p ∈ t.callers
  unfinished : t.callers.dedup.length < roundSize t.expected

section Shows

variable {c c' : Coordinator} {phase : Phase} {owner : ProcessId} {t : Turnout}

theorem shows_of_closed {expected : UInt64} (hexpected : c.expected = expected)
    (hclosed : c.barrier phase owner = .closed) : c.Shows phase owner ⟨expected, []⟩ := by
  refine ⟨hexpected, ?_, fun p => ?_, roundSize_pos expected⟩
  · rw [hclosed]
    exact List.nodup_nil
  · rw [hclosed]
    rfl

/-- Only who has arrived at the barrier counts, not who waits there. -/
theorem Shows.congr (h : c.Shows phase owner t) (hexpected : c'.expected = c.expected)
    (harrived : (c'.barrier phase owner).arrived = (c.barrier phase owner).arrived) :
    c'.Shows phase owner t := by
  refine ⟨hexpected.trans h.expected, ?_, ?_, h.unfinished⟩
  · rw [harrived]
    exact h.nodup
  · rw [harrived]
    exact h.arrived

theorem Shows.length_arrived (h : c.Shows phase owner t) :
    (c.barrier phase owner).arrived.length = t.callers.dedup.length :=
  length_eq_dedup h.nodup h.arrived

theorem Shows.mem_insert (h : c.Shows phase owner t) (caller p : ProcessId) :
    p ∈ (c.barrier phase owner).arrived.insert caller ↔ p ∈ t.callers ++ [caller] := by
  rw [List.mem_insert_iff, h.arrived, List.mem_append, List.mem_singleton, or_comm]

/-- **The barrier opens for the caller that completes the round**, and for no other. -/
theorem Shows.lets_iff (h : c.Shows phase owner t) (caller : ProcessId) :
    c.lets phase owner caller = true ↔ t.Completes caller := by
  have hlength : ((c.barrier phase owner).arrived.insert caller).length =
      (t.callers ++ [caller]).dedup.length :=
    length_eq_dedup (List.Nodup.insert h.nodup) (h.mem_insert caller)
  have hpos : 0 < (t.callers ++ [caller]).dedup.length :=
    List.length_pos_of_mem (List.mem_dedup.mpr (by simp : caller ∈ t.callers ++ [caller]))
  unfold lets Barrier.opens Turnout.Completes roundSize
  rw [decide_eq_true_iff, h.expected]
  show t.expected.toNat ≤ ((c.barrier phase owner).arrived.insert caller).length ↔ _
  omega

/-- **An arrival at the barrier itself.** -/
theorem Shows.rendezvous (h : c.Shows phase owner t) (caller : ProcessId) :
    (c.rendezvous phase owner caller).2.Shows phase owner (t.come caller) := by
  have hexpected : (c.rendezvous phase owner caller).2.expected = t.expected :=
    (expected_rendezvous c phase owner caller).trans h.expected
  have hbarrier := barrier_rendezvous c phase owner caller phase owner
  rw [if_pos ⟨rfl, rfl⟩] at hbarrier
  by_cases hcompletes : t.Completes caller
  · rw [if_pos ((h.lets_iff caller).mpr hcompletes)] at hbarrier
    rw [Turnout.come, if_pos hcompletes]
    exact shows_of_closed hexpected hbarrier
  · rw [if_neg fun hlets => hcompletes ((h.lets_iff caller).mp hlets)] at hbarrier
    rw [Turnout.come, if_neg hcompletes]
    refine ⟨hexpected, ?_, ?_, Nat.lt_of_not_le hcompletes⟩
    · rw [hbarrier]
      exact List.Nodup.insert h.nodup
    · rw [hbarrier]
      exact h.mem_insert caller

/-- An arrival at another barrier. -/
theorem Shows.rendezvous_of_ne (h : c.Shows phase owner t) {other : Phase} {p : ProcessId}
    (hne : ¬ (phase = other ∧ owner = p)) (caller : ProcessId) :
    (c.rendezvous other p caller).2.Shows phase owner t := by
  refine h.congr (expected_rendezvous c other p caller) ?_
  rw [barrier_rendezvous, if_neg hne]

theorem Shows.hangUp (h : c.Shows phase owner t) (ticket : Ticket) :
    (c.hangUp ticket).Shows phase owner t := by
  refine h.congr (expected_hangUp c ticket) ?_
  rw [barrier_hangUp]
  split <;> rfl

/-- **What an operation makes of the turnout** that a barrier shows. -/
theorem Shows.perform (h : c.Shows phase owner t) (name : String) (now : Int64)
    (operation : Operation) :
    (c.perform now operation).2.Shows phase owner
      (t.after phase owner (.call name now operation)) := by
  -- An arrival is one at this barrier or at another.
  have harrival : ∀ other p caller, (c.rendezvous other p caller).2.Shows phase owner
      (if phase = other ∧ owner = p then t.come caller else t) := by
    intro other p caller
    by_cases hsame : phase = other ∧ owner = p
    · obtain ⟨rfl, rfl⟩ := hsame
      rw [if_pos ⟨rfl, rfl⟩]
      exact h.rendezvous caller
    · rw [if_neg hsame]
      exact h.rendezvous_of_ne hsame caller
  cases operation with
  | subscribe p =>
      show (c.subscribe p).Shows phase owner t
      unfold Coordinator.subscribe
      split <;> exact h.congr rfl (by cases phase <;> rfl)
  | listSubscribed => exact h
  | announce p =>
      show (c.announce p).2.Shows phase owner t
      unfold Coordinator.announce
      split <;> exact h.congr rfl (by cases phase <;> rfl)
  | request p request =>
      show (c.request p request).2.Shows phase owner t
      unfold Coordinator.request
      dsimp only
      split
      · exact h
      · split <;> exact h.congr rfl (by cases phase <;> rfl)
  | enter p =>
      show (c.enter p).2.Shows phase owner t
      unfold Coordinator.enter
      split <;> exact h.congr rfl (by cases phase <;> rfl)
  | leave p =>
      show (c.leave p).2.Shows phase owner t
      unfold Coordinator.leave
      split
      · exact h
      · split <;> exact h.congr rfl (by cases phase <;> rfl)
  | ready p caller =>
      rw [Turnout.after_arrival rfl rfl]
      exact harrival .ready p caller
  | finished p caller =>
      rw [Turnout.after_arrival rfl rfl]
      exact harrival .finished p caller
  | restart expected =>
      exact shows_of_closed rfl (barrier_of_empty expected ∅ _ _ phase owner)
  | health => exact h
  | readClock => exact h

/-- **The waits at a barrier end when its round does.** -/
theorem Shows.ending_eq (h : c.Shows phase owner t) (name : String) (now : Int64)
    (operation : Operation) :
    c.ending operation (.barrier phase owner) =
      t.ending phase owner (.call name now operation) := by
  have harrival : ∀ other p caller,
      (if Place.barrier phase owner = .barrier other p ∧
          ((c.barrier other p).arrive caller c.issued).opens c.expected then
        some Answer.granted
      else none) =
      if phase = other ∧ owner = p then if t.Completes caller then some .granted else none
      else none := by
    intro other p caller
    by_cases hsame : phase = other ∧ owner = p
    · rw [if_pos hsame]
      obtain ⟨rfl, rfl⟩ := hsame
      exact if_congr ((and_iff_right rfl).trans (h.lets_iff caller)) rfl rfl
    · rw [if_neg hsame, if_neg]
      exact fun hover => hsame (Place.barrier.inj hover.1)
  cases operation with
  | ready p caller =>
      rw [Turnout.ending_arrival rfl rfl]
      exact harrival .ready p caller
  | finished p caller =>
      rw [Turnout.ending_arrival rfl rfl]
      exact harrival .finished p caller
  | _ => rfl

end Shows

/-- What has become of a call that was parked at a barrier. -/
theorem progress_parked_barrier (c : Coordinator) (phase : Phase) (owner : ProcessId) (n : Nat) :
    c.progress (.parked ⟨.barrier phase owner, n⟩) =
      (c.answers[n]?).map (Answer.outcomeAt phase owner) := by
  cases h : c.answers[n]? with
  | none => simp [progress, outcome?, h]
  | some answer => cases answer <;> simp [progress, outcome?, h] <;> rfl

end Coordinator

/-! ## Sessions -/

namespace Session

variable {s : Session} {phase : Phase} {owner : ProcessId} {t : Turnout} {name : String}

/-- **A step keeps the turnout shown**, whatever is done. -/
theorem Sound.shows_step (h : s.Sound) (hshows : s.coordinator.Shows phase owner t) (act : Act) :
    (s.step act).2.coordinator.Shows phase owner (t.after phase owner act) := by
  cases act with
  | call name now operation => exact hshows.perform name now operation
  | hangUp name =>
      show (s.after (.hangUp name)).coordinator.Shows phase owner t
      obtain hafter | ⟨ticket, before, behind, -, hafter⟩ := h.after_hangUp name
      · rw [hafter]
        exact hshows
      · rw [hafter]
        exact hshows.hangUp ticket

/-- **Every run keeps a session sound and the turnout shown.** -/
theorem Sound.shows_run (h : s.Sound) (hshows : s.coordinator.Shows phase owner t)
    (acts : List Act) :
    (s.run acts).Sound ∧
      (s.run acts).coordinator.Shows phase owner (t.run phase owner acts) := by
  induction acts generalizing s t with
  | nil => exact ⟨h, hshows⟩
  | cons act acts ih => exact ih (h.step act) (h.shows_step hshows act)

/-- What becomes of a wait at the barrier when something is done. -/
theorem Sound.answers_after_barrier (h : s.Sound) (hshows : s.coordinator.Shows phase owner t)
    (act : Act) {n : Nat} (ht : s.coordinator.Waits ⟨.barrier phase owner, n⟩) :
    (s.after act).coordinator.answers[n]? = t.ending phase owner act := by
  cases act with
  | call name now operation =>
      obtain ⟨ending, hends, hbarrier⟩ := h.orderly.exists_ends_perform now operation
      calc (s.coordinator.perform now operation).2.answers[n]?
          = ending (.barrier phase owner) := hends.answers _ ht
        _ = s.coordinator.ending operation (.barrier phase owner) := hbarrier phase owner
        _ = _ := hshows.ending_eq name now operation
  | hangUp name =>
      have hanswers : (s.after (.hangUp name)).coordinator.answers = s.coordinator.answers := by
        obtain hafter | ⟨ticket, before, behind, -, hafter⟩ := h.after_hangUp name
        · rw [hafter]
        · rw [hafter]
          exact Coordinator.answers_hangUp _ ticket
      rw [hanswers]
      exact h.orderly.unanswered _ ht

/-- **What becomes of a call that waits at the barrier**, if nothing is done under its name: it is
collected when the round ends, and otherwise stays. -/
theorem Sound.named_step_barrier (h : s.Sound) (hshows : s.coordinator.Shows phase owner t)
    {act : Act} (hname : act.name ≠ name) {n : Nat}
    (hparked : s.named name = [(name, .parked ⟨.barrier phase owner, n⟩)]) :
    (s.step act).2.named name =
        (if t.ending phase owner act = none then
          [(name, .parked ⟨.barrier phase owner, n⟩)] else []) ∧
      (s.step act).1.filter (fun e => e.1 = name) =
        ((t.ending phase owner act).map fun answer =>
          (name, answer.outcomeAt phase owner)).toList := by
  have hwaits : s.coordinator.Waits ⟨.barrier phase owner, n⟩ := by
    rw [← h.waits, mem_tickets]
    have hmem : (name, Reaction.parked ⟨.barrier phase owner, n⟩) ∈ s.named name :=
      hparked ▸ by simp
    exact ⟨name, (List.mem_filter.mp hmem).1⟩
  obtain ⟨hstays, hcollected⟩ := h.named_step_parked hname hparked
  rw [h.answers_after_barrier hshows act hwaits] at hstays
  rw [Coordinator.progress_parked_barrier, h.answers_after_barrier hshows act hwaits,
    Option.map_map] at hcollected
  exact ⟨hstays, hcollected⟩

/-- Nothing comes to be in progress under a name under which nothing is done. -/
theorem Sound.named_run_nil (h : s.Sound) (acts : List Act)
    (hnames : ∀ act ∈ acts, act.name ≠ name) (hnone : s.named name = []) :
    (s.run acts).named name = [] := by
  induction acts generalizing s with
  | nil => exact hnone
  | cons act acts ih =>
      have hstep := (h.named_step_nil (hnames act (by simp)) hnone).1
      exact ih (h.step act) (fun act hmem => hnames act (by simp [hmem])) hstep

/-- What becomes of it over a run: it stays as long as its round does not end, and then nothing is
left of it. -/
theorem Sound.named_run_barrier (h : s.Sound) (hshows : s.coordinator.Shows phase owner t) {n : Nat}
    (acts : List Act) (hnames : ∀ act ∈ acts, act.name ≠ name)
    (hparked : s.named name = [(name, .parked ⟨.barrier phase owner, n⟩)]) :
    (s.run acts).named name =
      if t.firstEnding phase owner acts = none then
        [(name, .parked ⟨.barrier phase owner, n⟩)] else [] := by
  induction acts generalizing s t with
  | nil => exact hparked
  | cons act acts ih =>
      have hname : act.name ≠ name := hnames act (by simp)
      have hrest : ∀ act ∈ acts, act.name ≠ name := fun act hmem => hnames act (by simp [hmem])
      have hstep := (h.named_step_barrier hshows hname hparked).1
      show ((s.step act).2.run acts).named name = _
      cases hending : t.ending phase owner act with
      | none =>
          rw [if_pos hending] at hstep
          simpa [Turnout.firstEnding, hending] using
            ih (h.step act) (h.shows_step hshows act) hrest hstep
      | some answer =>
          rw [hending] at hstep
          simpa [Turnout.firstEnding, hending] using (h.step act).named_run_nil acts hrest hstep

/-- The call of who arrives: answered at once if it completes the round, and else parked. -/
theorem fst_perform_of_caller? {c : Coordinator} (hshows : c.Shows phase owner t) (now : Int64)
    {operation : Operation} {caller : ProcessId}
    (hcaller : operation.caller? phase owner = some caller) :
    (c.perform now operation).1 =
      if t.Completes caller then .answered (.ok .done)
      else .parked ⟨.barrier phase owner, c.issued⟩ := by
  have harrival : ((c.rendezvous phase owner caller).1.map fun _ => Value.done) =
      if t.Completes caller then .answered (.ok .done)
      else .parked ⟨.barrier phase owner, c.issued⟩ := by
    rw [Coordinator.fst_rendezvous]
    by_cases hcompletes : t.Completes caller
    · rw [if_pos hcompletes, if_pos ((hshows.lets_iff caller).mpr hcompletes)]
      rfl
    · rw [if_neg hcompletes, if_neg fun hlets => hcompletes ((hshows.lets_iff caller).mp hlets)]
      rfl
  cases operation with
  | ready p arriving =>
      simp only [Operation.caller?, Option.ite_none_right_eq_some, Option.some.injEq] at hcaller
      obtain ⟨⟨rfl, rfl⟩, rfl⟩ := hcaller
      exact harrival
  | finished p arriving =>
      simp only [Operation.caller?, Option.ite_none_right_eq_some, Option.some.injEq] at hcaller
      obtain ⟨⟨rfl, rfl⟩, rfl⟩ := hcaller
      exact harrival
  | _ => cases hcaller

/-- **What becomes of the call of who arrives** in its own step. -/
theorem Sound.named_step_caller (h : s.Sound) (hshows : s.coordinator.Shows phase owner t)
    {now : Int64} {operation : Operation} {caller : ProcessId}
    (hcaller : operation.caller? phase owner = some caller) (hnone : s.named name = []) :
    (t.Completes caller →
      (s.step (.call name now operation)).2.named name = [] ∧
        (s.step (.call name now operation)).1.filter (fun e => e.1 = name) =
          [(name, .ok .done)]) ∧
    (¬ t.Completes caller →
      (∃ n, (s.step (.call name now operation)).2.named name =
        [(name, .parked ⟨.barrier phase owner, n⟩)]) ∧
        (s.step (.call name now operation)).1.filter (fun e => e.1 = name) = []) := by
  obtain ⟨ending, hends, -⟩ := h.orderly.exists_ends_perform now operation
  have hreaction := fst_perform_of_caller? hshows now hcaller
  have hnamed : (s.call name now operation).named name =
      [(name, (s.coordinator.perform now operation).1)] := by
    rw [named, call, List.filter_append, show s.calls.filter _ = [] from hnone]
    simp
  obtain ⟨hstays, hcollected⟩ := named_collect (s.call name now operation) name
  rw [hnamed] at hstays hcollected
  constructor
  · intro hcompletes
    rw [if_pos hcompletes] at hreaction
    rw [hreaction] at hstays hcollected
    exact ⟨hstays, hcollected⟩
  · intro hcompletes
    rw [if_neg hcompletes] at hreaction
    rw [hreaction] at hstays hcollected hends
    -- Nobody has answered the new ticket so far.
    have hanswer : (s.call name now operation).coordinator.answers[s.coordinator.issued]? = none :=
      hends.orderly.unanswered _ ((hends.waits _).mpr (.inr rfl))
    rw [List.filterMap_cons, Coordinator.progress_parked_barrier, hanswer] at hcollected
    rw [List.filter_cons, Coordinator.progress_parked_isNone, hanswer] at hstays
    exact ⟨⟨s.coordinator.issued, hstays⟩, hcollected⟩

/-- **Rounds at a barrier are cut exactly.** Whatever is done at a new coordinator, for every phase
and owner:

* The turnout at the barrier is what the coordinator expects since it last started anew, and what is
  left of the callers since then when they are cut into rounds.
* The barrier has recorded the different callers of the open round, and so fewer than are expected
  or none.
* Who arrives goes through at once if that completes the round, and waits otherwise, until something
  ends the round: it goes through with the caller that completes it, is interrupted when the
  coordinator starts anew, and hears of neither before or again. -/
theorem rounds_cut_exactly (expected : UInt64) (phase : Phase) (owner : ProcessId)
    (acts : List Act) :
    let s := (new expected).run acts
    let t := (⟨expected, []⟩ : Turnout).run phase owner acts
    (∀ before since, acts = before ++ since → (∀ act ∈ since, act.restart? = none) →
      ∀ n, before = [] ∧ n = expected ∨ before.getLast?.bind Act.restart? = some n →
        t.expected = n ∧
          ∃ rounds, Cut n (since.filterMap (Act.caller? phase owner)) rounds t.callers) ∧
    s.coordinator.expected = t.expected ∧
    (s.coordinator.barrier phase owner).arrived.length = t.callers.dedup.length ∧
    ((s.coordinator.barrier phase owner).arrived.length < s.coordinator.expected.toNat ∨
      (s.coordinator.barrier phase owner).arrived.length = 0) ∧
    ∀ (name : String) (now : Int64) (operation : Operation) (caller : ProcessId),
      operation.caller? phase owner = some caller → s.named name = [] →
      (t.Completes caller →
        (s.step (.call name now operation)).1.filter (fun e => e.1 = name) =
          [(name, .ok .done)] ∧
        (s.step (.call name now operation)).2.named name = []) ∧
      (¬ t.Completes caller →
        (s.step (.call name now operation)).1.filter (fun e => e.1 = name) = [] ∧
        ∀ acts, (∀ act ∈ acts, act.name ≠ name) →
          let y := (s.step (.call name now operation)).2.run acts
          ((t.come caller).firstEnding phase owner acts = none →
            (∃ ticket, y.named name = [(name, .parked ticket)]) ∧
            ∀ act, act.name ≠ name →
              (y.step act).1.filter (fun e => e.1 = name) =
                ((((t.come caller).run phase owner acts).ending phase owner act).map
                  fun answer => (name, answer.outcomeAt phase owner)).toList) ∧
          ((t.come caller).firstEnding phase owner acts ≠ none →
            y.named name = [] ∧
            ∀ act, act.name ≠ name → (y.step act).1.filter (fun e => e.1 = name) = [])) := by
  intro s t
  obtain ⟨hs, ht⟩ : s.Sound ∧ s.coordinator.Shows phase owner t :=
    (sound_new expected).shows_run
      (Coordinator.shows_of_closed rfl (Coordinator.barrier_of_empty expected ∅ 0 ∅ phase owner))
      acts
  refine ⟨fun before since hacts hsince n hbefore => ?_, ht.expected, ht.length_arrived, ?_,
    fun name now operation caller hcaller hnone => ⟨fun hcompletes => ?_, fun hcompletes => ?_⟩⟩
  · have hempty : (⟨expected, []⟩ : Turnout).run phase owner before = ⟨n, []⟩ :=
      Turnout.run_of_restart hbefore
    have hover : t = (⟨n, []⟩ : Turnout).run phase owner since := by
      rw [← hempty, ← Turnout.run_append, ← hacts]
    have hcut : Cut (Turnout.mk n []).expected [] [] (Turnout.mk n []).callers := cut_nil n
    rw [hover]
    exact Turnout.cut_run since hsince hcut
  · have hlength := ht.length_arrived
    have hunfinished := ht.unfinished
    rw [← ht.expected, ← hlength] at hunfinished
    unfold roundSize at hunfinished
    omega
  · exact ((hs.named_step_caller ht hcaller hnone).1 hcompletes).symm
  · obtain ⟨⟨n, hparked⟩, hnothing⟩ := (hs.named_step_caller ht hcaller hnone).2 hcompletes
    refine ⟨hnothing, fun acts hnames => ?_⟩
    intro y
    have hshows : (s.step (.call name now operation)).2.coordinator.Shows phase owner
        (t.come caller) := by
      rw [← Turnout.after_of_caller? name now hcaller]
      exact hs.shows_step ht _
    have hstart := hs.step (.call name now operation)
    obtain ⟨hy, hyshows⟩ : y.Sound ∧ y.coordinator.Shows phase owner
        ((t.come caller).run phase owner acts) := hstart.shows_run hshows acts
    have hnamed : y.named name = _ := hstart.named_run_barrier hshows acts hnames hparked
    constructor
    · intro hending
      rw [if_pos hending] at hnamed
      exact ⟨⟨_, hnamed⟩, fun act hname => (hy.named_step_barrier hyshows hname hnamed).2⟩
    · intro hending
      rw [if_neg hending] at hnamed
      exact ⟨hnamed, fun act hname => (hy.named_step_nil hname hnamed).2⟩

/-- One process comes twice before the other one does, and has hung up the second time. -/
theorem rounds_cut_exactly_repeated :
    ∃ y : Session,
      y = ((new 2).run [.call "first" 0 (.ready "P1" "P1"), .call "again" 0 (.ready "P1" "P1"),
        .hangUp "again"]) ∧
      (y.coordinator.barrier .ready "P1").arrived = ["P1"] ∧
      (y.step (.call "last" 0 (.ready "P1" "P2"))).1.filter (fun e => e.1 = "first") =
        [("first", .ok .done)] := by
  refine ⟨_, rfl, by decide +kernel, ?_⟩
  have hround := (rounds_cut_exactly 2 .ready "P1" []).2.2.2.2 "first" 0 (.ready "P1" "P1") "P1"
    (by decide) (by decide +kernel)
  exact (((hround.2 (by decide)).2 [.call "again" 0 (.ready "P1" "P1"), .hangUp "again"]
    (by decide)).1 (by decide)).2 (.call "last" 0 (.ready "P1" "P2")) (by decide)

end Session

end CriticalSection
