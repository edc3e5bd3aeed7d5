import CriticalSection.Proofs.Exclusion.Progress
import CriticalSection.Proofs.LineUps.Moves

/-!
# Rounds are never mixed

The barriers of a party open one by one and close again at once. So a fast client can be in the next
round at one barrier while a slow one is still in the last round at another. Nevertheless no line-up
returns before every client has begun the line-up with the same number, and none is forgotten.

The invariant is that a client begins the line-up with a certain number only after all barriers have
opened that often. That keeps it from arriving anywhere twice in a round.
-/

set_option autoImplicit false

namespace CriticalSection

variable {s : Extent}

namespace Party

variable {party : Party s} {order : Nat → Phase} {c c' : Cluster s}
  {a a' : ProcessId → Attendance} {p q : ProcessId} {n : Nat}

/-! ## Drills -/

/-- **Where a client stands** that has made `n` line-ups. -/
def Lined (party : Party s) (order : Nat → Phase) (c : Cluster s)
    (a : ProcessId → Attendance) (p : ProcessId) (n : Nat) : Option (Call s) → Prop
  | none => party.Past a p n
  | some call => ∃ l, call = .lineUp (party.client p) l ∧ party.InLine order c a p n l

/-- **What is known of a client** that has made some line-ups and now makes a call or none: they
have all ended well, and all barriers have opened for them. -/
structure Served (party : Party s) (order : Nat → Phase) (c : Cluster s)
    (a : ProcessId → Attendance) (p : ProcessId) (outcomes : List (Outcome Yield))
    (call : Option (Call s)) : Prop where
  lined : party.Lined order c a p outcomes.length call
  opened : ∀ q ∈ party.processes, outcomes.length ≤ (a q).opened
  well : ∀ outcome ∈ outcomes, outcome = .ok .nothing

/-- **Drills in good order**, with the attendance at all processes. -/
structure Disciplined (party : Party s) (order : Nat → Phase) (a : ProcessId → Attendance)
    (x : Drill s) : Prop where
  prepared : party.Prepared x.scene.cluster
  attended : party.Attended order x.scene.cluster a
  served : ∀ p ∈ party.processes,
    party.Served order x.scene.cluster a p (x.returned p) (x.scene.calls p)
  idle : ∀ p, p ∉ party.processes → x.scene.calls p = none

/-- A client is served as before when its parts stand as before and no barrier forgets that it has
opened. -/
theorem Served.congr {outcomes : List (Outcome Yield)} {call : Option (Call s)}
    (h : party.Served order c a p outcomes call)
    (hplaced : ∀ q n part, party.Placed order c (a q) p q n part →
      party.Placed order c' (a' q) p q n part)
    (harrivals : ∀ q, (a' q).arrivals p = (a q).arrivals p)
    (hopened : ∀ q, (a q).opened ≤ (a' q).opened) : party.Served order c' a' p outcomes call := by
  refine ⟨?_, fun q hq => (h.opened q hq).trans (hopened q), h.well⟩
  have hlined := h.lined
  cases call with
  | none =>
      intro q hq
      obtain ⟨hn, hle⟩ := hlined q hq
      exact ⟨(harrivals q).trans hn, hle.trans (hopened q)⟩
  | some call =>
      obtain ⟨l, rfl, hline⟩ := hlined
      exact ⟨l, rfl, hline.phase, hline.parts, fun e he => hplaced _ _ _ (hline.placed e he)⟩

/-- A line-up at its start. -/
theorem inLine_start (hp : p ∈ party.processes) (hpast : party.Past a p n) :
    party.InLine order c a p n (.start (party.client p) (order n)) := by
  have hparts : (FanOut.start (party.client p) (party.client p).processes).parts =
      party.processes.map fun q => (q, .unrouted) := by
    rw [FanOut.start, party.processes_client p hp]
  refine ⟨rfl, ?_, fun e he => ?_⟩
  · rw [LineUp.start, hparts, List.map_map]
    exact List.map_id _
  · rw [LineUp.start, hparts] at he
    obtain ⟨q, hq, rfl⟩ := List.mem_map.mp he
    exact (hpast q hq).1

/-- **A drill stays in good order when one client moves**, if the others see no more of it than of
the move of a part. -/
theorem Disciplined.update {x : Drill s} (h : party.Disciplined order a x)
    (hp : p ∈ party.processes) (hshift : party.Shift order p q a a' x.scene.cluster c')
    {call : Option (Call s)} {outcomes : List (Outcome Yield)}
    (hserved : party.Served order c' a' p outcomes call) (admitted : ProcessId → Bool) :
    party.Disciplined order a' ⟨⟨c', Function.update x.scene.calls p call, admitted⟩,
      Function.update x.returned p outcomes⟩ := by
  refine ⟨hshift.prepared, hshift.attended, fun p' hp' => ?_, fun p' hp' => ?_⟩
  · by_cases hne : p' = p
    · subst hne
      simp only [Function.update_self]
      exact hserved
    · simp only [Function.update_of_ne hne]
      have hother : ∀ q', ¬(p' = p ∧ q' = q) := fun q' hsame => hne hsame.1
      exact (h.served p' hp').congr (fun q' n part => hshift.placed p' q' n part (hother q'))
        (fun q' => hshift.arrivals p' q' (hother q')) hshift.opened
  · have hne : p' ≠ p := fun heq => hp' (heq ▸ hp)
    simp only [Function.update_of_ne hne]
    exact h.idle p' hp'

/-- The same when nothing has returned. -/
theorem Disciplined.update_call {x : Drill s} (h : party.Disciplined order a x)
    (hp : p ∈ party.processes) (hshift : party.Shift order p q a a' x.scene.cluster c')
    {call : Option (Call s)} (admitted : ProcessId → Bool)
    (hlined : party.Lined order c' a' p (x.returned p).length call) :
    party.Disciplined order a'
      ⟨⟨c', Function.update x.scene.calls p call, admitted⟩, x.returned⟩ := by
  have hserved := h.served p hp
  have hnext := h.update hp hshift ⟨hlined, fun q' hq' =>
    (hserved.opened q' hq').trans (hshift.opened q'), hserved.well⟩ admitted
  rwa [Function.update_eq_self] at hnext

/-- Who makes no call is between two line-ups. -/
theorem Disciplined.past {x : Drill s} (h : party.Disciplined order a x)
    (hp : p ∈ party.processes) (hidle : x.scene.calls p = none) :
    party.Past a p (x.returned p).length := by
  have hlined := (h.served p hp).lined
  rwa [hidle] at hlined

/-- Who makes a call lines up. -/
theorem Disciplined.exists_line {x : Drill s} (h : party.Disciplined order a x) {call : Call s}
    (hcall : x.scene.calls p = some call) : p ∈ party.processes ∧
      ∃ l, call = .lineUp (party.client p) l ∧
        party.InLine order x.scene.cluster a p (x.returned p).length l := by
  have hp : p ∈ party.processes := by
    by_contra hp
    rw [h.idle p hp] at hcall
    cases hcall
  have hlined := (h.served p hp).lined
  rw [hcall] at hlined
  exact ⟨hp, hlined⟩

/-- **One step.** Whatever happens in a drill keeps it in good order. -/
theorem Disciplined.turn {x y : Drill s} (hnodup : party.processes.Nodup)
    (h : party.Disciplined order a x) (hturn : Drill.Turn party order x y) :
    ∃ a', party.Disciplined order a' y := by
  cases hturn with
  | @begin p hp hidle =>
      have hline : party.InLine order x.scene.cluster a p (x.returned p).length
          (.start (party.client p) (order (x.returned p).length)) :=
        inLine_start hp (h.past hp hidle)
      exact ⟨a, h.update_call hp (shift_unnoticed h.prepared h.attended (.refl _) p p) _
        ⟨_, rfl, hline⟩⟩
  | @move p place call call' c' hcall hstep =>
      obtain ⟨hp, l, rfl, hline⟩ := h.exists_line hcall
      rcases hmove : l.step (party.client p) place x.scene.cluster with ⟨move, c₁⟩
      simp only [Call.step, hmove] at hstep
      obtain ⟨hnext, rfl⟩ := Prod.mk.inj hstep
      have hwait : move ≠ .wait := by
        rintro rfl
        cases hnext
      obtain ⟨q, a', hshift, ⟨l', rfl, hline'⟩ | ⟨rfl, -⟩⟩ :=
        hline.step hnodup h.prepared h.attended hp (h.served p hp).opened hmove hwait
      · obtain rfl := Move.next.inj hnext
        exact ⟨a', h.update_call hp hshift _ ⟨l', rfl, hline'⟩⟩
      · cases hnext
  | @finish p place call outcome c' hcall hstep =>
      obtain ⟨hp, l, rfl, hline⟩ := h.exists_line hcall
      rcases hmove : l.step (party.client p) place x.scene.cluster with ⟨move, c₁⟩
      simp only [Call.step, hmove] at hstep
      obtain ⟨hfinish, rfl⟩ := Prod.mk.inj hstep
      have hwait : move ≠ .wait := by
        rintro rfl
        cases hfinish
      obtain ⟨q, a', hshift, ⟨l', rfl, -⟩ | ⟨rfl, hpast⟩⟩ :=
        hline.step hnodup h.prepared h.attended hp (h.served p hp).opened hmove hwait
      · cases hfinish
      · obtain rfl := Move.finish.inj hfinish
        have hlength : ∀ outcome, (x.returned p ++ [outcome]).length = (x.returned p).length + 1 :=
          fun outcome => List.length_append
        refine ⟨a', h.update hp hshift ⟨?_, fun q' hq' => ?_, fun outcome houtcome => ?_⟩ _⟩
        · rw [hlength]
          exact hpast
        · rw [hlength]
          exact (hpast q' hq').2
        · rcases List.mem_append.mp houtcome with hold | hnew
          · exact (h.served p hp).well outcome hold
          · exact List.mem_singleton.mp hnew
  | @aside c' hc =>
      have hcoordinator := coordinator_unnoticed hc
      refine ⟨a, h.prepared.unnoticed hc, fun q hq => ?_, fun p hp => ?_, h.idle⟩
      · rw [hcoordinator]
        exact h.attended q hq
      · exact (h.served p hp).congr (fun _ _ _ hpart => hpart.congr hcoordinator)
          (fun _ => rfl) fun _ => Nat.le_refl _

theorem Mustered.disciplined {x : Scene s} (h : party.Mustered x) :
    party.Disciplined order (fun _ => .empty) (.start x) := by
  refine ⟨⟨h.assembled.settled, h.connected, h.expected, h.uncancelled⟩, fun q hq => ?_,
    fun p _ => ⟨?_, fun _ _ => Nat.zero_le _, fun outcome houtcome => ?_⟩,
    fun p _ => (h.assembled.idle p).1⟩
  · obtain ⟨expected, records, hcoordinator⟩ := h.assembled.unused (party.host q)
    refine Coordinator.attended_empty order hq fun phase => ?_
    rw [show (Drill.start x).scene.cluster.coordinator _ = _ from hcoordinator]
    cases phase <;> simp [Coordinator.barrier, Coordinator.barriers, Coordinator.new]
  · rw [show (Drill.start x).scene.calls p = none from (h.assembled.idle p).1]
    exact fun _ _ => ⟨rfl, Nat.le_refl _⟩
  · exact absurd houtcome List.not_mem_nil

/-- **Every drill is in good order.** -/
theorem Drills.disciplined (hnodup : party.processes.Nodup) {x : Drill s}
    (h : party.Drills order x) : ∃ a, party.Disciplined order a x := by
  obtain ⟨start, hmustered, hrun⟩ := h
  induction hrun with
  | refl => exact ⟨_, hmustered.disciplined⟩
  | tail _ hstep ih =>
      obtain ⟨a, hdisciplined⟩ := ih
      obtain ⟨o, hstep⟩ := hstep
      exact hdisciplined.turn hnodup (Drill.turn_of_step hstep)

/-! ## Rounds -/

/-- A line-up has a part for every process. -/
theorem InLine.exists_part {l : LineUp s} (h : party.InLine order c a p n l)
    (hq : q ∈ party.processes) : ∃ part, (q, part) ∈ l.fan.parts := by
  rw [← h.parts] at hq
  obtain ⟨⟨q, part⟩, he, rfl⟩ := List.mem_map.mp hq
  exact ⟨part, he⟩

/-- Nobody has arrived anywhere more often than it has begun to line up. -/
theorem Disciplined.arrivals_le_begun {x : Drill s} (h : party.Disciplined order a x)
    (hp : p ∈ party.processes) (hq : q ∈ party.processes) :
    (a q).arrivals p ≤ x.begun p := by
  cases hcall : x.scene.calls p with
  | none =>
      rw [Drill.begun_of_idle hcall]
      exact Nat.le_of_eq (h.past hp hcall q hq).1
  | some call =>
      obtain ⟨-, l, -, hline⟩ := h.exists_line hcall
      obtain ⟨part, he⟩ := hline.exists_part hq
      have hpart := hline.placed _ he
      rw [Drill.begun_of_call hcall]
      cases part with
      | unrouted => exact (Nat.le_of_eq hpart).trans (Nat.le_succ _)
      | routed b => exact (Nat.le_of_eq hpart.2).trans (Nat.le_succ _)
      | parked b t => exact Nat.le_of_eq hpart.2.1
      | answered => exact Nat.le_of_eq hpart.1
      | failed fault => exact hpart.elim

/-- **Nobody returns too early**: by the time the barriers of a process have opened for a line-up,
that process has begun it as well. -/
theorem Disciplined.length_le_begun {x : Drill s} (h : party.Disciplined order a x)
    (hp : p ∈ party.processes) (hq : q ∈ party.processes) :
    (x.returned p).length ≤ x.begun q := by
  have hpace := (h.attended q hq).pace q hq
  calc (x.returned p).length ≤ (a q).opened := (h.served p hp).opened q hq
    _ ≤ (a q).arrivals q := by omega
    _ ≤ x.begun q := h.arrivals_le_begun hq hq

/-- **A line-up that cannot move** has arrived everywhere, and waits for openings that have not
come. -/
theorem InLine.stuck {l : LineUp s} (hprepared : party.Prepared c) (hp : p ∈ party.processes)
    (h : party.InLine order c a p n l)
    (hstuck : ∀ place, (l.step (party.client p) place c).1 = .wait) :
    l.fan.complete = false ∧ ∀ e ∈ l.fan.parts, (a e.1).arrivals p = n + 1 ∧
      (e.2.isAnswered = true ∨ (a e.1).opened = n) := by
  have hfan : ∀ place, (l.fan.step (party.client p)
      (LineUp.question (party.client p) l.phase) place c).1 = .wait := by
    intro place
    have hplace := hstuck place
    unfold LineUp.step at hplace
    rw [if_neg (by simp [hprepared.uncancelled p hp])] at hplace
    split at hplace
    · next heq => rw [heq]
    · cases hplace
    · cases hplace
  refine ⟨(FanOut.waits_of_step (hfan 0)).1, fun e he => ?_⟩
  obtain ⟨place, hplace⟩ := List.mem_iff_getElem?.mp he
  have hpart := h.placed e he
  rcases Part.waits_of_step ((FanOut.waits_of_step (hfan place)).2 e.1 e.2 hplace) with
    ⟨b, t, heq, hnone⟩ | hanswered | hfault
  · rw [heq] at hpart
    exact ⟨hpart.2.1, Or.inr (hpart.opened_of_outcome hnone)⟩
  · refine ⟨?_, Or.inl hanswered⟩
    cases heq : e.2 with
    | answered =>
        rw [heq] at hpart
        exact hpart.1
    | _ =>
        rw [heq] at hanswered
        cases hanswered
  · exact absurd (h.fault_eq_none he) hfault

/-- **Nobody is forgotten**: when no line-up can move, those that all clients have begun have
returned. -/
theorem Disciplined.lt_length_of_stuck {x : Drill s} (hnodup : party.processes.Nodup)
    (h : party.Disciplined order a x)
    (hstuck : ∀ p place, x.step party order (.advance p place) = none) {k : Nat}
    (hbegun : ∀ p ∈ party.processes, k < x.begun p) (hp : p ∈ party.processes) :
    k < (x.returned p).length := by
  have hwait : ∀ {p l}, x.scene.calls p = some (.lineUp (party.client p) l) →
      ∀ place, (l.step (party.client p) place x.scene.cluster).1 = .wait := fun hcall place =>
    Move.eq_wait_of_map (Drill.wait_of_step hcall (hstuck _ place))
  have hp_begun := hbegun p hp
  cases hcall : x.scene.calls p with
  | none => rwa [Drill.begun_of_idle hcall] at hp_begun
  | some call =>
      rw [Drill.begun_of_call hcall] at hp_begun
      obtain ⟨-, l, rfl, hline⟩ := h.exists_line hcall
      -- The line-up waits for an opening with its number.
      obtain ⟨hcomplete, hparts⟩ := hline.stuck h.prepared hp (hwait hcall)
      obtain ⟨e, he, hunanswered⟩ := List.all_eq_false.mp hcomplete
      have hq : e.1 ∈ party.processes := hline.parts ▸ List.mem_map.mpr ⟨e, he, rfl⟩
      have hopened := (hparts e he).2.resolve_left hunanswered
      -- Somebody has not arrived there that often, and whoever has begun so many line-ups has.
      obtain ⟨p', hp', hmissing⟩ := (h.attended e.1 hq).exists_missing hnodup
      have hp'_begun := hbegun p' hp'
      cases hcall' : x.scene.calls p' with
      | none =>
          rw [Drill.begun_of_idle hcall'] at hp'_begun
          have harrivals := (h.past hp' hcall' e.1 hq).1
          omega
      | some call' =>
          rw [Drill.begun_of_call hcall'] at hp'_begun
          obtain ⟨-, l', rfl, hline'⟩ := h.exists_line hcall'
          obtain ⟨part', he'⟩ := hline'.exists_part hq
          have harrivals : (a e.1).arrivals p' = (x.returned p').length + 1 :=
            ((hline'.stuck h.prepared hp' (hwait hcall')).2 _ he').1
          omega

/-- **Rounds are never mixed.** When a line-up returns, every client has begun the one with the same
number, and it returns well; and when no line-up can move, all those that every client has begun
have returned. -/
theorem rounds_unmixed (party : Party s) (order : Nat → Phase) (hnodup : party.processes.Nodup)
    {x : Drill s} (h : party.Drills order x) :
    (∀ p ∈ party.processes, ∀ k < (x.returned p).length,
      (∀ q ∈ party.processes, k < x.begun q) ∧ (x.returned p)[k]? = some (.ok .nothing)) ∧
    ∀ k, (∀ p place, x.step party order (.advance p place) = none) →
      (∀ p ∈ party.processes, k < x.begun p) →
      ∀ p ∈ party.processes, (x.returned p)[k]? = some (.ok .nothing) := by
  obtain ⟨a, hdisciplined⟩ := h.disciplined hnodup
  have hwell : ∀ p ∈ party.processes, ∀ k < (x.returned p).length,
      (x.returned p)[k]? = some (.ok .nothing) := by
    intro p hp k hk
    rw [List.getElem?_eq_getElem hk, (hdisciplined.served p hp).well _ (List.getElem_mem hk)]
  refine ⟨fun p hp k hk => ⟨fun q hq => ?_, hwell p hp k hk⟩, fun k hstuck hbegun p hp => ?_⟩
  · exact Nat.lt_of_lt_of_le hk (hdisciplined.length_le_begun hp hq)
  · exact hwell p hp k (hdisciplined.lt_length_of_stuck hnodup hstuck hbegun hp)

/-! ### A pair -/

theorem mustered_pair : pair.Mustered together := by
  refine ⟨assembled_assembly .., connected_assembly .., fun b => ?_, ?_⟩
  · rw [together, coordinator_assembly]
    revert b
    decide +kernel
  · decide +kernel

/-- Getting ready and being finished in turns. -/
def inTurns (k : Nat) : Phase := if k % 2 = 0 then .ready else .finished

/-- Both of a pair get ready, up to the return of the second. -/
def readiness : List (Occasion ⟨1, 1, 1⟩) :=
  [.begin "P1" (.lineUp .ready), .begin "P2" (.lineUp .ready),
    .advance "P1" 0, .advance "P1" 0, .advance "P1" 1, .advance "P1" 1,
    .advance "P2" 0, .advance "P2" 0, .advance "P2" 1, .advance "P2" 1]

/-- The drill of a pair that gets ready and goes on. -/
def afterReadiness (rest : List (Occasion ⟨1, 1, 1⟩)) : Option (Drill ⟨1, 1, 1⟩) :=
  (readiness ++ rest).foldlM (Drill.step pair inTurns) (.start together)

/-- The second of a pair is back and waits already for the first to be finished, while the first has
not been told that both are ready. When it has, nothing is left to do. -/
theorem rounds_unmixed_pair : pair.processes.Nodup ∧
    (∃ x, pair.Drills inTurns x ∧ (x.returned "P2").length = 1 ∧ x.begun "P2" = 2 ∧
      (x.returned "P1").length = 0 ∧ 0 < x.begun "P1") ∧
    ∃ x, pair.Drills inTurns x ∧ (∀ p place, x.step pair inTurns (.advance p place) = none) ∧
      ∀ p ∈ pair.processes, (x.returned p)[0]? = some (.ok .nothing) := by
  have hnodup : pair.processes.Nodup := by decide
  refine ⟨hnodup, ?_, ?_⟩
  · have hplay : (afterReadiness
        [.begin "P2" (.lineUp .finished), .advance "P2" 0, .advance "P2" 0]).any (fun x =>
          (x.returned "P2").length = 1 ∧ x.begun "P2" = 2 ∧ (x.returned "P1").length = 0) =
        true := by
      decide +kernel
    obtain ⟨x, hx, hcounts⟩ := (Option.any_eq_true _ _).mp hplay
    obtain ⟨hback, hbegun, hlate⟩ := of_decide_eq_true hcounts
    have hdrills := drills_of_play pair mustered_pair hx
    have hround := (rounds_unmixed pair inTurns hnodup hdrills).1 "P2" (by decide) 0 (by omega)
    exact ⟨x, hdrills, hback, hbegun, hlate, hround.1 "P1" (by decide)⟩
  · have hplay : (afterReadiness [.advance "P1" 0, .advance "P1" 1]).any (fun x =>
        ∀ p ∈ pair.processes, (x.scene.calls p).isNone ∧ 0 < x.begun p) = true := by
      decide +kernel
    obtain ⟨x, hx, hidle⟩ := (Option.any_eq_true _ _).mp hplay
    have hidle := of_decide_eq_true hidle
    have hdrills := drills_of_play pair mustered_pair hx
    obtain ⟨a, hdisciplined⟩ := hdrills.disciplined hnodup
    have hstuck : ∀ p place, x.step pair inTurns (.advance p place) = none := by
      intro p place
      refine Drill.step_of_idle ?_
      by_cases hp : p ∈ pair.processes
      · exact Option.isNone_iff_eq_none.mp (hidle p hp).1
      · exact hdisciplined.idle p hp
    exact ⟨x, hdrills, hstuck, (rounds_unmixed pair inTurns hnodup hdrills).2 0 hstuck
      fun p hp => (hidle p hp).2⟩

end Party

end CriticalSection
