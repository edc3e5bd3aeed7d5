import CriticalSection.Proofs.Coordinator.Barriers
import CriticalSection.Proofs.LineUps.Drill

/-!
# The moves of a line-up

A line-up has a part for every process of the party, and each part arrives once at a barrier of its
process. Seen from the barriers, a drill is a number of arrivals, counted for each process by its
attendance. This module says where the parts of a line-up stand towards that attendance, that every
move of a part leaves all other parts where they stand, and that a line-up goes on or ends well,
with all openings past that have its number.
-/

set_option autoImplicit false

namespace CriticalSection

variable {s : Extent}

/-! ## Line-ups and attendance -/

namespace Party

/-- **A cluster that is prepared for a drill.** -/
structure Prepared (party : Party s) (c : Cluster s) : Prop where
  settled : party.Settled c
  connected : party.Connected c
  expected : ∀ b, (c.coordinator b).expected.toNat = party.processes.length
  uncancelled : ∀ p ∈ party.processes, (party.client p).isCancelled c = false

/-- **Where a part of a line-up stands**, which is that of `p` with the number `n`, at the barriers
of `q`: it is on its way, or it waits for the opening with the same number, or that is past. -/
def Placed (party : Party s) (order : Nat → Phase) (c : Cluster s) (a : Attendance)
    (p q : ProcessId) (n : Nat) : Part s → Prop
  | .unrouted => a.arrivals p = n
  | .routed b => b = party.host q ∧ a.arrivals p = n
  | .parked b t => b = party.host q ∧ a.arrivals p = n + 1 ∧
      (a.opened = n ∧ t.place = .barrier (order n) q ∧ (c.coordinator b).Waits t ∨
        n < a.opened ∧ (c.coordinator b).answers[t.number]? = some .granted)
  | .answered => a.arrivals p = n + 1 ∧ n < a.opened
  | .failed _ => False

/-- **A client in line**: it has been to no barrier more often than its parts say. -/
structure InLine (party : Party s) (order : Nat → Phase) (c : Cluster s)
    (a : ProcessId → Attendance) (p : ProcessId) (n : Nat) (l : LineUp s) : Prop where
  phase : l.phase = order n
  parts : l.fan.parts.map Prod.fst = party.processes
  placed : ∀ e ∈ l.fan.parts, party.Placed order c (a e.1) p e.1 n e.2

/-- **A client between two line-ups**, when it has made `n`. -/
def Past (party : Party s) (a : ProcessId → Attendance) (p : ProcessId) (n : Nat) : Prop :=
  ∀ q ∈ party.processes, (a q).arrivals p = n ∧ n ≤ (a q).opened

/-- All barriers of the party, as they stand. -/
def Attended (party : Party s) (order : Nat → Phase) (c : Cluster s)
    (a : ProcessId → Attendance) : Prop :=
  ∀ q ∈ party.processes,
    (c.coordinator (party.host q)).Attended order party.processes q (a q)

/-- **The move of a part** of `p` for `q`, as all others see it. -/
structure Shift (party : Party s) (order : Nat → Phase) (p q : ProcessId)
    (a a' : ProcessId → Attendance) (c c' : Cluster s) : Prop where
  prepared : party.Prepared c'
  attended : party.Attended order c' a'
  placed : ∀ p' q' n part, ¬(p' = p ∧ q' = q) → party.Placed order c (a q') p' q' n part →
    party.Placed order c' (a' q') p' q' n part
  arrivals : ∀ p' q', ¬(p' = p ∧ q' = q) → (a' q').arrivals p' = (a q').arrivals p'
  opened : ∀ q', (a q').opened ≤ (a' q').opened

variable {party : Party s} {order : Nat → Phase} {c c' : Cluster s}
  {a a' : ProcessId → Attendance} {p q : ProcessId} {n : Nat}

/-! ## What no coordinator notices -/

theorem Prepared.unnoticed (h : party.Prepared c) (hc : Drill.Unnoticed c c') :
    party.Prepared c' := by
  cases hc with
  | refl => exact h
  | refresh r =>
      exact ⟨(aside_refresh party c r).settled h.settled,
        h.connected.of_sameLayout (c.keeps_refresh r).layout, h.expected, h.uncancelled⟩
  | setTime time =>
      have haside : party.Aside c { c with now := time } := .of_eq party (fun _ => rfl) rfl
      exact ⟨haside.settled h.settled,
        h.connected.of_sameLayout ⟨fun _ => rfl, fun _ => rfl⟩, h.expected, h.uncancelled⟩

theorem coordinator_unnoticed (hc : Drill.Unnoticed c c') (b : Fin s.brokers) :
    c'.coordinator b = c.coordinator b := by
  cases hc <;> rfl

theorem Placed.congr {a : Attendance} {part : Part s} (h : party.Placed order c a p q n part)
    (hc : ∀ b, c'.coordinator b = c.coordinator b) : party.Placed order c' a p q n part := by
  cases part with
  | parked b t =>
      obtain ⟨hb, harrivals, hwait⟩ := h
      exact ⟨hb, harrivals, by rwa [hc]⟩
  | _ => exact h

theorem shift_unnoticed (hprepared : party.Prepared c) (hattended : party.Attended order c a)
    (hc : Drill.Unnoticed c c') (p q : ProcessId) : party.Shift order p q a a c c' := by
  refine ⟨hprepared.unnoticed hc, fun q hq => ?_, fun p' q' n part _ hpart => ?_,
    fun _ _ _ => rfl, fun _ => Nat.le_refl _⟩
  · rw [coordinator_unnoticed hc]
    exact hattended q hq
  · exact hpart.congr (coordinator_unnoticed hc)

/-! ## Arrivals -/

theorem Prepared.rendezvous (h : party.Prepared c) (b : Fin s.brokers) (phase : Phase)
    (owner caller : ProcessId) : party.Prepared
      (c.withCoordinator b ((c.coordinator b).rendezvous phase owner caller).2) := by
  refine ⟨h.settled.withCoordinator ((h.settled.orderly b).rendezvous phase owner caller)
      fun q => by rw [Coordinator.records_rendezvous],
    h.connected.of_sameLayout (c.keeps_withCoordinator b _).layout, fun b' => ?_, h.uncancelled⟩
  rw [Cluster.coordinator_withCoordinator]
  split
  · next heq =>
      subst heq
      rw [Coordinator.expected_rendezvous]
      exact h.expected b'
  · exact h.expected b'

/-- The attendance after a member has arrived at the barriers of a process. -/
def arrived (party : Party s) (order : Nat → Phase) (c : Cluster s)
    (a : ProcessId → Attendance) (p q : ProcessId) : ProcessId → Attendance :=
  Function.update a q ((a q).arrive p
    ((c.coordinator (party.host q)).lets (order (a q).opened) q p))

/-- The cluster after a member has arrived at the barriers of a process. -/
def afterArrival (party : Party s) (order : Nat → Phase) (c : Cluster s)
    (a : ProcessId → Attendance) (p q : ProcessId) : Cluster s :=
  c.withCoordinator (party.host q)
    ((c.coordinator (party.host q)).rendezvous (order (a q).opened) q p).2

section Arrived

variable (party order c a)

theorem arrived_self (p q : ProcessId) : party.arrived order c a p q q =
    (a q).arrive p ((c.coordinator (party.host q)).lets (order (a q).opened) q p) :=
  Function.update_self ..

theorem arrived_of_ne (p : ProcessId) {q q' : ProcessId} (hne : q' ≠ q) :
    party.arrived order c a p q q' = a q' := Function.update_of_ne hne ..

theorem le_opened_arrived (p q q' : ProcessId) :
    (a q').opened ≤ (party.arrived order c a p q q').opened := by
  by_cases hq : q' = q
  · subst hq
    rw [arrived_self, Attendance.opened_arrive]
    exact Nat.le_add_right _ _
  · exact Nat.le_of_eq (congrArg Attendance.opened (arrived_of_ne party order c a p hq)).symm

theorem arrivals_arrived {p q p' q' : ProcessId} (hother : ¬(p' = p ∧ q' = q)) :
    (party.arrived order c a p q q').arrivals p' = (a q').arrivals p' := by
  by_cases hq : q' = q
  · subst hq
    rw [arrived_self]
    exact Attendance.arrivals_arrive_of_ne _ _ fun hp => hother ⟨hp, rfl⟩
  · rw [arrived_of_ne party order c a p hq]

theorem coordinator_afterArrival (p q : ProcessId) (b : Fin s.brokers) :
    (party.afterArrival order c a p q).coordinator b =
      if b = party.host q then
        ((c.coordinator (party.host q)).rendezvous (order (a q).opened) q p).2
      else c.coordinator b :=
  Cluster.coordinator_withCoordinator ..

end Arrived

/-- **Whoever waits at a barrier when somebody else arrives** waits on, or is let through by the
opening that it waits for. -/
theorem Placed.parked_arrived {p' q' : ProcessId} {b : Fin s.brokers} {t : Ticket}
    (horderly : ∀ b, (c.coordinator b).Orderly) (hother : ¬(p' = p ∧ q' = q))
    (h : party.Placed order c (a q') p' q' n (.parked b t)) :
    party.Placed order (party.afterArrival order c a p q) (party.arrived order c a p q q')
      p' q' n (.parked b t) := by
  obtain ⟨hb, harrivals, hwait⟩ := h
  refine ⟨hb, (arrivals_arrived party order c a hother).trans harrivals, ?_⟩
  have hopened := le_opened_arrived party order c a p q q'
  rw [coordinator_afterArrival]
  split
  · next heq =>
      have hends := (horderly (party.host q)).ends_rendezvous (order (a q).opened) q p
      rw [heq] at hwait
      rcases hwait with ⟨hn, hplace, hwaits⟩ | ⟨hn, hanswer⟩
      · by_cases hover : t.place = .barrier (order (a q).opened) q ∧
            (c.coordinator (party.host q)).lets (order (a q).opened) q p = true
        -- The barrier opens at which the ticket waits.
        · refine Or.inr ⟨?_, (hends.answers t hwaits).trans (if_pos hover)⟩
          obtain rfl : q' = q := (Place.barrier.inj (hplace.symm.trans hover.1)).2
          rw [arrived_self, hover.2, Attendance.opened_arrive, hn]
          exact Nat.lt_succ_self _
        · refine Or.inl ⟨?_, hplace, (hends.waits t).mpr (Or.inl ⟨hwaits, if_neg hover⟩)⟩
          by_cases hq : q' = q
          · subst hq
            have hlets : (c.coordinator (party.host q')).lets (order (a q').opened) q' p = false :=
              Bool.eq_false_iff.mpr fun hlets => hover ⟨hn ▸ hplace, hlets⟩
            rw [arrived_self, hlets]
            exact hn
          · rw [arrived_of_ne party order c a p hq]
            exact hn
      · exact Or.inr ⟨by omega, hends.kept _ _ hanswer⟩
  · next hne =>
      rcases hwait with ⟨hn, hplace, hwaits⟩ | ⟨hn, hanswer⟩
      · refine Or.inl ⟨?_, hplace, hwaits⟩
        have hq : q' ≠ q := fun hq => hne (hq ▸ hb)
        rw [arrived_of_ne party order c a p hq]
        exact hn
      · exact Or.inr ⟨by omega, hanswer⟩

/-- **An arrival, as all others see it.** -/
theorem shift_arrival (hprepared : party.Prepared c) (hattended : party.Attended order c a)
    (hp : p ∈ party.processes) (hq : q ∈ party.processes)
    (hdue : (a q).arrivals p = (a q).opened) :
    party.Shift order p q a (party.arrived order c a p q) c (party.afterArrival order c a p q) := by
  refine ⟨hprepared.rendezvous .., fun q' hq' => ?_, fun p' q' n part hother hpart => ?_,
    fun p' q' hother => arrivals_arrived party order c a hother,
    le_opened_arrived party order c a p q⟩
  · rw [coordinator_afterArrival]
    by_cases hqq : q' = q
    · subst hqq
      rw [if_pos rfl, arrived_self]
      exact (hattended q' hq').rendezvous (hprepared.expected _) hp hdue
    · rw [arrived_of_ne party order c a p hqq]
      split
      · next heq =>
          rw [← heq]
          exact (hattended q' hq').rendezvous_of_ne _ hqq p
      · exact hattended q' hq'
  · have harrivals := arrivals_arrived party order c a hother
    have hopened := le_opened_arrived party order c a p q q'
    cases part with
    | unrouted => exact harrivals.trans hpart
    | routed b => exact ⟨hpart.1, harrivals.trans hpart.2⟩
    | parked b t => exact hpart.parked_arrived hprepared.settled.orderly hother
    | answered => exact ⟨harrivals.trans hpart.1, Nat.lt_of_lt_of_le hpart.2 hopened⟩
    | failed fault => exact hpart.elim

/-! ## The move of a part -/

/-- Looking for a process goes unnoticed by the coordinators. -/
theorem unnoticed_route (client : Client s) (p : ProcessId) (c : Cluster s) :
    Drill.Unnoticed c (client.route p c).2 := by
  have hroute : Drill.Unnoticed c (c.route client.router p).2 := by
    rw [Cluster.route_eq]
    split
    · exact .refl c
    · exact .refresh c _
  rw [Client.route_eq]
  split <;> exact hroute

/-- A part that arrives at the barriers of its process in the round that is open there is let
through or waits for the opening. -/
theorem Prepared.request_arrival (hprepared : party.Prepared c) (hp : p ∈ party.processes)
    (harrivals : (a q).arrivals p = n) (hopened : (a q).opened = n) :
    ∃ reaction, c.request (party.host q) (LineUp.question (party.client p) (order n) q) =
        (reaction, party.afterArrival order c a p q) ∧
      ((reaction = .answered (.ok ()) ∧ party.Placed order (party.afterArrival order c a p q)
          (party.arrived order c a p q q) p q n .answered) ∨
        ∃ t, reaction = .parked t ∧ party.Placed order (party.afterArrival order c a p q)
          (party.arrived order c a p q q) p q n (.parked (party.host q) t)) := by
  subst hopened
  have hrequest : c.request (party.host q)
      (LineUp.question (party.client p) (order (a q).opened) q) =
        (((c.coordinator (party.host q)).rendezvous (order (a q).opened) q p).1,
          party.afterArrival order c a p q) := by
    rw [Cluster.request_eq, hprepared.connected.within, LineUp.question,
      party.process_client p hp, afterArrival]
  have harrived : (party.arrived order c a p q q).arrivals p = (a q).opened + 1 := by
    rw [arrived_self, Attendance.arrivals_arrive, harrivals]
  refine ⟨_, hrequest, ?_⟩
  rw [Coordinator.fst_rendezvous]
  cases hlets : (c.coordinator (party.host q)).lets (order (a q).opened) q p with
  | true =>
      refine Or.inl ⟨rfl, harrived, ?_⟩
      rw [arrived_self, hlets, Attendance.opened_arrive]
      exact Nat.lt_succ_self _
  | false =>
      refine Or.inr ⟨_, rfl, rfl, harrived, Or.inl ⟨?_, rfl, ?_⟩⟩
      · rw [arrived_self, hlets, Attendance.opened_arrive]
        rfl
      · have hends := (hprepared.settled.orderly (party.host q)).ends_rendezvous
          (order (a q).opened) q p
        rw [Coordinator.fst_rendezvous, hlets] at hends
        rw [coordinator_afterArrival, if_pos rfl]
        exact (hends.waits _).mpr (Or.inr rfl)

/-- Whoever is told of an opening has been waiting for it. -/
theorem Placed.answered_of_outcome {b : Fin s.brokers} {t : Ticket} {outcome : Outcome Unit}
    {a : Attendance} (horderly : ∀ b, (c.coordinator b).Orderly)
    (h : party.Placed order c a p q n (.parked b t)) (houtcome : c.outcome? b t = some outcome) :
    outcome = .ok () ∧ party.Placed order c a p q n .answered := by
  obtain ⟨-, harrivals, hwait⟩ := h
  rcases hwait with ⟨-, -, hwaits⟩ | ⟨hn, hanswer⟩
  · rw [Cluster.outcome?_of_unanswered ((horderly b).unanswered t hwaits)] at houtcome
    cases houtcome
  · rw [Cluster.outcome?_of_granted hanswer] at houtcome
    exact ⟨(Option.some.inj houtcome).symm, harrivals, hn⟩

/-- Whoever is told nothing waits for an opening that has not come. -/
theorem Placed.opened_of_outcome {b : Fin s.brokers} {t : Ticket} {a : Attendance}
    (h : party.Placed order c a p q n (.parked b t)) (hnone : c.outcome? b t = none) :
    a.opened = n := by
  obtain ⟨-, -, ⟨hopened, -, -⟩ | ⟨-, hanswer⟩⟩ := h
  · exact hopened
  · rw [Cluster.outcome?_of_granted hanswer] at hnone
    cases hnone

/-- **What a part does** when the line-ups of its client before this one are past: it gets on, and
leaves all others where they stand. -/
theorem exists_shift_of_part {part part' : Part s} (hprepared : party.Prepared c)
    (hattended : party.Attended order c a) (hp : p ∈ party.processes)
    (hq : q ∈ party.processes) (hdue : n ≤ (a q).opened)
    (hpart : party.Placed order c (a q) p q n part)
    (h : part.step (party.client p) (LineUp.question (party.client p) (order n)) q c =
      (some part', c')) :
    ∃ a', party.Shift order p q a a' c c' ∧ party.Placed order c' (a' q) p q n part' := by
  rcases Part.step_cases h with ⟨rfl, ⟨b, hroute, rfl⟩ | ⟨fault, hroute, rfl⟩⟩ |
    ⟨b, rfl, hreaction⟩ | ⟨b, t, outcome, rfl, houtcome, rfl, rfl⟩
  -- It finds the home of its process.
  · have hunnoticed := unnoticed_route (party.client p) q c
    rw [hroute] at hunnoticed
    exact ⟨a, shift_unnoticed hprepared hattended hunnoticed p q,
      hprepared.settled.host_of_clientRoute hq hroute, hpart⟩
  · exact absurd hroute (hprepared.connected.route hprepared.settled hp hq fault)
  -- It arrives there, in the round with its number: it has not been there in this round, and the
  -- rounds before are over.
  · obtain ⟨rfl, harrivals⟩ := hpart
    have hopened : (a q).opened = n := by
      have hpace := (hattended q hq).pace p hp
      omega
    have hshift := shift_arrival hprepared hattended hp hq (harrivals.trans hopened.symm)
    obtain ⟨reaction, hrequest, hplaced⟩ := hprepared.request_arrival hp harrivals hopened
    rw [hrequest] at hreaction
    rcases hplaced with ⟨rfl, hplaced⟩ | ⟨t', rfl, hplaced⟩
    · rcases hreaction with ⟨t, heq, -⟩ | ⟨outcome, heq, rfl⟩
      · cases heq
      · cases heq
        exact ⟨_, hshift, hplaced⟩
    · rcases hreaction with ⟨t, heq, rfl⟩ | ⟨outcome, heq, -⟩
      · cases heq
        exact ⟨_, hshift, hplaced⟩
      · cases heq
  -- It takes its answer.
  · obtain ⟨rfl, hplaced⟩ := hpart.answered_of_outcome hprepared.settled.orderly houtcome
    exact ⟨a, shift_unnoticed hprepared hattended (.refl _) p q, hplaced⟩

/-! ## The move of a line-up -/

/-- Once all parts have been answered, all openings are past. -/
theorem InLine.past {l : LineUp s} (h : party.InLine order c a p n l)
    (hcomplete : l.fan.complete = true) : party.Past a p (n + 1) := by
  intro q hq
  rw [← h.parts] at hq
  obtain ⟨⟨q, part⟩, he, rfl⟩ := List.mem_map.mp hq
  have hanswered : part.isAnswered = true := List.all_eq_true.mp hcomplete _ he
  have hpart := h.placed _ he
  cases part with
  | answered => exact hpart
  | _ => cases hanswered

/-- No part of a line-up fails. -/
theorem InLine.fault_eq_none {l : LineUp s} (h : party.InLine order c a p n l)
    {e : ProcessId × Part s} (he : e ∈ l.fan.parts) : e.2.fault? = none := by
  have hpart := h.placed e he
  cases hplaced : e.2 with
  | failed fault =>
      rw [hplaced] at hpart
      exact hpart.elim
  | _ => rfl

/-- **A line-up in which the part for one process has moved.** -/
theorem InLine.set {l : LineUp s} (hnodup : party.processes.Nodup)
    (h : party.InLine order c a p n l) {place : Nat} {part part' : Part s}
    (hget : l.fan.parts[place]? = some (q, part)) (hshift : party.Shift order p q a a' c c')
    (hpart : party.Placed order c' (a' q) p q n part') :
    party.InLine order c' a' p n
      { l with fan := { l.fan with parts := l.fan.parts.set place (q, part') } } := by
  have hparts := FanOut.map_fst_set hget part'
  refine ⟨h.phase, hparts.trans h.parts, fun e he => ?_⟩
  rw [h.parts] at hparts
  obtain ⟨i, hi⟩ := List.mem_iff_getElem?.mp he
  simp only [List.getElem?_set] at hi
  split at hi
  · split at hi
    · obtain rfl := Option.some.inj hi
      exact hpart
    · cases hi
  -- Every process has one part only.
  · next hne =>
      refine hshift.placed p e.1 n e.2 (fun hsame => hne ?_)
        (h.placed e (List.mem_iff_getElem?.mpr ⟨i, hi⟩))
      have hfst : ∀ {j : Nat} {e' : ProcessId × Part s}, l.fan.parts[j]? = some e' →
          party.processes[j]? = some e'.1 := by
        intro j e' hj
        rw [← h.parts, List.getElem?_map, hj]
        rfl
      have hlt := (List.getElem?_eq_some_iff.mp (hfst hget)).1
      exact (List.getElem?_inj hlt hnodup).mp ((hfst hget).trans (hsame.2 ▸ (hfst hi).symm))

/-- **What a line-up does**: it goes on, or it ends well with all openings past. -/
theorem InLine.step {l : LineUp s} (hnodup : party.processes.Nodup)
    (hprepared : party.Prepared c) (hattended : party.Attended order c a)
    (hp : p ∈ party.processes) (hdue : ∀ q ∈ party.processes, n ≤ (a q).opened)
    (h : party.InLine order c a p n l) {place : Nat} {move : Move (LineUp s) Unit}
    (hstep : l.step (party.client p) place c = (move, c')) (hmove : move ≠ .wait) :
    ∃ q a', party.Shift order p q a a' c c' ∧
      ((∃ l', move = .next l' ∧ party.InLine order c' a' p n l') ∨
        move = .finish (.ok ()) ∧ party.Past a' p (n + 1)) := by
  unfold LineUp.step at hstep
  rw [if_neg (by simp [hprepared.uncancelled p hp])] at hstep
  rcases hfan : l.fan.step (party.client p) (LineUp.question (party.client p) l.phase) place c with
    ⟨m, c₁⟩
  rw [hfan] at hstep
  rcases FanOut.step_cases hfan with
    ⟨rfl, rfl⟩ | ⟨hcomplete, rfl, rfl⟩ | ⟨q, part, part', c₂, hget, hpartStep, hproceed⟩
  · exact absurd (Prod.mk.inj hstep).1.symm hmove
  · obtain ⟨rfl, rfl⟩ := Prod.mk.inj hstep
    exact ⟨p, a, shift_unnoticed hprepared hattended (.refl _) p p, Or.inr ⟨rfl, h.past hcomplete⟩⟩
  · have he := List.mem_of_getElem? hget
    have hq : q ∈ party.processes := h.parts ▸ List.mem_map.mpr ⟨_, he, rfl⟩
    rw [h.phase] at hpartStep
    obtain ⟨a', hshift, hpart'⟩ := exists_shift_of_part hprepared hattended hp hq (hdue q hq)
      (h.placed _ he) hpartStep
    have hline := h.set hnodup hget hshift hpart'
    rcases FanOut.proceed_cases hproceed with ⟨outcome, houtcome, rfl, rfl⟩ | ⟨-, rfl, rfl⟩
    · cases outcome with
      | error fault =>
          obtain ⟨e, he, hfault⟩ := FanOut.exists_fault_of_outcome houtcome
          rw [hline.fault_eq_none he] at hfault
          cases hfault
      | ok value =>
          -- Nobody is left who could hang up.
          have hcomplete := FanOut.complete_of_outcome houtcome
          rw [FanOut.hangUp_of_complete hcomplete] at hstep
          obtain ⟨rfl, rfl⟩ := Prod.mk.inj hstep
          exact ⟨q, a', hshift, Or.inr ⟨rfl, hline.past hcomplete⟩⟩
    · obtain ⟨rfl, rfl⟩ := Prod.mk.inj hstep
      exact ⟨q, a', hshift, Or.inl ⟨_, rfl, hline⟩⟩

end Party

end CriticalSection
