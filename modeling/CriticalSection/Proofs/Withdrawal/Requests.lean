import CriticalSection.Proofs.Attempt
import CriticalSection.Proofs.Withdrawal.Company

/-!
# Whose requests are parked

A request is parked on a record while the attempt that made it waits there, and no longer: a part
that is parked holds the ticket of its request, and it hangs up when its fan-out is over. So in
every reachable company the requests of a process are those its attempt is waiting with, and there
are none when it makes no attempt. What stands at the own coordinator meanwhile is the request that
has been announced.
-/

set_option autoImplicit false

namespace CriticalSection

variable {s : Extent}

/-! ## Courses of an attempt -/

section Courses

variable {acts : Option ProcessId} {client : Client s} {time : UInt64} {c c' : Cluster s}

/-- **The course of a question**: the request that is asked for joins those that are parked, if the
coordinator lets it wait. -/
theorem Acquire.course_question (client : Client s) (time : UInt64) (q : ProcessId)
    (b : Fin s.brokers) (c : Cluster s) :
    c.Course acts (fun b' q' w => b' = b ∧ q' = q ∧ w.request = ⟨time, client.process⟩ ∧
        (c.request b (question client time q)).1 = .parked ⟨.record q', w.ticket⟩)
      (c.request b (question client time q)).2 := by
  simp only [Cluster.request_eq]
  split
  · exact .refl c
  · exact .withCoordinator fun h => (h.course_request q _).mono
      fun q' w ⟨hq, hw, hreaction⟩ => ⟨rfl, hq, hw, hreaction⟩

/-- The course of a part: its request joins those that are parked, if the part comes to be parked
with the ticket of that request. -/
theorem Acquire.course_part {q : ProcessId} {part part' : Part s}
    (h : part.step client (question client time) q c = (some part', c')) :
    c.Course acts (fun b q' w => part' = .parked b ⟨.record q', w.ticket⟩ ∧ q' = q ∧
      w.request = ⟨time, client.process⟩) c' := by
  refine Part.course_step (fun b hb => ?_) h
  refine (course_question client time q b c).mono ?_
  rintro b' q' w ⟨rfl, hq, hw, hreaction⟩
  refine ⟨?_, hq, hw⟩
  subst hb
  rcases hr : c.request b' (question client time q) with ⟨reaction, c₁⟩
  rw [hr] at hreaction
  subst hreaction
  simp only [Part.step, hr] at h
  exact (Option.some.inj (Prod.mk.inj h).1).symm

/-- While a client asks its peers, no record comes to another standing. -/
theorem Acquire.course_gathering {place : Nat} {own : Fin s.brokers} {fan : FanOut s}
    {move : Move (Acquire s) UInt64}
    (hstep : step client place (.gathering own time fan) c = (move, c')) :
    c.Course acts (fun _ _ w => w.request.process = client.process) c' := by
  have hfan : c.Course acts (fun _ _ w => w.request.process = client.process)
      (fan.step client (question client time) place c).2 := by
    refine FanOut.course_step fun q part part' c' hstep => (course_part hstep).mono ?_
    rintro b q' w ⟨-, -, hw⟩
    rw [hw]
  rcases gathering_cases hstep with ⟨-, -, rfl⟩ | ⟨-, ⟨-, heq⟩ | ⟨fan', -, heq⟩ | ⟨-, heq⟩ |
    ⟨fault, -, heq⟩⟩
  · exact (fan.quiet_hangUp c).course
  all_goals rwa [heq] at hfan

/-- While a client does not ask its peers, it parks nobody. -/
theorem Acquire.quiet_step {stage : Acquire s} {place : Nat} {move : Move (Acquire s) UInt64}
    (hstep : stage.step client place c = (move, c'))
    (h : ∀ own time fan, stage ≠ .gathering own time fan) :
    c.Quiet (some client.process) c' := by
  have hquiet : c.Quiet (some client.process) (stage.step client place c).2 := by
    cases stage with
    | start =>
        have hroute : c.Quiet (some client.process) (client.route client.process c).2 :=
          client.quiet_route client.process c
        simp only [step]
        split <;> simp_all
    | routed own =>
        have hcall : c.Quiet (some client.process)
            (c.call own fun coordinator => coordinator.announce client.process).2 :=
          Cluster.course_call fun hk => hk.course_announce client.process
        simp only [step]
        split <;> simp_all
    | gathering own time fan => exact absurd rfl (h own time fan)
    | withdrawing own =>
        have hcall : c.Quiet (some client.process)
            (c.call own fun coordinator => coordinator.leave client.process).2 :=
          Cluster.course_call fun hk => hk.course_leave client.process
        simp only [step]
        split <;> simp_all
    | granted own time =>
        have hcall : c.Quiet (some client.process)
            (c.call own fun coordinator => coordinator.enter client.process).2 :=
          Cluster.course_call fun hk => hk.course_enter client.process
        simp only [step]
        split <;> simp_all
  rwa [hstep] at hquiet

/-- **The course of an attempt**: only requests of its own process join those that are parked. -/
theorem Acquire.course_step {stage : Acquire s} {place : Nat} {move : Move (Acquire s) UInt64}
    (hstep : stage.step client place c = (move, c')) :
    c.Course (some client.process) (fun _ _ w => w.request.process = client.process) c' := by
  cases stage with
  | gathering own time fan => exact course_gathering hstep
  | _ => exact (quiet_step hstep (by simp)).course

theorem Acquire.quiet_hangUp (stage : Acquire s) (c : Cluster s) :
    c.Quiet acts (stage.hangUp c) := by
  cases stage with
  | gathering own time fan => exact fan.quiet_hangUp c
  | _ => exact .refl c

end Courses

/-! ## Moves of an attempt -/

/-- **The moves with which an attempt goes on**: it is routed, it announces its request, or it asks
its peers until it turns to withdrawing or has been granted by all. -/
theorem Acquire.next_cases {client : Client s} {stage stage' : Acquire s} {place : Nat}
    {c c' : Cluster s} (h : stage.step client place c = (.next stage', c')) :
    (stage = .start ∧ ∃ own, stage' = .routed own ∧
      client.route client.process c = (.ok own, c')) ∨
    (∃ own time, stage = .routed own ∧ stage' = .gathering own time (.start client client.peers) ∧
      (∀ r, (c'.coordinator own).records[client.process]? = some r → r.standing = .requested) ∧
      ∀ b, b ≠ own → c'.coordinator b = c.coordinator b) ∨
    ∃ own time fan, stage = .gathering own time fan ∧
      stage'.announcedAt? = stage.announcedAt? := by
  cases stage with
  | start =>
      rcases hroute : client.route client.process c with ⟨fault | own, c₁⟩ <;>
        simp only [step, hroute] at h <;> obtain ⟨hmove, rfl⟩ := Prod.mk.inj h
      · cases hmove
      · exact .inl ⟨rfl, own, (Move.next.inj hmove).symm, rfl⟩
  | routed own =>
      rcases hcall : c.call own fun coordinator => coordinator.announce client.process with
        ⟨fault | time, c₁⟩ <;> simp only [step, hcall] at h <;>
        obtain ⟨hmove, rfl⟩ := Prod.mk.inj h
      · cases hmove
      · refine .inr (.inl ⟨own, time, rfl, (Move.next.inj hmove).symm, ?_⟩)
        rw [Cluster.call_eq] at hcall
        split at hcall
        · cases (Prod.mk.inj hcall).1
        · obtain ⟨hannounce, rfl⟩ := Prod.mk.inj hcall
          refine ⟨fun r hr => ?_, fun b hb => ?_⟩
          · have hstands := Coordinator.announced?_announce hannounce
            rw [Cluster.coordinator_withCoordinator, if_pos rfl] at hr
            rw [Coordinator.announced?, hr] at hstands
            exact (Prod.mk.inj (Option.some.inj hstands)).1
          · rw [Cluster.coordinator_withCoordinator, if_neg hb]
  | gathering own time fan =>
      refine .inr (.inr ⟨own, time, fan, rfl, ?_⟩)
      rcases gathering_cases h with ⟨-, hmove, -⟩ | ⟨-, ⟨hmove, -⟩ | ⟨fan', hmove, -⟩ |
        ⟨hmove, -⟩ | ⟨fault, hmove, -⟩⟩ <;> cases hmove <;> rfl
  | withdrawing own =>
      simp only [step] at h
      split at h <;> cases (Prod.mk.inj h).1
  | granted own time =>
      simp only [step] at h
      split at h <;> cases (Prod.mk.inj h).1

/-! ## Requests and the parts that wait with them -/

/-- **The requests of a process are covered** by some parts: each of them that is parked is one that
a part waits with. -/
def Cluster.Covered (p : ProcessId) (parts : List (ProcessId × Part s)) (c : Cluster s) : Prop :=
  ∀ (b : Fin s.brokers) (q : ProcessId) (w : Waiting), (c.coordinator b).Parks q w →
    w.request.process = p → (q, .parked b ⟨.record q, w.ticket⟩) ∈ parts

namespace Cluster

variable {p : ProcessId} {parts parts' : List (ProcessId × Part s)} {c c' : Cluster s}
  {acts : Option ProcessId} {joins : Fin s.brokers → ProcessId → Waiting → Prop}

/-- What no part waits with is not parked, so anything covers it. -/
theorem Covered.of_nil (h : c.Covered p []) (parts : List (ProcessId × Part s)) :
    c.Covered p parts :=
  fun b q w hw hp => absurd (h b q w hw hp) List.not_mem_nil

/-- Requests stay covered on a course that others take. -/
theorem Covered.course (h : c.Covered p parts) (horderly : ∀ b, (c.coordinator b).Orderly)
    (hcourse : c.Course acts joins c') (hjoins : ∀ b q w, joins b q w → w.request.process ≠ p) :
    c'.Covered p parts := by
  intro b q w hw hp
  rcases (hcourse.coordinator b (horderly b)).parks q w hw with hw | hw
  · exact h b q w hw hp
  · exact absurd hp (hjoins b q w hw)

theorem Covered.quiet (h : c.Covered p parts) (horderly : ∀ b, (c.coordinator b).Orderly)
    (hquiet : c.Quiet acts c') : c'.Covered p parts :=
  h.course horderly hquiet fun _ _ _ => False.elim

end Cluster

namespace FanOut

variable {p : ProcessId} {client : Client s} {time : UInt64} {place : Nat} {fan : FanOut s}
  {c c' : Cluster s}

theorem parks_partHangUp {part : Part s} {b : Fin s.brokers} {q : ProcessId} {w : Waiting}
    (h : ((part.hangUp c).coordinator b).Parks q w) :
    (c.coordinator b).Parks q w ∧ part ≠ .parked b ⟨.record q, w.ticket⟩ := by
  cases part with
  | parked b' t =>
      rw [show Part.hangUp c (.parked b' t) = c.hangUp b' t from rfl, Cluster.hangUp_eq,
        Cluster.coordinator_withCoordinator] at h
      split at h
      · next heq =>
          subst heq
          obtain ⟨hparks, hne⟩ := Coordinator.parks_hangUp h
          exact ⟨hparks, fun heq => hne (Part.parked.inj heq).2⟩
      · next hne => exact ⟨h, fun heq => hne (Part.parked.inj heq).1.symm⟩
  | _ => exact ⟨h, by simp⟩

/-- **Nobody whose fan-out has hung up is parked.** -/
theorem covered_hangUp (h : c.Covered p fan.parts) : (fan.hangUp c).Covered p [] := by
  -- What is parked when some parts have hung up was parked before, and none of them waits with it.
  have hleft : ∀ (parts : List (ProcessId × Part s)) (c : Cluster s) b q w,
      ((parts.foldl (fun c e => e.2.hangUp c) c).coordinator b).Parks q w →
      (c.coordinator b).Parks q w ∧ (q, Part.parked b ⟨.record q, w.ticket⟩) ∉ parts := by
    intro parts
    induction parts with
    | nil => exact fun c b q w hw => ⟨hw, List.not_mem_nil⟩
    | cons e rest ih =>
        intro c b q w hw
        obtain ⟨hw, hrest⟩ := ih _ b q w hw
        obtain ⟨hw, hne⟩ := parks_partHangUp hw
        refine ⟨hw, fun hmem => ?_⟩
        rcases List.mem_cons.mp hmem with heq | hmem
        · exact hne (congrArg Prod.snd heq).symm
        · exact hrest hmem
  intro b q w hw hp
  obtain ⟨hw, hnot⟩ := hleft fan.parts c b q w hw
  exact absurd (h b q w hw hp) hnot

/-- A part that moves takes its request with it: a part that takes its answer waited with a request
that is parked no longer, and a part that comes to be parked waits with its own. -/
theorem covered_part {q : ProcessId} {part part' : Part s}
    (h : c.Covered client.process fan.parts) (horderly : ∀ b, (c.coordinator b).Orderly)
    (hpart : fan.parts[place]? = some (q, part))
    (hstep : part.step client (Acquire.question client time) q c = (some part', c')) :
    c'.Covered client.process (fan.parts.set place (q, part')) := by
  have hlt : place < fan.parts.length := (List.getElem?_eq_some_iff.mp hpart).1
  intro b q' w hw hp
  have hcourse : c.Course none _ c' := Acquire.course_part hstep
  rcases (hcourse.coordinator b (horderly b)).parks q' w hw with hold | ⟨hparked, rfl, -⟩
  · obtain ⟨i, hi⟩ := List.mem_iff_getElem?.mp (h b q' w hold hp)
    by_cases heq : place = i
    · subst heq
      obtain ⟨rfl, rfl⟩ := Prod.mk.inj (Option.some.inj (hpart.symm.trans hi))
      -- The part has taken an answer, though its request has none.
      rcases Part.step_cases hstep with ⟨hunrouted, -⟩ | ⟨b', hrouted, -⟩ |
        ⟨b', t, outcome, heq, houtcome, -⟩
      · cases hunrouted
      · cases hrouted
      · obtain ⟨rfl, rfl⟩ := Part.parked.inj heq
        rw [Cluster.outcome?_of_unanswered ((horderly b).unanswered _ hold.waits)] at houtcome
        cases houtcome
    · exact List.mem_iff_getElem?.mpr ⟨i, by rw [List.getElem?_set_ne heq, hi]⟩
  · rw [← hparked]
    exact List.mem_set hlt (q', part')

/-- **A fan-out covers the requests of its process** while it goes on, and when it is over none is
parked. -/
theorem covered_step (h : c.Covered client.process fan.parts)
    (horderly : ∀ b, (c.coordinator b).Orderly) {move : Move (FanOut s) Unit}
    (hstep : fan.step client (Acquire.question client time) place c = (move, c')) :
    (∀ fan', move = .next fan' → c'.Covered client.process fan'.parts) ∧
      ∀ outcome, move = .finish outcome → c'.Covered client.process [] := by
  rcases step_cases hstep with
    ⟨rfl, rfl⟩ | ⟨hcomplete, rfl, rfl⟩ | ⟨q, part, part', c₁, hpart, hpartStep, hproceed⟩
  · exact ⟨by simp, by simp⟩
  · refine ⟨by simp, fun _ _ => ?_⟩
    have := covered_hangUp h
    rwa [hangUp_of_complete hcomplete] at this
  · have hset := covered_part h horderly hpart hpartStep
    rcases proceed_cases hproceed with ⟨outcome, -, rfl, rfl⟩ | ⟨-, rfl, rfl⟩
    · exact ⟨by simp, fun _ _ => covered_hangUp hset⟩
    · refine ⟨fun fan' heq => ?_, by simp⟩
      obtain rfl := Move.next.inj heq
      exact hset

end FanOut

namespace Acquire

variable {client : Client s} {stage : Acquire s} {place : Nat} {c c' : Cluster s}
  {move : Move (Acquire s) UInt64}

/-- **The requests of an attempt are covered** by its parts, and when it is over none is parked. -/
theorem covered_step (h : c.Covered client.process stage.parts)
    (horderly : ∀ b, (c.coordinator b).Orderly)
    (hstep : stage.step client place c = (move, c')) :
    (∀ stage', move = .next stage' → c'.Covered client.process stage'.parts) ∧
      ∀ outcome, move = .finish outcome → c'.Covered client.process [] := by
  cases stage with
  | gathering own time fan =>
      rcases gathering_cases hstep with ⟨-, rfl, rfl⟩ | ⟨-, ⟨rfl, -⟩ | ⟨fan', rfl, hfan⟩ |
        ⟨rfl, hfan⟩ | ⟨fault, rfl, hfan⟩⟩
      · exact ⟨fun stage' _ => (FanOut.covered_hangUp h).of_nil _, by simp⟩
      · exact ⟨by simp, by simp⟩
      · refine ⟨fun stage' heq => ?_, by simp⟩
        obtain rfl := Move.next.inj heq
        exact (FanOut.covered_step h horderly hfan).1 fan' rfl
      · exact ⟨fun stage' _ => ((FanOut.covered_step h horderly hfan).2 _ rfl).of_nil _, by simp⟩
      · exact ⟨by simp, fun _ _ => (FanOut.covered_step h horderly hfan).2 _ rfl⟩
  | _ =>
      -- Where nobody is asked no request is parked, before the step and after it.
      have hnobody := Cluster.Covered.quiet h horderly (quiet_step hstep (by simp))
      exact ⟨fun stage' _ => hnobody.of_nil _, fun _ _ => hnobody⟩

theorem covered_hangUp (h : c.Covered client.process stage.parts) :
    (stage.hangUp c).Covered client.process [] := by
  cases stage with
  | gathering own time fan => exact FanOut.covered_hangUp h
  | _ => exact h

/-! ## What stands at the own coordinator -/

/-- **The announced request stands**, as long as there is a record, until the attempt is over. -/
theorem requested_step {own : Fin s.brokers} {stage' : Acquire s}
    (horderly : ∀ b, (c.coordinator b).Orderly)
    (h : ∀ r, stage.announcedAt? = some own →
      (c.coordinator own).records[client.process]? = some r → r.standing = .requested)
    (hstep : stage.step client place c = (.next stage', c')) {r' : Record}
    (hannounced : stage'.announcedAt? = some own)
    (hr' : (c'.coordinator own).records[client.process]? = some r') : r'.standing = .requested := by
  rcases next_cases hstep with ⟨-, own', rfl, -⟩ | ⟨own', time, rfl, rfl, hrequested, -⟩ |
    ⟨own', time, fan, rfl, hsame⟩
  · cases hannounced
  · obtain rfl := Option.some.inj hannounced
    exact hrequested r' hr'
  · have hcourse : c.Course none _ c' := course_gathering hstep
    obtain ⟨r, hr, hstanding⟩ := (hcourse.coordinator own (horderly own)).standing
      client.process r' (by simp) hr'
    rw [hstanding]
    exact h r (hsame.symm.trans hannounced) hr

end Acquire

/-! ## What the parts of an attempt hold -/

/-- **A genuine part**: the ticket it holds has been given out, and it has not failed because
somebody has cancelled. -/
def Part.Genuine (c : Cluster s) : Part s → Prop
  | parked b t => t.number < (c.coordinator b).issued
  | failed fault => ∀ op, fault ≠ .error (.cancelled op)
  | _ => True

/-- All of some parts are genuine. -/
def Cluster.Vouches (c : Cluster s) (parts : List (ProcessId × Part s)) : Prop :=
  ∀ e ∈ parts, e.2.Genuine c

theorem Cluster.vouches_nil (c : Cluster s) : c.Vouches [] := fun _ he => absurd he List.not_mem_nil

theorem Cluster.Vouches.course {parts : List (ProcessId × Part s)} {c c' : Cluster s}
    {acts : Option ProcessId} {joins : Fin s.brokers → ProcessId → Waiting → Prop}
    (h : c.Vouches parts) (horderly : ∀ b, (c.coordinator b).Orderly)
    (hcourse : c.Course acts joins c') : c'.Vouches parts := by
  intro e he
  have hgenuine := h e he
  cases hpart : e.2 with
  | parked b t =>
      rw [hpart] at hgenuine
      exact Nat.lt_of_lt_of_le hgenuine (hcourse.coordinator b (horderly b)).issued
  | failed fault =>
      rw [hpart] at hgenuine
      exact hgenuine
  | _ => trivial

namespace Acquire

variable {client : Client s} {stage : Acquire s} {place : Nat} {c c' : Cluster s}
  {move : Move (Acquire s) UInt64}

/-- **A part that moves is genuine.** A peer is not found, out of reach, not hosted or interrupted,
but it does not cancel. -/
theorem genuine_part {q : ProcessId} {part part' : Part s} {time : UInt64} (hc : c.Uncancelling)
    (horderly : ∀ b, (c.coordinator b).Orderly)
    (hstep : part.step client (question client time) q c = (some part', c')) :
    part'.Genuine c' := by
  rcases Part.step_cases hstep with ⟨-, ⟨b, -, rfl⟩ | ⟨fault, hroute, rfl⟩⟩ |
    ⟨b, -, ⟨t, hrequest, rfl⟩ | ⟨outcome, hrequest, rfl⟩⟩ | ⟨b, t, outcome, -, houtcome, rfl, -⟩
  · trivial
  · rintro op rfl
    rw [Client.route_eq] at hroute
    split at hroute <;> cases (Prod.mk.inj hroute).1
  · rw [Cluster.request_eq] at hrequest
    split at hrequest
    · cases (Prod.mk.inj hrequest).1
    · obtain ⟨hreaction, rfl⟩ := Prod.mk.inj hrequest
      have hends := (horderly b).ends_request q ⟨time, client.process⟩
      show t.number < _
      rw [Cluster.coordinator_withCoordinator, if_pos rfl]
      refine hends.orderly.issued t ((hends.waits t).mpr (.inr ?_))
      rw [show ((c.coordinator b).request q ⟨time, client.process⟩).1 = .parked t from hreaction]
      rfl
  · rcases outcome with fault | ⟨⟩
    · rintro op rfl
      rw [Cluster.request_eq] at hrequest
      split at hrequest
      · next e houtage =>
          cases (Prod.mk.inj hrequest).1
          exact hc b op houtage
      · have hreaction := (Prod.mk.inj hrequest).1
        unfold question Coordinator.request at hreaction
        split at hreaction
        · cases hreaction
        · dsimp only at hreaction
          split at hreaction <;> cases hreaction
    · trivial
  · rcases outcome with fault | ⟨⟩
    · rintro op rfl
      unfold Cluster.outcome? Coordinator.outcome? at houtcome
      split at houtcome <;> cases houtcome
    · trivial

/-- A fan-out fails with what one of its parts has failed with. -/
theorem vouches_fan {fan : FanOut s} {time : UInt64} {m : Move (FanOut s) Unit}
    (hc : c.Uncancelling) (horderly : ∀ b, (c.coordinator b).Orderly) (h : c.Vouches fan.parts)
    (hstep : fan.step client (question client time) place c = (m, c')) :
    (∀ fan', m = .next fan' → c'.Vouches fan'.parts) ∧
      ∀ op, m ≠ .finish (fail (.cancelled op)) := by
  rcases FanOut.step_cases hstep with
    ⟨rfl, -⟩ | ⟨-, rfl, -⟩ | ⟨q, part, part', c₁, -, hpartStep, hproceed⟩
  · exact ⟨by simp, by simp⟩
  · exact ⟨by simp, by simp [fail]⟩
  · have hset : c₁.Vouches (fan.parts.set place (q, part')) := by
      have hcourse : c.Course none _ c₁ := course_part hpartStep
      intro e he
      rcases List.mem_or_eq_of_mem_set he with he | rfl
      · exact h.course horderly hcourse e he
      · exact genuine_part hc horderly hpartStep
    rcases FanOut.proceed_cases hproceed with ⟨outcome, houtcome, rfl, -⟩ | ⟨-, rfl, rfl⟩
    · refine ⟨by simp, ?_⟩
      rintro op heq
      obtain rfl := Move.finish.inj heq
      obtain ⟨e, he, hfault⟩ := FanOut.exists_fault_of_outcome houtcome
      have hgenuine := hset e he
      cases hpart : e.2 with
      | failed fault =>
          rw [hpart] at hgenuine hfault
          exact hgenuine op (Option.some.inj hfault)
      | _ => simp [hpart, Part.fault?] at hfault
    · refine ⟨fun fan' heq => ?_, by simp⟩
      obtain rfl := Move.next.inj heq
      exact hset

/-- A call at the own coordinator that fails because somebody has cancelled has failed there. -/
theorem cancelled_of_call {α : Type} {b : Fin s.brokers} {f : Coordinator → Outcome α × Coordinator}
    {op : String} (hc : c.Uncancelling) (h : c.call b f = (fail (.cancelled op), c')) :
    (f (c.coordinator b)).1 = fail (.cancelled op) := by
  rw [Cluster.call_eq] at h
  split at h
  · next e houtage =>
      obtain rfl := Fault.error.inj (Except.error.inj (Prod.mk.inj h).1)
      exact absurd houtage (hc b op)
  · exact (Prod.mk.inj h).1

end Acquire

namespace Coordinator

variable {k : Coordinator} {p : ProcessId} {op : String}

theorem announce_ne_cancelled : (k.announce p).1 ≠ fail (.cancelled op) := by
  intro h
  unfold announce at h
  split at h
  · cases h
  · next r hr =>
      by_cases hlast : r.clock.time = Clock.last
      · simp [Record.announce, Clock.tick, hlast, overflowed, fail] at h
      · rw [Record.announce_of_ne_last hlast] at h
        cases h

theorem enter_ne_cancelled : (k.enter p).1 ≠ fail (.cancelled op) := by
  unfold enter
  split <;> simp [fail]

theorem leave_ne_cancelled : (k.leave p).1 ≠ fail (.cancelled op) := by
  intro h
  unfold leave at h
  split at h
  · cases h
  · next r hr =>
      by_cases hlast : r.clock.time = Clock.last
      · simp [Record.leave, Clock.tick, hlast, overflowed, fail] at h
      · rw [Record.leave_of_ne_last hlast] at h
        cases h

end Coordinator

namespace Acquire

variable {client : Client s} {stage : Acquire s} {place : Nat} {c c' : Cluster s}
  {move : Move (Acquire s) UInt64}

/-- **The parts of an attempt stay genuine.** -/
theorem vouches_step {stage' : Acquire s} (hc : c.Uncancelling)
    (horderly : ∀ b, (c.coordinator b).Orderly) (h : c.Vouches stage.parts)
    (hstep : stage.step client place c = (.next stage', c')) : c'.Vouches stage'.parts := by
  rcases next_cases hstep with ⟨-, own, rfl, -⟩ | ⟨own, time, -, rfl, -⟩ |
    ⟨own, time, fan, rfl, -⟩
  · exact c'.vouches_nil
  · -- A fan-out starts with parts that have not been routed.
    intro e he
    obtain ⟨q, -, rfl⟩ := List.mem_map.mp he
    trivial
  · rcases gathering_cases hstep with ⟨-, hmove, -⟩ | ⟨-, ⟨hmove, -⟩ | ⟨fan', hmove, hfan⟩ |
      ⟨hmove, -⟩ | ⟨fault, hmove, -⟩⟩ <;> cases hmove
    · exact c'.vouches_nil
    · exact (vouches_fan hc horderly h hfan).1 fan' rfl
    · exact c'.vouches_nil

/-- **An attempt is only cancelled when it has withdrawn.** -/
theorem withdrawing_of_cancelled {op : String} (hc : c.Uncancelling)
    (horderly : ∀ b, (c.coordinator b).Orderly) (h : c.Vouches stage.parts)
    (hstep : stage.step client place c = (.finish (fail (.cancelled op)), c')) :
    ∃ own, stage = .withdrawing own ∧ op = "acquire" := by
  cases stage with
  | start =>
      rcases hroute : client.route client.process c with ⟨fault | own, c₁⟩ <;>
        simp only [step, hroute] at hstep <;> cases (Prod.mk.inj hstep).1
      rw [Client.route_eq] at hroute
      split at hroute <;> cases (Prod.mk.inj hroute).1
  | routed own =>
      rcases hcall : c.call own fun coordinator => coordinator.announce client.process with
        ⟨fault | time, c₁⟩ <;>
        simp only [step, hcall] at hstep <;> cases (Prod.mk.inj hstep).1
      exact absurd (cancelled_of_call hc hcall) Coordinator.announce_ne_cancelled
  | gathering own time fan =>
      rcases gathering_cases hstep with ⟨-, hmove, -⟩ | ⟨-, ⟨hmove, -⟩ | ⟨fan', hmove, -⟩ |
        ⟨hmove, -⟩ | ⟨fault, hmove, hfan⟩⟩ <;> cases hmove
      exact absurd rfl ((vouches_fan hc horderly h hfan).2 op)
  | withdrawing own =>
      rcases hcall : c.call own fun coordinator => coordinator.leave client.process with
        ⟨fault | ⟨⟩, c₁⟩ <;>
        simp only [step, hcall] at hstep <;> cases (Prod.mk.inj hstep).1
      · exact absurd (cancelled_of_call hc hcall) Coordinator.leave_ne_cancelled
      · exact ⟨own, rfl, rfl⟩
  | granted own time =>
      rcases hcall : c.call own fun coordinator => coordinator.enter client.process with
        ⟨fault | ⟨⟩, c₁⟩ <;>
        simp only [step, hcall] at hstep <;> cases (Prod.mk.inj hstep).1
      exact absurd (cancelled_of_call hc hcall) Coordinator.enter_ne_cancelled

end Acquire

/-! ## Sound companies -/

namespace Company

variable {x y : Company s} {p q : ProcessId}

theorem Conducts.process_of_entry (hx : x.Conducts) {client : Client s} {stage : Acquire s}
    (h : x.entry p = some (client, stage)) : client.process = p := by
  obtain ⟨call, hcall, hentry⟩ := Option.bind_eq_some_iff.mp h
  obtain ⟨client', hclient', hprocess⟩ := hx p call hcall
  obtain rfl := Option.some.inj (hclient'.symm.trans (Call.attempt?_eq_some_iff.mp hentry).1)
  exact hprocess

theorem parts_of_entry {client : Client s} {stage : Acquire s}
    (h : x.entry p = some (client, stage)) : x.parts p = stage.parts := by
  rw [parts, h]
  rfl

theorem parts_of_none (h : x.entry p = none) : x.parts p = [] := by
  rw [parts, h]
  rfl

/-- What is known of a process: its requests that are parked are those its attempt waits with, its
record is requested once it has announced that it wants to enter, and the parts of its attempt are
genuine. -/
structure SoundFor (x : Company s) (p : ProcessId) : Prop where
  covered : x.cluster.Covered p (x.parts p)
  requested : ∀ (client : Client s) (stage : Acquire s) (own : Fin s.brokers) (r : Record),
    x.entry p = some (client, stage) → stage.announcedAt? = some own →
    (x.cluster.coordinator own).records[p]? = some r → r.standing = .requested
  genuine : x.cluster.Vouches (x.parts p)

/-- **Sound companies**: clients act for their own processes, coordinators are orderly, and what is
parked and announced is what the attempts in progress ask for. -/
structure Sound (x : Company s) : Prop where
  conducts : x.Conducts
  uncancelling : x.cluster.Uncancelling
  orderly : ∀ b, (x.cluster.coordinator b).Orderly
  attempts : ∀ p, x.SoundFor p

/-- A process without an attempt has nothing parked. -/
theorem SoundFor.of_none (hnone : x.entry p = none) (h : x.cluster.Covered p []) :
    x.SoundFor p := by
  refine ⟨h.of_nil _, fun client stage own r hentry => ?_, ?_⟩
  · rw [hnone] at hentry
    cases hentry
  · rw [parts_of_none hnone]
    exact x.cluster.vouches_nil

theorem Sound.of_founded (h : x.Founded) : x.Sound := by
  refine ⟨fun p call hcall => ?_, h.uncancelling, fun b => ?_, fun p => ?_⟩
  · rw [h.idle p] at hcall
    cases hcall
  · obtain ⟨expected, heq⟩ := h.unused b
    rw [heq]
    exact Coordinator.orderly_new expected
  · refine .of_none (by simp [entry, h.idle p]) fun b q w hw => ?_
    obtain ⟨expected, heq⟩ := h.unused b
    obtain ⟨r, hr, -⟩ := hw
    rw [heq] at hr
    simp [Coordinator.new] at hr

/-- A company stays sound on the course of a process that stays so. -/
theorem Sound.of_course (hx : x.Sound) (hy : y.Conducts) {acts : Option ProcessId}
    {joins : Fin s.brokers → ProcessId → Waiting → Prop}
    (hcourse : x.cluster.Course acts joins y.cluster)
    (hjoins : ∀ b q w, joins b q w → acts = some w.request.process)
    (hothers : ∀ q, acts ≠ some q → y.entry q = x.entry q)
    (hacts : ∀ p, acts = some p → y.SoundFor p) : y.Sound := by
  refine ⟨hy, hcourse.uncancelling hx.uncancelling,
    fun b => (hcourse.coordinator b (hx.orderly b)).orderly, fun q => ?_⟩
  by_cases hq : acts = some q
  · exact hacts q hq
  · have hentry := hothers q hq
    have hparts : y.parts q = x.parts q := by rw [parts, parts, hentry]
    refine ⟨?_, fun client stage own r' hstage hannounced hr' => ?_, ?_⟩
    · rw [hparts]
      refine (hx.attempts q).covered.course hx.orderly hcourse fun b q' w hw => ?_
      rintro rfl
      exact hq (hjoins b q' w hw)
    · rw [hentry] at hstage
      obtain ⟨r, hr, hstanding⟩ := (hcourse.coordinator own (hx.orderly own)).standing q r' hq hr'
      rw [hstanding]
      exact (hx.attempts q).requested client stage own r hstage hannounced hr
    · rw [hparts]
      exact (hx.attempts q).genuine.course hx.orderly hcourse

/-- **Whatever happens, a company stays sound.** -/
theorem Sound.step (hx : x.Sound) {incident : Incident s} (h : x.step incident = some y) :
    y.Sound := by
  obtain ⟨hturn, hy⟩ := turn_of_step hx.conducts h
  have hacting : ∀ {p : ProcessId} {joins : Fin s.brokers → ProcessId → Waiting → Prop},
      x.cluster.Course (some p) joins y.cluster →
      (∀ b q w, joins b q w → w.request.process = p) → (∀ q, q ≠ p → y.entry q = x.entry q) →
      y.SoundFor p → y.Sound := by
    intro p joins hcourse hjoins hothers hp
    refine hx.of_course hy hcourse (fun b q w hw => congrArg some (hjoins b q w hw).symm)
      (fun q hq => hothers q fun heq => hq (congrArg some heq.symm)) ?_
    rintro p' heq
    exact Option.some.inj heq ▸ hp
  cases hturn with
  | common quiet entry => exact hx.of_course hy quiet (by simp) (fun q _ => entry q) (by simp)
  | beside p quiet idle begun others =>
      refine hacting quiet (by simp) others ?_
      have hcovered := (hx.attempts p).covered.quiet hx.orderly quiet
      rw [parts_of_none idle] at hcovered
      -- An attempt that has only begun has not announced anything yet and asks nobody.
      refine ⟨hcovered.of_nil _, fun client stage own r hentry hannounced => ?_, ?_⟩
      · obtain ⟨-, rfl⟩ := begun client stage hentry
        cases hannounced
      · cases hentry : y.entry p with
        | none =>
            rw [parts_of_none hentry]
            exact y.cluster.vouches_nil
        | some entry =>
            obtain ⟨client, stage⟩ := entry
            obtain ⟨-, rfl⟩ := begun client stage hentry
            rw [parts_of_entry hentry]
            exact y.cluster.vouches_nil
  | moves p client stage stage' place advance entry move left others =>
      obtain rfl := hx.conducts.process_of_entry entry
      refine hacting (Acquire.course_step move) (fun _ _ _ => id) others ?_
      have hcovered := (hx.attempts client.process).covered
      have hgenuine := (hx.attempts client.process).genuine
      rw [parts_of_entry entry] at hcovered hgenuine
      refine ⟨?_, fun client' stage₁ own r hentry hannounced hr => ?_, ?_⟩
      · rw [parts_of_entry left]
        exact (Acquire.covered_step hcovered hx.orderly move).1 stage' rfl
      · rw [left] at hentry
        obtain ⟨rfl, rfl⟩ := Prod.mk.inj (Option.some.inj hentry)
        refine Acquire.requested_step hx.orderly (fun r' hannounced' => ?_) move hannounced hr
        exact (hx.attempts client.process).requested client stage own r' entry hannounced'
      · rw [parts_of_entry left]
        exact Acquire.vouches_step hx.uncancelling hx.orderly hgenuine move
  | ends p client stage place outcome entry move left others =>
      obtain rfl := hx.conducts.process_of_entry entry
      have hcovered := (hx.attempts client.process).covered
      rw [parts_of_entry entry] at hcovered
      exact hacting (Acquire.course_step move) (fun _ _ _ => id) others
        (.of_none left ((Acquire.covered_step hcovered hx.orderly move).2 outcome rfl))
  | abandons p client stage entry cluster left others =>
      obtain rfl := hx.conducts.process_of_entry entry
      have hcovered := (hx.attempts client.process).covered
      rw [parts_of_entry entry] at hcovered
      have hquiet : x.cluster.Quiet (some client.process) y.cluster :=
        cluster ▸ stage.quiet_hangUp x.cluster
      refine hacting hquiet (by simp) others (.of_none left ?_)
      rw [cluster]
      exact Acquire.covered_hangUp hcovered

theorem Sound.run (hx : x.Sound) (h : x.Run y) : y.Sound := by
  induction h with
  | refl => exact hx
  | step _ incident next ih => exact ih.step next

/-- **Reachable companies are sound.** -/
theorem Reachable.sound (h : x.Reachable) : x.Sound := by
  obtain ⟨start, hfounded, hrun⟩ := h
  exact (Sound.of_founded hfounded).run hrun

end Company

end CriticalSection
