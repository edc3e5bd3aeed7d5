import Mathlib.Data.List.Nodup
import CriticalSection.Proofs.FanOut
import CriticalSection.Proofs.Order
import CriticalSection.Proofs.Coordinator.Waits

/-!
# What a failed attempt leaves behind

While a client asks its peers for permission it does not touch the record of its own process, and
nobody is answered. An attempt that is cancelled withdraws its request afterwards. One that fails in
any other way ends there and then: its request stands as it was announced, everybody who was parked
on it goes on waiting, and a second attempt is parked in turn on those who wait.
-/

set_option autoImplicit false

namespace CriticalSection

variable {s : Extent}

/-! ## Definitions -/

/-- **A change apart from a process** leaves its records as they are and answers nobody. -/
structure Cluster.Apart (p : ProcessId) (c c' : Cluster s) : Prop where
  records : ∀ b, (c'.coordinator b).records[p]? = (c.coordinator b).records[p]?
  answers : ∀ b, (c'.coordinator b).answers = (c.coordinator b).answers

/-- A fan-out asks others than a process, and is parked on the records of those it asks. -/
def FanOut.AsksOthers (p : ProcessId) (fan : FanOut s) : Prop :=
  ∀ e ∈ fan.parts, e.1 ≠ p ∧ ∀ b t, e.2 = .parked b t → t.place = .record e.1

/-- What a coordinator tells of the request of a process: its standing and the announced time. -/
def Coordinator.announced? (k : Coordinator) (p : ProcessId) : Option (Standing × UInt64) :=
  (k.records[p]?).map fun r => (r.standing, r.announced)

/-- **An attempt to enter**, from the announcement on. Its own moves take turns with whatever else
happens, which only has to leave the announced request standing. -/
inductive Acquire.Attempt (client : Client s) (own : Fin s.brokers) (time : UInt64) :
    FanOut s → Cluster s → Prop
  | announce {fan : FanOut s} {c c' : Cluster s} (place : Nat)
      (h : step client place (.routed own) c = (.next (.gathering own time fan), c')) :
      Attempt client own time fan c'
  | move {fan fan' : FanOut s} {c c' : Cluster s} (before : Attempt client own time fan c)
      (place : Nat)
      (h : step client place (.gathering own time fan) c = (.next (.gathering own time fan'), c')) :
      Attempt client own time fan' c'
  | meanwhile {fan : FanOut s} {c : Cluster s} (c' : Cluster s)
      (before : Attempt client own time fan c)
      (h : (c'.coordinator own).announced? client.process =
        (c.coordinator own).announced? client.process) :
      Attempt client own time fan c'

/-- Whether an operation is one of those by which a process is represented at its coordinator, or
starts the coordinator anew. -/
def Operation.actsFor (p : ProcessId) : Operation → Bool
  | .subscribe q | .announce q | .enter q | .leave q => q = p
  | .restart _ => true
  | _ => false

/-- The coordinator after some operations, one after another, each at its time. -/
def Coordinator.performAll (k : Coordinator) (operations : List (Int64 × Operation)) :
    Coordinator :=
  operations.foldl (fun k o => (k.perform o.1 o.2).2) k

/-- **Another attempt of a process collides with a request that waits for it**: its new request is
deferred by whoever has announced that one, and that one goes on waiting. -/
def Coordinator.Collides (k : Coordinator) (p : ProcessId) (w : Waiting) : Prop :=
  ∃ time, (k.announce p).1 = .ok time ∧ (k.announce p).2.Waits ⟨.record p, w.ticket⟩ ∧
    ∀ other : Record, other.standing = .requested → other.announced = w.request.time →
      other.defers w.request.process ⟨time, p⟩ = true

/-! ## Changes apart from a process -/

namespace Cluster

variable {p q : ProcessId} {c c' c'' : Cluster s}

theorem Apart.refl (p : ProcessId) (c : Cluster s) : c.Apart p c := ⟨fun _ => rfl, fun _ => rfl⟩

theorem Apart.trans (h : c.Apart p c') (h' : c'.Apart p c'') : c.Apart p c'' :=
  ⟨fun b => (h'.records b).trans (h.records b), fun b => (h'.answers b).trans (h.answers b)⟩

theorem Apart.withCoordinator {b : Fin s.brokers} {k : Coordinator}
    (hrecords : k.records[p]? = (c.coordinator b).records[p]?)
    (hanswers : k.answers = (c.coordinator b).answers) : c.Apart p (c.withCoordinator b k) := by
  refine ⟨fun b' => ?_, fun b' => ?_⟩
  · rw [coordinator_withCoordinator]
    split
    · next heq => rw [heq, hrecords]
    · rfl
  · rw [coordinator_withCoordinator]
    split
    · next heq => rw [heq, hanswers]
    · rfl

theorem apart_route (p q : ProcessId) (client : Client s) (c : Cluster s) :
    c.Apart p (client.route q c).2 := by
  rw [Client.route_eq, route_eq]
  split <;> split <;> exact ⟨fun _ => rfl, fun _ => rfl⟩

/-- Asking another process for permission. -/
theorem apart_request (hne : q ≠ p) (b : Fin s.brokers) (client : Client s) (time : UInt64)
    (c : Cluster s) : c.Apart p (c.request b (Acquire.question client time q)).2 := by
  rw [request_eq]
  split
  · exact .refl p c
  · refine .withCoordinator ?_ ?_
    · rw [Acquire.question, Coordinator.records_request, if_neg (Ne.symm hne)]
    · rw [Acquire.question, Coordinator.answers_request]

/-- Hanging up on another process. -/
theorem apart_hangUp (hne : q ≠ p) {t : Ticket} (ht : t.place = .record q) (b : Fin s.brokers)
    (c : Cluster s) : c.Apart p (c.hangUp b t) := by
  rw [hangUp_eq]
  refine .withCoordinator ?_ (Coordinator.answers_hangUp _ t)
  rw [Coordinator.records_hangUp, ht, if_neg (by simpa using hne)]

end Cluster

namespace FanOut

variable {p q : ProcessId} {client : Client s} {time : UInt64} {c c' : Cluster s} {fan : FanOut s}

theorem asksOthers_start (client : Client s) :
    (start client client.peers).AsksOthers client.process := by
  intro e he
  obtain ⟨q, hq, rfl⟩ := List.mem_map.mp he
  exact ⟨by simpa using (List.mem_filter.mp hq).2, by simp⟩

theorem AsksOthers.apart_hangUp (h : fan.AsksOthers p) (c : Cluster s) :
    c.Apart p (fan.hangUp c) := by
  refine hangUp_induct (c.Apart p ·) (.refl p c) fun e he c' hc' => hc'.trans ?_
  obtain ⟨hne, hplace⟩ := h e he
  rcases hpart : e.2 with _ | _ | ⟨b, t⟩ | _ | _
  case parked => exact Cluster.apart_hangUp hne (hplace b t hpart) b c'
  all_goals exact .refl p c'

/-- Who is parked on a record gets a ticket for it. -/
theorem place_of_request {b : Fin s.brokers} {t : Ticket}
    (h : c.request b (Acquire.question client time q) = (.parked t, c')) :
    t.place = .record q := by
  rw [Cluster.request_eq] at h
  split at h
  · cases (Prod.mk.inj h).1
  · have hreaction := (Prod.mk.inj h).1
    unfold Acquire.question Coordinator.request at hreaction
    split at hreaction
    · cases hreaction
    · dsimp only at hreaction
      split at hreaction <;> cases hreaction
      rfl

/-- A part that asks another process moves apart, and is only parked on the record of that one. -/
theorem apart_partStep (hne : q ≠ p) {part part' : Part s}
    (h : part.step client (Acquire.question client time) q c = (some part', c')) :
    c.Apart p c' ∧ ∀ b t, part' = .parked b t → t.place = .record q := by
  rcases Part.step_cases h with ⟨-, ⟨b, hroute, rfl⟩ | ⟨fault, hroute, rfl⟩⟩ |
    ⟨b, -, ⟨t, hrequest, rfl⟩ | ⟨outcome, hrequest, rfl⟩⟩ | ⟨b, t, outcome, -, -, rfl, rfl⟩
  · have hapart := Cluster.apart_route p q client c
    rw [hroute] at hapart
    exact ⟨hapart, by simp⟩
  · have hapart := Cluster.apart_route p q client c
    rw [hroute] at hapart
    exact ⟨hapart, by simp⟩
  · have hapart := Cluster.apart_request hne b client time c
    rw [hrequest] at hapart
    refine ⟨hapart, fun b' t' heq => ?_⟩
    obtain ⟨rfl, rfl⟩ := Part.parked.inj heq
    exact place_of_request hrequest
  · have hapart := Cluster.apart_request hne b client time c
    rw [hrequest] at hapart
    exact ⟨hapart, fun b' t heq => absurd heq (Part.ofOutcome_ne_parked outcome b' t)⟩
  · exact ⟨.refl p c', fun b' t heq => absurd heq (Part.ofOutcome_ne_parked outcome b' t)⟩

/-- **A fan-out that asks others moves apart**, and goes on to ask others. -/
theorem AsksOthers.apart_step (h : fan.AsksOthers p) {place : Nat}
    {move : Move (FanOut s) Unit}
    (hstep : fan.step client (Acquire.question client time) place c = (move, c')) :
    c.Apart p c' ∧ ∀ fan', move = .next fan' → fan'.AsksOthers p := by
  rcases step_cases hstep with
    ⟨rfl, rfl⟩ | ⟨-, rfl, rfl⟩ | ⟨q, part, part', c₁, hpart, hpartStep, hproceed⟩
  · exact ⟨.refl p c', by simp⟩
  · exact ⟨.refl p c', by simp⟩
  · obtain ⟨hne, -⟩ := h _ (List.mem_of_getElem? hpart)
    obtain ⟨hapart, hplace⟩ := apart_partStep (p := p) hne hpartStep
    have hset : AsksOthers p { fan with parts := fan.parts.set place (q, part') } := by
      intro e he
      rcases List.mem_or_eq_of_mem_set he with he | rfl
      · exact h e he
      · exact ⟨hne, hplace⟩
    rcases proceed_cases hproceed with ⟨outcome, -, rfl, rfl⟩ | ⟨-, rfl, rfl⟩
    · exact ⟨hapart.trans (hset.apart_hangUp c₁), by simp⟩
    · exact ⟨hapart, fun fan' heq => Move.next.inj heq ▸ hset⟩

end FanOut

/-! ## Attempts -/

/-- **A request that has been announced** is the one the coordinator knows of. -/
theorem Coordinator.announced?_announce {k : Coordinator} {p : ProcessId} {time : UInt64}
    (h : (k.announce p).1 = .ok time) :
    (k.announce p).2.announced? p = some (.requested, time) := by
  unfold Coordinator.announce at h ⊢
  cases hr : k.records[p]? with
  | none =>
      rw [hr] at h
      cases h
  | some r =>
      rw [hr] at h
      dsimp only at h ⊢
      rw [announced?, records_withRecord, if_pos rfl]
      unfold Record.announce at h ⊢
      split at h
      · obtain rfl := Except.ok.inj h
        rfl
      · cases h

namespace Acquire

variable {client : Client s} {own : Fin s.brokers} {time : UInt64} {c c' : Cluster s}
  {fan : FanOut s} {place : Nat}

/-- **The moves of a client that asks its peers.** -/
theorem gathering_cases {move : Move (Acquire s) UInt64}
    (h : step client place (.gathering own time fan) c = (move, c')) :
    (client.isCancelled c = true ∧ move = .next (.withdrawing own) ∧ c' = fan.hangUp c) ∨
    client.isCancelled c = false ∧
      ((move = .wait ∧ fan.step client (question client time) place c = (.wait, c')) ∨
      (∃ fan', move = .next (.gathering own time fan') ∧
        fan.step client (question client time) place c = (.next fan', c')) ∨
      (move = .next (.granted own time) ∧
        fan.step client (question client time) place c = (.finish (.ok ()), c')) ∨
      ∃ fault, move = .finish (.error fault) ∧
        fan.step client (question client time) place c = (.finish (.error fault), c')) := by
  unfold step at h
  dsimp only at h
  split at h
  · next hcancelled =>
      obtain ⟨rfl, rfl⟩ := Prod.mk.inj h
      exact .inl ⟨hcancelled, rfl, rfl⟩
  · next hcancelled =>
      refine .inr ⟨Bool.not_eq_true _ ▸ hcancelled, ?_⟩
      split at h <;> obtain ⟨rfl, rfl⟩ := Prod.mk.inj h <;> simp_all

/-- **A request stands while its client asks for permission**, and the client asks others only. -/
theorem Attempt.stands (h : Attempt client own time fan c) :
    fan.AsksOthers client.process ∧
      (c.coordinator own).announced? client.process = some (.requested, time) := by
  induction h with
  | @announce fan c c' place h =>
      simp only [step, Cluster.call_eq] at h
      cases houtage : (c.brokers.get own).outage with
      | some e =>
          rw [houtage] at h
          cases (Prod.mk.inj h).1
      | none =>
          simp only [houtage] at h
          split at h
          · next announced c₁ heq =>
              obtain ⟨hmove, rfl⟩ := Prod.mk.inj h
              obtain ⟨-, rfl, rfl⟩ := Acquire.gathering.inj (Move.next.inj hmove)
              obtain ⟨hannounce, rfl⟩ := Prod.mk.inj heq
              refine ⟨FanOut.asksOthers_start client, ?_⟩
              rw [Cluster.coordinator_withCoordinator, if_pos rfl]
              exact Coordinator.announced?_announce hannounce
          · cases (Prod.mk.inj h).1
  | @move fan fan' c c' before place h ih =>
      obtain ⟨hfan, hstands⟩ := ih
      rcases gathering_cases h with ⟨-, hmove, -⟩ | ⟨-, ⟨hmove, -⟩ | ⟨fan₁, hmove, hstep⟩ |
        ⟨hmove, -⟩ | ⟨fault, hmove, -⟩⟩
      · cases hmove
      · cases hmove
      · obtain ⟨-, -, rfl⟩ := Acquire.gathering.inj (Move.next.inj hmove)
        obtain ⟨hapart, hnext⟩ := hfan.apart_step hstep
        refine ⟨hnext fan' rfl, ?_⟩
        rw [← hstands, Coordinator.announced?, hapart.records]
        rfl
      · cases hmove
      · cases hmove
  | meanwhile c' before h ih => exact ⟨ih.1, h.trans ih.2⟩

/-- **A withdrawal** frees the record of the process and grants whoever waits there. -/
theorem step_withdrawing {r : Record} (hwithin : (c.brokers.get own).outage = none)
    (hr : (c.coordinator own).records[client.process]? = some r)
    (hlast : r.clock.time ≠ Clock.last) :
    ∃ c', step client place (.withdrawing own) c = (.finish (fail (.cancelled "acquire")), c') ∧
      (∃ left, (c'.coordinator own).records[client.process]? = some left ∧
        left.standing = .free ∧ left.queue = []) ∧
      ∀ n ∈ r.tickets, (c'.coordinator own).answers[n]? = some .granted := by
  have hleave := Coordinator.answers_leave hr hlast
  have hrecord := (c.coordinator own).records_leave client.process client.process
  rw [if_pos rfl, hr, Option.map_some, Record.leave_of_ne_last hlast] at hrecord
  refine ⟨c.withCoordinator own ((c.coordinator own).leave client.process).2, ?_,
    ⟨⟨⟨r.clock.time + 1⟩, .free, r.announced, []⟩, ?_, rfl, rfl⟩, fun n hn => ?_⟩
  · simp only [step, Cluster.call_eq, hwithin, Coordinator.leave, hr, Record.leave_of_ne_last hlast]
  · rw [Cluster.coordinator_withCoordinator, if_pos rfl]
    exact hrecord
  · rw [Cluster.coordinator_withCoordinator, if_pos rfl, hleave, if_pos hn]

end Acquire

/-! ## What is left -/

namespace Coordinator

variable {k : Coordinator} {p : ProcessId}

/-- The request of a process stands as it did, and everybody who waited for the process still
waits. -/
structure Stands (p : ProcessId) (k k' : Coordinator) : Prop where
  announced : k'.announced? p = k.announced? p
  waits : ∀ n, k.Waits ⟨.record p, n⟩ → k'.Waits ⟨.record p, n⟩

theorem Stands.refl (p : ProcessId) (k : Coordinator) : Stands p k k := ⟨rfl, fun _ => id⟩

theorem Stands.trans {k' k'' : Coordinator} (h : Stands p k k') (h' : Stands p k' k'') :
    Stands p k k'' :=
  ⟨h'.announced.trans h.announced, fun n hn => h'.waits n (h.waits n hn)⟩

theorem stands_of_record {k' : Coordinator} (h : k'.records[p]? = k.records[p]?) :
    Stands p k k' where
  announced := by rw [announced?, h, announced?]
  waits n hn := by rwa [waits_record, h]

/-- A request to the process is heard, and joins those who wait. -/
theorem stands_request (owner : ProcessId) (request : Stamp) :
    Stands p k (k.request owner request).2 := by
  have hrecord := k.records_request owner p request
  split at hrecord
  · constructor
    · rw [announced?, hrecord, announced?, Option.map_map]
      refine Option.map_congr fun r _ => ?_
      simp only [Function.comp, Record.standing_ask, Record.announced_ask]
    · rintro n ⟨r, hr, hn⟩
      refine ⟨r.ask owner k.issued request, by rw [hrecord, hr]; rfl, ?_⟩
      rw [Record.tickets, Record.queue_ask]
      split
      · rw [List.map_append]
        exact List.mem_append_left _ hn
      · exact hn
  · exact stands_of_record hrecord

theorem stands_subscribe {q : ProcessId} (h : p ≠ q) : Stands p k (k.subscribe q) := by
  refine stands_of_record ?_
  simp only [Coordinator.subscribe]
  split
  · rw [records_withRecord, if_neg h]
    rfl
  · rw [records_withRecord, if_neg h]

/-- **What others ask of a coordinator** leaves a request standing and lets everybody wait who
waits for its process. -/
theorem stands_perform {operation : Operation} (h : operation.actsFor p = false) (now : Int64) :
    Stands p k (k.perform now operation).2 := by
  cases operation with
  | subscribe q => exact stands_subscribe fun heq => by simp [Operation.actsFor, heq] at h
  | announce q =>
      have hne : p ≠ q := fun heq => by simp [Operation.actsFor, heq] at h
      exact stands_of_record (by rw [perform, records_announce, if_neg hne])
  | enter q =>
      have hne : p ≠ q := fun heq => by simp [Operation.actsFor, heq] at h
      exact stands_of_record (by rw [perform, records_enter, if_neg hne])
  | leave q =>
      have hne : p ≠ q := fun heq => by simp [Operation.actsFor, heq] at h
      exact stands_of_record (by rw [perform, records_leave, if_neg hne])
  | request owner request => exact stands_request owner request
  | ready owner caller => exact stands_of_record (by rw [perform, records_rendezvous])
  | finished owner caller => exact stands_of_record (by rw [perform, records_rendezvous])
  | restart expected => cases h
  | listSubscribed => exact .refl p k
  | health => exact .refl p k
  | readClock => exact .refl p k

theorem stands_performAll {operations : List (Int64 × Operation)}
    (h : ∀ o ∈ operations, o.2.actsFor p = false) : Stands p k (k.performAll operations) := by
  induction operations generalizing k with
  | nil => exact .refl p k
  | cons o rest ih =>
      exact (stands_perform (h o List.mem_cons_self) o.1).trans
        (ih fun o' ho' => h o' (List.mem_cons_of_mem _ ho'))

/-- Another attempt of a process comes after the requests it has heard of. -/
theorem collides_of_heard {r : Record} (hr : k.records[p]? = some r)
    (hlast : r.clock.time ≠ Clock.last) {w : Waiting} (hw : w ∈ r.queue)
    (hheard : w.request.time < r.clock.time) : k.Collides p w := by
  have hannounce : k.announce p = (.ok (r.clock.time + 1), k.withRecord p r.announce.2) := by
    simp [Coordinator.announce, hr, Record.announce_of_ne_last hlast]
  refine ⟨r.clock.time + 1, by rw [hannounce], ?_, fun other hother htime => ?_⟩
  · rw [hannounce, waits_withRecord, if_pos rfl, Record.announce_of_ne_last hlast]
    exact List.mem_map.mpr ⟨w, hw, rfl⟩
  · have hlater := Clock.lt_add_one hlast
    have hprecedes : Stamp.precedes ⟨other.announced, w.request.process⟩ ⟨r.clock.time + 1, p⟩ :=
      Stamp.precedes_of_time_lt (by rw [htime]; exact UInt64.lt_trans hheard hlater)
    simp [Record.defers, hother, Stamp.precedes_asymm hprecedes]

end Coordinator

namespace Acquire

variable {client : Client s} {own : Fin s.brokers} {time : UInt64} {c : Cluster s} {fan : FanOut s}

/-- **The request of a failed attempt stands.** An attempt that fails while it asks its peers leaves
the record of its process requested at the announced time, nobody who waits there is answered, and
whatever others ask of the coordinator afterwards changes nothing about that: only the process
itself could. If it tries again while somebody waits for it, its new request is deferred by
everybody whose own request is among those, so both wait for one another. An attempt that is
cancelled frees the record and grants whoever waits. -/
theorem failed_request_stands (h : Attempt client own time fan c) :
    (∀ place fault c',
      step client place (.gathering own time fan) c = (.finish (.error fault), c') →
      (c'.coordinator own).announced? client.process = some (.requested, time) ∧
      (∀ n, (c'.coordinator own).Waits ⟨.record client.process, n⟩ ↔
        (c.coordinator own).Waits ⟨.record client.process, n⟩) ∧
      (c'.coordinator own).answers = (c.coordinator own).answers ∧
      ∀ operations : List (Int64 × Operation),
        (∀ o ∈ operations, o.2.actsFor client.process = false) →
        ∃ r, ((c'.coordinator own).performAll operations).records[client.process]? = some r ∧
          r.standing = .requested ∧ r.announced = time ∧
          (∀ n, (c.coordinator own).Waits ⟨.record client.process, n⟩ → n ∈ r.tickets) ∧
          (r.clock.time ≠ Clock.last → ∀ w ∈ r.queue, w.request.time < r.clock.time →
            ((c'.coordinator own).performAll operations).Collides client.process w)) ∧
    ∀ place c', step client place (.gathering own time fan) c = (.next (.withdrawing own), c') →
      ∃ r, (c'.coordinator own).records[client.process]? = some r ∧
        ((c'.brokers.get own).outage = none → r.clock.time ≠ Clock.last →
          ∃ c'', step client place (.withdrawing own) c' =
              (.finish (fail (.cancelled "acquire")), c'') ∧
            (∃ left, (c''.coordinator own).records[client.process]? = some left ∧
              left.standing = .free ∧ left.queue = []) ∧
            ∀ n ∈ r.tickets, (c''.coordinator own).answers[n]? = some .granted) := by
  obtain ⟨hfan, hstands⟩ := h.stands
  have hwaits : ∀ {c'}, c.Apart client.process c' → ∀ n,
      (c'.coordinator own).Waits ⟨.record client.process, n⟩ ↔
        (c.coordinator own).Waits ⟨.record client.process, n⟩ := by
    intro c' hapart n
    rw [Coordinator.waits_record, hapart.records, Coordinator.waits_record]
  have hannounced : ∀ {c'}, c.Apart client.process c' →
      (c'.coordinator own).announced? client.process = some (.requested, time) := by
    intro c' hapart
    rw [Coordinator.announced?, hapart.records]
    exact hstands
  constructor
  · intro place fault c' hstep
    rcases gathering_cases hstep with ⟨-, hmove, -⟩ | ⟨-, ⟨hmove, -⟩ | ⟨fan', hmove, -⟩ |
      ⟨hmove, -⟩ | ⟨fault', -, hfanStep⟩⟩ <;> try cases hmove
    obtain ⟨hapart, -⟩ := hfan.apart_step hfanStep
    refine ⟨hannounced hapart, hwaits hapart, hapart.answers own, fun operations hothers => ?_⟩
    have hafter := Coordinator.stands_performAll (k := c'.coordinator own) hothers
    have hstill := hafter.announced
    rw [hannounced hapart] at hstill
    obtain ⟨r, hr, hrequest⟩ := Option.map_eq_some_iff.mp hstill
    refine ⟨r, hr, (Prod.mk.inj hrequest).1, (Prod.mk.inj hrequest).2, fun n hn => ?_,
      fun hlast w hw hheard => Coordinator.collides_of_heard hr hlast hw hheard⟩
    exact (Coordinator.waits_at_record hr rfl).mp (hafter.waits n ((hwaits hapart n).mpr hn))
  · intro place c' hstep
    rcases gathering_cases hstep with ⟨-, -, rfl⟩ | ⟨-, ⟨hmove, -⟩ | ⟨fan', hmove, -⟩ |
      ⟨hmove, -⟩ | ⟨fault', hmove, -⟩⟩ <;> try cases hmove
    have hstill := hannounced (hfan.apart_hangUp c)
    obtain ⟨r, hr, -⟩ := Option.map_eq_some_iff.mp hstill
    exact ⟨r, hr, fun hwithin hlast => step_withdrawing hwithin hr hlast⟩

end Acquire

/-! ### A peer that is gone -/

/-- Two brokers. "P1" and "P2" have subscribed, the router has found both of them, and then the
broker of "P2" has started anew. -/
def Cluster.deserted : Cluster ⟨2, 1, 1⟩ :=
  let vacant : Cluster ⟨2, 1, 1⟩ :=
    { brokers := #v[⟨Broker.localEndpoint "a", .new 2, none⟩,
        ⟨Broker.localEndpoint "b", .new 2, none⟩]
      routers := #v[.new [⟨0, Nat.two_pos⟩, ⟨1, Nat.one_lt_two⟩]]
      cancelled := .replicate 1 false
      now := 0
      files := .empty }
  let joined := (vacant.call ⟨0, Nat.two_pos⟩ fun k => (.ok (), k.subscribe "P1")).2
  let hosted := (joined.call ⟨1, Nat.one_lt_two⟩ fun k => (.ok (), k.subscribe "P2")).2
  ((hosted.refresh ⟨0, Nat.one_pos⟩).call ⟨1, Nat.one_lt_two⟩ fun k => (.ok (), k.restart 2)).2

/-- The client of "P1" there. -/
def Client.deserted : Client ⟨2, 1, 1⟩ :=
  ⟨"P1", ["P1", "P2"], some ⟨0, Nat.two_pos⟩, ⟨0, Nat.one_pos⟩, 0, ⟨0, Nat.one_pos⟩⟩

deriving instance DecidableEq for Move

namespace Acquire

/-- Its attempt fails, because "P2" is not there. -/
theorem exists_attempt_deserted : ∃ fan c c', Attempt Client.deserted 0 2 fan c ∧
    (c.brokers.get 0).outage = none ∧
    step .deserted 0 (.gathering 0 2 fan) c = (.finish (fail (.nodeNotFound "P2")), c') := by
  let announced := (step .deserted 0 (.routed 0) Cluster.deserted).2
  let fan : FanOut ⟨2, 1, 1⟩ := .start .deserted Client.deserted.peers
  let routed := (step .deserted 0 (.gathering 0 2 fan) announced).2
  have hannounced : Attempt Client.deserted 0 2 fan announced :=
    .announce 0 (Prod.ext (by decide +kernel) rfl)
  have hrouted : Attempt Client.deserted 0 2 ⟨[("P2", .routed 1)], false⟩ routed :=
    .move hannounced 0 (Prod.ext (by decide +kernel) rfl)
  exact ⟨_, routed, _, hrouted, by decide +kernel, Prod.ext (by decide +kernel) rfl⟩

/-- The request of "P1" stands. -/
theorem failed_request_stands_deserted : ∃ fan c c', Attempt Client.deserted 0 2 fan c ∧
    step .deserted 0 (.gathering 0 2 fan) c = (.finish (fail (.nodeNotFound "P2")), c') ∧
    (c'.coordinator 0).announced? "P1" = some (.requested, 2) := by
  obtain ⟨fan, c, c', hattempt, -, hstep⟩ := exists_attempt_deserted
  exact ⟨fan, c, c', hattempt, hstep, ((failed_request_stands hattempt).1 0 _ c' hstep).1⟩

/-- **It is not so** that a failed attempt takes its request back while its own broker is within
reach. -/
theorem not_withdrawn_of_failure : ¬ ∀ {s : Extent} (client : Client s) (own : Fin s.brokers)
    (time : UInt64) (fan : FanOut s) (c c' : Cluster s) (place : Nat) (cause : Error),
    Attempt client own time fan c → (c.brokers.get own).outage = none →
    step client place (.gathering own time fan) c = (.finish (fail cause), c') →
    ∃ r, (c'.coordinator own).records[client.process]? = some r ∧ r.standing ≠ .requested ∧
      r.queue = [] := by
  intro hall
  obtain ⟨fan, c, c', hattempt, hwithin, hstep⟩ := exists_attempt_deserted
  obtain ⟨r, hr, hstanding, -⟩ := hall _ _ _ fan c c' 0 _ hattempt hwithin hstep
  obtain ⟨hfan, hstands⟩ := hattempt.stands
  rcases gathering_cases hstep with ⟨-, hmove, -⟩ | ⟨-, ⟨hmove, -⟩ | ⟨fan', hmove, -⟩ |
    ⟨hmove, -⟩ | ⟨fault', -, hfanStep⟩⟩ <;> try cases hmove
  rw [Coordinator.announced?, ← (hfan.apart_step hfanStep).1.records, hr] at hstands
  exact hstanding (Prod.mk.inj (Option.some.inj hstands)).1

end Acquire

end CriticalSection
