import CriticalSection.Cluster.Visit
import CriticalSection.Proofs.FanOut
import CriticalSection.Proofs.Coordinator.Waits

/-!
# What a client may do to a cluster

Whatever the client of a process does takes its **course**: no request is parked but the one it asks
for, no record but its own comes to another standing, no answer is taken back and no number is given
out twice. A course on which nothing is parked is **quiet**, and so is everything a client does
besides asking a peer for permission.
-/

set_option autoImplicit false

namespace CriticalSection

variable {s : Extent}

/-! ## Definitions -/

/-- A request is parked on the record of a process. -/
def Coordinator.Parks (k : Coordinator) (q : ProcessId) (w : Waiting) : Prop :=
  ∃ r, k.records[q]? = some r ∧ w ∈ r.queue

/-- **The course of a coordinator** while some requests join those that are parked and no record
comes to another standing, unless it is that of the process that acts. -/
structure Coordinator.Course (acts : Option ProcessId) (joins : ProcessId → Waiting → Prop)
    (k k' : Coordinator) : Prop where
  orderly : k'.Orderly
  parks : ∀ q w, k'.Parks q w → k.Parks q w ∨ joins q w
  standing : ∀ (q : ProcessId) (r' : Record), acts ≠ some q → k'.records[q]? = some r' →
    ∃ r, k.records[q]? = some r ∧ r'.standing = r.standing
  kept : ∀ (n : Nat) (answer : Answer), k.answers[n]? = some answer → k'.answers[n]? = some answer
  issued : k.issued ≤ k'.issued

/-- No broker says that somebody has cancelled: only clients do. -/
def Cluster.Uncancelling (c : Cluster s) : Prop :=
  ∀ (b : Fin s.brokers) (op : String), (c.brokers.get b).outage ≠ some (.cancelled op)

/-- **The course of a cluster**: that of its coordinators, as far as they are orderly. -/
structure Cluster.Course (acts : Option ProcessId)
    (joins : Fin s.brokers → ProcessId → Waiting → Prop) (c c' : Cluster s) : Prop where
  coordinator : ∀ b, (c.coordinator b).Orderly →
    (c.coordinator b).Course acts (joins b) (c'.coordinator b)
  uncancelling : c.Uncancelling → c'.Uncancelling

/-- **A quiet course**: no request joins those that are parked. -/
abbrev Cluster.Quiet (acts : Option ProcessId) (c c' : Cluster s) : Prop :=
  c.Course acts (fun _ _ _ => False) c'

/-! ## Records and queues -/

namespace Record

theorem queue_announce (r : Record) : r.announce.2.queue = r.queue := by
  unfold announce
  split <;> rfl

/-- Whoever waits for a process that has left waited before: it has left too late. -/
theorem mem_of_mem_queue_leave {r : Record} {w : Waiting} (h : w ∈ r.leave.2.queue) :
    w ∈ r.queue := by
  unfold leave at h
  split at h
  · exact absurd h List.not_mem_nil
  · exact h

end Record

namespace Coordinator

variable {k k' k'' : Coordinator} {acts : Option ProcessId} {joins : ProcessId → Waiting → Prop}

/-- What is parked waits. -/
theorem Parks.waits {q : ProcessId} {w : Waiting} (h : k.Parks q w) :
    k.Waits ⟨.record q, w.ticket⟩ := by
  obtain ⟨r, hr, hw⟩ := h
  exact ⟨r, hr, List.mem_map_of_mem hw⟩

/-- Whose caller has hung up is parked no longer. -/
theorem parks_hangUp {t : Ticket} {q : ProcessId} {w : Waiting} (h : (k.hangUp t).Parks q w) :
    k.Parks q w ∧ t ≠ ⟨.record q, w.ticket⟩ := by
  obtain ⟨r', hr', hw⟩ := h
  rw [records_hangUp] at hr'
  split at hr'
  · obtain ⟨r, hr, rfl⟩ := Option.map_eq_some_iff.mp hr'
    obtain ⟨hw, hticket⟩ := List.mem_filter.mp hw
    refine ⟨⟨r, hr, hw⟩, ?_⟩
    rintro rfl
    simp at hticket
  · next hplace =>
      refine ⟨⟨r', hr', hw⟩, ?_⟩
      rintro rfl
      exact hplace rfl

/-! ## Courses of a coordinator -/

theorem Orderly.course_refl (h : k.Orderly) : k.Course acts joins k :=
  ⟨h, fun _ _ => .inl, fun _ r' _ hr' => ⟨r', hr', rfl⟩, fun _ _ => id, Nat.le_refl _⟩

theorem Course.trans (h : k.Course acts joins k') (h' : k'.Course acts joins k'') :
    k.Course acts joins k'' := by
  refine ⟨h'.orderly, fun q w hw => ?_, fun q r'' hq hr'' => ?_,
    fun n answer hn => h'.kept n answer (h.kept n answer hn), Nat.le_trans h.issued h'.issued⟩
  · rcases h'.parks q w hw with hw | hw
    · exact h.parks q w hw
    · exact .inr hw
  · obtain ⟨r', hr', hstanding'⟩ := h'.standing q r'' hq hr''
    obtain ⟨r, hr, hstanding⟩ := h.standing q r' hq hr'
    exact ⟨r, hr, hstanding'.trans hstanding⟩

theorem Course.mono {joins' : ProcessId → Waiting → Prop} (h : k.Course acts joins k')
    (hjoins : ∀ q w, joins q w → joins' q w) : k.Course acts joins' k' :=
  ⟨h.orderly, fun q w hw => (h.parks q w hw).imp_right (hjoins q w), h.standing, h.kept, h.issued⟩

section Ends

variable {ending : Place → Option Answer} {began : Option Ticket}

/-- A change that ends waits is a course when nobody comes to be parked and no standing changes but
that of the process that acts. -/
theorem Ends.course (h : k.Ends ending began k') (hparks : ∀ q w, k'.Parks q w → k.Parks q w)
    (hstanding : ∀ (q : ProcessId) (r' : Record), acts ≠ some q → k'.records[q]? = some r' →
      ∃ r, k.records[q]? = some r ∧ r'.standing = r.standing) : k.Course acts joins k' :=
  ⟨h.orderly, fun q w hw => .inl (hparks q w hw), hstanding, h.kept, h.issued⟩

/-- So it is when only the record of that process changes and its queue does not grow. -/
theorem Ends.course_of_records {p : ProcessId} (h : k.Ends ending began k') {f : Record → Record}
    (hrecords : ∀ q : ProcessId, k'.records[q]? =
      if q = p then k.records[q]?.map f else k.records[q]?)
    (hqueue : ∀ r, ∀ w ∈ (f r).queue, w ∈ r.queue) : k.Course (some p) joins k' := by
  refine h.course (fun q w hw => ?_) fun q r' hq hr' => ?_
  · obtain ⟨r', hr', hw⟩ := hw
    rw [hrecords] at hr'
    split at hr'
    · obtain ⟨r, hr, rfl⟩ := Option.map_eq_some_iff.mp hr'
      exact ⟨r, hr, hqueue r w hw⟩
    · exact ⟨r', hr', hw⟩
  · rw [hrecords, if_neg fun heq => hq (congrArg some heq.symm)] at hr'
    exact ⟨r', hr', rfl⟩

end Ends

theorem Orderly.course_announce (h : k.Orderly) (p : ProcessId) :
    k.Course (some p) joins (k.announce p).2 :=
  (h.ends_announce p).course_of_records (k.records_announce p) fun r w hw => by
    rwa [Record.queue_announce] at hw

theorem Orderly.course_enter (h : k.Orderly) (p : ProcessId) :
    k.Course (some p) joins (k.enter p).2 :=
  (h.ends_enter p).course_of_records (k.records_enter p) fun _ _ => id

theorem Orderly.course_leave (h : k.Orderly) (p : ProcessId) :
    k.Course (some p) joins (k.leave p).2 := by
  have hends : ∃ ending, k.Ends ending none (k.leave p).2 := by
    by_cases hlate : (k.leave p).1 = overflowed
    · exact ⟨_, h.ends_leave_overflowed hlate⟩
    · exact ⟨_, h.ends_leave p hlate⟩
  obtain ⟨ending, hends⟩ := hends
  exact hends.course_of_records (k.records_leave p) fun r w => Record.mem_of_mem_queue_leave

/-- Subscribing: the record of the process is a fresh one, on which nobody is parked. -/
theorem Orderly.course_subscribe (h : k.Orderly) (p : ProcessId) :
    k.Course (some p) joins (k.subscribe p) := by
  have hrecords : ∀ q : ProcessId, (k.subscribe p).records[q]? =
      if q = p then some .fresh else k.records[q]? := by
    intro q
    unfold Coordinator.subscribe
    dsimp only
    rw [records_withRecord]
    split
    · rfl
    · split <;> rfl
  refine (h.ends_subscribe p).course (fun q w hw => ?_) fun q r' hq hr' => ?_
  · obtain ⟨r', hr', hw⟩ := hw
    rw [hrecords] at hr'
    split at hr'
    · obtain rfl := Option.some.inj hr'
      exact absurd hw List.not_mem_nil
    · exact ⟨r', hr', hw⟩
  · rw [hrecords, if_neg fun heq => hq (congrArg some heq.symm)] at hr'
    exact ⟨r', hr', rfl⟩

theorem Orderly.course_restart (h : k.Orderly) (expected : UInt64) :
    k.Course acts joins (k.restart expected) := by
  have hrecords : ∀ q : ProcessId, (k.restart expected).records[q]? = none :=
    fun q => Std.TreeMap.getElem?_emptyc
  refine (h.ends_restart expected).course (fun q w hw => ?_) fun q r' _ hr' => ?_
  · obtain ⟨r', hr', -⟩ := hw
    rw [hrecords] at hr'
    cases hr'
  · rw [hrecords] at hr'
    cases hr'

theorem Orderly.course_rendezvous (h : k.Orderly) (phase : Phase) (owner caller : ProcessId) :
    k.Course acts joins (k.rendezvous phase owner caller).2 := by
  refine (h.ends_rendezvous phase owner caller).course (fun q w hw => ?_) fun q r' _ hr' => ?_
  · rwa [Parks, records_rendezvous] at hw
  · rw [records_rendezvous] at hr'
    exact ⟨r', hr', rfl⟩

theorem Orderly.course_hangUp (h : k.Orderly) (t : Ticket) : k.Course acts joins (k.hangUp t) := by
  refine ⟨h.hangUp t, fun q w hw => .inl (parks_hangUp hw).1, fun q r' _ hr' => ?_,
    fun n answer hn => by rwa [answers_hangUp], Nat.le_of_eq (issued_hangUp k t).symm⟩
  rw [records_hangUp] at hr'
  split at hr'
  · obtain ⟨r, hr, rfl⟩ := Option.map_eq_some_iff.mp hr'
    exact ⟨r, hr, rfl⟩
  · exact ⟨r', hr', rfl⟩

/-- **A request** joins those that are parked, if it has to wait, and changes no standing. -/
theorem Orderly.course_request (h : k.Orderly) (owner : ProcessId) (request : Stamp) :
    k.Course acts (fun q w => q = owner ∧ w.request = request ∧
      (k.request owner request).1 = .parked ⟨.record q, w.ticket⟩) (k.request owner request).2 := by
  have hends := h.ends_request owner request
  refine ⟨hends.orderly, fun q w hw => ?_, fun q r' _ hr' => ?_, hends.kept, hends.issued⟩
  · obtain ⟨r', hr', hw⟩ := hw
    rw [records_request] at hr'
    split at hr'
    · next heq =>
        obtain ⟨r, hr, rfl⟩ := Option.map_eq_some_iff.mp hr'
        rw [Record.queue_ask] at hw
        split at hw
        · next hdefers =>
            rcases List.mem_append.mp hw with hw | hw
            · exact .inl ⟨r, hr, hw⟩
            · obtain rfl := List.mem_singleton.mp hw
              subst heq
              refine .inr ⟨rfl, rfl, ?_⟩
              simp [Coordinator.request, hr, hdefers]
        · exact .inl ⟨r, hr, hw⟩
    · exact .inl ⟨r', hr', hw⟩
  · rw [records_request] at hr'
    split at hr'
    · obtain ⟨r, hr, rfl⟩ := Option.map_eq_some_iff.mp hr'
      exact ⟨r, hr, r.standing_ask owner k.issued request⟩
    · exact ⟨r', hr', rfl⟩

end Coordinator

/-! ## Courses of a cluster -/

namespace Cluster

variable {c c' c'' : Cluster s} {acts : Option ProcessId}
  {joins : Fin s.brokers → ProcessId → Waiting → Prop}

theorem Course.refl (c : Cluster s) : c.Course acts joins c := ⟨fun _ h => h.course_refl, id⟩

theorem Course.trans (h : c.Course acts joins c') (h' : c'.Course acts joins c'') :
    c.Course acts joins c'' :=
  ⟨fun b hb => (h.coordinator b hb).trans (h'.coordinator b (h.coordinator b hb).orderly),
    fun hc => h'.uncancelling (h.uncancelling hc)⟩

theorem Course.mono {joins' : Fin s.brokers → ProcessId → Waiting → Prop}
    (h : c.Course acts joins c') (hjoins : ∀ b q w, joins b q w → joins' b q w) :
    c.Course acts joins' c' :=
  ⟨fun b hb => (h.coordinator b hb).mono (hjoins b), h.uncancelling⟩

/-- What is quiet parks nobody, whoever might join. -/
theorem Quiet.course (h : c.Quiet acts c') : c.Course acts joins c' :=
  h.mono fun _ _ _ => False.elim

/-- What leaves all brokers alone is quiet. -/
theorem Quiet.of_brokers (h : c'.brokers = c.brokers) : c.Quiet acts c' := by
  refine ⟨fun b hb => ?_, fun hc b => ?_⟩
  · unfold coordinator at hb ⊢
    rw [h]
    exact hb.course_refl
  · rw [h]
    exact hc b

theorem Course.withCoordinator {b : Fin s.brokers} {k : Coordinator}
    (h : (c.coordinator b).Orderly → (c.coordinator b).Course acts (joins b) k) :
    c.Course acts joins (c.withCoordinator b k) := by
  refine ⟨fun b' hb' => ?_, fun hc b' => ?_⟩
  · rw [coordinator_withCoordinator]
    split
    · next heq =>
        subst heq
        exact h hb'
    · exact hb'.course_refl
  · rw [(c.keeps_withCoordinator b k).layout.outage]
    exact hc b'

theorem course_call {α : Type} {b : Fin s.brokers} {f : Coordinator → Outcome α × Coordinator}
    (h : (c.coordinator b).Orderly →
      (c.coordinator b).Course acts (joins b) (f (c.coordinator b)).2) :
    c.Course acts joins (c.call b f).2 := by
  rw [call_eq]
  split
  · exact .refl c
  · exact .withCoordinator h

/-- A broker may come to be out of reach for any reason but that somebody has cancelled. -/
theorem quiet_setOutage (c : Cluster s) (b : Fin s.brokers) {outage : Option Error}
    (h : ∀ op, outage ≠ some (.cancelled op)) : c.Quiet acts (c.setOutage b outage) := by
  refine ⟨fun b' hb' => ?_, fun hc b' => ?_⟩
  · have heq : (c.setOutage b outage).coordinator b' = c.coordinator b' := by
      unfold coordinator setOutage
      rw [brokers_withBroker]
      split
      · next heq => rw [heq]
      · rfl
    rw [heq]
    exact hb'.course_refl
  · unfold setOutage
    rw [brokers_withBroker]
    split
    · exact h
    · exact hc b'

theorem quiet_route (c : Cluster s) (r : Fin s.routers) (q : ProcessId) :
    c.Quiet acts (c.route r q).2 :=
  .of_brokers rfl

theorem quiet_hangUp (c : Cluster s) (b : Fin s.brokers) (t : Ticket) :
    c.Quiet acts (c.hangUp b t) := by
  rw [hangUp_eq]
  exact .withCoordinator fun h => h.course_hangUp t

end Cluster

variable {acts : Option ProcessId}

theorem Client.quiet_route (client : Client s) (q : ProcessId) (c : Cluster s) :
    c.Quiet acts (client.route q c).2 := by
  rw [Client.route_eq]
  split <;> exact c.quiet_route _ q

/-! ## Fan-outs -/

theorem FanOut.quiet_hangUp (fan : FanOut s) (c : Cluster s) : c.Quiet acts (fan.hangUp c) := by
  refine hangUp_induct (c.Quiet acts ·) (.refl c) fun e _ c' hc' => hc'.trans ?_
  cases e.2 with
  | parked b t => exact c'.quiet_hangUp b t
  | _ => exact .refl c'

/-- The course of a part is that of its question. -/
theorem Part.course_step {client : Client s} {ask : Question} {q : ProcessId} {part part' : Part s}
    {joins : Fin s.brokers → ProcessId → Waiting → Prop} {c c' : Cluster s}
    (hask : ∀ b, part = .routed b → c.Course acts joins (c.request b (ask q)).2)
    (h : part.step client ask q c = (some part', c')) : c.Course acts joins c' := by
  have hroute : c.Course acts joins (client.route q c).2 := (client.quiet_route q c).course
  rcases step_cases h with ⟨-, ⟨b, hr, -⟩ | ⟨fault, hr, -⟩⟩ |
    ⟨b, hb, ⟨t, hr, -⟩ | ⟨outcome, hr, -⟩⟩ | ⟨b, t, outcome, -, -, -, rfl⟩
  · rwa [hr] at hroute
  · rwa [hr] at hroute
  · have := hask b hb
    rwa [hr] at this
  · have := hask b hb
    rwa [hr] at this
  · exact .refl _

/-- The course of a fan-out is that of the part that moves. -/
theorem FanOut.course_step {client : Client s} {ask : Question}
    {joins : Fin s.brokers → ProcessId → Waiting → Prop} {place : Nat} {fan : FanOut s}
    {c : Cluster s}
    (hpart : ∀ (q : ProcessId) (part part' : Part s) (c' : Cluster s),
      part.step client ask q c = (some part', c') → c.Course acts joins c') :
    c.Course acts joins (fan.step client ask place c).2 := by
  rcases h : fan.step client ask place c with ⟨move, c'⟩
  rcases step_cases h with
    ⟨-, heq⟩ | ⟨-, -, heq⟩ | ⟨q, part, part', c₁, -, hstep, hproceed⟩
  · rw [heq]
    exact .refl c
  · rw [heq]
    exact .refl c
  · rcases proceed_cases hproceed with ⟨outcome, -, -, heq⟩ | ⟨-, -, heq⟩
    · rw [heq]
      exact (hpart q part part' c₁ hstep).trans (quiet_hangUp _ c₁).course
    · rw [heq]
      exact hpart q part part' c₁ hstep

/-! ## Calls that park nobody -/

theorem LineUp.quiet_step (client : Client s) (place : Nat) (l : LineUp s) (c : Cluster s) :
    c.Quiet acts (l.step client place c).2 := by
  have hstep : c.Quiet acts (l.fan.step client (question client l.phase) place c).2 := by
    refine FanOut.course_step fun q part part' c' => Part.course_step fun b _ => ?_
    rw [Cluster.request_eq]
    split
    · exact .refl c
    · exact .withCoordinator fun hb => hb.course_rendezvous l.phase q client.process
  unfold LineUp.step
  split
  · exact l.fan.quiet_hangUp c
  · split <;> simp_all

theorem AwaitPeers.quiet_step (client : Client s) (pause : UInt64) (attempts : UInt32)
    (stage : AwaitPeers) (c : Cluster s) :
    c.Quiet acts (stage.step client pause attempts c).2 := by
  unfold AwaitPeers.step
  split
  · exact .refl c
  · next pass q left =>
      have h : c.Quiet acts (c.route client.router q).2 := c.quiet_route client.router q
      split
      · simp_all
      · split <;> simp_all
  · split
    · exact .refl c
    · split <;> exact .refl c

theorem Subscribe.quiet_step (client : Client s) (stage : Subscribe s) (c : Cluster s) :
    c.Quiet (some client.process) (stage.step client c).2 := by
  cases stage with
  | start =>
      have h : c.Quiet (some client.process) (c.route client.router client.process).2 :=
        c.quiet_route client.router client.process
      simp only [step]
      split
      · exact .refl c
      · split
        · simp_all
        · split <;> simp_all
  | routed b => exact Cluster.course_call fun h => h.course_subscribe client.process

theorem Release.quiet_step (client : Client s) (stage : Release s) (c : Cluster s) :
    c.Quiet (some client.process) (stage.step client c).2 := by
  cases stage with
  | start =>
      have h : c.Quiet (some client.process) (client.route client.process c).2 :=
        client.quiet_route client.process c
      simp only [step]
      split <;> simp_all
  | routed own => exact Cluster.course_call fun h => h.course_leave client.process

/-- What is written to files is quiet. -/
theorem LoggedStay.quiet_step (client : Client s) (stay : LoggedStay) (c : Cluster s) :
    c.Quiet acts (stay.step client c).2 := by
  have hrecord : ∀ writer kind, c.Quiet acts (record client writer kind c).2 := by
    intro writer kind
    unfold record
    split
    · exact .refl c
    · exact .of_brokers rfl
  unfold LoggedStay.step
  split
  · next writer duration =>
      have h := hrecord writer .enter
      split <;> simp_all
  · next writer deadline =>
      have h := hrecord writer .exit
      split
      · split
        simp_all
      · exact .refl c

theorem Stay.quiet_step (stay : Stay) (c : Cluster s) : c.Quiet acts (stay.step c).2 := by
  unfold Stay.step
  split <;> exact .refl c

end CriticalSection
