import CriticalSection.Proofs.Exclusion.Safety

/-!
# Calm runs

In a **calm** run nothing fails: the cluster is connected, and no caller hangs up while its client
enters or leaves. A call that enters can still be cancelled by its token, and then withdraws its
request by itself.

In a calm run a process announces a request only while its record is free. So a request stands
until it is released, everybody whom the process lets wait comes after it, and what remains in the
queue of a record comes after the request of its owner.
-/

set_option autoImplicit false

namespace CriticalSection

variable {s : Extent}

/-! ## Definitions -/

/-- Whether a client is in the middle of entering or leaving. -/
def Activity.isUnderway : Activity s → Bool
  | .entering _ => true
  | .leaving _ => true
  | _ => false

/-- **What may happen in a calm run.** -/
def Scene.Calm (x : Scene s) : Occasion s → Prop
  | .setOutage .. => False
  | .hangUp p => (x.activity p).isUnderway = false
  | _ => True

instance (x : Scene s) (o : Occasion s) : Decidable (x.Calm o) :=
  match o with
  | .setOutage .. => isFalse id
  | .hangUp p => inferInstanceAs (Decidable ((x.activity p).isUnderway = false))
  | .begin .. | .advance .. | .cancel _ | .refresh _ | .setTime _ => isTrue trivial

namespace Party

/-- **Scenes that a party comes to in a calm run**, when all brokers were within reach and known to
all routers at its start, and no logical clock has stood at the last time. -/
def CalmlyReachable (party : Party s) (x : Scene s) : Prop :=
  ∃ start, party.Assembled start ∧ party.Connected start.cluster ∧
    party.Run Scene.Calm (fun y => party.InTime y.cluster) start x

/-- How a record stands while nothing fails. -/
def Steady (party : Party s) (c : Cluster s) (p : ProcessId) : Activity s → Prop
  | .outside => (party.record c p).standing = .free
  | .entering .start => (party.record c p).standing = .free
  | .entering (.routed _) => (party.record c p).standing = .free
  | .entering (.gathering _ _ fan) => fan.Flawless
  | .entering (.withdrawing _) => (party.record c p).standing = .requested
  | _ => True

/-- **Who waits in the queue of a process comes after its request**, which has not been released. -/
def Queued (party : Party s) (c : Cluster s) (p : ProcessId) : Prop :=
  ∀ w ∈ (party.record c p).queue, (party.record c p).standing ≠ .free ∧
    (party.stamp c p).precedes w.request = true

/-- **A calm cluster**, when the clients are doing what is given. -/
structure Tranquil (party : Party s) (c : Cluster s) (a : ProcessId → Activity s) : Prop where
  connected : party.Connected c
  steady : ∀ p ∈ party.processes, party.Steady c p (a p)
  queued : ∀ p ∈ party.processes, party.Queued c p
  /-- No request is later than the clock of its process. -/
  dated : ∀ p ∈ party.processes, (party.record c p).announced ≤ (party.record c p).clock.time

end Party

/-! ## Records that grow older -/

/-- **A record that grows older**: its clock does not go back, and it has a new request only if it
was free, with a time that its clock had not reached. -/
structure Record.Ages (r r' : Record) : Prop where
  clock : r.clock.time ≤ r'.clock.time
  announced : r'.announced = r.announced ∨
    r.standing = .free ∧ r.clock.time ≤ r'.announced ∧ r'.announced ≤ r'.clock.time

namespace Record

theorem Ages.refl (r : Record) : r.Ages r := ⟨UInt64.le_refl _, Or.inl rfl⟩

theorem ages_announce {r : Record} (hlast : r.clock.time ≠ Clock.last)
    (hfree : r.standing = .free) : r.Ages r.announce.2 := by
  have hlater := Clock.lt_add_one hlast
  rw [announce_of_ne_last hlast]
  refine ⟨?_, Or.inr ⟨hfree, ?_, UInt64.le_refl _⟩⟩
  · exact UInt64.le_of_lt hlater
  · exact UInt64.le_of_lt hlater

theorem ages_leave {r : Record} (hlast : r.clock.time ≠ Clock.last) : r.Ages r.leave.2 := by
  rw [leave_of_ne_last hlast]
  exact ⟨UInt64.le_of_lt (Clock.lt_add_one hlast), Or.inl rfl⟩

theorem ages_ask (r : Record) (owner : ProcessId) (ticket : Nat) (request : Stamp) :
    r.Ages (r.ask owner ticket request) := by
  refine ⟨?_, Or.inl (announced_ask r owner ticket request)⟩
  rw [clock_ask]
  exact r.clock.le_observe request.time

/-- A request that stands is not replaced. -/
theorem Ages.announced_of_ne_free {r r' : Record} (h : r.Ages r') (hstands : r.standing ≠ .free) :
    r'.announced = r.announced := by
  rcases h.announced with heq | ⟨hfree, -⟩
  · exact heq
  · exact absurd hfree hstands

theorem Ages.announced_le {r r' : Record} (h : r.Ages r') (hdated : r.announced ≤ r.clock.time) :
    r.announced ≤ r'.announced := by
  rcases h.announced with heq | ⟨-, hle, -⟩ <;> grind

theorem Ages.dated {r r' : Record} (h : r.Ages r') (hdated : r.announced ≤ r.clock.time) :
    r'.announced ≤ r'.clock.time := by
  have hclock := h.clock
  rcases h.announced with heq | ⟨-, -, hle⟩ <;> grind

end Record

namespace Party

variable {party : Party s} {c c' : Cluster s} {p q : ProcessId} {a a' : Activity s}

/-! ## What one process changes -/

/-- **A quiet change**: records grow older and queues stay as they have to be. -/
structure Quiet (party : Party s) (c c' : Cluster s) : Prop where
  ages : ∀ q, (party.record c q).Ages (party.record c' q)
  queued : ∀ q ∈ party.processes, party.Queued c q → party.Queued c' q

theorem Aside.quiet (h : party.Aside c c') : party.Quiet c c' := by
  refine ⟨fun q => ?_, fun q _ hqueued => ?_⟩
  · rw [h.record]
    exact .refl _
  · unfold Queued stamp
    rw [h.record]
    exact hqueued

/-- A change of one record is quiet if the record grows older and its queue stays as it has to
be. -/
theorem quiet_of_record (g : Record → Record)
    (hrecord : ∀ q, party.record c' q = if q = p then g (party.record c q) else party.record c q)
    (hages : (party.record c p).Ages (g (party.record c p)))
    (hqueued : ∀ w ∈ (g (party.record c p)).queue, party.Queued c p →
      (g (party.record c p)).standing ≠ .free ∧
        Stamp.precedes ⟨(g (party.record c p)).announced, p⟩ w.request = true) :
    party.Quiet c c' := by
  refine ⟨fun q => ?_, fun q _ hold => ?_⟩
  · rw [hrecord]
    split
    · next heq =>
        subst heq
        exact hages
    · exact .refl _
  · unfold Queued stamp
    rw [hrecord]
    split
    · next heq =>
        subst heq
        exact fun w hw => hqueued w hw hold
    · exact hold

theorem Settled.quiet_announce (h : party.Settled c) (hp : p ∈ party.processes)
    (hlast : (party.record c p).clock.time ≠ Clock.last)
    (hfree : (party.record c p).standing = .free) : party.Quiet c (party.announce c p) := by
  refine quiet_of_record (fun r => r.announce.2) (h.record_announce hp)
    (Record.ages_announce hlast hfree) ?_
  intro w hw hqueued
  rw [Record.announce_of_ne_last hlast] at hw
  exact absurd hfree (hqueued w hw).1

theorem Settled.quiet_enter (h : party.Settled c) (hp : p ∈ party.processes) :
    party.Quiet c (party.enter c p) := by
  refine quiet_of_record Record.enter (h.record_enter hp) ⟨UInt64.le_refl _, Or.inl rfl⟩ ?_
  exact fun w hw hqueued => ⟨by simp [Record.enter], (hqueued w hw).2⟩

theorem Settled.quiet_leave (h : party.Settled c) (hp : p ∈ party.processes)
    (hlast : (party.record c p).clock.time ≠ Clock.last) :
    party.Quiet c (party.leave c p) := by
  refine quiet_of_record (fun r => r.leave.2) (h.record_leave hp) (Record.ages_leave hlast) ?_
  intro w hw _
  rw [Record.leave_of_ne_last hlast] at hw
  exact absurd hw List.not_mem_nil

/-- **A process that makes another one wait precedes it**: while it wants to enter because it says
so, and while it is inside because the other one has cleared it. -/
theorem precedes_of_defers (hq : q ∈ party.processes) (hne : q ≠ p)
    (hrequested : (party.record c q).standing = .requested) (hbacked : party.Backed c p)
    (hdefers : (party.record c p).defers p (party.stamp c q) = true) :
    (party.record c p).standing ≠ .free ∧
      (party.stamp c p).precedes (party.stamp c q) = true := by
  cases hs : (party.record c p).standing with
  | free =>
      unfold Record.defers at hdefers
      rw [hs] at hdefers
      cases hdefers
  | requested =>
      unfold Record.defers at hdefers
      rw [hs, Bool.not_eq_true'] at hdefers
      exact ⟨by decide, Stamp.precedes_of_not hne hdefers⟩
  | acquired => exact ⟨by decide, (hbacked hs q hq hne).precedes hrequested⟩

theorem Settled.quiet_ask (h : party.Settled c) (hp : p ∈ party.processes)
    (hq : q ∈ party.processes) (hne : q ≠ p)
    (hrequested : (party.record c p).standing = .requested) (hbacked : party.Backed c q) :
    party.Quiet c (party.ask c p q) := by
  refine quiet_of_record
    (fun r => r.ask q (c.coordinator (party.host q)).issued (party.stamp c p)) (h.record_ask hq)
    (Record.ages_ask ..) ?_
  intro w hw hqueued
  rw [Record.standing_ask, Record.announced_ask]
  rw [Record.queue_ask] at hw
  split at hw
  -- The request joins the queue because it is deferred, and is deferred because it comes later.
  · next hdefers =>
      rcases List.mem_append.mp hw with hw | hw
      · exact hqueued w hw
      · rw [List.mem_singleton.mp hw]
        exact precedes_of_defers hp (Ne.symm hne) hrequested hbacked hdefers
  · exact hqueued w hw

theorem Asks.quiet (h : party.Asks p c c') (hsettled : party.Settled c)
    (hp : p ∈ party.processes) (hrequested : (party.record c p).standing = .requested)
    (hbacked : ∀ q ∈ party.processes, party.Backed c q) : party.Quiet c c' := by
  rcases h with haside | ⟨q, hq, hne, rfl⟩
  · exact haside.quiet
  · exact hsettled.quiet_ask hp hq hne hrequested (hbacked q hq)

theorem Shortens.quiet (h : party.Shortens c c') : party.Quiet c c' := by
  refine ⟨fun q => ⟨?_, Or.inl (h.announced q)⟩, fun q _ hqueued w hw => ?_⟩
  · rw [h.clock]
    exact UInt64.le_refl _
  · unfold stamp
    rw [h.standing, h.announced]
    exact hqueued w (h.queue q hw)

theorem Spares.steady (h : party.Spares p c c') (ha : party.Steady c p a) :
    party.Steady c' p a := by
  match a, ha with
  | .outside, ha => exact h.standing.trans ha
  | .entering .start, ha => exact h.standing.trans ha
  | .entering (.routed _), ha => exact h.standing.trans ha
  | .entering (.gathering _ _ _), ha => exact ha
  | .entering (.withdrawing _), ha => exact h.standing.trans ha
  | .entering (.granted _ _), ha => exact ha
  | .inside, ha => exact ha
  | .leaving _, ha => exact ha

/-- A record that its process has left is free. -/
theorem Settled.steady_leave (h : party.Settled c) (hp : p ∈ party.processes)
    (hlast : (party.record c p).clock.time ≠ Clock.last) :
    party.Steady (party.leave c p) p .outside := by
  show (party.record (party.leave c p) p).standing = .free
  rw [h.record_leave hp, if_pos rfl, Record.leave_of_ne_last hlast]

/-- **Every effect is quiet** in a connected cluster, and leaves its process steady. -/
theorem Effect.quiet (h : party.Effect p c a a' c') (hsettled : party.Settled c)
    (hp : p ∈ party.processes) (htime : party.InTime c) (hfits : party.Fits c p a)
    (hbacked : ∀ q ∈ party.processes, party.Backed c q) (hconnected : party.Connected c)
    (hsteady : party.Steady c p a) : party.Quiet c c' ∧ party.Steady c' p a' := by
  cases h with
  | aside h => exact ⟨h.quiet, (h.spares p).steady hsteady⟩
  | ask h => exact ⟨h.quiet, (h.spares p).standing.trans hsteady⟩
  | route h => exact ⟨h.quiet, (h.spares p).standing.trans hsteady⟩
  | announce own =>
      refine ⟨hsettled.quiet_announce hp (htime p hp) hsteady, fun e he => ?_⟩
      obtain ⟨q, -, rfl⟩ := List.mem_map.mp he
      rfl
  | gather hasks _ hflawless =>
      exact ⟨hasks.quiet hsettled hp hfits.requested hbacked, hflawless hconnected hsteady⟩
  | grant hasks _ => exact ⟨hasks.quiet hsettled hp hfits.requested hbacked, trivial⟩
  | withdraw own time fan =>
      have hgathers : party.Gathers c p own time fan := hfits
      obtain ⟨hshort, -⟩ := hsettled.hangUp (hgathers.promised hp)
      exact ⟨hshort.quiet, (hshort.standing p).trans hgathers.requested⟩
  | fail _ _ hfault => exact absurd hsteady (hfault hconnected)
  | giveUp own =>
      exact ⟨hsettled.quiet_leave hp (htime p hp), hsettled.steady_leave hp (htime p hp)⟩
  | enter own time => exact ⟨hsettled.quiet_enter hp, trivial⟩
  | leave _ h => exact ⟨h.quiet, trivial⟩
  | routeLeave h => exact ⟨h.quiet, trivial⟩
  | release own =>
      exact ⟨hsettled.quiet_leave hp (htime p hp), hsettled.steady_leave hp (htime p hp)⟩
  | fall _ _ hfault => exact absurd hconnected hfault

/-! ## Calm scenes -/

theorem Desertion.isUnderway (h : Desertion a c a' c') : a.isUnderway = true := by
  cases h <;> rfl

/-- **Every turn of a calm run is quiet** and leaves everything calm. -/
theorem Turn.tranquil {o : Occasion s} {x y : Scene s} (h : party.Turn o x y)
    (hx : party.Lawful x) (hafter : party.InTime y.cluster)
    (htranquil : party.Tranquil x.cluster x.activity) (hcalm : x.Calm o) :
    party.Quiet x.cluster y.cluster ∧ party.Tranquil y.cluster y.activity := by
  have hsound := hx.sound
  -- What is left to show of each kind of turn.
  have hrest : party.Quiet x.cluster y.cluster → party.Connected y.cluster →
      (∀ p ∈ party.processes, party.Steady y.cluster p (y.activity p)) →
      party.Tranquil y.cluster y.activity := by
    intro hquiet hconnected hsteady
    refine ⟨hconnected, hsteady, fun p hp => ?_, fun p hp => ?_⟩
    · exact hquiet.queued p hp (htranquil.queued p hp)
    · exact (hquiet.ages p).dated (htranquil.dated p hp)
  cases h with
  | deed p hp hdeed others =>
      have heffect := hsound.settled.effect_deed hp (hsound.fits p hp) hx.inTime hafter hdeed
      have hupholds := heffect.upholds hsound.settled hp hx.inTime (hsound.fits p hp)
      obtain ⟨hquiet, hsteady⟩ := heffect.quiet hsound.settled hp hx.inTime (hsound.fits p hp)
        hsound.backed htranquil.connected (htranquil.steady p hp)
      refine ⟨hquiet, hrest hquiet (htranquil.connected.of_sameLayout hdeed.sameLayout) ?_⟩
      intro q hq
      by_cases hne : q = p
      · subst hne
        exact hsteady
      · rw [others q hne]
        exact (hupholds.spares q hq hne).steady (htranquil.steady q hq)
  | desertion p _ ho hdesertion _ =>
      -- Nobody hangs up in the middle of entering or leaving.
      have hidle : (x.activity p).isUnderway = false := by
        rw [ho] at hcalm
        exact hcalm
      rw [hdesertion.isUnderway] at hidle
      cases hidle
  | aside h layout same =>
      have hconnected := htranquil.connected.of_sameLayout (layout fun b outage ho => by
        rw [ho] at hcalm
        exact hcalm)
      refine ⟨h.quiet, hrest h.quiet hconnected fun p hp => ?_⟩
      rw [same]
      exact (h.spares p).steady (htranquil.steady p hp)

theorem Assembled.tranquil {x : Scene s} (h : party.Assembled x)
    (hconnected : party.Connected x.cluster) : party.Tranquil x.cluster x.activity := by
  refine ⟨hconnected, fun p _ => ?_, fun p _ w hw => ?_, fun p _ => ?_⟩
  · rw [h.activity]
    show (party.record x.cluster p).standing = .free
    rw [h.record]
    rfl
  · rw [h.record] at hw
    exact absurd hw List.not_mem_nil
  · rw [h.record]
    decide

theorem Lawful.quiet_step {o : Occasion s} {x y : Scene s} (hx : party.Lawful x)
    (htranquil : party.Tranquil x.cluster x.activity) (hcalm : x.Calm o)
    (hstep : x.step party o = some y) (hafter : party.InTime y.cluster) :
    party.Lawful y ∧ party.Quiet x.cluster y.cluster ∧
      party.Tranquil y.cluster y.activity := by
  obtain ⟨hlawful, hturn⟩ := hx.step hstep hafter
  exact ⟨hlawful, hturn.tranquil hx hafter htranquil hcalm⟩

/-- **Calm runs stay calm.** -/
theorem CalmlyReachable.tranquil {x : Scene s} (h : party.CalmlyReachable x) :
    party.Lawful x ∧ party.Tranquil x.cluster x.activity := by
  obtain ⟨start, hassembled, hconnected, run⟩ := h
  induction run with
  | refl => exact ⟨hassembled.lawful, hassembled.tranquil hconnected⟩
  | step run o hcalm next hafter ih =>
      obtain ⟨hlawful, htranquil⟩ := ih
      obtain ⟨hlawful', -, htranquil'⟩ := hlawful.quiet_step htranquil hcalm next hafter
      exact ⟨hlawful', htranquil'⟩

end Party

end CriticalSection
