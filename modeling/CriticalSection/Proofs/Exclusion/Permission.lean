import Mathlib.Data.List.Nodup
import CriticalSection.Proofs.Exclusion.Changes

/-!
# Permissions

A process `q` **clears** a process `p` when its clock is past the request of `p` and its record
would not let that request wait. Once given, a clearance lasts as long as the request of `p` does: a
request that `q` announces later has a later time, and `q` itself cannot enter, because of two
processes that clear each other each would have to precede the other.

What the changes of one process leave to another is put down in `Spares`: its own request, the
clearances it has, and the promises it holds, each of which is a ticket that is either still in
the queue of a record or has been granted with a clearance.
-/

set_option autoImplicit false

namespace CriticalSection

variable {s : Extent}

namespace Party

variable {party : Party s} {c c' c'' : Cluster s} {p q owner : ProcessId} {k : Coordinator}
  {g : Record → Record} {b : Fin s.brokers} {t : Ticket}

/-! ## Clearances and promises -/

/-- **`q` clears `p`**: it has heard of the request of `p` and would let it pass. -/
def Cleared (party : Party s) (c : Cluster s) (p q : ProcessId) : Prop :=
  (party.stamp c p).time < (party.record c q).clock.time ∧
    (party.record c q).defers q (party.stamp c p) = false

/-- **`p` holds a promise of `q`**: a ticket for the record of `q`, which waits there or has been
granted with a clearance. -/
def Promised (party : Party s) (c : Cluster s) (p q : ProcessId) (b : Fin s.brokers)
    (t : Ticket) : Prop :=
  b = party.host q ∧ t.place = .record q ∧
    (party.stamp c p).time < (party.record c q).clock.time ∧
    (⟨t.number, party.stamp c p⟩ ∈ (party.record c q).queue ∨
      (c.coordinator b).answers[t.number]? = some .granted ∧ party.Cleared c p q)

/-- **A process that wants to enter and is cleared precedes** the request of the other. -/
theorem Cleared.precedes (h : party.Cleared c p q)
    (hq : (party.record c q).standing = .requested) :
    (party.stamp c p).precedes (party.stamp c q) = true :=
  (Record.defers_eq_false_iff.mp h.2).2 hq

theorem Cleared.standing_ne (h : party.Cleared c p q) :
    (party.record c q).standing ≠ .acquired :=
  (Record.defers_eq_false_iff.mp h.2).1

/-- **No two processes that want to enter or are inside clear each other.** -/
theorem Cleared.not_mutual (h : party.Cleared c p q) (h' : party.Cleared c q p)
    (hp : (party.record c p).standing ≠ .free) (hq : (party.record c q).standing ≠ .free) :
    False := by
  have hforth := h.precedes (Standing.eq_requested hq h.standing_ne)
  have hback := h'.precedes (Standing.eq_requested hp h'.standing_ne)
  rw [Stamp.precedes_asymm hback] at hforth
  exact absurd hforth (by decide)

/-! ## Changes that spare a process -/

/-- **A change spares a process** when the request of the process stands as it did and all its
clearances and promises last. -/
structure Spares (party : Party s) (p : ProcessId) (c c' : Cluster s) : Prop where
  standing : (party.record c' p).standing = (party.record c p).standing
  announced : (party.record c' p).announced = (party.record c p).announced
  cleared : ∀ q ∈ party.processes, q ≠ p → (party.record c p).standing ≠ .free →
    party.Cleared c p q → party.Cleared c' p q
  promised : ∀ q ∈ party.processes, q ≠ p → (party.record c p).standing = .requested →
    ∀ b t, party.Promised c p q b t → party.Promised c' p q b t

theorem Spares.refl (party : Party s) (p : ProcessId) (c : Cluster s) : party.Spares p c c :=
  ⟨rfl, rfl, fun _ _ _ _ => id, fun _ _ _ _ _ _ => id⟩

theorem Spares.trans (h : party.Spares p c c') (h' : party.Spares p c' c'') :
    party.Spares p c c'' := by
  refine ⟨h'.standing.trans h.standing, h'.announced.trans h.announced, ?_, ?_⟩
  · intro q hq hne hs hcleared
    exact h'.cleared q hq hne (h.standing ▸ hs) (h.cleared q hq hne hs hcleared)
  · intro q hq hne hs b t hpromised
    exact h'.promised q hq hne (h.standing ▸ hs) b t (h.promised q hq hne hs b t hpromised)

theorem Spares.stamp (h : party.Spares p c c') : party.stamp c' p = party.stamp c p := by
  unfold Party.stamp
  rw [h.announced]

/-- What is aside spares everybody. -/
theorem Aside.spares (h : party.Aside c c') (p : ProcessId) : party.Spares p c c' := by
  have hstamp : party.stamp c' p = party.stamp c p := by
    unfold Party.stamp
    rw [h.record]
  have hcleared : ∀ q, party.Cleared c p q → party.Cleared c' p q := by
    intro q hq
    unfold Cleared
    rw [hstamp, h.record]
    exact hq
  refine ⟨by rw [h.record], by rw [h.record], fun q _ _ _ => hcleared q, ?_⟩
  rintro q - - - b t ⟨hb, hplace, htime, hwaits | ⟨hgranted, hq⟩⟩
  · refine ⟨hb, hplace, ?_, Or.inl ?_⟩
    · rw [hstamp, h.record]
      exact htime
    · rw [hstamp, h.record]
      exact hwaits
  · refine ⟨hb, hplace, ?_, Or.inr ⟨h.granted b t.number hgranted, hcleared q hq⟩⟩
    rw [hstamp, h.record]
    exact htime

/-- **When the record of one process changes**, a process is spared if its own request stands, and
if the changed record still clears it where it did and keeps or grants what it has promised. -/
theorem Settled.spares_of_changes (h : party.Settled c) (howner : owner ∈ party.processes)
    (hk : Changes (c.coordinator (party.host owner)) k owner g)
    (hgranted : ∀ n : Nat, (c.coordinator (party.host owner)).answers[n]? = some .granted →
      k.answers[n]? = some .granted)
    (hown : p = owner → (g (party.record c owner)).standing = (party.record c owner).standing ∧
      (g (party.record c owner)).announced = (party.record c owner).announced)
    (hcleared : p ≠ owner → (party.record c p).standing ≠ .free → party.Cleared c p owner →
      (party.stamp c p).time < (g (party.record c owner)).clock.time ∧
        (g (party.record c owner)).defers owner (party.stamp c p) = false)
    (hpromised : p ≠ owner → (party.record c p).standing = .requested → ∀ n,
      (party.stamp c p).time < (party.record c owner).clock.time →
      ⟨n, party.stamp c p⟩ ∈ (party.record c owner).queue →
      (party.stamp c p).time < (g (party.record c owner)).clock.time ∧
        (⟨n, party.stamp c p⟩ ∈ (g (party.record c owner)).queue ∨
          k.answers[n]? = some .granted ∧
            (g (party.record c owner)).defers owner (party.stamp c p) = false)) :
    party.Spares p c (c.withCoordinator (party.host owner) k) := by
  have hrecord := h.record_of_changes howner hk
  -- Whatever is said of a record is split on whether it is the one that changes.
  have hstanding : (party.record (c.withCoordinator (party.host owner) k) p).standing =
      (party.record c p).standing := by
    rw [hrecord]
    split
    · next heq => exact heq ▸ (hown heq).1
    · rfl
  have hannounced : (party.record (c.withCoordinator (party.host owner) k) p).announced =
      (party.record c p).announced := by
    rw [hrecord]
    split
    · next heq => exact heq ▸ (hown heq).2
    · rfl
  have hstamp : party.stamp (c.withCoordinator (party.host owner) k) p = party.stamp c p := by
    unfold Party.stamp
    rw [hannounced]
  have hcleared' : ∀ q, q ≠ p → (party.record c p).standing ≠ .free → party.Cleared c p q →
      party.Cleared (c.withCoordinator (party.host owner) k) p q := by
    intro q hne hs hq
    unfold Cleared
    rw [hstamp, hrecord]
    split
    · next heq =>
        subst heq
        exact hcleared (Ne.symm hne) hs hq
    · exact hq
  refine ⟨hstanding, hannounced, fun q _ => hcleared' q, ?_⟩
  rintro q - hne hs b t ⟨hb, hplace, htime, hwaits⟩
  have hfree : (party.record c p).standing ≠ .free := by rw [hs]; decide
  have hanswers : ∀ n : Nat, (c.coordinator b).answers[n]? = some .granted →
      ((c.withCoordinator (party.host owner) k).coordinator b).answers[n]? = some .granted := by
    intro n hn
    rw [Cluster.coordinator_withCoordinator]
    split
    · next heq => exact hgranted n (heq ▸ hn)
    · exact hn
  refine ⟨hb, hplace, ?_, ?_⟩
  -- The clock is past the request because the promise was kept or there is a clearance.
  · rw [hstamp, hrecord]
    split
    · next heq =>
        subst heq
        rcases hwaits with hwaits | ⟨-, hq⟩
        · exact (hpromised (Ne.symm hne) hs _ htime hwaits).1
        · exact (hcleared (Ne.symm hne) hfree hq).1
    · exact htime
  · rcases hwaits with hwaits | ⟨hn, hq⟩
    · unfold Cleared
      rw [hstamp, hrecord]
      split
      · next heq =>
          subst heq
          obtain ⟨hclock, hstill | ⟨hn, hdefers⟩⟩ := hpromised (Ne.symm hne) hs _ htime hwaits
          · exact Or.inl hstill
          · refine Or.inr ⟨?_, hclock, hdefers⟩
            rw [Cluster.coordinator_withCoordinator, if_pos hb]
            exact hn
      · exact Or.inl hwaits
    · exact Or.inr ⟨hanswers t.number hn, hcleared' q hne hfree hq⟩

/-! ## What the calls spare -/

/-- **A process that announces its request** still clears whomever it has cleared: the request has
a later time. -/
theorem Settled.spares_announce (h : party.Settled c) (hq : q ∈ party.processes)
    (hlast : (party.record c q).clock.time ≠ Clock.last) (hne : p ≠ q) :
    party.Spares p c (party.announce c q) := by
  have hlater := Clock.lt_add_one hlast
  refine h.spares_of_changes hq (changes_announce _ q) ?_ (absurd · hne) ?_ ?_
  · intro n hn
    rw [Coordinator.answers_announce]
    exact hn
  · intro _ _ hcleared
    have htime : (party.stamp c p).time < (party.record c q).clock.time + 1 := by
      have := hcleared.1
      grind
    rw [Record.announce_of_ne_last hlast]
    refine ⟨htime, Record.defers_eq_false_iff.mpr ⟨by simp, fun _ => ?_⟩⟩
    exact Stamp.precedes_of_time_lt htime
  · intro _ _ n htime hwaits
    rw [Record.announce_of_ne_last hlast]
    refine ⟨?_, Or.inl hwaits⟩
    show (party.stamp c p).time < (party.record c q).clock.time + 1
    grind

/-- **A process that goes inside** after all others have cleared it takes back no clearance that
matters, because none of those who want to enter has been cleared by it. -/
theorem Settled.spares_enter (h : party.Settled c) (hq : q ∈ party.processes)
    (hrequested : (party.record c q).standing = .requested) (hpq : party.Cleared c q p)
    (hne : p ≠ q) : party.Spares p c (party.enter c q) := by
  refine h.spares_of_changes hq (changes_enter _ q) ?_ (absurd · hne) ?_ ?_
  · intro n hn
    rw [Coordinator.answers_enter]
    exact hn
  · intro _ hfree hcleared
    exact (hcleared.not_mutual hpq hfree (by rw [hrequested]; decide)).elim
  · intro _ _ n htime hwaits
    exact ⟨htime, Or.inl hwaits⟩

/-- **A process that leaves** clears everybody and grants what it has promised. -/
theorem Settled.spares_leave (h : party.Settled c) (hq : q ∈ party.processes)
    (hlast : (party.record c q).clock.time ≠ Clock.last) (hne : p ≠ q) :
    party.Spares p c (party.leave c q) := by
  have hlater := Clock.lt_add_one hlast
  have hanswers := Coordinator.answers_leave (h.getElem?_records hq) hlast
  refine h.spares_of_changes hq (changes_leave _ q) ?_ (absurd · hne) ?_ ?_
  · intro n hn
    rw [hanswers]
    split
    · rfl
    · exact hn
  · intro _ _ hcleared
    rw [Record.leave_of_ne_last hlast]
    refine ⟨?_, rfl⟩
    have := hcleared.1
    show (party.stamp c p).time < (party.record c q).clock.time + 1
    grind
  · intro _ _ n htime hwaits
    rw [Record.leave_of_ne_last hlast]
    refine ⟨?_, Or.inr ⟨?_, rfl⟩⟩
    · show (party.stamp c p).time < (party.record c q).clock.time + 1
      grind
    · have hticket : n ∈ (party.record c q).tickets := List.mem_map.mpr ⟨_, hwaits, rfl⟩
      rw [hanswers, if_pos hticket]

/-- **A request** spares everybody: the clock of the other process only moves on, and its queue only
grows. -/
theorem Settled.spares_ask (h : party.Settled c) (hq : q ∈ party.processes) (p p' : ProcessId) :
    party.Spares p' c (party.ask c p q) := by
  refine h.spares_of_changes hq (changes_request _ q _) ?_ ?_ ?_ ?_
  · intro n hn
    rw [Coordinator.answers_request]
    exact hn
  · exact fun _ => ⟨Record.standing_ask .., Record.announced_ask ..⟩
  · intro _ _ hcleared
    rw [Record.clock_ask, Record.defers_ask]
    refine ⟨?_, hcleared.2⟩
    have := hcleared.1
    have := (party.record c q).clock.le_observe (party.stamp c p).time
    grind
  · intro _ _ n htime hwaits
    rw [Record.clock_ask, Record.queue_ask]
    refine ⟨?_, Or.inl ?_⟩
    · have := (party.record c q).clock.le_observe (party.stamp c p).time
      grind
    · split
      · exact List.mem_append_left _ hwaits
      · exact hwaits

/-- **Who asks in time** is cleared at once or gets a promise. -/
theorem Settled.permit_ask (h : party.Settled c) (hq : q ∈ party.processes)
    (hlast : (party.record (party.ask c p q) q).clock.time ≠ Clock.last) :
    if (party.record c q).defers q (party.stamp c p) then
      party.Promised (party.ask c p q) p q (party.host q)
        ⟨.record q, (c.coordinator (party.host q)).issued⟩
    else party.Cleared (party.ask c p q) p q := by
  have hstamp := (h.spares_ask hq p p).stamp
  have hrecord := h.record_ask (p := p) hq q
  rw [if_pos rfl] at hrecord
  have htime : (party.stamp c p).time < (party.record (party.ask c p q) q).clock.time := by
    rw [hrecord, Record.clock_ask] at hlast ⊢
    exact Clock.lt_observe hlast
  split
  · next hdefers =>
      refine ⟨rfl, rfl, by rwa [hstamp], Or.inl ?_⟩
      rw [hstamp, hrecord, Record.queue_ask, if_pos hdefers]
      exact List.mem_append_right _ (List.mem_singleton.mpr rfl)
  · next hdefers =>
      refine ⟨by rwa [hstamp], ?_⟩
      rw [hstamp, hrecord, Record.defers_ask]
      exact Bool.not_eq_true _ ▸ hdefers

/-! ## Giving up -/

/-- Nobody else waits with a ticket that a process holds. -/
theorem Promised.request_eq (hpromised : party.Promised c p q b t) (h : party.Settled c)
    (hq : q ∈ party.processes) {w : Waiting} (hw : w ∈ (party.record c q).queue)
    (hnumber : w.ticket = t.number) : w.request = party.stamp c p := by
  obtain ⟨rfl, -, -, hwaits⟩ := hpromised
  have horderly := h.orderly (party.host q)
  have hr := h.getElem?_records hq
  rcases hwaits with hwaits | ⟨hgranted, -⟩
  -- A ticket in the queue stands for one request, and one that has been granted for none.
  · have heq := List.inj_on_of_nodup_map (horderly.nodup q _ hr) hw hwaits hnumber
    rw [heq]
  · have hnone := horderly.unanswered ⟨.record q, w.ticket⟩
      ⟨_, hr, List.mem_map.mpr ⟨w, hw, rfl⟩⟩
    rw [hnumber, hgranted] at hnone
    cases hnone

/-- **A change that only shortens queues.** -/
structure Shortens (party : Party s) (c c' : Cluster s) : Prop where
  settled : party.Settled c'
  clock : ∀ q, (party.record c' q).clock = (party.record c q).clock
  standing : ∀ q, (party.record c' q).standing = (party.record c q).standing
  announced : ∀ q, (party.record c' q).announced = (party.record c q).announced
  queue : ∀ q, (party.record c' q).queue ⊆ (party.record c q).queue

theorem Settled.shortens_refl (h : party.Settled c) : party.Shortens c c :=
  ⟨h, fun _ => rfl, fun _ => rfl, fun _ => rfl, fun _ => List.Subset.refl _⟩

theorem Shortens.trans (h : party.Shortens c c') (h' : party.Shortens c' c'') :
    party.Shortens c c'' :=
  ⟨h'.settled, fun q => (h'.clock q).trans (h.clock q),
    fun q => (h'.standing q).trans (h.standing q),
    fun q => (h'.announced q).trans (h.announced q),
    fun q => List.Subset.trans (h'.queue q) (h.queue q)⟩

theorem Settled.shortens_hangUp (h : party.Settled c) (howner : owner ∈ party.processes)
    (hplace : t.place = .record owner) : party.Shortens c (c.hangUp (party.host owner) t) := by
  have hk := changes_hangUp (c.coordinator (party.host owner)) hplace
  have hrecord := h.record_of_changes howner hk
  rw [Cluster.hangUp_eq]
  refine ⟨h.of_changes hk ((h.orderly _).hangUp t), ?_, ?_, ?_, ?_⟩ <;> intro q <;> rw [hrecord]
  · split <;> rfl
  · split <;> rfl
  · split <;> rfl
  · split
    · exact List.filter_sublist.subset
    · exact List.Subset.refl _

/-- A ticket that is given up takes a request from a queue, and spares whom that is not of. -/
theorem Settled.spares_hangUp (h : party.Settled c) (howner : owner ∈ party.processes)
    (hplace : t.place = .record owner)
    (hothers : ∀ w ∈ (party.record c owner).queue, w.ticket = t.number → w.request.process ≠ q) :
    party.Spares q c (c.hangUp (party.host owner) t) := by
  rw [Cluster.hangUp_eq]
  refine h.spares_of_changes howner (changes_hangUp _ hplace) ?_ (fun _ => ⟨rfl, rfl⟩)
    (fun _ _ hcleared => hcleared) ?_
  · intro n hn
    rw [Coordinator.answers_hangUp]
    exact hn
  · intro _ _ n htime hwaits
    refine ⟨htime, Or.inl (List.mem_filter.mpr ⟨hwaits, ?_⟩)⟩
    rw [decide_eq_true_eq]
    exact fun hnumber => hothers _ hwaits hnumber rfl

/-- **A fan-out that hangs up** takes back requests of its own process, and spares all others. -/
theorem Settled.hangUp (h : party.Settled c) {fan : FanOut s}
    (hfan : ∀ e ∈ fan.parts, ∀ b t, e.2 = .parked b t →
      e.1 ∈ party.processes ∧ party.Promised c p e.1 b t) :
    party.Shortens c (fan.hangUp c) ∧ ∀ q, q ≠ p → party.Spares q c (fan.hangUp c) := by
  refine FanOut.hangUp_induct
    (fun c' => party.Shortens c c' ∧ ∀ q, q ≠ p → party.Spares q c c')
    ⟨h.shortens_refl, fun q _ => .refl party q c⟩ ?_
  rintro ⟨owner, part⟩ he c' ⟨hshort, hspares⟩
  cases part with
  | parked b t =>
      obtain ⟨howner, hpromised⟩ : owner ∈ party.processes ∧ party.Promised c p owner b t :=
        hfan _ he b t rfl
      obtain ⟨rfl, hplace, -, -⟩ := id hpromised
      refine ⟨hshort.trans (hshort.settled.shortens_hangUp howner hplace), fun q hne => ?_⟩
      refine (hspares q hne).trans (hshort.settled.spares_hangUp howner hplace ?_)
      -- The queues have only become shorter, so what is in them now was there at the start.
      intro w hw hnumber
      rw [hpromised.request_eq h howner (hshort.queue owner hw) hnumber]
      exact Ne.symm hne
  | _ => exact ⟨hshort, hspares⟩

end Party

end CriticalSection
