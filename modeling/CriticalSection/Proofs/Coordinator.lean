import CriticalSection.Coordinator.State
import CriticalSection.Proofs.Table
import CriticalSection.Proofs.Order

/-!
# What calls do to a coordinator

Every call changes at most the record of one process, which is described here process by process,
and ends at most the waits it is meant to end. The second half is about tickets: in an **orderly**
coordinator every number stands for one wait, and a wait that goes on has no answer yet. All calls
that clients make keep a coordinator orderly.
-/

set_option autoImplicit false

namespace CriticalSection

/-! ## Records -/

theorem Standing.eq_requested {standing : Standing} (hfree : standing ≠ .free)
    (hacquired : standing ≠ .acquired) : standing = .requested := by
  cases standing with
  | free => exact absurd rfl hfree
  | requested => rfl
  | acquired => exact absurd rfl hacquired

namespace Record

theorem announce_of_ne_last {r : Record} (h : r.clock.time ≠ Clock.last) :
    r.announce = (.ok (r.clock.time + 1),
      { r with clock := ⟨r.clock.time + 1⟩, standing := .requested,
               announced := r.clock.time + 1 }) := by
  simp [announce, Clock.tick_of_ne_last h]

theorem leave_of_ne_last {r : Record} (h : r.clock.time ≠ Clock.last) :
    r.leave = (.ok (),
      { r with clock := ⟨r.clock.time + 1⟩, standing := .free, queue := [] }) := by
  simp [leave, Clock.tick_of_ne_last h]

/-- What a request with a ticket makes of a record: it is heard, and parked if it has to wait. -/
def ask (r : Record) (owner : ProcessId) (ticket : Nat) (request : Stamp) : Record :=
  if r.defers owner request then (r.hear request).park ⟨ticket, request⟩ else r.hear request

theorem clock_ask (r : Record) (owner : ProcessId) (ticket : Nat) (request : Stamp) :
    (r.ask owner ticket request).clock = r.clock.observe request.time := by
  unfold ask
  split <;> rfl

theorem standing_ask (r : Record) (owner : ProcessId) (ticket : Nat) (request : Stamp) :
    (r.ask owner ticket request).standing = r.standing := by
  unfold ask
  split <;> rfl

theorem announced_ask (r : Record) (owner : ProcessId) (ticket : Nat) (request : Stamp) :
    (r.ask owner ticket request).announced = r.announced := by
  unfold ask
  split <;> rfl

theorem defers_ask (r : Record) (owner : ProcessId) (ticket : Nat) (request other : Stamp) :
    (r.ask owner ticket request).defers owner other = r.defers owner other := by
  unfold ask
  split <;> rfl

theorem queue_ask (r : Record) (owner : ProcessId) (ticket : Nat) (request : Stamp) :
    (r.ask owner ticket request).queue =
      if r.defers owner request then r.queue ++ [⟨ticket, request⟩] else r.queue := by
  unfold ask
  split <;> rfl

theorem tickets_park (r : Record) (waiting : Waiting) :
    (r.park waiting).tickets = r.tickets ++ [waiting.ticket] := by
  simp [tickets, park]

/-- **Whom a record lets pass at once**: everybody while it is free, and while it wants to enter
those that precede it. -/
theorem defers_eq_false_iff {r : Record} {owner : ProcessId} {request : Stamp} :
    r.defers owner request = false ↔
      r.standing ≠ .acquired ∧
        (r.standing = .requested → request.precedes ⟨r.announced, owner⟩ = true) := by
  unfold defers
  cases r.standing <;> simp

end Record

namespace Coordinator

/-! ## The records after a call -/

theorem records_withRecord (c : Coordinator) (p q : ProcessId) (r : Record) :
    (c.withRecord p r).records[q]? = if q = p then some r else c.records[q]? :=
  Table.getElem?_insert c.records p q r

theorem records_announce (c : Coordinator) (p q : ProcessId) :
    (c.announce p).2.records[q]? =
      if q = p then c.records[q]?.map fun r => r.announce.2 else c.records[q]? := by
  unfold announce
  split <;> split <;> simp_all [records_withRecord]

theorem records_enter (c : Coordinator) (p q : ProcessId) :
    (c.enter p).2.records[q]? =
      if q = p then c.records[q]?.map Record.enter else c.records[q]? := by
  unfold enter
  split <;> split <;> simp_all [records_withRecord]

theorem records_settle (c : Coordinator) (answer : Answer) (tickets : List Nat) :
    (c.settle answer tickets).records = c.records := rfl

theorem records_leave (c : Coordinator) (p q : ProcessId) :
    (c.leave p).2.records[q]? =
      if q = p then c.records[q]?.map fun r => r.leave.2 else c.records[q]? := by
  unfold leave
  split
  · split <;> simp_all
  · split <;> split <;> simp_all [records_withRecord, records_settle]

theorem records_request (c : Coordinator) (owner q : ProcessId) (request : Stamp) :
    (c.request owner request).2.records[q]? =
      if q = owner then c.records[q]?.map fun r => r.ask owner c.issued request
      else c.records[q]? := by
  unfold Coordinator.request Record.ask
  split
  · split <;> simp_all
  · split <;> split <;> simp_all [records_withRecord]

theorem records_withBarriers (c : Coordinator) (phase : Phase)
    (barriers : Std.TreeMap ProcessId Barrier) :
    (c.withBarriers phase barriers).records = c.records := by
  cases phase <;> rfl

theorem records_rendezvous (c : Coordinator) (phase : Phase) (owner caller : ProcessId) :
    (c.rendezvous phase owner caller).2.records = c.records := by
  unfold rendezvous
  dsimp only
  split
  · rw [records_settle, records_withBarriers]
  · exact records_withBarriers c phase _

theorem records_hangUp (c : Coordinator) (t : Ticket) (q : ProcessId) :
    (c.hangUp t).records[q]? =
      if t.place = .record q then c.records[q]?.map fun r => r.drop t.number
      else c.records[q]? := by
  unfold hangUp
  split
  · next owner h =>
      rw [Std.TreeMap.getElem?_modify, h]
      by_cases hq : owner = q <;> simp [hq]
  · next phase owner h =>
      rw [records_withBarriers, h]
      simp

/-! ## The answers after a call -/

theorem answers_settle (c : Coordinator) (answer : Answer) (tickets : List Nat) (n : Nat) :
    (c.settle answer tickets).answers[n]? =
      if n ∈ tickets then some answer else c.answers[n]? :=
  Table.getElem?_foldl_insert tickets answer c.answers n

theorem answers_announce (c : Coordinator) (p : ProcessId) :
    (c.announce p).2.answers = c.answers := by
  unfold announce
  split <;> rfl

theorem answers_enter (c : Coordinator) (p : ProcessId) : (c.enter p).2.answers = c.answers := by
  unfold enter
  split <;> rfl

theorem answers_request (c : Coordinator) (owner : ProcessId) (request : Stamp) :
    (c.request owner request).2.answers = c.answers := by
  unfold Coordinator.request
  split
  · rfl
  · dsimp only
    split <;> rfl

theorem answers_withBarriers (c : Coordinator) (phase : Phase)
    (barriers : Std.TreeMap ProcessId Barrier) :
    (c.withBarriers phase barriers).answers = c.answers := by
  cases phase <;> rfl

theorem answers_hangUp (c : Coordinator) (t : Ticket) : (c.hangUp t).answers = c.answers := by
  unfold hangUp
  split
  · rfl
  · exact answers_withBarriers c _ _

/-- A process that leaves in time grants every request parked on its record, and no other. -/
theorem answers_leave {c : Coordinator} {p : ProcessId} {r : Record} (hr : c.records[p]? = some r)
    (hlast : r.clock.time ≠ Clock.last) (n : Nat) :
    (c.leave p).2.answers[n]? = if n ∈ r.tickets then some .granted else c.answers[n]? := by
  have hleave : c.leave p = (.ok (), (c.withRecord p r.leave.2).settle .granted r.tickets) := by
    simp [leave, hr, Record.leave_of_ne_last hlast]
  rw [hleave, answers_settle]
  rfl

/-- What has been granted stays granted when somebody arrives at a barrier. -/
theorem granted_rendezvous {c : Coordinator} {n : Nat} (h : c.answers[n]? = some .granted)
    (phase : Phase) (owner caller : ProcessId) :
    (c.rendezvous phase owner caller).2.answers[n]? = some .granted := by
  unfold rendezvous
  dsimp only
  split
  · rw [answers_settle, answers_withBarriers, h]
    split <;> rfl
  · show (c.withBarriers phase _).answers[n]? = _
    rw [answers_withBarriers, h]

/-! ## Tickets -/

/-- **A ticket waits** at a coordinator while its number is on the list of its place. -/
def Waits (c : Coordinator) (t : Ticket) : Prop :=
  match t.place with
  | .record q => ∃ r, c.records[q]? = some r ∧ t.number ∈ r.tickets
  | .barrier phase q => t.number ∈ (c.barrier phase q).waiting

/-- **Orderly coordinators.** Numbers that wait have been given out, have no answer yet, and stand
for one wait each. -/
structure Orderly (c : Coordinator) : Prop where
  issued : ∀ t, c.Waits t → t.number < c.issued
  /-- A number that has not been given out has no answer. -/
  fresh : ∀ n, c.issued ≤ n → c.answers[n]? = none
  unanswered : ∀ t, c.Waits t → c.answers[t.number]? = none
  unique : ∀ t u, c.Waits t → c.Waits u → t.number = u.number → t = u
  nodup : ∀ (q : ProcessId) (r : Record), c.records[q]? = some r → r.tickets.Nodup

theorem waits_record {c : Coordinator} {q : ProcessId} {n : Nat} :
    c.Waits ⟨.record q, n⟩ ↔ ∃ r, c.records[q]? = some r ∧ n ∈ r.tickets := Iff.rfl

theorem waits_barrier {c : Coordinator} {phase : Phase} {q : ProcessId} {n : Nat} :
    c.Waits ⟨.barrier phase q, n⟩ ↔ n ∈ (c.barrier phase q).waiting := Iff.rfl

theorem barriers_withBarriers (c : Coordinator) (phase other : Phase)
    (barriers : Std.TreeMap ProcessId Barrier) :
    (c.withBarriers phase barriers).barriers other =
      if other = phase then barriers else c.barriers other := by
  cases phase <;> cases other <;> rfl

theorem barrier_insert (c : Coordinator) (phase other : Phase) (p q : ProcessId) (b : Barrier) :
    (c.withBarriers phase ((c.barriers phase).insert p b)).barrier other q =
      if other = phase ∧ q = p then b else c.barrier other q := by
  unfold barrier
  rw [barriers_withBarriers]
  by_cases hphase : other = phase
  · subst hphase
    rw [if_pos rfl, Std.TreeMap.getD_insert]
    by_cases hq : q = p
    · simp [hq]
    · simp [hq, Ne.symm hq]
  · simp [hphase]

theorem barrier_hangUp (c : Coordinator) (t : Ticket) (phase : Phase) (q : ProcessId) :
    (c.hangUp t).barrier phase q =
      if t.place = .barrier phase q then (c.barrier phase q).drop t.number
      else c.barrier phase q := by
  unfold hangUp
  split
  · next owner h =>
      rw [h]
      cases phase <;> rfl
  · next other owner h =>
      rw [h]
      unfold barrier
      rw [barriers_withBarriers]
      by_cases hphase : phase = other
      · subst hphase
        rw [if_pos rfl, Std.TreeMap.getD_eq_getD_getElem?, Std.TreeMap.getElem?_modify,
          Std.TreeMap.getD_eq_getD_getElem?]
        by_cases hq : owner = q
        · subst hq
          cases (c.barriers phase)[owner]? <;> simp [Barrier.drop, Barrier.closed]
        · simp [hq]
      · simp [hphase, Ne.symm hphase]

theorem issued_withBarriers (c : Coordinator) (phase : Phase)
    (barriers : Std.TreeMap ProcessId Barrier) :
    (c.withBarriers phase barriers).issued = c.issued := by
  cases phase <;> rfl

theorem expected_withBarriers (c : Coordinator) (phase : Phase)
    (barriers : Std.TreeMap ProcessId Barrier) :
    (c.withBarriers phase barriers).expected = c.expected := by
  cases phase <;> rfl

theorem expected_hangUp (c : Coordinator) (t : Ticket) : (c.hangUp t).expected = c.expected := by
  unfold hangUp
  split
  · rfl
  · exact expected_withBarriers c _ _

theorem issued_hangUp (c : Coordinator) (t : Ticket) : (c.hangUp t).issued = c.issued := by
  unfold hangUp
  split
  · rfl
  · exact issued_withBarriers c _ _

section Orderly

variable {c c' : Coordinator}

/-- A coordinator stays orderly when waits end and nothing is answered. -/
theorem Orderly.shrink (h : c.Orderly) (c' : Coordinator)
    (hrecords : ∀ (q : ProcessId) (r' : Record), c'.records[q]? = some r' →
      ∃ r, c.records[q]? = some r ∧ r'.tickets.Sublist r.tickets)
    (hbarriers : ∀ phase q n, n ∈ (c'.barrier phase q).waiting → n ∈ (c.barrier phase q).waiting)
    (hanswers : c'.answers = c.answers) (hissued : c'.issued = c.issued) :
    c'.Orderly ∧ ∀ t, c'.Waits t → c.Waits t := by
  -- Whoever still waits has waited before, so everything follows from what was known of it.
  have hwaits : ∀ t, c'.Waits t → c.Waits t := by
    rintro ⟨place | ⟨phase, q⟩, n⟩ ht
    · obtain ⟨r', hr', hn⟩ := ht
      obtain ⟨r, hr, hsub⟩ := hrecords _ r' hr'
      exact ⟨r, hr, hsub.subset hn⟩
    · exact hbarriers phase q n ht
  refine ⟨⟨?_, ?_, ?_, ?_, ?_⟩, hwaits⟩
  · intro t ht
    rw [hissued]
    exact h.issued t (hwaits t ht)
  · intro n hn
    rw [hanswers]
    exact h.fresh n (hissued ▸ hn)
  · intro t ht
    rw [hanswers]
    exact h.unanswered t (hwaits t ht)
  · intro t u ht hu
    exact h.unique t u (hwaits t ht) (hwaits u hu)
  · intro q r' hr'
    obtain ⟨r, hr, hsub⟩ := hrecords q r' hr'
    exact (h.nodup q r hr).sublist hsub

/-- A coordinator stays orderly when numbers that have been given out and wait no longer are
answered. -/
theorem Orderly.settle (h : c.Orderly) (answer : Answer) {tickets : List Nat}
    (hissued : ∀ n ∈ tickets, n < c.issued) (hwaits : ∀ t, c.Waits t → t.number ∉ tickets) :
    (c.settle answer tickets).Orderly := by
  have hsame : ∀ t, (c.settle answer tickets).Waits t → c.Waits t := by
    rintro ⟨place | ⟨phase, q⟩, n⟩ ht <;> exact ht
  refine ⟨fun t ht => h.issued t (hsame t ht), ?_, ?_, ?_, h.nodup⟩
  · intro n hn
    have hnot : n ∉ tickets := fun hmem => Nat.not_lt.mpr hn (hissued n hmem)
    rw [answers_settle, if_neg hnot]
    exact h.fresh n hn
  · intro t ht
    rw [answers_settle, if_neg (hwaits t (hsame t ht))]
    exact h.unanswered t (hsame t ht)
  · exact fun t u ht hu => h.unique t u (hsame t ht) (hsame u hu)

/-- A coordinator stays orderly when it gives out the next number for one more wait. -/
theorem Orderly.issue (h : c.Orderly) (place : Place)
    (hwaits : ∀ t, c'.Waits t → c.Waits t ∨ t = ⟨place, c.issued⟩)
    (hanswers : c'.answers = c.answers) (hissued : c'.issued = c.issued + 1)
    (hnodup : ∀ (q : ProcessId) (r : Record), c'.records[q]? = some r → r.tickets.Nodup) :
    c'.Orderly := by
  refine ⟨?_, ?_, ?_, ?_, hnodup⟩
  · intro t ht
    rcases hwaits t ht with hold | rfl
    · have := h.issued t hold
      omega
    · show c.issued < c'.issued
      omega
  · intro n hn
    rw [hanswers]
    exact h.fresh n (by omega)
  · intro t ht
    rw [hanswers]
    rcases hwaits t ht with hold | rfl
    · exact h.unanswered t hold
    · exact h.fresh c.issued (Nat.le_refl _)
  · intro t u ht hu hnumber
    -- The new number is past all that have been given out.
    rcases hwaits t ht with ht | rfl <;> rcases hwaits u hu with hu | rfl
    · exact h.unique t u ht hu hnumber
    · have := h.issued t ht
      simp only at hnumber
      omega
    · have := h.issued u hu
      simp only at hnumber
      omega
    · rfl

/-- When the record of one process loses waits and nothing else happens, a coordinator stays
orderly. -/
theorem Orderly.withRecord (h : c.Orderly) {p : ProcessId} {r : Record} (r' : Record)
    (hr : c.records[p]? = some r) (hsub : r'.tickets.Sublist r.tickets) :
    (c.withRecord p r').Orderly ∧ ∀ t, (c.withRecord p r').Waits t → c.Waits t := by
  refine h.shrink _ ?_ (fun phase q n hn => hn) rfl rfl
  intro q r₀ hr₀
  rw [records_withRecord] at hr₀
  split at hr₀
  · next hq =>
      subst hq
      obtain rfl := Option.some.inj hr₀
      exact ⟨r, hr, hsub⟩
  · exact ⟨r₀, hr₀, List.Sublist.refl _⟩

theorem Orderly.announce (h : c.Orderly) (p : ProcessId) : (c.announce p).2.Orderly := by
  unfold Coordinator.announce
  split
  · exact h
  · next r hr =>
      refine (h.withRecord r.announce.2 hr ?_).1
      unfold Record.announce
      split <;> exact List.Sublist.refl _

theorem Orderly.enter (h : c.Orderly) (p : ProcessId) : (c.enter p).2.Orderly := by
  unfold Coordinator.enter
  split
  · exact h
  · next r hr => exact (h.withRecord r.enter hr (List.Sublist.refl _)).1

/-- A process that leaves keeps a coordinator orderly: the waits it ends are those it grants. -/
theorem Orderly.leave (h : c.Orderly) {p : ProcessId} {r : Record} (hr : c.records[p]? = some r)
    (hlast : r.clock.time ≠ Clock.last) : (c.leave p).2.Orderly := by
  have hleave : c.leave p = (.ok (), (c.withRecord p r.leave.2).settle .granted r.tickets) := by
    simp [Coordinator.leave, hr, Record.leave_of_ne_last hlast]
  have hleft : r.leave.2.tickets = [] := by
    rw [Record.leave_of_ne_last hlast]
    rfl
  obtain ⟨horderly, hwaits⟩ := h.withRecord r.leave.2 hr (hleft ▸ List.nil_sublist _)
  rw [hleave]
  refine horderly.settle .granted (fun n hn => h.issued ⟨.record p, n⟩ ⟨r, hr, hn⟩) ?_
  -- A number that still waits is at another place than the record that was emptied.
  intro t ht hmem
  have heq := h.unique t ⟨.record p, t.number⟩ (hwaits t ht) ⟨r, hr, hmem⟩ rfl
  rw [heq, waits_record] at ht
  obtain ⟨r', hr', hn⟩ := ht
  rw [records_withRecord, if_pos rfl] at hr'
  obtain rfl := Option.some.inj hr'
  rw [hleft] at hn
  exact absurd hn List.not_mem_nil

/-- A request keeps a coordinator orderly, whether it is granted or gets a ticket. -/
theorem Orderly.request (h : c.Orderly) (owner : ProcessId) (request : Stamp) :
    (c.request owner request).2.Orderly := by
  unfold Coordinator.request
  split
  · exact h
  · next r hr =>
      dsimp only
      split
      -- The request is parked, with the number that is given out.
      · refine h.issue (.record owner) ?_ rfl rfl ?_
        · rintro ⟨place | ⟨phase, q⟩, n⟩ ht
          · obtain ⟨r', hr', hn⟩ := ht
            rw [show _ = _ from records_withRecord c owner place _] at hr'
            split at hr'
            · next hplace =>
                subst hplace
                obtain rfl := Option.some.inj hr'
                rw [Record.tickets_park] at hn
                rcases List.mem_append.mp hn with hn | hn
                · exact Or.inl ⟨r, hr, hn⟩
                · obtain rfl : n = c.issued := List.mem_singleton.mp hn
                  exact Or.inr rfl
            · exact Or.inl ⟨r', hr', hn⟩
          · exact Or.inl ht
        · intro q r' hr'
          rw [show _ = _ from records_withRecord c owner q _] at hr'
          split at hr'
          · obtain rfl := Option.some.inj hr'
            have hnew : c.issued ∉ r.tickets := fun hmem =>
              Nat.lt_irrefl _ (h.issued ⟨.record owner, c.issued⟩ ⟨r, hr, hmem⟩)
            rw [Record.tickets_park]
            refine List.nodup_append.mpr ⟨h.nodup owner r hr, by simp, ?_⟩
            rintro n hn m hm rfl
            obtain rfl : n = c.issued := List.mem_singleton.mp hm
            exact hnew hn
          · exact h.nodup q r' hr'
      · exact (h.withRecord (r.hear request) hr (List.Sublist.refl _)).1

/-- An arrival at a barrier keeps a coordinator orderly, whether the barrier opens or the caller
gets a ticket. -/
theorem Orderly.rendezvous (h : c.Orderly) (phase : Phase) (owner caller : ProcessId) :
    (c.rendezvous phase owner caller).2.Orderly := by
  unfold Coordinator.rendezvous
  dsimp only
  split
  -- The barrier opens: first its waits end, then all of them are answered.
  · obtain ⟨horderly, hwaits⟩ := h.shrink
      (c.withBarriers phase ((c.barriers phase).insert owner .closed))
      (fun q r hr => ⟨r, by rwa [records_withBarriers] at hr, List.Sublist.refl _⟩)
      (fun other q n hn => by
        rw [barrier_insert] at hn
        split at hn
        · exact absurd hn List.not_mem_nil
        · exact hn)
      (answers_withBarriers c phase _) (issued_withBarriers c phase _)
    refine horderly.settle .granted ?_ ?_
    · intro n hn
      rw [issued_withBarriers]
      exact h.issued ⟨.barrier phase owner, n⟩ hn
    · intro t ht hmem
      have heq := h.unique t ⟨.barrier phase owner, t.number⟩ (hwaits t ht) hmem rfl
      rw [heq, waits_barrier, barrier_insert, if_pos ⟨rfl, rfl⟩] at ht
      exact absurd ht List.not_mem_nil
  -- It stays closed: the caller waits there with the number that is given out.
  · refine h.issue (.barrier phase owner) ?_ (answers_withBarriers c phase _) rfl ?_
    · rintro ⟨place | ⟨other, q⟩, n⟩ ht
      · obtain ⟨r, hr, hn⟩ := ht
        exact Or.inl ⟨r, records_withBarriers c phase _ ▸ hr, hn⟩
      · have hn : n ∈ ((c.withBarriers phase ((c.barriers phase).insert owner
            ((c.barrier phase owner).arrive caller c.issued))).barrier other q).waiting := by
          cases other <;> exact ht
        rw [barrier_insert] at hn
        split at hn
        · next heq =>
            obtain ⟨rfl, rfl⟩ := heq
            rcases List.mem_append.mp hn with hn | hn
            · exact Or.inl hn
            · rw [List.mem_singleton.mp hn]
              exact Or.inr rfl
        · exact Or.inl hn
    · intro q r hr
      exact h.nodup q r (records_withBarriers c phase _ ▸ hr)

/-- A caller that hangs up keeps a coordinator orderly. -/
theorem Orderly.hangUp (h : c.Orderly) (t : Ticket) : (c.hangUp t).Orderly := by
  refine (h.shrink _ ?_ ?_ (answers_hangUp c t) ?_).1
  · intro q r' hr'
    rw [records_hangUp] at hr'
    split at hr'
    · obtain ⟨r, hr, rfl⟩ := Option.map_eq_some_iff.mp hr'
      exact ⟨r, hr, List.filter_sublist.map _⟩
    · exact ⟨r', hr', List.Sublist.refl _⟩
  · intro phase q n hn
    rw [barrier_hangUp] at hn
    split at hn
    · exact (List.mem_filter.mp hn).1
    · exact hn
  · unfold Coordinator.hangUp
    split
    · rfl
    · exact issued_withBarriers c _ _

end Orderly

end Coordinator

end CriticalSection
