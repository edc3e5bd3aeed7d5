import CriticalSection.Proofs.Verifier.Meetings

/-!
# What the verifier finds

The verifier looks at every record inside every window and drops a pair of intervals that has been
judged. It finds just the meetings of the log, in their order: when it comes to a record, what it
has judged is what has been met before, and a record shows a new pair just when it begins an
interval or ends one without an entry.
-/

set_option autoImplicit false

namespace CriticalSection

/-- **How an overlap describes a meeting.** The shape tells whether the record is an entry whose
exit comes before the end of the window, another entry, or an exit without an entry. -/
structure Meeting.Described {α : Type} (m : Meeting) (log : Log) (margins : Margins α)
    (o : Overlap α) : Prop where
  line : o.line = m.position + 1
  holder : o.holder = ⟨m.window.enter.process, some ⟨m.window.first + 1, m.window.enter.time⟩,
    some ⟨m.window.last + 1, m.window.exit.time⟩, margins.get m.window.enter.process⟩
  intruder : o.intruder.process = m.record.process ∧
    o.intruder.margin = margins.get m.record.process
  /-- An intruder that is met at its entry is shown with its exit, if it has one. -/
  enter : m.record.kind = .enter → o.intruder.enter = some ⟨m.position + 1, m.record.time⟩ ∧
    o.intruder.exit =
      (partner? log m.position).map fun (last, exit) => ⟨last + 1, exit.time⟩
  exit : m.record.kind = .exit → o.intruder.enter = none ∧
    o.intruder.exit = some ⟨m.position + 1, m.record.time⟩
  fullyNested : o.shape = .fullyNested ↔ m.record.kind = .enter ∧
    ∃ last, (Pairing.ofLog log).partner[m.position]? = some last ∧ last < m.window.last
  nestedOpen : o.shape = .nestedOpen ↔ m.record.kind = .enter ∧
    ¬ ∃ last, (Pairing.ofLog log).partner[m.position]? = some last ∧ last < m.window.last
  partialClose : o.shape = .partialClose ↔ m.record.kind = .exit ∧
    (Pairing.ofLog log).partner[m.position]? = none

/-! ## The search -/

namespace Verifier

variable {log : Log} {first position : Nat} {w : Window}

theorem window?_eq_some :
    window? log.toArray (.ofLog log) first = some w ↔ w.first = first ∧ w.Opens log := by
  unfold window?
  simp only [List.getElem?_toArray]
  constructor
  · intro h
    split at h
    · next enter last henter hlast =>
        split at h
        · next exit hentering hexit =>
            obtain rfl := Option.some.inj h
            exact ⟨rfl, henter, hentering, hlast, hexit⟩
        · cases h
    · cases h
  · rintro ⟨rfl, h⟩
    simp only [h.enter, h.partner, h.entering, h.exit]

/-- Only what is between the ends of a window can meet it. -/
theorem filterMap_at?_of_opens (h : w.Opens log) :
    (List.range log.length).filterMap (Meeting.at? log w.first) =
      (List.range' (w.first + 1) (w.last - (w.first + 1))).filterMap
        (Meeting.at? log w.first) := by
  obtain ⟨-, -, -, -, -, -, -, hlt⟩ := Pairing.encloses_of_enter h.partner h.enter h.entering
  have hlast := h.last_lt
  -- A range over the log is one over the window with one before it and one after it.
  have hbounds : ∀ x, (Meeting.at? log w.first x).isSome → w.first < x ∧ x < w.last := by
    intro x hx
    obtain ⟨m, hm⟩ := Option.isSome_iff_exists.mp hx
    obtain ⟨hfirst, rfl, hoccurs⟩ := Meeting.at?_eq_some.mp hm
    have hsame : m.window.last = w.last :=
      Option.some.inj (hoccurs.opens.partner.symm.trans (hfirst ▸ h.partner))
    have := hoccurs.after
    have := hoccurs.before
    omega
  have hrange : List.range log.length = List.range (w.first + 1) ++
      List.range' (w.first + 1) (w.last - (w.first + 1)) ++
      List.range' w.last (log.length - w.last) := by
    have hinner := List.range'_append_1 (s := 0) (m := w.first + 1)
      (n := w.last - (w.first + 1))
    have houter := List.range'_append_1 (s := 0) (m := w.last) (n := log.length - w.last)
    rw [Nat.zero_add, Nat.add_sub_of_le hlt] at hinner
    rw [Nat.zero_add, Nat.add_sub_of_le (Nat.le_of_lt hlast)] at houter
    rw [List.range_eq_range', List.range_eq_range', hinner, houter]
  have hnone : ∀ l : List Nat, (∀ x ∈ l, ¬ (w.first < x ∧ x < w.last)) →
      l.filterMap (Meeting.at? log w.first) = [] := by
    intro l hl
    refine List.filterMap_eq_nil_iff.mpr fun x hx => ?_
    exact Option.not_isSome_iff_eq_none.mp fun hsome => hl x hx (hbounds x hsome)
  rw [hrange, List.filterMap_append, List.filterMap_append, hnone (List.range _),
    hnone (List.range' w.last _)]
  · simp
  · intro x hx
    rw [List.mem_range'_1] at hx
    omega
  · intro x hx
    rw [List.mem_range] at hx
    omega

variable {α : Type} [Quantity α] {margins : Margins α} {progress : Progress α}
  {ms : List Meeting}

/-- **What a verifier has found** after it has met some meetings. -/
structure Tracks (margins : Margins α) (progress : Progress α) (ms : List Meeting) : Prop where
  overlaps : progress.overlaps = (ms.map (Meeting.overlap margins)).reverse
  judged : ∀ pair, progress.judged.contains pair = true ↔ pair ∈ ms.map Meeting.intervals

/-- The interval of a record that begins one is named by the record. -/
theorem interval_of_begins {p : Pairing} {record : Event}
    (h : record.kind = .enter ∨ p.partner[position]? = none) :
    interval p record position = position := by
  unfold interval
  rcases h with hkind | hnone
  · rw [hkind]
  · rw [hnone]
    split <;> rfl

/-- The interval of an exit with an entry is named by the entry. -/
theorem interval_of_exit {p : Pairing} {record : Event} {entry : Nat}
    (hexit : record.kind = .exit) (h : p.partner[position]? = some entry) :
    interval p record position = entry := by
  unfold interval
  rw [hexit, h]
  rfl

theorem exit_of_not_begins {p : Pairing} {record : Event}
    (h : ¬ (record.kind = .enter ∨ p.partner[position]? = none)) :
    record.kind = .exit ∧ ∃ entry, p.partner[position]? = some entry := by
  refine ⟨?_, Option.ne_none_iff_exists'.mp fun hnone => h (Or.inr hnone)⟩
  cases hkind : record.kind with
  | enter => exact absurd (Or.inl hkind) h
  | exit => rfl

/-- **An exit with an entry shows nothing new**: its interval has been met with the window
before. -/
theorem exists_met_of_exit (hopens : w.Opens log) {record : Event}
    (hafter : w.first < position) (hbefore : position < w.last)
    (hrecord : log[position]? = some record) (hforeign : record.process ≠ w.enter.process)
    (hexit : record.kind = .exit) {entry : Nat}
    (hpartner : (Pairing.ofLog log).partner[position]? = some entry) :
    ∃ m : Meeting, m.Occurs log ∧ (m.window.first < w.first ∨
      m.window.first = w.first ∧ m.position < position) ∧
      m.intervals = ordered w.first entry := by
  obtain ⟨a, b, ha, hb, hkinda, -, hprocess, hlt⟩ :=
    Pairing.encloses_of_exit hpartner hrecord hexit
  obtain rfl : record = b := Option.some.inj (hrecord.symm.trans hb)
  rcases Nat.lt_trichotomy entry w.first with hentry | rfl | hentry
  · -- The window has been met inside the interval that ends here.
    have hoccurs : Meeting.Occurs
        ⟨⟨entry, position, a, record⟩, w.first, w.enter, Meeting.partner? log w.first⟩ log :=
      ⟨⟨ha, hkinda, Pairing.partner_symm hpartner, hrecord⟩, hentry, hafter, hopens.enter,
        fun heq => hforeign (hprocess ▸ heq.symm), Or.inl hopens.entering, rfl⟩
    refine ⟨_, hoccurs, Or.inl hentry, ?_⟩
    rw [hoccurs.intervals_eq, ordered_comm, ordered_of_lt hentry]
  · obtain rfl := Option.some.inj (ha.symm.trans hopens.enter)
    exact absurd hprocess.symm hforeign
  · -- The entry has been met inside this window.
    have hoccurs : Meeting.Occurs ⟨w, entry, a, Meeting.partner? log entry⟩ log :=
      ⟨hopens, hentry, Nat.lt_trans hlt hbefore, ha, hprocess ▸ hforeign, Or.inl hkinda, rfl⟩
    refine ⟨_, hoccurs, Or.inr ⟨rfl, hlt⟩, ?_⟩
    rw [hoccurs.intervals_eq, ordered_of_lt hentry]

/-- **Whichever record is inside a window**, its interval has been met with that of the window. -/
theorem interval_mem (hopens : w.Opens log) {record : Event}
    (hafter : w.first < position) (hbefore : position < w.last)
    (hrecord : log[position]? = some record) (hforeign : record.process ≠ w.enter.process) :
    ordered w.first (interval (.ofLog log) record position) ∈
      log.meetings.map Meeting.intervals := by
  by_cases hbegins : record.kind = .enter ∨ (Pairing.ofLog log).partner[position]? = none
  · rw [interval_of_begins hbegins]
    have hoccurs : Meeting.Occurs ⟨w, position, record, Meeting.partner? log position⟩ log :=
      ⟨hopens, hafter, hbefore, hrecord, hforeign, hbegins, rfl⟩
    exact List.mem_map.mpr ⟨_, Log.mem_meetings.mpr hoccurs, rfl⟩
  · obtain ⟨hexit, entry, hpartner⟩ := exit_of_not_begins hbegins
    rw [interval_of_exit hexit hpartner]
    obtain ⟨m, hoccurs, -, heq⟩ :=
      exists_met_of_exit hopens hafter hbefore hrecord hforeign hexit hpartner
    exact List.mem_map.mpr ⟨m, Log.mem_meetings.mpr hoccurs, heq⟩

/-- **A record is judged just when it is a meeting**: what has been met before is left out, and what
is left out has been met before. -/
theorem Tracks.look (h : Tracks margins progress ms) (hopens : w.Opens log)
    (hafter : w.first < position) (hbefore : position < w.last)
    (hms : ∀ m, m ∈ ms ↔ m.Occurs log ∧ (m.window.first < w.first ∨
      m.window.first = w.first ∧ m.position < position)) :
    Tracks margins (look margins log.toArray (.ofLog log) w progress position)
      (ms ++ (Meeting.at? log w.first position).toList) := by
  unfold Verifier.look
  rw [List.getElem?_toArray, Meeting.at?_of_opens hopens hafter hbefore]
  cases hrecord : log[position]? with
  | none => simpa using h
  | some record =>
      simp only [Option.bind_some]
      split
      · next hprocess =>
          rw [if_neg fun hmeets => hmeets.1 hprocess, Option.toList_none, List.append_nil]
          exact h
      · next hforeign =>
          by_cases hbegins : record.kind = .enter ∨
              (Pairing.ofLog log).partner[position]? = none
          · -- A record that begins an interval is met here for the first time.
            have hnew : ¬ progress.judged.contains (ordered w.first position) = true := by
              intro hjudged
              obtain ⟨m, hm, heq⟩ := List.mem_map.mp ((h.judged _).mp hjudged)
              obtain ⟨hm, horder⟩ := (hms m).mp hm
              rw [hm.intervals_eq, ordered_of_lt hafter] at heq
              obtain ⟨hfirst, hposition⟩ := Prod.mk.inj heq
              omega
            rw [interval_of_begins hbegins, if_neg hnew, if_pos ⟨hforeign, hbegins⟩]
            refine ⟨?_, fun pair => ?_⟩
            · simp [h.overlaps, Meeting.overlap, Meeting.partner?]
            · rw [Std.HashSet.contains_insert, Bool.or_eq_true, h.judged, beq_iff_eq]
              simp [Meeting.intervals, eq_comm, or_comm]
          · obtain ⟨hexit, entry, hpartner⟩ := exit_of_not_begins hbegins
            obtain ⟨met, hmet, hearlier, hsame⟩ :=
              exists_met_of_exit hopens hafter hbefore hrecord hforeign hexit hpartner
            have hjudged : progress.judged.contains (ordered w.first entry) = true :=
              (h.judged _).mpr (List.mem_map.mpr ⟨met, (hms met).mpr ⟨hmet, hearlier⟩, hsame⟩)
            rw [interval_of_exit hexit hpartner, if_pos hjudged,
              if_neg fun hmeets => hbegins hmeets.2, Option.toList_none, List.append_nil]
            exact h

/-- The meetings inside a window, as far as it has been searched. -/
theorem Tracks.foldl_look (h : Tracks margins progress ms) (hopens : w.Opens log)
    (hms : ∀ m, m ∈ ms ↔ m.Occurs log ∧ m.window.first < w.first) (n : Nat)
    (hn : w.first + 1 + n ≤ w.last) :
    Tracks margins
      ((List.range' (w.first + 1) n).foldl (Verifier.look margins log.toArray (.ofLog log) w)
        progress)
      (ms ++ (List.range' (w.first + 1) n).filterMap (Meeting.at? log w.first)) := by
  induction n with
  | zero => simpa using h
  | succ n ih =>
      -- What has been met so far is what takes place before the next position.
      have hsearched : ∀ m, m ∈ ms ++ (List.range' (w.first + 1) n).filterMap
            (Meeting.at? log w.first) ↔
          m.Occurs log ∧ (m.window.first < w.first ∨
            m.window.first = w.first ∧ m.position < w.first + 1 + n) := by
        intro m
        rw [List.mem_append, hms]
        simp only [List.mem_filterMap, List.mem_range'_1, Meeting.at?_eq_some]
        constructor
        · rintro (⟨hoccurs, hlt⟩ | ⟨x, hx, hfirst, rfl, hoccurs⟩)
          · exact ⟨hoccurs, Or.inl hlt⟩
          · exact ⟨hoccurs, Or.inr ⟨hfirst, by omega⟩⟩
        · rintro ⟨hoccurs, hlt | ⟨hfirst, hlt⟩⟩
          · exact Or.inl ⟨hoccurs, hlt⟩
          · have := hoccurs.after
            exact Or.inr ⟨m.position, by omega, hfirst, rfl, hoccurs⟩
      have hstep := (ih (by omega)).look hopens (by omega) (by omega) hsearched
      have hone : [w.first + 1 + n].filterMap (Meeting.at? log w.first) =
          (Meeting.at? log w.first (w.first + 1 + n)).toList := by
        cases hat : Meeting.at? log w.first (w.first + 1 + n) <;> simp [hat]
      rw [List.range'_1_concat, List.foldl_append, List.filterMap_append, ← List.append_assoc,
        hone]
      exact hstep

/-- **The search of a log** meets its meetings in their order, window by window. -/
theorem tracks_scan (margins : Margins α) (log : Log) (n : Nat) :
    Tracks margins
      ((List.range n).foldl (scan margins log.toArray (.ofLog log)) ⟨∅, []⟩)
      ((List.range n).flatMap fun first =>
        (List.range log.length).filterMap (Meeting.at? log first)) := by
  induction n with
  | zero => exact ⟨rfl, fun pair => by simp⟩
  | succ n ih =>
      rw [List.range_succ, List.foldl_append, List.flatMap_append]
      simp only [List.foldl_cons, List.foldl_nil, List.flatMap_cons, List.flatMap_nil,
        List.append_nil]
      unfold scan
      cases hwindow : window? log.toArray (.ofLog log) n with
      | none =>
          -- No window opens here, so nothing is met in it.
          have hnone : (List.range log.length).filterMap (Meeting.at? log n) = [] := by
            refine List.filterMap_eq_nil_iff.mpr fun x _ => ?_
            rw [Option.eq_none_iff_forall_ne_some]
            intro m hm
            obtain ⟨hfirst, -, hoccurs⟩ := Meeting.at?_eq_some.mp hm
            rw [window?_eq_some.mpr ⟨hfirst, hoccurs.opens⟩] at hwindow
            cases hwindow
          rw [hnone, List.append_nil]
          exact ih
      | some w =>
          obtain ⟨rfl, hopens⟩ := window?_eq_some.mp hwindow
          obtain ⟨-, -, -, -, -, -, -, hlt⟩ :=
            Pairing.encloses_of_enter hopens.partner hopens.enter hopens.entering
          rw [filterMap_at?_of_opens hopens]
          exact ih.foldl_look hopens (fun m => Log.mem_flatMap_meetings) _ (by omega)

/-- **The verifier reports the meetings of a log.** -/
theorem overlaps_eq (margins : Margins α) (log : Log) :
    (verify margins log).overlaps = log.meetings.map (Meeting.overlap margins) := by
  have h := (tracks_scan margins log log.length).overlaps
  unfold verify
  dsimp only
  rw [List.size_toArray, h, List.reverse_reverse]
  rfl

/-! ### Their shapes -/

theorem partner?_eq_none_iff :
    Meeting.partner? log position = none ↔
      (Pairing.ofLog log).partner[position]? = none := by
  unfold Meeting.partner?
  cases hpartner : (Pairing.ofLog log).partner[position]? with
  | none => simp
  | some i =>
      have hi : i < log.length := by
        rcases ((Pairing.sound_ofLog log).partner position i hpartner).2 with h | h
        · exact h.lt_length
        · have := h.lt_length
          obtain ⟨-, -, -, -, -, -, -, hlt⟩ := h
          omega
      simp [List.getElem?_eq_getElem hi]

theorem exists_partner_of_eq_some {i : Nat} {event : Event}
    (h : Meeting.partner? log position = some (i, event)) :
    (Pairing.ofLog log).partner[position]? = some i := by
  unfold Meeting.partner? at h
  obtain ⟨j, hpartner, hj⟩ := Option.bind_eq_some_iff.mp h
  obtain ⟨event', -, heq⟩ := Option.map_eq_some_iff.mp hj
  obtain ⟨rfl, -⟩ := Prod.mk.inj heq
  exact hpartner

/-- **The overlap that is reported describes its meeting.** -/
theorem described_of_occurs {m : Meeting} (h : m.Occurs log) (margins : Margins α) :
    m.Described log margins (m.overlap margins) := by
  have hother := h.other
  have hbegins := h.begins
  unfold Meeting.overlap Window.judge
  rw [hother]
  cases hkind : m.record.kind with
  | exit =>
      rw [hkind] at hbegins
      have hnone := partner?_eq_none_iff.mpr (hbegins.resolve_left (by decide))
      rw [hnone]
      have hpartner := partner?_eq_none_iff.mp hnone
      exact ⟨rfl, rfl, ⟨rfl, rfl⟩, by simp [hkind], fun _ => ⟨rfl, rfl⟩, by simp [hkind],
        by simp [hkind], by simp [hkind, hpartner]⟩
  | enter =>
      cases hpartner : Meeting.partner? log m.position with
      | none =>
          have hnone := partner?_eq_none_iff.mp hpartner
          exact ⟨rfl, rfl, ⟨rfl, rfl⟩, fun _ => ⟨rfl, by rw [hpartner]; rfl⟩, by simp [hkind],
            by simp [hnone], by simp [hkind, hnone], by simp [hkind]⟩
      | some other =>
          obtain ⟨last, exit⟩ := other
          have hsome := exists_partner_of_eq_some hpartner
          dsimp only
          by_cases hlast : last < m.window.last
          · simp only [if_pos hlast]
            exact ⟨rfl, rfl, ⟨rfl, rfl⟩, fun _ => ⟨rfl, by rw [hpartner]⟩, by simp [hkind],
              by simp [hkind, hsome, hlast], by simp [hsome, hlast], by simp [hkind]⟩
          · simp only [if_neg hlast]
            exact ⟨rfl, rfl, ⟨rfl, rfl⟩, fun _ => ⟨rfl, by rw [hpartner]⟩, by simp [hkind],
              by simp [hsome, hlast], by simp [hkind, hsome, hlast], by simp [hkind]⟩

/-- **The right pairs are judged.** The overlaps that are reported are those of the meetings of the
log in their order, each described by its overlap, and every two positions that meet are among them.
No two meetings are of the same two intervals, and whichever record of another process is inside a
window, its interval has been met with that of the window. -/
theorem overlaps_verify (margins : Margins α) (log : Log) :
    (verify margins log).overlaps = log.meetings.map (Meeting.overlap margins) ∧
    log.meetings.Pairwise Meeting.Before ∧
    (∀ m ∈ log.meetings, m.Occurs log ∧ m.Described log margins (m.overlap margins)) ∧
    (∀ first last position, log.Meets first last position → ∃ m ∈ log.meetings,
      m.window.first = first ∧ m.window.last = last ∧ m.position = position) ∧
    (log.meetings.map Meeting.intervals).Nodup ∧
    ∀ (first last position : Nat) (a b : Event), log[first]? = some a → a.kind = .enter →
      (Pairing.ofLog log).partner[first]? = some last → first < position → position < last →
      log[position]? = some b → b.process ≠ a.process →
      ordered first (interval (.ofLog log) b position) ∈ log.meetings.map Meeting.intervals := by
  refine ⟨overlaps_eq margins log, log.pairwise_meetings, fun m hm => ?_,
    fun _ _ _ h => h.exists_mem, log.nodup_intervals, ?_⟩
  · have hoccurs := Log.mem_meetings.mp hm
    exact ⟨hoccurs, described_of_occurs hoccurs margins⟩
  · intro first last position a b ha hkind hpartner hafter hbefore hb hforeign
    obtain ⟨exit, hopens⟩ := Window.exists_opens ha hkind hpartner
    exact interval_mem hopens hafter hbefore hb hforeign

end Verifier

end CriticalSection
