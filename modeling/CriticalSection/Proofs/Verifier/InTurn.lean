import CriticalSection.Proofs.Log.Occupancy
import CriticalSection.Proofs.Log.Place
import CriticalSection.Proofs.Verifier.Matching
import CriticalSection.Proofs.Verifier.Verdict

/-!
# Logs of a section that is occupied in turn

When the section has been occupied in turn, the log of it in the order of time shows overlaps only
where times are equal. Such an overlap is excused in every shape but one: an occupancy of no length
at the very beginning or end of another one is reported as a violation when that is longer than
the allowance of the margins.
-/

set_option autoImplicit false

namespace CriticalSection

namespace Log.Records

variable {log : Log} {os : List Occupancy} {i : Nat} {a : Event}

/-- Behind all records of some occupancies their process is outside. -/
theorem not_isInside {q : ProcessId} (h : log.of q = Occupancy.records os) : ¬ log.IsInside q := by
  rintro ⟨event, hlast, hkind⟩
  obtain ⟨front, hfront⟩ := List.getLast?_eq_some_iff.mp hlast
  obtain ⟨before, o, after, -, -, -, hrest⟩ :=
    Occupancy.records_split_enter (h.symm.trans hfront) hkind
  cases hrest

/-- **The partner of an entry** is the exit of the same occupancy. -/
theorem partner_of_enter (h : log.Records os) (ha : log[i]? = some a) (hkind : a.kind = .enter) :
    ∃ o ∈ os, a = o.entry ∧ ∃ j, Meeting.partner? log i = some (j, o.departure) := by
  obtain ⟨front, rest, rfl, rfl⟩ := exists_append ha
  have hrecords := h a.process
  rw [of_append, of_cons_self] at hrecords
  obtain ⟨before, o, after, hos, hfront, rfl, hrest⟩ :=
    Occupancy.records_split_enter hrecords.symm hkind
  have ho : o ∈ os := by
    have : o ∈ os.filter fun o' => o'.process = o.process := by
      rw [show (os.filter fun o' => o'.process = o.process) = _ from hos]
      simp
    exact (List.mem_filter.mp this).1
  -- Up to its exit the process has no further record.
  obtain ⟨between, tail, rfl, hbetween, -, -⟩ := List.filter_eq_cons_iff.mp hrest
  have habsent : of between o.process = [] := List.filter_eq_nil_iff.mpr hbetween
  have hentry : (Pairing.ofLog (front ++ [o.entry])).inside[o.process]? = some front.length := by
    have hnone : (Pairing.ofLog front).inside[o.process]? = none := by
      rw [← Option.not_isSome_iff_eq_none, (Pairing.follows_ofLog front).inside]
      exact not_isInside hfront
    rw [Pairing.ofLog_concat, Pairing.step]
    simp [Occupancy.entry, hnone]
  have hlog : front ++ o.entry :: (between ++ o.departure :: tail) =
      front ++ [o.entry] ++ between ++ o.departure :: tail := by simp
  have hexit : (Pairing.ofLog (front ++ [o.entry] ++ between ++ o.departure :: tail)).partner[
      (front ++ [o.entry] ++ between).length]? = some front.length := by
    rw [Pairing.partner_of_exit _ tail rfl, ← hentry]
    exact Pairing.inside_append_of_absent _ habsent
  refine ⟨o, ho, rfl, (front ++ [o.entry] ++ between).length, ?_⟩
  rw [hlog, Meeting.partner?, Pairing.partner_symm hexit]
  simp

/-- Every exit has a partner. -/
theorem partner_of_exit (h : log.Records os) (ha : log[i]? = some a) (hkind : a.kind = .exit) :
    (Pairing.ofLog log).partner[i]? ≠ none := by
  obtain ⟨front, rest, rfl, rfl⟩ := exists_append ha
  have hrecords := h a.process
  rw [of_append, of_cons_self] at hrecords
  obtain ⟨before, o, after, -, hfront, -, -⟩ := Occupancy.records_split_exit hrecords.symm hkind
  rw [← Option.isSome_iff_ne_none, Pairing.isSome_partner_of_exit front rest hkind]
  exact ⟨o.entry, by simp [hfront], rfl⟩

/-- **Who meets in a log of occupancies**: the window is one of them, and the record inside it is
the entry of another one. -/
theorem exists_of_occurs (h : log.Records os) {m : Meeting} (hm : m.Occurs log) :
    ∃ o ∈ os, ∃ o' ∈ os, o ≠ o' ∧ m.window.enter = o.entry ∧ m.window.exit = o.departure ∧
      m.record = o'.entry ∧
        ∃ last, Meeting.partner? log m.position = some (last, o'.departure) := by
  obtain ⟨o, ho, henter, j, hj⟩ := h.partner_of_enter hm.opens.enter hm.opens.entering
  have hkind : m.record.kind = .enter := by
    rcases hm.begins with henter | hnone
    · exact henter
    · cases hkind : m.record.kind with
      | enter => rfl
      | exit => exact absurd hnone (h.partner_of_exit hm.record hkind)
  obtain ⟨o', ho', hrecord, last, hlast⟩ := h.partner_of_enter hm.record hkind
  refine ⟨o, ho, o', ho', ?_, henter, ?_, hrecord, last, hlast⟩
  · rintro rfl
    exact hm.foreign (by rw [henter, hrecord])
  · have hpartner := Verifier.exists_partner_of_eq_some hj
    obtain rfl := Option.some.inj (hm.opens.partner.symm.trans hpartner)
    exact Option.some.inj (hm.opens.exit.symm.trans (Meeting.getElem?_of_partner? hj))

end Log.Records

/-! ## Overlaps of occupancies -/

/-- **An overlap shows two occupancies**, that of the holder and that of the intruder, when its
marks have their times. -/
structure Overlap.Shows (v : Overlap Rat) (o o' : Occupancy) : Prop where
  enter : v.holder.enter.map Mark.time = some o.enter
  exit : v.holder.exit.map Mark.time = some o.exit
  here : v.intruder.enter.map Mark.time = some o'.enter
  there : v.intruder.exit.map Mark.time = some o'.exit

namespace Verifier

variable {log : Log} {os : List Occupancy} {margins : Margins Rat} {v : Overlap Rat}

/-- **Every overlap that is reported shows two occupancies.** -/
theorem shows_of_mem (hrecords : log.Records os) (hv : v ∈ (verify margins log).overlaps) :
    ∃ o ∈ os, ∃ o' ∈ os, o ≠ o' ∧ v.Shows o o' := by
  rw [overlaps_eq] at hv
  obtain ⟨m, hm, rfl⟩ := List.mem_map.mp hv
  have hoccurs := Log.mem_meetings.mp hm
  obtain ⟨o, ho, o', ho', hne, henter, hexit, hrecord, last, hlast⟩ :=
    hrecords.exists_of_occurs hoccurs
  have hdescribed := described_of_occurs hoccurs margins
  obtain ⟨hhere, hthere⟩ := hdescribed.enter (by rw [hrecord]; rfl)
  refine ⟨o, ho, o', ho', hne, ?_, ?_, ?_, ?_⟩
  · rw [hdescribed.holder, henter]
    rfl
  · rw [hdescribed.holder, hexit]
    rfl
  · rw [hhere, hrecord]
    rfl
  · rw [hthere, hlast]
    rfl

/-- No allowance is negative when no margin is. -/
theorem allowance_nonneg (hmargins : ∀ p, 0 ≤ margins.get p)
    (hv : v ∈ (verify margins log).overlaps) : 0 ≤ v.holder.margin + v.intruder.margin := by
  rw [overlaps_eq] at hv
  obtain ⟨m, hm, rfl⟩ := List.mem_map.mp hv
  have hdescribed := described_of_occurs (Log.mem_meetings.mp hm) margins
  rw [hdescribed.holder, hdescribed.intruder.2]
  exact add_nonneg (hmargins _) (hmargins _)

/-- **When the section is occupied in turn**, the holder has left when the intruder enters, or the
intruder has left when the holder enters. -/
theorem ended_of_mem (hrecords : log.Records os) (hturn : Occupancy.InTurn os)
    (hv : v ∈ (verify margins log).overlaps) :
    ∃ enter here there exit, v.holder.enter = some enter ∧ v.intruder.enter = some here ∧
      v.intruder.exit = some there ∧ v.holder.exit = some exit ∧
      (exit.moment ≤ here.moment ∨ there.moment ≤ enter.moment) := by
  obtain ⟨o, ho, o', ho', hne, hshows⟩ := shows_of_mem hrecords hv
  obtain ⟨enter, henter, hentered⟩ := Option.map_eq_some_iff.mp hshows.enter
  obtain ⟨exit, hexit, hleft⟩ := Option.map_eq_some_iff.mp hshows.exit
  obtain ⟨here, hhere, hbegan⟩ := Option.map_eq_some_iff.mp hshows.here
  obtain ⟨there, hthere, hended⟩ := Option.map_eq_some_iff.mp hshows.there
  refine ⟨enter, here, there, exit, henter, hhere, hthere, hexit, ?_⟩
  rcases hturn.ended ho ho' hne with h | h
  · exact Or.inl (Mark.moment_le (by rw [hleft, hbegan]; exact h))
  · exact Or.inr (Mark.moment_le (by rw [hended, hentered]; exact h))

section InTurn

variable (hlog : log.InOrder) (hrecords : log.Records os) (hturn : Occupancy.InTurn os)
  (hmargins : ∀ p, 0 ≤ margins.get p) (hv : v ∈ (verify margins log).overlaps)

include hlog hrecords hturn hmargins hv

/-- An overlap that is not fully nested is excused. -/
theorem dissolved_of_inTurn (hshape : v.shape ≠ .fullyNested) : v.genuine = false := by
  obtain ⟨enter, here, there, exit, henter, hhere, hthere, hexit, hended⟩ :=
    ended_of_mem hrecords hturn hv
  have hallowance := allowance_nonneg hmargins hv
  cases judged_of_mem hlog hv with
  | partialClose _ _ hnone =>
      rw [hhere] at hnone
      cases hnone
  | nestedOpen _ henter₁ hexit₁ hhere₁ hafter hlater hgenuine =>
      obtain rfl := Option.some.inj (henter.symm.trans henter₁)
      obtain rfl := Option.some.inj (hexit.symm.trans hexit₁)
      obtain rfl := Option.some.inj (hhere.symm.trans hhere₁)
      have hlate := hlater there hthere
      -- The intruder enters when the holder leaves, so no margin can make it earlier.
      have htouch : exit.moment ≤ here.moment := by
        rcases hended with h | h
        · exact h
        · exact (hlate.trans h).trans hafter
      rw [← Bool.not_eq_true, hgenuine]
      intro hsure
      linarith
  | fullyNested hnested => exact absurd hnested.shape hshape

/-- **In a fully nested overlap** the intruder does not stay, and the overlap counts as a violation
when the holder stays longer than the allowance. -/
theorem genuine_iff_of_inTurn {enter here there exit : Mark}
    (hnested : v.Nested enter here there exit) :
    here.moment = there.moment ∧ (v.genuine = true ↔ v.allowance < enter.to exit) := by
  obtain ⟨_, _, _, _, henter, hhere, hthere, hexit, hended⟩ := ended_of_mem hrecords hturn hv
  obtain rfl := Option.some.inj (hnested.enter.symm.trans henter)
  obtain rfl := Option.some.inj (hnested.here.symm.trans hhere)
  obtain rfl := Option.some.inj (hnested.there.symm.trans hthere)
  obtain rfl := Option.some.inj (hnested.exit.symm.trans hexit)
  have hallowance := allowance_nonneg hmargins hv
  cases judged_of_mem hlog hv with
  | partialClose hshape => cases hshape.symm.trans hnested.shape
  | nestedOpen hshape => cases hshape.symm.trans hnested.shape
  | fullyNested hnested₁ hafter hstay hbefore hgenuine =>
      obtain rfl := Option.some.inj (henter.symm.trans hnested₁.enter)
      obtain rfl := Option.some.inj (hhere.symm.trans hnested₁.here)
      obtain rfl := Option.some.inj (hthere.symm.trans hnested₁.there)
      obtain rfl := Option.some.inj (hexit.symm.trans hnested₁.exit)
      rw [hgenuine, Overlap.allowance, Mark.to]
      -- The intruder is there at the very end of the stay of the holder, or at its beginning.
      rcases hended with hend | hend
      · have hhere : here.moment = exit.moment := by linarith
        have hthere : there.moment = exit.moment := by linarith
        rw [hhere, hthere]
        refine ⟨rfl, fun hsure => ?_, fun hlong => Or.inl (by linarith)⟩
        rcases hsure with h | h <;> linarith
      · have hhere : here.moment = enter.moment := by linarith
        have hthere : there.moment = enter.moment := by linarith
        rw [hhere, hthere]
        refine ⟨rfl, fun hsure => ?_, fun hlong => Or.inr (by linarith)⟩
        rcases hsure with h | h <;> linarith

omit hv in
/-- **When every occupancy takes some time**, nothing counts as a violation. -/
theorem clean_of_inTurn (hstay : ∀ o ∈ os, o.enter < o.exit) :
    (verify margins log).clean = true := by
  refine Report.clean_iff.mpr fun v hv => ?_
  refine dissolved_of_inTurn hlog hrecords hturn hmargins hv fun hshape => ?_
  obtain ⟨o, ho, o', ho', -, hshows⟩ := shows_of_mem hrecords hv
  obtain ⟨enter, here, there, exit, hnested, -⟩ := exists_nested hlog hv hshape
  obtain ⟨heq, -⟩ := genuine_iff_of_inTurn hlog hrecords hturn hmargins hv hnested
  have hhere : here.time = o'.enter := by simpa [hnested.here] using hshows.here
  have hthere : there.time = o'.exit := by simpa [hnested.there] using hshows.there
  have hlt : here.moment < there.moment := by
    rw [Mark.moment, Mark.moment, hhere, hthere]
    exact Rat.intCast_lt_intCast.mpr (Int64.lt_iff_toInt_lt.mp (hstay o' ho'))
  exact absurd heq (ne_of_lt hlt)

end InTurn

end Verifier

end CriticalSection
