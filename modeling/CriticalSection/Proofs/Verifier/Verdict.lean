import Mathlib.Algebra.Order.Field.Rat
import Mathlib.Tactic.Linarith
import CriticalSection.Proofs.Log.Order
import CriticalSection.Proofs.Verifier.Search

/-!
# Verdicts

Every time in a log may be off by the margin of its process. Two sides **clash** when they overlap
wherever the true times are: each begins before the other one ends, also if it begins as late and
the other one ends as early as the margins allow. Of these two comparisons the verifier makes one
when a process enters or leaves inside a window without doing both; on a log in the order of time
the other one follows, so the verdict is exact.

When a process enters and leaves inside a window, the verifier compares entry with entry and exit
with exit instead. Whether the verdict agrees with a clash then depends on the three parts of the
window: the lead of the holder, the stay of the intruder and the rest after it. A clash is missed
when lead and rest are both within the allowance of the margins, although one of them with the stay
is not; and a false alarm is raised when one of them alone is beyond the allowance, and the other
one is within it even with the stay.
-/

set_option autoImplicit false

namespace CriticalSection

/-! ## Clashes -/

/-- The time of a mark as an exact number of milliseconds. -/
def Mark.moment (mark : Mark) : Rat := mark.time.toInt

/-- The time from one mark to another. -/
def Mark.to (mark mark' : Mark) : Rat := mark'.moment - mark.moment

theorem Mark.moment_le {mark mark' : Mark} (h : mark.time ≤ mark'.time) :
    mark.moment ≤ mark'.moment :=
  Rat.intCast_le_intCast.mpr (Int64.le_iff_toInt_le.mp h)

namespace Side

variable {a b : Side Rat}

/-- **A side surely begins before another one ends.** An entry that is missing is before all times,
and a missing exit is after them. -/
def BeginsBefore (a b : Side Rat) : Prop :=
  ∀ enter ∈ a.enter, ∀ exit ∈ b.exit, enter.moment + a.margin < exit.moment - b.margin

/-- **Two sides clash** when they overlap whatever the margins allow. -/
def Clashes (a b : Side Rat) : Prop := a.BeginsBefore b ∧ b.BeginsBefore a

instance (a b : Side Rat) : Decidable (a.BeginsBefore b) :=
  inferInstanceAs (Decidable (∀ enter ∈ a.enter, ∀ exit ∈ b.exit,
    enter.moment + a.margin < exit.moment - b.margin))

instance (a b : Side Rat) : Decidable (a.Clashes b) :=
  inferInstanceAs (Decidable (a.BeginsBefore b ∧ b.BeginsBefore a))

end Side

/-! ## What a verdict compares -/

/-- How much closer to each other two times may be than the log shows them. -/
def Overlap.allowance (o : Overlap Rat) : Rat := o.holder.margin + o.intruder.margin

/-- **A fully nested overlap with its marks**: the holder enters, the intruder is here and there,
and the holder leaves. -/
structure Overlap.Nested (o : Overlap Rat) (enter here there exit : Mark) : Prop where
  shape : o.shape = .fullyNested
  enter : o.holder.enter = some enter
  here : o.intruder.enter = some here
  there : o.intruder.exit = some there
  exit : o.holder.exit = some exit

/-- **What the verdict on an overlap compares**, by the shape of the overlap, and how its marks lie
in a log in the order of time. -/
inductive Overlap.Judged (o : Overlap Rat) : Prop
  | partialClose {enter here : Mark} (hshape : o.shape = .partialClose)
      (henter : o.holder.enter = some enter) (hnone : o.intruder.enter = none)
      (hhere : o.intruder.exit = some here)
      (hgenuine : o.genuine = true ↔
        enter.moment + o.holder.margin < here.moment - o.intruder.margin)
  | nestedOpen {enter exit here : Mark} (hshape : o.shape = .nestedOpen)
      (henter : o.holder.enter = some enter) (hexit : o.holder.exit = some exit)
      (hhere : o.intruder.enter = some here) (hafter : enter.moment ≤ here.moment)
      (hlater : ∀ there ∈ o.intruder.exit, exit.moment ≤ there.moment)
      (hgenuine : o.genuine = true ↔
        here.moment + o.intruder.margin < exit.moment - o.holder.margin)
  | fullyNested {enter here there exit : Mark} (hnested : o.Nested enter here there exit)
      (hafter : enter.moment ≤ here.moment) (hstay : here.moment ≤ there.moment)
      (hbefore : there.moment ≤ exit.moment)
      (hgenuine : o.genuine = true ↔
        enter.moment + o.holder.margin < here.moment - o.intruder.margin ∨
          there.moment + o.intruder.margin < exit.moment - o.holder.margin)

/-- Two times that are compared as quantities are compared as moments. -/
theorem Window.less_quantity {line line' : Nat} {time time' : Int64} {margin margin' : Rat} :
    Quantity.less (quantity time + margin) (quantity time' - margin') = true ↔
      (Mark.mk line time).moment + margin < (Mark.mk line' time').moment - margin' :=
  decide_eq_true_iff

theorem Meeting.getElem?_of_partner? {log : Log} {position last : Nat} {exit : Event}
    (h : partner? log position = some (last, exit)) : log[last]? = some exit := by
  unfold partner? at h
  obtain ⟨i, -, hi⟩ := Option.bind_eq_some_iff.mp h
  obtain ⟨event, hevent, heq⟩ := Option.map_eq_some_iff.mp hi
  obtain ⟨rfl, rfl⟩ := Prod.mk.inj heq
  exact hevent

/-- A report is clean when no overlap counts as a violation. -/
theorem Report.clean_iff {α : Type} {r : Report α} :
    r.clean = true ↔ ∀ o ∈ r.overlaps, o.genuine = false := by
  simp [clean, violations, List.filter_eq_nil_iff]

namespace Verifier

variable {log : Log} {margins : Margins Rat} {o : Overlap Rat}

/-- **Every overlap that is reported has been judged** in this way. -/
theorem judged_of_mem (hlog : log.InOrder) (ho : o ∈ (verify margins log).overlaps) :
    o.Judged := by
  rw [overlaps_eq] at ho
  obtain ⟨m, hm, rfl⟩ := List.mem_map.mp ho
  have h := Log.mem_meetings.mp hm
  have hother := h.other
  have hafter := hlog.time_le h.opens.enter h.record (Nat.le_of_lt h.after)
  unfold Meeting.overlap Window.judge
  rw [hother]
  cases hkind : m.record.kind with
  | exit =>
      have hnone := partner?_eq_none_iff.mpr (h.begins.resolve_left (by simp [hkind]))
      rw [hnone]
      exact .partialClose rfl rfl rfl rfl Window.less_quantity
  | enter =>
      cases hpartner : Meeting.partner? log m.position with
      | none =>
          exact .nestedOpen rfl rfl rfl rfl (Mark.moment_le hafter) (by simp)
            Window.less_quantity
      | some other =>
          obtain ⟨last, exit⟩ := other
          have hexit := Meeting.getElem?_of_partner? hpartner
          obtain ⟨-, -, -, -, -, -, -, hlt⟩ :=
            Pairing.encloses_of_enter (exists_partner_of_eq_some hpartner) h.record hkind
          have hstay := hlog.time_le h.record hexit (Nat.le_of_lt hlt)
          dsimp only
          split
          -- The exit is inside the window too, or it comes after the window has closed.
          · next hlast =>
              have hbefore := hlog.time_le hexit h.opens.exit (Nat.le_of_lt hlast)
              refine .fullyNested ⟨rfl, rfl, rfl, rfl, rfl⟩ (Mark.moment_le hafter)
                (Mark.moment_le hstay) (Mark.moment_le hbefore) ?_
              rw [Bool.or_eq_true]
              exact or_congr Window.less_quantity Window.less_quantity
          · next hlast =>
              refine .nestedOpen rfl rfl rfl rfl (Mark.moment_le hafter) ?_ Window.less_quantity
              intro there hthere
              obtain rfl := Option.some.inj hthere
              exact Mark.moment_le (hlog.time_le h.opens.exit hexit (Nat.not_lt.mp hlast))

/-! ## Verdicts that are exact -/

/-- **The verdict on an overlap that is not fully nested is exact.** The one comparison that is made
decides, because in the order of time the other one follows from it. -/
theorem genuine_iff_clashes (hlog : log.InOrder) (ho : o ∈ (verify margins log).overlaps)
    (hshape : o.shape ≠ .fullyNested) : o.genuine = true ↔ o.holder.Clashes o.intruder := by
  cases judged_of_mem hlog ho with
  | @partialClose enter here _ henter hnone hhere hgenuine =>
      rw [hgenuine]
      constructor
      · intro hsure
        refine ⟨fun e he x hx => ?_, fun e he => ?_⟩
        · obtain rfl := Option.some.inj (henter.symm.trans he)
          obtain rfl := Option.some.inj (hhere.symm.trans hx)
          exact hsure
        · rw [hnone] at he
          cases he
      · exact fun hclash => hclash.1 enter henter here hhere
  | @nestedOpen enter exit here _ henter hexit hhere hafter hlater hgenuine =>
      rw [hgenuine]
      constructor
      · intro hsure
        refine ⟨fun e he x hx => ?_, fun e he x hx => ?_⟩
        -- The holder entered no later than the intruder, and left no later.
        · obtain rfl := Option.some.inj (henter.symm.trans he)
          have := hlater x hx
          linarith
        · obtain rfl := Option.some.inj (hhere.symm.trans he)
          obtain rfl := Option.some.inj (hexit.symm.trans hx)
          exact hsure
      · exact fun hclash => hclash.2 here hhere exit hexit
  | fullyNested h => exact absurd h.shape hshape

/-- What some meeting of a log shows is shown by an overlap that is reported. -/
theorem exists_overlap {P : Overlap Rat → Prop} (h : ∃ m ∈ log.meetings, P (m.overlap margins)) :
    ∃ o ∈ (verify margins log).overlaps, P o := by
  obtain ⟨m, hm, hP⟩ := h
  rw [overlaps_eq]
  exact ⟨m.overlap margins, List.mem_map_of_mem hm, hP⟩

/-- One process leaves inside a window without an entry and another one enters there. The first
overlap is dissolved by the wide margin of its intruder and the second one is genuine. -/
theorem genuine_iff_clashes_both :
    ∃ (margins : Margins Rat) (log : Log), log.InOrder ∧
      (∃ o ∈ (verify margins log).overlaps, o.shape = .partialClose ∧ o.genuine = false ∧
        ¬ o.holder.Clashes o.intruder) ∧
      ∃ o ∈ (verify margins log).overlaps, o.shape = .nestedOpen ∧ o.genuine = true ∧
        o.holder.Clashes o.intruder := by
  let margins : Margins Rat := (Margins.uniform 10).set "P3" 30
  let log : Log := [⟨"P1", .enter, 100⟩, ⟨"P3", .exit, 130⟩, ⟨"P2", .enter, 150⟩,
    ⟨"P1", .exit, 200⟩, ⟨"P2", .exit, 300⟩]
  have hlog : log.InOrder := by decide +kernel
  have hdissolved : ∃ o ∈ (verify margins log).overlaps,
      o.shape = .partialClose ∧ o.genuine = false := exists_overlap (by decide +kernel)
  have hgenuine : ∃ o ∈ (verify margins log).overlaps,
      o.shape = .nestedOpen ∧ o.genuine = true := exists_overlap (by decide +kernel)
  obtain ⟨o, ho, hshape, hfalse⟩ := hdissolved
  obtain ⟨o', ho', hshape', htrue⟩ := hgenuine
  have hiff := genuine_iff_clashes hlog ho (by rw [hshape]; decide)
  have hiff' := genuine_iff_clashes hlog ho' (by rw [hshape']; decide)
  exact ⟨margins, log, hlog, ⟨o, ho, hshape, hfalse, fun h => by simp [hiff.mpr h] at hfalse⟩,
    o', ho', hshape', htrue, hiff'.mp htrue⟩

/-! ## The verdict on a fully nested overlap -/

/-- **A fully nested overlap is genuine** when the lead or the rest is beyond the allowance. -/
theorem exists_nested (hlog : log.InOrder) (ho : o ∈ (verify margins log).overlaps)
    (hshape : o.shape = .fullyNested) :
    ∃ enter here there exit, o.Nested enter here there exit ∧
      (o.genuine = true ↔ o.allowance < enter.to here ∨ o.allowance < there.to exit) := by
  cases judged_of_mem hlog ho with
  | partialClose h =>
      rw [h] at hshape
      cases hshape
  | nestedOpen h =>
      rw [h] at hshape
      cases hshape
  | @fullyNested enter here there exit hnested _ _ _ hgenuine =>
      refine ⟨enter, here, there, exit, hnested, ?_⟩
      rw [hgenuine, Overlap.allowance, Mark.to, Mark.to]
      constructor
      · rintro (hlead | hrest)
        · left; linarith
        · right; linarith
      · rintro (hlead | hrest)
        · left; linarith
        · right; linarith

end Verifier

/-- **A fully nested overlap is a clash** when the lead with the stay and the stay with the rest are
beyond the allowance. -/
theorem Overlap.Nested.clashes_iff {o : Overlap Rat} {enter here there exit : Mark}
    (h : o.Nested enter here there exit) :
    o.holder.Clashes o.intruder ↔
      o.allowance < here.to there + min (enter.to here) (there.to exit) := by
  have hholder : o.holder.BeginsBefore o.intruder ↔
      enter.moment + o.holder.margin < there.moment - o.intruder.margin := by
    simp [Side.BeginsBefore, h.enter, h.there]
  have hintruder : o.intruder.BeginsBefore o.holder ↔
      here.moment + o.intruder.margin < exit.moment - o.holder.margin := by
    simp [Side.BeginsBefore, h.here, h.exit]
  rw [Side.Clashes, hholder, hintruder, ← min_add_add_left, lt_min_iff, Overlap.allowance,
    Mark.to, Mark.to, Mark.to]
  constructor
  · rintro ⟨hbegin, hend⟩
    constructor <;> linarith
  · rintro ⟨hbegin, hend⟩
    constructor <;> linarith

@[simp]
theorem Margins.get_uniform {α : Type} (margin : α) (p : ProcessId) :
    (Margins.uniform margin).get p = margin := by
  simp [Margins.get, Margins.uniform]

namespace Verifier

variable {log : Log} {margins : Margins Rat} {o : Overlap Rat}

/-- **Which clashes are missed** among the fully nested overlaps: those with a lead and a rest
within the allowance. -/
theorem missed_iff (hlog : log.InOrder) (ho : o ∈ (verify margins log).overlaps)
    (hshape : o.shape = .fullyNested) :
    ∃ enter here there exit, o.Nested enter here there exit ∧
      (o.holder.Clashes o.intruder ∧ o.genuine = false ↔
        max (enter.to here) (there.to exit) ≤ o.allowance ∧
          o.allowance < here.to there + min (enter.to here) (there.to exit)) := by
  obtain ⟨enter, here, there, exit, hnested, hgenuine⟩ := exists_nested hlog ho hshape
  refine ⟨enter, here, there, exit, hnested, ?_⟩
  have hdissolved : o.genuine = false ↔ max (enter.to here) (there.to exit) ≤ o.allowance := by
    rw [← Bool.not_eq_true, hgenuine, ← lt_max_iff, not_lt]
  rw [hnested.clashes_iff, hdissolved, and_comm]

/-- With margins of two on both sides, a lead and a rest of four hide a clash of 92. -/
theorem missed_iff_close :
    ∃ log : Log, log.InOrder ∧ ∃ o ∈ (verify (.uniform 2) log).overlaps,
      o.shape = .fullyNested ∧ o.holder.Clashes o.intruder ∧ o.genuine = false ∧
        ∃ enter here there exit, o.Nested enter here there exit ∧
          max (enter.to here) (there.to exit) ≤ o.allowance ∧
            o.allowance < here.to there + min (enter.to here) (there.to exit) := by
  let log : Log := [⟨"P1", .enter, 100⟩, ⟨"P2", .enter, 104⟩, ⟨"P2", .exit, 196⟩,
    ⟨"P1", .exit, 200⟩]
  have hlog : log.InOrder := by decide +kernel
  have hmissed : ∃ o ∈ (verify (.uniform 2) log).overlaps, o.shape = .fullyNested ∧
      o.holder.Clashes o.intruder ∧ o.genuine = false := exists_overlap (by decide +kernel)
  obtain ⟨o, ho, hshape, hclash, hfalse⟩ := hmissed
  obtain ⟨enter, here, there, exit, hnested, hiff⟩ := missed_iff hlog ho hshape
  exact ⟨log, hlog, o, ho, hshape, hclash, hfalse, enter, here, there, exit, hnested,
    hiff.mp ⟨hclash, hfalse⟩⟩

/-- **Not every clash is reported as genuine**: two processes that are inside over the very same
time are excused, even if no time may be off at all. -/
theorem not_genuine_of_clashes :
    ¬ ∀ (margins : Margins Rat) (log : Log), (∀ p, 0 ≤ margins.get p) → log.InOrder →
      ∀ o ∈ (verify margins log).overlaps, o.shape = .fullyNested →
        o.holder.Clashes o.intruder → o.genuine = true := by
  intro hall
  let log : Log := [⟨"P1", .enter, 100⟩, ⟨"P2", .enter, 100⟩, ⟨"P2", .exit, 200⟩,
    ⟨"P1", .exit, 200⟩]
  have hmissed : ∃ o ∈ (verify (.uniform 0) log).overlaps, o.shape = .fullyNested ∧
      o.holder.Clashes o.intruder ∧ o.genuine = false := exists_overlap (by decide +kernel)
  obtain ⟨o, ho, hshape, hclash, hfalse⟩ := hmissed
  have htrue := hall (.uniform 0) log (by simp) (by decide +kernel) o ho hshape hclash
  rw [hfalse] at htrue
  cases htrue

/-- **Which fully nested overlaps are false alarms**: those with a lead or a rest beyond the
allowance, and the stay with the other one within it. -/
theorem false_alarm_iff (hlog : log.InOrder) (ho : o ∈ (verify margins log).overlaps)
    (hshape : o.shape = .fullyNested) :
    ∃ enter here there exit, o.Nested enter here there exit ∧
      (o.genuine = true ∧ ¬ o.holder.Clashes o.intruder ↔
        o.allowance < max (enter.to here) (there.to exit) ∧
          here.to there + min (enter.to here) (there.to exit) ≤ o.allowance) := by
  obtain ⟨enter, here, there, exit, hnested, hgenuine⟩ := exists_nested hlog ho hshape
  refine ⟨enter, here, there, exit, hnested, ?_⟩
  rw [hnested.clashes_iff, not_lt, hgenuine, lt_max_iff]

/-- With margins of ten on both sides, a lead of ninety is enough for an alarm, though the intruder
is there only for the last ten of the time. -/
theorem false_alarm_iff_late :
    ∃ log : Log, log.InOrder ∧ ∃ o ∈ (verify (.uniform 10) log).overlaps,
      o.shape = .fullyNested ∧ o.genuine = true ∧ ¬ o.holder.Clashes o.intruder ∧
        ∃ enter here there exit, o.Nested enter here there exit ∧
          o.allowance < max (enter.to here) (there.to exit) ∧
            here.to there + min (enter.to here) (there.to exit) ≤ o.allowance := by
  let log : Log := [⟨"P1", .enter, 0⟩, ⟨"P2", .enter, 90⟩, ⟨"P2", .exit, 95⟩, ⟨"P1", .exit, 100⟩]
  have hlog : log.InOrder := by decide +kernel
  have halarm : ∃ o ∈ (verify (.uniform 10) log).overlaps, o.shape = .fullyNested ∧
      o.genuine = true ∧ ¬ o.holder.Clashes o.intruder := exists_overlap (by decide +kernel)
  obtain ⟨o, ho, hshape, htrue, hclash⟩ := halarm
  obtain ⟨enter, here, there, exit, hnested, hiff⟩ := false_alarm_iff hlog ho hshape
  exact ⟨log, hlog, o, ho, hshape, htrue, hclash, enter, here, there, exit, hnested,
    hiff.mp ⟨htrue, hclash⟩⟩

/-- **Not every fully nested overlap that is genuine is a clash**: a process that enters and leaves
at the very end of the time of another one counts as a violation, even if no time may be off. -/
theorem not_clashes_of_genuine :
    ¬ ∀ (margins : Margins Rat) (log : Log), (∀ p, 0 ≤ margins.get p) → log.InOrder →
      ∀ o ∈ (verify margins log).overlaps, o.shape = .fullyNested →
        o.genuine = true → o.holder.Clashes o.intruder := by
  intro hall
  let log : Log := [⟨"P1", .enter, 0⟩, ⟨"P2", .enter, 5⟩, ⟨"P2", .exit, 5⟩, ⟨"P1", .exit, 5⟩]
  have halarm : ∃ o ∈ (verify (.uniform 0) log).overlaps, o.shape = .fullyNested ∧
      o.genuine = true ∧ ¬ o.holder.Clashes o.intruder := exists_overlap (by decide +kernel)
  obtain ⟨o, ho, hshape, htrue, hclash⟩ := halarm
  exact hclash (hall (.uniform 0) log (by simp) (by decide +kernel) o ho hshape htrue)

end Verifier

end CriticalSection
