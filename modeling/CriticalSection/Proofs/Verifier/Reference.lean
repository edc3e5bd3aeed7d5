import CriticalSection.Proofs.Log.Merging
import CriticalSection.Proofs.Offset.Margin
import CriticalSection.Proofs.Verifier.Verdict

/-!
# The choice of the reference clock

Estimates may refer to any clock. If another one had been taken, all logs would have been moved by
as much more or less. Sorting compares times with each other only, pairing does not look at them,
and a verdict compares two times that are moved alike; so the report is the same, with moved times.
-/

set_option autoImplicit false

namespace CriticalSection

/-! ## Later reports -/

/-- A mark so many milliseconds later. -/
def Mark.later (n : Int) (mark : Mark) : Mark :=
  { mark with time := Int64.ofInt (mark.time.toInt + n) }

section Later

variable {α : Type}

/-- A side whose entry and exit are so many milliseconds later. -/
def Side.later (n : Int) (side : Side α) : Side α :=
  { side with
    enter := side.enter.map (Mark.later n)
    exit := side.exit.map (Mark.later n) }

/-- An overlap so many milliseconds later. -/
def Overlap.later (n : Int) (o : Overlap α) : Overlap α :=
  { o with
    holder := o.holder.later n
    intruder := o.intruder.later n }

/-- **A report about times so many milliseconds later**, and the same in everything else. -/
def Report.later (n : Int) (r : Report α) : Report α :=
  { r with overlaps := r.overlaps.map (Overlap.later n) }

end Later

/-- A meeting whose events are so many milliseconds later. -/
def Meeting.later (n : Int) (m : Meeting) : Meeting :=
  ⟨⟨m.window.first, m.window.last, m.window.enter.later n, m.window.exit.later n⟩, m.position,
    m.record.later n, m.other.map fun (i, event) => (i, event.later n)⟩

/-! ## Pairing and meetings -/

variable {log : Log} {n : Int}

/-- **Pairing does not look at the times.** -/
theorem Pairing.ofLog_later (n : Int) (log : Log) :
    ofLog (log.map (Event.later n)) = ofLog log := by
  unfold ofLog
  rw [List.zipIdx_map, List.foldl_map]
  rfl

namespace Meeting

theorem partner?_later (n : Int) (log : Log) (position : Nat) :
    partner? (log.map (Event.later n)) position =
      (partner? log position).map fun (i, event) => (i, event.later n) := by
  unfold partner?
  rw [Pairing.ofLog_later]
  cases (Pairing.ofLog log).partner[position]? with
  | none => rfl
  | some i =>
      simp only [Option.bind_some, List.getElem?_map, Option.map_map]
      rfl

theorem at?_later (n : Int) (log : Log) (first position : Nat) :
    at? (log.map (Event.later n)) first position = (at? log first position).map (later n) := by
  simp only [at?, Pairing.ofLog_later, partner?_later, List.getElem?_map]
  cases log[first]? with
  | none => rfl
  | some enter =>
      cases (Pairing.ofLog log).partner[first]? with
      | none => rfl
      | some last =>
          cases hlast : log[last]? with
          | none => simp [hlast]
          | some exit =>
              cases log[position]? with
              | none => simp
              | some record =>
                  simp only [hlast, Option.map_some, Option.bind_eq_bind, Option.bind_some,
                    Event.later]
                  split <;> rfl

end Meeting

/-- **The meetings are the same.** -/
theorem Log.meetings_later (n : Int) (log : Log) :
    Log.meetings (log.map (Event.later n)) = log.meetings.map (Meeting.later n) := by
  unfold Log.meetings
  rw [List.length_map, List.map_flatMap]
  congr 1
  funext first
  rw [List.map_filterMap]
  congr 1
  funext position
  exact Meeting.at?_later n log first position

/-! ## Verdicts -/

/-- A comparison of two times that are moved alike. -/
theorem Window.less_later {t t' : Int64} {margin margin' : Rat} (h : Time.Fits (t.toInt + n))
    (h' : Time.Fits (t'.toInt + n)) :
    Quantity.less (quantity (Int64.ofInt (t.toInt + n)) + margin)
        (quantity (Int64.ofInt (t'.toInt + n)) - margin') =
      Quantity.less (quantity t + margin) (quantity t' - margin') := by
  change decide (((Int64.ofInt (t.toInt + n)).toInt : Rat) + margin <
      ((Int64.ofInt (t'.toInt + n)).toInt : Rat) - margin') =
    decide ((t.toInt : Rat) + margin < (t'.toInt : Rat) - margin')
  rw [Time.toInt_ofInt h, Time.toInt_ofInt h', decide_eq_decide]
  push_cast
  constructor <;> intro hlt <;> linarith

/-- **A later meeting has the same overlap**, with later times. -/
theorem Meeting.overlap_later {m : Meeting} (margins : Margins Rat) (hm : m.Occurs log)
    (hlog : log.Fits n) : (m.later n).overlap margins = (m.overlap margins).later n := by
  have henter := hlog _ (List.mem_of_getElem? hm.opens.enter)
  have hexit := hlog _ (List.mem_of_getElem? hm.opens.exit)
  have hrecord := hlog _ (List.mem_of_getElem? hm.record)
  obtain ⟨⟨first, last, enter, exit⟩, position, ⟨process, kind, time⟩, other⟩ := m
  unfold overlap Window.judge later Overlap.later Side.later
  cases other with
  | none =>
      cases kind with
      | enter =>
          simp only [Window.holder, Event.later, Option.map_some, Option.map_none, Mark.later]
          rw [Window.less_later hrecord hexit]
      | exit =>
          simp only [Window.holder, Event.later, Option.map_some, Option.map_none, Mark.later]
          rw [Window.less_later henter hrecord]
  | some other =>
      have hother := hlog _ (List.mem_of_getElem? (getElem?_of_partner? hm.other.symm))
      cases kind with
      | enter =>
          simp only [Window.holder, Event.later, Option.map_some, Mark.later]
          rw [Window.less_later henter hrecord, Window.less_later hother hexit,
            Window.less_later hrecord hexit]
      | exit =>
          simp only [Window.holder, Event.later, Option.map_some, Mark.later]
          rw [Window.less_later henter hrecord]

namespace Verifier

/-- **The report on a later log** is the later report. -/
theorem verify_later (margins : Margins Rat) (hlog : log.Fits n) :
    verify margins (log.map (Event.later n)) = (verify margins log).later n := by
  have hoverlaps : (verify margins (log.map (Event.later n))).overlaps =
      (verify margins log).overlaps.map (Overlap.later n) := by
    rw [overlaps_eq, overlaps_eq, Log.meetings_later, List.map_map, List.map_map]
    refine List.map_congr_left fun m hm => ?_
    exact Meeting.overlap_later margins (Log.mem_meetings.mp hm) hlog
  have hwarnings : (verify margins (log.map (Event.later n))).warnings =
      (verify margins log).warnings :=
    congrArg Pairing.allWarnings (Pairing.ofLog_later n log)
  have hevents : (verify margins (log.map (Event.later n))).events =
      (verify margins log).events := by
    change (log.map (Event.later n)).toArray.size = log.toArray.size
    simp
  unfold Report.later
  rw [← hoverlaps, ← hwarnings, ← hevents]

end Verifier

/-! ## Sorting -/

namespace Log

/-- **Sorting compares the times with each other only.** -/
theorem sort_later (hlog : log.Fits n) :
    sort (log.map (Event.later n)) = (sort log).map (Event.later n) := by
  symm
  refine List.map_mergeSort fun a ha b hb => ?_
  rw [decide_eq_decide, Int64.le_iff_toInt_le, Int64.le_iff_toInt_le]
  change _ ↔ (Int64.ofInt _).toInt ≤ (Int64.ofInt _).toInt
  rw [Time.toInt_ofInt (hlog a ha), Time.toInt_ofInt (hlog b hb)]
  omega

theorem Fits.sort (hlog : log.Fits n) : (Log.sort log).Fits n :=
  fun event hevent => hlog event ((perm_sort _).mem_iff.mp hevent)

end Log

/-! ## Offsets -/

namespace Quantity

/-- A whole number is rounded to itself, within 64 bits. -/
theorem round_intCast (n : Int) : round (n : Rat) = clamp n := by
  have hfloor : ⌊(n : Rat) + 1 / 2⌋ = n := by
    rw [Int.floor_eq_iff]
    constructor <;> linarith
  change clamp ⌊(n : Rat) + 1 / 2⌋ = clamp n
  rw [hfloor]

/-- A time that fits when it is moved by a number also does so when it is moved by the 64-bit number
nearest to it. -/
theorem fits_clamp {t : Int64} (h : Time.Fits (t.toInt + n)) :
    Time.Fits (t.toInt + (clamp n).toInt) := by
  have hmin : Int64.minValue.toInt ≤ 0 := by decide
  have hmax : 0 ≤ Int64.maxValue.toInt := by decide
  obtain ⟨hfrom, hto⟩ := Time.fits_toInt t
  obtain ⟨hfrom', hto'⟩ := h
  unfold clamp
  split
  · next hbelow => constructor <;> omega
  · next =>
      split
      · next habove => constructor <;> omega
      · next =>
          rw [Time.toInt_ofInt ⟨by omega, by omega⟩]
          exact ⟨hfrom', hto'⟩

end Quantity

namespace Log

/-- **Logs are moved together** when all their times fit. -/
theorem mapM_shift {logs : List Log} {step : Int64} (h : ∀ log ∈ logs, log.Fits step.toInt) :
    logs.mapM (·.shift step) = .ok (logs.map (·.map (Event.later step.toInt))) := by
  refine Outcome.mapM_eq_ok_iff.mpr (List.forall₂_map_right_iff.mpr ?_)
  exact List.forall₂_same.mpr fun log hlog => shift_of_fits (h log hlog)

end Log

namespace Verifier

/-- **The choice of the reference clock does not matter.** When all logs are moved by the same whole
number of milliseconds and every new time fits in 64 bits, the logs put together, here or from their
files, have the same report with later times. A number that does not fit in 64 bits itself counts as
the nearest one that does. -/
theorem verify_moved (margins : Margins Rat) (logs : List Log) (n : Int)
    (h : ∀ log ∈ logs, ∀ event ∈ log, Time.Fits (event.time.toInt + n)) :
    ∃ moved, logs.mapM (·.shift (Quantity.round (n : Rat))) = .ok moved ∧
      verify margins (Log.sort moved.flatten) =
        (verify margins (Log.sort logs.flatten)).later (Quantity.clamp n).toInt ∧
      (Time.Fits n → (Quantity.clamp n).toInt = n) ∧
      ∀ files files' paths,
        List.Forall₂ (fun path log => Log.read files path = .ok log) paths logs →
        List.Forall₂ (fun path log => Log.read files' path = .ok log) paths moved →
        ∃ merged merged', Log.merge files paths = .ok merged ∧
          Log.merge files' paths = .ok merged' ∧
          verify margins merged' = (verify margins merged).later (Quantity.clamp n).toInt := by
  have hclamp : ∀ log ∈ logs, log.Fits (Quantity.clamp n).toInt :=
    fun log hlog event hevent => Quantity.fits_clamp (h log hlog event hevent)
  have hflatten : Log.Fits (Quantity.clamp n).toInt logs.flatten := by
    intro event hevent
    obtain ⟨log, hlog, hmem⟩ := List.mem_flatten.mp hevent
    exact hclamp log hlog event hmem
  have hreport : verify margins
      (Log.sort (logs.map (·.map (Event.later (Quantity.clamp n).toInt))).flatten) =
        (verify margins (Log.sort logs.flatten)).later (Quantity.clamp n).toInt := by
    rw [← List.map_flatten, Log.sort_later hflatten, verify_later margins hflatten.sort]
  rw [Quantity.round_intCast]
  refine ⟨_, Log.mapM_shift hclamp, hreport, Quantity.toInt_clamp, ?_⟩
  intro files files' paths hlogs hmoved
  exact ⟨_, _, Log.merge_of_forall₂ hlogs, Log.merge_of_forall₂ hmoved, hreport⟩

/-- Two logs that overlap, moved by five milliseconds. -/
theorem verify_moved_five :
    ∃ logs moved : List Log,
      (∀ log ∈ logs, ∀ event ∈ log, Time.Fits (event.time.toInt + 5)) ∧
      logs.mapM (·.shift (Quantity.round ((5 : Int) : Rat))) = .ok moved ∧
      (∃ o ∈ (verify (.uniform (2 : Rat)) (Log.sort logs.flatten)).overlaps, o.genuine = true) ∧
      verify (.uniform (2 : Rat)) (Log.sort moved.flatten) =
        (verify (.uniform (2 : Rat)) (Log.sort logs.flatten)).later 5 := by
  let first : Log := [⟨"P1", .enter, 0⟩, ⟨"P1", .exit, 10⟩]
  let second : Log := [⟨"P2", .enter, 4⟩, ⟨"P2", .exit, 20⟩]
  have hfits : ∀ log ∈ [first, second], ∀ event ∈ log, Time.Fits (event.time.toInt + 5) := by
    decide
  have hmerged : Log.sort [first, second].flatten = [⟨"P1", .enter, 0⟩, ⟨"P2", .enter, 4⟩,
      ⟨"P1", .exit, 10⟩, ⟨"P2", .exit, 20⟩] := by
    simp [first, second, Log.sort, List.mergeSort, List.MergeSort.Internal.splitInTwo]
  obtain ⟨moved, hmoved, hreport, hclamp, -⟩ :=
    verify_moved (.uniform 2) [first, second] 5 hfits
  rw [hclamp (by decide)] at hreport
  refine ⟨_, moved, hfits, hmoved, ?_, hreport⟩
  rw [hmerged]
  exact exists_overlap (by decide +kernel)

/-- **Numbers beyond 64 bits count less than they are**: all times fit when they are moved by two to
the power of 63, but a log is moved by one millisecond less. -/
theorem not_verify_moved : ¬ ∀ (margins : Margins Rat) (logs : List Log) (n : Int),
    (∀ log ∈ logs, ∀ event ∈ log, Time.Fits (event.time.toInt + n)) →
    ∃ moved, logs.mapM (·.shift (Quantity.round (n : Rat))) = .ok moved ∧
      verify margins (Log.sort moved.flatten) =
        (verify margins (Log.sort logs.flatten)).later n := by
  intro hall
  let first : Log := [⟨"P1", .enter, -4⟩, ⟨"P1", .exit, -1⟩]
  let second : Log := [⟨"P2", .enter, -3⟩, ⟨"P2", .exit, -2⟩]
  obtain ⟨moved, hmoved, hreport⟩ := hall (.uniform 0) [first, second] (2 ^ 63) (by decide)
  have hvalue : [first, second].mapM (·.shift (Quantity.round ((2 ^ 63 : Int) : Rat))) = .ok
      [[⟨"P1", .enter, 9223372036854775803⟩, ⟨"P1", .exit, 9223372036854775806⟩],
        [⟨"P2", .enter, 9223372036854775804⟩, ⟨"P2", .exit, 9223372036854775805⟩]] := by
    decide +kernel
  obtain rfl := Except.ok.inj (hmoved.symm.trans hvalue)
  have hmerged : Log.sort [first, second].flatten = [⟨"P1", .enter, -4⟩, ⟨"P2", .enter, -3⟩,
      ⟨"P2", .exit, -2⟩, ⟨"P1", .exit, -1⟩] := by
    simp [first, second, Log.sort, List.mergeSort, List.MergeSort.Internal.splitInTwo]
  have hmerged' : Log.sort (List.flatten
      [[⟨"P1", .enter, 9223372036854775803⟩, ⟨"P1", .exit, 9223372036854775806⟩],
        [⟨"P2", .enter, 9223372036854775804⟩, ⟨"P2", .exit, 9223372036854775805⟩]]) =
      [⟨"P1", .enter, 9223372036854775803⟩, ⟨"P2", .enter, 9223372036854775804⟩,
        ⟨"P2", .exit, 9223372036854775805⟩, ⟨"P1", .exit, 9223372036854775806⟩] := by
    simp [Log.sort, List.mergeSort, List.MergeSort.Internal.splitInTwo]
  rw [hmerged, hmerged'] at hreport
  have hoverlaps := congrArg Report.overlaps hreport
  rw [Report.later, overlaps_eq, overlaps_eq] at hoverlaps
  revert hoverlaps
  decide +kernel

end Verifier

end CriticalSection
