import CriticalSection.Cluster.Round
import CriticalSection.Proofs.FanOut

/-!
# What a round writes

A round hands its writer on from stage to stage. It writes a record when it has been let in and
another one when its stay is over, both at the time of the clock; nothing else that it does touches
files.
-/

set_option autoImplicit false

namespace CriticalSection

variable {s : Extent}

/-! ## Records -/

/-- Adding nothing to a time leaves it as it is. -/
theorem Time.sum?_zero (a : Int64) : Time.sum? a 0 = some a := by
  have hsum : a.toInt + (0 : Int64).toInt = a.toInt := by simp
  simp only [Time.sum?, hsum, Int64.ofInt_toInt]
  rw [if_pos]
  constructor
  · exact Int64.le_iff_toInt_le.mp (Int64.minValue_le a)
  · exact Int64.le_iff_toInt_le.mp (Int64.le_maxValue a)

/-- A clock shows a time, or the time it would show is out of range. -/
theorem Client.reading_cases (client : Client s) (c : Cluster s) :
    client.reading c = .error .overflow ∨ ∃ time, client.reading c = .ok time := by
  unfold reading
  split
  · next time _ => exact Or.inr ⟨time, rfl⟩
  · exact Or.inl rfl

/-- A clock that is exact shows the time. -/
theorem Client.reading_eq {client : Client s} (hskew : client.skew = 0) (c : Cluster s) :
    client.reading c = .ok c.now := by
  rw [reading, hskew, Time.sum?_zero]

namespace LoggedStay

/-- The files after a record has been written at the time of the clock. -/
def noted (writer : LogWriter) (kind : EventKind) (c : Cluster s) : Cluster s :=
  { c with files := (writer.record c.files kind c.now).2 }

end LoggedStay

namespace Round

/-- **How far a round has come with its log**: the writer it has, and the time until which it stays
inside while it does. -/
inductive Writes (pacing : Pacing) (w : LogWriter) : Option Int → Round s → Prop
  | gathering (line : LineUp s) : Writes pacing w none (.gathering line w)
  | entering (stage : Acquire s) (left : Nat) :
      Writes pacing w none (.visiting (.entering stage (.arriving w pacing.holding)) left)
  | arriving (left : Nat) :
      Writes pacing w none (.visiting (.inside (.arriving w pacing.holding)) left)
  | staying (deadline : Int) (left : Nat) :
      Writes pacing w (some deadline) (.visiting (.inside (.staying w deadline)) left)
  | leaving (stage : Release s) (left : Nat) :
      Writes pacing w none (.visiting (.leaving stage (.ok w)) left)
  | thinking (deadline : Int) (left : Nat) : Writes pacing w none (.thinking deadline w left)
  | parting (line : LineUp s) : Writes pacing w none (.parting line)

/-- How many of the visits of a round have not been logged to their end. -/
def outstanding (pacing : Pacing) : Round s → Nat
  | gathering .. => pacing.visits.toNat
  | visiting (.leaving ..) left => left
  | visiting _ left => left + 1
  | thinking _ _ left => left
  | parting _ => 0

/-- **What a move of a round does to its log, whatever its clock shows**: nothing, or it writes one
of its two records, while it is inside. A round that ends well has written all of them. -/
inductive Jot (client : Client s) (pacing : Pacing) (w : LogWriter) (due : Option Int) (r : Round s)
    (c : Cluster s) : Move (Round s) UInt64 → Cluster s → Prop
  | waits {c'} : Jot client pacing w due r c .wait c'
  | nothing {r' c'} (hdue : due = none) (after : Writes pacing w none r')
      (same : r'.outstanding pacing = r.outstanding pacing) (h : c.Keeps c') :
      Jot client pacing w due r c (.next r') c'
  | entry {r' left time} (hdue : due = none) (hread : client.reading c = .ok time)
      (before : r = .visiting (.inside (.arriving w pacing.holding)) left)
      (after : Writes pacing (w.record c.files .enter time).1 (some (c.after pacing.holding)) r')
      (same : r'.outstanding pacing = r.outstanding pacing) :
      Jot client pacing w due r c (.next r')
        { c with files := (w.record c.files .enter time).2 }
  | exit {r' left deadline time} (hdue : due = some deadline) (hread : client.reading c = .ok time)
      (before : r = .visiting (.inside (.staying w deadline)) left)
      (reached : c.reached deadline = true)
      (after : Writes pacing (w.record c.files .exit time).1 none r')
      (fewer : r'.outstanding pacing + 1 = r.outstanding pacing) :
      Jot client pacing w due r c (.next r') { c with files := (w.record c.files .exit time).2 }
  | done {c'} (hdue : due = none) (finished : r.outstanding pacing = 0) (h : c.Keeps c') :
      Jot client pacing w due r c (.finish (.ok pacing.visits)) c'
  | fails {fault c'} (h : c.Keeps c') : Jot client pacing w due r c (.finish (.error fault)) c'

variable {client : Client s} {pacing : Pacing} {w : LogWriter} {due : Option Int} {r : Round s}

theorem writes_resume (client : Client s) (pacing : Pacing) (w : LogWriter) (left : Nat) :
    Writes pacing w none (resume client pacing w left) := by
  cases left with
  | zero => exact .parting _
  | succ left => exact .entering .start left

@[simp]
theorem outstanding_resume (client : Client s) (pacing : Pacing) (w : LogWriter) (left : Nat) :
    (resume client pacing w left).outstanding pacing = left := by
  cases left with
  | zero => rfl
  | succ left => rfl

/-- **Every move of a round** is one of these. -/
theorem Writes.jot (h : Writes pacing w due r) (client : Client s) (place : Nat) (c : Cluster s) :
    Jot client pacing w due r c (r.step client pacing place c).1
      (r.step client pacing place c).2 := by
  cases h with
  | gathering line =>
      have hkeeps := line.keeps_step client place c
      rcases hline : line.step client place c with ⟨_ | line' | (fault | ⟨⟩), c'⟩ <;>
        rw [hline] at hkeeps <;> simp only [Round.step, hline]
      · exact .waits
      · exact .nothing rfl (.gathering line') rfl hkeeps
      · exact .fails hkeeps
      · exact .nothing rfl (writes_resume client pacing w _) (outstanding_resume ..) hkeeps
  | entering stage left =>
      have hkeeps := stage.keeps_step client place c
      rcases hstage : stage.step client place c with ⟨_ | stage' | (fault | time), c'⟩ <;>
        rw [hstage] at hkeeps <;> simp only [Round.step, Visit.step, hstage]
      · exact .waits
      · exact .nothing rfl (.entering stage' left) rfl hkeeps
      · exact .fails hkeeps
      · exact .nothing rfl (.arriving left) rfl hkeeps
  | arriving left =>
      rcases client.reading_cases c with hread | ⟨time, hread⟩ <;>
        simp only [Round.step, Visit.step, LoggedStay.step, LoggedStay.record, hread]
      · exact .fails (.refl c)
      · exact .entry rfl hread rfl (.staying _ left) rfl
  | staying deadline left =>
      by_cases hover : c.reached deadline = true
      · rcases client.reading_cases c with hread | ⟨time, hread⟩ <;>
          simp only [Round.step, Visit.step, LoggedStay.step, LoggedStay.record, hread, hover,
            if_true]
        · exact .fails (.refl c)
        · exact .exit rfl hread rfl hover (.leaving .start left) rfl
      · simp only [Round.step, Visit.step, LoggedStay.step, hover, if_false, Bool.false_eq_true]
        exact .waits
  | leaving stage left =>
      have hkeeps := stage.keeps_step client c
      rcases hstage : stage.step client c with ⟨_ | stage' | (fault | ⟨⟩), c'⟩ <;>
        rw [hstage] at hkeeps <;> simp only [Round.step, Visit.step, hstage]
      · exact .waits
      · exact .nothing rfl (.leaving stage' left) rfl hkeeps
      · cases fault <;> exact .fails hkeeps
      · exact .nothing rfl (.thinking _ left) rfl hkeeps
  | thinking deadline left =>
      simp only [Round.step]
      by_cases hover : c.reached deadline = true
      · simp only [hover, if_true]
        exact .nothing rfl (writes_resume client pacing w left) (outstanding_resume ..) (.refl c)
      · simp only [hover, if_false, Bool.false_eq_true]
        exact .waits
  | parting line =>
      have hkeeps := line.keeps_step client place c
      rcases hline : line.step client place c with ⟨_ | line' | (fault | ⟨⟩), c'⟩ <;>
        rw [hline] at hkeeps <;> simp only [Round.step, hline]
      · exact .waits
      · exact .nothing rfl (.parting line') rfl hkeeps
      · exact .fails hkeeps
      · exact .done rfl rfl hkeeps

/-! ### Exact clocks -/

/-- **What a move of a round does to its log when its clock is exact.** -/
inductive Note (pacing : Pacing) (w : LogWriter) (due : Option Int) (r : Round s) (c : Cluster s) :
    Move (Round s) UInt64 → Cluster s → Prop
  | waits {c'} : Note pacing w due r c .wait c'
  | nothing {r' c'} (hdue : due = none) (after : Writes pacing w none r') (h : c.Keeps c') :
      Note pacing w due r c (.next r') c'
  | entry {r' left} (hdue : due = none)
      (before : r = .visiting (.inside (.arriving w pacing.holding)) left)
      (after : Writes pacing (w.record c.files .enter c.now).1 (some (c.after pacing.holding)) r') :
      Note pacing w due r c (.next r') (LoggedStay.noted w .enter c)
  | exit {r' deadline} (hdue : due = some deadline) (reached : c.reached deadline = true)
      (after : Writes pacing (w.record c.files .exit c.now).1 none r') :
      Note pacing w due r c (.next r') (LoggedStay.noted w .exit c)
  | done {visits c'} (hdue : due = none) (h : c.Keeps c') :
      Note pacing w due r c (.finish (.ok visits)) c'
  | fails {fault c'} : Note pacing w due r c (.finish (.error fault)) c'

/-- Every move of a round with an exact clock is one of these. -/
theorem Writes.note (h : Writes pacing w due r) (hskew : client.skew = 0) (place : Nat)
    (c : Cluster s) :
    Note pacing w due r c (r.step client pacing place c).1 (r.step client pacing place c).2 := by
  have htime : ∀ {time}, client.reading c = .ok time → time = c.now := fun hread =>
    Except.ok.inj (hread.symm.trans (Client.reading_eq hskew c))
  have hjot := h.jot client place c
  generalize (r.step client pacing place c).1 = move at hjot ⊢
  generalize (r.step client pacing place c).2 = c' at hjot ⊢
  cases hjot with
  | waits => exact .waits
  | nothing hdue after _ hkeeps => exact .nothing hdue after hkeeps
  | entry hdue hread before after _ =>
      obtain rfl := htime hread
      exact .entry hdue before after
  | exit hdue hread before reached after _ =>
      obtain rfl := htime hread
      exact .exit hdue reached after
  | done hdue _ hkeeps => exact .done hdue hkeeps
  | fails => exact .fails

end Round

end CriticalSection
