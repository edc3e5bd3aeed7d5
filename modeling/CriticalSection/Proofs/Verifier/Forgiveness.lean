import Mathlib.Data.List.Forall2
import Mathlib.Tactic.NormNum
import CriticalSection.Proofs.Verifier.Verdict

/-!
# Wider margins

What a log is searched for does not depend on the margins: they are looked at only when an overlap
that has been found is judged. So the reports on one log under two assignments of margins list the
same overlaps, and differ in the margins they show and in the verdicts. Every verdict compares a
time that is moved forward by its margin with one that is moved back by its own, so under margins
that are nowhere narrower an overlap can only be forgiven.
-/

set_option autoImplicit false

namespace CriticalSection

/-! ## Overlaps that differ in their margins -/

variable {α : Type}

/-- **Two sides with the same records**: they differ at most in their margins. -/
structure Side.SameMarks (a b : Side α) : Prop where
  process : a.process = b.process
  enter : a.enter = b.enter
  exit : a.exit = b.exit

/-- **One overlap, judged twice**, the second time no more severely. -/
structure Overlap.Softens (o o' : Overlap α) : Prop where
  shape : o.shape = o'.shape
  holder : o.holder.SameMarks o'.holder
  intruder : o.intruder.SameMarks o'.intruder
  line : o.line = o'.line
  genuine : o'.genuine = true → o.genuine = true

/-- **Margins that are nowhere narrower** than others. -/
def Margins.Within [LE α] (m m' : Margins α) : Prop := ∀ p, m.get p ≤ m'.get p

theorem Margins.get_set (m : Margins α) (p q : ProcessId) (margin : α) :
    (m.set p margin).get q = if p = q then margin else m.get q := by
  simp [get, set, Std.TreeMap.getD_insert]

/-! ## Judging under wider margins -/

/-- Times that are in order under wide margins are so under narrower ones. -/
theorem Window.less_of_less {time time' : Int64} {a a' b b' : Rat} (ha : a ≤ b) (ha' : a' ≤ b')
    (h : Quantity.less (quantity time + b) (quantity time' - b') = true) :
    Quantity.less (quantity time + a) (quantity time' - a') = true := by
  rw [@less_quantity 0 0] at h ⊢
  linarith

/-- **Under wider margins a record inside a window is judged more softly**, whichever of the
comparisons its verdict makes. -/
theorem Window.judge_softens {m m' : Margins Rat} (hle : m.Within m') (w : Window) (position : Nat)
    (record : Event) (other : Option (Nat × Event)) :
    (w.judge m position record other).Softens (w.judge m' position record other) := by
  have hholder : (w.holder m).SameMarks (w.holder m') := ⟨rfl, rfl, rfl⟩
  have hw := hle w.enter.process
  have hr := hle record.process
  unfold judge
  cases record.kind with
  | exit => exact ⟨rfl, hholder, ⟨rfl, rfl, rfl⟩, rfl, less_of_less hw hr⟩
  | enter =>
      cases other with
      | none => exact ⟨rfl, hholder, ⟨rfl, rfl, rfl⟩, rfl, less_of_less hr hw⟩
      | some other =>
          by_cases hlast : other.1 < w.last
          · simp only [hlast, if_true]
            refine ⟨rfl, hholder, ⟨rfl, rfl, rfl⟩, rfl, fun h => ?_⟩
            rw [Bool.or_eq_true] at h ⊢
            exact h.imp (less_of_less hw hr) (less_of_less hr hw)
          · simp only [hlast, if_false]
            exact ⟨rfl, hholder, ⟨rfl, rfl, rfl⟩, rfl, less_of_less hr hw⟩

/-! ## The two reports -/

/-- The genuine ones among overlaps that are softened become no more. -/
theorem Overlap.length_genuine_le {os os' : List (Overlap α)}
    (h : List.Forall₂ Softens os os') :
    (os'.filter (·.genuine)).length ≤ (os.filter (·.genuine)).length := by
  induction h with
  | nil => exact Nat.le_refl _
  | @cons o o' os os' ho _ ih =>
      cases hgenuine : o'.genuine with
      | false =>
          rw [List.filter_cons_of_neg (by simp [hgenuine])]
          exact ih.trans ((List.sublist_cons_self o os).filter _).length_le
      | true =>
          rw [List.filter_cons_of_pos hgenuine, List.filter_cons_of_pos (ho.genuine hgenuine)]
          exact Nat.succ_le_succ ih

/-- **Wider margins only forgive.** The reports on a log, in any order of its records, under two
assignments of margins have the same warnings and the same overlaps in the same order, with the
same shapes, processes, times and lines. Where the margins are nowhere narrower, what is genuine
was so before; so there are no more violations, and no fewer overlaps are dissolved. -/
theorem Verifier.verify_softens {m m' : Margins Rat} (hle : m.Within m') (log : Log) :
    (verify m' log).events = (verify m log).events ∧
    (verify m' log).warnings = (verify m log).warnings ∧
    List.Forall₂ Overlap.Softens (verify m log).overlaps (verify m' log).overlaps ∧
    (verify m' log).violations ≤ (verify m log).violations ∧
    (verify m log).dissolved ≤ (verify m' log).dissolved := by
  have hoverlaps : List.Forall₂ Overlap.Softens (verify m log).overlaps
      (verify m' log).overlaps := by
    rw [overlaps_eq, overlaps_eq, List.forall₂_map_left_iff, List.forall₂_map_right_iff]
    exact List.forall₂_same.mpr fun met _ =>
      Window.judge_softens hle met.window met.position met.record met.other
  have hviolations : (verify m' log).violations ≤ (verify m log).violations :=
    Overlap.length_genuine_le hoverlaps
  refine ⟨rfl, rfl, hoverlaps, hviolations, ?_⟩
  have hlength := hoverlaps.length_eq
  unfold Report.dissolved
  omega

/-- A log that is not in the order of time, with an overlap of each shape. A margin of 25 for one of
the two processes that intrude excuses one overlap of three, and a margin of 60 for all processes
excuses the others too. -/
theorem Verifier.verify_softens_twice :
    ∃ (log : Log) (m m' m'' : Margins Rat), ¬ log.InOrder ∧ m.Within m' ∧ m'.Within m'' ∧
      (verify m log).violations = 3 ∧ (verify m' log).violations = 2 ∧
      (verify m'' log).violations = 0 ∧ (verify m log).dissolved ≤ (verify m' log).dissolved ∧
      (verify m' log).dissolved ≤ (verify m'' log).dissolved := by
  let log : Log := [⟨"P1", .enter, 0⟩, ⟨"P2", .exit, 20⟩, ⟨"P3", .enter, 50⟩, ⟨"P3", .exit, 60⟩,
    ⟨"P2", .enter, 70⟩, ⟨"P1", .exit, 100⟩, ⟨"P2", .exit, 40⟩]
  let m : Margins Rat := .uniform 0
  let m' : Margins Rat := m.set "P2" 25
  let m'' : Margins Rat := .uniform 60
  have hle : m.Within m' := by
    intro p
    rw [Margins.get_set, Margins.get_uniform]
    split <;> norm_num
  have hle' : m'.Within m'' := by
    intro p
    rw [Margins.get_set, Margins.get_uniform, Margins.get_uniform]
    split <;> norm_num
  refine ⟨log, m, m', m'', by decide +kernel, hle, hle', ?_, ?_, ?_,
    (verify_softens hle log).2.2.2.2, (verify_softens hle' log).2.2.2.2⟩
  all_goals
    rw [Report.violations, overlaps_eq]
    decide +kernel

end CriticalSection
