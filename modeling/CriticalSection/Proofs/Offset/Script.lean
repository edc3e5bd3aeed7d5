import Mathlib.Algebra.GroupWithZero.Nat
import CriticalSection.Offset.Script

/-!
# What a script holds

Each attempt takes one clock reading and one answer of a script, and a further reading when the
answer is no failure. So the exchanges that a script holds are fixed whatever is done with it, and
so are the failures in front of each of them.
-/

set_option autoImplicit false

namespace CriticalSection.Script

/-! ## Failures and exchanges -/

/-- **The failures before each success**, since the success before it. -/
def gaps {α : Type} : List (Option α) → List Nat
  | [] => []
  | some _ :: rest => 0 :: gaps rest
  | none :: rest => (gaps rest).modifyHead (· + 1)

/-- **Enough successes come in time**: there are so many of them, and before each of those there
are fewer failures than the limit. -/
def InTime {α : Type} (answers : List (Option α)) (count limit : Nat) : Prop :=
  count ≤ (gaps answers).length ∧ ∀ gap ∈ (gaps answers).take count, gap < limit

/-- The failures before so many successes. -/
def failures {α : Type} (answers : List (Option α)) (count : Nat) : Nat :=
  ((gaps answers).take count).sum

/-- What the clock shows when it is read again after a number of readings. -/
def showing (s : Script) (count : Nat) : Int64 :=
  s.readings.getD count (s.readings.getLast?.getD s.latest)

/-- What the peer answers when it is asked again after a number of answers. -/
def reply (s : Script) (count : Nat) : Option (Int64 × Int64) := s.answers[count]?.join

/-- The script when some readings and some answers have been taken and some time was waited. -/
def later (s : Script) (readings answers waited : Nat) : Script where
  readings := s.readings.drop readings
  latest := (s.readings.take readings).getLast?.getD s.latest
  answers := s.answers.drop answers
  asked := s.asked + answers
  waited := s.waited + waited

/-- The script behind some successes and some failures, with a pause after each failure. -/
def after (s : Script) (pause successes failures : Nat) : Script :=
  s.later (failures + 2 * successes) (failures + successes) (pause * failures)

/-- The exchanges that some answers make, when a number of readings has been taken before: the
clock is read before each question, and once more after an answer that is no failure. -/
def exchangesFrom (s : Script) (count : Nat) : List (Option (Int64 × Int64)) → List Exchange
  | [] => []
  | none :: rest => s.exchangesFrom (count + 1) rest
  | some (received, answered) :: rest =>
    ⟨s.showing count, received, answered, s.showing (count + 1)⟩ ::
      s.exchangesFrom (count + 2) rest

/-- **The exchanges that a script holds.** -/
def exchanges (s : Script) : List Exchange := s.exchangesFrom 0 s.answers

/-! ## Gaps -/

section Gaps

variable {α : Type} {answers : List (Option α)} {gap count limit : Nat} {rest : List Nat}

/-- Behind a failure the first gap is smaller by one. -/
theorem exists_of_gaps_none (h : gaps (none :: answers) = gap :: rest) :
    ∃ first, gap = first + 1 ∧ gaps answers = first :: rest := by
  rw [gaps] at h
  cases hgaps : gaps answers with
  | nil => rw [hgaps] at h; cases h
  | cons first others =>
      rw [hgaps, List.modifyHead_cons] at h
      obtain ⟨rfl, rfl⟩ := List.cons.inj h
      exact ⟨first, rfl, rfl⟩

/-- **The first gap** is the number of failures in front of the first success, and the other gaps
are those behind it. -/
theorem exists_of_gaps_eq_cons (h : gaps answers = gap :: rest) :
    (∀ k < gap, answers[k]?.join = none) ∧
      (∃ value, answers[gap]? = some (some value)) ∧ gaps (answers.drop (gap + 1)) = rest := by
  induction answers generalizing gap with
  | nil => cases h
  | cons answer answers ih =>
      cases answer with
      | some value =>
          obtain ⟨rfl, rfl⟩ := List.cons.inj h
          exact ⟨fun k hk => absurd hk (Nat.not_lt_zero k), ⟨value, rfl⟩, rfl⟩
      | none =>
          obtain ⟨first, rfl, hgaps⟩ := exists_of_gaps_none h
          obtain ⟨hnone, hsome, hdrop⟩ := ih hgaps
          refine ⟨fun k hk => ?_, hsome, hdrop⟩
          cases k with
          | zero => rfl
          | succ k => exact hnone k (Nat.lt_of_succ_lt_succ hk)

/-- Without a gap there are failures only. -/
theorem join_of_gaps_eq_nil (h : gaps answers = []) (k : Nat) : answers[k]?.join = none := by
  induction answers generalizing k with
  | nil => rfl
  | cons answer answers ih =>
      cases answer with
      | some value => cases h
      | none =>
          rw [gaps, List.modifyHead_eq_nil_iff] at h
          cases k with
          | zero => rfl
          | succ k => exact ih h k

theorem failures_succ (h : gaps answers = gap :: rest) (count : Nat) :
    failures answers (count + 1) = gap + failures (answers.drop (gap + 1)) count := by
  rw [failures, failures, h, (exists_of_gaps_eq_cons h).2.2, List.take_succ_cons, List.sum_cons]

theorem inTime_zero (answers : List (Option α)) (limit : Nat) : InTime answers 0 limit :=
  ⟨Nat.zero_le _, by simp⟩

/-- **One success more comes in time** when its gap is small enough. -/
theorem inTime_succ_iff (h : gaps answers = gap :: rest) (count : Nat) :
    InTime answers (count + 1) limit ↔
      gap < limit ∧ InTime (answers.drop (gap + 1)) count limit := by
  rw [InTime, InTime, h, (exists_of_gaps_eq_cons h).2.2, List.take_succ_cons, List.length_cons,
    Nat.succ_le_succ_iff, List.forall_mem_cons]
  exact and_left_comm

end Gaps

/-! ## Moving on in a script -/

variable {s : Script} {gap : Nat} {rest : List Nat}

theorem later_later (s : Script) (r a w r' a' w' : Nat) :
    (s.later r a w).later r' a' w' = s.later (r + r') (a + a') (w + w') := by
  have hlatest : ((s.readings.drop r).take r').getLast?.getD
      ((s.readings.take r).getLast?.getD s.latest) =
        (s.readings.take (r + r')).getLast?.getD s.latest := by
    rw [List.take_add, List.getLast?_append]
    cases ((s.readings.drop r).take r').getLast? <;> rfl
  simp only [later, List.drop_drop, hlatest, Nat.add_assoc]

theorem after_after (s : Script) (pause successes failures successes' failures' : Nat) :
    (s.after pause successes failures).after pause successes' failures' =
      s.after pause (successes + successes') (failures + failures') := by
  have hreadings : failures + 2 * successes + (failures' + 2 * successes') =
      failures + failures' + 2 * (successes + successes') := by omega
  have hanswers : failures + successes + (failures' + successes') =
      failures + failures' + (successes + successes') := by omega
  rw [after, after, after, later_later, hreadings, hanswers, Nat.mul_add pause]

theorem showing_later (s : Script) (r a w count : Nat) :
    (s.later r a w).showing count = s.showing (r + count) := by
  have hlast : s.readings.getLast? =
      (s.readings.drop r).getLast?.or (s.readings.take r).getLast? := by
    rw [← List.getLast?_append, List.take_append_drop]
  simp only [showing, later, List.getD_eq_getElem?_getD, List.getElem?_drop, hlast]
  cases (s.readings.drop r).getLast? <;> rfl

theorem reply_later (s : Script) (r a w count : Nat) :
    (s.later r a w).reply count = s.reply (a + count) := by
  simp only [reply, later, List.getElem?_drop]

theorem showing_after_failure (s : Script) (pause count : Nat) :
    (s.after pause 0 1).showing count = s.showing (count + 1) := by
  rw [after, showing_later, Nat.add_comm count 1]

theorem reply_after_failure (s : Script) (pause count : Nat) :
    (s.after pause 0 1).reply count = s.reply (count + 1) := by
  rw [after, reply_later, Nat.add_comm count 1]

theorem exchangesFrom_later (s : Script) (r a w count : Nat)
    (answers : List (Option (Int64 × Int64))) :
    (s.later r a w).exchangesFrom count answers = s.exchangesFrom (r + count) answers := by
  induction answers generalizing count with
  | nil => rfl
  | cons answer answers ih =>
      cases answer with
      | none => exact ih (count + 1)
      | some pair =>
          rw [exchangesFrom, exchangesFrom, ih, showing_later, showing_later]
          rfl

/-- The first exchange is that of the first success, and the others are those behind it. -/
theorem exchangesFrom_of_gaps {answers : List (Option (Int64 × Int64))}
    (h : gaps answers = gap :: rest) (count : Nat) :
    ∃ received answered, answers[gap]?.join = some (received, answered) ∧
      s.exchangesFrom count answers =
        ⟨s.showing (count + gap), received, answered, s.showing (count + gap + 1)⟩ ::
          s.exchangesFrom (count + (gap + 2)) (answers.drop (gap + 1)) := by
  induction answers generalizing gap count with
  | nil => cases h
  | cons answer answers ih =>
      cases answer with
      | some pair =>
          obtain ⟨rfl, rfl⟩ := List.cons.inj h
          exact ⟨pair.1, pair.2, rfl, rfl⟩
      | none =>
          obtain ⟨first, rfl, hgaps⟩ := exists_of_gaps_none h
          obtain ⟨received, answered, hreply, hrest⟩ := ih hgaps (count + 1)
          refine ⟨received, answered, hreply, ?_⟩
          -- a failure takes one reading, so what follows is read from one further on
          have hfirst : count + 1 + first = count + (first + 1) := by omega
          have hothers : count + 1 + (first + 2) = count + (first + 1 + 2) := by omega
          rw [exchangesFrom, hrest, hfirst, hothers]
          rfl

/-- **The first exchange of a script**, and the script behind it. -/
theorem exists_exchanges_eq_cons (h : gaps s.answers = gap :: rest) (pause : Nat) :
    ∃ received answered, s.reply gap = some (received, answered) ∧
      s.exchanges = ⟨s.showing gap, received, answered, s.showing (gap + 1)⟩ ::
        (s.after pause 1 gap).exchanges := by
  obtain ⟨received, answered, hreply, hexchanges⟩ := exchangesFrom_of_gaps (s := s) h 0
  refine ⟨received, answered, hreply, ?_⟩
  rw [exchanges, hexchanges, exchanges, after, exchangesFrom_later, Nat.zero_add, Nat.zero_add,
    Nat.add_zero]
  rfl

theorem peer_reading (s : Script) (name : String) :
    (peer name).reading s = (.ok (s.showing 0), s.later 1 0 0) := by
  obtain ⟨readings, latest, answers, asked, waited⟩ := s
  cases readings <;> rfl

theorem peer_ask (s : Script) (name : String) :
    (peer name).ask s =
      (match s.reply 0 with
        | some pair => .ok pair
        | none => fail (.remote "no answer"), s.later 0 1 0) := by
  obtain ⟨readings, latest, answers, asked, waited⟩ := s
  cases answers <;> rfl

/-- The script behind a failure and the pause after it. -/
theorem peer_pause (s : Script) (name : String) (time : UInt64) :
    (peer name).pause time (s.later 1 1 0) = s.after time.toNat 0 1 := by
  rw [after, Nat.mul_one]
  rfl

end CriticalSection.Script
