import Mathlib.Data.List.Induction
import CriticalSection.Proofs.Log.Order

/-!
# Places among the records that are kept

When only some records of a log are kept, each of them moves to its place among these: as many
positions from the beginning as records are kept before it. The order of the records stays, and the
lines they had in the log can be listed.
-/

set_option autoImplicit false

namespace CriticalSection.Log

variable {log : Log} {keep : Event → Bool} {i j : Nat} {a b : Event}

/-- A record at a position parts a log into what is before it and what is behind. -/
theorem exists_append (h : log[i]? = some a) :
    ∃ front rest, log = front ++ a :: rest ∧ front.length = i := by
  obtain ⟨hi, rfl⟩ := List.getElem?_eq_some_iff.mp h
  refine ⟨log.take i, log.drop (i + 1), ?_, List.length_take_of_le (Nat.le_of_lt hi)⟩
  rw [← List.drop_eq_getElem_cons hi, List.take_append_drop]

/-! ## Places -/

/-- **The place of a position** among the records that are kept: how many of them come before
it. -/
def place (log : Log) (keep : Event → Bool) (i : Nat) : Nat := ((log.take i).filter keep).length

theorem place_append (rest : Log) (h : i ≤ log.length) :
    place (log ++ rest) keep i = log.place keep i := by
  rw [place, place, List.take_append_of_le_length h]

theorem place_length (log : Log) (keep : Event → Bool) :
    log.place keep log.length = (log.filter keep).length := by
  rw [place, List.take_length]

/-- In front of a record are those of the log before it. -/
theorem place_front (front : Log) (a : Event) (rest : Log) (keep : Event → Bool) :
    place (front ++ a :: rest) keep front.length = (front.filter keep).length := by
  rw [place_append _ (Nat.le_refl _), place_length]

theorem place_mono (log : Log) (keep : Event → Bool) (h : i ≤ j) :
    log.place keep i ≤ log.place keep j := by
  have hfront : (log.take i).Sublist (log.take j) := (List.take_prefix_take_left h).sublist
  exact (hfront.filter _).length_le

/-- **A record that is kept stands at its place.** -/
theorem getElem?_place (ha : log[i]? = some a) (hkeep : keep a = true) :
    (log.filter keep)[log.place keep i]? = some a := by
  obtain ⟨front, rest, rfl, rfl⟩ := exists_append ha
  rw [place_front, List.filter_append, List.filter_cons_of_pos hkeep]
  simp

/-- Behind a record that is kept the places are larger. -/
theorem place_lt (ha : log[i]? = some a) (hkeep : keep a = true) (hij : i < j) :
    log.place keep i < log.place keep j := by
  have hnext : log.place keep (i + 1) = log.place keep i + 1 := by
    have htake : log.take (i + 1) = log.take i ++ [a] := by
      rw [List.take_add_one, ha]
      rfl
    rw [place, htake, List.filter_append, List.filter_cons_of_pos hkeep, List.length_append]
    rfl
  have hle : log.place keep (i + 1) ≤ log.place keep j := place_mono log keep hij
  omega

/-- **Places keep the order** of the records that are kept. -/
theorem place_lt_iff (ha : log[i]? = some a) (hkeep : keep a = true) :
    log.place keep i < log.place keep j ↔ i < j := by
  refine ⟨fun hlt => ?_, place_lt ha hkeep⟩
  refine Nat.lt_of_not_le fun hle => ?_
  have := place_mono log keep hle
  omega

/-- **Whatever is kept** stands somewhere in the log, at that place. -/
theorem exists_of_getElem?_filter {k : Nat} (h : (log.filter keep)[k]? = some a) :
    ∃ i, log[i]? = some a ∧ keep a = true ∧ log.place keep i = k := by
  induction log using List.reverseRecOn with
  | nil => cases h
  | append_singleton log event ih =>
      rw [List.filter_append] at h
      rcases Nat.lt_or_ge k (log.filter keep).length with hlt | hge
      · rw [List.getElem?_append_left hlt] at h
        obtain ⟨i, hi, hkeep, hplace⟩ := ih h
        have hlog : i < log.length := (List.getElem?_eq_some_iff.mp hi).1
        refine ⟨i, ?_, hkeep, (place_append _ (Nat.le_of_lt hlog)).trans hplace⟩
        rw [List.getElem?_append_left hlog, hi]
      -- the record that was added is the only one beyond the others
      · rw [List.getElem?_append_right hge] at h
        by_cases hkeep : keep event = true
        · rw [List.filter_cons_of_pos hkeep, List.filter_nil, List.getElem?_singleton,
            Option.ite_none_right_eq_some] at h
          obtain ⟨hzero, heq⟩ := h
          obtain rfl := Option.some.inj heq
          refine ⟨log.length, by simp, hkeep, ?_⟩
          rw [place_append _ (Nat.le_refl _), place_length]
          omega
        · rw [List.filter_cons_of_neg hkeep] at h
          cases h

/-! ## Lines -/

/-- The lines of the records that are kept, in their order. -/
def lines (log : Log) (keep : Event → Bool) : List Nat :=
  ((log.zipIdx 1).filter fun numbered => keep numbered.1).map Prod.snd

/-- **The line in a log** of the record that is on a line of what is kept. -/
def line (log : Log) (keep : Event → Bool) (n : Nat) : Nat := (log.lines keep).getD (n - 1) 0

theorem length_lines (log : Log) (keep : Event → Bool) :
    (log.lines keep).length = (log.filter keep).length := by
  have hfst : ((log.zipIdx 1).map Prod.fst).filter keep = log.filter keep := by
    rw [List.zipIdx_map_fst]
  rw [← hfst, List.filter_map, lines, List.length_map, List.length_map]
  rfl

/-- **A record that is kept** has the line that is listed at its place. -/
theorem line_place (ha : log[i]? = some a) (hkeep : keep a = true) :
    log.line keep (log.place keep i + 1) = i + 1 := by
  obtain ⟨front, rest, rfl, rfl⟩ := exists_append ha
  have hlines : lines (front ++ a :: rest) keep = front.lines keep ++ (front.length + 1) ::
      (((rest.zipIdx (front.length + 2)).filter fun numbered => keep numbered.1).map Prod.snd) := by
    have hnumbered : ((a :: rest).zipIdx (1 + front.length)).filter (fun numbered =>
          keep numbered.1) = (a, front.length + 1) ::
        (rest.zipIdx (front.length + 2)).filter fun numbered => keep numbered.1 := by
      rw [List.zipIdx_cons, List.filter_cons, if_pos hkeep, Nat.add_comm 1]
    rw [lines, List.zipIdx_append, List.filter_append, List.map_append, hnumbered]
    rfl
  rw [line, place_front, hlines, Nat.add_sub_cancel, ← length_lines]
  simp

end CriticalSection.Log
