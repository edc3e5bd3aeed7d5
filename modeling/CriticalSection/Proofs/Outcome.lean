import Mathlib.Data.List.Forall2
import CriticalSection.Error

/-!
# Outcomes of a number of computations

Computations that are carried out one after the other have a result when each of them has one.
Otherwise the first one without a result decides why there is none.
-/

set_option autoImplicit false

namespace CriticalSection.Outcome

variable {β γ : Type} {f : β → Outcome γ}

/-- What comes of a computation in front of others. -/
theorem mapM_cons_of_ok {b : β} {c : γ} (h : f b = .ok c) (l : List β) :
    (b :: l).mapM f = (l.mapM f).map (c :: ·) := by
  rw [List.mapM_cons, h]
  cases l.mapM f <;> rfl

theorem mapM_cons_of_error {b : β} {fault : Fault} (h : f b = .error fault) (l : List β) :
    (b :: l).mapM f = .error fault := by
  rw [List.mapM_cons, h]
  rfl

/-- **All results together** are those of the computations, one by one. -/
theorem mapM_eq_ok_iff {l : List β} {l' : List γ} :
    l.mapM f = .ok l' ↔ List.Forall₂ (fun b c => f b = .ok c) l l' := by
  induction l generalizing l' with
  | nil =>
      constructor
      · intro h
        obtain rfl := Except.ok.inj h
        exact .nil
      · rintro ⟨⟩
        rfl
  | cons b l ih =>
      cases hb : f b with
      | error fault =>
          rw [mapM_cons_of_error hb]
          constructor
          · intro h
            cases h
          · rintro (_ | ⟨hb', -⟩)
            rw [hb] at hb'
            cases hb'
      | ok c =>
          rw [mapM_cons_of_ok hb]
          constructor
          · intro h
            cases hl : l.mapM f with
            | error fault => rw [hl] at h; cases h
            | ok rest =>
                rw [hl] at h
                obtain rfl := Except.ok.inj h
                exact .cons hb (ih.mp hl)
          · rintro (_ | ⟨hb', hrest⟩)
            obtain rfl := Except.ok.inj (hb.symm.trans hb')
            rw [ih.mpr hrest]
            rfl

/-- **The first computation without a result** decides why there are none. -/
theorem mapM_eq_error_iff {l : List β} {fault : Fault} :
    l.mapM f = .error fault ↔ ∃ before b behind, l = before ++ b :: behind ∧
      (∀ a ∈ before, ∃ c, f a = .ok c) ∧ f b = .error fault := by
  induction l with
  | nil =>
      constructor
      · intro h
        cases h
      · rintro ⟨before, b, behind, hl, -⟩
        exact absurd hl.symm (List.append_ne_nil_of_right_ne_nil _ (List.cons_ne_nil _ _))
  | cons a l ih =>
      cases ha : f a with
      | error cause =>
          rw [mapM_cons_of_error ha]
          constructor
          · intro h
            exact ⟨[], a, l, rfl, by simp, by rw [ha, Except.error.inj h]⟩
          · rintro ⟨before, b, behind, hl, hbefore, hb⟩
            cases before with
            | nil =>
                obtain ⟨rfl, -⟩ := List.cons.inj hl
                rw [Except.error.inj (ha.symm.trans hb)]
            | cons first before =>
                obtain ⟨rfl, -⟩ := List.cons.inj hl
                obtain ⟨c, hc⟩ := hbefore a List.mem_cons_self
                rw [ha] at hc
                cases hc
      | ok c =>
          have hrest : (a :: l).mapM f = .error fault ↔ l.mapM f = .error fault := by
            rw [mapM_cons_of_ok ha]
            cases l.mapM f with
            | error cause => exact Iff.rfl
            | ok rest => exact iff_of_false (by rintro ⟨⟩) (by rintro ⟨⟩)
          rw [hrest, ih]
          constructor
          · rintro ⟨before, b, behind, rfl, hbefore, hb⟩
            exact ⟨a :: before, b, behind, rfl, List.forall_mem_cons.mpr ⟨⟨c, ha⟩, hbefore⟩, hb⟩
          · rintro ⟨before, b, behind, hl, hbefore, hb⟩
            cases before with
            | nil =>
                obtain ⟨rfl, -⟩ := List.cons.inj hl
                rw [ha] at hb
                cases hb
            | cons first before =>
                obtain ⟨rfl, rfl⟩ := List.cons.inj hl
                exact ⟨before, b, behind, rfl, (List.forall_mem_cons.mp hbefore).2, hb⟩

end CriticalSection.Outcome
