import CriticalSection.Stamp
import CriticalSection.Clock

/-!
# The order of logical time

A clock that is not at its last time moves strictly forward, past its own time and past every time
it hears of. Stamps are ordered strictly and totally on different processes, so of two requests
exactly one has to wait for the other.
-/

set_option autoImplicit false

namespace CriticalSection

/-! ## Clocks -/

namespace Clock

theorem lt_add_one {t : UInt64} (h : t ≠ last) : t < t + 1 := by
  unfold last at h
  grind

/-- Below the last time a tick gives the next one. -/
theorem tick_of_ne_last {c : Clock} (h : c.time ≠ last) :
    c.tick = (.ok (c.time + 1), ⟨c.time + 1⟩) := by
  simp [tick, h]

/-- A clock never moves back when it hears of a time. -/
theorem le_observe (c : Clock) (heard : UInt64) : c.time ≤ (c.observe heard).time := by
  unfold observe last
  grind

/-- A clock that has heard of a time does not show an earlier one. -/
theorem heard_le_observe (c : Clock) (heard : UInt64) : heard ≤ (c.observe heard).time := by
  unfold observe last
  grind

/-- A clock that hears of a time moves at most one past the later of that time and its own. -/
theorem observe_le (c : Clock) (heard : UInt64) :
    (c.observe heard).time.toNat ≤ max c.time.toNat heard.toNat + 1 := by
  have hlater : (if c.time < heard then heard else c.time).toNat ≤
      max c.time.toNat heard.toNat := by
    split
    · exact Nat.le_max_right _ _
    · exact Nat.le_max_left _ _
  have hnext : ∀ t : UInt64, (if t = last then last else t + 1).toNat ≤ t.toNat + 1 := by
    intro t
    split
    · next hlast => exact hlast ▸ Nat.le_succ _
    · rw [UInt64.toNat_add]
      exact Nat.mod_le _ _
  exact Nat.le_trans (hnext _) (Nat.succ_le_succ hlater)

/-- A clock that has heard of a time is past the later of that time and its own, unless it stands at
the last time. -/
theorem lt_observe_of_le {c : Clock} {heard t : UInt64} (h : (c.observe heard).time ≠ last)
    (ht : t ≤ if c.time < heard then heard else c.time) : t < (c.observe heard).time := by
  have hlater : (if c.time < heard then heard else c.time) ≠ last := by
    intro heq
    exact h (by simp [observe, heq])
  have hlt := lt_add_one hlater
  simp only [observe, hlater, if_false]
  exact UInt64.lt_of_le_of_lt ht hlt

/-- **Hearing of a time** leaves the clock past it, unless it stands at the last time. -/
theorem lt_observe {c : Clock} {heard : UInt64} (h : (c.observe heard).time ≠ last) :
    heard < (c.observe heard).time :=
  lt_observe_of_le h (by grind)

/-- Hearing of a time moves a clock forward, unless it then stands at the last time. -/
theorem time_lt_observe {c : Clock} {heard : UInt64} (h : (c.observe heard).time ≠ last) :
    c.time < (c.observe heard).time :=
  lt_observe_of_le h (by grind)

end Clock

/-! ## Stamps -/

namespace Stamp

theorem precedes_iff {a b : Stamp} :
    a.precedes b = true ↔ a.time < b.time ∨ a.time = b.time ∧ a.process < b.process := by
  simp [precedes]

theorem precedes_of_time_lt {a b : Stamp} (h : a.time < b.time) : a.precedes b = true :=
  precedes_iff.mpr (Or.inl h)

theorem precedes_asymm {a b : Stamp} (h : a.precedes b = true) : b.precedes a = false := by
  rw [Bool.eq_false_iff]
  intro h'
  rw [precedes_iff] at h h'
  grind

theorem precedes_irrefl (a : Stamp) : a.precedes a = false := by
  rw [Bool.eq_false_iff]
  intro h
  rw [precedes_asymm h] at h
  exact absurd h (by decide)

theorem precedes_trans {a b c : Stamp} (hab : a.precedes b = true) (hbc : b.precedes c = true) :
    a.precedes c = true := by
  rw [precedes_iff] at *
  grind

/-- What a stamp precedes it also precedes at a later time. -/
theorem precedes_of_le {a b b' : Stamp} (h : a.precedes b = true) (htime : b.time ≤ b'.time)
    (hprocess : b'.process = b.process) : a.precedes b' = true := by
  rw [precedes_iff] at h ⊢
  grind

/-- **Of the stamps of two processes one precedes the other.** -/
theorem precedes_of_not {a b : Stamp} (hne : a.process ≠ b.process)
    (h : a.precedes b = false) : b.precedes a = true := by
  have h' : ¬ (a.time < b.time ∨ a.time = b.time ∧ a.process < b.process) := by
    rw [← precedes_iff, h]
    decide
  rw [precedes_iff]
  grind

end Stamp

end CriticalSection
