import CriticalSection.Proofs.Offset.Margin

/-!
# The best sample

Of some exchanges with a clock that is ahead by a constant, the first one whose ways took least
counts. What it says about the clock is wrong by half of the difference of its ways, so by no more
than half of their sum, which is its margin; and no other exchange has a smaller one.
-/

set_option autoImplicit false

namespace CriticalSection

/-! ## One exchange -/

namespace Exchange

variable {e : Exchange} {ahead : Int}

/-- The margin of an exchange is half of what both ways took. -/
theorem margin_sample (e : Exchange) (ahead : Int) :
    (e.sample ahead).margin = (e.there ahead + e.back ahead) / 2 := rfl

/-- The offset misses what the other clock is ahead by half of the difference of the ways. -/
theorem offset_sample_sub (e : Exchange) (ahead : Int) :
    (e.sample ahead).offset - ahead = (e.there ahead - e.back ahead) / 2 :=
  add_sub_cancel_left (ahead : Rat) _

/-- **The offset is wrong by no more than the margin.** -/
theorem Steady.abs_offset_sub_le (h : e.Steady ahead) :
    |(e.sample ahead).offset - ahead| ≤ (e.sample ahead).margin := by
  have hthere : (0 : Rat) ≤ e.there ahead := by exact_mod_cast h.there
  have hback : (0 : Rat) ≤ e.back ahead := by exact_mod_cast h.back
  rw [offset_sample_sub, margin_sample, abs_le]
  constructor <;> linarith

/-- **The offset is exact when both ways took equally long.** -/
theorem offset_sample_of_equal (h : e.there ahead = e.back ahead) :
    (e.sample ahead).offset = ahead := by
  have hzero : (e.sample ahead).offset - ahead = 0 := by
    rw [offset_sample_sub, h, sub_self, zero_div]
  exact sub_eq_zero.mp hzero

end Exchange

/-! ## The best of several -/

namespace Sample

variable {exchanges : List Exchange} {ahead : Int}

/-- A smaller delay is a smaller margin. -/
theorem margin_le_margin {s s' : Sample Rat} (h : s.delay ≤ s'.delay) : s.margin ≤ s'.margin := by
  show s.delay / 2 ≤ s'.delay / 2
  exact div_le_div_of_nonneg_right h (by decide)

/-- **The best sample is a sound estimate.** It is that of the first exchange with the smallest
delay, which is what the two ways of that exchange took; no sample has a smaller margin; and the
other clock is ahead by the offset, up to the margin, and exactly so when both ways took equally
long. -/
theorem best?_sound (hne : exchanges ≠ []) (hsteady : ∀ e ∈ exchanges, e.Steady ahead) :
    ∃ (samples : List (Sample Rat)) (best : Sample Rat) (place : Nat) (e : Exchange),
      exchanges.mapM ofExchange = .ok samples ∧ best? samples = some best ∧
      exchanges[place]? = some e ∧ samples[place]? = some best ∧
      (∀ sample ∈ samples, best.delay ≤ sample.delay) ∧
      (∀ sample ∈ samples.take place, best.delay < sample.delay) ∧
      best.delay = (e.there ahead + e.back ahead : Int) ∧
      (∀ sample ∈ samples, best.margin ≤ sample.margin) ∧
      |best.offset - ahead| ≤ best.margin ∧
      (e.there ahead = e.back ahead → best.offset = ahead) := by
  obtain ⟨best, hbest⟩ :=
    exists_best? (mt (List.map_eq_nil_iff (f := (·.sample ahead))).mp hne)
  obtain ⟨before, behind, hsplit, hbefore, -⟩ := best?_first hbest
  have hleast := (best?_least hbest).2
  have hplace : (exchanges.map (·.sample ahead))[before.length]? = some best := by
    rw [hsplit, List.getElem?_append_right (Nat.le_refl _), Nat.sub_self, List.getElem?_cons_zero]
  have hmade := hplace
  rw [List.getElem?_map, Option.map_eq_some_iff] at hmade
  obtain ⟨e, he, rfl⟩ := hmade
  have hst : e.Steady ahead := hsteady e (List.mem_of_getElem? he)
  refine ⟨exchanges.map (·.sample ahead), e.sample ahead, before.length, e,
    Estimate.mapM_ofExchange hsteady, hbest, he, hplace, hleast, ?_, e.delay_sample ahead,
    fun sample hsample => margin_le_margin (hleast sample hsample), hst.abs_offset_sub_le,
    Exchange.offset_sample_of_equal⟩
  intro sample hsample
  rw [hsplit, List.take_left] at hsample
  exact hbefore sample hsample

/-- Of three exchanges with a clock that is three milliseconds ahead, two of which took three
milliseconds, the second one counts. -/
theorem best?_sound_tied :
    [(⟨0, 7, 8, 11⟩ : Exchange), ⟨20, 24, 25, 24⟩, ⟨30, 35, 35, 33⟩] ≠ [] ∧
    (∀ e ∈ [(⟨0, 7, 8, 11⟩ : Exchange), ⟨20, 24, 25, 24⟩, ⟨30, 35, 35, 33⟩], e.Steady 3) ∧
    ∃ (samples : List (Sample Rat)) (best : Sample Rat) (place : Nat),
      [(⟨0, 7, 8, 11⟩ : Exchange), ⟨20, 24, 25, 24⟩, ⟨30, 35, 35, 33⟩].mapM ofExchange =
        .ok samples ∧
      best? samples = some best ∧ samples[place]? = some best ∧
      (∀ sample ∈ samples.take place, best.delay < sample.delay) ∧
      |best.offset - (3 : Int)| ≤ best.margin := by
  have hsteady : ∀ e ∈ [(⟨0, 7, 8, 11⟩ : Exchange), ⟨20, 24, 25, 24⟩, ⟨30, 35, 35, 33⟩],
      e.Steady 3 := by
    simp only [List.forall_mem_cons, List.not_mem_nil, false_implies, implies_true, and_true]
    exact ⟨⟨by decide, by decide, by decide, by decide⟩,
      ⟨by decide, by decide, by decide, by decide⟩,
      ⟨by decide, by decide, by decide, by decide⟩⟩
  refine ⟨List.cons_ne_nil _ _, hsteady, ?_⟩
  obtain ⟨samples, best, place, -, hsamples, hbest, -, hplace, -, hfirst, -, -, hwithin, -⟩ :=
    best?_sound (List.cons_ne_nil _ _) hsteady
  exact ⟨samples, best, place, hsamples, hbest, hplace, hfirst, hwithin⟩

end Sample

end CriticalSection
