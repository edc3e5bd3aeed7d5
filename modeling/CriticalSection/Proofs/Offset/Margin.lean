import Mathlib.Algebra.Order.Floor.Ring
import Mathlib.Algebra.Order.Group.Unbundled.Abs
import Mathlib.Data.List.Induction
import Mathlib.Data.Rat.Floor
import Mathlib.Tactic.Linarith
import CriticalSection.Proofs.Log.Moving
import CriticalSection.Proofs.Table
import CriticalSection.Verifier.Margins

/-!
# How far moved times are from the true ones

A log is moved by the offset that was estimated, rounded to whole milliseconds. The offset is wrong
by half of what the question and the answer of the best exchange differ, which is at most half of
what they took together, the margin. Rounding can add half a millisecond to that. It goes beyond the
margin only when the answer took no time at all and the question an odd number of milliseconds; then
a common margin of that half millisecond more is needed.
-/

set_option autoImplicit false

namespace CriticalSection

theorem Quantity.toInt_clamp {n : Int}
    (h : Int64.minValue.toInt ≤ n ∧ n ≤ Int64.maxValue.toInt) : (clamp n).toInt = n := by
  rw [clamp, if_neg (by omega), if_neg (by omega)]
  exact Time.toInt_ofInt h

theorem Quantity.le_larger_iff {x y z : Rat} : x ≤ larger y z ↔ x ≤ y ∨ x ≤ z := by
  change x ≤ (if y < z then z else y) ↔ _
  split
  · next hlt => exact ⟨Or.inr, fun h => h.elim (fun h => h.trans hlt.le) id⟩
  · next hle => exact ⟨Or.inl, fun h => h.elim id fun h => h.trans (not_lt.mp hle)⟩

/-! ## Exchanges with a clock that is ahead by a constant -/

namespace Exchange

/-- How long the question took, when the other clock is ahead by so many milliseconds. -/
def there (e : Exchange) (ahead : Int) : Int := e.received.toInt - e.sent.toInt - ahead

/-- How long the answer took, when the other clock is ahead by so many milliseconds. -/
def back (e : Exchange) (ahead : Int) : Int := e.returned.toInt - e.answered.toInt + ahead

/-- **An exchange with a clock that is ahead by a constant**: neither the question nor the answer
arrives before it was sent, and the readings can be subtracted. -/
structure Steady (e : Exchange) (ahead : Int) : Prop where
  there : 0 ≤ e.there ahead
  back : 0 ≤ e.back ahead
  outbound : Time.difference? e.received e.sent ≠ none
  inbound : Time.difference? e.returned e.answered ≠ none

/-- What such an exchange tells: how long both ways took, and by how much the other clock is ahead,
up to half of the difference of the ways. -/
def sample (e : Exchange) (ahead : Int) : Sample Rat :=
  ⟨e.there ahead + e.back ahead, ahead + (e.there ahead - e.back ahead) / 2⟩

/-- By how much the offset is wrong once it is rounded: half of the difference of the ways, halves
up. -/
def slip (e : Exchange) (ahead : Int) : Int := (e.there ahead - e.back ahead + 1) / 2

variable {e : Exchange} {ahead : Int}

theorem delay_sample (e : Exchange) (ahead : Int) :
    (e.sample ahead).delay = (e.there ahead + e.back ahead : Int) := by
  rw [sample]
  push_cast
  rfl

theorem Steady.ofExchange (h : e.Steady ahead) :
    Sample.ofExchange e = .ok (e.sample ahead) := by
  obtain ⟨there, hthere⟩ := Option.ne_none_iff_exists'.mp h.outbound
  obtain ⟨back, hback⟩ := Option.ne_none_iff_exists'.mp h.inbound
  have hthere' : (there.toInt : Rat) = e.there ahead + ahead := by
    rw [Time.toInt_of_difference? hthere, Exchange.there]
    push_cast
    ring
  have hback' : (back.toInt : Rat) = e.back ahead - ahead := by
    rw [Time.toInt_of_difference? hback, Exchange.back]
    push_cast
    ring
  have hnonneg : (0 : Rat) ≤ e.there ahead + e.back ahead := by
    exact_mod_cast Int.add_nonneg h.there h.back
  have hdelay : (there.toInt : Rat) + back.toInt = e.there ahead + e.back ahead := by
    rw [hthere', hback']
    ring
  have hoffset : ((there.toInt : Rat) - back.toInt) / 2 =
      ahead + (e.there ahead - e.back ahead) / 2 := by
    rw [hthere', hback']
    ring
  -- nothing took less than no time, so the delay is not cut off
  have hlarger : Quantity.larger ((there.toInt : Rat) + back.toInt) (Quantity.ofInt 0) =
      e.there ahead + e.back ahead := by
    rw [hdelay]
    exact if_neg (not_lt.mpr hnonneg)
  unfold Sample.ofExchange
  rw [hthere, hback]
  exact congrArg Except.ok (congrArg₂ Sample.mk hlarger hoffset)

/-- **The offset is rounded** to the milliseconds the other clock is ahead, up to the slip. -/
theorem Steady.round_offset (h : e.Steady ahead) :
    (Quantity.round (e.sample ahead).offset).toInt = ahead + e.slip ahead := by
  have hfloor : ((e.sample ahead).offset + 1 / 2).floor = ahead + e.slip ahead := by
    have hle : 2 * e.slip ahead ≤ e.there ahead - e.back ahead + 1 := by
      unfold slip
      omega
    have hlt : e.there ahead - e.back ahead + 1 < 2 * e.slip ahead + 2 := by
      unfold slip
      omega
    have hle' : (2 : Rat) * e.slip ahead ≤ e.there ahead - e.back ahead + 1 := by exact_mod_cast hle
    have hlt' : (e.there ahead : Rat) - e.back ahead + 1 < 2 * e.slip ahead + 2 := by
      exact_mod_cast hlt
    change ⌊(e.sample ahead).offset + 1 / 2⌋ = _
    rw [Int.floor_eq_iff, sample]
    constructor <;> push_cast <;> linarith
  obtain ⟨there, hthere⟩ := Option.ne_none_iff_exists'.mp h.outbound
  obtain ⟨back, hback⟩ := Option.ne_none_iff_exists'.mp h.inbound
  have hthere' := Time.toInt_of_difference? hthere
  have hback' := Time.toInt_of_difference? hback
  have hnonneg := h.there
  have hnonneg' := h.back
  -- the ways bound the offset from both sides, so nothing is cut off here either
  have hrange : Int64.minValue.toInt ≤ ahead + e.slip ahead ∧
      ahead + e.slip ahead ≤ Int64.maxValue.toInt := by
    have := there.toInt_le
    have := back.toInt_le
    have hmin : Int64.minValue.toInt = -Int64.maxValue.toInt - 1 := by decide
    unfold slip Exchange.there Exchange.back at *
    omega
  have hround : Quantity.round (e.sample ahead).offset =
      Quantity.clamp ((e.sample ahead).offset + 1 / 2).floor := rfl
  rw [hround, hfloor, Quantity.toInt_clamp hrange]

/-- The slip is at most half a millisecond more than half of what the ways took. -/
theorem Steady.abs_slip_le (h : e.Steady ahead) :
    2 * |e.slip ahead| ≤ e.there ahead + e.back ahead + 1 := by
  have := h.there
  have := h.back
  rw [Int.abs_eq_natAbs, slip]
  omega

/-- **The slip stays within half of what the ways took** unless the answer took no time and the
question an odd number of milliseconds. -/
theorem Steady.abs_slip_le_iff (h : e.Steady ahead) :
    2 * |e.slip ahead| ≤ e.there ahead + e.back ahead ↔
      0 < e.back ahead ∨ 2 ∣ e.there ahead := by
  have := h.there
  have := h.back
  rw [Int.abs_eq_natAbs, slip]
  omega

/-- Otherwise it is half a millisecond more. -/
theorem Steady.abs_slip_eq (h : e.Steady ahead)
    (hodd : ¬ (0 < e.back ahead ∨ 2 ∣ e.there ahead)) :
    2 * |e.slip ahead| = e.there ahead + 1 := by
  have := h.there
  have := h.back
  rw [Int.abs_eq_natAbs, slip]
  omega

/-- The slip is at most half a millisecond more than a margin that is not below that of the
sample. -/
theorem Steady.abs_slip_le_larger (h : e.Steady ahead) (standard : Rat) :
    ((|e.slip ahead| : Int) : Rat) ≤ Quantity.larger (e.sample ahead).margin standard + 1 / 2 := by
  have hle : (2 : Rat) * (|e.slip ahead| : Int) ≤ (e.there ahead + e.back ahead : Int) + 1 := by
    exact_mod_cast h.abs_slip_le
  have hmargin : ((|e.slip ahead| : Int) : Rat) - 1 / 2 ≤ (e.sample ahead).margin := by
    change _ ≤ (e.sample ahead).delay / 2
    rw [delay_sample]
    linarith
  have := Quantity.le_larger_iff.mpr (Or.inl hmargin : _ ∨ _ ≤ standard)
  linarith

/-- **When the slip is within the margin**: half of what the ways took covers it, or the common
margin does. -/
theorem Steady.abs_slip_le_larger_iff (h : e.Steady ahead) (standard : Rat) :
    ((|e.slip ahead| : Int) : Rat) ≤ Quantity.larger (e.sample ahead).margin standard ↔
      0 < e.back ahead ∨ 2 ∣ e.there ahead ∨ e.there ahead + 1 ≤ 2 * standard := by
  have hmargin : ((|e.slip ahead| : Int) : Rat) ≤ (e.sample ahead).margin ↔
      0 < e.back ahead ∨ 2 ∣ e.there ahead := by
    rw [← h.abs_slip_le_iff]
    change _ ≤ (e.sample ahead).delay / 2 ↔ _
    rw [delay_sample, le_div_iff₀ (by decide)]
    norm_cast
    rw [mul_comm]
  rw [Quantity.le_larger_iff, hmargin, or_assoc.symm]
  refine or_congr_right' fun hodd => ?_
  have heq : (2 : Rat) * (|e.slip ahead| : Int) = e.there ahead + 1 := by
    exact_mod_cast h.abs_slip_eq hodd
  rw [← heq]
  constructor <;> intro hle <;> linarith

end Exchange

/-! ## The best sample -/

namespace Sample

/-- There is a best sample unless there is none at all. -/
theorem exists_best? {α : Type} [Quantity α] {samples : List (Sample α)} (h : samples ≠ []) :
    ∃ best, best? samples = some best := by
  cases samples with
  | nil => exact absurd rfl h
  | cons first rest => exact ⟨_, rfl⟩

/-- The best sample is one of them. -/
theorem best?_mem {α : Type} [Quantity α] {samples : List (Sample α)} {best : Sample α}
    (h : best? samples = some best) : best ∈ samples := by
  cases samples with
  | nil => cases h
  | cons first rest =>
      obtain rfl := Option.some.inj h
      clear h
      induction rest generalizing first with
      | nil => exact List.mem_cons_self
      | cons next rest ih =>
          rw [List.foldl_cons]
          rcases List.mem_cons.mp (ih (better first next)) with heq | hmem
          · rw [heq, better]
            split
            · exact List.mem_cons_of_mem _ List.mem_cons_self
            · exact List.mem_cons_self
          · exact List.mem_cons_of_mem _ (List.mem_cons_of_mem _ hmem)

/-- **The best of some samples** is the first one with the smallest delay: those before it have a
larger one, those behind it none that is smaller. -/
theorem best?_first {samples : List (Sample Rat)} {best : Sample Rat}
    (h : best? samples = some best) :
    ∃ before behind, samples = before ++ best :: behind ∧
      (∀ sample ∈ before, best.delay < sample.delay) ∧
      ∀ sample ∈ behind, best.delay ≤ sample.delay := by
  cases samples with
  | nil => cases h
  | cons first rest =>
      obtain rfl := Option.some.inj h
      clear h
      -- the samples are taken in from the front, so the last one is compared with the best so far
      induction rest using List.reverseRecOn with
      | nil => exact ⟨[], [], rfl, by simp, by simp⟩
      | append_singleton rest last ih =>
          obtain ⟨before, behind, hsplit, hbefore, hbehind⟩ := ih
          rw [List.foldl_append, List.foldl_cons, List.foldl_nil, ← List.cons_append]
          generalize rest.foldl better first = best at hsplit hbefore hbehind ⊢
          by_cases hless : last.delay < best.delay
          · have hlast : better best last = last := if_pos (decide_eq_true hless)
            rw [hlast]
            refine ⟨first :: rest, [], rfl, ?_, by simp⟩
            intro sample hsample
            rw [hsplit, List.mem_append, List.mem_cons] at hsample
            rcases hsample with hsample | rfl | hsample
            · exact hless.trans (hbefore sample hsample)
            · exact hless
            · exact lt_of_lt_of_le hless (hbehind sample hsample)
          · have hbest : better best last = best := if_neg (by simpa [Quantity.less] using hless)
            rw [hbest]
            refine ⟨before, behind ++ [last], ?_, hbefore, ?_⟩
            · rw [hsplit, List.append_assoc, List.cons_append]
            · intro sample hsample
              rcases List.mem_append.mp hsample with hsample | hsample
              · exact hbehind sample hsample
              · rw [List.mem_singleton.mp hsample]
                exact not_lt.mp hless

/-- It is one of them, and none has a smaller delay. -/
theorem best?_least {samples : List (Sample Rat)} {best : Sample Rat}
    (h : best? samples = some best) :
    best ∈ samples ∧ ∀ sample ∈ samples, best.delay ≤ sample.delay := by
  obtain ⟨before, behind, rfl, hbefore, hbehind⟩ := best?_first h
  refine ⟨List.mem_append_cons_self, ?_⟩
  intro sample hsample
  rcases List.mem_append.mp hsample with hsample | hsample
  · exact (hbefore sample hsample).le
  · rcases List.mem_cons.mp hsample with rfl | hsample
    · exact le_rfl
    · exact hbehind sample hsample

end Sample

/-! ## Margins and moved logs -/

section Margins

variable {α : Type} [Quantity α] {standard : α} {p : ProcessId} {estimate : Estimate α}

/-- When all estimates of a process are the same, taking them in gives it the margin of the
estimate, whatever else is taken in. -/
theorem Margins.own_foldl {estimates : List (ProcessId × Estimate α)} {m : Margins α}
    (hsame : ∀ other, (p, other) ∈ estimates → other = estimate)
    (h : (p, estimate) ∈ estimates ∨
      m.own[p]? = some (Quantity.larger estimate.margin standard)) :
    (estimates.foldl (fun m (process, estimate) =>
        m.set process (Quantity.larger estimate.margin standard)) m).own[p]? =
      some (Quantity.larger estimate.margin standard) := by
  induction estimates generalizing m with
  | nil => exact h.resolve_left List.not_mem_nil
  | cons entry rest ih =>
      obtain ⟨q, other⟩ := entry
      rw [List.foldl_cons]
      refine ih (fun other hother => hsame other (List.mem_cons_of_mem _ hother)) ?_
      unfold set
      rw [Table.getElem?_insert]
      by_cases hq : p = q
      · subst hq
        right
        rw [if_pos rfl, hsame other List.mem_cons_self]
      · rw [if_neg hq]
        refine h.imp_left fun hmem => ?_
        rcases List.mem_cons.mp hmem with heq | hmem
        · exact absurd (congrArg Prod.fst heq) hq
        · exact hmem

/-- **The margin of a process** whose estimates are all the same is that of the estimate, or the
common one. -/
theorem Margins.get_ofEstimates {estimates : List (ProcessId × Estimate α)}
    (hmem : (p, estimate) ∈ estimates)
    (hsame : ∀ other, (p, other) ∈ estimates → other = estimate) :
    (ofEstimates standard estimates).get p = Quantity.larger estimate.margin standard := by
  rw [get, Std.TreeMap.getD_eq_getD_getElem?, ofEstimates, own_foldl hsame (Or.inl hmem)]
  rfl

end Margins

/-- **How far a moved time is from the true one**, when the true clock is ahead by so many
milliseconds. -/
def Event.deviation (event moved : Event) (ahead : Int) : Rat :=
  |(moved.time.toInt : Rat) - (event.time.toInt + ahead)|

namespace Estimate

/-- **The estimate from some exchanges**: each gives a sample, and the best one counts. -/
def ofExchanges (reference : String) (exchanges : List Exchange) : Outcome (Estimate Rat) := do
  let samples ← exchanges.mapM Sample.ofExchange
  Sampling.summarize reference samples

variable {exchanges : List Exchange} {ahead : Int}

/-- Exchanges with a clock that is ahead by a constant have samples. -/
theorem mapM_ofExchange (hsteady : ∀ e ∈ exchanges, e.Steady ahead) :
    exchanges.mapM Sample.ofExchange = (.ok (exchanges.map (·.sample ahead)) :
      Outcome (List (Sample Rat))) := by
  induction exchanges with
  | nil => rfl
  | cons e rest ih =>
      rw [List.mapM_cons, (hsteady e List.mem_cons_self).ofExchange,
        ih fun e he => hsteady e (List.mem_cons_of_mem _ he)]
      rfl

/-- **The estimate is that of an exchange** whose ways took least. -/
theorem exists_ofExchanges (reference : String) (hne : exchanges ≠ [])
    (hsteady : ∀ e ∈ exchanges, e.Steady ahead) :
    ∃ estimate, ofExchanges reference exchanges = .ok estimate ∧
      ∃ e ∈ exchanges, estimate.best = e.sample ahead ∧ ∀ e' ∈ exchanges,
        e.there ahead + e.back ahead ≤ e'.there ahead + e'.back ahead := by
  obtain ⟨best, hbest⟩ :=
    Sample.exists_best? (mt (List.map_eq_nil_iff (f := (·.sample ahead))).mp hne)
  obtain ⟨hmem, hleast⟩ := Sample.best?_least hbest
  obtain ⟨e, he, rfl⟩ := List.mem_map.mp hmem
  refine ⟨⟨reference, e.sample ahead, exchanges.map (·.sample ahead)⟩, ?_, e, he, rfl, ?_⟩
  · rw [ofExchanges, mapM_ofExchange hsteady]
    change Sampling.summarize reference (exchanges.map (·.sample ahead)) = _
    rw [Sampling.summarize, hbest]
  · intro e' he'
    have hle := hleast _ (List.mem_map_of_mem he')
    rw [Exchange.delay_sample, Exchange.delay_sample] at hle
    exact_mod_cast hle

/-- **A moved time is within half a millisecond more than the margin**, and within the margin unless
the best exchange had an answer that took no time and a question that took an odd number of
milliseconds, while the common margin does not cover the half millisecond that rounding adds. -/
theorem moved_within (reference : String) (standard : Rat) (hne : exchanges ≠ [])
    (hsteady : ∀ e ∈ exchanges, e.Steady ahead) :
    ∃ estimate, ofExchanges reference exchanges = .ok estimate ∧
      ∃ e ∈ exchanges, estimate.best = e.sample ahead ∧
        (∀ e' ∈ exchanges, e.there ahead + e.back ahead ≤ e'.there ahead + e'.back ahead) ∧
        ∀ (p : ProcessId) (estimates : List (ProcessId × Estimate Rat)),
          (p, estimate) ∈ estimates → (∀ other, (p, other) ∈ estimates → other = estimate) →
          ∀ log : Log, (∀ event ∈ log,
              Time.sum? event.time (Quantity.round estimate.offset) ≠ none) →
            ∃ moved, log.shift (Quantity.round estimate.offset) = .ok moved ∧
              List.Forall₂ (fun event event' =>
                event' = { event with time := event'.time } ∧
                event.deviation event' ahead ≤
                  (Margins.ofEstimates standard estimates).get p + 1 / 2 ∧
                (event.deviation event' ahead ≤ (Margins.ofEstimates standard estimates).get p ↔
                  0 < e.back ahead ∨ 2 ∣ e.there ahead ∨ e.there ahead + 1 ≤ 2 * standard))
                log moved := by
  obtain ⟨estimate, hestimate, e, he, hbest, hleast⟩ := exists_ofExchanges reference hne hsteady
  refine ⟨estimate, hestimate, e, he, hbest, hleast, fun p estimates hmem hsame log hlog => ?_⟩
  obtain ⟨moved, hmoved, hrest⟩ := Log.exists_shift hlog
  refine ⟨moved, hmoved, hrest.imp fun event event' hevent => ⟨hevent.1, ?_⟩⟩
  have hst := hsteady e he
  have hmargin : estimate.margin = (e.sample ahead).margin := by
    rw [margin, hbest]
  have hdeviation : event.deviation event' ahead = (|e.slip ahead| : Int) := by
    have htime : (event'.time.toInt : Rat) = event.time.toInt + (ahead + e.slip ahead) := by
      rw [hevent.2, offset, hbest, hst.round_offset]
      push_cast
      ring
    rw [Event.deviation, htime]
    push_cast
    congr 1
    ring
  rw [hdeviation, Margins.get_ofEstimates hmem hsame, hmargin]
  exact ⟨hst.abs_slip_le_larger standard, hst.abs_slip_le_larger_iff standard⟩

/-- Of two exchanges with a clock that is three milliseconds ahead the second one counts. -/
theorem moved_within_two :
    [(⟨0, 7, 8, 11⟩ : Exchange), ⟨20, 24, 25, 24⟩] ≠ [] ∧
    (∀ e ∈ [(⟨0, 7, 8, 11⟩ : Exchange), ⟨20, 24, 25, 24⟩], e.Steady 3) ∧
    ∃ (estimate : Estimate Rat) (moved : Log),
      ofExchanges "A" [⟨0, 7, 8, 11⟩, ⟨20, 24, 25, 24⟩] = .ok estimate ∧
      Log.shift [⟨"P1", .enter, 30⟩] (Quantity.round estimate.offset) = .ok moved ∧
      List.Forall₂ (fun event event' : Event => event.deviation event' 3 ≤
        (Margins.ofEstimates 2 [("P1", estimate)]).get "P1" + 1 / 2)
        [⟨"P1", .enter, 30⟩] moved := by
  have hsteady : ∀ e ∈ [(⟨0, 7, 8, 11⟩ : Exchange), ⟨20, 24, 25, 24⟩], e.Steady 3 := by
    simp only [List.forall_mem_cons, List.not_mem_nil, false_implies, implies_true, and_true]
    exact ⟨⟨by decide, by decide, by decide, by decide⟩,
      ⟨by decide, by decide, by decide, by decide⟩⟩
  refine ⟨List.cons_ne_nil _ _, hsteady, ?_⟩
  obtain ⟨estimate, hestimate, e, he, hbest, -, hrest⟩ :=
    moved_within "A" 2 (List.cons_ne_nil _ _) hsteady
  have hrange : ∀ event ∈ [(⟨"P1", .enter, 30⟩ : Event)],
      Time.sum? event.time (Quantity.round estimate.offset) ≠ none := by
    rw [offset, hbest]
    simp only [List.mem_cons, List.not_mem_nil, or_false] at he
    rcases he with rfl | rfl
    · decide +kernel
    · decide +kernel
  obtain ⟨moved, hmoved, hwithin⟩ := hrest "P1" [("P1", estimate)] List.mem_cons_self
    (fun other hother => by simpa using hother) _ hrange
  exact ⟨estimate, moved, hestimate, hmoved, hwithin.imp fun event event' h => h.2.1⟩

/-- **A moved time can miss the margin**: a question that took five milliseconds with an answer that
took none makes an offset of two and a half, which is rounded to three. -/
theorem not_moved_within : ¬ ∀ (exchanges : List Exchange) (ahead : Int) (reference : String)
    (standard : Rat) (estimate : Estimate Rat) (p : ProcessId) (log moved : Log),
    exchanges ≠ [] → (∀ e ∈ exchanges, e.Steady ahead) → 0 ≤ standard →
    ofExchanges reference exchanges = .ok estimate →
    log.shift (Quantity.round estimate.offset) = .ok moved →
    List.Forall₂ (fun event event' => event.deviation event' ahead ≤
      (Margins.ofEstimates standard [(p, estimate)]).get p) log moved := by
  intro h
  have hsteady : ∀ e ∈ [(⟨0, 5, 5, 5⟩ : Exchange)], e.Steady 0 := by
    simp only [List.forall_mem_cons, List.not_mem_nil, false_implies, implies_true, and_true]
    exact ⟨by decide, by decide, by decide, by decide⟩
  have hwithin := h [⟨0, 5, 5, 5⟩] 0 "A" 2 ⟨"A", ⟨5, 5 / 2⟩, [⟨5, 5 / 2⟩]⟩ "P1"
    [⟨"P1", .enter, 0⟩] [⟨"P1", .enter, 3⟩] (List.cons_ne_nil _ _) hsteady (by decide)
    (by decide +kernel) (by decide +kernel)
  rw [Margins.get_ofEstimates List.mem_cons_self fun other hother => by
    simpa using hother] at hwithin
  revert hwithin
  simp only [List.forall₂_cons]
  decide +kernel

end Estimate

end CriticalSection
