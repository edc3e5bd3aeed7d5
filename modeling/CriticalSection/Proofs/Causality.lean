import Mathlib.Logic.Function.Basic
import Mathlib.Logic.Relation
import CriticalSection.Proofs.Order

/-!
# The clock condition

Some processes have a clock each. Whatever happens to a process moves its clock and gets the time
that the clock shows then: something of its own, the sending of a message, which carries that time,
or the receipt of a message that was sent before. Messages may be lost, received more than once, and
received in another order than that in which they were sent.

One happening **precedes** another one if it came earlier to the same process, or sent the message
that the other one received, or by a chain of these. As long as no clock reaches the last time,
whatever precedes has the smaller time.
-/

set_option autoImplicit false

namespace CriticalSection

/-! ## Histories -/

/-- **What happens to a process**: something of its own, or it sends a message, or it receives one,
which is named by the number of the happening that sent it. -/
inductive Happening (ι : Type)
  | bump (process : ι)
  | send (process : ι)
  | receive (process : ι) (sent : Nat)
  deriving DecidableEq, Repr

/-- The process to which something happens. -/
def Happening.process {ι : Type} : Happening ι → ι
  | bump p | send p | receive p _ => p

/-- **A history**: the clocks of all processes, and what has happened, with the time it got. -/
structure History (ι : Type) where
  clocks : ι → Clock
  entries : List (Happening ι × Outcome UInt64)

namespace History

variable {ι : Type}

/-- Nothing has happened yet. -/
def start : History ι := ⟨fun _ => .initial, []⟩

/-- What happened under a number. -/
def happening? (x : History ι) (n : Nat) : Option (Happening ι) := (x.entries[n]?).map Prod.fst

/-- The time that the happening under a number got. -/
def time? (x : History ι) (n : Nat) : Option (Outcome UInt64) := (x.entries[n]?).map Prod.snd

/-- The time that a message carries, if it was sent. -/
def carried? (x : History ι) (sent : Nat) : Option UInt64 :=
  match x.entries[sent]? with
  | some (.send _, .ok time) => some time
  | _ => none

/-- One happening more, at which the clock of its process moves. -/
def record [DecidableEq ι] (x : History ι) (happening : Happening ι)
    (moved : Outcome UInt64 × Clock) : History ι :=
  ⟨Function.update x.clocks happening.process moved.2, x.entries ++ [(happening, moved.1)]⟩

/-- **Something happens.** What was not sent cannot be received. -/
def step? [DecidableEq ι] (x : History ι) : Happening ι → Option (History ι)
  | .bump p => some (x.record (.bump p) (x.clocks p).tick)
  | .send p => some (x.record (.send p) (x.clocks p).tick)
  | .receive p sent => (x.carried? sent).map fun time =>
      let clock := (x.clocks p).observe time
      x.record (.receive p sent) (.ok clock.time, clock)

/-- **Histories in which no clock reaches the last time.** -/
inductive Reached [DecidableEq ι] : History ι → Prop
  | start : Reached start
  | step {x y : History ι} (reached : Reached x) (happening : Happening ι)
      (hstep : x.step? happening = some y) (hlast : ∀ p, (y.clocks p).time ≠ Clock.last) :
      Reached y

/-- **What leads to what directly**: anything to what comes later to the same process, and the
sending of a message to its receipt. -/
inductive Leads (x : History ι) : Nat → Nat → Prop
  | later {m n : Nat} {a b : Happening ι} (ha : x.happening? m = some a)
      (hb : x.happening? n = some b) (hlt : m < n) (hprocess : a.process = b.process) : Leads x m n
  | message {m n : Nat} {p q : ι} (hsend : x.happening? m = some (.send p))
      (hreceive : x.happening? n = some (.receive q m)) : Leads x m n

/-- **What precedes what**: it leads there, directly or over others. -/
def Precedes (x : History ι) : Nat → Nat → Prop := Relation.TransGen x.Leads

/-- Two happenings got times, the first one the smaller. -/
def Increases (x : History ι) (m n : Nat) : Prop :=
  ∃ s t, x.time? m = some (.ok s) ∧ x.time? n = some (.ok t) ∧ s < t

/-! ## One happening -/

section Step

variable {x y : History ι} {m n : Nat}

theorem getElem?_of_happening? {a : Happening ι} (h : x.happening? n = some a) :
    ∃ outcome, x.entries[n]? = some (a, outcome) := by
  obtain ⟨⟨b, outcome⟩, hentry, heq⟩ := Option.map_eq_some_iff.mp h
  exact ⟨outcome, by rw [hentry, ← heq]⟩

theorem getElem?_of_carried? {time : UInt64} (h : x.carried? n = some time) :
    ∃ p, x.entries[n]? = some (.send p, .ok time) := by
  unfold carried? at h
  split at h
  · next p time' hentry =>
      obtain rfl := Option.some.inj h
      exact ⟨p, hentry⟩
  · cases h

theorem Increases.trans {k : Nat} (h : x.Increases m n) (h' : x.Increases n k) :
    x.Increases m k := by
  obtain ⟨s, t, hs, ht, hst⟩ := h
  obtain ⟨t', u, ht', hu, htu⟩ := h'
  have heq : t = t' := Except.ok.inj (Option.some.inj (ht.symm.trans ht'))
  subst heq
  exact ⟨s, u, hs, hu, UInt64.lt_trans hst htu⟩

variable [DecidableEq ι]

/-- **What a happening does.** Unless a clock is at the last time before or after it, the clock of
its process moves forward to the time it gets, past the time of the message that is received. -/
theorem step_cases {happening : Happening ι} (hstep : x.step? happening = some y)
    (hbefore : ∀ p, (x.clocks p).time ≠ Clock.last)
    (hafter : ∀ p, (y.clocks p).time ≠ Clock.last) :
    ∃ time, y = x.record happening (.ok time, ⟨time⟩) ∧
      (x.clocks happening.process).time < time ∧
      ∀ q sent, happening = .receive q sent →
        ∃ carried, x.carried? sent = some carried ∧ carried < time := by
  have htick : ∀ p, (x.clocks p).tick =
      (.ok ((x.clocks p).time + 1), ⟨(x.clocks p).time + 1⟩) :=
    fun p => Clock.tick_of_ne_last (hbefore p)
  cases happening with
  | bump p =>
      obtain rfl := Option.some.inj hstep
      refine ⟨(x.clocks p).time + 1, ?_, Clock.lt_add_one (hbefore p), by simp⟩
      rw [htick]
  | send p =>
      obtain rfl := Option.some.inj hstep
      refine ⟨(x.clocks p).time + 1, ?_, Clock.lt_add_one (hbefore p), by simp⟩
      rw [htick]
  | receive p sent =>
      obtain ⟨carried, hcarried, rfl⟩ := Option.map_eq_some_iff.mp hstep
      have hlast : ((x.clocks p).observe carried).time ≠ Clock.last := by
        simpa [record, Happening.process] using hafter p
      refine ⟨_, rfl, Clock.time_lt_observe hlast, ?_⟩
      intro q sent' heq
      obtain ⟨rfl, rfl⟩ := Happening.receive.inj heq
      exact ⟨carried, hcarried, Clock.lt_observe hlast⟩

end Step

/-! ## Histories that are reached -/

/-- **A sound history.** -/
structure Sound (x : History ι) : Prop where
  running : ∀ p, (x.clocks p).time ≠ Clock.last
  /-- Everything that has happened has got a time, and no clock is behind those of its process. -/
  timed : ∀ (n : Nat) (a : Happening ι) (outcome : Outcome UInt64),
    x.entries[n]? = some (a, outcome) →
    ∃ time, outcome = .ok time ∧ time ≤ (x.clocks a.process).time
  /-- What is received was sent before. -/
  sent : ∀ m n q, x.happening? n = some (.receive q m) → m < n
  increases : ∀ m n, x.Leads m n → x.Increases m n

theorem sound_start : (start : History ι).Sound := by
  refine ⟨?_, ?_, ?_, ?_⟩
  · intro p
    show Clock.initial.time ≠ Clock.last
    decide
  · intro n a outcome h
    cases h
  · intro m n q h
    cases h
  · intro m n h
    cases h with
    | later ha => cases ha
    | message hsend => cases hsend

section Record

variable [DecidableEq ι] {x : History ι} {happening : Happening ι} {time : UInt64}

/-- What has happened keeps its number. -/
theorem getElem?_record_of_lt {n : Nat} (hn : n < x.entries.length) :
    (x.record happening (.ok time, ⟨time⟩)).entries[n]? = x.entries[n]? :=
  List.getElem?_append_left hn

/-- An entry of a history that goes on is one of those before, or the last one. -/
theorem getElem?_record {n : Nat} {entry : Happening ι × Outcome UInt64}
    (h : (x.record happening (.ok time, ⟨time⟩)).entries[n]? = some entry) :
    x.entries[n]? = some entry ∨ n = x.entries.length ∧ entry = (happening, .ok time) := by
  rcases Nat.lt_or_ge n x.entries.length with hlt | hge
  · left
    rwa [getElem?_record_of_lt hlt] at h
  · right
    rw [record, List.getElem?_append_right hge, List.getElem?_singleton,
      Option.ite_none_right_eq_some] at h
    obtain ⟨hzero, heq⟩ := h
    exact ⟨by omega, (Option.some.inj heq).symm⟩

theorem getElem?_record_of_some {n : Nat} {entry : Happening ι × Outcome UInt64}
    (h : x.entries[n]? = some entry) :
    (x.record happening (.ok time, ⟨time⟩)).entries[n]? = some entry := by
  rw [getElem?_record_of_lt (List.getElem?_eq_some_iff.mp h).1, h]

/-- Nothing that happens later leads from one earlier happening to another. -/
theorem Leads.of_record {m n : Nat} (h : (x.record happening (.ok time, ⟨time⟩)).Leads m n)
    (hm : m < x.entries.length) (hn : n < x.entries.length) : x.Leads m n := by
  cases h with
  | later ha hb hlt hprocess =>
      rw [happening?, getElem?_record_of_lt hm] at ha
      rw [happening?, getElem?_record_of_lt hn] at hb
      exact .later ha hb hlt hprocess
  | message hsend hreceive =>
      rw [happening?, getElem?_record_of_lt hm] at hsend
      rw [happening?, getElem?_record_of_lt hn] at hreceive
      exact .message hsend hreceive

/-- **What leads to the last happening has a smaller time.** -/
theorem Sound.increases_last (h : x.Sound) (htime : (x.clocks happening.process).time < time)
    (hmessage : ∀ q sent, happening = .receive q sent →
      ∃ carried, x.carried? sent = some carried ∧ carried < time) {m : Nat}
    (hleads : (x.record happening (.ok time, ⟨time⟩)).Leads m x.entries.length) :
    (x.record happening (.ok time, ⟨time⟩)).Increases m x.entries.length := by
  have hlast : (x.record happening (.ok time, ⟨time⟩)).entries[x.entries.length]? =
      some (happening, .ok time) := by
    simp [record]
  -- It is enough that something stands under the first number with a smaller time.
  have hsmaller : ∀ a s, x.entries[m]? = some (a, .ok s) → s < time →
      (x.record happening (.ok time, ⟨time⟩)).Increases m x.entries.length := by
    intro a s hentry hlt
    refine ⟨s, time, ?_, ?_, hlt⟩
    · rw [time?, getElem?_record_of_some hentry]
      rfl
    · rw [time?, hlast]
      rfl
  cases hleads with
  | @later a b ha hb hlt hprocess =>
      obtain ⟨outcome, hentry⟩ := getElem?_of_happening? ha
      rw [happening?, hlast] at hb
      obtain rfl : happening = b := Option.some.inj hb
      rcases getElem?_record hentry with hold | ⟨hlength, -⟩
      · obtain ⟨s, rfl, hle⟩ := h.timed m a outcome hold
        rw [hprocess] at hle
        exact hsmaller a s hold (UInt64.lt_of_le_of_lt hle htime)
      · omega
  | @message p q hsend hreceive =>
      rw [happening?, hlast] at hreceive
      obtain ⟨carried, hcarried, hlt⟩ := hmessage q m (Option.some.inj hreceive)
      obtain ⟨p', hentry⟩ := getElem?_of_carried? hcarried
      exact hsmaller _ carried hentry hlt

/-- **A happening keeps a history sound** if it moves the clock of its process forward, past the
time of the message that is received. -/
theorem Sound.record (h : x.Sound) (htime : (x.clocks happening.process).time < time)
    (hmessage : ∀ q sent, happening = .receive q sent →
      ∃ carried, x.carried? sent = some carried ∧ carried < time)
    (hlast : ∀ p, ((x.record happening (.ok time, ⟨time⟩)).clocks p).time ≠ Clock.last) :
    (x.record happening (.ok time, ⟨time⟩)).Sound := by
  have hsent : ∀ m n q, (x.record happening (.ok time, ⟨time⟩)).happening? n =
      some (.receive q m) → m < n := by
    intro m n q hreceive
    obtain ⟨outcome, hentry⟩ := getElem?_of_happening? hreceive
    rcases getElem?_record hentry with hold | ⟨rfl, heq⟩
    · exact h.sent m n q (by rw [happening?, hold]; rfl)
    · obtain ⟨carried, hcarried, -⟩ := hmessage q m (Prod.mk.inj heq).1.symm
      obtain ⟨p, hsend⟩ := getElem?_of_carried? hcarried
      exact (List.getElem?_eq_some_iff.mp hsend).1
  refine ⟨hlast, ?_, hsent, ?_⟩
  · intro n a outcome hentry
    show ∃ t, outcome = .ok t ∧
      t ≤ (Function.update x.clocks happening.process ⟨time⟩ a.process).time
    rcases getElem?_record hentry with hold | ⟨-, heq⟩
    · obtain ⟨t, rfl, hle⟩ := h.timed n a outcome hold
      refine ⟨t, rfl, ?_⟩
      by_cases hprocess : a.process = happening.process
      · rw [hprocess, Function.update_self]
        rw [hprocess] at hle
        exact UInt64.le_of_lt (UInt64.lt_of_le_of_lt hle htime)
      · rw [Function.update_of_ne hprocess]
        exact hle
    · obtain ⟨rfl, rfl⟩ := Prod.mk.inj heq
      exact ⟨time, rfl, by rw [Function.update_self]; exact UInt64.le_refl _⟩
  · intro m n hleads
    -- Whatever leads somewhere has the smaller number, so only the second one can be the last.
    have hlt : m < n := by
      cases hleads with
      | later _ _ hlt _ => exact hlt
      | message _ hreceive => exact hsent m n _ hreceive
    obtain ⟨b, hb⟩ : ∃ b, (x.record happening (.ok time, ⟨time⟩)).happening? n = some b := by
      cases hleads with
      | later _ hb => exact ⟨_, hb⟩
      | message _ hreceive => exact ⟨_, hreceive⟩
    obtain ⟨outcome, hentry⟩ := getElem?_of_happening? hb
    rcases getElem?_record hentry with hold | ⟨rfl, -⟩
    · have hn : n < x.entries.length := (List.getElem?_eq_some_iff.mp hold).1
      have hm : m < x.entries.length := Nat.lt_trans hlt hn
      obtain ⟨s, t, hs, ht, hst⟩ := h.increases m n (hleads.of_record hm hn)
      refine ⟨s, t, ?_, ?_, hst⟩
      · rw [time?, getElem?_record_of_lt hm]
        exact hs
      · rw [time?, getElem?_record_of_lt hn]
        exact ht
    · exact h.increases_last htime hmessage hleads

theorem Reached.sound (h : x.Reached) : x.Sound := by
  induction h with
  | start => exact sound_start
  | step _ happening hstep hlast ih =>
      obtain ⟨time, rfl, htime, hmessage⟩ := step_cases hstep ih.running hlast
      exact ih.record htime hmessage hlast

end Record

/-- **The clock condition.** In every history in which no clock reaches the last time, of two
happenings one of which precedes the other both have got a time, and the first one the smaller. -/
theorem clock_condition [DecidableEq ι] {x : History ι} (hx : x.Reached) {m n : Nat}
    (h : x.Precedes m n) :
    ∃ s t, x.time? m = some (.ok s) ∧ x.time? n = some (.ok t) ∧ s < t := by
  have hsound := hx.sound
  show x.Increases m n
  induction h with
  | single hleads => exact hsound.increases m _ hleads
  | tail _ hleads ih => exact Increases.trans ih (hsound.increases _ _ hleads)

/-- Two processes exchange messages. The first message is received twice, the second time after the
answer to it was sent. -/
theorem clock_condition_exchange :
    ∃ x : History (Fin 2), x.Reached ∧
      x.entries.map Prod.fst =
        [.send 0, .bump 1, .receive 1 0, .send 1, .receive 1 0, .receive 0 3] ∧
      x.Precedes 0 5 ∧ ∃ s t, x.time? 0 = some (.ok s) ∧ x.time? 5 = some (.ok t) ∧ s < t := by
  obtain ⟨x, hx, hentries⟩ : ∃ x : History (Fin 2), x.Reached ∧
      x.entries = [(.send 0, .ok 2), (.bump 1, .ok 2), (.receive 1 0, .ok 3), (.send 1, .ok 4),
        (.receive 1 0, .ok 5), (.receive 0 3, .ok 5)] := by
    have h₁ := Reached.start.step (.send (0 : Fin 2)) rfl (by decide)
    have h₂ := h₁.step (.bump 1) rfl (by decide)
    have h₃ := h₂.step (.receive 1 0) rfl (by decide)
    have h₄ := h₃.step (.send 1) rfl (by decide)
    have h₅ := h₄.step (.receive 1 0) rfl (by decide)
    exact ⟨_, h₅.step (.receive 0 3) rfl (by decide), rfl⟩
  have hreceipt : x.Leads 0 2 := .message (p := 0) (q := 1) (by simp [happening?, hentries])
    (by simp [happening?, hentries])
  have hanswer : x.Leads 2 3 := .later (a := .receive 1 0) (b := .send 1)
    (by simp [happening?, hentries]) (by simp [happening?, hentries]) (by decide) rfl
  have hreturn : x.Leads 3 5 := .message (p := 1) (q := 0) (by simp [happening?, hentries])
    (by simp [happening?, hentries])
  have hprecedes : x.Precedes 0 5 := ((Relation.TransGen.single hreceipt).tail hanswer).tail hreturn
  exact ⟨x, hx, by rw [hentries]; rfl, hprecedes, clock_condition hx hprecedes⟩

end History

end CriticalSection
