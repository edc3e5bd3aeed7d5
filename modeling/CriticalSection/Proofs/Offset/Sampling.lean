import CriticalSection.Proofs.Offset.Margin
import CriticalSection.Proofs.Offset.Script

/-!
# Sampling a prepared peer

The exchanges that an estimate makes are the first ones that its script holds; the sampling only
decides how many. It makes the next one when fewer failures come before it than end an attempt, with
a pause after each, and gives up otherwise.
-/

set_option autoImplicit false

namespace CriticalSection

/-! ## Attempts -/

namespace Sampling

variable {α : Type} [Quantity α] {s : Script} {gap count : Nat} {received answered : Int64}

theorem ofExchange_cases (e : Exchange) :
    (∃ sample, Sample.ofExchange e = (.ok sample : Outcome (Sample α))) ∨
      Sample.ofExchange e = (overflowed : Outcome (Sample α)) := by
  unfold Sample.ofExchange
  split
  · exact Or.inl ⟨_, rfl⟩
  · exact Or.inr rfl

/-- An attempt that fails takes one reading. -/
theorem exchange_of_failure (h : s.reply 0 = none) (name : String) :
    exchange (Script.peer name) s =
      ((fail (.remote "no answer") : Outcome (Sample α)), s.later 1 1 0) := by
  have hask : (Script.peer name).ask (s.later 1 0 0) =
      (fail (.remote "no answer"), s.later 1 1 0) := by
    rw [Script.peer_ask, Script.reply_later, Script.later_later, h]
  rw [exchange, Script.peer_reading]
  dsimp only
  rw [hask]
  rfl

/-- An attempt that succeeds takes two readings. -/
theorem exchange_of_success (h : s.reply 0 = some (received, answered)) (name : String) :
    exchange (Script.peer name) s =
      ((Sample.ofExchange ⟨s.showing 0, received, answered, s.showing 1⟩ : Outcome (Sample α)),
        s.later 2 1 0) := by
  have hask : (Script.peer name).ask (s.later 1 0 0) =
      (.ok (received, answered), s.later 1 1 0) := by
    rw [Script.peer_ask, Script.reply_later, Script.later_later, h]
  have hback : (Script.peer name).reading (s.later 1 1 0) = (.ok (s.showing 1), s.later 2 1 0) := by
    rw [Script.peer_reading, Script.showing_later, Script.later_later]
  rw [exchange, Script.peer_reading]
  dsimp only
  rw [hask]
  dsimp only
  rw [hback]

/-- A failure is passed over while there are attempts left. -/
theorem retry_of_failure (sampling : Sampling) (operation name : String) (h : s.reply 0 = none)
    (fuel : Nat) :
    sampling.retry operation (Script.peer name).pause (exchange (α := α) (Script.peer name))
        (fuel + 1) s =
      sampling.retry operation (Script.peer name).pause (exchange (Script.peer name)) fuel
        (s.after sampling.pause.toNat 0 1) := by
  rw [retry, exchange_of_failure h, ← Script.peer_pause s name]
  rfl

/-- **Few failures in a row are passed over**, each at the cost of a reading and a pause. -/
theorem retry_of_success (sampling : Sampling) (operation name : String) {fuel : Nat}
    (hgap : gap ≤ fuel) (hnone : ∀ k < gap, s.reply k = none)
    (hsome : s.reply gap = some (received, answered)) :
    sampling.retry operation (Script.peer name).pause (exchange (Script.peer name)) fuel s =
      ((Sample.ofExchange ⟨s.showing gap, received, answered, s.showing (gap + 1)⟩ :
          Outcome (Sample α)),
        s.after sampling.pause.toNat 1 gap) := by
  induction gap generalizing s fuel with
  | zero =>
      rw [retry.eq_def]
      dsimp only
      rw [exchange_of_success hsome]
      rcases ofExchange_cases (α := α) ⟨s.showing 0, received, answered, s.showing 1⟩ with
        ⟨sample, hsample⟩ | hsample
      · rw [hsample]
        rfl
      · rw [hsample]
        rfl
  | succ gap ih =>
      -- the first failure uses up an attempt, and the success is one answer nearer behind it
      obtain ⟨fuel, rfl⟩ := Nat.exists_eq_add_one_of_ne_zero (Nat.ne_zero_of_lt hgap)
      rw [← Script.reply_after_failure s sampling.pause.toNat] at hsome
      have hrest (k : Nat) (hk : k < gap) :
          (s.after sampling.pause.toNat 0 1).reply k = none := by
        rw [Script.reply_after_failure]
        exact hnone _ (Nat.succ_lt_succ hk)
      rw [retry_of_failure sampling operation name (hnone 0 (Nat.succ_pos gap)),
        ih (Nat.le_of_succ_le_succ hgap) hrest hsome, Script.after_after,
        Script.showing_after_failure, Script.showing_after_failure, Nat.add_comm 1 gap]

/-- **Many failures in a row end the attempts**, with no pause after the last one. -/
theorem retry_of_failures (sampling : Sampling) (operation name : String) {fuel : Nat}
    (hnone : ∀ k ≤ fuel, s.reply k = none) :
    sampling.retry operation (Script.peer name).pause (exchange (Script.peer name)) fuel s =
      ((fail (.maxRetriesExceeded operation sampling.attempts) : Outcome (Sample α)),
        (s.after sampling.pause.toNat 0 fuel).later 1 1 0) := by
  induction fuel generalizing s with
  | zero =>
      rw [retry, exchange_of_failure (hnone 0 (Nat.le_refl 0))]
      rfl
  | succ fuel ih =>
      have hrest (k : Nat) (hk : k ≤ fuel) :
          (s.after sampling.pause.toNat 0 1).reply k = none := by
        rw [Script.reply_after_failure]
        exact hnone _ (Nat.succ_le_succ hk)
      rw [retry_of_failure sampling operation name (hnone 0 (Nat.zero_le _)), ih hrest,
        Script.after_after, Nat.add_comm 1 fuel]

/-! ## Samples -/

section Samples

variable {sampling : Sampling} {rest : List Nat}

/-- **A sample is made** when the gap in front of its success is small enough. -/
theorem exists_sample (h : Script.gaps s.answers = gap :: rest)
    (hgap : gap < sampling.attempts.toNat) (name : String) :
    ∃ e, s.exchanges = e :: (s.after sampling.pause.toNat 1 gap).exchanges ∧
      sampling.sample (Script.peer name) s =
        ((Sample.ofExchange e : Outcome (Sample α)), s.after sampling.pause.toNat 1 gap) := by
  obtain ⟨received, answered, hreply, hexchanges⟩ :=
    Script.exists_exchanges_eq_cons h sampling.pause.toNat
  exact ⟨_, hexchanges, retry_of_success sampling _ name (Nat.le_sub_one_of_lt hgap)
    (Script.exists_of_gaps_eq_cons h).1 hreply⟩

/-- **No sample is made** after as many failures in a row as end an attempt. -/
theorem sample_of_failures (hattempts : 0 < sampling.attempts.toNat)
    (hnone : ∀ k < sampling.attempts.toNat, s.reply k = none) (name : String) :
    sampling.sample (Script.peer name) s =
      ((fail (.maxRetriesExceeded ("time_pair from " ++ name) sampling.attempts) :
          Outcome (Sample α)),
        (s.after sampling.pause.toNat 0 (sampling.attempts.toNat - 1)).later 1 1 0) :=
  retry_of_failures sampling ("time_pair from " ++ name) name fun k hk => hnone k (by omega)

/-- **All samples are made** when enough successes come in time. -/
theorem repeated_of_inTime (h : Script.InTime s.answers count sampling.attempts.toNat)
    (hrange : ∀ e ∈ s.exchanges.take count,
      Sample.ofExchange e ≠ (overflowed : Outcome (Sample α))) (name : String) :
    ∃ samples, repeated (sampling.sample (Script.peer name)) count s =
        (.ok samples, s.after sampling.pause.toNat count (Script.failures s.answers count)) ∧
      List.Forall₂ (fun e sample => Sample.ofExchange e = (.ok sample : Outcome (Sample α)))
        (s.exchanges.take count) samples := by
  induction count generalizing s with
  | zero => exact ⟨[], rfl, .nil⟩
  | succ count ih =>
      cases hgaps : Script.gaps s.answers with
      | nil =>
          have hle := h.1
          rw [hgaps] at hle
          exact absurd hle (Nat.not_succ_le_zero count)
      | cons gap rest =>
          obtain ⟨hgap, hinTime⟩ := (Script.inTime_succ_iff hgaps count).mp h
          obtain ⟨e, hexchanges, hsample⟩ := exists_sample (α := α) hgaps hgap name
          rw [hexchanges, List.take_succ_cons] at hrange ⊢
          obtain ⟨sample, hok⟩ := (ofExchange_cases e).resolve_right (hrange e List.mem_cons_self)
          obtain ⟨samples, hrest, hall⟩ := ih (s := s.after sampling.pause.toNat 1 gap) hinTime
            fun e' he' => hrange e' (List.mem_cons_of_mem _ he')
          refine ⟨sample :: samples, ?_, .cons hok hall⟩
          rw [Script.after_after, Nat.add_comm 1 count] at hrest
          rw [repeated, hsample, hok, Script.failures_succ hgaps]
          dsimp only
          rw [hrest]
          rfl

/-- Unless the first success comes in time, the first attempts are failures. -/
theorem reply_of_late {limit : Nat}
    (h : ¬ ∃ gap rest, Script.gaps s.answers = gap :: rest ∧ gap < limit) :
    ∀ k < limit, s.reply k = none := by
  intro k hk
  cases hgaps : Script.gaps s.answers with
  | nil => exact Script.join_of_gaps_eq_nil hgaps k
  | cons gap rest =>
      have hle : limit ≤ gap := Nat.le_of_not_lt fun hlt => h ⟨gap, rest, hgaps, hlt⟩
      exact (Script.exists_of_gaps_eq_cons hgaps).1 k (Nat.lt_of_lt_of_le hk hle)

/-- **Otherwise the samples end** at the first success that comes late or not at all. -/
theorem repeated_of_not_inTime (hattempts : 0 < sampling.attempts.toNat)
    (h : ¬ Script.InTime s.answers count sampling.attempts.toNat)
    (hrange : ∀ made < count, Script.InTime s.answers made sampling.attempts.toNat →
      ∀ e ∈ s.exchanges.take made, Sample.ofExchange e ≠ (overflowed : Outcome (Sample α)))
    (name : String) :
    ∃ made < count, Script.InTime s.answers made sampling.attempts.toNat ∧
      (∀ k < sampling.attempts.toNat,
        (s.after sampling.pause.toNat made (Script.failures s.answers made)).reply k = none) ∧
      repeated (sampling.sample (Script.peer name)) count s =
        ((fail (.maxRetriesExceeded ("time_pair from " ++ name) sampling.attempts) :
            Outcome (List (Sample α))),
          ((s.after sampling.pause.toNat made (Script.failures s.answers made)).after
            sampling.pause.toNat 0 (sampling.attempts.toNat - 1)).later 1 1 0) := by
  induction count generalizing s with
  | zero => exact absurd (Script.inTime_zero _ _) h
  | succ count ih =>
      by_cases hfirst :
          ∃ gap rest, Script.gaps s.answers = gap :: rest ∧ gap < sampling.attempts.toNat
      · -- the first success is in time, so the one that is late is among those behind it
        obtain ⟨gap, rest, hgaps, hgap⟩ := hfirst
        obtain ⟨e, hexchanges, hsample⟩ := exists_sample (α := α) hgaps hgap name
        have hlate : ¬ Script.InTime (s.after sampling.pause.toNat 1 gap).answers count
            sampling.attempts.toNat :=
          fun hrest => h ((Script.inTime_succ_iff hgaps count).mpr ⟨hgap, hrest⟩)
        have hmore {made : Nat}
            (hmade : Script.InTime (s.after sampling.pause.toNat 1 gap).answers made
              sampling.attempts.toNat) :
            Script.InTime s.answers (made + 1) sampling.attempts.toNat :=
          (Script.inTime_succ_iff hgaps made).mpr ⟨hgap, hmade⟩
        have hcount : 0 < count := by
          refine Nat.pos_of_ne_zero fun hzero => hlate ?_
          rw [hzero]
          exact Script.inTime_zero _ _
        rw [hexchanges] at hrange
        obtain ⟨sample, hok⟩ := (ofExchange_cases e).resolve_right <|
          hrange 1 (Nat.succ_lt_succ hcount) (hmore (Script.inTime_zero _ _)) e List.mem_cons_self
        obtain ⟨made, hlt, hmade, hnone, hrest⟩ := ih hlate fun made hlt hmade e' he' =>
          hrange (made + 1) (Nat.succ_lt_succ hlt) (hmore hmade) e' (List.mem_cons_of_mem _ he')
        have hafter : (s.after sampling.pause.toNat 1 gap).after sampling.pause.toNat made
            (Script.failures (s.after sampling.pause.toNat 1 gap).answers made) =
              s.after sampling.pause.toNat (made + 1) (Script.failures s.answers (made + 1)) := by
          rw [Script.after_after, Nat.add_comm 1 made, Script.failures_succ hgaps]
          rfl
        rw [hafter] at hnone hrest
        refine ⟨made + 1, Nat.succ_lt_succ hlt, hmore hmade, hnone, ?_⟩
        rw [repeated, hsample, hok]
        dsimp only
        rw [hrest]
        rfl
      · -- the first success itself is late, so the very first sample is given up
        have hnone := reply_of_late hfirst
        refine ⟨0, Nat.succ_pos count, Script.inTime_zero _ _, hnone, ?_⟩
        rw [repeated, sample_of_failures hattempts hnone]
        rfl

end Samples

/-! ## Estimates -/

section Estimates

variable {β σ : Type} {sampling : Sampling} {surroundings : σ}

theorem length_of_repeated {once : σ → Outcome β × σ} {values : List β}
    (h : (repeated once count surroundings).1 = .ok values) : values.length = count := by
  induction count generalizing surroundings values with
  | zero => rw [← Except.ok.inj h, List.length_nil]
  | succ count ih =>
      rw [repeated] at h
      split at h
      · cases h
      · split at h
        · cases h
        · next hrest => rw [← Except.ok.inj h, List.length_cons, ih (congrArg Prod.fst hrest)]

/-- Doing something several times fails as doing it once does. -/
theorem exists_of_repeated {once : σ → Outcome β × σ} {fault : Fault}
    (h : (repeated once count surroundings).1 = .error fault) :
    ∃ before, (once before).1 = .error fault := by
  induction count generalizing surroundings with
  | zero => cases h
  | succ count ih =>
      rw [repeated] at h
      split at h
      · next honce =>
          obtain rfl := Except.error.inj h
          exact ⟨surroundings, congrArg Prod.fst honce⟩
      · split at h
        · next hrest =>
            obtain rfl := Except.error.inj h
            exact ih (congrArg Prod.fst hrest)
        · cases h

/-- Each of the values has come from doing it once. -/
theorem exists_of_mem_repeated {once : σ → Outcome β × σ} {values : List β} {value : β}
    (h : (repeated once count surroundings).1 = .ok values) (hvalue : value ∈ values) :
    ∃ before, (once before).1 = .ok value := by
  induction count generalizing surroundings values with
  | zero =>
      obtain rfl := Except.ok.inj h
      cases hvalue
  | succ count ih =>
      rw [repeated] at h
      split at h
      · cases h
      · next honce =>
          split at h
          · cases h
          · next hrest =>
              obtain rfl := Except.ok.inj h
              rcases List.mem_cons.mp hvalue with rfl | hmem
              · exact ⟨surroundings, congrArg Prod.fst honce⟩
              · exact ih (congrArg Prod.fst hrest) hmem

/-- What comes from trying again has come from one attempt. -/
theorem exists_of_retry {operation : String} {pause : UInt64 → σ → σ}
    {attempt : σ → Outcome β × σ} {fuel : Nat} {value : β}
    (h : (sampling.retry operation pause attempt fuel surroundings).1 = .ok value) :
    ∃ before, (attempt before).1 = .ok value := by
  induction fuel generalizing surroundings with
  | zero =>
      rw [retry] at h
      split at h
      · next hattempt => exact ⟨surroundings, (congrArg Prod.fst hattempt).trans h⟩
      · cases h
      · cases h
  | succ fuel ih =>
      rw [retry] at h
      split at h
      · next hattempt => exact ⟨surroundings, (congrArg Prod.fst hattempt).trans h⟩
      · cases h
      · exact ih h

/-- **Trying again fails in two ways**: by an overflow, or when it is given up. -/
theorem retry_cases {operation : String} {pause : UInt64 → σ → σ} {attempt : σ → Outcome β × σ}
    {fuel : Nat} {fault : Fault}
    (h : (sampling.retry operation pause attempt fuel surroundings).1 = .error fault) :
    fault = .overflow ∨ fault = .error (.maxRetriesExceeded operation sampling.attempts) := by
  induction fuel generalizing surroundings with
  | zero =>
      rw [retry] at h
      split at h
      · cases h
      · exact Or.inl (Except.error.inj h).symm
      · exact Or.inr (Except.error.inj h).symm
  | succ fuel ih =>
      rw [retry] at h
      split at h
      · cases h
      · exact Or.inl (Except.error.inj h).symm
      · exact ih h

/-- A sample is what an exchange gives. -/
theorem exists_of_exchange {peer : Peer σ} {sample : Sample α}
    (h : (exchange peer surroundings).1 = .ok sample) :
    ∃ e, Sample.ofExchange e = .ok sample := by
  rw [exchange] at h
  split at h
  · cases h
  · split at h
    · cases h
    · split at h
      · cases h
      · exact ⟨_, h⟩

/-- **Samples that were asked for are summarized**: there is a best one. -/
theorem exists_summarize {once : σ → Outcome (Sample α) × σ} {samples : List (Sample α)}
    (hcount : 0 < count) (h : (repeated once count surroundings).1 = .ok samples)
    (reference : String) :
    ∃ best, Sample.best? samples = some best ∧
      summarize reference samples = .ok ⟨reference, best, samples⟩ := by
  have hne : samples ≠ [] := by
    rintro rfl
    exact absurd (length_of_repeated h) (Nat.ne_of_lt hcount)
  obtain ⟨best, hbest⟩ := Sample.exists_best? hne
  exact ⟨best, hbest, by rw [summarize, hbest]⟩

/-- An estimate fails only as one of its samples does. -/
theorem exists_of_summarized {once : σ → Outcome (Sample α) × σ} {reference : String}
    {fault : Fault} (hcount : 0 < count)
    (h : (match repeated once count surroundings with
      | (.error fault, after) => ((.error fault : Outcome (Estimate α)), after)
      | (.ok samples, after) => (summarize reference samples, after)).1 = .error fault) :
    ∃ before, (once before).1 = .error fault := by
  split at h
  · next hrepeated =>
      obtain rfl := Except.error.inj h
      exact exists_of_repeated (congrArg Prod.fst hrepeated)
  · next hrepeated =>
      obtain ⟨best, -, hbest⟩ := exists_summarize hcount (congrArg Prod.fst hrepeated) reference
      rw [hbest] at h
      cases h

/-- **An estimate fails in two ways**: by an overflow, or when an exchange is given up. -/
theorem estimate_cases (hsamples : 0 < sampling.samples) {peer : Peer σ} {fault : Fault}
    (h : (sampling.estimate (α := α) peer surroundings).1 = .error fault) :
    fault = .overflow ∨
      fault = .error (.maxRetriesExceeded ("time_pair from " ++ peer.name) sampling.attempts) := by
  obtain ⟨before, hbefore⟩ := exists_of_summarized hsamples h
  exact retry_cases hbefore

/-- **An estimate is the sample of one exchange.** -/
theorem exists_of_estimate {peer : Peer σ} {estimate : Estimate α}
    (h : (sampling.estimate peer surroundings).1 = .ok estimate) :
    ∃ e, Sample.ofExchange e = .ok estimate.best := by
  unfold Sampling.estimate at h
  split at h
  · cases h
  · next samples _ hrepeated =>
      have hmem : estimate.best ∈ samples := by
        rw [summarize] at h
        split at h
        · next hbest =>
            obtain rfl := Except.ok.inj h
            exact Sample.best?_mem hbest
        · cases h
      obtain ⟨before, hsample⟩ := exists_of_mem_repeated (congrArg Prod.fst hrepeated) hmem
      obtain ⟨before, hexchange⟩ := exists_of_retry hsample
      exact exists_of_exchange hexchange

/-- So does an estimate by a time server. -/
theorem estimateByServer_cases (hsamples : 0 < sampling.samples) {server : TimeServer α σ}
    {fault : Fault} (h : (sampling.estimateByServer server surroundings).1 = .error fault) :
    fault = .overflow ∨
      fault = .error (.maxRetriesExceeded ("sntp query to " ++ server.name) sampling.attempts) := by
  obtain ⟨before, hbefore⟩ := exists_of_summarized hsamples h
  exact retry_cases hbefore

/-- **The estimate of a script whose successes come in time.** -/
theorem estimate_of_inTime (hsamples : 0 < sampling.samples)
    (h : Script.InTime s.answers sampling.samples sampling.attempts.toNat)
    (hrange : ∀ e ∈ s.exchanges.take sampling.samples,
      Sample.ofExchange e ≠ (overflowed : Outcome (Sample α))) (name : String) :
    ∃ estimate : Estimate α,
      sampling.estimate (Script.peer name) s =
        (.ok estimate, s.after sampling.pause.toNat sampling.samples
          (Script.failures s.answers sampling.samples)) ∧
      estimate.reference = name ∧ estimate.samples.length = sampling.samples ∧
      Sample.best? estimate.samples = some estimate.best ∧
      List.Forall₂ (fun e sample => Sample.ofExchange e = .ok sample)
        (s.exchanges.take sampling.samples) estimate.samples := by
  obtain ⟨samples, hrepeated, hall⟩ := repeated_of_inTime h hrange name
  obtain ⟨best, hbest, hsummary⟩ :=
    exists_summarize hsamples (congrArg Prod.fst hrepeated) name
  have hlength : samples.length = sampling.samples :=
    length_of_repeated (congrArg Prod.fst hrepeated)
  have hestimate : sampling.estimate (Script.peer name) s =
      (.ok ⟨name, best, samples⟩, s.after sampling.pause.toNat sampling.samples
        (Script.failures s.answers sampling.samples)) := by
    rw [estimate, hrepeated]
    exact congrArg₂ Prod.mk hsummary rfl
  exact ⟨⟨name, best, samples⟩, hestimate, rfl, hlength, hbest, hall⟩

/-- **The estimate of a script with a success that comes late** or not at all. -/
theorem estimate_of_not_inTime (hattempts : 0 < sampling.attempts.toNat)
    (h : ¬ Script.InTime s.answers sampling.samples sampling.attempts.toNat)
    (hrange : ∀ made < sampling.samples, Script.InTime s.answers made sampling.attempts.toNat →
      ∀ e ∈ s.exchanges.take made, Sample.ofExchange e ≠ (overflowed : Outcome (Sample α)))
    (name : String) :
    ∃ made < sampling.samples, Script.InTime s.answers made sampling.attempts.toNat ∧
      (∀ k < sampling.attempts.toNat, s.reply (made + Script.failures s.answers made + k) = none) ∧
      sampling.estimate (Script.peer name) s =
        ((fail (.maxRetriesExceeded ("time_pair from " ++ name) sampling.attempts) :
            Outcome (Estimate α)),
          (s.after sampling.pause.toNat made
            (Script.failures s.answers made + (sampling.attempts.toNat - 1))).later 1 1 0) := by
  obtain ⟨made, hmade, hinTime, hnone, hrepeated⟩ :=
    repeated_of_not_inTime hattempts h hrange name
  refine ⟨made, hmade, hinTime, ?_, ?_⟩
  · intro k hk
    have hreply := hnone k hk
    rw [Script.after, Script.reply_later, Nat.add_comm (Script.failures _ _) made] at hreply
    exact hreply
  · rw [estimate, hrepeated, Script.after_after]
    rfl

/-- What is given up after some attempts was not given up after none. -/
theorem ne_of_attempts {attempts : UInt32} {operation operation' : String} {fault : Fault}
    (hattempts : 0 < attempts.toNat)
    (h : fault = .overflow ∨ fault = .error (.maxRetriesExceeded operation attempts)) :
    fault ≠ .error (.maxRetriesExceeded operation' 0) := by
  rintro rfl
  rcases h with h | h
  · cases h
  · obtain ⟨-, hzero⟩ := Error.maxRetriesExceeded.inj (Fault.error.inj h)
    rw [← hzero] at hattempts
    exact absurd hattempts (Nat.lt_irrefl 0)

/-- **The setting of a sampling**: a number of samples or attempts that is zero counts as one. -/
theorem toNat_withRetries (base : Sampling) (samples : Nat) (attempts : UInt32) (pause : UInt64) :
    ((base.withSamples samples).withRetries attempts pause).attempts.toNat =
      max attempts.toNat 1 := by
  show (if attempts = 0 then 1 else attempts).toNat = max attempts.toNat 1
  split
  · next h => rw [h]; rfl
  · next h =>
      have hne : attempts.toNat ≠ 0 := fun hzero => h (UInt32.toNat_inj.mp hzero)
      omega

/-- **An estimate follows its script.** It is made exactly when as many successes as are needed come
in time, and then its samples are those of the exchanges that the script holds, one answer was asked
for with each success and each failure, and there was a pause after each failure. Otherwise it is
given up after the failures in a row that end an attempt, with no pause after the last of them.
There are always samples to choose the best one from. -/
theorem estimate_follows (base : Sampling) (samples : Nat) (attempts : UInt32) (pause : UInt64)
    (name : String) (readings : List Int64) (answers : List (Option (Int64 × Int64)))
    (hrange : ∀ made ≤ max samples 1, Script.InTime answers made (max attempts.toNat 1) →
      ∀ e ∈ (Script.start readings answers).exchanges.take made,
        Sample.ofExchange e ≠ (overflowed : Outcome (Sample α))) :
    ∃ (sampling : Sampling) (outcome : Outcome (Estimate α)) (script : Script),
      sampling = (base.withSamples samples).withRetries attempts pause ∧
      sampling.estimate (Script.peer name) (Script.start readings answers) = (outcome, script) ∧
      ((∃ estimate, outcome = .ok estimate) ↔
        Script.InTime answers (max samples 1) (max attempts.toNat 1)) ∧
      (∀ estimate, outcome = .ok estimate →
        estimate.reference = name ∧ estimate.samples.length = max samples 1 ∧
        Sample.best? estimate.samples = some estimate.best ∧
        List.Forall₂ (fun e sample => Sample.ofExchange e = .ok sample)
          ((Script.start readings answers).exchanges.take (max samples 1)) estimate.samples ∧
        script.asked = max samples 1 + Script.failures answers (max samples 1) ∧
        script.waited = pause.toNat * Script.failures answers (max samples 1)) ∧
      (¬ Script.InTime answers (max samples 1) (max attempts.toNat 1) →
        outcome = fail (.maxRetriesExceeded ("time_pair from " ++ name)
          (if attempts = 0 then 1 else attempts)) ∧
        ∃ made < max samples 1, Script.InTime answers made (max attempts.toNat 1) ∧
          (∀ k < max attempts.toNat 1,
            answers[made + Script.failures answers made + k]?.join = none) ∧
          script.asked = made + Script.failures answers made + max attempts.toNat 1 ∧
          script.waited =
            pause.toNat * (Script.failures answers made + (max attempts.toNat 1 - 1))) ∧
      (∀ {σ : Type} (peer : Peer σ) (surroundings : σ),
        (sampling.estimate (α := α) peer surroundings).1 ≠
          fail (.maxRetriesExceeded ("sampling " ++ peer.name) 0)) ∧
      ∀ {σ : Type} (server : TimeServer α σ) (surroundings : σ),
        (sampling.estimateByServer server surroundings).1 ≠
          fail (.maxRetriesExceeded ("sampling " ++ ("sntp://" ++ server.name)) 0) := by
  obtain ⟨sampling, hsampling⟩ :
      ∃ sampling, sampling = (base.withSamples samples).withRetries attempts pause := ⟨_, rfl⟩
  have hcount : sampling.samples = max samples 1 := by rw [hsampling]; rfl
  have hlimit : sampling.attempts.toNat = max attempts.toNat 1 := by
    rw [hsampling, toNat_withRetries]
  have hattempts : sampling.attempts = if attempts = 0 then 1 else attempts := by
    rw [hsampling]; rfl
  have hpause : sampling.pause = pause := by rw [hsampling]; rfl
  have hcount_pos : 0 < sampling.samples := by omega
  have hlimit_pos : 0 < sampling.attempts.toNat := by omega
  rw [← hcount, ← hlimit] at hrange ⊢
  have hpeer {σ : Type} (peer : Peer σ) (surroundings : σ) :
      (sampling.estimate (α := α) peer surroundings).1 ≠
        fail (.maxRetriesExceeded ("sampling " ++ peer.name) 0) :=
    fun h => ne_of_attempts hlimit_pos (estimate_cases hcount_pos h) rfl
  have hserver {σ : Type} (server : TimeServer α σ) (surroundings : σ) :
      (sampling.estimateByServer server surroundings).1 ≠
        fail (.maxRetriesExceeded ("sampling " ++ ("sntp://" ++ server.name)) 0) :=
    fun h => ne_of_attempts hlimit_pos (estimateByServer_cases hcount_pos h) rfl
  by_cases h : Script.InTime answers sampling.samples sampling.attempts.toNat
  · obtain ⟨estimate, hestimate, hreference, hlength, hbest, hall⟩ :=
      estimate_of_inTime (s := Script.start readings answers) hcount_pos h
        (hrange _ (Nat.le_refl _) h) name
    refine ⟨sampling, _, _, hsampling, hestimate, iff_of_true ⟨estimate, rfl⟩ h, ?_,
      fun hlate => absurd h hlate, hpeer, hserver⟩
    intro estimate' heq
    obtain rfl := Except.ok.inj heq
    refine ⟨hreference, hlength, hbest, hall, ?_, ?_⟩
    · show 0 + (Script.failures answers sampling.samples + sampling.samples) = _
      omega
    · show 0 + sampling.pause.toNat * Script.failures answers sampling.samples = _
      rw [hpause, Nat.zero_add]
  · obtain ⟨made, hmade, hinTime, hnone, hestimate⟩ :=
      estimate_of_not_inTime (α := α) (s := Script.start readings answers) hlimit_pos h
        (fun made hlt => hrange made (Nat.le_of_lt hlt)) name
    refine ⟨sampling, _, _, hsampling, hestimate, iff_of_false ?_ h, ?_, ?_, hpeer, hserver⟩
    · rintro ⟨estimate, heq⟩
      cases heq
    · intro estimate heq
      cases heq
    · intro _
      refine ⟨by rw [hattempts], made, hmade, hinTime, hnone, ?_, ?_⟩
      · show 0 + (Script.failures answers made + (sampling.attempts.toNat - 1) + made) + 1 = _
        omega
      · show 0 + sampling.pause.toNat *
          (Script.failures answers made + (sampling.attempts.toNat - 1)) + 0 = _
        rw [hpause, Nat.zero_add, Nat.add_zero]

/-- Two exchanges with up to two attempts each, the first of which fails. -/
theorem estimate_follows_second_attempt :
    (∀ made ≤ max 2 1, Script.InTime [none, some ((105, 106) : Int64 × Int64), some (205, 207)] made
        (max (2 : UInt32).toNat 1) →
      ∀ e ∈ (Script.start [0, 100, 110, 200, 215]
          [none, some (105, 106), some (205, 207)]).exchanges.take made,
        Sample.ofExchange e ≠ (overflowed : Outcome (Sample Rat))) ∧
    ∃ (estimate : Estimate Rat) (script : Script),
      ((standard.withSamples 2).withRetries 2 50).estimate (Script.peer "A")
          (Script.start [0, 100, 110, 200, 215] [none, some (105, 106), some (205, 207)]) =
        (.ok estimate, script) ∧
      estimate.samples.length = 2 ∧ script.asked = 3 ∧ script.waited = 50 := by
  have hrange : ∀ made ≤ max 2 1, Script.InTime [none, some ((105, 106) : Int64 × Int64),
      some (205, 207)] made (max (2 : UInt32).toNat 1) →
      ∀ e ∈ (Script.start [0, 100, 110, 200, 215]
          [none, some (105, 106), some (205, 207)]).exchanges.take made,
        Sample.ofExchange e ≠ (overflowed : Outcome (Sample Rat)) := by
    have hall : ∀ e ∈ [(⟨100, 105, 106, 110⟩ : Exchange), ⟨200, 205, 207, 215⟩],
        Sample.ofExchange e ≠ (overflowed : Outcome (Sample Rat)) := by decide +kernel
    intro made _ _ e he
    exact hall e (List.mem_of_mem_take he)
  refine ⟨hrange, ?_⟩
  obtain ⟨sampling, outcome, script, rfl, hestimate, hok, hfollows, -⟩ :=
    estimate_follows standard 2 2 50 "A" [0, 100, 110, 200, 215]
      [none, some (105, 106), some (205, 207)] hrange
  obtain ⟨estimate, rfl⟩ := hok.mpr ⟨by decide, by decide⟩
  obtain ⟨-, hlength, -, -, hasked, hwaited⟩ := hfollows estimate rfl
  exact ⟨estimate, script, hestimate, hlength, hasked, hwaited⟩

end Estimates

end Sampling

end CriticalSection
