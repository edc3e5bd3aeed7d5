import CriticalSection.Proofs.Log.Order
import CriticalSection.Proofs.Verifier.Pairing

/-!
# Which records are partners

A process is inside after some records when the latest of its own is an entry. An exit is the
partner of the entry since which its process is inside, whatever follows; so between two partners
there is no other exit of their process.
-/

set_option autoImplicit false

namespace CriticalSection

/-! ## Remaining inside -/

/-- **A process remains inside** between two positions: it does not leave there. -/
def Log.Remains (log : Log) (q : ProcessId) (i j : Nat) : Prop :=
  ∀ k event, i < k → k < j → log[k]? = some event → event.process = q → event.kind = .enter

namespace Log.Remains

variable {log : Log} {q : ProcessId} {i j : Nat}

/-- Records that follow make no difference to the positions before them. -/
theorem append (h : log.Remains q i j) (hj : j ≤ log.length) (rest : Log) :
    Log.Remains (log ++ rest) q i j := by
  intro k event hi hk hevent
  rw [List.getElem?_append_left (by omega)] at hevent
  exact h k event hi hk hevent

/-- One record more is passed if it is no exit of the process. -/
theorem concat (h : log.Remains q i log.length) {event : Event}
    (hevent : event.process = q → event.kind = .enter) :
    Log.Remains (log ++ [event]) q i (log ++ [event]).length := by
  intro k event' hi hk hevent' hprocess
  rw [List.length_append, List.length_singleton] at hk
  rcases Nat.lt_or_eq_of_le (Nat.le_of_lt_succ hk) with hlt | rfl
  · rw [List.getElem?_append_left hlt] at hevent'
    exact h k event' hi hlt hevent' hprocess
  · rw [Pairing.getElem?_concat_length] at hevent'
    obtain rfl := Option.some.inj hevent'
    exact hevent hprocess

theorem of_le (log : Log) (q : ProcessId) (h : j ≤ i + 1) : log.Remains q i j := by
  intro k event hi hk
  omega

end Log.Remains

/-! ## What a pairing knows -/

/-- Whether the latest record of a process is an entry. -/
def Log.IsInside (log : Log) (q : ProcessId) : Prop :=
  ∃ event ∈ (log.of q).getLast?, event.kind = .enter

theorem Log.isInside_concat (log : Log) (event : Event) (q : ProcessId) :
    Log.IsInside (log ++ [event]) q ↔
      if event.process = q then event.kind = .enter else log.IsInside q := by
  unfold IsInside
  rw [of_append]
  split
  · next heq => simp [of, heq]
  · next hne => simp [of, hne]

namespace Pairing

/-- **A pairing follows a log**: it tells who is inside and since when, and whoever has a partner
has not left before. -/
structure Follows (p : Pairing) (log : Log) : Prop where
  inside : ∀ q : ProcessId, (p.inside[q]?).isSome ↔ log.IsInside q
  since : ∀ (q : ProcessId) (i : Nat), p.inside[q]? = some i → log.Remains q i log.length
  partner : ∀ (i j : Nat) (a : Event), p.partner[i]? = some j → log[i]? = some a →
    a.kind = .enter → log.Remains a.process i j

variable {p : Pairing} {log : Log}

/-- Old partners are before a record that is added, so nothing comes between them. -/
theorem Follows.partner_concat (h : p.Follows log) (hsound : p.Sound log) (event : Event)
    {i j : Nat} {a : Event} (hij : p.partner[i]? = some j) (ha : (log ++ [event])[i]? = some a)
    (hkind : a.kind = .enter) : Log.Remains (log ++ [event]) a.process i j := by
  have hlt : ∀ {i j : Nat}, p.partner[i]? = some j → i < log.length := by
    intro i j hij
    refine Nat.lt_of_not_le fun hle => ?_
    rw [hsound.partner_of_length_le hle] at hij
    cases hij
  have hj : j < log.length := hlt (hsound.partner i j hij).1
  rw [List.getElem?_append_left (hlt hij)] at ha
  exact (h.partner i j a hij ha hkind).append (Nat.le_of_lt hj) [event]

/-- A process that enters is inside since the record that is added. -/
theorem Follows.enter (h : p.Follows log) (hsound : p.Sound log) {event : Event}
    (hkind : event.kind = .enter) :
    Follows { p with inside := p.inside.insert event.process log.length } (log ++ [event]) := by
  refine ⟨fun q => ?_, fun q i hi => ?_, fun i j a => h.partner_concat hsound event⟩
  · rw [Table.getElem?_insert, Log.isInside_concat]
    split
    · next heq => simp [heq, hkind]
    · next hne => rw [if_neg (Ne.symm hne), h.inside]
  · rw [Table.getElem?_insert] at hi
    split at hi
    · obtain rfl := Option.some.inj hi
      exact .of_le _ _ (by simp)
    · exact (h.since q i hi).concat fun _ => hkind

/-- A process that leaves has remained inside until the record that is added. -/
theorem Follows.exit (h : p.Follows log) (hsound : p.Sound log) {event : Event}
    (hkind : event.kind = .exit) {entry : Nat} (hentry : p.inside[event.process]? = some entry) :
    Follows
      { p with
        partner := (p.partner.insert entry log.length).insert log.length entry
        inside := p.inside.erase event.process } (log ++ [event]) := by
  obtain ⟨a, ha, hprocess, -, -⟩ := hsound.inside _ _ hentry
  have hlt : entry < log.length := (List.getElem?_eq_some_iff.mp ha).1
  refine ⟨fun q => ?_, fun q i hi => ?_, fun i j b hij hb hkindb => ?_⟩
  · rw [Table.getElem?_erase, Log.isInside_concat]
    split
    · next heq => simp [heq, hkind]
    · next hne => rw [if_neg (Ne.symm hne), h.inside]
  · rw [Table.getElem?_erase] at hi
    split at hi
    · cases hi
    · next hne => exact (h.since q i hi).concat fun heq => absurd heq.symm hne
  · rw [Table.getElem?_insert, Table.getElem?_insert] at hij
    split at hij
    -- The record that is added is no entry, its partner is, and others were partners before.
    · next heq =>
        subst heq
        rw [getElem?_concat_length] at hb
        obtain rfl := Option.some.inj hb
        rw [hkind] at hkindb
        cases hkindb
    · split at hij
      · next heq =>
          subst heq
          obtain rfl := Option.some.inj hij
          rw [List.getElem?_append_left hlt] at hb
          obtain rfl := Option.some.inj (ha.symm.trans hb)
          rw [hprocess]
          exact (h.since _ _ hentry).append (Nat.le_refl _) [event]
      · exact h.partner_concat hsound event hij hb hkindb

/-- **A record keeps a pairing following.** An entry of a process that is inside, and an exit of one
that is not, change nothing that is known. -/
theorem Follows.step (h : p.Follows log) (hsound : p.Sound log) (event : Event) :
    (p.step event log.length).Follows (log ++ [event]) := by
  unfold Pairing.step
  split
  · next hkind _ => exact h.enter hsound hkind
  · next first hkind hfirst =>
      refine ⟨fun q => ?_, fun q i hi => (h.since q i hi).concat fun _ => hkind,
        fun i j a => h.partner_concat hsound event⟩
      rw [Log.isInside_concat]
      split
      · next heq =>
          subst heq
          simp [hfirst, hkind]
      · exact h.inside q
  · next entry hkind hentry => exact h.exit hsound hkind hentry
  · next hkind hnone =>
      refine ⟨fun q => ?_, fun q i hi => (h.since q i hi).concat fun heq => ?_,
        fun i j a => h.partner_concat hsound event⟩
      · rw [Log.isInside_concat]
        split
        · next heq =>
            subst heq
            simp [hnone, hkind]
        · exact h.inside q
      · subst heq
        rw [hnone] at hi
        cases hi

/-- **The pairing of a log follows it.** -/
theorem follows_ofLog (log : Log) : (ofLog log).Follows log := by
  induction log using List.reverseRecOn with
  | nil =>
      refine ⟨fun q => ?_, fun q i hi => ?_, fun i j a _ ha => ?_⟩
      · simp [ofLog, start, Log.IsInside, Log.of]
      · simp [ofLog, start] at hi
      · simp at ha
  | append_singleton log event ih =>
      rw [ofLog_concat]
      exact ih.step (sound_ofLog log) event

/-! ## The partner of an exit -/

/-- The partner of an exit does not change any more. -/
theorem partner_step_of_exit (hsound : p.Sound log) {j : Nat} {b : Event}
    (hb : log[j]? = some b) (hkind : b.kind = .exit) (event : Event) :
    (p.step event log.length).partner[j]? = p.partner[j]? := by
  have hj : j < log.length := (List.getElem?_eq_some_iff.mp hb).1
  unfold Pairing.step
  split
  · rfl
  · rfl
  · next entry _ hentry =>
      obtain ⟨a, ha, -, hkinda, -⟩ := hsound.inside _ _ hentry
      have hne : j ≠ entry := by
        rintro rfl
        obtain rfl := Option.some.inj (ha.symm.trans hb)
        rw [hkind] at hkinda
        cases hkinda
      rw [Table.getElem?_insert, if_neg (Nat.ne_of_lt hj), Table.getElem?_insert, if_neg hne]
  · rfl

/-- **The partner of an exit** is the entry since which its process was inside before. -/
theorem partner_of_exit (front rest : Log) {b : Event} (hkind : b.kind = .exit) :
    (ofLog (front ++ b :: rest)).partner[front.length]? = (ofLog front).inside[b.process]? := by
  induction rest using List.reverseRecOn with
  | nil =>
      rw [ofLog_concat]
      unfold Pairing.step
      rw [hkind]
      split
      · contradiction
      · contradiction
      · next entry _ hentry =>
          rw [Table.getElem?_insert, if_pos rfl]
          exact hentry.symm
      · next _ hnone =>
          rw [hnone]
          exact (sound_ofLog front).partner_of_length_le (Nat.le_refl _)
  | append_singleton rest event ih =>
      have hb : (front ++ b :: rest)[front.length]? = some b := by simp
      rw [← List.cons_append, ← List.append_assoc, ofLog_concat,
        partner_step_of_exit (sound_ofLog _) hb hkind, ih]

/-- Records of others make no difference to since when a process is inside. -/
theorem inside_append_of_absent (log : Log) {rest : Log} {q : ProcessId} (h : rest.of q = []) :
    (ofLog (log ++ rest)).inside[q]? = (ofLog log).inside[q]? := by
  induction rest using List.reverseRecOn with
  | nil => rw [List.append_nil]
  | append_singleton rest event ih =>
      rw [Log.of_append, List.append_eq_nil_iff] at h
      have hne : q ≠ event.process := by
        rintro rfl
        simp [Log.of] at h
      rw [← ih h.1, ← List.append_assoc, ofLog_concat]
      unfold Pairing.step
      split
      · rw [Table.getElem?_insert, if_neg hne]
      · rfl
      · rw [Table.getElem?_erase, if_neg hne]
      · rfl

/-- An exit has a partner just when its process was inside. -/
theorem isSome_partner_of_exit (front rest : Log) {b : Event} (hkind : b.kind = .exit) :
    ((ofLog (front ++ b :: rest)).partner[front.length]?).isSome ↔ front.IsInside b.process := by
  rw [partner_of_exit front rest hkind]
  exact (follows_ofLog front).inside b.process

end Pairing

end CriticalSection
