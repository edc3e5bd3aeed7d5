import Mathlib.Data.List.Induction
import CriticalSection.Verifier.Pairing
import CriticalSection.Proofs.Table

/-!
# What pairing finds

The partner table of a log is symmetric, and each pair in it is an entry and a later exit of the
same process. This is kept from record to record: the processes that are known to be inside are
those whose latest entry has no partner yet.
-/

set_option autoImplicit false

namespace CriticalSection

/-- **An interval of a log**: an entry at a position, and a later exit of the same process. -/
def Log.Encloses (log : Log) (i j : Nat) : Prop :=
  ∃ a b, log[i]? = some a ∧ log[j]? = some b ∧ a.kind = .enter ∧ b.kind = .exit ∧
    a.process = b.process ∧ i < j

/-- A record stays where it is when others follow. -/
theorem Log.getElem?_append {log : Log} {i : Nat} {event : Event} (h : log[i]? = some event)
    (rest : Log) : (log ++ rest)[i]? = some event := by
  rw [List.getElem?_append_left (List.getElem?_eq_some_iff.mp h).1, h]

namespace Log.Encloses

variable {log : Log} {i j : Nat}

theorem append (h : log.Encloses i j) (rest : Log) : Log.Encloses (log ++ rest) i j := by
  obtain ⟨a, b, ha, hb, hrest⟩ := h
  exact ⟨a, b, Log.getElem?_append ha rest, Log.getElem?_append hb rest, hrest⟩

theorem lt_length (h : log.Encloses i j) : j < log.length := by
  obtain ⟨a, b, -, hb, -⟩ := h
  exact (List.getElem?_eq_some_iff.mp hb).1

end Log.Encloses

namespace Pairing

/-- **A sound pairing** of the records so far. -/
structure Sound (p : Pairing) (log : Log) : Prop where
  inside : ∀ (q : ProcessId) (i : Nat), p.inside[q]? = some i →
    ∃ a, log[i]? = some a ∧ a.process = q ∧ a.kind = .enter ∧ p.partner[i]? = none
  partner : ∀ i j : Nat, p.partner[i]? = some j →
    p.partner[j]? = some i ∧ (log.Encloses i j ∨ log.Encloses j i)

variable {p : Pairing} {log : Log}

/-- A position past the end has no partner. -/
theorem Sound.partner_of_length_le (h : p.Sound log) {i : Nat} (hi : log.length ≤ i) :
    p.partner[i]? = none := by
  rw [Option.eq_none_iff_forall_ne_some]
  intro j hj
  rcases (h.partner i j hj).2 with hencloses | hencloses
  · have := hencloses.lt_length
    obtain ⟨-, -, -, -, -, -, -, hlt⟩ := hencloses
    omega
  · have := hencloses.lt_length
    omega

/-- What is sound stays sound when a record is added that changes nothing. -/
theorem Sound.append (h : p.Sound log) (event : Event) : p.Sound (log ++ [event]) := by
  refine ⟨fun q i hi => ?_, fun i j hij => ?_⟩
  · obtain ⟨a, ha, hrest⟩ := h.inside q i hi
    exact ⟨a, Log.getElem?_append ha [event], hrest⟩
  · obtain ⟨hsymm, hencloses⟩ := h.partner i j hij
    exact ⟨hsymm, hencloses.imp (·.append [event]) (·.append [event])⟩

theorem getElem?_concat_length (log : Log) (event : Event) :
    (log ++ [event])[log.length]? = some event := by
  simp

/-- A process that enters is inside since the record that is added. -/
theorem Sound.enter (h : p.Sound log) {event : Event} (hkind : event.kind = .enter) :
    Sound { p with inside := p.inside.insert event.process log.length } (log ++ [event]) := by
  have happend := h.append event
  refine ⟨fun q i hi => ?_, happend.partner⟩
  rw [Table.getElem?_insert] at hi
  split at hi
  · next hq =>
      obtain rfl := Option.some.inj hi
      exact ⟨event, getElem?_concat_length log event, hq.symm, hkind,
        h.partner_of_length_le (Nat.le_refl _)⟩
  · exact happend.inside q i hi

/-- A process that leaves ends the interval that began with its entry. -/
theorem Sound.exit (h : p.Sound log) {event : Event} (hkind : event.kind = .exit) {entry : Nat}
    (hinside : p.inside[event.process]? = some entry) :
    Sound
      { p with
        partner := (p.partner.insert entry log.length).insert log.length entry
        inside := p.inside.erase event.process } (log ++ [event]) := by
  obtain ⟨a, ha, hprocess, hkinda, hnone⟩ := h.inside _ _ hinside
  have hentry : entry < log.length := (List.getElem?_eq_some_iff.mp ha).1
  have hencloses : Log.Encloses (log ++ [event]) entry log.length :=
    ⟨a, event, Log.getElem?_append ha [event], getElem?_concat_length log event, hkinda, hkind,
      hprocess, hentry⟩
  have hpartner : ∀ i : Nat, ((p.partner.insert entry log.length).insert log.length entry)[i]? =
      if i = log.length then some entry
      else if i = entry then some log.length else p.partner[i]? := by
    intro i
    rw [Table.getElem?_insert, Table.getElem?_insert]
  refine ⟨fun q i hi => ?_, fun i j hij => ?_⟩
  -- Another process is inside since another position, which gets no partner.
  · rw [Table.getElem?_erase] at hi
    split at hi
    · cases hi
    · next hq =>
        obtain ⟨b, hb, hbprocess, hkindb, hbnone⟩ := h.inside q i hi
        have hi' : i < log.length := (List.getElem?_eq_some_iff.mp hb).1
        refine ⟨b, Log.getElem?_append hb [event], hbprocess, hkindb, ?_⟩
        rw [hpartner, if_neg (by omega), if_neg ?_, hbnone]
        rintro rfl
        obtain rfl := Option.some.inj (ha.symm.trans hb)
        exact hq (hbprocess.symm.trans hprocess)
  -- The two ends are partners of each other, and nobody else was a partner of either.
  · rw [hpartner] at hij ⊢
    split at hij
    · next hi =>
        obtain rfl := Option.some.inj hij
        rw [if_neg (by omega), if_pos rfl, hi]
        exact ⟨rfl, Or.inr hencloses⟩
    · split at hij
      · next hi =>
          obtain rfl := Option.some.inj hij
          rw [if_pos rfl, hi]
          exact ⟨rfl, Or.inl hencloses⟩
      · obtain ⟨hsymm, hold⟩ := h.partner i j hij
        have hj : j ≠ log.length := by
          rintro rfl
          rw [h.partner_of_length_le (Nat.le_refl _)] at hsymm
          cases hsymm
        have hj' : j ≠ entry := by
          rintro rfl
          rw [hnone] at hsymm
          cases hsymm
        rw [if_neg hj, if_neg hj']
        exact ⟨hsymm, hold.imp (·.append [event]) (·.append [event])⟩

/-- **A record keeps a pairing sound.** -/
theorem Sound.step (h : p.Sound log) (event : Event) :
    (p.step event log.length).Sound (log ++ [event]) := by
  have happend := h.append event
  unfold Pairing.step
  split
  · next hkind _ => exact h.enter hkind
  · exact ⟨happend.inside, happend.partner⟩
  · next entry hkind hinside => exact h.exit hkind hinside
  · exact ⟨happend.inside, happend.partner⟩

theorem ofLog_concat (log : Log) (event : Event) :
    ofLog (log ++ [event]) = (ofLog log).step event log.length := by
  simp [ofLog, List.zipIdx_append]

/-- **The pairing of a log is sound.** -/
theorem sound_ofLog (log : Log) : (ofLog log).Sound log := by
  induction log using List.reverseRecOn with
  | nil => exact ⟨fun q i hi => by simp [ofLog, start] at hi, fun i j hij => by
      simp [ofLog, start] at hij⟩
  | append_singleton log event ih =>
      rw [ofLog_concat]
      exact ih.step event

/-- **The partner of an entry** is an exit that ends an interval with it. -/
theorem encloses_of_enter {i j : Nat} {a : Event} (h : (ofLog log).partner[i]? = some j)
    (ha : log[i]? = some a) (hkind : a.kind = .enter) : log.Encloses i j := by
  rcases ((sound_ofLog log).partner i j h).2 with hencloses | ⟨-, b, -, hb, -, hkindb, -⟩
  · exact hencloses
  · obtain rfl := Option.some.inj (ha.symm.trans hb)
    rw [hkind] at hkindb
    cases hkindb

/-- **The partner of an exit** is the entry with which its interval begins. -/
theorem encloses_of_exit {i j : Nat} {b : Event} (h : (ofLog log).partner[j]? = some i)
    (hb : log[j]? = some b) (hkind : b.kind = .exit) : log.Encloses i j := by
  rcases ((sound_ofLog log).partner j i h).2 with ⟨a, -, ha, -, hkinda, -⟩ | hencloses
  · obtain rfl := Option.some.inj (hb.symm.trans ha)
    rw [hkind] at hkinda
    cases hkinda
  · exact hencloses

/-- **Partners** are records of one process. -/
theorem exists_of_partner {i j : Nat} {a : Event} (h : (ofLog log).partner[i]? = some j)
    (ha : log[i]? = some a) : ∃ b, log[j]? = some b ∧ b.process = a.process := by
  rcases ((sound_ofLog log).partner i j h).2 with
    ⟨a', b, ha', hb, -, -, hprocess, -⟩ | ⟨b, a', hb, ha', -, -, hprocess, -⟩
  · obtain rfl := Option.some.inj (ha.symm.trans ha')
    exact ⟨b, hb, hprocess.symm⟩
  · obtain rfl := Option.some.inj (ha.symm.trans ha')
    exact ⟨b, hb, hprocess⟩

theorem partner_symm {i j : Nat} (h : (ofLog log).partner[i]? = some j) :
    (ofLog log).partner[j]? = some i := ((sound_ofLog log).partner i j h).1

end Pairing

end CriticalSection
