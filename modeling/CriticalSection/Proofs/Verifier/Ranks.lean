import CriticalSection.Proofs.Log.Place
import CriticalSection.Proofs.Verifier.Matching

/-!
# Records by their rank

The position of a record in a log depends on the records of others; its rank among the records of
its own process does not. Pairing respects ranks: whom a record is paired with is known from the
log of its process alone. So a record of a process can be found again in any other log with the
same records of each process, and there it has the same partner.
-/

set_option autoImplicit false

namespace CriticalSection

namespace Log

/-! ## Ranks -/

/-- **The rank of a position** among the records of a process: how many of them come before it. -/
def rank (log : Log) (p : ProcessId) (i : Nat) : Nat := (of (log.take i) p).length

variable {log : Log} {p : ProcessId} {i j : Nat} {a b : Event}

theorem rank_append (rest : Log) (h : i ≤ log.length) :
    rank (log ++ rest) p i = log.rank p i := place_append rest h

theorem rank_length (log : Log) (p : ProcessId) : log.rank p log.length = (log.of p).length :=
  place_length log _

/-- **A record stands at its rank** among the records of its process. -/
theorem getElem?_rank (ha : log[i]? = some a) :
    (log.of a.process)[log.rank a.process i]? = some a := getElem?_place ha (decide_eq_true rfl)

/-- Behind a record the ranks of its process are larger. -/
theorem rank_lt (ha : log[i]? = some a) (hij : i < j) :
    log.rank a.process i < log.rank a.process j := place_lt ha (decide_eq_true rfl) hij

theorem eq_of_rank_eq (ha : log[i]? = some a) (hb : log[j]? = some b)
    (hprocess : a.process = b.process) (hrank : log.rank a.process i = log.rank b.process j) :
    i = j := by
  rcases Nat.lt_trichotomy i j with hlt | heq | hlt
  · have := rank_lt ha hlt
    rw [hrank, hprocess] at this
    omega
  · exact heq
  · have := rank_lt hb hlt
    rw [← hrank, ← hprocess] at this
    omega

/-- **Whatever is among the records of a process** stands somewhere in the log, at that rank. -/
theorem exists_of_getElem?_of {k : Nat} (h : (log.of p)[k]? = some a) :
    ∃ i, log[i]? = some a ∧ a.process = p ∧ log.rank p i = k := by
  obtain ⟨i, hi, hprocess, hrank⟩ := exists_of_getElem?_filter h
  exact ⟨i, hi, of_decide_eq_true hprocess, hrank⟩

end Log

namespace Pairing

/-! ## Pairing by ranks -/

/-- **Since when a process is inside** after one record more: an entry counts if the process is
outside, and an exit ends its stay. -/
theorem inside_step (p : Pairing) (event : Event) (n : Nat) (q : ProcessId) :
    (p.step event n).inside[q]? =
      if event.process = q then
        match event.kind with
        | .enter => some ((p.inside[q]?).getD n)
        | .exit => none
      else p.inside[q]? := by
  unfold Pairing.step
  by_cases hq : event.process = q
  · subst hq
    rw [if_pos rfl]
    split
    · next hkind hnone => simp [hkind, hnone]
    · next first hkind hsome => simp [hkind, hsome]
    · next entry hkind hsome => simp [hkind]
    · next hkind hnone => simp [hkind, hnone]
  · rw [if_neg hq]
    split
    · rw [Table.getElem?_insert, if_neg (Ne.symm hq)]
    · rfl
    · rw [Table.getElem?_erase, if_neg (Ne.symm hq)]
    · rfl

/-- Since when a process is inside is known from its own records. -/
theorem inside_rank (log : Log) (p : ProcessId) :
    (ofLog (log.of p)).inside[p]? = ((ofLog log).inside[p]?).map (log.rank p) := by
  induction log using List.reverseRecOn with
  | nil => simp [Log.of, ofLog, start]
  | append_singleton log event ih =>
      have hrank : ∀ i, (ofLog log).inside[p]? = some i →
          Log.rank (log ++ [event]) p i = Log.rank log p i := by
        intro i hi
        obtain ⟨a, ha, -⟩ := (sound_ofLog log).inside p i hi
        exact Log.rank_append _ (Nat.le_of_lt (List.getElem?_eq_some_iff.mp ha).1)
      rw [Log.of_append, ofLog_concat log, inside_step]
      by_cases hp : event.process = p
      · have hone : Log.of [event] p = [event] := by simp [Log.of, hp]
        rw [hone, ofLog_concat, inside_step, if_pos hp, if_pos hp, ih]
        cases event.kind with
        | exit => rfl
        | enter =>
            cases hinside : (ofLog log).inside[p]? with
            | some i => simp [hrank i hinside]
            | none => simp [Log.rank_append, Log.rank_length]
      · have hnone : Log.of [event] p = [] := by simp [Log.of, hp]
        rw [hnone, List.append_nil, if_neg hp, ih]
        cases hinside : (ofLog log).inside[p]? with
        | some i => simp [hrank i hinside]
        | none => rfl

variable {log : Log} {i j : Nat} {a b : Event}

/-- The partner of an exit is known from the records of its process. -/
theorem partner_rank_of_exit (hb : log[j]? = some b) (hkind : b.kind = .exit) :
    (ofLog (log.of b.process)).partner[log.rank b.process j]? =
      ((ofLog log).partner[j]?).map (log.rank b.process) := by
  obtain ⟨front, rest, rfl, rfl⟩ := Log.exists_append hb
  rw [Log.rank_append _ (Nat.le_refl _), Log.rank_length, Log.of_append, Log.of_cons_self,
    partner_of_exit _ _ hkind, partner_of_exit _ _ hkind, inside_rank]
  -- whatever the process is inside since stands in front of the exit
  cases hinside : (ofLog front).inside[b.process]? with
  | none => rfl
  | some entry =>
      obtain ⟨a, ha, -⟩ := (sound_ofLog front).inside _ _ hinside
      have hle : entry ≤ front.length := Nat.le_of_lt (List.getElem?_eq_some_iff.mp ha).1
      rw [Option.map_some, Option.map_some, Log.rank_append _ hle]

/-- **Whom a record is paired with** is known from the records of its process. -/
theorem partner_rank (ha : log[i]? = some a) :
    (ofLog (log.of a.process)).partner[log.rank a.process i]? =
      ((ofLog log).partner[i]?).map (log.rank a.process) := by
  cases hkind : a.kind with
  | exit => exact partner_rank_of_exit ha hkind
  | enter =>
      -- an entry is the partner of the exit that has it for a partner
      refine Option.ext fun k => ?_
      rw [Option.map_eq_some_iff]
      constructor
      · intro hown
        obtain ⟨-, b, -, hb, -, hkindb, -⟩ := encloses_of_enter hown (Log.getElem?_rank ha) hkind
        obtain ⟨j, hj, hprocess, rfl⟩ := Log.exists_of_getElem?_of hb
        have hback := partner_symm hown
        rw [← hprocess, partner_rank_of_exit hj hkindb, Option.map_eq_some_iff] at hback
        obtain ⟨i', hi', hrank⟩ := hback
        obtain ⟨a', b', ha', hb', -, -, hsame, -⟩ := encloses_of_exit hi' hj hkindb
        obtain rfl := Option.some.inj (hj.symm.trans hb')
        have heq : i' = i := by
          refine Log.eq_of_rank_eq ha' ha (hsame.trans hprocess) ?_
          rw [hsame, hrank, hprocess]
        exact ⟨j, heq ▸ partner_symm hi', rfl⟩
      · rintro ⟨j, hpartner, rfl⟩
        obtain ⟨a', b, ha', hb, -, hkindb, hprocess, -⟩ := encloses_of_enter hpartner ha hkind
        obtain rfl := Option.some.inj (ha.symm.trans ha')
        refine partner_symm ?_
        rw [hprocess, partner_rank_of_exit hb hkindb, partner_symm hpartner]
        rfl

end Pairing

end CriticalSection
