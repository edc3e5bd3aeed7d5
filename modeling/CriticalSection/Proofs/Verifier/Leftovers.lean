import Mathlib.Data.List.Nodup
import CriticalSection.Proofs.Verifier.Matching

/-!
# What pairing leaves over

The partners of a log are a matching: an exit takes the entry since which its process is inside, and
entries that were passed over on the way get no partner. Every record is then one end of a pair or
is warned about once. An entry has been passed over when its process was inside already
(`reentered`), or it is the one since which its process is inside when the log ends (`notLeft`); an
exit has no partner when its process was outside (`notEntered`).
-/

set_option autoImplicit false

namespace CriticalSection

/-! ## Definitions -/

namespace Log

/-- A process enters with the record at a position. -/
def Enters (log : Log) (q : ProcessId) (i : Nat) : Prop :=
  ∃ a, log[i]? = some a ∧ a.process = q ∧ a.kind = .enter

/-- A process leaves with the record at a position. -/
def Leaves (log : Log) (q : ProcessId) (i : Nat) : Prop :=
  ∃ a, log[i]? = some a ∧ a.process = q ∧ a.kind = .exit

/-- **A process has been inside since a position** when another one is reached: it came from
outside there and has not left since. -/
structure InsideSince (log : Log) (q : ProcessId) (i k : Nat) : Prop where
  enters : log.Enters q i
  outside : ¬ Log.IsInside (log.take i) q
  remains : log.Remains q i k

/-- **A matching of the entries and exits of a log.** -/
structure Matching (log : Log) (partner : Std.TreeMap Nat Nat) : Prop where
  symm : ∀ i j : Nat, partner[i]? = some j ↔ partner[j]? = some i
  irrefl : ∀ i : Nat, partner[i]? ≠ some i
  /-- A pair is an entry and an exit of one process, which does not leave between the two, and whose
  entries between the two have no partner. -/
  pair : ∀ i j : Nat, partner[i]? = some j → i < j → ∃ q, log.Enters q i ∧ log.Leaves q j ∧
    ∀ k, i < k → k < j → ¬ log.Leaves q k ∧ (log.Enters q k → partner[k]? = none)
  /-- An exit has no partner just when its process has left after each earlier entry. -/
  exit : ∀ (q : ProcessId) (j : Nat), log.Leaves q j →
    (partner[j]? = none ↔ ∀ i, i < j → log.Enters q i → ∃ k, i < k ∧ k < j ∧ log.Leaves q k)

/-- **The pairs of a log**, each with the position of its entry first. -/
def pairs (log : Log) : List (Nat × Nat) :=
  (List.range log.length).filterMap fun i =>
    ((Pairing.ofLog log).partner[i]?).bind fun j => if i < j then some (i, j) else none

/-- The lines on which the entries of pairs stand. -/
def entryLines (log : Log) : List Nat := log.pairs.map fun pair => pair.1 + 1

/-- The lines on which the exits of pairs stand. -/
def exitLines (log : Log) : List Nat := log.pairs.map fun pair => pair.2 + 1

end Log

namespace Warning

/-- The line a warning is about. -/
def line : Warning → Nat
  | .reentered line _ _ => line
  | .notEntered line _ => line
  | .notLeft line _ => line

/-- Whether a warning can only be given when the log has ended. -/
def isFinal : Warning → Bool
  | .notLeft .. => true
  | _ => false

/-- **The order of warnings**: those met on the way come first, and in either part they are in the
order of their lines. -/
def Before (w w' : Warning) : Prop :=
  w.isFinal = false ∧ w'.isFinal = true ∨ w.isFinal = w'.isFinal ∧ w.line < w'.line

/-- **What a warning says of a log.** -/
def Describes (log : Log) : Warning → Prop
  | .reentered line q since => ∃ i k, since = i + 1 ∧ line = k + 1 ∧ i < k ∧
      log.InsideSince q i k ∧ log.Enters q k
  | .notEntered line q => ∃ k, line = k + 1 ∧ log.Leaves q k ∧ ¬ Log.IsInside (log.take k) q
  | .notLeft line q => ∃ i, line = i + 1 ∧ log.InsideSince q i log.length

end Warning

/-! ## Entries and exits -/

namespace Log

variable {log : Log} {q : ProcessId} {i j k : Nat}

theorem Enters.lt_length (h : log.Enters q i) : i < log.length := by
  obtain ⟨a, ha, -⟩ := h
  exact (List.getElem?_eq_some_iff.mp ha).1

theorem Leaves.lt_length (h : log.Leaves q i) : i < log.length := by
  obtain ⟨a, ha, -⟩ := h
  exact (List.getElem?_eq_some_iff.mp ha).1

theorem Enters.append (h : log.Enters q i) (rest : Log) : Log.Enters (log ++ rest) q i := by
  obtain ⟨a, ha, hrest⟩ := h
  exact ⟨a, getElem?_append ha rest, hrest⟩

theorem Leaves.append (h : log.Leaves q i) (rest : Log) : Log.Leaves (log ++ rest) q i := by
  obtain ⟨a, ha, hrest⟩ := h
  exact ⟨a, getElem?_append ha rest, hrest⟩

theorem InsideSince.append (h : log.InsideSince q i k) (hk : k ≤ log.length) (rest : Log) :
    Log.InsideSince (log ++ rest) q i k := by
  refine ⟨h.enters.append rest, ?_, h.remains.append hk rest⟩
  rw [List.take_append_of_le_length (Nat.le_of_lt h.enters.lt_length)]
  exact h.outside

/-- An interval is an entry and an exit of one process. -/
theorem Encloses.enters_leaves (h : log.Encloses i j) : ∃ q, log.Enters q i ∧ log.Leaves q j := by
  obtain ⟨a, b, ha, hb, hkinda, hkindb, hprocess, -⟩ := h
  exact ⟨a.process, ⟨a, ha, rfl, hkinda⟩, ⟨b, hb, hprocess.symm, hkindb⟩⟩

theorem Encloses.lt (h : log.Encloses i j) : i < j := by
  obtain ⟨-, -, -, -, -, -, -, hlt⟩ := h
  exact hlt

/-- To remain inside is not to leave. -/
theorem remains_iff : log.Remains q i j ↔ ∀ k, i < k → k < j → ¬ log.Leaves q k := by
  constructor
  · rintro h k hi hj ⟨a, ha, hprocess, hkind⟩
    rw [h k a hi hj ha hprocess] at hkind
    cases hkind
  · intro h k a hi hj ha hprocess
    cases hkind : a.kind with
    | enter => rfl
    | exit => exact absurd ⟨a, ha, hprocess, hkind⟩ (h k hi hj)

/-- Who has entered and not left since is inside. -/
theorem Enters.isInside (h : log.Enters q i) (hremains : log.Remains q i log.length) :
    log.IsInside q := by
  induction log using List.reverseRecOn with
  | nil => exact absurd h.lt_length (Nat.not_lt_zero i)
  | append_singleton log event ih =>
      have hlength : (log ++ [event]).length = log.length + 1 := by simp
      rw [isInside_concat]
      rcases Nat.lt_or_eq_of_le (Nat.le_of_lt_succ (hlength ▸ h.lt_length)) with hlt | rfl
      · split
        · next heq =>
            exact hremains _ event hlt (by omega) (Pairing.getElem?_concat_length log event) heq
        · obtain ⟨a, ha, hrest⟩ := h
          rw [List.getElem?_append_left hlt] at ha
          refine ih ⟨a, ha, hrest⟩ fun k b hi hk hb => ?_
          exact hremains k b hi (by omega) (getElem?_append hb [event])
      · obtain ⟨a, ha, rfl, hkind⟩ := h
        rw [Pairing.getElem?_concat_length] at ha
        obtain rfl := Option.some.inj ha
        rw [if_pos rfl]
        exact hkind

/-- **Who is inside** has entered and not left since. -/
theorem isInside_iff : log.IsInside q ↔ ∃ i, log.Enters q i ∧ log.Remains q i log.length := by
  refine ⟨fun h => ?_, fun ⟨i, henters, hremains⟩ => henters.isInside hremains⟩
  obtain ⟨i, hi⟩ := Option.isSome_iff_exists.mp (((Pairing.follows_ofLog log).inside q).mpr h)
  obtain ⟨a, ha, hprocess, hkind, -⟩ := (Pairing.sound_ofLog log).inside q i hi
  exact ⟨i, ⟨a, ha, hprocess, hkind⟩, (Pairing.follows_ofLog log).since q i hi⟩

/-- **Who is outside** has left after each entry. -/
theorem not_isInside_take_iff (hj : j ≤ log.length) :
    ¬ Log.IsInside (log.take j) q ↔
      ∀ i, i < j → log.Enters q i → ∃ k, i < k ∧ k < j ∧ log.Leaves q k := by
  have hlength : (log.take j).length = j := List.length_take_of_le hj
  have hget : ∀ {i : Nat}, i < j → (log.take j)[i]? = log[i]? := fun hi => by
    rw [List.getElem?_take, if_pos hi]
  rw [isInside_iff, hlength]
  constructor
  · intro h i hi henters
    by_contra hnone
    refine h ⟨i, ?_, remains_iff.mpr fun k hik hkj hleaves => hnone ⟨k, hik, hkj, ?_⟩⟩
    · unfold Enters
      rwa [hget hi]
    · unfold Leaves at hleaves
      rwa [hget hkj] at hleaves
  · rintro h ⟨i, henters, hremains⟩
    have hi : i < j := hlength ▸ henters.lt_length
    unfold Enters at henters
    rw [hget hi] at henters
    obtain ⟨k, hik, hkj, hleaves⟩ := h i hi henters
    unfold Leaves at hleaves
    rw [← hget hkj] at hleaves
    exact remains_iff.mp hremains k hik hkj hleaves

end Log

/-! ## The matching -/

namespace Pairing

variable {log : Log} {q : ProcessId} {i j k : Nat}

theorem lt_length_of_partner (h : (ofLog log).partner[i]? = some j) : i < log.length := by
  refine Nat.lt_of_not_le fun hle => ?_
  rw [(sound_ofLog log).partner_of_length_le hle] at h
  cases h

/-- Between partners their process does not leave. -/
theorem remains_of_partner (h : (ofLog log).partner[i]? = some j) (henters : log.Enters q i) :
    log.Remains q i j := by
  obtain ⟨a, ha, rfl, hkind⟩ := henters
  exact (follows_ofLog log).partner i j a h ha hkind

/-- The partner of an entry of a process is a later exit of it. -/
theorem leaves_of_partner (h : (ofLog log).partner[i]? = some j) (henters : log.Enters q i) :
    i < j ∧ log.Leaves q j := by
  obtain ⟨a, ha, rfl, hkind⟩ := henters
  obtain ⟨a', b, ha', hb, -, hkindb, hprocess, hlt⟩ := encloses_of_enter h ha hkind
  obtain rfl := Option.some.inj (ha.symm.trans ha')
  exact ⟨hlt, b, hb, hprocess.symm, hkindb⟩

/-- **An entry between partners has no partner**: one of the two exits would be between the other
and its entry. -/
theorem partner_of_between (h : (ofLog log).partner[i]? = some j) (henters : log.Enters q i)
    (hik : i < k) (hkj : k < j) (hk : log.Enters q k) : (ofLog log).partner[k]? = none := by
  rw [Option.eq_none_iff_forall_ne_some]
  intro l hl
  obtain ⟨hij, hleaves⟩ := leaves_of_partner h henters
  obtain ⟨hkl, hleaves'⟩ := leaves_of_partner hl hk
  rcases Nat.lt_trichotomy l j with hlt | rfl | hgt
  · exact Log.remains_iff.mp (remains_of_partner h henters) l (by omega) hlt hleaves'
  · have hback := (partner_symm hl).symm.trans (partner_symm h)
    have := Option.some.inj hback
    omega
  · exact Log.remains_iff.mp (remains_of_partner hl hk) j hkj hgt hleaves

/-- **An exit has no partner** just when its process was outside. -/
theorem partner_eq_none_iff_of_leaves (h : log.Leaves q j) :
    (ofLog log).partner[j]? = none ↔ ¬ Log.IsInside (log.take j) q := by
  obtain ⟨b, hb, rfl, hkind⟩ := h
  obtain ⟨hj, rfl⟩ := List.getElem?_eq_some_iff.mp hb
  have hsplit : log = log.take j ++ log[j] :: log.drop (j + 1) := by
    rw [List.getElem_cons_drop, List.take_append_drop]
  have hlength : (log.take j).length = j := List.length_take_of_le (Nat.le_of_lt hj)
  have hiff := isSome_partner_of_exit (log.take j) (log.drop (j + 1)) hkind
  rw [← hsplit, hlength] at hiff
  rw [← hiff, Option.not_isSome_iff_eq_none]

/-- **The partners of a log are a matching.** -/
theorem matching (log : Log) : log.Matching (ofLog log).partner where
  symm i j := ⟨partner_symm, partner_symm⟩
  irrefl i h := by
    rcases ((sound_ofLog log).partner i i h).2 with hencloses | hencloses <;>
      exact Nat.lt_irrefl i hencloses.lt
  pair i j h hij := by
    rcases ((sound_ofLog log).partner i j h).2 with hencloses | hencloses
    · obtain ⟨q, henters, hleaves⟩ := hencloses.enters_leaves
      refine ⟨q, henters, hleaves, fun k hik hkj => ⟨?_, partner_of_between h henters hik hkj⟩⟩
      exact Log.remains_iff.mp (remains_of_partner h henters) k hik hkj
    · have := hencloses.lt
      omega
  exit q j hleaves := by
    rw [partner_eq_none_iff_of_leaves hleaves,
      Log.not_isInside_take_iff (Nat.le_of_lt hleaves.lt_length)]

/-! ## Warnings on the way -/

/-- **The account of the records so far**: each of them has a partner, or it is the entry since
which its process is inside, or a warning has been given that describes it. -/
structure Accounts (p : Pairing) (log : Log) : Prop where
  outside : ∀ (q : ProcessId) (i : Nat), p.inside[q]? = some i → ¬ Log.IsInside (log.take i) q
  describes : ∀ w ∈ p.warnings, w.isFinal = false ∧ w.Describes log
  latest : p.warnings.Pairwise fun w w' => w'.line < w.line
  warned : ∀ i, i < log.length →
    ((∃ w ∈ p.warnings, w.line = i + 1) ↔
      p.partner[i]? = none ∧ ∀ q : ProcessId, p.inside[q]? ≠ some i)

end Pairing

namespace Warning

variable {log : Log} {w : Warning}

/-- What is said on the way stays true when more records follow. -/
theorem Describes.append (h : w.Describes log) (hfinal : w.isFinal = false) (rest : Log) :
    w.Describes (log ++ rest) := by
  cases w with
  | reentered line q since =>
      obtain ⟨i, k, hi, hk, hlt, hinside, henters⟩ := h
      exact ⟨i, k, hi, hk, hlt, hinside.append (Nat.le_of_lt henters.lt_length) rest,
        henters.append rest⟩
  | notEntered line q =>
      obtain ⟨k, hk, hleaves, houtside⟩ := h
      refine ⟨k, hk, hleaves.append rest, ?_⟩
      rwa [List.take_append_of_le_length (Nat.le_of_lt hleaves.lt_length)]
  | notLeft line q => cases hfinal

/-- A warning is about a record of the log. -/
theorem Describes.exists_line (h : w.Describes log) : ∃ k, w.line = k + 1 ∧ k < log.length := by
  cases w with
  | reentered line q since =>
      obtain ⟨-, k, -, hk, -, -, henters⟩ := h
      exact ⟨k, hk, henters.lt_length⟩
  | notEntered line q =>
      obtain ⟨k, hk, hleaves, -⟩ := h
      exact ⟨k, hk, hleaves.lt_length⟩
  | notLeft line q =>
      obtain ⟨i, hi, hinside⟩ := h
      exact ⟨i, hi, hinside.enters.lt_length⟩

end Warning

namespace Pairing

variable {p : Pairing} {log : Log} {event : Event}

/-- Who is known to be inside has been so since its entry. -/
theorem Accounts.insideSince (h : p.Accounts log) (hsound : p.Sound log) (hfollows : p.Follows log)
    {q : ProcessId} {i : Nat} (hi : p.inside[q]? = some i) : log.InsideSince q i log.length := by
  obtain ⟨a, ha, hprocess, hkind, -⟩ := hsound.inside q i hi
  exact ⟨⟨a, ha, hprocess, hkind⟩, h.outside q i hi, hfollows.since q i hi⟩

theorem Sound.lt_length_of_inside (h : p.Sound log) {q : ProcessId} {i : Nat}
    (hi : p.inside[q]? = some i) : i < log.length := by
  obtain ⟨a, ha, -⟩ := h.inside q i hi
  exact (List.getElem?_eq_some_iff.mp ha).1

theorem Accounts.outside_append (h : p.Accounts log) (hsound : p.Sound log) {q : ProcessId}
    {i : Nat} (hi : p.inside[q]? = some i) (rest : Log) :
    ¬ Log.IsInside ((log ++ rest).take i) q := by
  rw [List.take_append_of_le_length (Nat.le_of_lt (hsound.lt_length_of_inside hi))]
  exact h.outside q i hi

theorem Accounts.describes_append (h : p.Accounts log) (rest : Log) :
    ∀ w ∈ p.warnings, w.isFinal = false ∧ w.Describes (log ++ rest) := fun w hw =>
  ⟨(h.describes w hw).1, (h.describes w hw).2.append (h.describes w hw).1 rest⟩

/-- The warnings so far are about earlier lines. -/
theorem Accounts.line_le (h : p.Accounts log) {w : Warning} (hw : w ∈ p.warnings) :
    w.line ≤ log.length := by
  obtain ⟨k, hk, hlt⟩ := (h.describes w hw).2.exists_line
  omega

/-- A warning about the record that is added keeps the account. -/
theorem Accounts.warn (h : p.Accounts log) (hsound : p.Sound log) {w : Warning}
    (hline : w.line = log.length + 1) (hfinal : w.isFinal = false)
    (hdescribes : w.Describes (log ++ [event])) :
    Accounts { p with warnings := w :: p.warnings } (log ++ [event]) where
  outside q i hi := h.outside_append hsound hi [event]
  describes := List.forall_mem_cons.mpr ⟨⟨hfinal, hdescribes⟩, h.describes_append [event]⟩
  latest := by
    refine List.pairwise_cons.mpr ⟨fun w' hw' => ?_, h.latest⟩
    have := h.line_le hw'
    omega
  warned i hi := by
    rw [List.length_append, List.length_singleton] at hi
    simp only [List.mem_cons, exists_eq_or_imp, hline]
    rcases Nat.lt_or_eq_of_le (Nat.le_of_lt_succ hi) with hlt | rfl
    · rw [← h.warned i hlt, or_iff_right (by omega)]
    · refine iff_of_true (.inl rfl) ⟨hsound.partner_of_length_le (Nat.le_refl _), fun q hq => ?_⟩
      exact Nat.lt_irrefl _ (hsound.lt_length_of_inside hq)

/-- A process that enters from outside is inside since the record that is added. -/
theorem Accounts.enter (h : p.Accounts log) (hsound : p.Sound log) (hfollows : p.Follows log)
    (hnone : p.inside[event.process]? = none) :
    Accounts { p with inside := p.inside.insert event.process log.length } (log ++ [event]) where
  outside q i hi := by
    rw [Table.getElem?_insert] at hi
    split at hi
    · next heq =>
        obtain rfl := Option.some.inj hi
        rw [List.take_left, ← hfollows.inside, heq, hnone]
        exact Bool.false_ne_true
    · exact h.outside_append hsound hi [event]
  describes := h.describes_append [event]
  latest := h.latest
  warned i hi := by
    rw [List.length_append, List.length_singleton] at hi
    simp only [Table.getElem?_insert]
    rcases Nat.lt_or_eq_of_le (Nat.le_of_lt_succ hi) with hlt | rfl
    · rw [h.warned i hlt]
      refine and_congr_right fun _ => forall_congr' fun q => ?_
      split
      · next heq =>
          rw [heq, hnone]
          exact iff_of_true (by simp) (by simpa using Nat.ne_of_gt hlt)
      · rfl
    · refine iff_of_false ?_ fun ⟨_, hall⟩ => hall event.process (if_pos rfl)
      rintro ⟨w, hw, hline⟩
      have := h.line_le hw
      omega

/-- A process that leaves gives its entry a partner. -/
theorem Accounts.exit (h : p.Accounts log) (hsound : p.Sound log) {entry : Nat}
    (hentry : p.inside[event.process]? = some entry) :
    Accounts
      { p with
        partner := (p.partner.insert entry log.length).insert log.length entry
        inside := p.inside.erase event.process } (log ++ [event]) where
  outside q i hi := by
    rw [Table.getElem?_erase] at hi
    split at hi
    · cases hi
    · exact h.outside_append hsound hi [event]
  describes := h.describes_append [event]
  latest := h.latest
  warned i hi := by
    have hlt := hsound.lt_length_of_inside hentry
    rw [List.length_append, List.length_singleton] at hi
    simp only [Table.getElem?_insert, Table.getElem?_erase]
    rcases Nat.lt_or_eq_of_le (Nat.le_of_lt_succ hi) with hi | rfl
    · rw [if_neg (Nat.ne_of_lt hi), h.warned i hi]
      by_cases heq : i = entry
      · rw [if_pos heq]
        exact iff_of_false (fun ⟨_, hall⟩ => hall _ (heq ▸ hentry)) (by simp)
      · rw [if_neg heq]
        refine and_congr_right fun _ => forall_congr' fun q => ?_
        split
        · next hq =>
            rw [hq, hentry]
            exact iff_of_true (by simpa using Ne.symm heq) (by simp)
        · rfl
    · rw [if_pos rfl]
      refine iff_of_false ?_ (by simp)
      rintro ⟨w, hw, hline⟩
      have := h.line_le hw
      omega

/-- **A record keeps the account.** -/
theorem Accounts.step (h : p.Accounts log) (hsound : p.Sound log) (hfollows : p.Follows log)
    (event : Event) : (p.step event log.length).Accounts (log ++ [event]) := by
  have hget := getElem?_concat_length log event
  unfold Pairing.step
  split
  · next _ hnone => exact h.enter hsound hfollows hnone
  · next first hkind hfirst =>
      have hinside := h.insideSince hsound hfollows hfirst
      exact h.warn hsound rfl rfl ⟨first, log.length, rfl, rfl, hinside.enters.lt_length,
        hinside.append (Nat.le_refl _) [event], event, hget, rfl, hkind⟩
  · next entry _ hentry => exact h.exit hsound hentry
  · next hkind hnone =>
      refine h.warn hsound rfl rfl ⟨log.length, rfl, ⟨event, hget, rfl, hkind⟩, ?_⟩
      rw [List.take_left, ← hfollows.inside, hnone]
      exact Bool.false_ne_true

/-- **The pairing of a log accounts for it.** -/
theorem accounts_ofLog (log : Log) : (ofLog log).Accounts log := by
  induction log using List.reverseRecOn with
  | nil =>
      refine ⟨fun q i hi => by simp [ofLog, start] at hi, fun w hw => ?_, .nil, fun i hi => ?_⟩
      · exact absurd hw List.not_mem_nil
      · exact absurd hi (Nat.not_lt_zero i)
  | append_singleton log event ih =>
      rw [ofLog_concat]
      exact ih.step (sound_ofLog log) (follows_ofLog log) event

/-! ## All warnings -/

/-- The processes that are inside when the log ends, in the order of their entries. -/
def unpaired (p : Pairing) : List (ProcessId × Nat) :=
  p.inside.toList.mergeSort fun a b => a.2 ≤ b.2

theorem mem_unpaired {q : ProcessId} {i : Nat} : (q, i) ∈ p.unpaired ↔ p.inside[q]? = some i := by
  rw [unpaired, List.mem_mergeSort, Std.TreeMap.mem_toList_iff_getElem?_eq_some]

/-- No two processes are inside since the same entry. -/
theorem Sound.pairwise_unpaired (h : p.Sound log) : p.unpaired.Pairwise fun a b => a.2 < b.2 := by
  have hle : p.unpaired.Pairwise fun a b => a.2 ≤ b.2 := by
    refine (List.pairwise_mergeSort (fun a b c => ?_) (fun a b => ?_) _).imp of_decide_eq_true
    · simpa using Nat.le_trans
    · simpa using Nat.le_total a.2 b.2
  have hne : p.unpaired.Pairwise fun a b => a.1 ≠ b.1 := by
    refine (List.mergeSort_perm _ _).symm.pairwise ?_ Ne.symm
    refine Std.TreeMap.distinct_keys_toList.imp fun {a b} hne heq => hne ?_
    rw [heq]
    exact Std.ReflCmp.compare_self
  refine (hle.and hne).imp_of_mem fun {a b} ha hb ⟨hle, hne⟩ => Nat.lt_of_le_of_ne hle fun heq => ?_
  obtain ⟨c, hc, hprocess, -⟩ := h.inside _ _ (mem_unpaired.mp ha)
  obtain ⟨d, hd, hprocess', -⟩ := h.inside _ _ (mem_unpaired.mp hb)
  rw [heq, hd] at hc
  obtain rfl := Option.some.inj hc
  exact hne (hprocess.symm.trans hprocess')

theorem allWarnings_eq (p : Pairing) :
    p.allWarnings = p.warnings.reverse ++ p.unpaired.map fun a => .notLeft (a.2 + 1) a.1 := rfl

theorem mem_allWarnings {w : Warning} :
    w ∈ p.allWarnings ↔ w ∈ p.warnings ∨ ∃ q i, p.inside[q]? = some i ∧ w = .notLeft (i + 1) q := by
  rw [allWarnings_eq, List.mem_append, List.mem_reverse, List.mem_map]
  refine or_congr_right ⟨?_, ?_⟩
  · rintro ⟨⟨q, i⟩, hmem, rfl⟩
    exact ⟨q, i, mem_unpaired.mp hmem, rfl⟩
  · rintro ⟨q, i, hi, rfl⟩
    exact ⟨(q, i), mem_unpaired.mpr hi, rfl⟩

/-- **All warnings are in order.** -/
theorem pairwise_allWarnings (log : Log) : (ofLog log).allWarnings.Pairwise Warning.Before := by
  have haccounts := accounts_ofLog log
  rw [allWarnings_eq]
  refine List.pairwise_append.mpr ⟨?_, ?_, fun w hw w' hw' => ?_⟩
  · refine List.pairwise_reverse.mpr (haccounts.latest.imp_of_mem fun hw hw' hlt => .inr ⟨?_, hlt⟩)
    rw [(haccounts.describes _ hw).1, (haccounts.describes _ hw').1]
  · refine List.pairwise_map.mpr ((sound_ofLog log).pairwise_unpaired.imp fun hlt => .inr ⟨rfl, ?_⟩)
    exact Nat.succ_lt_succ hlt
  · obtain ⟨a, -, rfl⟩ := List.mem_map.mp hw'
    exact .inl ⟨(haccounts.describes w (List.mem_reverse.mp hw)).1, rfl⟩

/-- **All warnings describe the log.** -/
theorem describes_of_mem_allWarnings {w : Warning} (hw : w ∈ (ofLog log).allWarnings) :
    w.Describes log := by
  rcases mem_allWarnings.mp hw with hw | ⟨q, i, hi, rfl⟩
  · exact ((accounts_ofLog log).describes w hw).2
  · exact ⟨i, rfl, (accounts_ofLog log).insideSince (sound_ofLog log) (follows_ofLog log) hi⟩

/-- **A line is warned about** just when its record has no partner. -/
theorem mem_map_line_iff {i : Nat} :
    i + 1 ∈ (ofLog log).allWarnings.map Warning.line ↔
      i < log.length ∧ (ofLog log).partner[i]? = none := by
  have haccounts := accounts_ofLog log
  have hsound := sound_ofLog log
  constructor
  · rintro hmem
    obtain ⟨w, hw, hline⟩ := List.mem_map.mp hmem
    obtain ⟨k, hk, hlt⟩ := (describes_of_mem_allWarnings hw).exists_line
    obtain rfl : k = i := by omega
    refine ⟨hlt, ?_⟩
    rcases mem_allWarnings.mp hw with hw | ⟨q, i, hi, rfl⟩
    · exact ((haccounts.warned k hlt).mp ⟨w, hw, hline⟩).1
    · obtain rfl : i = k := Nat.succ.inj hline
      obtain ⟨-, -, -, -, hnone⟩ := hsound.inside q i hi
      exact hnone
  · rintro ⟨hlt, hnone⟩
    by_cases hinside : ∃ q : ProcessId, (ofLog log).inside[q]? = some i
    · obtain ⟨q, hq⟩ := hinside
      exact List.mem_map.mpr ⟨_, mem_allWarnings.mpr (.inr ⟨q, i, hq, rfl⟩), rfl⟩
    · obtain ⟨w, hw, hline⟩ :=
        (haccounts.warned i hlt).mpr ⟨hnone, fun q hq => hinside ⟨q, hq⟩⟩
      exact List.mem_map.mpr ⟨w, mem_allWarnings.mpr (.inl hw), hline⟩

/-- **No line is warned about twice**: what is found when the log ends has not been met before. -/
theorem nodup_map_line (log : Log) : ((ofLog log).allWarnings.map Warning.line).Nodup := by
  have haccounts := accounts_ofLog log
  refine List.pairwise_map.mpr
    ((pairwise_allWarnings log).imp_of_mem fun {w w'} hw hw' hbefore => ?_)
  rcases hbefore with ⟨hfirst, hfinal⟩ | ⟨-, hlt⟩
  · rcases mem_allWarnings.mp hw' with hw' | ⟨q, i, hi, rfl⟩
    · rw [(haccounts.describes w' hw').1] at hfinal
      cases hfinal
    · rcases mem_allWarnings.mp hw with hw | ⟨q', i', -, rfl⟩
      · intro hline
        have hlt := (sound_ofLog log).lt_length_of_inside hi
        exact ((haccounts.warned i hlt).mp ⟨w, hw, hline⟩).2 q hi
      · cases hfirst
  · exact Nat.ne_of_lt hlt

/-! ## Counting -/

theorem mem_pairs {log : Log} {i j : Nat} :
    (i, j) ∈ log.pairs ↔ (ofLog log).partner[i]? = some j ∧ i < j := by
  simp only [Log.pairs, List.mem_filterMap, List.mem_range, Option.bind_eq_some_iff,
    Option.ite_none_right_eq_some, Option.some.injEq, Prod.mk.injEq]
  constructor
  · rintro ⟨_, -, _, h, hlt, rfl, rfl⟩
    exact ⟨h, hlt⟩
  · rintro ⟨h, hlt⟩
    exact ⟨i, lt_length_of_partner h, j, h, hlt, rfl, rfl⟩

theorem pairwise_pairs (log : Log) : log.pairs.Pairwise fun a b => a.1 < b.1 := by
  refine List.pairwise_filterMap.mpr (List.pairwise_lt_range.imp fun hlt a ha b hb => ?_)
  obtain ⟨j, -, ha⟩ := Option.bind_eq_some_iff.mp ha
  obtain ⟨j', -, hb⟩ := Option.bind_eq_some_iff.mp hb
  obtain ⟨-, ha⟩ := Option.ite_none_right_eq_some.mp ha
  obtain ⟨-, hb⟩ := Option.ite_none_right_eq_some.mp hb
  rwa [← Option.some.inj ha, ← Option.some.inj hb]

theorem nodup_entryLines (log : Log) : log.entryLines.Nodup :=
  List.pairwise_map.mpr ((pairwise_pairs log).imp fun hlt heq => by omega)

/-- No two pairs have the same exit. -/
theorem nodup_exitLines (log : Log) : log.exitLines.Nodup := by
  refine List.pairwise_map.mpr ((pairwise_pairs log).imp_of_mem fun {a b} ha hb hlt heq => ?_)
  have hback := partner_symm (mem_pairs.mp ha).1
  rw [Nat.succ.inj heq, partner_symm (mem_pairs.mp hb).1] at hback
  exact Nat.ne_of_gt hlt (Option.some.inj hback)

theorem mem_entryLines {log : Log} {n : Nat} :
    n ∈ log.entryLines ↔ ∃ i j, n = i + 1 ∧ (ofLog log).partner[i]? = some j ∧ i < j := by
  rw [Log.entryLines, List.mem_map]
  constructor
  · rintro ⟨⟨i, j⟩, hmem, rfl⟩
    exact ⟨i, j, rfl, mem_pairs.mp hmem⟩
  · rintro ⟨i, j, rfl, h⟩
    exact ⟨(i, j), mem_pairs.mpr h, rfl⟩

theorem mem_exitLines {log : Log} {n : Nat} :
    n ∈ log.exitLines ↔ ∃ i j, n = i + 1 ∧ (ofLog log).partner[i]? = some j ∧ j < i := by
  rw [Log.exitLines, List.mem_map]
  constructor
  · rintro ⟨⟨j, i⟩, hmem, rfl⟩
    obtain ⟨h, hlt⟩ := mem_pairs.mp hmem
    exact ⟨i, j, rfl, partner_symm h, hlt⟩
  · rintro ⟨i, j, rfl, h, hlt⟩
    exact ⟨(j, i), mem_pairs.mpr ⟨partner_symm h, hlt⟩, rfl⟩

theorem mem_warnedLines {log : Log} {n : Nat} :
    n ∈ (ofLog log).allWarnings.map Warning.line ↔
      ∃ i, n = i + 1 ∧ i < log.length ∧ (ofLog log).partner[i]? = none := by
  refine ⟨fun h => ?_, fun ⟨i, hi, h⟩ => hi ▸ mem_map_line_iff.mpr h⟩
  obtain ⟨w, hw, rfl⟩ := List.mem_map.mp h
  obtain ⟨i, hi, -⟩ := (describes_of_mem_allWarnings hw).exists_line
  exact ⟨i, hi, mem_map_line_iff.mp (hi ▸ h)⟩

/-- A line is one end of one pair or warned about, but not both. -/
theorem nodup_lines (log : Log) : (log.entryLines ++ log.exitLines ++
    (ofLog log).allWarnings.map Warning.line).Nodup := by
  have hpaired : (log.entryLines ++ log.exitLines).Nodup := by
    refine List.nodup_append.mpr ⟨nodup_entryLines log, nodup_exitLines log, ?_⟩
    rintro n hn m hm rfl
    obtain ⟨i, j, rfl, h, hlt⟩ := mem_entryLines.mp hn
    obtain ⟨i', j', heq, h', hlt'⟩ := mem_exitLines.mp hm
    obtain rfl := Nat.succ.inj heq
    obtain rfl := Option.some.inj (h.symm.trans h')
    omega
  refine List.nodup_append.mpr ⟨hpaired, nodup_map_line log, ?_⟩
  rintro n hn m hm rfl
  obtain ⟨i, rfl, -, hnone⟩ := mem_warnedLines.mp hm
  have hsome : ∃ j, (ofLog log).partner[i]? = some j := by
    rcases List.mem_append.mp hn with hn | hn
    · obtain ⟨i', j, heq, h, -⟩ := mem_entryLines.mp hn
      exact ⟨j, Nat.succ.inj heq ▸ h⟩
    · obtain ⟨i', j, heq, h, -⟩ := mem_exitLines.mp hn
      exact ⟨j, Nat.succ.inj heq ▸ h⟩
  obtain ⟨j, hj⟩ := hsome
  rw [hnone] at hj
  cases hj

/-- **Every line is that of the entry of a pair, that of the exit of a pair, or warned about**, and
only one of these. -/
theorem perm_lines (log : Log) :
    (log.entryLines ++ log.exitLines ++ (ofLog log).allWarnings.map Warning.line).Perm
      (List.range' 1 log.length) := by
  refine (List.perm_ext_iff_of_nodup (nodup_lines log) (List.nodup_range' ..)).mpr fun n => ?_
  rw [List.mem_append, List.mem_append, mem_entryLines, mem_exitLines, mem_warnedLines,
    List.mem_range'_1]
  constructor
  · rintro ((⟨i, j, rfl, h, -⟩ | ⟨i, j, rfl, h, -⟩) | ⟨i, rfl, hlt, -⟩)
    · have := lt_length_of_partner h
      omega
    · have := lt_length_of_partner h
      omega
    · omega
  · rintro ⟨hpos, hlt⟩
    obtain ⟨i, rfl⟩ := Nat.exists_eq_add_of_le' hpos
    cases hpartner : (ofLog log).partner[i]? with
    | none => exact .inr ⟨i, rfl, by omega, hpartner⟩
    | some j =>
        rcases Nat.lt_trichotomy i j with hij | rfl | hij
        · exact .inl (.inl ⟨i, j, rfl, hpartner, hij⟩)
        · exact absurd hpartner ((matching log).irrefl i)
        · exact .inl (.inr ⟨i, j, rfl, hpartner, hij⟩)

/-- **Pairs and warnings.** The partners of a log are a matching of its entries and exits. Each
record without a partner is warned about exactly once, by a warning that says what is wrong with it,
and no other record is; so two records for each pair and one for each warning make up the log.
Entries while inside and exits while outside are warned about first, in the order of their lines,
and then the entries that no exit follows, in the order of theirs. -/
theorem pairs_and_warnings (log : Log) :
    log.Matching (ofLog log).partner ∧
      (∀ w ∈ (ofLog log).allWarnings, w.Describes log) ∧
      (∀ i, ((ofLog log).allWarnings.map Warning.line).count (i + 1) =
        if i < log.length ∧ (ofLog log).partner[i]? = none then 1 else 0) ∧
      log.length = 2 * log.pairs.length + (ofLog log).allWarnings.length ∧
      (ofLog log).allWarnings.Pairwise Warning.Before := by
  refine ⟨matching log, fun w => describes_of_mem_allWarnings, fun i => ?_, ?_,
    pairwise_allWarnings log⟩
  · rw [(nodup_map_line log).count]
    exact if_congr mem_map_line_iff rfl rfl
  · have hlength := (perm_lines log).length_eq
    simp only [List.length_append, Log.entryLines, Log.exitLines, List.length_map,
      List.length_range'] at hlength
    omega

/-- A process that enters twice and leaves twice, and another one that remains inside. -/
example : (ofLog [⟨"P1", .enter, 10⟩, ⟨"P1", .enter, 20⟩, ⟨"P2", .enter, 30⟩, ⟨"P1", .exit, 40⟩,
    ⟨"P1", .exit, 50⟩]).allWarnings =
    [.reentered 2 "P1" 1, .notEntered 5 "P1", .notLeft 3 "P2"] := by decide +kernel

end Pairing

end CriticalSection
