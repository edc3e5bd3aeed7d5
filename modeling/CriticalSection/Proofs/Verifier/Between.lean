import Mathlib.Algebra.Order.BigOperators.Group.Finset
import Mathlib.Data.Finset.Powerset
import CriticalSection.Proofs.Verifier.Ranks
import CriticalSection.Proofs.Verifier.Search

/-!
# Verification pair by pair

Some processes of a log have the same overlaps with each other in the log of their records alone:
the meetings of a log in which both processes are among them are, in the same order, those of the
smaller log, with every position moved to its place there. So each pair of processes can be verified
without the others, and the violations of a log are those of its pairs.
-/

set_option autoImplicit false

namespace CriticalSection

/-! ## Definitions -/

namespace Log

/-- Whether a record is one of some processes. -/
def isAmong (s : Finset ProcessId) (event : Event) : Bool := event.process ∈ s

/-- **The records of some processes**, in their order. -/
def among (log : Log) (s : Finset ProcessId) : Log := log.filter (isAmong s)

/-- The processes that have records. -/
def processes (log : Log) : Finset ProcessId := (log.map Event.process).toFinset

end Log

/-- A mark with another number for its line. -/
def Mark.renumber (line : Nat → Nat) (mark : Mark) : Mark := { mark with line := line mark.line }

section Overlap

variable {α : Type}

/-- A side with other numbers for its lines. -/
def Side.renumber (line : Nat → Nat) (side : Side α) : Side α :=
  { side with
    enter := side.enter.map (Mark.renumber line)
    exit := side.exit.map (Mark.renumber line) }

/-- **An overlap with other numbers for its lines**, and the same in everything else. -/
def Overlap.renumber (line : Nat → Nat) (o : Overlap α) : Overlap α :=
  { o with
    holder := o.holder.renumber line
    intruder := o.intruder.renumber line
    line := line o.line }

@[simp] theorem Mark.renumber_mk (line : Nat → Nat) (n : Nat) (time : Int64) :
    (Mark.mk n time).renumber line = ⟨line n, time⟩ := rfl

@[simp] theorem Side.renumber_mk (line : Nat → Nat) (p : ProcessId) (enter exit : Option Mark)
    (margin : α) : (Side.mk p enter exit margin).renumber line =
      ⟨p, enter.map (Mark.renumber line), exit.map (Mark.renumber line), margin⟩ := rfl

@[simp] theorem Overlap.renumber_mk (line : Nat → Nat) (shape : Shape) (holder intruder : Side α)
    (n : Nat) (genuine : Bool) : (Overlap.mk shape holder intruder n genuine).renumber line =
      ⟨shape, holder.renumber line, intruder.renumber line, line n, genuine⟩ := rfl

/-- The processes of an overlap, its holder and its intruder. -/
def Overlap.processes (o : Overlap α) : Finset ProcessId := {o.holder.process, o.intruder.process}

end Overlap

namespace Meeting

/-- A meeting with its positions moved. -/
def move (place : Nat → Nat) (m : Meeting) : Meeting :=
  ⟨⟨place m.window.first, place m.window.last, m.window.enter, m.window.exit⟩, place m.position,
    m.record, m.other.map fun (i, event) => (place i, event)⟩

/-- Whether both processes of a meeting are among some. -/
abbrev IsAmong (s : Finset ProcessId) (m : Meeting) : Prop :=
  m.window.enter.process ∈ s ∧ m.record.process ∈ s

end Meeting

/-! ## Pairing among some processes -/

variable {log : Log} {s : Finset ProcessId} {i j : Nat} {a b : Event}

namespace Log

-- the two records of P1 stand on the first and the last of the three lines
example : lines [⟨"P1", .enter, 3⟩, ⟨"P2", .enter, 5⟩, ⟨"P1", .exit, 8⟩] (isAmong {"P1"}) =
    [1, 3] := by decide

theorem isAmong_iff : isAmong s a = true ↔ a.process ∈ s := decide_eq_true_iff

/-- **A process that is among them** keeps all its records. -/
theorem of_among {p : ProcessId} (log : Log) (hp : p ∈ s) : (log.among s).of p = log.of p := by
  rw [of, among, List.filter_filter]
  refine List.filter_congr fun event _ => ?_
  rw [isAmong]
  by_cases hprocess : event.process = p
  · simp [hprocess, hp]
  · simp [hprocess]

theorem getElem?_among (ha : log[i]? = some a) (hs : a.process ∈ s) :
    (log.among s)[log.place (isAmong s) i]? = some a :=
  getElem?_place ha (isAmong_iff.mpr hs)

/-- A record that is kept has the same rank as before. -/
theorem rank_place (ha : log[i]? = some a) (hs : a.process ∈ s) :
    (log.among s).rank a.process (log.place (isAmong s) i) = log.rank a.process i := by
  obtain ⟨front, rest, rfl, rfl⟩ := exists_append ha
  have hamong : among (front ++ a :: rest) s = front.among s ++ among (a :: rest) s :=
    List.filter_append front (a :: rest)
  have hfront : (front.filter (isAmong s)).length = (front.among s).length := rfl
  rw [place_front, hamong, hfront, rank_append _ (Nat.le_refl _), rank_length, of_among _ hs,
    rank_append _ (Nat.le_refl _), rank_length]

end Log

namespace Pairing

/-- **Partners move to their places**: whom a record is paired with does not depend on the records
that are left out. -/
theorem partner_place (ha : log[i]? = some a) (hs : a.process ∈ s) :
    (ofLog (log.among s)).partner[log.place (Log.isAmong s) i]? =
      ((ofLog log).partner[i]?).map (log.place (Log.isAmong s)) := by
  have hkept := Log.getElem?_among ha hs
  have hranks : ((ofLog (log.among s)).partner[log.place (Log.isAmong s) i]?).map
        ((log.among s).rank a.process) =
      ((ofLog log).partner[i]?).map (log.rank a.process) := by
    rw [← partner_rank hkept, Log.of_among log hs, Log.rank_place ha hs, partner_rank ha]
  cases hpartner : (ofLog log).partner[i]? with
  | none =>
      rw [hpartner, Option.map_none, Option.map_eq_none_iff] at hranks
      exact hranks
  | some j =>
      obtain ⟨b, hb, hprocess⟩ := exists_of_partner hpartner ha
      have hsb : b.process ∈ s := hprocess ▸ hs
      rw [hpartner, Option.map_some, Option.map_eq_some_iff] at hranks
      obtain ⟨k, hk, hrank⟩ := hranks
      obtain ⟨c, hc, hprocess'⟩ := exists_of_partner hk hkept
      -- records of one process that have the same rank are the same
      have heq : k = log.place (Log.isAmong s) j := by
        refine Log.eq_of_rank_eq hc (Log.getElem?_among hb hsb) (hprocess'.trans hprocess.symm) ?_
        rw [Log.rank_place hb hsb, hprocess', hprocess, hrank]
      rw [hk, heq]
      rfl

end Pairing

/-! ## Meetings among some processes -/

namespace Meeting

theorem partner?_place (ha : log[i]? = some a) (hs : a.process ∈ s) :
    partner? (log.among s) (log.place (Log.isAmong s) i) =
      (partner? log i).map fun (j, event) => (log.place (Log.isAmong s) j, event) := by
  rw [partner?, partner?, Pairing.partner_place ha hs]
  cases hpartner : (Pairing.ofLog log).partner[i]? with
  | none => rfl
  | some j =>
      obtain ⟨b, hb, hprocess⟩ := Pairing.exists_of_partner hpartner ha
      have hkept := Log.getElem?_among hb (hprocess ▸ hs : b.process ∈ s)
      simp only [Option.map_some, Option.bind_some, hb, hkept]

/-- **What meets at two records** of these processes meets at their places in the smaller log. -/
theorem at?_place (ha : log[i]? = some a) (hs : a.process ∈ s) (hb : log[j]? = some b)
    (hs' : b.process ∈ s) :
    at? (log.among s) (log.place (Log.isAmong s) i) (log.place (Log.isAmong s) j) =
      (at? log i j).map (move (log.place (Log.isAmong s))) := by
  have hother := partner?_place hb hs'
  have hlone : (Pairing.ofLog (log.among s)).partner[log.place (Log.isAmong s) j]? = none ↔
      (Pairing.ofLog log).partner[j]? = none := by
    rw [Pairing.partner_place hb hs', Option.map_eq_none_iff]
  have hafter : log.place (Log.isAmong s) i < log.place (Log.isAmong s) j ↔ i < j :=
    Log.place_lt_iff ha (Log.isAmong_iff.mpr hs)
  have hbefore : ∀ last, log.place (Log.isAmong s) j < log.place (Log.isAmong s) last ↔ j < last :=
    fun last => Log.place_lt_iff hb (Log.isAmong_iff.mpr hs')
  unfold at?
  rw [Log.getElem?_among ha hs, Log.getElem?_among hb hs', Pairing.partner_place ha hs, ha, hb]
  cases hpartner : (Pairing.ofLog log).partner[i]? with
  | none => rfl
  | some last =>
      obtain ⟨exit, hexit, hprocess⟩ := Pairing.exists_of_partner hpartner ha
      have hkept := Log.getElem?_among hexit (hprocess ▸ hs : exit.process ∈ s)
      simp only [Option.bind_eq_bind, Option.map_some, Option.bind_some, hexit, hkept, hafter,
        hbefore, hlone, hother]
      split
      · rfl
      · rfl

/-- Moved meetings have the order of the meetings. -/
theorem Before.move {m m' : Meeting} (h : m.Before m') (hm : m.Occurs log) (hs : m.IsAmong s) :
    (m.move (log.place (Log.isAmong s))).Before (m'.move (log.place (Log.isAmong s))) := by
  rcases h with hlt | ⟨heq, hlt⟩
  · exact Or.inl (Log.place_lt hm.opens.enter (Log.isAmong_iff.mpr hs.1) hlt)
  · refine Or.inr ⟨congrArg (log.place (Log.isAmong s)) heq, ?_⟩
    exact Log.place_lt hm.record (Log.isAmong_iff.mpr hs.2) hlt

theorem Before.irrefl (m : Meeting) : ¬ m.Before m := by
  rintro (hlt | ⟨-, hlt⟩) <;> exact Nat.lt_irrefl _ hlt

theorem Before.asymm {m m' : Meeting} (h : m.Before m') : ¬ m'.Before m := by
  rcases h with hlt | ⟨heq, hlt⟩ <;> rintro (hlt' | ⟨heq', hlt'⟩) <;> omega

end Meeting

namespace Log

/-- What takes place among some processes takes place in the whole log. -/
theorem mem_meetings_among {m : Meeting} : m ∈ (log.among s).meetings ↔
    ∃ m' ∈ log.meetings, m'.IsAmong s ∧ m'.move (log.place (isAmong s)) = m := by
  constructor
  · intro h
    have hm := mem_meetings.mp h
    obtain ⟨i, hi, hs, hfirst⟩ := exists_of_getElem?_filter hm.opens.enter
    obtain ⟨j, hj, hs', hposition⟩ := exists_of_getElem?_filter hm.record
    have hat := Meeting.at?_eq_some.mpr ⟨hfirst.symm, hposition.symm, hm⟩
    rw [Meeting.at?_place hi (isAmong_iff.mp hs) hj (isAmong_iff.mp hs'),
      Option.map_eq_some_iff] at hat
    obtain ⟨m', hm', rfl⟩ := hat
    obtain ⟨-, -, hoccurs⟩ := Meeting.at?_eq_some.mp hm'
    exact ⟨m', mem_meetings.mpr hoccurs, ⟨isAmong_iff.mp hs, isAmong_iff.mp hs'⟩, rfl⟩
  · rintro ⟨m', hm', ⟨hs, hs'⟩, rfl⟩
    have hoccurs := mem_meetings.mp hm'
    have hat : Meeting.at? log m'.window.first m'.position = some m' :=
      Meeting.at?_eq_some.mpr ⟨rfl, rfl, hoccurs⟩
    have hmoved := Meeting.at?_place hoccurs.opens.enter hs hoccurs.record hs'
    rw [hat, Option.map_some] at hmoved
    exact mem_meetings.mpr (Meeting.at?_eq_some.mp hmoved).2.2

/-- **The meetings among some processes** are those of the log in which both processes are among
them, in the same order. -/
theorem meetings_among (log : Log) (s : Finset ProcessId) :
    (log.among s).meetings =
      (log.meetings.filter fun m => m.IsAmong s).map (Meeting.move (log.place (isAmong s))) := by
  have hwhole := pairwise_meetings (log.among s)
  have hparts : ((log.meetings.filter fun m => m.IsAmong s).map
      (Meeting.move (log.place (isAmong s)))).Pairwise Meeting.Before := by
    refine List.pairwise_map.mpr (((pairwise_meetings log).filter _).imp_of_mem ?_)
    intro m m' hm _ hbefore
    obtain ⟨hm, hs⟩ := List.mem_filter.mp hm
    exact hbefore.move (mem_meetings.mp hm) (of_decide_eq_true hs)
  have hnodup : ∀ {ms : List Meeting}, ms.Pairwise Meeting.Before → ms.Nodup := by
    intro ms hms
    refine hms.imp fun {m m'} hbefore heq => ?_
    exact Meeting.Before.irrefl m' (heq ▸ hbefore)
  have hperm := (List.perm_ext_iff_of_nodup (hnodup hwhole) (hnodup hparts)).mpr fun m => by
    rw [mem_meetings_among, List.mem_map]
    simp only [List.mem_filter, decide_eq_true_eq, and_assoc]
  exact hperm.eq_of_pairwise (fun m m' _ _ h h' => absurd h' h.asymm) hwhole hparts

end Log

/-! ## Overlaps among some processes -/

section Overlaps

variable {α : Type} [Quantity α] {margins : Margins α} {m : Meeting}

/-- **A moved meeting has the same overlap**, with the lines it has in the smaller log. -/
theorem Meeting.renumber_overlap_move (hm : m.Occurs log) (hs : m.IsAmong s) :
    ((m.move (log.place (Log.isAmong s))).overlap margins).renumber (log.line (Log.isAmong s)) =
      m.overlap margins := by
  have hline : ∀ {i : Nat} {a : Event}, log[i]? = some a → a.process ∈ s →
      log.line (Log.isAmong s) (log.place (Log.isAmong s) i + 1) = i + 1 :=
    fun ha hs => Log.line_place ha (Log.isAmong_iff.mpr hs)
  obtain ⟨exit, hexit, hprocess⟩ := Pairing.exists_of_partner hm.opens.partner hm.opens.enter
  have hfirst := hline hm.opens.enter hs.1
  have hlast := hline hexit (hprocess ▸ hs.1)
  have hposition := hline hm.record hs.2
  have hother := hm.other
  unfold Meeting.overlap Window.judge Meeting.move
  cases hpartner : m.other with
  | none =>
      cases m.record.kind with
      | enter => simp [Window.holder, hfirst, hlast, hposition]
      | exit => simp [Window.holder, hfirst, hlast, hposition]
  | some other =>
      obtain ⟨k, event⟩ := other
      obtain ⟨b, hb, hsame⟩ := Pairing.exists_of_partner
        (Verifier.exists_partner_of_eq_some (hother.symm.trans hpartner)) hm.record
      have hthere := hline hb (hsame ▸ hs.2)
      have hbefore : log.place (Log.isAmong s) k < log.place (Log.isAmong s) m.window.last ↔
          k < m.window.last := Log.place_lt_iff hb (Log.isAmong_iff.mpr (hsame ▸ hs.2))
      cases m.record.kind with
      | exit => simp [Window.holder, hfirst, hlast, hposition, hthere]
      | enter =>
          -- the exit keeps its side of the end of the window, and with it the shape
          by_cases hnested : k < m.window.last
          · simp [Window.holder, hfirst, hlast, hposition, hthere, hbefore, hnested]
          · simp [Window.holder, hfirst, hlast, hposition, hthere, hbefore, hnested]

/-- The processes of a meeting are those of its overlap. -/
theorem Meeting.processes_overlap (hm : m.Occurs log) :
    (m.overlap margins).processes = {m.window.enter.process, m.record.process} := by
  have hdescribed := Verifier.described_of_occurs hm margins
  rw [Overlap.processes, hdescribed.holder, hdescribed.intruder.1]

namespace Verifier

/-- **The overlaps among some processes** are those of the log of their records alone, in the same
order. -/
theorem overlaps_among (margins : Margins α) (log : Log) (s : Finset ProcessId) :
    (verify margins log).overlaps.filter (fun o => o.processes ⊆ s) =
      (verify margins (log.among s)).overlaps.map
        (Overlap.renumber (log.line (Log.isAmong s))) := by
  rw [overlaps_eq, overlaps_eq, Log.meetings_among, List.filter_map, List.map_map, List.map_map]
  have hamong : ∀ m ∈ log.meetings,
      ((fun o : Overlap α => decide (o.processes ⊆ s)) ∘ Meeting.overlap margins) m =
        decide (m.IsAmong s) := by
    intro m hm
    have hprocesses : (m.overlap margins).processes ⊆ s ↔ m.IsAmong s := by
      rw [Meeting.processes_overlap (Log.mem_meetings.mp hm), Finset.insert_subset_iff,
        Finset.singleton_subset_iff]
    exact decide_eq_decide.mpr hprocesses
  rw [List.filter_congr hamong]
  refine List.map_congr_left fun m hm => ?_
  obtain ⟨hm, hs⟩ := List.mem_filter.mp hm
  exact (Meeting.renumber_overlap_move (Log.mem_meetings.mp hm) (of_decide_eq_true hs)).symm

/-- **An overlap has two processes**, and both have records. -/
theorem processes_mem {o : Overlap α} (ho : o ∈ (verify margins log).overlaps) :
    o.processes ∈ log.processes.powersetCard 2 := by
  rw [overlaps_eq] at ho
  obtain ⟨m, hm, rfl⟩ := List.mem_map.mp ho
  have hoccurs := Log.mem_meetings.mp hm
  have hmem : ∀ {i : Nat} {a : Event}, log[i]? = some a → a.process ∈ log.processes := by
    intro i a ha
    exact List.mem_toFinset.mpr (List.mem_map_of_mem (List.mem_of_getElem? ha))
  rw [Meeting.processes_overlap hoccurs, Finset.mem_powersetCard, Finset.insert_subset_iff,
    Finset.singleton_subset_iff]
  exact ⟨⟨hmem hoccurs.opens.enter, hmem hoccurs.record⟩, Finset.card_pair hoccurs.foreign.symm⟩

/-- Two processes that both are among a pair are the pair. -/
theorem processes_subset_iff {o : Overlap α} (ho : o ∈ (verify margins log).overlaps)
    (hs : s.card ≤ 2) : o.processes ⊆ s ↔ o.processes = s := by
  obtain ⟨-, hcard⟩ := Finset.mem_powersetCard.mp (processes_mem ho)
  refine ⟨fun hsub => Finset.eq_of_subset_of_card_le hsub (hcard ▸ hs), fun heq => heq.subset⟩

/-- **The overlaps of two processes** are those of the log of their records alone. -/
theorem overlaps_pair (margins : Margins α) (log : Log) (hs : s.card ≤ 2) :
    (verify margins log).overlaps.filter (fun o => o.processes = s) =
      (verify margins (log.among s)).overlaps.map
        (Overlap.renumber (log.line (Log.isAmong s))) := by
  rw [← overlaps_among]
  refine List.filter_congr fun o ho => ?_
  exact decide_eq_decide.mpr (processes_subset_iff ho hs).symm

/-- The genuine overlaps of two processes are those of the log of their records alone. -/
theorem genuine_pair (margins : Margins α) (log : Log) (hs : s.card ≤ 2) :
    ((verify margins log).overlaps.filter (·.genuine)).filter (fun o => o.processes = s) =
      ((verify margins (log.among s)).overlaps.filter (·.genuine)).map
        (Overlap.renumber (log.line (Log.isAmong s))) := by
  have hgenuine : (fun o : Overlap α => o.genuine) ∘
      Overlap.renumber (log.line (Log.isAmong s)) = fun o => o.genuine := rfl
  rw [List.filter_comm, overlaps_pair margins log hs, List.filter_map, hgenuine]

/-- **The violations of a log** are those of its pairs of processes. -/
theorem violations_eq_sum (margins : Margins α) (log : Log) :
    (verify margins log).violations =
      ∑ s ∈ log.processes.powersetCard 2, (verify margins (log.among s)).violations := by
  set genuine := (verify margins log).overlaps.filter (·.genuine) with hgenuine
  have hcount : ∀ s ∈ log.processes.powersetCard 2, (verify margins (log.among s)).violations =
      (genuine.map Overlap.processes : Multiset (Finset ProcessId)).count s := by
    intro s hs
    have hcard := (Finset.mem_powersetCard.mp hs).2
    have hpair := congrArg List.length (genuine_pair margins log (Nat.le_of_eq hcard))
    rw [List.length_map] at hpair
    rw [Report.violations, ← hpair, Multiset.coe_count, List.count_eq_countP, List.countP_map,
      List.countP_eq_length_filter]
    rfl
  rw [Finset.sum_congr rfl hcount, Multiset.sum_count_eq_card]
  · rw [Multiset.coe_card, List.length_map]
    rfl
  · intro t ht
    rw [Multiset.mem_coe, List.mem_map] at ht
    obtain ⟨o, ho, rfl⟩ := ht
    exact processes_mem (List.mem_filter.mp ho).1

/-- **Verification decomposes into pairs of processes.** The overlaps that are reported between two
processes are, in the same order, those of the log of their records alone, with the lines of the
whole log, and so are the genuine ones. The violations of the log are those of the pairs of its
processes, so the records of a third process neither make nor hide one. -/
theorem verify_pairs (margins : Margins α) (log : Log) :
    (∀ p q : ProcessId,
      (verify margins log).overlaps.filter (fun o => o.processes = {p, q}) =
        (verify margins (log.among {p, q})).overlaps.map
          (Overlap.renumber (log.line (Log.isAmong {p, q}))) ∧
      ((verify margins log).overlaps.filter (·.genuine)).filter (fun o => o.processes = {p, q}) =
        ((verify margins (log.among {p, q})).overlaps.filter (·.genuine)).map
          (Overlap.renumber (log.line (Log.isAmong {p, q})))) ∧
    (verify margins log).violations =
      ∑ s ∈ log.processes.powersetCard 2, (verify margins (log.among s)).violations := by
  refine ⟨fun p q => ?_, violations_eq_sum margins log⟩
  have htwo : ({p, q} : Finset ProcessId).card ≤ 2 := Finset.card_le_two
  exact ⟨overlaps_pair margins log htwo, genuine_pair margins log htwo⟩

end Verifier

end Overlaps

end CriticalSection
