import CriticalSection.Log.Text

/-!
# Logs in the order of time

What sorting does to a log: the records come into the order of time, none is lost, and those of a
process whose records were in that order already stay in the order they had.
-/

set_option autoImplicit false

namespace CriticalSection.Log

/-- **A log in the order of time.** -/
def InOrder (log : Log) : Prop := log.Pairwise fun a b => a.time ≤ b.time

instance (log : Log) : Decidable log.InOrder :=
  inferInstanceAs (Decidable (log.Pairwise fun a b => a.time ≤ b.time))

/-- The records of a process. -/
def of (log : Log) (p : ProcessId) : Log := log.filter fun event => event.process = p

variable {log : Log}

/-- The record at a later position is not earlier. -/
theorem InOrder.time_le (h : log.InOrder) {i j : Nat} {a b : Event} (ha : log[i]? = some a)
    (hb : log[j]? = some b) (hij : i ≤ j) : a.time ≤ b.time := by
  obtain ⟨hi, rfl⟩ := List.getElem?_eq_some_iff.mp ha
  obtain ⟨hj, rfl⟩ := List.getElem?_eq_some_iff.mp hb
  rcases Nat.lt_or_eq_of_le hij with hlt | rfl
  · exact List.pairwise_iff_getElem.mp h i j hi hj hlt
  · exact Int64.le_refl _

theorem of_append (log rest : Log) (p : ProcessId) : of (log ++ rest) p = log.of p ++ rest.of p :=
  List.filter_append log rest

theorem of_cons_self (event : Event) (log : Log) :
    of (event :: log) event.process = event :: log.of event.process := by
  simp [of]

/-- **The records of a process among the logs of several** are those in its own log. -/
theorem of_flatMap {log : ProcessId → Log} (hown : ∀ p, ∀ event ∈ log p, event.process = p)
    {order : List ProcessId} (hnodup : order.Nodup) (q : ProcessId) :
    of (order.flatMap log) q = if q ∈ order then log q else [] := by
  induction order with
  | nil => rfl
  | cons p order ih =>
      obtain ⟨hp, hnodup⟩ := List.nodup_cons.mp hnodup
      rw [List.flatMap_cons, of_append, ih hnodup]
      by_cases hq : q = p
      · subst hq
        have hall : of (log q) q = log q :=
          List.filter_eq_self.mpr fun event hevent => decide_eq_true (hown q event hevent)
        rw [hall, if_neg hp, List.append_nil, if_pos List.mem_cons_self]
      · have hnone : of (log p) q = [] := List.filter_eq_nil_iff.mpr fun event hevent => by
          simp [hown p event hevent, Ne.symm hq]
        simp [hnone, hq]

/-! ## Sorting -/

/-- Whether a record may stand before another one. -/
abbrev timeLe (a b : Event) : Bool := a.time ≤ b.time

theorem timeLe_trans (a b c : Event) (hab : timeLe a b = true) (hbc : timeLe b c = true) :
    timeLe a c = true :=
  decide_eq_true (Int64.le_trans (of_decide_eq_true hab) (of_decide_eq_true hbc))

theorem timeLe_total (a b : Event) : (timeLe a b || timeLe b a) = true := by
  rw [Bool.or_eq_true, decide_eq_true_iff, decide_eq_true_iff]
  exact Int64.le_total a.time b.time

theorem perm_sort (log : Log) : (sort log).Perm log := List.mergeSort_perm log timeLe

/-- **A sorted log is in order.** -/
theorem inOrder_sort (log : Log) : (sort log).InOrder :=
  (List.pairwise_mergeSort timeLe_trans timeLe_total log).imp of_decide_eq_true

/-- What is kept of a list is not moved by sorting when it was sorted before. -/
theorem filter_mergeSort {β : Type} {le : β → β → Bool}
    (htrans : ∀ a b c, le a b = true → le b c = true → le a c = true)
    (htotal : ∀ a b, (le a b || le b a) = true) {l : List β} {keep : β → Bool}
    (h : (l.filter keep).Pairwise fun a b => le a b = true) :
    (l.mergeSort le).filter keep = l.filter keep := by
  have hsub : (l.filter keep).Sublist (l.mergeSort le) :=
    List.sublist_mergeSort htrans htotal h List.filter_sublist
  have hkept : (l.filter keep).Sublist ((l.mergeSort le).filter keep) := by
    have hfilter := hsub.filter keep
    simpa only [List.filter_filter, Bool.and_self] using hfilter
  have hlength : ((l.mergeSort le).filter keep).length = (l.filter keep).length :=
    ((List.mergeSort_perm l le).filter _).length_eq
  exact (hkept.eq_of_length hlength.symm).symm

/-- **Sorting is stable**: records that were in order among each other stay as they were. -/
theorem filter_sort {keep : Event → Bool} (h : InOrder (log.filter keep)) :
    (sort log).filter keep = log.filter keep :=
  filter_mergeSort timeLe_trans timeLe_total (h.imp decide_eq_true)

/-- The records of a process keep their order when they were in order before. -/
theorem of_sort {p : ProcessId} (h : (log.of p).InOrder) : of (sort log) p = log.of p :=
  filter_sort h

/-- The records of one time keep their order. -/
theorem filter_time_sort (log : Log) (time : Int64) :
    (sort log).filter (·.time = time) = log.filter (·.time = time) := by
  refine filter_sort (List.pairwise_of_forall_mem_list fun a ha b hb => ?_)
  have ha' : a.time = time := of_decide_eq_true (List.mem_filter.mp ha).2
  have hb' : b.time = time := of_decide_eq_true (List.mem_filter.mp hb).2
  rw [ha', hb']
  exact Int64.le_refl _

/-- Logs with the same records of each time have the same records. -/
theorem mem_iff_of_filter_time {log' : Log}
    (heq : ∀ time, log.filter (·.time = time) = log'.filter (·.time = time)) (event : Event) :
    event ∈ log ↔ event ∈ log' := by
  have hevent := congrArg (event ∈ ·) (heq event.time)
  simpa using hevent

/-- **A log in the order of time is told by the records of each time.** -/
theorem InOrder.eq_of_filter_time {log' : Log} (h : log.InOrder) (h' : log'.InOrder)
    (heq : ∀ time, log.filter (·.time = time) = log'.filter (·.time = time)) : log = log' := by
  induction log generalizing log' with
  | nil =>
      cases log' with
      | nil => rfl
      | cons b rest' =>
          exact absurd ((mem_iff_of_filter_time heq b).mpr List.mem_cons_self) List.not_mem_nil
  | cons a rest ih =>
      have hmem := mem_iff_of_filter_time heq
      cases log' with
      | nil => exact absurd ((hmem a).mp List.mem_cons_self) List.not_mem_nil
      | cons b rest' =>
          obtain ⟨hfirst, hrest⟩ := List.pairwise_cons.mp h
          obtain ⟨hfirst', hrest'⟩ := List.pairwise_cons.mp h'
          -- each of the two first records is in the other log too, so neither is the later one
          have hab : a.time = b.time := by
            have hle : a.time ≤ b.time := by
              rcases List.mem_cons.mp ((hmem b).mpr List.mem_cons_self) with rfl | hb
              · exact Int64.le_refl _
              · exact hfirst b hb
            have hge : b.time ≤ a.time := by
              rcases List.mem_cons.mp ((hmem a).mp List.mem_cons_self) with rfl | ha
              · exact Int64.le_refl _
              · exact hfirst' a ha
            exact Int64.le_antisymm hle hge
          have hhead := heq a.time
          rw [List.filter_cons_of_pos (by simp), List.filter_cons_of_pos (by simp [hab])] at hhead
          obtain rfl := (List.cons.inj hhead).1
          have htail : ∀ time, rest.filter (·.time = time) = rest'.filter (·.time = time) := by
            intro time
            by_cases htime : a.time = time
            · subst htime
              exact (List.cons.inj hhead).2
            · have hboth := heq time
              rwa [List.filter_cons_of_neg (by simpa using htime),
                List.filter_cons_of_neg (by simpa using htime)] at hboth
          rw [ih hrest hrest' htail]

/-- **What is sorted already may be sorted again** with more records behind it. -/
theorem sort_sort_append (log rest : Log) : sort (sort log ++ rest) = sort (log ++ rest) := by
  refine (inOrder_sort _).eq_of_filter_time (inOrder_sort _) fun time => ?_
  rw [filter_time_sort, filter_time_sort, List.filter_append, List.filter_append, filter_time_sort]

end CriticalSection.Log
