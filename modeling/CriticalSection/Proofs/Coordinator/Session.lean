import Mathlib.Data.List.Nodup
import CriticalSection.Coordinator.Session
import CriticalSection.Proofs.Coordinator.Waits

/-!
# What becomes of a request that waits

In a session calls are made and callers hang up, one after another, and after each of these the
calls whose wait has ended are collected. The calls in progress are then exactly the waits at the
coordinator (`Session.Sound`), and a request that was parked on a record is collected once: right
after the first operation that ends the waits there.
-/

set_option autoImplicit false

namespace CriticalSection

/-! ## Definitions -/

/-- **The answer with which an operation ends the waits for permission of a process**, if it ends
them. -/
def Operation.settles (p : ProcessId) : Operation → Option Answer
  | .leave q => if q = p then some .granted else none
  | .subscribe q => if q = p then some .interrupted else none
  | .restart _ => some .interrupted
  | _ => none

deriving instance DecidableEq for Reaction

/-- What an answer means to whoever has asked a process for permission. -/
def Answer.outcome (p : ProcessId) : Answer → Outcome Value
  | .granted => .ok .done
  | .interrupted => fail (.interrupted ("request to " ++ p))

/-- Whether a call was parked on the record of a process. -/
def Reaction.waitsFor {α : Type} (p : ProcessId) (reaction : Reaction α) : Bool :=
  reaction.began.any fun t => t.place = .record p

namespace Session

/-- **What is done in a session**: a call is made, under a name, or the caller of one hangs up. -/
inductive Act
  | call (name : String) (now : Int64) (operation : Operation)
  | hangUp (name : String)
  deriving DecidableEq

namespace Act

/-- The name of the call that is made or given up. -/
def name : Act → String
  | call name .. => name
  | hangUp name => name

/-- The answer with which what is done ends the waits for permission of a process. -/
def settles (p : ProcessId) : Act → Option Answer
  | call _ _ operation => operation.settles p
  | hangUp _ => none

end Act

/-- The session after something is done, before anything is collected. -/
def after (s : Session) : Act → Session
  | .call name now operation => s.call name now operation
  | .hangUp name => (s.hangUp name).2

/-- **One step of a session**: something is done, and the calls whose wait has ended are
collected. -/
def step (s : Session) (act : Act) : List (String × Outcome Value) × Session :=
  (s.after act).collect

/-- No computation leaves its range. -/
def InTime (s : Session) : Act → Prop
  | .call _ now operation => (s.coordinator.perform now operation).1 ≠ .answered overflowed
  | .hangUp _ => True

instance (s : Session) : (act : Act) → Decidable (s.InTime act)
  | .call _ now operation =>
    inferInstanceAs (Decidable ((s.coordinator.perform now operation).1 ≠ .answered overflowed))
  | .hangUp _ => .isTrue trivial

/-- **Courses of a session**, in which no computation leaves its range. -/
inductive Course : Session → List Act → Session → Prop
  | refl (s : Session) : Course s [] s
  | step {s y : Session} {acts : List Act} (course : Course s acts y) (act : Act)
      (inTime : y.InTime act) : Course s (acts ++ [act]) (y.step act).2

/-- The sessions that begin with a coordinator nobody has called. -/
def Reachable (s : Session) : Prop := ∃ expected acts, Course (.new expected) acts s

/-- The calls in progress under a name. -/
def named (s : Session) (name : String) : List (String × Reaction Value) :=
  s.calls.filter fun e => e.1 = name

/-- How many calls wait for permission of a process. -/
def waitingFor (s : Session) (p : ProcessId) : Nat :=
  s.calls.countP fun e => e.2.waitsFor p

/-! ## Sound sessions -/

/-- The tickets of the calls in progress. -/
def tickets (s : Session) : List Ticket := s.calls.filterMap fun e => e.2.began

/-- **A sound session**: what is in progress are the waits at the coordinator, each once. -/
structure Sound (s : Session) : Prop where
  orderly : s.coordinator.Orderly
  parked : ∀ e ∈ s.calls, ∃ t, e.2 = .parked t
  waits : ∀ t, t ∈ s.tickets ↔ s.coordinator.Waits t
  nodup : s.tickets.Nodup

end Session

theorem Coordinator.progress_parked_isNone (c : Coordinator) (t : Ticket) :
    (c.progress (.parked t)).isNone = (c.answers[t.number]?).isNone := by
  cases h : c.answers[t.number]? with
  | none => simp [progress, outcome?, h]
  | some answer => cases answer <;> simp [progress, outcome?, h]

/-- What has become of a call that was parked on the record of a process. -/
theorem Coordinator.progress_parked (c : Coordinator) (p : ProcessId) (n : Nat) :
    c.progress (.parked ⟨.record p, n⟩) = (c.answers[n]?).map (Answer.outcome p) := by
  cases h : c.answers[n]? with
  | none => simp [progress, outcome?, h]
  | some answer => cases answer <;> simp [progress, outcome?, h] <;> rfl

namespace Session

variable {s y : Session} {name : String} {p : ProcessId}

theorem sound_new (expected : UInt64) : (new expected).Sound := by
  have hwaits : ∀ t, ¬ (Coordinator.new expected).Waits t :=
    Coordinator.not_waits_of_empty expected 0 ∅
  refine ⟨Coordinator.orderly_new expected, by simp [new], fun t => ?_, List.nodup_nil⟩
  simpa [tickets, new] using hwaits t

theorem mem_tickets {t : Ticket} : t ∈ s.tickets ↔ ∃ name, (name, .parked t) ∈ s.calls := by
  rw [tickets, List.mem_filterMap]
  constructor
  · rintro ⟨⟨name, reaction⟩, hmem, ht⟩
    cases reaction with
    | answered outcome => cases ht
    | parked u =>
        obtain rfl := Option.some.inj ht
        exact ⟨name, hmem⟩
  · rintro ⟨name, hmem⟩
    exact ⟨_, hmem, rfl⟩

/-- The tickets of the calls that are still in progress when the others have been collected. -/
theorem mem_tickets_collect {t : Ticket} :
    t ∈ s.collect.2.tickets ↔ t ∈ s.tickets ∧ s.coordinator.answers[t.number]? = none := by
  simp only [mem_tickets, collect, List.mem_filter, Coordinator.progress_parked_isNone,
    Option.isNone_iff_eq_none, exists_and_right]

/-- **What is collected leaves a session sound** if, before, every wait has its call and those
calls that wait no longer have been answered. -/
theorem sound_collect (horderly : s.coordinator.Orderly) (hnodup : s.tickets.Nodup)
    (hcalls : ∀ t, s.coordinator.Waits t → t ∈ s.tickets)
    (hover : ∀ t ∈ s.tickets, s.coordinator.answers[t.number]? = none → s.coordinator.Waits t) :
    s.collect.2.Sound := by
  refine ⟨horderly, ?_, fun t => ?_, ?_⟩
  · rintro ⟨name, reaction⟩ he
    have hprogress := (List.mem_filter.mp he).2
    cases reaction with
    | answered outcome => cases hprogress
    | parked t => exact ⟨t, rfl⟩
  · rw [mem_tickets_collect]
    constructor
    · exact fun ⟨ht, hanswer⟩ => hover t ht hanswer
    · exact fun ht => ⟨hcalls t ht, horderly.unanswered t ht⟩
  · exact hnodup.sublist (List.filter_sublist.filterMap _)

/-! ## What a step does to the waits -/

/-- **What hanging up comes to**: nothing, if no call has the name, and else the first call of that
name goes and waits no longer. -/
theorem Sound.after_hangUp (h : s.Sound) (name : String) :
    s.after (.hangUp name) = s ∨
      ∃ t before behind, s.calls = before ++ (name, .parked t) :: behind ∧
        s.after (.hangUp name) = ⟨s.coordinator.hangUp t, before ++ behind⟩ := by
  simp only [after, hangUp]
  split
  · exact .inl rfl
  · next other reaction hfind =>
      obtain ⟨hname, before, behind, hcalls, hbefore⟩ := List.find?_eq_some_iff_append.mp hfind
      obtain rfl : other = name := of_decide_eq_true hname
      obtain ⟨t, ht⟩ := h.parked (other, reaction) (hcalls ▸ by simp)
      obtain rfl : reaction = .parked t := ht
      refine .inr ⟨t, before, behind, hcalls, ?_⟩
      rw [hcalls, List.eraseP_append_right _ fun b hb => by simpa using hbefore b hb]
      simp

/-- **What becomes of a wait when something is done**: whoever was parked on the record of a process
is answered if that ends the waits there, and otherwise not. -/
theorem Sound.answers_after (h : s.Sound) {act : Act} (hact : s.InTime act) {n : Nat}
    (ht : s.coordinator.Waits ⟨.record p, n⟩) :
    (s.after act).coordinator.answers[n]? = act.settles p := by
  cases act with
  | call name now operation =>
      have hends := h.orderly.ends_perform now operation hact
      refine (hends.answers _ ht).trans ?_
      cases operation <;> simp only [Coordinator.ending, Act.settles, Operation.settles,
        Place.record.injEq, reduceCtorEq, false_and, if_false, eq_comm]
  | hangUp name =>
      have hanswers : (s.after (.hangUp name)).coordinator.answers = s.coordinator.answers := by
        obtain hafter | ⟨t, before, behind, -, hafter⟩ := h.after_hangUp name
        · rw [hafter]
        · rw [hafter]
          exact Coordinator.answers_hangUp _ t
      rw [hanswers]
      exact h.orderly.unanswered _ ht

theorem Sound.step_call_of_ends (h : s.Sound) {now : Int64} {operation : Operation}
    {ending : Place → Option Answer}
    (hends : s.coordinator.Ends ending (s.coordinator.perform now operation).1.began
      (s.coordinator.perform now operation).2) :
    (s.step (.call name now operation)).2.Sound := by
  have htickets : (s.call name now operation).tickets =
      s.tickets ++ (s.coordinator.perform now operation).1.began.toList := by
    simp only [tickets, call, List.filterMap_append]
    cases (s.coordinator.perform now operation).1 <;> rfl
  refine sound_collect hends.orderly ?_ (fun t ht => ?_) fun t ht hanswer => ?_
  · show (s.call name now operation).tickets.Nodup
    rw [htickets]
    refine List.nodup_append.mpr ⟨h.nodup, by cases Reaction.began _ <;> simp, ?_⟩
    rintro t ht u hu rfl
    have hissued := h.orderly.issued t ((h.waits t).mp ht)
    rw [hends.number t (Option.mem_toList.mp hu)] at hissued
    exact Nat.lt_irrefl _ hissued
  · show t ∈ (s.call name now operation).tickets
    rw [htickets, List.mem_append, Option.mem_toList]
    exact ((hends.waits t).mp ht).imp (fun hold => (h.waits t).mpr hold.1) id
  · replace ht : t ∈ (s.call name now operation).tickets := ht
    rw [htickets, List.mem_append, Option.mem_toList] at ht
    refine (hends.waits t).mpr (ht.imp (fun hold => ?_) id)
    have hwaits := (h.waits t).mp hold
    exact ⟨hwaits, (hends.answers t hwaits).symm.trans hanswer⟩

theorem Sound.step_hangUp (h : s.Sound) (name : String) : (s.step (.hangUp name)).2.Sound := by
  unfold step
  obtain hafter | ⟨t, before, behind, hcalls, hafter⟩ := h.after_hangUp name
  · rw [hafter]
    exact sound_collect h.orderly h.nodup (fun t => (h.waits t).mpr) fun t ht _ => (h.waits t).mp ht
  · have htickets : s.tickets = before.filterMap (fun e => e.2.began) ++
        t :: behind.filterMap fun e => e.2.began := by
      rw [tickets, hcalls, List.filterMap_append]
      rfl
    have hleft : tickets ⟨s.coordinator.hangUp t, before ++ behind⟩ =
        before.filterMap (fun e => e.2.began) ++ behind.filterMap fun e => e.2.began :=
      List.filterMap_append
    have hnodup := List.nodup_middle.mp (htickets ▸ h.nodup)
    -- Who hangs up is the only one to go, since no ticket stands there twice.
    have hmem : ∀ u, u ∈ tickets ⟨s.coordinator.hangUp t, before ++ behind⟩ ↔
        (s.coordinator.hangUp t).Waits u := by
      intro u
      have hnot := hnodup.notMem
      rw [Coordinator.waits_hangUp, ← h.waits, htickets, hleft]
      simp only [List.mem_append, List.mem_cons] at hnot ⊢
      constructor
      · exact fun hu => ⟨hu.imp_right .inr, fun heq => hnot (heq ▸ hu)⟩
      · rintro ⟨hu | rfl | hu, hne⟩
        · exact .inl hu
        · exact absurd rfl hne
        · exact .inr hu
    rw [hafter]
    exact sound_collect (h.orderly.hangUp t) (hleft ▸ hnodup.of_cons) (fun u => (hmem u).mpr)
      fun u hu _ => (hmem u).mp hu

/-- **A sound session stays sound** whatever is done, and whether or not a computation leaves its
range. -/
theorem Sound.step (h : s.Sound) (act : Act) : (s.step act).2.Sound := by
  cases act with
  | call name now operation =>
      obtain ⟨ending, hends, -⟩ := h.orderly.exists_ends_perform now operation
      exact h.step_call_of_ends hends
  | hangUp name => exact h.step_hangUp name

theorem Sound.course (h : s.Sound) {acts : List Act} (course : Course s acts y) : y.Sound := by
  induction course with
  | refl => exact h
  | step _ act _ ih => exact ih.step act

theorem Reachable.sound (h : s.Reachable) : s.Sound := by
  obtain ⟨expected, acts, course⟩ := h
  exact (sound_new expected).course course

/-! ## The calls under one name -/

theorem Sound.named_after (h : s.Sound) {act : Act} (hname : act.name ≠ name) :
    (s.after act).named name = s.named name := by
  cases act with
  | call other now operation =>
      have hother : other ≠ name := hname
      simp [after, call, named, hother]
  | hangUp other =>
      have hother : other ≠ name := hname
      obtain hafter | ⟨t, before, behind, hcalls, hafter⟩ := h.after_hangUp other
      · rw [hafter]
      · rw [hafter, named, named, hcalls]
        simp [hother]

/-- What is collected under a name, and what stays there. -/
theorem named_collect (s : Session) (name : String) :
    s.collect.2.named name =
        (s.named name).filter (fun e => (s.coordinator.progress e.2).isNone) ∧
      s.collect.1.filter (fun e => e.1 = name) =
        (s.named name).filterMap fun e =>
          (s.coordinator.progress e.2).map fun outcome => (e.1, outcome) := by
  constructor
  · simp only [named, collect, List.filter_filter, Bool.and_comm]
  · simp only [named, collect, List.filter_filterMap, List.filterMap_filter]
    refine List.filterMap_congr fun e he => ?_
    cases s.coordinator.progress e.2 <;> simp [Option.filter]

/-- **What becomes of a call that was parked**, if nothing is done under its name: it is collected
when its ticket gets an answer, and otherwise stays. -/
theorem Sound.named_step_parked (h : s.Sound) {act : Act} (hname : act.name ≠ name) {t : Ticket}
    (hparked : s.named name = [(name, .parked t)]) :
    (s.step act).2.named name =
        (if (s.after act).coordinator.answers[t.number]? = none then [(name, .parked t)] else []) ∧
      (s.step act).1.filter (fun e => e.1 = name) =
        (((s.after act).coordinator.progress (.parked t)).map fun outcome =>
          (name, outcome)).toList := by
  obtain ⟨hstays, hcollected⟩ := named_collect (s.after act) name
  rw [h.named_after hname, hparked] at hstays hcollected
  unfold Session.step
  rw [hstays, hcollected]
  constructor
  · rw [List.filter_cons, List.filter_nil, Coordinator.progress_parked_isNone]
    simp only [Option.isNone_iff_eq_none]
  · cases hprogress : (s.after act).coordinator.progress (.parked t) <;> simp [hprogress]

/-- **What becomes of a call that was parked on the record of a process**, if nothing is done under
its name: it is collected when the waits there are ended, and otherwise stays. -/
theorem Sound.named_step (h : s.Sound) {act : Act} (hact : s.InTime act)
    (hname : act.name ≠ name) {n : Nat}
    (hparked : s.named name = [(name, .parked ⟨.record p, n⟩)]) :
    (s.step act).2.named name =
        (if act.settles p = none then [(name, .parked ⟨.record p, n⟩)] else []) ∧
      (s.step act).1.filter (fun e => e.1 = name) =
        ((act.settles p).map fun answer => (name, answer.outcome p)).toList := by
  have hwaits : s.coordinator.Waits ⟨.record p, n⟩ := by
    rw [← h.waits, mem_tickets]
    have hmem : (name, Reaction.parked ⟨.record p, n⟩) ∈ s.named name := hparked ▸ by simp
    exact ⟨name, (List.mem_filter.mp hmem).1⟩
  obtain ⟨hstays, hcollected⟩ := h.named_step_parked hname hparked
  rw [h.answers_after hact hwaits] at hstays
  rw [Coordinator.progress_parked, h.answers_after hact hwaits, Option.map_map] at hcollected
  exact ⟨hstays, hcollected⟩

/-- Nothing is collected under a name under which no call is in progress. -/
theorem Sound.named_step_nil (h : s.Sound) {act : Act} (hname : act.name ≠ name)
    (hnone : s.named name = []) :
    (s.step act).2.named name = [] ∧ (s.step act).1.filter (fun e => e.1 = name) = [] := by
  obtain ⟨hstays, hcollected⟩ := named_collect (s.after act) name
  rw [h.named_after hname, hnone] at hstays hcollected
  exact ⟨hstays, hcollected⟩

/-! ## Requests that wait -/

/-- Only requests are parked on records. -/
theorem exists_request_of_waitsFor {c : Coordinator} {now : Int64} {operation : Operation}
    (h : (c.perform now operation).1.waitsFor p) : ∃ request, operation = .request p request := by
  have hrendezvous : ∀ phase owner caller,
      (c.rendezvous phase owner caller).1.waitsFor p = false := by
    intro phase owner caller
    unfold Coordinator.rendezvous
    dsimp only
    split <;> simp [Reaction.waitsFor, Reaction.began]
  cases operation with
  | request owner request =>
      suffices howner : owner = p from ⟨request, by rw [howner]⟩
      simp only [Coordinator.perform, Reaction.waitsFor, Reaction.began_map,
        Coordinator.request] at h
      split at h
      · cases h
      · split at h
        · simpa [Reaction.began] using h
        · cases h
  | ready owner caller =>
      simp only [Coordinator.perform, Reaction.waitsFor, Reaction.began_map] at h
      exact absurd h (Bool.eq_false_iff.mp (hrendezvous .ready owner caller))
  | finished owner caller =>
      simp only [Coordinator.perform, Reaction.waitsFor, Reaction.began_map] at h
      exact absurd h (Bool.eq_false_iff.mp (hrendezvous .finished owner caller))
  | _ => cases h

/-- The calls that wait for a process are those in the queue of its record. -/
theorem Sound.waitingFor_eq (h : s.Sound) (p : ProcessId) :
    s.waitingFor p = match s.coordinator.records[p]? with
      | none => 0
      | some r => r.queue.length := by
  have hcount : s.waitingFor p = (s.tickets.filter fun t => t.place = .record p).length := by
    rw [waitingFor, tickets, ← List.countP_eq_length_filter, List.countP_filterMap]
    refine List.countP_congr fun e _ => ?_
    cases h : e.2.began <;> simp [Reaction.waitsFor, h]
  have hnodup : (s.tickets.filter fun t => t.place = .record p).Nodup := h.nodup.filter _
  rw [hcount]
  cases hr : s.coordinator.records[p]? with
  | none =>
      rw [List.length_eq_zero_iff, List.filter_eq_nil_iff]
      intro t ht hplace
      exact Coordinator.not_waits_at_record hr (of_decide_eq_true hplace) ((h.waits t).mp ht)
  | some r =>
      have hqueue : (r.tickets.map fun n => (⟨.record p, n⟩ : Ticket)).Nodup :=
        (h.orderly.nodup p r hr).map fun n m heq => by simpa using heq
      -- Neither list has anything twice, and both hold what waits at the record.
      have hperm := (List.perm_ext_iff_of_nodup hnodup hqueue).mpr fun t => by
        rw [List.mem_filter, h.waits, List.mem_map, decide_eq_true_iff]
        constructor
        · rintro ⟨ht, hplace⟩
          exact ⟨t.number, (Coordinator.waits_at_record hr hplace).mp ht, by rw [← hplace]⟩
        · rintro ⟨n, hn, rfl⟩
          exact ⟨⟨r, hr, hn⟩, rfl⟩
      rw [hperm.length_eq, List.length_map, Record.tickets, List.length_map]

/-- A call that comes to wait for a process is in progress after it has been made. -/
theorem Sound.named_step_call (h : s.Sound) {now : Int64} {operation : Operation}
    (hact : s.InTime (.call name now operation)) (hnone : s.named name = [])
    (hwaits : (s.coordinator.perform now operation).1.waitsFor p) :
    ∃ n, (s.step (.call name now operation)).2.named name =
      [(name, .parked ⟨.record p, n⟩)] := by
  have hends := h.orderly.ends_perform now operation hact
  have hnamed : (s.call name now operation).named name =
      [(name, (s.coordinator.perform now operation).1)] := by
    rw [named, call, List.filter_append, show s.calls.filter _ = [] from hnone]
    simp
  cases hreaction : (s.coordinator.perform now operation).1 with
  | answered outcome =>
      rw [hreaction] at hwaits
      cases hwaits
  | parked t =>
      rw [hreaction] at hwaits hends hnamed
      obtain ⟨place, n⟩ := t
      obtain rfl : place = .record p := by simpa [Reaction.waitsFor, Reaction.began] using hwaits
      refine ⟨n, ?_⟩
      -- Nobody has answered it so far.
      have hanswer := hends.orderly.unanswered _ ((hends.waits _).mpr (.inr rfl))
      have hcollect := (named_collect (s.call name now operation) name).1
      rw [hnamed, List.filter_cons_of_pos] at hcollect
      · exact hcollect
      · rw [Coordinator.progress_parked_isNone]
        exact Option.isNone_iff_eq_none.mpr hanswer

/-- What becomes of a request over a course in which nothing else is done under its name: it stays
as long as nothing has ended the waits there, and then nothing is left of it. -/
theorem Sound.named_course (h : s.Sound) {n : Nat}
    (hparked : s.named name = [(name, .parked ⟨.record p, n⟩)]) {acts : List Act}
    (course : Course s acts y) (hnames : ∀ act ∈ acts, act.name ≠ name) :
    y.named name = if acts.findSome? (Act.settles p) = none then
      [(name, .parked ⟨.record p, n⟩)] else [] := by
  induction course with
  | refl => exact hparked
  | @step y acts course act inTime ih =>
      have hy := h.course course
      have hname : act.name ≠ name := hnames act (by simp)
      have hbefore := ih fun act hact => hnames act (List.mem_append_left _ hact)
      rw [List.findSome?_append]
      split at hbefore
      · next hnone =>
          rw [(hy.named_step inTime hname hbefore).1, hnone]
          cases hsettles : act.settles p <;> simp [hsettles]
      · next hsome =>
          rw [(hy.named_step_nil hname hbefore).1]
          cases hfirst : acts.findSome? (Act.settles p) with
          | none => exact absurd hfirst hsome
          | some answer => simp

/-- **Requests that wait are answered once and for the right reason.** In every session that is
reached from a new coordinator, the number of requests queued at a process is the number of calls
that wait for it. A call that comes to wait for a process is a request to it, and it goes on waiting
until the first operation that ends the waits there: it is granted when the process leaves and
interrupted when the process subscribes or the coordinator starts anew. It is collected right after
that operation, with that outcome, and never again. -/
theorem request_answered_once {s : Session} (hs : s.Reachable) :
    (∀ p, s.waitingFor p = match s.coordinator.snapshot p with
      | .ok snapshot => snapshot.queued
      | .error _ => 0) ∧
    ∀ (p : ProcessId) (name : String) (now : Int64) (operation : Operation),
      (s.coordinator.perform now operation).1.waitsFor p → s.named name = [] →
      (∃ request, operation = .request p request) ∧
      ∀ (acts : List Act) (y : Session), Course (s.step (.call name now operation)).2 acts y →
        (∀ act ∈ acts, act.name ≠ name) →
        (acts.findSome? (Act.settles p) = none →
          (∃ t, y.named name = [(name, .parked t)]) ∧
          ∀ act, y.InTime act → act.name ≠ name →
            (y.step act).1.filter (fun e => e.1 = name) =
              ((act.settles p).map fun answer => (name, answer.outcome p)).toList) ∧
        (acts.findSome? (Act.settles p) ≠ none →
          y.named name = [] ∧
          ∀ act, act.name ≠ name → (y.step act).1.filter (fun e => e.1 = name) = []) := by
  have h := hs.sound
  refine ⟨fun p => ?_, fun p name now operation hwaits hnone => ?_⟩
  · rw [h.waitingFor_eq]
    unfold Coordinator.snapshot
    cases s.coordinator.records[p]? <;> rfl
  obtain ⟨request, rfl⟩ := exists_request_of_waitsFor hwaits
  refine ⟨⟨request, rfl⟩, fun acts y course hnames => ?_⟩
  have hact : s.InTime (.call name now (.request p request)) := by
    intro hover
    rw [hover] at hwaits
    cases hwaits
  have hstart : (s.step (.call name now (.request p request))).2.Sound := h.step _
  have hy := hstart.course course
  obtain ⟨n, hparked⟩ := h.named_step_call hact hnone hwaits
  have hnamed := hstart.named_course hparked course hnames
  constructor
  · intro hsettles
    rw [if_pos hsettles] at hnamed
    exact ⟨⟨_, hnamed⟩, fun act inTime hname => (hy.named_step inTime hname hnamed).2⟩
  · intro hsettles
    rw [if_neg hsettles] at hnamed
    exact ⟨hnamed, fun act hname => (hy.named_step_nil hname hnamed).2⟩

/-- A request to a process that is inside, which then leaves. -/
theorem request_answered_once_leave :
    ∃ s y : Session, s.Reachable ∧
      Course (s.step (.call "asks" 0 (.request "P1" ⟨1, "P2"⟩))).2
        [.call "joins" 0 (.subscribe "P2")] y ∧
      (y.step (.call "leaves" 0 (.leave "P1"))).1.filter (fun e => e.1 = "asks") =
        [("asks", .ok .done)] := by
  let s : Session := (((new 2).step (.call "joins" 0 (.subscribe "P1"))).2.step
    (.call "enters" 0 (.enter "P1"))).2
  have hs : s.Reachable :=
    ⟨2, _, .step (.step (.refl _) _ (by decide +kernel)) _ (by decide +kernel)⟩
  have hcourse : Course (s.step (.call "asks" 0 (.request "P1" ⟨1, "P2"⟩))).2
      [.call "joins" 0 (.subscribe "P2")]
      ((s.step (.call "asks" 0 (.request "P1" ⟨1, "P2"⟩))).2.step
        (.call "joins" 0 (.subscribe "P2"))).2 :=
    .step (.refl _) _ (by decide +kernel)
  refine ⟨s, _, hs, hcourse, ?_⟩
  exact ((((request_answered_once hs).2 "P1" "asks" 0 (.request "P1" ⟨1, "P2"⟩)
    (by decide +kernel) (by decide +kernel)).2 _ _ hcourse (by decide)).1 (by decide)).2
    (.call "leaves" 0 (.leave "P1")) (by decide +kernel) (by decide)

end Session

end CriticalSection
