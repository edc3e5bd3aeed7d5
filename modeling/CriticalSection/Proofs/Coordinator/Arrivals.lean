import Mathlib.Data.List.Perm.Basic
import CriticalSection.Proofs.Coordinator.Records
import CriticalSection.Proofs.Coordinator.Waits

/-!
# Requests that arrive at one process

While a process neither asks, nor enters, nor leaves, its standing and the time of its own request
stay as they are, and these decide who is granted at once and who is parked (`Record.defers`). So
what comes of a batch of requests does not depend on the order in which they arrive. The clock does
depend on it, because hearing of a time moves it one past the later of the two; but it ends within
the length of the batch of the latest time (`peak`). Whoever is parked waits until the process
leaves, or until the caller hangs up.
-/

set_option autoImplicit false

namespace CriticalSection

namespace Coordinator

/-! ## Definitions -/

namespace Event

/-- Whether an event lets those wait who wait at a process: it neither leaves nor loses its
record. -/
def bides (p : ProcessId) : Event → Bool
  | .call _ (.leave q) => q ≠ p
  | e => e.spares p

/-- **Whether an event is none of the doings of a process**: others may ask and hang up, and meet at
barriers. -/
def isAside (p : ProcessId) : Event → Bool
  | .call _ (.announce q) | .call _ (.enter q) => q ≠ p
  | e => e.bides p

/-- The request to a process that arrives with an event. -/
def request? (p : ProcessId) : Event → Option Stamp
  | .call _ (.request q stamp) => if q = p then some stamp else none
  | _ => none

end Event

/-- **The batch of requests to a process** in the course of some events, as they arrive. -/
def batch (p : ProcessId) (events : List Event) : List Stamp := events.filterMap (Event.request? p)

/-- A request that has arrived, with what came of it at once and what has come to pass since. -/
structure Arrival where
  request : Stamp
  reaction : Reaction Unit
  since : List Event

namespace Arrival

/-- Whether a request was granted at once. -/
def isGranted (a : Arrival) : Bool :=
  match a.reaction with
  | .answered (.ok ()) => true
  | _ => false

/-- Whether a request was parked. -/
def isParked (a : Arrival) : Bool := a.reaction.began.isSome

end Arrival

/-- The arrival at a process that an event is, if it is one. -/
def arrival? (c : Coordinator) (p : ProcessId) (since : List Event) : Event → Option Arrival
  | .call _ (.request q stamp) =>
    if q = p then some ⟨stamp, (c.request p stamp).1, since⟩ else none
  | _ => none

/-- **The arrivals at a process** in the course of some events. -/
def arrivals (p : ProcessId) : Coordinator → List Event → List Arrival
  | _, [] => []
  | c, e :: events => (c.arrival? p events e).toList ++ arrivals p (c.after e) events

/-- The requests that are granted at once. -/
def granted (p : ProcessId) (c : Coordinator) (events : List Event) : List Stamp :=
  ((arrivals p c events).filter Arrival.isGranted).map Arrival.request

/-- The requests that are parked. -/
def parked (p : ProcessId) (c : Coordinator) (events : List Event) : List Stamp :=
  ((arrivals p c events).filter Arrival.isParked).map Arrival.request

/-- **The latest time** among one that a clock shows and those of a batch. -/
def peak (start : Nat) (batch : List Stamp) : Nat :=
  batch.foldl (fun latest stamp => max latest stamp.time.toNat) start

end Coordinator

/-- **What has become of a record** since a batch of requests has arrived: the clock has heard of
them, and the standing and the time of the process's own request are as before. -/
structure Record.Heard (r r' : Record) (batch : List Stamp) : Prop where
  standing : r'.standing = r.standing
  announced : r'.announced = r.announced
  peak_le : Coordinator.peak r.clock.time.toNat batch ≤ r'.clock.time.toNat
  le_peak : r'.clock.time.toNat ≤ Coordinator.peak r.clock.time.toNat batch + batch.length

/-- **Records that differ at most in their clocks** and in the order in which requests wait. -/
structure Record.Resembles (r r' : Record) : Prop where
  standing : r.standing = r'.standing
  announced : r.announced = r'.announced
  queue : (r.queue.map Waiting.request).Perm (r'.queue.map Waiting.request)

/-- **What two orders of arrival have in common** for a process that does nothing itself. -/
structure Coordinator.InAnyOrder (c : Coordinator) (p : ProcessId) (r : Record)
    (events events' : List Event) : Prop where
  /-- The record decides each request as it would at first. -/
  decided : granted p c events = (batch p events).filter (fun stamp => !r.defers p stamp) ∧
    parked p c events = (batch p events).filter fun stamp => r.defers p stamp
  granted : (granted p c events).Perm (granted p c events')
  parked : (parked p c events).Perm (parked p c events')
  /-- The two records have heard of the same requests. They differ at most in their clocks, unless
  somebody hangs up. -/
  records : ∃ r₁ r₂, (c.run events).records[p]? = some r₁ ∧
    (c.run events').records[p]? = some r₂ ∧ r.Heard r₁ (batch p events) ∧
    r.Heard r₂ (batch p events) ∧
    ((∀ t, .hangUp t ∈ events ++ events' → t.place ≠ .record p) → r₁.Resembles r₂)
  /-- When the process leaves at last, whatever else has come to pass, this wakes those of the batch
  who were parked and have not hung up since. -/
  woken : ∀ rest, (∀ e ∈ rest, e.bides p = true) →
    (((c.run events).run rest).leave p).1 = .ok () →
    ∀ a ∈ arrivals p c events, ∀ t, a.reaction = .parked t →
      (.hangUp t ∉ a.since ++ rest → ((c.run events).run rest).outcome? t = none ∧
        (((c.run events).run rest).leave p).2.outcome? t = some (.ok ())) ∧
      (.hangUp t ∈ a.since ++ rest → (((c.run events).run rest).leave p).2.outcome? t =
        ((c.run events).run rest).outcome? t)

namespace Coordinator

/-! ## The latest time of a batch -/

section Peak

variable {n m : Nat} {stamps stamps' : List Stamp}

theorem peak_append : peak n (stamps ++ stamps') = peak (peak n stamps) stamps' :=
  List.foldl_append

theorem peak_mono (h : n ≤ m) : peak n stamps ≤ peak m stamps := by
  induction stamps generalizing n m with
  | nil => exact h
  | cons stamp stamps ih =>
      have hle : max n stamp.time.toNat ≤ max m stamp.time.toNat := by omega
      exact ih hle

theorem peak_add_le (k : Nat) : peak (n + k) stamps ≤ peak n stamps + k := by
  induction stamps generalizing n with
  | nil => exact Nat.le_refl _
  | cons stamp stamps ih =>
      have hle : max (n + k) stamp.time.toNat ≤ max n stamp.time.toNat + k := by omega
      have hmono := @peak_mono _ _ stamps hle
      exact Nat.le_trans hmono ih

/-- The latest time is the same in whatever order requests arrive. -/
theorem peak_perm (h : stamps.Perm stamps') : peak n stamps = peak n stamps' :=
  h.foldl_eq' (fun _ _ _ _ _ => by omega) n

end Peak

end Coordinator

/-! ## What becomes of a record -/

namespace Record

variable {r r' r'' : Record} {batch batch' : List Stamp}

/-- Who has to wait depends on the standing of a process and the time of its own request. -/
theorem Heard.defers_eq (h : r.Heard r' batch) (owner : ProcessId) (request : Stamp) :
    r'.defers owner request = r.defers owner request := by
  rw [defers, defers, h.standing, h.announced]

theorem Heard.refl (r : Record) : r.Heard r [] := ⟨rfl, rfl, Nat.le_refl _, Nat.le_refl _⟩

theorem Heard.trans (h : r.Heard r' batch) (h' : r'.Heard r'' batch') :
    r.Heard r'' (batch ++ batch') := by
  refine ⟨h'.standing.trans h.standing, h'.announced.trans h.announced, ?_, ?_⟩
  · rw [Coordinator.peak_append]
    exact Nat.le_trans (Coordinator.peak_mono h.peak_le) h'.peak_le
  · have hmono := @Coordinator.peak_mono _ _ batch' h.le_peak
    have hadd := @Coordinator.peak_add_le (Coordinator.peak r.clock.time.toNat batch) batch'
      batch.length
    have := h'.le_peak
    rw [Coordinator.peak_append, List.length_append]
    omega

/-- What a record has heard of does not depend on the order. -/
theorem Heard.perm (h : r.Heard r' batch) (hperm : batch.Perm batch') : r.Heard r' batch' := by
  refine ⟨h.standing, h.announced, ?_, ?_⟩
  · rw [← Coordinator.peak_perm hperm]
    exact h.peak_le
  · rw [← Coordinator.peak_perm hperm, ← hperm.length_eq]
    exact h.le_peak

theorem heard_drop (r : Record) (ticket : Nat) : r.Heard (r.drop ticket) [] :=
  ⟨rfl, rfl, Nat.le_refl _, Nat.le_refl _⟩

/-- A clock that hears of a time moves to the later of the two times or one past it. -/
theorem heard_ask (r : Record) (owner : ProcessId) (ticket : Nat) (request : Stamp) :
    r.Heard (r.ask owner ticket request) [request] := by
  refine ⟨r.standing_ask owner ticket request, r.announced_ask owner ticket request, ?_, ?_⟩
  · have hown := UInt64.le_iff_toNat_le.mp (r.clock.le_observe request.time)
    have hheard := UInt64.le_iff_toNat_le.mp (r.clock.heard_le_observe request.time)
    rw [clock_ask]
    exact Nat.max_le.mpr ⟨hown, hheard⟩
  · rw [clock_ask]
    exact r.clock.observe_le request.time

end Record

namespace Coordinator

/-! ## One event -/

section Event

variable {c : Coordinator} {p : ProcessId} {e : Event}

theorem Event.bides_of_isAside (h : e.isAside p = true) : e.bides p = true := by
  unfold isAside at h
  split at h
  · rfl
  · rfl
  · exact h

theorem Event.spares_of_bides (h : e.bides p = true) : e.spares p = true := by
  unfold bides at h
  split at h
  · rfl
  · exact h

/-- **What an event that is none of its doings makes of the record of a process**: a request
arrives, a caller hangs up, or nothing happens to it. -/
inductive Event.Touch (p : ProcessId) (issued : Nat) (r : Record) (e : Event) : Prop
  | asked (now : Int64) (stamp : Stamp) (he : e = .call now (.request p stamp))
      (htouch : e.touch p issued r = r.ask p issued stamp)
  | hungUp (t : Ticket) (he : e = .hangUp t) (hplace : t.place = .record p)
      (htouch : e.touch p issued r = r.drop t.number)
  | spared (hrequest : e.request? p = none) (htouch : e.touch p issued r = r)

theorem Event.touch_cases (h : e.isAside p = true) (issued : Nat) (r : Record) :
    Event.Touch p issued r e := by
  cases e with
  | hangUp t =>
      by_cases hplace : t.place = .record p
      · exact .hungUp t rfl hplace (if_pos hplace)
      · exact .spared rfl (if_neg hplace)
  | call now operation =>
      cases operation with
      | request q stamp =>
          by_cases hq : q = p
          · subst hq
            exact .asked now stamp rfl (if_pos rfl)
          · exact .spared (if_neg hq) (if_neg (Ne.symm hq))
      | announce q | enter q | leave q =>
          have hne : p ≠ q := fun heq => by simp [isAside, bides, heq] at h
          exact .spared rfl (if_neg hne)
      | subscribe q | restart expected | ready owner caller | finished owner caller
      | listSubscribed | health | readClock => exact .spared rfl rfl

/-- The record of a process after an event that is none of its doings. -/
theorem exists_heard_after (haside : e.isAside p = true) {r : Record}
    (hr : c.records[p]? = some r) :
    ∃ r', (c.after e).records[p]? = some r' ∧ r.Heard r' (e.request? p).toList := by
  refine ⟨e.touch p c.issued r, ?_, ?_⟩
  · rw [records_after (Event.spares_of_bides (Event.bides_of_isAside haside)), hr]
    rfl
  · cases Event.touch_cases haside c.issued r with
    | asked now stamp he htouch =>
        rw [htouch, he, Event.request?, if_pos rfl]
        exact r.heard_ask p c.issued stamp
    | hungUp t he hplace htouch =>
        rw [htouch, he]
        exact r.heard_drop t.number
    | spared hrequest htouch =>
        rw [htouch, hrequest]
        exact .refl r

/-- **A request is granted at once or parked**, as the record decides. -/
theorem fst_request {r : Record} (hr : c.records[p]? = some r) (stamp : Stamp) :
    (c.request p stamp).1 =
      if r.defers p stamp then .parked ⟨.record p, c.issued⟩ else .answered (.ok ()) := by
  simp only [Coordinator.request, hr]
  split <;> rfl

/-- **An arrival** is granted at once or parked with the next ticket. -/
theorem arrival?_eq {r : Record} (hr : c.records[p]? = some r) (since : List Event) :
    c.arrival? p since e = (e.request? p).map fun stamp =>
      ⟨stamp, if r.defers p stamp then .parked ⟨.record p, c.issued⟩ else .answered (.ok ()),
        since⟩ := by
  unfold arrival? Event.request?
  split
  · split
    · rw [fst_request hr]
      rfl
    · rfl
  · rfl

/-! ### Waits -/

theorem ending_of_bides {now : Int64} {operation : Operation}
    (hbides : (Event.call now operation).bides p = true) :
    c.ending operation (.record p) = none := by
  cases operation with
  | subscribe q | leave q =>
      have hne : p ≠ q := fun heq => by simp [Event.bides, Event.spares, heq] at hbides
      simp [ending, hne]
  | restart expected => simp [Event.bides, Event.spares] at hbides
  | ready owner caller | finished owner caller => simp [ending]
  | announce q | request owner stamp | enter q | listSubscribed | health | readClock => rfl

/-- **Events keep a coordinator orderly**, and give out further numbers only. -/
theorem Orderly.after (h : c.Orderly) (e : Event) :
    (c.after e).Orderly ∧ c.issued ≤ (c.after e).issued := by
  cases e with
  | hangUp t => exact ⟨h.hangUp t, Nat.le_of_eq (issued_hangUp c t).symm⟩
  | call now operation =>
      obtain ⟨ending, hends, -⟩ := h.exists_ends_perform now operation
      exact ⟨hends.orderly, hends.issued⟩

/-- **A wait at a record goes on** after every event that lets it, unless its caller hangs up. -/
theorem waits_after (h : c.Orderly) (hbides : e.bides p = true) {t : Ticket}
    (hplace : t.place = .record p) (hn : t.number < c.issued) :
    (c.after e).Waits t ↔ c.Waits t ∧ e ≠ .hangUp t := by
  cases e with
  | hangUp u =>
      rw [Coordinator.after, waits_hangUp]
      simp [eq_comm]
  | call now operation =>
      -- a process that leaves too late ends no wait, and any other call ends none at this record
      obtain ⟨ending, hends, hrecord⟩ : ∃ ending, c.Ends ending
          (c.perform now operation).1.began (c.perform now operation).2 ∧
          ending (.record p) = none := by
        by_cases hlate : ∃ q, operation = .leave q ∧ (c.leave q).1 = overflowed
        · obtain ⟨q, rfl, hleave⟩ := hlate
          exact ⟨fun _ => none, h.ends_leave_overflowed hleave, rfl⟩
        · refine ⟨c.ending operation, h.ends_perform_of_leave now operation ?_,
            ending_of_bides hbides⟩
          exact fun q hq hleave => hlate ⟨q, hq, hleave⟩
      have hnew : (c.perform now operation).1.began ≠ some t := fun hbegan =>
        Nat.ne_of_lt hn (hends.number t hbegan)
      rw [Coordinator.after, hends.waits, hplace]
      simp [hrecord, hnew]

/-- An event that is an arrival is a request. -/
theorem exists_of_arrival? {since : List Event} {a : Arrival}
    (ha : c.arrival? p since e = some a) :
    ∃ now stamp, e = .call now (.request p stamp) ∧ a = ⟨stamp, (c.request p stamp).1, since⟩ := by
  unfold arrival? at ha
  split at ha
  · next now q stamp =>
      split at ha
      · next hq =>
          subst hq
          exact ⟨now, stamp, rfl, (Option.some.inj ha).symm⟩
      · cases ha
  · cases ha

/-- Whoever is parked at a record waits there from then on. -/
theorem waits_of_parked (h : c.Orderly) {now : Int64} {stamp : Stamp} {t : Ticket} {r : Record}
    (hr : c.records[p]? = some r) (ht : (c.request p stamp).1 = .parked t) :
    t.place = .record p ∧ (c.after (.call now (.request p stamp))).Waits t := by
  have hends := h.ends_request p stamp
  rw [ht] at hends
  refine ⟨?_, (hends.waits t).mpr (Or.inr rfl)⟩
  rw [fst_request hr] at ht
  split at ht
  · rw [← Reaction.parked.inj ht]
  · cases ht

end Event

/-! ## A course of events -/

section Course

variable {c : Coordinator} {p : ProcessId} {r : Record} {events : List Event}

theorem batch_cons (e : Event) (events : List Event) :
    batch p (e :: events) = (e.request? p).toList ++ batch p events := by
  rw [batch, List.filterMap_cons]
  cases e.request? p <;> rfl

/-- **The record of a process after a course of events** that are none of its doings. -/
theorem exists_heard_run (haside : ∀ e ∈ events, e.isAside p = true)
    (hr : c.records[p]? = some r) :
    ∃ r', (c.run events).records[p]? = some r' ∧ r.Heard r' (batch p events) := by
  induction events generalizing c r with
  | nil => exact ⟨r, hr, .refl r⟩
  | cons e events ih =>
      obtain ⟨he, hevents⟩ := List.forall_mem_cons.mp haside
      obtain ⟨r₁, hr₁, hheard⟩ := exists_heard_after he hr
      obtain ⟨r₂, hr₂, hlater⟩ := ih hevents hr₁
      refine ⟨r₂, hr₂, ?_⟩
      rw [batch_cons]
      exact hheard.trans hlater

theorem run_append (c : Coordinator) (events rest : List Event) :
    c.run (events ++ rest) = (c.run events).run rest := List.foldl_append

theorem Orderly.run (h : c.Orderly) (events : List Event) : (c.run events).Orderly := by
  induction events generalizing c with
  | nil => exact h
  | cons e events ih => exact ih (h.after e).1

/-- **A wait at a record goes on** until the process leaves, unless its caller hangs up. -/
theorem waits_run (h : c.Orderly) (hbides : ∀ e ∈ events, e.bides p = true) {t : Ticket}
    (hplace : t.place = .record p) (hn : t.number < c.issued) :
    (c.run events).Waits t ↔ c.Waits t ∧ .hangUp t ∉ events := by
  induction events generalizing c with
  | nil => simp [Coordinator.run]
  | cons e events ih =>
      obtain ⟨he, hevents⟩ := List.forall_mem_cons.mp hbides
      obtain ⟨horderly, hissued⟩ := h.after e
      have hgoes := ih horderly hevents (Nat.lt_of_lt_of_le hn hissued)
      refine hgoes.trans ?_
      rw [waits_after h he hplace hn, List.mem_cons, not_or, and_assoc, ne_comm]

/-! ### Who is granted and who is parked -/

/-- An event adds to those that are granted at once the request that arrives with it, unless the
record defers it. -/
theorem granted_cons (hr : c.records[p]? = some r) (e : Event) (events : List Event) :
    granted p c (e :: events) =
      (e.request? p).toList.filter (fun stamp => !r.defers p stamp) ++
        granted p (c.after e) events := by
  rw [granted, arrivals, arrival?_eq hr, List.filter_append, List.map_append]
  congr 1
  cases e.request? p with
  | none => rfl
  | some stamp =>
      simp only [Option.map_some, Option.toList_some, List.filter_cons, List.filter_nil]
      cases r.defers p stamp <;> rfl

theorem parked_cons (hr : c.records[p]? = some r) (e : Event) (events : List Event) :
    parked p c (e :: events) =
      (e.request? p).toList.filter (fun stamp => r.defers p stamp) ++
        parked p (c.after e) events := by
  rw [parked, arrivals, arrival?_eq hr, List.filter_append, List.map_append]
  congr 1
  cases e.request? p with
  | none => rfl
  | some stamp =>
      simp only [Option.map_some, Option.toList_some, List.filter_cons, List.filter_nil]
      cases r.defers p stamp <;> rfl

/-- **Who is granted at once and who is parked** is decided by the record as it was at first. -/
theorem granted_and_parked (haside : ∀ e ∈ events, e.isAside p = true)
    (hr : c.records[p]? = some r) :
    granted p c events = (batch p events).filter (fun stamp => !r.defers p stamp) ∧
      parked p c events = (batch p events).filter fun stamp => r.defers p stamp := by
  induction events generalizing c r with
  | nil => exact ⟨rfl, rfl⟩
  | cons e events ih =>
      obtain ⟨he, hevents⟩ := List.forall_mem_cons.mp haside
      obtain ⟨r₁, hr₁, hheard⟩ := exists_heard_after he hr
      obtain ⟨hgranted, hparked⟩ := ih hevents hr₁
      simp only [hheard.defers_eq] at hgranted hparked
      rw [granted_cons hr, parked_cons hr, batch_cons, List.filter_append, List.filter_append,
        hgranted, hparked]
      exact ⟨rfl, rfl⟩

/-- **Whose wait goes on** when requests have arrived and more has come to pass: whoever was parked
and has not hung up. -/
theorem arrival_waits (h : c.Orderly) (haside : ∀ e ∈ events, e.isAside p = true)
    (hr : c.records[p]? = some r) {rest : List Event} (hbides : ∀ e ∈ rest, e.bides p = true)
    {a : Arrival} (ha : a ∈ arrivals p c events) {t : Ticket} (ht : a.reaction = .parked t) :
    t.place = .record p ∧
      (((c.run events).run rest).Waits t ↔ .hangUp t ∉ a.since ++ rest) := by
  induction events generalizing c r with
  | nil => simp [arrivals] at ha
  | cons e events ih =>
      obtain ⟨he, hevents⟩ := List.forall_mem_cons.mp haside
      obtain ⟨r₁, hr₁, -⟩ := exists_heard_after he hr
      rw [arrivals, List.mem_append] at ha
      rcases ha with ha | ha
      · rw [Option.mem_toList] at ha
        obtain ⟨now, stamp, rfl, rfl⟩ := exists_of_arrival? ha
        obtain ⟨hplace, hwaits⟩ := waits_of_parked h hr ht
        have hgoes : ∀ e ∈ events ++ rest, e.bides p = true := fun e he =>
          (List.mem_append.mp he).elim (fun he => Event.bides_of_isAside (hevents e he)) (hbides e)
        have horderly := (h.after (.call now (.request p stamp))).1
        refine ⟨hplace, ?_⟩
        show (((c.after (.call now (.request p stamp))).run events).run rest).Waits t ↔ _
        rw [← run_append, waits_run horderly hgoes hplace (horderly.issued t hwaits)]
        exact and_iff_right hwaits
      · exact ih (h.after e).1 hevents hr₁ ha

/-- **Who waits at a record** in the end, if nobody hangs up: those who waited at first, and after
them those who were parked. -/
theorem queue_run (haside : ∀ e ∈ events, e.isAside p = true) (hr : c.records[p]? = some r)
    (hstays : ∀ t, .hangUp t ∈ events → t.place ≠ .record p) {r' : Record}
    (hr' : (c.run events).records[p]? = some r') :
    r'.queue.map Waiting.request = r.queue.map Waiting.request ++ parked p c events := by
  induction events generalizing c r with
  | nil =>
      obtain rfl := Option.some.inj (hr.symm.trans hr')
      simp [parked, arrivals]
  | cons e events ih =>
      obtain ⟨he, hevents⟩ := List.forall_mem_cons.mp haside
      have hlater : ∀ t, .hangUp t ∈ events → t.place ≠ .record p := fun t ht =>
        hstays t (List.mem_cons_of_mem e ht)
      have hr₁ : (c.after e).records[p]? = some (e.touch p c.issued r) := by
        rw [records_after (Event.spares_of_bides (Event.bides_of_isAside he)), hr]
        rfl
      rw [ih hevents hr₁ hlater hr', parked_cons hr, ← List.append_assoc]
      congr 1
      cases Event.touch_cases he c.issued r with
      | asked now stamp heq htouch =>
          rw [htouch, heq, Record.queue_ask, Event.request?, if_pos rfl, Option.toList_some,
            List.filter_cons, List.filter_nil]
          split <;> simp
      | hungUp t heq hplace htouch => exact absurd hplace (hstays t (heq ▸ List.mem_cons_self))
      | spared hrequest htouch => simp [htouch, hrequest]

/-! ### The process leaves -/

/-- **A process that leaves in time wakes those who wait at its record**, and nobody else. -/
theorem outcome?_leave (h : c.Orderly) (hleave : (c.leave p).1 = .ok ()) {t : Ticket}
    (hplace : t.place = .record p) :
    (c.Waits t → c.outcome? t = none ∧ (c.leave p).2.outcome? t = some (.ok ())) ∧
      (¬ c.Waits t → (c.leave p).2.outcome? t = c.outcome? t) := by
  cases hr : c.records[p]? with
  | none => simp [leave, hr, fail] at hleave
  | some r =>
      have hlast : r.clock.time ≠ Clock.last := fun hlast => by
        simp [leave, hr, Record.leave, Clock.tick, hlast, overflowed] at hleave
      have hanswer := answers_leave hr hlast t.number
      rw [outcome?, outcome?, hanswer, waits_at_record hr hplace]
      constructor
      · intro hmem
        rw [if_pos hmem, h.unanswered t ((waits_at_record hr hplace).mpr hmem)]
        exact ⟨rfl, rfl⟩
      · intro hmem
        rw [if_neg hmem]

/-! ### Another order -/

/-- **What comes of a batch of requests does not depend on the order in which they arrive.** -/
theorem received_in_any_order (h : c.Orderly) (hr : c.records[p]? = some r) {events' : List Event}
    (haside : ∀ e ∈ events, e.isAside p = true) (haside' : ∀ e ∈ events', e.isAside p = true)
    (hperm : (batch p events).Perm (batch p events')) : c.InAnyOrder p r events events' := by
  obtain ⟨hgranted, hparked⟩ := granted_and_parked haside hr
  obtain ⟨hgranted', hparked'⟩ := granted_and_parked haside' hr
  have hparkedPerm : (parked p c events).Perm (parked p c events') := by
    rw [hparked, hparked']
    exact hperm.filter _
  refine ⟨⟨hgranted, hparked⟩, ?_, hparkedPerm, ?_, fun rest hbides hleave a ha t ht => ?_⟩
  · rw [hgranted, hgranted']
    exact hperm.filter _
  · obtain ⟨r₁, hr₁, hheard⟩ := exists_heard_run haside hr
    obtain ⟨r₂, hr₂, hheard'⟩ := exists_heard_run haside' hr
    refine ⟨r₁, r₂, hr₁, hr₂, hheard, hheard'.perm hperm.symm, fun hstays => ?_⟩
    have hqueue := queue_run haside hr
      (fun t ht => hstays t (List.mem_append_left events' ht)) hr₁
    have hqueue' := queue_run haside' hr
      (fun t ht => hstays t (List.mem_append_right events ht)) hr₂
    refine ⟨hheard.standing.trans hheard'.standing.symm,
      hheard.announced.trans hheard'.announced.symm, ?_⟩
    rw [hqueue, hqueue']
    exact hparkedPerm.append_left _
  · obtain ⟨hplace, hwaits⟩ := arrival_waits h haside hr hbides ha ht
    have hwakes := outcome?_leave ((h.run events).run rest) hleave hplace
    rw [hwaits, not_not] at hwakes
    exact hwakes

end Course

end Coordinator

end CriticalSection
