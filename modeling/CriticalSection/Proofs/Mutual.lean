import CriticalSection.Proofs.Coordinator.Arrivals
import CriticalSection.Proofs.FanOut

/-!
# Two processes that ask each other

Of two processes that both want to enter, each asks the other one with the time of its own request.
The two calls may arrive in either order, at two brokers or at the same one. Each record decides by
the stamps of the two requests, of which exactly one precedes the other; so one call is granted at
once and one is parked, and the call that comes first does not touch what the other one depends on.
-/

set_option autoImplicit false

namespace CriticalSection

/-! ## Two requests at one coordinator -/

namespace Coordinator

/-- **Coordinators that nobody can tell apart**: they hold the same records, barriers, numbers and
answers. -/
structure Alike (c c' : Coordinator) : Prop where
  expected : c.expected = c'.expected
  records : ∀ p : ProcessId, c.records[p]? = c'.records[p]?
  barriers : ∀ phase, c.barriers phase = c'.barriers phase
  issued : c.issued = c'.issued
  answers : c.answers = c'.answers

section Requests

variable {c : Coordinator} {p q : ProcessId} {r r' : Record} {request request' : Stamp}

theorem Alike.refl (c : Coordinator) : c.Alike c := ⟨rfl, fun _ => rfl, fun _ => rfl, rfl, rfl⟩

theorem expected_request (c : Coordinator) (p : ProcessId) (request : Stamp) :
    (c.request p request).2.expected = c.expected := by
  unfold Coordinator.request
  split
  · rfl
  · dsimp only
    split <;> rfl

theorem barriers_request (c : Coordinator) (p : ProcessId) (request : Stamp) (phase : Phase) :
    (c.request p request).2.barriers phase = c.barriers phase := by
  unfold Coordinator.request
  split
  · rfl
  · dsimp only
    split <;> cases phase <;> rfl

/-- A request gets the next number if it is parked. -/
theorem issued_request (hr : c.records[p]? = some r) (request : Stamp) :
    (c.request p request).2.issued = if r.defers p request then c.issued + 1 else c.issued := by
  simp only [Coordinator.request, hr]
  split <;> rfl

/-- **Two requests to different processes arrive in either order**: if one of them is granted at
once, both come to the same, and nobody can tell in which order they came. -/
theorem request_swap (hp : c.records[p]? = some r) (hq : c.records[q]? = some r') (hne : p ≠ q)
    (hdefers : r.defers p request = !r'.defers q request') :
    ((c.request q request').2.request p request).1 = (c.request p request).1 ∧
      ((c.request p request).2.request q request').1 = (c.request q request').1 ∧
      ((c.request q request').2.request p request).2.Alike
        ((c.request p request).2.request q request').2 := by
  have hp' : (c.request q request').2.records[p]? = some r := by
    rw [records_request, if_neg hne, hp]
  have hq' : (c.request p request).2.records[q]? = some r' := by
    rw [records_request, if_neg (Ne.symm hne), hq]
  have hgranted := issued_request hp request
  have hgranted' := issued_request hq request'
  refine ⟨?_, ?_, ?_, fun x => ?_, fun phase => ?_, ?_, ?_⟩
  · rw [fst_request hp', fst_request hp, hgranted']
    cases h : r'.defers q request' <;> simp [hdefers, h]
  · rw [fst_request hq', fst_request hq, hgranted]
    cases h : r'.defers q request' <;> simp [hdefers, h]
  · simp only [expected_request]
  · simp only [records_request]
    -- the record of whoever is granted does not show which ticket comes next
    have hown : r.ask p (c.request q request').2.issued request = r.ask p c.issued request := by
      rw [hgranted']
      cases h : r'.defers q request' <;> simp [Record.ask, hdefers, h]
    have hother : r'.ask q (c.request p request).2.issued request' =
        r'.ask q c.issued request' := by
      rw [hgranted]
      cases h : r'.defers q request' <;> simp [Record.ask, hdefers, h]
    by_cases hx : x = p
    · simp [hx, hne, hp, hown]
    · by_cases hx' : x = q
      · simp [hx', Ne.symm hne, hq, hother]
      · simp [hx, hx']
  · simp only [barriers_request]
  · rw [issued_request hp', issued_request hq', hgranted, hgranted']
    cases h : r'.defers q request' <;> simp [hdefers, h]
  · simp only [answers_request]

end Requests

end Coordinator

/-! ## Two processes of a cluster -/

namespace Cluster

variable {s : Extent}

/-- **Another process asks a process** for permission at its broker. -/
def ask (c : Cluster s) (b : Fin s.brokers) (owner : ProcessId) (request : Stamp) :
    Reaction Unit × Cluster s :=
  c.request b fun coordinator => coordinator.request owner request

/-- **A process wants to enter**: its broker is within reach and holds its announced request. -/
structure Wants (c : Cluster s) (b : Fin s.brokers) (p : ProcessId) (r : Record) : Prop where
  record : (c.coordinator b).records[p]? = some r
  standing : r.standing = .requested
  reach : (c.brokers.get b).outage = none

/-- **How two processes come to terms that ask each other** with their requests, each at the broker
of the other one. -/
structure Settles (c : Cluster s) (b b' : Fin s.brokers) (request request' : Stamp) : Prop where
  /-- Exactly one of the requests precedes the other. -/
  precedes : request.precedes request' = !request'.precedes request
  /-- The request that precedes is granted at once, and the other one is parked. -/
  asked : (c.ask b' request'.process request).1 =
    if request.precedes request' then .answered (.ok ())
    else .parked ⟨.record request'.process, (c.coordinator b').issued⟩
  asked' : (c.ask b request.process request').1 =
    if request'.precedes request then .answered (.ok ())
    else .parked ⟨.record request.process, (c.coordinator b).issued⟩
  /-- Each comes to the same when the other one has come before. -/
  second : ((c.ask b request.process request').2.ask b' request'.process request).1 =
    (c.ask b' request'.process request).1
  second' : ((c.ask b' request'.process request).2.ask b request.process request').1 =
    (c.ask b request.process request').1
  /-- Nobody can tell afterwards in which order they came. -/
  alike : ∀ x,
    (((c.ask b' request'.process request).2.ask b request.process request').2.coordinator x).Alike
      (((c.ask b request.process request').2.ask b' request'.process request).2.coordinator x)

section Asking

variable {c : Cluster s} {b b' : Fin s.brokers} {p q : ProcessId} {r r' : Record}

theorem ask_eq (hreach : (c.brokers.get b).outage = none) (request : Stamp) :
    c.ask b p request = (((c.coordinator b).request p request).1,
      c.withCoordinator b ((c.coordinator b).request p request).2) := by
  rw [ask, request_eq, hreach]

/-- While a process wants to enter, it lets those pass whose request precedes its own. -/
theorem Wants.defers_eq (h : c.Wants b p r) (request : Stamp) :
    r.defers p request = !request.precedes ⟨r.announced, p⟩ := by
  rw [Record.defers, h.standing]

/-- **Two requests to two processes of a cluster arrive in either order**, at one broker or at
two. -/
theorem ask_swap (hp : c.Wants b p r) (hq : c.Wants b' q r') (hne : p ≠ q)
    {request request' : Stamp}
    (hdefers : r.defers p request = !r'.defers q request') :
    ((c.ask b' q request').2.ask b p request).1 = (c.ask b p request).1 ∧
      ((c.ask b p request).2.ask b' q request').1 = (c.ask b' q request').1 ∧
      ∀ x, (((c.ask b' q request').2.ask b p request).2.coordinator x).Alike
        (((c.ask b p request).2.ask b' q request').2.coordinator x) := by
  have hreach : ∀ k, ((c.withCoordinator b' k).brokers.get b).outage = none := fun k => by
    rw [(c.keeps_withCoordinator b' k).layout.outage, hp.reach]
  have hreach' : ∀ k, ((c.withCoordinator b k).brokers.get b').outage = none := fun k => by
    rw [(c.keeps_withCoordinator b k).layout.outage, hq.reach]
  simp only [ask_eq hp.reach, ask_eq hq.reach, ask_eq (hreach _), ask_eq (hreach' _),
    coordinator_withCoordinator]
  by_cases hb : b = b'
  · subst hb
    simp only [if_true]
    obtain ⟨hown, hother, halike⟩ := Coordinator.request_swap hp.record hq.record hne hdefers
    refine ⟨hown, hother, fun x => ?_⟩
    split
    · exact halike
    · exact .refl _
  · simp only [hb, Ne.symm hb, if_false, true_and]
    intro x
    by_cases hx : x = b
    · simp only [hx, hb, if_true, if_false]
      exact .refl _
    · simp only [hx, if_false]
      exact .refl _

/-- **Two processes that ask each other.** Of their requests exactly one precedes the other, and in
either order just this one is granted at once, while the other one is parked with the next ticket;
and nobody can tell afterwards in which order they came. -/
theorem ask_each_other (hp : c.Wants b p r) (hq : c.Wants b' q r') (hne : p ≠ q) :
    c.Settles b b' ⟨r.announced, p⟩ ⟨r'.announced, q⟩ := by
  have hprecedes : Stamp.precedes ⟨r.announced, p⟩ ⟨r'.announced, q⟩ =
      !Stamp.precedes ⟨r'.announced, q⟩ ⟨r.announced, p⟩ := by
    cases h : Stamp.precedes ⟨r'.announced, q⟩ ⟨r.announced, p⟩ with
    | true => exact Stamp.precedes_asymm h
    | false => exact Stamp.precedes_of_not (Ne.symm hne) h
  have hdefers : r.defers p ⟨r'.announced, q⟩ = !r'.defers q ⟨r.announced, p⟩ := by
    rw [hp.defers_eq, hq.defers_eq, hprecedes, Bool.not_not]
  obtain ⟨hown, hother, halike⟩ := ask_swap hp hq hne hdefers
  refine ⟨hprecedes, ?_, ?_, hother, hown, halike⟩
  · rw [ask_eq hq.reach, Coordinator.fst_request hq.record, hq.defers_eq]
    cases Stamp.precedes ⟨r.announced, p⟩ ⟨r'.announced, q⟩ <;> rfl
  · rw [ask_eq hp.reach, Coordinator.fst_request hp.record, hp.defers_eq]
    cases Stamp.precedes ⟨r'.announced, q⟩ ⟨r.announced, p⟩ <;> rfl

end Asking

end Cluster

/-! ## The order of arrival -/

/-- **The order in which requests arrive does not decide who goes first.** A batch of requests to a
process that does nothing itself comes to the same in every order, but for the clock, which ends
within the length of the batch of the latest time; and two processes that both want to enter and ask
each other with their latest requests come to terms in the same way, whoever asks first. -/
theorem order_of_arrival {s : Extent} :
    (∀ (c : Coordinator) (p : ProcessId) (r : Record) (events events' : List Coordinator.Event),
      c.Orderly → c.records[p]? = some r → (∀ e ∈ events, e.isAside p = true) →
      (∀ e ∈ events', e.isAside p = true) →
      (Coordinator.batch p events).Perm (Coordinator.batch p events') →
        c.InAnyOrder p r events events') ∧
    ∀ (c : Cluster s) (b b' : Fin s.brokers) (p q : ProcessId) (r r' : Record),
      c.Wants b p r → c.Wants b' q r' → p ≠ q →
        c.Settles b b' ⟨r.announced, p⟩ ⟨r'.announced, q⟩ :=
  ⟨fun _ _ _ _ _ h hr haside haside' hperm =>
      Coordinator.received_in_any_order h hr haside haside' hperm,
    fun _ _ _ _ _ _ _ hp hq hne => Cluster.ask_each_other hp hq hne⟩

/-- A coordinator where one process wants to enter, since the time two. -/
def Coordinator.wanting (p : ProcessId) : Coordinator :=
  (new 2).run [.call 0 (.subscribe p), .call 0 (.announce p)]

/-- Three processes ask a process that wants to enter. Two of them have the time of its own request;
of these the smaller one goes first. -/
def Coordinator.asking : List Event :=
  [.call 0 (.request "P1" ⟨2, "P2"⟩), .call 0 (.request "P1" ⟨9, "P3"⟩),
    .call 0 (.request "P1" ⟨2, "P0"⟩)]

/-- Two brokers, each with a process that wants to enter since the same time. -/
def Cluster.rivals : Cluster ⟨2, 0, 0⟩ :=
  ⟨#v[⟨"A", .wanting "P1", none⟩, ⟨"B", .wanting "P2", none⟩], #v[], #v[], 0, .empty⟩

/-- The caller of the process that asked with a late time hangs up before the process leaves, which
wakes just the other one that was parked. Of the two processes with the same time the smaller one
is granted at once, also if it asks second. -/
theorem order_of_arrival_tied :
    (Coordinator.wanting "P1").InAnyOrder "P1" ⟨⟨2⟩, .requested, 2, []⟩ Coordinator.asking
      Coordinator.asking.reverse ∧
    Coordinator.granted "P1" (.wanting "P1") Coordinator.asking = [⟨2, "P0"⟩] ∧
    ((((Coordinator.wanting "P1").run Coordinator.asking).run
      [.call 0 (.enter "P1"), .hangUp ⟨.record "P1", 1⟩]).leave "P1").2.outcome?
        ⟨.record "P1", 0⟩ = some (.ok ()) ∧
    Cluster.rivals.Settles 0 1 ⟨2, "P1"⟩ ⟨2, "P2"⟩ ∧
    ((Cluster.rivals.ask 0 "P1" ⟨2, "P2"⟩).2.ask 1 "P2" ⟨2, "P1"⟩).1 = .answered (.ok ()) := by
  have horderly : (Coordinator.wanting "P1").Orderly := (Coordinator.orderly_new 2).run _
  have hp : Cluster.rivals.Wants 0 "P1" ⟨⟨2⟩, .requested, 2, []⟩ :=
    ⟨by decide +kernel, rfl, rfl⟩
  have hq : Cluster.rivals.Wants 1 "P2" ⟨⟨2⟩, .requested, 2, []⟩ :=
    ⟨by decide +kernel, rfl, rfl⟩
  obtain ⟨hbatch, hpair⟩ := @order_of_arrival ⟨2, 0, 0⟩
  have hr : (Coordinator.wanting "P1").records["P1"]? = some ⟨⟨2⟩, .requested, 2, []⟩ := by
    decide +kernel
  have hany := hbatch (.wanting "P1") "P1" ⟨⟨2⟩, .requested, 2, []⟩ Coordinator.asking
    Coordinator.asking.reverse horderly hr (by decide) (by decide) (by decide)
  have hsettles := hpair Cluster.rivals 0 1 "P1" "P2" _ _ hp hq (by decide)
  have hparked : Coordinator.Arrival.mk ⟨2, "P2"⟩ (.parked ⟨.record "P1", 0⟩)
      Coordinator.asking.tail ∈ Coordinator.arrivals "P1" (.wanting "P1") Coordinator.asking := by
    rw [Coordinator.asking, Coordinator.arrivals, Coordinator.arrival?_eq hr]
    exact List.mem_append_left _ (List.mem_singleton.mpr rfl)
  have hwoken := hany.woken [.call 0 (.enter "P1"), .hangUp ⟨.record "P1", 1⟩] (by decide)
    (by decide +kernel) _ hparked _ rfl
  refine ⟨hany, by decide +kernel, ?_, hsettles, ?_⟩
  · exact (hwoken.1 (by simp [Coordinator.asking])).2
  · rw [hsettles.second, hsettles.asked, if_pos (by decide)]

end CriticalSection
