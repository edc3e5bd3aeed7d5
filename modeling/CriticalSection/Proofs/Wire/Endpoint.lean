import CriticalSection.Coordinator.Session
import CriticalSection.Wire.Endpoint
import CriticalSection.Proofs.Wire.Message

/-!
# Calls over a connection

A call over a connection that delivers all lines intact comes to what the same call on the
coordinator itself comes to, at the same moments and with the same effect. All values arrive as they
were, and of the errors the one that names an unknown process; of the others their text arrives.
-/

set_option autoImplicit false

namespace CriticalSection

/-! ## What comes of an operation -/

/-- **What can come of a call to a coordinator**: a value that is asked for, an unknown process, a
wait that was interrupted, or a computation that left its range. -/
inductive Reports {α : Type} (asked : α → Prop) : Outcome α → Prop
  | value {v : α} (h : asked v) : Reports asked (.ok v)
  | unknown (p : ProcessId) : Reports asked (fail (.nodeNotFound p))
  | interrupted (wait : String) : Reports asked (fail (.interrupted wait))
  | overflow : Reports asked overflowed

theorem Reports.map {α β : Type} {asked : α → Prop} {wanted : β → Prop}
    {outcome : Outcome α} {f : α → β} (h : Reports asked outcome)
    (hf : ∀ v, asked v → wanted (f v)) : Reports wanted (outcome.map f) := by
  cases h with
  | value hv => exact .value (hf _ hv)
  | unknown p => exact .unknown p
  | interrupted wait => exact .interrupted wait
  | overflow => exact .overflow

namespace Coordinator

theorem reports_tick (clock : Clock) : Reports (fun _ => True) clock.tick.1 := by
  unfold Clock.tick
  split
  · exact .overflow
  · exact .value trivial

theorem reports_announce (c : Coordinator) (p : ProcessId) :
    Reports (fun _ => True) (c.announce p).1 := by
  unfold announce
  split
  · exact .unknown p
  · next r _ =>
      have hannounce : r.announce.1 = r.clock.tick.1 := by
        unfold Record.announce
        rcases r.clock.tick with ⟨_ | _, _⟩ <;> rfl
      exact hannounce ▸ reports_tick r.clock

theorem reports_enter (c : Coordinator) (p : ProcessId) :
    Reports (fun _ => True) (c.enter p).1 := by
  unfold enter
  split
  · exact .unknown p
  · exact .value trivial

theorem reports_leave (c : Coordinator) (p : ProcessId) :
    Reports (fun _ => True) (c.leave p).1 := by
  cases hr : c.records[p]? with
  | none => simpa only [leave, hr] using .unknown p
  | some r =>
      have hleave : (c.leave p).1 = r.clock.tick.1.map fun _ => () := by
        simp only [leave, hr, Record.leave]
        rcases r.clock.tick with ⟨_ | _, _⟩ <;> rfl
      exact hleave ▸ (reports_tick r.clock).map fun _ _ => trivial

theorem reports_request {c : Coordinator} {owner : ProcessId} {request : Stamp}
    {outcome : Outcome Unit} (h : (c.request owner request).1 = .answered outcome) :
    Reports (fun _ => True) outcome := by
  unfold Coordinator.request at h
  split at h
  · obtain rfl := Reaction.answered.inj h
    exact .unknown owner
  · split_ifs at h
    obtain rfl := Reaction.answered.inj h
    exact .value trivial

theorem reports_rendezvous {c : Coordinator} {phase : Phase} {owner caller : ProcessId}
    {outcome : Outcome Unit} (h : (c.rendezvous phase owner caller).1 = .answered outcome) :
    Reports (fun _ => True) outcome := by
  simp only [rendezvous] at h
  split_ifs at h
  obtain rfl := Reaction.answered.inj h
  exact .value trivial

theorem reports_outcome? {c : Coordinator} {ticket : Ticket} {outcome : Outcome Unit}
    (h : c.outcome? ticket = some outcome) : Reports (fun _ => True) outcome := by
  unfold outcome? at h
  split at h
  · cases h
  · obtain rfl := Option.some.inj h
    exact .value trivial
  · obtain rfl := Option.some.inj h
    exact .interrupted _

/-- What comes of a call that gives nothing but its end, now or when its wait has ended. -/
theorem reports_done {asked : Value → Prop} (hasked : asked .done) {d : Coordinator}
    {reaction : Reaction Unit}
    (hnow : ∀ {outcome}, reaction = .answered outcome → Reports (fun _ => True) outcome)
    {outcome : Outcome Value}
    (h : d.progress (reaction.map fun _ => .done) = some outcome) : Reports asked outcome := by
  cases reaction with
  | answered answer =>
      obtain rfl := Option.some.inj h
      exact (hnow rfl).map fun _ _ => hasked
  | parked ticket =>
      obtain ⟨answer, hanswer, rfl⟩ := Option.map_eq_some_iff.mp h
      exact (reports_outcome? hanswer).map fun _ _ => hasked

/-- **What comes of an operation**, now or when its wait has ended: values are of the kind the
operation gives. -/
theorem reports_of_progress {c d : Coordinator} {now : Int64} {operation : Operation}
    {outcome : Outcome Value} (h : d.progress (c.perform now operation).1 = some outcome) :
    Reports (fun v => operation.gives v = true) outcome := by
  cases operation with
  | subscribe p =>
      obtain rfl := Option.some.inj h
      exact .value rfl
  | listSubscribed =>
      obtain rfl := Option.some.inj h
      exact .value rfl
  | announce p =>
      obtain rfl := Option.some.inj h
      exact (c.reports_announce p).map fun _ _ => rfl
  | request owner request => exact reports_done (by rfl) reports_request h
  | enter p =>
      obtain rfl := Option.some.inj h
      exact (c.reports_enter p).map fun _ _ => rfl
  | leave p =>
      obtain rfl := Option.some.inj h
      exact (c.reports_leave p).map fun _ _ => rfl
  | ready owner caller => exact reports_done (by rfl) reports_rendezvous h
  | finished owner caller => exact reports_done (by rfl) reports_rendezvous h
  | restart expected =>
      obtain rfl := Option.some.inj h
      exact .value rfl
  | health =>
      obtain rfl := Option.some.inj h
      exact .value rfl
  | readClock =>
      obtain rfl := Option.some.inj h
      exact .value rfl

end Coordinator

/-! ## What its caller sees -/

namespace Endpoint

/-- What has become of a call over a connection, seen from its caller: its outcome, if the wait
has ended or there was none. -/
def progress (e : Endpoint) (operation : Operation) (c : Coordinator) :
    Reaction Value → Option (Outcome Value)
  | .answered outcome => some outcome
  | .parked ticket => (c.outcome? ticket).map (e.conclude operation)

/-- **An outcome as it arrives.** A computation that left its range sends nothing. -/
def arrives (e : Endpoint) : Outcome Value → Outcome Value
  | .ok value => .ok value
  | .error (.error (.nodeNotFound p)) => fail (.nodeNotFound p)
  | .error (.error cause) => fail (.remote cause.message)
  | .error .overflow => fail (e.unreachable .unexpectedEof)

/-- **A reply is received** as what it tells of. -/
theorem receive_replyLine (e : Endpoint) (operation : Operation) (reply : Reply) :
    e.receive operation (.answered (Wire.replyLine reply).toUTF8) = operation.receive reply := by
  have hne : (Wire.replyLine reply).toUTF8.isEmpty = false := by
    have hline : Wire.replyLine reply ≠ "" := by simp [Wire.replyLine, Wire.encode]
    have hsize : (Wire.replyLine reply).utf8ByteSize ≠ 0 :=
      mt String.utf8ByteSize_eq_zero_iff.mp hline
    exact beq_false_of_ne hsize
  rw [receive, hne, Text.fromUTF8?_toUTF8]
  simp [Wire.readReply_replyLine]

/-- **An outcome is received** as it arrives, if a value is of the kind the operation gives. -/
theorem receive_delivery (e : Endpoint) {operation : Operation} {outcome : Outcome Value}
    (h : Reports (fun v => operation.gives v = true) outcome) :
    e.receive operation (delivery outcome) = e.arrives outcome := by
  cases h with
  | value hv =>
      rw [delivery, Reply.ofOutcome, receive_replyLine]
      simp [Operation.receive, Reply.outcome, hv, arrives]
  | unknown p =>
      exact receive_replyLine e operation (.nodeNotFound p)
  | interrupted wait =>
      exact receive_replyLine e operation (.failed _)
  | overflow => rfl

theorem call_of_answered (e : Endpoint) {operation : Operation} {now : Int64}
    {c after : Coordinator} {outcome : Outcome Value}
    (h : c.perform now operation = (.answered outcome, after)) :
    e.call operation now c = (.answered (e.receive operation (delivery outcome)), after) := by
  simp only [call, Wire.readOperation_operationLine, h]

theorem call_of_parked (e : Endpoint) {operation : Operation} {now : Int64}
    {c after : Coordinator} {ticket : Ticket}
    (h : c.perform now operation = (.parked ticket, after)) :
    e.call operation now c = (.parked ticket, after) := by
  simp only [call, Wire.readOperation_operationLine, h]

/-- **A call over a connection has the effect of the call itself.** -/
theorem snd_call (e : Endpoint) (operation : Operation) (now : Int64) (c : Coordinator) :
    (e.call operation now c).2 = (c.perform now operation).2 := by
  rcases h : c.perform now operation with ⟨outcome | ticket, after⟩
  · rw [e.call_of_answered h]
  · rw [e.call_of_parked h]

/-- **A call over a connection comes to what the call itself comes to**, at the same moment. -/
theorem progress_call (e : Endpoint) (operation : Operation) (now : Int64) (c d : Coordinator) :
    e.progress operation d (e.call operation now c).1 =
      (d.progress (c.perform now operation).1).map e.arrives := by
  have hreceive : ∀ {outcome}, d.progress (c.perform now operation).1 = some outcome →
      e.receive operation (delivery outcome) = e.arrives outcome :=
    fun h => e.receive_delivery (Coordinator.reports_of_progress h)
  rcases h : c.perform now operation with ⟨outcome | ticket, after⟩
  · rw [h] at hreceive
    rw [e.call_of_answered h]
    exact congrArg some (hreceive rfl)
  · rw [h] at hreceive
    rw [e.call_of_parked h]
    cases hanswer : d.outcome? ticket with
    | none => simp only [progress, Coordinator.progress, hanswer, Option.map_none]
    | some answer =>
        have hconclude : e.conclude operation answer = e.arrives (answer.map fun _ => .done) :=
          hreceive (by simp only [Coordinator.progress, hanswer, Option.map_some])
        simp only [progress, Coordinator.progress, hanswer, Option.map_some, hconclude]

/-- What arrives does not speak of a reply that was not expected. -/
theorem arrives_ne_unexpected (e : Endpoint) {asked : Value → Prop} {outcome : Outcome Value}
    (h : Reports asked outcome) (text : String) :
    e.arrives outcome ≠ fail (.remote ("unexpected reply " ++ text)) := by
  cases h with
  | value hv => simp [arrives, fail]
  | unknown p => simp [arrives, fail]
  | interrupted wait =>
      intro heq
      have harrives : e.arrives (fail (.interrupted wait)) =
          fail (.remote ("interrupted while waiting in " ++ wait)) := rfl
      rw [harrives] at heq
      simp only [fail, Except.error.injEq, Fault.error.injEq, Error.remote.injEq] at heq
      have hhead := congrArg (fun s => s.toList.head?) heq
      simp at hhead
  | overflow => simp [arrives, overflowed, fail, unreachable]

/-- **A call over a connection agrees with the call itself.** It leaves the coordinator in the
same state. In every state in which the coordinator may be later, it has come to an end exactly if
the call itself has, and then with the outcome of that call as it arrives; in particular no reply
is unexpected. -/
theorem call_agrees (e : Endpoint) (operation : Operation) (now : Int64) (c : Coordinator) :
    (e.call operation now c).2 = (c.perform now operation).2 ∧
      ∀ d : Coordinator,
        e.progress operation d (e.call operation now c).1 =
            (d.progress (c.perform now operation).1).map e.arrives ∧
          ∀ text, e.progress operation d (e.call operation now c).1 ≠
            some (fail (.remote ("unexpected reply " ++ text))) := by
  refine ⟨e.snd_call operation now c,
    fun d => ⟨e.progress_call operation now c d, fun text h => ?_⟩⟩
  rw [e.progress_call operation now c d] at h
  obtain ⟨outcome, hprogress, harrives⟩ := Option.map_eq_some_iff.mp h
  exact e.arrives_ne_unexpected (Coordinator.reports_of_progress hprogress) text harrives

end Endpoint

end CriticalSection
