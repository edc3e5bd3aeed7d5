import CriticalSection.Wire.Connection
import CriticalSection.Proofs.Wire.Message

/-!
# Connections among their events

Lines arrive at a connection at any time, while the coordinator's side reads, performs and answers
and others call the same coordinator. Here is everything that can happen, and what a single move of
the coordinator's side can be (`Service.Turn`): a line is put aside, passed over, refused or taken
up, and its operation is answered, parked or given up.
-/

set_option autoImplicit false

namespace CriticalSection

/-! ## Services -/

/-- **What is done for the caller** of a connection: an operation is performed, or a line is sent
back. -/
inductive Note
  | performed (operation : Operation) (reaction : Reaction Value)
  | sent (line : String)

/-- The line that is sent back, if one is. -/
def Note.line? : Note → Option String
  | .performed .. => none
  | .sent line => some line

/-- What has come to a connection and was not taken up yet, in the order in which it came. -/
def Connection.queue (x : Connection) : List Incoming :=
  x.aside.toList.map .line ++ x.arrived

/-- A connection at a coordinator, everything that has arrived there, and everything that was done
for the caller. -/
structure Service where
  connection : Connection
  coordinator : Coordinator
  arrivals : List Incoming
  notes : List Note

namespace Service

/-- **What happens** at a connection and around it. -/
inductive Event
  /-- Something arrives, unless the caller has hung up. -/
  | arrive (incoming : Incoming)
  /-- The caller hangs up. -/
  | close
  /-- The coordinator's side makes a move, if it can. -/
  | move (watching : Bool) (now : Int64)
  /-- Somebody else performs an operation. -/
  | perform (now : Int64) (operation : Operation)
  /-- Somebody else, who holds a ticket, hangs up. -/
  | hangUp (ticket : Ticket)
  deriving DecidableEq

/-- A connection that was just opened, at a coordinator that hosts nobody. -/
def new (expected : UInt64) : Service := ⟨.new, .new expected, [], []⟩

/-- What a move does for the caller when it leaves a connection. -/
def noted (s : Service) (watching : Bool) (now : Int64) (x : Connection) : List Note :=
  (match s.connection.work, watching with
    | .ready operation, false => [.performed operation (s.coordinator.perform now operation).1]
    | _, _ => []) ++
  (x.sent.drop s.connection.sent.length).map .sent

/-- **What an event makes of a service.** -/
def after (s : Service) : Event → Service
  | .arrive incoming =>
    if s.connection.closed then s
    else { s with
      connection := s.connection.arrive incoming, arrivals := s.arrivals ++ [incoming] }
  | .close => { s with connection := s.connection.close }
  | .move watching now =>
    match s.connection.step watching now s.coordinator with
    | none => s
    | some (x, c) =>
      { s with connection := x, coordinator := c, notes := s.notes ++ s.noted watching now x }
  | .perform now operation => { s with coordinator := (s.coordinator.perform now operation).2 }
  | .hangUp ticket =>
    if s.connection.work = .parked ticket then s
    else { s with coordinator := s.coordinator.hangUp ticket }

/-- A service after a number of events. -/
def run (s : Service) (events : List Event) : Service := events.foldl after s

/-- **Nothing moves** until somebody else does something. -/
def Stuck (s : Service) : Prop :=
  ∀ watching now, s.connection.step watching now s.coordinator = none

end Service

/-- A line of nothing but blanks, which needs no reply. -/
def Wire.Blank (line : String) : Prop := (Text.trim line.toList).isEmpty = true

instance (line : String) : Decidable (Wire.Blank line) := inferInstanceAs (Decidable (_ = _))

/-! ## One move -/

namespace Wire

/-- A line is an operation or it is not well formed. -/
theorem readOperation_cases (line : String) :
    (∃ operation, readOperation line = .ok operation) ∨
      ∃ reason, readOperation line = fail (.codec reason) := by
  unfold readOperation decode
  split
  · exact .inr ⟨_, rfl⟩
  · split
    · split
      · exact .inl ⟨_, rfl⟩
      · exact .inr ⟨_, rfl⟩
    · exact .inr ⟨_, rfl⟩

end Wire

/-- A reply tells of every outcome that did not leave its range. -/
theorem Reply.ofOutcome_cases (outcome : Outcome Value) :
    (∃ reply, Reply.ofOutcome outcome = .ok reply) ∨ outcome = overflowed := by
  rcases outcome with (cause | _) | value
  · exact .inl ⟨_, rfl⟩
  · exact .inr rfl
  · exact .inl ⟨_, rfl⟩

namespace Connection

/-- **Something is read** from a connection, and nothing else changes. -/
structure Read (x : Connection) (read : List Incoming) (y : Connection) : Prop where
  queue : x.queue = read ++ y.queue
  work : y.work = x.work
  closed : y.closed = x.closed
  sent : y.sent = x.sent

theorem Read.refl (x : Connection) : x.Read [] x := ⟨rfl, rfl, rfl, rfl⟩

theorem takeUp_of_blank (x : Connection) {line : String} (hblank : Wire.Blank line) :
    x.takeUp line = x := if_pos hblank

theorem takeUp_of_operation (x : Connection) {line : String} {operation : Operation}
    (hline : ¬ Wire.Blank line) (hread : Wire.readOperation line = .ok operation) :
    x.takeUp line = { x with work := .ready operation } := by
  refine (if_neg hline).trans ?_
  rw [hread]

theorem takeUp_of_refused (x : Connection) {line reason : String} (hline : ¬ Wire.Blank line)
    (hread : Wire.readOperation line = fail (.codec reason)) :
    x.takeUp line = x.reply (.failed (Error.codec reason).message) := by
  refine (if_neg hline).trans ?_
  rw [hread]
  rfl

theorem answer_of_reply (x : Connection) {outcome : Outcome Value} {reply : Reply}
    (h : Reply.ofOutcome outcome = .ok reply) : x.answer outcome = x.reply reply := by
  unfold answer
  rw [h]

theorem answer_overflowed (x : Connection) : x.answer overflowed = { x with work := .ended } := rfl

end Connection

namespace Service

variable {s : Service}

/-- **What a move can be.** -/
inductive Turn (s : Service) : Service → Prop
  /-- No move is possible, or a line is put aside. -/
  | rest {y : Connection} (hread : s.connection.Read [] y) : Turn s { s with connection := y }
  | blank {y : Connection} {line : String} (hidle : s.connection.work = .idle)
      (hread : s.connection.Read [.line line] y) (hblank : Wire.Blank line) :
      Turn s { s with connection := y }
  | refused {y : Connection} {line reason : String} (hidle : s.connection.work = .idle)
      (hread : s.connection.Read [.line line] y) (hline : ¬ Wire.Blank line)
      (hdecode : Wire.readOperation line = fail (.codec reason)) :
      Turn s { s with
        connection := y.reply (.failed (Error.codec reason).message)
        notes := s.notes ++ [.sent (Wire.replyLine (.failed (Error.codec reason).message))] }
  | taken {y : Connection} {line : String} {operation : Operation}
      (hidle : s.connection.work = .idle) (hread : s.connection.Read [.line line] y)
      (hline : ¬ Wire.Blank line) (hdecode : Wire.readOperation line = .ok operation) :
      Turn s { s with connection := { y with work := .ready operation } }
  | answered {operation : Operation} {now : Int64} {outcome : Outcome Value} {reply : Reply}
      (hready : s.connection.work = .ready operation)
      (hperform : (s.coordinator.perform now operation).1 = .answered outcome)
      (hreply : Reply.ofOutcome outcome = .ok reply) :
      Turn s { s with
        connection := s.connection.reply reply
        coordinator := (s.coordinator.perform now operation).2
        notes := s.notes ++
          [.performed operation (.answered outcome), .sent (Wire.replyLine reply)] }
  | overflowed {operation : Operation} {now : Int64}
      (hready : s.connection.work = .ready operation)
      (hperform : (s.coordinator.perform now operation).1 = .answered overflowed) :
      Turn s { s with
        connection := { s.connection with work := .ended }
        coordinator := (s.coordinator.perform now operation).2
        notes := s.notes ++ [.performed operation (.answered overflowed)] }
  | parked {operation : Operation} {now : Int64} {t : Ticket}
      (hready : s.connection.work = .ready operation)
      (hperform : (s.coordinator.perform now operation).1 = .parked t) :
      Turn s { s with
        connection := { s.connection with work := .parked t }
        coordinator := (s.coordinator.perform now operation).2
        notes := s.notes ++ [.performed operation (.parked t)] }
  | resumed {t : Ticket} {outcome : Outcome Unit} {reply : Reply}
      (hparked : s.connection.work = .parked t)
      (houtcome : s.coordinator.outcome? t = some outcome)
      (hreply : Reply.ofOutcome (outcome.map fun _ => .done) = .ok reply) :
      Turn s { s with
        connection := s.connection.reply reply
        notes := s.notes ++ [.sent (Wire.replyLine reply)] }
  /-- The caller has hung up, or has sent what is no text. -/
  | gaveUp {y : Connection} {read : List Incoming} (hread : s.connection.Read read y)
      (hgone : read = [] ∧ s.connection.closed = true ∨ read = [.garbage])
      (hrunning : s.connection.work ≠ .ended) :
      Turn s { s with
        connection := (y.giveUp s.coordinator).1
        coordinator := (y.giveUp s.coordinator).2 }

/-- What is added to what was sent. -/
theorem map_sent_drop {x y : Connection} {lines : List String} (h : y.sent = x.sent ++ lines) :
    (y.sent.drop x.sent.length).map Note.sent = lines.map Note.sent := by
  rw [h, List.drop_left]

theorem map_sent_drop_of_eq {x y : Connection} (h : y.sent = x.sent) :
    (y.sent.drop x.sent.length).map Note.sent = [] := by
  rw [h, List.drop_length, List.map_nil]

/-- A line is taken up. -/
theorem turn_takeUp {y : Connection} {line : String} (hidle : s.connection.work = .idle)
    (hread : s.connection.Read [.line line] y) :
    Turn s { s with
      connection := y.takeUp line
      notes := s.notes ++ ((y.takeUp line).sent.drop s.connection.sent.length).map .sent } := by
  by_cases hblank : Wire.Blank line
  · rw [Connection.takeUp_of_blank y hblank, map_sent_drop_of_eq hread.sent, List.append_nil]
    exact .blank hidle hread hblank
  · obtain ⟨operation, hdecode⟩ | ⟨reason, hdecode⟩ := Wire.readOperation_cases line
    · have htaken := Connection.takeUp_of_operation y hblank hdecode
      have hsent : (y.takeUp line).sent = s.connection.sent := by
        rw [htaken]
        exact hread.sent
      rw [map_sent_drop_of_eq hsent, List.append_nil, htaken]
      exact .taken hidle hread hblank hdecode
    · have hrefused := Connection.takeUp_of_refused y hblank hdecode
      have hsent : (y.takeUp line).sent = s.connection.sent ++
          [Wire.replyLine (.failed (Error.codec reason).message)] := by
        rw [hrefused, Connection.reply, hread.sent]
      rw [map_sent_drop hsent, hrefused]
      exact .refused hidle hread hblank hdecode

/-- Reading between two operations. -/
theorem turn_next {z : Connection} (hidle : s.connection.work = .idle)
    (hnext : s.connection.next = some z) :
    Turn s { s with
      connection := z, notes := s.notes ++ (z.sent.drop s.connection.sent.length).map .sent } := by
  -- Nothing more is read after the end, be it one that was sent or one that was not.
  have hend : ∀ {y : Connection} {read : List Incoming}, s.connection.Read read y →
      (read = [] ∧ s.connection.closed = true ∨ read = [.garbage]) →
      Turn s { s with
        connection := { y with work := .ended }
        notes := s.notes ++ (y.sent.drop s.connection.sent.length).map .sent } := by
    intro y read hread hgone
    have hwork : y.work = .idle := hread.work.trans hidle
    have hgiveUp : y.giveUp s.coordinator = ({ y with work := .ended }, s.coordinator) := by
      unfold Connection.giveUp
      rw [hwork]
    have hturn := Turn.gaveUp hread hgone (by rw [hidle]; exact Work.noConfusion)
    rw [hgiveUp] at hturn
    rw [map_sent_drop_of_eq hread.sent, List.append_nil]
    exact hturn
  unfold Connection.next at hnext
  split at hnext
  · next arrived text haside =>
      obtain rfl := Option.some.inj hnext
      refine turn_takeUp hidle ⟨?_, rfl, rfl, rfl⟩
      simp [Connection.queue, haside]
  · next text rest haside harrived =>
      obtain rfl := Option.some.inj hnext
      refine turn_takeUp hidle ⟨?_, rfl, rfl, rfl⟩
      simp [Connection.queue, haside, harrived]
  · next rest haside harrived =>
      obtain rfl := Option.some.inj hnext
      have hread : s.connection.Read [.garbage] { s.connection with arrived := rest } :=
        ⟨by simp [Connection.queue, haside, harrived], rfl, rfl, rfl⟩
      exact hend hread (.inr rfl)
  · split at hnext
    · next hclosed =>
        obtain rfl := Option.some.inj hnext
        exact hend (Connection.Read.refl _) (.inl ⟨rfl, hclosed⟩)
    · cases hnext

/-- Reading while an operation runs. -/
theorem turn_watch {z : Connection} {c : Coordinator} (hrunning : s.connection.work ≠ .ended)
    (hwatch : s.connection.watch s.coordinator = some (z, c)) :
    Turn s { s with
      connection := z
      coordinator := c
      notes := s.notes ++ (z.sent.drop s.connection.sent.length).map .sent } := by
  unfold Connection.watch at hwatch
  split at hwatch
  · cases hwatch
  · next text rest haside harrived =>
      obtain ⟨rfl, rfl⟩ := Prod.mk.inj (Option.some.inj hwatch)
      rw [map_sent_drop_of_eq rfl, List.append_nil]
      exact .rest ⟨by simp [Connection.queue, haside, harrived], rfl, rfl, rfl⟩
  · next rest haside harrived =>
      obtain ⟨rfl, rfl⟩ := Prod.mk.inj (Option.some.inj hwatch)
      have hread : s.connection.Read [.garbage] { s.connection with arrived := rest } :=
        ⟨by simp [Connection.queue, haside, harrived], rfl, rfl, rfl⟩
      rw [map_sent_drop_of_eq rfl, List.append_nil]
      exact .gaveUp hread (.inr rfl) hrunning
  · split at hwatch
    · next hclosed =>
        obtain ⟨rfl, rfl⟩ := Prod.mk.inj (Option.some.inj hwatch)
        rw [map_sent_drop_of_eq rfl, List.append_nil]
        exact .gaveUp (Connection.Read.refl _) (.inl ⟨rfl, hclosed⟩) hrunning
    · cases hwatch

/-- An operation is performed. -/
theorem turn_perform {operation : Operation} (hready : s.connection.work = .ready operation)
    (now : Int64) {z : Connection} {c : Coordinator}
    (hproceed : s.connection.proceed now s.coordinator = some (z, c)) :
    Turn s { s with
      connection := z
      coordinator := c
      notes := s.notes ++ ([.performed operation (s.coordinator.perform now operation).1] ++
        (z.sent.drop s.connection.sent.length).map .sent) } := by
  unfold Connection.proceed at hproceed
  rw [hready] at hproceed
  dsimp only at hproceed
  split at hproceed
  · next outcome c' hperform =>
      obtain ⟨rfl, rfl⟩ := Prod.mk.inj (Option.some.inj hproceed)
      obtain rfl : c' = (s.coordinator.perform now operation).2 := by rw [hperform]
      have hreaction : (s.coordinator.perform now operation).1 = .answered outcome := by
        rw [hperform]
      rw [hreaction]
      obtain ⟨reply, hreply⟩ | rfl := Reply.ofOutcome_cases outcome
      · rw [Connection.answer_of_reply _ hreply, map_sent_drop rfl]
        exact .answered hready hreaction hreply
      · rw [Connection.answer_overflowed, map_sent_drop_of_eq rfl]
        exact .overflowed hready hreaction
  · next t c' hperform =>
      obtain ⟨rfl, rfl⟩ := Prod.mk.inj (Option.some.inj hproceed)
      obtain rfl : c' = (s.coordinator.perform now operation).2 := by rw [hperform]
      have hreaction : (s.coordinator.perform now operation).1 = .parked t := by rw [hperform]
      rw [hreaction, map_sent_drop_of_eq rfl]
      exact .parked hready hreaction

/-- A wait has come to its end, which is never out of range. -/
theorem exists_reply_of_outcome? {c : Coordinator} {t : Ticket} {outcome : Outcome Unit}
    (h : c.outcome? t = some outcome) :
    ∃ reply, Reply.ofOutcome (outcome.map fun _ => Value.done) = .ok reply := by
  unfold Coordinator.outcome? at h
  split at h
  · cases h
  · obtain rfl := Option.some.inj h
    exact ⟨_, rfl⟩
  · obtain rfl := Option.some.inj h
    exact ⟨_, rfl⟩

theorem turn_resume {t : Ticket} (hparked : s.connection.work = .parked t) {now : Int64}
    {z : Connection} {c : Coordinator}
    (hproceed : s.connection.proceed now s.coordinator = some (z, c)) :
    Turn s { s with
      connection := z
      coordinator := c
      notes := s.notes ++ (z.sent.drop s.connection.sent.length).map .sent } := by
  unfold Connection.proceed at hproceed
  rw [hparked] at hproceed
  obtain ⟨outcome, houtcome, hanswer⟩ := Option.map_eq_some_iff.mp hproceed
  obtain ⟨rfl, rfl⟩ := Prod.mk.inj hanswer
  obtain ⟨reply, hreply⟩ := exists_reply_of_outcome? houtcome
  rw [Connection.answer_of_reply _ hreply, map_sent_drop rfl]
  exact .resumed hparked houtcome hreply

/-- **Every move is one of these.** -/
theorem turn_move (s : Service) (watching : Bool) (now : Int64) :
    Turn s (s.after (.move watching now)) := by
  have hrest : Turn s s := .rest (Connection.Read.refl _)
  show Turn s (match s.connection.step watching now s.coordinator with
    | none => s
    | some (x, c) =>
      { s with connection := x, coordinator := c, notes := s.notes ++ s.noted watching now x })
  unfold noted
  cases hstep : s.connection.step watching now s.coordinator with
  | none => exact hrest
  | some result =>
      obtain ⟨x, c⟩ := result
      unfold Connection.step at hstep
      cases hwork : s.connection.work with
      | ended =>
          rw [hwork] at hstep
          cases hstep
      | idle =>
          rw [hwork] at hstep
          obtain ⟨z, hnext, hmove⟩ := Option.map_eq_some_iff.mp hstep
          obtain ⟨rfl, rfl⟩ := Prod.mk.inj hmove
          exact turn_next hwork hnext
      | ready operation =>
          rw [hwork] at hstep
          have hrunning : s.connection.work ≠ .ended := by rw [hwork]; exact Work.noConfusion
          cases watching with
          | true => exact turn_watch hrunning hstep
          | false => exact turn_perform hwork now hstep
      | parked t =>
          rw [hwork] at hstep
          have hrunning : s.connection.work ≠ .ended := by rw [hwork]; exact Work.noConfusion
          cases watching with
          | true => exact turn_watch hrunning hstep
          | false => exact turn_resume hwork hstep

/-- A move is nothing on the caller's side. -/
theorem Turn.caller {s' : Service} (h : Turn s s') :
    s'.arrivals = s.arrivals ∧ s'.connection.closed = s.connection.closed := by
  cases h with
  | rest hread => exact ⟨rfl, hread.closed⟩
  | blank hidle hread hblank => exact ⟨rfl, hread.closed⟩
  | refused hidle hread hline hdecode => exact ⟨rfl, hread.closed⟩
  | taken hidle hread hline hdecode => exact ⟨rfl, hread.closed⟩
  | answered hready hperform hreply => exact ⟨rfl, rfl⟩
  | overflowed hready hperform => exact ⟨rfl, rfl⟩
  | parked hready hperform => exact ⟨rfl, rfl⟩
  | resumed hparked houtcome hreply => exact ⟨rfl, rfl⟩
  | gaveUp hread hgone hrunning => exact ⟨rfl, hread.closed⟩

end Service

end CriticalSection
