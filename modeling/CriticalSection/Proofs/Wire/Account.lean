import CriticalSection.Proofs.Coordinator.Session
import CriticalSection.Proofs.Wire.Service

/-!
# The account of a connection

Whatever the order of events, the lines of a connection are served one by one: what has been done
for the caller so far falls into one episode for each line that is over (`Service.Served`), in the
order of the lines, and the beginning of one more (`Service.Stands`). Of the tickets that were given
out for the caller at most the last one still waits (`Service.Tidy`).
-/

set_option autoImplicit false

namespace CriticalSection.Service

open Wire (Blank)

variable {s : Service}

/-! ## Episodes -/

/-- **What was done for a line that is over**: nothing if it is blank, one reply if it is no
operation, and else the operation was performed and then one reply was sent, which tells the outcome
of that operation. -/
inductive Served (c : Coordinator) : String → List Note → Prop
  | blank {line : String} (hblank : Blank line) : Served c line []
  | refused {line reason : String} (hline : ¬ Blank line)
      (hread : Wire.readOperation line = fail (.codec reason)) :
      Served c line [.sent (Wire.replyLine (.failed (Error.codec reason).message))]
  | answered {line : String} {operation : Operation} {outcome : Outcome Value} {reply : Reply}
      (hline : ¬ Blank line) (hread : Wire.readOperation line = .ok operation)
      (hreply : Reply.ofOutcome outcome = .ok reply) :
      Served c line [.performed operation (.answered outcome), .sent (Wire.replyLine reply)]
  | waited {line : String} {operation : Operation} {t : Ticket} {outcome : Outcome Unit}
      {reply : Reply} (hline : ¬ Blank line) (hread : Wire.readOperation line = .ok operation)
      (houtcome : c.outcome? t = some outcome)
      (hreply : Reply.ofOutcome (outcome.map fun _ => .done) = .ok reply) :
      Served c line [.performed operation (.parked t), .sent (Wire.replyLine reply)]

/-- **Where a connection stands with the line it has taken up**, and what was done for it so far.
`gone` says that the caller has hung up or has sent what is no text: nothing else abandons a line,
but an operation that leaves its range. -/
inductive Stands (gone : Prop) : Work → Option String → List Note → Prop
  | idle : Stands gone .idle none []
  | ready {line : String} {operation : Operation} (hline : ¬ Blank line)
      (hread : Wire.readOperation line = .ok operation) :
      Stands gone (.ready operation) (some line) []
  | parked {line : String} {operation : Operation} {t : Ticket} (hline : ¬ Blank line)
      (hread : Wire.readOperation line = .ok operation) :
      Stands gone (.parked t) (some line) [.performed operation (.parked t)]
  | overflowed {line : String} {operation : Operation} (hline : ¬ Blank line)
      (hread : Wire.readOperation line = .ok operation) :
      Stands gone .ended (some line) [.performed operation (.answered overflowed)]
  | abandoned {work : Work} {current : Option String} {notes : List Note} (hgone : gone)
      (hstood : Stands gone work current notes) : Stands gone .ended current notes

/-! ## The account of a service -/

/-- Whether the caller has hung up or has sent what is no text. -/
def Gone (s : Service) : Prop := s.connection.closed = true ∨ .garbage ∈ s.arrivals

/-- **The account of a service**: the lines that are over, the line that was taken up, and what came
instead of a line, with what was done for each. -/
structure Account (s : Service) (served : List String) (current : Option String)
    (lost : List Incoming) (episodes : List (List Note)) (notes : List Note) : Prop where
  arrivals : s.arrivals =
    (served ++ current.toList).map .line ++ lost ++ s.connection.queue
  served : List.Forall₂ (Served s.coordinator) served episodes
  written : s.notes = episodes.flatten ++ notes
  stands : Stands s.Gone s.connection.work current notes
  lost : lost = [] ∨ lost = [.garbage] ∧ s.connection.work = .ended

/-- A service of which there is an account. -/
def Accounted (s : Service) : Prop :=
  ∃ served current lost episodes notes, s.Account served current lost episodes notes

/-- What has become of a wait stays known when no answer is forgotten. -/
theorem Served.mono {c c' : Coordinator}
    (hkept : ∀ (n : Nat) (answer : Answer), c.answers[n]? = some answer →
      c'.answers[n]? = some answer)
    {line : String} {notes : List Note} (h : Served c line notes) : Served c' line notes := by
  cases h with
  | blank hblank => exact .blank hblank
  | refused hline hread => exact .refused hline hread
  | answered hline hread hreply => exact .answered hline hread hreply
  | @waited _ t _ _ hline hread houtcome hreply =>
      refine .waited hline hread ?_ hreply
      unfold Coordinator.outcome? at houtcome ⊢
      cases hanswer : c.answers[t.number]? with
      | none =>
          rw [hanswer] at houtcome
          cases houtcome
      | some answer =>
          rw [hkept _ _ hanswer]
          rw [hanswer] at houtcome
          exact houtcome

theorem Stands.mono {gone gone' : Prop} (hgone : gone → gone') {work : Work}
    {current : Option String} {notes : List Note} (h : Stands gone work current notes) :
    Stands gone' work current notes := by
  induction h with
  | idle => exact .idle
  | ready hline hread => exact .ready hline hread
  | parked hline hread => exact .parked hline hread
  | overflowed hline hread => exact .overflowed hline hread
  | abandoned hold hstood ih => exact .abandoned (hgone hold) ih

theorem forall₂_concat {c : Coordinator} {served : List String} {episodes : List (List Note)}
    (h : List.Forall₂ (Served c) served episodes) {line : String} {notes : List Note}
    (hline : Served c line notes) :
    List.Forall₂ (Served c) (served ++ [line]) (episodes ++ [notes]) :=
  List.rel_append h (.cons hline .nil)

section Account

variable {served : List String} {current : Option String} {lost : List Incoming}
  {episodes : List (List Note)} {notes : List Note}

/-- Nothing is lost as long as the connection has not ended. -/
theorem Account.lost_eq_nil (h : s.Account served current lost episodes notes)
    (hrunning : s.connection.work ≠ .ended) : lost = [] :=
  h.lost.resolve_right fun hended => hrunning hended.2

/-- Between two lines nothing is taken up. -/
theorem Account.of_idle (h : s.Account served current lost episodes notes)
    (hidle : s.connection.work = .idle) : current = none ∧ lost = [] ∧ notes = [] := by
  have hlost := h.lost_eq_nil (by rw [hidle]; exact Work.noConfusion)
  have hstands := h.stands
  rw [hidle] at hstands
  cases hstands with
  | idle => exact ⟨rfl, hlost, rfl⟩

/-- An operation that is about to be performed is that of the line that was taken up. -/
theorem Account.of_ready (h : s.Account served current lost episodes notes) {operation : Operation}
    (hready : s.connection.work = .ready operation) :
    lost = [] ∧ notes = [] ∧ ∃ line, current = some line ∧ ¬ Blank line ∧
      Wire.readOperation line = .ok operation := by
  have hlost := h.lost_eq_nil (by rw [hready]; exact Work.noConfusion)
  have hstands := h.stands
  rw [hready] at hstands
  cases hstands with
  | @ready line _ hline hread => exact ⟨hlost, rfl, line, rfl, hline, hread⟩

/-- What waits is the operation of the line that was taken up. -/
theorem Account.of_parked (h : s.Account served current lost episodes notes) {t : Ticket}
    (hparked : s.connection.work = .parked t) :
    lost = [] ∧ ∃ line operation, current = some line ∧ ¬ Blank line ∧
      Wire.readOperation line = .ok operation ∧ notes = [.performed operation (.parked t)] := by
  have hlost := h.lost_eq_nil (by rw [hparked]; exact Work.noConfusion)
  have hstands := h.stands
  rw [hparked] at hstands
  cases hstands with
  | @parked line operation _ hline hread => exact ⟨hlost, line, operation, rfl, hline, hread, rfl⟩

/-- **Every turn keeps the account.** -/
theorem Accounted.turn {s' : Service} (h : s.Accounted) (hturn : Turn s s')
    (hkept : ∀ (n : Nat) (answer : Answer), s.coordinator.answers[n]? = some answer →
      s'.coordinator.answers[n]? = some answer) : s'.Accounted := by
  obtain ⟨served, current, lost, episodes, notes, h⟩ := h
  have hserved : List.Forall₂ (Served s'.coordinator) served episodes :=
    h.served.imp fun _ _ => Served.mono hkept
  cases hturn with
  | @rest y hread =>
      have hgone : s.Gone → Gone { s with connection := y } := Or.imp_left hread.closed.trans
      refine ⟨served, current, lost, episodes, notes, ?_, hserved, h.written, ?_, ?_⟩
      · rw [h.arrivals, hread.queue, List.nil_append]
      · show Stands _ y.work current notes
        rw [hread.work]
        exact h.stands.mono hgone
      · show _ ∨ _ ∧ y.work = _
        rw [hread.work]
        exact h.lost
  | @blank y line hidle hread hblank =>
      obtain ⟨rfl, rfl, rfl⟩ := h.of_idle hidle
      refine ⟨served ++ [line], none, [], episodes ++ [[]], [], ?_,
        forall₂_concat hserved (.blank hblank), ?_, ?_, .inl rfl⟩
      · rw [h.arrivals, hread.queue]
        simp
      · simp [h.written]
      · show Stands _ y.work none []
        rw [hread.work, hidle]
        exact .idle
  | @refused y line reason hidle hread hline hdecode =>
      obtain ⟨rfl, rfl, rfl⟩ := h.of_idle hidle
      refine ⟨served ++ [line], none, [], _, [], ?_,
        forall₂_concat hserved (.refused hline hdecode), ?_, .idle, .inl rfl⟩
      · rw [h.arrivals, hread.queue]
        simp [Connection.queue, Connection.reply]
      · simp [h.written]
  | @taken y line operation hidle hread hline hdecode =>
      obtain ⟨rfl, rfl, rfl⟩ := h.of_idle hidle
      refine ⟨served, some line, [], episodes, [], ?_, hserved, h.written, .ready hline hdecode,
        .inl rfl⟩
      rw [h.arrivals, hread.queue]
      simp [Connection.queue]
  | @answered operation now outcome reply hready hperform hreply =>
      obtain ⟨rfl, rfl, line, rfl, hline, hdecode⟩ := h.of_ready hready
      refine ⟨served ++ [line], none, [], _, [], ?_,
        forall₂_concat hserved (.answered hline hdecode hreply), ?_, .idle, .inl rfl⟩
      · rw [h.arrivals]
        simp [Connection.queue, Connection.reply]
      · simp [h.written]
  | @overflowed operation now hready hperform =>
      obtain ⟨rfl, rfl, line, rfl, hline, hdecode⟩ := h.of_ready hready
      refine ⟨served, some line, [], episodes, _, h.arrivals, hserved, ?_,
        .overflowed hline hdecode, .inl rfl⟩
      simp [h.written]
  | @parked operation now t hready hperform =>
      obtain ⟨rfl, rfl, line, rfl, hline, hdecode⟩ := h.of_ready hready
      refine ⟨served, some line, [], episodes, _, h.arrivals, hserved, ?_,
        .parked hline hdecode, .inl rfl⟩
      simp [h.written]
  | @resumed t outcome reply hparked houtcome hreply =>
      obtain ⟨rfl, line, operation, rfl, hline, hdecode, rfl⟩ := h.of_parked hparked
      refine ⟨served ++ [line], none, [], _, [], ?_,
        forall₂_concat hserved (.waited hline hdecode houtcome hreply), ?_, .idle, .inl rfl⟩
      · rw [h.arrivals]
        simp [Connection.queue, Connection.reply]
      · simp [h.written]
  | @gaveUp y read hread hgone hrunning =>
      obtain rfl := h.lost_eq_nil hrunning
      have hqueue : (y.giveUp s.coordinator).1.queue = y.queue := rfl
      have harrivals := h.arrivals
      rw [hread.queue] at harrivals
      have hnow : Gone { s with
          connection := (y.giveUp s.coordinator).1
          coordinator := (y.giveUp s.coordinator).2 } := by
        rcases hgone with ⟨-, hclosed⟩ | rfl
        · exact .inl (hread.closed.trans hclosed)
        · refine .inr ?_
          show Incoming.garbage ∈ s.arrivals
          rw [harrivals]
          simp
      refine ⟨served, current, read, episodes, notes, ?_, hserved, h.written,
        .abandoned hnow (h.stands.mono fun _ => hnow), ?_⟩
      · show s.arrivals = _ ++ (y.giveUp s.coordinator).1.queue
        rw [harrivals, hqueue]
        simp
      · exact hgone.imp And.left fun hgarbage => ⟨hgarbage, rfl⟩

end Account

/-! ## The waits of a service -/

/-- Whether an operation was parked for the caller with a ticket. -/
def Held (s : Service) (t : Ticket) : Prop :=
  ∃ operation, Note.performed operation (.parked t) ∈ s.notes

/-- **A tidy service**: of all tickets that were ever held for the caller at most the one that the
connection is parked with still waits, and that one waits until it has an answer. -/
structure Tidy (s : Service) : Prop where
  orderly : s.coordinator.Orderly
  sent : s.connection.sent = s.notes.filterMap Note.line?
  issued : ∀ t, s.Held t → t.number < s.coordinator.issued
  waits : ∀ t, s.Held t → s.coordinator.Waits t → s.connection.work = .parked t
  pending : ∀ t, s.connection.work = .parked t → s.coordinator.outcome? t = none →
    s.coordinator.Waits t

theorem outcome?_eq_none_iff {c : Coordinator} {t : Ticket} :
    c.outcome? t = none ↔ c.answers[t.number]? = none := by
  unfold Coordinator.outcome?
  cases c.answers[t.number]? with
  | none => simp
  | some answer => cases answer <;> simp

/-- A ticket that was given out before waits after an operation only if it did before. -/
theorem waits_of_ends {c c' : Coordinator} {ending : Place → Option Answer} {began : Option Ticket}
    (h : c.Ends ending began c') {t : Ticket} (ht : t.number < c.issued) (hwaits : c'.Waits t) :
    c.Waits t := by
  rcases (h.waits t).mp hwaits with hold | hbegan
  · exact hold.1
  · have hnumber := h.number t hbegan
    omega

/-- **An operation leaves a wait without an answer going.** -/
theorem pending_of_ends {c c' : Coordinator} {ending : Place → Option Answer}
    {began : Option Ticket} (h : c.Ends ending began c') {t : Ticket} (hnone : c'.outcome? t = none)
    (hwaits : c.outcome? t = none → c.Waits t) : c'.Waits t := by
  rw [outcome?_eq_none_iff] at hnone
  have hbefore : c.outcome? t = none := by
    rw [outcome?_eq_none_iff]
    cases hanswer : c.answers[t.number]? with
    | none => rfl
    | some answer =>
        rw [h.kept _ _ hanswer] at hnone
        cases hnone
  have ht := hwaits hbefore
  have hending : ending t.place = none := (h.answers t ht).symm.trans hnone
  exact (h.waits t).mpr (.inl ⟨ht, hending⟩)

/-- Nothing waits for the caller while its connection is not parked. -/
theorem Tidy.not_waits (h : s.Tidy) (hwork : ∀ t, s.connection.work ≠ .parked t) {t : Ticket}
    (ht : s.Held t) : ¬ s.coordinator.Waits t :=
  fun hwaits => hwork t (h.waits t ht hwaits)

/-- A line that is sent holds no ticket. -/
theorem held_append_sent {c : Coordinator} {x : Connection} {lines : List String} {t : Ticket} :
    Held ⟨x, c, s.arrivals, s.notes ++ lines.map .sent⟩ t ↔ s.Held t := by
  simp [Held]

/-- Lines are sent and nothing of the caller waits any longer. -/
theorem Tidy.unparked (h : s.Tidy) {x : Connection} (lines : List String)
    (hsent : x.sent = s.connection.sent ++ lines) (hwork : ∀ t, x.work ≠ .parked t)
    (hover : ∀ t, s.Held t → ¬ s.coordinator.Waits t) :
    Tidy { s with connection := x, notes := s.notes ++ lines.map .sent } := by
  refine ⟨h.orderly, ?_, fun t ht => ?_, fun t ht hwaits => ?_, fun t ht => absurd ht (hwork t)⟩
  · show x.sent = _
    rw [hsent, h.sent, List.filterMap_append, List.filterMap_map]
    simp [Function.comp_def, Note.line?]
  · exact h.issued t (held_append_sent.mp ht)
  · exact absurd hwaits (hover t (held_append_sent.mp ht))

/-- An operation is performed for the caller, who is parked if the operation is. -/
theorem Tidy.performed (h : s.Tidy) (now : Int64) {operation : Operation} {x : Connection}
    (lines : List String) (hsent : x.sent = s.connection.sent ++ lines)
    (hready : s.connection.work = .ready operation)
    (hwork : ∀ t, x.work = .parked t ↔
      (s.coordinator.perform now operation).1 = .parked t) :
    Tidy { s with
        connection := x
        coordinator := (s.coordinator.perform now operation).2
        notes := s.notes ++
          .performed operation (s.coordinator.perform now operation).1 :: lines.map .sent } ∧
      ∀ (n : Nat) (answer : Answer), s.coordinator.answers[n]? = some answer →
        (s.coordinator.perform now operation).2.answers[n]? = some answer := by
  obtain ⟨ending, hends, -⟩ := h.orderly.exists_ends_perform now operation
  have hnot : ∀ t, s.connection.work ≠ .parked t := by simp [hready]
  have hbegan : ∀ t, (s.coordinator.perform now operation).1 = .parked t →
      (s.coordinator.perform now operation).1.began = some t := by
    intro t ht
    rw [ht]
    rfl
  -- A ticket that is held now was held before or was given out just now.
  have hheld : ∀ {t}, (∃ other, Note.performed other (.parked t) ∈ s.notes ++
      .performed operation (s.coordinator.perform now operation).1 :: lines.map .sent) →
      s.Held t ∨ (s.coordinator.perform now operation).1 = .parked t := by
    rintro t ⟨other, hmem⟩
    rcases List.mem_append.mp hmem with hold | hnew
    · exact .inl ⟨other, hold⟩
    · simp only [List.mem_cons, Note.performed.injEq, List.mem_map, reduceCtorEq, and_false,
        exists_false, or_false] at hnew
      exact .inr hnew.2.symm
  refine ⟨⟨hends.orderly, ?_, fun t ht => ?_, fun t ht hwaits => ?_, fun t ht _ => ?_⟩,
    hends.kept⟩
  · show x.sent = _
    rw [hsent, h.sent, List.filterMap_append, List.filterMap_cons, List.filterMap_map]
    simp [Function.comp_def, Note.line?]
  · rcases hheld ht with hold | hnew
    · exact Nat.lt_of_lt_of_le (h.issued t hold) hends.issued
    · exact hends.orderly.issued t ((hends.waits t).mpr (.inr (hbegan t hnew)))
  · rcases hheld ht with hold | hnew
    · exact absurd (waits_of_ends hends (h.issued t hold) hwaits) (h.not_waits hnot hold)
    · exact (hwork t).mpr hnew
  · exact (hends.waits t).mpr (.inr (hbegan t ((hwork t).mp ht)))

/-- The operation is given up, and the caller waits no longer. -/
theorem Tidy.gaveUp (h : s.Tidy) {y : Connection} {read : List Incoming}
    (hread : s.connection.Read read y) :
    Tidy { s with
        connection := (y.giveUp s.coordinator).1
        coordinator := (y.giveUp s.coordinator).2 } ∧
      (y.giveUp s.coordinator).2.answers = s.coordinator.answers := by
  by_cases hparked : ∃ t, s.connection.work = .parked t
  · obtain ⟨t, ht⟩ := hparked
    have hgiveUp : y.giveUp s.coordinator =
        ({ y with work := .ended }, s.coordinator.hangUp t) := by
      unfold Connection.giveUp
      rw [hread.work, ht]
    rw [hgiveUp]
    refine ⟨⟨h.orderly.hangUp t, hread.sent.trans h.sent, fun u hu => ?_, fun u hu hwaits => ?_,
      fun u hu => Work.noConfusion hu⟩, Coordinator.answers_hangUp _ t⟩
    · show u.number < (s.coordinator.hangUp t).issued
      rw [Coordinator.issued_hangUp]
      exact h.issued u hu
    · obtain ⟨hold, hne⟩ := (Coordinator.waits_hangUp _ t u).mp hwaits
      have hwork := h.waits u hu hold
      rw [ht] at hwork
      exact absurd (Work.parked.inj hwork).symm hne
  · have hnot : ∀ t, s.connection.work ≠ .parked t := fun t ht => hparked ⟨t, ht⟩
    have hgiveUp : y.giveUp s.coordinator = ({ y with work := .ended }, s.coordinator) := by
      unfold Connection.giveUp
      rw [hread.work]
      cases hwork : s.connection.work with
      | parked t => exact absurd hwork (hnot t)
      | _ => rfl
    rw [hgiveUp]
    refine ⟨⟨h.orderly, hread.sent.trans h.sent, h.issued, fun t ht hwaits => ?_,
      fun t ht => Work.noConfusion ht⟩, rfl⟩
    exact absurd hwaits (h.not_waits hnot ht)

/-- **Every turn keeps a service tidy**, and what was answered before it stays answered. -/
theorem Tidy.turn {s' : Service} (h : s.Tidy) (hturn : Turn s s') :
    s'.Tidy ∧ ∀ (n : Nat) (answer : Answer), s.coordinator.answers[n]? = some answer →
      s'.coordinator.answers[n]? = some answer := by
  cases hturn with
  | @rest y hread =>
      refine ⟨⟨h.orderly, hread.sent.trans h.sent, h.issued, fun t ht hwaits => ?_,
        fun t hwork => h.pending t (hread.work.symm.trans hwork)⟩, fun _ _ => id⟩
      exact hread.work.trans (h.waits t ht hwaits)
  | @blank y line hidle hread hblank =>
      have hnot : ∀ t, s.connection.work ≠ .parked t := by simp [hidle]
      have htidy := h.unparked [] (by rw [hread.sent, List.append_nil])
        (fun t => hread.work ▸ hnot t) fun t => h.not_waits hnot
      rw [List.map_nil, List.append_nil] at htidy
      exact ⟨htidy, fun _ _ => id⟩
  | @refused y line reason hidle hread hline hdecode =>
      have hnot : ∀ t, s.connection.work ≠ .parked t := by simp [hidle]
      refine ⟨h.unparked [_] ?_ (fun t => Work.noConfusion) fun t => h.not_waits hnot,
        fun _ _ => id⟩
      rw [Connection.reply, hread.sent]
  | @taken y line operation hidle hread hline hdecode =>
      have hnot : ∀ t, s.connection.work ≠ .parked t := by simp [hidle]
      refine ⟨⟨h.orderly, hread.sent.trans h.sent, h.issued, fun t ht hwaits => ?_,
        fun t ht => Work.noConfusion ht⟩, fun _ _ => id⟩
      exact absurd hwaits (h.not_waits hnot ht)
  | @answered operation now outcome reply hready hperform hreply =>
      have htidy := h.performed now [Wire.replyLine reply] (x := s.connection.reply reply) rfl
        hready (by simp [Connection.reply, hperform])
      rw [hperform] at htidy
      exact htidy
  | @overflowed operation now hready hperform =>
      have htidy := h.performed now [] (x := { s.connection with work := .ended })
        (List.append_nil _).symm hready (by simp [hperform])
      rw [hperform] at htidy
      exact htidy
  | @parked operation now t hready hperform =>
      have htidy := h.performed now [] (x := { s.connection with work := .parked t })
        (List.append_nil _).symm hready (by simp [hperform])
      rw [hperform] at htidy
      exact htidy
  | @resumed t outcome reply hparked houtcome hreply =>
      refine ⟨h.unparked [_] rfl (fun u => Work.noConfusion) fun u hu hwaits => ?_, fun _ _ => id⟩
      -- The only ticket that could wait has been answered.
      obtain rfl : t = u := Work.parked.inj (hparked.symm.trans (h.waits u hu hwaits))
      rw [outcome?_eq_none_iff.mpr (h.orderly.unanswered t hwaits)] at houtcome
      cases houtcome
  | @gaveUp y read hread hgone hrunning =>
      obtain ⟨htidy, hanswers⟩ := h.gaveUp hread
      refine ⟨htidy, fun n answer hanswer => ?_⟩
      rw [hanswers]
      exact hanswer

/-! ## Runs -/

/-- **A sound service**: tidy, and there is an account of it. -/
structure Sound (s : Service) : Prop where
  tidy : s.Tidy
  accounted : s.Accounted

theorem sound_new (expected : UInt64) : (new expected).Sound := by
  refine ⟨⟨(Session.sound_new expected).orderly, rfl, ?_, ?_, ?_⟩,
    [], none, [], [], [], rfl, .nil, rfl, .idle, .inl rfl⟩
  · rintro t ⟨operation, hmem⟩
    cases hmem
  · rintro t ⟨operation, hmem⟩
    cases hmem
  · exact fun t hwork => Work.noConfusion hwork

/-- The account does not change while others change the coordinator. -/
theorem Accounted.withCoordinator (h : s.Accounted) {c : Coordinator}
    (hkept : ∀ (n : Nat) (answer : Answer), s.coordinator.answers[n]? = some answer →
      c.answers[n]? = some answer) : Accounted { s with coordinator := c } := by
  obtain ⟨served, current, lost, episodes, notes, h⟩ := h
  exact ⟨served, current, lost, episodes, notes, h.arrivals,
    h.served.imp fun _ _ => Served.mono hkept, h.written, h.stands, h.lost⟩

theorem Sound.arrive (h : s.Sound) (incoming : Incoming) :
    (s.after (.arrive incoming)).Sound := by
  unfold after
  dsimp only
  split
  · exact h
  · next hopen =>
      have harrive : s.connection.arrive incoming =
          { s.connection with arrived := s.connection.arrived ++ [incoming] } := if_neg hopen
      rw [harrive]
      obtain ⟨served, current, lost, episodes, notes, haccount⟩ := h.accounted
      refine ⟨⟨h.tidy.orderly, h.tidy.sent, h.tidy.issued, h.tidy.waits, h.tidy.pending⟩,
        served, current, lost, episodes, notes, ?_, haccount.served, haccount.written,
        haccount.stands.mono (Or.imp_right fun hmem => List.mem_append_left _ hmem), haccount.lost⟩
      rw [haccount.arrivals]
      simp [Connection.queue]

theorem Sound.close (h : s.Sound) : (s.after .close).Sound := by
  obtain ⟨served, current, lost, episodes, notes, haccount⟩ := h.accounted
  exact ⟨⟨h.tidy.orderly, h.tidy.sent, h.tidy.issued, h.tidy.waits, h.tidy.pending⟩,
    served, current, lost, episodes, notes, haccount.arrivals, haccount.served, haccount.written,
    haccount.stands.mono (Or.imp_left fun _ => rfl), haccount.lost⟩

theorem Sound.perform (h : s.Sound) (now : Int64) (operation : Operation) :
    (s.after (.perform now operation)).Sound := by
  obtain ⟨ending, hends, -⟩ := h.tidy.orderly.exists_ends_perform now operation
  refine ⟨⟨hends.orderly, h.tidy.sent, fun t ht => ?_, fun t ht hwaits => ?_,
    fun t hwork hnone => ?_⟩, h.accounted.withCoordinator hends.kept⟩
  · exact Nat.lt_of_lt_of_le (h.tidy.issued t ht) hends.issued
  · exact h.tidy.waits t ht (waits_of_ends hends (h.tidy.issued t ht) hwaits)
  · exact pending_of_ends hends hnone (h.tidy.pending t hwork)

theorem Sound.hangUp (h : s.Sound) (ticket : Ticket) : (s.after (.hangUp ticket)).Sound := by
  unfold after
  dsimp only
  split
  · exact h
  · next hother =>
      have hanswers := Coordinator.answers_hangUp s.coordinator ticket
      refine ⟨⟨h.tidy.orderly.hangUp ticket, h.tidy.sent, fun t ht => ?_, fun t ht hwaits => ?_,
        fun t hwork hnone => ?_⟩, h.accounted.withCoordinator fun n answer hanswer => ?_⟩
      · show t.number < (s.coordinator.hangUp ticket).issued
        rw [Coordinator.issued_hangUp]
        exact h.tidy.issued t ht
      · exact h.tidy.waits t ht ((Coordinator.waits_hangUp _ ticket t).mp hwaits).1
      · have hbefore : s.coordinator.outcome? t = none := by
          rw [outcome?_eq_none_iff, ← hanswers]
          exact outcome?_eq_none_iff.mp hnone
        refine (Coordinator.waits_hangUp _ ticket t).mpr ⟨h.tidy.pending t hwork hbefore, ?_⟩
        rintro rfl
        exact hother hwork
      · rw [hanswers]
        exact hanswer

/-- **Every event keeps a service sound.** -/
theorem Sound.after (h : s.Sound) (event : Event) : (s.after event).Sound := by
  cases event with
  | arrive incoming => exact h.arrive incoming
  | close => exact h.close
  | move watching now =>
      have hturn := turn_move s watching now
      obtain ⟨htidy, hkept⟩ := h.tidy.turn hturn
      exact ⟨htidy, h.accounted.turn hturn hkept⟩
  | perform now operation => exact h.perform now operation
  | hangUp ticket => exact h.hangUp ticket

theorem Sound.run (h : s.Sound) (events : List Event) : (s.run events).Sound := by
  induction events generalizing s with
  | nil => exact h
  | cons event events ih => exact ih (h.after event)

end CriticalSection.Service
