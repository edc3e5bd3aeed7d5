import CriticalSection.Proofs.Withdrawal.Requests

/-!
# Where permissions come from

An attempt goes inside by permissions it has asked for itself: each of them is the reaction to a
question of its own, or the answer to a ticket that was given out for one. What was granted to an
attempt that is over is lost with it.
-/

set_option autoImplicit false

namespace CriticalSection

variable {s : Extent}

namespace Company

/-! ## Definitions -/

/-- **A process is asked for permission**: the part for it in the fan-out of an attempt moves from
one company to the next and calls its broker, which reacts. -/
def Asks (x : Company s) (p q : ProcessId) (time : UInt64) (b : Fin s.brokers)
    (reaction : Reaction Unit) (y : Company s) : Prop :=
  ∃ client own fan place, x.entry p = some (client, .gathering own time fan) ∧
    client.isCancelled x.cluster = false ∧ fan.parts[place]? = some (q, .routed b) ∧
    (x.cluster.request b (Acquire.question client time q)).1 = reaction ∧
    x.step (.advance p place) = some y

/-- **A permission that has been earned** since a company was as it was: it was asked for after
that, and it was given at once or is the answer to a ticket that was given out since. -/
def Earned (z y : Company s) (p q : ProcessId) (time : UInt64) : Prop :=
  ∃ u v b reaction, z.Run u ∧ u.Asks p q time b reaction v ∧ v.Run y ∧
    (reaction = .answered (.ok ()) ∨ ∃ t, reaction = .parked t ∧
      (z.cluster.coordinator b).issued ≤ t.number ∧
      (y.cluster.coordinator b).answers[t.number]? = some .granted)

variable {x y z : Company s} {p q : ProcessId} {time : UInt64}

/-! ## What a run keeps -/

theorem Turn.course (h : x.Turn y) :
    ∃ acts joins, x.cluster.Course acts joins y.cluster := by
  cases h with
  | common quiet entry => exact ⟨_, _, quiet⟩
  | beside p quiet idle begun others => exact ⟨_, _, quiet⟩
  | moves p client stage stage' place advance entry move left others =>
      exact ⟨_, _, Acquire.course_step move⟩
  | ends p client stage place outcome entry move left others =>
      exact ⟨_, _, Acquire.course_step move⟩
  | abandons p client stage entry cluster left others =>
      exact ⟨none, _, cluster ▸ stage.quiet_hangUp x.cluster⟩

/-- Answers stay given, and numbers are given out once. -/
theorem Run.course (h : x.Run y) (hx : x.Sound) (b : Fin s.brokers) :
    (∀ (n : Nat) (answer : Answer), (x.cluster.coordinator b).answers[n]? = some answer →
      (y.cluster.coordinator b).answers[n]? = some answer) ∧
      (x.cluster.coordinator b).issued ≤ (y.cluster.coordinator b).issued := by
  induction h with
  | refl => exact ⟨fun _ _ => id, Nat.le_refl _⟩
  | @step y z run incident next ih =>
      have hy := hx.run run
      obtain ⟨acts, joins, hcourse⟩ := (turn_of_step hy.conducts next).1.course
      have hb := hcourse.coordinator b (hy.orderly b)
      exact ⟨fun n answer hn => hb.kept n answer (ih.1 n answer hn), Nat.le_trans ih.2 hb.issued⟩

theorem Earned.step (h : z.Earned x p q time) (hx : x.Sound) {incident : Incident s}
    (hstep : x.step incident = some y) : z.Earned y p q time := by
  obtain ⟨u, v, b, reaction, hu, hasks, hv, hreaction⟩ := h
  refine ⟨u, v, b, reaction, hu, hasks, hv.step incident hstep, hreaction.imp_right ?_⟩
  rintro ⟨t, ht, hissued, hgranted⟩
  exact ⟨t, ht, hissued, ((Run.refl.step incident hstep).course hx b).1 _ _ hgranted⟩

/-- Whoever is parked after a company was as it was gets a number that has been given out since. -/
theorem Asks.issued_le {b : Fin s.brokers} {t : Ticket} (h : x.Asks p q time b (.parked t) y)
    (hz : z.Sound) (hrun : z.Run x) : (z.cluster.coordinator b).issued ≤ t.number := by
  obtain ⟨client, own, fan, place, -, -, -, hreaction, -⟩ := h
  rw [Cluster.request_eq] at hreaction
  split at hreaction
  · cases hreaction
  · have hends := ((hz.run hrun).orderly b).ends_request q ⟨time, client.process⟩
    have hnumber : t.number = (x.cluster.coordinator b).issued := by
      refine hends.number t ?_
      rw [show ((x.cluster.coordinator b).request q ⟨time, client.process⟩).1 = .parked t from
        hreaction]
      rfl
    rw [hnumber]
    exact (hrun.course hz b).2

/-! ## Permissions of a later attempt -/

/-- What is behind the parts of a fan-out: a question for each that waits, and a permission for each
that has been answered. -/
def Backed (z x : Company s) (p : ProcessId) (time : UInt64) (parts : List (ProcessId × Part s)) :
    Prop :=
  ∀ e ∈ parts,
    (∀ b t, e.2 = .parked b t → ∃ u v, z.Run u ∧ u.Asks p e.1 time b (.parked t) v ∧ v.Run x) ∧
    (e.2 = .answered → z.Earned x p e.1 time)

/-- **What is known of a process since a company was as it was**: its attempt asks its peers and
nobody else, and there is something behind all it has got. -/
structure Since (z x : Company s) (p : ProcessId) : Prop where
  gathering : ∀ client own time fan, x.entry p = some (client, .gathering own time fan) →
    fan.parts.map Prod.fst = client.peers ∧ z.Backed x p time fan.parts
  granted : ∀ client own time, x.entry p = some (client, .granted own time) →
    ∀ q ∈ client.peers, z.Earned x p q time

theorem Backed.step {parts : List (ProcessId × Part s)} (h : z.Backed x p time parts)
    (hx : x.Sound) {incident : Incident s} (hstep : x.step incident = some y) :
    z.Backed y p time parts := by
  intro e he
  obtain ⟨hparked, hanswered⟩ := h e he
  refine ⟨fun b t ht => ?_, fun ht => (hanswered ht).step hx hstep⟩
  obtain ⟨u, v, hu, hasks, hv⟩ := hparked b t ht
  exact ⟨u, v, hu, hasks, hv.step incident hstep⟩

/-- What is known of a process is known by the stage of its attempt. -/
theorem Since.of_stage {client : Client s} {stage : Acquire s}
    (h : x.entry p = some (client, stage))
    (hgathering : ∀ own time fan, stage = .gathering own time fan →
      fan.parts.map Prod.fst = client.peers ∧ z.Backed x p time fan.parts)
    (hgranted : ∀ own time, stage = .granted own time →
      ∀ q ∈ client.peers, z.Earned x p q time) : z.Since x p := by
  refine ⟨fun client' own time fan hentry => ?_, fun client' own time hentry => ?_⟩ <;>
    obtain ⟨rfl, rfl⟩ := Prod.mk.inj (Option.some.inj (h.symm.trans hentry))
  · exact hgathering own time fan rfl
  · exact hgranted own time rfl

/-- Nothing is behind what has only begun. -/
theorem Since.of_begun (h : ∀ client stage, x.entry p = some (client, stage) →
    stage.announcedAt? = none) : z.Since x p := by
  refine ⟨fun client own time fan hentry => ?_, fun client own time hentry => ?_⟩
  · cases h client _ hentry
  · cases h client _ hentry

/-- There is something behind a part that moves: its question, and with a permission what has been
asked before. -/
theorem Backed.part {client : Client s} {own : Fin s.brokers} {fan : FanOut s} {place : Nat}
    {part part' : Part s} {c : Cluster s} (hz : z.Sound) (hrun : z.Run x)
    (h : z.Backed x p time fan.parts) (hentry : x.entry p = some (client, .gathering own time fan))
    (huncancelled : client.isCancelled x.cluster = false)
    (hpart : fan.parts[place]? = some (q, part))
    (hmove : part.step client (Acquire.question client time) q x.cluster = (some part', c))
    (hstep : x.step (.advance p place) = some y) :
    z.Backed y p time (fan.parts.set place (q, part')) := by
  have hx := hz.run hrun
  have hasks : ∀ b, part = .routed b →
      x.Asks p q time b (x.cluster.request b (Acquire.question client time q)).1 y := by
    rintro b rfl
    exact ⟨client, own, fan, place, hentry, huncancelled, hpart, rfl, hstep⟩
  intro e he
  rcases List.mem_or_eq_of_mem_set he with he | rfl
  · exact h.step hx hstep e he
  · refine ⟨fun b t ht => ?_, fun ht => ?_⟩
    · subst ht
      rcases Part.step_cases hmove with ⟨-, ⟨b', -, heq⟩ | ⟨fault, -, heq⟩⟩ |
        ⟨b', hrouted, ⟨t', hrequest, heq⟩ | ⟨outcome, -, heq⟩⟩ | ⟨b', t', outcome, -, -, heq, -⟩
      · cases heq
      · cases heq
      · obtain ⟨rfl, rfl⟩ := Part.parked.inj heq
        have := hasks b hrouted
        rw [hrequest] at this
        exact ⟨x, y, hrun, this, .refl⟩
      · exact absurd heq.symm (Part.ofOutcome_ne_parked outcome b t)
      · exact absurd heq.symm (Part.ofOutcome_ne_parked outcome b t)
    · subst ht
      rcases Part.step_cases hmove with ⟨-, ⟨b', -, heq⟩ | ⟨fault, -, heq⟩⟩ |
        ⟨b', hrouted, ⟨t', -, heq⟩ | ⟨outcome, hrequest, heq⟩⟩ |
        ⟨b', t', outcome, hparked, houtcome, heq, -⟩
      · cases heq
      · cases heq
      · cases heq
      · rcases outcome with fault | ⟨⟩ <;> cases heq
        have := hasks b' hrouted
        rw [hrequest] at this
        exact ⟨x, y, b', _, hrun, this, .refl, .inl rfl⟩
      · -- The part takes the answer to a ticket it has asked for.
        rcases outcome with fault | ⟨⟩ <;> cases heq
        subst hparked
        obtain ⟨u, v, hu, hasked, hv⟩ := (h _ (List.mem_of_getElem? hpart)).1 b' t' rfl
        have hissued := hasked.issued_le hz hu
        refine ⟨u, v, b', _, hu, hasked, hv.step _ hstep, .inr ⟨t', rfl, hissued, ?_⟩⟩
        exact ((Run.refl.step _ hstep).course hx b').1 _ _ (Cluster.granted_of_outcome? houtcome)

/-- A fan-out that has been answered by all has earned all permissions. -/
theorem Backed.earned (fan : FanOut s) (h : z.Backed x p time fan.parts)
    (hcomplete : fan.complete = true) (hq : q ∈ fan.parts.map Prod.fst) : z.Earned x p q time := by
  obtain ⟨e, he, rfl⟩ := List.mem_map.mp hq
  refine (h e he).2 ?_
  have hanswered : e.2.isAnswered = true := List.all_eq_true.mp hcomplete e he
  cases hpart : e.2 with
  | answered => rfl
  | _ => simp [hpart, Part.isAnswered] at hanswered

/-- An attempt that asks its peers goes on with permissions it has earned. -/
theorem Since.gathering_step {client : Client s} {own : Fin s.brokers} {fan : FanOut s}
    {place : Nat} {stage : Acquire s} (hz : z.Sound) (hrun : z.Run x) (h : z.Since x p)
    (hentry : x.entry p = some (client, .gathering own time fan))
    (hmove : Acquire.step client place (.gathering own time fan) x.cluster =
      (.next stage, y.cluster))
    (hstep : x.step (.advance p place) = some y) (hleft : y.entry p = some (client, stage)) :
    z.Since y p := by
  have hx := hz.run hrun
  obtain ⟨hpeers, hbacked⟩ := h.gathering client own time fan hentry
  -- All that is known of the fan-out after the move, whether it goes on or has been answered.
  have hfan : ∀ m, fan.step client (Acquire.question client time) place x.cluster = (m, y.cluster) →
      client.isCancelled x.cluster = false →
      (∀ fan', m = .next fan' →
        fan'.parts.map Prod.fst = client.peers ∧ z.Backed y p time fan'.parts) ∧
      (m = .finish (.ok ()) → ∀ q ∈ client.peers, z.Earned y p q time) := by
    intro m hm huncancelled
    rcases FanOut.step_cases hm with
      ⟨rfl, -⟩ | ⟨hcomplete, rfl, -⟩ | ⟨q, part, part', c, hpart, hpartStep, hproceed⟩
    · exact ⟨by simp, by simp⟩
    · exact ⟨by simp, fun _ q hq => (hbacked.step hx hstep).earned fan hcomplete (hpeers ▸ hq)⟩
    · have hset := hbacked.part hz hrun hentry huncancelled hpart hpartStep hstep
      have hnames := FanOut.map_fst_set hpart part'
      rcases FanOut.proceed_cases hproceed with ⟨outcome, houtcome, rfl, -⟩ | ⟨-, rfl, -⟩
      · refine ⟨by simp, fun heq q hq => ?_⟩
        obtain rfl := Move.finish.inj heq
        refine hset.earned { fan with parts := _ } (FanOut.complete_of_outcome houtcome) ?_
        rw [hnames, hpeers]
        exact hq
      · refine ⟨fun fan' heq => ?_, by simp⟩
        obtain rfl := Move.next.inj heq
        exact ⟨hnames.trans hpeers, hset⟩
  rcases Acquire.gathering_cases hmove with ⟨-, hnext, -⟩ | ⟨huncancelled, ⟨hnext, -⟩ |
    ⟨fan', hnext, hm⟩ | ⟨hnext, hm⟩ | ⟨fault, hnext, -⟩⟩ <;> cases hnext
  · exact .of_stage hleft (by simp) (by simp)
  · refine .of_stage hleft (fun own' time' fan₁ hsame => ?_) (by simp)
    cases hsame
    exact (hfan _ hm huncancelled).1 fan' rfl
  · refine .of_stage hleft (by simp) fun own' time' hsame => ?_
    cases hsame
    exact (hfan _ hm huncancelled).2 rfl

theorem Since.of_entry (h : z.Since x p) (hx : x.Sound) {incident : Incident s}
    (hstep : x.step incident = some y) (hentry : y.entry p = x.entry p) : z.Since y p := by
  refine ⟨fun client own time fan hgathering => ?_, fun client own time hgranted q hq => ?_⟩
  · rw [hentry] at hgathering
    obtain ⟨hpeers, hbacked⟩ := h.gathering client own time fan hgathering
    exact ⟨hpeers, hbacked.step hx hstep⟩
  · rw [hentry] at hgranted
    exact (h.granted client own time hgranted q hq).step hx hstep

theorem Since.of_none (h : x.entry p = none) : z.Since x p :=
  .of_begun fun client stage hentry => by
    rw [h] at hentry
    cases hentry

/-- An attempt that has announced its request asks its peers and nobody else. -/
theorem Since.of_announced {client : Client s} {own : Fin s.brokers}
    (h : x.entry p = some (client, .gathering own time (.start client client.peers))) :
    z.Since x p := by
  refine .of_stage h (fun own' time' fan hsame => ?_) (by simp)
  cases hsame
  refine ⟨by simp [FanOut.start, Function.comp_def], fun e he => ?_⟩
  obtain ⟨q, -, rfl⟩ := List.mem_map.mp he
  exact ⟨by simp, by simp⟩

/-- **Whatever happens, there is something behind all that an attempt has got.** -/
theorem Since.step (hz : z.Sound) (hrun : z.Run x) (h : z.Since x p) {incident : Incident s}
    (hstep : x.step incident = some y) : z.Since y p := by
  have hx := hz.run hrun
  cases (turn_of_step hx.conducts hstep).1 with
  | common quiet entry => exact h.of_entry hx hstep (entry p)
  | beside p' quiet idle begun others =>
      by_cases hp : p = p'
      · subst hp
        refine .of_begun fun client stage hentry => ?_
        obtain ⟨-, rfl⟩ := begun client stage hentry
        rfl
      · exact h.of_entry hx hstep (others p hp)
  | moves p' client stage stage' place advance entry move left others =>
      by_cases hp : p = p'
      · subst hp
        rcases Acquire.next_cases move with ⟨-, own, rfl, -⟩ | ⟨own, time, -, rfl, -⟩ |
          ⟨own, time, fan, rfl, -⟩
        · exact .of_stage left (by simp) (by simp)
        · exact .of_announced left
        · exact h.gathering_step hz hrun entry move advance left
      · exact h.of_entry hx hstep (others p hp)
  | ends p' client stage place outcome entry move left others =>
      by_cases hp : p = p'
      · exact .of_none (hp ▸ left)
      · exact h.of_entry hx hstep (others p hp)
  | abandons p' client stage entry cluster left others =>
      by_cases hp : p = p'
      · exact .of_none (hp ▸ left)
      · exact h.of_entry hx hstep (others p hp)

/-- **Whoever is let in after it made no attempt** has earned the permission of every peer since. -/
theorem Run.earned (h : z.Run y) (hz : z.Sound) (hnone : z.entry p = none) {client : Client s}
    {own : Fin s.brokers} (hentry : y.entry p = some (client, .granted own time)) :
    ∀ q ∈ client.peers, z.Earned y p q time := by
  have hsince : ∀ {x}, z.Run x → z.Since x p := by
    intro x hrun
    induction hrun with
    | refl => exact .of_none hnone
    | step run incident next ih => exact ih.step hz run next
  exact (hsince h).granted client own time hentry

end Company

end CriticalSection
