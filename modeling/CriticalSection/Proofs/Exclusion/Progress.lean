import Mathlib.Data.Fintype.Card
import Mathlib.Data.Fintype.EquivFin
import CriticalSection.Proofs.Exclusion.Precedence

/-!
# Deadlock freedom

In a calm run a client that enters can only be held up by processes that make it wait, and each of
them precedes it. So the client with the earliest request is held up by nobody who competes: it
moves on as soon as whoever is inside has left.
-/

set_option autoImplicit false

namespace CriticalSection

variable {s : Extent}

/-! ## Calls that cannot move -/

/-- A part that cannot move waits for an answer, unless it has come to its end. -/
theorem Part.waits_of_step {client : Client s} {ask : Question} {p : ProcessId} {part : Part s}
    {c : Cluster s} (h : (part.step client ask p c).1 = none) :
    (∃ b t, part = .parked b t ∧ c.outcome? b t = none) ∨ part.isAnswered = true ∨
      part.fault? ≠ none := by
  cases part with
  | unrouted =>
      simp only [step] at h
      split at h <;> cases h
  | routed b =>
      simp only [step] at h
      split at h <;> cases h
  | parked b t => exact Or.inl ⟨b, t, rfl, Option.map_eq_none_iff.mp h⟩
  | answered => exact Or.inr (Or.inl rfl)
  | failed fault => exact Or.inr (Or.inr (by simp [fault?]))

/-- A fan-out that cannot move at a place has no part there that can. -/
theorem FanOut.waits_of_step {client : Client s} {ask : Question} {place : Nat} {fan : FanOut s}
    {c : Cluster s} (h : (fan.step client ask place c).1 = .wait) :
    fan.complete = false ∧ ∀ p part, fan.parts[place]? = some (p, part) →
      (part.step client ask p c).1 = none := by
  unfold step at h
  split at h
  · cases h
  · next hcomplete =>
      refine ⟨Bool.not_eq_true _ ▸ hcomplete, fun p part hpart => ?_⟩
      rw [hpart] at h
      dsimp only at h
      split at h
      · next heq => rw [heq]
      · next part' c₁ heq =>
          unfold proceed at h
          split at h <;> cases h

/-- **A client that enters and cannot move** gathers permissions, and none of its parts can move. -/
theorem Acquire.waits_of_step {client : Client s} {stage : Acquire s} {c : Cluster s}
    (h : ∀ place, (stage.step client place c).1 = .wait) :
    ∃ own time fan, stage = .gathering own time fan ∧ fan.complete = false ∧
      ∀ e ∈ fan.parts, (e.2.step client (question client time) e.1 c).1 = none := by
  cases stage with
  | gathering own time fan =>
      have hfan : ∀ place, (fan.step client (question client time) place c).1 = .wait := by
        intro place
        have h := h place
        simp only [step] at h
        split at h
        · cases h
        · split at h
          · next heq => rw [heq]
          all_goals cases h
      refine ⟨own, time, fan, rfl, (FanOut.waits_of_step (hfan 0)).1, fun e he => ?_⟩
      obtain ⟨place, hplace⟩ := List.mem_iff_getElem?.mp he
      exact (FanOut.waits_of_step (hfan place)).2 e.1 e.2 hplace
  | _ =>
      have h := h 0
      simp only [step] at h
      split at h <;> cases h

/-- A client that leaves can always move. -/
theorem Release.step_ne_wait (client : Client s) (stage : Release s) (c : Cluster s) :
    (stage.step client c).1 ≠ .wait := by
  cases stage with
  | start =>
      intro h
      simp only [step] at h
      split at h <;> cases h
  | routed own => exact fun h => by cases h

theorem Move.eq_wait_of_map {σ τ ρ θ : Type} {f : σ → τ} {g : ρ → θ} {m : Move σ ρ}
    (h : m.map f g = .wait) : m = .wait := by
  cases m with
  | wait => rfl
  | next stage => cases h
  | finish outcome => cases h

/-- **What holds up a client**: while it enters that may be its fan-out, and while it leaves nothing
is. -/
def Activity.HeldUp (client : Client s) (place : Nat) (c : Cluster s) : Activity s → Prop
  | .entering stage => (stage.step client place c).1 = .wait
  | .leaving _ => False
  | _ => True

theorem Visit.heldUp_of_step {β ρ : Type} {client : Client s}
    {body : β → Cluster s → Move β ρ × Cluster s} {place : Nat} {v : Visit s β ρ}
    {c : Cluster s} (h : (v.step client body place c).1 = .wait) :
    v.activity.HeldUp client place c := by
  cases v with
  | entering stage b =>
      show (stage.step client place c).1 = .wait
      simp only [step] at h
      split at h
      · next heq => rw [heq]
      all_goals cases h
  | inside b => trivial
  | leaving stage outcome =>
      simp only [step] at h
      split at h
      · next heq => exact stage.step_ne_wait client c (by rw [heq])
      all_goals cases h

namespace Party

variable {party : Party s} {p q : ProcessId}

/-- **A call that cannot move** is held up by what its client is doing. -/
theorem heldUp_of_step {call : Call s} (hproper : party.Proper p call) {place : Nat}
    {c : Cluster s} (h : (call.step place c).1 = .wait) :
    call.activity.HeldUp (party.client p) place c := by
  cases call with
  | acquire client stage =>
      obtain rfl : client = party.client p := hproper
      exact Move.eq_wait_of_map h
  | release client stage => exact stage.step_ne_wait client c (Move.eq_wait_of_map h)
  | visit client v =>
      obtain rfl : client = party.client p := hproper
      exact Visit.heldUp_of_step (Move.eq_wait_of_map h)
  | round client pacing r =>
      obtain ⟨rfl, -⟩ : client = party.client p ∧ _ := hproper
      cases r with
      | visiting visit left =>
          have hround := Move.eq_wait_of_map h
          have hvisit : (visit.step (party.client p) (LoggedStay.step (party.client p)) place c).1 =
              .wait := by
            simp only [Round.step] at hround
            split at hround
            · next heq => rw [heq]
            all_goals cases hround
          exact Visit.heldUp_of_step hvisit
      | _ => trivial
  | lineUp client line => trivial
  | awaitPeers client pause attempts stage => trivial
  | subscribe client stage => exact hproper.elim
  | direct b reaction => exact hproper.elim

/-- A process whose call cannot move in a scene is held up by what it is doing. -/
theorem Conducts.heldUp {x : Scene s} (h : party.Conducts x) {place : Nat}
    (hstuck : x.step party (.advance p place) = none) :
    (x.activity p).HeldUp (party.client p) place x.cluster := by
  cases hadmitted : x.admitted p with
  | true =>
      rw [Scene.activity_of_admitted hadmitted]
      trivial
  | false =>
      cases hcall : x.calls p with
      | none =>
          rw [Scene.activity_of_none hcall, hadmitted]
          trivial
      | some call =>
          rw [Scene.activity_of_some hcall hadmitted]
          refine heldUp_of_step (h.proper p call hcall).2 ?_
          simp only [Scene.step, hcall] at hstuck
          split at hstuck
          · next heq => rw [heq]
          all_goals cases hstuck

end Party

/-! ## Waiting for one another -/

/-- Whether a part waits for an answer that has not come yet. -/
def Part.waits (c : Cluster s) : Part s → Bool
  | parked b t => (c.outcome? b t).isNone
  | _ => false

/-- Whether the request of a client to a process has no answer yet. -/
def Activity.waitsFor (c : Cluster s) (p : ProcessId) : Activity s → Bool
  | .entering (.gathering _ _ fan) => fan.parts.any fun e => e.1 = p && e.2.waits c
  | _ => false

/-- **A process is parked on another one** while its request to it has no answer. -/
def Scene.ParkedOn (x : Scene s) (q p : ProcessId) : Prop :=
  (x.activity q).waitsFor x.cluster p = true

theorem Scene.parkedOn_iff {x : Scene s} {q p : ProcessId} :
    x.ParkedOn q p ↔ ∃ own time fan b t, x.activity q = .entering (.gathering own time fan) ∧
      (p, .parked b t) ∈ fan.parts ∧ x.cluster.outcome? b t = none := by
  unfold ParkedOn
  constructor
  · intro h
    unfold Activity.waitsFor at h
    split at h
    · next own time fan hactivity =>
        obtain ⟨⟨p', part⟩, he, hwaits⟩ := List.any_eq_true.mp h
        rw [Bool.and_eq_true, decide_eq_true_eq] at hwaits
        obtain ⟨rfl, hwaits⟩ := hwaits
        cases part with
        | parked b t =>
            exact ⟨own, time, fan, b, t, hactivity, he, Option.isNone_iff_eq_none.mp hwaits⟩
        | _ => cases hwaits
    · cases h
  · rintro ⟨own, time, fan, b, t, hactivity, he, hnone⟩
    rw [hactivity]
    refine List.any_eq_true.mpr ⟨_, he, ?_⟩
    simp [Part.waits, hnone]

namespace Party

variable {party : Party s} {x : Scene s} {p q : ProcessId}

/-- **Who is parked comes later**: the request of the process it is parked on stands and precedes
its own. -/
theorem CalmlyReachable.precedes_of_parkedOn (h : party.CalmlyReachable x)
    (hparked : x.ParkedOn q p) :
    p ∈ party.processes ∧ (party.record x.cluster p).standing ≠ .free ∧
      (party.stamp x.cluster p).precedes (party.stamp x.cluster q) = true := by
  obtain ⟨own, time, fan, b, t, hactivity, hpart, hnone⟩ := Scene.parkedOn_iff.mp hparked
  have hq := (h.requested (by rw [Scene.Competes, hactivity]; rfl)).1
  obtain ⟨hlawful, htranquil⟩ := h.tranquil
  have hfits := hlawful.sound.fits q hq
  rw [hactivity] at hfits
  obtain ⟨hp, hpromised⟩ : p ∈ party.processes ∧ party.Promised x.cluster q p b t :=
    hfits.promised hq _ hpart b t rfl
  -- The ticket has no answer, so it waits in the queue, and the queue comes after the owner.
  obtain ⟨rfl, -, -, hwaits | ⟨hgranted, -⟩⟩ := hpromised
  · exact ⟨hp, htranquil.queued p hp _ hwaits⟩
  · rw [Cluster.outcome?_of_granted hgranted] at hnone
    cases hnone

/-- A process that enters and cannot move is parked on another one. -/
theorem CalmlyReachable.exists_parkedOn (h : party.CalmlyReachable x)
    (hstuck : ∀ place, x.step party (.advance q place) = none) {stage : Acquire s}
    (hactivity : x.activity q = .entering stage) : ∃ p, x.ParkedOn q p := by
  obtain ⟨hlawful, htranquil⟩ := h.tranquil
  have hheld : ∀ place, (stage.step (party.client q) place x.cluster).1 = .wait := by
    intro place
    have hheld := hlawful.conducts.heldUp (hstuck place)
    rwa [hactivity] at hheld
  obtain ⟨own, time, fan, rfl, hcomplete, hparts⟩ := Acquire.waits_of_step hheld
  have hq := (h.requested (by rw [Scene.Competes, hactivity]; rfl)).1
  have hflawless := htranquil.steady q hq
  rw [hactivity] at hflawless
  -- Some part has not been answered. It has not failed either, so it is the answer that it lacks.
  obtain ⟨⟨p, part⟩, he, hunanswered⟩ := List.all_eq_false.mp hcomplete
  rcases Part.waits_of_step (hparts _ he) with ⟨b, t, rfl, hnone⟩ | hanswered | hfault
  · exact ⟨p, Scene.parkedOn_iff.mpr ⟨own, time, fan, b, t, hactivity, he, hnone⟩⟩
  · exact absurd hanswered hunanswered
  · exact absurd (hflawless _ he) hfault

/-- A process that cannot move and on which another one is parked enters itself, unless it is
inside. -/
theorem CalmlyReachable.entering_of_parkedOn (h : party.CalmlyReachable x)
    (hstuck : ∀ place, x.step party (.advance p place) = none) (houtside : ¬ x.Inside p)
    (hparked : x.ParkedOn q p) : ∃ stage, x.activity p = .entering stage := by
  obtain ⟨hp, hstands, -⟩ := h.precedes_of_parkedOn hparked
  obtain ⟨hlawful, htranquil⟩ := h.tranquil
  have hsteady := htranquil.steady p hp
  have hheld := hlawful.conducts.heldUp (hstuck 0)
  cases hactivity : x.activity p with
  | outside =>
      rw [hactivity] at hsteady
      exact absurd hsteady hstands
  | inside => exact absurd hactivity houtside
  | entering stage => exact ⟨stage, rfl⟩
  | leaving stage =>
      rw [hactivity] at hheld
      exact hheld.elim

/-! ## Deadlock freedom -/

/-- Whoever is parked on a process, however indirectly, comes after it. -/
theorem CalmlyReachable.precedes_of_transGen (h : party.CalmlyReachable x)
    (hparked : Relation.TransGen x.ParkedOn q p) :
    (party.stamp x.cluster p).precedes (party.stamp x.cluster q) = true := by
  induction hparked with
  | single hparked => exact (h.precedes_of_parkedOn hparked).2.2
  | tail _ hparked ih => exact Stamp.precedes_trans (h.precedes_of_parkedOn hparked).2.2 ih

/-- The requests of a party are ordered, and there is an earliest one among any. -/
theorem wellFounded_precedes (party : Party s) (c : Cluster s) :
    WellFounded fun p q : { p // p ∈ party.processes } =>
      (party.stamp c p).precedes (party.stamp c q) = true := by
  have htrans : IsTrans { p // p ∈ party.processes } fun p q =>
      (party.stamp c p).precedes (party.stamp c q) = true :=
    ⟨fun _ _ _ => Stamp.precedes_trans⟩
  have hirrefl : Std.Irrefl fun p q : { p // p ∈ party.processes } =>
      (party.stamp c p).precedes (party.stamp c q) = true :=
    ⟨fun p => by simp [Stamp.precedes_irrefl]⟩
  exact Finite.wellFounded_of_trans_of_irrefl _

/-- **Deadlock freedom.** When no call can move and nobody is inside, nobody enters. Whoever is
parked on a process has a later request than that process, whose own request stands, and so the
processes that are parked on one another never form a cycle. -/
theorem deadlock_freedom (party : Party s) {x : Scene s} (h : party.CalmlyReachable x) :
    ((∀ p place, x.step party (.advance p place) = none) → (∀ p, ¬ x.Inside p) →
      ∀ p stage, x.activity p ≠ .entering stage) ∧
    (∀ p q, x.ParkedOn q p → (party.record x.cluster p).standing ≠ .free ∧
      (party.stamp x.cluster p).precedes (party.stamp x.cluster q) = true) ∧
    ∀ p, ¬ Relation.TransGen x.ParkedOn p p := by
  refine ⟨fun hstuck houtside p stage hactivity => ?_, fun p q hparked => ?_, fun p hcycle => ?_⟩
  · obtain ⟨hlawful, -⟩ := h.tranquil
    have hp : p ∈ party.processes := by
      refine Decidable.byContradiction fun hp => ?_
      rw [hlawful.sound.others p hp] at hactivity
      cases hactivity
    -- The induction goes down from a request to the earlier one that holds it up.
    have hnone : ∀ q : { p // p ∈ party.processes }, ∀ stage,
        x.activity q ≠ .entering stage := by
      intro q
      induction q using (party.wellFounded_precedes x.cluster).induction with
      | _ q ih =>
          intro stage hactivity
          obtain ⟨p, hparked⟩ := h.exists_parkedOn (hstuck q) hactivity
          obtain ⟨hp, -, hprecedes⟩ := h.precedes_of_parkedOn hparked
          obtain ⟨stage', hactivity'⟩ :=
            h.entering_of_parkedOn (hstuck p) (houtside p) hparked
          exact ih ⟨p, hp⟩ hprecedes stage' hactivity'
    exact hnone ⟨p, hp⟩ stage hactivity
  · exact (h.precedes_of_parkedOn hparked).2
  · have hself := h.precedes_of_transGen hcycle
    rw [Stamp.precedes_irrefl] at hself
    cases hself

/-- The second of a pair is parked on the first, which is inside and has the earlier request. -/
theorem deadlock_freedom_pair : ∃ x, pair.CalmlyReachable x ∧ x.ParkedOn "P2" "P1" ∧
    (pair.stamp x.cluster "P1").precedes (pair.stamp x.cluster "P2") = true ∧
    ∀ p, ¬ Relation.TransGen x.ParkedOn p p := by
  have hplay : (pair.play Scene.Calm (fun y => pair.InTime y.cluster) together
      (Occasion.entry "P1" 5 ++ Occasion.entry "P2" 4)).any
        (fun x => (x.activity "P2").waitsFor x.cluster "P1") = true := by
    decide +kernel
  obtain ⟨x, hx, hparked⟩ := (Option.any_eq_true _ _).mp hplay
  have hreachable : pair.CalmlyReachable x :=
    ⟨together, assembled_assembly .., connected_assembly .., run_of_play _ _ _ hx⟩
  obtain ⟨-, hprecedes, hacyclic⟩ := deadlock_freedom pair hreachable
  exact ⟨x, hreachable, hparked, (hprecedes "P1" "P2" hparked).2, hacyclic⟩

end Party

end CriticalSection
