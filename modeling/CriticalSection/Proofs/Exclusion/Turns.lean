import CriticalSection.Proofs.Exclusion.Deeds

/-!
# What an occasion comes to

Whatever happens in a scene is a **turn**: a deed or a desertion of one process, while all others
are doing what they did, or something aside. Everything that is proved of runs is proved of turns.
-/

set_option autoImplicit false

namespace CriticalSection

variable {s : Extent}

/-! ## Taking down what has happened -/

/-- The process whose call an occasion concerns. -/
def Occasion.actor? : Occasion s → Option ProcessId
  | .begin p _ | .advance p _ | .hangUp p => some p
  | _ => none

namespace Scene

variable {x y : Scene s} {p q : ProcessId}

theorem activity_of_none (h : x.calls p = none) : x.activity p = Party.resting (x.admitted p) := by
  simp [activity, h, Party.resting]

theorem activity_of_some {call : Call s} (h : x.calls p = some call)
    (hadmitted : x.admitted p = false) : x.activity p = call.activity := by
  simp [activity, h, hadmitted]

theorem activity_of_admitted (h : x.admitted p = true) : x.activity p = .inside := by
  simp [activity, h]

/-- A process whose call is inside is inside, whether it has been let in by that call or before. -/
theorem inside_of_call {call : Call s} (h : x.calls p = some call)
    (hinside : call.activity = .inside) : x.Inside p := by
  unfold Inside activity
  rw [h]
  split
  · rfl
  · exact hinside

/-- **Nothing has happened to a process**: it makes the same call and is admitted as it was. -/
structure SameFor (x y : Scene s) (p : ProcessId) : Prop where
  calls : y.calls p = x.calls p
  admitted : y.admitted p = x.admitted p

theorem SameFor.activity (h : x.SameFor y p) : y.activity p = x.activity p := by
  unfold Scene.activity
  rw [h.calls, h.admitted]

theorem sameFor_commence (h : q ≠ p) (x : Scene s) (party : Party s) (errand : Errand) :
    x.SameFor (x.commence party p errand) q := by
  refine ⟨Function.update_of_ne h _ _, ?_⟩
  cases hleaves : errand.leaves <;> simp [commence, hleaves, Function.update_of_ne h]

theorem sameFor_proceed (h : q ≠ p) (x : Scene s) (call : Call s) (c : Cluster s) :
    x.SameFor (x.proceed p call c) q :=
  ⟨Function.update_of_ne h _ _, rfl⟩

theorem sameFor_conclude (h : q ≠ p) (x : Scene s) (admits : Bool) (c : Cluster s) :
    x.SameFor (x.conclude p admits c) q := by
  refine ⟨Function.update_of_ne h _ _, ?_⟩
  cases admits <;> simp [conclude, Function.update_of_ne h]

/-- Nothing happens to those whom an occasion does not concern. -/
theorem sameFor_of_step {party : Party s} {o : Occasion s} (h : x.step party o = some y)
    (hp : o.actor? ≠ some p) : x.SameFor y p := by
  cases o with
  | begin q errand =>
      simp only [step] at h
      split at h
      · obtain rfl := Option.some.inj h
        exact sameFor_commence (fun heq => hp (congrArg some heq.symm)) x party errand
      · cases h
  | advance q place =>
      have hne : p ≠ q := fun heq => hp (congrArg some heq.symm)
      simp only [step] at h
      split at h
      · cases h
      · split at h
        · cases h
        · obtain rfl := Option.some.inj h
          exact sameFor_proceed hne x _ _
        · obtain rfl := Option.some.inj h
          exact sameFor_conclude hne x _ _
  | hangUp q =>
      simp only [step] at h
      split at h
      · cases h
      · obtain rfl := Option.some.inj h
        exact sameFor_conclude (fun heq => hp (congrArg some heq.symm)) x _ _
  | _ =>
      obtain rfl := Option.some.inj h
      exact ⟨rfl, rfl⟩

theorem activity_commence (x : Scene s) (party : Party s) (p : ProcessId) (errand : Errand) :
    (x.commence party p errand).activity p =
      if x.admitted p && !errand.leaves then .inside
      else (errand.start (party.client p)).activity := by
  cases hadmitted : x.admitted p <;> cases hleaves : errand.leaves <;>
    simp [commence, activity, hadmitted, hleaves]

theorem activity_proceed (x : Scene s) (p : ProcessId) (call : Call s) (c : Cluster s) :
    (x.proceed p call c).activity p = if x.admitted p then .inside else call.activity := by
  simp [proceed, activity]

theorem activity_conclude (x : Scene s) (p : ProcessId) (admits : Bool) (c : Cluster s) :
    (x.conclude p admits c).activity p = Party.resting (x.admitted p || admits) := by
  rw [activity_of_none (by simp [conclude])]
  cases admits <;> simp [conclude]

end Scene

namespace Party

variable {party : Party s} {x y : Scene s} {p : ProcessId}

/-! ## Conduct -/

/-- **Clients conduct themselves** when their calls are their own and none that concerns the section
is in progress while its process has been let in. -/
structure Conducts (party : Party s) (x : Scene s) : Prop where
  proper : ∀ p call, x.calls p = some call → p ∈ party.processes ∧ party.Proper p call
  idle : ∀ p call, x.calls p = some call → x.admitted p = true → call.idle = true

/-- Clients still conduct themselves when one of them does, and nothing has happened to the
others. -/
theorem Conducts.of_sameFor (hx : party.Conducts x) (hsame : ∀ q, q ≠ p → x.SameFor y q)
    (hp : ∀ call, y.calls p = some call → p ∈ party.processes ∧ party.Proper p call ∧
      (y.admitted p = true → call.idle = true)) : party.Conducts y := by
  constructor
  · intro q call hcall
    by_cases hq : q = p
    · subst hq
      obtain ⟨hmem, hproper, -⟩ := hp call hcall
      exact ⟨hmem, hproper⟩
    · rw [(hsame q hq).calls] at hcall
      exact hx.proper q call hcall
  · intro q call hcall hadmitted
    by_cases hq : q = p
    · subst hq
      exact (hp call hcall).2.2 hadmitted
    · rw [(hsame q hq).calls] at hcall
      rw [(hsame q hq).admitted] at hadmitted
      exact hx.idle q call hcall hadmitted

theorem Conducts.commence (hx : party.Conducts x) (hp : p ∈ party.processes) {errand : Errand}
    (henters : (errand.enters && x.admitted p) = false) :
    party.Conducts (x.commence party p errand) := by
  refine hx.of_sameFor (fun q hq => Scene.sameFor_commence hq x party errand) fun call hcall => ?_
  simp only [Scene.commence, Function.update_self, Option.some.injEq] at hcall ⊢
  subst hcall
  refine ⟨hp, party.proper_start p errand, fun hadmitted => ?_⟩
  cases errand <;> simp_all [Errand.leaves, Errand.enters, Errand.start, Call.idle]

theorem Conducts.proceed (hx : party.Conducts x) {call call' : Call s}
    (hcall : x.calls p = some call) (hproper : party.Proper p call')
    (hidle : call'.idle = call.idle) (c : Cluster s) : party.Conducts (x.proceed p call' c) := by
  refine hx.of_sameFor (fun q hq => Scene.sameFor_proceed hq x call' c) fun call₁ hcall₁ => ?_
  simp only [Scene.proceed, Function.update_self, Option.some.injEq] at hcall₁ ⊢
  subst hcall₁
  exact ⟨(hx.proper p call hcall).1, hproper,
    fun hadmitted => hidle ▸ hx.idle p call hcall hadmitted⟩

theorem Conducts.conclude (hx : party.Conducts x) (p : ProcessId) (admits : Bool) (c : Cluster s) :
    party.Conducts (x.conclude p admits c) := by
  refine hx.of_sameFor (fun q hq => Scene.sameFor_conclude hq x admits c) fun call hcall => ?_
  simp [Scene.conclude] at hcall

/-! ## Turns -/

/-- **What an occasion comes to**: a deed of one process, a desertion, or something aside. -/
inductive Turn (party : Party s) (o : Occasion s) (x y : Scene s) : Prop
  | deed (p : ProcessId) (hp : p ∈ party.processes)
      (h : party.Deed p (x.activity p) x.cluster (y.activity p) y.cluster)
      (others : ∀ q, q ≠ p → y.activity q = x.activity q)
  | desertion (p : ProcessId) (hp : p ∈ party.processes) (ho : o = .hangUp p)
      (h : Desertion (x.activity p) x.cluster (y.activity p) y.cluster)
      (others : ∀ q, q ≠ p → y.activity q = x.activity q)
  | aside (h : party.Aside x.cluster y.cluster)
      (layout : (∀ b outage, o ≠ .setOutage b outage) → x.cluster.SameLayout y.cluster)
      (same : ∀ q, y.activity q = x.activity q)

/-- What becomes of a client that begins a call it may begin is a deed. -/
theorem deed_commence {errand : Errand} (hnone : x.calls p = none)
    (henters : (errand.enters && x.admitted p) = false) :
    party.Deed p (x.activity p) x.cluster ((x.commence party p errand).activity p) x.cluster := by
  have ha := Aside.refl party x.cluster
  have hl := Cluster.SameLayout.refl x.cluster
  rw [Scene.activity_of_none hnone, Scene.activity_commence]
  cases errand with
  | release =>
      rw [Errand.leaves, Bool.not_true, Bool.and_false]
      refine .leave ?_ ha hl
      cases x.admitted p
      · exact Or.inl rfl
      · exact Or.inr rfl
  | lineUp phase => cases x.admitted p <;> exact .aside ha hl
  | awaitPeers pause attempts => cases x.admitted p <;> exact .aside ha hl
  | acquire =>
      have hout : x.admitted p = false := henters
      rw [hout]
      exact .ask ha hl
  | visit duration ending =>
      have hout : x.admitted p = false := henters
      rw [hout]
      exact .ask ha hl
  | round pacing writer =>
      have hout : x.admitted p = false := henters
      rw [hout]
      exact .aside ha hl

theorem turn_begin {errand : Errand} (hx : party.Conducts x)
    (h : x.step party (.begin p errand) = some y) :
    party.Conducts y ∧ party.Turn (.begin p errand) x y := by
  simp only [Scene.step] at h
  split at h
  · next hguard =>
      obtain ⟨hp, hnone, henters⟩ := hguard
      obtain rfl := Option.some.inj h
      exact ⟨hx.commence hp henters,
        .deed p hp (deed_commence (Option.isNone_iff_eq_none.mp hnone) henters)
          fun q hq => (Scene.sameFor_commence hq x party errand).activity⟩
  · cases h

theorem turn_advance {place : Nat} (hx : party.Conducts x)
    (h : x.step party (.advance p place) = some y) :
    party.Conducts y ∧ party.Turn (.advance p place) x y := by
  simp only [Scene.step] at h
  split at h
  case h_1 => cases h
  next call hcall =>
    obtain ⟨hp, hproper⟩ := hx.proper p call hcall
    rcases hstep : call.step place x.cluster with ⟨move, c⟩
    obtain ⟨hnext, hfinish⟩ := deed_call hproper hstep
    -- A call that is made inside has nothing to do with the section.
    have hinside : x.admitted p = true →
        party.Deed p (x.activity p) x.cluster .inside c := by
      intro hadmitted
      obtain ⟨ha, hl, -⟩ := aside_call hproper (hx.idle p call hcall hadmitted) hstep
      rw [Scene.activity_of_admitted hadmitted]
      exact .aside ha hl
    rw [hstep] at h
    rcases move with _ | call' | outcome
    · cases h
    · obtain rfl := Option.some.inj h
      obtain ⟨hdeed, hproper', hidle⟩ := hnext call' rfl
      refine ⟨hx.proceed hcall hproper' hidle c, .deed p hp ?_
        fun q hq => (Scene.sameFor_proceed hq x call' c).activity⟩
      rw [Scene.activity_proceed]
      cases hadmitted : x.admitted p with
      | true => exact hinside hadmitted
      | false => exact Scene.activity_of_some hcall hadmitted ▸ hdeed
    · obtain rfl := Option.some.inj h
      refine ⟨hx.conclude p _ c, .deed p hp ?_
        fun q hq => (Scene.sameFor_conclude hq x _ c).activity⟩
      rw [Scene.activity_conclude]
      cases hadmitted : x.admitted p with
      | true => exact hinside hadmitted
      | false => exact Scene.activity_of_some hcall hadmitted ▸ hfinish outcome rfl

theorem turn_hangUp (hx : party.Conducts x) (h : x.step party (.hangUp p) = some y) :
    party.Conducts y ∧ party.Turn (.hangUp p) x y := by
  simp only [Scene.step] at h
  split at h
  case h_1 => cases h
  next call hcall =>
    obtain ⟨hp, hproper⟩ := hx.proper p call hcall
    obtain rfl := Option.some.inj h
    refine ⟨hx.conclude p _ _, ?_⟩
    have hothers : ∀ q, q ≠ p → (x.conclude p call.activity.isInside
        (call.hangUp x.cluster)).activity q = x.activity q :=
      fun q hq => (Scene.sameFor_conclude hq x _ _).activity
    have habandons := abandons_call hproper x.cluster
    have hconclude := x.activity_conclude p call.activity.isInside (call.hangUp x.cluster)
    cases hadmitted : x.admitted p with
    | true =>
        -- A call that is made inside has nothing to do with the section, and cannot be deserted.
        rcases habandons with ⟨ha, hl, -⟩ | hdesertion
        · refine .deed p hp ?_ hothers
          rw [hconclude, Scene.activity_of_admitted hadmitted, hadmitted]
          exact .aside ha hl
        · rw [Call.activity_of_idle (hx.idle p call hcall hadmitted)] at hdesertion
          cases hdesertion
    | false =>
        rw [hadmitted, Bool.false_or] at hconclude
        rcases habandons with ⟨ha, hl, hresting⟩ | hdesertion
        · refine .deed p hp ?_ hothers
          rw [hconclude, Scene.activity_of_some hcall hadmitted, ← hresting]
          exact .aside ha hl
        · refine .desertion p hp rfl ?_ hothers
          rw [hconclude, Scene.activity_of_some hcall hadmitted]
          exact hdesertion

/-- What concerns no client is aside when it leaves all coordinators and routers alone. -/
theorem turn_of_eq {o : Occasion s} {c : Cluster s} (hx : party.Conducts x)
    (hcoordinator : ∀ b, c.coordinator b = x.cluster.coordinator b)
    (hrouters : c.routers = x.cluster.routers)
    (layout : (∀ b outage, o ≠ .setOutage b outage) → x.cluster.SameLayout c) :
    party.Conducts { x with cluster := c } ∧ party.Turn o x { x with cluster := c } :=
  ⟨⟨hx.proper, hx.idle⟩, .aside (.of_eq party hcoordinator hrouters) layout fun _ => rfl⟩

/-- **Every step is a turn**, and clients conduct themselves throughout. -/
theorem turn_of_step (hx : party.Conducts x) {o : Occasion s} (h : x.step party o = some y) :
    party.Conducts y ∧ party.Turn o x y := by
  cases o with
  | begin p errand => exact turn_begin hx h
  | advance p place => exact turn_advance hx h
  | hangUp p => exact turn_hangUp hx h
  | cancel token =>
      obtain rfl := Option.some.inj h
      exact turn_of_eq hx (fun _ => rfl) rfl fun _ => ⟨fun _ => rfl, fun _ => rfl⟩
  | setOutage b outage =>
      obtain rfl := Option.some.inj h
      refine turn_of_eq hx (fun b' => ?_) rfl fun hne => absurd rfl (hne b outage)
      unfold Cluster.coordinator Cluster.setOutage
      rw [Cluster.brokers_withBroker]
      split
      · next heq => rw [heq]
      · rfl
  | refresh r =>
      obtain rfl := Option.some.inj h
      exact ⟨⟨hx.proper, hx.idle⟩, .aside (aside_refresh party x.cluster r)
        (fun _ => (x.cluster.keeps_refresh r).layout) fun _ => rfl⟩
  | setTime time =>
      obtain rfl := Option.some.inj h
      exact turn_of_eq hx (fun _ => rfl) rfl fun _ => ⟨fun _ => rfl, fun _ => rfl⟩

end Party

end CriticalSection
