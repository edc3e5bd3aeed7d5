import CriticalSection.Proofs.Coordinator.Waits
import CriticalSection.Proofs.Exclusion.Assembly
import CriticalSection.Proofs.Exclusion.Safety

/-!
# Subscribing anew

A process that subscribes anew gets a fresh record, with a clock that has heard of nobody. If it is
idle then, and nobody who is entering holds its permission, the others are where they would be if
it had never asked or answered, and mutual exclusion lasts. If somebody does hold its permission,
the next request of the process can precede that one and be granted by it, so both go inside.
-/

set_option autoImplicit false

namespace CriticalSection

variable {s : Extent}

/-! ## Definitions -/

/-- Whether a part of a fan-out has been granted what it asks for, also if it has not taken the
answer yet. -/
def Part.holds (c : Cluster s) : Part s → Bool
  | answered => true
  | parked b t => c.outcome? b t = some (.ok ())
  | _ => false

/-- Whether a client that is entering holds the permission of a process. -/
def Activity.holds (c : Cluster s) (p : ProcessId) : Activity s → Bool
  | .entering (.gathering _ _ fan) => fan.parts.any fun e => e.1 = p && e.2.holds c
  | .entering (.granted ..) => true
  | _ => false

/-- What may happen where processes may subscribe anew. -/
inductive Renewal (s : Extent)
  | occasion (o : Occasion s)
  /-- A process begins to subscribe. -/
  | subscribe (p : ProcessId)

/-- Whether a call is a subscription. -/
def Call.subscribes : Call s → Bool
  | subscribe .. => true
  | _ => false

/-- **An idle process**: it makes no call, it is not inside, and its record is free. -/
def Party.Idle (party : Party s) (x : Scene s) (p : ProcessId) : Prop :=
  (x.calls p).isNone ∧ x.admitted p = false ∧ (party.record x.cluster p).standing = .free

instance (party : Party s) (x : Scene s) (p : ProcessId) : Decidable (party.Idle x p) :=
  inferInstanceAs (Decidable (_ ∧ _ ∧ _))

/-- Nobody who is entering holds the permission of a process. -/
def Party.Unclaimed (party : Party s) (x : Scene s) (p : ProcessId) : Prop :=
  ∀ q ∈ party.processes, q ≠ p → (x.activity q).holds x.cluster p = false

instance (party : Party s) (x : Scene s) (p : ProcessId) : Decidable (party.Unclaimed x p) :=
  inferInstanceAs (Decidable (∀ q ∈ party.processes, _))

namespace Scene

/-- Takes down that a process has begun to subscribe. -/
def rejoin (x : Scene s) (party : Party s) (p : ProcessId) : Scene s :=
  { x with calls := Function.update x.calls p (some (.subscribe (party.client p) .start)) }

/-- **The scene after what has happened**, if it can arise. Only idle processes subscribe. -/
def renew (party : Party s) (x : Scene s) : Renewal s → Option (Scene s)
  | .occasion o => x.step party o
  | .subscribe p => if p ∈ party.processes ∧ party.Idle x p then some (x.rejoin party p) else none

/-- The process whose subscription comes to a coordinator in the next move, and the broker it comes
to. -/
def arrival? (x : Scene s) : Renewal s → Option (ProcessId × Fin s.brokers)
  | .occasion (.advance p _) =>
    match x.calls p with
    | some (.subscribe _ (.routed b)) => some (p, b)
    | _ => none
  | _ => none

/-- A scene without the subscriptions that are in progress. -/
def settled (x : Scene s) : Scene s :=
  { x with calls := fun p => (x.calls p).filter fun call => !call.subscribes }

end Scene

/-- **Scenes that are reached with renewals**: an assembled party has come to them by any occasions
and by processes that subscribe anew, each at its home and when it is permitted. -/
inductive Party.Renewed (party : Party s) (permits : Scene s → ProcessId → Prop) : Scene s → Prop
  | start {x : Scene s} (assembled : party.Assembled x) : Renewed party permits x
  | step {x y : Scene s} (before : Renewed party permits x) (r : Renewal s)
      (next : x.renew party r = some y)
      (permitted : ∀ e ∈ x.arrival? r, e.2 = party.host e.1 ∧ permits x e.1)
      (inTime : party.InTime y.cluster) : Renewed party permits y

section Replay

variable (party : Party s) (permits : Scene s → ProcessId → Prop) [∀ x p, Decidable (permits x p)]

/-- The scene to which some renewals lead, if they can be made. -/
def Party.replay (x : Scene s) : List (Renewal s) → Option (Scene s)
  | [] => some x
  | r :: rest =>
    match x.renew party r with
    | none => none
    | some y =>
      if (∀ e ∈ x.arrival? r, e.2 = party.host e.1 ∧ permits x e.1) ∧ party.InTime y.cluster then
        replay y rest
      else none

/-- **What can be replayed is reached.** -/
theorem Party.renewed_of_replay {renewals : List (Renewal s)} {x y : Scene s}
    (hx : party.Renewed permits x) (h : party.replay permits x renewals = some y) :
    party.Renewed permits y := by
  induction renewals generalizing x with
  | nil =>
      obtain rfl := Option.some.inj h
      exact hx
  | cons r rest ih =>
      simp only [replay] at h
      split at h
      · cases h
      · next z hnext =>
          split at h
          · next hguard => exact ih (hx.step r hnext hguard.1 hguard.2) h
          · cases h

end Replay

/-! ## Subscriptions in progress -/

namespace Scene

variable {x y : Scene s} {p : ProcessId} {party : Party s}

/-- A subscription has nothing to do with what a client does towards the section. -/
theorem activity_settled (x : Scene s) (p : ProcessId) : x.settled.activity p = x.activity p := by
  unfold activity
  dsimp only [settled]
  cases hcall : x.calls p with
  | none => rfl
  | some call => cases call <;> rfl

theorem settled_update (x : Scene s) (p : ProcessId) (call : Option (Call s)) (c : Cluster s)
    (admitted : ProcessId → Bool) :
    settled ⟨c, Function.update x.calls p call, admitted⟩ =
      ⟨c, Function.update x.settled.calls p (call.filter fun call => !call.subscribes),
        admitted⟩ := by
  simp only [settled, Scene.mk.injEq, and_true, true_and]
  funext q
  by_cases hq : q = p
  · subst hq
    simp
  · simp [hq]

theorem calls_settled {call : Call s} (hcall : x.calls p = some call)
    (hother : call.subscribes = false) : x.settled.calls p = some call := by
  simp [settled, hcall, Option.filter, hother]

end Scene

/-- A call that goes on is of the same kind. -/
theorem Call.subscribes_step {call call' : Call s} {place : Nat} {c c' : Cluster s}
    (h : call.step place c = (.next call', c')) : call'.subscribes = call.subscribes := by
  cases goesOn_of_step (congrArg Prod.fst h) <;> rfl

theorem Errand.subscribes_start (client : Client s) (errand : Errand) :
    (errand.start client).subscribes = false := by
  cases errand <;> rfl

namespace Scene

variable {x y : Scene s} {party : Party s}

theorem settled_commence (x : Scene s) (p : ProcessId) (errand : Errand) :
    (x.commence party p errand).settled = x.settled.commence party p errand := by
  rw [commence, commence, settled_update]
  simp [Option.filter, Errand.subscribes_start, settled]

theorem settled_proceed (x : Scene s) (p : ProcessId) {call : Call s} (h : call.subscribes = false)
    (c : Cluster s) : (x.proceed p call c).settled = x.settled.proceed p call c := by
  rw [proceed, proceed, settled_update]
  simp [Option.filter, h, settled]

theorem settled_conclude (x : Scene s) (p : ProcessId) (admits : Bool) (c : Cluster s) :
    (x.conclude p admits c).settled = x.settled.conclude p admits c := by
  rw [conclude, conclude, settled_update]
  simp [settled]

/-- **What happens beside the subscriptions in progress** happens as if there were none. -/
theorem step_settled {o : Occasion s} (h : x.step party o = some y)
    (hother : ∀ p call, o.actor? = some p → x.calls p = some call → call.subscribes = false) :
    x.settled.step party o = some y.settled := by
  cases o with
  | begin p errand =>
      simp only [step] at h ⊢
      split at h
      · next hguard =>
          obtain ⟨hp, hnone, henters⟩ := hguard
          obtain rfl := Option.some.inj h
          have hnone' : (x.settled.calls p).isNone := by
            rw [Option.isNone_iff_eq_none] at hnone ⊢
            simp [settled, hnone]
          rw [if_pos ⟨hp, hnone', henters⟩, settled_commence]
      · cases h
  | advance p place =>
      simp only [step] at h ⊢
      cases hcall : x.calls p with
      | none =>
          rw [hcall] at h
          cases h
      | some call =>
          have hsame := hother p call rfl hcall
          have hcluster : x.settled.cluster = x.cluster := rfl
          rw [calls_settled hcall hsame]
          rw [hcall] at h
          dsimp only at h ⊢
          rw [hcluster]
          rcases hstep : call.step place x.cluster with ⟨_ | call' | outcome, c⟩
          · rw [hstep] at h
            cases h
          · rw [hstep] at h
            obtain rfl := Option.some.inj h
            exact congrArg some
              (x.settled_proceed p ((Call.subscribes_step hstep).trans hsame) c).symm
          · rw [hstep] at h
            obtain rfl := Option.some.inj h
            exact congrArg some (x.settled_conclude p _ c).symm
  | hangUp p =>
      simp only [step] at h ⊢
      cases hcall : x.calls p with
      | none =>
          rw [hcall] at h
          cases h
      | some call =>
          rw [calls_settled hcall (hother p call rfl hcall)]
          rw [hcall] at h
          obtain rfl := Option.some.inj h
          exact congrArg some (x.settled_conclude p _ _).symm
  | _ =>
      obtain rfl := Option.some.inj h
      rfl

/-- Nobody begins to subscribe at an occasion. -/
theorem subscribes_of_step {o : Occasion s} {p : ProcessId} {call : Call s}
    (h : x.step party o = some y) (hp : o.actor? = some p)
    (hother : ∀ call, x.calls p = some call → call.subscribes = false)
    (hcall : y.calls p = some call) : call.subscribes = false := by
  cases o with
  | begin q errand =>
      obtain rfl := Option.some.inj hp
      simp only [step] at h
      split at h
      · obtain rfl := Option.some.inj h
        simp only [commence, Function.update_self, Option.some.injEq] at hcall
        exact hcall ▸ Errand.subscribes_start _ errand
      · cases h
  | advance q place =>
      obtain rfl := Option.some.inj hp
      simp only [step] at h
      split at h
      · cases h
      · next before hbefore =>
          rcases hstep : before.step place x.cluster with ⟨_ | call' | outcome, c⟩
          · rw [hstep] at h
            cases h
          · rw [hstep] at h
            obtain rfl := Option.some.inj h
            simp only [proceed, Function.update_self, Option.some.injEq] at hcall
            rw [← hcall, Call.subscribes_step hstep, hother before hbefore]
          · rw [hstep] at h
            obtain rfl := Option.some.inj h
            simp [conclude] at hcall
  | hangUp q =>
      obtain rfl := Option.some.inj hp
      simp only [step] at h
      split at h
      · cases h
      · obtain rfl := Option.some.inj h
        simp [conclude] at hcall
  | _ => cases hp

end Scene

namespace Party

variable {party : Party s} {c c' : Cluster s} {p q : ProcessId}

/-! ## A fresh record -/

/-- The cluster after a process has subscribed at its home. -/
def subscribe (party : Party s) (c : Cluster s) (p : ProcessId) : Cluster s :=
  c.withCoordinator (party.host p) ((c.coordinator (party.host p)).subscribe p)

theorem Settled.changes_subscribe (h : party.Settled c) (hp : p ∈ party.processes) :
    Changes (c.coordinator (party.host p)) ((c.coordinator (party.host p)).subscribe p) p
      fun _ => .fresh := by
  intro q
  have hrecord := h.getElem?_records hp
  simp only [Coordinator.subscribe, hrecord, Coordinator.records_withRecord,
    Coordinator.records_settle]
  split
  · next hq =>
      subst hq
      rw [hrecord]
      rfl
  · rfl

theorem Settled.record_subscribe (h : party.Settled c) (hp : p ∈ party.processes) (q : ProcessId) :
    party.record (party.subscribe c p) q = if q = p then .fresh else party.record c q :=
  h.record_of_changes hp (h.changes_subscribe hp) q

theorem Settled.subscribe (h : party.Settled c) (hp : p ∈ party.processes) :
    party.Settled (party.subscribe c p) :=
  h.of_changes (h.changes_subscribe hp) ((h.orderly _).ends_subscribe p).orderly

/-- A process for which nobody waits answers nobody when it subscribes. -/
theorem Settled.answers_subscribe (h : party.Settled c) (hp : p ∈ party.processes)
    (hqueue : (party.record c p).queue = []) (b : Fin s.brokers) :
    ((party.subscribe c p).coordinator b).answers = (c.coordinator b).answers := by
  unfold Party.subscribe
  rw [Cluster.coordinator_withCoordinator]
  split
  · next heq =>
      subst heq
      simp only [Coordinator.subscribe, h.getElem?_records hp, Record.tickets, hqueue]
      rfl
  · rfl

/-! ### What the others find -/

section Subscribe

variable (h : party.Settled c) (hp : p ∈ party.processes)
  (hqueue : (party.record c p).queue = [])

include h hp

theorem Settled.stamp_subscribe (hne : q ≠ p) :
    party.stamp (party.subscribe c p) q = party.stamp c q := by
  rw [stamp, h.record_subscribe hp, if_neg hne, stamp]

theorem Settled.cleared_subscribe {q' : ProcessId} (hne : q ≠ p) (hne' : q' ≠ p)
    (hcleared : party.Cleared c q q') : party.Cleared (party.subscribe c p) q q' := by
  unfold Cleared
  rw [h.stamp_subscribe hp hne, h.record_subscribe hp, if_neg hne']
  exact hcleared

include hqueue

/-- The permissions that are not of the process stay as they are. -/
theorem Settled.fitsPart_subscribe {q' : ProcessId} (hne : q ≠ p) {part : Part s}
    (hholds : q' = p → part.holds c = false) (hpart : party.FitsPart c q q' part) :
    party.FitsPart (party.subscribe c p) q q' part := by
  cases part with
  | parked b t =>
      obtain ⟨rfl, hplace, htime, hwaits⟩ := hpart
      by_cases hq' : q' = p
      · subst hq'
        -- Nobody waits for the process, and nobody has been granted anything by it.
        rcases hwaits with hwaits | ⟨hgranted, -⟩
        · rw [hqueue] at hwaits
          cases hwaits
        · have hnone := hholds rfl
          simp [Part.holds, Cluster.outcome?_of_granted hgranted] at hnone
      · refine ⟨rfl, hplace, ?_, ?_⟩
        · rw [h.stamp_subscribe hp hne, h.record_subscribe hp, if_neg hq']
          exact htime
        · rw [h.stamp_subscribe hp hne, h.record_subscribe hp, if_neg hq',
            h.answers_subscribe hp hqueue]
          exact hwaits.imp_right fun ⟨hgranted, hcleared⟩ =>
            ⟨hgranted, h.cleared_subscribe hp hne hq' hcleared⟩
  | answered =>
      have hq' : q' ≠ p := fun hq' => by simpa [Part.holds] using hholds hq'
      exact h.cleared_subscribe hp hne hq' hpart
  | _ => exact hpart

/-- **The others find what they have left**, unless they hold the permission of the process. -/
theorem Settled.fits_subscribe (hne : q ≠ p) {a : Activity s}
    (hholds : a.holds c p = false) (ha : party.Fits c q a) :
    party.Fits (party.subscribe c p) q a := by
  have hrecord := h.record_subscribe hp q
  rw [if_neg hne] at hrecord
  match a, ha with
  | .outside, ha => exact ha
  | .entering .start, ha => exact ha
  | .entering (.routed own), ha => exact ha
  | .entering (.gathering own time fan), ha =>
      have hgathers : party.Gathers c q own time fan := ha
      refine ⟨hgathers.own, hrecord ▸ hgathers.requested, hrecord ▸ hgathers.announced,
        hgathers.peers, fun e he => ?_⟩
      refine h.fitsPart_subscribe hp hqueue hne (fun heq => ?_) (hgathers.parts e he)
      have hnone := List.any_eq_false.mp hholds e he
      simpa [heq] using hnone
  | .entering (.withdrawing own), ha => exact ha
  | .entering (.granted own time), _ => cases hholds
  | .inside, ha =>
      show (party.record (party.subscribe c p) q).standing = .acquired
      rw [hrecord]
      exact ha
  | .leaving .start, ha => exact ha
  | .leaving (.routed own), ha => exact ha

end Subscribe

/-! ## Runs with renewals -/

/-- Nobody waits for a process that is free. -/
def Clear (party : Party s) (c : Cluster s) : Prop :=
  ∀ p, (party.record c p).standing = .free → (party.record c p).queue = []

/-- **What holds of every scene that is reached with renewals.** -/
structure Composed (party : Party s) (x : Scene s) : Prop where
  conducts : party.Conducts x.settled
  consistent : party.Consistent x.cluster x.activity
  exclusive : party.Exclusive x.cluster
  clear : party.Clear x.cluster
  inTime : party.InTime x.cluster
  /-- Who subscribes is idle but for that. -/
  subscribing : ∀ p client stage, x.calls p = some (.subscribe client stage) →
    p ∈ party.processes ∧ client = party.client p ∧ x.admitted p = false ∧
      (party.record x.cluster p).standing = .free

variable {x y : Scene s} {o : Occasion s}

/-- **A process that upholds what it owes the others** does not go inside while another is there:
that one would have to have cleared it. -/
theorem Upholds.exclusive {a' : Activity s} (h : party.Upholds p c a' c')
    (hexclusive : party.Exclusive c) : party.Exclusive c' := by
  -- If the process is acquired now, it was before, or all others have cleared it.
  have hself : ∀ q ∈ party.processes, q ≠ p → (party.record c' p).standing = .acquired →
      p ∈ party.processes → (party.record c' q).standing ≠ .acquired := by
    intro q hq hne hacquired hp hacquired'
    by_cases hbefore : (party.record c p).standing = .acquired
    · rw [(h.spares q hq hne).standing] at hacquired'
      exact hne (hexclusive q hq p hp hacquired' hbefore)
    · exact (h.backed (backed_of_ne hbefore) hacquired q hq hne).standing_ne hacquired'
  intro q hq q' hq' hacquired hacquired'
  by_cases hne : q = p
  · subst hne
    exact Decidable.byContradiction fun hne' =>
      hself q' hq' (Ne.symm hne') hacquired hq hacquired'
  · by_cases hne' : q' = p
    · subst hne'
      exact absurd hacquired (hself q hq hne hacquired' hq')
    · rw [(h.spares q hq hne).standing] at hacquired
      rw [(h.spares q' hq' hne').standing] at hacquired'
      exact hexclusive q hq q' hq' hacquired hacquired'

theorem Tidy.clear (h : party.Tidy c c') (hclear : party.Clear c) : party.Clear c' := by
  intro q hfree
  rcases h q hfree with hnone | ⟨hfree', hsub⟩
  · exact hnone
  · rw [hclear q hfree'] at hsub
    exact List.subset_nil.mp hsub

theorem Aside.exclusive (h : party.Aside c c') (hexclusive : party.Exclusive c) :
    party.Exclusive c' := by
  intro p hp q hq hacquired hacquired'
  rw [h.record] at hacquired hacquired'
  exact hexclusive p hp q hq hacquired hacquired'

/-- A client that is outside before and after a turn has left the standing of its process as it
was. -/
theorem Turn.standing_of_outside (h : party.Turn o x y)
    (hx : party.Consistent x.cluster x.activity) (hbefore : party.InTime x.cluster)
    (hafter : party.InTime y.cluster) (hp : p ∈ party.processes)
    (hpx : x.activity p = .outside) (hpy : y.activity p = .outside) :
    (party.record y.cluster p).standing = (party.record x.cluster p).standing := by
  cases h with
  | deed q hq hdeed others =>
      have heffect := hx.settled.effect_deed hq (hx.fits q hq) hbefore hafter hdeed
      by_cases hne : p = q
      · subst hne
        rw [hpx, hpy] at heffect
        cases heffect with
        | aside h => rw [h.record]
        | fall _ h _ => rw [h.record]
      · exact ((heffect.upholds hx.settled hq hbefore (hx.fits q hq)).spares p hp hne).standing
  | desertion q hq _ hdesertion others =>
      by_cases hne : p = q
      · subst hne
        rw [hpx] at hdesertion
        cases hdesertion
      · exact ((hdesertion.upholds hx.settled hq (hx.fits q hq)).spares p hp hne).standing
  | aside h _ _ => rw [h.record]

theorem Assembled.composed (h : party.Assembled x) : party.Composed x := by
  have hsettled : x.settled = x := by
    have hcalls : x.settled.calls = x.calls := by
      funext p
      simp [Scene.settled, (h.idle p).1]
    exact congrArg (fun calls => ({ x with calls := calls } : Scene s)) hcalls
  refine ⟨hsettled.symm ▸ h.conducts, h.sound.toConsistent, fun p _ q _ hacquired => ?_,
    fun p _ => ?_, h.inTime, fun p client stage hcall => ?_⟩
  · rw [h.record] at hacquired
    cases hacquired
  · rw [h.record]
    rfl
  · rw [(h.idle p).1] at hcall
    cases hcall

/-- **An occasion that concerns no subscription.** -/
theorem Composed.occasion (h : party.Composed x) (hstep : x.step party o = some y)
    (hother : ∀ p call, o.actor? = some p → x.calls p = some call → call.subscribes = false)
    (htime : party.InTime y.cluster) : party.Composed y := by
  obtain ⟨hconducts, hturn⟩ := turn_of_step h.conducts (Scene.step_settled hstep hother)
  have hx : party.Consistent x.settled.cluster x.settled.activity := by
    rw [show x.settled.activity = x.activity from funext x.activity_settled]
    exact h.consistent
  have hy := hturn.consistent hx h.inTime htime
  rw [show y.settled.activity = y.activity from funext y.activity_settled] at hy
  have hupholds := hturn.upholds hx h.inTime htime
  refine ⟨hconducts, hy, ?_, ?_, htime, fun p client stage hcall => ?_⟩
  · rcases hupholds with ⟨p, -, hupholds, -⟩ | ⟨haside, -⟩
    · exact hupholds.exclusive h.exclusive
    · exact haside.exclusive h.exclusive
  · rcases hupholds with ⟨p, -, hupholds, -⟩ | ⟨haside, -⟩
    · exact hupholds.tidy.clear h.clear
    · exact haside.tidy.clear h.clear
  · have hactor : o.actor? ≠ some p := by
      intro hactor
      have := Scene.subscribes_of_step hstep hactor (fun call => hother p call hactor) hcall
      cases this
    have hsame := Scene.sameFor_of_step hstep hactor
    have hcall' := hcall
    rw [hsame.calls] at hcall'
    obtain ⟨hp, hclient, hadmitted, hfree⟩ := h.subscribing p client stage hcall'
    refine ⟨hp, hclient, hsame.admitted.trans hadmitted, ?_⟩
    have houtside : x.settled.activity p = .outside := by
      rw [x.activity_settled, Scene.activity_of_some hcall' hadmitted]
      rfl
    have hstanding := hturn.standing_of_outside hx h.inTime htime hp houtside (by
      rw [y.activity_settled, hsame.activity, ← x.activity_settled, houtside])
    exact hstanding.trans hfree

/-- **A change to the subscription of one process** and to the cluster, with which everybody goes
on. -/
theorem Composed.subscription (h : party.Composed x) {call : Option (Call s)}
    (hp : p ∈ party.processes) (hadmitted : x.admitted p = false)
    (hbefore : x.settled.calls p = none)
    (hafter : ∀ call', call = some call' → ∃ stage, call' = .subscribe (party.client p) stage)
    (hconsistent : party.Consistent c' x.activity) (hexclusive : party.Exclusive c')
    (hclear : party.Clear c') (htime : party.InTime c')
    (hstanding : ∀ q, q = p ∨ (party.record x.cluster q).standing = .free →
      (party.record c' q).standing = .free) :
    party.Composed ⟨c', Function.update x.calls p call, x.admitted⟩ := by
  have hfilter : call.filter (fun call => !call.subscribes) = none := by
    cases call with
    | none => rfl
    | some call' =>
        obtain ⟨stage, rfl⟩ := hafter call' rfl
        rfl
  have hsettled : Scene.settled ⟨c', Function.update x.calls p call, x.admitted⟩ =
      ⟨c', x.settled.calls, x.admitted⟩ := by
    rw [Scene.settled_update, hfilter, ← hbefore, Function.update_eq_self]
  have hactivity : Scene.activity ⟨c', Function.update x.calls p call, x.admitted⟩ =
      x.activity := by
    funext q
    rw [← Scene.activity_settled, hsettled, ← x.activity_settled]
    rfl
  refine ⟨hsettled.symm ▸ ⟨h.conducts.proper, h.conducts.idle⟩, hactivity.symm ▸ hconsistent,
    hexclusive, hclear, htime, fun q client stage hcall => ?_⟩
  replace hcall : Function.update x.calls p call q = some (.subscribe client stage) := hcall
  by_cases hq : q = p
  · subst hq
    rw [Function.update_self] at hcall
    obtain ⟨stage', heq⟩ := hafter _ hcall
    exact ⟨hp, (Call.subscribe.inj heq).1, hadmitted, hstanding q (Or.inl rfl)⟩
  · rw [Function.update_of_ne hq] at hcall
    obtain ⟨hmem, hclient, hadmitted', hfree⟩ := h.subscribing q client stage hcall
    exact ⟨hmem, hclient, hadmitted', hstanding q (Or.inr hfree)⟩

/-- What is aside lets a subscription go on or end. -/
theorem Composed.subscription_aside (h : party.Composed x) {call : Option (Call s)}
    (hp : p ∈ party.processes) (hadmitted : x.admitted p = false)
    (hbefore : x.settled.calls p = none)
    (hafter : ∀ call', call = some call' → ∃ stage, call' = .subscribe (party.client p) stage)
    (hfree : (party.record x.cluster p).standing = .free) (haside : party.Aside x.cluster c') :
    party.Composed ⟨c', Function.update x.calls p call, x.admitted⟩ := by
  refine h.subscription hp hadmitted hbefore hafter
    ⟨haside.settled h.consistent.settled, fun q hq => (haside.spares q).fits hq
      (h.consistent.fits q hq), h.consistent.others⟩
    (haside.exclusive h.exclusive) (haside.tidy.clear h.clear) (fun q hq => ?_) fun q hq => ?_
  · rw [haside.record]
    exact h.inTime q hq
  · rw [haside.record]
    rcases hq with rfl | hq
    · exact hfree
    · exact hq

/-- **An idle process begins to subscribe.** -/
theorem Composed.rejoin (h : party.Composed x) (hp : p ∈ party.processes)
    (hidle : party.Idle x p) : party.Composed (x.rejoin party p) := by
  obtain ⟨hnone, hadmitted, hfree⟩ := hidle
  refine h.subscription_aside hp hadmitted ?_ (fun call heq => ?_) hfree (.refl party _)
  · simp [Scene.settled, Option.isNone_iff_eq_none.mp hnone]
  · exact ⟨.start, (Option.some.inj heq).symm⟩

/-- **A subscription comes to the home of its process**, where nobody who is entering holds the
permission of the process. -/
theorem Composed.arrive (h : party.Composed x) (hp : p ∈ party.processes)
    (hadmitted : x.admitted p = false) (hbefore : x.settled.calls p = none)
    (houtside : x.activity p = .outside)
    (hfree : (party.record x.cluster p).standing = .free)
    (hunclaimed : party.Unclaimed x p) :
    party.Composed ⟨party.subscribe x.cluster p, Function.update x.calls p none, x.admitted⟩ := by
  have hsettled := h.consistent.settled
  have hrecord := hsettled.record_subscribe hp
  refine h.subscription hp hadmitted hbefore (by simp)
    ⟨hsettled.subscribe hp, fun q hq => ?_, h.consistent.others⟩ (fun q hq q' hq' ha ha' => ?_)
    (fun q hq => ?_) (fun q hq => ?_) fun q hq => ?_
  · by_cases hne : q = p
    · rw [hne, houtside]
      trivial
    · exact hsettled.fits_subscribe hp (h.clear p hfree) hne (hunclaimed q hq hne)
        (h.consistent.fits q hq)
  · rw [hrecord] at ha ha'
    split at ha
    · cases ha
    · split at ha'
      · cases ha'
      · exact h.exclusive q hq q' hq' ha ha'
  · rw [hrecord] at hq ⊢
    split
    · rfl
    · next hne =>
        rw [if_neg hne] at hq
        exact h.clear q hq
  · rw [hrecord]
    split
    · decide
    · exact h.inTime q hq
  · rw [hrecord]
    split
    · rfl
    · next hne => exact hq.resolve_left hne

theorem aside_subscribe (party : Party s) (client : Client s) (c : Cluster s) :
    party.Aside c (Subscribe.step client .start c).2 := by
  have haside := aside_route party c client.router client.process
  unfold Subscribe.step
  dsimp only
  split
  · exact .refl party c
  · split
    · next heq =>
        rw [heq] at haside
        exact haside
    · next heq =>
        rw [heq] at haside
        split <;> exact haside

/-- **The moves of a subscription.** -/
theorem Composed.advance (h : party.Composed x) {client : Client s} {stage : Subscribe s}
    (hcall : x.calls p = some (.subscribe client stage)) {place : Nat}
    (hstep : x.step party (.advance p place) = some y)
    (hpermitted : ∀ b, stage = .routed b → b = party.host p ∧ party.Unclaimed x p) :
    party.Composed y := by
  obtain ⟨hp, rfl, hadmitted, hfree⟩ := h.subscribing p client stage hcall
  have hprocess := party.process_client p hp
  have hbefore : x.settled.calls p = none := by
    simp [Scene.settled, hcall, Call.subscribes, Option.filter]
  have houtside : x.activity p = .outside := Scene.activity_of_some hcall hadmitted
  have hnext : ∀ c' stage', party.Aside x.cluster c' →
      party.Composed (x.proceed p (.subscribe (party.client p) stage') c') :=
    fun c' stage' haside => h.subscription_aside hp hadmitted hbefore
      (fun call heq => ⟨stage', (Option.some.inj heq).symm⟩) hfree haside
  have hends : ∀ c', party.Aside x.cluster c' →
      party.Composed (x.conclude p false c') :=
    fun c' haside => h.subscription_aside hp hadmitted hbefore (by simp) hfree haside
  cases stage with
  | start =>
      have haside := aside_subscribe party (party.client p) x.cluster
      rcases hs : Subscribe.step (party.client p) .start x.cluster with ⟨move, c'⟩
      rw [hs] at haside
      simp only [Scene.step, hcall, Call.step, hs] at hstep
      rcases move with _ | stage | outcome
      · cases hstep
      · obtain rfl := Option.some.inj hstep
        exact hnext c' stage haside
      · obtain rfl := Option.some.inj hstep
        exact hends c' haside
  | routed b =>
      obtain ⟨rfl, hunclaimed⟩ := hpermitted b rfl
      simp only [Scene.step, hcall, Call.step, Subscribe.step, Cluster.call_eq, hprocess] at hstep
      cases houtage : (x.cluster.brokers.get (party.host p)).outage with
      | some e =>
          rw [houtage] at hstep
          obtain rfl := Option.some.inj hstep
          exact hends x.cluster (.refl party x.cluster)
      | none =>
          rw [houtage] at hstep
          obtain rfl := Option.some.inj hstep
          exact h.arrive hp hadmitted hbefore houtside hfree hunclaimed

/-- **An occasion that concerns a subscription** is a move of it, or its caller hangs up. -/
theorem Composed.occasion_subscription (h : party.Composed x) {client : Client s}
    {stage : Subscribe s} (hcall : x.calls p = some (.subscribe client stage))
    (hactor : o.actor? = some p) (hstep : x.step party o = some y)
    (hpermitted : ∀ e ∈ x.arrival? (.occasion o), e.2 = party.host e.1 ∧ party.Unclaimed x e.1) :
    party.Composed y := by
  cases o with
  | begin q errand =>
      obtain rfl := Option.some.inj hactor
      simp [Scene.step, hcall] at hstep
  | advance q place =>
      obtain rfl := Option.some.inj hactor
      refine h.advance hcall hstep fun b heq => hpermitted (_, b) ?_
      simp [Scene.arrival?, hcall, heq]
  | hangUp q =>
      obtain rfl := Option.some.inj hactor
      obtain ⟨hp, -, hadmitted, hfree⟩ := h.subscribing _ client stage hcall
      simp only [Scene.step, hcall] at hstep
      obtain rfl := Option.some.inj hstep
      refine h.subscription_aside hp hadmitted ?_ (by simp) hfree (.refl party _)
      simp [Scene.settled, hcall, Call.subscribes, Option.filter]
  | _ => cases hactor

/-- **What holds with renewals** that are made while nobody who is entering holds the permission. -/
theorem Renewed.composed (h : party.Renewed party.Unclaimed x) : party.Composed x := by
  induction h with
  | start assembled => exact assembled.composed
  | @step x y before r next permitted inTime ih =>
      cases r with
      | subscribe p =>
          simp only [Scene.renew] at next
          split at next
          · next hguard =>
              obtain rfl := Option.some.inj next
              exact ih.rejoin hguard.1 hguard.2
          · cases next
      | occasion o =>
          rcases Classical.em (∃ p client stage, o.actor? = some p ∧
            x.calls p = some (.subscribe client stage)) with
              ⟨p, client, stage, hactor, hcall⟩ | hnone
          · exact ih.occasion_subscription hcall hactor next permitted
          · refine ih.occasion next (fun p call hactor hcall => ?_) inTime
            cases call with
            | subscribe client stage => exact absurd ⟨p, client, stage, hactor, hcall⟩ hnone
            | _ => rfl

/-! ## Mutual exclusion -/

/-- **Mutual exclusion lasts when idle processes subscribe anew**, at their homes, and each of them
while nobody who is entering holds its permission. -/
theorem mutual_exclusion_renewed (party : Party s)
    (h : party.Renewed party.Unclaimed x) :
    (∀ p q, x.Inside p → x.Inside q → p = q) ∧
    ∀ (b b' : Fin s.brokers) (p q : ProcessId) (r r' : Record),
      (x.cluster.coordinator b).records[p]? = some r → r.standing = .acquired →
      (x.cluster.coordinator b').records[q]? = some r' → r'.standing = .acquired →
      p = q ∧ b = b' := by
  have hcomposed := h.composed
  refine ⟨fun p q hp hq => ?_, fun b b' p q r r' hr hacquired hr' hacquired' => ?_⟩
  · obtain ⟨hp, hpacquired⟩ := hcomposed.consistent.acquired_of_inside hp
    obtain ⟨hq, hqacquired⟩ := hcomposed.consistent.acquired_of_inside hq
    exact hcomposed.exclusive p hp q hq hpacquired hqacquired
  · exact hcomposed.exclusive.eq_of_acquired hcomposed.consistent.settled hr hacquired hr'
      hacquired'

/-- The renewals by which a process of a pair subscribes anew. -/
def renewal (p : ProcessId) : List (Renewal s) :=
  [.subscribe p, .occasion (.advance p 0), .occasion (.advance p 0)]

/-- The first of a pair is inside when the second subscribes anew and asks for the section. -/
theorem mutual_exclusion_renewed_pair : ∃ x, pair.Renewed pair.Unclaimed x ∧ x.Inside "P1" ∧
    ∀ q, x.Inside q → q = "P1" := by
  have hreplay : (pair.replay pair.Unclaimed together
      ((Occasion.entry "P1" 5).map .occasion ++ renewal "P2" ++
        (Occasion.entry "P2" 4).map .occasion)).any
        (fun x => (x.activity "P1").isInside) = true := by
    decide +kernel
  obtain ⟨x, hx, hinside⟩ := (Option.any_eq_true _ _).mp hreplay
  have hrenewed := renewed_of_replay pair pair.Unclaimed (.start (assembled_assembly ..)) hx
  have hp : x.Inside "P1" := Activity.isInside_iff.mp hinside
  exact ⟨x, hrenewed, hp, fun q hq => (mutual_exclusion_renewed pair hrenewed).1 q "P1" hq hp⟩

/-- **It is not so** that idle processes may subscribe anew at any time: the first of a pair holds
the permission of the second, which then subscribes anew, and both go inside. -/
theorem not_mutual_exclusion_renewed : ¬ ∀ {s : Extent} (party : Party s) (x : Scene s),
    party.Renewed (fun _ _ => True) x → ∀ p q, x.Inside p → x.Inside q → p = q := by
  intro hall
  have hreplay : (pair.replay (fun _ _ => True) together
      ((Occasion.entry "P1" 5 ++ [Occasion.begin "P1" .release, .advance "P1" 0, .advance "P1" 0] ++
          Occasion.entry "P1" 4).map .occasion ++ renewal "P2" ++
        (Occasion.entry "P2" 5 ++ [Occasion.advance "P1" 0]).map .occasion)).any
        (fun x => (x.activity "P1").isInside && (x.activity "P2").isInside) = true := by
    decide +kernel
  obtain ⟨x, hx, hinside⟩ := (Option.any_eq_true _ _).mp hreplay
  have hrenewed := renewed_of_replay pair _ (.start (assembled_assembly ..)) hx
  obtain ⟨hfirst, hsecond⟩ := Bool.and_eq_true_iff.mp hinside
  have heq := hall pair x hrenewed "P1" "P2" (Activity.isInside_iff.mp hfirst)
    (Activity.isInside_iff.mp hsecond)
  exact absurd heq (by decide)

end Party

end CriticalSection
