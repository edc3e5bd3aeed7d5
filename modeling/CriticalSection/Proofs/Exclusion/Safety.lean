import CriticalSection.Proofs.Exclusion.Assembly
import CriticalSection.Proofs.Exclusion.Turns

/-!
# Mutual exclusion

A scene is **sound** when the records fit what every client is doing and a process whose record is
acquired has been cleared by all others. Every deed keeps a scene sound, also one that fails or is
given up half way: what is left of it are clearances that nobody relies on. In a sound scene no two
processes are inside, since each would have cleared the other.
-/

set_option autoImplicit false

namespace CriticalSection

variable {s : Extent}

namespace Party

variable {party : Party s} {c c' : Cluster s} {p q : ProcessId} {a a' : Activity s}

/-! ## Sound clusters -/

/-- A process whose record is acquired has been cleared by all others. -/
def Backed (party : Party s) (c : Cluster s) (p : ProcessId) : Prop :=
  (party.record c p).standing = .acquired →
    ∀ q ∈ party.processes, q ≠ p → party.Cleared c p q

/-- **A consistent cluster**, when the clients are doing what is given. -/
structure Consistent (party : Party s) (c : Cluster s) (a : ProcessId → Activity s) : Prop where
  settled : party.Settled c
  fits : ∀ p ∈ party.processes, party.Fits c p (a p)
  others : ∀ p, p ∉ party.processes → a p = .outside

/-- **A sound cluster**, when the clients are doing what is given. -/
structure Sound (party : Party s) (c : Cluster s) (a : ProcessId → Activity s) : Prop
    extends Consistent party c a where
  backed : ∀ p ∈ party.processes, party.Backed c p

theorem Spares.backed (h : party.Spares p c c') (hbacked : party.Backed c p) :
    party.Backed c' p := by
  intro hacquired q hq hne
  rw [h.standing] at hacquired
  exact h.cleared q hq hne (by rw [hacquired]; decide) (hbacked hacquired q hq hne)

theorem backed_of_ne (h : (party.record c p).standing ≠ .acquired) : party.Backed c p :=
  fun hacquired => absurd hacquired h

/-- **A tidy change**: whoever is free afterwards has nobody waiting, or was free before and has
nobody waiting who did not wait then. -/
def Tidy (party : Party s) (c c' : Cluster s) : Prop :=
  ∀ q, (party.record c' q).standing = .free → (party.record c' q).queue = [] ∨
    (party.record c q).standing = .free ∧ (party.record c' q).queue ⊆ (party.record c q).queue

theorem Tidy.trans {c'' : Cluster s} (h : party.Tidy c c') (h' : party.Tidy c' c'') :
    party.Tidy c c'' := by
  intro q hfree
  rcases h' q hfree with hnone | ⟨hfree', hsub'⟩
  · exact Or.inl hnone
  · rcases h q hfree' with hnone | ⟨hfree'', hsub⟩
    · exact Or.inl (List.subset_nil.mp (hnone ▸ hsub'))
    · exact Or.inr ⟨hfree'', List.Subset.trans hsub' hsub⟩

theorem Aside.tidy (h : party.Aside c c') : party.Tidy c c' := by
  intro q hfree
  rw [h.record] at hfree ⊢
  exact Or.inr ⟨hfree, List.Subset.refl _⟩

theorem Shortens.tidy (h : party.Shortens c c') : party.Tidy c c' := by
  intro q hfree
  rw [h.standing] at hfree
  exact Or.inr ⟨hfree, h.queue q⟩

/-- A change of one record is tidy if it is tidy there. -/
theorem Settled.tidy_of_changes {k : Coordinator} {g : Record → Record} (h : party.Settled c)
    (hp : p ∈ party.processes) (hk : Changes (c.coordinator (party.host p)) k p g)
    (hg : ∀ r, (g r).standing = .free → (g r).queue = [] ∨
      r.standing = .free ∧ (g r).queue ⊆ r.queue) :
    party.Tidy c (c.withCoordinator (party.host p) k) := by
  intro q hfree
  rw [h.record_of_changes hp hk] at hfree ⊢
  split at hfree
  · next hq =>
      rw [if_pos hq]
      exact hg _ hfree
  · next hq =>
      rw [if_neg hq]
      exact Or.inr ⟨hfree, List.Subset.refl _⟩

/-- Asking is tidy: a process that is free lets everybody pass. -/
theorem Asks.tidy (h : party.Asks p c c') (hsettled : party.Settled c) : party.Tidy c c' := by
  rcases h with haside | ⟨q, hq, -, rfl⟩
  · exact haside.tidy
  · refine hsettled.tidy_of_changes hq (changes_request _ q _) fun r hfree => ?_
    rw [Record.standing_ask] at hfree
    refine Or.inr ⟨hfree, ?_⟩
    rw [Record.queue_ask, if_neg (by simp [Record.defers, hfree])]
    exact List.Subset.refl _

/-- **What one process owes the others**: the cluster is settled, all others are spared, and what
the process itself does next fits. -/
structure Upholds (party : Party s) (p : ProcessId) (c : Cluster s) (a' : Activity s)
    (c' : Cluster s) : Prop where
  settled : party.Settled c'
  spares : ∀ q ∈ party.processes, q ≠ p → party.Spares q c c'
  fits : party.Fits c' p a'
  backed : party.Backed c p → party.Backed c' p
  tidy : party.Tidy c c'

/-- What spares everybody and fits is upheld. -/
theorem Upholds.of_spares (hsettled : party.Settled c') (hspares : ∀ q, party.Spares q c c')
    (hfits : party.Fits c' p a') (htidy : party.Tidy c c') : party.Upholds p c a' c' :=
  ⟨hsettled, fun q _ _ => hspares q, hfits, (hspares p).backed, htidy⟩

/-- A process that takes back its requests wants to enter as it did. -/
theorem Settled.upholds_hangUp (h : party.Settled c) (hp : p ∈ party.processes)
    {own : Fin s.brokers} {time : UInt64} {fan : FanOut s}
    (hgathers : party.Gathers c p own time fan)
    (hfits : party.Fits (fan.hangUp c) p a') : party.Upholds p c a' (fan.hangUp c) := by
  obtain ⟨hshort, hspares⟩ := h.hangUp (hgathers.promised hp)
  refine ⟨hshort.settled, fun q _ hne => hspares q hne, hfits, fun _ => backed_of_ne ?_,
    hshort.tidy⟩
  rw [hshort.standing, hgathers.requested]
  decide

/-- A process that leaves or gives up is free. -/
theorem Settled.upholds_leave (h : party.Settled c) (hp : p ∈ party.processes)
    (hlast : (party.record c p).clock.time ≠ Clock.last) :
    party.Upholds p c .outside (party.leave c p) := by
  refine ⟨h.leave hp hlast, fun q _ hne => h.spares_leave hp hlast hne, trivial,
    fun _ => backed_of_ne ?_, ?_⟩
  · rw [h.record_leave hp, if_pos rfl, Record.leave_of_ne_last hlast]
    simp
  · refine h.tidy_of_changes hp (changes_leave _ p) fun r hfree => ?_
    unfold Record.leave at hfree ⊢
    split at hfree
    · exact Or.inl rfl
    · exact Or.inr ⟨hfree, List.Subset.refl _⟩

/-- A process that announces its request goes on to ask its peers. -/
theorem Settled.upholds_announce (h : party.Settled c) (hp : p ∈ party.processes)
    (hlast : (party.record c p).clock.time ≠ Clock.last) :
    party.Upholds p c (.entering (.gathering (party.host p) ((party.record c p).clock.time + 1)
      (.start (party.client p) (party.client p).peers))) (party.announce c p) := by
  have hrecord := h.record_announce hp p
  rw [if_pos rfl, Record.announce_of_ne_last hlast] at hrecord
  refine ⟨h.announce, fun q _ hne => h.spares_announce hp hlast hne, ⟨rfl, ?_, ?_, ?_, ?_⟩,
    fun _ => backed_of_ne ?_, ?_⟩
  · rw [hrecord]
  · rw [hrecord]
  · rw [FanOut.start, List.map_map]
    exact List.map_id _
  · intro e he
    obtain ⟨q, -, rfl⟩ := List.mem_map.mp he
    trivial
  · rw [hrecord]
    simp
  · refine h.tidy_of_changes hp (changes_announce _ p) fun r hfree => ?_
    unfold Record.announce at hfree ⊢
    split at hfree
    · cases hfree
    · exact Or.inr ⟨hfree, List.Subset.refl _⟩

/-- A process that goes inside has been cleared by all others. -/
theorem Settled.upholds_enter (h : party.Settled c) (hp : p ∈ party.processes)
    (hrequested : (party.record c p).standing = .requested)
    (hcleared : ∀ q ∈ party.processes, q ≠ p → party.Cleared c p q) :
    party.Upholds p c .inside (party.enter c p) := by
  have hrecord := h.record_enter hp
  have hself := hrecord p
  rw [if_pos rfl] at hself
  refine ⟨h.enter, fun q hq hne => h.spares_enter hp hrequested (hcleared q hq hne) hne, ?_, ?_,
    h.tidy_of_changes hp (changes_enter _ p) fun r hfree => by cases hfree⟩
  · show (party.record (party.enter c p) p).standing = .acquired
    rw [hself]
    rfl
  · intro _ _ q hq hne
    unfold Cleared stamp
    rw [hself, hrecord q, if_neg hne]
    exact hcleared q hq hne

/-- **Every effect is upheld.** -/
theorem Effect.upholds (h : party.Effect p c a a' c') (hsettled : party.Settled c)
    (hp : p ∈ party.processes) (htime : party.InTime c) (hfits : party.Fits c p a) :
    party.Upholds p c a' c' := by
  have haside : party.Aside c c' → party.Fits c' p a' → party.Upholds p c a' c' :=
    fun h hfits => .of_spares (h.settled hsettled) h.spares hfits h.tidy
  cases h with
  | aside h => exact haside h ((h.spares p).fits hp hfits)
  | ask h => exact haside h trivial
  | route h => exact haside h rfl
  | announce own =>
      obtain rfl : own = party.host p := hfits
      exact hsettled.upholds_announce hp (htime p hp)
  | gather hasks hgathers _ =>
      exact .of_spares (hasks.settled hsettled) (hasks.spares hsettled) hgathers
        (hasks.tidy hsettled)
  | grant hasks hfits' =>
      exact .of_spares (hasks.settled hsettled) (hasks.spares hsettled) hfits'
        (hasks.tidy hsettled)
  | withdraw own time fan =>
      have hgathers : party.Gathers c p own time fan := hfits
      exact hsettled.upholds_hangUp hp hgathers hgathers.own
  | @fail own time fan fan' c₁ hasks hgathers _ =>
      -- The part that has failed moves first, and then those that still wait hang up.
      have hrest : party.Upholds p c₁ .outside (fan'.hangUp c₁) :=
        (hasks.settled hsettled).upholds_hangUp hp hgathers trivial
      exact ⟨hrest.settled, fun q hq hne => (hasks.spares hsettled q).trans (hrest.spares q hq hne),
        hrest.fits, fun hbacked => hrest.backed ((hasks.spares hsettled p).backed hbacked),
        (hasks.tidy hsettled).trans hrest.tidy⟩
  | giveUp own => exact hsettled.upholds_leave hp (htime p hp)
  | enter own time => exact hsettled.upholds_enter hp hfits.2.1 hfits.2.2
  | leave _ h => exact haside h trivial
  | routeLeave h => exact haside h rfl
  | release own => exact hsettled.upholds_leave hp (htime p hp)
  | fall _ h _ => exact haside h trivial

/-- **A desertion is upheld**: requests that nobody takes any longer leave the queues. -/
theorem Desertion.upholds (h : Desertion a c a' c') (hsettled : party.Settled c)
    (hp : p ∈ party.processes) (hfits : party.Fits c p a) : party.Upholds p c a' c' := by
  have hsame : party.Upholds p c .outside c :=
    .of_spares hsettled (fun q => .refl party q c) trivial (Aside.refl party c).tidy
  cases h with
  | entering stage _ =>
      cases stage with
      | gathering own time fan => exact hsettled.upholds_hangUp hp hfits trivial
      | _ => exact hsame
  | leaving stage _ => exact hsame

/-! ## Sound scenes -/

/-- A cluster stays consistent when one process upholds what it owes the others. -/
theorem Consistent.upheld {x y : ProcessId → Activity s} (h : party.Consistent c x)
    (hp : p ∈ party.processes) (hupholds : party.Upholds p c (y p) c')
    (hothers : ∀ q, q ≠ p → y q = x q) : party.Consistent c' y := by
  refine ⟨hupholds.settled, fun q hq => ?_, fun q hq => ?_⟩
  · by_cases hne : q = p
    · subst hne
      exact hupholds.fits
    · rw [hothers q hne]
      exact (hupholds.spares q hq hne).fits hq (h.fits q hq)
  · rw [hothers q fun heq => hq (heq ▸ hp)]
    exact h.others q hq

/-- **Every turn is upheld** by the process whose turn it is, or it is aside. -/
theorem Turn.upholds {o : Occasion s} {x y : Scene s} (h : party.Turn o x y)
    (hx : party.Consistent x.cluster x.activity) (hbefore : party.InTime x.cluster)
    (hafter : party.InTime y.cluster) :
    (∃ p ∈ party.processes, party.Upholds p x.cluster (y.activity p) y.cluster ∧
      ∀ q, q ≠ p → y.activity q = x.activity q) ∨
    party.Aside x.cluster y.cluster ∧ ∀ q, y.activity q = x.activity q := by
  cases h with
  | deed p hp hdeed others =>
      have heffect := hx.settled.effect_deed hp (hx.fits p hp) hbefore hafter hdeed
      exact Or.inl ⟨p, hp, heffect.upholds hx.settled hp hbefore (hx.fits p hp), others⟩
  | desertion p hp _ hdesertion others =>
      exact Or.inl ⟨p, hp, hdesertion.upholds hx.settled hp (hx.fits p hp), others⟩
  | aside h _ same => exact Or.inr ⟨h, same⟩

/-- **Every turn keeps a scene consistent.** -/
theorem Turn.consistent {o : Occasion s} {x y : Scene s} (h : party.Turn o x y)
    (hx : party.Consistent x.cluster x.activity) (hbefore : party.InTime x.cluster)
    (hafter : party.InTime y.cluster) : party.Consistent y.cluster y.activity := by
  rcases h.upholds hx hbefore hafter with ⟨p, hp, hupholds, others⟩ | ⟨haside, same⟩
  · exact hx.upheld hp hupholds others
  · refine ⟨haside.settled hx.settled, fun q hq => ?_, fun q hq => ?_⟩
    · rw [same]
      exact (haside.spares q).fits hq (hx.fits q hq)
    · rw [same]
      exact hx.others q hq

/-- **Every turn keeps a scene sound.** -/
theorem Turn.sound {o : Occasion s} {x y : Scene s} (h : party.Turn o x y)
    (hx : party.Sound x.cluster x.activity) (hbefore : party.InTime x.cluster)
    (hafter : party.InTime y.cluster) : party.Sound y.cluster y.activity := by
  refine ⟨h.consistent hx.toConsistent hbefore hafter, fun q hq => ?_⟩
  rcases h.upholds hx.toConsistent hbefore hafter with ⟨p, hp, hupholds, others⟩ | ⟨haside, same⟩
  · by_cases hne : q = p
    · subst hne
      exact hupholds.backed (hx.backed q hq)
    · exact (hupholds.spares q hq hne).backed (hx.backed q hq)
  · exact (haside.spares q).backed (hx.backed q hq)

/-! ### Assembled parties -/

section Assembled

variable {x : Scene s}

theorem Assembled.settled (h : party.Assembled x) : party.Settled x.cluster := by
  refine ⟨fun p b => ?_, fun p hp r b => h.routed r b p hp, fun b => ?_⟩
  · rw [h.subscribed]
    split
    · next hguard => exact ⟨fun _ => hguard, fun _ => rfl⟩
    · next hguard =>
        exact ⟨fun hsome => Bool.noConfusion hsome, fun hguard' => absurd hguard' hguard⟩
  · have hrecord : ∀ (p : ProcessId) (r : Record),
        (x.cluster.coordinator b).records[p]? = some r → r = .fresh := by
      intro p r hr
      rw [h.subscribed] at hr
      split at hr
      · exact (Option.some.inj hr).symm
      · cases hr
    obtain ⟨expected, records, hcoordinator⟩ := h.unused b
    -- Fresh records have no queue and nobody has been at a barrier, so there is nothing to order.
    have hwaits : ∀ t, ¬ (x.cluster.coordinator b).Waits t := by
      rintro ⟨q | ⟨phase, q⟩, n⟩ ht
      · obtain ⟨r, hr, hn⟩ := ht
        rw [hrecord q r hr] at hn
        exact absurd hn List.not_mem_nil
      · rw [hcoordinator] at ht
        cases phase <;> simp [Coordinator.Waits, Coordinator.barrier, Coordinator.barriers,
          Coordinator.new, Barrier.closed] at ht
    refine ⟨fun t ht => absurd ht (hwaits t), fun n _ => ?_, fun t ht => absurd ht (hwaits t),
      fun t u ht => absurd ht (hwaits t), fun q r hr => ?_⟩
    · rw [hcoordinator]
      exact Std.TreeMap.getElem?_emptyc
    · rw [hrecord q r hr]
      exact List.nodup_nil

theorem Assembled.record (h : party.Assembled x) (p : ProcessId) :
    party.record x.cluster p = .fresh := by
  unfold Party.record
  rw [h.subscribed]
  split <;> rfl

theorem Assembled.activity (h : party.Assembled x) (p : ProcessId) : x.activity p = .outside := by
  rw [Scene.activity_of_none (h.idle p).1, (h.idle p).2]
  rfl

theorem Assembled.inTime (h : party.Assembled x) : party.InTime x.cluster := by
  intro p _
  rw [h.record]
  decide

theorem Assembled.conducts (h : party.Assembled x) : party.Conducts x := by
  refine ⟨fun p call hcall => ?_, fun p call hcall => ?_⟩ <;> rw [(h.idle p).1] at hcall <;>
    cases hcall

theorem Assembled.sound (h : party.Assembled x) : party.Sound x.cluster x.activity := by
  refine ⟨⟨h.settled, fun p _ => ?_, fun p _ => h.activity p⟩, fun p _ => backed_of_ne ?_⟩
  · rw [h.activity]
    trivial
  · rw [h.record]
    decide

end Assembled

/-! ### Runs -/

/-- What holds of every scene that a party comes to. -/
structure Lawful (party : Party s) (x : Scene s) : Prop where
  conducts : party.Conducts x
  sound : party.Sound x.cluster x.activity
  inTime : party.InTime x.cluster

theorem Assembled.lawful {x : Scene s} (h : party.Assembled x) : party.Lawful x :=
  ⟨h.conducts, h.sound, h.inTime⟩

theorem Lawful.step {o : Occasion s} {x y : Scene s} (h : party.Lawful x)
    (hstep : x.step party o = some y) (htime : party.InTime y.cluster) :
    party.Lawful y ∧ party.Turn o x y := by
  obtain ⟨hconducts, hturn⟩ := turn_of_step h.conducts hstep
  exact ⟨⟨hconducts, hturn.sound h.sound h.inTime htime, htime⟩, hturn⟩

/-- **Runs keep to the law.** -/
theorem Run.lawful {allows : Scene s → Occasion s → Prop} {keeps : Scene s → Prop}
    {x y : Scene s} (run : party.Run allows keeps x y)
    (hkeeps : ∀ y, keeps y → party.InTime y.cluster) (hx : party.Lawful x) : party.Lawful y := by
  induction run with
  | refl => exact hx
  | step run o allowed next kept ih => exact (ih.step next (hkeeps _ kept)).1

theorem Reachable.lawful {x : Scene s} (h : party.Reachable x) : party.Lawful x := by
  obtain ⟨start, hassembled, run⟩ := h
  exact run.lawful (fun _ => id) hassembled.lawful

/-! ## Mutual exclusion -/

/-- Two processes whose records are acquired are the same one: else the second would have
cleared the first. -/
theorem Sound.eq_of_acquired {a : ProcessId → Activity s} (h : party.Sound c a)
    (hp : p ∈ party.processes) (hq : q ∈ party.processes)
    (hpacquired : (party.record c p).standing = .acquired)
    (hqacquired : (party.record c q).standing = .acquired) : p = q := by
  refine Decidable.byContradiction fun hne => ?_
  have hcleared := h.backed p hp hpacquired q hq (Ne.symm hne)
  exact hcleared.standing_ne hqacquired

/-- A process that is inside has an acquired record. -/
theorem Consistent.acquired_of_inside {x : Scene s} (h : party.Consistent x.cluster x.activity)
    (hinside : x.Inside p) :
    p ∈ party.processes ∧ (party.record x.cluster p).standing = .acquired := by
  have hp : p ∈ party.processes := by
    refine Decidable.byContradiction fun hp => ?_
    rw [Scene.Inside, h.others p hp] at hinside
    cases hinside
  have hfits := h.fits p hp
  rw [show x.activity p = .inside from hinside] at hfits
  exact ⟨hp, hfits⟩

/-- No two records are acquired. -/
def Exclusive (party : Party s) (c : Cluster s) : Prop :=
  ∀ p ∈ party.processes, ∀ q ∈ party.processes, (party.record c p).standing = .acquired →
    (party.record c q).standing = .acquired → p = q

theorem Sound.exclusive {a : ProcessId → Activity s} (h : party.Sound c a) : party.Exclusive c :=
  fun _ hp _ hq => h.eq_of_acquired hp hq

/-- All records that are acquired are one, wherever one looks for them. -/
theorem Exclusive.eq_of_acquired (h : party.Exclusive c) (hsettled : party.Settled c)
    {b b' : Fin s.brokers} {r r' : Record}
    (hr : (c.coordinator b).records[p]? = some r) (hacquired : r.standing = .acquired)
    (hr' : (c.coordinator b').records[q]? = some r') (hacquired' : r'.standing = .acquired) :
    p = q ∧ b = b' := by
  obtain ⟨hp, rfl⟩ := (hsettled.hosted p b).mp (by rw [hr]; rfl)
  obtain ⟨hq, rfl⟩ := (hsettled.hosted q b').mp (by rw [hr']; rfl)
  have hrecord : party.record c p = r := by rw [Party.record, hr]; rfl
  have hrecord' : party.record c q = r' := by rw [Party.record, hr']; rfl
  obtain rfl := h p hp q hq (hrecord ▸ hacquired) (hrecord' ▸ hacquired')
  exact ⟨rfl, rfl⟩

/-- **Mutual exclusion.** Whatever happens, at most one process is inside, and at most one record of
all coordinators is acquired. -/
theorem mutual_exclusion (party : Party s) {x : Scene s} (h : party.Reachable x) :
    (∀ p q, x.Inside p → x.Inside q → p = q) ∧
    ∀ (b b' : Fin s.brokers) (p q : ProcessId) (r r' : Record),
      (x.cluster.coordinator b).records[p]? = some r → r.standing = .acquired →
      (x.cluster.coordinator b').records[q]? = some r' → r'.standing = .acquired →
      p = q ∧ b = b' := by
  have hsound := h.lawful.sound
  refine ⟨fun p q hp hq => ?_, fun b b' p q r r' hr hacquired hr' hacquired' => ?_⟩
  · obtain ⟨hp, hpacquired⟩ := hsound.acquired_of_inside hp
    obtain ⟨hq, hqacquired⟩ := hsound.acquired_of_inside hq
    exact hsound.eq_of_acquired hp hq hpacquired hqacquired
  · exact hsound.exclusive.eq_of_acquired hsound.settled hr hacquired hr' hacquired'

/-- The first of a pair is inside while the second waits for it. -/
theorem mutual_exclusion_pair : ∃ x, pair.Reachable x ∧ x.Inside "P1" ∧
    ∀ q, x.Inside q → q = "P1" := by
  have hplay : (pair.play (fun _ _ => True) (fun y => pair.InTime y.cluster) together
      (Occasion.entry "P1" 5 ++ Occasion.entry "P2" 4)).any
        (fun x => (x.activity "P1").isInside) = true := by
    decide +kernel
  obtain ⟨x, hx, hinside⟩ := (Option.any_eq_true _ _).mp hplay
  have hreachable : pair.Reachable x :=
    ⟨together, assembled_assembly .., run_of_play _ _ _ hx⟩
  have hp : x.Inside "P1" := Activity.isInside_iff.mp hinside
  exact ⟨x, hreachable, hp, fun q hq => (mutual_exclusion pair hreachable).1 q "P1" hq hp⟩

end Party

end CriticalSection
