import CriticalSection.Proofs.Exclusion.Deeds
import CriticalSection.Proofs.Exclusion.Permission

/-!
# What deeds come to

While it enters and leaves, a client goes through stages, and in each of them the records **fit**
what it has done so far: a client that gathers permissions has a request announced, and every part
of its fan-out stands for a promise or a clearance. Where the records fit, a deed has one of a few
effects on them, and the records fit again what the client does next.
-/

set_option autoImplicit false

namespace CriticalSection

variable {s : Extent}

/-- Whether no part of a fan-out has failed. -/
def FanOut.Flawless (fan : FanOut s) : Prop := ∀ e ∈ fan.parts, e.2.fault? = none

namespace Party

variable {party : Party s} {c c' : Cluster s} {p q : ProcessId}

/-! ## Connected clusters -/

/-- **A connected cluster**: all brokers are within reach, and the router of every client knows the
broker of every process. -/
structure Connected (party : Party s) (c : Cluster s) : Prop where
  within : ∀ b : Fin s.brokers, (c.brokers.get b).outage = none
  known : ∀ p ∈ party.processes, ∀ q ∈ party.processes,
    party.host q ∈ (c.routers.get (party.client p).router).brokers

theorem Connected.of_sameLayout (h : party.Connected c) (hlayout : c.SameLayout c') :
    party.Connected c' := by
  refine ⟨fun b => (hlayout.outage b).trans (h.within b), fun p hp q hq => ?_⟩
  rw [hlayout.known]
  exact h.known p hp q hq

theorem not_connected_of_outage (party : Party s) {b : Fin s.brokers} {e : Error}
    (h : (c.brokers.get b).outage = some e) : ¬ party.Connected c := by
  intro hconnected
  rw [hconnected.within] at h
  cases h

/-- **A client of a connected cluster finds every process.** -/
theorem Connected.route (h : party.Connected c) (hsettled : party.Settled c)
    (hp : p ∈ party.processes) (hq : q ∈ party.processes) (fault : Fault) :
    (party.client p).route q c ≠ (.error fault, c') := by
  intro hroute
  -- The process is in the table of the router, or the broker it is at home at lists it.
  have hfound : ((c.route (party.client p).router q).1).isSome := by
    rw [Cluster.route_eq]
    split
    · rfl
    · rw [Cluster.routers_refresh, if_pos rfl]
      exact Router.isSome_refresh (h.known p hp q hq)
        ⟨h.within _, (hsettled.hosted q _).mpr ⟨hq, rfl⟩⟩
  obtain ⟨b, hb⟩ := Option.isSome_iff_exists.mp hfound
  rw [Client.route_eq, hb] at hroute
  cases hroute

/-! ## Fitting records -/

/-- How the records fit a part that `p` has for `q`. -/
def FitsPart (party : Party s) (c : Cluster s) (p q : ProcessId) : Part s → Prop
  | .unrouted => True
  | .routed b => b = party.host q
  | .parked b t => party.Promised c p q b t
  | .answered => party.Cleared c p q
  | .failed _ => True

/-- **How the records fit a client that gathers permissions.** -/
structure Gathers (party : Party s) (c : Cluster s) (p : ProcessId) (own : Fin s.brokers)
    (time : UInt64) (fan : FanOut s) : Prop where
  own : own = party.host p
  requested : (party.record c p).standing = .requested
  announced : (party.record c p).announced = time
  peers : fan.parts.map Prod.fst = (party.client p).peers
  parts : ∀ e ∈ fan.parts, party.FitsPart c p e.1 e.2

/-- **How the records fit what a client is doing.** -/
def Fits (party : Party s) (c : Cluster s) (p : ProcessId) : Activity s → Prop
  | .outside => True
  | .entering .start => True
  | .entering (.routed own) => own = party.host p
  | .entering (.gathering own time fan) => party.Gathers c p own time fan
  | .entering (.withdrawing own) => own = party.host p
  | .entering (.granted own _) => own = party.host p ∧
      (party.record c p).standing = .requested ∧
      ∀ q ∈ party.processes, q ≠ p → party.Cleared c p q
  | .inside => (party.record c p).standing = .acquired
  | .leaving .start => True
  | .leaving (.routed own) => own = party.host p

theorem mem_peers (hp : p ∈ party.processes) :
    q ∈ (party.client p).peers ↔ q ∈ party.processes ∧ q ≠ p := by
  rw [Client.peers, party.process_client p hp, party.processes_client p hp, List.mem_filter,
    decide_eq_true_eq]

section Gathers

variable {own : Fin s.brokers} {time : UInt64} {fan : FanOut s}

theorem Gathers.mem_peer (h : party.Gathers c p own time fan) (hp : p ∈ party.processes)
    {e : ProcessId × Part s} (he : e ∈ fan.parts) : e.1 ∈ party.processes ∧ e.1 ≠ p := by
  rw [← mem_peers hp, ← h.peers]
  exact List.mem_map.mpr ⟨e, he, rfl⟩

/-- **Who has been answered by all has been cleared by all.** -/
theorem Gathers.cleared (h : party.Gathers c p own time fan) (hp : p ∈ party.processes)
    (hcomplete : fan.complete = true) : ∀ q ∈ party.processes, q ≠ p → party.Cleared c p q := by
  intro q hq hne
  have hpeer := (mem_peers hp).mpr ⟨hq, hne⟩
  rw [← h.peers] at hpeer
  obtain ⟨⟨q', part⟩, he, rfl⟩ := List.mem_map.mp hpeer
  have hanswered : part.isAnswered = true := List.all_eq_true.mp hcomplete _ he
  have hfits := h.parts _ he
  cases part with
  | answered => exact hfits
  | _ => cases hanswered

theorem Gathers.promised (h : party.Gathers c p own time fan) (hp : p ∈ party.processes) :
    ∀ e ∈ fan.parts, ∀ b t, e.2 = .parked b t →
      e.1 ∈ party.processes ∧ party.Promised c p e.1 b t := by
  intro e he b t heq
  have hfits := h.parts e he
  rw [heq] at hfits
  exact ⟨(h.mem_peer hp he).1, hfits⟩

end Gathers

/-! ### Fitting records that change -/

theorem Spares.fitsPart (h : party.Spares p c c') (hq : q ∈ party.processes) (hne : q ≠ p)
    (hrequested : (party.record c p).standing = .requested) {part : Part s}
    (hpart : party.FitsPart c p q part) : party.FitsPart c' p q part := by
  cases part with
  | parked b t => exact h.promised q hq hne hrequested b t hpart
  | answered => exact h.cleared q hq hne (by rw [hrequested]; decide) hpart
  | _ => exact hpart

theorem Spares.gathers (h : party.Spares p c c') (hp : p ∈ party.processes)
    {own : Fin s.brokers} {time : UInt64} {fan : FanOut s}
    (hgathers : party.Gathers c p own time fan) : party.Gathers c' p own time fan := by
  refine ⟨hgathers.own, h.standing.trans hgathers.requested,
    h.announced.trans hgathers.announced, hgathers.peers, fun e he => ?_⟩
  obtain ⟨hmem, hne⟩ := hgathers.mem_peer hp he
  exact h.fitsPart hmem hne hgathers.requested (hgathers.parts e he)

/-- **What spares a process** leaves the records as they fit it. -/
theorem Spares.fits (h : party.Spares p c c') (hp : p ∈ party.processes) {a : Activity s}
    (ha : party.Fits c p a) : party.Fits c' p a := by
  match a, ha with
  | .outside, ha => exact ha
  | .entering .start, ha => exact ha
  | .entering (.routed own), ha => exact ha
  | .entering (.gathering own time fan), ha => exact h.gathers hp ha
  | .entering (.withdrawing own), ha => exact ha
  | .entering (.granted own time), ⟨hown, hrequested, hcleared⟩ =>
      refine ⟨hown, h.standing.trans hrequested, fun q hq hne => ?_⟩
      exact h.cleared q hq hne (by rw [hrequested]; decide) (hcleared q hq hne)
  | .inside, ha => exact h.standing.trans ha
  | .leaving .start, ha => exact ha
  | .leaving (.routed own), ha => exact ha

/-! ## Effects -/

/-- What a client does to the records while it gathers permissions: it asks one process, or
nothing. -/
def Asks (party : Party s) (p : ProcessId) (c c' : Cluster s) : Prop :=
  party.Aside c c' ∨ ∃ q ∈ party.processes, q ≠ p ∧ c' = party.ask c p q

/-- **The effects of the deeds of a process.** A failure has a reason that a connected cluster does
not give. -/
inductive Effect (party : Party s) (p : ProcessId) (c : Cluster s) :
    Activity s → Activity s → Cluster s → Prop
  | aside {a : Activity s} {c' : Cluster s} (h : party.Aside c c') : Effect party p c a a c'
  | ask {c' : Cluster s} (h : party.Aside c c') : Effect party p c .outside (.entering .start) c'
  | route {c' : Cluster s} (h : party.Aside c c') :
      Effect party p c (.entering .start) (.entering (.routed (party.host p))) c'
  | announce (own : Fin s.brokers) : Effect party p c (.entering (.routed own))
      (.entering (.gathering own ((party.record c p).clock.time + 1)
        (.start (party.client p) (party.client p).peers))) (party.announce c p)
  | gather {own : Fin s.brokers} {time : UInt64} {fan fan' : FanOut s} {c' : Cluster s}
      (hasks : party.Asks p c c')
      (hgathers : party.Gathers c' p own time fan')
      (hflawless : party.Connected c → fan.Flawless → fan'.Flawless) :
      Effect party p c (.entering (.gathering own time fan))
        (.entering (.gathering own time fan')) c'
  | grant {own : Fin s.brokers} {time : UInt64} {fan : FanOut s} {c' : Cluster s}
      (hasks : party.Asks p c c')
      (hfits : party.Fits c' p (.entering (.granted own time))) :
      Effect party p c (.entering (.gathering own time fan)) (.entering (.granted own time)) c'
  | withdraw (own : Fin s.brokers) (time : UInt64) (fan : FanOut s) :
      Effect party p c (.entering (.gathering own time fan)) (.entering (.withdrawing own))
        (fan.hangUp c)
  | fail {own : Fin s.brokers} {time : UInt64} {fan fan' : FanOut s} {c₁ : Cluster s}
      (hasks : party.Asks p c c₁)
      (hgathers : party.Gathers c₁ p own time fan')
      (hfault : party.Connected c → ¬ fan.Flawless) :
      Effect party p c (.entering (.gathering own time fan)) .outside (fan'.hangUp c₁)
  | giveUp (own : Fin s.brokers) :
      Effect party p c (.entering (.withdrawing own)) .outside (party.leave c p)
  | enter (own : Fin s.brokers) (time : UInt64) :
      Effect party p c (.entering (.granted own time)) .inside (party.enter c p)
  | leave {a : Activity s} {c' : Cluster s} (ha : a = .outside ∨ a = .inside)
      (h : party.Aside c c') :
      Effect party p c a (.leaving .start) c'
  | routeLeave {c' : Cluster s} (h : party.Aside c c') :
      Effect party p c (.leaving .start) (.leaving (.routed (party.host p))) c'
  | release (own : Fin s.brokers) :
      Effect party p c (.leaving (.routed own)) .outside (party.leave c p)
  | fall {c' : Cluster s} (a : Activity s) (h : party.Aside c c') (hfault : ¬ party.Connected c) :
      Effect party p c a .outside c'

theorem Asks.settled (h : party.Asks p c c') (hsettled : party.Settled c) : party.Settled c' := by
  rcases h with haside | ⟨q, -, -, rfl⟩
  · exact haside.settled hsettled
  · exact hsettled.ask q

theorem Asks.spares (h : party.Asks p c c') (hsettled : party.Settled c) (p' : ProcessId) :
    party.Spares p' c c' := by
  rcases h with haside | ⟨q, hq, -, rfl⟩
  · exact haside.spares p'
  · exact hsettled.spares_ask hq p p'

/-- The clocks do not move when a fan-out hangs up, whatever the records are like. -/
theorem clock_hangUp (party : Party s) (fan : FanOut s) (c : Cluster s) (q : ProcessId) :
    (party.record (fan.hangUp c) q).clock = (party.record c q).clock := by
  refine FanOut.hangUp_induct (fun c' => (party.record c' q).clock = (party.record c q).clock) rfl
    fun e _ c' hc' => ?_
  rw [← hc']
  cases e.2 with
  | parked b t =>
      unfold record Part.hangUp
      dsimp only
      rw [Cluster.hangUp_eq, Cluster.coordinator_withCoordinator]
      split
      · next heq =>
          rw [Coordinator.records_hangUp, heq]
          split
          · cases (c'.coordinator b).records[q]? <;> rfl
          · rfl
      · rfl
  | _ => rfl

/-- **The move of a part** with which a process asks another one. -/
theorem Settled.effect_part (h : party.Settled c) (hp : p ∈ party.processes)
    (hq : q ∈ party.processes) (hne : q ≠ p) {ask : Question}
    (hask : ask q = fun k => k.request q (party.stamp c p)) {part part' : Part s}
    (hpart : party.FitsPart c p q part) (htime : party.InTime c')
    (hstep : part.step (party.client p) ask q c = (some part', c')) :
    party.Asks p c c' ∧ party.FitsPart c' p q part' ∧
      (party.Connected c → part'.fault? = none) := by
  rcases Part.step_cases hstep with ⟨-, ⟨b, hroute, rfl⟩ | ⟨fault, hroute, rfl⟩⟩ |
    ⟨b, rfl, hrequest⟩ | ⟨b, t, outcome, rfl, houtcome, rfl, rfl⟩
  -- It looks for the broker of the process, which has nothing to do with the records.
  · have haside := aside_clientRoute party (party.client p) q c
    rw [hroute] at haside
    exact ⟨Or.inl haside, h.host_of_clientRoute hq hroute, fun _ => rfl⟩
  · have haside := aside_clientRoute party (party.client p) q c
    rw [hroute] at haside
    exact ⟨Or.inl haside, trivial, fun hconnected => absurd hroute (hconnected.route h hp hq fault)⟩
  -- It asks there: the request fails for want of the broker, or is parked, or granted at once.
  · obtain rfl : b = party.host q := hpart
    rw [hask, h.request_ask hq] at hrequest
    cases houtage : (c.brokers.get (party.host q)).outage with
    | some e =>
        rw [houtage] at hrequest
        rcases hrequest with ⟨t, heq, -⟩ | ⟨outcome, heq, rfl⟩
        · cases (Prod.mk.inj heq).1
        · obtain ⟨hreaction, rfl⟩ := Prod.mk.inj heq
          obtain rfl := Reaction.answered.inj hreaction
          exact ⟨Or.inl (.refl party c), trivial,
            fun hconnected => absurd hconnected (not_connected_of_outage party houtage)⟩
    | none =>
        rw [houtage] at hrequest
        have hpermit := h.permit_ask (p := p) hq
        rcases hrequest with ⟨t, heq, rfl⟩ | ⟨outcome, heq, rfl⟩
        · obtain ⟨hreaction, rfl⟩ := Prod.mk.inj heq
          have hpermit := hpermit (htime q hq)
          split at hreaction
          · next hdefers =>
              obtain rfl := Reaction.parked.inj hreaction
              rw [if_pos hdefers] at hpermit
              exact ⟨Or.inr ⟨q, hq, hne, rfl⟩, hpermit, fun _ => rfl⟩
          · cases hreaction
        · obtain ⟨hreaction, rfl⟩ := Prod.mk.inj heq
          have hpermit := hpermit (htime q hq)
          split at hreaction
          · cases hreaction
          · next hdefers =>
              obtain rfl := Reaction.answered.inj hreaction
              rw [if_neg hdefers] at hpermit
              exact ⟨Or.inr ⟨q, hq, hne, rfl⟩, hpermit, fun _ => rfl⟩
  -- It takes its answer. The promise is kept: who is in the queue still has none, and who has one
  -- is cleared.
  · obtain ⟨rfl, hplace, -, hwaits⟩ := hpart
    have hanswered : (c'.coordinator (party.host q)).answers[t.number]? = some .granted ∧
        party.Cleared c' p q := by
      rcases hwaits with hwaits | hgranted
      · have hnone := (h.orderly (party.host q)).unanswered ⟨.record q, t.number⟩
          ⟨_, h.getElem?_records hq, List.mem_map.mpr ⟨_, hwaits, rfl⟩⟩
        cases houtcome.symm.trans (Cluster.outcome?_of_unanswered hnone)
      · exact hgranted
    rw [Cluster.outcome?_of_granted hanswered.1] at houtcome
    obtain rfl := Option.some.inj houtcome
    exact ⟨Or.inl (.refl party c'), hanswered.2, fun _ => rfl⟩

/-- The request that a client asks its peers to grant is the one it has announced. -/
theorem question_eq (hp : p ∈ party.processes) {time : UInt64}
    (htime : (party.record c p).announced = time) (q : ProcessId) :
    Acquire.question (party.client p) time q = fun k => k.request q (party.stamp c p) := by
  unfold Acquire.question stamp
  rw [party.process_client p hp, htime]

/-- **The move of a client that gathers permissions.** -/
theorem Settled.effect_gathering (h : party.Settled c) (hp : p ∈ party.processes)
    {own : Fin s.brokers} {time : UInt64} {fan : FanOut s}
    (hgathers : party.Gathers c p own time fan) (htime : party.InTime c') {place : Nat}
    {move : Move (Acquire s) UInt64}
    (hstep : Acquire.step (party.client p) place (.gathering own time fan) c = (move, c')) :
    party.Effect p c (.entering (.gathering own time fan))
      ((Acquire.gathering own time fan).after move) c' := by
  simp only [Acquire.step] at hstep
  split at hstep
  -- The token of the call has been cancelled.
  · obtain ⟨rfl, rfl⟩ := Prod.mk.inj hstep
    exact .withdraw own time fan
  rcases hfan : fan.step (party.client p) (Acquire.question (party.client p) time) place c
    with ⟨m, c₂⟩
  rw [hfan] at hstep
  rcases FanOut.step_cases hfan with
    ⟨rfl, rfl⟩ | ⟨hcomplete, rfl, rfl⟩ | ⟨q, part, part', c₁, hpart, hpartStep, hproceed⟩
  · obtain ⟨rfl, rfl⟩ := Prod.mk.inj hstep
    exact .aside (.refl party c₂)
  · obtain ⟨rfl, rfl⟩ := Prod.mk.inj hstep
    exact .grant (Or.inl (.refl party c₂))
      ⟨hgathers.own, hgathers.requested, hgathers.cleared hp hcomplete⟩
  have hmem : (q, part) ∈ fan.parts := List.mem_of_getElem? hpart
  obtain ⟨hq, hne⟩ := hgathers.mem_peer hp hmem
  -- The fan-out after the part has moved, before it is looked at as a whole.
  have hmoved : party.InTime c₁ →
      party.Asks p c c₁ ∧
      party.Gathers c₁ p own time { fan with parts := fan.parts.set place (q, part') } ∧
      (party.Connected c → part'.fault? = none) := by
    intro htime₁
    obtain ⟨hasks, hfits, hfault⟩ := h.effect_part hp hq hne (question_eq hp hgathers.announced q)
      (hgathers.parts _ hmem) htime₁ hpartStep
    have hold := (hasks.spares h p).gathers hp hgathers
    refine ⟨hasks, ⟨hold.own, hold.requested, hold.announced, ?_, fun e he => ?_⟩, hfault⟩
    · rw [← hold.peers]
      exact FanOut.map_fst_set hpart part'
    · rcases List.mem_or_eq_of_mem_set he with he | rfl
      · exact hold.parts e he
      · exact hfits
  have hflawless : (party.Connected c → part'.fault? = none) → party.Connected c →
      fan.Flawless →
      FanOut.Flawless { fan with parts := fan.parts.set place (q, part') } := by
    intro hfault hconnected hfan e he
    rcases List.mem_or_eq_of_mem_set he with he | rfl
    · exact hfan e he
    · exact hfault hconnected
  rcases FanOut.proceed_cases hproceed with ⟨fault | ⟨⟩, houtcome, rfl, rfl⟩ | ⟨-, rfl, rfl⟩
  -- It ends with a failure, or well, or it goes on.
  · obtain ⟨rfl, rfl⟩ := Prod.mk.inj hstep
    obtain ⟨hasks, hgathers', hfault⟩ := hmoved fun q' hq' => by
      rw [← clock_hangUp]
      exact htime q' hq'
    refine .fail hasks hgathers' fun hconnected hfan => ?_
    obtain ⟨e, he, hfailed⟩ := FanOut.exists_fault_of_outcome houtcome
    rw [hflawless hfault hconnected hfan e he] at hfailed
    cases hfailed
  · obtain ⟨rfl, rfl⟩ := Prod.mk.inj hstep
    have hcomplete := FanOut.complete_of_outcome houtcome
    rw [FanOut.hangUp_of_complete hcomplete] at htime ⊢
    obtain ⟨hasks, hgathers', -⟩ := hmoved htime
    exact .grant hasks ⟨hgathers'.own, hgathers'.requested, hgathers'.cleared hp hcomplete⟩
  · obtain ⟨rfl, rfl⟩ := Prod.mk.inj hstep
    obtain ⟨hasks, hgathers', hfault⟩ := hmoved htime
    exact .gather hasks hgathers' (hflawless hfault)

/-- **The move of a client that enters.** -/
theorem Settled.effect_acquire (h : party.Settled c) (hp : p ∈ party.processes)
    {stage : Acquire s} (hfits : party.Fits c p (.entering stage)) (hbefore : party.InTime c)
    (hafter : party.InTime c') {place : Nat} {move : Move (Acquire s) UInt64}
    (hstep : Acquire.step (party.client p) place stage c = (move, c')) :
    party.Effect p c (.entering stage) (stage.after move) c' := by
  have hlast := hbefore p hp
  have hprocess := party.process_client p hp
  cases stage with
  | start =>
      have haside := aside_clientRoute party (party.client p) p c
      rw [Acquire.step, hprocess] at hstep
      rcases hroute : (party.client p).route p c with ⟨fault | own, c₁⟩
      · rw [hroute] at hstep haside
        obtain ⟨rfl, rfl⟩ := Prod.mk.inj hstep
        exact .fall _ haside fun hconnected => hconnected.route h hp hp fault hroute
      · rw [hroute] at hstep haside
        obtain ⟨rfl, rfl⟩ := Prod.mk.inj hstep
        obtain rfl := h.host_of_clientRoute hp hroute
        exact .route haside
  | routed own =>
      obtain rfl : own = party.host p := hfits
      rw [Acquire.step, hprocess, h.call_announce hp hlast] at hstep
      cases houtage : (c.brokers.get (party.host p)).outage with
      | some e =>
          rw [houtage] at hstep
          obtain ⟨rfl, rfl⟩ := Prod.mk.inj hstep
          exact .fall _ (.refl party c) (not_connected_of_outage party houtage)
      | none =>
          rw [houtage] at hstep
          obtain ⟨rfl, rfl⟩ := Prod.mk.inj hstep
          exact .announce (party.host p)
  | gathering own time fan => exact h.effect_gathering hp hfits hafter hstep
  | withdrawing own =>
      obtain rfl : own = party.host p := hfits
      rw [Acquire.step, hprocess, h.call_leave hp hlast] at hstep
      cases houtage : (c.brokers.get (party.host p)).outage with
      | some e =>
          rw [houtage] at hstep
          obtain ⟨rfl, rfl⟩ := Prod.mk.inj hstep
          exact .fall _ (.refl party c) (not_connected_of_outage party houtage)
      | none =>
          rw [houtage] at hstep
          obtain ⟨rfl, rfl⟩ := Prod.mk.inj hstep
          exact .giveUp (party.host p)
  | granted own time =>
      obtain ⟨rfl, -⟩ : own = party.host p ∧ _ := hfits
      rw [Acquire.step, hprocess, h.call_enter hp] at hstep
      cases houtage : (c.brokers.get (party.host p)).outage with
      | some e =>
          rw [houtage] at hstep
          obtain ⟨rfl, rfl⟩ := Prod.mk.inj hstep
          exact .fall _ (.refl party c) (not_connected_of_outage party houtage)
      | none =>
          rw [houtage] at hstep
          obtain ⟨rfl, rfl⟩ := Prod.mk.inj hstep
          exact .enter (party.host p) time

/-- **The move of a client that leaves.** -/
theorem Settled.effect_release (h : party.Settled c) (hp : p ∈ party.processes)
    {stage : Release s} (hfits : party.Fits c p (.leaving stage)) (hbefore : party.InTime c)
    {move : Move (Release s) Unit}
    (hstep : Release.step (party.client p) stage c = (move, c')) :
    party.Effect p c (.leaving stage) (stage.after move) c' := by
  have hlast := hbefore p hp
  have hprocess := party.process_client p hp
  cases stage with
  | start =>
      have haside := aside_clientRoute party (party.client p) p c
      rw [Release.step, hprocess] at hstep
      rcases hroute : (party.client p).route p c with ⟨fault | own, c₁⟩
      · rw [hroute] at hstep haside
        obtain ⟨rfl, rfl⟩ := Prod.mk.inj hstep
        exact .fall _ haside fun hconnected => hconnected.route h hp hp fault hroute
      · rw [hroute] at hstep haside
        obtain ⟨rfl, rfl⟩ := Prod.mk.inj hstep
        obtain rfl := h.host_of_clientRoute hp hroute
        exact .routeLeave haside
  | routed own =>
      obtain rfl : own = party.host p := hfits
      rw [Release.step, hprocess, h.call_leave hp hlast] at hstep
      cases houtage : (c.brokers.get (party.host p)).outage with
      | some e =>
          rw [houtage] at hstep
          obtain ⟨rfl, rfl⟩ := Prod.mk.inj hstep
          exact .fall _ (.refl party c) (not_connected_of_outage party houtage)
      | none =>
          rw [houtage] at hstep
          obtain ⟨rfl, rfl⟩ := Prod.mk.inj hstep
          exact .release (party.host p)

/-- **Every deed has an effect** where the records fit. -/
theorem Settled.effect_deed (h : party.Settled c) (hp : p ∈ party.processes)
    {a a' : Activity s} (hfits : party.Fits c p a) (hbefore : party.InTime c)
    (hafter : party.InTime c') (hdeed : party.Deed p a c a' c') : party.Effect p c a a' c' := by
  cases hdeed with
  | aside haside _ => exact .aside haside
  | ask haside _ => exact .ask haside
  | acquire place hstep => exact h.effect_acquire hp hfits hbefore hafter hstep
  | leave ha haside _ => exact .leave ha haside
  | release hstep => exact h.effect_release hp hfits hbefore hstep

end Party

end CriticalSection
