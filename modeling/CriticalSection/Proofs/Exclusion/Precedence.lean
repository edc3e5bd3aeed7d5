import CriticalSection.Proofs.Exclusion.Calm

/-!
# No overtaking

Of two processes that compete in a calm run, the one with the earlier request goes inside first. The
other one cannot enter unless the first has cleared it, and as long as the request of the first
stands it clears only requests before its own.
-/

set_option autoImplicit false

namespace CriticalSection

variable {s : Extent}

/-! ## Competing -/

/-- Whether a client enters and has announced its request. -/
def Activity.hasAnnounced : Activity s → Bool
  | .entering .start => false
  | .entering (.routed _) => false
  | .entering _ => true
  | _ => false

/-- **A process competes** from the announcement of its request to the end of the call that makes
it. -/
def Scene.Competes (x : Scene s) (p : ProcessId) : Prop := (x.activity p).hasAnnounced = true

instance (x : Scene s) (p : ProcessId) : Decidable (x.Competes p) :=
  inferInstanceAs (Decidable ((x.activity p).hasAnnounced = true))

namespace Party

variable {party : Party s} {p q : ProcessId}

/-- Who competes has a request that stands. -/
theorem CalmlyReachable.requested {x : Scene s} (h : party.CalmlyReachable x)
    (hp : x.Competes p) :
    p ∈ party.processes ∧ (party.record x.cluster p).standing = .requested := by
  obtain ⟨hlawful, htranquil⟩ := h.tranquil
  unfold Scene.Competes at hp
  have hmem : p ∈ party.processes := by
    refine Decidable.byContradiction fun hmem => ?_
    rw [hlawful.sound.others p hmem] at hp
    cases hp
  have hfits := hlawful.sound.fits p hmem
  have hsteady := htranquil.steady p hmem
  refine ⟨hmem, ?_⟩
  match hactivity : x.activity p with
  | .outside | .inside | .leaving _ | .entering .start | .entering (.routed _) =>
      rw [hactivity] at hp
      cases hp
  | .entering (.gathering own time fan) =>
      rw [hactivity] at hfits
      exact hfits.requested
  | .entering (.withdrawing own) =>
      rw [hactivity] at hsteady
      exact hsteady
  | .entering (.granted own time) =>
      rw [hactivity] at hfits
      exact hfits.2.1

/-! ## Requests that stand -/

/-- The runs of a scene in which the request of a process stands all the time. -/
abbrev Stands (party : Party s) (p : ProcessId) : Scene s → Scene s → Prop :=
  party.Run Scene.Calm fun y =>
    party.InTime y.cluster ∧ (party.record y.cluster p).standing ≠ .free

/-- **While the request of a process stands** it stays the same, and others only announce later
ones. -/
theorem Stands.keeps {w y : Scene s} (run : party.Stands p w y) (hlawful : party.Lawful w)
    (htranquil : party.Tranquil w.cluster w.activity)
    (hstands : (party.record w.cluster p).standing ≠ .free) (hq : q ∈ party.processes) :
    party.Lawful y ∧ party.Tranquil y.cluster y.activity ∧
      (party.record y.cluster p).standing ≠ .free ∧
      (party.record y.cluster p).announced = (party.record w.cluster p).announced ∧
      (party.record w.cluster q).announced ≤ (party.record y.cluster q).announced := by
  induction run with
  | refl => exact ⟨hlawful, htranquil, hstands, rfl, UInt64.le_refl _⟩
  | @step x y run o hcalm next hkept ih =>
      obtain ⟨hlawful', htranquil', hstands', hsame, hlater⟩ := ih
      obtain ⟨hlawful'', hquiet, htranquil''⟩ :=
        hlawful'.quiet_step htranquil' hcalm next hkept.1
      -- A record ages in every step, and while it is not free its request stays the same.
      refine ⟨hlawful'', htranquil'', hkept.2, ?_, ?_⟩
      · rw [(hquiet.ages p).announced_of_ne_free hstands', hsame]
      · exact UInt64.le_trans hlater ((hquiet.ages q).announced_le (htranquil'.dated q hq))

/-! ## Precedence -/

/-- **No overtaking.** When two processes compete and the request of `p` precedes that of `q`, then
`q` does not come inside before the record of `p` has been released. -/
theorem no_overtaking (party : Party s) {w y : Scene s} (hw : party.CalmlyReachable w)
    (hp : w.Competes p) (hq : w.Competes q)
    (hprecedes : (party.stamp w.cluster p).precedes (party.stamp w.cluster q) = true)
    (run : party.Stands p w y) :
    ¬ y.Inside q ∧ (party.record y.cluster q).standing ≠ .acquired := by
  obtain ⟨hp, hrequested⟩ := hw.requested hp
  obtain ⟨hq, -⟩ := hw.requested hq
  obtain ⟨hlawful, htranquil⟩ := hw.tranquil
  obtain ⟨hlawful', -, hstands, hsame, hlater⟩ :=
    run.keeps hlawful htranquil (by rw [hrequested]; decide) hq
  have hne : p ≠ q := by
    rintro rfl
    rw [Stamp.precedes_irrefl] at hprecedes
    cases hprecedes
  have hacquired : (party.record y.cluster q).standing ≠ .acquired := by
    intro hacquired
    have hcleared := hlawful'.sound.backed q hq hacquired p hp hne
    -- The request of `p` stands, so what clears `q` is that the request of `q` precedes it.
    have hrequested' : (party.record y.cluster p).standing = .requested :=
      Standing.eq_requested hstands hcleared.standing_ne
    have hstill : (party.stamp y.cluster p).precedes (party.stamp y.cluster q) = true := by
      have hstamp : party.stamp y.cluster p = party.stamp w.cluster p := by
        unfold stamp
        rw [hsame]
      rw [hstamp]
      exact Stamp.precedes_of_le hprecedes hlater rfl
    have hback := hcleared.precedes hrequested'
    rw [Stamp.precedes_asymm hstill] at hback
    cases hback
  exact ⟨fun hinside => hacquired (hlawful'.sound.acquired_of_inside hinside).2, hacquired⟩

/-- Both of a pair announce at the same time of their clocks, and the first goes inside. -/
theorem no_overtaking_pair : ∃ w y, pair.CalmlyReachable w ∧ w.Competes "P1" ∧
    w.Competes "P2" ∧ pair.Stands "P1" w y ∧ y.Inside "P1" ∧ ¬ y.Inside "P2" := by
  have hplay : (pair.play Scene.Calm (fun y => pair.InTime y.cluster) together
      (Occasion.entry "P1" 2 ++ Occasion.entry "P2" 2)).any (fun w => decide (w.Competes "P1" ∧
        w.Competes "P2" ∧
        (pair.stamp w.cluster "P1").precedes (pair.stamp w.cluster "P2") = true) &&
      (pair.play Scene.Calm (fun y => pair.InTime y.cluster ∧
        (pair.record y.cluster "P1").standing ≠ .free) w
        (List.replicate 3 (.advance "P1" 0))).any fun y => (y.activity "P1").isInside) = true := by
    decide +kernel
  obtain ⟨w, hw, hrest⟩ := (Option.any_eq_true _ _).mp hplay
  obtain ⟨hcompete, hplay'⟩ := Bool.and_eq_true_iff.mp hrest
  obtain ⟨hp, hq, hprecedes⟩ := of_decide_eq_true hcompete
  obtain ⟨y, hy, hinside⟩ := (Option.any_eq_true _ _).mp hplay'
  have hreachable : pair.CalmlyReachable w :=
    ⟨together, assembled_assembly .., connected_assembly .., run_of_play _ _ _ hw⟩
  have hstands : pair.Stands "P1" w y := run_of_play _ _ _ hy
  exact ⟨w, y, hreachable, hp, hq, hstands, Activity.isInside_iff.mp hinside,
    (no_overtaking pair hreachable hp hq hprecedes hstands).1⟩

end Party

end CriticalSection
