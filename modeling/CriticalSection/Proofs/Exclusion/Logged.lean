import CriticalSection.Proofs.Coordinator.Arrivals
import CriticalSection.Proofs.Exclusion.Chronicle
import CriticalSection.Proofs.Exclusion.Journals

/-!
# What is logged has happened inside

A process adds to its log only while its record is acquired, its log tells of whole stays and at
most one more entry, and a round that ends well has logged all its visits. When a process leaves,
its record becomes free and everybody who has waited at it is granted the request, whatever has come
of its stay.
-/

set_option autoImplicit false

namespace CriticalSection

variable {s : Extent}

/-! ## Leaving -/

theorem Visit.step_leaving {β ρ : Type} (client : Client s)
    (body : β → Cluster s → Move β ρ × Cluster s) (place : Nat) (stage : Release s)
    (outcome : Outcome ρ) (c : Cluster s) :
    (step client body place (.leaving stage outcome) c).2 = (stage.step client c).2 := by
  rcases hstage : stage.step client c with ⟨_ | stage' | (fault | ⟨⟩), c'⟩ <;>
    simp only [step, hstage]
  cases fault <;> rfl

/-- The broker at which a client is to leave, when it is known. -/
def Activity.exit? : Activity s → Option (Fin s.brokers)
  | .leaving (.routed own) => some own
  | _ => none

theorem Activity.eq_leaving {a : Activity s} {own : Fin s.brokers} (h : a.exit? = some own) :
    a = .leaving (.routed own) := by
  cases a with
  | leaving stage =>
      cases stage with
      | start => cases h
      | routed own' =>
          obtain rfl := Option.some.inj h
          rfl
  | _ => cases h

/-- The outcome of a call that ends. -/
def Move.outcome? {σ ρ : Type} : Move σ ρ → Option (Outcome ρ)
  | finish outcome => some outcome
  | _ => none

theorem Move.eq_finish {σ ρ : Type} {move : Move σ ρ} {outcome : Outcome ρ}
    (h : move.outcome? = some outcome) : move = .finish outcome := by
  cases move with
  | finish outcome' =>
      obtain rfl := Option.some.inj h
      rfl
  | _ => cases h

namespace Party

variable {party : Party s} {p : ProcessId} {c c' : Cluster s}

/-- **A call that leaves the section** does to the cluster what leaving does, be it a call to leave
or the end of a visit. -/
theorem step_leaving {call : Call s} (hproper : party.Proper p call) {stage : Release s}
    (h : call.activity = .leaving stage) (place : Nat) (c : Cluster s) :
    (call.step place c).2 = (stage.step (party.client p) c).2 := by
  cases call with
  | release client stage' =>
      obtain rfl : client = party.client p := hproper
      obtain rfl := Activity.leaving.inj h
      rfl
  | visit client v =>
      obtain rfl : client = party.client p := hproper
      cases v with
      | leaving stage' outcome =>
          obtain rfl := Activity.leaving.inj h
          exact Visit.step_leaving _ _ _ _ _ c
      | _ => cases h
  | round client pacing r =>
      obtain ⟨rfl, -⟩ : client = party.client p ∧ r.AtBarriers := hproper
      cases r with
      | visiting v left =>
          cases v with
          | leaving stage' outcome =>
              obtain rfl := Activity.leaving.inj h
              rw [← Visit.step_leaving _ (LoggedStay.step (party.client p)) place stage' outcome]
              simp only [Call.step, Round.step]
              split <;> simp_all
          | _ => cases h
      | _ => cases h
  | _ => cases h

/-- **What is left when a process has given the section back**: its record is free, nobody waits at
it, and all who have waited have been granted their requests. -/
structure GivesBack (party : Party s) (p : ProcessId) (c c' : Cluster s) : Prop where
  free : (party.record c' p).standing = .free
  nobody : (party.record c' p).queue = []
  granted : ∀ t, t.place = .record p → (c.coordinator (party.host p)).Waits t →
    c'.outcome? (party.host p) t = some (.ok ())

theorem Settled.givesBack_leave (h : party.Settled c) (hp : p ∈ party.processes)
    (hlast : (party.record c p).clock.time ≠ Clock.last) :
    party.GivesBack p c (party.leave c p) := by
  have hrecord := h.record_leave hp p
  rw [if_pos rfl, Record.leave_of_ne_last hlast] at hrecord
  refine ⟨by rw [hrecord], by rw [hrecord], fun t hplace hwaits => ?_⟩
  have hleave : ((c.coordinator (party.host p)).leave p).1 = .ok () := by
    simp only [Coordinator.leave, h.getElem?_records hp, Record.leave_of_ne_last hlast]
  have hgranted := ((Coordinator.outcome?_leave (h.orderly _) hleave hplace).1 hwaits).2
  show ((party.leave c p).coordinator (party.host p)).outcome? t = _
  rw [Party.leave, Cluster.coordinator_withCoordinator, if_pos rfl, hgranted]

/-- **A call that reaches its broker to leave** gives the section back. -/
theorem Lawful.givesBack {x y : Scene s} (h : party.Lawful x) {place : Nat} {call : Call s}
    {own : Fin s.brokers} (hcall : x.calls p = some call)
    (hleaving : call.activity = .leaving (.routed own))
    (hreach : (x.cluster.brokers.get own).outage = none)
    (hstep : x.step party (.advance p place) = some y) :
    party.GivesBack p x.cluster y.cluster := by
  obtain ⟨hp, hproper⟩ := h.conducts.proper p call hcall
  have hlast := h.inTime p hp
  have houtside : x.admitted p = false := by
    refine Bool.eq_false_iff.mpr fun hadmitted => ?_
    rw [Call.activity_of_idle (h.conducts.idle p call hcall hadmitted)] at hleaving
    cases hleaving
  obtain rfl : own = party.host p := by
    have hfits := h.sound.fits p hp
    rwa [Scene.activity_of_some hcall houtside, hleaving] at hfits
  have hmove : (call.step place x.cluster).2 = party.leave x.cluster p := by
    rw [step_leaving hproper hleaving, Release.step, party.process_client p hp,
      h.sound.settled.call_leave hp hlast, hreach]
  have hcluster : y.cluster = (call.step place x.cluster).2 := by
    simp only [Scene.step, hcall] at hstep
    rcases hcallstep : call.step place x.cluster with ⟨_ | call' | outcome, c⟩ <;>
      rw [hcallstep] at hstep
    · cases hstep
    · obtain rfl := Option.some.inj hstep
      rfl
    · obtain rfl := Option.some.inj hstep
      rfl
  rw [hcluster, hmove]
  exact h.sound.settled.givesBack_leave hp hlast

/-! ## Logging -/

variable {logs : ProcessId → Location} {seen : ProcessId → Int64} {x y : Scene s} {o : Occasion s}

/-- **A log changes only while its process holds the section**, before the move and after it. -/
theorem Guarded.acquired (h : Guarded logs o x y p) (hlawful : party.Lawful x)
    (hchange : y.cluster.files.content? (logs p) ≠ x.cluster.files.content? (logs p)) :
    (∃ place, o = .advance p place) ∧ (party.record x.cluster p).standing = .acquired ∧
      (party.record y.cluster p).standing = .acquired := by
  rcases h with hsame | ⟨hplace, hinside, files, hcluster⟩
  · refine absurd ?_ hchange
    rw [FileTree.content?, hsame]
    rfl
  · have hacquired := (hlawful.sound.acquired_of_inside hinside).2
    refine ⟨hplace, hacquired, ?_⟩
    rw [hcluster]
    exact hacquired

/-- **A round that ends well** has logged all its visits, and ends with the log as it stands. -/
theorem Recounts.finish {log : Location} {last : Int64} {j : Journal}
    (h : party.Recounts log last x p j) {client : Client s} {pacing : Pacing} {r : Round s}
    (hcall : x.calls p = some (.round client pacing r)) {place : Nat} {k : UInt64}
    (hfinish : (r.step client pacing place x.cluster).1 = .finish (.ok k)) :
    k = pacing.visits ∧ j.since = none ∧ j.stays.length = k.toNat ∧
      (r.step client pacing place x.cluster).2.files = x.cluster.files := by
  obtain ⟨⟨due, hwrites, hagrees⟩, hvisits⟩ := h.round client pacing r hcall
  have hjot := hwrites.jot client place x.cluster
  rw [hfinish] at hjot
  generalize (r.step client pacing place x.cluster).2 = c at hjot ⊢
  cases hjot with
  | done hdue finished hkeeps =>
      rw [finished] at hvisits
      exact ⟨rfl, hagrees.mp hdue, hvisits, hkeeps.files⟩

/-- **What is logged has happened inside.** Whatever happens in a party whose processes keep logs,
calls that fail or are given up included, every log tells of whole stays and at most one more entry
in the order of time. What comes next changes a log only by a move of its process while its record
is acquired. If a round ends well, the log tells of as many whole stays as it had visits, and of
nothing else. If a call that leaves reaches its broker, the section is given back. -/
theorem logged_inside {start : Scene s} (hassembled : party.Assembled start)
    (hapart : party.Apart logs)
    (hblank : ∀ p ∈ party.processes, start.cluster.files.content? (logs p) = some .empty)
    (run : party.Logging logs start x seen) :
    (∀ p ∈ party.processes, ∃ j : Journal,
      x.cluster.files.content? (logs p) = some (j.log p).text.toUTF8 ∧ (j.log p).InOrder) ∧
    ∀ o y, party.Continues logs x seen o y → ∀ p ∈ party.processes,
      (y.cluster.files.content? (logs p) ≠ x.cluster.files.content? (logs p) →
        (∃ place, o = .advance p place) ∧ (party.record x.cluster p).standing = .acquired ∧
          (party.record y.cluster p).standing = .acquired) ∧
      ∀ place call, o = .advance p place → x.calls p = some call →
        (∀ client pacing r k, call = .round client pacing r →
          (r.step client pacing place x.cluster).1 = .finish (.ok k) →
            k = pacing.visits ∧ ∃ j : Journal, j.since = none ∧ j.stays.length = k.toNat ∧
              y.cluster.files.content? (logs p) = some (j.log p).text.toUTF8) ∧
        ∀ own, call.activity = .leaving (.routed own) →
          (x.cluster.brokers.get own).outage = none → party.GivesBack p x.cluster y.cluster := by
  obtain ⟨hlawful, hjournaled⟩ := run.journaled hassembled hapart hblank
  refine ⟨fun p hp => ?_, fun o y hnext p hp => ⟨?_, ?_⟩⟩
  · obtain ⟨j, hj⟩ := hjournaled p hp
    exact ⟨j, FileTree.content?_eq_some.mpr hj.file, hj.order.inOrder⟩
  · exact ((hjournaled.step hapart hlawful.conducts hnext).2 p hp).acquired hlawful
  · rintro place call rfl hcall
    refine ⟨?_, fun own hleaving hreach => hlawful.givesBack hcall hleaving hreach hnext.next⟩
    rintro client pacing r k rfl hfinish
    obtain ⟨j, hj⟩ := hjournaled p hp
    obtain ⟨hk, hsince, hlength, hfiles⟩ := hj.finish hcall hfinish
    refine ⟨hk, j, hsince, hlength, ?_⟩
    have hnextStep := hnext.next
    simp only [Scene.step, hcall, Call.step, hfinish] at hnextStep
    obtain rfl := Option.some.inj hnextStep
    rw [Scene.conclude, hfiles]
    exact FileTree.content?_eq_some.mpr hj.file

/-! ## A pair -/

/-- What comes next in the run of the pair after some of its occasions, when it passes a test. -/
theorem exists_next_pair {n : Nat} {o : Occasion ⟨1, 1, 1⟩}
    (test : Scene ⟨1, 1, 1⟩ → Scene ⟨1, 1, 1⟩ → Bool)
    (h : ((pair.playLogging Plan.pair.location Plan.pairStart (fun _ => Int64.minValue)
      (Plan.pairRun.take n)).any fun (x, seen) =>
        (pair.next? Plan.pair.location x seen o).any (test x)) = true) :
    ∃ x seen y, pair.Logging Plan.pair.location Plan.pairStart x seen ∧
      pair.Continues Plan.pair.location x seen o y ∧ test x y = true := by
  obtain ⟨⟨x, seen⟩, hplay, hrest⟩ := (Option.any_eq_true _ _).mp h
  obtain ⟨y, hnext, htest⟩ := (Option.any_eq_true _ _).mp hrest
  exact ⟨x, seen, y, Logging.refl.play hplay, continues_of_next? hnext, htest⟩

/-- The second of the pair logs its exit while its record is acquired; when it leaves, the first
one, which has waited, is granted its request; and when its round ends it has logged one stay. -/
theorem logged_inside_pair :
    (∃ x seen y, pair.Logging Plan.pair.location Plan.pairStart x seen ∧
      pair.Continues Plan.pair.location x seen (.advance "P2" 0) y ∧
      y.cluster.files.content? "P2.log" ≠ x.cluster.files.content? "P2.log" ∧
      (pair.record x.cluster "P2").standing = .acquired ∧
      (pair.record y.cluster "P2").standing = .acquired) ∧
    (∃ x seen y, pair.Logging Plan.pair.location Plan.pairStart x seen ∧
      pair.Continues Plan.pair.location x seen (.advance "P2" 0) y ∧
      (x.cluster.coordinator 0).Waits ⟨.record "P2", 2⟩ ∧ pair.GivesBack "P2" x.cluster y.cluster ∧
      y.cluster.outcome? 0 ⟨.record "P2", 2⟩ = some (.ok ())) ∧
    ∃ x seen y, pair.Logging Plan.pair.location Plan.pairStart x seen ∧
      pair.Continues Plan.pair.location x seen (.advance "P2" 1) y ∧
      ∃ j : Journal, j.since = none ∧ j.stays.length = 1 ∧
        y.cluster.files.content? "P2.log" = some (j.log "P2").text.toUTF8 := by
  have hblank : ∀ p ∈ pair.processes,
      Plan.pairStart.cluster.files.content? (Plan.pair.location p) = some .empty :=
    fun p hp => FileTree.content?_eq_some.mpr (Plan.ready_pair.blank p hp)
  have hlogged := fun {x seen} (run : pair.Logging Plan.pair.location Plan.pairStart x seen) =>
    (logged_inside Plan.ready_pair.assembled Plan.fits_pair.apart hblank run).2
  have hp : "P2" ∈ pair.processes := by decide
  refine ⟨?_, ?_, ?_⟩
  · obtain ⟨x, seen, y, run, hnext, htest⟩ := exists_next_pair
      (n := 23) (o := .advance "P2" 0)
      (fun x y => decide (y.cluster.files.content? "P2.log" ≠ x.cluster.files.content? "P2.log"))
      (by decide +kernel)
    have hchange := of_decide_eq_true htest
    obtain ⟨-, hbefore, hafter⟩ := (hlogged run _ y hnext "P2" hp).1 hchange
    exact ⟨x, seen, y, run, hnext, hchange, hbefore, hafter⟩
  · obtain ⟨x, seen, y, run, hnext, htest⟩ := exists_next_pair
      (n := 25) (o := .advance "P2" 0)
      (fun x _ => (((x.calls "P2").bind fun call => call.activity.exit?).any fun own =>
          (x.cluster.brokers.get own).outage.isNone) &&
        ((x.cluster.coordinator 0).records["P2"]?).any fun r => 2 ∈ r.tickets)
      (by decide +kernel)
    obtain ⟨hleaves, hrecord⟩ := (Bool.and_eq_true _ _).mp htest
    obtain ⟨own, hexit, hreach⟩ := (Option.any_eq_true _ _).mp hleaves
    obtain ⟨call, hcall, hactivity⟩ := Option.bind_eq_some_iff.mp hexit
    obtain ⟨r, hr, hticket⟩ := (Option.any_eq_true _ _).mp hrecord
    have hback := ((hlogged run _ y hnext "P2" hp).2 0 call rfl hcall).2 own
      (Activity.eq_leaving hactivity) (Option.isNone_iff_eq_none.mp hreach)
    have hwaits : (x.cluster.coordinator 0).Waits ⟨.record "P2", 2⟩ :=
      ⟨r, hr, of_decide_eq_true hticket⟩
    exact ⟨x, seen, y, run, hnext, hwaits, hback, hback.granted _ rfl hwaits⟩
  · obtain ⟨x, seen, y, run, hnext, htest⟩ := exists_next_pair
      (n := 43) (o := .advance "P2" 1)
      (fun x _ => ((x.calls "P2").bind Call.round?).any fun e =>
        (e.2.2.step e.1 e.2.1 1 x.cluster).1.outcome? = some (.ok 1))
      (by decide +kernel)
    obtain ⟨⟨client, pacing, r⟩, hround, hends⟩ := (Option.any_eq_true _ _).mp htest
    obtain ⟨call, hcall, hkind⟩ := Option.bind_eq_some_iff.mp hround
    obtain ⟨-, j, hsince, hlength, hlog⟩ :=
      ((hlogged run _ y hnext "P2" hp).2 1 call rfl hcall).1 client pacing r 1
        (Call.eq_round hkind) (Move.eq_finish (of_decide_eq_true hends))
    exact ⟨x, seen, y, run, hnext, j, hsince, hlength, hlog⟩

end Party

end CriticalSection
