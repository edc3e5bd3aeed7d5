import CriticalSection.Proofs.Withdrawal.Permissions

/-!
# Cancelled attempts

An attempt whose token is cancelled while it asks its peers withdraws completely, whatever it has
been granted by then: its parts hang up, its record is freed and whoever waited there is granted.
-/

set_option autoImplicit false

namespace CriticalSection

variable {s : Extent}

/-! ## Withdrawing -/

/-- Who leaves in time has a record. -/
theorem Coordinator.exists_record_of_leave {k : Coordinator} {p : ProcessId}
    (h : (k.leave p).1 = .ok ()) : ∃ r, k.records[p]? = some r ∧ r.clock.time ≠ Clock.last := by
  unfold leave at h
  split at h
  · cases h
  · next r hr =>
      refine ⟨r, hr, fun hlast => ?_⟩
      simp [Record.leave, Clock.tick, hlast, overflowed] at h

/-- Unless a process acts, no record of it becomes acquired. -/
theorem Cluster.Course.acquired {acts : Option ProcessId}
    {joins : Fin s.brokers → ProcessId → Waiting → Prop} {c c' : Cluster s}
    (h : c.Course acts joins c') (horderly : ∀ b, (c.coordinator b).Orderly) {p : ProcessId}
    (hacts : acts ≠ some p) {b : Fin s.brokers} {r' : Record}
    (hr' : (c'.coordinator b).records[p]? = some r') (hacquired : r'.standing = .acquired) :
    ∃ r, (c.coordinator b).records[p]? = some r ∧ r.standing = .acquired := by
  obtain ⟨r, hr, hstanding⟩ := (h.coordinator b (horderly b)).standing p r' hacts hr'
  exact ⟨r, hr, hstanding ▸ hacquired⟩

namespace Acquire

variable {client : Client s} {own : Fin s.brokers} {place : Nat} {c c' : Cluster s}

/-- **An attempt that is cancelled in the end** has freed its record and granted whoever was parked
there. -/
theorem freed_of_cancelled {op : String} (hc : c.Uncancelling)
    (h : step client place (.withdrawing own) c = (.finish (fail (.cancelled op)), c')) :
    (∃ r, (c'.coordinator own).records[client.process]? = some r ∧ r.standing = .free ∧
      r.queue = []) ∧
    ∀ w, (c.coordinator own).Parks client.process w →
      (c'.coordinator own).answers[w.ticket]? = some .granted := by
  have hcall : ((c.brokers.get own).outage = none) ∧
      ((c.coordinator own).leave client.process).1 = .ok () := by
    rcases hleave : c.call own fun coordinator => coordinator.leave client.process with
      ⟨fault | ⟨⟩, c₁⟩ <;> simp only [step, hleave] at h <;> cases (Prod.mk.inj h).1
    · exact absurd (cancelled_of_call hc hleave) Coordinator.leave_ne_cancelled
    · rw [Cluster.call_eq] at hleave
      split at hleave
      · cases (Prod.mk.inj hleave).1
      · next houtage => exact ⟨houtage, (Prod.mk.inj hleave).1⟩
  obtain ⟨hwithin, hleave⟩ := hcall
  obtain ⟨r, hr, hlast⟩ := Coordinator.exists_record_of_leave hleave
  obtain ⟨c₁, hstep, hfreed, hgranted⟩ : ∃ c₁, step client place (.withdrawing own) c =
      (.finish (fail (.cancelled "acquire")), c₁) ∧ _ := step_withdrawing hwithin hr hlast
  obtain rfl : c₁ = c' := (Prod.mk.inj (hstep.symm.trans h)).2
  refine ⟨hfreed, fun w hparks => hgranted w.ticket ?_⟩
  obtain ⟨r', hr', hw⟩ := hparks
  obtain rfl : r = r' := Option.some.inj (hr.symm.trans hr')
  exact List.mem_map_of_mem hw

end Acquire

namespace Company

variable {x y z : Company s} {p : ProcessId}

/-- **A complete withdrawal** of a process whose own coordinator is at a broker. -/
structure Withdrawn (x z : Company s) (p : ProcessId) (own : Fin s.brokers) : Prop where
  /-- Its record is free and nobody waits for it. -/
  freed : ∃ r, (z.cluster.coordinator own).records[p]? = some r ∧ r.standing = .free ∧ r.queue = []
  /-- Whoever was parked on its record has been granted. -/
  granted : ∀ w, (x.cluster.coordinator own).Parks p w →
    (z.cluster.coordinator own).answers[w.ticket]? = some .granted
  /-- No request of its own is parked anywhere. -/
  gone : ∀ b q w, (z.cluster.coordinator b).Parks q w → w.request.process ≠ p
  /-- Whatever ticket it has held so far has a smaller number than those that are given out from now
  on. -/
  spent : ∀ u : Company s, u.Reachable → u.Run z → ∀ (q : ProcessId) (b : Fin s.brokers)
    (t : Ticket), (q, .parked b t) ∈ u.parts p → t.number < (z.cluster.coordinator b).issued
  /-- Whenever it is let in again, it has earned the permission of every peer since. -/
  anew : ∀ y, z.Run y → ∀ client own time, y.entry p = some (client, .granted own time) →
    ∀ q ∈ client.peers, z.Earned y p q time

/-- An attempt that goes on makes no record of its process acquired. -/
theorem acquired_of_moves {client : Client s} {stage stage' : Acquire s} {place : Nat}
    {c c' : Cluster s} (horderly : ∀ b, (c.coordinator b).Orderly)
    (hmove : stage.step client place c = (.next stage', c')) {b : Fin s.brokers} {r' : Record}
    (hr' : (c'.coordinator b).records[client.process]? = some r')
    (hacquired : r'.standing = .acquired) :
    ∃ r, (c.coordinator b).records[client.process]? = some r ∧ r.standing = .acquired := by
  rcases Acquire.next_cases hmove with ⟨-, own, -, hroute⟩ |
    ⟨own, time, -, -, hrequested, hothers⟩ | ⟨own, time, fan, rfl, -⟩
  · have hquiet : c.Quiet none (client.route client.process c).2 :=
      client.quiet_route client.process c
    rw [hroute] at hquiet
    exact hquiet.acquired horderly (by simp) hr' hacquired
  · by_cases hb : b = own
    · subst hb
      rw [hrequested r' hr'] at hacquired
      cases hacquired
    · rw [hothers b hb] at hr'
      exact ⟨r', hr', hacquired⟩
  · have hcourse : c.Course none _ c' := Acquire.course_gathering hmove
    exact hcourse.acquired horderly (by simp) hr' hacquired

/-- **While an attempt lasts nothing makes a record of its process acquired.** -/
theorem Sound.acquired_of_step (hx : x.Sound) {incident : Incident s}
    (hstep : x.step incident = some y) (hbefore : (x.entry p).isSome) (hafter : (y.entry p).isSome)
    {b : Fin s.brokers} {r' : Record} (hr' : (y.cluster.coordinator b).records[p]? = some r')
    (hacquired : r'.standing = .acquired) :
    ∃ r, (x.cluster.coordinator b).records[p]? = some r ∧ r.standing = .acquired := by
  cases (turn_of_step hx.conducts hstep).1 with
  | common quiet entry => exact quiet.acquired hx.orderly (by simp) hr' hacquired
  | beside p' quiet idle begun others =>
      refine quiet.acquired hx.orderly (fun heq => ?_) hr' hacquired
      obtain rfl := Option.some.inj heq
      rw [idle] at hbefore
      cases hbefore
  | moves p' client stage stage' place advance entry move left others =>
      obtain rfl := hx.conducts.process_of_entry entry
      by_cases hp : client.process = p
      · subst hp
        exact acquired_of_moves hx.orderly move hr' hacquired
      · exact (Acquire.course_step move).acquired hx.orderly
          (fun heq => hp (Option.some.inj heq)) hr' hacquired
  | ends p' client stage place outcome entry move left others =>
      obtain rfl := hx.conducts.process_of_entry entry
      refine (Acquire.course_step move).acquired hx.orderly (fun heq => ?_) hr' hacquired
      rw [← Option.some.inj heq, left] at hafter
      cases hafter
  | abandons p' client stage entry cluster left others =>
      have hquiet : x.cluster.Quiet none y.cluster := cluster ▸ stage.quiet_hangUp x.cluster
      exact hquiet.acquired hx.orderly (by simp) hr' hacquired

/-- **A cancelled attempt withdraws completely.** In any company that can be reached, while a call
makes an attempt to enter, nothing makes a record of its process acquired, and from the
announcement on its own record is requested. An attempt that finds its token cancelled while it
asks its peers turns to withdrawing, whatever it has been granted by then, and is cancelled if its
own coordinator can be told so. And an attempt that is cancelled has withdrawn: its record is free,
nobody waits for it, whoever was parked on it has been granted, no request of its own is parked
anywhere, and whenever the process is let in again it has earned the permission of every peer
since. -/
theorem cancelled_attempt_withdraws (hx : x.Reachable) {call : Call s} {client : Client s}
    {stage : Acquire s} (hcall : x.calls p = some call)
    (hentry : call.attempt? = some (client, stage)) :
    (∀ incident y, x.step incident = some y → (y.entry p).isSome →
      ∀ (b : Fin s.brokers) (r' : Record), (y.cluster.coordinator b).records[p]? = some r' →
      r'.standing = .acquired →
      ∃ r, (x.cluster.coordinator b).records[p]? = some r ∧ r.standing = .acquired) ∧
    (∀ (own : Fin s.brokers) (r : Record), stage.announcedAt? = some own →
      (x.cluster.coordinator own).records[p]? = some r → r.standing = .requested) ∧
    (∀ own time fan place, stage = .gathering own time fan →
      client.isCancelled x.cluster = true →
      ∃ call', call.step place x.cluster = (.next call', fan.hangUp x.cluster) ∧
        call'.attempt? = some (client, .withdrawing own)) ∧
    (∀ own r place, stage = .withdrawing own → (x.cluster.brokers.get own).outage = none →
      (x.cluster.coordinator own).records[p]? = some r → r.clock.time ≠ Clock.last →
      ∃ c, call.step place x.cluster = (.finish (fail (.cancelled "acquire")), c)) ∧
    ∀ place op c, call.step place x.cluster = (.finish (fail (.cancelled op)), c) →
      ∃ own, stage = .withdrawing own ∧ op = "acquire" ∧
        x.Withdrawn (x.proceed p none c) p own := by
  have hsound := hx.sound
  have hattempt : x.entry p = some (client, stage) := (entry_of_calls hcall).trans hentry
  obtain rfl := hsound.conducts.process_of_entry hattempt
  refine ⟨fun incident y hstep hafter b r' => hsound.acquired_of_step hstep (by simp [hattempt])
      hafter, fun own r => (hsound.attempts client.process).requested client stage own r hattempt,
    ?_, ?_, fun place op c hend => ?_⟩
  · rintro own time fan place rfl hcancelled
    have hm : Acquire.step client place (.gathering own time fan) x.cluster =
        (.next (.withdrawing own), fan.hangUp x.cluster) := by
      simp [Acquire.step, hcancelled]
    obtain ⟨move, hstep, hfollows⟩ := Call.follows_step hentry hm
    cases hfollows with
    | next hnext => exact ⟨_, hstep, hnext⟩
  · rintro own r place rfl hwithin hr hlast
    obtain ⟨c, hm, -⟩ : ∃ c, Acquire.step client place (.withdrawing own) x.cluster =
        (.finish (fail (.cancelled "acquire")), c) ∧ _ :=
      Acquire.step_withdrawing hwithin hr hlast
    obtain ⟨move, hstep, hfollows⟩ := Call.follows_step hentry hm
    cases hfollows with
    | fail fault => exact ⟨c, hstep⟩
  · rcases hm : stage.step client place x.cluster with ⟨m, c₁⟩
    obtain ⟨move, hstep, hfollows⟩ := Call.follows_step hentry hm
    obtain ⟨rfl, rfl⟩ := Prod.mk.inj (hstep.symm.trans hend)
    cases hfollows with
    | fail fault =>
        have hgenuine := (hsound.attempts client.process).genuine
        rw [parts_of_entry hattempt] at hgenuine
        obtain ⟨own, rfl, hop⟩ :=
          Acquire.withdrawing_of_cancelled hsound.uncancelling hsound.orderly hgenuine hm
        obtain ⟨hfreed, hgranted⟩ := Acquire.freed_of_cancelled hsound.uncancelling hm
        have hnext : x.step (.advance client.process place) =
            some (x.proceed client.process none c₁) := by
          simp only [step, hcall, hend]
        have hleft := hsound.step hnext
        have hnone : (x.proceed client.process none c₁).entry client.process = none :=
          entry_proceed_self x client.process none c₁
        refine ⟨own, rfl, hop, hfreed, hgranted, fun b q w hw hp => ?_,
          fun u hu hrun q b t hheld => ?_,
          fun y hrun client' own' time hgranted' => hrun.earned hleft hnone hgranted'⟩
        · have hcovered := (hleft.attempts client.process).covered b q w hw hp
          rw [parts_of_none hnone] at hcovered
          exact absurd hcovered List.not_mem_nil
        · have hnumber : t.number < (u.cluster.coordinator b).issued :=
            (hu.sound.attempts client.process).genuine _ hheld
          exact Nat.lt_of_lt_of_le hnumber (hrun.course hu.sound b).2

/-! ### Three processes at one broker -/

/-- Three processes at one broker, and tokens for four clients. -/
def trio : Company ⟨1, 1, 4⟩ where
  cluster :=
    { brokers := #v[⟨Broker.localEndpoint "a", .new 3, none⟩]
      routers := #v[.new [Extent.only]]
      cancelled := .replicate 4 false
      now := 0
      files := .empty }
  calls _ := none

/-- A client of one of the three, with one of the tokens. -/
def member (p : ProcessId) (token : Fin 4) : Client ⟨1, 1, 4⟩ :=
  ⟨p, ["P1", "P2", "P3"], some Extent.only, Extent.only, 0, token⟩

/-- A client subscribes. -/
def joining (client : Client ⟨1, 1, 4⟩) : List (Incident ⟨1, 1, 4⟩) :=
  .subscribe client :: [0, 0].map (.advance client.process)

/-- A client begins to enter, announces its request and asks both others. -/
def asking (client : Client ⟨1, 1, 4⟩) : List (Incident ⟨1, 1, 4⟩) :=
  .begin client .acquire :: [0, 0, 0, 0, 1, 1].map (.advance client.process)

/-- A client leaves. -/
def leaving (client : Client ⟨1, 1, 4⟩) : List (Incident ⟨1, 1, 4⟩) :=
  .begin client .release :: [0, 0].map (.advance client.process)

/-- "P1" is inside and "P2" waits for it, with the permission of "P3", which waits for both. Then
the token of "P2" is cancelled. -/
def interrupted : List (Incident ⟨1, 1, 4⟩) :=
  joining (member "P1" 0) ++ joining (member "P2" 1) ++ joining (member "P3" 2) ++
    asking (member "P1" 0) ++ [.advance "P1" 0] ++ asking (member "P2" 1) ++
    asking (member "P3" 2) ++ [.cancel 1, .advance "P2" 0]

/-- "P1" leaves, "P3" enters and leaves, and another client of "P2" is granted by both. -/
def resumed : List (Incident ⟨1, 1, 4⟩) :=
  leaving (member "P1" 0) ++ [.advance "P3" 0, .advance "P3" 1, .advance "P3" 0] ++
    leaving (member "P3" 2) ++ asking (member "P2" 3)

theorem founded_trio : trio.Founded := by
  refine ⟨fun b => ⟨3, ?_⟩, fun b op => ?_, fun _ => rfl⟩
  · obtain rfl : b = 0 := Subsingleton.elim b 0
    rfl
  · obtain rfl : b = 0 := Subsingleton.elim b 0
    exact nofun

/-- "P2" withdraws while "P3" waits for it, and later goes inside by permissions it has earned
since. -/
theorem cancelled_attempt_withdraws_trio : ∃ x z : Company ⟨1, 1, 4⟩, x.Reachable ∧
    x.Withdrawn z "P2" Extent.only ∧ (∃ w, (x.cluster.coordinator Extent.only).Parks "P2" w) ∧
    ∃ y client time, z.Run y ∧ y.entry "P2" = some (client, .granted Extent.only time) ∧
      client.peers = ["P1", "P3"] ∧ ∀ q ∈ client.peers, z.Earned y "P2" q time := by
  have hplay : (trio.play interrupted).any (fun x =>
      decide ((x.entry "P2").map Prod.snd = some (.withdrawing Extent.only)) &&
      decide ((x.cluster.brokers.get Extent.only).outage = none) &&
      ((x.cluster.coordinator Extent.only).records["P2"]?).any (fun r =>
        decide (r.clock.time ≠ Clock.last) && !r.queue.isEmpty) &&
      ((x.step (.advance "P2" 0)).bind fun z => z.play resumed).any fun y =>
        decide ((y.entry "P2").map (fun e => (e.1.peers, e.2)) =
          some (["P1", "P3"], .granted Extent.only 9))) = true := by
    decide +kernel
  obtain ⟨x, hx, hfacts⟩ := (Option.any_eq_true _ _).mp hplay
  simp only [Bool.and_eq_true, decide_eq_true_eq, Option.any_eq_true] at hfacts
  obtain ⟨⟨⟨hstage, hwithin⟩, r, hr, hlast, hqueue⟩, y, hy, hlater⟩ := hfacts
  have hreachable : x.Reachable := ⟨trio, founded_trio, run_of_play hx⟩
  obtain ⟨⟨client, stage⟩, hentry, rfl⟩ := Option.map_eq_some_iff.mp hstage
  obtain ⟨call, hcall, hattempt⟩ := Option.bind_eq_some_iff.mp hentry
  obtain ⟨-, -, -, hcancelled, hwithdrawn⟩ :=
    cancelled_attempt_withdraws hreachable hcall hattempt
  obtain ⟨c, hend⟩ := hcancelled Extent.only r 0 rfl hwithin hr hlast
  obtain ⟨own, hown, -, hz⟩ := hwithdrawn 0 "acquire" c hend
  obtain rfl := Acquire.withdrawing.inj hown
  obtain ⟨w, hw⟩ := List.exists_mem_of_ne_nil r.queue (by simpa using hqueue)
  obtain ⟨⟨client', stage'⟩, hgranted, hsame⟩ := Option.map_eq_some_iff.mp hlater
  obtain ⟨hpeers, rfl⟩ := Prod.mk.inj hsame
  have hnext : x.step (.advance "P2" 0) = some (x.proceed "P2" none c) := by
    simp only [step, hcall, hend]
  rw [hnext, Option.bind_some] at hy
  have hrun : (x.proceed "P2" none c).Run y := run_of_play hy
  exact ⟨x, _, hreachable, hz, ⟨w, r, hr, hw⟩, y, client', 9, hrun, hgranted, hpeers,
    hz.anew y hrun client' Extent.only 9 hgranted⟩

end Company

end CriticalSection
