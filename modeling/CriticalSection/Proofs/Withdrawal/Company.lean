import Mathlib.Logic.Function.Basic
import CriticalSection.Cluster.Call
import CriticalSection.Proofs.Exclusion.Party
import CriticalSection.Proofs.Withdrawal.Courses

/-!
# Companies

A **company** is a cluster with any clients whatever, of which one at a time acts for each process
and makes its calls one after another. Nothing is agreed on: the clients may have different lists
of processes, share tokens or routers, enter when they are inside already and subscribe again, and
brokers may start anew or be out of reach at any time. A call at a broker takes effect at once, or
fails while that broker is out of reach. All that is fixed is where a company begins, with
coordinators that host nobody.

What an incident comes to is a `Turn` in the attempts to enter that are being made: one of them
moves, ends, or is abandoned, or something quiet happens beside them.
-/

set_option autoImplicit false

namespace CriticalSection

variable {s : Extent}

/-! ## Attempts -/

/-- The attempt that is made while a client is entering. -/
def Activity.attempt? : Activity s → Option (Acquire s)
  | entering stage => some stage
  | _ => none

/-- The client that makes a call. -/
def Call.client? : Call s → Option (Client s)
  | subscribe client _ | acquire client _ | release client _ | lineUp client _
  | awaitPeers client _ _ _ | visit client _ | round client _ _ => some client
  | direct .. => none

/-- **The attempt to enter that a call makes**: its client and its stage. -/
def Call.attempt? (call : Call s) : Option (Client s × Acquire s) :=
  call.client?.bind fun client => call.activity.attempt?.map fun stage => (client, stage)

/-- Where the request of an attempt stands, from its announcement on. -/
def Acquire.announcedAt? : Acquire s → Option (Fin s.brokers)
  | gathering own _ _ | withdrawing own | granted own _ => some own
  | _ => none

/-- The parts of the fan-out by which an attempt asks its peers, while it does. -/
def Acquire.parts : Acquire s → List (ProcessId × Part s)
  | gathering _ _ fan => fan.parts
  | _ => []

/-! ## Companies -/

/-- **A company**: a cluster, and the call that is in progress for each process. -/
structure Company (s : Extent) where
  cluster : Cluster s
  calls : ProcessId → Option (Call s)

/-- What may happen in a company. -/
inductive Incident (s : Extent)
  /-- A client begins a call. -/
  | begin (client : Client s) (errand : Errand)
  | subscribe (client : Client s)
  /-- The call of a process moves; a fan-out moves the part at a place. -/
  | advance (p : ProcessId) (place : Nat)
  | hangUp (p : ProcessId)
  | cancel (token : Fin s.tokens)
  | setOutage (b : Fin s.brokers) (outage : Option Error)
  | refresh (r : Fin s.routers)
  | setTime (time : Int64)
  | restart (b : Fin s.brokers) (expected : UInt64)

namespace Company

/-- The attempt to enter that is made for a process. -/
def entry (x : Company s) (p : ProcessId) : Option (Client s × Acquire s) :=
  (x.calls p).bind Call.attempt?

/-- The calls with which the peers of a process are asked, while they are. -/
def parts (x : Company s) (p : ProcessId) : List (ProcessId × Part s) :=
  (x.entry p).elim [] fun e => e.2.parts

/-- Takes down which call is in progress for a process. -/
def proceed (x : Company s) (p : ProcessId) (call : Option (Call s)) (c : Cluster s) : Company s :=
  ⟨c, Function.update x.calls p call⟩

/-- **The company after an incident**, if it can happen. The calls of a process are made one after
another, and no broker is out of reach because somebody has cancelled. -/
def step (x : Company s) : Incident s → Option (Company s)
  | .begin client errand =>
    match x.calls client.process with
    | some _ => none
    | none => some (x.proceed client.process (some (errand.start client)) x.cluster)
  | .subscribe client =>
    match x.calls client.process with
    | some _ => none
    | none => some (x.proceed client.process (some (.subscribe client .start)) x.cluster)
  | .advance p place =>
    match x.calls p with
    | none => none
    | some call =>
      match call.step place x.cluster with
      | (.wait, _) => none
      | (.next call, c) => some (x.proceed p (some call) c)
      | (.finish _, c) => some (x.proceed p none c)
  | .hangUp p =>
    match x.calls p with
    | none => none
    | some call => some (x.proceed p none (call.hangUp x.cluster))
  | .cancel token => some { x with cluster := x.cluster.cancel token }
  | .setOutage b outage =>
    match outage with
    | some (.cancelled _) => none
    | _ => some { x with cluster := x.cluster.setOutage b outage }
  | .refresh r => some { x with cluster := x.cluster.refresh r }
  | .setTime time => some { x with cluster := { x.cluster with now := time } }
  | .restart b expected =>
    some { x with cluster :=
      x.cluster.withCoordinator b ((x.cluster.coordinator b).restart expected) }

/-- **A company to begin with**: its coordinators host nobody and no call is in progress. -/
structure Founded (x : Company s) : Prop where
  unused : ∀ b, ∃ expected, x.cluster.coordinator b = .new expected
  uncancelling : x.cluster.Uncancelling
  idle : ∀ p, x.calls p = none

/-- **What may become of a company** by any incidents, one after another. -/
inductive Run (x : Company s) : Company s → Prop
  | refl : Run x x
  | step {y z : Company s} (run : Run x y) (incident : Incident s)
      (next : y.step incident = some z) : Run x z

/-- **Reachable companies.** -/
def Reachable (x : Company s) : Prop := ∃ start : Company s, start.Founded ∧ start.Run x

theorem Run.trans {x y z : Company s} (h : x.Run y) (h' : y.Run z) : x.Run z := by
  induction h' with
  | refl => exact h
  | step _ incident next ih => exact ih.step incident next

/-- The company after some incidents, if they can happen. -/
def play (x : Company s) : List (Incident s) → Option (Company s)
  | [] => some x
  | incident :: rest => (x.step incident).bind fun y => y.play rest

/-- **What can be played is a run.** -/
theorem run_of_play {incidents : List (Incident s)} {x y : Company s}
    (h : x.play incidents = some y) : x.Run y := by
  induction incidents generalizing x with
  | nil =>
      obtain rfl := Option.some.inj h
      exact .refl
  | cons incident rest ih =>
      obtain ⟨z, hnext, hplay⟩ := Option.bind_eq_some_iff.mp h
      exact (Run.refl.step incident hnext).trans (ih hplay)

end Company

/-! ## Moves of a call -/

namespace Call

variable {p : ProcessId} {client : Client s} {stage : Acquire s}

theorem attempt?_eq_some_iff {call : Call s} :
    call.attempt? = some (client, stage) ↔
      call.client? = some client ∧ call.activity = .entering stage := by
  unfold attempt?
  cases hclient : call.client? <;> cases hactivity : call.activity <;>
    simp [Activity.attempt?]

/-- A call that goes on is made by the same client. -/
theorem client?_step {call call' : Call s} {place : Nat} {c c' : Cluster s}
    (h : call.step place c = (.next call', c')) : call'.client? = call.client? := by
  cases goesOn_of_step (congrArg Prod.fst h) <;> rfl

/-- **What becomes of a call that makes an attempt**, by what becomes of the attempt: the call
waits, goes on and fails with it, and once it has led inside the call makes none. -/
inductive Follows (client : Client s) : Move (Acquire s) UInt64 → Move (Call s) Yield → Prop
  | wait : Follows client .wait .wait
  | next {stage : Acquire s} {call : Call s} (h : call.attempt? = some (client, stage)) :
      Follows client (.next stage) (.next call)
  | fail (fault : Fault) : Follows client (.finish (.error fault)) (.finish (.error fault))
  | enter (time : UInt64) {call : Call s} (h : call.attempt? = none) :
      Follows client (.finish (.ok time)) (.next call)
  | finish (time : UInt64) (yield : Yield) :
      Follows client (.finish (.ok time)) (.finish (.ok yield))

variable {call : Call s} {place : Nat} {c c' : Cluster s}

/-- **A call that makes an attempt** moves as the attempt does. -/
theorem follows_step {m : Move (Acquire s) UInt64} (h : call.attempt? = some (client, stage))
    (hm : stage.step client place c = (m, c')) :
    ∃ move, call.step place c = (move, c') ∧ Follows client m move := by
  obtain ⟨hclient, hactivity⟩ := attempt?_eq_some_iff.mp h
  cases call with
  | acquire client' stage' =>
      cases hclient
      cases hactivity
      simp only [step, hm]
      rcases m with _ | stage' | (fault | time)
      · exact ⟨_, rfl, .wait⟩
      · exact ⟨_, rfl, .next rfl⟩
      · exact ⟨_, rfl, .fail fault⟩
      · exact ⟨_, rfl, .finish time (.time time)⟩
  | visit client' v =>
      cases hclient
      cases v with
      | entering stage' b =>
          cases hactivity
          simp only [step, Visit.step, hm]
          rcases m with _ | stage' | (fault | time)
          · exact ⟨_, rfl, .wait⟩
          · exact ⟨_, rfl, .next rfl⟩
          · exact ⟨_, rfl, .fail fault⟩
          · exact ⟨_, rfl, .enter time rfl⟩
      | _ => cases hactivity
  | round client' pacing r =>
      cases hclient
      cases r with
      | visiting v left =>
          cases v with
          | entering stage' b =>
              cases hactivity
              simp only [step, Round.step, Visit.step, hm]
              rcases m with _ | stage' | (fault | time)
              · exact ⟨_, rfl, .wait⟩
              · exact ⟨_, rfl, .next rfl⟩
              · exact ⟨_, rfl, .fail fault⟩
              · exact ⟨_, rfl, .enter time rfl⟩
          | _ => cases hactivity
      | _ => cases hactivity
  | _ => cases hactivity

/-- A call whose caller hangs up gives its attempt up. -/
theorem hangUp_of_entry (h : call.attempt? = some (client, stage)) (c : Cluster s) :
    call.hangUp c = stage.hangUp c := by
  obtain ⟨-, hactivity⟩ := attempt?_eq_some_iff.mp h
  cases call with
  | acquire client' stage' =>
      cases hactivity
      rfl
  | visit client' v =>
      cases v <;> cases hactivity
      rfl
  | round client' pacing r =>
      cases r with
      | visiting v left =>
          cases v <;> cases hactivity
          rfl
      | _ => cases hactivity
  | _ => cases hactivity

/-! ### Calls that make no attempt -/

/-- A visit that is past its attempt is quiet, when what is done inside is. -/
theorem quiet_visit {β ρ : Type} {body : β → Cluster s → Move β ρ × Cluster s}
    (client : Client s) (place : Nat) (hbody : ∀ b, c.Quiet (some client.process) (body b c).2)
    {v : Visit s β ρ} (h : v.activity.attempt? = none) :
    c.Quiet (some client.process) (v.step client body place c).2 ∧
      ∀ v' stage, (v.step client body place c).1 = .next v' → v'.activity ≠ .entering stage := by
  cases v with
  | entering stage b => cases h
  | inside b =>
      have hb := hbody b
      simp only [Visit.step]
      rcases hm : body b c with ⟨_ | b' | (⟨_ | _⟩ | value), c₁⟩ <;> rw [hm] at hb <;>
        refine ⟨hb, ?_⟩ <;> rintro v' stage heq <;> cases heq <;> nofun
  | leaving stage outcome =>
      have hr := stage.quiet_step client c
      simp only [Visit.step]
      rcases hm : stage.step client c with ⟨_ | stage' | (⟨_ | _⟩ | value), c₁⟩ <;>
        rw [hm] at hr <;> refine ⟨hr, ?_⟩ <;> rintro v' stage heq <;> cases heq
      nofun

/-- What a round goes on with makes an attempt from its start, if it makes one. -/
theorem start_of_resume (client : Client s) (pacing : Pacing) (writer : LogWriter) (left : Nat)
    (stage : Acquire s) (h : (Round.resume client pacing writer left).activity = .entering stage) :
    stage = .start := by
  cases left with
  | zero => cases h
  | succ left => exact (Activity.entering.inj h).symm

/-- A round that makes no attempt is quiet, and at most begins one. -/
theorem quiet_round (client : Client s) (pacing : Pacing) (place : Nat) (c : Cluster s)
    {r : Round s} (h : r.activity.attempt? = none) :
    c.Quiet (some client.process) (r.step client pacing place c).2 ∧
      ∀ r' stage, (r.step client pacing place c).1 = .next r' → r'.activity = .entering stage →
        stage = .start := by
  cases r with
  | gathering line writer =>
      have hline : c.Quiet (some client.process) (line.step client place c).2 :=
        line.quiet_step client place c
      simp only [Round.step]
      rcases hm : line.step client place c with ⟨_ | line' | (fault | ⟨⟩), c₁⟩ <;>
        rw [hm] at hline <;> refine ⟨hline, ?_⟩ <;> rintro r' stage heq hactivity <;> cases heq
      · cases hactivity
      · exact start_of_resume client pacing writer _ stage hactivity
  | visiting v left =>
      obtain ⟨hvisit, hnext⟩ := quiet_visit client place
        (fun b => LoggedStay.quiet_step client b c) h
      simp only [Round.step]
      rcases hm : v.step client (LoggedStay.step client) place c with
        ⟨_ | v' | (fault | writer), c₁⟩ <;>
        rw [hm] at hvisit hnext <;> refine ⟨hvisit, ?_⟩ <;> rintro r' stage heq hactivity <;>
        cases heq
      · exact absurd hactivity (hnext v' stage rfl)
      · cases hactivity
  | thinking deadline writer left =>
      simp only [Round.step]
      split
      · refine ⟨.refl c, ?_⟩
        rintro r' stage heq hactivity
        cases heq
        exact start_of_resume client pacing writer left stage hactivity
      · refine ⟨.refl c, ?_⟩
        rintro r' stage heq
        cases heq
  | parting line =>
      have hline : c.Quiet (some client.process) (line.step client place c).2 :=
        line.quiet_step client place c
      simp only [Round.step]
      rcases hm : line.step client place c with ⟨_ | line' | (fault | ⟨⟩), c₁⟩ <;>
        rw [hm] at hline <;> refine ⟨hline, ?_⟩ <;> rintro r' stage heq hactivity <;> cases heq
      cases hactivity

/-- **A call that makes no attempt is quiet**, and at most begins one. -/
theorem quiet_step (h : call.attempt? = none) (hclient : call.client? = some client) (place : Nat)
    (c : Cluster s) :
    c.Quiet (some client.process) (call.step place c).2 ∧
      ∀ call' stage, (call.step place c).1 = .next call' → call'.activity = .entering stage →
        stage = .start := by
  have hnone : call.activity.attempt? = none := by
    simpa [attempt?, hclient] using h
  -- A call begins an attempt only as the activity it goes on with does.
  have hgoes : ∀ {σ ρ : Type} {m : Move σ ρ} {f : σ → Call s} {g : ρ → Yield},
      (∀ next stage, m = .next next → (f next).activity = .entering stage → stage = .start) →
      ∀ call' stage, m.map f g = .next call' → call'.activity = .entering stage →
        stage = .start := by
    intro σ ρ m f g hf call' stage hnext hactivity
    obtain ⟨next, hm, rfl⟩ := Move.exists_of_map_eq_next hnext
    exact hf next stage hm hactivity
  cases call with
  | acquire client' stage => cases hnone
  | direct b reaction => cases hclient
  | subscribe client' stage =>
      obtain rfl := Option.some.inj hclient
      exact ⟨stage.quiet_step client' c, hgoes fun _ _ _ => nofun⟩
  | release client' stage =>
      obtain rfl := Option.some.inj hclient
      exact ⟨stage.quiet_step client' c, hgoes fun _ _ _ => nofun⟩
  | lineUp client' line => exact ⟨line.quiet_step client' place c, hgoes fun _ _ _ => nofun⟩
  | awaitPeers client' pause attempts stage =>
      exact ⟨stage.quiet_step client' pause attempts c, hgoes fun _ _ _ => nofun⟩
  | visit client' v =>
      obtain rfl := Option.some.inj hclient
      obtain ⟨hquiet, hv⟩ := quiet_visit client' place (fun b => Stay.quiet_step b c) hnone
      exact ⟨hquiet, hgoes fun v' stage hm hactivity => absurd hactivity (hv v' stage hm)⟩
  | round client' pacing r =>
      obtain rfl := Option.some.inj hclient
      obtain ⟨hquiet, hr⟩ := quiet_round client' pacing place c hnone
      exact ⟨hquiet, hgoes hr⟩

/-- Whoever hangs up without an attempt is quiet. -/
theorem quiet_hangUp (h : call.attempt? = none) (hclient : call.client? = some client) :
    c.Quiet (some client.process) (call.hangUp c) := by
  have hnone : call.activity.attempt? = none := by
    simpa [attempt?, hclient] using h
  cases call with
  | acquire client' stage => cases hnone
  | direct b reaction => cases hclient
  | lineUp client' line => exact line.fan.quiet_hangUp c
  | visit client' v =>
      cases v with
      | entering stage b => cases hnone
      | _ => exact .refl c
  | round client' pacing r =>
      cases r with
      | gathering line writer => exact line.fan.quiet_hangUp c
      | parting line => exact line.fan.quiet_hangUp c
      | thinking deadline writer left => exact .refl c
      | visiting v left =>
          cases v with
          | entering stage b => cases hnone
          | _ => exact .refl c
  | _ => exact .refl c

end Call

/-! ## Turns -/

theorem Errand.client?_start (client : Client s) (errand : Errand) :
    (errand.start client).client? = some client := by
  cases errand <;> rfl

theorem Errand.stage_of_start {client : Client s} {errand : Errand} {stage : Acquire s}
    (h : (errand.start client).activity = .entering stage) : stage = .start := by
  cases errand with
  | acquire => exact (Activity.entering.inj h).symm
  | visit duration ending => exact (Activity.entering.inj h).symm
  | _ => cases h

namespace Company

variable {x y : Company s} {p q : ProcessId}

/-- **Clients act for their own processes**: the call for a process is made by a client of it. -/
def Conducts (x : Company s) : Prop :=
  ∀ p call, x.calls p = some call → ∃ client, call.client? = some client ∧ client.process = p

/-- **What an incident comes to** in the attempts to enter. -/
inductive Turn (x y : Company s) : Prop
  /-- It concerns nobody's attempt. -/
  | common (quiet : x.cluster.Quiet none y.cluster) (entry : ∀ p, y.entry p = x.entry p)
  /-- A process does something besides an attempt, or it begins one. -/
  | beside (p : ProcessId) (quiet : x.cluster.Quiet (some p) y.cluster) (idle : x.entry p = none)
      (begun : ∀ client stage, y.entry p = some (client, stage) →
        client.process = p ∧ stage = .start)
      (others : ∀ q, q ≠ p → y.entry q = x.entry q)
  /-- An attempt moves on. -/
  | moves (p : ProcessId) (client : Client s) (stage stage' : Acquire s) (place : Nat)
      (advance : x.step (.advance p place) = some y) (entry : x.entry p = some (client, stage))
      (move : stage.step client place x.cluster = (.next stage', y.cluster))
      (left : y.entry p = some (client, stage')) (others : ∀ q, q ≠ p → y.entry q = x.entry q)
  /-- An attempt ends. -/
  | ends (p : ProcessId) (client : Client s) (stage : Acquire s) (place : Nat)
      (outcome : Outcome UInt64) (entry : x.entry p = some (client, stage))
      (move : stage.step client place x.cluster = (.finish outcome, y.cluster))
      (left : y.entry p = none) (others : ∀ q, q ≠ p → y.entry q = x.entry q)
  /-- An attempt is given up by its caller. -/
  | abandons (p : ProcessId) (client : Client s) (stage : Acquire s)
      (entry : x.entry p = some (client, stage)) (cluster : y.cluster = stage.hangUp x.cluster)
      (left : y.entry p = none) (others : ∀ q, q ≠ p → y.entry q = x.entry q)

theorem calls_proceed (x : Company s) (p q : ProcessId) (call : Option (Call s)) (c : Cluster s) :
    (x.proceed p call c).calls q = if q = p then call else x.calls q := by
  show Function.update x.calls p call q = _
  rw [Function.update_apply]

theorem entry_proceed_self (x : Company s) (p : ProcessId) (call : Option (Call s))
    (c : Cluster s) : (x.proceed p call c).entry p = call.bind Call.attempt? := by
  rw [entry, calls_proceed, if_pos rfl]

theorem entry_proceed_of_ne (h : q ≠ p) (x : Company s) (call : Option (Call s)) (c : Cluster s) :
    (x.proceed p call c).entry q = x.entry q := by
  rw [entry, calls_proceed, if_neg h, entry]

theorem entry_of_calls {call : Call s} (h : x.calls p = some call) :
    x.entry p = call.attempt? := by
  simp [entry, h]

/-- Clients still act for their own processes when one of them does. -/
theorem Conducts.proceed (hx : x.Conducts) {client : Client s} {call : Option (Call s)}
    (hclient : ∀ call', call = some call' → call'.client? = some client) (c : Cluster s) :
    (x.proceed client.process call c).Conducts := by
  intro q call' hq
  rw [calls_proceed] at hq
  split at hq
  · next heq => exact ⟨client, hclient call' hq, heq.symm⟩
  · exact hx q call' hq

/-- A client that makes no attempt is quiet and at most begins one. -/
theorem turn_beside {client : Client s} {call : Option (Call s)} {c : Cluster s}
    (hquiet : x.cluster.Quiet (some client.process) c) (hidle : x.entry client.process = none)
    (hclient : ∀ call', call = some call' → call'.client? = some client)
    (hbegun : ∀ call' stage, call = some call' → call'.activity = .entering stage →
      stage = .start) : x.Turn (x.proceed client.process call c) := by
  refine .beside client.process hquiet hidle ?_ fun q hq => entry_proceed_of_ne hq x _ c
  intro client' stage hentry
  rw [entry_proceed_self] at hentry
  obtain ⟨call', hcall, hcall'⟩ := Option.bind_eq_some_iff.mp hentry
  obtain ⟨hclient', hactivity⟩ := Call.attempt?_eq_some_iff.mp hcall'
  obtain rfl : client = client' :=
    Option.some.inj ((hclient call' hcall).symm.trans hclient')
  exact ⟨rfl, hbegun call' stage hcall hactivity⟩

/-- An attempt that moves: it goes on, or it is over. -/
theorem turn_attempt {call : Call s} {client : Client s} {stage : Acquire s} {place : Nat}
    (hx : x.Conducts) (hcall : x.calls client.process = some call)
    (hattempt : call.attempt? = some (client, stage))
    (h : x.step (.advance client.process place) = some y) : x.Turn y ∧ y.Conducts := by
  have hadvance := h
  have hentry := (entry_of_calls hcall).trans hattempt
  have hclient := (Call.attempt?_eq_some_iff.mp hattempt).1
  rcases hm : stage.step client place x.cluster with ⟨m, c⟩
  obtain ⟨move, hstep, hfollows⟩ := Call.follows_step hattempt hm
  have hothers : ∀ (call' : Option (Call s)) q, q ≠ client.process →
      (x.proceed client.process call' c).entry q = x.entry q :=
    fun call' q hq => entry_proceed_of_ne hq x call' c
  simp only [step, hcall, hstep] at h
  cases hfollows with
  | wait => cases h
  | @next stage' call' hnext =>
      obtain rfl := Option.some.inj h
      refine ⟨.moves _ client stage stage' place hadvance hentry hm
        ((entry_proceed_self x _ _ c).trans hnext) (hothers _), hx.proceed ?_ c⟩
      exact fun call₁ heq => Option.some.inj heq ▸ (Call.client?_step hstep).trans hclient
  | fail fault =>
      obtain rfl := Option.some.inj h
      exact ⟨.ends _ client stage place _ hentry hm (entry_proceed_self x _ _ c) (hothers _),
        hx.proceed (by simp) c⟩
  | @enter time call' hnext =>
      obtain rfl := Option.some.inj h
      refine ⟨.ends _ client stage place _ hentry hm
        ((entry_proceed_self x _ _ c).trans hnext) (hothers _), hx.proceed ?_ c⟩
      exact fun call₁ heq => Option.some.inj heq ▸ (Call.client?_step hstep).trans hclient
  | finish time yield =>
      obtain rfl := Option.some.inj h
      exact ⟨.ends _ client stage place _ hentry hm (entry_proceed_self x _ _ c) (hothers _),
        hx.proceed (by simp) c⟩

/-- **Every incident is a turn**, after which clients still act for their own processes. -/
theorem turn_of_step {incident : Incident s} (hx : x.Conducts) (h : x.step incident = some y) :
    x.Turn y ∧ y.Conducts := by
  have hadvance := h
  cases incident with
  | begin client errand =>
      simp only [step] at h
      split at h
      · cases h
      · next hnone =>
          obtain rfl := Option.some.inj h
          have hclient : ∀ call', some (errand.start client) = some call' →
              call'.client? = some client :=
            fun call' heq => Option.some.inj heq ▸ errand.client?_start client
          refine ⟨turn_beside (.refl _) (by simp [entry, hnone]) hclient ?_,
            hx.proceed hclient _⟩
          exact fun call' stage heq hactivity =>
            Errand.stage_of_start (by rwa [Option.some.inj heq])
  | subscribe client =>
      simp only [step] at h
      split at h
      · cases h
      · next hnone =>
          obtain rfl := Option.some.inj h
          have hclient : ∀ call', some (Call.subscribe client .start) = some call' →
              call'.client? = some client := fun call' heq => Option.some.inj heq ▸ rfl
          refine ⟨turn_beside (.refl _) (by simp [entry, hnone]) hclient ?_,
            hx.proceed hclient _⟩
          rintro call' stage heq hactivity
          cases Option.some.inj heq
          cases hactivity
  | advance p place =>
      simp only [step] at h
      split at h
      · cases h
      · next call hcall =>
          obtain ⟨client, hclient, rfl⟩ := hx p call hcall
          cases hattempt : call.attempt? with
          | some entry =>
              obtain ⟨client', stage⟩ := entry
              obtain rfl : client' = client := Option.some.inj
                ((Call.attempt?_eq_some_iff.mp hattempt).1.symm.trans hclient)
              exact turn_attempt hx hcall hattempt hadvance
          | none =>
              obtain ⟨hquiet, hbegun⟩ := Call.quiet_step hattempt hclient place x.cluster
              have hidle := (entry_of_calls hcall).trans hattempt
              split at h
              · cases h
              · next call' c hstep =>
                  obtain rfl := Option.some.inj h
                  rw [hstep] at hquiet hbegun
                  have hclient' : ∀ call₁, some call' = some call₁ →
                      call₁.client? = some client :=
                    fun call₁ heq => Option.some.inj heq ▸ (Call.client?_step hstep).trans hclient
                  refine ⟨turn_beside hquiet hidle hclient' ?_, hx.proceed hclient' c⟩
                  exact fun call₁ stage heq => hbegun call₁ stage (congrArg Move.next
                    (Option.some.inj heq))
              · next outcome c hstep =>
                  obtain rfl := Option.some.inj h
                  rw [hstep] at hquiet
                  exact ⟨turn_beside hquiet hidle (by simp) (by simp), hx.proceed (by simp) c⟩
  | hangUp p =>
      simp only [step] at h
      split at h
      · cases h
      · next call hcall =>
          obtain rfl := Option.some.inj h
          obtain ⟨client, hclient, rfl⟩ := hx p call hcall
          have hentry := entry_of_calls hcall
          refine ⟨?_, hx.proceed (by simp) _⟩
          cases hattempt : call.attempt? with
          | none =>
              exact turn_beside (Call.quiet_hangUp hattempt hclient) (hentry.trans hattempt)
                (by simp) (by simp)
          | some entry =>
              obtain ⟨client', stage⟩ := entry
              exact .abandons _ client' stage (hentry.trans hattempt)
                (Call.hangUp_of_entry hattempt x.cluster) (entry_proceed_self x _ _ _)
                fun q hq => entry_proceed_of_ne hq x _ _
  | cancel token =>
      obtain rfl := Option.some.inj h
      exact ⟨.common (.of_brokers rfl) fun p => rfl, hx⟩
  | setOutage b outage =>
      simp only [step] at h
      split at h
      · cases h
      · next hnot =>
          obtain rfl := Option.some.inj h
          exact ⟨.common (x.cluster.quiet_setOutage b hnot) fun p => rfl, hx⟩
  | refresh r =>
      obtain rfl := Option.some.inj h
      exact ⟨.common (.of_brokers rfl) fun p => rfl, hx⟩
  | setTime time =>
      obtain rfl := Option.some.inj h
      exact ⟨.common (.of_brokers rfl) fun p => rfl, hx⟩
  | restart b expected =>
      obtain rfl := Option.some.inj h
      exact ⟨.common (.withCoordinator fun hb => hb.course_restart expected) fun p => rfl, hx⟩

end Company

end CriticalSection
