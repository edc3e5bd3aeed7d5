import Mathlib.Data.List.Induction
import CriticalSection.Cluster.Calls

/-!
# Looking for all processes

A client that waits for its peers looks for all processes in one pass after the other, with a sleep
between two passes. Whatever happens meanwhile, each pass but the last has missed a process, and the
call ends in one of three ways: all processes have been found in one pass, the last pass that is
allowed has missed one, or it has been cancelled in a sleep. It makes a bounded number of moves, and
nothing keeps it from moving but a sleep that is not over.
-/

set_option autoImplicit false

namespace CriticalSection

/-! ## Passes -/

/-- A process that was looked for, and whether it was found. -/
structure Look where
  process : ProcessId
  found : Bool
  deriving DecidableEq, Repr

namespace Look

/-- The looks of a pass that has found all of some processes. -/
def all (processes : List ProcessId) : List Look := processes.map fun p => ⟨p, true⟩

/-- **A pass has missed a process**: those before it were found, and it was the first that was
not. -/
def Missed (processes : List ProcessId) (p : ProcessId) (looks : List Look) : Prop :=
  ∃ front rest, processes = front ++ p :: rest ∧ looks = all front ++ [⟨p, false⟩]

theorem all_concat (front : List ProcessId) (p : ProcessId) :
    all (front ++ [p]) = all front ++ [⟨p, true⟩] := by
  simp [all]

theorem Missed.ne_all {processes : List ProcessId} {p : ProcessId} {looks : List Look}
    (h : Missed processes p looks) : looks ≠ all processes := by
  obtain ⟨front, rest, -, rfl⟩ := h
  intro heq
  have hmem : (⟨p, false⟩ : Look) ∈ all processes :=
    heq ▸ List.mem_append_right _ List.mem_cons_self
  obtain ⟨q, -, hq⟩ := List.mem_map.mp hmem
  cases hq

end Look

/-- What a call that waits for peers has done. -/
structure Passes where
  /-- The looks of the passes before the latest. -/
  earlier : List (List Look)
  /-- The looks of the latest pass. -/
  latest : List Look
  /-- How often it has gone to sleep. -/
  sleeps : Nat

namespace Passes

variable {s : Extent} (client : Client s) (attempts : UInt32) (done : Passes)

/-- **What has been done when the call has reached a stage**: all processes before those that are
left have been found in this pass, or this pass has missed a process and is not the last. -/
def Reaches : AwaitPeers → Prop
  | .looking pass left => pass = done.earlier.length + 1 ∧ done.sleeps = done.earlier.length ∧
      ∃ front, client.processes = front ++ left ∧ done.latest = Look.all front
  | .pausing pass _ => pass = done.earlier.length + 1 ∧ done.sleeps = done.earlier.length + 1 ∧
      pass < attempts.toNat ∧ ∃ p, Look.Missed client.processes p done.latest

/-- **How the call ends**: with all processes found in the latest pass, with one missed in the last
pass that is allowed, or cancelled in a sleep after a pass that is not the last. -/
inductive Ends : Outcome Unit → Cluster s → Prop
  | found (c : Cluster s) (all : done.latest = Look.all client.processes)
      (sleeps : done.sleeps = done.earlier.length) : Ends (.ok ()) c
  | missing (c : Cluster s) {p : ProcessId} (missed : Look.Missed client.processes p done.latest)
      (last : done.earlier.length + 1 = max attempts.toNat 1)
      (sleeps : done.sleeps = done.earlier.length) : Ends (fail (.unroutable p)) c
  | cancelled {c : Cluster s} {p : ProcessId} (missed : Look.Missed client.processes p done.latest)
      (more : done.earlier.length + 1 < max attempts.toNat 1)
      (sleeps : done.sleeps = done.earlier.length + 1) (token : client.isCancelled c = true) :
      Ends (fail (.cancelled "await_peers")) c

end Passes

/-! ## A call while other things happen -/

/-- **A client waiting for its peers**: the stage of the call or its end, with what it has done. -/
structure Vigil (s : Extent) where
  cluster : Cluster s
  stage : AwaitPeers
  /-- How and in which cluster the call has ended. -/
  ending : Option (Outcome Unit × Cluster s)
  done : Passes
  /-- How often it has moved. -/
  moves : Nat

/-- **What can happen while a client waits**: it moves, or something else changes the cluster in any
way. -/
inductive Vigil.Turn (s : Extent)
  | move
  | meanwhile (change : Cluster s → Cluster s)

namespace Vigil

variable {s : Extent}

section Definitions

variable (client : Client s) (pause : UInt64) (attempts : UInt32)

/-- The call at its start. -/
def start (c : Cluster s) : Vigil s := ⟨c, .start client, none, ⟨[], [], 0⟩, 0⟩

/-- The look that the next move takes, if it takes one. -/
def look? (x : Vigil s) : Option Look :=
  match x.stage with
  | .looking _ (p :: _) => some ⟨p, (x.cluster.route client.router p).1.isSome⟩
  | _ => none

/-- What has been done with a move. A pass begins when a sleep is over. -/
def doneWith (x : Vigil s) (move : Move AwaitPeers Unit) : Passes :=
  let looks := x.done.latest ++ (x.look? client).toList
  match x.stage, move with
  | .pausing .., .next (.looking ..) =>
    { x.done with earlier := x.done.earlier ++ [x.done.latest], latest := [] }
  | _, .next (.pausing ..) => { x.done with latest := looks, sleeps := x.done.sleeps + 1 }
  | _, _ => { x.done with latest := looks }

/-- **The call moves**, unless it has ended or has to wait. -/
def move (x : Vigil s) : Vigil s :=
  if x.ending.isSome then x
  else match x.stage.step client pause attempts x.cluster with
    | (.wait, _) => x
    | (.next stage, c) => ⟨c, stage, none, x.doneWith client (.next stage), x.moves + 1⟩
    | (.finish outcome, c) =>
      ⟨c, x.stage, some (outcome, c), x.doneWith client (.finish outcome), x.moves + 1⟩

/-- What has come of the call after a turn. -/
def after (x : Vigil s) : Turn s → Vigil s
  | .move => x.move client pause attempts
  | .meanwhile change => { x with cluster := change x.cluster }

/-- What has come of the call after some turns. -/
def run (c : Cluster s) (turns : List (Turn s)) : Vigil s :=
  turns.foldl (after client pause attempts) (start client c)

/-- **The call has to wait**: it sleeps, its time has not come, and it is not cancelled. -/
def Waits (x : Vigil s) : Prop :=
  ∃ pass deadline, x.stage = .pausing pass deadline ∧ client.isCancelled x.cluster = false ∧
    x.cluster.reached deadline = false

/-- How many moves are left at most. -/
def cost (x : Vigil s) : Nat :=
  if x.ending.isSome then 0 else x.stage.cost client attempts

/-- **The account of a call.** -/
structure Sound (x : Vigil s) : Prop where
  earlier : ∀ looks ∈ x.done.earlier, ∃ p, Look.Missed client.processes p looks
  passes : x.done.earlier.length + 1 ≤ max attempts.toNat 1
  reaches : x.ending = none → x.done.Reaches client attempts x.stage
  ends : ∀ outcome c, x.ending = some (outcome, c) → x.done.Ends client attempts outcome c
  moves : x.moves + x.cost client attempts ≤ (AwaitPeers.start client).cost client attempts

end Definitions

variable {client : Client s} {pause : UInt64} {attempts : UInt32} {x : Vigil s}

theorem run_concat (c : Cluster s) (turns : List (Turn s)) (turn : Turn s) :
    run client pause attempts c (turns ++ [turn]) =
      (run client pause attempts c turns).after client pause attempts turn := by
  simp [run]

/-! ## One move -/

theorem sound_start (c : Cluster s) : (start client c).Sound client attempts where
  earlier looks h := absurd h List.not_mem_nil
  passes := Nat.le_max_right _ _
  reaches _ := ⟨rfl, rfl, [], rfl, rfl⟩
  ends outcome c h := by cases h
  moves := by simp [start, cost]

/-- A move to another stage. -/
theorem Sound.next (h : x.Sound client attempts) (hgoes : x.ending = none)
    (stage : AwaitPeers) (done : Passes) (c : Cluster s)
    (hearlier : ∀ looks ∈ done.earlier, ∃ p, Look.Missed client.processes p looks)
    (hpasses : done.earlier.length + 1 ≤ max attempts.toNat 1)
    (hreaches : done.Reaches client attempts stage)
    (hcost : stage.cost client attempts < x.stage.cost client attempts) :
    Sound client attempts ⟨c, stage, none, done, x.moves + 1⟩ where
  earlier := hearlier
  passes := hpasses
  reaches _ := hreaches
  ends outcome c h := by cases h
  moves := by
    have hmoves := h.moves
    simp only [cost, hgoes, Option.isSome_none, Bool.false_eq_true, if_false] at hmoves ⊢
    omega

theorem cost_pos (client : Client s) (attempts : UInt32) (stage : AwaitPeers) :
    0 < stage.cost client attempts := by
  cases stage <;> simp only [AwaitPeers.cost] <;> omega

/-- The last move. -/
theorem Sound.finish (h : x.Sound client attempts) (hgoes : x.ending = none)
    {outcome : Outcome Unit} (looks : List Look) (c : Cluster s)
    (hends : Passes.Ends client attempts { x.done with latest := looks } outcome c) :
    Sound client attempts
      ⟨c, x.stage, some (outcome, c), { x.done with latest := looks }, x.moves + 1⟩ where
  earlier := h.earlier
  passes := h.passes
  reaches h := by cases h
  ends _ _ h := by
    cases h
    exact hends
  moves := by
    have hmoves := h.moves
    have hpos := cost_pos client attempts x.stage
    simp only [cost, hgoes, Option.isSome_none, Option.isSome_some, Bool.false_eq_true, if_false,
      if_true] at hmoves ⊢
    omega

/-- A process is looked for. -/
theorem Sound.move_looking (h : x.Sound client attempts) (hgoes : x.ending = none) {pass : Nat}
    {left : List ProcessId} (hstage : x.stage = .looking pass left) :
    (x.move client pause attempts).Sound client attempts := by
  obtain ⟨rfl, hsleeps, front, hsplit, hlatest⟩ := hstage ▸ h.reaches hgoes
  cases left with
  | nil =>
      have hends : Passes.Ends client attempts { x.done with latest := x.done.latest } (.ok ())
          x.cluster := .found _ (by rw [hlatest, hsplit, List.append_nil]) hsleeps
      simpa [move, hgoes, hstage, AwaitPeers.step, doneWith, look?] using
        h.finish hgoes _ _ hends
  | cons p left =>
      cases hroute : x.cluster.route client.router p with
      | mk found c =>
      cases found with
      | some b =>
          have hnext := h.next hgoes (.looking (x.done.earlier.length + 1) left)
            { x.done with latest := x.done.latest ++ [⟨p, true⟩] } c h.earlier h.passes
            ⟨rfl, hsleeps, front ++ [p], by simp [hsplit], by rw [hlatest, Look.all_concat]⟩
            (by simp only [hstage, AwaitPeers.cost, List.length_cons]; omega)
          simpa [move, hgoes, hstage, AwaitPeers.step, doneWith, look?, hroute] using hnext
      | none =>
          have hmissed : Look.Missed client.processes p (x.done.latest ++ [⟨p, false⟩]) :=
            ⟨front, left, hsplit, by rw [hlatest]⟩
          by_cases hlast : attempts.toNat ≤ x.done.earlier.length + 1
          · have hpasses := h.passes
            have hfinish := h.finish hgoes _ c
              (.missing c hmissed (show x.done.earlier.length + 1 = _ by omega) hsleeps)
            simpa [move, hgoes, hstage, AwaitPeers.step, doneWith, look?, hroute, hlast]
              using hfinish
          · have hnext := h.next hgoes
              (.pausing (x.done.earlier.length + 1) (c.after pause))
              ⟨x.done.earlier, x.done.latest ++ [⟨p, false⟩], x.done.sleeps + 1⟩ c h.earlier
              h.passes ⟨rfl, by rw [hsleeps], Nat.lt_of_not_le hlast, p, hmissed⟩
              (by simp only [hstage, AwaitPeers.cost, List.length_cons]; omega)
            simpa [move, hgoes, hstage, AwaitPeers.step, doneWith, look?, hroute, hlast]
              using hnext

/-- A sleep ends, is cancelled, or goes on. -/
theorem Sound.move_pausing (h : x.Sound client attempts) (hgoes : x.ending = none) {pass : Nat}
    {deadline : Int} (hstage : x.stage = .pausing pass deadline) :
    (x.move client pause attempts).Sound client attempts := by
  obtain ⟨rfl, hsleeps, hmore, p, hmissed⟩ := hstage ▸ h.reaches hgoes
  cases htoken : client.isCancelled x.cluster with
  | true =>
      have hends : Passes.Ends client attempts { x.done with latest := x.done.latest }
          (fail (.cancelled "await_peers")) x.cluster :=
        .cancelled hmissed (Nat.lt_of_lt_of_le hmore (Nat.le_max_left _ _)) hsleeps htoken
      simpa [move, hgoes, hstage, AwaitPeers.step, doneWith, look?, htoken] using
        h.finish hgoes _ _ hends
  | false =>
      cases htime : x.cluster.reached deadline with
      | false => simpa [move, hgoes, hstage, AwaitPeers.step, htoken, htime] using h
      | true =>
          have hcost : (attempts.toNat - (x.done.earlier.length + 1)) =
              (attempts.toNat - (x.done.earlier.length + 1 + 1)) + 1 := by omega
          have hnext := h.next hgoes
            (.looking (x.done.earlier.length + 1 + 1) client.processes)
            ⟨x.done.earlier ++ [x.done.latest], [], x.done.sleeps⟩ x.cluster
            (fun looks hmem => by
              rcases List.mem_append.mp hmem with hmem | hmem
              · exact h.earlier looks hmem
              · exact ⟨p, List.mem_singleton.mp hmem ▸ hmissed⟩)
            (by simp only [List.length_append, List.length_singleton]; omega)
            ⟨by simp, by simp [hsleeps], [], rfl, rfl⟩
            (by simp only [hstage, AwaitPeers.cost, hcost, Nat.add_mul]; omega)
          simpa [move, hgoes, hstage, AwaitPeers.step, doneWith, look?, htoken, htime] using hnext

/-- **The account stays true** with each move, and whatever happens meanwhile. -/
theorem Sound.after (h : x.Sound client attempts) (turn : Turn s) :
    (x.after client pause attempts turn).Sound client attempts := by
  cases turn with
  | meanwhile change => exact ⟨h.earlier, h.passes, h.reaches, h.ends, h.moves⟩
  | move =>
      cases hgoes : x.ending with
      | some ending =>
          rw [Vigil.after, move, hgoes, Option.isSome_some, if_pos rfl]
          exact h
      | none =>
          cases hstage : x.stage with
          | looking pass left => exact h.move_looking hgoes hstage
          | pausing pass deadline => exact h.move_pausing hgoes hstage

theorem sound_run (c : Cluster s) (turns : List (Turn s)) :
    (run client pause attempts c turns).Sound client attempts := by
  induction turns using List.reverseRecOn with
  | nil => exact sound_start c
  | append_singleton turns turn ih =>
      rw [run_concat]
      exact ih.after turn

/-! ## Progress -/

/-- Only a sleep makes the call wait. -/
theorem waits_iff (pause : UInt64) (attempts : UInt32) : x.Waits client ↔
    (x.stage.step client pause attempts x.cluster).1 = .wait := by
  unfold Waits
  cases x.stage with
  | looking pass left =>
      refine iff_of_false (by simp) ?_
      cases left with
      | nil => simp [AwaitPeers.step]
      | cons p left =>
          rcases hroute : x.cluster.route client.router p with ⟨_ | b, c⟩
          · simp only [AwaitPeers.step, hroute]
            split <;> simp
          · simp [AwaitPeers.step, hroute]
  | pausing pass deadline =>
      cases htoken : client.isCancelled x.cluster <;>
        cases htime : x.cluster.reached deadline <;> simp [AwaitPeers.step, htoken, htime]

/-- **Nothing but a sleep keeps the call from moving** before it ends. -/
theorem moves_move : (x.move client pause attempts).moves = x.moves + 1 ↔
    x.ending = none ∧ ¬ x.Waits client := by
  rw [waits_iff pause attempts, move]
  cases x.ending with
  | some ending => simp
  | none =>
      cases x.stage.step client pause attempts x.cluster with
      | mk move c => cases move <;> simp

/-- A pass that has found everyone is the last. -/
theorem Sound.move_of_all (h : x.Sound client attempts) (hgoes : x.ending = none)
    (hall : x.done.latest = Look.all client.processes) :
    (x.move client pause attempts).ending = some (.ok (), x.cluster) := by
  cases hstage : x.stage with
  | pausing pass deadline =>
      obtain ⟨-, -, -, p, hmissed⟩ := hstage ▸ h.reaches hgoes
      exact absurd hall hmissed.ne_all
  | looking pass left =>
      obtain ⟨-, -, front, hsplit, hlatest⟩ := hstage ▸ h.reaches hgoes
      have hleft : left = [] := by
        have hlength := congrArg List.length (hlatest.symm.trans hall)
        simpa [Look.all, hsplit] using hlength
      simp [move, hgoes, hstage, hleft, AwaitPeers.step]

/-- The moves of all passes that are allowed. -/
theorem cost_start_le : (AwaitPeers.start client).cost client attempts ≤
    max attempts.toNat 1 * (client.processes.length + 3) := by
  have hpasses : max attempts.toNat 1 = (attempts.toNat - 1) + 1 := by omega
  rw [hpasses, Nat.add_mul]
  simp only [AwaitPeers.start, AwaitPeers.cost]
  omega

/-- **Waiting for peers.** A client looks for its processes in one pass after the other while
anything happens to the cluster. Each pass before the latest has missed a process. The call ends
with all processes found in the latest pass; or with the first process that was missed in the last
pass that is allowed, after one sleep less than passes; or cancelled, in a sleep after a pass that
has missed a process. A pass that has found all processes ends the call. There are no more passes
than are allowed and a bounded number of moves, and until the end the client can move at any time
but in a sleep that is neither over nor cancelled. -/
theorem await_peers (client : Client s) (pause : UInt64) (attempts : UInt32) (c : Cluster s)
    (turns : List (Turn s)) :
    let x := run client pause attempts c turns
    (∀ looks ∈ x.done.earlier, ∃ p, Look.Missed client.processes p looks) ∧
    (∀ outcome c', x.ending = some (outcome, c') →
      x.done.Ends client attempts outcome c') ∧
    (x.ending = none → x.done.latest = Look.all client.processes →
      (x.move client pause attempts).ending = some (.ok (), x.cluster)) ∧
    x.done.earlier.length + 1 ≤ max attempts.toNat 1 ∧
    x.moves ≤ max attempts.toNat 1 * (client.processes.length + 3) ∧
    ((x.move client pause attempts).moves = x.moves + 1 ↔
      x.ending = none ∧ ¬ x.Waits client) := by
  intro x
  have h : x.Sound client attempts := sound_run c turns
  exact ⟨h.earlier, h.ends, h.move_of_all, h.passes,
    Nat.le_trans (Nat.le_add_right ..) (Nat.le_trans h.moves cost_start_le), moves_move⟩

/-- A broker that hosts "P1", and a router that knows it. -/
def lonely : Cluster ⟨1, 1, 1⟩ where
  brokers := #v[⟨Broker.localEndpoint "a", (Coordinator.new 2).subscribe "P1", none⟩]
  routers := #v[.new [Extent.only]]
  cancelled := #v[false]
  now := 0
  files := .empty

/-- "P1" waits for some processes. -/
def waiting (processes : List ProcessId) : Client ⟨1, 1, 1⟩ :=
  ⟨"P1", processes, none, Extent.only, 0, Extent.only⟩

/-- A pass for two processes, a sleep that is over in time, and another pass. -/
def twice : List (Turn ⟨1, 1, 1⟩) :=
  [.move, .move, .move, .meanwhile fun c => { c with now := 100 }, .move, .move, .move]

/-- "P2" is missed in two passes with a sleep between them, and "P1" is found in the first. -/
theorem await_peers_lonely :
    (∃ c, Passes.Ends (waiting ["P1", "P2"]) 2
      (run (waiting ["P1", "P2"]) 100 2 lonely twice).done (fail (.unroutable "P2")) c) ∧
    ((run (waiting ["P1"]) 100 2 lonely [.move]).move (waiting ["P1"]) 100 2).ending =
      some (.ok (), (run (waiting ["P1"]) 100 2 lonely [.move]).cluster) := by
  refine ⟨?_, (await_peers (waiting ["P1"]) 100 2 lonely [.move]).2.2.1 (by decide +kernel)
    (by decide +kernel)⟩
  have hending : (run (waiting ["P1", "P2"]) 100 2 lonely twice).ending.map Prod.fst =
      some (fail (.unroutable "P2")) := by
    decide +kernel
  obtain ⟨⟨outcome, c⟩, hsome, rfl⟩ := Option.map_eq_some_iff.mp hending
  exact ⟨c, (await_peers (waiting ["P1", "P2"]) 100 2 lonely twice).2.1 _ _ hsome⟩

end Vigil

end CriticalSection
