import Mathlib.Logic.Relation
import CriticalSection.Proofs.Exclusion.Effects

/-!
# Drills

In a **drill** the clients of a party do nothing but line up. Each of them lines up again and again,
one line-up after another, and all of them in the same order of phases; how fast they are and at
which barriers they arrive first is left open. Nobody hangs up, nothing is cancelled, and no broker
goes out of reach.
-/

set_option autoImplicit false

namespace CriticalSection

variable {s : Extent}

/-- A scene, with the outcomes of the line-ups that each client has made so far. -/
structure Drill (s : Extent) where
  scene : Scene s
  /-- The outcomes of the line-ups that have returned, the first one first. -/
  returned : ProcessId → List (Outcome Yield)

/-- The outcome with which the call of a process ends when it moves at a place, if that ends it. -/
def Scene.ending? (x : Scene s) (p : ProcessId) (place : Nat) : Option (Outcome Yield) :=
  match x.calls p with
  | none => none
  | some call =>
    match (call.step place x.cluster).1 with
    | .finish outcome => some outcome
    | _ => none

namespace Drill

/-- A drill at its start. -/
def start (x : Scene s) : Drill s := ⟨x, fun _ => []⟩

/-- **How many line-ups a client has begun**: those that have returned, and the one in progress. -/
def begun (x : Drill s) (p : ProcessId) : Nat :=
  (x.returned p).length + if (x.scene.calls p).isSome then 1 else 0

theorem begun_of_idle {x : Drill s} {p : ProcessId} (h : x.scene.calls p = none) :
    x.begun p = (x.returned p).length := by
  simp [begun, h]

theorem begun_of_call {x : Drill s} {p : ProcessId} {call : Call s}
    (h : x.scene.calls p = some call) : x.begun p = (x.returned p).length + 1 := by
  simp [begun, h]

/-- **What may happen in a drill**: a client begins the line-up that is next in the order, a line-up
moves, a router asks anew, or time passes. -/
def allows (order : Nat → Phase) (x : Drill s) : Occasion s → Bool
  | .begin p (.lineUp phase) => phase = order (x.returned p).length
  | .advance .. | .refresh _ | .setTime _ => true
  | _ => false

/-- What has returned after an occasion. -/
def returnedAfter (x : Drill s) : Occasion s → ProcessId → List (Outcome Yield)
  | .advance p place =>
    Function.update x.returned p (x.returned p ++ (x.scene.ending? p place).toList)
  | _ => x.returned

/-- **The drill after an occasion**, if it can arise. -/
def step (party : Party s) (order : Nat → Phase) (x : Drill s) (o : Occasion s) :
    Option (Drill s) :=
  if x.allows order o then (x.scene.step party o).map fun y => ⟨y, x.returnedAfter o⟩ else none

/-- What no coordinator notices: a router that asks anew, or time that passes. -/
inductive Unnoticed : Cluster s → Cluster s → Prop
  | refl (c : Cluster s) : Unnoticed c c
  | refresh (c : Cluster s) (r : Fin s.routers) : Unnoticed c (c.refresh r)
  | setTime (c : Cluster s) (time : Int64) : Unnoticed c { c with now := time }

/-- **What happens in a drill.** -/
inductive Turn (party : Party s) (order : Nat → Phase) (x : Drill s) : Drill s → Prop
  | begin {p : ProcessId} (hp : p ∈ party.processes) (hidle : x.scene.calls p = none) :
      Turn party order x
        ⟨x.scene.commence party p (.lineUp (order (x.returned p).length)), x.returned⟩
  | move {p : ProcessId} {place : Nat} {call call' : Call s} {c : Cluster s}
      (hcall : x.scene.calls p = some call)
      (hstep : call.step place x.scene.cluster = (.next call', c)) :
      Turn party order x ⟨x.scene.proceed p call' c, x.returned⟩
  | finish {p : ProcessId} {place : Nat} {call : Call s} {outcome : Outcome Yield}
      {c : Cluster s} (hcall : x.scene.calls p = some call)
      (hstep : call.step place x.scene.cluster = (.finish outcome, c)) :
      Turn party order x ⟨x.scene.conclude p (call.admits outcome) c,
        Function.update x.returned p (x.returned p ++ [outcome])⟩
  | aside {c : Cluster s} (h : Unnoticed x.scene.cluster c) :
      Turn party order x ⟨{ x.scene with cluster := c }, x.returned⟩

theorem turn_of_step {party : Party s} {order : Nat → Phase} {x y : Drill s} {o : Occasion s}
    (h : x.step party order o = some y) : Turn party order x y := by
  unfold step at h
  split at h
  · next hallows =>
      obtain ⟨scene, hscene, rfl⟩ := Option.map_eq_some_iff.mp h
      cases o with
      | begin p errand =>
          cases errand with
          | lineUp phase =>
              obtain rfl : phase = order (x.returned p).length := of_decide_eq_true hallows
              simp only [Scene.step] at hscene
              split at hscene
              · next hguard =>
                  obtain rfl := Option.some.inj hscene
                  exact .begin hguard.1 (Option.isNone_iff_eq_none.mp hguard.2.1)
              · cases hscene
          | _ => cases hallows
      | advance p place =>
          simp only [Scene.step] at hscene
          cases hcall : x.scene.calls p with
          | none =>
              rw [hcall] at hscene
              cases hscene
          | some call =>
              rcases hstep : call.step place x.scene.cluster with ⟨_ | call' | outcome, c⟩ <;>
                simp only [hcall, hstep] at hscene
              · cases hscene
              · obtain rfl := Option.some.inj hscene
                simpa [returnedAfter, Scene.ending?, hcall, hstep] using Turn.move hcall hstep
              · obtain rfl := Option.some.inj hscene
                simpa [returnedAfter, Scene.ending?, hcall, hstep] using Turn.finish hcall hstep
      | refresh r =>
          obtain rfl := Option.some.inj hscene
          exact .aside (.refresh _ r)
      | setTime time =>
          obtain rfl := Option.some.inj hscene
          exact .aside (.setTime _ time)
      | _ => cases hallows
  · cases h

/-- A call that cannot advance waits. -/
theorem wait_of_step {party : Party s} {order : Nat → Phase} {x : Drill s} {p : ProcessId}
    {place : Nat} {call : Call s} (hcall : x.scene.calls p = some call)
    (h : x.step party order (.advance p place) = none) :
    (call.step place x.scene.cluster).1 = .wait := by
  simp only [step, allows, if_true, Option.map_eq_none_iff, Scene.step, hcall] at h
  split at h
  · next heq => rw [heq]
  · cases h
  · cases h

/-- A client that makes no call cannot advance. -/
theorem step_of_idle {party : Party s} {order : Nat → Phase} {x : Drill s} {p : ProcessId}
    {place : Nat} (hidle : x.scene.calls p = none) :
    x.step party order (.advance p place) = none := by
  simp [step, allows, Scene.step, hidle]

end Drill

namespace Party

variable (party : Party s)

/-- **A party that is mustered**: it is assembled, all brokers are within reach and expect as many
processes as there are, the routers know them, and no client has been cancelled. -/
structure Mustered (x : Scene s) : Prop where
  assembled : party.Assembled x
  connected : party.Connected x.cluster
  expected : ∀ b, (x.cluster.coordinator b).expected.toNat = party.processes.length
  uncancelled : ∀ p ∈ party.processes, (party.client p).isCancelled x.cluster = false

/-- **Drills of a party** in an order of phases: whatever a mustered party can come to. -/
def Drills (order : Nat → Phase) (x : Drill s) : Prop :=
  ∃ start, party.Mustered start ∧
    Relation.ReflTransGen (fun x y => ∃ o, x.step party order o = some y) (.start start) x

/-- What can be played one occasion after another can be come to. -/
theorem drills_of_play {order : Nat → Phase} {start : Scene s} (h : party.Mustered start)
    {occasions : List (Occasion s)} {x : Drill s}
    (hplay : occasions.foldlM (Drill.step party order) (.start start) = some x) :
    party.Drills order x := by
  refine ⟨start, h, ?_⟩
  generalize Drill.start start = y at hplay
  induction occasions generalizing y with
  | nil =>
      obtain rfl := Option.some.inj hplay
      exact .refl
  | cons o rest ih =>
      rw [List.foldlM_cons] at hplay
      obtain ⟨z, hz, hrest⟩ := Option.bind_eq_some_iff.mp hplay
      exact .head ⟨o, hz⟩ (ih z hrest)

end Party

end CriticalSection
