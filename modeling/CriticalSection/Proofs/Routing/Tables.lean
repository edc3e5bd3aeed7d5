import Mathlib.Data.List.Induction
import Mathlib.Data.List.Infix
import CriticalSection.Proofs.Cluster

/-!
# Routing tables

A router asks its brokers for the processes they host, all of them or none: none when the process
it looks for is in its table. To see whom it asks, what it does is written down as a conversation
with the brokers (`Inquiry`), whose result is that of `refresh` and `route`. Its table is at any
time what it has heard when it last asked, the last broker in its list counting for each process. So
as long as only one broker has ever hosted a process, no router sends anybody elsewhere for it.
-/

set_option autoImplicit false

namespace CriticalSection

/-! ## Conversations -/

/-- What brokers have answered, in the order in which they were asked; one that has failed to answer
has listed nothing. -/
abbrev Heard (n : Nat) : Type := List (Fin n × Option (List ProcessId))

/-- **A conversation with brokers**: they are asked one after the other for the processes they host,
and in the end there is a result. -/
inductive Inquiry (n : Nat) (α : Type)
  | done (result : α)
  | ask (broker : Fin n) (go : Option (List ProcessId) → Inquiry n α)

namespace Inquiry

variable {n : Nat} {α β : Type}

/-- A conversation with another form of its result. -/
def map (f : α → β) : Inquiry n α → Inquiry n β
  | done result => done (f result)
  | ask b go => ask b fun answer => (go answer).map f

/-- The result of a conversation. -/
def run (brokers : Vector Broker n) : Inquiry n α → α
  | done result => result
  | ask b go => (go (brokers.get b).listing?).run brokers

/-- **What is heard in a conversation.** -/
def heard (brokers : Vector Broker n) : Inquiry n α → Heard n
  | done _ => []
  | ask b go => (b, (brokers.get b).listing?) :: (go (brokers.get b).listing?).heard brokers

variable (brokers : Vector Broker n) (f : α → β)

@[simp] theorem run_map (x : Inquiry n α) : (x.map f).run brokers = f (x.run brokers) := by
  induction x with
  | done result => rfl
  | ask b go ih => exact ih _

@[simp] theorem heard_map (x : Inquiry n α) : (x.map f).heard brokers = x.heard brokers := by
  induction x with
  | done result => rfl
  | ask b go ih => exact congrArg _ (ih _)

end Inquiry

namespace Router

variable {n : Nat}

/-- A table with the processes that a broker has answered. -/
def hear (table : Std.TreeMap ProcessId (Fin n)) (b : Fin n) :
    Option (List ProcessId) → Std.TreeMap ProcessId (Fin n)
  | none => table
  | some listing => listing.foldl (fun table p => table.insert p b) table

/-- Asks some brokers, and puts what they answer into a table. -/
def askAll : List (Fin n) → Std.TreeMap ProcessId (Fin n) →
    Inquiry n (Std.TreeMap ProcessId (Fin n))
  | [], table => .done table
  | b :: rest, table => .ask b fun answer => askAll rest (hear table b answer)

/-- A router asks all its brokers. -/
def refreshing (r : Router n) : Inquiry n (Router n) :=
  (askAll r.brokers ∅).map fun table => { r with table := table }

/-- **A router looks for a process**: in its table, and then anew in the table it gets by asking. -/
def routing (r : Router n) (p : ProcessId) : Inquiry n (Option (Fin n) × Router n) :=
  match r.table[p]? with
  | some b => .done (some b, r)
  | none => r.refreshing.map fun r => (r.table[p]?, r)

/-- What the brokers of a router answer when all of them are asked. -/
def answers (r : Router n) (brokers : Vector Broker n) : Heard n :=
  r.brokers.map fun b => (b, (brokers.get b).listing?)

end Router

namespace Heard

variable {n : Nat}

/-- The table that is filled with what has been heard. -/
def table (heard : Heard n) : Std.TreeMap ProcessId (Fin n) :=
  heard.foldl (fun table answer => Router.hear table answer.1 answer.2) ∅

/-- **The broker named for a process**: the last one that has answered and listed it. -/
def Names (heard : Heard n) (p : ProcessId) (b : Fin n) : Prop :=
  ∃ front listing rest, heard = front ++ (b, some listing) :: rest ∧ p ∈ listing ∧
    ∀ later ∈ rest, ∀ listing', later.2 = some listing' → p ∉ listing'

end Heard

/-! ## What a router hears -/

namespace Heard

variable {n : Nat} {heard : Heard n} {p : ProcessId} {b : Fin n}

theorem not_names_nil : ¬ Names [] p b := by
  rintro ⟨front, listing, rest, heq, -⟩
  cases front <;> cases heq

/-- One answer more names its broker for the processes it lists, and nobody for others. -/
theorem names_concat {answer : Fin n × Option (List ProcessId)} :
    Names (heard ++ [answer]) p b ↔ (∃ listing, answer = (b, some listing) ∧ p ∈ listing) ∨
      (heard.Names p b ∧ ∀ listing, answer.2 = some listing → p ∉ listing) := by
  constructor
  · rintro ⟨front, listing, rest, heq, hmem, hlater⟩
    rcases List.eq_nil_or_concat rest with rfl | ⟨rest, last, rfl⟩
    · obtain ⟨-, hlast⟩ := List.append_inj' heq rfl
      exact .inl ⟨listing, (List.cons.inj hlast).1, hmem⟩
    · rw [List.concat_eq_append] at heq hlater
      rw [← List.cons_append, ← List.append_assoc] at heq
      obtain ⟨rfl, hlast⟩ := List.append_inj' heq rfl
      obtain rfl := (List.cons.inj hlast).1
      exact .inr ⟨⟨front, listing, rest, rfl, hmem, fun later hmem =>
        hlater later (List.mem_append_left _ hmem)⟩,
        hlater _ (List.mem_append_right _ List.mem_cons_self)⟩
  · rintro (⟨listing, rfl, hmem⟩ | ⟨⟨front, listing, rest, rfl, hmem, hlater⟩, hlast⟩)
    · exact ⟨heard, listing, [], rfl, hmem, by simp⟩
    · refine ⟨front, listing, rest ++ [answer], by simp, hmem, fun later hmem => ?_⟩
      rcases List.mem_append.mp hmem with hmem | hmem
      · exact hlater later hmem
      · obtain rfl := List.mem_singleton.mp hmem
        exact hlast

/-- **A table holds for each process the broker that is named for it**, and nothing else. -/
theorem getElem?_table : heard.table[p]? = some b ↔ heard.Names p b := by
  induction heard using List.reverseRecOn generalizing b with
  | nil => simp [table, not_names_nil]
  | append_singleton heard answer ih =>
      obtain ⟨b', listing?⟩ := answer
      rw [table, List.foldl_append, List.foldl_cons, List.foldl_nil, ← table]
      rw [names_concat]
      cases listing? with
      | none => simp [Router.hear, ih]
      | some listing =>
          rw [Router.hear, Table.getElem?_foldl_insert]
          by_cases hp : p ∈ listing <;> simp [hp, ih]

end Heard

namespace Router

variable {n : Nat} {brokers : Vector Broker n} {p : ProcessId}

theorem hear_listing? (brokers : Vector Broker n) (table : Std.TreeMap ProcessId (Fin n))
    (b : Fin n) : hear table b (brokers.get b).listing? = addListing brokers table b := by
  rw [addListing]
  cases (brokers.get b).listing? with
  | none => rfl
  | some listing => rfl

theorem run_askAll (brokers : Vector Broker n) (list : List (Fin n))
    (table : Std.TreeMap ProcessId (Fin n)) :
    (askAll list table).run brokers = list.foldl (addListing brokers) table := by
  induction list generalizing table with
  | nil => rfl
  | cons b rest ih => rw [askAll, Inquiry.run, ih, hear_listing?, List.foldl_cons]

theorem heard_askAll (brokers : Vector Broker n) (list : List (Fin n))
    (table : Std.TreeMap ProcessId (Fin n)) :
    (askAll list table).heard brokers = list.map fun b => (b, (brokers.get b).listing?) := by
  induction list generalizing table with
  | nil => rfl
  | cons b rest ih => rw [askAll, Inquiry.heard, ih, List.map_cons]

/-- **The conversation of a router that asks its brokers** fills its table anew, -/
theorem run_refreshing (r : Router n) (brokers : Vector Broker n) :
    r.refreshing.run brokers = r.refresh brokers := by
  rw [refreshing, Inquiry.run_map, run_askAll]
  rfl

/-- and each of them is asked once. -/
theorem heard_refreshing (r : Router n) (brokers : Vector Broker n) :
    r.refreshing.heard brokers = r.answers brokers := by
  rw [refreshing, Inquiry.heard_map, heard_askAll]
  rfl

/-- **The conversation of a router that looks for a process** ends as `route` does, -/
theorem run_routing (r : Router n) (brokers : Vector Broker n) (p : ProcessId) :
    (r.routing p).run brokers = r.route brokers p := by
  unfold routing route
  cases r.table[p]? with
  | some b => rfl
  | none => rw [Inquiry.run_map, run_refreshing]

/-- and nobody is asked, or each of its brokers once. -/
theorem heard_routing (r : Router n) (brokers : Vector Broker n) (p : ProcessId) :
    (r.routing p).heard brokers = if (r.table[p]?).isSome then [] else r.answers brokers := by
  unfold routing
  cases r.table[p]? with
  | some b => rfl
  | none => rw [Inquiry.heard_map, heard_refreshing]; rfl

/-- The table of a router that has asked is what it has heard. -/
theorem table_refresh (r : Router n) (brokers : Vector Broker n) :
    (r.refresh brokers).table = (r.answers brokers).table := by
  simp only [Heard.table, answers, List.foldl_map, hear_listing?]
  rfl

/-- Who has nobody to ask knows nobody. -/
theorem table_refresh_of_answers_eq_nil {r : Router n} (h : r.answers brokers = []) :
    (r.refresh brokers).table = ∅ := by
  rw [table_refresh, h]
  rfl

theorem mem_listing? {b : Broker} {listing : List ProcessId} (h : b.listing? = some listing) :
    p ∈ listing ↔ b.Lists p := by
  unfold Broker.listing? at h
  cases hout : b.outage with
  | some e =>
      rw [hout] at h
      cases h
  | none =>
      rw [hout] at h
      obtain rfl := Option.some.inj h
      rw [Std.TreeMap.mem_keys, Std.TreeMap.mem_iff_isSome_getElem?, Broker.Lists, hout]
      simp

/-- **A router finds nobody** just when none of its brokers lists the process. -/
theorem getElem?_refresh_eq_none_iff (r : Router n) (brokers : Vector Broker n) (p : ProcessId) :
    (r.refresh brokers).table[p]? = none ↔ ∀ b ∈ r.brokers, ¬ (brokers.get b).Lists p := by
  rcases getElem?_foldl_addListing brokers p r.brokers ∅ with ⟨b, hb, hlists, heq⟩ | ⟨hnone, heq⟩
  · rw [refresh, heq]
    exact iff_of_false (by simp) fun h => h b hb hlists
  · rw [refresh, heq]
    exact iff_of_true (by simp) hnone

end Router

/-! ## Routers at work -/

/-- A cluster, with what each router heard when it last asked its brokers. -/
structure Survey (s : Extent) where
  cluster : Cluster s
  heard : Fin s.routers → Heard s.brokers

namespace Survey

variable {s : Extent}

/-- **What happens around routers**: operations at the coordinators of brokers, among them
subscriptions and restarts; outages; and routers asking all brokers or looking for a process. -/
inductive Act (s : Extent)
  | perform (broker : Fin s.brokers) (now : Int64) (operation : Operation)
  | outage (broker : Fin s.brokers) (outage : Option Error)
  | refresh (router : Fin s.routers)
  | route (router : Fin s.routers) (process : ProcessId)

/-- A cluster whose routers have not asked yet. -/
def new (c : Cluster s) : Survey s :=
  ⟨{ c with routers := Vector.ofFn fun r => .new (c.routers.get r).brokers }, fun _ => []⟩

/-- With what a router has heard now, if it has asked anybody. -/
def note (x : Survey s) (router : Fin s.routers) (heard : Heard s.brokers) :
    Fin s.routers → Heard s.brokers :=
  fun r => if r = router ∧ heard ≠ [] then heard else x.heard r

/-- **Something happens.** -/
def after (x : Survey s) : Act s → Survey s
  | .perform b now operation =>
    ⟨x.cluster.withCoordinator b ((x.cluster.coordinator b).perform now operation).2, x.heard⟩
  | .outage b outage => ⟨x.cluster.setOutage b outage, x.heard⟩
  | .refresh r =>
    ⟨x.cluster.refresh r, x.note r ((x.cluster.routers.get r).refreshing.heard x.cluster.brokers)⟩
  | .route r p =>
    ⟨(x.cluster.route r p).2,
      x.note r (((x.cluster.routers.get r).routing p).heard x.cluster.brokers)⟩

/-- What has come of a cluster. -/
def run (c : Cluster s) (acts : List (Act s)) : Survey s := acts.foldl after (new c)

theorem run_concat (c : Cluster s) (acts : List (Act s)) (act : Act s) :
    run c (acts ++ [act]) = (run c acts).after act := by
  simp [run]

/-- **Only one broker hosts a process**, at most. -/
def Only (x : Survey s) (p : ProcessId) (b : Fin s.brokers) : Prop :=
  ∀ b', ((x.cluster.coordinator b').records[p]?).isSome → b' = b

/-! ## What routers know -/

/-- **What a router knows**: its table is what it heard when it last asked, and then it asked all
its brokers in order. -/
structure Knows (x : Survey s) (r : Fin s.routers) : Prop where
  table : (x.cluster.routers.get r).table = (x.heard r).table
  asked : x.heard r = [] ∨ (x.heard r).map Prod.fst = (x.cluster.routers.get r).brokers

variable {x : Survey s} {p : ProcessId} {b : Fin s.brokers} {r r' : Fin s.routers}

theorem Knows.congr {y : Survey s} (h : x.Knows r)
    (hrouter : y.cluster.routers.get r = x.cluster.routers.get r)
    (hheard : y.heard r = x.heard r) : y.Knows r := by
  refine ⟨?_, ?_⟩
  · rw [hrouter, hheard, h.table]
  · rw [hrouter, hheard]
    exact h.asked

/-- A router that asks its brokers knows what they answer. A router without brokers has heard
nothing before and hears nothing now. -/
theorem Knows.refresh (h : x.Knows r) :
    Knows ⟨x.cluster.refresh r, x.note r ((x.cluster.routers.get r).answers x.cluster.brokers)⟩
      r := by
  have hrouter : (x.cluster.refresh r).routers.get r =
      (x.cluster.routers.get r).refresh x.cluster.brokers := by
    rw [Cluster.routers_refresh, if_pos rfl]
  have hheard : x.note r ((x.cluster.routers.get r).answers x.cluster.brokers) r =
      (x.cluster.routers.get r).answers x.cluster.brokers := by
    unfold note
    split
    · rfl
    · next hno =>
        have hempty : (x.cluster.routers.get r).answers x.cluster.brokers = [] := by
          by_contra hne
          exact hno ⟨rfl, hne⟩
        have hbrokers : (x.cluster.routers.get r).brokers = [] := List.map_eq_nil_iff.mp hempty
        rw [hempty]
        rcases h.asked with hnone | hall
        · exact hnone
        · rw [hbrokers] at hall
          exact List.map_eq_nil_iff.mp hall
  refine ⟨?_, .inr ?_⟩
  · simp only [hrouter, hheard, Router.table_refresh]
  · show (x.note r _ r).map Prod.fst = _
    rw [hheard, hrouter, Router.answers, List.map_map]
    exact List.map_id _

/-- **Whatever happens, routers know what they heard last.** -/
theorem Knows.after (h : ∀ r, x.Knows r) (act : Act s) (r : Fin s.routers) :
    (x.after act).Knows r := by
  -- another router than the one that acts is left alone
  have hother : ∀ {r' : Fin s.routers} (router : Router s.brokers) (heard : Heard s.brokers),
      r ≠ r' → Knows ⟨{ x.cluster with routers := x.cluster.routers.set r' router },
        x.note r' heard⟩ r := by
    intro r' router heard hne
    refine (h r).congr ?_ (if_neg fun hboth => hne hboth.1)
    rw [Vector.get_set, if_neg hne]
  cases act with
  | perform b now operation => exact (h r).congr rfl rfl
  | outage b outage => exact (h r).congr rfl rfl
  | refresh r' =>
      rw [Survey.after, Router.heard_refreshing]
      by_cases heq : r = r'
      · subst heq
        exact (h r).refresh
      · exact hother _ _ heq
  | route r' p =>
      rw [Survey.after, Router.heard_routing]
      by_cases heq : r = r'
      · subst heq
        cases hp : (x.cluster.routers.get r).table[p]? with
        | some b =>
            refine (h r).congr ?_ (if_neg fun hboth => hboth.2 rfl)
            simp only [Cluster.route, Router.route, hp, Vector.set_get_self]
        | none =>
            have hroute : (x.cluster.route r p).2 = x.cluster.refresh r := by
              simp only [Cluster.route, Cluster.refresh, Router.route, hp]
            rw [hroute]
            exact (h r).refresh
      · exact hother _ _ heq

theorem knows_run (c : Cluster s) (acts : List (Act s)) (r : Fin s.routers) :
    (run c acts).Knows r := by
  induction acts using List.reverseRecOn generalizing r with
  | nil => exact ⟨by simp [run, new, Router.new, Heard.table], .inl rfl⟩
  | append_singleton acts act ih =>
      rw [run_concat]
      exact Knows.after ih act r

/-! ## One host -/

/-- Whoever was heard to host a process is a certain broker. -/
def HeardOnly (x : Survey s) (p : ProcessId) (b : Fin s.brokers) : Prop :=
  ∀ r b' listing, (b', some listing) ∈ x.heard r → p ∈ listing → b' = b

theorem Only.eq_of_answers (h : x.Only p b) {router : Router s.brokers} {b' : Fin s.brokers}
    {listing : List ProcessId}
    (hmem : (b', some listing) ∈ router.answers x.cluster.brokers) (hp : p ∈ listing) : b' = b := by
  obtain ⟨_, -, heq⟩ := List.mem_map.mp hmem
  obtain ⟨rfl, hlisting⟩ := Prod.mk.inj heq
  exact h _ ((Router.mem_listing? hlisting).mp hp).2

/-- What is heard now is heard of brokers that host the process now. -/
theorem HeardOnly.after (h : x.HeardOnly p b) (honly : x.Only p b) (act : Act s) :
    (x.after act).HeardOnly p b := by
  have hnote : ∀ (r' : Fin s.routers) (heard : Heard s.brokers),
      (∀ b' listing, (b', some listing) ∈ heard → p ∈ listing → b' = b) →
      ∀ r b' listing, (b', some listing) ∈ x.note r' heard r → p ∈ listing → b' = b := by
    intro r' heard hheard r b' listing hmem hp
    unfold note at hmem
    split at hmem
    · exact hheard b' listing hmem hp
    · exact h r b' listing hmem hp
  cases act with
  | perform b' now operation => exact h
  | outage b' outage => exact h
  | refresh r =>
      rw [Survey.after, Router.heard_refreshing]
      exact hnote r _ fun b' listing => honly.eq_of_answers
  | route r q =>
      rw [Survey.after, Router.heard_routing]
      refine hnote r _ fun b' listing hmem hp => ?_
      split at hmem
      · exact absurd hmem List.not_mem_nil
      · exact honly.eq_of_answers hmem hp

theorem heardOnly_run {c : Cluster s} {acts : List (Act s)}
    (h : ∀ before, before <+: acts → (run c before).Only p b) : (run c acts).HeardOnly p b := by
  induction acts using List.reverseRecOn with
  | nil => exact fun r b' listing hmem => absurd hmem List.not_mem_nil
  | append_singleton acts act ih =>
      have hprefix : acts <+: acts ++ [act] := List.prefix_append acts [act]
      rw [run_concat]
      exact (ih fun before hbefore => h before (hbefore.trans hprefix)).after (h acts hprefix) act

/-- **Nobody is sent elsewhere** than to the only host there has been, -/
theorem HeardOnly.eq_of_route (h : x.HeardOnly p b) (honly : x.Only p b) (hknows : x.Knows r)
    {b' : Fin s.brokers} (hroute : (x.cluster.route r p).1 = some b') : b' = b := by
  simp only [Cluster.route, Router.route] at hroute
  split at hroute
  · next heq =>
      obtain rfl := Option.some.inj hroute
      rw [hknows.table, Heard.getElem?_table] at heq
      obtain ⟨front, listing, rest, heq, hp, -⟩ := heq
      exact h r _ listing (heq ▸ List.mem_append_right _ List.mem_cons_self) hp
  · exact honly _ (Router.lists_of_refresh hroute).2

/-- and everybody is sent there while it hosts the process and can be reached. -/
theorem HeardOnly.route_eq (h : x.HeardOnly p b) (honly : x.Only p b) (hknows : x.Knows r)
    (hb : b ∈ (x.cluster.routers.get r).brokers) (hlists : (x.cluster.brokers.get b).Lists p) :
    (x.cluster.route r p).1 = some b := by
  cases hroute : (x.cluster.route r p).1 with
  | some b' => rw [h.eq_of_route honly hknows hroute]
  | none =>
      simp only [Cluster.route, Router.route] at hroute
      split at hroute
      · cases hroute
      · have hnone := (Router.getElem?_refresh_eq_none_iff _ _ _).mp hroute b hb
        exact absurd hlists hnone

/-! ## Routing -/

/-- **Routing.** After any course of operations, outages and other routing, the table of a router
holds for each process the last of its brokers that answered when the router last asked and listed
it, and nothing else. A router that looks for a process asks nobody and finds a broker just when the
process is in its table; otherwise it asks each of its brokers once, and finds nobody just when none
of them that can be reached lists the process. So if only one broker has ever hosted a process, no
router finds another one for it at any time, and those that know this broker find it whenever it
lists the process. -/
theorem routing (c : Cluster s) (acts : List (Act s)) :
    (∀ r p b, ((run c acts).cluster.routers.get r).table[p]? = some b ↔
      ((run c acts).heard r).Names p b) ∧
    (∀ r p, let cluster := (run c acts).cluster
      let router := cluster.routers.get r
      (router.routing p).run cluster.brokers = router.route cluster.brokers p ∧
      ((router.route cluster.brokers p).1.isSome ∧ (router.routing p).heard cluster.brokers = [] ↔
        (router.table[p]?).isSome) ∧
      (router.table[p]? = none →
        (router.routing p).heard cluster.brokers = router.answers cluster.brokers ∧
        ((router.route cluster.brokers p).1 = none ↔
          ∀ b ∈ router.brokers, ¬ (cluster.brokers.get b).Lists p))) ∧
    ∀ p b, (∀ before, before <+: acts → (run c before).Only p b) →
      ∀ before, before <+: acts → ∀ r,
        (∀ b', ((run c before).cluster.route r p).1 = some b' → b' = b) ∧
        (b ∈ ((run c before).cluster.routers.get r).brokers →
          ((run c before).cluster.brokers.get b).Lists p →
          ((run c before).cluster.route r p).1 = some b) := by
  refine ⟨fun r p b => ?_, fun r p => ⟨Router.run_routing .., ?_, fun hnone => ⟨?_, ?_⟩⟩,
    fun p b honly before hbefore r => ?_⟩
  · rw [(knows_run c acts r).table, Heard.getElem?_table]
  · rw [Router.heard_routing, Router.route]
    cases hp : ((run c acts).cluster.routers.get r).table[p]? with
    | some b => simp
    | none =>
        -- whoever asks nobody has no brokers, and so finds none
        simp only [Option.isSome_none, Bool.false_eq_true, if_false, iff_false, not_and]
        intro hsome hempty
        rw [Router.table_refresh_of_answers_eq_nil hempty] at hsome
        simp at hsome
  · rw [Router.heard_routing, hnone]
    rfl
  · rw [Router.route, hnone]
    exact Router.getElem?_refresh_eq_none_iff ..
  · have hheard := heardOnly_run fun earlier hearlier => honly earlier (hearlier.trans hbefore)
    have hknows := knows_run c before r
    exact ⟨fun b' => hheard.eq_of_route (honly before hbefore) hknows,
      hheard.route_eq (honly before hbefore) hknows⟩

/-- The first of two brokers or routers. -/
def first : Fin 2 := ⟨0, Nat.two_pos⟩

/-- The second of two brokers or routers. -/
def second : Fin 2 := ⟨1, Nat.one_lt_two⟩

/-- Two brokers, and two routers that know them in opposite orders. -/
def crossed : Cluster ⟨2, 2, 0⟩ where
  brokers :=
    #v[⟨Broker.localEndpoint "east", .new 2, none⟩, ⟨Broker.localEndpoint "west", .new 2, none⟩]
  routers := #v[.new [first, second], .new [second, first]]
  cancelled := .replicate _ false
  now := 0
  files := .empty

/-- "P1" subscribes at the one broker and "P2" at the other, which then cannot be reached. A router
that has heard of both asks anew when somebody looks for a stranger. -/
def strained : List (Act ⟨2, 2, 0⟩) :=
  [.perform first 0 (.subscribe "P1"), .perform second 0 (.subscribe "P2"), .route first "P2",
    .outage second (some (.peerUnreachable "west" .networkUnreachable)), .route first "P3"]

/-- The router has lost "P2" together with the broker that hosts it; both routers find "P1" at its
host, the one in its table and the other by asking. -/
theorem routing_crossed :
    (∀ b, ((run crossed strained).cluster.routers.get first).table["P1"]? = some b ↔
      ((run crossed strained).heard first).Names "P1" b) ∧
    ((((run crossed strained).cluster.routers.get first).routing "P2").heard
        (run crossed strained).cluster.brokers).map Prod.fst = [first, second] ∧
    ((run crossed strained).cluster.route first "P1").1 = some first ∧
    ((run crossed strained).cluster.route second "P1").1 = some first := by
  obtain ⟨htable, hroute, hhost⟩ := routing crossed strained
  have honly : ∀ before ∈ strained.inits, (run crossed before).Only "P1" first := by
    unfold Only
    decide +kernel
  have hfound := hhost "P1" first
    (fun before hbefore => honly before ((List.mem_inits _ _).mpr hbefore))
    strained (List.prefix_refl _)
  refine ⟨htable first "P1", ?_, (hfound first).2 (by decide +kernel) ?_,
    (hfound second).2 (by decide +kernel) ?_⟩
  · rw [((hroute first "P2").2.2 (by decide +kernel)).1]
    decide +kernel
  · unfold Broker.Lists
    decide +kernel
  · unfold Broker.Lists
    decide +kernel

end Survey

end CriticalSection
