import CriticalSection.Proofs.Exclusion.Effects

/-!
# Assemblies

Every party can be assembled: its processes subscribe one after another, each at its home, and all
routers are told of all brokers. What is proved of assembled parties is therefore proved of
something.
-/

set_option autoImplicit false

namespace CriticalSection

variable {s : Extent}

/-- **Who subscribes at a coordinator that nobody has used yet** has a fresh record there. -/
theorem Coordinator.exists_foldl_subscribe (expected : UInt64) (processes : List ProcessId)
    (records : Std.TreeMap ProcessId Record)
    (hfresh : ∀ (p : ProcessId) (r : Record), records[p]? = some r → r = .fresh) :
    ∃ records', processes.foldl subscribe { new expected with records := records } =
        { new expected with records := records' } ∧
      ∀ p : ProcessId, records'[p]? = if p ∈ processes then some .fresh else records[p]? := by
  induction processes generalizing records with
  | nil => exact ⟨records, rfl, fun p => by simp⟩
  | cons q rest ih =>
      have hsubscribe : subscribe { new expected with records := records } q =
          { new expected with records := records.insert q .fresh } := by
        unfold subscribe
        split
        · next old hold =>
            rw [hfresh q old hold]
            rfl
        · rfl
      have hinsert : ∀ p : ProcessId, (records.insert q Record.fresh)[p]? =
          if p = q then some .fresh else records[p]? :=
        fun p => records_withRecord { new expected with records := records } q p .fresh
      obtain ⟨records', heq, hrecords'⟩ := ih (records.insert q .fresh) fun p r hr => by
        rw [hinsert] at hr
        split at hr
        · exact (Option.some.inj hr).symm
        · exact hfresh p r hr
      refine ⟨records', by rw [List.foldl_cons, hsubscribe, heq], fun p => ?_⟩
      rw [hrecords', hinsert]
      by_cases hq : p = q
      · simp [hq]
      · simp [hq]

namespace Party

variable (party : Party s) (expected : UInt64)

/-- The coordinator of a broker, after all processes that are at home there have subscribed. -/
def hosting (b : Fin s.brokers) : Coordinator :=
  (party.processes.filter fun p => party.host p = b).foldl Coordinator.subscribe (.new expected)

/-- **The assembly of a party**, at a time and with some files. -/
def assembly (now : Int64) (files : FileTree) : Scene s where
  cluster :=
    { brokers := .ofFn fun b =>
        ⟨Broker.localEndpoint (toString b.val), party.hosting expected b, none⟩
      routers := .replicate s.routers (.new (List.finRange s.brokers))
      cancelled := .replicate s.tokens false
      now := now
      files := files }
  calls _ := none
  admitted _ := false

theorem coordinator_assembly (now : Int64) (files : FileTree) (b : Fin s.brokers) :
    (party.assembly expected now files).cluster.coordinator b = party.hosting expected b := by
  simp [Cluster.coordinator, assembly]

/-- **An assembly is an assembled party.** -/
theorem assembled_assembly (now : Int64) (files : FileTree) :
    party.Assembled (party.assembly expected now files) := by
  have hhosting : ∀ b, ∃ records,
      party.hosting expected b = { Coordinator.new expected with records := records } ∧
      ∀ p : ProcessId, records[p]? =
        if p ∈ party.processes ∧ party.host p = b then some Record.fresh else none := by
    intro b
    obtain ⟨records, heq, hrecords⟩ := Coordinator.exists_foldl_subscribe expected
      (party.processes.filter fun p => party.host p = b) ∅ (by simp)
    refine ⟨records, heq, fun p => ?_⟩
    rw [hrecords]
    simp
  refine ⟨fun b p => ?_, fun b => ?_, fun r b p _ htable => ?_, fun p => ⟨rfl, rfl⟩⟩
  · obtain ⟨records, heq, hrecords⟩ := hhosting b
    rw [coordinator_assembly, heq, hrecords]
    simp only [eq_comm]
  · obtain ⟨records, heq, -⟩ := hhosting b
    exact ⟨expected, records, by rw [coordinator_assembly, heq]⟩
  · simp [assembly, Router.new] at htable

/-- The routers of an assembly find everybody. -/
theorem connected_assembly (now : Int64) (files : FileTree) :
    party.Connected (party.assembly expected now files).cluster := by
  refine ⟨fun b => ?_, fun p _ q _ => ?_⟩
  · simp [assembly]
  · simp [assembly, Router.new]

end Party

/-! ## A pair -/

/-- Two processes that are at home at the same broker. -/
def Party.pair : Party ⟨1, 1, 1⟩ where
  processes := ["P1", "P2"]
  client p := ⟨p, ["P1", "P2"], none, Extent.only, 0, Extent.only⟩
  host _ := Extent.only
  process_client _ _ := rfl
  processes_client _ _ := rfl

/-- The assembly of the pair. -/
def Party.together : Scene ⟨1, 1, 1⟩ := Party.pair.assembly 2 0 .empty

/-- The occasions by which a process begins to enter and makes a number of moves. -/
def Occasion.entry (p : ProcessId) (moves : Nat) : List (Occasion s) :=
  .begin p .acquire :: List.replicate moves (.advance p 0)

end CriticalSection
