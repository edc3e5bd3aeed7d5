import CriticalSection.Proofs.Exclusion.Safety
import CriticalSection.Proofs.Log.Diary
import CriticalSection.Proofs.Log.Files
import CriticalSection.Proofs.Round
import CriticalSection.Proofs.Verifier.InTurn

/-!
# What the verifier says of a correct run

The processes of a party go through rounds on one exact clock, and each of them writes a log. Nobody
enters while somebody else is inside, so what they write is a diary of occupancies in turn. When all
of them are done, their logs are put together and verified: the overlaps that are reported as
violations are those that show an occupancy of no length at the very beginning or end of another
one. A round in which every stay takes some time is clean.
-/

set_option autoImplicit false

namespace CriticalSection

variable {s : Extent}

/-! ## Plans -/

/-- **What the processes of a party are to do**: how they pace their rounds, the paths of their
logs, and where these lead. -/
structure Plan where
  pacing : ProcessId → Pacing
  path : ProcessId → String
  location : ProcessId → Location

/-- Whether a move is the end of a call that has failed. -/
def Move.fails {σ ρ : Type} : Move σ ρ → Bool
  | .finish (.error _) => true
  | _ => false

/-- Whether a writer stands behind the last byte of its file. -/
def LogWriter.atEnd (w : LogWriter) (files : FileTree) : Bool :=
  (files.content? w.location).any fun content => w.position = content.size

namespace Plan

variable (plan : Plan)

/-- Whether an errand is the round of a process. -/
def isRound (p : ProcessId) (files : FileTree) : Errand → Bool
  | .round pacing writer =>
    pacing = plan.pacing p && writer.process = p && writer.location = plan.location p &&
      writer.atEnd files
  | _ => false

/-- **What may happen in a run by a plan**: processes go through their rounds, no call fails or is
given up, and the clock never goes backwards. -/
def Allows (x : Scene s) : Occasion s → Prop
  | .begin p errand => plan.isRound p x.cluster.files errand = true
  | .advance p place => ∀ call ∈ x.calls p, (call.step place x.cluster).1.fails = false
  | .hangUp _ => False
  | .setTime time => x.cluster.now ≤ time
  | _ => True

instance (x : Scene s) (o : Occasion s) : Decidable (plan.Allows x o) :=
  match o with
  | .begin p errand =>
    inferInstanceAs (Decidable (plan.isRound p x.cluster.files errand = true))
  | .advance p place =>
    inferInstanceAs (Decidable (∀ call ∈ x.calls p, (call.step place x.cluster).1.fails = false))
  | .hangUp _ => isFalse id
  | .setTime time => inferInstanceAs (Decidable (x.cluster.now ≤ time))
  | .cancel _ | .setOutage .. | .refresh _ => isTrue trivial

/-- **A party that can go by a plan**: all clocks are exact, every process has a file of its own,
and its name is a word. -/
structure Fits (party : Party s) : Prop where
  exact : ∀ p ∈ party.processes, (party.client p).skew = 0
  apart : ∀ p ∈ party.processes, ∀ q ∈ party.processes, plan.location p = plan.location q → p = q
  words : ∀ p ∈ party.processes, Text.IsWord p.toList

/-- **A party that is ready to go by a plan** has been assembled, and its logs are empty. -/
structure Ready (party : Party s) (x : Scene s) : Prop where
  assembled : party.Assembled x
  leads : ∀ p ∈ party.processes, x.cluster.files.Leads (plan.path p) (plan.location p)
  blank : ∀ p ∈ party.processes, x.cluster.files.nodes[plan.location p]? = some (.file .empty)

/-- How long the processes hold the section at least. -/
def holding (p : ProcessId) : UInt64 := (plan.pacing p).holding

/-- The time until which a process that is inside stays there. -/
def due (d : Diary) (p : ProcessId) : Option Int :=
  (d.since p).map fun time => time.toInt + (plan.holding p).toNat

/-- **What a process is doing agrees with a diary**: it is not inside and makes no call, or it is on
a round, which has written what the diary tells of it. -/
inductive Agrees (party : Party s) (d : Diary) (p : ProcessId) : Option (Call s) → Prop
  | rests (h : d.since p = none) : Agrees party d p none
  | rounds (r : Round s)
      (h : r.Writes (plan.pacing p) (.behind (plan.location p) p (d.log p)) (plan.due d p)) :
      Agrees party d p (some (.round (party.client p) (plan.pacing p) r))

/-- **A diary tells what has been logged** when what stands in the file of a process is what the
diary tells of it. -/
structure Logged (party : Party s) (d : Diary) (x : Scene s) : Prop where
  proper : d.Proper plan.holding x.cluster.now
  leads : ∀ p ∈ party.processes, x.cluster.files.Leads (plan.path p) (plan.location p)
  file : ∀ p ∈ party.processes,
    x.cluster.files.nodes[plan.location p]? = some (.file (d.log p).text.toUTF8)
  agrees : ∀ p, plan.Agrees party d p (x.calls p)

variable {plan} {party : Party s} {d d' : Diary} {x y : Scene s} {p q : ProcessId}

/-! ## Diaries of a run -/

theorem due_of_since {time : Int64} (h : d.since p = some time) :
    plan.due d p = some (time.toInt + (plan.holding p).toNat) := by
  rw [due, h]
  rfl

theorem since_of_due (h : plan.due d p = none) : d.since p = none := Option.map_eq_none_iff.mp h

theorem Agrees.of_same {call : Option (Call s)} (h : plan.Agrees party d q call)
    (hlog : d'.log q = d.log q) (hsince : d'.since q = d.since q) :
    plan.Agrees party d' q call := by
  cases h with
  | rests h => exact .rests (hsince.trans h)
  | rounds r h =>
      refine .rounds r ?_
      rw [hlog, due, hsince]
      exact h

/-- One process may go on to another call when it agrees with a diary, as all others do. -/
theorem agrees_update {calls : ProcessId → Option (Call s)} {call : Option (Call s)}
    (hcall : plan.Agrees party d p call) (hothers : ∀ q, q ≠ p → plan.Agrees party d q (calls q))
    (q : ProcessId) : plan.Agrees party d q (Function.update calls p call q) := by
  by_cases hq : q = p
  · subst hq
    rw [Function.update_self]
    exact hcall
  · rw [Function.update_of_ne hq]
    exact hothers q hq

/-- Who has logged an entry and no exit is inside. -/
theorem Agrees.inside (h : plan.Agrees party d q (x.calls q)) {time : Int64}
    (hsince : d.since q = some time) : x.Inside q := by
  generalize hcall : x.calls q = call at h
  cases h with
  | rests h =>
      rw [hsince] at h
      cases h
  | rounds r h =>
      rw [due_of_since hsince] at h
      cases h with
      | staying deadline left => exact Scene.inside_of_call hcall rfl

/-- **Who enters finds nobody inside**, so the diary tells of nobody there. -/
theorem Logged.nobody (h : plan.Logged party d x) (hlawful : party.Lawful x) (hinside : x.Inside p)
    (hsince : d.since p = none) : d.present = none := by
  refine Diary.nobody_of_since fun q => Option.eq_none_iff_forall_ne_some.mpr fun time hq => ?_
  obtain ⟨hp, hpacquired⟩ := hlawful.sound.acquired_of_inside hinside
  obtain ⟨hq', hqacquired⟩ := hlawful.sound.acquired_of_inside ((h.agrees q).inside hq)
  obtain rfl := hlawful.sound.eq_of_acquired hp hq' hpacquired hqacquired
  rw [hsince] at hq
  cases hq

theorem Ready.logged (h : plan.Ready party x) : plan.Logged party .blank x := by
  refine ⟨Diary.proper_blank _ _, h.leads, h.blank, fun p => ?_⟩
  rw [(h.assembled.idle p).1]
  exact .rests rfl

/-- A diary stays as it is while no file changes. -/
theorem Logged.keep (h : plan.Logged party d x) (hnow : x.cluster.now ≤ y.cluster.now)
    (hfiles : y.cluster.files = x.cluster.files)
    (hagrees : ∀ q, plan.Agrees party d q (y.calls q)) : plan.Logged party d y := by
  refine ⟨h.proper.later hnow, fun q hq => ?_, fun q hq => ?_, hagrees⟩
  · rw [hfiles]
    exact h.leads q hq
  · rw [hfiles]
    exact h.file q hq

/-- A diary stays as it is when a call reaches another stage in which no more has been logged. -/
theorem Logged.keep_update (h : plan.Logged party d x) {c : Cluster s} (hkeeps : x.cluster.Keeps c)
    {call : Option (Call s)} (hcall : plan.Agrees party d p call) (admitted : ProcessId → Bool) :
    plan.Logged party d ⟨c, Function.update x.calls p call, admitted⟩ :=
  h.keep (Int64.le_of_eq hkeeps.now.symm) hkeeps.files (agrees_update hcall fun q _ => h.agrees q)

/-- **A diary goes on with a record** when a call writes it. -/
theorem Logged.record (h : plan.Logged party d x) (hfits : plan.Fits party)
    (hp : p ∈ party.processes) {kind : EventKind}
    (hproper : d'.Proper plan.holding x.cluster.now)
    (hlog : ∀ q, d'.log q = d.log q ++ if q = p then [⟨p, kind, x.cluster.now⟩] else [])
    (hsince : ∀ q, q ≠ p → d'.since q = d.since q) {r : Round s}
    (hwrites : r.Writes (plan.pacing p) (.behind (plan.location p) p (d'.log p)) (plan.due d' p)) :
    plan.Logged party d' (x.proceed p (.round (party.client p) (plan.pacing p) r)
      (LoggedStay.noted (.behind (plan.location p) p (d.log p)) kind x.cluster)) := by
  have hself : d'.log p = d.log p ++ [⟨p, kind, x.cluster.now⟩] := by rw [hlog, if_pos rfl]
  have hothers : ∀ q, q ≠ p → d'.log q = d.log q := by
    intro q hq
    rw [hlog, if_neg hq, List.append_nil]
  have hfiles : (LoggedStay.noted (.behind (plan.location p) p (d.log p)) kind x.cluster).files =
      x.cluster.files.put (plan.location p) (.file (d'.log p).text.toUTF8) := by
    rw [LoggedStay.noted, LogWriter.record_behind (h.file p hp), hself]
  refine ⟨hproper, fun q hq => ?_, fun q hq => ?_, agrees_update (.rounds r hwrites)
    fun q hq => (h.agrees q).of_same (hothers q hq) (hsince q hq)⟩
  · rw [Scene.proceed, hfiles]
    exact (h.leads q hq).put (h.file p hp)
  · rw [Scene.proceed, hfiles, FileTree.nodes_put]
    split
    · next heq => rw [hfits.apart q hq p hp heq]
    · next hne =>
        rw [hothers q fun heq => hne (heq ▸ rfl)]
        exact h.file q hq

/-- A process without a call is not inside. -/
theorem Logged.since_of_idle (h : plan.Logged party d x) (hidle : x.calls p = none) :
    d.since p = none := by
  have hagrees := h.agrees p
  rw [hidle] at hagrees
  cases hagrees with
  | rests hrests => exact hrests

/-! ## What one occasion adds -/

/-- **A round begins** behind what has been logged. -/
theorem Logged.begin (h : plan.Logged party d x) {errand : Errand}
    (hround : plan.isRound p x.cluster.files errand = true) (hp : p ∈ party.processes)
    (hidle : x.calls p = none) : plan.Logged party d (x.commence party p errand) := by
  have hrests := h.since_of_idle hidle
  cases errand with
  | round pacing writer =>
      simp only [isRound, LogWriter.atEnd, Bool.and_eq_true, decide_eq_true_eq] at hround
      obtain ⟨⟨⟨rfl, hprocess⟩, hlocation⟩, hend⟩ := hround
      rw [hlocation, FileTree.content?_eq_some.mpr (h.file p hp)] at hend
      have hwriter : writer = .behind (plan.location p) p (d.log p) := by
        obtain ⟨location, process, position⟩ := writer
        obtain rfl : process = p := hprocess
        obtain rfl : location = plan.location process := hlocation
        obtain rfl := of_decide_eq_true hend
        rfl
      refine h.keep_update (.refl _) (.rounds _ ?_) _
      rw [due, hrests, hwriter]
      exact .gathering _
  | _ => cases hround

/-- **What a move adds to a diary** is what the round writes. -/
theorem Logged.advance (h : plan.Logged party d x) (hfits : plan.Fits party)
    (hlawful : party.Lawful x) {place : Nat} {call : Call s} (hcall : x.calls p = some call)
    (hfails : (call.step place x.cluster).1.fails = false)
    (hstep : x.step party (.advance p place) = some y) : ∃ d', plan.Logged party d' y := by
  obtain ⟨hp, -⟩ := hlawful.conducts.proper p call hcall
  have hagrees := h.agrees p
  rw [hcall] at hagrees
  cases hagrees with
  | rounds r hwrites =>
      have hnote := hwrites.note (hfits.exact p hp) place x.cluster
      simp only [Scene.step, hcall, Call.step] at hstep hfails
      rcases hround : r.step (party.client p) (plan.pacing p) place x.cluster with ⟨move, c⟩
      rw [hround] at hnote hstep hfails
      cases hnote with
      | waits => cases hstep
      | nothing hdue after hkeeps =>
          obtain rfl := Option.some.inj hstep
          exact ⟨d, h.keep_update hkeeps (.rounds _ (hdue ▸ after)) _⟩
      | entry hdue before after =>
          obtain rfl := Option.some.inj hstep
          have hsince := since_of_due hdue
          have hinside : x.Inside p := Scene.inside_of_call hcall (by rw [before]; rfl)
          have hnobody := h.nobody hlawful hinside hsince
          refine ⟨d.enter p x.cluster.now, h.record hfits hp (h.proper.enter p)
            (fun q => Diary.log_enter hnobody p q _) (fun q hq => ?_) ?_⟩
          · rw [Diary.since_enter, if_neg hq, Diary.since_of_nobody hnobody]
          · rw [due_of_since (by rw [Diary.since_enter, if_pos rfl]), Diary.log_enter hnobody,
              if_pos rfl]
            rw [LogWriter.record_behind (h.file p hp)] at after
            exact after
      | exit hdue reached after =>
          obtain rfl := Option.some.inj hstep
          obtain ⟨entered, hsince, rfl⟩ := Option.map_eq_some_iff.mp hdue
          have hpresent := Diary.present_of_since hsince
          refine ⟨d.leave p entered x.cluster.now, h.record hfits hp
            (h.proper.leave hpresent (of_decide_eq_true reached))
            (fun q => Diary.log_leave hpresent q _) (fun q hq => ?_) ?_⟩
          · rw [Diary.since_leave, Diary.since_of_present hpresent, if_neg hq]
          · rw [due, Diary.since_leave, Diary.log_leave hpresent, if_pos rfl]
            rw [LogWriter.record_behind (h.file p hp)] at after
            exact after
      | done hdue hkeeps =>
          obtain rfl := Option.some.inj hstep
          exact ⟨d, h.keep_update hkeeps (.rests (since_of_due hdue)) _⟩
      | fails => cases hfails

/-- **Every occasion that a plan allows** adds to a diary or leaves it as it is. -/
theorem Logged.step (h : plan.Logged party d x) (hfits : plan.Fits party)
    (hlawful : party.Lawful x) {o : Occasion s} (hallows : plan.Allows x o)
    (hstep : x.step party o = some y) : ∃ d', plan.Logged party d' y := by
  cases o with
  | begin p errand =>
      simp only [Scene.step] at hstep
      split at hstep
      · next hguard =>
          obtain rfl := Option.some.inj hstep
          exact ⟨d, h.begin hallows hguard.1 (Option.isNone_iff_eq_none.mp hguard.2.1)⟩
      · cases hstep
  | advance p place =>
      rcases hcall : x.calls p with _ | call
      · simp [Scene.step, hcall] at hstep
      · exact h.advance hfits hlawful hcall (hallows call hcall) hstep
  | hangUp p => exact hallows.elim
  | setTime time =>
      obtain rfl := Option.some.inj hstep
      exact ⟨d, h.keep hallows rfl h.agrees⟩
  | _ =>
      obtain rfl := Option.some.inj hstep
      exact ⟨d, h.keep (Int64.le_refl _) rfl h.agrees⟩

/-- **What the processes write in a run by a plan** is a diary. -/
theorem Ready.logged_of_run {start : Scene s} (hfits : plan.Fits party)
    (hready : plan.Ready party start)
    (run : party.Run plan.Allows (fun y => party.InTime y.cluster) start x) :
    party.Lawful x ∧ ∃ d, plan.Logged party d x := by
  induction run with
  | refl => exact ⟨hready.assembled.lawful, .blank, hready.logged⟩
  | step run o allowed next kept ih =>
      obtain ⟨hlawful, d, hlogged⟩ := ih
      exact ⟨(hlawful.step next kept).1, hlogged.step hfits hlawful allowed next⟩

/-! ## What is found at the end -/

/-- **The logs are read** as the diary tells them, and put together in the order of time. -/
theorem Logged.merge (h : plan.Logged party d x) (hfits : plan.Fits party)
    {order : List ProcessId} (horder : ∀ p ∈ order, p ∈ party.processes) :
    Log.merge x.cluster.files (order.map plan.path) = .ok (Log.sort (order.flatMap d.log)) := by
  apply Log.merge_of_read
  intro p hp
  apply Log.read_of_leads (h.leads p (horder p hp)) (h.file p (horder p hp))
  intro event hevent
  rw [Diary.process_of_mem_log hevent]
  exact hfits.words p (horder p hp)

section End

variable {start : Scene s} (hfits : plan.Fits party) (hready : plan.Ready party start)
  (run : party.Run plan.Allows (fun y => party.InTime y.cluster) start x)
  (hidle : ∀ p ∈ party.processes, x.calls p = none)
  {order : List ProcessId} (hnodup : order.Nodup) (horder : ∀ p ∈ order, p ∈ party.processes)

include hfits hready run hidle hnodup horder

/-- **When all processes are done**, their logs, put together in any order of the files, record
occupancies in turn, none of them shorter than planned. -/
theorem exists_records_of_run :
    ∃ merged os, Log.merge x.cluster.files (order.map plan.path) = .ok merged ∧ merged.InOrder ∧
      merged.Records os ∧ Occupancy.InTurn os ∧
      ∀ o ∈ os, o.process ∈ order ∧
        o.enter.toInt + (plan.holding o.process).toNat ≤ o.exit.toInt := by
  obtain ⟨hlawful, d, hlogged⟩ := hready.logged_of_run hfits run
  have hnobody : d.present = none := by
    refine Diary.nobody_of_since fun p => hlogged.since_of_idle ?_
    refine Option.eq_none_iff_forall_ne_some.mpr fun call hcall => ?_
    rw [hidle p (hlawful.conducts.proper p call hcall).1] at hcall
    cases hcall
  refine ⟨_, d.past.filter fun o => o.process ∈ order, hlogged.merge hfits horder,
    Log.inOrder_sort _, hlogged.proper.records_sort hnobody hnodup,
    hlogged.proper.inTurn.sublist List.filter_sublist, fun o ho => ?_⟩
  obtain ⟨ho, hprocess⟩ := List.mem_filter.mp ho
  exact ⟨of_decide_eq_true hprocess, hlogged.proper.stayed o ho⟩

/-- **What the verifier says of a correct run.** The logs can be put together in any order, and what
is reported as a violation is an occupancy of no length that stands, within another one, at the
beginning or end of it, when the other one is longer than the allowance. There is none when every
process holds the section for some time. -/
theorem genuine_iff_of_run :
    ∃ merged, Log.merge x.cluster.files (order.map plan.path) = .ok merged ∧
      ∀ margins : Margins Rat, (∀ p, 0 ≤ margins.get p) →
        (∀ v ∈ (Verifier.verify margins merged).overlaps, v.genuine = true ↔
          ∃ enter here there exit, v.Nested enter here there exit ∧
            here.moment = there.moment ∧ v.allowance < enter.to exit) ∧
        ((∀ p ∈ order, plan.holding p ≠ 0) → (Verifier.verify margins merged).clean = true) := by
  obtain ⟨merged, os, hmerge, hlog, hrecords, hturn, hos⟩ :=
    exists_records_of_run hfits hready run hidle hnodup horder
  refine ⟨merged, hmerge, fun margins hmargins => ⟨fun v hv => ?_, fun hholding => ?_⟩⟩
  · constructor
    · intro hgenuine
      have hshape : v.shape = .fullyNested := by
        by_contra hshape
        have hdissolved := Verifier.dissolved_of_inTurn hlog hrecords hturn hmargins hv hshape
        rw [hgenuine] at hdissolved
        cases hdissolved
      obtain ⟨enter, here, there, exit, hnested, -⟩ := Verifier.exists_nested hlog hv hshape
      obtain ⟨heq, hiff⟩ :=
        Verifier.genuine_iff_of_inTurn hlog hrecords hturn hmargins hv hnested
      exact ⟨enter, here, there, exit, hnested, heq, hiff.mp hgenuine⟩
    · rintro ⟨enter, here, there, exit, hnested, -, hlong⟩
      exact (Verifier.genuine_iff_of_inTurn hlog hrecords hturn hmargins hv hnested).2.mpr hlong
  · apply Verifier.clean_of_inTurn hlog hrecords hturn hmargins
    intro o ho
    obtain ⟨hp, hstay⟩ := hos o ho
    have hpos : 0 < (plan.holding o.process).toNat :=
      Nat.pos_of_ne_zero fun hzero => hholding _ hp (UInt64.toNat_inj.mp hzero)
    rw [Int64.lt_iff_toInt_lt]
    calc o.enter.toInt < o.enter.toInt + (plan.holding o.process).toNat := by omega
      _ ≤ o.exit.toInt := hstay

end End

/-! ## A pair -/

/-- Two processes that visit once: the first does not stay, and the second stays for five
milliseconds. -/
def pair : Plan where
  pacing p := ⟨1, if p = "P1" then 0 else 5, 0⟩
  path p := p ++ ".log"
  location p := p ++ ".log"

theorem mem_pair (hp : p ∈ Party.pair.processes) : p = "P1" ∨ p = "P2" := by
  simpa [Party.pair] using hp

theorem fits_pair : pair.Fits Party.pair := by
  refine ⟨fun p _ => rfl, fun p _ q _ heq => ?_, fun p hp => ?_⟩
  · simpa [pair] using heq
  · rcases mem_pair hp with rfl | rfl
    · decide
    · decide

/-- The pair with two empty logs. -/
def pairStart : Scene ⟨1, 1, 1⟩ :=
  Party.pair.assembly 2 0
    ((FileTree.empty.put "P1.log" (.file .empty)).put "P2.log" (.file .empty))

theorem ready_pair : pair.Ready Party.pair pairStart := by
  refine ⟨Party.assembled_assembly .., fun p hp => ?_, fun p hp => ?_⟩
  · rcases mem_pair hp with rfl | rfl
    · exact ⟨["P1.log"], by decide +kernel, by decide, by decide +kernel, by decide +kernel⟩
    · exact ⟨["P2.log"], by decide +kernel, by decide, by decide +kernel, by decide +kernel⟩
  · rcases mem_pair hp with rfl | rfl
    · rfl
    · rfl

/-- The second process is inside from 0 to 5, and the first one enters and leaves at 5. -/
def pairRun : List (Occasion ⟨1, 1, 1⟩) :=
  let round (p : ProcessId) : Occasion ⟨1, 1, 1⟩ :=
    .begin p (.round (pair.pacing p) ⟨pair.location p, p, 0⟩)
  let moves (p : ProcessId) (places : List Nat) : List (Occasion ⟨1, 1, 1⟩) :=
    places.map (.advance p)
  [round "P1", round "P2"] ++ moves "P1" [0, 0, 1, 1] ++
    moves "P2" [0, 0, 1, 1, 0, 0, 0, 0, 0, 0] ++ moves "P1" [0, 1, 0, 0, 0, 0] ++
    [.setTime 5] ++ moves "P2" [0, 0, 0, 0, 0, 0, 1, 1] ++
    moves "P1" [0, 0, 0, 0, 0, 0, 0, 0, 0, 1, 1] ++ moves "P2" [0, 1]

/-- The log of a process of the pair at the end of the run. -/
def pairLog (p : ProcessId) : Log :=
  if p = "P1" then [⟨"P1", .enter, 5⟩, ⟨"P1", .exit, 5⟩]
  else [⟨"P2", .enter, 0⟩, ⟨"P2", .exit, 5⟩]

/-- Both logs in the order of time. -/
def pairMerged : Log :=
  [⟨"P2", .enter, 0⟩, ⟨"P1", .enter, 5⟩, ⟨"P1", .exit, 5⟩, ⟨"P2", .exit, 5⟩]

/-- Margins of two do not excuse the first of the pair. -/
theorem exists_genuine_pair :
    ∃ v ∈ (Verifier.verify (.uniform (2 : Rat)) pairMerged).overlaps, v.genuine = true :=
  Verifier.exists_overlap (by decide +kernel)

/-- **The run of the pair** comes to its end, and its logs are put together. -/
theorem exists_run_pair :
    ∃ x, Party.pair.Run pair.Allows (fun y => Party.pair.InTime y.cluster) pairStart x ∧
      (∀ p ∈ Party.pair.processes, x.calls p = none) ∧
      Log.merge x.cluster.files (["P1", "P2"].map pair.path) = .ok pairMerged := by
  have hplay : (Party.pair.play pair.Allows (fun y => Party.pair.InTime y.cluster) pairStart
      pairRun).any (fun x => ["P1", "P2"].all fun p => (x.calls p).isNone &&
        decide (x.cluster.files.content? (pair.location p) = some (pairLog p).text.toUTF8)) =
          true := by
    decide +kernel
  obtain ⟨x, hx, hend⟩ := (Option.any_eq_true _ _).mp hplay
  have run := Party.run_of_play _ _ _ hx
  obtain ⟨-, d, hlogged⟩ := ready_pair.logged_of_run fits_pair run
  have hdone : ∀ p ∈ ["P1", "P2"], x.calls p = none ∧
      x.cluster.files.content? (pair.location p) = some (pairLog p).text.toUTF8 := by
    simpa using hend
  have hread : ∀ p ∈ ["P1", "P2"], Log.read x.cluster.files (pair.path p) = .ok (pairLog p) := by
    intro p hp
    refine Log.read_of_leads (hlogged.leads p hp) (FileTree.content?_eq_some.mp (hdone p hp).2) ?_
    rcases mem_pair hp with rfl | rfl
    · decide
    · decide
  refine ⟨x, run, fun p hp => (hdone p hp).1, ?_⟩
  rw [Log.merge_of_read hread]
  simp +decide [Log.sort, pairLog, pairMerged, List.mergeSort, List.MergeSort.Internal.splitInTwo]

/-- The first of the pair enters and leaves at the end of the stay of the second, which is longer
than the allowance. -/
theorem genuine_iff_of_run_pair :
    ∃ x, Party.pair.Run pair.Allows (fun y => Party.pair.InTime y.cluster) pairStart x ∧
      Log.merge x.cluster.files (["P1", "P2"].map pair.path) = .ok pairMerged ∧
      ∃ v ∈ (Verifier.verify (.uniform (2 : Rat)) pairMerged).overlaps, v.genuine = true ∧
        ∃ enter here there exit, v.Nested enter here there exit ∧
          here.moment = there.moment ∧ v.allowance < enter.to exit := by
  obtain ⟨x, run, hidle, hlogs⟩ := exists_run_pair
  have hnodup : ["P1", "P2"].Nodup := by decide
  obtain ⟨merged, hmerge, hverdict⟩ :=
    genuine_iff_of_run fits_pair ready_pair run hidle hnodup fun _ => id
  obtain rfl := Except.ok.inj (hmerge.symm.trans hlogs)
  have hsure := (hverdict (.uniform 2) (by simp)).1
  obtain ⟨v, hv, hgenuine⟩ := exists_genuine_pair
  exact ⟨x, run, hmerge, v, hv, hgenuine, (hsure v hv).mp hgenuine⟩

/-- **Not every correct run is clean.** -/
theorem not_clean_of_run :
    ¬ ∀ (plan : Plan) (party : Party ⟨1, 1, 1⟩) (start x : Scene ⟨1, 1, 1⟩),
      plan.Fits party → plan.Ready party start →
      party.Run plan.Allows (fun y => party.InTime y.cluster) start x →
      (∀ p ∈ party.processes, x.calls p = none) →
      ∀ (merged : Log) (margins : Margins Rat), (∀ p, 0 ≤ margins.get p) →
        Log.merge x.cluster.files (party.processes.map plan.path) = .ok merged →
          (Verifier.verify margins merged).clean = true := by
  intro hall
  obtain ⟨x, run, hidle, hlogs⟩ := exists_run_pair
  have hclean := hall pair Party.pair pairStart x fits_pair ready_pair run hidle _ (.uniform 2)
    (by simp) hlogs
  obtain ⟨v, hv, hgenuine⟩ := exists_genuine_pair
  rw [Report.clean_iff.mp hclean v hv] at hgenuine
  cases hgenuine

end Plan

end CriticalSection
