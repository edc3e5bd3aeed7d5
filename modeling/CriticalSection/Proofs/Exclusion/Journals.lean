import CriticalSection.Proofs.Exclusion.Safety
import CriticalSection.Proofs.Log.Files
import CriticalSection.Proofs.Log.Journal
import CriticalSection.Proofs.Offset.Margin
import CriticalSection.Proofs.Round

/-!
# What the processes of a party log

Each process has a log of its own, and goes through its round on a log that is blank at first. Every
process may have a clock of its own, too: all that is asked of the clocks is that none goes
backwards. Whatever happens, calls that fail or are given up included, a journal recounts each log,
and a process adds to its log only while it is inside.
-/

set_option autoImplicit false

namespace CriticalSection

variable {s : Extent}

/-! ## Calls that leave files alone -/

/-- The time that a client reads is that of the cluster, as far ahead as its clock is. -/
theorem Client.toInt_of_reading {client : Client s} {c : Cluster s} {time : Int64}
    (h : client.reading c = .ok time) : time.toInt = c.now.toInt + client.skew.toInt := by
  unfold reading at h
  split at h
  · next hsum =>
      obtain rfl := Except.ok.inj h
      exact Time.toInt_of_sum? hsum
  · cases h

theorem Visit.keeps_step {β ρ : Type} {body : β → Cluster s → Move β ρ × Cluster s}
    (hbody : ∀ (b : β) (c : Cluster s), c.Keeps (body b c).2) (client : Client s) (place : Nat)
    (v : Visit s β ρ) (c : Cluster s) : c.Keeps (v.step client body place c).2 := by
  cases v with
  | entering stage b =>
      have h := stage.keeps_step client place c
      simp only [step]
      split <;> simp_all
  | inside b =>
      have h := hbody b c
      simp only [step]
      split <;> simp_all
  | leaving stage outcome =>
      have h := stage.keeps_step client c
      simp only [step]
      split <;> simp_all

theorem Stay.keeps_step (stay : Stay) (c : Cluster s) : c.Keeps (stay.step c).2 := by
  cases stay <;> exact .refl c

theorem Subscribe.keeps_step (client : Client s) (stage : Subscribe s) (c : Cluster s) :
    c.Keeps (stage.step client c).2 := by
  cases stage with
  | start =>
      have h := c.keeps_route client.router client.process
      simp only [step]
      split
      · exact .refl c
      · split
        · simp_all
        · split <;> simp_all
  | routed b => exact c.keeps_call b _

namespace Call

/-- The round that a call is, if it is one. -/
def round? : Call s → Option (Client s × Pacing × Round s)
  | round client pacing r => some (client, pacing, r)
  | _ => none

theorem eq_round {call : Call s} {client : Client s} {pacing : Pacing} {r : Round s}
    (h : call.round? = some (client, pacing, r)) : call = .round client pacing r := by
  cases call with
  | round client' pacing' r' =>
      simp only [round?, Option.some.injEq, Prod.mk.injEq] at h
      obtain ⟨rfl, rfl, rfl⟩ := h
      rfl
  | _ => cases h

theorem keeps_hangUp (call : Call s) (c : Cluster s) : c.Keeps (call.hangUp c) := by
  have hacquire : ∀ stage : Acquire s, c.Keeps (stage.hangUp c) := by
    intro stage
    cases stage with
    | gathering own time fan => exact fan.keeps_hangUp c
    | _ => exact .refl c
  have hvisit : ∀ {β ρ : Type} (v : Visit s β ρ), c.Keeps (v.hangUp c) := by
    intro β ρ v
    cases v with
    | entering stage body => exact hacquire stage
    | _ => exact .refl c
  cases call with
  | acquire client stage => exact hacquire stage
  | lineUp client line => exact line.fan.keeps_hangUp c
  | visit client v => exact hvisit v
  | round client pacing r =>
      cases r with
      | gathering line writer => exact line.fan.keeps_hangUp c
      | visiting v left => exact hvisit v
      | thinking deadline writer left => exact .refl c
      | parting line => exact line.fan.keeps_hangUp c
  | direct b reaction =>
      cases reaction with
      | parked t => exact c.keeps_withCoordinator b _
      | answered outcome => exact .refl c
  | _ => exact .refl c

/-- **A call that is no round** does not become one. -/
theorem round?_step {call call' : Call s} (hround : call.round? = none) {place : Nat}
    {c : Cluster s} (h : (call.step place c).1 = .next call') : call'.round? = none := by
  cases goesOn_of_step h with
  | round client pacing r r' => cases hround
  | _ => rfl

/-- A call that is no round leaves files alone. -/
theorem keeps_step {call : Call s} (hround : call.round? = none) (place : Nat) (c : Cluster s) :
    c.Keeps (call.step place c).2 := by
  cases call with
  | subscribe client stage => exact stage.keeps_step client c
  | acquire client stage => exact stage.keeps_step client place c
  | release client stage => exact stage.keeps_step client c
  | lineUp client line => exact line.keeps_step client place c
  | awaitPeers client pause attempts stage => exact stage.keeps_step client pause attempts c
  | visit client v => exact v.keeps_step Stay.keeps_step client place c
  | round client pacing r => cases hround
  | direct b reaction =>
      simp only [step]
      split <;> exact .refl c

end Call

/-! ## Rounds -/

/-- **A round agrees with a journal**: it is on a stay while the journal has an entry without an
exit, and what it has logged and what it has not adds up to its visits. -/
structure Round.Tells (pacing : Pacing) (w : LogWriter) (j : Journal) (r : Round s) : Prop where
  writes : ∃ due, r.Writes pacing w due ∧ (due = none ↔ j.since = none)
  visits : j.stays.length + r.outstanding pacing = pacing.visits.toNat

theorem Round.tells_start (client : Client s) (pacing : Pacing) (w : LogWriter) :
    (Round.start client w).Tells pacing w .blank := by
  refine ⟨⟨none, .gathering _, by simp [Journal.blank]⟩, ?_⟩
  show 0 + pacing.visits.toNat = _
  omega

namespace Party

variable {party : Party s} {x y : Scene s} {p q : ProcessId} {log : Location} {seen seen' : Int64}
  {j : Journal}

/-! ## Journals of a scene -/

/-- **A journal recounts the log of a process**: it tells what stands in the file, in the order of
time and not after what the process has seen of its clock, and a round that is in progress agrees
with it. -/
structure Recounts (party : Party s) (log : Location) (seen : Int64) (x : Scene s) (p : ProcessId)
    (j : Journal) : Prop where
  file : x.cluster.files.nodes[log]? = some (.file (j.log p).text.toUTF8)
  order : (j.log p).Until (seen.toInt + (party.client p).skew.toInt)
  round : ∀ client pacing r, x.calls p = some (.round client pacing r) →
    r.Tells pacing (.behind log p (j.log p)) j

/-- **What a move of a process may do to files**: nothing, or it writes to the log of the process,
which is inside, and changes nothing else. -/
def Pens (log : Location) (p : ProcessId) (x y : Scene s) : Prop :=
  y.cluster.files = x.cluster.files ∨ x.Inside p ∧ ∃ content,
    y.cluster = { x.cluster with files := x.cluster.files.put log (.file content) }

/-- A journal goes on recounting a log that does not change. -/
theorem Recounts.keep (h : party.Recounts log seen x p j)
    (hfile : y.cluster.files.nodes[log]? = x.cluster.files.nodes[log]?)
    (hseen : seen.toInt ≤ seen'.toInt)
    (hround : ∀ client pacing r, y.calls p = some (.round client pacing r) →
      r.Tells pacing (.behind log p (j.log p)) j) : party.Recounts log seen' y p j :=
  ⟨hfile.trans h.file, h.order.later (by omega), hround⟩

/-- A call that touches no file may go on or end, if a round that it is then agrees with the
journal. -/
theorem Recounts.keep_update (h : party.Recounts log seen x p j) (hseen : seen ≤ seen')
    {c : Cluster s} (hkeeps : x.cluster.Keeps c) {call : Option (Call s)}
    (hround : ∀ client pacing r, call = some (.round client pacing r) →
      r.Tells pacing (.behind log p (j.log p)) j) (admitted : ProcessId → Bool) :
    Pens log p x ⟨c, Function.update x.calls p call, admitted⟩ ∧
      ∃ j', party.Recounts log seen' ⟨c, Function.update x.calls p call, admitted⟩ p j' := by
  refine ⟨Or.inl hkeeps.files, j, h.keep (by rw [hkeeps.files]) (Int64.le_iff_toInt_le.mp hseen)
    fun client pacing r hcall => hround client pacing r ?_⟩
  exact (Function.update_self p call x.calls).symm.trans hcall

/-- **A journal goes on with a record** that a process writes behind its log. -/
theorem Recounts.record (h : party.Recounts log seen x p j) (hseen : seen ≤ x.cluster.now)
    {kind : EventKind} {time : Int64} (hread : (party.client p).reading x.cluster = .ok time)
    {j' : Journal} (hlog : j'.log p = j.log p ++ [⟨p, kind, time⟩]) {pacing : Pacing} {r : Round s}
    (htells : r.Tells pacing (.behind log p (j'.log p)) j') :
    party.Recounts log x.cluster.now (x.proceed p (.round (party.client p) pacing r)
      { x.cluster with
        files := (LogWriter.record (.behind log p (j.log p)) x.cluster.files kind time).2 }) p
      j' := by
  have htime := Client.toInt_of_reading hread
  have hlater := Int64.le_iff_toInt_le.mp hseen
  refine ⟨?_, ?_, fun client' pacing' r' hcall => ?_⟩
  · rw [LogWriter.record_behind h.file, hlog]
    exact (FileTree.nodes_put _ _ _ _).trans (if_pos rfl)
  · rw [hlog, ← htime]
    exact h.order.concat (by show _ ≤ time.toInt; omega)
  · simp only [Scene.proceed, Function.update_self, Option.some.injEq, Call.round.injEq] at hcall
    obtain ⟨-, rfl, rfl⟩ := hcall
    exact htells

/-- A process that is inside may write behind its log. -/
theorem Recounts.pens_record (h : party.Recounts log seen x p j) (hinside : x.Inside p)
    (kind : EventKind) (time : Int64) (call : Call s) :
    Pens log p x (x.proceed p call { x.cluster with
      files := (LogWriter.record (.behind log p (j.log p)) x.cluster.files kind time).2 }) := by
  refine Or.inr ⟨hinside, (Log.text (j.log p ++ [⟨p, kind, time⟩])).toUTF8, ?_⟩
  rw [LogWriter.record_behind h.file]
  rfl

/-- **What a move of a round comes to in the journal** of its process. -/
theorem Recounts.advance_round (h : party.Recounts log seen x p j) (hseen : seen ≤ x.cluster.now)
    {pacing : Pacing} {r : Round s} (hcall : x.calls p = some (.round (party.client p) pacing r))
    {place : Nat} (hstep : x.step party (.advance p place) = some y) :
    Pens log p x y ∧ ∃ j', party.Recounts log x.cluster.now y p j' := by
  obtain ⟨⟨due, hwrites, hagrees⟩, hvisits⟩ := h.round _ pacing r hcall
  have hjot := hwrites.jot (party.client p) place x.cluster
  simp only [Scene.step, hcall, Call.step] at hstep
  rcases hround : r.step (party.client p) pacing place x.cluster with ⟨move, c⟩
  rw [hround] at hjot hstep
  cases hjot with
  | waits => cases hstep
  | nothing hdue after same hkeeps =>
      obtain rfl := Option.some.inj hstep
      refine h.keep_update hseen hkeeps (fun client' pacing' r' hcall' => ?_) _
      simp only [Option.some.injEq, Call.round.injEq] at hcall'
      obtain ⟨-, rfl, rfl⟩ := hcall'
      exact ⟨⟨none, after, by rw [← hagrees, hdue]⟩, by rw [same, hvisits]⟩
  | @entry r' _ time hdue hread before after same =>
      obtain rfl := Option.some.inj hstep
      have hsince := hagrees.mp hdue
      have hlog := Journal.log_enter hsince p time
      have htells : r'.Tells pacing (.behind log p ((j.enter time).log p)) (j.enter time) := by
        rw [LogWriter.record_behind h.file, ← hlog] at after
        exact ⟨⟨_, after, by simp [Journal.enter]⟩, by rw [same]; exact hvisits⟩
      exact ⟨h.pens_record (Scene.inside_of_call hcall (by rw [before]; rfl)) _ _ _, j.enter time,
        h.record hseen hread hlog htells⟩
  | @exit r' _ _ time hdue hread before _ after fewer =>
      obtain rfl := Option.some.inj hstep
      obtain ⟨entered, hsince⟩ : ∃ entered, j.since = some entered := by
        refine Option.ne_none_iff_exists'.mp fun hnone => ?_
        rw [hagrees.mpr hnone] at hdue
        cases hdue
      have hlog := Journal.log_leave hsince p time
      have htells : r'.Tells pacing (.behind log p ((j.leave entered time).log p))
          (j.leave entered time) := by
        rw [LogWriter.record_behind h.file, ← hlog] at after
        refine ⟨⟨_, after, by simp [Journal.leave]⟩, ?_⟩
        rw [Journal.leave, List.length_append, List.length_singleton]
        omega
      exact ⟨h.pens_record (Scene.inside_of_call hcall (by rw [before]; rfl)) _ _ _,
        j.leave entered time, h.record hseen hread hlog htells⟩
  | done _ _ hkeeps =>
      obtain rfl := Option.some.inj hstep
      exact h.keep_update hseen hkeeps (fun _ _ _ hnone => by cases hnone) _
  | fails hkeeps =>
      obtain rfl := Option.some.inj hstep
      exact h.keep_update hseen hkeeps (fun _ _ _ hnone => by cases hnone) _

/-- **What a move of a process comes to in its journal.** -/
theorem Recounts.advance (h : party.Recounts log seen x p j) (hconducts : party.Conducts x)
    (hseen : seen ≤ x.cluster.now) {place : Nat}
    (hstep : x.step party (.advance p place) = some y) :
    Pens log p x y ∧ ∃ j', party.Recounts log x.cluster.now y p j' := by
  rcases hcall : x.calls p with _ | call
  · simp [Scene.step, hcall] at hstep
  · obtain ⟨hp, hproper⟩ := hconducts.proper p call hcall
    cases hround : call.round? with
    | none =>
        simp only [Scene.step, hcall] at hstep
        have hkeeps := call.keeps_step hround place x.cluster
        rcases hmove : call.step place x.cluster with ⟨_ | call' | outcome, c⟩ <;>
          rw [hmove] at hkeeps hstep
        · cases hstep
        · obtain rfl := Option.some.inj hstep
          refine h.keep_update hseen hkeeps (fun client pacing r hcall' => ?_) _
          have hnot := Call.round?_step hround (congrArg Prod.fst hmove)
          rw [Option.some.inj hcall'] at hnot
          cases hnot
        · obtain rfl := Option.some.inj hstep
          exact h.keep_update hseen hkeeps (fun _ _ _ hnone => by cases hnone) _
    | some e =>
        obtain ⟨client, pacing, r⟩ := e
        obtain rfl := Call.eq_round hround
        obtain rfl : client = party.client p := hproper.1
        exact h.advance_round hseen hcall hstep

theorem Pens.nodes_of_ne {log' : Location} (h : Pens log p x y) (hne : log' ≠ log) :
    y.cluster.files.nodes[log']? = x.cluster.files.nodes[log']? := by
  rcases h with hfiles | ⟨-, content, hcluster⟩
  · rw [hfiles]
  · rw [hcluster]
    exact (FileTree.nodes_put _ _ _ _).trans (if_neg hne)

end Party

/-! ## What may happen -/

/-- What the processes have seen of the clock, after an occasion: a process whose call moves sees
the time. -/
def Occasion.look (x : Scene s) (seen : ProcessId → Int64) : Occasion s → ProcessId → Int64
  | .advance p _ => Function.update seen p x.cluster.now
  | _ => seen

/-- **Whether no clock goes backwards** at an occasion: a process whose call moves sees no earlier
time than it has seen before. The time may change in any way in between. -/
def Occasion.Timely (x : Scene s) (seen : ProcessId → Int64) : Occasion s → Prop
  | .advance p _ => seen p ≤ x.cluster.now
  | _ => True

namespace Party

variable (party : Party s) (logs : ProcessId → Location)

/-- **Where rounds may begin**: on the log of the process, as long as it is blank. -/
def Opens (x : Scene s) : Occasion s → Prop
  | .begin p (.round _ writer) =>
    writer = ⟨logs p, p, 0⟩ ∧ x.cluster.files.content? (logs p) = some .empty
  | _ => True

instance (x : Scene s) (o : Occasion s) : Decidable (Opens logs x o) :=
  match o with
  | .begin p (.round _ writer) =>
    inferInstanceAs (Decidable (writer = ⟨logs p, p, 0⟩ ∧
      x.cluster.files.content? (logs p) = some .empty))
  | .begin _ .acquire | .begin _ .release | .begin _ (.lineUp _) | .begin _ (.awaitPeers ..)
  | .begin _ (.visit ..) | .advance .. | .hangUp _ | .cancel _ | .setOutage .. | .refresh _
  | .setTime _ => isTrue trivial

/-- **What may come next** where the processes keep logs: anything, as long as rounds begin on blank
logs, no clock goes backwards, and no logical clock comes to the last time. -/
structure Continues (x : Scene s) (seen : ProcessId → Int64) (o : Occasion s) (y : Scene s) :
    Prop where
  opens : Opens logs x o
  timely : o.Timely x seen
  next : x.step party o = some y
  kept : party.InTime y.cluster

/-- **The runs of a party whose processes keep logs**, with what each of them has seen of the
clock. -/
inductive Logging (start : Scene s) : Scene s → (ProcessId → Int64) → Prop
  | refl : Logging start start fun _ => Int64.minValue
  | step {x seen o y} (run : Logging start x seen) (h : party.Continues logs x seen o y) :
      Logging start y (o.look x seen)

instance (o : Occasion s) (x : Scene s) (seen : ProcessId → Int64) : Decidable (o.Timely x seen) :=
  match o with
  | .advance p _ => inferInstanceAs (Decidable (seen p ≤ x.cluster.now))
  | .begin .. | .hangUp _ | .cancel _ | .setOutage .. | .refresh _ | .setTime _ => isTrue trivial

/-- The scene that comes next, if it may. -/
def next? (x : Scene s) (seen : ProcessId → Int64) (o : Occasion s) : Option (Scene s) :=
  (x.step party o).filter fun y => Opens logs x o ∧ o.Timely x seen ∧ party.InTime y.cluster

/-- The scene at which a run over some occasions ends, with what has been seen of the clock, if it
can be made. -/
def playLogging (x : Scene s) (seen : ProcessId → Int64) :
    List (Occasion s) → Option (Scene s × (ProcessId → Int64))
  | [] => some (x, seen)
  | o :: rest => (party.next? logs x seen o).bind fun y => playLogging y (o.look x seen) rest

/-- Each process of the party has a log of its own. -/
def Apart : Prop := ∀ p ∈ party.processes, ∀ q ∈ party.processes, logs p = logs q → p = q

/-- **All logs are recounted** by journals. -/
def Journaled (seen : ProcessId → Int64) (x : Scene s) : Prop :=
  ∀ p ∈ party.processes, ∃ j, party.Recounts (logs p) (seen p) x p j

/-- A log stays as it is, or its process adds to it while it is inside. -/
def Guarded (o : Occasion s) (x y : Scene s) (p : ProcessId) : Prop :=
  y.cluster.files.nodes[logs p]? = x.cluster.files.nodes[logs p]? ∨
    (∃ place, o = .advance p place) ∧ x.Inside p ∧ ∃ files,
      y.cluster = { x.cluster with files := files }

variable {party} {logs} {x y : Scene s} {p q : ProcessId} {seen : ProcessId → Int64}
  {o : Occasion s} {j : Journal}

theorem continues_of_next? (h : party.next? logs x seen o = some y) :
    party.Continues logs x seen o y := by
  obtain ⟨hnext, hguard⟩ := Option.filter_eq_some_iff.mp h
  obtain ⟨hopens, htimely, hkept⟩ := of_decide_eq_true hguard
  exact ⟨hopens, htimely, hnext, hkept⟩

/-- What can be played is a run. -/
theorem Logging.play {start : Scene s} {seen' : ProcessId → Int64} {occasions : List (Occasion s)}
    (run : party.Logging logs start x seen)
    (h : party.playLogging logs x seen occasions = some (y, seen')) :
    party.Logging logs start y seen' := by
  induction occasions generalizing x seen with
  | nil =>
      obtain ⟨rfl, rfl⟩ := Prod.mk.inj (Option.some.inj h)
      exact run
  | cons o rest ih =>
      obtain ⟨z, hnext, hrest⟩ := Option.bind_eq_some_iff.mp h
      exact ih (run.step (continues_of_next? hnext)) hrest

/-- A journal goes on recounting the log of a process that does nothing. -/
theorem Recounts.of_sameFor {log : Location} {last : Int64} (h : party.Recounts log last x p j)
    (hfile : y.cluster.files.nodes[log]? = x.cluster.files.nodes[log]?) (hsame : x.SameFor y p) :
    party.Recounts log last y p j :=
  h.keep hfile (Int.le_refl _) fun client pacing r hcall =>
    h.round client pacing r (hsame.calls ▸ hcall)

/-- **A call begins** in the log: a round on a blank journal, and any other call where the log
stands. -/
theorem Recounts.commence (h : party.Recounts (logs p) (seen p) x p j) {errand : Errand}
    (hopens : Opens logs x (.begin p errand)) :
    ∃ j', party.Recounts (logs p) (seen p) (x.commence party p errand) p j' := by
  cases errand with
  | round pacing writer =>
      obtain ⟨rfl, hblank⟩ := hopens
      refine ⟨.blank, FileTree.content?_eq_some.mp hblank, Log.until_nil _,
        fun client' pacing' r' hcall => ?_⟩
      simp only [Scene.commence, Function.update_self, Errand.start, Option.some.injEq,
        Call.round.injEq] at hcall
      obtain ⟨rfl, rfl, rfl⟩ := hcall
      exact Round.tells_start _ _ _
  | _ =>
      refine ⟨j, h.keep rfl (Int.le_refl _) fun client' pacing' r' hcall => ?_⟩
      simp [Scene.commence, Errand.start] at hcall

/-- **What an occasion comes to in the journals.** -/
theorem Journaled.step (h : party.Journaled logs seen x) (hapart : party.Apart logs)
    (hconducts : party.Conducts x) (hnext : party.Continues logs x seen o y) :
    party.Journaled logs (o.look x seen) y ∧ ∀ p ∈ party.processes, Guarded logs o x y p := by
  have hstep := hnext.next
  cases o with
  | begin q errand =>
      simp only [Scene.step] at hstep
      split at hstep
      · obtain rfl := Option.some.inj hstep
        refine ⟨fun p hp => ?_, fun p _ => Or.inl rfl⟩
        obtain ⟨j, hj⟩ := h p hp
        by_cases hq : p = q
        · subst hq
          exact hj.commence hnext.opens
        · exact ⟨j, hj.of_sameFor rfl (Scene.sameFor_commence hq x party errand)⟩
      · cases hstep
  | advance q place =>
      have hq : q ∈ party.processes := by
        rcases hcall : x.calls q with _ | call
        · simp [Scene.step, hcall] at hstep
        · exact (hconducts.proper q call hcall).1
      obtain ⟨j, hj⟩ := h q hq
      obtain ⟨hpens, j', hj'⟩ := hj.advance hconducts hnext.timely hstep
      have hothers : ∀ p ∈ party.processes, p ≠ q →
          y.cluster.files.nodes[logs p]? = x.cluster.files.nodes[logs p]? :=
        fun p hp hne => hpens.nodes_of_ne fun heq => hne (hapart p hp q hq heq)
      refine ⟨fun p hp => ?_, fun p hp => ?_⟩
      · by_cases hne : p = q
        · subst hne
          rw [Occasion.look, Function.update_self]
          exact ⟨j', hj'⟩
        · obtain ⟨k, hk⟩ := h p hp
          rw [Occasion.look, Function.update_of_ne hne]
          exact ⟨k, hk.of_sameFor (hothers p hp hne)
            (Scene.sameFor_of_step hstep fun heq => hne (Option.some.inj heq).symm)⟩
      · by_cases hne : p = q
        · subst hne
          rcases hpens with hfiles | ⟨hinside, content, hcluster⟩
          · exact Or.inl (by rw [hfiles])
          · exact Or.inr ⟨⟨place, rfl⟩, hinside, _, hcluster⟩
        · exact Or.inl (hothers p hp hne)
  | hangUp q =>
      simp only [Scene.step] at hstep
      split at hstep
      · cases hstep
      · next call hcall =>
          obtain rfl := Option.some.inj hstep
          have hfiles := (call.keeps_hangUp x.cluster).files
          refine ⟨fun p hp => ?_, fun p _ => Or.inl (by rw [Scene.conclude, hfiles])⟩
          obtain ⟨j, hj⟩ := h p hp
          refine ⟨j, hj.keep (by rw [Scene.conclude, hfiles]) (Int.le_refl _)
            fun client pacing r hcall' => hj.round client pacing r ?_⟩
          by_cases hq : p = q
          · subst hq
            simp [Scene.conclude] at hcall'
          · rwa [(Scene.sameFor_conclude hq x _ _).calls] at hcall'
  | _ =>
      obtain rfl := Option.some.inj hstep
      refine ⟨fun p hp => ?_, fun p _ => Or.inl rfl⟩
      obtain ⟨j, hj⟩ := h p hp
      exact ⟨j, hj.of_sameFor rfl ⟨rfl, rfl⟩⟩

/-- **Where the logs are blank at first**, journals recount them throughout, and everything that is
proved of runs holds. -/
theorem Logging.journaled {start : Scene s} (hassembled : party.Assembled start)
    (hapart : party.Apart logs)
    (hblank : ∀ p ∈ party.processes, start.cluster.files.content? (logs p) = some .empty)
    (run : party.Logging logs start x seen) :
    party.Lawful x ∧ party.Journaled logs seen x := by
  induction run with
  | refl =>
      refine ⟨hassembled.lawful, fun p hp => ⟨.blank, FileTree.content?_eq_some.mp (hblank p hp),
        Log.until_nil _, fun client pacing r hcall => ?_⟩⟩
      rw [(hassembled.idle p).1] at hcall
      cases hcall
  | step run hnext ih =>
      obtain ⟨hlawful, hjournaled⟩ := ih
      exact ⟨(hlawful.step hnext.next hnext.kept).1,
        (hjournaled.step hapart hlawful.conducts hnext).1⟩

end Party

end CriticalSection
