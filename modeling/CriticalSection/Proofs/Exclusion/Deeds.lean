import CriticalSection.Proofs.Exclusion.Aside

/-!
# What a client does

A **deed** is what one client does towards the section: a move of the call by which it enters or
leaves, or the beginning of such a call; a visit or a round makes one after another. Where its
caller hangs up in the middle of it, that is a **desertion**. What a client does besides is aside.
-/

set_option autoImplicit false

namespace CriticalSection

variable {s : Extent}

/-! ## Deeds -/

/-- Where a move leaves a client that enters. -/
def Acquire.after (stage : Acquire s) : Move (Acquire s) UInt64 → Activity s
  | .wait => .entering stage
  | .next stage => .entering stage
  | .finish (.ok _) => .inside
  | .finish (.error _) => .outside

/-- Where a move leaves a client that leaves. -/
def Release.after (stage : Release s) : Move (Release s) Unit → Activity s
  | .wait => .leaving stage
  | .next stage => .leaving stage
  | .finish _ => .outside

namespace Party

/-- **The deeds of a process**: what it may come to do and what becomes of the cluster. -/
inductive Deed (party : Party s) (p : ProcessId) :
    Activity s → Cluster s → Activity s → Cluster s → Prop
  /-- It does something else. -/
  | aside {a c c'} (h : party.Aside c c') (layout : c.SameLayout c') : Deed party p a c a c'
  /-- It begins to enter. -/
  | ask {c c'} (h : party.Aside c c') (layout : c.SameLayout c') :
      Deed party p .outside c (.entering .start) c'
  | acquire {stage c move c'} (place : Nat)
      (h : Acquire.step (party.client p) place stage c = (move, c')) :
      Deed party p (.entering stage) c (stage.after move) c'
  /-- It begins to leave, or to withdraw what is left of a failed attempt to enter. -/
  | leave {a c c'} (ha : a = .outside ∨ a = .inside) (h : party.Aside c c')
      (layout : c.SameLayout c') : Deed party p a c (.leaving .start) c'
  | release {stage c move c'} (h : Release.step (party.client p) stage c = (move, c')) :
      Deed party p (.leaving stage) c (stage.after move) c'

/-- What it leaves behind when its caller hangs up while it enters or leaves. -/
inductive Desertion : Activity s → Cluster s → Activity s → Cluster s → Prop
  | entering (stage c) : Desertion (.entering stage) c .outside (stage.hangUp c)
  | leaving (stage c) : Desertion (.leaving stage) c .outside c

variable {party : Party s} {p : ProcessId} {c c' : Cluster s}

theorem Deed.sameLayout {a a' : Activity s} (h : party.Deed p a c a' c') : c.SameLayout c' := by
  cases h with
  | aside _ layout => exact layout
  | ask _ layout => exact layout
  | @acquire stage _ _ _ place h =>
      have := (stage.keeps_step (party.client p) place c).layout
      rwa [h] at this
  | leave _ _ layout => exact layout
  | @release stage _ _ _ h =>
      have := (stage.keeps_step (party.client p) c).layout
      rwa [h] at this

/-! ### Visits and rounds -/

/-- Where a call that ends leaves its client. -/
def resting (admits : Bool) : Activity s := if admits then .inside else .outside

/-- **The move of a visit** is a deed, when what is done inside is aside. -/
theorem deed_visit {β ρ : Type} {body : β → Cluster s → Move β ρ × Cluster s}
    (haside : ∀ (b : β) (c : Cluster s), party.Aside c (body b c).2)
    (hlayout : ∀ (b : β) (c : Cluster s), c.SameLayout (body b c).2)
    {place : Nat} {v : Visit s β ρ} {move : Move (Visit s β ρ) ρ}
    (h : v.step (party.client p) body place c = (move, c')) :
    (∀ v', move = .next v' → party.Deed p v.activity c v'.activity c') ∧
      ∀ outcome, move = .finish outcome →
        party.Deed p v.activity c (resting v.activity.isInside) c' ∧
          (v.activity.isInside → ∃ fault, outcome = .error fault) := by
  cases v with
  | entering stage b =>
      rcases hstep : stage.step (party.client p) place c with ⟨m, c₁⟩
      have hdeed : party.Deed p (.entering stage) c (stage.after m) c₁ := .acquire place hstep
      simp only [Visit.step, hstep] at h
      rcases m with _ | stage' | (fault | time) <;> obtain ⟨rfl, rfl⟩ := Prod.mk.inj h <;>
        simp_all [Visit.activity, Acquire.after, resting, Activity.isInside]
  | inside b =>
      have hb := haside b c
      have hl := hlayout b c
      rcases hbody : body b c with ⟨m, c₁⟩
      rw [hbody] at hb hl
      -- The stay goes on, ends in a way that keeps the client inside, or makes it leave.
      have hdeed : party.Deed p .inside c .inside c₁ := .aside hb hl
      have hleave : party.Deed p .inside c (.leaving .start) c₁ := .leave (Or.inr rfl) hb hl
      simp only [Visit.step, hbody] at h
      split at h <;> obtain ⟨rfl, rfl⟩ := Prod.mk.inj h <;>
        simp_all [Visit.activity, resting, Activity.isInside, overflowed]
  | leaving stage outcome =>
      rcases hstep : stage.step (party.client p) c with ⟨m, c₁⟩
      have hdeed : party.Deed p (.leaving stage) c (stage.after m) c₁ := .release hstep
      simp only [Visit.step, hstep] at h
      split at h <;> obtain ⟨rfl, rfl⟩ := Prod.mk.inj h <;>
        simp_all [Visit.activity, Release.after, resting, Activity.isInside]

/-- What is done during a logged stay only concerns files. -/
theorem aside_loggedStay (party : Party s) (client : Client s) (stay : LoggedStay)
    (c : Cluster s) :
    party.Aside c (stay.step client c).2 ∧ c.SameLayout (stay.step client c).2 := by
  have hrecord : ∀ writer kind, party.Aside c (LoggedStay.record client writer kind c).2 ∧
      c.SameLayout (LoggedStay.record client writer kind c).2 := by
    intro writer kind
    unfold LoggedStay.record
    split
    · exact ⟨.refl party c, .refl c⟩
    · exact ⟨.of_eq party (fun _ => rfl) rfl, fun _ => rfl, fun _ => rfl⟩
  unfold LoggedStay.step
  split
  · next writer duration =>
      have h := hrecord writer .enter
      split <;> simp_all
  · next writer deadline =>
      have h := hrecord writer .exit
      split
      · split
        simp_all
      · exact ⟨.refl party c, .refl c⟩

theorem aside_stay (party : Party s) (stay : Stay) (c : Cluster s) :
    party.Aside c (stay.step c).2 ∧ c.SameLayout (stay.step c).2 := by
  unfold Stay.step
  split <;> exact ⟨.refl party c, .refl c⟩

end Party

/-- Whether the lines of a round are at barriers. -/
def Round.AtBarriers : Round s → Prop
  | gathering line _ => line.fan.AtBarriers
  | parting line => line.fan.AtBarriers
  | _ => True

namespace Party

variable {party : Party s} {p : ProcessId} {c c' : Cluster s}

/-- A round that goes on begins to enter, or it lines up for its end. -/
theorem deed_resume (client : Client s) (pacing : Pacing) (writer : LogWriter) (left : Nat)
    (h : party.Aside c c') (layout : c.SameLayout c') :
    party.Deed p .outside c (Round.resume client pacing writer left).activity c' ∧
      (Round.resume client pacing writer left).AtBarriers := by
  cases left with
  | zero => exact ⟨.aside h layout, FanOut.atBarriers_start client client.processes⟩
  | succ left => exact ⟨.ask h layout, trivial⟩

/-- **The move of a round** is a deed. -/
theorem deed_round {pacing : Pacing} {place : Nat} {r : Round s} (hr : r.AtBarriers)
    {move : Move (Round s) UInt64} (h : r.step (party.client p) pacing place c = (move, c')) :
    (∀ r', move = .next r' → party.Deed p r.activity c r'.activity c' ∧ r'.AtBarriers) ∧
      ∀ outcome, move = .finish outcome →
        party.Deed p r.activity c (resting r.activity.isInside) c' := by
  cases r with
  | gathering line writer =>
      have hl := (line.keeps_step (party.client p) place c).layout
      rcases hstep : line.step (party.client p) place c with ⟨m, c₁⟩
      rw [hstep] at hl
      obtain ⟨ha, hbarriers⟩ := aside_lineUp party hr hstep
      have hdeed : party.Deed p .outside c .outside c₁ := .aside ha hl
      have hresume := deed_resume (p := p) (party.client p) pacing writer pacing.visits.toNat ha hl
      simp only [Round.step, hstep] at h
      rcases m with _ | line' | (fault | ⟨⟩) <;> obtain ⟨rfl, rfl⟩ := Prod.mk.inj h <;>
        simp_all [Round.activity, Round.AtBarriers, resting, Activity.isInside]
  | visiting visit left =>
      rcases hstep : visit.step (party.client p) (LoggedStay.step (party.client p)) place c
        with ⟨m, c₁⟩
      obtain ⟨hnext, hfinish⟩ := deed_visit (fun b c => (aside_loggedStay party _ b c).1)
        (fun b c => (aside_loggedStay party _ b c).2) hstep
      simp only [Round.step, hstep] at h
      rcases m with _ | visit' | (fault | writer)
      · obtain ⟨rfl, rfl⟩ := Prod.mk.inj h
        simp
      · obtain ⟨rfl, rfl⟩ := Prod.mk.inj h
        simp_all [Round.activity, Round.AtBarriers]
      · obtain ⟨rfl, rfl⟩ := Prod.mk.inj h
        simp_all [Round.activity]
      · obtain ⟨rfl, rfl⟩ := Prod.mk.inj h
        obtain ⟨hdeed, hinside⟩ := hfinish _ rfl
        -- A visit that ends well has left, so the round goes on outside.
        have houtside : visit.activity.isInside = false := by
          simpa using hinside
        rw [houtside] at hdeed
        simp_all [Round.activity, Round.AtBarriers, resting]
  | thinking deadline writer left =>
      have hresume := deed_resume (p := p) (party.client p) pacing writer left
        (.refl party c) (.refl c)
      simp only [Round.step] at h
      split at h <;> obtain ⟨rfl, rfl⟩ := Prod.mk.inj h
      · simp_all [Round.activity]
      · simp
  | parting line =>
      have hl := (line.keeps_step (party.client p) place c).layout
      rcases hstep : line.step (party.client p) place c with ⟨m, c₁⟩
      rw [hstep] at hl
      obtain ⟨ha, hbarriers⟩ := aside_lineUp party hr hstep
      have hdeed : party.Deed p .outside c .outside c₁ := .aside ha hl
      simp only [Round.step, hstep] at h
      rcases m with _ | line' | (fault | ⟨⟩) <;> obtain ⟨rfl, rfl⟩ := Prod.mk.inj h <;>
        simp_all [Round.activity, Round.AtBarriers, resting, Activity.isInside]

/-! ### Calls -/

end Party

theorem Call.activity_of_idle {call : Call s} (h : call.idle = true) :
    call.activity = .outside := by
  cases call <;> first | rfl | cases h

theorem Call.admits_of_idle {call : Call s} (h : call.idle = true) (outcome : Outcome Yield) :
    call.admits outcome = false := by
  cases call <;> first | rfl | cases h

namespace Party

variable {party : Party s} {p : ProcessId} {c c' : Cluster s}

/-- **The calls of a client**: those it can be asked to make, by itself and for its process. -/
def Proper (party : Party s) (p : ProcessId) : Call s → Prop
  | .acquire client _ => client = party.client p
  | .release client _ => client = party.client p
  | .lineUp client line => client = party.client p ∧ line.fan.AtBarriers
  | .awaitPeers client .. => client = party.client p
  | .visit client _ => client = party.client p
  | .round client _ r => client = party.client p ∧ r.AtBarriers
  | .subscribe .. => False
  | .direct .. => False

theorem proper_start (party : Party s) (p : ProcessId) (errand : Errand) :
    party.Proper p (errand.start (party.client p)) := by
  cases errand with
  | lineUp phase => exact ⟨rfl, FanOut.atBarriers_start _ _⟩
  | round pacing writer => exact ⟨rfl, FanOut.atBarriers_start _ _⟩
  | _ => rfl

/-- A call that has nothing to do with the section moves aside. -/
theorem aside_call {call : Call s} (hproper : party.Proper p call) (hidle : call.idle = true)
    {place : Nat} {move : CriticalSection.Move (Call s) Yield}
    (h : call.step place c = (move, c')) :
    party.Aside c c' ∧ c.SameLayout c' ∧
      ∀ call', move = .next call' → party.Proper p call' ∧ call'.idle = true := by
  cases call with
  | lineUp client line =>
      have hl := (line.keeps_step client place c).layout
      rcases hstep : line.step client place c with ⟨m, c₁⟩
      rw [hstep] at hl
      obtain ⟨ha, hbarriers⟩ := aside_lineUp party hproper.2 hstep
      simp only [Call.step, hstep] at h
      obtain ⟨rfl, rfl⟩ := Prod.mk.inj h
      refine ⟨ha, hl, fun call' heq => ?_⟩
      rcases m with _ | line' | outcome <;> cases heq
      exact ⟨⟨hproper.1, hbarriers line' rfl⟩, rfl⟩
  | awaitPeers client pause attempts stage =>
      have ha := aside_awaitPeers party client pause attempts stage c
      have hl := (stage.keeps_step client pause attempts c).layout
      rcases hstep : stage.step client pause attempts c with ⟨m, c₁⟩
      rw [hstep] at ha hl
      simp only [Call.step, hstep] at h
      obtain ⟨rfl, rfl⟩ := Prod.mk.inj h
      refine ⟨ha, hl, fun call' heq => ?_⟩
      rcases m with _ | stage' | outcome <;> cases heq
      exact ⟨hproper, rfl⟩
  | _ => cases hidle

/-- **The move of a call** is a deed. -/
theorem deed_call {call : Call s} (hproper : party.Proper p call) {place : Nat}
    {move : CriticalSection.Move (Call s) Yield} (h : call.step place c = (move, c')) :
    (∀ call', move = .next call' → party.Deed p call.activity c call'.activity c' ∧
      party.Proper p call' ∧ call'.idle = call.idle) ∧
    ∀ outcome, move = .finish outcome →
      party.Deed p call.activity c (resting (call.admits outcome)) c' := by
  by_cases hidle : call.idle = true
  -- A call that has nothing to do with the section leaves its client where it is.
  · obtain ⟨ha, hl, hnext⟩ := aside_call hproper hidle h
    refine ⟨fun call' heq => ?_, fun outcome _ => ?_⟩
    · obtain ⟨hproper', hidle'⟩ := hnext call' heq
      rw [Call.activity_of_idle hidle, Call.activity_of_idle hidle', hidle, hidle']
      exact ⟨.aside ha hl, hproper', rfl⟩
    · rw [Call.admits_of_idle hidle, Call.activity_of_idle hidle]
      exact .aside ha hl
  · cases call with
    | acquire client stage =>
        obtain rfl : client = party.client p := hproper
        rcases hstep : stage.step (party.client p) place c with ⟨m, c₁⟩
        have hdeed : party.Deed p (.entering stage) c (stage.after m) c₁ := .acquire place hstep
        simp only [Call.step, hstep] at h
        obtain ⟨rfl, rfl⟩ := Prod.mk.inj h
        rcases m with _ | stage' | (fault | time) <;>
          simp_all [CriticalSection.Move.map, Call.activity, Acquire.after, Proper, Call.idle,
            Call.admits, resting, Activity.isInside, Except.map]
    | release client stage =>
        obtain rfl : client = party.client p := hproper
        rcases hstep : stage.step (party.client p) c with ⟨m, c₁⟩
        have hdeed : party.Deed p (.leaving stage) c (stage.after m) c₁ := .release hstep
        simp only [Call.step, hstep] at h
        obtain ⟨rfl, rfl⟩ := Prod.mk.inj h
        rcases m with _ | stage' | outcome <;>
          simp_all [CriticalSection.Move.map, Call.activity, Release.after, Proper, Call.idle,
            Call.admits, resting, Activity.isInside]
    | visit client v =>
        obtain rfl : client = party.client p := hproper
        rcases hstep : v.step (party.client p) Stay.step place c with ⟨m, c₁⟩
        obtain ⟨hnext, hfinish⟩ := deed_visit (fun b c => (aside_stay party b c).1)
          (fun b c => (aside_stay party b c).2) hstep
        simp only [Call.step, hstep] at h
        obtain ⟨rfl, rfl⟩ := Prod.mk.inj h
        rcases m with _ | v' | outcome <;>
          simp_all [CriticalSection.Move.map, Call.activity, Proper, Call.idle, Call.admits]
    | round client pacing r =>
        obtain ⟨rfl, hr⟩ : client = party.client p ∧ r.AtBarriers := hproper
        rcases hstep : r.step (party.client p) pacing place c with ⟨m, c₁⟩
        obtain ⟨hnext, hfinish⟩ := deed_round hr hstep
        simp only [Call.step, hstep] at h
        obtain ⟨rfl, rfl⟩ := Prod.mk.inj h
        rcases m with _ | r' | outcome <;>
          simp_all [CriticalSection.Move.map, Call.activity, Proper, Call.idle, Call.admits]
    | lineUp client line => exact absurd rfl hidle
    | awaitPeers client pause attempts stage => exact absurd rfl hidle
    | subscribe client stage => exact hproper.elim
    | direct b reaction => exact hproper.elim

/-! ### Hanging up -/

/-- **What becomes of a client whose caller hangs up**: what it did was aside, or it deserts. -/
def Abandons (party : Party s) (a : Activity s) (c c' : Cluster s) : Prop :=
  (party.Aside c c' ∧ c.SameLayout c' ∧ a = resting a.isInside) ∨
    Desertion a c (resting a.isInside) c'

theorem abandons_visit {β ρ : Type} (v : Visit s β ρ) (c : Cluster s) :
    party.Abandons v.activity c (v.hangUp c) := by
  cases v with
  | entering stage body => exact Or.inr (.entering stage c)
  | inside body => exact Or.inl ⟨.refl party c, .refl c, rfl⟩
  | leaving stage outcome => exact Or.inr (.leaving stage c)

theorem abandons_lineUp {line : LineUp s} (hline : line.fan.AtBarriers) (c : Cluster s) :
    party.Abandons .outside c (line.fan.hangUp c) :=
  Or.inl ⟨aside_hangUp party hline c, (line.fan.keeps_hangUp c).layout, rfl⟩

/-- **A call can be abandoned** at every stage. -/
theorem abandons_call {call : Call s} (hproper : party.Proper p call) (c : Cluster s) :
    party.Abandons call.activity c (call.hangUp c) := by
  cases call with
  | acquire client stage => exact Or.inr (.entering stage c)
  | release client stage => exact Or.inr (.leaving stage c)
  | lineUp client line => exact abandons_lineUp hproper.2 c
  | awaitPeers client pause attempts stage => exact Or.inl ⟨.refl party c, .refl c, rfl⟩
  | visit client v => exact abandons_visit v c
  | round client pacing r =>
      cases r with
      | gathering line writer => exact abandons_lineUp hproper.2 c
      | visiting visit left => exact abandons_visit visit c
      | thinking deadline writer left => exact Or.inl ⟨.refl party c, .refl c, rfl⟩
      | parting line => exact abandons_lineUp hproper.2 c
  | subscribe client stage => exact hproper.elim
  | direct b reaction => exact hproper.elim

end Party

end CriticalSection
