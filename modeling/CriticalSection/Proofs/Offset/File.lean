import CriticalSection.Offset.File
import CriticalSection.Proofs.Decimal.Tenths
import CriticalSection.Proofs.Files.Tree
import CriticalSection.Proofs.Json.Indented
import CriticalSection.Proofs.Wire.Message

/-!
# Reading estimates back

The estimate in a file has the process, the reference and as many samples as the estimate that was
written, whatever the texts are, with each number as its numeral is read. Numbers of halves below
two to the power of 50 are read exactly, but for the odd ones with too many tenths for 53 bits,
which come back an eighth off.
-/

set_option autoImplicit false

open Float.Model.UnpackedFloat (Sign)

namespace CriticalSection

/-! ## What comes back -/

section Map

variable {α β : Type}

/-- A sample with other numbers. -/
def Sample.map (f : α → β) (s : Sample α) : Sample β := ⟨f s.delay, f s.offset⟩

/-- The numbers of a sample. -/
def Sample.numbers (s : Sample α) : List α := [s.delay, s.offset]

/-- An estimate with other numbers. -/
def ProcessEstimate.map (f : α → β) (e : ProcessEstimate α) : ProcessEstimate β :=
  ⟨e.process, e.estimate.reference, e.estimate.best.map f, e.estimate.samples.map (Sample.map f)⟩

/-- The numbers of an estimate. -/
def ProcessEstimate.numbers (e : ProcessEstimate α) : List α :=
  (e.estimate.best :: e.estimate.samples).flatMap Sample.numbers

/-- What is read of a number that was written. -/
def NumberFormat.reread (format : NumberFormat α) (x : α) : α :=
  (format.read? (format.write x)).getD x

/-- **A number that can be read** where it was written. -/
structure NumberFormat.Conveys (format : NumberFormat α) (x : α) : Prop where
  legible : (format.write x).Legible
  isSome : (format.read? (format.write x)).isSome = true

end Map

section Records

variable {α : Type} {format : NumberFormat α}

theorem NumberFormat.Conveys.read? {x : α} (h : format.Conveys x) :
    format.read? (format.write x) = some (format.reread x) := by
  obtain ⟨y, hy⟩ := Option.isSome_iff_exists.mp h.isSome
  rw [NumberFormat.reread, hy]
  rfl

theorem Sample.legible_json {s : Sample α} (h : ∀ x ∈ s.numbers, format.Conveys x) :
    (s.json format).Legible := by
  have hdelay := (h s.delay (by simp [numbers])).legible
  have hoffset := (h s.offset (by simp [numbers])).legible
  exact Json.legible_ofFields (by simp [hdelay, hoffset])

/-- **A sample is read from its record.** -/
theorem Sample.ofJson?_json {s : Sample α} (h : ∀ x ∈ s.numbers, format.Conveys x) :
    Sample.ofJson? format (s.json format) = some (s.map format.reread) := by
  have hvalues : (s.json format).values? ["delay", "offset"] =
      some [format.write s.delay, format.write s.offset] := Json.values?_ofFields (by simp)
  have hdelay := (h s.delay (by simp [numbers])).read?
  have hoffset := (h s.offset (by simp [numbers])).read?
  rw [Sample.ofJson?, hvalues]
  simp [hdelay, hoffset, Sample.map]

/-- So are all samples of a list. -/
theorem Sample.mapM_ofJson?_json {samples : List (Sample α)}
    (h : ∀ s ∈ samples, ∀ x ∈ s.numbers, format.Conveys x) :
    (samples.map (Sample.json format)).mapM (Sample.ofJson? format) =
      some (samples.map (Sample.map format.reread)) := by
  induction samples with
  | nil => rfl
  | cons s samples ih =>
      rw [List.map_cons, List.mapM_cons, Sample.ofJson?_json (h s List.mem_cons_self),
        ih fun s hs => h s (List.mem_cons_of_mem _ hs)]
      rfl

namespace ProcessEstimate

variable {e : ProcessEstimate α}

theorem conveys_of_mem_numbers (h : ∀ x ∈ e.numbers, format.Conveys x) :
    ∀ s ∈ e.estimate.best :: e.estimate.samples, ∀ x ∈ s.numbers, format.Conveys x :=
  fun s hs x hx => h x (List.mem_flatMap.mpr ⟨s, hs, hx⟩)

theorem legible_json (h : ∀ x ∈ e.numbers, format.Conveys x) : (e.json format).Legible := by
  have hall := conveys_of_mem_numbers h
  have hbest := Sample.legible_json (hall e.estimate.best List.mem_cons_self)
  have hsamples : (Json.array (e.estimate.samples.map (Sample.json format))).Legible := by
    refine Json.legible_array fun item hitem => ?_
    obtain ⟨s, hs, rfl⟩ := List.mem_map.mp hitem
    exact Sample.legible_json (hall s (List.mem_cons_of_mem _ hs))
  have hestimate : (e.estimate.json format).Legible :=
    Json.legible_ofFields (by simp [Json.legible_ofString, hbest, hsamples])
  exact Json.legible_ofFields (by simp [Json.legible_ofString, hestimate])

theorem ofJson?_json (h : ∀ x ∈ e.numbers, format.Conveys x) :
    ofJson? format (e.json format) = some (e.map format.reread) := by
  have hall := conveys_of_mem_numbers h
  have hbest := Sample.ofJson?_json (hall e.estimate.best List.mem_cons_self)
  have hsamples := Sample.mapM_ofJson?_json fun s hs => hall s (List.mem_cons_of_mem _ hs)
  have hvalues : (e.json format).values? ["process_id", "estimate"] =
      some [.ofString e.process, e.estimate.json format] := Json.values?_ofFields (by simp)
  have hvalues' : (e.estimate.json format).values? ["reference", "best", "samples"] =
      some [.ofString e.estimate.reference, e.estimate.best.json format,
        .array (e.estimate.samples.map (Sample.json format))] := Json.values?_ofFields (by simp)
  rw [ofJson?, hvalues]
  simp [Estimate.ofJson?, hvalues', hbest, hsamples, ProcessEstimate.map]

/-- **An estimate is read from its text**, with its numbers as they are read. -/
theorem ofText_text (h : ∀ x ∈ e.numbers, format.Conveys x) :
    ofText format (e.text format) = .ok (e.map format.reread) := by
  rw [ofText, text, String.toList_ofList, (legible_json h).read?_indented]
  simp [ofJson?_json h]

theorem read_of_readText {files : FileTree} {path text : String}
    (h : files.readText path = .ok text) : read format files path = ofText format text := by
  rw [read, h]
  rfl

/-- **An estimate is read from the file** to which it was written. -/
theorem read_of_write (h : ∀ x ∈ e.numbers, format.Conveys x) {files files' : FileTree}
    {path : String} (hwrite : write format files path e = .ok files') :
    read format files' path = .ok (e.map format.reread) := by
  have htext : files'.readText path = .ok (e.text format) := by
    rw [write] at hwrite
    cases hfile : files.write path (e.text format).toUTF8 with
    | error failure => rw [hfile] at hwrite; cases hwrite
    | ok written =>
        rw [hfile] at hwrite
        obtain rfl := Except.ok.inj hwrite
        obtain ⟨location, hleads, hcontent⟩ := FileTree.exists_leads_of_write hfile
        exact FileTree.readText_of_leads hleads hcontent
  rw [read_of_readText htext, ofText_text h]

end ProcessEstimate

end Records

/-! ## Halves -/

namespace NumberFormat

open Binary64

/-- By how much a number of halves is changed when it is written and read. -/
def drift (k : Int) : Rat :=
  if 2 ∣ k ∨ 5 * k.natAbs < 2 ^ 53 then 0 else if k % 4 = 1 then -(1 / 8) else 1 / 8

theorem drift_neg (k : Int) : drift (-k) = -drift k := by
  unfold drift
  simp only [Int.natAbs_neg, Int.dvd_neg]
  split_ifs
  · rw [neg_zero]
  · omega
  · rfl
  · rw [neg_neg]
  · omega

/-- What comes back when an eighth is lost or added. -/
theorem eighths_drift {n : Nat} (hlost : ¬ (2 ∣ n ∨ 5 * n < 2 ^ 53)) :
    ((if n % 4 = 1 then 4 * n - 1 else 4 * n + 1 : Nat) : Rat) * 2 ^ (-3 : Int) =
      (n : Int) / 2 + drift n := by
  have heighth : (2 : Rat) ^ (-3 : Int) = 1 / 8 := by norm_num
  have hlost' : ¬ (2 ∣ (n : Int) ∨ 5 * (n : Int).natAbs < 2 ^ 53) := by omega
  rw [drift, if_neg hlost', heighth]
  rcases (by omega : n % 4 = 1 ∨ n % 4 = 3) with hrest | hrest
  · rw [if_pos hrest, if_pos (by omega), Nat.cast_sub (by omega)]
    push_cast
    ring
  · rw [if_neg (by omega), if_neg (by omega)]
    push_cast
    ring

/-- The same with the sign of the number. -/
theorem number_drift {k : Int} {s : Sign} {m : Nat} {e : Int} (h : Normal m e)
    (hk : number (isNegative s) m e = k / 2)
    (hlost : ¬ (2 ∣ k.natAbs ∨ 5 * k.natAbs < 2 ^ 53)) :
    number (isNegative s) (if k.natAbs % 4 = 1 then 4 * k.natAbs - 1 else 4 * k.natAbs + 1) (-3) =
      k / 2 + drift k := by
  have hpos := h.value_pos
  cases s with
  | positive =>
      change number false m e = _ at hk
      change number false _ (-3) = _
      rw [number_false] at hk ⊢
      have hq : (0 : Rat) < k := by linarith
      obtain ⟨n, rfl⟩ := Int.eq_ofNat_of_zero_le (Int.cast_pos.mp hq).le
      exact eighths_drift hlost
  | negative =>
      change number (!false) m e = _ at hk
      change number (!false) _ (-3) = _
      rw [number_not, number_false] at hk ⊢
      have hq : (k : Rat) < 0 := by linarith
      obtain ⟨n, rfl⟩ := Int.exists_eq_neg_ofNat (Int.cast_lt_zero.mp hq).le
      rw [Int.natAbs_neg, Int.natAbs_natCast] at hlost ⊢
      rw [eighths_drift hlost, drift_neg]
      push_cast
      ring

theorem natAbs_half {k : Int} {negative : Bool} {m : Nat} {e : Int}
    (hk : number negative m e = k / 2) : (k.natAbs : Rat) / 2 = m * 2 ^ e := by
  rw [← abs_number negative, hk, abs_div, Nat.cast_natAbs, Int.cast_abs]
  norm_num

/-- **What is read of the tenths of a number of halves** is the number, or an eighth off. -/
theorem ofTenths_halves {x : Float} {k : Int} {s : Sign} {m : Nat} {e : Int} (h : Normal m e)
    (hx : x.toModel.unpack = .finite s m e h.pos) (hk : number (isNegative s) m e = k / 2)
    (hlt : k.natAbs < 2 ^ 51) :
    Has (ofTenths (isNegative s) (5 * k.natAbs)) (k / 2 + drift k) ∧
      (drift k = 0 → ofTenths (isNegative s) (5 * k.natAbs) = x) := by
  by_cases hkept : 2 ∣ k.natAbs ∨ 5 * k.natAbs < 2 ^ 53
  · have hread := unpack_ofTenths h (unpack_tenths h (natAbs_half hk) hkept hlt) s
    have hnone : drift k = 0 := if_pos (by omega)
    rw [hnone, add_zero, ← hk, Has, hread]
    exact ⟨.normal s h, fun _ => eq_of_unpack h hread hx⟩
  · obtain ⟨hnormal, hunpack⟩ := unpack_tenths_odd (k := k.natAbs) (by omega) (by omega) hlt
    have hread := unpack_ofTenths hnormal hunpack s
    rw [← number_drift h hk hkept, Has, hread]
    refine ⟨.normal s hnormal, fun hnone => ?_⟩
    rw [drift, if_neg (by omega)] at hnone
    split at hnone <;> norm_num at hnone

/-- **A number of halves is written as tenths**, five for each half. -/
theorem numeral?_halves {x : Float} {k : Int} (hx : Is x (k / 2)) (hk : k.natAbs < 2 ^ 51) :
    ∃ negative, Layout.estimate.numeral? x = some (.tenths negative (5 * k.natAbs)) ∧
      Is (ofTenths negative (5 * k.natAbs)) (k / 2 + drift k) ∧
      (drift k = 0 → ofTenths negative (5 * k.natAbs) = x) := by
  have hhas : Has x (k / 2) := hx.has (exact_halves (by omega))
  unfold Has at hhas
  generalize hq : (k / 2 : Rat) = q at hhas
  generalize hu : x.toModel.unpack = u at hhas
  cases hhas with
  | zero s =>
      obtain rfl : k = 0 := by
        have : (k : Rat) = 0 := by linarith
        exact_mod_cast this
      have hsame : ofTenths (isNegative s) (5 * (0 : Int).natAbs) = x := ofTenths_zero hu
      have hnone : drift 0 = 0 := rfl
      refine ⟨isNegative s, Layout.numeral?_zero hu, ?_, fun _ => hsame⟩
      rw [hsame, hnone, add_zero, ← hq]
      exact hx
  | @normal s m e h =>
      have htenths : ((5 * k.natAbs : Nat) : Rat) * 10 ^ (-1 : Int) = m * 2 ^ e := by
        rw [← natAbs_half hq.symm, zpow_neg_one]
        push_cast
        ring
      obtain ⟨hread, hsame⟩ := ofTenths_halves h hu hq.symm hk
      rw [hq] at hread
      exact ⟨isNegative s, Layout.numeral?_tenths h hu htenths (by omega), hread.is, hsame⟩

/-- **A number of halves comes back** as it is, or an eighth off. -/
theorem conveys_halves {x : Float} {k : Int} (hx : Is x (k / 2)) (hk : k.natAbs < 2 ^ 51) :
    NumberFormat.float.Conveys x ∧ Is (NumberFormat.float.reread x) (k / 2 + drift k) ∧
      (drift k = 0 → NumberFormat.float.reread x = x) := by
  obtain ⟨negative, hwrite, hread⟩ := numeral?_halves hx hk
  have hfloat := Json.floatOfNumeral?_tenths negative (n := 5 * k.natAbs) (by
    have : Json.lastWord = 2 ^ 64 - 1 := rfl
    omega)
  have hjson : NumberFormat.float.write x = .number (.tenths negative (5 * k.natAbs)) := by
    simp only [NumberFormat.float, hwrite]
  have hconveys : NumberFormat.float.Conveys x :=
    ⟨hjson ▸ (Json.readable_tenths negative _).legible fun _ => rfl, by
      rw [hjson]
      exact Option.isSome_of_eq_some hfloat⟩
  have hreread := hconveys.read?
  rw [hjson] at hreread
  rw [← Option.some.inj (hfloat.symm.trans hreread)]
  exact ⟨hconveys, hread⟩

end NumberFormat

/-! ## Estimates -/

namespace ProcessEstimate

open Binary64

/-- **All numbers of an estimate are halves** below two to the power of 50. -/
def Halves (e : ProcessEstimate Float) : Prop :=
  ∀ x ∈ e.numbers, ∃ k : Int, Is x (k / 2) ∧ |(k / 2 : Rat)| < 2 ^ 50

/-- A number of halves whose tenths are even or fit 53 bits. -/
def Kept (x : Float) : Prop := ∃ k : Int, Is x (k / 2) ∧ (2 ∣ k ∨ 5 * k.natAbs < 2 ^ 53)

theorem numbers_map {α β : Type} (f : α → β) (e : ProcessEstimate α) :
    (e.map f).numbers = e.numbers.map f := by
  simp [numbers, ProcessEstimate.map, Sample.numbers, Sample.map, List.map_flatMap,
    List.flatMap_map]

/-- An estimate is the same with other numbers just when all of them are. -/
theorem map_eq_self_iff {α : Type} {f : α → α} {e : ProcessEstimate α} :
    e.map f = e ↔ ∀ x ∈ e.numbers, f x = x := by
  constructor
  · intro h
    have hnumbers : e.numbers.map f = e.numbers.map id := by
      rw [← numbers_map, h, List.map_id]
    exact List.map_eq_map_iff.mp hnumbers
  · intro h
    have hsample : ∀ s ∈ e.estimate.best :: e.estimate.samples, s.map f = s := by
      intro s hs
      have hall : ∀ x ∈ s.numbers, f x = x := fun x hx => h x (List.mem_flatMap.mpr ⟨s, hs, hx⟩)
      rw [Sample.map, hall s.delay (by simp [Sample.numbers]),
        hall s.offset (by simp [Sample.numbers])]
    have hsamples : e.estimate.samples.map (Sample.map f) = e.estimate.samples.map id :=
      List.map_congr_left fun s hs => hsample s (List.mem_cons_of_mem _ hs)
    rw [ProcessEstimate.map, hsample _ List.mem_cons_self, hsamples, List.map_id]

theorem eq_of_is {x : Float} {k l : Int} (h : Is x (k / 2)) (h' : Is x (l / 2)) : k = l := by
  have hsame : (k / 2 : Rat) = l / 2 := Option.some.inj (h.symm.trans h')
  have hcast : (k : Rat) = l := by linarith
  exact_mod_cast hcast

section Halves

variable {e : ProcessEstimate Float} (h : e.Halves)

include h

theorem Halves.exists_lt : ∀ x ∈ e.numbers, ∃ k : Int, Is x (k / 2) ∧ k.natAbs < 2 ^ 51 := by
  intro x hx
  obtain ⟨k, hk, hlt⟩ := h x hx
  exact ⟨k, hk, natAbs_lt_of_abs_half_lt hlt⟩

theorem Halves.conveys : ∀ x ∈ e.numbers, NumberFormat.float.Conveys x := by
  intro x hx
  obtain ⟨k, hk, hlt⟩ := h.exists_lt x hx
  exact (NumberFormat.conveys_halves hk hlt).1

/-- **The numbers that come back as they were** are those that are kept. -/
theorem Halves.reread_eq_iff :
    ∀ x ∈ e.numbers, (NumberFormat.float.reread x = x ↔ Kept x) := by
  intro x hx
  obtain ⟨k, hx, hk⟩ := h.exists_lt x hx
  obtain ⟨-, hread, hsame⟩ := NumberFormat.conveys_halves hx hk
  constructor
  · intro heq
    refine ⟨k, hx, ?_⟩
    by_contra hlost
    have hdrift : (k / 2 + NumberFormat.drift k : Rat) = k / 2 :=
      Option.some.inj (hread.symm.trans (heq.symm ▸ hx))
    rw [NumberFormat.drift, if_neg hlost] at hdrift
    split at hdrift <;> linarith
  · rintro ⟨l, hl, hkept⟩
    obtain rfl := eq_of_is hx hl
    exact hsame (if_pos hkept)

end Halves

/-- **Estimates in files.** The estimate that is read from the file to which an estimate was written
has the same process, the same reference and as many samples, for all texts and all numbers of
halves below two to the power of 50. Each number comes back with its drift, which is an eighth for
odd numbers of halves with more tenths than fit 53 bits, and nothing for all others. So the estimate
comes back exactly if no number is of that kind, and its margin does if the delay of its best sample
is not. -/
theorem read_written {e : ProcessEstimate Float} (h : e.Halves) {files files' : FileTree}
    {path : String} (hwrite : write .float files path e = .ok files') :
    ∃ back, read .float files' path = .ok back ∧ back.process = e.process ∧
      back.estimate.reference = e.estimate.reference ∧
      List.Forall₂ (fun x y => ∀ k : Int, Is x (k / 2) → Is y (k / 2 + NumberFormat.drift k))
        e.numbers back.numbers ∧
      (back = e ↔ ∀ x ∈ e.numbers, Kept x) ∧
      (Kept e.estimate.best.delay → back.estimate.margin = e.estimate.margin) := by
  refine ⟨e.map NumberFormat.float.reread, read_of_write h.conveys hwrite, rfl, rfl, ?_, ?_, ?_⟩
  · rw [numbers_map, List.forall₂_map_right_iff]
    refine List.forall₂_same.mpr fun x hx k hk => ?_
    obtain ⟨l, hl, hlt⟩ := h.exists_lt x hx
    obtain rfl := eq_of_is hl hk
    exact (NumberFormat.conveys_halves hl hlt).2.1
  · rw [map_eq_self_iff]
    exact forall₂_congr h.reread_eq_iff
  · intro hdelay
    have hsame := h.reread_eq_iff e.estimate.best.delay (by simp [numbers, Sample.numbers])
    exact congrArg Quantity.half (hsame.mpr hdelay)

/-! ### Two estimates -/

theorem is_of_parts {x : Float} {negative : Bool} {m : Nat} {e : Int} {q : Rat}
    (hx : ofFloat x = .finite negative m e) (hq : number negative m e = q) : Is x q := by
  rw [Is, hx, value?, hq]

theorem is_three : Is 3 ((6 : Int) / 2) :=
  is_of_parts (show ofFloat 3 = .finite false 6755399441055744 (-51) from rfl)
    (by norm_num [number])

/-- In a tree without files an estimate is written to a new one. -/
theorem exists_write (e : ProcessEstimate Float) :
    ∃ files', write .float .empty "P1.json" e = .ok files' := by
  have hwritable : FileTree.empty.writable "P1.json" = .ok "P1.json" := by decide +kernel
  exact ⟨_, by rw [write, FileTree.write, hwritable]; rfl⟩

/-- An estimate by an exchange that took three milliseconds, with texts that are written with
backslashes. -/
def tidy : ProcessEstimate Float := ⟨"P\n1", "the \"é\" \\ clock", ⟨3, -3.5⟩, [⟨3, -3.5⟩]⟩

/-- It comes back as it was written. -/
theorem read_written_tidy :
    tidy.Halves ∧ ∃ files', write .float .empty "P1.json" tidy = .ok files' ∧
      read .float files' "P1.json" = .ok tidy := by
  have hoffset : Is (-3.5) ((-7 : Int) / 2) :=
    is_of_parts (show ofFloat (-3.5) = .finite true 7881299347898368 (-51) from rfl)
      (by norm_num [number])
  have hnumbers : ∀ x ∈ tidy.numbers, x = 3 ∨ x = -3.5 := by decide +kernel
  have hhalves : tidy.Halves := by
    intro x hx
    rcases hnumbers x hx with rfl | rfl
    · exact ⟨6, is_three, by norm_num⟩
    · exact ⟨-7, hoffset, by norm_num⟩
  have hkept : ∀ x ∈ tidy.numbers, Kept x := by
    intro x hx
    rcases hnumbers x hx with rfl | rfl
    · exact ⟨6, is_three, by decide⟩
    · exact ⟨-7, hoffset, by decide⟩
  obtain ⟨files', hwrite⟩ := exists_write tidy
  obtain ⟨back, hread, -, -, -, hsame, -⟩ := read_written hhalves hwrite
  exact ⟨hhalves, files', hwrite, hsame.mpr hkept ▸ hread⟩

/-- An estimate by an exchange with a clock that is very far ahead. -/
def distant : ProcessEstimate Float :=
  ⟨"P1", "r", ⟨3, 900719925474099.5⟩, [⟨3, 900719925474099.5⟩]⟩

/-- **Not all estimates come back.** -/
theorem not_read_written : ¬ ∀ (e : ProcessEstimate Float) (files files' : FileTree)
    (path : String), e.Halves → write .float files path e = .ok files' →
      read .float files' path = .ok e := by
  intro h
  have hoffset : Is 900719925474099.5 ((1801439850948199 : Int) / 2) :=
    is_of_parts (show ofFloat 900719925474099.5 = .finite false 7205759403792796 (-3) from rfl)
      (by norm_num [number])
  have hnumbers : ∀ x ∈ distant.numbers, x = 3 ∨ x = 900719925474099.5 := by decide +kernel
  have hhalves : distant.Halves := by
    intro x hx
    rcases hnumbers x hx with rfl | rfl
    · exact ⟨6, is_three, by norm_num⟩
    · exact ⟨1801439850948199, hoffset, by norm_num⟩
  obtain ⟨files', hwrite⟩ := exists_write distant
  have hread := (read_of_write hhalves.conveys hwrite).symm.trans
    (h distant .empty files' "P1.json" hhalves hwrite)
  have hmem : (900719925474099.5 : Float) ∈ distant.numbers := by
    simp [numbers, distant, Sample.numbers]
  obtain ⟨k, hk, hkept⟩ := (hhalves.reread_eq_iff _ hmem).mp
    (map_eq_self_iff.mp (Except.ok.inj hread) _ hmem)
  obtain rfl := eq_of_is hk hoffset
  exact absurd hkept (by decide)

end ProcessEstimate

end CriticalSection
