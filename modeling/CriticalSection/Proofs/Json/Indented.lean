import CriticalSection.Proofs.Json.RoundTrip

/-!
# Reading JSON that was written on many lines

A value that is written with each item and field on a line of its own is read back like one that is
written on one line: a reader leaves out the blanks that the lines start with.
-/

set_option autoImplicit false

namespace CriticalSection

namespace Json

/-! ## Blanks -/

theorem skip_newLine (level : Nat) (text : List Char) :
    skip (newLine level ++ text) = skip text := by
  have hblank : ∀ c ∈ newLine level, isSpace c = true := by
    intro c hc
    rcases List.mem_cons.mp hc with rfl | hc
    · rfl
    · rw [List.eq_of_mem_replicate hc]
      rfl
  exact List.dropWhile_append_of_pos hblank

theorem ends_newLine (level : Nat) (rest : List Char) : Ends (newLine level ++ rest) := by
  rintro c hc
  obtain rfl := Option.some.inj hc
  decide

section Blanks

variable {text text' : List Char} (h : skip text = skip text') (steps : Nat)

include h

theorem readValue?_congr : readValue? steps text = readValue? steps text' := by
  cases steps with
  | zero => rfl
  | succ steps => rw [readValue?, readValue?, h]

theorem readItems?_congr : readItems? steps text = readItems? steps text' := by
  cases steps with
  | zero => rfl
  | succ steps => rw [readItems?, readItems?, readValue?_congr h]

theorem readFields?_congr : readFields? steps text = readFields? steps text' := by
  cases steps with
  | zero => rfl
  | succ steps => rw [readFields?, readFields?, h]

end Blanks

/-! ## Values -/

/-- **A value that is read back** from what it is written as at any level, also when something
stands behind it. One step for each character is enough. -/
structure Legible (j : Json) : Prop where
  starts : ∀ level, Starts (j.indented level)
  read : ∀ level steps rest, (j.indented level).length ≤ steps → Ends rest →
    readValue? steps (j.indented level ++ rest) = some (j, rest)

/-- Values without items or fields stay on their line. -/
theorem Readable.legible {j : Json} (h : j.Readable)
    (hline : ∀ level, j.indented level = j.compact) : j.Legible where
  starts level := hline level ▸ h.starts
  read level := hline level ▸ h.read

theorem legible_ofString (content : String) : Legible (.ofString content) :=
  (readable_ofString content).legible fun _ => rfl

/-! ### Arrays -/

/-- **The items of an array are read back** up to its closing bracket. -/
theorem readItems?_indentedItems {items : List Json} (h : ∀ item ∈ items, Legible item)
    (hne : items ≠ []) {level steps : Nat} (hsteps : (indentedItems level items).length < steps)
    (below : Nat) (rest : List Char) :
    readItems? steps (indentedItems level items ++ (newLine below ++ ']' :: rest)) =
      some (items, rest) := by
  induction items generalizing steps with
  | nil => exact absurd rfl hne
  | cons item items ih =>
      obtain ⟨steps, rfl⟩ : ∃ k, steps = k + 1 := ⟨steps - 1, by omega⟩
      have hitem := (h item List.mem_cons_self).read level steps
      cases items with
      | nil =>
          simp only [indentedItems, List.isEmpty_nil, if_true, List.append_nil,
            List.length_append] at hsteps ⊢
          rw [List.append_assoc, readItems?_congr (skip_newLine ..)]
          exact readItems?_last (hitem _ (by omega) (ends_newLine _ _)) (skip_newLine ..)
      | cons next items =>
          have hindented : indentedItems level (item :: next :: items) =
              newLine level ++ item.indented level ++
                ',' :: indentedItems level (next :: items) := rfl
          rw [hindented, List.length_append, List.length_append, List.length_cons] at hsteps
          rw [hindented, List.append_assoc, List.append_assoc, List.cons_append,
            readItems?_congr (skip_newLine ..),
            readItems?_comma (hitem _ (by omega) (ends_cons (by simp) _)),
            ih (fun j hj => h j (List.mem_cons_of_mem _ hj)) (by simp) (by omega)]
          rfl

theorem legible_array {items : List Json} (h : ∀ item ∈ items, Legible item) :
    Legible (.array items) := by
  cases items with
  | nil => exact (readable_array (by simp)).legible fun _ => rfl
  | cons item items =>
      refine ⟨fun level => ⟨'[', _, rfl, by decide, by decide⟩,
        fun level steps rest hsteps _ => ?_⟩
      have hindented : (array (item :: items)).indented level =
          '[' :: (indentedItems (level + 1) (item :: items) ++ newLine level ++ [']']) := rfl
      rw [hindented, List.length_cons, List.length_append, List.length_append] at hsteps
      obtain ⟨steps, rfl⟩ : ∃ k, steps = k + 1 := ⟨steps - 1, by omega⟩
      have hlength : (indentedItems (level + 1) (item :: items)).length < steps := by
        simp only [List.length_singleton] at hsteps
        omega
      have hread := readItems?_indentedItems h (by simp) hlength level rest
      -- the blanks before the first item are left out with the bracket
      obtain ⟨tail, htail⟩ : ∃ tail, indentedItems (level + 1) (item :: items) =
          newLine (level + 1) ++ (item.indented (level + 1) ++ tail) :=
        ⟨_, by rw [indentedItems, List.append_assoc]⟩
      have hstarts : Starts (item.indented (level + 1) ++ tail ++
          (newLine level ++ ']' :: rest)) :=
        (((h item List.mem_cons_self).starts _).append _).append _
      rw [htail, List.append_assoc, readItems?_congr (skip_newLine ..)] at hread
      rw [hindented, htail, List.cons_append, List.append_assoc, List.append_assoc,
        List.append_assoc, List.singleton_append,
        readValue?_array ((skip_newLine ..).trans hstarts.skip_eq) hstarts, hread]
      rfl

/-! ### Objects -/

/-- **The fields of an object are read back** up to its closing brace. -/
theorem readFields?_indentedFields {fields : List (String × Json)}
    (h : ∀ field ∈ fields, Legible field.2) (hne : fields ≠ []) {level steps : Nat}
    (hsteps : (indentedFields level (named fields)).length < steps) (below : Nat)
    (rest : List Char) :
    readFields? steps (indentedFields level (named fields) ++ (newLine below ++ '\x7d' :: rest)) =
      some (named fields, rest) := by
  induction fields generalizing steps with
  | nil => exact absurd rfl hne
  | cons field fields ih =>
      obtain ⟨name, value⟩ := field
      obtain ⟨steps, rfl⟩ : ∃ k, steps = k + 1 := ⟨steps - 1, by omega⟩
      have hvalue : ∀ rest, (value.indented level).length ≤ steps → Ends rest →
          readValue? steps (' ' :: (value.indented level ++ rest)) = some (value, rest) := by
        intro rest hlength hends
        have hskip : skip (' ' :: (value.indented level ++ rest)) =
            skip (value.indented level ++ rest) := rfl
        rw [readValue?_congr hskip]
        exact (h (name, value) List.mem_cons_self).read level steps rest hlength hends
      cases fields with
      | nil =>
          have hindented : indentedFields level (named [(name, value)]) =
              newLine level ++ (quoted name ++ ':' :: ' ' :: value.indented level) := by
            simp [named, indentedFields]
          rw [hindented, List.length_append, List.length_append, List.length_cons,
            List.length_cons] at hsteps
          rw [hindented, List.append_assoc, List.append_assoc, List.cons_append, List.cons_append,
            readFields?_congr (skip_newLine ..)]
          exact readFields?_last (hvalue _ (by omega) (ends_newLine _ _)) (skip_newLine ..)
      | cons next fields =>
          have hindented : indentedFields level (named ((name, value) :: next :: fields)) =
              newLine level ++ (quoted name ++ ':' :: ' ' :: (value.indented level ++
                ',' :: indentedFields level (named (next :: fields)))) := by
            simp [named, indentedFields]
          rw [hindented, List.length_append, List.length_append, List.length_cons,
            List.length_cons, List.length_append, List.length_cons] at hsteps
          rw [hindented, List.append_assoc, List.append_assoc, List.cons_append, List.cons_append,
            List.append_assoc, List.cons_append, readFields?_congr (skip_newLine ..),
            readFields?_comma (hvalue _ (by omega) (ends_cons (by simp) _)),
            ih (fun f hf => h f (List.mem_cons_of_mem _ hf)) (by simp) (by omega)]
          rfl

theorem legible_ofFields {fields : List (String × Json)}
    (h : ∀ field ∈ fields, Legible field.2) : Legible (.ofFields fields) := by
  cases fields with
  | nil => exact (readable_ofFields (by simp)).legible fun _ => rfl
  | cons field fields =>
      refine ⟨fun level => ⟨'\x7b', _, rfl, by decide, by decide⟩,
        fun level steps rest hsteps _ => ?_⟩
      have hindented : (ofFields (field :: fields)).indented level =
          '\x7b' :: (indentedFields (level + 1) (named (field :: fields)) ++ newLine level ++
            ['\x7d']) := rfl
      rw [hindented, List.length_cons, List.length_append, List.length_append] at hsteps
      obtain ⟨steps, rfl⟩ : ∃ k, steps = k + 1 := ⟨steps - 1, by omega⟩
      have hlength : (indentedFields (level + 1) (named (field :: fields))).length < steps := by
        simp only [List.length_singleton] at hsteps
        omega
      have hread := readFields?_indentedFields h (by simp) hlength level rest
      obtain ⟨tail, htail⟩ : ∃ tail, indentedFields (level + 1) (named (field :: fields)) =
          newLine (level + 1) ++ ('"' :: tail) :=
        ⟨_, by rw [named, List.map_cons, indentedFields, quoted]; simp; rfl⟩
      rw [htail, List.append_assoc, readFields?_congr (skip_newLine ..)] at hread
      rw [hindented, htail, List.cons_append, List.append_assoc, List.append_assoc,
        List.append_assoc, List.singleton_append, List.cons_append,
        readValue?_object ((skip_newLine ..).trans (skip_of_not_isSpace (by decide) _))]
      rw [List.cons_append] at hread
      rw [hread]
      rfl

/-- **A value that is read back is the whole of what it is written as.** -/
theorem Legible.read?_indented {j : Json} (h : j.Legible) : read? (j.indented 0) = some j := by
  have hread := h.read 0 (2 * (j.indented 0).length + 2) [] (by omega) ends_nil
  rw [List.append_nil] at hread
  simp [read?, hread, skip]

end Json

end CriticalSection
