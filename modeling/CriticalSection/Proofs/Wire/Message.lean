import CriticalSection.Wire.Line
import CriticalSection.Proofs.Json.RoundTrip

/-!
# Messages that arrive

Every operation and every reply is read back from its line. The record of a message is a plain
value, so its text is read back as the record; the fields of the record are then found by their
names, and each gives back what was put into it.
-/

set_option autoImplicit false

namespace CriticalSection

namespace Json

/-! ## Looking into what was written -/

@[simp] theorem string?_ofString (content : String) : (ofString content).string? = some content :=
  rfl

@[simp] theorem word?_ofInt (n : UInt64) : (ofInt n.toNat).word? = some n := by
  have hle : n.toNat ≤ lastWord := Nat.le_sub_one_of_lt n.toNat_lt
  rw [ofInt, word?, intOfNumeral?_ofInt]
  simp [hle]

@[simp] theorem int64?_ofInt (n : Int64) : (ofInt n.toInt).int64? = some n := by
  have hrange : Int64.minValue.toInt ≤ n.toInt ∧ n.toInt ≤ Int64.maxValue.toInt :=
    ⟨n.le_toInt, n.toInt_le⟩
  rw [ofInt, int64?, intOfNumeral?_ofInt]
  simp only [if_pos hrange, Int64.ofInt_toInt]

@[simp] theorem items?_array (items : List Json) : (array items).items? = some items := rfl

theorem mapM_string?_comp_ofString (texts : List String) :
    texts.mapM (string? ∘ ofString) = some texts := by
  induction texts with
  | nil => rfl
  | cons text texts ih =>
      rw [List.mapM_cons, ih]
      rfl

theorem filter_named_eq_nil {fields : List (String × Json)} {name : String}
    (h : name ∉ fields.map Prod.fst) :
    (named fields).filter (fun (key, _) => key = some name) = [] := by
  refine List.filter_eq_nil_iff.mpr fun entry hentry => ?_
  obtain ⟨field, hfield, rfl⟩ := List.mem_map.mp hentry
  have hne : field.1 ≠ name := by
    rintro rfl
    exact h (List.mem_map.mpr ⟨field, hfield, rfl⟩)
  simpa using hne

/-- **A field is found by its name** if no other field has it. -/
theorem field?_named {fields : List (String × Json)} (hnodup : (fields.map Prod.fst).Nodup)
    {name : String} {value : Json} (h : (name, value) ∈ fields) :
    field? (named fields) name = some value := by
  have hfilter : (named fields).filter (fun (key, _) => key = some name) =
      [(some name, value)] := by
    induction fields with
    | nil => simp at h
    | cons field fields ih =>
        rw [List.map_cons, List.nodup_cons] at hnodup
        rcases List.mem_cons.mp h with rfl | hmem
        · simpa [named] using filter_named_eq_nil hnodup.1
        · have hne : field.1 ≠ name :=
            fun heq => hnodup.1 (heq ▸ List.mem_map_of_mem hmem)
          simpa [named, hne] using ih hnodup.2 hmem
  simp [field?, hfilter]

/-- The fields that are asked for are found, whatever other fields there are. -/
theorem values?_named {fields known : List (String × Json)}
    (hnodup : (fields.map Prod.fst).Nodup) (h : known ⊆ fields) :
    (Content.named (named fields)).values? (known.map Prod.fst) = some (known.map Prod.snd) := by
  rw [Content.values?]
  induction known with
  | nil => rfl
  | cons field known ih =>
      rw [List.map_cons, List.mapM_cons, field?_named hnodup (h List.mem_cons_self),
        ih fun f hf => h (List.mem_cons_of_mem _ hf)]
      rfl

theorem content?_ofFields (fields : List (String × Json)) :
    (ofFields fields).content? = some (.named (named fields)) := by
  simp [ofFields, named, content?]

theorem values?_ofFields {fields : List (String × Json)}
    (hnodup : (fields.map Prod.fst).Nodup) :
    (ofFields fields).values? (fields.map Prod.fst) = some (fields.map Prod.snd) := by
  rw [values?, content?_ofFields]
  exact values?_named hnodup (List.Subset.refl fields)

/-- **A record that names its kind is read** by what reads records of this kind. -/
theorem read_ofTagged {α : Type} {tag kind : String} {fields : List (String × Json)}
    (hnodup : (tag :: fields.map Prod.fst).Nodup) {ofContent? : String → Content → Option α}
    {message : α} (h : ∀ content,
      content.values? (fields.map Prod.fst) = some (fields.map Prod.snd) →
        ofContent? kind content = some message) :
    (do
      let (kind, content) ← (ofTagged tag kind fields).tagged? tag
      ofContent? kind content) = some message := by
  have hall : (((tag, ofString kind) :: fields).map Prod.fst).Nodup := hnodup
  have htag := field?_named hall List.mem_cons_self
  have htagged : (ofTagged tag kind fields).tagged? tag =
      some (kind, .named (named ((tag, ofString kind) :: fields))) := by
    rw [tagged?, ofTagged, content?_ofFields]
    simp only [htag]
    rfl
  rw [htagged]
  exact h _ (values?_named hall (List.subset_cons_self _ _))

/-! ## Plain records -/

/-- What a plain value is written as has no blank at its end. -/
theorem Plain.exists_compact_eq {levels : Nat} {j : Json} (h : j.Plain levels) :
    ∃ text c, j.compact = text ++ [c] ∧ Text.isBlank c = false := by
  cases h with
  | text _ content => exact ⟨'"' :: content.toList.flatMap escape, '"', rfl, by decide⟩
  | @int _ n fits =>
      have hne : Nat.toDigits 10 n.natAbs ≠ [] := Nat.toDigits_ne_nil
      refine ⟨(if n < 0 then ['-'] else []) ++ (Nat.toDigits 10 n.natAbs).dropLast,
        (Nat.toDigits 10 n.natAbs).getLast hne, ?_,
        Text.isBlank_of_isDigit (Text.isDigit_of_mem_toDigits _ (List.getLast_mem hne))⟩
      rw [List.append_assoc, List.dropLast_concat_getLast]
      exact toList_text_ofInt n
  | @array _ items _ => exact ⟨'[' :: compactItems items, ']', rfl, by decide⟩
  | @object _ fields _ => exact ⟨'\x7b' :: compactFields (named fields), '\x7d', rfl, by decide⟩

@[simp] theorem plain_ofString (levels : Nat) (content : String) :
    (ofString content).Plain levels := .text levels content

@[simp] theorem plain_ofInt_word (levels : Nat) (n : UInt64) : (ofInt n.toNat).Plain levels :=
  .int levels (Nat.le_sub_one_of_lt n.toNat_lt)

@[simp] theorem plain_ofInt_int64 (levels : Nat) (n : Int64) : (ofInt n.toInt).Plain levels := by
  have hlow := n.le_toInt
  have hhigh := n.toInt_lt
  exact .int levels (by simp only [lastWord, UInt64.size]; omega)

theorem Plain.ofTagged {levels : Nat} {tag kind : String} {fields : List (String × Json)}
    (h : ∀ field ∈ fields, field.2.Plain levels) :
    (ofTagged tag kind fields).Plain (levels + 1) :=
  .object (List.forall_mem_cons.mpr ⟨.text levels kind, h⟩)

end Json

/-! ## Operations -/

theorem Stamp.ofJson?_json (s : Stamp) : Stamp.ofJson? s.json = some s := by
  have hvalues : s.json.values? ["requester_id", "requester_timestamp"] =
      some [.ofString s.process, .ofInt s.time.toNat] := Json.values?_ofFields (by simp)
  rw [ofJson?, hvalues]
  simp

@[simp] theorem Stamp.plain_json (levels : Nat) (s : Stamp) : s.json.Plain (levels + 1) :=
  .object (by simp)

namespace Operation

variable {content : Json.Content}

theorem ofProcess?_eq {make : ProcessId → Operation} {p : ProcessId}
    (h : content.values? ["process_id"] = some [.ofString p]) :
    ofProcess? make content = some (make p) := by
  simp [ofProcess?, h]

theorem ofArrival?_eq {make : ProcessId → ProcessId → Operation} {owner caller : ProcessId}
    (h : content.values? ["owner_id", "caller_id"] = some [.ofString owner, .ofString caller]) :
    ofArrival? make content = some (make owner caller) := by
  simp [ofArrival?, h]

theorem ofNothing?_eq {operation : Operation} (h : content.values? [] = some []) :
    ofNothing? operation content = some operation := by
  simp [ofNothing?, h]

/-- **An operation is read back from its record.** -/
theorem ofJson?_json (operation : Operation) : ofJson? operation.json = some operation := by
  cases operation with
  | subscribe p => exact Json.read_ofTagged (by simp) fun _ h => ofProcess?_eq h
  | listSubscribed => exact Json.read_ofTagged (by simp) fun _ h => ofNothing?_eq h
  | announce p => exact Json.read_ofTagged (by simp) fun _ h => ofProcess?_eq h
  | request owner stamp =>
      refine Json.read_ofTagged (by simp) fun content h => ?_
      replace h : content.values? ["owner_id", "request"] = some [.ofString owner, stamp.json] := h
      simp [ofContent?, h, Stamp.ofJson?_json]
  | enter p => exact Json.read_ofTagged (by simp) fun _ h => ofProcess?_eq h
  | leave p => exact Json.read_ofTagged (by simp) fun _ h => ofProcess?_eq h
  | ready owner caller => exact Json.read_ofTagged (by simp) fun _ h => ofArrival?_eq h
  | finished owner caller => exact Json.read_ofTagged (by simp) fun _ h => ofArrival?_eq h
  | restart expected =>
      refine Json.read_ofTagged (by simp) fun content h => ?_
      replace h : content.values? ["expected_nodes"] = some [.ofInt expected.toNat] := h
      simp [ofContent?, h]
  | health => exact Json.read_ofTagged (by simp) fun _ h => ofNothing?_eq h
  | readClock => exact Json.read_ofTagged (by simp) fun _ h => ofNothing?_eq h

/-- The record of an operation holds texts and numbers, or a record of these. -/
theorem plain_json (levels : Nat) (operation : Operation) :
    operation.json.Plain (levels + 2) := by
  cases operation <;> exact .ofTagged (by simp)

end Operation

/-! ## Sets of processes -/

namespace ProcessSet

theorem place_of_forall_lt {p : ProcessId} {list : List ProcessId} (h : ∀ q ∈ list, p < q) :
    place p list = p :: list := by
  cases list with
  | nil => rfl
  | cons q rest => rw [place, if_pos (h q List.mem_cons_self)]

/-- **A set is made of its members** in their order. -/
theorem ofList_toList (set : ProcessSet) : ofList set.toList = set := by
  obtain ⟨list, sorted⟩ := set
  show ofList list = ⟨list, sorted⟩
  induction list with
  | nil => rfl
  | cons p list ih =>
      obtain ⟨hlt, hsorted⟩ := List.pairwise_cons.mp sorted
      have hrest : ofList (p :: list) = (ofList list).insert p := rfl
      rw [hrest, ih hsorted]
      simp only [insert, place_of_forall_lt hlt]

end ProcessSet

/-! ## Replies -/

namespace Reply

variable {content : Json.Content}

theorem ofText?_eq {field text : String} {make : String → Reply}
    (h : content.values? [field] = some [.ofString text]) :
    ofText? field make content = some (make text) := by
  simp [ofText?, h]

/-- **A reply is read back from its record.** -/
theorem ofJson?_json (reply : Reply) : ofJson? reply.json = some reply := by
  cases reply with
  | value v =>
      cases v with
      | done =>
          refine Json.read_ofTagged (by simp) fun content h => ?_
          replace h : content.values? [] = some [] := h
          simp [ofContent?, h]
      | time time =>
          refine Json.read_ofTagged (by simp) fun content h => ?_
          replace h : content.values? ["timestamp"] = some [.ofInt time.toNat] := h
          simp [ofContent?, h]
      | subscribed processes =>
          refine Json.read_ofTagged (by simp) fun content h => ?_
          replace h : content.values? ["process_ids"] =
            some [.array (processes.toList.map .ofString)] := h
          simp [ofContent?, h, Json.mapM_string?_comp_ofString, ProcessSet.ofList_toList]
      | health text => exact Json.read_ofTagged (by simp) fun _ h => ofText?_eq h
      | readings received answered =>
          refine Json.read_ofTagged (by simp) fun content h => ?_
          replace h : content.values? ["t1", "t2"] =
            some [.ofInt received.toInt, .ofInt answered.toInt] := h
          simp [ofContent?, h]
  | nodeNotFound p => exact Json.read_ofTagged (by simp) fun _ h => ofText?_eq h
  | failed message => exact Json.read_ofTagged (by simp) fun _ h => ofText?_eq h

/-- The record of a reply holds texts and numbers, or a list of texts. -/
theorem plain_json (levels : Nat) (reply : Reply) : reply.json.Plain (levels + 2) := by
  cases reply with
  | value v =>
      cases v with
      | subscribed processes =>
          have hlist : (Json.array (processes.toList.map .ofString)).Plain (levels + 1) := by
            refine .array fun item hitem => ?_
            obtain ⟨p, -, rfl⟩ := List.mem_map.mp hitem
            exact .text levels p
          exact .ofTagged (by simpa using hlist)
      | _ => exact .ofTagged (by simp)
  | _ => exact .ofTagged (by simp)

end Reply

/-! ## Lines -/

namespace Wire

/-- **A message is read back from its line** if it is read back from its record. -/
theorem decode_encode {α : Type} {ofJson? : Json → Option α} {j : Json} {message : α}
    (hplain : j.Plain Json.maxLevels) (h : ofJson? j = some message) :
    decode ofJson? (encode j) = .ok message := by
  obtain ⟨text, c, hcompact, hc⟩ := hplain.exists_compact_eq
  have htrim : Text.trimEnd (encode j).toList = j.compact := by
    have hfeed : Text.isBlank '\n' = true := by decide
    simp [encode, hcompact, Text.trimEnd, hfeed, hc]
  rw [decode, htrim, hplain.read?_compact]
  simp only [hplain.strict, if_true, h]

/-- **An operation arrives.** -/
theorem readOperation_operationLine (operation : Operation) :
    readOperation (operationLine operation) = .ok operation :=
  decode_encode (operation.plain_json 125) operation.ofJson?_json

/-- **A reply arrives.** -/
theorem readReply_replyLine (reply : Reply) : readReply (replyLine reply) = .ok reply :=
  decode_encode (reply.plain_json 125) reply.ofJson?_json

end Wire

end CriticalSection
