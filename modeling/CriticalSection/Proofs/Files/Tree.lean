import CriticalSection.Files.Tree
import CriticalSection.Proofs.Table
import CriticalSection.Proofs.Text

/-!
# Reading and writing files

A path that leads to a file goes on leading there when files are written, and what is read from it
is what stands there. Writing behind the last byte of a file adds to it.
-/

set_option autoImplicit false

namespace CriticalSection.FileTree

variable {t : FileTree} {path : String} {location l : Location} {content content' bytes : ByteArray}

/-- The content of the file at a location. -/
def content? (t : FileTree) (location : Location) : Option ByteArray :=
  match t.nodes[location]? with
  | some (.file content) => some content
  | _ => none

theorem content?_eq_some :
    t.content? location = some content ↔ t.nodes[location]? = some (.file content) := by
  rw [content?]
  rcases t.nodes[location]? with _ | (file | _) <;> simp

/-- **A path leads to a location**, whatever file stands there. -/
def Leads (t : FileTree) (path : String) (location : Location) : Prop :=
  ∃ names, t.resolve path = .ok names ∧ names ≠ [] ∧ locate names = location ∧
    Path.namesDirectory path = false

/-- **What is read** from a file is its content. -/
theorem read_of_leads (h : t.Leads path location)
    (hcontent : t.nodes[location]? = some (.file content)) : t.read path = .ok content := by
  obtain ⟨names, hresolve, hne, hlocate, hfile⟩ := h
  have hnode : t.node? names = some (.file content) := by
    rw [node?, List.isEmpty_eq_false_iff.mpr hne, hlocate]
    exact hcontent
  rw [read, hresolve]
  simp [hnode, hfile]

/-- The text that has been written to a file is read from it. -/
theorem readText_of_leads (h : t.Leads path location) {text : String}
    (hcontent : t.nodes[location]? = some (.file text.toUTF8)) : t.readText path = .ok text := by
  rw [readText, read_of_leads h hcontent]
  simp only [Text.fromUTF8?_toUTF8]

/-! ## Writing -/

theorem nodes_put (t : FileTree) (l location : Location) (node : Node) :
    (t.put l node).nodes[location]? = if location = l then some node else t.nodes[location]? :=
  Table.getElem?_insert t.nodes l location node

/-- **A file changes no way** that was found before, since no way goes through a file. -/
theorem follow_put_of_ok {here names target : List String} (h : t.follow here names = .ok target)
    (hl : t.nodes[l]? ≠ some .directory) (content : ByteArray) :
    (t.put l (.file content)).follow here names = .ok target := by
  induction names generalizing here with
  | nil => exact h
  | cons name rest ih =>
      rw [follow] at h
      split at h
      · cases h
      · cases h
      · next hnode =>
          have hkeep : (t.put l (.file content)).node? here = some .directory := by
            unfold node? at hnode ⊢
            by_cases hhere : here.isEmpty = true
            · rw [if_pos hhere]
            · rw [if_neg hhere] at hnode ⊢
              have hne : locate here ≠ l := fun heq => hl (heq ▸ hnode)
              rw [nodes_put, if_neg hne]
              exact hnode
          rw [follow, hkeep]
          dsimp only
          split at h
          · cases h
          · next hlong =>
              rw [if_neg hlong]
              split at h
              · next hhere =>
                  rw [if_pos hhere]
                  exact ih h
              · next hhere =>
                  rw [if_neg hhere]
                  split at h
                  · next habove =>
                      rw [if_pos habove]
                      exact ih h
                  · next habove =>
                      rw [if_neg habove]
                      exact ih h

/-- A path that leads to a location still does so when a file is put where no directory is. -/
theorem Leads.put_of_free (h : t.Leads path location) (hl : t.nodes[l]? ≠ some .directory)
    (content : ByteArray) : (t.put l (.file content)).Leads path location := by
  obtain ⟨names, hresolve, hrest⟩ := h
  refine ⟨names, ?_, hrest⟩
  unfold resolve at hresolve ⊢
  split at hresolve
  · cases hresolve
  · exact follow_put_of_ok hresolve hl content

/-- So it does when the content of a file changes. -/
theorem Leads.put (h : t.Leads path location) (hfile : t.nodes[l]? = some (.file content)) :
    (t.put l (.file content')).Leads path location :=
  h.put_of_free (by simp [hfile]) content'

/-- **A path to which a file can be written** leads to its location, and no directory is there. -/
theorem leads_of_writable (h : t.writable path = .ok location) :
    t.Leads path location ∧ t.nodes[location]? ≠ some .directory := by
  unfold writable at h
  cases hresolve : t.resolve path with
  | error failure => rw [hresolve] at h; cases h
  | ok names =>
      rw [hresolve] at h
      dsimp only at h
      have hplain : t.node? names ≠ some .directory ∧ Path.namesDirectory path = false ∧
          locate names = location := by
        split at h
        · cases h
        · next hnode =>
            rw [hnode]
            split at h
            · cases h
            · next hpath => exact ⟨by simp, by simpa using hpath, Except.ok.inj h⟩
        · next hnode =>
            rw [hnode]
            split at h
            · cases h
            · next hpath => exact ⟨by simp, by simpa using hpath, Except.ok.inj h⟩
      obtain ⟨hnode, hpath, rfl⟩ := hplain
      have hne : names ≠ [] := by
        rintro rfl
        exact hnode rfl
      have hfree : t.nodes[locate names]? ≠ some .directory := by
        rwa [node?, List.isEmpty_eq_false_iff.mpr hne] at hnode
      exact ⟨⟨names, hresolve, hne, rfl, hpath⟩, hfree⟩

/-- **A file that can be read can be written**, and this replaces its content and nothing else. -/
theorem exists_of_read (h : t.read path = .ok content) :
    ∃ location, t.Leads path location ∧ t.nodes[location]? = some (.file content) ∧
      ∀ content', t.write path content' = .ok (t.put location (.file content')) := by
  unfold read at h
  cases hresolve : t.resolve path with
  | error failure => rw [hresolve] at h; cases h
  | ok names =>
      rw [hresolve] at h
      dsimp only at h
      split at h
      · cases h
      · cases h
      · next content' hnode =>
          split at h
          · cases h
          · next hpath =>
              obtain rfl := Except.ok.inj h
              have hne : names ≠ [] := by
                rintro rfl
                cases hnode
              have hplain : Path.namesDirectory path = false := by simpa using hpath
              have hwritable : t.writable path = .ok (locate names) := by
                rw [writable, hresolve]
                simp [hnode, hplain]
              refine ⟨locate names, ⟨names, hresolve, hne, rfl, hplain⟩, ?_, fun content' => ?_⟩
              · rwa [node?, List.isEmpty_eq_false_iff.mpr hne] at hnode
              · rw [write, hwritable]
                rfl

/-- **Writing a file leaves the other ones as they are.** -/
theorem read_put_of_not_leads (h : t.read path = .ok content) (hl : t.nodes[l]? ≠ some .directory)
    (hother : ¬ t.Leads path l) (content' : ByteArray) :
    (t.put l (.file content')).read path = .ok content := by
  obtain ⟨location, hleads, hfile, -⟩ := exists_of_read h
  have hne : location ≠ l := fun heq => hother (heq ▸ hleads)
  refine read_of_leads (hleads.put_of_free hl content') ?_
  rw [nodes_put, if_neg hne, hfile]

/-- What is written goes where the path leads. -/
theorem exists_of_write {t' : FileTree} (h : t.write path content = .ok t') :
    ∃ location, t.Leads path location ∧ t.nodes[location]? ≠ some .directory ∧
      t' = t.put location (.file content) := by
  rw [write] at h
  cases hwritable : t.writable path with
  | error failure => rw [hwritable] at h; cases h
  | ok location =>
      rw [hwritable] at h
      obtain rfl := Except.ok.inj h
      obtain ⟨hleads, hfree⟩ := leads_of_writable hwritable
      exact ⟨location, hleads, hfree, rfl⟩

/-- **What has been written to a file** stands where the path leads. -/
theorem exists_leads_of_write {t' : FileTree} (h : t.write path content = .ok t') :
    ∃ location, t'.Leads path location ∧ t'.nodes[location]? = some (.file content) := by
  obtain ⟨location, hleads, hfree, rfl⟩ := exists_of_write h
  exact ⟨location, hleads.put_of_free hfree content, by rw [nodes_put, if_pos rfl]⟩

theorem overwrite_size (content bytes : ByteArray) :
    overwrite content content.size bytes = content ++ bytes := by
  have hgap : (⟨(List.replicate (content.size - content.size) (0 : UInt8)).toArray⟩ : ByteArray) =
      .empty := by
    rw [Nat.sub_self]
    rfl
  have hrest : content.extract (content.size + bytes.size) content.size = .empty := by
    rw [ByteArray.extract_eq_empty_iff]
    omega
  simp only [overwrite, ByteArray.extract_zero_size, hgap, hrest, ByteArray.append_empty]

/-- **Writing behind the last byte** of a file adds to it. -/
theorem writeAt_size (h : t.nodes[l]? = some (.file content)) (bytes : ByteArray) :
    t.writeAt l content.size bytes = t.put l (.file (content ++ bytes)) := by
  rw [writeAt, h, overwrite_size]

end CriticalSection.FileTree
