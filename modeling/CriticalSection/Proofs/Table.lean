import Std.Data.TreeMap

/-!
# Tables

What stands under a key after other values have been put into a table, and which values a table
holds. Keys are told apart by equality here, not by their order.
-/

set_option autoImplicit false

namespace CriticalSection.Table

variable {κ β : Type} [Ord κ] [Std.TransOrd κ] [Std.LawfulEqOrd κ] [DecidableEq κ]

theorem getElem?_insert (table : Std.TreeMap κ β) (key k : κ) (value : β) :
    (table.insert key value)[k]? = if k = key then some value else table[k]? := by
  rw [Std.TreeMap.getElem?_insert]
  by_cases h : k = key
  · simp [h]
  · simp [h, Ne.symm h]

theorem getElem?_erase (table : Std.TreeMap κ β) (key k : κ) :
    (table.erase key)[k]? = if k = key then none else table[k]? := by
  rw [Std.TreeMap.getElem?_erase]
  by_cases h : k = key
  · simp [h]
  · simp [h, Ne.symm h]

/-- A table after the same value has been put under a number of keys. -/
theorem getElem?_foldl_insert (keys : List κ) (value : β) (table : Std.TreeMap κ β) (k : κ) :
    (keys.foldl (fun table key => table.insert key value) table)[k]? =
      if k ∈ keys then some value else table[k]? := by
  induction keys generalizing table with
  | nil => simp
  | cons key rest ih =>
      rw [List.foldl_cons, ih, getElem?_insert]
      by_cases hrest : k ∈ rest
      · simp [hrest]
      · by_cases hk : k = key
        · simp [hk]
        · simp [hrest, hk]

omit [DecidableEq κ] in
/-- The values of a table are those that stand under its keys. -/
theorem mem_values {table : Std.TreeMap κ β} {value : β} :
    value ∈ table.values ↔ ∃ key : κ, table[key]? = some value := by
  have hfold : table.values = table.foldr (fun _ value values => value :: values) [] := rfl
  rw [hfold, Std.TreeMap.foldr_eq_foldr_toList, List.foldr_cons_eq_append, List.append_nil,
    List.mem_map]
  constructor
  · rintro ⟨⟨key, _⟩, hmem, rfl⟩
    exact ⟨key, Std.TreeMap.mem_toList_iff_getElem?_eq_some.mp hmem⟩
  · rintro ⟨key, hkey⟩
    exact ⟨(key, value), Std.TreeMap.mem_toList_iff_getElem?_eq_some.mpr hkey, rfl⟩

end CriticalSection.Table
