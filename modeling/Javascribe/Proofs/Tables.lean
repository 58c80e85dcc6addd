/-
# Tables

What a table holds after inserting under a key and after erasing one, by the
values found and by the keys.

Key theorems: `Table.find?_insert`, `Table.find?_erase`,
`Table.nodup_keys_insert`, `Table.entries_erase_perm`.
-/
import Javascribe.Table
import Mathlib.Data.List.Nodup

namespace Javascribe
namespace Table

theorem mem_insertEntry {κ α : Type} [BEq κ] {key : κ} {value : α} {entry : κ × α}
    {entries : List (κ × α)} (h : entry ∈ insertEntry key value entries) :
    entry = (key, value) ∨ entry ∈ entries := by
  induction entries with
  | nil => exact .inl (List.mem_singleton.mp h)
  | cons first entries ih =>
    rw [insertEntry] at h
    split at h
    · exact (List.mem_cons.mp h).imp_right (List.mem_cons_of_mem _)
    · obtain rfl | mem := List.mem_cons.mp h
      · exact .inr List.mem_cons_self
      · exact (ih mem).imp_right (List.mem_cons_of_mem _)

variable {κ α : Type} [BEq κ] [LawfulBEq κ] {table : Table κ α} {key : κ}

theorem mem_of_find? {value : α} (h : table.find? key = some value) :
    (key, value) ∈ table.entries := by
  obtain ⟨before, after, equal, _⟩ := List.lookup_eq_some_iff.mp h
  exact equal ▸ List.mem_append_right before List.mem_cons_self

theorem find?_eq_none_iff : table.find? key = none ↔ key ∉ table.keys := by
  rw [find?, List.lookup_eq_none_iff, keys, List.mem_map]
  grind

/-! ### Inserting -/

theorem lookup_insertEntry (key other : κ) (value : α) (entries : List (κ × α)) :
    (insertEntry key value entries).lookup other =
      if key == other then some value else entries.lookup other := by
  induction entries with
  | nil =>
    rw [insertEntry, List.lookup_cons, Bool.beq_comm]
    cases key == other <;> rfl
  | cons entry entries ih =>
    obtain ⟨name, old⟩ := entry
    rw [insertEntry]
    by_cases hName : name == key
    · rw [if_pos hName, beq_iff_eq.mp hName, List.lookup_cons, List.lookup_cons,
        Bool.beq_comm]
      cases key == other <;> rfl
    · rw [if_neg hName, List.lookup_cons, List.lookup_cons, ih]
      cases h : other == name
      · rfl
      · have hKey : ¬(key == other) = true := by rwa [beq_iff_eq.mp h, Bool.beq_comm]
        simp only [if_neg hKey]

theorem find?_insert [DecidableEq κ] (table : Table κ α) (key : κ) (value : α) (other : κ) :
    (table.insert key value).find? other =
      if other = key then some value else table.find? other := by
  rw [find?, insert, lookup_insertEntry, find?]
  by_cases h : other = key
  · rw [if_pos h, if_pos (beq_iff_eq.mpr h.symm)]
  · rw [if_neg h, if_neg (fun same => h (beq_iff_eq.mp same).symm)]

theorem entries_insert_of_find?_eq_none (value : α) (h : table.find? key = none) :
    (table.insert key value).entries = table.entries ++ [(key, value)] := by
  rw [find?_eq_none_iff] at h
  obtain ⟨entries⟩ := table
  simp only [keys, insert] at h ⊢
  induction entries with
  | nil => rfl
  | cons entry entries ih =>
    rw [List.map_cons, List.mem_cons, not_or] at h
    rw [insertEntry, if_neg (fun same => h.1 (beq_iff_eq.mp same).symm), ih h.2, List.cons_append]

theorem keys_insert_of_find?_eq_none (value : α) (h : table.find? key = none) :
    (table.insert key value).keys = table.keys ++ [key] := by
  rw [keys, entries_insert_of_find?_eq_none value h, List.map_append]
  rfl

/-- A key that is there keeps its place. -/
theorem keys_insert_of_mem (value : α) (h : key ∈ table.keys) :
    (table.insert key value).keys = table.keys := by
  obtain ⟨entries⟩ := table
  simp only [keys, insert] at h ⊢
  induction entries with
  | nil => cases h
  | cons entry entries ih =>
    rw [insertEntry]
    split
    · next same => rw [List.map_cons, List.map_cons, beq_iff_eq.mp same]
    · next other =>
      rw [List.map_cons, List.mem_cons] at h
      rw [List.map_cons, List.map_cons,
        ih (h.resolve_left fun same => other (beq_iff_eq.mpr same.symm))]

theorem length_keys_insert_le (table : Table κ α) (key : κ) (value : α) :
    (table.insert key value).keys.length ≤ table.keys.length + 1 := by
  cases found : table.find? key with
  | none => exact Nat.le_of_eq (by rw [keys_insert_of_find?_eq_none value found, List.length_append]; rfl)
  | some _ =>
    rw [keys_insert_of_mem value (List.mem_map_of_mem (mem_of_find? found))]
    exact Nat.le_succ _

/-- A key that is not there comes in once. -/
theorem nodup_keys_insert (value : α) (h : table.find? key = none) (nodup : table.keys.Nodup) :
    (table.insert key value).keys.Nodup ∧
      (table.insert key value).keys.length = table.keys.length + 1 := by
  rw [keys_insert_of_find?_eq_none value h, List.nodup_append_comm, List.singleton_append,
    List.nodup_cons, List.length_append, List.length_singleton]
  exact ⟨⟨find?_eq_none_iff.mp h, nodup⟩, rfl⟩

/-! ### Erasing -/

theorem find?_erase [DecidableEq κ] (table : Table κ α) (key other : κ) :
    (table.erase key).find? other = if other = key then none else table.find? other := by
  obtain ⟨entries⟩ := table
  simp only [find?, erase]
  induction entries with
  | nil => simp
  | cons entry entries ih =>
    obtain ⟨name, value⟩ := entry
    by_cases hName : name = key
    · subst hName
      rw [List.filter_cons_of_neg (by simp), ih]
      by_cases h : other = name
      · simp [h]
      · rw [if_neg h, if_neg h, List.lookup_cons, beq_false_of_ne h]
    · rw [List.filter_cons_of_pos (by simp [hName]), List.lookup_cons, List.lookup_cons, ih]
      by_cases h : other = key
      · subst h
        simp [beq_false_of_ne (Ne.symm hName)]
      · simp [h]

theorem find?_of_mem {value : α} (nodup : table.keys.Nodup) (mem : (key, value) ∈ table.entries) :
    table.find? key = some value := by
  obtain ⟨entries⟩ := table
  simp only [keys, find?] at nodup mem ⊢
  induction entries with
  | nil => cases mem
  | cons entry entries ih =>
    rw [List.map_cons, List.nodup_cons] at nodup
    rw [List.lookup_cons]
    rcases List.mem_cons.mp mem with rfl | mem
    · rw [beq_self_eq_true]
    · have other : key ≠ entry.1 := fun same => nodup.1 (same ▸ List.mem_map_of_mem mem)
      rw [beq_false_of_ne other]
      exact ih nodup.2 mem

theorem entries_erase_perm {value : α} (nodup : table.keys.Nodup)
    (mem : (key, value) ∈ table.entries) :
    ((key, value) :: (table.erase key).entries).Perm table.entries := by
  obtain ⟨before, after, split⟩ := List.append_of_mem mem
  have others : ∀ entry ∈ before ++ after, (!(entry.1 == key)) = true := by
    rw [keys, split, List.map_append, List.map_cons, List.nodup_middle, List.nodup_cons] at nodup
    intro entry there
    rw [← List.map_append] at nodup
    have other : entry.1 ≠ key := by
      rintro rfl
      exact nodup.1 (List.mem_map.mpr ⟨entry, there, rfl⟩)
    rw [beq_false_of_ne other]
    rfl
  rw [List.forall_mem_append] at others
  simp only [erase]
  rw [split, List.filter_append, List.filter_eq_self.mpr others.1,
    List.filter_cons_of_neg (by simp), List.filter_eq_self.mpr others.2]
  exact List.perm_middle.symm

theorem length_keys_erase_lt {value : α} (found : table.find? key = some value) :
    (table.erase key).keys.length < table.keys.length := by
  rw [keys, keys, List.length_map, List.length_map, erase, List.length_filter_lt_length_iff_exists]
  exact ⟨_, mem_of_find? found, by simp⟩

theorem keys_erase_perm {value : α} (nodup : table.keys.Nodup)
    (found : table.find? key = some value) : (key :: (table.erase key).keys).Perm table.keys :=
  (entries_erase_perm nodup (mem_of_find? found)).map Prod.fst

end Table
end Javascribe
