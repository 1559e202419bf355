import Mathlib.Data.List.Nodup

/-!
# Tables with a unique key

A table is a list of rows no two of which share a key, which is what a unique index
guarantees.  The operations are those of the statements a service sends: a lookup by key, a
selection, an insert that the index may refuse, a write of a whole row over the one with its
key (with or without adding a new one), and a deletion.  Each has one lemma that says which
rows are there afterwards.
-/

namespace MinesApp.UniqueTable

open List

/-- Rows with pairwise distinct keys, in the order in which they are read. -/
structure Table {Row Key : Type} (key : Row → Key) where
  rows : List Row
  unique : (rows.map key).Nodup

namespace Table

variable {Row Key : Type} {key : Row → Key}

instance : Membership Row (Table key) := ⟨fun table row => row ∈ table.rows⟩

variable {table : Table key} {row other : Row} {wanted : Key}

theorem mem_def : row ∈ table ↔ row ∈ table.rows := Iff.rfl

def empty : Table key := ⟨[], nodup_nil⟩

@[simp] theorem not_mem_empty (row : Row) : row ∉ (empty : Table key) := not_mem_nil

/-- Two rows with one key are one row. -/
theorem eq_of_key_eq (hrow : row ∈ table)
    (hother : other ∈ table) (hkey : key row = key other) : row = other :=
  inj_on_of_nodup_map table.unique hrow hother hkey

theorem nodup (table : Table key) : table.rows.Nodup := table.unique.of_map key

def filter (table : Table key) (keep : Row → Bool) : Table key :=
  ⟨table.rows.filter keep, table.unique.sublist (filter_sublist.map key)⟩

@[simp] theorem mem_filter {keep : Row → Bool} :
    row ∈ table.filter keep ↔ row ∈ table ∧ keep row = true := List.mem_filter

variable [DecidableEq Key]

def find (table : Table key) (wanted : Key) : Option Row :=
  table.rows.find? fun row => key row = wanted

theorem find_eq_some_iff : table.find wanted = some row ↔ row ∈ table ∧ key row = wanted := by
  constructor
  · intro hfind
    exact ⟨mem_of_find?_eq_some hfind, by simpa using find?_some hfind⟩
  · rintro ⟨hrow, rfl⟩
    cases hfind : table.find (key row) with
    | none =>
      have habsent := find?_eq_none.mp hfind row hrow
      simp at habsent
    | some other =>
      have hkey : key other = key row := by simpa using find?_some hfind
      rw [eq_of_key_eq (mem_of_find?_eq_some hfind) hrow hkey]

theorem find_eq_none_iff : table.find wanted = none ↔ ∀ row ∈ table, key row ≠ wanted := by
  simp [find, find?_eq_none, mem_def]

/-- Add a row, unless the index already has its key. -/
def insert (table : Table key) (row : Row) : Option (Table key) :=
  if hkey : key row ∈ table.rows.map key then none
  else some ⟨table.rows ++ [row], by
    rw [map_append]
    exact table.unique.append (nodup_singleton _) (disjoint_singleton.mpr hkey)⟩

theorem insert_eq_some {after : Table key} (h : table.insert row = some after) :
    table.find (key row) = none ∧ ∀ other, other ∈ after ↔ other ∈ table ∨ other = row := by
  unfold insert at h
  split at h
  · cases h
  next hkey =>
    cases h
    refine ⟨find_eq_none_iff.mpr fun other hother hsame => hkey ?_, fun other => ?_⟩
    · exact hsame ▸ mem_map_of_mem hother
    · simp only [mem_def, mem_append, mem_singleton]

theorem insert_of_find_eq_none (h : table.find (key row) = none) :
    ∃ after, table.insert row = some after := by
  have hkey : key row ∉ table.rows.map key := by
    rintro hmem
    obtain ⟨other, hother, hsame⟩ := mem_map.mp hmem
    exact find_eq_none_iff.mp h other hother hsame
  exact ⟨_, dif_neg hkey⟩

/-- Write a row over the one with its key; nothing is added when there is none. -/
def write (table : Table key) (row : Row) : Table key :=
  ⟨table.rows.map fun other => if key other = key row then row else other, by
    have hkeys : (table.rows.map fun other => if key other = key row then row else other).map key
        = table.rows.map key := by
      rw [map_map]
      refine map_congr_left fun other _ => ?_
      by_cases hkey : key other = key row
      all_goals simp [hkey]
    rw [hkeys]
    exact table.unique⟩

theorem mem_write :
    other ∈ table.write row ↔ (other ∈ table ∧ key other ≠ key row) ∨
        (other = row ∧ ∃ old ∈ table, key old = key row) := by
  simp only [mem_def, write, mem_map]
  constructor
  · rintro ⟨old, hold, hwritten⟩
    by_cases hkey : key old = key row
    · rw [if_pos hkey] at hwritten
      exact .inr ⟨hwritten.symm, old, hold, hkey⟩
    · rw [if_neg hkey] at hwritten
      exact .inl (hwritten ▸ ⟨hold, hkey⟩)
  · rintro (⟨hother, hkey⟩ | ⟨rfl, old, hold, hkey⟩)
    · exact ⟨other, hother, if_neg hkey⟩
    · exact ⟨old, hold, if_pos hkey⟩

/-- Write a row over the one with its key, or add it. -/
def put (table : Table key) (row : Row) : Table key :=
  ⟨table.rows.filter (fun other => key other ≠ key row) ++ [row], by
    rw [map_append]
    refine (table.unique.sublist (filter_sublist.map key)).append (nodup_singleton _) ?_
    simp only [map_cons, map_nil, disjoint_singleton, mem_map]
    rintro ⟨other, hother, hkey⟩
    exact absurd hkey (by simpa using (mem_filter.mp hother).2)⟩

theorem mem_put : other ∈ table.put row ↔ (other ∈ table ∧ key other ≠ key row) ∨ other = row := by
  simp [mem_def, put]

def remove (table : Table key) (wanted : Key) : Table key :=
  table.filter fun row => key row ≠ wanted

theorem mem_remove : row ∈ table.remove wanted ↔ row ∈ table ∧ key row ≠ wanted := by
  simp [remove]

/-- Tables with the same rows of a key find the same. -/
theorem find_congr {other : Table key} (h : ∀ row, key row = wanted → (row ∈ table ↔ row ∈ other)) :
    table.find wanted = other.find wanted := by
  ext row
  rw [find_eq_some_iff, find_eq_some_iff]
  constructor
  · rintro ⟨hrow, hkey⟩
    exact ⟨(h row hkey).mp hrow, hkey⟩
  · rintro ⟨hrow, hkey⟩
    exact ⟨(h row hkey).mpr hrow, hkey⟩

theorem find_write_of_ne (hne : key row ≠ wanted) :
    (table.write row).find wanted = table.find wanted := by
  apply find_congr
  intro other hkey
  rw [mem_write]
  constructor
  · rintro (⟨hother, -⟩ | ⟨rfl, -⟩)
    · exact hother
    · exact absurd hkey hne
  · intro hother
    exact .inl ⟨hother, fun hsame => hne (hsame.symm.trans hkey)⟩

theorem find_put_of_ne (hne : key row ≠ wanted) :
    (table.put row).find wanted = table.find wanted := by
  apply find_congr
  intro other hkey
  rw [mem_put]
  constructor
  · rintro (⟨hother, -⟩ | rfl)
    · exact hother
    · exact absurd hkey hne
  · intro hother
    exact .inl ⟨hother, fun hsame => hne (hsame.symm.trans hkey)⟩

theorem find_remove_of_ne {removed : Key} (hne : removed ≠ wanted) :
    (table.remove removed).find wanted = table.find wanted := by
  apply find_congr
  intro other hkey
  rw [mem_remove]
  constructor
  · exact fun hother => hother.1
  · exact fun hother => ⟨hother, fun hsame => hne (hsame.symm.trans hkey)⟩

end Table

end MinesApp.UniqueTable
