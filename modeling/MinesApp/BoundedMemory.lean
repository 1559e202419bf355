import MinesApp.OrderedMap
import Mathlib.Data.List.Basic

/-!
# Bounded insertion-ordered memories

A map that is kept below a bound by deleting its oldest key.  Age is the order of first
insertion: writing to a key that is present does not make it younger.

What such a memory still knows is read off the log of its insertions.  A key is kept, unless
it was deleted, as long as it is among the last `bound` entries of that log
(`Tracks.get?_remember`), and the one key that an insertion can push out is the oldest
(`get?_remember_oldest`).
-/

namespace MinesApp.BoundedMemory

open List OrderedMap

variable {Key Value : Type}

/-- `while (map.size > bound) map.delete(oldest)`, on the entries. -/
def dropOldest (bound : Nat) : List (Key × Value) → List (Key × Value)
  | [] => []
  | oldest :: rest =>
    if bound < (oldest :: rest).length then dropOldest bound rest else oldest :: rest

theorem dropOldest_sublist (bound : Nat) (entries : List (Key × Value)) :
    (dropOldest bound entries).Sublist entries := by
  induction entries with
  | nil => exact List.Sublist.slnil
  | cons oldest rest ih =>
    unfold dropOldest
    split
    · exact ih.cons oldest
    · exact List.Sublist.refl _

theorem dropOldest_of_le {bound : Nat} {entries : List (Key × Value)}
    (h : entries.length ≤ bound) : dropOldest bound entries = entries := by
  cases entries with
  | nil => rfl
  | cons oldest rest =>
    exact if_neg (Nat.not_lt.mpr h)

theorem dropOldest_of_eq {bound : Nat} {oldest : Key × Value} {rest : List (Key × Value)}
    (h : rest.length = bound) : dropOldest bound (oldest :: rest) = rest := by
  unfold dropOldest
  rw [if_pos (by rw [length_cons, h]; exact Nat.lt_succ_self bound)]
  exact dropOldest_of_le (Nat.le_of_eq h)

variable [DecidableEq Key]

section

variable (bound : Nat) (memory : OrderedMap Key Value)

def evict : OrderedMap Key Value :=
  ⟨dropOldest bound memory.entries,
    memory.nodup.sublist ((dropOldest_sublist bound memory.entries).map Prod.fst)⟩

def remember (key : Key) (value : Value) : OrderedMap Key Value :=
  evict bound (memory.set key value)

end

variable {bound : Nat} {memory : OrderedMap Key Value} {log : List Key} {key other : Key}
  {value : Value}

omit [DecidableEq Key] in
theorem length_keys (memory : OrderedMap Key Value) : memory.keys.length = memory.entries.length :=
  length_map _

/-! ## 1. The two ways to remember -/

theorem remember_known (hbound : memory.keys.length ≤ bound) (hknown : memory.get? key ≠ none) :
    remember bound memory key value = memory.set key value := by
  have hlength : (memory.set key value).entries.length ≤ bound := by
    rw [← length_keys, keys_set hknown]
    exact hbound
  unfold remember evict
  congr 1
  exact dropOldest_of_le hlength

theorem entries_set_new (hnew : memory.get? key = none) (value : Value) :
    (memory.set key value).entries = memory.entries ++ [(key, value)] :=
  place_of_not_mem (lookup_eq_none.mp hnew) value

/-- A new key stands last, and a memory that was full has lost its first key. -/
theorem entries_remember_new (hbound : memory.keys.length ≤ bound)
    (hnew : memory.get? key = none) (value : Value) :
    (remember bound memory key value).entries =
      (if memory.keys.length = bound then (memory.entries ++ [(key, value)]).tail
       else memory.entries ++ [(key, value)]) := by
  have hentries := entries_set_new hnew value
  unfold remember evict
  simp only [hentries, length_keys] at hbound ⊢
  split
  next hfull =>
    cases hmemory : memory.entries with
    | nil =>
      rw [hmemory, length_nil] at hfull
      exact dropOldest_of_eq hfull
    | cons oldest rest =>
      rw [hmemory, length_cons] at hfull
      have hlength : (rest ++ [(key, value)]).length = bound := by
        rw [length_append]
        exact hfull
      exact dropOldest_of_eq hlength
  next hroom =>
    apply dropOldest_of_le
    rw [length_append]
    exact Nat.lt_of_le_of_ne hbound hroom

theorem get?_of_get?_remember {found : Value} (hother : other ≠ key)
    (h : (remember bound memory key value).get? other = some found) :
    memory.get? other = some found := by
  have hmem := (dropOldest_sublist bound _).subset (mem_entries.mpr h)
  rw [← get?_set_ne memory hother value]
  exact mem_entries.mp hmem

theorem get?_remember_self (hpositive : 0 < bound) (hbound : memory.keys.length ≤ bound) :
    (remember bound memory key value).get? key = some value := by
  by_cases hknown : memory.get? key = none
  · apply mem_entries.mp
    rw [entries_remember_new hbound hknown]
    split
    next hfull =>
      cases hmemory : memory.entries with
      | nil =>
        rw [length_keys, hmemory, length_nil] at hfull
        exact absurd hfull (Nat.ne_of_lt hpositive)
      | cons oldest rest => exact mem_append_right rest mem_cons_self
    · exact mem_append_right _ mem_cons_self
  · rw [remember_known hbound hknown]
    exact get?_set_self memory key value

/-- A new key pushes the oldest one out of a full memory, whatever stands under it. -/
theorem get?_remember_oldest {oldest : Key} {rest : List Key} (hkeys : memory.keys = oldest :: rest)
    (hfull : memory.keys.length = bound) (hnew : memory.get? key = none) :
    (remember bound memory key value).get? oldest = none := by
  have hentries := entries_remember_new (Nat.le_of_eq hfull) hnew value
  rw [if_pos hfull] at hentries
  obtain ⟨entries, hnodup⟩ := memory
  cases entries with
  | nil => cases hkeys
  | cons entry tail =>
    obtain ⟨hfresh, _⟩ := nodup_cons.mp hnodup
    have hhead : entry.1 = oldest := (cons.inj hkeys).1
    have hother : oldest ≠ key := by
      rintro rfl
      rw [OrderedMap.get?, OrderedMap.lookup, if_pos hhead] at hnew
      cases hnew
    apply lookup_eq_none.mpr
    rw [hentries]
    intro hmem
    rcases mem_append.mp (map_append ▸ hmem) with hold | hlast
    · exact hfresh (hhead ▸ hold)
    · exact hother (mem_singleton.mp hlast)

/-! ## 2. The log of insertions -/

/-- Among the last `bound` insertions of the log, which has the newest first. -/
def Recent (bound : Nat) (log : List Key) (key : Key) : Prop := key ∈ log.take bound

omit [DecidableEq Key] in
theorem recent_of_cons (hother : other ≠ key) (h : Recent bound (key :: log) other) :
    Recent bound log other := by
  cases bound with
  | zero =>
    cases h
  | succ bound =>
    have htail := (mem_cons.mp h).resolve_left hother
    exact (take_prefix_take_left (Nat.le_succ bound)).subset htail

/-- The memory is below its bound, and no key has more keys after it than there were
    insertions since its own. -/
structure Tracks (bound : Nat) (memory : OrderedMap Key Value) (log : List Key) : Prop where
  bounded : memory.keys.length ≤ bound
  aged : ∀ key ∈ memory.keys, memory.keys.reverse.idxOf key ≤ log.idxOf key

/-- Leaving keys out of a list without repetition moves none of the others back. -/
theorem idxOf_le_of_sublist {short long : List Key} (h : short.Sublist long) (hnodup : long.Nodup)
    (hkey : key ∈ short) : short.idxOf key ≤ long.idxOf key := by
  induction h with
  | slnil => cases hkey
  | cons head hrest ih =>
    obtain ⟨hfresh, hnodup⟩ := nodup_cons.mp hnodup
    have hne : head ≠ key := by
      rintro rfl
      exact hfresh (hrest.subset hkey)
    rw [idxOf_cons_ne _ hne]
    exact Nat.le_succ_of_le (ih hnodup hkey)
  | cons_cons head hrest ih =>
    obtain ⟨hfresh, hnodup⟩ := nodup_cons.mp hnodup
    by_cases hhead : head = key
    · rw [hhead, idxOf_cons_self]
      exact Nat.zero_le _
    · have hmem : key ∈ _ := (mem_cons.mp hkey).resolve_left (Ne.symm hhead)
      rw [idxOf_cons_ne _ hhead, idxOf_cons_ne _ hhead]
      exact Nat.succ_le_succ (ih hnodup hmem)

theorem Tracks.of_sublist {smaller : OrderedMap Key Value} (h : Tracks bound memory log)
    (hsub : smaller.keys.Sublist memory.keys) : Tracks bound smaller log := by
  refine ⟨Nat.le_trans hsub.length_le h.bounded, ?_⟩
  intro key hkey
  have hmoved := idxOf_le_of_sublist hsub.reverse (nodup_reverse.mpr memory.nodup)
    (mem_reverse.mpr hkey)
  exact Nat.le_trans hmoved (h.aged key (hsub.subset hkey))

section

variable (h : Tracks bound memory log)
include h

theorem Tracks.erase (key : Key) : Tracks bound (memory.erase key) log :=
  h.of_sublist ((discard_sublist key memory.entries).map Prod.fst)

theorem Tracks.remember_known (hknown : memory.get? key ≠ none) :
    Tracks bound (remember bound memory key value) log := by
  have hkeys := keys_set hknown value
  rw [BoundedMemory.remember_known h.bounded hknown]
  refine ⟨hkeys ▸ h.bounded, ?_⟩
  rw [hkeys]
  exact h.aged

theorem Tracks.remember_new (hnew : memory.get? key = none) :
    Tracks bound (remember bound memory key value) (key :: log) := by
  have hkeys : (memory.set key value).keys = memory.keys ++ [key] := by
    rw [OrderedMap.keys, entries_set_new hnew, map_append]
    rfl
  have haged : ∀ other ∈ memory.keys ++ [key],
      (memory.keys ++ [key]).reverse.idxOf other ≤ (key :: log).idxOf other := by
    intro other hother
    rw [reverse_append, reverse_singleton, singleton_append]
    by_cases hsame : key = other
    · rw [hsame, idxOf_cons_self]
      exact Nat.zero_le _
    · have hmem : other ∈ memory.keys := by
        rcases mem_append.mp hother with hold | hlast
        · exact hold
        · exact absurd (mem_singleton.mp hlast).symm hsame
      rw [idxOf_cons_ne _ hsame, idxOf_cons_ne _ hsame]
      exact Nat.succ_le_succ (h.aged other hmem)
  have hsub : (remember bound memory key value).keys.Sublist (memory.keys ++ [key]) := by
    rw [← hkeys]
    exact (dropOldest_sublist bound _).map Prod.fst
  refine ⟨?_, ?_⟩
  · rw [length_keys, entries_remember_new h.bounded hnew]
    split
    next hfull =>
      rw [length_tail, length_append, ← length_keys, hfull]
      exact Nat.le_refl _
    next hroom =>
      rw [length_append, ← length_keys]
      exact Nat.lt_of_le_of_ne h.bounded hroom
  · intro other hother
    have hnodup : (memory.keys ++ [key]).Nodup := hkeys ▸ (memory.set key value).nodup
    have hmoved := idxOf_le_of_sublist hsub.reverse (nodup_reverse.mpr hnodup)
      (mem_reverse.mpr hother)
    exact Nat.le_trans hmoved (haged other (hsub.subset hother))

/-- The oldest key of a full memory has left the window once one more key is inserted. -/
theorem Tracks.not_recent_oldest {oldest : Key} {rest : List Key}
    (hkeys : memory.keys = oldest :: rest) (hfull : memory.keys.length = bound)
    (hother : oldest ≠ key) : ¬ Recent bound (key :: log) oldest := by
  intro hrecent
  have hmem : oldest ∈ key :: log := mem_of_mem_take hrecent
  have hfresh : oldest ∉ rest := (nodup_cons.mp (hkeys ▸ memory.nodup)).1
  have hindex := (mem_take_iff_idxOf_lt hmem).mp hrecent
  rw [idxOf_cons_ne _ (Ne.symm hother)] at hindex
  have hlast : memory.keys.reverse.idxOf oldest = rest.length := by
    rw [hkeys, reverse_cons, idxOf_append_of_notMem (by rwa [mem_reverse]),
      idxOf_cons_self, length_reverse]
    rfl
  have hage := h.aged oldest (by rw [hkeys]; exact mem_cons_self)
  rw [hkeys, length_cons] at hfull
  omega

end

/-- **The window.**  Remembering a key changes nothing for another one that is among the last
    `bound` insertions. -/
theorem Tracks.get?_remember (h : Tracks bound memory log) (hnew : memory.get? key = none)
    (hother : other ≠ key) (hrecent : Recent bound (key :: log) other) :
    (remember bound memory key value).get? other = memory.get? other := by
  have hset := get?_set_ne memory hother value
  rw [get?, entries_set_new hnew] at hset
  rw [get?, entries_remember_new h.bounded hnew]
  split
  next hfull =>
    rw [← hset]
    cases hmemory : memory.entries with
    | nil =>
      rw [length_keys, hmemory, length_nil] at hfull
      rw [Recent, ← hfull, take_zero] at hrecent
      cases hrecent
    | cons oldest rest =>
      have hhead : oldest.1 ≠ other := by
        rintro rfl
        have hkeys : memory.keys = oldest.1 :: rest.map Prod.fst := by
          rw [OrderedMap.keys, hmemory, map_cons]
        exact h.not_recent_oldest hkeys hfull hother hrecent
      rw [cons_append, OrderedMap.lookup, if_neg hhead, tail_cons]
  · exact hset

end MinesApp.BoundedMemory
