import Mathlib.Data.List.Nodup
import Mathlib.Data.List.Perm.Basic

/-!
# Insertion-ordered maps

The maps of the source keep their keys in the order of first insertion: a write
to a key that is present changes its value in place, a write to an absent key
appends it, and iteration follows that order.  The structure carries the fact
that no key occurs twice, which is what makes iteration and lookup agree
(`mem_entries`).
-/

namespace MinesApp

open List

structure OrderedMap (Key Value : Type) where
  entries : List (Key × Value)
  nodup : (entries.map Prod.fst).Nodup
deriving DecidableEq, Repr

namespace OrderedMap

variable {Key Value : Type} [DecidableEq Key]

def empty : OrderedMap Key Value := ⟨[], nodup_nil⟩

def keys (table : OrderedMap Key Value) : List Key := table.entries.map Prod.fst

/-! ## 1. Lookup -/

def lookup (key : Key) : List (Key × Value) → Option Value
  | [] => none
  | (other, value) :: rest => if other = key then some value else lookup key rest

def get? (table : OrderedMap Key Value) (key : Key) : Option Value := lookup key table.entries

variable {key : Key} {entries pairs : List (Key × Value)} {value : Value}
  {table : OrderedMap Key Value}

@[simp] theorem get?_empty (key : Key) : (empty : OrderedMap Key Value).get? key = none := rfl

theorem lookup_eq_none : lookup key entries = none ↔ key ∉ entries.map Prod.fst := by
  induction entries with
  | nil => simp [lookup]
  | cons entry rest ih =>
    by_cases hkey : entry.1 = key
    · simp [lookup, hkey]
    · simp [lookup, hkey, ih, Ne.symm hkey]

theorem mem_of_lookup (h : lookup key entries = some value) : (key, value) ∈ entries := by
  induction entries with
  | nil => cases h
  | cons entry rest ih =>
    obtain ⟨other, held⟩ := entry
    by_cases hkey : other = key
    · simp only [lookup, if_pos hkey, Option.some.injEq] at h
      rw [hkey, h]
      exact mem_cons_self
    · simp only [lookup, if_neg hkey] at h
      exact mem_cons_of_mem _ (ih h)

theorem lookup_of_mem (hnodup : (entries.map Prod.fst).Nodup) (hmem : (key, value) ∈ entries) :
    lookup key entries = some value := by
  induction entries with
  | nil => cases hmem
  | cons entry rest ih =>
    obtain ⟨hfresh, hrest⟩ := nodup_cons.mp hnodup
    rcases mem_cons.mp hmem with rfl | htail
    · simp [lookup]
    · have hkey : entry.1 ≠ key := by
        rintro rfl
        exact hfresh (mem_map.mpr ⟨_, htail, rfl⟩)
      simp only [lookup, if_neg hkey]
      exact ih hrest htail

theorem lookup_append (key : Key) (first second : List (Key × Value)) :
    lookup key (first ++ second) = (lookup key first).or (lookup key second) := by
  induction first with
  | nil => rfl
  | cons entry rest ih =>
    by_cases hkey : entry.1 = key
    · simp [lookup, hkey]
    · simp [lookup, hkey, ih]

theorem mem_entries : (key, value) ∈ table.entries ↔ table.get? key = some value :=
  ⟨lookup_of_mem table.nodup, mem_of_lookup⟩

/-! ## 2. Writing a key -/

def place (key : Key) (value : Value) : List (Key × Value) → List (Key × Value)
  | [] => [(key, value)]
  | (other, held) :: rest =>
    if other = key then (other, value) :: rest else (other, held) :: place key value rest

theorem mem_keys_place {other : Key} :
    other ∈ (place key value entries).map Prod.fst ↔
      other = key ∨ other ∈ entries.map Prod.fst := by
  induction entries with
  | nil => simp [place]
  | cons entry rest ih =>
    by_cases hkey : entry.1 = key
    · simp only [place, if_pos hkey, map_cons, mem_cons]
      rw [hkey]
      exact ⟨.inr, fun h => h.elim .inl id⟩
    · simp only [place, if_neg hkey, map_cons, mem_cons, ih]
      exact or_left_comm

theorem nodup_place (h : (entries.map Prod.fst).Nodup) :
    ((place key value entries).map Prod.fst).Nodup := by
  induction entries with
  | nil => simp [place]
  | cons entry rest ih =>
    obtain ⟨hfresh, hrest⟩ := nodup_cons.mp h
    by_cases hkey : entry.1 = key
    · simpa [place, hkey] using h
    · simp only [place, if_neg hkey, map_cons, nodup_cons]
      refine ⟨?_, ih hrest⟩
      rw [mem_keys_place]
      exact fun hmem => hmem.elim hkey hfresh

def set (table : OrderedMap Key Value) (key : Key) (value : Value) : OrderedMap Key Value :=
  ⟨place key value table.entries, nodup_place table.nodup⟩

theorem lookup_place (key other : Key) (value : Value) (entries : List (Key × Value)) :
    lookup other (place key value entries) =
      if other = key then some value else lookup other entries := by
  induction entries with
  | nil => simp [place, lookup, eq_comm]
  | cons entry rest ih =>
    by_cases hkey : entry.1 = key
    · by_cases hother : other = key
      · simp [place, lookup, hkey, hother]
      · simp [place, lookup, hkey, hother, Ne.symm hother]
    · by_cases hhead : entry.1 = other
      · have hother : other ≠ key := hhead ▸ hkey
        simp [place, lookup, hhead, hother]
      · simp [place, lookup, hkey, hhead, ih]

section

variable (table : OrderedMap Key Value)

theorem get?_set (key other : Key) (value : Value) :
    (table.set key value).get? other = if other = key then some value else table.get? other :=
  lookup_place key other value table.entries

@[simp] theorem get?_set_self (key : Key) (value : Value) :
    (table.set key value).get? key = some value := by
  rw [get?_set, if_pos rfl]

theorem get?_set_ne {other : Key} (h : other ≠ key)
    (value : Value) : (table.set key value).get? other = table.get? other := by
  rw [get?_set, if_neg h]

end

/-! ## 3. Deleting a key -/

def discard (key : Key) : List (Key × Value) → List (Key × Value)
  | [] => []
  | (other, held) :: rest =>
    if other = key then rest else (other, held) :: discard key rest

theorem discard_sublist (key : Key) (entries : List (Key × Value)) :
    (discard key entries).Sublist entries := by
  induction entries with
  | nil => exact List.Sublist.slnil
  | cons entry rest ih =>
    by_cases hkey : entry.1 = key
    · simp only [discard, if_pos hkey]
      exact sublist_cons_self entry rest
    · simp only [discard, if_neg hkey]
      exact ih.cons_cons entry

def erase (table : OrderedMap Key Value) (key : Key) : OrderedMap Key Value :=
  ⟨discard key table.entries, table.nodup.sublist ((discard_sublist key _).map Prod.fst)⟩

theorem discard_of_lookup_none (h : lookup key entries = none) : discard key entries = entries := by
  induction entries with
  | nil => rfl
  | cons entry rest ih =>
    by_cases hkey : entry.1 = key
    · simp [lookup, hkey] at h
    · simp only [lookup, if_neg hkey] at h
      simp only [discard, if_neg hkey, ih h]

theorem perm_discard (h : lookup key entries = some value) :
    entries.Perm ((key, value) :: discard key entries) := by
  induction entries with
  | nil => cases h
  | cons entry rest ih =>
    obtain ⟨other, held⟩ := entry
    by_cases hkey : other = key
    · simp only [lookup, if_pos hkey, Option.some.injEq] at h
      simp [discard, hkey, h]
    · simp only [lookup, if_neg hkey] at h
      simp only [discard, if_neg hkey]
      exact ((ih h).cons _).trans (List.Perm.swap _ _ _)

theorem discard_place (key : Key) (value : Value) (entries : List (Key × Value)) :
    discard key (place key value entries) = discard key entries := by
  induction entries with
  | nil => simp [place, discard]
  | cons entry rest ih =>
    by_cases hkey : entry.1 = key
    · simp [place, discard, hkey]
    · simp [place, discard, hkey, ih]

theorem keys_erase_head {rest : List Key}
    (h : table.keys = key :: rest) : (table.erase key).keys = rest := by
  obtain ⟨entries, hnodup⟩ := table
  cases entries with
  | nil => cases h
  | cons entry tail =>
    simp only [keys, map_cons, cons.injEq] at h
    simp [keys, erase, discard, h.1, h.2]

theorem keys_erase_subset (table : OrderedMap Key Value) (key : Key) :
    (table.erase key).keys ⊆ table.keys :=
  ((discard_sublist key table.entries).map Prod.fst).subset

theorem lookup_discard (hnodup : (entries.map Prod.fst).Nodup) (key other : Key) :
    lookup other (discard key entries) = if other = key then none else lookup other entries := by
  induction entries with
  | nil => simp [discard, lookup]
  | cons entry rest ih =>
    obtain ⟨hfresh, hrest⟩ := nodup_cons.mp hnodup
    by_cases hkey : entry.1 = key
    · simp only [discard, if_pos hkey, lookup]
      by_cases hother : other = key
      · rw [if_pos hother]
        exact lookup_eq_none.mpr (hother ▸ hkey ▸ hfresh)
      · rw [if_neg hother, hkey, if_neg (Ne.symm hother)]
    · simp only [discard, if_neg hkey, lookup, ih hrest]
      by_cases hhead : entry.1 = other
      · have hother : other ≠ key := hhead ▸ hkey
        simp only [if_pos hhead, if_neg hother]
      · simp only [if_neg hhead]

theorem get?_erase (table : OrderedMap Key Value) (key other : Key) :
    (table.erase key).get? other = if other = key then none else table.get? other :=
  lookup_discard table.nodup key other

theorem erase_eq_self : table.erase key = table ↔ table.get? key = none := by
  constructor
  · intro h
    rw [← h, get?_erase, if_pos rfl]
  · intro h
    simp only [erase]
    congr 1
    exact discard_of_lookup_none h

theorem keys_set (h : table.get? key ≠ none)
    (value : Value) : (table.set key value).keys = table.keys := by
  obtain ⟨entries, hnodup⟩ := table
  simp only [get?, set, keys] at h ⊢
  clear hnodup
  induction entries with
  | nil => exact absurd rfl h
  | cons entry rest ih =>
    by_cases hkey : entry.1 = key
    · simp [place, hkey]
    · simp only [lookup, if_neg hkey] at h
      simp only [place, if_neg hkey, map_cons, ih h]

/-! ## 4. Building a map -/

/-- `new Map(pairs)`. -/
def ofPairs (pairs : List (Key × Value)) : OrderedMap Key Value :=
  pairs.foldl (fun table pair => table.set pair.1 pair.2) empty

theorem get?_foldl_set (hnodup : (pairs.map Prod.fst).Nodup)
    (table : OrderedMap Key Value) (key : Key) :
    (pairs.foldl (fun table pair => table.set pair.1 pair.2) table).get? key =
      (lookup key pairs).or (table.get? key) := by
  induction pairs generalizing table with
  | nil => rfl
  | cons pair rest ih =>
    obtain ⟨hfresh, hrest⟩ := nodup_cons.mp hnodup
    rw [foldl_cons, ih hrest, get?_set]
    by_cases hkey : key = pair.1
    · have hnone : lookup key rest = none := lookup_eq_none.mpr (hkey ▸ hfresh)
      rw [if_pos hkey, hnone]
      simp [lookup, hkey]
    · rw [if_neg hkey]
      simp [lookup, Ne.symm hkey]

theorem mem_of_get?_foldl_set
    (h : (pairs.foldl (fun table pair => table.set pair.1 pair.2) table).get? key = some value) :
    (key, value) ∈ pairs ∨ table.get? key = some value := by
  induction pairs generalizing table with
  | nil => exact .inr h
  | cons pair rest ih =>
    rcases ih h with hrest | hset
    · exact .inl (mem_cons_of_mem _ hrest)
    · rw [get?_set] at hset
      by_cases hkey : key = pair.1
      · rw [if_pos hkey, Option.some.injEq] at hset
        rw [hkey, ← hset]
        exact .inl mem_cons_self
      · rw [if_neg hkey] at hset
        exact .inr hset

theorem mem_of_get?_ofPairs (h : (ofPairs pairs).get? key = some value) : (key, value) ∈ pairs := by
  rcases mem_of_get?_foldl_set h with hmem | hempty
  · exact hmem
  · cases hempty

theorem place_of_not_mem (h : key ∉ entries.map Prod.fst) (value : Value) :
    place key value entries = entries ++ [(key, value)] := by
  induction entries with
  | nil => rfl
  | cons entry rest ih =>
    obtain ⟨hhead, hrest⟩ := not_or.mp (mt mem_cons.mpr h)
    simp only [place, if_neg (Ne.symm hhead), ih hrest, cons_append]

/-- Distinct keys stand in the map in the order in which they were given. -/
theorem entries_foldl_set (hnodup : ((table.entries ++ pairs).map Prod.fst).Nodup) :
    (pairs.foldl (fun table pair => table.set pair.1 pair.2) table).entries =
      table.entries ++ pairs := by
  induction pairs generalizing table with
  | nil => exact (append_nil _).symm
  | cons pair rest ih =>
    have hfresh : pair.1 ∉ table.entries.map Prod.fst := by
      rw [map_append, map_cons] at hnodup
      exact fun hmem => (nodup_append.mp hnodup).2.2 _ hmem _ mem_cons_self rfl
    have hset : (table.set pair.1 pair.2).entries = table.entries ++ [pair] :=
      place_of_not_mem hfresh pair.2
    rw [foldl_cons, ih, hset, append_assoc, singleton_append]
    rwa [hset, append_assoc, singleton_append]

theorem entries_ofPairs (hnodup : (pairs.map Prod.fst).Nodup) : (ofPairs pairs).entries = pairs :=
  entries_foldl_set hnodup

theorem get?_ofPairs (hnodup : (pairs.map Prod.fst).Nodup)
    (key : Key) : (ofPairs pairs).get? key = lookup key pairs := by
  rw [get?, entries_ofPairs hnodup]

theorem lookup_map (keys : List Key) (valueOf : Key → Value) (key : Key) :
    lookup key (keys.map fun each => (each, valueOf each)) =
      if key ∈ keys then some (valueOf key) else none := by
  induction keys with
  | nil => rfl
  | cons head rest ih =>
    by_cases hkey : head = key
    · simp [lookup, hkey]
    · simp [lookup, hkey, ih, Ne.symm hkey]

/-- Change every value, with its key in hand, leaving the keys in place. -/
def mapEntries {Other : Type} (change : Key → Value → Other) (table : OrderedMap Key Value) :
    OrderedMap Key Other :=
  ⟨table.entries.map fun entry => (entry.1, change entry.1 entry.2), by
    rw [map_map]
    exact table.nodup⟩

theorem lookup_mapEntries {Other : Type} (change : Key → Value → Other) (key : Key)
    (entries : List (Key × Value)) :
    lookup key (entries.map fun entry => (entry.1, change entry.1 entry.2)) =
      (lookup key entries).map (change key) := by
  induction entries with
  | nil => rfl
  | cons entry rest ih =>
    by_cases hkey : entry.1 = key
    · simp [lookup, hkey]
    · simp [lookup, hkey, ih]

theorem get?_mapEntries {Other : Type} (change : Key → Value → Other)
    (table : OrderedMap Key Value) (key : Key) :
    (table.mapEntries change).get? key = (table.get? key).map (change key) :=
  lookup_mapEntries change key table.entries

theorem lookup_filter (keep : Key → Bool) (key : Key) (entries : List (Key × Value)) :
    lookup key (entries.filter fun entry => keep entry.1) =
      if keep key then lookup key entries else none := by
  induction entries with
  | nil => simp [lookup]
  | cons entry rest ih =>
    by_cases hkey : entry.1 = key
    · cases hkeep : keep key with
      | true => simp [lookup, hkey, hkeep]
      | false => simp [hkey, hkeep, ih]
    · cases hkeep : keep entry.1 with
      | true | false => simp [lookup, hkey, hkeep, ih]

theorem mem_keys : key ∈ table.keys ↔ table.get? key ≠ none := by
  rw [keys, get?, ne_eq, lookup_eq_none, not_not]

section

variable {Other : Type}

/-- The entries that `choose` keeps, with what it makes of them. -/
def collect (choose : Key → Value → Option Other) (table : OrderedMap Key Value) :
    List (Key × Other) :=
  table.entries.filterMap fun entry => (choose entry.1 entry.2).map fun other => (entry.1, other)

theorem mem_collect {choose : Key → Value → Option Other} {other : Other} :
    (key, other) ∈ table.collect choose ↔ (table.get? key).bind (choose key) = some other := by
  rw [collect, mem_filterMap, Option.bind_eq_some_iff]
  constructor
  · rintro ⟨⟨held, value⟩, hentry, hchosen⟩
    obtain ⟨made, hmade, heq⟩ := Option.map_eq_some_iff.mp hchosen
    obtain ⟨rfl, rfl⟩ := Prod.mk.inj heq
    exact ⟨value, mem_entries.mp hentry, hmade⟩
  · rintro ⟨value, hget, hmade⟩
    exact ⟨(key, value), mem_entries.mpr hget, by rw [hmade]; rfl⟩

omit [DecidableEq Key] in
theorem nodup_collect (choose : Key → Value → Option Other) (table : OrderedMap Key Value) :
    ((table.collect choose).map Prod.fst).Nodup := by
  have hdistinct : table.entries.Pairwise fun first second => first.1 ≠ second.1 :=
    pairwise_map.mp table.nodup
  refine pairwise_map.mpr (List.Pairwise.filterMap _ (fun first second hne => ?_) hdistinct)
  intro one hone two htwo
  obtain ⟨_, _, rfl⟩ := Option.map_eq_some_iff.mp hone
  obtain ⟨_, _, rfl⟩ := Option.map_eq_some_iff.mp htwo
  exact hne

theorem lookup_collect (choose : Key → Value → Option Other) (table : OrderedMap Key Value)
    (key : Key) : lookup key (table.collect choose) = (table.get? key).bind (choose key) := by
  cases hfound : lookup key (table.collect choose) with
  | some other => exact (mem_collect.mp (mem_of_lookup hfound)).symm
  | none =>
    cases hmade : (table.get? key).bind (choose key) with
    | none => rfl
    | some other =>
      rw [lookup_of_mem (nodup_collect choose table) (mem_collect.mpr hmade)] at hfound
      cases hfound

end

section

variable {Item : Type} (keyOf : Item → Key)

/-- Append an item to the list under its key, creating the list at the first one. -/
def push (table : OrderedMap Key (List Item)) (item : Item) : OrderedMap Key (List Item) :=
  match table.get? (keyOf item) with
  | some list => table.set (keyOf item) (list ++ [item])
  | none => table.set (keyOf item) [item]

def groupBy (items : List Item) : OrderedMap Key (List Item) := items.foldl (push keyOf) empty

theorem get?_push (table : OrderedMap Key (List Item)) (item : Item) (key : Key) :
    (push keyOf table item).get? key =
      if keyOf item = key then some ((table.get? key).getD [] ++ [item]) else table.get? key := by
  by_cases hkey : keyOf item = key
  · subst hkey
    unfold push
    cases hget : table.get? (keyOf item) <;> simp
  · have hne : key ≠ keyOf item := Ne.symm hkey
    unfold push
    cases table.get? (keyOf item) <;> simp [hkey, get?_set_ne _ hne]

theorem get?_foldl_push (items : List Item) (table : OrderedMap Key (List Item)) (key : Key) :
    (items.foldl (push keyOf) table).get? key =
      if items.filter (fun item => keyOf item = key) = [] then table.get? key
      else some ((table.get? key).getD [] ++ items.filter fun item => keyOf item = key) := by
  induction items generalizing table with
  | nil => rfl
  | cons item rest ih =>
    rw [foldl_cons, ih, get?_push]
    by_cases hkey : keyOf item = key
    · by_cases hrest : rest.filter (fun item => keyOf item = key) = []
      · simp [hkey, hrest]
      · simp [hkey]
    · simp [hkey]

/-- A key groups the items it belongs to, in their order, and is absent when there
    are none. -/
theorem get?_groupBy (items : List Item) (key : Key) :
    (groupBy keyOf items).get? key =
      if items.filter (fun item => keyOf item = key) = [] then none
      else some (items.filter fun item => keyOf item = key) :=
  get?_foldl_push keyOf items empty key

end

/-! ## 5. What a map of lists holds

Each value stands for a list of items; a write to one key leaves the items of the
other keys where they are. -/

section

variable {Item : Type} (items : Value → List Item)

def contents (table : OrderedMap Key Value) : List Item :=
  table.entries.flatMap fun entry => items entry.2

/-- The items under one key, none when it is absent. -/
def itemsAt (table : OrderedMap Key Value) (key : Key) : List Item :=
  (table.get? key).elim [] items

theorem contents_erase_of_get?_none (h : table.get? key = none) :
    (table.erase key).contents items = table.contents items := by
  simp only [contents, erase, discard_of_lookup_none h]

theorem contents_perm (table : OrderedMap Key Value) (key : Key) :
    (table.contents items).Perm (table.itemsAt items key ++ (table.erase key).contents items) := by
  unfold itemsAt
  cases hget : table.get? key with
  | none =>
    rw [contents_erase_of_get?_none items hget]
    exact List.Perm.refl _
  | some value => exact (perm_discard hget).flatMap_right _

theorem contents_set_perm (table : OrderedMap Key Value) (key : Key) (value : Value) :
    ((table.set key value).contents items).Perm
      (items value ++ (table.erase key).contents items) := by
  have hperm := contents_perm items (table.set key value) key
  have hrest : (table.set key value).erase key = table.erase key := by
    simp only [erase, set, discard_place]
  rw [itemsAt, get?_set_self, hrest] at hperm
  exact hperm

end

end OrderedMap

end MinesApp
