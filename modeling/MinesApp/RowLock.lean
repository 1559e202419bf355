import Mathlib.Data.List.Basic
import Mathlib.Logic.Function.Basic

/-!
# Row locks

A row can be locked by any number of sharers or by one exclusive holder.  The
structure carries the exclusion, so a lock table cannot hold both; what a client
proves is only that a transaction at a given stage is among the holders.
-/

namespace MinesApp

structure RowLock where
  shared : List Nat
  exclusive : Option Nat
  compatible : exclusive ≠ none → shared = []

namespace RowLock

def free : RowLock := ⟨[], none, fun h => absurd rfl h⟩

section

variable (lock : RowLock) (holder : Nat)

/-- `SELECT .. FOR SHARE`: `none` while the caller has to wait. -/
def share : Option RowLock :=
  if lock.exclusive = none then some ⟨holder :: lock.shared, none, fun h => absurd rfl h⟩ else none

/-- The lock an `UPDATE` of the row takes: `none` while the caller has to wait. -/
def exclude : Option RowLock :=
  if lock.exclusive = none ∧ lock.shared = [] then some ⟨[], some holder, fun _ => rfl⟩ else none

def release : RowLock where
  shared := lock.shared.filter (· ≠ holder)
  exclusive := lock.exclusive.filter (· ≠ holder)
  compatible := by
    intro h
    have hheld : lock.exclusive ≠ none := fun hnone => h (by simp [hnone])
    simp [lock.compatible hheld]

end

variable {lock next : RowLock} {holder : Nat}

theorem not_mem_shared (h : lock.exclusive = some holder) (other : Nat) : other ∉ lock.shared := by
  simp [lock.compatible (by simp [h])]

theorem share_eq_some (h : lock.share holder = some next) :
    lock.exclusive = none ∧ next.shared = holder :: lock.shared ∧ next.exclusive = none := by
  obtain ⟨hfree, rfl⟩ := Option.ite_some_none_eq_some.mp h
  exact ⟨hfree, rfl, rfl⟩

theorem exclude_eq_some (h : lock.exclude holder = some next) :
    lock.exclusive = none ∧ lock.shared = [] ∧ next.exclusive = some holder := by
  obtain ⟨hfree, rfl⟩ := Option.ite_some_none_eq_some.mp h
  exact ⟨hfree.1, hfree.2, rfl⟩

/-- A change of the lock by `id` that takes nothing from the other holders. -/
structure Kept (lock next : RowLock) (id : Nat) : Prop where
  shared : ∀ other, other ≠ id → other ∈ lock.shared → other ∈ next.shared
  exclusive : ∀ other, other ≠ id → lock.exclusive = some other → next.exclusive = some other

theorem Kept.refl (lock : RowLock) (id : Nat) : Kept lock lock id :=
  ⟨fun _ _ h => h, fun _ _ h => h⟩

theorem kept_share (h : lock.share holder = some next) : Kept lock next holder := by
  obtain ⟨hfree, hshared, _⟩ := share_eq_some h
  refine ⟨fun other _ hother => ?_, fun other _ hother => ?_⟩
  · rw [hshared]
    exact List.mem_cons_of_mem _ hother
  · cases hfree.symm.trans hother

theorem kept_exclude (h : lock.exclude holder = some next) : Kept lock next holder := by
  obtain ⟨hfree, hshared, _⟩ := exclude_eq_some h
  refine ⟨fun other _ hother => ?_, fun other _ hother => ?_⟩
  · simp [hshared] at hother
  · cases hfree.symm.trans hother

theorem kept_release (lock : RowLock) (holder : Nat) : Kept lock (lock.release holder) holder := by
  refine ⟨fun other hne hother => ?_, fun other hne hother => ?_⟩
  all_goals simp [release, hne, hother]

/-- Changing one row's lock, in a table of locks. -/
theorem kept_update {locks : String → RowLock} {row : String} {id : Nat}
    (h : Kept (locks row) lock id) (other : String) :
    Kept (locks other) (Function.update locks row lock other) id := by
  by_cases hsame : other = row
  · subst hsame
    simpa using h
  · simpa [hsame] using Kept.refl (locks other) id

end RowLock

end MinesApp
