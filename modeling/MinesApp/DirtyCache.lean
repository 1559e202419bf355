import Mathlib.Logic.Basic

/-!
# A value kept with a dirty flag

A costly value is built once and kept; whoever changes what it was built from
raises a flag, and the next reader builds it again.  What makes the reader right
is one predicate between the cache and the value a build would give now
(`Fresh`).  Raising the flag establishes it, whatever changed; a change that does
not raise the flag keeps it only if the value stays the same.
-/

namespace MinesApp

structure DirtyCache (Value : Type) where
  dirty : Bool
  cached : Option Value
deriving DecidableEq, Repr

namespace DirtyCache

variable {Value Failure : Type}

def newDirty : DirtyCache Value := ⟨true, none⟩

section

variable (cache : DirtyCache Value)

def invalidate : DirtyCache Value := { cache with dirty := true }

/-- A clean cache answers from what it kept; otherwise the build is run, and kept if it
    succeeds. -/
def getOrBuild (build : Except Failure Value) : DirtyCache Value × Except Failure Value :=
  match cache.dirty, cache.cached with
  | false, some kept => (cache, .ok kept)
  | _, _ =>
    match build with
    | .ok value => (⟨false, some value⟩, .ok value)
    | .error failure => (cache, .error failure)

/-- What a clean cache holds is `value`. -/
def Fresh (value : Value) : Prop :=
  cache.dirty = false → ∀ kept, cache.cached = some kept → kept = value

end

variable {cache : DirtyCache Value}

theorem fresh_of_dirty (hdirty : cache.dirty = true) (value : Value) : cache.Fresh value := by
  intro hclean
  rw [hdirty] at hclean
  cases hclean

/-- **Reading rule.**  A fresh cache gives the value a build would give, and is fresh after. -/
theorem Fresh.getOrBuild {value : Value} (h : cache.Fresh value)
    {build : Except Failure Value} (hbuild : ∀ built, build = .ok built → built = value) :
    (cache.getOrBuild build).1.Fresh value ∧
      ∀ answer, (cache.getOrBuild build).2 = .ok answer → answer = value := by
  unfold DirtyCache.getOrBuild
  split
  next kept hdirty hcached =>
    refine ⟨h, ?_⟩
    intro answer hanswer
    cases hanswer
    exact h hdirty kept hcached
  · split
    next built =>
      have hvalue := hbuild built rfl
      refine ⟨?_, ?_⟩
      · intro _ kept hkept
        cases hkept
        exact hvalue
      · intro answer hanswer
        cases hanswer
        exact hvalue
    · exact ⟨h, nofun⟩

end DirtyCache

end MinesApp
