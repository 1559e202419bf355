import Mathlib.Order.Defs.LinearOrder

/-!
# Write-if-newer registers

A register holds at most one value together with its version, and an offer
replaces what is held only when its version is strictly greater.  `Latest` is
what a register owes to everything that was offered to it, in whatever order the
offers arrived: what it holds came from somewhere, and nothing offered is newer.
`Latest.offer` is the only rule a client needs to keep it along a run.
-/

namespace MinesApp.VersionedRegister

variable {Value : Type}

structure Entry (Value : Type) where
  version : Nat
  value : Value
deriving DecidableEq, Repr

/-- Write-if-newer: an equal version loses to what is already held. -/
def offer (held : Option (Entry Value)) (candidate : Entry Value) : Option (Entry Value) :=
  match held with
  | none => some candidate
  | some entry => if entry.version < candidate.version then some candidate else some entry

/-- What `held` has is not newer than what `later` has. -/
def AtMost (held later : Option (Entry Value)) : Prop :=
  ∀ entry, held = some entry → ∃ next, later = some next ∧ entry.version ≤ next.version

variable {initial held : Option (Entry Value)} {offered : Entry Value → Prop}

theorem offer_cases (held : Option (Entry Value)) (candidate : Entry Value) :
    (offer held candidate = some candidate ∧
      ∀ entry, held = some entry → entry.version < candidate.version) ∨
    (∃ entry, held = some entry ∧ candidate.version ≤ entry.version ∧
      offer held candidate = some entry) := by
  cases held with
  | none => exact .inl ⟨rfl, by simp⟩
  | some entry =>
    by_cases hlt : entry.version < candidate.version
    · refine .inl ⟨by simp [offer, hlt], ?_⟩
      intro other hother
      cases hother
      exact hlt
    · exact .inr ⟨entry, rfl, Nat.le_of_not_lt hlt, by simp [offer, hlt]⟩

theorem atMost_offer (held : Option (Entry Value)) (candidate : Entry Value) :
    AtMost held (offer held candidate) := by
  intro entry hentry
  rcases offer_cases held candidate with ⟨hnew, hlt⟩ | ⟨kept, hkept, _, hsame⟩
  · exact ⟨candidate, hnew, Nat.le_of_lt (hlt entry hentry)⟩
  · cases hkept.symm.trans hentry
    exact ⟨entry, hsame, Nat.le_refl _⟩

/-- Everything a register owes to the value it started with and to the entries
    offered since. -/
structure Latest (initial held : Option (Entry Value)) (offered : Entry Value → Prop) :
    Prop where
  source : held = initial ∨ ∃ entry, held = some entry ∧ offered entry ∧
    ∀ first, initial = some first → first.version < entry.version
  above : ∀ entry, offered entry → ∃ next, held = some next ∧ entry.version ≤ next.version

theorem Latest.start (initial : Option (Entry Value)) :
    Latest initial initial (fun _ => False) where
  source := .inl rfl
  above _ hoffered := hoffered.elim

section

variable (h : Latest initial held offered)
include h

theorem Latest.kept : AtMost initial held := by
  rcases h.source with hsame | ⟨entry, hheld, _, hnewer⟩
  · rw [hsame]
    exact fun entry hentry => ⟨entry, hentry, Nat.le_refl _⟩
  · exact fun first hfirst => ⟨entry, hheld, Nat.le_of_lt (hnewer first hfirst)⟩

theorem Latest.offer (candidate : Entry Value) :
    Latest initial (offer held candidate) (fun entry => offered entry ∨ entry = candidate) := by
  refine ⟨?_, ?_⟩
  · rcases offer_cases held candidate with ⟨hnew, hlt⟩ | ⟨kept, hkept, _, hsame⟩
    · refine .inr ⟨candidate, hnew, .inr rfl, fun first hfirst => ?_⟩
      obtain ⟨entry, hentry, hle⟩ := h.kept first hfirst
      exact Nat.lt_of_le_of_lt hle (hlt entry hentry)
    · rw [hsame, ← hkept]
      exact h.source.imp_right fun ⟨entry, hheld, hoffered, hnewer⟩ =>
        ⟨entry, hheld, .inl hoffered, hnewer⟩
  · rintro entry (hentry | rfl)
    · obtain ⟨next, hnext, hle⟩ := h.above entry hentry
      obtain ⟨last, hlast, hle'⟩ := atMost_offer held candidate next hnext
      exact ⟨last, hlast, Nat.le_trans hle hle'⟩
    · rcases offer_cases held entry with ⟨hnew, _⟩ | ⟨kept, _, hle, hsame⟩
      · exact ⟨entry, hnew, Nat.le_refl _⟩
      · exact ⟨kept, hsame, hle⟩

theorem Latest.mono {other : Entry Value → Prop}
    (hiff : ∀ entry, offered entry ↔ other entry) : Latest initial held other where
  source := h.source.imp_right fun ⟨entry, hheld, hoffered, hnewer⟩ =>
    ⟨entry, hheld, (hiff entry).mp hoffered, hnewer⟩
  above entry hentry := h.above entry ((hiff entry).mpr hentry)

end

end MinesApp.VersionedRegister
