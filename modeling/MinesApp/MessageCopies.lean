import MinesApp.HistoryBundle

/-!
# The two copies of one message

An exchange between two devices is a matter of single messages: a message that is carried
is merged into the copy in memory, or written over the copy that is only stored, and what
a device sends of it is clipped to the window.  This module follows the two copies of one
message through the two legs of an exchange: what they are afterwards, when the key covers
the same of both, and that a further exchange changes nothing.
-/

namespace MinesApp.MessageCopies

open JsString HistoryStateKey HistoryBundle BiasedMerge

variable {toLowerCase : Utf16 → Utf16} {tombstone : Utf16} {since : Nat}

/-! ## 1. What the key covers of two copies -/

def Row.covered (row : Row toLowerCase) : Covered := row.body.toMutationState.covered

open Row

def rowState (since : Nat) (row : Row toLowerCase) : Option Covered :=
  if row.within since then some (covered row) else none

/-- The key covers the same of two copies of a message, each of which may be missing. -/
def Agree (since : Nat) (first second : Option (Row toLowerCase)) : Prop :=
  first.bind (rowState since) = second.bind (rowState since)

variable {first second row : Row toLowerCase} {now : Nat} {ids : List Utf16} {id : MessageId}

theorem Row.covered_eq (h : first.view = second.view) : covered first = covered second :=
  covered_of_view h

instance Agree.decidable (since : Nat) (first second : Option (Row toLowerCase)) :
    Decidable (Agree since first second) :=
  inferInstanceAs (Decidable (_ = _))

theorem rowState_of_within (h : row.within since = true) :
    rowState since row = some (covered row) :=
  if_pos h

theorem rowState_of_not_within (h : row.within since = false) : rowState since row = none :=
  if_neg (Bool.eq_false_iff.mp h)

/-- A row is on one side of the window only. -/
theorem absurd_within {goal : Prop} (hin : row.within since = true)
    (hout : row.within since = false) : goal :=
  nomatch hin.symm.trans hout

theorem agree_iff :
    Agree since (some first) (some second) ↔ first.within since = second.within since ∧
        (first.within since = true → covered first = covered second) := by
  simp only [Agree, Option.bind_some, rowState]
  cases first.within since <;> cases second.within since <;> simp

/-- What a copy becomes when an exchange carries the other one, which it does only within
    the window. -/
def carried (tombstone : Utf16) (now since : Nat) (own theirs : Row toLowerCase) :
    Row toLowerCase :=
  if theirs.within since then receive tombstone now (some own) theirs.body else own

theorem deliver_carried (hsent : id.1 ∈ ids) (own theirs : Row toLowerCase) :
    deliver tombstone now (some own) ((some theirs).bind (offer ids since id)) =
      some (carried tombstone now since own theirs) := by
  by_cases hwithin : isWithinHistoryRange theirs.body.timestamp since = true
  all_goals simp [offer, hsent, carried, within, hwithin, deliver]

theorem deliver_unsent (hunsent : id.1 ∉ ids) (own theirs : Option (Row toLowerCase)) :
    deliver tombstone now own (theirs.bind (offer ids since id)) = own := by
  cases theirs with
  | none => rfl
  | some row => simp [offer, hunsent, deliver]

section

variable {now : Nat} {own theirs : Row toLowerCase}

theorem carried_of_not_within (h : theirs.within since = false) :
    carried tombstone now since own theirs = own :=
  if_neg (Bool.eq_false_iff.mp h)

theorem carried_of_within (h : theirs.within since = true) :
    carried tombstone now since own theirs = receive tombstone now (some own) theirs.body :=
  if_pos h

theorem loaded_carried (h : theirs.within since = true) :
    (carried tombstone now since own theirs).loaded = true := by
  rw [carried_of_within h]
  exact loaded_receive _ _

/-- A copy in memory is merged and keeps its date. -/
theorem within_carried_loaded (hloaded : own.loaded = true) :
    (carried tombstone now since own theirs).within since = own.within since := by
  unfold carried
  split
  · rw [receive_loaded hloaded]
    rfl
  · rfl

theorem view_carried_loaded (hwithin : theirs.within since = true) (hloaded : own.loaded = true) :
    (carried tombstone now since own theirs).view = mergeView own.view theirs.view := by
  rw [carried_of_within hwithin, receive_loaded hloaded]
  exact view_mergeRow own theirs.body

theorem unloaded_some (h : own.loaded = false) : Unloaded (some own) := by
  intro row hrow
  cases hrow
  exact h

theorem within_carried_unloaded (hnow : since ≤ now) (hwithin : theirs.within since = true)
    (hloaded : own.loaded = false) :
    (carried tombstone now since own theirs).within since = true := by
  rw [carried_of_within hwithin]
  exact within_receive_unloaded (unloaded_some hloaded) hnow hwithin

theorem view_carried_unloaded (hwithin : theirs.within since = true)
    (hloaded : own.loaded = false) :
    (carried tombstone now since own theirs).view = theirs.view := by
  rw [carried_of_within hwithin]
  exact view_receive_unloaded (unloaded_some hloaded) _

end

/-! ## 2. Copies that further exchanges leave alone -/

/-- Nothing the key covers has changed. -/
structure SameState (since : Nat) (before after : Row toLowerCase) : Prop where
  within : after.within since = before.within since
  view : before.within since = true → after.view = before.view

variable {after first second own theirs : Row toLowerCase}

theorem SameState.refl (row : Row toLowerCase) : SameState since row row := ⟨rfl, fun _ => rfl⟩

theorem SameState.rowState_eq {before : Row toLowerCase} (h : SameState since before after) :
    rowState since after = rowState since before := by
  cases hwithin : before.within since with
  | true =>
    rw [rowState_of_within hwithin, rowState_of_within (h.within.trans hwithin),
      covered_eq (h.view hwithin)]
  | false =>
    rw [rowState_of_not_within hwithin, rowState_of_not_within (h.within.trans hwithin)]

/-- Two copies that have nothing more to tell each other: within the window each has
    absorbed the other, and a copy that stayed outside it did so because it is in memory. -/
structure Steady (since : Nat) (first second : Row toLowerCase) : Prop where
  both : first.within since = true → second.within since = true →
    (mergeView first.view second.view = first.view ∧
      mergeView second.view first.view = second.view) ∧
    ((first.loaded = true ∧ second.loaded = true) ∨ first.view = second.view)
  firstOnly : first.within since = true → second.within since = false → second.loaded = true
  secondOnly : first.within since = false → second.within since = true → first.loaded = true

theorem Steady.symm (h : Steady since first second) : Steady since second first where
  both hsecond hfirst := by
    obtain ⟨⟨habsorbed, habsorbs⟩, hcopies⟩ := h.both hfirst hsecond
    exact ⟨⟨habsorbs, habsorbed⟩, hcopies.imp And.symm Eq.symm⟩
  firstOnly hsecond hfirst := h.secondOnly hfirst hsecond
  secondOnly hsecond hfirst := h.firstOnly hfirst hsecond

theorem Steady.of_same (h : Steady since own theirs) (hsame : SameState since own after)
    (hloaded : after.loaded = true) : Steady since after theirs where
  both hafter htheirs := by
    have hown := hsame.within.symm.trans hafter
    obtain ⟨habsorbed, hcopies⟩ := h.both hown htheirs
    rw [hsame.view hown]
    exact ⟨habsorbed, hcopies.imp (fun hboth => ⟨hloaded, hboth.2⟩) (fun hview => hview)⟩
  firstOnly hafter htheirs := h.firstOnly (hsame.within.symm.trans hafter) htheirs
  secondOnly _ _ := hloaded

theorem steady_of_views (hfirst : first.within since = true) (hsecond : second.within since = true)
    (hview : first.view = second.view) : Steady since first second where
  both _ _ := by
    rw [hview, mergeView_biased.idem]
    exact ⟨⟨rfl, rfl⟩, .inr rfl⟩
  firstOnly _ hout := absurd_within hsecond hout
  secondOnly hout := absurd_within hfirst hout

/-- Carrying a steady copy once more changes nothing the key covers. -/
theorem Steady.carried (h : Steady since own theirs) (hnow : since ≤ now) :
    SameState since own (carried tombstone now since own theirs) ∧
      Steady since (carried tombstone now since own theirs) theirs := by
  cases htheirs : theirs.within since with
  | false =>
    rw [carried_of_not_within htheirs]
    exact ⟨.refl own, h⟩
  | true =>
    have hsame : SameState since own (MessageCopies.carried tombstone now since own theirs) := by
      cases hloaded : own.loaded with
      | true =>
        refine ⟨within_carried_loaded hloaded, fun hown => ?_⟩
        rw [view_carried_loaded htheirs hloaded]
        exact (h.both hown htheirs).1.1
      | false =>
        -- a steady copy that is not in memory is in the window and equal to the other
        have hown : own.within since = true := by
          by_contra hout
          rw [h.secondOnly (Bool.eq_false_iff.mpr hout) htheirs] at hloaded
          cases hloaded
        have hview : own.view = theirs.view := by
          rcases (h.both hown htheirs).2 with hboth | hview
          · rw [hboth.1] at hloaded
            cases hloaded
          · exact hview
        refine ⟨(within_carried_unloaded hnow htheirs hloaded).trans hown.symm, fun _ => ?_⟩
        rw [view_carried_unloaded htheirs hloaded, hview]
    exact ⟨hsame, h.of_same hsame (loaded_carried htheirs)⟩

/-! ## 3. Carrying a message for the first time -/

/-- The condition under which carrying two copies makes them agree.  Two copies in memory
    are merged, so they must be on the same side of the window and compatible within it.  A
    copy that is not in memory is overwritten by the other, unless the other is outside the
    window. -/
def Settles (since : Nat) (first second : Row toLowerCase) : Prop :=
  match first.loaded, second.loaded with
  | true, true =>
    first.within since = second.within since ∧ (first.within since = true →
        Compatible first.body.toMutationState second.body.toMutationState)
  | true, false => second.within since = true → first.within since = true
  | false, true => first.within since = true → second.within since = true
  | false, false => True

section

variable {first second : Row toLowerCase}

theorem settles_both (hfirst : first.loaded = true) (hsecond : second.loaded = true) :
    Settles since first second ↔ first.within since = second.within since ∧
        (first.within since = true →
          Compatible first.body.toMutationState second.body.toMutationState) := by
  unfold Settles
  rw [hfirst, hsecond]

theorem Settles.symm (h : Settles since first second) : Settles since second first := by
  revert h
  unfold Settles
  cases first.loaded <;> cases second.loaded
  · exact fun _ => trivial
  · exact fun h => h
  · exact fun h => h
  · exact fun ⟨hside, hcommute⟩ =>
      ⟨hside.symm, fun hwithin => (hcommute (hside.trans hwithin)).symm⟩

/-- Copies on the same side of the window settle unless both are in memory. -/
theorem settles_of_unloaded (h : first.loaded = false ∨ second.loaded = false)
    (hside : first.within since = second.within since) : Settles since first second := by
  revert h
  unfold Settles
  cases first.loaded <;> cases second.loaded
  · exact fun _ => trivial
  · exact fun _ hwithin => hside ▸ hwithin
  · exact fun _ hwithin => hside ▸ hwithin
  · rintro (h | h) <;> cases h

/-- A copy in memory outside the window never settles with one inside it. -/
theorem not_settles_of_side (hloaded : first.loaded = true) (hfirst : first.within since = false)
    (hsecond : second.within since = true) : ¬ Settles since first second := by
  unfold Settles
  rw [hloaded]
  cases second.loaded with
  | true => exact fun h => absurd_within (h.1.trans hsecond) hfirst
  | false => exact fun h => absurd_within (h hsecond) hfirst

/-- Outside the window a copy that is not in memory settles with anything. -/
theorem settles_of_replaced (hloaded : first.loaded = false)
    (hsecond : second.within since = true) : Settles since first second := by
  unfold Settles
  rw [hloaded]
  cases second.loaded with
  | true => exact fun _ => hsecond
  | false => trivial

end

/-- What the two copies are after both legs, and whether they settle. -/
inductive Outcome (since : Nat) (asker answerer repaired returned : Row toLowerCase) : Prop
  | copied (hrepaired : repaired.within since = true) (hreturned : returned.within since = true)
      (hview : repaired.view = returned.view) (hsettles : Settles since asker answerer)
  | merged (hasker : asker.loaded = true ∧ asker.within since = true)
      (hanswerer : answerer.loaded = true ∧ answerer.within since = true)
      (hrepaired : repaired.within since = true) (hreturned : returned.within since = true)
      (hloaded : repaired.loaded = true ∧ returned.loaded = true)
      (hviewRepaired : repaired.view = mergeView asker.view answerer.view)
      (hviewReturned : returned.view = mergeView answerer.view asker.view)
  | askerOnly (hrepaired : repaired.within since = true) (hreturned : returned.within since = false)
      (hloaded : returned.loaded = true) (hsettles : ¬ Settles since asker answerer)
  | answererOnly (hrepaired : repaired.within since = false)
      (hreturned : returned.within since = true) (hloaded : repaired.loaded = true)
      (hsettles : ¬ Settles since asker answerer)
  | outside (hrepaired : repaired.within since = false) (hreturned : returned.within since = false)
      (hsettles : Settles since asker answerer)

section FirstTime

variable {askerNow answererNow : Nat} (asker answerer : Row toLowerCase)

section

variable (answererOpened : since ≤ answererNow)
include answererOpened

/-- The answerer's copy is outside the window, so only the second leg carries anything. -/
theorem outcome_of_outside (hanswerer : answerer.within since = false) :
    Outcome since asker answerer asker (carried tombstone answererNow since answerer asker) := by
  cases hasker : asker.within since with
  | false =>
    rw [carried_of_not_within hasker]
    refine .outside hasker hanswerer ?_
    by_cases hmemory : asker.loaded = true ∧ answerer.loaded = true
    · exact (settles_both hmemory.1 hmemory.2).mpr
        ⟨hasker.trans hanswerer.symm, fun hin => absurd_within hin hasker⟩
    · rw [not_and_or, Bool.not_eq_true, Bool.not_eq_true] at hmemory
      exact settles_of_unloaded hmemory (hasker.trans hanswerer.symm)
  | true =>
    cases hloaded : answerer.loaded with
    | false =>
      exact .copied hasker (within_carried_unloaded answererOpened hasker hloaded)
        (view_carried_unloaded hasker hloaded).symm (settles_of_replaced hloaded hasker).symm
    | true =>
      exact .askerOnly hasker ((within_carried_loaded hloaded).trans hanswerer)
        (loaded_carried hasker)
        fun hsettles => not_settles_of_side hloaded hanswerer hasker hsettles.symm

variable {repaired : Row toLowerCase}

theorem outcome_of_merged (hasker : asker.loaded = true) (hanswerer : answerer.within since = true)
    (hwithin : repaired.within since = asker.within since) (hloaded : repaired.loaded = true)
    (hview : repaired.view = mergeView asker.view answerer.view) :
    Outcome since asker answerer repaired
      (carried tombstone answererNow since answerer repaired) := by
  cases hside : asker.within since with
  | false =>
    rw [carried_of_not_within (hwithin.trans hside)]
    exact .answererOnly (hwithin.trans hside) hanswerer hloaded
      (not_settles_of_side hasker hside hanswerer)
  | true =>
    have hrepaired := hwithin.trans hside
    cases hmemory : answerer.loaded with
    | false =>
      exact .copied hrepaired (within_carried_unloaded answererOpened hrepaired hmemory)
        (view_carried_unloaded hrepaired hmemory).symm
        (settles_of_unloaded (.inr hmemory) (hside.trans hanswerer.symm))
    | true =>
      -- the answerer sees its own copy again inside what it receives
      have hreturned : (carried tombstone answererNow since answerer repaired).view =
          mergeView answerer.view asker.view := by
        rw [view_carried_loaded hrepaired hmemory, hview, mergeView_biased.bias]
      exact .merged ⟨hasker, hside⟩ ⟨hmemory, hanswerer⟩ hrepaired
        ((within_carried_loaded hmemory).trans hanswerer)
        ⟨hloaded, loaded_carried hrepaired⟩ hview hreturned

theorem outcome_of_replaced
    (hasker : asker.loaded = false) (hanswerer : answerer.within since = true)
    (hrepaired : repaired.within since = true) (hview : repaired.view = answerer.view) :
    Outcome since asker answerer repaired
      (carried tombstone answererNow since answerer repaired) := by
  have hsteady : Steady since answerer repaired := steady_of_views hanswerer hrepaired hview.symm
  have hsame : SameState since answerer (carried tombstone answererNow since answerer repaired) :=
    (hsteady.carried answererOpened).1
  exact .copied hrepaired (hsame.within.trans hanswerer)
    (hview.trans (hsame.view hanswerer).symm) (settles_of_replaced hasker hanswerer)

end

/-- **Carrying a message both ways.** -/
theorem carried_outcome (tombstone : Utf16) (askerOpened : since ≤ askerNow)
    (answererOpened : since ≤ answererNow) :
    Outcome since asker answerer (carried tombstone askerNow since asker answerer)
      (carried tombstone answererNow since answerer
        (carried tombstone askerNow since asker answerer)) := by
  cases hanswerer : answerer.within since with
  | false =>
    have hkept : carried tombstone askerNow since asker answerer = asker :=
      carried_of_not_within hanswerer
    rw [hkept]
    exact outcome_of_outside asker answerer answererOpened hanswerer
  | true =>
    cases hasker : asker.loaded with
    | true =>
      exact outcome_of_merged asker answerer answererOpened hasker hanswerer
        (within_carried_loaded hasker) (loaded_carried hanswerer)
        (view_carried_loaded hanswerer hasker)
    | false =>
      exact outcome_of_replaced asker answerer answererOpened hasker hanswerer
        (within_carried_unloaded askerOpened hanswerer hasker)
        (view_carried_unloaded hanswerer hasker)

end FirstTime

section

variable {asker answerer repaired returned : Row toLowerCase}

section

variable (h : Outcome since asker answerer repaired returned)
include h

theorem Outcome.steady : Steady since repaired returned := by
  cases h with
  | copied hrepaired hreturned hview _ => exact steady_of_views hrepaired hreturned hview
  | merged _ _ hrepaired hreturned hloaded hviewRepaired hviewReturned =>
    refine ⟨fun _ _ => ⟨?_, .inl hloaded⟩, fun _ => absurd_within hreturned,
      absurd_within hrepaired⟩
    rw [hviewRepaired, hviewReturned]
    exact ⟨mergeView_biased.settled _ _, mergeView_biased.settled _ _⟩
  | askerOnly hrepaired hreturned hloaded _ =>
    exact ⟨fun _ hin => absurd_within hin hreturned, fun _ _ => hloaded, absurd_within hrepaired⟩
  | answererOnly hrepaired hreturned hloaded _ =>
    exact ⟨fun hin => absurd_within hin hrepaired, fun hin => absurd_within hin hrepaired,
      fun _ _ => hloaded⟩
  | outside hrepaired hreturned _ =>
    exact ⟨fun hin => absurd_within hin hrepaired, fun hin => absurd_within hin hrepaired,
      fun _ hin => absurd_within hin hreturned⟩

theorem Outcome.agree_iff :
    Agree since (some repaired) (some returned) ↔ Settles since asker answerer := by
  rw [MessageCopies.agree_iff]
  cases h with
  | copied hrepaired hreturned hview hsettles =>
    exact iff_of_true ⟨hrepaired.trans hreturned.symm, fun _ => covered_eq hview⟩ hsettles
  | merged hasker hanswerer hrepaired hreturned _ hviewRepaired hviewReturned =>
    rw [settles_both hasker.1 hanswerer.1, ← covered_merge_iff]
    have hleft : covered repaired =
        (asker.body.toMutationState.merge answerer.body.toMutationState).covered :=
      covered_of_view (hviewRepaired.trans (MutationState.view_merge _ _).symm)
    have hright : covered returned =
        (answerer.body.toMutationState.merge asker.body.toMutationState).covered :=
      covered_of_view (hviewReturned.trans (MutationState.view_merge _ _).symm)
    rw [hleft, hright, hrepaired, hreturned, hasker.2, hanswerer.2]
  | askerOnly hrepaired hreturned _ hsettles | answererOnly hrepaired hreturned _ hsettles =>
    refine iff_of_false (fun hagree => ?_) hsettles
    rw [hrepaired, hreturned] at hagree
    cases hagree.1
  | outside hrepaired hreturned hsettles =>
    exact iff_of_true ⟨hrepaired.trans hreturned.symm, fun hin => absurd_within hin hrepaired⟩
      hsettles

end

end

end MinesApp.MessageCopies
