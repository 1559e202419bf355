import MinesApp.ReplayDurability

/-!
# What a flush of the MLS state promises

`createMlsStatePersister` coalesces the checkpoints of the MLS state.  A mutation is marked by
`persistNow` or `scheduleDeferred`.  A call of `flush` resolves at once when the state is not
dirty, joins the write in flight, or starts one; the other flushes are not awaited.

Mutations are counted as they are marked.  A checkpoint holds the mutations marked by the step at
which it captures the state, some step after it starts, and a call of `flush` is known by the
number of mutations marked before it.
-/

namespace MinesApp.CheckpointFlush

open TransitionSystem ReplayDurability Option

/-! ## 1. The calls of the persister -/

/-- `checkpoint` is the number of mutations that the written checkpoints hold.  `waiting` are the
    calls that share the promise of the write in flight, `resolved` those that have resolved
    without an error. -/
structure State where
  persister : Persister
  marked : Nat
  checkpoint : Nat
  waiting : List Nat
  resolved : List Nat
deriving DecidableEq, Repr

open State

def State.start : State := ⟨createMlsStatePersister, 0, 0, [], []⟩

inductive Action where
  | persistNow
  | scheduleDeferred
  | flush
  | microtask
  | onBulkIngestStart
  | onBulkIngestEnd
  | captured
  | written
  | writeFailed
deriving DecidableEq, Repr

section

variable (state : State) (action : Action)

def step : Action → Option State
  | .persistNow =>
    some { state with persister := state.persister.persistNow, marked := state.marked + 1 }
  | .scheduleDeferred =>
    some { state with persister := state.persister.scheduleDeferred, marked := state.marked + 1 }
  | .flush =>
    if state.persister.dirtyEncrypted then
      some { state with
        persister := state.persister.flushEncryptedInternal
        waiting := state.marked :: state.waiting }
    else some { state with resolved := state.marked :: state.resolved }
  | .microtask =>
    if state.persister.immediateFlushQueued then
      some { state with persister := state.persister.flushQueued }
    else none
  | .onBulkIngestStart => some { state with persister := state.persister.onBulkIngestStart }
  | .onBulkIngestEnd => some { state with persister := state.persister.onBulkIngestEnd }
  | .captured =>
    if state.persister.inFlightEncrypted = some .starting then
      some { state with
        persister := { state.persister with inFlightEncrypted := some (.writing state.marked) } }
    else none
  | .written =>
    match state.persister.inFlightEncrypted with
    | some (.writing captured) =>
      some { state with
        persister := state.persister.flightEnds
        checkpoint := max state.checkpoint captured
        waiting := []
        resolved := state.waiting ++ state.resolved }
    | _ => none
  -- the calls that waited are rejected, and the mark is not set again
  | .writeFailed =>
    if state.persister.inFlightEncrypted = none then none
    else some { state with persister := state.persister.flightEnds, waiting := [] }

/-- A write fails only when the state has been marked again since it started, or when everything
    marked is written. -/
def FailsDirty : Prop :=
  action = .writeFailed → state.persister.dirtyEncrypted = true ∨ state.marked ≤ state.checkpoint

/-- A flush is called while no write is in flight, or joins one that has captured nothing yet. -/
def JoinsEarly : Prop :=
  action = .flush → state.persister.inFlightEncrypted = none ∨
    state.persister.dirtyEncrypted = true ∧ state.persister.inFlightEncrypted = some .starting

end

instance (state : State) (action : Action) : Decidable (FailsDirty state action) :=
  inferInstanceAs (Decidable (_ → _))

instance (state : State) (action : Action) : Decidable (JoinsEarly state action) :=
  inferInstanceAs (Decidable (_ → _))

/-! ## 2. What is owed -/

/-- Everything marked is written, or will be: `Owes` of the persister, with no failure allowed
    for. -/
def State.Owed (state : State) : Prop :=
  Owes state.marked state.checkpoint false state.persister

variable {state next : State} {action : Action}

theorem carries_onBulkIngestStart (persister : Persister) :
    Carries persister persister.onBulkIngestStart := carries_of_marks rfl id

theorem State.Owed.step (h : state.Owed) (hok : FailsDirty state action)
    (hstep : step state action = some next) : next.Owed := by
  cases action with
  | persistNow =>
    cases hstep
    apply Owes.dirty
    simp only [Persister.persistNow]
    split
    · rfl
    · rfl
  | scheduleDeferred =>
    cases hstep
    exact .dirty rfl
  | flush =>
    simp only [step] at hstep
    split at hstep
    · cases hstep
      exact (carries_flush _).owes h
    · cases hstep
      exact h
  | microtask =>
    obtain ⟨_, hnext⟩ := ite_none_right_eq_some.mp hstep
    cases hnext
    exact (carries_flushQueued _).owes h
  | onBulkIngestStart =>
    cases hstep
    exact (carries_onBulkIngestStart _).owes h
  | onBulkIngestEnd =>
    cases hstep
    exact (carries_onBulkIngestEnd _).owes h
  | captured =>
    obtain ⟨_, hnext⟩ := ite_none_right_eq_some.mp hstep
    cases hnext
    exact .writing state.marked rfl (le_refl _)
  | written =>
    simp only [step] at hstep
    split at hstep
    next captured hwriting =>
      cases hstep
      cases h with
      | dirty hdirty => exact (flightEnds_spec _).2 hdirty
      | failed hfailed => cases hfailed
      | starting hstarting => cases hwriting.symm.trans hstarting
      | writing position hposition hreaches =>
        cases hwriting.symm.trans hposition
        exact .stored (le_trans hreaches (le_max_right _ _))
      | stored hstored => exact .stored (le_trans hstored (le_max_left _ _))
    · cases hstep
  | writeFailed =>
    obtain ⟨_, hnext⟩ := ite_none_left_eq_some.mp hstep
    cases hnext
    rcases hok rfl with hdirty | hstored
    · exact (flightEnds_spec _).2 hdirty
    · exact .stored hstored

/-- Between two writes, what is owed shows. -/
theorem State.Owed.dirty_or_stored (h : state.Owed)
    (hidle : state.persister.inFlightEncrypted = none) :
    state.persister.dirtyEncrypted = true ∨ state.marked ≤ state.checkpoint := by
  cases h with
  | dirty hdirty => exact .inl hdirty
  | failed hfailed => cases hfailed
  | starting hstarting => cases hidle.symm.trans hstarting
  | writing position hwriting _ => cases hidle.symm.trans hwriting
  | stored hstored => exact .inr hstored

theorem State.Owed.start : start.Owed := .stored (le_refl 0)

/-- **A checkpoint that fails stays owed** when every failing write finds the state dirty again:
    then, whatever is marked and not written while no write is in flight, the state is dirty, and
    a flush starts the write. -/
theorem dirty_of_unwritten (actions : List Action) {final : State}
    (hok : EachStep step FailsDirty .start actions)
    (hrun : run step .start actions = some final) (hunwritten : final.checkpoint < final.marked)
    (hidle : final.persister.inFlightEncrypted = none) :
    final.persister.dirtyEncrypted = true ∧ ∃ next, step final .flush = some next ∧
      next.persister.inFlightEncrypted = some .starting := by
  have howed := run_invariant (fun h hok => State.Owed.step h hok) State.Owed.start hok hrun
  have hdirty := (howed.dirty_or_stored hidle).resolve_right (Nat.not_le_of_lt hunwritten)
  refine ⟨hdirty, _, if_pos hdirty, ?_⟩
  simp [Persister.flushEncryptedInternal, hdirty, hidle]

theorem dirty_of_unwritten_second_mark :
    let final : State := ⟨⟨true, false, none, false, 0⟩, 2, 0, [], []⟩
    final.persister.dirtyEncrypted = true ∧ ∃ next, step final .flush = some next ∧
      next.persister.inFlightEncrypted = some .starting :=
  dirty_of_unwritten [.scheduleDeferred, .flush, .captured, .scheduleDeferred, .writeFailed]
    (by decide) (by decide) (by decide) rfl

/-- One mutation, one write, and the write fails: nothing is in flight, nothing is written, and
    the state is not dirty. -/
theorem failed_write_is_forgotten :
    ∃ final, run step .start [.persistNow, .microtask, .writeFailed] = some final ∧
      final.checkpoint < final.marked ∧ final.persister.inFlightEncrypted = none ∧
      final.persister.dirtyEncrypted = false :=
  ⟨_, rfl, by decide, rfl, rfl⟩

/-! ## 3. What a flush has waited for -/

/-- The calls that wait are behind what the write in flight has captured, or will. -/
structure Inv (state : State) : Prop where
  owed : state.Owed
  called : ∀ call ∈ state.waiting, call ≤ state.marked
  captured : ∀ position, state.persister.inFlightEncrypted = some (.writing position) →
    ∀ call ∈ state.waiting, call ≤ position
  resolved : ∀ call ∈ state.resolved, call ≤ state.checkpoint

/-- No call begins or ends. -/
theorem Inv.carries (h : Inv state) {persister : Persister} {marked : Nat}
    (hcarries : Carries state.persister persister) (hmarked : state.marked ≤ marked)
    (howed : { state with persister, marked }.Owed) : Inv { state with persister, marked } where
  owed := howed
  called := fun call hcall => le_trans (h.called call hcall) hmarked
  captured := fun position hwriting => h.captured position (hcarries.flight position hwriting)
  resolved := h.resolved

theorem Inv.flush (h : Inv state) (hjoins : JoinsEarly state .flush)
    (hstep : step state .flush = some next) (howed : next.Owed) : Inv next := by
  simp only [step] at hstep
  split at hstep
  · cases hstep
    refine ⟨howed, ?_, ?_, h.resolved⟩
    · intro call hcall
      rcases List.mem_cons.mp hcall with rfl | hold
      · exact le_refl _
      · exact h.called call hold
    · intro position hwriting
      have hbefore := (carries_flush _).flight position hwriting
      rcases hjoins rfl with hnone | ⟨_, hstarting⟩
      · cases hnone.symm.trans hbefore
      · cases hstarting.symm.trans hbefore
  next hclean =>
    cases hstep
    refine ⟨howed, h.called, h.captured, ?_⟩
    intro call hcall
    rcases List.mem_cons.mp hcall with rfl | hold
    · -- resolved at once: with no write in flight, nothing is owed
      have hidle := (hjoins rfl).resolve_right fun hjoined => hclean hjoined.1
      exact (h.owed.dirty_or_stored hidle).resolve_left hclean
    · exact h.resolved call hold

protected theorem Inv.step (h : Inv state) (hok : FailsDirty state action ∧ JoinsEarly state action)
    (hstep : step state action = some next) : Inv next := by
  have howed := h.owed.step hok.1 hstep
  cases action with
  | persistNow =>
    cases hstep
    exact h.carries (carries_persistNow _) (Nat.le_succ _) howed
  | scheduleDeferred =>
    cases hstep
    exact h.carries (carries_of_marks rfl fun _ => rfl) (Nat.le_succ _) howed
  | flush => exact h.flush hok.2 hstep howed
  | microtask =>
    obtain ⟨_, hnext⟩ := ite_none_right_eq_some.mp hstep
    cases hnext
    exact h.carries (carries_flushQueued _) (le_refl _) howed
  | onBulkIngestStart =>
    cases hstep
    exact h.carries (carries_onBulkIngestStart _) (le_refl _) howed
  | onBulkIngestEnd =>
    cases hstep
    exact h.carries (carries_onBulkIngestEnd _) (le_refl _) howed
  | captured =>
    obtain ⟨_, hnext⟩ := ite_none_right_eq_some.mp hstep
    cases hnext
    refine ⟨howed, h.called, ?_, h.resolved⟩
    intro position hwriting
    cases hwriting
    exact h.called
  | written =>
    simp only [step] at hstep
    split at hstep
    next captured hwriting =>
      cases hstep
      refine ⟨howed, by simp, by simp, ?_⟩
      intro call hcall
      rcases List.mem_append.mp hcall with hwaiting | hold
      · exact le_trans (h.captured captured hwriting call hwaiting) (le_max_right _ _)
      · exact le_trans (h.resolved call hold) (le_max_left _ _)
    · cases hstep
  | writeFailed =>
    obtain ⟨_, hnext⟩ := ite_none_left_eq_some.mp hstep
    cases hnext
    exact ⟨howed, by simp, by simp, h.resolved⟩

/-- **A flush that has resolved is durable** when no call comes upon a write that has captured the
    state already, or finds the state clean while a write is in flight, and no failing write is
    forgotten. -/
theorem le_checkpoint_of_resolved (actions : List Action) {final : State}
    (hok : EachStep step (fun state action => FailsDirty state action ∧ JoinsEarly state action)
      .start actions)
    (hrun : run step .start actions = some final) : ∀ call ∈ final.resolved,
      call ≤ final.checkpoint := by
  have hstart : Inv .start := ⟨.start, by simp [start], by simp [start],
    by simp [start]⟩
  exact (run_invariant (fun h hok => Inv.step h hok) hstart hok hrun).resolved

theorem le_checkpoint_of_resolved_joined :
    let final : State := ⟨⟨false, false, some .starting, false, 0⟩, 2, 2, [], [2, 1]⟩
    final.resolved ≠ [] ∧ ∀ call ∈ final.resolved, call ≤ final.checkpoint :=
  ⟨by decide, le_checkpoint_of_resolved
    [.scheduleDeferred, .flush, .scheduleDeferred, .flush, .captured, .written] (by decide)
    (by decide)⟩

/-- The write that a mutation started is in flight and the state is clean: the flush resolves with
    nothing written. -/
theorem flush_resolves_before_the_write :
    ∃ final, run step .start [.persistNow, .microtask, .flush] = some final ∧
      ∃ call ∈ final.resolved, final.checkpoint < call :=
  ⟨_, rfl, 1, by decide, by decide⟩

end MinesApp.CheckpointFlush
