import MinesApp.MessageMutations

/-!
# A deleted message

Deleting a message replaces its body with a text that says so, and every path that applies an
edit drops it when the message is deleted.  It looks for the message in memory: the store is
asked only for who wrote it.  So a deletion is final as long as what comes for a deleted message
finds it in memory, and an edit from the archive, or a peer's older copy, of a message that is
only stored undoes it.
-/

namespace MinesApp.MessageMutations

open JsString HistoryStateKey HistoryBundle Option MessageRow ReplayEvent Track
open TransitionSystem

section Deletion

variable (client : Client)

/-! ## 1. The tombstone -/

/-- The row is there, marked deleted, and its body is the text that says so. -/
def Tombstoned (row : Option MessageRow) : Prop :=
  ∃ held, row = some held ∧ held.isDeleted = true ∧ held.content = client.deletedText

/-- What comes for the message finds it deleted in memory, and a replay can read the store.
    A deletion needs no such care, and neither does a live edit of a message that is not in
    memory, which is dropped, or a bundle in which the message is deleted too. -/
def FindsTombstone (id : MessageId) (device : Device) : Action → Prop
  | .liveDelete _ _ => True
  | .liveEdit target _ _ =>
    target = id → ∀ row, (device id).memory = some row → row.isDeleted = true
  | .liveBundle rows => ∀ received, rows.get? id = some received →
      Tombstoned client (device id).memory ∨ ((device id).memory = none ∧ received.isDeleted = true)
  | .replay readable page => readable = true ∧
      (∀ event ∈ page, ∀ sender frame, event = .edit id sender frame →
        Tombstoned client (device id).memory)
  | .load _ => True
  | .unload _ => True

variable {client} {stored : Option MessageRow} {copies : Copies} {track : Track} {id : MessageId}

theorem tombstoned_deleted (row : MessageRow) : Tombstoned client (some (row.deleted client)) :=
  ⟨_, rfl, rfl, rfl⟩

theorem Tombstoned.patched (h : Tombstoned client stored)
    {merged : MessageRow} (hbody : merged.isDeleted = true → merged.content = client.deletedText) :
    Tombstoned client (stored.map fun held => held.patched merged) := by
  obtain ⟨held, rfl, hdeleted, hcontent⟩ := h
  refine ⟨held.patched merged, rfl, ?_, ?_⟩
  · simp [patched, hdeleted]
  · by_cases hmerged : merged.isDeleted = true
    · simp only [patched, if_pos hmerged]
      exact hbody hmerged
    · simp only [patched, if_neg hmerged]
      exact hcontent

/-! ## 2. Live frames -/

section

variable (h : Tombstoned client copies.stored)
include h

protected theorem Tombstoned.liveDelete (sender : Utf16) :
    Tombstoned client (liveDelete client sender copies).stored := by
  unfold liveDelete
  split
  · exact h
  split
  · obtain ⟨held, hstored, _, _⟩ := h
    rw [hstored]
    exact tombstoned_deleted held
  · exact h

protected theorem Tombstoned.liveEdit
    (hmemory : ∀ row, copies.memory = some row → row.isDeleted = true) (sender : Utf16)
    (frame : EditFrame) : Tombstoned client (liveEdit client sender frame copies).stored := by
  unfold liveEdit
  split
  · exact h
  cases hrow : copies.memory with
  | none => exact h
  | some row => simpa only [hmemory row hrow, if_true, ite_self] using h

protected theorem Tombstoned.liveBundle {received : BundleRow}
    (hfinds : Tombstoned client copies.memory ∨
      (copies.memory = none ∧ received.isDeleted = true)) :
    Tombstoned client (liveBundle client received copies).stored := by
  rcases hfinds with ⟨row, hmemory, hdeleted, hcontent⟩ | ⟨hmemory, hreceived⟩
  · have hmergedContent : (row.merged client received).content = row.content := by
      simp [merged, hdeleted]
    simp only [liveBundle, hmemory, getD_some, isNone_some, Bool.false_eq_true, if_false]
    split
    · exact h.patched fun _ => hmergedContent.trans hcontent
    · exact h
  · have hmerged : ((received.added client).merged client received).isDeleted = true := by
      simp [merged, hreceived]
    have hmergedContent :
        ((received.added client).merged client received).content = client.deletedText := by
      simp [merged, BundleRow.added, hreceived]
    -- the row as it is added is not deleted, so the merge writes it again
    have hchanged : (received.added client).merged client received ≠ received.added client := by
      intro heq
      rw [heq] at hmerged
      cases hmerged
    simp only [liveBundle, hmemory, getD_none, isNone_none,
      if_true, if_pos (Or.inr hchanged), map_some]
    refine ⟨_, rfl, ?_, ?_⟩
    · simp only [MessageRow.patched, hmerged, Bool.or_true]
    · simp only [MessageRow.patched, if_pos hmerged]
      exact hmergedContent

end

/-! ## 3. Replays -/

theorem Track.edit_on_of_tombstoned (hmemory : Tombstoned client track.memory)
    (hedit : track.edit = none) (id : MessageId) (event : ReplayEvent) :
    Tombstoned client (event.on client id track).memory ∧
      (event.on client id track).edit = none := by
  obtain ⟨row, hrow, hdeleted, hcontent⟩ := hmemory
  cases event with simp only [on]
  | message target sender content =>
    split
    all_goals exact ⟨⟨row, hrow, hdeleted, hcontent⟩, hedit⟩
  | delete target sender =>
    split
    · simp only [delete, hrow]
      split
      · exact ⟨tombstoned_deleted row, hedit⟩
      · exact ⟨⟨row, hrow, hdeleted, hcontent⟩, hedit⟩
    · exact ⟨⟨row, hrow, hdeleted, hcontent⟩, hedit⟩
  | edit target sender frame =>
    have hkept : track.editWith client sender frame = track := by
      simp [editWith, hrow, hdeleted]
    simp only [hkept, ite_self]
    exact ⟨⟨row, hrow, hdeleted, hcontent⟩, hedit⟩
  | bundle rows =>
    split
    next received _ =>
      refine ⟨⟨{ row with editedAt := row.editedAt.or received.editedAt }, ?_, hdeleted,
        hcontent⟩, hedit⟩
      simp only [bundle, hrow, map_some]
    · exact ⟨⟨row, hrow, hdeleted, hcontent⟩, hedit⟩

theorem Track.edit_on_of_ne (hedit : track.edit = none)
    {event : ReplayEvent} (hevent : ∀ sender frame, event ≠ .edit id sender frame) :
    (event.on client id track).edit = none := by
  cases event with
  | message target sender content | bundle rows =>
    simp only [on]
    split <;> exact hedit
  | delete target sender =>
    simp only [on, delete]
    split
    · split
      · split <;> exact hedit
      · exact hedit
    · exact hedit
  | edit target sender frame =>
    have htarget : target ≠ id := fun heq => hevent sender frame (by rw [heq])
    simpa only [on, if_neg htarget] using hedit

/-- No edit of a message that the replay finds deleted in memory reaches the store. -/
theorem Track.edit_foldl {page : List ReplayEvent} (hedit : track.edit = none)
    (hpage : ∀ event ∈ page, ∀ sender frame, event = .edit id sender frame →
      Tombstoned client track.memory) :
    (page.foldl (on client id) track).edit = none := by
  by_cases hmemory : Tombstoned client track.memory
  · clear hpage
    induction page generalizing track with
    | nil => exact hedit
    | cons event rest ih =>
      obtain ⟨hnext, hnextEdit⟩ := edit_on_of_tombstoned hmemory hedit id event
      exact ih hnextEdit hnext
  · have hevents : ∀ event ∈ page, ∀ sender frame, event ≠ .edit id sender frame :=
      fun event hmem sender frame heq => hmemory (hpage event hmem sender frame heq)
    clear hpage hmemory
    induction page generalizing track with
    | nil => exact hedit
    | cons event rest ih =>
      refine ih (edit_on_of_ne hedit (hevents event List.mem_cons_self)) ?_
      exact fun other hother => hevents other (List.mem_cons_of_mem _ hother)

/-- The batch write keeps the mutations of the rows it can read. -/
protected theorem Tombstoned.saveMessages (h : Tombstoned client stored)
    (pending : List MessageRow) : Tombstoned client (saveMessages client true stored pending) := by
  obtain ⟨held, rfl, hdeleted, hcontent⟩ := h
  have hrow : ∀ row, Tombstoned client (some (toStore client (some held) row)) := by
    intro row
    refine ⟨_, rfl, ?_, ?_⟩
    all_goals simp [toStore, hdeleted]
  have hfold : ∀ saved, Tombstoned client saved → Tombstoned client
      (pending.foldl (fun _ row => some (toStore client (some held) row)) saved) := by
    induction pending with
    | nil => exact fun _ hsaved => hsaved
    | cons row rest ih => exact fun _ _ => ih _ (hrow row)
  exact hfold _ ⟨held, rfl, hdeleted, hcontent⟩

protected theorem Tombstoned.mutateStored (h : Tombstoned client stored) (deletion : Option Utf16) :
    Tombstoned client (stored.map (mutateStored client deletion none)) := by
  obtain ⟨held, rfl, hdeleted, hcontent⟩ := h
  simp only [map_some, mutateStored]
  split
  · exact tombstoned_deleted held
  · exact ⟨held, rfl, hdeleted, hcontent⟩

/-! ## 4. Steps and runs -/

theorem Tombstoned.step {device next : Device} {action : Action}
    (h : Tombstoned client (device id).stored) (hfinds : FindsTombstone client id device action)
    (hstep : step client device action = some next) : Tombstoned client (next id).stored := by
  rw [step_at client hstep id]
  cases action with simp only [Action.on]
  | liveDelete target sender =>
    split
    · exact h.liveDelete sender
    · exact h
  | liveEdit target sender frame =>
    split
    next htarget => exact h.liveEdit (hfinds htarget) sender frame
    · exact h
  | liveBundle rows =>
    split
    next received hreceived => exact h.liveBundle (hfinds received hreceived)
    · exact h
  | replay readable page =>
    obtain ⟨rfl, hpage⟩ := hfinds
    have hedit : (page.foldl (on client id) (start (device id))).edit = none :=
      edit_foldl rfl hpage
    simp only [finish, hedit]
    exact (h.saveMessages _).mutateStored _
  | load ids | unload ids =>
    split <;> exact h

end Deletion

/-! ## 5. A deleted message that is only stored -/

end MinesApp.MessageMutations
