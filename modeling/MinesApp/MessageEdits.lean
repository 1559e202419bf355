import MinesApp.MessageMutations

/-!
# The edits of a message

`editSupersedes` orders the edits of a message by their date and, for equal dates, by their
text: a total order, the same on every device.  A device that finds the message in memory each
time an edit of it arrives therefore ends with the greatest of the edits, whatever their order
and whichever of them come from the archive, and two such devices end with the same row.  A row
that is only stored is not compared: a live edit of it is dropped, and the latest edit of a
replayed page replaces whatever edit it carries, which is right only if it is the later one.
-/

namespace MinesApp.MessageMutations

open JsString HistoryStateKey HistoryBundle List IncomingEdit Option ReplayEvent Track
open TransitionSystem BiasedMerge

/-! ## 1. The order of edits -/

def IncomingEdit.stamp (edit : IncomingEdit) : Nat ×ₗ Utf16 :=
  toLex (edit.editedAt.1, edit.content)

theorem IncomingEdit.stamp_injective {first second : IncomingEdit}
    (h : first.stamp = second.stamp) : first = second := by
  obtain ⟨htime, hcontent⟩ := Prod.mk.inj (toLex.injective h)
  obtain ⟨secondAt, secondBody⟩ := second
  cases Subtype.ext htime
  cases hcontent
  rfl

theorem editSupersedes_iff {next held : IncomingEdit} :
    editSupersedes next (some held.editedAt) held.content = true ↔ held.stamp < next.stamp := by
  rw [stamp, stamp, Prod.Lex.toLex_lt_toLex]
  simp only [editSupersedes]
  by_cases htime : next.editedAt = held.editedAt
  · simp [htime]
  · have hne : held.editedAt.1 ≠ next.editedAt.1 := fun heq => htime (Subtype.ext heq.symm)
    simp [htime, hne]

/-- A row that takes the edits one after the other. -/
def MessageRow.carry (row : MessageRow) (edits : List IncomingEdit) : MessageRow :=
  edits.foldl (fun row edit =>
    if editSupersedes edit row.editedAt row.content then row.edited edit else row) row

theorem MessageRow.carry_append (row : MessageRow) (first second : List IncomingEdit) :
    row.carry (first ++ second) = (row.carry first).carry second :=
  foldl_append

theorem MessageRow.carry_cons (row : MessageRow) (edit : IncomingEdit) (rest : List IncomingEdit) :
    row.carry (edit :: rest) =
      (if editSupersedes edit row.editedAt row.content then row.edited edit else row).carry rest :=
  rfl

/-- Edits leave the author and the mark of a row as they are. -/
theorem MessageRow.carry_kept (row : MessageRow) (edits : List IncomingEdit) :
    (row.carry edits).senderId = row.senderId ∧ (row.carry edits).isDeleted = row.isDeleted := by
  induction edits generalizing row with
  | nil => exact ⟨rfl, rfl⟩
  | cons edit rest ih =>
    rw [carry_cons]
    split
    · exact ih (row.edited edit)
    · exact ih row

/-- A row that carries an edit says so. -/
def MessageRow.Flagged (row : MessageRow) : Prop :=
  row.editedAt.isSome = true → row.isEdited = true

theorem MessageRow.Flagged.carry {row : MessageRow} (hedited : row.Flagged)
    (edits : List IncomingEdit) : (row.carry edits).Flagged := by
  induction edits generalizing row with
  | nil => exact hedited
  | cons edit rest ih =>
    rw [carry_cons]
    split
    · exact @ih (row.edited edit) fun _ => rfl
    · exact ih hedited

/-- A row that no edit has changed is the row as it was. -/
theorem MessageRow.carry_cases (row : MessageRow) (edits : List IncomingEdit) :
    (row.carry edits).isEdited = true ∨ row.carry edits = row := by
  induction edits generalizing row with
  | nil => exact .inr rfl
  | cons edit rest ih =>
    rw [carry_cons]
    split
    · rcases ih (row.edited edit) with hedited | hsame
      · exact .inl hedited
      · exact .inl (congrArg MessageRow.isEdited hsame)
    · exact ih row

/-- What a row carries after a series of edits is the latest of them. -/
theorem MessageRow.carry_edited (row : MessageRow) (held : IncomingEdit)
    (edits : List IncomingEdit) :
    ∃ newest, (row.edited held).carry edits = row.edited newest ∧
      edits.foldl (fun held edit => latest stamp held (some edit)) (some held) =
        some newest := by
  induction edits generalizing held with
  | nil => exact ⟨held, rfl, rfl⟩
  | cons edit rest ih =>
    rw [carry_cons, foldl_cons]
    by_cases hsupersedes :
        editSupersedes edit (row.edited held).editedAt (row.edited held).content = true
    · rw [latest_of_lt _ (editSupersedes_iff.mp hsupersedes), if_pos hsupersedes]
      exact ih edit
    · have hle : edit.stamp ≤ held.stamp :=
        not_lt.mp fun hlt => hsupersedes (editSupersedes_iff.mpr hlt)
      rw [latest_of_le _ hle, if_neg hsupersedes]
      exact ih held

theorem MessageRow.carry_eq {row : MessageRow} (h : row.editedAt = none)
    (edits : List IncomingEdit) :
    row.carry edits = ((latestOf stamp edits).map row.edited).getD row := by
  cases edits with
  | nil => rfl
  | cons edit rest =>
    obtain ⟨newest, hcarry, hlatest⟩ := row.carry_edited edit rest
    have hfirst : editSupersedes edit row.editedAt row.content = true := by
      rw [h]
      rfl
    rw [carry_cons, if_pos hfirst, hcarry, latestOf, foldl_cons, none_latest, hlatest]
    rfl

/-! ## 2. What a step brings for a message -/

section Editing

variable (client : Client)

/-- The handlers pass over an edit without a body. -/
def EditFrame.edits (frame : EditFrame) : List IncomingEdit :=
  if frame.newContent = [] then [] else [frame.incoming]

def ReplayEvent.edits (id : MessageId) : ReplayEvent → List IncomingEdit
  | .edit target _ frame => if target = id then frame.edits else []
  | _ => []

def Action.edits (id : MessageId) : Action → List IncomingEdit
  | .liveEdit target _ frame => if target = id then frame.edits else []
  | .replay _ page => page.flatMap (ReplayEvent.edits id)
  | _ => []

/-- The message as its author sent it, which the row still shows unless it was edited. -/
def MessageRow.Sent (row : MessageRow) (sender content : Utf16) : Prop :=
  client.toLowerCase sender = row.senderId ∧ (row.isEdited = true ∨ content = row.content)

/-- Of this message the page says nothing but edits by its author, and the message itself. -/
def ReplayEvent.Genuine (id : MessageId) (row : MessageRow) : ReplayEvent → Prop
  | .message target sender content => target = id → row.Sent client sender content
  | .delete target _ => target ≠ id
  | .edit target sender _ =>
    target = id → mutationIsAuthorised client row (client.toLowerCase sender) = true
  | .bundle rows => rows.get? id = none

def Action.Genuine (id : MessageId) (row : MessageRow) : Action → Prop
  | .liveDelete target _ => target ≠ id
  | .liveEdit target sender _ => target = id → mutationIsAuthorised client row sender = true
  | .liveBundle rows => rows.get? id = none
  | .replay _ page => ∀ event ∈ page, event.Genuine client id row
  | .load _ => True
  | .unload _ => True

/-- The edit that a row carries. -/
def MessageRow.held (row : MessageRow) : Option IncomingEdit :=
  row.editedAt.map fun time => ⟨time, row.content⟩

/-- An edit finds the message in memory.  When the message is only stored, a live edit is one
    that the stored row outranks anyway, and a replayed page has one that it does not.  A page
    that brings the message itself is replayed while the store can be read. -/
def Compared (id : MessageId) (device : Device) : Action → Prop
  | .liveEdit target _ frame => target = id → frame.edits ≠ [] →
      (device id).memory.isSome = true ∨ ∀ row, (device id).stored = some row →
        editSupersedes frame.incoming row.editedAt row.content = false
  | .replay readable page =>
    (∀ sender content, .message id sender content ∈ page → readable = true) ∧
    (page.flatMap (edits id) ≠ [] →
      (device id).memory.isSome = true ∨ ∀ row held, (device id).stored = some row →
        row.held = some held → ∃ edit ∈ page.flatMap (edits id),
          editSupersedes held (some edit.editedAt) edit.content = false)
  | _ => True

variable {client} {row : MessageRow} {copies : Copies} {sender : Utf16} {readable : Bool}
  {track : Track} {id : MessageId}

theorem mutationIsAuthorised_of_sender {first second : MessageRow}
    (h : first.senderId = second.senderId) (sender : Utf16) :
    mutationIsAuthorised client first sender = mutationIsAuthorised client second sender := by
  simp only [mutationIsAuthorised, h]

/-! ## 3. Live edits and replays -/

/-- The copy in memory, if there is one, is the stored row. -/
structure Mirrored (row : MessageRow) (copies : Copies) : Prop where
  stored : copies.stored = some row
  memory : ∀ held, copies.memory = some held → held = row

protected theorem Mirrored.liveEdit (h : Mirrored row copies) (hundeleted : row.isDeleted = false)
    (hsender : mutationIsAuthorised client row sender = true) {frame : EditFrame}
    (hcompared : frame.edits ≠ [] → copies.memory.isSome = true ∨
      editSupersedes frame.incoming row.editedAt row.content = false) :
    Mirrored (row.carry frame.edits) (liveEdit client sender frame copies) := by
  by_cases hbody : frame.newContent = []
  · simp only [EditFrame.edits, liveEdit, if_pos hbody]
    exact h
  · simp only [EditFrame.edits, if_neg hbody] at hcompared ⊢
    by_cases hsupersedes : editSupersedes frame.incoming row.editedAt row.content = true
    · have hloaded : copies.memory.isSome = true := by
        refine (hcompared (cons_ne_nil _ _)).resolve_right fun hoff => ?_
        cases hoff.symm.trans hsupersedes
      obtain ⟨held, hheld⟩ := isSome_iff_exists.mp hloaded
      rw [h.memory held hheld] at hheld
      have hcarry : row.carry [frame.incoming] = row.edited frame.incoming := if_pos hsupersedes
      have hlive : liveEdit client sender frame copies =
          ⟨some (row.edited frame.incoming), some (row.edited frame.incoming)⟩ := by
        simp [liveEdit, hbody, hheld, hsender, hundeleted, hsupersedes, h.stored]
      rw [hcarry, hlive]
      exact ⟨rfl, fun other hother => (some.inj hother).symm⟩
    · have hcarry : row.carry [frame.incoming] = row := if_neg hsupersedes
      have hlive : liveEdit client sender frame copies = copies := by
        cases hmemory : copies.memory with
        | none => simp [liveEdit, hmemory]
        | some held =>
          rw [h.memory held hmemory] at hmemory
          simp [liveEdit, hmemory, hsupersedes]
      rw [hcarry, hlive]
      exact h

/-- The rows that a replay is going to save for the message leave the stored one as it is. -/
def Track.Idle (client : Client) (readable : Bool) (row : MessageRow) (track : Track) : Prop :=
  ∀ pending ∈ track.pending, readable = true ∧ toStore client (some row) pending = row

theorem Track.Idle.message (h : track.Idle client readable row) (hundeleted : row.isDeleted = false)
    (hreadable : readable = true) {content : Utf16} (hsent : row.Sent client sender content) :
    (track.message sender content).Idle client readable row := by
  intro pending hpending
  rcases mem_append.mp hpending with hold | hnew
  · exact h pending hold
  · refine ⟨hreadable, ?_⟩
    rw [mem_singleton.mp hnew]
    obtain ⟨hsender, hbody⟩ := hsent
    have hcontent : (if row.isEdited = true then row.content else content) = row.content := by
      split
      · rfl
      next hunedited => exact hbody.resolve_left hunedited
    simp only [toStore, any_some, bind_some, hundeleted, Bool.or_false,
      or_none, hsender, hcontent, Bool.false_eq_true, if_false]
    rw [← hundeleted]

protected theorem Track.Idle.saveMessages (h : track.Idle client readable row) :
    saveMessages client readable (some row) track.pending = some row := by
  unfold Track.Idle at h
  unfold saveMessages
  generalize track.pending = rows at h ⊢
  induction rows with
  | nil => rfl
  | cons pending rest ih =>
    obtain ⟨hreadable, hsame⟩ := h pending mem_cons_self
    have hrest := ih fun other hother => h other (mem_cons_of_mem _ hother)
    simp only [hreadable, if_true] at hrest ⊢
    rw [foldl_cons, hsame]
    exact hrest

/-- The replay so far, for a message it found in memory: what it gathered for the store is what
    it made of the copy in memory. -/
structure Walked (client : Client) (readable : Bool) (row : MessageRow)
    (edits : List IncomingEdit) (track : Track) : Prop where
  memory : track.memory = some (row.carry edits)
  deletion : track.deletion = none
  idle : track.Idle client readable row
  gathered : (track.edit = none ∧ row.carry edits = row) ∨
    ∃ gathered, track.edit = some gathered ∧ row.carry edits = row.edited gathered.toIncomingEdit ∧
      mutationIsAuthorised client row gathered.sender = true

section

variable {edits : List IncomingEdit}

theorem Walked.editWith (h : Walked client readable row edits track)
    (hundeleted : row.isDeleted = false)
    (hsender : mutationIsAuthorised client row (client.toLowerCase sender) = true)
    (frame : EditFrame) :
    Walked client readable row (edits ++ frame.edits) (track.editWith client sender frame) := by
  by_cases hbody : frame.newContent = []
  · simp only [EditFrame.edits, Track.editWith, if_pos hbody, append_nil]
    exact h
  · obtain ⟨hkeptSender, hkeptDeleted⟩ := row.carry_kept edits
    have hauthor :
        mutationIsAuthorised client (row.carry edits) (client.toLowerCase sender) = true :=
      (mutationIsAuthorised_of_sender hkeptSender _).trans hsender
    have hpresent : (row.carry edits).isDeleted = false := hkeptDeleted.trans hundeleted
    simp only [EditFrame.edits, if_neg hbody]
    by_cases hsupersedes :
        editSupersedes frame.incoming (row.carry edits).editedAt (row.carry edits).content = true
    · have hcarry : row.carry (edits ++ [frame.incoming]) = row.edited frame.incoming := by
        rw [MessageRow.carry_append]
        refine (if_pos hsupersedes).trans ?_
        rcases h.gathered with ⟨_, hsame⟩ | ⟨gathered, _, hedited, _⟩
        · rw [hsame]
        · rw [hedited]
          rfl
      have houtranks : outranksGathered frame.incoming track.edit = true := by
        rcases h.gathered with ⟨hnone, _⟩ | ⟨gathered, hsome, hedited, _⟩
        · rw [hnone]
          rfl
        · rw [hsome]
          rwa [hedited] at hsupersedes
      have hwalk : track.editWith client sender frame = { track with
            memory := some ((row.carry edits).edited frame.incoming)
            edit := some ⟨frame.incoming, client.toLowerCase sender⟩ } := by
        simp [Track.editWith, hbody, h.memory, hauthor, hpresent, h.deletion,
          houtranks, hsupersedes]
      rw [hwalk]
      refine ⟨?_, h.deletion, h.idle, .inr ⟨_, rfl, hcarry, hsender⟩⟩
      rw [MessageRow.carry_append]
      exact congrArg some (if_pos hsupersedes).symm
    · have hcarry : row.carry (edits ++ [frame.incoming]) = row.carry edits := by
        rw [MessageRow.carry_append]
        exact if_neg hsupersedes
      have hwalk : track.editWith client sender frame = track := by
        simp [Track.editWith, hbody, h.memory, hauthor, hpresent, h.deletion, hsupersedes]
      rw [hwalk]
      exact ⟨hcarry ▸ h.memory, h.deletion, h.idle, hcarry ▸ h.gathered⟩

/-- **Rule for pages of edits.**  What holds of the edits walked so far and the track they leave,
    and is kept by a genuine edit and by the message itself, holds of the whole page. -/
theorem foldl_edits {Walk : List IncomingEdit → Track → Prop}
    (hedit : ∀ {edits track sender}, Walk edits track →
      mutationIsAuthorised client row (client.toLowerCase sender) = true →
      ∀ frame, Walk (edits ++ frame.edits) (track.editWith client sender frame))
    (hmessage : ∀ {edits track sender content}, Walk edits track → readable = true →
      row.Sent client sender content → Walk edits (track.message sender content))
    {page : List ReplayEvent} (hgenuine : ∀ event ∈ page, event.Genuine client id row)
    (hreadable : ∀ sender content, .message id sender content ∈ page → readable = true)
    (h : Walk edits track) :
    Walk (edits ++ page.flatMap (ReplayEvent.edits id))
      (page.foldl (ReplayEvent.on client id) track) := by
  induction page generalizing edits track with
  | nil => simpa using h
  | cons event rest ih =>
    have hevent := hgenuine event mem_cons_self
    have hnext : Walk (edits ++ event.edits id) (event.on client id track) := by
      cases event with
      | message target sender content =>
        simp only [ReplayEvent.edits, ReplayEvent.on, append_nil]
        split
        next htarget =>
          subst htarget
          exact hmessage h (hreadable sender content mem_cons_self) (hevent rfl)
        · exact h
      | delete target sender =>
        simp only [ReplayEvent.edits, ReplayEvent.on, append_nil]
        rw [if_neg hevent]
        exact h
      | edit target sender frame =>
        simp only [ReplayEvent.edits, ReplayEvent.on]
        by_cases htarget : target = id
        · rw [if_pos htarget, if_pos htarget]
          exact hedit h (hevent htarget) frame
        · rw [if_neg htarget, if_neg htarget, append_nil]
          exact h
      | bundle rows =>
        have habsent : rows.get? id = none := hevent
        simp only [ReplayEvent.edits, ReplayEvent.on, habsent, append_nil]
        exact h
    rw [foldl_cons, flatMap_cons, ← append_assoc]
    exact ih (fun other hother => hgenuine other (mem_cons_of_mem _ hother))
      (fun sender content hmem => hreadable sender content (mem_cons_of_mem _ hmem)) hnext

theorem Walked.finish (h : Walked client readable row edits track) :
    Mirrored (row.carry edits) (track.finish client readable (some row)) := by
  refine ⟨?_, fun held hheld => some.inj (hheld.symm.trans h.memory)⟩
  simp only [Track.finish, h.idle.saveMessages, h.deletion, map_some, mutateStored,
    any_none, Bool.false_eq_true, if_false]
  rcases h.gathered with ⟨hnone, hsame⟩ | ⟨gathered, hsome, hedited, hsender⟩
  · rw [hnone, hsame]
  · rw [hsome, hedited]
    simp only [if_pos hsender]

/-- The replay so far, for a message that is only stored: it has gathered the latest edit. -/
structure Gathered (client : Client) (readable : Bool) (row : MessageRow)
    (edits : List IncomingEdit) (track : Track) : Prop where
  memory : track.memory = none
  deletion : track.deletion = none
  idle : track.Idle client readable row
  edit : track.edit.map PageEdit.toIncomingEdit = latestOf stamp edits
  author : ∀ gathered, track.edit = some gathered →
    mutationIsAuthorised client row gathered.sender = true

theorem Gathered.editWith (h : Gathered client readable row edits track)
    (hsender : mutationIsAuthorised client row (client.toLowerCase sender) = true)
    (frame : EditFrame) :
    Gathered client readable row (edits ++ frame.edits) (track.editWith client sender frame) := by
  by_cases hbody : frame.newContent = []
  · simp only [EditFrame.edits, Track.editWith, if_pos hbody, append_nil]
    exact h
  · simp only [EditFrame.edits, if_neg hbody]
    by_cases houtranks : outranksGathered frame.incoming track.edit = true
    · have hwalk : track.editWith client sender frame =
          { track with edit := some ⟨frame.incoming, client.toLowerCase sender⟩ } := by
        simp [Track.editWith, hbody, h.memory, h.deletion, houtranks]
      have hlatest : latestOf stamp (edits ++ [frame.incoming]) = some frame.incoming := by
        rw [latestOf_append, foldl_cons, foldl_nil, ← h.edit]
        cases hedit : track.edit with
        | none => rfl
        | some held =>
          rw [hedit] at houtranks
          exact latest_of_lt _ (editSupersedes_iff.mp houtranks)
      rw [hwalk]
      refine ⟨h.memory, h.deletion, h.idle, hlatest.symm, fun gathered hgathered => ?_⟩
      cases hgathered
      exact hsender
    · have hwalk : track.editWith client sender frame = track := by
        simp [Track.editWith, hbody, h.memory, houtranks]
      have hlatest : latestOf stamp (edits ++ [frame.incoming]) =
          latestOf stamp edits := by
        rw [latestOf_append, foldl_cons, foldl_nil, ← h.edit]
        cases hedit : track.edit with rw [hedit] at houtranks
        | none =>
          exact absurd rfl houtranks
        | some held =>
          exact latest_of_le _ (not_lt.mp fun hlt => houtranks (editSupersedes_iff.mpr hlt))
      rw [hwalk]
      exact { h with edit := h.edit.trans hlatest.symm }

/-- A row takes the latest of the edits when its own does not outrank them. -/
theorem MessageRow.carry_of_latest (hedited : row.Flagged)
    {newest : IncomingEdit} (hnewest : latestOf stamp edits = some newest)
    (houtranked : ∀ held, row.held = some held → ∃ edit ∈ edits,
      editSupersedes held (some edit.editedAt) edit.content = false) :
    row.carry edits = row.edited newest := by
  cases htime : row.editedAt with
  | none => rw [carry_eq htime, hnewest, map_some, getD_some]
  | some time =>
    have hheld : row.held = some ⟨time, row.content⟩ := by rw [held, htime, map_some]
    have hself : row.edited ⟨time, row.content⟩ = row := by
      rw [edited, ← htime, ← hedited (by rw [htime]; rfl)]
    obtain ⟨last, hcarry, hlast⟩ := row.carry_edited ⟨time, row.content⟩ edits
    rw [foldl_latest, hnewest] at hlast
    obtain ⟨edit, hedit, hoff⟩ := houtranked _ hheld
    obtain ⟨_, htop, habove⟩ := (newest_latestOf stamp edits).above edit hedit
    cases hnewest.symm.trans htop
    have hle : stamp ⟨time, row.content⟩ ≤ newest.stamp := by
      refine le_trans (not_lt.mp fun hlt => ?_) habove
      cases hoff.symm.trans (editSupersedes_iff.mpr hlt)
    have hlatest : latest stamp (some ⟨time, row.content⟩) (some newest) =
        some newest := by
      rcases lt_or_eq_of_le hle with hlt | heq
      · exact latest_of_lt _ hlt
      · rw [latest_of_le _ heq.ge, stamp_injective heq]
    cases hlatest.symm.trans hlast
    rw [← hself, hcarry]
    rfl

theorem Gathered.finish (h : Gathered client readable row edits track) (hedited : row.Flagged)
    (houtranked : edits ≠ [] → ∀ held, row.held = some held → ∃ edit ∈ edits,
      editSupersedes held (some edit.editedAt) edit.content = false) :
    Mirrored (row.carry edits) (track.finish client readable (some row)) := by
  refine ⟨?_, fun held hheld => ?_⟩
  · simp only [Track.finish, h.idle.saveMessages, h.deletion, map_some, mutateStored,
      any_none, Bool.false_eq_true, if_false]
    have hlatest := h.edit
    cases hgathered : track.edit with rw [hgathered] at hlatest
    | none =>
      rw [latestOf_eq_none.mp hlatest.symm]
      rfl
    | some gathered =>
      have hsome : edits ≠ [] := by
        rintro rfl
        cases hlatest
      simp only [if_pos (h.author gathered hgathered)]
      rw [MessageRow.carry_of_latest hedited hlatest.symm (houtranked hsome)]
  · cases h.memory.symm.trans hheld

end

theorem Mirrored.replay (h : Mirrored row copies) (hundeleted : row.isDeleted = false)
    (hedited : row.Flagged) {page : List ReplayEvent}
    (hgenuine : ∀ event ∈ page, event.Genuine client id row)
    (hreadable : ∀ sender content, .message id sender content ∈ page → readable = true)
    (hcompared : page.flatMap (ReplayEvent.edits id) ≠ [] → copies.memory.isSome = true ∨
      ∀ held, row.held = some held → ∃ edit ∈ page.flatMap (ReplayEvent.edits id),
        editSupersedes held (some edit.editedAt) edit.content = false) :
    Mirrored (row.carry (page.flatMap (ReplayEvent.edits id)))
      ((page.foldl (ReplayEvent.on client id) (start copies)).finish client readable
        copies.stored) := by
  rw [h.stored]
  have hidle : (start copies).Idle client readable row :=
    fun _ hpending => absurd hpending not_mem_nil
  cases hmemory : copies.memory with
  | none =>
    have hstart : Gathered client readable row [] (start copies) := by
      refine ⟨hmemory, rfl, hidle, rfl, fun gathered hgathered => ?_⟩
      cases hgathered
    have hpage := foldl_edits (fun hwalk hsender => hwalk.editWith hsender)
      (fun hwalk hstore hsent => { hwalk with
        idle := hwalk.idle.message hundeleted hstore hsent }) hgenuine hreadable hstart
    refine hpage.finish hedited fun hsome => ?_
    refine (hcompared hsome).resolve_left fun hloaded => ?_
    rw [hmemory] at hloaded
    cases hloaded
  | some held =>
    have hstart : Walked client readable row [] (start copies) := by
      refine ⟨?_, rfl, hidle, .inl ⟨rfl, rfl⟩⟩
      rw [← h.memory held hmemory]
      exact hmemory
    have hpage := foldl_edits (fun hwalk hsender => hwalk.editWith hundeleted hsender)
      (fun hwalk hstore hsent => { hwalk with
        idle := hwalk.idle.message hundeleted hstore hsent }) hgenuine hreadable hstart
    exact hpage.finish

/-! ## 4. Steps and runs -/

protected theorem Mirrored.load (h : Mirrored row copies) : Mirrored row (load client copies) := by
  refine ⟨h.stored, fun held hheld => ?_⟩
  simp only [load, h.stored] at hheld
  cases hmemory : copies.memory with
  | none =>
    rw [hmemory] at hheld
    exact (some.inj hheld).symm
  | some other =>
    rw [hmemory, h.memory other hmemory] at hheld
    exact (some.inj hheld).symm.trans (by simp [reconcile])

theorem Mirrored.step {device next : Device} {action : Action} (h : Mirrored row (device id))
    (hundeleted : row.isDeleted = false) (hedited : row.Flagged)
    (hgenuine : action.Genuine client id row) (hcompared : Compared id device action)
    (hstep : step client device action = some next) :
    Mirrored (row.carry (action.edits id)) (next id) := by
  rw [step_at client hstep id]
  cases action with simp only [Action.on, Action.edits]
  | liveDelete target sender =>
    rw [if_neg hgenuine]
    exact h
  | liveEdit target sender frame =>
    by_cases htarget : target = id
    · simp only [if_pos htarget]
      refine h.liveEdit hundeleted (hgenuine htarget) fun hsome => ?_
      exact (hcompared htarget hsome).imp_right fun hoff => hoff row h.stored
    · simp only [if_neg htarget]
      exact h
  | liveBundle rows =>
    have habsent : rows.get? id = none := hgenuine
    simp only [habsent]
    exact h
  | replay readable page =>
    refine h.replay hundeleted hedited hgenuine hcompared.1 fun hsome => ?_
    exact (hcompared.2 hsome).imp_right fun hoff held => hoff row held h.stored
  | load ids =>
    split
    · exact h.load
    · exact h
  | unload ids =>
    split
    · refine ⟨h.stored, fun held hheld => ?_⟩
      cases hheld
    · exact h

theorem Action.Genuine.carry {action : Action} (h : action.Genuine client id row)
    (edits : List IncomingEdit) : action.Genuine client id (row.carry edits) := by
  have hsender := (row.carry_kept edits).1
  cases action with
  | liveDelete target sender | liveBundle rows => exact h
  | liveEdit target sender frame =>
    intro htarget
    rw [mutationIsAuthorised_of_sender hsender]
    exact h htarget
  | replay readable page =>
    intro event hevent
    have hgenuine := h event hevent
    cases event with
    | message target sender content =>
      intro htarget
      obtain ⟨hauthor, hbody⟩ := hgenuine htarget
      refine ⟨hauthor.trans hsender.symm, ?_⟩
      rcases row.carry_cases edits with hedited | hsame
      · exact .inl hedited
      · rw [hsame]
        exact hbody
    | delete target sender | bundle rows => exact hgenuine
    | edit target sender frame =>
      intro htarget
      rw [mutationIsAuthorised_of_sender hsender]
      exact hgenuine htarget
  | load ids | unload ids => trivial

/-- The past of a device with a message of this row: nothing has come for the message but itself
    and edits by its author, and each of them was compared with the one the row carries. -/
structure EditHistory (client : Client) (id : MessageId) (row : MessageRow) where
  start : Device
  actions : List Action
  final : Device
  mirrored : Mirrored row (start id)
  genuine : ∀ action ∈ actions, action.Genuine client id row
  compared : EachStep (step client) (Compared id) start actions
  ran : run (step client) start actions = some final

def EditHistory.edits {id : MessageId} {row : MessageRow} (history : EditHistory client id row) :
    List IncomingEdit :=
  history.actions.flatMap (Action.edits id)

end Editing

/-! ## 6. A message that is only stored -/

/-- A version of a message, with the reactions that a bundle copies beside its row. -/
structure Version extends MessageRow where
  reactions : List MessageReactions.MessageReaction
deriving DecidableEq

/-- The reactions of a saved row are the copy's, whatever those of the row it replaces. -/
def Version.toStore (client : Client) (previous : Option Version) (copy : Version) : Version :=
  ⟨MessageMutations.toStore client (previous.map Version.toMessageRow) copy.toMessageRow,
   copy.reactions⟩

/-- Every copy is completed from the row read before the first `put`, and each `put` replaces
    the one before. -/
def batchWrite (client : Client) (readable : Bool) (stored : Option Version)
    (batch : List Version) : Option Version :=
  let existing := if readable then stored else none
  batch.foldl (fun _ copy => some (copy.toStore client existing)) stored

/-- The row has what the version carries.  An edit is not read from a row that is deleted. -/
structure Keeps (row version : Version) : Prop where
  deleted : version.isDeleted = true → row.isDeleted = true
  reactions : version.reactions ⊆ row.reactions
  latest : row.isDeleted = false → ∀ edit, version.held = some edit →
    editSupersedes edit row.editedAt row.content = false

section

variable (existing : Option Version) (last : Version)

/-- The time and the body that the batch write leaves, unless the row is deleted. -/
def keptTime : Option EditTime := (existing.bind fun row => row.editedAt).or last.editedAt

def keptBody : Utf16 := ((existing.filter (·.isEdited)).getD last).content

variable {existing last} (client : Client)

theorem isDeleted_toStore : (last.toStore client existing).isDeleted =
    (existing.any (·.isDeleted) || last.isDeleted) := by
  cases existing <;> rfl

variable {client} in
theorem held_toStore (h : (last.toStore client existing).isDeleted = false) :
    (last.toStore client existing).editedAt = keptTime existing last ∧
      (last.toStore client existing).content = keptBody existing last := by
  rw [Version.toStore] at h
  simp only [Version.toStore, toStore] at h ⊢
  rw [h]
  cases existing with
  | none => exact ⟨rfl, rfl⟩
  | some row =>
    refine ⟨rfl, ?_⟩
    by_cases hedited : row.isEdited = true <;> simp [keptBody, Option.filter, hedited]

end

/-- **The batch write.**  No deletion, reaction or latest edit of the stored row or of a copy is
    lost exactly if the last copy carries every reaction and, with the row that was read, every
    deletion, and, unless one of the two is deleted, the time and body that they leave are one
    edit of those carried, which none of the others supersedes. -/
theorem batch_keeps_mutations (client : Client) (readable : Bool) (stored : Option Version)
    (batch : List Version) (last : Version) :
    let existing := if readable then stored else none
    let versions := stored.toList ++ (batch ++ [last])
    (∃ row, batchWrite client readable stored (batch ++ [last]) = some row ∧
      (∀ version ∈ versions, Keeps row version) ∧
      (row.isDeleted = false → ∀ edit, row.held = some edit →
        ∃ version ∈ versions, version.held = some edit)) ↔
    (∀ version ∈ versions, version.reactions ⊆ last.reactions ∧
      (version.isDeleted = true → (existing.any (·.isDeleted) || last.isDeleted) = true)) ∧
    ((existing.any (·.isDeleted) || last.isDeleted) = false →
      (∀ version ∈ versions, ∀ edit, version.held = some edit →
        editSupersedes edit (keptTime existing last) (keptBody existing last) = false) ∧
      ∀ time, keptTime existing last = some time →
        ∃ version ∈ versions, version.held = some ⟨time, keptBody existing last⟩) := by
  intro existing versions
  have hrow : batchWrite client readable stored (batch ++ [last]) =
      some (last.toStore client existing) := by simp [batchWrite, existing]
  simp only [hrow, Option.some.injEq, exists_eq_left']
  constructor
  · rintro ⟨hkeeps, hcarried⟩
    refine ⟨fun version hversion => ⟨(hkeeps version hversion).reactions, fun hdeleted => ?_⟩,
      fun hundeleted => ?_⟩
    · rw [← isDeleted_toStore client]
      exact (hkeeps version hversion).deleted hdeleted
    · rw [← isDeleted_toStore client] at hundeleted
      obtain ⟨htime, hbody⟩ := held_toStore hundeleted
      rw [← htime, ← hbody]
      refine ⟨fun version hversion => (hkeeps version hversion).latest hundeleted, ?_⟩
      intro time hsome
      exact hcarried hundeleted _ (by rw [MessageRow.held, hsome]; rfl)
  · rintro ⟨hcarried, hedits⟩
    simp only [← isDeleted_toStore client] at hcarried hedits
    refine ⟨fun version hversion => ⟨(hcarried version hversion).2, (hcarried version hversion).1,
      fun hundeleted edit hedit => ?_⟩, fun hundeleted edit hedit => ?_⟩
    all_goals obtain ⟨htime, hbody⟩ := held_toStore hundeleted
    · rw [htime, hbody]
      exact (hedits hundeleted).1 version hversion edit hedit
    · obtain ⟨time, hsome, rfl⟩ := Option.map_eq_some_iff.mp hedit
      rw [hbody]
      exact (hedits hundeleted).2 time (htime ▸ hsome)

def plainVersion : Version := ⟨greetingRow, []⟩

def earlyVersion : Version :=
  ⟨greetingRow.edited (editAt 6 (by decide) ['h', 'a']).incoming, []⟩

def lateVersion : Version :=
  ⟨greetingRow.edited (editAt 9 (by decide) ['h', 'o']).incoming, []⟩

/-- The reactions of the stored row go, its earlier edit stays, and of two copies the second
    brings a deleted message back. -/
theorem batch_drops_mutations :
    (batchWrite plainClient true (some ⟨greetingRow, [⟨ada, bob, none, false⟩]⟩)
        [plainVersion]).map Version.reactions = some [] ∧
    (batchWrite plainClient true (some earlyVersion) [lateVersion]).bind (·.held) =
      earlyVersion.held ∧
    batchWrite plainClient true none [⟨greetingRow.deleted plainClient, []⟩, plainVersion] =
      some plainVersion := by
  decide

end MinesApp.MessageMutations
