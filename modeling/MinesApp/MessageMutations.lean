import MinesApp.HistoryBundle
import MinesApp.TransitionSystem
import Mathlib.Data.Prod.Lex

/-!
# Edits and deletions of stored messages

A message is edited and deleted by frames that reach a device live
(`systemMessageHandler.ts`), from the archive (`historySystemEvents.ts` and the end of
`replayConversationHistory` in `history.ts`), and as the state of a row of a history bundle,
which itself comes live or from the archive.  A device keeps its rows in a store and a part of
them in memory, and the paths do not read the same copy: a live frame finds its message in
memory or nowhere, a replay walks its pages against memory and writes to the store at the end.

Live frames and replays take the MLS mutex, so each is one step here.  Rows enter memory from
the store a page at a time and leave it at any time.  Only what the paths read and write of a
row is kept: its author, its body and the state of its mutations.  Reactions appear as the one
thing that can make a bundle write a row it has nothing else to say about.

All that the paths read and gather is keyed by the id of a message, so a device is a family of
copies and a replay a family of tracks, one for each message.
-/

namespace MinesApp.MessageMutations

open JsString HistoryStateKey HistoryBundle Function
open TransitionSystem

/-! ## 1. Rows -/

/-- What the client takes from its platform and its language. -/
structure Client where
  toLowerCase : Utf16 → Utf16
  /-- Whether a body is a serialised envelope. -/
  isEnvelopeContent : Utf16 → Bool
  /-- The text that replaces the body of a deleted message. -/
  deletedText : Utf16

structure MessageRow where
  senderId : Utf16
  content : Utf16
  isDeleted : Bool
  isEdited : Bool
  editedAt : Option EditTime
deriving DecidableEq

open MessageRow

structure Copies where
  memory : Option MessageRow
  stored : Option MessageRow
deriving DecidableEq

abbrev Device : Type := MessageId → Copies

structure IncomingEdit where
  editedAt : EditTime
  content : Utf16
deriving DecidableEq

/-- An edit as a frame carries it: `receivedAt` is the clock it is dated with when the sender
    did not. -/
structure EditFrame where
  newContent : Utf16
  editedAt : Option EditTime
  receivedAt : EditTime
deriving DecidableEq

def EditFrame.incoming (frame : EditFrame) : IncomingEdit :=
  ⟨frame.editedAt.getD frame.receivedAt, frame.newContent⟩

/-- A row as a bundle carries it, and whether its reactions are news to the receiver. -/
structure BundleRow extends MessageRow where
  newReactions : Bool
deriving DecidableEq

abbrev Bundle : Type := OrderedMap MessageId BundleRow

/-- Strictly later wins, a tie goes to the greater text, and a row that carries no edit has
    none to defend. -/
def editSupersedes (next : IncomingEdit) (heldAt : Option EditTime) (heldContent : Utf16) : Bool :=
  match heldAt with
  | none => true
  | some time =>
    if next.editedAt ≠ time then time.1 < next.editedAt.1 else heldContent < next.content

section Paths

variable (client : Client)

/-- `mutationIsAuthorised` and its replay twin: only the author may change a message. -/
def mutationIsAuthorised (target : MessageRow) (sender : Utf16) : Bool :=
  let owner := client.toLowerCase target.senderId
  owner ≠ [] && owner == client.toLowerCase sender

def MessageRow.deleted (row : MessageRow) : MessageRow :=
  { row with isDeleted := true, content := client.deletedText }

def MessageRow.edited (row : MessageRow) (edit : IncomingEdit) : MessageRow :=
  { row with isEdited := true, editedAt := some edit.editedAt, content := edit.content }

/-! ## 2. Live frames

`updateMessage` patches the stored row, and does nothing when there is none. -/

section

variable (received : BundleRow) (sender : Utf16) (copies : Copies)

def liveDelete : Copies :=
  match copies.memory with
  | none => copies
  | some row =>
    if mutationIsAuthorised client row sender then
      { memory := some (row.deleted client)
        stored := copies.stored.map (deleted client) }
    else copies

def liveEdit (frame : EditFrame) (copies : Copies) : Copies :=
  if frame.newContent = [] then copies
  else
    match copies.memory with
    | none => copies
    | some row =>
      if ¬ mutationIsAuthorised client row sender then copies
      -- a tombstone is final
      else if row.isDeleted then copies
      else if ¬ editSupersedes frame.incoming row.editedAt row.content then copies
      else
        { memory := some (row.edited frame.incoming)
          stored := copies.stored.map fun held => held.edited frame.incoming }

/-- The row `batchAddMessages` writes: the add path carries no mutation state. -/
def BundleRow.added : MessageRow where
  senderId := client.toLowerCase received.senderId
  content := received.content
  isDeleted := false
  isEdited := false
  editedAt := none

/-- What a bundle says of a row in memory.  A deletion replaces the body. -/
def MessageRow.merged (row : MessageRow) (received : BundleRow) : MessageRow where
  senderId := row.senderId
  content := if received.isDeleted && !row.isDeleted then client.deletedText else row.content
  isDeleted := row.isDeleted || received.isDeleted
  isEdited := row.isEdited || received.isEdited
  editedAt := row.editedAt.or received.editedAt

/-- The patch for a row that the merge changed: the body goes with it on a deletion only. -/
def MessageRow.patched (held merged : MessageRow) : MessageRow where
  senderId := held.senderId
  content := if merged.isDeleted then merged.content else held.content
  isDeleted := held.isDeleted || merged.isDeleted
  isEdited := held.isEdited || merged.isEdited
  editedAt := merged.editedAt.or held.editedAt

/-- The `history_bundle` case for a message of the bundle: it is added, in memory and in the
    store, when it is not in memory, and then merged. -/
def liveBundle : Copies :=
  let existing := copies.memory.getD (received.added client)
  let saved := if copies.memory.isNone then some existing else copies.stored
  let merged := existing.merged client received
  { memory := some merged
    stored :=
      if received.newReactions ∨ merged ≠ existing then saved.map fun held => held.patched merged
      else saved }

end

/-! ## 3. The archive replay -/

structure PageEdit extends IncomingEdit where
  sender : Utf16
deriving DecidableEq

/-- One message in a replay: its row in memory and the entries that `deletedMessages`,
    `editedMessages` and `pendingMessages` hold for it. -/
structure Track where
  memory : Option MessageRow
  deletion : Option Utf16
  edit : Option PageEdit
  pending : List MessageRow
deriving DecidableEq

def Track.start (copies : Copies) : Track := ⟨copies.memory, none, none, []⟩

def Track.message (sender content : Utf16) (track : Track) : Track :=
  { track with pending := track.pending ++ [⟨sender, content, false, false, none⟩] }

def Track.delete (sender : Utf16) (track : Track) : Track :=
  let senderNorm := client.toLowerCase sender
  match track.memory with
  | some known =>
    if mutationIsAuthorised client known senderNorm then
      { track with memory := some (known.deleted client), deletion := some senderNorm }
    else track
  -- the author is not known here: the claim is carried to the stored row
  | none => { track with deletion := some senderNorm }

/-- Whether the edit outranks the one gathered from an earlier entry. -/
def outranksGathered (edit : IncomingEdit) : Option PageEdit → Bool
  | none => true
  | some held => editSupersedes edit (some held.editedAt) held.content

def Track.editWith (sender : Utf16) (frame : EditFrame) (track : Track) : Track :=
  let senderNorm := client.toLowerCase sender
  let gathered := some { toIncomingEdit := frame.incoming, sender := senderNorm }
  if frame.newContent = [] then track
  else
    match track.memory with
    | some known =>
      if ¬ mutationIsAuthorised client known senderNorm then track
      else if known.isDeleted ∨ track.deletion.isSome then track
      else if ¬ outranksGathered frame.incoming track.edit then track
      else if ¬ editSupersedes frame.incoming known.editedAt known.content then track
      else { track with memory := some (known.edited frame.incoming), edit := gathered }
    | none =>
      if track.deletion.isSome then track
      else if ¬ outranksGathered frame.incoming track.edit then track
      else { track with edit := gathered }

/-- A row in memory takes its edit time from the bundle when it has none; a row that is not in
    memory is pending. -/
def Track.bundle (received : BundleRow) (track : Track) : Track :=
  { track with
    memory := track.memory.map fun row =>
      { row with editedAt := row.editedAt.or received.editedAt }
    pending :=
      if track.memory.isNone ∧ received.senderId ≠ [] ∧ received.content ≠ [] then
        track.pending ++ [{ received.toMessageRow with
          senderId := client.toLowerCase received.senderId }]
      else track.pending }

/-- The row saved for a pending message, which keeps the mutations of the row it replaces. -/
def toStore (previous : Option MessageRow) (pending : MessageRow) : MessageRow :=
  let isDeleted := previous.any isDeleted || pending.isDeleted
  { senderId := client.toLowerCase pending.senderId
    content :=
      if isDeleted then client.deletedText
      else match previous with
        | some row => if row.isEdited then row.content else pending.content
        | none => pending.content
    isDeleted
    isEdited := previous.any isEdited || pending.isEdited
    editedAt := (previous.bind editedAt).or pending.editedAt }

section

variable (readable : Bool) (stored : Option MessageRow)

/-- The batch write.  When the stored rows cannot be read there is nothing to keep. -/
def saveMessages (pending : List MessageRow) : Option MessageRow :=
  let existing := if readable then stored else none
  pending.foldl (fun _ row => some (toStore client existing row)) stored

/-- The pass over the stored rows after the batch write.  The author of a row is checked here;
    whether it is deleted, or carries a later edit, is not. -/
def mutateStored (deletion : Option Utf16) (edit : Option PageEdit) (row : MessageRow) :
    MessageRow :=
  if deletion.any (mutationIsAuthorised client row) then row.deleted client
  else
    match edit with
    | some gathered =>
      if mutationIsAuthorised client row gathered.sender then row.edited gathered.toIncomingEdit
      else row
    | none => row

def Track.finish (track : Track) : Copies where
  memory := track.memory
  stored := (saveMessages client readable stored track.pending).map
    (mutateStored client track.deletion track.edit)

end

inductive ReplayEvent where
  | message (id : MessageId) (sender content : Utf16)
  | delete (id : MessageId) (sender : Utf16)
  | edit (id : MessageId) (sender : Utf16) (frame : EditFrame)
  | bundle (rows : Bundle)
deriving DecidableEq

/-- The entry of a page for one message of the conversation. -/
def applyReplayEvent (replay : MessageId → Track) : ReplayEvent → MessageId → Track
  | .message id sender content => update replay id ((replay id).message sender content)
  | .delete id sender => update replay id ((replay id).delete client sender)
  | .edit id sender frame => update replay id ((replay id).editWith client sender frame)
  | .bundle rows => fun id =>
    match rows.get? id with
    | some received => (replay id).bundle client received
    | none => replay id

def replayHistory (readable : Bool) (page : List ReplayEvent) (device : Device) : Device :=
  let replay := page.foldl (applyReplayEvent client) fun id => Track.start (device id)
  fun id => (replay id).finish client readable (device id).stored

/-! ## 4. Steps -/

/-- `reconcile`, for a row of a page that is in memory already. -/
def reconcile (existing incoming : MessageRow) : MessageRow :=
  if client.isEnvelopeContent incoming.content && !client.isEnvelopeContent existing.content then
    { existing with content := incoming.content }
  else if client.isEnvelopeContent existing.content &&
      !client.isEnvelopeContent incoming.content then existing
  else incoming

def load (copies : Copies) : Copies :=
  { copies with
    memory := match copies.memory, copies.stored with
      | some existing, some incoming => some (reconcile client existing incoming)
      | none, stored => stored
      | held, none => held }

inductive Action where
  | liveDelete (id : MessageId) (sender : Utf16)
  | liveEdit (id : MessageId) (sender : Utf16) (frame : EditFrame)
  | liveBundle (rows : Bundle)
  | replay (readable : Bool) (page : List ReplayEvent)
  /-- A page of stored rows is rendered. -/
  | load (ids : List MessageId)
  /-- Rows leave memory. -/
  | unload (ids : List MessageId)
deriving DecidableEq

def step (device : Device) : Action → Option Device
  | .liveDelete id sender =>
    some (update device id (liveDelete client sender (device id)))
  | .liveEdit id sender frame =>
    some (update device id (liveEdit client sender frame (device id)))
  | .liveBundle rows => some fun id =>
    match rows.get? id with
    | some received => liveBundle client received (device id)
    | none => device id
  | .replay readable page => some (replayHistory client readable page device)
  | .load ids => some fun id => if id ∈ ids then load client (device id) else device id
  | .unload ids => some fun id => if id ∈ ids then { device id with memory := none } else device id

/-! ## 5. One message -/

/-- What an entry of a page does to one message. -/
def ReplayEvent.on (id : MessageId) (track : Track) : ReplayEvent → Track
  | .message target sender content =>
    if target = id then track.message sender content else track
  | .delete target sender => if target = id then track.delete client sender else track
  | .edit target sender frame => if target = id then track.editWith client sender frame else track
  | .bundle rows =>
    match rows.get? id with
    | some received => track.bundle client received
    | none => track

theorem applyReplayEvent_at (replay : MessageId → Track) (event : ReplayEvent) (id : MessageId) :
    applyReplayEvent client replay event id = event.on client id (replay id) := by
  cases event with
  | message target sender content | delete target sender | edit target sender frame =>
    by_cases htarget : target = id
    · simp [applyReplayEvent, ReplayEvent.on, htarget]
    · simp [applyReplayEvent, ReplayEvent.on, htarget, Ne.symm htarget]
  | bundle rows => rfl

/-- **A replay, message by message.** -/
theorem replayHistory_at (readable : Bool) (page : List ReplayEvent) (device : Device)
    (id : MessageId) :
    replayHistory client readable page device id =
      (page.foldl (ReplayEvent.on client id) (Track.start (device id))).finish client readable
        (device id).stored := by
  have hfold : ∀ replay : MessageId → Track, page.foldl (applyReplayEvent client) replay id =
        page.foldl (ReplayEvent.on client id) (replay id) := by
    induction page with
    | nil => exact fun _ => rfl
    | cons event rest ih =>
      intro replay
      rw [List.foldl_cons, ih, applyReplayEvent_at, List.foldl_cons]
  simp only [replayHistory, hfold]

/-- What a step does to one message. -/
def Action.on (id : MessageId) (copies : Copies) : Action → Copies
  | .liveDelete target sender =>
    if target = id then MessageMutations.liveDelete client sender copies else copies
  | .liveEdit target sender frame =>
    if target = id then MessageMutations.liveEdit client sender frame copies else copies
  | .liveBundle rows =>
    match rows.get? id with
    | some received => MessageMutations.liveBundle client received copies
    | none => copies
  | .replay readable page =>
    (page.foldl (ReplayEvent.on client id) (Track.start copies)).finish client readable
      copies.stored
  | .load ids => if id ∈ ids then MessageMutations.load client copies else copies
  | .unload ids => if id ∈ ids then { copies with memory := none } else copies

/-- **Nothing a step does to one message depends on another.** -/
theorem step_at {device next : Device} {action : Action} (h : step client device action = some next)
    (id : MessageId) : next id = action.on client id (device id) := by
  cases action with cases h
  | liveDelete target sender | liveEdit target sender frame =>
    by_cases htarget : target = id
    · simp [Action.on, htarget]
    · simp [Action.on, htarget, Ne.symm htarget]
  | liveBundle rows | load ids | unload ids =>
    rfl
  | replay readable page =>
    exact replayHistory_at client readable page device id

end Paths

/-! ## 6. A conversation with one message -/

/-- A client of one language, whose bodies are plain texts. -/
def plainClient : Client := ⟨id, fun _ => false, .ofChars ['d', 'e', 'l']⟩

def ada : Utf16 := .ofChars ['a', 'd', 'a']

def bob : Utf16 := .ofChars ['b', 'o', 'b']

def greeting : MessageId := ⟨.ofChars ['m', '1'], by decide⟩

def greetingRow : MessageRow := ⟨ada, .ofChars ['h', 'i'], false, false, none⟩

/-- An edit of the message, dated by its sender. -/
def editAt (time : Nat) (htime : 0 < time ∧ time ≤ 8640000000000000) (body : List Char) :
    EditFrame :=
  ⟨.ofChars body, some ⟨time, htime⟩, ⟨1, by decide⟩⟩

end MinesApp.MessageMutations
