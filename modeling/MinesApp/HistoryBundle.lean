import MinesApp.HistoryStateKey

/-!
# History bundles

A device answers a peer with the messages it is short of, in bundles, and a device that
receives a bundle adds what it does not hold and merges the mutation state of what it
does (`sendHistoryBundleForIds` in `groupActions.ts`, the `history_bundle` case of
`systemMessageHandler.ts` and `batchAddMessages` in `useMessaging.svelte.ts`).

A device keeps its messages in a store keyed by id, and holds only the pages the reader
has scrolled through in memory.  What the receiver of a bundle takes for a message it
already holds is what is in memory: a message that is stored but not loaded is written
again as a new one.
-/

namespace MinesApp.HistoryBundle

open JsString HistoryManifest MessageReactions List OrderedMap
open HistoryStateKey BiasedMerge

/-! ## 1. Devices -/

/-- Ids are stored as `normalizeMessageId` returns them: trimmed and not empty. -/
abbrev MessageId : Type := {id : Utf16 // id ≠ [] ∧ id.trim = id}

/-- A stored message, and whether the conversation in memory holds it. -/
structure Row (toLowerCase : Utf16 → Utf16) where
  body : MessageBody toLowerCase
  loaded : Bool
deriving DecidableEq

abbrev Device (toLowerCase : Utf16 → Utf16) : Type := OrderedMap MessageId (Row toLowerCase)

structure BundleMessage (toLowerCase : Utf16 → Utf16) where
  id : MessageId
  body : MessageBody toLowerCase
deriving DecidableEq

section Bundles

variable {toLowerCase : Utf16 → Utf16}

/-- The rows of the conversation.  Nothing below reads their order. -/
def getMessages (device : Device toLowerCase) : List (StoredMessage toLowerCase) :=
  device.entries.map fun entry => ⟨entry.1.1, entry.2.body⟩

def readHistoryEntries (device : Device toLowerCase) : List HistoryEntry :=
  (getMessages device).map fun message => ⟨message.id, message.body.timestamp⟩

/-! ## 2. Sending -/

def bundleChunkSize : Nat := 200

/-- The frames sent for `ids`, clipped to the window of the device that asked. -/
def sendHistoryBundleForIds (device : Device toLowerCase) (ids : List Utf16) (since : Nat) :
    List (List (BundleMessage toLowerCase)) :=
  let matching := device.entries.filter fun entry => entry.1.1 ∈ ids
  let selected := matching.filter fun entry =>
    isWithinHistoryRange entry.2.body.timestamp since
  chunkIds (selected.map fun entry => ⟨entry.1, entry.2.body⟩) bundleChunkSize

/-! ## 3. Receiving -/

/-- `new Date(timestamp).getTime()`, for a number read back from a frame. -/
def dateTime : Option Int → Option Int
  | some timestamp => if timestamp.natAbs ≤ 8640000000000000 then some timestamp else none
  | none => some 0

def resolveMessageTimestamp (timestamp : Option Int) (now : Nat) : Int :=
  match dateTime timestamp with
  | some time => if 0 < time then time else now
  | none => now

section

variable (tombstone : Utf16) (now : Nat) (device : Device toLowerCase)

/-- The row `batchAddMessages` writes: the add path carries no mutation state. -/
def addedRow (received : MessageBody toLowerCase) : Row toLowerCase where
  body :=
    { isDeleted := false
      isEdited := false
      editedAt := none
      reactions := .empty
      senderId := toLowerCase received.senderId
      content := received.content
      timestamp := some (resolveMessageTimestamp received.timestamp now)
      serverTimestamp := received.serverTimestamp }
  loaded := true

/-- The merge of what a bundle carries onto a message in memory.  A deletion replaces
    the body. -/
def mergeRow (row : Row toLowerCase) (received : MessageBody toLowerCase) : Row toLowerCase :=
  { row with
    body :=
      { row.body with
        toMutationState := row.body.toMutationState.merge received.toMutationState
        content :=
          if received.isDeleted && !row.body.isDeleted then tombstone else row.body.content } }

def isLoaded (id : MessageId) : Bool :=
  match device.get? id with
  | some row => row.loaded
  | none => false

/-- Receiving one frame: `toAdd`, the write of what is new, and the merge onto everything
    in memory. -/
def ingest (frame : List (BundleMessage toLowerCase)) : Device toLowerCase :=
  let toAdd := frame.filter fun message => !isLoaded device message.id
  let added := toAdd.foldl (fun device message =>
    device.set message.id (addedRow now message.body)) device
  let bundleById := ofPairs (frame.map fun message => (message.id, message.body))
  added.mapEntries fun id row =>
    if row.loaded then
      match bundleById.get? id with
      | some received => mergeRow tombstone row received
      | none => row
    else row

end

/-! ## 4. What a frame does to one message -/

/-- The row of a message that a bundle carried. -/
def receive (tombstone : Utf16) (now : Nat) (own : Option (Row toLowerCase))
    (received : MessageBody toLowerCase) : Row toLowerCase :=
  match own with
  | some row =>
    if row.loaded then mergeRow tombstone row received
    else mergeRow tombstone (addedRow now received) received
  | none => mergeRow tombstone (addedRow now received) received

def pairsOf (messages : List (BundleMessage toLowerCase)) :
    List (MessageId × MessageBody toLowerCase) :=
  messages.map fun message => (message.id, message.body)

variable (tombstone : Utf16) (now : Nat)

/-- One message: received if the bundle carries it, untouched otherwise. -/
def deliver (own : Option (Row toLowerCase)) (carried : Option (MessageBody toLowerCase)) :
    Option (Row toLowerCase) :=
  match carried with
  | some received => some (receive tombstone now own received)
  | none => own

theorem keys_pairsOf (messages : List (BundleMessage toLowerCase)) :
    (pairsOf messages).map Prod.fst = messages.map BundleMessage.id := by
  rw [pairsOf, map_map]
  rfl

section

variable (device : Device toLowerCase)

section

variable {frame : List (BundleMessage toLowerCase)}

theorem get?_added (hnodup : (frame.map BundleMessage.id).Nodup) (id : MessageId) :
    ((frame.filter fun message => !isLoaded device message.id).foldl (fun device message =>
      device.set message.id (addedRow now message.body)) device).get? id =
      if isLoaded device id then device.get? id
      else ((OrderedMap.lookup id (pairsOf frame)).map (addedRow now)).or (device.get? id) := by
  have hfold : ∀ (messages : List (BundleMessage toLowerCase)) (start : Device toLowerCase),
      messages.foldl (fun device message =>
        device.set message.id (addedRow now message.body)) start =
      ((pairsOf messages).map fun entry => (entry.1, addedRow now entry.2)).foldl
        (fun table pair => table.set pair.1 pair.2) start := by
    intro messages start
    rw [pairsOf, map_map, foldl_map]
    rfl
  have hfilter : pairsOf (frame.filter fun message => !isLoaded device message.id) =
      (pairsOf frame).filter fun entry => !isLoaded device entry.1 := by
    rw [pairsOf, pairsOf, filter_map]
    rfl
  have hkeys : (((pairsOf (frame.filter fun message => !isLoaded device message.id)).map
      fun entry => (entry.1, addedRow now entry.2)).map Prod.fst).Nodup := by
    rw [map_map]
    change ((pairsOf _).map Prod.fst).Nodup
    rw [keys_pairsOf]
    exact hnodup.sublist (filter_sublist.map _)
  rw [hfold, get?_foldl_set hkeys, hfilter, lookup_mapEntries (fun _ => addedRow now),
    lookup_filter (fun id => !isLoaded device id)]
  cases isLoaded device id with
  | true | false => rfl

/-- **A frame, message by message.** -/
theorem get?_ingest (hnodup : (frame.map BundleMessage.id).Nodup) (id : MessageId) :
    (ingest tombstone now device frame).get? id =
      deliver tombstone now (device.get? id) (OrderedMap.lookup id (pairsOf frame)) := by
  have hbundle : (ofPairs (pairsOf frame)).get? id = OrderedMap.lookup id (pairsOf frame) := by
    refine get?_ofPairs ?_ id
    rw [keys_pairsOf]
    exact hnodup
  simp only [ingest]
  rw [get?_mapEntries, get?_added now device hnodup]
  change Option.map (fun row => if row.loaded = true then
    match (ofPairs (pairsOf frame)).get? id with
    | some received => mergeRow tombstone row received
    | none => row else row) _ = _
  rw [hbundle]
  cases hrow : device.get? id with
  | none =>
    cases OrderedMap.lookup id (pairsOf frame) with
    | none => simp [isLoaded, hrow, deliver]
    | some received => simp [isLoaded, hrow, deliver, receive, addedRow]
  | some row =>
    cases hloaded : row.loaded with
    | true | false =>
      cases OrderedMap.lookup id (pairsOf frame) with
      | none => simp [isLoaded, hrow, hloaded, deliver]
      | some received => simp [isLoaded, hrow, hloaded, deliver, receive, addedRow]

end

/-- Frames that share no message can be read as one. -/
theorem get?_ingest_frames {frames : List (List (BundleMessage toLowerCase))}
    (hnodup : (frames.flatten.map BundleMessage.id).Nodup) (id : MessageId) :
    (frames.foldl (ingest tombstone now) device).get? id =
      deliver tombstone now (device.get? id) (OrderedMap.lookup id (pairsOf frames.flatten)) := by
  induction frames generalizing device with
  | nil => rfl
  | cons frame rest ih =>
    rw [flatten_cons, map_append, nodup_append] at hnodup
    obtain ⟨hframe, hrest, hdisjoint⟩ := hnodup
    have hsplit : pairsOf (frame :: rest).flatten = pairsOf frame ++ pairsOf rest.flatten := by
      rw [pairsOf, flatten_cons, map_append]
      rfl
    rw [foldl_cons, ih _ hrest, get?_ingest tombstone now device hframe, hsplit,
      OrderedMap.lookup_append]
    cases hfound : OrderedMap.lookup id (pairsOf frame) with
    | none => rfl
    | some received =>
      -- no later frame carries the message again
      have habsent : OrderedMap.lookup id (pairsOf rest.flatten) = none := by
        rw [lookup_eq_none, keys_pairsOf]
        intro hlater
        have hearlier : id ∈ frame.map BundleMessage.id := by
          rw [← keys_pairsOf]
          exact mem_map.mpr ⟨_, mem_of_lookup hfound, rfl⟩
        exact hdisjoint id hearlier id hlater rfl
      rw [habsent]
      rfl

end

/-! ## 5. What a bundle does to one message -/

/-- What a device sends of a message when it is asked for `ids`. -/
def offer (ids : List Utf16) (since : Nat) (id : MessageId) (row : Row toLowerCase) :
    Option (MessageBody toLowerCase) :=
  if id.1 ∈ ids ∧ isWithinHistoryRange row.body.timestamp since then some row.body else none

theorem pairsOf_bundle (device : Device toLowerCase) (ids : List Utf16) (since : Nat) :
    pairsOf (sendHistoryBundleForIds device ids since).flatten =
      device.collect (offer ids since) := by
  have hsize : 0 < bundleChunkSize := by decide
  simp only [sendHistoryBundleForIds]
  rw [flatten_chunkIds _ hsize, filter_filter, pairsOf, map_map, collect]
  rw [← filterMap_eq_map, filterMap_filter]
  refine filterMap_congr fun entry _ => ?_
  by_cases hids : entry.1.1 ∈ ids
  · by_cases hwithin : isWithinHistoryRange entry.2.body.timestamp since = true
    all_goals simp [offer, hids, hwithin]
  · simp [offer, hids]

/-- **A bundle, message by message.** -/
theorem get?_bundle (sender receiver : Device toLowerCase) (ids : List Utf16) (since : Nat)
    (id : MessageId) :
    ((sendHistoryBundleForIds sender ids since).foldl (ingest tombstone now) receiver).get? id =
      deliver tombstone now (receiver.get? id) ((sender.get? id).bind (offer ids since id)) := by
  have hnodup :
      ((sendHistoryBundleForIds sender ids since).flatten.map BundleMessage.id).Nodup := by
    rw [← keys_pairsOf, pairsOf_bundle]
    exact nodup_collect _ _
  rw [get?_ingest_frames tombstone now receiver hnodup, pairsOf_bundle, lookup_collect]

/-! ## 6. Received rows -/

def Row.within (since : Nat) (row : Row toLowerCase) : Bool :=
  isWithinHistoryRange row.body.timestamp since

def Row.view (row : Row toLowerCase) : MutationView := row.body.toMutationState.view

/-- No copy in memory: the add path writes the message. -/
def Unloaded (own : Option (Row toLowerCase)) : Prop := ∀ row, own = some row → row.loaded = false

variable {tombstone now} {own : Option (Row toLowerCase)}

theorem receive_loaded {row : Row toLowerCase} (h : row.loaded = true)
    (received : MessageBody toLowerCase) :
    receive tombstone now (some row) received = mergeRow tombstone row received :=
  if_pos h

theorem receive_unloaded (h : Unloaded own) (received : MessageBody toLowerCase) :
    receive tombstone now own received = mergeRow tombstone (addedRow now received) received := by
  cases own with
  | none => rfl
  | some row => exact if_neg (Bool.eq_false_iff.mp (h row rfl))

theorem loaded_receive (own : Option (Row toLowerCase)) (received : MessageBody toLowerCase) :
    (receive tombstone now own received).loaded = true := by
  by_cases h : Unloaded own
  · rw [receive_unloaded h]
    rfl
  · obtain ⟨row, hrow⟩ := not_forall.mp h
    obtain ⟨rfl, hloaded⟩ := Classical.not_imp.mp hrow
    have hrowLoaded := (Bool.not_eq_false _).mp hloaded
    rw [receive_loaded hrowLoaded]
    exact hrowLoaded

theorem view_mergeRow (row : Row toLowerCase) (received : MessageBody toLowerCase) :
    (mergeRow tombstone row received).view = mergeView row.view received.toMutationState.view :=
  MutationState.view_merge _ _

/-- A copy has the state it was sent with. -/
theorem view_receive_unloaded (h : Unloaded own) (received : MessageBody toLowerCase) :
    (receive tombstone now own received).view = received.toMutationState.view := by
  rw [receive_unloaded h, view_mergeRow]
  refine Prod.ext (Bool.false_or _) (Prod.ext (Bool.false_or _) (Prod.ext Option.none_or ?_))
  exact funext fun key => none_latest stamp _

/-- A copy of a message of the window is in the window, even when its date has to be made
    up. -/
theorem within_receive_unloaded (h : Unloaded own) {since : Nat} (hnow : since ≤ now)
    {received : MessageBody toLowerCase}
    (hwithin : isWithinHistoryRange received.timestamp since = true) :
    (receive tombstone now own received).within since = true := by
  rw [receive_unloaded h]
  change decide ((since : Int) ≤ resolveMessageTimestamp received.timestamp now) = true
  rw [decide_eq_true_eq, resolveMessageTimestamp]
  cases htime : received.timestamp with
  | none => simpa [dateTime] using hnow
  | some timestamp =>
    rw [htime] at hwithin
    have hsince : (since : Int) ≤ timestamp := of_decide_eq_true hwithin
    by_cases hvalid : timestamp.natAbs ≤ 8640000000000000
    · simp only [dateTime, if_pos hvalid]
      split
      · exact hsince
      · omega
    · simp only [dateTime, if_neg hvalid]
      omega

end Bundles

end MinesApp.HistoryBundle
