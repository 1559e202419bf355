import MinesApp.MessageMutations

/-!
# What a live history bundle leaves of two versions of a message

The `history_bundle` case of `systemMessageHandler.ts` adds the messages of a bundle that are
not in memory, and merges what the bundle says of the others field by field: reactions pair by
pair, a deletion with the tombstone's text, the edit flag and the edit time where they are
missing.  Of the text of an edit it takes nothing.

The purpose of the exchange is that a message held in two versions ends as their join:
deleted if either is, and otherwise with the text and the edit time of the greater edit.  The
join is stated here beside the merge, and the theorem says for which pairs of versions the
merge computes it, in memory and in the store, and what two devices that send each other
their versions are left with.
-/

namespace MinesApp.BundleJoin

open JsString HistoryStateKey HistoryBundle List Function
open MessageReactions MessageMutations

/-! ## 1. Messages -/

/-- A message in memory or in the store: its row and what else a bundle moves. -/
structure Message extends MessageRow where
  serverTimestamp : Option Nat
  reactions : Option (List MessageReaction)
deriving DecidableEq

open Message

structure BundleMessage extends MessageRow where
  id : MessageId
  serverTimestamp : Option Nat
  reactions : List MessageReaction
deriving DecidableEq

/-- The copies of one message; `reactions` is its entry in the map `messageReactions`, which
    goes before what the message itself carries. -/
structure Copies where
  memory : Option Message
  reactions : Option (List MessageReaction)
  stored : Option Message
deriving DecidableEq

abbrev Conversation : Type := MessageId → Copies

def serializeForBundle (id : MessageId) (message : Message) : BundleMessage where
  toMessageRow := message.toMessageRow
  id := id
  serverTimestamp := message.serverTimestamp.filter (0 < ·)
  reactions := message.reactions.getD []

/-- `messageReactions.get(existing.id) ?? next.reactions ?? []`. -/
def heldReactions (known : Option (List MessageReaction)) (message : Message) :
    List MessageReaction :=
  (known.or message.reactions).getD []

/-! ## 2. Receiving a bundle -/

section

variable (client : Client)

def isFcmPreviewContent (content : Utf16) : Bool := !client.isEnvelopeContent content

/-- `shouldUpgradeMessage` for a message that the batch itself added, which is not flagged as
    a preview. -/
def shouldUpgradeMessage (existing : Message) (incomingContent : Utf16) : Bool :=
  client.isEnvelopeContent incomingContent && isFcmPreviewContent client existing.content

/-- One message of `batchAddMessages`.  A second entry for an id that the same batch has added
    may replace a preview, but it is only written to the store: the upgrades are applied to
    the messages that were in memory before. -/
def addMessage (received : BundleMessage) (copies : Copies) : Copies :=
  match copies.memory with
  | some existing =>
    if shouldUpgradeMessage client existing received.content then
      { copies with
        stored := some ⟨⟨existing.senderId, received.content, false, false, none⟩,
          received.serverTimestamp, none⟩ }
    else copies
  | none =>
    let row := (⟨received.toMessageRow, false⟩ : BundleRow).added client
    { copies with
      memory := some ⟨row, none, none⟩
      stored := some ⟨row, received.serverTimestamp, none⟩ }

section

variable (known : Option (List MessageReaction)) (existing : Message) (received : BundleMessage)

/-- The merged reactions, when the bundle brings any that are news. -/
def mergedReactions : Option (List MessageReaction) :=
  if received.reactions = [] then none
  else mergeReactions client.toLowerCase (heldReactions known existing) received.reactions

/-- A message in memory after the merge. -/
def Message.mergedWith : Message :=
  let news := mergedReactions client known existing received
  { toMessageRow := existing.toMessageRow.merged client ⟨received.toMessageRow, news.isSome⟩
    serverTimestamp := existing.serverTimestamp
    reactions := news.or existing.reactions }

end

/-- `updateMessage` with what the merge may have moved; the body goes with it on a deletion
    only. -/
def Message.patched (held merged : Message) (known : Option (List MessageReaction)) : Message where
  toMessageRow := held.toMessageRow.patched merged.toMessageRow
  serverTimestamp := merged.serverTimestamp.or held.serverTimestamp
  reactions := (known.or merged.reactions).or held.reactions

/-- The merge onto a message in memory, and the patch of its stored row when it changed. -/
def mergeMessage (received : BundleMessage) (copies : Copies) : Copies :=
  match copies.memory with
  | none => copies
  | some existing =>
    let news := mergedReactions client copies.reactions existing received
    let merged := existing.mergedWith client copies.reactions received
    let known := news.or copies.reactions
    { memory := some merged
      reactions := known
      stored :=
        if news.isSome ∨ merged.toMessageRow ≠ existing.toMessageRow then
          copies.stored.map fun held => held.patched merged known
        else copies.stored }

/-- `bundleById`: of two entries with one id the last counts. -/
def version (bundle : List BundleMessage) (id : MessageId) : Option BundleMessage :=
  (OrderedMap.ofPairs (bundle.map fun received => (received.id, received))).get? id

def ingest (bundle : List BundleMessage) (conversation : Conversation) : Conversation :=
  let toAdd := bundle.filter fun received => (conversation received.id).memory.isNone
  let added := toAdd.foldl (fun conversation received =>
    update conversation received.id
      (addMessage client received (conversation received.id))) conversation
  fun id =>
    match version bundle id with
    | none => added id
    | some received => mergeMessage client received (added id)

end

/-! ## 3. The join of two versions -/

/-- Whether the received version is an edit that supersedes what is held. -/
def supersedes (own received : MessageRow) : Bool :=
  match received.editedAt with
  | none => false
  | some time => editSupersedes ⟨time, received.content⟩ own.editedAt own.content

/-- The text and the edit time of the greater of two undeleted versions. -/
def greater (own received : MessageRow) : Utf16 × Option EditTime :=
  if supersedes own received then (received.content, received.editedAt)
  else (own.content, own.editedAt)

/-- A row that is the join of two versions. -/
structure IsJoin (client : Client) (own received row : MessageRow) : Prop where
  isDeleted : row.isDeleted = (own.isDeleted || received.isDeleted)
  tombstone : row.isDeleted = true → row.content = client.deletedText
  greater : row.isDeleted = false → (row.content, row.editedAt) = greater own received

/-- The merge computes the join of these versions: a tombstone that is held has the
    tombstone's text, and an edit that supersedes what is held only dates it. -/
def Mergeable (client : Client) (own received : MessageRow) : Prop :=
  (own.isDeleted = true → own.content = client.deletedText) ∧
    (own.isDeleted = false → received.isDeleted = false → supersedes own received = true →
      own.editedAt = none ∧ own.content = received.content)

section

variable {client : Client} {own received : MessageRow} {news : Bool}

theorem or_editedAt_of_dated (hdated : own.editedAt ≠ none ∨ received.editedAt = none) :
    own.editedAt.or received.editedAt = own.editedAt := by
  cases hown : own.editedAt with
  | some time => rfl
  | none =>
    rcases hdated with hdated | hundated
    · exact absurd hown hdated
    · rw [hundated]
      rfl

theorem not_supersedes_self (hcontent : own.content = received.content)
    (hdate : own.editedAt = received.editedAt) : supersedes own received = false := by
  cases hreceived : received.editedAt with
  | none => simp [supersedes, hreceived]
  | some time => simp [supersedes, hreceived, hdate, hcontent, editSupersedes]

/-- **The merge is the join exactly for mergeable versions.** -/
theorem isJoin_merged_iff :
    IsJoin client own received (own.merged client ⟨received, news⟩) ↔
      Mergeable client own received := by
  constructor
  · intro h
    constructor
    · intro hdeleted
      have htombstone := h.tombstone (by simp [MessageRow.merged, hdeleted])
      simpa [MessageRow.merged, hdeleted] using htombstone
    · intro hown hreceived hsupersedes
      have hgreater := h.greater (by simp [MessageRow.merged, hown, hreceived])
      simp only [greater, hsupersedes, if_true, MessageRow.merged, hown, hreceived,
        Bool.false_and, Bool.false_eq_true, if_false, Prod.mk.injEq] at hgreater
      obtain ⟨hcontent, hdate⟩ := hgreater
      refine ⟨?_, hcontent⟩
      cases hheld : own.editedAt with
      | none => rfl
      | some time =>
        rw [hheld] at hdate
        have hself := not_supersedes_self hcontent (hheld.trans hdate)
        cases hsupersedes.symm.trans hself
  · rintro ⟨htombstone, hedit⟩
    refine ⟨rfl, ?_, ?_⟩
    · intro hdeleted
      cases hown : own.isDeleted with
      | true => simpa [MessageRow.merged, hown] using htombstone hown
      | false =>
        have hreceived : received.isDeleted = true := by
          simpa [MessageRow.merged, hown] using hdeleted
        simp [MessageRow.merged, hown, hreceived]
    · intro hkept
      obtain ⟨hown, hreceived⟩ : own.isDeleted = false ∧ received.isDeleted = false := by
        simpa [MessageRow.merged] using hkept
      simp only [greater, MessageRow.merged, hown, hreceived, Bool.false_and,
        Bool.false_eq_true, if_false]
      cases hsupersedes : supersedes own received with
      | true =>
        obtain ⟨hundated, hcontent⟩ := hedit hown hreceived hsupersedes
        simp [hundated, hcontent]
      | false =>
        have hdated : own.editedAt ≠ none ∨ received.editedAt = none := by
          by_contra hneither
          obtain ⟨hundated, hdated⟩ := not_or.mp hneither
          obtain ⟨time, htime⟩ := Option.ne_none_iff_exists'.mp hdated
          simp [supersedes, htime, not_not.mp hundated, editSupersedes] at hsupersedes
        simp [or_editedAt_of_dated hdated]

/-- The patch writes what the merge left in memory over a row that was the same as there. -/
theorem patched_merged :
    own.patched (own.merged client ⟨received, news⟩) = own.merged client ⟨received, news⟩ := by
  obtain ⟨senderId, content, isDeleted, isEdited, editedAt⟩ := own
  cases isDeleted with
  | true => cases editedAt <;> simp [MessageRow.patched, MessageRow.merged]
  | false =>
    cases hreceived : received.isDeleted with
    | true | false => cases editedAt <;> simp [MessageRow.patched, MessageRow.merged, hreceived]

end

/-! ## 4. One message of a bundle -/

/-- The stored row says what memory says. -/
def Copies.Mirrored (copies : Copies) : Prop :=
  ∃ message stored : Message, copies.memory = some message ∧ copies.stored = some stored ∧
    stored.toMessageRow = message.toMessageRow ∧
    stored.reactions.getD [] = heldReactions copies.reactions message

section Messages

variable {client : Client} {copies : Copies} {own : Message} {received : BundleMessage}
  {bundle : List BundleMessage} {id : MessageId} {conversation : Conversation}

theorem memory_mergeMessage (hmemory : copies.memory = some own) :
    (mergeMessage client received copies).memory =
      some (own.mergedWith client copies.reactions received) := by
  simp only [mergeMessage, hmemory]

theorem reactions_mergeMessage (hmemory : copies.memory = some own) :
    (mergeMessage client received copies).reactions =
      (mergedReactions client copies.reactions own received).or copies.reactions := by
  simp only [mergeMessage, hmemory]

theorem mergedReactions_getD (known : Option (List MessageReaction)) (existing : Message)
    (received : BundleMessage) :
    (mergedReactions client known existing received).getD (heldReactions known existing) =
      (mergeReactions client.toLowerCase (heldReactions known existing)
        received.reactions).getD (heldReactions known existing) := by
  unfold mergedReactions
  split
  · next hempty =>
      rw [hempty]
      rfl
  · rfl

/-- What is held after the merge: the merged reactions, or those held before. -/
theorem heldReactions_mergedWith (known : Option (List MessageReaction)) (existing : Message)
    (received : BundleMessage) :
    heldReactions ((mergedReactions client known existing received).or known)
        (existing.mergedWith client known received) =
      (mergedReactions client known existing received).getD (heldReactions known existing) := by
  unfold mergedWith heldReactions
  cases mergedReactions client known existing received <;> rfl

theorem heldReactions_patched {known : Option (List MessageReaction)} {merged held : Message}
    (h : heldReactions known merged = held.reactions.getD [] ∨ (known.or merged.reactions).isSome) :
    (held.patched merged known).reactions.getD [] = heldReactions known merged := by
  unfold patched heldReactions at *
  cases hsome : known.or merged.reactions with
  | some reactions => rfl
  | none =>
    rw [hsome] at h
    rcases h with h | h
    · exact h.symm
    · cases h

theorem mirrored_mergeMessage (received : BundleMessage)
    (h : copies.Mirrored) : (mergeMessage client received copies).Mirrored := by
  obtain ⟨own, stored, hmemory, hstored, hrow, hreactions⟩ := h
  have hheld : heldReactions _ (own.mergedWith client copies.reactions received) = _ :=
    heldReactions_mergedWith copies.reactions own received
  simp only [mergeMessage, hmemory, hstored, Option.map_some]
  by_cases hchanged : (mergedReactions client copies.reactions own received).isSome ∨
      (own.mergedWith client copies.reactions received).toMessageRow ≠ own.toMessageRow
  · rw [if_pos hchanged]
    refine ⟨_, _, rfl, rfl, ?_, ?_⟩
    · change stored.toMessageRow.patched _ = _
      rw [hrow]
      exact patched_merged
    · apply heldReactions_patched
      rw [hheld]
      cases hnews : mergedReactions client copies.reactions own received with
      | some reactions => exact .inr rfl
      | none => exact .inl hreactions.symm
  · rw [if_neg hchanged]
    obtain ⟨hnone, hsame⟩ := not_or.mp hchanged
    refine ⟨_, _, rfl, rfl, ?_, ?_⟩
    · rw [not_not.mp hsame, hrow]
    · rw [hheld, Option.not_isSome_iff_eq_none.mp hnone, hreactions]
      rfl

/-! ## 5. A whole bundle -/

theorem version_eq_some (h : version bundle id = some received) :
    received ∈ bundle ∧ received.id = id := by
  obtain ⟨entry, hentry, hpair⟩ := mem_map.mp (OrderedMap.mem_of_get?_ofPairs h)
  obtain ⟨hid, hreceived⟩ := Prod.mk.inj hpair
  rw [← hreceived]
  exact ⟨hentry, hid⟩

theorem foldl_addMessage_at (toAdd : List BundleMessage) (conversation : Conversation)
    (id : MessageId) :
    toAdd.foldl (fun conversation received =>
      update conversation received.id
        (addMessage client received (conversation received.id))) conversation id =
      (toAdd.filter (·.id = id)).foldl (fun copies received => addMessage client received copies)
        (conversation id) := by
  induction toAdd generalizing conversation with
  | nil => rfl
  | cons received rest ih =>
    rw [foldl_cons, ih]
    by_cases hid : received.id = id
    · rw [filter_cons_of_pos (by simpa using hid), foldl_cons, ← hid, update_self]
    · rw [filter_cons_of_neg (by simpa using hid), update_of_ne (Ne.symm hid)]

/-- What a bundle does to one message: its entries are added when it is not in memory, and
    the last of them is merged. -/
theorem ingest_at (conversation : Conversation) (bundle : List BundleMessage) (id : MessageId) :
    ingest client bundle conversation id =
      let added :=
        if (conversation id).memory.isNone then
          (bundle.filter (·.id = id)).foldl
            (fun copies received => addMessage client received copies) (conversation id)
        else conversation id
      match version bundle id with
      | none => added
      | some received => mergeMessage client received added := by
  simp only [ingest, foldl_addMessage_at, filter_filter]
  have hentries : bundle.filter (fun received =>
      decide (received.id = id) && (conversation received.id).memory.isNone) =
      bundle.filter fun received =>
        decide (received.id = id) && (conversation id).memory.isNone := by
    apply filter_congr
    intro received _
    by_cases hid : received.id = id
    · rw [hid]
    · simp [hid]
  rw [hentries]
  cases (conversation id).memory.isNone with
  | true | false => simp

theorem ingest_held (hmemory : (conversation id).memory = some own)
    (hversion : version bundle id = some received) :
    ingest client bundle conversation id = mergeMessage client received (conversation id) := by
  rw [ingest_at, hversion, hmemory]
  rfl

theorem ingest_unloaded (hmemory : (conversation id).memory = none)
    (hversion : version bundle id = some received) (stored : Option Message) :
    ingest client bundle (update conversation id { conversation id with stored := stored }) id =
      ingest client bundle conversation id := by
  obtain ⟨hmem, hid⟩ := version_eq_some hversion
  have hentry : received ∈ bundle.filter (·.id = id) := mem_filter.mpr ⟨hmem, by simpa⟩
  rw [ingest_at, ingest_at, hversion, update_self, hmemory]
  simp only [Option.isNone_none, if_true]
  cases hentries : bundle.filter (·.id = id) with
  | nil =>
    rw [hentries] at hentry
    cases hentry
  | cons first rest =>
    -- the first entry writes both copies, whatever the store held
    simp only [foldl_cons, addMessage, hmemory]

/-- The rows of the copies, as the paths that change them see them. -/
def Copies.rows (copies : Copies) : MessageMutations.Copies :=
  ⟨copies.memory.map toMessageRow, copies.stored.map toMessageRow⟩

theorem rows_mergeMessage (hmemory : copies.memory = some own) (received : BundleMessage) :
    (mergeMessage client received copies).rows = liveBundle client
        ⟨received.toMessageRow, (mergedReactions client copies.reactions own received).isSome⟩
        copies.rows := by
  simp only [Copies.rows, mergeMessage, liveBundle, hmemory, Option.map_some, Option.getD_some,
    Option.isNone_some, Bool.false_eq_true, if_false]
  rw [apply_ite (Option.map toMessageRow), Option.map_map, Option.map_map]
  rfl

theorem liveBundle_addMessage (hmemory : copies.memory = none) {newReactions : Bool} :
    liveBundle client ⟨received.toMessageRow, newReactions⟩
        (addMessage client received copies).rows =
      liveBundle client ⟨received.toMessageRow, newReactions⟩ copies.rows := by
  simp only [liveBundle, Copies.rows, addMessage, hmemory]
  rfl

/-- **On the rows, a bundle is the bundle action of the paths that change a message.** -/
theorem rows_ingest (hnodup : (bundle.map BundleMessage.id).Nodup)
    (hversion : version bundle id = some received) :
    ∃ newReactions, (ingest client bundle conversation id).rows =
      liveBundle client ⟨received.toMessageRow, newReactions⟩ (conversation id).rows := by
  cases hmemory : (conversation id).memory with
  | some own =>
    rw [ingest_held hmemory hversion]
    exact ⟨_, rows_mergeMessage hmemory received⟩
  | none =>
    obtain ⟨hmem, hid⟩ := version_eq_some hversion
    have hentries : bundle.filter (·.id = id) = [received] := by
      apply perm_singleton.mp
      apply (perm_ext_iff_of_nodup (hnodup.of_map.filter _) (nodup_singleton _)).mpr
      intro entry
      rw [mem_filter, mem_singleton, decide_eq_true_iff]
      constructor
      · rintro ⟨hentry, hsame⟩
        exact inj_on_of_nodup_map hnodup hentry hmem (hsame.trans hid.symm)
      · intro hentry
        rw [hentry]
        exact ⟨hmem, hid⟩
    rw [ingest_at, hversion, hmemory, hentries]
    simp only [Option.isNone_none, if_true, foldl_cons, foldl_nil]
    have hadded : (addMessage client received (conversation id)).memory =
        some ⟨(⟨received.toMessageRow, false⟩ : BundleRow).added client, none, none⟩ := by
      simp only [addMessage, hmemory]
    rw [rows_mergeMessage hadded received, liveBundle_addMessage hmemory]
    exact ⟨_, rfl⟩

end Messages

/-! ## 6. Two devices -/

/-- The body that a device shows of a message: whether it is deleted, and its text. -/
def Copies.body (copies : Copies) : Option (Bool × Utf16) :=
  copies.memory.map fun message => (message.isDeleted, message.content)

/-- Two devices come to the same body: they agreed on it, or the tombstone that one of them
    held reads as those of the other do. -/
structure Agreed (here there : Client) (own other : MessageRow) : Prop where
  alike : own.isDeleted = other.isDeleted → own.content = other.content
  deletedHere : own.isDeleted = true → other.isDeleted = false → own.content = there.deletedText
  deletedThere : own.isDeleted = false → other.isDeleted = true → other.content = here.deletedText

theorem body_mergeMessage {client : Client} {copies : Copies} {own : Message}
    (hmemory : copies.memory = some own) (received : BundleMessage) :
    (mergeMessage client received copies).body = some (own.isDeleted || received.isDeleted,
        if received.isDeleted && !own.isDeleted then client.deletedText else own.content) := by
  rw [Copies.body, memory_mergeMessage hmemory]
  rfl

/-- The versions that pass are the two rows, or the second is one in which the first is
    merged already. -/
theorem agreed_iff {here there : Client} {own other sent : MessageRow}
    (hsent : sent.isDeleted = other.isDeleted ∨
      sent.isDeleted = (other.isDeleted || own.isDeleted)) :
    (some (own.isDeleted || sent.isDeleted,
        if sent.isDeleted && !own.isDeleted then here.deletedText else own.content) =
      some (other.isDeleted || own.isDeleted,
        if own.isDeleted && !other.isDeleted then there.deletedText else other.content)) ↔
      Agreed here there own other := by
  have hsame : (sent.isDeleted && !own.isDeleted) = (other.isDeleted && !own.isDeleted) := by
    rcases hsent with hsent | hsent
    · rw [hsent]
    · rw [hsent]
      cases own.isDeleted <;> simp
  have hflag : (own.isDeleted || sent.isDeleted) = (other.isDeleted || own.isDeleted) := by
    rcases hsent with hsent | hsent
    · rw [hsent, Bool.or_comm]
    · rw [hsent]
      cases own.isDeleted <;> simp
  rw [hsame, hflag]
  constructor
  · intro h
    have htext := (Prod.mk.inj (Option.some.inj h)).2
    refine ⟨?_, ?_, ?_⟩
    · intro hboth
      simpa [hboth] using htext
    · intro hown hother
      simpa [hown, hother] using htext
    · intro hown hother
      rw [hown, hother] at htext
      exact htext.symm
  · rintro ⟨hboth, hown, hother⟩
    congr 2
    cases hleft : own.isDeleted with
    | true =>
      cases hright : other.isDeleted with
      | true => simpa using hboth (hleft.trans hright.symm)
      | false => simpa using hown hleft hright
    | false =>
      cases hright : other.isDeleted with
      | true => simpa using (hother hleft hright).symm
      | false => simpa using hboth (hleft.trans hright.symm)

/-- **A live bundle and the join of two versions.**  A message that the device holds and the
    bundle carries has the merged reactions afterwards, and its row is the join of the two
    versions exactly when they are mergeable; a store that agreed with memory still does.  A
    row that is only in the store does not count: whatever it said, the bundle leaves the same.
    Two devices that send each other their versions, at once or one in answer to the other,
    show the same body exactly when they agreed on it before, or one of them held a tombstone
    that reads as the other's do. -/
theorem bundle_join_iff (client : Client) (conversation : Conversation)
    (bundle : List BundleMessage) (id : MessageId) :
    (∀ (own : Message) (received : BundleMessage),
      (conversation id).memory = some own → version bundle id = some received →
      ∃ message, (ingest client bundle conversation id).memory = some message ∧
        heldReactions (ingest client bundle conversation id).reactions message =
          (mergeReactions client.toLowerCase (heldReactions (conversation id).reactions own)
            received.reactions).getD (heldReactions (conversation id).reactions own) ∧
        (IsJoin client own.toMessageRow received.toMessageRow message.toMessageRow ↔
          Mergeable client own.toMessageRow received.toMessageRow) ∧
        ((conversation id).Mirrored → (ingest client bundle conversation id).Mirrored)) ∧
    (∀ (received : BundleMessage) (stored : Option Message),
      (conversation id).memory = none → version bundle id = some received →
      ingest client bundle (update conversation id { conversation id with stored := stored }) id =
        ingest client bundle conversation id) ∧
    ∀ (there : Client) (second : Conversation) (toSecond : List BundleMessage)
      (own other sent : Message),
      (conversation id).memory = some own → (second id).memory = some other →
      version toSecond id = some (serializeForBundle id own) →
      version bundle id = some (serializeForBundle id sent) →
      sent = other ∨ (ingest there toSecond second id).memory = some sent →
      ((ingest client bundle conversation id).body = (ingest there toSecond second id).body ↔
        Agreed client there own.toMessageRow other.toMessageRow) := by
  refine ⟨?_, ?_, ?_⟩
  · intro own received hmemory hversion
    rw [ingest_held hmemory hversion, memory_mergeMessage hmemory]
    refine ⟨_, rfl, ?_, isJoin_merged_iff, ?_⟩
    · rw [reactions_mergeMessage hmemory, heldReactions_mergedWith, mergedReactions_getD]
    · exact mirrored_mergeMessage received
  · intro received stored hmemory hversion
    exact ingest_unloaded hmemory hversion stored
  · intro there second toSecond own other sent hown hother hsecond hfirst hsent
    rw [ingest_held hother hsecond] at hsent ⊢
    rw [ingest_held hown hfirst, body_mergeMessage hown, body_mergeMessage hother]
    apply agreed_iff
    rcases hsent with hsent | hsent
    · rw [hsent]
      exact .inl rfl
    · rw [memory_mergeMessage hother, Option.some.injEq] at hsent
      exact .inr (by rw [← hsent]; rfl)

def plain (row : MessageRow) : Message := ⟨row, none, none⟩

/-- A conversation with one message, which is stored, and in memory or not. -/
def holding (loaded : Bool) (row : MessageRow) : Conversation := fun id =>
  if id = greeting then ⟨if loaded then some (plain row) else none, none, some (plain row)⟩
  else ⟨none, none, none⟩

def bundleOf (row : MessageRow) : List BundleMessage := [serializeForBundle greeting (plain row)]

def deletedRow : MessageRow := greetingRow.deleted plainClient

/-- The greeting in the version of a device that has seen it edited. -/
def editedRow : MessageRow :=
  greetingRow.edited ⟨⟨5, by decide⟩, .ofChars ['h', 'e', 'l', 'l', 'o']⟩

theorem rows_ingest_edited : ∃ newReactions,
    (ingest plainClient (bundleOf editedRow) (holding true greetingRow) greeting).rows =
      liveBundle plainClient ⟨editedRow, newReactions⟩ (holding true greetingRow greeting).rows :=
  rows_ingest (by decide) (rfl : version (bundleOf editedRow) greeting = some _)

/-- One device holds the greeting and the other its tombstone. -/
theorem bundle_join_iff_deletion :
    (∃ message, (ingest plainClient (bundleOf deletedRow) (holding true greetingRow)
        greeting).memory = some message ∧
      IsJoin plainClient greetingRow deletedRow message.toMessageRow) ∧
    (ingest plainClient (bundleOf deletedRow) (holding true greetingRow) greeting).body =
      (ingest plainClient (bundleOf greetingRow) (holding true deletedRow) greeting).body := by
  constructor
  · obtain ⟨message, hmemory, _, hjoin, _⟩ := (bundle_join_iff plainClient
      (holding true greetingRow) (bundleOf deletedRow) greeting).1 (plain greetingRow)
      (serializeForBundle greeting (plain deletedRow)) (by decide) (by decide)
    refine ⟨message, hmemory, hjoin.mpr ?_⟩
    constructor
    · intro hdeleted
      cases hdeleted
    · intro _ hkept
      cases hkept
  · apply ((bundle_join_iff plainClient (holding true greetingRow) (bundleOf deletedRow)
      greeting).2.2 plainClient (holding true deletedRow) (bundleOf greetingRow)
      (plain greetingRow) (plain deletedRow) (plain deletedRow) (by decide)
      (by decide) (by decide) (by decide) (.inl rfl)).mpr
    refine ⟨?_, ?_, ?_⟩
    · intro halike
      cases halike
    · intro hdeleted
      cases hdeleted
    · intro _ _
      rfl

/-- A device that holds the greeting as it was sent receives the version edited at 5, which
    supersedes it: it dates its own text with the edit, in memory and in the store, and the
    device that sent the edit keeps the other text.  And a tombstone that is not in memory is
    written over by the undeleted version. -/
theorem text_of_edit_not_taken :
    supersedes greetingRow editedRow = true ∧
    ingest plainClient (bundleOf editedRow) (holding true greetingRow) greeting =
      (let row : MessageRow := { editedRow with content := greetingRow.content }
       ⟨some (plain row), none, some (plain row)⟩) ∧
    (ingest plainClient (bundleOf greetingRow) (holding true editedRow) greeting).body =
      some (false, editedRow.content) ∧
    ingest plainClient (bundleOf greetingRow) (holding false deletedRow) greeting =
      ⟨some (plain greetingRow), none, some (plain greetingRow)⟩ := by
  decide

end MinesApp.BundleJoin
