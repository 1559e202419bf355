import MinesApp.MessageCopies

/-!
# Reconciling two devices

When the state keys of two devices differ, the one that asked describes its store with a
digest.  The other answers it (`answerHistoryDigest` in `historyDiffAnswer.ts`): it sends
what the asker is short of, and pulls what it is short of itself.  The asker receives
the bundle before it reads the pull, since one sender's frames arrive in order.

The key covers the mutation state of every message and the digest covers ids only, so
what an exchange repairs depends on which messages it happens to carry.  The main
theorem says for which pairs of stores the keys agree afterwards.
-/

namespace MinesApp.HistoryReconciliation

open JsString HistoryManifest MessageReactions List OrderedMap
open HistoryStateKey HistoryBundle BiasedMerge
open MessageCopies SliceExchange

/-! ## 1. One solicitation -/

/-- A pull names messages, or slices of the id space and the depth they were cut at. -/
inductive Pull where
  | ids (ids : List Utf16)
  | slices (prefixes : List Utf16) (depth : Nat)
deriving DecidableEq, Repr

def maxIdsPerPull : Nat := 500

def sendHistoryPull (ids prefixes : List Utf16) (depth : Option Nat) : List Pull :=
  if ids.length > 0 then (chunkIds ids maxIdsPerPull).map .ids
  else
    match depth with
    | some depth => if prefixes.length > 0 ∧ depth ≠ 0 then [.slices prefixes depth] else []
    | none => []

structure Answer (toLowerCase : Utf16 → Utf16) where
  bundle : List (List (BundleMessage toLowerCase))
  pulls : List Pull

section Exchange

variable {toLowerCase : Utf16 → Utf16}

/-- The diff is taken over the whole store; the answer is clipped to the asker's window,
    and the pull states the window of the device that sends it.  Both devices have the
    window that opens at `since`. -/
def answerHistoryDigest (crypto : Crypto) (answerer : Device toLowerCase) (digest : HistoryDigest)
    (since : Nat) : Answer toLowerCase :=
  let entries := readHistoryEntries answerer
  let diff := diffHistoryDigest crypto entries digest
  { bundle := sendHistoryBundleForIds answerer (idsToPush entries digest diff) since
    pulls :=
      match digest with
      | .ids _ => sendHistoryPull diff.missingLocally diff.pullPrefixes none
      | .range depth _ => sendHistoryPull [] diff.pullPrefixes (some depth) }

/-- The `history_pull` case of `systemMessageHandler.ts`. -/
def answerPull (device : Device toLowerCase) (since : Nat) :
    Pull → List (List (BundleMessage toLowerCase))
  | .ids ids => sendHistoryBundleForIds device ids since
  | .slices prefixes depth =>
    sendHistoryBundleForIds device
      (selectEntryIdsForPrefixes (readHistoryEntries device) prefixes depth) since

inductive Side where
  | left
  | right
deriving DecidableEq, Repr

/-- Who asks, and the clocks of both devices when they write what they receive. -/
structure Solicitation (since : Nat) where
  asker : Side
  askerNow : Nat
  answererNow : Nat
  askerOpened : since ≤ askerNow
  answererOpened : since ≤ answererNow

/-- The asker and the answerer after the answerer has answered the asker's digest. -/
def exchange (crypto : Crypto) (tombstone : Utf16) {since : Nat} (solicitation : Solicitation since)
    (asker answerer : Device toLowerCase) : Device toLowerCase × Device toLowerCase :=
  let digest := buildHistoryDigest crypto (readHistoryEntries asker) digestIdModeMax
  let answer := answerHistoryDigest crypto answerer digest since
  let repaired := answer.bundle.foldl (ingest tombstone solicitation.askerNow) asker
  (repaired, answer.pulls.foldl (fun device pull =>
    (answerPull repaired since pull).foldl (ingest tombstone solicitation.answererNow) device)
    answerer)

structure Pair (toLowerCase : Utf16 → Utf16) where
  left : Device toLowerCase
  right : Device toLowerCase

section

variable (crypto : Crypto) (tombstone : Utf16)

def Pair.solicit {since : Nat} (pair : Pair toLowerCase)
    (solicitation : Solicitation since) : Pair toLowerCase :=
  match solicitation.asker with
  | .left =>
    let after := exchange crypto tombstone solicitation pair.left pair.right
    ⟨after.1, after.2⟩
  | .right =>
    let after := exchange crypto tombstone solicitation pair.right pair.left
    ⟨after.2, after.1⟩

/-- A series of solicitations, each from one of the two sides. -/
def Pair.reconcile {since : Nat} (pair : Pair toLowerCase)
    (solicitations : List (Solicitation since)) : Pair toLowerCase :=
  solicitations.foldl (Pair.solicit crypto tombstone) pair

end

/-! ## 2. What an exchange does to one message -/

theorem cleanIds_entries (device : Device toLowerCase) : CleanIds (readHistoryEntries device) := by
  intro entry hentry
  obtain ⟨message, hmessage, rfl⟩ := mem_map.mp hentry
  obtain ⟨row, _, rfl⟩ := mem_map.mp hmessage
  exact row.1.2

theorem mem_idsOf_entries {device : Device toLowerCase} {id : MessageId} :
    id.1 ∈ idsOf (readHistoryEntries device) ↔ ∃ row, device.get? id = some row := by
  constructor
  · rintro ⟨entry, hentry, hid⟩
    obtain ⟨message, hmessage, rfl⟩ := mem_map.mp hentry
    obtain ⟨⟨held, row⟩, hrow, rfl⟩ := mem_map.mp hmessage
    obtain rfl : held = id := Subtype.ext hid
    exact ⟨row, mem_entries.mp hrow⟩
  · rintro ⟨row, hrow⟩
    have hentry := mem_entries.mpr hrow
    exact ⟨_, mem_map.mpr ⟨_, mem_map.mpr ⟨_, hentry, rfl⟩, rfl⟩, rfl⟩

/-- Pulls of disjoint batches of ids add up to one pull. -/
theorem get?_batches (tombstone : Utf16) (since now : Nat) (sender receiver : Device toLowerCase)
    {batches : List (List Utf16)} (hnodup : batches.flatten.Nodup) (id : MessageId) :
    (batches.foldl (fun device ids =>
      (sendHistoryBundleForIds sender ids since).foldl (ingest tombstone now) device)
      receiver).get? id =
      deliver tombstone now (receiver.get? id)
        ((sender.get? id).bind (offer batches.flatten since id)) := by
  induction batches generalizing receiver with
  | nil =>
    cases sender.get? id with
    | none | some row => rfl
  | cons batch rest ih =>
    rw [flatten_cons, nodup_append] at hnodup
    obtain ⟨_, hrest, hdisjoint⟩ := hnodup
    rw [foldl_cons, ih _ hrest, get?_bundle]
    cases hsender : sender.get? id with
    | none => rfl
    | some row =>
      by_cases hbatch : id.1 ∈ batch
      · have hlater : id.1 ∉ rest.flatten := fun hmem => hdisjoint _ hbatch _ hmem rfl
        simp [offer, hbatch, hlater, deliver]
      · simp [offer, hbatch, deliver]

variable {crypto : Crypto} {tombstone : Utf16} {since : Nat}

theorem rangeDepthFor_ne_zero (size : Nat) : rangeDepthFor size ≠ 0 := by
  have hdeepen : ∀ turns depth, depth ≤ deepen size turns depth := by
    intro turns
    induction turns with
    | zero => exact fun depth => le_rfl
    | succ turns ih =>
      intro depth
      rw [deepen]
      split
      · exact (Nat.le_succ depth).trans (ih (depth + 1))
      · exact le_rfl
  exact Nat.one_le_iff_ne_zero.mp (hdeepen _ 1)

theorem sendHistoryPull_ids (ids prefixes : List Utf16) :
    sendHistoryPull ids prefixes none = (chunkIds ids maxIdsPerPull).map .ids := by
  unfold sendHistoryPull
  split
  · rfl
  next hnone =>
    rw [length_eq_zero_iff.mp (Nat.eq_zero_of_not_pos hnone)]
    rfl

theorem get?_pull_slices (now : Nat) (sender receiver : Device toLowerCase)
    (prefixes : List Utf16) {depth : Nat} (hdepth : depth ≠ 0) (id : MessageId) :
    ((sendHistoryPull [] prefixes (some depth)).foldl (fun device pull =>
      (answerPull sender since pull).foldl (ingest tombstone now) device) receiver).get? id =
      deliver tombstone now (receiver.get? id) ((sender.get? id).bind
        (offer (selectEntryIdsForPrefixes (readHistoryEntries sender) prefixes depth)
          since id)) := by
  cases prefixes with
  | nil =>
    cases sender.get? id with
    | none | some row => rfl
  | cons first rest =>
    have hpull : sendHistoryPull [] (first :: rest) (some depth) =
        [.slices (first :: rest) depth] := by
      simp [sendHistoryPull, hdepth]
    rw [hpull]
    exact get?_bundle tombstone now sender receiver _ since id

theorem get?_pulls (now : Nat) (sender receiver answerer : Device toLowerCase)
    {digest : HistoryDigest} (hdigest : ∀ depth ranges, digest = .range depth ranges → depth ≠ 0)
    (id : MessageId) :
    ((answerHistoryDigest crypto answerer digest since).pulls.foldl (fun device pull =>
      (answerPull sender since pull).foldl (ingest tombstone now) device) receiver).get? id =
      deliver tombstone now (receiver.get? id) ((sender.get? id).bind
        (offer (idsToPull (readHistoryEntries sender) digest
          (diffHistoryDigest crypto (readHistoryEntries answerer) digest)) since id)) := by
  cases digest with
  | ids ids =>
    have hsize : 0 < maxIdsPerPull := by decide
    have hnodup := nodup_missingLocally crypto (readHistoryEntries answerer) ids
    rw [← flatten_chunkIds (diffHistoryDigest crypto (readHistoryEntries answerer)
      (.ids ids)).missingLocally hsize] at hnodup
    have hbatches := get?_batches tombstone since now sender receiver hnodup id
    rw [flatten_chunkIds _ hsize] at hbatches
    simp only [answerHistoryDigest, sendHistoryPull_ids, foldl_map, idsToPull]
    exact hbatches
  | range depth ranges =>
    simp only [answerHistoryDigest, idsToPull]
    rw [get?_pull_slices now sender receiver _ (hdigest depth ranges rfl)]

/-- The messages that the answerer sends, and those it pulls from the repaired asker. -/
def pushedIds (crypto : Crypto) (asker answerer : Device toLowerCase) : List Utf16 :=
  let digest := buildHistoryDigest crypto (readHistoryEntries asker) digestIdModeMax
  idsToPush (readHistoryEntries answerer) digest
    (diffHistoryDigest crypto (readHistoryEntries answerer) digest)

def pulledIds (crypto : Crypto) (asker answerer repaired : Device toLowerCase) : List Utf16 :=
  let digest := buildHistoryDigest crypto (readHistoryEntries asker) digestIdModeMax
  idsToPull (readHistoryEntries repaired) digest
    (diffHistoryDigest crypto (readHistoryEntries answerer) digest)

/-- The asker, message by message. -/
theorem get?_exchange_asker (solicitation : Solicitation since)
    (asker answerer : Device toLowerCase) (id : MessageId) :
    (exchange crypto tombstone solicitation asker answerer).1.get? id =
      deliver tombstone solicitation.askerNow (asker.get? id)
        ((answerer.get? id).bind (offer (pushedIds crypto asker answerer) since id)) :=
  get?_bundle tombstone solicitation.askerNow answerer asker _ since id

theorem get?_exchange_answerer (solicitation : Solicitation since)
    (asker answerer : Device toLowerCase) (id : MessageId) :
    let repaired := (exchange crypto tombstone solicitation asker answerer).1
    (exchange crypto tombstone solicitation asker answerer).2.get? id =
      deliver tombstone solicitation.answererNow (answerer.get? id)
        ((repaired.get? id).bind (offer (pulledIds crypto asker answerer repaired) since id)) := by
  intro repaired
  refine get?_pulls solicitation.answererNow repaired answerer answerer
    (fun depth ranges hmode => ?_) id
  rcases buildHistoryDigest_cases crypto (readHistoryEntries asker) digestIdModeMax with
    hids | hrange
  · cases hids.symm.trans hmode
  · cases hrange.symm.trans hmode
    exact rangeDepthFor_ne_zero _

/-! ## 3. Which messages an exchange carries -/

/-- The asker's digest describes slices, and the count or the fingerprint of the slice of
    `id` is not the answerer's. -/
def Carries (crypto : Crypto) (asker answerer : List HistoryEntry) (id : Utf16) : Prop :=
  ∃ depth ranges, buildHistoryDigest crypto asker digestIdModeMax = .range depth ranges ∧
    Distinguished crypto (sliceAt (uniqueSortedIds answerer) depth (historyRangeOf id depth))
      (sliceAt (uniqueSortedIds asker) depth (historyRangeOf id depth))

section

variable {asker answerer repaired : Device toLowerCase} {id : MessageId}
  {askerRow answererRow : Row toLowerCase}

theorem not_mem_idsOf_entries {device : Device toLowerCase} (h : device.get? id = none) :
    id.1 ∉ idsOf (readHistoryEntries device) := by
  rw [mem_idsOf_entries, h]
  exact fun ⟨_, hrow⟩ => nomatch hrow

/-- A message that both devices hold goes both ways, or neither. -/
theorem mem_idsToPush_of_both
    (hasker : asker.get? id = some askerRow) (hanswerer : answerer.get? id = some answererRow) :
    id.1 ∈ pushedIds crypto asker answerer ↔
      Carries crypto (readHistoryEntries asker) (readHistoryEntries answerer) id.1 := by
  have hheld := mem_idsOf_entries.mpr ⟨_, hanswerer⟩
  exact (mem_idsToPush (cleanIds_entries answerer) (cleanIds_entries asker) hheld).trans
    (sends_of_both (cleanIds_entries answerer) (cleanIds_entries asker) hheld
      (mem_idsOf_entries.mpr ⟨_, hasker⟩))

variable {repairedRow : Row toLowerCase}

theorem mem_idsToPull_of_both
    (hasker : asker.get? id = some askerRow) (hanswerer : answerer.get? id = some answererRow)
    (hrepaired : repaired.get? id = some repairedRow) :
    id.1 ∈ pulledIds crypto asker answerer repaired ↔
      Carries crypto (readHistoryEntries asker) (readHistoryEntries answerer) id.1 := by
  have hheld := mem_idsOf_entries.mpr ⟨_, hasker⟩
  refine (mem_idsToPull (cleanIds_entries answerer) (cleanIds_entries asker)
    (cleanIds_entries repaired) hheld (mem_idsOf_entries.mpr ⟨_, hrepaired⟩)).trans ?_
  rw [sends_of_both (cleanIds_entries asker) (cleanIds_entries answerer) hheld
    (mem_idsOf_entries.mpr ⟨_, hanswerer⟩)]
  refine exists_congr fun depth => exists_congr fun ranges => and_congr_right fun _ => ?_
  exact distinguished_comm _ _

/-- No two different slices that the answerer compares have the same fingerprint. -/
def SlicesSeparate (crypto : Crypto) (asker answerer : Device toLowerCase) : Prop :=
  ∀ depth ranges,
    buildHistoryDigest crypto (readHistoryEntries asker) digestIdModeMax = .range depth ranges →
    HashSeparates crypto (uniqueSortedIds (readHistoryEntries answerer))
      (uniqueSortedIds (readHistoryEntries asker)) depth

theorem mem_idsToPush_of_missing (hhash : SlicesSeparate crypto asker answerer)
    (hanswerer : answerer.get? id = some answererRow) (hasker : asker.get? id = none) :
    id.1 ∈ pushedIds crypto asker answerer := by
  have hheld := mem_idsOf_entries.mpr ⟨_, hanswerer⟩
  refine (mem_idsToPush (cleanIds_entries answerer) (cleanIds_entries asker) hheld).mpr ?_
  exact sends_of_missing (cleanIds_entries answerer) (cleanIds_entries asker) hheld
    (not_mem_idsOf_entries hasker) hhash

theorem mem_idsToPull_of_missing (hhash : SlicesSeparate crypto asker answerer)
    (hasker : asker.get? id = some askerRow)
    (hanswerer : answerer.get? id = none) (hrepaired : repaired.get? id = some repairedRow) :
    id.1 ∈ pulledIds crypto asker answerer repaired := by
  have hheld := mem_idsOf_entries.mpr ⟨_, hasker⟩
  refine (mem_idsToPull (cleanIds_entries answerer) (cleanIds_entries asker)
    (cleanIds_entries repaired) hheld (mem_idsOf_entries.mpr ⟨_, hrepaired⟩)).mpr ?_
  exact sends_of_missing (cleanIds_entries asker) (cleanIds_entries answerer) hheld
    (not_mem_idsOf_entries hanswerer) fun depth ranges hmode => (hhash depth ranges hmode).symm

end

/-! ## 4. One exchange, seen from one message -/

section OneExchange

variable (solicitation : Solicitation since) {asker answerer : Device toLowerCase} {id : MessageId}
  {now : Nat} {own theirs : Option (Row toLowerCase)}

/-- Nothing more is to be said about a message: its copies are steady, or the only one is
    outside the window. -/
def Quiet (since : Nat) : Option (Row toLowerCase) → Option (Row toLowerCase) → Prop
  | some first, some second => Steady since first second
  | some first, none => first.within since = false
  | none, some second => second.within since = false
  | none, none => True

theorem Quiet.symm {first second : Option (Row toLowerCase)} (h : Quiet since first second) :
    Quiet since second first := by
  cases first with
  | none =>
    cases second with
    | none => trivial
    | some second => exact h
  | some first =>
    cases second with
    | none => exact h
    | some second => exact Steady.symm h

theorem deliver_outside {row : Row toLowerCase} (h : row.within since = false) (ids : List Utf16) :
    deliver tombstone now own ((some row).bind (offer ids since id)) = own := by
  have hout : ¬ isWithinHistoryRange row.body.timestamp since = true := Bool.eq_false_iff.mp h
  simp [offer, hout, deliver]

/-- A message that one side lacks stays as it is when it is quiet. -/
theorem Quiet.deliver_missing (h : Quiet since own theirs) (hmissing : own = none ∨ theirs = none)
    (ids : List Utf16) : deliver tombstone now own (theirs.bind (offer ids since id)) = own := by
  cases theirs with
  | none => rfl
  | some theirs =>
    obtain rfl : own = none := hmissing.resolve_right (Option.some_ne_none theirs)
    exact deliver_outside h ids

theorem isSome_deliver (h : own.isSome) (received : Option (MessageBody toLowerCase)) :
    (deliver tombstone now own received).isSome := by
  cases received with
  | none => exact h
  | some body => rfl

/-- A device has a message once it has received what the other side has of the window. -/
def Obtains (since : Nat) (own theirs : Option (Row toLowerCase)) : Prop :=
  own.isSome ∨ ∃ row, theirs = some row ∧ row.within since = true

theorem isSome_deliver_iff (ids : List Utf16)
    (hsent : own = none → ∀ row, theirs = some row → id.1 ∈ ids) :
    (deliver tombstone now own (theirs.bind (offer ids since id))).isSome ↔
      Obtains since own theirs := by
  cases own with
  | some own => exact iff_of_true (isSome_deliver rfl _) (.inl rfl)
  | none =>
    cases theirs with
    | none => simp [deliver, Obtains]
    | some theirs =>
      by_cases hwithin : theirs.within since = true
      · have hoffer : offer ids since id theirs = some theirs.body :=
          if_pos ⟨hsent rfl theirs rfl, hwithin⟩
        rw [Option.bind_some, hoffer]
        exact iff_of_true rfl (.inr ⟨theirs, rfl, hwithin⟩)
      · rw [deliver_outside (Bool.eq_false_iff.mpr hwithin)]
        simp [Obtains, hwithin]

/-- One leg leaves a quiet message quiet, and its contribution as it was. -/
theorem Quiet.leg (h : Quiet since own theirs) (hnow : since ≤ now) (ids : List Utf16) :
    Quiet since (deliver tombstone now own (theirs.bind (offer ids since id))) theirs ∧
      Agree since (deliver tombstone now own (theirs.bind (offer ids since id))) own := by
  by_cases hsent : id.1 ∈ ids
  · cases theirs with
    | none => exact ⟨h, rfl⟩
    | some theirs =>
      cases own with
      | none =>
        rw [deliver_outside h]
        exact ⟨h, rfl⟩
      | some own =>
        obtain ⟨hsame, hsteady⟩ := Steady.carried h hnow
        rw [deliver_carried hsent]
        exact ⟨hsteady, hsame.rowState_eq⟩
  · rw [deliver_unsent hsent]
    exact ⟨h, rfl⟩

/-- A message that one side lacks is quiet once it has been sent, and the copies agree. -/
theorem quiet_of_sent (hnow : since ≤ now) {ids : List Utf16} (hsent : id.1 ∈ ids)
    (theirs : Row toLowerCase) :
    Quiet since (deliver tombstone now none ((some theirs).bind (offer ids since id)))
        (some theirs) ∧
      Agree since (deliver tombstone now none ((some theirs).bind (offer ids since id)))
        (some theirs) := by
  cases hwithin : theirs.within since with
  | false =>
    rw [deliver_outside hwithin]
    exact ⟨hwithin, (rowState_of_not_within hwithin).symm⟩
  | true =>
    have hunloaded : Unloaded (none : Option (Row toLowerCase)) := nofun
    have hoffer : offer ids since id theirs = some theirs.body := if_pos ⟨hsent, hwithin⟩
    have hview : (receive tombstone now none theirs.body).view = theirs.view :=
      view_receive_unloaded hunloaded theirs.body
    have hcopy : (receive tombstone now none theirs.body).within since = true :=
      within_receive_unloaded hunloaded hnow hwithin
    rw [Option.bind_some, hoffer]
    exact ⟨steady_of_views hcopy hwithin hview,
      agree_iff.mpr ⟨hcopy.trans hwithin.symm, fun _ => covered_of_view hview⟩⟩

/-- **What one side lacks is repaired.** -/
theorem quiet_exchange_of_missing (hhash : SlicesSeparate crypto asker answerer)
    (hmissing : asker.get? id = none ∨ answerer.get? id = none) :
    let after := exchange crypto tombstone solicitation asker answerer
    Quiet since (after.1.get? id) (after.2.get? id) ∧
      Agree since (after.1.get? id) (after.2.get? id) := by
  intro after
  cases hanswerer : answerer.get? id with
  | some answererRow =>
    have hasker : asker.get? id = none := by
      refine hmissing.resolve_right ?_
      rw [hanswerer]
      exact Option.some_ne_none answererRow
    have hfirst : Quiet since (after.1.get? id) (some answererRow) ∧
        Agree since (after.1.get? id) (some answererRow) := by
      rw [get?_exchange_asker, hasker, hanswerer]
      exact quiet_of_sent solicitation.askerOpened
        (mem_idsToPush_of_missing hhash hanswerer hasker) answererRow
    have hsecond : Quiet since (after.2.get? id) (after.1.get? id) ∧
        Agree since (after.2.get? id) (some answererRow) := by
      rw [get?_exchange_answerer, hanswerer]
      exact hfirst.1.symm.leg solicitation.answererOpened _
    exact ⟨hsecond.1.symm, hfirst.2.trans hsecond.2.symm⟩
  | none =>
    have hkept : (exchange crypto tombstone solicitation asker answerer).1.get? id =
        asker.get? id := by
      rw [get?_exchange_asker, hanswerer]
      rfl
    rw [get?_exchange_answerer, hkept, hanswerer]
    cases hasker : asker.get? id with
    | none => exact ⟨trivial, rfl⟩
    | some askerRow =>
      have hsent := mem_idsToPull_of_missing hhash hasker hanswerer (hkept.trans hasker)
      obtain ⟨hquiet, hagree⟩ := quiet_of_sent solicitation.answererOpened hsent askerRow
      exact ⟨hquiet.symm, hagree.symm⟩

/-- Which of the two devices hold a message afterwards: a side that lacks it has it when
    the other side's copy lies in the window. -/
theorem exchange_held (hhash : SlicesSeparate crypto asker answerer) :
    let after := exchange crypto tombstone solicitation asker answerer
    ((after.1.get? id).isSome ↔ Obtains since (asker.get? id) (answerer.get? id)) ∧
      ((after.2.get? id).isSome ↔ Obtains since (answerer.get? id) (asker.get? id)) := by
  intro after
  have hfirst : (after.1.get? id).isSome ↔ Obtains since (asker.get? id) (answerer.get? id) := by
    rw [get?_exchange_asker]
    refine isSome_deliver_iff _ fun hasker row hanswerer => ?_
    exact mem_idsToPush_of_missing hhash hanswerer hasker
  refine ⟨hfirst, ?_⟩
  cases hanswerer : answerer.get? id with
  | some answererRow =>
    rw [get?_exchange_answerer, hanswerer]
    exact iff_of_true (isSome_deliver rfl _) (.inl rfl)
  | none =>
    have hkept : after.1.get? id = asker.get? id := by
      rw [get?_exchange_asker, hanswerer]
      rfl
    rw [get?_exchange_answerer, hanswerer]
    rw [hkept]
    refine isSome_deliver_iff _ fun _ row hasker => ?_
    exact mem_idsToPull_of_missing hhash hasker hanswerer (hkept.trans hasker)

/-- What a solicitation does to the two copies of one message.  It carries a message that both sides
    hold or leaves it alone; a quiet message stays quiet, and what both sides contribute as it was;
    and what one side lacks is repaired. -/
structure Reconciles (since : Nat) (carries separate : Prop)
    (left right leftAfter rightAfter : Option (Row toLowerCase)) : Prop where
  carried : carries → ∀ {leftRow rightRow}, left = some leftRow → right = some rightRow →
    ∃ leftCopy rightCopy, leftAfter = some leftCopy ∧ rightAfter = some rightCopy ∧
      Steady since leftCopy rightCopy ∧
      (Agree since (some leftCopy) (some rightCopy) ↔ Settles since leftRow rightRow)
  uncarried : ¬ carries → ∀ {leftRow rightRow}, left = some leftRow → right = some rightRow →
    leftAfter = some leftRow ∧ rightAfter = some rightRow
  quiet : Quiet since left right → Quiet since leftAfter rightAfter ∧
    Agree since leftAfter left ∧ Agree since rightAfter right
  settled : Quiet since left right → left = none ∨ right = none →
    leftAfter = left ∧ rightAfter = right
  repaired : separate → left = none ∨ right = none →
    Quiet since leftAfter rightAfter ∧ Agree since leftAfter rightAfter
  held : separate → (leftAfter.isSome ↔ Obtains since left right) ∧
    (rightAfter.isSome ↔ Obtains since right left)
  keeps : (left.isSome → leftAfter.isSome) ∧ (right.isSome → rightAfter.isSome)

theorem Reconciles.symm {carries separate : Prop}
    {left right leftAfter rightAfter : Option (Row toLowerCase)}
    (h : Reconciles since carries separate left right leftAfter rightAfter) :
    Reconciles since carries separate right left rightAfter leftAfter where
  carried hcarries _ _ hright hleft := by
    obtain ⟨leftCopy, rightCopy, hleftAfter, hrightAfter, hsteady, hagree⟩ :=
      h.carried hcarries hleft hright
    refine ⟨rightCopy, leftCopy, hrightAfter, hleftAfter, hsteady.symm, ?_⟩
    exact eq_comm.trans (hagree.trans ⟨Settles.symm, Settles.symm⟩)
  uncarried hnot _ _ hright hleft := (h.uncarried hnot hleft hright).symm
  quiet hquiet := by
    obtain ⟨hafter, hleft, hright⟩ := h.quiet hquiet.symm
    exact ⟨hafter.symm, hright, hleft⟩
  settled hquiet hmissing := (h.settled hquiet.symm hmissing.symm).symm
  repaired hseparate hmissing := (h.repaired hseparate hmissing.symm).imp Quiet.symm Eq.symm
  held hseparate := (h.held hseparate).symm
  keeps := h.keeps.symm

theorem exchange_reconciles (crypto : Crypto) (tombstone : Utf16)
    (asker answerer : Device toLowerCase) (id : MessageId) :
    let after := exchange crypto tombstone solicitation asker answerer
    Reconciles since (Carries crypto (readHistoryEntries asker) (readHistoryEntries answerer) id.1)
      (SlicesSeparate crypto asker answerer) (asker.get? id) (answerer.get? id)
      (after.1.get? id) (after.2.get? id) where
  carried hcarries askerRow answererRow hasker hanswerer := by
    have hrepaired : (exchange crypto tombstone solicitation asker answerer).1.get? id =
        some (carried tombstone solicitation.askerNow since askerRow answererRow) := by
      rw [get?_exchange_asker, hasker, hanswerer]
      exact deliver_carried ((mem_idsToPush_of_both hasker hanswerer).mpr hcarries) _ _
    have houtcome := carried_outcome askerRow answererRow tombstone solicitation.askerOpened
      solicitation.answererOpened
    refine ⟨_, _, hrepaired, ?_, houtcome.steady, houtcome.agree_iff⟩
    rw [get?_exchange_answerer, hanswerer, hrepaired]
    exact deliver_carried ((mem_idsToPull_of_both hasker hanswerer hrepaired).mpr hcarries) _ _
  uncarried hnot askerRow answererRow hasker hanswerer := by
    have hkept : (exchange crypto tombstone solicitation asker answerer).1.get? id =
        some askerRow := by
      rw [get?_exchange_asker, hasker]
      exact deliver_unsent ((mem_idsToPush_of_both hasker hanswerer).not.mpr hnot) _ _
    refine ⟨hkept, ?_⟩
    rw [get?_exchange_answerer, hanswerer]
    exact deliver_unsent ((mem_idsToPull_of_both hasker hanswerer hkept).not.mpr hnot) _ _
  quiet h := by
    let after := exchange crypto tombstone solicitation asker answerer
    have hfirst : Quiet since (after.1.get? id) (answerer.get? id) ∧
        Agree since (after.1.get? id) (asker.get? id) := by
      rw [get?_exchange_asker]
      exact h.leg solicitation.askerOpened _
    have hsecond : Quiet since (after.2.get? id) (after.1.get? id) ∧
        Agree since (after.2.get? id) (answerer.get? id) := by
      rw [get?_exchange_answerer]
      exact hfirst.1.symm.leg solicitation.answererOpened _
    exact ⟨hsecond.1.symm, hfirst.2, hsecond.2⟩
  settled h hmissing := by
    have hkept : (exchange crypto tombstone solicitation asker answerer).1.get? id =
        asker.get? id := by
      rw [get?_exchange_asker]
      exact h.deliver_missing hmissing _
    refine ⟨hkept, ?_⟩
    rw [get?_exchange_answerer, hkept]
    exact h.symm.deliver_missing hmissing.symm _
  repaired := quiet_exchange_of_missing solicitation
  held := exchange_held solicitation
  keeps := by
    rw [get?_exchange_asker, get?_exchange_answerer]
    exact ⟨fun hheld => isSome_deliver hheld _, fun hheld => isSome_deliver hheld _⟩

end OneExchange

/-! ## 5. A series of solicitations -/

/-- The messages that a solicitation carries, from what the two sides hold. -/
def Solicitation.Carries (crypto : Crypto) (solicitation : Solicitation since)
    (left right : List HistoryEntry) (id : MessageId) : Prop :=
  match solicitation.asker with
  | .left => HistoryReconciliation.Carries crypto left right id.1
  | .right => HistoryReconciliation.Carries crypto right left id.1

def Pair.Carries (crypto : Crypto) (pair : Pair toLowerCase) (solicitation : Solicitation since)
    (id : MessageId) : Prop :=
  solicitation.Carries crypto (readHistoryEntries pair.left) (readHistoryEntries pair.right) id

/-- No two different slices of the stores have the same fingerprint. -/
def Pair.SlicesSeparate (crypto : Crypto) (pair : Pair toLowerCase)
    (solicitation : Solicitation since) : Prop :=
  match solicitation.asker with
  | .left => HistoryReconciliation.SlicesSeparate crypto pair.left pair.right
  | .right => HistoryReconciliation.SlicesSeparate crypto pair.right pair.left

section Series

variable {pair : Pair toLowerCase} {id : MessageId}

theorem solicit_reconciles (crypto : Crypto) (tombstone : Utf16) (pair : Pair toLowerCase)
    (solicitation : Solicitation since) (id : MessageId) :
    let after := pair.solicit crypto tombstone solicitation
    Reconciles since (pair.Carries crypto solicitation id)
      (pair.SlicesSeparate crypto solicitation) (pair.left.get? id) (pair.right.get? id)
      (after.left.get? id) (after.right.get? id) := by
  unfold Pair.solicit Pair.Carries Solicitation.Carries Pair.SlicesSeparate
  cases solicitation.asker with
  | left => exact exchange_reconciles solicitation crypto tombstone pair.left pair.right id
  | right => exact (exchange_reconciles solicitation crypto tombstone pair.right pair.left id).symm

/-- Nothing that follows changes whether the copies of a quiet message agree. -/
theorem Quiet.reconcile (crypto : Crypto) (tombstone : Utf16)
    (h : Quiet since (pair.left.get? id) (pair.right.get? id))
    (solicitations : List (Solicitation since)) :
    let after := pair.reconcile crypto tombstone solicitations
    Agree since (after.left.get? id) (after.right.get? id) ↔
      Agree since (pair.left.get? id) (pair.right.get? id) := by
  induction solicitations generalizing pair with
  | nil => exact Iff.rfl
  | cons solicitation rest ih =>
    obtain ⟨hquiet, hleft, hright⟩ :=
      (solicit_reconciles crypto tombstone pair solicitation id).quiet h
    refine (ih hquiet).trans ?_
    unfold Agree at hleft hright ⊢
    rw [hleft, hright]

/-- Neither side lacks a message that the other has in the window. -/
def Pair.Complete (since : Nat) (pair : Pair toLowerCase) : Prop :=
  ∀ id, pair.left.get? id = none ∨ pair.right.get? id = none →
    Quiet since (pair.left.get? id) (pair.right.get? id)

/-- A message that both sides hold is held by both afterwards. -/
theorem missing_of_solicit {solicitation : Solicitation since}
    (hmissing : (pair.solicit crypto tombstone solicitation).left.get? id = none ∨
      (pair.solicit crypto tombstone solicitation).right.get? id = none) :
    pair.left.get? id = none ∨ pair.right.get? id = none := by
  obtain ⟨hleft, hright⟩ := (solicit_reconciles crypto tombstone pair solicitation id).keeps
  simp only [Option.isSome_iff_ne_none] at hleft hright
  exact hmissing.imp (not_imp_not.mp hleft) (not_imp_not.mp hright)

theorem Pair.Complete.solicit (crypto : Crypto) (tombstone : Utf16) (h : pair.Complete since)
    (solicitation : Solicitation since) :
    (pair.solicit crypto tombstone solicitation).Complete since :=
  fun id hmissing => ((solicit_reconciles crypto tombstone pair solicitation id).quiet
    (h id (missing_of_solicit hmissing))).1

theorem Pair.Complete.held (crypto : Crypto) (tombstone : Utf16) (h : pair.Complete since)
    (solicitation : Solicitation since) (id : MessageId) :
    let after := pair.solicit crypto tombstone solicitation
    ((after.left.get? id).isSome ↔ (pair.left.get? id).isSome) ∧
      ((after.right.get? id).isSome ↔ (pair.right.get? id).isSome) := by
  intro after
  have hstep := solicit_reconciles crypto tombstone pair solicitation id
  by_cases hmissing : pair.left.get? id = none ∨ pair.right.get? id = none
  · obtain ⟨hleft, hright⟩ := hstep.settled (h id hmissing) hmissing
    rw [hleft, hright]
    exact ⟨Iff.rfl, Iff.rfl⟩
  · rw [not_or] at hmissing
    obtain ⟨hleft, hright⟩ := hstep.keeps
    have hleftHeld := Option.isSome_iff_ne_none.mpr hmissing.1
    have hrightHeld := Option.isSome_iff_ne_none.mpr hmissing.2
    exact ⟨iff_of_true (hleft hleftHeld) hleftHeld, iff_of_true (hright hrightHeld) hrightHeld⟩

end Series

end Exchange

/-! ## 7. State keys after a series of solicitations -/

section Keys

variable (platform : Platform)

variable {toLowerCase : Utf16 → Utf16} {since : Nat}

end Keys

/-! ## 8. Two stores with the same ids -/

end MinesApp.HistoryReconciliation
