import MinesApp.HistoryManifest
import MinesApp.MessageReactions
import Mathlib.Data.Multiset.MapFold

/-!
# The state key of a conversation

`frontend/src/lib/utils/chat/historyStateKey.ts` stands for everything two devices must
agree on about a conversation with one short string: the ids of the messages in the
window and the mutation state of each (deleted, edited and when, reacted to), never
their content.  The digests of the messages are folded with exclusive or, so that the
order in which the store returns them does not matter.
-/

namespace MinesApp.HistoryStateKey

open JsString HistoryManifest MessageReactions BiasedMerge List

/-! ## 1. Messages -/

/-- An edit time is written from a `Date` and read back only when positive. -/
def EditTime : Type := {time : Nat // 0 < time ∧ time ≤ 8640000000000000}

instance : DecidableEq EditTime :=
  inferInstanceAs (DecidableEq {time : Nat // 0 < time ∧ time ≤ 8640000000000000})

/-- What the key covers of a message, its id apart. -/
structure MutationState (toLowerCase : Utf16 → Utf16) where
  isDeleted : Bool
  isEdited : Bool
  editedAt : Option EditTime
  reactions : Reactions toLowerCase
deriving DecidableEq

open MutationState

/-- A message as the store returns it, without its id.  A timestamp that is not a finite
    number is `none`. -/
structure MessageBody (toLowerCase : Utf16 → Utf16) extends MutationState toLowerCase where
  senderId : Utf16
  content : Utf16
  timestamp : Option Int
  serverTimestamp : Option Nat
deriving DecidableEq

structure StoredMessage (toLowerCase : Utf16 → Utf16) where
  id : Utf16
  body : MessageBody toLowerCase
deriving DecidableEq

def isWithinHistoryRange (timestamp : Option Int) (since : Nat) : Bool :=
  match timestamp with
  | some timestamp => since ≤ timestamp
  | none => true

/-! ## 2. The key -/

/-- What the client takes from its platform. -/
structure Platform extends Crypto where
  toLowerCase : Utf16 → Utf16

def flag (raised : Bool) : Utf16 := decimal (if raised then 1 else 0)

def canonicalReaction (toLowerCase : Utf16 → Utf16) (reaction : MessageReaction) : Utf16 :=
  join [1] [toLowerCase reaction.userId, reaction.emoji, decimal (stamp reaction),
    flag reaction.removed]

/-- The edit's own time: an edit of unknown time contributes its flag. -/
def editStamp {toLowerCase : Utf16 → Utf16} (state : MutationState toLowerCase) : Int :=
  if state.isEdited then (state.editedAt.map fun time => (time.1 : Int)).getD 1 else 0

def canonicalMessageState {toLowerCase : Utf16 → Utf16} (id : Utf16)
    (state : MutationState toLowerCase) : Utf16 :=
  let reactions := (state.reactions.1.map (canonicalReaction toLowerCase)).insertionSort (· ≤ ·)
  join [3] [id, flag state.isDeleted, decimal (editStamp state), join [2] reactions]

/-- The first 64 bits of a digest. -/
abbrev KeyBytes := Fin 8 → UInt8

def xorInto (acc : KeyBytes) (digest : List UInt8) : KeyBytes :=
  fun position => acc position ^^^ digest.getD position 0

section Key

variable (platform : Platform)

/-- One turn of the loop of `historyStateKey`: the accumulator and the ids seen. -/
def keyTurn (since : Nat) (state : KeyBytes × List Utf16)
    (message : StoredMessage platform.toLowerCase) : KeyBytes × List Utf16 :=
  let id := message.id.trim
  if id = [] ∨ id ∈ state.2 then state
  else if ¬ isWithinHistoryRange message.body.timestamp since then state
  else
    let digest := platform.sha256 (platform.encode
      (canonicalMessageState message.id message.body.toMutationState))
    (xorInto state.1 digest, id :: state.2)

def keyHex (acc : KeyBytes) : Utf16 := (ofFn acc).flatMap fun byte => hexPadded 2 byte.toNat

def historyStateKey (messages : List (StoredMessage platform.toLowerCase)) (since : Nat) : Utf16 :=
  keyHex (messages.foldl (keyTurn platform since) (fun _ => 0, [])).1

/-! ## 3. The key as a fold over the states in the window -/

end Key

/-! ## 4. What the key covers -/

variable {first second : MutationState toLowerCase}

section

variable {toLowerCase : Utf16 → Utf16}

/-- By whom, with what, when, and whether it has been taken back. -/
abbrev ReactionEntry := Utf16 × Utf16 × Int × Bool

def reactionEntry (reaction : MessageReaction) : ReactionEntry :=
  (reaction.userId, reaction.emoji, stamp reaction, reaction.removed)

/-- The reconcilable state of one message: deleted or not, the edit stamp, and the reactions
    as a set. -/
structure Covered where
  isDeleted : Bool
  editStamp : Int
  reactions : Multiset ReactionEntry
deriving DecidableEq

def MutationState.covered (state : MutationState toLowerCase) : Covered :=
  ⟨state.isDeleted, editStamp state, state.reactions.1.map reactionEntry⟩

def entryAt (reactions : List MessageReaction) (key : Utf16) : Option ReactionEntry :=
  (reactionAt reactions key).map reactionEntry

theorem mem_entries_iff {reactions : List MessageReaction} (h : Paired toLowerCase reactions)
    {entry : ReactionEntry} :
    entry ∈ reactions.map reactionEntry ↔
      entryAt reactions (entry.1 ++ .ofChars [' '] ++ entry.2.1) = some entry := by
  rw [mem_map, entryAt, Option.map_eq_some_iff]
  constructor
  · rintro ⟨reaction, hreaction, rfl⟩
    exact ⟨reaction, h.mem_iff.mp hreaction, rfl⟩
  · rintro ⟨reaction, hat, rfl⟩
    exact ⟨reaction, h.mem_iff.mpr hat, rfl⟩

/-- Two lists show the key the same entries when every pair has the same one. -/
theorem entries_eq_iff {first second : List MessageReaction} (hfirst : Paired toLowerCase first)
    (hsecond : Paired toLowerCase second) :
    ((first.map reactionEntry : List ReactionEntry) : Multiset ReactionEntry) =
        (second.map reactionEntry : List ReactionEntry) ↔
      ∀ key, entryAt first key = entryAt second key := by
  have hnodup : ∀ {reactions : List MessageReaction}, Paired toLowerCase reactions →
      (reactions.map reactionEntry).Nodup := by
    intro reactions h
    refine List.Nodup.of_map
      (fun entry : ReactionEntry => entry.1 ++ .ofChars [' '] ++ entry.2.1) ?_
    rw [map_map]
    exact h.nodup
  have hkey : ∀ {reactions : List MessageReaction}, Paired toLowerCase reactions → ∀ {key entry},
      entryAt reactions key = some entry → key = entry.1 ++ .ofChars [' '] ++ entry.2.1 := by
    intro reactions h key entry hentry
    obtain ⟨reaction, hat, rfl⟩ := Option.map_eq_some_iff.mp hentry
    exact (mem_of_reactionAt hat).2
  rw [Multiset.coe_eq_coe, perm_ext_iff_of_nodup (hnodup hfirst) (hnodup hsecond)]
  constructor
  · intro hmem key
    refine Option.ext fun entry => ⟨fun hentry => ?_, fun hentry => ?_⟩
    · obtain rfl := hkey hfirst hentry
      exact (mem_entries_iff hsecond).mp ((hmem entry).mp ((mem_entries_iff hfirst).mpr hentry))
    · obtain rfl := hkey hsecond hentry
      exact (mem_entries_iff hfirst).mp ((hmem entry).mpr ((mem_entries_iff hsecond).mpr hentry))
  · intro hsame entry
    rw [mem_entries_iff hfirst, mem_entries_iff hsecond, hsame]

end

/-! ## 5. Merging mutation states -/

section Merge

variable {toLowerCase : Utf16 → Utf16}

/-- What the receiver of a bundle keeps of its own and takes from the message received. -/
def MutationState.merge (own received : MutationState toLowerCase) : MutationState toLowerCase where
  isDeleted := own.isDeleted || received.isDeleted
  isEdited := own.isEdited || received.isEdited
  editedAt := own.editedAt.or received.editedAt
  reactions := own.reactions.merge received.reactions

/-- A mutation state up to the order of its reactions. -/
abbrev MutationView := Bool × Bool × Option EditTime × (Utf16 → Option MessageReaction)

def MutationState.view (state : MutationState toLowerCase) : MutationView :=
  (state.isDeleted, state.isEdited, state.editedAt, reactionAt state.reactions.1)

def mergeView (own received : MutationView) : MutationView :=
  (own.1 || received.1, own.2.1 || received.2.1, own.2.2.1.or received.2.2.1,
    fun key => latest stamp (own.2.2.2 key) (received.2.2.2 key))

theorem mergeView_biased : Biased mergeView :=
  Biased.flag.prod (Biased.flag.prod (Biased.first.prod (Biased.latest stamp).pi))

theorem MutationState.view_merge (own received : MutationState toLowerCase) :
    (own.merge received).view = mergeView own.view received.view := by
  simp only [view, merge, Reactions.reactionAt_merge, mergeView]

/-- The key reads a state up to the order of its reactions. -/
theorem covered_of_view (h : first.view = second.view) : first.covered = second.covered := by
  obtain ⟨hdeleted, hrest⟩ := Prod.mk.inj h
  obtain ⟨hedited, hrest⟩ := Prod.mk.inj hrest
  obtain ⟨htime, hreactions⟩ := Prod.mk.inj hrest
  have hentries := (entries_eq_iff first.reactions.2 second.reactions.2).mpr fun key => by
    rw [entryAt, entryAt, hreactions]
  simp only [covered, editStamp, hdeleted, hedited, htime, hentries]

/-- Two states that merge to the same in either direction: no two different edit times on
    an edited message, and no pair with two different entries of the same instant. -/
structure Compatible (first second : MutationState toLowerCase) : Prop where
  edits : (first.isEdited || second.isEdited) = true → ∀ mine theirs,
    first.editedAt = some mine → second.editedAt = some theirs → mine = theirs
  reactions : ∀ mine ∈ first.reactions.1, ∀ theirs ∈ second.reactions.1,
    pairKey mine = pairKey theirs → stamp mine = stamp theirs →
      reactionEntry mine = reactionEntry theirs

variable {state : MutationState toLowerCase}

theorem editStamp_of_edited (h : state.isEdited = true) :
    editStamp state = (state.editedAt.map fun time => (time.1 : Int)).getD 1 :=
  if_pos h

theorem editStamp_of_unedited (h : ¬ state.isEdited = true) : editStamp state = 0 :=
  if_neg h

section

variable (first second : MutationState toLowerCase)

theorem editStamp_merge_iff : editStamp (first.merge second) = editStamp (second.merge first) ↔
      ((first.isEdited || second.isEdited) = true → ∀ mine theirs,
        first.editedAt = some mine → second.editedAt = some theirs → mine = theirs) := by
  have hswap : (second.merge first).isEdited = (first.merge second).isEdited := Bool.or_comm _ _
  change _ ↔ ((first.merge second).isEdited = true → _)
  by_cases hedited : (first.merge second).isEdited = true
  · rw [editStamp_of_edited hedited, editStamp_of_edited (hswap.trans hedited)]
    rw [forall_prop_of_true hedited]
    simp only [MutationState.merge]
    cases hfirst : first.editedAt with
    | none => simp
    | some mine =>
      cases hsecond : second.editedAt with
      | none => simp
      | some theirs =>
        have htimes : (mine.1 : Int) = theirs.1 ↔ mine = theirs :=
          Int.ofNat_inj.trans Subtype.ext_iff.symm
        simpa using htimes
  · have hother : ¬ (second.merge first).isEdited = true := hswap ▸ hedited
    rw [editStamp_of_unedited hedited, editStamp_of_unedited hother]
    exact iff_of_true rfl fun h => absurd h hedited

theorem entryAt_merge_iff (key : Utf16) :
    entryAt (first.merge second).reactions.1 key = entryAt (second.merge first).reactions.1 key ↔
      ∀ mine theirs, reactionAt first.reactions.1 key = some mine →
        reactionAt second.reactions.1 key = some theirs → stamp mine = stamp theirs →
        reactionEntry mine = reactionEntry theirs := by
  simp only [entryAt, MutationState.merge, Reactions.reactionAt_merge]
  cases hfirst : reactionAt first.reactions.1 key with
  | none => simp
  | some mine =>
    cases hsecond : reactionAt second.reactions.1 key with
    | none => simp
    | some theirs =>
      rcases lt_trichotomy (stamp mine) (stamp theirs) with hlt | heq | hgt
      · rw [latest_of_lt stamp hlt, latest_of_le stamp hlt.le]
        simp [hlt.ne]
      · rw [latest_of_le stamp heq.ge, latest_of_le stamp heq.le]
        simp [heq]
      · rw [latest_of_le stamp hgt.le, latest_of_lt stamp hgt]
        simp [hgt.ne']

/-- **When merging commutes**, as far as the key can see. -/
theorem covered_merge_iff :
    (first.merge second).covered = (second.merge first).covered ↔ Compatible first second := by
  have hdeleted : (first.merge second).isDeleted = (second.merge first).isDeleted :=
    Bool.or_comm _ _
  rw [covered, covered, Covered.mk.injEq, editStamp_merge_iff,
    entries_eq_iff (first.merge second).reactions.2
    (second.merge first).reactions.2]
  simp only [entryAt_merge_iff]
  constructor
  · rintro ⟨_, hedits, hreactions⟩
    refine ⟨hedits, fun mine hmine theirs htheirs hpair => ?_⟩
    refine hreactions (pairKey mine) mine theirs (first.reactions.2.mem_iff.mp hmine) ?_
    rw [hpair]
    exact second.reactions.2.mem_iff.mp htheirs
  · intro h
    refine ⟨hdeleted, h.edits, fun key mine theirs hmine htheirs => ?_⟩
    have hmineKey := (mem_of_reactionAt hmine).2
    have htheirsKey := (mem_of_reactionAt htheirs).2
    exact h.reactions mine (first.reactions.2.mem_iff.mpr (hmineKey ▸ hmine)) theirs
      (second.reactions.2.mem_iff.mpr (htheirsKey ▸ htheirs)) (hmineKey.symm.trans htheirsKey)

end

theorem Compatible.symm (h : Compatible first second) : Compatible second first :=
  (covered_merge_iff second first).mp ((covered_merge_iff first second).mpr h).symm

end Merge

end MinesApp.HistoryStateKey
