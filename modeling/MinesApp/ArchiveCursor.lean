import MinesApp.JsString
import MinesApp.OrderedMap
import Mathlib.Order.Lattice

/-!
# The cursor of an archive replay

`replayConversationHistory` of `frontend/src/lib/utils/chat/history.ts` walks the archive of a
group page by page.  Each page is gone through twice: a scan passes over the rows that need no
decryption (already seen, this device's own, already read live), then the rest is decrypted and
handled row by row.  Both passes move the cursor that the returned commit saves; a row that
failed on an epoch gap is left unmarked, to be offered again by a later replay.

Rows are counted from the start of the walk, which is the order of the stream.  The history of
a replay says which rows moved the cursor and which were left to be retried.  In the second
pass a row that is handled leaves the loop body by `continue`, so only the rows that fall
through to its end move the cursor.

The messages that a replay produces are in other modules; its counters and log lines are left
out.
-/

namespace MinesApp.ArchiveCursor

open JsString List Option

/-! ## 1. Rows and what becomes of them -/

abbrev Bytes := List UInt8

structure HistoryStreamRow where
  id : Option String
  senderDeviceId : Option String
  content : String
  timestamp : String
deriving DecidableEq, Repr

inductive MlsDecryptErrorKind where
  | ownMessage
  | secretReuse
  | epochGap
  | generationGap
  | pastEpochApplication
  | wrongEpoch
  | evicted
  | oom
  | sameEpochRefusal
  | unknown
deriving DecidableEq, Repr

/-- How the handling of a decrypted row leaves the `try` block: by `continue`, at its end, or
    by an exception. -/
inductive RowEnd where
  | continued
  | fellThrough
  | threw (kind : MlsDecryptErrorKind)
deriving DecidableEq, Repr

/-- What `decryptPage` answers for a row and what its handling does. -/
inductive Attempt where
  | refused (kind : MlsDecryptErrorKind)
  | read (ending : RowEnd)
deriving DecidableEq, Repr

structure Offered where
  row : HistoryStreamRow
  attempt : Attempt
deriving DecidableEq, Repr

open Offered

/-- `liveMarks` are the fingerprints that live delivery records while the page is decrypted. -/
structure HistoryPage where
  rows : List Offered
  head : Option String
  liveMarks : List String
deriving DecidableEq, Repr

/-- What a replay reads from outside. -/
structure Env where
  myDeviceId : String
  fromBase64 : String → Option Bytes
  frameFingerprint : Bytes → String

/-- An absent or empty text is false. -/
def truthy (text : Option String) : Option String := text.filter (· ≠ "")

def HistoryStreamRow.rowKey (row : HistoryStreamRow) : String :=
  match truthy row.id with
  | some id => id
  | none => row.timestamp ++ ":" ++ String.ofList (row.content.toList.take 64)

/-- The code units that `>` compares. -/
def units (text : String) : Utf16 := .ofChars text.toList

def MAX_HISTORY_DECRYPT_RETRIES : Nat := 6

def nextHistoryRetryDecision (priorAttempts : Nat) : Nat × Bool :=
  (priorAttempts + 1, decide (priorAttempts + 1 < MAX_HISTORY_DECRYPT_RETRIES))

/-! ## 2. The replay -/

/-- The variables of a replay.  The last three are history: the number of rows in the pages
    before this one, the rows that moved the cursor with their ids, and the rows left to be
    retried. -/
structure Replay where
  latestStreamId : Option String
  seenCipherHashes : List String
  seenUpdated : Bool
  retryCounts : OrderedMap String Nat
  retryUpdated : Bool
  sawEpochGap : Bool
  sawUnreadableFrame : Bool
  walked : Nat
  moved : List (Nat × String)
  retried : List Nat

/-- A `Set` keeps the order of first insertion. -/
def insertMark (marks : List String) (mark : String) : List String :=
  if mark ∈ marks then marks else marks ++ [mark]

namespace Replay

variable (replay : Replay)

def advancePast (index : Nat) (rowId : Option String) : Replay :=
  match truthy rowId with
  | none => replay
  | some id =>
    { replay with
      latestStreamId :=
        match replay.latestStreamId with
        | none => some id
        | some latest => if units latest < units id then some id else some latest
      moved := (index, id) :: replay.moved }

def addSeen (mark : String) : Replay :=
  { replay with
    seenCipherHashes := insertMark replay.seenCipherHashes mark, seenUpdated := true }

/-- The `finally` block of a row that is not left to be retried. -/
def consume (rowKey : String) : Replay :=
  { replay.addSeen rowKey with
    retryCounts := replay.retryCounts.erase rowKey
    retryUpdated := replay.retryUpdated || (replay.retryCounts.get? rowKey).isSome }

end Replay

/-- A row that goes to `decryptPage`, with its place in the walk. -/
structure Work where
  index : Nat
  row : HistoryStreamRow
  bytes : Bytes
  attempt : Attempt
deriving DecidableEq, Repr

inductive Scanned where
  | passed (replay : Replay)
  | queued (work : Work)
  | threw

def scanRow (env : Env) (replay : Replay) (index : Nat) (offered : Offered) : Scanned :=
  let row := offered.row
  if row.rowKey ∈ replay.seenCipherHashes then .passed (replay.advancePast index row.id)
  else if truthy row.senderDeviceId = some env.myDeviceId then
    .passed ((replay.addSeen row.rowKey).advancePast index row.id)
  else
    match env.fromBase64 row.content with
    | none => .threw
    | some bytes =>
      if env.frameFingerprint bytes ∈ replay.seenCipherHashes then
        .passed ((replay.addSeen row.rowKey).advancePast index row.id)
      else .queued ⟨index, row, bytes, offered.attempt⟩

def scan (env : Env) (replay : Replay) (index : Nat) : List Offered → Option (Replay × List Work)
  | [] => some (replay, [])
  | offered :: rest =>
    match scanRow env replay index offered with
    | .passed passed => scan env passed (index + 1) rest
    | .queued work =>
      (scan env replay (index + 1) rest).map fun scanned => (scanned.1, work :: scanned.2)
    | .threw => none

section

variable (env : Env) (replay : Replay)

/-- Every generation the page spends is marked before a frame is handled. -/
def markSpent (work : Work) : Replay :=
  match work.attempt with
  | .refused _ => replay
  | .read _ => replay.addSeen (env.frameFingerprint work.bytes)

/-- The `catch` block, with the `finally` block and the end of the loop body behind it. -/
def handleError (work : Work) (kind : MlsDecryptErrorKind) : Replay :=
  let rowKey := work.row.rowKey
  match kind with
  | .ownMessage | .evicted => replay.consume rowKey
  | .secretReuse | .pastEpochApplication | .sameEpochRefusal =>
    let readLive := decide (env.frameFingerprint work.bytes ∈ replay.seenCipherHashes)
    { replay.consume rowKey with
      sawUnreadableFrame := replay.sawUnreadableFrame || !readLive }
  | .epochGap | .wrongEpoch =>
    let gap :=
      { replay with
        sawEpochGap := replay.sawEpochGap || decide (kind = MlsDecryptErrorKind.epochGap)
        retryUpdated := true }
    match nextHistoryRetryDecision ((replay.retryCounts.get? rowKey).getD 0) with
    | (attempts, true) =>
      { gap with
        retryCounts := gap.retryCounts.set rowKey attempts
        retried := work.index :: gap.retried }
    | (_, false) =>
      ({ gap with
        retryCounts := gap.retryCounts.erase rowKey
        sawUnreadableFrame := true }.consume rowKey).advancePast work.index work.row.id
  | .generationGap | .oom | .unknown =>
    (replay.consume rowKey).advancePast work.index work.row.id

def processRow (work : Work) : Replay :=
  match work.attempt with
  | .refused kind => handleError env replay work kind
  | .read (.threw kind) => handleError env replay work kind
  -- `continue` runs the `finally` block and skips the move of the cursor
  | .read .continued => replay.consume work.row.rowKey
  | .read .fellThrough =>
    (replay.consume work.row.rowKey).advancePast work.index work.row.id

def processPage (page : HistoryPage) : Option Replay :=
  (scan env replay replay.walked page.rows).map fun (scanned, work) =>
    let live :=
      { scanned with
        seenCipherHashes := page.liveMarks.foldl insertMark scanned.seenCipherHashes }
    let handled := work.foldl (processRow env) (work.foldl (markSpent env) live)
    { handled with walked := replay.walked + page.rows.length }

end

/-- The loop over the pages.  An answer is missing when a fetch threw. -/
def walk (env : Env) (replay : Replay) (fetchCursor walkHead : Option String) :
    List (Option HistoryPage) → Option Replay
  | [] => none
  | none :: _ => none
  | some page :: later =>
    let head := walkHead.or page.head
    match page.rows.getLast? with
    | none => some replay
    | some last =>
      match processPage env replay page, truthy last.row.id with
      | none, _ => none
      | some handled, none => some handled
      | some handled, some pageLastId =>
        if some pageLastId = fetchCursor ∨ some pageLastId = head then some handled
        else walk env handled (some pageLastId) head later

/-- What the local store keeps for a group. -/
structure Stored where
  cursor : Option String
  seen : List String
  retryCounts : OrderedMap String Nat

open Stored

def Stored.begin (stored : Stored) : Replay :=
  ⟨none, stored.seen, false, stored.retryCounts, false, false, false, 0, [], []⟩

def lastOf {Entry : Type} (bound : Nat) (entries : List Entry) : List Entry :=
  entries.drop (entries.length - bound)

/-- The returned thunk. -/
def Stored.commit (stored : Stored) (replay : Replay) : Stored where
  cursor := replay.latestStreamId.or stored.cursor
  seen := if replay.seenUpdated then lastOf 5000 replay.seenCipherHashes else stored.seen
  retryCounts :=
    if replay.retryUpdated then
      ⟨lastOf 2000 replay.retryCounts.entries,
        replay.retryCounts.nodup.sublist ((drop_sublist _ _).map Prod.fst)⟩
    else stored.retryCounts

/-! ## 3. What becomes of a row

As long as no two rows share a key or a fingerprint and none is read live during the walk, what
becomes of a row is decided by what is stored and by what decryption and handling make of it. -/

/-- The row moves the cursor, leaves it, or is left to be retried. -/
inductive Fate where
  | moves
  | stays
  | owed
deriving DecidableEq, Repr

def Attempt.fate (retry : Bool) : Attempt → Fate
  | .read .fellThrough => .moves
  | .read .continued => .stays
  | .refused kind | .read (.threw kind) =>
    match kind with
    | .generationGap | .oom | .unknown => .moves
    | .epochGap | .wrongEpoch => if retry then .owed else .moves
    | .ownMessage | .evicted | .secretReuse | .pastEpochApplication | .sameEpochRefusal => .stays

section

variable (env : Env) (stored : Stored) (offered : Offered)

/-- What a row is known by: its key, and the fingerprint of its bytes. -/
def Offered.marks : List String :=
  offered.row.rowKey :: ((env.fromBase64 offered.row.content).map env.frameFingerprint).toList

/-- The scan passes over the row. -/
def Offered.passed : Bool :=
  offered.row.rowKey ∈ stored.seen || truthy offered.row.senderDeviceId = some env.myDeviceId ||
    (env.fromBase64 offered.row.content).any (env.frameFingerprint · ∈ stored.seen)

def Offered.fate : Fate :=
  if offered.passed env stored then .moves
  else offered.attempt.fate
    (nextHistoryRetryDecision ((stored.retryCounts.get? offered.row.rowKey).getD 0)).2

end

/-- The rows of a walk, in the order of the stream. -/
def rowsOf (answers : List (Option HistoryPage)) : List Offered :=
  answers.flatMap fun answer => answer.elim [] (·.rows)

/-- No row is known by a mark of another one. -/
def Apart (env : Env) (rows : List Offered) : Prop :=
  rows.Pairwise fun first second => ∀ mark ∈ first.marks env, mark ∉ second.marks env

/-- Nothing of a row has been marked or counted yet. -/
structure Fresh (env : Env) (stored : Stored) (replay : Replay) (offered : Offered) : Prop where
  seen : ∀ mark ∈ offered.marks env, mark ∈ replay.seenCipherHashes ↔ mark ∈ stored.seen
  count : replay.retryCounts.get? offered.row.rowKey = stored.retryCounts.get? offered.row.rowKey

/-- The history of a replay that has dealt with the rows of a list: which of them moved the
    cursor and which are owed; and the cursor is the greatest id of a row that moved it. -/
structure Told (env : Env) (stored : Stored) (done : List (Offered × Nat)) (replay : Replay) :
    Prop where
  moved : ∀ index id, (index, id) ∈ replay.moved ↔
    ∃ row, (row, index) ∈ done ∧ row.fate env stored = .moves ∧ truthy row.row.id = some id
  retried : ∀ index, index ∈ replay.retried ↔
    ∃ row, (row, index) ∈ done ∧ row.fate env stored = .owed
  source : ∀ id, replay.latestStreamId = some id → ∃ index, (index, id) ∈ replay.moved
  greatest : ∀ entry ∈ replay.moved,
    ∃ latest, replay.latestStreamId = some latest ∧ units entry.2 ≤ units latest

/-- Marks and retry counters are not part of the history. -/
structure SameHistory (replay next : Replay) : Prop where
  latest : next.latestStreamId = replay.latestStreamId
  moved : next.moved = replay.moved
  retried : next.retried = replay.retried

variable {env : Env} {stored : Stored} {replay next : Replay} {index : Nat} {work : Work}
  {row : Offered} {done : List (Offered × Nat)} {answers : List (Option HistoryPage)}

section

variable (h : Told env stored done replay)
include h

theorem Told.same (hsame : SameHistory replay next) : Told env stored done next := by
  obtain ⟨moved, retried, source, greatest⟩ := h
  exact ⟨by rwa [hsame.moved], by rwa [hsame.retried], by rwa [hsame.latest, hsame.moved],
    by rwa [hsame.latest, hsame.moved]⟩

theorem Told.perm {other : List (Offered × Nat)} (hperm : done.Perm other) :
    Told env stored other replay := by
  obtain ⟨moved, retried, source, greatest⟩ := h
  simp only [hperm.mem_iff] at moved retried
  exact ⟨moved, retried, source, greatest⟩

theorem Told.stays (hfate : row.fate env stored = .stays) :
    Told env stored ((row, index) :: done) replay := by
  obtain ⟨moved, retried, source, greatest⟩ := h
  exact ⟨by grind, by grind, source, greatest⟩

theorem Told.owed (hfate : row.fate env stored = .owed)
    (hlatest : next.latestStreamId = replay.latestStreamId) (hmoved : next.moved = replay.moved)
    (hretried : next.retried = index :: replay.retried) :
    Told env stored ((row, index) :: done) next := by
  obtain ⟨moved, retried, source, greatest⟩ := h
  exact ⟨by grind, by grind, by grind, by grind⟩

theorem Told.moves (hfate : row.fate env stored = .moves) :
    Told env stored ((row, index) :: done) (replay.advancePast index row.row.id) := by
  obtain ⟨moved, retried, source, greatest⟩ := h
  unfold Replay.advancePast
  split
  next hnone => exact ⟨by grind, by grind, source, greatest⟩
  next id hid =>
    refine ⟨by grind, by grind, fun latest hlatest => ?_, fun entry hentry => ?_⟩
    · cases hbefore : replay.latestStreamId with
      | none => grind
      | some before => by_cases hless : units before < units id <;> grind
    · cases hbefore : replay.latestStreamId with
      | none => grind
      | some before => by_cases hless : units before < units id <;> grind

end

/-! ## 4. Scan and decryption -/

theorem mem_insertMark {marks : List String} {mark other : String} :
    other ∈ insertMark marks mark ↔ other ∈ marks ∨ other = mark := by
  unfold insertMark
  split
  next hmem => exact ⟨.inl, fun h => h.elim id fun hsame => hsame ▸ hmem⟩
  · rw [mem_append, mem_singleton]

theorem mem_foldl_insertMark {marks added : List String} {other : String} :
    other ∈ added.foldl insertMark marks ↔ other ∈ marks ∨ other ∈ added := by
  induction added generalizing marks with
  | nil => simp
  | cons mark rest ih =>
    rw [foldl_cons, ih, mem_insertMark, mem_cons]
    exact ⟨by grind, by grind⟩

/-- The replay changed under one key or mark only. -/
structure Touches (key : String) (replay next : Replay) : Prop where
  seen : ∀ mark, mark ≠ key → (mark ∈ next.seenCipherHashes ↔ mark ∈ replay.seenCipherHashes)
  count : ∀ other, other ≠ key → next.retryCounts.get? other = replay.retryCounts.get? other

theorem Fresh.touched (h : Fresh env stored replay row) {key : String} (hkey : key ∉ row.marks env)
    (htouches : Touches key replay next) : Fresh env stored next row where
  seen mark hmark := by
    rw [htouches.seen mark fun hsame => hkey (hsame ▸ hmark), h.seen mark hmark]
  count := by
    rw [htouches.count _ fun hsame => hkey (hsame ▸ mem_cons_self), h.count]

@[simp] theorem advancePast_seen (replay : Replay) (index : Nat) (rowId : Option String) :
    (replay.advancePast index rowId).seenCipherHashes = replay.seenCipherHashes := by
  unfold Replay.advancePast
  split <;> rfl

@[simp] theorem advancePast_counts (replay : Replay) (index : Nat) (rowId : Option String) :
    (replay.advancePast index rowId).retryCounts = replay.retryCounts := by
  unfold Replay.advancePast
  split <;> rfl

theorem touches_handleError (kind : MlsDecryptErrorKind) :
    Touches work.row.rowKey replay (handleError env replay work kind) := by
  refine ⟨fun mark hne => ?_, fun other hne => ?_⟩
  all_goals
    cases kind <;> simp only [handleError, Replay.consume, Replay.addSeen] <;> (try split) <;>
      simp [mem_insertMark, OrderedMap.get?_erase, OrderedMap.get?_set, hne]

theorem touches_processRow : Touches work.row.rowKey replay (processRow env replay work) := by
  unfold processRow
  split
  · exact touches_handleError _
  · exact touches_handleError _
  all_goals
    refine ⟨fun mark hne => ?_, fun other hne => ?_⟩
    all_goals
      simp [Replay.consume, Replay.addSeen, mem_insertMark, OrderedMap.get?_erase, hne]

/-- The row as it was offered. -/
def Work.offered (work : Work) : Offered := ⟨work.row, work.attempt⟩

/-- A row that goes to decryption is one that the scan does not pass over. -/
structure Queued (env : Env) (stored : Stored) (work : Work) : Prop where
  bytes : env.fromBase64 work.row.content = some work.bytes
  unpassed : work.offered.passed env stored = false

theorem scanRow_fresh (h : Fresh env stored replay row) :
    scanRow env replay index row = .threw ∨
    (∃ between, scanRow env replay index row = .passed (between.advancePast index row.row.id) ∧
      row.passed env stored = true ∧
      (between = replay ∨ between = replay.addSeen row.row.rowKey)) ∨
    ∃ work, scanRow env replay index row = .queued work ∧ Queued env stored work ∧
      work.offered = row ∧ work.index = index := by
  have hkey := h.seen row.row.rowKey mem_cons_self
  unfold scanRow Offered.passed
  dsimp only
  by_cases hseen : row.row.rowKey ∈ stored.seen
  · exact .inr (.inl ⟨replay, by rw [if_pos (hkey.mpr hseen)], by simp [hseen], .inl rfl⟩)
  · rw [if_neg (fun hmem => hseen (hkey.mp hmem))]
    by_cases hown : truthy row.row.senderDeviceId = some env.myDeviceId
    · exact .inr (.inl ⟨_, by rw [if_pos hown], by simp [hown], .inr rfl⟩)
    · rw [if_neg hown]
      cases hbytes : env.fromBase64 row.row.content with
      | none => exact .inl rfl
      | some bytes =>
        have hprint := h.seen (env.frameFingerprint bytes) (by simp [Offered.marks, hbytes])
        simp only
        by_cases hread : env.frameFingerprint bytes ∈ stored.seen
        · exact .inr (.inl ⟨_, by rw [if_pos (hprint.mpr hread)], by simp [hread], .inr rfl⟩)
        · refine .inr (.inr ⟨_, by rw [if_neg (fun hmem => hread (hprint.mp hmem))], ⟨hbytes, ?_⟩,
            rfl, rfl⟩)
          simp [Offered.passed, Work.offered, hseen, hown, hbytes, hread]

/-- Processing a row does what its fate says. -/
theorem Told.processRow (h : Told env stored done replay)
    (hqueued : Queued env stored work) (hcount : replay.retryCounts.get? work.row.rowKey =
      stored.retryCounts.get? work.row.rowKey) :
    Told env stored ((work.offered, work.index) :: done) (processRow env replay work) := by
  have hsame : ∀ key, SameHistory replay (replay.consume key) := fun _ => ⟨rfl, rfl, rfl⟩
  have hfate : work.offered.fate env stored = work.attempt.fate
      (nextHistoryRetryDecision ((replay.retryCounts.get? work.row.rowKey).getD 0)).2 := by
    rw [hcount, Offered.fate, hqueued.unpassed]
    rfl
  have herror : ∀ kind, work.offered.fate env stored = (Attempt.refused kind).fate
        (nextHistoryRetryDecision ((replay.retryCounts.get? work.row.rowKey).getD 0)).2 →
      Told env stored ((work.offered, work.index) :: done) (handleError env replay work kind) := by
    intro kind hkind
    cases kind with
    | ownMessage | evicted | secretReuse | pastEpochApplication | sameEpochRefusal =>
      exact (h.stays hkind).same ⟨rfl, rfl, rfl⟩
    | generationGap | oom | unknown => exact (h.same (hsame _)).moves hkind
    | epochGap | wrongEpoch =>
      simp only [handleError]
      split
      next hretry =>
        rw [hretry] at hkind
        exact h.owed hkind rfl rfl rfl
      next hretry =>
        rw [hretry] at hkind
        refine Told.moves (h.same ?_) hkind
        exact ⟨rfl, rfl, rfl⟩
  unfold ArchiveCursor.processRow
  split
  next kind hattempt => exact herror kind (by rw [hfate, hattempt])
  next kind hattempt => exact herror kind (by rw [hfate, hattempt]; rfl)
  next hattempt => exact (h.stays (by rw [hfate, hattempt]; rfl)).same (hsame _)
  next hattempt => exact (h.same (hsame _)).moves (by rw [hfate, hattempt]; rfl)

/-- The scan deals with the rows it passes over, and hands on the others. -/
theorem Told.scan {rows others : List Offered} {scanned : Replay} {works : List Work}
    (h : Told env stored done replay) (hapart : Apart env (rows ++ others))
    (hfresh : ∀ row ∈ rows ++ others, Fresh env stored replay row)
    (hscan : scan env replay index rows = some (scanned, works)) :
    ∃ passed, Told env stored (passed ++ done) scanned ∧
      (passed ++ works.map fun work => (work.offered, work.index)).Perm (rows.zipIdx index) ∧
      (∀ work ∈ works, Queued env stored work) ∧
      (∀ row ∈ works.map Work.offered ++ others, Fresh env stored scanned row) ∧
      Apart env (works.map Work.offered ++ others) := by
  induction rows generalizing replay index others done works with
  | nil =>
    cases hscan
    exact ⟨[], h, .nil, nofun, hfresh, hapart⟩
  | cons row rest ih =>
    obtain ⟨hoff, hrest⟩ := pairwise_cons.mp hapart
    have hrow := hfresh row mem_cons_self
    have hfreshRest : ∀ other ∈ rest ++ others, Fresh env stored replay other :=
      fun other hother => hfresh other (mem_cons_of_mem row hother)
    simp only [ArchiveCursor.scan] at hscan
    rcases @scanRow_fresh _ _ _ index _ hrow with hthrew | hpassed | hqueued
    · simp [hthrew] at hscan
    · obtain ⟨between, hscanned, hpass, hbetween⟩ := hpassed
      rw [hscanned] at hscan
      have hsame : SameHistory replay between := by
        rcases hbetween with rfl | rfl <;> exact ⟨rfl, rfl, rfl⟩
      have htouches : Touches row.row.rowKey replay (between.advancePast index row.row.id) := by
        rcases hbetween with rfl | rfl
        · exact ⟨by simp, by simp⟩
        · exact ⟨fun mark hne => by simp [Replay.addSeen, mem_insertMark, hne],
            by simp [Replay.addSeen]⟩
      have htold : Told env stored ((row, index) :: done) (between.advancePast index row.row.id) :=
        (h.same hsame).moves (by simp [Offered.fate, hpass])
      obtain ⟨passed, hpassed, hperm, hrest⟩ := ih htold hrest (fun other hother =>
        (hfreshRest other hother).touched (hoff other hother _ mem_cons_self) htouches) hscan
      refine ⟨(row, index) :: passed, hpassed.perm perm_middle, ?_, hrest⟩
      exact hperm.cons (row, index)
    · obtain ⟨work, hscanned, hqueued, rfl, rfl⟩ := hqueued
      rw [hscanned] at hscan
      obtain ⟨⟨later, laterWorks⟩, hlater, heq⟩ := map_eq_some_iff.mp hscan
      cases heq
      -- the row stays fresh to the end of the scan
      have hmoved : (rest ++ work.offered :: others).Perm (work.offered :: rest ++ others) :=
        perm_middle
      obtain ⟨passed, hpassed, hperm, hworks, hfreshes, haparts⟩ := ih h
        (hapart.perm hmoved.symm fun hab mark hmark hmem => hab mark hmem hmark)
        (fun other hother => hfresh other (hmoved.subset hother)) hlater
      refine ⟨passed, hpassed, ?_, forall_mem_cons.mpr ⟨hqueued, hworks⟩, ?_, ?_⟩
      · exact (perm_middle.trans (hperm.cons _))
      · intro other hother
        apply hfreshes
        simpa [or_left_comm] using hother
      · exact haparts.perm perm_middle fun hab mark hmark hmem => hab mark hmem hmark

theorem Told.foldl_processRow {works : List Work} (h : Told env stored done replay)
    (hkeys : (works.map fun work => work.row.rowKey).Nodup)
    (hqueued : ∀ work ∈ works, Queued env stored work)
    (hcounts : ∀ work ∈ works, replay.retryCounts.get? work.row.rowKey =
      stored.retryCounts.get? work.row.rowKey) :
    Told env stored ((works.map fun work => (work.offered, work.index)) ++ done)
      (works.foldl (ArchiveCursor.processRow env) replay) := by
  induction works generalizing replay done with
  | nil => exact h
  | cons work rest ih =>
    obtain ⟨hkey, hrest⟩ := nodup_cons.mp hkeys
    obtain ⟨hfirst, hothers⟩ := forall_mem_cons.mp hqueued
    obtain ⟨hcount, hlater⟩ := forall_mem_cons.mp hcounts
    refine (ih (h.processRow hfirst hcount) hrest hothers fun other hother => ?_).perm perm_middle
    rw [← hlater other hother]
    apply touches_processRow.count
    intro hsame
    exact hkey (mem_map.mpr ⟨other, hother, hsame⟩)

theorem Fresh.foldl_processRow {works : List Work} (h : Fresh env stored replay row)
    (hoff : ∀ work ∈ works, work.row.rowKey ∉ row.marks env) :
    Fresh env stored (works.foldl (ArchiveCursor.processRow env) replay) row := by
  induction works generalizing replay with
  | nil => exact h
  | cons work rest ih =>
    obtain ⟨hfirst, hrest⟩ := forall_mem_cons.mp hoff
    exact ih (h.touched hfirst touches_processRow) hrest

/-- The fingerprints of the page come in, and nothing else changes. -/
theorem foldl_markSpent (env : Env) (works : List Work) (replay : Replay) :
    SameHistory replay (works.foldl (markSpent env) replay) ∧
    (works.foldl (markSpent env) replay).retryCounts = replay.retryCounts ∧
    ∀ mark, (∀ work ∈ works, mark ≠ env.frameFingerprint work.bytes) →
      (mark ∈ (works.foldl (markSpent env) replay).seenCipherHashes ↔
        mark ∈ replay.seenCipherHashes) := by
  induction works generalizing replay with
  | nil => exact ⟨⟨rfl, rfl, rfl⟩, rfl, fun _ _ => Iff.rfl⟩
  | cons work rest ih =>
    obtain ⟨hsame, hcounts, hseen⟩ := ih (markSpent env replay work)
    rw [foldl_cons]
    refine ⟨⟨hsame.latest.trans ?_, hsame.moved.trans ?_, hsame.retried.trans ?_⟩,
      hcounts.trans ?_, fun mark hmark => ?_⟩
    iterate 4
      unfold markSpent
      split <;> rfl
    obtain ⟨hfirst, hrest⟩ := forall_mem_cons.mp hmark
    rw [hseen mark hrest]
    unfold markSpent
    split
    · rfl
    · simp [Replay.addSeen, mem_insertMark, hfirst]

theorem Told.processPage {page : HistoryPage} {later : List Offered}
    (h : Told env stored done replay) (hapart : Apart env (page.rows ++ later))
    (hlive : ∀ mark ∈ page.liveMarks, ∀ row ∈ later, mark ∉ row.marks env)
    (hfresh : ∀ row ∈ page.rows ++ later, Fresh env stored replay row)
    (hpage : processPage env replay page = some next) :
    Told env stored (page.rows.zipIdx replay.walked ++ done) next ∧
      (∀ row ∈ later, Fresh env stored next row) ∧
      next.walked = replay.walked + page.rows.length := by
  obtain ⟨⟨scanned, works⟩, hscan, rfl⟩ := map_eq_some_iff.mp hpage
  obtain ⟨passed, hpassed, hperm, hqueued, hfreshes, haparts⟩ := h.scan hapart hfresh hscan
  dsimp only
  let live : Replay := { scanned with
    seenCipherHashes := page.liveMarks.foldl insertMark scanned.seenCipherHashes }
  obtain ⟨hsame, hcounts, hseen⟩ := foldl_markSpent env works live
  obtain ⟨hworks, -, hoff⟩ := pairwise_append.mp haparts
  refine ⟨?_, fun row hrow => ?_, rfl⟩
  · have hlive : Told env stored (passed ++ done) (works.foldl (markSpent env) live) :=
      (hpassed.same ⟨rfl, rfl, rfl⟩ : Told env stored _ live).same hsame
    refine ((hlive.foldl_processRow ?_ hqueued fun work hwork => ?_).perm ?_).same ⟨rfl, rfl, rfl⟩
    · rw [Nodup, pairwise_map]
      rw [pairwise_map] at hworks
      refine hworks.imp fun {first second} hab hsame => ?_
      exact hab second.row.rowKey (hsame ▸ mem_cons_self) mem_cons_self
    · rw [hcounts]
      exact (hfreshes _ (mem_append_left _ (mem_map_of_mem hwork))).count
    · rw [← append_assoc]
      exact (perm_append_comm.trans hperm).append_right done
  · have hmarks : ∀ work ∈ works, ∀ mark ∈ work.offered.marks env, mark ∉ row.marks env :=
      fun work hwork => hoff _ (mem_map_of_mem hwork) row hrow
    have hspent : Fresh env stored (works.foldl (markSpent env) live) row := by
      obtain ⟨hrowSeen, hrowCount⟩ := hfreshes row (mem_append_right _ hrow)
      refine ⟨fun mark hmark => ?_, by rw [hcounts]; exact hrowCount⟩
      rw [hseen mark, mem_foldl_insertMark, hrowSeen mark hmark, or_iff_left]
      · exact fun hmem => hlive mark hmem row hrow hmark
      · rintro work hwork rfl
        refine hmarks work hwork _ (mem_cons_of_mem _ ?_) hmark
        simp [Work.offered, (hqueued work hwork).bytes]
    obtain ⟨hrowSeen, hrowCount⟩ := hspent.foldl_processRow fun work hwork =>
      hmarks work hwork _ mem_cons_self
    exact ⟨hrowSeen, hrowCount⟩

/-- A page that is not empty is processed; the walk ends with it or goes on behind it. -/
theorem walk_cons {fetchCursor walkHead : Option String} {page : HistoryPage}
    (h : walk env replay fetchCursor walkHead (some page :: answers) = some next) :
    next = replay ∨ ∃ handled, processPage env replay page = some handled ∧
      (next = handled ∨ ∃ fetchCursor walkHead,
        walk env handled fetchCursor walkHead answers = some next) := by
  simp only [walk] at h
  split at h
  · exact .inl (some.inj h).symm
  split at h
  · cases h
  next handled hpage _ => exact .inr ⟨handled, hpage, .inl (some.inj h).symm⟩
  next handled pageLastId hpage _ =>
    split at h
    · exact .inr ⟨handled, hpage, .inl (some.inj h).symm⟩
    · exact .inr ⟨handled, hpage, .inr ⟨_, _, h⟩⟩

/-- A walk deals with the rows of the pages up to the one at which it ends. -/
theorem Told.walk {fetchCursor walkHead : Option String} {before : List Offered}
    (h : Told env stored before.zipIdx replay) (hwalked : replay.walked = before.length)
    (hapart : Apart env (rowsOf answers))
    (hlive : ∀ page, some page ∈ answers → ∀ mark ∈ page.liveMarks, ∀ row ∈ rowsOf answers,
      mark ∉ row.marks env)
    (hfresh : ∀ row ∈ rowsOf answers, Fresh env stored replay row)
    (hwalk : walk env replay fetchCursor walkHead answers = some next) :
    ∃ rest, Told env stored (before ++ (rowsOf answers).take rest).zipIdx next ∧
      next.walked = (before ++ (rowsOf answers).take rest).length := by
  induction answers generalizing replay fetchCursor walkHead before with
  | nil => cases hwalk
  | cons answer answers ih =>
    cases answer with
    | none => cases hwalk
    | some page =>
      have hrows : rowsOf (some page :: answers) = page.rows ++ rowsOf answers := rfl
      rw [hrows] at hapart hfresh hlive ⊢
      rcases walk_cons hwalk with rfl | ⟨handled, hpage, hends⟩
      · exact ⟨0, by simpa using h, by simpa using hwalked⟩
      obtain ⟨hpaged, hlater, hcount⟩ := h.processPage hapart (fun mark hmark row hrow =>
        hlive page mem_cons_self mark hmark row (mem_append_right _ hrow)) hfresh hpage
      have htold : Told env stored (before ++ page.rows).zipIdx handled := by
        refine hpaged.perm ?_
        rw [zipIdx_append, hwalked, Nat.zero_add]
        exact perm_append_comm
      rw [hwalked, ← length_append] at hcount
      rcases hends with rfl | ⟨_, _, hgoes⟩
      · exact ⟨page.rows.length, by simpa using htold, by simpa using hcount⟩
      · obtain ⟨rest, htold, hcount⟩ := ih htold hcount (pairwise_append.mp hapart).2.1
          (fun page hpage mark hmark row hrow => hlive page (mem_cons_of_mem _ hpage) mark hmark
            row (mem_append_right _ hrow)) hlater hgoes
        refine ⟨page.rows.length + rest, ?_, ?_⟩
        · simpa [take_length_add_append] using htold
        · simpa [take_length_add_append] using hcount

section

variable {rows : List Offered} (htold : Told env stored rows.zipIdx replay)
include htold

end

def own (id : String) : Offered := ⟨⟨some id, some "phone", id, "09:01"⟩, .refused .ownMessage⟩

end MinesApp.ArchiveCursor
