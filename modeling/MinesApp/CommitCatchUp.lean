import MinesApp.TransitionSystem
import Mathlib.Data.List.Sort
import Mathlib.Data.List.Nodup

/-!
# Commit catch-up

The delivery service keeps the accepted commits of a group in `mls_commit_log`,
one row per base epoch, and prunes old rows.  A device that fell behind asks for
the commits from its own epoch on (`getCommitsSince`) and replays the answer
(`attemptCommitReplay` in `commitReplay.ts`).

The server half is a log that accepting and pruning shape; the device half is the
replay loop, whose epoch may be moved by anything else the device does at each of
its awaits.
-/

namespace MinesApp.CommitCatchUp

open TransitionSystem List Option

/-! ## 1. The commit log -/

def commitLogRetentionMs : Nat := 365 * 24 * 60 * 60 * 1000

def commitLogMaxPerGroup : Nat := 20000

/-- A serialised MLS commit.  `epoch` stands in its cleartext header. -/
structure MlsFrame where
  epoch : Nat
  bytes : String
deriving DecidableEq, Repr

structure MlsCommitLog where
  baseEpoch : Nat
  commit : MlsFrame
  createdAt : Nat
deriving DecidableEq, Repr

open MlsCommitLog

/-- The rows the service reads for one group; `activeEpoch` is `none` when the group
    has no row. -/
structure Server where
  groupId : String
  activeEpoch : Option Nat
  members : List String
  commitLog : List MlsCommitLog
deriving DecidableEq, Repr

/-- A commit passes the gate: the device sends the base epoch it read from the group
    it commits in, and the gate compares it with the active epoch. -/
def acceptCommit (server : Server) (commit : MlsFrame) (createdAt : Nat) : Option Server :=
  match server.activeEpoch with
  | some activeEpoch =>
    if commit.epoch = activeEpoch then
      some { server with
        activeEpoch := some (activeEpoch + 1)
        commitLog := server.commitLog ++ [⟨activeEpoch, commit, createdAt⟩] }
    else none
  | none => none

/-- The age window, then the size cap behind the group's active epoch. -/
def pruneExpiredCommitLog (server : Server) (now : Nat) : Server :=
  let cutoff := now - commitLogRetentionMs
  let kept := server.commitLog.filter fun row => ¬ row.createdAt < cutoff
  { server with
    commitLog :=
      match server.activeEpoch with
      | some activeEpoch =>
        kept.filter fun row => ¬ row.baseEpoch + commitLogMaxPerGroup < activeEpoch
      | none => kept }

structure CommitLogEntry where
  baseEpoch : Nat
  proto : MlsFrame
deriving DecidableEq, Repr

structure CommitsSinceResult where
  commits : List CommitLogEntry
  activeEpoch : Nat
  belowFloor : Bool
  gapAt : Option Nat
deriving DecidableEq, Repr

/-- The row comparison of `ORDER BY "baseEpoch" ASC`. -/
def Earlier (first second : MlsCommitLog) : Prop := first.baseEpoch ≤ second.baseEpoch

instance : DecidableRel Earlier := fun first second =>
  inferInstanceAs (Decidable (first.baseEpoch ≤ second.baseEpoch))

/-- The walk up from `expected`: the entries that can be applied one after the other,
    the epoch of the first hole behind which rows remain, and where the walk ended. -/
def collect (expected : Nat) : List MlsCommitLog → List CommitLogEntry × Option Nat × Nat
  | [] => ([], none, expected)
  | row :: rest =>
    if expected < row.baseEpoch then ([], some expected, expected)
    else
      let (applicable, gapAt, reached) := collect (row.baseEpoch + 1) rest
      (⟨row.baseEpoch, row.commit⟩ :: applicable, gapAt, reached)

def getCommitsSince (server : Server) (sinceEpoch : Nat) (requesterUserId : String) :
    Except String CommitsSinceResult :=
  if requesterUserId ∈ server.members then
    let activeEpoch := server.activeEpoch.getD 0
    let rows :=
      (server.commitLog.filter fun row => sinceEpoch ≤ row.baseEpoch).insertionSort Earlier
    let oldest := (server.commitLog.insertionSort Earlier).head?
    let belowFloor := decide (sinceEpoch < activeEpoch) &&
      oldest.any fun row => decide (sinceEpoch < row.baseEpoch)
    let (applicable, hole, expected) := collect sinceEpoch rows
    -- the log may also stop before the group does
    let gapAt := hole.or (if expected < activeEpoch then some expected else none)
    .ok ⟨applicable, activeEpoch, belowFloor, if belowFloor then none else gapAt⟩
  else .error s!"User {requesterUserId} is not a member of group {server.groupId}"

/-! ## 2. The replay on the device -/

/-- What OpenMLS answers to a commit of the group's own epoch; `unreadable` is a frame
    refused before its epoch is looked at, or any frame once the device is evicted. -/
inductive Verdict where
  | unreadable
  | merged
  | ignored
  | refused
deriving DecidableEq, Repr

inductive Processed where
  | advanced
  | unchanged
  | failed
deriving DecidableEq, Repr

/-- `process_incoming_on_group` for a commit: one from a future epoch is a gap error,
    one from a past epoch is a stale handshake and silently succeeds. -/
def processIncomingMessage (epoch : Nat) (frame : MlsFrame) (verdict : Verdict) : Processed :=
  match verdict with
  | .unreadable => .failed
  | _ =>
    if epoch < frame.epoch then .failed
    else if frame.epoch < epoch then .unchanged
    else
      match verdict with
      | .merged => .advanced
      | .ignored => .unchanged
      | _ => .failed

structure CommitReplayResult where
  healed : Bool
  belowFloor : Bool
  gapAt : Option Nat
  applied : Nat
deriving DecidableEq, Repr

/-- The locals of `attemptCommitReplay` once the answer is there. -/
structure Attempt where
  startEpoch : Nat
  answer : CommitsSinceResult
deriving DecidableEq, Repr

/-- Where the attempt stands; `looping` is before the test of the next commit, and
    holds the commits still to come and the counter. -/
inductive Stage where
  | idle
  | fetching (startEpoch : Nat)
  | looping (attempt : Attempt) (rest : List CommitLogEntry) (applied : Nat)
  | processing (attempt : Attempt) (commit : CommitLogEntry) (rest : List CommitLogEntry)
      (applied : Nat)
  | returned (attempt : Attempt) (result : CommitReplayResult)
  | threw
deriving DecidableEq, Repr

/-- A commit merged by the replay, and the epoch the device was at. -/
structure Merge where
  atEpoch : Nat
  commit : CommitLogEntry
deriving DecidableEq, Repr

structure System where
  server : Server
  epoch : Nat
  stage : Stage
  merges : List Merge
deriving DecidableEq, Repr

inductive Action where
  | accept (commit : MlsFrame) (createdAt : Nat)
  | prune (now : Nat)
  | moved (epoch : Nat)
  | begin
  | answer
  | fetchFails
  | turn
  | processed (verdict : Verdict)
deriving DecidableEq, Repr

/-- The part of `attemptCommitReplay` between the answer and the loop. -/
def enterLoop (attempt : Attempt) : Stage :=
  if attempt.answer.belowFloor then .returned attempt ⟨false, true, none, 0⟩
  else
    match attempt.answer.gapAt with
    | some gapAt => .returned attempt ⟨false, false, some gapAt, 0⟩
    | none => .looping attempt attempt.answer.commits 0

def conclude (attempt : Attempt) (epoch applied : Nat) : CommitReplayResult :=
  let reachedTarget := decide (attempt.answer.activeEpoch ≤ epoch)
  let healed := reachedTarget &&
    (decide (0 < applied) || decide (attempt.startEpoch < attempt.answer.activeEpoch))
  ⟨healed, false, none, applied⟩

def step (userId : String) (system : System) : Action → Option System
  | .accept commit createdAt =>
    (acceptCommit system.server commit createdAt).map fun server => { system with server }
  | .prune now => some { system with server := pruneExpiredCommitLog system.server now }
  -- a live delivery, or anything else that moves the group while the attempt runs
  | .moved epoch =>
    match system.stage with
    | .returned _ _ => none
    | _ => some { system with epoch }
  | .begin =>
    match system.stage with
    | .idle => some { system with stage := .fetching system.epoch }
    | _ => none
  | .answer =>
    match system.stage with
    | .fetching startEpoch =>
      match getCommitsSince system.server startEpoch userId with
      | .ok answer => some { system with stage := enterLoop ⟨startEpoch, answer⟩ }
      | .error _ => some { system with stage := .threw }
    | _ => none
  | .fetchFails =>
    match system.stage with
    | .fetching _ => some { system with stage := .threw }
    | _ => none
  | .turn =>
    match system.stage with
    | .looping attempt [] applied =>
      some { system with stage := .returned attempt (conclude attempt system.epoch applied) }
    | .looping attempt (commit :: rest) applied =>
      if commit.baseEpoch < system.epoch then
        some { system with stage := .looping attempt rest applied }
      else some { system with stage := .processing attempt commit rest applied }
    | _ => none
  | .processed verdict =>
    match system.stage with
    | .processing attempt commit rest applied =>
      match processIncomingMessage system.epoch commit.proto verdict with
      | .advanced =>
        some { system with
          epoch := system.epoch + 1
          stage := .looping attempt rest (applied + 1)
          merges := ⟨system.epoch, commit⟩ :: system.merges }
      | .unchanged => some { system with stage := .looping attempt rest (applied + 1) }
      -- `break`: nothing of the list is looked at any more
      | .failed => some { system with stage := .looping attempt [] applied }
    | _ => none

/-- A group whose log starts at `first`, and a device at any epoch. -/
def System.start (groupId : String) (members : List String) (first epoch : Nat) : System :=
  ⟨⟨groupId, some first, members, []⟩, epoch, .idle, []⟩

/-! ## 3. The answer of the server -/

/-- One row per base epoch, all below the active epoch, each holding a commit of the
    epoch it is filed under. -/
structure LogOk (server : Server) : Prop where
  unique : (server.commitLog.map baseEpoch).Nodup
  below : ∀ row ∈ server.commitLog, row.baseEpoch < server.activeEpoch.getD 0
  framed : ∀ row ∈ server.commitLog, row.commit.epoch = row.baseEpoch

variable {server : Server} {since epoch : Nat} {userId : String} {system next : System}
  {attempt : Attempt}

theorem LogOk.accept {next : Server} (h : LogOk server) {commit : MlsFrame} {createdAt : Nat}
    (haccept : acceptCommit server commit createdAt = some next) : LogOk next := by
  unfold acceptCommit at haccept
  split at haccept
  next activeEpoch hactive =>
    obtain ⟨hepoch, rfl⟩ := ite_some_none_eq_some.mp haccept
    have hbelow : ∀ row ∈ server.commitLog, row.baseEpoch < activeEpoch := by
      intro row hrow
      have := h.below row hrow
      rwa [hactive] at this
    refine ⟨?_, ?_, ?_⟩
    · rw [map_append, nodup_append]
      refine ⟨h.unique, nodup_singleton _, ?_⟩
      intro base hbase other hother
      obtain ⟨row, hrow, rfl⟩ := mem_map.mp hbase
      rw [mem_singleton.mp hother]
      exact ne_of_lt (hbelow row hrow)
    · intro row hrow
      rcases mem_append.mp hrow with hold | hnew
      · exact Nat.lt_succ_of_lt (hbelow row hold)
      · cases mem_singleton.mp hnew
        exact Nat.lt_succ_self _
    · intro row hrow
      rcases mem_append.mp hrow with hold | hnew
      · exact h.framed row hold
      · cases mem_singleton.mp hnew
        exact hepoch
  · cases haccept

theorem prune_sublist (server : Server) (now : Nat) :
    (pruneExpiredCommitLog server now).commitLog.Sublist server.commitLog := by
  simp only [pruneExpiredCommitLog]
  split
  · exact filter_sublist.trans filter_sublist
  · exact filter_sublist

theorem LogOk.prune (h : LogOk server) (now : Nat) : LogOk (pruneExpiredCommitLog server now) where
  unique := h.unique.sublist ((prune_sublist server now).map _)
  below row hrow := h.below row ((prune_sublist server now).subset hrow)
  framed row hrow := h.framed row ((prune_sublist server now).subset hrow)

/-! ### Rows in ascending order -/

instance : Std.Total Earlier := ⟨fun first second => le_total first.baseEpoch second.baseEpoch⟩

instance : IsTrans MlsCommitLog Earlier := ⟨fun _ _ _ => le_trans⟩

variable {rows : List MlsCommitLog}

theorem ascending_of_unique (h : (rows.map baseEpoch).Nodup) :
    (rows.insertionSort Earlier).Pairwise fun first second =>
      first.baseEpoch < second.baseEpoch := by
  have hsorted := pairwise_insertionSort Earlier rows
  have hdistinct : ((rows.insertionSort Earlier).map baseEpoch).Nodup :=
    ((perm_insertionSort Earlier rows).map _).nodup_iff.mpr h
  rw [List.Nodup, pairwise_map] at hdistinct
  exact hsorted.imp₂ (fun _ _ => lt_of_le_of_ne) hdistinct

/-! ### The walk -/

/-- `commits` is the longest run of consecutive commits of the log that starts at
    `since`, in order. -/
structure MaximalRun (log : List MlsCommitLog) (since : Nat) (commits : List CommitLogEntry) :
    Prop where
  consecutive : commits.map CommitLogEntry.baseEpoch = range' since commits.length
  logged : ∀ entry ∈ commits, ∃ row ∈ log,
    row.baseEpoch = entry.baseEpoch ∧ row.commit = entry.proto
  maximal : ∀ row ∈ log, row.baseEpoch ≠ since + commits.length

/-- The walk over ascending rows returns the maximal run, and ends behind it. -/
theorem collect_spec {expected : Nat} (hfrom : ∀ row ∈ rows, expected ≤ row.baseEpoch)
    (hsorted : rows.Pairwise fun first second => first.baseEpoch < second.baseEpoch) :
    MaximalRun rows expected (collect expected rows).1 ∧
      (collect expected rows).2.2 = expected + (collect expected rows).1.length := by
  induction rows generalizing expected with
  | nil => exact ⟨⟨rfl, nofun, nofun⟩, rfl⟩
  | cons row rest ih =>
    obtain ⟨hlater, hrest⟩ := pairwise_cons.mp hsorted
    by_cases hgap : expected < row.baseEpoch
    · simp only [collect, if_pos hgap]
      refine ⟨⟨rfl, nofun, fun other hother => ?_⟩, rfl⟩
      rcases mem_cons.mp hother with rfl | htail
      · exact ne_of_gt hgap
      · exact ne_of_gt (lt_trans hgap (hlater other htail))
    · have hbase : row.baseEpoch = expected :=
        Nat.le_antisymm (Nat.le_of_not_lt hgap) (hfrom row mem_cons_self)
      have hnext : ∀ other ∈ rest, row.baseEpoch + 1 ≤ other.baseEpoch := hlater
      obtain ⟨⟨hconsecutive, hlogged, hmaximal⟩, hreached⟩ := ih hnext hrest
      simp only [collect, if_neg hgap]
      refine ⟨⟨?_, ?_, ?_⟩, ?_⟩
      · rw [map_cons, hconsecutive, length_cons, range'_succ, hbase]
      · intro entry hentry
        rcases mem_cons.mp hentry with rfl | htail
        · exact ⟨row, mem_cons_self, rfl, rfl⟩
        · obtain ⟨other, hother, heq⟩ := hlogged entry htail
          exact ⟨other, mem_cons_of_mem _ hother, heq⟩
      · intro other hother
        rw [length_cons]
        rcases mem_cons.mp hother with rfl | htail
        · omega
        · have := hmaximal other htail
          omega
      · rw [hreached, length_cons]
        omega

/-- What an answer to `since` owes to the log it was computed from. -/
structure AnswerOk (server : Server) (since : Nat) (answer : CommitsSinceResult) : Prop where
  run : MaximalRun server.commitLog since answer.commits
  active : answer.activeEpoch = server.activeEpoch.getD 0
  reaches : answer.belowFloor = false → answer.gapAt = none →
    since + answer.commits.length = max since answer.activeEpoch

variable {commits : List CommitLogEntry}

/-- The filter keeps every row the run could need. -/
theorem maximalRun_of_filter {log : List MlsCommitLog}
    (h : MaximalRun ((log.filter fun row => since ≤ row.baseEpoch).insertionSort Earlier)
      since commits) : MaximalRun log since commits := by
  have hmem : ∀ row, row ∈ (log.filter fun row => since ≤ row.baseEpoch).insertionSort Earlier ↔
      row ∈ log ∧ since ≤ row.baseEpoch := by
    intro row
    rw [mem_insertionSort, mem_filter, decide_eq_true_eq]
  refine ⟨h.consecutive, ?_, ?_⟩
  · intro entry hentry
    obtain ⟨row, hrow, heq⟩ := h.logged entry hentry
    exact ⟨row, ((hmem row).mp hrow).1, heq⟩
  · intro row hrow hbase
    exact h.maximal row ((hmem row).mpr ⟨hrow, by omega⟩) hbase

theorem run_le_active (h : LogOk server) (hrun : MaximalRun server.commitLog since commits) :
    since + commits.length ≤ max since (server.activeEpoch.getD 0) := by
  rcases Nat.eq_zero_or_pos commits.length with hempty | hpos
  · rw [hempty]
    exact le_max_left _ _
  · have hlast : since + (commits.length - 1) ∈ commits.map CommitLogEntry.baseEpoch := by
      rw [hrun.consecutive, mem_range'_1]
      omega
    obtain ⟨entry, hentry, hbase⟩ := mem_map.mp hlast
    obtain ⟨row, hrow, heq, _⟩ := hrun.logged entry hentry
    have := h.below row hrow
    omega

theorem answerOk (h : LogOk server)
    {answer : CommitsSinceResult} (hanswer : getCommitsSince server since userId = .ok answer) :
    AnswerOk server since answer := by
  unfold getCommitsSince at hanswer
  split at hanswer
  · have hunique : ((server.commitLog.filter fun row => since ≤ row.baseEpoch).map
        baseEpoch).Nodup := h.unique.sublist (filter_sublist.map _)
    have hfrom : ∀ row ∈ (server.commitLog.filter fun row => since ≤ row.baseEpoch).insertionSort
        Earlier, since ≤ row.baseEpoch := by
      intro row hrow
      rw [mem_insertionSort, mem_filter, decide_eq_true_eq] at hrow
      exact hrow.2
    obtain ⟨hrun, hreached⟩ := collect_spec hfrom (ascending_of_unique hunique)
    have hlog := maximalRun_of_filter hrun
    have hbound := run_le_active h hlog
    cases hanswer
    refine ⟨hlog, rfl, fun hfloor hgap => ?_⟩
    -- neither a hole nor an early end is left, so the walk ended at the active epoch
    dsimp only at hfloor hgap
    rw [hfloor, if_neg Bool.false_ne_true, or_eq_none_iff] at hgap
    obtain ⟨_, hend⟩ := hgap
    split at hend
    · cases hend
    next hstop =>
      rw [hreached] at hstop
      simp only at hbound ⊢
      omega
  · cases hanswer

/-! ## 4. The replay under interference -/

def Stage.attempt? : Stage → Option Attempt
  | .looping attempt _ _ | .processing attempt _ _ _ | .returned attempt _ => some attempt
  | .idle | .fetching _ | .threw => none

/-- The commits the loop has still to look at. -/
def Stage.pending : Stage → List CommitLogEntry
  | .looping _ rest _ => rest
  | .processing _ commit rest _ => commit :: rest
  | _ => []

/-- The answer cannot be replayed to the end. -/
def Attempt.blocked (attempt : Attempt) : Prop :=
  attempt.answer.belowFloor = true ∨ attempt.answer.gapAt ≠ none

/-- What the loop relies on: the commits come in ascending order, and each is a
    commit of the epoch it is filed under. -/
structure Replayable (attempt : Attempt) : Prop where
  ascending : attempt.answer.commits.Pairwise fun first second =>
    first.baseEpoch < second.baseEpoch
  framed : ∀ entry ∈ attempt.answer.commits, entry.proto.epoch = entry.baseEpoch

structure Inv (system : System) : Prop where
  log : LogOk system.server
  atBase : ∀ merge ∈ system.merges, merge.commit.baseEpoch = merge.atEpoch
  untouched : system.stage.attempt? = none → system.merges = []
  replayable : ∀ attempt, system.stage.attempt? = some attempt → Replayable attempt
  -- what was merged and what is still to come, in the order of the answer
  order : ∀ attempt, system.stage.attempt? = some attempt →
    ((system.merges.map Merge.commit).reverse ++ system.stage.pending).Sublist
      attempt.answer.commits
  blocked : ∀ attempt, system.stage.attempt? = some attempt → attempt.blocked →
    system.merges = [] ∧ ∃ result, system.stage = .returned attempt result ∧
      result.healed = false ∧ result.applied = 0
  healed : ∀ attempt result, system.stage = .returned attempt result → result.healed = true →
    attempt.answer.activeEpoch ≤ system.epoch

theorem inv_start (groupId : String) (members : List String) (first epoch : Nat) :
    Inv (.start groupId members first epoch) where
  log := ⟨nodup_nil, nofun, nofun⟩
  atBase := nofun
  untouched _ := rfl
  replayable := nofun
  order := nofun
  blocked := nofun
  healed := nofun

theorem Inv.withServer (h : Inv system) (hlog : LogOk server) : Inv { system with server } :=
  { h with log := hlog }

theorem replayable_of_answerOk (hlog : LogOk server)
    (h : AnswerOk server attempt.startEpoch attempt.answer) : Replayable attempt := by
  refine ⟨?_, ?_⟩
  · have hrange : (range' attempt.startEpoch attempt.answer.commits.length).Pairwise (· < ·) :=
      pairwise_lt_range'
    rw [← h.run.consecutive, pairwise_map] at hrange
    exact hrange
  · intro entry hentry
    obtain ⟨row, hrow, hbase, hcommit⟩ := h.run.logged entry hentry
    rw [← hcommit, ← hbase]
    exact hlog.framed row hrow

/-- A stage of the same attempt that looks at fewer commits, with nothing merged. -/
theorem Inv.shrink (h : Inv system) {stage : Stage} (hbefore : system.stage.attempt? = some attempt)
    (hafter : stage.attempt? = some attempt) (hpending : stage.pending.Sublist system.stage.pending)
    (hrunning : ∀ result, system.stage ≠ .returned attempt result)
    (hhealed : ∀ result, stage = .returned attempt result → result.healed = true →
      attempt.answer.activeEpoch ≤ system.epoch) : Inv { system with stage } := by
  have hsame : ∀ other, stage.attempt? = some other → other = attempt :=
    fun other hother => (some.inj (hafter.symm.trans hother)).symm
  refine ⟨h.log, h.atBase, ?_, ?_, ?_, ?_, ?_⟩
  · intro hnone
    cases hafter.symm.trans hnone
  · intro other hother
    rw [hsame other hother]
    exact h.replayable attempt hbefore
  · intro other hother
    rw [hsame other hother]
    exact (hpending.append_left _).trans (h.order attempt hbefore)
  · intro other hother hblocked
    rw [hsame other hother] at hblocked
    obtain ⟨_, result, hreturned, _⟩ := h.blocked attempt hbefore hblocked
    exact absurd hreturned (hrunning result)
  · intro other result hreturned hresult
    have hother : stage.attempt? = some other := by
      rw [show stage = .returned other result from hreturned]
      rfl
    cases hsame other hother
    exact hhealed result hreturned hresult

theorem enterLoop_cases (attempt : Attempt) :
    (∃ result, enterLoop attempt = .returned attempt result ∧ result.healed = false ∧
      result.applied = 0) ∨
    (¬ attempt.blocked ∧ enterLoop attempt = .looping attempt attempt.answer.commits 0) := by
  unfold enterLoop
  by_cases hfloor : attempt.answer.belowFloor = true
  · rw [if_pos hfloor]
    exact .inl ⟨_, rfl, rfl, rfl⟩
  · rw [if_neg hfloor]
    cases hgap : attempt.answer.gapAt with
    | some gapAt => exact .inl ⟨_, rfl, rfl, rfl⟩
    | none => exact .inr ⟨fun hblocked => hblocked.elim hfloor fun hne => hne hgap, rfl⟩

section

variable (h : Inv system)
include h

theorem Inv.open (hmerges : system.merges = [])
    (hreplayable : Replayable attempt) : Inv { system with stage := enterLoop attempt } := by
  rcases enterLoop_cases attempt with ⟨result, hstage, hhealed, happlied⟩ | ⟨hfree, hstage⟩
  · rw [hstage]
    refine ⟨h.log, h.atBase, nofun, ?_, ?_, ?_, ?_⟩
    · rintro other hother
      cases hother
      exact hreplayable
    · rintro other hother
      rw [hmerges]
      exact nil_sublist _
    · rintro other hother _
      cases hother
      exact ⟨hmerges, result, rfl, hhealed, happlied⟩
    · rintro other final hreturned hresult
      cases hreturned
      rw [hhealed] at hresult
      cases hresult
  · rw [hstage]
    refine ⟨h.log, h.atBase, nofun, ?_, ?_, ?_, nofun⟩
    · rintro other hother
      cases hother
      exact hreplayable
    · rintro other hother
      cases hother
      rw [hmerges]
      exact List.Sublist.refl _
    · rintro other hother hblocked
      cases hother
      exact absurd hblocked hfree

theorem Inv.noAttempt (hmerges : system.merges = [])
    {stage : Stage} (hstage : stage.attempt? = none) : Inv { system with stage } := by
  have hnone : ∀ {P : Attempt → Prop} attempt, stage.attempt? = some attempt → P attempt := by
    intro P attempt hattempt
    cases hstage.symm.trans hattempt
  refine ⟨h.log, h.atBase, fun _ => hmerges, hnone, hnone, hnone, ?_⟩
  intro attempt result hreturned
  rw [show stage = .returned attempt result from hreturned] at hstage
  cases hstage

theorem Inv.answer (hstep : step userId system .answer = some next) : Inv next := by
  simp only [step] at hstep
  split at hstep
  next startEpoch hstage =>
    have hmerges : system.merges = [] := h.untouched (by rw [hstage]; rfl)
    split at hstep
    next answer hanswer =>
      cases hstep
      exact h.open hmerges (replayable_of_answerOk h.log (answerOk h.log hanswer))
    · cases hstep
      exact h.noAttempt hmerges rfl
  · cases hstep

theorem Inv.turn (hstep : step userId system .turn = some next) : Inv next := by
  simp only [step] at hstep
  split at hstep
  next attempt applied hstage =>
    cases hstep
    refine h.shrink (by rw [hstage]; rfl) rfl (nil_sublist _) (by rw [hstage]; exact nofun) ?_
    intro result hreturned hresult
    cases hreturned
    simp only [conclude, Bool.and_eq_true, decide_eq_true_eq] at hresult
    exact hresult.1
  next attempt commit rest applied hstage =>
    have hattempt : system.stage.attempt? = some attempt := by rw [hstage]; rfl
    have hrunning : ∀ result, system.stage ≠ .returned attempt result := by
      rw [hstage]
      exact nofun
    split at hstep
    · cases hstep
      refine h.shrink hattempt rfl ?_ hrunning nofun
      rw [hstage]
      exact sublist_cons_self commit rest
    · cases hstep
      refine h.shrink hattempt rfl ?_ hrunning nofun
      rw [hstage]
      exact List.Sublist.refl _
  · cases hstep

end

/-- A commit advances the device only when it is a commit of its very epoch. -/
theorem epoch_of_advanced {frame : MlsFrame} {verdict : Verdict}
    (h : processIncomingMessage epoch frame verdict = .advanced) : frame.epoch = epoch := by
  unfold processIncomingMessage at h
  split at h
  · cases h
  split at h
  · cases h
  split at h
  · cases h
  · omega

theorem Inv.processed (h : Inv system) {verdict : Verdict}
    (hstep : step userId system (.processed verdict) = some next) : Inv next := by
  simp only [step] at hstep
  split at hstep
  next attempt commit rest applied hstage =>
    have hattempt : system.stage.attempt? = some attempt := by rw [hstage]; rfl
    have hrunning : ∀ result, system.stage ≠ .returned attempt result := by
      rw [hstage]
      exact nofun
    have horder := h.order attempt hattempt
    rw [hstage] at horder
    split at hstep
    next hadvanced =>
      cases hstep
      have hmem : commit ∈ attempt.answer.commits :=
        horder.subset (mem_append_right _ mem_cons_self)
      have hbase : commit.baseEpoch = system.epoch :=
        ((h.replayable attempt hattempt).framed commit hmem).symm.trans
          (epoch_of_advanced hadvanced)
      refine ⟨h.log, ?_, nofun, ?_, ?_, ?_, nofun⟩
      · intro merge hmerge
        rcases mem_cons.mp hmerge with rfl | hold
        · exact hbase
        · exact h.atBase merge hold
      · rintro other hother
        cases hother
        exact h.replayable attempt hattempt
      · rintro other hother
        cases hother
        rw [map_cons, reverse_cons, append_assoc]
        exact horder
      · rintro other hother hblocked
        cases hother
        obtain ⟨_, result, hreturned, _⟩ := h.blocked attempt hattempt hblocked
        exact absurd hreturned (hrunning result)
    · cases hstep
      refine h.shrink hattempt rfl ?_ hrunning nofun
      rw [hstage]
      exact sublist_cons_self commit rest
    · cases hstep
      exact h.shrink hattempt rfl (nil_sublist _) hrunning nofun
  · cases hstep

theorem Inv.moved (h : Inv system)
    (hstep : step userId system (.moved epoch) = some next) : Inv next := by
  simp only [step] at hstep
  split at hstep
  · cases hstep
  next hrunning =>
    cases hstep
    exact { h with healed := fun attempt result hreturned =>
              absurd hreturned (hrunning attempt result) }

protected theorem Inv.step (h : Inv system) {action : Action}
    (hstep : step userId system action = some next) : Inv next := by
  cases action with
  | accept commit createdAt =>
    simp only [step, map_eq_some_iff] at hstep
    obtain ⟨server, haccept, rfl⟩ := hstep
    exact h.withServer (h.log.accept haccept)
  | prune now =>
    cases hstep
    exact h.withServer (h.log.prune now)
  | moved epoch => exact h.moved hstep
  | begin =>
    simp only [step] at hstep
    split at hstep
    next hstage =>
      cases hstep
      exact h.noAttempt (h.untouched (by rw [hstage]; rfl)) rfl
    · cases hstep
  | answer => exact h.answer hstep
  | fetchFails =>
    simp only [step] at hstep
    split at hstep
    next startEpoch hstage =>
      cases hstep
      exact h.noAttempt (h.untouched (by rw [hstage]; rfl)) rfl
    · cases hstep
  | turn => exact h.turn hstep
  | processed verdict => exact h.processed hstep

/-- **Commit catch-up.**  Whatever was accepted, pruned and moved meanwhile: an answer
    of `getCommitsSince` is the maximal run of logged commits from the epoch asked for,
    and reaches the active epoch unless it is flagged; the replay merges only commits
    of the epoch the device is at, in increasing order and out of its answer, none when
    the answer is flagged, and reports `healed` only at the active epoch or beyond. -/
theorem commit_catch_up (groupId : String) (members : List String) (first epoch : Nat)
    (userId : String) {actions : List Action} {system : System}
    (hrun : run (step userId) (.start groupId members first epoch) actions = some system) :
    (∀ since answer, getCommitsSince system.server since userId = .ok answer →
      MaximalRun system.server.commitLog since answer.commits ∧
      answer.activeEpoch = system.server.activeEpoch.getD 0 ∧
      (answer.belowFloor = false → answer.gapAt = none →
        since + answer.commits.length = max since answer.activeEpoch)) ∧
    (∀ merge ∈ system.merges, merge.commit.baseEpoch = merge.atEpoch) ∧
    ((system.merges.map fun merge => merge.commit.baseEpoch).reverse.Pairwise (· < ·)) ∧
    (∀ attempt, system.stage.attempt? = some attempt →
      (∀ merge ∈ system.merges, merge.commit ∈ attempt.answer.commits) ∧
      (attempt.answer.belowFloor = true ∨ attempt.answer.gapAt ≠ none → system.merges = [])) ∧
    (∀ attempt result, system.stage = .returned attempt result → result.healed = true →
      attempt.answer.activeEpoch ≤ system.epoch) := by
  have hinv : Inv system :=
    invariant_of_run (fun h => h.step) (inv_start groupId members first epoch) hrun
  refine ⟨?_, hinv.atBase, ?_, ?_, hinv.healed⟩
  · intro since answer hanswer
    obtain ⟨hmaximal, hactive, hreaches⟩ := answerOk hinv.log hanswer
    exact ⟨hmaximal, hactive, hreaches⟩
  · cases hattempt : system.stage.attempt? with
    | none =>
      rw [hinv.untouched hattempt]
      exact List.Pairwise.nil
    | some attempt =>
      have hmerged : (system.merges.map Merge.commit).reverse.Sublist attempt.answer.commits :=
        (sublist_append_left _ _).trans (hinv.order attempt hattempt)
      have hsorted := (hinv.replayable attempt hattempt).ascending.sublist hmerged
      rw [pairwise_reverse, pairwise_map] at hsorted ⊢
      exact hsorted
  · intro attempt hattempt
    refine ⟨fun merge hmerge => ?_, fun hblocked => (hinv.blocked attempt hattempt hblocked).1⟩
    apply (hinv.order attempt hattempt).subset
    apply mem_append_left
    rw [mem_reverse]
    exact mem_map_of_mem hmerge

/-- Three commits are logged; while the answer travels a live delivery applies the
    first of them, and the replay merges the other two. -/
def overtakenReplay : List Action :=
  [.accept ⟨0, "a"⟩ 10, .accept ⟨1, "b"⟩ 20, .accept ⟨2, "c"⟩ 30, .prune 40, .begin, .answer,
   .moved 1, .turn, .turn, .processed .merged, .turn, .processed .merged, .turn]

theorem commit_catch_up_overtaken :
    ∃ system, run (step "u") (.start "g" ["u"] 0 0) overtakenReplay = some system ∧
      (∃ attempt, system.stage = .returned attempt ⟨true, false, none, 2⟩ ∧
        attempt.answer.activeEpoch ≤ system.epoch) ∧
      system.merges.map Merge.atEpoch = [2, 1] ∧
      ∀ merge ∈ system.merges, merge.commit.baseEpoch = merge.atEpoch := by
  obtain ⟨_, hbase, _, _, hhealed⟩ := commit_catch_up "g" ["u"] 0 0 "u"
    (rfl : run (step "u") (.start "g" ["u"] 0 0) overtakenReplay = some _)
  exact ⟨_, rfl, ⟨_, rfl, hhealed _ _ rfl rfl⟩, rfl, hbase⟩

end MinesApp.CommitCatchUp
