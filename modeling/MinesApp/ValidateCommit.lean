import Mathlib.Data.List.Nodup
import Mathlib.Data.Rat.Floor
import MinesApp.JsString
import MinesApp.TransitionSystem

/-!
# The epoch gate of `validateCommit`

`messaging.service.ts` accepts a commit when its base epoch is the group's active
epoch: it takes a Redis lock for five seconds, reads the group, and advances the
epoch, publishes the external-join base and records the commit in one
transaction.  The model is one group with any number of calls; every awaited
operation is one step, the lock may expire at any step, and any awaited operation
may fail, before or after it took effect.
-/

/-! ## 0. `sanitize.ts`

The check that every route of the delivery service applies to a group or device id before it
reaches a query. -/

namespace MinesApp.Sanitize

/-- `SAFE_QUERY_VALUE_REGEX`. -/
def isSafeQueryValue (value : String) : Bool :=
  value.toList.all (fun char => char.isAlphanum || "_.:@-".toList.contains char) &&
    1 ≤ value.length && value.length ≤ 128

/-- `none` stands for a value that is not a string. -/
def sanitizeQueryValue (value : Option String) (fieldName : String) : Except String String :=
  match value with
  | none => .error (fieldName ++ " must be a string")
  | some text =>
    let trimmed := JsString.trim text
    if trimmed = "" then .error (fieldName ++ " is required")
    else if isSafeQueryValue trimmed then .ok trimmed
    else .error (fieldName ++ " contains invalid characters")

end MinesApp.Sanitize

namespace MinesApp.ValidateCommit

open TransitionSystem Sanitize List

/-! ## 1. The request -/

/-- `baseEpoch` is `none` when it is not a finite number. -/
structure ValidateCommitBody where
  groupId : Option String
  deviceId : Option String
  baseEpoch : Option Rat
  proto : Option String
  senderId : Option String
  groupInfo : Option String

structure Commit where
  groupId : String
  deviceId : String
  baseEpoch : Nat
  proto : String
  senderId : Option String
  newBase : Option String
deriving DecidableEq, Repr

/-- A string field as a condition: absent and empty are both false. -/
def truthy (text : Option String) : Option String := text.filter (· ≠ "")

def flooredBaseEpoch (body : ValidateCommitBody) : Int :=
  match body.baseEpoch with
  | some value => Rat.floor value
  | none => -1

def checkBody (body : ValidateCommitBody) : Except String Commit := do
  let groupId ← sanitizeQueryValue body.groupId "groupId"
  let deviceId ← sanitizeQueryValue body.deviceId "deviceId"
  let baseEpoch := flooredBaseEpoch body
  if baseEpoch < 0 then
    .error "baseEpoch must be a non-negative integer"
  else
    match truthy body.proto with
    | none =>
      .error "proto is required: a commit that cannot be replayed may not advance the epoch"
    | some proto =>
      return { groupId, deviceId, baseEpoch := baseEpoch.toNat, proto,
               senderId := truthy body.senderId, newBase := truthy body.groupInfo }

inductive Reason where
  | concurrentCommit
  | epochMismatch
deriving DecidableEq, Repr

/-- A call that throws does so with a message of its own, or because an awaited
    operation failed. -/
inductive Failure where
  | badRequest (message : String)
  | operation
deriving DecidableEq, Repr

inductive Answer where
  | accepted (newEpoch : Nat)
  | rejected (currentEpoch : Nat) (reason : Reason)
  | threw (failure : Failure)
deriving DecidableEq, Repr

/-! ## 2. The tables of one group -/

structure GroupInfoRow where
  groupInfo : String
  baseEpoch : Nat
deriving DecidableEq, Repr

structure CommitLogRow where
  baseEpoch : Nat
  commit : String
  senderDeviceId : String
deriving DecidableEq, Repr

/-- The group's row (only the column the gate reads; `none` when there is no such
    group), its row of `mls_group_info` and its rows of `mls_commit_log`. -/
structure Tables where
  activeEpoch : Option Nat
  groupInfo : Option GroupInfoRow
  commitLog : List CommitLogRow
deriving DecidableEq, Repr

/-- The write of `putGroupInfo`, after the row `existing` was read.  The guard of
    the statement is evaluated again on the row that is there when it runs. -/
def putGroupInfo (tables : Tables) (existing : Option GroupInfoRow) (row : GroupInfoRow) : Tables :=
  match existing with
  | none => { tables with groupInfo := some (tables.groupInfo.getD row) }
  | some _ =>
    { tables with
      groupInfo := tables.groupInfo.map fun stored =>
        if stored.baseEpoch < row.baseEpoch then row else stored }

/-- `INSERT .. ON CONFLICT DO NOTHING` under the unique index on the base epoch. -/
def insertOrIgnore (log : List CommitLogRow) (row : CommitLogRow) : List CommitLogRow :=
  if log.any (fun stored => stored.baseEpoch = row.baseEpoch) then log else log ++ [row]

/-! ## 3. Calls and the steps they take -/

/-- Which awaited operation a call has pending.  From `reading` to `committing`
    the call relies on the lock it took; `releasing` is the `finally` block, with
    the answer that will be returned. -/
inductive Stage where
  | acquiring
  | refused
  | reading
  | opening
  | checkingBase
  | writingBase (existing : Option GroupInfoRow)
  | logging
  | committing
  | checkingMembership
  | activating
  | fanningOut
  | releasing (answer : Answer)
  | ended (answer : Answer)
deriving DecidableEq, Repr

open Stage

structure Call where
  commit : Commit
  stage : Stage
deriving DecidableEq, Repr

/-- The Redis key `mls:commitlock:<groupId>`.  Its value is the device id alone;
    `owner` remembers which call set it and no step of the code reads it. -/
structure Lock where
  value : String
  owner : Nat
deriving DecidableEq, Repr

/-- The open epoch-advance transaction with its uncommitted writes.  Its first
    statement updates the group's row, which locks that row, so no second one can
    get past its own first statement before this one ends. -/
structure Transaction where
  owner : Nat
  view : Tables
deriving DecidableEq, Repr

/-- `failed` holds the answers of calls whose body did not pass the checks. -/
structure Server where
  tables : Tables
  redisLock : Option Lock
  transaction : Option Transaction
  calls : Nat → Option Call
  failed : Nat → Option String

inductive Action where
  | call (call : Nat) (body : ValidateCommitBody)
  | resume (call : Nat)
  | resumeMembership (call : Nat) (active : Bool)
  | reject (call : Nat) (applied : Bool)
  | expire

section

variable (server : Server) (commit : Commit) (call : Nat)

def Server.set (commit : Commit) (stage : Stage) : Server :=
  { server with calls := Function.update server.calls call (some ⟨commit, stage⟩) }

/-- `SET key deviceId EX 5 NX`. -/
def Server.lock (commit : Commit) : Server :=
  { server with redisLock := some (server.redisLock.getD ⟨commit.deviceId, call⟩) }

/-- The release script: delete the key if it still holds this device's id. -/
def Server.unlock : Server :=
  { server with redisLock := server.redisLock.filter (fun lock => lock.value ≠ commit.deviceId) }

/-- What follows the base's write, or the `UPDATE` when no base was sent. -/
def afterUpdate : Stage :=
  if commit.newBase.isSome then .checkingBase else .logging

/-- What follows the transaction. -/
def afterCommit : Stage :=
  if commit.senderId.isSome then .checkingMembership else .fanningOut

def acceptedAnswer : Answer := .accepted (commit.baseEpoch + 1)

/-- The pending operation of a call succeeds and the call runs to its next one. -/
def resume (commit : Commit) : Stage → Option Server
  | .acquiring =>
    match server.redisLock with
    | none => some ((server.lock call commit).set call commit .reading)
    | some _ => some (server.set call commit .refused)
  | .refused =>
    some (server.set call commit
      (.ended (.rejected (server.tables.activeEpoch.getD 0) .concurrentCommit)))
  | .reading =>
    match server.tables.activeEpoch with
    | none =>
      some (server.set call commit (.releasing (.threw (.badRequest
        ("Group " ++ commit.groupId ++ " not found")))))
    | some activeEpoch =>
      if commit.baseEpoch ≠ activeEpoch then
        some (server.set call commit (.releasing (.rejected activeEpoch .epochMismatch)))
      else some (server.set call commit .opening)
  | .opening =>
    -- the update waits while another transaction holds the row
    match server.transaction with
    | some _ => none
    | none =>
      let view := { server.tables with
        activeEpoch := server.tables.activeEpoch.map fun _ => commit.baseEpoch + 1 }
      some ({ server with transaction := some ⟨call, view⟩ }.set call commit (afterUpdate commit))
  | .checkingBase =>
    match server.transaction with
    | none => none
    | some transaction =>
      match transaction.view.groupInfo with
      | some row =>
        if commit.baseEpoch + 1 ≤ row.baseEpoch then some (server.set call commit .logging)
        else some (server.set call commit (.writingBase (some row)))
      | none => some (server.set call commit (.writingBase none))
  | .writingBase existing =>
    match server.transaction, commit.newBase with
    | some transaction, some newBase =>
      let view := putGroupInfo transaction.view existing ⟨newBase, commit.baseEpoch + 1⟩
      some ({ server with transaction := some { transaction with view } }.set call commit .logging)
    | _, _ => none
  | .logging =>
    match server.transaction with
    | none => none
    | some transaction =>
      let view := { transaction.view with
        commitLog := insertOrIgnore transaction.view.commitLog
          ⟨commit.baseEpoch, commit.proto, commit.deviceId⟩ }
      some ({ server with transaction := some { transaction with view } }.set call commit
        .committing)
  | .committing =>
    match server.transaction with
    | none => none
    | some transaction =>
      some ({ server with tables := transaction.view, transaction := none }.set call commit
        (afterCommit commit))
  | .checkingMembership => none
  | .activating => some (server.set call commit .fanningOut)
  | .fanningOut => some (server.set call commit (.releasing (acceptedAnswer commit)))
  | .releasing answer => some ((server.unlock commit).set call commit (.ended answer))
  | .ended _ => none

/-- The pending operation of a call fails, after taking effect when `applied`.
    Inside the transaction a failure rolls it back; the activation and the fan-out
    have their errors caught. -/
def reject (commit : Commit) (applied : Bool) : Stage → Option Server
  | .acquiring =>
    let server := if applied then server.lock call commit else server
    some (server.set call commit (.ended (.threw .operation)))
  | .refused => some (server.set call commit (.ended (.threw .operation)))
  | .reading | .opening | .checkingMembership =>
    some (server.set call commit (.releasing (.threw .operation)))
  | .checkingBase | .writingBase _ | .logging =>
    some ({ server with transaction := none }.set call commit (.releasing (.threw .operation)))
  | .committing =>
    match server.transaction with
    | none => none
    | some transaction =>
      let tables := if applied then transaction.view else server.tables
      some ({ server with tables, transaction := none }.set call commit
        (.releasing (.threw .operation)))
  | .activating => some (server.set call commit .fanningOut)
  | .fanningOut => some (server.set call commit (.releasing (acceptedAnswer commit)))
  | .releasing _ =>
    let server := if applied then server.unlock commit else server
    some (server.set call commit (.ended (.threw .operation)))
  | .ended _ => none

end

/-- One step of the calls on the group `groupId`. -/
def step (groupId : String) (server : Server) : Action → Option Server
  | .call call body =>
    match server.calls call, server.failed call, checkBody body with
    | none, none, .ok commit =>
      if commit.groupId = groupId then some (server.set call commit .acquiring) else none
    | none, none, .error message =>
      some { server with failed := Function.update server.failed call (some message) }
    | _, _, _ => none
  | .resume call =>
    (server.calls call).bind fun running => resume server call running.commit running.stage
  | .resumeMembership call active =>
    match server.calls call with
    | some ⟨commit, .checkingMembership⟩ =>
      some (server.set call commit (if active then .fanningOut else .activating))
    | _ => none
  | .reject call applied =>
    (server.calls call).bind fun running =>
      reject server call running.commit applied running.stage
  | .expire => some { server with redisLock := none }

/-! ## 4. What a call relies on

The stages fall into three stretches.  While `critical` the call relies on its
Redis lock; while `inTransaction` it holds the group's row; once `committed` its
commit is durable and the call can only be answered by what it committed. -/

def Stage.critical : Stage → Bool
  | .reading | .opening | .checkingBase | .writingBase _ | .logging | .committing => true
  | _ => false

def Stage.gated : Stage → Bool
  | .opening | .checkingBase | .writingBase _ | .logging | .committing => true
  | _ => false

def Stage.inTransaction : Stage → Bool
  | .checkingBase | .writingBase _ | .logging | .committing => true
  | _ => false

def Stage.committed : Stage → Bool
  | .checkingMembership | .activating | .fanningOut => true
  | .releasing (.accepted _) | .ended (.accepted _) => true
  | _ => false

/-- No step takes the Redis key away from a call that still relies on it: neither
    its expiry, nor the release script of another call of the same device. -/
def KeepsLock (groupId : String) (server : Server) (action : Action) : Prop :=
  ∀ lock call next, server.redisLock = some lock → server.calls lock.owner = some call →
    call.stage.critical = true → step groupId server action = some next →
    next.redisLock = some lock

instance (groupId : String) (server : Server) (action : Action) :
    Decidable (KeepsLock groupId server action) :=
  match hlock : server.redisLock with
  | none => isTrue fun _ _ _ hlock' => by cases hlock.symm.trans hlock'
  | some lock =>
    match hcall : server.calls lock.owner, hstep : step groupId server action with
    | some call, some next =>
      decidable_of_iff (call.stage.critical = true → next.redisLock = some lock)
        ⟨fun h lock' call' next' hlock' hcall' hcritical hstep' => by
            cases hlock.symm.trans hlock'
            cases hcall.symm.trans hcall'
            cases hstep.symm.trans hstep'
            exact h hcritical,
         fun h hcritical => h lock call next hlock hcall hcritical hstep⟩
    | none, _ => isTrue fun _ _ _ hlock' hcall' => by
      cases hlock.symm.trans hlock'
      cases hcall.symm.trans hcall'
    | some _, none => isTrue fun _ _ _ _ _ _ hstep' => by cases hstep.symm.trans hstep'

def Commit.row (commit : Commit) : CommitLogRow :=
  ⟨commit.baseEpoch, commit.proto, commit.deviceId⟩

/-- The log's rows lie below the active epoch, one for each base epoch. -/
structure LogOk (tables : Tables) : Prop where
  below : ∀ row ∈ tables.commitLog, ∃ activeEpoch, tables.activeEpoch = some activeEpoch ∧
    row.baseEpoch < activeEpoch
  unique : (tables.commitLog.map CommitLogRow.baseEpoch).Nodup

/-- What the open transaction of a call is about to commit. -/
structure ViewOk (tables : Tables) (commit : Commit) (stage : Stage) (view : Tables) : Prop where
  activeEpoch : view.activeEpoch = some (commit.baseEpoch + 1)
  commitLog : view.commitLog =
    if stage = .committing then insertOrIgnore tables.commitLog commit.row else tables.commitLog

structure CallOk (server : Server) (id : Nat) (commit : Commit) (stage : Stage) : Prop where
  guarded : stage.critical = true → ∃ lock, server.redisLock = some lock ∧ lock.owner = id
  gated : stage.gated = true → server.tables.activeEpoch = some commit.baseEpoch
  opened : stage.inTransaction = true →
    ∃ transaction, server.transaction = some transaction ∧ transaction.owner = id ∧
      ViewOk server.tables commit stage transaction.view
  recorded : stage.committed = true → commit.row ∈ server.tables.commitLog

/-- Both calls are past the commit point, at one base epoch. -/
def SameEpoch (call call' : Call) : Prop :=
  call.stage.committed = true ∧ call'.stage.committed = true ∧
    call.commit.baseEpoch = call'.commit.baseEpoch

theorem SameEpoch.symm {call call' : Call} (h : SameEpoch call call') : SameEpoch call' call :=
  ⟨h.2.1, h.1, h.2.2.symm⟩

structure Inv (server : Server) : Prop where
  calls : ∀ id commit stage, server.calls id = some ⟨commit, stage⟩ → CallOk server id commit stage
  log : LogOk server.tables
  distinct : ∀ id other call call', server.calls id = some call → server.calls other = some call' →
    SameEpoch call call' → id = other

variable {stage before : Stage} {server next : Server} {id : Nat} {transaction : Transaction}
  {groupId : String} {action : Action} {commit : Commit}

theorem Stage.critical_of_gated (h : stage.gated = true) : stage.critical = true := by
  cases stage <;> simp_all [gated, critical]

theorem Stage.gated_of_inTransaction (h : stage.inTransaction = true) : stage.gated = true := by
  cases stage <;> simp_all [gated, inTransaction]

/-- A call outside the critical stretch owes at most its row in the log. -/
theorem callOk_outside (hcritical : stage.critical = false)
    (hrecorded : stage.committed = true → commit.row ∈ server.tables.commitLog) :
    CallOk server id commit stage where
  guarded h := by simp [hcritical] at h
  gated h := by
    have := critical_of_gated h
    simp [hcritical] at this
  opened h := by
    have := critical_of_gated (gated_of_inTransaction h)
    simp [hcritical] at this
  recorded := hrecorded

/-- A call keeps its obligations over a change of whatever it does not rely on. -/
theorem CallOk.frame {after : Server} (h : CallOk server id commit stage)
    (htables : after.tables = server.tables)
    (hlock : stage.critical = true → after.redisLock = server.redisLock)
    (htransaction : stage.inTransaction = true → after.transaction = server.transaction) :
    CallOk after id commit stage where
  guarded hcritical := hlock hcritical ▸ h.guarded hcritical
  gated := htables ▸ h.gated
  opened hopen := htables ▸ htransaction hopen ▸ h.opened hopen
  recorded := htables ▸ h.recorded

section

variable (h : Inv server)
include h

/-- Two calls cannot both be critical: each would own the one lock. -/
theorem Inv.critical_unique {other : Nat} {commit' : Commit} {stage' : Stage}
    (hid : server.calls id = some ⟨commit, stage⟩) (hcritical : stage.critical = true)
    (hother : server.calls other = some ⟨commit', stage'⟩) (hcritical' : stage'.critical = true) :
    id = other := by
  obtain ⟨lock, hlock, rfl⟩ := (h.calls id commit stage hid).guarded hcritical
  obtain ⟨lock', hlock', rfl⟩ := (h.calls other commit' stage' hother).guarded hcritical'
  rw [Option.some.inj (hlock.symm.trans hlock')]

/-- The frame of a step that leaves the committed tables alone: the call that
    moved meets its new obligations, and the lock and the transaction stay as they
    were for every other call that relies on them. -/
theorem Inv.update {after : Server} (hcalls : after.calls = server.calls)
    (htables : after.tables = server.tables) (hothers : ∀ other commit' stage', other ≠ id →
      server.calls other = some ⟨commit', stage'⟩ →
      (stage'.critical = true → after.redisLock = server.redisLock) ∧
      (stage'.inTransaction = true → after.transaction = server.transaction))
    (hself : CallOk after id commit stage) (hcommitted : stage.committed = true →
      ∃ before, server.calls id = some ⟨commit, before⟩ ∧ before.committed = true) :
    Inv (after.set id commit stage) := by
  refine ⟨?_, htables ▸ h.log, ?_⟩
  · intro other commit' stage' hother
    rcases update_eq_some_iff.mp hother with ⟨rfl, hsame⟩ | ⟨hne, hold⟩
    · cases hsame
      exact hself.frame rfl (fun _ => rfl) fun _ => rfl
    · rw [hcalls] at hold
      obtain ⟨hlock, htransaction⟩ := hothers other commit' stage' hne hold
      exact (h.calls other commit' stage' hold).frame htables hlock htransaction
  · have hafter : (after.set id commit stage).calls =
        Function.update server.calls id (some ⟨commit, stage⟩) := by rw [← hcalls]; rfl
    refine unique_update hafter SameEpoch.symm h.distinct fun other found hother hsame => ?_
    -- a committed call was committed before the step, under the same commit
    obtain ⟨before, hbefore, hold⟩ := hcommitted hsame.1
    exact h.distinct other id found _ hother hbefore ⟨hsame.2.1, hold, hsame.2.2.symm⟩

section

variable (hid : server.calls id = some ⟨commit, before⟩)
include hid

/-- A step that only moves one call. -/
theorem Inv.move (hself : CallOk server id commit stage)
    (hcommitted : stage.committed = true → before.committed = true) :
    Inv (server.set id commit stage) :=
  h.update rfl rfl (fun _ _ _ _ _ => ⟨fun _ => rfl, fun _ => rfl⟩) hself
    fun hstage => ⟨before, hid, hcommitted hstage⟩

/-- A step of one call that ends outside the critical stretch. -/
theorem Inv.moveOutside (houtside : stage.critical = false)
    (hcommitted : stage.committed = true → before.committed = true) :
    Inv (server.set id commit stage) :=
  h.move hid (callOk_outside houtside fun hstage =>
    (h.calls id commit before hid).recorded (hcommitted hstage)) hcommitted

/-- A step that moves one call and the lock with it. -/
theorem Inv.moveLock {lock : Option Lock}
    (hlock : ∀ other commit' stage', server.calls other = some ⟨commit', stage'⟩ →
      stage'.critical = true → lock = server.redisLock)
    (hself : CallOk { server with redisLock := lock } id commit stage)
    (hcommitted : stage.committed = true → before.committed = true) :
    Inv ({ server with redisLock := lock }.set id commit stage) :=
  h.update rfl rfl
    (fun other commit' stage' _ hother =>
      ⟨hlock other commit' stage' hother, fun _ => rfl⟩)
    hself fun hstage => ⟨before, hid, hcommitted hstage⟩

/-- A step of the call that holds, opens or ends the transaction. -/
theorem Inv.moveTransaction {transaction : Option Transaction} (hcritical : before.critical = true)
    (hself : CallOk { server with transaction } id commit stage)
    (hcommitted : stage.committed = false) :
    Inv ({ server with transaction }.set id commit stage) := by
  refine h.update rfl rfl ?_ hself (by simp [hcommitted])
  intro other commit' stage' hne hother
  refine ⟨fun _ => rfl, fun hopen => absurd ?_ hne⟩
  exact h.critical_unique hother (critical_of_gated (gated_of_inTransaction hopen)) hid hcritical

end

end

/-! ## 5. The commit point -/

theorem insertOrIgnore_of_below {log : List CommitLogRow} {row : CommitLogRow}
    (hbelow : ∀ stored ∈ log, stored.baseEpoch < row.baseEpoch) :
    insertOrIgnore log row = log ++ [row] := by
  have hnew : log.any (fun stored => stored.baseEpoch = row.baseEpoch) = false := by
    simp only [any_eq_false, decide_eq_true_eq]
    exact fun stored hstored => ne_of_lt (hbelow stored hstored)
  simp [insertOrIgnore, hnew]

/-- At the gate's epoch the transaction's log is the log with one new row. -/
theorem Inv.view_of_committing (h : Inv server) (hid : server.calls id = some ⟨commit, .committing⟩)
    (htransaction : server.transaction = some transaction) :
    server.tables.activeEpoch = some commit.baseEpoch ∧
    (∀ row ∈ server.tables.commitLog, row.baseEpoch < commit.baseEpoch) ∧
    transaction.view.activeEpoch = some (commit.baseEpoch + 1) ∧
    transaction.view.commitLog = server.tables.commitLog ++ [commit.row] := by
  have hok := h.calls id commit .committing hid
  have hactive := hok.gated rfl
  have hbelow : ∀ row ∈ server.tables.commitLog, row.baseEpoch < commit.baseEpoch := by
    intro row hrow
    obtain ⟨activeEpoch, heq, hlt⟩ := h.log.below row hrow
    cases hactive.symm.trans heq
    exact hlt
  obtain ⟨opened, hopened, _, hview⟩ := hok.opened rfl
  cases htransaction.symm.trans hopened
  refine ⟨hactive, hbelow, hview.activeEpoch, ?_⟩
  rw [hview.commitLog, if_pos rfl]
  exact insertOrIgnore_of_below hbelow

theorem Inv.commits (h : Inv server) (hid : server.calls id = some ⟨commit, .committing⟩)
    (htransaction : server.transaction = some transaction) (houtside : stage.critical = false) :
    Inv ({ server with tables := transaction.view, transaction := none }.set id commit stage) := by
  obtain ⟨hactive, hbelow, hview, hlog⟩ := h.view_of_committing hid htransaction
  -- every other call is outside the critical stretch, so it owes at most its row
  have hother : ∀ other commit' stage', other ≠ id →
      server.calls other = some ⟨commit', stage'⟩ → stage'.critical = false := by
    intro other commit' stage' hne hcall
    cases hcritical : stage'.critical with
    | false => rfl
    | true => exact absurd (h.critical_unique hcall hcritical hid rfl) hne
  have hrecorded : ∀ other commit' stage', server.calls other = some ⟨commit', stage'⟩ →
      stage'.committed = true → commit'.row ∈ server.tables.commitLog :=
    fun other commit' stage' hcall => (h.calls other commit' stage' hcall).recorded
  refine ⟨?_, ⟨?_, ?_⟩, ?_⟩
  · intro other commit' stage' hcall
    rcases update_eq_some_iff.mp hcall with ⟨rfl, hsame⟩ | ⟨hne, hold⟩
    · cases hsame
      exact callOk_outside houtside fun _ => by simp [Server.set, hlog]
    · refine callOk_outside (hother other commit' stage' hne hold) fun hstage => ?_
      simp [Server.set, hlog, hrecorded other commit' stage' hold hstage]
  · intro row hrow
    refine ⟨commit.baseEpoch + 1, hview, ?_⟩
    rcases mem_append.mp (hlog ▸ hrow) with hold | hnew
    · exact Nat.lt_succ_of_lt (hbelow row hold)
    · rw [mem_singleton.mp hnew]
      exact Nat.lt_succ_self _
  · show (transaction.view.commitLog.map CommitLogRow.baseEpoch).Nodup
    rw [hlog, map_append, nodup_append]
    refine ⟨h.log.unique, by simp, ?_⟩
    intro epoch hepoch epoch' hepoch'
    obtain ⟨row, hrow, rfl⟩ := mem_map.mp hepoch
    rw [map_singleton, mem_singleton] at hepoch'
    rw [hepoch']
    exact ne_of_lt (hbelow row hrow)
  · -- a call committed earlier has its row below the new commit's base epoch
    refine unique_update rfl SameEpoch.symm h.distinct fun other found hother hsame => ?_
    have hlt := hbelow _ (hrecorded other found.commit found.stage hother hsame.2.1)
    exact absurd hsame.2.2 (Nat.ne_of_gt hlt)

/-! ## 6. Steps that keep the lock with the call that relies on it -/

theorem Inv.lock_kept (h : Inv server) (hok : KeepsLock groupId server action)
    (hstep : step groupId server action = some next) (hid : server.calls id = some ⟨commit, stage⟩)
    (hcritical : stage.critical = true) : next.redisLock = server.redisLock := by
  obtain ⟨lock, hlock, rfl⟩ := (h.calls id commit stage hid).guarded hcritical
  rw [hlock]
  exact hok lock ⟨commit, stage⟩ next hlock hid hcritical hstep

/-- The obligations inside the transaction, carried to the next statement. -/
theorem CallOk.advance (h : CallOk server id commit before) (hopen : before.inTransaction = true)
    (howner : transaction.owner = id) (hstage : stage.committed = false)
    (hview : ViewOk server.tables commit stage transaction.view) :
    CallOk { server with transaction := some transaction } id commit stage where
  guarded _ := h.guarded (critical_of_gated (gated_of_inTransaction hopen))
  gated _ := h.gated (gated_of_inTransaction hopen)
  opened _ := ⟨transaction, rfl, howner, hview⟩
  recorded hcommitted := by simp [hstage] at hcommitted

section

variable (h : Inv server)
include h

/-- A stage of the open transaction that writes nothing. -/
theorem Inv.stay (hid : server.calls id = some ⟨commit, before⟩)
    (hopen : before.inTransaction = true) (hbefore : before ≠ .committing)
    (hne : stage ≠ .committing) (hstage : stage.committed = false) :
    Inv (server.set id commit stage) := by
  have hself := h.calls id commit before hid
  obtain ⟨transaction, htransaction, howner, hview⟩ := hself.opened hopen
  have hmoved := hself.advance hopen howner hstage
    (⟨hview.activeEpoch, by simpa [hbefore, hne] using hview.commitLog⟩)
  exact h.move hid (by rwa [← htransaction] at hmoved) (by simp [hstage])

section

variable (hid : server.calls id = some ⟨commit, stage⟩)
include hid

/-- A rolled-back transaction leaves nothing behind. -/
theorem Inv.rollback (hopen : stage.inTransaction = true) :
    Inv ({ server with transaction := none }.set id commit (.releasing (.threw .operation))) :=
  h.moveTransaction hid (critical_of_gated (gated_of_inTransaction hopen))
    (callOk_outside rfl (by simp [committed])) rfl

protected theorem Inv.resume (hok : KeepsLock groupId server (.resume id))
    (hresume : resume server id commit stage = some next) : Inv next := by
  have hself := h.calls id commit stage hid
  have hstep : step groupId server (.resume id) = some next := by
    simp [step, hid, hresume]
  cases stage with
  | acquiring =>
    simp only [resume] at hresume
    split at hresume
    next hfree =>
      cases hresume
      refine h.moveLock hid ?_ ?_ (by simp [committed])
      · intro other commit' stage' hother hcritical
        obtain ⟨lock, hlock, _⟩ := (h.calls other commit' stage' hother).guarded hcritical
        cases hfree.symm.trans hlock
      · refine ⟨fun _ => ⟨⟨commit.deviceId, id⟩, by simp [hfree], rfl⟩, ?_, ?_, ?_⟩ <;>
          simp [gated, inTransaction, committed]
    · cases hresume
      exact h.moveOutside hid rfl (by simp [committed])
  | refused =>
    cases hresume
    exact h.moveOutside hid rfl (by simp [committed])
  | reading =>
    simp only [resume] at hresume
    split at hresume
    · cases hresume
      exact h.moveOutside hid rfl (by simp [committed])
    next activeEpoch hactive =>
      split at hresume
      · cases hresume
        exact h.moveOutside hid rfl (by simp [committed])
      next hgate =>
        cases hresume
        refine h.move hid ⟨fun _ => hself.guarded rfl, fun _ => ?_, ?_, ?_⟩ (by simp [committed])
        · rw [hactive, Decidable.not_not.mp hgate]
        · simp [inTransaction]
        · simp [committed]
  | opening =>
    simp only [resume] at hresume
    split at hresume
    · cases hresume
    cases hresume
    have hactive := hself.gated rfl
    have hplain : afterUpdate commit ≠ .committing ∧ (afterUpdate commit).committed = false := by
      unfold afterUpdate
      split <;> simp [committed]
    refine h.moveTransaction hid rfl ?_ hplain.2
    refine ⟨fun _ => hself.guarded rfl, fun _ => hactive, fun _ => ⟨_, rfl, rfl, ?_⟩, ?_⟩
    · exact ⟨by simp [hactive], by simp [hplain.1]⟩
    · simp [hplain.2]
  | checkingBase =>
    obtain ⟨transaction, htransaction, _, _⟩ := hself.opened rfl
    simp only [resume, htransaction] at hresume
    split at hresume
    · split at hresume
      all_goals
        cases hresume
        exact h.stay hid rfl (by simp) (by simp) rfl
    · cases hresume
      exact h.stay hid rfl (by simp) (by simp) rfl
  | writingBase existing =>
    obtain ⟨transaction, htransaction, howner, hview⟩ := hself.opened rfl
    simp only [resume, htransaction] at hresume
    split at hresume
    next opened newBase hopened hnewBase =>
      cases hopened
      cases hresume
      refine h.moveTransaction hid rfl (hself.advance rfl howner rfl ?_) rfl
      -- `putGroupInfo` leaves the other two tables alone
      unfold putGroupInfo
      split <;> exact ⟨hview.activeEpoch, by simpa using hview.commitLog⟩
    · cases hresume
  | logging =>
    obtain ⟨transaction, htransaction, howner, hview⟩ := hself.opened rfl
    simp only [resume, htransaction] at hresume
    cases hresume
    refine h.moveTransaction hid rfl (hself.advance rfl howner rfl ?_) rfl
    have hlog : transaction.view.commitLog = server.tables.commitLog := by
      simpa using hview.commitLog
    exact ⟨hview.activeEpoch, by simp [hlog, Commit.row]⟩
  | committing =>
    obtain ⟨transaction, htransaction, _, _⟩ := hself.opened rfl
    simp only [resume, htransaction] at hresume
    cases hresume
    refine h.commits hid htransaction ?_
    unfold afterCommit
    split <;> rfl
  | checkingMembership | ended answer => cases hresume
  | activating | fanningOut =>
    cases hresume
    exact h.moveOutside hid rfl fun _ => rfl
  | releasing answer =>
    cases hresume
    refine h.moveLock hid (fun _ _ _ hother hcritical => h.lock_kept hok hstep hother hcritical)
      (callOk_outside rfl fun hended => hself.recorded ?_) fun hended => ?_ <;>
    cases answer <;> simp_all [committed]

protected theorem Inv.reject {applied : Bool} (hok : KeepsLock groupId server (.reject id applied))
    (hreject : reject server id commit applied stage = some next) : Inv next := by
  have hself := h.calls id commit stage hid
  have hstep : step groupId server (.reject id applied) = some next := by
    simp [step, hid, hreject]
  cases stage with
  | acquiring | releasing answer =>
    cases applied with cases hreject
    | false =>
      exact h.moveOutside hid rfl (by simp [committed])
    | true =>
      exact h.moveLock hid (fun _ _ _ hother hcritical => h.lock_kept hok hstep hother hcritical)
        (callOk_outside rfl (by simp [committed])) (by simp [committed])
  | refused | reading | opening | checkingMembership =>
    cases hreject
    exact h.moveOutside hid rfl (by simp [committed])
  | checkingBase | writingBase existing | logging =>
    cases hreject
    exact h.rollback hid rfl
  | committing =>
    obtain ⟨transaction, htransaction, _, _⟩ := hself.opened rfl
    simp only [reject, htransaction] at hreject
    cases applied with cases hreject
    | false =>
      exact h.rollback hid rfl
    | true =>
      exact h.commits hid htransaction rfl
  | activating | fanningOut =>
    cases hreject
    exact h.moveOutside hid rfl fun _ => rfl
  | ended answer => cases hreject

end

protected theorem Inv.step (hok : KeepsLock groupId server action)
    (hstep : step groupId server action = some next) : Inv next := by
  cases action with simp only [step] at hstep
  | call id body =>
    split at hstep
    · obtain ⟨_, rfl⟩ := Option.ite_some_none_eq_some.mp hstep
      exact h.update rfl rfl (fun _ _ _ _ _ => ⟨fun _ => rfl, fun _ => rfl⟩)
        (callOk_outside rfl (by simp [committed])) (by simp [committed])
    · cases hstep
      refine ⟨fun id commit stage hid => ?_, h.log, h.distinct⟩
      exact (h.calls id commit stage hid).frame rfl (fun _ => rfl) fun _ => rfl
    · cases hstep
  | resume id =>
    obtain ⟨⟨commit, stage⟩, hid, hresume⟩ := Option.bind_eq_some_iff.mp hstep
    exact h.resume hid hok hresume
  | resumeMembership id active =>
    split at hstep
    next commit hid =>
      cases hstep
      cases active <;> exact h.moveOutside hid rfl fun _ => rfl
    · cases hstep
  | reject id applied =>
    obtain ⟨⟨commit, stage⟩, hid, hreject⟩ := Option.bind_eq_some_iff.mp hstep
    exact h.reject hid hok hreject
  | expire =>
    have hkept : ∀ {id stage} {commit : Commit}, server.calls id = some ⟨commit, stage⟩ →
        stage.critical = true → next.redisLock = server.redisLock := h.lock_kept hok hstep
    cases hstep
    refine ⟨fun id commit stage hid => ?_, h.log, h.distinct⟩
    exact (h.calls id commit stage hid).frame rfl (hkept hid) fun _ => rfl

end

/-! ## 7. Runs -/

def Server.start (tables : Tables) : Server := ⟨tables, none, none, fun _ => none, fun _ => none⟩

theorem inv_start {tables : Tables} (hlog : LogOk tables) : Inv (.start tables) := by
  refine ⟨?_, hlog, ?_⟩ <;> intro id _ <;> simp [Server.start]

/-- The committed tables change at a commit point only. -/
theorem tables_step (hstep : step groupId server action = some next) :
    next.tables = server.tables ∨
    ∃ id commit transaction, server.calls id = some ⟨commit, .committing⟩ ∧
      server.transaction = some transaction ∧ next.tables = transaction.view := by
  cases action with simp only [step] at hstep
  | call id body =>
    split at hstep
    · obtain ⟨_, rfl⟩ := Option.ite_some_none_eq_some.mp hstep
      exact .inl rfl
    · cases hstep
      exact .inl rfl
    · cases hstep
  | resume id =>
    obtain ⟨⟨commit, stage⟩, hid, hresume⟩ := Option.bind_eq_some_iff.mp hstep
    cases stage <;> simp only [resume] at hresume
    case committing =>
      split at hresume
      · cases hresume
      next transaction htransaction =>
        cases hresume
        exact .inr ⟨id, commit, transaction, hid, htransaction, rfl⟩
    case reading =>
      split at hresume
      · cases hresume
        exact .inl rfl
      · split at hresume <;> cases hresume <;> exact .inl rfl
    case checkingBase =>
      split at hresume
      · cases hresume
      split at hresume
      · split at hresume <;> cases hresume <;> exact .inl rfl
      · cases hresume
        exact .inl rfl
    all_goals first
      | (cases hresume; exact .inl rfl)
      | (split at hresume <;> cases hresume <;> exact .inl rfl)
      | cases hresume
  | resumeMembership id active =>
    split at hstep
    · cases hstep
      exact .inl rfl
    · cases hstep
  | reject id applied =>
    obtain ⟨⟨commit, stage⟩, hid, hreject⟩ := Option.bind_eq_some_iff.mp hstep
    cases stage <;> simp only [reject] at hreject
    case committing =>
      split at hreject
      · cases hreject
      next transaction htransaction =>
        cases hreject
        cases applied with
        | false => exact .inl rfl
        | true => exact .inr ⟨id, commit, transaction, hid, htransaction, rfl⟩
    all_goals first
      | (cases hreject; cases applied <;> exact .inl rfl)
      | cases hreject
  | expire =>
    cases hstep
    exact .inl rfl

def EpochAtMost (early late : Server) : Prop :=
  ∀ epoch, early.tables.activeEpoch = some epoch →
    ∃ later, late.tables.activeEpoch = some later ∧ epoch ≤ later

theorem epochAtMost_step (h : Inv server) (hstep : step groupId server action = some next) :
    EpochAtMost server next := by
  intro epoch hepoch
  rcases tables_step hstep with hsame | ⟨id, commit, transaction, hid, htransaction, hview⟩
  · exact ⟨epoch, hsame ▸ hepoch, le_refl _⟩
  · obtain ⟨hactive, _, hnew, _⟩ := h.view_of_committing hid htransaction
    cases hactive.symm.trans hepoch
    exact ⟨_, hview ▸ hnew, Nat.le_succ _⟩

/-- The call with this id was answered `accepted: true` for this commit. -/
def Server.Accepted (server : Server) (id : Nat) (commit : Commit) : Prop :=
  ∃ newEpoch, server.calls id = some ⟨commit, .ended (.accepted newEpoch)⟩

/-- **Commits are linear while the lock stays with its holder.**  In every run in
    which no step takes the Redis key away from a call between its acquisition and
    the end of its transaction, at most one call per base epoch is answered
    accepted, the active epoch never decreases, and the log's row at that base
    epoch is there and holds the accepted call's commit. -/
theorem commits_linear_of_kept_lock {groupId : String} {tables : Tables}
    {first second : List Action} {middle final : Server} (hlog : LogOk tables)
    (hkept : EachStep (step groupId) (KeepsLock groupId) (.start tables) (first ++ second))
    (hfirst : run (step groupId) (.start tables) first = some middle)
    (hsecond : run (step groupId) middle second = some final) :
    (∀ id other commit commit', final.Accepted id commit → final.Accepted other commit' →
      commit.baseEpoch = commit'.baseEpoch → id = other) ∧
    EpochAtMost middle final ∧
    (∀ id commit, final.Accepted id commit → commit.row ∈ final.tables.commitLog ∧
      ∀ row ∈ final.tables.commitLog, row.baseEpoch = commit.baseEpoch →
        row.commit = commit.proto) := by
  obtain ⟨hkept₁, hkept₂⟩ := eachStep_append hkept hfirst
  have hmiddle : Inv middle := run_invariant (fun h hok hstep => h.step hok hstep)
    (inv_start hlog) hkept₁ hfirst
  have hfinal : Inv final := run_invariant (fun h hok hstep => h.step hok hstep)
    hmiddle hkept₂ hsecond
  refine ⟨?_, ?_, ?_⟩
  · rintro id other commit commit' ⟨_, hid⟩ ⟨_, hother⟩ heq
    exact hfinal.distinct id other _ _ hid hother ⟨rfl, rfl, heq⟩
  · refine run_relation EpochAtMost (fun _ epoch hepoch => ⟨epoch, hepoch, le_refl _⟩) ?_
      (fun h hok hstep => Inv.step h hok hstep) (fun h _ hstep => epochAtMost_step h hstep)
      hmiddle hkept₂ hsecond
    intro early between late hearly hlate epoch hepoch
    obtain ⟨between', hbetween', hle⟩ := hearly epoch hepoch
    obtain ⟨later, hlater, hle'⟩ := hlate between' hbetween'
    exact ⟨later, hlater, le_trans hle hle'⟩
  · rintro id commit ⟨_, hid⟩
    have hrow := (hfinal.calls id commit _ hid).recorded rfl
    refine ⟨hrow, fun row hmem heq => ?_⟩
    -- the unique index leaves one row for the base epoch
    have hsame : row = commit.row := inj_on_of_nodup_map hfinal.log.unique hmem hrow heq
    rw [hsame]
    rfl

def request (deviceId : String) (baseEpoch : Rat) (proto : String) : ValidateCommitBody :=
  ⟨some "g", some deviceId, some baseEpoch, some proto, none, none⟩

/-- Two devices commit on epoch 0; the second finds the lock taken, and succeeds
    on epoch 1 once the first is done. -/
def racingRun : List Action :=
  [.call 0 (request "phone" 0 "first"), .call 1 (request "laptop" 0 "second"), .resume 0,
   .resume 1, .resume 1] ++ replicate 6 (.resume 0) ++
  [.call 2 (request "laptop" 1 "third")] ++ replicate 7 (.resume 2)

theorem commits_linear_of_kept_lock_racing :
    ∃ final, run (step "g") (.start ⟨some 0, none, []⟩) racingRun = some final ∧
      final.Accepted 0 ⟨"g", "phone", 0, "first", none, none⟩ ∧
      final.Accepted 2 ⟨"g", "laptop", 1, "third", none, none⟩ ∧
      (∀ row ∈ final.tables.commitLog, row.baseEpoch = 0 → row.commit = "first") := by
  have hends : ∃ final ∈ run (step "g") (.start ⟨some 0, none, []⟩) racingRun,
      final.calls 0 = some ⟨⟨"g", "phone", 0, "first", none, none⟩, .ended (.accepted 1)⟩ ∧
      final.calls 2 = some ⟨⟨"g", "laptop", 1, "third", none, none⟩, .ended (.accepted 2)⟩ := by
    decide
  obtain ⟨final, hrun, hfirst, hthird⟩ := hends
  have hkept : EachStep (step "g") (KeepsLock "g") (.start ⟨some 0, none, []⟩)
      (racingRun ++ []) := by decide
  have hlinear := commits_linear_of_kept_lock ⟨by simp, by simp⟩ hkept hrun (run_nil final)
  exact ⟨final, hrun, ⟨1, hfirst⟩, ⟨2, hthird⟩, (hlinear.2.2 0 _ ⟨1, hfirst⟩).2⟩

/-- The lock of call 0 expires after it read epoch 0.  Calls 1 and 2 commit on the
    epochs 0 and 1, and then call 0 goes on. -/
def expiredRun : List Action :=
  [.call 0 (request "phone" 0 "late"), .resume 0, .resume 0, .expire,
   .call 1 (request "laptop" 0 "first")] ++ replicate 7 (.resume 1) ++
  [.call 2 (request "laptop" 1 "second")] ++ replicate 7 (.resume 2)

/-- **An expired lock breaks the linearization.**  Two calls are answered accepted
    on epoch 0, the active epoch goes from 2 back to 1, and the log's row at epoch 0
    is not that of the call accepted last. -/
theorem expired_lock_forks_epoch :
    ∃ middle final, run (step "g") (.start ⟨some 0, none, []⟩) expiredRun = some middle ∧
      run (step "g") middle (replicate 5 (.resume 0)) = some final ∧
      final.Accepted 0 ⟨"g", "phone", 0, "late", none, none⟩ ∧
      final.Accepted 1 ⟨"g", "laptop", 0, "first", none, none⟩ ∧
      middle.tables.activeEpoch = some 2 ∧ final.tables.activeEpoch = some 1 ∧
      final.tables.commitLog = [⟨0, "first", "laptop"⟩, ⟨1, "second", "laptop"⟩] := by
  have hends : ∃ middle ∈ run (step "g") (.start ⟨some 0, none, []⟩) expiredRun,
      ∃ final ∈ run (step "g") middle (replicate 5 (.resume 0)),
        final.calls 0 = some ⟨⟨"g", "phone", 0, "late", none, none⟩, .ended (.accepted 1)⟩ ∧
        final.calls 1 = some ⟨⟨"g", "laptop", 0, "first", none, none⟩, .ended (.accepted 1)⟩ ∧
        middle.tables.activeEpoch = some 2 ∧ final.tables.activeEpoch = some 1 ∧
        final.tables.commitLog = [⟨0, "first", "laptop"⟩, ⟨1, "second", "laptop"⟩] := by
    decide
  obtain ⟨middle, hfirst, final, hsecond, hlate, hearly, htables⟩ := hends
  exact ⟨middle, final, hfirst, hsecond, ⟨1, hlate⟩, ⟨1, hearly⟩, htables⟩

end MinesApp.ValidateCommit
