import MinesApp.RowLock
import MinesApp.ValidateCommit

/-!
# Deleting a group while messages are being queued for it

Two transactions of the delivery service meet on a group's row.
`enqueueForLiveGroup` reads the row `FOR SHARE`, refuses if it is absent or
tombstoned, and inserts its queue rows.  `deleteGroup` writes the tombstone, then
deletes every row the group owns.  Statements are atomic, a transaction sees what
others committed before its statement, and row locks are held to its end.
-/

namespace MinesApp.GroupDeletion

open TransitionSystem Sanitize List Function RowLock

/-! ## 1. The database -/

/-- The seven tables of `deleteGroupOwnedRows`. -/
inductive OwnedTable where
  | queuedMessages
  | members
  | deviceMemberships
  | commitLog
  | groupInfo
  | invites
  | dismissals
deriving DecidableEq, Repr

open OwnedTable

/-- The deletions of `deleteGroupOwnedRows` in their order; the dismissal markers
    stay with a tombstone. -/
def ownedTables (groupRowSurvives : Bool) : List OwnedTable :=
  [.queuedMessages, .members, .deviceMemberships, .commitLog, .groupInfo, .invites] ++
    if groupRowSurvives then [] else [.dismissals]

structure Row where
  id : Nat
  groupId : Option String
  body : String
deriving DecidableEq, Repr

structure GroupRow where
  deletedAt : Option Nat
deriving DecidableEq, Repr

/-- The committed database; `nextId` is the key generator of the queue table. -/
structure Database where
  groups : String → Option GroupRow
  rows : OwnedTable → List Row
  nextId : Nat

open Database

section

variable (db : Database) (groupId : String)

def Database.ownedBy (table : OwnedTable) : List Row :=
  (db.rows table).filter (fun row => row.groupId = some groupId)

/-- The rows `save` inserts for one send. -/
def queueRows (nextId : Nat) (groupId : Option String) (bodies : List String) : List Row :=
  bodies.mapIdx fun index body => ⟨nextId + index, groupId, body⟩

def Database.insert (rows : List Row) : Database :=
  { db with rows := update db.rows .queuedMessages (db.rows .queuedMessages ++ rows) }

/-- The commit of a deletion: the tombstone, if there was a row to mark, and the
    disappearance of every row its statements deleted. -/
def Database.applyDeletion (deletedAt : Nat) (marked : Bool)
    (removed : List (OwnedTable × Row)) : Database :=
  { db with
    groups := if marked then update db.groups groupId (some ⟨some deletedAt⟩)
      else db.groups
    rows := fun table => (db.rows table).filter fun row => (table, row) ∉ removed }

def Database.tombstoned : Prop :=
  ∃ deletedAt, db.groups groupId = some ⟨some deletedAt⟩

end

/-! ## 2. The two transactions -/

inductive EnqueueAnswer where
  | saved
  | gone
  | threw
deriving DecidableEq, Repr

/-- The pending statement of `enqueueForLiveGroup`: the bare `save` of a send
    without a group, or the transaction's `SELECT .. FOR SHARE`, its `INSERT`, its
    commit, or the rollback that follows a refusal.  An ended call remembers the
    rows it made durable. -/
inductive EnqueueStage where
  | saving
  | checking
  | inserting
  | committing (rows : List Row)
  | refusing
  | ended (answer : EnqueueAnswer) (stored : List Row)
deriving DecidableEq, Repr

inductive DeleteAnswer where
  | deleted
  | threw
deriving DecidableEq, Repr

/-- The pending statement of `deleteGroup`: the tombstone's `UPDATE`, the next
    deletion (or the commit, once none remains), or the Redis keys after it.
    `marked` says whether the `UPDATE` found a row. -/
inductive DeleteStage where
  | marking
  | purging (marked : Bool) (remaining : List OwnedTable) (removed : List (OwnedTable × Row))
  | cleaning (removed : List (OwnedTable × Row))
  | ended (answer : DeleteAnswer) (removed : List (OwnedTable × Row))
deriving DecidableEq, Repr

open DeleteStage

inductive Call where
  | enqueue (groupId : Option String) (bodies : List String) (stage : EnqueueStage)
  | delete (groupId : String) (deletedAt : Nat) (stage : DeleteStage)
  | badRequest (message : String)
deriving DecidableEq, Repr

structure Server where
  db : Database
  locks : String → RowLock
  calls : Nat → Option Call

open Server

section

variable (server : Server) (id : Nat) (groupId : String) (bodies : List String)

def Server.set (call : Call) : Server :=
  { server with calls := update server.calls id (some call) }

def Server.withLock (lock : RowLock) : Server :=
  { server with locks := update server.locks groupId lock }

/-- The end of the transaction of `id`, which held at most the lock on this row. -/
def Server.unlock : Server :=
  server.withLock groupId ((server.locks groupId).release id)

def Server.generateIds (count : Nat) : Server :=
  { server with db := { server.db with nextId := server.db.nextId + count } }

/-- The next statement of a send to a group. -/
def resumeEnqueue : EnqueueStage → Option Server
  | .checking =>
    match server.db.groups groupId with
    | none => some (server.set id (.enqueue (some groupId) bodies .refusing))
    | some row =>
      ((server.locks groupId).share id).map fun lock =>
        (server.withLock groupId lock).set id (.enqueue (some groupId) bodies
          (if row.deletedAt.isSome then .refusing else .inserting))
  | .inserting =>
    let rows := queueRows server.db.nextId (some groupId) bodies
    some ((server.generateIds bodies.length).set id
      (.enqueue (some groupId) bodies (.committing rows)))
  | .committing rows =>
    some (({ server with db := server.db.insert rows }.unlock id groupId).set id
      (.enqueue (some groupId) bodies (.ended .saved rows)))
  | .refusing =>
    some ((server.unlock id groupId).set id (.enqueue (some groupId) bodies (.ended .gone [])))
  | .saving | .ended _ _ => none

/-- A statement of a send to a group fails; a commit may have taken effect. -/
def rejectEnqueue (applied : Bool) : EnqueueStage → Option Server
  | .checking | .inserting | .refusing =>
    some ((server.unlock id groupId).set id (.enqueue (some groupId) bodies (.ended .threw [])))
  | .committing rows =>
    if applied then
      some (({ server with db := server.db.insert rows }.unlock id groupId).set id
        (.enqueue (some groupId) bodies (.ended .threw rows)))
    else
      some ((server.unlock id groupId).set id (.enqueue (some groupId) bodies (.ended .threw [])))
  | .saving | .ended _ _ => none

/-- A send without a group is one statement and nothing is checked. -/
def saveUngrouped (answer : EnqueueAnswer) (applied : Bool) : Server :=
  let rows := if applied then queueRows server.db.nextId none bodies else []
  let saved := { server with db := server.db.insert rows }
  (saved.generateIds bodies.length).set id (.enqueue none bodies (.ended answer rows))

def resumeDelete (deletedAt : Nat) : DeleteStage → Option Server
  | .marking =>
    match server.db.groups groupId with
    | none =>
      some (server.set id (.delete groupId deletedAt (.purging false (ownedTables true) [])))
    | some _ =>
      ((server.locks groupId).exclude id).map fun lock =>
        (server.withLock groupId lock).set id
          (.delete groupId deletedAt (.purging true (ownedTables true) []))
  | .purging marked (table :: remaining) removed =>
    some (server.set id (.delete groupId deletedAt (.purging marked remaining
      (removed ++ (server.db.ownedBy groupId table).map fun row => (table, row)))))
  | .purging marked [] removed =>
    some (({ server with db := server.db.applyDeletion groupId deletedAt marked removed }.unlock
      id groupId).set id (.delete groupId deletedAt (.cleaning removed)))
  | .cleaning removed =>
    some (server.set id (.delete groupId deletedAt (.ended .deleted removed)))
  | .ended _ _ => none

def rejectDelete (deletedAt : Nat) (applied : Bool) : DeleteStage → Option Server
  | .marking => some (server.set id (.delete groupId deletedAt (.ended .threw [])))
  | .purging _ (_ :: _) _ =>
    some ((server.unlock id groupId).set id (.delete groupId deletedAt (.ended .threw [])))
  | .purging marked [] removed =>
    if applied then
      some (({ server with
          db := server.db.applyDeletion groupId deletedAt marked removed }.unlock
        id groupId).set id (.delete groupId deletedAt (.ended .threw removed)))
    else
      some ((server.unlock id groupId).set id (.delete groupId deletedAt (.ended .threw [])))
  | .cleaning removed => some (server.set id (.delete groupId deletedAt (.ended .threw removed)))
  | .ended _ _ => none

end

inductive Action where
  | enqueueForLiveGroup (id : Nat) (groupId : Option String) (bodies : List String)
  | deleteGroup (id : Nat) (groupId : Option String) (deletedAt : Nat)
  | resume (id : Nat)
  | reject (id : Nat) (applied : Bool)

def step (server : Server) : Action → Option Server
  | .enqueueForLiveGroup id groupId bodies =>
    match server.calls id with
    | some _ => none
    | none =>
      match groupId.filter (· ≠ "") with
      | none => some (server.set id (.enqueue none bodies .saving))
      | some groupId => some (server.set id (.enqueue (some groupId) bodies .checking))
  | .deleteGroup id groupId deletedAt =>
    match server.calls id with
    | some _ => none
    | none =>
      match sanitizeQueryValue groupId "groupId" with
      | .error message => some (server.set id (.badRequest message))
      | .ok groupId => some (server.set id (.delete groupId deletedAt .marking))
  | .resume id =>
    match server.calls id with
    | some (.enqueue (some groupId) bodies stage) => resumeEnqueue server id groupId bodies stage
    | some (.enqueue none bodies .saving) => some (saveUngrouped server id bodies .saved true)
    | some (.delete groupId deletedAt stage) => resumeDelete server id groupId deletedAt stage
    | _ => none
  | .reject id applied =>
    match server.calls id with
    | some (.enqueue (some groupId) bodies stage) =>
      rejectEnqueue server id groupId bodies applied stage
    | some (.enqueue none bodies .saving) => some (saveUngrouped server id bodies .threw applied)
    | some (.delete groupId deletedAt stage) =>
      rejectDelete server id groupId deletedAt applied stage
    | _ => none

/-! ## 3. What each call relies on -/

section

variable (server : Server)

def Server.queue : List Row := server.db.rows .queuedMessages

/-- The rows a deletion has durably removed. -/
def DeleteStage.committed : DeleteStage → List (OwnedTable × Row)
  | .cleaning removed | .ended _ removed => removed
  | _ => []

/-- A deletion of `groupId` that has committed took this queue row with it. -/
def Server.Purged (groupId : String) (row : Row) : Prop :=
  ∃ id deletedAt stage, server.calls id = some (.delete groupId deletedAt stage) ∧
    (queuedMessages, row) ∈ stage.committed

/-- A send that passed the liveness check holds the group's row shared, and the
    group is live; rows it stored are in the queue until a deletion takes them. -/
def EnqueueOk (id : Nat) (groupId : String) : EnqueueStage → Prop
  | .inserting =>
    id ∈ (server.locks groupId).shared ∧ server.db.groups groupId = some ⟨none⟩
  | .committing rows =>
    (id ∈ (server.locks groupId).shared ∧ server.db.groups groupId = some ⟨none⟩) ∧
      ∀ row ∈ rows, row.groupId = some groupId
  | .ended answer stored =>
    (answer = .gone → stored = []) ∧ ∀ row ∈ stored, row.groupId = some groupId ∧
        (row ∈ server.queue ∨ server.Purged groupId row)
  | _ => True

/-- A deletion removes rows of its group only.  One that marked the row holds it
    exclusively, and once it has swept the queue nothing of the group is left in it
    that the commit will not remove. -/
def DeleteOk (id : Nat) (groupId : String) : DeleteStage → Prop
  | .purging marked remaining removed =>
    (∀ entry ∈ removed, entry.2.groupId = some groupId) ∧
    (marked = true → (server.locks groupId).exclusive = some id ∧ server.db.groups groupId ≠ none ∧
        (.queuedMessages ∈ remaining ∨ ∀ row ∈ server.queue, row.groupId = some groupId →
          (queuedMessages, row) ∈ removed))
  | _ => True

def CallOk (id : Nat) : Call → Prop
  | .enqueue (some groupId) _ stage => EnqueueOk server id groupId stage
  | .delete groupId _ stage => DeleteOk server id groupId stage
  | _ => True

end

/-- The obligations of all calls, and of one group that its queue is empty once it is
    tombstoned. -/
structure Inv (watched : String) (server : Server) : Prop where
  calls : ∀ id call, server.calls id = some call → CallOk server id call
  clean : server.db.tombstoned watched → ∀ row ∈ server.queue, row.groupId ≠ some watched

/-- Everything the obligations of a call that did not move depend on. -/
structure Frame (server after : Server) (other : Nat) : Prop where
  shared : ∀ groupId, other ∈ (server.locks groupId).shared →
    other ∈ (after.locks groupId).shared ∧ after.db.groups groupId = server.db.groups groupId
  exclusive : ∀ groupId, (server.locks groupId).exclusive = some other →
    (after.locks groupId).exclusive = some other ∧
      (∀ row ∈ after.queue, row.groupId = some groupId → row ∈ server.queue)
  present : ∀ groupId, server.db.groups groupId ≠ none → after.db.groups groupId ≠ none
  queued : ∀ groupId row, row.groupId = some groupId → row ∈ server.queue →
    row ∈ after.queue ∨ after.Purged groupId row
  purged : ∀ groupId row, server.Purged groupId row → after.Purged groupId row

variable {server after next : Server} {call : Call} {id deletedAt : Nat}
  {groupId watched : String}
  {stage : DeleteStage} {bodies : List String}

theorem CallOk.frame {other : Nat} (h : CallOk server other call)
    (hframe : Frame server after other) : CallOk after other call := by
  have hlive : ∀ groupId, other ∈ (server.locks groupId).shared ∧
      server.db.groups groupId = some ⟨none⟩ → other ∈ (after.locks groupId).shared ∧
      after.db.groups groupId = some ⟨none⟩ := by
    intro groupId ⟨hshared, hgroup⟩
    obtain ⟨hshared', hsame⟩ := hframe.shared groupId hshared
    exact ⟨hshared', hsame.trans hgroup⟩
  cases call with
  | badRequest message => trivial
  | enqueue groupId bodies stage =>
    cases groupId with
    | none => trivial
    | some groupId =>
      cases stage with
      | inserting => exact hlive groupId h
      | committing rows => exact ⟨hlive groupId h.1, h.2⟩
      | ended answer stored =>
        refine ⟨h.1, fun row hrow => ?_⟩
        obtain ⟨hgroup, hqueued | hpurged⟩ := h.2 row hrow
        · exact ⟨hgroup, hframe.queued groupId row hgroup hqueued⟩
        · exact ⟨hgroup, .inr (hframe.purged groupId row hpurged)⟩
      | saving | checking | refusing => trivial
  | delete groupId deletedAt stage =>
    cases stage with
    | purging marked remaining removed =>
      refine ⟨h.1, fun hmarked => ?_⟩
      obtain ⟨hlock, hpresent, hswept⟩ := h.2 hmarked
      obtain ⟨hlock', hnew⟩ := hframe.exclusive groupId hlock
      refine ⟨hlock', hframe.present groupId hpresent, hswept.imp_right fun hall => ?_⟩
      exact fun row hrow hgroup => hall row (hnew row hrow hgroup) hgroup
    | marking | cleaning removed | ended answer removed => trivial

/-- The call goes on as the same transaction, and what it removed stays removed. -/
def Call.Continues (before after : Call) : Prop :=
  ∀ groupId deletedAt stage, before = .delete groupId deletedAt stage →
    ∃ next, after = .delete groupId deletedAt next ∧
      ∀ entry ∈ stage.committed, entry ∈ next.committed

theorem Server.Purged.mono (hcalls : after.calls = server.calls)
    (hcontinues : ∀ before, server.calls id = some before → before.Continues call)
    {row : Row} (h : server.Purged groupId row) : (after.set id call).Purged groupId row := by
  obtain ⟨deleter, deletedAt, stage, hdeleter, hrow⟩ := h
  by_cases hsame : deleter = id
  · subst hsame
    obtain ⟨next, rfl, hkept⟩ := hcontinues _ hdeleter groupId deletedAt stage rfl
    exact ⟨deleter, deletedAt, next, by simp [set], hkept _ hrow⟩
  · exact ⟨deleter, deletedAt, stage, by simp [set, hsame, hcalls, hdeleter], hrow⟩

section

variable (h : Inv watched server) (hcalls : after.calls = server.calls)
  (hcontinues : ∀ before, server.calls id = some before → before.Continues call)
  (hlocks : ∀ groupId, Kept (server.locks groupId) (after.locks groupId) id)
include h hcalls hcontinues hlocks

/-- One call moves, from `server` to `after` with its new stage. -/
theorem Inv.update (hgroups : ∀ other groupId, other ≠ id → other ∈ (server.locks groupId).shared →
      after.db.groups groupId = server.db.groups groupId)
    (hpresent : ∀ groupId, server.db.groups groupId ≠ none → after.db.groups groupId ≠ none)
    (hnew : ∀ other groupId, other ≠ id → (server.locks groupId).exclusive = some other →
      ∀ row ∈ after.queue, row.groupId = some groupId → row ∈ server.queue)
    (hqueued : ∀ groupId row, row.groupId = some groupId → row ∈ server.queue →
      row ∈ after.queue ∨ (after.set id call).Purged groupId row)
    (hself : CallOk (after.set id call) id call)
    (hclean : after.db.tombstoned watched → ∀ row ∈ after.queue, row.groupId ≠ some watched) :
    Inv watched (after.set id call) := by
  refine ⟨fun other found hfound => ?_, hclean⟩
  rcases update_eq_some_iff.mp hfound with ⟨rfl, hsame⟩ | ⟨hne, hold⟩
  · cases hsame
    exact hself
  · refine (h.calls other found (hcalls ▸ hold)).frame ⟨?_, ?_, hpresent, hqueued, ?_⟩
    · intro groupId hshared
      exact ⟨(hlocks groupId).shared other hne hshared, hgroups other groupId hne hshared⟩
    · intro groupId hexclusive
      exact ⟨(hlocks groupId).exclusive other hne hexclusive, hnew other groupId hne hexclusive⟩
    · exact fun groupId row hpurged => hpurged.mono hcalls hcontinues

/-- A step that makes queue rows durable, for a group whose row the call holds
    shared and has seen alive, or for no group at all. -/
theorem Inv.insert {rows : List Row} (hqueue : after.queue = server.queue ++ rows)
    (hgroups : after.db.groups = server.db.groups)
    (hrows : ∀ row ∈ rows, ∀ groupId, row.groupId = some groupId →
      id ∈ (server.locks groupId).shared ∧ server.db.groups groupId = some ⟨none⟩)
    (hself : CallOk (after.set id call) id call) : Inv watched (after.set id call) := by
  refine h.update hcalls hcontinues hlocks (fun _ _ _ _ => by rw [hgroups])
    (fun _ hpresent => hgroups ▸ hpresent) ?_ ?_ hself ?_
  · -- nobody can hold the row exclusively while this call shares it
    intro other groupId _ hexclusive row hrow hgroup
    rcases mem_append.mp (hqueue ▸ hrow) with hold | hinserted
    · exact hold
    · exact absurd (hrows row hinserted groupId hgroup).1 (not_mem_shared hexclusive id)
  · intro groupId row _ hrow
    exact .inl (hqueue ▸ mem_append_left rows hrow)
  · intro htombstoned row hrow hgroup
    have hbefore : server.db.tombstoned watched := by
      simpa only [tombstoned, hgroups] using htombstoned
    rcases mem_append.mp (hqueue ▸ hrow) with hold | hinserted
    · exact h.clean hbefore row hold hgroup
    · obtain ⟨deletedAt, hdeleted⟩ := hbefore
      cases hdeleted.symm.trans (hrows row hinserted watched hgroup).2

theorem Inv.quiet (hqueue : after.queue = server.queue)
    (hgroups : after.db.groups = server.db.groups) (hself : CallOk (after.set id call) id call) :
    Inv watched (after.set id call) :=
  h.insert hcalls hcontinues hlocks (hqueue.trans (append_nil _).symm) hgroups nofun hself

end

theorem continues_of_enqueue {groupId : Option String} {stage : EnqueueStage}
    (hid : server.calls id = some (.enqueue groupId bodies stage)) (after : Call) :
    ∀ before, server.calls id = some before → before.Continues after := by
  rintro before hbefore _ _ _ rfl
  cases hid.symm.trans hbefore

theorem continues_of_delete (hid : server.calls id = some (.delete groupId deletedAt stage))
    {next : DeleteStage} (h : ∀ entry ∈ stage.committed, entry ∈ next.committed) :
    ∀ before, server.calls id = some before →
      before.Continues (.delete groupId deletedAt next) := by
  rintro before hbefore _ _ _ rfl
  cases hid.symm.trans hbefore
  exact ⟨next, rfl, h⟩

theorem Inv.remove {marked : Bool} {removed : List (OwnedTable × Row)} (h : Inv watched server)
    (hid : server.calls id = some (.delete groupId deletedAt (.purging marked [] removed)))
    (hstage : stage.committed = removed) (hself : ∀ server, DeleteOk server id groupId stage) :
    Inv watched (({ server with
      db := server.db.applyDeletion groupId deletedAt marked removed }.unlock id groupId).set id
        (.delete groupId deletedAt stage)) := by
  have hok : DeleteOk server id groupId (.purging marked [] removed) := h.calls id _ hid
  refine h.update rfl (continues_of_delete hid (by simp [committed]))
    (kept_update (kept_release _ _)) ?_ ?_ ?_ ?_ (hself _) ?_
  · -- a send cannot hold the row shared against the deletion that marked it
    intro other groupId' _ hshared
    cases marked with
    | false => rfl
    | true =>
      have hne : groupId' ≠ groupId := by
        rintro rfl
        exact not_mem_shared (hok.2 rfl).1 other hshared
      simp [unlock, withLock, applyDeletion, hne]
  · intro groupId' hpresent
    cases marked with
    | false => exact hpresent
    | true =>
      by_cases hsame : groupId' = groupId
      · simp [unlock, withLock, applyDeletion, hsame]
      · simpa [unlock, withLock, applyDeletion, hsame] using hpresent
  · intro other groupId' _ _ row hrow _
    exact mem_of_mem_filter hrow
  · intro groupId' row hgroup hrow
    by_cases hremoved : (queuedMessages, row) ∈ removed
    · cases hgroup.symm.trans (hok.1 _ hremoved)
      exact .inr ⟨id, deletedAt, stage, by simp [Server.set], hstage ▸ hremoved⟩
    · exact .inl (mem_filter.mpr ⟨hrow, by simpa using hremoved⟩)
  · intro htombstoned row hrow hgroup
    obtain ⟨hold, hkept⟩ := mem_filter.mp hrow
    by_cases hnew : marked = true ∧ watched = groupId
    · obtain ⟨hmarked, rfl⟩ := hnew
      obtain ⟨_, _, htodo | hswept⟩ := hok.2 hmarked
      · cases htodo
      · exact absurd (hswept row hold hgroup) (by simpa using hkept)
    · refine h.clean ?_ row hold hgroup
      cases marked with
      | false => exact htombstoned
      | true =>
        have hne : watched ≠ groupId := fun hsame => hnew ⟨rfl, hsame⟩
        simpa [tombstoned, unlock, withLock, applyDeletion, hne] using htombstoned

/-! ## 4. Steps and runs -/

theorem queueRows_groupId {nextId : Nat} {groupId : Option String}
    {row : Row} (h : row ∈ queueRows nextId groupId bodies) : row.groupId = groupId := by
  obtain ⟨index, hindex, rfl⟩ := mem_mapIdx.mp h
  rfl

theorem kept_unlock (server : Server) (id : Nat) (groupId other : String) :
    Kept (server.locks other) ((server.unlock id groupId).locks other) id :=
  kept_update (kept_release _ _) other

section

variable (h : Inv watched server)
include h

variable {stage : EnqueueStage}

theorem Inv.endEnqueue
    (hid : server.calls id = some (.enqueue (some groupId) bodies stage)) (answer : EnqueueAnswer) :
    Inv watched ((server.unlock id groupId).set id
      (.enqueue (some groupId) bodies (.ended answer []))) :=
  h.quiet rfl (continues_of_enqueue hid _) (kept_unlock server id groupId) rfl rfl
    ⟨fun _ => rfl, by simp⟩

theorem Inv.commitEnqueue {rows : List Row}
    (hid : server.calls id = some (.enqueue (some groupId) bodies (.committing rows)))
    {answer : EnqueueAnswer} (hanswer : answer ≠ .gone) :
    Inv watched (({ server with db := server.db.insert rows }.unlock id groupId).set id
      (.enqueue (some groupId) bodies (.ended answer rows))) := by
  have hok : EnqueueOk server id groupId (.committing rows) := h.calls id _ hid
  have hqueue : ({ server with db := server.db.insert rows }.unlock id groupId).queue =
      server.queue ++ rows := by
    simp [queue, unlock, withLock, Database.insert]
  refine h.insert rfl (continues_of_enqueue hid _) (kept_unlock server id groupId) hqueue rfl ?_ ?_
  · intro row hrow groupId' hgroup
    cases hgroup.symm.trans (hok.2 row hrow)
    exact hok.1
  · refine ⟨fun hgone => absurd hgone hanswer, fun row hrow => ⟨hok.2 row hrow, .inl ?_⟩⟩
    exact mem_append_right _ hrow

section

variable (hid : server.calls id = some (.enqueue (some groupId) bodies stage))
include hid

protected theorem Inv.resumeEnqueue
    (hresume : resumeEnqueue server id groupId bodies stage = some next) : Inv watched next := by
  have hcontinues := continues_of_enqueue hid
  cases stage with
  | checking =>
    simp only [resumeEnqueue] at hresume
    split at hresume
    · cases hresume
      exact h.quiet rfl (hcontinues _) (fun _ => .refl _ _) rfl rfl trivial
    next row hrow =>
      obtain ⟨lock, hlock, rfl⟩ := Option.map_eq_some_iff.mp hresume
      refine h.quiet rfl (hcontinues _) (kept_update (kept_share hlock)) rfl rfl ?_
      cases hdeleted : row.deletedAt with
      | some deletedAt => simp [CallOk, EnqueueOk]
      | none =>
        have hlive : server.db.groups groupId = some ⟨none⟩ := by
          rw [hrow, ← hdeleted]
        have hshared : id ∈ lock.shared := by simp [(share_eq_some hlock).2.1]
        simpa [CallOk, EnqueueOk, Server.set, Server.withLock, hshared] using hlive
  | inserting =>
    cases hresume
    have hok : EnqueueOk server id groupId .inserting := h.calls id _ hid
    exact h.quiet rfl (hcontinues _) (fun _ => .refl _ _) rfl rfl
      ⟨hok, fun row hrow => queueRows_groupId hrow⟩
  | committing rows =>
    cases hresume
    exact h.commitEnqueue hid (by simp)
  | refusing =>
    cases hresume
    exact h.endEnqueue hid .gone
  | saving | ended answer stored => cases hresume

theorem Inv.rejectEnqueue {applied : Bool}
    (hreject : rejectEnqueue server id groupId bodies applied stage = some next) :
    Inv watched next := by
  cases stage with
  | checking | inserting | refusing =>
    cases hreject
    exact h.endEnqueue hid .threw
  | committing rows =>
    cases applied with cases hreject
    | false =>
      exact h.endEnqueue hid .threw
    | true =>
      exact h.commitEnqueue hid (by simp)
  | saving | ended answer stored => cases hreject

end

end

theorem queue_saveUngrouped (server : Server) (id : Nat) (bodies : List String)
    (answer : EnqueueAnswer) (applied : Bool) :
    (saveUngrouped server id bodies answer applied).queue =
      server.queue ++ if applied then queueRows server.db.nextId none bodies else [] := by
  simp [Server.queue, saveUngrouped, Server.set, Server.generateIds, Database.insert]

section

variable (h : Inv watched server)
include h

theorem Inv.saveUngrouped {stage : EnqueueStage}
    (hid : server.calls id = some (.enqueue none bodies stage)) (answer : EnqueueAnswer)
    (applied : Bool) : Inv watched (saveUngrouped server id bodies answer applied) := by
  refine h.insert rfl (continues_of_enqueue hid _) (fun _ => .refl _ _)
    (queue_saveUngrouped server id bodies answer applied) rfl ?_ trivial
  intro row hrow groupId hgroup
  cases applied with
  | false => simp at hrow
  | true => cases hgroup.symm.trans (queueRows_groupId hrow)

section

variable (hid : server.calls id = some (.delete groupId deletedAt stage))
include hid

protected theorem Inv.resumeDelete
    (hresume : resumeDelete server id groupId deletedAt stage = some next) : Inv watched next := by
  cases stage with
  | marking =>
    simp only [resumeDelete] at hresume
    split at hresume
    · cases hresume
      exact h.quiet rfl (continues_of_delete hid (by simp [committed]))
        (fun _ => .refl _ _) rfl rfl ⟨by simp, by simp⟩
    next row hrow =>
      obtain ⟨lock, hlock, rfl⟩ := Option.map_eq_some_iff.mp hresume
      refine h.quiet rfl (continues_of_delete hid (by simp [committed]))
        (kept_update (kept_exclude hlock)) rfl rfl ⟨by simp, fun _ => ⟨?_, ?_, ?_⟩⟩
      · simpa [Server.set, Server.withLock] using (exclude_eq_some hlock).2.2
      · simp [Server.set, Server.withLock, hrow]
      · exact .inl (by simp [ownedTables])
  | purging marked remaining removed =>
    cases remaining with cases hresume
    | nil =>
      exact h.remove hid rfl fun _ => trivial
    | cons table remaining =>
      have hok : DeleteOk server id groupId (.purging marked (table :: remaining) removed) :=
        h.calls id _ hid
      have hswept : ∀ row ∈ server.db.ownedBy groupId table, row.groupId = some groupId := by
        intro row hrow
        simpa using (mem_filter.mp hrow).2
      refine h.quiet rfl (continues_of_delete hid (by simp [committed]))
        (fun _ => .refl _ _) rfl rfl ⟨?_, fun hmarked => ?_⟩
      · intro entry hentry
        rcases mem_append.mp hentry with hold | hnew
        · exact hok.1 entry hold
        · obtain ⟨row, hrow, rfl⟩ := mem_map.mp hnew
          exact hswept row hrow
      · obtain ⟨hlock, hpresent, hqueue⟩ := hok.2 hmarked
        refine ⟨hlock, hpresent, ?_⟩
        -- the queue is swept by the statement on its own table, and stays swept
        rcases hqueue with htodo | hall
        · rcases mem_cons.mp htodo with rfl | hlater
          · refine .inr fun row hrow hgroup => mem_append_right _ ?_
            exact mem_map.mpr ⟨row, mem_filter.mpr ⟨hrow, by simpa using hgroup⟩, rfl⟩
          · exact .inl hlater
        · exact .inr fun row hrow hgroup => mem_append_left _ (hall row hrow hgroup)
  | cleaning removed =>
    cases hresume
    exact h.quiet rfl (continues_of_delete hid fun _ hentry => hentry) (fun _ => .refl _ _) rfl rfl
      trivial
  | ended answer removed => cases hresume

theorem Inv.rejectDelete {applied : Bool}
    (hreject : rejectDelete server id groupId deletedAt applied stage = some next) :
    Inv watched next := by
  cases stage with
  | marking =>
    cases hreject
    exact h.quiet rfl (continues_of_delete hid (by simp [committed]))
      (fun _ => .refl _ _) rfl rfl trivial
  | purging marked remaining removed =>
    have hrollback : Inv watched ((server.unlock id groupId).set id
        (.delete groupId deletedAt (.ended .threw []))) :=
      h.quiet rfl (continues_of_delete hid (by simp [committed]))
        (kept_unlock server id groupId) rfl rfl trivial
    cases remaining with
    | cons table remaining =>
      cases hreject
      exact hrollback
    | nil =>
      cases applied with cases hreject
      | false =>
        exact hrollback
      | true =>
        exact h.remove hid rfl fun _ => trivial
  | cleaning removed =>
    cases hreject
    exact h.quiet rfl (continues_of_delete hid fun _ hentry => hentry) (fun _ => .refl _ _) rfl rfl
      trivial
  | ended answer removed => cases hreject

end

theorem Inv.start (hfresh : server.calls id = none) (hself : CallOk (server.set id call) id call) :
    Inv watched (server.set id call) := by
  refine h.quiet rfl (fun before hbefore => ?_) (fun _ => .refl _ _) rfl rfl hself
  cases hfresh.symm.trans hbefore

protected theorem Inv.step {action : Action} (hstep : step server action = some next) :
    Inv watched next := by
  cases action with simp only [step] at hstep
  | enqueueForLiveGroup id groupId bodies | deleteGroup id groupId deletedAt =>
    split at hstep
    · cases hstep
    next hfresh => split at hstep <;> cases hstep <;> exact h.start hfresh trivial
  | resume id =>
    split at hstep
    next hid => exact h.resumeEnqueue hid hstep
    next hid =>
      cases hstep
      exact h.saveUngrouped hid .saved true
    next hid => exact h.resumeDelete hid hstep
    · cases hstep
  | reject id applied =>
    split at hstep
    next hid => exact h.rejectEnqueue hid hstep
    next hid =>
      cases hstep
      exact h.saveUngrouped hid .threw applied
    next hid => exact h.rejectDelete hid hstep
    · cases hstep

end

/-- No transaction is open and no call has been made yet. -/
def Server.start (db : Database) : Server := ⟨db, fun _ => .free, fun _ => none⟩

/-- **Deletion wins over enqueue.**  Start with any database in which the group's
    queue is empty if the group is already tombstoned, and let any number of sends
    and deletions interleave, each statement possibly failing.  Whenever the group
    is tombstoned its queue is empty, no send to it can still commit a row, and a
    send that has ended either stored nothing, or every row it stored was removed
    by a committed deletion of the group. -/
theorem deletion_wins_over_enqueue {db : Database} {actions : List Action} {final : Server}
    {groupId : String}
    (hstart : db.tombstoned groupId → ∀ row ∈ db.rows .queuedMessages, row.groupId ≠ some groupId)
    (hrun : run step (.start db) actions = some final)
    (htombstoned : final.db.tombstoned groupId) :
    (∀ row ∈ final.queue, row.groupId ≠ some groupId) ∧
    (∀ id bodies stage, final.calls id = some (.enqueue (some groupId) bodies stage) →
      stage ≠ .inserting ∧ ∀ rows, stage ≠ .committing rows) ∧
    (∀ id bodies answer stored,
      final.calls id = some (.enqueue (some groupId) bodies (.ended answer stored)) →
      (answer = .gone → stored = []) ∧
      ∀ row ∈ stored, row ∉ final.queue ∧ final.Purged groupId row) := by
  have hinv : Inv groupId final := by
    refine invariant_of_run (fun h => h.step) ?_ hrun
    exact ⟨by simp [start], hstart⟩
  have hempty := hinv.clean htombstoned
  refine ⟨hempty, ?_, ?_⟩
  · intro id bodies stage hid
    have hok : EnqueueOk final id groupId stage := hinv.calls id _ hid
    obtain ⟨deletedAt, hdeleted⟩ := htombstoned
    constructor
    · rintro rfl
      cases hdeleted.symm.trans hok.2
    · rintro rows rfl
      cases hdeleted.symm.trans hok.1.2
  · intro id bodies answer stored hid
    have hok : EnqueueOk final id groupId (.ended answer stored) := hinv.calls id _ hid
    refine ⟨hok.1, fun row hrow => ?_⟩
    obtain ⟨hgroup, hqueued | hpurged⟩ := hok.2 row hrow
    · exact absurd hgroup (hempty row hqueued)
    · exact ⟨fun hqueued => hempty row hqueued hgroup, hpurged⟩

/-- A send that holds the row makes the deletion wait and is swept by it; a send
    that comes after is refused. -/
def sweptRun : List Action :=
  [.enqueueForLiveGroup 0 (some "g") ["hello"], .resume 0, .deleteGroup 1 (some "g") 7,
   .resume 0, .resume 0] ++ replicate 8 (.resume 1) ++
  [.enqueueForLiveGroup 2 (some "g") ["late"], .resume 2, .resume 2]

def liveGroup : Database :=
  ⟨fun groupId => if groupId = "g" then some ⟨none⟩ else none, fun _ => [], 0⟩

theorem deletion_wins_over_enqueue_swept :
    ∃ final, run step (.start liveGroup) sweptRun = some final ∧
      final.calls 0 = some (.enqueue (some "g") ["hello"]
        (.ended .saved [⟨0, some "g", "hello"⟩])) ∧
      final.calls 2 = some (.enqueue (some "g") ["late"] (.ended .gone [])) ∧
      (∀ row ∈ final.queue, row.groupId ≠ some "g") ∧
      final.Purged "g" ⟨0, some "g", "hello"⟩ := by
  have hends : ∃ final ∈ run step (.start liveGroup) sweptRun,
      final.calls 0 = some (.enqueue (some "g") ["hello"]
        (.ended .saved [⟨0, some "g", "hello"⟩])) ∧
      final.calls 2 = some (.enqueue (some "g") ["late"] (.ended .gone [])) ∧
      final.db.groups "g" = some ⟨some 7⟩ := by decide
  obtain ⟨final, hrun, hswept, hlate, hgroup⟩ := hends
  obtain ⟨hempty, _, hended⟩ := @deletion_wins_over_enqueue liveGroup sweptRun final "g"
    (by simp [liveGroup]) hrun ⟨7, hgroup⟩
  exact ⟨final, hrun, hswept, hlate, hempty,
    ((hended 0 _ _ _ hswept).2 _ (mem_singleton.mpr rfl)).2⟩

end MinesApp.GroupDeletion
