import MinesApp.AwaitProgram
import MinesApp.GroupDeletion
import MinesApp.GroupInfoRegister
import MinesApp.ValidateCommit

/-!
# The calls that write for a group

`deleteGroup` tombstones the group's row and deletes what the group owns in one
transaction, then deletes its Redis keys.  Of the calls that write for a group only
`enqueueForLiveGroup` locks that row and looks for the tombstone.  `sendWelcome` and
`sendMessage` go on after it, to a membership row, the routing set and the history
stream; `validateCommit` reads the row without looking at `deletedAt`, and
`putGroupInfo` does not read it at all.

The calls here are all on one group, which has a row.  Every SQL statement and Redis
command is one step, a transaction's writes appear at its commit, and a statement on a
row that an open transaction has written waits for it to end.
-/

namespace MinesApp.GroupCalls

open TransitionSystem AwaitProgram Sanitize Function
open GroupDeletion (OwnedTable ownedTables)
open GroupInfoRegister (MlsGroupInfo)
open ValidateCommit (ValidateCommitBody CommitLogRow Commit Reason checkBody truthy)

/-! ## 1. Tables and keys -/

structure Device where
  userId : String
  deviceId : String
deriving DecidableEq, Repr

/-- How a device is named in Redis and in the sets the calls build. -/
def Device.key (device : Device) : String := device.userId ++ ":" ++ device.deviceId

inductive DeviceGroupStatus where
  | pending
  | active
deriving DecidableEq, Repr

structure DeviceGroupMembership where
  device : Device
  status : DeviceGroupStatus
deriving DecidableEq, Repr

structure QueuedMessage where
  recipient : Device
  senderId : Option String
  senderDeviceId : Option String
  isWelcome : Bool
  isCommit : Bool
  proto : Option String
  ratchetTree : Option String
  content : Option String
  type : Option String
deriving DecidableEq, Repr

/-- A row of each table, without the group's id.  A member, an invite and a dismissal are
    known by the user they are about. -/
abbrev Row : OwnedTable → Type
  | .queuedMessages => QueuedMessage
  | .members => String
  | .deviceMemberships => DeviceGroupMembership
  | .commitLog => CommitLogRow
  | .groupInfo => MlsGroupInfo
  | .invites => String
  | .dismissals => String

instance Row.decidableEq : (table : OwnedTable) → DecidableEq (Row table)
  | .queuedMessages => inferInstanceAs (DecidableEq QueuedMessage)
  | .members => inferInstanceAs (DecidableEq String)
  | .deviceMemberships => inferInstanceAs (DecidableEq DeviceGroupMembership)
  | .commitLog => inferInstanceAs (DecidableEq CommitLogRow)
  | .groupInfo => inferInstanceAs (DecidableEq MlsGroupInfo)
  | .invites => inferInstanceAs (DecidableEq String)
  | .dismissals => inferInstanceAs (DecidableEq String)

/-- The rows the group owns. -/
abbrev Tables := (table : OwnedTable) → List (Row table)

structure GroupRow where
  activeEpoch : Nat
  deletedAt : Bool
deriving DecidableEq, Repr

structure HistoryEntry where
  senderId : String
  senderDeviceId : String
  content : String
  silent : Bool
deriving DecidableEq, Repr

/-- The value of `mls:commitlock:<groupId>` is a device id; `owner` remembers the call that
    set it and no command reads it. -/
structure CommitLock where
  value : String
  owner : Nat
deriving DecidableEq, Repr

/-- The group's Redis keys: the stream `history:`, the sets `group:members:` and
    `pending_welcome:`, and the commit lock.  An empty stream or set is no key. -/
structure Keys where
  history : List HistoryEntry
  members : List String
  pendingWelcome : List String
  commitLock : Option CommitLock
deriving DecidableEq, Repr

/-- What the calls read that no group owns; it may change at any time. -/
structure Outside where
  keyPackages : List Device
  revoked : List Device
  online : List String
deriving DecidableEq, Repr

/-! ## 2. The store -/

/-- An uncommitted write.  A deletion and an update name the rows their statement found. -/
inductive Write where
  | setDeletedAt
  | setActiveEpoch (epoch : Nat)
  | remove (table : OwnedTable) (rows : List (Row table))
  | insert (table : OwnedTable) (rows : List (Row table))
  | updateGroupInfo (rows : List MlsGroupInfo) (row : MlsGroupInfo)

open Write

def Write.apply (tables : Tables) : Write → Tables
  | .setDeletedAt | .setActiveEpoch _ => tables
  | .remove table rows =>
    update tables table ((tables table).filter fun row => row ∉ rows)
  | .insert table rows => update tables table (tables table ++ rows)
  | .updateGroupInfo rows row =>
    update tables .groupInfo ((tables .groupInfo).map fun held => if held ∈ rows then row else held)

def Write.applyGroup (group : GroupRow) : Write → GroupRow
  | .setDeletedAt => { group with deletedAt := true }
  | .setActiveEpoch epoch => { group with activeEpoch := epoch }
  | .remove _ _ | .insert _ _ | .updateGroupInfo _ _ => group

/-- The table a write deletes from. -/
def Write.removes : Write → Option OwnedTable
  | .remove table _ => some table
  | _ => none

/-- Whether the write holds a row of the table. -/
def Write.touches (table : OwnedTable) : Write → Bool
  | .setDeletedAt | .setActiveEpoch _ => false
  | .remove other rows | .insert other rows => other = table && !rows.isEmpty
  | .updateGroupInfo rows _ => .groupInfo = table && !rows.isEmpty

/-- Whether the write holds the membership row of the device. -/
def Write.touchesDevice (deviceId : String) : Write → Bool
  | .remove .deviceMemberships rows | .insert .deviceMemberships rows =>
    rows.any fun row => row.device.deviceId = deviceId
  | _ => false

/-- `lock` is the lock on the group's row.  Every transaction takes it with its first
    statement, so `pending` needs one list: the writes of the exclusive holder.  The others
    only queue messages.  `purged` and `keysPurged` record which deletions have been
    committed, and no command reads them. -/
structure Store where
  group : GroupRow
  tables : Tables
  keys : Keys
  outside : Outside
  lock : RowLock
  pending : List Write
  queued : Nat → List QueuedMessage
  purged : List OwnedTable
  keysPurged : Bool

def Store.start (group : GroupRow) (tables : Tables) (history : List HistoryEntry)
    (members pendingWelcome : List String) (outside : Outside) : Store :=
  ⟨group, tables, ⟨history, members, pendingWelcome, none⟩, outside, .free, [], fun _ => [], [],
    false⟩

section

variable (store : Store) (id : Nat) (write : Write)

/-- The tables once the open transaction has committed. -/
def Store.settled : Tables := store.pending.foldl apply store.tables

/-- What a statement of `id` sees: its own writes, and of the others what they committed. -/
def Store.view : Tables :=
  if store.lock.exclusive = some id then store.settled else store.tables

def Store.setRows (table : OwnedTable) (rows : List (Row table)) : Store :=
  { store with tables := update store.tables table rows }

def Store.stage : Store :=
  { store with pending := store.pending ++ [write] }

def Store.setKeys (keys : Keys) : Store := { store with keys }

/-- An `UPDATE` of the group's row, which opens a transaction. -/
def Store.openWith : Option Store :=
  (store.lock.exclude id).map fun lock => { store with lock, pending := [write] }

/-- The end of the transaction of `id`. -/
def Store.close : Store :=
  { store with
    lock := store.lock.release id
    pending := if store.lock.exclusive = some id then [] else store.pending
    queued := update store.queued id [] }

def Store.commit : Store :=
  if store.lock.exclusive = some id then
    { store with
      group := store.pending.foldl applyGroup store.group
      tables := store.settled
      purged := store.pending.filterMap removes ++ store.purged }.close id
  else
    (store.setRows .queuedMessages (store.tables .queuedMessages ++ store.queued id)).close id

end

/-! ## 3. The commands -/

inductive Command where
  | findMember (userId : String)
  | findMembers
  | findDevice (deviceId : String)
  | findActiveDevices
  | upsertDevice (row : DeviceGroupMembership)
  | findGroup
  | findGroupInfo
  | insertGroupInfo (row : MlsGroupInfo)
  | updateGroupInfo (row : MlsGroupInfo)
  | insertCommit (row : CommitLogRow)
  | shareGroup
  | saveQueued (rows : List QueuedMessage)
  | updateActiveEpoch (epoch : Nat)
  | updateDeletedAt
  | deleteRows (table : OwnedTable)
  | commit
  | rollback
  | findKeyPackage (deviceId : String) (userId : Option String)
  | findKeyPackagesOfDevices (deviceIds : List String)
  | findKeyPackagesOfUsers (userIds : List String)
  | findRevoked (device : Device)
  | isOnline (key : String)
  | publish (row : QueuedMessage)
  | push (row : QueuedMessage)
  | setCommitLock (deviceId : String)
  | releaseCommitLock (deviceId : String)
  | sadd (members : List String)
  | xadd (entry : HistoryEntry)
  | del
deriving DecidableEq, Repr

abbrev Command.Reply : Command → Type
  | .findMember _ => Bool
  | .findMembers => List String
  | .findDevice _ => Option DeviceGroupMembership
  | .findActiveDevices => List DeviceGroupMembership
  | .findGroup => GroupRow
  | .findGroupInfo => Option MlsGroupInfo
  | .insertGroupInfo _ => Bool
  | .updateGroupInfo _ => Bool
  | .shareGroup => GroupRow
  | .findKeyPackage _ _ => Option Device
  | .findKeyPackagesOfDevices _ => List Device
  | .findKeyPackagesOfUsers _ => List Device
  | .findRevoked _ => Bool
  | .isOnline _ => Bool
  | .setCommitLock _ => Bool
  | _ => Unit

/-- `INSERT .. ON CONFLICT (deviceId, groupId) DO UPDATE`. -/
def upsertRow (rows : List DeviceGroupMembership) (row : DeviceGroupMembership) :
    List DeviceGroupMembership :=
  rows.filter (fun other => other.device.deviceId ≠ row.device.deviceId) ++ [row]

/-- The rows `UPDATE .. WHERE "baseEpoch" < :baseEpoch` matches. -/
def below (rows : List MlsGroupInfo) (row : MlsGroupInfo) : List MlsGroupInfo :=
  rows.filter fun held => held.baseEpoch < row.baseEpoch

/-- One command of the call `id`; `none` while it has to wait. -/
def execute (store : Store) (id : Nat) : (command : Command) → Option (Store × command.Reply)
  | .findMember userId => some (store, decide (userId ∈ store.tables .members))
  | .findMembers => some (store, store.tables .members)
  | .findDevice deviceId =>
    some (store, (store.tables .deviceMemberships).find? fun row =>
      row.device.deviceId = deviceId)
  | .findActiveDevices =>
    some (store, (store.tables .deviceMemberships).filter fun row => row.status = .active)
  | .upsertDevice row =>
    if store.pending.any (touchesDevice row.device.deviceId) then none
    else some (store.setRows .deviceMemberships
      (upsertRow (store.tables .deviceMemberships) row), ())
  | .findGroup => some (store, store.group)
  | .findGroupInfo => some (store, (store.view id .groupInfo).head?)
  | .insertGroupInfo row =>
    if store.lock.exclusive = some id then
      if store.settled .groupInfo = [] then some (store.stage (.insert .groupInfo [row]), true)
      else some (store, false)
    else if store.pending.any (touches .groupInfo) then none
    else if store.tables .groupInfo = [] then some (store.setRows .groupInfo [row], true)
    else some (store, false)
  | .updateGroupInfo row =>
    if store.lock.exclusive = some id then
      let matched := below (store.settled .groupInfo) row
      some (store.stage (.updateGroupInfo matched row), !matched.isEmpty)
    else if store.pending.any (touches .groupInfo) then none
    else
      some (store.setRows .groupInfo ((store.tables .groupInfo).map fun held =>
        if held.baseEpoch < row.baseEpoch then row else held),
        !(below (store.tables .groupInfo) row).isEmpty)
  | .insertCommit row =>
    if store.lock.exclusive = some id then
      if (store.settled .commitLog).any (fun held => held.baseEpoch = row.baseEpoch) then
        some (store, ())
      else some (store.stage (.insert .commitLog [row]), ())
    else none
  | .shareGroup => (store.lock.share id).map fun lock => ({ store with lock }, store.group)
  | .saveQueued rows =>
    some ({ store with queued := update store.queued id (store.queued id ++ rows) }, ())
  | .updateActiveEpoch epoch => (store.openWith id (.setActiveEpoch epoch)).map (·, ())
  | .updateDeletedAt => (store.openWith id .setDeletedAt).map (·, ())
  | .deleteRows table =>
    if store.lock.exclusive = some id then
      some (store.stage (.remove table (store.settled table)), ())
    else none
  | .commit => some (store.commit id, ())
  | .rollback => some (store.close id, ())
  | .findKeyPackage deviceId userId =>
    some (store, store.outside.keyPackages.find? fun device =>
      device.deviceId = deviceId ∧ userId.all (· = device.userId))
  | .findKeyPackagesOfDevices deviceIds =>
    some (store, store.outside.keyPackages.filter fun device => device.deviceId ∈ deviceIds)
  | .findKeyPackagesOfUsers userIds =>
    some (store, store.outside.keyPackages.filter fun device => device.userId ∈ userIds)
  | .findRevoked device => some (store, decide (device ∈ store.outside.revoked))
  | .isOnline key => some (store, decide (key ∈ store.outside.online))
  | .publish _ => some (store, ())
  | .push _ => some (store, ())
  | .setCommitLock deviceId =>
    -- SET .. EX 5 NX
    match store.keys.commitLock with
    | none =>
      some (store.setKeys { store.keys with commitLock := some ⟨deviceId, id⟩ }, true)
    | some _ => some (store, false)
  | .releaseCommitLock deviceId =>
    some (store.setKeys { store.keys with
      commitLock := store.keys.commitLock.filter fun lock => lock.value ≠ deviceId }, ())
  | .sadd members =>
    some (store.setKeys { store.keys with
      members := store.keys.members ++ members.filter (· ∉ store.keys.members) }, ())
  | .xadd entry =>
    some (store.setKeys { store.keys with history := store.keys.history ++ [entry] }, ())
  | .del =>
    some ({ store with
      keys := { store.keys with history := [], members := [], pendingWelcome := [] }
      keysPurged := true }, ())

/-! ## 4. The calls -/

inductive Failure where
  | badRequest (message : String)
  | forbidden (message : String)
  | senderNotActive (deviceId : String) (status : DeviceGroupStatus)
  | gone
  | error (message : String)
deriving DecidableEq, Repr

abbrev Service := Program Command.Reply Failure

def await (command : Command) : Service command.Reply := .perform command

section

variable (value : Option String) (fieldName : String)

def sanitize : Service String :=
  match sanitizeQueryValue value fieldName with
  | .ok text => pure text
  | .error message => .throw (.badRequest message)

def sanitizeOptional : Service (Option String) :=
  match truthy value with
  | none => pure none
  | some text => do
    let text ← sanitize (some text) fieldName
    return some text

end

/-- `manager.transaction`. -/
def transaction {Answer : Type} (body : Service Answer) : Service Answer := do
  let answer ← body.orElse fun error => do
    await .rollback
    .throw error
  await .commit
  return answer

def enqueueForLiveGroup (rows : List QueuedMessage) : Service Unit :=
  transaction do
    let group ← await .shareGroup
    if group.deletedAt then .throw .gone else await (.saveQueued rows)

structure Recipient where
  userId : Option String
  deviceId : Option String
deriving DecidableEq, Repr

/-- The group is given apart. -/
structure SendMessageBody where
  proto : Option String
  recipients : List Recipient
  senderId : Option String
  senderDeviceId : Option String
  isWelcome : Bool
  isCommit : Bool
  excludeDeviceIds : List String
  silent : Bool
  durable : Option Bool
  content : Option String
  type : Option String
deriving DecidableEq, Repr

section

variable (toLowerCase : String → String) (body : SendMessageBody) (authUserIdRaw : Option String)

def SendMessageBody.isDurable : Bool := body.durable.getD !body.silent

def assertRequesterMatchesCaller (requesterUserId : String) : Service Unit := do
  let authUserId ← sanitizeOptional authUserIdRaw "x-user-id"
  if authUserId.all fun userId => toLowerCase userId = toLowerCase requesterUserId then pure ()
  else .throw (.forbidden "requesterUserId does not match the authenticated caller")

def checkSender : Service Unit :=
  match truthy body.senderId with
  | some senderId => assertRequesterMatchesCaller toLowerCase authUserIdRaw senderId
  | none => pure ()

/-- A device whose membership is not active holds no leaf; handshake frames are exempt. -/
def refuseInactiveSender : Service Unit :=
  match truthy body.senderId, truthy body.senderDeviceId with
  | some _, some deviceId =>
    if body.isCommit || body.isWelcome then pure ()
    else do
      let membership ← await (.findDevice deviceId)
      match membership with
      | none => pure ()
      | some row =>
        if row.status = .active then pure ()
        else .throw (.senderNotActive deviceId row.status)
  | _, _ => pure ()

end

/-- The keys of the devices that have a key package. -/
def liveDeviceIds (memberships : List DeviceGroupMembership) : Service (List String) :=
  if memberships = [] then pure []
  else do
    let devices ← await (.findKeyPackagesOfDevices
      (memberships.map fun row => row.device.deviceId))
    return devices.map Device.key

def reconcileRoutingSet (routable : List Device) : Service Unit :=
  if routable = [] then pure () else await (.sadd (routable.map Device.key))

/-- The rows of a send with `proto`: one for each live active device but the sender and those
    the body excludes. -/
def protoRows (body : SendMessageBody) (proto : String) : Service (List QueuedMessage) := do
  refuseInactiveSender body
  let memberships ← await .findActiveDevices
  let live ← liveDeviceIds memberships
  let routable := (memberships.map DeviceGroupMembership.device).filter (·.key ∈ live)
  let targets := routable.filter fun device =>
    ¬(some device.userId = body.senderId ∧ some device.deviceId = body.senderDeviceId) ∧
      device.key ∉ body.excludeDeviceIds
  reconcileRoutingSet routable
  return targets.map fun device =>
    ⟨device, body.senderId, body.senderDeviceId, body.isWelcome, body.isCommit, some proto, none,
      none, none⟩

def namedTargets : List Recipient → Service (List Device)
  | [] => pure []
  | recipient :: rest => do
    let userId ← sanitize recipient.userId "recipients.userId"
    match truthy recipient.deviceId with
    | none => namedTargets rest
    | some deviceId =>
      let deviceId ← sanitize (some deviceId) "recipients.deviceId"
      let others ← namedTargets rest
      return ⟨userId, deviceId⟩ :: others

def memberTargets (senderId : String) : Service (List Device) := do
  let members ← await .findMembers
  let userIds := members.filter (· ≠ senderId)
  if userIds = [] then pure [] else await (.findKeyPackagesOfUsers userIds)

section

variable (body : SendMessageBody)

def legacyTargets (senderId : String) : Service (List Device) :=
  if body.recipients = [] then memberTargets senderId else namedTargets body.recipients

def legacyRows : Service (List QueuedMessage) := do
  let senderId ← sanitize body.senderId "senderId"
  let senderDeviceId ← sanitizeOptional body.senderDeviceId "senderDeviceId"
  match truthy body.content with
  | none => .throw (.badRequest "content is required")
  | some content => do
    let targets ← legacyTargets body senderId
    return targets.map fun device =>
      ⟨device, some senderId, senderDeviceId, false, false, none, none, some content,
        some ((truthy body.type).getD "message")⟩

def resolveRows : Service (List QueuedMessage) :=
  match truthy body.proto with
  | some proto => protoRows body proto
  | none => legacyRows body

end

def onlineAmong : List String → Service (List String)
  | [] => pure []
  | key :: rest => do
    let online ← await (.isOnline key)
    let others ← onlineAmong rest
    return if online then key :: others else others

/-- The frame is appended to the shared history unless it is a handshake frame. -/
def appendHistory (body : SendMessageBody) : Service Unit :=
  match truthy body.proto, truthy body.senderId with
  | some proto, some senderId =>
    if !body.isWelcome && !body.isCommit && body.isDurable then
      await (.xadd ⟨senderId, body.senderDeviceId.getD "", proto, body.silent⟩)
    else pure ()
  | _, _ => pure ()

def enqueueAll (rows : List QueuedMessage) : Service Unit :=
  if rows = [] then pure () else enqueueForLiveGroup rows

/-- Best-effort delivery; the pushes are not awaited. -/
def deliver (online : List String) : List QueuedMessage → Service Unit
  | [] => pure ()
  | row :: rest =>
    if row.recipient.key ∈ online then do
      await (.publish row)
      deliver online rest
    else deliver online rest

def sendMessage (toLowerCase : String → String) (body : SendMessageBody)
    (authUserIdRaw : Option String) : Service (Nat × Nat) := do
  checkSender toLowerCase body authUserIdRaw
  let ops ← resolveRows body
  let online ← onlineAmong (ops.map fun row => row.recipient.key).eraseDups
  let toDeliver := if body.isDurable then ops else ops.filter (·.recipient.key ∈ online)
  enqueueAll toDeliver
  appendHistory body
  deliver online toDeliver
  return (toDeliver.length, (toDeliver.filter (·.recipient.key ∈ online)).length)

structure SendWelcomeBody where
  targetDeviceId : Option String
  targetUserId : Option String
  senderUserId : Option String
  welcomePayload : String
  ratchetTreePayload : Option String
deriving DecidableEq, Repr

def requireMember (groupId userId : String) : Service Unit := do
  let member ← await (.findMember userId)
  if member then pure ()
  else .throw (.forbidden ("User " ++ userId ++ " is not a member of group " ++ groupId))

section

variable (commit : Commit) (groupId : String) (device : Device)

def requireSenderMember : Option String → Service Unit
  | some userId => requireMember groupId userId
  | none => pure ()

/-- Real-time delivery of a Welcome, or a push. -/
def deliverWelcome (row : QueuedMessage) : Service Unit := do
  let online ← await (.isOnline row.recipient.key)
  if online then await (.publish row) else await (.push row)

/-- A Welcome queued for a device that was found: the row, then the membership and the
    routing set. -/
def welcomeDevice (target : Device) (row : QueuedMessage) : Service Unit := do
  enqueueForLiveGroup [row]
  deliverWelcome row
  await (.upsertDevice ⟨target, .pending⟩)
  await (.sadd [target.key])

def sendWelcome (authUserIdRaw : Option String) (body : SendWelcomeBody) : Service Unit := do
  let targetDeviceId ← sanitize body.targetDeviceId "targetDeviceId"
  let targetUserId ← sanitizeOptional body.targetUserId "targetUserId"
  let senderUserId ← sanitizeOptional body.senderUserId "senderUserId"
  let authUserId ← sanitizeOptional authUserIdRaw "x-user-id"
  requireSenderMember groupId authUserId
  let deviceInfo ← await (.findKeyPackage targetDeviceId targetUserId)
  match deviceInfo with
  | none =>
    .throw (.error ("Device " ++ targetDeviceId ++ " (user: " ++
      targetUserId.getD "unknown" ++ ") not found. Cannot deliver Welcome message."))
  | some found =>
    let target : Device := ⟨found.userId, targetDeviceId⟩
    welcomeDevice target ⟨target, some (senderUserId.getD "system"), none, true, false,
      some body.welcomePayload, body.ratchetTreePayload, none, none⟩

def putGroupInfo (groupInfo : String) (baseEpoch : Int) : Service Bool := do
  let existing ← await .findGroupInfo
  match existing with
  | some row =>
    if row.baseEpoch ≥ baseEpoch then pure false
    else await (.updateGroupInfo ⟨groupInfo, baseEpoch⟩)
  | none => await (.insertGroupInfo ⟨groupInfo, baseEpoch⟩)

def storeGroupInfo (groupId requesterUserId groupInfo : String) (baseEpoch : Int) :
    Service Bool := do
  requireMember groupId requesterUserId
  putGroupInfo groupInfo baseEpoch

def deviceAddressability : Service Bool := do
  let revoked ← await (.findRevoked device)
  if revoked then pure false
  else do
    let keyPackage ← await (.findKeyPackage device.deviceId (some device.userId))
    return keyPackage.isSome

/-- With `redeliverMissed: false`, as `validateCommit` calls it. -/
def activateDeviceMembership : Service Unit := do
  let addressable ← deviceAddressability device
  if addressable then do
    let _existing ← await (.findDevice device.deviceId)
    await (.upsertDevice ⟨device, .active⟩)
    await (.sadd [device.key])
  else pure ()

def publishBase : Service Unit :=
  match commit.newBase with
  | some newBase => do
    let _stored ← putGroupInfo newBase (commit.baseEpoch + 1)
    return ()
  | none => pure ()

/-- The transaction that advances the epoch, publishes its base and records the commit. -/
def advanceEpoch : Service Unit :=
  transaction do
    await (.updateActiveEpoch (commit.baseEpoch + 1))
    publishBase commit
    await (.insertCommit ⟨commit.baseEpoch, commit.proto, commit.deviceId⟩)

/-- The promotion of a device that joined by an external commit. -/
def promoteSender : Service Unit :=
  match commit.senderId with
  | none => pure ()
  | some senderId => do
    let membership ← await (.findDevice commit.deviceId)
    if membership.any (·.status = .active) then pure ()
    else (activateDeviceMembership ⟨senderId, commit.deviceId⟩).orElse fun _ => pure ()

end

def fanOut (toLowerCase : String → String) (commit : Commit) (excludeDeviceIds : List String) :
    Service Unit :=
  Program.orElse (do
    let _result ← sendMessage toLowerCase
      ⟨some commit.proto, [], commit.senderId, some commit.deviceId, false, true,
        excludeDeviceIds, false, none, none, none⟩ none
    return ()) fun _ => pure ()

inductive CommitAnswer where
  | accepted (newEpoch : Nat)
  | rejected (currentEpoch : Nat) (reason : Reason)
deriving DecidableEq, Repr

/-- What runs under the commit lock. -/
def gatedCommit (toLowerCase : String → String) (commit : Commit)
    (excludeDeviceIds : List String) : Service CommitAnswer := do
  let group ← await .findGroup
  if commit.baseEpoch ≠ group.activeEpoch then
    return .rejected group.activeEpoch .epochMismatch
  else do
    advanceEpoch commit
    promoteSender commit
    fanOut toLowerCase commit excludeDeviceIds
    return .accepted (commit.baseEpoch + 1)

def validateCommit (toLowerCase : String → String) (body : ValidateCommitBody)
    (excludeDeviceIds : List String) : Service CommitAnswer :=
  match checkBody body with
  | .error message => .throw (.badRequest message)
  | .ok commit => do
    let acquired ← await (.setCommitLock commit.deviceId)
    if acquired then
      (gatedCommit toLowerCase commit excludeDeviceIds).andFinally
        (await (.releaseCommitLock commit.deviceId))
    else do
      let group ← await .findGroup
      return .rejected group.activeEpoch .concurrentCommit

def deleteGroupOwnedRows : List OwnedTable → Service Unit
  | [] => pure ()
  | table :: rest => do
    await (.deleteRows table)
    deleteGroupOwnedRows rest

def deleteGroup : Service Unit := do
  transaction do
    await .updateDeletedAt
    deleteGroupOwnedRows (ownedTables true)
  await .del

/-! ## 5. Interleaved calls -/

inductive Request where
  | sendMessage (body : SendMessageBody) (authUserIdRaw : Option String)
  | sendWelcome (authUserIdRaw : Option String) (body : SendWelcomeBody)
  | validateCommit (body : ValidateCommitBody) (excludeDeviceIds : List String)
  | putGroupInfo (groupInfo : String) (baseEpoch : Int)
  | storeGroupInfo (requesterUserId groupInfo : String) (baseEpoch : Int)
  | deleteGroup

inductive Answer where
  | processed (queued sent : Nat)
  | welcomeQueued
  | commit (answer : CommitAnswer)
  | stored (value : Bool)
  | deleted
deriving DecidableEq, Repr

/-- The call of a request on the group `groupId`. -/
def Request.program (groupId : String) (toLowerCase : String → String) :
    Request → Service Answer
  | .sendMessage body authUserIdRaw => do
    let (queued, sent) ← GroupCalls.sendMessage toLowerCase body authUserIdRaw
    return .processed queued sent
  | .sendWelcome authUserIdRaw body => do
    GroupCalls.sendWelcome groupId authUserIdRaw body
    return .welcomeQueued
  | .validateCommit body excludeDeviceIds => do
    let answer ← GroupCalls.validateCommit toLowerCase
      { body with groupId := some groupId } excludeDeviceIds
    return .commit answer
  | .putGroupInfo groupInfo baseEpoch => do
    let value ← GroupCalls.putGroupInfo groupInfo baseEpoch
    return .stored value
  | .storeGroupInfo requesterUserId groupInfo baseEpoch => do
    let value ← GroupCalls.storeGroupInfo groupId requesterUserId groupInfo baseEpoch
    return .stored value
  | .deleteGroup => do
    GroupCalls.deleteGroup
    return .deleted

abbrev Server := World Store Command.Reply Failure Answer

/-- `expire` is the commit lock running out; `change` is anything outside the group. -/
inductive Action where
  | call (id : Nat) (request : Request)
  | resume (id : Nat)
  | expire
  | change (outside : Outside)

def step (groupId : String) (toLowerCase : String → String) (server : Server) :
    Action → Option Server
  | .call id request => server.call id (request.program groupId toLowerCase)
  | .resume id => server.resume execute id
  | .expire =>
    some { server with
      shared := server.shared.setKeys { server.shared.keys with commitLock := none } }
  | .change outside => some { server with shared := { server.shared with outside } }

end MinesApp.GroupCalls
