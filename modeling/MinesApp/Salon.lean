import MinesApp.TransitionSystem
import MinesApp.UniqueTable

/-!
# The roster of a private salon and the routing of its distribution group

Who may open a private salon is a list in its row, `allowedUsers`.  Every operation of
`channel.service.ts` that touches it reads the row, asks other services, and at last saves
the row as it read it, with its own change: the list is written as a whole.  An operation
that takes somebody out has the delivery service delete the person's routing rows first
(`evictFromDistributionGroup`), one statement after the other.

The delivery service has its own writers of these rows.  A send resolves the active devices
of the group and queues a row for each of them later; a commit, the publication of a group
info, a device that joined in the background and a device that reports its own status all
end in an upsert that makes a membership active.

A step is one such statement or the outcome of one such call.  The calls that run are kept in
the state, and so is, for each user, the last removal that returned success.
-/

namespace MinesApp.Salon

open UniqueTable

/-! ## 1. Rows and calls -/

/-- A row of `dm_device_group_memberships` of the salon's distribution group; one that is not
    `active` is `pending`. -/
structure DeviceGroupMembership (User : Type) where
  userId : User
  deviceId : Nat
  active : Bool
deriving DecidableEq, Repr

structure QueuedMessage (User : Type) where
  recipientId : User
  deviceId : Nat
deriving DecidableEq, Repr

/-- The operations that save the row of the salon. -/
inductive Operation (User : Type) where
  | leaveChannel (userId : User)
  | removeMemberFromChannel (targetUserId : User)
  /-- The part of leaving the community, of being kicked from it and of the deletion of an
      account that is about this salon. -/
  | cutOffEveryPrivateChannel (userId : User)
  | updateChannelAccess (allowedUserIds : List User)
  | joinPrivateChannelAsAdmin (actorUserId : User)
  | inviteToChannel (targetUserId : User)
  | renameChannel
deriving DecidableEq, Repr

/-- Where an operation waits; `read` is the list in the row as it was read. -/
inductive OperationStage (User : Type) where
  | opened
  | checking (read : List User)
  | evicting (read : List User) (user : User) (rest : List User)
  | evictingQueued (read : List User) (user : User) (rest : List User)
  | evictingRoutes (read : List User) (user : User) (rest : List User)
  | saving (read : List User) (list : List User)
  | announcing (read : List User)
deriving DecidableEq, Repr

/-- The calls that end in a write of a membership. -/
inductive Path where
  /-- `validateCommit`, for the device that commits. -/
  | commit
  /-- `publishDistributionGroupInfo`, for the device that publishes. -/
  | groupInfo
  /-- `markMembershipActivePush`. -/
  | push
  /-- `updateInvitationStatus`. -/
  | status (active : Bool)
deriving DecidableEq, Repr

def Path.activates : Path → Bool
  | .status active => active
  | _ => true

inductive Job (User : Type) where
  | performing (operation : Operation User) (stage : OperationStage User)
  /-- A send before it resolves its recipients; a commit ends in one. -/
  | sending
  | enqueueing (targets : List (QueuedMessage User))
  | opening (path : Path) (userId : User) (deviceId : Nat)
  | looking (path : Path) (userId : User) (deviceId : Nat)
  | upserting (path : Path) (userId : User) (deviceId : Nat) (wasAlreadyActive : Bool)
  | redelivering (userId : User) (deviceId : Nat)
deriving DecidableEq, Repr

structure Call (User : Type) where
  id : Nat
  job : Job User
deriving DecidableEq, Repr

inductive Request (User : Type) where
  | perform (operation : Operation User)
  | sendMessage
  | activate (path : Path) (userId : User) (deviceId : Nat)
deriving DecidableEq, Repr

def Request.job {User : Type} : Request User → Job User
  | .perform operation => .performing operation .opened
  | .sendMessage => .sending
  | .activate path userId deviceId => .opening path userId deviceId

/-- How what a call waits for turns out. -/
inductive Reply where
  | ok
  | fails
  /-- A send leaves out devices: its own, excluded ones, those without a KeyPackage, and for a
      transport frame those that are not online. -/
  | skips (devices : List Nat)
  | redelivers (count : Nat)
deriving DecidableEq, Repr

inductive Action (User : Type) where
  | start (request : Request User)
  | resume (call : Nat) (reply : Reply)
  /-- The device has collected its frames. -/
  | acknowledge (recipientId : User) (deviceId : Nat)
  /-- The membership of the device is deleted. -/
  | forget (deviceId : Nat)
deriving DecidableEq, Repr

structure State (User : Type) where
  allowedUsers : List User
  memberships : Table (@DeviceGroupMembership.deviceId User)
  queued : List (QueuedMessage User)
  nextCall : Nat
  calls : Table (@Call.id User)
  /-- For each user whom a removal took out, and to whom no operation has given access since:
      the calls that were running when the removal returned. -/
  departed : User → Option (List Nat)

/-! ## 2. What an operation does to the list -/

section

variable {User : Type} [DecidableEq User] (normalize : User → User)

section

variable (read : List User)

/-- Whom the operation cuts off from the distribution group, under the names it gives to the
    delivery service. -/
def Operation.cutsOff : Operation User → List User
  | .leaveChannel userId => [userId]
  | .removeMemberFromChannel targetUserId => [targetUserId]
  | .cutOffEveryPrivateChannel userId => if normalize userId ∈ read then [userId] else []
  | .updateChannelAccess allowedUserIds =>
    read.eraseDups.filter (· ∉ allowedUserIds.map normalize)
  | .joinPrivateChannelAsAdmin _ => []
  | .inviteToChannel _ => []
  | .renameChannel => []

/-- The list that the operation saves, if it saves the row. -/
def Operation.saves : Operation User → Option (List User)
  | .leaveChannel userId => some (read.filter (· ≠ normalize userId))
  | .removeMemberFromChannel targetUserId => some (read.filter (· ≠ normalize targetUserId))
  | .cutOffEveryPrivateChannel userId =>
    if normalize userId ∈ read then some (read.filter (· ≠ normalize userId)) else none
  | .updateChannelAccess allowedUserIds => some (allowedUserIds.map normalize)
  | .joinPrivateChannelAsAdmin actorUserId =>
    if normalize actorUserId ∈ read then none else some (read ++ [normalize actorUserId])
  | .inviteToChannel targetUserId =>
    if normalize targetUserId ∈ read then none else some (read ++ [normalize targetUserId])
  | .renameChannel => some read

/-- The names that the operation gives access to. -/
def Operation.grants : Operation User → List User
  | .updateChannelAccess allowedUserIds => allowedUserIds.map normalize
  | .joinPrivateChannelAsAdmin actorUserId => [normalize actorUserId]
  | .inviteToChannel targetUserId => [normalize targetUserId]
  | _ => []

/-- The operation takes the user out of the salon. -/
def Operation.removes (user : User) : Operation User → Bool
  | .leaveChannel userId => userId = user
  | .removeMemberFromChannel targetUserId => targetUserId = user
  | .cutOffEveryPrivateChannel userId => userId = user ∧ normalize userId ∈ read
  | .updateChannelAccess allowedUserIds =>
    normalize user ∈ read ∧ normalize user ∉ allowedUserIds.map normalize
  | _ => false

end

/-- Whether the operation publishes an event between the save and its answer. -/
def Operation.announces : Operation User → Bool
  | .leaveChannel _ => false
  | _ => true

/-- The next cut, or the save. -/
def Operation.proceed (operation : Operation User) (read : List User) :
    List User → OperationStage User
  | user :: rest => .evicting read user rest
  | [] =>
    match operation.saves normalize read with
    | some list => .saving read list
    | none => .announcing read

end

/-! ## 3. One step -/

section Step

variable {User : Type} [DecidableEq User]

def State.initial (allowedUsers : List User) : State User :=
  ⟨allowedUsers, .empty, [], 0, .empty, fun _ => none⟩

def State.goOn (state : State User) (call : Nat) (job : Job User) : State User :=
  { state with calls := state.calls.put ⟨call, job⟩ }

def State.finish (state : State User) (call : Nat) : State User :=
  { state with calls := state.calls.remove call }

variable (normalize : User → User)

section

variable (state : State User) (call : Nat) (operation : Operation User) (userId : User)

def State.succeed (read : List User) : State User :=
  let ended := state.finish call
  { ended with
    departed := fun user =>
      if operation.removes normalize read user then some (ended.calls.rows.map Call.id)
      else state.departed user }

def State.save (list : List User) : State User :=
  { state with
    allowedUsers := list
    departed := fun user =>
      if normalize user ∈ operation.grants normalize then none else state.departed user }

def State.operate (ok : Bool) : OperationStage User → State User
  | .opened =>
    if ok then state.goOn call (.performing operation (.checking state.allowedUsers))
    else state.finish call
  | .checking read =>
    if ok then
      state.goOn call (.performing operation
        (operation.proceed normalize read (operation.cutsOff normalize read)))
    else state.finish call
  | .evicting read user rest =>
    if ok then
      { state with memberships := state.memberships.filter (·.userId ≠ user) }.goOn call
        (.performing operation (.evictingQueued read user rest))
    else state.finish call
  | .evictingQueued read user rest =>
    if ok then
      { state with queued := state.queued.filter (·.recipientId ≠ user) }.goOn call
        (.performing operation (.evictingRoutes read user rest))
    else state.finish call
  | .evictingRoutes read _ rest =>
    if ok then
      state.goOn call (.performing operation (operation.proceed normalize read rest))
    else state.finish call
  | .saving read list =>
    if ok then
      let saved := state.save normalize operation list
      if operation.announces then saved.goOn call (.performing operation (.announcing read))
      else saved.succeed normalize call operation read
    else state.finish call
  | .announcing read =>
    if ok then state.succeed normalize call operation read else state.finish call

/-- The rows that a send resolves. -/
def State.targets : List (QueuedMessage User) :=
  (state.memberships.rows.filter (·.active)).map fun row => ⟨row.userId, row.deviceId⟩

def State.enqueue (messages : List (QueuedMessage User)) : State User :=
  { state with queued := state.queued ++ messages }

/-- The call that a membership write belongs to goes on: a commit is fanned out. -/
def State.afterActivation : Path → State User
  | .commit => state.goOn call .sending
  | _ => state.finish call

/-- The part of the salon service before the delivery service is asked: a publisher must be on
    the list. -/
def State.admits : Path → Bool
  | .groupInfo => normalize userId ∈ state.allowedUsers
  | _ => true

/-- `findOne` by the device, and the device's addressability. -/
def State.look (deviceId : Nat) (ok : Bool) (path : Path) : State User :=
  let found := state.memberships.find deviceId
  let wasAlreadyActive := found.any (·.active)
  match path with
  | .commit =>
    if wasAlreadyActive || !ok then state.goOn call .sending
    else state.goOn call (.upserting .commit userId deviceId false)
  | .status active =>
    if ok then
      state.goOn call (.upserting (.status active) ((found.map (·.userId)).getD userId) deviceId
        wasAlreadyActive)
    else state.finish call
  | path =>
    if ok then state.goOn call (.upserting path userId deviceId wasAlreadyActive)
    else state.finish call

def State.upsert (deviceId : Nat) (wasAlreadyActive : Bool) (path : Path) : State User :=
  let written := { state with
    memberships := state.memberships.put ⟨userId, deviceId, path.activates⟩ }
  if path = .push ∧ wasAlreadyActive = false then
    written.goOn call (.redelivering userId deviceId)
  else written.afterActivation call path

end

def State.resume (state : State User) (call : Nat) : Job User → Reply → Option (State User)
  | .performing operation stage, .ok => some (state.operate normalize call operation true stage)
  | .performing operation stage, .fails => some (state.operate normalize call operation false stage)
  | .sending, .ok => some (state.goOn call (.enqueueing state.targets))
  | .sending, .fails => some (state.finish call)
  | .enqueueing targets, .skips devices =>
    some ((state.enqueue (targets.filter (·.deviceId ∉ devices))).finish call)
  | .enqueueing _, .fails => some (state.finish call)
  | .opening path userId deviceId, .ok =>
    some (if state.admits normalize userId path then
      state.goOn call (.looking path userId deviceId) else state.finish call)
  | .opening _ _ _, .fails => some (state.finish call)
  | .looking path userId deviceId, .ok => some (state.look call userId deviceId true path)
  | .looking path userId deviceId, .fails => some (state.look call userId deviceId false path)
  | .upserting path userId deviceId wasAlreadyActive, .ok =>
    some (state.upsert call userId deviceId wasAlreadyActive path)
  | .upserting path _ _ _, .fails => some (state.afterActivation call path)
  | .redelivering userId deviceId, .redelivers count =>
    some ((state.enqueue (List.replicate count ⟨userId, deviceId⟩)).finish call)
  | .redelivering _ _, .fails => some (state.finish call)
  | _, _ => none

def step (state : State User) : Action User → Option (State User)
  | .start request =>
    some { state.goOn state.nextCall request.job with nextCall := state.nextCall + 1 }
  | .resume call reply =>
    (state.calls.find call).bind fun running => state.resume normalize call running.job reply
  | .acknowledge recipientId deviceId =>
    some { state with queued := state.queued.filter (· ≠ ⟨recipientId, deviceId⟩) }
  | .forget deviceId => some { state with memberships := state.memberships.remove deviceId }

end Step

end MinesApp.Salon
