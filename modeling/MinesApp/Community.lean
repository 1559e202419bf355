import MinesApp.TransitionSystem
import MinesApp.UniqueTable

/-!
# Communities: members, roles and invitations

The operations of `channel.service.ts` that write a community, its roles, its members or its
invite links.  A member holds role ids, a role holds permissions, and every operation asks
for one of a few permissions: `workspace.manage` always, and a narrower one where the
operation has one.

An operation answers a reply or an error, and leaves a database either way: what it wrote
before it failed stays written.  What the other services answer is given with each request
(`World`); the columns that no operation here reads are left out.
-/

namespace MinesApp.Community

open TransitionSystem UniqueTable

/-! ## 1. Permissions -/

inductive ChannelPermission where
  | manageChannel
  | manageMessages
  | inviteMembers
  | kickMembers
  | manageRoles
  | manageWorkspace
deriving DecidableEq, Repr

namespace ChannelPermission

def key : ChannelPermission → String
  | manageChannel => "channel.manage"
  | manageMessages => "channel.moderate"
  | inviteMembers => "member.invite"
  | kickMembers => "member.kick"
  | manageRoles => "role.manage"
  | manageWorkspace => "workspace.manage"

def all : List ChannelPermission :=
  [manageChannel, manageMessages, inviteMembers, kickMembers, manageRoles, manageWorkspace]

/-- The permission a key names, among those the server has. -/
def ofKey (key : String) : Option ChannelPermission :=
  all.find? fun permission => permission.key = key

end ChannelPermission

open ChannelPermission

def legacyPermission : String → Option ChannelPermission
  | "MANAGE_WORKSPACE" => some manageWorkspace
  | "MANAGE_CHANNELS" => some manageChannel
  | "MANAGE_ROLES" => some manageRoles
  | "MODERATE_MESSAGES" => some manageMessages
  | "INVITE_USERS" => some inviteMembers
  | _ => none

/-- What a load makes of a stored key; an unknown one never matches a check. -/
def normalizePermission (key : String) : Option ChannelPermission :=
  (legacyPermission key).orElse fun _ => ofKey key

/-- What comes back from a `simple-array` column. -/
def simpleArray (values : List String) : List String :=
  match String.intercalate "," values with
  | "" => []
  | joined => joined.splitOn ","

def retiredPermissions : List String := ["channel.access", "channel.send"]

def defaultAdminPermissions : List ChannelPermission := all

def defaultModeratorPermissions : List ChannelPermission :=
  [manageMessages, inviteMembers, kickMembers]

def defaultMemberPermissions : List ChannelPermission := []

/-! ## 2. Rows -/

structure Workspace where
  id : Nat
  name : String
  createdBy : String
deriving DecidableEq, Repr

structure ChannelRole where
  id : Nat
  workspaceId : Nat
  name : String
  priority : Int
  permissions : List ChannelPermission
deriving DecidableEq, Repr

structure ChannelMember where
  workspaceId : Nat
  userId : String
  roleIds : List Nat
deriving DecidableEq, Repr

structure Channel where
  id : Nat
  workspaceId : Nat
  name : String
deriving DecidableEq, Repr

structure WorkspaceInvite where
  token : Nat
  workspaceId : Nat
  createdBy : String
  createdAt : Nat
  expiresAt : Option Nat
  maxUses : Option Nat
  uses : Nat
  revoked : Bool
deriving DecidableEq, Repr

/-- The unique index of `channel_members`. -/
def ChannelMember.key (member : ChannelMember) : Nat × String :=
  (member.workspaceId, member.userId)

/-- The tables, the time, and the next id that has never been given out: one supply for
    every generated id and token. -/
structure Db where
  workspaces : Table Workspace.id
  roles : Table ChannelRole.id
  members : Table ChannelMember.key
  channels : Table Channel.id
  invites : Table WorkspaceInvite.token
  now : Nat
  nextId : Nat

def Db.empty : Db := ⟨.empty, .empty, .empty, .empty, .empty, 0, 0⟩

/-! ## 3. Answers -/

inductive HttpError where
  | notFound (code : Option String) (message : String)
  | forbidden (code : Option String) (message : String)
  | badRequest (code : Option String) (message : String)
  | serviceUnavailable
  | internal
deriving DecidableEq, Repr

inductive Reply where
  | success
  | workspace (created : Workspace)
  | role (saved : ChannelRole)
  | channel (created : Channel)
  | invite (token : Nat) (expiresAt maxUses : Option Nat) (uses : Nat)
  | accepted (alreadyMember : Bool)
  | invited (userId : String) (alreadyMember : Bool)
deriving DecidableEq, Repr

abbrev Outcome := Db × Except HttpError Reply

def wouldHaveNoAdmin : HttpError :=
  .badRequest (some "WORKSPACE_WOULD_HAVE_NO_ADMIN")
    "The community would be left with no administrator."

/-- What the other services answer to one request: the delivery service to the creation,
    eviction and deletion of a distribution group and to the count of a user's devices, the
    block list, the event bus, and the value the database gives to an omitted priority. -/
structure World where
  creates : Bool
  evicts : Bool
  deletes : Bool
  publishes : Bool
  blocked : Bool
  devices : Option Nat
  defaultPriority : Option Int
deriving DecidableEq, Repr

/-- Every service answers, nobody is blocked, and `priority` has no default. -/
def World.calm : World := ⟨true, true, true, true, false, some 1, none⟩

/-! ## 4. Who may do what -/

section

variable (db : Db) (workspaceId : Nat)

def Db.rolesHeld (member : ChannelMember) : List ChannelRole :=
  db.roles.rows.filter fun role => role.id ∈ member.roleIds

def Db.grantsAny (member : ChannelMember) (accepted : List ChannelPermission) : Bool :=
  (db.rolesHeld member).any fun role => accepted.any fun permission =>
    permission ∈ role.permissions

/-- Whether the user is a member with a role that has one of the permissions. -/
def Db.can (userId : String) (accepted : List ChannelPermission) : Bool :=
  match db.members.find (workspaceId, userId) with
  | none => false
  | some member => db.grantsAny member accepted

/-- The gate that the operations share; they differ in what they accept and in the message. -/
def Db.authorise (actorUserId : String)
    (accepted : List ChannelPermission) (missing : String) : Except HttpError Unit :=
  match db.members.find (workspaceId, actorUserId) with
  | none => .error (.forbidden none "Not a member of this workspace")
  | some member =>
    if db.grantsAny member accepted then .ok () else .error (.forbidden none missing)

def ChannelRole.manages (role : ChannelRole) : Bool := manageWorkspace ∈ role.permissions

def Db.workspaceMembers : List ChannelMember :=
  db.members.rows.filter fun member => member.workspaceId = workspaceId

def Db.workspaceRoles : List ChannelRole :=
  db.roles.rows.filter fun role => role.workspaceId = workspaceId

def Db.getWorkspaceMemberIds : List String :=
  (db.workspaceMembers workspaceId).map ChannelMember.userId

def Db.listWorkspaceAdminIds : List String :=
  let adminRoles := (db.workspaceRoles workspaceId).filter ChannelRole.manages
  let adminRoleIds := adminRoles.map ChannelRole.id
  ((db.workspaceMembers workspaceId).filter fun member =>
    member.roleIds.any fun id => id ∈ adminRoleIds).map ChannelMember.userId

/-- `assertRemovalKeepsAnAdmin`. -/
def Db.removalKeepsAnAdmin (targetUserId : String) : Bool :=
  db.listWorkspaceAdminIds workspaceId ≠ [targetUserId] ||
    (db.getWorkspaceMemberIds workspaceId).all fun id => id = targetUserId

def Db.roleNamed (name : String) : Option ChannelRole :=
  db.roles.rows.find? fun role => role.workspaceId = workspaceId ∧ role.name = name

end

/-- `inviteIsValid`. -/
def WorkspaceInvite.isValid (invite : WorkspaceInvite) (now : Nat) : Bool :=
  !invite.revoked && (invite.expiresAt.all fun expiresAt => now ≤ expiresAt) &&
    invite.maxUses.all fun maxUses => invite.uses < maxUses

/-- JavaScript's string functions; `fold` trims, lowers and strips the accents. -/
structure Text where
  trim : String → String
  lower : String → String
  fold : String → String

/-- Text that is already trimmed, lowered and without accents. -/
def Text.plain : Text := ⟨id, id, id⟩

def mapRoleInputToWorkspaceRoleName (text : Text) (name : String) : String :=
  let normalized := text.fold name
  if normalized = "" ∨ normalized = "member" ∨ normalized = "membre" then "Membre"
  else if normalized = "admin" ∨ normalized = "administrateur" ∨ normalized = "administrator" then
    "Administrateur"
  else if normalized = "moderator" ∨ normalized = "moderateur" ∨ normalized = "modérateur" then
    "Modérateur"
  else if text.trim name = "" then "Membre"
  else text.trim name

/-- The role that an accepted link gives: the one of lowest priority. -/
def Db.baseRole (db : Db) (workspaceId : Nat) : Option ChannelRole :=
  ((db.workspaceRoles workspaceId).mergeSort fun first second =>
    first.priority ≤ second.priority).head?

def roleIdsOf (role : Option ChannelRole) : List Nat := (role.map ChannelRole.id).toList

/-! ## 5. Operations -/

section

variable (db : Db) (world : World) (workspaceId : Nat) (text : Text)

/-- `memberRepo.save` of a new row. -/
def Db.addMember (member : ChannelMember) : Option Db :=
  (db.members.insert member).map fun members => { db with members }

def Db.addRole (role : ChannelRole) : Option Db :=
  if (db.roleNamed role.workspaceId role.name).isSome then none
  else (db.roles.insert role).map fun roles => { db with roles }

/-- The rows that `createWorkspace` saves once the distribution group exists. -/
def Db.seedWorkspace (workspace : Workspace) : Option Db := do
  let id := db.nextId
  let workspaces ← db.workspaces.insert workspace
  let db := { db with workspaces, nextId := id + 5 }
  let db ← db.addRole ⟨id + 1, workspace.id, "Administrateur", 100, defaultAdminPermissions⟩
  let db ← db.addRole ⟨id + 2, workspace.id, "Modérateur", 50, defaultModeratorPermissions⟩
  let db ← db.addRole ⟨id + 3, workspace.id, "Membre", 10, defaultMemberPermissions⟩
  let db ← db.addMember ⟨workspace.id, workspace.createdBy, [id + 1]⟩
  let channels ← db.channels.insert ⟨id + 4, workspace.id, "general"⟩
  return { db with channels }

/-- A failure to create the distribution group unwinds the row that was saved before it. -/
def createWorkspace (name createdBy : String) : Outcome :=
  let workspace : Workspace := ⟨db.nextId, name, createdBy⟩
  if world.creates then
    match db.seedWorkspace workspace with
    | some after => (after, .ok (.workspace workspace))
    | none => (db, .error .internal)
  else ({ db with nextId := db.nextId + 1 }, .error .serviceUnavailable)

/-- One transaction over every table, after the distribution groups are gone. -/
def hardDeleteWorkspace : Outcome :=
  if world.deletes then
    ({ db with
        members := db.members.filter fun member => member.workspaceId ≠ workspaceId
        roles := db.roles.filter fun role => role.workspaceId ≠ workspaceId
        invites := db.invites.filter fun invite => invite.workspaceId ≠ workspaceId
        channels := db.channels.filter fun channel => channel.workspaceId ≠ workspaceId
        workspaces := db.workspaces.filter fun workspace => workspace.id ≠ workspaceId },
      .ok .success)
  else (db, .error .serviceUnavailable)

/-- What leaving and being kicked share, from the postcondition on. -/
def removeMember (targetUserId : String) : Outcome :=
  if db.removalKeepsAnAdmin workspaceId targetUserId then
    if world.evicts then
      let after := { db with
        members := db.members.filter fun member => member.key ≠ (workspaceId, targetUserId) }
      if world.publishes then
        if after.getWorkspaceMemberIds workspaceId = [] then
          hardDeleteWorkspace after world workspaceId
        else (after, .ok .success)
      else (after, .error .internal)
    else (db, .error .serviceUnavailable)
  else (db, .error wouldHaveNoAdmin)

def leaveWorkspace (userId : String) : Outcome :=
  if (db.workspaces.find workspaceId).isNone then
    (db, .error (.notFound none "Workspace not found"))
  else if (db.members.find (workspaceId, userId)).isNone then
    (db, .error (.notFound none "Not a member of this workspace"))
  else removeMember db world workspaceId userId

def kickFromWorkspace (targetUserId actorUserId : String) : Outcome :=
  if (db.workspaces.find workspaceId).isNone then
    (db, .error (.notFound none "Workspace not found"))
  else
    match db.authorise workspaceId actorUserId [manageWorkspace, manageChannel, kickMembers]
        "Missing MANAGE_CHANNEL or KICK_MEMBERS permission" with
    | .error error => (db, .error error)
    | .ok () =>
      if (db.members.find (workspaceId, targetUserId)).isNone then
        (db, .error (.notFound none "Target member not found in workspace"))
      else removeMember db world workspaceId targetUserId

def deleteWorkspace (db : Db) (world : World) (workspaceId : Nat)
    (actorUserId confirmationName : String) : Outcome :=
  match db.workspaces.find workspaceId with
  | none => (db, .error (.notFound none "Workspace not found"))
  | some workspace =>
    match db.authorise workspaceId actorUserId [manageWorkspace]
        "Missing MANAGE_WORKSPACE permission" with
    | .error error => (db, .error error)
    | .ok () =>
      if text.trim confirmationName ≠ text.trim workspace.name then
        (db, .error (.badRequest (some "WORKSPACE_CONFIRMATION_MISMATCH")
          "The confirmation does not match the community name."))
      else
        match hardDeleteWorkspace db world workspaceId with
        | (after, .error error) => (after, .error error)
        | (after, .ok reply) =>
          (after, if world.publishes then .ok reply else .error .internal)

/-- The insert leaves `priority` to the database. -/
def createRole (actorUserId name : String) (permissions : List String) : Outcome :=
  match db.authorise workspaceId actorUserId [manageWorkspace, manageRoles]
      "Missing MANAGE_ROLES permission" with
  | .error error => (db, .error error)
  | .ok () =>
    match world.defaultPriority with
    | none => (db, .error .internal)
    | some priority =>
      let role : ChannelRole :=
        ⟨db.nextId, workspaceId, name, priority,
          (simpleArray permissions).filterMap normalizePermission⟩
      match { db with nextId := db.nextId + 1 }.addRole role with
      | none => (db, .error .internal)
      | some after => (after, .ok (.role role))

def createChannel (db : Db) (world : World) (workspaceId : Nat)
    (actorUserId name : String) : Outcome :=
  match db.authorise workspaceId actorUserId [manageWorkspace, manageChannel]
      "Missing MANAGE_CHANNEL permission" with
  | .error error => (db, .error error)
  | .ok () =>
    let channelName := text.lower (text.trim name)
    if channelName = "" then (db, .error (.badRequest none "Channel name cannot be empty"))
    else if channelName.length > 80 then
      (db, .error (.badRequest none "Channel name too long (max 80 characters)"))
    else if db.channels.rows.any fun channel =>
        channel.workspaceId = workspaceId ∧ channel.name = channelName then
      (db, .error .internal)
    else
      let channel : Channel := ⟨db.nextId, workspaceId, channelName⟩
      match db.channels.insert channel with
      | none => (db, .error .internal)
      | some channels =>
        ({ db with channels, nextId := db.nextId + 1 },
          if world.publishes then .ok (.channel channel) else .error .internal)

def deleteChannel (channelId : Nat) (actorUserId : String) : Outcome :=
  match db.channels.find channelId with
  | none => (db, .error (.notFound none "Channel not found"))
  | some channel =>
    match db.authorise channel.workspaceId actorUserId [manageWorkspace, manageChannel]
        "Missing MANAGE_CHANNEL permission" with
    | .error error => (db, .error error)
    | .ok () =>
      if world.deletes then
        ({ db with channels := db.channels.filter fun other => other.id ≠ channelId },
          if world.publishes then .ok .success else .error .internal)
      else (db, .error .serviceUnavailable)

end

/-- The bounds of a new link, as the client sent them: absent, unreadable, or a value. -/
structure InviteOptions where
  expiresAt : Option (Option Nat)
  maxUses : Option (Option Int)
  rotate : Bool
deriving DecidableEq, Repr

def parseInviteExpiry (now : Nat) : Option (Option Nat) → Except HttpError (Option Nat)
  | none => .ok none
  | some none =>
    .error (.badRequest (some "INVITE_EXPIRY_INVALID") "expiresAt is not a valid date")
  | some (some parsed) =>
    if parsed ≤ now then
      .error (.badRequest (some "INVITE_EXPIRY_IN_THE_PAST") "expiresAt is already in the past")
    else .ok (some parsed)

def parseInviteMaxUses : Option (Option Int) → Except HttpError (Option Nat)
  | none => .ok none
  | some raw =>
    match raw with
    | some uses =>
      if uses < 1 then
        .error (.badRequest (some "INVITE_MAX_USES_INVALID") "maxUses must be a positive integer")
      else .ok (some uses.toNat)
    | none =>
      .error (.badRequest (some "INVITE_MAX_USES_INVALID") "maxUses must be a positive integer")

section

variable (db : Db) (world : World) (workspaceId : Nat) (actorUserId : String)

def Db.revokeInvites (revoked : List WorkspaceInvite) : Db :=
  { db with
    invites := revoked.foldl (fun invites invite => invites.write { invite with revoked := true })
      db.invites }

def WorkspaceInvite.dto (invite : WorkspaceInvite) : Reply :=
  .invite invite.token invite.expiresAt invite.maxUses invite.uses

def Db.liveInvites : List WorkspaceInvite :=
  (db.invites.rows.filter fun invite =>
    invite.workspaceId = workspaceId && invite.isValid db.now).mergeSort
    fun first second => second.createdAt ≤ first.createdAt

section

variable (options : InviteOptions) (text : Text)

/-- The live links are revoked before the bounds of the new one are looked at. -/
def mintInvite : Outcome :=
  match parseInviteExpiry db.now options.expiresAt, parseInviteMaxUses options.maxUses with
  | .error error, _ => (db, .error error)
  | .ok _, .error error => (db, .error error)
  | .ok expiresAt, .ok maxUses =>
    let invite : WorkspaceInvite :=
      ⟨db.nextId, workspaceId, actorUserId, db.now, expiresAt, maxUses, 0, false⟩
    match db.invites.insert invite with
    | none => (db, .error .internal)
    | some invites => ({ db with invites, nextId := db.nextId + 1 }, .ok invite.dto)

def createWorkspaceInvite : Outcome :=
  if (db.workspaces.find workspaceId).isNone then
    (db, .error (.notFound none "Workspace not found"))
  else if db.can workspaceId actorUserId [inviteMembers, manageWorkspace] then
    match options.rotate, db.liveInvites workspaceId with
    | false, newest :: older => (db.revokeInvites older, .ok newest.dto)
    | _, live => mintInvite (db.revokeInvites live) workspaceId actorUserId options
  else (db, .error (.forbidden none "Missing INVITE_USERS permission"))

def acceptWorkspaceInvite (token : Nat) (userId : String) : Outcome :=
  match db.invites.find token with
  | none => (db, .error (.notFound none "Invalid or expired invitation."))
  | some invite =>
    if invite.isValid db.now then
      if (db.workspaces.find invite.workspaceId).isNone then
        (db, .error (.notFound none "Workspace not found"))
      else if db.getWorkspaceMemberIds invite.workspaceId = [] then
        (db, .error (.notFound (some "WORKSPACE_HAS_NO_MEMBERS")
          "This community no longer exists."))
      else if (db.members.find (invite.workspaceId, userId)).isSome then
        (db, .ok (.accepted true))
      else
        match db.addMember
            ⟨invite.workspaceId, userId, roleIdsOf (db.baseRole invite.workspaceId)⟩ with
        | none => (db, .error .internal)
        | some joined =>
          ({ joined with
              invites := joined.invites.write { invite with uses := invite.uses + 1 } },
            if world.publishes then .ok (.accepted false) else .error .internal)
    else (db, .error (.notFound none "Invalid or expired invitation."))

/-- Looks for a role called `Member`, and for no permission. -/
def joinChannel (channelId : Nat) (userId : String) : Outcome :=
  match db.channels.find channelId with
  | none => (db, .error (.notFound none "Channel not found"))
  | some channel =>
    if (db.members.find (channel.workspaceId, userId)).isSome then (db, .ok .success)
    else
      match db.addMember ⟨channel.workspaceId, userId,
          roleIdsOf (db.roleNamed channel.workspaceId "Member")⟩ with
      | none => (db, .error .internal)
      | some after => (after, if world.publishes then .ok .success else .error .internal)

def inviteToChannel (db : Db) (world : World) (channelId : Nat)
    (actorUserId targetUserId : String) (roleName : Option String) : Outcome :=
  match db.channels.find channelId with
  | none => (db, .error (.notFound none "Channel not found"))
  | some channel =>
    match db.authorise channel.workspaceId actorUserId
        [inviteMembers, manageWorkspace, manageChannel] "Missing INVITE_USERS permission" with
    | .error error => (db, .error error)
    | .ok () =>
      if world.blocked then
        (db, .error (.forbidden (some "USER_BLOCKED") "This person cannot be added."))
      else
        match world.devices with
        | none => (db, .error .serviceUnavailable)
        | some 0 =>
          (db, .error (.badRequest (some "USER_HAS_NO_DEVICE")
            ("User " ++ targetUserId ++ " has not yet set up Canari on any device.")))
        | some (_ + 1) =>
          if (db.members.find (channel.workspaceId, targetUserId)).isSome then
            (db, .ok (.invited targetUserId true))
          else
            let name := mapRoleInputToWorkspaceRoleName text (roleName.getD "Membre")
            match db.addMember ⟨channel.workspaceId, targetUserId,
                roleIdsOf (db.roleNamed channel.workspaceId name)⟩ with
            | none => (db, .error .internal)
            | some after =>
              (after, if world.publishes then .ok (.invited targetUserId false)
                else .error .internal)

/-- A failed announcement does not undo the change, and is only logged. -/
def updateWorkspaceMemberRole (db : Db) (workspaceId : Nat)
    (targetUserId roleName actorUserId : String) : Outcome :=
  match db.authorise workspaceId actorUserId [manageWorkspace, manageRoles]
      "Missing MANAGE_ROLES permission" with
  | .error error => (db, .error error)
  | .ok () =>
    match db.members.find (workspaceId, targetUserId) with
    | none => (db, .error (.notFound none "Target member not found"))
    | some targetMember =>
      match db.roleNamed workspaceId (mapRoleInputToWorkspaceRoleName text roleName) with
      | none => (db, .error (.notFound none "Role not found"))
      | some role =>
        if !role.manages && db.listWorkspaceAdminIds workspaceId = [targetUserId] then
          (db, .error wouldHaveNoAdmin)
        else
          ({ db with members := db.members.write { targetMember with roleIds := [role.id] } },
            .ok .success)

def updateMemberRole (db : Db) (channelId : Nat)
    (targetUserId roleName actorUserId : String) : Outcome :=
  match db.channels.find channelId with
  | none => (db, .error (.notFound none "Channel not found"))
  | some channel =>
    updateWorkspaceMemberRole text db channel.workspaceId targetUserId roleName actorUserId

end

def assertCanManageRoles (role : ChannelRole) (actorUserId : String) : Except HttpError Unit :=
  db.authorise role.workspaceId actorUserId [manageWorkspace, manageRoles]
    "Missing MANAGE_ROLES permission"

def Db.saveRole (role : ChannelRole) : Outcome :=
  ({ db with roles := db.roles.write role },
    if world.publishes then .ok (.role role) else .error .internal)

def setRoleBasePermission (roleId : Nat) (actorUserId key : String) (granted : Bool) : Outcome :=
  match db.roles.find roleId with
  | none => (db, .error (.notFound none "Role not found"))
  | some role =>
    match assertCanManageRoles db role actorUserId with
    | .error error => (db, .error error)
    | .ok () =>
      match ofKey key with
      | none => (db, .error (.badRequest none ("Invalid permission: " ++ key)))
      | some permission =>
        db.saveRole world { role with
            permissions :=
              if granted then (role.permissions ++ [permission]).eraseDups
              else role.permissions.filter fun held => held ≠ permission }

def setRoleBasePermissions (roleId : Nat) (actorUserId : String)
    (permissions : List String) : Outcome :=
  match db.roles.find roleId with
  | none => (db, .error (.notFound none "Role not found"))
  | some role =>
    match assertCanManageRoles db role actorUserId with
    | .error error => (db, .error error)
    | .ok () =>
      let requested := permissions.filter fun key => key ∉ retiredPermissions
      let invalid := requested.filter fun key => (ofKey key).isNone
      if invalid = [] then
        db.saveRole world { role with permissions := requested.filterMap ofKey }
      else
        (db, .error (.badRequest none ("Invalid permissions: " ++ String.intercalate ", " invalid)))

end

/-! ## 6. Requests -/

inductive Call where
  | createWorkspace (name createdBy : String)
  | deleteWorkspace (workspaceId : Nat) (actorUserId confirmationName : String)
  | leaveWorkspace (workspaceId : Nat) (userId : String)
  | kickFromWorkspace (workspaceId : Nat) (targetUserId actorUserId : String)
  | createRole (workspaceId : Nat) (actorUserId name : String) (permissions : List String)
  | setRoleBasePermission (roleId : Nat) (actorUserId key : String) (granted : Bool)
  | setRoleBasePermissions (roleId : Nat) (actorUserId : String) (permissions : List String)
  | updateWorkspaceMemberRole (workspaceId : Nat) (targetUserId roleName actorUserId : String)
  | updateMemberRole (channelId : Nat) (targetUserId roleName actorUserId : String)
  | createChannel (workspaceId : Nat) (actorUserId name : String)
  | deleteChannel (channelId : Nat) (actorUserId : String)
  | createWorkspaceInvite (workspaceId : Nat) (actorUserId : String) (options : InviteOptions)
  | acceptWorkspaceInvite (token : Nat) (userId : String)
  | joinChannel (channelId : Nat) (userId : String)
  | inviteToChannel (channelId : Nat) (actorUserId targetUserId : String)
      (roleName : Option String)
  | wait (milliseconds : Nat)
deriving DecidableEq, Repr

/-- Who makes the call; the passing of time is nobody's. -/
def Call.actor : Call → Option String
  | .createWorkspace _ createdBy => some createdBy
  | .deleteWorkspace _ actorUserId _ => some actorUserId
  | .leaveWorkspace _ userId => some userId
  | .kickFromWorkspace _ _ actorUserId => some actorUserId
  | .createRole _ actorUserId _ _ => some actorUserId
  | .setRoleBasePermission _ actorUserId _ _ => some actorUserId
  | .setRoleBasePermissions _ actorUserId _ => some actorUserId
  | .updateWorkspaceMemberRole _ _ _ actorUserId => some actorUserId
  | .updateMemberRole _ _ _ actorUserId => some actorUserId
  | .createChannel _ actorUserId _ => some actorUserId
  | .deleteChannel _ actorUserId => some actorUserId
  | .createWorkspaceInvite _ actorUserId _ => some actorUserId
  | .acceptWorkspaceInvite _ userId => some userId
  | .joinChannel _ userId => some userId
  | .inviteToChannel _ actorUserId _ _ => some actorUserId
  | .wait _ => none

structure Request where
  call : Call
  world : World
deriving DecidableEq, Repr

section

variable (text : Text) (db : Db) (request : Request)

def serve : Outcome :=
  let world := request.world
  match request.call with
  | .createWorkspace name createdBy => createWorkspace db world name createdBy
  | .deleteWorkspace workspaceId actorUserId confirmationName =>
    deleteWorkspace text db world workspaceId actorUserId confirmationName
  | .leaveWorkspace workspaceId userId => leaveWorkspace db world workspaceId userId
  | .kickFromWorkspace workspaceId targetUserId actorUserId =>
    kickFromWorkspace db world workspaceId targetUserId actorUserId
  | .createRole workspaceId actorUserId name permissions =>
    createRole db world workspaceId actorUserId name permissions
  | .setRoleBasePermission roleId actorUserId key granted =>
    setRoleBasePermission db world roleId actorUserId key granted
  | .setRoleBasePermissions roleId actorUserId permissions =>
    setRoleBasePermissions db world roleId actorUserId permissions
  | .updateWorkspaceMemberRole workspaceId targetUserId roleName actorUserId =>
    updateWorkspaceMemberRole text db workspaceId targetUserId roleName actorUserId
  | .updateMemberRole channelId targetUserId roleName actorUserId =>
    updateMemberRole text db channelId targetUserId roleName actorUserId
  | .createChannel workspaceId actorUserId name =>
    createChannel text db world workspaceId actorUserId name
  | .deleteChannel channelId actorUserId => deleteChannel db world channelId actorUserId
  | .createWorkspaceInvite workspaceId actorUserId options =>
    createWorkspaceInvite db workspaceId actorUserId options
  | .acceptWorkspaceInvite token userId => acceptWorkspaceInvite db world token userId
  | .joinChannel channelId userId => joinChannel db world channelId userId
  | .inviteToChannel channelId actorUserId targetUserId roleName =>
    inviteToChannel text db world channelId actorUserId targetUserId roleName
  | .wait milliseconds => ({ db with now := db.now + milliseconds }, .ok .success)

def step : Option Db := some (serve text db request).1

end

end MinesApp.Community
