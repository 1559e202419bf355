import MinesApp.Community

/-!
# What one request does to a community

The members and the roles of the communities change in eight ways only.  Each operation is
read once, here, and shown to make one of them; what holds over sequences of requests is
derived from the changes, and not from the operations.
-/

namespace MinesApp.Community

open TransitionSystem UniqueTable ChannelPermission Table Db

/-! ## 1. The changes -/

/-- How a user who was no member becomes one of a community that exists, and with which
    roles. -/
inductive Admission (text : Text) (db : Db) (workspaceId : Nat) (userId : String) :
    Call → List Nat → Prop where
  | link (token : Nat) (invite : WorkspaceInvite) (hfind : db.invites.find token = some invite)
      (hvalid : invite.isValid db.now = true) (hworkspace : invite.workspaceId = workspaceId)
      (hmembers : db.getWorkspaceMemberIds workspaceId ≠ []) :
      Admission text db workspaceId userId (.acceptWorkspaceInvite token userId)
        (roleIdsOf (db.baseRole workspaceId))
  | invitation (channelId : Nat) (channel : Channel) (actorUserId : String)
      (roleName : Option String) (hfind : db.channels.find channelId = some channel)
      (hworkspace : channel.workspaceId = workspaceId)
      (hactor : db.can workspaceId actorUserId
        [inviteMembers, manageWorkspace, manageChannel] = true) :
      Admission text db workspaceId userId (.inviteToChannel channelId actorUserId userId roleName)
        (roleIdsOf (db.roleNamed workspaceId
          (mapRoleInputToWorkspaceRoleName text (roleName.getD "Membre"))))
  | join (channelId : Nat) (channel : Channel) (hfind : db.channels.find channelId = some channel)
      (hworkspace : channel.workspaceId = workspaceId) :
      Admission text db workspaceId userId (.joinChannel channelId userId)
        (roleIdsOf (db.roleNamed workspaceId "Member"))

/-- The permissions that an edit of a role leaves. -/
inductive Edit (role : ChannelRole) (actorUserId : String) :
    Call → List ChannelPermission → Prop where
  | grant (key : String) (permission : ChannelPermission) (hkey : ofKey key = some permission) :
      Edit role actorUserId (.setRoleBasePermission role.id actorUserId key true)
        (role.permissions ++ [permission]).eraseDups
  | revoke (key : String) (permission : ChannelPermission) (hkey : ofKey key = some permission) :
      Edit role actorUserId (.setRoleBasePermission role.id actorUserId key false)
        (role.permissions.filter fun held => held ≠ permission)
  | replace (permissions : List String)
      (hkeys : ∀ key ∈ permissions, key ∉ retiredPermissions → ofKey key ≠ none) :
      Edit role actorUserId (.setRoleBasePermissions role.id actorUserId permissions)
        ((permissions.filter fun key => key ∉ retiredPermissions).filterMap ofKey)

/-- What a request does to the members and the roles. -/
inductive Change (text : Text) (db : Db) (call : Call) (after : Db) : Prop where
  | kept (hmembers : after.members = db.members) (hroles : after.roles = db.roles)
  | created (name createdBy : String) (hcall : call = .createWorkspace name createdBy)
      (hnext : after.nextId = db.nextId + 5) (hfresh : db.workspaces.find db.nextId = none)
      (hworkspace : ∃ workspace ∈ after.workspaces, workspace.id = db.nextId)
      (hmembers : ∀ member, member ∈ after.members ↔
        member ∈ db.members ∨ member = ⟨db.nextId, createdBy, [db.nextId + 1]⟩)
      (hroles : ∀ role, role ∈ after.roles ↔ role ∈ db.roles ∨
        role = ⟨db.nextId + 1, db.nextId, "Administrateur", 100, defaultAdminPermissions⟩ ∨
        role = ⟨db.nextId + 2, db.nextId, "Modérateur", 50, defaultModeratorPermissions⟩ ∨
        role = ⟨db.nextId + 3, db.nextId, "Membre", 10, defaultMemberPermissions⟩)
  | departed (workspaceId : Nat) (userId : String)
      (hkeeps : db.removalKeepsAnAdmin workspaceId userId = true)
      (hmembers : ∀ member, member ∈ after.members ↔
        member ∈ db.members ∧ member.key ≠ (workspaceId, userId))
      (hroles : after.roles = db.roles ∨
        ((∀ member ∈ after.members, member.workspaceId ≠ workspaceId) ∧
          after.roles = db.roles.filter fun role => role.workspaceId ≠ workspaceId))
  | deleted (workspaceId : Nat)
      (hmembers : after.members = db.members.filter fun member =>
        member.workspaceId ≠ workspaceId)
      (hroles : after.roles = db.roles.filter fun role => role.workspaceId ≠ workspaceId)
  | joined (workspaceId : Nat) (userId : String) (roleIds : List Nat)
      (hadmission : Admission text db workspaceId userId call roleIds)
      (hfree : db.members.find (workspaceId, userId) = none)
      (hmembers : ∀ member, member ∈ after.members ↔
        member ∈ db.members ∨ member = ⟨workspaceId, userId, roleIds⟩)
      (hroles : after.roles = db.roles)
  | assigned (actorUserId : String) (target : ChannelMember) (role : ChannelRole)
      (hactor : call.actor = some actorUserId)
      (hcan : db.can target.workspaceId actorUserId [manageWorkspace, manageRoles] = true)
      (htarget : target ∈ db.members) (hrole : role ∈ db.roles)
      (hworkspace : role.workspaceId = target.workspaceId)
      (hkeeps : role.manages = true ∨ db.listWorkspaceAdminIds target.workspaceId ≠ [target.userId])
      (hmembers : after.members = db.members.write { target with roleIds := [role.id] })
      (hroles : after.roles = db.roles)
  | roleAdded (actorUserId : String) (role : ChannelRole) (hactor : call.actor = some actorUserId)
      (hcan : db.can role.workspaceId actorUserId [manageWorkspace, manageRoles] = true)
      (hid : role.id = db.nextId) (hnext : after.nextId = db.nextId + 1)
      (hmembers : after.members = db.members)
      (hroles : ∀ other, other ∈ after.roles ↔ other ∈ db.roles ∨ other = role)
  | roleEdited (actorUserId : String) (role : ChannelRole) (permissions : List ChannelPermission)
      (hactor : call.actor = some actorUserId) (hedit : Edit role actorUserId call permissions)
      (hcan : db.can role.workspaceId actorUserId [manageWorkspace, manageRoles] = true)
      (hrole : role ∈ db.roles) (hmembers : after.members = db.members)
      (hroles : after.roles = db.roles.write { role with permissions })

variable {db after : Db} {workspaceId : Nat} {text : Text} {call : Call} {role : ChannelRole}
  {accepted : List ChannelPermission}

theorem authorise_eq_ok {actorUserId : String}
    {missing : String} (h : db.authorise workspaceId actorUserId accepted missing = .ok ()) :
    db.can workspaceId actorUserId accepted = true := by
  unfold authorise at h
  unfold can
  split at h
  · cases h
  split at h
  · assumption
  · cases h

theorem exists_member_of_can {userId : String} (h : db.can workspaceId userId accepted = true) :
    ∃ member, db.members.find (workspaceId, userId) = some member ∧
      db.grantsAny member accepted = true := by
  unfold can at h
  split at h
  · cases h
  · exact ⟨_, ‹_›, h⟩

/-! ## 2. Operation by operation -/

/-- What is said of one operation: the change it makes, and that no id is given out twice. -/
def Makes (text : Text) (db : Db) (call : Call) (outcome : Outcome) : Prop :=
  Change text db call outcome.1 ∧ db.nextId ≤ outcome.1.nextId

theorem Makes.none (answer : Except HttpError Reply) :
    Makes text db call (db, answer) := ⟨.kept rfl rfl, Nat.le_refl _⟩

theorem addMember_eq_some {member : ChannelMember} (h : db.addMember member = some after) :
    db.members.find member.key = none ∧ after = { db with members := after.members } ∧
      ∀ other, other ∈ after.members ↔ other ∈ db.members ∨ other = member := by
  obtain ⟨members, hinsert, rfl⟩ := Option.map_eq_some_iff.mp h
  obtain ⟨hfree, hmem⟩ := insert_eq_some hinsert
  exact ⟨hfree, rfl, hmem⟩

theorem addRole_eq_some (h : db.addRole role = some after) :
    after = { db with roles := after.roles } ∧
      ∀ other, other ∈ after.roles ↔ other ∈ db.roles ∨ other = role := by
  unfold addRole at h
  split at h
  · cases h
  obtain ⟨roles, hinsert, rfl⟩ := Option.map_eq_some_iff.mp h
  exact ⟨rfl, (insert_eq_some hinsert).2⟩

/-- The rows that a seeded community adds. -/
theorem seedWorkspace_eq_some {workspace : Workspace}
    (hid : workspace.id = db.nextId) (h : db.seedWorkspace workspace = some after) :
    db.workspaces.find workspace.id = none ∧ after.nextId = db.nextId + 5 ∧
    (∀ other, other ∈ after.workspaces ↔ other ∈ db.workspaces ∨ other = workspace) ∧
    (∀ other, other ∈ after.members ↔ other ∈ db.members ∨
      other = ⟨db.nextId, workspace.createdBy, [db.nextId + 1]⟩) ∧
    (∀ other, other ∈ after.roles ↔ other ∈ db.roles ∨
      other = ⟨db.nextId + 1, db.nextId, "Administrateur", 100, defaultAdminPermissions⟩ ∨
      other = ⟨db.nextId + 2, db.nextId, "Modérateur", 50, defaultModeratorPermissions⟩ ∨
      other = ⟨db.nextId + 3, db.nextId, "Membre", 10, defaultMemberPermissions⟩) := by
  simp only [seedWorkspace, Option.pure_def, Option.bind_eq_bind, Option.bind_eq_some_iff, hid] at h
  obtain ⟨workspaces, hworkspaces, withAdmin, hadmin, withModerator, hmoderator, withMember,
    hmember, withCreator, hcreator, channels, _, hafter⟩ := h
  obtain ⟨hfresh, hworkspace⟩ := insert_eq_some hworkspaces
  obtain ⟨hadmin, hadminRoles⟩ := addRole_eq_some hadmin
  obtain ⟨hmoderator, hmoderatorRoles⟩ := addRole_eq_some hmoderator
  obtain ⟨hmember, hmemberRoles⟩ := addRole_eq_some hmember
  obtain ⟨_, hcreator, hmembers⟩ := addMember_eq_some hcreator
  cases hafter
  rw [hcreator] at hmembers ⊢
  rw [hmember] at hmembers hmemberRoles ⊢
  rw [hmoderator] at hmembers hmemberRoles hmoderatorRoles ⊢
  rw [hadmin] at hmembers hmemberRoles hmoderatorRoles hadminRoles ⊢
  refine ⟨hid ▸ hfresh, rfl, hworkspace, hmembers, fun other => ?_⟩
  rw [hmemberRoles, hmoderatorRoles, hadminRoles, or_assoc, or_assoc]

variable {world : World} {channelId roleId token : Nat} {permissions : List String}
  {name createdBy confirmationName key actorUserId targetUserId userId roleName : String}

theorem createWorkspace_makes :
    Makes text db (.createWorkspace name createdBy) (createWorkspace db world name createdBy) := by
  unfold createWorkspace
  dsimp only
  split
  · split
    next after hseed =>
      obtain ⟨hfresh, hnext, hworkspaces, hmembers, hroles⟩ := seedWorkspace_eq_some rfl hseed
      refine ⟨.created name createdBy rfl hnext hfresh
        ⟨_, (hworkspaces _).mpr (.inr rfl), rfl⟩ hmembers hroles, ?_⟩
      exact Nat.le_trans (Nat.le_add_right ..) (Nat.le_of_eq hnext.symm)
    · exact .none _
  · exact ⟨.kept rfl rfl, Nat.le_succ _⟩

theorem hardDeleteWorkspace_makes :
    Makes text db call (hardDeleteWorkspace db world workspaceId) := by
  unfold hardDeleteWorkspace
  split
  · exact ⟨.deleted workspaceId rfl rfl, Nat.le_refl _⟩
  · exact .none _

theorem getWorkspaceMemberIds_eq_nil :
    db.getWorkspaceMemberIds workspaceId = [] ↔
      ∀ member ∈ db.members, member.workspaceId ≠ workspaceId := by
  simp only [getWorkspaceMemberIds, workspaceMembers, List.map_eq_nil_iff,
    List.filter_eq_nil_iff, decide_eq_true_eq]
  exact Iff.rfl

theorem removeMember_makes :
    Makes text db call (removeMember db world workspaceId targetUserId) := by
  have hmem : ∀ member, (member ∈ db.members.filter fun member =>
      member.key ≠ (workspaceId, targetUserId)) ↔
      member ∈ db.members ∧ member.key ≠ (workspaceId, targetUserId) := by
    intro member
    rw [mem_filter, decide_eq_true_eq]
  unfold removeMember
  dsimp only
  split
  next hkeeps =>
    have hleft : Change text db call { db with
        members := db.members.filter fun member => member.key ≠ (workspaceId, targetUserId) } :=
      .departed workspaceId targetUserId hkeeps hmem (.inl rfl)
    split
    · split
      · split
        next hlast =>
          have hnobody := getWorkspaceMemberIds_eq_nil.mp hlast
          unfold hardDeleteWorkspace
          split
          · have hsame : ∀ member, (member ∈ (db.members.filter fun member =>
                member.key ≠ (workspaceId, targetUserId)).filter fun member =>
                member.workspaceId ≠ workspaceId) ↔
                member ∈ db.members ∧ member.key ≠ (workspaceId, targetUserId) := by
              intro member
              rw [mem_filter, decide_eq_true_eq, hmem]
              exact ⟨And.left, fun hrow => ⟨hrow, hnobody member ((hmem member).mpr hrow)⟩⟩
            refine ⟨.departed workspaceId targetUserId hkeeps hsame (.inr ⟨?_, rfl⟩), Nat.le_refl _⟩
            exact fun member hrow => by simpa using (mem_filter.mp hrow).2
          · exact ⟨hleft, Nat.le_refl _⟩
        · exact ⟨hleft, Nat.le_refl _⟩
      · exact ⟨hleft, Nat.le_refl _⟩
    · exact .none _
  · exact .none _

theorem leaveWorkspace_makes : Makes text db call (leaveWorkspace db world workspaceId userId) := by
  unfold leaveWorkspace
  split
  · exact .none _
  split
  · exact .none _
  · exact removeMember_makes

theorem kickFromWorkspace_makes :
    Makes text db call (kickFromWorkspace db world workspaceId targetUserId actorUserId) := by
  unfold kickFromWorkspace
  split
  · exact .none _
  split
  · exact .none _
  split
  · exact .none _
  · exact removeMember_makes

theorem deleteWorkspace_makes :
    Makes text db call
      (deleteWorkspace text db world workspaceId actorUserId confirmationName) := by
  have hdelete := @hardDeleteWorkspace_makes db workspaceId text call world
  unfold deleteWorkspace
  split
  · exact .none _
  split
  · exact .none _
  split
  · exact .none _
  split
  all_goals
    rename_i hcut
    rw [hcut] at hdelete
    exact hdelete

theorem createRole_makes :
    Makes text db (.createRole workspaceId actorUserId name permissions)
      (createRole db world workspaceId actorUserId name permissions) := by
  unfold createRole
  split
  · exact .none _
  next hallowed =>
    split
    · exact .none _
    dsimp only
    split
    · exact .none _
    next after hadd =>
      obtain ⟨hafter, hroles⟩ := addRole_eq_some hadd
      have hnext : after.nextId = db.nextId + 1 := congrArg nextId hafter
      have hmembers : after.members = db.members := by rw [hafter]
      refine ⟨.roleAdded actorUserId _ rfl (authorise_eq_ok hallowed) rfl hnext hmembers hroles, ?_⟩
      exact Nat.le_trans (Nat.le_succ _) (Nat.le_of_eq hnext.symm)

theorem createChannel_makes :
    Makes text db call (createChannel text db world workspaceId actorUserId name) := by
  unfold createChannel
  split
  · exact .none _
  dsimp only
  split
  · exact .none _
  split
  · exact .none _
  split
  · exact .none _
  split
  · exact .none _
  · exact ⟨.kept rfl rfl, Nat.le_succ _⟩

theorem deleteChannel_makes :
    Makes text db call (deleteChannel db world channelId actorUserId) := by
  unfold deleteChannel
  split
  · exact .none _
  split
  · exact .none _
  split
  · exact ⟨.kept rfl rfl, Nat.le_refl _⟩
  · exact .none _

theorem mintInvite_kept (db : Db) (workspaceId : Nat) (actorUserId : String)
    (options : InviteOptions) :
    (mintInvite db workspaceId actorUserId options).1.members = db.members ∧
      (mintInvite db workspaceId actorUserId options).1.roles = db.roles ∧
      db.nextId ≤ (mintInvite db workspaceId actorUserId options).1.nextId := by
  unfold mintInvite
  split
  · exact ⟨rfl, rfl, Nat.le_refl _⟩
  · exact ⟨rfl, rfl, Nat.le_refl _⟩
  · dsimp only
    split
    · exact ⟨rfl, rfl, Nat.le_refl _⟩
    · exact ⟨rfl, rfl, Nat.le_succ _⟩

theorem createWorkspaceInvite_makes {options : InviteOptions} :
    Makes text db call (createWorkspaceInvite db workspaceId actorUserId options) := by
  unfold createWorkspaceInvite
  split
  · exact .none _
  split
  · split
    · exact ⟨.kept rfl rfl, Nat.le_refl _⟩
    · obtain ⟨hmembers, hroles, hnext⟩ := mintInvite_kept
        (db.revokeInvites (db.liveInvites workspaceId)) workspaceId actorUserId options
      exact ⟨.kept hmembers hroles, hnext⟩
  · exact .none _

/-- What accepting a link, joining and being invited share. -/
theorem joined_makes {joined : Db} {member : ChannelMember}
    {answer : Except HttpError Reply} (hadd : db.addMember member = some joined)
    (hadmission : Admission text db member.workspaceId member.userId call member.roleIds)
    (hmembers : after.members = joined.members) (hroles : after.roles = joined.roles)
    (hnext : after.nextId = joined.nextId) : Makes text db call (after, answer) := by
  obtain ⟨hfree, hjoined, hmem⟩ := addMember_eq_some hadd
  refine ⟨.joined member.workspaceId member.userId member.roleIds hadmission hfree ?_ ?_, ?_⟩
  · rw [hmembers]
    exact hmem
  · rw [hroles, hjoined]
  · exact Nat.le_of_eq (hnext.trans (congrArg nextId hjoined)).symm

theorem acceptWorkspaceInvite_makes :
    Makes text db (.acceptWorkspaceInvite token userId)
      (acceptWorkspaceInvite db world token userId) := by
  unfold acceptWorkspaceInvite
  split
  · exact .none _
  next invite hfind =>
    split
    next hvalid =>
      split
      · exact .none _
      split
      · exact .none _
      next hmembers =>
        split
        · exact .none _
        split
        · exact .none _
        next joined hadd =>
          exact joined_makes hadd (.link token invite hfind hvalid rfl hmembers) rfl rfl rfl
    · exact .none _

theorem joinChannel_makes :
    Makes text db (.joinChannel channelId userId) (joinChannel db world channelId userId) := by
  unfold joinChannel
  split
  · exact .none _
  next channel hfind =>
    split
    · exact .none _
    split
    · exact .none _
    next after hadd => exact joined_makes hadd (.join channelId channel hfind rfl) rfl rfl rfl

theorem inviteToChannel_makes {roleName : Option String} :
    Makes text db (.inviteToChannel channelId actorUserId targetUserId roleName)
      (inviteToChannel text db world channelId actorUserId targetUserId roleName) := by
  unfold inviteToChannel
  split
  · exact .none _
  next channel hfind =>
    split
    · exact .none _
    next hallowed =>
      split
      · exact .none _
      split
      · exact .none _
      · exact .none _
      · split
        · exact .none _
        dsimp only
        split
        · exact .none _
        next after hadd =>
          exact joined_makes hadd (.invitation channelId channel actorUserId roleName hfind rfl
              (authorise_eq_ok hallowed)) rfl rfl rfl

theorem roleNamed_eq_some (h : db.roleNamed workspaceId name = some role) :
    role ∈ db.roles ∧ role.workspaceId = workspaceId := by
  refine ⟨List.mem_of_find?_eq_some h, ?_⟩
  have hfound := List.find?_some h
  rw [decide_eq_true_eq] at hfound
  exact hfound.1

section

variable (hactor : call.actor = some actorUserId)
include hactor

theorem updateWorkspaceMemberRole_makes :
    Makes text db call
      (updateWorkspaceMemberRole text db workspaceId targetUserId roleName actorUserId) := by
  unfold updateWorkspaceMemberRole
  split
  · exact .none _
  next hallowed =>
    split
    · exact .none _
    next target hfind =>
      obtain ⟨htarget, hkey⟩ := find_eq_some_iff.mp hfind
      obtain ⟨rfl, rfl⟩ := Prod.mk.inj hkey
      split
      · exact .none _
      next role hnamed =>
        obtain ⟨hrole, hworkspace⟩ := roleNamed_eq_some hnamed
        split
        · exact .none _
        next hkeeps =>
          refine ⟨.assigned actorUserId target role hactor (authorise_eq_ok hallowed) htarget hrole
            hworkspace ?_ rfl rfl, Nat.le_refl _⟩
          simpa [Classical.or_iff_not_imp_left] using hkeeps

theorem updateMemberRole_makes :
    Makes text db call (updateMemberRole text db channelId targetUserId roleName actorUserId) := by
  unfold updateMemberRole
  split
  · exact .none _
  · exact updateWorkspaceMemberRole_makes hactor

theorem saveRole_makes {permissions : List ChannelPermission}
    (hedit : Edit role actorUserId call permissions)
    (hallowed : assertCanManageRoles db role actorUserId = .ok ()) (hrole : role ∈ db.roles) :
    Makes text db call (db.saveRole world { role with permissions }) := by
  exact ⟨.roleEdited actorUserId role permissions hactor hedit (authorise_eq_ok hallowed) hrole
    rfl rfl, Nat.le_refl _⟩

end

theorem setRoleBasePermission_makes {granted : Bool} :
    Makes text db (.setRoleBasePermission roleId actorUserId key granted)
      (setRoleBasePermission db world roleId actorUserId key granted) := by
  unfold setRoleBasePermission
  split
  · exact .none _
  next role hfind =>
    obtain ⟨hrole, rfl⟩ := find_eq_some_iff.mp hfind
    split
    · exact .none _
    next hallowed =>
      split
      · exact .none _
      next permission hkey =>
        cases granted with
        | true => exact saveRole_makes rfl (.grant key permission hkey) hallowed hrole
        | false => exact saveRole_makes rfl (.revoke key permission hkey) hallowed hrole

theorem setRoleBasePermissions_makes :
    Makes text db (.setRoleBasePermissions roleId actorUserId permissions)
      (setRoleBasePermissions db world roleId actorUserId permissions) := by
  unfold setRoleBasePermissions
  split
  · exact .none _
  next role hfind =>
    obtain ⟨hrole, rfl⟩ := find_eq_some_iff.mp hfind
    split
    · exact .none _
    next hallowed =>
      dsimp only
      split
      next hvalid =>
        refine saveRole_makes rfl (.replace permissions fun key hkey hcurrent hnone => ?_) hallowed
          hrole
        simp only [List.filter_eq_nil_iff, List.mem_filter, decide_eq_true_eq,
          Option.isNone_iff_eq_none] at hvalid
        exact hvalid key ⟨hkey, hcurrent⟩ hnone
      · exact .none _

/-- **One request.**  Every request makes one of the changes. -/
theorem serve_makes (text : Text) (db : Db) (request : Request) :
    Makes text db request.call (serve text db request) := by
  obtain ⟨call, world⟩ := request
  cases call with
  | createWorkspace name createdBy => exact createWorkspace_makes
  | deleteWorkspace workspaceId actorUserId confirmationName => exact deleteWorkspace_makes
  | leaveWorkspace workspaceId userId => exact leaveWorkspace_makes
  | kickFromWorkspace workspaceId targetUserId actorUserId => exact kickFromWorkspace_makes
  | createRole workspaceId actorUserId name permissions => exact createRole_makes
  | setRoleBasePermission roleId actorUserId key granted => exact setRoleBasePermission_makes
  | setRoleBasePermissions roleId actorUserId permissions => exact setRoleBasePermissions_makes
  | updateWorkspaceMemberRole workspaceId targetUserId roleName actorUserId =>
    exact updateWorkspaceMemberRole_makes rfl
  | updateMemberRole channelId targetUserId roleName actorUserId =>
    exact updateMemberRole_makes rfl
  | createChannel workspaceId actorUserId name => exact createChannel_makes
  | deleteChannel channelId actorUserId => exact deleteChannel_makes
  | createWorkspaceInvite workspaceId actorUserId options => exact createWorkspaceInvite_makes
  | acceptWorkspaceInvite token userId => exact acceptWorkspaceInvite_makes
  | joinChannel channelId userId => exact joinChannel_makes
  | inviteToChannel channelId actorUserId targetUserId roleName => exact inviteToChannel_makes
  | wait milliseconds => exact ⟨.kept rfl rfl, Nat.le_refl _⟩

theorem step_makes {next : Db} {request : Request} (h : step text db request = some next) :
    Change text db request.call next ∧ db.nextId ≤ next.nextId := by
  cases h
  exact serve_makes text db request

end MinesApp.Community
