import MinesApp.CommunityChange

/-!
# Who governs a community

Administration is derived: a member administers a community through a role of it that grants
`workspace.manage`.  Leaving, being kicked and being given another role are refused when they
would leave members without an administrator, but editing what a role grants is not, so the
postcondition holds over the requests in which such an edit leaves another administrator.

The second part follows the users who hold `workspace.manage`.  No operation compares what it
hands out with what its caller holds, so the set of them is closed only under requests whose
callers may not manage roles, and while no newcomer is given a role that manages: a moderator
may invite a newcomer as an administrator.
-/

namespace MinesApp.Community

open TransitionSystem UniqueTable ChannelPermission List Prod Db ChannelRole
open Table (mem_def eq_of_key_eq mem_write not_mem_empty find_eq_some_iff)

/-! ## 1. Administrators -/

/-- The member administers the community, through a role of that community. -/
def Db.Administers (db : Db) (workspaceId : Nat) (member : ChannelMember) : Prop :=
  member ∈ db.members ∧ member.workspaceId = workspaceId ∧
    ∃ role ∈ db.roles, role.workspaceId = workspaceId ∧ role.id ∈ member.roleIds ∧
      role.manages = true

/-- At least one administrator, or no member. -/
def Db.Governed (db : Db) (workspaceId : Nat) : Prop :=
  (∀ member ∈ db.members, member.workspaceId ≠ workspaceId) ∨
    ∃ member, db.Administers workspaceId member

variable {db after next : Db} {workspaceId : Nat} {userId : String} {role : ChannelRole}
  {call : Call} {text : Text} {request : Request} {roleIds : List Nat}

theorem mem_listWorkspaceAdminIds :
    userId ∈ db.listWorkspaceAdminIds workspaceId ↔
      ∃ member, db.Administers workspaceId member ∧ member.userId = userId := by
  simp only [listWorkspaceAdminIds, mem_map, mem_filter, any_eq_true, decide_eq_true_eq]
  simp only [workspaceMembers, workspaceRoles, mem_filter, decide_eq_true_eq,
    Db.Administers, mem_def]
  constructor
  · rintro ⟨member, ⟨⟨hmember, hworkspace⟩, id, hid, role, ⟨⟨hrole, hof⟩, hmanages⟩, rfl⟩, rfl⟩
    exact ⟨member, ⟨hmember, hworkspace, role, hrole, hof, hid, hmanages⟩, rfl⟩
  · rintro ⟨member, ⟨hmember, hworkspace, role, hrole, hof, hid, hmanages⟩, rfl⟩
    exact ⟨member, ⟨⟨hmember, hworkspace⟩, role.id, hid, role, ⟨⟨hrole, hof⟩, hmanages⟩, rfl⟩, rfl⟩

theorem governed_iff :
    db.Governed workspaceId ↔
      db.getWorkspaceMemberIds workspaceId = [] ∨ db.listWorkspaceAdminIds workspaceId ≠ [] := by
  rw [Db.Governed, getWorkspaceMemberIds_eq_nil]
  refine or_congr_right ⟨?_, ?_⟩
  · rintro ⟨member, hadmin⟩
    exact ne_nil_of_mem (mem_listWorkspaceAdminIds.mpr ⟨member, hadmin, rfl⟩)
  · intro hlist
    obtain ⟨userId, hmem⟩ := exists_mem_of_ne_nil _ hlist
    obtain ⟨member, hadmin, _⟩ := mem_listWorkspaceAdminIds.mp hmem
    exact ⟨member, hadmin⟩

instance (db : Db) (workspaceId : Nat) : Decidable (db.Governed workspaceId) :=
  decidable_of_iff _ governed_iff.symm

/-- A user is listed once, because the index of the members is unique. -/
theorem nodup_listWorkspaceAdminIds (db : Db) (workspaceId : Nat) :
    (db.listWorkspaceAdminIds workspaceId).Nodup := by
  refine List.Nodup.map_on ?_ ((db.members.nodup.filter _).filter _)
  intro member hmember other hother hsame
  obtain ⟨hmember, hof⟩ := mem_filter.mp (mem_filter.mp hmember).1
  obtain ⟨hother, hof'⟩ := mem_filter.mp (mem_filter.mp hother).1
  rw [decide_eq_true_eq] at hof hof'
  exact eq_of_key_eq hmember hother (Prod.ext (hof.trans hof'.symm) hsame)

/-- Where there is an administrator and the list is not one given user, another user
    administers. -/
theorem exists_other_admin {member : ChannelMember} (hadmin : db.Administers workspaceId member)
    (hlist : db.listWorkspaceAdminIds workspaceId ≠ [userId]) :
    ∃ other, db.Administers workspaceId other ∧ other.userId ≠ userId := by
  by_contra hnone
  have hall : ∀ id ∈ db.listWorkspaceAdminIds workspaceId, id = userId := by
    intro id hid
    obtain ⟨other, hother, rfl⟩ := mem_listWorkspaceAdminIds.mp hid
    by_contra hne
    exact hnone ⟨other, hother, hne⟩
  have hmem : member.userId ∈ db.listWorkspaceAdminIds workspaceId :=
    mem_listWorkspaceAdminIds.mpr ⟨member, hadmin, rfl⟩
  have hnodup := nodup_listWorkspaceAdminIds db workspaceId
  revert hlist hall hmem hnodup
  cases db.listWorkspaceAdminIds workspaceId with
  | nil => exact fun _ _ hmem _ => nomatch hmem
  | cons first rest =>
    intro hlist hall _ hnodup
    have hfirst : first = userId := hall first mem_cons_self
    cases rest with
    | nil => exact hlist (by rw [hfirst])
    | cons second tail =>
      have hsecond : second = userId := hall second (by simp)
      exact (nodup_cons.mp hnodup).1 (by simp [hfirst, hsecond])

/-! ## 2. The postcondition -/

/-- Some member administers the role's community through another role. -/
def Db.ManagedWithout (db : Db) (role : ChannelRole) : Prop :=
  ∃ member ∈ db.members, member.workspaceId = role.workspaceId ∧
    ∃ other ∈ db.roles, other.workspaceId = role.workspaceId ∧ other.id ≠ role.id ∧
      other.id ∈ member.roleIds ∧ other.manages = true

instance (db : Db) (role : ChannelRole) : Decidable (db.ManagedWithout role) :=
  inferInstanceAs (Decidable (∃ member ∈ db.members.rows, member.workspaceId = role.workspaceId ∧
    ∃ other ∈ db.roles.rows, other.workspaceId = role.workspaceId ∧ other.id ≠ role.id ∧
      other.id ∈ member.roleIds ∧ other.manages = true))

/-- The role from which the call would take `workspace.manage`, and its caller.  A list with an
    unknown key takes nothing, since it is refused. -/
def Call.takesManage : Call → Option (Nat × String)
  | .setRoleBasePermission roleId actorUserId key granted =>
    if key = manageWorkspace.key ∧ granted = false then some (roleId, actorUserId) else none
  | .setRoleBasePermissions roleId actorUserId permissions =>
    if manageWorkspace.key ∈ permissions ∨
        ∃ key ∈ permissions, key ∉ retiredPermissions ∧ ofKey key = none then none
    else some (roleId, actorUserId)
  | _ => none

def Call.joinedChannel : Call → Option Nat
  | .joinChannel channelId _ => some channelId
  | _ => none

/-- An edit that its caller may make and that takes `workspace.manage` away from a role
    leaves an administrator; and nobody joins a channel of a community without members. -/
def LeavesAnAdmin (db : Db) (request : Request) : Prop :=
  (∀ edit ∈ request.call.takesManage, ∀ role ∈ db.roles.find edit.1,
    db.can role.workspaceId edit.2 [manageWorkspace, manageRoles] = true →
    role.manages = true → db.ManagedWithout role) ∧
  (∀ channelId ∈ request.call.joinedChannel, ∀ channel ∈ db.channels.find channelId,
    db.getWorkspaceMemberIds channel.workspaceId ≠ [])

instance (db : Db) (request : Request) : Decidable (LeavesAnAdmin db request) :=
  inferInstanceAs (Decidable (_ ∧ _))

/-- An edit that does not take `workspace.manage` away from a role that has it keeps it. -/
theorem Edit.manages {actorUserId : String} {permissions : List ChannelPermission}
    (h : Edit role actorUserId call permissions) (hmanages : role.manages = true)
    (hkeeps : call.takesManage ≠ some (role.id, actorUserId)) : manageWorkspace ∈ permissions := by
  have hheld : manageWorkspace ∈ role.permissions := by
    simpa [ChannelRole.manages] using hmanages
  cases h with
  | grant key permission hkey =>
    rw [mem_eraseDups]
    exact mem_append_left _ hheld
  | revoke key permission hkey =>
    refine mem_filter.mpr ⟨hheld, ?_⟩
    rw [decide_eq_true_eq]
    rintro rfl
    exact hkeeps (if_pos ⟨by simpa [eq_comm] using find?_some hkey, rfl⟩)
  | replace keys hkeys =>
    have hkey : manageWorkspace.key ∈ keys := by
      by_contra habsent
      refine hkeeps (if_neg ?_)
      rintro (hheld | ⟨key, hkey, hcurrent, hnone⟩)
      · exact habsent hheld
      · exact hkeys key hkey hcurrent hnone
    refine mem_filterMap.mpr ⟨manageWorkspace.key, ?_, by decide⟩
    exact mem_filter.mpr ⟨hkey, by decide⟩

theorem Db.Administers.of_rows {member : ChannelMember}
    (h : db.Administers workspaceId member) (hmember : member ∈ after.members)
    (hroles : ∀ role ∈ db.roles, role.workspaceId = workspaceId → role ∈ after.roles) :
    after.Administers workspaceId member := by
  obtain ⟨_, hof, role, hrole, hroleOf, hid, hmanages⟩ := h
  exact ⟨hmember, hof, role, hroles role hrole hroleOf, hroleOf, hid, hmanages⟩

theorem Db.Governed.of_rows (h : db.Governed workspaceId)
    (hfirst : (∃ member ∈ after.members, member.workspaceId = workspaceId) →
      ∃ member ∈ db.members, member.workspaceId = workspaceId)
    (hmembers : ∀ member ∈ db.members, member.workspaceId = workspaceId → member ∈ after.members)
    (hroles : ∀ role ∈ db.roles, role.workspaceId = workspaceId → role ∈ after.roles) :
    after.Governed workspaceId := by
  rcases h with hnobody | ⟨member, hadmin⟩
  · refine .inl fun member hmember hof => ?_
    obtain ⟨old, hold, hofOld⟩ := hfirst ⟨member, hmember, hof⟩
    exact hnobody old hold hofOld
  · exact .inr ⟨member, hadmin.of_rows (hmembers member hadmin.1 hadmin.2.1) hroles⟩

theorem exists_member_of_ne_nil (h : db.getWorkspaceMemberIds workspaceId ≠ []) :
    ∃ member ∈ db.members, member.workspaceId = workspaceId := by
  by_contra hnone
  refine h (getWorkspaceMemberIds_eq_nil.mpr fun member hmember hof => ?_)
  exact hnone ⟨member, hmember, hof⟩

theorem Admission.exists_member (h : Admission text db workspaceId userId request.call roleIds)
    (hok : LeavesAnAdmin db request) : ∃ member ∈ db.members, member.workspaceId = workspaceId := by
  obtain ⟨call, world⟩ := request
  cases h with
  | link token invite _ _ _ hmembers => exact exists_member_of_ne_nil hmembers
  | invitation channelId channel actorUserId roleName _ _ hactor =>
    obtain ⟨member, hfind, _⟩ := exists_member_of_can hactor
    obtain ⟨hmember, hkey⟩ := find_eq_some_iff.mp hfind
    exact ⟨member, hmember, congrArg fst hkey⟩
  | join channelId channel hfind hworkspace =>
    rw [← hworkspace]
    exact exists_member_of_ne_nil (hok.2 channelId rfl channel hfind)

theorem governed_of_departed {other : Nat}
    (h : db.Governed other) (hkeeps : db.removalKeepsAnAdmin workspaceId userId = true)
    (hmembers : ∀ member, member ∈ after.members ↔
      member ∈ db.members ∧ member.key ≠ (workspaceId, userId)) (hroles : after.roles = db.roles ∨
      ((∀ member ∈ after.members, member.workspaceId ≠ workspaceId) ∧
        after.roles = db.roles.filter fun role => role.workspaceId ≠ workspaceId)) :
    after.Governed other := by
  by_cases hsame : other = workspaceId
  · subst hsame
    rcases hroles with hroles | ⟨hnobody, _⟩
    · rcases h with hnobody | ⟨admin, hadmin⟩
      · exact .inl fun member hmember => hnobody member ((hmembers member).mp hmember).1
      · simp only [removalKeepsAnAdmin, Bool.or_eq_true, decide_eq_true_eq, all_eq_true] at hkeeps
        rcases hkeeps with hlist | hall
        · obtain ⟨left, hleft, hne⟩ := exists_other_admin hadmin hlist
          refine .inr ⟨left, hleft.of_rows ((hmembers left).mpr ⟨hleft.1, ?_⟩) ?_⟩
          · exact fun hkey => hne (congrArg snd hkey)
          · exact fun role hrole _ => hroles ▸ hrole
        · refine .inl fun member hmember hof => ?_
          obtain ⟨hold, hkey⟩ := (hmembers member).mp hmember
          have hlisted : member.userId ∈ db.getWorkspaceMemberIds other :=
            mem_map_of_mem (mem_filter.mpr ⟨hold, by simpa using hof⟩)
          exact hkey (Prod.ext hof (hall _ hlisted))
    · exact .inl hnobody
  · refine h.of_rows ?_ ?_ ?_
    · rintro ⟨member, hmember, hof⟩
      exact ⟨member, ((hmembers member).mp hmember).1, hof⟩
    · intro member hmember hof
      refine (hmembers member).mpr ⟨hmember, fun hkey => hsame ?_⟩
      rw [← hof]
      exact congrArg fst hkey
    · intro role hrole hof
      rcases hroles with hroles | ⟨_, hroles⟩
      · rw [hroles]
        exact hrole
      · rw [hroles, Table.mem_filter, decide_eq_true_eq]
        exact ⟨hrole, hof.symm ▸ hsame⟩

section

variable (h : db.Governed workspaceId)
include h

theorem governed_of_assigned {target : ChannelMember} (htarget : target ∈ db.members)
    (hrole : role ∈ db.roles) (hworkspace : role.workspaceId = target.workspaceId)
    (hkeeps : role.manages = true ∨ db.listWorkspaceAdminIds target.workspaceId ≠ [target.userId])
    (hmembers : after.members = db.members.write { target with roleIds := [role.id] })
    (hroles : after.roles = db.roles) : after.Governed workspaceId := by
  have hstays : ∀ member ∈ db.members, member.key ≠ target.key → member ∈ after.members := by
    intro member hmember hne
    rw [hmembers, mem_write]
    exact .inl ⟨hmember, hne⟩
  have hsameRoles : ∀ other ∈ db.roles, other.workspaceId = workspaceId → other ∈ after.roles :=
    fun other hother _ => hroles ▸ hother
  rcases h with hnobody | ⟨admin, hadmin⟩
  · refine .inl fun member hmember => ?_
    rw [hmembers, mem_write] at hmember
    rcases hmember with ⟨hold, _⟩ | ⟨rfl, _⟩
    · exact hnobody member hold
    · exact hnobody target htarget
  · by_cases hof : target.workspaceId = workspaceId
    · subst hof
      rcases hkeeps with hmanages | hlist
      · refine .inr ⟨{ target with roleIds := [role.id] }, ?_, rfl, role, hroles ▸ hrole,
          hworkspace, mem_singleton_self _, hmanages⟩
        rw [hmembers, mem_write]
        exact .inr ⟨rfl, target, htarget, rfl⟩
      · obtain ⟨left, hleft, hne⟩ := exists_other_admin hadmin hlist
        refine .inr ⟨left, hleft.of_rows (hstays left hleft.1 fun hkey => hne ?_) hsameRoles⟩
        exact congrArg snd hkey
    · refine .inr ⟨admin, hadmin.of_rows (hstays admin hadmin.1 fun hkey => hof ?_) hsameRoles⟩
      rw [← hadmin.2.1]
      exact (congrArg fst hkey).symm

theorem governed_of_roleEdited {permissions : List ChannelPermission} (hrole : role ∈ db.roles)
    (hkeeps : role.manages = true → manageWorkspace ∈ permissions ∨ db.ManagedWithout role)
    (hmembers : after.members = db.members)
    (hroles : after.roles = db.roles.write { role with permissions }) :
    after.Governed workspaceId := by
  have hother : ∀ other ∈ db.roles, other.id ≠ role.id → other ∈ after.roles := by
    intro other hother hne
    rw [hroles, mem_write]
    exact .inl ⟨hother, hne⟩
  rcases h with hnobody | ⟨admin, hmember, hof, through, hthrough, hthroughOf, hid, hmanages⟩
  · rw [Db.Governed, hmembers]
    exact .inl hnobody
  · by_cases hedited : through.id = role.id
    · cases eq_of_key_eq hthrough hrole hedited
      rcases hkeeps hmanages with hkept | ⟨left, hleft, hleftOf, other, hrow, hotherOf, hne, hheld,
        hotherManages⟩
      · refine .inr ⟨admin, hmembers ▸ hmember, hof, { role with permissions }, ?_, hthroughOf,
          hid, by simpa [manages] using hkept⟩
        rw [hroles, mem_write]
        exact .inr ⟨rfl, role, hrole, rfl⟩
      · exact .inr ⟨left, hmembers ▸ hleft, hleftOf.trans hthroughOf, other,
          hother other hrow hne, hotherOf.trans hthroughOf, hheld, hotherManages⟩
    · exact .inr ⟨admin, hmembers ▸ hmember, hof, through, hother through hthrough hedited,
        hthroughOf, hid, hmanages⟩

theorem Db.Governed.step (hok : LeavesAnAdmin db request)
    (hstep : step text db request = some next) : next.Governed workspaceId := by
  cases (step_makes hstep).1 with
  | kept hmembers hroles =>
    rw [Db.Governed, hmembers]
    refine h.imp_right ?_
    rintro ⟨member, hadmin⟩
    exact ⟨member, hadmin.of_rows (hmembers ▸ hadmin.1) fun role hrole _ => hroles ▸ hrole⟩
  | created name createdBy hcall hnext hfresh hworkspace hmembers hroles =>
    by_cases hnew : workspaceId = db.nextId
    · subst hnew
      exact .inr ⟨_, (hmembers _).mpr (.inr rfl), rfl, _, (hroles _).mpr
        (.inr (.inl rfl)), rfl, mem_singleton_self _, rfl⟩
    · refine h.of_rows ?_ (fun member hmember _ => (hmembers member).mpr (.inl hmember))
        fun role hrole _ => (hroles role).mpr (.inl hrole)
      rintro ⟨member, hmember, hof⟩
      rcases (hmembers member).mp hmember with hold | rfl
      · exact ⟨member, hold, hof⟩
      · exact absurd hof.symm hnew
  | departed other userId hkeeps hmembers hroles =>
    exact governed_of_departed h hkeeps hmembers hroles
  | deleted other hmembers hroles =>
    by_cases hsame : workspaceId = other
    · subst hsame
      refine .inl fun member hmember => ?_
      rw [hmembers, Table.mem_filter, decide_eq_true_eq] at hmember
      exact hmember.2
    · refine h.of_rows ?_ ?_ ?_
      · rintro ⟨member, hmember, hof⟩
        rw [hmembers, Table.mem_filter] at hmember
        exact ⟨member, hmember.1, hof⟩
      · intro member hmember hof
        rw [hmembers, Table.mem_filter, decide_eq_true_eq]
        exact ⟨hmember, hof.symm ▸ hsame⟩
      · intro role hrole hof
        rw [hroles, Table.mem_filter, decide_eq_true_eq]
        exact ⟨hrole, hof.symm ▸ hsame⟩
  | joined other userId roleIds hadmission hfree hmembers hroles =>
    refine h.of_rows ?_ (fun member hmember _ => (hmembers member).mpr (.inl hmember))
      fun role hrole _ => hroles ▸ hrole
    rintro ⟨member, hmember, rfl⟩
    rcases (hmembers member).mp hmember with hold | rfl
    · exact ⟨member, hold, rfl⟩
    · exact hadmission.exists_member hok
  | assigned actorUserId target role hactor hcan htarget hrole hworkspace hkeeps hmembers hroles =>
    exact governed_of_assigned h htarget hrole hworkspace hkeeps hmembers hroles
  | roleAdded actorUserId role hactor hcan hid hnext hmembers hroles =>
    refine h.of_rows ?_ (fun member hmember _ => hmembers ▸ hmember)
      fun other hother _ => (hroles other).mpr (.inl hother)
    rw [hmembers]
    exact fun hmember => hmember
  | roleEdited actorUserId role permissions hactor hedit hcan hrole hmembers hroles =>
    refine governed_of_roleEdited h hrole (fun hmanages => ?_) hmembers hroles
    by_cases htakes : request.call.takesManage = some (role.id, actorUserId)
    · exact .inr (hok.1 _ htakes role (find_eq_some_iff.mpr ⟨hrole, rfl⟩) hcan hmanages)
    · exact .inl (hedit.manages hmanages htakes)

end

/-- **The governance postcondition.**  In every state that requests can reach from an empty
    database, a community has an administrator or has no member, as long as every edit that
    takes `workspace.manage` away from a role leaves an administrator through another role
    (and nobody joins a channel of a community without members). -/
theorem community_governed {text : Text} {requests : List Request} {db : Db}
    (hok : EachStep (step text) LeavesAnAdmin .empty requests)
    (hrun : run (step text) .empty requests = some db) (workspaceId : Nat) :
    db.Governed workspaceId :=
  run_invariant (fun h hok => Db.Governed.step h hok)
    (.inl fun member hmember => absurd hmember (not_mem_empty member)) hok hrun

/-- The founder hands `workspace.manage` to the moderators, invites one, and takes it away
    from the administrators. -/
def handover : List Request :=
  [⟨.createWorkspace "club" "ada", .calm⟩,
    ⟨.setRoleBasePermission 2 "ada" "workspace.manage" true, .calm⟩,
    ⟨.inviteToChannel 4 "ada" "bob" (some "moderator"), .calm⟩,
    ⟨.setRoleBasePermission 1 "ada" "workspace.manage" false, .calm⟩]

theorem community_governed_handover :
    ∃ db, run (step .plain) .empty handover = some db ∧
      db.getWorkspaceMemberIds 0 = ["ada", "bob"] ∧ db.listWorkspaceAdminIds 0 = ["bob"] ∧
      db.Governed 0 := by
  have hrun : run (step .plain) .empty handover = some _ := rfl
  exact ⟨_, hrun, by decide, by decide, community_governed (by decide) hrun 0⟩

/-- The founder of a community takes `workspace.manage` away from the only role that has it. -/
theorem edited_community_ungoverned :
    ∃ db, run (step .plain) .empty [⟨.createWorkspace "club" "ada", .calm⟩,
          ⟨.setRoleBasePermission 1 "ada" "workspace.manage" false, .calm⟩] = some db ∧
      db.getWorkspaceMemberIds 0 = ["ada"] ∧ ¬ db.Governed 0 :=
  ⟨_, rfl, by decide, by decide⟩

/-! ## 3. Who holds `workspace.manage` -/

theorem can_iff {accepted : List ChannelPermission} :
    db.can workspaceId userId accepted = true ↔
      ∃ member ∈ db.members, member.key = (workspaceId, userId) ∧
        ∃ role ∈ db.roles, role.id ∈ member.roleIds ∧
          ∃ permission ∈ accepted, permission ∈ role.permissions := by
  have hgrants : ∀ member, db.grantsAny member accepted = true ↔
      ∃ role ∈ db.roles, role.id ∈ member.roleIds ∧
        ∃ permission ∈ accepted, permission ∈ role.permissions := by
    intro member
    simp only [grantsAny, rolesHeld, any_eq_true, mem_filter, decide_eq_true_eq, mem_def, and_assoc]
  constructor
  · intro hcan
    obtain ⟨member, hfind, hmember⟩ := exists_member_of_can hcan
    obtain ⟨hrow, hkey⟩ := find_eq_some_iff.mp hfind
    exact ⟨member, hrow, hkey, (hgrants member).mp hmember⟩
  · rintro ⟨member, hrow, hkey, hmember⟩
    rw [can, find_eq_some_iff.mpr ⟨hrow, hkey⟩]
    exact (hgrants member).mpr hmember

/-- The user holds `workspace.manage` in the community. -/
def Db.Manages (db : Db) (workspaceId : Nat) (userId : String) : Prop :=
  db.can workspaceId userId [manageWorkspace] = true

theorem manages_iff :
    db.Manages workspaceId userId ↔ ∃ member ∈ db.members, member.key = (workspaceId, userId) ∧
        ∃ role ∈ db.roles, role.id ∈ member.roleIds ∧ role.manages = true := by
  simp only [Db.Manages, can_iff, mem_singleton, exists_eq_left, manages, decide_eq_true_eq]

/-- What the ids in the tables owe each other: a member holds roles of its own community
    only, and no row holds an id that has not been given out. -/
structure Db.Consistent (db : Db) : Prop where
  own : ∀ member ∈ db.members, ∀ role ∈ db.roles, role.id ∈ member.roleIds →
    role.workspaceId = member.workspaceId
  held : ∀ member ∈ db.members, ∀ id ∈ member.roleIds, id < db.nextId
  issued : ∀ role ∈ db.roles, role.id < db.nextId

theorem consistent_empty : empty.Consistent where
  own member hmember := absurd hmember (not_mem_empty member)
  held member hmember := absurd hmember (not_mem_empty member)
  issued role hrole := absurd hrole (not_mem_empty role)

/-- A role that stood there before, or has a number issued since. -/
def Db.Numbers (db after : Db) (role : ChannelRole) : Prop :=
  (∃ old ∈ db.roles, old.id = role.id ∧ old.workspaceId = role.workspaceId) ∨
    db.nextId ≤ role.id ∧ role.id < after.nextId

/-- The number is issued, and no role of another community has it. -/
def Db.Assignable (db : Db) (workspaceId id : Nat) : Prop :=
  id < db.nextId ∧ ∀ role ∈ db.roles, role.id = id → role.workspaceId = workspaceId

/-- What has to be shown of a change: new roles have new numbers, and new members have roles of
    their own community. -/
theorem Db.Consistent.of_change (h : db.Consistent)
    (hnext : db.nextId ≤ after.nextId) (hroles : ∀ role ∈ after.roles, db.Numbers after role)
    (hmembers : ∀ member ∈ after.members, member ∈ db.members ∨
      ∀ id ∈ member.roleIds, after.Assignable member.workspaceId id) : after.Consistent := by
  refine ⟨?_, ?_, ?_⟩
  · intro member hmember role hrole hheld
    rcases hmembers member hmember with hold | hnew
    · rcases hroles role hrole with ⟨old, holdRole, hid, hof⟩ | ⟨hfresh, _⟩
      · rw [← hof]
        exact h.own member hold old holdRole (hid ▸ hheld)
      · exact absurd (h.held member hold role.id hheld) (Nat.not_lt_of_le hfresh)
    · exact (hnew role.id hheld).2 role hrole rfl
  · intro member hmember id hid
    rcases hmembers member hmember with hold | hnew
    · exact Nat.lt_of_lt_of_le (h.held member hold id hid) hnext
    · exact (hnew id hid).1
  · intro role hrole
    rcases hroles role hrole with ⟨old, hold, hid, _⟩ | ⟨_, hissued⟩
    · rw [← hid]
      exact Nat.lt_of_lt_of_le (h.issued old hold) hnext
    · exact hissued

theorem Db.Consistent.of_subset (h : db.Consistent)
    (hnext : db.nextId ≤ after.nextId) (hmembers : ∀ member ∈ after.members, member ∈ db.members)
    (hroles : ∀ role ∈ after.roles, role ∈ db.roles) : after.Consistent := by
  apply h.of_change hnext
  · intro role hrole
    exact .inl ⟨role, hroles role hrole, rfl, rfl⟩
  · intro member hmember
    exact .inl (hmembers member hmember)

theorem Db.Consistent.assignable (h : db.Consistent)
    (hnext : db.nextId ≤ after.nextId) (hroles : after.roles = db.roles) {given : ChannelRole}
    (hgiven : given ∈ db.roles) : after.Assignable given.workspaceId given.id := by
  refine ⟨Nat.lt_of_lt_of_le (h.issued given hgiven) hnext, ?_⟩
  intro role hrole hid
  rw [eq_of_key_eq (hroles ▸ hrole) hgiven hid]

theorem baseRole_eq_some (h : db.baseRole workspaceId = some role) :
    role ∈ db.roles ∧ role.workspaceId = workspaceId := by
  have hmem := (mergeSort_perm _ _).mem_iff.mp (mem_of_head? h)
  simpa [workspaceRoles, mem_def] using hmem

/-- The roles of a newcomer are roles of the community. -/
theorem Admission.role_of_mem (h : Admission text db workspaceId userId call roleIds)
    {id : Nat} (hid : id ∈ roleIds) :
    ∃ role ∈ db.roles, role.id = id ∧ role.workspaceId = workspaceId := by
  have hgiven : ∀ {given : Option ChannelRole},
      (∀ {role}, given = some role → role ∈ db.roles ∧ role.workspaceId = workspaceId) →
      id ∈ roleIdsOf given → ∃ role ∈ db.roles, role.id = id ∧ role.workspaceId = workspaceId := by
    intro given hof hid
    rw [roleIdsOf, Option.mem_toList, Option.map_eq_some_iff] at hid
    obtain ⟨role, hrole, hsame⟩ := hid
    exact ⟨role, (hof hrole).1, hsame, (hof hrole).2⟩
  cases h with
  | link => exact hgiven baseRole_eq_some hid
  | invitation | join => exact hgiven roleNamed_eq_some hid

theorem Db.Consistent.step (h : db.Consistent)
    (hstep : step text db request = some next) : next.Consistent := by
  obtain ⟨hchange, hle⟩ := step_makes hstep
  cases hchange with
  | kept hmembers hroles =>
    exact h.of_subset hle (fun _ hrow => hmembers ▸ hrow) fun _ hrow => hroles ▸ hrow
  | created name createdBy hcall hnext hfresh hworkspace hmembers hroles =>
    have hnew : ∀ role ∈ next.roles, role ∈ db.roles ∨
        db.nextId < role.id ∧ role.id < next.nextId ∧ role.workspaceId = db.nextId := by
      intro role hrole
      rcases (hroles role).mp hrole with hold | rfl | rfl | rfl
      · exact .inl hold
      all_goals refine .inr ⟨?_, ?_, rfl⟩ <;> dsimp only <;> omega
    apply h.of_change hle
    · intro role hrole
      rcases hnew role hrole with hold | ⟨hfresh, hissued, _⟩
      · exact .inl ⟨role, hold, rfl, rfl⟩
      · exact .inr ⟨Nat.le_of_lt hfresh, hissued⟩
    · intro member hmember
      rcases (hmembers member).mp hmember with hold | rfl
      · exact .inl hold
      · refine .inr fun id hid => ?_
        rw [mem_singleton.mp hid]
        refine ⟨by omega, fun role hrole hsame => ?_⟩
        rcases hnew role hrole with hold | ⟨_, _, hof⟩
        · have hissued := h.issued role hold
          omega
        · exact hof
  | departed workspaceId userId hkeeps hmembers hroles =>
    refine h.of_subset hle (fun member hrow => ((hmembers member).mp hrow).1) fun role hrow => ?_
    rcases hroles with hroles | ⟨_, hroles⟩
    · exact hroles ▸ hrow
    · exact (Table.mem_filter.mp (hroles ▸ hrow)).1
  | deleted workspaceId hmembers hroles =>
    exact h.of_subset hle (fun _ hrow => (Table.mem_filter.mp (hmembers ▸ hrow)).1)
      fun _ hrow => (Table.mem_filter.mp (hroles ▸ hrow)).1
  | joined workspaceId userId roleIds hadmission hfree hmembers hroles =>
    apply h.of_change hle
    · intro role hrole
      exact .inl ⟨role, hroles ▸ hrole, rfl, rfl⟩
    · intro member hmember
      rcases (hmembers member).mp hmember with hold | rfl
      · exact .inl hold
      · refine .inr fun id hid => ?_
        obtain ⟨given, hgiven, rfl, rfl⟩ := hadmission.role_of_mem hid
        exact h.assignable hle hroles hgiven
  | assigned actorUserId target role hactor hcan htarget hrole hworkspace hkeeps hmembers hroles =>
    apply h.of_change hle
    · intro other hother
      exact .inl ⟨other, hroles ▸ hother, rfl, rfl⟩
    · intro member hmember
      rw [hmembers, mem_write] at hmember
      rcases hmember with ⟨hold, _⟩ | ⟨rfl, _⟩
      · exact .inl hold
      · refine .inr fun id hid => ?_
        rw [mem_singleton.mp hid, ← hworkspace]
        exact h.assignable hle hroles hrole
  | roleAdded actorUserId role hactor hcan hid hnext hmembers hroles =>
    apply h.of_change hle
    · intro other hother
      rcases (hroles other).mp hother with hold | rfl
      · exact .inl ⟨other, hold, rfl, rfl⟩
      · exact .inr (by omega)
    · intro member hmember
      exact .inl (hmembers ▸ hmember)
  | roleEdited actorUserId role permissions hactor hedit hcan hrole hmembers hroles =>
    apply h.of_change hle
    · intro other hother
      rw [hroles, mem_write] at hother
      rcases hother with ⟨hold, _⟩ | ⟨rfl, _⟩
      · exact .inl ⟨other, hold, rfl, rfl⟩
      · exact .inl ⟨role, hrole, rfl, rfl⟩
    · intro member hmember
      exact .inl (hmembers ▸ hmember)

/-- The caller of the request holds neither `workspace.manage` nor `role.manage` in the
    community, and nobody whom the request makes a member of it gets a role with
    `workspace.manage`. -/
def Narrow (text : Text) (workspaceId : Nat) (db : Db) (request : Request) : Prop :=
  (∀ actorUserId ∈ request.call.actor,
    db.can workspaceId actorUserId [manageWorkspace, manageRoles] = false) ∧
  (∀ member ∈ (serve text db request).1.members.rows, member.workspaceId = workspaceId →
    db.members.find member.key = none →
    ∀ role ∈ db.roles.rows, role.id ∈ member.roleIds → role.manages = false)

instance (text : Text) (workspaceId : Nat) (db : Db) (request : Request) :
    Decidable (Narrow text workspaceId db request) := inferInstanceAs (Decidable (_ ∧ _))

/-- A narrow request makes nobody hold `workspace.manage`. -/
theorem Narrow.manages (hok : Narrow text workspaceId db request) (h : db.Consistent)
    (hissued : workspaceId < db.nextId) (hstep : step text db request = some next)
    (hmanages : next.Manages workspaceId userId) : db.Manages workspaceId userId := by
  obtain ⟨member, hmember, hkey, role, hrole, hheld, hgrants⟩ := manages_iff.mp hmanages
  have hof : member.workspaceId = workspaceId := congrArg fst hkey
  have hkept : member ∈ db.members → role ∈ db.roles → db.Manages workspaceId userId :=
    fun hmember hrole =>
      manages_iff.mpr ⟨member, hmember, hkey, role, hrole, hheld, hgrants⟩
  have hrefused : ∀ {other actorUserId}, request.call.actor = some actorUserId →
      db.can other actorUserId [manageWorkspace, manageRoles] = true → other ≠ workspaceId := by
    rintro other actorUserId hactor hcan rfl
    rw [hok.1 actorUserId hactor] at hcan
    cases hcan
  cases (step_makes hstep).1 with
  | kept hmembers hroles => exact hkept (hmembers ▸ hmember) (hroles ▸ hrole)
  | created name createdBy hcall hnext hfresh hworkspace hmembers hroles =>
    rcases (hmembers member).mp hmember with hold | rfl
    · have hlt := h.held member hold role.id hheld
      rcases (hroles role).mp hrole with holdRole | rfl | rfl | rfl
      · exact hkept hold holdRole
      all_goals exact absurd hlt (by dsimp only; omega)
    · exact absurd hissued (by rw [← hof]; exact Nat.lt_irrefl _)
  | departed other user hkeeps hmembers hroles =>
    refine hkept ((hmembers member).mp hmember).1 ?_
    rcases hroles with hroles | ⟨_, hroles⟩
    · exact hroles ▸ hrole
    · rw [hroles, Table.mem_filter] at hrole
      exact hrole.1
  | deleted other hmembers hroles =>
    rw [hmembers, Table.mem_filter] at hmember
    rw [hroles, Table.mem_filter] at hrole
    exact hkept hmember.1 hrole.1
  | joined other user roleIds hadmission hfree hmembers hroles =>
    rcases (hmembers member).mp hmember with hold | rfl
    · exact hkept hold (hroles ▸ hrole)
    · cases hstep
      rw [hok.2 _ hmember hof hfree role (hroles ▸ hrole) hheld] at hgrants
      cases hgrants
  | assigned actorUserId target given hactor hcan htarget hgiven hworkspace hkeeps hmembers
      hroles =>
      rw [hmembers, mem_write] at hmember
      rcases hmember with ⟨hold, _⟩ | ⟨rfl, _⟩
      · exact hkept hold (hroles ▸ hrole)
      · exact absurd hof (hrefused hactor hcan)
  | roleAdded actorUserId added hactor hcan hid hnext hmembers hroles =>
    rw [hmembers] at hmember
    rcases (hroles role).mp hrole with hold | rfl
    · exact hkept hmember hold
    · exact absurd (h.held member hmember role.id hheld) (by omega)
  | roleEdited actorUserId edited permissions hactor hedit hcan hedited hmembers hroles =>
    rw [hmembers] at hmember
    rw [hroles, mem_write] at hrole
    rcases hrole with ⟨hold, _⟩ | ⟨rfl, _⟩
    · exact hkept hmember hold
    · exact absurd ((h.own member hmember edited hedited hheld).trans hof) (hrefused hactor hcan)

/-- The founder of a community invites a moderator. -/
def founded : List Request :=
  [⟨.createWorkspace "club" "ada", .calm⟩,
    ⟨.inviteToChannel 4 "ada" "bob" (some "moderator"), .calm⟩]

/-- **No member has a role of another community**, whatever was requested. -/
theorem consistent_of_requests {requests : List Request}
    (hrun : run (step text) .empty requests = some db) : db.Consistent :=
  invariant_of_run Db.Consistent.step consistent_empty hrun

/-- A stranger joins a channel, founds a community of their own, and then tries to edit and
    to be given the administrators' role of the first one. -/
def newcomers : List Request :=
  [⟨.joinChannel 4 "eve", .calm⟩, ⟨.createWorkspace "other" "eve", .calm⟩,
    ⟨.setRoleBasePermission 1 "eve" "workspace.manage" true, .calm⟩,
    ⟨.updateWorkspaceMemberRole 0 "eve" "admin" "eve", .calm⟩]

theorem consistent_of_requests_newcomers :
    ∃ db, run (step .plain) .empty (founded ++ newcomers) = some db ∧ db.Consistent := by
  have hrun : run (step .plain) .empty (founded ++ newcomers) = some _ := rfl
  exact ⟨_, hrun, consistent_of_requests hrun⟩

end MinesApp.Community
