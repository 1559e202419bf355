import MinesApp.CommunityChange

/-!
# Who is admitted to a community

A user becomes a member by founding the community, through a live link, by invitation, or by
joining one of its channels.  The first three ask for something that the founder, a link or a
member with the right to invite has given; the last asks for a channel id.
-/

namespace MinesApp.Community

open TransitionSystem UniqueTable ChannelPermission Table Option

/-- Not revoked, not expired, and used fewer times than its maximum. -/
def WorkspaceInvite.Live (invite : WorkspaceInvite) (now : Nat) : Prop :=
  invite.revoked = false ∧ (∀ expiresAt ∈ invite.expiresAt, now ≤ expiresAt) ∧
    ∀ maxUses ∈ invite.maxUses, invite.uses < maxUses

theorem isValid_iff_live {invite : WorkspaceInvite} {now : Nat} :
    invite.isValid now = true ↔ invite.Live now := by
  simp only [WorkspaceInvite.isValid, WorkspaceInvite.Live, Bool.and_eq_true,
    Bool.not_eq_true', Option.all_eq_true, decide_eq_true_eq, and_assoc, Option.mem_def]

/-- What entitles a user to become a member by a request. -/
inductive Entitled (text : Text) (db : Db) (request : Request) (workspaceId : Nat)
    (userId : String) : Prop where
  | founder (name : String) (hcall : request.call = .createWorkspace name userId)
      (hbefore : db.workspaces.find workspaceId = none)
      (hafter : ∃ workspace, (serve text db request).1.workspaces.find workspaceId = some workspace)
  | link (token : Nat) (invite : WorkspaceInvite)
      (hcall : request.call = .acceptWorkspaceInvite token userId)
      (hfind : db.invites.find token = some invite) (hworkspace : invite.workspaceId = workspaceId)
      (hlive : invite.Live db.now)
  | invited (channelId : Nat) (channel : Channel) (actorUserId : String)
      (roleName : Option String)
      (hcall : request.call = .inviteToChannel channelId actorUserId userId roleName)
      (hfind : db.channels.find channelId = some channel)
      (hworkspace : channel.workspaceId = workspaceId)
      (hmay : db.can workspaceId actorUserId [inviteMembers, manageWorkspace, manageChannel] = true)

def Db.IsMember (db : Db) (workspaceId : Nat) (userId : String) : Prop :=
  ∃ member, db.members.find (workspaceId, userId) = some member

/-- The request makes a member only of a user who is entitled to be one. -/
def Admits (text : Text) (db : Db) (request : Request) : Prop :=
  ∀ workspaceId userId, ¬ db.IsMember workspaceId userId →
    (serve text db request).1.IsMember workspaceId userId →
    Entitled text db request workspaceId userId

/-- Somebody joins a channel of a community they are no member of. -/
def JoinsFromOutside (db : Db) (request : Request) : Prop :=
  ∃ channelId userId channel, request.call = .joinChannel channelId userId ∧
    db.channels.find channelId = some channel ∧ ¬ db.IsMember channel.workspaceId userId

instance (db : Db) (workspaceId : Nat) (userId : String) :
    Decidable (db.IsMember workspaceId userId) :=
  decidable_of_iff ((db.members.find (workspaceId, userId)).isSome = true) isSome_iff_exists

theorem isMember_iff {db : Db} {workspaceId : Nat} {userId : String} :
    db.IsMember workspaceId userId ↔ ∃ member ∈ db.members, member.key = (workspaceId, userId) := by
  simp only [Db.IsMember, find_eq_some_iff]

/-- A join from outside makes its caller a member. -/
theorem JoinsFromOutside.isMember {text : Text} {db : Db} {world : World} {channelId : Nat}
    {userId : String} {channel : Channel} (hfind : db.channels.find channelId = some channel)
    (houtside : ¬ db.IsMember channel.workspaceId userId) :
    (serve text db ⟨.joinChannel channelId userId, world⟩).1.IsMember
      channel.workspaceId userId := by
  have hfree : db.members.find (channel.workspaceId, userId) = none := by
    cases hmember : db.members.find (channel.workspaceId, userId) with
    | none => rfl
    | some member => exact absurd ⟨member, hmember⟩ houtside
  have hrow : db.members.find (ChannelMember.key ⟨channel.workspaceId, userId,
      roleIdsOf (db.roleNamed channel.workspaceId "Member")⟩) = none := hfree
  obtain ⟨members, hinsert⟩ := insert_of_find_eq_none hrow
  have hadd : db.addMember ⟨channel.workspaceId, userId,
      roleIdsOf (db.roleNamed channel.workspaceId "Member")⟩ = some { db with members } := by
    rw [Db.addMember, hinsert, map_some]
  simp only [serve, joinChannel, hfind, hfree, isSome_none, Bool.false_eq_true, if_false, hadd]
  exact isMember_iff.mpr ⟨_, (addMember_eq_some hadd).2.2 _ |>.mpr (.inr rfl), rfl⟩

theorem admits_iff {text : Text} {db : Db} {request : Request} :
    Admits text db request ↔ ¬ JoinsFromOutside db request := by
  constructor
  · rintro hadmits ⟨channelId, userId, channel, hcall, hfind, houtside⟩
    obtain ⟨call, world⟩ := request
    cases hcall
    cases hadmits _ _ houtside (JoinsFromOutside.isMember hfind houtside) with
    | founder _ hcall | link _ _ hcall | invited _ _ _ _ hcall => cases hcall
  · intro hinside workspaceId userId houtside hafter
    obtain ⟨member, hmember, hkey⟩ := isMember_iff.mp hafter
    have hnew : member ∉ db.members := fun hold => houtside (isMember_iff.mpr ⟨member, hold, hkey⟩)
    obtain ⟨call, world⟩ := request
    cases (serve_makes text db ⟨call, world⟩).1 with
    | kept hmembers hroles => exact absurd (hmembers ▸ hmember) hnew
    | created name createdBy hcall hnext hfresh hworkspace hmembers hroles =>
      rcases (hmembers member).mp hmember with hold | rfl
      · exact absurd hold hnew
      · cases hkey
        obtain ⟨workspace, hrow, hid⟩ := hworkspace
        exact .founder name hcall hfresh ⟨workspace, find_eq_some_iff.mpr ⟨hrow, hid⟩⟩
    | departed other user hkeeps hmembers hroles =>
      exact absurd ((hmembers member).mp hmember).1 hnew
    | deleted other hmembers hroles =>
      rw [hmembers, mem_filter] at hmember
      exact absurd hmember.1 hnew
    | joined other user roleIds hadmission hfree hmembers hroles =>
      rcases (hmembers member).mp hmember with hold | rfl
      · exact absurd hold hnew
      · cases hkey
        cases hadmission with
        | link token invite hfind hvalid hworkspace _ =>
          exact .link token invite rfl hfind hworkspace (isValid_iff_live.mp hvalid)
        | invitation channelId channel actorUserId roleName hfind hworkspace hactor =>
          exact .invited channelId channel actorUserId roleName rfl hfind hworkspace hactor
        | join channelId channel hfind hworkspace =>
          refine absurd ⟨channelId, user, channel, rfl, hfind, ?_⟩ hinside
          rw [hworkspace]
          exact houtside
    | assigned actorUserId target role hactor hcan htarget hrole hworkspace hkeeps hmembers
        hroles =>
        rw [hmembers, mem_write] at hmember
        rcases hmember with ⟨hold, _⟩ | ⟨rfl, _⟩
        · exact absurd hold hnew
        · exact absurd (isMember_iff.mpr ⟨target, htarget, hkey⟩) houtside
    | roleAdded actorUserId role hactor hcan hid hnext hmembers hroles
    | roleEdited actorUserId role permissions hactor hedit hcan hrole hmembers hroles =>
      exact absurd (hmembers ▸ hmember) hnew

/-- **Admission.**  Over every sequence of requests from any state: each of them makes
    members only of users who are entitled to be one, exactly when nobody joins a channel
    from outside its community. -/
theorem admission_iff (text : Text) (db : Db) (requests : List Request) :
    EachStep (step text) (Admits text) db requests ↔
      EachStep (step text) (fun db request => ¬ JoinsFromOutside db request) db requests := by
  have hsame : Admits text = fun db request => ¬ JoinsFromOutside db request :=
    funext₂ fun _ _ => propext admits_iff
  rw [hsame]

/-- A founder opens a community, and a stranger joins the channel that it starts with. -/
def strangerJoins : List Request :=
  [⟨.createWorkspace "club" "ada", .calm⟩, ⟨.joinChannel 4 "eve", .calm⟩]

/-- A stranger who knows the id of a channel becomes a member of its community. -/
theorem stranger_admitted :
    ∃ before after, run (step .plain) .empty (strangerJoins.take 1) = some before ∧
      ¬ before.IsMember 0 "eve" ∧ run (step .plain) before (strangerJoins.drop 1) = some after ∧
      after.IsMember 0 "eve" ∧ ¬ EachStep (step .plain) (Admits .plain) .empty strangerJoins := by
  have hrun : run (step .plain) .empty (strangerJoins.take 1) = some _ := rfl
  have houtside : ¬ (serve .plain .empty
      ⟨.createWorkspace "club" "ada", .calm⟩).1.IsMember 0 "eve" := by decide
  refine ⟨_, _, hrun, houtside, rfl, by decide, fun hadmits => ?_⟩
  exact admits_iff.mp (hadmits.2 _ rfl).1 ⟨4, "eve", ⟨4, 0, "general"⟩, rfl, rfl, houtside⟩

/-! ## Invitations to a private channel -/

/-- A community with the lists of who may read its private channels. -/
structure Salons where
  db : Db
  allowedUsers : Nat → Option (List String)

def Text.normalise (text : Text) (userId : String) : String := text.lower (text.trim userId)

section

variable (text : Text) (salons : Salons) (channelId : Nat)

/-- `channelIsReadableBy` normalises once more. -/
def canAccessChannel (userId : String) : Bool :=
  match salons.allowedUsers channelId with
  | none => true
  | some allowed => userId ≠ "" && text.normalise (text.normalise userId) ∈ allowed

/-- The list gets the target in the branch of a new member. -/
def Salons.inviteToChannel (world : World) (actorUserId targetUserId : String)
    (roleName : Option String) : Salons × Except HttpError Reply :=
  let (db, answer) :=
    Community.inviteToChannel text salons.db world channelId actorUserId targetUserId roleName
  let normalized := text.normalise targetUserId
  let granted := (salons.allowedUsers channelId).map fun existing =>
    if normalized ∈ existing then existing else existing ++ [normalized]
  if db.members.rows = salons.db.members.rows then (⟨db, salons.allowedUsers⟩, answer)
  else (⟨db, Function.update salons.allowedUsers channelId granted⟩, answer)

variable {text salons channelId} {world : World} {actorUserId targetUserId : String}
  {roleName : Option String} {channel : Channel} {reply : Reply}

theorem inviteToChannel_ok {db after : Db} (hfind : db.channels.find channelId = some channel)
    (h : inviteToChannel text db world channelId actorUserId targetUserId roleName =
      (after, .ok reply)) :
    after = db ∧ db.IsMember channel.workspaceId targetUserId ∨
      ∃ roleIds, db.addMember ⟨channel.workspaceId, targetUserId, roleIds⟩ = some after := by
  simp only [inviteToChannel, hfind] at h
  split at h
  · cases h
  split at h
  · cases h
  split at h
  · cases h
  · cases h
  split at h
  next hmember => exact .inl ⟨(Prod.mk.inj h).1.symm, isSome_iff_exists.mp hmember⟩
  split at h
  · cases h
  next hadd => exact .inr ⟨_, hadd.trans (congrArg some (Prod.mk.inj h).1)⟩

/-- **Access by invitation.**  A successful invitation leaves the target a member who passes
    the access check exactly if a target who was a member before, or has no name, passed it
    already. -/
theorem invited_has_access (hfind : salons.db.channels.find channelId = some channel)
    (hnormal : ∀ userId, text.normalise (text.normalise userId) = text.normalise userId)
    {after : Salons}
    (h : salons.inviteToChannel text channelId world actorUserId targetUserId roleName =
      (after, .ok reply)) :
    (after.db.IsMember channel.workspaceId targetUserId ∧
      canAccessChannel text after channelId targetUserId = true) ↔
    (salons.db.IsMember channel.workspaceId targetUserId ∨ targetUserId = "" →
      canAccessChannel text salons channelId targetUserId = true) := by
  rcases houtcome : Community.inviteToChannel text salons.db world channelId actorUserId
    targetUserId roleName with ⟨db, answer⟩
  simp only [Salons.inviteToChannel, houtcome] at h
  split at h
  next hrows =>
    cases h
    rcases inviteToChannel_ok hfind houtcome with ⟨rfl, hmember⟩ | ⟨roleIds, hadd⟩
    · exact ⟨fun h _ => h.2, fun h => ⟨hmember, h (.inl hmember)⟩⟩
    · obtain ⟨hfree, _, hmem⟩ := addMember_eq_some hadd
      cases find_eq_none_iff.mp hfree _ (mem_def.mpr (hrows ▸ (hmem _).mpr (.inr rfl))) rfl
  next hrows =>
    cases h
    rcases inviteToChannel_ok hfind houtcome with ⟨rfl, _⟩ | ⟨roleIds, hadd⟩
    · cases hrows rfl
    · obtain ⟨hfree, _, hmem⟩ := addMember_eq_some hadd
      have hjoined : db.IsMember channel.workspaceId targetUserId :=
        isMember_iff.mpr ⟨_, (hmem _).mpr (.inr rfl), rfl⟩
      have hnew : ¬ salons.db.IsMember channel.workspaceId targetUserId := by
        rintro ⟨member, hmember⟩
        cases hfree.symm.trans hmember
      simp only [hjoined, hnew, true_and, false_or, canAccessChannel, Function.update_self]
      cases salons.allowedUsers channelId with
      | none => simp
      | some existing =>
        by_cases hin : text.normalise targetUserId ∈ existing
        all_goals simp [hnormal, hin]

end

/-- The club that `eve` has joined, with a private channel for its founder alone. -/
def privateClub : Salons where
  db := strangerJoins.foldl (fun db request => (serve .plain db request).1) .empty
  allowedUsers _ := some ["ada"]

theorem member_invited_without_access :
    privateClub.inviteToChannel .plain 4 .calm "ada" "eve" none =
        (privateClub, .ok (.invited "eve" true)) ∧
      canAccessChannel .plain privateClub 4 "eve" = false := ⟨rfl, rfl⟩

theorem invited_has_access_newcomer :
    ∃ after, privateClub.inviteToChannel .plain 4 .calm "ada" "bob" none =
        (after, .ok (.invited "bob" false)) ∧
      after.db.IsMember 0 "bob" ∧ canAccessChannel .plain after 4 "bob" = true := by
  have hfind : privateClub.db.channels.find 4 = some ⟨4, 0, "general"⟩ := rfl
  have hinvited : privateClub.inviteToChannel .plain 4 .calm "ada" "bob" none = (_, _) := rfl
  exact ⟨_, hinvited, (invited_has_access hfind (fun _ => rfl) hinvited).mpr (by decide)⟩

end MinesApp.Community
