import MinesApp.MlsManager

/-!
# The commit transaction

`runCommitTransaction` (`frontend/src/lib/services/BaseMlsService.ts`) stages a commit
under the MLS mutex, has the server validate its epoch, and then merges it or clears
it.  OpenMLS refuses to stage while a commit is pending, so a transaction that ends
with its commit still pending blocks every later one on the group.

The staging methods, the merge and the clear are the manager's
(`frontend/mls-core/src/members.rs`); what OpenMLS does with the pending commit itself
is assumed in section 1.  The result of a transaction carries the place it left from,
because the source throws the same kind of error from several places.  The epoch
barrier, the epoch-gap registry and the refresh of the published base after the
transaction are left out: none of them touches the group's state.
-/

namespace MinesApp.CommitTransaction

open MlsManager Manager

/-! ## 1. OpenMLS

A call into OpenMLS is a parameter: a function from the group it is made on to what it leaves
behind.  The results rest on two laws. -/

/-- A call that stages a commit fails while one is pending.  It leaves its own commit pending
    if it succeeds and what was pending if it fails, and the epoch is that of the group. -/
structure StagesCommit {Answer : Type} (call : MlsGroup → GroupCall String Answer) : Prop where
  refuses : ∀ group, group.pending ≠ none → ∃ debug, (call group).answer = .error debug
  stages : ∀ group answer, (call group).answer = .ok answer →
    (call group).group.pending = some .member
  leaves : ∀ group debug, (call group).answer = .error debug →
    (call group).group.pending = group.pending
  epoch : ∀ group, (call group).group.epoch = group.epoch

/-- A call that merges or clears the commit of this device takes it off the group exactly when
    it succeeds. -/
def SettlesCommit (call : MlsGroup → GroupCall String Unit) : Prop :=
  ∀ group, group.pending = some .member →
    ((call group).group.pending = none ↔ (call group).answer = .ok ())

/-! ## 2. The transaction -/

/-- The three ways in which the service stages a commit.  `stageAddMembers` carries the device
    id of each key package. -/
inductive StageRequest where
  | addMembers (devices : List (KeyPackageIn × String))
      (call : MlsGroup → List KeyPackage → GroupCall String (MlsMessageOut × MlsMessageOut))
  | removeMembers (userIds : List String) (call : MlsGroup → GroupCall String MlsMessageOut)
  | removeMembersByDevice (deviceIdentities : List String)
      (call : MlsGroup → GroupCall String MlsMessageOut)

def StageRequest.Lawful : StageRequest → Prop
  | .addMembers _ call => ∀ keyPackages, StagesCommit (call · keyPackages)
  | .removeMembers _ call | .removeMembersByDevice _ call => StagesCommit call

structure Staged where
  commit : Bytes
  welcome : Option Bytes
  addedDeviceIds : List String
  skippedDeviceIds : List String
deriving DecidableEq, Repr

def deviceIdsAt (devices : List (KeyPackageIn × String)) (indices : List Nat) : List String :=
  indices.filterMap fun index => devices[index]?.map Prod.snd

def stage (manager : Manager) (groupId : String) (request : StageRequest) :
    Manager × Except MlsError Staged :=
  match manager.groups.get? groupId with
  | none => (manager, .error (.groupNotFound groupId))
  | some group =>
    match request with
    | .addMembers devices call =>
      let (called, answer) := manager.addMembersBulk groupId (devices.map Prod.fst) (call group)
      (called, answer.map fun result =>
        ⟨result.commit, some result.welcome, deviceIdsAt devices result.addedIndices,
         deviceIdsAt devices result.skippedIndices⟩)
    | .removeMembers userIds call =>
      let (called, answer) := manager.removeMembersForUsers groupId userIds (call group)
      (called, answer.map fun commit => ⟨commit, none, [], []⟩)
    | .removeMembersByDevice deviceIdentities call =>
      let (called, answer) := manager.removeMembersForDevices groupId deviceIdentities (call group)
      (called, answer.map fun commit => ⟨commit, none, [], []⟩)

structure Verdict where
  accepted : Bool
  reason : Option String
  currentEpoch : Option UInt64
deriving DecidableEq, Repr

/-- What the transaction meets on its way.  `epochFallback` is what the platform answers when
    the epoch cannot be read: 0 on the web, the cached epoch on native. -/
structure World where
  epochFallback : Option UInt64
  submitted : Except String Verdict
  clear : MlsGroup → GroupCall String Unit
  replayed : List IncomingFrame
  merge : MlsGroup → GroupCall String Unit
  tree : Except String Bytes

structure World.Lawful (world : World) : Prop where
  clears : SettlesCommit world.clear
  merges : SettlesCommit world.merge

structure Committed where
  welcome : Option Bytes
  ratchetTree : Option Bytes
  addedDeviceIds : List String
  skippedDeviceIds : List String
deriving DecidableEq, Repr

/-- Where a transaction left from; all but the last are exceptions. -/
inductive Exit where
  | stagingThrew (failure : MlsError)
  | submitThrew (text : String)
  | rejected (cleared : Bool) (text : String)
  | mergeThrew (failure : MlsError)
  | exportThrew (failure : MlsError)
  | committed (result : Committed)
deriving DecidableEq, Repr

section

variable (manager : Manager) (groupId : String) (request : StageRequest) (world : World)

def freshEpoch (fallback : Option UInt64) : UInt64 :=
  match fallback, manager.getEpoch groupId with
  | some cached, _ => cached
  | none, .ok epoch => epoch
  | none, .error _ => 0

/-- The method of the manager, with the call that OpenMLS makes on the group held. -/
def settleHeld (method : Manager → String → GroupCall String Unit → Manager × Except MlsError Unit)
    (call : MlsGroup → GroupCall String Unit) : Manager × Except MlsError Unit :=
  match manager.groups.get? groupId with
  | none => (manager, .error (.groupNotFound groupId))
  | some group => method manager groupId (call group)

def mergePendingCommit : Manager × Except MlsError Unit :=
  settleHeld manager groupId mergePendingCommitFor world.merge

def clearPendingCommit : Manager × Except MlsError Unit :=
  settleHeld manager groupId clearPendingCommitFor world.clear

/-- The commits that the replay hands over, when the server reports an epoch ahead of ours. -/
def catchUpOnRefusedCommit (baseEpoch : UInt64)
    (activeEpoch : Option UInt64) (replayed : List IncomingFrame) : Manager :=
  match activeEpoch with
  | none => manager
  | some active =>
    if active ≤ baseEpoch then manager
    else (processIncomingMessages groupId manager replayed).1

def rejectionText (verdict : Verdict) : String :=
  "Staged commit rejected: " ++ (verdict.reason.filter (· ≠ "")).getD "epoch_mismatch"

def runCommitTransaction (exportTree : Bool) (world : World) : Manager × Exit :=
  match stage manager groupId request with
  | (called, .error failure) => (called, .stagingThrew failure)
  | (called, .ok staged) =>
    let baseEpoch := freshEpoch called groupId world.epochFallback
    match world.submitted with
    | .error text => (called, .submitThrew text)
    | .ok verdict =>
      if !verdict.accepted then
        -- `.catch(() => {})`: a clear that fails is not noticed
        let (cleared, answer) := clearPendingCommit called groupId world
        (catchUpOnRefusedCommit cleared groupId baseEpoch verdict.currentEpoch world.replayed,
         .rejected answer.isOk (rejectionText verdict))
      else
        match mergePendingCommit called groupId world with
        | (merged, .error failure) => (merged, .mergeThrew failure)
        | (merged, .ok ()) =>
          if exportTree then
            match merged.exportFor groupId world.tree with
            | .error failure => (merged, .exportThrew failure)
            | .ok tree =>
              (merged, .committed
                ⟨staged.welcome, some tree, staged.addedDeviceIds, staged.skippedDeviceIds⟩)
          else
            (merged, .committed
              ⟨staged.welcome, none, staged.addedDeviceIds, staged.skippedDeviceIds⟩)

end

/-! ## 3. What staging leaves -/

/-- The group with the commit that OpenMLS makes for a removal, and whether the commit
    serialises. -/
def removal (indices : Except MlsError (List Nat)) (call : GroupCall String MlsMessageOut) :
    Option (MlsGroup × Bool) :=
  match indices, call.answer with
  | .ok (_ :: _), .ok commit => some (call.group, commit.isOk)
  | _, _ => none

/-- The group with the commit that OpenMLS makes for the request, and whether its messages
    serialise; `none` if the request is refused, by the manager or by OpenMLS. -/
def StageRequest.commits (group : MlsGroup) : StageRequest → Option (MlsGroup × Bool)
  | .addMembers devices call =>
    let keyPackages := (select group.members (devices.map Prod.fst)).keyPackages
    match keyPackages, (call group keyPackages).answer with
    | _ :: _, .ok (commit, welcome) =>
      some ((call group keyPackages).group, commit.isOk && welcome.isOk)
    | _, _ => none
  | .removeMembers userIds call =>
    removal (leafIndicesWhere (ofUsers userIds) group.members) (call group)
  | .removeMembersByDevice deviceIdentities call =>
    removal (leafIndicesWhere deviceIdentities.contains group.members) (call group)

/-- What a staging method does to the group: its answer is lost when the commit is made and a
    message does not serialise. -/
inductive Staging {Answer : Type} (groupId : String) (group : MlsGroup)
    (result : Manager × Except MlsError Answer) : Option (MlsGroup × Bool) → Prop where
  | refused (left : MlsGroup) (failure : MlsError)
      (hleft : result.1.groups.get? groupId = some left) (hpending : left.pending = group.pending)
      (hepoch : left.epoch = group.epoch) (hanswer : result.2 = .error failure) :
      Staging groupId group result none
  | lost (left : MlsGroup) (failure : MlsError)
      (hleft : result.1.groups.get? groupId = some left) (hpending : left.pending = some .member)
      (hepoch : left.epoch = group.epoch) (hanswer : result.2 = .error failure) :
      Staging groupId group result (some (left, false))
  | staged (left : MlsGroup) (answer : Answer)
      (hleft : result.1.groups.get? groupId = some left) (hpending : left.pending = some .member)
      (hepoch : left.epoch = group.epoch) (hanswer : result.2 = .ok answer) :
      Staging groupId group result (some (left, true))

variable {Answer : Type} {manager : Manager} {groupId : String} {group : MlsGroup}

/-- Turning the answer into another keeps what was staged. -/
theorem Staging.map {Other : Type} {result : Manager × Except MlsError Answer}
    {outcome : Option (MlsGroup × Bool)} (h : Staging groupId group result outcome)
    (change : Answer → Other) :
    Staging groupId group (result.1, result.2.map change) outcome := by
  cases h with
  | refused left failure hleft hpending hepoch hanswer =>
    exact .refused left failure hleft hpending hepoch (by rw [hanswer]; rfl)
  | lost left failure hleft hpending hepoch hanswer =>
    exact .lost left failure hleft hpending hepoch (by rw [hanswer]; rfl)
  | staged left answer hleft hpending hepoch hanswer =>
    exact .staged left (change answer) hleft hpending hepoch (by rw [hanswer]; rfl)

theorem get?_afterGroupCall {Failure : Type} (manager : Manager) (groupId : String)
    (call : GroupCall Failure Answer) :
    (manager.afterGroupCall groupId call).groups.get? groupId = some call.group :=
  OrderedMap.get?_set_self _ _ _

/-- OpenMLS makes no commit while one is pending. -/
theorem commits_of_pending (hpending : group.pending ≠ none) {request : StageRequest}
    (hlaw : request.Lawful) : request.commits group = none := by
  unfold StageRequest.commits removal
  cases request with
  | addMembers devices call =>
    obtain ⟨debug, hanswer⟩ :=
      (hlaw (select group.members (devices.map Prod.fst)).keyPackages).refuses group hpending
    dsimp only at hanswer ⊢
    split
    · simp_all
    · rfl
  | removeMembers names call | removeMembersByDevice names call =>
    obtain ⟨debug, hanswer⟩ := hlaw.refuses group hpending
    dsimp only
    split
    · simp_all
    · rfl

section

variable (hheld : manager.groups.get? groupId = some group)
include hheld

theorem staging_removeMembers (names : List String) (named : String → Bool)
    {call : MlsGroup → GroupCall String MlsMessageOut} (hlaw : StagesCommit call) :
    Staging groupId group (manager.removeMembers groupId names named (call group))
      (removal (leafIndicesWhere named group.members) (call group)) := by
  have hget := get?_afterGroupCall manager groupId (call group)
  have hepoch := hlaw.epoch group
  unfold Manager.removeMembers removal
  rw [hheld]
  dsimp only
  generalize leafIndicesWhere named group.members = indices
  rcases indices with failure | _ | ⟨first, rest⟩
  · exact .refused group failure hheld rfl rfl rfl
  · exact .refused group _ hheld rfl rfl rfl
  · cases hanswer : (call group).answer with
    | error debug => exact .refused _ _ hget (hlaw.leaves group debug hanswer) hepoch rfl
    | ok commit =>
      have hpending := hlaw.stages group commit hanswer
      cases commit with
      | error debug => exact .lost _ _ hget hpending hepoch rfl
      | ok bytes => exact .staged _ bytes hget hpending hepoch rfl

theorem staging_addMembersBulk (devices : List (KeyPackageIn × String))
    {call : MlsGroup → List KeyPackage → GroupCall String (MlsMessageOut × MlsMessageOut)}
    (hlaw : ∀ keyPackages, StagesCommit (call · keyPackages)) :
    Staging groupId group (manager.addMembersBulk groupId (devices.map Prod.fst) (call group))
      ((StageRequest.addMembers devices call).commits group) := by
  unfold addMembersBulk StageRequest.commits
  rw [hheld]
  dsimp only
  generalize select group.members (devices.map Prod.fst) = selection
  have hget := get?_afterGroupCall manager groupId (call group selection.keyPackages)
  obtain ⟨-, hstages, hleaves, hepoch⟩ := hlaw selection.keyPackages
  generalize selection.keyPackages = chosen at *
  cases chosen with
  | nil => exact .refused group _ hheld rfl rfl rfl
  | cons first rest =>
    rw [if_neg (List.cons_ne_nil _ _)]
    cases hanswer : (call group (first :: rest)).answer with
    | error debug => exact .refused _ _ hget (hleaves group debug hanswer) (hepoch group) rfl
    | ok messages =>
      obtain ⟨commit, welcome⟩ := messages
      have hpending := hstages group _ hanswer
      cases commit with
      | error debug => exact .lost _ _ hget hpending (hepoch group) rfl
      | ok commitBytes =>
        cases welcome with
        | error debug => exact .lost _ _ hget hpending (hepoch group) rfl
        | ok welcomeBytes => exact .staged _ _ hget hpending (hepoch group) rfl

theorem staging_stage {request : StageRequest} (hlaw : request.Lawful) :
    Staging groupId group (stage manager groupId request) (request.commits group) := by
  unfold stage
  rw [hheld]
  cases request with
  | addMembers devices call => exact (staging_addMembersBulk hheld devices hlaw).map _
  | removeMembers userIds call => exact (staging_removeMembers hheld userIds _ hlaw).map _
  | removeMembersByDevice deviceIdentities call =>
    exact (staging_removeMembers hheld deviceIdentities _ hlaw).map _

theorem stage_of_pending (hpending : group.pending ≠ none) {request : StageRequest}
    (hlaw : request.Lawful) : ∃ failure, (stage manager groupId request).2 = .error failure := by
  have hstage := staging_stage hheld hlaw
  rw [commits_of_pending hpending hlaw] at hstage
  cases hstage with
  | refused left failure hleft hleftPending hepoch hanswer => exact ⟨failure, hanswer⟩

end

/-- The group after a frame of the replay: one that is not opened leaves it, and a commit is
    merged. -/
def applyFrame (group : MlsGroup) (frame : IncomingFrame) : MlsGroup :=
  match frame.header with
  | none => group
  | some header =>
    if frame.size ≤ maxMlsMessageBytes ∧ group.active = true ∧ header.epoch ≤ group.epoch then
      match frame.process.answer with
      | .ok .stagedCommitMessage => frame.merge.group
      | _ => frame.process.group
    else group

/-- The transaction makes no commit, or merges or clears the one it makes: the answer to the
    staging call is not lost, the submission is answered, and then the merge succeeds after an
    acceptance and the clear after a refusal.  When the server is ahead, commits are replayed
    after the clear, and what they leave on the group counts. -/
def Settles (group : MlsGroup) (request : StageRequest) (world : World) : Prop :=
  match request.commits group, world.submitted with
  | none, _ => True
  | some (_, false), _ => False
  | some (_, true), .error _ => False
  | some (staged, true), .ok verdict =>
    if verdict.accepted then (world.merge staged).answer = .ok ()
    else if ∃ active ∈ verdict.currentEpoch, world.epochFallback.getD group.epoch < active then
      (world.replayed.foldl applyFrame (world.clear staged).group).pending = none
    else (world.clear staged).answer = .ok ()

/-- The commit staged before a submission that throws outlives the transaction. -/
theorem runCommitTransaction_of_submitThrew {request : StageRequest} {exportTree : Bool}
    {world : World} {staged : Staged} {text : String}
    (hstaged : (stage manager groupId request).2 = .ok staged)
    (hsubmitted : world.submitted = .error text) :
    (runCommitTransaction manager groupId request exportTree world).1 =
      (stage manager groupId request).1 := by
  unfold runCommitTransaction
  generalize stage manager groupId request = result at hstaged ⊢
  obtain ⟨called, answer⟩ := result
  cases hstaged
  rw [hsubmitted]

section

variable (hheld : manager.groups.get? groupId = some group)
include hheld

theorem blocked_of_pending (hpending : group.pending ≠ none) {request : StageRequest}
    (hlaw : request.Lawful) (exportTree : Bool) (world : World) :
    ∃ failure, (runCommitTransaction manager groupId request exportTree world).2 =
      .stagingThrew failure := by
  obtain ⟨failure, hfailure⟩ := stage_of_pending hheld hpending hlaw
  refine ⟨failure, ?_⟩
  unfold runCommitTransaction
  generalize stage manager groupId request = result at hfailure ⊢
  obtain ⟨called, answer⟩ := result
  cases hfailure
  rfl

end

/-- The staged commit outlives a submission that throws, and no later transaction on the group
    gets past its staging. -/
theorem blocked_after_submitThrew (hheld : manager.groups.get? groupId = some group)
    {request : StageRequest} (hrequest : request.Lawful) {exportTree : Bool} {world : World}
    {staged : Staged} {text : String} (hstaged : (stage manager groupId request).2 = .ok staged)
    (hsubmitted : world.submitted = .error text) {following : StageRequest}
    (hfollowing : following.Lawful) (again : Bool) (later : World) :
    ∃ failure, (runCommitTransaction
      (runCommitTransaction manager groupId request exportTree world).1 groupId following again
        later).2 = .stagingThrew failure := by
  rw [runCommitTransaction_of_submitThrew hstaged hsubmitted]
  have hstage := staging_stage hheld hrequest
  generalize request.commits group = outcome at hstage
  cases hstage with
  | refused left failure _ _ _ hanswer | lost left failure _ _ _ hanswer =>
    rw [hstaged] at hanswer
    cases hanswer
  | staged left answer hleft hpending _ _ =>
    refine blocked_of_pending hleft ?_ hfollowing again later
    rw [hpending]
    exact Option.some_ne_none _

/-- A group of two devices at epoch 4. -/
def salon : Manager :=
  ⟨.empty, ⟨[7], "ada:phone"⟩, .ofPairs [("salon", ⟨"salon", 4, true,
     [⟨0, some (.utf8 "ada:phone")⟩, ⟨1, some (.utf8 "bob:tablet")⟩], none⟩)], .empty, .newDirty⟩

/-- OpenMLS removes whom it is asked to, unless a commit is pending. -/
def removing (group : MlsGroup) : GroupCall String MlsMessageOut :=
  if group.pending = none then ⟨⟨.empty, .ok (.ok [1])⟩, { group with pending := some .member }⟩
  else ⟨⟨.empty, .error "GroupStateError(PendingCommit)"⟩, group⟩

def removeBob : StageRequest := .removeMembersByDevice ["bob:tablet"] removing

theorem removeBob_lawful : removeBob.Lawful := by
  constructor
  all_goals
    intro group
    by_cases hfree : group.pending = none <;> simp [removing, hfree]

/-- A clear that succeeds, or fails with the commit left where it is. -/
def clearing (succeeds : Bool) (group : MlsGroup) : GroupCall String Unit :=
  if succeeds then ⟨⟨.empty, .ok ()⟩, { group with pending := none }⟩
  else ⟨⟨.empty, .error "StorageError"⟩, group⟩

/-- A transaction with the answer given here, whose merge and clear succeed. -/
def submitting (answer : Except String Verdict) : World :=
  ⟨none, answer, clearing true, [], clearing true, .ok []⟩

def refusing : World := submitting (.ok ⟨false, none, none⟩)

theorem blocked_after_submitThrew_lost : ∃ failure, (runCommitTransaction
    (runCommitTransaction salon "salon" removeBob false (submitting (.error "503"))).1
      "salon" removeBob true refusing).2 = .stagingThrew failure :=
  blocked_after_submitThrew rfl removeBob_lawful rfl rfl removeBob_lawful true refusing

section

variable (tree : List Identity) (packages : List KeyPackageIn)

def identityAt (index : Nat) : Option Identity :=
  match packages[index]? with
  | some (.valid keyPackage) => keyPackage.identity
  | _ => none

/-- What `add_members_bulk` makes of the first `count` key packages. -/
structure Partition (count : Nat) (committed : List KeyPackage) (added skipped : List Nat) :
    Prop where
  added_sorted : added.Pairwise (· < ·)
  skipped_sorted : skipped.Pairwise (· < ·)
  disjoint : ∀ index ∈ added, index ∉ skipped
  passed : ∀ index < count, index ∉ added → index ∉ skipped →
    ∃ identity ∈ identityAt packages index, identity ∈ tree ∨
      ∃ earlier ∈ added, earlier < index ∧ identityAt packages earlier = some identity
  distinct : (added.filterMap (identityAt packages)).Nodup
  fresh : ∀ identity ∈ added.filterMap (identityAt packages), identity ∉ tree
  committed_added : added.map (packages[·]?) = committed.map (some ∘ .valid)

/-- The loop before key package `count`: it knows the identities of the tree and those added. -/
structure Selects (count : Nat) (selection : Selection) : Prop extends
    Partition tree packages count selection.keyPackages selection.addedIndices
      selection.skippedIndices where
  bounded : ∀ index, index ∈ selection.addedIndices ∨ index ∈ selection.skippedIndices →
    index < count
  known : ∀ identity, identity ∈ selection.knownIdentities ↔
    identity ∈ tree ∨ identity ∈ selection.addedIndices.filterMap (identityAt packages)

end

section

variable {tree : List Identity} {packages : List KeyPackageIn} {selection : Selection}

theorem Selects.consider {count : Nat} (h : Selects tree packages count selection)
    {next : KeyPackageIn} (hnext : packages[count]? = some next) :
    Selects tree packages (count + 1) (selection.consider (next, count)) := by
  obtain ⟨⟨hadded, hskipped, hdisjoint, hpassed, hdistinct, hfresh, hcommitted⟩, hbounded,
    hknown⟩ := h
  unfold Selection.consider
  split
  next hrejected => exact ⟨by constructor <;> grind, by grind, by grind⟩
  next keyPackage hvalid =>
    have hidentity : identityAt packages count = keyPackage.identity := by grind [identityAt]
    split
    next hpresent => exact ⟨by constructor <;> grind, by grind, by grind⟩
    next hnew =>
      refine ⟨?_, by grind, by grind⟩
      constructor
      case passed =>
        intro index hindex hleft hright
        obtain ⟨identity, hcarried, hheld⟩ := hpassed index (by grind) (by grind) hright
        exact ⟨identity, hcarried, hheld.imp_right (by grind)⟩
      all_goals grind

theorem Selects.run (done rest : List KeyPackageIn) (hsplit : done ++ rest = packages)
    (h : Selects tree packages done.length selection) :
    Selects tree packages packages.length
      ((rest.zipIdx done.length).foldl Selection.consider selection) := by
  induction rest generalizing done selection with
  | nil => simpa [← hsplit] using h
  | cons next rest ih =>
    have hnext : packages[done.length]? = some next := by simp [← hsplit]
    simpa using ih (done ++ [next]) (by simpa using hsplit) (by simpa using h.consider hnext)

/-- **Bulk additions.**  A key package that is neither added nor reported is that of a device in
    the tree or added before it.  The added ones, in their order, are what is handed to OpenMLS,
    whose commit and Welcome are answered and whose group is held afterwards. -/
theorem add_members_bulk_partition (hheld : manager.groups.get? groupId = some group)
    {call : List KeyPackage → GroupCall String (MlsMessageOut × MlsMessageOut)} {after : Manager}
    {result : AddMembersBulkResult}
    (h : manager.addMembersBulk groupId packages call = (after, .ok result)) :
    ∃ committed, (call committed).answer = .ok (.ok result.commit, .ok result.welcome) ∧
      after.groups.get? groupId = some (call committed).group ∧
      Partition (group.members.filterMap Member.identity) packages packages.length committed
        result.addedIndices result.skippedIndices := by
  have hselects : Selects (group.members.filterMap Member.identity) packages packages.length
      (select group.members packages) :=
    Selects.run [] packages rfl ⟨by constructor <;> simp, by simp, by simp⟩
  simp only [addMembersBulk, hheld] at h
  split at h
  · cases h
  split at h
  · cases h
  next commit welcome hanswer =>
    split at h
    · cases h
    · cases h
    · cases h
      exact ⟨_, hanswer, get?_afterGroupCall _ _ _, hselects.toPartition⟩

end

def newcomers : List KeyPackageIn :=
  [.rejected, .valid ⟨[1], some (.utf8 "bob:tablet")⟩, .valid ⟨[2], some (.utf8 "eve:phone")⟩,
   .valid ⟨[3], some (.utf8 "eve:phone")⟩]

/-- The commit and the Welcome name the key packages that they are made of. -/
def adding (group : MlsGroup) (keyPackages : List KeyPackage) :
    GroupCall String (MlsMessageOut × MlsMessageOut) :=
  ⟨⟨.empty, .ok (.ok (keyPackages.flatMap KeyPackage.bytes), .ok [9])⟩,
    { group with pending := some .member }⟩

theorem add_members_bulk_partition_newcomers :
    ∃ committed, committed.flatMap KeyPackage.bytes = [2] ∧
      Partition [.utf8 "ada:phone", .utf8 "bob:tablet"] newcomers 4 committed [2] [0] := by
  have hheld : salon.groups.get? "salon" = some _ := rfl
  have hadded : salon.addMembersBulk "salon" newcomers (adding ⟨"salon", 4, true, [], none⟩) =
      (_, .ok ⟨[2], [9], [2], [0]⟩) := rfl
  obtain ⟨committed, hanswer, -, hpartition⟩ := add_members_bulk_partition hheld hadded
  refine ⟨committed, ?_, hpartition⟩
  simpa [adding] using hanswer

end MinesApp.CommitTransaction
