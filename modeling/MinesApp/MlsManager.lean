import MinesApp.DirtyCache
import MinesApp.OrderedMap
import Mathlib.Algebra.GroupWithZero.Nat
import Mathlib.Data.List.Infix
import Mathlib.Data.List.Sort

/-!
# The MLS manager

`frontend/mls-core/src` wraps OpenMLS in one `MlsManager`: the storage provider,
the device's identity, the groups held in memory, the epoch floors left by
`forget_group`, and a cached snapshot of all of them.  Every public method that can
change one of these is modelled, with the exits it has.

OpenMLS itself is the environment.  A call into it is given by what it left behind:
the storage after the call, the group after the call and its answer.  Nothing ties
the three together, so a call that answers with an error may have written already.

The snapshot is CBOR in the source; here it is the record the bytes decode to.
Log lines, lock poisoning and the at-rest encryption of the snapshot are left out,
and so are the methods that only read (`member_identities`, `export_secret`,
`key_package_has_private`, `state_composition`, `reload_is_monotonic`,
`parse_message_epoch`).
-/

namespace MinesApp.MlsManager

/-! ## 1. State -/

abbrev Bytes := List UInt8

/-- The provider's `values`. -/
abbrev Storage := OrderedMap Bytes Bytes

/-- The variants that a modelled method builds. -/
inductive MlsError where
  | openMls (text : String)
  | serialization (text : String)
  | groupNotFound (groupId : String)
  | invalidData
  | alreadyMember (text : String)
  | evicted (groupId : String)
  | noSuchMember (text : String)
deriving DecidableEq, Repr

/-- The identity bytes of a basic credential, as text when they are UTF-8. -/
inductive Identity where
  | utf8 (text : String)
  | raw (bytes : Bytes)
deriving DecidableEq, Repr

/-- A leaf of the tree; `none` for a credential that is not a basic one. -/
structure Member where
  index : Nat
  identity : Option Identity
deriving DecidableEq, Repr

/-- A commit made and not merged.  An external commit has no state to go back to. -/
inductive PendingCommit where
  | member
  | external
deriving DecidableEq, Repr

structure MlsGroup where
  groupId : String
  epoch : UInt64
  active : Bool
  members : List Member
  pending : Option PendingCommit
deriving DecidableEq, Repr

structure IdentityBundle where
  keypair : Bytes
  credential : String
deriving DecidableEq, Repr

structure PersistedState where
  identityBundle : IdentityBundle
  storageValues : Storage
  groupIds : List String
  forgottenGroupMinEpochs : OrderedMap String UInt64
deriving DecidableEq, Repr

structure Manager where
  storage : Storage
  identity : IdentityBundle
  groups : OrderedMap String MlsGroup
  forgottenGroupMinEpochs : OrderedMap String UInt64
  stateSnapshot : DirtyCache PersistedState
deriving DecidableEq, Repr

/-- `tls_serialize_detached` of a message: its bytes or the text of the failure. -/
abbrev MlsMessageOut := Except String Bytes

/-- What a call left behind that makes or returns no group of the manager. -/
structure Call (Failure Answer : Type) where
  storage : Storage
  answer : Except Failure Answer

/-- What a call on a group of the manager left behind. -/
structure GroupCall (Failure Answer : Type) extends Call Failure Answer where
  group : MlsGroup

def contains (text part : String) : Bool := decide (part.toList <:+: text.toList)

namespace Manager

variable (manager : Manager)

def markStateDirty : Manager :=
  { manager with stateSnapshot := manager.stateSnapshot.invalidate }

/-- A call that reaches the storage only. -/
def afterCall {Failure Answer : Type} (call : Call Failure Answer) : Manager :=
  { manager with storage := call.storage }

/-- A call on the group held under `groupId`, which it mutates in place. -/
def afterGroupCall {Failure Answer : Type} (groupId : String) (call : GroupCall Failure Answer) :
    Manager :=
  { manager.afterCall call.toCall with groups := manager.groups.set groupId call.group }

/-! ## 2. The snapshot -/

def serializeState : PersistedState where
  identityBundle := manager.identity
  storageValues := manager.storage
  groupIds := manager.groups.keys.insertionSort (· ≤ ·)
  forgottenGroupMinEpochs := manager.forgottenGroupMinEpochs

/-- `failure` is the error of the encoder, when it fails. -/
def saveState (failure : Option MlsError) : Manager × Except MlsError PersistedState :=
  let (cache, answer) := manager.stateSnapshot.getOrBuild
    (failure.elim (.ok manager.serializeState) .error)
  ({ manager with stateSnapshot := cache }, answer)

/-! ## 3. Key packages -/

end Manager

inductive KeyPackageStep where
  | build
  | hashRef
  | write
deriving DecidableEq, Repr

def KeyPackageStep.label : KeyPackageStep → String
  | .build => "KeyPackage creation error: "
  | .hashRef => "HashRef error: "
  | .write => "Storage error: "

namespace Manager

variable (manager : Manager)

/-- Both kinds of key package are built here; the extension that separates them is in the
    answer. -/
def buildKeyPackage (call : Call (KeyPackageStep × String) MlsMessageOut) :
    Manager × Except MlsError Bytes :=
  let called := manager.afterCall call
  match call.answer with
  | .error (failed, debug) => (called, .error (.openMls (failed.label ++ debug)))
  | .ok keyPackage =>
    (called.markStateDirty,
     keyPackage.mapError fun debug => .openMls ("Serialization error: " ++ debug))

def generateKeyPackages :
    Manager → List (Call (KeyPackageStep × String) MlsMessageOut) →
      Manager × Except MlsError (List Bytes)
  | manager, [] => (manager, .ok [])
  | manager, call :: rest =>
    match manager.buildKeyPackage call with
    | (built, .error failure) => (built, .error failure)
    | (built, .ok bytes) =>
      match generateKeyPackages built rest with
      | (final, .error failure) => (final, .error failure)
      | (final, .ok others) => (final, .ok (bytes :: others))

def keyPackageLabel : Bytes := "KeyPackage".toList.map fun char => char.toNat.toUInt8

section

variable (notAfter : Bytes → Bytes → Option UInt64) (now : UInt64)

/-- `notAfter` reads an entry: the end of its lifetime when it decodes to the key package
    that its key names. -/
def expired (entry : Bytes × Bytes) : Bool :=
  keyPackageLabel.isPrefixOf entry.1 &&
    (notAfter entry.1 entry.2).elim false fun last => decide (last < now)

def pruneKeyPackagesExpiredAt : Manager × Nat :=
  let doomed := (manager.storage.entries.filter (expired notAfter now)).map Prod.fst
  let pruned := { manager with storage := doomed.foldl OrderedMap.erase manager.storage }
  (if 0 < doomed.length then pruned.markStateDirty else pruned, doomed.length)

end

/-! ## 4. Loading -/

/-- `MlsGroup::load` of every id of the snapshot; an id without a group is passed over. -/
def restoreGroups (load : String → Except String (Option MlsGroup)) :
    List String → OrderedMap String MlsGroup → Except MlsError (OrderedMap String MlsGroup)
  | [], groups => .ok groups
  | groupId :: rest, groups =>
    match load groupId with
    | .error debug => .error (.openMls debug)
    | .ok none => restoreGroups load rest groups
    | .ok (some group) => restoreGroups load rest (groups.set groupId group)

/-- The restoring case of `load_or_create`.  `prune` is the clock and the reader of key
    packages on a target that prunes at load. -/
def restore (userId deviceId : String) (state : PersistedState)
    (load : String → Except String (Option MlsGroup))
    (prune : Option (UInt64 × (Bytes → Bytes → Option UInt64))) : Except MlsError Manager :=
  let expected := userId ++ ":" ++ deviceId
  let loaded := state.identityBundle.credential
  if loaded ≠ expected then
    .error (.openMls ("Credential identity mismatch: expected " ++ expected ++
      " but state contains " ++ loaded))
  else
    match restoreGroups load state.groupIds .empty with
    | .error failure => .error failure
    | .ok groups =>
      let restored : Manager :=
        ⟨state.storageValues, state.identityBundle, groups, state.forgottenGroupMinEpochs,
         .newDirty⟩
      .ok (prune.elim restored fun (now, notAfter) =>
        (restored.pruneKeyPackagesExpiredAt notAfter now).1)

/-- The other case: nothing was saved yet. -/
def create (userId deviceId : String) (keypair : Except String Bytes) : Except MlsError Manager :=
  match keypair with
  | .error debug => .error (.openMls debug)
  | .ok bytes => .ok ⟨.empty, ⟨bytes, userId ++ ":" ++ deviceId⟩, .empty, .empty, .newDirty⟩

/-! ## 5. Creating, forgetting and dropping a group -/

section

variable (groupId : String) (wiped : Storage) (call : Call String MlsGroup)
  (loaded : Option MlsGroup)

/-- `loaded` is the orphan that `MlsGroup::load` finds, if it finds one. -/
def createGroup : Manager × Except MlsError Unit :=
  let called := manager.afterCall call
  match call.answer with
  | .ok group => ({ called with groups := called.groups.set groupId group }.markStateDirty, .ok ())
  | .error debug =>
    let failure := Except.error (.openMls ("Creation error: " ++ debug))
    if contains debug "GroupAlreadyExists" then
      match loaded with
      | some recovered =>
        ({ called with groups := called.groups.set groupId recovered }.markStateDirty, failure)
      | none => (called, failure)
    else (called, failure)

/-- `wiped` is the storage after the orphan's deletion, done or failed. -/
def forceCreateGroup : Manager × Except MlsError Unit :=
  createGroup { manager.markStateDirty with
      groups := manager.groups.erase groupId
      forgottenGroupMinEpochs := manager.forgottenGroupMinEpochs.erase groupId
      storage := wiped }
    groupId call loaded

def getEpoch : Except MlsError UInt64 :=
  match manager.groups.get? groupId with
  | none => .error (.openMls ("Group " ++ groupId ++ " not found"))
  | some group => .ok group.epoch

/-- `wiped` is the storage after `delete_group_from_storage`, done or failed. -/
def forgetGroup (minEpoch : UInt64) (wiped : Storage) : Manager :=
  { manager with
    groups := manager.groups.erase groupId
    forgottenGroupMinEpochs :=
      if 0 < minEpoch then manager.forgottenGroupMinEpochs.set groupId minEpoch
      else manager.forgottenGroupMinEpochs
    storage := wiped }.markStateDirty

/-- `u64::MAX`. -/
def maxEpoch : UInt64 := 0xFFFFFFFFFFFFFFFF

def dropGroup : Manager :=
  { manager with
    groups := manager.groups.erase groupId
    forgottenGroupMinEpochs := manager.forgottenGroupMinEpochs.set groupId maxEpoch
    storage := wiped }.markStateDirty

end

/-! ## 6. Sending -/

end Manager

inductive CreateMessageError where
  | useAfterEviction
  | other (debug : String)
deriving DecidableEq, Repr

namespace Manager

variable (manager : Manager)

def sendMessage (groupId : String) (call : GroupCall CreateMessageError MlsMessageOut) :
    Manager × Except MlsError Bytes :=
  match manager.groups.get? groupId with
  | none => (manager, .error (.groupNotFound groupId))
  | some _ =>
    let called := manager.afterGroupCall groupId call
    match call.answer with
    | .error .useAfterEviction => (called, .error (.evicted groupId))
    | .error (.other debug) => (called, .error (.openMls ("Encrypt error: " ++ debug)))
    | .ok message => (called.markStateDirty, message.mapError .serialization)

/-- The loop of `skip_send_generations`, one call for each generation still to burn. -/
def burn (groupId : String) (count : Nat) :
    Manager → List (GroupCall String MlsMessageOut) → Manager × Except MlsError Nat
  | manager, [] => (manager.markStateDirty, .ok count)
  | manager, call :: rest =>
    let called := manager.afterGroupCall groupId call
    match call.answer with
    | .error debug =>
      let burnt := count - (rest.length + 1)
      (called.markStateDirty,
       .error (.openMls (s!"Burn error after {burnt}/{count} generation(s): " ++ debug)))
    | .ok _ => burn groupId count called rest

/-- `count` is the number of calls given. -/
def skipSendGenerations (groupId : String) (calls : List (GroupCall String MlsMessageOut)) :
    Manager × Except MlsError Nat :=
  if calls.length = 0 then (manager, .ok 0)
  else
    match manager.groups.get? groupId with
    | none => (manager, .error (.groupNotFound groupId))
    | some _ => burn groupId calls.length manager calls

/-! ## 7. Receiving -/

end Manager

/-- What is in the clear in a frame's header. -/
structure ProtocolMessage where
  epoch : UInt64
  isApplication : Bool
deriving DecidableEq, Repr

inductive ProcessedMessageContent where
  | applicationMessage (bytes : Bytes)
  | stagedCommitMessage
  | proposalMessage
deriving DecidableEq, Repr

/-- A frame with what OpenMLS does with it: the header is absent when the bytes are not a
    public or private message. -/
structure IncomingFrame where
  size : Nat
  header : Option ProtocolMessage
  process : GroupCall String ProcessedMessageContent
  merge : GroupCall String Unit

def maxMlsMessageBytes : Nat := 1048576

def epochPair (message group : UInt64) : String :=
  " [msg_epoch=" ++ toString message ++ ", group_epoch=" ++ toString group ++ "]"

/-- What a refusal of `process_message` is answered with. -/
def classifyRefusal (header : ProtocolMessage) (groupEpoch : UInt64) (debug : String) :
    Except MlsError (Option Bytes) :=
  let epochs := epochPair header.epoch groupEpoch
  if header.epoch < groupEpoch then
    if header.isApplication then
      .error (.openMls ("Process error: past epoch application frame" ++ epochs))
    else .ok none
  else if contains debug "TooDistantInThePast" || contains debug "NoPastEpochData" then .ok none
  else if contains debug "CannotDecryptOwnMessage" then
    .error (.openMls ("Process error: CannotDecryptOwnMessage" ++ epochs))
  else .error (.openMls ("Process error: same-epoch refusal " ++ debug ++ epochs))

namespace Manager

variable (manager : Manager)

def processIncomingOnGroup (groupId : String) (group : MlsGroup) (frame : IncomingFrame) :
    Manager × Except MlsError (Option Bytes) :=
  if maxMlsMessageBytes < frame.size then (manager, .error .invalidData)
  else
    match frame.header with
    | none => (manager, .error .invalidData)
    | some header =>
      if !group.active then (manager, .error (.evicted groupId))
      else if group.epoch < header.epoch then
        (manager, .error (.openMls
          ("Process error: epoch gap" ++ epochPair header.epoch group.epoch)))
      else
        let called := manager.afterGroupCall groupId frame.process
        match frame.process.answer with
        | .error debug => (called, classifyRefusal header group.epoch debug)
        | .ok (.applicationMessage bytes) => (called.markStateDirty, .ok (some bytes))
        | .ok .proposalMessage => (called.markStateDirty, .ok none)
        | .ok .stagedCommitMessage =>
          let merged := called.afterGroupCall groupId frame.merge
          match frame.merge.answer with
          | .error debug => (merged, .error (.openMls ("Merge commit error: " ++ debug)))
          | .ok () => (merged.markStateDirty, .ok none)

def processIncomingMessage (groupId : String) (frame : IncomingFrame) :
    Manager × Except MlsError (Option Bytes) :=
  match manager.groups.get? groupId with
  | none => (manager, .error (.groupNotFound groupId))
  | some group => manager.processIncomingOnGroup groupId group frame

/-- A batch goes on past a frame that fails.  The group is borrowed for the whole batch; as
    nothing removes it on the way, looking it up again for each frame is the same. -/
def processIncomingMessages (groupId : String) :
    Manager → List IncomingFrame → Manager × List (Except MlsError (Option Bytes))
  | manager, [] => (manager, [])
  | manager, frame :: rest =>
    let (processed, answer) := manager.processIncomingMessage groupId frame
    let (final, answers) := processIncomingMessages groupId processed rest
    (final, answer :: answers)

/-! ## 8. Staging, merging and clearing a commit -/

end Manager

def leafIdentity (member : Member) : Except MlsError String :=
  match member.identity with
  | none => .error (.openMls ("Invalid credential for member " ++ toString member.index))
  | some (.raw _) => .error (.openMls ("Non-UTF8 credential for member " ++ toString member.index))
  | some (.utf8 text) => .ok text

def leafIndicesWhere (named : String → Bool) : List Member → Except MlsError (List Nat)
  | [] => .ok []
  | member :: rest => do
    let identity ← leafIdentity member
    let indices ← leafIndicesWhere named rest
    return if named identity then member.index :: indices else indices

/-- A leaf is a device, and a user is its prefix up to the colon. -/
def ofUsers (userIds : List String) (identity : String) : Bool :=
  userIds.any fun uid => identity == uid || identity.startsWith (uid ++ ":")

/-- The `Debug` form of a list of names. -/
def debugNames (names : List String) : String :=
  "[" ++ ", ".intercalate (names.map fun name => "\"" ++ name ++ "\"") ++ "]"

structure KeyPackage where
  bytes : Bytes
  identity : Option Identity
deriving DecidableEq, Repr

/-- What is handed to `add_members_bulk`: unreadable or invalid bytes, or a key package. -/
inductive KeyPackageIn where
  | rejected
  | valid (keyPackage : KeyPackage)
deriving DecidableEq, Repr

/-- The variables of the loop of `add_members_bulk`. -/
structure Selection where
  knownIdentities : List Identity
  keyPackages : List KeyPackage
  addedIndices : List Nat
  skippedIndices : List Nat
  anyAlreadyMember : Bool
deriving DecidableEq, Repr

def Selection.consider (selection : Selection) (entry : KeyPackageIn × Nat) : Selection :=
  match entry.1 with
  | .rejected => { selection with skippedIndices := selection.skippedIndices ++ [entry.2] }
  | .valid keyPackage =>
    if ∃ identity ∈ keyPackage.identity, identity ∈ selection.knownIdentities then
      { selection with anyAlreadyMember := true }
    else
      { selection with
        knownIdentities := keyPackage.identity.toList ++ selection.knownIdentities
        addedIndices := selection.addedIndices ++ [entry.2]
        keyPackages := selection.keyPackages ++ [keyPackage] }

def select (members : List Member) (keyPackages : List KeyPackageIn) : Selection :=
  keyPackages.zipIdx.foldl Selection.consider ⟨members.filterMap Member.identity, [], [], [], false⟩

structure AddMembersBulkResult where
  commit : Bytes
  welcome : Bytes
  addedIndices : List Nat
  skippedIndices : List Nat
deriving DecidableEq, Repr

namespace Manager

variable (manager : Manager)

section

variable (groupId : String) (call : GroupCall String Unit)

/-- The two removals differ in what names a leaf. -/
def removeMembers (names : List String) (named : String → Bool)
    (call : GroupCall String MlsMessageOut) : Manager × Except MlsError Bytes :=
  match manager.groups.get? groupId with
  | none => (manager, .error (.groupNotFound groupId))
  | some group =>
    match leafIndicesWhere named group.members with
    | .error failure => (manager, .error failure)
    | .ok [] =>
      (manager, .error (.noSuchMember
        ("no leaf carries any of the identities " ++ debugNames names)))
    | .ok (_ :: _) =>
      let called := manager.afterGroupCall groupId call
      match call.answer with
      | .error debug => (called, .error (.openMls ("RemoveMembers error: " ++ debug)))
      | .ok commit => (called.markStateDirty, commit.mapError .openMls)

def removeMembersForUsers (userIds : List String)
    (call : GroupCall String MlsMessageOut) : Manager × Except MlsError Bytes :=
  manager.removeMembers groupId userIds (ofUsers userIds) call

def removeMembersForDevices (deviceIdentities : List String)
    (call : GroupCall String MlsMessageOut) : Manager × Except MlsError Bytes :=
  manager.removeMembers groupId deviceIdentities deviceIdentities.contains call

/-- `call` is what OpenMLS does with the key packages handed to `add_members`.  The commit and
    the Welcome are serialised before the snapshot is marked. -/
def addMembersBulk (keyPackages : List KeyPackageIn)
    (call : List KeyPackage → GroupCall String (MlsMessageOut × MlsMessageOut)) :
    Manager × Except MlsError AddMembersBulkResult :=
  match manager.groups.get? groupId with
  | none => (manager, .error (.groupNotFound groupId))
  | some group =>
    let selection := select group.members keyPackages
    if selection.keyPackages = [] then
      (manager, .error (if selection.anyAlreadyMember then
          .alreadyMember "All KeyPackages already belong to existing group members"
        else .openMls "No valid KeyPackages to add"))
    else
      let made := call selection.keyPackages
      let called := manager.afterGroupCall groupId made
      match made.answer with
      | .error debug => (called, .error (.openMls ("AddMembers error: " ++ debug)))
      | .ok (commit, welcome) =>
        match commit, welcome with
        | .error debug, _ => (called, .error (.openMls debug))
        | .ok _, .error debug => (called, .error (.openMls debug))
        | .ok commitBytes, .ok welcomeBytes =>
          (called.markStateDirty, .ok ⟨commitBytes, welcomeBytes, selection.addedIndices,
             selection.skippedIndices⟩)

/-- Merging and clearing differ in the call and in the text of the failure. -/
def settlePendingCommit (groupId label : String) (call : GroupCall String Unit) :
    Manager × Except MlsError Unit :=
  match manager.groups.get? groupId with
  | none => (manager, .error (.groupNotFound groupId))
  | some _ =>
    let called := manager.afterGroupCall groupId call
    match call.answer with
    | .error debug => (called, .error (.openMls (label ++ debug)))
    | .ok () => (called.markStateDirty, .ok ())

def mergePendingCommitFor : Manager × Except MlsError Unit :=
  manager.settlePendingCommit groupId "Merge pending commit error: " call

def clearPendingCommitFor : Manager × Except MlsError Unit :=
  manager.settlePendingCommit groupId "Clear pending commit error: " call

/-- `exported` is what the tree or the group info serialises to. -/
def exportFor (exported : Except String Bytes) : Except MlsError Bytes :=
  match manager.groups.get? groupId with
  | none => .error (.groupNotFound groupId)
  | some _ => exported.mapError .openMls

end

/-! ## 9. Joining -/

end Manager

inductive ExternalCommitStep where
  | buildGroup
  | loadPsks
  | build
  | finalize
deriving DecidableEq, Repr

def ExternalCommitStep.label : ExternalCommitStep → String
  | .buildGroup => "join_by_external_commit: "
  | .loadPsks => "join_by_external_commit load_psks: "
  | .build => "join_by_external_commit build: "
  | .finalize => "join_by_external_commit finalize: "

/-- A served GroupInfo with what the external commit builder does with it: the group made
    from it and the commit, or the step that failed. -/
structure ServedGroupInfo where
  readable : Bool
  call : Call (ExternalCommitStep × String) (MlsGroup × MlsMessageOut)

/-- A Welcome with what OpenMLS does with it.  `secrets` is the number of its secrets. -/
structure IncomingWelcome where
  readable : Bool
  treeReadable : Bool
  secrets : Nat
  staged : Call String (String × UInt64)
  joined : Call String MlsGroup

namespace Manager

variable (manager : Manager)

/-- The group is stored by `finalize`, before the guard is read. -/
def joinByExternalCommit (served : ServedGroupInfo) : Manager × Except MlsError (String × Bytes) :=
  if !served.readable then (manager, .error .invalidData)
  else
    let called := manager.afterCall served.call
    match served.call.answer with
    | .error (failed, debug) => (called, .error (.openMls (failed.label ++ debug)))
    | .ok (group, commit) =>
      match manager.groups.get? group.groupId with
      | some _ =>
        (called, .error (.openMls ("join_by_external_commit: group " ++ group.groupId ++
          " already present locally")))
      | none =>
        match commit with
        | .error debug => (called, .error (.openMls debug))
        | .ok bytes =>
          ({ called with groups := called.groups.set group.groupId group }.markStateDirty,
           .ok (group.groupId, bytes))

section

variable (groupId : String) (epoch : UInt64)

/-- A Welcome at epoch 0 for a group at a later one: a re-bootstrap. -/
def rebootstraps : Bool :=
  (manager.groups.get? groupId).elim false fun held => epoch == 0 && decide (0 < held.epoch)

def liftFloor : Manager :=
  { manager with forgottenGroupMinEpochs := manager.forgottenGroupMinEpochs.erase groupId }

/-- The first guard: `none` when a group already held is kept. -/
def passActive : Option Manager :=
  match manager.groups.get? groupId with
  | none => some manager
  | some _ => if manager.rebootstraps groupId epoch then some (manager.liftFloor groupId) else none

/-- The second guard: an epoch below the floor is refused, except for epoch 0. -/
def passFloor : Except MlsError Manager :=
  match manager.forgottenGroupMinEpochs.get? groupId with
  | none => .ok manager
  | some floor =>
    if epoch = 0 then .ok (manager.liftFloor groupId)
    else if epoch < floor then
      .error (.openMls ("Welcome stale: epoch " ++ toString epoch ++ " < min_epoch " ++
        toString floor))
    else .ok (manager.liftFloor groupId)

end

def processWelcome (welcome : IncomingWelcome) : Manager × Except MlsError String :=
  if !welcome.readable || !welcome.treeReadable then (manager, .error .invalidData)
  else
    let called := manager.afterCall welcome.staged
    match welcome.staged.answer with
    | .error debug =>
      (called, .error (.openMls ("Join error (staged): " ++ debug ++ " [n_secrets=" ++
        toString welcome.secrets ++ "]")))
    | .ok (groupId, epoch) =>
      match called.passActive groupId epoch with
      | none => (called, .ok groupId)
      | some admitted =>
        match admitted.passFloor groupId epoch with
        | .error failure => (admitted, .error failure)
        | .ok cleared =>
          let joined := cleared.afterCall welcome.joined
          match welcome.joined.answer with
          | .error debug => (joined, .error (.openMls ("Join error (into_group): " ++ debug)))
          | .ok group =>
            ({ joined with groups := joined.groups.set groupId group }.markStateDirty, .ok groupId)

end Manager

end MinesApp.MlsManager
