import MinesApp.MlsManager
import MinesApp.TransitionSystem

/-!
# What `save_state` returns

`save_state` answers from a cached snapshot until a method marks it stale
(`StateSnapshotCache` and `mark_state_dirty`, `frontend/mls-core/src/state.rs`), so
it is right only if no method leaves without the mark after it has changed
something.  The mark is the last step of most methods, behind every `?`: a method
that returns an error early has not reached it.

The results follow a manager through any sequence of its methods.  What OpenMLS
writes before it refuses is not the manager's choice, so the condition under which
every snapshot is current is one on those writes (`Unwritten`).
-/

namespace MinesApp.ManagerSnapshot

open MlsManager TransitionSystem OrderedMap DirtyCache Option Manager

/-! ## 1. Sequences of public methods -/

/-- A call of a public method, with what OpenMLS does during it. -/
inductive Operation where
  | createGroup (groupId : String) (call : Call String MlsGroup) (loaded : Option MlsGroup)
  | forceCreateGroup (groupId : String) (wiped : Storage) (call : Call String MlsGroup)
      (loaded : Option MlsGroup)
  | forgetGroup (groupId : String) (minEpoch : UInt64) (wiped : Storage)
  | dropGroup (groupId : String) (wiped : Storage)
  | sendMessage (groupId : String) (call : GroupCall CreateMessageError MlsMessageOut)
  | skipSendGenerations (groupId : String) (calls : List (GroupCall String MlsMessageOut))
  | processIncomingMessage (groupId : String) (frame : IncomingFrame)
  | processIncomingMessages (groupId : String) (frames : List IncomingFrame)
  | removeMembersForUsers (groupId : String) (userIds : List String)
      (call : GroupCall String MlsMessageOut)
  | removeMembersForDevices (groupId : String) (deviceIdentities : List String)
      (call : GroupCall String MlsMessageOut)
  | addMembersBulk (groupId : String) (keyPackages : List KeyPackageIn)
      (call : List KeyPackage → GroupCall String (MlsMessageOut × MlsMessageOut))
  | mergePendingCommitFor (groupId : String) (call : GroupCall String Unit)
  | clearPendingCommitFor (groupId : String) (call : GroupCall String Unit)
  | joinByExternalCommit (served : ServedGroupInfo)
  | processWelcome (welcome : IncomingWelcome)
  | generateKeyPackages (calls : List (Call (KeyPackageStep × String) MlsMessageOut))
  | pruneKeyPackagesExpiredAt (notAfter : Bytes → Bytes → Option UInt64) (now : UInt64)
  | saveState (failure : Option MlsError)
  | invalidatePersistedSnapshot

section

variable (manager : Manager)

def after : Operation → Manager
  | .createGroup groupId call loaded => (manager.createGroup groupId call loaded).1
  | .forceCreateGroup groupId wiped call loaded =>
    (manager.forceCreateGroup groupId wiped call loaded).1
  | .forgetGroup groupId minEpoch wiped => manager.forgetGroup groupId minEpoch wiped
  | .dropGroup groupId wiped => manager.dropGroup groupId wiped
  | .sendMessage groupId call => (manager.sendMessage groupId call).1
  | .skipSendGenerations groupId calls => (manager.skipSendGenerations groupId calls).1
  | .processIncomingMessage groupId frame => (manager.processIncomingMessage groupId frame).1
  | .processIncomingMessages groupId frames =>
    (processIncomingMessages groupId manager frames).1
  | .removeMembersForUsers groupId userIds call =>
    (manager.removeMembersForUsers groupId userIds call).1
  | .removeMembersForDevices groupId deviceIdentities call =>
    (manager.removeMembersForDevices groupId deviceIdentities call).1
  | .addMembersBulk groupId keyPackages call =>
    (manager.addMembersBulk groupId keyPackages call).1
  | .mergePendingCommitFor groupId call => (manager.mergePendingCommitFor groupId call).1
  | .clearPendingCommitFor groupId call => (manager.clearPendingCommitFor groupId call).1
  | .joinByExternalCommit served => (manager.joinByExternalCommit served).1
  | .processWelcome welcome => (manager.processWelcome welcome).1
  | .generateKeyPackages calls => (generateKeyPackages manager calls).1
  | .pruneKeyPackagesExpiredAt notAfter now => (manager.pruneKeyPackagesExpiredAt notAfter now).1
  | .saveState failure => (manager.saveState failure).1
  | .invalidatePersistedSnapshot => manager.markStateDirty

def step (operation : Operation) : Option Manager :=
  some (after manager operation)

/-- A manager as `load_or_create` returns it. -/
def Loaded : Prop :=
  (∃ userId deviceId state load prune, restore userId deviceId state load prune = .ok manager) ∨
  ∃ userId deviceId keypair, create userId deviceId keypair = .ok manager

end

/-! ## 2. What was written before a refusal -/

/-- A refused call has written nothing. -/
def QuietCall {Failure Answer : Type} (before : Storage) (call : Call Failure Answer) : Prop :=
  ∀ failure, call.answer = .error failure → call.storage = before

/-- The same of a frame, whose commit is merged by a second call: a merge that is refused
    leaves what was there before the frame. -/
def QuietFrame (before : Storage) (frame : IncomingFrame) : Prop :=
  QuietCall before frame.process.toCall ∧ QuietCall before frame.merge.toCall

def QuietFrames (groupId : String) : Manager → List IncomingFrame → Prop
  | _, [] => True
  | manager, frame :: rest =>
    QuietFrame manager.storage frame ∧
      QuietFrames groupId (manager.processIncomingMessage groupId frame).1 rest

def QuietCalls {Failure Answer : Type} : Storage → List (Call Failure Answer) → Prop
  | _, [] => True
  | before, call :: rest => QuietCall before call ∧ QuietCalls call.storage rest

/-- Nothing was written on a path that does not reach the mark.  Three methods can leave
    without it after a call that succeeded: `add_members_bulk` when a message does not
    serialise, `join_by_external_commit` for that reason or because the group is held, and
    `process_welcome`, which lifts the floor before `into_group` is called. -/
def Unwritten (manager : Manager) : Operation → Prop
  | .createGroup _ call _ => QuietCall manager.storage call
  | .sendMessage _ call => QuietCall manager.storage call.toCall
  | .processIncomingMessage _ frame => QuietFrame manager.storage frame
  | .processIncomingMessages groupId frames => QuietFrames groupId manager frames
  | .removeMembersForUsers _ _ call => QuietCall manager.storage call.toCall
  | .removeMembersForDevices _ _ call => QuietCall manager.storage call.toCall
  | .addMembersBulk groupId keyPackages call =>
    ∀ group, manager.groups.get? groupId = some group →
      let made := call (select group.members keyPackages).keyPackages
      QuietCall manager.storage made.toCall ∧
        ∀ commit welcome, made.answer = .ok (commit, welcome) →
          (∃ commitBytes welcomeBytes, commit = .ok commitBytes ∧ welcome = .ok welcomeBytes) ∨
            made.storage = manager.storage
  | .mergePendingCommitFor _ call => QuietCall manager.storage call.toCall
  | .clearPendingCommitFor _ call => QuietCall manager.storage call.toCall
  | .joinByExternalCommit served =>
    QuietCall manager.storage served.call ∧
      ∀ group commit, served.call.answer = .ok (group, commit) →
        (manager.groups.get? group.groupId = none ∧ ∃ bytes, commit = .ok bytes) ∨
          served.call.storage = manager.storage
  | .processWelcome welcome =>
    welcome.staged.storage = manager.storage ∧ QuietCall manager.storage welcome.joined ∧
      ∀ failure groupId epoch, welcome.joined.answer = .error failure →
        welcome.staged.answer = .ok (groupId, epoch) →
          manager.forgottenGroupMinEpochs.get? groupId = none
  | .generateKeyPackages calls => QuietCalls manager.storage calls
  | _ => True

/-! ## 3. Each method keeps the snapshot right -/

def Coherent (manager : Manager) : Prop :=
  manager.stateSnapshot.Fresh manager.serializeState

variable {groupId : String} {epoch : UInt64}

theorem coherent_markStateDirty (manager : Manager) : Coherent manager.markStateDirty :=
  fresh_of_dirty rfl _

variable {manager : Manager}

section

variable (h : Coherent manager)
include h

/-- **Unmarked exits.**  What the snapshot is built from is what it was. -/
theorem Coherent.unchanged {next : Manager} (hcache : next.stateSnapshot = manager.stateSnapshot)
    (hstate : next.serializeState = manager.serializeState) : Coherent next := by
  unfold Coherent
  rw [hcache, hstate]
  exact h

theorem Coherent.afterCall {Failure Answer : Type} {call : Call Failure Answer}
    (hstorage : call.storage = manager.storage) : Coherent (manager.afterCall call) := by
  refine h.unchanged rfl ?_
  simp only [Manager.serializeState, Manager.afterCall, hstorage]

theorem Coherent.afterGroupCall {Failure Answer : Type} {call : GroupCall Failure Answer}
    {group : MlsGroup} (hheld : manager.groups.get? groupId = some group)
    (hstorage : call.storage = manager.storage) :
    Coherent (manager.afterGroupCall groupId call) := by
  have hkeys : (manager.groups.set groupId call.group).keys = manager.groups.keys := by
    apply keys_set
    rw [hheld]
    exact some_ne_none group
  refine h.unchanged rfl ?_
  simp only [Manager.serializeState, Manager.afterGroupCall, Manager.afterCall, hkeys, hstorage]

theorem Coherent.createGroup {call : Call String MlsGroup}
    {loaded : Option MlsGroup} (hquiet : QuietCall manager.storage call) :
    Coherent (manager.createGroup groupId call loaded).1 := by
  unfold Manager.createGroup
  split
  · exact coherent_markStateDirty _
  next debug hanswer =>
    have hunchanged : Coherent (manager.afterCall call) := h.afterCall (hquiet debug hanswer)
    split
    · split
      · exact coherent_markStateDirty _
      · exact hunchanged
    · exact hunchanged

end

theorem dirty_createGroup {call : Call String MlsGroup}
    {loaded : Option MlsGroup} (hdirty : manager.stateSnapshot.dirty = true) :
    (manager.createGroup groupId call loaded).1.stateSnapshot.dirty = true := by
  unfold createGroup
  split
  · rfl
  split
  · split
    · rfl
    · exact hdirty
  · exact hdirty

theorem Coherent.sendMessage {call : GroupCall CreateMessageError MlsMessageOut}
    (h : Coherent manager) (hquiet : QuietCall manager.storage call.toCall) :
    Coherent (manager.sendMessage groupId call).1 := by
  unfold Manager.sendMessage
  split
  · exact h
  next group hheld =>
    split
    next hanswer => exact h.afterGroupCall hheld (hquiet _ hanswer)
    next debug hanswer => exact h.afterGroupCall hheld (hquiet _ hanswer)
    · exact coherent_markStateDirty _

theorem coherent_burn (groupId : String) (count : Nat) (manager : Manager)
    (calls : List (GroupCall String MlsMessageOut)) :
    Coherent (burn groupId count manager calls).1 := by
  induction calls generalizing manager with
  | nil => exact coherent_markStateDirty _
  | cons call rest ih =>
    unfold burn
    split
    · exact coherent_markStateDirty _
    · exact ih _

section

variable (h : Coherent manager)
include h

theorem Coherent.skipSendGenerations {calls : List (GroupCall String MlsMessageOut)} :
    Coherent (manager.skipSendGenerations groupId calls).1 := by
  unfold Manager.skipSendGenerations
  split
  · exact h
  split
  · exact h
  · exact coherent_burn _ _ _ _

theorem Coherent.processIncomingMessage {frame : IncomingFrame}
    (hquiet : QuietFrame manager.storage frame) :
    Coherent (manager.processIncomingMessage groupId frame).1 := by
  obtain ⟨hprocess, hmerge⟩ := hquiet
  unfold Manager.processIncomingMessage
  split
  · exact h
  next group hheld =>
    unfold Manager.processIncomingOnGroup
    split
    · exact h
    split
    · exact h
    split
    · exact h
    split
    · exact h
    split
    next debug hanswer => exact h.afterGroupCall hheld (hprocess debug hanswer)
    · exact coherent_markStateDirty _
    · exact coherent_markStateDirty _
    · split
      · -- the merge is refused: the group was written twice, the storage not at all
        rename_i debug hanswer
        have hkeys : ∀ second : MlsGroup,
            ((manager.groups.set groupId frame.process.group).set groupId second).keys =
              manager.groups.keys := by
          intro second
          rw [keys_set, keys_set]
          · rw [hheld]
            exact some_ne_none group
          · rw [get?_set_self]
            exact some_ne_none _
        refine h.unchanged rfl ?_
        simp only [Manager.serializeState, Manager.afterGroupCall, Manager.afterCall, hkeys,
          hmerge debug hanswer]
      · exact coherent_markStateDirty _

theorem Coherent.processIncomingMessages {frames : List IncomingFrame}
    (hquiet : QuietFrames groupId manager frames) :
    Coherent (processIncomingMessages groupId manager frames).1 := by
  induction frames generalizing manager with
  | nil => exact h
  | cons frame rest ih =>
    obtain ⟨hframe, hrest⟩ := hquiet
    exact ih (h.processIncomingMessage hframe) hrest

theorem Coherent.removeMembers {names : List String} {named : String → Bool}
    {call : GroupCall String MlsMessageOut} (hquiet : QuietCall manager.storage call.toCall) :
    Coherent (manager.removeMembers groupId names named call).1 := by
  unfold Manager.removeMembers
  split
  · exact h
  next group hheld =>
    split
    · exact h
    · exact h
    · split
      next debug hanswer => exact h.afterGroupCall hheld (hquiet debug hanswer)
      · exact coherent_markStateDirty _

theorem Coherent.addMembersBulk {keyPackages : List KeyPackageIn}
    {call : List KeyPackage → GroupCall String (MlsMessageOut × MlsMessageOut)}
    (hquiet : Unwritten manager (.addMembersBulk groupId keyPackages call)) :
    Coherent (manager.addMembersBulk groupId keyPackages call).1 := by
  unfold Manager.addMembersBulk
  split
  · exact h
  next group hheld =>
    obtain ⟨hrefused, hserialised⟩ := hquiet group hheld
    dsimp only
    split
    · exact h
    split
    next debug hanswer => exact h.afterGroupCall hheld (hrefused debug hanswer)
    next commit welcome hanswer =>
      split
      · rcases hserialised _ _ hanswer with ⟨_, _, hcommit, _⟩ | hstorage
        · cases hcommit
        · exact h.afterGroupCall hheld hstorage
      · rcases hserialised _ _ hanswer with ⟨_, _, _, hwelcome⟩ | hstorage
        · cases hwelcome
        · exact h.afterGroupCall hheld hstorage
      · exact coherent_markStateDirty _

theorem Coherent.settlePendingCommit {label : String} {call : GroupCall String Unit}
    (hquiet : QuietCall manager.storage call.toCall) :
    Coherent (manager.settlePendingCommit groupId label call).1 := by
  unfold Manager.settlePendingCommit
  split
  · exact h
  next group hheld =>
    split
    next debug hanswer => exact h.afterGroupCall hheld (hquiet debug hanswer)
    · exact coherent_markStateDirty _

theorem Coherent.joinByExternalCommit {served : ServedGroupInfo}
    (hquiet : Unwritten manager (.joinByExternalCommit served)) :
    Coherent (manager.joinByExternalCommit served).1 := by
  obtain ⟨hrefused, hbuilt⟩ := hquiet
  unfold Manager.joinByExternalCommit
  split
  · exact h
  split
  next failed debug hanswer => exact h.afterCall (hrefused _ hanswer)
  next group commit hanswer =>
    split
    next held hheld =>
      rcases hbuilt _ _ hanswer with ⟨hfree, _⟩ | hstorage
      · rw [hheld] at hfree
        cases hfree
      · exact h.afterCall hstorage
    · split
      · rcases hbuilt _ _ hanswer with ⟨_, _, hbytes⟩ | hstorage
        · cases hbytes
        · exact h.afterCall hstorage
      · exact coherent_markStateDirty _

end

/-! ### A Welcome -/

/-- Whether a staged Welcome passes both guards: the group is not held or the Welcome is its
    re-bootstrap, and it is not below the floor. -/
def Admits (manager : Manager) (groupId : String) (epoch : UInt64) : Prop :=
  (manager.groups.get? groupId = none ∨ manager.rebootstraps groupId epoch = true) ∧
    ∀ floor ∈ manager.forgottenGroupMinEpochs.get? groupId, epoch = 0 ∨ floor ≤ epoch

/-- The group is held, and the Welcome is not its re-bootstrap. -/
def Ignored (manager : Manager) (welcome : IncomingWelcome) : Prop :=
  ∃ groupId epoch, welcome.staged.answer = .ok (groupId, epoch) ∧
    manager.groups.get? groupId ≠ none ∧ manager.rebootstraps groupId epoch = false

theorem liftFloor_of_none (hnone : manager.forgottenGroupMinEpochs.get? groupId = none) :
    manager.liftFloor groupId = manager := by
  simp only [liftFloor, erase_eq_self.mpr hnone]

theorem passFloor_of_none (hnone : manager.forgottenGroupMinEpochs.get? groupId = none) :
    manager.passFloor groupId epoch = .ok manager := by
  unfold passFloor
  rw [hnone]

/-- An epoch that is not below the floor lifts it. -/
theorem passFloor_eq_ok
    (hfloor : ∀ floor ∈ manager.forgottenGroupMinEpochs.get? groupId, epoch = 0 ∨ floor ≤ epoch) :
    manager.passFloor groupId epoch = .ok (manager.liftFloor groupId) := by
  cases hget : manager.forgottenGroupMinEpochs.get? groupId with
  | none => rw [passFloor_of_none hget, liftFloor_of_none hget]
  | some floor =>
    unfold passFloor
    rw [hget]
    dsimp only
    rcases hfloor floor hget with hzero | hle
    · rw [if_pos hzero]
    · rw [if_neg (UInt64.not_lt.mpr hle), ite_self]

theorem passed_of_admits (h : Admits manager groupId epoch) :
    ∃ admitted, manager.passActive groupId epoch = some admitted ∧
      admitted.passFloor groupId epoch = .ok (manager.liftFloor groupId) := by
  obtain ⟨hactive, hfloor⟩ := h
  unfold passActive
  cases hget : manager.groups.get? groupId with
  | none => exact ⟨manager, rfl, passFloor_eq_ok hfloor⟩
  | some held =>
    have hrebootstraps := hactive.resolve_left (by simp [hget])
    refine ⟨manager.liftFloor groupId, by simp [hrebootstraps], passFloor_of_none ?_⟩
    exact (get?_erase _ _ _).trans (if_pos rfl)

theorem stopped_of_not_admits (h : ¬Admits manager groupId epoch) :
    manager.passActive groupId epoch = none ∨ manager.passActive groupId epoch = some manager ∧
      ∃ failure, manager.passFloor groupId epoch = .error failure := by
  unfold passActive
  cases hget : manager.groups.get? groupId with
  | none =>
    refine .inr ⟨rfl, ?_⟩
    unfold passFloor
    cases hfloors : manager.forgottenGroupMinEpochs.get? groupId with
    | none => exact absurd ⟨.inl hget, by simp [hfloors]⟩ h
    | some floor =>
      have hbelow : epoch ≠ 0 ∧ epoch < floor := by
        simpa [Admits, hget, hfloors] using h
      exact ⟨_, (if_neg hbelow.1).trans (if_pos hbelow.2)⟩
  | some held =>
    -- a re-bootstrap is at epoch 0, which no floor stops
    refine .inl (if_neg fun hrebootstraps => h ⟨.inr hrebootstraps, fun _ _ => .inl ?_⟩)
    simp only [rebootstraps, hget, Option.elim_some, Bool.and_eq_true, beq_iff_eq] at hrebootstraps
    exact hrebootstraps.1

section

variable {welcome : IncomingWelcome} (hreadable : welcome.readable = true ∧
  welcome.treeReadable = true)
include hreadable

/-- An admitted Welcome lifts the floor and then goes to `into_group`. -/
theorem processWelcome_of_admits (hstaged : welcome.staged.answer = .ok (groupId, epoch))
    (hadmits : Admits manager groupId epoch) :
    manager.processWelcome welcome =
      let joined := (manager.liftFloor groupId).afterCall welcome.joined
      match welcome.joined.answer with
      | .error debug => (joined, .error (.openMls ("Join error (into_group): " ++ debug)))
      | .ok group => ({ joined with
          groups := joined.groups.set groupId group }.markStateDirty, .ok groupId) := by
  have hadmits' : Admits (manager.afterCall welcome.staged) groupId epoch := hadmits
  obtain ⟨admitted, hactive, hfloor⟩ := passed_of_admits hadmits'
  simp only [processWelcome, hreadable, hstaged, hactive, hfloor]
  rfl

/-- A Welcome that is not admitted reaches the storage only, in the staging. -/
theorem processWelcome_of_stopped (hstopped : ∀ groupId epoch,
      welcome.staged.answer = .ok (groupId, epoch) → ¬Admits manager groupId epoch) :
    (manager.processWelcome welcome).1 = manager.afterCall welcome.staged := by
  cases hstaged : welcome.staged.answer with
  | error debug => simp [processWelcome, hreadable, hstaged]
  | ok answer =>
    obtain ⟨groupId, epoch⟩ := answer
    have hadmits : ¬Admits (manager.afterCall welcome.staged) groupId epoch :=
      hstopped groupId epoch hstaged
    rcases stopped_of_not_admits hadmits with hkept | ⟨hfree, failure, hrefused⟩
    · simp [processWelcome, hreadable, hstaged, hkept]
    · simp [processWelcome, hreadable, hstaged, hfree, hrefused]

end

theorem Coherent.processWelcome {welcome : IncomingWelcome} (h : Coherent manager)
    (hquiet : Unwritten manager (.processWelcome welcome)) :
    Coherent (manager.processWelcome welcome).1 := by
  obtain ⟨hstaged, hjoined, hfloor⟩ := hquiet
  by_cases hreadable : welcome.readable = true ∧ welcome.treeReadable = true
  · by_cases hadmits : ∃ groupId epoch, welcome.staged.answer = .ok (groupId, epoch) ∧
        Admits manager groupId epoch
    · obtain ⟨groupId, epoch, hanswer, hadmits⟩ := hadmits
      rw [processWelcome_of_admits hreadable hanswer hadmits]
      cases hfailed : welcome.joined.answer with
      | error debug =>
        rw [liftFloor_of_none (hfloor debug groupId epoch hfailed hanswer)]
        exact h.afterCall (hjoined debug hfailed)
      | ok group => exact coherent_markStateDirty _
    · rw [processWelcome_of_stopped hreadable fun groupId epoch hanswer hadmits' =>
        hadmits ⟨groupId, epoch, hanswer, hadmits'⟩]
      exact h.afterCall hstaged
  · have hunread : (!welcome.readable || !welcome.treeReadable) = true := by
      simpa [Classical.or_iff_not_imp_left] using hreadable
    simpa only [Manager.processWelcome, hunread, if_true] using h

/-! ### Key packages and the snapshot itself -/

theorem Coherent.buildKeyPackage {call : Call (KeyPackageStep × String) MlsMessageOut}
    (h : Coherent manager) (hquiet : QuietCall manager.storage call) :
    Coherent (manager.buildKeyPackage call).1 := by
  unfold Manager.buildKeyPackage
  split
  next failed debug hanswer => exact h.afterCall (hquiet _ hanswer)
  · exact coherent_markStateDirty _

theorem storage_buildKeyPackage (manager : Manager)
    (call : Call (KeyPackageStep × String) MlsMessageOut) :
    (manager.buildKeyPackage call).1.storage = call.storage := by
  unfold buildKeyPackage
  split
  · rfl
  · rfl

theorem Coherent.generateKeyPackages {calls : List (Call (KeyPackageStep × String) MlsMessageOut)}
    (h : Coherent manager) (hquiet : QuietCalls manager.storage calls) :
    Coherent (generateKeyPackages manager calls).1 := by
  induction calls generalizing manager with
  | nil => exact h
  | cons call rest ih =>
    obtain ⟨hcall, hrest⟩ := hquiet
    have hbuilt := h.buildKeyPackage hcall
    rw [← storage_buildKeyPackage manager call] at hrest
    unfold generateKeyPackages
    split
    next built failure heq =>
      rw [heq] at hbuilt
      exact hbuilt
    next built bytes heq =>
      rw [heq] at hbuilt hrest
      have hfinal := ih hbuilt hrest
      split
      next final failure hgenerated =>
        rw [hgenerated] at hfinal
        exact hfinal
      next final others hgenerated =>
        rw [hgenerated] at hfinal
        exact hfinal

/-- Pruning marks exactly when it removes something. -/
theorem Coherent.pruneKeyPackagesExpiredAt {notAfter : Bytes → Bytes → Option UInt64} {now : UInt64}
    (h : Coherent manager) : Coherent (manager.pruneKeyPackagesExpiredAt notAfter now).1 := by
  unfold Manager.pruneKeyPackagesExpiredAt
  dsimp only
  split
  · exact coherent_markStateDirty _
  next hnothing =>
    have hnil := List.length_eq_zero_iff.mp (Nat.eq_zero_of_not_pos hnothing)
    refine h.unchanged rfl ?_
    rw [hnil]
    rfl

theorem Coherent.saveState {failure : Option MlsError} (h : Coherent manager) :
    Coherent (manager.saveState failure).1 ∧
      ∀ saved, (manager.saveState failure).2 = .ok saved → saved = manager.serializeState := by
  refine Fresh.getOrBuild h fun built hbuilt => ?_
  cases failure with
  | none => exact (Except.ok.inj hbuilt).symm
  | some failure => cases hbuilt

/-! ## 4. Every sequence -/

theorem Coherent.after {operation : Operation} (h : Coherent manager)
    (hquiet : Unwritten manager operation) : Coherent (after manager operation) := by
  cases operation with
  | createGroup groupId call loaded => exact h.createGroup hquiet
  | forceCreateGroup groupId wiped call loaded =>
    apply fresh_of_dirty
    apply dirty_createGroup
    rfl
  | forgetGroup groupId minEpoch wiped | dropGroup groupId wiped | invalidatePersistedSnapshot =>
    exact coherent_markStateDirty _
  | sendMessage groupId call => exact h.sendMessage hquiet
  | skipSendGenerations groupId calls => exact h.skipSendGenerations
  | processIncomingMessage groupId frame => exact h.processIncomingMessage hquiet
  | processIncomingMessages groupId frames => exact h.processIncomingMessages hquiet
  | removeMembersForUsers groupId userIds call
  | removeMembersForDevices groupId deviceIdentities call => exact h.removeMembers hquiet
  | addMembersBulk groupId keyPackages call => exact h.addMembersBulk hquiet
  | mergePendingCommitFor groupId call | clearPendingCommitFor groupId call =>
    exact h.settlePendingCommit hquiet
  | joinByExternalCommit served => exact h.joinByExternalCommit hquiet
  | processWelcome welcome => exact h.processWelcome hquiet
  | generateKeyPackages calls => exact h.generateKeyPackages hquiet
  | pruneKeyPackagesExpiredAt notAfter now => exact h.pruneKeyPackagesExpiredAt
  | saveState failure => exact h.saveState.1

theorem coherent_restore {userId deviceId : String} {state : PersistedState}
    {load : String → Except String (Option MlsGroup)}
    {prune : Option (UInt64 × (Bytes → Bytes → Option UInt64))}
    (h : restore userId deviceId state load prune = .ok manager) : Coherent manager := by
  unfold restore at h
  dsimp only at h
  split at h
  · cases h
  split at h
  · cases h
  next groups _ =>
    cases h
    cases prune with
    | none => exact fresh_of_dirty rfl _
    | some clock => exact Coherent.pruneKeyPackagesExpiredAt (fresh_of_dirty rfl _)

theorem Loaded.coherent (h : Loaded manager) : Coherent manager := by
  rcases h with ⟨_, _, _, _, _, hrestore⟩ | ⟨_, _, keypair, hcreate⟩
  · exact coherent_restore hrestore
  · cases keypair with
    | error debug => cases hcreate
    | ok bytes =>
      cases hcreate
      exact fresh_of_dirty rfl _

/-- **Snapshots are current.**  After any sequence of methods in which nothing was written on
    a path that does not reach the mark, `save_state` returns the storage, the group ids, the
    identity and the floors that the manager has then. -/
theorem save_state_current {start final : Manager} {operations : List Operation}
    (hstart : Loaded start) (hquiet : EachStep step Unwritten start operations)
    (hrun : run step start operations = some final) (failure : Option MlsError)
    {saved : PersistedState} (hsaved : (final.saveState failure).2 = .ok saved) :
    saved = final.serializeState := by
  have hcoherent : Coherent final := by
    refine run_invariant ?_ hstart.coherent hquiet hrun
    intro manager operation next hmanager hok hstep
    cases hstep
    exact hmanager.after hok
  exact hcoherent.saveState.2 saved hsaved

/-- What `load_or_create` makes of a first start. -/
def firstStart : Manager := ⟨.empty, ⟨[7], "ada:phone"⟩, .empty, .empty, .newDirty⟩

theorem loaded_firstStart : Loaded firstStart := .inr ⟨"ada", "phone", .ok [7], rfl⟩

/-- A Welcome at epoch 7, which writes `written` when it becomes a group. -/
def welcomeAt7 (written : Storage) (joined : Except String MlsGroup) : IncomingWelcome :=
  ⟨true, true, 1, ⟨.empty, .ok ("salon", 7)⟩, ⟨written, joined⟩⟩

def completedJoin : List Operation :=
  [.forgetGroup "salon" 5 .empty, .saveState none,
   .processWelcome (welcomeAt7 (.ofPairs [([1], [2])]) (.ok ⟨"salon", 7, true, [], none⟩))]

theorem save_state_current_completedJoin :
    ∃ final saved, run step firstStart completedJoin = some final ∧
      (final.saveState none).2 = .ok saved ∧ saved.groupIds = ["salon"] ∧
      saved = final.serializeState := by
  have hquiet : EachStep step Unwritten firstStart completedJoin := by
    refine ⟨trivial, ?_⟩
    rintro _ ⟨⟩
    refine ⟨trivial, ?_⟩
    rintro _ ⟨⟩
    refine ⟨⟨rfl, nofun, nofun⟩, ?_⟩
    rintro _ ⟨⟩
    trivial
  exact ⟨_, _, rfl, rfl, rfl, save_state_current loaded_firstStart hquiet rfl none rfl⟩

/-! ## 5. A floor lifted by a join that fails -/

def failedJoin : List Operation :=
  [.forgetGroup "salon" 5 .empty, .saveState none,
   .processWelcome (welcomeAt7 .empty (.error "StorageError"))]

/-- The floor is lifted before `into_group` is called and its failure returns without the
    mark, so the snapshot with the floor is returned again. -/
theorem stale_after_failed_join :
    Loaded firstStart ∧ ∃ final saved, run step firstStart failedJoin = some final ∧
      (final.saveState none).2 = .ok saved ∧
      saved.forgottenGroupMinEpochs.get? "salon" = some 5 ∧
      final.forgottenGroupMinEpochs.get? "salon" = none := by
  refine ⟨loaded_firstStart, _, _, rfl, rfl, ?_, ?_⟩
  · rfl
  · rfl

end MinesApp.ManagerSnapshot
