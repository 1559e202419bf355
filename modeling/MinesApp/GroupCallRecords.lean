import MinesApp.GroupCalls

/-!
# What each call on a group holds when it ends

A call may hold the commit lock, and a deletion has a list of what it deleted.  Both are
followed by the record `Held`, which the commands of the call move.  Most calls leave it
as it was; `validateCommit` gives the lock back on every way out, and `deleteGroup` ends
only with every table and the keys on its list.
-/

namespace MinesApp.GroupCallRecords

open AwaitProgram GroupCalls
open GroupDeletion (OwnedTable ownedTables)
open ValidateCommit (ValidateCommitBody Commit)

/-! ## 1. The record -/

/-- `deleting` lists the tables emptied in the open transaction, `deleted` those of
    transactions that have committed. -/
structure Held where
  lock : Option String
  deleting : List OwnedTable
  deleted : List OwnedTable
  keysDeleted : Bool

open Held

def Held.start : Held := ⟨none, [], [], false⟩

def Held.after (held : Held) : (command : Command) → command.Reply → Held
  | .deleteRows table, _ => { held with deleting := table :: held.deleting }
  | .commit, _ => { held with deleting := [], deleted := held.deleting ++ held.deleted }
  | .rollback, _ => { held with deleting := [] }
  | .setCommitLock deviceId, acquired =>
    if acquired = true then { held with lock := some deviceId } else held
  | .releaseCommitLock deviceId, _ =>
    if held.lock = some deviceId then { held with lock := none } else held
  | .del, _ => { held with keysDeleted := true }
  | _, _ => held

/-- The call has deleted nothing that it has not committed. -/
def Held.Idle (held : Held) : Prop := held.deleting = []

/-- A call ends without the commit lock; a deletion ends with everything deleted. -/
def Released (outcome : Except Failure Answer) (held : Held) : Prop :=
  held.lock = none ∧ (outcome = .ok .deleted →
      (∀ table ∈ ownedTables true, table ∈ held.deleted) ∧ held.keysDeleted = true)

/-! ## 2. The calls -/

section Programs

variable {good : Held → Prop} {toLowerCase : String → String}

theorem await_keeps {command : Command} (h : ∀ held reply, after held command reply = held) :
    (await command).Keeps after good := keeps_perform h

theorem sanitize_keeps (value : Option String) (fieldName : String) :
    (sanitize value fieldName).Keeps after good := by
  unfold sanitize
  split
  · apply keeps_pure
  · apply keeps_throw

theorem sanitizeOptional_keeps (value : Option String) (fieldName : String) :
    (sanitizeOptional value fieldName).Keeps after good := by
  unfold sanitizeOptional
  split
  · apply keeps_pure
  apply (sanitize_keeps _ _).bind
  intro text
  apply keeps_pure

/-- A transaction that deletes nothing leaves the record as it was. -/
theorem transaction_keeps {Answer : Type} {body : Service Answer}
    (h : body.Keeps after fun _ => True) : (transaction body).Keeps after Held.Idle := by
  rintro ⟨lock, deleting, deleted, keysDeleted⟩ hidle
  cases hidle
  apply meets_bind
  apply meets_orElse
  apply (h _ trivial).mono
  rintro (error | answer) final rfl
  · intro _
    rfl
  · intro _
    rfl

theorem enqueueForLiveGroup_keeps (rows : List QueuedMessage) :
    (enqueueForLiveGroup rows).Keeps after Held.Idle := by
  apply transaction_keeps
  apply (await_keeps fun _ _ => rfl).bind
  intro group
  split
  · apply keeps_throw
  · exact await_keeps fun _ _ => rfl

theorem enqueueAll_keeps (rows : List QueuedMessage) :
    (enqueueAll rows).Keeps after Held.Idle := by
  unfold enqueueAll
  split
  · apply keeps_pure
  · apply enqueueForLiveGroup_keeps

theorem checkSender_keeps (body : SendMessageBody) (authUserIdRaw : Option String) :
    (checkSender toLowerCase body authUserIdRaw).Keeps after good := by
  unfold checkSender
  split
  · apply (sanitizeOptional_keeps _ _).bind
    intro authUserId
    split
    · apply keeps_pure
    · apply keeps_throw
  · apply keeps_pure

theorem refuseInactiveSender_keeps (body : SendMessageBody) :
    (refuseInactiveSender body).Keeps after good := by
  unfold refuseInactiveSender
  split
  · split
    · apply keeps_pure
    apply (await_keeps fun _ _ => rfl).bind
    rintro (_ | row)
    · apply keeps_pure
    · dsimp only
      split
      · apply keeps_pure
      · apply keeps_throw
  · apply keeps_pure

theorem protoRows_keeps (body : SendMessageBody) (proto : String) :
    (protoRows body proto).Keeps after good := by
  apply (refuseInactiveSender_keeps body).bind
  intro _
  apply (await_keeps fun _ _ => rfl).bind
  intro memberships
  have hlive : (liveDeviceIds memberships).Keeps after good := by
    unfold liveDeviceIds
    split
    · apply keeps_pure
    apply (await_keeps fun _ _ => rfl).bind
    intro devices
    apply keeps_pure
  apply hlive.bind
  intro live
  have hreconcile : ∀ routable, (reconcileRoutingSet routable).Keeps after good := by
    intro routable
    unfold reconcileRoutingSet
    split
    · apply keeps_pure
    · exact await_keeps fun _ _ => rfl
  apply (hreconcile _).bind
  intro _
  apply keeps_pure

theorem namedTargets_keeps (recipients : List Recipient) :
    (namedTargets recipients).Keeps after good := by
  induction recipients with
  | nil => apply keeps_pure
  | cons recipient rest ih =>
    apply (sanitize_keeps _ _).bind
    intro userId
    split
    · exact ih
    · apply (sanitize_keeps _ _).bind
      intro deviceId
      apply ih.bind
      intro others
      apply keeps_pure

theorem legacyRows_keeps (body : SendMessageBody) : (legacyRows body).Keeps after good := by
  apply (sanitize_keeps _ _).bind
  intro senderId
  apply (sanitizeOptional_keeps _ _).bind
  intro senderDeviceId
  split
  · apply keeps_throw
  have htargets : (legacyTargets body senderId).Keeps after good := by
    unfold legacyTargets
    split
    · apply (await_keeps fun _ _ => rfl).bind
      intro members
      dsimp only
      split
      · apply keeps_pure
      · exact await_keeps fun _ _ => rfl
    · apply namedTargets_keeps
  apply htargets.bind
  intro targets
  apply keeps_pure

theorem resolveRows_keeps (body : SendMessageBody) : (resolveRows body).Keeps after good := by
  unfold resolveRows
  split
  · apply protoRows_keeps
  · apply legacyRows_keeps

theorem onlineAmong_keeps (keys : List String) : (onlineAmong keys).Keeps after good := by
  induction keys with
  | nil => apply keeps_pure
  | cons key rest ih =>
    apply (await_keeps fun _ _ => rfl).bind
    intro online
    apply ih.bind
    intro others
    apply keeps_pure

theorem appendHistory_keeps (body : SendMessageBody) :
    (appendHistory body).Keeps after good := by
  unfold appendHistory
  split
  · split
    · exact await_keeps fun _ _ => rfl
    · apply keeps_pure
  · apply keeps_pure

theorem deliver_keeps (online : List String) (rows : List QueuedMessage) :
    (deliver online rows).Keeps after good := by
  induction rows with
  | nil => apply keeps_pure
  | cons row rest ih =>
    unfold deliver
    split
    · apply (await_keeps fun _ _ => rfl).bind
      intro _
      exact ih
    · exact ih

theorem sendMessage_keeps (body : SendMessageBody) (authUserIdRaw : Option String) :
    (sendMessage toLowerCase body authUserIdRaw).Keeps after Held.Idle := by
  apply (checkSender_keeps _ _).bind
  intro _
  apply (resolveRows_keeps body).bind
  intro ops
  apply (onlineAmong_keeps _).bind
  intro online
  apply (enqueueAll_keeps _).bind
  intro _
  apply (appendHistory_keeps body).bind
  intro _
  apply (deliver_keeps _ _).bind
  intro _
  apply keeps_pure

theorem requireMember_keeps (groupId userId : String) :
    (requireMember groupId userId).Keeps after good := by
  apply (await_keeps fun _ _ => rfl).bind
  intro member
  split
  · apply keeps_pure
  · apply keeps_throw

theorem welcomeDevice_keeps (target : Device) (row : QueuedMessage) :
    (welcomeDevice target row).Keeps after Held.Idle := by
  apply (enqueueForLiveGroup_keeps _).bind
  intro _
  have hdeliver : (deliverWelcome row).Keeps after Held.Idle := by
    apply (await_keeps fun _ _ => rfl).bind
    intro online
    split
    all_goals exact await_keeps fun _ _ => rfl
  apply hdeliver.bind
  intro _
  apply (await_keeps fun _ _ => rfl).bind
  intro _
  exact await_keeps fun _ _ => rfl

theorem sendWelcome_keeps (groupId : String) (authUserIdRaw : Option String)
    (body : SendWelcomeBody) :
    (sendWelcome groupId authUserIdRaw body).Keeps after Held.Idle := by
  apply (sanitize_keeps _ _).bind
  intro targetDeviceId
  apply (sanitizeOptional_keeps _ _).bind
  intro targetUserId
  apply (sanitizeOptional_keeps _ _).bind
  intro senderUserId
  apply (sanitizeOptional_keeps _ _).bind
  intro authUserId
  have hmember : (requireSenderMember groupId authUserId).Keeps after Held.Idle := by
    cases authUserId with
    | none => apply keeps_pure
    | some userId => apply requireMember_keeps
  apply hmember.bind
  intro _
  apply (await_keeps fun _ _ => rfl).bind
  rintro (_ | found)
  · apply keeps_throw
  · apply welcomeDevice_keeps

theorem putGroupInfo_keeps (groupInfo : String) (baseEpoch : Int) :
    (putGroupInfo groupInfo baseEpoch).Keeps after good := by
  apply (await_keeps fun _ _ => rfl).bind
  rintro (_ | row)
  · exact await_keeps fun _ _ => rfl
  · dsimp only
    split
    · apply keeps_pure
    · exact await_keeps fun _ _ => rfl

theorem activateDeviceMembership_keeps (device : Device) :
    (activateDeviceMembership device).Keeps after good := by
  have haddressable : (deviceAddressability device).Keeps after good := by
    apply (await_keeps fun _ _ => rfl).bind
    intro revoked
    split
    · apply keeps_pure
    apply (await_keeps fun _ _ => rfl).bind
    intro keyPackage
    apply keeps_pure
  apply haddressable.bind
  intro addressable
  split
  · apply (await_keeps fun _ _ => rfl).bind
    intro _
    apply (await_keeps fun _ _ => rfl).bind
    intro _
    exact await_keeps fun _ _ => rfl
  · apply keeps_pure

theorem advanceEpoch_keeps (commit : Commit) :
    (advanceEpoch commit).Keeps after Held.Idle := by
  apply transaction_keeps
  apply (await_keeps fun _ _ => rfl).bind
  intro _
  have hbase : (publishBase commit).Keeps after fun _ => True := by
    unfold publishBase
    split
    · apply (putGroupInfo_keeps _ _).bind
      intro _
      apply keeps_pure
    · apply keeps_pure
  apply hbase.bind
  intro _
  exact await_keeps fun _ _ => rfl

theorem promoteSender_keeps (commit : Commit) : (promoteSender commit).Keeps after good := by
  unfold promoteSender
  split
  · apply keeps_pure
  apply (await_keeps fun _ _ => rfl).bind
  intro membership
  split
  · apply keeps_pure
  apply (activateDeviceMembership_keeps _).orElse
  intro _
  apply keeps_pure

theorem gatedCommit_keeps (commit : Commit) (excludeDeviceIds : List String) :
    (gatedCommit toLowerCase commit excludeDeviceIds).Keeps after Held.Idle := by
  apply (await_keeps fun _ _ => rfl).bind
  intro group
  split
  · apply keeps_pure
  apply (advanceEpoch_keeps commit).bind
  intro _
  apply (promoteSender_keeps commit).bind
  intro _
  have hfanOut : (fanOut toLowerCase commit excludeDeviceIds).Keeps after Held.Idle := by
    apply Program.Keeps.orElse
    · apply (sendMessage_keeps _ _).bind
      intro _
      apply keeps_pure
    · intro _
      apply keeps_pure
  apply hfanOut.bind
  intro _
  apply keeps_pure

/-- The commit lock is released on every way out of the gated part. -/
theorem validateCommit_keeps (body : ValidateCommitBody) (excludeDeviceIds : List String) :
    (validateCommit toLowerCase body excludeDeviceIds).Keeps after
      fun held => held.Idle ∧ held.lock = none := by
  rintro held ⟨hidle, hlock⟩
  unfold validateCommit
  split
  · rfl
  next commit _ =>
    rintro (_ | _)
    · intro group
      rfl
    · apply (gatedCommit_keeps commit excludeDeviceIds).meets_andFinally
      · exact hidle
      · intro _ outcome
        cases held
        cases hlock
        simp [after]

theorem deleteGroupOwnedRows_meets (tables : List OwnedTable) (held : Held) :
    (deleteGroupOwnedRows tables).Meets after held fun outcome final =>
      outcome = .ok () ∧ final = { held with deleting := tables.reverse ++ held.deleting } := by
  induction tables generalizing held with
  | nil => exact ⟨rfl, rfl⟩
  | cons table rest ih =>
    intro _
    apply (ih _).mono
    rintro outcome final ⟨rfl, rfl⟩
    simp [after]

theorem deleteGroup_meets : deleteGroup.Meets after start fun _ final =>
    final = { start with deleted := (ownedTables true).reverse, keysDeleted := true } := by
  apply meets_bind
  apply meets_bind
  apply meets_orElse
  intro _
  apply (deleteGroupOwnedRows_meets _ _).mono
  rintro outcome final ⟨rfl, rfl⟩
  intro _ _
  rfl

/-- What a call whose answer is wrapped ends with. -/
theorem released_of_keeps {Inner : Type} {body : Service Inner} {wrap : Inner → Answer}
    (h : body.Keeps after fun held => held.Idle ∧ held.lock = none)
    (hwrap : ∀ answer, wrap answer ≠ .deleted) :
    (body >>= fun answer => pure (wrap answer)).Meets after start Released := by
  have hstart : start.Idle ∧ start.lock = none := ⟨rfl, rfl⟩
  apply h.meets_bind hstart
  · intro answer
    refine ⟨rfl, ?_⟩
    intro hdeleted
    cases hwrap answer (Except.ok.inj hdeleted)
  · intro error
    refine ⟨rfl, ?_⟩
    intro hdeleted
    cases hdeleted

/-- **Every call ends without the commit lock**, on every path, and every deletion ends with
    all its tables and keys deleted. -/
theorem program_released (groupId : String) (request : Request) :
    (request.program groupId toLowerCase).Meets after start Released := by
  have hidle : ∀ {Inner : Type} {body : Service Inner}, body.Keeps after Held.Idle →
      body.Keeps after fun held => held.Idle ∧ held.lock = none :=
    fun h held hheld => h held hheld.1
  cases request with
  | sendMessage body authUserIdRaw =>
    exact released_of_keeps (hidle (sendMessage_keeps body authUserIdRaw)) nofun
  | sendWelcome authUserIdRaw body =>
    exact released_of_keeps (hidle (sendWelcome_keeps groupId authUserIdRaw body)) nofun
  | validateCommit body excludeDeviceIds =>
    exact released_of_keeps (validateCommit_keeps _ excludeDeviceIds) nofun
  | putGroupInfo groupInfo baseEpoch =>
    exact released_of_keeps (putGroupInfo_keeps groupInfo baseEpoch) nofun
  | storeGroupInfo requesterUserId groupInfo baseEpoch =>
    refine released_of_keeps ?_ nofun
    apply (requireMember_keeps groupId requesterUserId).bind
    intro _
    apply putGroupInfo_keeps
  | deleteGroup =>
    apply meets_bind
    apply deleteGroup_meets.mono
    rintro (error | answer) final rfl
    · refine ⟨rfl, ?_⟩
      intro hdeleted
      cases hdeleted
    · refine ⟨rfl, ?_⟩
      intro _
      exact ⟨by decide, rfl⟩

end Programs

end MinesApp.GroupCallRecords
