import MinesApp.CommitTransaction
import MinesApp.ManagerSnapshot

/-!
# Joining by an external commit

`externalJoin` (`frontend/src/lib/services/BaseMlsService.ts`) fetches the published
base of a group, builds an external commit from it, submits the commit, and merges it
when it is accepted; a refused commit is rebuilt from a fresh base, at most
`EXTERNAL_JOIN_MAX_ATTEMPTS` times.  Building already puts the group into the
manager (`join_by_external_commit`, `frontend/mls-core/src/welcome.rs`), and the build
refuses a group that is held, so an attempt that ends without a join has to take the
group out again.

An attempt is one function; its result carries the place it left from, because several
of them are reported alike (`Exit.outcome`).  `forgetGroup` is the web client's, which
runs in place; the native one goes through a command that is not waited for.
-/

namespace MinesApp.ExternalJoin

open MlsManager OrderedMap Manager
open CommitTransaction (Verdict)

/-! ## 1. One attempt -/

def externalJoinMaxAttempts : Nat := 3

/-- The published base, with what OpenMLS makes of its bytes. -/
structure GroupInfoBase where
  groupInfo : ServedGroupInfo
  baseEpoch : Nat
  activeEpoch : Nat

inductive Fetched where
  | notAGroupMember
  | failed (text : String)
  | nothing
  | base (base : GroupInfoBase)

/-- What one attempt meets.  `epochRead` is what the platform's epoch cache answers, where the
    epoch is not read from the group itself; `wiped` is the storage after a forget. -/
structure Attempt where
  fetched : Fetched
  epochRead : Option Nat
  exported : Except String Bytes
  submitted : Except String Verdict
  merged : GroupCall String Unit
  checkpointed : Except String Bool
  wiped : Storage

inductive ExternalJoinOutcome where
  | joined
  | noBasePublished
  | staleBase (baseEpoch serverEpoch : Nat)
  | buildFailed
  | unreachable
  | refused (serverReason : String) (serverEpoch : Option UInt64)
deriving DecidableEq, Repr

/-- Where an attempt left from, with the group it had built by then. -/
inductive Exit where
  | notAGroupMember
  | noBasePublished
  | staleBase (baseEpoch serverEpoch : Nat)
  | buildRefused (failure : MlsError)
  | wrongEpoch (groupId text : String)
  | exportThrew (groupId : String) (failure : MlsError)
  | unreachable (text : String)
  | mergeThrew (groupId : String) (failure : MlsError)
  | joined (groupId : String) (checkpointed : Bool)
  | refused (serverReason : String) (serverEpoch : Option UInt64)
deriving DecidableEq, Repr

/-- What the caller is told; `none` for an exception. -/
def Exit.outcome : Exit → Option ExternalJoinOutcome
  | .notAGroupMember => none
  | .noBasePublished => some .noBasePublished
  | .staleBase baseEpoch serverEpoch => some (.staleBase baseEpoch serverEpoch)
  | .buildRefused _ | .wrongEpoch _ _ | .exportThrew _ _ => some .buildFailed
  | .unreachable _ => some .unreachable
  | .mergeThrew _ _ => none
  | .joined _ _ => some .joined
  | .refused reason epoch => some (.refused reason epoch)

/-- The live epoch, or 0 where it cannot be read. -/
def getEpoch (manager : Manager) (groupId : String) : Nat :=
  match manager.getEpoch groupId with
  | .ok epoch => epoch.toNat
  | .error _ => 0

def wrongEpochText (localEpoch baseEpoch : Nat) : String :=
  "external join instance at epoch " ++ toString localEpoch ++ ", expected " ++
    toString (baseEpoch + 1)

def submitExternalCommit (built : Manager) (groupId : String) (attempt : Attempt) :
    Manager × Exit :=
  match attempt.submitted with
  | .error text => (built.forgetGroup groupId 0 attempt.wiped, .unreachable text)
  | .ok verdict =>
    if verdict.accepted then
      match built.mergePendingCommitFor groupId attempt.merged with
      | (merged, .error failure) => (merged, .mergeThrew groupId failure)
      -- a checkpoint that fails does not take the join back
      | (merged, .ok ()) =>
        (merged, .joined groupId (attempt.checkpointed.toOption.getD false))
    else
      (built.forgetGroup groupId 0 attempt.wiped,
       .refused (verdict.reason.getD "unspecified") verdict.currentEpoch)

def attemptOnce (manager : Manager) (attempt : Attempt) : Manager × Exit :=
  match attempt.fetched with
  | .notAGroupMember => (manager, .notAGroupMember)
  | .failed _ | .nothing => (manager, .noBasePublished)
  | .base base =>
    if base.baseEpoch < base.activeEpoch then
      (manager, .staleBase base.baseEpoch base.activeEpoch)
    else
      match manager.joinByExternalCommit base.groupInfo with
      | (built, .error failure) => (built, .buildRefused failure)
      | (built, .ok (groupId, _)) =>
        let localEpoch := attempt.epochRead.getD (getEpoch built groupId)
        if localEpoch ≠ base.baseEpoch + 1 then
          (built, .wrongEpoch groupId (wrongEpochText localEpoch base.baseEpoch))
        else
          match built.exportFor groupId attempt.exported with
          | .error failure => (built, .exportThrew groupId failure)
          | .ok _ => submitExternalCommit built groupId attempt

/-! ## 2. The loop -/

/-- Only a refusal is followed by another attempt. -/
def joinLoop (attempts : Nat → Attempt) : Nat → Manager → Manager × Exit
  | 0, manager => (manager, .refused "unspecified" none)
  | left + 1, manager =>
    match attemptOnce manager (attempts (externalJoinMaxAttempts - (left + 1))) with
    | (refused, .refused reason epoch) =>
      if left = 0 then (refused, .refused reason epoch) else joinLoop attempts left refused
    | ended => ended

def externalJoin (manager : Manager) (attempts : Nat → Attempt) : Manager × Exit :=
  joinLoop attempts externalJoinMaxAttempts manager

/-! ## 3. The groups that an attempt leaves -/

/-- The group that an exit leaves in the manager.  A join is to leave it; the three exits
    between the build and the end of the merge leave it as well. -/
def Exit.leaves : Exit → Option String
  | .wrongEpoch groupId _ => some groupId
  | .exportThrew groupId _ => some groupId
  | .mergeThrew groupId _ => some groupId
  | .joined groupId _ => some groupId
  | .notAGroupMember | .noBasePublished | .staleBase _ _ | .buildRefused _ | .unreachable _
  | .refused _ _ => none

/-- Held afterwards is what was held before and what the exit leaves. -/
def Keeps (manager : Manager) (result : Manager × Exit) : Prop :=
  ∀ groupId, result.1.groups.get? groupId ≠ none ↔
    manager.groups.get? groupId ≠ none ∨ result.2.leaves = some groupId

variable {manager : Manager}

theorem Keeps.of_get?_eq {result : Manager × Exit}
    (hget : ∀ groupId, result.1.groups.get? groupId = manager.groups.get? groupId)
    (hleaves : result.2.leaves = none) : Keeps manager result := by
  intro groupId
  rw [hget, hleaves]
  exact (or_iff_left nofun).symm

theorem Keeps.of_groups_eq {result : Manager × Exit} (hgroups : result.1.groups = manager.groups)
    (hleaves : result.2.leaves = none) : Keeps manager result :=
  .of_get?_eq (fun _ => by rw [hgroups]) hleaves

variable {served : ServedGroupInfo}

/-- The build adds the group it answers with, which was not held. -/
theorem joinByExternalCommit_ok {built : Manager} {groupId : String}
    {commit : Bytes} (h : manager.joinByExternalCommit served = (built, .ok (groupId, commit))) :
    served.readable = true ∧ manager.groups.get? groupId = none ∧
      ∃ group, served.call.answer = .ok (group, .ok commit) ∧ group.groupId = groupId ∧
        built.groups = manager.groups.set groupId group := by
  unfold joinByExternalCommit at h
  split at h
  · cases h
  next hreadable =>
    split at h
    · cases h
    next group message hanswer =>
      split at h
      · cases h
      next hfree =>
        split at h
        · cases h
        cases h
        exact ⟨by simpa using hreadable, hfree, group, hanswer, rfl, rfl⟩

/-- A refused build reaches the storage only, and nothing where the base cannot be read. -/
theorem joinByExternalCommit_error {built : Manager}
    {failure : MlsError} (h : manager.joinByExternalCommit served = (built, .error failure)) :
    served.readable = false ∧ built = manager ∨
      served.readable = true ∧ built = manager.afterCall served.call := by
  unfold joinByExternalCommit at h
  cases hreadable : served.readable with
  | false =>
    simp only [hreadable, Bool.not_false, if_true, Prod.mk.injEq] at h
    exact .inl ⟨rfl, h.1.symm⟩
  | true =>
    simp only [hreadable, Bool.not_true, Bool.false_eq_true, if_false] at h
    refine .inr ⟨rfl, ?_⟩
    split at h
    · cases h
      rfl
    split at h
    · cases h
      rfl
    split at h
    · cases h
      rfl
    · cases h

section

variable {built : Manager} {groupId : String} {group : MlsGroup}
  (hfree : manager.groups.get? groupId = none)
  (hbuilt : built.groups = manager.groups.set groupId group)

include hbuilt in
theorem keeps_built (last : MlsGroup) {next : Manager} {ending : Exit}
    (hnext : next.groups = built.groups ∨ next.groups = built.groups.set groupId last)
    (hleaves : ending.leaves = some groupId) : Keeps manager (next, ending) := by
  have hget : ∀ other, next.groups.get? other ≠ none ↔
      other = groupId ∨ manager.groups.get? other ≠ none := by
    intro other
    by_cases hother : other = groupId
    · subst hother
      rcases hnext with hsame | hset
      · simp [hsame, hbuilt]
      · simp [hset]
    · rcases hnext with hsame | hset
      · simp [hsame, hbuilt, get?_set_ne _ hother, hother]
      · simp [hset, hbuilt, get?_set_ne _ hother, hother]
  intro other
  rw [hget other, hleaves, Option.some.injEq, or_comm, eq_comm]

include hfree hbuilt in
theorem keeps_forgetGroup {ending : Exit} (wiped : Storage) (hleaves : ending.leaves = none) :
    Keeps manager (built.forgetGroup groupId 0 wiped, ending) := by
  refine .of_get?_eq (fun other => (get?_erase _ _ _).trans ?_) hleaves
  split
  next hsame => rw [hsame, hfree]
  next hother => rw [hbuilt, get?_set_ne _ hother]

include hfree hbuilt in
theorem keeps_submitExternalCommit (attempt : Attempt) :
    Keeps manager (submitExternalCommit built groupId attempt) := by
  have hheld : built.groups.get? groupId = some group := by
    rw [hbuilt]
    exact get?_set_self _ _ _
  unfold submitExternalCommit
  split
  · exact keeps_forgetGroup hfree hbuilt _ rfl
  split
  · unfold mergePendingCommitFor settlePendingCommit
    rw [hheld]
    dsimp only
    split
    next failed hmerge =>
      split at hmerge
      · cases hmerge
        exact keeps_built hbuilt _ (.inr rfl) rfl
      · cases hmerge
    next merged hmerge =>
      split at hmerge
      · cases hmerge
      cases hmerge
      exact keeps_built hbuilt _ (.inr rfl) rfl
  · exact keeps_forgetGroup hfree hbuilt _ rfl

end

theorem keeps_attemptOnce (manager : Manager) (attempt : Attempt) :
    Keeps manager (attemptOnce manager attempt) := by
  unfold attemptOnce
  split
  · exact Keeps.of_groups_eq rfl rfl
  · exact Keeps.of_groups_eq rfl rfl
  · exact Keeps.of_groups_eq rfl rfl
  · split
    · exact Keeps.of_groups_eq rfl rfl
    split
    next built failure hjoin =>
      refine Keeps.of_groups_eq ?_ rfl
      rcases joinByExternalCommit_error hjoin with ⟨-, rfl⟩ | ⟨-, rfl⟩
      all_goals rfl
    next built groupId commit hjoin =>
      obtain ⟨-, hfree, group, -, -, hbuilt⟩ := joinByExternalCommit_ok hjoin
      dsimp only
      split
      · exact keeps_built hbuilt group (.inl rfl) rfl
      split
      · exact keeps_built hbuilt group (.inl rfl) rfl
      · exact keeps_submitExternalCommit hfree hbuilt attempt

/-! ## 4. Every run -/

theorem Keeps.trans {middle : Manager} {ending : Exit} {result : Manager × Exit}
    (hfirst : Keeps manager (middle, ending)) (hnothing : ending.leaves = none)
    (hrest : Keeps middle result) : Keeps manager result := by
  intro groupId
  rw [hrest groupId, hfirst groupId, hnothing]
  exact or_congr_left (or_iff_left nofun)

theorem keeps_joinLoop (attempts : Nat → Attempt) (left : Nat) (manager : Manager) :
    Keeps manager (joinLoop attempts left manager) := by
  induction left generalizing manager with
  | zero => exact Keeps.of_groups_eq rfl rfl
  | succ left ih =>
    have hattempt := keeps_attemptOnce manager (attempts (externalJoinMaxAttempts - (left + 1)))
    unfold joinLoop
    split
    next refused reason epoch hrefused =>
      rw [hrefused] at hattempt
      split
      · exact hattempt
      · exact hattempt.trans rfl (ih refused)
    · exact hattempt

/-! ## 5. The attempts -/

/-- The base and the group that an attempt builds from it: the base is not behind the group, it
    can be read, OpenMLS makes a commit that serialises, and the group is not held. -/
def Attempt.built (attempt : Attempt) (manager : Manager) : Option (GroupInfoBase × MlsGroup) :=
  match attempt.fetched with
  | .base base =>
    match base.groupInfo.call.answer with
    | .ok (group, .ok _) =>
      if base.activeEpoch ≤ base.baseEpoch ∧ base.groupInfo.readable = true ∧
          manager.groups.get? group.groupId = none then some (base, group)
      else none
    | _ => none
  | _ => none

/-- The group built is at the epoch after the base, and its own base can be exported. -/
def Attempt.submits (attempt : Attempt) (base : GroupInfoBase) (group : MlsGroup) : Prop :=
  attempt.epochRead.getD group.epoch.toNat = base.baseEpoch + 1 ∧ attempt.exported.isOk = true

/-- The attempt submits a commit, and the server does not accept it. -/
def Attempt.turnedAway (attempt : Attempt) (manager : Manager) : Prop :=
  ∃ base group verdict, attempt.built manager = some (base, group) ∧
    attempt.submits base group ∧ attempt.submitted = .ok verdict ∧ verdict.accepted = false

/-- The attempt builds the group and does not submit it, or the commit is accepted and the merge
    fails. -/
def Attempt.strands (attempt : Attempt) (manager : Manager) (groupId : String) : Prop :=
  ∃ base group, attempt.built manager = some (base, group) ∧ group.groupId = groupId ∧
    (attempt.submits base group → ∃ verdict debug, attempt.submitted = .ok verdict ∧
      verdict.accepted = true ∧ attempt.merged.answer = .error debug)

/-- An exit other than a join that leaves the group. -/
def Exit.strands (ending : Exit) (groupId : String) : Prop :=
  ending.outcome ≠ some .joined ∧ ending.leaves = some groupId

/-- The exit is the one that the attempt calls for. -/
def Attempt.Ends (attempt : Attempt) (manager : Manager) (ending : Exit) : Prop :=
  ((∃ reason epoch, ending = .refused reason epoch) ↔ attempt.turnedAway manager) ∧
    ∀ groupId, ending.strands groupId ↔ attempt.strands manager groupId

variable {attempt : Attempt} {ending : Exit}

theorem Attempt.Ends.of_not_built (hbuilt : attempt.built manager = none)
    (hleaves : ending.leaves = none) (hends : ∀ reason epoch, ending ≠ .refused reason epoch) :
    attempt.Ends manager ending := by
  simp [Attempt.Ends, Attempt.turnedAway, Attempt.strands, Exit.strands, hbuilt, hleaves, hends]

theorem ends_submitExternalCommit {built : Manager} {base : GroupInfoBase} {group : MlsGroup}
    (hbuilt : attempt.built manager = some (base, group)) (hsubmits : attempt.submits base group)
    (hheld : built.groups.get? group.groupId = some group) :
    attempt.Ends manager (submitExternalCommit built group.groupId attempt).2 := by
  unfold submitExternalCommit mergePendingCommitFor settlePendingCommit
  rw [hheld]
  cases hsubmitted : attempt.submitted with
  | error text =>
    simp [Attempt.Ends, Attempt.turnedAway, Attempt.strands, Exit.strands, Exit.outcome,
      Exit.leaves, hbuilt, hsubmits, hsubmitted]
  | ok verdict =>
    cases haccepted : verdict.accepted <;> cases hmerged : attempt.merged.answer <;>
    simp [Attempt.Ends, Attempt.turnedAway, Attempt.strands, Exit.strands, Exit.outcome,
      Exit.leaves, hbuilt, hsubmits, hsubmitted, haccepted, hmerged]

theorem ends_attemptOnce (manager : Manager) (attempt : Attempt) :
    attempt.Ends manager (attemptOnce manager attempt).2 := by
  unfold attemptOnce
  split
  next hfetched => exact .of_not_built (by simp [Attempt.built, hfetched]) rfl (by simp)
  next hfetched => exact .of_not_built (by simp [Attempt.built, hfetched]) rfl (by simp)
  next hfetched => exact .of_not_built (by simp [Attempt.built, hfetched]) rfl (by simp)
  next base hfetched =>
    split
    next hstale =>
      refine .of_not_built ?_ rfl (by simp)
      simp only [Attempt.built, hfetched, Nat.not_le.mpr hstale, false_and, if_false]
      split <;> rfl
    next hfresh =>
    split
    next failed failure hjoin =>
      refine .of_not_built ?_ rfl (by simp)
      simp only [Attempt.built, hfetched]
      split
      next group bytes hanswer =>
        refine if_neg fun hbuilds => ?_
        obtain ⟨-, hreadable, hfree⟩ := hbuilds
        simp [joinByExternalCommit, hreadable, hanswer, hfree] at hjoin
      · rfl
    next built groupId commit hjoin =>
      obtain ⟨hreadable, hfree, group, hanswer, rfl, hgroups⟩ := joinByExternalCommit_ok hjoin
      have hbuilt : attempt.built manager = some (base, group) := by
        simp [Attempt.built, hfetched, hanswer, hreadable, hfree, Nat.not_lt.mp hfresh]
      have hheld : built.groups.get? group.groupId = some group := by
        rw [hgroups]
        exact get?_set_self _ _ _
      have hepoch : getEpoch built group.groupId = group.epoch.toNat := by
        simp [getEpoch, Manager.getEpoch, hheld]
      dsimp only
      rw [hepoch]
      split
      next hwrong =>
        simp [Attempt.Ends, Attempt.turnedAway, Attempt.strands, Exit.strands, Exit.outcome,
          Exit.leaves, Attempt.submits, hbuilt, hwrong]
      next hright =>
        unfold exportFor
        rw [hheld]
        cases hexported : attempt.exported with
        | error debug =>
          simp [Attempt.Ends, Attempt.turnedAway, Attempt.strands, Exit.strands, Exit.outcome,
            Exit.leaves, Attempt.submits, hbuilt, hexported, Except.mapError, Except.isOk,
            Except.toBool]
        | ok bytes =>
          refine ends_submitExternalCommit hbuilt ⟨not_not.mp hright, ?_⟩ hheld
          rw [hexported]
          rfl

/-- An attempt meets the same when the same groups are held. -/
theorem built_congr {other : Manager}
    (hsame : ∀ groupId, other.groups.get? groupId = none ↔ manager.groups.get? groupId = none) :
    attempt.built other = attempt.built manager := by
  simp only [Attempt.built, hsame]

theorem strands_joinLoop (attempts : Nat → Attempt) (groupId : String) (left : Nat)
    (hleft : left ≤ externalJoinMaxAttempts) (manager : Manager) :
    (joinLoop attempts left manager).2.strands groupId ↔
      ∃ place, externalJoinMaxAttempts - left ≤ place ∧ place < externalJoinMaxAttempts ∧
        (∀ earlier, externalJoinMaxAttempts - left ≤ earlier → earlier < place →
          (attempts earlier).turnedAway manager) ∧
        (attempts place).strands manager groupId := by
  induction left generalizing manager with
  | zero =>
    constructor
    · rintro ⟨-, hleaves⟩
      cases hleaves
    · rintro ⟨place, hge, hlt, -⟩
      omega
  | succ left ih =>
    obtain ⟨hrefused, hstrands⟩ :=
      ends_attemptOnce manager (attempts (externalJoinMaxAttempts - (left + 1)))
    have hkeeps := keeps_attemptOnce manager (attempts (externalJoinMaxAttempts - (left + 1)))
    generalize hnow : externalJoinMaxAttempts - (left + 1) = now at *
    have hnext : externalJoinMaxAttempts - left = now + 1 := by omega
    unfold joinLoop
    rw [hnow]
    split
    next refused reason epoch hended =>
      rw [hended] at hrefused hstrands hkeeps
      have hturned := hrefused.mp ⟨reason, epoch, rfl⟩
      have hfree : ¬(attempts now).strands manager groupId := fun h =>
        absurd ((hstrands groupId).mpr h).2 nofun
      have hsame : ∀ other, refused.groups.get? other = none ↔
          manager.groups.get? other = none := by
        intro other
        have hheld := hkeeps other
        simp only [Exit.leaves, reduceCtorEq, or_false] at hheld
        exact not_iff_not.mp hheld
      split
      next hlast =>
        constructor
        · rintro ⟨-, hleaves⟩
          cases hleaves
        · rintro ⟨place, hge, hlt, -, hplace⟩
          have : place = now := by omega
          exact absurd (this ▸ hplace) hfree
      · rw [ih (by omega) refused, hnext]
        simp only [Attempt.turnedAway, Attempt.strands, built_congr hsame]
        constructor
        · rintro ⟨place, hge, hlt, hearlier, hplace⟩
          refine ⟨place, by omega, hlt, fun earlier hfrom hto => ?_, hplace⟩
          by_cases hhere : earlier = now
          · exact hhere ▸ hturned
          · exact hearlier earlier (by omega) hto
        · rintro ⟨place, hge, hlt, hearlier, hplace⟩
          have hlater : place ≠ now := by
            rintro rfl
            exact hfree hplace
          exact ⟨place, by omega, hlt, fun earlier hfrom => hearlier earlier (by omega), hplace⟩
    next result hnever =>
      rw [hstrands groupId]
      constructor
      · intro hnowStrands
        exact ⟨now, le_refl _, by omega, fun earlier hfrom hto => by omega, hnowStrands⟩
      · rintro ⟨place, hge, hlt, hearlier, hplace⟩
        by_cases hhere : place = now
        · exact hhere ▸ hplace
        · obtain ⟨reason, epoch, hended⟩ := hrefused.mpr (hearlier now (le_refl _) (by omega))
          exact (hnever _ reason epoch (Prod.ext rfl hended)).elim

/-- **What a failed join leaves.**  A run on a group that is not held ends without a join and
    with the group held exactly when some attempt, after attempts that the server has turned
    away, builds the group and does not submit it, or cannot merge what was accepted.  Where the
    group is absent, it can be built again. -/
theorem failed_join_holds_iff {manager : Manager} {groupId : String} (attempts : Nat → Attempt)
    (habsent : manager.groups.get? groupId = none) :
    (((externalJoin manager attempts).2.outcome ≠ some .joined ∧
        (externalJoin manager attempts).1.groups.get? groupId ≠ none) ↔
      ∃ place < externalJoinMaxAttempts,
        (∀ earlier < place, (attempts earlier).turnedAway manager) ∧
          (attempts place).strands manager groupId) ∧
    ((externalJoin manager attempts).1.groups.get? groupId = none →
      ∀ (served : ServedGroupInfo) (group : MlsGroup) (bytes : Bytes), served.readable = true →
        served.call.answer = .ok (group, .ok bytes) → group.groupId = groupId →
          ((externalJoin manager attempts).1.joinByExternalCommit served).2 =
            .ok (groupId, bytes)) := by
  have hkeeps := keeps_joinLoop attempts externalJoinMaxAttempts manager groupId
  constructor
  · have hloop := strands_joinLoop attempts groupId externalJoinMaxAttempts (Nat.le_refl _) manager
    rw [Nat.sub_self] at hloop
    simp only [Nat.zero_le, true_and, forall_const, Exit.strands] at hloop
    rw [← hloop]
    refine and_congr_right fun _ => hkeeps.trans ?_
    simp [habsent]
  · intro hgone served group bytes hreadable hanswer hgroup
    unfold joinByExternalCommit
    simp [hreadable, hanswer, hgroup, hgone]

/-- A device without groups, and a base for one, built at the epoch given. -/
def newcomer : Manager := ⟨.empty, ⟨[7], "ada:phone"⟩, .empty, .empty, .newDirty⟩

def builtAt (epoch : UInt64) : ServedGroupInfo :=
  ⟨true, ⟨.empty, .ok (⟨"salon", epoch, true, [], some .external⟩, .ok [1])⟩⟩

/-- An attempt on a base published for epoch 4, answered as given. -/
def attemptWith (epoch : UInt64) (submitted : Except String Verdict) : Attempt :=
  ⟨.base ⟨builtAt epoch, 4, 4⟩, none, .ok [2], submitted,
   ⟨⟨.empty, .ok ()⟩, ⟨"salon", epoch, true, [], none⟩⟩, .ok true, .empty⟩

def alwaysRefused (_ : Nat) : Attempt :=
  attemptWith 5 (.ok ⟨false, some "concurrent_commit", some 4⟩)

theorem failed_join_holds_iff_refused :
    (externalJoin newcomer alwaysRefused).2 = .refused "concurrent_commit" (some 4) ∧
      (externalJoin newcomer alwaysRefused).1.groups.get? "salon" = none := by
  have hended : (externalJoin newcomer alwaysRefused).2 = .refused "concurrent_commit" (some 4) :=
    rfl
  refine ⟨hended, ?_⟩
  by_contra hheld
  obtain ⟨place, -, -, base, group, hbuilt, -, hmerge⟩ :=
    (failed_join_holds_iff alwaysRefused rfl).1.mp ⟨by rw [hended]; nofun, hheld⟩
  cases hbuilt
  obtain ⟨verdict, debug, hverdict, haccepted, -⟩ := hmerge ⟨rfl, rfl⟩
  cases hverdict
  cases haccepted

/-- A base whose bytes are of epoch 5 is published for epoch 4: the instance built from it is at
    epoch 6. -/
def mislabelled (_ : Nat) : Attempt := attemptWith 6 (.ok ⟨true, none, none⟩)

/-- The group built from it stays, and is what the next run is refused for. -/
theorem group_left_by_failed_build :
    newcomer.groups.get? "salon" = none ∧
    (externalJoin newcomer mislabelled).2.outcome = some .buildFailed ∧
    (externalJoin newcomer mislabelled).1.groups.get? "salon" ≠ none ∧
    (externalJoin (externalJoin newcomer mislabelled).1 alwaysRefused).2 =
      .buildRefused (.openMls "join_by_external_commit: group salon already present locally") := by
  decide

/-! ## 6. Joins that are refused -/

open ManagerSnapshot (Admits Ignored processWelcome_of_admits processWelcome_of_stopped welcomeAt7)

section

variable {State : Type} (stored : Storage → String → State) (manager : Manager)

/-- The same groups and floors, and of every group id the same in the storage, which `stored`
    reads. -/
def Same (after : Manager) : Prop :=
  after.groups = manager.groups ∧ after.forgottenGroupMinEpochs = manager.forgottenGroupMinEpochs ∧
    stored after.storage = stored manager.storage

/-- A Welcome that can be read, and passes both guards, is to write nothing of a group in
    `into_group` and to find no floor; one that is stopped before is to write nothing in the
    staging. -/
def QuietWelcome (welcome : IncomingWelcome) : Prop :=
  welcome.readable = true ∧ welcome.treeReadable = true →
    (∀ groupId epoch, welcome.staged.answer = .ok (groupId, epoch) →
      Admits manager groupId epoch → stored welcome.joined.storage = stored manager.storage ∧
        manager.forgottenGroupMinEpochs.get? groupId = none) ∧
    ((∀ groupId epoch, welcome.staged.answer = .ok (groupId, epoch) →
      ¬Admits manager groupId epoch) → stored welcome.staged.storage = stored manager.storage)

/-- **What a refused join changes.**  A Welcome that is refused or ignored changes nothing exactly
    when it is quiet, and a refused external commit exactly when its base cannot be read or
    building from it wrote nothing of a group. -/
theorem refused_join_changes_nothing :
    (∀ welcome,
      ((∃ failure, (manager.processWelcome welcome).2 = .error failure) ∨ Ignored manager welcome) →
      (Same stored manager (manager.processWelcome welcome).1 ↔
        QuietWelcome stored manager welcome)) ∧
    ∀ served after failure, manager.joinByExternalCommit served = (after, .error failure) →
      (Same stored manager after ↔
        (served.readable = true → stored served.call.storage = stored manager.storage)) := by
  constructor
  · intro welcome hrefused
    unfold QuietWelcome
    by_cases hreadable : welcome.readable = true ∧ welcome.treeReadable = true
    · rw [forall_prop_of_true hreadable]
      by_cases hadmitted : ∃ groupId epoch, welcome.staged.answer = .ok (groupId, epoch) ∧
          Admits manager groupId epoch
      · obtain ⟨groupId, epoch, hstaged, hadmits⟩ := hadmitted
        rw [processWelcome_of_admits hreadable hstaged hadmits] at hrefused ⊢
        cases hjoined : welcome.joined.answer with
        | error debug =>
          simp [Same, afterCall, liftFloor, erase_eq_self, hstaged, hadmits, and_comm]
        | ok group =>
          rw [hjoined] at hrefused
          rcases hrefused with ⟨failure, hfailure⟩ | ⟨_, _, hsame, hheld, hkept⟩
          · cases hfailure
          · cases hstaged.symm.trans hsame
            rcases hadmits.1 with hfree | hrebootstraps
            · exact absurd hfree hheld
            · cases hkept.symm.trans hrebootstraps
      · have hstopped : ∀ groupId epoch, welcome.staged.answer = .ok (groupId, epoch) →
            ¬Admits manager groupId epoch :=
          fun groupId epoch hstaged hadmits => hadmitted ⟨groupId, epoch, hstaged, hadmits⟩
        rw [processWelcome_of_stopped hreadable hstopped]
        constructor
        · rintro ⟨-, -, hstored⟩
          exact ⟨fun groupId epoch hstaged hadmits => absurd hadmits (hstopped _ _ hstaged),
            fun _ => hstored⟩
        · rintro ⟨-, hstored⟩
          exact ⟨rfl, rfl, hstored hstopped⟩
    · have hunread : (!welcome.readable || !welcome.treeReadable) = true := by
        simpa [Classical.or_iff_not_imp_left] using hreadable
      simp [processWelcome, hunread, hreadable, Same]
  · intro served after failure hrefused
    rcases joinByExternalCommit_error hrefused with ⟨hunread, rfl⟩ | ⟨hread, rfl⟩
    · simp [Same, hunread]
    · simp [Same, afterCall, hread]

end

/-- A Welcome below the floor, whose `into_group` would fail. -/
theorem refused_join_changes_nothing_stale :
    let manager := newcomer.forgetGroup "salon" 9 .empty
    Same (fun storage _ => storage) manager
      (manager.processWelcome (welcomeAt7 .empty (.error "StorageError"))).1 := by
  refine ((refused_join_changes_nothing _ _).1 _ (.inl ⟨_, rfl⟩)).mpr fun _ => ⟨?_, fun _ => rfl⟩
  rintro _ _ ⟨⟩ ⟨-, hfloor⟩
  exact absurd (hfloor 9 rfl) (by decide)

def builtAgain : ServedGroupInfo := ⟨true, ⟨.ofPairs [([1], [3])], (builtAt 5).call.answer⟩⟩

/-- A join that fails has lifted the floor, and a commit built for a group that is held has been
    stored. -/
theorem refused_join_leaves_traces :
    ((newcomer.forgetGroup "salon" 5 .empty).processWelcome
      (welcomeAt7 .empty (.error "StorageError"))).1.forgottenGroupMinEpochs.get? "salon" = none ∧
    let held := (newcomer.joinByExternalCommit (builtAt 5)).1
    (held.joinByExternalCommit builtAgain).2 =
      .error (.openMls "join_by_external_commit: group salon already present locally") ∧
    (held.joinByExternalCommit builtAgain).1.storage ≠ held.storage := by
  decide

end MinesApp.ExternalJoin
