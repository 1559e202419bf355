import MinesApp.MlsManager
import MinesApp.TransitionSystem

/-!
# A dropped group and the Welcomes after it

`drop_group` removes a group and sets its epoch floor to `u64::MAX`, "no Welcome
will ever be accepted for this groupId" (`frontend/mls-core/src/group.rs`).  The
floor is what stands in the way of a later Welcome (`process_welcome`, `welcome.rs`),
and three things pass it or move it: a Welcome at epoch 0 lifts any floor, a Welcome
at the floor's own epoch is not below it, and `forget_group` writes its own floor
over the one that is there.

The runs below start with the drop and go on with Welcomes, `forget_group`, saves
and reloads from what was last saved, in any order.
-/

namespace MinesApp.DroppedGroup

open MlsManager TransitionSystem OrderedMap Manager

/-! ## 1. A device after the drop -/

/-- The live manager and the snapshot last saved, if one was saved since the drop. -/
structure Device where
  manager : Manager
  saved : Option PersistedState

inductive Action where
  | processWelcome (welcome : IncomingWelcome)
  | forgetGroup (groupId : String) (minEpoch : UInt64) (wiped : Storage)
  | save (failure : Option MlsError)
  | reload (userId deviceId : String) (load : String → Except String (Option MlsGroup))
      (prune : Option (UInt64 × (Bytes → Bytes → Option UInt64)))

def step (device : Device) : Action → Option Device
  | .processWelcome welcome =>
    some { device with manager := (device.manager.processWelcome welcome).1 }
  | .forgetGroup groupId minEpoch wiped =>
    some { device with manager := device.manager.forgetGroup groupId minEpoch wiped }
  | .save failure =>
    match device.manager.saveState failure with
    | (manager, .ok state) => some ⟨manager, some state⟩
    | (manager, .error _) => some { device with manager }
  -- a load that fails leaves the device to try again
  | .reload userId deviceId load prune =>
    match device.saved with
    | none => none
    | some state =>
      match restore userId deviceId state load prune with
      | .ok manager => some { device with manager }
      | .error _ => some device

/-- The device right after `drop_group`, whatever it held before. -/
def dropped (manager : Manager) (groupId : String) (wiped : Storage) : Device :=
  ⟨manager.dropGroup groupId wiped, none⟩

/-! ## 2. What keeps a group out -/

/-- A snapshot without the group and with a floor for it that is at least `bound`. -/
def Excluded (groupId : String) (bound : UInt64) (state : PersistedState) : Prop :=
  groupId ∉ state.groupIds ∧
    ∃ floor, state.forgottenGroupMinEpochs.get? groupId = some floor ∧ bound ≤ floor

/-- The group is not held and its floor is at least `bound`, in the manager and in every
    snapshot a later load could start from. -/
structure Barred (groupId : String) (bound : UInt64) (manager : Manager) : Prop where
  absent : manager.groups.get? groupId = none
  floor : ∃ floor, manager.forgottenGroupMinEpochs.get? groupId = some floor ∧ bound ≤ floor
  cached : manager.stateSnapshot.dirty = false →
    ∀ kept, manager.stateSnapshot.cached = some kept → Excluded groupId bound kept

open Barred

variable {groupId : String} {bound : UInt64} {manager : Manager}

theorem Barred.of_dirty {next : Manager} (habsent : next.groups.get? groupId = none)
    (hfloor : ∃ floor, next.forgottenGroupMinEpochs.get? groupId = some floor ∧ bound ≤ floor)
    (hdirty : next.stateSnapshot.dirty = true) : Barred groupId bound next where
  absent := habsent
  floor := hfloor
  cached := by
    intro hclean
    rw [hdirty] at hclean
    cases hclean

theorem barred_dropGroup (manager : Manager) (groupId : String) (wiped : Storage)
    (bound : UInt64) : Barred groupId bound (manager.dropGroup groupId wiped) := by
  refine of_dirty ?_ ?_ rfl
  · exact (get?_erase _ _ _).trans (if_pos rfl)
  · refine ⟨maxEpoch, get?_set_self _ _ _, ?_⟩
    exact Nat.le_of_lt_succ bound.toNat_lt

/-- A snapshot made from the manager lists the groups it holds. -/
theorem Barred.excluded (h : Barred groupId bound manager) :
    Excluded groupId bound manager.serializeState := by
  refine ⟨?_, h.floor⟩
  intro hlisted
  have hheld := (List.mem_insertionSort _).mp hlisted
  exact OrderedMap.mem_keys.mp hheld h.absent

/-! ## 3. Each step -/

section

variable (h : Barred groupId bound manager)
include h

section

variable {other : String} {epoch : UInt64}

theorem Barred.forgetGroup {minEpoch : UInt64} {wiped : Storage}
    (hfloor : other = groupId → minEpoch = 0 ∨ bound ≤ minEpoch) :
    Barred groupId bound (manager.forgetGroup other minEpoch wiped) := by
  refine of_dirty ?_ ?_ rfl
  · refine (get?_erase _ _ _).trans ?_
    split
    · rfl
    · exact h.absent
  · simp only [Manager.forgetGroup, Manager.markStateDirty]
    split
    next hpositive =>
      rw [get?_set]
      split
      next hsame =>
        refine ⟨minEpoch, rfl, (hfloor hsame.symm).resolve_left ?_⟩
        intro hzero
        rw [hzero] at hpositive
        exact absurd hpositive (by decide)
      · exact h.floor
    · exact h.floor

theorem Barred.liftFloor
    (hother : groupId ≠ other) : Barred groupId bound (manager.liftFloor other) where
  absent := h.absent
  floor := by
    obtain ⟨floor, hget, hbound⟩ := h.floor
    refine ⟨floor, ?_, hbound⟩
    rw [Manager.liftFloor, get?_erase, if_neg hother]
    exact hget
  cached := h.cached

theorem Barred.afterCall {Failure Answer : Type}
    (call : Call Failure Answer) : Barred groupId bound (manager.afterCall call) :=
  ⟨h.absent, h.floor, h.cached⟩

theorem Barred.passActive {admitted : Manager}
    (hpass : manager.passActive other epoch = some admitted) : Barred groupId bound admitted := by
  unfold Manager.passActive at hpass
  split at hpass
  · cases hpass
    exact h
  next held hheld =>
    obtain ⟨_, rfl⟩ := Option.ite_some_none_eq_some.mp hpass
    apply h.liftFloor
    rintro rfl
    rw [h.absent] at hheld
    cases hheld

theorem Barred.passFloor {cleared : Manager} (hbelow : other = groupId → epoch ≠ 0 ∧ epoch < bound)
    (hpass : manager.passFloor other epoch = .ok cleared) :
    groupId ≠ other ∧ Barred groupId bound cleared := by
  have hother : groupId ≠ other := by
    intro hsame
    obtain ⟨hnonzero, hlt⟩ := hbelow hsame.symm
    obtain ⟨floor, hget, hbound⟩ := h.floor
    rw [← hsame, Manager.passFloor, hget] at hpass
    simp only [if_neg hnonzero, if_pos (UInt64.lt_of_lt_of_le hlt hbound)] at hpass
    cases hpass
  refine ⟨hother, ?_⟩
  unfold Manager.passFloor at hpass
  split at hpass
  · cases hpass
    exact h
  · split at hpass
    · cases hpass
      exact h.liftFloor hother
    · split at hpass
      · cases hpass
      cases hpass
      exact h.liftFloor hother

end

theorem Barred.processWelcome {welcome : IncomingWelcome}
    (hbelow : ∀ epoch, welcome.staged.answer = .ok (groupId, epoch) → epoch ≠ 0 ∧ epoch < bound) :
    Barred groupId bound (manager.processWelcome welcome).1 := by
  have hcalled := h.afterCall welcome.staged
  unfold Manager.processWelcome
  split
  · exact h
  dsimp only
  split
  · exact hcalled
  next other epoch hstaged =>
    split
    · exact hcalled
    next admitted hactive =>
      have hadmitted := hcalled.passActive hactive
      split
      · exact hadmitted
      next cleared hfloor =>
        have hepoch : other = groupId → epoch ≠ 0 ∧ epoch < bound := by
          rintro rfl
          exact hbelow epoch hstaged
        obtain ⟨hother, hcleared⟩ := hadmitted.passFloor hepoch hfloor
        have hjoined := hcleared.afterCall welcome.joined
        split
        · exact hjoined
        · refine of_dirty ?_ hjoined.floor rfl
          exact (get?_set_ne _ hother _).trans hjoined.absent

end

/-! ### Saving and loading -/

theorem Barred.saveState (h : Barred groupId bound manager) (failure : Option MlsError) :
    Barred groupId bound (manager.saveState failure).1 ∧
      ∀ state, (manager.saveState failure).2 = .ok state → Excluded groupId bound state := by
  simp only [Manager.saveState, DirtyCache.getOrBuild]
  split
  next kept hclean hkept =>
    refine ⟨⟨h.absent, h.floor, h.cached⟩, ?_⟩
    intro state hstate
    cases hstate
    exact h.cached hclean kept hkept
  · cases failure with
    | some failure => exact ⟨⟨h.absent, h.floor, h.cached⟩, nofun⟩
    | none =>
      refine ⟨⟨h.absent, h.floor, ?_⟩, ?_⟩
      · intro _ kept hkept
        cases hkept
        exact h.excluded
      · intro state hstate
        cases hstate
        exact h.excluded

section

variable {load : String → Except String (Option MlsGroup)}

theorem absent_restoreGroups {ids : List String}
    {groups restored : OrderedMap String MlsGroup} (hids : groupId ∉ ids)
    (habsent : groups.get? groupId = none)
    (h : restoreGroups load ids groups = .ok restored) : restored.get? groupId = none := by
  induction ids generalizing groups with
  | nil =>
    cases h
    exact habsent
  | cons first rest ih =>
    obtain ⟨hfirst, hrest⟩ := not_or.mp (mt List.mem_cons.mpr hids)
    unfold restoreGroups at h
    split at h
    · cases h
    · exact ih hrest habsent h
    · refine ih hrest ?_ h
      exact (get?_set_ne _ hfirst _).trans habsent

theorem barred_prune (h : Barred groupId bound manager) (notAfter : Bytes → Bytes → Option UInt64)
    (now : UInt64) : Barred groupId bound (manager.pruneKeyPackagesExpiredAt notAfter now).1 := by
  unfold pruneKeyPackagesExpiredAt
  dsimp only
  split
  · exact of_dirty h.absent h.floor rfl
  · exact ⟨h.absent, h.floor, h.cached⟩

theorem Excluded.restore {state : PersistedState} (h : Excluded groupId bound state)
    {userId deviceId : String} {prune : Option (UInt64 × (Bytes → Bytes → Option UInt64))}
    (hrestore : restore userId deviceId state load prune = .ok manager) :
    Barred groupId bound manager := by
  obtain ⟨hids, hfloor⟩ := h
  unfold Manager.restore at hrestore
  dsimp only at hrestore
  split at hrestore
  · cases hrestore
  split at hrestore
  · cases hrestore
  next groups hgroups =>
    have habsent := absent_restoreGroups hids rfl hgroups
    cases hrestore
    cases prune with
    | none => exact of_dirty habsent hfloor rfl
    | some clock =>
      apply barred_prune
      exact of_dirty habsent hfloor rfl

end

/-! ## 4. Every sequence -/

section

variable (groupId : String) (bound : UInt64)

/-- The epochs of the Welcomes for the group stay under `bound` and are not 0, and the floors
    that `forget_group` sets for it do not go below `bound`. -/
def Under : Action → Prop
  | .processWelcome welcome =>
    ∀ epoch, welcome.staged.answer = .ok (groupId, epoch) → epoch ≠ 0 ∧ epoch < bound
  | .forgetGroup other minEpoch _ => other = groupId → minEpoch = 0 ∨ bound ≤ minEpoch
  | .save _ => True
  | .reload _ _ _ _ => True

/-- The live manager and the saved snapshot both keep the group out. -/
def Out (device : Device) : Prop :=
  Barred groupId bound device.manager ∧
    ∀ state, device.saved = some state → Excluded groupId bound state

end

theorem Out.step {device next : Device} {action : Action} (h : Out groupId bound device)
    (hunder : Under groupId bound action) (hstep : step device action = some next) :
    Out groupId bound next := by
  obtain ⟨hlive, hsaved⟩ := h
  cases action with
  | processWelcome welcome =>
    cases hstep
    exact ⟨hlive.processWelcome hunder, hsaved⟩
  | forgetGroup other minEpoch wiped =>
    cases hstep
    exact ⟨hlive.forgetGroup hunder, hsaved⟩
  | save failure =>
    obtain ⟨hmanager, hstate⟩ := hlive.saveState failure
    simp only [DroppedGroup.step] at hstep
    split at hstep
    next manager state heq =>
      rw [heq] at hmanager hstate
      cases hstep
      refine ⟨hmanager, ?_⟩
      intro other hother
      cases hother
      exact hstate state rfl
    next manager failure heq =>
      rw [heq] at hmanager
      cases hstep
      exact ⟨hmanager, hsaved⟩
  | reload userId deviceId load prune =>
    simp only [DroppedGroup.step] at hstep
    split at hstep
    · cases hstep
    next state hkept =>
      split at hstep
      next manager hrestore =>
        cases hstep
        exact ⟨(hsaved state hkept).restore hrestore, hsaved⟩
      · cases hstep
        exact ⟨hlive, hsaved⟩

/-- **A dropped group stays out.**  After `drop_group`, as long as the Welcomes for the group
    have epochs other than 0 and below a bound under which no later `forget_group` puts its
    floor, no sequence of Welcomes, forgets, saves and reloads makes the group present. -/
theorem drop_group_permanent (manager : Manager) (groupId : String) (wiped : Storage)
    (bound : UInt64) {actions : List Action} {final : Device}
    (hunder : ∀ action ∈ actions, Under groupId bound action)
    (hrun : run step (dropped manager groupId wiped) actions = some final) :
    final.manager.groups.get? groupId = none := by
  have hstart : Out groupId bound (dropped manager groupId wiped) :=
    ⟨barred_dropGroup manager groupId wiped bound, nofun⟩
  have hout : Out groupId bound final :=
    run_invariant Out.step hstart (eachStep_of_forall_mem hunder _) hrun
  exact hout.1.absent

/-- A device that holds one group, and a Welcome for it that OpenMLS accepts. -/
def ada : Manager :=
  ⟨.empty, ⟨[7], "ada:phone"⟩, .ofPairs [("salon", ⟨"salon", 4, true, [], none⟩)], .empty,
   .newDirty⟩

def salonWelcome (epoch : UInt64) : IncomingWelcome :=
  ⟨true, true, 1, ⟨.empty, .ok ("salon", epoch)⟩, ⟨.empty, .ok ⟨"salon", epoch, true, [], none⟩⟩⟩

def refusedTwice : List Action :=
  [.processWelcome (salonWelcome 9), .save none, .reload "ada" "phone" (fun _ => .ok none) none,
   .processWelcome (salonWelcome 9)]

theorem drop_group_permanent_refusedTwice :
    ∃ final, run step (dropped ada "salon" .empty) refusedTwice = some final ∧
      final.manager.groups.get? "salon" = none := by
  have hunder : ∀ action ∈ refusedTwice, Under "salon" maxEpoch action := by
    intro action haction
    simp only [refusedTwice, List.mem_cons, List.not_mem_nil, or_false] at haction
    rcases haction with rfl | rfl | rfl | rfl
    · rintro _ ⟨⟩
      decide
    · trivial
    · trivial
    · rintro _ ⟨⟩
      decide
  exact ⟨_, rfl, drop_group_permanent ada "salon" .empty maxEpoch hunder rfl⟩

/-- Epoch 0 lifts the floor, and so does a floor written over it. -/
theorem rejoined_after_drop :
    (∃ final, run step (dropped ada "salon" .empty) [.processWelcome (salonWelcome 0)] =
        some final ∧ final.manager.groups.get? "salon" ≠ none) ∧
    ∃ final, run step (dropped ada "salon" .empty)
        [.forgetGroup "salon" 1 .empty, .processWelcome (salonWelcome 1)] = some final ∧
      final.manager.groups.get? "salon" ≠ none := by
  refine ⟨⟨_, rfl, ?_⟩, ⟨_, rfl, ?_⟩⟩
  · decide
  · decide

end MinesApp.DroppedGroup
