import Mathlib.Data.Int.Order.Basic
import MinesApp.TransitionSystem

/-!
# The GroupInfo register

`putGroupInfo` in `messaging.service.ts` keeps one external-join base per group.  It reads
the row, and then either inserts (`ON CONFLICT DO NOTHING`) or updates under
`"baseEpoch" < :baseEpoch`.  The read only chooses the statement: another call can land
between the two, so it is the statement that decides, and the answer reports what the
statement did.  Any number of calls interleave here, one statement a step.
-/

namespace MinesApp.GroupInfoRegister

open TransitionSystem Function Option

/-! ## 1. One call -/

structure MlsGroupInfo where
  groupInfo : String
  baseEpoch : Int
deriving DecidableEq, Repr

inductive Answer where
  | stored (value : Bool)
  | threw
deriving DecidableEq, Repr

inductive Stage where
  | reading
  | inserting
  | updating
  | ended (answer : Answer)
deriving DecidableEq, Repr

structure Call where
  groupId : String
  groupInfo : String
  baseEpoch : Int
  stage : Stage
deriving DecidableEq, Repr

def Call.row (call : Call) : MlsGroupInfo := ⟨call.groupInfo, call.baseEpoch⟩

/-- After `findOne`: refuse what is not above the row, or choose a statement. -/
def Call.afterRead (call : Call) (existing : Option MlsGroupInfo) : Stage :=
  match existing with
  | some row => if row.baseEpoch ≥ call.baseEpoch then .ended (.stored false) else .updating
  | none => .inserting

section

variable (stored : Option MlsGroupInfo) (row : MlsGroupInfo)

/-- `INSERT .. ON CONFLICT DO NOTHING`: the row afterwards, and whether one came back. -/
def insertOrIgnore : Option MlsGroupInfo × Bool :=
  match stored with
  | some held => (some held, false)
  | none => (some row, true)

/-- `UPDATE .. WHERE "baseEpoch" < :baseEpoch`: the row afterwards, and whether it matched. -/
def updateBelow : Option MlsGroupInfo × Bool :=
  match stored with
  | some held => if held.baseEpoch < row.baseEpoch then (some row, true) else (some held, false)
  | none => (none, false)

end

/-! ## 2. Interleaved calls -/

structure Register where
  rows : String → Option MlsGroupInfo
  calls : Nat → Option Call

open Register

/-- `resume` runs the call's pending statement and its answer arrives; `fail` loses the
    statement, and `lose` only its answer. -/
inductive Action where
  | call (id : Nat) (groupId groupInfo : String) (baseEpoch : Int)
  | resume (id : Nat)
  | fail (id : Nat)
  | lose (id : Nat)
deriving DecidableEq, Repr

section

variable (register : Register)

def Register.move (id : Nat) (call : Call) (stage : Stage) : Register :=
  { register with calls := update register.calls id (some { call with stage }) }

def Register.write (groupId : String) (row : Option MlsGroupInfo) : Register :=
  { register with rows := update register.rows groupId row }

/-- What the pending statement of a call does to the register, and where it leaves the call. -/
def statement (call : Call) : Option (Register × Stage) :=
  let stored := register.rows call.groupId
  match call.stage with
  | .reading => some (register, call.afterRead stored)
  | .inserting =>
    let (row, won) := insertOrIgnore stored call.row
    some (register.write call.groupId row, .ended (.stored won))
  | .updating =>
    let (row, advanced) := updateBelow stored call.row
    some (register.write call.groupId row, .ended (.stored advanced))
  | .ended _ => none

def step : Action → Option Register
  | .call id groupId groupInfo baseEpoch =>
    match register.calls id with
    | none => some (register.move id ⟨groupId, groupInfo, baseEpoch, .reading⟩ .reading)
    | some _ => none
  | .resume id =>
    (register.calls id).bind fun call =>
      (statement register call).map fun (after, stage) => after.move id call stage
  | .fail id =>
    (register.calls id).bind fun call =>
      (statement register call).map fun _ => register.move id call (.ended .threw)
  | .lose id =>
    (register.calls id).bind fun call =>
      (statement register call).map fun (after, _) => after.move id call (.ended .threw)

end

def Register.start (rows : String → Option MlsGroupInfo) : Register := ⟨rows, fun _ => none⟩

/-! ## 3. What one step can do -/

variable {register after next : Register} {call : Call} {stage : Stage} {action : Action}

/-- The statement of a call leaves the register alone, or puts the call's own row over a
    row of a lower epoch, or over none, and says so. -/
theorem statement_cases (h : statement register call = some (after, stage)) :
    (after = register ∧ stage ≠ .ended (.stored true)) ∨
    (after = register.write call.groupId (some call.row) ∧ stage = .ended (.stored true) ∧
      ∀ held, register.rows call.groupId = some held → held.baseEpoch < call.baseEpoch) := by
  have hsame : ∀ stored, register.rows call.groupId = stored →
      register.write call.groupId stored = register := by
    rintro _ rfl
    simp only [write, update_eq_self]
  unfold statement at h
  cases hstage : call.stage with
  | reading =>
    simp only [hstage, some.injEq, Prod.mk.injEq] at h
    obtain ⟨rfl, rfl⟩ := h
    refine .inl ⟨rfl, ?_⟩
    unfold Call.afterRead
    split
    · split <;> simp
    · simp
  | inserting =>
    cases hstored : register.rows call.groupId with
    | none =>
      simp only [hstage, hstored, insertOrIgnore, some.injEq, Prod.mk.injEq] at h
      obtain ⟨rfl, rfl⟩ := h
      exact .inr ⟨rfl, rfl, nofun⟩
    | some held =>
      simp only [hstage, hstored, insertOrIgnore, some.injEq, Prod.mk.injEq] at h
      obtain ⟨rfl, rfl⟩ := h
      exact .inl ⟨hsame _ hstored, by simp⟩
  | updating =>
    cases hstored : register.rows call.groupId with
    | none =>
      simp only [hstage, hstored, updateBelow, some.injEq, Prod.mk.injEq] at h
      obtain ⟨rfl, rfl⟩ := h
      exact .inl ⟨hsame _ hstored, by simp⟩
    | some held =>
      by_cases hbelow : held.baseEpoch < call.row.baseEpoch
      · simp only [hstage, hstored, updateBelow, hbelow, if_true, some.injEq, Prod.mk.injEq] at h
        obtain ⟨rfl, rfl⟩ := h
        refine .inr ⟨rfl, rfl, ?_⟩
        rintro other ⟨⟩
        exact hbelow
      · simp only [hstage, hstored, updateBelow, hbelow, if_false, some.injEq, Prod.mk.injEq] at h
        obtain ⟨rfl, rfl⟩ := h
        exact .inl ⟨hsame _ hstored, by simp⟩
  | ended answer =>
    simp only [hstage] at h
    cases h

/-- What a step does to the rows on behalf of one call. -/
inductive Effect (register after : Register) (call : Call) (stage : Stage) : Prop where
  | kept (hafter : after = register) (hstage : stage ≠ .ended (.stored true))
  | wrote (hafter : after = register.write call.groupId (some call.row))
      (hstage : stage = .ended (.stored true) ∨ stage = .ended .threw)
      (hbelow : ∀ held, register.rows call.groupId = some held → held.baseEpoch < call.baseEpoch)

/-- Every step moves one call that has not ended, with one effect. -/
theorem step_cases (h : step register action = some next) :
    ∃ id call stage after, next = after.move id call stage ∧ Effect register after call stage ∧
      ∀ before, register.calls id = some before →
        before = call ∧ ∀ answer, call.stage ≠ .ended answer := by
  have hmoved : ∀ {id : Nat} {call : Call} {result : Register × Stage},
      register.calls id = some call → statement register call = some result →
      ∀ before, register.calls id = some before →
        before = call ∧ ∀ answer, call.stage ≠ .ended answer := by
    intro id call result hcall hstatement before hbefore
    refine ⟨some.inj (hbefore.symm.trans hcall), fun answer hended => ?_⟩
    simp only [statement, hended] at hstatement
    cases hstatement
  cases action with
  | call id groupId groupInfo baseEpoch =>
    simp only [step] at h
    split at h
    next hnone =>
      cases h
      refine ⟨id, ⟨groupId, groupInfo, baseEpoch, .reading⟩, .reading, register, rfl,
        .kept rfl (by simp), ?_⟩
      rw [hnone]
      exact nofun
    · cases h
  | resume id =>
    obtain ⟨call, hcall, hmap⟩ := bind_eq_some_iff.mp h
    obtain ⟨⟨after, stage⟩, hstatement, rfl⟩ := map_eq_some_iff.mp hmap
    refine ⟨id, call, stage, after, rfl, ?_, hmoved hcall hstatement⟩
    rcases statement_cases hstatement with ⟨hafter, hstage⟩ | ⟨hafter, hstage, hbelow⟩
    · exact .kept hafter hstage
    · exact .wrote hafter (.inl hstage) hbelow
  | fail id =>
    obtain ⟨call, hcall, hmap⟩ := bind_eq_some_iff.mp h
    obtain ⟨result, hstatement, rfl⟩ := map_eq_some_iff.mp hmap
    exact ⟨id, call, .ended .threw, register, rfl, .kept rfl (by simp), hmoved hcall hstatement⟩
  | lose id =>
    obtain ⟨call, hcall, hmap⟩ := bind_eq_some_iff.mp h
    obtain ⟨⟨after, stage⟩, hstatement, rfl⟩ := map_eq_some_iff.mp hmap
    refine ⟨id, call, .ended .threw, after, rfl, ?_, hmoved hcall hstatement⟩
    rcases statement_cases hstatement with ⟨hafter, _⟩ | ⟨hafter, _, hbelow⟩
    · exact .kept hafter (by simp)
    · exact .wrote hafter (.inr rfl) hbelow

/-! ## 4. Whole runs -/

/-- The epoch of a row is not above the epoch of the row that follows it. -/
def NotBehind (before after : Option MlsGroupInfo) : Prop :=
  ∀ row, before = some row → ∃ next, after = some next ∧ row.baseEpoch ≤ next.baseEpoch

theorem NotBehind.refl (row : Option MlsGroupInfo) : NotBehind row row :=
  fun held hheld => ⟨held, hheld, le_rfl⟩

theorem NotBehind.trans {first second third : Option MlsGroupInfo} (h : NotBehind first second)
    (h' : NotBehind second third) : NotBehind first third := by
  intro row hrow
  obtain ⟨next, hnext, hle⟩ := h row hrow
  obtain ⟨last, hlast, hle'⟩ := h' next hnext
  exact ⟨last, hlast, le_trans hle hle'⟩

theorem Effect.calls_eq (h : Effect register after call stage) : after.calls = register.calls := by
  cases h with
  | kept hafter _ => rw [hafter]
  | wrote hafter _ _ => rw [hafter, write]

theorem Effect.notBehind (h : Effect register after call stage) (groupId : String) :
    NotBehind (register.rows groupId) (after.rows groupId) := by
  cases h with rw [hafter]
  | kept hafter _ =>
    exact .refl _
  | wrote hafter _ hbelow =>
    by_cases hgroup : groupId = call.groupId
    · subst hgroup
      intro row hrow
      exact ⟨call.row, update_self .., le_of_lt (hbelow row hrow)⟩
    · have hother : (register.write call.groupId (some call.row)).rows groupId =
          register.rows groupId := update_of_ne hgroup ..
      rw [hother]
      exact .refl _

/-- The call was told that its base is the stored one. -/
def Call.won (call : Call) : Prop := call.stage = .ended (.stored true)

/-- What the winners of the past owe: none is above the stored row, and no two of them
    share a group and an epoch. -/
structure Inv (register : Register) : Prop where
  reached : ∀ id call, register.calls id = some call → call.won →
    NotBehind (some call.row) (register.rows call.groupId)
  distinct : ∀ id other call call', register.calls id = some call →
    register.calls other = some call' → call.won → call'.won →
    call.groupId = call'.groupId → call.baseEpoch = call'.baseEpoch → id = other

theorem Inv.start (rows : String → Option MlsGroupInfo) : Inv (.start rows) where
  reached _ _ hcall := nomatch hcall
  distinct _ _ _ _ hcall := nomatch hcall

/-- A new winner is strictly above every winner before it. -/
theorem Inv.above {winner : Call} {id : Nat}
    (h : Inv register) (heffect : Effect register after call (.ended (.stored true)))
    (hwinner : register.calls id = some winner) (hwon : winner.won)
    (hgroup : winner.groupId = call.groupId) : winner.baseEpoch < call.baseEpoch := by
  cases heffect with
  | kept _ hstage => exact absurd rfl hstage
  | wrote _ _ hbelow =>
    obtain ⟨held, hheld, hle⟩ := h.reached id winner hwinner hwon _ rfl
    rw [hgroup] at hheld
    exact lt_of_le_of_lt hle (hbelow held hheld)

theorem Inv.step (h : Inv register) (hstep : step register action = some next) : Inv next := by
  obtain ⟨id, call, stage, after, rfl, heffect, _⟩ := step_cases hstep
  have hcalls : (after.move id call stage).calls =
      update register.calls id (some { call with stage }) := by
    rw [move, heffect.calls_eq]
  refine ⟨forall_update hcalls (fun hwon => ?_) fun other found _ hold hwon => ?_, ?_⟩
  · cases heffect with
    | kept _ hstage => exact absurd hwon hstage
    | wrote hafter _ _ =>
      rintro _ ⟨⟩
      rw [hafter]
      exact ⟨call.row, update_self .., le_rfl⟩
  · exact (h.reached other found hold hwon).trans (heffect.notBehind _)
  · intro first second found found' hfirst hsecond hwon hwon' hgroup hepoch
    refine unique_update (R := fun call call' => call.won ∧ call'.won ∧
      call.groupId = call'.groupId ∧ call.baseEpoch = call'.baseEpoch) hcalls ?_ ?_ ?_
      first second found found' hfirst hsecond ⟨hwon, hwon', hgroup, hepoch⟩
    · rintro _ _ ⟨hwon, hwon', hgroup, hepoch⟩
      exact ⟨hwon', hwon, hgroup.symm, hepoch.symm⟩
    · rintro _ _ _ _ hold hold' ⟨hwon, hwon', hgroup, hepoch⟩
      exact h.distinct _ _ _ _ hold hold' hwon hwon' hgroup hepoch
    · rintro other winner hold ⟨hwon, hwon', hgroup, hepoch⟩
      cases (hwon : stage = _)
      have habove : winner.baseEpoch < call.baseEpoch := h.above heffect hold hwon' hgroup.symm
      exact absurd hepoch (ne_of_gt habove)

/-- The call's own row took the place of another one, or of none. -/
def Became (register next : Register) (call : Call) : Prop :=
  register.rows call.groupId ≠ some call.row ∧ next.rows call.groupId = some call.row

/-- A call is answered `stored: true` exactly when its row became the stored one. -/
theorem stored_iff_became {id : Nat}
    {before after : Call} {value : Bool} (hstep : step register action = some next)
    (hbefore : register.calls id = some before) (hrunning : ∀ answer, before.stage ≠ .ended answer)
    (hafter : next.calls id = some after) (hanswer : after.stage = .ended (.stored value)) :
    value = true ↔ Became register next after := by
  obtain ⟨mover, call, stage, middle, rfl, heffect, hmover⟩ := step_cases hstep
  rw [move, heffect.calls_eq] at hafter
  rcases update_eq_some_iff.mp hafter with ⟨rfl, hsame⟩ | ⟨_, hold⟩
  · cases hsame
    cases heffect with
    | kept hmiddle hstage =>
      refine iff_of_false (fun hvalue => hstage (hvalue ▸ hanswer)) fun hbecame => hbecame.1 ?_
      rw [← hmiddle]
      exact hbecame.2
    | wrote hmiddle hstage hbelow =>
      refine iff_of_true ?_ ⟨fun hheld => ?_, ?_⟩
      · rcases hstage with rfl | rfl
        · cases hanswer
          rfl
        · cases hanswer
      · exact absurd (hbelow _ hheld) (lt_irrefl _)
      · rw [hmiddle]
        exact update_self ..
  · cases hbefore.symm.trans hold
    exact absurd hanswer (hrunning _)

/-- **The GroupInfo register.**  In every state that calls of `putGroupInfo` can reach, in
    any interleaving and whatever rows they started from: the epoch that is stored for a
    group only grows from there on; at most one call for a group and a base epoch has been
    answered `stored: true`; and a step that answers a call does so with `true` exactly when
    the call's own row becomes the stored one at that step. -/
theorem group_info_register {rows : String → Option MlsGroupInfo} {actions : List Action}
    {register : Register} (hrun : run step (.start rows) actions = some register) :
    (∀ later final, run step register later = some final →
      ∀ groupId, NotBehind (register.rows groupId) (final.rows groupId)) ∧
    (∀ id other call call', register.calls id = some call → register.calls other = some call' →
      call.won → call'.won → call.groupId = call'.groupId → call.baseEpoch = call'.baseEpoch →
      id = other) ∧
    (∀ action next id before after value, step register action = some next →
      register.calls id = some before → (∀ answer, before.stage ≠ .ended answer) →
      next.calls id = some after → after.stage = .ended (.stored value) →
      (value = true ↔ Became register next after)) := by
  have hinv : Inv register := invariant_of_run Inv.step (Inv.start rows) hrun
  refine ⟨?_, hinv.distinct, ?_⟩
  · intro later final hlater groupId
    exact run_relation (fun first second => NotBehind (first.rows groupId) (second.rows groupId))
      (fun _ => .refl _) .trans (fun h _ => Inv.step h)
      (fun _ _ hstep => by
        obtain ⟨id, call, stage, after, rfl, heffect, _⟩ := step_cases hstep
        exact heffect.notBehind groupId) hinv (eachStep_anyStep _ _) hlater
  · intro action next id before after value hstep hbefore hrunning hafter hanswer
    exact stored_iff_became hstep hbefore hrunning hafter hanswer

/-- Two creators find no row, and the second insert loses to the first. -/
def twoCreators : List Action :=
  [.call 0 "g" "first" 0, .call 1 "g" "second" 0, .resume 0, .resume 1, .resume 1, .resume 0]

theorem group_info_register_creators :
    ∃ register, run step (.start fun _ => none) twoCreators = some register ∧
      register.rows "g" = some ⟨"second", 0⟩ ∧
      ∀ id other call call', register.calls id = some call → register.calls other = some call' →
        call.won → call'.won → call.groupId = call'.groupId →
        call.baseEpoch = call'.baseEpoch → id = other := by
  have hrun : run step (.start fun _ => none) twoCreators = some _ := rfl
  exact ⟨_, hrun, by decide, (group_info_register hrun).2.1⟩

end MinesApp.GroupInfoRegister
