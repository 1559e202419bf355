import Mathlib.Data.List.Nodup
import MinesApp.TransitionSystem

/-!
# Rotating a refresh token

`rotate` in `auth-sessions.service.ts` consumes the token id of a refresh cookie and issues
the next one with a single conditional `UPDATE`.  A call whose update matched nothing reads
the row and classifies the id it presents: the id that the last rotation consumed is still
good for a minute, and any other one destroys the session.

One session, any number of calls, one statement a step.  Each call takes the time once, when
it starts, so the time it writes may be well before its statement runs.
-/

namespace MinesApp.RefreshRotation

open TransitionSystem List Function Option

/-! ## 1. The session and the statements of a call -/

def sessionTtlSeconds : Nat := 7 * 24 * 60 * 60

def rotationGraceSeconds : Nat := 60

/-- What `rotate` reads and writes of the row; times are milliseconds. -/
structure AuthSession where
  tokenId : Nat
  previousTokenId : Option Nat
  rotatedAt : Option Nat
  expiresAt : Nat
deriving DecidableEq, Repr

def expiryFrom (now : Nat) : Nat := now + sessionTtlSeconds * 1000

def AuthSession.create (now tokenId : Nat) : AuthSession :=
  ⟨tokenId, none, none, expiryFrom now⟩

inductive RotateResult where
  | rotated (tokenId expiresAt : Nat)
  | reissued (tokenId expiresAt : Nat)
  | replayed
  | unknown
deriving DecidableEq, Repr

inductive Stage where
  | updating
  | reading
  | deleting
  | ended (result : RotateResult)
  | threw
deriving DecidableEq, Repr

/-- A call and its local variables; `row` is what `findOne` answered. -/
structure Call where
  presentedTokenId : Nat
  now : Nat
  nextTokenId : Nat
  row : Option AuthSession
  stage : Stage
deriving DecidableEq, Repr

open Call

/-- The `WHERE` clause of the update. -/
def Call.matches (call : Call) (session : AuthSession) : Prop :=
  session.tokenId = call.presentedTokenId ∧ session.expiresAt > call.now

instance (call : Call) (session : AuthSession) : Decidable (call.matches session) :=
  inferInstanceAs (Decidable (_ ∧ _))

def Call.rotated (call : Call) : AuthSession :=
  ⟨call.nextTokenId, some call.presentedTokenId, some call.now, expiryFrom call.now⟩

/-- The id was consumed by the last rotation, no more than the grace period before. -/
def Call.inGrace (call : Call) (session : AuthSession) : Prop :=
  session.previousTokenId = some call.presentedTokenId ∧
    ∃ rotatedAt ∈ session.rotatedAt, call.now ≤ rotatedAt + rotationGraceSeconds * 1000

instance (call : Call) (session : AuthSession) : Decidable (call.inGrace session) :=
  inferInstanceAs (Decidable (_ ∧ _))

/-- Where the row that was read sends the call. -/
def Call.classify (call : Call) : Option AuthSession → Stage
  | none => .ended .unknown
  | some session =>
    if session.expiresAt ≤ call.now then .ended .unknown
    else if call.inGrace session then .ended (.reissued session.tokenId session.expiresAt)
    else .deleting

/-! ## 2. Interleaved calls -/

/-- `clock` is the time and `issued` the number of token ids that exist.  `consumed` records
    the ids that a rotation has replaced, each with the time the rotation wrote. -/
structure State where
  clock : Nat
  issued : Nat
  session : Option AuthSession
  consumed : List (Nat × Nat)
  calls : Nat → Option Call

/-- `resume` runs the pending statement of a call; `fail` loses the statement, and `lose`
    only its answer.  `revoke` is any other deletion of the row. -/
inductive Action where
  | tick (milliseconds : Nat)
  | revoke
  | rotate (id presentedTokenId : Nat)
  | resume (id : Nat)
  | fail (id : Nat)
  | lose (id : Nat)
deriving DecidableEq, Repr

section

variable (state : State)

def State.set (id : Nat) (call : Call) : State :=
  { state with calls := update state.calls id (some call) }

def State.consume (call : Call) : State :=
  { state with
    session := some call.rotated
    consumed := state.consumed ++ [(call.presentedTokenId, call.now)] }

/-- What the pending statement does, and the call after it. -/
def statement (call : Call) : Option (State × Call) :=
  match call.stage with
  | .updating =>
    if ∃ session ∈ state.session, call.matches session then
      some (state.consume call,
        { call with stage := .ended (.rotated call.nextTokenId (expiryFrom call.now)) })
    else some (state, { call with stage := .reading })
  | .reading =>
    some (state, { call with row := state.session, stage := call.classify state.session })
  | .deleting => some ({ state with session := none }, { call with stage := .ended .replayed })
  | .ended _ | .threw => none

def step : Action → Option State
  | .tick milliseconds => some { state with clock := state.clock + milliseconds }
  | .revoke => some { state with session := none }
  | .rotate id presentedTokenId =>
    match state.calls id with
    | none =>
      some ({ state with issued := state.issued + 1 }.set id
        ⟨presentedTokenId, state.clock, state.issued, none, .updating⟩)
    | some _ => none
  | .resume id =>
    (state.calls id).bind fun call =>
      (statement state call).map fun (after, moved) => after.set id moved
  | .fail id =>
    (state.calls id).bind fun call =>
      (statement state call).map fun _ => state.set id { call with stage := .threw }
  | .lose id =>
    (state.calls id).bind fun call =>
      (statement state call).map fun (after, _) => after.set id { call with stage := .threw }

end

/-- A session opened at `now`, with token id 0. -/
def State.start (now : Nat) : State := ⟨now, 1, some (.create now 0), [], fun _ => none⟩

/-! ## 3. What one step can do -/

/-- One constructor for each way a statement can end. -/
inductive Effect (state : State) (call : Call) : State → Call → Prop where
  | rotated (session : AuthSession) (hstage : call.stage = .updating)
      (hsession : state.session = some session) (hmatches : call.matches session) :
      Effect state call (state.consume call)
        { call with stage := .ended (.rotated call.nextTokenId (expiryFrom call.now)) }
  | missed (hstage : call.stage = .updating)
      (hmatches : ∀ session, state.session = some session → ¬ call.matches session) :
      Effect state call state { call with stage := .reading }
  | read (hstage : call.stage = .reading) :
      Effect state call state
        { call with row := state.session, stage := call.classify state.session }
  | deleted (hstage : call.stage = .deleting) :
      Effect state call { state with session := none } { call with stage := .ended .replayed }

variable {state after next : State} {call moved : Call} {action : Action} {token id time : Nat}

theorem statement_cases (h : statement state call = some (after, moved)) :
    Effect state call after moved := by
  unfold statement at h
  split at h
  next hstage =>
    split at h
    next hmatches =>
      obtain ⟨session, hsession, hmatches⟩ := hmatches
      cases h
      exact .rotated session hstage hsession hmatches
    next hmatches =>
      cases h
      exact .missed hstage fun session hsession hmatch => hmatches ⟨session, hsession, hmatch⟩
  · cases h
    exact .read ‹_›
  · cases h
    exact .deleted ‹_›
  · cases h
  · cases h

/-- What a step does: time passes, the row is deleted from outside, a call starts, or the
    statement of a call runs, fails or loses its answer. -/
inductive Move (state : State) : State → Prop where
  | tick (milliseconds : Nat) : Move state { state with clock := state.clock + milliseconds }
  | revoke : Move state { state with session := none }
  | started (id presentedTokenId : Nat) (hfree : state.calls id = none) :
      Move state ({ state with issued := state.issued + 1 }.set id
        ⟨presentedTokenId, state.clock, state.issued, none, .updating⟩)
  | resumed (id : Nat) (call : Call) (after : State) (moved : Call)
      (hcall : state.calls id = some call) (heffect : Effect state call after moved) :
      Move state (after.set id moved)
  | threw (id : Nat) (call : Call) (after : State) (moved : Call)
      (hcall : state.calls id = some call) (heffect : Effect state call after moved)
      (middle : State) (hmiddle : middle = state ∨ middle = after) :
      Move state (middle.set id { call with stage := .threw })

theorem step_cases (h : step state action = some next) : Move state next := by
  cases action with
  | tick milliseconds =>
    cases h
    exact .tick milliseconds
  | revoke =>
    cases h
    exact .revoke
  | rotate id presentedTokenId =>
    simp only [step] at h
    split at h
    next hfree =>
      cases h
      exact .started id presentedTokenId hfree
    · cases h
  | resume id =>
    obtain ⟨call, hcall, hmap⟩ := bind_eq_some_iff.mp h
    obtain ⟨⟨after, moved⟩, hstatement, rfl⟩ := map_eq_some_iff.mp hmap
    exact .resumed id call after moved hcall (statement_cases hstatement)
  | fail id =>
    obtain ⟨call, hcall, hmap⟩ := bind_eq_some_iff.mp h
    obtain ⟨⟨after, moved⟩, hstatement, rfl⟩ := map_eq_some_iff.mp hmap
    exact .threw id call after moved hcall (statement_cases hstatement) state (.inl rfl)
  | lose id =>
    obtain ⟨call, hcall, hmap⟩ := bind_eq_some_iff.mp h
    obtain ⟨⟨after, moved⟩, hstatement, rfl⟩ := map_eq_some_iff.mp hmap
    exact .threw id call after moved hcall (statement_cases hstatement) after (.inr rfl)

/-! ## 4. What every reachable state keeps -/

def State.tokens (state : State) : List Nat := state.consumed.map Prod.fst

/-- An id that is neither the current one nor a consumed one. -/
def State.Fresh (state : State) (token : Nat) : Prop :=
  token ∉ state.tokens ∧ ∀ session, state.session = some session → session.tokenId ≠ token

/-- What the row and the record of rotations owe each other. -/
structure Ledger (state : State) : Prop where
  current : ∀ session, state.session = some session →
    session.tokenId < state.issued ∧ session.tokenId ∉ state.tokens
  issued : ∀ token ∈ state.tokens, token < state.issued
  nodup : state.tokens.Nodup
  recorded : ∀ session, state.session = some session →
    session.previousTokenId = state.consumed.getLast?.map Prod.fst ∧
      session.rotatedAt = state.consumed.getLast?.map Prod.snd

/-- What the answer of a call says about the row it read and about the session. -/
def Call.Explained (state : State) (call : Call) : Prop :=
  match call.stage with
  | .updating | .reading | .deleting | .threw => True
  | .ended (.rotated ..) => call.presentedTokenId ∈ state.tokens
  | .ended (.reissued ..) => ∃ row, call.row = some row ∧ call.inGrace row
  | .ended .unknown => ∀ row, call.row = some row → row.expiresAt ≤ call.now
  | .ended .replayed => state.session = none

structure Sound (state : State) (call : Call) : Prop where
  issued : call.nextTokenId < state.issued
  fresh : call.stage = .updating → state.Fresh call.nextTokenId
  read : ∀ row, call.row = some row → ∀ token time, row.previousTokenId = some token →
    row.rotatedAt = some time → (token, time) ∈ state.consumed
  explained : call.Explained state

/-- The call was answered `rotated`. -/
def Call.won (call : Call) : Prop :=
  ∃ tokenId expiresAt, call.stage = .ended (.rotated tokenId expiresAt)

/-- Both calls were answered `rotated` for one token. -/
def SameToken (call call' : Call) : Prop :=
  call.won ∧ call'.won ∧ call.presentedTokenId = call'.presentedTokenId

theorem SameToken.symm {call call' : Call} (h : SameToken call call') : SameToken call' call :=
  ⟨h.2.1, h.1, h.2.2.symm⟩

structure Inv (state : State) : Prop where
  ledger : Ledger state
  sound : ∀ id call, state.calls id = some call → Sound state call
  distinct : ∀ id other call call', state.calls id = some call → state.calls other = some call' →
    call.nextTokenId = call'.nextTokenId → id = other
  once : ∀ id other call call', state.calls id = some call → state.calls other = some call' →
    SameToken call call' → id = other

theorem Inv.start (now : Nat) : Inv (.start now) where
  ledger := by
    refine ⟨?_, nofun, nodup_nil, ?_⟩
    · rintro _ ⟨⟩
      exact ⟨Nat.one_pos, nofun⟩
    · rintro _ ⟨⟩
      exact ⟨rfl, rfl⟩
  sound _ _ hcall := nomatch hcall
  distinct _ _ _ _ hcall := nomatch hcall
  once _ _ _ _ hcall := nomatch hcall

/-- Nothing is forgotten and a deleted session stays deleted. -/
structure Grows (state after : State) : Prop where
  issued : state.issued ≤ after.issued
  consumed : state.consumed ⊆ after.consumed
  gone : state.session = none → after.session = none

theorem Grows.refl (state : State) : Grows state state :=
  ⟨Nat.le_refl _, List.Subset.refl _, id⟩

theorem Grows.tokens (h : Grows state after) :
    state.tokens ⊆ after.tokens := map_subset _ h.consumed

theorem Call.Explained.grows (h : call.Explained state)
    (hgrows : Grows state after) : call.Explained after := by
  unfold Call.Explained at h ⊢
  split at h
  · trivial
  · trivial
  · trivial
  · trivial
  · exact hgrows.tokens h
  · exact h
  · exact h
  · exact hgrows.gone h

theorem Sound.grows (h : Sound state call) (hgrows : Grows state after)
    (hfresh : call.stage = .updating → after.Fresh call.nextTokenId) : Sound after call where
  issued := Nat.lt_of_lt_of_le h.issued hgrows.issued
  fresh := hfresh
  read row hrow token time hprevious hrotated :=
    hgrows.consumed (h.read row hrow token time hprevious hrotated)
  explained := h.explained.grows hgrows

/-! ### One statement -/

theorem tokens_consume (state : State) (call : Call) :
    (state.consume call).tokens = state.tokens ++ [call.presentedTokenId] := by
  simp only [State.tokens, State.consume, map_append, map_cons, map_nil]

section

variable (h : Effect state call after moved)
include h

theorem Effect.grows : Grows state after := by
  cases h with
  | rotated session hstage hsession hmatches =>
    refine ⟨Nat.le_refl _, subset_append_left _ _, fun hnone => ?_⟩
    cases hsession.symm.trans hnone
  | missed | read => exact .refl _
  | deleted => exact ⟨Nat.le_refl _, List.Subset.refl _, fun _ => rfl⟩

theorem Effect.calls_eq : after.calls = state.calls := by
  cases h <;> rfl

theorem Effect.same :
    moved.presentedTokenId = call.presentedTokenId ∧ moved.now = call.now ∧
      moved.nextTokenId = call.nextTokenId ∧ moved.stage ≠ .updating := by
  cases h with
  | rotated | missed | deleted => exact ⟨rfl, rfl, rfl, nofun⟩
  | read =>
    refine ⟨rfl, rfl, rfl, ?_⟩
    unfold classify
    split
    · exact nofun
    · split
      · exact nofun
      · split <;> exact nofun

end

/-- A rotation replaces the current id by the one its call holds, which is fresh. -/
theorem Ledger.consume {session : AuthSession} (h : Ledger state) (hsound : Sound state call)
    (hstage : call.stage = .updating) (hsession : state.session = some session)
    (hmatches : call.matches session) : Ledger (state.consume call) := by
  obtain ⟨hlt, hnot⟩ := h.current session hsession
  rw [hmatches.1] at hlt hnot
  obtain ⟨hunused, hother⟩ := hsound.fresh hstage
  have hne : call.presentedTokenId ≠ call.nextTokenId := by
    rw [← hmatches.1]
    exact hother session hsession
  refine ⟨?_, ?_, ?_, ?_⟩
  · rintro _ ⟨⟩
    refine ⟨hsound.issued, ?_⟩
    rw [tokens_consume, mem_append, mem_singleton]
    rintro (hold | hnew)
    · exact hunused hold
    · exact hne hnew.symm
  · intro token htoken
    rw [tokens_consume, mem_append, mem_singleton] at htoken
    rcases htoken with hold | rfl
    · exact h.issued token hold
    · exact hlt
  · rw [tokens_consume]
    exact h.nodup.append (nodup_singleton _) (disjoint_singleton.mpr hnot)
  · rintro _ ⟨⟩
    simp [State.consume, rotated]

theorem Ledger.gone (h : Ledger state) : Ledger { state with session := none } :=
  ⟨nofun, h.issued, h.nodup, nofun⟩

theorem Effect.ledger (h : Effect state call after moved) (hledger : Ledger state)
    (hsound : Sound state call) : Ledger after := by
  cases h with
  | rotated session hstage hsession hmatches =>
    exact hledger.consume hsound hstage hsession hmatches
  | missed | read => exact hledger
  | deleted => exact hledger.gone

theorem Effect.fresh (h : Effect state call after moved) (hfresh : state.Fresh token)
    (hother : call.nextTokenId ≠ token) : after.Fresh token := by
  cases h with
  | rotated session hstage hsession hmatches =>
    refine ⟨?_, ?_⟩
    · rw [tokens_consume, mem_append, mem_singleton]
      rintro (hold | rfl)
      · exact hfresh.1 hold
      · exact hfresh.2 session hsession hmatches.1
    · rintro _ ⟨⟩
      exact hother
  | missed | read => exact hfresh
  | deleted => exact ⟨hfresh.1, nofun⟩

/-- The answer that the row leads to is explained by it. -/
theorem Call.classify_explained (state : State) (call : Call) (row : Option AuthSession) :
    Call.Explained state { call with row, stage := call.classify row } := by
  cases row with
  | none => exact nofun
  | some session =>
    by_cases hexpired : session.expiresAt ≤ call.now
    · simp only [Call.Explained, classify, hexpired, if_true]
      rintro _ ⟨⟩
      exact hexpired
    · by_cases hgrace : call.inGrace session
      · simp only [Call.Explained, classify, hexpired, hgrace, if_true, if_false]
        exact ⟨session, rfl, hgrace⟩
      · simp only [Call.Explained, classify, hexpired, hgrace, if_false]

theorem Effect.sound (h : Effect state call after moved)
    (hledger : Ledger state) (hsound : Sound state call) : Sound after moved := by
  have hsame := h.same
  have hissued : moved.nextTokenId < after.issued := by
    rw [hsame.2.2.1]
    exact Nat.lt_of_lt_of_le hsound.issued h.grows.issued
  have hkept : ∀ row, call.row = some row → ∀ token time, row.previousTokenId = some token →
      row.rotatedAt = some time → (token, time) ∈ after.consumed :=
    fun row hrow token time hprevious hrotated =>
      h.grows.consumed (hsound.read row hrow token time hprevious hrotated)
  refine ⟨hissued, fun hstage => absurd hstage hsame.2.2.2, ?_, ?_⟩
  · cases h with
    | rotated | missed | deleted => exact hkept
    | read =>
      intro row hrow token time hprevious hrotated
      obtain ⟨hlast, htime⟩ := hledger.recorded row hrow
      rw [hprevious] at hlast
      rw [hrotated] at htime
      obtain ⟨⟨token', time'⟩, hmem, rfl⟩ := map_eq_some_iff.mp hlast.symm
      rw [hmem] at htime
      cases htime
      exact mem_of_getLast? hmem
  · cases h with
    | rotated =>
      show _ ∈ (state.consume call).tokens
      rw [tokens_consume]
      exact mem_append_right _ (mem_singleton_self _)
    | missed => trivial
    | read => exact call.classify_explained state state.session
    | deleted => rfl

theorem Sound.threw (h : Sound state call) :
    Sound state { call with stage := .threw } := ⟨h.issued, nofun, h.read, trivial⟩

/-! ### One step -/

theorem Ledger.set (h : Ledger state) (id : Nat) (call : Call) :
    Ledger (state.set id call) := ⟨h.current, h.issued, h.nodup, h.recorded⟩

theorem Sound.set (h : Sound state call) (id : Nat) (moved : Call) :
    Sound (state.set id moved) call := ⟨h.issued, h.fresh, h.read, h.explained⟩

theorem Inv.move (h : Inv state) (hcall : state.calls id = some call)
    (hcalls : after.calls = state.calls) (hgrows : Grows state after) (hledger : Ledger after)
    (hsound : Sound after moved)
    (hfresh : ∀ token, state.Fresh token → call.nextTokenId ≠ token → after.Fresh token)
    (hnext : moved.nextTokenId = call.nextTokenId)
    (hwon : moved.won → ∀ other found, state.calls other = some found → found.won →
      found.presentedTokenId ≠ moved.presentedTokenId) : Inv (after.set id moved) := by
  have hset : (after.set id moved).calls = update state.calls id (some moved) := by
    rw [State.set, hcalls]
  refine ⟨hledger.set id moved, ?_, ?_, ?_⟩
  · refine forall_update hset (hsound.set id moved) fun other found hne hold => ?_
    have hother := h.sound other found hold
    refine (hother.grows hgrows fun hstage => hfresh _ (hother.fresh hstage) ?_).set id moved
    exact fun hsame => hne (h.distinct other id found call hold hcall hsame.symm)
  · refine unique_update hset Eq.symm h.distinct fun other found hold hsame => ?_
    exact h.distinct other id found call hold hcall (hsame.symm.trans hnext)
  · refine unique_update hset SameToken.symm h.once fun other found hold hboth => ?_
    exact absurd hboth.2.2.symm (hwon hboth.1 other found hold hboth.2.1)

theorem Effect.won_new (h : Effect state call after moved) (hinv : Inv state) (hwon : moved.won) :
    moved.presentedTokenId ∉ state.tokens := by
  obtain ⟨tokenId, expiresAt, hstage⟩ := hwon
  cases h with
  | rotated session _ hsession hmatches =>
    rw [← hmatches.1]
    exact (hinv.ledger.current session hsession).2
  | missed | deleted => cases hstage
  | read =>
    unfold classify at hstage
    split at hstage
    · cases hstage
    · split at hstage
      · cases hstage
      · split at hstage <;> cases hstage

theorem Sound.won (h : Sound state call) (hwon : call.won) :
    call.presentedTokenId ∈ state.tokens := by
  obtain ⟨tokenId, expiresAt, hstage⟩ := hwon
  have hexplained := h.explained
  rw [Call.Explained, hstage] at hexplained
  exact hexplained

theorem Inv.started (h : Inv state) (presentedTokenId : Nat) :
    Inv ({ state with issued := state.issued + 1 }.set id
      ⟨presentedTokenId, state.clock, state.issued, none, .updating⟩) := by
  have hgrows : Grows state { state with issued := state.issued + 1 } :=
    ⟨Nat.le_succ _, List.Subset.refl _, fun hnone => hnone⟩
  have hfresh : state.Fresh state.issued :=
    ⟨fun hmem => absurd (h.ledger.issued _ hmem) (Nat.lt_irrefl _),
      fun session hsession => Nat.ne_of_lt (h.ledger.current session hsession).1⟩
  have hledger : Ledger { state with issued := state.issued + 1 } :=
    ⟨fun session hsession => ⟨Nat.lt_succ_of_lt (h.ledger.current session hsession).1,
        (h.ledger.current session hsession).2⟩,
      fun token htoken => Nat.lt_succ_of_lt (h.ledger.issued token htoken),
      h.ledger.nodup, h.ledger.recorded⟩
  refine ⟨hledger.set id _, ?_, ?_, ?_⟩
  · refine forall_update rfl ?_ fun other found _ hold => ?_
    · exact ⟨Nat.lt_succ_self _, fun _ => hfresh, nofun, trivial⟩
    · have hother := h.sound other found hold
      exact (hother.grows hgrows hother.fresh).set id _
  · refine unique_update rfl Eq.symm h.distinct fun other found hold hsame => ?_
    exact absurd hsame (Nat.ne_of_gt (h.sound other found hold).issued)
  · refine unique_update rfl SameToken.symm h.once fun other found hold hboth => ?_
    obtain ⟨_, _, hstage⟩ := hboth.1
    cases hstage

theorem Inv.revoke (h : Inv state) : Inv { state with session := none } where
  ledger := h.ledger.gone
  sound id call hcall := by
    have hsound := h.sound id call hcall
    exact hsound.grows ⟨Nat.le_refl _, List.Subset.refl _, fun _ => rfl⟩
      fun hstage => ⟨(hsound.fresh hstage).1, nofun⟩
  distinct := h.distinct
  once := h.once

theorem Inv.step (h : Inv state) (hstep : step state action = some next) : Inv next := by
  cases step_cases hstep with
  | tick milliseconds =>
    have hledger := h.ledger
    refine ⟨⟨hledger.current, hledger.issued, hledger.nodup, hledger.recorded⟩, ?_,
      h.distinct, h.once⟩
    intro id call hcall
    have hsound := h.sound id call hcall
    exact ⟨hsound.issued, hsound.fresh, hsound.read, hsound.explained⟩
  | revoke => exact h.revoke
  | started id presentedTokenId _ => exact h.started presentedTokenId
  | resumed id call after moved hcall heffect =>
    have hsound := h.sound id call hcall
    refine h.move hcall heffect.calls_eq heffect.grows (heffect.ledger h.ledger hsound)
      (heffect.sound h.ledger hsound) (fun token => heffect.fresh) heffect.same.2.2.1 ?_
    intro hwon other found hfound hfoundWon hsame
    refine heffect.won_new h hwon ?_
    rw [← hsame]
    exact (h.sound other found hfound).won hfoundWon
  | threw id call after moved hcall heffect middle hmiddle =>
    have hsound := h.sound id call hcall
    have hnever : ¬ won { call with stage := .threw } := by
      rintro ⟨_, _, hstage⟩
      cases hstage
    rcases hmiddle with rfl | rfl
    · exact h.move hcall rfl (.refl _) h.ledger hsound.threw (fun _ hfresh _ => hfresh) rfl
        fun hwon => absurd hwon hnever
    · exact h.move hcall heffect.calls_eq heffect.grows (heffect.ledger h.ledger hsound)
        (hsound.threw.grows heffect.grows nofun) (fun token => heffect.fresh) rfl
        fun hwon => absurd hwon hnever

theorem Move.grows (h : Move state next) : Grows state next := by
  cases h with
  | tick => exact ⟨Nat.le_refl _, List.Subset.refl _, fun hnone => hnone⟩
  | revoke => exact ⟨Nat.le_refl _, List.Subset.refl _, fun _ => rfl⟩
  | started => exact ⟨Nat.le_succ _, List.Subset.refl _, fun hnone => hnone⟩
  | resumed id call after moved _ heffect =>
    exact ⟨heffect.grows.issued, heffect.grows.consumed, heffect.grows.gone⟩
  | threw id call after moved _ heffect middle hmiddle =>
    rcases hmiddle with rfl | rfl
    · exact ⟨Nat.le_refl _, List.Subset.refl _, fun hnone => hnone⟩
    · exact ⟨heffect.grows.issued, heffect.grows.consumed, heffect.grows.gone⟩

/-! ## 5. Answers -/

/-- How many statements a call has left at most. -/
def Stage.remaining : Stage → Nat
  | .updating => 3
  | .reading => 2
  | .deleting => 1
  | .ended _ | .threw => 0

theorem Effect.remaining (h : Effect state call after moved) :
    moved.stage.remaining < call.stage.remaining := by
  cases h with
  | rotated _ hstage | missed hstage | deleted hstage => simp [hstage, Stage.remaining]
  | read hstage =>
    rw [hstage]
    show (call.classify state.session).remaining < 2
    unfold classify
    split
    · decide
    · split
      · simp [Stage.remaining]
      · split <;> simp [Stage.remaining]

/-- What the move of one call leaves of any call. -/
theorem Move.lookup (h : Move state next) (hcall : state.calls id = some call) :
    next.calls id = some call ∨
    (∃ after moved, Effect state call after moved ∧ next = after.set id moved) ∨
    (next.calls id = some { call with stage := .threw } ∧ call.stage.remaining ≠ 0) := by
  have hrunning : ∀ {after moved}, Effect state call after moved → call.stage.remaining ≠ 0 :=
    fun heffect => Nat.ne_of_gt (Nat.zero_lt_of_lt heffect.remaining)
  cases h with
  | tick | revoke => exact .inl hcall
  | started other presentedTokenId hfree =>
    refine .inl ((update_of_ne ?_ _ _).trans hcall)
    rintro rfl
    rw [hfree] at hcall
    cases hcall
  | resumed other found after moved hfound heffect =>
    by_cases hsame : id = other
    · subst hsame
      cases hcall.symm.trans hfound
      exact .inr (.inl ⟨after, moved, heffect, rfl⟩)
    · refine .inl ((update_of_ne hsame _ _).trans ?_)
      rw [heffect.calls_eq, hcall]
  | threw other found after moved hfound heffect middle hmiddle =>
    by_cases hsame : id = other
    · subst hsame
      cases hcall.symm.trans hfound
      exact .inr (.inr ⟨update_self .., hrunning heffect⟩)
    · refine .inl ((update_of_ne hsame _ _).trans ?_)
      rcases hmiddle with rfl | rfl
      · exact hcall
      · rw [heffect.calls_eq, hcall]

section

variable (hcall : state.calls id = some call)
include hcall

theorem ended_stays {final : State} {later : List Action} (hended : call.stage.remaining = 0)
    (hrun : run step state later = some final) : final.calls id = some call := by
  have hkeep : ∀ {state action next}, state.calls id = some call →
      step state action = some next → next.calls id = some call := by
    intro state action next hcall hstep
    rcases (step_cases hstep).lookup hcall with hsame | ⟨_, _, heffect, _⟩ | ⟨_, hrunning⟩
    · exact hsame
    · exact absurd hended (Nat.ne_of_gt (Nat.zero_lt_of_lt heffect.remaining))
    · exact absurd hended hrunning
  exact invariant_of_run hkeep hcall hrun

theorem resume_cases (hstep : step state (.resume id) = some next) :
    ∃ after moved, Effect state call after moved ∧ next = after.set id moved := by
  obtain ⟨found, hfound, hmap⟩ := bind_eq_some_iff.mp hstep
  cases hcall.symm.trans hfound
  obtain ⟨⟨after, moved⟩, hstatement, rfl⟩ := map_eq_some_iff.mp hmap
  exact ⟨after, moved, statement_cases hstatement, rfl⟩

/-- A call that has statements left can run the next one, and has fewer left after it. -/
theorem resume_enabled (hrunning : call.stage.remaining ≠ 0) :
    ∃ next moved, step state (.resume id) = some next ∧ next.calls id = some moved ∧
      moved.stage.remaining < call.stage.remaining := by
  have hstatement : ∃ result, statement state call = some result := by
    unfold statement
    split
    · split <;> exact ⟨_, rfl⟩
    · exact ⟨_, rfl⟩
    · exact ⟨_, rfl⟩
    next hstage => exact absurd (by rw [hstage]; rfl) hrunning
    next hstage => exact absurd (by rw [hstage]; rfl) hrunning
  obtain ⟨⟨after, moved⟩, hstatement⟩ := hstatement
  refine ⟨after.set id moved, moved, ?_, update_self .., (statement_cases hstatement).remaining⟩
  simp only [step, hcall, bind_some, hstatement, map_some]

end

/-- The statement that the call is about to run will not take it for a thief: its update
    finds the id it presents current, or its read finds that id as the one that the latest
    rotation consumed, by the times both calls took no more than the grace period before. -/
def Call.Recognised (state : State) (call : Call) : Prop :=
  (call.stage = .updating ∧ ∃ session, state.session = some session ∧ call.matches session) ∨
  (call.stage = .reading ∧ ∃ time, state.consumed.getLast? = some (call.presentedTokenId, time) ∧
    call.now ≤ time + rotationGraceSeconds * 1000)

/-- A recognised call is answered on the spot, and not `replayed`. -/
theorem Effect.recognised (h : Effect state call after moved) (hledger : Ledger state)
    (hrecognised : call.Recognised state) :
    moved.stage.remaining = 0 ∧ moved.stage ≠ .ended .replayed := by
  rcases hrecognised with ⟨hstage, session, hsession, hmatches⟩ | ⟨hstage, time, hlast, hgrace⟩
  · cases h with
    | rotated => exact ⟨rfl, nofun⟩
    | missed _ hmissed => exact absurd hmatches (hmissed session hsession)
    | read hother | deleted hother => cases hstage.symm.trans hother
  · cases h with
    | rotated _ hother | missed hother | deleted hother => cases hstage.symm.trans hother
    | read =>
      cases hsession : state.session with
      | none => exact ⟨rfl, nofun⟩
      | some session =>
        obtain ⟨hprevious, hrotated⟩ := hledger.recorded session hsession
        rw [hlast] at hprevious hrotated
        have hin : call.inGrace session := ⟨hprevious, time, hrotated, hgrace⟩
        simp only [classify, hin, if_true]
        split <;> exact ⟨rfl, nofun⟩

/-- A call that has missed its chance: the id it presents was already consumed. -/
structure Late (id token time now : Nat) (state : State) : Prop where
  inv : Inv state
  consumed : (token, time) ∈ state.consumed
  call : ∃ call, state.calls id = some call ∧ call.presentedTokenId = token ∧ call.now = now ∧
    ¬ call.won

theorem Late.step {now : Nat} (h : Late id token time now state)
    (hstep : step state action = some next) : Late id token time now next := by
  obtain ⟨call, hcall, htoken, hnow, hlost⟩ := h.call
  have hmove := step_cases hstep
  refine ⟨h.inv.step hstep, hmove.grows.consumed h.consumed, ?_⟩
  rcases hmove.lookup hcall with hsame | ⟨after, moved, heffect, rfl⟩ | ⟨hthrew, _⟩
  · exact ⟨call, hsame, htoken, hnow, hlost⟩
  · refine ⟨moved, update_self .., heffect.same.1.trans htoken,
      heffect.same.2.1.trans hnow, fun hwon => heffect.won_new h.inv hwon ?_⟩
    rw [heffect.same.1, htoken]
    exact mem_map_of_mem h.consumed
  · refine ⟨_, hthrew, htoken, hnow, ?_⟩
    rintro ⟨_, _, hstage⟩
    cases hstage

theorem Late.answer {now : Nat} {result : RotateResult} (h : Late id token time now state)
    (hgrace : time + rotationGraceSeconds * 1000 < now) (hcall : state.calls id = some call)
    (hstage : call.stage = .ended result) :
    (result = .unknown ∧ ∀ row, call.row = some row → row.expiresAt ≤ call.now) ∨
      (result = .replayed ∧ state.session = none) := by
  obtain ⟨found, hfound, htoken, hnow, hlost⟩ := h.call
  cases hcall.symm.trans hfound
  have hsound := h.inv.sound id call hcall
  have hexplained := hsound.explained
  rw [Call.Explained, hstage] at hexplained
  cases result with
  | rotated tokenId expiresAt => exact absurd ⟨tokenId, expiresAt, hstage⟩ hlost
  | reissued tokenId expiresAt =>
    obtain ⟨row, hrow, hprevious, rotatedAt, hrotated, hle⟩ := hexplained
    have hread := hsound.read row hrow _ rotatedAt hprevious hrotated
    rw [htoken] at hread
    cases congrArg Prod.snd (inj_on_of_nodup_map h.inv.ledger.nodup h.consumed hread rfl)
    rw [hnow] at hle
    exact absurd hgrace (Nat.not_lt.mpr hle)
  | replayed => exact .inr ⟨rfl, hexplained⟩
  | unknown => exact .inl ⟨rfl, hexplained⟩

/-- **Refresh rotation.**  In every state that calls of `rotate` can reach on one session:
    an id was answered `rotated` once at most; a call whose pending statement recognises the
    id it presents is never answered `replayed`; a call about to run its update for an id
    that was consumed, more than the grace period before, is answered `replayed` and leaves
    no session, unless the row it reads is gone or expired, and then it is answered
    `unknown`; and a call that has not ended can go on, and ends after three statements. -/
theorem refresh_rotation {now : Nat} {actions : List Action} {state : State}
    (hrun : run step (.start now) actions = some state) :
    (∀ id other call call', state.calls id = some call → state.calls other = some call' →
      call.won → call'.won → call.presentedTokenId = call'.presentedTokenId → id = other) ∧
    (∀ id call next, state.calls id = some call → call.Recognised state →
      step state (.resume id) = some next → ∀ later final found,
      run step next later = some final → final.calls id = some found →
      found.stage ≠ .ended .replayed) ∧
    (∀ id call time, state.calls id = some call → call.stage = .updating →
      (call.presentedTokenId, time) ∈ state.consumed →
      time + rotationGraceSeconds * 1000 < call.now → ∀ later final found result,
      run step state later = some final → final.calls id = some found →
      found.stage = .ended result →
      (result = .unknown ∧ ∀ row, found.row = some row → row.expiresAt ≤ found.now) ∨
        (result = .replayed ∧ final.session = none)) ∧
    (∀ id call, state.calls id = some call → call.stage.remaining ≠ 0 →
      ∃ next moved, step state (.resume id) = some next ∧ next.calls id = some moved ∧
        moved.stage.remaining < call.stage.remaining) := by
  have hinv : Inv state := invariant_of_run Inv.step (Inv.start now) hrun
  refine ⟨?_, ?_, ?_, fun id call hcall => resume_enabled hcall⟩
  · exact fun id other call call' hcall hother hwon hwon' hsame =>
      hinv.once id other call call' hcall hother ⟨hwon, hwon', hsame⟩
  · intro id call next hcall hrecognised hstep later final found hlater hfound
    obtain ⟨after, moved, heffect, rfl⟩ := resume_cases hcall hstep
    obtain ⟨hended, hanswer⟩ := heffect.recognised hinv.ledger hrecognised
    have hstays : final.calls id = some moved := ended_stays (update_self ..) hended hlater
    cases hstays.symm.trans hfound
    exact hanswer
  · intro id call time hcall hstage hconsumed hgrace later final found result hlater hfound hanswer
    have hlost : ¬ call.won := by
      rintro ⟨_, _, hwon⟩
      cases hstage.symm.trans hwon
    have hlate : Late id call.presentedTokenId time call.now final :=
      invariant_of_run Late.step ⟨hinv, hconsumed, call, hcall, rfl, rfl, hlost⟩ hlater
    exact hlate.answer hgrace hfound hanswer

/-- Token 0 is rotated by call 0, token 1 by call 1, and then call 2 presents token 0. -/
def chain : List Action :=
  [.rotate 0 0, .resume 0, .rotate 1 1, .resume 1, .tick 1, .rotate 2 0, .resume 2, .resume 2,
    .resume 2]

/-- Token 0 is rotated, and two calls present it again after the grace period. -/
def lateRetries : List Action :=
  [.rotate 0 0, .resume 0, .tick 60001, .rotate 1 0, .rotate 2 0, .resume 1, .resume 1, .resume 1,
    .resume 2, .resume 2]

/-- What `refresh_rotation` says of the late retries: the second of them finds no session. -/
theorem refresh_rotation_late :
    ∃ state final, run step (.start 0) (lateRetries.take 5) = some state ∧
      run step state (lateRetries.drop 5) = some final ∧
      (final.calls 2).map stage = some (.ended .unknown) ∧
      ∀ found result, final.calls 1 = some found → found.stage = .ended result →
        (result = .unknown ∧ ∀ row, found.row = some row → row.expiresAt ≤ found.now) ∨
          (result = .replayed ∧ final.session = none) := by
  have hrun : run step (.start 0) (lateRetries.take 5) = some _ := rfl
  refine ⟨_, _, hrun, rfl, by decide, fun found result hfound hanswer => ?_⟩
  exact (refresh_rotation hrun).2.2.1 1 _ 0 rfl rfl (by decide) (by decide)
    (lateRetries.drop 5) _ found result rfl hfound hanswer

/-- A token id that was current a millisecond before is answered `replayed` after two
    rotations; and the second of two late retries is answered `unknown`. -/
theorem superseded_token_replayed :
    (∃ middle final session, run step (.start 0) (chain.take 1) = some middle ∧
      middle.session = some session ∧ session.tokenId = 0 ∧
      run step middle (chain.drop 1) = some final ∧
      ∃ call, final.calls 2 = some call ∧ call.presentedTokenId = 0 ∧
        call.now < middle.clock + rotationGraceSeconds * 1000 ∧
        call.stage = .ended .replayed) ∧
    (∃ final call time, run step (.start 0) lateRetries = some final ∧
      final.calls 2 = some call ∧ (call.presentedTokenId, time) ∈ final.consumed ∧
      time + rotationGraceSeconds * 1000 < call.now ∧ call.stage = .ended .unknown) := by
  refine ⟨⟨_, _, _, rfl, rfl, rfl, rfl, _, rfl, rfl, by decide, by decide⟩,
    ⟨_, _, 0, rfl, rfl, by decide, by decide, by decide⟩⟩

end MinesApp.RefreshRotation
