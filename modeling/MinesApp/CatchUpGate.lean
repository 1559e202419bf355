import MinesApp.EpochSendBarrier
import Mathlib.Data.List.Perm.Basic

/-!
# The catch-up gate

A catch-up session works on a copy of the client, or next to it, so no frame may be encrypted
while one is open.  `beginCatchUp` closes a gate that `sendMessage` awaits, and the last
`endCatchUp` opens it (`BaseMlsService.ts`).  A send reads the gate once, when it is called:
it then waits for that promise, if there was one, and after it for the epoch barrier of its
group, and encrypts when the barrier lets it through.

The sessions of the web client hold the MLS mutex, which a commit holds too; those of the base
client, which Tauri uses and the web falls back to, take no mutex.  What a frame does inside
the barrier is the barrier's own model; here a section of it encrypts at some moment of its
callback (on the web its first), and only once.
-/

namespace MinesApp.CatchUpGate

open TransitionSystem List Function Option EpochSendBarrier

/-! ## 1. State -/

/-- Who holds the MLS mutex. -/
inductive Holder where
  | session (number : Nat)
  | advance (id : Nat)
deriving DecidableEq, Repr

/-- A `beginCatchUp` that has not met its `endCatchUp`. -/
structure Session where
  number : Nat
  groupId : String
  locked : Bool
deriving DecidableEq, Repr

/-- A send awaits the promise that it found in `catchUpGate`, if any, or is in the barrier. -/
inductive SendStage where
  | atGate (gate : Option Nat)
  | inBarrier (id : Nat)
deriving DecidableEq, Repr

structure Send where
  groupId : String
  stage : SendStage
deriving DecidableEq, Repr

/-- Gates, sessions and sends are numbered as they come. -/
structure State where
  barrier : EpochSendBarrier.State
  mutex : Option Holder
  sessions : List Session
  nextSession : Nat
  openCatchUps : List String
  catchUpDepth : Nat
  catchUpGate : Option Nat
  nextGate : Nat
  sends : Nat → Option Send
  nextSend : Nat
  -- the sections of the barrier that have encrypted their frame
  encrypted : List Nat

open State

def State.start : State :=
  ⟨.start, none, [], 0, [], 0, none, 0, fun _ => none, 0, []⟩

/-! ## 2. Sessions -/

def beginCatchUp (state : State) (groupId : String) : State :=
  { state with
    openCatchUps := state.openCatchUps ++ [groupId]
    catchUpDepth := state.catchUpDepth + 1
    catchUpGate := if state.catchUpDepth + 1 = 1 then some state.nextGate else state.catchUpGate
    nextGate := if state.catchUpDepth + 1 = 1 then state.nextGate + 1 else state.nextGate }

/-- The last entry of the group goes. -/
def endCatchUp (state : State) (groupId : String) : State :=
  { state with
    openCatchUps := (state.openCatchUps.reverse.erase groupId).reverse
    catchUpDepth := state.catchUpDepth - 1
    catchUpGate := if state.catchUpDepth - 1 = 0 then none else state.catchUpGate }

/-! ## 3. Steps -/

inductive Action where
  | send (groupId : String)
  | passGate (id : Nat) (throws : Bool)
  | encrypt (id : Nat)
  | barrier (action : EpochSendBarrier.Action)
  | createDecryptSession (groupId : String) (locked : Bool)
  | finish (session : Session)
deriving DecidableEq, Repr

/-- The gate is resolved when it is dropped, and `await null` goes on by itself. -/
def State.resolved (state : State) : Option Nat → Bool
  | none => true
  | some gate => state.catchUpGate ≠ some gate

/-- A commit transaction gives the mutex back when its advance is over. -/
def State.releaseAdvance (state : State) : State :=
  match state.mutex with
  | some (.advance id) => if state.barrier.released id then { state with mutex := none } else state
  | _ => state

def State.setBarrier (state : State) (barrier : EpochSendBarrier.State) : State :=
  { state with barrier }.releaseAdvance

def step (state : State) : Action → Option State
  | .send groupId =>
    some { state with
      sends := update state.sends state.nextSend (some ⟨groupId, .atGate state.catchUpGate⟩)
      nextSend := state.nextSend + 1 }
  | .passGate id throws =>
    match state.sends id with
    | some ⟨groupId, .atGate gate⟩ =>
      if state.resolved gate then
        (EpochSendBarrier.step state.barrier (.send groupId throws)).map fun barrier =>
          { state with
            barrier
            sends := update state.sends id (some ⟨groupId, .inBarrier state.barrier.arrivals⟩) }
      else none
    | _ => none
  | .encrypt id =>
    match state.sends id with
    | some ⟨_, .inBarrier sectionId⟩ =>
      match state.barrier.sections sectionId with
      | some (.send _ (.running _)) =>
        if sectionId ∈ state.encrypted then none
        else some { state with encrypted := sectionId :: state.encrypted }
      | _ => none
    | _ => none
  -- a section is opened by a send that has passed the gate
  | .barrier (.send _ _) => none
  | .barrier (.advance groupId throws) =>
    match state.mutex with
    | some _ => none
    | none =>
      (EpochSendBarrier.step state.barrier (.advance groupId throws)).map fun barrier =>
        { state with mutex := some (.advance state.barrier.arrivals) }.setBarrier barrier
  | .barrier action => (EpochSendBarrier.step state.barrier action).map state.setBarrier
  | .createDecryptSession groupId locked =>
    if locked ∧ state.mutex ≠ none then none
    else
      some { beginCatchUp state groupId with
        mutex := if locked then some (.session state.nextSession) else state.mutex
        sessions := ⟨state.nextSession, groupId, locked⟩ :: state.sessions
        nextSession := state.nextSession + 1 }
  | .finish session =>
    if session ∈ state.sessions then
      some { endCatchUp state session.groupId with
        mutex := if session.locked then none else state.mutex
        sessions := state.sessions.erase session }
    else none

/-- The section has not encrypted its frame and still may. -/
def State.mayEncrypt (state : State) (sectionId : Nat) : Bool :=
  match state.barrier.sections sectionId with
  | some (.send _ (.waiting _)) => true
  | some (.send _ (.running _)) => sectionId ∉ state.encrypted
  | _ => false

/-- The gate no longer stands in the way of the send, and its frame is not encrypted yet. -/
def State.underWay (state : State) (send : Send) : Bool :=
  match send.stage with
  | .atGate gate => state.resolved gate
  | .inBarrier sectionId => state.mayEncrypt sectionId

/-- No session is opened while a send is under way. -/
def OpensQuietly (state : State) : Action → Prop
  | .createDecryptSession _ _ => ∀ id send, state.sends id = some send → state.underWay send = false
  | _ => True

variable {state next final : State} {action : EpochSendBarrier.Action} {id : Nat} {groupId : String}
  {actions : List Action} {gate : Option Nat}

theorem releaseAdvance_eq (state : State) :
    ∃ mutex, state.releaseAdvance = { state with mutex } := by
  unfold releaseAdvance
  split
  · split
    · exact ⟨none, rfl⟩
    · exact ⟨state.mutex, rfl⟩
  · exact ⟨state.mutex, rfl⟩

/-- Within the barrier only the barrier moves, and the mutex. -/
theorem step_barrier (h : step state (.barrier action) = some next) :
    (∀ groupId throws, action ≠ .send groupId throws) ∧
      ∃ barrier mutex, EpochSendBarrier.step state.barrier action = some barrier ∧
        next = { state with barrier, mutex } := by
  have hother : ∀ {mutex : Option Holder},
      (EpochSendBarrier.step state.barrier action).map { state with mutex }.setBarrier = some next →
      ∃ barrier mutex, EpochSendBarrier.step state.barrier action = some barrier ∧
        next = { state with barrier, mutex } := by
    intro mutex hmap
    obtain ⟨barrier, hbarrier, rfl⟩ := map_eq_some_iff.mp hmap
    obtain ⟨after, hafter⟩ := releaseAdvance_eq { state with barrier, mutex }
    exact ⟨barrier, after, hbarrier, hafter⟩
  cases action with
  | send groupId throws => cases h
  | advance groupId throws =>
    refine ⟨by simp, ?_⟩
    simp only [step] at h
    split at h
    · cases h
    · exact hother h
  | settleSend id | settleAdvance id | wakeSend id throws | finishSend id
  | wakeAdvance id throws | finishAdvance id => exact ⟨by simp, hother h⟩

theorem step_passGate {throws : Bool} (h : step state (.passGate id throws) = some next) :
    ∃ groupId gate barrier,
      state.sends id = some ⟨groupId, .atGate gate⟩ ∧ state.resolved gate = true ∧
      next = { state with
        barrier
        sends := update state.sends id (some ⟨groupId, .inBarrier state.barrier.arrivals⟩) } := by
  simp only [step] at h
  split at h
  next groupId gate hsend =>
    split at h
    next hresolved =>
      obtain ⟨barrier, -, rfl⟩ := map_eq_some_iff.mp h
      exact ⟨groupId, gate, barrier, hsend, hresolved, rfl⟩
    · cases h
  · cases h

theorem step_encrypt (h : step state (.encrypt id) = some next) :
    ∃ send sectionId, state.sends id = some send ∧ state.underWay send = true ∧
      next = { state with encrypted := sectionId :: state.encrypted } := by
  simp only [step] at h
  split at h
  next groupId sectionId hsend =>
    split at h
    next group frames hsection =>
      split at h
      · cases h
      next hfresh =>
        refine ⟨_, sectionId, hsend, ?_, (some.inj h).symm⟩
        simp [underWay, mayEncrypt, hsection, hfresh]
    · cases h
  · cases h

theorem step_createDecryptSession {locked : Bool}
    (h : step state (.createDecryptSession groupId locked) = some next) :
    ∃ mutex, next = { beginCatchUp state groupId with
      mutex
      sessions := ⟨state.nextSession, groupId, locked⟩ :: state.sessions
      nextSession := state.nextSession + 1 } := by
  simp only [step] at h
  split at h
  · cases h
  · exact ⟨_, (some.inj h).symm⟩

theorem step_finish {session : Session} (h : step state (.finish session) = some next) :
    session ∈ state.sessions ∧ ∃ mutex, next = { endCatchUp state session.groupId with
      mutex
      sessions := state.sessions.erase session } := by
  simp only [step] at h
  split at h
  next hopen => exact ⟨hopen, _, (some.inj h).symm⟩
  · cases h

/-! ## 4. The gate and the sessions -/

/-- The gate is closed exactly while a session is open. -/
structure GateOk (state : State) : Prop where
  entries : (state.sessions.map Session.groupId).Perm state.openCatchUps
  depth : state.catchUpDepth = state.openCatchUps.length
  shut : state.catchUpGate.isSome = true ↔ state.catchUpDepth ≠ 0
  gate : ∀ gate, state.catchUpGate = some gate → gate < state.nextGate
  sends : ∀ id groupId gate, state.sends id = some ⟨groupId, .atGate (some gate)⟩ →
    gate < state.nextGate

theorem GateOk.start : GateOk .start where
  entries := List.Perm.refl []
  depth := rfl
  shut := by simp [State.start]
  gate := by simp [State.start]
  sends := by simp [State.start]

section

variable (h : GateOk state)
include h

protected theorem GateOk.beginCatchUp (groupId : String) (locked : Bool) (mutex : Option Holder) :
    GateOk { beginCatchUp state groupId with
      mutex
      sessions := ⟨state.nextSession, groupId, locked⟩ :: state.sessions
      nextSession := state.nextSession + 1 } := by
  refine ⟨?_, ?_, ?_, ?_, ?_⟩
  · exact (h.entries.cons groupId).trans (perm_append_singleton groupId _).symm
  · simp [beginCatchUp, h.depth]
  · by_cases hfirst : state.catchUpDepth = 0
    · simp [beginCatchUp, hfirst]
    · simpa [beginCatchUp, hfirst] using h.shut.mpr hfirst
  · intro gate hgate
    by_cases hfirst : state.catchUpDepth = 0
    · simp [beginCatchUp, hfirst] at hgate ⊢
      omega
    · simp only [beginCatchUp, Nat.add_eq_right, if_neg hfirst] at hgate ⊢
      exact h.gate gate hgate
  · intro id group gate hsend
    have hlt := h.sends id group gate hsend
    simp only [beginCatchUp]
    split <;> omega

protected theorem GateOk.endCatchUp {session : Session}
    (hopen : session ∈ state.sessions) (mutex : Option Holder) :
    GateOk { endCatchUp state session.groupId with
      mutex
      sessions := state.sessions.erase session } := by
  have hmem : session.groupId ∈ state.openCatchUps := h.entries.subset (mem_map_of_mem hopen)
  have hsessions : (state.sessions.map Session.groupId).Perm
      (session.groupId :: (state.sessions.erase session).map Session.groupId) :=
    (perm_cons_erase hopen).map Session.groupId
  have hentries : state.openCatchUps.Perm (session.groupId ::
      (state.openCatchUps.reverse.erase session.groupId).reverse) := by
    refine (reverse_perm state.openCatchUps).symm.trans ?_
    refine (perm_cons_erase (mem_reverse.mpr hmem)).trans ?_
    exact (reverse_perm _).symm.cons _
  have hpositive : state.catchUpDepth ≠ 0 := by
    rw [h.depth]
    exact (length_pos_of_mem hmem).ne'
  refine ⟨?_, ?_, ?_, ?_, h.sends⟩
  · exact (perm_cons _).mp (hsessions.symm.trans (h.entries.trans hentries))
  · have hlength := hentries.length_eq
    have hdepth := h.depth
    simp only [length_cons] at hlength
    simp only [endCatchUp]
    omega
  · by_cases hlast : state.catchUpDepth - 1 = 0
    · simp [endCatchUp, hlast]
    · simpa [endCatchUp, hlast] using h.shut.mpr hpositive
  · intro gate hgate
    simp only [endCatchUp] at hgate
    split at hgate
    · cases hgate
    · exact h.gate gate hgate

protected theorem GateOk.step {action : Action}
    (hstep : step state action = some next) : GateOk next := by
  cases action with
  | send groupId =>
    cases hstep
    refine ⟨h.entries, h.depth, h.shut, h.gate, ?_⟩
    intro id group gate hsend
    rcases update_eq_some_iff.mp hsend with ⟨-, hnew⟩ | ⟨-, hold⟩
    · refine h.gate gate ?_
      injection hnew with hnew
      injection hnew with _ hstage
      injection hstage
    · exact h.sends id group gate hold
  | passGate id throws =>
    obtain ⟨groupId, gate, barrier, -, -, rfl⟩ := step_passGate hstep
    refine ⟨h.entries, h.depth, h.shut, h.gate, ?_⟩
    intro other group gate hsend
    rcases update_eq_some_iff.mp hsend with ⟨-, hnew⟩ | ⟨-, hold⟩
    · cases hnew
    · exact h.sends other group gate hold
  | encrypt id =>
    obtain ⟨send, sectionId, -, -, rfl⟩ := step_encrypt hstep
    exact ⟨h.entries, h.depth, h.shut, h.gate, h.sends⟩
  | barrier action =>
    obtain ⟨-, barrier, mutex, -, rfl⟩ := step_barrier hstep
    exact ⟨h.entries, h.depth, h.shut, h.gate, h.sends⟩
  | createDecryptSession groupId locked =>
    obtain ⟨mutex, rfl⟩ := step_createDecryptSession hstep
    exact h.beginCatchUp groupId locked mutex
  | finish session =>
    obtain ⟨hopen, mutex, rfl⟩ := step_finish hstep
    exact h.endCatchUp hopen mutex

theorem GateOk.run (hrun : run step state actions = some final) : GateOk final :=
  invariant_of_run (fun hok => hok.step) h hrun

theorem GateOk.depth_eq_zero : state.catchUpDepth = 0 ↔ state.sessions = [] := by
  rw [h.depth, ← h.entries.length_eq, length_map, length_eq_zero_iff]

/-- With every session closed there is no gate, so that no promise is pending. -/
theorem GateOk.resolved_of_closed (hclosed : state.sessions = []) (gate : Option Nat) :
    state.resolved gate = true := by
  have hnone : state.catchUpGate = none := by
    have hdepth := h.depth_eq_zero.mpr hclosed
    by_contra hsome
    exact h.shut.mp (isSome_iff_ne_none.mpr hsome) hdepth
  cases gate with
  | none => rfl
  | some gate => simp [resolved, hnone]

end

/-! ## 5. A resolved gate stays resolved -/

/-- The promise exists already and is settled. -/
def State.settled (state : State) (gate : Option Nat) : Prop :=
  state.resolved gate = true ∧ ∀ number, gate = some number → number < state.nextGate

/-- A later gate is another promise. -/
theorem settled_step {action : Action}
    (h : state.settled gate) (hstep : step state action = some next) : next.settled gate := by
  cases gate with
  | none => exact ⟨rfl, by simp⟩
  | some gate =>
    obtain ⟨hresolved, hlt⟩ := h
    have hold := hlt gate rfl
    simp only [resolved, decide_eq_true_eq] at hresolved
    suffices hnext : next.catchUpGate ≠ some gate ∧ gate < next.nextGate by
      refine ⟨by simpa [resolved] using hnext.1, ?_⟩
      rintro number ⟨⟩
      exact hnext.2
    cases action with
    | send groupId =>
      cases hstep
      exact ⟨hresolved, hold⟩
    | passGate id throws =>
      obtain ⟨groupId, gate, barrier, -, -, rfl⟩ := step_passGate hstep
      exact ⟨hresolved, hold⟩
    | encrypt id =>
      obtain ⟨send, sectionId, -, -, rfl⟩ := step_encrypt hstep
      exact ⟨hresolved, hold⟩
    | barrier action =>
      obtain ⟨-, barrier, mutex, -, rfl⟩ := step_barrier hstep
      exact ⟨hresolved, hold⟩
    | createDecryptSession groupId locked =>
      obtain ⟨mutex, rfl⟩ := step_createDecryptSession hstep
      by_cases hfirst : state.catchUpDepth = 0
      · refine ⟨?_, ?_⟩ <;> simp [beginCatchUp, hfirst] <;> omega
      · simp only [beginCatchUp, Nat.add_eq_right, if_neg hfirst]
        exact ⟨hresolved, hold⟩
    | finish session =>
      obtain ⟨-, mutex, rfl⟩ := step_finish hstep
      refine ⟨?_, hold⟩
      simp only [endCatchUp]
      split
      · simp
      · exact hresolved

theorem settled_run (h : state.settled gate) (hrun : run step state actions = some final) :
    final.settled gate :=
  invariant_of_run (fun hsettled => settled_step hsettled) h hrun

/-! ## 6. No send under way while a session is open -/

theorem sections_runAsEpochAdvance (barrier : EpochSendBarrier.State) (id : Nat) (groupId : String)
    (throws : Bool) :
    ∃ stage, (runAsEpochAdvance barrier id groupId throws).sections =
      update barrier.sections id (some (.advance groupId stage)) := by
  have hcall : ∃ stage, (callAdvance (barrier.raiseBarrier id groupId) id groupId
      throws).sections = update barrier.sections id (some (.advance groupId stage)) := by
    obtain ⟨stage, hsections, -, -⟩ :=
      sections_callAdvance (barrier.raiseBarrier id groupId) id groupId throws
    exact ⟨stage, hsections⟩
  unfold runAsEpochAdvance
  dsimp only
  split
  · split
    · exact hcall
    · exact ⟨_, rfl⟩
  · exact hcall

/-- A section that may still encrypt was there before, waiting or running: apart from a new
    send, no step of the barrier opens one or takes one back. -/
theorem send_of_barrier_step {barrier next : EpochSendBarrier.State}
    (hstep : EpochSendBarrier.step barrier action = some next)
    (hnew : ∀ groupId throws, action ≠ .send groupId throws)
    {stage : EpochSendBarrier.SendStage} (hsection : next.sections id = some (.send groupId stage))
    (hsettled : ∀ frames, stage ≠ .settled frames) (hended : stage ≠ .ended) :
    barrier.sections id = some (.send groupId stage) ∨
      ∃ awaited, barrier.sections id = some (.send groupId (.waiting awaited)) := by
  -- what is written over a section other than a waiting send is of no use to this one
  have hkeeps : ∀ {other written}, next.sections = update barrier.sections other
      (some written) → written ≠ .send groupId stage →
      barrier.sections id = some (.send groupId stage) := by
    intro other written hnext hwritten
    rw [hnext] at hsection
    rcases update_eq_some_iff.mp hsection with ⟨-, hsame⟩ | ⟨-, hold⟩
    · exact absurd (some.inj hsame) hwritten
    · exact hold
  cases action with simp only [EpochSendBarrier.step] at hstep
  | send groupId throws => exact absurd rfl (hnew groupId throws)
  | advance group throws =>
    split at hstep
    · cases hstep
    · cases hstep
      obtain ⟨written, hnext⟩ :=
        sections_runAsEpochAdvance barrier.arrive barrier.arrivals group throws
      exact .inl (hkeeps hnext (by simp))
  | settleSend other =>
    split at hstep
    · cases hstep
      refine .inl (hkeeps rfl ?_)
      rintro ⟨⟩
      exact hsettled _ rfl
    · cases hstep
  | settleAdvance other | finishAdvance other =>
    split at hstep
    · cases hstep
      exact .inl (hkeeps rfl (by simp))
    · cases hstep
  | wakeSend other throws =>
    split at hstep
    next group awaited hwaiting =>
      obtain ⟨_, rfl⟩ := ite_some_none_eq_some.mp hstep
      obtain ⟨written, hnext, -⟩ :=
        sections_runAsEpochSend barrier other group throws
      rw [hnext] at hsection
      rcases update_eq_some_iff.mp hsection with ⟨rfl, hsame⟩ | ⟨-, hold⟩
      · cases hsame
        exact .inr ⟨awaited, hwaiting⟩
      · exact .inl hold
    · cases hstep
  | finishSend other =>
    split at hstep
    · cases hstep
      refine .inl (hkeeps rfl ?_)
      rintro ⟨⟩
      exact hended rfl
    · cases hstep
  | wakeAdvance other throws =>
    split at hstep
    · obtain ⟨_, rfl⟩ := ite_some_none_eq_some.mp hstep
      obtain ⟨written, hnext, -⟩ := sections_callAdvance barrier other _ throws
      exact .inl (hkeeps hnext (by simp))
    · cases hstep

theorem mayEncrypt_of_barrier_step {barrier : EpochSendBarrier.State} {mutex : Option Holder}
    (hstep : EpochSendBarrier.step state.barrier action = some barrier)
    (hnew : ∀ groupId throws, action ≠ .send groupId throws) {sectionId : Nat}
    (h : { state with barrier, mutex : State }.mayEncrypt sectionId = true) :
    state.mayEncrypt sectionId = true := by
  simp only [mayEncrypt] at h
  split at h
  next groupId awaited hsection =>
    rcases send_of_barrier_step hstep hnew hsection (by simp) (by simp) with hsame | ⟨_, hwaiting⟩
    · simp [mayEncrypt, hsame]
    · simp [mayEncrypt, hwaiting]
  next groupId frames hsection =>
    rcases send_of_barrier_step hstep hnew hsection (by simp) (by simp) with hsame | ⟨_, hwaiting⟩
    · simpa [mayEncrypt, hsame] using h
    · simp [mayEncrypt, hwaiting]
  · cases h

/-- While a session is open, every send is held by the gate or has encrypted its frame. -/
structure Guarded (state : State) : Prop where
  gate : GateOk state
  quiet : state.sessions ≠ [] → ∀ id send, state.sends id = some send → state.underWay send = false

theorem Guarded.start : Guarded .start := ⟨.start, fun h => absurd rfl h⟩

/-- A session opened over no send under way shuts the gate before the next. -/
theorem underWay_beginCatchUp (h : GateOk state)
    {mutex : Option Holder} {sessions : List Session} {nextSession : Nat}
    (hquiet : ∀ id send, state.sends id = some send → state.underWay send = false)
    {send : Send} (hsend : state.sends id = some send) :
    { beginCatchUp state groupId with mutex, sessions, nextSession }.underWay send = false := by
  have hbefore := hquiet id send hsend
  obtain ⟨group, stage⟩ := send
  cases stage with
  | inBarrier sectionId => exact hbefore
  | atGate gate =>
    cases gate with
    | none => cases hbefore
    | some gate =>
      -- the gate that holds the send is the current one, so this session is not the first
      have hheld : state.catchUpGate = some gate := by
        simpa [underWay, resolved] using hbefore
      have hdepth : state.catchUpDepth ≠ 0 := h.shut.mp (by simp [hheld])
      simp [underWay, resolved, beginCatchUp, hdepth, hheld]

protected theorem Guarded.step {action : Action} (h : Guarded state)
    (hquietly : OpensQuietly state action) (hstep : step state action = some next) :
    Guarded next := by
  refine ⟨h.gate.step hstep, ?_⟩
  intro hopen id send hsend
  cases action with
  | send groupId =>
    cases hstep
    rcases update_eq_some_iff.mp hsend with ⟨-, hnew⟩ | ⟨-, hold⟩
    · -- the new send finds the gate shut
      have hdepth : state.catchUpDepth ≠ 0 := fun hzero => hopen (h.gate.depth_eq_zero.mp hzero)
      obtain ⟨gate, hgate⟩ := isSome_iff_exists.mp (h.gate.shut.mpr hdepth)
      cases hnew
      simp [underWay, resolved, hgate]
    · exact h.quiet hopen id send hold
  | passGate other throws =>
    obtain ⟨groupId, gate, barrier, hgate, hresolved, rfl⟩ := step_passGate hstep
    have hheld := h.quiet hopen other _ hgate
    exact absurd (hheld.symm.trans hresolved) (by decide)
  | encrypt other =>
    obtain ⟨sending, sectionId, hsending, hunder, rfl⟩ := step_encrypt hstep
    exact absurd ((h.quiet hopen other _ hsending).symm.trans hunder) (by decide)
  | barrier action =>
    obtain ⟨hnew, barrier, mutex, hbarrier, rfl⟩ := step_barrier hstep
    have hbefore := h.quiet hopen id send hsend
    obtain ⟨groupId, stage⟩ := send
    cases stage with
    | atGate gate => exact hbefore
    | inBarrier sectionId =>
      refine Bool.eq_false_iff.mpr fun hafter => ?_
      have hmay := mayEncrypt_of_barrier_step hbarrier hnew hafter
      exact absurd (hbefore.symm.trans hmay) (by decide)
  | createDecryptSession groupId locked =>
    obtain ⟨mutex, rfl⟩ := step_createDecryptSession hstep
    exact underWay_beginCatchUp h.gate hquietly hsend
  | finish session =>
    obtain ⟨hmem, mutex, rfl⟩ := step_finish hstep
    have hbefore := h.quiet (ne_nil_of_mem hmem) id send hsend
    -- another session is open, so the gate stays
    have hdepth : state.catchUpDepth - 1 ≠ 0 := fun hzero =>
      hopen ((h.gate.endCatchUp hmem none).depth_eq_zero.mp hzero)
    obtain ⟨group, stage⟩ := send
    cases stage with
    | inBarrier sectionId => exact hbefore
    | atGate gate =>
      cases gate with
      | none => cases hbefore
      | some gate =>
        simpa [underWay, resolved, endCatchUp, hdepth] using hbefore

theorem Guarded.run (h : Guarded state) (hquietly : EachStep step OpensQuietly state actions)
    (hrun : run step state actions = some final) : Guarded final :=
  run_invariant (fun hok hquiet hstep => hok.step hquiet hstep) h hquietly hrun

/-! ## 7. Results -/

/-- **The catch-up gate.**  As long as every session is opened over no send under way, a frame
    is encrypted only while no session is open.  Whatever happened, once all sessions are closed
    every send at the gate can go on, then and as long as it has not, also if sessions open
    again. -/
theorem catch_up_gate {actions : List Action} {state : State}
    (hrun : run step .start actions = some state) :
    (EachStep step OpensQuietly .start actions →
      ∀ id next, step state (.encrypt id) = some next → state.sessions = []) ∧
    (state.sessions = [] → ∀ id groupId gate, state.sends id = some ⟨groupId, .atGate gate⟩ →
      ∀ more later, run step state more = some later →
        later.sends id = some ⟨groupId, .atGate gate⟩ →
      ∀ throws, ∃ next, step later (.passGate id throws) = some next) := by
  constructor
  · intro hquietly id next hencrypt
    have hguarded := Guarded.start.run hquietly hrun
    obtain ⟨send, sectionId, hsend, hunder, -⟩ := step_encrypt hencrypt
    by_contra hopen
    exact absurd ((hguarded.quiet hopen id send hsend).symm.trans hunder) (by decide)
  · intro hclosed id groupId gate hsend more later hmore hlater throws
    have hgate := GateOk.start.run hrun
    have hsettled : state.settled gate := by
      refine ⟨hgate.resolved_of_closed hclosed gate, ?_⟩
      rintro number rfl
      exact hgate.sends id groupId number hsend
    have hresolved := (settled_run hsettled hmore).1
    simp [step, hlater, hresolved, EpochSendBarrier.step]

/-- A send called during a session waits, and goes on when the session is over. -/
theorem catch_up_gate_waits :
    ∃ closed passed next, run step .start [.createDecryptSession "promo" true, .send "promo",
        .finish ⟨0, "promo", true⟩] = some closed ∧
      step closed (.passGate 0 false) = some passed ∧
      step passed (.encrypt 0) = some next ∧ passed.sessions = [] := by
  obtain ⟨closed, hclosed⟩ : ∃ closed, run step .start [.createDecryptSession "promo" true,
      .send "promo", .finish ⟨0, "promo", true⟩] = some closed := ⟨_, rfl⟩
  have hsessions : closed.sessions = [] ∧ closed.sends 0 = some ⟨"promo", .atGate (some 0)⟩ := by
    cases hclosed
    exact ⟨by decide, by decide⟩
  obtain ⟨passed, hpassed⟩ := (catch_up_gate hclosed).2 hsessions.1 0 "promo" (some 0) hsessions.2
    [] closed rfl hsessions.2 false
  have hrun : run step .start [.createDecryptSession "promo" true, .send "promo",
      .finish ⟨0, "promo", true⟩, .passGate 0 false] = some passed :=
    run_append_eq_some.mpr ⟨closed, hclosed, run_cons_eq_some.mpr ⟨passed, hpassed, rfl⟩⟩
  have hquietly : EachStep step OpensQuietly .start [.createDecryptSession "promo" true,
      .send "promo", .finish ⟨0, "promo", true⟩, .passGate 0 false] := by
    refine ⟨fun id send hsend => ?_, fun _ _ => ⟨trivial, fun _ _ => ⟨trivial, fun _ _ =>
      ⟨trivial, fun _ _ => trivial⟩⟩⟩⟩
    cases hsend
  obtain ⟨next, hnext⟩ : ∃ next, step passed (.encrypt 0) = some next := by
    cases hclosed
    cases hpassed
    exact ⟨_, rfl⟩
  exact ⟨closed, passed, next, hclosed, hpassed, hnext,
    (catch_up_gate hrun).1 hquietly 0 next hnext⟩

/-- A send passes the open gate and finds a commit under way.  A session of the base client
    opens meanwhile, and when the commit is over the send encrypts in it.  The same happens
    without a commit, to a send that a session overtakes between its two awaits. -/
theorem send_crosses_opening :
    (∃ state next,
      run step .start [.barrier (.advance "promo" false), .send "promo", .passGate 0 false,
        .createDecryptSession "promo" false, .barrier (.settleAdvance 0),
        .barrier (.finishAdvance 0), .barrier (.wakeSend 1 false)] = some state ∧
      state.openCatchUps = ["promo"] ∧ state.catchUpGate = some 0 ∧
      step state (.encrypt 0) = some next) ∧
    ∃ state next,
      run step .start [.send "promo", .createDecryptSession "promo" true, .passGate 0 false]
        = some state ∧
      state.openCatchUps = ["promo"] ∧ state.catchUpGate = some 0 ∧
      step state (.encrypt 0) = some next :=
  ⟨⟨_, _, rfl, rfl, rfl, rfl⟩, _, _, rfl, rfl, rfl, rfl⟩

/-! ## 8. Sessions that fail

One session of the web client, from its call to the end of `finish`, with the steps of it that
fail.  What it does to the mutex and to the gate is a list of effects, in order. -/

inductive Effect where
  | acquireMlsLock
  | beginCatchUp
  | endCatchUp
  | release
deriving DecidableEq, Repr

def State.after (groupId : String) (state : State) : Effect → State
  | .beginCatchUp => beginCatchUp state groupId
  | .endCatchUp => endCatchUp state groupId
  | .acquireMlsLock | .release => state

/-- Which steps fail.  `usedWorker` when a page that is not empty was given to the worker, whether
    or not it was decrypted. -/
structure Failures where
  useCryptoWorker : Bool
  snapshot : Bool
  workerStart : Bool
  sequential : Bool
  sequentialFinish : Bool
  usedWorker : Bool
  finalize : Bool
  install : Bool
  dispose : Bool
deriving DecidableEq, Repr

inductive DecryptSession where
  | sequential
  | fallback
  | worker
deriving DecidableEq, Repr

abbrev SessionM := ExceptT Unit (StateM (List Effect))

def emit (effect : Effect) : SessionM Unit := modify (· ++ [effect])

def attempt (failing : Bool) : SessionM Unit := if failing then throw () else pure ()

namespace Failures

variable (fails : Failures)

/-- The base client's `createDecryptSession`. -/
def createSequential : SessionM DecryptSession := do
  emit .beginCatchUp
  try
    attempt fails.sequential
  catch e =>
    emit .endCatchUp
    throw e
  return .sequential

def createDecryptSession : SessionM DecryptSession := do
  if !fails.useCryptoWorker then
    fails.createSequential
  else
    emit .acquireMlsLock
    emit .beginCatchUp
    let started ←
      try
        attempt fails.snapshot
        attempt fails.workerStart
        pure true
      catch _ => pure false
    if started then
      return .worker
    else
      let _ ← fails.createSequential
      return .fallback

/-- The base client's `finish`. -/
def finishSequential : SessionM Unit := do
  try attempt fails.sequentialFinish
  finally emit .endCatchUp

/-- What the worker decrypted goes to the live client, or is given up. -/
def installFinalState : SessionM Unit := do
  try
    if fails.usedWorker then
      attempt fails.finalize
      attempt fails.install
  catch _ => pure ()

def finish : DecryptSession → SessionM Unit
  | .sequential => fails.finishSequential
  | .fallback => do
    try fails.finishSequential
    finally
      emit .endCatchUp
      emit .release
  | .worker => do
    try fails.installFinalState
    finally
      emit .endCatchUp
      attempt fails.dispose
      emit .release

def effects : List Effect :=
  ((fails.createDecryptSession >>= fails.finish).run.run []).2

/-- While the mutex is held, nothing fails outside the blocks that catch: neither the fallback that
    takes the worker's place, nor the disposal of the worker. -/
def Survives : Prop :=
  fails.useCryptoWorker = true →
    if fails.snapshot || fails.workerStart then fails.sequential = false else fails.dispose = false

theorem effects_of_survives {fails : Failures} (h : fails.Survives) :
    fails.effects = [.beginCatchUp, .endCatchUp] ∨
    fails.effects = [.acquireMlsLock, .beginCatchUp, .endCatchUp, .release] ∨
    fails.effects =
      [.acquireMlsLock, .beginCatchUp, .beginCatchUp, .endCatchUp, .endCatchUp, .release] := by
  obtain ⟨useCryptoWorker, snapshot, workerStart, sequential, sequentialFinish, usedWorker,
    finalize, install, dispose⟩ := fails
  cases useCryptoWorker with
  | false => cases sequential <;> cases sequentialFinish <;> exact .inl rfl
  | true =>
    have hstep := h rfl
    cases snapshot with
    | true =>
      obtain rfl : sequential = false := hstep
      cases sequentialFinish <;> exact .inr (.inr rfl)
    | false =>
      cases workerStart with
      | true =>
        obtain rfl : sequential = false := hstep
        cases sequentialFinish <;> exact .inr (.inr rfl)
      | false =>
        obtain rfl : dispose = false := hstep
        cases usedWorker <;> cases finalize <;> cases install <;> exact .inr (.inl rfl)

/-- The mutex is kept. -/
theorem effects_of_not_survives {fails : Failures} (h : ¬ fails.Survives) :
    fails.effects = [.acquireMlsLock, .beginCatchUp, .endCatchUp] ∨
    fails.effects = [.acquireMlsLock, .beginCatchUp, .beginCatchUp, .endCatchUp] := by
  obtain ⟨useCryptoWorker, snapshot, workerStart, sequential, sequentialFinish, usedWorker,
    finalize, install, dispose⟩ := fails
  simp only [Survives, Classical.not_imp] at h
  obtain ⟨rfl, hstep⟩ := h
  cases snapshot with
  | true =>
    obtain rfl : sequential = true := by simpa using hstep
    exact .inr rfl
  | false =>
    cases workerStart with
    | true =>
      obtain rfl : sequential = true := by simpa using hstep
      exact .inr rfl
    | false =>
      obtain rfl : dispose = true := by simpa using hstep
      cases usedWorker <;> cases finalize <;> cases install <;> exact .inl rfl

end Failures

/-- **A session gives back what it took** exactly if the fallback does not reject and the worker
    can be disposed of while the mutex is held: the mutex is released once if it was acquired,
    every `beginCatchUp` has met its `endCatchUp`, and the depth is what it was. -/
theorem session_gives_back (fails : Failures) (groupId : String) (state : State) :
    (fails.effects.count .release = fails.effects.count .acquireMlsLock ∧
      fails.effects.count .acquireMlsLock ≤ 1 ∧
      fails.effects.count .endCatchUp = fails.effects.count .beginCatchUp ∧
      (fails.effects.foldl (after groupId) state).catchUpDepth = state.catchUpDepth) ↔
    fails.Survives := by
  constructor
  · rintro ⟨hreleased, -⟩
    by_contra hfails
    rcases Failures.effects_of_not_survives hfails with heffects | heffects
    all_goals
      rw [heffects] at hreleased
      cases hreleased
  · intro h
    rcases Failures.effects_of_survives h with heffects | heffects | heffects
    all_goals
      rw [heffects]
      exact ⟨by decide, by decide, by decide, rfl⟩

/-- The worker does not start and the fallback rejects: the mutex stays held and the gate closed.
    The worker cannot be disposed of: the mutex stays held. -/
theorem session_keeps_the_mutex :
    let rejecting : Failures := ⟨true, false, true, true, false, false, false, false, false⟩
    let undisposed : Failures := ⟨true, false, false, false, false, true, false, false, true⟩
    rejecting.effects = [.acquireMlsLock, .beginCatchUp, .beginCatchUp, .endCatchUp] ∧
    (rejecting.effects.foldl (after "promo") .start).catchUpDepth = 1 ∧
    undisposed.effects = [.acquireMlsLock, .beginCatchUp, .endCatchUp] := by
  decide

end MinesApp.CatchUpGate
