import Mathlib.Data.Finset.Card
import Mathlib.Data.Finset.Range
import MinesApp.TransitionSystem

/-!
# The epoch send barrier

`epochSendBarrier.ts` keeps an application send and a local epoch advance of the
same group apart.  An advance raises the group's barrier and waits for the frames
in flight; a send waits while a barrier is up and registers its frame in the same
synchronous stretch in which its callback starts.

A step of the model is one synchronous stretch between two suspensions.  The
callbacks are the environment's: they start when the code calls them, settle when
they like, fulfilled or rejected, and may throw before their first suspension.
`mutex` is the MLS client mutex that `runCommitTransaction` holds around an
advance; sends never take it.
-/

namespace MinesApp.EpochSendBarrier

open TransitionSystem List Function

/-! ## 1. State -/

/-- A send awaits a barrier's promise, or its callback's frame, or has its
    `finally` block pending, or is over.  `frames` is the `Set` object it
    registered its frame in. -/
inductive SendStage where
  | waiting (barrier : Nat)
  | running (frames : Nat)
  | settled (frames : Nat)
  | ended
deriving DecidableEq, Repr

/-- An advance awaits `Promise.allSettled` over the frames it found, or its
    callback, or has its `finally` block pending, or is over. -/
inductive AdvanceStage where
  | draining (frames : List Nat)
  | running
  | settled
  | ended
deriving DecidableEq, Repr

/-- One call of `runAsEpochSend` or `runAsEpochAdvance`. -/
inductive Section where
  | send (groupId : String) (stage : SendStage)
  | advance (groupId : String) (stage : AdvanceStage)
deriving DecidableEq, Repr

/-- `barriers` maps a group to the advance whose promise is its barrier, and
    `inFlight` to a `Set` object, whose members `sets` holds.  A frame is named by
    the send it belongs to.  Sections are numbered by arrival. -/
structure State where
  barriers : String → Option Nat
  inFlight : String → Option Nat
  sets : Nat → List Nat
  nextSet : Nat
  mutex : String → Option Nat
  sections : Nat → Option Section
  arrivals : Nat

open State

def State.start : State :=
  ⟨fun _ => none, fun _ => none, fun _ => [], 0, fun _ => none, fun _ => none, 0⟩

def State.set (state : State) (id : Nat) (newSection : Section) : State :=
  { state with sections := update state.sections id (some newSection) }

/-! ## 2. The code between two suspensions -/

section

variable (state : State) (id : Nat) (groupId : String) (throws : Bool)

/-- `frames.add(frame)`, in the group's set or in a new one. -/
def State.register : State × Nat :=
  match state.inFlight groupId with
  | some frames =>
    ({ state with sets := update state.sets frames (state.sets frames ++ [id]) }, frames)
  | none =>
    ({ state with
       inFlight := update state.inFlight groupId (some state.nextSet)
       sets := update state.sets state.nextSet [id]
       nextSet := state.nextSet + 1 }, state.nextSet)

/-- The loop's test and, with no barrier up, the callback and its registration.  A
    callback that throws before its first suspension registers nothing. -/
def runAsEpochSend : State :=
  match state.barriers groupId with
  | some barrier => state.set id (.send groupId (.waiting barrier))
  | none =>
    if throws then state.set id (.send groupId .ended)
    else
      let (registered, frames) := state.register id groupId
      registered.set id (.send groupId (.running frames))

/-- The `finally` block of a send. -/
def finishSend (frames : Nat) : State :=
  let rest := (state.sets frames).filter (· ≠ id)
  { state with
    sets := update state.sets frames rest
    inFlight := if rest = [] then update state.inFlight groupId none else state.inFlight
    }.set id (.send groupId .ended)

/-- The `finally` block of an advance; its caller then releases the mutex. -/
def finishAdvance : State :=
  { state with
    barriers := update state.barriers groupId none
    mutex := update state.mutex groupId none
    }.set id (.advance groupId .ended)

def callAdvance : State :=
  if throws then finishAdvance state id groupId else state.set id (.advance groupId .running)

def State.raiseBarrier : State :=
  { state with
    barriers := update state.barriers groupId (some id)
    mutex := update state.mutex groupId (some id) }

/-- The barrier is raised first, and the frames registered by then are drained. -/
def runAsEpochAdvance : State :=
  let raised := state.raiseBarrier id groupId
  match raised.inFlight groupId with
  | some frames =>
    if raised.sets frames = [] then callAdvance raised id groupId throws
    else raised.set id (.advance groupId (.draining (raised.sets frames)))
  | none => callAdvance raised id groupId throws

end

/-! ## 3. Steps -/

inductive Action where
  | send (groupId : String) (throws : Bool)
  | advance (groupId : String) (throws : Bool)
  | settleSend (id : Nat)
  | settleAdvance (id : Nat)
  | wakeSend (id : Nat) (throws : Bool)
  | finishSend (id : Nat)
  | wakeAdvance (id : Nat) (throws : Bool)
  | finishAdvance (id : Nat)
deriving DecidableEq, Repr

/-- The code going on after a promise it awaited has settled, as opposed to a new
    call or a callback settling. -/
def Action.continuation : Action → Bool
  | .wakeSend _ _ | .finishSend _ | .wakeAdvance _ _ | .finishAdvance _ => true
  | _ => false

section

variable (state : State)

/-- The promise of a barrier is resolved when its advance is over. -/
def State.released (barrier : Nat) : Bool :=
  match state.sections barrier with
  | some (.advance _ .ended) => true
  | _ => false

def State.frameSettled (id : Nat) : Bool :=
  match state.sections id with
  | some (.send _ (.settled _)) | some (.send _ .ended) => true
  | _ => false

def State.arrive : State := { state with arrivals := state.arrivals + 1 }

def step : Action → Option State
  | .send groupId throws => some (runAsEpochSend state.arrive state.arrivals groupId throws)
  -- the mutex admits one advance of a group at a time
  | .advance groupId throws =>
    match state.mutex groupId with
    | some _ => none
    | none => some (runAsEpochAdvance state.arrive state.arrivals groupId throws)
  | .settleSend id =>
    match state.sections id with
    | some (.send groupId (.running frames)) =>
      some (state.set id (.send groupId (.settled frames)))
    | _ => none
  | .settleAdvance id =>
    match state.sections id with
    | some (.advance groupId .running) => some (state.set id (.advance groupId .settled))
    | _ => none
  | .wakeSend id throws =>
    match state.sections id with
    | some (.send groupId (.waiting barrier)) =>
      if state.released barrier then some (runAsEpochSend state id groupId throws) else none
    | _ => none
  | .finishSend id =>
    match state.sections id with
    | some (.send groupId (.settled frames)) =>
      some (finishSend state id groupId frames)
    | _ => none
  | .wakeAdvance id throws =>
    match state.sections id with
    | some (.advance groupId (.draining frames)) =>
      if frames.all state.frameSettled then some (callAdvance state id groupId throws) else none
    | _ => none
  | .finishAdvance id =>
    match state.sections id with
    | some (.advance groupId .settled) =>
      some (finishAdvance state id groupId)
    | _ => none

end

/-! ## 4. The invariant -/

def SendStage.started : SendStage → Prop
  | .waiting _ => False
  | _ => True

/-- A raised barrier belongs to the one advance of its group that is not over, and
    that advance holds the mutex. -/
structure AdvancesOk (state : State) : Prop where
  raised : ∀ groupId id, state.barriers groupId = some id →
    ∃ stage, state.sections id = some (.advance groupId stage) ∧ stage ≠ .ended
  active : ∀ id groupId stage, state.sections id = some (.advance groupId stage) →
    stage ≠ .ended → state.barriers groupId = some id ∧ state.mutex groupId = some id

/-- A send whose frame is registered finds it in its group's current set: the set a
    send remembers is never replaced under it. -/
structure SendsOk (state : State) : Prop where
  registered : ∀ id groupId frames, (state.sections id = some (.send groupId (.running frames)) ∨
      state.sections id = some (.send groupId (.settled frames))) →
    state.inFlight groupId = some frames ∧ id ∈ state.sets frames
  members : ∀ groupId frames, state.inFlight groupId = some frames →
    frames < state.nextSet ∧ ∀ id ∈ state.sets frames,
      ∃ stage, state.sections id = some (.send groupId stage) ∧ stage.started
  owner : ∀ groupId groupId' frames, state.inFlight groupId = some frames →
    state.inFlight groupId' = some frames → groupId = groupId'

/-- What a waiting section waits for, and which sends an advance still has to fear. -/
structure MeetOk (state : State) : Prop where
  barrier : ∀ id groupId other, state.sections id = some (.send groupId (.waiting other)) →
    ∃ stage, state.sections other = some (.advance groupId stage)
  frames : ∀ id groupId frames, state.sections id = some (.advance groupId (.draining frames)) →
    ∀ other ∈ frames, ∃ stage, state.sections other = some (.send groupId stage) ∧ stage.started
  drained : ∀ id groupId frames, state.sections id = some (.advance groupId (.draining frames)) →
    ∀ other set, state.sections other = some (.send groupId (.running set)) → other ∈ frames
  excluded : ∀ id groupId stage, state.sections id = some (.advance groupId stage) →
    (stage = .running ∨ stage = .settled) →
    ∀ other set, state.sections other ≠ some (.send groupId (.running set))

structure Inv (state : State) : Prop where
  fresh : ∀ id, state.arrivals ≤ id → state.sections id = none
  advances : AdvancesOk state
  sends : SendsOk state
  meet : MeetOk state

theorem inv_start : Inv .start := by
  refine ⟨fun _ _ => rfl, ⟨?_, ?_⟩, ⟨?_, ?_, ?_⟩, ⟨?_, ?_, ?_, ?_⟩⟩ <;>
    intro _ _ <;> simp [start]

section

variable (state : State) (groupId : String) (id : Nat)

/-- Where a section stood before a step of it: it has just arrived, or it was a
    section of the same kind and group. -/
def SendBefore (groupId : String) (stage : SendStage) : Prop :=
  state.sections id = none ∨
  ∃ before, state.sections id = some (.send groupId before) ∧ (before.started → stage.started)

def AdvanceBefore (groupId : String) : Prop :=
  state.sections id = none ∨ ∃ before, state.sections id = some (.advance groupId before)

def State.Started : Prop :=
  ∃ stage, state.sections id = some (.send groupId stage) ∧ stage.started

/-- No callback of a send of the group is running. -/
def State.Quiet : Prop :=
  ∀ other set, state.sections other ≠ some (.send groupId (.running set))

end

/-! ### A section moves, the sections of the other kind stay -/

section SectionMoves

variable {state : State} {id : Nat} {groupId : String} {stage : AdvanceStage} {other : Nat}
  {otherGroup : String}

/-- What a section is not before the move nor after it, it is not by the move. -/
theorem sections_set_iff {moved found : Section} (hmoved : moved ≠ found)
    (hbefore : state.sections id ≠ some found) :
    (state.set id moved).sections other = some found ↔ state.sections other = some found := by
  by_cases hsame : other = id
  · subst hsame
    simp [State.set, hmoved, hbefore]
  · simp [State.set, hsame]

section

variable {stage : SendStage} (hbefore : SendBefore state id groupId stage)
include hbefore

theorem advance_set_send {otherStage : AdvanceStage} :
    (state.set id (.send groupId stage)).sections other = some (.advance otherGroup otherStage) ↔
      state.sections other = some (.advance otherGroup otherStage) := by
  refine sections_set_iff nofun ?_
  rcases hbefore with hnone | ⟨before, hsend, _⟩
  · simp [hnone]
  · simp [hsend]

theorem started_set_send (h : state.Started otherGroup other) :
    (state.set id (.send groupId stage)).Started otherGroup other := by
  obtain ⟨otherStage, hother, hstarted⟩ := h
  by_cases hsame : other = id
  · subst hsame
    rcases hbefore with hnone | ⟨before, hsend, hkept⟩
    · cases hnone.symm.trans hother
    · cases hsend.symm.trans hother
      exact ⟨stage, by simp [State.set], hkept hstarted⟩
  · exact ⟨otherStage, by simp [State.set, hsame, hother], hstarted⟩

/-! ### The three parts of the invariant, over a move of a send -/

theorem AdvancesOk.setSend (h : AdvancesOk state) :
    AdvancesOk (state.set id (.send groupId stage)) where
  raised otherGroup other hraised := by
    obtain ⟨otherStage, hother, hne⟩ := h.raised otherGroup other hraised
    exact ⟨otherStage, (advance_set_send hbefore).mpr hother, hne⟩
  active other otherGroup otherStage hother :=
    h.active other otherGroup otherStage ((advance_set_send hbefore).mp hother)

theorem MeetOk.setSend (h : MeetOk state) (hwaiting : ∀ barrier, stage = .waiting barrier →
      ∃ advanceStage, state.sections barrier = some (.advance groupId advanceStage))
    (hrunning : ∀ set, stage = .running set → ∀ other otherStage,
      state.sections other = some (.advance groupId otherStage) → otherStage = .ended) :
    MeetOk (state.set id (.send groupId stage)) := by
  refine ⟨?_, ?_, ?_, ?_⟩
  · intro other otherGroup barrier hother
    rcases update_eq_some_iff.mp hother with ⟨_, hsame⟩ | ⟨_, hold⟩
    · cases hsame
      obtain ⟨advanceStage, hadvance⟩ := hwaiting barrier rfl
      exact ⟨advanceStage, (advance_set_send hbefore).mpr hadvance⟩
    · obtain ⟨advanceStage, hadvance⟩ := h.barrier other otherGroup barrier hold
      exact ⟨advanceStage, (advance_set_send hbefore).mpr hadvance⟩
  · intro other otherGroup frames hother member hmember
    exact started_set_send hbefore
      (h.frames other otherGroup frames ((advance_set_send hbefore).mp hother) member hmember)
  · intro other otherGroup frames hother sender set hsender
    have hadvance := (advance_set_send hbefore).mp hother
    -- a send that is running after the move was so before it, unless it is the mover
    rcases update_eq_some_iff.mp hsender with ⟨_, hsame⟩ | ⟨_, hold⟩
    · cases hsame
      cases hrunning set rfl other _ hadvance
    · exact h.drained other otherGroup frames hadvance sender set hold
  · intro other otherGroup otherStage hother hlate sender set hsender
    have hadvance := (advance_set_send hbefore).mp hother
    rcases update_eq_some_iff.mp hsender with ⟨_, hsame⟩ | ⟨_, hold⟩
    · cases hsame
      have hended := hrunning set rfl other _ hadvance
      rcases hlate with rfl | rfl <;> cases hended
    · exact h.excluded other otherGroup otherStage hadvance hlate sender set hold

theorem SendsOk.setSend (h : SendsOk state)
    (hregistered : ∀ frames, (stage = .running frames ∨ stage = .settled frames) →
      state.inFlight groupId = some frames ∧ id ∈ state.sets frames) :
    SendsOk (state.set id (.send groupId stage)) := by
  refine ⟨?_, ?_, h.owner⟩
  · intro other otherGroup frames hother
    by_cases hsame : other = id
    · subst hsame
      simp only [State.set, update_self, Option.some.injEq, Section.send.injEq] at hother
      rcases hother with ⟨rfl, hstage⟩ | ⟨rfl, hstage⟩
      · exact hregistered frames (.inl hstage)
      · exact hregistered frames (.inr hstage)
    · exact h.registered other otherGroup frames (by simpa [State.set, hsame] using hother)
  · intro otherGroup frames hframes
    obtain ⟨hlt, hmembers⟩ := h.members otherGroup frames hframes
    exact ⟨hlt, fun member hmember => started_set_send hbefore (hmembers member hmember)⟩

/-- A send whose `Set` object changes with it: the entry of its group is that set or is gone, and
    the members are the ones before it, up to the send itself. -/
theorem SendsOk.refile (h : SendsOk state) (entry : Option Nat) (members : List Nat)
    {frames nextSet : Nat} (hnext : state.nextSet ≤ nextSet) (hlt : frames < nextSet)
    (hentry : entry = none ∨ entry = some frames)
    (howner : ∀ other, state.inFlight other = some frames → other = groupId)
    (hself : ∀ set, (stage = .running set ∨ stage = .settled set) →
      entry = some set ∧ id ∈ members)
    (hothers : ∀ set, state.inFlight groupId = some set → set = frames ∧
      ∀ other ∈ state.sets set, other ≠ id → entry = some frames ∧ other ∈ members)
    (hmembers : ∀ member ∈ members, (state.set id (.send groupId stage)).Started groupId member) :
    SendsOk ({ state with
      inFlight := update state.inFlight groupId entry
      sets := update state.sets frames members
      nextSet }.set id (.send groupId stage)) := by
  have hapart : ∀ {otherGroup set}, otherGroup ≠ groupId →
      state.inFlight otherGroup = some set → set ≠ frames := by
    rintro otherGroup set hgroup hflight rfl
    exact hgroup (howner otherGroup hflight)
  refine ⟨fun other otherGroup set hother => ?_, fun otherGroup set hflight => ?_,
    fun first second set hfirst hsecond => ?_⟩
  · by_cases hsame : other = id
    · subst hsame
      simp only [State.set, update_self, Option.some.injEq, Section.send.injEq] at hother
      obtain ⟨rfl, hstage⟩ : groupId = otherGroup ∧
          (stage = .running set ∨ stage = .settled set) := by tauto
      obtain ⟨rfl, hmember⟩ := hself set hstage
      cases hentry.resolve_left nofun
      simp [State.set, hmember]
    · obtain ⟨hflight, hmember⟩ := h.registered other otherGroup set
        (by simpa [State.set, hsame] using hother)
      by_cases hgroup : otherGroup = groupId
      · subst hgroup
        obtain ⟨rfl, hstays⟩ := hothers set hflight
        obtain ⟨rfl, hmember⟩ := hstays other hmember hsame
        simp [State.set, hmember]
      · simp [State.set, hgroup, hapart hgroup hflight, hflight, hmember]
  · rcases update_eq_some_iff.mp hflight with ⟨rfl, hnow⟩ | ⟨hgroup, hold⟩
    · subst hnow
      cases hentry.resolve_left nofun
      exact ⟨hlt, fun member hmember => hmembers member (by simpa [State.set] using hmember)⟩
    · obtain ⟨hsetlt, hstarted⟩ := h.members otherGroup set hold
      refine ⟨lt_of_lt_of_le hsetlt hnext, fun member hmember => ?_⟩
      refine started_set_send hbefore (hstarted member ?_)
      simpa [State.set, hapart hgroup hold] using hmember
  · have howns : ∀ otherGroup, update state.inFlight groupId entry otherGroup = some set →
        otherGroup = groupId ∧ set = frames ∨
          state.inFlight otherGroup = some set ∧ set ≠ frames := by
      intro otherGroup hset
      rcases update_eq_some_iff.mp hset with ⟨rfl, rfl⟩ | ⟨hgroup, hold⟩
      · exact .inl ⟨rfl, Option.some.inj (hentry.resolve_left nofun)⟩
      · exact .inr ⟨hold, hapart hgroup hold⟩
    rcases howns first hfirst with ⟨rfl, hset⟩ | ⟨hfirst, hset⟩
    · rcases howns second hsecond with ⟨rfl, _⟩ | ⟨_, hne⟩
      · rfl
      · exact absurd hset hne
    · rcases howns second hsecond with ⟨_, hsame⟩ | ⟨hsecond, _⟩
      · exact absurd hsame hset
      · exact h.owner first second set hfirst hsecond

end

/-- A send that starts its callback and registers its frame, in the group's set or in a new one. -/
theorem SendsOk.register (h : SendsOk state)
    (hbefore : ∀ stage, SendBefore state id groupId stage) :
    SendsOk ((state.register id groupId).1.set id
      (.send groupId (.running (state.register id groupId).2))) := by
  unfold State.register
  cases hset : state.inFlight groupId with
  | some frames =>
    obtain ⟨hlt, hstarted⟩ := h.members groupId frames hset
    have hfiled := h.refile (hbefore (.running frames)) (some frames) (state.sets frames ++ [id])
      (le_refl _) hlt (.inr rfl)
      (fun other hother => h.owner other groupId frames hother hset) (by simp)
      (fun set hsame => ?_) fun member hmember => ?_
    · simpa only [← hset, update_eq_self] using hfiled
    · cases hset.symm.trans hsame
      exact ⟨rfl, fun other hother _ => ⟨rfl, mem_append_left _ hother⟩⟩
    · rcases mem_append.mp hmember with hold | hnew
      · exact started_set_send (hbefore _) (hstarted member hold)
      · cases mem_singleton.mp hnew
        exact ⟨.running frames, update_self _ _ _, trivial⟩
  | none =>
    refine h.refile (hbefore _) (some state.nextSet) [id] (Nat.le_succ _) (Nat.lt_succ_self _)
      (.inr rfl)
      (fun other hother => absurd (h.members other _ hother).1 (lt_irrefl _)) (by simp)
      (by simp [hset]) fun member hmember => ?_
    cases mem_singleton.mp hmember
    exact ⟨.running state.nextSet, update_self _ _ _, trivial⟩

/-- The `finally` block takes the send's own frame out of its group's set. -/
protected theorem SendsOk.finishSend (h : SendsOk state) {frames : Nat}
    (hid : state.sections id = some (.send groupId (.settled frames))) :
    SendsOk (finishSend state id groupId frames) := by
  obtain ⟨hcurrent, _⟩ := h.registered id groupId frames (.inr hid)
  obtain ⟨hlt, hstarted⟩ := h.members groupId frames hcurrent
  have hbefore : SendBefore state id groupId .ended := .inr ⟨_, hid, fun _ => trivial⟩
  let rest := (state.sets frames).filter (· ≠ id)
  -- the entry either stays, or goes when no other frame is left in the set
  have hfiled := h.refile hbefore (if rest = [] then none else some frames) rest (le_refl _) hlt
    (by split <;> simp)
    (fun other hother => h.owner other groupId frames hother hcurrent) (by simp)
    (fun set hset => ?_) fun member hmember => ?_
  · have hflight : (if rest = [] then update state.inFlight groupId none else state.inFlight) =
        update state.inFlight groupId (if rest = [] then none else some frames) := by
      split
      · rfl
      · rw [← hcurrent, update_eq_self]
    rw [← hflight] at hfiled
    exact hfiled
  · cases hcurrent.symm.trans hset
    refine ⟨rfl, fun other hother hne => ?_⟩
    have hrest : other ∈ rest := by simp [rest, hother, hne]
    exact ⟨if_neg (ne_nil_of_mem hrest), hrest⟩
  · exact started_set_send hbefore (hstarted member (mem_of_mem_filter hmember))

/-! ### The three parts of the invariant, over a move of an advance -/

def AdvanceStage.holder (id : Nat) : AdvanceStage → Option Nat
  | .ended => none
  | _ => some id

/-- An advance goes to a stage; the barrier and the mutex are its own until it is over. -/
def State.setAdvance (state : State) (id : Nat) (groupId : String) (stage : AdvanceStage) : State :=
  { state with
    barriers := update state.barriers groupId (stage.holder id)
    mutex := update state.mutex groupId (stage.holder id) }.set id (.advance groupId stage)

section

variable (hbefore : AdvanceBefore state id groupId)
include hbefore

theorem send_set_advance {otherStage : SendStage} :
    (state.setAdvance id groupId stage).sections other = some (.send otherGroup otherStage) ↔
      state.sections other = some (.send otherGroup otherStage) := by
  refine sections_set_iff nofun ?_
  rcases hbefore with hnone | ⟨before, hadvance⟩
  · simp [hnone]
  · simp [hadvance]

theorem exists_advance_set_advance
    (h : ∃ otherStage, state.sections other = some (.advance otherGroup otherStage)) :
    ∃ otherStage, (state.setAdvance id groupId stage).sections other =
      some (.advance otherGroup otherStage) := by
  obtain ⟨otherStage, hother⟩ := h
  by_cases hsame : other = id
  · subst hsame
    rcases hbefore with hnone | ⟨before, hadvance⟩
    · cases hnone.symm.trans hother
    · cases hadvance.symm.trans hother
      exact ⟨stage, update_self _ _ _⟩
  · exact ⟨otherStage, (update_of_ne hsame _ _).trans hother⟩

theorem SendsOk.setAdvance (h : SendsOk state) :
    SendsOk (state.setAdvance id groupId stage) where
  registered other otherGroup frames hother :=
    h.registered other otherGroup frames
      (hother.imp (send_set_advance hbefore).mp (send_set_advance hbefore).mp)
  members otherGroup frames hframes := by
    obtain ⟨hlt, hmembers⟩ := h.members otherGroup frames hframes
    refine ⟨hlt, fun member hmember => ?_⟩
    obtain ⟨stage, hstage, hstarted⟩ := hmembers member hmember
    exact ⟨stage, (send_set_advance hbefore).mpr hstage, hstarted⟩
  owner := h.owner

theorem MeetOk.setAdvance (h : MeetOk state) (hdraining : ∀ frames, stage = .draining frames →
      (∀ other ∈ frames, state.Started groupId other) ∧
      ∀ other set, state.sections other = some (.send groupId (.running set)) → other ∈ frames)
    (hlate : (stage = .running ∨ stage = .settled) → state.Quiet groupId) :
    MeetOk (state.setAdvance id groupId stage) := by
  refine ⟨?_, ?_, ?_, ?_⟩
  · intro other otherGroup barrier hother
    exact exists_advance_set_advance hbefore
      (h.barrier other otherGroup barrier ((send_set_advance hbefore).mp hother))
  · intro other otherGroup frames hother member hmember
    have hstarted : state.Started otherGroup member := by
      rcases update_eq_some_iff.mp hother with ⟨_, hsame⟩ | ⟨_, hold⟩
      · cases hsame
        exact (hdraining frames rfl).1 member hmember
      · exact h.frames other otherGroup frames hold member hmember
    obtain ⟨sendStage, hsend, hdone⟩ := hstarted
    exact ⟨sendStage, (send_set_advance hbefore).mpr hsend, hdone⟩
  · intro other otherGroup frames hother sender set hsender
    have hsend := (send_set_advance hbefore).mp hsender
    rcases update_eq_some_iff.mp hother with ⟨_, hsame⟩ | ⟨_, hold⟩
    · cases hsame
      exact (hdraining frames rfl).2 sender set hsend
    · exact h.drained other otherGroup frames hold sender set hsend
  · intro other otherGroup otherStage hother hotherLate sender set hsender
    have hsend := (send_set_advance hbefore).mp hsender
    rcases update_eq_some_iff.mp hother with ⟨_, hsame⟩ | ⟨_, hold⟩
    · cases hsame
      exact hlate hotherLate sender set hsend
    · exact h.excluded other otherGroup otherStage hold hotherLate sender set hsend

theorem AdvancesOk.setAdvance (h : AdvancesOk state)
    (hfree : ∀ other, state.barriers groupId = some other → other = id) :
    AdvancesOk (state.setAdvance id groupId stage) where
  raised otherGroup other hraised := by
    rcases update_eq_some_iff.mp hraised with ⟨rfl, hholder⟩ | ⟨hgroup, hold⟩
    · refine ⟨stage, ?_, ?_⟩ <;> cases stage <;> cases hholder <;>
        simp [State.setAdvance, State.set]
    · obtain ⟨otherStage, hother, hne⟩ := h.raised otherGroup other hold
      refine ⟨otherStage, (update_of_ne ?_ _ _).trans hother, hne⟩
      rintro rfl
      rcases hbefore with hnone | ⟨before, hadvance⟩
      · cases hnone.symm.trans hother
      · cases hadvance.symm.trans hother
        exact hgroup rfl
  active other otherGroup otherStage hother hne := by
    rcases update_eq_some_iff.mp hother with ⟨rfl, hsame⟩ | ⟨hdiff, hold⟩
    · cases hsame
      have hholder : stage.holder other = some other := by
        cases stage <;> simp_all [AdvanceStage.holder]
      exact ⟨(update_self _ _ _).trans hholder, (update_self _ _ _).trans hholder⟩
    · obtain ⟨hraised, hmutex⟩ := h.active other otherGroup otherStage hold hne
      have hgroup : otherGroup ≠ groupId := by
        rintro rfl
        exact hdiff (hfree other hraised)
      simp [State.setAdvance, State.set, hgroup, hraised, hmutex]

end

end SectionMoves

/-! ## 5. Steps keep the invariant -/

variable {state next : State} {id : Nat} {groupId : String} {stage before : AdvanceStage}

theorem fresh_set (h : ∀ other, state.arrivals ≤ other → state.sections other = none)
    (hlt : id < state.arrivals) (moved : Section) :
    ∀ other, (state.set id moved).arrivals ≤ other →
      (state.set id moved).sections other = none := by
  intro other hother
  have hne : other ≠ id := fun hsame => absurd hother (by simp [State.set, hsame, hlt])
  simpa [State.set, hne] using h other hother

section

variable (h : Inv state)
include h

theorem Inv.arrive : Inv state.arrive where
  fresh id hid := h.fresh id (Nat.le_of_succ_le hid)
  advances := ⟨h.advances.raised, h.advances.active⟩
  sends := ⟨h.sends.registered, h.sends.members, h.sends.owner⟩
  meet := ⟨h.meet.barrier, h.meet.frames, h.meet.drained, h.meet.excluded⟩

omit h in
theorem register_fst (state : State) (id : Nat) (groupId : String) :
    ∃ inFlight sets nextSet, (state.register id groupId).1 =
      { state with inFlight, sets, nextSet } := by
  unfold register
  cases state.inFlight groupId <;> exact ⟨_, _, _, rfl⟩

protected theorem Inv.runAsEpochSend (hlt : id < state.arrivals)
    (hbefore : state.sections id = none ∨
      ∃ barrier, state.sections id = some (.send groupId (.waiting barrier)))
    (throws : Bool) : Inv (runAsEpochSend state id groupId throws) := by
  have hsend : ∀ stage, SendBefore state id groupId stage := by
    intro stage
    rcases hbefore with hnone | ⟨barrier, hwaiting⟩
    · exact .inl hnone
    · exact .inr ⟨_, hwaiting, False.elim⟩
  unfold runAsEpochSend
  split
  next barrier hraised =>
    obtain ⟨stage, hadvance, _⟩ := h.advances.raised groupId barrier hraised
    refine ⟨fresh_set h.fresh hlt _, h.advances.setSend (hsend _),
      h.sends.setSend (hsend _) (by simp), h.meet.setSend (hsend _) ?_ (by simp)⟩
    rintro _ ⟨⟩
    exact ⟨stage, hadvance⟩
  next hlowered =>
    split
    · exact ⟨fresh_set h.fresh hlt _, h.advances.setSend (hsend _),
        h.sends.setSend (hsend _) (by simp), h.meet.setSend (hsend _) (by simp) (by simp)⟩
    · have hsends := h.sends.register hsend
      obtain ⟨inFlight, sets, nextSet, hregister⟩ := register_fst state id groupId
      simp only [hregister] at hsends ⊢
      generalize (state.register id groupId).2 = frames at hsends ⊢
      have hadvances := h.advances.setSend (hsend (.running frames))
      have hmeet : MeetOk (state.set id (.send groupId (.running frames))) := by
        refine h.meet.setSend (hsend _) (by simp) fun _ _ other stage hother => ?_
        by_contra hne
        cases hlowered.symm.trans (h.advances.active other groupId stage hother hne).1
      exact ⟨fresh_set h.fresh hlt _, ⟨hadvances.raised, hadvances.active⟩, hsends,
        ⟨hmeet.barrier, hmeet.frames, hmeet.drained, hmeet.excluded⟩⟩

theorem Inv.lt_arrivals {found : Section}
    (hid : state.sections id = some found) : id < state.arrivals := by
  by_contra hge
  cases (h.fresh id (Nat.le_of_not_lt hge)).symm.trans hid

/-- An advance whose group has no barrier of another one goes on, with no frame of its group left
    running if its callback may be. -/
theorem Inv.setAdvance (stage : AdvanceStage) (hlt : id < state.arrivals)
    (hbefore : AdvanceBefore state id groupId)
    (hfree : ∀ other, state.barriers groupId = some other → other = id)
    (hdraining : ∀ frames, stage = .draining frames →
      (∀ other ∈ frames, state.Started groupId other) ∧
      ∀ other set, state.sections other = some (.send groupId (.running set)) → other ∈ frames)
    (hlate : (stage = .running ∨ stage = .settled) → state.Quiet groupId) :
    Inv (state.setAdvance id groupId stage) :=
  ⟨fresh_set h.fresh hlt _, h.advances.setAdvance hbefore hfree, h.sends.setAdvance hbefore,
    h.meet.setAdvance hbefore hdraining hlate⟩

section

variable (hid : state.sections id = some (.advance groupId before)) (hbefore : before ≠ .ended)
include hid hbefore

theorem Inv.moveAdvance (stage : AdvanceStage) (hstage : ∀ frames, stage ≠ .draining frames)
    (hlate : (stage = .running ∨ stage = .settled) → state.Quiet groupId) :
    Inv (state.setAdvance id groupId stage) := by
  refine h.setAdvance stage (h.lt_arrivals hid) (.inr ⟨before, hid⟩) (fun other hother => ?_)
    (fun frames hframes => absurd hframes (hstage frames)) hlate
  cases (h.advances.active id groupId before hid hbefore).1.symm.trans hother
  rfl

/-- The barrier and the mutex of an advance that is not over are its own already. -/
theorem Inv.setAdvance_eq (hstage : stage.holder id = some id) :
    state.setAdvance id groupId stage = state.set id (.advance groupId stage) := by
  obtain ⟨hraised, hmutex⟩ := h.advances.active id groupId before hid hbefore
  simp only [State.setAdvance, hstage, ← hraised, update_eq_self]
  simp only [hraised, ← hmutex, update_eq_self]

protected theorem Inv.callAdvance
    (hquiet : state.Quiet groupId) (throws : Bool) : Inv (callAdvance state id groupId throws) := by
  cases throws with
  | true => exact h.moveAdvance hid hbefore .ended (by simp) (by simp)
  | false =>
    have hrunning := h.moveAdvance hid hbefore .running (by simp) fun _ => hquiet
    rwa [h.setAdvance_eq hid hbefore rfl] at hrunning

end

protected theorem Inv.runAsEpochAdvance (hlt : id < state.arrivals)
    (hfresh : state.sections id = none) (hmutex : state.mutex groupId = none) (throws : Bool) :
    Inv (runAsEpochAdvance state id groupId throws) := by
  have hfree : ∀ other, state.barriers groupId = some other → other = id := by
    intro other hraised
    obtain ⟨stage, hother, hne⟩ := h.advances.raised groupId other hraised
    cases hmutex.symm.trans (h.advances.active other groupId stage hother hne).2
  -- with nothing registered the drain is empty and the callback starts at once
  have hcall : state.Quiet groupId →
      Inv (callAdvance (state.raiseBarrier id groupId) id groupId throws) := by
    intro hquiet
    have hcalled : callAdvance (state.raiseBarrier id groupId) id groupId throws =
        state.setAdvance id groupId (if throws then .ended else .running) := by
      cases throws <;>
        simp [callAdvance, finishAdvance, raiseBarrier, State.setAdvance, AdvanceStage.holder]
    rw [hcalled]
    exact h.setAdvance _ hlt (.inl hfresh) hfree (by split <;> simp) fun _ => hquiet
  unfold runAsEpochAdvance
  simp only
  split
  next frames hframes =>
    have hall : ∀ other set, state.sections other = some (.send groupId (.running set)) →
        other ∈ state.sets frames := by
      intro other set hrunning
      obtain ⟨hset, hmember⟩ := h.sends.registered other groupId set (.inl hrunning)
      cases hframes.symm.trans hset
      exact hmember
    split
    next hempty =>
      replace hempty : state.sets frames = [] := hempty
      exact hcall fun other set hrunning => by simpa [hempty] using hall other set hrunning
    · refine h.setAdvance (.draining (state.sets frames)) hlt (.inl hfresh) hfree ?_ (by simp)
      rintro _ ⟨⟩
      exact ⟨(h.sends.members groupId frames hframes).2, hall⟩
  next hnone =>
    refine hcall fun other set hrunning => ?_
    cases hnone.symm.trans (h.sends.registered other groupId set (.inl hrunning)).1

end

theorem Inv.moveSend (h : Inv state)
    {before stage : SendStage} (hid : state.sections id = some (.send groupId before))
    (hstage : ∀ frames, stage = .settled frames → before = .running frames)
    (hdone : stage = .ended ∨ ∃ frames, stage = .settled frames) :
    Inv (state.set id (.send groupId stage)) := by
  have hstarted : SendBefore state id groupId stage := by
    refine .inr ⟨before, hid, fun _ => ?_⟩
    rcases hdone with rfl | ⟨frames, rfl⟩ <;> trivial
  refine ⟨fresh_set h.fresh (h.lt_arrivals hid) _, h.advances.setSend hstarted,
    h.sends.setSend hstarted ?_, h.meet.setSend hstarted ?_ ?_⟩
  · rintro frames (hrunning | hsettled)
    · rcases hdone with rfl | ⟨_, rfl⟩ <;> cases hrunning
    · rw [hstage frames hsettled] at hid
      exact h.sends.registered id groupId frames (.inl hid)
  · rcases hdone with rfl | ⟨_, rfl⟩ <;> simp
  · rcases hdone with rfl | ⟨_, rfl⟩ <;> simp

protected theorem Inv.step {action : Action} (h : Inv state)
    (hstep : step state action = some next) : Inv next := by
  cases action with simp only [step] at hstep
  | send groupId throws =>
    cases hstep
    exact h.arrive.runAsEpochSend (Nat.lt_succ_self _) (.inl (h.fresh _ (Nat.le_refl _))) throws
  | advance groupId throws =>
    split at hstep
    · cases hstep
    next hfree =>
      cases hstep
      exact h.arrive.runAsEpochAdvance (Nat.lt_succ_self _) (h.fresh _ (Nat.le_refl _)) hfree throws
  | settleSend id =>
    split at hstep
    next groupId frames hid =>
      cases hstep
      exact h.moveSend hid (by simp) (.inr ⟨frames, rfl⟩)
    · cases hstep
  | settleAdvance id =>
    split at hstep
    next groupId hid =>
      cases hstep
      have hsettled := h.moveAdvance hid (by simp) .settled (by simp) fun _ =>
        h.meet.excluded id groupId _ hid (.inl rfl)
      rwa [h.setAdvance_eq hid (by simp) rfl] at hsettled
    · cases hstep
  | wakeSend id throws =>
    split at hstep
    next groupId barrier hid =>
      obtain ⟨_, rfl⟩ := Option.ite_some_none_eq_some.mp hstep
      exact h.runAsEpochSend (h.lt_arrivals hid) (.inr ⟨barrier, hid⟩) throws
    · cases hstep
  | finishSend id =>
    split at hstep
    next groupId frames hid =>
      cases hstep
      have hended : Inv (state.set id (.send groupId .ended)) :=
        h.moveSend hid (by simp) (.inl rfl)
      exact ⟨hended.fresh, ⟨hended.advances.raised, hended.advances.active⟩,
        h.sends.finishSend hid, ⟨hended.meet.barrier, hended.meet.frames,
          hended.meet.drained, hended.meet.excluded⟩⟩
    · cases hstep
  | wakeAdvance id throws =>
    split at hstep
    next groupId frames hid =>
      obtain ⟨hsettled, rfl⟩ := Option.ite_some_none_eq_some.mp hstep
      refine h.callAdvance hid (by simp) ?_ throws
      -- a frame of the group still running would be one of those awaited
      intro other set hrunning
      have hframe := all_eq_true.mp hsettled other
        (h.meet.drained id groupId frames hid other set hrunning)
      simp [frameSettled, hrunning] at hframe
    · cases hstep
  | finishAdvance id =>
    split at hstep
    next groupId hid =>
      cases hstep
      exact h.moveAdvance hid (by simp) .ended (by simp) (by simp)
    · cases hstep

theorem inv_of_run {actions : List Action}
    (hrun : run step .start actions = some state) : Inv state :=
  invariant_of_run Inv.step inv_start hrun

/-! ## 6. Nobody waits for nothing -/

section

variable (state : State) (groupId : String)

def State.sendRunning : Prop :=
  ∃ id frames, state.sections id = some (.send groupId (.running frames))

def State.advanceRunning : Prop :=
  ∃ id, state.sections id = some (.advance groupId .running)

/-- A section of the group is suspended on a promise that is not its callback's. -/
def State.waits : Prop :=
  ∃ id, (∃ barrier, state.sections id = some (.send groupId (.waiting barrier))) ∨
    ∃ frames, state.sections id = some (.advance groupId (.draining frames))

/-- A section of the group can go on: a promise it awaits has settled, and its
    continuation has not run yet. -/
def State.ready : Prop :=
  ∃ id, (∃ stage, state.sections id = some (.send groupId stage) ∧
      (step state (.wakeSend id false) ≠ none ∨ step state (.finishSend id) ≠ none)) ∨
    ∃ stage, state.sections id = some (.advance groupId stage) ∧
      (step state (.wakeAdvance id false) ≠ none ∨ step state (.finishAdvance id) ≠ none)

end

/-- A draining advance finds all its frames settled, or one of them is running. -/
theorem Inv.draining_ready (h : Inv state)
    {frames : List Nat} (hid : state.sections id = some (.advance groupId (.draining frames))) :
    state.sendRunning groupId ∨ state.ready groupId := by
  by_cases hall : frames.all state.frameSettled = true
  · refine .inr ⟨id, .inr ⟨_, hid, .inl ?_⟩⟩
    simp [step, hid, hall]
  · simp only [all_eq_true, not_forall] at hall
    obtain ⟨other, hmember, hunsettled⟩ := hall
    obtain ⟨stage, hother, hstarted⟩ := h.meet.frames id groupId frames hid other hmember
    cases stage with
    | waiting barrier => exact hstarted.elim
    | running set => exact .inl ⟨other, set, hother⟩
    | settled set | ended => simp [frameSettled, hother] at hunsettled

theorem Inv.running_or_ready_of_waits (h : Inv state) (hwaits : state.waits groupId) :
    state.sendRunning groupId ∨ state.advanceRunning groupId ∨ state.ready groupId := by
  obtain ⟨id, ⟨barrier, hid⟩ | ⟨frames, hid⟩⟩ := hwaits
  · obtain ⟨stage, hbarrier⟩ := h.meet.barrier id groupId barrier hid
    cases stage with
    | draining frames => exact (h.draining_ready hbarrier).imp_right .inr
    | running => exact .inr (.inl ⟨barrier, hbarrier⟩)
    | settled =>
      refine .inr (.inr ⟨barrier, .inr ⟨_, hbarrier, .inr ?_⟩⟩)
      simp [step, hbarrier]
    | ended =>
      refine .inr (.inr ⟨id, .inl ⟨_, hid, .inl ?_⟩⟩)
      simp [step, hid, released, hbarrier]
  · exact (h.draining_ready hid).imp_right .inr

/-! ### Continuations run out

Each continuation either takes an advance out of its draining or settled stage, or
takes a send out of the stages it can leave on its own without touching an
advance. -/

section

variable (state : State) (id : Nat)

def State.pendingAdvance : Bool :=
  match state.sections id with
  | some (.advance _ (.draining _)) | some (.advance _ .settled) => true
  | _ => false

def State.staleSend : Bool :=
  match state.sections id with
  | some (.send _ (.waiting barrier)) => state.released barrier
  | some (.send _ (.settled _)) => true
  | _ => false

def State.backlog : Nat :=
  ((Finset.range state.arrivals).filter (state.pendingAdvance · = true)).card *
      (state.arrivals + 1) +
    ((Finset.range state.arrivals).filter (state.staleSend · = true)).card

end

theorem card_filter_lt {before after : Nat → Bool} {count : Nat} (hid : id < count)
    (hwas : before id = true) (hnot : after id = false)
    (hothers : ∀ other, other ≠ id → after other = before other) :
    ((Finset.range count).filter (after · = true)).card <
      ((Finset.range count).filter (before · = true)).card := by
  refine Finset.card_lt_card (Finset.ssubset_iff_of_subset ?_ |>.mpr ⟨id, ?_, ?_⟩)
  · intro other hother
    rw [Finset.mem_filter] at hother ⊢
    have hne : other ≠ id := by
      rintro rfl
      simp [hnot] at hother
    exact ⟨hother.1, hothers other hne ▸ hother.2⟩
  · simp [hid, hwas]
  · simp [hnot]

/-- A send that goes on by itself, to a stage it cannot leave at once. -/
theorem backlog_lt_of_send {before stage : SendStage} (hsections : next.sections =
      update state.sections id (some (.send groupId stage)))
    (harrivals : next.arrivals = state.arrivals) (hlt : id < state.arrivals)
    (hid : state.sections id = some (.send groupId before)) (hwas : state.staleSend id = true)
    (hstage : (∀ frames, stage ≠ .settled frames) ∧
      ∀ barrier, stage = .waiting barrier → state.released barrier = false) :
    next.backlog < state.backlog := by
  have hreleased : ∀ barrier, next.released barrier = state.released barrier := by
    intro barrier
    by_cases hsame : barrier = id
    · subst hsame
      simp [released, hsections, hid]
    · simp [released, hsections, hsame]
  have hnot : next.staleSend id = false := by
    cases stage with
    | waiting barrier => simp [staleSend, hsections, hreleased, hstage.2 barrier rfl]
    | running frames | ended => simp [staleSend, hsections]
    | settled frames => exact absurd rfl (hstage.1 frames)
  have hadvances : next.pendingAdvance = state.pendingAdvance := by
    funext other
    by_cases hsame : other = id
    · subst hsame
      simp [pendingAdvance, hsections, hid]
    · simp [pendingAdvance, hsections, hsame]
  have hfewer := card_filter_lt hlt hwas hnot fun other hne => by
    simp [staleSend, hsections, hne, hreleased]
  simp only [backlog, hadvances, harrivals]
  omega

/-- An advance that goes on by itself, to its callback or its end. -/
theorem backlog_lt_of_advance
    (hsections : next.sections = update state.sections id (some (.advance groupId stage)))
    (harrivals : next.arrivals = state.arrivals) (hlt : id < state.arrivals)
    (hwas : state.pendingAdvance id = true) (hstage : stage = .running ∨ stage = .ended) :
    next.backlog < state.backlog := by
  have hnot : next.pendingAdvance id = false := by
    rcases hstage with rfl | rfl <;> simp [pendingAdvance, hsections]
  have hfewer := card_filter_lt hlt hwas hnot fun other hne => by
    simp [pendingAdvance, hsections, hne]
  have hstale : ((Finset.range state.arrivals).filter (next.staleSend · = true)).card ≤
      state.arrivals := (Finset.card_filter_le _ _).trans (Finset.card_range _).le
  -- one advance less outweighs any change among the sends
  have hmul := Nat.mul_le_mul_right (state.arrivals + 1) (Nat.succ_le_of_lt hfewer)
  rw [Nat.succ_mul] at hmul
  rw [backlog, backlog, harrivals]
  omega

theorem sections_runAsEpochSend (state : State) (id : Nat) (groupId : String) (throws : Bool) :
    ∃ stage, (runAsEpochSend state id groupId throws).sections =
        update state.sections id (some (.send groupId stage)) ∧
      (runAsEpochSend state id groupId throws).arrivals = state.arrivals ∧
      (∀ frames, stage ≠ .settled frames) ∧
      ∀ barrier, stage = .waiting barrier → state.barriers groupId = some barrier := by
  unfold runAsEpochSend
  split
  next barrier hraised => exact ⟨.waiting barrier, rfl, rfl, by simp, by simp [hraised]⟩
  · split
    · exact ⟨.ended, rfl, rfl, by simp, by simp⟩
    · refine ⟨.running (state.register id groupId).2, ?_, ?_, by simp, by simp⟩ <;>
      · unfold register
        cases state.inFlight groupId <;> rfl

theorem sections_callAdvance (state : State) (id : Nat) (groupId : String) (throws : Bool) :
    ∃ stage, (callAdvance state id groupId throws).sections =
        update state.sections id (some (.advance groupId stage)) ∧
      (callAdvance state id groupId throws).arrivals = state.arrivals ∧
      (stage = .running ∨ stage = .ended) := by
  cases throws with
  | true => exact ⟨.ended, rfl, rfl, .inr rfl⟩
  | false => exact ⟨.running, rfl, rfl, .inl rfl⟩

theorem backlog_lt_of_continuation {action : Action} (h : Inv state)
    (hcontinuation : action.continuation = true) (hstep : step state action = some next) :
    next.backlog < state.backlog := by
  cases action with simp only [step] at hstep
  | send groupId throws | advance groupId throws | settleSend id | settleAdvance id =>
    cases hcontinuation
  | wakeSend id throws =>
    split at hstep
    next groupId barrier hid =>
      obtain ⟨hreleased, rfl⟩ := Option.ite_some_none_eq_some.mp hstep
      obtain ⟨stage, hsections, harrivals, hsettled, hwaiting⟩ :=
        sections_runAsEpochSend state id groupId throws
      refine backlog_lt_of_send hsections harrivals (h.lt_arrivals hid) hid ?_
        ⟨hsettled, fun barrier' hstage => ?_⟩
      · simp [staleSend, hid, hreleased]
      · -- the barrier it waits for now is up, so its advance is not over
        obtain ⟨advanceStage, hadvance, hne⟩ :=
          h.advances.raised groupId barrier' (hwaiting barrier' hstage)
        cases advanceStage <;> simp_all [released]
    · cases hstep
  | finishSend id =>
    split at hstep
    next groupId frames hid =>
      cases hstep
      have hsections : (finishSend state id groupId frames).sections =
          update state.sections id (some (.send groupId .ended)) := rfl
      exact backlog_lt_of_send hsections rfl (h.lt_arrivals hid) hid
        (by simp [staleSend, hid]) ⟨by simp, by simp⟩
    · cases hstep
  | wakeAdvance id throws =>
    split at hstep
    next groupId frames hid =>
      obtain ⟨_, rfl⟩ := Option.ite_some_none_eq_some.mp hstep
      obtain ⟨stage, hsections, harrivals, hstage⟩ := sections_callAdvance state id groupId throws
      exact backlog_lt_of_advance hsections harrivals (h.lt_arrivals hid)
        (by simp [pendingAdvance, hid]) hstage
    · cases hstep
  | finishAdvance id =>
    split at hstep
    next groupId hid =>
      cases hstep
      exact backlog_lt_of_advance rfl rfl (h.lt_arrivals hid)
        (by simp [pendingAdvance, hid]) (.inr rfl)
    · cases hstep

/-- A stretch of continuations alone is no longer than the backlog it starts from. -/
theorem length_le_backlog {final : State} {actions : List Action} (h : Inv state)
    (hcontinuations : ∀ action ∈ actions, action.continuation = true)
    (hrun : run step state actions = some final) : actions.length ≤ state.backlog := by
  induction actions generalizing state with
  | nil => exact Nat.zero_le _
  | cons action rest ih =>
    obtain ⟨next, hstep, hrest⟩ := run_cons_eq_some.mp hrun
    have hlt := backlog_lt_of_continuation h (hcontinuations action mem_cons_self) hstep
    have hle := ih (h.step hstep) (fun other hother =>
      hcontinuations other (mem_cons_of_mem _ hother)) hrest
    exact lt_of_le_of_lt hle hlt

/-- **The barrier excludes, within its group, and never deadlocks.**  In every
    reachable state, whatever the arrivals, the throws and the order of the
    callbacks:
    no send callback and advance callback of one group are running together;
    a waiting section waits only for sections of its own group;
    a section of a group waits only while a callback of that group is running or a
    continuation of that group is due, and the continuations due run out after a
    bounded number of steps. -/
theorem epoch_barrier_safe {actions : List Action} {state : State}
    (hrun : run step .start actions = some state) :
    (∀ groupId, ¬ (state.sendRunning groupId ∧ state.advanceRunning groupId)) ∧
    (∀ id groupId barrier, state.sections id = some (.send groupId (.waiting barrier)) →
      ∃ stage, state.sections barrier = some (.advance groupId stage)) ∧
    (∀ id groupId frames, state.sections id = some (.advance groupId (.draining frames)) →
      ∀ other ∈ frames, ∃ stage, state.sections other = some (.send groupId stage)) ∧
    (∀ groupId, ¬ state.sendRunning groupId → ¬ state.advanceRunning groupId →
      ¬ state.ready groupId → ¬ state.waits groupId) ∧
    (∀ continuations final, (∀ action ∈ continuations, action.continuation = true) →
      run step state continuations = some final → continuations.length ≤ state.backlog) := by
  have h : Inv state := inv_of_run hrun
  refine ⟨?_, h.meet.barrier, ?_, ?_, ?_⟩
  · rintro groupId ⟨⟨sender, frames, hsend⟩, advancer, hadvance⟩
    exact h.meet.excluded advancer groupId .running hadvance (.inl rfl) sender frames hsend
  · intro id groupId frames hid other hother
    obtain ⟨stage, hstage, _⟩ := h.meet.frames id groupId frames hid other hother
    exact ⟨stage, hstage⟩
  · intro groupId hsend hadvance hready hwaits
    rcases h.running_or_ready_of_waits hwaits with hrunning | hrunning | hdue
    · exact hsend hrunning
    · exact hadvance hrunning
    · exact hready hdue
  · exact fun continuations final hcontinuations hfinal =>
      length_le_backlog h hcontinuations hfinal

/-- A frame in flight holds the advance, and the advance holds the next send. -/
theorem epoch_barrier_safe_straddling :
    ∃ state, run step .start [.send "g" false, .advance "g" false, .send "g" true] = some state ∧
      state.sections 1 = some (.advance "g" (.draining [0])) ∧
      state.sections 2 = some (.send "g" (.waiting 1)) ∧
      ¬ (state.sendRunning "g" ∧ state.advanceRunning "g") ∧
      ∃ stage, state.sections 0 = some (.send "g" stage) := by
  refine ⟨_, rfl, rfl, rfl, ?_⟩
  obtain ⟨hexcluded, _, hframes, _⟩ := epoch_barrier_safe
    (rfl : run step .start [.send "g" false, .advance "g" false, .send "g" true] = some _)
  exact ⟨hexcluded "g", hframes 1 "g" [0] rfl 0 (mem_singleton.mpr rfl)⟩

end MinesApp.EpochSendBarrier
