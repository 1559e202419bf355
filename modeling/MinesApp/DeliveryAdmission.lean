import MinesApp.BoundedMemory
import MinesApp.PerGroupScheduler

/-!
# Admission of deliveries

A queued row reaches a device over two channels: the socket pushes it and the pull lists it.
`BaseMlsService` lets a row in once, by remembering the queue ids it has taken in
(`admitDelivery`), forgets a row that it leaves unacknowledged, so that the server may offer it
again (`settleDelivery`), and bounds the memory by dropping its oldest id (`rememberDelivery`).
`processQueue` drains the scheduler and decides about each frame.

The history of a service says what the memory is for: for every id, the last thing that
happened to it (`standing`).  The memory agrees with that history for the ids that are among
the last `DELIVERY_MEMORY` entered (`Agrees`).  The oldest id goes when the memory is full,
whether its frame still waits or not.

The platform hook after a verdict only delays the next turn of the drain and cannot fail
(`refreshEpochCache` catches, the web hook is empty), so it is left out, as are metrics and
log lines.
-/

namespace MinesApp.DeliveryAdmission

open PerGroupScheduler TransitionSystem BoundedMemory List OrderedMap Machine Scheduler

/-! ## 1. What is remembered of deliveries -/

inductive DeliveryChannel where
  | live
  | pull
deriving DecidableEq, Repr

inductive DeliveryState where
  | queued
  | done
deriving DecidableEq, Repr

def DELIVERY_MEMORY : Nat := 512

/-- What happened to a queue id: its frame was let in, or the drain decided about it. -/
inductive Event where
  | taken (queuedMessageId : String)
  | settled (queuedMessageId : String) (acked : Bool)
deriving DecidableEq, Repr

/-- `announced` lists the calls of `announceAck`.  The last two fields are history: the ids in
    the order in which they entered the map, and the events, both with the newest first. -/
structure Deliveries where
  deliveries : OrderedMap String DeliveryState
  repeats : DeliveryChannel → DeliveryState → Nat
  announced : List (List String)
  entered : List String
  events : List Event

def Deliveries.none : Deliveries := ⟨.empty, fun _ _ => 0, [], [], []⟩

namespace Deliveries

variable (taken : Deliveries)

def rememberDelivery (queuedMessageId : String) (state : DeliveryState) : Deliveries :=
  { taken with
    deliveries := remember DELIVERY_MEMORY taken.deliveries queuedMessageId state
    entered :=
      if taken.deliveries.get? queuedMessageId = Option.none then queuedMessageId :: taken.entered
      else taken.entered }

section

variable (queuedMessageId : Option String) (channel : DeliveryChannel)

def countRepeat (known : DeliveryState) : DeliveryChannel → DeliveryState → Nat :=
  fun otherChannel otherState =>
    if otherChannel = channel ∧ otherState = known then taken.repeats channel known + 1
    else taken.repeats otherChannel otherState

/-- True when the delivery may enter the queue. -/
def admitDelivery : Deliveries × Bool :=
  match truthy queuedMessageId with
  | Option.none => (taken, true)
  | some queuedMessageId =>
    match taken.deliveries.get? queuedMessageId with
    | Option.none =>
      ({ taken.rememberDelivery queuedMessageId .queued with
         events := .taken queuedMessageId :: taken.events }, true)
    | some known =>
      ({ taken with
         repeats := taken.countRepeat channel known
         -- a row that was acknowledged is acknowledged once more
         announced :=
           if known = .done then [queuedMessageId] :: taken.announced else taken.announced },
       false)

def settleDelivery (acked : Bool) : Deliveries :=
  match truthy queuedMessageId with
  | Option.none => taken
  | some queuedMessageId =>
    { (if acked then taken.rememberDelivery queuedMessageId .done
       else { taken with deliveries := taken.deliveries.erase queuedMessageId }) with
      events := .settled queuedMessageId acked :: taken.events }

end

end Deliveries

/-! ## 2. The queue of the service -/

/-- A frame as a channel hands it in, as far as the queue reads it. -/
structure Frame where
  msg : MlsQueuedMessage
  isCommit : Bool
  queuedMessageId : Option String
deriving DecidableEq, Repr

structure QueueMsgFlags where
  isWelcome : Bool
  isCommit : Bool
  hasQueuedId : Bool
deriving DecidableEq, Repr

def Frame.flags (frame : Frame) : QueueMsgFlags :=
  ⟨frame.msg.isWelcome, frame.isCommit, (truthy frame.queuedMessageId).isSome⟩

def shouldAckAfterSuccess (cbResult : Option Bool) (flags : QueueMsgFlags) : Bool :=
  flags.hasQueuedId && decide (cbResult ≠ some false)

def shouldAckGroupResetControl (flags : QueueMsgFlags) : Bool := flags.hasQueuedId

def shouldAckAfterException (flags : QueueMsgFlags) : Bool := flags.hasQueuedId && flags.isCommit

inductive CallbackEnd where
  | returned (cbResult : Option Bool)
  | threw
deriving DecidableEq, Repr

/-- `frames` lists the frames in the order of the calls of `enqueue`, so that the ticket of a
    queued message is the place of its frame. -/
structure Service where
  machine : Machine
  frames : List Frame
  messageCallback : Bool
  taken : Deliveries
  ackIds : List String

open Service

def Service.start (mode : MlsPerGroupQueueMode) : Service :=
  ⟨.start mode, [], false, .none, []⟩

namespace Service

variable (service : Service)

def advance (action : PerGroupScheduler.Action) : Option Service :=
  (step service.machine action).map fun machine => { service with machine }

def processQueue (startHookThrows : Bool) : Option Service :=
  if service.messageCallback then service.advance (.drain startHookThrows) else some service

def enqueueMessage (frame : Frame) (channel : DeliveryChannel) (startHookThrows : Bool) :
    Option Service :=
  match service.taken.admitDelivery frame.queuedMessageId channel with
  | (taken, false) => some { service with taken }
  | (taken, true) => do
    let queued ← { service with taken, frames := service.frames ++ [frame] }.advance
      (.enqueue frame.msg)
    if queued.machine.scheduler.isDraining then some queued
    else queued.processQueue startHookThrows

/-- The frame `processMessage` was called with and has not decided about. -/
def inHand : Option Frame :=
  match service.machine.point with
  | some (.processing queued) => service.frames[queued.ticket]?
  | _ => none

/-- The decision about the frame in hand; `processMessage` then returns. -/
def decideAbout (frame : Frame) (acked : Bool) : Option Service :=
  { service with
    taken := service.taken.settleDelivery frame.queuedMessageId acked
    ackIds :=
      if acked then service.ackIds ++ frame.queuedMessageId.toList else service.ackIds }.advance
    (.settle false)

/-- A Welcome closes the window of its group, joined or not. -/
def closeWindow (frame : Frame) : Option Service :=
  match frame.msg.isWelcome, truthy frame.msg.groupId with
  | true, some groupId => service.advance (.releaseWelcomeBuffer groupId)
  | _, _ => some service

/-- The branch of `processQueue` for control rows: they are acknowledged and ignored. -/
def ignoreGroupReset : Option Service :=
  match service.inHand with
  | some frame =>
    if frame.msg.type = some "group_reset" then
      service.decideAbout frame (shouldAckGroupResetControl frame.flags)
    else none
  | none => none

def callbackEnds (ending : CallbackEnd) : Option Service :=
  match service.inHand with
  | some frame =>
    if frame.msg.type = some "group_reset" then none
    else
      let acked :=
        match ending with
        | .returned cbResult => shouldAckAfterSuccess cbResult frame.flags
        | .threw => !frame.msg.isWelcome && shouldAckAfterException frame.flags
      (service.decideAbout frame acked).bind fun decided => decided.closeWindow frame
  | none => none

/-- `onDrainEnd`, the end of the drain, and the restart for what arrived meanwhile. -/
def drainEnds (startHookThrows : Bool) : Option Service := do
  let taken :=
    if service.ackIds = [] then service.taken
    else { service.taken with announced := service.ackIds :: service.taken.announced }
  let ended ← { service with taken, ackIds := [] }.advance .finish
  if 0 < ended.machine.scheduler.getPendingCount ∧ ended.machine.scheduler.isDraining = false then
    ended.processQueue startHookThrows
  else some ended

end Service

inductive Action where
  | onMessage
  | offer (frame : Frame) (channel : DeliveryChannel) (startHookThrows : Bool)
  | turn
  | lockAcquired
  | groupReset
  | callbackEnds (ending : CallbackEnd)
  | drainEnds (startHookThrows : Bool)
deriving DecidableEq, Repr

def step (service : Service) : Action → Option Service
  | .onMessage => some { service with messageCallback := true }
  | .offer frame channel startHookThrows => service.enqueueMessage frame channel startHookThrows
  | .turn => service.advance .turn
  | .lockAcquired => service.advance .lockAcquired
  | .groupReset => service.ignoreGroupReset
  | .callbackEnds ending => service.callbackEnds ending
  | .drainEnds startHookThrows => service.drainEnds startHookThrows

/-! ## 3. The history of an id, and the memory -/

inductive Standing where
  | unseen
  | waiting
  | acknowledged
  | owed
deriving DecidableEq, Repr

/-- The last thing that happened to an id. -/
def standing (queuedMessageId : String) : List Event → Standing
  | [] => .unseen
  | .taken other :: earlier =>
    if other = queuedMessageId then .waiting else standing queuedMessageId earlier
  | .settled other acked :: earlier =>
    if other = queuedMessageId then (if acked then .acknowledged else .owed)
    else standing queuedMessageId earlier

/-- What a memory without a bound would hold. -/
def Standing.remembered : Standing → Option DeliveryState
  | .unseen => none
  | .waiting => some .queued
  | .acknowledged => some .done
  | .owed => none

/-- Among the last ids that entered the memory. -/
def Fresh (queuedMessageId : String) (taken : Deliveries) : Prop :=
  Recent DELIVERY_MEMORY taken.entered queuedMessageId

/-- The memory invents nothing about the id, and knows it while the id is recent. -/
structure Agrees (queuedMessageId : String) (taken : Deliveries) : Prop where
  tracks : Tracks DELIVERY_MEMORY taken.deliveries taken.entered
  absent : (standing queuedMessageId taken.events).remembered = none →
    taken.deliveries.get? queuedMessageId = none
  kept : Fresh queuedMessageId taken →
    taken.deliveries.get? queuedMessageId = (standing queuedMessageId taken.events).remembered

variable {queuedMessageId other : String} {taken : Deliveries} {events : List Event}
  {startHookThrows : Bool} {frame : Frame} {offered : Option String} {channel : DeliveryChannel}
  {id : String}

section

variable (h : Tracks DELIVERY_MEMORY taken.deliveries taken.entered)
include h

theorem tracks_rememberDelivery (other : String) (state : DeliveryState) :
    Tracks DELIVERY_MEMORY (taken.rememberDelivery other state).deliveries
      (taken.rememberDelivery other state).entered := by
  by_cases hknown : taken.deliveries.get? other = none
  · simp only [Deliveries.rememberDelivery, if_pos hknown]
    exact h.remember_new hknown
  · simp only [Deliveries.rememberDelivery, if_neg hknown]
    exact h.remember_known hknown

/-- Remembering another id leaves what is known about a recent one. -/
theorem get?_rememberDelivery (hother : queuedMessageId ≠ other) {state : DeliveryState}
    (hfresh : Fresh queuedMessageId (taken.rememberDelivery other state)) :
    (taken.rememberDelivery other state).deliveries.get? queuedMessageId =
        taken.deliveries.get? queuedMessageId ∧ Fresh queuedMessageId taken := by
  by_cases hknown : taken.deliveries.get? other = none
  · simp only [Fresh, Deliveries.rememberDelivery, if_pos hknown] at hfresh ⊢
    refine ⟨h.get?_remember hknown hother hfresh, ?_⟩
    exact recent_of_cons hother hfresh
  · simp only [Fresh, Deliveries.rememberDelivery, if_neg hknown] at hfresh ⊢
    rw [remember_known h.bounded hknown, get?_set_ne _ hother]
    exact ⟨rfl, hfresh⟩

end

section

variable (h : Agrees queuedMessageId taken)
include h

/-- Entering an id in the memory, with an event that says so. -/
theorem Agrees.remember {state : DeliveryState} {now : Standing}
    (hnow : now.remembered = some state) (hevents : standing queuedMessageId events =
      if other = queuedMessageId then now else standing queuedMessageId taken.events) :
    Agrees queuedMessageId { taken.rememberDelivery other state with events } := by
  by_cases hsame : other = queuedMessageId
  · rw [if_pos hsame] at hevents
    subst hsame
    refine ⟨tracks_rememberDelivery h.tracks other state, fun hnone => ?_, fun _ => ?_⟩
    · rw [hevents, hnow] at hnone
      cases hnone
    · rw [hevents, hnow]
      exact get?_remember_self (by decide) h.tracks.bounded
  · rw [if_neg hsame] at hevents
    refine ⟨tracks_rememberDelivery h.tracks other state, fun hnone => ?_, fun hfresh => ?_⟩
    · rw [hevents] at hnone
      apply Option.eq_none_iff_forall_ne_some.mpr
      intro found hfound
      have hbefore := get?_of_get?_remember (Ne.symm hsame) hfound
      rw [h.absent hnone] at hbefore
      cases hbefore
    · obtain ⟨hleft, hbefore⟩ := get?_rememberDelivery h.tracks (Ne.symm hsame) hfresh
      rw [hevents]
      exact hleft.trans (h.kept hbefore)

theorem Agrees.admitDelivery (offered : Option String) (channel : DeliveryChannel) :
    Agrees queuedMessageId (taken.admitDelivery offered channel).1 := by
  unfold Deliveries.admitDelivery
  split
  · exact h
  next id _ =>
    split
    · exact h.remember rfl rfl
    · exact ⟨h.tracks, h.absent, h.kept⟩

theorem Agrees.forget (other : String) (hevents : standing queuedMessageId events =
      if other = queuedMessageId then .owed else standing queuedMessageId taken.events) :
    Agrees queuedMessageId { taken with deliveries := taken.deliveries.erase other, events } := by
  by_cases hsame : other = queuedMessageId
  · rw [if_pos hsame] at hevents
    have hgone : (taken.deliveries.erase other).get? queuedMessageId = none := by
      rw [get?_erase, if_pos hsame.symm]
    refine ⟨h.tracks.erase other, fun _ => hgone, fun _ => ?_⟩
    rw [hevents]
    exact hgone
  · rw [if_neg hsame] at hevents
    have hleft : (taken.deliveries.erase other).get? queuedMessageId =
        taken.deliveries.get? queuedMessageId := by
      rw [get?_erase, if_neg (Ne.symm hsame)]
    refine ⟨h.tracks.erase other, ?_, ?_⟩
    · intro hnone
      rw [hevents] at hnone
      exact hleft.trans (h.absent hnone)
    · intro hfresh
      rw [hevents]
      exact hleft.trans (h.kept hfresh)

theorem Agrees.settleDelivery (decided : Option String)
    (acked : Bool) : Agrees queuedMessageId (taken.settleDelivery decided acked) := by
  unfold Deliveries.settleDelivery
  split
  · exact h
  next id _ =>
    cases acked with
    | true =>
      exact h.remember rfl rfl
    | false =>
      exact h.forget id rfl

end

/-! ## 4. The frames in flight -/

/-- The message `processMessage` has in hand. -/
def processing (machine : Machine) : List Queued :=
  match machine.point with
  | some (.processing queued) => [queued]
  | _ => []

/-- The messages that wait in the scheduler or are being processed. -/
def pendingWork (machine : Machine) : List Queued :=
  machine.scheduler.held ++ machine.current ++ processing machine

def idAt (frames : List Frame) (queued : Queued) : Option String :=
  frames[queued.ticket]?.bind fun frame => truthy frame.queuedMessageId

/-- The queue ids in flight, one occurrence for each frame. -/
def inFlight (service : Service) : List String :=
  (pendingWork service.machine).filterMap (idAt service.frames)

variable {machine next : Machine}

/-- A step of the scheduler that lets nothing in and ends nothing. -/
structure Passes (machine next : Machine) : Prop where
  work : (pendingWork next).Perm (pendingWork machine)
  enqueued : next.enqueued = machine.enqueued

theorem passes_drain (hinv : PerGroupScheduler.Inv machine)
    (hstep : PerGroupScheduler.step machine (.drain startHookThrows) = some next) :
    Passes machine next := by
  simp only [PerGroupScheduler.step] at hstep
  split at hstep
  · cases hstep
    exact ⟨List.Perm.refl _, rfl⟩
  next hdraining =>
    split at hstep
    · cases hstep
      exact ⟨List.Perm.refl _, rfl⟩
    · cases hstep
      refine ⟨?_, rfl⟩
      simp only [pendingWork, current, processing, hinv.idle hdraining]
      cases startHookThrows <;> exact List.Perm.refl _

theorem passes_turn (hstep : PerGroupScheduler.step machine .turn = some next) :
    Passes machine next := by
  simp only [PerGroupScheduler.step] at hstep
  split at hstep
  next hpoint =>
    have hbefore : pendingWork machine = machine.scheduler.held := by
      simp only [pendingWork, current, processing, hpoint, append_nil]
    split at hstep
    · cases hstep
      refine ⟨?_, rfl⟩
      rw [hbefore]
      simp only [pendingWork, current, processing, append_nil]
      exact List.Perm.refl _
    · split at hstep
      next scheduler hpick =>
        cases hstep
        refine ⟨?_, rfl⟩
        rw [hbefore]
        simp only [pendingWork, current, processing, append_nil]
        exact (pruned_pickNext_none hpick).keeps_held
      next scheduler queued hpick =>
        have htaken := (picked_pickNext hpick).takes_held
        have hmoved : (scheduler.held ++ [queued]).Perm machine.scheduler.held :=
          (perm_append_singleton queued _).trans htaken.symm
        split at hstep
        all_goals
          cases hstep
          refine ⟨?_, rfl⟩
          rw [hbefore]
          simp only [pendingWork, current, processing, append_nil]
          exact hmoved
  · cases hstep

theorem passes_lockAcquired (hstep : PerGroupScheduler.step machine .lockAcquired = some next) :
    Passes machine next := by
  simp only [PerGroupScheduler.step] at hstep
  split at hstep
  next queued hpoint =>
    cases hstep
    refine ⟨?_, rfl⟩
    simp only [pendingWork, current, processing, hpoint, append_nil]
    exact List.Perm.refl _
  · cases hstep

theorem passes_release {groupId : String}
    (hstep : PerGroupScheduler.step machine (.releaseWelcomeBuffer groupId) = some next) :
    Passes machine next := by
  cases hstep
  have hheld := (released_releaseWelcomeBuffer machine.scheduler groupId).held
  exact ⟨(hheld.append_right _).append_right _, rfl⟩

theorem passes_finish (hstep : PerGroupScheduler.step machine .finish = some next) :
    Passes machine next := by
  simp only [PerGroupScheduler.step] at hstep
  split at hstep
  next hpoint =>
    cases hstep
    have hheld := (released_stranded machine.scheduler).1.held
    refine ⟨?_, rfl⟩
    simp only [pendingWork, current, processing, hpoint, append_nil]
    exact hheld
  · cases hstep

theorem work_enqueue {msg : MlsQueuedMessage}
    (hstep : PerGroupScheduler.step machine (.enqueue msg) = some next) :
    (pendingWork next).Perm (⟨machine.enqueued.length, msg⟩ :: pendingWork machine) ∧
      next.enqueued = ⟨machine.enqueued.length, msg⟩ :: machine.enqueued := by
  cases hstep
  have hheld := (arrived_enqueue machine.scheduler ⟨machine.enqueued.length, msg⟩).held
  exact ⟨(hheld.append_right _).append_right _, rfl⟩

theorem work_settle {queued : Queued} (hpoint : machine.point = some (.processing queued))
    (hstep : PerGroupScheduler.step machine (.settle false) = some next) :
    (pendingWork machine).Perm (queued :: pendingWork next) ∧ next.enqueued = machine.enqueued := by
  simp only [PerGroupScheduler.step, hpoint] at hstep
  cases hstep
  refine ⟨?_, rfl⟩
  simp only [pendingWork, current, processing, hpoint, append_nil, Bool.false_eq_true, if_false]
  exact perm_append_singleton queued _

/-! ## 5. What a step can do -/

/-- Tickets are places in `frames`. -/
structure Sound (service : Service) : Prop where
  machine : PerGroupScheduler.Inv service.machine
  frames : service.frames.length = service.machine.enqueued.length
  tickets : ∀ queued ∈ pendingWork service.machine, queued.ticket < service.frames.length

/-- Nothing has happened to an id. -/
structure SameBooks (before after : Deliveries) : Prop where
  deliveries : after.deliveries = before.deliveries
  entered : after.entered = before.entered
  events : after.events = before.events

open SameBooks

theorem SameBooks.refl (taken : Deliveries) : SameBooks taken taken := ⟨rfl, rfl, rfl⟩

theorem SameBooks.trans {first second third : Deliveries} (h : SameBooks first second)
    (hnext : SameBooks second third) : SameBooks first third :=
  ⟨hnext.deliveries.trans h.deliveries, hnext.entered.trans h.entered, hnext.events.trans h.events⟩

structure Quiet (service next : Service) : Prop where
  sound : Sound next
  flight : (inFlight next).Perm (inFlight service)
  books : SameBooks service.taken next.taken

/-- What a step can do: let one frame in, decide about one frame, or neither. -/
inductive Effect (service next : Service) : Prop where
  | quiet (h : Quiet service next)
  | admitted (offered : Option String) (channel : DeliveryChannel) (sound : Sound next)
      (unknown : (service.taken.admitDelivery offered channel).2 = true)
      (books : SameBooks (service.taken.admitDelivery offered channel).1 next.taken)
      (flight : (inFlight next).Perm ((truthy offered).toList ++ inFlight service))
  | decided (about : Option String) (acked : Bool) (sound : Sound next)
      (books : SameBooks (service.taken.settleDelivery about acked) next.taken)
      (flight : (inFlight service).Perm ((truthy about).toList ++ inFlight next))

variable {service middle after : Service}

theorem Effect.sound (h : Effect service after) : Sound after := by
  cases h with
  | quiet h => exact h.sound
  | admitted offered channel sound unknown books flight | decided about acked sound books flight =>
    exact sound

theorem Effect.then_quiet (h : Effect service middle) (hquiet : Quiet middle after) :
    Effect service after := by
  cases h with
  | quiet h => exact .quiet ⟨hquiet.sound, hquiet.flight.trans h.flight, h.books.trans hquiet.books⟩
  | admitted offered channel sound unknown books flight =>
    exact .admitted offered channel hquiet.sound unknown (books.trans hquiet.books)
      (hquiet.flight.trans flight)
  | decided about acked sound books flight =>
    exact .decided about acked hquiet.sound (books.trans hquiet.books)
      (flight.trans (hquiet.flight.symm.append_left _))

section

variable (h : Sound service)
include h

/-- A step of the scheduler that neither lets in nor ends anything. -/
theorem Sound.passes {action : PerGroupScheduler.Action}
    (hpasses : ∀ {machine}, PerGroupScheduler.step service.machine action = some machine →
      Passes service.machine machine)
    (hstep : service.advance action = some after) : Quiet service after := by
  obtain ⟨machine, hmachine, rfl⟩ := Option.map_eq_some_iff.mp hstep
  obtain ⟨hwork, henqueued⟩ := hpasses hmachine
  refine ⟨⟨h.machine.step hmachine, ?_, ?_⟩, hwork.filterMap _, refl _⟩
  · rw [henqueued]
    exact h.frames
  · intro queued hqueued
    exact h.tickets queued (hwork.mem_iff.mp hqueued)

theorem Sound.processQueue (hstep : service.processQueue startHookThrows = some after) :
    Quiet service after := by
  unfold Service.processQueue at hstep
  split at hstep
  · exact h.passes (passes_drain h.machine) hstep
  · cases hstep
    exact ⟨h, List.Perm.refl _, refl _⟩

theorem Sound.closeWindow (hstep : service.closeWindow frame = some after) :
    Quiet service after := by
  unfold Service.closeWindow at hstep
  split at hstep
  · exact h.passes passes_release hstep
  · cases hstep
    exact ⟨h, List.Perm.refl _, refl _⟩

theorem Sound.enqueue
    (hadmitted : (service.taken.admitDelivery frame.queuedMessageId channel).2 = true)
    (hstep : { service with
      taken := (service.taken.admitDelivery frame.queuedMessageId channel).1
      frames := service.frames ++ [frame] : Service }.advance (.enqueue frame.msg) = some after) :
    Effect service after := by
  obtain ⟨machine, hmachine, rfl⟩ := Option.map_eq_some_iff.mp hstep
  obtain ⟨hwork, henqueued⟩ := work_enqueue hmachine
  have hframes : (service.frames ++ [frame]).length = machine.enqueued.length := by
    rw [length_append, length_singleton, henqueued, length_cons]
    exact congrArg (· + 1) h.frames
  refine .admitted frame.queuedMessageId channel ⟨h.machine.step hmachine, hframes, ?_⟩ hadmitted
    (refl _) ?_
  · intro queued hqueued
    rw [length_append, length_singleton]
    rcases mem_cons.mp (hwork.mem_iff.mp hqueued) with hnew | hold
    · rw [hnew]
      exact Nat.lt_succ_of_le (Nat.le_of_eq h.frames.symm)
    · exact Nat.lt_succ_of_lt (h.tickets queued hold)
  · refine (hwork.filterMap _).trans (List.Perm.of_eq ?_)
    have hnew : idAt (service.frames ++ [frame]) ⟨service.machine.enqueued.length, frame.msg⟩ =
        truthy frame.queuedMessageId := by
      rw [idAt, ← h.frames, getElem?_concat_length]
      rfl
    have hold : (pendingWork service.machine).filterMap (idAt (service.frames ++ [frame])) =
        inFlight service := by
      apply filterMap_congr
      intro queued hqueued
      rw [idAt, getElem?_append_left (h.tickets queued hqueued)]
      rfl
    rw [filterMap_cons, ← hold]
    simp only [hnew]
    cases truthy frame.queuedMessageId with
    | none | some id => rfl

theorem Sound.offer (hstep : service.enqueueMessage frame channel startHookThrows = some after) :
    Effect service after := by
  unfold enqueueMessage at hstep
  split at hstep
  next taken hanswer =>
    cases hstep
    refine .quiet ⟨⟨h.machine, h.frames, h.tickets⟩, List.Perm.refl _, ?_⟩
    unfold Deliveries.admitDelivery at hanswer
    split at hanswer
    · cases hanswer
    split at hanswer
    · cases hanswer
    cases hanswer
    exact ⟨rfl, rfl, rfl⟩
  next taken hanswer =>
    obtain ⟨queued, hqueued, hrest⟩ := Option.bind_eq_some_iff.mp hstep
    have hopen : (service.taken.admitDelivery frame.queuedMessageId channel).2 = true := by
      rw [hanswer]
    have htaken : taken = (service.taken.admitDelivery frame.queuedMessageId channel).1 := by
      rw [hanswer]
    subst htaken
    have heffect := h.enqueue hopen hqueued
    split at hrest
    · cases hrest
      exact heffect
    · exact heffect.then_quiet (heffect.sound.processQueue hrest)

theorem Sound.decideAbout {acked : Bool} (hframe : service.inHand = some frame)
    (hstep : service.decideAbout frame acked = some after) : Effect service after := by
  obtain ⟨machine, hmachine, rfl⟩ := Option.map_eq_some_iff.mp hstep
  unfold inHand at hframe
  split at hframe
  next queued hpoint =>
    obtain ⟨hwork, henqueued⟩ := work_settle hpoint hmachine
    refine .decided frame.queuedMessageId acked ⟨h.machine.step hmachine, ?_, ?_⟩ (refl _) ?_
    · rw [henqueued]
      exact h.frames
    · intro other hother
      exact h.tickets other (hwork.mem_iff.mpr (mem_cons_of_mem _ hother))
    · refine (hwork.filterMap _).trans (List.Perm.of_eq ?_)
      have hid : idAt service.frames queued = truthy frame.queuedMessageId := by
        rw [idAt, hframe]
        rfl
      rw [filterMap_cons, hid]
      cases truthy frame.queuedMessageId with
      | none | some id => rfl
  · cases hframe

theorem Sound.effect {action : Action}
    (hstep : step service action = some after) : Effect service after := by
  cases action with
  | onMessage =>
    cases hstep
    exact .quiet ⟨⟨h.machine, h.frames, h.tickets⟩, List.Perm.refl _, refl _⟩
  | offer frame channel startHookThrows => exact h.offer hstep
  | turn => exact .quiet (h.passes passes_turn hstep)
  | lockAcquired => exact .quiet (h.passes passes_lockAcquired hstep)
  | groupReset =>
    simp only [step, ignoreGroupReset] at hstep
    split at hstep
    next frame hframe =>
      split at hstep
      · exact h.decideAbout hframe hstep
      · cases hstep
    · cases hstep
  | callbackEnds ending =>
    simp only [step, callbackEnds] at hstep
    split at hstep
    next frame hframe =>
      split at hstep
      · cases hstep
      obtain ⟨decided, hdecided, hclosed⟩ := Option.bind_eq_some_iff.mp hstep
      have heffect := h.decideAbout hframe hdecided
      exact heffect.then_quiet (heffect.sound.closeWindow hclosed)
    · cases hstep
  | drainEnds startHookThrows =>
    obtain ⟨ended, hended, hrest⟩ := Option.bind_eq_some_iff.mp hstep
    have hannounced : Effect service { service with
          taken :=
            if service.ackIds = [] then service.taken
            else { service.taken with announced := service.ackIds :: service.taken.announced }
          ackIds := [] } := by
      refine .quiet ⟨⟨h.machine, h.frames, h.tickets⟩, List.Perm.refl _, ?_⟩
      split <;> exact ⟨rfl, rfl, rfl⟩
    have hfinished := hannounced.then_quiet (hannounced.sound.passes passes_finish hended)
    split at hrest
    · exact hfinished.then_quiet (hfinished.sound.processQueue hrest)
    · cases hrest
      exact hfinished

end

/-! ## 6. One id over a whole run -/

section

variable (h : (taken.admitDelivery offered channel).2 = true)
include h

theorem standing_admitDelivery :
    standing queuedMessageId (taken.admitDelivery offered channel).1.events =
      if truthy offered = some queuedMessageId then .waiting
      else standing queuedMessageId taken.events := by
  unfold Deliveries.admitDelivery at h ⊢
  cases hoffered : truthy offered with
  | none => rfl
  | some id =>
    simp only [hoffered] at h ⊢
    cases hknown : taken.deliveries.get? id with
    | none => simp only [standing, Option.some.injEq]
    | some known =>
      rw [hknown] at h
      cases h

theorem unknown_of_admitted (hoffered : truthy offered = some queuedMessageId) :
    taken.deliveries.get? queuedMessageId = none := by
  unfold Deliveries.admitDelivery at h
  simp only [hoffered] at h
  split at h
  next hnone => exact hnone
  · cases h

end

theorem standing_settleDelivery (taken : Deliveries) (about : Option String) (acked : Bool) :
    standing queuedMessageId (taken.settleDelivery about acked).events =
      if truthy about = some queuedMessageId then (if acked then .acknowledged else .owed)
      else standing queuedMessageId taken.events := by
  unfold Deliveries.settleDelivery
  cases truthy about with
  | none => rfl
  | some id => simp only [standing, Option.some.injEq]

theorem Agrees.of_sameBooks {before : Deliveries} (h : Agrees queuedMessageId before)
    (hbooks : SameBooks before taken) : Agrees queuedMessageId taken := by
  obtain ⟨hdeliveries, hentered, hevents⟩ := hbooks
  obtain ⟨htracks, habsent, hkept⟩ := h
  refine ⟨?_, ?_, ?_⟩
  · rw [hdeliveries, hentered]
    exact htracks
  · rw [hdeliveries, hevents]
    exact habsent
  · rw [Fresh, hdeliveries, hentered, hevents]
    exact hkept

/-- A frame of the id is in flight exactly when the history says that it waits, and then only
    one. -/
structure Accounted (queuedMessageId : String) (service : Service) : Prop where
  sound : Sound service
  agrees : Agrees queuedMessageId service.taken
  once : (inFlight service).count queuedMessageId =
    if standing queuedMessageId service.taken.events = .waiting then 1 else 0

/-- While a frame of the id is in flight, fewer than `DELIVERY_MEMORY` other ids have entered
    the memory since the id did. -/
def Kept (queuedMessageId : String) (service : Service) (_ : Action) : Prop :=
  queuedMessageId ∈ inFlight service → Fresh queuedMessageId service.taken

theorem accounted_start (queuedMessageId : String) (mode : MlsPerGroupQueueMode) :
    Accounted queuedMessageId (.start mode) where
  sound := ⟨inv_start mode, rfl, fun _ hqueued => by cases hqueued⟩
  agrees := ⟨⟨Nat.zero_le _, fun _ hkey => by cases hkey⟩, fun _ => rfl, fun _ => rfl⟩
  once := rfl

theorem Accounted.waiting_iff (h : Accounted queuedMessageId service) :
    queuedMessageId ∈ inFlight service ↔
      standing queuedMessageId service.taken.events = .waiting := by
  rw [← count_pos_iff, h.once]
  split
  next hwaiting => exact ⟨fun _ => hwaiting, fun _ => Nat.one_pos⟩
  next hwaiting => exact ⟨fun hpos => absurd hpos (lt_irrefl 0), fun heq => absurd heq hwaiting⟩

theorem count_truthy (offered : Option String) :
    (truthy offered).toList.count queuedMessageId =
      if truthy offered = some queuedMessageId then 1 else 0 := by
  cases truthy offered with
  | none => rfl
  | some id => simp [count_singleton]

theorem Accounted.effect (h : Accounted queuedMessageId service)
    (hkept : queuedMessageId ∈ inFlight service → Fresh queuedMessageId service.taken)
    (heffect : Effect service after) : Accounted queuedMessageId after := by
  refine ⟨heffect.sound, ?_, ?_⟩
  · cases heffect with
    | quiet hquiet => exact h.agrees.of_sameBooks hquiet.books
    | admitted offered channel sound unknown books flight =>
      exact (h.agrees.admitDelivery offered channel).of_sameBooks books
    | decided about acked sound books flight =>
      exact (h.agrees.settleDelivery about acked).of_sameBooks books
  · cases heffect with
    | quiet hquiet => rw [hquiet.flight.count_eq, hquiet.books.events, h.once]
    | admitted offered channel sound unknown books flight =>
      rw [flight.count_eq, books.events, standing_admitDelivery unknown, count_append, count_truthy]
      by_cases hoffered : truthy offered = some queuedMessageId
      · -- were a frame of the id in flight, the memory would know the id
        have hnone : queuedMessageId ∉ inFlight service := by
          intro hflying
          have hknown := h.agrees.kept (hkept hflying)
          rw [h.waiting_iff.mp hflying, unknown_of_admitted unknown hoffered] at hknown
          cases hknown
        rw [count_eq_zero_of_not_mem hnone, if_pos hoffered, if_pos hoffered, if_pos rfl]
      · rw [if_neg hoffered, if_neg hoffered, h.once, zero_add]
    | decided about acked sound books flight =>
      have hcount := flight.count_eq queuedMessageId
      rw [count_append, count_truthy, h.once] at hcount
      rw [books.events, standing_settleDelivery]
      by_cases habout : truthy about = some queuedMessageId
      · rw [if_pos habout] at hcount ⊢
        have hgone : (inFlight after).count queuedMessageId = 0 := by
          split at hcount <;> omega
        rw [hgone]
        cases acked <;> rfl
      · rw [if_neg habout] at hcount ⊢
        rw [zero_add] at hcount
        exact hcount.symm

section

variable (service : Service) (frame : Frame)

/-- Offered again, the frame enters the scheduler. -/
def Admits : Prop :=
  ∀ channel startHookThrows, ∃ after,
    step service (.offer frame channel startHookThrows) = some after ∧
      after.frames = service.frames ++ [frame] ∧
      after.machine.enqueued = ⟨service.machine.enqueued.length, frame.msg⟩ ::
        service.machine.enqueued

/-- Offered again, the frame leaves the queue as it is. -/
def Refuses : Prop :=
  ∀ channel startHookThrows, ∃ after,
    step service (.offer frame channel startHookThrows) = some after ∧
      after.machine = service.machine ∧ after.frames = service.frames

end

theorem refuses_of_known {known : DeliveryState}
    (hid : truthy frame.queuedMessageId = some queuedMessageId)
    (hknown : service.taken.deliveries.get? queuedMessageId = some known) :
    Refuses service frame := by
  intro channel startHookThrows
  simp only [step, enqueueMessage, Deliveries.admitDelivery, hid, hknown]
  exact ⟨_, rfl, rfl, rfl⟩

/-- Starting a drain enqueues nothing. -/
theorem processQueue_total (service : Service) (startHookThrows : Bool) :
    ∃ after, service.processQueue startHookThrows = some after ∧
      after.frames = service.frames ∧ after.machine.enqueued = service.machine.enqueued := by
  unfold processQueue advance
  split
  · simp only [PerGroupScheduler.step]
    split
    · exact ⟨_, rfl, rfl, rfl⟩
    · split
      all_goals exact ⟨_, rfl, rfl, rfl⟩
  · exact ⟨service, rfl, rfl, rfl⟩

theorem admits_of_unknown (hid : truthy frame.queuedMessageId = some queuedMessageId)
    (hunknown : service.taken.deliveries.get? queuedMessageId = none) : Admits service frame := by
  intro channel startHookThrows
  simp only [step, enqueueMessage, Deliveries.admitDelivery, hid, hunknown]
  simp only [advance, PerGroupScheduler.step, Option.map_some, Option.bind_eq_bind,
    Option.bind_some]
  split
  · exact ⟨_, rfl, rfl, rfl⟩
  · exact processQueue_total _ startHookThrows

/-- **Admission.**  Take any run in which fewer than `DELIVERY_MEMORY` ids enter the memory
    while a frame of the given id is in flight.  Offered again over either channel, the id is
    refused while its frame waits or is being processed, admitted once it was left
    unacknowledged, and refused after it was acknowledged, as long as it is among the last
    `DELIVERY_MEMORY` ids that entered. -/
theorem delivery_admission {mode : MlsPerGroupQueueMode} {actions : List Action}
    (hkept : EachStep step (Kept queuedMessageId) (.start mode) actions)
    (hrun : run step (.start mode) actions = some service) {frame : Frame}
    (hid : truthy frame.queuedMessageId = some queuedMessageId) :
    (queuedMessageId ∈ inFlight service → Fresh queuedMessageId service.taken →
      Refuses service frame) ∧
    (standing queuedMessageId service.taken.events = .owed → Admits service frame) ∧
    (standing queuedMessageId service.taken.events = .acknowledged →
      Fresh queuedMessageId service.taken → Refuses service frame) := by
  have haccounted : Accounted queuedMessageId service :=
    run_invariant (fun h hok hstep => Accounted.effect h hok (h.sound.effect hstep))
      (accounted_start queuedMessageId mode) hkept hrun
  have hagrees := haccounted.agrees
  refine ⟨?_, ?_, ?_⟩
  · intro hflying hfresh
    have hknown := hagrees.kept hfresh
    rw [haccounted.waiting_iff.mp hflying] at hknown
    exact refuses_of_known hid hknown
  · intro howed
    apply admits_of_unknown hid
    apply hagrees.absent
    rw [howed]
    rfl
  · intro hacknowledged hfresh
    have hknown := hagrees.kept hfresh
    rw [hacknowledged] at hknown
    exact refuses_of_known hid hknown

instance Fresh.decidable (queuedMessageId : String) (taken : Deliveries) :
    Decidable (Fresh queuedMessageId taken) :=
  inferInstanceAs (Decidable (_ ∈ _))

instance Kept.decidable (queuedMessageId : String) (service : Service) (action : Action) :
    Decidable (Kept queuedMessageId service action) :=
  inferInstanceAs (Decidable (_ → _))

def row (queuedMessageId : String) : Frame :=
  ⟨⟨some "salon", false, none⟩, false, some queuedMessageId⟩

/-- The first row arrives over the socket, the drain it starts takes it in hand. -/
def inHandFirst (queuedMessageId : String) : List Action :=
  [.onMessage, .offer (row queuedMessageId) .live false, .turn, .lockAcquired]

def leftUnacknowledged : List Action :=
  inHandFirst "q" ++ [.callbackEnds (.returned (some false))]

def acknowledgedRow : List Action :=
  inHandFirst "q" ++ [.callbackEnds (.returned (some true))]

theorem delivery_admission_oneRow :
    (∃ service, run step (.start .web) (inHandFirst "q") = some service ∧
      "q" ∈ inFlight service ∧ Refuses service (row "q")) ∧
    (∃ service, run step (.start .web) leftUnacknowledged = some service ∧
      standing "q" service.taken.events = .owed ∧ Admits service (row "q")) ∧
    ∃ service, run step (.start .web) acknowledgedRow = some service ∧
      standing "q" service.taken.events = .acknowledged ∧ Refuses service (row "q") := by
  have hid : truthy (row "q").queuedMessageId = some "q" := by decide
  refine ⟨?_, ?_, ?_⟩
  · have hfacts : ∃ service ∈ run step (.start .web) (inHandFirst "q"),
        "q" ∈ inFlight service ∧ Fresh "q" service.taken := by decide
    obtain ⟨service, hrun, hflying, hfresh⟩ := hfacts
    exact ⟨service, hrun, hflying, (delivery_admission (by decide) hrun hid).1 hflying hfresh⟩
  · have hfacts : ∃ service ∈ run step (.start .web) leftUnacknowledged,
        standing "q" service.taken.events = .owed := by decide
    obtain ⟨service, hrun, howed⟩ := hfacts
    exact ⟨service, hrun, howed, (delivery_admission (by decide) hrun hid).2.1 howed⟩
  · have hfacts : ∃ service ∈ run step (.start .web) acknowledgedRow,
        standing "q" service.taken.events = .acknowledged ∧ Fresh "q" service.taken := by
      decide
    obtain ⟨service, hrun, hacknowledged, hfresh⟩ := hfacts
    exact ⟨service, hrun, hacknowledged,
      (delivery_admission (by decide) hrun hid).2.2 hacknowledged hfresh⟩

/-! ## 7. A full memory

The memory holds `DELIVERY_MEMORY` ids, and the drain holds one frame at a time: with as many
rows behind the one in hand, the id in hand is the oldest, and the next arrival forgets it. -/

def offers (ids : List String) : List Action :=
  ids.map fun id => .offer (row id) .pull false

theorem truthy_row (hid : id ≠ "") : truthy (row id).queuedMessageId = some id := by
  simp only [row, truthy, Option.filter_some, decide_eq_true hid, if_true]

/-- What the arrival of a row with an unknown id does while a drain runs. -/
structure RowTaken (id : String) (service after : Service) : Prop where
  draining : after.machine.scheduler.isDraining = true
  point : after.machine.point = service.machine.point
  frames : after.frames = service.frames ++ [row id]
  deliveries : after.taken.deliveries = remember DELIVERY_MEMORY service.taken.deliveries id .queued
  events : after.taken.events = .taken id :: service.taken.events

section

variable (hdraining : service.machine.scheduler.isDraining = true)
include hdraining

theorem offer_row (hid : id ≠ "") (hunknown : service.taken.deliveries.get? id = none) :
    ∃ after, step service (.offer (row id) .pull false) = some after ∧
      RowTaken id service after := by
  simp only [step, enqueueMessage, Deliveries.admitDelivery, truthy_row hid, hunknown]
  have hstill := (arrived_enqueue service.machine.scheduler
    ⟨service.machine.enqueued.length, (row id).msg⟩).draining.trans hdraining
  simp only [advance, PerGroupScheduler.step, Option.map_some, Option.bind_eq_bind,
    Option.bind_some, hstill, if_true]
  exact ⟨_, rfl, hstill, rfl, rfl, rfl, rfl⟩

/-- Rows with distinct unknown ids, as many as there is room for. -/
theorem offers_rows {ids : List String}
    (hnonempty : ∀ id ∈ ids, id ≠ "") (hnodup : (service.taken.deliveries.keys ++ ids).Nodup)
    (hroom : service.taken.deliveries.keys.length + ids.length ≤ DELIVERY_MEMORY) :
    ∃ after, run step service (offers ids) = some after ∧
      after.machine.scheduler.isDraining = true ∧
      after.machine.point = service.machine.point ∧
      (∃ later, after.frames = service.frames ++ later) ∧
      after.taken.deliveries.keys = service.taken.deliveries.keys ++ ids ∧
      after.taken.events = ids.reverse.map .taken ++ service.taken.events := by
  induction ids generalizing service with
  | nil => exact ⟨service, rfl, hdraining, rfl, ⟨[], (append_nil _).symm⟩,
      (append_nil _).symm, rfl⟩
  | cons id rest ih =>
    have hnew : id ∉ service.taken.deliveries.keys := by
      intro hmem
      exact (nodup_append.mp hnodup).2.2 id hmem id mem_cons_self rfl
    have hunknown : service.taken.deliveries.get? id = none := by
      by_contra hknown
      exact hnew (OrderedMap.mem_keys.mpr hknown)
    rw [length_cons] at hroom
    obtain ⟨middle, hfirst, htaken⟩ := offer_row hdraining (hnonempty id mem_cons_self) hunknown
    have hkeys : middle.taken.deliveries.keys = service.taken.deliveries.keys ++ [id] := by
      rw [htaken.deliveries, OrderedMap.keys, entries_remember_new (by omega) hunknown,
        if_neg (by omega), map_append]
      rfl
    have hmiddle := ih htaken.draining
      (fun other hother => hnonempty other (mem_cons_of_mem id hother))
      (by rw [hkeys, append_assoc]; exact hnodup)
      (by rw [hkeys, length_append, length_singleton]; omega)
    obtain ⟨after, hrun, hdraining', hpoint, ⟨later, hframes⟩, hkeys', hevents⟩ := hmiddle
    refine ⟨after, run_cons_eq_some.mpr ⟨middle, hfirst, hrun⟩, hdraining',
      hpoint.trans htaken.point, ⟨row id :: later, ?_⟩, ?_, ?_⟩
    · rw [hframes, htaken.frames, append_assoc, singleton_append]
    · rw [hkeys', hkeys, append_assoc, singleton_append]
    · rw [hevents, htaken.events, reverse_cons, map_append, append_assoc]
      rfl

/-- A row more than the memory holds forgets the oldest id, whose rows are then let in. -/
theorem oldest_admitted {oldest last : String} {rest : List String} (hlast : last ≠ "")
    (hkeys : service.taken.deliveries.keys = oldest :: rest)
    (hfull : rest.length + 1 = DELIVERY_MEMORY) (hnew : last ∉ oldest :: rest)
    (hid : truthy frame.queuedMessageId = some oldest) :
    ∃ after, step service (.offer (row last) .pull false) = some after ∧
      RowTaken last service after ∧ Admits after frame := by
  have hunknown : service.taken.deliveries.get? last = none := by
    by_contra hknown
    exact hnew (hkeys ▸ mem_keys.mpr hknown)
  obtain ⟨after, hstep, htaken⟩ := offer_row hdraining hlast hunknown
  refine ⟨after, hstep, htaken, admits_of_unknown hid ?_⟩
  rw [htaken.deliveries]
  refine get?_remember_oldest hkeys ?_ hunknown
  rw [hkeys]
  exact hfull

end

/-- A row whose handler succeeds is settled where it stands: its id keeps its age. -/
theorem acknowledge_row {queued : Queued} (hid : id ≠ "")
    (hpoint : service.machine.point = some (.processing queued))
    (hframe : service.frames[queued.ticket]? = some (row id))
    (hbounded : service.taken.deliveries.keys.length ≤ DELIVERY_MEMORY)
    (hknown : id ∈ service.taken.deliveries.keys) :
    ∃ after, step service (.callbackEnds (.returned (some true))) = some after ∧
      after.machine.scheduler = service.machine.scheduler ∧
      after.taken.deliveries.keys = service.taken.deliveries.keys ∧
      after.taken.events = .settled id true :: service.taken.events := by
  have hkeys : (service.taken.rememberDelivery id .done).deliveries.keys =
      service.taken.deliveries.keys := by
    have hpresent := OrderedMap.mem_keys.mp hknown
    rw [Deliveries.rememberDelivery, remember_known hbounded hpresent]
    exact keys_set hpresent _
  have hinHand : service.inHand = some (row id) := by
    rw [inHand, hpoint]
    exact hframe
  have hacked : shouldAckAfterSuccess (some true) (row id).flags = true := by
    simp only [shouldAckAfterSuccess, Frame.flags, truthy_row hid]
    rfl
  have hplain : ¬ (row id).msg.type = some "group_reset" := by
    intro htype
    cases htype
  have hwindow : ∀ decided : Service, decided.closeWindow (row id) = some decided := by
    intro decided
    rfl
  have hsettled : service.taken.settleDelivery (row id).queuedMessageId true =
      { service.taken.rememberDelivery id .done with
        events := .settled id true :: service.taken.events } := by
    simp only [Deliveries.settleDelivery, truthy_row hid, if_true]
  simp only [step, callbackEnds, hinHand, if_neg hplain, hacked, decideAbout,
    hsettled, advance, PerGroupScheduler.step, hpoint, Option.map_some, Option.bind_some,
    hwindow]
  exact ⟨_, rfl, rfl, hkeys, rfl⟩

/-- `q`, `qq`, `qqq` and so on. -/
def rowId (n : Nat) : String := String.ofList (replicate (n + 1) 'q')

theorem length_rowId (n : Nat) : (rowId n).length = n + 1 := by
  rw [rowId, String.length_ofList, length_replicate]

theorem rowId_ne_empty (n : Nat) : rowId n ≠ "" := by
  intro hempty
  have hlength := length_rowId n
  rw [hempty] at hlength
  cases hlength

theorem rowId_injective {m n : Nat} (h : rowId m = rowId n) : m = n := by
  have hlength := congrArg String.length h
  rw [length_rowId, length_rowId] at hlength
  exact Nat.succ.inj hlength

/-- The rows behind the one in hand, up to the bound of the memory. -/
def rowsBehind : List String := (range 511).map fun n => rowId (n + 1)

theorem length_rowsBehind : rowsBehind.length + 1 = DELIVERY_MEMORY := by
  rw [rowsBehind, length_map, length_range]
  rfl

theorem nodup_rowsBehind : (rowId 0 :: rowsBehind).Nodup := by
  refine nodup_cons.mpr ⟨?_, List.Nodup.map ?_ nodup_range⟩
  · intro hmem
    obtain ⟨n, _, hn⟩ := mem_map.mp hmem
    cases rowId_injective hn
  · intro m n h
    exact Nat.succ.inj (rowId_injective h)

theorem last_not_mem_rowsBehind : rowId 512 ∉ rowId 0 :: rowsBehind := by
  intro hmem
  rcases mem_cons.mp hmem with hfirst | hbehind
  · cases rowId_injective hfirst
  · obtain ⟨n, hn, hrow⟩ := mem_map.mp hbehind
    have hsame := rowId_injective hrow
    have hbound := mem_range.mp hn
    omega

/-- The ids the drain has decided about, the last one first. -/
def settledIds (events : List Event) : List String :=
  events.filterMap fun event =>
    match event with
    | .taken _ => none
    | .settled queuedMessageId _ => some queuedMessageId

theorem settledIds_taken (ids : List String) (events : List Event) :
    settledIds (ids.map .taken ++ events) = settledIds events := by
  induction ids with
  | nil => rfl
  | cons id rest ih => exact ih

/-- Behind a row in hand the memory fills up. -/
theorem memory_full :
    ∃ service, run step (.start .web) (inHandFirst (rowId 0) ++ offers rowsBehind) = some service ∧
      service.machine.scheduler.isDraining = true ∧
      service.machine.point = some (.processing ⟨0, (row (rowId 0)).msg⟩) ∧
      (∃ later, service.frames = row (rowId 0) :: later) ∧
      service.taken.deliveries.keys = rowId 0 :: rowsBehind ∧
      service.taken.events = rowsBehind.reverse.map .taken ++ [.taken (rowId 0)] := by
  have hfirst : ∃ service ∈ run step (.start .web) (inHandFirst (rowId 0)),
      service.machine.scheduler.isDraining = true ∧
      service.machine.point = some (.processing ⟨0, (row (rowId 0)).msg⟩) ∧
      service.frames = [row (rowId 0)] ∧ service.taken.deliveries.keys = [rowId 0] ∧
      service.taken.events = [.taken (rowId 0)] := by
    decide
  obtain ⟨service, hrun, hdraining, hpoint, hframes, hkeys, hevents⟩ := hfirst
  have hnonempty : ∀ id ∈ rowsBehind, id ≠ "" := by
    intro id hid
    obtain ⟨n, _, rfl⟩ := mem_map.mp hid
    exact rowId_ne_empty (n + 1)
  obtain ⟨after, hrun', hdraining', hpoint', ⟨later, hframes'⟩, hkeys', hevents'⟩ :=
    offers_rows hdraining hnonempty (by rw [hkeys, singleton_append]; exact nodup_rowsBehind)
      (by rw [hkeys, length_singleton, add_comm, length_rowsBehind])
  refine ⟨after, run_append_eq_some.mpr ⟨service, hrun, hrun'⟩, hdraining', hpoint'.trans hpoint,
    ⟨later, ?_⟩, ?_, ?_⟩
  · rw [hframes', hframes, singleton_append]
  · rw [hkeys', hkeys, singleton_append]
  · rw [hevents', hevents]

/-- One row more, and the id in hand is forgotten.  Its frame is let in a second time while the
    first is being processed; and if the drain has acknowledged it before the last row came, it
    is let in again although it is the one id settled so far. -/
theorem second_copy_admitted :
    (∃ service, run step (.start .web)
        (inHandFirst (rowId 0) ++ offers rowsBehind ++ offers [rowId 512]) = some service ∧
      rowId 0 ∈ inFlight service ∧ Admits service (row (rowId 0))) ∧
    ∃ service, run step (.start .web)
        (inHandFirst (rowId 0) ++ offers rowsBehind ++ [.callbackEnds (.returned (some true))] ++
          offers [rowId 512]) = some service ∧
      standing (rowId 0) service.taken.events = .acknowledged ∧
      settledIds service.taken.events = [rowId 0] ∧ Admits service (row (rowId 0)) := by
  obtain ⟨full, hrun, hdraining, hpoint, ⟨later, hframes⟩, hkeys, hevents⟩ := memory_full
  have hid : truthy (row (rowId 0)).queuedMessageId = some (rowId 0) := by decide
  constructor
  · obtain ⟨after, hstep, htaken, hadmits⟩ := oldest_admitted hdraining (rowId_ne_empty 512) hkeys
      length_rowsBehind last_not_mem_rowsBehind hid
    refine ⟨after, run_append_eq_some.mpr ⟨full, hrun, run_cons_eq_some.mpr ⟨after, hstep, rfl⟩⟩,
      ?_, hadmits⟩
    have hinHand : processing after.machine = [⟨0, (row (rowId 0)).msg⟩] := by
      rw [processing, htaken.point, hpoint]
    refine mem_filterMap.mpr ⟨⟨0, (row (rowId 0)).msg⟩, ?_, ?_⟩
    · rw [pendingWork, hinHand]
      exact mem_append_right _ mem_cons_self
    · rw [idAt, htaken.frames, hframes]
      exact hid
  · have hbounded : full.taken.deliveries.keys.length ≤ DELIVERY_MEMORY := by
      rw [hkeys, length_cons, length_rowsBehind]
    have hknown : rowId 0 ∈ full.taken.deliveries.keys := by
      rw [hkeys]
      exact mem_cons_self
    obtain ⟨decided, hdecided, hsame, hkeys', hevents'⟩ := acknowledge_row (rowId_ne_empty 0)
      hpoint (by rw [hframes]; rfl) hbounded hknown
    obtain ⟨after, hstep, htaken, hadmits⟩ := oldest_admitted (hsame ▸ hdraining)
      (rowId_ne_empty 512) (hkeys'.trans hkeys) length_rowsBehind last_not_mem_rowsBehind hid
    have hdecidedRun : run step full [.callbackEnds (.returned (some true))] = some decided :=
      run_cons_eq_some.mpr ⟨decided, hdecided, rfl⟩
    have hrunDecided := run_append_eq_some.mpr ⟨full, hrun, hdecidedRun⟩
    refine ⟨after, run_append_eq_some.mpr ⟨decided, hrunDecided,
      run_cons_eq_some.mpr ⟨after, hstep, rfl⟩⟩, ?_, ?_, hadmits⟩
    · have hother : rowId 512 ≠ rowId 0 := by
        intro hsameId
        cases rowId_injective hsameId
      rw [htaken.events, hevents', standing, if_neg hother, standing, if_pos rfl]
      rfl
    · rw [htaken.events, hevents', hevents]
      have hbefore := settledIds_taken rowsBehind.reverse [.taken (rowId 0)]
      simp only [settledIds, filterMap_cons] at hbefore ⊢
      rw [hbefore]
      rfl

end MinesApp.DeliveryAdmission
