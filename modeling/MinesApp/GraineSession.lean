import Mathlib.Data.List.Nodup
import Mathlib.Data.List.Sort
import MinesApp.PromiseChain

/-!
# Graine outbound sessions

`graine/sessionManager.ts` hands out places in a sealing session: a message is
sealed under the key of its (session id, index), so a pair handed out twice is two
messages under one key.  `reserveOutboundSlot` runs one reservation at a time per
channel and sender, over a promise chain; the count it reads and writes lives in
storage, where the handler of incoming seeds (`graine/frameHandler.ts`) writes
too.  Every awaited call is one step, and any of them may fail, a save with or
without having taken effect.

Case mapping and the locale order of ids belong to the platform and are
parameters.
-/

namespace MinesApp.GraineSession

open TransitionSystem PromiseChain List Option Function

/-! ## 1. Stored sessions -/

structure StoredGraineSession where
  workspaceId : String
  channelId : String
  sessionId : String
  senderId : String
  seedB64 : String
  firstIndex : Nat
  createdAt : Int
  sentCount : Option Nat
  distributionEpoch : Option Nat
deriving DecidableEq, Repr

/-- The `graine` table, keyed by the session id. -/
structure GraineTable where
  rows : List StoredGraineSession
  keyed : (rows.map StoredGraineSession.sessionId).Nodup

open GraineTable

section

variable (table : GraineTable) (localeLe : String → String → Bool)

/-- `saveGraineSession`: insert or replace. -/
def GraineTable.put (session : StoredGraineSession) : GraineTable where
  rows := session :: table.rows.filter (fun row => row.sessionId ≠ session.sessionId)
  keyed := by
    rw [map_cons, nodup_cons]
    refine ⟨?_, List.Nodup.sublist (filter_sublist.map _) table.keyed⟩
    simp

def byNewestSession (first second : StoredGraineSession) : Bool :=
  second.createdAt < first.createdAt ||
    (first.createdAt = second.createdAt && localeLe first.sessionId second.sessionId)

/-- `getGraineSessions`: the sessions of a channel whose seed decrypts, newest first. -/
def GraineTable.getGraineSessions
    (channelId : String) (readable : String → Bool) : List StoredGraineSession :=
  (table.rows.filter fun row => row.channelId = channelId && readable row.sessionId).insertionSort
    (byNewestSession localeLe · ·)

def GraineTable.getGraineSession (sessionId : String)
    (readable : String → Bool) : Option StoredGraineSession :=
  table.rows.find? fun row => row.sessionId = sessionId && readable row.sessionId

end

/-! ## 2. Rotation -/

inductive GraineRotationReason where
  | noSession
  | messageCount
  | age
  | roster
deriving DecidableEq, Repr

def graineRotateAfterMessages : Nat := 100

def graineRotateAfterMs : Int := 7 * 24 * 60 * 60 * 1000

def graineRotationReason (session : Option StoredGraineSession) (distributionEpoch : Nat)
    (now : Int) : Option GraineRotationReason :=
  match session with
  | none => some .noSession
  | some session =>
    if session.distributionEpoch ≠ some distributionEpoch then some .roster
    else if graineRotateAfterMessages ≤ session.sentCount.getD 0 then some .messageCount
    else if graineRotateAfterMs ≤ now - session.createdAt then some .age
    else none

/-! ## 3. Reservations -/

/-- The scope of a reservation, its sender already lower-cased. -/
structure GraineOutboundScope where
  workspaceId : String
  channelId : String
  senderId : String
deriving DecidableEq, Repr

def GraineOutboundScope.key (scope : GraineOutboundScope) : String :=
  scope.channelId ++ "|" ++ scope.senderId

structure GraineOutboundSlot where
  session : StoredGraineSession
  index : Nat
  minted : Bool
deriving DecidableEq, Repr

/-- Where a reservation stands: in the chain, awaiting the sessions of its channel,
    awaiting the distribution of a session it minted, awaiting a save, or over. -/
inductive Stage where
  | waiting
  | reading (now : Int)
  | distributing (minted : StoredGraineSession)
  | saving (slot : GraineOutboundSlot)
  | reserved (slot : GraineOutboundSlot)
  | threw
deriving DecidableEq, Repr

open Stage

structure Reservation where
  distributionEpoch : Nat
  scope : GraineOutboundScope
  stage : Stage
deriving DecidableEq, Repr

/-- The session the reservation would continue. -/
def currentSession (sessions : List StoredGraineSession) (scope : GraineOutboundScope) :
    Option StoredGraineSession :=
  sessions.find? fun session => session.senderId = scope.senderId && session.sentCount.isSome

/-- A JavaScript number: how it prints, and its value when it is an integer. -/
structure EpochArgument where
  text : String
  integer : Option Int
deriving DecidableEq, Repr

def epochError (epoch : EpochArgument) : String :=
  "Distribution-group epoch must be a non-negative integer, got " ++ epoch.text ++ ". " ++
    "A session minted without one can never be checked against a later roster."

/-- What `reserve` does with the sessions it read: continue the current one, or
    mint one with the fresh id and seed. -/
def decideSlot (sessions : List StoredGraineSession) (call : Reservation) (now : Int)
    (sessionId seedB64 : String) : Stage :=
  let current := currentSession sessions call.scope
  match graineRotationReason current call.distributionEpoch now, current with
  | none, some current =>
    .saving ⟨{ current with sentCount := some (current.sentCount.getD 0 + 1) },
      current.firstIndex + current.sentCount.getD 0, false⟩
  | _, _ =>
    .distributing ⟨call.scope.workspaceId, call.scope.channelId, sessionId, call.scope.senderId,
      seedB64, 0, now, some 0, some call.distributionEpoch⟩

/-! ## 4. Incoming seeds -/

structure Seed where
  channelId : String
  sessionId : String
  seed : List UInt8
  firstIndex : Nat
  createdAt : Int
deriving DecidableEq, Repr

/-- Where the handling of a frame stands: awaiting the session it may already
    hold, awaiting its save, or over with the value returned. -/
inductive SeedStage where
  | looking (workspaceId senderId : String) (seed : Seed)
  | storing (session : StoredGraineSession)
  | held
  | ignored
  | threw
deriving DecidableEq, Repr

def malformed (seed : Seed) : Bool :=
  seed.sessionId = "" || seed.seed = [] || seed.channelId = ""

/-- The decision of `storeIncomingSeed` once it knows what it already holds. -/
def decideSeed (toLowerCase : String → String) (toBase64 : List UInt8 → String)
    (existing : Option StoredGraineSession) (workspaceId senderId : String) (seed : Seed)
    (now : Int) : SeedStage :=
  let session : StoredGraineSession :=
    ⟨workspaceId, seed.channelId, seed.sessionId, toLowerCase senderId, toBase64 seed.seed,
      seed.firstIndex, if seed.createdAt = 0 then now else seed.createdAt, none, none⟩
  match existing with
  | some existing =>
    if existing.sentCount.isSome then .held
    else if existing.firstIndex ≤ seed.firstIndex then .held
    else .storing session
  | none => .storing session

/-! ## 5. One device -/

/-- The storage, the module's chains and the calls in progress; a reservation has
    the number of its task in the chain.  Two fields are bookkeeping that no step of
    the code reads: `homes` gives the channel and sender for which a session id is
    outbound on this device, and `distributed` the ids whose `distribute` succeeded. -/
structure Device where
  table : GraineTable
  chain : Chain String
  calls : Nat → Option Reservation
  refusals : List String
  seeds : Nat → Option SeedStage
  homes : String → Option (String × String)
  distributed : List String

inductive Action where
  | reserve (epoch : EpochArgument) (workspaceId channelId senderId : String)
  | start (id : Nat) (now : Int)
  | read (id : Nat) (readable : String → Bool) (sessionId seedB64 : String)
  | distribute (id : Nat)
  | save (id : Nat)
  | reject (id : Nat) (applied : Bool)
  | cleanUp (id : Nat)
  | incoming (frame : Nat) (workspaceId senderId : String) (seed : Seed)
  | look (frame : Nat) (readable : String → Bool) (now : Int)
  | store (frame : Nat)
  | rejectSeed (frame : Nat) (applied : Bool)

def Device.set (device : Device) (id : Nat) (call : Reservation) (stage : Stage) : Device :=
  { device with calls := update device.calls id (some { call with stage }) }

def Device.setSeed (device : Device) (frame : Nat) (stage : SeedStage) : Device :=
  { device with seeds := update device.seeds frame (some stage) }

def Device.put (device : Device) (session : StoredGraineSession) : Device :=
  { device with table := device.table.put session }

/-- The promise of a reservation settles. -/
def Device.settle (device : Device) (id : Nat) (call : Reservation) (stage : Stage) :
    Option Device :=
  (device.chain.settle id).map fun chain => { device with chain }.set id call stage

/-- The pending operation of a reservation succeeds: the sessions are read, the
    seed went out, or the row is saved. -/
def resumeRead (localeLe : String → String → Bool) (device : Device) (id : Nat)
    (call : Reservation) (readable : String → Bool) (sessionId seedB64 : String) (now : Int) :
    Option Device :=
  let sessions := device.table.getGraineSessions localeLe call.scope.channelId readable
  match decideSlot sessions call now sessionId seedB64 with
  | .distributing minted =>
    -- `newGraineSessionId` never repeats an id that is outbound here
    match device.homes sessionId with
    | some _ => none
    | none =>
      let home := (call.scope.channelId, call.scope.senderId)
      let homes := update device.homes sessionId (some home)
      some ({ device with homes }.set id call (.distributing minted))
  | stage => some (device.set id call stage)

def step (toLowerCase : String → String) (toBase64 : List UInt8 → String)
    (localeLe : String → String → Bool) (device : Device) : Action → Option Device
  | .reserve epoch workspaceId channelId senderId =>
    match epoch.integer with
    | some (.ofNat distributionEpoch) =>
      let scope : GraineOutboundScope := ⟨workspaceId, channelId, toLowerCase senderId⟩
      some { device with
        chain := device.chain.enqueue scope.key
        calls := update device.calls device.chain.arrivals
          (some ⟨distributionEpoch, scope, .waiting⟩) }
    | _ => some { device with refusals := device.refusals ++ [epochError epoch] }
  | .start id now =>
    match device.calls id with
    | some call =>
      (device.chain.start id).map fun chain => { device with chain }.set id call (.reading now)
    | none => none
  | .read id readable sessionId seedB64 =>
    match device.calls id with
    | some ⟨distributionEpoch, scope, .reading now⟩ =>
      resumeRead localeLe device id ⟨distributionEpoch, scope, .reading now⟩ readable
        sessionId seedB64 now
    | _ => none
  | .distribute id =>
    match device.calls id with
    | some ⟨distributionEpoch, scope, .distributing minted⟩ =>
      some ({ device with distributed := device.distributed ++ [minted.sessionId] }.set id
        ⟨distributionEpoch, scope, .distributing minted⟩
        (.saving ⟨{ minted with sentCount := some 1 }, 0, true⟩))
    | _ => none
  | .save id =>
    match device.calls id with
    | some ⟨distributionEpoch, scope, .saving slot⟩ =>
      (device.put slot.session).settle id ⟨distributionEpoch, scope, .saving slot⟩ (.reserved slot)
    | _ => none
  | .reject id applied =>
    match device.calls id with
    | some ⟨distributionEpoch, scope, .saving slot⟩ =>
      let device := if applied then device.put slot.session else device
      device.settle id ⟨distributionEpoch, scope, .saving slot⟩ .threw
    | some call => device.settle id call .threw
    | none => none
  | .cleanUp id => (device.chain.cleanUp id).map fun chain => { device with chain }
  | .incoming frame workspaceId senderId seed =>
    match device.seeds frame with
    | some _ => none
    | none =>
      some (device.setSeed frame
        (if malformed seed then .ignored else .looking workspaceId senderId seed))
  | .look frame readable now =>
    match device.seeds frame with
    | some (.looking workspaceId senderId seed) =>
      some (device.setSeed frame (decideSeed toLowerCase toBase64
        (device.table.getGraineSession seed.sessionId readable) workspaceId senderId seed now))
    | _ => none
  | .store frame =>
    match device.seeds frame with
    | some (.storing session) => some ((device.put session).setSeed frame .held)
    | _ => none
  | .rejectSeed frame applied =>
    match device.seeds frame with
    | some (.looking _ _ _) => some (device.setSeed frame .threw)
    | some (.storing session) =>
      some ((if applied then device.put session else device).setSeed frame .threw)
    | _ => none

/-- The channel and sender of the outbound sessions already stored. -/
def GraineTable.homes (table : GraineTable) (sessionId : String) : Option (String × String) :=
  (table.rows.find? fun row => row.sessionId = sessionId && row.sentCount.isSome).map
    fun row => (row.channelId, row.senderId)

def Device.start (table : GraineTable) : Device :=
  ⟨table, .empty, fun _ => none, [], fun _ => none, table.homes, []⟩

/-! ## 6. What a reservation and a row owe -/

/-- Some reservation has returned this place. -/
def Device.Returned (device : Device) (sessionId : String) (index : Nat) : Prop :=
  ∃ id call slot, device.calls id = some call ∧ call.stage = .reserved slot ∧
    slot.session.sessionId = sessionId ∧ slot.index = index

def Stage.active : Stage → Bool
  | .reading _ | .distributing _ | .saving _ => true
  | _ => false

/-- The outbound session an active reservation is working on. -/
def Stage.session : Stage → Option StoredGraineSession
  | .distributing minted => some minted
  | .saving slot => some slot.session
  | _ => none

theorem Stage.active_of_session {stage : Stage} {session : StoredGraineSession}
    (h : stage.session = some session) : stage.active = true := by
  cases stage with
  | distributing minted | saving slot | reading now => rfl
  | waiting | reserved slot | threw => cases h

theorem Stage.session_cases (stage : Stage) :
    (∃ minted, stage = .distributing minted) ∨ (∃ slot, stage = .saving slot) ∨
      stage.session = none := by
  cases stage with
  | distributing minted => exact .inl ⟨minted, rfl⟩
  | saving slot => exact .inr (.inl ⟨slot, rfl⟩)
  | waiting | reading now | reserved slot | threw => exact .inr (.inr rfl)

def Device.AtHome (device : Device) (session : StoredGraineSession) : Prop :=
  device.homes session.sessionId = some (session.channelId, session.senderId)

section Obligations

variable (stored : GraineTable)

/-- The session's seed went out, or the session was outbound before this run. -/
def Device.Legitimate (device : Device) (sessionId : String) : Prop :=
  sessionId ∈ device.distributed ∨
    ∃ row ∈ stored.rows, row.sessionId = sessionId ∧ row.sentCount.isSome = true

structure CallOk (device : Device) (id : Nat) (call : Reservation) : Prop where
  task : ∃ task, device.chain.tasks id = some task ∧ task.key = call.scope.key ∧
    (call.stage.active = true → task.status = .running)
  home : ∀ session, call.stage.session = some session → device.AtHome session ∧
    session.channelId = call.scope.channelId ∧ session.senderId = call.scope.senderId
  minted : ∀ minted, call.stage = .distributing minted →
    ∀ index, ¬ device.Returned minted.sessionId index
  saving : ∀ slot, call.stage = .saving slot →
    (∃ count, slot.session.sentCount = some count ∧ slot.index < slot.session.firstIndex + count) ∧
    (∀ index, device.Returned slot.session.sessionId index → index < slot.index) ∧
    device.Legitimate stored slot.session.sessionId
  reserved : ∀ slot, call.stage = .reserved slot → device.homes slot.session.sessionId ≠ none

/-- An outbound row has counted every place returned from its session. -/
def RowOk (device : Device) (row : StoredGraineSession) : Prop :=
  ∀ count, row.sentCount = some count → device.AtHome row ∧
    (∀ index, device.Returned row.sessionId index → index < row.firstIndex + count) ∧
    device.Legitimate stored row.sessionId

/-- Two reservations that hold one place of one session. -/
def SamePlace (call call' : Reservation) : Prop :=
  ∃ slot slot', call.stage = .reserved slot ∧ call'.stage = .reserved slot' ∧
    slot.session.sessionId = slot'.session.sessionId ∧ slot.index = slot'.index

structure Inv (device : Device) : Prop where
  chain : device.chain.Ok
  calls : ∀ id call, device.calls id = some call → CallOk stored device id call
  rows : ∀ row ∈ device.table.rows, RowOk stored device row
  seeds : ∀ frame session, device.seeds frame = some (.storing session) → session.sentCount = none
  distinct : ∀ id other call call', device.calls id = some call →
    device.calls other = some call' → SamePlace call call' → id = other

variable {stored}

/-- What the obligations of a call or row that does not move depend on. -/
structure Frame (device after : Device) : Prop where
  homes : ∀ sessionId home, device.homes sessionId = some home → after.homes sessionId = some home
  distributed : ∀ sessionId ∈ device.distributed, sessionId ∈ after.distributed

variable {device after : Device} {sessionId : String} {id : Nat} {call : Reservation}
  {table : GraineTable} {session : StoredGraineSession} {chain : Chain String}

theorem Frame.same (hhomes : after.homes = device.homes)
    (hdistributed : after.distributed = device.distributed) : Frame device after :=
  ⟨fun _ _ h => hhomes ▸ h, fun _ h => hdistributed ▸ h⟩

theorem Frame.legitimate (hframe : Frame device after) (h : device.Legitimate stored sessionId) :
    after.Legitimate stored sessionId :=
  h.imp_left (hframe.distributed sessionId)

theorem CallOk.frame (h : CallOk stored device id call) (hframe : Frame device after)
    (htasks : ∀ task, device.chain.tasks id = some task → after.chain.tasks id = some task)
    (hreturned : ∀ session, call.stage.session = some session → ∀ index,
      after.Returned session.sessionId index → device.Returned session.sessionId index) :
    CallOk stored after id call where
  task := by
    obtain ⟨task, htask, hkey, hrunning⟩ := h.task
    exact ⟨task, htasks task htask, hkey, hrunning⟩
  home session hsession := by
    obtain ⟨hhome, hscope⟩ := h.home session hsession
    exact ⟨hframe.homes _ _ hhome, hscope⟩
  minted minted hstage index hindex :=
    h.minted minted hstage index (hreturned minted (by rw [hstage]; rfl) index hindex)
  saving slot hstage := by
    obtain ⟨hcount, hbound, hlegitimate⟩ := h.saving slot hstage
    refine ⟨hcount, fun index hindex => hbound index ?_, hframe.legitimate hlegitimate⟩
    exact hreturned slot.session (by rw [hstage]; rfl) index hindex
  reserved slot hstage hnone := by
    cases hhome : device.homes slot.session.sessionId with
    | none => exact h.reserved slot hstage hhome
    | some home =>
      have hafter := hframe.homes _ _ hhome
      rw [hnone] at hafter
      cases hafter

theorem RowOk.frame {row : StoredGraineSession}
    (h : RowOk stored device row) (hframe : Frame device after)
    (hreturned : ∀ index, after.Returned row.sessionId index →
      device.Returned row.sessionId index) : RowOk stored after row := by
  intro count hcount
  obtain ⟨hhome, hbound, hlegitimate⟩ := h count hcount
  exact ⟨hframe.homes _ _ hhome, fun index hindex => hbound index (hreturned index hindex),
    hframe.legitimate hlegitimate⟩

/-- A row put in the table keeps the other rows' obligations. -/
theorem rowOk_put
    (h : ∀ row ∈ table.rows, RowOk stored device row) (hsession : RowOk stored device session) :
    ∀ row ∈ (table.put session).rows, RowOk stored device row := by
  intro row hrow
  rcases mem_cons.mp hrow with rfl | hold
  · exact hsession
  · exact h row (mem_of_mem_filter hold)

/-! ### A reservation moves -/

theorem returned_of_update (device : Device)
    (hcalls : after.calls = update device.calls id (some call))
    {index : Nat} (h : after.Returned sessionId index) :
    device.Returned sessionId index ∨ ∃ slot, call.stage = .reserved slot ∧
      slot.session.sessionId = sessionId ∧ slot.index = index := by
  obtain ⟨other, call', slot, hother, hstage, hsession, hindex⟩ := h
  rw [hcalls] at hother
  rcases update_eq_some_iff.mp hother with ⟨_, hsame⟩ | ⟨_, hold⟩
  · cases hsame
    exact .inr ⟨slot, hstage, hsession, hindex⟩
  · exact .inl ⟨other, call', slot, hold, hstage, hsession, hindex⟩

theorem returned_of_pending (hcalls : after.calls = update device.calls id (some call))
    (hpending : ∀ slot, call.stage ≠ .reserved slot) {index : Nat}
    (h : after.Returned sessionId index) : device.Returned sessionId index := by
  rcases returned_of_update device hcalls h with hold | ⟨slot, hstage, _⟩
  · exact hold
  · exact absurd hstage (hpending slot)

section

variable (h : Inv stored device)
include h

/-- A reservation that moves; the place it returns, if it does, is a new one of a session that no
    other reservation works on. -/
theorem Inv.update (hcalls : after.calls = update device.calls id (some call))
    (hnew : ∀ slot, call.stage = .reserved slot →
      ¬ device.Returned slot.session.sessionId slot.index ∧
      ∀ other found session, other ≠ id → device.calls other = some found →
        found.stage.session = some session → session.sessionId ≠ slot.session.sessionId)
    (hchain : after.chain.Ok)
    (htasks : ∀ other task, other ≠ id → device.chain.tasks other = some task →
      after.chain.tasks other = some task)
    (hframe : Frame device after) (hseeds : after.seeds = device.seeds)
    (hrows : ∀ row ∈ after.table.rows, RowOk stored after row)
    (hself : CallOk stored after id call) : Inv stored after := by
  refine ⟨hchain, ?_, hrows, by simpa only [hseeds] using h.seeds, ?_⟩
  · refine forall_update hcalls hself fun other found hne hold => ?_
    refine (h.calls other found hold).frame hframe (fun task htask => htasks other task hne htask)
      fun session hsession index hindex => ?_
    rcases returned_of_update device hcalls hindex with hbefore | ⟨slot, hstage, hsame, _⟩
    · exact hbefore
    · exact absurd hsame.symm ((hnew slot hstage).2 other found session hne hold hsession)
  · refine unique_update hcalls ?_ h.distinct fun other found hother hsame => ?_
    · rintro _ _ ⟨slot, slot', hstage, hstage', hsession, hindex⟩
      exact ⟨slot', slot, hstage', hstage, hsession.symm, hindex.symm⟩
    · obtain ⟨slot, slot', hstage, hstage', hsession, hindex⟩ := hsame
      exact absurd ⟨other, found, slot', hother, hstage', hsession.symm, hindex.symm⟩
        (hnew slot hstage).1

theorem Inv.updatePending (hcalls : after.calls = Function.update device.calls id (some call))
    (hpending : ∀ slot, call.stage ≠ .reserved slot) (hchain : after.chain.Ok)
    (htasks : ∀ other task, other ≠ id → device.chain.tasks other = some task →
      after.chain.tasks other = some task)
    (hframe : Frame device after) (hseeds : after.seeds = device.seeds)
    (hrows : ∀ row ∈ after.table.rows, RowOk stored device row)
    (hself : CallOk stored after id call) : Inv stored after := by
  refine h.update hcalls (fun slot hstage => absurd hstage (hpending slot)) hchain htasks hframe
    hseeds (fun row hrow => ?_) hself
  exact (hrows row hrow).frame hframe fun _ => returned_of_pending hcalls hpending

section

variable (hid : device.calls id = some call)
include hid

/-- Two active reservations never work on the same session: they would have the
    same channel and sender, and so the same chain. -/
theorem Inv.session_ne {other : Nat} {call' : Reservation}
    (hother : device.calls other = some call') (hne : other ≠ id)
    {session' : StoredGraineSession} (hsession : call.stage.session = some session)
    (hsession' : call'.stage.session = some session') : session'.sessionId ≠ session.sessionId := by
  intro hsame
  have hok := h.calls id call hid
  have hok' := h.calls other call' hother
  obtain ⟨hhome, hchannel, hsender⟩ := hok.home session hsession
  obtain ⟨hhome', hchannel', hsender'⟩ := hok'.home session' hsession'
  have hpair : (session'.channelId, session'.senderId) = (session.channelId, session.senderId) := by
    rw [Device.AtHome, hsame] at hhome'
    exact some.inj (hhome'.symm.trans hhome)
  obtain ⟨hchannels, hsenders⟩ := Prod.mk.inj hpair
  have hkey : call'.scope.key = call.scope.key := by
    unfold GraineOutboundScope.key
    rw [← hchannel, ← hsender, ← hchannel', ← hsender', hchannels, hsenders]
  obtain ⟨task, htask, htaskKey, hrunning⟩ := hok.task
  obtain ⟨task', htask', htaskKey', hrunning'⟩ := hok'.task
  exact hne (h.chain.running_unique htask' htask (htaskKey'.trans (hkey.trans htaskKey.symm))
    (hrunning' (active_of_session hsession')) (hrunning (active_of_session hsession)))

theorem Inv.save {slot : GraineOutboundSlot}
    (hstage : call.stage = .saving slot) (hsettle : device.chain.settle id = some chain) :
    Inv stored ({ device.put slot.session with chain }.set id call (.reserved slot)) := by
  have hok := h.calls id call hid
  have hsession : call.stage.session = some slot.session := by rw [hstage]; rfl
  obtain ⟨⟨count, hcount, hlt⟩, hbound, hlegitimate⟩ := hok.saving slot hstage
  obtain ⟨hhome, _, _⟩ := hok.home slot.session hsession
  obtain ⟨task, htask, _, rfl⟩ := settle_eq_some hsettle
  refine h.update rfl ?_ (h.chain.settle hsettle) (fun other task' hne htask' => ?_)
    (.same rfl rfl) rfl (fun row hrow => ?_)
    ⟨?_, by simp [session], by simp, by simp, ?_⟩
  · -- a place returned earlier from this session has a smaller index
    rintro _ ⟨⟩
    refine ⟨fun hindex => lt_irrefl _ (hbound slot.index hindex), ?_⟩
    exact fun other found session' hne hold hactive => h.session_ne hid hold hne hsession hactive
  · simpa [Device.set, Chain.set, hne] using htask'
  · rcases mem_cons.mp hrow with rfl | hold
    · intro count' hcount'
      cases hcount.symm.trans hcount'
      refine ⟨hhome, fun index hindex => ?_, hlegitimate⟩
      rcases returned_of_update device rfl hindex with hold | ⟨_, ⟨⟩, _, rfl⟩
      · exact lt_trans (hbound index hold) hlt
      · exact hlt
    · obtain ⟨hmember, hother⟩ := mem_filter.mp hold
      refine (h.rows row hmember).frame (.same rfl rfl) fun index hindex => ?_
      rcases returned_of_update device rfl hindex with hold | ⟨_, ⟨⟩, hsame, _⟩
      · exact hold
      · simp [hsame] at hother
  · obtain ⟨task', htask', hkey, _⟩ := hok.task
    cases htask.symm.trans htask'
    exact ⟨{ task with status := .settled }, by simp [Device.set, Chain.set], hkey,
      by simp [active]⟩
  · rintro _ ⟨⟩ hnone
    cases hnone.symm.trans hhome

theorem Inv.fail (hsettle : device.chain.settle id = some chain)
    (hrows : ∀ row ∈ table.rows, RowOk stored device row) :
    Inv stored ({ device with chain, table }.set id call .threw) := by
  obtain ⟨task, htask, _, rfl⟩ := settle_eq_some hsettle
  refine h.updatePending rfl (by simp) (h.chain.settle hsettle) ?_ (.same rfl rfl) rfl hrows
    ⟨?_, by simp [session], by simp, by simp, by simp⟩
  · intro other task' hne htask'
    simpa [Device.set, Chain.set, hne] using htask'
  · obtain ⟨task', htask', hkey, _⟩ := (h.calls id call hid).task
    cases htask.symm.trans htask'
    exact ⟨{ task with status := .settled }, by simp [Device.set, Chain.set], hkey,
      by simp [active]⟩

end

theorem Inv.moveSeed (hrows : ∀ row ∈ table.rows, RowOk stored device row) (frame : Nat)
    {stage : SeedStage} (hstage : ∀ session, stage = .storing session → session.sentCount = none) :
    Inv stored ({ device with table }.setSeed frame stage) := by
  refine ⟨h.chain, ?_, ?_, ?_, h.distinct⟩
  · intro id call hid
    exact (h.calls id call hid).frame (.same rfl rfl)
      (fun _ htask => htask) fun _ _ _ hindex => hindex
  · exact fun row hrow => (hrows row hrow).frame (.same rfl rfl) fun _ hindex => hindex
  · intro other found hfound
    rcases update_eq_some_iff.mp hfound with ⟨_, hsame⟩ | ⟨_, hold⟩
    · exact hstage found (some.inj hsame)
    · exact h.seeds other found hold

/-- Storing an incoming seed makes its row, if anything, less outbound. -/
theorem Inv.putSeed (hsession : session.sentCount = none) (frame : Nat) {stage : SeedStage}
    (hstage : ∀ session, stage ≠ .storing session) :
    Inv stored ((device.put session).setSeed frame stage) := by
  refine h.moveSeed (rowOk_put h.rows ?_) frame fun found hfound => absurd hfound (hstage found)
  intro count hcount
  cases hsession.symm.trans hcount

end

/-! ### The decision -/

theorem currentSession_spec {localeLe : String → String → Bool}
    {scope : GraineOutboundScope} {readable : String → Bool} {current : StoredGraineSession}
    (h : currentSession (table.getGraineSessions localeLe scope.channelId readable) scope =
      some current) :
    current ∈ table.rows ∧ current.channelId = scope.channelId ∧
      current.senderId = scope.senderId ∧ ∃ count, current.sentCount = some count := by
  have hmember := mem_of_find?_eq_some h
  have hfound := find?_some h
  simp only [Bool.and_eq_true, decide_eq_true_eq] at hfound
  rw [getGraineSessions, mem_insertionSort] at hmember
  obtain ⟨hrow, hchannel⟩ := mem_filter.mp hmember
  simp only [Bool.and_eq_true, decide_eq_true_eq] at hchannel
  exact ⟨hrow, hchannel.1, hfound.1, isSome_iff_exists.mp hfound.2⟩

/-- The decision continues a stored outbound session of the scope, one further, or
    mints one for the scope. -/
theorem decideSlot_cases (table : GraineTable) (localeLe : String → String → Bool)
    (call : Reservation) (readable : String → Bool) (now : Int) (sessionId seedB64 : String) :
    (∃ current count, current ∈ table.rows ∧ current.channelId = call.scope.channelId ∧
      current.senderId = call.scope.senderId ∧ current.sentCount = some count ∧
      decideSlot (table.getGraineSessions localeLe call.scope.channelId readable) call now
        sessionId seedB64 =
        .saving ⟨{ current with sentCount := some (count + 1) }, current.firstIndex + count,
          false⟩) ∨
    ∃ minted : StoredGraineSession, minted.sessionId = sessionId ∧
      minted.channelId = call.scope.channelId ∧ minted.senderId = call.scope.senderId ∧
      decideSlot (table.getGraineSessions localeLe call.scope.channelId readable) call now
        sessionId seedB64 = .distributing minted := by
  unfold decideSlot
  simp only
  split
  next current _ hcurrent =>
    obtain ⟨hrow, hchannel, hsender, count, hcount⟩ := currentSession_spec hcurrent
    exact .inl ⟨current, count, hrow, hchannel, hsender, hcount, by simp [hcount]⟩
  · exact .inr ⟨_, rfl, rfl, rfl, rfl⟩

section

variable (h : Inv stored device)
include h

theorem Inv.read {localeLe : String → String → Bool} {next : Device} {now : Int}
    (hid : device.calls id = some call) (hstage : call.stage = .reading now)
    {readable : String → Bool} {seedB64 : String}
    (hread : resumeRead localeLe device id call readable sessionId seedB64 now = some next) :
    Inv stored next := by
  have htask : ∃ task, device.chain.tasks id = some task ∧ task.key = call.scope.key ∧
      task.status = .running := by
    obtain ⟨task, htask, hkey, hrunning⟩ := (h.calls id call hid).task
    exact ⟨task, htask, hkey, hrunning (by rw [hstage]; rfl)⟩
  obtain ⟨task, htask, hkey, hrunning⟩ := htask
  rcases decideSlot_cases device.table localeLe call readable now sessionId seedB64 with
    ⟨current, count, hrow, hchannel, hsender, hcount, hdecide⟩ |
    ⟨minted, rfl, hchannel, hsender, hdecide⟩
  · simp only [resumeRead, hdecide, some.injEq] at hread
    subst hread
    obtain ⟨hhome, hbound, hlegitimate⟩ := h.rows current hrow count hcount
    refine h.updatePending rfl (by simp) h.chain (fun _ _ _ hsame => hsame)
      (.same rfl rfl) rfl h.rows
      ⟨⟨task, htask, hkey, fun _ => hrunning⟩, ?_, by simp, ?_, by simp⟩
    · rintro _ ⟨⟩
      exact ⟨hhome, hchannel, hsender⟩
    · rintro _ ⟨⟩
      exact ⟨⟨count + 1, rfl, by simp⟩, fun index hindex =>
        hbound index (returned_of_pending rfl (by simp) hindex), hlegitimate⟩
  · simp only [resumeRead, hdecide] at hread
    split at hread
    · cases hread
    next hfresh =>
      simp only [some.injEq] at hread
      subst hread
      -- nothing outbound can carry an id that has no home yet
      have hunused : ∀ index, ¬ device.Returned minted.sessionId index := by
        rintro index ⟨other, found, slot, hother, hreserved, hsame, _⟩
        exact (h.calls other found hother).reserved slot hreserved (hsame ▸ hfresh)
      refine h.updatePending rfl (by simp) h.chain (fun _ _ _ hsame => hsame)
        ⟨?_, fun _ hsame => hsame⟩ rfl h.rows
        ⟨⟨task, htask, hkey, fun _ => hrunning⟩, ?_, ?_, by simp, by simp⟩
      · intro other home hhome
        have hne : other ≠ minted.sessionId := by
          rintro rfl
          cases hfresh.symm.trans hhome
        simpa [Device.set, hne] using hhome
      · rintro _ ⟨⟩
        simp [Device.AtHome, Device.set, hchannel, hsender]
      · rintro _ ⟨⟩ index hindex
        exact hunused index (returned_of_pending rfl (by simp) hindex)

/-- A new reservation joins the chain of its channel and sender. -/
theorem Inv.reserve (distributionEpoch : Nat) (scope : GraineOutboundScope) :
    Inv stored { device with
      chain := device.chain.enqueue scope.key
      calls := Function.update device.calls device.chain.arrivals
        (some ⟨distributionEpoch, scope, .waiting⟩) } := by
  refine h.updatePending rfl (by simp) (h.chain.enqueue scope.key) ?_ (.same rfl rfl) rfl h.rows
    ⟨⟨_, Function.update_self _ _ _, rfl, by simp [active]⟩, by simp [session],
      by simp, by simp, by simp⟩
  intro other task hne htask
  simpa [Chain.enqueue, hne] using htask

theorem Inv.start (hid : device.calls id = some call) (hstart : device.chain.start id = some chain)
    (now : Int) : Inv stored ({ device with chain }.set id call (.reading now)) := by
  obtain ⟨task, htask, _, _, rfl⟩ := start_eq_some hstart
  refine h.updatePending rfl (by simp) (h.chain.start hstart) ?_ (.same rfl rfl) rfl h.rows
    ⟨?_, by simp [session], by simp, by simp, by simp⟩
  · intro other task' hne htask'
    simpa [Device.set, Chain.set, hne] using htask'
  · obtain ⟨task', htask', hkey, _⟩ := (h.calls id call hid).task
    cases htask.symm.trans htask'
    exact ⟨{ task with status := .running }, by simp [Device.set, Chain.set], hkey, fun _ => rfl⟩

/-- The seed of a minted session went out; its row may now be written. -/
theorem Inv.distribute {minted : StoredGraineSession} (hid : device.calls id = some call)
    (hstage : call.stage = .distributing minted) :
    Inv stored ({ device with distributed := device.distributed ++ [minted.sessionId] }.set id call
      (.saving ⟨{ minted with sentCount := some 1 }, 0, true⟩)) := by
  have hok := h.calls id call hid
  obtain ⟨task, htask, hkey, hrunning⟩ := hok.task
  refine h.updatePending rfl (by simp) h.chain (fun _ _ _ hsame => hsame)
    ⟨fun _ _ hsame => hsame, fun _ hold => mem_append_left _ hold⟩ rfl h.rows
    ⟨⟨task, htask, hkey, fun _ => hrunning (by rw [hstage]; rfl)⟩, ?_, by simp, ?_, by simp⟩
  · rintro _ ⟨⟩
    exact hok.home minted (by rw [hstage]; rfl)
  · rintro _ ⟨⟩
    refine ⟨⟨1, rfl, by simp⟩, fun index hindex => ?_, .inl ?_⟩
    · exact absurd (returned_of_pending rfl (by simp) hindex) (hok.minted minted hstage index)
    · simp [Device.set]

theorem Inv.cleanUp (hclean : device.chain.cleanUp id = some chain) :
    Inv stored { device with chain } := by
  have htasks : ∀ other task, device.chain.tasks other = some task →
      ∃ task', chain.tasks other = some task' ∧ task'.key = task.key ∧
        (task.status = .running → task'.status = .running) := by
    intro other task htask
    unfold Chain.cleanUp at hclean
    split at hclean
    next task' hid =>
      obtain ⟨hsettled, rfl⟩ := ite_some_none_eq_some.mp hclean
      by_cases hsame : other = id
      · subst hsame
        cases hid.symm.trans htask
        exact ⟨{ task with status := .cleaned }, by simp [Chain.set], rfl, by simp [hsettled]⟩
      · exact ⟨task, by simp [Chain.set, hsame, htask], rfl, fun hrunning => hrunning⟩
    · cases hclean
  refine ⟨h.chain.cleanUp hclean, ?_, ?_, h.seeds, h.distinct⟩
  · intro other call hother
    have hok := h.calls other call hother
    obtain ⟨task, htask, hkey, hrunning⟩ := hok.task
    obtain ⟨task', htask', hkey', hrunning'⟩ := htasks other task htask
    exact ⟨⟨task', htask', hkey'.trans hkey, fun hactive => hrunning' (hrunning hactive)⟩,
      hok.home, hok.minted, hok.saving, hok.reserved⟩
  · exact fun row hrow => h.rows row hrow

end

end Obligations

/-! ## 7. Every interleaving -/

section Runs

variable {toLowerCase : String → String} {toBase64 : List UInt8 → String}
  {localeLe : String → String → Bool} {stored : GraineTable}

protected theorem Inv.step {device next : Device} {action : Action} (h : Inv stored device)
    (hstep : step toLowerCase toBase64 localeLe device action = some next) : Inv stored next := by
  cases action with simp only [step] at hstep
  | reserve epoch workspaceId channelId senderId =>
    split at hstep
    · cases hstep
      exact h.reserve _ _
    · cases hstep
      refine ⟨h.chain, fun id call hid => ?_, h.rows, h.seeds, h.distinct⟩
      exact (h.calls id call hid).frame (.same rfl rfl) (fun _ htask => htask)
        fun _ _ _ hindex => hindex
  | start id now =>
    split at hstep
    next call hid =>
      obtain ⟨chain, hstart, rfl⟩ := map_eq_some_iff.mp hstep
      exact h.start hid hstart now
    · cases hstep
  | read id readable sessionId seedB64 =>
    split at hstep
    next hid => exact h.read hid rfl hstep
    · cases hstep
  | distribute id =>
    split at hstep
    next hid =>
      cases hstep
      exact h.distribute hid rfl
    · cases hstep
  | save id =>
    split at hstep
    next hid =>
      obtain ⟨chain, hsettle, rfl⟩ := map_eq_some_iff.mp hstep
      exact h.save hid rfl hsettle
    · cases hstep
  | reject id applied =>
    split at hstep
    next distributionEpoch scope slot hid =>
      obtain ⟨chain, hsettle, rfl⟩ := map_eq_some_iff.mp hstep
      cases applied with
      | false => exact h.fail hid hsettle h.rows
      | true =>
        -- the row was written: its count covers a place that nobody was given
        have hok := h.calls id _ hid
        obtain ⟨⟨count, hcount, hlt⟩, hbound, hlegitimate⟩ := hok.saving slot rfl
        refine h.fail hid hsettle (rowOk_put h.rows fun count' hcount' => ?_)
        cases hcount.symm.trans hcount'
        exact ⟨(hok.home slot.session rfl).1,
          fun index hindex => lt_trans (hbound index hindex) hlt, hlegitimate⟩
    next call _ hid =>
      obtain ⟨chain, hsettle, rfl⟩ := map_eq_some_iff.mp hstep
      exact h.fail hid hsettle h.rows
    · cases hstep
  | cleanUp id =>
    obtain ⟨chain, hclean, rfl⟩ := map_eq_some_iff.mp hstep
    exact h.cleanUp hclean
  | incoming frame workspaceId senderId seed =>
    split at hstep
    · cases hstep
    · cases hstep
      refine h.moveSeed h.rows frame fun session hsession => ?_
      split at hsession <;> cases hsession
  | look frame readable now =>
    split at hstep
    · cases hstep
      refine h.moveSeed h.rows frame fun session hsession => ?_
      simp only [decideSeed] at hsession
      split at hsession
      · split at hsession
        · cases hsession
        · split at hsession <;> cases hsession
          rfl
      · cases hsession
        rfl
    · cases hstep
  | store frame =>
    split at hstep
    next session hframe =>
      cases hstep
      exact h.putSeed (h.seeds frame session hframe) frame (by simp)
    · cases hstep
  | rejectSeed frame applied =>
    split at hstep
    · cases hstep
      exact h.moveSeed h.rows frame (by simp)
    next session hframe =>
      cases hstep
      cases applied with
      | false => exact h.moveSeed h.rows frame (by simp)
      | true => exact h.putSeed (h.seeds frame session hframe) frame (by simp)
    · cases hstep

theorem GraineTable.homes_of_mem {table : GraineTable} {row : StoredGraineSession}
    (hrow : row ∈ table.rows) (hcount : row.sentCount.isSome = true) :
    table.homes row.sessionId = some (row.channelId, row.senderId) := by
  unfold homes
  cases hfind : table.rows.find? fun other =>
      other.sessionId = row.sessionId && other.sentCount.isSome with
  | none =>
    have := find?_eq_none.mp hfind row hrow
    simp [hcount] at this
  | some found =>
    have hfound := find?_some hfind
    simp only [Bool.and_eq_true, decide_eq_true_eq] at hfound
    have hsame : found = row := inj_on_of_nodup_map table.keyed
      (mem_of_find?_eq_some hfind) hrow hfound.1
    rw [hsame]
    rfl

theorem inv_start (stored : GraineTable) : Inv stored (.start stored) := by
  refine ⟨Chain.Ok.empty, by simp [Device.start], ?_, by simp [Device.start],
    by simp [Device.start]⟩
  intro row hrow count hcount
  have houtbound : row.sentCount.isSome = true := by simp [hcount]
  refine ⟨homes_of_mem hrow houtbound, ?_, .inr ⟨row, hrow, rfl, houtbound⟩⟩
  rintro index ⟨id, call, slot, hid, _⟩
  cases hid

/-- **Every Graine key is used once.**  Whatever is stored at the start, however
    reservations, incoming seeds and failing calls interleave, and whatever the
    epochs and clocks: two reservations that succeeded never hold the same session
    id and index, and a row that marks its session as outbound is there only if the
    session's `distribute` succeeded, or was stored so before. -/
theorem graine_slots_unique {actions : List Action} {device : Device}
    (hrun : run (step toLowerCase toBase64 localeLe) (.start stored) actions = some device) :
    (∀ id other call call' slot slot', device.calls id = some call →
      device.calls other = some call' → call.stage = .reserved slot →
      call'.stage = .reserved slot' → id ≠ other →
      (slot.session.sessionId, slot.index) ≠ (slot'.session.sessionId, slot'.index)) ∧
    (∀ row ∈ device.table.rows, row.sentCount ≠ none → row.sessionId ∈ device.distributed ∨
      ∃ old ∈ stored.rows, old.sessionId = row.sessionId ∧ old.sentCount.isSome = true) := by
  have h : Inv stored device := invariant_of_run Inv.step (inv_start stored) hrun
  constructor
  · intro id other call call' slot slot' hid hother hstage hstage' hne hsame
    obtain ⟨hsession, hindex⟩ := Prod.mk.inj hsame
    exact hne (h.distinct id other call call' hid hother
      ⟨slot, slot', hstage, hstage', hsession, hindex⟩)
  · intro row hrow hcount
    obtain ⟨count, hsome⟩ := ne_none_iff_exists'.mp hcount
    exact (h.rows row hrow count hsome).2.2

/-- **The stored count covers what was reserved**, so that a restart hands out no place again. -/
theorem stored_count_covers_reserved {actions : List Action}
    (hrun : run (step toLowerCase toBase64 localeLe) (.start stored) actions = some device) :
    ∀ row ∈ device.table.rows, ∀ count, row.sentCount = some count → ∀ index,
      device.Returned row.sessionId index → index < row.firstIndex + count := by
  intro row hrow count hcount
  have h : Inv stored device := invariant_of_run Inv.step (inv_start stored) hrun
  exact (h.rows row hrow count hcount).2.1

end Runs

/-- Two sends of one channel; the seed of the minted session comes back while it
    is being saved. -/
def racingSends : List Action :=
  [.reserve ⟨"4", some 4⟩ "w" "c" "u", .reserve ⟨"4", some 4⟩ "w" "c" "u", .start 0 0,
   .read 0 (fun _ => true) "s" "seed", .distribute 0, .incoming 0 "w" "u" ⟨"c", "s", [1], 0, 5⟩,
   .save 0, .look 0 (fun _ => true) 9, .cleanUp 0, .start 1 1,
   .read 1 (fun _ => true) "t" "other", .save 1]

theorem graine_slots_unique_racing :
    ∃ device slot slot', run (step (fun text => text) (fun _ => "") (fun _ _ => true))
        (.start ⟨[], nodup_nil⟩) racingSends = some device ∧
      (device.calls 0).map Reservation.stage = some (.reserved slot) ∧
      (device.calls 1).map Reservation.stage = some (.reserved slot') ∧
      (slot.session.sessionId, slot.index) ≠ (slot'.session.sessionId, slot'.index) := by
  refine ⟨_, _, _, rfl, rfl, rfl, ?_⟩
  have hunique := graine_slots_unique (rfl : run (step (fun text => text) (fun _ => "")
    (fun _ _ => true)) (.start ⟨[], nodup_nil⟩) racingSends = some _)
  exact hunique.1 0 1 _ _ _ _ rfl rfl rfl rfl (by decide)

def raced : Option Device :=
  run (step (fun text => text) (fun _ => "") fun _ _ => true) (.start ⟨[], nodup_nil⟩) racingSends

theorem stored_count_covers_reserved_raced :
    ∃ device ∈ raced, ∃ row ∈ device.table.rows,
      device.Returned row.sessionId 1 ∧ 1 < row.firstIndex + 2 := by
  refine ⟨_, rfl, _, mem_singleton_self _, ⟨1, _, _, rfl, rfl, rfl, rfl⟩, ?_⟩
  exact stored_count_covers_reserved (rfl : raced = some _) _ (mem_singleton_self _) 2 rfl 1
    ⟨1, _, _, rfl, rfl, rfl, rfl⟩

end MinesApp.GraineSession
