import MinesApp.SeedStability

/-!
# Rotation on a change of roster

A channel's seeds go out on a distribution group, and a member who leaves keeps the seeds
received so far.  So a session belongs to one epoch of the group: `reserve` continues it only
at the epoch that it records, and mints another one otherwise.  The epoch it compares with is
the one that `sealChannelMessage` read before it joined the chain of its channel
(`channelSeal.ts`), and the group may move while the reservation waits.

The model adds the groups to the device of `GraineSession`: the epoch and roster of each, the
commits that move them, and who was sent which seed.  A channel is taken to keep its group; a
group that is not in hand, or whose base is not settled, has no epoch.
-/

namespace MinesApp.RosterRotation

open TransitionSystem PromiseChain GraineSession List Function Option Device

/-! ## 1. Groups and steps -/

structure Group where
  epoch : Nat
  roster : List String
deriving DecidableEq, Repr

/-- `received` lists who was sent the seed of which session; no step reads it. -/
structure World where
  device : Device
  groups : String → Option Group
  received : List (String × String)

inductive Action where
  | sealChannelMessage (workspaceId channelId senderId : String)
  | device (action : GraineSession.Action)
  | commit (groupId : String) (roster : List String)
  | join (groupId : String) (group : Group)

section

variable (toLowerCase : String → String) (toBase64 : List UInt8 → String)
  (localeLe : String → String → Bool) (groupOf : String → String)

def distributionEpochFor (world : World) (channelId : String) : Option Nat :=
  (world.groups (groupOf channelId)).map Group.epoch

def step (world : World) : Action → Option World
  | .sealChannelMessage workspaceId channelId senderId =>
    match distributionEpochFor groupOf world channelId with
    -- `GraineDistributionUnavailableError`
    | none => some world
    | some epoch =>
      (GraineSession.step toLowerCase toBase64 localeLe world.device
        (.reserve ⟨toString epoch, some epoch⟩ workspaceId channelId senderId)).map
          fun device => { world with device }
  -- a reservation is made by a send
  | .device (.reserve _ _ _ _) => none
  -- the seed goes to those who are on the roster now
  | .device (.distribute id) =>
    match world.device.calls id with
    | some ⟨_, scope, .distributing minted⟩ =>
      match world.groups (groupOf scope.channelId) with
      | none => none
      | some group =>
        (GraineSession.step toLowerCase toBase64 localeLe world.device
          (.distribute id)).map fun device =>
          { world with
            device
            received := world.received ++ group.roster.map fun member =>
              (minted.sessionId, member) }
    | _ => none
  | .device action =>
    (GraineSession.step toLowerCase toBase64 localeLe world.device action).map
      fun device => { world with device }
  | .commit groupId roster =>
    match world.groups groupId with
    | some group =>
      some { world with
        groups := update world.groups groupId (some ⟨group.epoch + 1, roster⟩) }
    | none => none
  | .join groupId group =>
    match world.groups groupId with
    | some _ => none
    | none => some { world with groups := update world.groups groupId (some group) }

/-- No commit is applied to a group while a message of it awaits its place, and a group is
    joined at an epoch after those of the sessions stored for it. -/
def Unmoved (world : World) : Action → Prop
  | .commit groupId _ =>
    ∀ id call, world.device.calls id = some call → world.device.chain.pending id = true →
      groupOf call.scope.channelId ≠ groupId
  | .join groupId group =>
    ∀ row ∈ world.device.table.rows, row.sentCount.isSome = true → groupOf row.channelId = groupId →
      ∀ epoch, row.distributionEpoch = some epoch → epoch < group.epoch
  | _ => True

/-- The session is of the group's epoch or an earlier one, and if it is of this epoch, all who
    were sent its seed are on the roster. -/
def Shared (world : World) (session : StoredGraineSession) : Prop :=
  ∀ group, world.groups (groupOf session.channelId) = some group →
    ∀ epoch, session.distributionEpoch = some epoch → epoch ≤ group.epoch ∧
      (epoch = group.epoch → ∀ member, (session.sessionId, member) ∈ world.received →
        member ∈ group.roster)

/-- What is stored before the run: every outbound session is as `Shared` says, and the seeds
    sent are those of outbound sessions. -/
structure StartOk (stored : GraineTable) (groups : String → Option Group)
    (received : List (String × String)) : Prop where
  shared : ∀ row ∈ stored.rows, row.sentCount.isSome = true →
    Shared groupOf ⟨.start stored, groups, received⟩ row
  known : ∀ entry ∈ received, ∃ row ∈ stored.rows,
    row.sessionId = entry.1 ∧ row.sentCount.isSome = true

end

/-! ## 2. What a step of the device does to its reservations -/

section

variable {toLowerCase : String → String} {toBase64 : List UInt8 → String}
  {localeLe : String → String → Bool} {device next : Device} {id : Nat} {call : Reservation}
  {action : GraineSession.Action}

/-- Apart from a distribution, which is logged, a step of the device moves the device only. -/
theorem step_device {groupOf : String → String} {world next : World}
    (h : step toLowerCase toBase64 localeLe groupOf world (.device action) = some next) :
    (∃ id call minted group device, action = .distribute id ∧
      world.device.calls id = some call ∧ call.stage = .distributing minted ∧
      world.groups (groupOf call.scope.channelId) = some group ∧
      GraineSession.step toLowerCase toBase64 localeLe world.device (.distribute id) = some device ∧
      next = { world with
        device
        received := world.received ++ group.roster.map fun member =>
          (minted.sessionId, member) }) ∨
    ∃ device, GraineSession.step toLowerCase toBase64 localeLe world.device action = some device ∧
      next = { world with device } ∧ (∀ id, action ≠ .distribute id) ∧
      ∀ epoch workspaceId channelId senderId,
        action ≠ .reserve epoch workspaceId channelId senderId := by
  cases action with
  | reserve epoch workspaceId channelId senderId => cases h
  | distribute id =>
    simp only [step] at h
    split at h
    next distributionEpoch scope minted hid =>
      split at h
      · cases h
      next group hgroup =>
        obtain ⟨device, hdevice, hnext⟩ := map_eq_some_iff.mp h
        exact .inl ⟨id, _, minted, group, device, rfl, hid, rfl, hgroup, hdevice, hnext.symm⟩
    · cases h
  | start id now | read id readable sessionId seedB64 | save id | reject id applied | cleanUp id
  | incoming frame workspaceId senderId seed | look frame readable now | store frame
  | rejectSeed frame applied =>
    obtain ⟨device, hdevice, hnext⟩ := map_eq_some_iff.mp h
    exact .inr ⟨device, hdevice, hnext.symm, by simp, by simp⟩

end

/-! ## 3. The invariant -/

section Invariant

variable {toLowerCase : String → String} {toBase64 : List UInt8 → String}
  {localeLe : String → String → Bool} {groupOf : String → String} {stored : GraineTable}

variable (groupOf) in
/-- What a reservation has in hand is of the epoch it was called with: a minted session that
    nobody was sent, or one whose receivers are known. -/
def Dated (world : World) (call : Reservation) : Prop :=
  match call.stage with
  | .distributing minted =>
    minted.distributionEpoch = some call.distributionEpoch ∧
      (∀ member, (minted.sessionId, member) ∉ world.received) ∧
      ∀ row ∈ world.device.table.rows, row.sessionId = minted.sessionId → row.sentCount = none
  | .saving slot =>
    slot.session.distributionEpoch = some call.distributionEpoch ∧ Shared groupOf world slot.session
  | _ => True

variable (groupOf stored) in
structure RotationOk (world : World) : Prop where
  inv : Inv stored world.device
  pending : ∀ id call, world.device.calls id = some call → world.device.chain.pending id = true →
    distributionEpochFor groupOf world call.scope.channelId = some call.distributionEpoch
  rows : ∀ row ∈ world.device.table.rows, row.sentCount.isSome = true → Shared groupOf world row
  dated : ∀ id call, world.device.calls id = some call → Dated groupOf world call
  known : ∀ entry ∈ world.received, world.device.homes entry.1 ≠ none

variable {world : World} {call : Reservation} {id : Nat} {session : StoredGraineSession}
  {groupId : String} {group : Group} {next : Device} {action : GraineSession.Action}

theorem rotationOk_start {groups : String → Option Group} {received : List (String × String)}
    (h : StartOk groupOf stored groups received) :
    RotationOk groupOf stored ⟨.start stored, groups, received⟩ := by
  refine ⟨inv_start stored, by simp [start], h.shared, by simp [start], ?_⟩
  intro entry hentry
  obtain ⟨row, hrow, hsame, hcount⟩ := h.known entry hentry
  have hhome := GraineTable.homes_of_mem hrow hcount
  simp [start, ← hsame, hhome]

theorem dated_of_session_none (h : call.stage.session = none) : Dated groupOf world call := by
  obtain ⟨distributionEpoch, scope, stage⟩ := call
  cases stage with
  | distributing minted | saving slot => cases h
  | waiting | reading now | reserved slot | threw => trivial

/-- A reservation with a session in hand is running. -/
theorem pending_of_session {device : Device} (h : Inv stored device)
    (hid : device.calls id = some call)
    (hsession : call.stage.session = some session) : device.chain.pending id = true := by
  obtain ⟨task, htask, -, hrunning⟩ := (h.calls id call hid).task
  simp [Chain.pending, htask, hrunning (Stage.active_of_session hsession), Status.done]

theorem RotationOk.current_of_session (h : RotationOk groupOf stored world)
    (hid : world.device.calls id = some call) (hsession : call.stage.session = some session) :
    distributionEpochFor groupOf world call.scope.channelId = some call.distributionEpoch ∧
      session.channelId = call.scope.channelId := by
  have hpending := pending_of_session h.inv hid hsession
  exact ⟨h.pending id call hid hpending, ((h.inv.calls id call hid).home session hsession).2.1⟩

/-! ### The groups move -/

/-- Where no group's epoch falls and a changed one is past every session of it, what is shared
    stays shared. -/
theorem Shared.update (h : Shared groupOf world session)
    (hlater : groupOf session.channelId = groupId →
      ∀ epoch, session.distributionEpoch = some epoch → epoch < group.epoch) :
    Shared groupOf { world with groups := update world.groups groupId (some group) }
      session := by
  intro found hfound epoch hepoch
  rcases update_eq_some_iff.mp hfound with ⟨hsame, hnew⟩ | ⟨-, hold⟩
  · cases hnew
    have hlt := hlater hsame epoch hepoch
    exact ⟨le_of_lt hlt, fun heq => absurd heq (ne_of_lt hlt)⟩
  · exact h found hold epoch hepoch

theorem Dated.update (h : Dated groupOf world call)
    (hlater : ∀ slot, call.stage = .saving slot → groupOf slot.session.channelId = groupId →
      ∀ epoch, slot.session.distributionEpoch = some epoch → epoch < group.epoch) :
    Dated groupOf { world with groups := update world.groups groupId (some group) }
      call := by
  obtain ⟨distributionEpoch, scope, stage⟩ := call
  rcases stage.session_cases with ⟨minted, rfl⟩ | ⟨slot, rfl⟩ | hnone
  · exact h
  · exact ⟨h.1, h.2.update (hlater slot rfl)⟩
  · exact dated_of_session_none hnone

theorem RotationOk.setGroup (h : RotationOk groupOf stored world)
    (hidle : ∀ id call, world.device.calls id = some call →
      world.device.chain.pending id = true → groupOf call.scope.channelId ≠ groupId)
    (hrows : ∀ row ∈ world.device.table.rows, row.sentCount.isSome = true →
      groupOf row.channelId = groupId →
      ∀ epoch, row.distributionEpoch = some epoch → epoch < group.epoch) :
    RotationOk groupOf stored
      { world with groups := update world.groups groupId (some group) } := by
  refine ⟨h.inv, ?_, fun row hrow hcount => (h.rows row hrow hcount).update
    (hrows row hrow hcount), ?_, h.known⟩
  · intro id call hid hpending
    have hne := hidle id call hid hpending
    simpa [distributionEpochFor, hne] using h.pending id call hid hpending
  · intro id call hid
    refine (h.dated id call hid).update fun slot hstage hgroup => ?_
    -- a reservation that is saving is pending, and none of this group is
    have hsession : call.stage.session = some slot.session := by rw [hstage]; rfl
    have hchannel := ((h.inv.calls id call hid).home slot.session hsession).2.1
    rw [hchannel] at hgroup
    exact absurd hgroup (hidle id call hid (pending_of_session h.inv hid hsession))

/-! ### The device moves -/

theorem Dated.setDevice (h : Dated groupOf world call)
    (hrows : ∀ minted, call.stage = .distributing minted → ∀ row ∈ next.table.rows,
      row.sessionId = minted.sessionId → row.sentCount = none) :
    Dated groupOf { world with device := next } call := by
  obtain ⟨distributionEpoch, scope, stage⟩ := call
  rcases stage.session_cases with ⟨minted, rfl⟩ | ⟨slot, rfl⟩ | hnone
  · exact ⟨h.1, h.2.1, hrows minted rfl⟩
  · exact h
  · exact dated_of_session_none hnone

section

variable (h : RotationOk groupOf stored world)
include h

/-- A reservation that does not move keeps what it has in hand: a row that is new is not outbound,
    or of another session. -/
theorem RotationOk.dated_of_rows (hid : world.device.calls id = some call)
    (hrows : ∀ row ∈ next.table.rows, row ∈ world.device.table.rows ∨ row.sentCount = none ∨
      ∀ session, call.stage.session = some session → session.sessionId ≠ row.sessionId) :
    Dated groupOf { world with device := next } call := by
  have hdated := h.dated id call hid
  refine hdated.setDevice fun minted hstage row hrow hsame => ?_
  rw [Dated, hstage] at hdated
  rcases hrows row hrow with hold | hnone | hother
  · exact hdated.2.2 row hold hsame
  · exact hnone
  · exact absurd hsame.symm (hother minted (by rw [hstage]; rfl))

theorem RotationOk.dated_of_move (htable : next.table = world.device.table)
    (hcalls : next.calls = update world.device.calls id (some call))
    (hcall : Dated groupOf { world with device := next } call) :
    ∀ id call, next.calls id = some call → Dated groupOf { world with device := next } call := by
  exact forall_update hcalls hcall fun other found _ hold =>
    h.dated_of_rows hold fun row hrow => .inl (htable ▸ hrow)

section

variable (hstep : GraineSession.step toLowerCase toBase64 localeLe world.device action = some next)
include hstep

theorem RotationOk.dated_step (hdistribute : ∀ id, action ≠ .distribute id) :
    ∀ id call, next.calls id = some call → Dated groupOf { world with device := next } call := by
  have hsame : next.table = world.device.table → next.calls = world.device.calls →
      ∀ id call, next.calls id = some call → Dated groupOf { world with device := next } call := by
    intro htable hcalls id call hid
    rw [hcalls] at hid
    exact h.dated_of_rows hid fun row hrow => .inl (htable ▸ hrow)
  cases (step_spec hstep).effect with
  | none htable hcalls | dropped frame stage hclosed htable hcalls => exact hsame htable hcalls
  | moved id call hsession htable hcalls =>
    exact h.dated_of_move htable hcalls (dated_of_session_none hsession)
  | continued id call current count hid hcurrent hcount hepoch htable hcalls =>
    refine h.dated_of_move htable hcalls ⟨hepoch, ?_⟩
    exact h.rows current hcurrent (by simp [hcount])
  | minted id call now readable sessionId seedB64 minted haction hid hreading hdecide hfresh htable
      hcalls =>
      refine h.dated_of_move htable hcalls ⟨(decideSlot_distributing hdecide).2.1, ?_, ?_⟩
      · intro member hmember
        exact h.known _ hmember hfresh
      · intro row hrow hsame
        rw [htable] at hrow
        exact h.inv.inbound_of_fresh hrow (hsame ▸ hfresh)
  | distributed id call minted haction => exact absurd haction (hdistribute id)
  | saved id call after slot haction hid hstage hafter htable hcalls =>
    refine forall_update hcalls (dated_of_session_none hafter) fun other found hne hold => ?_
    refine h.dated_of_rows hold fun row hrow => ?_
    rw [htable] at hrow
    rcases mem_put.mp hrow with rfl | ⟨hbefore, -⟩
    · exact .inr (.inr fun session => h.inv.session_ne hid hold hne (by rw [hstage]; rfl))
    · exact .inl hbefore
  | received frame workspaceId senderId seed haction hformed htable hcalls =>
    exact hsame htable hcalls
  | looked frame readable now workspaceId senderId seed session haction hframe hdecide htable
      hcalls => exact hsame htable hcalls
  | stored frame session stage haction hframe hclosed htable hcalls =>
    intro other found hother
    rw [hcalls] at hother
    refine h.dated_of_rows hother fun row hrow => ?_
    rw [htable] at hrow
    rcases mem_put.mp hrow with rfl | ⟨hbefore, -⟩
    · exact .inr (.inl (h.inv.seeds frame _ hframe))
    · exact .inl hbefore

theorem RotationOk.rows_step :
    ∀ row ∈ next.table.rows, row.sentCount.isSome = true → Shared groupOf world row := by
  intro row hrow hcount
  rcases table_of_step hstep with htable | ⟨id, call, slot, -, hid, hstage, htable⟩ |
    ⟨frame, session, -, hframe, htable⟩
  · rw [htable] at hrow
    exact h.rows row hrow hcount
  · rw [htable] at hrow
    rcases mem_put.mp hrow with rfl | ⟨hold, -⟩
    · have hdated := h.dated id call hid
      rw [Dated, hstage] at hdated
      exact hdated.2
    · exact h.rows row hold hcount
  · rw [htable] at hrow
    rcases mem_put.mp hrow with rfl | ⟨hold, -⟩
    · simp [h.inv.seeds frame row hframe] at hcount
    · exact h.rows row hold hcount

variable (hreserve : ∀ epoch workspaceId channelId senderId distributionEpoch,
    action = .reserve epoch workspaceId channelId senderId →
    epoch.integer = some (.ofNat distributionEpoch) →
    distributionEpochFor groupOf world channelId = some distributionEpoch)
include hreserve

theorem RotationOk.pending_step :
    ∀ id call, next.calls id = some call → next.chain.pending id = true →
      distributionEpochFor groupOf world call.scope.channelId = some call.distributionEpoch := by
  intro id call hid hpending
  rcases (step_spec hstep).awaited id call hid hpending with
    ⟨before, hbefore, hwas, hepoch, hscope⟩ |
    ⟨epoch, workspaceId, channelId, senderId, distributionEpoch, haction, hinteger, hepoch,
      hchannel⟩
  · rw [hepoch, hscope]
    exact h.pending id before hbefore hwas
  · rw [hepoch, hchannel]
    exact hreserve epoch workspaceId channelId senderId distributionEpoch haction hinteger

theorem RotationOk.device_step (hdistribute : ∀ id, action ≠ .distribute id) :
    RotationOk groupOf stored { world with device := next } where
  inv := h.inv.step hstep
  pending := h.pending_step hstep hreserve
  rows := h.rows_step hstep
  dated := h.dated_step hstep hdistribute
  known entry hentry := (step_spec hstep).homes _ (h.known entry hentry)

end

end

/-- A seed goes to the roster: no other session has its id. -/
theorem Shared.distribute (h : Shared groupOf world session) {sessionId : String}
    (hne : session.sessionId ≠ sessionId) (next : Device) (roster : List String) :
    Shared groupOf { world with
      device := next
      received := world.received ++ roster.map fun member => (sessionId, member) } session := by
  intro group hgroup epoch hepoch
  obtain ⟨hle, hroster⟩ := h group hgroup epoch hepoch
  refine ⟨hle, fun heq member hmember => hroster heq member ?_⟩
  rcases mem_append.mp hmember with hold | hnew
  · exact hold
  · obtain ⟨other, -, hpair⟩ := mem_map.mp hnew
    exact absurd (congrArg Prod.fst hpair).symm hne

theorem Dated.distribute (h : Dated groupOf world call) {sessionId : String}
    (hne : ∀ session, call.stage.session = some session → session.sessionId ≠ sessionId)
    (htable : next.table = world.device.table) (roster : List String) :
    Dated groupOf { world with
      device := next
      received := world.received ++ roster.map fun member => (sessionId, member) } call := by
  obtain ⟨distributionEpoch, scope, stage⟩ := call
  rcases stage.session_cases with ⟨minted, rfl⟩ | ⟨slot, rfl⟩ | hnone
  · refine ⟨h.1, ?_, by simpa only [htable] using h.2.2⟩
    intro member hmember
    rcases mem_append.mp hmember with hold | hnew
    · exact h.2.1 member hold
    · obtain ⟨other, -, hpair⟩ := mem_map.mp hnew
      exact hne minted rfl (congrArg Prod.fst hpair).symm
  · exact ⟨h.1, h.2.distribute (hne slot.session rfl) next roster⟩
  · exact dated_of_session_none hnone

/-- The seed of a minted session goes out to the roster of its epoch. -/
theorem RotationOk.distribute_step (h : RotationOk groupOf stored world)
    {minted : StoredGraineSession}
    (hid : world.device.calls id = some call) (hstage : call.stage = .distributing minted)
    (hgroup : world.groups (groupOf call.scope.channelId) = some group)
    (hstep : GraineSession.step toLowerCase toBase64 localeLe world.device (.distribute id) =
      some next) :
    RotationOk groupOf stored { world with
      device := next
      received := world.received ++
        group.roster.map fun member => (minted.sessionId, member) } := by
  have hsession : call.stage.session = some minted := by rw [hstage]; rfl
  have hdated := h.dated id call hid
  rw [Dated, hstage] at hdated
  obtain ⟨hepoch, hunsent, hinbound⟩ := hdated
  obtain ⟨hcurrent, hchannel⟩ := h.current_of_session hid hsession
  have htable : next.table = world.device.table ∧ next.calls = update world.device.calls id
      (some { call with stage := .saving ⟨{ minted with sentCount := some 1 }, 0, true⟩ }) := by
    obtain ⟨distributionEpoch, scope, stage⟩ := call
    subst hstage
    simp only [GraineSession.step, hid] at hstep
    cases hstep
    exact ⟨rfl, rfl⟩
  obtain ⟨htable, hcalls⟩ := htable
  refine ⟨h.inv.step hstep, h.pending_step hstep ?_, ?_, ?_, ?_⟩
  · rintro _ _ _ _ _ ⟨⟩
  · intro row hrow hcount
    rw [htable] at hrow
    refine (h.rows row hrow hcount).distribute (fun hsame => ?_) next group.roster
    simp [hinbound row hrow hsame] at hcount
  · refine forall_update hcalls ?_ fun other found hne hold => ?_
    · refine ⟨hepoch, ?_⟩
      intro found hfound epoch hminted
      -- the group is the one whose epoch the reservation was called with
      have hfound' : world.groups (groupOf minted.channelId) = some found := hfound
      rw [hchannel, hgroup] at hfound'
      cases hfound'
      rw [distributionEpochFor, hgroup] at hcurrent
      have hcaptured : group.epoch = call.distributionEpoch := some.inj hcurrent
      have hrecorded : call.distributionEpoch = epoch := some.inj (hepoch.symm.trans hminted)
      refine ⟨by omega, fun _ member hmember => ?_⟩
      rcases mem_append.mp hmember with hsent | hnew
      · exact absurd hsent (hunsent member)
      · obtain ⟨other, hother, hpair⟩ := mem_map.mp hnew
        cases hpair
        exact hother
    · exact (h.dated other found hold).distribute
        (fun session hfound => h.inv.session_ne hid hold hne hsession hfound) htable group.roster
  · intro entry hentry
    refine (step_spec hstep).homes _ ?_
    rcases mem_append.mp hentry with hold | hnew
    · exact h.known entry hold
    · obtain ⟨member, -, rfl⟩ := mem_map.mp hnew
      have hhome := ((h.inv.calls id call hid).home minted hsession).1
      simp [hhome.symm ▸ some_ne_none _]

protected theorem RotationOk.step {next : World} {action : Action}
    (h : RotationOk groupOf stored world) (hunmoved : Unmoved groupOf world action)
    (hstep : step toLowerCase toBase64 localeLe groupOf world action = some next) :
    RotationOk groupOf stored next := by
  cases action with simp only [step] at hstep
  | sealChannelMessage workspaceId channelId senderId =>
    split at hstep
    · cases hstep
      exact h
    next epoch hepoch =>
      obtain ⟨device, hdevice, rfl⟩ := map_eq_some_iff.mp hstep
      refine h.device_step hdevice ?_ (by simp)
      rintro _ _ _ _ distributionEpoch ⟨⟩ hinteger
      cases hinteger
      exact hepoch
  | device action =>
    rcases step_device hstep with
      ⟨id, call, minted, group, device, -, hid, hstage, hgroup, hdevice, rfl⟩ |
      ⟨device, hdevice, rfl, hdistribute, hreserve⟩
    · exact h.distribute_step hid hstage hgroup hdevice
    · refine h.device_step hdevice ?_ hdistribute
      intro epoch workspaceId channelId senderId _ haction
      exact absurd haction (hreserve epoch workspaceId channelId senderId)
  | commit groupId roster =>
    split at hstep
    next group hgroup =>
      cases hstep
      refine h.setGroup hunmoved fun row hrow hcount hsame epoch hepoch => ?_
      have hle := (h.rows row hrow hcount group (hsame ▸ hgroup) epoch hepoch).1
      exact Nat.lt_succ_of_le hle
    · cases hstep
  | join groupId group =>
    split at hstep
    · cases hstep
    next habsent =>
      cases hstep
      refine h.setGroup (fun id call hid hpending hsame => ?_) hunmoved
      have hepoch := h.pending id call hid hpending
      rw [distributionEpochFor, hsame, habsent] at hepoch
      cases hepoch

/-! ## 4. Results -/

/-- **A session is used at its epoch only.**  As long as no commit is applied to a group while
    a message of it awaits its place, at the moment a place is returned the session records the
    epoch the group is at, and everyone who was sent its seed is on the group's roster. -/
theorem place_of_current_roster {groups : String → Option Group}
    {received : List (String × String)} (hstart : StartOk groupOf stored groups received)
    {actions : List Action} {world next : World}
    (hunmoved : EachStep (step toLowerCase toBase64 localeLe groupOf) (Unmoved groupOf)
      ⟨.start stored, groups, received⟩ actions)
    (hrun : run (step toLowerCase toBase64 localeLe groupOf) ⟨.start stored, groups, received⟩
      actions = some world)
    {id : Nat} {call : Reservation} {slot : GraineOutboundSlot}
    (hid : world.device.calls id = some call) (hstage : call.stage = .saving slot)
    (hsave : step toLowerCase toBase64 localeLe groupOf world (.device (.save id)) = some next) :
    next.device.calls id = some { call with stage := .reserved slot } ∧
      ∃ group, next.groups (groupOf slot.session.channelId) = some group ∧
        slot.session.distributionEpoch = some group.epoch ∧
        ∀ member, (slot.session.sessionId, member) ∈ next.received → member ∈ group.roster := by
  have h : RotationOk groupOf stored world :=
    run_invariant (fun h hok hstep => RotationOk.step h hok hstep) (rotationOk_start hstart)
      hunmoved hrun
  obtain ⟨hcurrent, hchannel⟩ := h.current_of_session hid (by rw [hstage]; rfl)
  have hdated := h.dated id call hid
  rw [Dated, hstage] at hdated
  obtain ⟨hepoch, hshared⟩ := hdated
  obtain ⟨distributionEpoch, scope, stage⟩ := call
  subst hstage
  obtain ⟨device, hdevice, rfl⟩ := map_eq_some_iff.mp hsave
  simp only [GraineSession.step, hid] at hdevice
  obtain ⟨chain, -, rfl⟩ := map_eq_some_iff.mp hdevice
  obtain ⟨group, hgroup, hsame⟩ := map_eq_some_iff.mp hcurrent
  rw [← hchannel] at hgroup
  have hrecorded : slot.session.distributionEpoch = some group.epoch := by
    rw [hsame]
    exact hepoch
  refine ⟨?_, group, hgroup, hrecorded, ?_⟩
  · simp [Device.set]
  · exact (hshared group hgroup group.epoch hrecorded).2 rfl

end Invariant

/-- The group of the examples: two members at epoch 1. -/
def promoGroups (_ : String) : Option Group := some ⟨1, ["ada", "eve"]⟩

def noSessions : GraineTable := ⟨[], nodup_nil⟩

def promoStep : World → Action → Option World :=
  step (fun text => text) (fun _ => "") (fun _ _ => true) (fun channelId => channelId)

/-- One message from its call to the moment before its save, under a session minted for it. -/
def firstMessage : List Action :=
  [.sealChannelMessage "promo" "salon" "ada", .device (.start 0 0),
   .device (.read 0 (fun _ => true) "s" "seed"), .device (.distribute 0)]

/-- The first message is saved, a commit removes a member, and a second message is sent. -/
def messageAfterCommit : List Action :=
  firstMessage ++ [.device (.save 0), .commit "salon" ["ada"],
    .sealChannelMessage "promo" "salon" "ada", .device (.start 1 1),
    .device (.read 1 (fun _ => true) "t" "other"), .device (.distribute 1)]

/-- The second message takes the place 0 of a session minted at epoch 2. -/
theorem place_of_current_roster_second :
    ∃ (world next : World) (slot : GraineOutboundSlot),
      run promoStep ⟨.start noSessions, promoGroups, []⟩ messageAfterCommit = some world ∧
      promoStep world (.device (.save 1)) = some next ∧
      (next.device.calls 1).map Reservation.stage = some (.reserved slot) ∧
      slot.session.sessionId = "t" ∧
      ∃ group, next.groups slot.session.channelId = some group ∧
        slot.session.distributionEpoch = some group.epoch ∧
        ∀ member, (slot.session.sessionId, member) ∈ next.received → member ∈ group.roster := by
  obtain ⟨world, hrun⟩ : ∃ world, run promoStep ⟨.start noSessions, promoGroups, []⟩
      messageAfterCommit = some world := ⟨_, rfl⟩
  obtain ⟨next, hsave⟩ : ∃ next, promoStep world (.device (.save 1)) = some next := by
    cases hrun
    exact ⟨_, rfl⟩
  obtain ⟨call, slot, hid, hstage, hsession⟩ : ∃ call slot, world.device.calls 1 = some call ∧
      call.stage = .saving slot ∧ slot.session.sessionId = "t" := by
    cases hrun
    exact ⟨_, _, rfl, rfl, rfl⟩
  have hstart : StartOk (fun channelId => channelId) noSessions promoGroups [] :=
    ⟨by simp [noSessions], by simp⟩
  have hunmoved : EachStep promoStep (Unmoved (fun channelId => channelId))
      ⟨.start noSessions, promoGroups, []⟩ messageAfterCommit := by
    refine .cons trivial rfl (.cons trivial rfl (.cons trivial rfl (.cons trivial rfl ?_)))
    refine .cons trivial rfl (.cons ?_ rfl ?_)
    · -- the first message has its place
      rintro (_ | id) call hcall hpending
      · cases hpending
      · cases hcall
    exact .cons trivial rfl (.cons trivial rfl (.cons trivial rfl (.cons trivial rfl trivial)))
  obtain ⟨hreserved, hcurrent⟩ := place_of_current_roster hstart hunmoved hrun hid hstage hsave
  exact ⟨world, next, slot, hrun, hsave, by rw [hreserved]; rfl, hsession, hcurrent⟩

/-- A second message reads epoch 1 and joins the chain; the commit that removes a member is
    applied; the reservation then compares with epoch 1 and continues the session whose seed
    that member was sent. -/
theorem stale_epoch_keeps_session :
    (run promoStep ⟨.start noSessions, promoGroups, []⟩
        (firstMessage ++ [.device (.save 0), .sealChannelMessage "promo" "salon" "ada",
          .commit "salon" ["ada"], .device (.start 1 1),
          .device (.read 1 (fun _ => true) "t" "other"), .device (.save 1)])).map
      (fun world => (world.groups "salon", (world.device.calls 1).map Reservation.stage,
        world.received)) =
      some (some ⟨2, ["ada"]⟩,
        some (.reserved ⟨⟨"promo", "salon", "s", "ada", "seed", 0, 0, some 2, some 1⟩, 1, false⟩),
        [("s", "ada"), ("s", "eve")]) := by
  decide

end MinesApp.RosterRotation
