import MinesApp.GraineSession

/-!
# Held seeds

A seed that a device holds is read again at every message of its session, so what the row says
must stay: its seed, its channel and its community are never replaced, the first index it
opens only falls, and a session minted here keeps its count.

`storeIncomingSeed` looks for the row, awaits, and then saves what the frame said.  Two things
can therefore go wrong, and each is excluded by a condition of its own.  A frame that lowers
the floor replaces the whole row, so its other fields must be those of the session
(`Truthful`).  A row read before another call wrote it is out of date when it is saved
(`Apart`).
-/

namespace MinesApp.GraineSession

open TransitionSystem PromiseChain Function Option Device List

/-! ## 1. What a step does to the table, the reservations and the frames -/

/-- The handling of the frame is over. -/
def SeedStage.closed : SeedStage → Bool
  | .held | .ignored | .threw => true
  | _ => false

variable {session row : StoredGraineSession}

section Effects

variable (toLowerCase : String → String) (toBase64 : List UInt8 → String)
  (localeLe : String → String → Bool)

inductive Effect (device next : Device) (action : Action) : Prop where
  | none (htable : next.table = device.table) (hcalls : next.calls = device.calls)
      (hseeds : next.seeds = device.seeds)
  /-- A reservation moves and works on no session, or not any more. -/
  | moved (id : Nat) (call : Reservation) (hsession : call.stage.session = .none)
      (htable : next.table = device.table)
      (hcalls : next.calls = update device.calls id (some call))
      (hseeds : next.seeds = device.seeds)
  | continued (id : Nat) (call : Reservation) (current : StoredGraineSession) (count : Nat)
      (hid : device.calls id = some call) (hcurrent : current ∈ device.table.rows)
      (hcount : current.sentCount = some count)
      (hepoch : current.distributionEpoch = some call.distributionEpoch)
      (htable : next.table = device.table)
      (hcalls : next.calls = update device.calls id (some { call with
        stage := .saving ⟨{ current with sentCount := some (count + 1) },
          current.firstIndex + count, false⟩ }))
      (hseeds : next.seeds = device.seeds)
  | minted (id : Nat) (call : Reservation) (now : Int) (readable : String → Bool)
      (sessionId seedB64 : String) (minted : StoredGraineSession)
      (haction : action = .read id readable sessionId seedB64)
      (hid : device.calls id = some call) (hreading : call.stage = .reading now)
      (hdecide : decideSlot (device.table.getGraineSessions localeLe call.scope.channelId readable)
        call now sessionId seedB64 = .distributing minted)
      (hfresh : device.homes minted.sessionId = .none)
      (htable : next.table = device.table)
      (hcalls : next.calls =
        update device.calls id (some { call with stage := .distributing minted }))
      (hseeds : next.seeds = device.seeds)
  | distributed (id : Nat) (call : Reservation) (minted : StoredGraineSession)
      (haction : action = .distribute id)
      (hid : device.calls id = some call) (hstage : call.stage = .distributing minted)
      (htable : next.table = device.table)
      (hcalls : next.calls = update device.calls id
        (some { call with stage := .saving ⟨{ minted with sentCount := some 1 }, 0, true⟩ }))
      (hseeds : next.seeds = device.seeds)
  | saved (id : Nat) (call after : Reservation) (slot : GraineOutboundSlot)
      (haction : action = .save id ∨ action = .reject id true)
      (hid : device.calls id = some call) (hstage : call.stage = .saving slot)
      (hafter : after.stage.session = .none)
      (htable : next.table = device.table.put slot.session)
      (hcalls : next.calls = update device.calls id (some after))
      (hseeds : next.seeds = device.seeds)
  | received (frame : Nat) (workspaceId senderId : String) (seed : Seed)
      (haction : action = .incoming frame workspaceId senderId seed)
      (hformed : malformed seed = false)
      (htable : next.table = device.table) (hcalls : next.calls = device.calls)
      (hseeds : next.seeds = update device.seeds frame (some (.looking workspaceId senderId seed)))
  | dropped (frame : Nat) (stage : SeedStage) (hclosed : stage.closed = true)
      (htable : next.table = device.table) (hcalls : next.calls = device.calls)
      (hseeds : next.seeds = update device.seeds frame (some stage))
  | looked (frame : Nat) (readable : String → Bool) (now : Int) (workspaceId senderId : String)
      (seed : Seed) (session : StoredGraineSession)
      (haction : action = .look frame readable now)
      (hframe : device.seeds frame = some (.looking workspaceId senderId seed))
      (hdecide : decideSeed toLowerCase toBase64
        (device.table.getGraineSession seed.sessionId readable) workspaceId senderId seed now =
          .storing session)
      (htable : next.table = device.table) (hcalls : next.calls = device.calls)
      (hseeds : next.seeds = update device.seeds frame (some (.storing session)))
  | stored (frame : Nat) (session : StoredGraineSession) (stage : SeedStage)
      (haction : action = .store frame ∨ action = .rejectSeed frame true)
      (hframe : device.seeds frame = some (.storing session)) (hclosed : stage.closed = true)
      (htable : next.table = device.table.put session) (hcalls : next.calls = device.calls)
      (hseeds : next.seeds = update device.seeds frame (some stage))

variable {toLowerCase toBase64 localeLe} {now : Int} {call : Reservation}
  {sessionId seedB64 : String} {device next : Device} {workspaceId senderId : String} {seed : Seed}
  {sessions : List StoredGraineSession} {readable : String → Bool} {action : Action}

/-- What `storeIncomingSeed` decides to save holds the frame's fields and no count. -/
theorem decideSeed_storing {existing : Option StoredGraineSession}
    (h : decideSeed toLowerCase toBase64 existing workspaceId senderId seed now =
      .storing session) :
    session.sessionId = seed.sessionId ∧ session.firstIndex = seed.firstIndex ∧
      session.seedB64 = toBase64 seed.seed ∧ session.channelId = seed.channelId ∧
      session.workspaceId = workspaceId ∧
      ∀ row, existing = some row → row.sentCount = none ∧ seed.firstIndex < row.firstIndex := by
  unfold decideSeed at h
  simp only at h
  split at h
  next row =>
    split at h
    · cases h
    next hinbound =>
      split at h
      · cases h
      next hlower =>
        cases h
        refine ⟨rfl, rfl, rfl, rfl, rfl, ?_⟩
        rintro _ ⟨⟩
        exact ⟨by simpa using hinbound, Nat.lt_of_not_le hlower⟩
  · cases h
    exact ⟨rfl, rfl, rfl, rfl, rfl, by simp⟩

/-- A session goes on only at the epoch it was minted at. -/
theorem decideSlot_saving {slot : GraineOutboundSlot}
    (h : decideSlot sessions call now sessionId seedB64 = .saving slot) :
    slot.session.distributionEpoch = some call.distributionEpoch := by
  unfold decideSlot at h
  simp only at h
  split at h
  next current hreason hcurrent =>
    cases h
    rw [hcurrent] at hreason
    unfold graineRotationReason at hreason
    simp only at hreason
    split at hreason
    · cases hreason
    next hepoch => exact not_not.mp hepoch
  · cases h

theorem decideSlot_distributing {minted : StoredGraineSession}
    (h : decideSlot sessions call now sessionId seedB64 = .distributing minted) :
    minted.firstIndex = 0 ∧ minted.distributionEpoch = some call.distributionEpoch ∧
      minted.channelId = call.scope.channelId := by
  unfold decideSlot at h
  simp only at h
  split at h
  · cases h
  cases h
  exact ⟨rfl, rfl, rfl⟩

/-- A pending reservation was pending before, for the same message, or is new. -/
def Awaited (device next : Device) (action : Action) : Prop :=
  ∀ id call, next.calls id = some call → next.chain.pending id = true →
    (∃ before, device.calls id = some before ∧ device.chain.pending id = true ∧
      call.distributionEpoch = before.distributionEpoch ∧ call.scope = before.scope) ∨
    ∃ epoch workspaceId channelId senderId distributionEpoch,
      action = .reserve epoch workspaceId channelId senderId ∧
      epoch.integer = some (.ofNat distributionEpoch) ∧
      call.distributionEpoch = distributionEpoch ∧ call.scope.channelId = channelId

/-- What a step does: its effect, an id that is outbound here keeps its home, and who waits. -/
structure StepSpec (toLowerCase : String → String) (toBase64 : List UInt8 → String)
    (localeLe : String → String → Bool) (device next : Device) (action : Action) : Prop where
  effect : Effect toLowerCase toBase64 localeLe device next action
  homes : ∀ sessionId, device.homes sessionId ≠ none → next.homes sessionId ≠ none
  awaited : Awaited device next action

section

variable {id : Nat} {stage : Stage}
  (hchain : ∀ other, next.chain.pending other = true → device.chain.pending other = true)
include hchain

/-- A step of a reservation that was there. -/
theorem awaited_of_stage (hid : device.calls id = some call)
    (hcalls : next.calls = update device.calls id (some { call with stage })) :
    Awaited device next action := by
  intro other found hother hpending
  rw [hcalls] at hother
  rcases update_eq_some_iff.mp hother with ⟨rfl, hsame⟩ | ⟨-, hold⟩
  · cases hsame
    exact .inl ⟨call, hid, hchain _ hpending, rfl, rfl⟩
  · exact .inl ⟨found, hold, hchain _ hpending, rfl, rfl⟩

section

variable (h : Effect toLowerCase toBase64 localeLe device next action)
include h

theorem Effect.ofStage (hhomes : next.homes = device.homes) (hid : device.calls id = some call)
    (hcalls : next.calls = update device.calls id (some { call with stage })) :
    StepSpec toLowerCase toBase64 localeLe device next action :=
  ⟨h, fun _ hhome => hhomes ▸ hhome, awaited_of_stage hchain hid hcalls⟩

theorem Effect.ofQuiet (hhomes : next.homes = device.homes) (hcalls : next.calls = device.calls) :
    StepSpec toLowerCase toBase64 localeLe device next action :=
  ⟨h, fun _ hhome => hhomes ▸ hhome, fun _ found hid hpending =>
    .inl ⟨found, hcalls ▸ hid, hchain _ hpending, rfl, rfl⟩⟩

end

end

theorem spec_of_read {id : Nat}
    (hid : device.calls id = some call) (hreading : call.stage = .reading now)
    (h : resumeRead localeLe device id call readable sessionId seedB64 now = some next) :
    StepSpec toLowerCase toBase64 localeLe device next (.read id readable sessionId seedB64) := by
  rcases decideSlot_cases device.table localeLe call readable now sessionId seedB64 with
    ⟨current, count, hrow, -, -, hcount, hdecide⟩ | ⟨minted, hsession, -, -, hdecide⟩
  · simp only [resumeRead, hdecide, some.injEq] at h
    subst h
    exact Effect.ofStage (fun _ h => h)
      (.continued id call current count hid hrow hcount (decideSlot_saving hdecide) rfl rfl rfl)
      rfl hid rfl
  · simp only [resumeRead, hdecide] at h
    split at h
    · cases h
    next hfresh =>
      cases h
      refine ⟨.minted id call now readable sessionId seedB64 minted rfl hid hreading hdecide
        (hsession ▸ hfresh) rfl rfl rfl, fun other hhome => ?_,
        awaited_of_stage (fun _ h => h) hid rfl⟩
      by_cases hsame : other = sessionId
      · simp [Device.set, hsame]
      · simpa [Device.set, hsame] using hhome

theorem effect_of_look {frame : Nat}
    (hframe : device.seeds frame = some (.looking workspaceId senderId seed)) :
    Effect toLowerCase toBase64 localeLe device (device.setSeed frame (decideSeed toLowerCase
      toBase64 (device.table.getGraineSession seed.sessionId readable) workspaceId senderId seed
      now)) (.look frame readable now) := by
  generalize hdecide : decideSeed toLowerCase toBase64
    (device.table.getGraineSession seed.sessionId readable) workspaceId senderId seed now = stage
  cases stage with
  | storing session =>
    exact .looked frame readable now workspaceId senderId seed session rfl hframe hdecide rfl rfl
      rfl
  | held => exact .dropped frame .held rfl rfl rfl rfl
  | ignored => exact .dropped frame .ignored rfl rfl rfl rfl
  | threw => exact .dropped frame .threw rfl rfl rfl rfl
  | looking workspace sender found =>
    unfold decideSeed at hdecide
    repeat' split at hdecide
    all_goals cases hdecide

section

variable (hstep : step toLowerCase toBase64 localeLe device action = some next)
include hstep

theorem step_spec : StepSpec toLowerCase toBase64 localeLe device next action := by
  cases action with simp only [step] at hstep
  | reserve epoch workspaceId channelId senderId =>
    split at hstep
    next distributionEpoch hepoch =>
      cases hstep
      refine ⟨.moved _ _ rfl rfl rfl rfl, fun _ h => h, fun id call hid hpending => ?_⟩
      rcases update_eq_some_iff.mp hid with ⟨-, hsame⟩ | ⟨hne, hold⟩
      · cases hsame
        exact .inr ⟨epoch, workspaceId, channelId, senderId, distributionEpoch, rfl, hepoch, rfl,
          rfl⟩
      · exact .inl ⟨call, hold, (pending_of_enqueue hpending).resolve_left hne, rfl, rfl⟩
    · cases hstep
      exact Effect.ofQuiet (fun _ h => h) (.none rfl rfl rfl) rfl rfl
  | start id now =>
    split at hstep
    next hid =>
      obtain ⟨chain, hstart, rfl⟩ := map_eq_some_iff.mp hstep
      exact Effect.ofStage (fun _ => pending_of_start hstart) (.moved id _ rfl rfl rfl rfl) rfl hid
        rfl
    · cases hstep
  | read id readable sessionId seedB64 =>
    split at hstep
    next hid => exact spec_of_read hid rfl hstep
    · cases hstep
  | distribute id =>
    split at hstep
    next hid =>
      cases hstep
      exact Effect.ofStage (fun _ h => h) (.distributed id _ _ rfl hid rfl rfl rfl rfl) rfl hid rfl
    · cases hstep
  | save id =>
    split at hstep
    next hid =>
      obtain ⟨chain, hsettle, rfl⟩ := map_eq_some_iff.mp hstep
      exact Effect.ofStage (fun _ => pending_of_settle hsettle)
        (.saved id _ _ _ (.inl rfl) hid rfl rfl rfl rfl rfl) rfl hid rfl
    · cases hstep
  | reject id applied =>
    split at hstep
    next hid =>
      obtain ⟨chain, hsettle, rfl⟩ := map_eq_some_iff.mp hstep
      cases applied with
      | false =>
        exact Effect.ofStage (fun _ => pending_of_settle hsettle) (.moved id _ rfl rfl rfl rfl) rfl
          hid rfl
      | true =>
        exact Effect.ofStage (fun _ => pending_of_settle hsettle)
          (.saved id _ _ _ (.inr rfl) hid rfl rfl rfl rfl rfl) rfl hid rfl
    next hid =>
      obtain ⟨chain, hsettle, rfl⟩ := map_eq_some_iff.mp hstep
      exact Effect.ofStage (fun _ => pending_of_settle hsettle) (.moved id _ rfl rfl rfl rfl) rfl
        hid rfl
    · cases hstep
  | cleanUp id =>
    obtain ⟨chain, hclean, rfl⟩ := map_eq_some_iff.mp hstep
    exact Effect.ofQuiet (fun _ => pending_of_cleanUp hclean) (.none rfl rfl rfl) rfl rfl
  | incoming frame workspaceId senderId seed =>
    split at hstep
    · cases hstep
    cases hstep
    refine Effect.ofQuiet (fun _ h => h) ?_ rfl rfl
    cases hformed : malformed seed with
    | true => exact .dropped frame .ignored rfl rfl rfl (by simp [setSeed])
    | false => exact .received frame _ _ _ rfl hformed rfl rfl (by simp [setSeed])
  | look frame readable now =>
    split at hstep
    next hframe =>
      cases hstep
      exact Effect.ofQuiet (fun _ h => h) (effect_of_look hframe) rfl rfl
    · cases hstep
  | store frame =>
    split at hstep
    next session hframe =>
      cases hstep
      exact Effect.ofQuiet (fun _ h => h)
        (.stored frame session .held (.inl rfl) hframe rfl rfl rfl rfl) rfl rfl
    · cases hstep
  | rejectSeed frame applied =>
    split at hstep
    · cases hstep
      exact Effect.ofQuiet (fun _ h => h) (.dropped frame .threw rfl rfl rfl rfl) rfl rfl
    next session hframe =>
      cases hstep
      cases applied with
      | false => exact Effect.ofQuiet (fun _ h => h) (.dropped frame .threw rfl rfl rfl rfl) rfl rfl
      | true =>
        exact Effect.ofQuiet (fun _ h => h)
          (.stored frame session .threw (.inr rfl) hframe rfl rfl rfl rfl) rfl rfl
    · cases hstep

theorem table_of_step : next.table = device.table ∨
    (∃ id call slot, (action = .save id ∨ action = .reject id true) ∧
      device.calls id = some call ∧ call.stage = .saving slot ∧
      next.table = device.table.put slot.session) ∨
    ∃ frame session, (action = .store frame ∨ action = .rejectSeed frame true) ∧
      device.seeds frame = some (.storing session) ∧ next.table = device.table.put session := by
  cases (step_spec hstep).effect with
  | none htable | moved _ _ _ htable | continued _ _ _ _ _ _ _ _ htable
  | minted _ _ _ _ _ _ _ _ _ _ _ _ htable | distributed _ _ _ _ _ _ htable
  | received _ _ _ _ _ _ htable | dropped _ _ _ htable | looked _ _ _ _ _ _ _ _ _ _ htable =>
    exact .inl htable
  | saved id call _ slot haction hid hstage _ htable =>
    exact .inr (.inl ⟨id, call, slot, haction, hid, hstage, htable⟩)
  | stored frame session _ haction hframe _ htable =>
    exact .inr (.inr ⟨frame, session, haction, hframe, htable⟩)

end

end Effects

/-! ## 2. Rows -/

variable {table : GraineTable}

theorem mem_put : row ∈ (table.put session).rows ↔
      row = session ∨ row ∈ table.rows ∧ row.sessionId ≠ session.sessionId := by
  simp [GraineTable.put]

theorem GraineTable.eq_of_sessionId (table : GraineTable) {first second : StoredGraineSession}
    (hfirst : first ∈ table.rows) (hsecond : second ∈ table.rows)
    (hsame : first.sessionId = second.sessionId) : first = second :=
  inj_on_of_nodup_map table.keyed hfirst hsecond hsame

/-- The rows of one table are found again in another, by id and in the relation. -/
def RowsRelate (rel : StoredGraineSession → StoredGraineSession → Prop)
    (table after : GraineTable) : Prop :=
  ∀ row ∈ table.rows, ∃ found ∈ after.rows, found.sessionId = row.sessionId ∧ rel row found

variable {rel : StoredGraineSession → StoredGraineSession → Prop}

theorem RowsRelate.refl (hrefl : ∀ row, rel row row) (table : GraineTable) :
    RowsRelate rel table table :=
  fun row hrow => ⟨row, hrow, rfl, hrefl row⟩

theorem RowsRelate.trans
    (htrans : ∀ first second third, rel first second → rel second third → rel first third)
    {first second third : GraineTable} (h : RowsRelate rel first second)
    (h' : RowsRelate rel second third) : RowsRelate rel first third := by
  intro row hrow
  obtain ⟨middle, hmiddle, hid, hrel⟩ := h row hrow
  obtain ⟨found, hfound, hid', hrel'⟩ := h' middle hmiddle
  exact ⟨found, hfound, hid'.trans hid, htrans _ _ _ hrel hrel'⟩

/-- A save relates the tables around it when it relates the row that it replaces, if any. -/
theorem RowsRelate.put (hrefl : ∀ row, rel row row)
    (h : ∀ row ∈ table.rows, row.sessionId = session.sessionId → rel row session) :
    RowsRelate rel table (table.put session) := by
  intro row hrow
  by_cases hsame : row.sessionId = session.sessionId
  · exact ⟨session, mem_put.mpr (.inl rfl), hsame.symm, h row hrow hsame⟩
  · exact ⟨row, mem_put.mpr (.inr ⟨hrow, hsame⟩), rfl, hrefl row⟩

/-! ## 3. The seed, the channel and the community -/

/-- What a session is made of, apart from where it starts and how far it has been used. -/
structure SessionContent where
  seedB64 : String
  channelId : String
  workspaceId : String
deriving DecidableEq, Repr

def StoredGraineSession.content (session : StoredGraineSession) : SessionContent :=
  ⟨session.seedB64, session.channelId, session.workspaceId⟩

def SameContent (row found : StoredGraineSession) : Prop := found.content = row.content

theorem SameContent.refl (row : StoredGraineSession) : SameContent row row := rfl

theorem SameContent.trans (first second third : StoredGraineSession)
    (h : SameContent first second) (h' : SameContent second third) : SameContent first third :=
  Eq.trans h' h

section Content

variable {toLowerCase : String → String} {toBase64 : List UInt8 → String}
  {localeLe : String → String → Bool}

section

variable (toBase64) (localeLe) (content : String → SessionContent)

/-- Every frame, and every mint of this device, gives a session id the content that belongs
    to it. -/
def Truthful (device : Device) : Action → Prop
  | .incoming _ workspaceId _ seed =>
    malformed seed = false →
      content seed.sessionId = ⟨toBase64 seed.seed, seed.channelId, workspaceId⟩
  | .read id readable sessionId seedB64 =>
    ∀ call now minted, device.calls id = some call → call.stage = .reading now →
      decideSlot (device.table.getGraineSessions localeLe call.scope.channelId readable) call now
        sessionId seedB64 = .distributing minted →
      minted.content = content minted.sessionId
  | _ => True

/-- Everything this device stores or is about to store has the content of its id. -/
structure TruthOk (device : Device) : Prop where
  rows : ∀ row ∈ device.table.rows, row.content = content row.sessionId
  calls : ∀ id call session, device.calls id = some call → call.stage.session = some session →
    session.content = content session.sessionId
  looking : ∀ frame workspaceId senderId seed,
    device.seeds frame = some (.looking workspaceId senderId seed) →
      content seed.sessionId = ⟨toBase64 seed.seed, seed.channelId, workspaceId⟩
  storing : ∀ frame session, device.seeds frame = some (.storing session) →
    session.content = content session.sessionId

end

variable {content : String → SessionContent} {device next : Device}

section

variable (h : TruthOk toBase64 content device)
include h

theorem TruthOk.put (htable : next.table = device.table.put session)
    (hsession : session.content = content session.sessionId) :
    ∀ row ∈ next.table.rows, row.content = content row.sessionId := by
  intro row hrow
  rw [htable] at hrow
  rcases mem_put.mp hrow with rfl | ⟨hold, -⟩
  · exact hsession
  · exact h.rows row hold

section

variable (hrows : ∀ row ∈ next.table.rows, row.content = content row.sessionId)
include hrows

/-- A reservation moves to a stage that is true of its session's id. -/
theorem TruthOk.update_calls {id : Nat} {call : Reservation}
    (hcalls : next.calls = update device.calls id (some call))
    (hseeds : next.seeds = device.seeds) (hcall : ∀ session, call.stage.session = some session →
      session.content = content session.sessionId) : TruthOk toBase64 content next := by
  refine ⟨hrows, ?_, by simpa only [hseeds] using h.looking, by simpa only [hseeds] using h.storing⟩
  intro other found session hother
  exact forall_update hcalls hcall (fun id call _ hold session => h.calls id call session hold)
    other found hother session

theorem TruthOk.update_seeds (hcalls : next.calls = device.calls) {frame : Nat} {stage : SeedStage}
    (hseeds : next.seeds = update device.seeds frame (some stage))
    (hlooking : ∀ workspaceId senderId seed, stage = .looking workspaceId senderId seed →
      content seed.sessionId = ⟨toBase64 seed.seed, seed.channelId, workspaceId⟩)
    (hstoring : ∀ session, stage = .storing session →
      session.content = content session.sessionId) : TruthOk toBase64 content next := by
  refine ⟨hrows, by simpa only [hcalls] using h.calls, ?_, ?_⟩
  · intro other workspaceId senderId seed hother
    rw [hseeds] at hother
    rcases update_eq_some_iff.mp hother with ⟨-, hsame⟩ | ⟨-, hold⟩
    · exact hlooking _ _ _ (some.inj hsame)
    · exact h.looking other workspaceId senderId seed hold
  · intro other session hother
    rw [hseeds] at hother
    rcases update_eq_some_iff.mp hother with ⟨-, hsame⟩ | ⟨-, hold⟩
    · exact hstoring _ (some.inj hsame)
    · exact h.storing other session hold

theorem TruthOk.close (hcalls : next.calls = device.calls) {frame : Nat} {stage : SeedStage}
    (hclosed : stage.closed = true) (hseeds : next.seeds = update device.seeds frame (some stage)) :
    TruthOk toBase64 content next := by
  refine h.update_seeds hrows hcalls hseeds ?_ ?_
  · rintro _ _ _ rfl
    cases hclosed
  · rintro _ rfl
    cases hclosed

end

end

theorem TruthOk.step {action : Action} (h : TruthOk toBase64 content device)
    (htruthful : Truthful toBase64 localeLe content device action)
    (hstep : step toLowerCase toBase64 localeLe device action = some next) :
    TruthOk toBase64 content next := by
  have hsame : next.table = device.table →
      ∀ row ∈ next.table.rows, row.content = content row.sessionId := by
    intro htable
    rw [htable]
    exact h.rows
  cases (step_spec hstep).effect with
  | none htable hcalls hseeds =>
    exact ⟨hsame htable, by simpa only [hcalls] using h.calls,
      by simpa only [hseeds] using h.looking, by simpa only [hseeds] using h.storing⟩
  | moved id call hsession htable hcalls hseeds =>
    refine h.update_calls (hsame htable) hcalls hseeds ?_
    intro session hfound
    cases hsession.symm.trans hfound
  | continued id call current count hid hcurrent hcount hepoch htable hcalls hseeds =>
    refine h.update_calls (hsame htable) hcalls hseeds ?_
    rintro session ⟨⟩
    exact h.rows current hcurrent
  | minted id call now readable sessionId seedB64 minted haction hid hreading hdecide hfresh htable
      hcalls hseeds =>
      refine h.update_calls (hsame htable) hcalls hseeds ?_
      subst haction
      rintro session ⟨⟩
      exact htruthful call now minted hid hreading hdecide
  | distributed id call minted haction hid hstage htable hcalls hseeds =>
    refine h.update_calls (hsame htable) hcalls hseeds ?_
    rintro session ⟨⟩
    exact h.calls id call minted hid (by rw [hstage]; rfl)
  | saved id call after slot haction hid hstage hafter htable hcalls hseeds =>
    have hslot := h.calls id call slot.session hid (by rw [hstage]; rfl)
    refine h.update_calls (h.put htable hslot) hcalls hseeds ?_
    intro session hfound
    cases hafter.symm.trans hfound
  | received frame workspaceId senderId seed haction hformed htable hcalls hseeds =>
    subst haction
    refine h.update_seeds (hsame htable) hcalls hseeds ?_ (by simp)
    rintro _ _ _ ⟨⟩
    exact htruthful hformed
  | dropped frame stage hclosed htable hcalls hseeds =>
    exact h.close (hsame htable) hcalls hclosed hseeds
  | looked frame readable now workspaceId senderId seed session haction hframe hdecide htable
      hcalls hseeds =>
      refine h.update_seeds (hsame htable) hcalls hseeds (by simp) ?_
      rintro _ ⟨⟩
      obtain ⟨hid, -, hseed, hchannel, hworkspace, -⟩ := decideSeed_storing hdecide
      rw [hid, h.looking frame workspaceId senderId seed hframe, StoredGraineSession.content,
        hseed, hchannel, hworkspace]
  | stored frame session stage haction hframe hclosed htable hcalls hseeds =>
    exact h.close (h.put htable (h.storing frame session hframe)) hcalls hclosed hseeds

theorem TruthOk.rowsRelate {action : Action} (h : TruthOk toBase64 content device)
    (hstep : GraineSession.step toLowerCase toBase64 localeLe device action = some next) :
    RowsRelate SameContent device.table next.table := by
  have hput : ∀ session : StoredGraineSession, session.content = content session.sessionId →
      RowsRelate SameContent device.table (device.table.put session) := by
    intro session hsession
    refine RowsRelate.put SameContent.refl fun row hrow hsame => ?_
    rw [SameContent, hsession, h.rows row hrow, hsame]
  rcases table_of_step hstep with htable | ⟨id, call, slot, -, hid, hstage, htable⟩ |
    ⟨frame, session, -, hframe, htable⟩
  · rw [htable]
    exact RowsRelate.refl SameContent.refl device.table
  · rw [htable]
    exact hput slot.session (h.calls id call slot.session hid (by rw [hstage]; rfl))
  · rw [htable]
    exact hput session (h.storing frame session hframe)

end Content

/-! ## 4. The floor and the count -/

/-- The other row opens at least as much, and has a count at least as high if there was one. -/
def Keeps (row found : StoredGraineSession) : Prop :=
  found.firstIndex ≤ row.firstIndex ∧
    ∀ count, row.sentCount = some count → ∃ count', found.sentCount = some count' ∧ count ≤ count'

variable {stage : Stage} {table : GraineTable} {session : StoredGraineSession}

theorem Keeps.refl (row : StoredGraineSession) : Keeps row row :=
  ⟨le_refl _, fun count hcount => ⟨count, hcount, le_refl _⟩⟩

theorem Keeps.trans (first second third : StoredGraineSession) (h : Keeps first second)
    (h' : Keeps second third) : Keeps first third := by
  refine ⟨le_trans h'.1 h.1, fun count hcount => ?_⟩
  obtain ⟨middle, hmiddle, hle⟩ := h.2 count hcount
  obtain ⟨last, hlast, hle'⟩ := h'.2 middle hmiddle
  exact ⟨last, hlast, le_trans hle hle'⟩

section

variable (table : GraineTable) (device : Device)

/-- No frame but this one, if any, is about to store the session. -/
def Device.StoresAlone (writer : Option Nat) (sessionId : String) : Prop :=
  ∀ frame session, device.seeds frame = some (.storing session) →
    session.sessionId = sessionId → writer = some frame

/-- The row that a frame looks for can be read if it is there, and nobody else writes a session
    that a frame is about to store. -/
def Apart : Action → Prop
  | .look frame readable _ =>
    ∀ workspaceId senderId seed, device.seeds frame = some (.looking workspaceId senderId seed) →
      ∀ row ∈ device.table.rows, row.sessionId = seed.sessionId → readable row.sessionId = true
  | .save id | .reject id true =>
    ∀ call slot, device.calls id = some call → call.stage = .saving slot →
      device.StoresAlone none slot.session.sessionId
  | .store frame | .rejectSeed frame true =>
    ∀ session, device.seeds frame = some (.storing session) →
      device.StoresAlone (some frame) session.sessionId
  | _ => True

/-- A reservation works on a session that starts at zero or has an outbound row, and what it
    saves keeps the row. -/
def SlotOk : Stage → Prop
  | .distributing minted =>
    minted.firstIndex = 0 ∧
      ∀ row ∈ table.rows, row.sessionId = minted.sessionId → row.sentCount = none
  | .saving slot =>
    (slot.session.firstIndex = 0 ∨ ∃ row ∈ table.rows,
      row.sessionId = slot.session.sessionId ∧ row.sentCount.isSome = true) ∧
    ∀ row ∈ table.rows, row.sessionId = slot.session.sessionId → Keeps row slot.session
  | _ => True

/-- What a frame is about to store opens more than the row, which is not outbound. -/
def SeedOk : SeedStage → Prop
  | .storing session =>
    ∀ row ∈ table.rows, row.sessionId = session.sessionId →
      row.sentCount = none ∧ session.firstIndex ≤ row.firstIndex
  | _ => True

end

theorem slotOk_of_session_none (h : stage.session = none) (table : GraineTable) :
    SlotOk table stage := by
  cases stage with
  | distributing minted | saving slot => cases h
  | waiting | reading now | reserved slot | threw => trivial

theorem SlotOk.put_of_ne (h : SlotOk table stage)
    (hne : ∀ other, stage.session = some other → other.sessionId ≠ session.sessionId) :
    SlotOk (table.put session) stage := by
  have hold : ∀ {row other : StoredGraineSession}, row ∈ (table.put session).rows →
      row.sessionId = other.sessionId → other.sessionId ≠ session.sessionId → row ∈ table.rows := by
    intro row other hrow hsame hother
    rcases mem_put.mp hrow with rfl | ⟨hrow, -⟩
    · exact absurd hsame.symm hother
    · exact hrow
  rcases stage.session_cases with ⟨minted, rfl⟩ | ⟨slot, rfl⟩ | hnone
  · exact ⟨h.1, fun row hrow hsame => h.2 row (hold hrow hsame (hne minted rfl)) hsame⟩
  · have hother := hne slot.session rfl
    refine ⟨h.1.imp_right ?_, fun row hrow hsame => h.2 row (hold hrow hsame hother) hsame⟩
    rintro ⟨row, hrow, hsame, hcount⟩
    exact ⟨row, mem_put.mpr (.inr ⟨hrow, hsame ▸ hother⟩), hsame, hcount⟩
  · exact slotOk_of_session_none hnone _

/-- A frame stores nothing that a reservation continues, and less than what one mints. -/
theorem SlotOk.put_seed (h : SlotOk table stage) (hseed : SeedOk table (.storing session))
    (hcount : session.sentCount = none) : SlotOk (table.put session) stage := by
  rcases stage.session_cases with ⟨minted, rfl⟩ | ⟨slot, rfl⟩ | hnone
  · refine ⟨h.1, fun row hrow hsame => ?_⟩
    rcases mem_put.mp hrow with rfl | ⟨hold, -⟩
    · exact hcount
    · exact h.2 row hold hsame
  · rcases h.1 with hzero | ⟨row, hrow, hsame, houtbound⟩
    · refine ⟨.inl hzero, fun row hrow hsame => ?_⟩
      rcases mem_put.mp hrow with rfl | ⟨hold, -⟩
      · exact ⟨by omega, fun count hsome => by cases hcount.symm.trans hsome⟩
      · exact h.2 row hold hsame
    · refine SlotOk.put_of_ne h ?_
      rintro _ ⟨⟩ hother
      have hinbound := (hseed row hrow (hsame.trans hother)).1
      simp [hinbound] at houtbound
  · exact slotOk_of_session_none hnone _

theorem SeedOk.put_of_ne {stage : SeedStage} (h : SeedOk table stage)
    (hne : ∀ other, stage = .storing other → other.sessionId ≠ session.sessionId) :
    SeedOk (table.put session) stage := by
  cases stage with
  | storing other =>
    intro row hrow hsame
    rcases mem_put.mp hrow with rfl | ⟨hold, -⟩
    · exact absurd hsame.symm (hne other rfl)
    · exact h row hold hsame
  | looking workspaceId senderId seed | held | ignored | threw => trivial

theorem seedOk_of_closed {stage : SeedStage} (hclosed : stage.closed = true)
    (table : GraineTable) : SeedOk table stage := by
  cases stage with
  | storing session => cases hclosed
  | looking workspaceId senderId seed | held | ignored | threw => trivial

/-- An outbound row has a home. -/
theorem Inv.inbound_of_fresh {stored : GraineTable} {device : Device} (h : Inv stored device)
    (hrow : row ∈ device.table.rows) (hfresh : device.homes row.sessionId = none) :
    row.sentCount = none := by
  by_contra hcount
  obtain ⟨count, hsome⟩ := ne_none_iff_exists'.mp hcount
  have hhome := (h.rows row hrow count hsome).1
  rw [Device.AtHome, hfresh] at hhome
  cases hhome

section Order

variable {toLowerCase : String → String} {toBase64 : List UInt8 → String}
  {localeLe : String → String → Bool} {stored : GraineTable}

variable (stored) in
structure OrderOk (device : Device) : Prop where
  inv : Inv stored device
  calls : ∀ id call, device.calls id = some call → SlotOk device.table call.stage
  seeds : ∀ frame stage, device.seeds frame = some stage → SeedOk device.table stage

variable {device next : Device}

section

variable (h : OrderOk stored device)
include h

section

variable (hinv : Inv stored next)
include hinv

theorem OrderOk.update_calls (htable : next.table = device.table) {id : Nat} {call : Reservation}
    (hcalls : next.calls = update device.calls id (some call))
    (hseeds : next.seeds = device.seeds) (hcall : SlotOk device.table call.stage) :
    OrderOk stored next := by
  refine ⟨hinv, ?_, by simpa only [hseeds, htable] using h.seeds⟩
  rw [htable]
  exact forall_update hcalls hcall fun other found _ hold => h.calls other found hold

theorem OrderOk.update_seeds (htable : next.table = device.table)
    (hcalls : next.calls = device.calls) {frame : Nat} {stage : SeedStage}
    (hseeds : next.seeds = update device.seeds frame (some stage))
    (hstage : SeedOk device.table stage) : OrderOk stored next := by
  refine ⟨hinv, by simpa only [hcalls, htable] using h.calls, ?_⟩
  rw [htable]
  exact forall_update hseeds hstage fun other found _ hold => h.seeds other found hold

theorem OrderOk.save {id : Nat} {call after : Reservation}
    {slot : GraineOutboundSlot} (hid : device.calls id = some call)
    (hstage : call.stage = .saving slot) (halone : device.StoresAlone none slot.session.sessionId)
    (hafter : after.stage.session = none) (htable : next.table = device.table.put slot.session)
    (hcalls : next.calls = update device.calls id (some after))
    (hseeds : next.seeds = device.seeds) : OrderOk stored next := by
  refine ⟨hinv, ?_, ?_⟩
  · refine forall_update hcalls (slotOk_of_session_none hafter _) fun other found hne hold => ?_
    -- two reservations never work on one session
    rw [htable]
    refine (h.calls other found hold).put_of_ne fun session hsession => ?_
    exact h.inv.session_ne hid hold hne (by rw [hstage]; rfl) hsession
  · intro frame stage hframe
    rw [hseeds] at hframe
    rw [htable]
    refine (h.seeds frame stage hframe).put_of_ne ?_
    rintro session rfl hsame
    cases halone frame session hframe hsame

theorem OrderOk.storeSeed {frame : Nat} {stage : SeedStage}
    (hframe : device.seeds frame = some (.storing session))
    (halone : device.StoresAlone (some frame) session.sessionId) (hclosed : stage.closed = true)
    (htable : next.table = device.table.put session) (hcalls : next.calls = device.calls)
    (hseeds : next.seeds = update device.seeds frame (some stage)) : OrderOk stored next := by
  refine ⟨hinv, ?_, ?_⟩
  · intro id call hid
    rw [hcalls] at hid
    rw [htable]
    exact (h.calls id call hid).put_seed (h.seeds frame _ hframe) (h.inv.seeds frame session hframe)
  · refine forall_update hseeds (seedOk_of_closed hclosed _) fun other found hne hold => ?_
    rw [htable]
    refine (h.seeds other found hold).put_of_ne ?_
    rintro session' rfl hsame
    cases halone other session' hold hsame
    exact hne rfl

end

end

theorem getGraineSession_of_mem {readable : String → Bool} (hrow : row ∈ table.rows)
    (hreadable : readable row.sessionId = true) :
    table.getGraineSession row.sessionId readable = some row := by
  unfold GraineTable.getGraineSession
  cases hfind : table.rows.find? fun other =>
      other.sessionId = row.sessionId && readable other.sessionId with
  | none =>
    have hnone := find?_eq_none.mp hfind row hrow
    simp [hreadable] at hnone
  | some found =>
    have hfound := find?_some hfind
    simp only [Bool.and_eq_true, decide_eq_true_eq] at hfound
    rw [table.eq_of_sessionId (mem_of_find?_eq_some hfind) hrow hfound.1]

theorem OrderOk.step {action : Action} (h : OrderOk stored device) (hapart : Apart device action)
    (hstep : step toLowerCase toBase64 localeLe device action = some next) :
    OrderOk stored next := by
  have hinv := h.inv.step hstep
  cases (step_spec hstep).effect with
  | none htable hcalls hseeds =>
    exact ⟨hinv, by simpa only [hcalls, htable] using h.calls,
      by simpa only [hseeds, htable] using h.seeds⟩
  | moved id call hsession htable hcalls hseeds =>
    exact h.update_calls hinv htable hcalls hseeds (slotOk_of_session_none hsession _)
  | continued id call current count hid hcurrent hcount hepoch htable hcalls hseeds =>
    refine h.update_calls hinv htable hcalls hseeds
      ⟨.inr ⟨current, hcurrent, rfl, by simp [hcount]⟩, fun row hrow hsame => ?_⟩
    cases device.table.eq_of_sessionId hrow hcurrent hsame
    refine ⟨le_refl _, fun count' hcount' => ⟨count + 1, rfl, ?_⟩⟩
    cases hcount.symm.trans hcount'
    exact Nat.le_succ count
  | minted id call now readable sessionId seedB64 minted haction hid hreading hdecide hfresh htable
      hcalls hseeds =>
      exact h.update_calls hinv htable hcalls hseeds
        ⟨(decideSlot_distributing hdecide).1, fun row hrow hsame =>
          h.inv.inbound_of_fresh hrow (hsame ▸ hfresh)⟩
  | distributed id call minted haction hid hstage htable hcalls hseeds =>
    refine h.update_calls hinv htable hcalls hseeds ?_
    have hminted := h.calls id call hid
    rw [hstage] at hminted
    refine ⟨.inl hminted.1, fun row hrow hsame => ⟨?_, fun count hcount => ?_⟩⟩
    · rw [hminted.1]
      exact Nat.zero_le _
    · cases (hminted.2 row hrow hsame).symm.trans hcount
  | saved id call after slot haction hid hstage hafter htable hcalls hseeds =>
    refine h.save hinv hid hstage ?_ hafter htable hcalls hseeds
    rcases haction with rfl | rfl
    all_goals exact hapart call slot hid hstage
  | received frame workspaceId senderId seed haction hformed htable hcalls hseeds =>
    exact h.update_seeds hinv htable hcalls hseeds trivial
  | dropped frame stage hclosed htable hcalls hseeds =>
    exact h.update_seeds hinv htable hcalls hseeds (seedOk_of_closed hclosed _)
  | looked frame readable now workspaceId senderId seed session haction hframe hdecide htable
      hcalls hseeds =>
      refine h.update_seeds hinv htable hcalls hseeds fun row hrow hsame => ?_
      subst haction
      obtain ⟨hid, hfirst, -, -, -, hexisting⟩ := decideSeed_storing hdecide
      have hseed := hsame.trans hid
      have hfound := getGraineSession_of_mem hrow (hapart _ _ _ hframe row hrow hseed)
      rw [hseed] at hfound
      obtain ⟨hinbound, hlower⟩ := hexisting row hfound
      exact ⟨hinbound, by omega⟩
  | stored frame session stage haction hframe hclosed htable hcalls hseeds =>
    refine h.storeSeed hinv hframe ?_ hclosed htable hcalls hseeds
    rcases haction with rfl | rfl
    all_goals exact hapart session hframe

theorem OrderOk.rowsRelate {action : Action} (h : OrderOk stored device)
    (hstep : GraineSession.step toLowerCase toBase64 localeLe device action = some next) :
    RowsRelate Keeps device.table next.table := by
  rcases table_of_step hstep with htable | ⟨id, call, slot, -, hid, hstage, htable⟩ |
    ⟨frame, session, -, hframe, htable⟩
  · rw [htable]
    exact RowsRelate.refl Keeps.refl device.table
  · have hslot := h.calls id call hid
    rw [hstage] at hslot
    rw [htable]
    exact RowsRelate.put Keeps.refl hslot.2
  · rw [htable]
    refine RowsRelate.put Keeps.refl fun row hrow hsame => ?_
    obtain ⟨hinbound, hlower⟩ := h.seeds frame _ hframe row hrow hsame
    exact ⟨hlower, fun count hcount => by cases hinbound.symm.trans hcount⟩

end Order

/-! ## 5. Results -/

section

variable {toLowerCase : String → String} {toBase64 : List UInt8 → String}
  {localeLe : String → String → Bool} {stored : GraineTable}

/-- What the rows are to each other around every step, they are over a run. -/
theorem rowsRelate_run (hrefl : ∀ row, rel row row)
    (htrans : ∀ first second third, rel first second → rel second third → rel first third)
    {Ok : Device → Prop} {allowed : Device → Action → Prop}
    (hstep : ∀ {device action next}, Ok device → allowed device action →
      step toLowerCase toBase64 localeLe device action = some next →
      Ok next ∧ RowsRelate rel device.table next.table) {actions more : List Action}
    {first device later : Device} (hfirst : Ok first)
    (hallowed : EachStep (step toLowerCase toBase64 localeLe) allowed first (actions ++ more))
    (hrun : run (step toLowerCase toBase64 localeLe) first actions = some device)
    (hmore : run (step toLowerCase toBase64 localeLe) device more = some later) :
    RowsRelate rel device.table later.table := by
  obtain ⟨hbefore, hafter⟩ := eachStep_append hallowed hrun
  have hdevice := run_invariant (fun hok hstepOk h => (hstep hok hstepOk h).1) hfirst hbefore hrun
  have hjoin : ∀ {first second third : Device}, RowsRelate rel first.table second.table →
      RowsRelate rel second.table third.table → RowsRelate rel first.table third.table :=
    fun h h' => h.trans htrans h'
  exact run_relation (fun device after => RowsRelate rel device.table after.table)
    (fun device => RowsRelate.refl hrefl device.table) hjoin
    (fun hok hstepOk h => (hstep hok hstepOk h).1) (fun hok hstepOk h => (hstep hok hstepOk h).2)
    hdevice hafter hmore

/-- **A held seed is stable.**  Between any two moments of a run every session id keeps a row.
    If all frames and mints are truthful, the row keeps its seed, channel and community; if
    the saves are apart, its floor does not rise and a count it has does not fall.  Neither
    needs the other. -/
theorem held_seed_stable {content : String → SessionContent} {actions more : List Action}
    {device later : Device}
    (hrun : run (step toLowerCase toBase64 localeLe) (.start stored) actions = some device)
    (hmore : run (step toLowerCase toBase64 localeLe) device more = some later) :
    ((∀ row ∈ stored.rows, row.content = content row.sessionId) →
      EachStep (step toLowerCase toBase64 localeLe) (Truthful toBase64 localeLe content)
        (.start stored) (actions ++ more) →
      ∀ row ∈ device.table.rows, ∃ found ∈ later.table.rows,
        found.sessionId = row.sessionId ∧ found.content = row.content) ∧
    (EachStep (step toLowerCase toBase64 localeLe) Apart (.start stored) (actions ++ more) →
      ∀ row ∈ device.table.rows, ∃ found ∈ later.table.rows,
        found.sessionId = row.sessionId ∧ found.firstIndex ≤ row.firstIndex ∧
          ∀ count, row.sentCount = some count →
            ∃ count', found.sentCount = some count' ∧ count ≤ count') := by
  constructor
  · intro hstored htruthful
    have hstart : TruthOk toBase64 content (.start stored) :=
      ⟨hstored, by simp [start], by simp [start], by simp [start]⟩
    exact rowsRelate_run SameContent.refl SameContent.trans
      (fun h hok hstep => ⟨TruthOk.step h hok hstep, h.rowsRelate hstep⟩) hstart htruthful hrun
      hmore
  · intro hapart
    have hstart : OrderOk stored (.start stored) :=
      ⟨inv_start stored, by simp [start], by simp [start]⟩
    exact rowsRelate_run Keeps.refl Keeps.trans
      (fun h hok hstep => ⟨OrderOk.step h hok hstep, h.rowsRelate hstep⟩) hstart hapart hrun hmore

end

def seedText (seed : List UInt8) : String := if seed = [1] then "AQ==" else "CQ=="

/-- One frame, from its arrival to its save. -/
def receive (frame : Nat) (workspaceId senderId : String) (seed : Seed) : List Action :=
  [.incoming frame workspaceId senderId seed, .look frame (fun _ => true) 0, .store frame]

def emptyDevice : Device := .start ⟨[], nodup_nil⟩

/-- A session held from index 5 on is completed by a truthful frame from index 2 on. -/
theorem held_seed_stable_widened :
    ∃ device later, run (step (fun text => text) seedText (fun _ _ => true)) emptyDevice
        (receive 0 "promo" "ada" ⟨"salon", "s", [1], 5, 1⟩) = some device ∧
      run (step (fun text => text) seedText (fun _ _ => true)) device
        (receive 1 "promo" "bob" ⟨"salon", "s", [1], 2, 1⟩) = some later ∧
      (∀ row ∈ device.table.rows, ∃ found ∈ later.table.rows,
        found.sessionId = row.sessionId ∧ found.content = row.content) ∧
      ∀ row ∈ device.table.rows, ∃ found ∈ later.table.rows,
        found.sessionId = row.sessionId ∧ found.firstIndex ≤ row.firstIndex ∧
          ∀ count, row.sentCount = some count →
            ∃ count', found.sentCount = some count' ∧ count ≤ count' := by
  obtain ⟨device, hrun⟩ : ∃ device, run (step (fun text => text) seedText (fun _ _ => true))
      emptyDevice (receive 0 "promo" "ada" ⟨"salon", "s", [1], 5, 1⟩) = some device := ⟨_, rfl⟩
  obtain ⟨later, hmore⟩ : ∃ later, run (step (fun text => text) seedText (fun _ _ => true))
      device (receive 1 "promo" "bob" ⟨"salon", "s", [1], 2, 1⟩) = some later := by
    cases hrun
    exact ⟨_, rfl⟩
  have hstable := @held_seed_stable _ _ _ _ (fun _ => ⟨"AQ==", "salon", "promo"⟩) _ _ _ _ hrun hmore
  refine ⟨device, later, hrun, hmore, hstable.1 (fun row hrow => ?_) ?_, hstable.2 ?_⟩
  · cases hrow
  · refine .cons (fun _ => rfl) rfl ?_
    refine .cons trivial rfl ?_
    refine .cons trivial rfl ?_
    refine .cons (fun _ => rfl) rfl ?_
    refine .cons trivial rfl ?_
    exact ⟨trivial, fun _ _ => trivial⟩
  · refine .cons trivial rfl ?_
    refine .cons (fun _ _ _ _ _ _ _ => rfl) rfl ?_
    refine ⟨fun _ _ frame _ hframe _ => ?_, fun _ h => ?_⟩
    · rcases frame with _ | frame
      · rfl
      · cases hframe
    cases h
    refine .cons trivial rfl ?_
    refine .cons (fun _ _ _ _ _ _ _ => rfl) rfl ?_
    refine ⟨fun _ _ frame _ hframe _ => ?_, fun _ _ => trivial⟩
    rcases frame with _ | _ | frame
    · cases hframe
    · rfl
    · cases hframe

/-- A member names a session that is held, with a lower floor: the row is theirs. -/
theorem lower_floor_replaces_seed :
    (run (step (fun text => text) seedText (fun _ _ => true)) emptyDevice
        (receive 0 "promo" "ada" ⟨"salon", "s", [1], 5, 1⟩)).map (·.table.rows) =
      some [⟨"promo", "salon", "s", "ada", "AQ==", 5, 1, none, none⟩] ∧
    (run (step (fun text => text) seedText (fun _ _ => true)) emptyDevice
        (receive 0 "promo" "ada" ⟨"salon", "s", [1], 5, 1⟩ ++
          receive 1 "other" "eve" ⟨"elsewhere", "s", [9], 2, 1⟩)).map (·.table.rows) =
      some [⟨"other", "elsewhere", "s", "eve", "CQ==", 2, 1, none, none⟩] := by
  constructor
  · decide
  · decide

end MinesApp.GraineSession
