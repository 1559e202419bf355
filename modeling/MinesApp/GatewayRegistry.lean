import MinesApp.TransitionSystem

/-!
# The registry of connections

The chat gateway keeps the senders of its connections in `connected_users`, under the key
`userId:deviceId`.  A connection registers its sender and holds a guard, whose drop takes the
sender out (`remove_session`).  The subscriber offers an event to the senders it is for, and then
takes out what failed: after a message those senders of the key whose receiver is gone, after a
channel event every key with a sender that failed.

The map of maps is a list of entries, a key and a connection.  An offer changes no entry, so the
offers are one step with the reading of the senders.  The presence keys are left out, and so are
payloads that cannot be read, which publish nothing.
-/

namespace MinesApp.GatewayRegistry

open TransitionSystem List Function Option

abbrev Text := List Char

abbrev Entry := Text × Nat

/-- `receiving` until the send task ends, which drops the receiver of the queue. -/
structure Connection where
  userId : Text
  deviceId : Text
  receiving : Bool

def connKey (userId deviceId : Text) : Text := userId ++ [':'] ++ deviceId

def Connection.key (connection : Connection) : Text :=
  connKey connection.userId connection.deviceId

inductive Event where
  | message (recipientId deviceId : Text)
  | channel (userIds : List Text)

/-- `connections` are those whose guard has not been dropped; `offered` is the event in hand with
    the senders that failed. -/
structure State where
  connectedUsers : List Entry
  connections : Nat → Option Connection
  nextConnId : Nat
  offered : Option (Event × List Entry)

def State.start : State := ⟨[], fun _ => none, 0, none⟩

/-- A sender is closed when this is false. -/
def State.receiving (state : State) (connId : Nat) : Bool :=
  (state.connections connId).any (·.receiving)

section

variable (state : State) (key : Text)

def State.senders : Event → List Entry
  | .message recipientId deviceId =>
    state.connectedUsers.filter fun entry => entry.1 = connKey recipientId deviceId
  | .channel userIds =>
    userIds.flatMap fun userId =>
      state.connectedUsers.filter fun entry => (userId ++ [':']).isPrefixOf entry.1

/-- Of the senders of the key only those that are not closed are retained. -/
def State.retain (entries : List Entry) : List Entry :=
  entries.filter fun entry => decide (entry.1 ≠ key) || state.receiving entry.2

def State.removeSession (connId : Nat) : List Entry :=
  state.retain key (state.connectedUsers.filter (· ≠ (key, connId)))

def State.removeFailed (failed : List Entry) : Event → List Entry
  | .message recipientId deviceId =>
    if failed = [] then state.connectedUsers
    else state.retain (connKey recipientId deviceId) state.connectedUsers
  | .channel _ => state.connectedUsers.filter fun entry => entry.1 ∉ failed.map Prod.fst

end

/-- `failing` are the connections whose queue is full or closed when they are offered the
    event. -/
inductive Action where
  | connect (userId deviceId : Text)
  | endSendTask (connId : Nat)
  | dropGuard (connId : Nat)
  | publish (event : Event) (failing : List Nat)
  | removeFailed

def step (state : State) : Action → Option State
  | .connect userId deviceId =>
    some { state with
      connectedUsers := (connKey userId deviceId, state.nextConnId) :: state.connectedUsers
      connections :=
        update state.connections state.nextConnId (some ⟨userId, deviceId, true⟩)
      nextConnId := state.nextConnId + 1 }
  | .endSendTask connId =>
    (state.connections connId).map fun connection =>
      { state with
        connections := update state.connections connId
          (some { connection with receiving := false }) }
  | .dropGuard connId =>
    (state.connections connId).map fun connection =>
      { state with
        connectedUsers := state.removeSession connection.key connId
        connections := update state.connections connId none }
  | .publish event failing =>
    if state.offered.isSome then none
    else some { state with
      offered := some (event, (state.senders event).filter (·.2 ∈ failing)) }
  | .removeFailed =>
    state.offered.map fun (event, failed) =>
      { state with connectedUsers := state.removeFailed failed event, offered := none }

/-- Every sender takes the channel events that it is offered. -/
def accepted (state : State) : Action → Bool
  | .publish (.channel userIds) failing =>
    (state.senders (.channel userIds)).all fun sender => sender.2 ∉ failing
  | _ => true

structure Complete (state : State) : Prop where
  registered : ∀ connId connection, state.connections connId = some connection →
    connection.receiving = true → (connection.key, connId) ∈ state.connectedUsers
  failures : ∀ userIds failed, state.offered = some (.channel userIds, failed) → failed = []

variable {state next : State}

/-- A sender that receives is retained. -/
theorem mem_retain {connId : Nat} {connection : Connection} {key : Text} {entries : List Entry}
    (hmem : (connection.key, connId) ∈ entries)
    (hguard : state.connections connId = some connection) (hrunning : connection.receiving = true) :
    (connection.key, connId) ∈ state.retain key entries := by
  have hreceiving : state.receiving connId = true := by
    rw [State.receiving, hguard]
    exact hrunning
  refine mem_filter.mpr ⟨hmem, ?_⟩
  rw [hreceiving, Bool.or_true]

theorem Complete.step {action : Action} (h : Complete state) (hok : accepted state action = true)
    (hstep : step state action = some next) : Complete next := by
  cases action with
  | connect userId deviceId =>
    cases hstep
    refine ⟨fun other holder hother hrunning => ?_, h.failures⟩
    rcases update_eq_some_iff.mp hother with ⟨rfl, hnew⟩ | ⟨_, hold⟩
    · cases hnew
      exact mem_cons_self
    · exact mem_cons_of_mem _ (h.registered other holder hold hrunning)
  | endSendTask connId =>
    obtain ⟨connection, _, rfl⟩ := map_eq_some_iff.mp hstep
    refine ⟨fun other holder hother hrunning => ?_, h.failures⟩
    rcases update_eq_some_iff.mp hother with ⟨_, hended⟩ | ⟨_, hold⟩
    · cases hended
      cases hrunning
    · exact h.registered other holder hold hrunning
  | dropGuard connId =>
    obtain ⟨dropped, _, rfl⟩ := map_eq_some_iff.mp hstep
    refine ⟨fun other holder hother hrunning => ?_, h.failures⟩
    rcases update_eq_some_iff.mp hother with ⟨_, hnone⟩ | ⟨hne, hold⟩
    · cases hnone
    · have hmem := h.registered other holder hold hrunning
      refine mem_retain (mem_filter.mpr ⟨hmem, ?_⟩) hold hrunning
      exact decide_eq_true fun hsame => hne (congrArg Prod.snd hsame)
  | publish event failing =>
    simp only [GatewayRegistry.step] at hstep
    split at hstep
    · cases hstep
    cases hstep
    refine ⟨h.registered, fun userIds failed hoffered => ?_⟩
    cases hoffered
    apply filter_eq_nil_iff.mpr
    intro sender hsender hfails
    have htakes := all_eq_true.mp hok sender hsender
    exact of_decide_eq_true htakes (of_decide_eq_true hfails)
  | removeFailed =>
    obtain ⟨⟨event, failed⟩, hoffered, rfl⟩ := map_eq_some_iff.mp hstep
    refine ⟨fun connId connection hguard hrunning => ?_, nofun⟩
    have hmem := h.registered connId connection hguard hrunning
    cases event with
    | message recipientId deviceId =>
      simp only [State.removeFailed]
      split
      · exact hmem
      · exact mem_retain hmem hguard hrunning
    | channel userIds =>
      rw [h.failures userIds failed hoffered]
      exact mem_filter.mpr ⟨hmem, rfl⟩

/-- **A running connection is registered.**  As long as every sender takes the channel events
    it is offered, a connection whose guard has not been dropped and whose send task runs is in
    `connected_users` under its key, so that what is published for its device or its user is
    offered to it. -/
theorem running_connection_registered (actions : List Action) (final : State)
    (hok : EachStep step (fun state action => accepted state action = true) .start actions)
    (hrun : run step .start actions = some final) (connId : Nat) (connection : Connection)
    (hguard : final.connections connId = some connection) (hrunning : connection.receiving = true) :
    (connection.key, connId) ∈ final.connectedUsers ∧ (connection.key, connId) ∈
        final.senders (.message connection.userId connection.deviceId) ∧
      ∀ userIds, connection.userId ∈ userIds →
        (connection.key, connId) ∈ final.senders (.channel userIds) := by
  have hstart : Complete .start := ⟨nofun, nofun⟩
  have h : Complete final :=
    run_invariant (fun h hok hstep => Complete.step h hok hstep) hstart hok hrun
  have hmem := h.registered connId connection hguard hrunning
  refine ⟨hmem, mem_filter.mpr ⟨hmem, decide_eq_true rfl⟩, fun userIds huser => ?_⟩
  refine mem_flatMap.mpr ⟨connection.userId, huser, mem_filter.mpr ⟨hmem, ?_⟩⟩
  exact isPrefixOf_iff_prefix.mpr (prefix_append _ _)

/-- Two tabs of one device, and an event that the second has no room for. -/
def slowTab (event : Event) : List Action :=
  [.connect ['u'] ['d'], .connect ['u'] ['d'], .publish event [1], .removeFailed]

/-- A message that the second tab has no room for, and a channel event that both take. -/
def bothEvents : List Action :=
  slowTab (.message ['u'] ['d']) ++ [.publish (.channel [['u']]) [], .removeFailed]

theorem running_connection_registered_slowTab :
    ∃ final, run step .start bothEvents = some final ∧
      (connKey ['u'] ['d'], 1) ∈ final.connectedUsers :=
  ⟨_, rfl, (running_connection_registered bothEvents _
    (by decide) rfl 1 ⟨['u'], ['d'], true⟩ rfl rfl).1⟩

/-- After a channel event both tabs still run, and neither is offered anything. -/
theorem channel_event_unregisters :
    ∃ final, run step .start (slowTab (.channel [['u']])) = some final ∧
      final.connections 0 = some ⟨['u'], ['d'], true⟩ ∧
      final.connections 1 = some ⟨['u'], ['d'], true⟩ ∧
      final.connectedUsers = [] ∧ final.senders (.message ['u'] ['d']) = [] :=
  ⟨_, rfl, rfl, rfl, rfl, rfl⟩

end MinesApp.GatewayRegistry
