import MinesApp.TransitionSystem

/-!
# The presence key of a device

A device is online as long as Redis holds `user:online:{userId}:{deviceId}`.  A connection of the
device registers in `connected_users` and sets the key, and its frames set it again
(`refresh_presence`).  The drop of its guard asks `remove_session` whether another session is
left, and if none is spawns the deletion; an explicit disconnect asks `has_other_sessions` and
deletes the key before the guard is dropped.  A command is decided upon at one moment and reaches
Redis at a later one.

The model is of one device.  `sets` and `dels` count the commands that are decided upon and not
yet executed.  No command fails and the key does not expire.
-/

namespace MinesApp.GatewayPresence

open TransitionSystem List

/-- `connected` are the sessions in `connected_users`, `closed` those whose send task has ended,
    and `leaving` those on their way out: closed, or after a disconnect frame, with the guard
    still to be dropped. -/
structure State where
  connected : List Nat
  closed : List Nat
  leaving : List Nat
  present : Bool
  sets : Nat
  dels : Nat

def State.start : State := ⟨[], [], [], false, 0, 0⟩

namespace State

variable (state : State)

def guarded (connId : Nat) : Bool := connId ∈ state.connected || connId ∈ state.leaving

/-- What `remove_session` leaves registered; it answers whether that is anything. -/
def removeSession (connId : Nat) : List Nat :=
  state.connected.filter fun other => other ≠ connId ∧ other ∉ state.closed

def hasOtherSessions (connId : Nat) : Bool :=
  state.connected.any fun other => other ≠ connId ∧ other ∉ state.closed

/-- The deletion is decided upon unless another session is left. -/
def deleteUnless (still : Bool) : State :=
  { state with dels := if still then state.dels else state.dels + 1 }

end State

inductive Action where
  | connect (connId : Nat)
  | refreshPresence (connId : Nat)
  | endSendTask (connId : Nat)
  | disconnect (connId : Nat)
  | dropGuard (connId : Nat)
  | set
  | del

section

variable (state : State)

def enabled : Action → Bool
  -- ids are drawn from a counter
  | .connect connId => !state.guarded connId && connId ∉ state.closed
  | .refreshPresence connId | .endSendTask connId | .disconnect connId | .dropGuard connId =>
    state.guarded connId
  | .set => 0 < state.sets
  | .del => 0 < state.dels

def effect : Action → State
  | .connect connId =>
    { state with connected := connId :: state.connected, sets := state.sets + 1 }
  | .refreshPresence _ => { state with sets := state.sets + 1 }
  | .endSendTask connId =>
    { state with closed := connId :: state.closed, leaving := connId :: state.leaving }
  | .disconnect connId =>
    { state with leaving := connId :: state.leaving }.deleteUnless (state.hasOtherSessions connId)
  | .dropGuard connId =>
    let left := state.removeSession connId
    { state with
      connected := left
      leaving := state.leaving.filter (· ≠ connId) }.deleteUnless (left ≠ [])
  | .set => { state with sets := state.sets - 1, present := true }
  | .del => { state with dels := state.dels - 1, present := false }

def step (action : Action) : Option State :=
  if enabled state action then some (effect state action) else none

/-- A key is set only for a session that is not leaving, and while no deletion is under way; and
    no deletion is decided upon while the key is being set. -/
def orderly : Action → Bool
  | .connect _ => state.dels = 0
  | .refreshPresence connId =>
    state.dels = 0 && connId ∈ state.connected && connId ∉ state.leaving
  | .disconnect connId => state.sets = 0 || state.hasOtherSessions connId
  | .dropGuard connId => state.sets = 0 || state.removeSession connId ≠ []
  | _ => true

end

structure Agrees (state : State) : Prop where
  closed : ∀ connId ∈ state.connected, connId ∈ state.closed → connId ∈ state.leaving
  online : ∀ connId ∈ state.connected, connId ∉ state.leaving →
    state.dels = 0 ∧ (0 < state.sets ∨ state.present = true)
  offline : state.connected = [] → state.leaving = [] →
    state.sets = 0 ∧ (0 < state.dels ∨ state.present = false)

variable {state next : State}

theorem Agrees.step {action : Action} (h : Agrees state) (hok : orderly state action = true)
    (hstep : step state action = some next) : Agrees next := by
  obtain ⟨henabled, ⟨⟩⟩ := Option.ite_none_right_eq_some.mp hstep
  cases action with
  | connect connId =>
    refine ⟨fun other hother hclosed => ?_, fun _ _ _ => ?_, nofun⟩
    · rcases mem_cons.mp hother with rfl | hold
      · exact absurd hclosed (of_decide_eq_true (Bool.and_eq_true_iff.mp henabled).2)
      · exact h.closed other hold hclosed
    · exact ⟨of_decide_eq_true hok, .inl (Nat.succ_pos _)⟩
  | refreshPresence connId =>
    simp only [orderly, Bool.and_eq_true, decide_eq_true_eq] at hok
    refine ⟨h.closed, fun _ _ _ => ⟨hok.1.1, .inl (Nat.succ_pos _)⟩, fun hnone => ?_⟩
    exact absurd hok.1.2 (hnone ▸ not_mem_nil)
  | endSendTask connId =>
    refine ⟨fun other hother hclosed => ?_, fun other hother hstays => ?_, nofun⟩
    · rcases mem_cons.mp hclosed with rfl | hold
      · exact mem_cons_self
      · exact mem_cons_of_mem _ (h.closed other hother hold)
    · exact h.online other hother (not_mem_of_not_mem_cons hstays)
  | disconnect connId =>
    refine ⟨fun other hother hclosed => ?_, fun other hother hstays => ?_, nofun⟩
    · exact mem_cons_of_mem _ (h.closed other hother hclosed)
    · obtain ⟨hne, hlive⟩ := not_or.mp (mt mem_cons.mpr hstays)
      have hopen : other ∉ state.closed := fun hclosed => hlive (h.closed other hother hclosed)
      have hstill : state.hasOtherSessions connId = true :=
        any_eq_true.mpr ⟨other, hother, decide_eq_true ⟨hne, hopen⟩⟩
      rw [effect, hstill]
      exact h.online other hother hlive
  | dropGuard connId =>
    refine ⟨fun other hother hclosed => ?_, fun other hother hstays => ?_, fun hnone _ => ?_⟩
    · exact absurd hclosed (of_decide_eq_true (mem_filter.mp hother).2).2
    · obtain ⟨hheld, hkept⟩ := mem_filter.mp hother
      have hlive : other ∉ state.leaving := fun hleaving =>
        hstays (mem_filter.mpr ⟨hleaving, decide_eq_true (of_decide_eq_true hkept).1⟩)
      have hstill : state.removeSession connId ≠ [] := ne_nil_of_mem hother
      rw [effect, State.deleteUnless, if_pos (decide_eq_true hstill)]
      exact h.online other hheld hlive
    · -- the last session is gone, and its deletion is decided upon
      have hlast : state.removeSession connId = [] := hnone
      simp only [orderly, hlast, ne_eq, not_true_eq_false, decide_false, Bool.or_false,
        decide_eq_true_eq] at hok
      simp [effect, State.deleteUnless, hlast, hok]
  | set =>
    refine ⟨h.closed, fun other hother hlive => ⟨(h.online other hother hlive).1, .inr rfl⟩, ?_⟩
    intro hnone hleft
    exact absurd (h.offline hnone hleft).1 (Nat.ne_of_gt (of_decide_eq_true henabled))
  | del =>
    refine ⟨h.closed, fun other hother hlive => ?_, fun hnone hleft => ?_⟩
    · exact absurd (h.online other hother hlive).1 (Nat.ne_of_gt (of_decide_eq_true henabled))
    · exact ⟨(h.offline hnone hleft).1, .inr rfl⟩

/-- **The presence key agrees with the sessions.**  Take any run in which the key is set for
    sessions that are not leaving only, no setting begins while a deletion is under way, and no
    deletion while the key is being set.  When no command is in flight and no session is on its
    way out, the key exists exactly when a session is registered. -/
theorem presence_agrees (actions : List Action) (final : State)
    (hok : EachStep step (fun state action => orderly state action = true) .start actions)
    (hrun : run step .start actions = some final)
    (hsets : final.sets = 0) (hdels : final.dels = 0) (hleaving : final.leaving = []) :
    final.present = true ↔ final.connected ≠ [] := by
  have hstart : Agrees .start := ⟨nofun, nofun, fun _ _ => ⟨rfl, .inr rfl⟩⟩
  have h : Agrees final := run_invariant Agrees.step hstart hok hrun
  constructor
  · intro hpresent hnone
    rcases (h.offline hnone hleaving).2 with hpos | habsent
    · exact absurd hdels (Nat.ne_of_gt hpos)
    · cases hpresent.symm.trans habsent
  · intro hsome
    obtain ⟨connId, hmem⟩ := exists_mem_of_ne_nil _ hsome
    have hlive : connId ∉ final.leaving := hleaving ▸ not_mem_nil
    exact (h.online connId hmem hlive).2.resolve_left (hsets ▸ Nat.lt_irrefl 0)

/-- Two tabs; the first leaves with a disconnect frame, and the second stays. -/
def oneTabLeaves : List Action :=
  [.connect 0, .set, .connect 1, .set, .disconnect 0, .dropGuard 0, .refreshPresence 1, .set]

theorem presence_agrees_oneTabLeaves :
    ∃ final, run step .start oneTabLeaves = some final ∧
      (final.present = true ↔ final.connected ≠ []) :=
  ⟨_, rfl, presence_agrees oneTabLeaves _ (by decide) rfl rfl rfl rfl⟩

/-- A session ends, and its deletion reaches Redis after the key of the next session is set. -/
theorem reconnected_offline :
    ∃ final, run step .start [.connect 0, .set, .dropGuard 0, .connect 1, .set, .del] = some final ∧
      final.connected = [1] ∧ final.leaving = [] ∧ final.sets = 0 ∧ final.dels = 0 ∧
      final.present = false :=
  ⟨_, rfl, rfl, rfl, rfl, rfl, rfl⟩

end MinesApp.GatewayPresence
