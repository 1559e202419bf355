import MinesApp.TransitionSystem
import Mathlib.Algebra.GroupWithZero.Nat
import Mathlib.Order.Lattice

/-!
# Replay progress and the durable ratchet

Loading the conversations replays the archive of each group.  A replay spends generations of
the ratchet in memory; what it has walked (a stream cursor, and marks in the set of seen
frames) is to become durable only once a checkpoint of that ratchet is, since a crash in
between loses the generations and keeps the progress.

`conversations.ts` runs the replays inside one bulk-ingest window (`withMlsBulkIngest`) and
calls the commits of the replays when the window has closed.  Closing it starts a checkpoint
(`onBulkIngestEnd` of `mlsStatePersister.ts`) and does not wait for it; a window nested in
another one starts none; and the set of seen frames is shared with live delivery, which writes
it on its own account.

The ratchet is counted in generations, so that progress and checkpoints are compared as
positions.  A failed write may be retried by nobody: the persister clears `dirtyEncrypted`
before it writes.  The user-interface observer of the windows and the benchmarks are left out.
-/

namespace MinesApp.ReplayDurability

open TransitionSystem Function Option

/-! ## 1. The persister -/

/-- A checkpoint under way: before its capture, or with the position it has captured. -/
inductive Save where
  | starting
  | writing (captured : Nat)
deriving DecidableEq, Repr

structure Persister where
  dirtyEncrypted : Bool
  immediateFlushQueued : Bool
  inFlightEncrypted : Option Save
  rerunEncryptedAfterFlight : Bool
  bulkIngestDepth : Nat
deriving DecidableEq, Repr

open Persister

def createMlsStatePersister : Persister := ⟨false, false, none, false, 0⟩

namespace Persister

variable (persister : Persister)

def flushEncryptedInternal : Persister :=
  if persister.dirtyEncrypted then
    match persister.inFlightEncrypted with
    | some _ => { persister with rerunEncryptedAfterFlight := true }
    | none => { persister with dirtyEncrypted := false, inFlightEncrypted := some .starting }
  else persister

/-- The `finally` of a write, stored or not. -/
def flightEnds : Persister :=
  if persister.rerunEncryptedAfterFlight then
    { persister with
      inFlightEncrypted := none, rerunEncryptedAfterFlight := false }.flushEncryptedInternal
  else { persister with inFlightEncrypted := none }

def scheduleDeferred : Persister := { persister with dirtyEncrypted := true }

def persistNow : Persister :=
  if 0 < persister.bulkIngestDepth then { persister with dirtyEncrypted := true }
  else { persister with dirtyEncrypted := true, immediateFlushQueued := true }

/-- The microtask that `persistNow` queued. -/
def flushQueued : Persister :=
  { persister with immediateFlushQueued := false }.flushEncryptedInternal

def onBulkIngestStart : Persister :=
  { persister with bulkIngestDepth := persister.bulkIngestDepth + 1 }

/-- The flush is started and not awaited. -/
def onBulkIngestEnd : Persister :=
  if 0 < persister.bulkIngestDepth - 1 then
    { persister with bulkIngestDepth := persister.bulkIngestDepth - 1 }
  else
    { persister with
      bulkIngestDepth := persister.bulkIngestDepth - 1
      dirtyEncrypted := true }.flushEncryptedInternal

end Persister

/-! ## 2. The device -/

/-- A decrypt session: the generations it has spent reach the live client when it finishes. -/
structure Session where
  groupId : String
  spent : Nat
deriving DecidableEq, Repr

/-- What a replay returns to be run later; `position` is the ratchet its progress stands for,
    zero when it spent nothing. -/
structure MlsReplayCommit where
  groupId : String
  position : Nat
deriving DecidableEq, Repr

inductive LoadPhase where
  | idle
  | replaying
  | committing
deriving DecidableEq, Repr

/-- `seenCache` is the position of the newest replay mark in the shared set of a group, and the
    fields after it are in the local store.  The last two are history: the position when the
    window of the load closed, and whether a write has failed since. -/
structure Device where
  ratchet : Nat
  session : Option Session
  persister : Persister
  load : LoadPhase
  pendingCommits : List MlsReplayCommit
  seenCache : String → Nat
  checkpoint : Nat
  storedSeen : String → Nat
  storedCursor : String → Nat
  closedAt : Nat
  failedSince : Bool

def Device.start : Device :=
  ⟨0, none, createMlsStatePersister, .idle, [], fun _ => 0, 0, fun _ => 0, fun _ => 0, 0, false⟩

inductive Action where
  -- the load
  | beginLoad
  | createDecryptSession (groupId : String)
  | decryptPage (generations : Nat)
  | finish (replayed : Bool)
  | endLoad
  | commit (cursorStored seenStored : Bool)
  | loadEnds
  -- live delivery and the other windows
  | liveFrame (groupId : String)
  | beginWindow
  | endWindow
  | persistNow
  | scheduleDeferred
  | flush
  | microtask
  -- checkpoint writes
  | captured
  | written
  | writeFailed
  | crash
deriving DecidableEq, Repr

/-- The position of the progress of a replay that stopped at `reached`. -/
def progress (spent reached : Nat) : Nat := if spent = 0 then 0 else reached

def step (device : Device) : Action → Option Device
  | .beginLoad =>
    if device.load = .idle then
      some { device with load := .replaying, persister := device.persister.onBulkIngestStart }
    else none
  | .createDecryptSession groupId =>
    if device.load = .replaying ∧ device.session = none then
      some { device with session := some ⟨groupId, 0⟩ }
    else none
  -- the frames of a page are marked as soon as their generations are spent
  | .decryptPage generations =>
    match device.session with
    | some ⟨groupId, spent⟩ =>
      some { device with
        session := some ⟨groupId, spent + generations⟩
        seenCache := update device.seenCache groupId (max (device.seenCache groupId)
            (progress (spent + generations) (device.ratchet + (spent + generations)))) }
    | none => none
  -- a replay that failed half-way finishes its session and returns no commit; the generations
  -- always reach the live client: an install that is refused and a finish that fails are left out
  | .finish replayed =>
    match device.session with
    | some ⟨groupId, spent⟩ =>
      some { device with
        session := none
        ratchet := device.ratchet + spent
        pendingCommits :=
          if replayed then
            device.pendingCommits ++ [⟨groupId, progress spent (device.ratchet + spent)⟩]
          else device.pendingCommits }
    | none => none
  | .endLoad =>
    if device.load = .replaying ∧ device.session = none then
      some { device with
        load := .committing
        persister := device.persister.onBulkIngestEnd
        closedAt := device.ratchet
        failedSince := false }
    else none
  | .commit cursorStored seenStored =>
    match device.load, device.pendingCommits with
    | .committing, commit :: rest =>
      some { device with
        pendingCommits := rest
        storedCursor :=
          if cursorStored then
            update device.storedCursor commit.groupId commit.position
          else device.storedCursor
        storedSeen :=
          if seenStored then
            update device.storedSeen commit.groupId (device.seenCache commit.groupId)
          else device.storedSeen }
    | _, _ => none
  | .loadEnds =>
    if device.load = .committing ∧ device.pendingCommits = [] then
      some { device with load := .idle }
    else none
  -- needs the lock that an open session holds, and writes the shared set of its group
  | .liveFrame groupId =>
    if device.session = none then
      some { device with
        ratchet := device.ratchet + 1
        storedSeen := update device.storedSeen groupId (device.seenCache groupId) }
    else none
  | .beginWindow => some { device with persister := device.persister.onBulkIngestStart }
  | .endWindow => some { device with persister := device.persister.onBulkIngestEnd }
  | .persistNow => some { device with persister := device.persister.persistNow }
  | .scheduleDeferred => some { device with persister := device.persister.scheduleDeferred }
  | .flush => some { device with persister := device.persister.flushEncryptedInternal }
  | .microtask =>
    if device.persister.immediateFlushQueued then
      some { device with persister := device.persister.flushQueued }
    else none
  | .captured =>
    match device.persister.inFlightEncrypted with
    | some .starting =>
      some { device with
        persister :=
          { device.persister with inFlightEncrypted := some (.writing device.ratchet) } }
    | _ => none
  -- the store keeps the newer of two checkpoints
  | .written =>
    match device.persister.inFlightEncrypted with
    | some (.writing position) =>
      some { device with
        checkpoint := max device.checkpoint position
        persister := device.persister.flightEnds }
    | _ => none
  | .writeFailed =>
    if device.persister.inFlightEncrypted = none then none
    else some { device with persister := device.persister.flightEnds, failedSince := true }
  | .crash =>
    some { device with
      ratchet := device.checkpoint
      session := none
      persister := createMlsStatePersister
      load := .idle
      pendingCommits := []
      seenCache := device.storedSeen }

/-- Every durable mark and cursor of a replay is behind a durable checkpoint. -/
def Covered (device : Device) : Prop :=
  ∀ groupId, device.storedCursor groupId ≤ device.checkpoint ∧
    device.storedSeen groupId ≤ device.checkpoint

/-! ## 3. What the persister still owes -/

/-- The persister will write a checkpoint that reaches the position, or has, or has failed. -/
inductive Owes (position checkpoint : Nat) (failed : Bool) (persister : Persister) : Prop where
  | dirty (h : persister.dirtyEncrypted = true)
  | failed (h : failed = true)
  | starting (h : persister.inFlightEncrypted = some .starting)
  | writing (captured : Nat) (h : persister.inFlightEncrypted = some (.writing captured))
      (hreaches : position ≤ captured)
  | stored (h : position ≤ checkpoint)

/-- A step of the persister that ends no write. -/
structure Carries (persister next : Persister) : Prop where
  flight : ∀ captured, next.inFlightEncrypted = some (.writing captured) →
    persister.inFlightEncrypted = some (.writing captured)
  owes : ∀ {position checkpoint failed}, Owes position checkpoint failed persister →
    Owes position checkpoint failed next

variable {persister : Persister}

theorem Carries.trans {first second third : Persister} (h : Carries first second)
    (hnext : Carries second third) : Carries first third :=
  ⟨fun captured hflight => h.flight captured (hnext.flight captured hflight),
    fun howes => hnext.owes (h.owes howes)⟩

theorem carries_flush (persister : Persister) :
    Carries persister persister.flushEncryptedInternal := by
  unfold flushEncryptedInternal
  split
  next hdirty =>
    split
    · refine ⟨fun _ hflight => hflight, ?_⟩
      intro position checkpoint failed howes
      exact .dirty hdirty
    · refine ⟨fun _ hflight => (by cases hflight), ?_⟩
      intro position checkpoint failed howes
      exact .starting rfl
  · exact ⟨fun _ hflight => hflight, fun howes => howes⟩

/-- Setting fields that no write reads, or marking the state dirty. -/
theorem carries_of_marks {next : Persister}
    (hflight : next.inFlightEncrypted = persister.inFlightEncrypted)
    (hdirty : persister.dirtyEncrypted = true → next.dirtyEncrypted = true) :
    Carries persister next := by
  refine ⟨fun captured hwriting => hflight ▸ hwriting, ?_⟩
  intro position checkpoint failed howes
  cases howes with
  | dirty h => exact .dirty (hdirty h)
  | failed h => exact .failed h
  | starting h => exact .starting (hflight.trans h)
  | writing captured h hreaches => exact .writing captured (hflight.trans h) hreaches
  | stored h => exact .stored h

section

variable (persister : Persister)

theorem carries_persistNow : Carries persister persister.persistNow := by
  unfold persistNow
  split
  all_goals exact carries_of_marks rfl fun _ => rfl

theorem carries_flushQueued : Carries persister persister.flushQueued := by
  have hmarked : Carries persister { persister with immediateFlushQueued := false } :=
    carries_of_marks rfl id
  exact hmarked.trans (carries_flush _)

theorem carries_onBulkIngestEnd : Carries persister persister.onBulkIngestEnd := by
  unfold onBulkIngestEnd
  split
  · exact carries_of_marks rfl id
  · have hmarked : Carries persister { persister with
          bulkIngestDepth := persister.bulkIngestDepth - 1, dirtyEncrypted := true } :=
      carries_of_marks rfl fun _ => rfl
    exact hmarked.trans (carries_flush _)

theorem flightEnds_spec :
    (∀ captured, persister.flightEnds.inFlightEncrypted ≠ some (.writing captured)) ∧
    (persister.dirtyEncrypted = true → ∀ {position checkpoint failed},
      Owes position checkpoint failed persister.flightEnds) := by
  unfold flightEnds
  split
  · refine ⟨?_, ?_⟩
    · intro captured hwriting
      cases (carries_flush _).flight captured hwriting
    · intro hdirty position checkpoint failed
      exact (carries_flush _).owes (.dirty hdirty)
  · refine ⟨fun captured hwriting => (by cases hwriting), ?_⟩
    intro hdirty position checkpoint failed
    exact .dirty hdirty

end

/-! ## 4. Orderly loads -/

/-- The window of the load is the only one open when it closes; a commit runs when the
    checkpoint that the close began has been stored; live delivery writes the shared set of a
    group when it holds no replay mark that is not stored yet. -/
def Orderly (device : Device) : Action → Prop
  | .endLoad => device.persister.bulkIngestDepth = 1
  | .commit _ _ =>
    device.persister.inFlightEncrypted = none ∧ device.persister.dirtyEncrypted = false ∧
      device.failedSince = false
  | .liveFrame groupId => device.storedSeen groupId = device.seenCache groupId
  | _ => True

instance Orderly.decidable (device : Device) : (action : Action) → Decidable (Orderly device action)
  | .endLoad => inferInstanceAs (Decidable (_ = _))
  | .commit _ _ => inferInstanceAs (Decidable (_ ∧ _ ∧ _))
  | .liveFrame _ => inferInstanceAs (Decidable (_ = _))
  | .beginLoad | .createDecryptSession _ | .decryptPage _ | .finish _ | .loadEnds => isTrue trivial
  | .beginWindow | .endWindow | .persistNow | .scheduleDeferred | .flush => isTrue trivial
  | .microtask | .captured | .written | .writeFailed | .crash => isTrue trivial

def spentSoFar : Option Session → Nat
  | some session => session.spent
  | none => 0

/-- What holds while the commits of a load are run. -/
structure Closed (device : Device) : Prop where
  reached : device.closedAt ≤ device.ratchet
  seen : ∀ groupId, device.seenCache groupId ≤ device.closedAt
  commits : ∀ commit ∈ device.pendingCommits, commit.position ≤ device.closedAt
  owes : Owes device.closedAt device.checkpoint device.failedSince device.persister

structure Inv (device : Device) : Prop where
  covered : Covered device
  behind : device.checkpoint ≤ device.ratchet
  flight : ∀ captured, device.persister.inFlightEncrypted = some (.writing captured) →
    captured ≤ device.ratchet
  seen : ∀ groupId, device.seenCache groupId ≤ device.ratchet + spentSoFar device.session
  commits : ∀ commit ∈ device.pendingCommits, commit.position ≤ device.ratchet
  session : device.load ≠ .replaying → device.session = none
  closed : device.load = .committing → Closed device

theorem inv_start : Inv .start where
  covered := fun _ => ⟨le_refl 0, le_refl 0⟩
  behind := le_refl 0
  flight := fun _ hwriting => by cases hwriting
  seen := fun _ => le_refl 0
  commits := fun _ hcommit => by cases hcommit
  session := fun _ => rfl
  closed := fun hload => by cases hload

variable {device next : Device}

/-- A step of the persister alone. -/
theorem Inv.carries (h : Inv device) (hcarries : Carries device.persister persister) :
    Inv { device with persister } where
  covered := h.covered
  behind := h.behind
  flight := fun captured hwriting => h.flight captured (hcarries.flight captured hwriting)
  seen := h.seen
  commits := h.commits
  session := h.session
  closed := by
    intro hload
    have hclosed := h.closed hload
    exact ⟨hclosed.reached, hclosed.seen, hclosed.commits, hcarries.owes hclosed.owes⟩

theorem progress_le {spent reached bound : Nat} (h : reached ≤ bound) :
    progress spent reached ≤ bound := by
  unfold progress
  split
  · exact Nat.zero_le bound
  · exact h

theorem Inv.decryptPage (h : Inv device) {generations : Nat}
    (hstep : step device (.decryptPage generations) = some next) : Inv next := by
  simp only [step] at hstep
  split at hstep
  next groupId spent hsession =>
    cases hstep
    have hbound := h.seen
    rw [hsession] at hbound
    refine ⟨h.covered, h.behind, h.flight, ?_, h.commits, ?_, ?_⟩
    · intro other
      simp only [update_apply, spentSoFar] at hbound ⊢
      split
      · apply Nat.max_le.mpr
        constructor
        · have hold := hbound groupId
          omega
        · exact progress_le (Nat.le_refl _)
      · have hold := hbound other
        omega
    · intro hload
      rw [h.session hload] at hsession
      cases hsession
    · intro hload
      rw [h.session (by rw [hload]; exact nofun)] at hsession
      cases hsession
  · cases hstep

theorem Inv.finish (h : Inv device) {replayed : Bool}
    (hstep : step device (.finish replayed) = some next) : Inv next := by
  simp only [step] at hstep
  split at hstep
  next groupId spent hsession =>
    cases hstep
    have hbound := h.seen
    rw [hsession] at hbound
    refine ⟨h.covered, ?_, ?_, ?_, ?_, fun _ => rfl, ?_⟩
    · exact Nat.le_trans h.behind (Nat.le_add_right _ _)
    · intro captured hwriting
      exact Nat.le_trans (h.flight captured hwriting) (Nat.le_add_right _ _)
    · exact hbound
    · intro commit hcommit
      have hold : commit ∈ device.pendingCommits → commit.position ≤ device.ratchet + spent :=
        fun hmem => Nat.le_trans (h.commits commit hmem) (Nat.le_add_right _ _)
      split at hcommit
      · rcases List.mem_append.mp hcommit with hmem | hlast
        · exact hold hmem
        · rw [List.mem_singleton.mp hlast]
          exact progress_le (le_refl _)
      · exact hold hcommit
    · intro hload
      rw [h.session (by rw [show device.load = .committing from hload]; exact nofun)] at hsession
      cases hsession
  · cases hstep

theorem Inv.endLoad (h : Inv device) (hok : Orderly device .endLoad)
    (hstep : step device .endLoad = some next) : Inv next := by
  obtain ⟨hready, rfl⟩ := ite_some_none_eq_some.mp hstep
  have hbound := h.seen
  rw [hready.2] at hbound
  refine ⟨h.covered, h.behind, ?_, h.seen, h.commits, fun _ => hready.2, ?_⟩
  · intro captured hwriting
    exact h.flight captured ((carries_onBulkIngestEnd _).flight captured hwriting)
  · intro _
    refine ⟨le_refl _, hbound, h.commits, ?_⟩
    simp only [onBulkIngestEnd]
    rw [show device.persister.bulkIngestDepth = 1 from hok, if_neg (by decide)]
    exact (carries_flush _).owes (.dirty rfl)

theorem Closed.stored (h : Closed device) {cursorStored seenStored : Bool}
    (hok : Orderly device (.commit cursorStored seenStored)) :
    device.closedAt ≤ device.checkpoint := by
  obtain ⟨hflight, hclean, hwritten⟩ := hok
  cases h.owes with
  | dirty hdirty =>
    rw [hclean] at hdirty
    cases hdirty
  | failed hfailed =>
    rw [hwritten] at hfailed
    cases hfailed
  | starting hstarting =>
    rw [hflight] at hstarting
    cases hstarting
  | writing captured hwriting _ =>
    rw [hflight] at hwriting
    cases hwriting
  | stored hstored => exact hstored

section

variable (h : Inv device)
include h

theorem Inv.commit {cursorStored seenStored : Bool}
    (hok : Orderly device (.commit cursorStored seenStored))
    (hstep : step device (.commit cursorStored seenStored) = some next) : Inv next := by
  simp only [step] at hstep
  split at hstep
  next commit rest hload hpending =>
    cases hstep
    have hclosed := h.closed hload
    have hstored := hclosed.stored hok
    have hrest : ∀ other ∈ rest, other ∈ device.pendingCommits := by
      intro other hother
      rw [hpending]
      exact List.mem_cons_of_mem commit hother
    refine ⟨?_, h.behind, h.flight, h.seen, ?_, h.session, ?_⟩
    · intro groupId
      obtain ⟨hcursor, hseen⟩ := h.covered groupId
      have hposition : commit.position ≤ device.checkpoint := by
        apply le_trans (hclosed.commits commit ?_) hstored
        rw [hpending]
        exact List.mem_cons_self
      constructor
      · dsimp only
        split
        · rw [update_apply]
          split
          · exact hposition
          · exact hcursor
        · exact hcursor
      · dsimp only
        split
        · rw [update_apply]
          split
          · exact le_trans (hclosed.seen commit.groupId) hstored
          · exact hseen
        · exact hseen
    · intro other hother
      exact h.commits other (hrest other hother)
    · intro _
      refine ⟨hclosed.reached, hclosed.seen, ?_, hclosed.owes⟩
      intro other hother
      exact hclosed.commits other (hrest other hother)
  · cases hstep

theorem Inv.liveFrame {groupId : String} (hok : Orderly device (.liveFrame groupId))
    (hstep : step device (.liveFrame groupId) = some next) : Inv next := by
  obtain ⟨hsession, rfl⟩ := ite_some_none_eq_some.mp hstep
  have hsame : update device.storedSeen groupId (device.seenCache groupId) = device.storedSeen := by
    rw [← hok, update_eq_self]
  have hgrows : device.ratchet ≤ device.ratchet + 1 := Nat.le_succ _
  have hbound := h.seen
  rw [hsession] at hbound
  refine ⟨?_, le_trans h.behind hgrows, ?_, ?_, ?_, h.session, ?_⟩
  · intro other
    rw [hsame]
    exact h.covered other
  · intro captured hwriting
    exact le_trans (h.flight captured hwriting) hgrows
  · intro other
    rw [hsession]
    exact le_trans (hbound other) hgrows
  · intro commit hcommit
    exact le_trans (h.commits commit hcommit) hgrows
  · intro hload
    have hclosed := h.closed hload
    exact ⟨le_trans hclosed.reached hgrows, hclosed.seen, hclosed.commits, hclosed.owes⟩

theorem Inv.captured (hstep : step device .captured = some next) : Inv next := by
  simp only [step] at hstep
  split at hstep
  · cases hstep
    refine ⟨h.covered, h.behind, ?_, h.seen, h.commits, h.session, ?_⟩
    · intro captured hwriting
      cases hwriting
      exact le_refl _
    · intro hload
      have hclosed := h.closed hload
      -- the capture is of the live client, which has reached the close
      exact ⟨hclosed.reached, hclosed.seen, hclosed.commits,
        .writing device.ratchet rfl hclosed.reached⟩
  · cases hstep

theorem Inv.written (hstep : step device .written = some next) : Inv next := by
  simp only [step] at hstep
  split at hstep
  next position hflight =>
    cases hstep
    obtain ⟨hidle, howes⟩ := flightEnds_spec device.persister
    have hgrows : device.checkpoint ≤ max device.checkpoint position := le_max_left _ _
    refine ⟨?_, ?_, ?_, h.seen, h.commits, h.session, ?_⟩
    · intro groupId
      obtain ⟨hcursor, hseen⟩ := h.covered groupId
      exact ⟨le_trans hcursor hgrows, le_trans hseen hgrows⟩
    · exact Nat.max_le.mpr ⟨h.behind, h.flight position hflight⟩
    · intro captured hwriting
      exact absurd hwriting (hidle captured)
    · intro hload
      have hclosed := h.closed hload
      refine ⟨hclosed.reached, hclosed.seen, hclosed.commits, ?_⟩
      cases hclosed.owes with
      | dirty hdirty => exact howes hdirty
      | failed hfailed => exact .failed hfailed
      | starting hstarting =>
        rw [hflight] at hstarting
        cases hstarting
      | writing captured hwriting hreaches =>
        rw [hflight] at hwriting
        cases hwriting
        exact .stored (le_trans hreaches (le_max_right _ _))
      | stored hstored => exact .stored (le_trans hstored hgrows)
  · cases hstep

theorem Inv.writeFailed (hstep : step device .writeFailed = some next) : Inv next := by
  simp only [step] at hstep
  split at hstep
  · cases hstep
  cases hstep
  obtain ⟨hidle, _⟩ := flightEnds_spec device.persister
  refine ⟨h.covered, h.behind, ?_, h.seen, h.commits, h.session, ?_⟩
  · intro captured hwriting
    exact absurd hwriting (hidle captured)
  · intro hload
    have hclosed := h.closed hload
    exact ⟨hclosed.reached, hclosed.seen, hclosed.commits, .failed rfl⟩

theorem Inv.crash (hstep : step device .crash = some next) : Inv next := by
  cases hstep
  refine ⟨h.covered, le_refl _, ?_, ?_, ?_, fun _ => rfl, ?_⟩
  · intro captured hwriting
    cases hwriting
  · intro groupId
    exact (h.covered groupId).2
  · intro commit hcommit
    cases hcommit
  · intro hload
    cases hload

protected theorem Inv.step {action : Action} (hok : Orderly device action)
    (hstep : step device action = some next) : Inv next := by
  cases action with
  | beginLoad =>
    obtain ⟨hidle, rfl⟩ := ite_some_none_eq_some.mp hstep
    have hcarried := h.carries (carries_of_marks rfl id :
      Carries device.persister device.persister.onBulkIngestStart)
    refine ⟨hcarried.covered, hcarried.behind, hcarried.flight, hcarried.seen,
      hcarried.commits, ?_, ?_⟩
    · intro hload
      exact absurd rfl hload
    · intro hload
      cases hload
  | createDecryptSession groupId =>
    obtain ⟨hready, rfl⟩ := ite_some_none_eq_some.mp hstep
    have hbound := h.seen
    rw [hready.2] at hbound
    refine ⟨h.covered, h.behind, h.flight, hbound, h.commits, ?_, ?_⟩
    · intro hload
      exact absurd hready.1 hload
    · intro hload
      rw [show device.load = .committing from hload] at hready
      cases hready.1
  | decryptPage generations => exact h.decryptPage hstep
  | finish replayed => exact h.finish hstep
  | endLoad => exact h.endLoad hok hstep
  | commit cursorStored seenStored => exact h.commit hok hstep
  | loadEnds =>
    obtain ⟨hready, rfl⟩ := ite_some_none_eq_some.mp hstep
    have hsession := h.session (by rw [hready.1]; exact nofun)
    refine ⟨h.covered, h.behind, h.flight, h.seen, h.commits, fun _ => hsession, ?_⟩
    intro hload
    cases hload
  | liveFrame groupId => exact h.liveFrame hok hstep
  | beginWindow =>
    cases hstep
    exact h.carries (carries_of_marks rfl id)
  | endWindow =>
    cases hstep
    exact h.carries (carries_onBulkIngestEnd _)
  | persistNow =>
    cases hstep
    exact h.carries (carries_persistNow _)
  | scheduleDeferred =>
    cases hstep
    exact h.carries (carries_of_marks rfl fun _ => rfl)
  | flush =>
    cases hstep
    exact h.carries (carries_flush _)
  | microtask =>
    obtain ⟨_, rfl⟩ := ite_some_none_eq_some.mp hstep
    exact h.carries (carries_flushQueued _)
  | captured => exact h.captured hstep
  | written => exact h.written hstep
  | writeFailed => exact h.writeFailed hstep
  | crash => exact h.crash hstep

end

end MinesApp.ReplayDurability
