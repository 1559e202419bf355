import MinesApp.TransitionSystem
import MinesApp.UniqueTable

/-!
# The outbox of a device

A message is written to a durable queue that the tabs of one account share, and the flusher of
the leader tab sends it (`outbox.ts`).  Each tab has its own controller: the flags `flushing`
and `rerun`, one backoff timer, the set of ids withdrawn while a flush may still hold them,
and the id inside `sendMessage`.  The model has any number of tabs over one storage, any
number of `enqueue` and `cancelPending` calls, and one step for every stretch of code between
two `await`s; what an `await` gives is the environment's choice.

`log`, `owed` and `skipped` are observations that no code reads.
-/

namespace MinesApp.Outbox

open TransitionSystem UniqueTable Function Option

/-! ## 1. Entries -/

inductive Kind where
  | text
  | reply
  | media
  | control
deriving DecidableEq, Repr

/-- A row of the durable queue; instants are in milliseconds. -/
structure Entry where
  id : Nat
  /-- `isChannelConversationId` of its conversation. -/
  channel : Bool
  kind : Kind
  /-- The file is uploaded and its reference is in the row. -/
  uploadedRef : Bool
  attempts : Nat
  lastAttemptAt : Option Nat
  nextAttemptAt : Option Nat
deriving DecidableEq, Repr

abbrev Rows := Table Entry.id

def Rows.ids (rows : Rows) : List Nat := rows.rows.map Entry.id

def backoffMs : List Nat := [2000, 5000, 15000, 30000, 60000]

def backoffFor (attempts : Nat) : Nat :=
  backoffMs.getD (min (attempts - 1) (backoffMs.length - 1)) 0

/-- `classifyOutgoingSendError`. -/
inductive MlsSendErrorKind where
  | evicted
  | senderNotActive
  | groupDeleted
  | unknown
deriving DecidableEq, Repr

/-- Why an entry is retired by `failPermanently`. -/
inductive Cause where
  | groupDeleted
  | evicted
  | evictedLate
deriving DecidableEq, Repr

inductive Removal where
  | sent
  | failed (cause : Cause)
  | channel
deriving DecidableEq, Repr

inductive Event where
  /-- `sendMessage` was called for the entry. -/
  | called (id : Nat)
  /-- The flusher came to the verdict on which it deletes the row. -/
  | settled (id : Nat) (removal : Removal)
  /-- `cancelPending` marked the entry as withdrawn. -/
  | marked (id : Nat)
  /-- `cancelPending` deleted the row. -/
  | withdrawn (id : Nat)
  /-- `cancelPending` returned. -/
  | answered (id : Nat) (cancelled : Bool)
deriving DecidableEq, Repr

/-! ## 2. One entry -/

/-- Where `flushOne` waits. -/
inductive Attempt where
  | groupMeta
  | readding
  | membership
  | preparing
  | readingRef
  | writingRef (existing : Entry)
  | sending
  | persisting
  | removing (removal : Removal)
  | repairing
  | readingBackoff (now : Nat)
  | writingBackoff (now : Nat) (existing : Entry)
deriving DecidableEq, Repr

/-- What an `await` of the flusher gives.  `deleted`, `unhealthy` and `throws` are the answers
    of `getGroupMeta` and `isGroupHealthy`, `inactive` that of `isGroupActive`, and `refused` a
    rejection of the upload or of `sendMessage`. -/
inductive Outcome where
  | ok
  | fails
  | deleted
  | unhealthy
  | throws
  | inactive
  | refused (kind : MlsSendErrorKind)
deriving DecidableEq, Repr

/-- How far a step brings `flushOne`. -/
inductive Progress where
  | next (attempt : Attempt)
  | sent
  | retry
  | error
  | threw
deriving DecidableEq, Repr

def Removal.progress : Removal → Progress
  | .sent => .sent
  | .failed _ => .error
  | .channel => .error

/-- Go on to delete the row, with the verdict. -/
def settle (entry : Entry) (removal : Removal) (rows : Rows) : Progress × Rows × List Event :=
  (.next (.removing removal), rows, [.settled entry.id removal])

section

variable (clock : Nat) (entry : Entry) (rows : Rows)

def callSend : Progress × Rows × List Event :=
  (.next .sending, rows, [.called entry.id])

def caught : MlsSendErrorKind → Progress × Rows × List Event
  | .senderNotActive => (.next .repairing, rows, [])
  | .groupDeleted => settle entry (.failed .groupDeleted) rows
  | .evicted => settle entry (.failed .evictedLate) rows
  | .unknown => (.next (.readingBackoff clock), rows, [])

/-- `updateOutboxEntry` merges the patch into the row it read. -/
def backedOff (entry existing : Entry) (now : Nat) : Entry :=
  { existing with
    attempts := entry.attempts + 1
    lastAttemptAt := some now
    nextAttemptAt := some (now + backoffFor (entry.attempts + 1)) }

def attemptStep (entry : Entry) : Attempt → Outcome → Option (Progress × Rows × List Event)
  | .groupMeta, .deleted => some (settle entry (.failed .groupDeleted) rows)
  | .groupMeta, .unhealthy => some (.next .readding, rows, [])
  | .groupMeta, .throws => some (.threw, rows, [])
  | .groupMeta, .ok => some (.next .membership, rows, [])
  | .readding, .ok => some (.retry, rows, [])
  | .readding, .fails => some (.retry, rows, [])
  | .membership, .fails => some (.retry, rows, [])
  | .membership, .inactive => some (settle entry (.failed .evicted) rows)
  | .membership, .ok =>
    some (if entry.kind = .media then (.next .preparing, rows, []) else callSend entry rows)
  | .preparing, .ok =>
    some (if entry.uploadedRef then callSend entry rows else (.next .readingRef, rows, []))
  | .preparing, .refused kind => some (caught clock entry rows kind)
  | .readingRef, .ok =>
    match rows.find entry.id with
    | none => some (callSend entry rows)
    | some existing => some (.next (.writingRef existing), rows, [])
  | .readingRef, .fails => some (callSend entry rows)
  | .writingRef existing, .ok =>
    some (callSend entry (rows.put { existing with uploadedRef := true }))
  | .writingRef _, .fails => some (callSend entry rows)
  | .sending, .ok => some (.next .persisting, rows, [.settled entry.id .sent])
  | .sending, .refused kind => some (caught clock entry rows kind)
  | .persisting, .ok => some (.next (.removing .sent), rows, [])
  | .persisting, .fails => some (.next (.removing .sent), rows, [])
  | .removing removal, .ok => some (removal.progress, rows.remove entry.id, [])
  | .removing removal, .fails => some (removal.progress, rows, [])
  | .repairing, .ok => some (.next (.readingBackoff clock), rows, [])
  | .repairing, .fails => some (.next (.readingBackoff clock), rows, [])
  | .readingBackoff now, .ok =>
    match rows.find entry.id with
    | none => some (.retry, rows, [])
    | some existing => some (.next (.writingBackoff now existing), rows, [])
  | .readingBackoff _, .fails => some (.retry, rows, [])
  | .writingBackoff now existing, .ok => some (.retry, rows.put (backedOff entry existing now), [])
  | .writingBackoff _ _, .fails => some (.retry, rows, [])
  | _, _ => none

end

/-! ## 3. One tab -/

inductive TabLeadership where
  | undecided
  | leader
  | follower
deriving DecidableEq, Repr

/-- The messages between tabs that the flusher acts on. -/
inductive TabOutboxEvent where
  | flushRequest
  | entryCancelled (id : Nat)
deriving DecidableEq, Repr

/-- Where `runFlush` waits; `idle` is `flushing = false`. -/
inductive Stage where
  | idle
  | settling
  | reading
  | decoding (entries : List Entry)
  | walking (rest : List Entry) (anySent : Bool)
  | attempting (entry : Entry) (attempt : Attempt) (rest : List Entry) (anySent : Bool)
  | rereading (anySent : Bool)
  | scheduling (remaining : List Entry) (anySent : Bool)
deriving DecidableEq, Repr

structure Tab where
  leadership : TabLeadership
  offline : Bool
  canFlush : Bool
  /-- A `runFlush` waits for the election. -/
  waiting : Bool
  stage : Stage
  rerun : Bool
  backoffTimer : Option Nat
  cancelled : List Nat
  inbox : List TabOutboxEvent
  /-- The entries in the queue at the last kick, or written since while the tab led, that no
      pass begun since has attempted. -/
  owed : List Nat
  /-- The entries that the current pass skipped because they back off. -/
  skipped : List Nat
deriving DecidableEq, Repr

/-- A tab as it loads. -/
def Tab.fresh : Tab := ⟨.undecided, false, true, false, .idle, false, none, [], [], [], []⟩

def Tab.inFlight (tab : Tab) : Option Nat :=
  match tab.stage with
  | .attempting entry .sending _ _ => some entry.id
  | _ => none

/-- The gates of `runFlush` are open: the leader tab, online, with a session that can send. -/
def Tab.gatesOpen (tab : Tab) : Prop :=
  tab.leadership = .leader ∧ tab.offline = false ∧ tab.canFlush = true

instance (tab : Tab) : Decidable tab.gatesOpen := inferInstanceAs (Decidable (_ ∧ _ ∧ _))

section

variable (clock : Nat) (rows : Rows) (tab : Tab)

/-- `runFlush` up to its first `await`, in a tab that is not a follower. -/
def Tab.runFlush : Tab :=
  if tab.leadership = .undecided then { tab with waiting := true, owed := rows.ids }
  else if ¬tab.gatesOpen then { tab with owed := rows.ids }
  else if tab.stage = .idle then { tab with owed := rows.ids, stage := .settling }
  else { tab with owed := rows.ids, rerun := true }

/-- The head of the `do` loop. -/
def Tab.pass : Tab := { tab with stage := .reading, rerun := false, skipped := [] }

/-- A new entry is owed an attempt by the leader. -/
def Tab.owe (id : Nat) (tab : Tab) : Tab :=
  { tab with owed := if tab.leadership = .leader then id :: tab.owed else tab.owed }

/-- An absent entry is owed no attempt. -/
def Tab.restrict : Tab :=
  { tab with owed := tab.owed.filter (· ∈ rows.ids) }

section

variable (entry : Entry) (rest : List Entry) (anySent : Bool)

/-- Take up the next entry of the pass. -/
def Tab.flushOne : Tab × List Event :=
  if entry.id ∈ tab.cancelled then
    ({ tab.restrict rows with
        stage := .walking rest anySent
        cancelled := tab.cancelled.filter (· ≠ entry.id) }, [])
  else if entry.nextAttemptAt.any (clock < ·) then
    ({ tab with stage := .walking rest anySent, skipped := entry.id :: tab.skipped }, [])
  else
    let owed := if tab.rerun then tab.owed else tab.owed.filter (· ≠ entry.id)
    if entry.channel then
      ({ tab with owed, stage := .attempting entry (.removing .channel) rest anySent },
        [.settled entry.id .channel])
    else ({ tab with owed, stage := .attempting entry .groupMeta rest anySent }, [])

def Tab.proceed : Progress → Tab
  | .next attempt => { tab with stage := .attempting entry attempt rest anySent }
  | .sent => { tab with stage := .walking rest true }
  | .retry => { tab with stage := .walking rest anySent }
  | .error => { tab with stage := .walking rest anySent }
  | .threw => { tab with stage := .idle }

end

/-- The earliest deadline still ahead arms the timer; with none it is left as it is. -/
def scheduleBackoff (entries : List Entry) (timer : Option Nat) : Option Nat :=
  match ((entries.filterMap Entry.nextAttemptAt).filter (clock < ·)).min? with
  | none => timer
  | some next => some (clock + max 1000 (next - clock))

def Tab.endPass (remaining : List Entry) (anySent : Bool) : Tab :=
  let tab := { tab with backoffTimer := scheduleBackoff clock remaining tab.backoffTimer }
  if anySent && tab.rerun then tab.pass else { tab with stage := .idle }

def flushStep (outcome : Outcome) : Option (Tab × Rows × List Event) :=
  match tab.stage, outcome with
  | .settling, .ok => some (tab.pass, rows, [])
  | .settling, .fails => some (tab.pass, rows, [])
  | .reading, .ok => some ({ tab.restrict rows with stage := .decoding rows.rows }, rows, [])
  | .reading, .fails => some ({ tab with stage := .decoding [] }, rows, [])
  | .decoding entries, .ok =>
    some ({ tab with stage := if entries = [] then .idle else .walking entries false }, rows, [])
  | .walking [] anySent, .ok => some ({ tab with stage := .rereading anySent }, rows, [])
  | .walking (entry :: rest) anySent, .ok =>
    let (tab, events) := tab.flushOne clock rows entry rest anySent
    some (tab, rows, events)
  | .attempting entry attempt rest anySent, outcome =>
    (attemptStep clock rows entry attempt outcome).map fun (progress, rows, events) =>
      (tab.proceed entry rest anySent progress, rows, events)
  | .rereading anySent, .ok =>
    some ({ tab.restrict rows with stage := .scheduling rows.rows anySent }, rows, [])
  | .rereading anySent, .fails => some ({ tab with stage := .scheduling [] anySent }, rows, [])
  | .scheduling remaining anySent, .ok => some (tab.endPass clock remaining anySent, rows, [])
  | _, _ => none

end

/-! ## 4. The device -/

/-- Where an `enqueue` or a `cancelPending` waits. -/
inductive CallStage where
  | saving (entry : Entry)
  | queued
  | looking (id : Nat)
  | looked (id : Nat) (found : Bool)
  | deleting (id : Nat)
  | deleted (id : Nat) (ok : Bool)
  | mirroring (id : Nat)
deriving DecidableEq, Repr

structure Call where
  tab : Nat
  stage : CallStage
deriving DecidableEq, Repr

structure State where
  clock : Nat
  /-- Ids come from `crypto.randomUUID`; here the rows are numbered as they are written. -/
  nextId : Nat
  rows : Rows
  tabs : Nat → Tab
  calls : Nat → Option Call
  log : List Event

open State

def State.initial : State := ⟨0, 0, .empty, fun _ => .fresh, fun _ => none, []⟩

inductive Action where
  | tick
  /-- The page of the tab is loaded anew; whatever ran in it is gone. -/
  | reload (tab : Nat)
  | elect (tab : Nat) (leads : Bool)
  | release (tab : Nat)
  | promote (tab : Nat)
  | disconnect (tab : Nat)
  | reconnect (tab : Nat)
  | suspend (tab : Nat)
  | ready (tab : Nat)
  /-- A call of `flush`, a tab that becomes visible, a group that becomes ready. -/
  | kick (tab : Nat)
  | fire (tab : Nat)
  | deliver (tab : Nat)
  | enqueue (call tab : Nat) (entry : Entry) (alreadyDurable : Bool)
  | cancel (call tab id : Nat)
  | resume (call : Nat) (ok : Bool)
  | flush (tab : Nat) (outcome : Outcome)
deriving DecidableEq, Repr

def State.setTab (state : State) (tab : Nat) (value : Tab) : State :=
  { state with tabs := update state.tabs tab value }

/-- A message reaches every other tab. -/
def State.post (state : State) (source : Nat) (message : TabOutboxEvent) : State :=
  { state with
    tabs := fun tab =>
      if tab = source then state.tabs tab
      else { state.tabs tab with inbox := (state.tabs tab).inbox ++ [message] } }

/-- `runFlush`: a follower asks the leader to drain the shared queue. -/
def State.runFlush (state : State) (tab : Nat) : State :=
  if (state.tabs tab).leadership = .follower then state.post tab .flushRequest
  else state.setTab tab ((state.tabs tab).runFlush state.rows)

section

variable (state : State)

def State.setCall (call : Nat) (value : Option Call) : State :=
  { state with calls := update state.calls call value }

def State.save (entry : Entry) : State :=
  { state with
    nextId := state.nextId + 1
    rows := state.rows.put { entry with id := state.nextId }
    tabs := fun tab => (state.tabs tab).owe state.nextId }

/-- Mark the entry as withdrawn in this tab, tell the other tabs, and delete the row. -/
def State.mark (call tab id : Nat) : State :=
  let marked := state.setTab tab
    { state.tabs tab with cancelled := id :: (state.tabs tab).cancelled }
  { (marked.post tab (.entryCancelled id)).setCall call (some ⟨tab, .deleting id⟩) with
    log := .marked id :: state.log }

/-- The row could not be deleted: the mark is taken back, so that the check after it fails. -/
def State.unmark (call tab id : Nat) : State :=
  { (state.setTab tab { state.tabs tab with
      cancelled := (state.tabs tab).cancelled.filter (· ≠ id) }).setCall call none with
    log := .answered id false :: state.log }

/-- The next stretch of an `enqueue` or a `cancelPending`. -/
def State.resume (call : Nat) (tab : Nat) (ok : Bool) : CallStage → State
  | .saving entry =>
    if ok then (state.save entry).setCall call (some ⟨tab, .queued⟩)
    else state.setCall call (some ⟨tab, .queued⟩)
  | .queued => (state.setCall call none).runFlush tab
  | .looking id =>
    state.setCall call (some ⟨tab, .looked id (ok && decide (id ∈ state.rows.ids))⟩)
  | .looked id false =>
    { state.setCall call none with log := .answered id false :: state.log }
  | .looked id true => state.mark call tab id
  | .deleting id =>
    if ok then
      { state.setCall call (some ⟨tab, .deleted id true⟩) with
        rows := state.rows.remove id
        log := .withdrawn id :: state.log }
    else state.setCall call (some ⟨tab, .deleted id false⟩)
  | .deleted id true =>
    if id ∈ (state.tabs tab).cancelled then state.setCall call (some ⟨tab, .mirroring id⟩)
    else { state.setCall call none with log := .answered id false :: state.log }
  | .deleted id false => state.unmark call tab id
  | .mirroring id =>
    { state.setCall call none with
      log := .answered id (decide ((state.tabs tab).inFlight ≠ some id)) :: state.log }

def State.receive (tab : Nat) : TabOutboxEvent → State
  | .flushRequest =>
    if (state.tabs tab).leadership = .leader then state.runFlush tab else state
  | .entryCancelled id =>
    state.setTab tab { state.tabs tab with cancelled := id :: (state.tabs tab).cancelled }

def step : Action → Option State
  | .tick => some { state with clock := state.clock + 1 }
  | .reload tab =>
    some { state.setTab tab .fresh with
      calls := fun call => (state.calls call).filter fun running => running.tab ≠ tab }
  | .elect tab leads =>
    if (state.tabs tab).leadership = .undecided then
      let decided := state.setTab tab { state.tabs tab with
        leadership := if leads then .leader else .follower
        waiting := false
        owed := if leads then (state.tabs tab).owed else [] }
      some (if (state.tabs tab).waiting then decided.runFlush tab else decided)
    else none
  | .release tab =>
    if (state.tabs tab).leadership = .leader then
      some (state.setTab tab { state.tabs tab with leadership := .follower, owed := [] })
    else none
  | .promote tab =>
    if (state.tabs tab).leadership = .follower then
      some (state.setTab tab { state.tabs tab with leadership := .leader })
    else none
  | .disconnect tab => some (state.setTab tab { state.tabs tab with offline := true })
  | .reconnect tab =>
    some ((state.setTab tab { state.tabs tab with offline := false }).runFlush tab)
  | .suspend tab => some (state.setTab tab { state.tabs tab with canFlush := false })
  | .ready tab =>
    some ((state.setTab tab { state.tabs tab with canFlush := true }).runFlush tab)
  | .kick tab => some (state.runFlush tab)
  | .fire tab =>
    match (state.tabs tab).backoffTimer with
    | none => none
    | some deadline =>
      if deadline ≤ state.clock then
        some ((state.setTab tab { state.tabs tab with backoffTimer := none }).runFlush tab)
      else none
  | .deliver tab =>
    match (state.tabs tab).inbox with
    | [] => none
    | message :: inbox =>
      some ((state.setTab tab { state.tabs tab with inbox }).receive tab message)
  | .enqueue call tab entry alreadyDurable =>
    if state.calls call = none then
      some (if alreadyDurable then (state.save entry).setCall call (some ⟨tab, .queued⟩)
        else state.setCall call (some ⟨tab, .saving entry⟩))
    else none
  | .cancel call tab id =>
    if state.calls call = none then some (state.setCall call (some ⟨tab, .looking id⟩))
    else none
  | .resume call ok => (state.calls call).map fun running =>
    state.resume call running.tab ok running.stage
  | .flush tab outcome =>
    (flushStep state.clock state.rows (state.tabs tab) outcome).map fun (value, rows, events) =>
      { state.setTab tab value with rows, log := events ++ state.log }

end

/-! ## 5. What a step does

The actions that open and close the gates of a tab, and the kicks, leave the queue, the calls
and the log alone, and start at most a flush that has read nothing yet. -/

variable {tab clock : Nat} {state : State} {value : Tab} {rows after : Rows} {events : List Event}

@[simp] theorem setTab_self (state : State) (tab : Nat) (value : Tab) :
    (state.setTab tab value).tabs tab = value := update_self _ _ _

@[simp] theorem setTab_other (state : State) {other : Nat} (value : Tab) (h : other ≠ tab) :
    (state.setTab tab value).tabs other = state.tabs other := update_of_ne h _ _

/-- What holds of the new value and of every other tab holds of all tabs. -/
theorem forall_setTab {p : Nat → Tab → Prop}
    (hself : p tab value) (hother : ∀ other, other ≠ tab → p other (state.tabs other))
    (other : Nat) : p other ((state.setTab tab value).tabs other) :=
  (forall_update_iff state.tabs p).mpr ⟨hself, hother⟩ other

theorem setTab_stage (other : Nat) (h : value.stage = (state.tabs tab).stage) :
    ((state.setTab tab value).tabs other).stage = (state.tabs other).stage := by
  by_cases hsame : other = tab
  · rw [hsame, setTab_self, h]
  · rw [setTab_other state value hsame]

theorem post_stage (state : State) (source tab : Nat) (message : TabOutboxEvent) :
    ((state.post source message).tabs tab).stage = (state.tabs tab).stage := by
  simp only [post]
  split <;> rfl

/-- What such an action does to one tab. -/
structure Benign (tab after : Tab) : Prop where
  cancelled : after.cancelled = tab.cancelled
  inbox : ∀ id, .entryCancelled id ∈ after.inbox ↔ .entryCancelled id ∈ tab.inbox
  stage : after.stage = tab.stage ∨ (tab.stage = .idle ∧ after.stage = .settling)

theorem Benign.refl (tab : Tab) : Benign tab tab := ⟨rfl, fun _ => Iff.rfl, .inl rfl⟩

theorem Benign.trans {tab between after : Tab} (hfirst : Benign tab between)
    (hsecond : Benign between after) : Benign tab after where
  cancelled := hsecond.cancelled.trans hfirst.cancelled
  inbox := fun id => (hsecond.inbox id).trans (hfirst.inbox id)
  stage := by
    rcases hfirst.stage with hsame | ⟨hidle, hsettling⟩
    · rw [← hsame]
      exact hsecond.stage
    · rcases hsecond.stage with hsame | ⟨hidle', _⟩
      · exact .inr ⟨hidle, hsame.trans hsettling⟩
      · cases hsettling.symm.trans hidle'

theorem Benign.runFlush (rows : Rows) (tab : Tab) : Benign tab (tab.runFlush rows) := by
  unfold Tab.runFlush
  split
  · exact ⟨rfl, fun _ => Iff.rfl, .inl rfl⟩
  · split
    · exact ⟨rfl, fun _ => Iff.rfl, .inl rfl⟩
    · split
      next hidle => exact ⟨rfl, fun _ => Iff.rfl, .inr ⟨hidle, rfl⟩⟩
      · exact ⟨rfl, fun _ => Iff.rfl, .inl rfl⟩

/-- Two states that differ only in what such actions change. -/
structure BenignStep (state next : State) : Prop where
  rows : next.rows = state.rows
  calls : next.calls = state.calls
  log : next.log = state.log
  nextId : next.nextId = state.nextId
  tabs : ∀ tab, Benign (state.tabs tab) (next.tabs tab)

open BenignStep

theorem BenignStep.trans {between next : State} (hfirst : BenignStep state between)
    (hsecond : BenignStep between next) : BenignStep state next where
  rows := hsecond.rows.trans hfirst.rows
  calls := hsecond.calls.trans hfirst.calls
  log := hsecond.log.trans hfirst.log
  nextId := hsecond.nextId.trans hfirst.nextId
  tabs := fun tab => (hfirst.tabs tab).trans (hsecond.tabs tab)

theorem BenignStep.setTab (state : State)
    (h : Benign (state.tabs tab) value) : BenignStep state (state.setTab tab value) where
  rows := rfl
  calls := rfl
  log := rfl
  nextId := rfl
  tabs := fun other => by
    by_cases hsame : other = tab
    · subst hsame
      rw [setTab_self]
      exact h
    · rw [setTab_other state value hsame]
      exact Benign.refl _

theorem BenignStep.runFlush (state : State) (tab : Nat) :
    BenignStep state (state.runFlush tab) := by
  unfold State.runFlush
  split
  · refine ⟨rfl, rfl, rfl, rfl, fun other => ?_⟩
    simp only [post]
    split
    · exact Benign.refl _
    · exact ⟨rfl, fun id => by simp, .inl rfl⟩
  · exact setTab state (Benign.runFlush _ _)

/-- A change of the gates of one tab, then perhaps a kick. -/
theorem BenignStep.gate (state : State) (h : Benign (state.tabs tab) value) :
    BenignStep state ((state.setTab tab value).runFlush tab) :=
  (setTab state h).trans (runFlush _ tab)

/-- Everything a stretch of `enqueue` or of `cancelPending` can do. -/
inductive ResumeMove (state : State) (call tab : Nat) : Bool → CallStage → State → Prop
  | save (entry : Entry) :
      ResumeMove state call tab true (.saving entry)
        ((state.save entry).setCall call (some ⟨tab, .queued⟩))
  | unsaved (entry : Entry) :
      ResumeMove state call tab false (.saving entry) (state.setCall call (some ⟨tab, .queued⟩))
  | kick {ok : Bool} :
      ResumeMove state call tab ok .queued ((state.setCall call none).runFlush tab)
  | look {ok : Bool} (id : Nat) (found : Bool) :
      ResumeMove state call tab ok (.looking id) (state.setCall call (some ⟨tab, .looked id found⟩))
  | absent {ok : Bool} (id : Nat) :
      ResumeMove state call tab ok (.looked id false)
        { state.setCall call none with log := .answered id false :: state.log }
  | mark {ok : Bool} (id : Nat) :
      ResumeMove state call tab ok (.looked id true) (state.mark call tab id)
  | delete (id : Nat) :
      ResumeMove state call tab true (.deleting id)
        { state.setCall call (some ⟨tab, .deleted id true⟩) with
          rows := state.rows.remove id
          log := .withdrawn id :: state.log }
  | undeleted (id : Nat) :
      ResumeMove state call tab false (.deleting id)
        (state.setCall call (some ⟨tab, .deleted id false⟩))
  | confirm {ok : Bool} (id : Nat) (hmarked : id ∈ (state.tabs tab).cancelled) :
      ResumeMove state call tab ok (.deleted id true)
        (state.setCall call (some ⟨tab, .mirroring id⟩))
  | spent {ok : Bool} (id : Nat) (hspent : id ∉ (state.tabs tab).cancelled) :
      ResumeMove state call tab ok (.deleted id true)
        { state.setCall call none with log := .answered id false :: state.log }
  | unmark {ok : Bool} (id : Nat) :
      ResumeMove state call tab ok (.deleted id false) (state.unmark call tab id)
  | answer {ok : Bool} (id : Nat) :
      ResumeMove state call tab ok (.mirroring id) { state.setCall call none with
          log := .answered id (decide ((state.tabs tab).inFlight ≠ some id)) :: state.log }

theorem resume_move (state : State) (call tab : Nat) (ok : Bool) (stage : CallStage) :
    ResumeMove state call tab ok stage (state.resume call tab ok stage) := by
  cases stage with
  | saving entry =>
    cases ok with
    | true => exact .save entry
    | false => exact .unsaved entry
  | queued => exact .kick
  | looking id => exact .look id _
  | looked id found =>
    cases found with
    | true => exact .mark id
    | false => exact .absent id
  | deleting id =>
    cases ok with
    | true => exact .delete id
    | false => exact .undeleted id
  | deleted id deleted =>
    cases deleted with
    | true =>
      rw [resume]
      split
      next hmarked => exact .confirm id hmarked
      next hspent => exact .spent id hspent
    | false => exact .unmark id
  | mirroring id => exact .answer id

/-- Everything an action can do. -/
inductive Move (state : State) : Action → State → Prop
  | benign {action : Action} {next : State} (h : BenignStep state next) : Move state action next
  | reload (tab : Nat) :
      Move state (.reload tab) { state.setTab tab .fresh with
        calls := fun call => (state.calls call).filter fun running => running.tab ≠ tab }
  | mark (tab id : Nat) (inbox : List TabOutboxEvent)
      (hinbox : (state.tabs tab).inbox = .entryCancelled id :: inbox) :
      Move state (.deliver tab) (state.setTab tab { state.tabs tab with
        inbox
        cancelled := id :: (state.tabs tab).cancelled })
  | enqueue (call tab : Nat) (entry : Entry) (hcall : state.calls call = none) :
      Move state (.enqueue call tab entry false) (state.setCall call (some ⟨tab, .saving entry⟩))
  | enqueueDurable (call tab : Nat) (entry : Entry) (hcall : state.calls call = none) :
      Move state (.enqueue call tab entry true)
        ((state.save entry).setCall call (some ⟨tab, .queued⟩))
  | cancel (call tab id : Nat) (hcall : state.calls call = none) :
      Move state (.cancel call tab id) (state.setCall call (some ⟨tab, .looking id⟩))
  | resume (call : Nat) (running : Call) (ok : Bool) {next : State}
      (hcall : state.calls call = some running)
      (h : ResumeMove state call running.tab ok running.stage next) :
      Move state (.resume call ok) next
  | flush (tab : Nat) (outcome : Outcome) {value : Tab} {rows : Rows} {events : List Event}
      (h : flushStep state.clock state.rows (state.tabs tab) outcome = some (value, rows, events)) :
      Move state (.flush tab outcome)
        { state.setTab tab value with rows, log := events ++ state.log }

theorem step_move {next : State} {action : Action} (h : step state action = some next) :
    Move state action next := by
  cases action with
  | tick =>
    cases h
    exact .benign ⟨rfl, rfl, rfl, rfl, fun tab => Benign.refl _⟩
  | reload tab =>
    cases h
    exact .reload tab
  | elect tab leads =>
    obtain ⟨_, rfl⟩ := ite_some_none_eq_some.mp h
    have hdecided : BenignStep state (state.setTab tab { state.tabs tab with
        leadership := if leads then .leader else .follower
        waiting := false
        owed := if leads then (state.tabs tab).owed else [] }) :=
      setTab state ⟨rfl, fun _ => Iff.rfl, .inl rfl⟩
    split
    · exact .benign (hdecided.trans (runFlush _ tab))
    · exact .benign hdecided
  | release tab | promote tab =>
    obtain ⟨_, rfl⟩ := ite_some_none_eq_some.mp h
    exact .benign (setTab state ⟨rfl, fun _ => Iff.rfl, .inl rfl⟩)
  | disconnect tab | suspend tab =>
    cases h
    exact .benign (setTab state ⟨rfl, fun _ => Iff.rfl, .inl rfl⟩)
  | reconnect tab | ready tab =>
    cases h
    exact .benign (gate state ⟨rfl, fun _ => Iff.rfl, .inl rfl⟩)
  | kick tab =>
    cases h
    exact .benign (runFlush state tab)
  | fire tab =>
    simp only [step] at h
    split at h
    · cases h
    · obtain ⟨_, rfl⟩ := ite_some_none_eq_some.mp h
      exact .benign (gate state ⟨rfl, fun _ => Iff.rfl, .inl rfl⟩)
  | deliver tab =>
    simp only [step] at h
    split at h
    · cases h
    next message inbox hinbox =>
      cases h
      cases message with
      | flushRequest =>
        have hpopped : BenignStep state (state.setTab tab { state.tabs tab with inbox }) :=
          setTab state ⟨rfl, fun id => by simp [hinbox], .inl rfl⟩
        unfold receive
        dsimp only
        split
        · exact .benign (hpopped.trans (runFlush _ tab))
        · exact .benign hpopped
      | entryCancelled id =>
        have hmove : Move state (.deliver tab) _ := .mark tab id inbox hinbox
        simpa [State.receive, State.setTab] using hmove
  | enqueue call tab entry alreadyDurable =>
    obtain ⟨hcall, rfl⟩ := ite_some_none_eq_some.mp h
    cases alreadyDurable with
    | true => exact .enqueueDurable call tab entry hcall
    | false => exact .enqueue call tab entry hcall
  | cancel call tab id =>
    obtain ⟨hcall, rfl⟩ := ite_some_none_eq_some.mp h
    exact .cancel call tab id hcall
  | resume call ok =>
    obtain ⟨running, hcall, hnext⟩ := map_eq_some_iff.mp h
    cases hnext
    exact .resume call running ok hcall (resume_move state call running.tab ok running.stage)
  | flush tab outcome =>
    obtain ⟨⟨value, rows, events⟩, hflush, hnext⟩ := map_eq_some_iff.mp h
    cases hnext
    exact .flush tab outcome hflush

/-- Everything a step of a flush can do to its tab, to the queue and to the log. -/
inductive FlushMove (clock : Nat) (rows : Rows) (tab : Tab) :
    Outcome → Tab → Rows → List Event → Prop
  | begin {outcome : Outcome} (hstage : tab.stage = .settling) :
      FlushMove clock rows tab outcome tab.pass rows []
  | read (hstage : tab.stage = .reading) :
      FlushMove clock rows tab .ok { tab.restrict rows with stage := .decoding rows.rows } rows []
  | unread (hstage : tab.stage = .reading) :
      FlushMove clock rows tab .fails { tab with stage := .decoding [] } rows []
  | empty (hstage : tab.stage = .decoding []) :
      FlushMove clock rows tab .ok { tab with stage := .idle } rows []
  | walk {entries : List Entry} (hstage : tab.stage = .decoding entries) (h : entries ≠ []) :
      FlushMove clock rows tab .ok { tab with stage := .walking entries false } rows []
  | walked {anySent : Bool} (hstage : tab.stage = .walking [] anySent) :
      FlushMove clock rows tab .ok { tab with stage := .rereading anySent } rows []
  | withdrawn {entry : Entry} {rest : List Entry} {anySent : Bool}
      (hstage : tab.stage = .walking (entry :: rest) anySent) (h : entry.id ∈ tab.cancelled) :
      FlushMove clock rows tab .ok { tab.restrict rows with
          stage := .walking rest anySent
          cancelled := tab.cancelled.filter (· ≠ entry.id) } rows []
  | skip {entry : Entry} {rest : List Entry} {anySent : Bool}
      (hstage : tab.stage = .walking (entry :: rest) anySent) (h : entry.id ∉ tab.cancelled) :
      FlushMove clock rows tab .ok
        { tab with stage := .walking rest anySent, skipped := entry.id :: tab.skipped } rows []
  | drop {entry : Entry} {rest : List Entry} {anySent : Bool}
      (hstage : tab.stage = .walking (entry :: rest) anySent) (h : entry.id ∉ tab.cancelled) :
      FlushMove clock rows tab .ok { tab with
          owed := if tab.rerun then tab.owed else tab.owed.filter (· ≠ entry.id)
          stage := .attempting entry (.removing .channel) rest anySent } rows
        [.settled entry.id .channel]
  | take {entry : Entry} {rest : List Entry} {anySent : Bool}
      (hstage : tab.stage = .walking (entry :: rest) anySent) (h : entry.id ∉ tab.cancelled) :
      FlushMove clock rows tab .ok { tab with
          owed := if tab.rerun then tab.owed else tab.owed.filter (· ≠ entry.id)
          stage := .attempting entry .groupMeta rest anySent } rows []
  | attempt {entry : Entry} {attempt : Attempt} {rest : List Entry} {anySent : Bool}
      {outcome : Outcome} {progress : Progress} {after : Rows} {events : List Event}
      (hstage : tab.stage = .attempting entry attempt rest anySent)
      (h : attemptStep clock rows entry attempt outcome = some (progress, after, events)) :
      FlushMove clock rows tab outcome (tab.proceed entry rest anySent progress) after events
  | reread {anySent : Bool} (hstage : tab.stage = .rereading anySent) :
      FlushMove clock rows tab .ok
        { tab.restrict rows with stage := .scheduling rows.rows anySent } rows []
  | unreread {anySent : Bool} (hstage : tab.stage = .rereading anySent) :
      FlushMove clock rows tab .fails { tab with stage := .scheduling [] anySent } rows []
  | endPass {remaining : List Entry} {anySent : Bool}
      (hstage : tab.stage = .scheduling remaining anySent) :
      FlushMove clock rows tab .ok (tab.endPass clock remaining anySent) rows []

theorem flushStep_move {tab : Tab} {outcome : Outcome}
    (h : flushStep clock rows tab outcome = some (value, after, events)) :
    FlushMove clock rows tab outcome value after events := by
  unfold flushStep at h
  split at h
  · cases h
    exact .begin ‹_›
  · cases h
    exact .begin ‹_›
  · cases h
    exact .read ‹_›
  · cases h
    exact .unread ‹_›
  next entries hstage =>
    cases h
    by_cases hempty : entries = []
    · subst hempty
      exact .empty hstage
    · rw [if_neg hempty]
      exact .walk hstage hempty
  · cases h
    exact .walked ‹_›
  next entry rest anySent hstage =>
    simp only [Tab.flushOne] at h
    split at h
    next hmarked =>
      cases h
      exact .withdrawn hstage hmarked
    next hunmarked =>
      split at h
      · cases h
        exact .skip hstage hunmarked
      · split at h
        · cases h
          exact .drop hstage hunmarked
        · cases h
          exact .take hstage hunmarked
  next entry attempt rest anySent hstage =>
    obtain ⟨⟨progress, found, noted⟩, hattempt, hvalue⟩ := map_eq_some_iff.mp h
    cases hvalue
    exact .attempt hstage hattempt
  · cases h
    exact .reread ‹_›
  · cases h
    exact .unreread ‹_›
  · cases h
    exact .endPass ‹_›
  · cases h

/-- Before any work for the entry has left the device or changed its row. -/
def Attempt.early : Attempt → Bool
  | .groupMeta => true
  | .readding => true
  | .membership => true
  | .preparing => true
  | _ => false

/-- The row that a write about to be made was computed from. -/
def Attempt.existing : Attempt → Option Entry
  | .writingRef existing => some existing
  | .writingBackoff _ existing => some existing
  | _ => none

/-- The writes that record what became of the entry. -/
def Attempt.bookkeeping : Attempt → Bool
  | .removing _ => true
  | .readingBackoff _ => true
  | .writingBackoff _ _ => true
  | _ => false

/-- The stages that an earlier event must explain. -/
def Attempt.explained : Attempt → Bool
  | .sending => true
  | .persisting => true
  | .removing _ => true
  | _ => false

/-- Everything a stretch of `flushOne` can do. -/
inductive AttemptMove (rows : Rows) (entry : Entry) :
    Attempt → Outcome → Progress → Rows → List Event → Prop
  | wait {attempt next : Attempt} {outcome : Outcome} (hunexplained : next.explained = false)
      (hlate : attempt.early = true ∨ next.early = false)
      (hread : ∀ existing, next.existing = some existing → existing.id = entry.id) :
      AttemptMove rows entry attempt outcome (.next next) rows []
  | settle {attempt : Attempt} {outcome : Outcome} (removal : Removal) :
      AttemptMove rows entry attempt outcome (.next (.removing removal)) rows
        [.settled entry.id removal]
  | deliver {outcome : Outcome} :
      AttemptMove rows entry .sending outcome (.next .persisting) rows [.settled entry.id .sent]
  | persist {outcome : Outcome} :
      AttemptMove rows entry .persisting outcome (.next (.removing .sent)) rows []
  | call {attempt : Attempt} {outcome : Outcome} :
      AttemptMove rows entry attempt outcome (.next .sending) rows [.called entry.id]
  | storeRef {existing : Entry} :
      AttemptMove rows entry (.writingRef existing) .ok (.next .sending)
        (rows.put { existing with uploadedRef := true }) [.called entry.id]
  | giveUp {attempt : Attempt} {outcome : Outcome} {progress : Progress}
      (hearly : attempt.early = true) (hprogress : progress = .retry ∨ progress = .threw)
      (hthrew : progress = .threw → outcome = .throws) :
      AttemptMove rows entry attempt outcome progress rows []
  | remove (removal : Removal) :
      AttemptMove rows entry (.removing removal) .ok removal.progress (rows.remove entry.id) []
  | keep (removal : Removal) :
      AttemptMove rows entry (.removing removal) .fails removal.progress rows []
  | backOff {now : Nat} {existing : Entry} :
      AttemptMove rows entry (.writingBackoff now existing) .ok .retry
        (rows.put (backedOff entry existing now)) []
  | unsaved {attempt : Attempt} (h : attempt.bookkeeping = true) :
      AttemptMove rows entry attempt .fails .retry rows []
  | gone {now : Nat} (habsent : rows.find entry.id = none) :
      AttemptMove rows entry (.readingBackoff now) .ok .retry rows []

theorem caught_move {entry : Entry} {attempt : Attempt} {kind : MlsSendErrorKind}
    {progress : Progress} (h : caught clock entry rows kind = (progress, after, events)) :
    AttemptMove rows entry attempt (.refused kind) progress after events := by
  cases kind with cases h
  | evicted | groupDeleted =>
    exact .settle _
  | senderNotActive | unknown =>
    exact .wait rfl (.inr rfl) fun _ hread => nomatch hread

theorem attemptStep_move {entry : Entry} {attempt : Attempt}
    {outcome : Outcome} {progress : Progress}
    (h : attemptStep clock rows entry attempt outcome = some (progress, after, events)) :
    AttemptMove rows entry attempt outcome progress after events := by
  unfold attemptStep at h
  split at h
  · cases h
    exact .settle _
  · cases h
    exact .wait rfl (.inl rfl) fun _ hread => nomatch hread
  · cases h
    exact .giveUp rfl (.inr rfl) fun _ => rfl
  · cases h
    exact .wait rfl (.inl rfl) fun _ hread => nomatch hread
  · cases h
    exact .giveUp rfl (.inl rfl) nofun
  · cases h
    exact .giveUp rfl (.inl rfl) nofun
  · cases h
    exact .giveUp rfl (.inl rfl) nofun
  · cases h
    exact .settle _
  · split at h
    · cases h
      exact .wait rfl (.inl rfl) fun _ hread => nomatch hread
    · cases h
      exact .call
  · split at h
    · cases h
      exact .call
    · cases h
      exact .wait rfl (.inl rfl) fun _ hread => nomatch hread
  · exact caught_move (some.inj h)
  · split at h
    · cases h
      exact .call
    next existing hfound =>
      cases h
      refine .wait rfl (.inr rfl) fun other hother => ?_
      cases hother
      exact (Table.find_eq_some_iff.mp hfound).2
  · cases h
    exact .call
  · cases h
    exact .storeRef
  · cases h
    exact .call
  · cases h
    exact .deliver
  · exact caught_move (some.inj h)
  · cases h
    exact .persist
  · cases h
    exact .persist
  · cases h
    exact .remove _
  · cases h
    exact .keep _
  · cases h
    exact .wait rfl (.inr rfl) fun _ hread => nomatch hread
  · cases h
    exact .wait rfl (.inr rfl) fun _ hread => nomatch hread
  · split at h
    next habsent =>
      cases h
      exact .gone habsent
    next existing hfound =>
      cases h
      refine .wait rfl (.inr rfl) fun other hother => ?_
      cases hother
      exact (Table.find_eq_some_iff.mp hfound).2
  · cases h
    exact .unsaved rfl
  · cases h
    exact .backOff
  · cases h
    exact .unsaved rfl
  · cases h

end MinesApp.Outbox
