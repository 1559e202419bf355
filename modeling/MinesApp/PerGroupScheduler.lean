import MinesApp.OrderedMap
import MinesApp.TransitionSystem
import Mathlib.Algebra.GroupWithZero.Nat
import Mathlib.Data.Finset.Basic

/-!
# The per-group MLS message scheduler

`frontend/src/lib/mls-client/mlsPerGroupScheduler.ts` keeps one bucket of
messages per conversation and drains the buckets in round-robin order, one
message at a time.  A Welcome opens a window for its group: until the window is
closed, further messages of the group are parked in a buffer instead of a bucket.

Between two awaits of `drain` anything may happen: messages arrive, handlers close
windows, `drain` is called again.  The model is therefore the scheduler's own
methods, and a machine that interleaves them with the steps of a drain.

The idle waiters, `currentGroupKey` (which only they read) and the log lines are
left out.
-/

namespace MinesApp.PerGroupScheduler

open TransitionSystem List OrderedMap Option

/-! ## 1. Messages, buckets and the scheduler -/

def mlsQueueOrphanKey : String := "__no_group__"

/-- The fields of a queued message that the scheduler reads. -/
structure MlsQueuedMessage where
  groupId : Option String
  isWelcome : Bool
  type : Option String
deriving DecidableEq, Repr

/-- A message as one call of `enqueue` handed it over: the same message may be
    enqueued twice, so calls are told apart by their number. -/
structure Queued where
  ticket : Nat
  msg : MlsQueuedMessage
deriving DecidableEq, Repr

inductive MlsPerGroupQueueMode where
  | web
  | tauri
deriving DecidableEq, Repr

structure GroupBuckets where
  control : List Queued
  welcome : List Queued
  messages : List Queued
deriving DecidableEq, Repr

open GroupBuckets

def GroupBuckets.empty : GroupBuckets := ⟨[], [], []⟩

def GroupBuckets.all (bucket : GroupBuckets) : List Queued :=
  bucket.control ++ bucket.welcome ++ bucket.messages

inductive Tier where
  | control
  | welcome
  | messages
deriving DecidableEq, Repr

def GroupBuckets.tier (bucket : GroupBuckets) : Tier → List Queued
  | .control => bucket.control
  | .welcome => bucket.welcome
  | .messages => bucket.messages

def GroupBuckets.setTier (bucket : GroupBuckets) (tier : Tier) (list : List Queued) :
    GroupBuckets :=
  match tier with
  | .control => { bucket with control := list }
  | .welcome => { bucket with welcome := list }
  | .messages => { bucket with messages := list }

structure Scheduler where
  mode : MlsPerGroupQueueMode
  buckets : OrderedMap String GroupBuckets
  rrKeys : List String
  rrKeySet : Finset String
  rrIndex : Nat
  isDraining : Bool
  pendingWelcomeGroups : OrderedMap String (List Queued)

open Scheduler

def Scheduler.new (mode : MlsPerGroupQueueMode) : Scheduler :=
  ⟨mode, .empty, [], ∅, 0, false, .empty⟩

def queueKey (groupId : Option String) : String := groupId.getD mlsQueueOrphanKey

/-- `groupId && …`: an absent or empty id is false. -/
def truthy (groupId : Option String) : Option String := groupId.filter (· ≠ "")

namespace Scheduler

variable (scheduler : Scheduler)

def getPendingCount : Nat :=
  (scheduler.buckets.entries.map fun entry =>
    entry.2.control.length + entry.2.welcome.length + entry.2.messages.length).sum

/-- The bucket of a key, created and entered in the rotation when it is missing. -/
def getBucket (key : String) : Scheduler × GroupBuckets :=
  match scheduler.buckets.get? key with
  | some bucket => (scheduler, bucket)
  | none =>
    let created := { scheduler with buckets := scheduler.buckets.set key .empty }
    if key ∈ scheduler.rrKeySet then (created, .empty)
    else
      ({ created with
          rrKeys := scheduler.rrKeys ++ [key], rrKeySet := insert key scheduler.rrKeySet },
       .empty)

/-- The bucket object is shared with the map, so changing it changes the map. -/
def putBucket (key : String) (bucket : GroupBuckets) : Scheduler :=
  { scheduler with buckets := scheduler.buckets.set key bucket }

/-- `getBucket(key)` followed by a mutation of the bucket it returned. -/
def changeBucket (key : String) (change : GroupBuckets → GroupBuckets) : Scheduler :=
  let (found, bucket) := scheduler.getBucket key
  found.putBucket key (change bucket)

def openWindow (groupId : String) : Scheduler :=
  match scheduler.pendingWelcomeGroups.get? groupId with
  | some _ => scheduler
  | none =>
    { scheduler with pendingWelcomeGroups := scheduler.pendingWelcomeGroups.set groupId [] }

/-- The part of `enqueue` that goes to a bucket. -/
def enqueueToBucket (queued : Queued) : Scheduler :=
  let key := queueKey queued.msg.groupId
  if queued.msg.isWelcome then
    -- `getBucket` comes first, the window second; they touch different maps
    let opened := (truthy queued.msg.groupId).elim scheduler scheduler.openWindow
    match scheduler.mode with
    | .tauri =>
      opened.changeBucket key fun bucket =>
        { bucket with welcome := bucket.welcome ++ [queued] }
    | .web =>
      opened.changeBucket key fun bucket =>
        { bucket with messages := queued :: bucket.messages }
  else
    scheduler.changeBucket key fun bucket =>
      { bucket with messages := bucket.messages ++ [queued] }

def enqueue (queued : Queued) : Scheduler :=
  if queued.msg.type = some "group_reset" ∧ scheduler.mode = .tauri then
    scheduler.changeBucket (queueKey queued.msg.groupId) fun bucket =>
      { bucket with control := bucket.control ++ [queued] }
  else
    match truthy queued.msg.groupId with
    | some groupId =>
      match scheduler.pendingWelcomeGroups.get? groupId, queued.msg.isWelcome with
      | some buffered, false =>
        { scheduler with
          pendingWelcomeGroups :=
            scheduler.pendingWelcomeGroups.set groupId (buffered ++ [queued]) }
      | _, _ => scheduler.enqueueToBucket queued
    | none => scheduler.enqueueToBucket queued

/-- The loop of `unshift` calls, last buffered message first. -/
def unshiftAll (buffered messages : List Queued) : List Queued :=
  buffered.reverse.foldl (fun front queued => queued :: front) messages

def releaseWelcomeBuffer (groupId : String) : Scheduler :=
  let closed :=
    { scheduler with pendingWelcomeGroups := scheduler.pendingWelcomeGroups.erase groupId }
  match scheduler.pendingWelcomeGroups.get? groupId with
  | none | some [] => closed
  | some buffered =>
    closed.changeBucket (queueKey (some groupId)) fun bucket =>
      { bucket with messages := unshiftAll buffered bucket.messages }

def releaseStrandedWelcomeBuffers : Scheduler :=
  if 0 < scheduler.getPendingCount ∨ scheduler.pendingWelcomeGroups.keys.length = 0 then scheduler
  else scheduler.pendingWelcomeGroups.keys.foldl releaseWelcomeBuffer scheduler

/-- One turn of the loop of `pruneEmptyKeys`, at index `i` of the rotation. -/
def pruneAt (i : Nat) : Scheduler :=
  match scheduler.rrKeys[i]? with
  | none => scheduler
  | some key =>
    if ((scheduler.buckets.get? key).elim [] all).length = 0 then
      { scheduler with
        rrKeys := scheduler.rrKeys.eraseIdx i
        rrKeySet := scheduler.rrKeySet.erase key
        buckets := scheduler.buckets.erase key }
    else scheduler

def pruneEmptyKeys : Scheduler :=
  let pruned := (range scheduler.rrKeys.length).reverse.foldl pruneAt scheduler
  if pruned.rrKeys.length ≤ pruned.rrIndex then { pruned with rrIndex := 0 } else pruned

/-- What the loop of `pickFromTier` does at one offset of the rotation. -/
def pickAt (tier : Tier) (offset : Nat) : Option (Scheduler × Queued) :=
  let n := scheduler.rrKeys.length
  let idx := (scheduler.rrIndex + offset) % n
  match scheduler.rrKeys[idx]? with
  | none => none
  | some key =>
    match scheduler.buckets.get? key with
    | none => none
    | some bucket =>
      match bucket.tier tier with
      | [] => none
      | queued :: rest =>
        some ({ scheduler.putBucket key (bucket.setTier tier rest) with
          rrIndex := (idx + 1) % n }, queued)

def pickFromTier (tier : Tier) : Option (Scheduler × Queued) :=
  (range scheduler.rrKeys.length).findSome? (scheduler.pickAt tier)

def tiers : MlsPerGroupQueueMode → List Tier
  | .tauri => [.control, .welcome, .messages]
  | .web => [.messages]

/-- The scheduler after the call, with the message picked if there was one. -/
def pickNext : Scheduler × Option Queued :=
  if scheduler.rrKeys.length = 0 then (scheduler, none)
  else
    match (tiers scheduler.mode).findSome? scheduler.pickFromTier with
    | some (picked, queued) => (picked.pruneEmptyKeys, some queued)
    | none => (scheduler.pruneEmptyKeys, none)

end Scheduler

/-! ## 2. A drain among other callers -/

/-- Where the running drain stands: about to test the loop condition, holding a
    message and waiting for the MLS lock, inside `processMessage`, or in the
    `finally` block awaiting `onDrainEnd`. -/
inductive DrainPoint where
  | looping
  | picked (queued : Queued)
  | processing (queued : Queued)
  | ending
deriving DecidableEq, Repr

/-- `handed` lists the calls of `processMessage`, `enqueued` the calls of `enqueue`. -/
structure Machine where
  scheduler : Scheduler
  point : Option DrainPoint
  handed : List Queued
  enqueued : List Queued

open Machine

inductive Action where
  | enqueue (msg : MlsQueuedMessage)
  | releaseWelcomeBuffer (groupId : String)
  | releaseStranded
  | drain (startHookThrows : Bool)
  | turn
  | lockAcquired
  | settle (threw : Bool)
  | finish
deriving DecidableEq, Repr

def step (machine : Machine) : Action → Option Machine
  | .enqueue msg =>
    let queued : Queued := ⟨machine.enqueued.length, msg⟩
    some { machine with
      scheduler := machine.scheduler.enqueue queued
      enqueued := queued :: machine.enqueued }
  | .releaseWelcomeBuffer groupId =>
    some { machine with scheduler := machine.scheduler.releaseWelcomeBuffer groupId }
  | .releaseStranded =>
    some { machine with scheduler := machine.scheduler.releaseStrandedWelcomeBuffers }
  | .drain startHookThrows =>
    if machine.scheduler.isDraining then some machine
    else if machine.scheduler.getPendingCount = 0 then some machine
    else
      some { machine with
        scheduler := { machine.scheduler with isDraining := true }
        point := some (if startHookThrows then .ending else .looping) }
  | .turn =>
    match machine.point with
    | some .looping =>
      if machine.scheduler.getPendingCount = 0 then some { machine with point := some .ending }
      else
        match machine.scheduler.pickNext with
        | (scheduler, none) => some { machine with scheduler, point := some .ending }
        | (scheduler, some queued) =>
          -- a Welcome is handed over at once, anything else waits for the lock
          if queued.msg.isWelcome then
            some { machine with
              scheduler
              point := some (.processing queued)
              handed := queued :: machine.handed }
          else some { machine with scheduler, point := some (.picked queued) }
    | _ => none
  | .lockAcquired =>
    match machine.point with
    | some (.picked queued) =>
      some { machine with
        point := some (.processing queued), handed := queued :: machine.handed }
    | _ => none
  | .settle threw =>
    match machine.point with
    | some (.processing _) =>
      some { machine with point := some (if threw then .ending else .looping) }
    | _ => none
  -- `onDrainEnd` has resolved, or its rejection was caught
  | .finish =>
    match machine.point with
    | some .ending =>
      some { machine with
        scheduler :=
          { machine.scheduler.releaseStrandedWelcomeBuffers with isDraining := false }
        point := none }
    | _ => none

def Machine.start (mode : MlsPerGroupQueueMode) : Machine := ⟨.new mode, none, [], []⟩

/-! ## 3. Where the scheduler keeps its messages

Every method is described by what it does to the two lists below, up to order. -/

namespace Scheduler

variable {scheduler : Scheduler}

section

variable (scheduler : Scheduler)

/-- Everything in the buckets. -/
def bucketed : List Queued := scheduler.buckets.contents all

def buffered : List Queued := scheduler.pendingWelcomeGroups.contents id

def held : List Queued := scheduler.bucketed ++ scheduler.buffered

end

variable {added : List Queued} {change : GroupBuckets → GroupBuckets} {queued : Queued}
  {next : Scheduler}

theorem getPendingCount_eq (scheduler : Scheduler) :
    scheduler.getPendingCount = scheduler.bucketed.length := by
  unfold getPendingCount bucketed contents
  rw [length_flatMap]
  congr 1
  simp only [GroupBuckets.all, length_append]

theorem bucketed_eq_nil : scheduler.bucketed = [] ↔ scheduler.getPendingCount = 0 := by
  rw [getPendingCount_eq, length_eq_zero_iff]

/-! ### Buckets -/

/-- `getBucket` moves no message: it returns what is under the key and at most
    creates an empty bucket. -/
structure Found (scheduler : Scheduler) (key : String) (found : Scheduler × GroupBuckets) :
    Prop where
  bucket : found.2.all = scheduler.buckets.itemsAt all key
  others : (found.1.buckets.erase key).contents all = (scheduler.buckets.erase key).contents all
  windows : found.1.pendingWelcomeGroups = scheduler.pendingWelcomeGroups
  draining : found.1.isDraining = scheduler.isDraining

theorem found_getBucket (scheduler : Scheduler) (key : String) :
    Found scheduler key (scheduler.getBucket key) := by
  have hset : ((scheduler.buckets.set key .empty).erase key).contents all =
      (scheduler.buckets.erase key).contents all := by
    simp only [OrderedMap.erase, OrderedMap.set, OrderedMap.discard_place]
  unfold getBucket
  cases hget : scheduler.buckets.get? key with
  | some bucket => exact ⟨by simp [itemsAt, hget], rfl, rfl, rfl⟩
  | none =>
    have hitems : GroupBuckets.empty.all = scheduler.buckets.itemsAt GroupBuckets.all key := by
      simp [itemsAt, hget, GroupBuckets.empty, GroupBuckets.all]
    by_cases hkey : key ∈ scheduler.rrKeySet
    · simp only [if_pos hkey]
      exact ⟨hitems, hset, rfl, rfl⟩
    · simp only [if_neg hkey]
      exact ⟨hitems, hset, rfl, rfl⟩

/-- Messages added to one tier of a bucket are added to the bucket. -/
theorem all_setTier (bucket : GroupBuckets) (tier : Tier) {list : List Queued}
    (h : list.Perm (added ++ bucket.tier tier)) :
    (bucket.setTier tier list).all.Perm (added ++ bucket.all) := by
  cases tier with
  | control =>
    simp only [GroupBuckets.all, GroupBuckets.setTier, ← append_assoc]
    exact (h.append_right bucket.welcome).append_right bucket.messages
  | welcome =>
    have hfront := (h.append_left bucket.control).trans
      (perm_append_comm_assoc bucket.control added bucket.welcome)
    simp only [GroupBuckets.all, GroupBuckets.setTier, ← append_assoc] at hfront ⊢
    exact hfront.append_right bucket.messages
  | messages =>
    exact (h.append_left _).trans (perm_append_comm_assoc _ added bucket.messages)

section

variable (scheduler : Scheduler) (key : String)

theorem changeBucket_eq (change : GroupBuckets → GroupBuckets) :
    scheduler.changeBucket key change =
      (scheduler.getBucket key).1.putBucket key (change (scheduler.getBucket key).2) := rfl

theorem bucketed_putBucket (bucket : GroupBuckets) :
    (scheduler.putBucket key bucket).bucketed.Perm
      (bucket.all ++ (scheduler.buckets.erase key).contents all) :=
  contents_set_perm all scheduler.buckets key bucket

@[simp] theorem windows_changeBucket (change : GroupBuckets → GroupBuckets) :
    (scheduler.changeBucket key change).pendingWelcomeGroups = scheduler.pendingWelcomeGroups :=
  (found_getBucket scheduler key).windows

@[simp] theorem isDraining_changeBucket (change : GroupBuckets → GroupBuckets) :
    (scheduler.changeBucket key change).isDraining = scheduler.isDraining :=
  (found_getBucket scheduler key).draining

variable (hchange : ∀ bucket, (change bucket).all.Perm (added ++ bucket.all))
include hchange

theorem bucketed_changeBucket :
    (scheduler.changeBucket key change).bucketed.Perm (added ++ scheduler.bucketed) := by
  obtain ⟨hbucket, hothers, _, _⟩ := found_getBucket scheduler key
  rw [changeBucket_eq]
  refine (bucketed_putBucket _ key _).trans ?_
  rw [hothers]
  refine ((hchange _).append_right _).trans ?_
  rw [hbucket, append_assoc]
  exact (contents_perm all scheduler.buckets key).symm.append_left added

theorem bucketed_changeBucket_ne_nil (hadded : added ≠ []) :
    (scheduler.changeBucket key change).bucketed ≠ [] := by
  intro hnil
  have hperm := bucketed_changeBucket scheduler key hchange
  rw [hnil] at hperm
  exact hadded (append_eq_nil_iff.mp hperm.nil_eq.symm).1

theorem held_changeBucket :
    (scheduler.changeBucket key change).held.Perm (added ++ scheduler.held) := by
  unfold held
  rw [buffered, windows_changeBucket, ← append_assoc]
  exact (bucketed_changeBucket scheduler key hchange).append_right _

end

/-! ### Arrivals -/

/-- What a call that takes in `queued` leaves behind: one message more, and either
    a bucket that is not empty or the same windows as before. -/
structure Arrived (scheduler next : Scheduler) (queued : Queued) : Prop where
  held : next.held.Perm (queued :: scheduler.held)
  placed : next.bucketed ≠ [] ∨
    (next.bucketed = scheduler.bucketed ∧ scheduler.pendingWelcomeGroups.keys ≠ [])
  draining : next.isDraining = scheduler.isDraining

theorem arrived_changeBucket (scheduler : Scheduler) (key : String)
    (hchange : ∀ bucket, (change bucket).all.Perm ([queued] ++ bucket.all)) :
    Arrived scheduler (scheduler.changeBucket key change) queued where
  held := held_changeBucket scheduler key hchange
  placed := .inl (bucketed_changeBucket_ne_nil scheduler key hchange (cons_ne_nil _ _))
  draining := isDraining_changeBucket scheduler key change

/-! ### Windows -/

theorem openWindow_keeps (scheduler : Scheduler) (groupId : String) :
    (scheduler.openWindow groupId).bucketed = scheduler.bucketed ∧
    (scheduler.openWindow groupId).buffered.Perm scheduler.buffered ∧
    (scheduler.openWindow groupId).isDraining = scheduler.isDraining := by
  unfold openWindow
  cases hget : scheduler.pendingWelcomeGroups.get? groupId with
  | some parked => exact ⟨rfl, List.Perm.refl _, rfl⟩
  | none =>
    refine ⟨rfl, ?_, rfl⟩
    have hperm := contents_set_perm id scheduler.pendingWelcomeGroups groupId ([] : List Queued)
    rwa [contents_erase_of_get?_none _ hget] at hperm

/-- A message parked in the buffer of an open window. -/
theorem arrived_buffer {groupId : String} {parked : List Queued}
    (hget : scheduler.pendingWelcomeGroups.get? groupId = some parked) (queued : Queued) :
    Arrived scheduler { scheduler with
        pendingWelcomeGroups :=
          scheduler.pendingWelcomeGroups.set groupId (parked ++ [queued]) } queued := by
  refine ⟨?_, .inr ⟨rfl, ?_⟩, rfl⟩
  · have hbefore := contents_perm id scheduler.pendingWelcomeGroups groupId
    have hafter := contents_set_perm id scheduler.pendingWelcomeGroups groupId (parked ++ [queued])
    rw [itemsAt, hget] at hbefore
    have hbuffer : ((scheduler.pendingWelcomeGroups.set groupId
        (parked ++ [queued])).contents id).Perm (queued :: scheduler.buffered) := by
      refine hafter.trans ?_
      refine ((perm_append_singleton queued parked).append_right _).trans ?_
      exact hbefore.symm.cons queued
    exact (hbuffer.append_left scheduler.bucketed).trans perm_middle
  · intro hkeys
    have hmem : groupId ∈ scheduler.pendingWelcomeGroups.keys :=
      mem_map.mpr ⟨_, mem_entries.mpr hget, rfl⟩
    rw [hkeys] at hmem
    cases hmem

theorem arrived_after_openWindow {groupId : Option String} {key : String}
    (hchange : ∀ bucket, (change bucket).all.Perm ([queued] ++ bucket.all)) :
    Arrived scheduler
      ((groupId.elim scheduler scheduler.openWindow).changeBucket key change) queued := by
  have harrived := arrived_changeBucket (groupId.elim scheduler scheduler.openWindow) key hchange
  cases groupId with
  | none => exact harrived
  | some groupId =>
    obtain ⟨hbucketed, hbuffered, hdraining⟩ := openWindow_keeps scheduler groupId
    refine ⟨harrived.held.trans ?_,
      .inl (bucketed_changeBucket_ne_nil _ key hchange (cons_ne_nil _ _)),
      harrived.draining.trans hdraining⟩
    rw [elim_some, held, hbucketed]
    exact (hbuffered.append_left _).cons queued

theorem arrived_enqueueToBucket (scheduler : Scheduler) (queued : Queued) :
    Arrived scheduler (scheduler.enqueueToBucket queued) queued := by
  unfold enqueueToBucket
  by_cases hwelcome : queued.msg.isWelcome = true
  · simp only [if_pos hwelcome]
    cases scheduler.mode with
    | tauri =>
      exact arrived_after_openWindow fun bucket =>
        all_setTier bucket .welcome (perm_append_singleton queued bucket.welcome)
    | web =>
      exact arrived_after_openWindow fun bucket =>
        all_setTier bucket .messages (List.Perm.refl ([queued] ++ bucket.messages))
  · simp only [if_neg hwelcome]
    exact arrived_changeBucket scheduler _ fun bucket =>
      all_setTier bucket .messages (perm_append_singleton queued bucket.messages)

theorem arrived_enqueue (scheduler : Scheduler) (queued : Queued) :
    Arrived scheduler (scheduler.enqueue queued) queued := by
  unfold enqueue
  split
  · exact arrived_changeBucket scheduler _ fun bucket =>
      all_setTier bucket .control (perm_append_singleton queued bucket.control)
  · split
    · split
      next hget _ => exact arrived_buffer hget queued
      · exact arrived_enqueueToBucket scheduler queued
    · exact arrived_enqueueToBucket scheduler queued

/-! ### Releases -/

theorem unshiftAll_eq (parked messages : List Queued) :
    unshiftAll parked messages = parked ++ messages := by
  simp [unshiftAll]

/-- What a release leaves behind: the same messages, no bucketed message fewer, and
    the window gone. -/
structure Released (scheduler next : Scheduler) : Prop where
  held : next.held.Perm scheduler.held
  bucketed : next.bucketed = [] → scheduler.bucketed = []
  draining : next.isDraining = scheduler.isDraining

theorem Released.refl (scheduler : Scheduler) : Released scheduler scheduler :=
  ⟨List.Perm.refl _, id, rfl⟩

theorem Released.trans {first second third : Scheduler} (h : Released first second)
    (h' : Released second third) : Released first third :=
  ⟨h'.held.trans h.held, h.bucketed ∘ h'.bucketed, h'.draining.trans h.draining⟩

@[simp] theorem windows_releaseWelcomeBuffer (scheduler : Scheduler) (groupId : String) :
    (scheduler.releaseWelcomeBuffer groupId).pendingWelcomeGroups =
      scheduler.pendingWelcomeGroups.erase groupId := by
  unfold releaseWelcomeBuffer
  split
  · rfl
  · rfl
  · rw [windows_changeBucket]

theorem released_releaseWelcomeBuffer (scheduler : Scheduler) (groupId : String) :
    Released scheduler (scheduler.releaseWelcomeBuffer groupId) := by
  have hbuffered := contents_perm id scheduler.pendingWelcomeGroups groupId
  unfold releaseWelcomeBuffer
  cases hget : scheduler.pendingWelcomeGroups.get? groupId with rw [itemsAt, hget] at hbuffered
  | none =>
    exact ⟨(hbuffered.append_left scheduler.bucketed).symm, id, rfl⟩
  | some parked =>
    cases parked with
    | nil => exact ⟨(hbuffered.append_left scheduler.bucketed).symm, id, rfl⟩
    | cons first rest =>
      have hchange : ∀ bucket : GroupBuckets, (bucket.setTier .messages
            (unshiftAll (first :: rest) bucket.messages)).all.Perm
          ((first :: rest) ++ bucket.all) := fun bucket =>
        all_setTier bucket .messages (by rw [unshiftAll_eq]; exact List.Perm.refl _)
      refine ⟨?_, ?_, isDraining_changeBucket _ _ _⟩
      · refine (held_changeBucket _ _ hchange).trans ?_
        refine (perm_append_comm_assoc _ _ _).trans ?_
        exact (hbuffered.append_left scheduler.bucketed).symm
      · intro hnil
        exact absurd hnil (bucketed_changeBucket_ne_nil _ _ hchange (cons_ne_nil _ _))

/-- Releasing every open window closes them all. -/
theorem released_foldl {groups : List String}
    (hkeys : scheduler.pendingWelcomeGroups.keys = groups) :
    Released scheduler (groups.foldl releaseWelcomeBuffer scheduler) ∧
      (groups.foldl releaseWelcomeBuffer scheduler).pendingWelcomeGroups.keys = [] := by
  induction groups generalizing scheduler with
  | nil => exact ⟨Released.refl scheduler, hkeys⟩
  | cons groupId rest ih =>
    have hrest : (scheduler.releaseWelcomeBuffer groupId).pendingWelcomeGroups.keys = rest := by
      rw [windows_releaseWelcomeBuffer]
      exact keys_erase_head hkeys
    obtain ⟨hreleased, hclosed⟩ := ih hrest
    exact ⟨(released_releaseWelcomeBuffer scheduler groupId).trans hreleased, hclosed⟩

/-- Between drains: something is left to drain, or no window is open. -/
def Quiet (scheduler : Scheduler) : Prop :=
  scheduler.bucketed ≠ [] ∨ scheduler.pendingWelcomeGroups.keys = []

theorem released_stranded (scheduler : Scheduler) :
    Released scheduler scheduler.releaseStrandedWelcomeBuffers ∧
      scheduler.releaseStrandedWelcomeBuffers.Quiet := by
  unfold releaseStrandedWelcomeBuffers
  split
  next hearly =>
    refine ⟨Released.refl scheduler, hearly.imp (fun hpending hnil => ?_) length_eq_zero_iff.mp⟩
    rw [bucketed_eq_nil.mp hnil] at hpending
    exact lt_irrefl 0 hpending
  · obtain ⟨hreleased, hclosed⟩ := released_foldl (rfl : scheduler.pendingWelcomeGroups.keys = _)
    exact ⟨hreleased, .inr hclosed⟩

/-! ### The rotation -/

/-- What pruning leaves behind: the same messages in the buckets and in the windows. -/
structure Pruned (scheduler next : Scheduler) : Prop where
  bucketed : next.bucketed.Perm scheduler.bucketed
  windows : next.pendingWelcomeGroups = scheduler.pendingWelcomeGroups
  draining : next.isDraining = scheduler.isDraining

theorem Pruned.refl (scheduler : Scheduler) : Pruned scheduler scheduler :=
  ⟨List.Perm.refl _, rfl, rfl⟩

theorem Pruned.trans {first second third : Scheduler} (h : Pruned first second)
    (h' : Pruned second third) : Pruned first third :=
  ⟨h'.bucketed.trans h.bucketed, h'.windows.trans h.windows, h'.draining.trans h.draining⟩

theorem Pruned.keeps_held (h : Pruned scheduler next) : next.held.Perm scheduler.held := by
  unfold held buffered
  rw [h.windows]
  exact h.bucketed.append_right _

/-- Only an empty bucket is deleted. -/
theorem pruned_pruneAt (scheduler : Scheduler) (i : Nat) :
    Pruned scheduler (scheduler.pruneAt i) := by
  unfold pruneAt
  split
  · exact Pruned.refl scheduler
  next key _ =>
    split
    next hempty =>
      have hperm := contents_perm all scheduler.buckets key
      rw [itemsAt, length_eq_zero_iff.mp hempty] at hperm
      exact ⟨hperm.symm, rfl, rfl⟩
    · exact Pruned.refl scheduler

theorem pruned_foldl (indices : List Nat) (scheduler : Scheduler) :
    Pruned scheduler (indices.foldl pruneAt scheduler) := by
  induction indices generalizing scheduler with
  | nil => exact Pruned.refl scheduler
  | cons i rest ih => exact (pruned_pruneAt scheduler i).trans (ih _)

theorem pruned_pruneEmptyKeys (scheduler : Scheduler) :
    Pruned scheduler scheduler.pruneEmptyKeys := by
  have hpruned := pruned_foldl (range scheduler.rrKeys.length).reverse scheduler
  simp only [pruneEmptyKeys]
  split
  · exact ⟨hpruned.bucketed, hpruned.windows, hpruned.draining⟩
  · exact hpruned

/-- What a pick leaves behind: the picked message is out of its bucket. -/
structure Picked (scheduler next : Scheduler) (queued : Queued) : Prop where
  bucketed : scheduler.bucketed.Perm (queued :: next.bucketed)
  windows : next.pendingWelcomeGroups = scheduler.pendingWelcomeGroups
  draining : next.isDraining = scheduler.isDraining

theorem Picked.takes_held (h : Picked scheduler next queued) :
    scheduler.held.Perm (queued :: next.held) := by
  unfold held buffered
  rw [h.windows]
  exact h.bucketed.append_right _

theorem picked_pickAt {tier : Tier} {offset : Nat}
    (h : scheduler.pickAt tier offset = some (next, queued)) : Picked scheduler next queued := by
  simp only [pickAt] at h
  split at h
  · cases h
  next key _ =>
    split at h
    · cases h
    next bucket hget =>
      split at h
      · cases h
      next first rest htier =>
        simp only [some.injEq, Prod.mk.injEq] at h
        obtain ⟨rfl, rfl⟩ := h
        refine ⟨?_, rfl, rfl⟩
        -- putting the message back would restore the bucket
        have hbucket : bucket.all.Perm ([first] ++ (bucket.setTier tier rest).all) := by
          have hback : (first :: rest).Perm ([first] ++ (bucket.setTier tier rest).tier tier) := by
            cases tier <;> exact List.Perm.refl _
          have hsame : (bucket.setTier tier rest).setTier tier (first :: rest) = bucket := by
            cases tier <;> simp only [setTier, tier] at htier ⊢ <;>
              rw [← htier]
          have hperm := all_setTier (bucket.setTier tier rest) tier hback
          rwa [hsame] at hperm
        have hbefore := contents_perm all scheduler.buckets key
        rw [itemsAt, hget] at hbefore
        refine hbefore.trans ((hbucket.append_right _).trans ?_)
        exact (bucketed_putBucket scheduler key (bucket.setTier tier rest)).symm.cons first

theorem picked_pickNext (h : scheduler.pickNext = (next, some queued)) :
    Picked scheduler next queued := by
  unfold pickNext at h
  split at h
  · cases h
  split at h
  next picked first hfound =>
    simp only [Prod.mk.injEq, some.injEq] at h
    obtain ⟨rfl, rfl⟩ := h
    obtain ⟨tier, _, htier⟩ := exists_of_findSome?_eq_some hfound
    obtain ⟨offset, _, hat⟩ := exists_of_findSome?_eq_some htier
    have hpicked := picked_pickAt hat
    have hpruned := pruned_pruneEmptyKeys picked
    exact ⟨hpicked.bucketed.trans (hpruned.bucketed.symm.cons first),
      hpruned.windows.trans hpicked.windows, hpruned.draining.trans hpicked.draining⟩
  · cases h

theorem pruned_pickNext_none (h : scheduler.pickNext = (next, none)) : Pruned scheduler next := by
  unfold pickNext at h
  split at h
  · cases h
    exact Pruned.refl scheduler
  · split at h
    · cases h
    cases h
    exact pruned_pruneEmptyKeys scheduler

end Scheduler

/-! ## 4. Every interleaving -/

/-- The message a drain has taken out of its bucket and not handed over yet. -/
def Machine.current (machine : Machine) : List Queued :=
  match machine.point with
  | some (.picked queued) => [queued]
  | _ => []

structure Inv (machine : Machine) : Prop where
  conserved : (machine.scheduler.held ++ machine.current ++ machine.handed).Perm machine.enqueued
  -- tickets are numbered in order of arrival
  fresh : ∀ queued ∈ machine.enqueued, queued.ticket < machine.enqueued.length
  distinct : machine.enqueued.Nodup
  -- at most one drain has passed the guard
  exclusive : machine.scheduler.isDraining = machine.point.isSome
  quiet : machine.point = none → machine.scheduler.Quiet

variable {machine next : Machine} {scheduler : Scheduler}

theorem inv_start (mode : MlsPerGroupQueueMode) : Inv (.start mode) where
  conserved := List.Perm.refl _
  fresh := nofun
  distinct := nodup_nil
  exclusive := rfl
  quiet _ := .inr rfl

theorem Inv.enqueue (h : Inv machine) {msg : MlsQueuedMessage}
    (hstep : step machine (.enqueue msg) = some next) : Inv next := by
  cases hstep
  obtain ⟨hheld, hplaced, hdraining⟩ :=
    arrived_enqueue machine.scheduler ⟨machine.enqueued.length, msg⟩
  refine ⟨?_, ?_, ?_, hdraining.trans h.exclusive, fun hpoint => ?_⟩
  · have hmore := (hheld.append_right machine.current).append_right machine.handed
    exact hmore.trans (h.conserved.cons _)
  · intro queued hqueued
    rcases mem_cons.mp hqueued with rfl | hold
    · exact Nat.lt_succ_self _
    · exact Nat.lt_succ_of_lt (h.fresh queued hold)
  · refine nodup_cons.mpr ⟨fun hmem => ?_, h.distinct⟩
    exact lt_irrefl _ (h.fresh _ hmem)
  · rcases hplaced with hnonempty | ⟨hsame, hopen⟩
    · exact .inl hnonempty
    · -- a message is parked only behind an open window, so a bucket was not empty
      left
      rw [hsame]
      exact (h.quiet hpoint).resolve_right hopen

theorem Inv.released (h : Inv machine) (hreleased : Scheduler.Released machine.scheduler scheduler)
    (hquiet : machine.point = none → scheduler.Quiet) : Inv { machine with scheduler } where
  conserved :=
    ((hreleased.held.append_right machine.current).append_right machine.handed).trans h.conserved
  fresh := h.fresh
  distinct := h.distinct
  exclusive := hreleased.draining.trans h.exclusive
  quiet := hquiet

theorem quiet_releaseWelcomeBuffer (h : scheduler.Quiet)
    (groupId : String) : (scheduler.releaseWelcomeBuffer groupId).Quiet := by
  rcases h with hnonempty | hclosed
  · exact .inl fun hnil =>
      hnonempty ((released_releaseWelcomeBuffer scheduler groupId).bucketed hnil)
  · right
    rw [windows_releaseWelcomeBuffer]
    have hsubset := keys_erase_subset scheduler.pendingWelcomeGroups groupId
    rw [hclosed] at hsubset
    exact subset_nil.mp hsubset

section

variable (h : Inv machine)
include h

/-- A move of the running drain that touches neither the scheduler nor what was
    handed over. -/
theorem Inv.moved {point : DrainPoint} (hbefore : machine.point.isSome)
    (hcurrent : machine.current = []) (hpoint : ∀ queued, point ≠ .picked queued) :
    Inv { machine with point := some point } where
  conserved := by
    have hnone : ({ machine with point := some point } : Machine).current = [] := by
      cases point with
      | picked queued => exact absurd rfl (hpoint queued)
      | looping | processing queued | ending => rfl
    rw [hnone, ← hcurrent]
    exact h.conserved
  fresh := h.fresh
  distinct := h.distinct
  exclusive := h.exclusive.trans hbefore
  quiet := nofun

theorem Inv.idle (hdraining : ¬ machine.scheduler.isDraining = true) : machine.point = none := by
  rw [h.exclusive, Bool.not_eq_true, isSome_eq_false_iff, isNone_iff_eq_none] at hdraining
  exact hdraining

theorem Inv.drain {startHookThrows : Bool}
    (hstep : step machine (.drain startHookThrows) = some next) : Inv next := by
  simp only [step] at hstep
  split at hstep
  · cases hstep
    exact h
  next hdraining =>
    split at hstep
    · cases hstep
      exact h
    · cases hstep
      have hcurrent : machine.current = [] := by rw [current, h.idle hdraining]
      refine ⟨?_, h.fresh, h.distinct, rfl, nofun⟩
      have hconserved := h.conserved
      rw [hcurrent] at hconserved
      cases startHookThrows <;> exact hconserved

theorem Inv.turn (hstep : step machine .turn = some next) : Inv next := by
  simp only [step] at hstep
  split at hstep
  next hpoint =>
    have hcurrent : machine.current = [] := by rw [current, hpoint]
    have hdraining : machine.scheduler.isDraining = true := by rw [h.exclusive, hpoint]; rfl
    have hconserved : (machine.scheduler.held ++ machine.handed).Perm machine.enqueued := by
      have hall := h.conserved
      rwa [hcurrent, append_nil] at hall
    split at hstep
    · cases hstep
      exact h.moved (by rw [hpoint]; rfl) hcurrent nofun
    · split at hstep
      next scheduler hpick =>
        cases hstep
        have hpruned := pruned_pickNext_none hpick
        refine ⟨?_, h.fresh, h.distinct, hpruned.draining.trans hdraining, nofun⟩
        rw [current, append_nil]
        exact (hpruned.keeps_held.append_right _).trans hconserved
      next scheduler queued hpick =>
        have hpicked := picked_pickNext hpick
        have hout : (queued :: scheduler.held ++ machine.handed).Perm machine.enqueued :=
          (hpicked.takes_held.symm.append_right _).trans hconserved
        split at hstep
        · cases hstep
          refine ⟨?_, h.fresh, h.distinct, hpicked.draining.trans hdraining, nofun⟩
          rw [current, append_nil]
          exact perm_middle.trans hout
        · cases hstep
          refine ⟨?_, h.fresh, h.distinct, hpicked.draining.trans hdraining, nofun⟩
          exact ((perm_append_singleton queued _).append_right _).trans hout
  · cases hstep

theorem Inv.lockAcquired (hstep : step machine .lockAcquired = some next) : Inv next := by
  simp only [step] at hstep
  split at hstep
  next queued hpoint =>
    cases hstep
    refine ⟨?_, h.fresh, h.distinct, h.exclusive.trans (by rw [hpoint]; rfl), nofun⟩
    have hall := h.conserved
    rw [show machine.current = [queued] by rw [current, hpoint], append_assoc] at hall
    rw [current, append_nil]
    exact hall
  · cases hstep

theorem Inv.settle {threw : Bool}
    (hstep : step machine (.settle threw) = some next) : Inv next := by
  simp only [step] at hstep
  split at hstep
  next queued hpoint =>
    cases hstep
    refine h.moved (by rw [hpoint]; rfl) (by rw [current, hpoint]) fun other => ?_
    cases threw <;> exact nofun
  · cases hstep

theorem Inv.finish (hstep : step machine .finish = some next) : Inv next := by
  simp only [step] at hstep
  split at hstep
  next hpoint =>
    cases hstep
    obtain ⟨hreleased, hquiet⟩ := released_stranded machine.scheduler
    have hall := h.conserved
    rw [show machine.current = [] by rw [current, hpoint]] at hall
    refine ⟨?_, h.fresh, h.distinct, rfl, fun _ => hquiet⟩
    exact ((hreleased.held.append_right _).append_right _).trans hall
  · cases hstep

protected theorem Inv.step {action : Action}
    (hstep : step machine action = some next) : Inv next := by
  cases action with
  | enqueue msg => exact h.enqueue hstep
  | releaseWelcomeBuffer groupId =>
    cases hstep
    exact h.released (released_releaseWelcomeBuffer machine.scheduler groupId)
      fun hpoint => quiet_releaseWelcomeBuffer (h.quiet hpoint) groupId
  | releaseStranded =>
    cases hstep
    obtain ⟨hreleased, hquiet⟩ := released_stranded machine.scheduler
    exact h.released hreleased fun _ => hquiet
  | drain startHookThrows => exact h.drain hstep
  | turn => exact h.turn hstep
  | lockAcquired => exact h.lockAcquired hstep
  | settle threw => exact h.settle hstep
  | finish => exact h.finish hstep

end

theorem Scheduler.Quiet.buffered (h : scheduler.Quiet) :
    scheduler.bucketed ≠ [] ∨ scheduler.buffered = [] := by
  refine h.imp_right fun hkeys => ?_
  rw [Scheduler.buffered, contents, map_eq_nil_iff.mp hkeys]
  rfl

/-- **Conservation.**  After any interleaving of arrivals, drains, releases and
    throwing handlers, every call of `enqueue` is accounted for exactly once, in a
    bucket, in a Welcome buffer, as the message the drain holds, or as one call of
    `processMessage`, and nothing else is held or was handed over.  When no drain is
    running, a bucket holds a message or no Welcome buffer does. -/
theorem messages_conserved (mode : MlsPerGroupQueueMode) {actions : List Action} {machine : Machine}
    (hrun : run step (.start mode) actions = some machine) :
    (∀ queued ∈ machine.enqueued,
      machine.scheduler.bucketed.count queued + machine.scheduler.buffered.count queued +
        machine.current.count queued + machine.handed.count queued = 1) ∧
    (∀ queued ∈ machine.scheduler.bucketed ++ machine.scheduler.buffered ++ machine.current ++
      machine.handed, queued ∈ machine.enqueued) ∧
    (machine.scheduler.isDraining = false →
      machine.scheduler.bucketed ≠ [] ∨ machine.scheduler.buffered = []) := by
  have hinv : Inv machine := invariant_of_run (fun h => h.step) (inv_start mode) hrun
  refine ⟨?_, ?_, ?_⟩
  · intro queued hqueued
    have hcount := hinv.conserved.count_eq queued
    rw [count_eq_one_of_mem hinv.distinct hqueued] at hcount
    simpa only [held, count_append] using hcount
  · exact fun queued hqueued => hinv.conserved.mem_iff.mp hqueued
  · exact fun hdraining => (hinv.quiet (hinv.idle (Bool.eq_false_iff.mp hdraining))).buffered

/-- A Welcome, a message parked behind it, a second Welcome and a message without a
    group; the first handler throws, the second drain hands over the rest of the
    buckets and finds a stranded buffer when it ends. -/
def welcomesAndThrow : List Action :=
  [.enqueue ⟨some "g", true, none⟩, .enqueue ⟨some "g", false, none⟩,
   .enqueue ⟨some "g", true, none⟩, .enqueue ⟨none, false, none⟩,
   .drain false, .turn, .settle true, .finish,
   .drain false, .turn, .lockAcquired, .settle false, .turn, .settle false, .turn, .finish]

theorem messages_conserved_welcomes :
    ∃ machine, run step (.start .web) welcomesAndThrow = some machine ∧
      (machine.enqueued.length = 4 ∧ machine.handed.length = 3 ∧
        machine.scheduler.isDraining = false ∧ machine.scheduler.bucketed.length = 1) ∧
      (∀ queued ∈ machine.enqueued,
        machine.scheduler.bucketed.count queued + machine.scheduler.buffered.count queued +
          machine.current.count queued + machine.handed.count queued = 1) ∧
      (machine.scheduler.bucketed ≠ [] ∨ machine.scheduler.buffered = []) := by
  have hfacts : ∃ machine ∈ run step (.start .web) welcomesAndThrow,
      machine.enqueued.length = 4 ∧ machine.handed.length = 3 ∧
        machine.scheduler.isDraining = false ∧ machine.scheduler.bucketed.length = 1 := by
    decide
  obtain ⟨machine, hrun, hcounts⟩ := hfacts
  obtain ⟨honce, _, hquiet⟩ := messages_conserved .web hrun
  exact ⟨machine, hrun, hcounts, honce, hquiet hcounts.2.2.1⟩

end MinesApp.PerGroupScheduler
