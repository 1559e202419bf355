import MinesApp.PerGroupScheduler

/-!
# The order of one group's messages

What `MlsPerGroupScheduler` owes a group is that its messages are handed over in the
order in which they arrived; the ratchet of a sender runs forward.  The messages of a
group move along one line: the buffer behind a Welcome, the group's bucket, the drain,
`processMessage`.  An arrival goes to the end of that line, a pick takes its front,
and the one step that can disturb it is the release of a buffer, which is put in front
of the bucket.

The results are about the machine of `PerGroupScheduler`, for every interleaving.  A
Welcome is picked ahead of everything by design, and so is a `group_reset` on native;
the rest are the ordinary messages.
-/

namespace MinesApp.SchedulerOrder

open PerGroupScheduler TransitionSystem List OrderedMap Option Scheduler Machine GroupBuckets Queued

/-! ## 1. The line of a group -/

/-- A message of the group that is neither a Welcome nor, on native, a control message. -/
def ordinary (mode : MlsPerGroupQueueMode) (group : Option String) (queued : Queued) : Bool :=
  decide (queued.msg.groupId = group) && !queued.msg.isWelcome &&
    !(decide (queued.msg.type = some "group_reset") && decide (mode = .tauri))

section

variable (scheduler : Scheduler) (group : Option String)

def bucketAt (key : String) : GroupBuckets :=
  (scheduler.buckets.get? key).getD .empty

def parkedAt : Option String → List Queued
  | none => []
  | some groupId => (scheduler.pendingWelcomeGroups.get? groupId).getD []

def bucketQueue : List Queued :=
  (bucketAt scheduler (queueKey group)).messages.filter (ordinary scheduler.mode group)

def bufferQueue : List Queued :=
  (parkedAt scheduler group).filter (ordinary scheduler.mode group)

def waiting : List Queued :=
  bucketQueue scheduler group ++ bufferQueue scheduler group

end

/-- Everything of the group that has arrived, the oldest call of `processMessage` first. -/
def line (machine : Machine) (group : Option String) : List Queued :=
  (machine.handed.reverse ++ machine.current).filter (ordinary machine.scheduler.mode group) ++
    waiting machine.scheduler group

def InOrder (messages : List Queued) : Prop :=
  messages.Pairwise fun first second => first.ticket < second.ticket

instance InOrder.decidable (messages : List Queued) : Decidable (InOrder messages) :=
  inferInstanceAs (Decidable (messages.Pairwise _))

variable {group : Option String} {queued : Queued} {key groupId : String}

theorem ordinary_eq_true {mode : MlsPerGroupQueueMode} :
    ordinary mode group queued = true ↔ queued.msg.groupId = group ∧ queued.msg.isWelcome = false ∧
        ¬ (queued.msg.type = some "group_reset" ∧ mode = .tauri) := by
  simp only [ordinary, Bool.and_eq_true, decide_eq_true_eq, Bool.not_eq_true',
    Bool.and_eq_false_iff, decide_eq_false_iff_not, and_assoc, not_and_or]

/-- Where messages stand: each tier holds its own kind, each bucket the messages of its key,
    each buffer those of its group, and no window is open for the empty id. -/
structure Placed (scheduler : Scheduler) : Prop where
  control : ∀ key, ∀ queued ∈ (bucketAt scheduler key).control,
    queued.msg.type = some "group_reset" ∧ scheduler.mode = .tauri
  welcome : ∀ key, ∀ queued ∈ (bucketAt scheduler key).welcome, queued.msg.isWelcome = true
  messages : ∀ key, ∀ queued ∈ (bucketAt scheduler key).messages, queueKey queued.msg.groupId = key
  parked : ∀ group, ∀ queued ∈ parkedAt scheduler group, queued.msg.groupId = group
  named : scheduler.pendingWelcomeGroups.get? "" = none

/-- What the tiers of the bucket of a key hold. -/
def Fits (mode : MlsPerGroupQueueMode) (key : String) (queued : Queued) : Tier → Prop
  | .control => queued.msg.type = some "group_reset" ∧ mode = .tauri
  | .welcome => queued.msg.isWelcome = true
  | .messages => queueKey queued.msg.groupId = key

theorem Placed.fits {scheduler : Scheduler} (h : Placed scheduler) {kind : Tier}
    (hmem : queued ∈ (bucketAt scheduler key).tier kind) : Fits scheduler.mode key queued kind := by
  cases kind with
  | control => exact h.control key queued hmem
  | welcome => exact h.welcome key queued hmem
  | messages => exact h.messages key queued hmem

theorem placed_of_fits {next : Scheduler}
    (hfits : ∀ key kind, ∀ queued ∈ (bucketAt next key).tier kind, Fits next.mode key queued kind)
    (hparked : ∀ group, ∀ queued ∈ parkedAt next group, queued.msg.groupId = group)
    (hnamed : next.pendingWelcomeGroups.get? "" = none) : Placed next :=
  ⟨fun key => hfits key .control, fun key => hfits key .welcome, fun key => hfits key .messages,
    hparked, hnamed⟩

/-! ## 2. Buckets and buffers after each method -/

section

variable (scheduler : Scheduler) (key : String)

theorem getBucket_bucket : (scheduler.getBucket key).2 = bucketAt scheduler key := by
  unfold getBucket bucketAt
  split
  next bucket hget =>
    rw [hget]
    rfl
  next hget =>
    rw [hget]
    split
    · rfl
    · rfl

theorem get?_getBucket {other : String} (hother : other ≠ key) :
    (scheduler.getBucket key).1.buckets.get? other = scheduler.buckets.get? other := by
  unfold getBucket
  split
  · rfl
  split
  all_goals exact get?_set_ne _ hother _

variable (change : GroupBuckets → GroupBuckets) (group : Option String)

@[simp] theorem mode_changeBucket : (scheduler.changeBucket key change).mode = scheduler.mode := by
  show (scheduler.getBucket key).1.mode = scheduler.mode
  unfold getBucket
  split
  · rfl
  split
  · rfl
  · rfl

theorem bucketAt_changeBucket (other : String) :
    bucketAt (scheduler.changeBucket key change) other =
      if other = key then change (bucketAt scheduler key) else bucketAt scheduler other := by
  rw [changeBucket_eq]
  simp only [bucketAt, putBucket, get?_set]
  split
  · rw [getBucket_bucket]
    rfl
  next hother => rw [get?_getBucket scheduler key hother]

@[simp] theorem parkedAt_changeBucket :
    parkedAt (scheduler.changeBucket key change) group = parkedAt scheduler group := by
  cases group with
  | none => rfl
  | some groupId => simp only [parkedAt, windows_changeBucket]

theorem bucketQueue_changeBucket :
    bucketQueue (scheduler.changeBucket key change) group =
      if queueKey group = key then
        (change (bucketAt scheduler key)).messages.filter (ordinary scheduler.mode group)
      else bucketQueue scheduler group := by
  unfold bucketQueue
  rw [bucketAt_changeBucket, mode_changeBucket]
  split
  · rfl
  · rfl

theorem bufferQueue_changeBucket :
    bufferQueue (scheduler.changeBucket key change) group = bufferQueue scheduler group := by
  unfold bufferQueue
  rw [parkedAt_changeBucket, mode_changeBucket]

end

variable {scheduler : Scheduler} {change : GroupBuckets → GroupBuckets}

/-- A change of one bucket that adds at most one message, to a tier of its kind. -/
theorem Placed.changeBucket (h : Placed scheduler) (queued : Queued) (kind : Tier)
    (hfits : Fits scheduler.mode key queued kind)
    (hadds : ∀ tier other, other ∈ (change (bucketAt scheduler key)).tier tier →
      other ∈ (bucketAt scheduler key).tier tier ∨ other = queued ∧ tier = kind) :
    Placed (scheduler.changeBucket key change) := by
  refine placed_of_fits (fun place tier other hother => ?_) (fun group other hother => ?_) ?_
  · rw [bucketAt_changeBucket] at hother
    rw [mode_changeBucket]
    split at hother
    next hkey =>
      subst hkey
      rcases hadds tier other hother with hold | ⟨rfl, rfl⟩
      · exact h.fits hold
      · exact hfits
    · exact h.fits hother
  · rw [parkedAt_changeBucket] at hother
    exact h.parked group other hother
  · rw [windows_changeBucket]
    exact h.named

/-! ## 3. Arrivals go to the end -/

/-- What a call that takes in `queued` does to the lines: an ordinary message is the last of
    its group, and no other line changes. -/
structure Arrives (scheduler next : Scheduler) (queued : Queued) : Prop where
  placed : Placed next
  mode : next.mode = scheduler.mode
  line : ∀ group, waiting next group =
    waiting scheduler group ++ [queued].filter (ordinary scheduler.mode group)

/-- A message joins no line but that of its group. -/
theorem filter_of_other_group (mode : MlsPerGroupQueueMode) (h : queued.msg.groupId ≠ group) :
    [queued].filter (ordinary mode group) = [] := by
  apply filter_cons_of_neg
  intro hordinary
  exact h (ordinary_eq_true.mp hordinary).1

theorem filter_of_not_ordinary (mode : MlsPerGroupQueueMode)
    (h : queued.msg.isWelcome = true ∨ queued.msg.type = some "group_reset" ∧ mode = .tauri)
    (group : Option String) : [queued].filter (ordinary mode group) = [] := by
  apply filter_cons_of_neg
  intro hordinary
  obtain ⟨_, hwelcome, hcontrol⟩ := ordinary_eq_true.mp hordinary
  rcases h with hit | hit
  · rw [hit] at hwelcome
    cases hwelcome
  · exact hcontrol hit

theorem waiting_changeBucket (scheduler : Scheduler)
    (hsame : (change (bucketAt scheduler key)).messages.filter (ordinary scheduler.mode group) =
      (bucketAt scheduler key).messages.filter (ordinary scheduler.mode group)) :
    waiting (scheduler.changeBucket key change) group = waiting scheduler group := by
  unfold waiting
  rw [bucketQueue_changeBucket, bufferQueue_changeBucket]
  split
  next hkey => rw [hsame, bucketQueue, hkey]
  · rfl

theorem arrives_control (h : Placed scheduler)
    (hcontrol : queued.msg.type = some "group_reset" ∧ scheduler.mode = .tauri) (key : String) :
    Arrives scheduler
      (scheduler.changeBucket key fun bucket =>
        { bucket with control := bucket.control ++ [queued] }) queued where
  placed := by
    refine h.changeBucket queued .control hcontrol fun tier other => ?_
    cases tier <;> simp [tier]
  mode := mode_changeBucket _ _ _
  line := by
    intro group
    rw [filter_of_not_ordinary _ (.inr hcontrol), append_nil]
    exact waiting_changeBucket scheduler rfl

theorem parkedAt_openWindow (scheduler : Scheduler) (groupId : String) (group : Option String) :
    parkedAt (scheduler.openWindow groupId) group = parkedAt scheduler group := by
  unfold openWindow
  split
  · rfl
  next hclosed =>
    cases group with
    | none => rfl
    | some other =>
      simp only [parkedAt, get?_set]
      split
      next hsame =>
        rw [hsame, hclosed]
        rfl
      · rfl

theorem openWindow_rest (scheduler : Scheduler) (groupId : String) :
    (scheduler.openWindow groupId).mode = scheduler.mode ∧
      (scheduler.openWindow groupId).buckets = scheduler.buckets := by
  unfold openWindow
  split
  all_goals exact ⟨rfl, rfl⟩

theorem Placed.of_subset {next : Scheduler} (h : Placed scheduler)
    (hmode : next.mode = scheduler.mode)
    (htiers : ∀ key kind, (bucketAt next key).tier kind ⊆ (bucketAt scheduler key).tier kind)
    (hparked : ∀ group, parkedAt next group = parkedAt scheduler group)
    (hnamed : next.pendingWelcomeGroups.get? "" = none) : Placed next := by
  refine placed_of_fits (fun key kind queued hqueued => ?_) (fun group => ?_) hnamed
  · rw [hmode]
    exact h.fits (htiers key kind hqueued)
  · rw [hparked]
    exact h.parked group

theorem Placed.openWindow (h : Placed scheduler) (hnamed : groupId ≠ "") :
    Placed (scheduler.openWindow groupId) := by
  obtain ⟨hmode, hbuckets⟩ := openWindow_rest scheduler groupId
  refine h.of_subset hmode ?_ (parkedAt_openWindow scheduler groupId) ?_
  · intro key kind
    rw [bucketAt, hbuckets, bucketAt]
    exact List.Subset.refl _
  · unfold Scheduler.openWindow
    split
    · exact h.named
    · exact (get?_set_ne _ (Ne.symm hnamed) _).trans h.named

theorem waiting_openWindow (scheduler : Scheduler) (groupId : String) (group : Option String) :
    waiting (scheduler.openWindow groupId) group = waiting scheduler group := by
  obtain ⟨hmode, hbuckets⟩ := openWindow_rest scheduler groupId
  simp only [waiting, bucketQueue, bufferQueue, bucketAt, hmode, hbuckets, parkedAt_openWindow]

theorem truthy_eq_some (h : truthy group = some groupId) : group = some groupId ∧ groupId ≠ "" := by
  obtain ⟨hgroup, hnonempty⟩ := filter_eq_some_iff.mp h
  exact ⟨hgroup, of_decide_eq_true hnonempty⟩

/-- A Welcome opens the window of its group, if it names one, and no line changes. -/
theorem Placed.window (h : Placed scheduler) (named : Option String) :
    Placed ((truthy named).elim scheduler scheduler.openWindow) ∧
      ((truthy named).elim scheduler scheduler.openWindow).mode = scheduler.mode ∧
      ∀ group, waiting ((truthy named).elim scheduler scheduler.openWindow) group =
        waiting scheduler group := by
  cases hnamed : truthy named with
  | none => exact ⟨h, rfl, fun _ => rfl⟩
  | some groupId =>
    exact ⟨h.openWindow (truthy_eq_some hnamed).2, (openWindow_rest _ _).1,
      waiting_openWindow scheduler groupId⟩

/-- A Welcome goes to its own tier, or in front of the bucket on the web; either way it is in
    no line. -/
theorem arrives_welcome (h : Placed scheduler) (hwelcome : queued.msg.isWelcome = true) :
    Arrives scheduler (scheduler.enqueueToBucket queued) queued := by
  obtain ⟨hplaced, hmode, hline⟩ := h.window queued.msg.groupId
  simp only [enqueueToBucket, if_pos hwelcome]
  generalize (truthy queued.msg.groupId).elim scheduler scheduler.openWindow = opened at *
  split
  · refine ⟨?_, (mode_changeBucket _ _ _).trans hmode, ?_⟩
    · refine hplaced.changeBucket queued .welcome hwelcome fun tier other => ?_
      cases tier <;> simp [tier]
    · intro group
      rw [filter_of_not_ordinary _ (.inl hwelcome), append_nil, ← hline group]
      exact waiting_changeBucket opened rfl
  · refine ⟨?_, (mode_changeBucket _ _ _).trans hmode, ?_⟩
    · refine hplaced.changeBucket queued .messages rfl fun tier other => ?_
      cases tier <;> simp [tier, or_comm]
    · intro group
      rw [filter_of_not_ordinary _ (.inl hwelcome), append_nil, ← hline group]
      apply waiting_changeBucket
      have hnone := filter_of_not_ordinary opened.mode (.inl hwelcome) group
      rw [← singleton_append, filter_append, hnone, nil_append]

theorem parkedAt_set {kept : List Queued} (queued : Queued)
    (hopen : scheduler.pendingWelcomeGroups.get? groupId = some kept) (group : Option String) :
    parkedAt { scheduler with
        pendingWelcomeGroups := scheduler.pendingWelcomeGroups.set groupId (kept ++ [queued]) }
      group =
      if group = some groupId then parkedAt scheduler group ++ [queued]
      else parkedAt scheduler group := by
  cases group with
  | none => rfl
  | some other =>
    simp only [parkedAt, get?_set, some.injEq]
    split
    next hsame =>
      rw [hsame, hopen]
      rfl
    · rfl

theorem arrives_parked (h : Placed scheduler)
    {kept : List Queued} (hgroup : queued.msg.groupId = some groupId) (hnamed : groupId ≠ "")
    (hopen : scheduler.pendingWelcomeGroups.get? groupId = some kept) :
    Arrives scheduler { scheduler with
        pendingWelcomeGroups :=
          scheduler.pendingWelcomeGroups.set groupId (kept ++ [queued]) } queued := by
  have hparked := parkedAt_set queued hopen
  refine ⟨⟨h.control, h.welcome, h.messages, ?_, ?_⟩, rfl, ?_⟩
  · intro group other hother
    rw [hparked] at hother
    split at hother
    next hsame =>
      rcases mem_append.mp hother with hold | hnew
      · exact h.parked group other hold
      · rw [mem_singleton.mp hnew, hgroup, hsame]
    · exact h.parked group other hother
  · exact (get?_set_ne _ (Ne.symm hnamed) _).trans h.named
  · intro group
    simp only [waiting, bucketQueue, bufferQueue, hparked]
    split
    · rw [filter_append, ← append_assoc]
      rfl
    next hother =>
      have hforeign : queued.msg.groupId ≠ group := by
        intro hsame
        exact hother (hsame.symm.trans hgroup)
      rw [filter_of_other_group scheduler.mode hforeign, append_nil]
      rfl

theorem arrives_bucket (h : Placed scheduler)
    (hnothing : parkedAt scheduler queued.msg.groupId = []) :
    Arrives scheduler
      (scheduler.changeBucket (queueKey queued.msg.groupId) fun bucket =>
        { bucket with messages := bucket.messages ++ [queued] }) queued where
  placed := by
    refine h.changeBucket queued .messages rfl fun tier other => ?_
    cases tier <;> simp [tier]
  mode := mode_changeBucket _ _ _
  line := by
    intro group
    unfold waiting
    rw [bucketQueue_changeBucket, bufferQueue_changeBucket]
    by_cases hgroup : queued.msg.groupId = group
    · rw [if_pos (by rw [hgroup]), bufferQueue, ← hgroup, hnothing, bucketQueue]
      simp only [filter_append, filter_nil, append_nil]
    · have hnone := filter_of_other_group scheduler.mode hgroup
      rw [hnone, append_nil]
      split
      next hkey => simp only [filter_append, hnone, append_nil, bucketQueue, hkey]
      · rfl

theorem arrives_enqueue (h : Placed scheduler) (queued : Queued) :
    Arrives scheduler (scheduler.enqueue queued) queued := by
  have hplain : queued.msg.isWelcome = false → parkedAt scheduler queued.msg.groupId = [] →
      Arrives scheduler (scheduler.enqueueToBucket queued) queued := by
    intro hwelcome hnothing
    simp only [enqueueToBucket, hwelcome, Bool.false_eq_true, if_false]
    exact arrives_bucket h hnothing
  unfold enqueue
  split
  next hcontrol => exact arrives_control h hcontrol _
  · cases hwelcome : queued.msg.isWelcome with
    | true =>
      split
      · split
        · contradiction
        · exact arrives_welcome h hwelcome
      · exact arrives_welcome h hwelcome
    | false =>
      split
      next groupId htruthy =>
        obtain ⟨hgroup, hnamed⟩ := truthy_eq_some htruthy
        split
        next kept hopen _ => exact arrives_parked h hgroup hnamed hopen
        next hclosed =>
          apply hplain hwelcome
          rw [hgroup]
          cases hget : scheduler.pendingWelcomeGroups.get? groupId with
          | none => simp only [parkedAt, hget, getD_none]
          | some kept => exact absurd rfl (hclosed kept hget)
      next hfalsy =>
        apply hplain hwelcome
        cases hgroup : queued.msg.groupId with
        | none => rfl
        | some groupId =>
          -- an id that is not truthy is the empty one
          rw [hgroup] at hfalsy
          have hempty : groupId = "" := by
            by_contra hnamed
            rw [truthy, filter_some, if_pos (decide_eq_true hnamed)] at hfalsy
            cases hfalsy
          simp only [parkedAt, hempty, h.named, getD_none]

/-! ## 4. Releases

A release puts the buffer in front of the bucket, so it leaves the line alone when one of
the two is empty. -/

/-- The group has no message waiting both in its bucket and behind a Welcome. -/
def Clear (scheduler : Scheduler) (group : Option String) : Prop :=
  bucketQueue scheduler group = [] ∨ bufferQueue scheduler group = []

instance Clear.decidable (scheduler : Scheduler) (group : Option String) :
    Decidable (Clear scheduler group) :=
  inferInstanceAs (Decidable (_ ∨ _))

theorem mode_releaseWelcomeBuffer (scheduler : Scheduler) (groupId : String) :
    (scheduler.releaseWelcomeBuffer groupId).mode = scheduler.mode := by
  unfold releaseWelcomeBuffer
  split
  · rfl
  · rfl
  · rw [mode_changeBucket]

theorem parkedAt_releaseWelcomeBuffer (scheduler : Scheduler) (groupId : String)
    (group : Option String) :
    parkedAt (scheduler.releaseWelcomeBuffer groupId) group =
      if group = some groupId then [] else parkedAt scheduler group := by
  cases group with
  | none => rfl
  | some other =>
    simp only [parkedAt, windows_releaseWelcomeBuffer, get?_erase, some.injEq]
    split
    · rfl
    · rfl

/-- The bucket of the group gets what was parked, whatever was parked. -/
theorem bucketAt_releaseWelcomeBuffer (scheduler : Scheduler) (groupId key : String) :
    bucketAt (scheduler.releaseWelcomeBuffer groupId) key =
      if key = groupId then
        { bucketAt scheduler key with
          messages := parkedAt scheduler (some groupId) ++ (bucketAt scheduler key).messages }
      else bucketAt scheduler key := by
  unfold releaseWelcomeBuffer
  split
  next hget =>
    simp only [parkedAt, hget, getD_none, nil_append, ite_self]
    rfl
  next hget =>
    simp only [parkedAt, hget, getD_some, nil_append, ite_self]
    rfl
  next kept hkept hget =>
    rw [bucketAt_changeBucket]
    simp only [queueKey, getD_some, unshiftAll_eq, parkedAt, hget]
    split
    next hkey =>
      rw [hkey]
      rfl
    · rfl

section

variable (h : Placed scheduler)
include h

theorem Placed.releaseWelcomeBuffer (groupId : String) :
    Placed (scheduler.releaseWelcomeBuffer groupId) := by
  refine placed_of_fits (fun key kind queued hqueued => ?_) (fun group queued hqueued => ?_) ?_
  · rw [bucketAt_releaseWelcomeBuffer] at hqueued
    rw [mode_releaseWelcomeBuffer]
    split at hqueued
    next hkey =>
      cases kind with
      | control => exact h.control key queued hqueued
      | welcome => exact h.welcome key queued hqueued
      | messages =>
        rcases mem_append.mp hqueued with hparked | hold
        · rw [Fits, h.parked (some groupId) queued hparked, hkey]
          rfl
        · exact h.messages key queued hold
    · exact h.fits hqueued
  · rw [parkedAt_releaseWelcomeBuffer] at hqueued
    split at hqueued
    · cases hqueued
    · exact h.parked group queued hqueued
  · rw [windows_releaseWelcomeBuffer, get?_erase, h.named, ite_self]

theorem queues_releaseWelcomeBuffer (groupId : String) (group : Option String) :
    bucketQueue (scheduler.releaseWelcomeBuffer groupId) group =
        (if group = some groupId then bufferQueue scheduler group else []) ++
          bucketQueue scheduler group ∧
      bufferQueue (scheduler.releaseWelcomeBuffer groupId) group =
        if group = some groupId then [] else bufferQueue scheduler group := by
  constructor
  · unfold bucketQueue bufferQueue
    rw [bucketAt_releaseWelcomeBuffer, mode_releaseWelcomeBuffer]
    by_cases hgroup : group = some groupId
    · have hkey : queueKey (some groupId) = groupId := rfl
      rw [hgroup, if_pos hkey, if_pos rfl, filter_append]
    · split
      · -- only the bucket of messages without a group is shared, and they are another group
        have hforeign : (parkedAt scheduler (some groupId)).filter
            (ordinary scheduler.mode group) = [] := by
          apply filter_eq_nil_iff.mpr
          intro queued hqueued hordinary
          have hparked := h.parked (some groupId) queued hqueued
          exact hgroup ((ordinary_eq_true.mp hordinary).1.symm.trans hparked)
        rw [filter_append, hforeign, nil_append]
      · rfl
  · unfold bufferQueue
    rw [parkedAt_releaseWelcomeBuffer, mode_releaseWelcomeBuffer]
    split
    · rfl
    · rfl

theorem waiting_releaseWelcomeBuffer
    (hclear : Clear scheduler (some groupId)) (group : Option String) :
    waiting (scheduler.releaseWelcomeBuffer groupId) group = waiting scheduler group := by
  obtain ⟨hbucket, hbuffer⟩ := queues_releaseWelcomeBuffer h groupId group
  unfold waiting
  rw [hbucket, hbuffer]
  split
  next hgroup =>
    subst hgroup
    rcases hclear with hnil | hnil
    · rw [hnil, append_nil, append_nil, nil_append]
    · rw [hnil, nil_append, append_nil]
  · rw [nil_append]

theorem Clear.releaseWelcomeBuffer (hclear : Clear scheduler group) (groupId : String) :
    Clear (scheduler.releaseWelcomeBuffer groupId) group := by
  obtain ⟨hbucket, hbuffer⟩ := queues_releaseWelcomeBuffer h groupId group
  unfold Clear
  rw [hbucket, hbuffer]
  split
  · exact .inr rfl
  exact hclear

end

/-- What a method that moves no line leaves behind. -/
structure Steady (scheduler next : Scheduler) : Prop where
  placed : Placed next
  mode : next.mode = scheduler.mode
  line : ∀ group, waiting next group = waiting scheduler group

theorem steady_release (h : Placed scheduler) (hclear : Clear scheduler (some groupId)) :
    Steady scheduler (scheduler.releaseWelcomeBuffer groupId) :=
  ⟨h.releaseWelcomeBuffer groupId, mode_releaseWelcomeBuffer _ _,
    waiting_releaseWelcomeBuffer h hclear⟩

theorem steady_foldl_release (h : Placed scheduler) (hclear : ∀ group, Clear scheduler group)
    (groups : List String) :
    Steady scheduler (groups.foldl releaseWelcomeBuffer scheduler) := by
  induction groups generalizing scheduler with
  | nil => exact ⟨h, rfl, fun _ => rfl⟩
  | cons groupId rest ih =>
    have hfirst := steady_release h (hclear (some groupId))
    have hrest := ih hfirst.placed fun group => (hclear group).releaseWelcomeBuffer h groupId
    refine ⟨hrest.placed, hrest.mode.trans hfirst.mode, ?_⟩
    intro group
    exact (hrest.line group).trans (hfirst.line group)

/-- A message of a bucket is counted by `getPendingCount`. -/
theorem mem_bucketed_of_mem (h : queued ∈ (bucketAt scheduler key).messages) :
    queued ∈ scheduler.bucketed := by
  unfold bucketAt at h
  cases hget : scheduler.buckets.get? key with rw [hget] at h
  | none =>
    cases h
  | some bucket =>
    refine mem_flatMap.mpr ⟨(key, bucket), mem_entries.mpr hget, ?_⟩
    exact mem_append_right _ h

theorem mem_buffered_of_mem (h : queued ∈ parkedAt scheduler group) :
    queued ∈ scheduler.buffered := by
  cases group with
  | none => cases h
  | some groupId =>
    simp only [parkedAt] at h
    cases hget : scheduler.pendingWelcomeGroups.get? groupId with rw [hget] at h
    | none =>
      cases h
    | some kept =>
      exact mem_flatMap.mpr ⟨(groupId, kept), mem_entries.mpr hget, h⟩

/-- The release at the end of a drain runs only when every bucket is empty. -/
theorem steady_stranded (h : Placed scheduler) :
    Steady scheduler scheduler.releaseStrandedWelcomeBuffers := by
  unfold releaseStrandedWelcomeBuffers
  split
  · exact ⟨h, rfl, fun _ => rfl⟩
  next hlate =>
    have hpending : scheduler.getPendingCount = 0 := Nat.eq_zero_of_not_pos (not_or.mp hlate).1
    have hempty := bucketed_eq_nil.mpr hpending
    apply steady_foldl_release h
    intro group
    refine .inl (filter_eq_nil_iff.mpr ?_)
    intro queued hqueued
    have hheld := mem_bucketed_of_mem hqueued
    rw [hempty] at hheld
    cases hheld

/-! ## 5. Picks take the front -/

/-- The same buckets, windows and mode. -/
structure Alike (scheduler next : Scheduler) : Prop where
  buckets : ∀ key, bucketAt next key = bucketAt scheduler key
  windows : next.pendingWelcomeGroups = scheduler.pendingWelcomeGroups
  mode : next.mode = scheduler.mode

theorem alike_pruneAt (scheduler : Scheduler) (i : Nat) :
    Alike scheduler (scheduler.pruneAt i) := by
  unfold pruneAt
  split
  · exact ⟨fun _ => rfl, rfl, rfl⟩
  next pruned _ =>
    split
    next hempty =>
      refine ⟨fun key => ?_, rfl, rfl⟩
      simp only [bucketAt, get?_erase]
      split
      next hkey =>
        subst hkey
        cases hget : scheduler.buckets.get? key with
        | none => rfl
        | some bucket =>
          rw [hget] at hempty
          obtain ⟨control, welcome, messages⟩ := bucket
          have hnil := length_eq_zero_iff.mp hempty
          simp only [elim_some, GroupBuckets.all, append_eq_nil_iff] at hnil
          obtain ⟨⟨rfl, rfl⟩, rfl⟩ := hnil
          rfl
      · rfl
    · exact ⟨fun _ => rfl, rfl, rfl⟩

theorem alike_pruneEmptyKeys (scheduler : Scheduler) :
    Alike scheduler scheduler.pruneEmptyKeys := by
  have hfold : ∀ (indices : List Nat) (scheduler : Scheduler),
      Alike scheduler (indices.foldl pruneAt scheduler) := by
    intro indices
    induction indices with intro scheduler
    | nil =>
      exact ⟨fun _ => rfl, rfl, rfl⟩
    | cons i rest ih =>
      have hfirst := alike_pruneAt scheduler i
      have hrest := ih (scheduler.pruneAt i)
      exact ⟨fun key => (hrest.buckets key).trans (hfirst.buckets key),
        hrest.windows.trans hfirst.windows, hrest.mode.trans hfirst.mode⟩
  have hpruned := hfold (range scheduler.rrKeys.length).reverse scheduler
  simp only [pruneEmptyKeys]
  split
  · exact ⟨hpruned.buckets, hpruned.windows, hpruned.mode⟩
  · exact hpruned

theorem parkedAt_congr {next : Scheduler}
    (h : next.pendingWelcomeGroups = scheduler.pendingWelcomeGroups) (group : Option String) :
    parkedAt next group = parkedAt scheduler group := by
  cases group with
  | none => rfl
  | some groupId => simp only [parkedAt, h]

theorem Alike.steady {next : Scheduler} (h : Alike scheduler next) (hplaced : Placed scheduler) :
    Steady scheduler next := by
  refine ⟨hplaced.of_subset h.mode ?_ (parkedAt_congr h.windows) ?_, h.mode, ?_⟩
  · intro key kind
    rw [h.buckets]
    exact List.Subset.refl _
  · rw [h.windows]
    exact hplaced.named
  · intro group
    simp only [waiting, bucketQueue, bufferQueue, h.buckets, h.mode, parkedAt_congr h.windows]

/-- What a pick does to the lines: an ordinary message was the first of its group's. -/
structure Takes (scheduler next : Scheduler) (queued : Queued) : Prop where
  placed : Placed next
  mode : next.mode = scheduler.mode
  line : ∀ group, waiting scheduler group =
    [queued].filter (ordinary scheduler.mode group) ++ waiting next group

/-- The first message of one tier of one bucket is gone, and nothing else has moved. -/
structure FrontGone (scheduler next : Scheduler) (key : String) (tier : Tier)
    (rest : List Queued) : Prop where
  buckets : ∀ other, bucketAt next other =
    if other = key then (bucketAt scheduler key).setTier tier rest else bucketAt scheduler other
  windows : next.pendingWelcomeGroups = scheduler.pendingWelcomeGroups
  mode : next.mode = scheduler.mode

section

variable {next : Scheduler} {key : String} {tier : Tier} {queued : Queued} {rest : List Queued}
  (h : FrontGone scheduler next key tier rest)
include h

variable (hfront : (bucketAt scheduler key).tier tier = queued :: rest)
include hfront

/-- A tier holds at most what it held. -/
theorem FrontGone.tier_subset (other : String) (kind : Tier) :
    (bucketAt next other).tier kind ⊆ (bucketAt scheduler other).tier kind := by
  rw [h.buckets]
  split
  next hkey =>
    subst hkey
    have hrest : rest ⊆ (bucketAt scheduler other).tier tier := by
      rw [hfront]
      exact subset_cons_self queued rest
    cases tier <;> cases kind <;> first | exact hrest | exact List.Subset.refl _
  · exact List.Subset.refl _

variable (hplaced : Placed scheduler)
include hplaced

theorem FrontGone.placed : Placed next := by
  refine hplaced.of_subset h.mode (h.tier_subset hfront) (parkedAt_congr h.windows) ?_
  rw [h.windows]
  exact hplaced.named

theorem FrontGone.messages_filter (group : Option String) :
    bucketQueue scheduler group =
      [queued].filter (ordinary scheduler.mode group) ++ bucketQueue next group := by
  unfold bucketQueue
  rw [h.buckets, h.mode]
  have hmem : queued ∈ (bucketAt scheduler key).tier tier := by
    rw [hfront]
    exact mem_cons_self
  cases tier with
  | control =>
    rw [filter_of_not_ordinary _ (.inr (hplaced.control key queued hmem)), nil_append]
    split
    next hkey =>
      rw [hkey]
      rfl
    · rfl
  | welcome =>
    rw [filter_of_not_ordinary _ (.inl (hplaced.welcome key queued hmem)), nil_append]
    split
    next hkey =>
      rw [hkey]
      rfl
    · rfl
  | messages =>
    split
    next hkey =>
      have hmessages : (bucketAt scheduler key).messages = [queued] ++ rest := hfront
      rw [hkey, hmessages, filter_append]
      rfl
    next hkey =>
      have hforeign : queued.msg.groupId ≠ group := by
        intro hgroup
        apply hkey
        rw [← hgroup]
        exact hplaced.messages key queued hmem
      rw [filter_of_other_group _ hforeign, nil_append]

theorem FrontGone.takes : Takes scheduler next queued where
  placed := h.placed hfront hplaced
  mode := h.mode
  line := by
    intro group
    unfold waiting
    rw [h.messages_filter hfront hplaced group, append_assoc]
    simp only [bufferQueue, parkedAt_congr h.windows, h.mode]

end

variable {next machine : Machine} {queued : Queued}

section

variable {next : Scheduler}

theorem takes_pickAt (h : Placed scheduler) {tier : Tier} {offset : Nat}
    (hpick : scheduler.pickAt tier offset = some (next, queued)) : Takes scheduler next queued := by
  simp only [pickAt] at hpick
  split at hpick
  · cases hpick
  next key _ =>
    split at hpick
    · cases hpick
    next bucket hget =>
      split at hpick
      · cases hpick
      next first rest htier =>
        cases hpick
        have hbucket : bucketAt scheduler key = bucket := by
          simp only [bucketAt, hget, getD_some]
        have hat : ∀ other, bucketAt (scheduler.putBucket key (bucket.setTier tier rest)) other =
            if other = key then bucket.setTier tier rest else bucketAt scheduler other := by
          intro other
          simp only [bucketAt, putBucket, get?_set]
          split
          · rfl
          · rfl
        subst hbucket
        exact FrontGone.takes ⟨hat, rfl, rfl⟩ htier h

theorem takes_pickNext (h : Placed scheduler)
    (hpick : scheduler.pickNext = (next, some queued)) : Takes scheduler next queued := by
  simp only [pickNext] at hpick
  split at hpick
  · cases hpick
  split at hpick
  next picked first hfound =>
    cases hpick
    obtain ⟨tier, _, htier⟩ := exists_of_findSome?_eq_some hfound
    obtain ⟨offset, _, hoffset⟩ := exists_of_findSome?_eq_some htier
    have htaken := takes_pickAt h hoffset
    have hpruned := (alike_pruneEmptyKeys picked).steady htaken.placed
    refine ⟨hpruned.placed, hpruned.mode.trans htaken.mode, ?_⟩
    intro group
    rw [htaken.line group, hpruned.line group]
  · cases hpick

theorem steady_pickNext_none (h : Placed scheduler)
    (hpick : scheduler.pickNext = (next, none)) : Steady scheduler next := by
  simp only [pickNext] at hpick
  split at hpick
  · cases hpick
    exact ⟨h, rfl, fun _ => rfl⟩
  · split at hpick
    · cases hpick
    cases hpick
    exact (alike_pruneEmptyKeys scheduler).steady h

end

/-! ## 6. The line of a group over a whole run -/

/-- Every line is in the order of arrival, and every message in one has arrived. -/
structure Ordered (mode : MlsPerGroupQueueMode) (machine : Machine) : Prop where
  inv : Inv machine
  mode_eq : machine.scheduler.mode = mode
  placed : Placed machine.scheduler
  order : ∀ group, InOrder (line machine group)

theorem ordered_start (mode : MlsPerGroupQueueMode) : Ordered mode (.start mode) := by
  refine ⟨inv_start mode, rfl, ⟨nofun, nofun, nofun, ?_, rfl⟩, ?_⟩
  · intro group queued hqueued
    cases group with
    | none | some groupId => cases hqueued
  · intro group
    cases group with
    | none | some groupId => exact List.Pairwise.nil

/-- Everything in a line has been enqueued. -/
theorem line_subset (machine : Machine) (hinv : Inv machine) (group : Option String) :
    line machine group ⊆ machine.enqueued := by
  intro queued hqueued
  apply hinv.conserved.mem_iff.mp
  simp only [mem_append, held]
  rcases mem_append.mp hqueued with hpast | hwaiting
  · rcases mem_append.mp (mem_of_mem_filter hpast) with hhanded | hcurrent
    · exact .inr (mem_reverse.mp hhanded)
    · exact .inl (.inr hcurrent)
  · rcases mem_append.mp hwaiting with hbucket | hbuffer
    · exact .inl (.inl (.inl (mem_bucketed_of_mem (mem_of_mem_filter hbucket))))
    · exact .inl (.inl (.inr (mem_buffered_of_mem (mem_of_mem_filter hbuffer))))

/-- What every step but an arrival does: no line changes. -/
structure KeepsLines (machine next : Machine) : Prop where
  placed : Placed next.scheduler
  mode : next.scheduler.mode = machine.scheduler.mode
  line : ∀ group, line next group = line machine group

/-- A step that hands nothing over and moves no message of a line. -/
theorem keepsLines_of_steady
    (hsteady : Steady machine.scheduler next.scheduler) (hcurrent : next.current = machine.current)
    (hhanded : next.handed = machine.handed) : KeepsLines machine next := by
  refine ⟨hsteady.placed, hsteady.mode, ?_⟩
  intro group
  simp only [line, hcurrent, hhanded, hsteady.mode, hsteady.line]

/-- A pick moves the front of a line to its part behind the drain. -/
theorem keepsLines_of_takes
    (htakes : Takes machine.scheduler next.scheduler queued) (hidle : machine.current = [])
    (hout : next.handed.reverse ++ next.current = machine.handed.reverse ++ [queued]) :
    KeepsLines machine next := by
  refine ⟨htakes.placed, htakes.mode, ?_⟩
  intro group
  simp only [line, hout, hidle, htakes.mode, htakes.line group, filter_append,
    append_assoc, filter_nil, nil_append]

/-- A release finds the bucket or the buffer of its group empty. -/
def NotOvertaken (machine : Machine) : Action → Prop
  | .releaseWelcomeBuffer groupId => Clear machine.scheduler (some groupId)
  | _ => True

instance NotOvertaken.decidable (machine : Machine) :
    (action : Action) → Decidable (NotOvertaken machine action)
  | .releaseWelcomeBuffer groupId => Clear.decidable machine.scheduler (some groupId)
  | .enqueue _ | .releaseStranded | .drain _ | .turn | .lockAcquired | .settle _ | .finish =>
    isTrue trivial

theorem keepsLines_turn (hplaced : Placed machine.scheduler)
    (hstep : step machine .turn = some next) : KeepsLines machine next := by
  simp only [step] at hstep
  split at hstep
  next hpoint =>
    have hidle : machine.current = [] := by rw [current, hpoint]
    split at hstep
    · cases hstep
      exact keepsLines_of_steady ⟨hplaced, rfl, fun _ => rfl⟩ hidle.symm rfl
    · split at hstep
      next scheduler hpick =>
        cases hstep
        exact keepsLines_of_steady (steady_pickNext_none hplaced hpick) hidle.symm rfl
      next scheduler queued hpick =>
        have htakes := takes_pickNext hplaced hpick
        split at hstep
        · cases hstep
          refine keepsLines_of_takes htakes hidle ?_
          simp only [current, reverse_cons, append_nil]
        · cases hstep
          exact keepsLines_of_takes htakes hidle rfl
  · cases hstep

/-- One step: an arrival aside, the lines stay as they are. -/
theorem keepsLines_step (hinv : Inv machine) (hplaced : Placed machine.scheduler) {action : Action}
    (hok : NotOvertaken machine action) (harrival : ∀ msg, action ≠ .enqueue msg)
    (hstep : step machine action = some next) : KeepsLines machine next := by
  have hsame : Steady machine.scheduler machine.scheduler := ⟨hplaced, rfl, fun _ => rfl⟩
  cases action with simp only [step] at hstep
  | enqueue msg => exact absurd rfl (harrival msg)
  | releaseWelcomeBuffer groupId =>
    cases hstep
    exact keepsLines_of_steady (steady_release hplaced hok) rfl rfl
  | releaseStranded =>
    cases hstep
    exact keepsLines_of_steady (steady_stranded hplaced) rfl rfl
  | drain startHookThrows =>
    split at hstep
    · cases hstep
      exact keepsLines_of_steady hsame rfl rfl
    next hdraining =>
      split at hstep
      · cases hstep
        exact keepsLines_of_steady hsame rfl rfl
      · cases hstep
        -- the guard has passed, so no other drain holds a message
        have hpoint := hinv.idle hdraining
        refine keepsLines_of_steady ⟨?_, rfl, fun _ => rfl⟩ ?_ rfl
        · exact ⟨hplaced.control, hplaced.welcome, hplaced.messages, hplaced.parked, hplaced.named⟩
        · simp only [current, hpoint]
          cases startHookThrows <;> rfl
  | turn => exact keepsLines_turn hplaced hstep
  | lockAcquired =>
    split at hstep
    next queued hpoint =>
      cases hstep
      refine ⟨hplaced, rfl, ?_⟩
      intro group
      simp only [line, current, hpoint, reverse_cons, append_nil]
    · cases hstep
  | settle threw =>
    split at hstep
    next queued hpoint =>
      cases hstep
      refine keepsLines_of_steady hsame ?_ rfl
      simp only [current, hpoint]
      cases threw <;> rfl
    · cases hstep
  | finish =>
    split at hstep
    next hpoint =>
      cases hstep
      obtain ⟨hreleased, hmode, hline⟩ := steady_stranded hplaced
      refine keepsLines_of_steady ⟨?_, hmode, hline⟩ ?_ rfl
      · exact ⟨hreleased.control, hreleased.welcome, hreleased.messages, hreleased.parked,
          hreleased.named⟩
      · simp only [current, hpoint]
    · cases hstep

variable {mode : MlsPerGroupQueueMode}

/-- An arrival has the largest ticket so far and goes to the end. -/
theorem Ordered.enqueue (h : Ordered mode machine) (msg : MlsQueuedMessage)
    (hstep : step machine (.enqueue msg) = some next) : Ordered mode next := by
  have hinv := h.inv.step hstep
  cases hstep
  have harrives := arrives_enqueue h.placed ⟨machine.enqueued.length, msg⟩
  refine ⟨hinv, harrives.mode.trans h.mode_eq, harrives.placed, ?_⟩
  intro group
  have hline : line { machine with
        scheduler := machine.scheduler.enqueue ⟨machine.enqueued.length, msg⟩
        enqueued := ⟨machine.enqueued.length, msg⟩ :: machine.enqueued } group =
      line machine group ++
        [⟨machine.enqueued.length, msg⟩].filter (ordinary machine.scheduler.mode group) := by
    simp only [line, harrives.line, harrives.mode, append_assoc]
    rfl
  rw [hline]
  refine pairwise_append.mpr ⟨h.order group, ?_, ?_⟩
  · exact (pairwise_singleton _ _).sublist filter_sublist
  · intro earlier hearlier last hlast
    rw [mem_singleton.mp (mem_of_mem_filter hlast)]
    exact h.inv.fresh earlier (line_subset machine h.inv group hearlier)

theorem Ordered.step
    (h : Ordered mode machine) {action : Action} (hok : NotOvertaken machine action)
    (hstep : step machine action = some next) : Ordered mode next := by
  by_cases harrival : ∃ msg, action = .enqueue msg
  · obtain ⟨msg, rfl⟩ := harrival
    exact h.enqueue msg hstep
  · have hkeeps := keepsLines_step h.inv h.placed hok (fun msg heq => harrival ⟨msg, heq⟩) hstep
    refine ⟨h.inv.step hstep, hkeeps.mode.trans h.mode_eq, hkeeps.placed, ?_⟩
    intro group
    rw [hkeeps.line]
    exact h.order group

/-- **Order of a group.**  In every run in which each release finds the bucket or the buffer
    of its group empty, the ordinary messages of every group are handed to `processMessage`
    in the order in which they arrived. -/
theorem group_order_preserved (mode : MlsPerGroupQueueMode) {actions : List Action}
    {machine : Machine}
    (hok : EachStep step NotOvertaken (.start mode) actions)
    (hrun : run step (.start mode) actions = some machine)
    (group : Option String) : InOrder (machine.handed.reverse.filter (ordinary mode group)) := by
  have hordered : Ordered mode machine :=
    run_invariant (fun h hok hstep => Ordered.step h hok hstep) (ordered_start mode) hok hrun
  have hline := hordered.order group
  rw [line, hordered.mode_eq, filter_append, append_assoc] at hline
  exact (pairwise_append.mp hline).1

/-- A Welcome, two messages parked behind it, and their release once it has been joined. -/
def parkedBehindWelcome : List Action :=
  [.enqueue ⟨some "g", true, none⟩, .enqueue ⟨some "g", false, none⟩, .drain false, .turn,
   .enqueue ⟨some "g", false, none⟩, .releaseWelcomeBuffer "g", .settle false,
   .turn, .lockAcquired, .settle false, .turn, .lockAcquired]

theorem group_order_preserved_parked :
    ∃ machine, run step (.start .web) parkedBehindWelcome = some machine ∧
      machine.handed.reverse.map ticket = [0, 1, 2] ∧
      InOrder (machine.handed.reverse.filter (ordinary .web (some "g"))) := by
  have hfacts : ∃ machine ∈ run step (.start .web) parkedBehindWelcome,
      machine.handed.reverse.map ticket = [0, 1, 2] := by
    decide
  have hok : EachStep step NotOvertaken (.start .web) parkedBehindWelcome := by
    decide
  obtain ⟨machine, hrun, htickets⟩ := hfacts
  exact ⟨machine, hrun, htickets, group_order_preserved .web hok hrun (some "g")⟩

/-- A message waits in the bucket of its group when a Welcome arrives; a second one arrives
    while the Welcome is processed, and is parked.  The release puts it in front. -/
def waitsWhenWelcomeArrives : List Action :=
  [.enqueue ⟨some "g", false, none⟩, .enqueue ⟨some "g", true, none⟩, .drain false, .turn,
   .enqueue ⟨some "g", false, none⟩, .releaseWelcomeBuffer "g", .settle false,
   .turn, .lockAcquired, .settle false, .turn, .lockAcquired]

/-- The Welcome is handed over first, then the later message, then the earlier one, on both
    platforms. -/
theorem overtaken_by_parked :
    (∃ machine ∈ run step (.start .web) waitsWhenWelcomeArrives,
      machine.handed.reverse.map ticket = [1, 2, 0] ∧
      ¬ InOrder (machine.handed.reverse.filter (ordinary .web (some "g")))) ∧
    ∃ machine ∈ run step (.start .tauri) waitsWhenWelcomeArrives,
      machine.handed.reverse.map ticket = [1, 2, 0] ∧
      ¬ InOrder (machine.handed.reverse.filter (ordinary .tauri (some "g"))) := by
  constructor
  · decide
  · decide

end MinesApp.SchedulerOrder
