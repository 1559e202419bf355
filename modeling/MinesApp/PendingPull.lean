import MinesApp.TransitionSystem
import MinesApp.PendingPage

/-!
# The client's pull of its pending queue

`pullPendingMessagesJson` in `mlsDeliveryApi.ts` asks for one page after the other, each
beyond the creation time of the last row it was answered, and hands every page to
`enqueuePendingRows`.  It returns on an empty page, on an answer that is not `ok`, and throws
when a page of one row does not arrive; a page that does not arrive is asked for again at
half the size.  `fetchPendingMessages` sets `mailboxEmptiedByAPull` when it returns.

The pull always ends.  It drains the queue exactly when no page is refused and, while a row
is still owed, the rows that the server drops from a page never fill it: an empty page says
that the page had nothing to answer, not that the queue has nothing left.
-/

namespace MinesApp.PendingQueue

open TransitionSystem List QueuedMessage

/-! ## 1. The pull -/

/-- `enqueuePendingRows` hands the row to `enqueueMessage`. -/
def QueuedMessage.enqueued (row : QueuedMessage) : Bool :=
  row.type = some "group_reset" ||
    row.proto.any fun proto =>
      proto.length ≠ 0 && proto.decoded.any (0 < ·) &&
        row.ratchetTree.all fun tree => tree.length = 0 || tree.decoded.isSome

/-- A deliverable row: its group can receive it, and its payload can be enqueued. -/
def QueuedMessage.owed (groups : Nat → GroupState) (row : QueuedMessage) : Bool :=
  row.deliverable groups && row.enqueued

inductive Status where
  | running
  | returned
  | threw
deriving DecidableEq, Repr

structure Pull where
  /-- The device's rows on the server. -/
  queue : List QueuedMessage
  afterCreatedAt : Option Nat
  pageLimit : Nat
  /-- The rows handed to `enqueueMessage`. -/
  handed : List QueuedMessage
  status : Status
deriving DecidableEq, Repr

open Pull

def Pull.start (queue : List QueuedMessage) : Pull := ⟨queue, none, 500, [], .running⟩

/-- Set once the pull has returned; it was cleared before the pull began. -/
def Pull.mailboxEmptiedByAPull (pull : Pull) : Bool := pull.status = .returned

/-- What becomes of one request.  The server may have served a page that the client does not
    get; `ranks` is how its statements ordered the rows of one instant. -/
inductive Action where
  | page (ranks : Nat → QueuedMessage → Nat)
  | refused (served : Option (Nat → QueuedMessage → Nat))
  | lost (served : Option (Nat → QueuedMessage → Nat))

def Action.isRefusal : Action → Bool
  | .refused _ => true
  | _ => false

section

variable (groups : Nat → GroupState)

section

variable (pull : Pull)

def Pull.fetch (ranks : Nat → QueuedMessage → Nat) : List QueuedMessage × List QueuedMessage :=
  fetchMessages groups pull.queue pull.pageLimit pull.afterCreatedAt ranks

/-- The queue after a request whose answer the client does not get. -/
def Pull.served (served : Option (Nat → QueuedMessage → Nat)) : List QueuedMessage :=
  (served.map fun ranks => (pull.fetch groups ranks).2).getD pull.queue

/-- What the loop does with a page that arrived. -/
def Pull.onPage (batch queue : List QueuedMessage) : Pull :=
  match batch.getLast? with
  | none => { pull with queue, status := .returned }
  | some last =>
    let handed := pull.handed ++ batch.filter enqueued
    if pull.afterCreatedAt = some last.createdAt then
      { pull with queue, handed, status := .returned }
    else { pull with queue, handed, afterCreatedAt := some last.createdAt }

def step (action : Action) : Option Pull :=
  if pull.status ≠ .running then none
  else
    match action with
    | .page ranks => some (pull.onPage (pull.fetch groups ranks).1 (pull.fetch groups ranks).2)
    | .refused served => some { pull with queue := pull.served groups served, status := .returned }
    | .lost served =>
      if pull.pageLimit > 1 then
        some { pull with
          queue := pull.served groups served
          pageLimit := max 1 (pull.pageLimit / 2) }
      else some { pull with queue := pull.served groups served, status := .threw }

end

end

/-! ## 2. The condition -/

/-- A deliverable row is still beyond the cursor. -/
def Remains (groups : Nat → GroupState) (pull : Pull) : Prop :=
  ∃ row ∈ pull.queue, row.owed groups = true ∧ beyond pull.afterCreatedAt row = true

instance (groups : Nat → GroupState) (pull : Pull) : Decidable (Remains groups pull) :=
  inferInstanceAs (Decidable (∃ row ∈ pull.queue, _))

/-- No request is refused, and while a deliverable row remains the rows before the first
    instant to answer leave room for it in the page. -/
def leavesRoom (groups : Nat → GroupState) (pull : Pull) : Action → Prop
  | .page ranks =>
    Remains groups pull → FitsPage groups (min (max pull.pageLimit 1) 1000)
        (pendingRows pull.queue pull.afterCreatedAt (ranks 0))
  | .refused _ => False
  | .lost _ => True

instance (groups : Nat → GroupState) (pull : Pull) (action : Action) :
    Decidable (leavesRoom groups pull action) :=
  match action with
  | .page _ => inferInstanceAs (Decidable (_ → _))
  | .refused _ => inferInstanceAs (Decidable False)
  | .lost _ => inferInstanceAs (Decidable True)

/-- The statements of each page that arrives agree on the order of the rows. -/
def sameOrder (pull : Pull) : Action → Prop
  | .page ranks => SameOrder pull.queue pull.afterCreatedAt ranks
  | _ => True

/-- Every deliverable row of the queue was handed over. -/
def Drained (groups : Nat → GroupState) (queue : List QueuedMessage) (pull : Pull) : Prop :=
  ∀ row ∈ queue, row.owed groups = true → row ∈ pull.handed

/-! ## 3. One request -/

variable {groups : Nat → GroupState} {pull next : Pull} {action : Action}
  {ranks : Nat → QueuedMessage → Nat} {row last : QueuedMessage} {queue : List QueuedMessage}
  {final : Pull} {actions : List Action} {after : Option Nat}

theorem fetch_queue_sublist (pull : Pull) (ranks : Nat → QueuedMessage → Nat) :
    (pull.fetch groups ranks).2.Sublist pull.queue :=
  filter_sublist

theorem mem_fetch_queue (hrow : row ∈ pull.queue) (hdeliverable : row.deliverable groups = true) :
    row ∈ (pull.fetch groups ranks).2 := by
  refine mem_filter.mpr ⟨hrow, ?_⟩
  cases hgroup : row.groupId with
  | none => rfl
  | some groupId =>
    have hlive : groups groupId = .live := by
      simpa [deliverable, hgroup] using hdeliverable
    simp [hlive]

theorem served_sublist (pull : Pull) (served : Option (Nat → QueuedMessage → Nat)) :
    (pull.served groups served).Sublist pull.queue := by
  cases served with
  | none => exact List.Sublist.refl _
  | some ranks => exact fetch_queue_sublist pull ranks

theorem mem_served {served : Option (Nat → QueuedMessage → Nat)} (hrow : row ∈ pull.queue)
    (hdeliverable : row.deliverable groups = true) : row ∈ pull.served groups served := by
  cases served with
  | none => exact hrow
  | some ranks => exact mem_fetch_queue hrow hdeliverable

theorem mem_fetch_batch (hrow : row ∈ (pull.fetch groups ranks).1) :
    row ∈ pull.queue ∧ beyond pull.afterCreatedAt row = true :=
  mem_of_mem_readPage (mem_filter.mp hrow).1

/-- Everything a request can do.  A page never ends at the cursor it was asked for. -/
theorem step_cases (h : step groups pull action = some next) :
    pull.status = .running ∧ ((∃ served, action = .refused served ∧
          next = { pull with queue := pull.served groups served, status := .returned }) ∨
        (∃ served, action = .lost served ∧ 1 < pull.pageLimit ∧
          next = { pull with
            queue := pull.served groups served
            pageLimit := max 1 (pull.pageLimit / 2) }) ∨
        (∃ served, action = .lost served ∧
          next = { pull with queue := pull.served groups served, status := .threw }) ∨
        (∃ ranks, action = .page ranks ∧ (pull.fetch groups ranks).1 = [] ∧
          next = { pull with queue := (pull.fetch groups ranks).2, status := .returned }) ∨
        ∃ ranks last, action = .page ranks ∧ (pull.fetch groups ranks).1.getLast? = some last ∧
          next = { pull with
            queue := (pull.fetch groups ranks).2
            handed := pull.handed ++ (pull.fetch groups ranks).1.filter enqueued
            afterCreatedAt := some last.createdAt }) := by
  unfold step at h
  split at h
  · cases h
  next hrunning =>
    refine ⟨not_not.mp hrunning, ?_⟩
    cases action with
    | refused served =>
      cases h
      exact .inl ⟨served, rfl, rfl⟩
    | lost served =>
      dsimp only at h
      split at h
      next hlimit =>
        cases h
        exact .inr (.inl ⟨served, rfl, hlimit, rfl⟩)
      · cases h
        exact .inr (.inr (.inl ⟨served, rfl, rfl⟩))
    | page ranks =>
      cases h
      cases hlast : (pull.fetch groups ranks).1.getLast? with
      | none =>
        have hempty := getLast?_eq_none_iff.mp hlast
        exact .inr (.inr (.inr (.inl ⟨ranks, rfl, hempty, by rw [onPage, hlast]⟩)))
      | some last =>
        refine .inr (.inr (.inr (.inr ⟨ranks, last, rfl, hlast, ?_⟩)))
        have hbeyond := (mem_fetch_batch (mem_of_getLast? hlast)).2
        have hcursor : pull.afterCreatedAt ≠ some last.createdAt := by
          intro hsame
          simp [beyond, hsame] at hbeyond
        rw [onPage, hlast]
        dsimp only
        rw [if_neg hcursor]

theorem step_of_running (h : pull.status = .running) (action : Action) :
    (step groups pull action).isSome = true := by
  unfold step
  rw [if_neg (not_not.mpr h)]
  cases action with
  | page ranks | refused served => rfl
  | lost served =>
    dsimp only
    split <;> rfl

/-! ## 4. The pull ends -/

/-- The rows beyond the cursor and the size of the page: every request that lets the pull go
    on lowers their sum. -/
def Pull.remaining (pull : Pull) : Nat :=
  (pull.queue.filter (beyond pull.afterCreatedAt)).length + pull.pageLimit

theorem beyond_of_later (hlast : beyond after last = true)
    (hrow : beyond (some last.createdAt) row = true) : beyond after row = true := by
  cases after with
  | none => rfl
  | some instant =>
    simp only [beyond, Option.all_some, decide_eq_true_eq] at hlast hrow ⊢
    omega

theorem length_filter_beyond_lt {kept : List QueuedMessage}
    (hkept : kept.Sublist queue) (hmem : last ∈ queue) (hlast : beyond after last = true) :
    (kept.filter (beyond (some last.createdAt))).length < (queue.filter (beyond after)).length := by
  have hfilter : queue.filter (beyond (some last.createdAt)) =
      (queue.filter (beyond after)).filter (beyond (some last.createdAt)) := by
    rw [filter_filter]
    refine filter_congr fun row _ => ?_
    cases hrow : beyond (some last.createdAt) row with
    | false => rfl
    | true => rw [beyond_of_later hlast hrow, Bool.and_self]
  refine (hkept.filter _).length_le.trans_lt ?_
  rw [hfilter]
  exact length_filter_lt_length_iff_exists.mpr
    ⟨last, mem_filter.mpr ⟨hmem, hlast⟩, by simp [beyond]⟩

theorem remaining_lt (h : step groups pull action = some next) (hnext : next.status = .running) :
    next.remaining < pull.remaining ∧ (0 < pull.pageLimit → 0 < next.pageLimit) := by
  obtain ⟨hrunning, hcases⟩ := step_cases h
  rcases hcases with ⟨served, _, rfl⟩ | ⟨served, _, hlimit, rfl⟩ | ⟨served, _, rfl⟩ |
    ⟨ranks, _, _, rfl⟩ | ⟨ranks, last, _, hlast, rfl⟩
  · cases hnext
  · have hrows := ((@served_sublist groups pull served).filter
      (beyond pull.afterCreatedAt)).length_le
    simp only [remaining]
    omega
  · cases hnext
  · cases hnext
  · obtain ⟨hmem, hbeyond⟩ := mem_fetch_batch (mem_of_getLast? hlast)
    have hrows := length_filter_beyond_lt (@fetch_queue_sublist groups pull ranks) hmem hbeyond
    simp only [remaining]
    omega

theorem run_of_ne_running (h : pull.status ≠ .running)
    (hrun : run (step groups) pull actions = some final) : actions = [] ∧ final = pull := by
  cases actions with
  | nil =>
    cases hrun
    exact ⟨rfl, rfl⟩
  | cons action rest =>
    obtain ⟨next, hstep, _⟩ := run_cons_eq_some.mp hrun
    cases hstep.symm.trans (if_pos h)

theorem run_length_le (hlimit : 0 < pull.pageLimit)
    (hrun : run (step groups) pull actions = some final) : actions.length ≤ pull.remaining := by
  induction actions generalizing pull with
  | nil => exact Nat.zero_le _
  | cons action rest ih =>
    obtain ⟨next, hstep, hrest⟩ := run_cons_eq_some.mp hrun
    by_cases hnext : next.status = .running
    · obtain ⟨hlt, hpos⟩ := remaining_lt hstep hnext
      have hlength := ih (hpos hlimit) hrest
      rw [length_cons]
      omega
    · obtain ⟨rfl, _⟩ := run_of_ne_running hnext hrest
      simp only [length_singleton, remaining]
      omega

/-! ## 5. What a page leaves behind -/

/-- The pull against the queue it started from: nothing deliverable was purged, and the
    rows handed over are the deliverable ones up to the cursor. -/
structure Inv (groups : Nat → GroupState) (queue : List QueuedMessage) (pull : Pull) : Prop where
  kept : ∀ row ∈ queue, row.deliverable groups = true → row ∈ pull.queue
  handedOver : ∀ row ∈ queue, row.owed groups = true →
    beyond pull.afterCreatedAt row = false → row ∈ pull.handed
  passed : ∀ row ∈ pull.handed, beyond pull.afterCreatedAt row = false

theorem Inv.start (groups : Nat → GroupState) (queue : List QueuedMessage) :
    Inv groups queue (.start queue) where
  kept := fun _ hrow _ => hrow
  handedOver := fun _ _ _ hbeyond => by cases hbeyond
  passed := fun _ hrow => absurd hrow not_mem_nil

/-- Only the cursor and the rows handed over matter to what was handed over. -/
theorem Inv.of_eq (hinv : Inv groups queue pull)
    (hqueue : ∀ row ∈ pull.queue, row.deliverable groups = true → row ∈ next.queue)
    (hcursor : next.afterCreatedAt = pull.afterCreatedAt) (hhanded : next.handed = pull.handed) :
    Inv groups queue next where
  kept := fun row hrow hdeliverable => hqueue row (hinv.kept row hrow hdeliverable) hdeliverable
  handedOver := by
    rw [hcursor, hhanded]
    exact hinv.handedOver
  passed := by
    rw [hcursor, hhanded]
    exact hinv.passed

theorem deliverable_of_owed (h : row.owed groups = true) : row.deliverable groups = true :=
  (Bool.and_eq_true _ _ ▸ h).1

/-- While a deliverable row remains, a page answers something exactly when the rows before the
    first instant to answer leave room. -/
theorem batch_ne_nil_iff
    (hsame : SameOrder pull.queue pull.afterCreatedAt ranks) (hremains : Remains groups pull) :
    (pull.fetch groups ranks).1 ≠ [] ↔ FitsPage groups (min (max pull.pageLimit 1) 1000)
        (pendingRows pull.queue pull.afterCreatedAt (ranks 0)) := by
  obtain ⟨row, hrow, howed, hbeyond⟩ := hremains
  rw [← readPage_deliverable_iff hsame ⟨row, hrow, deliverable_of_owed howed, hbeyond⟩]
  simp only [fetch, fetchMessages, ne_eq, filter_eq_nil_iff, not_forall, not_not, exists_prop]

theorem Inv.step (hinv : Inv groups queue pull) (hsame : sameOrder pull action)
    (h : step groups pull action = some next) : Inv groups queue next := by
  obtain ⟨_, hcases⟩ := step_cases h
  rcases hcases with ⟨served, _, rfl⟩ | ⟨served, _, _, rfl⟩ | ⟨served, _, rfl⟩ |
    ⟨ranks, _, _, rfl⟩ | ⟨ranks, last, rfl, hlast, rfl⟩
  · exact hinv.of_eq (fun _ => mem_served) rfl rfl
  · exact hinv.of_eq (fun _ => mem_served) rfl rfl
  · exact hinv.of_eq (fun _ => mem_served) rfl rfl
  · exact hinv.of_eq (fun _ => mem_fetch_queue) rfl rfl
  · have hcursor := (mem_fetch_batch (mem_of_getLast? hlast)).2
    refine ⟨fun row hrow hdeliverable => ?_, fun row hrow howed hpassed => ?_, fun row hrow => ?_⟩
    · exact mem_fetch_queue (hinv.kept row hrow hdeliverable) hdeliverable
    · cases hbeyond : beyond pull.afterCreatedAt row with
      | false => exact mem_append_left _ (hinv.handedOver row hrow howed hbeyond)
      | true =>
        have hdeliverable := deliverable_of_owed howed
        have hle : row.createdAt ≤ last.createdAt := by simpa [beyond] using hpassed
        have hseen := (mem_filter.mp (mem_of_getLast? hlast)).1
        have hbatch : row ∈ (pull.fetch groups ranks).1 := mem_filter.mpr
          ⟨mem_readPage_of_le hsame hseen (hinv.kept row hrow hdeliverable) hbeyond hle,
            hdeliverable⟩
        rw [owed, Bool.and_eq_true] at howed
        exact mem_append_right _ (mem_filter.mpr ⟨hbatch, howed.2⟩)
    · rcases mem_append.mp hrow with hold | hnew
      · refine Bool.eq_false_iff.mpr fun hbeyond => ?_
        cases (hinv.passed row hold).symm.trans (beyond_of_later hcursor hbeyond)
      · have hordered : Ordered (pull.fetch groups ranks).1 := (ordered_readPage hsame).filter _
        have hle := hordered.le_last hlast (mem_filter.mp hnew).1
        simpa [beyond] using hle

/-! ## 6. The whole pull -/

theorem drained_iff_not_remains (hinv : Inv groups queue pull)
    (hwithin : pull.queue.Sublist queue) : Drained groups queue pull ↔ ¬Remains groups pull := by
  constructor
  · rintro hdrained ⟨row, hrow, howed, hbeyond⟩
    have hpassed := hinv.passed row (hdrained row (hwithin.subset hrow) howed)
    cases hpassed.symm.trans hbeyond
  · intro hnone row hrow howed
    refine hinv.handedOver row hrow howed (Bool.eq_false_iff.mpr fun hbeyond => hnone ?_)
    exact ⟨row, hinv.kept row hrow (deliverable_of_owed howed), howed, hbeyond⟩

theorem step_sublist (h : step groups pull action = some next) : next.queue.Sublist pull.queue := by
  obtain ⟨_, hcases⟩ := step_cases h
  rcases hcases with ⟨served, _, rfl⟩ | ⟨served, _, _, rfl⟩ | ⟨served, _, rfl⟩ |
    ⟨ranks, _, _, rfl⟩ | ⟨ranks, last, _, _, rfl⟩
  · exact served_sublist pull served
  · exact served_sublist pull served
  · exact served_sublist pull served
  · exact fetch_queue_sublist pull ranks
  · exact fetch_queue_sublist pull ranks

theorem leavesRoom_of_running (hsame : sameOrder pull action)
    (h : step groups pull action = some next) (hnext : next.status = .running) :
    leavesRoom groups pull action ∧ action.isRefusal = false := by
  obtain ⟨_, hcases⟩ := step_cases h
  rcases hcases with ⟨served, _, rfl⟩ | ⟨served, rfl, _, rfl⟩ | ⟨served, _, rfl⟩ |
    ⟨ranks, _, _, rfl⟩ | ⟨ranks, last, rfl, hlast, rfl⟩
  · cases hnext
  · exact ⟨trivial, rfl⟩
  · cases hnext
  · cases hnext
  · refine ⟨fun hremains => (batch_ne_nil_iff hsame hremains).mp fun hempty => ?_, rfl⟩
    rw [hempty] at hlast
    cases hlast

/-- The request on which the pull returned met it exactly when it was a page and nothing
    deliverable was left. -/
theorem leavesRoom_of_returned (hinv : Inv groups queue pull)
    (hwithin : pull.queue.Sublist queue) (hsame : sameOrder pull action)
    (h : step groups pull action = some next) (hnext : next.status = .returned) :
    action.isRefusal = false ∧ Drained groups queue next ↔ leavesRoom groups pull action := by
  obtain ⟨hrunning, hcases⟩ := step_cases h
  rcases hcases with ⟨served, rfl, rfl⟩ | ⟨served, _, _, rfl⟩ | ⟨served, _, rfl⟩ |
    ⟨ranks, rfl, hempty, rfl⟩ | ⟨ranks, last, rfl, hlast, rfl⟩
  · exact ⟨fun hboth => (nomatch hboth.1), False.elim⟩
  · cases hrunning.symm.trans hnext
  · cases hnext
  · -- the batch was empty, so the rows before the first to answer left no room for it
    have hfull : Remains groups pull → ¬FitsPage groups (min (max pull.pageLimit 1) 1000)
          (pendingRows pull.queue pull.afterCreatedAt (ranks 0)) := fun hremains hfits =>
      (batch_ne_nil_iff hsame hremains).mpr hfits hempty
    have hdrained : Drained groups queue pull ↔ ¬Remains groups pull :=
      drained_iff_not_remains hinv hwithin
    constructor
    · exact fun hboth hremains => absurd hremains (hdrained.mp hboth.2)
    · exact fun hroom => ⟨rfl, hdrained.mpr fun hremains => hfull hremains (hroom hremains)⟩
  · cases hrunning.symm.trans hnext

theorem drained_iff_leavesRoom (hinv : Inv groups queue pull) (hwithin : pull.queue.Sublist queue)
    (hrunning : pull.status = .running) (hrun : run (step groups) pull actions = some final)
    (hsame : EachStep (step groups) sameOrder pull actions) (hfinal : final.status = .returned) :
    ((∀ action ∈ actions, action.isRefusal = false) ∧ Drained groups queue final) ↔
      EachStep (step groups) (leavesRoom groups) pull actions := by
  induction actions generalizing pull with
  | nil =>
    cases hrun
    cases hrunning.symm.trans hfinal
  | cons action rest ih =>
    obtain ⟨next, hstep, hrest⟩ := run_cons_eq_some.mp hrun
    obtain ⟨hsame, hsameRest⟩ := hsame
    have heach : EachStep (step groups) (leavesRoom groups) pull (action :: rest) ↔
        leavesRoom groups pull action ∧ EachStep (step groups) (leavesRoom groups) next rest := by
      simp only [EachStep, hstep, Option.some.injEq, forall_eq']
    rw [heach, forall_mem_cons]
    by_cases hnext : next.status = .running
    · obtain ⟨hroom, hpage⟩ := leavesRoom_of_running hsame hstep hnext
      rw [← ih (hinv.step hsame hstep) ((step_sublist hstep).trans hwithin) hnext hrest
        (hsameRest next hstep)]
      tauto
    · obtain ⟨rfl, rfl⟩ := run_of_ne_running hnext hrest
      have hlast := leavesRoom_of_returned hinv hwithin hsame hstep hfinal
      simp only [not_mem_nil, false_implies, implies_true, and_true, EachStep]
      exact hlast

/-- **The pending queue is drained.**  From every queue, whatever becomes of each request,
    the pull ends after at most one request for every row and every row of page size, and it
    can go on until then.  If it sets `mailboxEmptiedByAPull`, and the statements of each page
    agreed on the order of the rows of one instant, then every page was fetched and every
    deliverable row was handed over exactly when no page was refused and none was filled by
    undeliverable rows while a deliverable one remained. -/
theorem pending_queue_drained (groups : Nat → GroupState) (queue : List QueuedMessage)
    {actions : List Action} {final : Pull}
    (hrun : run (step groups) (.start queue) actions = some final) :
    actions.length ≤ queue.length + 500 ∧
      (final.status = .running → ∀ action, (step groups final action).isSome = true) ∧
      (EachStep (step groups) sameOrder (.start queue) actions →
        final.mailboxEmptiedByAPull = true →
        (((∀ action ∈ actions, action.isRefusal = false) ∧
            ∀ row ∈ queue, row.owed groups = true → row ∈ final.handed) ↔
          EachStep (step groups) (leavesRoom groups) (.start queue) actions)) := by
  refine ⟨?_, step_of_running, fun hsame hemptied => ?_⟩
  · have hlength := run_length_le (Nat.succ_pos 499) hrun
    have hrows := length_filter_le (beyond none) queue
    simp only [remaining, start] at hlength
    omega
  · have hreturned : final.status = .returned := by
      simpa [mailboxEmptiedByAPull] using hemptied
    exact drained_iff_leavesRoom (.start groups queue) (List.Sublist.refl queue) rfl hrun hsame
      hreturned

/-! ### Two queues -/

/-- A frame of the group, with a payload of the given length. -/
def frame (id createdAt groupId length : Nat) : QueuedMessage :=
  ⟨id, createdAt, some groupId, none, some ⟨length, some length⟩, none⟩

/-- Group 1 was deleted; every other group is live. -/
def oneDeleted (groupId : Nat) : GroupState := if groupId = 1 then .tombstoned else .live

def byId : Action := .page fun _ row => row.id

/-- A residue of a deleted group that leaves room, and two frames of one instant. -/
theorem pending_queue_drained_residue :
    ∃ final, run (step oneDeleted) (.start [frame 1 10 1 100, frame 2 20 2 100, frame 3 20 3 100])
        [.lost none, byId, byId] = some final ∧
      final.mailboxEmptiedByAPull = true ∧ final.handed = [frame 2 20 2 100, frame 3 20 3 100] ∧
      ∀ row ∈ [frame 1 10 1 100, frame 2 20 2 100, frame 3 20 3 100],
        row.owed oneDeleted = true → row ∈ final.handed := by
  have hrun : run (step oneDeleted) (.start [frame 1 10 1 100, frame 2 20 2 100, frame 3 20 3 100])
      [.lost none, byId, byId] = some
        ⟨[frame 1 10 1 100, frame 2 20 2 100, frame 3 20 3 100], some 20, 250,
          [frame 2 20 2 100, frame 3 20 3 100], .returned⟩ := by decide
  refine ⟨_, hrun, rfl, rfl, ?_⟩
  have hsame : EachStep (step oneDeleted) sameOrder
      (.start [frame 1 10 1 100, frame 2 20 2 100, frame 3 20 3 100])
      [.lost none, byId, byId] :=
    ⟨trivial, fun _ _ => ⟨fun _ => rfl, fun _ _ => ⟨fun _ => rfl, fun _ _ => trivial⟩⟩⟩
  exact (((pending_queue_drained oneDeleted _ hrun).2.2 hsame rfl).mpr (by decide)).2

/-- A residue larger than a page: the pull returns on its first page, which is empty, and the
    frame behind the residue is not handed over. -/
theorem residue_fills_page :
    ∃ final, run (step oneDeleted) (.start [frame 1 10 1 (1024 * 1024), frame 2 20 2 100])
        [byId] = some final ∧
      final.mailboxEmptiedByAPull = true ∧
      (frame 2 20 2 100).owed oneDeleted = true ∧ frame 2 20 2 100 ∉ final.handed :=
  ⟨⟨[frame 1 10 1 (1024 * 1024), frame 2 20 2 100], none, 500, [], .returned⟩,
    by decide, rfl, by decide, by decide⟩

end MinesApp.PendingQueue
