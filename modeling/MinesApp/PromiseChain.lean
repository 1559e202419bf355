import MinesApp.TransitionSystem

/-!
# Promise chains

The usual way of running asynchronous tasks one at a time per key without a lock:
a map from each key to the last task's promise, a new task that starts once that
promise has settled, and a clean-up that removes the entry when the task it names
is still the last one.  Tasks are numbered by arrival.

`Chain.Ok` is what the four operations keep, and `Chain.Ok.running_unique` is the
exclusion a client builds on.
-/

namespace MinesApp.PromiseChain

open TransitionSystem Function Option

/-! ## 1. The operations -/

inductive Status where
  | queued
  | running
  | settled
  | cleaned
deriving DecidableEq, Repr

structure Task (Key : Type) where
  key : Key
  previous : Option Nat
  status : Status
deriving DecidableEq, Repr

structure Chain (Key : Type) where
  tails : Key → Option Nat
  tasks : Nat → Option (Task Key)
  arrivals : Nat

open Chain

variable {Key : Type}

def Status.done : Status → Bool
  | .settled | .cleaned => true
  | _ => false

def Chain.empty : Chain Key := ⟨fun _ => none, fun _ => none, 0⟩

def Chain.set (chain : Chain Key) (id : Nat) (task : Task Key) : Chain Key :=
  { chain with tasks := update chain.tasks id (some task) }

def Chain.done (chain : Chain Key) (id : Nat) : Bool :=
  match chain.tasks id with
  | some task => task.status.done
  | none => false

/-- The promise a task waits for has settled, or there was none to wait for. -/
def Chain.free (chain : Chain Key) (task : Task Key) : Bool :=
  match task.previous with
  | some previous => chain.done previous
  | none => true

/-- The task whose number is `chain.arrivals` joins the chain of its key. -/
def Chain.enqueue [DecidableEq Key] (chain : Chain Key) (key : Key) : Chain Key where
  tails := update chain.tails key (some chain.arrivals)
  tasks := update chain.tasks chain.arrivals (some ⟨key, chain.tails key, .queued⟩)
  arrivals := chain.arrivals + 1

def Chain.start (chain : Chain Key) (id : Nat) : Option (Chain Key) :=
  match chain.tasks id with
  | some task =>
    if task.status = .queued ∧ chain.free task = true then
      some (chain.set id { task with status := .running })
    else none
  | none => none

def Chain.settle (chain : Chain Key) (id : Nat) : Option (Chain Key) :=
  match chain.tasks id with
  | some task =>
    if task.status = .running then some (chain.set id { task with status := .settled }) else none
  | none => none

/-- Only the task that is still the last of its key removes the entry. -/
def Chain.cleanUp [DecidableEq Key] (chain : Chain Key) (id : Nat) : Option (Chain Key) :=
  match chain.tasks id with
  | some task =>
    if task.status = .settled then
      some ({ chain with
        tails := if chain.tails task.key = some id then
            update chain.tails task.key none
          else chain.tails }.set id { task with status := .cleaned })
    else none
  | none => none

/-! ## 2. One running task per key -/

/-- Every task of this key that arrived before `id` is over. -/
def Chain.DoneBefore (chain : Chain Key) (key : Key) (id : Nat) : Prop :=
  ∀ other task, other < id → chain.tasks other = some task → task.key = key →
    task.status.done = true

/-- What an entry of the map, or its absence, says about the tasks of the key that arrived before
    `bound`: it is one of them, and those behind it are over. -/
structure Chain.Last (chain : Chain Key) (key : Key) (bound : Nat) (last : Option Nat) :
    Prop where
  own : ∀ id ∈ last, id < bound ∧ ∀ task, chain.tasks id = some task → task.key = key
  behind : ∀ other task, other < bound → chain.tasks other = some task → task.key = key →
    (∀ id ∈ last, id < other) → task.status.done = true

structure Chain.Ok (chain : Chain Key) : Prop where
  fresh : ∀ id, chain.arrivals ≤ id → chain.tasks id = none
  tails : ∀ key, chain.Last key chain.arrivals (chain.tails key)
  previous : ∀ id task, chain.tasks id = some task → chain.Last task.key id task.previous
  order : ∀ id task, chain.tasks id = some task → task.status ≠ .queued →
    chain.DoneBefore task.key id

variable {chain next : Chain Key} {id other : Nat} {task : Task Key}

theorem Chain.Ok.empty : (Chain.empty : Chain Key).Ok :=
  ⟨fun _ _ => rfl, fun _ => ⟨nofun, nofun⟩, nofun, nofun⟩

/-- Two tasks of one key are never running together. -/
theorem Chain.Ok.running_unique (h : chain.Ok) {task' : Task Key} (hid : chain.tasks id = some task)
    (hother : chain.tasks other = some task') (hkey : task.key = task'.key)
    (hrunning : task.status = .running) (hrunning' : task'.status = .running) : id = other := by
  -- of two started tasks the earlier one is over
  rcases Nat.lt_trichotomy id other with hlt | heq | hlt
  · have hdone := h.order other task' hother (by simp [hrunning']) id task hlt hid hkey
    simp [hrunning, Status.done] at hdone
  · exact heq
  · have hdone := h.order id task hid (by simp [hrunning]) other task' hlt hother hkey.symm
    simp [hrunning', Status.done] at hdone

section

variable {status : Status} (hid : chain.tasks id = some task)
  (hdone : task.status.done = true → status.done = true)
include hid hdone

/-- A lookup after a move is a lookup before it, up to the status. -/
theorem set_eq_some {task' : Task Key}
    (h : (chain.set id { task with status }).tasks other = some task') :
    ∃ before, chain.tasks other = some before ∧ before.key = task'.key ∧
      before.previous = task'.previous ∧ (before.status.done = true → task'.status.done = true) ∧
      (other = id ∧ task'.status = status ∨ task' = before) := by
  rcases update_eq_some_iff.mp h with ⟨rfl, hsame⟩ | ⟨hne, hold⟩
  · cases hsame
    exact ⟨task, hid, rfl, rfl, hdone, .inl ⟨rfl, rfl⟩⟩
  · exact ⟨task', hold, rfl, rfl, fun hsame => hsame, .inr rfl⟩

theorem Chain.DoneBefore.set {key : Key} {bound : Nat} (h : chain.DoneBefore key bound) :
    (chain.set id { task with status }).DoneBefore key bound := by
  intro other task' hlt hother hkey
  obtain ⟨before, hold, hkey', -, hstays, -⟩ := set_eq_some hid hdone hother
  exact hstays (h other before hlt hold (hkey'.trans hkey))

theorem Chain.Last.set {key : Key} {bound : Nat} {last : Option Nat}
    (h : chain.Last key bound last) : (chain.set id { task with status }).Last key bound last := by
  refine ⟨fun tail htail => ⟨(h.own tail htail).1, fun task' hother => ?_⟩,
    fun other task' hlt hother hkey hbehind => ?_⟩
  · obtain ⟨before, hold, hkey, -⟩ := set_eq_some hid hdone hother
    exact hkey ▸ (h.own tail htail).2 before hold
  · obtain ⟨before, hold, hkey', -, hstays, -⟩ := set_eq_some hid hdone hother
    exact hstays (h.behind other before hlt hold (hkey'.trans hkey) hbehind)

theorem Chain.Ok.set (h : chain.Ok) (hbefore : status ≠ .queued → chain.DoneBefore task.key id) :
    (chain.set id { task with status }).Ok := by
  refine ⟨fun other hge => ?_, fun key => (h.tails key).set hid hdone, ?_, ?_⟩
  · have hne : other ≠ id := by
      rintro rfl
      cases (h.fresh other hge).symm.trans hid
    simpa [Chain.set, hne] using h.fresh other hge
  · intro other task' hother
    obtain ⟨before, hold, hkey, hprevious, -⟩ := set_eq_some hid hdone hother
    rw [← hkey, ← hprevious]
    exact (h.previous other before hold).set hid hdone
  · intro other task' hother hstarted
    obtain ⟨before, hold, hkey, -, -, ⟨rfl, hstatus⟩ | rfl⟩ := set_eq_some hid hdone hother
    · cases hid.symm.trans hold
      exact hkey ▸ (hbefore (hstatus ▸ hstarted)).set hid hdone
    · exact (h.order other task' hold hstarted).set hid hdone

end

theorem start_eq_some (h : chain.start id = some next) :
    ∃ task, chain.tasks id = some task ∧ task.status = .queued ∧ chain.free task = true ∧
      next = chain.set id { task with status := .running } := by
  unfold start at h
  split at h
  next task htask =>
    split at h
    next hqueued => exact ⟨task, htask, hqueued.1, hqueued.2, (some.inj h).symm⟩
    · cases h
  · cases h

theorem settle_eq_some (h : chain.settle id = some next) :
    ∃ task, chain.tasks id = some task ∧ task.status = .running ∧
      next = chain.set id { task with status := .settled } := by
  unfold settle at h
  split at h
  next task htask =>
    split at h
    next hrunning => exact ⟨task, htask, hrunning, (some.inj h).symm⟩
    · cases h
  · cases h

theorem Chain.Ok.start (h : chain.Ok) (hstart : chain.start id = some next) : next.Ok := by
  obtain ⟨task, hid, hqueued, hfree, rfl⟩ := start_eq_some hstart
  refine h.set hid (by simp [hqueued, Status.done]) fun _ other task' hlt hother hkey => ?_
  obtain ⟨hown, hover⟩ := h.previous id task hid
  cases hprevious : task.previous with
  | none => exact hover other task' hlt hother hkey (by simp [hprevious])
  | some previous =>
    -- the predecessor is over, and it started after everything before it was over
    obtain ⟨pred, hpred, hdone⟩ : ∃ pred, chain.tasks previous = some pred ∧
        pred.status.done = true := by
      cases hpred : chain.tasks previous with
      | none => simp [free, done, hprevious, hpred] at hfree
      | some pred => exact ⟨pred, rfl, by simpa [free, done, hprevious, hpred] using hfree⟩
    rcases Nat.lt_trichotomy other previous with hearlier | rfl | hlater
    · refine h.order previous pred hpred ?_ other task' hearlier hother ?_
      · intro hstatus
        simp [hstatus, Status.done] at hdone
      · rw [hkey, (hown previous hprevious).2 pred hpred]
    · cases hpred.symm.trans hother
      exact hdone
    · exact hover other task' hlt hother hkey (by simpa [hprevious] using hlater)

theorem Chain.Ok.settle (h : chain.Ok) (hsettle : chain.settle id = some next) : next.Ok := by
  obtain ⟨task, hid, hrunning, rfl⟩ := settle_eq_some hsettle
  exact h.set hid (by simp [hrunning, Status.done]) fun _ =>
    h.order id task hid (by simp [hrunning])

section

variable [DecidableEq Key] {key : Key}

theorem enqueue_of_lt (hlt : other < chain.arrivals) (key : Key) :
    (chain.enqueue key).tasks other = chain.tasks other := by
  simp [Chain.enqueue, Nat.ne_of_lt hlt]

/-- What held of the tasks before `bound` still does: the new one is later. -/
theorem Chain.Last.enqueue {key' : Key} {bound : Nat} {last : Option Nat}
    (h : chain.Last key' bound last) (hbound : bound ≤ chain.arrivals) :
    (chain.enqueue key).Last key' bound last := by
  refine ⟨fun id hid => ⟨(h.own id hid).1, ?_⟩, fun other task hlt htask => ?_⟩
  · rw [enqueue_of_lt (Nat.lt_of_lt_of_le (h.own id hid).1 hbound)]
    exact (h.own id hid).2
  · rw [enqueue_of_lt (Nat.lt_of_lt_of_le hlt hbound)] at htask
    exact h.behind other task hlt htask

theorem Chain.Ok.enqueue (h : chain.Ok) (key : Key) : (chain.enqueue key).Ok := by
  have hlookup : ∀ other task, (chain.enqueue key).tasks other = some task →
      (other = chain.arrivals ∧ task = ⟨key, chain.tails key, .queued⟩) ∨
      other < chain.arrivals ∧ chain.tasks other = some task := by
    intro other task hother
    rcases update_eq_some_iff.mp hother with ⟨rfl, hsame⟩ | ⟨_, hold⟩
    · exact .inl ⟨rfl, (some.inj hsame).symm⟩
    · refine .inr ⟨Nat.lt_of_not_le fun hge => ?_, hold⟩
      cases (h.fresh other hge).symm.trans hold
  refine ⟨fun other hge => ?_, fun key' => ?_, fun other task hother => ?_,
    fun other task hother hstarted => ?_⟩
  · have hne : other ≠ chain.arrivals := fun hsame => absurd hge (by simp [Chain.enqueue, hsame])
    simpa [Chain.enqueue, hne] using h.fresh other (Nat.le_of_succ_le hge)
  · by_cases hkey : key' = key
    · subst hkey
      simp only [Chain.enqueue, update_self]
      exact ⟨by simp, fun other _ hlt _ _ hbehind => absurd (hbehind _ rfl) (by omega)⟩
    · obtain ⟨hown, hover⟩ := (h.tails key').enqueue (Nat.le_refl _)
      have hsame : (chain.enqueue key).tails key' = chain.tails key' := update_of_ne hkey _ _
      rw [hsame]
      refine ⟨fun id hid => ⟨Nat.lt_succ_of_lt (hown id hid).1, (hown id hid).2⟩,
        fun other task _ hother hof => ?_⟩
      rcases hlookup other task hother with ⟨-, rfl⟩ | ⟨hlt, -⟩
      · exact absurd hof.symm hkey
      · exact hover other task hlt hother hof
  · rcases hlookup other task hother with ⟨rfl, rfl⟩ | ⟨hlt, hold⟩
    · exact (h.tails key).enqueue (Nat.le_refl _)
    · exact (h.previous other task hold).enqueue (Nat.le_of_lt hlt)
  · rcases hlookup other task hother with ⟨rfl, rfl⟩ | ⟨hlt, hold⟩
    · exact absurd rfl hstarted
    · intro earlier task' hearlier htask
      rw [enqueue_of_lt (Nat.lt_trans hearlier hlt)] at htask
      exact h.order other task hold hstarted earlier task' hearlier htask

theorem Chain.Ok.cleanUp (h : chain.Ok) (hclean : chain.cleanUp id = some next) : next.Ok := by
  unfold Chain.cleanUp at hclean
  split at hclean
  next task hid =>
    obtain ⟨hsettled, rfl⟩ := ite_some_none_eq_some.mp hclean
    have hset : (chain.set id { task with status := .cleaned }).Ok :=
      h.set hid (fun _ => rfl) fun _ => h.order id task hid (by simp [hsettled])
    refine ⟨hset.fresh, fun key => ?_, fun id task htask => ?_, hset.order⟩
    case refine_2 =>
      have hprevious := hset.previous id task htask
      exact ⟨hprevious.own, hprevious.behind⟩
    obtain ⟨hown, hover⟩ := hset.tails key
    split
    next hlast =>
      by_cases hkey : key = task.key
      · -- the entry goes only when every task of the key is over
        subst hkey
        simp only [Chain.set, update_self]
        refine ⟨nofun, fun other task' hlt hother hkey _ => ?_⟩
        rcases Nat.lt_trichotomy other id with hearlier | rfl | hlater
        · exact hset.order id _ (update_self _ _ _) (by simp) other task' hearlier hother hkey
        · simp only [update_self, some.injEq] at hother
          rw [← hother]
          rfl
        · exact hover other task' hlt hother hkey (by simpa [Chain.set, hlast] using hlater)
      · simp only [Chain.set, update_of_ne hkey]
        exact ⟨hown, hover⟩
    · exact ⟨hown, hover⟩
  · cases hclean

end

/-! ## 3. Pending tasks -/

/-- The task has arrived and its promise has not settled. -/
def Chain.pending (chain : Chain Key) (id : Nat) : Bool :=
  match chain.tasks id with
  | some task => !task.status.done
  | none => false

/-- A task that goes on makes none pending. -/
theorem pending_of_set {status : Status}
    (hid : chain.tasks id = some task) (hdone : task.status.done = true → status.done = true)
    (h : (chain.set id { task with status }).pending other = true) :
    chain.pending other = true := by
  by_cases hsame : other = id
  · subst hsame
    simp only [Chain.pending, Chain.set, update_self, hid] at h ⊢
    cases hstatus : task.status.done with
    | false => rfl
    | true => simp [hdone hstatus] at h
  · simpa [Chain.pending, Chain.set, hsame] using h

theorem pending_of_start (hstart : chain.start id = some next) (h : next.pending other = true) :
    chain.pending other = true := by
  obtain ⟨task, hid, hqueued, -, rfl⟩ := start_eq_some hstart
  exact pending_of_set hid (by simp [hqueued, Status.done]) h

theorem pending_of_settle (hsettle : chain.settle id = some next) (h : next.pending other = true) :
    chain.pending other = true := by
  obtain ⟨task, hid, hrunning, rfl⟩ := settle_eq_some hsettle
  exact pending_of_set hid (by simp [hrunning, Status.done]) h

theorem pending_of_cleanUp [DecidableEq Key] (hclean : chain.cleanUp id = some next)
    (h : next.pending other = true) : chain.pending other = true := by
  unfold cleanUp at hclean
  split at hclean
  next task hid =>
    obtain ⟨_, rfl⟩ := ite_some_none_eq_some.mp hclean
    have hset : (chain.set id { task with status := .cleaned }).pending other = true := h
    exact pending_of_set hid (fun _ => rfl) hset
  · cases hclean

theorem pending_of_enqueue [DecidableEq Key] {key : Key}
    (h : (chain.enqueue key).pending other = true) :
    other = chain.arrivals ∨ chain.pending other = true := by
  by_cases hnew : other = chain.arrivals
  · exact .inl hnew
  · right
    simpa [pending, enqueue, hnew] using h

end MinesApp.PromiseChain
