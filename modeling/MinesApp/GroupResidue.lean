import MinesApp.GroupCallRecords

/-!
# What a deleted group still owns

Whether anything of a group outlives `deleteGroup` is decided by what is created after
the deletion has passed.  A row inserted before the `DELETE` of its table is found by it,
and one inserted between that statement and the commit is not, nor is a key written after
the `DEL`.  So the tables are followed through `Store.settled`, what they will hold once
the open transaction commits: the deletion empties that, and only a late insertion fills
it again.
-/

namespace MinesApp.GroupResidue

open TransitionSystem AwaitProgram GroupCalls List Store Write RowLock
open GroupCallRecords
open GroupDeletion (OwnedTable ownedTables)
open GroupInfoRegister (MlsGroupInfo)
open ValidateCommit (CommitLogRow)

/-! ## 1. What one command can do -/

/-- What a deletion empties: a table's rows, or the three keys. -/
inductive Owned where
  | rows (table : OwnedTable)
  | keys
deriving DecidableEq, Repr

/-- What the command creates, if it does.  Queued messages are left to the check of
    `enqueueForLiveGroup`; an `UPDATE` creates no row. -/
def creates : Command → Option Owned
  | .upsertDevice _ => some (.rows .deviceMemberships)
  | .insertGroupInfo _ => some (.rows .groupInfo)
  | .insertCommit _ => some (.rows .commitLog)
  | .sadd _ | .xadd _ => some .keys
  | _ => none

/-- The effect of a command of `id` on the store, with what it creates and how it moves the
    record of `id`. -/
inductive Effect (store : Store) (id : Nat) (created : Option Owned) (move : Held → Held) :
    Store → Prop where
  | read (hmove : ∀ held, move held = held) : Effect store id created move store
  | inserted (table : OwnedTable) (rows : List (Row table))
      (hcreated : created = some (.rows table)) (hmove : ∀ held, move held = held) :
      Effect store id created move (store.setRows table rows)
  | refreshed (update : MlsGroupInfo → MlsGroupInfo)
      (hfree : store.pending.any (touches .groupInfo) = false)
      (hmove : ∀ held, move held = held) :
      Effect store id created move (store.setRows .groupInfo ((store.tables .groupInfo).map update))
  | staged (table : OwnedTable) (rows : List (Row table))
      (hexclusive : store.lock.exclusive = some id) (hcreated : created = some (.rows table))
      (hmove : ∀ held, move held = held) :
      Effect store id created move (store.stage (.insert table rows))
  | replaced (row : MlsGroupInfo) (hexclusive : store.lock.exclusive = some id)
      (hmove : ∀ held, move held = held) :
      Effect store id created move (store.stage
        (.updateGroupInfo (below (store.settled .groupInfo) row) row))
  | queued (rows : Nat → List QueuedMessage) (hmove : ∀ held, move held = held) :
      Effect store id created move { store with queued := rows }
  | keyed (history : List HistoryEntry) (members : List String)
      (hcreated : created = some .keys) (hmove : ∀ held, move held = held) :
      Effect store id created move (store.setKeys { store.keys with history, members })
  | shared (lock : RowLock) (hshare : store.lock.share id = some lock)
      (hmove : ∀ held, move held = held) :
      Effect store id created move { store with lock }
  | opened (write : Write) (lock : RowLock) (hexclude : store.lock.exclude id = some lock)
      (hgroup : ∀ tables, write.apply tables = tables) (hremoves : write.removes = none)
      (hmove : ∀ held, move held = held) :
      Effect store id created move { store with lock, pending := [write] }
  | deleted (table : OwnedTable) (hexclusive : store.lock.exclusive = some id)
      (hmove : ∀ held, move held = { held with deleting := table :: held.deleting }) :
      Effect store id created move (store.stage (.remove table (store.settled table)))
  | committed (hmove : ∀ held, move held =
        { held with deleting := [], deleted := held.deleting ++ held.deleted }) :
      Effect store id created move (store.commit id)
  | closed (hmove : ∀ held, move held = { held with deleting := [] }) :
      Effect store id created move (store.close id)
  | locked (deviceId : String) (hmove : ∀ held, move held = { held with lock := some deviceId }) :
      Effect store id created move
        (store.setKeys { store.keys with commitLock := some ⟨deviceId, id⟩ })
  | unlocked (deviceId : String)
      (hmove : ∀ held, move held =
        if held.lock = some deviceId then { held with lock := none } else held) :
      Effect store id created move (store.setKeys { store.keys with
        commitLock := store.keys.commitLock.filter fun lock => lock.value ≠ deviceId })
  | keysDeleted (hmove : ∀ held, move held = { held with keysDeleted := true }) :
      Effect store id created move { store with
          keys := { store.keys with history := [], members := [], pendingWelcome := [] }
          keysPurged := true }

variable {store : Store}

theorem execute_effect {next : Store} {id : Nat} {command : Command} {reply : command.Reply}
    (h : execute store id command = some (next, reply)) :
    Effect store id (creates command) (fun held => Held.after held command reply) next := by
  cases command with
  | findMember userId | findMembers | findDevice deviceId | findActiveDevices | findGroup
  | findGroupInfo | findKeyPackage deviceId userId | findKeyPackagesOfDevices deviceIds
  | findKeyPackagesOfUsers userIds | findRevoked device | isOnline key | publish row
  | push row =>
    cases h
    exact .read fun _ => rfl
  | upsertDevice row =>
    simp only [execute] at h
    split at h
    · cases h
    cases h
    exact .inserted _ _ rfl fun _ => rfl
  | insertGroupInfo row =>
    simp only [execute] at h
    split at h
    next hexclusive =>
      split at h
      · cases h
        exact .staged _ _ hexclusive rfl fun _ => rfl
      · cases h
        exact .read fun _ => rfl
    · split at h
      · cases h
      split at h
      · cases h
        exact .inserted _ _ rfl fun _ => rfl
      · cases h
        exact .read fun _ => rfl
  | updateGroupInfo row =>
    simp only [execute] at h
    split at h
    next hexclusive =>
      cases h
      exact .replaced row hexclusive fun _ => rfl
    · split at h
      · cases h
      next hfree =>
        cases h
        exact .refreshed _ (Bool.eq_false_iff.mpr hfree) fun _ => rfl
  | insertCommit row =>
    simp only [execute] at h
    split at h
    next hexclusive =>
      split at h
      · cases h
        exact .read fun _ => rfl
      · cases h
        exact .staged _ _ hexclusive rfl fun _ => rfl
    · cases h
  | shareGroup =>
    obtain ⟨lock, hshare, hnext⟩ := Option.map_eq_some_iff.mp h
    cases hnext
    exact .shared lock hshare fun _ => rfl
  | saveQueued rows =>
    cases h
    exact .queued _ fun _ => rfl
  | updateActiveEpoch epoch | updateDeletedAt =>
    obtain ⟨opened, hopened, hnext⟩ := Option.map_eq_some_iff.mp h
    cases hnext
    obtain ⟨lock, hexclude, rfl⟩ := Option.map_eq_some_iff.mp hopened
    exact .opened _ lock hexclude (fun _ => rfl) rfl fun _ => rfl
  | deleteRows table =>
    simp only [execute] at h
    split at h
    next hexclusive =>
      cases h
      exact .deleted table hexclusive fun _ => rfl
    · cases h
  | commit =>
    cases h
    exact .committed fun _ => rfl
  | rollback =>
    cases h
    exact .closed fun _ => rfl
  | setCommitLock deviceId =>
    simp only [execute] at h
    split at h
    · cases h
      exact .locked deviceId fun _ => rfl
    · cases h
      exact .read fun _ => rfl
  | releaseCommitLock deviceId =>
    cases h
    exact .unlocked deviceId fun _ => rfl
  | sadd members | xadd entry =>
    cases h
    exact .keyed _ _ rfl fun _ => rfl
  | del =>
    cases h
    exact .keysDeleted fun _ => rfl

/-! ## 2. The records agree with the store -/

/-- The tables the open transaction has emptied. -/
def emptying (store : Store) : List OwnedTable := store.pending.filterMap removes

structure Holds (store : Store) (id : Nat) (held : Held) : Prop where
  lock : ∀ lock, store.keys.commitLock = some lock → lock.owner = id → held.lock = some lock.value
  deleting : ∀ table ∈ held.deleting, store.lock.exclusive = some id ∧ table ∈ emptying store
  deleted : ∀ table ∈ held.deleted, table ∈ store.purged
  keysDeleted : held.keysDeleted = true → store.keysPurged = true

section

variable (store : Store) (id : Nat)

@[simp] theorem commit_lock : (store.commit id).lock = store.lock.release id := by
  unfold commit
  split <;> rfl

@[simp] theorem commit_keys : (store.commit id).keys = store.keys := by
  unfold commit
  split <;> rfl

@[simp] theorem commit_keysPurged : (store.commit id).keysPurged = store.keysPurged := by
  unfold commit
  split <;> rfl

theorem commit_pending : (store.commit id).pending = (store.close id).pending := by
  unfold commit
  split <;> rfl

theorem commit_purged :
    (store.commit id).purged =
      if store.lock.exclusive = some id then emptying store ++ store.purged else store.purged := by
  unfold commit
  split <;> rfl

end

theorem mem_purged_commit {table : OwnedTable} (h : table ∈ store.purged) (id : Nat) :
    table ∈ (store.commit id).purged := by
  rw [commit_purged]
  split
  · exact mem_append_right _ h
  · exact h

theorem mem_emptying_stage {table : OwnedTable} (h : table ∈ emptying store) (write : Write) :
    table ∈ emptying (store.stage write) := by
  rw [emptying, stage, filterMap_append]
  exact mem_append_left _ h

section

variable {store : Store} {id : Nat} {held : Held}

section

variable (h : Holds store id held)
include h

/-- Outside the transaction nothing is being deleted. -/
theorem Holds.deleting_eq_nil (hfree : store.lock.exclusive = none) : held.deleting = [] := by
  apply eq_nil_iff_forall_not_mem.mpr
  intro table htable
  cases hfree.symm.trans (h.deleting table htable).1

theorem Holds.commit : Holds (store.commit id) id
      { held with deleting := [], deleted := held.deleting ++ held.deleted } := by
  refine ⟨?_, ?_, ?_, ?_⟩
  · rw [commit_keys]
    exact h.lock
  · intro table htable
    cases htable
  · intro table htable
    rcases mem_append.mp htable with hdeleting | hdeleted
    · obtain ⟨hexclusive, hemptying⟩ := h.deleting table hdeleting
      rw [commit_purged, if_pos hexclusive]
      exact mem_append_left _ hemptying
    · exact mem_purged_commit (h.deleted table hdeleted) id
  · rw [commit_keysPurged]
    exact h.keysDeleted

/-- A lock is released by its value: the lock that stays is not the call's own. -/
theorem Holds.unlock (deviceId : String) : Holds (store.setKeys { store.keys with
        commitLock := store.keys.commitLock.filter fun lock => lock.value ≠ deviceId }) id
      (if held.lock = some deviceId then { held with lock := none } else held) := by
  have hlock : ∀ lock, store.keys.commitLock.filter (fun lock => lock.value ≠ deviceId) =
      some lock → lock.owner = id → held.lock = some lock.value ∧ lock.value ≠ deviceId := by
    intro lock hkept howner
    obtain ⟨hlock, hother⟩ := Option.filter_eq_some_iff.mp hkept
    exact ⟨h.lock lock hlock howner, by simpa using hother⟩
  split
  next hmine =>
    refine ⟨?_, h.deleting, h.deleted, h.keysDeleted⟩
    intro lock hkept howner
    obtain ⟨hheld, hother⟩ := hlock lock hkept howner
    cases hmine.symm.trans hheld
    exact absurd rfl hother
  · refine ⟨?_, h.deleting, h.deleted, h.keysDeleted⟩
    intro lock hkept howner
    exact (hlock lock hkept howner).1

end

end

variable {store next : Store} {created : Option Owned} {move : Held → Held} {held : Held}

theorem Holds.own {id : Nat}
    (h : Holds store id held) (heffect : Effect store id created move next) :
    Holds next id (move held) := by
  cases heffect with rw [hmove]
  | read hmove | inserted _ _ _ hmove | refreshed _ _ hmove | queued _ hmove
  | keyed _ _ _ hmove =>
    exact ⟨h.lock, h.deleting, h.deleted, h.keysDeleted⟩
  | staged table rows hexclusive _ hmove | replaced row hexclusive hmove =>
    refine ⟨h.lock, ?_, h.deleted, h.keysDeleted⟩
    intro table htable
    exact ⟨hexclusive, mem_emptying_stage (h.deleting table htable).2 _⟩
  | shared lock hshare hmove =>
    refine ⟨h.lock, ?_, h.deleted, h.keysDeleted⟩
    rw [h.deleting_eq_nil (share_eq_some hshare).1]
    intro table htable
    cases htable
  | opened write lock hexclude _ _ hmove =>
    refine ⟨h.lock, ?_, h.deleted, h.keysDeleted⟩
    rw [h.deleting_eq_nil (exclude_eq_some hexclude).1]
    intro table htable
    cases htable
  | deleted table hexclusive hmove =>
    refine ⟨h.lock, ?_, h.deleted, h.keysDeleted⟩
    intro other hother
    refine ⟨hexclusive, ?_⟩
    rcases mem_cons.mp hother with rfl | hbefore
    · rw [emptying, stage, filterMap_append]
      exact mem_append_right _ mem_cons_self
    · exact mem_emptying_stage (h.deleting other hbefore).2 _
  | committed hmove =>
    exact h.commit
  | closed hmove =>
    refine ⟨h.lock, ?_, h.deleted, h.keysDeleted⟩
    intro table htable
    cases htable
  | locked deviceId hmove =>
    refine ⟨?_, h.deleting, h.deleted, h.keysDeleted⟩
    intro lock hlock _
    cases hlock
    rfl
  | unlocked deviceId hmove =>
    exact h.unlock deviceId
  | keysDeleted hmove =>
    exact ⟨h.lock, h.deleting, h.deleted, fun _ => rfl⟩

theorem Holds.released {id other : Nat} (h : Holds store other held) (hne : other ≠ id)
    (hlock : next.lock = store.lock.release id) (hpending : next.pending = (store.close id).pending)
    (hkeys : next.keys = store.keys) (hpurged : ∀ table ∈ store.purged, table ∈ next.purged)
    (hkeysPurged : next.keysPurged = store.keysPurged) : Holds next other held := by
  refine ⟨?_, ?_, ?_, ?_⟩
  · rw [hkeys]
    exact h.lock
  · intro table htable
    obtain ⟨hexclusive, hemptying⟩ := h.deleting table htable
    have hother : store.lock.exclusive ≠ some id := by
      intro hmine
      cases hexclusive.symm.trans hmine
      exact hne rfl
    constructor
    · rw [hlock]
      exact Option.filter_eq_some_iff.mpr ⟨hexclusive, by simpa using hne⟩
    · rw [emptying, hpending]
      simpa [close, hother, emptying] using hemptying
  · intro table htable
    exact hpurged table (h.deleted table htable)
  · rw [hkeysPurged]
    exact h.keysDeleted

theorem Holds.other {id other : Nat} (h : Holds store other held) (hne : other ≠ id)
    (heffect : Effect store id created move next) : Holds next other held := by
  cases heffect with
  | read | inserted | refreshed | queued | keyed =>
    exact ⟨h.lock, h.deleting, h.deleted, h.keysDeleted⟩
  | staged table rows hexclusive | replaced row hexclusive | deleted table hexclusive =>
    refine ⟨h.lock, ?_, h.deleted, h.keysDeleted⟩
    intro table htable
    cases hexclusive.symm.trans (h.deleting table htable).1
    exact absurd rfl hne
  | shared lock hshare =>
    refine ⟨h.lock, ?_, h.deleted, h.keysDeleted⟩
    intro table htable
    cases (share_eq_some hshare).1.symm.trans (h.deleting table htable).1
  | opened write lock hexclude =>
    refine ⟨h.lock, ?_, h.deleted, h.keysDeleted⟩
    intro table htable
    cases (exclude_eq_some hexclude).1.symm.trans (h.deleting table htable).1
  | committed =>
    refine h.released hne (commit_lock store id) (commit_pending store id)
      (commit_keys store id) ?_ (commit_keysPurged store id)
    intro table htable
    exact mem_purged_commit htable id
  | closed => exact h.released hne rfl rfl rfl (fun _ htable => htable) rfl
  | locked deviceId =>
    refine ⟨?_, h.deleting, h.deleted, h.keysDeleted⟩
    intro lock hlock howner
    cases hlock
    exact absurd howner.symm hne
  | unlocked deviceId =>
    refine ⟨?_, h.deleting, h.deleted, h.keysDeleted⟩
    intro lock hlock howner
    exact h.lock lock (Option.filter_eq_some_iff.mp hlock).1 howner
  | keysDeleted => exact ⟨h.lock, h.deleting, h.deleted, fun _ => rfl⟩

/-! ## 3. What the deletion emptied stays empty -/

/-- A deletion has emptied it: committed, or in the open transaction. -/
def Emptied (store : Store) : Owned → Prop
  | .rows table => table ∈ store.purged ∨ table ∈ emptying store
  | .keys => store.keysPurged = true

instance (store : Store) : (owned : Owned) → Decidable (Emptied store owned)
  | .rows table => inferInstanceAs (Decidable (table ∈ store.purged ∨ table ∈ emptying store))
  | .keys => inferInstanceAs (Decidable (store.keysPurged = true))

section

variable {tables tables' : Tables} {table other : OwnedTable}

theorem apply_congr (write : Write) (h : tables table = tables' table) :
    write.apply tables table = write.apply tables' table := by
  cases write with
  | setDeletedAt | setActiveEpoch => exact h
  | remove written rows | insert written rows =>
    by_cases hsame : table = written
    · subst hsame
      simp [apply, h]
    · simp [apply, hsame, h]
  | updateGroupInfo rows row =>
    by_cases hsame : table = .groupInfo
    · subst hsame
      simp [apply, h]
    · simp [apply, hsame, h]

theorem foldl_apply_congr (writes : List Write) (h : tables table = tables' table) :
    writes.foldl apply tables table = writes.foldl apply tables' table := by
  induction writes generalizing tables tables' with
  | nil => exact h
  | cons write rest ih => exact ih (apply_congr write h)

theorem apply_of_not_touches {write : Write} (h : write.touches table = false) :
    write.apply tables table = tables table := by
  cases write with
  | setDeletedAt | setActiveEpoch => rfl
  | remove written rows | insert written rows =>
    by_cases hsame : table = written
    · subst hsame
      have hnone : rows = [] := by simpa [touches] using h
      simp [apply, hnone]
    · simp [apply, hsame]
  | updateGroupInfo rows row =>
    by_cases hsame : table = .groupInfo
    · subst hsame
      have hnone : rows = [] := by simpa [touches] using h
      simp [apply, hnone]
    · simp [apply, hsame]

theorem foldl_apply_of_not_touches {writes : List Write} (h : writes.any (touches table) = false) :
    writes.foldl apply tables table = tables table := by
  induction writes generalizing tables with
  | nil => rfl
  | cons write rest ih =>
    rw [any_cons, Bool.or_eq_false_iff] at h
    rw [foldl_cons, ih h.2, apply_of_not_touches h.1]

theorem settled_stage (store : Store) (write : Write) :
    (store.stage write).settled = write.apply store.settled := by
  simp [settled, stage]

theorem settled_setRows_of_ne (store : Store) (rows : List (Row table)) (h : other ≠ table) :
    (store.setRows table rows).settled other = store.settled other := by
  apply foldl_apply_congr
  simp [setRows, h]

theorem emptied_stage (store : Store) (write : Write) :
    Emptied (store.stage write) (.rows table) ↔
      Emptied store (.rows table) ∨ write.removes = some table := by
  simp only [Emptied, emptying, stage, filterMap_append, mem_append, or_assoc]
  cases h : write.removes with
  | none => simp [h]
  | some removed => simp [h, eq_comm]

/-- A staged write that removes nothing empties nothing. -/
theorem emptied_of_stage {write : Write} (hremoves : write.removes = none)
    (h : Emptied (store.stage write) (.rows table)) : Emptied store (.rows table) := by
  rcases (emptied_stage store write).mp h with hbefore | hremoved
  · exact hbefore
  · cases hremoves.symm.trans hremoved

end

structure Clean (store : Store) : Prop where
  rows : ∀ table, table ≠ .queuedMessages → table ∈ store.purged → store.tables table = []
  settled : ∀ table, table ≠ .queuedMessages → Emptied store (.rows table) →
    store.settled table = []
  keys : store.keysPurged = true → store.keys.history = [] ∧ store.keys.members = [] ∧
    store.keys.pendingWelcome = []

theorem Clean.setRows (h : Clean store) {table : OwnedTable} {rows : List (Row table)}
    (hrows : Emptied store (.rows table) → table ≠ .queuedMessages →
      rows = [] ∧ (store.setRows table rows).settled table = []) :
    Clean (store.setRows table rows) := by
  refine ⟨?_, ?_, h.keys⟩
  · intro other hother hpurged
    by_cases hsame : other = table
    · subst hsame
      simpa [Store.setRows] using (hrows (.inl hpurged) hother).1
    · simpa [Store.setRows, hsame] using h.rows other hother hpurged
  · intro other hother hemptied
    by_cases hsame : other = table
    · subst hsame
      exact (hrows hemptied hother).2
    · rw [settled_setRows_of_ne store rows hsame]
      exact h.settled other hother hemptied

theorem Clean.stage (h : Clean store) {write : Write}
    (hwrite : ∀ table, table ≠ .queuedMessages → Emptied (store.stage write) (.rows table) →
      write.apply store.settled table = []) : Clean (store.stage write) := by
  refine ⟨h.rows, ?_, h.keys⟩
  intro table htable hemptied
  rw [settled_stage]
  exact hwrite table htable hemptied

/-- The exclusive transaction ends with the tables as they then are. -/
theorem clean_close_exclusive {id : Nat} (hmine : store.lock.exclusive = some id)
    (hrows : ∀ table, table ≠ .queuedMessages → table ∈ store.purged → store.tables table = [])
    (hkeys : store.keysPurged = true → store.keys.history = [] ∧ store.keys.members = [] ∧
      store.keys.pendingWelcome = []) : Clean (store.close id) := by
  have hpending : (store.close id).pending = [] := by simp [close, hmine]
  refine ⟨hrows, ?_, hkeys⟩
  intro table htable hemptied
  rw [Emptied, emptying, hpending] at hemptied
  rw [settled, hpending]
  rcases hemptied with hpurged | hnone
  · exact hrows table htable hpurged
  · cases hnone

theorem Clean.close (h : Clean store) (id : Nat) : Clean (store.close id) := by
  by_cases hmine : store.lock.exclusive = some id
  · exact clean_close_exclusive hmine h.rows h.keys
  · have hpending : (store.close id).pending = store.pending := by simp [Store.close, hmine]
    refine ⟨h.rows, ?_, h.keys⟩
    intro table htable hemptied
    rw [Emptied, emptying, hpending] at hemptied
    rw [Store.settled, hpending]
    exact h.settled table htable hemptied

theorem Clean.commit (h : Clean store) (id : Nat) : Clean (store.commit id) := by
  unfold Store.commit
  split
  next hmine =>
    refine clean_close_exclusive hmine ?_ h.keys
    intro table htable hpurged
    apply h.settled table htable
    rcases mem_append.mp hpurged with hemptying | hpurged
    · exact .inr hemptying
    · exact .inl hpurged
  · apply Clean.close
    apply h.setRows
    intro _ hqueue
    exact absurd rfl hqueue

/-- **Step.**  A command that creates nothing a deletion has emptied keeps it empty. -/
theorem Clean.step {next : Store} {id : Nat} (h : Clean store)
    (heffect : Effect store id created move next)
    (hintime : ∀ owned, created = some owned → ¬ Emptied store owned) : Clean next := by
  cases heffect with
  | read => exact h
  | queued | locked deviceId | unlocked deviceId => exact ⟨h.rows, h.settled, h.keys⟩
  | inserted table rows hcreated =>
    apply h.setRows
    intro hemptied
    exact absurd hemptied (hintime _ hcreated)
  | refreshed update hfree =>
    apply h.setRows
    intro hemptied htable
    have hsettled := h.settled .groupInfo htable hemptied
    rw [Store.settled, foldl_apply_of_not_touches hfree] at hsettled
    constructor
    · rw [hsettled]
      rfl
    · refine (foldl_apply_of_not_touches hfree).trans ?_
      simp [Store.setRows, hsettled]
  | staged table rows hexclusive hcreated =>
    apply h.stage
    intro other hother hemptied
    have hbefore := emptied_of_stage rfl hemptied
    have hne : other ≠ table := by
      rintro rfl
      exact hintime _ hcreated hbefore
    simpa [apply, hne] using h.settled other hother hbefore
  | replaced row hexclusive =>
    apply h.stage
    intro other hother hemptied
    have hsettled := h.settled other hother (emptied_of_stage rfl hemptied)
    by_cases hsame : other = .groupInfo
    · subst hsame
      simp [apply, hsettled]
    · simpa [apply, hsame] using hsettled
  | keyed history members hcreated =>
    refine ⟨h.rows, h.settled, ?_⟩
    intro hpurged
    exact absurd hpurged (hintime _ hcreated)
  | shared lock hshare =>
    exact ⟨h.rows, h.settled, h.keys⟩
  | opened write lock hexclude hgroup hremoves =>
    refine ⟨h.rows, ?_, h.keys⟩
    intro table htable hemptied
    simp only [Emptied, emptying, filterMap_cons, hremoves, filterMap_nil,
      not_mem_nil, or_false] at hemptied
    simp only [Store.settled, foldl_cons, hgroup, foldl_nil]
    exact h.rows table htable hemptied
  | deleted table hexclusive =>
    apply h.stage
    intro other hother hemptied
    by_cases hsame : other = table
    · subst hsame
      simp [apply]
    · have hbefore : Emptied store (.rows other) := by
        simpa [emptied_stage, removes, Ne.symm hsame] using hemptied
      simpa [apply, hsame] using h.settled other hother hbefore
  | committed => exact h.commit id
  | closed => exact h.close id
  | keysDeleted => exact ⟨h.rows, h.settled, fun _ => ⟨rfl, rfl, rfl⟩⟩

/-! ## 4. Whole runs -/

structure Inv (server : Server) : Prop where
  tracked : Tracked Held.after Released Held.start Holds server
  clean : Clean server.shared

/-- What the pending command of a call creates. -/
def pendingCreation (server : Server) (id : Nat) : Option Owned :=
  match server.calls id with
  | some (.await command _) => creates command
  | _ => none

/-- The step creates nothing that a deletion has emptied. -/
def InTime (server : Server) : Action → Prop
  | .resume id => ∀ owned ∈ pendingCreation server id, ¬ Emptied server.shared owned
  | _ => True

instance (server : Server) : (action : Action) → Decidable (InTime server action)
  | .resume id => inferInstanceAs
      (Decidable (∀ owned ∈ pendingCreation server id, ¬ Emptied server.shared owned))
  | .call _ _ | .expire | .change _ => isTrue trivial

section Runs

variable {groupId : String} {toLowerCase : String → String} {server next final : Server}
  {actions : List Action} {store : Store}

theorem Inv.step {action : Action} (h : Inv server) (hintime : InTime server action)
    (hstep : step groupId toLowerCase server action = some next) : Inv next := by
  cases action with
  | call id request =>
    refine ⟨tracked_call h.tracked (program_released groupId request) hstep, ?_⟩
    obtain ⟨_, rfl⟩ := call_eq_some hstep
    exact h.clean
  | resume id =>
    constructor
    · refine tracked_resume h.tracked ?_ ?_ hstep
      · intro _ _ _ _ _ hholds hexecute
        exact hholds.own (execute_effect hexecute)
      · intro _ _ _ _ _ _ hne hholds hexecute
        exact hholds.other hne (execute_effect hexecute)
    · obtain ⟨command, rest, shared, reply, hcall, hexecute, rfl⟩ := resume_eq_some hstep
      apply h.clean.step (execute_effect hexecute)
      intro owned hcreates
      apply hintime owned
      simp [pendingCreation, hcall, hcreates]
  | expire =>
    cases hstep
    constructor
    · apply tracked_shared h.tracked
      intro id held hholds
      refine ⟨?_, hholds.deleting, hholds.deleted, hholds.keysDeleted⟩
      intro lock hlock
      cases hlock
    · exact ⟨h.clean.rows, h.clean.settled, h.clean.keys⟩
  | change outside =>
    cases hstep
    constructor
    · apply tracked_shared h.tracked
      intro id held hholds
      exact ⟨hholds.lock, hholds.deleting, hholds.deleted, hholds.keysDeleted⟩
    · exact ⟨h.clean.rows, h.clean.settled, h.clean.keys⟩

/-- A group before any of the calls. -/
structure Quiet (store : Store) : Prop where
  pending : store.pending = []
  commitLock : store.keys.commitLock = none
  purged : store.purged = []
  keysPurged : store.keysPurged = false

theorem inv_start (h : Quiet store) : Inv (.start store) := by
  constructor
  · constructor
    · intro id _
      refine ⟨?_, nofun, nofun, nofun⟩
      intro lock hlock
      cases h.commitLock.symm.trans hlock
    · intro id program hcall
      cases hcall
  · have hnone : ∀ table, ¬ Emptied store (.rows table) := by
      intro table
      simp [Emptied, emptying, h.purged, h.pending]
    refine ⟨?_, ?_, ?_⟩
    · intro table _ hpurged
      exact absurd (.inl hpurged) (hnone table)
    · intro table _ hemptied
      exact absurd hemptied (hnone table)
    · intro hpurged
      cases h.keysPurged.symm.trans hpurged

def AllEnded (server : Server) : Prop :=
  ∀ id program, server.calls id = some program → program.Ended

/-- Once all calls have ended none of them holds the commit lock. -/
theorem Inv.unlocked (h : Inv server) (hended : AllEnded server) :
    server.shared.keys.commitLock = none := by
  cases hlock : server.shared.keys.commitLock with
  | none => rfl
  | some lock =>
    have hfree : ∃ held, Holds server.shared lock.owner held ∧ held.lock = none := by
      cases hcall : server.calls lock.owner with
      | none => exact ⟨.start, h.tracked.idle _ hcall, rfl⟩
      | some program =>
        obtain ⟨held, outcome, hreleased, hholds⟩ := h.tracked.ended hcall (hended _ program hcall)
        exact ⟨held, hholds, hreleased.1⟩
    obtain ⟨held, hholds, hnone⟩ := hfree
    cases hnone.symm.trans (hholds.lock lock hlock rfl)

/-- The group owns no row but queued messages and dismissals, and no key. -/
structure OwnsNothing (store : Store) : Prop where
  members : store.tables .members = []
  deviceMemberships : store.tables .deviceMemberships = []
  commitLog : store.tables .commitLog = []
  groupInfo : store.tables .groupInfo = []
  invites : store.tables .invites = []
  keys : store.keys = ⟨[], [], [], none⟩

/-- **A group deleted in time owns nothing.**  In every interleaving in which no call creates
    a row of a table after the deletion's `DELETE` on it, nor a key after its `DEL`, the group
    has no membership, commit-log, group-info or invite row and no key left, once all the
    calls have ended and a deletion is among them. -/
theorem deleted_group_owns_nothing (group : GroupRow) (tables : Tables)
    (history : List HistoryEntry) (members pendingWelcome : List String) (outside : Outside)
    (hrun : run (step groupId toLowerCase)
      (.start (.start group tables history members pendingWelcome outside)) actions = some final)
    (hintime : EachStep (step groupId toLowerCase) InTime
      (.start (.start group tables history members pendingWelcome outside)) actions)
    (hended : AllEnded final) (hdeleted : ∃ id, final.calls id = some (.done .deleted)) :
    OwnsNothing final.shared := by
  have hinv : Inv final :=
    run_invariant (fun h hok hstep => Inv.step h hok hstep)
      (inv_start ⟨rfl, rfl, rfl, rfl⟩) hintime hrun
  obtain ⟨id, hdone⟩ := hdeleted
  obtain ⟨held, hreleased, hholds⟩ := hinv.tracked.running id _ hdone
  obtain ⟨hpurged, hkeysDeleted⟩ := hreleased.2 rfl
  have hempty : ∀ table ∈ ownedTables true, table ≠ .queuedMessages →
      final.shared.tables table = [] := by
    intro table htable hqueue
    exact hinv.clean.rows table hqueue (hholds.deleted table (hpurged table htable))
  have hcommitLock := hinv.unlocked hended
  obtain ⟨hhistory, hmembers, hpendingWelcome⟩ := hinv.clean.keys (hholds.keysDeleted hkeysDeleted)
  refine ⟨hempty _ (by decide) (by decide), hempty _ (by decide) (by decide),
    hempty _ (by decide) (by decide), hempty _ (by decide) (by decide),
    hempty _ (by decide) (by decide), ?_⟩
  cases hkeys : final.shared.keys with
  | mk history members pendingWelcome commitLock =>
    simp_all

/-! ## 5. Runs that leave something -/

def called (actions : List Action) : List Nat :=
  actions.filterMap fun action =>
    match action with
    | .call id _ => some id
    | _ => none

def answer? (server : Server) (id : Nat) : Option Answer :=
  match server.calls id with
  | some (.done answer) => some answer
  | _ => none

theorem calls_of_answer? {id : Nat} {answer : Answer} (h : answer? server id = some answer) :
    server.calls id = some (.done answer) := by
  unfold answer? at h
  split at h
  next hcall =>
    cases h
    exact hcall
  · cases h

/-- A call that is not made in the run is not there at its end. -/
theorem calls_eq_none {id : Nat} (hid : id ∉ called actions)
    (hrun : run (step groupId toLowerCase) (.start store) actions = some final) :
    final.calls id = none := by
  have hothers : ∀ action ∈ actions, ∀ request, action ≠ .call id request := by
    rintro action haction request rfl
    exact hid (mem_filterMap.mpr ⟨_, haction, rfl⟩)
  have hstep : ∀ {server : Server} {action : Action} {next : Server},
      server.calls id = none → (∀ request, action ≠ .call id request) →
      step groupId toLowerCase server action = some next → next.calls id = none := by
    intro server action next hnone hother hstep
    cases action with
    | call other request =>
      obtain ⟨_, rfl⟩ := call_eq_some hstep
      have hne : id ≠ other := by
        rintro rfl
        exact hother request rfl
      simpa [hne] using hnone
    | resume other =>
      obtain ⟨command, rest, shared, reply, hcall, _, rfl⟩ := resume_eq_some hstep
      have hne : id ≠ other := by
        rintro rfl
        cases hnone.symm.trans hcall
      simpa [hne] using hnone
    | expire | change outside =>
      cases hstep
      exact hnone
  exact run_invariant hstep rfl (eachStep_of_forall_mem hothers _) hrun

theorem allEnded_of_called
    (hrun : run (step groupId toLowerCase) (.start store) actions = some final)
    (h : ∀ id ∈ called actions, (answer? final id).isSome) : AllEnded final := by
  intro id program hcall
  by_cases hid : id ∈ called actions
  · obtain ⟨answer, hanswer⟩ := Option.isSome_iff_exists.mp (h id hid)
    cases hcall.symm.trans (calls_of_answer? hanswer)
    trivial
  · cases (calls_eq_none hid hrun).symm.trans hcall

structure Residue where
  deletedAt : Bool
  members : List String
  deviceMemberships : List DeviceGroupMembership
  commitLog : List CommitLogRow
  groupInfo : List MlsGroupInfo
  keys : Keys
deriving DecidableEq, Repr

def residue (store : Store) : Residue :=
  ⟨store.group.deletedAt, store.tables .members, store.tables .deviceMemberships,
    store.tables .commitLog, store.tables .groupInfo, store.keys⟩

/-- A run evaluated to its end: all its calls have answered and the call `0` was a deletion. -/
theorem exists_of_evaluated {left : Residue}
    (h : (run (step groupId toLowerCase) (.start store) actions).map (fun final =>
      ((called actions).all fun id => (answer? final id).isSome, answer? final 0,
        residue final.shared)) = some (true, some .deleted, left)) :
    ∃ final, run (step groupId toLowerCase) (.start store) actions = some final ∧
      AllEnded final ∧ final.calls 0 = some (.done .deleted) ∧ residue final.shared = left := by
  obtain ⟨final, hrun, hfinal⟩ := Option.map_eq_some_iff.mp h
  simp only [Prod.mk.injEq, all_eq_true] at hfinal
  obtain ⟨hended, hdeleted, hleft⟩ := hfinal
  exact ⟨final, hrun, allEnded_of_called hrun hended, calls_of_answer? hdeleted, hleft⟩

end Runs

/-- A group of two members at epoch 4. -/
def salon : Store :=
  .start ⟨4, false⟩ (fun
      | .members => ["ada", "bob"]
      | .deviceMemberships => [⟨⟨"ada", "phone"⟩, .active⟩, ⟨⟨"bob", "tablet"⟩, .active⟩]
      | .commitLog => [⟨3, "c3", "phone"⟩]
      | .groupInfo => [⟨"base4", 4⟩]
      | _ => [])
    [] ["ada:phone", "bob:tablet"] []
    ⟨[⟨"ada", "phone"⟩, ⟨"bob", "tablet"⟩, ⟨"cyd", "laptop"⟩], [], ["cyd:laptop"]⟩

/-- The whole of `deleteGroup`, as the call `0`. -/
def deletion : List Action := .call 0 .deleteGroup :: replicate 9 (.resume 0)

/-- The call `1`, with the deletion after `before` of its commands. -/
def deletedAfter (before : Nat) (request : Request) (rest : Nat) : List Action :=
  .call 1 request :: replicate before (.resume 1) ++ deletion ++ replicate rest (.resume 1)

def welcomeCyd : Request :=
  .sendWelcome (some "ada") ⟨some "laptop", some "cyd", some "ada", "welcome", none⟩

def commitAda : Request :=
  .validateCommit ⟨none, some "phone", some 4, some "c4", some "ada", some "base5"⟩ []

def helloAda : Request :=
  .sendMessage ⟨some "hello", [], some "ada", some "phone", false, false, [], false, none, none,
    none⟩ (some "ada")

/-- The Welcome writes its membership row between two statements of the deletion, before the
    one that deletes it, and its routing entry before the `DEL`. -/
def interleaved : List Action :=
  .call 1 welcomeCyd :: replicate 5 (.resume 1) ++
    .call 0 .deleteGroup :: replicate 3 (.resume 0) ++ replicate 3 (.resume 1) ++
    replicate 5 (.resume 0) ++ [.resume 1, .resume 0]

theorem deleted_group_owns_nothing_interleaved :
    ∃ final, run (step "salon" id) (.start salon) interleaved = some final ∧
      final.calls 1 = some (.done .welcomeQueued) ∧ OwnsNothing final.shared := by
  have hends : ∃ final ∈ run (step "salon" id) (.start salon) interleaved,
      answer? final 0 = some .deleted ∧ answer? final 1 = some .welcomeQueued := by
    decide
  obtain ⟨final, hrun, hdeleted, hqueued⟩ := hends
  have hended : AllEnded final := by
    apply allEnded_of_called hrun
    have hcalled : called interleaved = [1, 0] := by decide
    simp [hcalled, hdeleted, hqueued]
  refine ⟨final, hrun, calls_of_answer? hqueued, ?_⟩
  exact deleted_group_owns_nothing _ _ _ _ _ _ hrun (by decide) hended
    ⟨0, calls_of_answer? hdeleted⟩

/-- Each of the four calls can leave something behind: a Welcome queued before the deletion
    writes its membership row and its routing entry after it; a commit that read the group
    before the deletion records itself and its base after it, and brings its device back; a
    base whose row was looked up late is inserted; a message queued before is appended to the
    history after. -/
theorem residue_after_deletion :
    (∃ final, run (step "salon" id) (.start salon) (deletedAfter 5 welcomeCyd 4) = some final ∧
      AllEnded final ∧ final.calls 0 = some (.done .deleted) ∧
      residue final.shared =
        ⟨true, [], [⟨⟨"cyd", "laptop"⟩, .pending⟩], [], [], ⟨[], ["cyd:laptop"], [], none⟩⟩) ∧
    (∃ final, run (step "salon" id) (.start salon) (deletedAfter 2 commitAda 15) = some final ∧
      AllEnded final ∧ final.calls 0 = some (.done .deleted) ∧
      residue final.shared =
        ⟨true, [], [⟨⟨"ada", "phone"⟩, .active⟩], [⟨4, "c4", "phone"⟩], [⟨"base5", 5⟩],
          ⟨[], ["ada:phone"], [], none⟩⟩) ∧
    (∃ final, run (step "salon" id) (.start salon)
        (deletedAfter 0 (.putGroupInfo "base5" 5) 2) = some final ∧
      AllEnded final ∧ final.calls 0 = some (.done .deleted) ∧
      residue final.shared = ⟨true, [], [], [], [⟨"base5", 5⟩], ⟨[], [], [], none⟩⟩) ∧
    (∃ final, run (step "salon" id) (.start salon) (deletedAfter 8 helloAda 1) = some final ∧
      AllEnded final ∧ final.calls 0 = some (.done .deleted) ∧
      residue final.shared =
        ⟨true, [], [], [], [], ⟨[⟨"ada", "phone", "hello", false⟩], [], [], none⟩⟩) := by
  refine ⟨?_, ?_, ?_, ?_⟩
  all_goals exact exists_of_evaluated (by decide)

end MinesApp.GroupResidue
