import MinesApp.Salon

/-!
# A departure from a private salon is final

The removal of a user deletes the user's routing rows and then takes the user off the list.
Both can be undone by a call that was under way: an operation that read the row before writes
the old list back, a send that resolved its recipients before queues a row for the device that
left, and a commit of that device makes its membership active again.

Where the row has not changed since the operation that saves it read it, where a send still
finds the devices it resolved, and where only the devices of people on the list become active,
and not while a removal of theirs runs, nothing of a departed user comes back.
-/

namespace MinesApp.Salon

open TransitionSystem UniqueTable List Table Option Operation

variable {User : Type} [DecidableEq User] (normalize : User → User)

/-! ## 1. The condition -/

/-- The operation may take the user out, whatever it reads. -/
def Operation.mayRemove (user : User) : Operation User → Bool
  | .leaveChannel userId => userId = user
  | .removeMemberFromChannel targetUserId => targetUserId = user
  | .cutOffEveryPrivateChannel userId => userId = user
  | .updateChannelAccess allowedUserIds => normalize user ∉ allowedUserIds.map normalize
  | _ => false

def Job.mayRemove (user : User) : Job User → Bool
  | .performing operation _ => operation.mayRemove normalize user
  | _ => false

/-- The names that the operation takes off the list. -/
def Operation.takesOff (read : List User) : Operation User → List User
  | .leaveChannel userId => [normalize userId]
  | .removeMemberFromChannel targetUserId => [normalize targetUserId]
  | .cutOffEveryPrivateChannel userId =>
    if normalize userId ∈ read then [normalize userId] else []
  | .updateChannelAccess allowedUserIds => read.filter (· ∉ allowedUserIds.map normalize)
  | _ => []

/-- The names that a removal which has saved the row and not returned yet took off the list. -/
def Job.returning : Job User → List User
  | .performing operation (.announcing read) => operation.takesOff normalize read
  | _ => []

/-- The user has an active device. -/
def State.routes (state : State User) (user : User) : Prop :=
  ∃ row ∈ state.memberships.rows, row.userId = user ∧ row.active = true

/-- The row that an operation saves is as it read it, and no removal that is about to return is
    undone.  The devices that a send resolved are still active when it queues their rows.  A
    device becomes active for somebody on the list, under the name on the list, while no
    operation that may take them out runs. -/
def Job.orderly (state : State User) : Job User → Prop
  | .performing operation (.saving read _) =>
    state.allowedUsers = read ∧ ∀ other ∈ state.calls.rows, ∀ name ∈ other.job.returning normalize,
        name ∉ operation.grants normalize
  | .enqueueing targets => ∀ target ∈ targets, state.routes target.recipientId
  | .upserting path userId _ _ => path.activates = true →
      normalize userId = userId ∧ userId ∈ state.allowedUsers ∧
        ∀ other ∈ state.calls.rows, other.job.mayRemove normalize userId = false
  | .redelivering userId _ => state.routes userId
  | _ => True

def orderly (state : State User) : Action User → Prop
  | .resume call _ =>
    ∀ running ∈ state.calls.rows, running.id = call → running.job.orderly normalize state
  | _ => True

instance (state : State User) (user : User) : Decidable (state.routes user) :=
  inferInstanceAs (Decidable (∃ row ∈ state.memberships.rows, _))

instance (state : State User) : ∀ job : Job User, Decidable (job.orderly normalize state)
  | .performing _ (.saving _ _) => inferInstanceAs (Decidable (_ ∧ _))
  | .performing _ .opened => .isTrue trivial
  | .performing _ (.checking _) => .isTrue trivial
  | .performing _ (.evicting _ _ _) => .isTrue trivial
  | .performing _ (.evictingQueued _ _ _) => .isTrue trivial
  | .performing _ (.evictingRoutes _ _ _) => .isTrue trivial
  | .performing _ (.announcing _) => .isTrue trivial
  | .sending => .isTrue trivial
  | .enqueueing targets => inferInstanceAs (Decidable (∀ target ∈ targets, _))
  | .opening _ _ _ => .isTrue trivial
  | .looking _ _ _ => .isTrue trivial
  | .upserting _ _ _ _ => inferInstanceAs (Decidable (_ → _))
  | .redelivering userId _ => inferInstanceAs (Decidable (state.routes userId))

instance (state : State User) : ∀ action : Action User, Decidable (orderly normalize state action)
  | .resume _ _ => inferInstanceAs (Decidable (∀ running ∈ state.calls.rows, _))
  | .start _ => .isTrue trivial
  | .acknowledge _ _ => .isTrue trivial
  | .forget _ => .isTrue trivial

/-! ## 2. The invariant -/

section

variable (state : State User) (user : User)

/-- No device of the user is active. -/
def State.unrouted : Prop :=
  ∀ row ∈ state.memberships, row.userId = user → row.active = false

/-- Nothing of the user is left in the delivery service. -/
def State.gone : Prop :=
  state.unrouted user ∧ ∀ message ∈ state.queued, message.recipientId ≠ user

/-- The user is off the list, or an operation that runs cuts the user off. -/
def State.cutOff : Prop :=
  normalize user ∉ state.allowedUsers ∨
    ∃ call ∈ state.calls, ∃ operation stage read, call.job = .performing operation stage ∧
      user ∈ operation.cutsOff normalize read

end

/-- What a call that runs has achieved. -/
def Job.Sound (state : State User) : Job User → Prop
  | .performing operation (.evicting read user rest) =>
    ∀ other ∈ operation.cutsOff normalize read, other ∈ user :: rest ∨ state.gone other
  | .performing operation (.evictingQueued read user rest) =>
    (∀ other ∈ operation.cutsOff normalize read, other ∈ user :: rest ∨ state.gone other) ∧
      (user ∈ operation.cutsOff normalize read → state.unrouted user)
  | .performing operation (.evictingRoutes read _ rest) =>
    ∀ other ∈ operation.cutsOff normalize read, other ∈ rest ∨ state.gone other
  | .performing operation (.saving read list) =>
    operation.saves normalize read = some list ∧
      ∀ other ∈ operation.cutsOff normalize read, state.gone other
  | .performing operation (.announcing read) =>
    (∀ user, operation.removes normalize read user = true → normalize user ∉ state.allowedUsers) ∧
      ∀ other ∈ operation.cutsOff normalize read, state.gone other
  | _ => True

structure Sound (state : State User) : Prop where
  active : ∀ row ∈ state.memberships, row.active = true → normalize row.userId = row.userId
  queued : ∀ message ∈ state.queued, normalize message.recipientId = message.recipientId
  calls : ∀ call ∈ state.calls, call.job.Sound normalize state
  departed : ∀ {user inFlight}, state.departed user = some inFlight →
    normalize user ∉ state.allowedUsers ∧ state.gone user

variable {normalize}

/-! ## 3. What the operations do to the list -/

variable {operation : Operation User} {read list : List User} {user : User}
  {state next : State User} {job : Job User}

section

variable (h : operation.removes normalize read user = true)
include h

theorem Operation.cutsOff_of_removes : user ∈ operation.cutsOff normalize read ∨
      normalize user ∈ operation.cutsOff normalize read := by
  cases operation with
  | leaveChannel userId | removeMemberFromChannel userId =>
    exact .inl (by simpa [removes, cutsOff, eq_comm] using h)
  | cutOffEveryPrivateChannel userId =>
    obtain ⟨rfl, hheld⟩ : userId = user ∧ normalize userId ∈ read := by simpa [removes] using h
    exact .inl (by simp [cutsOff, hheld])
  | updateChannelAccess allowedUserIds => exact .inr (by simpa [removes, cutsOff] using h)
  | joinPrivateChannelAsAdmin userId | inviteToChannel userId | renameChannel => cases h

theorem Operation.takesOff_of_removes : normalize user ∈ operation.takesOff normalize read := by
  cases operation with
  | leaveChannel userId | removeMemberFromChannel userId =>
    obtain rfl : userId = user := by simpa [removes] using h
    exact mem_singleton_self _
  | cutOffEveryPrivateChannel userId =>
    obtain ⟨rfl, hheld⟩ : userId = user ∧ normalize userId ∈ read := by simpa [removes] using h
    simp [takesOff, hheld]
  | updateChannelAccess allowedUserIds => simpa [removes, takesOff] using h
  | joinPrivateChannelAsAdmin userId | inviteToChannel userId | renameChannel => cases h

end

/-- A saved list has no name but those that were read and those that the operation grants. -/
theorem Operation.mem_saves {name : User} (h : operation.saves normalize read = some list)
    (hname : name ∈ list) : name ∈ read ∨ name ∈ operation.grants normalize := by
  cases operation with
  | leaveChannel userId | removeMemberFromChannel userId =>
    cases h
    exact .inl (mem_of_mem_filter hname)
  | cutOffEveryPrivateChannel userId =>
    obtain ⟨_, hlist⟩ := ite_none_right_eq_some.mp h
    cases hlist
    exact .inl (mem_of_mem_filter hname)
  | updateChannelAccess allowedUserIds =>
    cases h
    exact .inr hname
  | joinPrivateChannelAsAdmin userId | inviteToChannel userId =>
    obtain ⟨_, hlist⟩ := ite_none_left_eq_some.mp h
    cases hlist
    exact mem_append.mp hname
  | renameChannel =>
    cases h
    exact .inl hname

theorem Operation.takesOff_not_mem_saves
    {name : User} (h : operation.saves normalize read = some list)
    (hname : name ∈ operation.takesOff normalize read) : name ∉ list := by
  cases operation with
  | leaveChannel userId | removeMemberFromChannel userId =>
    cases h
    simpa [takesOff] using fun _ => mem_singleton.mp hname
  | cutOffEveryPrivateChannel userId =>
    obtain ⟨hheld, hlist⟩ := ite_none_right_eq_some.mp h
    cases hlist
    simp only [takesOff, if_pos hheld] at hname
    simpa using fun _ => mem_singleton.mp hname
  | updateChannelAccess allowedUserIds =>
    cases h
    simpa using (mem_filter.mp hname).2
  | joinPrivateChannelAsAdmin userId | inviteToChannel userId | renameChannel => cases hname

theorem Operation.removes_eq_false (h : operation.saves normalize read = none) (user : User) :
    operation.removes normalize read user = false := by
  cases operation with
  | cutOffEveryPrivateChannel userId =>
    have hheld : normalize userId ∉ read := by
      intro hmem
      simp [saves, hmem] at h
    simp [removes, hheld]
  | leaveChannel userId | removeMemberFromChannel userId | updateChannelAccess allowedUserIds =>
    cases h
  | joinPrivateChannelAsAdmin userId | inviteToChannel userId | renameChannel => rfl

theorem Operation.mayRemove_of_cutsOff (hname : normalize user = user)
    (h : user ∈ operation.cutsOff normalize read) : operation.mayRemove normalize user = true := by
  cases operation with
  | leaveChannel userId | removeMemberFromChannel userId =>
    simpa [mayRemove, eq_comm] using mem_singleton.mp h
  | cutOffEveryPrivateChannel userId =>
    simp only [cutsOff] at h
    split at h
    · simpa [mayRemove, eq_comm] using mem_singleton.mp h
    · cases h
  | updateChannelAccess allowedUserIds =>
    simpa [mayRemove, hname] using (mem_filter.mp h).2
  | joinPrivateChannelAsAdmin userId | inviteToChannel userId | renameChannel => cases h

/-! ## 4. What a step keeps -/

theorem Sound.initial (allowedUsers : List User) : Sound normalize (.initial allowedUsers) where
  active := fun row hrow => absurd hrow (not_mem_empty row)
  queued := fun _ hmessage => absurd hmessage not_mem_nil
  calls := fun call hcall => absurd hcall (not_mem_empty call)
  departed := nofun

/-- A call that runs keeps what it has achieved while nobody whom it cut off comes back. -/
theorem Job.Sound.mono (h : job.Sound normalize state)
    (hunrouted : ∀ {operation stage read user}, job = .performing operation stage →
      user ∈ operation.cutsOff normalize read → state.unrouted user → next.unrouted user)
    (hgone : ∀ {operation stage read user}, job = .performing operation stage →
      user ∈ operation.cutsOff normalize read → state.gone user → next.gone user)
    (hlist : ∀ name ∈ job.returning normalize, name ∉ state.allowedUsers →
      name ∉ next.allowedUsers) : job.Sound normalize next := by
  cases job with
  | performing operation stage =>
    cases stage with
    | evicting read user rest | evictingRoutes read user rest =>
      exact fun other hother => (h other hother).imp_right (hgone rfl hother)
    | evictingQueued read user rest =>
      exact ⟨fun other hother => (h.1 other hother).imp_right (hgone rfl hother),
        fun huser => hunrouted rfl huser (h.2 huser)⟩
    | saving read list => exact ⟨h.1, fun other hother => hgone rfl hother (h.2 other hother)⟩
    | announcing read =>
      exact ⟨fun user huser => hlist _ (takesOff_of_removes huser) (h.1 user huser),
        fun other hother => hgone rfl hother (h.2 other hother)⟩
    | opened | checking read => trivial
  | _ => trivial

section

variable (h : Sound normalize state)
include h

theorem Sound.goOn (call : Nat)
    (hjob : job.Sound normalize state) : Sound normalize (state.goOn call job) where
  active := h.active
  queued := h.queued
  calls := fun other hother => by
    rcases mem_put.mp hother with ⟨hold, _⟩ | rfl
    · exact h.calls other hold
    · exact hjob
  departed := h.departed

theorem Sound.finish (call : Nat) : Sound normalize (state.finish call) where
  active := h.active
  queued := h.queued
  calls := fun other hother => h.calls other (mem_remove.mp hother).1
  departed := h.departed

/-- The rest of an operation that has cut off everybody but `rest`. -/
theorem Sound.proceed (call : Nat) {rest : List User}
    (hcut : ∀ other ∈ operation.cutsOff normalize read, other ∈ rest ∨ state.gone other) :
    Sound normalize (state.goOn call
      (.performing operation (operation.proceed normalize read rest))) := by
  refine h.goOn call ?_
  cases rest with
  | cons user rest => exact hcut
  | nil =>
    have hgone : ∀ other ∈ operation.cutsOff normalize read, state.gone other :=
      fun other hother => (hcut other hother).resolve_left not_mem_nil
    simp only [Operation.proceed]
    split
    next list hsaves => exact ⟨hsaves, hgone⟩
    next hsaves =>
      refine ⟨fun user huser => ?_, hgone⟩
      rw [removes_eq_false hsaves user] at huser
      cases huser

section

variable (hsame : next.allowedUsers = state.allowedUsers ∧ next.calls = state.calls ∧
  next.departed = state.departed)
include hsame

/-- A write in the delivery service after which nobody who was cut off is back. -/
theorem Sound.deliver
    (hactive : ∀ row ∈ next.memberships, row.active = true → normalize row.userId = row.userId)
    (hqueued : ∀ message ∈ next.queued, normalize message.recipientId = message.recipientId)
    (hunrouted : ∀ {user}, state.cutOff normalize user → state.unrouted user → next.unrouted user)
    (hempty : ∀ {user}, state.gone user → ∀ message ∈ next.queued, message.recipientId ≠ user) :
    Sound normalize next where
  active := hactive
  queued := hqueued
  calls := fun call hcall => by
    rw [hsame.2.1] at hcall
    have hcut : ∀ {operation stage read user}, call.job = .performing operation stage →
        user ∈ operation.cutsOff normalize read → state.cutOff normalize user :=
      fun hjob huser => .inr ⟨call, hcall, _, _, _, hjob, huser⟩
    refine (h.calls call hcall).mono (fun hjob huser => hunrouted (hcut hjob huser))
      (fun hjob huser hgone => ⟨hunrouted (hcut hjob huser) hgone.1, hempty hgone⟩) ?_
    rw [hsame.1]
    exact fun _ _ hname => hname
  departed := fun {user inFlight} hdeparted => by
    rw [hsame.2.2] at hdeparted
    obtain ⟨hlist, hgone⟩ := h.departed hdeparted
    rw [hsame.1]
    exact ⟨hlist, hunrouted (.inl hlist) hgone.1, hempty hgone⟩

theorem Sound.shrink (hmemberships : ∀ row ∈ next.memberships, row ∈ state.memberships)
    (hqueued : ∀ message ∈ next.queued, message ∈ state.queued) : Sound normalize next :=
  h.deliver hsame (fun row hrow => h.active row (hmemberships row hrow))
    (fun message hmessage => h.queued message (hqueued message hmessage))
    (fun _ hunrouted row hrow => hunrouted row (hmemberships row hrow))
    fun hgone message hmessage => hgone.2 message (hqueued message hmessage)

end

theorem Sound.enqueue {messages : List (QueuedMessage User)}
    (hroutes : ∀ message ∈ messages, state.routes message.recipientId) :
    Sound normalize (state.enqueue messages) := by
  refine h.deliver ⟨rfl, rfl, rfl⟩ h.active (fun message hmessage => ?_)
    (fun _ hunrouted => hunrouted) fun hgone message hmessage => ?_
  · rcases mem_append.mp hmessage with hold | hnew
    · exact h.queued message hold
    · obtain ⟨row, hrow, hrecipient, hactive⟩ := hroutes message hnew
      rw [← hrecipient]
      exact h.active row hrow hactive
  · rcases mem_append.mp hmessage with hold | hnew
    · exact hgone.2 message hold
    · -- whoever is gone has no active device, so that the send does not resolve one
      obtain ⟨row, hrow, hrecipient, hactive⟩ := hroutes message hnew
      intro huser
      cases hactive.symm.trans (hgone.1 row hrow (hrecipient.trans huser))

theorem Sound.put (userId : User) (deviceId : Nat) {active : Bool}
    (hok : active = true → normalize userId = userId ∧ userId ∈ state.allowedUsers ∧
      ∀ other ∈ state.calls.rows, other.job.mayRemove normalize userId = false) :
    Sound normalize { state with
      memberships := state.memberships.put ⟨userId, deviceId, active⟩ } := by
  refine h.deliver ⟨rfl, rfl, rfl⟩ (fun row hrow hactive => ?_) h.queued
    (fun hcut hunrouted row hrow huser => ?_) fun hgone => hgone.2
  · rcases mem_put.mp hrow with ⟨hold, _⟩ | rfl
    · exact h.active row hold hactive
    · exact (hok hactive).1
  · rcases mem_put.mp hrow with ⟨hold, _⟩ | rfl
    · exact hunrouted row hold huser
    · cases hactive : active with
      | false => rfl
      | true =>
        obtain ⟨hname, hlisted, hfree⟩ := hok hactive
        cases huser
        rcases hcut with hunlisted | ⟨call, hcall, operation, stage, read, hjob, hcut⟩
        · exact absurd (hname.symm ▸ hlisted) hunlisted
        · have hremoves := hfree call hcall
          rw [hjob, Job.mayRemove, mayRemove_of_cutsOff hname hcut] at hremoves
          cases hremoves

theorem Sound.gone_of_normalize (hgone : state.gone (normalize user)) : state.gone user := by
  refine ⟨fun row hrow huser => ?_, fun message hmessage huser => ?_⟩
  · cases hactive : row.active with
    | false => rfl
    | true =>
      have hname := h.active row hrow hactive
      rw [huser] at hname
      exact hactive.symm.trans (hgone.1 row hrow (huser.trans hname.symm))
  · have hname := h.queued message hmessage
    rw [huser] at hname
    exact hgone.2 message hmessage (huser.trans hname.symm)

theorem Sound.succeed (call : Nat) (hlist : ∀ user, operation.removes normalize read user = true →
      normalize user ∉ state.allowedUsers)
    (hcut : ∀ other ∈ operation.cutsOff normalize read, state.gone other) :
    Sound normalize (state.succeed normalize call operation read) where
  active := h.active
  queued := h.queued
  calls := (h.finish call).calls
  departed := fun {user inFlight} hdeparted => by
    simp only [State.succeed] at hdeparted
    split at hdeparted
    next hremoves =>
      refine ⟨hlist user hremoves, ?_⟩
      rcases cutsOff_of_removes hremoves with hself | hname
      · exact hcut user hself
      · exact h.gone_of_normalize (hcut _ hname)
    · exact h.departed hdeparted

theorem Sound.save (hsaves : operation.saves normalize state.allowedUsers = some list)
    (hreturning : ∀ other ∈ state.calls.rows, ∀ name ∈ other.job.returning normalize,
      name ∉ operation.grants normalize) :
    Sound normalize (state.save normalize operation list) where
  active := h.active
  queued := h.queued
  calls := fun call hcall => by
    refine (h.calls call hcall).mono (fun _ _ hunrouted => hunrouted) (fun _ _ hgone => hgone)
      fun name hname hunlisted hlisted => ?_
    rcases mem_saves hsaves hlisted with hread | hgranted
    · exact hunlisted hread
    · exact hreturning call hcall name hname hgranted
  departed := fun {user inFlight} hdeparted => by
    simp only [State.save] at hdeparted
    split at hdeparted
    · cases hdeparted
    next hungranted =>
      obtain ⟨hunlisted, hgone⟩ := h.departed hdeparted
      refine ⟨fun hlisted => ?_, hgone⟩
      exact (mem_saves hsaves hlisted).elim hunlisted hungranted

theorem Sound.operate {call : Nat} {stage : OperationStage User}
    (hjob : (Job.performing operation stage).Sound normalize state)
    (hok : (Job.performing operation stage).orderly normalize state) (ok : Bool) :
    Sound normalize (state.operate normalize call operation ok stage) := by
  cases ok with
  | false => cases stage <;> exact h.finish call
  | true =>
    cases stage with
    | opened => exact h.goOn call trivial
    | checking read => exact h.proceed call fun other hother => .inl hother
    | evicting read user rest =>
      have hevicted : Sound normalize { state with
          memberships := state.memberships.filter (·.userId ≠ user) } :=
        h.shrink ⟨rfl, rfl, rfl⟩ (fun row hrow => (Table.mem_filter.mp hrow).1)
          fun _ hmessage => hmessage
      refine hevicted.goOn call ⟨fun other hother => (hjob other hother).imp_right ?_, ?_⟩
      · exact fun hgone => ⟨fun row hrow => hgone.1 row (Table.mem_filter.mp hrow).1, hgone.2⟩
      · intro _ row hrow huser
        have hother : row.userId ≠ user := by simpa using (Table.mem_filter.mp hrow).2
        exact absurd huser hother
    | evictingQueued read user rest =>
      have hevicted : Sound normalize { state with
          queued := state.queued.filter (·.recipientId ≠ user) } :=
        h.shrink ⟨rfl, rfl, rfl⟩ (fun _ hrow => hrow) fun _ hmessage => mem_of_mem_filter hmessage
      refine hevicted.goOn call fun other hother => ?_
      rcases hjob.1 other hother with hmem | hgone
      · rcases mem_cons.mp hmem with rfl | hrest
        · exact .inr ⟨hjob.2 hother, fun message hmessage => by
            simpa using (mem_filter.mp hmessage).2⟩
        · exact .inl hrest
      · exact .inr ⟨hgone.1, fun message hmessage =>
          hgone.2 message (mem_of_mem_filter hmessage)⟩
    | evictingRoutes read user rest => exact h.proceed call hjob
    | saving read list =>
      obtain ⟨hread, hreturning⟩ := hok
      obtain ⟨hsaves, hgone⟩ := hjob
      subst hread
      have hsaved := h.save hsaves hreturning
      have hlist : ∀ user, operation.removes normalize state.allowedUsers user = true →
          normalize user ∉ list := fun user huser =>
        takesOff_not_mem_saves hsaves (takesOff_of_removes huser)
      simp only [State.operate, if_true]
      split
      · exact hsaved.goOn call ⟨hlist, hgone⟩
      · exact hsaved.succeed call hlist hgone
    | announcing read => exact h.succeed call hjob.1 hjob.2

theorem Sound.afterActivation (call : Nat)
    (path : Path) : Sound normalize (state.afterActivation call path) := by
  cases path with
  | commit => exact h.goOn call trivial
  | groupInfo | push | status active => exact h.finish call

theorem Sound.look (call : Nat) (userId : User) (deviceId : Nat) (ok : Bool) (path : Path) :
    Sound normalize (state.look call userId deviceId ok path) := by
  unfold State.look
  dsimp only
  split
  · split
    all_goals exact h.goOn call trivial
  · split
    · exact h.goOn call trivial
    · exact h.finish call
  · split
    · exact h.goOn call trivial
    · exact h.finish call

theorem Sound.upsert (call : Nat)
    {userId : User} {deviceId : Nat} {wasAlreadyActive : Bool} {path : Path}
    (hok : (Job.upserting path userId deviceId wasAlreadyActive).orderly normalize state) :
    Sound normalize (state.upsert call userId deviceId wasAlreadyActive path) := by
  have hwritten : Sound normalize { state with
      memberships := state.memberships.put ⟨userId, deviceId, path.activates⟩ } :=
    h.put userId deviceId hok
  unfold State.upsert
  split
  · exact hwritten.goOn call trivial
  · exact hwritten.afterActivation call path

theorem Sound.resume {call : Nat} {reply : Reply} (hjob : job.Sound normalize state)
    (hok : job.orderly normalize state)
    (hresume : state.resume normalize call job reply = some next) : Sound normalize next := by
  cases job with
  | performing operation stage =>
    cases reply <;> cases hresume
    · exact h.operate hjob hok true
    · exact h.operate hjob hok false
  | sending =>
    cases reply <;> cases hresume
    · exact h.goOn call trivial
    · exact h.finish call
  | enqueueing targets =>
    cases reply <;> cases hresume
    · exact h.finish call
    · refine (h.enqueue fun target htarget => ?_).finish call
      exact hok target (mem_of_mem_filter htarget)
  | opening path userId deviceId =>
    cases reply <;> cases hresume
    · split
      · exact h.goOn call trivial
      · exact h.finish call
    · exact h.finish call
  | looking path userId deviceId =>
    cases reply <;> cases hresume
    · exact h.look call userId deviceId true path
    · exact h.look call userId deviceId false path
  | upserting path userId deviceId wasAlreadyActive =>
    cases reply <;> cases hresume
    · exact h.upsert call hok
    · exact h.afterActivation call path
  | redelivering userId deviceId =>
    cases reply <;> cases hresume
    · exact h.finish call
    · refine (h.enqueue fun message hmessage => ?_).finish call
      obtain rfl := eq_of_mem_replicate hmessage
      exact hok

theorem Sound.step {action : Action User} (hok : orderly normalize state action)
    (hstep : step normalize state action = some next) : Sound normalize next := by
  cases action with
  | start request =>
    cases hstep
    have hstarted : Sound normalize (state.goOn state.nextCall request.job) :=
      h.goOn _ (by cases request <;> trivial)
    exact ⟨hstarted.active, hstarted.queued, hstarted.calls, hstarted.departed⟩
  | resume call reply =>
    obtain ⟨running, hfound, hresume⟩ := bind_eq_some_iff.mp hstep
    obtain ⟨hrunning, hid⟩ := find_eq_some_iff.mp hfound
    exact h.resume (h.calls running hrunning) (hok running hrunning hid) hresume
  | acknowledge recipientId deviceId =>
    cases hstep
    exact h.shrink ⟨rfl, rfl, rfl⟩ (fun _ hrow => hrow) fun _ hmessage => mem_of_mem_filter hmessage
  | forget deviceId =>
    cases hstep
    exact h.shrink ⟨rfl, rfl, rfl⟩ (fun _ hrow => (mem_remove.mp hrow).1) fun _ hmessage => hmessage

end

/-! ## 5. Every run -/

/-- **A departure is final.**  In every run whose steps all meet the condition, a user whom a
    removal took out, and to whom no operation has given access since, is not on the list; and
    once the calls that were running when the removal returned have ended, no membership of the
    user is active and no frame is queued for the user. -/
theorem departure_final {allowedUsers : List User} {actions : List (Action User)}
    {state : State User}
    (hok : EachStep (step normalize) (orderly normalize) (.initial allowedUsers) actions)
    (hrun : run (step normalize) (.initial allowedUsers) actions = some state)
    {user : User} {inFlight : List Nat} (hdeparted : state.departed user = some inFlight) :
    normalize user ∉ state.allowedUsers ∧ ((∀ call ∈ state.calls, call.id ∉ inFlight) →
        (∀ row ∈ state.memberships, row.userId = user → row.active = false) ∧
          ∀ message ∈ state.queued, message.recipientId ≠ user) := by
  have hsound : Sound normalize state := run_invariant (Sound.step ·) (Sound.initial _) hok hrun
  obtain ⟨hunlisted, hunrouted, hempty⟩ := hsound.departed hdeparted
  exact ⟨hunlisted, fun _ => ⟨hunrouted, hempty⟩⟩

/-- The creator of a salon publishes its group info with one device and then leaves. -/
def creatorLeaves : List (Action Nat) :=
  [.start (.activate .groupInfo 0 5), .resume 0 .ok, .resume 0 .ok, .resume 0 .ok,
    .start (.perform (.leaveChannel 0)), .resume 1 .ok, .resume 1 .ok, .resume 1 .ok,
    .resume 1 .ok, .resume 1 .ok, .resume 1 .ok]

theorem departure_final_creatorLeaves :
    ∃ state, run (step id) (.initial [0]) creatorLeaves = some state ∧
      state.departed 0 = some [] ∧ 0 ∉ state.allowedUsers ∧
      ((∀ call ∈ state.calls, call.id ∉ []) →
        (∀ row ∈ state.memberships, row.userId = 0 → row.active = false) ∧
          ∀ message ∈ state.queued, message.recipientId ≠ 0) := by
  have hok : EachStep (step id) (orderly id) (.initial [0]) creatorLeaves := by decide
  have hdeparted : ∃ state ∈ run (step id) (.initial [0]) creatorLeaves,
      state.departed 0 = some [] := by decide
  obtain ⟨state, hrun, hdeparted⟩ := hdeparted
  exact ⟨state, hrun, hdeparted, departure_final hok hrun hdeparted⟩

/-- An administrator who joins read the list before the creator left, and saves it after. -/
theorem left_and_back :
    ∃ state, run (step id) (.initial [0])
        [.start (.perform (.joinPrivateChannelAsAdmin 1)), .resume 0 .ok,
          .start (.perform (.leaveChannel 0)), .resume 1 .ok, .resume 1 .ok, .resume 1 .ok,
          .resume 1 .ok, .resume 1 .ok, .resume 1 .ok,
          .resume 0 .ok, .resume 0 .ok, .resume 0 .ok] = some state ∧
      state.departed 0 = some [0] ∧ state.calls.rows = [] ∧ 0 ∈ state.allowedUsers := by
  decide

end MinesApp.Salon
