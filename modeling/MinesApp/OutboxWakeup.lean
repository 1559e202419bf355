import MinesApp.Outbox

/-!
# No wake-up of the outbox is lost

A kick (an enqueue, a reconnect, a timer, a request of another tab) that comes while a flush
runs is folded into the flag `rerun`, and an entry that backs off is left to a single timer.
The flag is read at the foot of a loop that a pass leaves before, when it sent nothing or
found the queue empty; so an entry enqueued while another one is held back may find the
flusher idle, with no timer, and nothing that will attempt it.

Where every pass that ends heeds the flag, where the queue can be read, and where a deadline
that a pass skipped is still ahead when the timer is set, no kick is lost.
-/

namespace MinesApp.Outbox

open TransitionSystem UniqueTable List Option State

/-! ## 1. The condition -/

/-- A pass reads the queue, no callback throws, a withdrawn entry that it meets has no row any
    more, and it ends with no kick unheard: without one when it sent nothing or found nothing,
    and, when it skipped an entry that backs off, with a timer armed, a deadline ahead or
    another pass to follow.  One tab leads at a time, and no page is loaded anew between the
    row that its `enqueue` wrote and the kick. -/
def attentive (state : State) : Action → Prop
  | .flush tab outcome =>
    match (state.tabs tab).stage with
    | .reading => outcome ≠ .fails
    | .decoding [] => (state.tabs tab).rerun = false
    | .walking (entry :: _) _ =>
      entry.id ∈ (state.tabs tab).cancelled → entry.id ∉ state.rows.ids
    | .attempting _ _ _ _ => outcome ≠ .throws
    | .rereading _ => outcome ≠ .fails
    | .scheduling remaining anySent =>
      ((state.tabs tab).rerun = true → anySent = true) ∧
        ((∃ row ∈ remaining, row.id ∈ (state.tabs tab).skipped) →
          (state.tabs tab).rerun = true ∨ (state.tabs tab).backoffTimer.isSome = true ∨
            ∃ row ∈ remaining, row.nextAttemptAt.any (state.clock < ·) = true)
    | _ => True
  | .elect _ leads => leads = true → ∀ other, (state.tabs other).leadership ≠ .leader
  | .promote _ => ∀ other, (state.tabs other).leadership ≠ .leader
  | .reload tab => (state.tabs tab).leadership ≠ .leader →
      (state.tabs tab).waiting = false ∧ ∀ call, state.calls call ≠ some ⟨tab, .queued⟩
  | _ => True

/-! ## 2. What is coming -/

/-- The current pass will attempt the entry, or has skipped it. -/
def Stage.coming (skipped : List Nat) (id : Nat) : Stage → Prop
  | .idle => False
  | .settling => True
  | .reading => True
  | .decoding entries => id ∈ entries.map Entry.id
  | .walking rest _ => id ∈ rest.map Entry.id ∨ id ∈ skipped
  | .attempting _ _ rest _ => id ∈ rest.map Entry.id ∨ id ∈ skipped
  | .rereading _ => id ∈ skipped
  | .scheduling remaining _ => id ∈ skipped ∧ id ∈ remaining.map Entry.id

/-- Something will start a pass for the entry: the opening of a gate, the timer, the current
    pass or the one that `rerun` asks for. -/
def Tab.coming (tab : Tab) (id : Nat) : Prop :=
  ¬tab.gatesOpen ∨ tab.backoffTimer.isSome = true ∨
    (tab.stage ≠ .idle ∧ (tab.rerun = true ∨ tab.stage.coming tab.skipped id))

/-- A kick of the tab is on its way: an `enqueue` has written its row and not kicked yet, a
    follower has asked this tab, or another tab will kick when its side is known. -/
def State.underWay (state : State) (tab : Nat) : Prop :=
  (∃ call source, state.calls call = some ⟨source, .queued⟩) ∨
    .flushRequest ∈ (state.tabs tab).inbox ∨
    ∃ other, (state.tabs other).leadership = .undecided ∧ (state.tabs other).waiting = true

/-- A tab that does not know its side yet remembers a kick, and a follower has passed it on. -/
structure Orderly (tab : Tab) : Prop where
  undecided : tab.leadership = .undecided → tab.waiting = false → tab.owed = []
  follower : tab.leadership = .follower → tab.owed = []

/-- The invariant: whatever a tab owes an attempt is on its way to one. -/
structure Alert (state : State) : Prop where
  orderly : ∀ tab, Orderly (state.tabs tab)
  alone : ∀ {tab other}, (state.tabs tab).leadership = .leader →
    (state.tabs other).leadership = .leader → tab = other
  coming : ∀ tab, ∀ id ∈ (state.tabs tab).owed, (state.tabs tab).coming id ∨ state.underWay tab

theorem Orderly.of_owed_nil {tab : Tab} (h : tab.owed = []) : Orderly tab :=
  ⟨fun _ _ => h, fun _ => h⟩

theorem Orderly.shrink {tab after : Tab} (h : Orderly tab)
    (hleadership : after.leadership = tab.leadership) (hwaiting : after.waiting = tab.waiting)
    (howed : after.owed ⊆ tab.owed) : Orderly after where
  undecided := fun hundecided hidle => by
    rw [h.undecided (hleadership ▸ hundecided) (hwaiting ▸ hidle)] at howed
    exact subset_nil.mp howed
  follower := fun hfollower => by
    rw [h.follower (hleadership ▸ hfollower)] at howed
    exact subset_nil.mp howed

theorem Alert.initial : Alert .initial where
  orderly := fun _ => .of_owed_nil rfl
  alone := nofun
  coming := fun _ _ hid => absurd hid not_mem_nil

/-- Only the leader has open gates. -/
theorem coming_of_not_leader {tab : Tab} (h : tab.leadership ≠ .leader) (id : Nat) :
    tab.coming id := .inl fun hopen => h hopen.1

/-! ## 3. A kick -/

theorem runFlush_leadership (rows : Rows) (tab : Tab) :
    (tab.runFlush rows).leadership = tab.leadership := by
  unfold Tab.runFlush
  split
  · rfl
  split
  · rfl
  · split <;> rfl

theorem Orderly.runFlush (rows : Rows) {tab : Tab} (h : tab.leadership ≠ .follower) :
    Orderly (tab.runFlush rows) where
  undecided := fun hundecided hidle => by
    rw [runFlush_leadership] at hundecided
    rw [Tab.runFlush, if_pos hundecided] at hidle
    cases hidle
  follower := fun hfollower => absurd (runFlush_leadership rows tab ▸ hfollower) h

/-- A kick of the leader reaches a pass, unless a gate is closed. -/
theorem coming_runFlush (rows : Rows) (tab : Tab) (id : Nat) : (tab.runFlush rows).coming id := by
  unfold Tab.runFlush
  split
  next hundecided =>
    exact coming_of_not_leader (fun hleader => nomatch hundecided.symm.trans hleader) id
  · split
    next hclosed => exact .inl hclosed
    · split
      · exact .inr (.inr ⟨nofun, .inr trivial⟩)
      next hbusy => exact .inr (.inr ⟨hbusy, .inl rfl⟩)

theorem Alert.kick {state : State} (horderly : ∀ tab, Orderly (state.tabs tab))
    (halone : ∀ {tab other}, (state.tabs tab).leadership = .leader →
      (state.tabs other).leadership = .leader → tab = other)
    (tab : Nat) : Alert (state.runFlush tab) := by
  unfold runFlush
  split
  next hfollower =>
    refine ⟨fun other => ?_, fun {first second} hfirst hsecond => ?_, fun other id hid => ?_⟩
    · simp only [post]
      split
      · exact horderly other
      · exact (horderly other).shrink rfl rfl (List.Subset.refl _)
    · simp only [post, apply_ite Tab.leadership, ite_self] at hfirst hsecond
      exact halone hfirst hsecond
    · by_cases hsame : other = tab
      · subst hsame
        simp only [post, if_pos] at hid
        rw [(horderly other).follower hfollower] at hid
        exact absurd hid not_mem_nil
      · refine .inr (.inr (.inl ?_))
        simp [post, hsame]
  next hnotFollower =>
    have hleads : ∀ other,
        ((state.setTab tab ((state.tabs tab).runFlush state.rows)).tabs other).leadership =
          (state.tabs other).leadership := by
      intro other
      by_cases hsame : other = tab
      · rw [hsame, setTab_self, runFlush_leadership]
      · rw [setTab_other state _ hsame]
    refine ⟨fun other => ?_, fun {first second} hfirst hsecond => ?_, fun other id _ => ?_⟩
    · by_cases hsame : other = tab
      · rw [hsame, setTab_self]
        exact Orderly.runFlush _ hnotFollower
      · rw [setTab_other state _ hsame]
        exact horderly other
    · exact halone (hleads first ▸ hfirst) (hleads second ▸ hsecond)
    · by_cases hsame : other = tab
      · rw [hsame, setTab_self]
        exact .inl (coming_runFlush _ _ id)
      · -- An undecided tab will kick again; a leader is the only one whose gates are open.
        cases hside : (state.tabs tab).leadership with
        | undecided =>
          refine .inr (.inr (.inr ⟨tab, ?_, ?_⟩))
          · rw [hleads, hside]
          · rw [setTab_self, Tab.runFlush, if_pos hside]
        | leader =>
          refine .inl (coming_of_not_leader (fun hleader => hsame ?_) id)
          exact halone (hleads other ▸ hleader) hside
        | follower => exact absurd hside hnotFollower

/-! ## 4. A pass -/

/-- The tab forgets no kick, and what is still owed stays on its way. -/
structure Heeds (tab after : Tab) : Prop where
  leadership : after.leadership = tab.leadership
  waiting : after.waiting = tab.waiting
  inbox : .flushRequest ∈ tab.inbox → .flushRequest ∈ after.inbox
  owed : after.owed ⊆ tab.owed
  coming : ∀ id ∈ after.owed, tab.coming id → after.coming id

open Heeds

theorem Heeds.refl (tab : Tab) : Heeds tab tab :=
  ⟨rfl, rfl, fun hmem => hmem, List.Subset.refl _, fun _ _ hcoming => hcoming⟩

theorem Heeds.marks (tab : Tab) (cancelled : List Nat) : Heeds tab { tab with cancelled } :=
  ⟨rfl, rfl, fun hmem => hmem, List.Subset.refl _, fun _ _ hcoming => hcoming⟩

theorem isSome_scheduleBackoff {clock : Nat} {entries : List Entry} {timer : Option Nat}
    (h : timer.isSome = true ∨ ∃ row ∈ entries, row.nextAttemptAt.any (clock < ·) = true) :
    (scheduleBackoff clock entries timer).isSome = true := by
  unfold scheduleBackoff
  split
  next hnone =>
    refine h.resolve_right ?_
    rintro ⟨row, hrow, hdeadline⟩
    have hempty := min?_eq_none_iff.mp hnone
    cases hnext : row.nextAttemptAt with rw [hnext] at hdeadline
    | none =>
      cases hdeadline
    | some deadline =>
      have hmem : deadline ∈ (entries.filterMap Entry.nextAttemptAt).filter (clock < ·) :=
        mem_filter.mpr ⟨mem_filterMap.mpr ⟨row, hrow, hnext⟩, hdeadline⟩
      rw [hempty] at hmem
      exact absurd hmem not_mem_nil
  · rfl

theorem throws_of_threw {clock : Nat} {rows after : Rows} {entry : Entry} {attempt : Attempt}
    {outcome : Outcome} {events : List Event}
    (h : attemptStep clock rows entry attempt outcome = some (.threw, after, events)) :
    outcome = .throws := by
  generalize hprogress : Progress.threw = progress at h
  cases attemptStep_move h with
  | giveUp hearly hdone hthrew => exact hthrew hprogress.symm
  | remove removal | keep removal => cases removal <;> cases hprogress
  | wait hunexplained hlate hread | settle removal | deliver | persist | call | storeRef
  | backOff | unsaved hbook | gone habsent => cases hprogress

section Flush

variable {state : State} {tab : Nat} {value : Tab} {rows : Rows} {events : List Event}
  {outcome : Outcome}

section

variable {tab : Tab}

/-- The stages between which an entry on its way stays on its way. -/
theorem coming_of_stage {after : Tab} {id : Nat} (h : tab.coming id)
    (hgates : after.gatesOpen → tab.gatesOpen) (htimer : after.backoffTimer = tab.backoffTimer)
    (hrerun : after.rerun = tab.rerun) (hbusy : after.stage ≠ .idle)
    (hstage : tab.stage.coming tab.skipped id → after.stage.coming after.skipped id) :
    after.coming id := by
  rcases h with hclosed | harmed | ⟨_, hflag | hcoming⟩
  · exact .inl fun hopen => hclosed (hgates hopen)
  · exact .inr (.inl (htimer ▸ harmed))
  · exact .inr (.inr ⟨hbusy, .inl (hrerun ▸ hflag)⟩)
  · exact .inr (.inr ⟨hbusy, .inr (hstage hcoming)⟩)

variable {anySent : Bool} {rest : List Entry} {entry : Entry}

theorem Heeds.endPass {clock : Nat} {remaining : List Entry}
    (hstage : tab.stage = .scheduling remaining anySent) (hflag : tab.rerun = true → anySent = true)
    (hskipped : (∃ row ∈ remaining, row.id ∈ tab.skipped) →
      tab.rerun = true ∨ tab.backoffTimer.isSome = true ∨
        ∃ row ∈ remaining, row.nextAttemptAt.any (clock < ·) = true) :
    Heeds tab (tab.endPass clock remaining anySent) := by
  unfold Tab.endPass
  dsimp only
  split
  · exact ⟨rfl, rfl, fun hmem => hmem, List.Subset.refl _,
      fun id _ _ => .inr (.inr ⟨nofun, .inr trivial⟩)⟩
  next hlast =>
    refine ⟨rfl, rfl, fun hmem => hmem, List.Subset.refl _, fun id _ hcoming => ?_⟩
    have hheard : tab.rerun = false := by
      cases hrerun : tab.rerun with
      | false => rfl
      | true => exact absurd (by simp [hflag hrerun, hrerun]) hlast
    rcases hcoming with hclosed | harmed | ⟨_, hrerun | hnow⟩
    · exact .inl hclosed
    · exact .inr (.inl (isSome_scheduleBackoff (.inl harmed)))
    · cases hheard.symm.trans hrerun
    · rw [hstage] at hnow
      obtain ⟨row, hrow, rfl⟩ := mem_map.mp hnow.2
      rcases hskipped ⟨row, hrow, hnow.1⟩ with hrerun | hahead
      · cases hheard.symm.trans hrerun
      · exact .inr (.inl (isSome_scheduleBackoff hahead))

/-- An entry that a pass takes up is owed no more, unless a kick has come since the pass
    began. -/
theorem Heeds.takeUp (hstage : tab.stage = .walking (entry :: rest) anySent) (attempt : Attempt) :
    Heeds tab { tab with
      owed := if tab.rerun then tab.owed else tab.owed.filter (· ≠ entry.id)
      stage := .attempting entry attempt rest anySent } := by
  refine ⟨rfl, rfl, fun hmem => hmem, ?_, fun id hid hcoming => ?_⟩
  · split
    · exact List.Subset.refl _
    · exact filter_subset_self _
  · cases hrerun : tab.rerun with
    | true => exact .inr (.inr ⟨nofun, .inl rfl⟩)
    | false =>
      rw [hrerun, if_neg nofun] at hid
      have hother : id ≠ entry.id := by simpa using (mem_filter.mp hid).2
      refine coming_of_stage hcoming (fun hopen => hopen) rfl hrerun.symm nofun fun hnow => ?_
      rw [hstage] at hnow
      exact hnow.imp_left fun hmem => (mem_cons.mp hmem).resolve_left hother

/-- A pass that goes on from one stage to the next. -/
theorem Heeds.within {stage : Stage} {cancelled skipped owed : List Nat}
    (howed : owed ⊆ tab.owed) (hbusy : stage ≠ .idle)
    (hnow : ∀ id ∈ owed, tab.stage.coming tab.skipped id → stage.coming skipped id) :
    Heeds tab { tab with stage, cancelled, skipped, owed } :=
  ⟨rfl, rfl, fun hmem => hmem, howed, fun id hid hcoming =>
    coming_of_stage hcoming (fun hopen => hopen) rfl rfl hbusy (hnow id hid)⟩

/-- An attempt leaves the rest of the pass alone, unless it throws. -/
theorem Heeds.proceed {attempt : Attempt} {progress : Progress}
    (hstage : tab.stage = .attempting entry attempt rest anySent) (hthrew : progress ≠ .threw) :
    Heeds tab (tab.proceed entry rest anySent progress) := by
  cases progress with
  | next attempt | sent | retry | error =>
    refine .within (List.Subset.refl _) nofun fun id _ hnow => ?_
    rw [hstage] at hnow
    exact hnow
  | threw => exact absurd rfl hthrew

end

theorem Heeds.flush
    (h : flushStep state.clock state.rows (state.tabs tab) outcome = some (value, rows, events))
    (hok : attentive state (.flush tab outcome)) : Heeds (state.tabs tab) value := by
  cases flushStep_move h with simp only [attentive, hstage] at hok
  | begin hstage =>
    refine ⟨rfl, rfl, fun hmem => hmem, List.Subset.refl _, fun id _ _ => ?_⟩
    exact .inr (.inr ⟨nofun, .inr trivial⟩)
  | read hstage =>
    refine ⟨rfl, rfl, fun hmem => hmem, filter_subset_self _, fun id hid _ => ?_⟩
    have hstored : id ∈ state.rows.ids := by simpa using (mem_filter.mp hid).2
    exact .inr (.inr ⟨nofun, .inr hstored⟩)
  | unread hstage | unreread hstage =>
    exact absurd rfl hok
  | empty hstage =>
    refine ⟨rfl, rfl, fun hmem => hmem, List.Subset.refl _, fun id _ hcoming => ?_⟩
    rcases hcoming with hclosed | harmed | ⟨_, hrerun | hcoming⟩
    · exact .inl hclosed
    · exact .inr (.inl harmed)
    · cases hok.symm.trans hrerun
    · rw [hstage] at hcoming
      exact absurd hcoming not_mem_nil
  | walk hstage hnonempty =>
    refine .within (List.Subset.refl _) nofun fun id _ hnow => ?_
    rw [hstage] at hnow
    exact .inl hnow
  | walked hstage =>
    refine .within (List.Subset.refl _) nofun fun id _ hnow => ?_
    rw [hstage] at hnow
    exact hnow.resolve_left not_mem_nil
  | withdrawn hstage hmarked =>
    refine .within (filter_subset_self _) nofun fun id hid hnow => ?_
    have hstored : id ∈ state.rows.ids := by simpa using (mem_filter.mp hid).2
    rw [hstage] at hnow
    refine hnow.imp_left fun hmem => ?_
    refine (mem_cons.mp hmem).resolve_left fun hsame => ?_
    exact hok hmarked (hsame ▸ hstored)
  | skip hstage hunmarked =>
    refine .within (List.Subset.refl _) nofun fun id _ hnow => ?_
    rw [hstage] at hnow
    rcases hnow with hmem | hskipped
    · rcases mem_cons.mp hmem with rfl | hrest
      · exact .inr mem_cons_self
      · exact .inl hrest
    · exact .inr (mem_cons_of_mem _ hskipped)
  | drop hstage hunmarked | take hstage hunmarked => exact takeUp hstage _
  | attempt hstage hattempt =>
    exact proceed hstage fun hthrew => hok (throws_of_threw (hthrew ▸ hattempt))
  | reread hstage =>
    refine .within (filter_subset_self _) nofun fun id hid hnow => ?_
    have hstored : id ∈ state.rows.ids := by simpa using (mem_filter.mp hid).2
    rw [hstage] at hnow
    exact ⟨hnow, hstored⟩
  | endPass hstage =>
    exact endPass hstage hok.1 hok.2

end Flush

/-! ## 5. One step -/

variable {state next : State} {tab : Nat} {value : Tab}

theorem Alert.heed (h : Alert state) (htabs : ∀ tab, Heeds (state.tabs tab) (next.tabs tab))
    (hqueued : (∃ call source, state.calls call = some ⟨source, .queued⟩) →
      ∃ call source, next.calls call = some ⟨source, .queued⟩) : Alert next where
  orderly := fun tab =>
    (h.orderly tab).shrink (htabs tab).leadership (htabs tab).waiting (htabs tab).owed
  alone := fun {tab other} htab hother =>
    h.alone ((htabs tab).leadership ▸ htab) ((htabs other).leadership ▸ hother)
  coming := fun tab id hid => by
    rcases h.coming tab id ((htabs tab).owed hid) with hcoming | hcall | hasked | hwaits
    · exact .inl ((htabs tab).coming id hid hcoming)
    · exact .inr (.inl (hqueued hcall))
    · exact .inr (.inr (.inl ((htabs tab).inbox hasked)))
    · obtain ⟨other, hundecided, hwaiting⟩ := hwaits
      refine .inr (.inr (.inr ⟨other, ?_, ?_⟩))
      · rw [(htabs other).leadership, hundecided]
      · rw [(htabs other).waiting, hwaiting]

theorem heeds_setTab (h : Heeds (state.tabs tab) value) (other : Nat) :
    Heeds (state.tabs other) ((state.setTab tab value).tabs other) := by
  by_cases hsame : other = tab
  · subst hsame
    rw [setTab_self]
    exact h
  · rw [setTab_other state value hsame]
    exact refl _

theorem queued_setCall {call : Nat} {value : Option Call}
    (hcall : ∀ source, state.calls call ≠ some ⟨source, .queued⟩)
    (h : ∃ call source, state.calls call = some ⟨source, .queued⟩) :
    ∃ other source, (state.setCall call value).calls other = some ⟨source, .queued⟩ := by
  obtain ⟨other, source, hqueued⟩ := h
  refine ⟨other, source, ?_⟩
  have hother : other ≠ call := by
    rintro rfl
    exact hcall source hqueued
  exact (Function.update_of_ne hother _ _).trans hqueued

section

variable (h : Alert state)
include h

theorem Alert.save (entry : Entry) (call tab : Nat) :
    Alert ((state.save entry).setCall call (some ⟨tab, .queued⟩)) where
  orderly := fun other => by
    refine ⟨fun hundecided hidle => ?_, fun hfollower => ?_⟩
    · have hside : (state.tabs other).leadership ≠ .leader := hundecided.trans_ne nofun
      exact (if_neg hside).trans ((h.orderly other).undecided hundecided hidle)
    · have hside : (state.tabs other).leadership ≠ .leader := hfollower.trans_ne nofun
      exact (if_neg hside).trans ((h.orderly other).follower hfollower)
  alone := h.alone
  coming := fun _ _ _ => .inr (.inl ⟨call, tab, Function.update_self _ _ _⟩)

theorem Alert.close (hleadership : value.leadership = (state.tabs tab).leadership)
    (hwaiting : value.waiting = (state.tabs tab).waiting)
    (hinbox : value.inbox = (state.tabs tab).inbox) (howed : value.owed = (state.tabs tab).owed)
    (hclosed : ¬value.gatesOpen) : Alert (state.setTab tab value) := by
  refine h.heed (heeds_setTab ⟨hleadership, hwaiting, ?_, ?_, fun _ _ _ => .inl hclosed⟩) id
  · rw [hinbox]
    exact id
  · rw [howed]
    exact List.Subset.refl _

theorem orderly_setTab (hvalue : Orderly value) (other : Nat) :
    Orderly ((state.setTab tab value).tabs other) := by
  by_cases hsame : other = tab
  · rw [hsame, setTab_self]
    exact hvalue
  · rw [setTab_other state value hsame]
    exact h.orderly other

theorem alone_setTab (hvalue : value.leadership = .leader →
      ∀ other, (state.tabs other).leadership = .leader → other = tab)
    {first second : Nat} (hfirst : ((state.setTab tab value).tabs first).leadership = .leader)
    (hsecond : ((state.setTab tab value).tabs second).leadership = .leader) : first = second := by
  by_cases hone : first = tab
  · by_cases htwo : second = tab
    · exact hone.trans htwo.symm
    · rw [hone, setTab_self] at hfirst
      rw [setTab_other state value htwo] at hsecond
      exact hone.trans (hvalue hfirst second hsecond).symm
  · rw [setTab_other state value hone] at hfirst
    by_cases htwo : second = tab
    · rw [htwo, setTab_self] at hsecond
      exact (hvalue hsecond first hfirst).trans htwo.symm
    · rw [setTab_other state value htwo] at hsecond
      exact h.alone hfirst hsecond

theorem Alert.gate (hleadership : value.leadership = (state.tabs tab).leadership)
    (hwaiting : value.waiting = (state.tabs tab).waiting)
    (howed : value.owed = (state.tabs tab).owed) :
    Alert ((state.setTab tab value).runFlush tab) := by
  refine Alert.kick (orderly_setTab h ((h.orderly tab).shrink hleadership hwaiting ?_))
    (alone_setTab h fun hleader other hother => ?_) tab
  · rw [howed]
    exact List.Subset.refl _
  · exact h.alone hother (hleadership ▸ hleader)

/-- The tab changes by itself, and no kick that it remembers is lost. -/
theorem Alert.change (hvalue : Orderly value) (hcoming : ∀ id ∈ value.owed, value.coming id)
    (halone : value.leadership = .leader →
      ∀ other, (state.tabs other).leadership = .leader → other = tab)
    (hwaits : (state.tabs tab).leadership = .undecided → (state.tabs tab).waiting = true →
      value.leadership = .undecided ∧ value.waiting = true) : Alert (state.setTab tab value) where
  orderly := orderly_setTab h hvalue
  alone := alone_setTab h halone
  coming := fun other id hid => by
    by_cases hsame : other = tab
    · rw [hsame, setTab_self] at hid ⊢
      exact .inl (hcoming id hid)
    · rw [setTab_other state value hsame] at hid ⊢
      refine (h.coming other id hid).imp_right fun hunderWay => ?_
      rcases hunderWay with hcall | hasked | ⟨waits, hundecided, hwaiting⟩
      · exact .inl hcall
      · refine .inr (.inl ?_)
        rw [setTab_other state value hsame]
        exact hasked
      · refine .inr (.inr ⟨waits, ?_⟩)
        by_cases hself : waits = tab
        · subst hself
          rw [setTab_self]
          exact hwaits hundecided hwaiting
        · rw [setTab_other state value hself]
          exact ⟨hundecided, hwaiting⟩

/-- The tab changes sides and owes nothing on the new one. -/
theorem Alert.changeSides (howed : value.owed = []) (halone : value.leadership = .leader →
      ∀ other, (state.tabs other).leadership = .leader → other = tab)
    (hidle : (state.tabs tab).leadership = .undecided → (state.tabs tab).waiting = false) :
    Alert (state.setTab tab value) := by
  refine h.change (.of_owed_nil howed) (fun id hid => ?_) halone fun hundecided hwaiting => ?_
  · rw [howed] at hid
    exact absurd hid not_mem_nil
  · cases (hidle hundecided).symm.trans hwaiting

theorem Alert.reload (hok : attentive state (.reload tab)) :
    Alert { state.setTab tab .fresh with
      calls := fun call => (state.calls call).filter fun running => running.tab ≠ tab } where
  orderly := orderly_setTab h (.of_owed_nil rfl)
  alone := alone_setTab h fun hleader => nomatch (hleader : TabLeadership.undecided = .leader)
  coming := fun other id hid => by
    by_cases hsame : other = tab
    · subst hsame
      exact .inl (coming_of_not_leader (by simp [Tab.fresh]) id)
    · dsimp only at hid ⊢
      rw [setTab_other state _ hsame] at hid ⊢
      by_cases hleader : (state.tabs other).leadership = .leader
      · -- another tab leads, so that what was on its way to it came from elsewhere
        have hkept := hok fun htab => hsame (h.alone hleader htab)
        refine (h.coming other id hid).imp_right fun hunderWay => ?_
        rcases hunderWay with ⟨call, source, hcall⟩ | hasked | ⟨waits, hundecided, hwaiting⟩
        · refine .inl ⟨call, source, ?_⟩
          have hsource : source ≠ tab := by
            rintro rfl
            exact hkept.2 call hcall
          simp [hcall, hsource]
        · refine .inr (.inl ?_)
          rw [setTab_other state _ hsame]
          exact hasked
        · refine .inr (.inr ⟨waits, ?_⟩)
          have hother : waits ≠ tab := by
            rintro rfl
            cases hkept.1.symm.trans hwaiting
          rw [setTab_other state _ hother]
          exact ⟨hundecided, hwaiting⟩
      · exact .inl (coming_of_not_leader hleader id)

theorem Alert.deliver {message : TabOutboxEvent} {inbox : List TabOutboxEvent}
    (hinbox : (state.tabs tab).inbox = message :: inbox) :
    Alert ((state.setTab tab { state.tabs tab with inbox }).receive tab message) := by
  cases message with
  | flushRequest =>
    simp only [receive]
    split
    · exact h.gate rfl rfl rfl
    -- a tab that does not lead leaves the request to the one that does
    rename_i hfollows
    rw [setTab_self] at hfollows
    exact h.change ((h.orderly tab).shrink rfl rfl (List.Subset.refl _))
      (fun id _ => coming_of_not_leader hfollows id)
      (fun hleader => absurd hleader hfollows) fun hundecided hwaiting =>
        ⟨hundecided, hwaiting⟩
  | entryCancelled id =>
    have hasked : .flushRequest ∈ (state.tabs tab).inbox → .flushRequest ∈ inbox := by
      rw [hinbox]
      intro hmem
      rcases mem_cons.mp hmem with heq | hmem
      · cases heq
      · exact hmem
    have hread : Alert (state.setTab tab { state.tabs tab with inbox }) :=
      h.heed (heeds_setTab
        ⟨rfl, rfl, hasked, List.Subset.refl _, fun _ _ hcoming => hcoming⟩) fun hcall => hcall
    exact hread.heed (heeds_setTab (marks _ _)) fun hcall => hcall

theorem Alert.resume {call : Nat} {ok : Bool} {stage : CallStage}
    (hcall : state.calls call = some ⟨tab, stage⟩)
    (hmove : ResumeMove state call tab ok stage next) : Alert next := by
  have hfree : stage ≠ .queued → ∀ source, state.calls call ≠ some ⟨source, .queued⟩ := by
    intro hstage source hqueued
    cases hcall.symm.trans hqueued
    exact hstage rfl
  have hsame : ∀ other, Heeds (state.tabs other) (state.tabs other) := fun _ => refl _
  cases hmove with
  | save entry => exact h.save entry call tab
  | unsaved entry | look id found | absent id | delete id | undeleted id | confirm id hmarked
  | spent id hspent | answer id => exact h.heed hsame (queued_setCall (hfree (by simp)))
  | kick => exact @Alert.kick (state.setCall call none) h.orderly h.alone tab
  | mark id =>
    refine h.heed (fun other => ?_) (queued_setCall (hfree (by simp)))
    have hmarked : Heeds (state.tabs other) ((state.setTab tab
        { state.tabs tab with cancelled := id :: (state.tabs tab).cancelled }).tabs other) :=
      heeds_setTab (marks _ _) other
    simp only [mark, setCall, post]
    split
    · exact hmarked
    exact ⟨hmarked.leadership, hmarked.waiting,
      fun hmem => mem_append_left _ (hmarked.inbox hmem), hmarked.owed,
      hmarked.coming⟩
  | unmark id =>
    exact h.heed (heeds_setTab (marks _ _)) (queued_setCall (hfree (by simp)))

theorem Alert.step {action : Action}
    (hok : attentive state action) (hstep : step state action = some next) : Alert next := by
  have hsame : ∀ other, Heeds (state.tabs other) (state.tabs other) := fun _ => refl _
  cases action with
  | tick =>
    cases hstep
    exact h.heed hsame id
  | reload tab =>
    cases hstep
    exact h.reload hok
  | elect tab leads =>
    obtain ⟨hundecided, rfl⟩ := ite_some_none_eq_some.mp hstep
    have halone : (if leads then TabLeadership.leader else .follower) = .leader →
        ∀ other, (state.tabs other).leadership = .leader → other = tab := by
      intro hleads other hother
      refine absurd hother (hok ?_ other)
      cases leads with
      | true => rfl
      | false => cases hleads
    split
    · refine Alert.kick (orderly_setTab h ⟨fun hnow => ?_, fun hnow => ?_⟩)
        (alone_setTab h halone) tab
      · cases leads <;> cases hnow
      · cases leads with
        | true => cases hnow
        | false => rfl
    next hwaiting =>
      have hidle : (state.tabs tab).waiting = false := by simpa using hwaiting
      refine h.changeSides ?_ halone fun _ => hidle
      cases leads with
      | true => exact (h.orderly tab).undecided hundecided hidle
      | false => rfl
  | release tab =>
    obtain ⟨hleader, rfl⟩ := ite_some_none_eq_some.mp hstep
    refine h.changeSides rfl (fun hfollows => ?_) fun hundecided => ?_
    · cases hfollows
    · cases hundecided.symm.trans hleader
  | promote tab =>
    obtain ⟨hfollower, rfl⟩ := ite_some_none_eq_some.mp hstep
    refine h.changeSides ((h.orderly tab).follower hfollower)
      (fun _ other hother => absurd hother (hok other)) fun hundecided => ?_
    cases hundecided.symm.trans hfollower
  | disconnect tab =>
    cases hstep
    refine h.close rfl rfl rfl rfl fun hopen => ?_
    cases hopen.2.1
  | reconnect tab | ready tab =>
    cases hstep
    exact h.gate rfl rfl rfl
  | suspend tab =>
    cases hstep
    refine h.close rfl rfl rfl rfl fun hopen => ?_
    cases hopen.2.2
  | kick tab =>
    cases hstep
    exact Alert.kick h.orderly h.alone tab
  | fire tab =>
    simp only [Outbox.step] at hstep
    split at hstep
    · cases hstep
    obtain ⟨_, rfl⟩ := ite_some_none_eq_some.mp hstep
    exact h.gate rfl rfl rfl
  | deliver tab =>
    simp only [Outbox.step] at hstep
    split at hstep
    · cases hstep
    next message inbox hinbox =>
      cases hstep
      exact h.deliver hinbox
  | enqueue call tab entry alreadyDurable =>
    obtain ⟨hfree, rfl⟩ := ite_some_none_eq_some.mp hstep
    cases alreadyDurable with
    | true => exact h.save entry call tab
    | false => exact h.heed hsame (queued_setCall fun source => by simp [hfree])
  | cancel call tab id =>
    obtain ⟨hfree, rfl⟩ := ite_some_none_eq_some.mp hstep
    exact h.heed hsame (queued_setCall fun source => by simp [hfree])
  | resume call ok =>
    obtain ⟨running, hcall, rfl⟩ := map_eq_some_iff.mp hstep
    exact h.resume hcall (resume_move _ _ _ _ _)
  | flush tab outcome =>
    obtain ⟨⟨value, rows, events⟩, hflush, rfl⟩ := map_eq_some_iff.mp hstep
    exact h.heed (heeds_setTab (flush hflush hok)) id

end

/-! ## 6. Every run -/

/-- **No wake-up is lost.**  When the flusher of a tab is idle with its gates open, every entry
    in the queue has been attempted by a pass begun since it was written and since the last
    kick, or a timer is armed, or a kick is on its way. -/
theorem no_wakeup_lost {actions : List Action} {state : State}
    (hsteps : EachStep step attentive .initial actions)
    (hrun : run step .initial actions = some state) {tab : Nat}
    (hopen : (state.tabs tab).gatesOpen) (hidle : (state.tabs tab).stage = .idle) :
    ∀ row ∈ state.rows.rows, row.id ∉ (state.tabs tab).owed ∨
      (state.tabs tab).backoffTimer.isSome = true ∨ state.underWay tab := by
  have halert : Alert state := run_invariant (Alert.step ·) Alert.initial hsteps hrun
  intro row _
  by_cases howed : row.id ∈ (state.tabs tab).owed
  · refine .inr ?_
    rcases halert.coming tab row.id howed with (hclosed | harmed | ⟨hbusy, _⟩) | hunderWay
    · exact absurd hopen hclosed
    · exact .inl harmed
    · exact absurd hidle hbusy
    · exact .inr hunderWay
  · exact .inl howed

/-- A pass whose `sendMessage` fails, and that arms the timer for the next attempt. -/
def backingOff : List Action :=
  [.elect 0 true, .enqueue 0 0 ⟨0, false, .text, false, 0, none, none⟩ true, .resume 0 true,
    .flush 0 .ok, .flush 0 .ok, .flush 0 .ok, .flush 0 .ok, .flush 0 .ok, .flush 0 .ok,
    .flush 0 (.refused .unknown), .flush 0 .ok, .flush 0 .ok, .flush 0 .ok, .flush 0 .ok,
    .flush 0 .ok]

theorem backingOff_attentive : EachStep step attentive .initial backingOff := by
  have hundecided : ∀ other, (initial.tabs other).leadership ≠ .leader := fun _ => nofun
  have hread : Outcome.ok ≠ .fails := by decide
  have hcalm : Outcome.ok ≠ .throws := by decide
  have hrefused : Outcome.refused .unknown ≠ .throws := by decide
  refine .cons (fun _ => hundecided) rfl (.cons trivial rfl (.cons trivial rfl ?_))
  -- up to the attempt
  refine .cons trivial rfl (.cons hread rfl (.cons trivial rfl (.cons ?_ rfl ?_)))
  · intro hcancelled
    cases hcancelled
  -- the attempt
  refine .cons hcalm rfl (.cons hcalm rfl (.cons hrefused rfl ?_))
  refine .cons hcalm rfl (.cons hcalm rfl ?_)
  -- the end of the pass
  refine .cons trivial rfl (.cons hread rfl (.cons ⟨?_, ?_⟩ rfl trivial))
  · intro hrerun
    cases hrerun
  · rintro ⟨row, -, hskipped⟩
    cases hskipped

theorem no_wakeup_lost_backingOff :
    ∃ state, run step .initial backingOff = some state ∧
      (state.tabs 0).gatesOpen ∧ (state.tabs 0).stage = .idle ∧ state.rows.rows.length = 1 ∧
      (state.tabs 0).backoffTimer.isSome = true ∧
      ∀ row ∈ state.rows.rows, row.id ∉ (state.tabs 0).owed ∨
        (state.tabs 0).backoffTimer.isSome = true ∨ state.underWay 0 :=
  ⟨_, rfl, ⟨rfl, rfl, rfl⟩, rfl, rfl, rfl,
    no_wakeup_lost backingOff_attentive rfl ⟨rfl, rfl, rfl⟩ rfl⟩

/-- A second message is enqueued while the group of the first one is found unhealthy. -/
def unheard : List Action :=
  [.elect 0 true, .enqueue 0 0 ⟨0, false, .text, false, 0, none, none⟩ true, .resume 0 true,
    .flush 0 .ok, .flush 0 .ok, .flush 0 .ok, .flush 0 .ok,
    .enqueue 1 0 ⟨0, false, .text, false, 0, none, none⟩ true, .resume 1 true,
    .flush 0 .unhealthy, .flush 0 .ok, .flush 0 .ok, .flush 0 .ok, .flush 0 .ok]

theorem unheard_calls (call : Nat) :
    (run step .initial unheard).map (fun state => state.calls call) = some none := by
  rcases call with _ | _ | call <;> rfl

theorem unheard_waiting (tab : Nat) :
    (run step .initial unheard).map (fun state => (state.tabs tab).waiting) = some false := by
  cases tab <;> rfl

/-- The pass that held the first message back sent nothing, so that it ends without reading
    the flag: the second message stays in the queue, and nothing will attempt it. -/
theorem kick_unheard :
    ∃ state, run step .initial unheard = some state ∧ (state.tabs 0).gatesOpen ∧
      (state.tabs 0).stage = .idle ∧ (∃ row ∈ state.rows.rows, row.id = 1) ∧
      1 ∈ (state.tabs 0).owed ∧ (state.tabs 0).backoffTimer = none ∧ ¬state.underWay 0 := by
  have hends : ∃ state ∈ run step .initial unheard, (state.tabs 0).gatesOpen ∧
      (state.tabs 0).stage = .idle ∧ (∃ row ∈ state.rows.rows, row.id = 1) ∧
      1 ∈ (state.tabs 0).owed ∧ (state.tabs 0).backoffTimer = none ∧
      .flushRequest ∉ (state.tabs 0).inbox := by
    decide
  obtain ⟨state, hrun, hopen, hidle, hrow, howed, htimer, hinbox⟩ := hends
  rw [mem_def] at hrun
  refine ⟨state, hrun, hopen, hidle, hrow, howed, htimer, ?_⟩
  rintro (⟨call, source, hcall⟩ | hasked | ⟨tab, _, hwaits⟩)
  · simpa [hrun, hcall] using unheard_calls call
  · exact hinbox hasked
  · simpa [hrun, hwaits] using unheard_waiting tab

end MinesApp.Outbox
