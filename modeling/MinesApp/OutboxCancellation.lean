import MinesApp.Outbox

/-!
# A withdrawn message is not sent

`cancelPending` answers `true` when the message is guaranteed never to have been sent.  It
marks the entry, deletes its row and looks whether the entry is inside `sendMessage`; but a
flush reads the mark only where `flushOne` takes the entry up, and `sendMessage` comes several
`await`s later, so a cancellation that completes in between answers `true` for a message that
goes out.

The guarantee holds in the runs where a cancellation meets a stored entry that was never
attempted and that no flush holds, where marks reach the other tabs in time, and where the
writes that record an attempt succeed.
-/

namespace MinesApp.Outbox

open TransitionSystem UniqueTable List Function Table State Tab Stage

/-! ## 1. What a flush holds -/

/-- The entries that the flush still has to take up. -/
def Stage.entries : Stage → List Entry
  | .decoding entries => entries
  | .walking rest _ => rest
  | .attempting _ _ rest _ => rest
  | _ => []

def Stage.pending (stage : Stage) (id : Nat) : Prop := id ∈ stage.entries.map Entry.id

/-- The flush has taken the entry up and has not come to its end. -/
def Stage.holds (id : Nat) : Stage → Prop
  | .attempting entry _ _ _ => entry.id = id
  | _ => False

/-- The flush holds the entry beyond the point where it could still let go of it unrecorded. -/
def Stage.late (id : Nat) : Stage → Prop
  | .attempting entry attempt _ _ => entry.id = id ∧ attempt.early = false
  | _ => False

/-- A write that the flush is about to make is of the entry it holds. -/
def Stage.Own : Stage → Prop
  | .attempting entry attempt _ _ =>
    ∀ existing, attempt.existing = some existing → existing.id = entry.id
  | _ => True

/-- The tab knows, or will learn from its inbox, that the entry is withdrawn. -/
def Tab.marks (tab : Tab) (id : Nat) : Prop :=
  id ∈ tab.cancelled ∨ .entryCancelled id ∈ tab.inbox

/-! ## 2. The condition -/

/-- The conditions under which a cancellation is final.  A call marks an entry that was not
    marked before, whose row is stored with no attempt on it, and that no flush holds.  A tab
    that reads a row which another tab is about to delete still has the mark.  A tab takes an
    entry up when no mark of it is on the way.  The writes that record an attempt succeed, and no
    page is reloaded inside one. -/
def undisturbed (state : State) : Action → Prop
  | .resume call _ =>
    ∀ tab id, state.calls call = some ⟨tab, .looked id true⟩ →
      .marked id ∉ state.log ∧ (∃ row ∈ state.rows, row.id = id ∧ row.attempts = 0) ∧
        ∀ other, ¬(state.tabs other).stage.holds id
  | .reload tab => ∀ id, ¬(state.tabs tab).stage.holds id
  | .flush tab outcome =>
    ((state.tabs tab).stage = .reading →
      ∀ call other id, state.calls call = some ⟨other, .deleting id⟩ → other ≠ tab →
        id ∈ state.rows.ids → (state.tabs tab).marks id) ∧
    (∀ entry rest anySent, (state.tabs tab).stage = .walking (entry :: rest) anySent →
      .entryCancelled entry.id ∉ (state.tabs tab).inbox) ∧
    (∀ entry attempt rest anySent, (state.tabs tab).stage = .attempting entry attempt rest anySent →
        outcome = .fails → attempt.bookkeeping = false)
  | _ => True

/-! ## 3. What a step of a flush keeps -/

section Flush

variable {clock : Nat} {rows after : Rows} {tab value : Tab} {outcome : Outcome}
  {events : List Event} {id : Nat}

theorem endPass_stage {P : Stage → Prop} {remaining : List Entry} {anySent : Bool}
    (hidle : P .idle) (hreading : P .reading) : P (tab.endPass clock remaining anySent).stage := by
  unfold endPass
  dsimp only
  split
  · exact hreading
  · exact hidle

section

variable (hmove : FlushMove clock rows tab outcome value after events)
include hmove

/-- The entries of a pass are those it read, and each is taken up once. -/
theorem FlushMove.entries :
    value.stage.entries.Sublist tab.stage.entries ∨
      (tab.stage = .reading ∧ value.stage.entries.Sublist rows.rows) := by
  cases hmove with
  | read hstage => exact .inr ⟨hstage, List.Sublist.refl _⟩
  | walk hstage hnonempty =>
    rw [hstage]
    exact .inl (List.Sublist.refl _)
  | withdrawn hstage | skip hstage | drop hstage | take hstage =>
    rw [hstage]
    exact .inl (sublist_cons_self _ _)
  | attempt hstage hattempt =>
    rename_i entry attempt rest anySent progress
    rw [hstage]
    cases progress with
    | threw => exact .inl (nil_sublist _)
    | _ => exact .inl (List.Sublist.refl _)
  | endPass hstage =>
    exact .inl (endPass_stage (P := fun stage => stage.entries.Sublist _) (nil_sublist _)
      (nil_sublist _))
  | _ => exact .inl (nil_sublist _)

theorem FlushMove.holds (h : value.stage.holds id) :
    tab.stage.holds id ∨ ∃ entry rest anySent, tab.stage = .walking (entry :: rest) anySent ∧
      entry.id = id ∧ id ∉ tab.cancelled := by
  cases hmove with
  | drop hstage hunmarked | take hstage hunmarked => exact .inr ⟨_, _, _, hstage, h, h ▸ hunmarked⟩
  | attempt hstage hattempt =>
    rename_i entry attempt rest anySent progress
    rw [hstage]
    cases progress with
    | next next => exact .inl h
    | _ => exact False.elim h
  | endPass hstage =>
    exact absurd h (endPass_stage (P := fun stage => ¬stage.holds id) not_false not_false)
  | _ => exact False.elim h

theorem FlushMove.own : value.stage.Own := by
  cases hmove with
  | drop | take => exact fun _ hexisting => nomatch hexisting
  | attempt hstage hattempt =>
    cases attemptStep_move hattempt with
    | wait hunexplained hlate hread => exact hread
    | settle | deliver | persist | call | storeRef => exact fun _ hexisting => nomatch hexisting
    | giveUp hearly hprogress hthrew => rcases hprogress with rfl | rfl <;> trivial
    | remove removal | keep removal => cases removal <;> trivial
    | backOff | unsaved | gone => trivial
  | endPass hstage => exact endPass_stage (P := Stage.Own) trivial trivial
  | _ => trivial

theorem FlushMove.mem_rows (hown : tab.stage.Own) {row : Entry} (hrow : row ∈ after) :
    row ∈ rows ∨ tab.stage.late row.id := by
  cases hmove with
  | attempt hstage hattempt =>
    rw [hstage] at hown ⊢
    cases attemptStep_move hattempt with
    | storeRef | backOff =>
      rcases mem_put.mp hrow with hold | rfl
      · exact .inl hold.1
      · exact .inr ⟨(hown _ rfl).symm, rfl⟩
    | remove removal => exact .inl (mem_remove.mp hrow).1
    | _ => exact .inl hrow
  | _ => exact .inl hrow

/-- `sendMessage` is called for the entry the flush holds, which is then beyond recall. -/
theorem FlushMove.called (h : .called id ∈ events) : tab.stage.holds id ∧ value.stage.late id := by
  cases hmove with
  | drop => simp at h
  | attempt hstage hattempt =>
    rename_i entry attempt rest anySent progress
    rw [hstage]
    cases attemptStep_move hattempt with
    | settle | deliver => simp at h
    | call | storeRef =>
      have hid : id = entry.id := by simpa using h
      exact ⟨hid.symm, hid.symm, rfl⟩
    | _ => exact absurd h not_mem_nil
  | _ => exact absurd h not_mem_nil

theorem FlushMove.quiet : .marked id ∉ events ∧ .answered id true ∉ events := by
  cases hmove with
  | drop => simp
  | attempt hstage hattempt =>
    cases attemptStep_move hattempt with
    | settle | deliver | call | storeRef => simp
    | _ => exact ⟨not_mem_nil, not_mem_nil⟩
  | _ => exact ⟨not_mem_nil, not_mem_nil⟩

end

/-- Every row of the entry shows an attempt. -/
def Attempted (rows : Rows) (id : Nat) : Prop := ∀ row ∈ rows, row.id = id → 1 ≤ row.attempts

theorem flushStep_attempting {entry : Entry} {attempt : Attempt} {rest : List Entry}
    {anySent : Bool} (h : flushStep clock rows tab outcome = some (value, after, events))
    (hstage : tab.stage = .attempting entry attempt rest anySent) :
    ∃ progress, AttemptMove rows entry attempt outcome progress after events ∧
      value = tab.proceed entry rest anySent progress := by
  simp only [flushStep, hstage] at h
  obtain ⟨⟨progress, found, noted⟩, hattempt, hvalue⟩ := Option.map_eq_some_iff.mp h
  cases hvalue
  exact ⟨progress, attemptStep_move hattempt, rfl⟩

theorem exists_of_late {stage : Stage} (h : stage.late id) :
    ∃ entry attempt rest anySent, stage = .attempting entry attempt rest anySent ∧
      entry.id = id ∧ attempt.early = false := by
  cases stage with
  | attempting entry attempt rest anySent => exact ⟨_, _, _, _, rfl, h⟩
  | _ => exact False.elim h

theorem holds_of_late {stage : Stage} (h : stage.late id) : stage.holds id := by
  obtain ⟨entry, attempt, rest, anySent, rfl, hid, _⟩ := exists_of_late h
  exact hid

/-- A flush that lets go of an entry has recorded the attempt or deleted the row. -/
theorem flushStep_late (h : flushStep clock rows tab outcome = some (value, after, events))
    (hown : tab.stage.Own)
    (hrecords : ∀ entry attempt rest anySent, tab.stage = .attempting entry attempt rest anySent →
      outcome = .fails → attempt.bookkeeping = false)
    (hlate : tab.stage.late id) : value.stage.late id ∨ Attempted after id := by
  obtain ⟨entry, attempt, rest, anySent, hstage, hid, hlate⟩ := exists_of_late hlate
  obtain ⟨progress, hmove, rfl⟩ := flushStep_attempting h hstage
  have hbook := hrecords entry attempt rest anySent hstage
  rw [hstage] at hown
  cases hmove with
  | wait hunexplained hkeeps hread =>
    refine .inl ⟨hid, hkeeps.resolve_left fun hearly => ?_⟩
    cases hlate.symm.trans hearly
  | settle removal | deliver | persist | call | storeRef => exact .inl ⟨hid, rfl⟩
  | giveUp hearly hprogress hthrew => cases hlate.symm.trans hearly
  | remove removal =>
    refine .inr fun row hrow hsame => ?_
    exact absurd (hsame.trans hid.symm) (mem_remove.mp hrow).2
  | keep removal => cases hbook rfl
  | backOff =>
    refine .inr fun row hrow hsame => ?_
    rcases mem_put.mp hrow with ⟨_, hother⟩ | rfl
    · exact absurd (hsame.trans (hid.symm.trans (hown _ rfl).symm)) hother
    · exact Nat.succ_le_succ (Nat.zero_le _)
  | unsaved hfails => cases hfails.symm.trans (hbook rfl)
  | gone habsent =>
    refine .inr fun row hrow hsame => ?_
    exact absurd (hsame.trans hid.symm) (find_eq_none_iff.mp habsent row hrow)

section

variable (hmove : FlushMove clock rows tab outcome value after events)
include hmove

theorem FlushMove.attempted (hown : tab.stage.Own) (hfree : ¬tab.stage.late id)
    (h : Attempted rows id) : Attempted after id := by
  intro row hrow hsame
  rcases hmove.mem_rows hown hrow with hold | hlate
  · exact h row hold hsame
  · exact absurd (hsame ▸ hlate) hfree

theorem FlushMove.marks :
    value.inbox = tab.inbox ∧ (value.cancelled = tab.cancelled ∨ ∃ entry rest anySent,
      tab.stage = .walking (entry :: rest) anySent ∧ value.stage.entries = rest ∧
        value.cancelled = tab.cancelled.filter (· ≠ entry.id)) := by
  cases hmove with
  | withdrawn hstage hmarked => exact ⟨rfl, .inr ⟨_, _, _, hstage, rfl, rfl⟩⟩
  | attempt hstage hattempt =>
    rename_i progress
    cases progress <;> exact ⟨rfl, .inl rfl⟩
  | endPass hstage =>
    unfold Tab.endPass
    dsimp only
    split <;> exact ⟨rfl, .inl rfl⟩
  | _ => exact ⟨rfl, .inl rfl⟩

end

end Flush

/-! ## 4. Every attempt is on record -/

/-- Every id in use has been given out, and an entry for which `sendMessage` was called is in the
    hands of a flush or shows the attempt in its row. -/
structure Books (state : State) : Prop where
  rowBound : ∀ row ∈ state.rows, row.id < state.nextId
  stageBound : ∀ tab id, (state.tabs tab).stage.pending id ∨ (state.tabs tab).stage.holds id →
    id < state.nextId
  calledBound : ∀ id, .called id ∈ state.log → id < state.nextId
  nodup : ∀ tab, ((state.tabs tab).stage.entries.map Entry.id).Nodup
  own : ∀ tab, (state.tabs tab).stage.Own
  recorded : ∀ id, .called id ∈ state.log →
    (∃ tab, (state.tabs tab).stage.late id) ∨ Attempted state.rows id

theorem Books.initial : Books .initial where
  rowBound := fun _ hrow => absurd hrow not_mem_nil
  stageBound := fun _ _ hnamed => hnamed.elim (absurd · not_mem_nil) False.elim
  calledBound := fun _ hcalled => absurd hcalled not_mem_nil
  nodup := fun _ => nodup_nil
  own := fun _ => trivial
  recorded := fun _ hcalled => absurd hcalled not_mem_nil

/-- A step in which no flush goes on: at most one starts, and at most a new row is written. -/
structure Quiet (state next : State) : Prop where
  stage : ∀ tab, (next.tabs tab).stage = (state.tabs tab).stage ∨
    ((state.tabs tab).stage = .idle ∧ (next.tabs tab).stage = .settling)
  called : ∀ id, .called id ∈ next.log ↔ .called id ∈ state.log
  nextId : state.nextId ≤ next.nextId
  rows : ∀ row ∈ next.rows, row ∈ state.rows ∨ (state.nextId ≤ row.id ∧ row.id < next.nextId)

namespace Quiet

variable {state next : State} {id : Nat}

section

variable (h : Quiet state next)
include h

/-- What does not tell a flush that starts from none is as it was. -/
theorem same {Value : Sort _} (f : Stage → Value) (hf : f .idle = f .settling) (tab : Nat) :
    f (next.tabs tab).stage = f (state.tabs tab).stage := by
  rcases h.stage tab with hsame | ⟨hidle, hsettling⟩
  · rw [hsame]
  · rw [hidle, hsettling, hf]

theorem holds (tab : Nat) : (next.tabs tab).stage.holds id ↔ (state.tabs tab).stage.holds id :=
  iff_of_eq (h.same (Stage.holds id) rfl tab)

theorem entries (tab : Nat) : (next.tabs tab).stage.entries = (state.tabs tab).stage.entries :=
  h.same Stage.entries rfl tab

end

theorem of_benign (h : BenignStep state next) : Quiet state next where
  stage := fun tab => (h.tabs tab).stage
  called := fun id => by rw [h.log]
  nextId := Nat.le_of_eq h.nextId.symm
  rows := fun row hrow => .inl (h.rows ▸ hrow)

/-- A step that leaves the stages, the queue and the supply of ids as they are. -/
theorem of_same (hstage : ∀ tab, (next.tabs tab).stage = (state.tabs tab).stage)
    (hcalled : ∀ id, .called id ∈ next.log ↔ .called id ∈ state.log)
    (hid : next.nextId = state.nextId) (hrows : ∀ row ∈ next.rows, row ∈ state.rows) :
    Quiet state next where
  stage := fun tab => .inl (hstage tab)
  called := hcalled
  nextId := Nat.le_of_eq hid.symm
  rows := fun row hrow => .inl (hrows row hrow)

theorem of_save (state : State) (entry : Entry) (call : Nat) (value : Option Call) :
    Quiet state ((state.save entry).setCall call value) where
  stage := fun tab => .inl rfl
  called := fun id => Iff.rfl
  nextId := Nat.le_succ _
  rows := fun row hrow => by
    rcases mem_put.mp hrow with hold | rfl
    · exact .inl hold.1
    · exact .inr ⟨Nat.le_refl _, Nat.lt_succ_self _⟩

end Quiet

variable {state next : State}

theorem ResumeMove.quiet {call tab : Nat} {ok : Bool} {stage : CallStage}
    (hmove : ResumeMove state call tab ok stage next) : Quiet state next := by
  cases hmove with
  | save entry => exact .of_save state entry call _
  | unsaved | look | undeleted | confirm =>
    exact .of_same (fun _ => rfl) (fun _ => Iff.rfl) rfl fun _ hrow => hrow
  | absent | spent | answer =>
    exact .of_same (fun _ => rfl) (fun _ => by simp) rfl fun _ hrow => hrow
  | kick =>
    have hbenign := BenignStep.runFlush (state.setCall call none) tab
    exact ⟨fun other => (hbenign.tabs other).stage, fun id => by rw [hbenign.log]; rfl,
      Nat.le_of_eq hbenign.nextId.symm, fun row hrow => .inl (hbenign.rows ▸ hrow)⟩
  | mark id =>
    refine .of_same (fun other => ?_) (fun _ => by simp [State.mark]) rfl fun _ hrow => hrow
    exact (post_stage _ tab other _).trans (setTab_stage other rfl)
  | delete id =>
    exact .of_same (fun _ => rfl) (fun _ => by simp) rfl fun _ hrow => (mem_remove.mp hrow).1
  | unmark id =>
    refine .of_same (fun other => ?_) (fun _ => by simp [State.unmark]) rfl fun _ hrow => hrow
    exact setTab_stage other rfl

theorem Books.quiet (hbooks : Books state) (h : Quiet state next) : Books next where
  rowBound := fun row hrow => by
    rcases h.rows row hrow with hold | ⟨_, hnew⟩
    · exact Nat.lt_of_lt_of_le (hbooks.rowBound row hold) h.nextId
    · exact hnew
  stageBound := fun tab id hnamed => by
    unfold pending at hnamed
    rw [h.entries tab, h.holds tab] at hnamed
    exact Nat.lt_of_lt_of_le (hbooks.stageBound tab id hnamed) h.nextId
  calledBound := fun id hcalled =>
    Nat.lt_of_lt_of_le (hbooks.calledBound id ((h.called id).mp hcalled)) h.nextId
  nodup := fun tab => h.entries tab ▸ hbooks.nodup tab
  own := fun tab => h.same Stage.Own rfl tab ▸ hbooks.own tab
  recorded := fun id hcalled => by
    have hcalled := (h.called id).mp hcalled
    rcases hbooks.recorded id hcalled with ⟨tab, hlate⟩ | hattempted
    · exact .inl ⟨tab, h.same (late id) rfl tab ▸ hlate⟩
    · refine .inr fun row hrow hsame => ?_
      rcases h.rows row hrow with hold | ⟨hnew, _⟩
      · exact hattempted row hold hsame
      · exact absurd (hbooks.calledBound id hcalled) (Nat.not_lt.mpr (hsame ▸ hnew))

theorem Books.reload {tab : Nat} (hbooks : Books state)
    (hfree : ∀ id, ¬(state.tabs tab).stage.holds id) (calls : Nat → Option Call) :
    Books { state.setTab tab .fresh with calls } := by
  refine ⟨hbooks.rowBound, ?_, hbooks.calledBound, ?_, ?_, fun id hcalled => ?_⟩
  · exact forall_setTab
      (p := fun _ value => ∀ id, value.stage.pending id ∨ value.stage.holds id → id < state.nextId)
      (fun _ hnamed => hnamed.elim (absurd · not_mem_nil) False.elim)
      fun other _ => hbooks.stageBound other
  · exact forall_setTab (p := fun _ value => (value.stage.entries.map Entry.id).Nodup)
      nodup_nil fun other _ => hbooks.nodup other
  · exact forall_setTab (p := fun _ value => value.stage.Own) trivial fun other _ =>
      hbooks.own other
  · rcases hbooks.recorded id hcalled with ⟨other, hlate⟩ | hattempted
    · have hne : other ≠ tab := fun hne => hfree id (hne ▸ holds_of_late hlate)
      exact .inl ⟨other, by rwa [setTab_other state _ hne]⟩
    · exact .inr hattempted

/-- The state after a step of the flush of one tab. -/
def State.flushed (state : State) (tab : Nat) (value : Tab) (rows : Rows) (events : List Event) :
    State :=
  { state.setTab tab value with rows, log := events ++ state.log }

section

variable {state : State} {tab other : Nat} {value : Tab} {rows : Rows} {events : List Event}
  {outcome : Outcome} {id : Nat}

theorem flushed_tab : (state.flushed tab value rows events).tabs tab = value :=
  update_self _ _ _

theorem flushed_other (hne : other ≠ tab) :
    (state.flushed tab value rows events).tabs other = state.tabs other :=
  update_of_ne hne _ _

theorem flushed_called : .called id ∈ (state.flushed tab value rows events).log ↔
    .called id ∈ events ∨ .called id ∈ state.log :=
  mem_append

variable (h : flushStep state.clock state.rows (state.tabs tab) outcome =
  some (value, rows, events))
include h

/-- What is held after a step of a flush was held before, or is the entry it takes up. -/
theorem flushed_holds (hholds : ((state.flushed tab value rows events).tabs other).stage.holds id) :
    (state.tabs other).stage.holds id ∨ (other = tab ∧ ∃ entry rest anySent,
      (state.tabs tab).stage = .walking (entry :: rest) anySent ∧ entry.id = id ∧
        id ∉ (state.tabs tab).cancelled) := by
  by_cases hne : other = tab
  · subst hne
    rw [flushed_tab] at hholds
    exact ((flushStep_move h).holds hholds).imp_right fun htaken => ⟨rfl, htaken⟩
  · rw [flushed_other hne] at hholds
    exact .inl hholds

theorem Books.flush (hbooks : Books state) (hok : undisturbed state (.flush tab outcome)) :
    Books (state.flushed tab value rows events) := by
  have hmove := flushStep_move h
  have hown := hbooks.own tab
  refine ⟨fun row hrow => ?_, ?_, fun id hcalled => ?_, ?_, ?_, fun id hcalled => ?_⟩
  · rcases hmove.mem_rows hown hrow with hold | hlate
    · exact hbooks.rowBound row hold
    · exact hbooks.stageBound tab row.id (.inr (holds_of_late hlate))
  · refine forall_setTab
      (p := fun _ value => ∀ id, value.stage.pending id ∨ value.stage.holds id → id < state.nextId)
      (fun id hnamed => ?_) fun other _ => hbooks.stageBound other
    rcases hnamed with hpending | hholds
    · rcases hmove.entries with hsub | ⟨_, hsub⟩
      · exact hbooks.stageBound tab id (.inl ((hsub.map Entry.id).subset hpending))
      · obtain ⟨row, hrow, rfl⟩ := mem_map.mp ((hsub.map Entry.id).subset hpending)
        exact hbooks.rowBound row hrow
    · rcases hmove.holds hholds with hold | ⟨entry, rest, anySent, hstage, rfl, _⟩
      · exact hbooks.stageBound tab id (.inr hold)
      · exact hbooks.stageBound tab entry.id (.inl (by rw [hstage]; exact mem_cons_self))
  · rcases flushed_called.mp hcalled with hnew | hold
    · exact hbooks.stageBound tab id (.inr (hmove.called hnew).1)
    · exact hbooks.calledBound id hold
  · refine forall_setTab (p := fun _ value => (value.stage.entries.map Entry.id).Nodup)
      ?_ fun other _ => hbooks.nodup other
    rcases hmove.entries with hsub | ⟨_, hsub⟩
    · exact (hbooks.nodup tab).sublist (hsub.map Entry.id)
    · exact state.rows.unique.sublist (hsub.map Entry.id)
  · exact forall_setTab (p := fun _ value => value.stage.Own) hmove.own fun other _ =>
      hbooks.own other
  · rcases flushed_called.mp hcalled with hnew | hold
    · exact .inl ⟨tab, by rw [flushed_tab]; exact (hmove.called hnew).2⟩
    · by_cases hlate : (state.tabs tab).stage.late id
      · refine (flushStep_late h hown hok.2.2 hlate).imp_left fun hstill => ⟨tab, ?_⟩
        rwa [flushed_tab]
      · rcases hbooks.recorded id hold with ⟨other, hother⟩ | hattempted
        · have hne : other ≠ tab := fun hne => hlate (hne ▸ hother)
          exact .inl ⟨other, by rwa [flushed_other hne]⟩
        · exact .inr (hmove.attempted hown hlate hattempted)

end

theorem Books.step {action : Action} (hbooks : Books state) (hok : undisturbed state action)
    (h : step state action = some next) : Books next := by
  cases step_move h with
  | benign hbenign => exact hbooks.quiet (.of_benign hbenign)
  | reload tab => exact hbooks.reload hok _
  | mark tab id inbox hinbox =>
    refine hbooks.quiet (.of_same (fun other => ?_) (fun _ => Iff.rfl) rfl fun _ hrow => hrow)
    exact setTab_stage other rfl
  | enqueue call tab entry hcall | cancel call tab id hcall =>
    exact hbooks.quiet (.of_same (fun _ => rfl) (fun _ => Iff.rfl) rfl fun _ hrow => hrow)
  | enqueueDurable call tab entry hcall => exact hbooks.quiet (.of_save state entry call _)
  | resume call running ok hcall hmove => exact hbooks.quiet hmove.quiet
  | flush tab outcome hflush => exact hbooks.flush hflush hok

/-! ## 5. What a cancellation has closed -/

/-- The call has marked the entry. -/
def CallStage.past (id : Nat) : CallStage → Prop
  | .deleting other => other = id
  | .deleted other _ => other = id
  | .mirroring other => other = id
  | _ => False

/-- `sendMessage` was not called for the entry, no flush holds it, and every flush that is to
    take it up will find it marked. -/
structure Sealed (state : State) (id : Nat) : Prop where
  issued : id < state.nextId
  uncalled : .called id ∉ state.log
  free : ∀ tab, ¬(state.tabs tab).stage.holds id
  marked : ∀ tab, (state.tabs tab).stage.pending id → (state.tabs tab).marks id

def Withdrawn (state : State) (id : Nat) : Prop := Sealed state id ∧ id ∉ state.rows.ids

/-- What a call that has marked the entry relies on.  As long as its own mark is there, nothing
    will send the entry. -/
def Safe (state : State) (id tab : Nat) : CallStage → Prop
  | .deleting _ => id ∈ (state.tabs tab).cancelled → Sealed state id
  | .deleted _ true => id ∈ (state.tabs tab).cancelled → Withdrawn state id
  | .mirroring _ => Withdrawn state id
  | _ => True

structure Cancels (id : Nat) (state : State) : Prop where
  logged : ∀ tab, (state.tabs tab).marks id → .marked id ∈ state.log
  underway : ∀ {call running}, state.calls call = some running → running.stage.past id →
    .marked id ∈ state.log ∧ .entryCancelled id ∉ (state.tabs running.tab).inbox ∧
      Safe state id running.tab running.stage
  once : ∀ {first second running other}, state.calls first = some running →
    state.calls second = some other → running.stage.past id → other.stage.past id → first = second
  answered : .answered id true ∈ state.log → Withdrawn state id ∧ .marked id ∈ state.log ∧
    ∀ call running, state.calls call = some running → ¬running.stage.past id

theorem Cancels.initial (id : Nat) : Cancels id .initial where
  logged := fun _ hmarks => by rcases hmarks with h | h <;> exact absurd h not_mem_nil
  underway := fun hcall _ => nomatch hcall
  once := fun hcall _ _ _ => nomatch hcall
  answered := fun h => absurd h not_mem_nil

section QuietCancels

variable {state next : State} {id : Nat} {tab call other : Nat} {stage : CallStage} {running : Call}

theorem Sealed.quiet (h : Sealed state id) (hquiet : Quiet state next)
    (hmarks : ∀ tab, (state.tabs tab).marks id → (next.tabs tab).marks id) : Sealed next id where
  issued := Nat.lt_of_lt_of_le h.issued hquiet.nextId
  uncalled := fun hcalled => h.uncalled ((hquiet.called id).mp hcalled)
  free := fun tab hholds => h.free tab ((hquiet.holds tab).mp hholds)
  marked := fun tab hpending => by
    unfold pending at hpending
    rw [hquiet.entries tab] at hpending
    exact hmarks tab (h.marked tab hpending)

theorem Withdrawn.quiet (h : Withdrawn state id) (hquiet : Quiet state next)
    (hmarks : ∀ tab, (state.tabs tab).marks id → (next.tabs tab).marks id) :
    Withdrawn next id := by
  refine ⟨h.1.quiet hquiet hmarks, fun hmem => ?_⟩
  obtain ⟨row, hrow, rfl⟩ := mem_map.mp hmem
  rcases hquiet.rows row hrow with hold | ⟨hnew, _⟩
  · exact h.2 (mem_map_of_mem hold)
  · exact absurd h.1.issued (Nat.not_lt.mpr hnew)

theorem Safe.imp (h : Safe state id tab stage)
    (hcancelled : id ∈ (next.tabs tab).cancelled → id ∈ (state.tabs tab).cancelled)
    (hsealed : ∀ other, stage = .deleting other → id ∈ (next.tabs tab).cancelled →
      Sealed state id → Sealed next id)
    (hwithdrawn : Withdrawn state id → Withdrawn next id) : Safe next id tab stage := by
  cases stage with
  | deleting other => exact fun hmarked => hsealed other rfl hmarked (h (hcancelled hmarked))
  | deleted other ok =>
    cases ok with
    | true => exact fun hmarked => hwithdrawn (h (hcancelled hmarked))
    | false => trivial
  | mirroring other => exact hwithdrawn h
  | _ => trivial

/-- A call that had marked the entry before has what it now relies on. -/
def Resumes (state next : State) (id call : Nat) (running : Call) : Prop :=
  Safe next id running.tab running.stage ∧
    ∃ old, state.calls call = some old ∧ old.tab = running.tab ∧ old.stage.past id

section

/-! A step that does not mark the entry: a withdrawal that is answered now was ready to be. -/

variable (h : Cancels id state) (hmarked : .marked id ∈ state.log → .marked id ∈ next.log)
  (hanswered : .answered id true ∈ next.log → .answered id true ∈ state.log ∨
    ∃ call tab, state.calls call = some ⟨tab, .mirroring id⟩ ∧ next.calls call = none)
include h hmarked hanswered

theorem Cancels.advance
    (htabs : ∀ tab, ((next.tabs tab).marks id → (state.tabs tab).marks id) ∧
      (.entryCancelled id ∈ (next.tabs tab).inbox → .entryCancelled id ∈ (state.tabs tab).inbox))
    (hcalls : ∀ {call running}, next.calls call = some running → running.stage.past id →
      Resumes state next id call running)
    (hwithdrawn : .answered id true ∈ next.log → Withdrawn state id → Withdrawn next id) :
    Cancels id next := by
  refine ⟨fun tab hmarks => hmarked (h.logged tab ((htabs tab).1 hmarks)), fun hcall hpast => ?_,
    fun hfirst hsecond hpast hother => ?_, fun hnow => ?_⟩
  · obtain ⟨hsafe, old, hold, htab, hbefore⟩ := hcalls hcall hpast
    obtain ⟨hlog, hfree, -⟩ := h.underway hold hbefore
    exact ⟨hmarked hlog, fun hmem => hfree (htab ▸ (htabs _).2 hmem), hsafe⟩
  · obtain ⟨-, _, hfirst, -, hpast⟩ := hcalls hfirst hpast
    obtain ⟨-, _, hsecond, -, hother⟩ := hcalls hsecond hother
    exact h.once hfirst hsecond hpast hother
  · rcases hanswered hnow with hbefore | ⟨call, tab, hmirroring, hover⟩
    · obtain ⟨hwas, hlog, hover⟩ := h.answered hbefore
      refine ⟨hwithdrawn hnow hwas, hmarked hlog, fun call running hcall hpast => ?_⟩
      obtain ⟨-, old, hold, -, hpast⟩ := hcalls hcall hpast
      exact hover call old hold hpast
    · obtain ⟨hlog, -, hwas⟩ := h.underway hmirroring rfl
      refine ⟨hwithdrawn hnow hwas, hmarked hlog, fun other running hcall hpast => ?_⟩
      obtain ⟨-, old, hold, -, hpast⟩ := hcalls hcall hpast
      cases h.once hmirroring hold rfl hpast
      cases hover.symm.trans hcall

/-- The steps in which no flush goes on and every mark of the entry stays where it is. -/
theorem Cancels.still (hquiet : Quiet state next)
    (htabs : ∀ tab, (id ∈ (next.tabs tab).cancelled ↔ id ∈ (state.tabs tab).cancelled) ∧
      (.entryCancelled id ∈ (next.tabs tab).inbox ↔ .entryCancelled id ∈ (state.tabs tab).inbox))
    (hcalls : ∀ {call running}, next.calls call = some running → running.stage.past id →
      state.calls call = some running ∨ Resumes state next id call running) :
    Cancels id next := by
  have hmarks : ∀ tab, (next.tabs tab).marks id ↔ (state.tabs tab).marks id := fun tab =>
    or_congr (htabs tab).1 (htabs tab).2
  have hwithdrawn : Withdrawn state id → Withdrawn next id := fun hwas =>
    hwas.quiet hquiet fun tab => (hmarks tab).mpr
  refine h.advance hmarked hanswered (fun tab => ⟨(hmarks tab).mp, (htabs tab).2.mp⟩)
    (fun {call running} hcall hpast => ?_) fun _ => hwithdrawn
  rcases hcalls hcall hpast with hsame | hmoved
  · refine ⟨(h.underway hsame hpast).2.2.imp (htabs running.tab).1.mp ?_ hwithdrawn,
      running, hsame, rfl, hpast⟩
    exact fun _ _ _ hsealed => hsealed.quiet hquiet fun tab => (hmarks tab).mpr
  · exact hmoved

theorem Cancels.inPlace (hquiet : Quiet state next) (htabs : next.tabs = state.tabs)
    (hcalls : ∀ {call running}, next.calls call = some running → running.stage.past id →
      state.calls call = some running ∨ Resumes state next id call running) :
    Cancels id next :=
  h.still hmarked hanswered hquiet (fun tab => by simp [htabs]) hcalls

end

variable {value : Option Call}

theorem setCall_cases (h : (state.setCall call value).calls other = some running) :
    state.calls other = some running ∨ (other = call ∧ value = some running) :=
  (update_eq_some_iff.mp h).symm.imp_left And.right

theorem setCall_idle (h : (state.setCall call value).calls other = some running)
    (hpast : running.stage.past id)
    (hidle : ∀ running, value = some running → ¬running.stage.past id) :
    state.calls other = some running :=
  (setCall_cases h).resolve_right fun ⟨_, hvalue⟩ => hidle running hvalue hpast

theorem setCall_past {before after : CallStage}
    (h : (state.setCall call (some ⟨tab, after⟩)).calls other = some running)
    (hpast : running.stage.past id) (hcall : state.calls call = some ⟨tab, before⟩)
    (hbefore : after.past id → before.past id ∧ Safe next id tab after) :
    state.calls other = some running ∨ Resumes state next id other running := by
  refine (setCall_cases h).imp_right fun ⟨hsame, hvalue⟩ => ?_
  cases hvalue
  subst hsame
  exact ⟨(hbefore hpast).2, _, hcall, rfl, (hbefore hpast).1⟩

end QuietCancels

section Calls

variable {state : State} {call tab id withdrawn : Nat}

theorem mark_tab : (state.mark call tab id).tabs tab =
    { state.tabs tab with cancelled := id :: (state.tabs tab).cancelled } := by
  simp [mark, setCall, post, setTab]

theorem mark_other {other : Nat} (hne : other ≠ tab) : (state.mark call tab id).tabs other =
    { state.tabs other with inbox := (state.tabs other).inbox ++ [.entryCancelled id] } := by
  simp [mark, setCall, post, setTab, hne]

/-- The call marks the entry: from here on every flush that is to take it up finds the mark. -/
theorem Cancels.mark (h : Cancels id state) (hbooks : Books state)
    (hnew : .marked id ∉ state.log) (hstored : ∃ row ∈ state.rows, row.id = id ∧ row.attempts = 0)
    (hfree : ∀ other, ¬(state.tabs other).stage.holds id) :
    Cancels id (state.mark call tab id) := by
  have hmove : ResumeMove state call tab true (.looked id true) _ := .mark id
  have hquiet : Quiet state (state.mark call tab id) := hmove.quiet
  have honly : ∀ {first running}, (state.mark call tab id).calls first = some running →
      running.stage.past id → first = call ∧ running = ⟨tab, .deleting id⟩ := by
    intro first running hfirst hpast
    rcases setCall_cases hfirst with hbefore | ⟨hsame, hvalue⟩
    · exact absurd (h.underway hbefore hpast).1 hnew
    · cases hvalue
      exact ⟨hsame, rfl⟩
  refine ⟨fun _ _ => mem_cons_self, fun hfirst hpast => ?_, fun hfirst hsecond hpast hpast' => ?_,
    fun hanswered => ?_⟩
  · obtain ⟨-, rfl⟩ := honly hfirst hpast
    refine ⟨mem_cons_self, fun hmem => hnew (h.logged tab (.inr ?_)), fun _ => ?_⟩
    · rwa [mark_tab] at hmem
    obtain ⟨row, hrow, rfl, hattempts⟩ := hstored
    refine ⟨hbooks.rowBound row hrow, fun hcalled => ?_,
      fun other hholds => hfree other ((hquiet.holds other).mp hholds), fun other _ => ?_⟩
    · -- a call of `sendMessage` would show in the row, or in the hands of a flush
      rcases hbooks.recorded row.id ((hquiet.called row.id).mp hcalled) with
        ⟨other, hlate⟩ | hattempted
      · exact hfree other (holds_of_late hlate)
      · have hone := hattempted row hrow rfl
        omega
    · by_cases hne : other = tab
      · subst hne
        exact .inl (by simp [mark_tab])
      · exact .inr (by simp [mark_other hne])
  · rw [(honly hfirst hpast).1, (honly hsecond hpast').1]
  · have hbefore : .answered id true ∈ state.log := by simpa [State.mark] using hanswered
    exact absurd (h.answered hbefore).2.1 hnew

theorem Cancels.mark_other (h : Cancels withdrawn state) (hne : withdrawn ≠ id) :
    Cancels withdrawn (state.mark call tab id) := by
  have hmove : ResumeMove state call tab true (.looked id true) _ := .mark id
  refine h.still (mem_cons_of_mem _) (fun hnow => .inl (by simpa [State.mark] using hnow))
    hmove.quiet (fun other => ?_) fun hother hpast => .inl (setCall_idle hother hpast ?_)
  · by_cases htab : other = tab
    · subst htab
      simp [mark_tab, hne]
    · simp [Outbox.mark_other htab, hne]
  · intro running hvalue hpast
    cases hvalue
    exact hne hpast.symm

theorem unmark_tabs (other : Nat) :
    ((state.unmark call tab id).tabs other).inbox = (state.tabs other).inbox ∧
      ∀ withdrawn, withdrawn ∈ ((state.unmark call tab id).tabs other).cancelled ↔
        withdrawn ∈ (state.tabs other).cancelled ∧ (other = tab → withdrawn ≠ id) := by
  by_cases hne : other = tab
  · subst hne
    simp [unmark, setCall, setTab]
  · simp [unmark, setCall, setTab, hne]

theorem Cancels.unmark (h : Cancels withdrawn state)
    (hcall : state.calls call = some ⟨tab, .deleted id false⟩) :
    Cancels withdrawn (state.unmark call tab id) := by
  have hmove : ResumeMove state call tab true (.deleted id false) _ := .unmark id
  have hanswered : .answered withdrawn true ∈ (state.unmark call tab id).log →
      .answered withdrawn true ∈ state.log := fun hnow => by simpa [State.unmark] using hnow
  have hcalls : ∀ {other running}, (state.unmark call tab id).calls other = some running →
      other ≠ call ∧ state.calls other = some running := by
    intro other running hother
    rcases update_eq_some_iff.mp hother with ⟨_, hnone⟩ | hbefore
    · cases hnone
    · exact hbefore
  by_cases hid : withdrawn = id
  · -- the call was the one that had marked the entry
    subst hid
    refine h.advance (mem_cons_of_mem _) (fun hnow => .inl (hanswered hnow)) (fun other => ?_)
      (fun hother hpast => ?_) fun hnow _ => ?_
    · rw [marks, marks, (unmark_tabs other).1, (unmark_tabs other).2]
      exact ⟨Or.imp_left And.left, fun hmem => hmem⟩
    · exact absurd (h.once (hcalls hother).2 hcall hpast rfl) (hcalls hother).1
    · exact absurd rfl ((h.answered (hanswered hnow)).2.2 call _ hcall)
  · refine h.still (mem_cons_of_mem _) (fun hnow => .inl (hanswered hnow)) hmove.quiet
      (fun other => ?_) fun hother _ => .inl (hcalls hother).2
    simp [(unmark_tabs other).1, (unmark_tabs other).2, hid]

section

variable (h : Cancels withdrawn state)
include h

theorem Cancels.resume {stage : CallStage} {ok : Bool} (hbooks : Books state)
    (hok : undisturbed state (.resume call ok)) (hcall : state.calls call = some ⟨tab, stage⟩)
    (hmove : ResumeMove state call tab ok stage next) : Cancels withdrawn next := by
  have hquiet := hmove.quiet
  cases hmove with
  | save | unsaved | look =>
    refine h.still (fun hlog => hlog) .inl hquiet (fun _ => ⟨Iff.rfl, Iff.rfl⟩)
      fun hother hpast => .inl ?_
    exact setCall_idle hother hpast fun _ hvalue => by cases hvalue; exact not_false
  | absent | spent =>
    refine h.inPlace (mem_cons_of_mem _) (fun hnow => .inl (by simpa using hnow)) hquiet rfl
      fun hother hpast => .inl ?_
    exact setCall_idle hother hpast fun _ hvalue => nomatch hvalue
  | kick =>
    have hbenign := BenignStep.runFlush (state.setCall call none) tab
    refine h.still (fun hlog => by rwa [hbenign.log])
      (fun hnow => .inl (by rwa [hbenign.log] at hnow)) hquiet (fun other => ⟨?_, ?_⟩)
      fun hother hpast => .inl ?_
    · rw [(hbenign.tabs other).cancelled]
      rfl
    · exact (hbenign.tabs other).inbox _
    rw [hbenign.calls] at hother
    exact setCall_idle hother hpast fun _ hvalue => nomatch hvalue
  | mark id =>
    obtain ⟨hnew, hstored, hfree⟩ := hok tab id hcall
    by_cases hid : withdrawn = id
    · subst hid
      exact h.mark hbooks hnew hstored hfree
    · exact h.mark_other hid
  | delete id =>
    refine h.inPlace (by simp) (fun hnow => .inl (by simpa using hnow)) hquiet rfl
      fun hother hpast => setCall_past hother hpast hcall fun hid => ⟨hid, fun hmarked => ?_⟩
    cases (hid : id = withdrawn)
    have hsealed := (h.underway hcall rfl).2.2 hmarked
    refine ⟨hsealed.quiet hquiet fun _ hmarks => hmarks, fun hmem => ?_⟩
    obtain ⟨row, hrow, hid⟩ := mem_map.mp hmem
    exact (mem_remove.mp hrow).2 hid
  | undeleted id =>
    exact h.inPlace (fun hlog => hlog) .inl hquiet rfl
      fun hother hpast => setCall_past hother hpast hcall fun hid => ⟨hid, trivial⟩
  | confirm id hmarked =>
    refine h.inPlace (fun hlog => hlog) .inl hquiet rfl
      fun hother hpast => setCall_past hother hpast hcall fun hid => ⟨hid, ?_⟩
    cases (hid : id = withdrawn)
    exact ((h.underway hcall rfl).2.2 hmarked).quiet hquiet fun _ hmarks => hmarks
  | unmark id => exact h.unmark hcall
  | answer id =>
    refine h.inPlace (mem_cons_of_mem _) (fun hnow => ?_) hquiet rfl fun hother hpast => .inl ?_
    · rcases mem_cons.mp hnow with hnew | hold
      · have hid : withdrawn = id := (Event.answered.inj hnew).1
        exact .inr ⟨call, tab, hid ▸ hcall, update_self _ _ _⟩
      · exact .inl hold
    · exact setCall_idle hother hpast fun _ hvalue => nomatch hvalue

/-- A mark that arrives from another tab was on its way, and is of no call of this tab. -/
theorem Cancels.deliver {inbox : List TabOutboxEvent}
    (hinbox : (state.tabs tab).inbox = .entryCancelled id :: inbox) :
    Cancels withdrawn (state.setTab tab { state.tabs tab with
      inbox
      cancelled := id :: (state.tabs tab).cancelled }) := by
  have hquiet : Quiet state (state.setTab tab { state.tabs tab with
      inbox
      cancelled := id :: (state.tabs tab).cancelled }) :=
    .of_same (fun other => setTab_stage other rfl) (fun _ => Iff.rfl) rfl fun _ hrow => hrow
  have hmarks : ∀ other, ((state.setTab tab { state.tabs tab with
      inbox
      cancelled := id :: (state.tabs tab).cancelled }).tabs other).marks withdrawn ↔
      (state.tabs other).marks withdrawn := by
    refine forall_setTab (p := fun other value =>
      value.marks withdrawn ↔ (state.tabs other).marks withdrawn) ?_ fun _ _ => Iff.rfl
    simp only [marks, hinbox, mem_cons, TabOutboxEvent.entryCancelled.injEq]
    tauto
  have hwithdrawn := fun hwas : Withdrawn state withdrawn =>
    hwas.quiet hquiet fun other => (hmarks other).mpr
  refine h.advance (fun hlog => hlog) .inl (fun other => ⟨(hmarks other).mp, ?_⟩)
    (fun {call running} hcall hpast => ⟨?_, running, hcall, rfl, hpast⟩) fun _ => hwithdrawn
  · refine forall_setTab (p := fun other value => .entryCancelled withdrawn ∈ value.inbox →
      .entryCancelled withdrawn ∈ (state.tabs other).inbox) (fun hmem => ?_) (fun _ _ hmem => hmem)
      other
    rw [hinbox]
    exact mem_cons_of_mem _ hmem
  · obtain ⟨-, habsent, hsafe⟩ := h.underway hcall hpast
    refine hsafe.imp ?_ (fun _ _ _ hsealed => hsealed.quiet hquiet fun other => (hmarks other).mpr)
      hwithdrawn
    revert habsent
    refine forall_setTab (p := fun other value => .entryCancelled withdrawn ∉
      (state.tabs other).inbox → withdrawn ∈ value.cancelled →
        withdrawn ∈ (state.tabs other).cancelled) (fun habsent hmem => ?_) (fun _ _ _ hmem => hmem)
      running.tab
    rw [hinbox] at habsent
    exact (mem_cons.mp hmem).resolve_left fun hid => habsent (hid ▸ mem_cons_self)

theorem Cancels.reload :
    Cancels withdrawn { state.setTab tab .fresh with
      calls := fun call => (state.calls call).filter fun running => running.tab ≠ tab } := by
  have hsealed : Sealed state withdrawn → Sealed { state.setTab tab .fresh with
      calls := fun call => (state.calls call).filter fun running => running.tab ≠ tab }
      withdrawn := by
    intro hsealed
    refine ⟨hsealed.issued, hsealed.uncalled, ?_, ?_⟩
    · exact forall_setTab (p := fun _ value => ¬value.stage.holds withdrawn) not_false
        fun other _ => hsealed.free other
    · exact forall_setTab (p := fun _ value => value.stage.pending withdrawn →
        value.marks withdrawn) (fun hpending => absurd hpending not_mem_nil)
        fun other _ => hsealed.marked other
  have hwithdrawn := fun hwas : Withdrawn state withdrawn => And.imp_left hsealed hwas
  refine h.advance (fun hlog => hlog) .inl (fun other => ?_) (fun {call running} hcall hpast => ?_)
    fun _ => hwithdrawn
  · refine forall_setTab (p := fun other value => (value.marks withdrawn →
      (state.tabs other).marks withdrawn) ∧ (.entryCancelled withdrawn ∈ value.inbox →
      .entryCancelled withdrawn ∈ (state.tabs other).inbox)) ?_
      (fun _ _ => ⟨fun hmarks => hmarks, fun hmem => hmem⟩) other
    simp [marks, Tab.fresh]
  · obtain ⟨hcall, htab⟩ := Option.filter_eq_some_iff.mp hcall
    refine ⟨(h.underway hcall hpast).2.2.imp (fun hmem => ?_) (fun _ _ _ => hsealed) hwithdrawn,
      running, hcall, rfl, hpast⟩
    rwa [setTab_other state _ (by simpa using htab)] at hmem

end

end Calls

section FlushCancels

variable {state : State} {tab id : Nat} {value : Tab} {rows : Rows} {events : List Event}
  {outcome : Outcome}
  (h : flushStep state.clock state.rows (state.tabs tab) outcome = some (value, rows, events))
  (hbooks : Books state)
include h hbooks

/-- A flush does not get hold of an entry that is closed to it. -/
theorem Sealed.flush (hsealed : Sealed state id) (hok : undisturbed state (.flush tab outcome))
    (hread : (state.tabs tab).stage = .reading → id ∈ state.rows.ids →
      (state.tabs tab).marks id) : Sealed (state.flushed tab value rows events) id := by
  obtain ⟨_, hstart, _⟩ := hok
  have hmove := flushStep_move h
  refine ⟨hsealed.issued, fun hcalled => ?_, fun other hholds => ?_, fun other hpending => ?_⟩
  · rcases flushed_called.mp hcalled with hnew | hold
    · exact hsealed.free tab (hmove.called hnew).1
    · exact hsealed.uncalled hold
  · rcases flushed_holds h hholds with hold | ⟨rfl, entry, rest, anySent, hstage, rfl, hunmarked⟩
    · exact hsealed.free other hold
    · -- it is taken up unmarked although it was to be found marked
      have hmarks := hsealed.marked other (by rw [hstage]; exact mem_cons_self)
      rcases hmarks with hmarked | hinbox
      · exact hunmarked hmarked
      · exact hstart entry rest anySent hstage hinbox
  · by_cases hne : other = tab
    · subst hne
      rw [flushed_tab] at hpending ⊢
      have hmarks : (state.tabs other).marks id := by
        rcases hmove.entries with hsub | ⟨hstage, hsub⟩
        · exact hsealed.marked other ((hsub.map Entry.id).subset hpending)
        · exact hread hstage ((hsub.map Entry.id).subset hpending)
      unfold marks at hmarks ⊢
      rw [hmove.marks.1]
      refine hmarks.imp_left fun hmem => ?_
      rcases hmove.marks.2 with hsame | ⟨entry, rest, anySent, hstage, hrest, hfilter⟩
      · rwa [hsame]
      · -- the mark that was used up is of an entry the pass does not have twice
        have hnodup := hbooks.nodup other
        rw [hstage] at hnodup
        unfold pending at hpending
        rw [hrest] at hpending
        rw [hfilter]
        refine mem_filter.mpr ⟨hmem, ?_⟩
        have hne : id ≠ entry.id := fun hid =>
          (nodup_cons.mp hnodup).1 (hid ▸ hpending)
        simpa using hne
    · rw [flushed_other hne] at hpending ⊢
      exact hsealed.marked other hpending

theorem Withdrawn.flush (hwas : Withdrawn state id) (hok : undisturbed state (.flush tab outcome)) :
    Withdrawn (state.flushed tab value rows events) id := by
  refine ⟨hwas.1.flush h hbooks hok fun _ hmem => absurd hmem hwas.2, fun hmem => ?_⟩
  obtain ⟨row, hrow, rfl⟩ := mem_map.mp hmem
  rcases (flushStep_move h).mem_rows (hbooks.own tab) hrow with hold | hlate
  · exact hwas.2 (mem_map_of_mem hold)
  · exact hwas.1.free tab (holds_of_late hlate)

theorem Cancels.flush (hcancels : Cancels id state) (hok : undisturbed state (.flush tab outcome)) :
    Cancels id (state.flushed tab value rows events) := by
  have hmove := flushStep_move h
  have htabs : ∀ other, ((state.flushed tab value rows events).tabs other).cancelled ⊆
      (state.tabs other).cancelled ∧
      ((state.flushed tab value rows events).tabs other).inbox = (state.tabs other).inbox := by
    refine forall_setTab (p := fun other value => value.cancelled ⊆ (state.tabs other).cancelled ∧
      value.inbox = (state.tabs other).inbox) ⟨?_, hmove.marks.1⟩
      fun _ _ => ⟨List.Subset.refl _, rfl⟩
    rcases hmove.marks.2 with hsame | ⟨_, _, _, _, _, hfilter⟩
    · exact hsame ▸ List.Subset.refl _
    · exact hfilter ▸ filter_subset_self _
  refine hcancels.advance (mem_append_right _)
    (fun hnow => .inl ((mem_append.mp hnow).resolve_left hmove.quiet.2)) (fun other => ?_)
    (fun {call running} hcall hpast => ⟨?_, running, hcall, rfl, hpast⟩)
    fun _ hwas => hwas.flush h hbooks hok
  · rw [marks, marks, (htabs other).2]
    exact ⟨Or.imp_left fun hmem => (htabs other).1 hmem, fun hmem => hmem⟩
  · refine (hcancels.underway hcall hpast).2.2.imp (fun hmem => (htabs running.tab).1 hmem)
      (fun other hstage hmem hsealed => ?_) fun hwas => hwas.flush h hbooks hok
    refine hsealed.flush h hbooks hok fun hreading hstored => ?_
    by_cases hne : running.tab = tab
    · exact .inl (hne ▸ (htabs running.tab).1 hmem)
    · refine hok.1 hreading call running.tab id ?_ hne hstored
      have hid : other = id := by rwa [hstage] at hpast
      rw [← hid, ← hstage]
      exact hcall

end FlushCancels

theorem Cancels.step {action : Action} {id : Nat} (h : Cancels id state) (hbooks : Books state)
    (hok : undisturbed state action) (hstep : step state action = some next) :
    Cancels id next := by
  cases step_move hstep with
  | benign hbenign =>
    exact h.still (fun hlog => by rwa [hbenign.log])
      (fun hnow => .inl (by rwa [hbenign.log] at hnow)) (.of_benign hbenign)
      (fun other => ⟨by rw [(hbenign.tabs other).cancelled], (hbenign.tabs other).inbox id⟩)
      fun hcall _ => .inl (by rwa [hbenign.calls] at hcall)
  | reload tab => exact h.reload
  | mark tab id inbox hinbox => exact h.deliver hinbox
  | enqueue call tab _ hcall | cancel call tab _ hcall =>
    refine h.inPlace (fun hlog => hlog) .inl
      (.of_same (fun _ => rfl) (fun _ => Iff.rfl) rfl fun _ hrow => hrow) rfl
      fun hother hpast => .inl ?_
    exact setCall_idle hother hpast fun _ hvalue => by cases hvalue; exact not_false
  | enqueueDurable call tab entry hcall =>
    refine h.still (fun hlog => hlog) .inl (.of_save state entry call _)
      (fun _ => ⟨Iff.rfl, Iff.rfl⟩) fun hother hpast => .inl ?_
    exact setCall_idle hother hpast fun _ hvalue => by cases hvalue; exact not_false
  | resume call running ok hcall hmove => exact h.resume hbooks hok hcall hmove
  | flush tab outcome hflush => exact h.flush hflush hbooks hok

/-! ## 6. Every run -/

theorem cancels_run {actions : List Action} (hok : EachStep step undisturbed .initial actions)
    (hrun : run step .initial actions = some state) (id : Nat) :
    Books state ∧ Cancels id state := by
  have hkeep : ∀ {state action next}, Books state ∧ Cancels id state → undisturbed state action →
      step state action = some next → Books next ∧ Cancels id next :=
    fun hinv hok hstep => ⟨hinv.1.step hok hstep, hinv.2.step hinv.1 hok hstep⟩
  exact run_invariant hkeep ⟨Books.initial, Cancels.initial id⟩ hok hrun

/-- **A withdrawal is final.**  In every run whose steps all meet the condition, an entry for
    which `cancelPending` answered `true` has not been given to `sendMessage`, neither before
    the answer nor in any state reached later. -/
theorem cancellation_final {actions : List Action} {state : State} {id : Nat}
    (hok : EachStep step undisturbed .initial actions)
    (hrun : run step .initial actions = some state) (hanswered : .answered id true ∈ state.log) :
    .called id ∉ state.log :=
  ((cancels_run hok hrun id).2.answered hanswered).1.1.uncalled

def text : Entry := ⟨0, false, .text, false, 0, none, none⟩

/-- Two messages, the second withdrawn while the pass is at the first; then the pass walks on. -/
def withdrawnInTime : List Action :=
  [.elect 0 true, .enqueue 0 0 text true, .enqueue 1 0 text true, .resume 0 true, .flush 0 .ok,
    .flush 0 .ok, .flush 0 .ok, .flush 0 .ok, .cancel 2 0 1, .resume 2 true, .resume 2 true,
    .resume 2 true, .resume 2 true, .resume 2 true, .flush 0 .ok, .flush 0 .ok, .flush 0 .ok,
    .flush 0 .ok, .flush 0 .ok, .flush 0 .ok, .flush 0 .ok, .flush 0 .ok, .flush 0 .ok]

/-- No row is being deleted, and no mark is on its way to the tab 0. -/
structure OneTab (state : State) : Prop where
  calls : ∀ call other id, state.calls call ≠ some ⟨other, .deleting id⟩
  inbox : (state.tabs 0).inbox = []

theorem OneTab.undisturbed (h : OneTab state) : undisturbed state (.flush 0 .ok) := by
  exact ⟨fun _ call other id hcall => absurd hcall (h.calls call other id),
    fun _ _ _ _ => by simp [h.inbox], fun _ _ _ _ _ hfails => by cases hfails⟩

theorem OneTab.flushes (h : OneTab state) (count : Nat) :
    EachStep step Outbox.undisturbed state (replicate count (.flush 0 .ok)) := by
  induction count generalizing state with
  | zero => trivial
  | succ count ih =>
    refine ⟨h.undisturbed, fun next hstep => ih ?_⟩
    obtain ⟨⟨value, rows, events⟩, hflush, rfl⟩ := Option.map_eq_some_iff.mp hstep
    exact ⟨h.calls, (flushStep_move hflush).marks.1.trans h.inbox⟩

theorem withdrawnInTime_undisturbed : EachStep step undisturbed .initial withdrawnInTime := by
  refine .cons trivial rfl (.cons trivial rfl (.cons trivial rfl (.cons ?_ rfl ?_)))
  · intro tab id hcall
    cases hcall
  have hcalls : ∀ call other id,
      update (update (update (fun _ => none) 0 (some ⟨0, .queued⟩)) 1 (some ⟨0, .queued⟩)) 0 none
        call ≠ some (Call.mk other (.deleting id)) := by
    rintro (_ | _ | call) other id h <;> cases h
  refine .cons (OneTab.undisturbed ⟨hcalls, rfl⟩) rfl ?_
  refine .cons (OneTab.undisturbed ⟨hcalls, rfl⟩) rfl ?_
  refine .cons (OneTab.undisturbed ⟨hcalls, rfl⟩) rfl ?_
  refine .cons (OneTab.undisturbed ⟨hcalls, rfl⟩) rfl ?_
  refine .cons trivial rfl (.cons (fun _ _ hcall => by cases hcall) rfl (.cons ?_ rfl ?_))
  · -- the mark: the second row is stored, and the pass holds the first
    intro tab id hcall
    cases hcall
    refine ⟨not_mem_nil, ⟨_, mem_put.mpr (.inr rfl), rfl, rfl⟩, ?_⟩
    rintro (_ | other) hholds
    · cases hholds
    · exact hholds
  refine .cons (fun _ _ hcall => by cases hcall) rfl ?_
  refine .cons (fun _ _ hcall => by cases hcall) rfl ?_
  refine .cons (fun _ _ hcall => by cases hcall) rfl ?_
  refine OneTab.flushes ⟨?_, rfl⟩ 9
  rintro (_ | _ | _ | call) other id h <;> cases h

theorem cancellation_final_withdrawnInTime :
    ∃ state, run step .initial withdrawnInTime = some state ∧ .answered 1 true ∈ state.log ∧
      .called 0 ∈ state.log ∧ .called 1 ∉ state.log := by
  have hlog : ∃ state ∈ run step .initial withdrawnInTime,
      .answered 1 true ∈ state.log ∧ .called 0 ∈ state.log := by
    decide
  obtain ⟨state, hrun, hanswered, hcalled⟩ := hlog
  exact ⟨state, hrun, hanswered, hcalled,
    cancellation_final withdrawnInTime_undisturbed hrun hanswered⟩

/-- A cancellation that completes between the check of the mark and the send: it answers
    `true`, and `sendMessage` is called all the same. -/
theorem withdrawn_and_sent :
    ∃ state, run step .initial
        [.elect 0 true, .enqueue 0 0 text true, .resume 0 true, .flush 0 .ok, .flush 0 .ok,
          .flush 0 .ok, .flush 0 .ok, .flush 0 .ok, .cancel 1 0 0, .resume 1 true, .resume 1 true,
          .resume 1 true, .resume 1 true, .resume 1 true, .flush 0 .ok] = some state ∧
      .answered 0 true ∈ state.log ∧ .called 0 ∈ state.log := by
  decide

end MinesApp.Outbox
