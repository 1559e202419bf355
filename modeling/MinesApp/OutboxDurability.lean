import MinesApp.Outbox

/-!
# The outbox loses nothing

A row of the durable queue is deleted by a flush that has come to a verdict on its entry (the
send succeeded, the group was deleted or the device evicted, the entry is a channel's), and by
`cancelPending`.  Every other way out of `flushOne`, an exception or a reload of the page
included, leaves the row where the next pass reads it.
-/

namespace MinesApp.Outbox

open TransitionSystem UniqueTable List Event

/-! ## 1. What explains a deletion -/

/-- The log has what a deletion of the row needs: a verdict of the flusher, or a withdrawal. -/
def Released (log : List Event) (id : Nat) : Prop :=
  .settled id .sent ∈ log ∨ (∃ cause, .settled id (.failed cause) ∈ log) ∨
    .settled id .channel ∈ log ∨ .withdrawn id ∈ log

variable {log events : List Event} {after rows : Rows} {id : Nat} {attempt : Attempt}
  {outcome : Outcome} {state next : State} {entry : Entry} {progress : Progress} {clock : Nat}
  {tab value : Tab}

section

variable {after : List Event}

theorem Released.mono (h : Released log id) (hlog : log ⊆ after) : Released after id := by
  rcases h with hsent | ⟨cause, hfailed⟩ | hchannel | hwithdrawn
  · exact .inl (hlog hsent)
  · exact .inr (.inl ⟨cause, hlog hfailed⟩)
  · exact .inr (.inr (.inl (hlog hchannel)))
  · exact .inr (.inr (.inr (hlog hwithdrawn)))

theorem Released.of_settled {removal : Removal}
    (h : .settled id removal ∈ log) : Released log id := by
  cases removal with
  | sent => exact .inl h
  | failed cause => exact .inr (.inl ⟨cause, h⟩)
  | channel => exact .inr (.inr (.inl h))

/-- An attempt about to delete the row has its verdict in the log. -/
def Attempt.Accounted (log : List Event) (id : Nat) : Attempt → Prop
  | .persisting => .settled id .sent ∈ log
  | .removing removal => .settled id removal ∈ log
  | _ => True

def Stage.Accounted (log : List Event) : Stage → Prop
  | .attempting entry attempt _ _ => attempt.Accounted log entry.id
  | _ => True

theorem Attempt.Accounted.mono
    (h : attempt.Accounted log id) (hlog : log ⊆ after) : attempt.Accounted after id := by
  cases attempt with
  | persisting | removing removal => exact hlog h
  | _ => trivial

theorem Stage.Accounted.mono {stage : Stage} (h : stage.Accounted log)
    (hlog : log ⊆ after) : stage.Accounted after := by
  cases stage with
  | attempting entry attempt rest anySent => exact Attempt.Accounted.mono h hlog
  | _ => trivial

end

theorem accounted_of_unexplained (h : attempt.explained = false) : attempt.Accounted log id := by
  cases attempt with
  | persisting | removing removal => cases h
  | _ => trivial

/-! ## 2. One step -/

theorem ids_put (rows : Rows) (entry : Entry) (h : id ∈ rows.ids) :
    id ∈ Rows.ids (rows.put entry) := by
  obtain ⟨row, hrow, rfl⟩ := mem_map.mp h
  by_cases hsame : row.id = entry.id
  · exact mem_map.mpr ⟨entry, Table.mem_put.mpr (.inr rfl), hsame.symm⟩
  · exact mem_map.mpr ⟨row, Table.mem_put.mpr (.inl ⟨hrow, hsame⟩), rfl⟩

theorem ids_remove (rows : Rows) (gone : Nat) (h : id ∈ rows.ids) :
    id ∈ Rows.ids (rows.remove gone) ∨ id = gone := by
  obtain ⟨row, hrow, rfl⟩ := mem_map.mp h
  by_cases hsame : row.id = gone
  · exact .inr hsame
  · exact .inl (mem_map.mpr ⟨row, Table.mem_remove.mpr ⟨hrow, hsame⟩, rfl⟩)

section

variable (hmove : AttemptMove rows entry attempt outcome progress after events)
include hmove

theorem AttemptMove.accounted {next : Attempt}
    (h : attempt.Accounted log entry.id) (hnext : progress = .next next) :
    next.Accounted (events ++ log) entry.id := by
  cases hmove with
  | wait hunexplained hlate hread =>
    cases hnext
    exact accounted_of_unexplained hunexplained
  | settle removal | deliver =>
    cases hnext
    exact mem_cons_self
  | persist =>
    cases hnext
    exact h
  | call | storeRef =>
    cases hnext
    trivial
  | giveUp hearly hprogress hthrew => rcases hprogress with rfl | rfl <;> cases hnext
  | remove removal | keep removal => cases removal <;> cases hnext
  | backOff | unsaved hbook | gone habsent => cases hnext

theorem AttemptMove.keeps (h : attempt.Accounted log entry.id) (hid : id ∈ rows.ids) :
    id ∈ after.ids ∨ Released (events ++ log) id := by
  cases hmove with
  | storeRef | backOff => exact .inl (ids_put rows _ hid)
  | remove removal =>
    rcases ids_remove rows entry.id hid with hkept | rfl
    · exact .inl hkept
    · exact .inr (Released.of_settled h)
  | _ => exact .inl hid

end

section

variable (hmove : FlushMove clock rows tab outcome value after events)
include hmove

theorem FlushMove.accounted
    (h : tab.stage.Accounted log) : value.stage.Accounted (events ++ log) := by
  cases hmove with
  | drop hstage hunmarked => exact mem_cons_self
  | take hstage hunmarked => trivial
  | attempt hstage hattempt =>
    rename_i entry attempt rest anySent progress
    rw [hstage] at h
    cases progress with
    | next next => exact (attemptStep_move hattempt).accounted h rfl
    | _ => trivial
  | endPass hstage =>
    unfold Tab.endPass
    dsimp only
    split <;> trivial
  | _ => trivial

theorem FlushMove.keeps (h : tab.stage.Accounted log)
    (hid : id ∈ rows.ids) : id ∈ after.ids ∨ Released (events ++ log) id := by
  cases hmove with
  | attempt hstage hattempt =>
    rw [hstage] at h
    exact (attemptStep_move hattempt).keeps h hid
  | _ => exact .inl hid

end

/-- The invariant: what is about to be deleted has its verdict. -/
def Accounted (state : State) : Prop := ∀ tab, (state.tabs tab).stage.Accounted state.log

/-- A row stays, or the log tells why it went; and the log only grows. -/
def Keeps (state next : State) : Prop :=
  state.log ⊆ next.log ∧ ∀ id ∈ state.rows.ids, id ∈ next.rows.ids ∨ Released next.log id

theorem Keeps.refl (state : State) : Keeps state state :=
  ⟨List.Subset.refl _, fun _ hid => .inl hid⟩

theorem Keeps.trans {between : State} (hfirst : Keeps state between)
    (hsecond : Keeps between next) : Keeps state next := by
  refine ⟨List.Subset.trans hfirst.1 hsecond.1, fun id hid => ?_⟩
  rcases hfirst.2 id hid with hkept | hreleased
  · exact hsecond.2 id hkept
  · exact .inr (hreleased.mono hsecond.1)

theorem Accounted.of_stage (h : Accounted state) (hlog : state.log ⊆ next.log)
    (hstage : ∀ tab, (next.tabs tab).stage = (state.tabs tab).stage ∨
      (next.tabs tab).stage = .settling) : Accounted next := by
  intro tab
  rcases hstage tab with hsame | hsettling
  · rw [hsame]
    exact (h tab).mono hlog
  · rw [hsettling]
    trivial

theorem ResumeMove.accounted {call tab : Nat} {ok : Bool}
    {stage : CallStage} (hmove : ResumeMove state call tab ok stage next)
    (hinv : Accounted state) : Accounted next ∧ Keeps state next := by
  cases hmove with
  | save entry =>
    refine ⟨hinv, List.Subset.refl _, fun id hid => .inl ?_⟩
    exact ids_put _ _ hid
  | unsaved entry | look id found | undeleted id | confirm id hmarked => exact ⟨hinv, Keeps.refl _⟩
  | kick =>
    have hbenign := BenignStep.runFlush (state.setCall call none) tab
    have hlog : state.log ⊆ ((state.setCall call none).runFlush tab).log :=
      hbenign.log ▸ List.Subset.refl _
    refine ⟨hinv.of_stage hlog fun other => ?_, hlog, fun id hid => .inl ?_⟩
    · exact (hbenign.tabs other).stage.imp_right And.right
    · exact hbenign.rows ▸ hid
  | absent id | spent id hspent =>
    have hlog := subset_cons_self (answered id false) state.log
    exact ⟨hinv.of_stage hlog fun other => .inl rfl, hlog, fun id hid => .inl hid⟩
  | mark id =>
    have hlog := subset_cons_self (marked id) state.log
    refine ⟨hinv.of_stage hlog fun other => .inl ?_, hlog, fun id hid => .inl hid⟩
    exact (post_stage _ tab other _).trans (setTab_stage other rfl)
  | delete id =>
    have hlog := subset_cons_self (withdrawn id) state.log
    refine ⟨hinv.of_stage hlog fun other => .inl rfl, hlog, fun other hother => ?_⟩
    rcases ids_remove state.rows id hother with hkept | rfl
    · exact .inl hkept
    · exact .inr (.inr (.inr (.inr mem_cons_self)))
  | unmark id =>
    have hlog := subset_cons_self (answered id false) state.log
    refine ⟨hinv.of_stage hlog fun other => .inl ?_, hlog, fun id hid => .inl hid⟩
    exact setTab_stage other rfl
  | answer id =>
    have hlog := subset_cons_self
      (answered id (decide ((state.tabs tab).inFlight ≠ some id))) state.log
    exact ⟨hinv.of_stage hlog fun other => .inl rfl, hlog, fun id hid => .inl hid⟩

theorem accounted_step {action : Action} (hinv : Accounted state)
    (h : step state action = some next) : Accounted next ∧ Keeps state next := by
  cases step_move h with
  | benign hbenign =>
    have hlog : state.log ⊆ next.log := hbenign.log ▸ List.Subset.refl _
    refine ⟨hinv.of_stage hlog fun tab => ?_, hlog, fun id hid => .inl (hbenign.rows ▸ hid)⟩
    exact (hbenign.tabs tab).stage.imp_right And.right
  | reload tab =>
    refine ⟨fun other => ?_, List.Subset.refl _, fun id hid => .inl hid⟩
    by_cases hsame : other = tab
    · simp [hsame, Tab.fresh, Stage.Accounted]
    · rw [setTab_other state _ hsame]
      exact hinv other
  | mark tab id inbox hinbox =>
    refine ⟨hinv.of_stage (List.Subset.refl _) fun other => .inl ?_, List.Subset.refl _,
      fun id hid => .inl hid⟩
    exact setTab_stage other rfl
  | enqueue call tab entry hcall | cancel call tab id hcall => exact ⟨hinv, Keeps.refl _⟩
  | enqueueDurable call tab entry hcall =>
    exact ⟨hinv, List.Subset.refl _, fun id hid => .inl (ids_put _ _ hid)⟩
  | resume call running ok hcall hmove => exact hmove.accounted hinv
  | flush tab outcome hflush =>
    rename_i value rows events
    have hmove := flushStep_move hflush
    refine ⟨fun other => ?_, subset_append_right _ _, fun id hid => ?_⟩
    · by_cases hsame : other = tab
      · subst hsame
        simpa using hmove.accounted (hinv other)
      · simpa [hsame] using (hinv other).mono (subset_append_right events _)
    · exact hmove.keeps (hinv tab) hid

/-! ## 3. Every run -/

theorem accounted_run {actions : List Action}
    (hrun : run step .initial actions = some state) : Accounted state := by
  have hinit : Accounted .initial := fun _ => trivial
  exact invariant_of_run (fun hinv hstep => (accounted_step hinv hstep).1) hinit hrun

/-- **The outbox loses nothing.**  In every run, a row of the queue that is there at some
    point and not later was deleted after its send succeeded, after its failure was found to
    be permanent, as a channel's entry, or by `cancelPending`.  A row that stays is read by
    every pass that reads the queue. -/
theorem outbox_loses_nothing {earlier later : State} {before after : List Action}
    (hbefore : run step .initial before = some earlier)
    (hafter : run step earlier after = some later) {id : Nat} (hid : id ∈ earlier.rows.ids) :
    .settled id .sent ∈ later.log ∨ (∃ cause, .settled id (.failed cause) ∈ later.log) ∨
      .settled id .channel ∈ later.log ∨ .withdrawn id ∈ later.log ∨
      (id ∈ later.rows.ids ∧ ∀ tab, (later.tabs tab).stage = .reading →
          ∃ next entries, step later (.flush tab .ok) = some next ∧
            (next.tabs tab).stage = .decoding entries ∧ id ∈ entries.map Entry.id) := by
  have hkeeps : Keeps earlier later :=
    run_relation Keeps Keeps.refl Keeps.trans (fun hinv _ hstep => (accounted_step hinv hstep).1)
      (fun hinv _ hstep => (accounted_step hinv hstep).2) (accounted_run hbefore)
      (eachStep_anyStep _ _) hafter
  rcases hkeeps.2 id hid with hkept | hsent | hfailed | hchannel | hwithdrawn
  · refine .inr (.inr (.inr (.inr ⟨hkept, fun tab hreading => ?_⟩)))
    refine ⟨_, later.rows.rows, by simp [step, flushStep, hreading]; rfl, ?_, hkept⟩
    simp
  · exact .inl hsent
  · exact .inr (.inl hfailed)
  · exact .inr (.inr (.inl hchannel))
  · exact .inr (.inr (.inr (.inl hwithdrawn)))

/-- A text that the leader tab is about to send. -/
def sendingText : List Action :=
  [.elect 0 true, .enqueue 0 0 ⟨0, false, .text, false, 0, none, none⟩ true, .resume 0 true,
    .flush 0 .ok, .flush 0 .ok, .flush 0 .ok, .flush 0 .ok, .flush 0 .ok, .flush 0 .ok]

/-- A send that fails for no known reason leaves the row, with a deadline for the next. -/
theorem outbox_loses_nothing_transient :
    ∃ earlier later, run step .initial sendingText = some earlier ∧
      run step earlier [.flush 0 (.refused .unknown), .flush 0 .ok, .flush 0 .ok] = some later ∧
      later.rows.rows = [⟨0, false, .text, false, 1, some 0, some 2000⟩] ∧
      (.settled 0 .sent ∈ later.log ∨ (∃ cause, .settled 0 (.failed cause) ∈ later.log) ∨
        .settled 0 .channel ∈ later.log ∨ .withdrawn 0 ∈ later.log ∨
        (0 ∈ later.rows.ids ∧ ∀ tab, (later.tabs tab).stage = .reading →
            ∃ next entries, step later (.flush tab .ok) = some next ∧
              (next.tabs tab).stage = .decoding entries ∧ 0 ∈ entries.map Entry.id)) := by
  obtain ⟨earlier, hbefore⟩ : ∃ earlier, run step .initial sendingText = some earlier := ⟨_, rfl⟩
  have hruns : (run step .initial (sendingText ++
      [.flush 0 (.refused .unknown), .flush 0 .ok, .flush 0 .ok])).map
        (fun later => later.rows.rows) = some [⟨0, false, .text, false, 1, some 0, some 2000⟩] := by
    decide
  obtain ⟨later, hlater, hrows⟩ := Option.map_eq_some_iff.mp hruns
  obtain ⟨_, hsame, hafter⟩ := run_append_eq_some.mp hlater
  cases hbefore.symm.trans hsame
  have hid : 0 ∈ earlier.rows.ids := by
    cases hbefore
    decide
  exact ⟨earlier, later, hbefore, hafter, hrows, outbox_loses_nothing hbefore hafter hid⟩

end MinesApp.Outbox
