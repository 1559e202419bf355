import Mathlib.Logic.Function.Basic

/-!
# Runs of an executable step function

The subsystems of this development that interleave several callers are all
given the same way: a state, a type of actions, and an executable step which
answers `none` to an action it cannot take.  An interleaving is a list of
actions, so a statement about every interleaving quantifies over the lists that
`run` accepts.

Two rules carry every safety result below: `run_invariant` for a property that
each step keeps, and `run_relation` for a relation between an earlier and a
later state of one run.  Both take a predicate `ok` on steps, so that a result
that holds only while some step is not taken is stated over the runs that never
take it (`EachStep`); a result without such a condition uses `anyStep`, and
`invariant_of_run` in place of the first rule.
-/

namespace MinesApp.TransitionSystem

open Function

variable {State Action : Type}

/-- Play the actions in order, stopping with `none` at one the step refuses. -/
def run (step : State → Action → Option State) : State → List Action → Option State
  | state, [] => some state
  | state, action :: rest => (step state action).bind fun next => run step next rest

/-- Every action of the list meets `ok` in the state it is taken from. -/
def EachStep (step : State → Action → Option State) (ok : State → Action → Prop) :
    State → List Action → Prop
  | _, [] => True
  | state, action :: rest =>
    ok state action ∧ ∀ next, step state action = some next → EachStep step ok next rest

/-- The condition on steps that excludes none. -/
def anyStep (_ : State) (_ : Action) : Prop := True

variable {step : State → Action → Option State} {ok : State → Action → Prop}

@[simp] theorem run_nil (state : State) : run step state [] = some state := rfl

theorem run_cons_eq_some {state final : State} {action : Action} {rest : List Action} :
    run step state (action :: rest) = some final ↔
      ∃ next, step state action = some next ∧ run step next rest = some final := by
  simp only [run, Option.bind_eq_some_iff]

theorem run_append_eq_some {state final : State} {first second : List Action} :
    run step state (first ++ second) = some final ↔
      ∃ middle, run step state first = some middle ∧ run step middle second = some final := by
  induction first generalizing state with
  | nil => simp
  | cons action rest ih =>
    rw [List.cons_append, run_cons_eq_some]
    constructor
    · rintro ⟨next, hstep, hrest⟩
      obtain ⟨middle, hmiddle, hfinal⟩ := ih.mp hrest
      exact ⟨middle, run_cons_eq_some.mpr ⟨next, hstep, hmiddle⟩, hfinal⟩
    · rintro ⟨middle, hmiddle, hfinal⟩
      obtain ⟨next, hstep, hrest⟩ := run_cons_eq_some.mp hmiddle
      exact ⟨next, hstep, ih.mpr ⟨middle, hrest, hfinal⟩⟩

theorem eachStep_anyStep (state : State) (actions : List Action) :
    EachStep step anyStep state actions := by
  induction actions generalizing state with
  | nil => trivial
  | cons action rest ih => exact ⟨trivial, fun next _ => ih next⟩

theorem eachStep_of_forall_mem {P : Action → Prop} {actions : List Action}
    (h : ∀ action ∈ actions, P action) (state : State) :
    EachStep step (fun _ action => P action) state actions := by
  induction actions generalizing state with
  | nil => trivial
  | cons action rest ih =>
    refine ⟨h action List.mem_cons_self, ?_⟩
    intro next _
    apply ih
    intro other hother
    exact h other (List.mem_cons_of_mem action hother)

theorem EachStep.cons {state next : State} {action : Action} {rest : List Action}
    (hok : ok state action) (hstep : step state action = some next)
    (hrest : EachStep step ok next rest) : EachStep step ok state (action :: rest) := by
  refine ⟨hok, fun other hother => ?_⟩
  cases hstep.symm.trans hother
  exact hrest

theorem eachStep_append {state middle : State} {first second : List Action}
    (h : EachStep step ok state (first ++ second)) (hrun : run step state first = some middle) :
    EachStep step ok state first ∧ EachStep step ok middle second := by
  induction first generalizing state with
  | nil =>
    cases hrun
    exact ⟨trivial, h⟩
  | cons action rest ih =>
    obtain ⟨next, hstep, hrest⟩ := run_cons_eq_some.mp hrun
    obtain ⟨hok, htail⟩ := h
    obtain ⟨hfirst, hsecond⟩ := ih (htail next hstep) hrest
    exact ⟨.cons hok hstep hfirst, hsecond⟩

/-- A condition on steps that can be evaluated can be checked along a whole run. -/
instance EachStep.decidable [∀ state action, Decidable (ok state action)] :
    ∀ state actions, Decidable (EachStep step ok state actions)
  | _, [] => isTrue trivial
  | state, action :: rest =>
    match hstep : step state action with
    | none =>
      decidable_of_iff (ok state action)
        ⟨fun h => ⟨h, fun next hnext => by cases hstep.symm.trans hnext⟩, fun h => h.1⟩
    | some next =>
      have := EachStep.decidable next rest
      decidable_of_iff (ok state action ∧ EachStep step ok next rest)
        ⟨fun h => ⟨h.1, fun other hother => by
            cases hstep.symm.trans hother
            exact h.2⟩,
         fun h => ⟨h.1, h.2 next hstep⟩⟩

/-- **Invariant rule.**  A property of the first state that every step meeting
    `ok` keeps holds in the last state of a run whose steps all meet `ok`. -/
theorem run_invariant {Inv : State → Prop}
    (hstep : ∀ {state action next}, Inv state → ok state action →
      step state action = some next → Inv next) {state final : State} {actions : List Action}
    (hinit : Inv state) (hok : EachStep step ok state actions)
    (hrun : run step state actions = some final) : Inv final := by
  induction actions generalizing state with
  | nil =>
    cases hrun
    exact hinit
  | cons action rest ih =>
    obtain ⟨next, hnext, hrest⟩ := run_cons_eq_some.mp hrun
    exact ih (hstep hinit hok.1 hnext) (hok.2 next hnext) hrest

theorem invariant_of_run {Inv : State → Prop}
    (hstep : ∀ {state action next}, Inv state → step state action = some next → Inv next)
    {state final : State} {actions : List Action} (hinit : Inv state)
    (hrun : run step state actions = some final) : Inv final :=
  run_invariant (fun h _ => hstep h) hinit (eachStep_anyStep state actions) hrun

/-- What every step meeting `ok` establishes, whatever held before it, holds in the last state if
    it does in the first. -/
theorem run_established {Post : State → Prop}
    (hstep : ∀ {state action next}, ok state action → step state action = some next → Post next)
    {state final : State} {actions : List Action} (hinit : Post state)
    (hok : EachStep step ok state actions) (hrun : run step state actions = some final) :
    Post final :=
  run_invariant (fun _ => hstep) hinit hok hrun

/-- **Relation rule.**  A reflexive and transitive relation that every step
    establishes between the states around it, under an invariant, relates the
    ends of every run. -/
theorem run_relation {Inv : State → Prop} (Rel : State → State → Prop)
    (hrefl : ∀ state, Rel state state)
    (htrans : ∀ {first second third}, Rel first second → Rel second third → Rel first third)
    (hinv : ∀ {state action next}, Inv state → ok state action →
      step state action = some next → Inv next)
    (hrel : ∀ {state action next}, Inv state → ok state action →
      step state action = some next → Rel state next) {state final : State} {actions : List Action}
    (hinit : Inv state) (hok : EachStep step ok state actions)
    (hrun : run step state actions = some final) : Rel state final := by
  induction actions generalizing state with
  | nil =>
    cases hrun
    exact hrefl _
  | cons action rest ih =>
    obtain ⟨next, hnext, hrest⟩ := run_cons_eq_some.mp hrun
    exact htrans (hrel hinit hok.1 hnext) (ih (hinv hinit hok.1 hnext) (hok.2 next hnext) hrest)

/-! ### A table of callers

Callers are numbered and looked up in a function, so that any number of them can
take part.  `Function.update` is the only write; the first lemma splits a lookup
after it into the caller that moved and all the others.  The other two are the
rules for invariants of each caller and of each two. -/

section

variable {Key Entry : Type} [DecidableEq Key]

theorem update_eq_some_iff {table : Key → Option Entry} {who other : Key} {value : Option Entry}
    {entry : Entry} :
    update table who value other = some entry ↔
      (other = who ∧ value = some entry) ∨ (other ≠ who ∧ table other = some entry) := by
  by_cases hsame : other = who
  · subst hsame
    simp
  · simp [hsame]

variable {table next : Key → Option Entry} {who : Key} {written : Entry}

/-- **Rule for each caller.** -/
theorem forall_update {P : Key → Entry → Prop}
    (hnext : next = update table who (some written)) (hwritten : P who written)
    (hothers : ∀ other entry, other ≠ who → table other = some entry → P other entry) :
    ∀ other entry, next other = some entry → P other entry := by
  subst hnext
  intro other entry hother
  rcases update_eq_some_iff.mp hother with ⟨rfl, hsame⟩ | ⟨hne, hold⟩
  · cases hsame
    exact hwritten
  · exact hothers other entry hne hold

/-- **Rule for each two callers.**  No two of them are related, and the one that moves is
    related to none but itself. -/
theorem unique_update {R : Entry → Entry → Prop} (hnext : next = update table who (some written))
    (hsymm : ∀ {entry entry'}, R entry entry' → R entry' entry)
    (hothers : ∀ first second entry entry', table first = some entry →
      table second = some entry' → R entry entry' → first = second)
    (hwritten : ∀ other entry, table other = some entry → R written entry → other = who) :
    ∀ first second entry entry', next first = some entry → next second = some entry' →
      R entry entry' → first = second := by
  subst hnext
  intro first second entry entry' hfirst hsecond hrelated
  rcases update_eq_some_iff.mp hfirst with ⟨rfl, hnew⟩ | ⟨-, hold⟩
  · rcases update_eq_some_iff.mp hsecond with ⟨rfl, -⟩ | ⟨-, hold'⟩
    · rfl
    · cases hnew
      exact (hwritten second entry' hold' hrelated).symm
  · rcases update_eq_some_iff.mp hsecond with ⟨rfl, hnew⟩ | ⟨-, hold'⟩
    · cases hnew
      exact hwritten first entry hold (hsymm hrelated)
    · exact hothers first second entry entry' hold hold' hrelated

end

end MinesApp.TransitionSystem
