import MinesApp.HistoryEscalation
import MinesApp.OrderedMap

/-!
# One ask in flight

Every trigger goes through `reconcileGroup`, which reserves the window of the group before its
first `await`.  `reconcileAllGroups` and `retryDeferredReconciliations` call it as any ordinary
trigger does, without exclusions.  `noteCoverageShortfall` takes the window back and asks whoever
has not stated a coverage that falls short.

An ask is in flight from its reservation to its end.  One that excludes stated coverages and is
told of excluded members online puts nobody back: it ends as it does on `noPeerOnline 0`.
-/

namespace MinesApp.HistoryAsks

open TransitionSystem HistoryEscalation List Option

structure Asks (Member : Type) extends State Member where
  coverageStated : OrderedMap Member Nat

inductive Call (Member : Type) where
  | reconcile (now : Nat) (sendProbe : Bool)
  | shortfall (sender : Member) (since coveredFrom now : Nat) (sendProbe : Bool)
  | other (action : Action Member)

variable {Member : Type}

def Asks.start : Asks Member := ⟨⟨none, none, [], [], [], []⟩, .empty⟩

def inFlight (state : State Member) : Nat := state.asks.length + state.probes.length

/-- The ask in flight, if there is one, holds the window. -/
def Single (state : State Member) : Prop :=
  inFlight state = 0 ∨ inFlight state = 1 ∧ state.asked ≠ none

theorem Single.reconcile {state : State Member} {now : Nat} (h : Single state)
    (hwindow : inFlight state = 0 ∨ state.asked.all (now < ·) = true) (sendProbe : Bool)
    (exclude : List Member) : Single (reconcileGroup state now sendProbe exclude) := by
  have hsame : ∀ chased, { state with chased }.recentlyAsked now = state.recentlyAsked now :=
    fun _ => rfl
  cases hrecent : state.recentlyAsked now with
  | true =>
    by_cases hnone : exclude = [] <;>
      simpa [Single, inFlight, reconcileGroup, hnone, hsame, hrecent] using h
  | false =>
    have hidle : inFlight state = 0 := by
      refine h.resolve_right fun ⟨hone, hheld⟩ => ?_
      have hlate := hwindow.resolve_left (by omega)
      obtain ⟨ends, hends⟩ := ne_none_iff_exists'.mp hheld
      simp [State.recentlyAsked, hends] at hrecent hlate
      omega
    obtain ⟨hasks, hprobes⟩ : state.asks = [] ∧ state.probes = [] := by
      simpa [inFlight] using hidle
    unfold Single inFlight reconcileGroup
    cases sendProbe <;> by_cases hnone : exclude = [] <;>
      simp only [hnone, if_true, if_false, hsame, hrecent] <;> simp [hasks, hprobes]

variable [DecidableEq Member] (toLowerCase : Member → Member)

def noteCoverageShortfall (state : Asks Member) (sender : Member)
    (since coveredFrom now : Nat) (sendProbe : Bool) : Asks Member :=
  let coverageStated := state.coverageStated.set (toLowerCase sender) coveredFrom
  if coveredFrom ≤ since then { state with coverageStated }
  else
    let shortOfUs := (coverageStated.entries.filter fun stated => since < stated.2).map Prod.fst
    { reconcileGroup { state.toState with asked := none } now sendProbe shortOfUs with
      coverageStated }

def step (state : Asks Member) : Call Member → Option (Asks Member)
  | .reconcile now sendProbe =>
    some { state with toState := reconcileGroup state.toState now sendProbe [] }
  | .shortfall sender since coveredFrom now sendProbe =>
    some (noteCoverageShortfall toLowerCase state sender since coveredFrom now sendProbe)
  | .other action =>
    (HistoryEscalation.step toLowerCase state.toState action).map fun next =>
      { state with toState := next }

/-- Asks finish within their windows.  While one is in flight no coverage that falls short is
    stated, and no trigger escalates past a member that an earlier ask reached. -/
def apart (state : Asks Member) (call : Call Member) : Bool :=
  inFlight state.toState = 0 ||
    match call with
    | .reconcile now _ => state.asked.all (now < ·)
    | .shortfall _ since coveredFrom _ _ => coveredFrom ≤ since
    | .other (.escalate now _) => state.asked.all (now < ·) && state.electedFor = none
    | .other _ => true

variable {toLowerCase} {state : State Member} {next : Asks Member} (h : Single state)
include h

theorem Single.escalate {now : Nat} (hok : inFlight state = 0 ∨
      state.asked.all (now < ·) = true ∧ state.electedFor = none) (sendProbe : Bool) :
    Single (escalateReconciliation state now sendProbe) := by
  unfold escalateReconciliation
  split
  · split
    · exact h
    next elected helected =>
      split
      · exact h
      · have hidle := hok.resolve_right fun hreached => by cases helected.symm.trans hreached.2
        have hsingle : Single { state with
          chased := elected :: state.chased, asked := none, electedFor := none } := .inl hidle
        exact hsingle.reconcile (.inl hidle) sendProbe _
  · exact h.reconcile (hok.imp_right And.left) sendProbe []

/-- An ask that is answered ends, or goes on to its probe within the same window. -/
theorem Single.answer {exclude : List Member} (hask : exclude ∈ state.asks)
    (outcome : Outcome Member) : Single ({ state with asks := state.asks.erase exclude }.answered
      toLowerCase exclude outcome) := by
  have hpos := length_pos_of_mem hask
  obtain ⟨hone, hheld⟩ := h.resolve_left (by unfold inFlight; omega)
  have hended : (state.asks.erase exclude).length + state.probes.length = 0 := by
    rw [inFlight] at hone
    rw [length_erase_of_mem hask]
    omega
  cases outcome with
  | threw | noPeerOnline excludedOnline => exact .inl hended
  | elects target =>
    simp only [State.answered]
    split
    · exact .inl hended
    · exact .inr ⟨congrArg (· + 1) hended, hheld⟩

theorem Single.probe {target : Option Member} (hprobe : target ∈ state.probes) :
    state.asks.length + (state.probes.erase target).length = 0 := by
  have hpos := length_pos_of_mem hprobe
  obtain ⟨hone, _⟩ := h.resolve_left (by unfold inFlight; omega)
  rw [inFlight] at hone
  rw [length_erase_of_mem hprobe]
  omega

omit h

theorem Single.step {state : Asks Member} {call : Call Member} (h : Single state.toState)
    (hok : apart state call = true) (hstep : step toLowerCase state call = some next) :
    Single next.toState := by
  simp only [apart, Bool.or_eq_true, decide_eq_true_eq] at hok
  cases call with
  | reconcile now sendProbe =>
    cases hstep
    exact h.reconcile hok sendProbe []
  | shortfall sender since coveredFrom now sendProbe =>
    cases hstep
    simp only [noteCoverageShortfall]
    split
    · exact h
    next hshort =>
      have hidle := hok.resolve_right (by simpa using hshort)
      have hsingle : Single { state.toState with asked := none } := .inl hidle
      exact hsingle.reconcile (.inl hidle) sendProbe _
  | other action =>
    obtain ⟨after, hafter, rfl⟩ := map_eq_some_iff.mp hstep
    cases action with
    | escalate now sendProbe =>
      cases hafter
      exact h.escalate (by simpa using hok) sendProbe
    | answer exclude outcome =>
      obtain ⟨hask, rfl⟩ := ite_some_none_eq_some.mp hafter
      exact h.answer hask outcome
    | probe target sent =>
      obtain ⟨hprobe, hafter⟩ := ite_none_right_eq_some.mp hafter
      cases sent with
      | true | false =>
        cases hafter
        exact .inl (h.probe hprobe)

/-- **One ask in flight.**  While asks finish within their windows, no shortfall is stated during
    an ask, and no trigger escalates during one past a member that an earlier ask reached, there
    is at most one ask in flight. -/
theorem one_ask_in_flight (toLowerCase : Member → Member) (calls : List (Call Member))
    {final : Asks Member}
    (hok : EachStep (step toLowerCase) (fun state call => apart state call = true) .start calls)
    (hrun : run (step toLowerCase) .start calls = some final) : inFlight final.toState ≤ 1 := by
  have hsingle : Single final.toState :=
    run_invariant (fun h hok => Single.step h hok) (.inl rfl) hok hrun
  rcases hsingle with hidle | ⟨hone, _⟩ <;> omega

/-- The first ask reaches a member, which states that it falls short; a trigger comes too soon. -/
def walked : List (Call Nat) :=
  [.reconcile 0 true, .other (.answer [] (.elects (some 0))), .other (.probe (some 0) true),
    .shortfall 0 5 9 1 true, .reconcile 2 true]

theorem one_ask_in_flight_walked :
    ∃ final, run (step id) .start walked = some final ∧ inFlight final.toState ≤ 1 :=
  ⟨_, rfl, one_ask_in_flight id walked (by decide) rfl⟩

/-- A member that an earlier ask reached states its coverage while the next ask waits for the
    server: the window of that ask is taken back, and a second one begins. -/
theorem two_asks_in_flight :
    (run (step id) (.start : Asks Nat) [.reconcile 0 true,
      .other (.answer [] (.elects (some 0))), .other (.probe (some 0) true),
      .reconcile PROBE_COALESCE_MS true, .shortfall 0 5 9 (PROBE_COALESCE_MS + 1) true]).map
      (fun state => inFlight state.toState) = some 2 := rfl

end MinesApp.HistoryAsks
