import Mathlib.Data.List.Nodup
import Mathlib.Data.List.Perm.Subperm
import MinesApp.TransitionSystem

/-!
# Electing one responder after another

A device that holds frames it cannot read does not wait for the responder it has asked:
`escalateReconciliation` excludes that member and has the server elect another.  `chased` holds
the members excluded so far, `electedFor` the member the last probe reached, and `asked` the end
of the window in which a further ask is a duplicate.  An ask that ends without a probe takes its
window back, and one that finds only excluded members online clears `chased` too; the next call
is then an ordinary first ask, which excludes nobody.

The model is of one group, and calls may overlap: `asks` wait for the server, each with whom it
excludes, and `probes` are being sent, each to the member elected.  `elections` records the
members the server has named.
-/

namespace MinesApp.HistoryEscalation

open TransitionSystem List

def PROBE_COALESCE_MS : Nat := 30000

inductive Outcome (Member : Type) where
  | threw
  | noPeerOnline (excludedOnline : Nat)
  | elects (target : Option Member)

structure State (Member : Type) where
  asked : Option Nat
  electedFor : Option Member
  chased : List Member
  asks : List (List Member)
  probes : List (Option Member)
  elections : List Member

inductive Action (Member : Type) where
  | escalate (now : Nat) (sendProbe : Bool)
  | answer (exclude : List Member) (outcome : Outcome Member)
  | probe (target : Option Member) (sent : Bool)

variable {Member : Type}

def State.recentlyAsked (state : State Member) (now : Nat) : Bool := state.asked.any (now < ·)

variable [DecidableEq Member]

section

variable (state : State Member) (now : Nat) (sendProbe : Bool)

/-- `reconcileGroup` as far as its first `await`. -/
def reconcileGroup (exclude : List Member) : State Member :=
  let state := if exclude = [] then { state with chased := [] } else state
  if state.recentlyAsked now then state
  else if sendProbe then
    { state with asked := some (now + PROBE_COALESCE_MS), asks := exclude :: state.asks }
  else { state with asked := none }

def escalateReconciliation : State Member :=
  if state.recentlyAsked now then
    match state.electedFor with
    | none => state
    | some elected =>
      if elected ∈ state.chased then state
      else
        let walked := elected :: state.chased
        reconcileGroup { state with chased := walked, asked := none, electedFor := none } now
          sendProbe walked
  else reconcileGroup state now sendProbe []

end

/-- The first ask of a group for which nothing is under way and no member is reached. -/
def State.start (opened : Nat) (chased : List Member) : State Member :=
  escalateReconciliation ⟨none, none, chased, [], [], []⟩ opened true

variable (toLowerCase : Member → Member)

def excludes (exclude : List Member) (member : Member) : Bool :=
  exclude.any fun k => toLowerCase k = toLowerCase member

/-- `reconcileGroup` from the answer of the server to the sending of the probe. -/
def State.answered (state : State Member) (exclude : List Member) : Outcome Member → State Member
  | .threw => { state with asked := none }
  | .noPeerOnline excludedOnline =>
    -- whoever is excluded here has stayed silent, and is put back
    let chased := if 0 < excludedOnline ∧ exclude ≠ [] then [] else state.chased
    { state with asked := none, chased }
  | .elects target =>
    let state := { state with elections := target.toList ++ state.elections }
    if exclude ≠ [] ∧ target.any (excludes toLowerCase exclude) then { state with asked := none }
    else { state with probes := target :: state.probes }

def step (state : State Member) : Action Member → Option (State Member)
  | .escalate now sendProbe => some (escalateReconciliation state now sendProbe)
  | .answer exclude outcome =>
    if exclude ∈ state.asks then
      some ({ state with asks := state.asks.erase exclude }.answered toLowerCase exclude outcome)
    else none
  | .probe target sent =>
    if target ∈ state.probes then
      let state := { state with probes := state.probes.erase target }
      if sent then some { state with electedFor := target <|> state.electedFor }
      else some { state with asked := none }
    else none

/-- The calls are made within one window, the server names a member that is not excluded, and no
    ask ends without its probe. -/
def undisturbed (members : List Member) (opened : Nat) : Action Member → Bool
  | .escalate now sendProbe => opened ≤ now && now < opened + PROBE_COALESCE_MS && sendProbe
  | .answer exclude (.elects (some target)) =>
    target ∈ members && !excludes toLowerCase exclude target
  | .answer _ _ => false
  | .probe _ sent => sent

/-- A walk under way: there is one ask at most, none while a member is reached, and whoever was
    elected is excluded, reached, or about to be. -/
structure Walking (members : List Member) (opened : Nat) (state : State Member) : Prop where
  asked : ∃ ends, state.asked = some ends ∧ opened + PROBE_COALESCE_MS ≤ ends
  members : state.elections ⊆ members
  nodup : (state.elections.map toLowerCase).Nodup
  single : (state.asks = [] ∧ state.probes = []) ∨ (state.electedFor = none ∧
    ((state.asks = [state.chased] ∧ state.probes = []) ∨
      (state.asks = [] ∧ ∃ target, state.probes = [target])))
  walked : ∀ member ∈ state.elections, excludes toLowerCase state.chased member = true ∨
    state.electedFor = some member ∨ some member ∈ state.probes

section

variable {toLowerCase} {members : List Member} {opened : Nat} {state next : State Member}
  (h : Walking toLowerCase members opened state)
include h

theorem Walking.escalate {now : Nat} (hearly : opened ≤ now)
    (hlate : now < opened + PROBE_COALESCE_MS) :
    Walking toLowerCase members opened (escalateReconciliation state now true) := by
  obtain ⟨ends, hasked, hends⟩ := h.asked
  have hrecent : state.recentlyAsked now = true := by
    rw [State.recentlyAsked, hasked]
    exact decide_eq_true (Nat.lt_of_lt_of_le hlate hends)
  rw [escalateReconciliation, if_pos hrecent]
  cases hfor : state.electedFor with
  | none => exact h
  | some elected =>
    dsimp only
    split
    · exact h
    rcases h.single with ⟨hasks, hprobes⟩ | ⟨hnone, _⟩
    · refine ⟨⟨_, rfl, Nat.add_le_add_right hearly _⟩, h.members, h.nodup,
        .inr ⟨rfl, .inl ⟨congrArg (cons _) hasks, hprobes⟩⟩, fun member hmember => .inl ?_⟩
      refine Bool.or_eq_true_iff.mpr ?_
      rcases h.walked member hmember with hexcluded | hsame | hprobe
      · exact .inr hexcluded
      · cases hfor.symm.trans hsame
        exact .inl (decide_eq_true rfl)
      · exact absurd hprobe (hprobes ▸ not_mem_nil)
    · cases hfor.symm.trans hnone

theorem Walking.answer {exclude : List Member} {target : Member} (hask : exclude ∈ state.asks)
    (hmember : target ∈ members) (hfree : excludes toLowerCase exclude target = false) :
    Walking toLowerCase members opened ({ state with asks := state.asks.erase exclude }.answered
      toLowerCase exclude (.elects (some target))) := by
  rcases h.single with ⟨hasks, _⟩ | ⟨hnone, ⟨hasks, hprobes⟩ | ⟨hasks, _⟩⟩
  · exact absurd hask (hasks ▸ not_mem_nil)
  · cases mem_singleton.mp (hasks ▸ hask)
    have hwalked : ∀ member ∈ state.elections, excludes toLowerCase state.chased member = true := by
      simpa [hnone, hprobes] using h.walked
    have hnew : toLowerCase target ∉ state.elections.map toLowerCase := by
      intro hmem
      obtain ⟨other, hother, hsame⟩ := mem_map.mp hmem
      have hexcluded := hwalked other hother
      rw [excludes, hsame] at hexcluded
      cases hexcluded.symm.trans hfree
    rw [State.answered, if_neg fun hrefused => by cases hrefused.2.symm.trans hfree]
    refine ⟨h.asked, cons_subset.mpr ⟨hmember, h.members⟩, nodup_cons.mpr ⟨hnew, h.nodup⟩,
      .inr ⟨hnone, .inr ⟨?_, _, congrArg (cons _) hprobes⟩⟩, forall_mem_cons.mpr ⟨?_, ?_⟩⟩
    · rw [hasks, erase_cons_head]
    · exact .inr (.inr mem_cons_self)
    · exact fun member hold => .inl (hwalked member hold)
  · exact absurd hask (hasks ▸ not_mem_nil)

theorem Walking.step {action : Action Member}
    (hok : undisturbed toLowerCase members opened action = true)
    (hstep : step toLowerCase state action = some next) :
    Walking toLowerCase members opened next := by
  cases action with
  | escalate now sendProbe =>
    cases hstep
    simp only [undisturbed, Bool.and_eq_true, decide_eq_true_eq] at hok
    obtain ⟨⟨hearly, hlate⟩, rfl⟩ := hok
    exact h.escalate hearly hlate
  | answer exclude outcome =>
    obtain ⟨hask, ⟨⟩⟩ := Option.ite_none_right_eq_some.mp hstep
    match outcome with
    | .elects (some target) =>
      simp only [undisturbed, Bool.and_eq_true, decide_eq_true_eq, Bool.not_eq_true'] at hok
      exact h.answer hask hok.1 hok.2
  | probe target sent =>
    cases (hok : sent = true)
    obtain ⟨hprobe, ⟨⟩⟩ := Option.ite_none_right_eq_some.mp hstep
    rcases h.single with ⟨_, hprobes⟩ | ⟨hnone, ⟨_, hprobes⟩ | ⟨hasks, other, hprobes⟩⟩
    · exact absurd hprobe (hprobes ▸ not_mem_nil)
    · exact absurd hprobe (hprobes ▸ not_mem_nil)
    · cases mem_singleton.mp (hprobes ▸ hprobe)
      refine ⟨h.asked, h.members, h.nodup, .inl ⟨hasks, by simp [hprobes]⟩, ?_⟩
      intro member hmember
      refine (h.walked member hmember).imp_right fun hlast => .inl ?_
      simpa [hnone, hprobes, eq_comm] using hlast

end

/-- **Every member is elected once at most.**  Take any calls of `escalateReconciliation` made
    within one window from a first ask on, overlapping in any order, with a server that names
    only members that are not excluded, and asks that all come to their probe.  No member is
    elected twice, so there are at most as many elections as members. -/
theorem escalation_elects_once (toLowerCase : Member → Member) (members : List Member)
    (opened : Nat) (chased : List Member) (actions : List (Action Member)) (final : State Member)
    (hok : ∀ action ∈ actions, undisturbed toLowerCase members opened action = true)
    (hrun : run (step toLowerCase) (.start opened chased) actions = some final) :
    (final.elections.map toLowerCase).Nodup ∧ final.elections.length ≤ members.length := by
  have hstart : Walking toLowerCase members opened (.start opened chased) :=
    ⟨⟨_, rfl, Nat.le_refl _⟩, nil_subset _, nodup_nil, .inr ⟨rfl, .inl ⟨rfl, rfl⟩⟩, nofun⟩
  have h : Walking toLowerCase members opened final :=
    run_invariant (Walking.step ·) hstart (eachStep_of_forall_mem hok _) hrun
  have hnodup : final.elections.Nodup := Nodup.of_map toLowerCase h.nodup
  exact ⟨h.nodup, (hnodup.subperm h.members).length_le⟩

/-- Two members; a call finds the second election still under way. -/
def twoMembers : List (Action Nat) :=
  [.answer [] (.elects (some 0)), .probe (some 0) true, .escalate 1 true,
    .answer [0] (.elects (some 1)), .escalate 2 true, .probe (some 1) true]

theorem escalation_elects_once_twoMembers :
    ∃ final, run (step id) (.start 0 []) twoMembers = some final ∧ final.elections.length ≤ 2 :=
  ⟨_, rfl, (escalation_elects_once id [0, 1] 0 [] twoMembers _ (by decide) rfl).2⟩

/-- One member is online.  The second call excludes it and is told that nobody else is there; the
    third elects it again. -/
theorem silent_member_elected_twice :
    (run (step id) (.start 0 [])
        [.answer [] (.elects (some 0)), .probe (some 0) true, .escalate 1 true,
          .answer [0] (.noPeerOnline 1), .escalate 2 true, .answer [] (.elects (some 0))]).map
      State.elections = some [0, 0] := rfl

end MinesApp.HistoryEscalation
