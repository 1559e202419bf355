import MinesApp.BiasedMerge
import MinesApp.OrderedMap
import Mathlib.Algebra.GroupWithZero.Nat
import Mathlib.Data.List.Sort
import Mathlib.Data.Prod.Lex

/-!
# The pins of a conversation

`frontend/src/lib/stores/pinStore.svelte.ts` keeps one dated statement per message: pinned or
not, and as of when.  The storage behind the register is left out, and so are calls without a
conversation, which do nothing.
-/

namespace MinesApp.PinRegister

open List OrderedMap BiasedMerge

structure PinEntry (Time : Type) where
  pinned : Bool
  time : Time
deriving DecidableEq, Repr

abbrev Pins (Time : Type) := OrderedMap String (PinEntry Time)

def maxEntries : Nat := 500

/-- An entry of a peer's register; a bare text is the undated form. -/
inductive Incoming (Raw : Type) where
  | text (id : String)
  | object (id : Option String) (pinned : Option Bool) (time : Raw)
  | other

inductive Call (Raw : Type) where
  | applyPin (messageId : String) (pinned : Bool) (time : Raw)
  | mergePinEntries (incoming : List (Incoming Raw))

variable {Time Raw : Type} [LinearOrder Time]

/-- The oldest entries go when there are too many. -/
def persist (map : Pins Time) : Pins Time :=
  if maxEntries < map.entries.length then
    ((map.entries.insertionSort fun a b => a.2.time ≤ b.2.time).take
      (map.entries.length - maxEntries)).foldl (fun map doomed => map.erase doomed.1) map
  else map

/-- A tie goes to the statement that unpins. -/
def supersedes (next : PinEntry Time) : Option (PinEntry Time) → Bool
  | none => true
  | some held =>
    if next.time ≠ held.time then held.time < next.time else !next.pinned && held.pinned

def accept (state : Pins Time × Nat) (statement : String × PinEntry Time) : Pins Time × Nat :=
  if supersedes statement.2 (state.1.get? statement.1) then
    (state.1.set statement.1 statement.2, state.2 + 1)
  else state

def named (id : String) (entry : PinEntry Time) : Option (String × PinEntry Time) :=
  if id = "" then none else some (id, entry)

section

variable [Zero Time] (number : Raw → Time)

/-- `number` is `Number(at) || 0`. -/
def Incoming.statement : Incoming Raw → Option (String × PinEntry Time)
  | .text id => named id ⟨true, 0⟩
  | .object (some id) pinned time => named id ⟨pinned ≠ some false, number time⟩
  | _ => none

def Call.statements : Call Raw → List (String × PinEntry Time)
  | .applyPin messageId pinned time => (named messageId ⟨pinned, number time⟩).toList
  | .mergePinEntries incoming => incoming.filterMap (Incoming.statement number)

/-- Both calls answer with what they changed: `applyPin` whether, `mergePinEntries` how much. -/
def Call.serve (map : Pins Time) (call : Call Raw) : Pins Time × Nat :=
  let (after, changed) := (call.statements number).foldl accept (map, 0)
  (if 0 < changed then persist after else after, changed)

def replay (calls : List (Call Raw)) : Pins Time :=
  calls.foldl (fun map call => (call.serve number map).1) empty

def said (calls : List (Call Raw)) : List (String × PinEntry Time) :=
  calls.flatMap (Call.statements number)

end

/-! ## Convergence -/

/-- Later is above, and at one time unpinned is above pinned. -/
def stamp (entry : PinEntry Time) : Time ×ₗ Bool := toLex (entry.time, !entry.pinned)

variable {state : Pins Time × Nat} {statements : List (String × PinEntry Time)} {ids : List String}

theorem supersedes_some {next held : PinEntry Time} :
    supersedes next (some held) = true ↔ stamp held < stamp next := by
  simp only [supersedes, stamp, Prod.Lex.toLex_lt_toLex]
  by_cases hsame : next.time = held.time
  · cases next.pinned <;> cases held.pinned <;> simp [hsame]
  · simp [hsame, Ne.symm hsame]

theorem get?_accept (statement : String × PinEntry Time) (id : String) :
    (accept state statement).1.get? id =
      if statement.1 = id then latest stamp (state.1.get? id) (some statement.2)
      else state.1.get? id := by
  unfold accept
  by_cases hid : statement.1 = id
  · subst hid
    cases hheld : state.1.get? statement.1 with
    | none => simp [supersedes]
    | some held =>
      by_cases hnext : stamp held < stamp statement.2
      · simp [supersedes_some.mpr hnext, latest_of_lt stamp hnext]
      · simp [mt supersedes_some.mp hnext, latest_of_le stamp (not_lt.mp hnext), hheld]
  · split <;> simp [get?_set, Ne.symm hid]

/-- What the statements say about one message, in their order. -/
def about (statements : List (String × PinEntry Time)) (id : String) : List (PinEntry Time) :=
  (statements.filter (·.1 = id)).map Prod.snd

theorem get?_foldl_accept (id : String) :
    (statements.foldl accept state).1.get? id = (about statements id).foldl
      (fun held entry => latest stamp held (some entry)) (state.1.get? id) := by
  induction statements generalizing state with
  | nil => rfl
  | cons statement rest ih =>
    rw [foldl_cons, ih, get?_accept]
    by_cases hid : statement.1 = id <;> simp [about, hid]

theorem keys_foldl_accept (hids : ∀ statement ∈ statements, statement.1 ∈ ids)
    (hkeys : state.1.keys ⊆ ids) : (statements.foldl accept state).1.keys ⊆ ids := by
  induction statements generalizing state with
  | nil => exact hkeys
  | cons statement rest ih =>
    obtain ⟨hfirst, hrest⟩ := forall_mem_cons.mp hids
    refine ih hrest ?_
    unfold accept
    split
    · intro id hid
      rcases mem_keys_place.mp hid with rfl | hold
      · exact hfirst
      · exact hkeys hold
    · exact hkeys

variable [Zero Time] {number : Raw → Time} {calls : List (Call Raw)}

/-- Nothing is evicted from a register of so few messages. -/
theorem serve_fst {map : Pins Time} {call : Call Raw} (hfew : ids.length ≤ maxEntries)
    (hids : ∀ statement ∈ call.statements number, statement.1 ∈ ids) (hkeys : map.keys ⊆ ids) :
    (call.serve number map).1 = ((call.statements number).foldl accept (map, 0)).1 := by
  have hkept : ((call.statements number).foldl accept (map, 0)).1.keys ⊆ ids :=
    keys_foldl_accept hids hkeys
  have hlength := (subperm_of_subset (OrderedMap.nodup _) hkept).length_le
  rw [length_map] at hlength
  simp only [Call.serve, persist, if_neg (not_lt.mpr (hlength.trans hfew)), ite_self]

theorem newest_replay (hfew : ids.length ≤ maxEntries)
    (hids : ∀ statement ∈ said number calls, statement.1 ∈ ids) (id : String) :
    Newest stamp {entry | (id, entry) ∈ said number calls} ((replay number calls).get? id) := by
  have hrun : ∀ map : Pins Time, map.keys ⊆ ids →
      (calls.foldl (fun map call => (call.serve number map).1) map).get? id =
        (about (said number calls) id).foldl
          (fun held entry => latest stamp held (some entry)) (map.get? id) := by
    induction calls with
    | nil => exact fun _ _ => rfl
    | cons call rest ih =>
      intro map hkeys
      obtain ⟨hcall, hrest⟩ := forall_mem_append.mp hids
      rw [foldl_cons, serve_fst hfew hcall hkeys, ih hrest _ (keys_foldl_accept hcall hkeys),
        get?_foldl_accept]
      simp [about, said]
  have hheld : (replay number calls).get? id = latestOf stamp (about (said number calls) id) :=
    hrun empty (nil_subset ids)
  rw [hheld]
  convert newest_latestOf stamp (about (said number calls) id) using 1
  simp [about]

/-- **Convergence of the pins.**  While at most `MAX_ENTRIES` messages are spoken of, the
    register has the latest statement about each of them, so that the same statements leave the
    same register, whichever way and in whichever order they came. -/
theorem pins_converge (hfew : ids.length ≤ maxEntries)
    (hids : ∀ statement ∈ said number calls, statement.1 ∈ ids) (id : String) :
    Newest stamp {entry | (id, entry) ∈ said number calls} ((replay number calls).get? id) ∧
      ∀ others : List (Call Raw),
        (∀ statement, statement ∈ said number others ↔ statement ∈ said number calls) →
        (replay number others).get? id = (replay number calls).get? id := by
  refine ⟨newest_replay hfew hids id, fun others hsame => ?_⟩
  have hothers := newest_replay hfew (fun statement hmem => hids _ ((hsame statement).mp hmem)) id
  simp only [hsame] at hothers
  refine hothers.unique (newest_replay hfew hids id) ?_
  intro first hfirst second hsecond htop hother
  have hstamp := le_antisymm (hother first hfirst) (htop second hsecond)
  obtain ⟨pinned, time⟩ := first
  obtain ⟨otherPinned, otherTime⟩ := second
  simp_all [stamp]

def pin : Call Nat := .applyPin "lunch" true 3

def unpin : Call Nat := .mergePinEntries [.object (some "lunch") (some false) 3]

theorem pins_converge_lunch : (replay id [unpin, pin]).get? "lunch" = some ⟨false, 3⟩ := by
  have hfew : ["lunch"].length ≤ maxEntries := by decide
  have hids : ∀ statement ∈ said id [pin, unpin], statement.1 ∈ ["lunch"] := by decide
  exact (pins_converge hfew hids "lunch").2 [unpin, pin] (by simp [said, or_comm])

end MinesApp.PinRegister
