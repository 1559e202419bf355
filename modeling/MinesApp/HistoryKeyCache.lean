import MinesApp.HistoryStateKey
import MinesApp.TransitionSystem

/-!
# The cache of state keys

`cachedHistoryStateKey` in `historyStateKey.ts` keeps the last key of a conversation with the
window it was computed over.  A miss reads the store, awaits, hashes what it has read and then
keeps the key; a write of the storage layer drops the key of its conversation.  Nothing stops a
computation that read the store before a write from keeping its key after the drop.

The entries of different conversations do not touch each other, and the model is of one.
`moments` lists what its store has held since the key was last dropped, and `drops` counts the
drops; no code reads either.
-/

namespace MinesApp.HistoryKeyCache

open JsString HistoryStateKey TransitionSystem List Function

variable (platform : Platform)

abbrev Messages := List (StoredMessage platform.toLowerCase)

structure CachedKey where
  since : Nat
  key : Utf16
deriving DecidableEq

/-- A miss awaits its messages, and then their hashes. -/
inductive Computation where
  | loading (since : Nat)
  | hashing (since : Nat) (messages : Messages platform) (drops : Nat)

structure State where
  store : Messages platform
  cached : Option CachedKey
  computations : Nat → Option (Computation platform)
  calls : Nat
  moments : List (Messages platform)
  drops : Nat

def State.start (store : Messages platform) : State platform :=
  ⟨store, none, fun _ => none, 0, [store], 0⟩

/-- `invalidate` is `invalidateHistoryStateKey` of the conversation, or
    `invalidateAllHistoryStateKeys`. -/
inductive Action where
  | cachedHistoryStateKey (since : Nat)
  | load (id : Nat) (readable : Bool)
  | keep (id : Nat)
  | write (messages : Messages platform)
  | invalidate

variable {platform}

section

variable (state : State platform)

/-- What a call is served from the cache. -/
def State.hit (since : Nat) : Option Utf16 :=
  state.cached.bind fun hit => if hit.since = since then some hit.key else none

def step : Action platform → Option (State platform)
  | .cachedHistoryStateKey since =>
    match state.hit since with
    | some _ => some state
    | none =>
      some { state with
        computations := update state.computations state.calls (some (.loading since))
        calls := state.calls + 1 }
  -- a store that cannot be read gives no key
  | .load id readable =>
    match state.computations id with
    | some (.loading since) =>
      let loaded := if readable then some (.hashing since state.store state.drops) else none
      some { state with computations := update state.computations id loaded }
    | _ => none
  | .keep id =>
    match state.computations id with
    | some (.hashing since messages _) =>
      some { state with
        cached := some ⟨since, historyStateKey platform messages since⟩
        computations := update state.computations id none }
    | _ => none
  | .write messages => some { state with store := messages, moments := messages :: state.moments }
  | .invalidate =>
    some { state with cached := none, moments := [state.store], drops := state.drops + 1 }

/-- A key is kept only if none was dropped since its messages were read. -/
def undisturbed : Action platform → Bool
  | .keep id =>
    match state.computations id with
    | some (.hashing _ _ drops) => drops = state.drops
    | _ => true
  | _ => true

end

/-- What is cached is the key of a moment since the last drop, and the messages that a
    computation has read are of one, unless a drop has come between. -/
structure Fresh (state : State platform) : Prop where
  current : state.store ∈ state.moments
  cached : ∀ hit, state.cached = some hit →
    ∃ messages ∈ state.moments, hit.key = historyStateKey platform messages hit.since
  loaded : ∀ id since messages drops, state.computations id = some (.hashing since messages drops) →
      drops ≤ state.drops ∧ (drops = state.drops → messages ∈ state.moments)

variable {state next : State platform}

protected theorem Fresh.step {action : Action platform} (h : Fresh state)
    (hok : undisturbed state action = true) (hstep : step state action = some next) :
    Fresh next := by
  cases action with simp only [step] at hstep
  | cachedHistoryStateKey since =>
    split at hstep
    · cases hstep
      exact h
    · cases hstep
      refine ⟨h.current, h.cached, fun id window messages drops hid => ?_⟩
      rcases update_eq_some_iff.mp hid with ⟨_, hnew⟩ | ⟨_, hold⟩
      · cases hnew
      · exact h.loaded id window messages drops hold
  | load id readable =>
    split at hstep
    · cases hstep
      refine ⟨h.current, h.cached, fun other since messages drops hother => ?_⟩
      rcases update_eq_some_iff.mp hother with ⟨_, hread⟩ | ⟨_, hold⟩
      · split at hread
        · cases hread
          exact ⟨le_rfl, fun _ => h.current⟩
        · cases hread
      · exact h.loaded other since messages drops hold
    · cases hstep
  | keep id =>
    split at hstep
    next since messages drops hid =>
      cases hstep
      simp only [undisturbed, hid, decide_eq_true_eq] at hok
      refine ⟨h.current, ?_, fun other window read dropped hother => ?_⟩
      · rintro _ ⟨⟩
        exact ⟨messages, (h.loaded id since messages drops hid).2 hok, rfl⟩
      · rcases update_eq_some_iff.mp hother with ⟨_, hnone⟩ | ⟨_, hold⟩
        · cases hnone
        · exact h.loaded other window read dropped hold
    · cases hstep
  | write messages =>
    cases hstep
    refine ⟨mem_cons_self, fun hit hhit => ?_, fun id since read drops hid => ?_⟩
    · obtain ⟨earlier, hearlier, hkey⟩ := h.cached hit hhit
      exact ⟨earlier, mem_cons_of_mem _ hearlier, hkey⟩
    · obtain ⟨hle, hread⟩ := h.loaded id since read drops hid
      exact ⟨hle, fun hnow => mem_cons_of_mem _ (hread hnow)⟩
  | invalidate =>
    cases hstep
    refine ⟨mem_singleton_self _, nofun, fun id since read drops hid => ?_⟩
    have hlt := Nat.lt_succ_of_le (h.loaded id since read drops hid).1
    exact ⟨hlt.le, fun hnow => absurd hnow hlt.ne⟩

/-- **A key served from the cache is not stale.**  As long as no key is kept that was computed
    from messages read before a drop, what the cache serves is the key of what the store has held
    at some moment since the last drop. -/
theorem served_key_fresh (store : Messages platform) (actions : List (Action platform))
    (final : State platform)
    (hok : EachStep step (fun state action => undisturbed state action = true)
      (.start platform store) actions)
    (hrun : run step (.start platform store) actions = some final)
    (since : Nat) (key : Utf16) (hserved : final.hit since = some key) :
    ∃ messages ∈ final.moments, key = historyStateKey platform messages since := by
  have hstart : Fresh (.start platform store) := ⟨mem_singleton_self _, nofun, nofun⟩
  have h : Fresh final := run_invariant (fun h hok hstep => Fresh.step h hok hstep) hstart hok hrun
  obtain ⟨hit, hcached, hhit⟩ := Option.bind_eq_some_iff.mp hserved
  obtain ⟨hsince, rfl⟩ := Option.ite_some_none_eq_some.mp hhit
  exact hsince ▸ h.cached hit hcached

/-- A platform whose digest is the text itself. -/
def rawPlatform : Platform where
  encode text := text.map fun unit => UInt8.ofNat unit.val
  sha256 bytes := bytes
  toLowerCase text := text

def oneMessage : Messages rawPlatform :=
  [⟨.ofChars ['m'], ⟨⟨false, false, none, .empty⟩, .ofChars ['u'], .ofChars ['t'], some 5, none⟩⟩]

def writeThenRead : List (Action rawPlatform) :=
  [.write oneMessage, .invalidate, .cachedHistoryStateKey 0, .load 0 true, .keep 0]

theorem served_key_fresh_after_write :
    ∃ final key, run step (.start rawPlatform []) writeThenRead = some final ∧
      final.hit 0 = some key ∧
      ∃ messages ∈ final.moments, key = historyStateKey rawPlatform messages 0 :=
  ⟨_, _, rfl, rfl, served_key_fresh [] writeThenRead _ (by decide) rfl 0 _ rfl⟩

/-- A computation reads the empty store; a message is written and the key dropped; the
    computation keeps its key, and the next call is served that of the empty store. -/
theorem stale_key_served :
    (run step (.start rawPlatform [])
      [.cachedHistoryStateKey 0, .load 0 true, .write oneMessage, .invalidate, .keep 0]).map
      (fun final => (final.moments, final.hit 0)) =
      some ([oneMessage], some (historyStateKey rawPlatform [] 0)) ∧
    historyStateKey rawPlatform oneMessage 0 ≠ historyStateKey rawPlatform [] 0 := by
  decide

end MinesApp.HistoryKeyCache
