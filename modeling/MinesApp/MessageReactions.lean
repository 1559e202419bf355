import MinesApp.BiasedMerge
import MinesApp.JsString
import MinesApp.OrderedMap

/-!
# Reactions as a set of pairs

`frontend/src/lib/utils/chat/messageReactions.ts` keeps one entry per pair of a user
and an emoji, taken-back reactions included, and merges a peer's entries pair by pair:
the later one wins, and of two with the same time the receiver keeps its own.

The list of a stored message always has one entry per pair, with the user id in lower
case: `applyReaction` and `mergeReactions` normalise what they write.  `Paired` says so,
and `mergeReactions` keeps it.  `toLowerCase` is a parameter.
-/

namespace MinesApp.MessageReactions

open JsString BiasedMerge List OrderedMap

/-! ## 1. Applying a change, and merging a peer's reactions -/

/-- `changedAt` is the source's optional `at`. -/
structure MessageReaction where
  emoji : Utf16
  userId : Utf16
  changedAt : Option Int
  removed : Bool
deriving DecidableEq, Repr

def pairKey (reaction : MessageReaction) : Utf16 :=
  reaction.userId ++ .ofChars [' '] ++ reaction.emoji

/-- `r.at ?? 0`. -/
def stamp (reaction : MessageReaction) : Int := reaction.changedAt.getD 0

variable (toLowerCase : Utf16 → Utf16)

def normalise (reaction : MessageReaction) : MessageReaction :=
  { reaction with userId := toLowerCase reaction.userId }

/-- `none` is the source's `null`: what is held is at least as recent. -/
def applyReaction (reactions : List MessageReaction) (userId emoji : Utf16) (changedAt : Int)
    (removed : Bool) : Option (List MessageReaction) :=
  if emoji = [] then none
  else
    let next := normalise toLowerCase ⟨emoji, userId, some changedAt, removed⟩
    let same := fun reaction => pairKey (normalise toLowerCase reaction) == pairKey next
    match reactions.find? same with
    -- a removal for a pair that was never seen placed is recorded too
    | none => some (reactions ++ [next])
    | some held =>
      if changedAt ≤ stamp held then none
      else some (reactions.set (reactions.findIdx same) next)

/-- One turn of the loop of `mergeReactions`: the map and whether it changed. -/
def mergeTurn (state : OrderedMap Utf16 MessageReaction × Bool) (candidate : MessageReaction) :
    OrderedMap Utf16 MessageReaction × Bool :=
  if candidate.emoji = [] ∨ candidate.userId = [] then state
  else
    let next := normalise toLowerCase candidate
    match state.1.get? (pairKey next) with
    | some current =>
      if stamp next ≤ stamp current then state else (state.1.set (pairKey next) next, true)
    | none => (state.1.set (pairKey next) next, true)

def byPair (own : List MessageReaction) : OrderedMap Utf16 MessageReaction :=
  .ofPairs (own.map fun reaction =>
    (pairKey (normalise toLowerCase reaction), normalise toLowerCase reaction))

/-- `none` is the source's `null`: the peer told us nothing new. -/
def mergeReactions (own incoming : List MessageReaction) : Option (List MessageReaction) :=
  let merged := incoming.foldl (mergeTurn toLowerCase) (byPair toLowerCase own, false)
  if merged.2 then some (merged.1.entries.map Prod.snd) else none

/-! ## 2. One entry per pair -/

/-- An entry as `applyReaction` and `mergeReactions` write it. -/
structure Normal (reaction : MessageReaction) : Prop where
  emoji : reaction.emoji ≠ []
  userId : reaction.userId ≠ []
  lower : toLowerCase reaction.userId = reaction.userId

structure Paired (reactions : List MessageReaction) : Prop where
  nodup : (reactions.map pairKey).Nodup
  normal : ∀ reaction ∈ reactions, Normal toLowerCase reaction

def reactionAt (reactions : List MessageReaction) (key : Utf16) : Option MessageReaction :=
  OrderedMap.lookup key (reactions.map fun reaction => (pairKey reaction, reaction))

variable {toLowerCase} {reaction candidate : MessageReaction} {reactions own : List MessageReaction}
  {table : OrderedMap Utf16 MessageReaction}

theorem Normal.normalise_eq (h : Normal toLowerCase reaction) :
    normalise toLowerCase reaction = reaction := by
  rw [normalise, h.lower]

/-- The entries of a list, each under its pair. -/
def pairs (reactions : List MessageReaction) : List (Utf16 × MessageReaction) :=
  reactions.map fun reaction => (pairKey reaction, reaction)

theorem map_pairs (reactions : List MessageReaction) :
    (pairs reactions).map Prod.fst = reactions.map pairKey := by
  rw [pairs, map_map]
  rfl

/-- An entry stands under its own pair. -/
theorem mem_of_reactionAt {key : Utf16} (hat : reactionAt reactions key = some reaction) :
    reaction ∈ reactions ∧ key = pairKey reaction := by
  obtain ⟨held, hheld, heq⟩ := mem_map.mp (OrderedMap.mem_of_lookup hat)
  obtain ⟨rfl, rfl⟩ := Prod.mk.inj heq
  exact ⟨hheld, rfl⟩

theorem reactionAt_of_mem (hnodup : (reactions.map pairKey).Nodup)
    (hmem : reaction ∈ reactions) : reactionAt reactions (pairKey reaction) = some reaction := by
  refine OrderedMap.lookup_of_mem ?_ (mem_map.mpr ⟨reaction, hmem, rfl⟩)
  exact (map_pairs reactions).symm ▸ hnodup

theorem Paired.mem_iff (h : Paired toLowerCase reactions) :
    reaction ∈ reactions ↔ reactionAt reactions (pairKey reaction) = some reaction := by
  constructor
  · intro hmem
    exact reactionAt_of_mem h.nodup hmem
  · intro hat
    exact (mem_of_reactionAt hat).1

theorem Paired.tail {rest : List MessageReaction}
    (h : Paired toLowerCase (reaction :: rest)) : Paired toLowerCase rest :=
  ⟨(nodup_cons.mp h.nodup).2, fun other hother => h.normal other (mem_cons_of_mem _ hother)⟩

/-! ## 3. What a merge leaves -/

/-- The map of the loop: every entry stands under its own pair. -/
def Keyed (toLowerCase : Utf16 → Utf16) (table : OrderedMap Utf16 MessageReaction) : Prop :=
  ∀ key reaction, table.get? key = some reaction →
    key = pairKey reaction ∧ Normal toLowerCase reaction

theorem mergeTurn_cases (state : OrderedMap Utf16 MessageReaction × Bool)
    (h : Normal toLowerCase candidate) : (mergeTurn toLowerCase state candidate = state ∧
      ∃ current, state.1.get? (pairKey candidate) = some current ∧
        stamp candidate ≤ stamp current) ∨
    (mergeTurn toLowerCase state candidate = (state.1.set (pairKey candidate) candidate, true) ∧
      ∀ current, state.1.get? (pairKey candidate) = some current →
        stamp current < stamp candidate) := by
  have hfilled : ¬ (candidate.emoji = [] ∨ candidate.userId = []) := not_or.mpr ⟨h.emoji, h.userId⟩
  simp only [mergeTurn, if_neg hfilled, h.normalise_eq]
  cases hget : state.1.get? (pairKey candidate) with
  | none =>
    refine .inr ⟨rfl, fun current hcurrent => ?_⟩
    cases hcurrent
  | some current =>
    by_cases hle : stamp candidate ≤ stamp current
    · exact .inl ⟨if_pos hle, current, rfl, hle⟩
    · refine .inr ⟨if_neg hle, fun other hother => ?_⟩
      cases hother
      exact not_le.mp hle

theorem get?_mergeTurn (state : OrderedMap Utf16 MessageReaction × Bool)
    (h : Normal toLowerCase candidate) (key : Utf16) :
    (mergeTurn toLowerCase state candidate).1.get? key =
      if key = pairKey candidate then latest stamp (state.1.get? key) (some candidate)
      else state.1.get? key := by
  rcases mergeTurn_cases state h with ⟨hturn, current, hcurrent, hle⟩ | ⟨hturn, hlater⟩
  · rw [hturn]
    split
    next hkey => rw [hkey, hcurrent, latest_of_le stamp hle]
    · rfl
  · rw [hturn, get?_set]
    split
    next hkey =>
      rw [hkey]
      cases hget : state.1.get? (pairKey candidate) with
      | none => rfl
      | some current => rw [latest_of_lt stamp (hlater current hget)]
    · rfl

theorem Keyed.mergeTurn {state : OrderedMap Utf16 MessageReaction × Bool}
    (hkeyed : Keyed toLowerCase state.1) (h : Normal toLowerCase candidate) :
    Keyed toLowerCase (mergeTurn toLowerCase state candidate).1 := by
  intro key reaction hget
  rcases mergeTurn_cases state h with ⟨hturn, _⟩ | ⟨hturn, _⟩
  · rw [hturn] at hget
    exact hkeyed key reaction hget
  · rw [hturn, get?_set] at hget
    split at hget
    next hkey =>
      cases hget
      exact ⟨hkey, h⟩
    · exact hkeyed key reaction hget

variable {incoming : List MessageReaction}

/-- The loop: each pair gets the later of the two entries, and a loop that reports no
    change made none. -/
theorem merge_loop (hincoming : Paired toLowerCase incoming)
    (state : OrderedMap Utf16 MessageReaction × Bool) (hkeyed : Keyed toLowerCase state.1) :
    let merged := incoming.foldl (mergeTurn toLowerCase) state
    Keyed toLowerCase merged.1 ∧
    (∀ key, merged.1.get? key = latest stamp (state.1.get? key) (reactionAt incoming key)) ∧
    (merged.2 = false → merged = state) := by
  induction incoming generalizing state with
  | nil => exact ⟨hkeyed, fun key => (latest_none stamp _).symm, fun _ => rfl⟩
  | cons candidate rest ih =>
    have hnormal := hincoming.normal candidate mem_cons_self
    obtain ⟨hkept, hget, hchanged⟩ :=
      ih hincoming.tail (mergeTurn toLowerCase state candidate) (hkeyed.mergeTurn hnormal)
    refine ⟨hkept, fun key => ?_, fun hsame => ?_⟩
    · rw [foldl_cons, hget, get?_mergeTurn state hnormal]
      by_cases hkey : key = pairKey candidate
      · -- no later candidate is of the same pair
        have hrest : reactionAt rest key = none := by
          apply OrderedMap.lookup_eq_none.mpr
          rw [← pairs, map_pairs, hkey]
          exact (nodup_cons.mp hincoming.nodup).1
        have hhead : reactionAt (candidate :: rest) key = some candidate := by
          simp [reactionAt, OrderedMap.lookup, hkey]
        rw [if_pos hkey, hrest, hhead, latest_none]
      · have htail : reactionAt (candidate :: rest) key = reactionAt rest key := by
          simp [reactionAt, OrderedMap.lookup, Ne.symm hkey]
        rw [if_neg hkey, htail]
    · rw [foldl_cons] at hsame ⊢
      have hlast := hchanged hsame
      rw [hlast] at hsame ⊢
      rcases mergeTurn_cases state hnormal with ⟨hturn, _⟩ | ⟨hturn, _⟩
      · exact hturn
      · rw [hturn] at hsame
        cases hsame

theorem Keyed.pairs_eq (h : Keyed toLowerCase table) :
    pairs (table.entries.map Prod.snd) = table.entries := by
  rw [pairs, map_map]
  refine (map_congr_left fun entry hentry => ?_).trans (map_id table.entries)
  exact Prod.ext (h entry.1 entry.2 (mem_entries.mp hentry)).1.symm rfl

theorem Keyed.paired (h : Keyed toLowerCase table) :
    Paired toLowerCase (table.entries.map Prod.snd) where
  nodup := by
    rw [← map_pairs, h.pairs_eq]
    exact table.nodup
  normal reaction hreaction := by
    obtain ⟨entry, hentry, rfl⟩ := mem_map.mp hreaction
    exact (h entry.1 entry.2 (mem_entries.mp hentry)).2

theorem entries_byPair (hnodup : (own.map pairKey).Nodup)
    (hnormal : ∀ reaction ∈ own, normalise toLowerCase reaction = reaction) :
    (byPair toLowerCase own).entries = pairs own := by
  have hpairs : own.map (fun reaction =>
      (pairKey (normalise toLowerCase reaction), normalise toLowerCase reaction)) =
      pairs own :=
    map_congr_left fun reaction hreaction => by rw [hnormal reaction hreaction]
  rw [byPair, hpairs]
  refine entries_ofPairs ?_
  rw [map_pairs]
  exact hnodup

theorem Paired.get?_byPair (h : Paired toLowerCase own)
    (key : Utf16) : (byPair toLowerCase own).get? key = reactionAt own key := by
  have hentries := entries_byPair h.nodup fun reaction hreaction =>
    (h.normal reaction hreaction).normalise_eq
  rw [OrderedMap.get?, hentries]
  rfl

/-- **Merging keeps one entry per pair, the later of the two.**  The receiver keeps its
    own list when it is told nothing new. -/
theorem mergeReactions_spec
    (hown : Paired toLowerCase own) (hincoming : Paired toLowerCase incoming) :
    Paired toLowerCase ((mergeReactions toLowerCase own incoming).getD own) ∧
    ∀ key, reactionAt ((mergeReactions toLowerCase own incoming).getD own) key =
      latest stamp (reactionAt own key) (reactionAt incoming key) := by
  have hkeyed : Keyed toLowerCase (byPair toLowerCase own) := by
    intro key reaction hget
    rw [hown.get?_byPair] at hget
    obtain ⟨hmem, hkey⟩ := mem_of_reactionAt hget
    exact ⟨hkey, hown.normal reaction hmem⟩
  obtain ⟨hmerged, hget, hsame⟩ := merge_loop hincoming (byPair toLowerCase own, false) hkeyed
  simp only [hown.get?_byPair] at hget
  simp only [mergeReactions]
  split
  · rw [Option.getD_some]
    refine ⟨hmerged.paired, fun key => ?_⟩
    rw [reactionAt, ← pairs, hmerged.pairs_eq]
    exact hget key
  next hflag =>
    have hkept := hsame (Bool.eq_false_iff.mpr hflag)
    rw [Option.getD_none]
    refine ⟨hown, fun key => ?_⟩
    rw [← hget key, hkept, hown.get?_byPair]

/-! ## 4. The reactions of a stored message -/

/-- A list with one entry per pair. -/
def Reactions (toLowerCase : Utf16 → Utf16) : Type :=
  {reactions : List MessageReaction // Paired toLowerCase reactions}

instance : DecidableEq (Reactions toLowerCase) :=
  inferInstanceAs (DecidableEq {reactions : List MessageReaction // Paired toLowerCase reactions})

def Reactions.empty : Reactions toLowerCase := ⟨[], nodup_nil, nofun⟩

/-- What the receiver of a bundle is left with. -/
def Reactions.merge (own incoming : Reactions toLowerCase) : Reactions toLowerCase :=
  ⟨(mergeReactions toLowerCase own.1 incoming.1).getD own.1,
    (mergeReactions_spec own.2 incoming.2).1⟩

theorem Reactions.reactionAt_merge (own incoming : Reactions toLowerCase) :
    reactionAt (own.merge incoming).1 =
      fun key => latest stamp (reactionAt own.1 key) (reactionAt incoming.1 key) :=
  funext (mergeReactions_spec own.2 incoming.2).2

end MinesApp.MessageReactions
