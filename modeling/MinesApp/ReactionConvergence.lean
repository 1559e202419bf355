import MinesApp.MessageReactions

/-!
# Convergence of reactions

A device learns of reactions one by one (`applyReaction`) and by the list of a peer
(`mergeReactions`), in any order and more than once.  Whatever the way, a pair of a user and
an emoji is left with the first of its latest changes to arrive.  So the devices that have
received the same changes hold the same entries exactly when the latest changes of every pair
are one: two changes of one instant are left to the order of arrival.
-/

namespace MinesApp.MessageReactions

open JsString BiasedMerge List OrderedMap

/-! ## 1. Changes and receptions -/

/-- The state that a pair of a user and an emoji took on, and when. -/
structure ReactionChange where
  userId : Utf16
  emoji : Utf16
  changedAt : Int
  removed : Bool
deriving DecidableEq, Repr

open ReactionChange

def ReactionChange.key (change : ReactionChange) : Utf16 :=
  change.userId ++ .ofChars [' '] ++ change.emoji

def changeOf (reaction : MessageReaction) : ReactionChange :=
  ⟨reaction.userId, reaction.emoji, stamp reaction, reaction.removed⟩

/-- How a device learns of changes. -/
inductive Reception where
  | apply (userId emoji : Utf16) (changedAt : Int) (removed : Bool)
  | merge (incoming : List MessageReaction)
deriving DecidableEq, Repr

open Reception

/-- `mergeReactions` passes over an entry without an emoji or a user. -/
def named (reaction : MessageReaction) : Bool := reaction.emoji ≠ [] && reaction.userId ≠ []

section Devices

variable (toLowerCase : Utf16 → Utf16)

/-- The changes that a reception tells of. -/
def Reception.changes : Reception → List ReactionChange
  | .apply userId emoji changedAt removed =>
    if emoji = [] then [] else [⟨toLowerCase userId, emoji, changedAt, removed⟩]
  | .merge incoming =>
    (incoming.filter named).map fun reaction => changeOf (normalise toLowerCase reaction)

/-- The caller keeps its list when it is told nothing new. -/
def receive (reactions : List MessageReaction) : Reception → List MessageReaction
  | .apply userId emoji changedAt removed =>
    (applyReaction toLowerCase reactions userId emoji changedAt removed).getD reactions
  | .merge incoming => (mergeReactions toLowerCase reactions incoming).getD reactions

def receiveAll (receptions : List Reception) : List MessageReaction :=
  receptions.foldl (receive toLowerCase) []

/-! ## 2. What a list holds of a pair -/

structure Listed (reactions : List MessageReaction) : Prop where
  nodup : (reactions.map pairKey).Nodup
  lower : ∀ reaction ∈ reactions, toLowerCase reaction.userId = reaction.userId

variable {toLowerCase} {reactions : List MessageReaction}

def heldAt (reactions : List MessageReaction) (key : Utf16) : Option ReactionChange :=
  (reactionAt reactions key).map changeOf

theorem Listed.mem_iff (h : Listed toLowerCase reactions) {change : ReactionChange} :
    change ∈ reactions.map changeOf ↔ heldAt reactions change.key = some change := by
  constructor
  · intro hmem
    obtain ⟨reaction, hreaction, rfl⟩ := mem_map.mp hmem
    exact Option.map_eq_some_iff.mpr ⟨reaction, reactionAt_of_mem h.nodup hreaction, rfl⟩
  · intro hheld
    obtain ⟨reaction, hat, rfl⟩ := Option.map_eq_some_iff.mp hheld
    exact mem_map_of_mem (mem_of_reactionAt hat).1

/-! ## 3. One change -/

section

variable {reactions : List MessageReaction} {next : MessageReaction} {same : MessageReaction → Bool}

/-- Adding the entry of a pair, or replacing it, is a write to the map of the pairs. -/
theorem pairs_append (habsent : ∀ reaction ∈ reactions, pairKey reaction ≠ pairKey next) :
    pairs (reactions ++ [next]) = place (pairKey next) next (pairs reactions) := by
  have hfresh : pairKey next ∉ (pairs reactions).map Prod.fst := by
    rw [map_pairs, mem_map]
    rintro ⟨reaction, hreaction, hkey⟩
    exact habsent reaction hreaction hkey
  rw [place_of_not_mem hfresh, pairs, map_append]
  rfl

theorem pairs_set
    (hsame : ∀ reaction ∈ reactions, same reaction = (pairKey reaction == pairKey next))
    (hpresent : ∃ reaction ∈ reactions, pairKey reaction = pairKey next) :
    pairs (reactions.set (reactions.findIdx same) next) =
      place (pairKey next) next (pairs reactions) := by
  induction reactions with
  | nil =>
    obtain ⟨_, hmem, _⟩ := hpresent
    cases hmem
  | cons reaction rest ih =>
    by_cases hhead : pairKey reaction = pairKey next
    · have hfound : same reaction = true := by
        rw [hsame reaction mem_cons_self, hhead]
        exact beq_self_eq_true _
      simp [findIdx_cons, hfound, pairs, place, hhead]
    · have hmissed : same reaction = false := by
        rw [hsame reaction mem_cons_self]
        exact beq_eq_false_iff_ne.mpr hhead
      have hrest := ih (fun other hother => hsame other (mem_cons_of_mem _ hother)) (by
        obtain ⟨other, hother, hkey⟩ := hpresent
        rcases mem_cons.mp hother with rfl | htail
        · exact absurd hkey hhead
        · exact ⟨other, htail, hkey⟩)
      simp only [pairs] at hrest
      simp only [findIdx_cons, hmissed, cond_false, set_cons_succ, pairs, map_cons,
        place, if_neg hhead]
      rw [hrest]

theorem exists_pairs_place (reactions : List MessageReaction) (next : MessageReaction) :
    ∃ written, pairs written = place (pairKey next) next (pairs reactions) := by
  by_cases hpresent : ∃ reaction ∈ reactions, pairKey reaction = pairKey next
  · exact ⟨_, pairs_set (fun _ _ => rfl) hpresent⟩
  · refine ⟨_, pairs_append fun reaction hreaction hkey => ?_⟩
    exact hpresent ⟨reaction, hreaction, hkey⟩

end

theorem Listed.place {written : List MessageReaction} {next : MessageReaction}
    (h : Listed toLowerCase reactions) (hlower : toLowerCase next.userId = next.userId)
    (hwritten : pairs written = place (pairKey next) next (pairs reactions)) :
    Listed toLowerCase written ∧
    ∀ key, reactionAt written key =
      if key = pairKey next then some next else reactionAt reactions key := by
  have hat : ∀ key, reactionAt written key =
      if key = pairKey next then some next else reactionAt reactions key := by
    intro key
    rw [reactionAt, ← pairs, hwritten, lookup_place]
    rfl
  have hnodup : (written.map pairKey).Nodup := by
    rw [← map_pairs, hwritten]
    refine nodup_place ?_
    rw [map_pairs]
    exact h.nodup
  refine ⟨⟨hnodup, fun reaction hreaction => ?_⟩, hat⟩
  have hreactionAt := reactionAt_of_mem hnodup hreaction
  rw [hat] at hreactionAt
  split at hreactionAt
  · cases hreactionAt
    exact hlower
  · exact h.lower reaction (mem_of_reactionAt hreactionAt).1

theorem Listed.normalise_eq (h : Listed toLowerCase reactions) {reaction : MessageReaction}
    (hmem : reaction ∈ reactions) : normalise toLowerCase reaction = reaction := by
  rw [normalise, h.lower reaction hmem]

/-- `changes.foldl` at one pair: the entry held, against each change of the pair in turn. -/
def catchUp (held : Option ReactionChange) (key : Utf16) (changes : List ReactionChange) :
    Option ReactionChange :=
  (changes.filter fun change => change.key = key).foldl
    (fun held change => latest changedAt held (some change)) held

theorem catchUp_cons (held : Option ReactionChange) (key : Utf16) (change : ReactionChange)
    (rest : List ReactionChange) :
    catchUp held key (change :: rest) =
      catchUp (if change.key = key then latest changedAt held (some change)
        else held) key rest := by
  by_cases hkey : change.key = key
  all_goals simp [catchUp, hkey]

theorem catchUp_append (held : Option ReactionChange) (key : Utf16)
    (first second : List ReactionChange) :
    catchUp held key (first ++ second) = catchUp (catchUp held key first) key second := by
  simp only [catchUp, filter_append, foldl_append]

variable (toLowerCase) in
/-- The list is left with what it held of every pair, caught up with the changes. -/
structure CaughtUp (reactions : List MessageReaction) (changes : List ReactionChange)
    (after : List MessageReaction) : Prop where
  listed : Listed toLowerCase after
  held : ∀ key, heldAt after key = catchUp (heldAt reactions key) key changes

theorem CaughtUp.append {between after : List MessageReaction} {first second : List ReactionChange}
    (h : CaughtUp toLowerCase reactions first between)
    (hnext : CaughtUp toLowerCase between second after) :
    CaughtUp toLowerCase reactions (first ++ second) after :=
  ⟨hnext.listed, fun key => by rw [hnext.held, h.held, catchUp_append]⟩

/-! ## 4. One reception -/

section Receiving

variable {reactions : List MessageReaction} {next : MessageReaction}
  {state : OrderedMap Utf16 MessageReaction × Bool}

/-- The change is later than what is held of its pair. -/
theorem Listed.write (h : Listed toLowerCase reactions)
    (hlower : toLowerCase next.userId = next.userId) {written : List MessageReaction}
    (hwritten : pairs written = OrderedMap.place (pairKey next) next (pairs reactions))
    (hnewer : ∀ held, reactionAt reactions (pairKey next) = some held → stamp held < stamp next) :
    CaughtUp toLowerCase reactions [changeOf next] written := by
  obtain ⟨hlisted, hat⟩ := h.place hlower hwritten
  refine ⟨hlisted, fun key => ?_⟩
  rw [heldAt, hat, catchUp_cons]
  by_cases hkey : key = pairKey next
  · have hown : (changeOf next).key = key := hkey.symm
    rw [if_pos hkey, if_pos hown, hkey]
    cases hheld : reactionAt reactions (pairKey next) with
    | none => simp [heldAt, hheld, catchUp]
    | some held =>
      have hlt : (changeOf held).changedAt < (changeOf next).changedAt := hnewer held hheld
      simp [heldAt, hheld, catchUp, latest_of_lt changedAt hlt]
  · have hother : (changeOf next).key ≠ key := fun heq => hkey heq.symm
    rw [if_neg hkey, if_neg hother]
    rfl

theorem Listed.outranked (h : Listed toLowerCase reactions) {held : MessageReaction}
    (hheld : reactionAt reactions (pairKey next) = some held) (hle : stamp next ≤ stamp held) :
    CaughtUp toLowerCase reactions [changeOf next] reactions := by
  refine ⟨h, fun key => ?_⟩
  rw [catchUp_cons]
  by_cases hkey : (changeOf next).key = key
  · have hkept : (changeOf next).changedAt ≤ (changeOf held).changedAt := hle
    have hheldAt : heldAt reactions key = some (changeOf held) :=
      Option.map_eq_some_iff.mpr ⟨held, hkey ▸ hheld, rfl⟩
    rw [if_pos hkey, hheldAt, latest_of_le changedAt hkept]
    rfl
  · rw [if_neg hkey]
    rfl

variable (hlower : ∀ text, toLowerCase (toLowerCase text) = toLowerCase text)
include hlower

theorem Listed.apply (h : Listed toLowerCase reactions) (userId emoji : Utf16) (changedAt : Int)
    (removed : Bool) :
    CaughtUp toLowerCase reactions (changes toLowerCase (.apply userId emoji changedAt removed))
      (receive toLowerCase reactions (.apply userId emoji changedAt removed)) := by
  by_cases hemoji : emoji = []
  · simp only [receive, applyReaction, changes, if_pos hemoji]
    exact ⟨h, fun _ => rfl⟩
  · simp only [receive, applyReaction, changes, if_neg hemoji]
    have hnext : ∃ next, normalise toLowerCase ⟨emoji, userId, some changedAt, removed⟩ = next ∧
        changeOf next = ⟨toLowerCase userId, emoji, changedAt, removed⟩ ∧
        stamp next = changedAt ∧ toLowerCase next.userId = next.userId :=
      ⟨_, rfl, rfl, rfl, hlower userId⟩
    obtain ⟨next, hnormalised, hchange, hstamp, hnextLower⟩ := hnext
    have hsame : ∀ reaction ∈ reactions,
        (pairKey (normalise toLowerCase reaction) == pairKey next) =
          (pairKey reaction == pairKey next) :=
      fun reaction hreaction => by rw [h.normalise_eq hreaction]
    rw [hnormalised, ← hchange, ← hstamp]
    cases hfind : reactions.find? fun reaction =>
        pairKey (normalise toLowerCase reaction) == pairKey next with
    | none =>
      have habsent : ∀ reaction ∈ reactions, pairKey reaction ≠ pairKey next := by
        intro reaction hreaction hkey
        have hmissed := find?_eq_none.mp hfind reaction hreaction
        rw [hsame reaction hreaction, hkey] at hmissed
        exact hmissed (beq_self_eq_true _)
      refine h.write hnextLower (pairs_append habsent) fun held hheld => ?_
      obtain ⟨hmem, hkey⟩ := mem_of_reactionAt hheld
      exact absurd hkey.symm (habsent held hmem)
    | some held =>
      have hmem := mem_of_find?_eq_some hfind
      have hkey : pairKey held = pairKey next := by
        have hfound := find?_some hfind
        rw [hsame held hmem] at hfound
        exact eq_of_beq hfound
      have hheld : reactionAt reactions (pairKey next) = some held := by
        rw [← hkey]
        exact reactionAt_of_mem h.nodup hmem
      by_cases hle : stamp next ≤ stamp held
      · simp only [if_pos hle, Option.getD_none]
        exact h.outranked hheld hle
      · simp only [if_neg hle, Option.getD_some]
        refine h.write hnextLower (pairs_set hsame ⟨held, hmem, hkey⟩) fun other hother => ?_
        cases hheld.symm.trans hother
        exact not_le.mp hle

/-- One turn of the loop of `mergeReactions`, on the list that its map stands for. -/
theorem Listed.turn (h : Listed toLowerCase reactions)
    (hstate : state.1.entries = pairs reactions) (candidate : MessageReaction) :
    ∃ turned, (mergeTurn toLowerCase state candidate).1.entries = pairs turned ∧
      CaughtUp toLowerCase reactions (changes toLowerCase (.merge [candidate]))
        turned := by
  by_cases hnamed : named candidate = true
  · have hfilled : ¬ (candidate.emoji = [] ∨ candidate.userId = []) := by
      simpa [named] using hnamed
    have hnextLower : toLowerCase (normalise toLowerCase candidate).userId =
        (normalise toLowerCase candidate).userId := hlower candidate.userId
    have hget : ∀ key, state.1.get? key = reactionAt reactions key := by
      intro key
      rw [get?, hstate]
      rfl
    have hchanges : changes toLowerCase (.merge [candidate]) =
        [changeOf (normalise toLowerCase candidate)] := by
      simp [changes, hnamed]
    simp only [mergeTurn, if_neg hfilled, hchanges]
    generalize normalise toLowerCase candidate = next at hnextLower ⊢
    have hwrite : (∀ held, reactionAt reactions (pairKey next) = some held →
        stamp held < stamp next) → ∃ turned,
        (state.1.set (pairKey next) next).entries = pairs turned ∧
        CaughtUp toLowerCase reactions [changeOf next] turned := by
      intro hnewer
      obtain ⟨written, hwritten⟩ := exists_pairs_place reactions next
      refine ⟨written, ?_, h.write hnextLower hwritten hnewer⟩
      rw [hwritten, ← hstate]
      rfl
    rw [hget]
    cases hheld : reactionAt reactions (pairKey next) with
    | none =>
      refine hwrite fun held hsome => ?_
      rw [hheld] at hsome
      cases hsome
    | some held =>
      by_cases hle : stamp next ≤ stamp held
      · simp only [if_pos hle]
        exact ⟨reactions, hstate, h.outranked hheld hle⟩
      · simp only [if_neg hle]
        refine hwrite fun other hother => ?_
        cases hheld.symm.trans hother
        exact not_le.mp hle
  · have hempty : candidate.emoji = [] ∨ candidate.userId = [] := by
      by_contra hfilled
      obtain ⟨hemoji, huserId⟩ := not_or.mp hfilled
      exact hnamed (by simp [named, hemoji, huserId])
    have hchanges : changes toLowerCase (.merge [candidate]) = [] := by
      simp [changes, hnamed]
    simp only [mergeTurn, if_pos hempty, hchanges]
    exact ⟨reactions, hstate, h, fun _ => rfl⟩

omit hlower in
theorem mergeTurn_unchanged {candidate : MessageReaction}
    (h : (mergeTurn toLowerCase state candidate).2 = false) :
    mergeTurn toLowerCase state candidate = state := by
  by_cases hempty : candidate.emoji = [] ∨ candidate.userId = []
  · simp only [mergeTurn, if_pos hempty]
  · simp only [mergeTurn, if_neg hempty] at h ⊢
    split at h
    · split at h
      next hle => simp only [if_pos hle]
      · cases h
    · cases h

section

variable (h : Listed toLowerCase reactions)
include h

theorem Listed.loop (hstate : state.1.entries = pairs reactions) (incoming : List MessageReaction) :
    
    ∃ merged, (incoming.foldl (mergeTurn toLowerCase) state).1.entries = pairs merged ∧
      CaughtUp toLowerCase reactions (changes toLowerCase (.merge incoming)) merged ∧
      ((incoming.foldl (mergeTurn toLowerCase) state).2 = false →
        incoming.foldl (mergeTurn toLowerCase) state = state) := by
  induction incoming generalizing reactions state with
  | nil => exact ⟨reactions, hstate, ⟨h, fun _ => rfl⟩, fun _ => rfl⟩
  | cons candidate rest ih =>
    obtain ⟨turned, hturned, hcaught⟩ := h.turn hlower hstate candidate
    obtain ⟨merged, hmerged, hrest, hflag⟩ := ih hcaught.listed hturned
    refine ⟨merged, hmerged, ?_, fun hsame => ?_⟩
    · have hchanges : changes toLowerCase (.merge (candidate :: rest)) =
          changes toLowerCase (.merge [candidate]) ++ changes toLowerCase (.merge rest) := by
        simp only [changes, ← map_append, ← filter_append, singleton_append]
      rw [hchanges]
      exact hcaught.append hrest
    · rw [foldl_cons] at hsame ⊢
      have hlast := hflag hsame
      rw [hlast] at hsame ⊢
      exact mergeTurn_unchanged hsame

theorem Listed.merge (incoming : List MessageReaction) :
    CaughtUp toLowerCase reactions (changes toLowerCase (.merge incoming))
      (receive toLowerCase reactions (.merge incoming)) := by
  have hstart := entries_byPair h.nodup fun _ hreaction => h.normalise_eq hreaction
  obtain ⟨merged, hmerged, hcaught, hflag⟩ :=
    (h.loop hlower (show (byPair toLowerCase reactions, false).1.entries = _ from hstart) incoming)
  have hvalues : ∀ values, (pairs values).map Prod.snd = values :=
    fun values => by rw [pairs, map_map]; exact map_id values
  simp only [receive, mergeReactions]
  split
  · rw [Option.getD_some, hmerged, hvalues]
    exact hcaught
  next hsame =>
    rw [hflag (Bool.eq_false_iff.mpr hsame)] at hmerged
    have heq : merged = reactions := by
      rw [← hvalues merged, ← hmerged, hstart, hvalues]
    exact heq ▸ hcaught

/-- **One reception.**  Of every pair the entry held is caught up with the changes told. -/
theorem Listed.receive (reception : Reception) :
    CaughtUp toLowerCase reactions (reception.changes toLowerCase)
      (receive toLowerCase reactions reception) := by
  cases reception with
  | apply userId emoji changedAt removed => exact h.apply hlower userId emoji changedAt removed
  | merge incoming => exact h.merge hlower incoming

end

end Receiving

/-! ## 5. All the receptions of a device -/

section

variable (hlower : ∀ text, toLowerCase (toLowerCase text) = toLowerCase text)
include hlower

theorem Listed.foldl (h : Listed toLowerCase reactions) (receptions : List Reception) :
    CaughtUp toLowerCase reactions (receptions.flatMap (changes toLowerCase))
      (receptions.foldl (MessageReactions.receive toLowerCase) reactions) := by
  induction receptions generalizing reactions with
  | nil => exact ⟨h, fun _ => rfl⟩
  | cons reception rest ih =>
    have hfirst := h.receive hlower reception
    exact hfirst.append (ih hfirst.listed)

/-- A device is left with the first to arrive of the latest changes of each pair. -/
theorem mem_receiveAll {receptions : List Reception} {change : ReactionChange} :
    change ∈ (receiveAll toLowerCase receptions).map changeOf ↔ latestOf changedAt
        ((receptions.flatMap (changes toLowerCase)).filter fun other =>
          other.key = change.key) = some change := by
  have hempty : Listed toLowerCase [] := ⟨nodup_nil, fun _ hmem => absurd hmem not_mem_nil⟩
  obtain ⟨hlisted, hat⟩ := hempty.foldl hlower receptions
  rw [receiveAll, hlisted.mem_iff, hat]
  rfl

end

variable (toLowerCase) in
/-- The receptions tell of these changes, in some order and each as often as they like. -/
def Tells (receptions : List Reception) (told : List ReactionChange) : Prop :=
  ∀ change, change ∈ receptions.flatMap (changes toLowerCase) ↔ change ∈ told

/-- The last change of its pair among those told. -/
def Last (told : List ReactionChange) (change : ReactionChange) : Prop :=
  change ∈ told ∧ ∀ other ∈ told, other.key = change.key → other.changedAt ≤ change.changedAt

def oneByOne (told : List ReactionChange) : List Reception :=
  told.map fun change => .apply change.userId change.emoji change.changedAt change.removed

theorem changes_oneByOne {told : List ReactionChange}
    (htold : ∀ change ∈ told, change.emoji ≠ [] ∧ toLowerCase change.userId = change.userId) :
    (oneByOne told).flatMap (changes toLowerCase) = told := by
  induction told with
  | nil => rfl
  | cons change rest ih =>
    obtain ⟨hemoji, hlower⟩ := htold change mem_cons_self
    have hrest := ih fun other hother => htold other (mem_cons_of_mem _ hother)
    have hhead : changes toLowerCase
        (.apply change.userId change.emoji change.changedAt change.removed) = [change] := by
      simp only [changes, if_neg hemoji, hlower]
    rw [oneByOne] at hrest ⊢
    rw [map_cons, flatMap_cons, hhead, hrest, singleton_append]

theorem tells_oneByOne {order told : List ReactionChange}
    (htold : ∀ change ∈ told, change.emoji ≠ [] ∧ toLowerCase change.userId = change.userId)
    (hsame : ∀ change, change ∈ order ↔ change ∈ told) :
    Tells toLowerCase (oneByOne order) told := by
  intro change
  rw [changes_oneByOne fun each heach => htold each ((hsame each).mp heach)]
  exact hsame change

/-- **Two devices that have received the same changes hold the same entries, exactly when no
    two last changes of a pair differ.** -/
theorem devices_agree_iff (hlower : ∀ text, toLowerCase (toLowerCase text) = toLowerCase text)
    (told : List ReactionChange)
    (htold : ∀ change ∈ told, change.emoji ≠ [] ∧ toLowerCase change.userId = change.userId) :
    (∀ first second, Tells toLowerCase first told → Tells toLowerCase second told →
      ∀ change, change ∈ (receiveAll toLowerCase first).map changeOf ↔
        change ∈ (receiveAll toLowerCase second).map changeOf) ↔
    (∀ change other, Last told change → Last told other → change.key = other.key →
      change = other) := by
  constructor
  · intro hagree change other hchange hother hkey
    -- the last change that a device hears of first is the one it keeps
    have hkept : ∀ first, Last told first → Tells toLowerCase (oneByOne (first :: told)) told ∧
        first ∈ (receiveAll toLowerCase (oneByOne (first :: told))).map changeOf := by
      intro first hfirst
      have hsame : ∀ each, each ∈ first :: told ↔ each ∈ told := by
        intro each
        rw [mem_cons]
        exact ⟨fun h => h.elim (fun heq => heq ▸ hfirst.1) id, .inr⟩
      refine ⟨tells_oneByOne htold hsame, (mem_receiveAll hlower).mpr ?_⟩
      rw [changes_oneByOne fun each heach => htold each ((hsame each).mp heach),
        filter_cons_of_pos (by simp)]
      refine latestOf_cons_of_greatest changedAt fun each heach => ?_
      obtain ⟨hmem, heachKey⟩ := mem_filter.mp heach
      exact hfirst.2 each hmem (of_decide_eq_true heachKey)
    obtain ⟨hchangeTold, hchangeKept⟩ := hkept change hchange
    obtain ⟨hotherTold, hotherKept⟩ := hkept other hother
    have hboth := (hagree _ _ hchangeTold hotherTold change).mp hchangeKept
    rw [mem_receiveAll hlower] at hboth hotherKept
    rw [hkey] at hboth
    exact Option.some.inj (hboth.symm.trans hotherKept)
  · intro hlast first second hfirst hsecond change
    rw [mem_receiveAll hlower, mem_receiveAll hlower]
    have hnewest : ∀ receptions, Tells toLowerCase receptions told →
        Newest changedAt {other | other ∈ told ∧ other.key = change.key} (latestOf changedAt
            ((receptions.flatMap (changes toLowerCase)).filter fun other =>
              other.key = change.key)) := by
      intro receptions htells
      have hseen : {other | other ∈ told ∧ other.key = change.key} =
          {other | other ∈ (receptions.flatMap (changes toLowerCase)).filter
            fun other => other.key = change.key} := by
        ext other
        simp only [Set.mem_ofPred_eq, mem_filter, htells other, decide_eq_true_eq]
      rw [hseen]
      exact newest_latestOf _ _
    have heq := (hnewest first hfirst).unique (hnewest second hsecond) (by
      rintro one ⟨hone, honeKey⟩ another ⟨hanother, hanotherKey⟩ habove habove'
      refine hlast one another ⟨hone, fun each heach hkey => ?_⟩
        ⟨hanother, fun each heach hkey => ?_⟩ (honeKey.trans hanotherKey.symm)
      · exact habove each ⟨heach, hkey.trans honeKey⟩
      · exact habove' each ⟨heach, hkey.trans hanotherKey⟩)
    rw [heq]

end Devices

/-! ## 6. Two changes of one instant -/

def thumb (removed : Bool) : ReactionChange :=
  ⟨.ofChars ['a', 'd', 'a'], .ofChars ['+'], 5, removed⟩

/-- A reaction placed and taken back in the same millisecond stays on the device that hears
    of the placing first, and is gone from the one that hears of the removal first. -/
theorem same_instant_diverges :
    Tells id (oneByOne [thumb false, thumb true]) [thumb false, thumb true] ∧
    Tells id (oneByOne [thumb true, thumb false]) [thumb false, thumb true] ∧
    (receiveAll id (oneByOne [thumb false, thumb true])).map changeOf = [thumb false] ∧
    (receiveAll id (oneByOne [thumb true, thumb false])).map changeOf = [thumb true] := by
  have hnamed : ∀ change ∈ [thumb false, thumb true],
      change.emoji ≠ [] ∧ id change.userId = change.userId := by
    decide
  refine ⟨tells_oneByOne hnamed fun _ => Iff.rfl, tells_oneByOne hnamed fun change => ?_,
    by decide, by decide⟩
  exact (List.Perm.swap (thumb false) (thumb true) []).mem_iff

/-- Placed at 5 and taken back at 7. -/
def placedThenRemoved : List ReactionChange := [thumb false, { thumb true with changedAt := 7 }]

/-- The two changes in the two orders. -/
theorem removal_after_placing_agrees :
    Tells id (oneByOne placedThenRemoved) placedThenRemoved ∧
    Tells id (oneByOne placedThenRemoved.reverse) placedThenRemoved ∧
    ∀ change, change ∈ (receiveAll id (oneByOne placedThenRemoved)).map changeOf ↔
      change ∈ (receiveAll id (oneByOne placedThenRemoved.reverse)).map changeOf := by
  have hnamed : ∀ change ∈ placedThenRemoved,
      change.emoji ≠ [] ∧ id change.userId = change.userId := by
    decide
  have hplaced : Tells id (oneByOne placedThenRemoved) placedThenRemoved :=
    tells_oneByOne hnamed fun _ => Iff.rfl
  have hremoved : Tells id (oneByOne placedThenRemoved.reverse) placedThenRemoved :=
    tells_oneByOne hnamed fun _ => mem_reverse
  refine ⟨hplaced, hremoved, (devices_agree_iff (fun _ => rfl) placedThenRemoved hnamed).mpr ?_
    _ _ hplaced hremoved⟩
  rintro change other ⟨hchange, hchangeLast⟩ ⟨hother, hotherLast⟩ _
  have hkeys : ∀ each ∈ placedThenRemoved, each.key = (thumb true).key := by decide
  have hseven : ∀ each ∈ placedThenRemoved,
      7 ≤ each.changedAt → each = { thumb true with changedAt := 7 } := by
    decide
  have hmem : { thumb true with changedAt := 7 } ∈ placedThenRemoved := by decide
  rw [hseven change hchange (hchangeLast _ hmem ((hkeys _ hmem).trans (hkeys _ hchange).symm)),
    hseven other hother (hotherLast _ hmem ((hkeys _ hmem).trans (hkeys _ hother).symm))]

end MinesApp.MessageReactions
