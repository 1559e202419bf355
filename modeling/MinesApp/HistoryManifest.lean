import MinesApp.JsString
import MinesApp.OrderedMap
import Mathlib.Data.List.Dedup
import Mathlib.Data.List.Sort
import Mathlib.Data.Set.Basic
import Mathlib.Order.SetNotation

/-!
# History digests and their difference

`frontend/src/lib/utils/chat/historyManifest.ts` summarises what a device holds for a
conversation: the ids themselves for a small store, and otherwise one fingerprint
per slice of the id space, a slice being the ids whose hash starts with a given
prefix.  The reader of a digest compares it with its own store, sliced at the
digest's depth.

Ids are lists of UTF-16 code units.  Sets are duplicate-free lists: the code sorts
every set before it uses its order.
-/

/-! ## 0. Exchanging slices of two sets

Two parties hold sets of the same kind of identifiers, and every identifier belongs to one
slice.  A party sends, out of its own set, everything in the slices of a list. -/

namespace MinesApp.SliceExchange

variable {Id Slice : Type} (sliceOf : Id → Slice)

def inSlice (held : Set Id) (slice : Slice) : Set Id := {id ∈ held | sliceOf id = slice}

def sent (held : Set Id) (slices : Set Slice) : Set Id := {id ∈ held | sliceOf id ∈ slices}

/-- The list names the slice of everything that `source` has and `target` has not. -/
def Covers (source target : Set Id) (slices : Set Slice) : Prop :=
  ∀ id ∈ source \ target, sliceOf id ∈ slices

variable {source target : Set Id} {slices : Set Slice}

theorem union_sent (h : Covers sliceOf source target slices) :
    target ∪ sent sliceOf source slices = target ∪ source := by
  ext id
  constructor
  · rintro (htarget | ⟨hsource, _⟩)
    · exact .inl htarget
    · exact .inr hsource
  · rintro (htarget | hsource)
    · exact .inl htarget
    · by_cases hheld : id ∈ target
      · exact .inl hheld
      · exact .inr ⟨hsource, h id ⟨hsource, hheld⟩⟩

/-- A list that names every slice in which the two sets differ covers both
    directions. -/
theorem covers_of_differing
    (h : ∀ slice, inSlice sliceOf source slice ≠ inSlice sliceOf target slice →
      (inSlice sliceOf source slice).Nonempty → slice ∈ slices) :
    Covers sliceOf source target slices := by
  rintro id ⟨hsource, htarget⟩
  have hmem : id ∈ inSlice sliceOf source (sliceOf id) := ⟨hsource, rfl⟩
  refine h (sliceOf id) (fun heq => htarget ?_) ⟨id, hmem⟩
  rw [heq] at hmem
  exact hmem.1

end MinesApp.SliceExchange

namespace MinesApp.HistoryManifest

open JsString SliceExchange List OrderedMap

/-! ## 1. Slices of the id space -/

/-- A message as a manifest sees it.  A timestamp is a number; `none` stands for one
    that is not finite. -/
structure HistoryEntry where
  id : Utf16
  timestamp : Option Int
deriving DecidableEq, Repr

def rangeHashHexChars : Nat := 16

def rangeTargetLeaf : Nat := 64

def maxRangeDepth : Nat := 3

def digestIdModeMax : Nat := 1000

/-- One turn of the FNV-1a loop. -/
def fnvTurn (hash : BitVec 32) (unit : Fin 65536) : BitVec 32 :=
  (hash ^^^ (BitVec.ofNat 32 unit.val &&& 0xff#32)) * 0x01000193#32

/-- MurmurHash3's finaliser. -/
def finalise (hash : BitVec 32) : BitVec 32 :=
  let hash := hash ^^^ (hash >>> 16)
  let hash := hash * 0x85ebca6b#32
  let hash := hash ^^^ (hash >>> 13)
  let hash := hash * 0xc2b2ae35#32
  hash ^^^ (hash >>> 16)

def historyRangeOf (id : Utf16) (depth : Nat) : Utf16 :=
  (hexPadded 8 (finalise (id.foldl fnvTurn 0x811c9dc5#32)).toNat).take depth

/-- The loop of `rangeDepthFor`, with the turns it has left. -/
def deepen (size : Nat) : Nat → Nat → Nat
  | 0, depth => depth
  | turns + 1, depth =>
    if 16 ^ depth * rangeTargetLeaf < size then deepen size turns (depth + 1) else depth

def rangeDepthFor (size : Nat) : Nat := deepen size (maxRangeDepth - 1) 1

/-- `[...].sort(compareIds)`. -/
def sortIds (ids : List Utf16) : List Utf16 := ids.insertionSort (· ≤ ·)

def uniqueSortedIds (entries : List HistoryEntry) : List Utf16 :=
  sortIds ((entries.map fun entry => entry.id.trim).filter (· ≠ [])).dedup

def sliceIdsByRange (ids : List Utf16) (depth : Nat) : OrderedMap Utf16 (List Utf16) :=
  (groupBy (fun id => historyRangeOf id depth) ids).mapEntries fun _ => sortIds

/-! ## 2. Digests -/

/-- `TextEncoder.encode` and `crypto.subtle.digest('SHA-256', ..)`. -/
structure Crypto where
  encode : Utf16 → List UInt8
  sha256 : List UInt8 → List UInt8

def hashIdList (crypto : Crypto) (sortedIds : List Utf16) : Utf16 :=
  let digest := crypto.sha256 (crypto.encode (join (.ofChars ['\n']) sortedIds))
  (digest.flatMap fun byte => hexPadded 2 byte.toNat).take rangeHashHexChars

structure HistoryRange where
  rangePrefix : Utf16
  count : Nat
  hash : Utf16
deriving DecidableEq, Repr

inductive HistoryDigest where
  | ids (ids : List Utf16)
  | range (depth : Nat) (ranges : List HistoryRange)
deriving DecidableEq, Repr

section

variable (crypto : Crypto) (bySlice : OrderedMap Utf16 (List Utf16))

def describeSlice (rangePrefix : Utf16) : HistoryRange :=
  let sliceIds := (bySlice.get? rangePrefix).getD []
  ⟨rangePrefix, sliceIds.length, hashIdList crypto sliceIds⟩

def describeSlices : List HistoryRange :=
  (sortIds bySlice.keys).map (describeSlice crypto bySlice)

def buildHistoryDigest (entries : List HistoryEntry) (idModeMax : Nat) : HistoryDigest :=
  let ids := uniqueSortedIds entries
  if ids.length ≤ idModeMax then .ids ids
  else
    let depth := rangeDepthFor ids.length
    .range depth (describeSlices crypto (sliceIdsByRange ids depth))

end

structure HistoryDiff where
  missingLocally : List Utf16
  missingOnPeer : List Utf16
  pullPrefixes : List Utf16
  pushPrefixes : List Utf16
deriving DecidableEq, Repr

/-- Which of the two lists a prefix goes to. -/
structure SliceVerdict where
  pull : Bool
  push : Bool
deriving DecidableEq, Repr

/-- One turn of the loop over all prefixes. -/
def compareSlice (crypto : Crypto) (mine : Option (List Utf16)) (theirs : Option HistoryRange) :
    SliceVerdict :=
  match mine, theirs with
  | none, _ => ⟨true, false⟩
  | some _, none => ⟨false, true⟩
  | some mine, some theirs =>
    let differs := theirs.count ≠ mine.length ∨ theirs.hash ≠ hashIdList crypto mine
    ⟨differs, differs⟩

def diffHistoryDigest (crypto : Crypto) (localEntries : List HistoryEntry)
    (remote : HistoryDigest) : HistoryDiff :=
  let localIds := uniqueSortedIds localEntries
  match remote with
  | .ids ids =>
    let remoteSet := (ids.filter fun id => id.trim ≠ []).dedup
    { missingLocally := sortIds (remoteSet.filter (· ∉ localIds))
      missingOnPeer := localIds.filter (· ∉ remoteSet)
      pullPrefixes := []
      pushPrefixes := [] }
  | .range depth ranges =>
    let localBySlice := sliceIdsByRange localIds depth
    let remoteBySlice := ofPairs (ranges.map fun range => (range.rangePrefix, range))
    let allPrefixes := (localBySlice.keys ++ remoteBySlice.keys).dedup
    let verdict := fun rangePrefix =>
      compareSlice crypto (localBySlice.get? rangePrefix) (remoteBySlice.get? rangePrefix)
    { missingLocally := []
      missingOnPeer := []
      pullPrefixes := (sortIds allPrefixes).filter fun rangePrefix => (verdict rangePrefix).pull
      pushPrefixes := (sortIds allPrefixes).filter fun rangePrefix => (verdict rangePrefix).push }

def isEmptyHistoryDiff (diff : HistoryDiff) : Bool :=
  diff.missingLocally.length = 0 ∧ diff.missingOnPeer.length = 0 ∧
    diff.pullPrefixes.length = 0 ∧ diff.pushPrefixes.length = 0

def selectEntryIdsForPrefixes (entries : List HistoryEntry) (prefixes : List Utf16)
    (depth : Nat) : List Utf16 :=
  if prefixes.dedup.length = 0 then []
  else (uniqueSortedIds entries).filter fun id => historyRangeOf id depth ∈ prefixes.dedup

/-- The loop of `chunkIds`, with the turns it has left. -/
def chunkLoop {Item : Type} (size : Nat) : Nat → List Item → List (List Item)
  | 0, _ => []
  | _ + 1, [] => []
  | turns + 1, item :: rest =>
    (item :: rest).take size :: chunkLoop size turns ((item :: rest).drop size)

def chunkIds {Item : Type} (items : List Item) (size : Nat) : List (List Item) :=
  chunkLoop size items.length items

variable {Item : Type} {size : Nat} {ids source target : List Utf16} {crypto : Crypto}
  {entries : List HistoryEntry}

theorem flatten_chunkLoop (hsize : 0 < size) (turns : Nat) (items : List Item)
    (h : items.length ≤ turns) : (chunkLoop size turns items).flatten = items := by
  induction turns generalizing items with
  | zero => rw [length_eq_zero_iff.mp (Nat.le_zero.mp h)]; rfl
  | succ turns ih =>
    cases items with
    | nil => rfl
    | cons item rest =>
      have hshort : ((item :: rest).drop size).length ≤ turns := by
        rw [length_drop]
        omega
      rw [chunkLoop, flatten_cons, ih _ hshort, take_append_drop]

theorem flatten_chunkIds (items : List Item) (hsize : 0 < size) :
    (chunkIds items size).flatten = items :=
  flatten_chunkLoop hsize items.length items le_rfl

/-! ## 3. Sorted id lists -/

theorem mem_sortIds {id : Utf16} : id ∈ sortIds ids ↔ id ∈ ids :=
  mem_insertionSort _

theorem strict_sortIds (h : ids.Nodup) : (sortIds ids).Pairwise (· < ·) := by
  have hsorted := pairwise_insertionSort (· ≤ ·) ids
  have hnodup : (sortIds ids).Nodup := (perm_insertionSort (· ≤ ·) ids).nodup_iff.mpr h
  exact hsorted.imp₂ (fun _ _ => lt_of_le_of_ne) hnodup

/-- Strictly sorted lists are determined by their members. -/
theorem eq_of_mem_iff {first second : List Utf16} (hfirst : first.Pairwise (· < ·))
    (hsecond : second.Pairwise (· < ·)) (h : ∀ id, id ∈ first ↔ id ∈ second) : first = second := by
  have hperm : first.Perm second :=
    (perm_ext_iff_of_nodup (hfirst.imp ne_of_lt) (hsecond.imp ne_of_lt)).mpr h
  exact hperm.eq_of_pairwise' (hfirst.imp le_of_lt) (hsecond.imp le_of_lt)

theorem strict_uniqueSortedIds (entries : List HistoryEntry) :
    (uniqueSortedIds entries).Pairwise (· < ·) :=
  strict_sortIds (nodup_dedup _)

/-- No id is empty or has white space around it. -/
def CleanIds (entries : List HistoryEntry) : Prop :=
  ∀ entry ∈ entries, entry.id ≠ [] ∧ entry.id.trim = entry.id

instance CleanIds.decidable (entries : List HistoryEntry) : Decidable (CleanIds entries) :=
  inferInstanceAs (Decidable (∀ entry ∈ entries, entry.id ≠ [] ∧ entry.id.trim = entry.id))

def idsOf (entries : List HistoryEntry) : Set Utf16 := {id | ∃ entry ∈ entries, entry.id = id}

theorem mem_uniqueSortedIds (h : CleanIds entries) {id : Utf16} :
    id ∈ uniqueSortedIds entries ↔ id ∈ idsOf entries := by
  rw [uniqueSortedIds, mem_sortIds, mem_dedup, mem_filter, mem_map]
  constructor
  · rintro ⟨⟨entry, hentry, rfl⟩, _⟩
    exact ⟨entry, hentry, (h entry hentry).2.symm⟩
  · rintro ⟨entry, hentry, rfl⟩
    refine ⟨⟨entry, hentry, (h entry hentry).2⟩, ?_⟩
    simpa using (h entry hentry).1

/-! ## 4. Slices -/

def sliceAt (ids : List Utf16) (depth : Nat) (rangePrefix : Utf16) : List Utf16 :=
  ids.filter fun id => historyRangeOf id depth = rangePrefix

theorem mem_sliceAt {depth : Nat} {rangePrefix id : Utf16} :
    id ∈ sliceAt ids depth rangePrefix ↔ id ∈ ids ∧ historyRangeOf id depth = rangePrefix := by
  rw [sliceAt, mem_filter, decide_eq_true_eq]

theorem get?_sliceIdsByRange (h : ids.Pairwise (· < ·)) (depth : Nat) (rangePrefix : Utf16) :
    (sliceIdsByRange ids depth).get? rangePrefix =
      if sliceAt ids depth rangePrefix = [] then none
      else some (sliceAt ids depth rangePrefix) := by
  rw [sliceIdsByRange, get?_mapEntries, get?_groupBy]
  have hsorted : sortIds (sliceAt ids depth rangePrefix) = sliceAt ids depth rangePrefix :=
    ((h.filter _).imp le_of_lt).insertionSort_eq
  change Option.map sortIds (if sliceAt ids depth rangePrefix = [] then none
    else some (sliceAt ids depth rangePrefix)) = _
  split
  · rfl
  · rw [Option.map_some, hsorted]

/-- What the reader finds under a prefix of a digest. -/
theorem get?_describeSlices (crypto : Crypto) (bySlice : OrderedMap Utf16 (List Utf16))
    (rangePrefix : Utf16) :
    (ofPairs ((describeSlices crypto bySlice).map fun range =>
      (range.rangePrefix, range))).get? rangePrefix =
      (bySlice.get? rangePrefix).map fun ids =>
        ⟨rangePrefix, ids.length, hashIdList crypto ids⟩ := by
  have hpairs : (describeSlices crypto bySlice).map (fun range => (range.rangePrefix, range)) =
      (sortIds bySlice.keys).map fun key => (key, describeSlice crypto bySlice key) := by
    rw [describeSlices, map_map]
    rfl
  have hnodup : (((sortIds bySlice.keys).map fun key =>
      (key, describeSlice crypto bySlice key)).map Prod.fst).Nodup := by
    rw [map_map]
    change ((sortIds bySlice.keys).map id).Nodup
    rw [map_id]
    exact (perm_insertionSort (· ≤ ·) bySlice.keys).nodup_iff.mpr bySlice.nodup
  rw [hpairs, get?_ofPairs hnodup, lookup_map]
  cases hget : bySlice.get? rangePrefix with
  | none =>
    have habsent : rangePrefix ∉ sortIds bySlice.keys := by
      rw [mem_sortIds, OrderedMap.mem_keys, hget]
      exact fun hne => hne rfl
    rw [if_neg habsent]
    rfl
  | some ids =>
    have hpresent : rangePrefix ∈ sortIds bySlice.keys := by
      rw [mem_sortIds, OrderedMap.mem_keys, hget]
      exact Option.some_ne_none ids
    rw [if_pos hpresent, describeSlice, hget]
    rfl

/-! ## 5. Reading a digest -/

/-- Count or fingerprint tell two slices apart. -/
def Distinguished (crypto : Crypto) (mine theirs : List Utf16) : Prop :=
  theirs.length ≠ mine.length ∨ hashIdList crypto theirs ≠ hashIdList crypto mine

theorem distinguished_comm (mine theirs : List Utf16) :
    Distinguished crypto mine theirs ↔ Distinguished crypto theirs mine :=
  or_congr ne_comm ne_comm

/-- The holder of `source` has something to send to the holder of `target`, for all that
    count and fingerprint tell. -/
def Listed (crypto : Crypto) (source target : List Utf16) : Prop :=
  source ≠ [] ∧ (target = [] ∨ Distinguished crypto source target)

theorem Listed.ne (h : Listed crypto source target) : source ≠ target := by
  rintro rfl
  exact h.2.elim h.1 fun hdiffer => hdiffer.elim (· rfl) (· rfl)

theorem listed_iff_of_ne_nil (hsource : source ≠ [])
    (htarget : target ≠ []) : Listed crypto source target ↔ Distinguished crypto source target := by
  rw [Listed, and_iff_right hsource, or_iff_right htarget]

/-- The digest of a list of ids at a given depth. -/
def rangeDigest (crypto : Crypto) (ids : List Utf16) (depth : Nat) : HistoryDigest :=
  .range depth (describeSlices crypto (sliceIdsByRange ids depth))

section

variable (crypto : Crypto) (localEntries : List HistoryEntry) {ids : List Utf16}
  (hids : ids.Pairwise (· < ·)) (depth : Nat) (rangePrefix : Utf16)

include hids

/-- The verdict on one prefix, in terms of the two slices. -/
theorem compareSlice_slices :
    compareSlice crypto ((sliceIdsByRange (uniqueSortedIds localEntries) depth).get? rangePrefix)
      ((ofPairs ((describeSlices crypto (sliceIdsByRange ids depth)).map fun range =>
        (range.rangePrefix, range))).get? rangePrefix) =
    compareSlice crypto (if sliceAt (uniqueSortedIds localEntries) depth rangePrefix = [] then none
        else some (sliceAt (uniqueSortedIds localEntries) depth rangePrefix))
      (if sliceAt ids depth rangePrefix = [] then none
        else some ⟨rangePrefix, (sliceAt ids depth rangePrefix).length,
          hashIdList crypto (sliceAt ids depth rangePrefix)⟩) := by
  rw [get?_describeSlices, get?_sliceIdsByRange (strict_uniqueSortedIds localEntries),
    get?_sliceIdsByRange hids]
  split <;> split <;> rfl

theorem mem_allPrefixes :
    rangePrefix ∈ sortIds ((sliceIdsByRange (uniqueSortedIds localEntries) depth).keys ++
      (ofPairs ((describeSlices crypto (sliceIdsByRange ids depth)).map fun range =>
        (range.rangePrefix, range))).keys).dedup ↔
      sliceAt (uniqueSortedIds localEntries) depth rangePrefix ≠ [] ∨
        sliceAt ids depth rangePrefix ≠ [] := by
  rw [mem_sortIds, mem_dedup, mem_append, OrderedMap.mem_keys, OrderedMap.mem_keys,
    get?_describeSlices, get?_sliceIdsByRange (strict_uniqueSortedIds localEntries),
    get?_sliceIdsByRange hids]
  refine or_congr ?_ ?_
  all_goals split <;> simp_all

/-- A prefix is listed in the direction of a side that has something to send. -/
theorem mem_prefixes :
    let diff := diffHistoryDigest crypto localEntries (rangeDigest crypto ids depth)
    let mine := sliceAt (uniqueSortedIds localEntries) depth rangePrefix
    let theirs := sliceAt ids depth rangePrefix
    (rangePrefix ∈ diff.pullPrefixes ↔ Listed crypto theirs mine) ∧
      (rangePrefix ∈ diff.pushPrefixes ↔ Listed crypto mine theirs) := by
  simp only [diffHistoryDigest, rangeDigest, mem_filter]
  rw [mem_allPrefixes crypto localEntries hids, compareSlice_slices crypto localEntries hids]
  by_cases hmine : sliceAt (uniqueSortedIds localEntries) depth rangePrefix = []
  · by_cases htheirs : sliceAt ids depth rangePrefix = []
    · simp [hmine, htheirs, Listed]
    · simp [hmine, htheirs, compareSlice, Listed]
  · by_cases htheirs : sliceAt ids depth rangePrefix = []
    · simp [hmine, htheirs, compareSlice, Listed]
    · rw [listed_iff_of_ne_nil htheirs hmine, listed_iff_of_ne_nil hmine htheirs,
        distinguished_comm (sliceAt ids depth rangePrefix)]
      simp [hmine, htheirs, compareSlice, Distinguished]

end

/-- The fingerprint separates the slices that a diff of the two stores compares: a
    hash is looked at only for two slices of the same size. -/
def HashSeparates (crypto : Crypto) (mine theirs : List Utf16) (depth : Nat) : Prop :=
  ∀ rangePrefix, sliceAt mine depth rangePrefix ≠ [] → sliceAt theirs depth rangePrefix ≠ [] →
    (sliceAt theirs depth rangePrefix).length = (sliceAt mine depth rangePrefix).length →
    hashIdList crypto (sliceAt theirs depth rangePrefix) =
      hashIdList crypto (sliceAt mine depth rangePrefix) →
    sliceAt theirs depth rangePrefix = sliceAt mine depth rangePrefix

variable {crypto : Crypto} {mine theirs : List Utf16} {depth : Nat}

/-- Only the slices that hold an id have to be compared. -/
theorem hashSeparates_iff :
    HashSeparates crypto mine theirs depth ↔ ∀ rangePrefix ∈ mine.map (historyRangeOf · depth),
      sliceAt theirs depth rangePrefix ≠ [] →
      (sliceAt theirs depth rangePrefix).length = (sliceAt mine depth rangePrefix).length →
      hashIdList crypto (sliceAt theirs depth rangePrefix) =
        hashIdList crypto (sliceAt mine depth rangePrefix) →
      sliceAt theirs depth rangePrefix = sliceAt mine depth rangePrefix := by
  constructor
  · intro h rangePrefix hlisted
    obtain ⟨id, hid, hrange⟩ := mem_map.mp hlisted
    exact h rangePrefix (ne_nil_of_mem (mem_sliceAt.mpr ⟨hid, hrange⟩))
  · intro h rangePrefix hmine
    obtain ⟨id, hid⟩ := exists_mem_of_ne_nil _ hmine
    obtain ⟨hheld, hrange⟩ := mem_sliceAt.mp hid
    exact h rangePrefix (mem_map.mpr ⟨id, hheld, hrange⟩)

instance HashSeparates.decidable (crypto : Crypto) (mine theirs : List Utf16) (depth : Nat) :
    Decidable (HashSeparates crypto mine theirs depth) :=
  decidable_of_iff _ hashSeparates_iff.symm

theorem HashSeparates.symm (h : HashSeparates crypto mine theirs depth) :
    HashSeparates crypto theirs mine depth :=
  fun rangePrefix htheirs hmine hlength hhash =>
    (h rangePrefix hmine htheirs hlength.symm hhash.symm).symm

theorem listed_of_ne (h : HashSeparates crypto source target depth) {rangePrefix : Utf16}
    (hsource : sliceAt source depth rangePrefix ≠ [])
    (hne : sliceAt source depth rangePrefix ≠ sliceAt target depth rangePrefix) :
    Listed crypto (sliceAt source depth rangePrefix) (sliceAt target depth rangePrefix) := by
  refine ⟨hsource, or_iff_not_imp_left.mpr fun htarget => ?_⟩
  by_contra hsame
  rw [Distinguished, not_or, not_not, not_not] at hsame
  exact hne (h rangePrefix hsource htarget hsame.1 hsame.2).symm

/-! ## 6. Stores and exchanges -/

section Exchange

variable {crypto : Crypto} {localEntries peerEntries : List HistoryEntry}

theorem buildHistoryDigest_cases (crypto : Crypto) (entries : List HistoryEntry) (idModeMax : Nat) :
    buildHistoryDigest crypto entries idModeMax = .ids (uniqueSortedIds entries) ∨
    buildHistoryDigest crypto entries idModeMax = rangeDigest crypto (uniqueSortedIds entries)
        (rangeDepthFor (uniqueSortedIds entries).length) := by
  simp only [buildHistoryDigest]
  split
  · exact .inl rfl
  · exact .inr rfl

/-- Reading the ids of a clean store: nothing is dropped for being blank. -/
theorem mem_remoteSet (hpeer : CleanIds peerEntries) {id : Utf16} :
    id ∈ ((uniqueSortedIds peerEntries).filter fun id => id.trim ≠ []).dedup ↔
      id ∈ idsOf peerEntries := by
  rw [mem_dedup, mem_filter, mem_uniqueSortedIds hpeer]
  refine ⟨And.left, fun h => ⟨h, ?_⟩⟩
  obtain ⟨entry, hentry, rfl⟩ := h
  rw [decide_eq_true_eq, (hpeer entry hentry).2]
  exact (hpeer entry hentry).1

theorem nodup_missingLocally (crypto : Crypto) (localEntries : List HistoryEntry)
    (ids : List Utf16) : (diffHistoryDigest crypto localEntries (.ids ids)).missingLocally.Nodup :=
  (strict_sortIds ((nodup_dedup _).filter _)).imp ne_of_lt

theorem inSlice_idsOf (h : CleanIds entries) (depth : Nat) (rangePrefix : Utf16) :
    inSlice (fun id => historyRangeOf id depth) (idsOf entries) rangePrefix =
      {id | id ∈ sliceAt (uniqueSortedIds entries) depth rangePrefix} := by
  ext id
  change (id ∈ idsOf entries ∧ _) ↔ id ∈ sliceAt _ _ _
  rw [mem_sliceAt, mem_uniqueSortedIds h]

section Stores

variable (hlocal : CleanIds localEntries) (hpeer : CleanIds peerEntries)
include hlocal hpeer

theorem mem_missingLocally {id : Utf16} :
    id ∈ (diffHistoryDigest crypto localEntries (.ids (uniqueSortedIds peerEntries))).missingLocally
      ↔ id ∈ idsOf peerEntries \ idsOf localEntries := by
  simp only [diffHistoryDigest]
  rw [mem_sortIds, mem_filter, mem_remoteSet hpeer, decide_eq_true_eq, mem_uniqueSortedIds hlocal]
  rfl

theorem mem_missingOnPeer {id : Utf16} :
    id ∈ (diffHistoryDigest crypto localEntries (.ids (uniqueSortedIds peerEntries))).missingOnPeer
      ↔ id ∈ idsOf localEntries \ idsOf peerEntries := by
  simp only [diffHistoryDigest]
  rw [mem_filter, decide_eq_true_eq, mem_remoteSet hpeer, mem_uniqueSortedIds hlocal]
  rfl

theorem sliceAt_eq_iff (depth : Nat) (rangePrefix : Utf16) :
    sliceAt (uniqueSortedIds localEntries) depth rangePrefix =
        sliceAt (uniqueSortedIds peerEntries) depth rangePrefix ↔
      inSlice (fun id => historyRangeOf id depth) (idsOf localEntries) rangePrefix =
        inSlice (fun id => historyRangeOf id depth) (idsOf peerEntries) rangePrefix := by
  rw [inSlice_idsOf hlocal, inSlice_idsOf hpeer]
  constructor
  · intro h
    rw [h]
  · intro h
    refine eq_of_mem_iff ((strict_uniqueSortedIds _).filter _)
      ((strict_uniqueSortedIds _).filter _) ?_
    exact fun id => Set.ext_iff.mp h id

theorem differing_of_listed {rangePrefix : Utf16}
    (h : rangePrefix ∈ (diffHistoryDigest crypto localEntries
        (rangeDigest crypto (uniqueSortedIds peerEntries) depth)).pullPrefixes ∨
      rangePrefix ∈ (diffHistoryDigest crypto localEntries
        (rangeDigest crypto (uniqueSortedIds peerEntries) depth)).pushPrefixes) :
    inSlice (fun id => historyRangeOf id depth) (idsOf localEntries) rangePrefix ≠
      inSlice (fun id => historyRangeOf id depth) (idsOf peerEntries) rangePrefix := by
  rw [ne_eq, ← sliceAt_eq_iff hlocal hpeer depth rangePrefix]
  obtain ⟨hpull, hpush⟩ :=
    mem_prefixes crypto localEntries (strict_uniqueSortedIds peerEntries) depth rangePrefix
  rcases h with hlisted | hlisted
  · exact (hpull.mp hlisted).ne.symm
  · exact (hpush.mp hlisted).ne

/-- The diff of two stores with the same ids is empty, whatever the mode and the
    depth of the digest. -/
theorem isEmptyHistoryDiff_of_same_ids (crypto : Crypto)
    (hsame : idsOf localEntries = idsOf peerEntries) (idModeMax : Nat) :
    isEmptyHistoryDiff (diffHistoryDigest crypto localEntries
      (buildHistoryDigest crypto peerEntries idModeMax)) = true := by
  rw [isEmptyHistoryDiff, decide_eq_true_eq]
  simp only [length_eq_zero_iff, eq_nil_iff_forall_not_mem]
  rcases buildHistoryDigest_cases crypto peerEntries idModeMax with hmode | hmode <;> rw [hmode]
  · refine ⟨fun id hid => ?_, fun id hid => ?_, fun _ => not_mem_nil, fun _ => not_mem_nil⟩
    · rw [mem_missingLocally hlocal hpeer, hsame] at hid
      exact hid.2 hid.1
    · rw [mem_missingOnPeer hlocal hpeer, hsame] at hid
      exact hid.2 hid.1
  · refine ⟨fun _ => not_mem_nil, fun _ => not_mem_nil, fun rangePrefix hlisted => ?_,
      fun rangePrefix hlisted => ?_⟩
    · exact differing_of_listed hlocal hpeer (.inl hlisted) (by rw [hsame])
    · exact differing_of_listed hlocal hpeer (.inr hlisted) (by rw [hsame])

section

variable {depth : Nat}
  (hhash : HashSeparates crypto (uniqueSortedIds localEntries) (uniqueSortedIds peerEntries) depth)
include hhash

/-- Every slice in which the stores differ is listed in the direction of the side
    that has something to send. -/
theorem covers_of_listed {slices : Set Utf16}
    (h : ∀ rangePrefix, Listed crypto (sliceAt (uniqueSortedIds localEntries) depth rangePrefix)
      (sliceAt (uniqueSortedIds peerEntries) depth rangePrefix) → rangePrefix ∈ slices) :
    Covers (fun id => historyRangeOf id depth) (idsOf localEntries) (idsOf peerEntries)
      slices := by
  apply covers_of_differing
  intro rangePrefix hne ⟨id, hid⟩
  rw [inSlice_idsOf hlocal] at hid
  rw [ne_eq, ← sliceAt_eq_iff hlocal hpeer] at hne
  exact h rangePrefix (listed_of_ne hhash (ne_nil_of_mem hid) hne)

theorem covers_pullPrefixes :
    Covers (fun id => historyRangeOf id depth) (idsOf peerEntries) (idsOf localEntries)
      {rangePrefix | rangePrefix ∈ (diffHistoryDigest crypto localEntries
        (rangeDigest crypto (uniqueSortedIds peerEntries) depth)).pullPrefixes} :=
  covers_of_listed hpeer hlocal hhash.symm fun rangePrefix =>
    (mem_prefixes crypto localEntries (strict_uniqueSortedIds peerEntries) depth rangePrefix).1.mpr

theorem covers_pushPrefixes :
    Covers (fun id => historyRangeOf id depth) (idsOf localEntries) (idsOf peerEntries)
      {rangePrefix | rangePrefix ∈ (diffHistoryDigest crypto localEntries
        (rangeDigest crypto (uniqueSortedIds peerEntries) depth)).pushPrefixes} :=
  covers_of_listed hlocal hpeer hhash fun rangePrefix =>
    (mem_prefixes crypto localEntries (strict_uniqueSortedIds peerEntries) depth rangePrefix).2.mpr

end

end Stores

theorem mem_selectEntryIdsForPrefixes (h : CleanIds entries) {prefixes : List Utf16} {id : Utf16} :
    id ∈ selectEntryIdsForPrefixes entries prefixes depth ↔
      id ∈ idsOf entries ∧ historyRangeOf id depth ∈ prefixes := by
  unfold selectEntryIdsForPrefixes
  split
  next hempty =>
    rw [length_eq_zero_iff, dedup_eq_nil] at hempty
    rw [hempty]
    exact ⟨nofun, fun hmem => nomatch hmem.2⟩
  · rw [mem_filter, mem_uniqueSortedIds h, decide_eq_true_eq, mem_dedup]

/-- What is selected for a list of prefixes is what the holder sends for those
    slices. -/
theorem setOf_selectEntryIds (h : CleanIds entries) (prefixes : List Utf16) (depth : Nat) :
    {id | id ∈ selectEntryIdsForPrefixes entries prefixes depth} =
      sent (fun id => historyRangeOf id depth) (idsOf entries)
        {rangePrefix | rangePrefix ∈ prefixes} :=
  Set.ext fun _ => mem_selectEntryIdsForPrefixes h

/-- The ids the reader asks the peer for, and the ids it offers, in the mode of the
    digest it answers. -/
def idsToPull (peerEntries : List HistoryEntry) (digest : HistoryDigest) (diff : HistoryDiff) :
    List Utf16 :=
  match digest with
  | .ids _ => diff.missingLocally
  | .range depth _ => selectEntryIdsForPrefixes peerEntries diff.pullPrefixes depth

def idsToPush (localEntries : List HistoryEntry) (digest : HistoryDigest) (diff : HistoryDiff) :
    List Utf16 :=
  match digest with
  | .ids _ => diff.missingOnPeer
  | .range depth _ => selectEntryIdsForPrefixes localEntries diff.pushPrefixes depth

/-- In the mode of the digest, the holder of an id sends it to the other side. -/
def Sends (crypto : Crypto) (digest : HistoryDigest) (holder other : List HistoryEntry)
    (id : Utf16) : Prop :=
  match digest with
  | .ids _ => id ∉ idsOf other
  | .range depth _ =>
    Listed crypto (sliceAt (uniqueSortedIds holder) depth (historyRangeOf id depth))
      (sliceAt (uniqueSortedIds other) depth (historyRangeOf id depth))

section

variable {idModeMax : Nat} (hlocal : CleanIds localEntries) (hpeer : CleanIds peerEntries)
  {id : Utf16}

include hlocal hpeer

theorem mem_idsToPush (hheld : id ∈ idsOf localEntries) :
    let digest := buildHistoryDigest crypto peerEntries idModeMax
    let diff := diffHistoryDigest crypto localEntries digest
    id ∈ idsToPush localEntries digest diff ↔ Sends crypto digest localEntries peerEntries id := by
  intro digest diff
  rcases buildHistoryDigest_cases crypto peerEntries idModeMax with hmode | hmode
  · simp only [digest, diff, hmode, idsToPush, Sends]
    exact (mem_missingOnPeer hlocal hpeer).trans (and_iff_right hheld)
  · have hlisted := fun depth => (mem_prefixes crypto localEntries
      (strict_uniqueSortedIds peerEntries) depth (historyRangeOf id depth)).2
    simp only [digest, diff, hmode, rangeDigest, idsToPush, Sends] at hlisted ⊢
    rw [mem_selectEntryIdsForPrefixes hlocal, and_iff_right hheld]
    exact hlisted _

/-- The peer answers a pull out of what it holds by then. -/
theorem mem_idsToPull {holder : List HistoryEntry} (hholder : CleanIds holder)
    (hheld : id ∈ idsOf peerEntries) (hstill : id ∈ idsOf holder) :
    let digest := buildHistoryDigest crypto peerEntries idModeMax
    let diff := diffHistoryDigest crypto localEntries digest
    id ∈ idsToPull holder digest diff ↔ Sends crypto digest peerEntries localEntries id := by
  intro digest diff
  rcases buildHistoryDigest_cases crypto peerEntries idModeMax with hmode | hmode
  · simp only [digest, diff, hmode, idsToPull, Sends]
    exact (mem_missingLocally hlocal hpeer).trans (and_iff_right hheld)
  · have hlisted := fun depth => (mem_prefixes crypto localEntries
      (strict_uniqueSortedIds peerEntries) depth (historyRangeOf id depth)).1
    simp only [digest, diff, hmode, rangeDigest, idsToPull, Sends] at hlisted ⊢
    rw [mem_selectEntryIdsForPrefixes hholder, and_iff_right hstill]
    exact hlisted _

end

theorem sliceAt_ne_nil (h : CleanIds entries) {id : Utf16} (hheld : id ∈ idsOf entries)
    (depth : Nat) : sliceAt (uniqueSortedIds entries) depth (historyRangeOf id depth) ≠ [] :=
  ne_nil_of_mem (mem_sliceAt.mpr ⟨(mem_uniqueSortedIds h).mpr hheld, rfl⟩)

section

variable {digest : HistoryDigest} {holder other : List HistoryEntry} {id : Utf16}
  (hholder : CleanIds holder) (hother : CleanIds other) (hheld : id ∈ idsOf holder)
include hholder hother hheld

/-- An id that both sides hold is sent for the sake of its slice only. -/
theorem sends_of_both (hshared : id ∈ idsOf other) :
    Sends crypto digest holder other id ↔ ∃ depth ranges, digest = .range depth ranges ∧
      Distinguished crypto (sliceAt (uniqueSortedIds holder) depth (historyRangeOf id depth))
        (sliceAt (uniqueSortedIds other) depth (historyRangeOf id depth)) := by
  cases digest with
  | ids ids => exact iff_of_false (fun hmissing => hmissing hshared) (by simp)
  | range depth ranges =>
    rw [Sends, listed_iff_of_ne_nil (sliceAt_ne_nil hholder hheld depth)
      (sliceAt_ne_nil hother hshared depth)]
    simp

theorem sends_of_missing (hmissing : id ∉ idsOf other)
    (hhash : ∀ depth ranges, digest = .range depth ranges →
      HashSeparates crypto (uniqueSortedIds holder) (uniqueSortedIds other) depth) :
    Sends crypto digest holder other id := by
  cases digest with
  | ids ids => exact hmissing
  | range depth ranges =>
    refine listed_of_ne (hhash depth ranges rfl) (sliceAt_ne_nil hholder hheld depth) fun heq => ?_
    have hmem : id ∈ sliceAt (uniqueSortedIds other) depth (historyRangeOf id depth) := by
      rw [← heq]
      exact mem_sliceAt.mpr ⟨(mem_uniqueSortedIds hholder).mpr hheld, rfl⟩
    exact hmissing ((mem_uniqueSortedIds hother).mp (mem_sliceAt.mp hmem).1)

end

theorem cleanIds_of_union (hlocal : CleanIds localEntries) (hpeer : CleanIds peerEntries)
    {after : List HistoryEntry} (h : idsOf after = idsOf localEntries ∪ idsOf peerEntries) :
    CleanIds after := by
  intro entry hentry
  have hid : entry.id ∈ idsOf localEntries ∪ idsOf peerEntries := by
    rw [← h]
    exact ⟨entry, hentry, rfl⟩
  rcases hid with ⟨source, hsource, hsame⟩ | ⟨source, hsource, hsame⟩
  · rw [← hsame]
    exact hlocal source hsource
  · rw [← hsame]
    exact hpeer source hsource

/-- **Digest diff soundness and completeness.**  A diff of a store against the digest
    of another is exact in ids mode; in range mode it lists the slice of everything
    either side lacks, in the right direction, and no slice that is the same on both
    sides.  Exchanging what it asks for leaves both stores, whatever the timestamps
    and the order of their entries, with the union of the ids, and the next diff
    empty. -/
theorem digest_diff_exact (idModeMax : Nat) (hlocal : CleanIds localEntries)
    (hpeer : CleanIds peerEntries)
    (hhash : ∀ depth ranges, buildHistoryDigest crypto peerEntries idModeMax = .range depth ranges →
      HashSeparates crypto (uniqueSortedIds localEntries) (uniqueSortedIds peerEntries) depth) :
    let digest := buildHistoryDigest crypto peerEntries idModeMax
    let diff := diffHistoryDigest crypto localEntries digest
    (∀ ids, digest = .ids ids → (diff.missingLocally.Nodup ∧
        ∀ id, id ∈ diff.missingLocally ↔ id ∈ idsOf peerEntries \ idsOf localEntries) ∧
      (diff.missingOnPeer.Nodup ∧
        ∀ id, id ∈ diff.missingOnPeer ↔ id ∈ idsOf localEntries \ idsOf peerEntries)) ∧
    (∀ depth ranges, digest = .range depth ranges → (∀ id ∈ idsOf peerEntries \ idsOf localEntries,
        historyRangeOf id depth ∈ diff.pullPrefixes) ∧
      (∀ id ∈ idsOf localEntries \ idsOf peerEntries, historyRangeOf id depth ∈ diff.pushPrefixes) ∧
      (∀ rangePrefix, rangePrefix ∈ diff.pullPrefixes ∨ rangePrefix ∈ diff.pushPrefixes →
        inSlice (fun id => historyRangeOf id depth) (idsOf localEntries) rangePrefix ≠
          inSlice (fun id => historyRangeOf id depth) (idsOf peerEntries) rangePrefix)) ∧
    (∀ localAfter peerAfter : List HistoryEntry,
      idsOf localAfter = idsOf localEntries ∪ {id | id ∈ idsToPull peerEntries digest diff} →
      idsOf peerAfter = idsOf peerEntries ∪ {id | id ∈ idsToPush localEntries digest diff} →
      idsOf localAfter = idsOf localEntries ∪ idsOf peerEntries ∧
      idsOf peerAfter = idsOf localEntries ∪ idsOf peerEntries ∧
      isEmptyHistoryDiff (diffHistoryDigest crypto localAfter
        (buildHistoryDigest crypto peerAfter idModeMax)) = true) := by
  intro digest diff
  have hunion : idsOf localEntries ∪ {id | id ∈ idsToPull peerEntries digest diff} =
        idsOf localEntries ∪ idsOf peerEntries ∧
      idsOf peerEntries ∪ {id | id ∈ idsToPush localEntries digest diff} =
        idsOf localEntries ∪ idsOf peerEntries := by
    rcases buildHistoryDigest_cases crypto peerEntries idModeMax with hmode | hmode
    · have hpull : {id | id ∈ idsToPull peerEntries digest diff} =
          idsOf peerEntries \ idsOf localEntries := by
        ext id
        simp only [digest, diff, hmode, idsToPull]
        exact mem_missingLocally hlocal hpeer
      have hpush : {id | id ∈ idsToPush localEntries digest diff} =
          idsOf localEntries \ idsOf peerEntries := by
        ext id
        simp only [digest, diff, hmode, idsToPush]
        exact mem_missingOnPeer hlocal hpeer
      rw [hpull, hpush, Set.union_sdiff_self, Set.union_sdiff_self]
      exact ⟨rfl, Set.union_comm _ _⟩
    · have hseparates := hhash _ _ hmode
      have hpull := union_sent _ (covers_pullPrefixes hlocal hpeer hseparates)
      have hpush := union_sent _ (covers_pushPrefixes hlocal hpeer hseparates)
      rw [← setOf_selectEntryIds hpeer] at hpull
      rw [← setOf_selectEntryIds hlocal] at hpush
      simp only [digest, diff, hmode, rangeDigest, idsToPull, idsToPush] at hpull hpush ⊢
      exact ⟨hpull, hpush.trans (Set.union_comm _ _)⟩
  refine ⟨?_, ?_, ?_⟩
  · intro ids hmode
    rcases buildHistoryDigest_cases crypto peerEntries idModeMax with hids | hrange
    · simp only [diff, digest, hids]
      exact ⟨⟨nodup_missingLocally crypto localEntries _,
          fun id => mem_missingLocally hlocal hpeer⟩,
        ⟨((strict_uniqueSortedIds localEntries).filter _).imp ne_of_lt,
          fun id => mem_missingOnPeer hlocal hpeer⟩⟩
    · cases hrange.symm.trans hmode
  · intro depth ranges hmode
    have hseparates := hhash depth ranges hmode
    rcases buildHistoryDigest_cases crypto peerEntries idModeMax with hids | hrange
    · cases hids.symm.trans hmode
    · cases hrange.symm.trans hmode
      simp only [diff, digest, hrange]
      exact ⟨covers_pullPrefixes hlocal hpeer hseparates,
        covers_pushPrefixes hlocal hpeer hseparates,
        fun rangePrefix => differing_of_listed hlocal hpeer⟩
  · intro localAfter peerAfter hlocalAfter hpeerAfter
    have hleft := hlocalAfter.trans hunion.1
    have hright := hpeerAfter.trans hunion.2
    refine ⟨hleft, hright, ?_⟩
    exact isEmptyHistoryDiff_of_same_ids (cleanIds_of_union hlocal hpeer hleft)
      (cleanIds_of_union hlocal hpeer hright) crypto (hleft.trans hright.symm) idModeMax

end Exchange

/-- Two overlapping stores, described by slices. -/
theorem digest_diff_exact_overlapping :
    let crypto : Crypto := ⟨fun text => text.map fun unit => UInt8.ofNat unit.val, id⟩
    let localEntries : List HistoryEntry := [⟨.ofChars ['b'], some 5⟩, ⟨.ofChars ['a'], some 9⟩]
    let peerEntries : List HistoryEntry := [⟨.ofChars ['c'], some 7⟩, ⟨.ofChars ['b'], some 4⟩]
    let digest := buildHistoryDigest crypto peerEntries 0
    let diff := diffHistoryDigest crypto localEntries digest
    idsToPush localEntries digest diff = [.ofChars ['a']] ∧
    idsToPull peerEntries digest diff = [.ofChars ['c']] ∧
    isEmptyHistoryDiff (diffHistoryDigest crypto
      [⟨.ofChars ['b'], some 5⟩, ⟨.ofChars ['a'], some 9⟩, ⟨.ofChars ['c'], some 7⟩]
      (buildHistoryDigest crypto
        [⟨.ofChars ['c'], some 7⟩, ⟨.ofChars ['b'], some 4⟩, ⟨.ofChars ['a'], some 9⟩]
        0)) = true := by
  intro crypto localEntries peerEntries digest diff
  have hpull : idsToPull peerEntries digest diff = [.ofChars ['c']] := by decide
  have hpush : idsToPush localEntries digest diff = [.ofChars ['a']] := by decide
  have hhash : ∀ depth ranges, digest = .range depth ranges →
      HashSeparates crypto (uniqueSortedIds localEntries) (uniqueSortedIds peerEntries) depth := by
    intro depth ranges hmode
    have hdigest : digest = rangeDigest crypto (uniqueSortedIds peerEntries) 1 := by decide
    cases hdigest.symm.trans hmode
    decide
  refine ⟨hpush, hpull, ?_⟩
  refine ((digest_diff_exact 0 (by decide) (by decide) hhash).2.2 _ _ ?_ ?_).2.2
  · ext id
    simp only [idsOf, localEntries, Set.mem_union, Set.mem_ofPred_eq, mem_cons, not_mem_nil]
    grind
  · ext id
    simp only [idsOf, peerEntries, Set.mem_union, Set.mem_ofPred_eq, mem_cons, not_mem_nil]
    grind

end MinesApp.HistoryManifest
