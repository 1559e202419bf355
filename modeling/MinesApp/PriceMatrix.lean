import MinesApp.PlainObject
import MinesApp.Audience

/-!
# The price matrix and the part of it a page is shown

`price-matrix.ts`: a grid has one price per combination of buckets, keyed by the bucket ids
joined with `|`.  The charge looks up the cell of the person's own buckets.  The page that a
person fills is shown a view of the grid in which the dimensions about the person are already
resolved, and which is keyed by the buckets of the answer dimensions alone.

The view and the charge agree.  The one exception is a bucket called `__proto__` in a grid with a
single answer dimension, whose price the view cannot hold.

Prices are integers: a fractional number is refused when the grid is saved.
-/

namespace MinesApp.Pricing

open PlainObject List OrderedMap

/-! ## 1. Cells and keys -/

/-- A price in cents, or `none` for a combination that does not exist. -/
abbrev CellValue : Type := Option Int

structure PriceMatrix where
  dimensions : List Dimension
  cells : OrderedMap String CellValue

/-- What the grid prices, on which two messages depend. -/
inductive PricedSubject where
  | form
  | product
deriving DecidableEq

def noCellMessage : PricedSubject → String → String
  | .form, key =>
    "This form has no price for your situation (cell \"" ++ key ++
      "\"). Its manager must complete the pricing grid."
  | .product, key =>
    "This product has no price for your situation (cell \"" ++ key ++
      "\"). Its association must complete the pricing grid."

def allUnavailableMessage : PricedSubject → String
  | .form =>
    "Every combination of this grid is marked unavailable, so nobody could answer. " ++
      "Close the form instead."
  | .product =>
    "Every combination of this grid is marked unavailable, so nobody could buy this. " ++
      "Take the product off sale instead."

def hasCell (cells : OrderedMap String CellValue) (key : String) : Bool := (cells.get? key).isSome

section

variable (dimensions : List Dimension) (matrix : PriceMatrix) (facts : PricingFacts)

def expectedCellCount : Nat :=
  dimensions.foldl (fun n d => n * (d.bucketIds.length + 1)) 1

def cellKey (bucketIds : List String) : String := "|".intercalate bucketIds

def allCellKeys : List String :=
  dimensions.foldl
    (fun keys d => keys.flatMap fun start =>
      (d.bucketIds ++ [othersBucketId]).map fun id =>
        if start = "" then id else start ++ "|" ++ id)
    [""]

def cellKeyFor : String :=
  cellKey (matrix.dimensions.map fun d => bucketFor d facts)

/-- The base price of a person; a missing cell is an error, an unavailable one is not. -/
def resolveCellPrice (subject : PricedSubject) : Except String CellValue :=
  match matrix.cells.get? (cellKeyFor matrix facts) with
  | none => .error (noCellMessage subject (cellKeyFor matrix facts))
  | some price => .ok price

end

/-! ## 2. The check made when a grid is saved -/

def require (condition : Bool) (message : String) : Except String Unit :=
  if condition then .ok () else .error message

variable {ids combination : List String} {dimensions : List Dimension} {matrix : PriceMatrix}
  {maxCells : Nat} {facts : PricingFacts} {seen first second : List String} {start : String}
  {viewFacts : PricingFacts} {bucketIds : List (List String)}

theorem require_eq_ok {condition : Bool} {message : String} :
    require condition message = .ok () ↔ condition = true := by
  cases condition with
  | true => exact ⟨fun _ => rfl, fun _ => rfl⟩
  | false => exact ⟨fun h => (by cases h), fun h => (by cases h)⟩

theorem bind_eq_ok {first next : Except String Unit} :
    (first >>= fun _ => next) = .ok () ↔ first = .ok () ∧ next = .ok () := by
  cases first with
  | ok _ => exact ⟨fun h => ⟨rfl, h⟩, fun h => h.2⟩
  | error _ => exact ⟨fun h => (by cases h), fun h => (by cases h.1)⟩

/-- The inner loop: `seen` is the set `ids`. -/
def checkBucketIds (dimensionId : String) : List String → List String → Except String Unit
  | _, [] => .ok ()
  | seen, id :: rest => do
    require (id ≠ othersBucketId) ("\"" ++ othersBucketId ++
      "\" is reserved: every criterion already ends with an \"everyone else\" group.")
    require (id ∉ seen) ("Duplicate group \"" ++ id ++ "\" in criterion \"" ++ dimensionId ++ "\".")
    checkBucketIds dimensionId (id :: seen) rest

def checkOverlap (d : Dimension) : Except String Unit :=
  match findOverlappingBuckets d with
  | [] => .ok ()
  | (first, second) :: _ =>
    .error ("Groups \"" ++ first ++ "\" and \"" ++ second ++ "\" of criterion \"" ++ d.id ++
      "\" can both apply to the same person, so the price would depend on their order. " ++
      "Make them exclusive.")

/-- The outer loop: `seen` is the set `seenDimensionIds`. -/
def checkDimensions : List String → List Dimension → Except String Unit
  | _, [] => .ok ()
  | seen, d :: rest => do
    require (d.id ∉ seen) ("Duplicate criterion \"" ++ d.id ++ "\" in the pricing grid.")
    require (!d.bucketIds.isEmpty) ("Criterion \"" ++ d.id ++
      "\" has no group, so it separates nobody. Remove it or add a group.")
    checkBucketIds d.id [] d.bucketIds
    checkOverlap d
    checkDimensions (d.id :: seen) rest

def isAmount : CellValue → Bool
  | none => true
  | some cents => 0 ≤ cents

def assertMatrixValid (matrix : PriceMatrix) (maxCells : Nat) (subject : PricedSubject) :
    Except String Unit := do
  let dimensions := matrix.dimensions
  require (!dimensions.isEmpty) "A pricing grid needs at least one criterion."
  checkDimensions [] dimensions
  let expected := expectedCellCount dimensions
  require (expected ≤ maxCells) ("This grid would have " ++ toString expected ++
    " prices to fill (limit " ++ toString maxCells ++ "). Use fewer groups.")
  let required := allCellKeys dimensions
  let missing := required.filter fun key => !hasCell matrix.cells key
  require missing.isEmpty ("The pricing grid is incomplete: " ++ toString missing.length ++
    " price(s) missing, starting with \"" ++ missing.head?.getD "" ++ "\".")
  let extra := matrix.cells.keys.filter fun key => key ∉ required
  require extra.isEmpty ("The pricing grid has " ++ toString extra.length ++
    " price(s) that match no combination, starting with \"" ++ extra.head?.getD "" ++ "\".")
  let refused := matrix.cells.entries.filter fun entry => !isAmount entry.2
  require refused.isEmpty ("Price \"" ++ (refused.head?.map Prod.fst).getD "" ++
    "\" must be a whole number of cents, at least 0.")
  require (!required.all fun key => matrix.cells.get? key = some none)
    (allUnavailableMessage subject)

structure ValidDimension (d : Dimension) : Prop where
  nonempty : d.bucketIds ≠ []
  not_reserved : othersBucketId ∉ d.bucketIds
  nodup : d.bucketIds.Nodup
  exclusive : findOverlappingBuckets d = []

/-- What an accepted grid satisfies. -/
structure ValidMatrix (matrix : PriceMatrix) (maxCells : Nat) : Prop where
  nonempty : matrix.dimensions ≠ []
  ids_nodup : (matrix.dimensions.map Dimension.id).Nodup
  dimension : ∀ d ∈ matrix.dimensions, ValidDimension d
  bounded : expectedCellCount matrix.dimensions ≤ maxCells
  complete : ∀ key ∈ allCellKeys matrix.dimensions, hasCell matrix.cells key = true
  no_extra : ∀ key ∈ matrix.cells.keys, key ∈ allCellKeys matrix.dimensions
  amounts : ∀ entry ∈ matrix.cells.entries, isAmount entry.2 = true
  available : ∃ key ∈ allCellKeys matrix.dimensions, matrix.cells.get? key ≠ some none

theorem checkBucketIds_eq_ok {dimensionId : String} :
    checkBucketIds dimensionId seen ids = .ok () ↔
      othersBucketId ∉ ids ∧ ids.Nodup ∧ ∀ id ∈ ids, id ∉ seen := by
  induction ids generalizing seen with
  | nil => simp [checkBucketIds]
  | cons id rest ih =>
    rw [checkBucketIds, bind_eq_ok, bind_eq_ok, require_eq_ok, require_eq_ok, ih]
    simp only [decide_eq_true_eq, mem_cons, nodup_cons, not_or, forall_eq_or_imp]
    constructor
    · rintro ⟨hreserved, hseen, hothers, hnodup, hrest⟩
      refine ⟨⟨fun h => hreserved h.symm, hothers⟩, ⟨fun hid => (hrest id hid).1 rfl, hnodup⟩,
        hseen, fun other hother => (hrest other hother).2⟩
    · rintro ⟨⟨hreserved, hothers⟩, ⟨hid, hnodup⟩, hseen, hrest⟩
      refine ⟨fun h => hreserved h.symm, hseen, hothers, hnodup, fun other hother => ?_⟩
      exact ⟨fun h => hid (h ▸ hother), hrest other hother⟩

theorem checkOverlap_eq_ok {d : Dimension} :
    checkOverlap d = .ok () ↔ findOverlappingBuckets d = [] := by
  unfold checkOverlap
  cases findOverlappingBuckets d with
  | nil => exact ⟨fun _ => rfl, fun _ => rfl⟩
  | cons pair rest => exact ⟨fun h => (by cases h), fun h => (by cases h)⟩

theorem checkDimensions_eq_ok :
    checkDimensions seen dimensions = .ok () ↔
      (dimensions.map Dimension.id).Nodup ∧ (∀ d ∈ dimensions, d.id ∉ seen) ∧
        ∀ d ∈ dimensions, ValidDimension d := by
  induction dimensions generalizing seen with
  | nil => simp [checkDimensions]
  | cons d rest ih =>
    rw [checkDimensions, bind_eq_ok, bind_eq_ok, bind_eq_ok, bind_eq_ok, require_eq_ok,
      require_eq_ok, checkBucketIds_eq_ok, checkOverlap_eq_ok, ih]
    simp only [decide_eq_true_eq, map_cons, nodup_cons, mem_cons, not_or,
      forall_eq_or_imp, mem_map, Bool.not_eq_true', isEmpty_eq_false_iff]
    constructor
    · rintro ⟨hseen, hne, ⟨hothers, hnodup, _⟩, hexclusive, hids, hrest, hvalid⟩
      refine ⟨⟨?_, hids⟩, ⟨hseen, fun other hother => (hrest other hother).2⟩,
        ⟨hne, hothers, hnodup, hexclusive⟩, hvalid⟩
      rintro ⟨other, hother, heq⟩
      exact (hrest other hother).1 heq
    · rintro ⟨⟨hfresh, hids⟩, ⟨hseen, hrest⟩, hd, hvalid⟩
      refine ⟨hseen, hd.nonempty, ⟨hd.not_reserved, hd.nodup, fun _ _ => not_mem_nil⟩,
        hd.exclusive, hids, fun other hother => ⟨fun heq => hfresh ⟨other, hother, heq⟩,
          hrest other hother⟩, hvalid⟩

/-- The check accepts exactly the grids that satisfy `ValidMatrix`. -/
theorem assertMatrixValid_eq_ok {subject : PricedSubject} :
    assertMatrixValid matrix maxCells subject = .ok () ↔ ValidMatrix matrix maxCells := by
  simp only [assertMatrixValid, bind_eq_ok, require_eq_ok,
    checkDimensions_eq_ok, List.isEmpty_iff, filter_eq_nil_iff, Bool.not_eq_true',
    isEmpty_eq_false_iff, decide_eq_true_eq, not_mem_nil, not_false_eq_true,
    implies_true, true_and, Bool.not_eq_false, not_not, all_eq_false]
  constructor
  · rintro ⟨hne, ⟨hids, hvalid⟩, hbound, hcomplete, hextra, hamounts, key, hkey, havailable⟩
    exact ⟨hne, hids, hvalid, hbound, hcomplete, hextra, hamounts, key, hkey, havailable⟩
  · intro h
    obtain ⟨key, hkey, havailable⟩ := h.available
    exact ⟨h.nonempty, ⟨h.ids_nodup, h.dimension⟩, h.bounded, h.complete, h.no_extra, h.amounts,
      key, hkey, havailable⟩

/-! ## 3. The view of a person -/

def asAnswer : Dimension → Option AnswerDimension
  | .answer dimension => some dimension
  | _ => none

section

variable (dimensions : List Dimension) (facts : PricingFacts)

/-- The answer dimensions with their places, in order. -/
def answerDims : List (Nat × AnswerDimension) :=
  dimensions.zipIdx.filterMap fun entry => (asAnswer entry.1).map fun d => (entry.2, d)

/-- The buckets of the profile dimensions; an answer dimension is left open. -/
def resolvedBuckets : List (Option String) :=
  dimensions.map fun d => if (asAnswer d).isSome then none else some (bucketFor d facts)

/-- Every combination of the buckets of some answer dimensions, `others` included. -/
def combinations (dimensions : List AnswerDimension) : List (List String) :=
  dimensions.foldl
    (fun acc d => acc.flatMap fun start =>
      (d.bucketIds ++ [othersBucketId]).map fun id => start ++ [id])
    [[]]

/-- `full[index] = combination[i]` for every answer dimension. -/
def fillAnswers (resolved : List (Option String)) (indices : List Nat)
    (combination : List String) : List (Option String) :=
  (indices.zip combination).foldl (fun full entry => full.set entry.1 (some entry.2)) resolved

/-- The ids and labels of the declared buckets. -/
def Dimension.labels : Dimension → List (String × String)
  | .cotisation _ buckets => buckets.map fun b => (b.id, b.label)
  | .promo _ buckets => buckets.map fun b => (b.id, b.label)
  | .formation _ buckets => buckets.map fun b => (b.id, b.label)
  | .answer dimension => dimension.buckets.map fun b => (b.id, b.label)

def appliedLabels : List String :=
  dimensions.filterMap fun d =>
    if (asAnswer d).isSome then none
    else (d.labels.find? fun bucket => bucket.1 = bucketFor d facts).map Prod.snd

end

/-- The questions a grid prices on, whose modifiers are not added on top. -/
def pricedQuestionIds (matrix : Option PriceMatrix) : List String :=
  match matrix with
  | none => []
  | some matrix => (matrix.dimensions.filterMap asAnswer).map (·.questionId)

structure PricingView where
  baseCents : CellValue
  appliedLabels : List String
  answerDimensions : List AnswerDimension
  cells : OrderedMap String CellValue
  ignoredModifierQuestionIds : List String

section

variable (matrix : PriceMatrix) (facts : PricingFacts)

/-- The price of a combination of answer buckets; an absent cell is reported as unavailable. -/
def combinationPrice (combination : List String) : CellValue :=
  let full := fillAnswers (resolvedBuckets matrix.dimensions facts)
    ((answerDims matrix.dimensions).map Prod.fst) combination
  let key := cellKey (full.map fun id => id.getD "")
  (matrix.cells.get? key).getD none

/-- `cells` of the view: one write for each combination. -/
def viewCells : OrderedMap String CellValue :=
  assignAll ((combinations ((answerDims matrix.dimensions).map Prod.snd)).map fun combination =>
    (cellKey combination, combinationPrice matrix facts combination))

def pricingViewFor : PricingView where
  baseCents :=
    ((viewCells matrix facts).get?
      (cellKey ((answerDims matrix.dimensions).map fun _ => othersBucketId))).getD none
  appliedLabels := appliedLabels matrix.dimensions facts
  answerDimensions := (answerDims matrix.dimensions).map Prod.snd
  cells := viewCells matrix facts
  ignoredModifierQuestionIds := (pricedQuestionIds (some matrix)).eraseDups

end

/-! ## 4. Combinations and their keys -/

/-- One bucket, declared or generated, for each of the dimensions. -/
def Combination (bucketIds : List (List String)) (combination : List String) : Prop :=
  List.Forall₂ (fun id ids => id ∈ ids ++ [othersBucketId]) combination bucketIds

/-- One id for each of the dimensions, the last one varying fastest. -/
def choices : List (List String) → List (List String)
  | [] => [[]]
  | ids :: rest => (ids ++ [othersBucketId]).flatMap fun id => (choices rest).map (id :: ·)

theorem mem_choices : combination ∈ choices bucketIds ↔ Combination bucketIds combination := by
  induction bucketIds generalizing combination with
  | nil => simp [choices, Combination]
  | cons ids rest ih =>
    simp only [choices, mem_flatMap, mem_map, ih, Combination, forall₂_cons_right_iff]
    grind

theorem foldl_choices {Start : Type} (extend : Start → String → Start)
    (bucketIds : List (List String)) (starts : List Start) :
    bucketIds.foldl (fun starts ids => starts.flatMap fun start =>
        (ids ++ [othersBucketId]).map (extend start)) starts =
      starts.flatMap fun start => (choices bucketIds).map (foldl extend start) := by
  induction bucketIds generalizing starts with
  | nil => simp [choices]
  | cons ids rest ih =>
    rw [foldl_cons, ih]
    simp [choices, flatMap_assoc, flatMap_map, map_flatMap, Function.comp_def]

theorem mem_combinations {dimensions : List AnswerDimension} :
    combination ∈ combinations dimensions ↔
      Combination (dimensions.map (·.bucketIds)) combination := by
  have hloop := foldl_choices (fun start id => start ++ [id]) (dimensions.map (·.bucketIds)) [[]]
  rw [foldl_map] at hloop
  rw [combinations, hloop, ← mem_choices]
  simp [← flatMap_def]

/-- A bucket id that a key can be taken apart into. -/
def PlainId (id : String) : Prop := id ≠ "" ∧ '|' ∉ id.toList

def PlainIds (dimensions : List Dimension) : Prop :=
  ∀ d ∈ dimensions, ∀ id ∈ d.bucketIds, PlainId id

theorem Combination.plain (hplain : ∀ ids ∈ bucketIds, ∀ id ∈ ids, PlainId id)
    (h : Combination bucketIds combination) : ∀ id ∈ combination, PlainId id := by
  induction h with
  | nil => intro id hid; cases hid
  | @cons id ids rest others hid _ ih =>
    intro other hother
    rcases mem_cons.mp hother with rfl | hother
    · rcases mem_append.mp hid with hdeclared | hgenerated
      · exact hplain ids mem_cons_self _ hdeclared
      · rw [mem_singleton.mp hgenerated]
        exact ⟨by decide, by decide⟩
    · exact ih (fun ids hids => hplain ids (mem_cons_of_mem _ hids)) other hother

/-- Keys of plain ids tell combinations of one length apart. -/
theorem cellKey_injective (hlength : first.length = second.length)
    (hfirst : ∀ id ∈ first, PlainId id) (hsecond : ∀ id ∈ second, PlainId id)
    (hkey : cellKey first = cellKey second) : first = second := by
  have hchars : ['|'].intercalate (first.map String.toList) =
      ['|'].intercalate (second.map String.toList) := by
    have htoList := congrArg String.toList hkey
    rw [cellKey, cellKey, String.toList_intercalate, String.toList_intercalate] at htoList
    exact htoList
  cases first with
  | nil => exact (length_eq_zero_iff.mp hlength.symm).symm
  | cons id rest =>
    cases second with
    | nil => cases hlength
    | cons other others =>
      have hsplit := congrArg (splitOn '|') hchars
      rw [splitOn_intercalate, splitOn_intercalate] at hsplit
      · exact map_injective_iff.mpr (fun _ _ h => String.toList_injective h) hsplit
      · intro chars hchars
        obtain ⟨id, hid, rfl⟩ := mem_map.mp hchars
        exact (hsecond id hid).2
      · simp
      · intro chars hchars
        obtain ⟨id, hid, rfl⟩ := mem_map.mp hchars
        exact (hfirst id hid).2
      · simp

/-- `prefix ? prefix|id : id`, one dimension after the other. -/
def extendKey (start : String) (ids : List String) : String :=
  ids.foldl (fun start id => if start = "" then id else start ++ "|" ++ id) start

theorem extendKey_eq (hstart : start ≠ "") (ids : List String) :
    extendKey start ids = cellKey (start :: ids) := by
  induction ids generalizing start with
  | nil => simp [extendKey, cellKey]
  | cons id rest ih =>
    have hlonger : start ++ "|" ++ id ≠ "" := by
      intro h
      have := congrArg String.toList h
      simp at this
    rw [extendKey, foldl_cons, if_neg hstart]
    rw [← extendKey, ih hlonger]
    cases rest with
    | nil => simp [cellKey, String.intercalate_cons_cons]
    | cons other rest => simp [cellKey, String.intercalate_cons_cons, String.append_assoc]

theorem extendKey_empty (hids : ∀ id ∈ ids, PlainId id) : extendKey "" ids = cellKey ids := by
  cases ids with
  | nil => rfl
  | cons id rest =>
    exact extendKey_eq (hids id mem_cons_self).1 rest

/-- The keys that a complete grid must carry are those of the combinations. -/
theorem allCellKeys_eq (hplain : PlainIds dimensions) :
    allCellKeys dimensions = (choices (dimensions.map Dimension.bucketIds)).map cellKey := by
  have hloop := foldl_choices (fun start id => if start = "" then id else start ++ "|" ++ id)
    (dimensions.map Dimension.bucketIds) [""]
  rw [foldl_map] at hloop
  rw [allCellKeys, hloop, flatMap_singleton]
  refine map_congr_left fun ids hids => ?_
  exact extendKey_empty ((mem_choices.mp hids).plain (forall_mem_map.mpr hplain))

theorem mem_allCellKeys (hplain : PlainIds dimensions) {key : String} :
    key ∈ allCellKeys dimensions ↔
      ∃ ids, Combination (dimensions.map Dimension.bucketIds) ids ∧ cellKey ids = key := by
  simp only [allCellKeys_eq hplain, mem_map, mem_choices]

/-- Two combinations of one grid have two keys. -/
theorem combination_eq_of_cellKey (hplain : ∀ ids ∈ bucketIds, ∀ id ∈ ids, PlainId id)
    (hfirst : Combination bucketIds first) (hsecond : Combination bucketIds second)
    (hkey : cellKey first = cellKey second) : first = second :=
  cellKey_injective (hfirst.length_eq.trans hsecond.length_eq.symm) (hfirst.plain hplain)
    (hsecond.plain hplain) hkey

theorem combination_bucketFor (dimensions : List Dimension) (facts : PricingFacts) :
    Combination (dimensions.map Dimension.bucketIds)
      (dimensions.map fun d => bucketFor d facts) := by
  induction dimensions with
  | nil => exact List.Forall₂.nil
  | cons d rest ih => exact List.Forall₂.cons (bucketFor_mem d facts) ih

/-! ## 5. The view against the charge -/

theorem filterMap_zipIdx_map_snd (dimensions : List Dimension) (place : Nat) :
    ((dimensions.zipIdx place).filterMap fun entry =>
      (asAnswer entry.1).map fun d => (entry.2, d)).map Prod.snd =
        dimensions.filterMap asAnswer := by
  induction dimensions generalizing place with
  | nil => rfl
  | cons d rest ih =>
    cases hanswer : asAnswer d with
    | none | some answer => simpa [hanswer] using ih (place + 1)

@[simp] theorem answerDimensions_eq (matrix : PriceMatrix) (facts : PricingFacts) :
    (pricingViewFor matrix facts).answerDimensions = matrix.dimensions.filterMap asAnswer :=
  filterMap_zipIdx_map_snd matrix.dimensions 0

theorem eq_answer_of_asAnswer {d : Dimension} {answer : AnswerDimension}
    (h : asAnswer d = some answer) : d = .answer answer := by
  cases d with
  | answer other => exact congrArg Dimension.answer (Option.some.inj h)
  | cotisation _ _ | promo _ _ | formation _ _ => cases h

section

variable (hview : ∀ d, asAnswer d = none → bucketFor d viewFacts = bucketFor d facts)
include hview

/-- Putting the buckets of the answer dimensions in their places completes the row: `front` is
    the part already passed. -/
theorem foldl_fill (front : List (Option String)) :
    (((dimensions.zipIdx front.length).filterMap fun entry =>
        (asAnswer entry.1).map fun d => (entry.2, d)).map fun entry =>
          (entry.1, bucketFor (.answer entry.2) facts)).foldl
        (fun full entry => full.set entry.1 (some entry.2))
        (front ++ resolvedBuckets dimensions viewFacts) =
      front ++ dimensions.map fun d => some (bucketFor d facts) := by
  induction dimensions generalizing front with
  | nil => rfl
  | cons d rest ih =>
    have hnext := ih (front ++ [some (bucketFor d facts)])
    cases hanswer : asAnswer d with
    | none =>
      simpa [hanswer, resolvedBuckets, hview d hanswer] using hnext
    | some answer =>
      rw [eq_answer_of_asAnswer hanswer] at hnext ⊢
      simpa [asAnswer, resolvedBuckets] using hnext

theorem combinationPrice_eq : combinationPrice matrix viewFacts
        ((matrix.dimensions.filterMap asAnswer).map fun d => bucketFor (.answer d) facts) =
      (matrix.cells.get? (cellKeyFor matrix facts)).getD none := by
  have hfull : fillAnswers (resolvedBuckets matrix.dimensions viewFacts)
      ((answerDims matrix.dimensions).map Prod.fst)
      ((matrix.dimensions.filterMap asAnswer).map fun d => bucketFor (.answer d) facts) =
        matrix.dimensions.map fun d => some (bucketFor d facts) := by
    rw [← filterMap_zipIdx_map_snd matrix.dimensions 0]
    have hfill := @foldl_fill matrix.dimensions facts viewFacts hview []
    simp only [fillAnswers, answerDims, map_map, zip_map', length_nil, nil_append] at hfill ⊢
    exact hfill
  simp only [combinationPrice, hfull, map_map, cellKeyFor]
  rfl

end

/-- No key of the view is the name that a write on an object does not keep. -/
def NoProtoKey (dimensions : List Dimension) : Prop :=
  ∀ d, dimensions.filterMap asAnswer = [d] → "__proto__" ∉ d.bucketIds

theorem cellKey_ne_proto (hproto : NoProtoKey dimensions)
    (h : Combination ((dimensions.filterMap asAnswer).map (·.bucketIds)) combination) :
    cellKey combination ≠ "__proto__" := by
  have hbar : ∀ {text : String}, '|' ∈ text.toList → text ≠ "__proto__" := by
    rintro text hmem rfl
    revert hmem
    decide
  match hanswers : dimensions.filterMap asAnswer, combination, h with
  | [], [], _ => decide
  | [d], [id], h =>
    have hid : id ∈ d.bucketIds ++ [othersBucketId] := (forall₂_cons.mp h).1
    intro hkey
    have hkey : id = "__proto__" := hkey
    rcases mem_append.mp hid with hdeclared | hgenerated
    · exact hproto d hanswers (hkey ▸ hdeclared)
    · rw [hkey] at hgenerated
      revert hgenerated
      decide
  | _, id :: other :: rest, _ =>
    apply hbar
    rw [cellKey, String.intercalate_cons_cons]
    simp

theorem plain_answers (hplain : PlainIds dimensions) :
    ∀ ids ∈ (dimensions.filterMap asAnswer).map (·.bucketIds), ∀ id ∈ ids, PlainId id := by
  intro ids hids
  obtain ⟨answer, hanswer, rfl⟩ := mem_map.mp hids
  obtain ⟨d, hd, hsome⟩ := mem_filterMap.mp hanswer
  have hdim := hplain d hd
  rw [eq_answer_of_asAnswer hsome] at hdim
  exact hdim

theorem combination_answers (dimensions : List Dimension) (facts : PricingFacts) :
    Combination ((dimensions.filterMap asAnswer).map (·.bucketIds))
      ((dimensions.filterMap asAnswer).map fun d => bucketFor (.answer d) facts) := by
  have h := combination_bucketFor ((dimensions.filterMap asAnswer).map Dimension.answer) facts
  simpa [map_map, Function.comp_def, Dimension.bucketIds] using h

theorem viewCells_eq (matrix : PriceMatrix) (facts : PricingFacts) :
    viewCells matrix facts = assignAll ((combinations (matrix.dimensions.filterMap asAnswer)).map
      fun combination => (cellKey combination, combinationPrice matrix facts combination)) := by
  rw [viewCells, answerDims, filterMap_zipIdx_map_snd]

theorem mem_keys_viewCells (hproto : NoProtoKey matrix.dimensions) {key : String} :
    key ∈ (viewCells matrix facts).keys ↔
      ∃ combination, Combination ((matrix.dimensions.filterMap asAnswer).map (·.bucketIds))
        combination ∧ cellKey combination = key := by
  rw [viewCells_eq, mem_keys_assignAll, map_map, mem_map]
  constructor
  · rintro ⟨⟨combination, hmem, hkey⟩, _⟩
    exact ⟨combination, mem_combinations.mp hmem, hkey⟩
  · rintro ⟨combination, hcombination, rfl⟩
    exact ⟨⟨combination, mem_combinations.mpr hcombination, rfl⟩,
      cellKey_ne_proto hproto hcombination⟩

theorem get?_viewCells (hplain : PlainIds matrix.dimensions) (hproto : NoProtoKey matrix.dimensions)
    (h : Combination ((matrix.dimensions.filterMap asAnswer).map (·.bucketIds)) combination) :
    (viewCells matrix facts).get? (cellKey combination) =
      some (combinationPrice matrix facts combination) := by
  rw [viewCells_eq]
  apply get?_assignAll (cellKey_ne_proto hproto h)
  · rw [map_map]
    exact mem_map.mpr ⟨combination, mem_combinations.mpr h, rfl⟩
  · intro write hwrite hkey
    obtain ⟨other, hother, rfl⟩ := mem_map.mp hwrite
    rw [combination_eq_of_cellKey (plain_answers hplain) (mem_combinations.mp hother) h hkey]

/-- The lookup that the page makes gives the price that is charged. -/
theorem get?_view_eq (hvalid : ValidMatrix matrix maxCells)
    (hplain : PlainIds matrix.dimensions) (hproto : NoProtoKey matrix.dimensions)
    (facts : PricingFacts) (answers : OrderedMap String (List String)) (subject : PricedSubject) :
    ∃ price, resolveCellPrice matrix facts subject = .ok price ∧
      (viewCells matrix { facts with answers := answers }).get?
        (cellKey ((matrix.dimensions.filterMap asAnswer).map fun d =>
          bucketFor (.answer d) facts)) = some price := by
  obtain ⟨price, hprice⟩ := Option.isSome_iff_exists.mp (hvalid.complete (cellKeyFor matrix facts)
    ((mem_allCellKeys hplain).mpr ⟨_, combination_bucketFor _ facts, rfl⟩))
  have hview : ∀ d, asAnswer d = none →
      bucketFor d { facts with answers := answers } = bucketFor d facts := by
    intro d hd
    refine bucketFor_profile (fun answer hanswer => ?_) facts answers
    rw [hanswer] at hd
    cases hd
  refine ⟨price, ?_, ?_⟩
  · rw [resolveCellPrice, hprice]
  · rw [get?_viewCells hplain hproto (combination_answers _ facts), combinationPrice_eq hview,
      hprice]
    rfl

/-- **The view and the charge agree.**  For an accepted grid whose bucket ids are plain, the
    page's lookup gives the price that is charged, unavailable included, and the view has one
    entry for each combination of answer buckets, exactly if the only answer dimension has no
    bucket called `__proto__`. -/
theorem view_agrees_with_charge (matrix : PriceMatrix) (maxCells : Nat) (subject : PricedSubject)
    (hvalid : assertMatrixValid matrix maxCells subject = .ok ())
    (hplain : PlainIds matrix.dimensions)
    (facts : PricingFacts) (answers : OrderedMap String (List String)) :
    let view := pricingViewFor matrix { facts with answers := answers }
    let bucketIds := view.answerDimensions.map (·.bucketIds)
    ((∃ price, resolveCellPrice matrix facts subject = .ok price ∧
      view.cells.get? (cellKey (view.answerDimensions.map fun d => bucketFor (.answer d) facts)) =
        some price) ∧
    (∀ key, key ∈ view.cells.keys ↔
      ∃ combination, Combination bucketIds combination ∧ cellKey combination = key) ∧
    (∀ first second, Combination bucketIds first → Combination bucketIds second →
      cellKey first = cellKey second → first = second)) ↔
    NoProtoKey matrix.dimensions := by
  intro view bucketIds
  have hmatrix := assertMatrixValid_eq_ok.mp hvalid
  have hanswers : view.answerDimensions = matrix.dimensions.filterMap asAnswer :=
    answerDimensions_eq matrix _
  simp only [bucketIds, hanswers]
  constructor
  · rintro ⟨-, hkeys, -⟩ d hd hproto
    -- the combination of the bucket alone has no entry
    have hentry : "__proto__" ∈ view.cells.keys := by
      refine (hkeys "__proto__").mpr ⟨["__proto__"], ?_, rfl⟩
      rw [hd]
      exact .cons (mem_append_left _ hproto) .nil
    have hwritten : view.cells = _ := viewCells_eq matrix _
    rw [hwritten, mem_keys_assignAll] at hentry
    exact hentry.2 rfl
  · intro hproto
    exact ⟨get?_view_eq hmatrix hplain hproto facts answers subject,
      fun key => mem_keys_viewCells hproto,
      fun first second => combination_eq_of_cellKey (plain_answers hplain)⟩

/-- A grid on a question with options `yes` and `no`, with a bucket for `yes`. -/
def optionGrid (bucketId : String) : PriceMatrix where
  dimensions := [.answer ⟨"d", "q", [⟨bucketId, "Oui", ["yes"]⟩]⟩]
  cells := ofPairs [(bucketId, some 500), (othersBucketId, some 0)]

def answeredYes : PricingFacts where
  promo := none
  formation := none
  cotisationTiers := []
  answers := ofPairs [("q", ["yes"])]

theorem view_agrees_with_charge_plain_bucket :
    resolveCellPrice (optionGrid "oui") answeredYes .form = .ok (some 500) ∧
    ∃ price, resolveCellPrice (optionGrid "oui") answeredYes .form = .ok price ∧
      (pricingViewFor (optionGrid "oui")
        { answeredYes with answers := empty }).cells.get? "oui" = some price := by
  refine ⟨by decide, ?_⟩
  have hproto : NoProtoKey (optionGrid "oui").dimensions := by
    intro d hd
    rw [← (singleton_inj.mp hd : _ = d)]
    decide
  have h := view_agrees_with_charge (optionGrid "oui") 400 .form (by decide)
    (by simp [PlainIds, PlainId, optionGrid, Dimension.bucketIds, AnswerDimension.bucketIds])
    answeredYes empty
  exact (h.mpr hproto).1

/-- The grid is accepted and charges 500 cents, and the view has no entry for the bucket. -/
theorem view_drops_proto_bucket :
    assertMatrixValid (optionGrid "__proto__") 400 .form = .ok () ∧
    PlainIds (optionGrid "__proto__").dimensions ∧
    resolveCellPrice (optionGrid "__proto__") answeredYes .form = .ok (some 500) ∧
    bucketFor (.answer ⟨"d", "q", [⟨"__proto__", "Oui", ["yes"]⟩]⟩) answeredYes = "__proto__" ∧
    (pricingViewFor (optionGrid "__proto__")
      { answeredYes with answers := empty }).cells.get? "__proto__" = none ∧
    (pricingViewFor (optionGrid "__proto__")
      { answeredYes with answers := empty }).cells.keys = ["_others"] := by
  refine ⟨by decide, ?_, by decide, by decide, by decide,
    by decide⟩
  intro d hd id hid
  rw [mem_singleton.mp hd] at hid
  rw [mem_singleton.mp hid]
  exact ⟨by decide, by decide⟩

end MinesApp.Pricing
