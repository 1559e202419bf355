import MinesApp.OrderedMap

/-!
# Who a person is, and which group of a criterion they fall in

`audience.ts`: one set of matchers serves the price of a form, the visibility of its questions
and who may submit it.  A criterion (a dimension of the price matrix) declares groups, here
buckets; a person falls in the first bucket that matches them, and in the generated bucket
`_others` when none does.  Two buckets of one criterion may not list a common value, which is
what the editor calls an overlap.
-/

namespace MinesApp.Pricing

/-! ## 1. Facts, buckets and dimensions -/

/-- What a criterion may look at.  A tier is named by its variant key, `none` for the base
    tier; the answers are the option ids selected, by question. -/
structure PricingFacts where
  promo : Option Int
  formation : Option String
  cotisationTiers : List (Option String)
  answers : OrderedMap String (List String)

structure CotisationCriterion where
  anyTier : Bool
  variantKeys : List (Option String)
deriving DecidableEq

structure CotisationBucket extends CotisationCriterion where
  id : String
  label : String
deriving DecidableEq

structure PromoBucket where
  id : String
  label : String
  values : List Int
deriving DecidableEq

structure StringBucket where
  id : String
  label : String
  values : List String
deriving DecidableEq

/-- An answer dimension's own fields, which the page is handed as they are. -/
structure AnswerDimension where
  id : String
  questionId : String
  buckets : List StringBucket
deriving DecidableEq

inductive Dimension where
  | cotisation (id : String) (buckets : List CotisationBucket)
  | promo (id : String) (buckets : List PromoBucket)
  | formation (id : String) (buckets : List StringBucket)
  | answer (dimension : AnswerDimension)
deriving DecidableEq

def Dimension.id : Dimension → String
  | .cotisation id _ => id
  | .promo id _ => id
  | .formation id _ => id
  | .answer dimension => dimension.id

def AnswerDimension.bucketIds (dimension : AnswerDimension) : List String :=
  dimension.buckets.map (·.id)

/-- The ids of the declared buckets, in the order in which they are declared. -/
def Dimension.bucketIds : Dimension → List String
  | .cotisation _ buckets => buckets.map (·.id)
  | .promo _ buckets => buckets.map (·.id)
  | .formation _ buckets => buckets.map (·.id)
  | .answer dimension => dimension.bucketIds

def othersBucketId : String := "_others"

/-! ## 2. The matchers -/

/-- `first.some((value) => second.includes(value))`. -/
def sharesValue {Value : Type} [DecidableEq Value] (first second : List Value) : Bool :=
  first.any fun value => second.contains value

def matchesCotisation (bucket : CotisationCriterion) (facts : PricingFacts) : Bool :=
  if facts.cotisationTiers.isEmpty then false
  else if bucket.anyTier then true
  else sharesValue facts.cotisationTiers bucket.variantKeys

def matchesPromo (values : List Int) (facts : PricingFacts) : Bool :=
  match facts.promo with
  | none => false
  | some promo => values.contains promo

def matchesFormation (values : List String) (facts : PricingFacts) : Bool :=
  match facts.formation with
  | none => false
  | some formation => values.contains formation

def matchesAnswer (questionId : String) (optionIds : List String) (facts : PricingFacts) : Bool :=
  match facts.answers.get? questionId with
  | none => false
  | some selected => sharesValue selected optionIds

section

variable {Bucket : Type} (idOf : Bucket → String)

section

variable (test : Bucket → Bool) (buckets : List Bucket)

/-- `buckets.find(test)?.id ?? OTHERS_BUCKET_ID`. -/
def firstBucketId : String :=
  ((buckets.find? test).map idOf).getD othersBucketId

/-- The ids of every bucket that passes the test, of which `firstBucketId` takes the first. -/
def bucketIdsWhere : List String :=
  (buckets.filter test).map idOf

end

theorem firstBucketId_eq_head (test : Bucket → Bool) (buckets : List Bucket) :
    firstBucketId idOf test buckets =
      (bucketIdsWhere idOf test buckets).head?.getD othersBucketId := by
  rw [firstBucketId, bucketIdsWhere, List.head?_map, List.head?_filter]

theorem bucketIdsWhere_sublist (test : Bucket → Bool) (buckets : List Bucket) :
    (bucketIdsWhere idOf test buckets).Sublist (buckets.map idOf) :=
  List.filter_sublist.map idOf

end

/-- The bucket of a dimension a person falls in: the first that matches. -/
def bucketFor (dimension : Dimension) (facts : PricingFacts) : String :=
  match dimension with
  | .cotisation _ buckets =>
    firstBucketId (·.id) (fun b => matchesCotisation b.toCotisationCriterion facts) buckets
  | .promo _ buckets => firstBucketId (·.id) (fun b => matchesPromo b.values facts) buckets
  | .formation _ buckets => firstBucketId (·.id) (fun b => matchesFormation b.values facts) buckets
  | .answer dimension =>
    firstBucketId (·.id) (fun b => matchesAnswer dimension.questionId b.values facts)
      dimension.buckets

/-! ## 3. Overlapping buckets -/

/-- The pairs `i < j` of a list, in the order of the two nested loops. -/
def pairs {Item : Type} : List Item → List (Item × Item)
  | [] => []
  | item :: rest => rest.map (fun other => (item, other)) ++ pairs rest

/-- Whether one of two cotisation buckets accepts a tier the other accepts. -/
def cotisationOverlap (first second : CotisationBucket) : Bool :=
  first.anyTier || second.anyTier || sharesValue first.variantKeys second.variantKeys

/-- The ids of the pairs of buckets that overlap. -/
def clashes {Bucket : Type} (idOf : Bucket → String) (overlap : Bucket → Bucket → Bool)
    (buckets : List Bucket) : List (String × String) :=
  ((pairs buckets).filter fun pair => overlap pair.1 pair.2).map fun pair =>
    (idOf pair.1, idOf pair.2)

def findOverlappingBuckets : Dimension → List (String × String)
  | .cotisation _ buckets => clashes (·.id) cotisationOverlap buckets
  | .promo _ buckets => clashes (·.id) (fun a b => sharesValue a.values b.values) buckets
  | .formation _ buckets => clashes (·.id) (fun a b => sharesValue a.values b.values) buckets
  | .answer dimension =>
    clashes (·.id) (fun a b => sharesValue a.values b.values) dimension.buckets

/-! ## 4. Which buckets match -/

/-- The ids of every declared bucket that matches, of which `bucketFor` takes the first. -/
def matchingBuckets (dimension : Dimension) (facts : PricingFacts) : List String :=
  match dimension with
  | .cotisation _ buckets =>
    bucketIdsWhere (·.id) (fun b => matchesCotisation b.toCotisationCriterion facts) buckets
  | .promo _ buckets => bucketIdsWhere (·.id) (fun b => matchesPromo b.values facts) buckets
  | .formation _ buckets =>
    bucketIdsWhere (·.id) (fun b => matchesFormation b.values facts) buckets
  | .answer dimension =>
    bucketIdsWhere (·.id) (fun b => matchesAnswer dimension.questionId b.values facts)
      dimension.buckets

theorem bucketFor_eq_head (dimension : Dimension) (facts : PricingFacts) :
    bucketFor dimension facts = (matchingBuckets dimension facts).head?.getD othersBucketId := by
  cases dimension with
  | cotisation _ buckets | promo _ buckets | formation _ buckets =>
    exact firstBucketId_eq_head _ _ buckets
  | answer dimension => exact firstBucketId_eq_head _ _ dimension.buckets

theorem matchingBuckets_sublist (dimension : Dimension) (facts : PricingFacts) :
    (matchingBuckets dimension facts).Sublist dimension.bucketIds := by
  cases dimension with
  | cotisation _ buckets | promo _ buckets | formation _ buckets =>
    exact bucketIdsWhere_sublist _ _ buckets
  | answer dimension => exact bucketIdsWhere_sublist _ _ dimension.buckets

/-- A person falls in a declared bucket or in the generated one. -/
theorem bucketFor_mem (dimension : Dimension) (facts : PricingFacts) :
    bucketFor dimension facts ∈ dimension.bucketIds ++ [othersBucketId] := by
  rw [bucketFor_eq_head]
  cases hmatching : matchingBuckets dimension facts with
  | nil => simp
  | cons id rest =>
    have hid : id ∈ matchingBuckets dimension facts := hmatching ▸ List.mem_cons_self
    exact List.mem_append_left _ ((matchingBuckets_sublist dimension facts).subset hid)

theorem bucketFor_profile {dimension : Dimension} (hprofile : ∀ d, dimension ≠ .answer d)
    (facts : PricingFacts) (answers : OrderedMap String (List String)) :
    bucketFor dimension { facts with answers := answers } = bucketFor dimension facts := by
  cases dimension with
  | cotisation _ buckets | promo _ buckets | formation _ buckets => rfl
  | answer d => exact absurd rfl (hprofile d)

end MinesApp.Pricing
