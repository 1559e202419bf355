import Mathlib.Data.List.Pairwise
import MinesApp.PriceMatrix

/-!
# Whether the order of the buckets decides a price

A grid is refused when two buckets of one dimension list a common value, so that the order of
the buckets would not matter: the first bucket that matches is the only one.  The check
compares what the buckets declare.  A person has one promo and one formation, but may hold two
tiers of a cotisation and select two options of a question, and two values of one person can
be listed by two buckets.

The theorem says for exactly which people the check is enough.
-/

namespace MinesApp.Pricing

open List

/-! ## 1. Buckets that share no value -/

section Exclusive

variable {Bucket : Type} {buckets : List Bucket}

theorem clashes_eq_nil {idOf : Bucket → String} {overlap : Bucket → Bucket → Bool} :
    clashes idOf overlap buckets = [] ↔ buckets.Pairwise fun a b => overlap a b = false := by
  rw [clashes, map_eq_nil_iff, filter_eq_nil_iff]
  induction buckets with
  | nil => simp [pairs]
  | cons bucket rest ih =>
    rw [pairwise_cons, ← ih]
    simp only [pairs, mem_append, mem_map, Bool.not_eq_true]
    constructor
    · intro h
      exact ⟨fun other hother => h (bucket, other) (.inl ⟨other, hother, rfl⟩),
        fun pair hpair => h pair (.inr hpair)⟩
    · rintro ⟨hhead, hrest⟩ pair (⟨other, hother, rfl⟩ | hpair)
      · exact hhead other hother
      · exact hrest pair hpair

variable {Value : Type}

theorem sharesValue_eq_false [DecidableEq Value] {first second : List Value} :
    sharesValue first second = false ↔ ∀ value ∈ first, value ∉ second := by
  simp [sharesValue]

def listsOneOf [DecidableEq Value] (values : Bucket → List Value) (held : List Value)
    (bucket : Bucket) : Bool :=
  sharesValue held (values bucket)

/-- Of the person's values, any two that the buckets list are listed by one bucket. -/
def ListedTogether (values : Bucket → List Value) (buckets : List Bucket) (held : List Value) :
    Prop :=
  ∀ first ∈ held, ∀ second ∈ held, (∃ b ∈ buckets, first ∈ values b) →
    (∃ b ∈ buckets, second ∈ values b) → ∃ b ∈ buckets, first ∈ values b ∧ second ∈ values b

theorem listedTogether_toList (values : Bucket → List Value) (buckets : List Bucket)
    (held : Option Value) : ListedTogether values buckets held.toList := by
  intro first hfirst second hsecond hlisted _
  rw [Option.mem_toList] at hfirst hsecond
  obtain ⟨b, hb, hvalue⟩ := hlisted
  have hsame : first = second := Option.mem_unique hfirst hsecond
  exact ⟨b, hb, hvalue, hsame ▸ hvalue⟩

theorem length_le_one_of_pairwise {Item : Type} {R : Item → Item → Prop} {items : List Item}
    (h : items.Pairwise R) (hnone : ∀ a ∈ items, ∀ b ∈ items, ¬ R a b) : items.length ≤ 1 := by
  match items, h with
  | [], _ => simp
  | [_], _ => simp
  | a :: b :: rest, h =>
    exact absurd ((pairwise_cons.mp h).1 b mem_cons_self)
      (hnone a mem_cons_self b (mem_cons_of_mem _ mem_cons_self))

/-- Buckets without a common value match a person at most once when the person's values are
    listed together. -/
theorem length_filter_le_one [DecidableEq Value] {values : Bucket → List Value} {held : List Value}
    (hdisjoint : buckets.Pairwise fun a b => sharesValue (values a) (values b) = false)
    (htogether : ListedTogether values buckets held) :
    (buckets.filter (listsOneOf values held)).length ≤ 1 := by
  have hsymm : Std.Symm fun a b => sharesValue (values a) (values b) = false := by
    constructor
    intro a b h
    rw [sharesValue_eq_false] at h ⊢
    exact fun value hb ha => h value ha hb
  -- two buckets of the list that share a value are one bucket
  have hunique : ∀ a ∈ buckets, ∀ b ∈ buckets, ∀ value, value ∈ values a → value ∈ values b →
      a = b := by
    intro a ha b hb value hvalueA hvalueB
    by_contra hne
    have hshare := hdisjoint.forall ha hb hne
    exact sharesValue_eq_false.mp hshare value hvalueA hvalueB
  refine length_le_one_of_pairwise (hdisjoint.filter _) fun a hmemA b hmemB hshare => ?_
  obtain ⟨ha, hlistA⟩ := mem_filter.mp hmemA
  obtain ⟨hb, hlistB⟩ := mem_filter.mp hmemB
  obtain ⟨first, hfirst, hlistA⟩ := any_eq_true.mp hlistA
  obtain ⟨second, hsecond, hlistB⟩ := any_eq_true.mp hlistB
  have hlistA : first ∈ values a := by simpa using hlistA
  have hlistB : second ∈ values b := by simpa using hlistB
  obtain ⟨c, hc, hcfirst, hcsecond⟩ :=
    htogether first hfirst second hsecond ⟨a, ha, hlistA⟩ ⟨b, hb, hlistB⟩
  have hca : c = a := hunique c hc a ha first hcfirst hlistA
  have hcb : c = b := hunique c hc b hb second hcsecond hlistB
  rw [← hca, ← hcb] at hshare
  exact sharesValue_eq_false.mp hshare first hcfirst hcfirst

theorem eq_of_length_le_one {Item : Type} {items : List Item} (h : items.length ≤ 1) {a b : Item}
    (ha : a ∈ items) (hb : b ∈ items) : a = b := by
  match items, h with
  | [item], _ => rw [mem_singleton.mp ha, mem_singleton.mp hb]

theorem listedTogether_of_length_le_one [DecidableEq Value] {values : Bucket → List Value}
    {held : List Value} (h : (buckets.filter (listsOneOf values held)).length ≤ 1) :
    ListedTogether values buckets held := by
  rintro first hfirst second hsecond ⟨a, ha, hlistA⟩ ⟨b, hb, hlistB⟩
  have hmem : ∀ c ∈ buckets, ∀ value ∈ held, value ∈ values c →
      c ∈ buckets.filter (listsOneOf values held) := by
    intro c hc value hheld hvalue
    refine mem_filter.mpr ⟨hc, any_eq_true.mpr ⟨value, hheld, ?_⟩⟩
    simpa using hvalue
  have hsame := eq_of_length_le_one h (hmem a ha first hfirst hlistA)
    (hmem b hb second hsecond hlistB)
  exact ⟨a, ha, hlistA, hsame ▸ hlistB⟩

end Exclusive

/-! ## 2. At most one bucket matches -/

/-- Of the tiers a person holds, and of the options they selected for a question, any two that
    the dimension's buckets list are listed by one bucket. -/
def OneGroup (facts : PricingFacts) : Dimension → Prop
  | .cotisation _ buckets => ListedTogether (·.variantKeys) buckets facts.cotisationTiers
  | .promo _ _ => True
  | .formation _ _ => True
  | .answer d => ListedTogether (·.values) d.buckets ((facts.answers.get? d.questionId).getD [])

variable {buckets : List CotisationBucket} {facts : PricingFacts} {first second : Dimension}

theorem matchesPromo_eq (facts : PricingFacts) :
    (fun b : PromoBucket => matchesPromo b.values facts) =
      listsOneOf (·.values) facts.promo.toList := by
  funext b
  unfold matchesPromo listsOneOf
  cases facts.promo with
  | none => rfl
  | some promo => simp [sharesValue]

theorem matchesFormation_eq (facts : PricingFacts) :
    (fun b : StringBucket => matchesFormation b.values facts) =
      listsOneOf (·.values) facts.formation.toList := by
  funext b
  unfold matchesFormation listsOneOf
  cases facts.formation with
  | none => rfl
  | some formation => simp [sharesValue]

theorem matchesAnswer_eq (questionId : String) (facts : PricingFacts) :
    (fun b : StringBucket => matchesAnswer questionId b.values facts) =
      listsOneOf (·.values) ((facts.answers.get? questionId).getD []) := by
  funext b
  unfold matchesAnswer listsOneOf
  cases facts.answers.get? questionId with
  | none | some selected => rfl

theorem matchesCotisation_eq {bucket : CotisationBucket} (h : bucket.anyTier = false)
    (facts : PricingFacts) :
    matchesCotisation bucket.toCotisationCriterion facts =
      listsOneOf (fun b : CotisationBucket => b.variantKeys) facts.cotisationTiers bucket := by
  unfold matchesCotisation listsOneOf
  cases facts.cotisationTiers with
  | nil => rfl
  | cons tier rest => simp [h]

/-- A bucket for any tier overlaps every other, so it stands alone in its dimension. -/
theorem anyTier_eq_false (h : buckets.Pairwise fun a b => cotisationOverlap a b = false)
    (hlength : 1 < buckets.length) : ∀ bucket ∈ buckets, bucket.anyTier = false := by
  match buckets, hlength with
  | first :: second :: rest, _ =>
    obtain ⟨hfirst, _⟩ := pairwise_cons.mp h
    have hsecond := hfirst second mem_cons_self
    intro bucket hbucket
    rcases mem_cons.mp hbucket with rfl | hbucket
    · simp only [cotisationOverlap, Bool.or_eq_false_iff] at hsecond
      exact hsecond.1.1
    · have hpair := hfirst bucket hbucket
      simp only [cotisationOverlap, Bool.or_eq_false_iff] at hpair
      exact hpair.1.2

theorem length_matchingBuckets_cotisation {id : String}
    (hvalid : ValidDimension (.cotisation id buckets)) :
    (matchingBuckets (.cotisation id buckets) facts).length ≤ 1 ↔
      OneGroup facts (.cotisation id buckets) := by
  have hdisjoint := clashes_eq_nil.mp hvalid.exclusive
  rw [matchingBuckets, bucketIdsWhere, length_map]
  by_cases hlength : 1 < buckets.length
  · have hany := anyTier_eq_false hdisjoint hlength
    rw [filter_congr fun bucket hbucket => matchesCotisation_eq (hany bucket hbucket) facts]
    refine ⟨listedTogether_of_length_le_one, length_filter_le_one (hdisjoint.imp fun h => ?_)⟩
    simp only [cotisationOverlap, Bool.or_eq_false_iff] at h
    exact h.2
  · have hfew := Nat.le_of_not_lt hlength
    refine iff_of_true (Nat.le_trans (length_filter_le _ _) hfew) ?_
    rintro first - second - ⟨a, ha, hlistA⟩ ⟨b, hb, hlistB⟩
    exact ⟨a, ha, hlistA, eq_of_length_le_one hfew ha hb ▸ hlistB⟩

/-- At most one declared bucket of a dimension matches. -/
theorem length_matchingBuckets_le_one {d : Dimension} (hvalid : ValidDimension d) :
    (matchingBuckets d facts).length ≤ 1 ↔ OneGroup facts d := by
  cases d with
  | cotisation id buckets => exact length_matchingBuckets_cotisation hvalid
  | promo id buckets =>
    rw [matchingBuckets, bucketIdsWhere, length_map, matchesPromo_eq]
    exact iff_of_true (length_filter_le_one (clashes_eq_nil.mp hvalid.exclusive)
      (listedTogether_toList _ _ facts.promo)) trivial
  | formation id buckets =>
    rw [matchingBuckets, bucketIdsWhere, length_map, matchesFormation_eq]
    exact iff_of_true (length_filter_le_one (clashes_eq_nil.mp hvalid.exclusive)
      (listedTogether_toList _ _ facts.formation)) trivial
  | answer d =>
    rw [matchingBuckets, bucketIdsWhere, length_map, matchesAnswer_eq]
    exact ⟨listedTogether_of_length_le_one,
      length_filter_le_one (clashes_eq_nil.mp hvalid.exclusive)⟩

/-! ## 3. Permuting the buckets -/

/-- The same dimension with its buckets in another order. -/
inductive Reordered : Dimension → Dimension → Prop where
  | cotisation (id : String) {first second : List CotisationBucket} (h : first.Perm second) :
      Reordered (.cotisation id first) (.cotisation id second)
  | promo (id : String) {first second : List PromoBucket} (h : first.Perm second) :
      Reordered (.promo id first) (.promo id second)
  | formation (id : String) {first second : List StringBucket} (h : first.Perm second) :
      Reordered (.formation id first) (.formation id second)
  | answer (id questionId : String) {first second : List StringBucket} (h : first.Perm second) :
      Reordered (.answer ⟨id, questionId, first⟩) (.answer ⟨id, questionId, second⟩)

/-- The same grid with the buckets inside each dimension in another order. -/
structure PermutesBuckets (matrix permuted : PriceMatrix) : Prop where
  dimensions : List.Forall₂ Reordered matrix.dimensions permuted.dimensions
  cells : permuted.cells = matrix.cells

theorem Reordered.matchingBuckets_perm (h : Reordered first second)
    (facts : PricingFacts) : (matchingBuckets first facts).Perm (matchingBuckets second facts) := by
  cases h with
  | cotisation _ h | promo _ h | formation _ h | answer _ _ h => exact (h.filter _).map _

theorem eq_of_perm_of_length_le_one {Item : Type} {first second : List Item}
    (h : first.Perm second) (hlength : first.length ≤ 1) : first = second := by
  match first, hlength with
  | [], _ => exact h.nil_eq
  | [item], _ => exact h.singleton_eq

theorem Reordered.bucketFor_eq (h : Reordered first second)
    (hone : (matchingBuckets first facts).length ≤ 1) :
    bucketFor second facts = bucketFor first facts := by
  rw [bucketFor_eq_head, bucketFor_eq_head,
    eq_of_perm_of_length_le_one (h.matchingBuckets_perm facts) hone]

theorem map_bucketFor_eq {first second : List Dimension} (h : List.Forall₂ Reordered first second)
    (hone : ∀ d ∈ first, (matchingBuckets d facts).length ≤ 1) :
    (second.map fun d => bucketFor d facts) = first.map fun d => bucketFor d facts := by
  induction h with
  | nil => rfl
  | cons hhead _ ih =>
    rw [map_cons, map_cons, hhead.bucketFor_eq (hone _ mem_cons_self),
      ih fun d hd => hone d (mem_cons_of_mem _ hd)]

/-- **The order of the buckets does not decide a price.**  In an accepted grid, at most one
    declared bucket of each dimension matches a person, and their price is the same however the
    buckets are ordered inside the dimensions, exactly if the person's tiers, and their options
    for each priced question, are not spread over two buckets of a dimension. -/
theorem price_ignores_bucket_order (matrix : PriceMatrix) (maxCells : Nat)
    (subject : PricedSubject) (hvalid : assertMatrixValid matrix maxCells subject = .ok ())
    (facts : PricingFacts) :
    ((∀ d ∈ matrix.dimensions, (matchingBuckets d facts).length ≤ 1) ∧
      ∀ permuted, PermutesBuckets matrix permuted →
        resolveCellPrice permuted facts subject = resolveCellPrice matrix facts subject) ↔
    ∀ d ∈ matrix.dimensions, OneGroup facts d := by
  have hmatching : (∀ d ∈ matrix.dimensions, (matchingBuckets d facts).length ≤ 1) ↔
      ∀ d ∈ matrix.dimensions, OneGroup facts d :=
    forall₂_congr fun d hd =>
      length_matchingBuckets_le_one ((assertMatrixValid_eq_ok.mp hvalid).dimension d hd)
  rw [hmatching, and_iff_left_iff_imp]
  intro hone permuted hpermuted
  have hkey : cellKeyFor permuted facts = cellKeyFor matrix facts := by
    rw [cellKeyFor, cellKeyFor, map_bucketFor_eq hpermuted.dimensions (hmatching.mpr hone)]
  rw [resolveCellPrice, resolveCellPrice, hkey, hpermuted.cells]

/-- A grid on a question with several choices, with a bucket for each of two options. -/
def twoOptions (buckets : List StringBucket) : PriceMatrix where
  dimensions := [.answer ⟨"d", "q", buckets⟩]
  cells := OrderedMap.ofPairs [("a", some 1000), ("b", some 2000), (othersBucketId, some 0)]

def optionA : StringBucket := ⟨"a", "A", ["x"]⟩
def optionB : StringBucket := ⟨"b", "B", ["y"]⟩

def selected (options : List String) : PricingFacts where
  promo := none
  formation := none
  cotisationTiers := []
  answers := OrderedMap.ofPairs [("q", options)]

theorem price_ignores_bucket_order_one_option :
    resolveCellPrice (twoOptions [optionA, optionB]) (selected ["y"]) .form = .ok (some 2000) ∧
    resolveCellPrice (twoOptions [optionB, optionA]) (selected ["y"]) .form =
      resolveCellPrice (twoOptions [optionA, optionB]) (selected ["y"]) .form := by
  refine ⟨by decide, ?_⟩
  have hone : ∀ d ∈ (twoOptions [optionA, optionB]).dimensions, OneGroup (selected ["y"]) d := by
    intro d hd
    rw [mem_singleton.mp hd]
    exact listedTogether_toList _ _ (some "y")
  have h := price_ignores_bucket_order (twoOptions [optionA, optionB]) 400 .form
    (by decide) (selected ["y"])
  exact (h.mpr hone).2 _ ⟨.cons (.answer "d" "q" (List.Perm.swap _ _ _)) .nil, rfl⟩

/-- With both options selected both buckets match, and the grid charges 1000 or 2000 cents
    depending on which bucket is declared first. -/
theorem bucket_order_decides_price :
    assertMatrixValid (twoOptions [optionA, optionB]) 400 .form = .ok () ∧
    assertMatrixValid (twoOptions [optionB, optionA]) 400 .form = .ok () ∧
    PermutesBuckets (twoOptions [optionA, optionB]) (twoOptions [optionB, optionA]) ∧
    matchingBuckets (.answer ⟨"d", "q", [optionA, optionB]⟩) (selected ["x", "y"]) = ["a", "b"] ∧
    resolveCellPrice (twoOptions [optionA, optionB]) (selected ["x", "y"]) .form = .ok (some 1000) ∧
    resolveCellPrice (twoOptions [optionB, optionA]) (selected ["x", "y"]) .form =
      .ok (some 2000) := by
  refine ⟨by decide, by decide, ?_, by decide, by decide,
    by decide⟩
  exact ⟨.cons (.answer "d" "q" (List.Perm.swap _ _ _)) .nil, rfl⟩

end MinesApp.Pricing
