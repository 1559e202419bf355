import Mathlib.Data.Set.Insert
import Mathlib.Order.Lattice

/-!
# Merging replicas when a tie stays at home

Two replicas exchange their states and each merges what it receives into its own.
When a conflict that the data cannot decide is left to the receiver, merging is not
commutative, but it is still associative, idempotent, and sees nothing new in a state
that was built from its own: `x ⊔ (y ⊔ x) = x ⊔ y`.  These three laws make it a left
regular band, and they are all that an exchange needs: after one exchange the
replicas hold `x ⊔ y` and `y ⊔ x`, a further exchange changes neither, and the two
agree exactly when `x` and `y` commute.
-/

namespace MinesApp.BiasedMerge

open List BiasedMerge Set

structure Biased {State : Type} (merge : State → State → State) : Prop where
  assoc : ∀ x y z, merge (merge x y) z = merge x (merge y z)
  idem : ∀ x, merge x x = x
  bias : ∀ x y, merge x (merge y x) = merge x y

theorem Biased.settled {State : Type} {merge : State → State → State} (h : Biased merge)
    (x y : State) : merge (merge x y) (merge y x) = merge x y := by
  rw [h.assoc, ← h.assoc y y x, h.idem, h.bias]

/-! ## Components -/

theorem Biased.flag : Biased or where
  assoc := Bool.or_assoc
  idem := Bool.or_self
  bias x y := by
    rw [Bool.or_comm y x, ← Bool.or_assoc, Bool.or_self]

/-- A field that is filled once: the first value stays. -/
theorem Biased.first {Value : Type} : Biased (Option.or : Option Value → Option Value → _) where
  assoc x y z := by
    cases x <;> rfl
  idem x := by
    cases x <;> rfl
  bias x y := by
    cases x with
    | none => exact Option.or_none
    | some own => rfl

section Latest

variable {Value Stamp : Type} [LinearOrder Stamp] (stamp : Value → Stamp)

/-- Last write wins, and of two writes of the same instant one's own. -/
def latest : Option Value → Option Value → Option Value
  | own, none => own
  | none, some theirs => some theirs
  | some own, some theirs => if stamp theirs ≤ stamp own then some own else some theirs

variable {own theirs : Value} {seen : Set Value} {held : Option Value} {values : List Value}

@[simp] theorem latest_none (own : Option Value) : latest stamp own none = own := by
  cases own <;> rfl

@[simp] theorem none_latest (theirs : Option Value) : latest stamp none theirs = theirs := by
  cases theirs <;> rfl

theorem latest_of_le (h : stamp theirs ≤ stamp own) :
    latest stamp (some own) (some theirs) = some own :=
  if_pos h

theorem latest_of_lt (h : stamp own < stamp theirs) :
    latest stamp (some own) (some theirs) = some theirs :=
  if_neg (not_le.mpr h)

theorem Biased.latest : Biased (latest stamp) where
  assoc x y z := by
    cases x with
    | none => rw [none_latest, none_latest]
    | some first =>
      cases y with
      | none => rw [latest_none, none_latest]
      | some second =>
        cases z with
        | none => rw [latest_none, latest_none]
        | some third =>
          simp only [BiasedMerge.latest]
          grind
  idem x := by
    cases x with
    | none => rfl
    | some own => exact latest_of_le stamp le_rfl
  bias x y := by
    cases x with
    | none => rw [latest_none]
    | some own =>
      cases y with
      | none => rw [none_latest, latest_none, latest_of_le stamp le_rfl]
      | some theirs =>
        rcases le_or_gt (stamp own) (stamp theirs) with hle | hlt
        · rw [latest_of_le stamp hle]
        · rw [latest_of_lt stamp hlt, latest_of_le stamp le_rfl, latest_of_le stamp (le_of_lt hlt)]

/-! ## What has been seen -/

/-- `held` is the latest of the values seen. -/
structure Newest (seen : Set Value) (held : Option Value) : Prop where
  mem : ∀ value, held = some value → value ∈ seen
  above : ∀ value ∈ seen, ∃ newest, held = some newest ∧ stamp value ≤ stamp newest

theorem Newest.nothing : Newest stamp (∅ : Set Value) none where
  mem _ hheld := by
    cases hheld
  above _ hseen := hseen.elim

theorem Newest.one (value : Value) : Newest stamp {value} (some value) where
  mem other hother := by
    cases hother
    exact mem_singleton value
  above other hother := by
    rw [mem_singleton_iff.mp hother]
    exact ⟨value, rfl, le_rfl⟩

/-- A value of `latest` came from one of the two sides, and outranks both. -/
theorem latest_cases (own theirs : Option Value) :
    (latest stamp own theirs = own ∧
      ∀ value, theirs = some value → ∃ kept, own = some kept ∧ stamp value ≤ stamp kept) ∨
    (latest stamp own theirs = theirs ∧
      ∀ value, own = some value → ∃ newer, theirs = some newer ∧ stamp value < stamp newer) := by
  cases theirs with
  | none =>
    refine .inl ⟨latest_none stamp own, fun value hvalue => ?_⟩
    cases hvalue
  | some received =>
    cases own with
    | none =>
      refine .inr ⟨rfl, fun value hvalue => ?_⟩
      cases hvalue
    | some kept =>
      rcases le_or_gt (stamp received) (stamp kept) with hle | hlt
      · refine .inl ⟨latest_of_le stamp hle, fun value hvalue => ?_⟩
        cases hvalue
        exact ⟨kept, rfl, hle⟩
      · refine .inr ⟨latest_of_lt stamp hlt, fun value hvalue => ?_⟩
        cases hvalue
        exact ⟨received, rfl, hlt⟩

variable {stamp}

theorem Newest.latest {other : Set Value} {own theirs : Option Value}
    (hown : Newest stamp seen own) (htheirs : Newest stamp other theirs) :
    Newest stamp (seen ∪ other) (latest stamp own theirs) := by
  rcases latest_cases stamp own theirs with ⟨hlatest, hkept⟩ | ⟨hlatest, hnewer⟩
  · rw [hlatest]
    refine ⟨fun value hvalue => .inl (hown.mem value hvalue), ?_⟩
    rintro value (hseen | hseen)
    · exact hown.above value hseen
    · obtain ⟨newest, hnewest, hle⟩ := htheirs.above value hseen
      obtain ⟨kept, hown, hle'⟩ := hkept newest hnewest
      exact ⟨kept, hown, hle.trans hle'⟩
  · rw [hlatest]
    refine ⟨fun value hvalue => .inr (htheirs.mem value hvalue), ?_⟩
    rintro value (hseen | hseen)
    · obtain ⟨newest, hnewest, hle⟩ := hown.above value hseen
      obtain ⟨newer, htheirs, hlt⟩ := hnewer newest hnewest
      exact ⟨newer, htheirs, hle.trans hlt.le⟩
    · exact htheirs.above value hseen

/-- The latest value is determined by what was seen as soon as no two of the latest values
    differ. -/
theorem Newest.unique {other : Option Value}
    (hheld : Newest stamp seen held) (hother : Newest stamp seen other)
    (hagree : ∀ first ∈ seen, ∀ second ∈ seen, (∀ value ∈ seen, stamp value ≤ stamp first) →
      (∀ value ∈ seen, stamp value ≤ stamp second) → first = second) : held = other := by
  have hgreatest : ∀ {found : Option Value} {newest : Value}, Newest stamp seen found →
      found = some newest → ∀ value ∈ seen, stamp value ≤ stamp newest := by
    intro found newest hfound heq value hvalue
    obtain ⟨top, htop, hle⟩ := hfound.above value hvalue
    cases heq.symm.trans htop
    exact hle
  cases held with
  | none =>
    cases other with
    | none => rfl
    | some newest =>
      obtain ⟨_, hnone, _⟩ := hheld.above newest (hother.mem newest rfl)
      cases hnone
  | some newest =>
    obtain ⟨top, rfl, _⟩ := hother.above newest (hheld.mem newest rfl)
    exact congrArg some (hagree newest (hheld.mem newest rfl) top (hother.mem top rfl)
      (hgreatest hheld rfl) (hgreatest hother rfl))

variable (stamp)

/-- The latest of a series of values, in the order of their arrival. -/
def latestOf (values : List Value) : Option Value :=
  values.foldl (fun held value => latest stamp held (some value)) none

theorem latestOf_append (first second : List Value) :
    latestOf stamp (first ++ second) =
      second.foldl (fun held value => latest stamp held (some value)) (latestOf stamp first) :=
  foldl_append

/-- A series of values is merged as its latest. -/
theorem foldl_latest (held : Option Value) (values : List Value) :
    values.foldl (fun held value => latest stamp held (some value)) held =
      latest stamp held (latestOf stamp values) := by
  induction values generalizing held with
  | nil => exact (latest_none stamp held).symm
  | cons value rest ih =>
    have hcons : latestOf stamp (value :: rest) =
        latest stamp (some value) (latestOf stamp rest) := ih (some value)
    rw [foldl_cons, ih, hcons]
    exact (Biased.latest stamp).assoc held (some value) (latestOf stamp rest)

theorem Newest.foldl (h : Newest stamp seen held) (values : List Value) :
    Newest stamp (seen ∪ {value | value ∈ values})
      (values.foldl (fun held value => BiasedMerge.latest stamp held (some value)) held) := by
  induction values generalizing seen held with
  | nil => simpa using h
  | cons value rest ih =>
    have hrest := ih (h.latest (Newest.one stamp value))
    have hseen : seen ∪ {other | other ∈ value :: rest} =
        seen ∪ {value} ∪ {other | other ∈ rest} := by
      ext other
      simp only [mem_union, mem_ofPred_eq, mem_cons, mem_singleton_iff, or_assoc]
    rw [hseen]
    exact hrest

theorem newest_latestOf (values : List Value) :
    Newest stamp {value | value ∈ values} (latestOf stamp values) := by
  have hfold := (Newest.nothing stamp).foldl stamp values
  rwa [empty_union] at hfold

variable {stamp} in
theorem latestOf_eq_none : latestOf stamp values = none ↔ values = [] := by
  constructor
  · intro hnone
    by_contra hsome
    obtain ⟨value, hvalue⟩ := exists_mem_of_ne_nil values hsome
    obtain ⟨_, hnewest, _⟩ := (newest_latestOf stamp values).above value hvalue
    cases hnone.symm.trans hnewest
  · rintro rfl
    rfl

/-- The first of the latest values is the one that stays. -/
theorem latestOf_cons_of_greatest {first : Value}
    (h : ∀ value ∈ values, stamp value ≤ stamp first) :
    latestOf stamp (first :: values) = some first := by
  simp only [latestOf, foldl_cons, none_latest]
  induction values with
  | nil => rfl
  | cons value rest ih =>
    rw [foldl_cons, latest_of_le stamp (h value mem_cons_self)]
    exact ih fun other hother => h other (mem_cons_of_mem _ hother)

end Latest

/-! ## Composites -/

theorem Biased.prod {First Second : Type} {mergeFirst : First → First → First}
    {mergeSecond : Second → Second → Second} (hfirst : Biased mergeFirst)
    (hsecond : Biased mergeSecond) :
    Biased fun x y : First × Second => (mergeFirst x.1 y.1, mergeSecond x.2 y.2) where
  assoc x y z := Prod.ext (hfirst.assoc x.1 y.1 z.1) (hsecond.assoc x.2 y.2 z.2)
  idem x := Prod.ext (hfirst.idem x.1) (hsecond.idem x.2)
  bias x y := Prod.ext (hfirst.bias x.1 y.1) (hsecond.bias x.2 y.2)

theorem Biased.pi {Key State : Type} {merge : State → State → State} (h : Biased merge) :
    Biased fun (x y : Key → State) key => merge (x key) (y key) where
  assoc x y z := funext fun key => h.assoc (x key) (y key) (z key)
  idem x := funext fun key => h.idem (x key)
  bias x y := funext fun key => h.bias (x key) (y key)

end MinesApp.BiasedMerge
