import MinesApp.TransitionSystem
import MinesApp.UniqueTable

/-!
# Membership tags

A person is a member (cotisant) of an association when they hold an active tag with the name of
one of its tiers.  The name is assembled from the slug of the association, the key of the tier
and, for a membership by the year, the academic year, all joined by hyphens; the tags of all
associations are in one table, and who issued a tag is not looked at when it is read.

Slugs and keys may hold hyphens themselves.  The tier `gala` of the association `bde` has the
tag of the association `bde-gala`, so a grant of the first makes a member of the second, and a
change of tier in the first ends a membership of the second.  A manager may also grant a tag of
any name.  The result says exactly when a call leaves the members of an association as they
are.
-/

namespace MinesApp.Cotisation

open TransitionSystem UniqueTable List

/-! ## 1. Names -/

inductive CotisationMode
  | lifetime
  | dated
  deriving DecidableEq, Repr

/-- `new Date()`: the instant in milliseconds, and its year and month (January is 0) where the
    service runs. -/
structure Now where
  instant : Int
  year : Nat
  month : Fin 12

def academicYearStart (now : Now) : Nat := if now.month ≥ 8 then now.year else now.year - 1

def getAcademicYear (now : Now) : String :=
  toString (academicYearStart now) ++ "-" ++ toString (academicYearStart now + 1)

def leapYears (year : Int) : Int := year / 4 - year / 100 + year / 400

/-- `Date.UTC(year, 7, 31, 23, 59, 59)`. -/
def endOfAugust (year : Int) : Int :=
  let days := 365 * (year - 1970) + (leapYears year - leapYears 1969) + 242
  (days * 86400 + 23 * 3600 + 59 * 60 + 59) * 1000

structure CotisationTag where
  tagName : String
  expiresAt : Option Int
  deriving DecidableEq, Repr

/-- An empty key is falsy, like a key that is not there. -/
def tagBase (slug : String) : Option String → String
  | none => slug
  | some variant => if variant = "" then slug else slug ++ "-" ++ variant

def deriveCotisationTag (slug : String) (mode : CotisationMode) (now : Now)
    (variant : Option String) : CotisationTag :=
  match mode with
  | .lifetime => ⟨"cotisant:" ++ tagBase slug variant, none⟩
  | .dated =>
    ⟨"cotisant:" ++ tagBase slug variant ++ "-" ++ getAcademicYear now,
      some (endOfAugust (academicYearStart now + 1))⟩

/-! ## 2. Associations, products and tags -/

structure Association where
  id : String
  slug : String
  cotisationMode : Option CotisationMode
  deriving DecidableEq, Repr

inductive ProductType
  | membership
  | balanceTopup
  | other
  deriving DecidableEq, Repr

/-- What is read of a product of an association's shop. -/
structure AssociationProduct where
  id : String
  associationId : String
  name : String
  type : ProductType
  grantedTagName : Option String
  tagExpiresAt : Option Int
  variantKey : Option String
  webhookUrl : Option String
  webhookSecret : Option String
  deriving DecidableEq, Repr

/-- The associations, whose slugs are unique, and the products of their shops. -/
structure Catalogue where
  associations : Table Association.id
  products : List AssociationProduct
  slugs : ∀ a ∈ associations, ∀ b ∈ associations, a.slug = b.slug → a = b

structure UserTag where
  userId : String
  tagName : String
  issuingAssocId : Option String
  grantedBy : String
  expiresAt : Option Int
  deriving DecidableEq, Repr

def UserTag.key (tag : UserTag) : String × String := (tag.userId, tag.tagName)

abbrev Tags := Table UserTag.key

def Catalogue.memberships (catalogue : Catalogue) (assocId : String) : List AssociationProduct :=
  catalogue.products.filter fun product =>
    product.associationId = assocId ∧ product.type = .membership

def tierVariantKeys (products : List AssociationProduct) : List (Option String) :=
  if products.isEmpty then [none]
  else
    let keys := (products.map (·.variantKey)).eraseDups
    keys.filter (·.isSome) ++ keys.filter (·.isNone)

structure CotisationTierInfo where
  variantKey : Option String
  name : String
  tagName : String
  deriving DecidableEq, Repr

section Service

variable (catalogue : Catalogue) (now : Now)

def listCotisationTiers (assocId : String) : List CotisationTierInfo :=
  match catalogue.associations.find assocId with
  | none => []
  | some asso =>
    match asso.cotisationMode with
    | none => []
    | some mode => (catalogue.memberships assocId).map fun product =>
      { variantKey := product.variantKey
        name := product.name
        tagName := (deriveCotisationTag asso.slug mode now product.variantKey).tagName }

/-! ## 3. Grants and revocations -/

structure GrantTagData where
  userId : String
  tagName : String
  issuingAssocId : Option String
  grantedBy : String
  expiresAt : Option Int

section

variable (tags : Tags) (product : AssociationProduct)

def grantOrRenew (data : GrantTagData) : Tags :=
  match tags.find (data.userId, data.tagName) with
  | some existing => tags.write { existing with expiresAt := data.expiresAt }
  | none => tags.put
      { userId := data.userId
        tagName := data.tagName
        issuingAssocId := data.issuingAssocId
        grantedBy := data.grantedBy
        expiresAt := data.expiresAt }

def revokeByName (userId tagName : String) : Tags := tags.remove (userId, tagName)

def revokeSiblingTierTags (assocId userId : String) (keepVariantKey : Option String) : Tags :=
  let tiers := listCotisationTiers catalogue now assocId
  if tiers.length < 2 then tags
  else tiers.foldl (fun tags tier =>
    if tier.variantKey = keepVariantKey then tags else revokeByName tags userId tier.tagName) tags

/-- Why a tier is not granted: the association has no such tier, or no base tier. -/
def tierRefusal (tiers : List CotisationTierInfo) : Option String → Option String
  | some key =>
    if (tiers.all fun tier => tier.variantKey ≠ some key) = true then
      some ("Unknown cotisation tier \"" ++ key ++ "\"")
    else none
  | none =>
    if tiers ≠ [] ∧ (tiers.all fun tier => tier.variantKey ≠ none) = true then
      some "This association has no base tier - a tier must be chosen"
    else none

def grantCotisant (assocId userId grantedBy : String)
    (variantKey : Option String) : Except String Tags :=
  match catalogue.associations.find assocId with
  | none => .error "Association not found"
  | some asso =>
    match asso.cotisationMode with
    | none => .error "Cotisation is not enabled for this association"
    | some mode =>
      match tierRefusal (listCotisationTiers catalogue now assocId) variantKey with
      | some message => .error message
      | none =>
        let tag := deriveCotisationTag asso.slug mode now variantKey
        .ok (revokeSiblingTierTags catalogue now (grantOrRenew tags
            { userId := userId
              tagName := tag.tagName
              issuingAssocId := some assocId
              grantedBy := grantedBy
              expiresAt := tag.expiresAt })
          assocId userId variantKey)

/-- The tag that a purchase of the product grants.  An empty name is falsy. -/
def resolveGrantTag : Option CotisationTag :=
  match product.type, product.grantedTagName with
  | .membership, some stored =>
    if stored = "" then none
    else
      match catalogue.associations.find product.associationId with
      | none => some ⟨stored, product.tagExpiresAt⟩
      | some asso =>
        match asso.cotisationMode with
        | none => some ⟨stored, product.tagExpiresAt⟩
        | some mode => some (deriveCotisationTag asso.slug mode now product.variantKey)
  | _, _ => none

/-- The transaction of `fulfillProductPurchase`: the tag, then the tags of the other tiers. -/
def purchaseTags (grant : CotisationTag) (userId grantedBy : String) : Tags :=
  revokeSiblingTierTags catalogue now (grantOrRenew tags
      { userId := userId
        tagName := grant.tagName
        issuingAssocId := some product.associationId
        grantedBy := grantedBy
        expiresAt := grant.expiresAt })
    product.associationId userId product.variantKey

/-- The tags that a purchase leaves. -/
def grantPurchased (userId grantedBy : String) : Tags :=
  match resolveGrantTag catalogue now product with
  | none => tags
  | some grant => purchaseTags catalogue now tags product grant userId grantedBy

end

/-! ## 4. Members -/

section

variable (tags : Tags) (userId tagName : String)

def hasActiveTag : Bool :=
  match tags.find (userId, tagName) with
  | none => false
  | some tag =>
    match tag.expiresAt with
    | none => true
    | some expiry => expiry > now.instant

def getActiveTag : Option UserTag :=
  match tags.find (userId, tagName) with
  | none => none
  | some tag =>
    match tag.expiresAt with
    | none => some tag
    | some expiry => if expiry ≤ now.instant then none else some tag

def heldVariantKeys (userId : String) (tiers : List CotisationTierInfo) : List (Option String) :=
  (tiers.filter fun tier => hasActiveTag now tags userId tier.tagName).map (·.variantKey)

def listHeldCotisationTiers (userId assocId : String) : List (Option String) :=
  heldVariantKeys now tags userId (listCotisationTiers catalogue now assocId)

/-- `holdsAnyCotisation` and `holdsCotisationTier`: all tiers are wanted, or one. -/
def holdsOneOfTiers (userId assocId : String) (variantKey : Option String)
    (anyTier : Bool) : Bool :=
  let tiers := listCotisationTiers catalogue now assocId
  let wanted := if anyTier then tiers else tiers.filter fun tier => tier.variantKey = variantKey
  !(heldVariantKeys now tags userId wanted).isEmpty

def isBuyerCotisant (asso : Association) (userId : String) : Bool :=
  match asso.cotisationMode with
  | none => false
  | some mode => (tierVariantKeys (catalogue.memberships asso.id)).any fun variantKey =>
    hasActiveTag now tags userId (deriveCotisationTag asso.slug mode now variantKey).tagName

end

structure CotisantStatus where
  isCotisant : Bool
  tier : Option String
  expiresAt : Option Int
  deriving DecidableEq, Repr

def firstHeldTier (tags : Tags) (asso : Association) (mode : CotisationMode) (userId : String) :
    Option CotisantStatus :=
  (tierVariantKeys (catalogue.memberships asso.id)).findSome? fun variantKey =>
    (getActiveTag now tags userId (deriveCotisationTag asso.slug mode now variantKey).tagName).map
      fun tag => ⟨true, variantKey, tag.expiresAt⟩

def getCotisantStatusBySlug (tags : Tags) (assoSlug userId : String) :
    Except String CotisantStatus :=
  match catalogue.associations.rows.find? fun asso => asso.slug = assoSlug with
  | none => .error "Association not found"
  | some asso =>
    match asso.cotisationMode with
    | none => .ok ⟨false, none, none⟩
    | some mode =>
      .ok ((firstHeldTier catalogue now tags asso mode userId).getD ⟨false, none, none⟩)

end Service

/-! ## 5. Calls for an association -/

/-- What is done for an association: a manager grants a tag by its name, or a tier; a product of
    its shop is bought; the other tiers of a person are revoked. -/
inductive Call
  | grantTag (userId tagName grantedBy : String) (expiresAt : Option Int)
  | grantCotisant (userId grantedBy : String) (variantKey : Option String)
  | purchase (product : AssociationProduct) (userId grantedBy : String)
  | revokeSiblings (userId : String) (keepVariantKey : Option String)

section

variable (catalogue : Catalogue) (assocId : String) (tags : Tags) (now : Now)

/-- The tags after a call; a call that throws leaves them as they are. -/
def perform : Call → Tags
  | .grantTag userId tagName grantedBy expiresAt =>
    grantOrRenew tags ⟨userId, tagName, some assocId, grantedBy, expiresAt⟩
  | .grantCotisant userId grantedBy variantKey =>
    match grantCotisant catalogue now tags assocId userId grantedBy variantKey with
    | .ok granted => granted
    | .error _ => tags
  | .purchase product userId grantedBy =>
    if product.associationId = assocId then
      grantPurchased catalogue now tags product userId grantedBy
    else tags
  | .revokeSiblings userId keepVariantKey =>
    revokeSiblingTierTags catalogue now tags assocId userId keepVariantKey

def tierTagNames : List String :=
  match catalogue.associations.find assocId with
  | none => []
  | some asso =>
    match asso.cotisationMode with
    | none => []
    | some mode => (tierVariantKeys (catalogue.memberships assocId)).map fun variantKey =>
      (deriveCotisationTag asso.slug mode now variantKey).tagName

def Catalogue.tierTag (variantKey : Option String) : Option CotisationTag :=
  (catalogue.associations.find assocId).bind fun asso => asso.cotisationMode.map fun mode =>
    deriveCotisationTag asso.slug mode now variantKey

/-- A grant of the tier with this key deletes the tag. -/
def revokes (variantKey : Option String) (tagName : String) : Bool :=
  let tiers := listCotisationTiers catalogue now assocId
  decide (2 ≤ tiers.length) &&
    tiers.any fun tier => tier.variantKey ≠ variantKey && tier.tagName = tagName

/-- What a call does to the tags of one person: the tag it writes, and the key of the tier whose
    siblings it revokes. -/
structure Effect where
  userId : String
  written : Option CotisationTag
  kept : Option (Option String)

/-- A call that is refused has none, and neither has a purchase that grants no tag. -/
def Call.effect : Call → Option Effect
  | .grantTag userId tagName _ expiresAt => some ⟨userId, some ⟨tagName, expiresAt⟩, none⟩
  | .grantCotisant userId _ variantKey =>
    if tierRefusal (listCotisationTiers catalogue now assocId) variantKey = none then
      (catalogue.tierTag assocId now variantKey).map fun tag => ⟨userId, some tag, some variantKey⟩
    else none
  | .purchase product userId _ =>
    if product.associationId = assocId then
      (resolveGrantTag catalogue now product).map fun grant =>
        ⟨userId, some grant, some product.variantKey⟩
    else none
  | .revokeSiblings userId keepVariantKey => some ⟨userId, none, some keepVariantKey⟩

def inForce (now : Now) (expiresAt : Option Int) : Bool := expiresAt.all (· > now.instant)

/-- Whether the person has the tag in force at the time `later` after the effect of a call made
    now; `held` says whether they have it without the call. -/
def Effect.has (effect : Effect) (later : Now) (tagName : String) (held : Bool) : Bool :=
  if (effect.kept.any fun key => revokes catalogue assocId now key tagName) then false
  else
    match effect.written with
    | none => held
    | some tag => if tag.tagName = tagName then inForce later tag.expiresAt else held

end

/-! ## 6. What a call changes -/

theorem mem_tierVariantKeys {products : List AssociationProduct} {product : AssociationProduct}
    (h : product ∈ products) : product.variantKey ∈ tierVariantKeys products := by
  have hnonempty : ¬ products.isEmpty = true := by
    intro hempty
    rw [isEmpty_iff.mp hempty] at h
    cases h
  have hkey : product.variantKey ∈ (products.map (·.variantKey)).eraseDups :=
    mem_eraseDups.mpr (mem_map_of_mem h)
  rw [tierVariantKeys, if_neg hnonempty]
  rw [mem_append, mem_filter, mem_filter]
  cases hvariant : product.variantKey with
  | none => exact .inr ⟨hvariant ▸ hkey, rfl⟩
  | some key => exact .inl ⟨hvariant ▸ hkey, rfl⟩

section Names

variable {catalogue : Catalogue} {assocId : String} {now : Now}

theorem tagName_mem_tierTagNames {asso : Association} {mode : CotisationMode}
    {variantKey : Option String} (hasso : catalogue.associations.find assocId = some asso)
    (hmode : asso.cotisationMode = some mode)
    (hkey : variantKey ∈ tierVariantKeys (catalogue.memberships assocId)) :
    (deriveCotisationTag asso.slug mode now variantKey).tagName ∈
      tierTagNames catalogue assocId now := by
  simp only [tierTagNames, hasso, hmode]
  exact mem_map.mpr ⟨variantKey, hkey, rfl⟩

theorem mem_listCotisationTiers {tier : CotisationTierInfo}
    (h : tier ∈ listCotisationTiers catalogue now assocId) :
    ∃ asso mode, catalogue.associations.find assocId = some asso ∧ asso.cotisationMode = some mode ∧
      tier.variantKey ∈ tierVariantKeys (catalogue.memberships assocId) ∧
      tier.tagName = (deriveCotisationTag asso.slug mode now tier.variantKey).tagName := by
  unfold listCotisationTiers at h
  split at h
  · cases h
  next asso hasso =>
    split at h
    · cases h
    next mode hmode =>
      obtain ⟨product, hproduct, rfl⟩ := mem_map.mp h
      exact ⟨asso, mode, hasso, hmode, mem_tierVariantKeys hproduct, rfl⟩

theorem find_revokeSiblingTierTags (tags : Tags) (userId : String)
    (keepVariantKey : Option String) (other tagName : String) :
    (revokeSiblingTierTags catalogue now tags assocId userId keepVariantKey).find (other, tagName) =
      if other = userId ∧ revokes catalogue assocId now keepVariantKey tagName = true then none
      else tags.find (other, tagName) := by
  -- the loop, over any list of tiers
  have hloop : ∀ (tiers : List CotisationTierInfo) (tags : Tags),
      (tiers.foldl (fun tags tier => if tier.variantKey = keepVariantKey then tags
        else revokeByName tags userId tier.tagName) tags).find (other, tagName) =
      if other = userId ∧ ∃ tier ∈ tiers, tier.variantKey ≠ keepVariantKey ∧
        tier.tagName = tagName then none else tags.find (other, tagName) := by
    intro tiers
    induction tiers with
    | nil => simp
    | cons tier rest ih =>
      intro tags
      rw [foldl_cons, ih]
      by_cases hkey : tier.variantKey = keepVariantKey
      · simp [hkey]
      · by_cases hname : userId = other ∧ tier.tagName = tagName
        · obtain ⟨rfl, rfl⟩ := hname
          have hgone : (revokeByName tags userId tier.tagName).find (userId, tier.tagName) = none :=
            Table.find_eq_none_iff.mpr fun row hrow => (Table.mem_remove.mp hrow).2
          simp [hkey, hgone]
        · have hkept : (revokeByName tags userId tier.tagName).find (other, tagName) =
              tags.find (other, tagName) :=
            Table.find_remove_of_ne fun hsame => hname (Prod.mk.inj hsame)
          rw [if_neg hkey, hkept]
          refine if_congr (and_congr_right ?_) rfl rfl
          rintro rfl
          simp [hkey, show tier.tagName ≠ tagName from fun hsame => hname ⟨rfl, hsame⟩]
  by_cases hfew : (listCotisationTiers catalogue now assocId).length < 2
  · simp [revokeSiblingTierTags, revokes, hfew, Nat.not_le.mpr hfew]
  · simp [revokeSiblingTierTags, revokes, hfew, hloop, Nat.not_lt.mp hfew]

theorem find_grantOrRenew (tags : Tags) (data : GrantTagData) :
    ∃ tag, (grantOrRenew tags data).find (data.userId, data.tagName) = some tag ∧
      tag.expiresAt = data.expiresAt := by
  unfold grantOrRenew
  split
  next existing hfind =>
    obtain ⟨hmem, hkey⟩ := Table.find_eq_some_iff.mp hfind
    exact ⟨{ existing with expiresAt := data.expiresAt }, Table.find_eq_some_iff.mpr
      ⟨Table.mem_write.mpr (.inr ⟨rfl, existing, hmem, rfl⟩), hkey⟩, rfl⟩
  · exact ⟨_, Table.find_eq_some_iff.mpr ⟨Table.mem_put.mpr (.inr rfl), rfl⟩, rfl⟩

theorem find_grantOrRenew_of_ne (tags : Tags) (data : GrantTagData) {key : String × String}
    (hne : key ≠ (data.userId, data.tagName)) :
    (grantOrRenew tags data).find key = tags.find key := by
  unfold grantOrRenew
  cases hfind : tags.find (data.userId, data.tagName) with
  | some existing =>
    obtain ⟨-, hkey⟩ := Table.find_eq_some_iff.mp hfind
    apply Table.find_write_of_ne
    intro hsame
    exact hne (hsame.symm.trans hkey)
  | none =>
    apply Table.find_put_of_ne
    intro hsame
    exact hne hsame.symm

theorem hasActiveTag_eq (tags : Tags) (userId tagName : String) :
    hasActiveTag now tags userId tagName =
      (tags.find (userId, tagName)).any fun tag => inForce now tag.expiresAt := by
  unfold hasActiveTag
  cases tags.find (userId, tagName) with
  | none => rfl
  | some tag => cases hexpiry : tag.expiresAt <;> simp [inForce, hexpiry]

variable {later : Now}

theorem hasActiveTag_grantOrRenew (tags : Tags) (data : GrantTagData) (userId tagName : String) :
    hasActiveTag later (grantOrRenew tags data) userId tagName =
      if userId = data.userId ∧ data.tagName = tagName then inForce later data.expiresAt
      else hasActiveTag later tags userId tagName := by
  rw [hasActiveTag_eq]
  split
  next hsame =>
    obtain ⟨rfl, rfl⟩ := hsame
    obtain ⟨tag, hfind, hexpiry⟩ := find_grantOrRenew tags data
    simp [hfind, hexpiry]
  next hother =>
    rw [find_grantOrRenew_of_ne tags data, ← hasActiveTag_eq]
    rintro ⟨⟩
    exact hother ⟨rfl, rfl⟩

theorem hasActiveTag_revokeSiblingTierTags (tags : Tags) (userId : String)
    (keepVariantKey : Option String) (other tagName : String) :
    hasActiveTag later (revokeSiblingTierTags catalogue now tags assocId userId keepVariantKey)
        other tagName =
      if other = userId ∧ revokes catalogue assocId now keepVariantKey tagName = true then false
      else hasActiveTag later tags other tagName := by
  rw [hasActiveTag_eq, find_revokeSiblingTierTags]
  split
  · rfl
  · rw [hasActiveTag_eq]

theorem hasActiveTag_perform (tags : Tags) (call : Call) (userId tagName : String) :
    hasActiveTag later (perform catalogue assocId tags now call) userId tagName =
      match call.effect catalogue assocId now with
      | none => hasActiveTag later tags userId tagName
      | some effect =>
        if userId = effect.userId then
          effect.has catalogue assocId now later tagName (hasActiveTag later tags userId tagName)
        else hasActiveTag later tags userId tagName := by
  -- the tag, then the tags of the other tiers
  have hswitch : ∀ (data : GrantTagData) (variantKey : Option String),
      hasActiveTag later (revokeSiblingTierTags catalogue now (grantOrRenew tags data) assocId
        data.userId variantKey) userId tagName =
      if userId = data.userId then
        (Effect.mk data.userId (some ⟨data.tagName, data.expiresAt⟩) (some variantKey)).has
          catalogue assocId now later tagName (hasActiveTag later tags userId tagName)
      else hasActiveTag later tags userId tagName := by
    intro data variantKey
    rw [hasActiveTag_revokeSiblingTierTags, hasActiveTag_grantOrRenew]
    by_cases huser : userId = data.userId <;> simp [huser, Effect.has]
  cases call with
  | grantTag owner name grantedBy expiresAt =>
    simp only [perform, Call.effect, hasActiveTag_grantOrRenew]
    by_cases huser : userId = owner <;> simp [huser, Effect.has]
  | grantCotisant owner grantedBy variantKey =>
    simp only [perform, grantCotisant, Call.effect, Catalogue.tierTag]
    cases catalogue.associations.find assocId with
    | none => simp
    | some asso =>
      cases hmode : asso.cotisationMode with
      | none => simp [hmode]
      | some mode =>
        cases tierRefusal (listCotisationTiers catalogue now assocId) variantKey with
        | some message => simp [hmode]
        | none => simpa [hmode] using hswitch _ variantKey
  | purchase product owner grantedBy =>
    simp only [perform, Call.effect]
    by_cases hassoc : product.associationId = assocId
    · cases hgrant : resolveGrantTag catalogue now product with
      | none => simp [hassoc, grantPurchased, hgrant]
      | some grant =>
        simpa [hassoc, grantPurchased, hgrant, purchaseTags] using
          hswitch ⟨owner, grant.tagName, some assocId, grantedBy, grant.expiresAt⟩
            product.variantKey
    · simp [hassoc]
  | revokeSiblings owner keepVariantKey =>
    simp only [perform, Call.effect, hasActiveTag_revokeSiblingTierTags]
    by_cases huser : userId = owner <;> simp [huser, Effect.has]

end Names

/-! ## 7. Members of another association -/

section

variable (catalogue : Catalogue) (now : Now) (asso : Association) (first second : Tags)

/-- Everyone is a member of the association by both tables or by neither, and of the same
    tiers, wherever the service asks. -/
def SameMembers : Prop :=
  ∀ userId,
    (getCotisantStatusBySlug catalogue now first asso.slug userId).map
        (fun status => (status.isCotisant, status.tier)) =
      (getCotisantStatusBySlug catalogue now second asso.slug userId).map
        (fun status => (status.isCotisant, status.tier)) ∧
    isBuyerCotisant catalogue now first asso userId =
      isBuyerCotisant catalogue now second asso userId ∧
    listHeldCotisationTiers catalogue now first userId asso.id =
      listHeldCotisationTiers catalogue now second userId asso.id ∧
    ∀ variantKey anyTier, holdsOneOfTiers catalogue now first userId asso.id variantKey anyTier =
      holdsOneOfTiers catalogue now second userId asso.id variantKey anyTier

variable {catalogue now asso first second}

theorem heldVariantKeys_congr {assocId userId : String}
    (h : ∀ tagName ∈ tierTagNames catalogue assocId now,
      hasActiveTag now first userId tagName = hasActiveTag now second userId tagName)
    {tiers : List CotisationTierInfo} (htiers : tiers ⊆ listCotisationTiers catalogue now assocId) :
    heldVariantKeys now first userId tiers = heldVariantKeys now second userId tiers := by
  unfold heldVariantKeys
  congr 1
  apply filter_congr
  intro tier htier
  obtain ⟨asso, mode, hasso, hmode, hkey, hname⟩ := mem_listCotisationTiers (htiers htier)
  rw [h _ (hname ▸ tagName_mem_tierTagNames hasso hmode hkey)]

/-- The tier of the first key whose tag is in force. -/
theorem firstHeldTier_congr (mode : CotisationMode) (userId : String)
    (h : ∀ key ∈ tierVariantKeys (catalogue.memberships asso.id),
      hasActiveTag now first userId (deriveCotisationTag asso.slug mode now key).tagName =
        hasActiveTag now second userId (deriveCotisationTag asso.slug mode now key).tagName) :
    (firstHeldTier catalogue now first asso mode userId).map
        (fun status => (status.isCotisant, status.tier)) =
      (firstHeldTier catalogue now second asso mode userId).map
        (fun status => (status.isCotisant, status.tier)) := by
  have hactive : ∀ (tags : Tags) (tagName : String),
      (getActiveTag now tags userId tagName).isSome = hasActiveTag now tags userId tagName := by
    intro tags tagName
    unfold getActiveTag hasActiveTag
    cases tags.find (userId, tagName) with
    | none => rfl
    | some tag =>
      dsimp only
      cases tag.expiresAt with
      | none => rfl
      | some expiry => by_cases hpast : expiry ≤ now.instant <;> simp [hpast, Int.not_le.mp]
  unfold firstHeldTier
  revert h
  induction tierVariantKeys (catalogue.memberships asso.id) with
  | nil => simp
  | cons key rest ih =>
    intro h
    have hsame := h key mem_cons_self
    rw [← hactive, ← hactive] at hsame
    have hrest := ih fun other hother => h other (mem_cons_of_mem key hother)
    simp only [findSome?_cons]
    cases hfirst : getActiveTag now first userId
      (deriveCotisationTag asso.slug mode now key).tagName <;>
      cases hsecond : getActiveTag now second userId
        (deriveCotisationTag asso.slug mode now key).tagName <;>
      simp_all

theorem mem_listHeldCotisationTiers (hfind : catalogue.associations.find asso.id = some asso)
    {mode : CotisationMode} (hmode : asso.cotisationMode = some mode)
    (hsome : catalogue.memberships asso.id ≠ []) {key : Option String}
    (hkey : key ∈ tierVariantKeys (catalogue.memberships asso.id)) (tags : Tags)
    (userId : String) : key ∈ listHeldCotisationTiers catalogue now tags userId asso.id ↔
      hasActiveTag now tags userId (deriveCotisationTag asso.slug mode now key).tagName := by
  have hproduct : ∃ product ∈ catalogue.memberships asso.id, product.variantKey = key := by
    simp only [tierVariantKeys, List.isEmpty_iff, hsome, if_false, mem_append, mem_filter,
      mem_eraseDups, mem_map] at hkey
    exact hkey.elim And.left And.left
  simp only [listHeldCotisationTiers, heldVariantKeys, listCotisationTiers, hfind, hmode, mem_map,
    mem_filter]
  constructor
  · rintro ⟨_, ⟨⟨product, -, rfl⟩, hactive⟩, rfl⟩
    exact hactive
  · obtain ⟨product, hmember, rfl⟩ := hproduct
    exact fun hactive => ⟨_, ⟨⟨product, hmember, rfl⟩, hactive⟩, rfl⟩

theorem sameMembers_iff (hasso : asso ∈ catalogue.associations) :
    SameMembers catalogue now asso first second ↔
      ∀ userId, ∀ tagName ∈ tierTagNames catalogue asso.id now,
        hasActiveTag now first userId tagName = hasActiveTag now second userId tagName := by
  have hfind : catalogue.associations.find asso.id = some asso :=
    Table.find_eq_some_iff.mpr ⟨hasso, rfl⟩
  constructor
  · intro h userId tagName hname
    obtain ⟨-, hbuyer, hheld, -⟩ := h userId
    simp only [tierTagNames, hfind] at hname
    cases hmode : asso.cotisationMode with
    | none => simp [hmode] at hname
    | some mode =>
      simp only [hmode] at hname
      obtain ⟨key, hkey, rfl⟩ := mem_map.mp hname
      by_cases hnone : catalogue.memberships asso.id = []
      · -- no product: the base tier is the only one
        simp only [isBuyerCotisant, hmode, hnone, tierVariantKeys] at hbuyer hkey
        simp_all
      · rw [Bool.eq_iff_iff, ← mem_listHeldCotisationTiers hfind hmode hnone hkey, hheld,
          mem_listHeldCotisationTiers hfind hmode hnone hkey]
  · intro h userId
    refine ⟨?_, ?_, heldVariantKeys_congr (h userId) (List.Subset.refl _), ?_⟩
    · unfold getCotisantStatusBySlug
      cases hslug : catalogue.associations.rows.find? fun row => decide (row.slug = asso.slug) with
      | none => rfl
      | some row =>
        have hsame : row = asso := by
          apply catalogue.slugs row (mem_of_find?_eq_some hslug) asso hasso
          simpa using find?_some hslug
        subst hsame
        cases hmode : row.cotisationMode with
        | none => simp only [hmode]
        | some mode =>
          have hheld := firstHeldTier_congr mode userId fun key hkey =>
            h userId _ (tagName_mem_tierTagNames hfind hmode hkey)
          simp only [hmode, Except.map]
          cases hfirst : firstHeldTier catalogue now first row mode userId <;>
            cases hsecond : firstHeldTier catalogue now second row mode userId <;>
            simp_all
    · unfold isBuyerCotisant
      cases hmode : asso.cotisationMode with
      | none => rfl
      | some mode =>
        rw [Bool.eq_iff_iff, any_eq_true, any_eq_true]
        refine exists_congr fun variantKey => and_congr_right fun hkey => ?_
        rw [h userId _ (tagName_mem_tierTagNames hfind hmode hkey)]
    · intro variantKey anyTier
      unfold holdsOneOfTiers
      dsimp only
      rw [heldVariantKeys_congr (h userId)]
      split
      · exact List.Subset.refl _
      · exact filter_sublist.subset

end

/-- **Memberships of other associations.**  A call for an association leaves the members of
    another one as they are, tier by tier, exactly if for every tag of a tier of that other
    association its person has the tag in force with the call if and only if without it. -/
theorem membership_unaffected (catalogue : Catalogue) (assocId : String) (other : Association)
    (hother : other ∈ catalogue.associations) (tags : Tags) (call : Call) (moment now : Now) :
    SameMembers catalogue now other (perform catalogue assocId tags moment call) tags ↔
      ∀ effect ∈ call.effect catalogue assocId moment,
        ∀ tagName ∈ tierTagNames catalogue other.id now,
          effect.has catalogue assocId moment now tagName
              (hasActiveTag now tags effect.userId tagName) =
            hasActiveTag now tags effect.userId tagName := by
  rw [sameMembers_iff hother]
  simp only [hasActiveTag_perform]
  cases call.effect catalogue assocId moment with
  | none => simp
  | some effect =>
    simp only [Option.mem_some_iff, forall_eq']
    constructor
    · intro h tagName hname
      simpa using h effect.userId tagName hname
    · intro h userId tagName hname
      split
      next huser => rw [huser, h tagName hname]
      · rfl

def midSummer : Now := ⟨1784000000000, 2026, 6⟩

/-- A tier of an association, as a product of its shop. -/
def tierProduct (assocId : String) (variantKey : Option String) : AssociationProduct where
  id := assocId ++ variantKey.getD ""
  associationId := assocId
  name := "Cotisation"
  type := .membership
  grantedTagName := none
  tagExpiresAt := none
  variantKey := variantKey
  webhookUrl := none
  webhookSecret := none

/-- Two associations: one with a base tier and the tier `gala`, and one with a base tier only. -/
def twoAssociations (slug otherSlug : String) (hslug : slug ≠ otherSlug) : Catalogue where
  associations := ⟨[⟨"A", slug, some .lifetime⟩, ⟨"B", otherSlug, some .lifetime⟩], by simp⟩
  products := [tierProduct "A" none, tierProduct "A" (some "gala"), tierProduct "B" none]
  slugs := by
    intro a ha b hb hsame
    simp only [Table.mem_def, mem_cons, not_mem_nil, or_false] at ha hb
    rcases ha with rfl | rfl <;> rcases hb with rfl | rfl
    · rfl
    · exact absurd hsame hslug
    · exact absurd hsame.symm hslug
    · rfl

theorem membership_unaffected_plain_slugs :
    let catalogue := twoAssociations "bde" "bds" (by decide)
    SameMembers catalogue midSummer ⟨"B", "bds", some .lifetime⟩
      (perform catalogue "A" .empty midSummer (.grantCotisant "ada" "admin" (some "gala")))
      .empty :=
  (membership_unaffected (twoAssociations "bde" "bds" (by decide)) "A"
    ⟨"B", "bds", some .lifetime⟩ (Table.mem_def.mpr (by decide)) .empty
    (.grantCotisant "ada" "admin" (some "gala")) midSummer midSummer).mpr (by decide)

/-- The tier `gala` of `bde` has the tag of `bde-gala`: granting it makes a member of the other
    association, and taking the base tier instead ends that membership.  A manager of `bde` may
    also grant the tag by its name. -/
theorem membership_of_other_association_changed :
    let catalogue := twoAssociations "bde" "bde-gala" (by decide)
    let status := fun tags => getCotisantStatusBySlug catalogue midSummer tags "bde-gala" "ada"
    let call := fun assocId tags call => perform catalogue assocId tags midSummer call
    let member := call "B" .empty (.grantCotisant "ada" "admin" none)
    status .empty = .ok ⟨false, none, none⟩ ∧
    status (call "A" .empty (.grantCotisant "ada" "admin" (some "gala"))) =
      .ok ⟨true, none, none⟩ ∧
    status (call "A" .empty (.grantTag "ada" "cotisant:bde-gala" "admin" none)) =
      .ok ⟨true, none, none⟩ ∧
    status member = .ok ⟨true, none, none⟩ ∧
    status (call "A" member (.grantCotisant "ada" "admin" none)) = .ok ⟨false, none, none⟩ := by
  decide

/-! ## 8. One tier at a time

A grant of a tier revokes the tags of the other tiers, if the catalogue has two at that moment.
The tag of a tier whose product is gone stays.  Here the products of an association change, its
slug and its mode do not. -/

inductive TierEvent
  | productsChange (products : List AssociationProduct)
  | retier (now : Now) (product : AssociationProduct) (variantKey : Option String)
  | grantCotisant (now : Now) (userId grantedBy : String) (variantKey : Option String)
  | purchase (now : Now) (product : AssociationProduct) (userId grantedBy : String)

/-- `granted` is whom the tiers have granted which tag, and `last` the grant just made. -/
structure Tiers where
  catalogue : Catalogue
  tags : Tags
  granted : List (String × String)
  last : Option (String × String)

def Tiers.grant (state : Tiers) (tags : Tags) (userId tagName : String) : Tiers :=
  { state with tags, granted := (userId, tagName) :: state.granted, last := (userId, tagName) }

/-- The tags that the association issued under the old name get the new one, unless the index
    refuses a name that a person holds already. -/
def retag (tags : Tags) (assocId oldTagName : String) (newTag : CotisationTag) : Option Tags :=
  let rows := tags.rows.filter fun tag =>
    tag.issuingAssocId = some assocId ∧ tag.tagName = oldTagName
  rows.foldlM (fun tags tag => (tags.remove tag.key).insert
    { tag with tagName := newTag.tagName, expiresAt := newTag.expiresAt }) tags

section Switching

variable (assocId : String)

section

variable (state : Tiers)

/-- `update` with another key for a tier: the key must be free.  A grant follows its row. -/
def retier (now : Now) (product : AssociationProduct) (variantKey : Option String) : Option Tiers :=
  let memberships := state.catalogue.memberships assocId
  if product ∈ memberships ∧ variantKey ≠ product.variantKey ∧
    ∀ other ∈ memberships, other.id = product.id ∨ other.variantKey ≠ variantKey
  then do
    let old ← state.catalogue.tierTag assocId now product.variantKey
    let new ← state.catalogue.tierTag assocId now variantKey
    let tags ← retag state.tags assocId old.tagName new
    let moved := { product with
      variantKey, grantedTagName := new.tagName, tagExpiresAt := new.expiresAt }
    let products := state.catalogue.products.map fun other =>
      if other.id = product.id then moved else other
    let granted := state.granted.map fun grant =>
      if grant.2 = old.tagName ∧ (tags.find grant).isNone then (grant.1, new.tagName) else grant
    pure ⟨{ state.catalogue with products }, tags, granted, none⟩
  else none

/-- A call that is refused is no step, and neither is a purchase that grants no tag. -/
def tierStep : TierEvent → Option Tiers
  | .productsChange products =>
    some { state with catalogue := { state.catalogue with products }, last := none }
  | .retier now product variantKey => retier assocId state now product variantKey
  | .grantCotisant now userId grantedBy variantKey =>
    match grantCotisant state.catalogue now state.tags assocId userId grantedBy variantKey,
      state.catalogue.tierTag assocId now variantKey with
    | .ok tags, some tag => some (state.grant tags userId tag.tagName)
    | _, _ => none
  | .purchase now product userId grantedBy =>
    if product ∈ state.catalogue.memberships assocId then
      (resolveGrantTag state.catalogue now product).map fun grant =>
        state.grant (purchaseTags state.catalogue now state.tags product grant userId grantedBy)
          userId grant.tagName
    else none

/-- The grant revokes every other tag that the tiers granted to the person, and not its own. -/
def Tiers.Switches (now : Now) (userId : String) (variantKey : Option String)
    (tagName : String) : Prop :=
  revokes state.catalogue assocId now variantKey tagName = false ∧
    ∀ earlier ∈ state.granted, earlier.1 = userId →
      earlier.2 = tagName ∨ revokes state.catalogue assocId now variantKey earlier.2 = true

def SwitchesEach : TierEvent → Prop
  | .productsChange _ | .retier _ _ _ => True
  | .grantCotisant now userId _ variantKey =>
    ∀ tag ∈ state.catalogue.tierTag assocId now variantKey,
      state.Switches assocId now userId variantKey tag.tagName
  | .purchase now product userId _ => ∀ grant ∈ resolveGrantTag state.catalogue now product,
    state.Switches assocId now userId product.variantKey grant.tagName

/-- If a grant was just made: of the tags that the tiers have granted to its person, they hold
    the one of this grant and no other. -/
def Exclusive : Prop :=
  ∀ userId tagName, state.last = some (userId, tagName) → (userId, tagName) ∈ state.granted ∧
    ∀ name, (userId, name) ∈ state.granted →
      (state.tags.find (userId, name) ≠ none ↔ name = tagName)

end

variable {assocId} {state next : Tiers}

theorem exclusive_of_switches {now : Now} {variantKey : Option String} (data : GrantTagData)
    (h : state.Switches assocId now data.userId variantKey data.tagName) :
    Exclusive (state.grant
      (revokeSiblingTierTags state.catalogue now (grantOrRenew state.tags data) assocId
        data.userId variantKey) data.userId data.tagName) := by
  rintro _ _ ⟨⟩
  refine ⟨.head _, fun name hname => ?_⟩
  rw [Tiers.grant, find_revokeSiblingTierTags]
  by_cases hsame : name = data.tagName
  · rw [hsame, if_neg (by simp [h.1])]
    obtain ⟨tag, hfind, -⟩ := find_grantOrRenew state.tags data
    exact iff_of_true (by simp [hfind]) rfl
  · have hgranted : (data.userId, name) ∈ state.granted := by
      simpa [Tiers.grant, hsame] using hname
    rw [if_pos ⟨rfl, (h.2 _ hgranted rfl).resolve_left hsame⟩]
    exact iff_of_false (fun h => h rfl) hsame

theorem exclusive_of_last (h : state.last = none) : Exclusive state := by
  intro _ _ hlast
  cases h.symm.trans hlast

theorem exclusive_step {event : TierEvent}
    (hok : SwitchesEach assocId state event) (hstep : tierStep assocId state event = some next) :
    Exclusive next := by
  cases event with
  | productsChange products =>
    cases hstep
    exact exclusive_of_last rfl
  | retier now product variantKey =>
    obtain ⟨_, hmoved⟩ := Option.ite_none_right_eq_some.mp hstep
    simp only [Option.bind_eq_bind, Option.bind_eq_some_iff] at hmoved
    obtain ⟨_, _, _, _, _, _, hnext⟩ := hmoved
    cases hnext
    exact exclusive_of_last rfl
  | grantCotisant now userId grantedBy variantKey =>
    simp only [tierStep] at hstep
    split at hstep
    next tags tag hgranted htag =>
      cases hstep
      obtain ⟨asso, hasso, hmodes⟩ := Option.bind_eq_some_iff.mp htag
      obtain ⟨mode, hmode, rfl⟩ := Option.map_eq_some_iff.mp hmodes
      simp only [grantCotisant, hasso, hmode] at hgranted
      split at hgranted
      · cases hgranted
      · cases hgranted
        exact exclusive_of_switches _ (hok _ htag)
    · cases hstep
  | purchase now product userId grantedBy =>
    obtain ⟨hmember, hgrant⟩ := Option.ite_none_right_eq_some.mp hstep
    obtain ⟨grant, hresolve, rfl⟩ := Option.map_eq_some_iff.mp hgrant
    obtain ⟨rfl, -⟩ : product.associationId = assocId ∧ product.type = .membership := by
      simpa using (mem_filter.mp hmember).2
    exact exclusive_of_switches
      ⟨userId, grant.tagName, some product.associationId, grantedBy, grant.expiresAt⟩
      (hok grant hresolve)

/-- **One tier at a time.**  Take any run in which every grant revokes, by the tiers of its
    moment, the other tags that the tiers have granted to the person, and not its own.  After
    each grant the person holds, of all these tags, the one just granted only. -/
theorem one_tier_held {start final : Tiers} {events : List TierEvent} (hnew : start.last = none)
    (hok : EachStep (tierStep assocId) (SwitchesEach assocId) start events)
    (hrun : run (tierStep assocId) start events = some final) : Exclusive final :=
  run_established exclusive_step (exclusive_of_last hnew) hok hrun

end Switching

instance SwitchesEach.decidable (assocId : String) (state : Tiers) (event : TierEvent) :
    Decidable (SwitchesEach assocId state event) :=
  have (now : Now) (userId : String) (variantKey : Option String) (tagName : String) :
      Decidable (state.Switches assocId now userId variantKey tagName) :=
    inferInstanceAs (Decidable (_ ∧ _))
  match event with
  | .productsChange _ | .retier _ _ _ => inferInstanceAs (Decidable True)
  | .grantCotisant _ _ _ _ | .purchase _ _ _ _ => inferInstanceAs (Decidable (∀ _ ∈ _, _))

def twoTiers : Tiers := ⟨twoAssociations "bde" "bds" (by decide), .empty, [], none⟩

/-- The base tier after the tier `gala`, with these products in the shop by then. -/
def changeTier (products : List AssociationProduct) : List TierEvent :=
  [.grantCotisant midSummer "ada" "admin" (some "gala"), .productsChange products,
    .grantCotisant midSummer "ada" "admin" none]

theorem one_tier_held_base :
    ∃ final, run (tierStep "A") twoTiers (changeTier twoTiers.catalogue.products) = some final ∧
      Exclusive final := by
  have hruns : (run (tierStep "A") twoTiers (changeTier twoTiers.catalogue.products)).isSome := by
    decide
  obtain ⟨final, hrun⟩ := Option.isSome_iff_exists.mp hruns
  exact ⟨final, hrun, one_tier_held rfl (by decide) hrun⟩

/-- The tier `gala` goes out of the shop between the two grants, and its tag stays. -/
theorem two_tiers_held :
    ∃ final ∈ run (tierStep "A") twoTiers (changeTier [tierProduct "A" none]),
      final.granted = [("ada", "cotisant:bde"), ("ada", "cotisant:bde-gala")] ∧
      final.tags.find ("ada", "cotisant:bde") ≠ none ∧
      final.tags.find ("ada", "cotisant:bde-gala") ≠ none := by
  decide

end MinesApp.Cotisation
