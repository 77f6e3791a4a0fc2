import OptScale.Rest.Text

/-!
# Violations/Tagging — `_filter_resources_by_tags`

A tagging policy has a condition on a tag a resource has, one on a tag it lacks, and the same of lists in
its filters.  The nil UUID stands for no tag at all among the tags, and for any tag among the tags that are
lacked: a resource is without "no tag at all" if it has some.

The filters by themselves work, one after the other (`passes_iff_meets`).  But the nil UUID is
removed from the list of the constraint; it is compared with the tags where tags are lacked; and
`in` is asked of the tags of a resource even if they are null.  What is left is exactly `Handled`
(`filterResourcesByTags_right_iff`).
-/

namespace OrganizationViolationsWorker

/-! ## Comprehensions -/

section Comprehension

variable {α : Type}

/-- `[x for x in l if p(x)]`, where `p` may raise. -/
def comprehension (p : α → Option Bool) : List α → Option (List α)
  | [] => some []
  | x :: l => do
    let b ← p x
    let rest ← comprehension p l
    pure (if b then x :: rest else rest)

theorem comprehension_eq_filter {p : α → Option Bool} {q : α → Bool} {l : List α}
    (h : ∀ x ∈ l, p x = some (q x)) : comprehension p l = some (l.filter q) := by
  induction l with
  | nil => rfl
  | cons x l ih =>
    obtain ⟨hx, hl⟩ := List.forall_mem_cons.mp h
    rw [comprehension, hx, ih hl, List.filter_cons]
    rfl

theorem comprehension_eq_none {p : α → Option Bool} {l : List α} {x : α} (hx : x ∈ l) (h : p x = none) :
    comprehension p l = none := by
  induction l with
  | nil => exact absurd hx List.not_mem_nil
  | cons y l ih =>
    rw [comprehension]
    rcases List.mem_cons.mp hx with rfl | hl
    · rw [h]
      rfl
    · rw [ih hl]
      cases p y <;> rfl

/-- Two filters that keep the same of a list agree on it. -/
theorem filter_eq_filter_iff {p q : α → Bool} {l : List α} :
    l.filter p = l.filter q ↔ ∀ x ∈ l, p x = q x := by
  constructor
  · intro h x hx
    have hp : x ∈ l.filter p ↔ x ∈ l.filter q := by rw [h]
    rw [List.mem_filter, List.mem_filter, and_iff_right hx, and_iff_right hx] at hp
    exact Bool.eq_iff_iff.mpr hp
  · exact List.filter_congr

end Comprehension

/-! ## The constraint and the resources -/

/-- The `tags` of a resource, by their names. -/
inductive Tags
  | absent
  | null
  | names (names : List Text)
  deriving DecidableEq, Repr

/-- A resource of `clean_expenses`. -/
structure TaggedResource where
  id : Uuid
  tags : Tags
  deriving DecidableEq, Repr

/-- The `conditions` of the definition. -/
structure Conditions where
  tag : Option Text
  withoutTag : Option Text
  deriving DecidableEq, Repr

/-- The tags in the `filters`. -/
structure TagFilters where
  tag : Option (List Text)
  withoutTag : Option (List Text)
  deriving DecidableEq, Repr

/-- A constraint, as far as tags go. -/
structure TaggingConstraint where
  conditions : Conditions
  filters : TagFilters
  deriving DecidableEq, Repr

/-- `constraint['filters'].get('tag', [])` -/
def TaggingConstraint.tagOr (c : TaggingConstraint) : List Text := c.filters.tag.getD []

/-- `constraint['filters'].get('without_tag', [])` -/
def TaggingConstraint.withoutTagOr (c : TaggingConstraint) : List Text := c.filters.withoutTag.getD []

/-- `get_nil_uuid` -/
def nilUuid : Text := "00000000-0000-0000-0000-000000000000".toList

/-- A condition counts unless it is missing or empty. -/
def given (condition : Option Text) : Bool := condition.any (· ≠ [])

namespace TaggedResource

variable (x : TaggedResource)

/-- The names of the tags. -/
def tagNames : List Text :=
  match x.tags with
  | .names names => names
  | _ => []

/-- `not x.get('tags')` -/
def untagged : Bool := x.tagNames = []

/-- `t in x.get('tags', {})`, which raises if the tags are null. -/
def contains (t : Text) : Option Bool :=
  match x.tags with
  | .null => none
  | _ => some (t ∈ x.tagNames)

/-- `any(t in x.get('tags', {}) for t in ts)` -/
def containsAny (ts : List Text) : Option Bool := ts.anyM fun t => x.contains t

/-- `all(t in x.get('tags', {}) for t in ts)` -/
def containsAll (ts : List Text) : Option Bool := ts.allM fun t => x.contains t

end TaggedResource

/-! ## The filters -/

/-- The condition `tag`. -/
def byTag (tagAnd : Option Text) (resources : List TaggedResource) : Option (List TaggedResource) :=
  if tagAnd = some nilUuid then some (resources.filter TaggedResource.untagged)
  else if given tagAnd then comprehension (fun x => x.contains (tagAnd.getD [])) resources
  else some resources

/-- The condition `without_tag`. -/
def byMissingTag (withoutTagAnd : Option Text) (resources : List TaggedResource) : Option (List TaggedResource) :=
  if given withoutTagAnd then comprehension (fun x => (x.contains (withoutTagAnd.getD [])).map not) resources
  else some resources

/-- The conditions of the definition. -/
def byConditions (c : Conditions) (resources : List TaggedResource) : Option (List TaggedResource) :=
  (byTag c.tag resources).bind (byMissingTag c.withoutTag)

/-- The filter `tag`, and the list as it is afterwards. -/
def byTags (tagOr : List Text) (resources : List TaggedResource) : Option (List TaggedResource) × List Text :=
  if nilUuid ∈ tagOr then
    let tagOr := tagOr.erase nilUuid
    (comprehension (fun x => (x.containsAny tagOr).map fun b => b || x.untagged) resources, tagOr)
  else if tagOr ≠ [] then (comprehension (fun x => x.containsAny tagOr) resources, tagOr)
  else (some resources, tagOr)

/-- The filter `without_tag`. -/
def byMissingTags (withoutTagOr : List Text) (resources : List TaggedResource) : Option (List TaggedResource) :=
  if withoutTagOr ≠ [] then comprehension (fun x => (x.containsAll withoutTagOr).map not) resources
  else some resources

/-- `_filter_resources_by_tags`: the resources, unless it raises, and the filters afterwards. -/
def filterResourcesByTags (c : TaggingConstraint) (resources : List TaggedResource) :
    Option (List TaggedResource) × TagFilters :=
  match byConditions c.conditions resources with
  | none => (none, c.filters)
  | some resources =>
    let found := byTags c.tagOr resources
    (found.1.bind (byMissingTags c.withoutTagOr), { c.filters with tag := c.filters.tag.map fun _ => found.2 })

/-! ## What they are for -/

namespace TaggedResource

variable (x : TaggedResource)

/-- The resource has the tag; the nil UUID is no tag at all. -/
def Has (t : Text) : Prop := if t = nilUuid then x.tagNames = [] else t ∈ x.tagNames

/-- The resource is without the tag; the nil UUID is any tag. -/
def Lacks (t : Text) : Prop := if t = nilUuid then x.tagNames ≠ [] else t ∉ x.tagNames

instance : DecidablePred x.Has := fun t =>
  inferInstanceAs (Decidable (if t = nilUuid then x.tagNames = [] else t ∈ x.tagNames))

instance : DecidablePred x.Lacks := fun t =>
  inferInstanceAs (Decidable (if t = nilUuid then x.tagNames ≠ [] else t ∉ x.tagNames))

end TaggedResource

namespace TaggingConstraint

variable (c : TaggingConstraint)

/-- **The resource meets all four conditions.** -/
def Meets (x : TaggedResource) : Prop :=
  (given c.conditions.tag → x.Has (c.conditions.tag.getD [])) ∧
    (given c.conditions.withoutTag → x.Lacks (c.conditions.withoutTag.getD [])) ∧
    (c.tagOr = [] ∨ ∃ t ∈ c.tagOr, x.Has t) ∧ (c.withoutTagOr = [] ∨ ∃ t ∈ c.withoutTagOr, x.Lacks t)

instance : DecidablePred c.Meets := fun x => inferInstanceAs (Decidable (
  (given c.conditions.tag → x.Has (c.conditions.tag.getD [])) ∧
    (given c.conditions.withoutTag → x.Lacks (c.conditions.withoutTag.getD [])) ∧
    (c.tagOr = [] ∨ ∃ t ∈ c.tagOr, x.Has t) ∧ (c.withoutTagOr = [] ∨ ∃ t ∈ c.withoutTagOr, x.Lacks t)))

/-- **The resources that meet the conditions**, in order, and the filters as they were. -/
def RightlyFiltered (resources : List TaggedResource) : Prop :=
  filterResourcesByTags c resources = (some (resources.filter fun x => c.Meets x), c.filters)

/-- Some condition looks into the tags. -/
def LooksIntoTags : Prop :=
  given c.conditions.tag ∧ c.conditions.tag ≠ some nilUuid ∨ given c.conditions.withoutTag ∨ c.tagOr ≠ [] ∨
    c.withoutTagOr ≠ []

/-- A condition on lacked tags asks for any tag. -/
def AsksForAnyTag : Prop :=
  c.conditions.withoutTag = some nilUuid ∨ c.withoutTagOr ≠ [] ∧ ∀ t ∈ c.withoutTagOr, t = nilUuid

/-- No condition on tags keeps resources without tags out. -/
def AdmitsUntagged : Prop := (given c.conditions.tag → c.conditions.tag = some nilUuid) ∧ c.tagOr = []

/-- **What is handled.** -/
structure Handled (resources : List TaggedResource) : Prop where
  /-- The nil UUID is not in the filter `tag`. -/
  kept : nilUuid ∉ c.tagOr
  /-- No tags are null if they are looked into. -/
  read : c.LooksIntoTags → ∀ x ∈ resources, x.tags ≠ .null
  /-- If any tag is asked for, resources without tags are not there, or kept out otherwise. -/
  anyTag : c.AsksForAnyTag → c.AdmitsUntagged → ∀ x ∈ resources, x.tagNames ≠ []
  /-- No resource that meets the conditions has a tag of the nil UUID's name if that is lacked in vain. -/
  named : ∀ x ∈ resources, nilUuid ∈ x.tagNames → c.Meets x → c.conditions.withoutTag ≠ some nilUuid ∧
    (nilUuid ∈ c.withoutTagOr → ∃ t ∈ c.withoutTagOr, t ∉ x.tagNames)

end TaggingConstraint

/-! ## What the filters let through -/

section Passes

variable {c : TaggingConstraint} {x : TaggedResource} {resources : List TaggedResource}

theorem contains_of_ne_null (h : x.tags ≠ .null) (t : Text) : x.contains t = some (decide (t ∈ x.tagNames)) := by
  unfold TaggedResource.contains
  split
  · rename_i hnull
    exact absurd hnull h
  · rfl

theorem contains_of_null (h : x.tags = .null) (t : Text) : x.contains t = none := by
  unfold TaggedResource.contains
  rw [h]

theorem containsAny_of_ne_null (h : x.tags ≠ .null) (ts : List Text) :
    x.containsAny ts = some (decide (∃ t ∈ ts, t ∈ x.tagNames)) := by
  unfold TaggedResource.containsAny
  rw [funext (contains_of_ne_null h)]
  refine (List.anyM_pure (m := Option)).trans (congrArg some ?_)
  rw [Bool.eq_iff_iff, List.any_eq_true, decide_eq_true_iff]
  simp only [decide_eq_true_eq]

theorem containsAll_of_ne_null (h : x.tags ≠ .null) (ts : List Text) :
    x.containsAll ts = some (decide (∀ t ∈ ts, t ∈ x.tagNames)) := by
  unfold TaggedResource.containsAll
  rw [funext (contains_of_ne_null h)]
  refine (List.allM_pure (m := Option)).trans (congrArg some ?_)
  rw [Bool.eq_iff_iff, List.all_eq_true, decide_eq_true_iff]
  simp only [decide_eq_true_eq]

theorem containsAny_of_null (h : x.tags = .null) {ts : List Text} (hts : ts ≠ []) : x.containsAny ts = none := by
  obtain ⟨t, ts, rfl⟩ := List.exists_cons_of_ne_nil hts
  rw [TaggedResource.containsAny, List.anyM, contains_of_null h]
  rfl

theorem containsAll_of_null (h : x.tags = .null) {ts : List Text} (hts : ts ≠ []) : x.containsAll ts = none := by
  obtain ⟨t, ts, rfl⟩ := List.exists_cons_of_ne_nil hts
  rw [TaggedResource.containsAll, List.allM, contains_of_null h]
  rfl

variable (c x) in
/-- What the filters let through, if they do not raise and the nil UUID is not in the filter `tag`. -/
abbrev Passes : Prop :=
  (given c.conditions.tag → x.Has (c.conditions.tag.getD [])) ∧
    (given c.conditions.withoutTag → c.conditions.withoutTag.getD [] ∉ x.tagNames) ∧
    (c.tagOr = [] ∨ ∃ t ∈ c.tagOr, t ∈ x.tagNames) ∧ (c.withoutTagOr = [] ∨ ¬ ∀ t ∈ c.withoutTagOr, t ∈ x.tagNames)

theorem given_nilUuid : given (some nilUuid) = true := rfl

theorem tagNames_of_null (h : x.tags = .null) : x.tagNames = [] := by
  unfold TaggedResource.tagNames
  rw [h]

theorem byTag_eq {tagAnd : Option Text}
    (hread : given tagAnd → tagAnd ≠ some nilUuid → ∀ x ∈ resources, x.tags ≠ .null) :
    byTag tagAnd resources = some (resources.filter fun x => given tagAnd → x.Has (tagAnd.getD [])) := by
  unfold byTag
  split
  · rename_i hnil
    refine congrArg some (List.filter_congr fun x _ => ?_)
    rw [hnil, TaggedResource.untagged]
    simp [TaggedResource.Has, given_nilUuid]
  · rename_i hnil
    split
    · rename_i hgiven
      refine comprehension_eq_filter fun x hx => ?_
      rw [contains_of_ne_null (hread hgiven hnil x hx)]
      obtain ⟨t, rfl⟩ : ∃ t, tagAnd = some t := by
        cases tagAnd with
        | none => exact absurd hgiven Bool.false_ne_true
        | some t => exact ⟨t, rfl⟩
      have hother : t ≠ nilUuid := fun h => hnil (congrArg some h)
      simp [hgiven, TaggedResource.Has, hother]
    · rename_i hgiven
      simp [hgiven]

theorem byMissingTag_eq {withoutTagAnd : Option Text}
    (hread : given withoutTagAnd → ∀ x ∈ resources, x.tags ≠ .null) :
    byMissingTag withoutTagAnd resources =
      some (resources.filter fun x => given withoutTagAnd → withoutTagAnd.getD [] ∉ x.tagNames) := by
  unfold byMissingTag
  split
  · rename_i hgiven
    refine comprehension_eq_filter fun x hx => ?_
    rw [contains_of_ne_null (hread hgiven x hx)]
    simp [hgiven]
  · rename_i hgiven
    simp [hgiven]

theorem byTags_eq {tagOr : List Text} (hkept : nilUuid ∉ tagOr)
    (hread : tagOr ≠ [] → ∀ x ∈ resources, x.tags ≠ .null) :
    byTags tagOr resources =
      (some (resources.filter fun x => tagOr = [] ∨ ∃ t ∈ tagOr, t ∈ x.tagNames), tagOr) := by
  unfold byTags
  rw [if_neg hkept]
  split
  · rename_i hne
    refine Prod.ext (comprehension_eq_filter fun x hx => ?_) rfl
    rw [containsAny_of_ne_null (hread hne x hx)]
    simp [hne]
  · rename_i hnil
    simp [not_not.mp hnil]

theorem byMissingTags_eq {withoutTagOr : List Text}
    (hread : withoutTagOr ≠ [] → ∀ x ∈ resources, x.tags ≠ .null) :
    byMissingTags withoutTagOr resources =
      some (resources.filter fun x => withoutTagOr = [] ∨ ¬ ∀ t ∈ withoutTagOr, t ∈ x.tagNames) := by
  unfold byMissingTags
  split
  · rename_i hne
    refine comprehension_eq_filter fun x hx => ?_
    rw [containsAll_of_ne_null (hread hne x hx), Option.map_some, ← decide_not]
    simp only [hne, false_or]
  · rename_i hnil
    simp [not_not.mp hnil]

/-- **The filters, one after the other**, if they do not raise. -/
theorem filterResourcesByTags_eq (hkept : nilUuid ∉ c.tagOr)
    (hread : c.LooksIntoTags → ∀ x ∈ resources, x.tags ≠ .null) :
    filterResourcesByTags c resources = (some (resources.filter fun x => Passes c x), c.filters) := by
  have hmissing : ∀ found ⊆ resources, byMissingTag c.conditions.withoutTag found = _ := fun found hfound =>
    byMissingTag_eq fun hgiven x hx => hread (Or.inr (Or.inl hgiven)) x (hfound hx)
  have htags : ∀ found ⊆ resources, byTags c.tagOr found = _ := fun found hfound =>
    byTags_eq hkept fun hne x hx => hread (Or.inr (Or.inr (Or.inl hne))) x (hfound hx)
  have hmissingTags : ∀ found ⊆ resources, byMissingTags c.withoutTagOr found = _ := fun found hfound =>
    byMissingTags_eq fun hne x hx => hread (Or.inr (Or.inr (Or.inr hne))) x (hfound hx)
  have hfilter : ∀ {found : List TaggedResource} (p : TaggedResource → Bool), found ⊆ resources →
      found.filter p ⊆ resources := fun p h x hx => h (List.mem_filter.mp hx).1
  unfold filterResourcesByTags byConditions
  rw [byTag_eq fun hgiven hother => hread (Or.inl ⟨hgiven, hother⟩), Option.bind_some,
    hmissing _ (hfilter _ (List.Subset.refl _))]
  simp only
  rw [htags _ (hfilter _ (hfilter _ (List.Subset.refl _)))]
  simp only [Option.bind_some]
  rw [hmissingTags _ (hfilter _ (hfilter _ (hfilter _ (List.Subset.refl _))))]
  refine Prod.ext (congrArg some ?_) ?_
  · simp only [List.filter_filter]
    refine List.filter_congr fun x _ => ?_
    rw [Bool.eq_iff_iff]
    simp only [Bool.and_eq_true, decide_eq_true_eq, Passes]
    exact ⟨fun ⟨h₄, h₃, h₂, h₁⟩ => ⟨h₁, h₂, h₃, h₄⟩, fun ⟨h₁, h₂, h₃, h₄⟩ => ⟨h₄, h₃, h₂, h₁⟩⟩
  · have hsame : c.filters.tag.map (fun _ => c.tagOr) = c.filters.tag := by
      unfold TaggingConstraint.tagOr
      cases c.filters.tag <;> rfl
    simp only [hsame]

/-- **The filters raise** if they look into tags that are null. -/
theorem filterResourcesByTags_raises (hkept : nilUuid ∉ c.tagOr) (hlooks : c.LooksIntoTags)
    (hx : x ∈ resources) (hnull : x.tags = .null) : (filterResourcesByTags c resources).1 = none := by
  unfold filterResourcesByTags byConditions
  by_cases hordinary : given c.conditions.tag ∧ c.conditions.tag ≠ some nilUuid
  · rw [byTag, if_neg hordinary.2, if_pos hordinary.1, comprehension_eq_none hx (contains_of_null hnull _)]
    rfl
  · -- the resource passes the first condition
    obtain ⟨found, hfound, hin⟩ : ∃ found, byTag c.conditions.tag resources = some found ∧ x ∈ found := by
      unfold byTag
      by_cases hnil : c.conditions.tag = some nilUuid
      · refine ⟨_, if_pos hnil, List.mem_filter.mpr ⟨hx, ?_⟩⟩
        rw [TaggedResource.untagged, tagNames_of_null hnull]
        rfl
      · exact ⟨_, by rw [if_neg hnil, if_neg fun h => hordinary ⟨h, hnil⟩], hx⟩
    rw [hfound, Option.bind_some, byMissingTag]
    by_cases hwithout : given c.conditions.withoutTag
    · rw [if_pos hwithout, comprehension_eq_none hin (by rw [contains_of_null hnull]; rfl)]
    · rw [if_neg hwithout]
      unfold byTags byMissingTags
      simp only
      rw [if_neg hkept]
      by_cases htag : c.tagOr = []
      · rw [if_neg (not_not.mpr htag)]
        have hmissing : c.withoutTagOr ≠ [] := ((hlooks.resolve_left hordinary).resolve_left hwithout).resolve_left
          (not_not.mpr htag)
        simp only [Option.bind_some]
        rw [if_pos hmissing]
        exact comprehension_eq_none hin (by rw [containsAll_of_null hnull hmissing]; rfl)
      · rw [if_pos htag, comprehension_eq_none hin (containsAny_of_null hnull htag)]
        rfl

/-- **The nil UUID is taken out of the filter** whenever the filters do not raise before. -/
theorem filters_ne_of_nilUuid (h : nilUuid ∈ c.tagOr) {found : List TaggedResource}
    (hfound : (filterResourcesByTags c resources).1 = some found) : (filterResourcesByTags c resources).2 ≠ c.filters := by
  unfold filterResourcesByTags at hfound ⊢
  cases hconditions : byConditions c.conditions resources with
  | none =>
    rw [hconditions] at hfound
    exact nomatch hfound
  | some resources =>
    simp only
    unfold byTags
    rw [if_pos h]
    intro heq
    have hsome : c.filters.tag = some c.tagOr := by
      unfold TaggingConstraint.tagOr at h ⊢
      cases htag : c.filters.tag with
      | none =>
        rw [htag] at h
        exact absurd h List.not_mem_nil
      | some tagOr => rfl
    have hlist : c.filters.tag.map (fun _ => c.tagOr.erase nilUuid) = c.filters.tag := congrArg TagFilters.tag heq
    rw [hsome] at hlist
    have hlength := congrArg List.length (Option.some.inj hlist)
    rw [List.length_erase_of_mem h] at hlength
    have hpos := List.length_pos_of_mem h
    omega

end Passes

/-! ## When they are right -/

section Right

variable {c : TaggingConstraint} {x : TaggedResource} {resources : List TaggedResource}

theorem lacks_of_untagged (h : x.tagNames = []) (t : Text) : x.Lacks t ↔ t ≠ nilUuid := by
  unfold TaggedResource.Lacks
  rw [h]
  split <;> simp_all

theorem lacks_of_tagged (h : x.tagNames ≠ []) (t : Text) : x.Lacks t ↔ t ∉ x.tagNames ∨ t = nilUuid := by
  unfold TaggedResource.Lacks
  split
  · rename_i ht
    exact ⟨fun _ => Or.inr ht, fun _ => h⟩
  · rename_i ht
    exact (or_iff_left ht).symm

/-- Without the nil UUID, the filter `tag` asks for a tag by its name. -/
theorem has_tagOr_iff (hkept : nilUuid ∉ c.tagOr) :
    (∃ t ∈ c.tagOr, x.Has t) ↔ ∃ t ∈ c.tagOr, t ∈ x.tagNames := by
  have hone : ∀ t ∈ c.tagOr, (x.Has t ↔ t ∈ x.tagNames) := fun t ht => by
    have hother : t ≠ nilUuid := fun h => hkept (h ▸ ht)
    unfold TaggedResource.Has
    rw [if_neg hother]
  constructor
  · rintro ⟨t, ht, hhas⟩
    exact ⟨t, ht, (hone t ht).mp hhas⟩
  · rintro ⟨t, ht, hin⟩
    exact ⟨t, ht, (hone t ht).mpr hin⟩

/-- The conditions on tags that a resource without tags meets. -/
theorem admitsUntagged_iff (h : x.tagNames = []) :
    (given c.conditions.tag → x.Has (c.conditions.tag.getD [])) ∧ (c.tagOr = [] ∨ ∃ t ∈ c.tagOr, t ∈ x.tagNames) ↔
      c.AdmitsUntagged := by
  have hhas : ∀ t, x.Has t ↔ t = nilUuid := fun t => by
    unfold TaggedResource.Has
    rw [h]
    split <;> simp_all
  refine and_congr ?_ ?_
  · rw [hhas]
    cases c.conditions.tag with
    | none => simp [given]
    | some t => simp
  · simp [h]

/-- A resource without tags lacks every tag but any tag. -/
theorem lacksNone_iff (h : x.tagNames = []) :
    (given c.conditions.withoutTag → x.Lacks (c.conditions.withoutTag.getD [])) ∧
      (c.withoutTagOr = [] ∨ ∃ t ∈ c.withoutTagOr, x.Lacks t) ↔ ¬ c.AsksForAnyTag := by
  unfold TaggingConstraint.AsksForAnyTag
  rw [not_or]
  refine and_congr ?_ ?_
  · rw [lacks_of_untagged h]
    cases c.conditions.withoutTag with
    | none => simp [given]
    | some t =>
      rw [Option.getD_some, Option.some.injEq]
      exact ⟨fun hne heq => hne (heq ▸ given_nilUuid) heq, fun hne _ => hne⟩
  · rw [not_and_or, not_not, not_forall]
    simp only [lacks_of_untagged h, Classical.not_imp]

/-- **A resource without tags** passes where no condition on tags keeps it out. -/
theorem passes_iff_of_untagged (h : x.tagNames = []) : Passes c x ↔ c.AdmitsUntagged := by
  rw [← admitsUntagged_iff h]
  constructor
  · rintro ⟨htag, -, htags, -⟩
    exact ⟨htag, htags⟩
  · rintro ⟨htag, htags⟩
    refine ⟨htag, fun _ => h ▸ List.not_mem_nil, htags, ?_⟩
    by_cases hnil : c.withoutTagOr = []
    · exact Or.inl hnil
    · obtain ⟨t, ht⟩ := List.exists_mem_of_ne_nil _ hnil
      exact Or.inr fun hall => List.not_mem_nil (h ▸ hall t ht)

/-- It meets the conditions if, moreover, nothing asks for any tag. -/
theorem meets_iff_of_untagged (hkept : nilUuid ∉ c.tagOr) (h : x.tagNames = []) :
    c.Meets x ↔ c.AdmitsUntagged ∧ ¬ c.AsksForAnyTag := by
  rw [← admitsUntagged_iff h, ← lacksNone_iff h, ← has_tagOr_iff hkept]
  constructor
  · rintro ⟨htag, hwithout, htags, hmissing⟩
    exact ⟨⟨htag, htags⟩, hwithout, hmissing⟩
  · rintro ⟨⟨htag, htags⟩, hwithout, hmissing⟩
    exact ⟨htag, hwithout, htags, hmissing⟩

/-- **A resource with tags** that passes meets the conditions. -/
theorem meets_of_passes (hkept : nilUuid ∉ c.tagOr) (h : x.tagNames ≠ []) (hpasses : Passes c x) : c.Meets x := by
  obtain ⟨htag, hwithout, htags, hmissing⟩ := hpasses
  refine ⟨htag, fun hgiven => (lacks_of_tagged h _).mpr (Or.inl (hwithout hgiven)),
    htags.imp_right (has_tagOr_iff hkept).mpr, hmissing.imp_right fun hnot => ?_⟩
  rw [not_forall] at hnot
  obtain ⟨t, ht⟩ := hnot
  rw [Classical.not_imp] at ht
  exact ⟨t, ht.1, (lacks_of_tagged h t).mpr (Or.inl ht.2)⟩

variable (c x) in
/-- A tag of the nil UUID's name does not hide what the resource meets. -/
def NotHidden : Prop :=
  c.conditions.withoutTag ≠ some nilUuid ∧ (nilUuid ∈ c.withoutTagOr → ∃ t ∈ c.withoutTagOr, t ∉ x.tagNames)

/-- A resource that meets the conditions passes, if it does not have a tag of the nil UUID's name or that does not
hide what it meets. -/
theorem passes_of_meets (hkept : nilUuid ∉ c.tagOr) (h : x.tagNames ≠ []) (hmeets : c.Meets x)
    (hhidden : nilUuid ∈ x.tagNames → NotHidden c x) : Passes c x := by
  obtain ⟨htag, hwithout, htags, hmissing⟩ := hmeets
  refine ⟨htag, fun hgiven hin => ?_, htags.imp_right (has_tagOr_iff hkept).mp, ?_⟩
  · rcases (lacks_of_tagged h _).mp (hwithout hgiven) with hout | hnil
    · exact hout hin
    · rw [hnil] at hin
      obtain ⟨hne, -⟩ := hhidden hin
      cases hw : c.conditions.withoutTag with
      | none =>
        rw [hw] at hgiven
        exact Bool.false_ne_true hgiven
      | some t =>
        rw [hw, Option.getD_some] at hnil
        exact hne (hw.trans (congrArg some hnil))
  · rcases hmissing with hnil | ⟨t, ht, hlacks⟩
    · exact Or.inl hnil
    · refine Or.inr fun hall => ?_
      rcases (lacks_of_tagged h t).mp hlacks with hout | rfl
      · exact hout (hall t ht)
      · obtain ⟨s, hs, hout⟩ := (hhidden (hall _ ht)).2 ht
        exact hout (hall s hs)

/-- If the nil UUID's name is among the tags, what passes is not hidden. -/
theorem notHidden_of_passes (hin : nilUuid ∈ x.tagNames) (hpasses : Passes c x) : NotHidden c x := by
  obtain ⟨-, hwithout, -, hmissing⟩ := hpasses
  constructor
  · intro hnil
    rw [hnil] at hwithout
    exact hwithout given_nilUuid hin
  · intro hnil
    have hnot := hmissing.resolve_left (List.ne_nil_of_mem hnil)
    rw [not_forall] at hnot
    obtain ⟨t, ht⟩ := hnot
    rw [Classical.not_imp] at ht
    exact ⟨t, ht⟩

/-- **One resource**: what the filters let through is what meets the conditions, unless the resource has no
tags and any tag is asked for, or it has a tag of the nil UUID's name that hides what it meets. -/
theorem passes_iff_meets (hkept : nilUuid ∉ c.tagOr) :
    (Passes c x ↔ c.Meets x) ↔ (c.AsksForAnyTag → c.AdmitsUntagged → x.tagNames ≠ []) ∧
      (nilUuid ∈ x.tagNames → c.Meets x → NotHidden c x) := by
  by_cases h : x.tagNames = []
  · rw [passes_iff_of_untagged h, meets_iff_of_untagged hkept h, h]
    constructor
    · intro hiff
      exact ⟨fun hasks hadmits => absurd hasks (hiff.mp hadmits).2, fun hin => absurd hin List.not_mem_nil⟩
    · rintro ⟨hasks, -⟩
      exact ⟨fun hadmits => ⟨hadmits, fun hany => hasks hany hadmits rfl⟩, And.left⟩
  · constructor
    · intro hiff
      exact ⟨fun _ _ => h, fun hin hmeets => notHidden_of_passes hin (hiff.mpr hmeets)⟩
    · rintro ⟨-, hnot⟩
      exact ⟨meets_of_passes hkept h, fun hmeets => passes_of_meets hkept h hmeets fun hin => hnot hin hmeets⟩

theorem handled_of_right (h : c.RightlyFiltered resources) : c.Handled resources := by
  have hfound : (filterResourcesByTags c resources).1 = some (resources.filter fun x => c.Meets x) :=
    congrArg Prod.fst h
  have hkept : nilUuid ∉ c.tagOr := fun hin => filters_ne_of_nilUuid hin hfound (congrArg Prod.snd h)
  have hread : c.LooksIntoTags → ∀ x ∈ resources, x.tags ≠ .null := fun hlooks x hx hnull => by
    rw [filterResourcesByTags_raises hkept hlooks hx hnull] at hfound
    exact nomatch hfound
  rw [filterResourcesByTags_eq hkept hread] at hfound
  have hall : ∀ x ∈ resources, (Passes c x ↔ c.Meets x) := fun x hx =>
    decide_eq_decide.mp (filter_eq_filter_iff.mp (Option.some.inj hfound) x hx)
  exact ⟨hkept, hread, fun hasks hadmits x hx => ((passes_iff_meets hkept).mp (hall x hx)).1 hasks hadmits,
    fun x hx => ((passes_iff_meets hkept).mp (hall x hx)).2⟩

theorem right_of_handled (h : c.Handled resources) : c.RightlyFiltered resources := by
  unfold TaggingConstraint.RightlyFiltered
  rw [filterResourcesByTags_eq h.kept h.read]
  refine Prod.ext (congrArg some (List.filter_congr fun x hx => decide_eq_decide.mpr ?_)) rfl
  exact (passes_iff_meets h.kept).mpr ⟨fun hasks hadmits => h.anyTag hasks hadmits x hx, h.named x hx⟩

/-- **The resources are those that meet the conditions, and the filters are left alone**, exactly if the nil UUID
is not in the filter `tag`, no null tags are looked into, and no resource is there that the nil UUID is lost on
among the tags that are lacked. -/
theorem filterResourcesByTags_right_iff (c : TaggingConstraint) (resources : List TaggedResource) :
    c.RightlyFiltered resources ↔ c.Handled resources :=
  ⟨handled_of_right, right_of_handled⟩

end Right

/-! ## No tag at all -/

/-- Resources without the tag `b`, of those without tags. -/
def untaggedWithoutB : TaggingConstraint := ⟨⟨none, some ['b']⟩, ⟨some [nilUuid], none⟩⟩

/-- A resource without tags, and one that has a tag. -/
def someResources : List TaggedResource := [⟨1, .names []⟩, ⟨2, .names [['a']]⟩]

/-- **The second call finds more**: the nil UUID was taken out of the filter by the first. -/
theorem untagged_then_all :
    ¬ untaggedWithoutB.RightlyFiltered someResources ∧
      (filterResourcesByTags untaggedWithoutB someResources).1 = some [⟨1, .names []⟩] ∧
      (filterResourcesByTags { untaggedWithoutB with
        filters := (filterResourcesByTags untaggedWithoutB someResources).2 } someResources).1 = some someResources := by
  refine ⟨fun h => (handled_of_right h).kept List.mem_cons_self, ?_, ?_⟩
  · decide
  · decide

end OrganizationViolationsWorker
