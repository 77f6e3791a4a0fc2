import OptScale.Resources.Resource
import OptScale.Rules.WellFormed

/-!
# Rules/Decision — `handle_assignment_data`, on a payload and wrapped rules

A payload may name the employee as `employee_id` or as `owner_id`.  The pair it gives is kept where it is
permitted, else the first rule whose conditions hold decides, else the root pool; nothing is taken from two
of these.  But an `employee_id` that is null hides the `owner_id` beside it, and the pair is then not seen
(`soundDecision_iff`).
-/

open Fallible RuleConditions OrganizationRules

namespace RuleDecision

/-! ## Payloads and wrapped rules -/

/-- A resource payload: the keys of an assignment may be missing, or null. -/
structure Payload where
  employeeId : Option (Option Uuid) := none
  ownerId : Option (Option Uuid) := none
  poolId : Option (Option Uuid) := none
  appliedRules : Option (List AppliedRule) := none
  /-- What conditions look at. -/
  info : ResInfo := {}
  deriving DecidableEq, Repr

/-- `RuleWrapper`: a rule with its conditions converted. -/
structure RuleWrapper (L : Reading) where
  rule : StoredRule
  converted : List BuiltCondition
  built : convertedConditions L rule.conditions = .ok converted

/-- An event of a resource whose pair is not permitted. -/
structure Event where
  cloudAccount : Uuid
  resourceType : Text
  name : Option Text
  cloudResourceId : Option Text
  deriving DecidableEq, Repr

variable {L : Reading}

/-- `RuleWrapper.match` -/
def RuleWrapper.matches (w : RuleWrapper L) (res : ResInfo) : Except Failure Bool :=
  matchAll L w.rule.operator res w.converted

/-- `short_rules_info` -/
def RuleWrapper.shortInfo (w : RuleWrapper L) : List AppliedRule :=
  [⟨w.rule.id, w.rule.name, w.rule.poolId⟩]

/-- `apply_rules` -/
def applyRules (res : ResInfo) : List (RuleWrapper L) → Except Failure (Option (RuleWrapper L))
  | [] => .ok none
  | w :: rules => do
    let matched ← w.matches res
    if matched then pure (some w) else applyRules res rules

/-! ## `handle_assignment_data` -/

/-- `pop('employee_id', pop('owner_id', None))` -/
def Payload.popEmployee (p : Payload) : Option Uuid :=
  match p.employeeId with
  | some employeeId => employeeId
  | none => p.ownerId.join

/-- The payload without the keys of an assignment. -/
def Payload.popped (p : Payload) : Payload :=
  { p with employeeId := none, ownerId := none, poolId := none }

/-- The pair is written. -/
def Payload.assign (p : Payload) (employeeId : Option Uuid) (poolId : Uuid) : Payload :=
  { p.popped with employeeId := some employeeId, poolId := some (some poolId) }

/-- What is popped, put back if it is permitted. -/
def keepPermitted (cloudAccount : Option Uuid) (allowedPools : Uuid → List Uuid) (p : Payload) :
    Payload × List Event :=
  match p.popEmployee, p.poolId.join with
  | some employeeId, some poolId =>
    if poolId ∈ allowedPools employeeId then (p.assign (some employeeId) poolId, [])
    else match cloudAccount with
      | some cloudAccount => (p.popped,
          [⟨cloudAccount, p.info.resourceType.getD "Resource".toList, p.info.name,
            p.info.cloudResourceId⟩])
      -- clusters do not belong to a cloud account
      | none => (p.popped, [])
  | _, _ => (p.popped, [])

/-- The rules, or the root pool and its default owner. -/
def assignByRules (rootPool : Option Pool) (rules : List (RuleWrapper L)) (p : Payload) :
    Except Failure Payload := do
  let rule ← applyRules p.info rules
  match rule with
  | some w => pure { p.assign (some w.rule.ownerId) w.rule.poolId with appliedRules := some w.shortInfo }
  | none => do
    let rootPool ← orFail rootPool (.python "AttributeError")
    pure { p.assign rootPool.defaultOwnerId rootPool.id with appliedRules := none }

/-- `handle_assignment_data` -/
def handleAssignmentData (rootPool : Option Pool) (cloudAccount : Option Uuid)
    (allowedPools : Uuid → List Uuid) (rules : List (RuleWrapper L)) (p : Payload) :
    Except Failure (Payload × List Event) :=
  let kept := keepPermitted cloudAccount allowedPools p
  match kept.1.employeeId.join, kept.1.poolId.join with
  | some _, some _ => .ok kept
  | _, _ => do
    let r ← assignByRules rootPool rules kept.1
    pure (r, kept.2)

/-! ## Conditions that hold -/

/-- One of the names of a resource that are there compares with `meta_info`, in lower case. -/
def NameHolds (L : Reading) (compare : Text → Text → Prop) (res : ResInfo) (metaInfo : Option Text) : Prop :=
  ∃ m ∈ metaInfo, ∃ n, (res.name = some n ∨ res.cloudResourceId = some n) ∧ n ≠ [] ∧
    compare (L.lower m) (L.lower n)

/-- The key and value of a document of a tag compare with the tags. -/
def TagHolds (L : Reading) (compare : JsonValue → JsonValue → Prop) (metaInfo : Option Text) : Prop :=
  ∃ m ∈ metaInfo, ∃ members, L.loads m = some (.obj members) ∧
    compare (JsonValue.get members "key".toList) (JsonValue.get members "value".toList)

/-- **A condition holds** for a resource. -/
def ConditionHolds (L : Reading) (res : ResInfo) : ConditionType → Option Text → Prop
  | .NAME_IS, m => NameHolds L (fun m n => n = m) res m
  | .NAME_STARTS_WITH, m => NameHolds L (fun m n => m <+: n) res m
  | .NAME_ENDS_WITH, m => NameHolds L (fun m n => m <:+ n) res m
  | .NAME_CONTAINS, m => NameHolds L (fun m n => m <:+: n) res m
  | .TAG_IS, m => TagHolds L (fun key value =>
      ∃ k v, key = .str k ∧ value = .str v ∧ res.tags.lookup k = some v) m
  | .TAG_VALUE_STARTS_WITH, m => TagHolds L (fun key value =>
      ∃ v, value = .str v ∧ res.tags ≠ [] ∧ v <+: tagValue res.tags key) m
  | .TAG_EXISTS, m => ∃ key ∈ m, (res.tags.lookup key).isSome
  | .RESOURCE_TYPE_IS, m => ∃ type ∈ m, type ≠ [] ∧ res.resourceType = some type
  | .CLOUD_IS, m => ∃ account ∈ m, account ≠ [] ∧ res.cloudAccountId = some account
  | .REGION_IS, m => res.region = m

/-- **The conditions of a rule hold**, by its operator, over those that are not deleted. -/
def RuleHolds (L : Reading) (res : ResInfo) (rule : StoredRule) : Prop :=
  match rule.operator with
  | .AND => ∀ c ∈ rule.conditions, ¬ c.Deleted → ConditionHolds L res c.type c.metaInfo
  | .OR => ∃ c ∈ rule.conditions, ¬ c.Deleted ∧ ConditionHolds L res c.type c.metaInfo

variable {res : ResInfo} {metaInfo : Option Text} {b : BuiltCondition} {matched : Bool}

theorem nameHolds_iff {checkCondition : Text → Text → Bool} {compare : Text → Text → Prop}
    (hcompare : ∀ m n, checkCondition m n = true ↔ compare m n) {text : Text} :
    ([res.name, res.cloudResourceId].any fun n =>
      (n.filter fun s => s ≠ []).any fun s => checkCondition (L.lower text) (L.lower s)) = true ↔
        NameHolds L compare res (some text) := by
  simp only [NameHolds, List.any_eq_true, List.mem_cons, List.not_mem_nil, or_false, Option.any_eq_true,
    Option.filter_eq_some_iff, decide_eq_true_eq, hcompare, Option.mem_def, Option.some.injEq]
  constructor
  · rintro ⟨n, hn, s, ⟨rfl, hs⟩, hcheck⟩
    exact ⟨text, rfl, s, hn.imp Eq.symm Eq.symm, hs, hcheck⟩
  · rintro ⟨_, rfl, s, hn, hs, hcheck⟩
    exact ⟨some s, hn.imp Eq.symm Eq.symm, s, ⟨rfl, hs⟩, hcheck⟩

/-- A condition on names says whether a name compares. -/
theorem matches_name (checkCondition : Text → Text → Bool) {compare : Text → Text → Prop}
    (hcompare : ∀ m n, checkCondition m n = true ↔ compare m n)
    (hbuild : (do
      let m ← formattedName L metaInfo
      pure (.name fun n => checkCondition m n)) = Except.ok b)
    (hmatches : b.matches L res = .ok matched) :
    matched = true ↔ NameHolds L compare res metaInfo := by
  obtain ⟨m, hm, hb⟩ := bind_eq_ok.mp hbuild
  obtain rfl := pure_eq_ok.mp hb
  obtain ⟨text, rfl, rfl⟩ := formattedName_eq_ok.mp hm
  obtain rfl := Except.ok.inj hmatches
  exact nameHolds_iff hcompare

/-- A condition on the document of a tag says whether it compares. -/
theorem tagHolds_iff {compare : JsonValue → JsonValue → Prop} {kv : JsonValue × JsonValue}
    (h : convertMeta L metaInfo = .ok kv) : TagHolds L compare metaInfo ↔ compare kv.1 kv.2 := by
  obtain ⟨text, members, rfl, hloads, -, rfl⟩ := convertMeta_eq_ok.mp h
  constructor
  · rintro ⟨_, hm, members', hloads', hcompare⟩
    obtain rfl := Option.some.inj hm
    obtain rfl := JsonValue.obj.inj (Option.some.inj (hloads.symm.trans hloads'))
    exact hcompare
  · exact fun hcompare => ⟨text, rfl, members, hloads, hcompare⟩

theorem sameText_iff {given : Option Text} :
    sameText given metaInfo = true ↔ ∃ m ∈ metaInfo, m ≠ [] ∧ given = some m := by
  unfold sameText
  cases given with
  | none => simp
  | some s =>
    cases metaInfo with
    | none => simp
    | some m =>
      simp only [Bool.and_eq_true, Option.isSome_iff_exists, Option.filter_eq_some_iff, decide_eq_true_eq,
        Option.mem_def, Option.some.injEq, exists_eq_left']
      constructor
      · rintro ⟨hs, rfl⟩
        exact ⟨hs, rfl⟩
      · rintro ⟨hs, rfl⟩
        exact ⟨hs, rfl⟩

/-- **What a condition says of a resource** is whether it holds. -/
theorem matches_iff {type : ConditionType} (hbuild : build L type metaInfo = .ok b)
    (hmatches : b.matches L res = .ok matched) :
    matched = true ↔ ConditionHolds L res type metaInfo := by
  cases type with
  | NAME_IS =>
    exact matches_name (fun m n => n = m) (fun m n => decide_eq_true_iff) hbuild hmatches
  | NAME_STARTS_WITH =>
    exact matches_name (fun m n => m.isPrefixOf n)
      (fun m n => List.isPrefixOf_iff_prefix) hbuild hmatches
  | NAME_ENDS_WITH =>
    exact matches_name (fun m n => m.isSuffixOf n)
      (fun m n => List.isSuffixOf_iff_suffix) hbuild hmatches
  | NAME_CONTAINS =>
    refine matches_name (fun m n => n.tails.any fun rest => m.isPrefixOf rest)
      (fun m n => ?_) hbuild hmatches
    simp only [List.any_eq_true, List.mem_tails, List.isPrefixOf_iff_prefix, List.infix_iff_prefix_suffix]
    exact exists_congr fun _ => and_comm
  | TAG_IS =>
    obtain ⟨kv, hkv, hb⟩ := bind_eq_ok.mp hbuild
    obtain rfl := pure_eq_ok.mp hb
    obtain rfl := Except.ok.inj hmatches
    rw [ConditionHolds, tagHolds_iff hkv]
    split
    · rename_i k v hk hv
      simp [hk, hv]
    · rename_i hnot
      refine iff_of_false Bool.false_ne_true ?_
      rintro ⟨k, v, hk, hv, -⟩
      exact hnot k v hk hv
  | TAG_VALUE_STARTS_WITH =>
    obtain ⟨kv, hkv, hb⟩ := bind_eq_ok.mp hbuild
    obtain rfl := pure_eq_ok.mp hb
    rw [ConditionHolds, tagHolds_iff hkv]
    simp only [BuiltCondition.matches] at hmatches
    split at hmatches
    · rename_i hnil
      obtain rfl := Except.ok.inj hmatches
      simp [hnil]
    · rename_i hne
      split at hmatches
      · rename_i v hv
        obtain rfl := Except.ok.inj hmatches
        simp [hv, hne]
      · cases hmatches
  | TAG_EXISTS =>
    obtain rfl := Except.ok.inj hbuild
    obtain rfl := Except.ok.inj hmatches
    simp [ConditionHolds, Option.any_eq_true]
  | RESOURCE_TYPE_IS =>
    obtain rfl := Except.ok.inj hbuild
    obtain rfl := Except.ok.inj hmatches
    exact sameText_iff
  | CLOUD_IS =>
    obtain rfl := Except.ok.inj hbuild
    obtain rfl := Except.ok.inj hmatches
    exact sameText_iff
  | REGION_IS =>
    obtain rfl := Except.ok.inj hbuild
    obtain rfl := Except.ok.inj hmatches
    exact decide_eq_true_iff

/-! ## Rules that hold -/

theorem matchAll_and {bs : List BuiltCondition} (h : matchAll L .AND res bs = .ok matched) :
    (matched = true ∧ ∀ b ∈ bs, b.matches L res = .ok true) ∨
      matched = false ∧ ∃ b ∈ bs, b.matches L res = .ok false := by
  induction bs with
  | nil => exact Or.inl ⟨(Except.ok.inj h).symm, fun b hb => absurd hb List.not_mem_nil⟩
  | cons b bs ih =>
    obtain ⟨x, hx, h⟩ := bind_eq_ok.mp h
    cases x with
    | false => exact Or.inr ⟨(Except.ok.inj h).symm, b, List.mem_cons_self, hx⟩
    | true =>
      obtain ⟨rfl, hall⟩ | ⟨rfl, c, hc, hfalse⟩ := ih (by simpa using h)
      · exact Or.inl ⟨rfl, List.forall_mem_cons.mpr ⟨hx, hall⟩⟩
      · exact Or.inr ⟨rfl, c, List.mem_cons_of_mem _ hc, hfalse⟩

theorem matchAll_or {bs : List BuiltCondition} (h : matchAll L .OR res bs = .ok matched) :
    (matched = true ∧ ∃ b ∈ bs, b.matches L res = .ok true) ∨
      matched = false ∧ ∀ b ∈ bs, b.matches L res = .ok false := by
  induction bs with
  | nil => exact Or.inr ⟨(Except.ok.inj h).symm, fun b hb => absurd hb List.not_mem_nil⟩
  | cons b bs ih =>
    obtain ⟨x, hx, h⟩ := bind_eq_ok.mp h
    cases x with
    | true => exact Or.inl ⟨(Except.ok.inj h).symm, b, List.mem_cons_self, hx⟩
    | false =>
      obtain ⟨rfl, c, hc, htrue⟩ | ⟨rfl, hall⟩ := ih (by simpa using h)
      · exact Or.inl ⟨rfl, c, List.mem_cons_of_mem _ hc, htrue⟩
      · exact Or.inr ⟨rfl, List.forall_mem_cons.mpr ⟨hx, hall⟩⟩

/-- **A rule matches** exactly when its conditions hold. -/
theorem RuleWrapper.matches_iff {w : RuleWrapper L} (h : w.matches res = .ok matched) :
    matched = true ↔ RuleHolds L res w.rule := by
  have hmem : ∀ b, b ∈ w.converted ↔ ∃ c ∈ w.rule.conditions.filter fun c => ¬ c.Deleted,
      build L c.type c.metaInfo = .ok b := mem_of_mapM_eq_ok w.built
  -- a live condition is built, and a built one comes from a live condition
  have hbuilt : ∀ c ∈ w.rule.conditions, ¬ c.Deleted → ∃ b ∈ w.converted,
      build L c.type c.metaInfo = .ok b := by
    intro c hc hlive
    have hc' : c ∈ w.rule.conditions.filter fun c => ¬ c.Deleted :=
      List.mem_filter.mpr ⟨hc, decide_eq_true hlive⟩
    obtain ⟨b, hb⟩ := mapM_ok.mp ⟨_, w.built⟩ c hc'
    exact ⟨b, (hmem b).mpr ⟨c, hc', hb⟩, hb⟩
  have hlive : ∀ b ∈ w.converted, ∃ c ∈ w.rule.conditions, ¬ c.Deleted ∧
      build L c.type c.metaInfo = .ok b := by
    intro b hb
    obtain ⟨c, hc, hbuild⟩ := (hmem b).mp hb
    obtain ⟨hc, hlive⟩ := List.mem_filter.mp hc
    exact ⟨c, hc, of_decide_eq_true hlive, hbuild⟩
  unfold RuleWrapper.matches at h
  unfold RuleHolds
  cases hop : w.rule.operator with
  | AND =>
    rw [hop] at h
    obtain ⟨rfl, hall⟩ | ⟨rfl, b, hb, hfalse⟩ := matchAll_and h
    · refine iff_of_true rfl fun c hc hdeleted => ?_
      obtain ⟨b, hb, hbuild⟩ := hbuilt c hc hdeleted
      exact (RuleDecision.matches_iff hbuild (hall b hb)).mp rfl
    · refine iff_of_false Bool.false_ne_true fun hholds => ?_
      obtain ⟨c, hc, hdeleted, hbuild⟩ := hlive b hb
      exact absurd ((RuleDecision.matches_iff hbuild hfalse).mpr (hholds c hc hdeleted))
        Bool.false_ne_true
  | OR =>
    rw [hop] at h
    obtain ⟨rfl, b, hb, htrue⟩ | ⟨rfl, hall⟩ := matchAll_or h
    · obtain ⟨c, hc, hdeleted, hbuild⟩ := hlive b hb
      exact iff_of_true rfl ⟨c, hc, hdeleted, (RuleDecision.matches_iff hbuild htrue).mp rfl⟩
    · refine iff_of_false Bool.false_ne_true ?_
      rintro ⟨c, hc, hdeleted, hholds⟩
      obtain ⟨b, hb, hbuild⟩ := hbuilt c hc hdeleted
      exact absurd ((RuleDecision.matches_iff hbuild (hall b hb)).mpr hholds) Bool.false_ne_true

/-- The first rule of the list that matches. -/
def FirstMatch (res : ResInfo) (rules : List (RuleWrapper L)) (w : RuleWrapper L) : Prop :=
  ∃ before after, rules = before ++ w :: after ∧ w.matches res = .ok true ∧
    ∀ v ∈ before, v.matches res = .ok false

/-- No rule of the list matches. -/
def NoMatch (res : ResInfo) (rules : List (RuleWrapper L)) : Prop :=
  ∀ w ∈ rules, w.matches res = .ok false

/-- The first rule of the list that holds. -/
def FirstHolding (res : ResInfo) (rules : List (RuleWrapper L)) (w : RuleWrapper L) : Prop :=
  ∃ before after, rules = before ++ w :: after ∧ RuleHolds L res w.rule ∧
    ∀ v ∈ before, ¬ RuleHolds L res v.rule

variable {rules : List (RuleWrapper L)} {w : RuleWrapper L}

theorem not_holds_of_matches (h : w.matches res = .ok false) : ¬ RuleHolds L res w.rule :=
  fun hholds => Bool.false_ne_true ((w.matches_iff h).mpr hholds)

theorem FirstMatch.holding (h : FirstMatch res rules w) : FirstHolding res rules w := by
  obtain ⟨before, after, hrules, hw, hbefore⟩ := h
  exact ⟨before, after, hrules, (w.matches_iff hw).mp rfl, fun v hv => not_holds_of_matches (hbefore v hv)⟩

theorem FirstMatch.mem (h : FirstMatch res rules w) : w ∈ rules := by
  obtain ⟨before, after, rfl, -⟩ := h
  exact List.mem_append_right _ List.mem_cons_self

/-- **`apply_rules` finds the first rule that matches**. -/
theorem applyRules_eq_some_iff : applyRules res rules = .ok (some w) ↔ FirstMatch res rules w := by
  induction rules with
  | nil =>
    refine iff_of_false (fun h => by cases h) ?_
    rintro ⟨before, after, hrules, -⟩
    exact absurd hrules.symm (by simp)
  | cons v rules ih =>
    rw [applyRules, bind_eq_ok]
    constructor
    · rintro ⟨matched, hmatched, h⟩
      cases matched with
      | true =>
        obtain rfl := Option.some.inj (pure_eq_ok.mp h)
        exact ⟨[], rules, rfl, hmatched, fun u hu => absurd hu List.not_mem_nil⟩
      | false =>
        obtain ⟨before, after, rfl, hw, hbefore⟩ := ih.mp h
        exact ⟨v :: before, after, rfl, hw, List.forall_mem_cons.mpr ⟨hmatched, hbefore⟩⟩
    · rintro ⟨before, after, hrules, hw, hbefore⟩
      cases before with
      | nil =>
        obtain ⟨rfl, -⟩ := List.cons.inj hrules
        exact ⟨true, hw, rfl⟩
      | cons u before =>
        obtain ⟨rfl, rfl⟩ := List.cons.inj hrules
        obtain ⟨hv, hbefore⟩ := List.forall_mem_cons.mp hbefore
        exact ⟨false, hv, ih.mpr ⟨before, after, rfl, hw, hbefore⟩⟩

theorem applyRules_eq_none_iff : applyRules res rules = .ok none ↔ NoMatch res rules := by
  induction rules with
  | nil => exact iff_of_true rfl fun w hw => absurd hw List.not_mem_nil
  | cons v rules ih =>
    rw [applyRules, bind_eq_ok, NoMatch, List.forall_mem_cons]
    constructor
    · rintro ⟨matched, hmatched, h⟩
      cases matched with
      | true => cases h
      | false => exact ⟨hmatched, ih.mp h⟩
    · rintro ⟨hv, hrules⟩
      exact ⟨false, hv, ih.mpr hrules⟩

/-- Rules that can all be matched are applied. -/
theorem exists_applyRules (h : ∀ w ∈ rules, ∃ matched, w.matches res = .ok matched) :
    ∃ found, applyRules res rules = .ok found := by
  induction rules with
  | nil => exact ⟨none, rfl⟩
  | cons v rules ih =>
    obtain ⟨⟨matched, hmatched⟩, hrules⟩ := List.forall_mem_cons.mp h
    cases matched with
    | true => exact ⟨some v, bind_eq_ok.mpr ⟨true, hmatched, rfl⟩⟩
    | false =>
      obtain ⟨found, hfound⟩ := ih hrules
      exact ⟨found, bind_eq_ok.mpr ⟨false, hmatched, hfound⟩⟩

/-! ## The decision -/

/-- The employee a payload gives, under either name. -/
def Payload.givenEmployee (p : Payload) : Option Uuid := p.employeeId.join.or p.ownerId.join

/-- The payload gives a pair, and the pool is among the employee's. -/
def Payload.Gives (p : Payload) (allowedPools : Uuid → List Uuid) (employeeId poolId : Uuid) : Prop :=
  p.givenEmployee = some employeeId ∧ p.poolId.join = some poolId ∧ poolId ∈ allowedPools employeeId

/-- What a rule leaves. -/
def byRule (p : Payload) (w : RuleWrapper L) : Payload :=
  { p.assign (some w.rule.ownerId) w.rule.poolId with appliedRules := some w.shortInfo }

/-- What the root pool leaves. -/
def byRoot (p : Payload) (root : Pool) : Payload :=
  { p.assign root.defaultOwnerId root.id with appliedRules := none }

variable (rootPool : Option Pool) (cloudAccount : Option Uuid) (allowedPools : Uuid → List Uuid)
  (rules : List (RuleWrapper L)) (p : Payload)

/-- **A sound decision**: the pair that is given and permitted, else the first rule that holds, else the
root pool; and no pair but the root pool's is one that is not permitted. -/
structure SoundDecision : Prop where
  given : ∀ employeeId poolId, p.Gives allowedPools employeeId poolId → ∃ events,
    handleAssignmentData rootPool cloudAccount allowedPools rules p =
      .ok (p.assign (some employeeId) poolId, events)
  otherwise : (∀ employeeId poolId, ¬ p.Gives allowedPools employeeId poolId) → ∀ r events,
    handleAssignmentData rootPool cloudAccount allowedPools rules p = .ok (r, events) →
      (∃ w, FirstHolding p.info rules w ∧ r = byRule p w) ∨
        (∀ w ∈ rules, ¬ RuleHolds L p.info w.rule) ∧ ∃ root, rootPool = some root ∧ r = byRoot p root
  decides : (∀ w ∈ rules, ∃ matched, w.matches p.info = .ok matched) → rootPool.isSome →
    ∃ r events, handleAssignmentData rootPool cloudAccount allowedPools rules p = .ok (r, events)
  permitted : ∀ r events,
    handleAssignmentData rootPool cloudAccount allowedPools rules p = .ok (r, events) →
      (∃ employeeId poolId, r.employeeId = some (some employeeId) ∧ r.poolId = some (some poolId) ∧
        poolId ∈ allowedPools employeeId) ∨ ∃ root, rootPool = some root ∧ r = byRoot p root

/-- **The owner is hidden**: an `employee_id` that is null stands beside an `owner_id` whose pair with the
pool is permitted. -/
def HidesOwner (employeeId poolId : Uuid) : Prop :=
  p.employeeId = some none ∧ p.ownerId = some (some employeeId) ∧ p.poolId.join = some poolId ∧
    poolId ∈ allowedPools employeeId

/-- The rules, or the root pool, come to the very pair and rules the payload has. -/
def SameByRules (employeeId poolId : Uuid) : Prop :=
  (∃ w, FirstMatch p.info rules w ∧ w.rule.ownerId = employeeId ∧ w.rule.poolId = poolId ∧
    p.appliedRules = some w.shortInfo) ∨
  NoMatch p.info rules ∧ ∃ root, rootPool = some root ∧ root.defaultOwnerId = some employeeId ∧
    root.id = poolId ∧ p.appliedRules = none

variable {rootPool cloudAccount allowedPools rules p}

theorem assignByRules_eq_ok {r : Payload} : assignByRules rootPool rules p = .ok r ↔
    (∃ w, FirstMatch p.info rules w ∧ r = byRule p w) ∨
      NoMatch p.info rules ∧ ∃ root, rootPool = some root ∧ r = byRoot p root := by
  rw [assignByRules, bind_eq_ok]
  constructor
  · rintro ⟨found, hfound, h⟩
    cases found with
    | some w => exact Or.inl ⟨w, applyRules_eq_some_iff.mp hfound, (pure_eq_ok.mp h).symm⟩
    | none =>
      obtain ⟨root, hroot, h⟩ := bind_eq_ok.mp h
      exact Or.inr ⟨applyRules_eq_none_iff.mp hfound, root, orFail_eq_ok.mp hroot, (pure_eq_ok.mp h).symm⟩
  · rintro (⟨w, hw, rfl⟩ | ⟨hnone, root, rfl, rfl⟩)
    · exact ⟨some w, applyRules_eq_some_iff.mpr hw, rfl⟩
    · exact ⟨none, applyRules_eq_none_iff.mpr hnone, rfl⟩

/-- A pair that is popped and permitted is put back. -/
theorem handle_of_kept {employeeId poolId : Uuid} (hemployee : p.popEmployee = some employeeId)
    (hpool : p.poolId.join = some poolId) (h : poolId ∈ allowedPools employeeId) :
    handleAssignmentData rootPool cloudAccount allowedPools rules p =
      .ok (p.assign (some employeeId) poolId, []) := by
  have hkept : keepPermitted cloudAccount allowedPools p = (p.assign (some employeeId) poolId, []) := by
    unfold keepPermitted
    rw [hemployee, hpool]
    exact if_pos h
  rw [handleAssignmentData, hkept]
  rfl

variable (rootPool cloudAccount rules) in
/-- Without such a pair the rules are asked. -/
theorem handle_of_not_kept (h : ∀ employeeId poolId, p.popEmployee = some employeeId →
      p.poolId.join = some poolId → poolId ∉ allowedPools employeeId) :
    ∃ events, handleAssignmentData rootPool cloudAccount allowedPools rules p =
      (assignByRules rootPool rules p >>= fun r => pure (r, events)) := by
  have hkept : ∃ events, keepPermitted cloudAccount allowedPools p = (p.popped, events) := by
    unfold keepPermitted
    split
    · rename_i employeeId poolId hemployee hpool
      rw [if_neg (h employeeId poolId hemployee hpool)]
      cases cloudAccount with
      | none => exact ⟨_, rfl⟩
      | some cloudAccount => exact ⟨_, rfl⟩
    · exact ⟨_, rfl⟩
  obtain ⟨events, hkept⟩ := hkept
  refine ⟨events, ?_⟩
  rw [handleAssignmentData, hkept]
  rfl

theorem handle_eq_ok_of_not_kept (h : ∀ employeeId poolId, p.popEmployee = some employeeId →
      p.poolId.join = some poolId → poolId ∉ allowedPools employeeId) {r : Payload} {events : List Event}
    (hrun : handleAssignmentData rootPool cloudAccount allowedPools rules p = .ok (r, events)) :
    assignByRules rootPool rules p = .ok r := by
  obtain ⟨events', hhandle⟩ := handle_of_not_kept rootPool cloudAccount rules h
  rw [hhandle] at hrun
  obtain ⟨r', hr', hpair⟩ := bind_eq_ok.mp hrun
  obtain ⟨rfl, -⟩ := Prod.mk.inj (pure_eq_ok.mp hpair)
  exact hr'

theorem givenEmployee_of_pop {employeeId : Uuid} (h : p.popEmployee = some employeeId) :
    p.givenEmployee = some employeeId := by
  unfold Payload.popEmployee at h
  unfold Payload.givenEmployee
  split at h
  · rename_i given hgiven
    rw [hgiven, h]
    rfl
  · rename_i hnone
    rw [hnone]
    exact h

/-- A pair that is given is popped, unless its owner is hidden. -/
theorem Payload.Gives.popped_or_hidden {employeeId poolId : Uuid}
    (h : p.Gives allowedPools employeeId poolId) :
    p.popEmployee = some employeeId ∨ HidesOwner allowedPools p employeeId poolId := by
  obtain ⟨hemployee, hpool, hallowed⟩ := h
  unfold Payload.givenEmployee at hemployee
  unfold Payload.popEmployee
  cases hgiven : p.employeeId with
  | none =>
    rw [hgiven] at hemployee
    exact Or.inl hemployee
  | some given =>
    rw [hgiven] at hemployee
    cases given with
    | some e => exact Or.inl hemployee
    | none => exact Or.inr ⟨hgiven, Option.join_eq_some_iff.mp hemployee, hpool, hallowed⟩

theorem HidesOwner.gives {employeeId poolId : Uuid} (h : HidesOwner allowedPools p employeeId poolId) :
    p.Gives allowedPools employeeId poolId := by
  obtain ⟨hemployee, howner, hpool, hallowed⟩ := h
  exact ⟨by rw [Payload.givenEmployee, hemployee, howner]; rfl, hpool, hallowed⟩

theorem HidesOwner.popEmployee {employeeId poolId : Uuid}
    (h : HidesOwner allowedPools p employeeId poolId) : p.popEmployee = none := by
  rw [Payload.popEmployee, h.1]

/-- Pairs that come to the same are left by the rules. -/
theorem SameByRules.assignByRules {employeeId poolId : Uuid}
    (h : SameByRules rootPool rules p employeeId poolId) :
    assignByRules rootPool rules p = .ok (p.assign (some employeeId) poolId) := by
  refine assignByRules_eq_ok.mpr ?_
  obtain ⟨w, hw, rfl, rfl, happlied⟩ | ⟨hnone, root, hroot, howner, rfl, happlied⟩ := h
  · refine Or.inl ⟨w, hw, ?_⟩
    rw [byRule, ← happlied]
    rfl
  · refine Or.inr ⟨hnone, root, hroot, ?_⟩
    rw [byRoot, ← happlied, howner]
    rfl

/-- **What a decision comes to**: the pair that was popped, or what the rules leave. -/
theorem handle_eq_ok {r : Payload} {events : List Event}
    (hrun : handleAssignmentData rootPool cloudAccount allowedPools rules p = .ok (r, events)) :
    (∃ employeeId poolId, p.popEmployee = some employeeId ∧ p.poolId.join = some poolId ∧
      poolId ∈ allowedPools employeeId ∧ r = p.assign (some employeeId) poolId) ∨
    assignByRules rootPool rules p = .ok r := by
  by_cases hkept : ∃ employeeId poolId, p.popEmployee = some employeeId ∧ p.poolId.join = some poolId ∧
      poolId ∈ allowedPools employeeId
  · obtain ⟨employeeId, poolId, hemployee, hpool, hallowed⟩ := hkept
    rw [handle_of_kept hemployee hpool hallowed] at hrun
    obtain ⟨rfl, -⟩ := Prod.mk.inj (Except.ok.inj hrun)
    exact Or.inl ⟨employeeId, poolId, hemployee, hpool, hallowed, rfl⟩
  · exact Or.inr (handle_eq_ok_of_not_kept (fun e pool he hp h => hkept ⟨e, pool, he, hp, h⟩) hrun)

theorem exists_handle (hmatches : ∀ w ∈ rules, ∃ matched, w.matches p.info = .ok matched)
    (hroot : rootPool.isSome) : ∃ r events,
      handleAssignmentData rootPool cloudAccount allowedPools rules p = .ok (r, events) := by
  by_cases hkept : ∃ employeeId poolId, p.popEmployee = some employeeId ∧ p.poolId.join = some poolId ∧
      poolId ∈ allowedPools employeeId
  · obtain ⟨employeeId, poolId, hemployee, hpool, hallowed⟩ := hkept
    exact ⟨_, _, handle_of_kept hemployee hpool hallowed⟩
  · obtain ⟨events, hhandle⟩ := handle_of_not_kept rootPool cloudAccount rules
      fun e pool he hp h => hkept ⟨e, pool, he, hp, h⟩
    obtain ⟨root, rfl⟩ := Option.isSome_iff_exists.mp hroot
    obtain ⟨found, hfound⟩ := exists_applyRules hmatches
    have hrules : ∃ r, assignByRules (some root) rules p = .ok r := by
      cases found with
      | some w => exact ⟨_, assignByRules_eq_ok.mpr (Or.inl ⟨w, applyRules_eq_some_iff.mp hfound, rfl⟩)⟩
      | none =>
        exact ⟨_, assignByRules_eq_ok.mpr (Or.inr ⟨applyRules_eq_none_iff.mp hfound, root, rfl, rfl⟩)⟩
    obtain ⟨r, hr⟩ := hrules
    refine ⟨r, events, ?_⟩
    rw [hhandle, hr]
    rfl

/-- **A decision is sound** exactly when no owner is hidden, or the rules come to the same. -/
theorem soundDecision_iff (hvalid : ∀ w ∈ rules, w.rule.poolId ∈ allowedPools w.rule.ownerId) :
    SoundDecision rootPool cloudAccount allowedPools rules p ↔
      ∀ employeeId poolId, HidesOwner allowedPools p employeeId poolId →
        SameByRules rootPool rules p employeeId poolId := by
  constructor
  · intro hsound employeeId poolId hhides
    obtain ⟨events, hrun⟩ := hsound.given employeeId poolId hhides.gives
    have hrules := handle_eq_ok_of_not_kept (fun e _ he => by
      rw [hhides.popEmployee] at he
      cases he) hrun
    obtain ⟨w, hw, heq⟩ | ⟨hnone, root, hroot, heq⟩ := assignByRules_eq_ok.mp hrules
    · refine Or.inl ⟨w, hw, ?_, ?_, congrArg Payload.appliedRules heq⟩
      · exact (Option.some.inj (Option.some.inj (congrArg Payload.employeeId heq))).symm
      · exact (Option.some.inj (Option.some.inj (congrArg Payload.poolId heq))).symm
    · refine Or.inr ⟨hnone, root, hroot, ?_, ?_, congrArg Payload.appliedRules heq⟩
      · exact (Option.some.inj (congrArg Payload.employeeId heq)).symm
      · exact (Option.some.inj (Option.some.inj (congrArg Payload.poolId heq))).symm
  · intro hsame
    refine ⟨fun employeeId poolId hgives => ?_, fun hnone r events hrun => ?_, exists_handle,
      fun r events hrun => ?_⟩
    · obtain hpopped | hhides := hgives.popped_or_hidden
      · exact ⟨[], handle_of_kept hpopped hgives.2.1 hgives.2.2⟩
      · have hnone : ∀ e q, p.popEmployee = some e → p.poolId.join = some q → q ∉ allowedPools e := by
          intro e _ he
          rw [hhides.popEmployee] at he
          cases he
        obtain ⟨events, hhandle⟩ := handle_of_not_kept rootPool cloudAccount rules hnone
        rw [hhandle, (hsame employeeId poolId hhides).assignByRules]
        exact ⟨events, rfl⟩
    · obtain ⟨e, pool, he, hpool, hallowed, -⟩ | hrules := handle_eq_ok hrun
      · exact absurd ⟨givenEmployee_of_pop he, hpool, hallowed⟩ (hnone e pool)
      · obtain ⟨w, hw, rfl⟩ | ⟨hno, hroot⟩ := assignByRules_eq_ok.mp hrules
        · exact Or.inl ⟨w, hw.holding, rfl⟩
        · exact Or.inr ⟨fun w hw => not_holds_of_matches (hno w hw), hroot⟩
    · obtain ⟨e, pool, -, -, hallowed, rfl⟩ | hrules := handle_eq_ok hrun
      · exact Or.inl ⟨e, pool, rfl, rfl, hallowed⟩
      · obtain ⟨w, hw, rfl⟩ | ⟨-, hroot⟩ := assignByRules_eq_ok.mp hrules
        · exact Or.inl ⟨_, _, rfl, rfl, hvalid w hw.mem⟩
        · exact Or.inr hroot

/-! ### An owner beside a null -/

/-- A rule for everything in a region, of the owner 9 and the pool 1. -/
def regionRule : RuleWrapper plainReading where
  rule :=
    { id := 7
      name := ['r']
      priority := 1
      creatorId := 9
      organizationId := 2
      poolId := 1
      ownerId := 9
      conditions := [⟨8, .REGION_IS, some ['w'], 0⟩] }
  converted := [.regionIs (some ['w'])]
  built := rfl

/-- The root pool, of the owner 9. -/
def rootOf9 : Pool := { id := 1, organizationId := 2, defaultOwnerId := some 9 }

/-- The owner 9 may use the root pool, the owner 5 another one. -/
def allowed : Uuid → List Uuid
  | 9 => [1]
  | 5 => [3]
  | _ => []

/-- A decision on a payload that names its owner once. -/
theorem soundDecision_named : SoundDecision (some rootOf9) none allowed [regionRule]
    { ownerId := some (some 5), poolId := some (some 3) } := by
  refine (soundDecision_iff ?_).mpr ?_
  · rintro w hw
    obtain rfl := List.mem_singleton.mp hw
    decide
  · rintro employeeId poolId ⟨hnull, -⟩
    cases hnull

/-- **The owner is not seen**: with an `employee_id` of null beside it, the root pool's owner gets the
resource. -/
theorem null_hides_owner : ¬ SoundDecision (some rootOf9) none allowed [regionRule]
    { employeeId := some none, ownerId := some (some 5), poolId := some (some 3) } := by
  intro hsound
  obtain ⟨events, hrun⟩ := hsound.given 5 3 ⟨rfl, rfl, by decide⟩
  have hroot : handleAssignmentData (some rootOf9) none allowed [regionRule]
      { employeeId := some none, ownerId := some (some 5), poolId := some (some 3) } =
        .ok ({ employeeId := some (some 9), poolId := some (some 1) }, []) := rfl
  cases hroot.symm.trans hrun

end RuleDecision
