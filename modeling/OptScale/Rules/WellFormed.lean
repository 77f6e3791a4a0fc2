import OptScale.Rules.Conditioned

/-!
# Rules/WellFormed — conditions that can be built and matched

A request is validated as it stands, and then merged with the stored condition it names.  A type that is
given without `meta_info` is stored with the old `meta_info`, which may be null or no document; a
`meta_info` that is given without a type is not read as a document even where the stored type reads it
so.  One such condition fails the rules of the whole organization.
-/

open Fallible RuleConditions Run

namespace OrganizationRules

variable {L : Reading} {t t' : Rules} {type : ConditionType} {metaInfo : Option Text}

/-! ## What can be built and matched -/

/-- The condition can be built, and matched against every resource. -/
def Matchable (L : Reading) (type : ConditionType) (metaInfo : Option Text) : Prop :=
  ∃ built, build L type metaInfo = .ok built ∧ ∀ res, ∃ b, built.matches L res = .ok b

/-- `meta_info` is a document with a key that a dictionary may have, and a value that is one of `V`. -/
def TagDocument (L : Reading) (V : JsonValue → Prop) (metaInfo : Option Text) : Prop :=
  ∃ text members, metaInfo = some text ∧ L.loads text = some (.obj members) ∧
    (JsonValue.get members "key".toList).hashable ∧ V (JsonValue.get members "value".toList)

/-- **What `meta_info` a type takes**: a condition on names takes a text, one on a tag takes a document,
whose value is a text where it is compared as one. -/
def WellFormed (L : Reading) : ConditionType → Option Text → Prop
  | .NAME_IS, metaInfo => metaInfo ≠ none
  | .NAME_STARTS_WITH, metaInfo => metaInfo ≠ none
  | .NAME_ENDS_WITH, metaInfo => metaInfo ≠ none
  | .NAME_CONTAINS, metaInfo => metaInfo ≠ none
  | .TAG_IS, metaInfo => TagDocument L (fun _ => True) metaInfo
  | .TAG_VALUE_STARTS_WITH, metaInfo => TagDocument L (fun v => ∃ s, v = .str s) metaInfo
  | _, _ => True

theorem formattedName_eq_ok {m : Text} :
    formattedName L metaInfo = .ok m ↔ ∃ text, metaInfo = some text ∧ L.lower text = m := by
  simp only [formattedName, bind_eq_ok, orFail_eq_ok, pure_eq_ok]

theorem convertMeta_eq_ok {kv : JsonValue × JsonValue} :
    convertMeta L metaInfo = .ok kv ↔ ∃ text members, metaInfo = some text ∧
      L.loads text = some (.obj members) ∧ (JsonValue.get members "key".toList).hashable ∧
        kv = (JsonValue.get members "key".toList, JsonValue.get members "value".toList) := by
  simp only [convertMeta, bind_eq_ok, orFail_eq_ok]
  constructor
  · rintro ⟨text, rfl, value, hloads, h⟩
    split at h
    · rename_i members
      simp only [bind_eq_ok, require_eq_ok, pure_eq_ok] at h
      obtain ⟨_, hkey, rfl⟩ := h
      exact ⟨text, members, rfl, hloads, hkey, rfl⟩
    · cases h
  · rintro ⟨text, members, rfl, hloads, hkey, rfl⟩
    refine ⟨text, rfl, _, hloads, ?_⟩
    simp only [bind_eq_ok, require_eq_ok, pure_eq_ok]
    exact ⟨(), hkey, trivial⟩

/-- A condition on names never fails once it is built. -/
theorem matchable_name {f : Text → Text → Bool}
    (hbuild : build L type metaInfo = (do
      let m ← formattedName L metaInfo
      pure (.name fun n => f m n))) : Matchable L type metaInfo ↔ metaInfo ≠ none := by
  rw [Matchable, hbuild, Option.ne_none_iff_exists']
  simp only [bind_eq_ok, pure_eq_ok, formattedName_eq_ok]
  constructor
  · rintro ⟨_, ⟨_, ⟨text, htext, -⟩, -⟩, -⟩
    exact ⟨text, htext⟩
  · rintro ⟨text, htext⟩
    exact ⟨_, ⟨_, ⟨text, htext, rfl⟩, rfl⟩, fun res => ⟨_, rfl⟩⟩

theorem matchable_tagIs : Matchable L .TAG_IS metaInfo ↔ TagDocument L (fun _ => True) metaInfo := by
  simp only [Matchable, build, bind_eq_ok, pure_eq_ok, convertMeta_eq_ok]
  constructor
  · rintro ⟨_, ⟨_, ⟨text, members, htext, hloads, hkey, -⟩, -⟩, -⟩
    exact ⟨text, members, htext, hloads, hkey, trivial⟩
  · rintro ⟨text, members, htext, hloads, hkey, -⟩
    exact ⟨_, ⟨_, ⟨text, members, htext, hloads, hkey, rfl⟩, rfl⟩, fun res => ⟨_, rfl⟩⟩

/-- A tag with a value is enough to compare values. -/
theorem matchable_tagValueStartsWith :
    Matchable L .TAG_VALUE_STARTS_WITH metaInfo ↔
      TagDocument L (fun v => ∃ s, v = .str s) metaInfo := by
  simp only [Matchable, build, bind_eq_ok, pure_eq_ok, convertMeta_eq_ok]
  constructor
  · rintro ⟨_, ⟨_, ⟨text, members, htext, hloads, hkey, rfl⟩, rfl⟩, hmatches⟩
    refine ⟨text, members, htext, hloads, hkey, ?_⟩
    obtain ⟨b, hb⟩ := hmatches { tags := [([], [])] }
    simp only [BuiltCondition.matches] at hb
    rw [if_neg (List.cons_ne_nil _ _)] at hb
    split at hb
    · rename_i s hs
      exact ⟨s, hs⟩
    · cases hb
  · rintro ⟨text, members, htext, hloads, hkey, s, hs⟩
    refine ⟨_, ⟨_, ⟨text, members, htext, hloads, hkey, rfl⟩, rfl⟩, fun res => ?_⟩
    simp only [BuiltCondition.matches, hs]
    split
    · exact ⟨_, rfl⟩
    · exact ⟨_, rfl⟩

/-- **A condition can be built and matched exactly when it is well formed.** -/
theorem matchable_iff : Matchable L type metaInfo ↔ WellFormed L type metaInfo := by
  cases type with
  | NAME_IS => exact matchable_name (f := fun m n => n = m) rfl
  | NAME_STARTS_WITH => exact matchable_name (f := fun m n => m.isPrefixOf n) rfl
  | NAME_ENDS_WITH => exact matchable_name (f := fun m n => m.isSuffixOf n) rfl
  | NAME_CONTAINS =>
    exact matchable_name (f := fun m n => n.tails.any fun rest => m.isPrefixOf rest) rfl
  | TAG_IS => exact matchable_tagIs
  | TAG_VALUE_STARTS_WITH => exact matchable_tagValueStartsWith
  | TAG_EXISTS => exact iff_of_true ⟨_, rfl, fun res => ⟨_, rfl⟩⟩ trivial
  | RESOURCE_TYPE_IS => exact iff_of_true ⟨_, rfl, fun res => ⟨_, rfl⟩⟩ trivial
  | CLOUD_IS => exact iff_of_true ⟨_, rfl, fun res => ⟨_, rfl⟩⟩ trivial
  | REGION_IS => exact iff_of_true ⟨_, rfl, fun res => ⟨_, rfl⟩⟩ trivial

/-! ## What the validation passes -/

theorem checkString_eq_ok {name : String} {v : JsonValue} {u : Unit}
    (h : checkString name v = .ok u) : ∃ s, v = .str s := by
  cases v with
  | str s => exact ⟨s, rfl⟩
  | null => cases h
  | bool b => cases h
  | num n => cases h
  | arr xs => cases h
  | obj members => cases h

/-- A document that passes is a tag with a value. -/
theorem tagDocument_of_validate {text : Text} {u : Unit}
    (h : validateTagsMetaInfo L.loads text = .ok u) :
    TagDocument L (fun v => ∃ s, v = .str s) (some text) := by
  simp only [validateTagsMetaInfo, bind_eq_ok, orFail_eq_ok] at h
  obtain ⟨value, hloads, _, -, h⟩ := h
  split at h
  · rename_i members
    simp only [bind_eq_ok] at h
    obtain ⟨_, hkey, _, hvalue, -⟩ := h
    obtain ⟨k, hk⟩ := checkString_eq_ok hkey
    exact ⟨text, members, rfl, hloads, by rw [hk]; rfl, checkString_eq_ok hvalue⟩
  · cases h

/-- Where the type is no tag's, any text will do. -/
theorem wellFormed_of_text {text : Text}
    (hcomplex : type ∈ complexTypes → TagDocument L (fun v => ∃ s, v = .str s) (some text)) :
    WellFormed L type (some text) := by
  cases type with
  | TAG_IS =>
    obtain ⟨x, members, hx, hloads, hkey, -⟩ := hcomplex (by decide)
    exact ⟨x, members, hx, hloads, hkey, trivial⟩
  | TAG_VALUE_STARTS_WITH => exact hcomplex (by decide)
  | NAME_IS => exact Option.some_ne_none _
  | NAME_STARTS_WITH => exact Option.some_ne_none _
  | NAME_ENDS_WITH => exact Option.some_ne_none _
  | NAME_CONTAINS => exact Option.some_ne_none _
  | TAG_EXISTS => trivial
  | RESOURCE_TYPE_IS => trivial
  | CLOUD_IS => trivial
  | REGION_IS => trivial

/-- **A request that gives a type and `meta_info`** gives a condition that is well formed. -/
theorem wellFormed_of_validate {p : ConditionPayload} {value : String} {u : Unit}
    (h : validateConditionData L.loads p = .ok u) (hvalue : p.type = some (some value))
    (htype : ofValue value = some type) (hmeta : p.metaInfo = some metaInfo)
    (hnull : metaInfo ≠ none ∨ type = .REGION_IS) : WellFormed L type metaInfo := by
  simp only [validateConditionData, hvalue, hmeta, Option.join_some, htype, orFail_some, ok_bind,
    bind_eq_ok, require_eq_ok] at h
  obtain ⟨_, -, _, hgiven, -⟩ := h
  cases metaInfo with
  | none =>
    obtain rfl := hnull.resolve_left fun hne => hne rfl
    trivial
  | some text =>
    refine wellFormed_of_text fun hcomplex => ?_
    simp only [bind_eq_ok] at hgiven
    obtain ⟨_, -, hgiven⟩ := hgiven
    rw [if_pos ⟨type, rfl, hcomplex⟩] at hgiven
    exact tagDocument_of_validate hgiven

/-! ## Merging -/

/-- **A request that suits the stored condition** it names: a type alone goes with the stored `meta_info`,
a `meta_info` alone with the stored type, if that is a tag's. -/
structure Suits (L : Reading) (u : ConditionPayload) (c : StoredCondition) : Prop where
  type_alone : ∀ value type, u.type = some (some value) → ofValue value = some type →
    u.metaInfo = none → WellFormed L type c.metaInfo
  meta_alone : ∀ text, u.type = none → u.metaInfo = some (some text) → c.type ∈ complexTypes →
    WellFormed L c.type (some text)

theorem updatedConditionsMap_mem {conditions : List ConditionPayload} {id : Uuid}
    {u : ConditionPayload} (h : updatedConditionsMap conditions id = some u) : u ∈ conditions :=
  List.mem_reverse.mp (List.mem_of_find?_eq_some h)

/-- **The merged condition** is well formed exactly when the request suits the stored one. -/
theorem wellFormed_merged {now : ℕ} {conditions : List ConditionPayload} {c c' : StoredCondition}
    {u : ConditionPayload} (hc : WellFormed L c.type c.metaInfo)
    (hvalid : validateConditionData L.loads u = .ok ())
    (hu : updatedConditionsMap conditions c.id = some u)
    (h : updateCondition now conditions c = .ok c') :
    WellFormed L c'.type c'.metaInfo ↔ Suits L u c := by
  obtain ⟨hnone, -⟩ | ⟨u', hu', htype, hmeta, -⟩ := updateCondition_eq_ok h
  · rw [hu] at hnone
    cases hnone
  obtain rfl := Option.some.inj (hu.symm.trans hu')
  obtain ⟨htype, hsame⟩ | ⟨value, htype, hvalue⟩ := htype
  · obtain ⟨hmeta, hsame'⟩ | ⟨hmeta, hnull⟩ := hmeta
    · rw [hsame, hsame']
      refine iff_of_true hc ⟨fun value type h => ?_, fun text _ h => ?_⟩
      · rw [htype] at h
        cases h
      · rw [hmeta] at h
        cases h
    · -- `meta_info` alone
      rw [hsame] at hnull ⊢
      constructor
      · refine fun hwell => ⟨fun value type h => ?_, fun text _ h _ => ?_⟩
        · rw [htype] at h
          cases h
        · rw [hmeta] at h
          obtain h := Option.some.inj h
          rwa [h] at hwell
      · intro hfits
        cases hgiven : c'.metaInfo with
        | none =>
          rw [hgiven] at hnull
          rw [hnull.resolve_left fun hne => hne rfl]
          trivial
        | some text =>
          by_cases hcomplex : c.type ∈ complexTypes
          · exact hfits.meta_alone text htype (hgiven ▸ hmeta) hcomplex
          · exact wellFormed_of_text fun h => absurd h hcomplex
  · obtain ⟨hmeta, hsame⟩ | ⟨hmeta, hnull⟩ := hmeta
    · -- a type alone
      rw [hsame]
      constructor
      · refine fun hwell => ⟨fun value' type' h hvalue' _ => ?_, fun text h => ?_⟩
        · rw [htype] at h
          obtain rfl := Option.some.inj (Option.some.inj h)
          rwa [← Option.some.inj (hvalue.symm.trans hvalue')]
        · rw [htype] at h
          cases h
      · exact fun hfits => hfits.type_alone value _ htype hvalue hmeta
    · refine iff_of_true (wellFormed_of_validate hvalid htype hvalue hmeta hnull)
        ⟨fun _ _ _ _ h => ?_, fun text h => ?_⟩
      · rw [hmeta] at h
        cases h
      · rw [htype] at h
        cases h

/-! ## Runs -/

/-- **Every condition that is not deleted can be built and matched.** -/
def AllMatchable (L : Reading) (t : Rules) : Prop :=
  ∀ r ∈ t.rows, ∀ c ∈ r.conditions, ¬ c.Deleted → Matchable L c.type c.metaInfo

/-- **An edit that fits**: what it says of a condition that is not deleted suits that condition. -/
def Edit.Fits (L : Reading) (e : Edit) (t : Rules) : Prop :=
  ∀ rule, get t e.itemId = .ok rule → ∀ conditions ∈ e.payload.conditions.join,
    ∀ c ∈ rule.conditions, ¬ c.Deleted → ∀ u, updatedConditionsMap conditions c.id = some u →
      Suits L u c

/-- Only an edit can store what does not fit. -/
def Call.Fits (L : Reading) (t : Rules) : Call → Prop
  | .edit e => e.Fits L t
  | _ => True

/-- The conditions that are not deleted are well formed. -/
def AllWellFormed (L : Reading) (cs : List StoredCondition) : Prop :=
  ∀ c ∈ cs, ¬ c.Deleted → WellFormed L c.type c.metaInfo

theorem allMatchable_iff : AllMatchable L t ↔ AllRules (fun _ => AllWellFormed L) t :=
  forall₂_congr fun _ _ => forall₂_congr fun _ _ => forall_congr' fun _ => matchable_iff

/-- New conditions are well formed. -/
theorem allWellFormed_prepared {genId : IdSource} {used : List Uuid} {ps : List ConditionPayload}
    {cs : List StoredCondition} (hvalid : ∀ p ∈ ps, validateConditionData L.loads p = .ok ())
    (h : prepareConditions genId used ps = .ok cs) : AllWellFormed L cs := by
  intro c hc _
  obtain ⟨id, p, hp, hprepared⟩ := (prepareConditions_eq_ok h).2 c hc
  obtain ⟨value, type, metaInfo, htype, -, hvalue, hmeta, hnull, rfl⟩ :=
    prepareCondition_eq_ok.mp hprepared
  exact wellFormed_of_validate (hvalid p hp) htype hvalue hmeta hnull

/-- **The conditions after an edit** are well formed exactly when the request suits those before it. -/
theorem allWellFormed_updated {genId : IdSource} {now : ℕ} (hnow : 0 < now) {used : List Uuid}
    {original stored : List StoredCondition} {conditions : List ConditionPayload}
    (horiginal : AllWellFormed L original)
    (hvalid : ∀ p ∈ conditions, validateConditionData L.loads p = .ok ())
    (h : processConditionsUpdate genId now used original conditions = .ok stored) :
    AllWellFormed L stored ↔ ∀ c ∈ original, ¬ c.Deleted → ∀ u,
      updatedConditionsMap conditions c.id = some u → Suits L u c := by
  simp only [processConditionsUpdate, bind_eq_ok, pure_eq_ok] at h
  obtain ⟨updated, hupdated, new, hnew, rfl⟩ := h
  have hnewFits := allWellFormed_prepared (fun p hp => hvalid p (List.mem_filter.mp hp).1) hnew
  constructor
  · intro hall c hc hlive u hu
    obtain ⟨c', hup⟩ := (mapM_ok.mp ⟨updated, hupdated⟩) c hc
    have hc' : c' ∈ updated := (mem_of_mapM_eq_ok hupdated c').mpr ⟨c, hc, hup⟩
    refine (wellFormed_merged (horiginal c hc hlive) (hvalid u (updatedConditionsMap_mem hu)) hu
      hup).mp (hall c' (List.mem_append_left _ hc') ?_)
    obtain ⟨hnone, -⟩ | ⟨_, -, -, -, -, hdel⟩ := updateCondition_eq_ok hup
    · rw [hu] at hnone
      cases hnone
    · exact fun hd => hlive (hdel.symm.trans_ne hd)
  · intro hfits c' hc' hlive'
    obtain hc' | hc' := List.mem_append.mp hc'
    · obtain ⟨c, hc, hup⟩ := (mem_of_mapM_eq_ok hupdated c').mp hc'
      obtain ⟨-, rfl⟩ | ⟨u, hu, -, -, -, hdel⟩ := updateCondition_eq_ok hup
      · exact absurd hnow.ne' hlive'
      · have hlive : ¬ c.Deleted := fun hd => hlive' (hdel.trans_ne hd)
        exact (wellFormed_merged (horiginal c hc hlive) (hvalid u (updatedConditionsMap_mem hu)) hu
          hup).mpr (hfits c hc hlive u hu)
    · exact hnewFits c' hc' hlive'

/-- **One call.** -/
theorem allMatchable_step {c : Env × Call} (ht : AllMatchable L t) (h : step L t c = some t') :
    AllMatchable L t' ↔ c.2.Fits L t := by
  rw [allMatchable_iff, allRules_step ?_ (allMatchable_iff.mp ht) h]
  · obtain ⟨E, call⟩ := c
    obtain ⟨r, hrun⟩ := step_eq_some h
    cases call with
    | create c =>
      obtain ⟨conditions, _, _, _, hgiven, -, hvalid, -⟩ := createRule_eq_ok hrun
      refine iff_of_true (fun cs hcs stored hstored => ?_) trivial
      obtain hnone | ⟨cs', hsome, -, hvalid⟩ := validateParameters_conditions hvalid
      · rw [hnone] at hcs
        cases hcs
      · rw [hsome] at hcs
        obtain rfl := Option.some.inj hcs
        exact allWellFormed_prepared hvalid hstored
    | edit e =>
      obtain ⟨rule, _, hget, hvalid, -, hconditions, -⟩ := editRule_eq_ok hrun
      obtain ⟨hrule, -, hlive⟩ := get_eq_ok.mp hget
      have hwell : AllWellFormed L rule.conditions := allMatchable_iff.mp ht rule hrule
      have hfits : AllWellFormed L r.conditions ↔ ∀ conditions ∈ e.payload.conditions.join,
          ∀ c ∈ rule.conditions, ¬ c.Deleted → ∀ u, updatedConditionsMap conditions c.id = some u →
            Suits L u c := by
        obtain hnone | ⟨conditions, hsome, -, hvalid⟩ := validateParameters_conditions hvalid
        · rw [editedConditions, hnone] at hconditions
          rw [← Except.ok.inj hconditions, hnone]
          exact iff_of_true hwell fun _ h => absurd h (Option.not_mem_none _)
        · rw [editedConditions, hsome] at hconditions
          rw [allWellFormed_updated E.now_pos hwell hvalid hconditions, hsome]
          exact ⟨fun h cs hcs => (Option.some.inj hcs) ▸ h, fun h => h conditions rfl⟩
      constructor
      · intro hgives rule' hget'
        obtain rfl := Except.ok.inj (hget.symm.trans hget')
        exact hfits.mp (hgives rule hget _ hconditions)
      · intro hall rule' hget' stored hstored
        obtain rfl := Except.ok.inj (hget.symm.trans hget')
        obtain rfl := Except.ok.inj (hconditions.symm.trans hstored)
        exact hfits.mpr (hall rule hget)
    | updatePriority ruleId action => exact Iff.rfl
    | delete itemId => exact Iff.rfl
  · intro now cs hnow hcs c hc hlive
    obtain ⟨c₀, hc₀, rfl⟩ := List.mem_map.mp hc
    split at hlive
    · exact absurd ‹_› hlive
    · exact absurd hnow.ne' hlive

/-- **Conditions can be built and matched throughout a run exactly when every edit of the run fits.** -/
theorem allMatchable_iff_fits {calls : List (Env × Call)} (ht : AllMatchable L t) :
    Always (step L) (AllMatchable L) t calls ↔ Along (step L) (fun t c _ => c.2.Fits L t) t calls :=
  always_iff_along (fun _ c _ ht h => allMatchable_step (c := c) ht h) ht

/-- A rule on resources without a region. -/
def regionCreation : Creation where
  userId := none
  organizationId := 5
  payload := {
    name := some (some "rule".toList)
    poolId := some (some 3)
    ownerId := some (some 2)
    conditions := some (some [{ type := some (some "region_is"), metaInfo := some none }]) }

/-- An edit that gives the condition a type only. -/
def typeEdit : Edit where
  itemId := 1
  payload := { conditions := some (some [{ id := some (some 1), type := some (some "name_is") }]) }

/-- A new rule can be matched. -/
theorem allMatchable_iff_fits_created :
    AllMatchable plainReading Table.empty ∧ Always (step plainReading) (AllMatchable plainReading)
      Table.empty [(quietEnv, .create regionCreation)] :=
  ⟨fun _ hr => absurd hr List.not_mem_nil,
    (allMatchable_iff_fits fun _ hr => absurd hr List.not_mem_nil).mpr fun _ _ => ⟨trivial, trivial⟩⟩

/-- The rule that cannot be built. -/
def brokenRule : StoredRule where
  id := 1
  name := "rule".toList
  priority := 1
  creatorId := 2
  organizationId := 5
  poolId := 3
  ownerId := 2
  conditions := [{ id := 1, type := .NAME_IS, metaInfo := none }]

/-- **An edit can store a condition that cannot be built**: a condition on the region, whose `meta_info`
may be null, becomes one on the name. -/
theorem exists_condition_not_matchable :
    ¬ ∀ calls, Always (step plainReading) (AllMatchable plainReading) Table.empty calls := by
  intro h
  have hrun : run (step plainReading) Table.empty
      [(quietEnv, .create regionCreation), (quietEnv, .edit typeEdit)] =
        some ⟨[brokenRule], by decide⟩ := rfl
  have hbroken := (h _).last hrun brokenRule (by decide) _ List.mem_cons_self (by decide)
  exact matchable_iff.mp hbroken rfl

/-! ## What it is for -/

/-- **Rules whose conditions can be matched** are built, and say of every resource whether they match. -/
theorem AllMatchable.matchAll (ht : AllMatchable L t) {r : StoredRule} (hr : r ∈ t.rows) :
    ∃ built, convertedConditions L r.conditions = .ok built ∧
      ∀ operator res, ∃ b, RuleConditions.matchAll L operator res built = .ok b := by
  have hlive : ∀ c ∈ r.conditions.filter fun c => ¬ c.Deleted, Matchable L c.type c.metaInfo := by
    intro c hc
    obtain ⟨hc, hdel⟩ := List.mem_filter.mp hc
    exact ht r hr c hc (of_decide_eq_true hdel)
  obtain ⟨built, hbuilt⟩ := mapM_ok.mpr fun c hc => by
    obtain ⟨b, hb, -⟩ := hlive c hc
    exact ⟨b, hb⟩
  refine ⟨built, hbuilt, fun operator res => ?_⟩
  have hmatches : ∀ condition ∈ built, ∃ b, condition.matches L res = .ok b := by
    intro condition hcondition
    obtain ⟨c, hc, hb⟩ := (mem_of_mapM_eq_ok hbuilt condition).mp hcondition
    obtain ⟨b, hb', hall⟩ := hlive c hc
    obtain rfl := Except.ok.inj (hb.symm.trans hb')
    exact hall res
  clear hbuilt
  induction built with
  | nil => exact ⟨_, rfl⟩
  | cons condition rest ih =>
    obtain ⟨b, hb⟩ := hmatches condition List.mem_cons_self
    obtain ⟨b', hb'⟩ := ih fun c hc => hmatches c (List.mem_cons_of_mem _ hc)
    rw [RuleConditions.matchAll, hb, ok_bind]
    split
    · exact ⟨_, rfl⟩
    · split
      · exact ⟨_, rfl⟩
      · exact ⟨_, hb'⟩

end OrganizationRules
