import OptScale.Rules.Stored

/-!
# Rules/Conditioned — rules that are left without a condition

A rule of the operator `and` without conditions matches every resource.  A rule is created with a
condition, but an edit deletes what its request does not name, and a request that names only what is not
there, or was deleted before, is no empty request.
-/

open Fallible RuleConditions Run

namespace OrganizationRules

variable {L : Reading} {E : Env} {t t' : Rules}

/-! ## The conditions an edit leaves -/

theorem prepareCondition_eq_ok {id : Uuid} {p : ConditionPayload} {c : StoredCondition} :
    prepareCondition id p = .ok c ↔ ∃ value type metaInfo, p.type = some (some value) ∧ value ≠ "" ∧
      ofValue value = some type ∧ p.metaInfo = some metaInfo ∧ (metaInfo ≠ none ∨ type = .REGION_IS) ∧
      c = { id, type, metaInfo } := by
  simp only [prepareCondition, bind_eq_ok, orFail_eq_ok, require_eq_ok, pure_eq_ok,
    Option.filter_eq_some_iff, Option.join_eq_some_iff, decide_eq_true_eq]
  constructor
  · rintro ⟨value, ⟨hvalue, hne⟩, type, htype, metaInfo, hmeta, _, hnull, rfl⟩
    exact ⟨value, type, metaInfo, hvalue, hne, htype, hmeta, hnull, rfl⟩
  · rintro ⟨value, type, metaInfo, hvalue, hne, htype, hmeta, hnull, rfl⟩
    exact ⟨value, ⟨hvalue, hne⟩, type, htype, metaInfo, hmeta, (), hnull, rfl⟩

/-- New conditions come from the request one by one. -/
theorem prepareConditions_eq_ok {genId : IdSource} {ps : List ConditionPayload} :
    ∀ {used : List Uuid} {cs : List StoredCondition}, prepareConditions genId used ps = .ok cs →
      (cs = [] ↔ ps = []) ∧ ∀ c ∈ cs, ∃ id, ∃ p ∈ ps, prepareCondition id p = .ok c := by
  induction ps with
  | nil =>
    intro used cs h
    obtain rfl := Except.ok.inj h
    exact ⟨iff_of_true rfl rfl, fun c hc => absurd hc List.not_mem_nil⟩
  | cons p ps ih =>
    intro used cs h
    simp only [prepareConditions, bind_eq_ok, pure_eq_ok] at h
    obtain ⟨c, hc, rest, hrest, rfl⟩ := h
    refine ⟨iff_of_false (List.cons_ne_nil _ _) (List.cons_ne_nil _ _), fun d hd => ?_⟩
    obtain rfl | hd := List.mem_cons.mp hd
    · exact ⟨_, p, List.mem_cons_self, hc⟩
    · obtain ⟨id, q, hq, hd⟩ := (ih hrest).2 d hd
      exact ⟨id, q, List.mem_cons_of_mem _ hq, hd⟩

theorem updatedConditionsMap_isSome {conditions : List ConditionPayload} {id : Uuid} :
    (updatedConditionsMap conditions id).isSome ↔ ∃ u ∈ conditions, u.id = some (some id) := by
  simp [updatedConditionsMap]

/-- **A stored condition** is deleted, or overwritten by what the request says of it. -/
theorem updateCondition_eq_ok {now : ℕ} {conditions : List ConditionPayload}
    {c c' : StoredCondition} (h : updateCondition now conditions c = .ok c') :
    (updatedConditionsMap conditions c.id = none ∧ c' = { c with deletedAt := now }) ∨
      ∃ u, updatedConditionsMap conditions c.id = some u ∧
        (u.type = none ∧ c'.type = c.type ∨ ∃ value, u.type = some (some value) ∧
          ofValue value = some c'.type) ∧
        (u.metaInfo = none ∧ c'.metaInfo = c.metaInfo ∨ u.metaInfo = some c'.metaInfo ∧
          (c'.metaInfo ≠ none ∨ c'.type = .REGION_IS)) ∧
        c'.id = c.id ∧ c'.deletedAt = c.deletedAt := by
  unfold updateCondition at h
  split at h
  · rename_i hnone
    exact Or.inl ⟨hnone, (Except.ok.inj h).symm⟩
  · rename_i u hu
    simp only [bind_eq_ok, pure_eq_ok] at h
    obtain ⟨type, htype, metaInfo, hmeta, rfl⟩ := h
    refine Or.inr ⟨u, hu, ?_, ?_, rfl, rfl⟩
    · split at htype
      · rename_i hnone
        exact Or.inl ⟨hnone, (Except.ok.inj htype).symm⟩
      · rename_i value hvalue
        obtain ⟨v, rfl, hv⟩ := Option.bind_eq_some_iff.mp (orFail_eq_ok.mp htype)
        exact Or.inr ⟨v, hvalue, hv⟩
    · split at hmeta
      · rename_i hnone
        exact Or.inl ⟨hnone, (Except.ok.inj hmeta).symm⟩
      · rename_i m hm
        simp only [bind_eq_ok, require_eq_ok] at hmeta
        obtain ⟨_, hnull, hmeta⟩ := hmeta
        obtain rfl := Except.ok.inj hmeta
        exact Or.inr ⟨hm, hnull⟩

/-- **A condition is left** where the request has a new one, or names one that is there. -/
theorem exists_condition_iff {genId : IdSource} {now : ℕ} (hnow : 0 < now) {used : List Uuid}
    {original stored : List StoredCondition} {conditions : List ConditionPayload}
    (h : processConditionsUpdate genId now used original conditions = .ok stored) :
    (∃ c ∈ stored, ¬ c.Deleted) ↔ (∃ u ∈ conditions, u.id = none) ∨
      ∃ c ∈ original, ¬ c.Deleted ∧ ∃ u ∈ conditions, u.id = some (some c.id) := by
  simp only [processConditionsUpdate, bind_eq_ok, pure_eq_ok] at h
  obtain ⟨updated, hupdated, new, hnew, rfl⟩ := h
  obtain ⟨hempty, hmem⟩ := prepareConditions_eq_ok hnew
  have hnewLive : ∀ c ∈ new, ¬ c.Deleted := by
    intro c hc
    obtain ⟨id, p, -, hp⟩ := hmem c hc
    obtain ⟨_, _, _, -, -, -, -, -, rfl⟩ := prepareCondition_eq_ok.mp hp
    exact fun h => h rfl
  have hnewIff : (∃ c ∈ new, ¬ c.Deleted) ↔ ∃ u ∈ conditions, u.id = none := by
    constructor
    · rintro ⟨c, hc, -⟩
      obtain ⟨_, p, hp, -⟩ := hmem c hc
      exact ⟨p, (List.mem_filter.mp hp).1, by simpa using (List.mem_filter.mp hp).2⟩
    · rintro ⟨u, hu, hid⟩
      have hne : new ≠ [] := fun h => List.ne_nil_of_mem
        (List.mem_filter.mpr ⟨hu, decide_eq_true hid⟩) (hempty.mp h)
      exact ⟨_, List.head_mem hne, hnewLive _ (List.head_mem hne)⟩
  have hupdatedIff : (∃ c ∈ updated, ¬ c.Deleted) ↔
      ∃ c ∈ original, ¬ c.Deleted ∧ ∃ u ∈ conditions, u.id = some (some c.id) := by
    constructor
    · rintro ⟨c', hc', hlive⟩
      obtain ⟨c, hc, hup⟩ := (mem_of_mapM_eq_ok hupdated c').mp hc'
      obtain ⟨-, rfl⟩ | ⟨u, hu, -, -, -, hdel⟩ := updateCondition_eq_ok hup
      · exact absurd hnow.ne' hlive
      · refine ⟨c, hc, fun h => hlive (hdel.trans_ne h), ?_⟩
        exact updatedConditionsMap_isSome.mp (Option.isSome_of_eq_some hu)
    · rintro ⟨c, hc, hlive, hnamed⟩
      obtain ⟨c', hup⟩ := (mapM_ok.mp ⟨updated, hupdated⟩) c hc
      refine ⟨c', (mem_of_mapM_eq_ok hupdated c').mpr ⟨c, hc, hup⟩, ?_⟩
      obtain ⟨hnone, -⟩ | ⟨u, -, -, -, -, hdel⟩ := updateCondition_eq_ok hup
      · have hsome := updatedConditionsMap_isSome.mpr hnamed
        rw [hnone] at hsome
        cases hsome
      · exact fun h => hlive (hdel.symm.trans_ne h)
  simp only [List.mem_append, or_and_right, exists_or, hnewIff, hupdatedIff]
  exact Or.comm

/-! ## Runs -/

/-- Every live rule has a live condition. -/
def HasCondition (t : Rules) : Prop :=
  ∀ r ∈ t.rows, ¬ r.Deleted → ∃ c ∈ r.conditions, ¬ c.Deleted

/-- **An edit that leaves a condition**: it gives none, or a new one, or it names one that is live. -/
def Edit.LeavesCondition (e : Edit) (t : Rules) : Prop :=
  ∀ rule, get t e.itemId = .ok rule → ∀ conditions ∈ e.payload.conditions.join,
    (∃ u ∈ conditions, u.id = none) ∨
      ∃ c ∈ rule.conditions, ¬ c.Deleted ∧ ∃ u ∈ conditions, u.id = some (some c.id)

/-- Only an edit can leave none. -/
def Call.LeavesCondition (t : Rules) : Call → Prop
  | .edit e => e.LeavesCondition t
  | _ => True

theorem hasCondition_iff :
    HasCondition t ↔ AllRules (fun d cs => d = 0 → ∃ c ∈ cs, ¬ c.Deleted) t :=
  forall₂_congr fun _ _ => ⟨fun h hd => h (fun hne => hne hd), fun h hd => h (not_not.mp hd)⟩

/-- **A request that is accepted** gives no conditions, or a list that is not empty. -/
theorem validateParameters_conditions {loads : Text → Option JsonValue} {p : RulePayload} {u : Unit}
    (h : validateParameters loads p = .ok u) : p.conditions = none ∨
      ∃ conditions, p.conditions = some (some conditions) ∧ conditions ≠ [] ∧
        ∀ c ∈ conditions, validateConditionData loads c = .ok () := by
  simp only [validateParameters, bind_eq_ok, require_eq_ok] at h
  obtain ⟨_, -, _, hne, _, -, _, -, _, -, h⟩ := h
  split at h
  · rename_i hnone
    exact Or.inl hnone
  · rename_i given hgiven
    simp only [bind_eq_ok, orFail_eq_ok] at h
    obtain ⟨conditions, rfl, h⟩ := h
    rw [hgiven] at hne
    exact Or.inr ⟨conditions, hgiven, hne conditions rfl, forM_eq_ok.mp h⟩

/-- **One call.** -/
theorem hasCondition_step {c : Env × Call} (ht : HasCondition t) (h : step L t c = some t') :
    HasCondition t' ↔ c.2.LeavesCondition t := by
  rw [hasCondition_iff, allRules_step (fun now cs hnow _ hd => absurd hd hnow.ne')
    (hasCondition_iff.mp ht) h]
  obtain ⟨E, call⟩ := c
  cases call with
  | create c =>
    obtain ⟨r, hrun⟩ := step_eq_some h
    obtain ⟨conditions, _, _, _, hgiven, hne, -⟩ := createRule_eq_ok hrun
    refine iff_of_true (fun cs hcs stored hstored _ => ?_) trivial
    obtain rfl := Option.some.inj (hgiven.symm.trans hcs)
    obtain ⟨hempty, hmem⟩ := prepareConditions_eq_ok hstored
    have hnew : stored ≠ [] := fun h => hne (hempty.mp h)
    obtain ⟨id, p, -, hp⟩ := hmem _ (List.head_mem hnew)
    obtain ⟨_, _, _, -, -, -, -, -, hc⟩ := prepareCondition_eq_ok.mp hp
    exact ⟨_, List.head_mem hnew, fun hd => hd (congrArg StoredCondition.deletedAt hc)⟩
  | edit e =>
    obtain ⟨r, hrun⟩ := step_eq_some h
    obtain ⟨rule, _, hget, hvalid, -, hconditions, -⟩ := editRule_eq_ok hrun
    obtain ⟨hrule, -, hlive⟩ := get_eq_ok.mp hget
    have hhas := ht rule hrule fun hd => hd hlive
    -- the conditions stored are those the edit finds, or those it makes of them
    have hcond : (∃ c ∈ r.conditions, ¬ c.Deleted) ↔ ∀ conditions ∈ e.payload.conditions.join,
        (∃ u ∈ conditions, u.id = none) ∨
          ∃ c ∈ rule.conditions, ¬ c.Deleted ∧ ∃ u ∈ conditions, u.id = some (some c.id) := by
      obtain hnone | ⟨conditions, hsome, -⟩ := validateParameters_conditions hvalid
      · rw [editedConditions, hnone] at hconditions
        rw [← Except.ok.inj hconditions, hnone]
        exact iff_of_true hhas fun _ h => absurd h (Option.not_mem_none _)
      · rw [editedConditions, hsome] at hconditions
        rw [exists_condition_iff E.now_pos hconditions, hsome]
        exact ⟨fun h cs hcs => (Option.some.inj hcs) ▸ h, fun h => h conditions rfl⟩
    constructor
    · intro hgives rule' hget'
      obtain rfl := Except.ok.inj (hget.symm.trans hget')
      exact hcond.mp (hgives rule hget _ hconditions rfl)
    · intro hleaves rule' hget' stored hstored _
      obtain rfl := Except.ok.inj (hget.symm.trans hget')
      obtain rfl := Except.ok.inj (hconditions.symm.trans hstored)
      exact hcond.mpr (hleaves rule hget)
  | updatePriority ruleId action => exact Iff.rfl
  | delete itemId => exact Iff.rfl

/-- **Rules keep a condition over a run exactly when every edit of the run leaves one.** -/
theorem hasCondition_iff_leaves {calls : List (Env × Call)} (ht : HasCondition t) :
    Always (step L) HasCondition t calls ↔ Along (step L) (fun t c _ => c.2.LeavesCondition t) t calls :=
  always_iff_along (fun _ c _ ht h => hasCondition_step (c := c) ht h) ht

/-- An organization with an employee and a pool. -/
def quietEnv : Env where
  genId := .successor
  now := 1
  now_pos := Nat.one_pos
  collation := { equal := fun a b => a = b, same := fun a b => a = b }
  organization _ := true
  organizationPool _ := some 3
  employeeByUser _ _ := some { id := 2, name := "employee", authUserId := 4 }
  employee _ _ := some { id := 2, name := "employee", authUserId := 4 }
  liveEmployee _ := true
  defaultOwner _ := none
  userId := .ok none
  authorizeUserList _ _ := .ok true
  publish _ := .ok ()
  pool _ := some 5

/-- Text read as it is, where no text is a document. -/
def plainReading : Reading where
  lower := id
  loads _ := none

/-- A rule with one condition on the name. -/
def namedCreation : Creation where
  userId := none
  organizationId := 5
  payload := {
    name := some (some "rule".toList)
    poolId := some (some 3)
    ownerId := some (some 2)
    conditions := some (some [
      { type := some (some "name_is"), metaInfo := some (some "name".toList) }]) }

/-- An edit whose only condition bears an id that no condition has. -/
def unknownIdEdit : Edit where
  itemId := 1
  payload := { conditions := some (some [{ id := some (some 999) }]) }

/-- The rule that is left. -/
def ruleWithoutCondition : StoredRule where
  id := 1
  name := "rule".toList
  priority := 1
  creatorId := 2
  organizationId := 5
  poolId := 3
  ownerId := 2
  conditions := [{ id := 1, type := .NAME_IS, metaInfo := some "name".toList, deletedAt := 1 }]

/-- **An edit can leave a rule without a condition**: the request is not empty, but what it names is not
there, so the only condition is deleted and the rule matches everything. -/
theorem exists_rule_without_condition :
    ¬ ∀ calls, Always (step plainReading) HasCondition Table.empty calls := by
  intro h
  have hrun : run (step plainReading) Table.empty
      [(quietEnv, .create namedCreation), (quietEnv, .edit unknownIdEdit)] = some ⟨[ruleWithoutCondition], by decide⟩ := rfl
  obtain ⟨c, hc, hlive⟩ := (h _).last hrun ruleWithoutCondition (by decide) (by decide)
  obtain rfl := List.mem_singleton.mp hc
  exact hlive (by decide)

/-- A rule is created with a condition. -/
theorem hasCondition_iff_leaves_created :
    HasCondition Table.empty ∧
      Always (step plainReading) HasCondition Table.empty [(quietEnv, .create namedCreation)] :=
  ⟨fun _ hr => absurd hr List.not_mem_nil,
    (hasCondition_iff_leaves fun _ hr => absurd hr List.not_mem_nil).mpr fun _ _ => ⟨trivial, trivial⟩⟩

/-- A rule of the operator `and` that has no condition matches every resource. -/
theorem matchAll_of_no_condition {conditions : List StoredCondition}
    (hnone : ¬ ∃ c ∈ conditions, ¬ c.Deleted) (res : ResInfo) :
    (do let built ← convertedConditions L conditions; matchAll L .AND res built) = .ok true := by
  have hfilter : conditions.filter (fun c => ¬ c.Deleted) = [] :=
    List.filter_eq_nil_iff.mpr fun c hc hlive => hnone ⟨c, hc, of_decide_eq_true hlive⟩
  rw [convertedConditions, hfilter]
  rfl

end OrganizationRules
