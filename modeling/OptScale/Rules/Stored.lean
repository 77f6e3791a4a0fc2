import OptScale.Foundations.Run
import OptScale.Rules.Editing

/-!
# Rules/Stored — what a call of `RuleController` stores

One statement for each call, and from these how a property of conditions is kept over a run
(`allRules_step`): it is decided by the conditions of the rule that the call creates or edits.
-/

open Fallible RuleConditions PriorityMixin

namespace OrganizationRules

variable {L : Reading} {E : Env} {t t' : Rules} {r rule : StoredRule}

/-! ## The calls -/

theorem get_eq_ok {itemId : Uuid} :
    get t itemId = .ok r ↔ r ∈ t.rows ∧ r.id = itemId ∧ r.deletedAt = 0 := by
  simp only [get, orFail_eq_ok, Option.filter_eq_some_iff, Table.get?_eq_some, decide_eq_true_eq,
    ne_eq, not_not, and_assoc]

/-- **What `create_rule` stores**: a rule with the conditions of the request, beside the others moved. -/
theorem createRule_eq_ok {c : Creation} (h : createRule L E c t = (.ok rule, t')) :
    ∃ conditions updates t₁, ∃ hnew : rule.id ∉ t₁.rows.map StoredRule.id,
      c.payload.conditions.join = some conditions ∧ conditions ≠ [] ∧
      validateParameters L.loads c.payload = .ok () ∧
      prepareConditions E.genId (conditionIds t) conditions = .ok rule.conditions ∧
      setPriority "Rule" (allItems ruleModel t c.organizationId ++
        [⟨rule.id, (allItems ruleModel t c.organizationId).length + 1⟩]) rule.id rule.priority =
          .ok updates ∧
      updateAll ruleModel t updates = .ok t₁ ∧ rule.id ∉ t.rows.map StoredRule.id ∧
      rule.organizationId = c.organizationId ∧ rule.deletedAt = 0 ∧ t' = t₁.add rule hnew := by
  simp only [createRule, Session.bind_eq_ok, Session.read_eq_ok, Session.commit_eq_ok] at h
  obtain ⟨_, _, ⟨hvalid, rfl⟩, employee, _, ⟨-, rfl⟩, stored, t₂, hcommit, _, _, ⟨-, rfl⟩, h⟩ := h
  obtain ⟨rfl, rfl⟩ := Session.pure_eq_ok.mp h
  simp only [bind_eq_ok, require_eq_ok] at hcommit
  obtain ⟨⟨t₁, rule, owner⟩, hprepared, _, -, _, -, hinsert⟩ := hcommit
  simp only [insertRule, bind_eq_ok, require_eq_ok] at hinsert
  obtain ⟨_, -, hinsert⟩ := hinsert
  split at hinsert
  · cases hinsert
  rename_i hnew
  obtain ⟨rfl, rfl⟩ := Prod.mk.inj (Except.ok.inj hinsert)
  simp only [prepareRuleData, bind_eq_ok, orFail_eq_ok, pure_eq_ok, Prod.mk.injEq] at hprepared
  obtain ⟨_, -, _, -, _, -, _, -, _, -, _, -, conditions, hconditions, updates, hupdates, t₂, hmoved,
    prepared, hstored, rfl, rfl, -⟩ := hprepared
  obtain ⟨hgiven, hne⟩ := Option.filter_eq_some_iff.mp hconditions
  exact ⟨conditions, updates, _, hnew, hgiven, of_decide_eq_true hne, hvalid, hstored, hupdates,
    hmoved, E.genId.next_not_mem _, rfl, rfl, rfl⟩

/-- **What `edit_rule` stores**: the rule it is about, overwritten in the table of the rules moved. -/
theorem editRule_eq_ok {e : Edit} (h : editRule L E e t = (.ok r, t')) :
    ∃ rule t₁, get t e.itemId = .ok rule ∧ validateParameters L.loads e.payload = .ok () ∧
      editedPriority t rule e.payload = .ok t₁ ∧
      editedConditions E t rule e.payload = .ok r.conditions ∧
      t' = t₁.updateWhere (fun q => q.id = rule.id) (overwrite r) fun _ => rfl := by
  simp only [editRule, Session.bind_eq_ok, Session.read_eq_ok, Session.commit_eq_ok] at h
  obtain ⟨rule, _, ⟨hget, rfl⟩, _, _, ⟨hvalid, rfl⟩, edited, t₂, hcommit, _, _, ⟨-, rfl⟩, h⟩ := h
  obtain ⟨rfl, rfl⟩ := Session.pure_eq_ok.mp h
  simp only [storeEdit, processRuleFieldsUpdate, bind_eq_ok, pure_eq_ok, Prod.mk.injEq] at hcommit
  obtain ⟨updated, ⟨_, -, t₁, hmoved, _, -, _, -, _, -, rfl⟩, conditions, hconditions, rfl, rfl⟩ :=
    hcommit
  exact ⟨rule, t₁, hget, hvalid, hmoved, hconditions, rfl⟩

/-- What `update_priority` stores. -/
theorem updatePriority_eq_ok {ruleId : Uuid} {action : Option String}
    (h : updatePriority ruleId action t = (.ok r, t')) :
    ∃ updates, get t ruleId = .ok r ∧
      changePriority "Rule" action ⟨r.id, r.priority⟩ (allItems ruleModel t r.organizationId) =
        .ok updates ∧ updateAll ruleModel t updates = .ok t' := by
  simp only [updatePriority, Session.bind_eq_ok, Session.read_eq_ok, Session.commit_eq_ok,
    bind_eq_ok, pure_eq_ok, Prod.mk.injEq] at h
  obtain ⟨rule, _, ⟨hget, rfl⟩, updates, hchange, t₁, hmoved, rfl, rfl⟩ := h
  exact ⟨updates, hget, hchange, hmoved⟩

/-- What `delete` stores: the rule marked, in the table with the rule moved to the end. -/
theorem delete_eq_ok {itemId : Uuid} (h : delete E itemId t = (.ok r, t')) :
    ∃ t₁, get t itemId = .ok r ∧
      (if r.priority = (allItems ruleModel t r.organizationId).length then .ok t
        else do
          let updates ← setPriority "Rule" (allItems ruleModel t r.organizationId) r.id
            (allItems ruleModel t r.organizationId).length
          updateAll ruleModel t updates : Except Failure Rules) = .ok t₁ ∧
      t' = t₁.updateWhere (fun q => q.id = r.id) (markDeleted E.now) fun _ => rfl := by
  simp only [delete, Session.bind_eq_ok, Session.read_eq_ok, Session.commit_eq_ok] at h
  obtain ⟨rule, _, ⟨hget, rfl⟩, _, t₂, hcommit, _, _, ⟨-, rfl⟩, h⟩ := h
  obtain ⟨rfl, rfl⟩ := Session.pure_eq_ok.mp h
  simp only [storeDeletion, bind_eq_ok, require_eq_ok, pure_eq_ok, Prod.mk.injEq] at hcommit
  obtain ⟨t₁, hmoved, _, -, -, rfl⟩ := hcommit
  exact ⟨t₁, hget, hmoved, rfl⟩

theorem step_eq_some {c : Env × Call} (h : step L t c = some t') :
    ∃ r, c.2.run L c.1 t = (.ok r, t') := by
  unfold step at h
  split at h
  · rename_i r t₁ hrun
    obtain rfl := Option.some.inj h
    exact ⟨r, hrun⟩
  · cases h

/-! ## Conditions over a run -/

/-- What is not about priorities, of a rule. -/
def marked (r : StoredRule) : Uuid × ℕ × List StoredCondition := (r.id, r.deletedAt, r.conditions)

/-- Every rule has conditions with the property, which may ask whether the rule is deleted. -/
def AllRules (Q : ℕ → List StoredCondition → Prop) (t : Rules) : Prop :=
  ∀ r ∈ t.rows, Q r.deletedAt r.conditions

variable {Q : ℕ → List StoredCondition → Prop}

theorem allRules_iff : AllRules Q t ↔ ∀ x ∈ t.rows.map marked, Q x.2.1 x.2.2 := by
  rw [List.forall_mem_map]
  rfl

/-- Rules with one id are one rule, moved or not. -/
theorem forall_mem_iff {S : Uuid → Prop} (hmarked : t'.rows.map marked = t.rows.map marked) :
    (∀ q ∈ t'.rows, S q.id → Q q.deletedAt q.conditions) ↔
      ∀ q ∈ t.rows, S q.id → Q q.deletedAt q.conditions := by
  have hread (u : Rules) : (∀ q ∈ u.rows, S q.id → Q q.deletedAt q.conditions) ↔
      ∀ x ∈ u.rows.map marked, S x.1 → Q x.2.1 x.2.2 := by
    rw [List.forall_mem_map]
    rfl
  rw [hread, hread, hmarked]

/-- **One rule changed**: a table whose rules have the property still has it exactly when the changed
rule does. -/
theorem allRules_updateWhere {t₁ : Rules} (ht : AllRules Q t) (hrule : rule ∈ t.rows)
    (hmarked : t₁.rows.map marked = t.rows.map marked) {f : StoredRule → StoredRule}
    {k : ∀ q, (f q).id = q.id} {d : ℕ} {c : List StoredCondition}
    (hchange : ∀ q ∈ t₁.rows, marked q = marked rule → marked (f q) = (q.id, d, c)) :
    AllRules Q (t₁.updateWhere (fun q => q.id = rule.id) f k) ↔ Q d c := by
  have hsame : ∀ q ∈ t₁.rows, q.id = rule.id → marked q = marked rule := by
    intro q hq hid
    have hmem : marked q ∈ t.rows.map marked := hmarked ▸ List.mem_map_of_mem hq
    obtain ⟨q', hq', hqq'⟩ := List.mem_map.mp hmem
    have hid' : q'.id = q.id := congrArg Prod.fst hqq'
    rw [← hqq', t.eq_of_key hq' hrule (hid'.trans hid)]
  have hothers : ∀ q ∈ t₁.rows, q.id ≠ rule.id → Q q.deletedAt q.conditions :=
    (forall_mem_iff (S := fun i => i ≠ rule.id) hmarked).mpr fun q hq _ => ht q hq
  have hmem : marked rule ∈ t₁.rows.map marked := hmarked ▸ List.mem_map_of_mem hrule
  obtain ⟨q₀, hq₀, hq₀r⟩ := List.mem_map.mp hmem
  have hafter : ∀ q ∈ t₁.rows, q.id = rule.id → (f q).deletedAt = d ∧ (f q).conditions = c := by
    intro q hq hid
    have h := hchange q hq (hsame q hq hid)
    exact ⟨congrArg (fun x => x.2.1) h, congrArg (fun x => x.2.2) h⟩
  constructor
  · intro h
    have hid : q₀.id = rule.id := congrArg Prod.fst hq₀r
    have hQ := h (f q₀) (Table.mem_updateWhere.mpr ⟨q₀, hq₀, if_pos (decide_eq_true hid)⟩)
    rwa [(hafter q₀ hq₀ hid).1, (hafter q₀ hq₀ hid).2] at hQ
  · intro h q' hq'
    obtain ⟨q, hq, rfl⟩ := Table.mem_updateWhere.mp hq'
    by_cases hid : q.id = rule.id
    · rw [if_pos (decide_eq_true hid), (hafter q hq hid).1, (hafter q hq hid).2]
      exact h
    · rw [if_neg (by simpa using hid)]
      exact hothers q hq hid

theorem editedPriority_map {p : RulePayload} (h : editedPriority t rule p = .ok t') :
    t'.rows.map marked = t.rows.map marked := by
  unfold editedPriority at h
  split at h
  · rw [Except.ok.inj h]
  · split at h
    · rw [Except.ok.inj h]
    · obtain ⟨updates, -, h⟩ := bind_eq_ok.mp h
      exact updateAll_map (fun _ _ => rfl) h

/-- What a call gives a rule: the conditions it creates it with, or edits it to. -/
def Call.Gives (Q : ℕ → List StoredCondition → Prop) (E : Env) (t : Rules) : Call → Prop
  | .create c => ∀ conditions ∈ c.payload.conditions.join, ∀ stored,
      prepareConditions E.genId (conditionIds t) conditions = .ok stored → Q 0 stored
  | .edit e => ∀ rule, get t e.itemId = .ok rule → ∀ stored,
      editedConditions E t rule e.payload = .ok stored → Q 0 stored
  | .updatePriority _ _ => True
  | .delete _ => True

/-- **A property of conditions that deleting keeps** is kept by a call exactly when the call gives it. -/
theorem allRules_step (hdelete : ∀ now cs, 0 < now → Q 0 cs →
      Q now (cs.map fun c => if c.Deleted then c else { c with deletedAt := now }))
    {c : Env × Call} (ht : AllRules Q t) (h : step L t c = some t') :
    AllRules Q t' ↔ c.2.Gives Q c.1 t := by
  obtain ⟨E, call⟩ := c
  obtain ⟨r, hrun⟩ := step_eq_some h
  cases call with
  | create c =>
    obtain ⟨conditions, updates, t₁, hnew, hgiven, -, -, hstored, -, hmoved, -, -, hlive, rfl⟩ :=
      createRule_eq_ok hrun
    have hmarked := updateAll_map (f := marked) (fun _ _ => rfl) hmoved
    have hothers : AllRules Q t₁ := allRules_iff.mpr (hmarked ▸ allRules_iff.mp ht)
    have hQ : AllRules Q (t₁.add r hnew) ↔ Q 0 r.conditions := by
      constructor
      · exact fun hall => hlive ▸ hall r (Table.mem_add.mpr (Or.inr rfl))
      · intro hQ q hq
        obtain hq | rfl := Table.mem_add.mp hq
        · exact hothers q hq
        · rw [hlive]
          exact hQ
    rw [hQ]
    constructor
    · intro hQ cs hcs stored hs
      obtain rfl := Option.some.inj (hgiven.symm.trans hcs)
      rwa [← Except.ok.inj (hstored.symm.trans hs)]
    · exact fun hgives => hgives conditions hgiven _ hstored
  | edit e =>
    obtain ⟨rule, t₁, hget, -, hmoved, hconditions, rfl⟩ := editRule_eq_ok hrun
    obtain ⟨hrule, -, hlive⟩ := get_eq_ok.mp hget
    have hQ := allRules_updateWhere (d := 0) (c := r.conditions) (k := fun _ => rfl) ht hrule
      (editedPriority_map hmoved) (f := overwrite r) (fun q _ hq => by
        have hd : q.deletedAt = rule.deletedAt := congrArg (fun x => x.2.1) hq
        rw [marked, overwrite, hd, hlive])
    rw [hQ]
    constructor
    · intro hQ rule' hget' stored hs
      obtain rfl := Except.ok.inj (hget.symm.trans hget')
      rwa [← Except.ok.inj (hconditions.symm.trans hs)]
    · exact fun hgives => hgives rule hget _ hconditions
  | updatePriority ruleId action =>
    obtain ⟨updates, -, -, hmoved⟩ := updatePriority_eq_ok hrun
    have hmarked := updateAll_map (f := marked) (fun _ _ => rfl) hmoved
    exact iff_of_true (allRules_iff.mpr (hmarked ▸ allRules_iff.mp ht)) trivial
  | delete itemId =>
    obtain ⟨t₁, hget, hmoved, rfl⟩ := delete_eq_ok hrun
    obtain ⟨hrule, -, hlive⟩ := get_eq_ok.mp hget
    have hmarked : t₁.rows.map marked = t.rows.map marked := by
      split at hmoved
      · rw [Except.ok.inj hmoved]
      · obtain ⟨updates, -, hmoved⟩ := bind_eq_ok.mp hmoved
        exact updateAll_map (fun _ _ => rfl) hmoved
    have hQ := allRules_updateWhere (d := E.now) (k := fun _ => rfl) ht hrule hmarked
      (f := markDeleted E.now)
      (c := r.conditions.map fun c => if c.Deleted then c else { c with deletedAt := E.now })
      (fun q _ hq => by
        have hcs : q.conditions = r.conditions := congrArg (fun x => x.2.2) hq
        rw [marked, markDeleted, hcs])
    refine iff_of_true (hQ.mpr (hdelete _ _ E.now_pos ?_)) trivial
    have hQr := ht r hrule
    rwa [hlive] at hQr

end OrganizationRules
