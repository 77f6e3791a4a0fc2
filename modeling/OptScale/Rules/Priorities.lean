import OptScale.Rest.Ranked
import OptScale.Rules.Stored

/-!
# Rules/Priorities — the order of an organization's rules

Every call, accepted or refused, leaves the priorities of each organization's live rules at 1, 2, …, and all rules
but one in the order they were in.  So no statement that moves a rule meets the unique constraint, and a new rule
finds its priority free (`priorities_are_places`).
-/

open Fallible RuleConditions PriorityMixin
open Session (read_bind_end commit_bind_end commit_end)

namespace OrganizationRules

variable {L : Reading} {E : Env} {t t' : Rules}

/-! ## The calls -/

/-- **A new rule** is placed among the others. -/
theorem createRule_reordered (ht : ∀ o, Ranked ruleModel t o) (c : Creation) :
    Reordered ruleModel t (createRule L E c t).2 := by
  have hrefl : Reordered ruleModel t t := .refl ht
  refine read_bind_end hrefl fun _ _ => read_bind_end hrefl fun employee _ => commit_bind_end hrefl ?_
  intro rule t' hcommit
  simp only [bind_eq_ok, require_eq_ok] at hcommit
  obtain ⟨⟨t₁, prepared, owner⟩, hprepared, _, -, _, -, hinsert⟩ := hcommit
  simp only [insertRule, bind_eq_ok, require_eq_ok] at hinsert
  obtain ⟨_, -, hinsert⟩ := hinsert
  split at hinsert
  · cases hinsert
  rename_i hnew
  obtain ⟨rfl, rfl⟩ := Prod.mk.inj (Except.ok.inj hinsert)
  simp only [prepareRuleData, bind_eq_ok, orFail_eq_ok, pure_eq_ok, Prod.mk.injEq] at hprepared
  obtain ⟨_, -, _, -, _, -, _, -, _, -, _, -, _, -, updates, hupdates, t₂, hmoved, conditions, -, rfl, rfl, -⟩ :=
    hprepared
  have hreordered := Reordered.of_place ht (E.genId.next_not_mem _) rfl hupdates hmoved hnew
  exact read_bind_end hreordered fun _ _ => hreordered

/-- An edit of what is not about the order. -/
theorem allItems_overwrite {edited : StoredRule} {p : StoredRule → Bool} (o : Uuid) :
    allItems ruleModel (t.updateWhere p (overwrite edited) fun _ => rfl) o = allItems ruleModel t o := by
  have hlive : (live ruleModel (t.updateWhere p (overwrite edited) fun _ => rfl) o).map (placed ruleModel) =
      (live ruleModel t o).map (placed ruleModel) := by
    have hsame : ∀ r : StoredRule, placed ruleModel (if p r then overwrite edited r else r) = placed ruleModel r ∧
        (if p r then overwrite edited r else r).deletedAt = r.deletedAt ∧
        (if p r then overwrite edited r else r).organizationId = r.organizationId := by
      intro r
      split
      · exact ⟨rfl, rfl, rfl⟩
      · exact ⟨rfl, rfl, rfl⟩
    unfold live Table.updateWhere
    rw [List.filter_map, List.map_map]
    refine congr (congrArg List.map (funext fun r => (hsame r).1)) (List.filter_congr fun r _ => ?_)
    simp only [Function.comp_apply, ruleModel, (hsame r).2.1, (hsame r).2.2]
    rfl
  rw [allItems, hlive, allItems]

/-- **An edited rule** is moved, or stays. -/
theorem editRule_reordered (ht : ∀ o, Ranked ruleModel t o) (e : Edit) :
    Reordered ruleModel t (editRule L E e t).2 := by
  have hrefl : Reordered ruleModel t t := .refl ht
  refine read_bind_end hrefl fun rule _ => read_bind_end hrefl fun _ _ => commit_bind_end hrefl ?_
  intro edited t' hcommit
  simp only [storeEdit, processRuleFieldsUpdate, bind_eq_ok, pure_eq_ok, Prod.mk.injEq] at hcommit
  obtain ⟨updated, ⟨_, -, t₁, hmoved, _, -, _, -, _, -, rfl⟩, conditions, -, rfl, rfl⟩ := hcommit
  have hfirst : Reordered ruleModel t t₁ := by
    unfold editedPriority at hmoved
    split at hmoved
    · rw [← Except.ok.inj hmoved]
      exact hrefl
    · split at hmoved
      · rw [← Except.ok.inj hmoved]
        exact hrefl
      · obtain ⟨updates, hupdates, hmoved⟩ := bind_eq_ok.mp hmoved
        exact .of_move ht hupdates hmoved
  have hreordered : ∀ edited, Reordered ruleModel t
      (t₁.updateWhere (fun r => r.id = rule.id) (overwrite edited) fun _ => rfl) :=
    fun _ => hfirst.congr fun o => allItems_overwrite o
  exact read_bind_end (hreordered _) fun _ _ => hreordered _

/-- **A prioritized, promoted, demoted or deprioritized rule** is moved, or stays. -/
theorem updatePriority_reordered (ht : ∀ o, Ranked ruleModel t o) (ruleId : Uuid) (action : Option String) :
    Reordered ruleModel t (updatePriority ruleId action t).2 := by
  have hrefl : Reordered ruleModel t t := .refl ht
  refine read_bind_end hrefl fun rule _ => commit_end hrefl fun r t' hcommit => ?_
  simp only [bind_eq_ok, pure_eq_ok, Prod.mk.injEq] at hcommit
  obtain ⟨updates, hupdates, t₁, hmoved, rfl, rfl⟩ := hcommit
  exact .of_change ht hupdates hmoved

/-- **A deleted rule** leaves the others in their order. -/
theorem delete_reordered (ht : ∀ o, Ranked ruleModel t o) (itemId : Uuid) :
    Reordered ruleModel t (delete E itemId t).2 := by
  have hrefl : Reordered ruleModel t t := .refl ht
  refine read_bind_end hrefl fun rule hget => commit_bind_end hrefl fun r t' hcommit => ?_
  obtain ⟨hrule, -, hlive⟩ := get_eq_ok.mp hget
  simp only [storeDeletion, bind_eq_ok, require_eq_ok, pure_eq_ok, Prod.mk.injEq] at hcommit
  obtain ⟨t₁, hmoved, _, -, rfl, rfl⟩ := hcommit
  have hreordered : Reordered ruleModel t (t₁.updateWhere (fun q => q.id = rule.id) (markDeleted E.now) fun _ => rfl) :=
    .of_delete ht (mem_live.mpr ⟨hrule, hlive, rfl⟩) hmoved (fun _ => E.now_pos.ne') fun _ => rfl
  exact read_bind_end hreordered fun _ _ => hreordered

/-! ## Runs -/

/-- The table after a call, whether it is accepted or refused. -/
def after (L : Reading) (t : Rules) (c : Env × Call) : Option Rules := some (c.2.run L c.1 t).2

theorem after_reordered (ht : ∀ o, Ranked ruleModel t o) {c : Env × Call} (h : after L t c = some t') :
    Reordered ruleModel t t' := by
  obtain rfl := Option.some.inj h
  obtain ⟨E, call⟩ := c
  cases call with
  | create c => exact createRule_reordered ht c
  | edit e => exact editRule_reordered ht e
  | updatePriority ruleId action => exact updatePriority_reordered ht ruleId action
  | delete itemId => exact delete_reordered ht itemId

/-- **The priorities of an organization's live rules are the places 1, 2, … of one order**, after any calls, accepted
or refused; a call moves, places or takes out one rule and leaves the order of all others.  So the statements by which
rules are moved are all accepted. -/
theorem priorities_are_places (L : Reading) (calls : List (Env × Call)) :
    Run.Always (after L) (fun t => ∀ o, Ranked ruleModel t o ∧ Movable ruleModel t o) Table.empty calls ∧
      Run.Along (after L) (fun t _ t' => ∃ itemId, ∀ o,
        (order ruleModel t' o).erase itemId = (order ruleModel t o).erase itemId) Table.empty calls := by
  have hranked : Run.Always (after L) (fun t => ∀ o, Ranked ruleModel t o) Table.empty calls :=
    Run.always_of_step (fun _ _ _ ht h => (after_reordered ht h).ranked) calls fun _ => ranked_empty
  refine ⟨hranked.mono fun t ht o => ⟨ht o, (ht o).movable⟩, ?_⟩
  exact Run.along_of_always (fun t _ t' ht h _ => (after_reordered ht h).order) hranked

end OrganizationRules
