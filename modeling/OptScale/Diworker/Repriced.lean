import OptScale.Diworker.Databricks
import OptScale.Diworker.Environment

/-!
# Diworker/Repriced — whether a recalculation applies the prices of now

Both importers go over their raw expenses again when prices change, and nothing but costs changes.  For Databricks
each expense then has the price of its SKU; an environment whose hourly cost has become zero is passed over, so
its expenses keep what they cost before (`repriced_iff`).
-/

/-- **Nothing but costs changes**: the records stay, each in its place. -/
def OnlyCosts {ρ : Type} (setCost : ρ → ℚ → ρ) (before after : List ρ) : Prop :=
  List.Forall₂ (fun e e' => ∃ cost, e' = setCost e cost) before after

/-- What is changed record by record. -/
theorem onlyCosts_map {ρ : Type} {setCost : ρ → ℚ → ρ} {f : ρ → ρ} {records : List ρ}
    (h : ∀ e ∈ records, ∃ cost, f e = setCost e cost) : OnlyCosts setCost records (records.map f) :=
  List.forall₂_map_right_iff.mpr (List.forall₂_same.mpr h)

namespace EnvironmentReportImporter

variable {cloudAccId : String} {environments : Environments} {costModels : CostModels} {raw : Raw}

/-- **The hourly costs of now apply** to the raw expenses of active environments, and nothing else changes. -/
structure Repriced (cloudAccId : String) (environments : Environments) (costModels : CostModels) (raw : Raw) :
    Prop where
  costs : ∀ e ∈ (recalculateRawExpenses cloudAccId environments costModels raw).rows,
    e.cloudAccountId = cloudAccId → ∀ r ∈ environments.actives, r.cloudResourceId = e.resourceId →
      ∀ cost, hourlyCost costModels r.id = some cost → e.cost = e.value * cost
  unchanged : OnlyCosts (fun e cost => { e with cost := cost }) raw.rows
    (recalculateRawExpenses cloudAccId environments costModels raw).rows

/-- **No active environment has become free** while a raw expense of it costs something. -/
def NoneFreed (cloudAccId : String) (environments : Environments) (costModels : CostModels) (raw : Raw) : Prop :=
  ∀ e ∈ raw.rows, e.cloudAccountId = cloudAccId → ∀ r ∈ environments.actives, r.cloudResourceId = e.resourceId →
    hourlyCost costModels r.id = some 0 → e.cost = 0

theorem charged_of_ne {id : String} {cost : ℚ} (h : hourlyCost costModels id = some cost) (hne : cost ≠ 0) :
    charged costModels id = some cost := by
  rw [charged, h]
  exact if_pos (decide_eq_true hne)

/-- The expense of an active environment that costs something. -/
theorem recalculated_of_charged {e : EnvironmentExpense} {r : EnvironmentResource} {cost : ℚ}
    (haccount : e.cloudAccountId = cloudAccId) (hr : r ∈ environments.actives)
    (hid : r.cloudResourceId = e.resourceId) (hcost : charged costModels r.id = some cost) :
    (recalculated cloudAccId environments costModels e).getD e = { e with cost := e.value * cost } := by
  have hlookup := lookup_cloudResourceCostMap.mpr ⟨r, hr, hid, hcost⟩
  rw [recalculated, if_pos haccount, hlookup, Option.bind_some]
  split
  · rfl
  next hsame =>
    rw [Option.getD_none, not_not.mp hsame]

/-- The expense of an environment that costs nothing is passed over. -/
theorem recalculated_of_free {e : EnvironmentExpense} {r : EnvironmentResource} (hr : r ∈ environments.actives)
    (hid : r.cloudResourceId = e.resourceId) (hfree : charged costModels r.id = none) :
    recalculated cloudAccId environments costModels e = none := by
  have hlookup : (cloudResourceCostMap environments costModels).lookup e.resourceId = none := by
    rw [← Option.not_isSome_iff_eq_none]
    intro hsome
    obtain ⟨cost, hcost⟩ := Option.isSome_iff_exists.mp hsome
    obtain ⟨r', hr', hid', hcost'⟩ := lookup_cloudResourceCostMap.mp hcost
    obtain rfl := eq_of_cloudResourceId hr' hr (hid'.trans hid.symm)
    exact nomatch hfree.symm.trans hcost'
  rw [recalculated, hlookup, Option.bind_none, ite_self]

theorem onlyCosts_recalculated (raw : Raw) : OnlyCosts (fun e cost => { e with cost := cost }) raw.rows
    (recalculateRawExpenses cloudAccId environments costModels raw).rows := by
  rw [rows_recalculateRawExpenses]
  refine onlyCosts_map fun e _ => ?_
  unfold recalculated
  split
  · rcases (cloudResourceCostMap environments costModels).lookup e.resourceId with _ | cost
    · exact ⟨e.cost, rfl⟩
    · rw [Option.bind_some]
      split
      · exact ⟨e.value * cost, rfl⟩
      · exact ⟨e.cost, rfl⟩
  · exact ⟨e.cost, rfl⟩

/-- **The hourly costs apply where no environment has become free.** -/
theorem repriced_iff_noneFreed (cloudAccId : String) (environments : Environments) (costModels : CostModels)
    (raw : Raw) : Repriced cloudAccId environments costModels raw ↔
      NoneFreed cloudAccId environments costModels raw := by
  have hrow : ∀ e ∈ raw.rows, (recalculated cloudAccId environments costModels e).getD e ∈
      (recalculateRawExpenses cloudAccId environments costModels raw).rows := fun e he => by
    rw [rows_recalculateRawExpenses]
    exact List.mem_map.mpr ⟨e, he, rfl⟩
  constructor
  · intro h e he haccount r hr hid hzero
    have hfree : charged costModels r.id = none := by
      rw [charged, hzero]
      rfl
    have hmem := hrow e he
    rw [recalculated_of_free hr hid hfree, Option.getD_none] at hmem
    rw [h.costs e hmem haccount r hr hid 0 hzero, mul_zero]
  · refine fun h => ⟨fun e' he' haccount r hr hid cost hcost => ?_, onlyCosts_recalculated raw⟩
    rw [rows_recalculateRawExpenses] at he'
    obtain ⟨e, he, rfl⟩ := List.mem_map.mp he'
    obtain ⟨other, hother⟩ : ∃ c, (recalculated cloudAccId environments costModels e).getD e =
        { e with cost := c } := by
      obtain ⟨c, hc⟩ := (List.forall₂_same.mp (List.forall₂_map_right_iff.mp
        ((rows_recalculateRawExpenses raw) ▸ onlyCosts_recalculated raw))) e he
      exact ⟨c, hc⟩
    have haccount' : e.cloudAccountId = cloudAccId := by
      rw [hother] at haccount
      exact haccount
    have hid' : r.cloudResourceId = e.resourceId := by
      rw [hother] at hid
      exact hid
    rw [hother]
    by_cases hne : cost = 0
    · subst hne
      have hfree : charged costModels r.id = none := by
        rw [charged, hcost]
        rfl
      rw [recalculated_of_free hr hid' hfree, Option.getD_none] at hother
      have hsame : e.cost = other := congrArg EnvironmentExpense.cost hother
      change other = e.value * 0
      rw [mul_zero, ← hsame]
      exact h e he haccount' r hr hid' hcost
    · have hcharged := recalculated_of_charged haccount' hr hid' (charged_of_ne hcost hne)
      exact congrArg EnvironmentExpense.cost (hother.symm.trans hcharged)

end EnvironmentReportImporter

namespace DatabricksReportImporter

/-- **The prices of now apply** to the raw expenses of the account, and nothing else changes. -/
structure Repriced (A : Account) (raw : Raw) : Prop where
  costs : ∀ e ∈ (recalculateRawExpenses A raw).rows, e.cloudAccountId = A.cloudAccId →
    e.cost = e.dbus.getD 0 * A.price e.sku
  unchanged : OnlyCosts (fun e cost => { e with cost := cost }) raw.rows (recalculateRawExpenses A raw).rows

/-- **The prices apply always.** -/
theorem repriced (A : Account) (raw : Raw) : Repriced A raw := by
  constructor
  · intro e' he' haccount
    rw [rows_recalculateRawExpenses] at he'
    obtain ⟨e, -, rfl⟩ := List.mem_map.mp he'
    by_cases h : e.cloudAccountId = A.cloudAccId
    · rw [if_pos h]
      exact mul_comm _ _
    · rw [if_neg h] at haccount
      exact absurd haccount h
  · rw [rows_recalculateRawExpenses]
    refine onlyCosts_map fun e _ => ?_
    split
    · exact ⟨_, rfl⟩
    · exact ⟨e.cost, rfl⟩

end DatabricksReportImporter

namespace EnvironmentReportImporter

/-- **Recalculations apply the prices of now exactly where no environment with expenses has become free.** -/
theorem repriced_iff (cloudAccId : String) (environments : Environments) (costModels : CostModels) (raw : Raw)
    (A : DatabricksReportImporter.Account) (usage : DatabricksReportImporter.Raw) :
    (Repriced cloudAccId environments costModels raw ∧ DatabricksReportImporter.Repriced A usage) ↔
      NoneFreed cloudAccId environments costModels raw := by
  rw [repriced_iff_noneFreed]
  exact and_iff_left (DatabricksReportImporter.repriced A usage)

/-- An environment. -/
def stand : EnvironmentResource := ⟨"e1", "stand", "Environment", true, 0⟩

/-- The only one. -/
def stands : Environments where
  resources := [stand]
  nodup_ids := List.nodup_singleton _
  nodup_cloudResourceIds := List.nodup_singleton _

/-- Its hourly cost. -/
def standCost (cost : ℚ) : CostModels := Dict.set ∅ "e1" (some cost)

/-- The raw expenses of its first hour, at two an hour. -/
def firstHour : Raw := loadRawData "a1" stands (standCost 2) 0 Micros.hour .empty

/-- The raw expense of the hour. -/
def hourExpense : EnvironmentExpense := ⟨0, Micros.day - Micros.second, "stand", "a1", 1, 2, "Environment"⟩

theorem rows_firstHour : firstHour.rows = [hourExpense] := by
  have hnext : expensesFrom "a1" stand 2 Micros.hour Micros.day = [] := by
    unfold expensesFrom
    exact if_neg (by decide)
  have hfirst : expensesFrom "a1" stand 2 Micros.hour 0 = [hourExpense] := by
    have hday : (0 : Micros) / Micros.day * Micros.day + Micros.day = Micros.day := by decide
    have hvalue : Micros.hours (Micros.hour - 0) = 1 := by decide +kernel
    unfold expensesFrom
    rw [if_pos (by decide)]
    simp only [hday, hnext, if_pos (show Micros.day > Micros.hour by decide), hvalue, one_mul]
    rfl
  have hexpenses : stands.actives.flatMap (expensesOf "a1" (standCost 2) 0 Micros.hour) = [hourExpense] := by
    have hcharged : charged (standCost 2) stand.id = some 2 := by decide +kernel
    have hactives : stands.actives = [stand] := rfl
    rw [hactives, List.flatMap_singleton, expensesOf, hcharged]
    exact hfirst
  rw [firstHour, loadRawData, hexpenses, BaseReportImporter.foldl_updateRawRecords, Chunks.flatten_toChunks]
  rfl

/-- **What was paid before stays** when the environment becomes free. -/
theorem keeps_old_cost : ¬ ∀ (cloudAccId : String) (environments : Environments) (costModels : CostModels)
    (raw : Raw), Written cloudAccId raw → Repriced cloudAccId environments costModels raw := by
  intro h
  have hwritten : Written "a1" firstHour := .load stands (standCost 2) 0 Micros.hour .empty
  have hfreed := (repriced_iff_noneFreed _ _ _ _).mp (h "a1" stands (standCost 0) firstHour hwritten)
  have hmem : hourExpense ∈ firstHour.rows := by
    rw [rows_firstHour]
    exact List.mem_singleton_self _
  have hactive : stand ∈ stands.actives := List.mem_singleton_self _
  have hzero : hourlyCost (standCost 0) stand.id = some 0 := by decide +kernel
  exact absurd (hfreed hourExpense hmem rfl stand hactive rfl hzero) (by decide +kernel)

end EnvironmentReportImporter
