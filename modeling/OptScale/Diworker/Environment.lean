import OptScale.Foundations.Grouped
import OptScale.Diworker.Kubernetes

/-!
# Diworker/Environment — raw expenses of environments

An environment costs its hourly cost for each hour of a day it exists.  When cost models change, the raw expenses
are gone over again; an environment that costs nothing is passed over, by the import and by the recalculation
alike.
-/

open Dict BaseReportImporter

namespace EnvironmentReportImporter

/-! ## Environments and their expenses -/

/-- An environment, as the rest service lists it. -/
structure EnvironmentResource where
  id : String
  cloudResourceId : String
  resourceType : String
  active : Bool
  createdAt : Micros
  deriving DecidableEq

/-- The environments: resources of one cloud account. -/
structure Environments where
  resources : List EnvironmentResource
  nodup_ids : (resources.map EnvironmentResource.id).Nodup
  nodup_cloudResourceIds : (resources.map EnvironmentResource.cloudResourceId).Nodup

/-- The hourly costs of the cost models, by their environments. -/
abbrev CostModels := Dict String (Option ℚ)

/-- A raw expense of a day. -/
structure EnvironmentExpense where
  startDate : Micros
  endDate : Micros
  resourceId : String
  cloudAccountId : String
  value : ℚ
  cost : ℚ
  resourceType : String
  deriving DecidableEq

/-- `get_unique_field_list` and `get_update_fields` -/
def fields : RawFields EnvironmentExpense (Micros × Micros × String × String) where
  unique e := (e.startDate, e.endDate, e.resourceId, e.cloudAccountId)
  update new old := { old with value := new.value, cost := new.cost, resourceType := new.resourceType }
  unique_update _ _ := rfl

/-- The raw expenses. -/
abbrev Raw := Table fields.unique

variable (cloudAccId : String) (environments : Environments) (costModels : CostModels)

/-- `cost_model_map.get(id, {}).get('hourly_cost')` -/
def hourlyCost (id : String) : Option ℚ := (costModels.lookup id).bind fun hourlyCost => hourlyCost

/-- An hourly cost that is there and not zero. -/
def charged (id : String) : Option ℚ := (hourlyCost costModels id).filter fun hourlyCost => hourlyCost ≠ 0

/-! ## The import -/

/-- The expenses of an environment, from an instant on. -/
def expensesFrom (r : EnvironmentResource) (hourlyCost : ℚ) (now currentDay : Micros) : List EnvironmentExpense :=
  if currentDay < now then
    let currentDayStart := currentDay / Micros.day * Micros.day
    let nextDayStart := currentDayStart + Micros.day
    let dateEnd := if nextDayStart > now then now else nextDayStart
    let value := Micros.hours (dateEnd - currentDay)
    { startDate := currentDayStart
      endDate := nextDayStart - Micros.second
      resourceId := r.cloudResourceId
      cloudAccountId := cloudAccId
      value := value
      cost := value * hourlyCost
      resourceType := r.resourceType } :: expensesFrom r hourlyCost now nextDayStart
  else []
termination_by (now - currentDay).toNat
decreasing_by
  have hlt : currentDay < now := ‹_›
  have hnext : currentDay < currentDay / Micros.day * Micros.day + Micros.day := by
    have hday := Int.lt_ediv_add_one_mul_self currentDay (show 0 < Micros.day by decide)
    rwa [add_mul, one_mul] at hday
  exact (Int.toNat_lt_toNat (sub_pos.mpr hlt)).mpr (sub_lt_sub_left hnext now)

/-- `CHUNK_SIZE` -/
def chunkSize : ℕ := 200

/-- The expenses of an environment: none where it costs nothing. -/
def expensesOf (periodStart now : Micros) (r : EnvironmentResource) : List EnvironmentExpense :=
  match charged costModels r.id with
  | some hourlyCost =>
    let startDate := if periodStart > r.createdAt then periodStart else r.createdAt
    expensesFrom cloudAccId r hourlyCost now startDate
  | none => []

/-- The active environments. -/
def Environments.actives : List EnvironmentResource := environments.resources.filter EnvironmentResource.active

/-- `load_raw_data` -/
def loadRawData (periodStart now : Micros) (raw : Raw) : Raw :=
  ((environments.actives.flatMap (expensesOf cloudAccId costModels periodStart now)).toChunks chunkSize).foldl
    (fun raw chunk => updateRawRecords fields chunk raw) raw

/-! ## The recalculation -/

/-- An item of `cloud_resource_cost_map`: an active environment that costs something. -/
def costOf (item : Sigma fun _ : String => Option ℚ) : Option (String × ℚ) :=
  (environments.actives.find? fun r => r.id = item.1).bind fun r =>
    (charged costModels r.id).map fun hourlyCost => (r.cloudResourceId, hourlyCost)

/-- `cloud_resource_cost_map` -/
def cloudResourceCostMap : Dict String ℚ :=
  setAll Prod.fst Prod.snd (costModels.entries.filterMap (costOf environments costModels))

/-- The expense with the cost of now, if that is another one. -/
def recalculated (e : EnvironmentExpense) : Option EnvironmentExpense :=
  if e.cloudAccountId = cloudAccId then
    ((cloudResourceCostMap environments costModels).lookup e.resourceId).bind fun hourlyCost =>
      if e.value * hourlyCost ≠ e.cost then some { e with cost := e.value * hourlyCost } else none
  else none

/-- `recalculate_raw_expenses` -/
def recalculateRawExpenses (raw : Raw) : Raw :=
  ((raw.rows.filterMap (recalculated cloudAccId environments costModels)).toChunks chunkSize).foldl
    (fun raw chunk => updateRawRecords fields chunk raw) raw

/-- **The raw expenses an account can have**: those of imports and recalculations, whatever the environments and
cost models were. -/
inductive Written (cloudAccId : String) : Raw → Prop
  | empty : Written cloudAccId .empty
  | load {raw : Raw} (environments : Environments) (costModels : CostModels) (periodStart now : Micros)
    (h : Written cloudAccId raw) : Written cloudAccId
      (loadRawData cloudAccId environments costModels periodStart now raw)
  | recalculate {raw : Raw} (environments : Environments) (costModels : CostModels) (h : Written cloudAccId raw) :
    Written cloudAccId (recalculateRawExpenses cloudAccId environments costModels raw)

/-! ## What is recalculated -/

variable {cloudAccId environments costModels}

theorem mem_actives {r : EnvironmentResource} : r ∈ environments.actives ↔ r ∈ environments.resources ∧ r.active :=
  List.mem_filter

theorem eq_of_id {r r' : EnvironmentResource} (hr : r ∈ environments.actives) (hr' : r' ∈ environments.actives)
    (h : r.id = r'.id) : r = r' :=
  List.inj_on_of_nodup_map environments.nodup_ids (mem_actives.mp hr).1 (mem_actives.mp hr').1 h

theorem eq_of_cloudResourceId {r r' : EnvironmentResource} (hr : r ∈ environments.actives)
    (hr' : r' ∈ environments.actives) (h : r.cloudResourceId = r'.cloudResourceId) : r = r' :=
  List.inj_on_of_nodup_map environments.nodup_cloudResourceIds (mem_actives.mp hr).1 (mem_actives.mp hr').1 h

theorem charged_eq_some {id : String} {cost : ℚ} :
    charged costModels id = some cost ↔ costModels.lookup id = some (some cost) ∧ cost ≠ 0 := by
  simp only [charged, hourlyCost, Option.filter_eq_some_iff, Option.bind_eq_some_iff, decide_eq_true_eq]
  constructor
  · rintro ⟨⟨_, hlookup, rfl⟩, hne⟩
    exact ⟨hlookup, hne⟩
  · rintro ⟨hlookup, hne⟩
    exact ⟨⟨_, hlookup, rfl⟩, hne⟩

theorem mem_costs {c : String × ℚ} : c ∈ costModels.entries.filterMap (costOf environments costModels) ↔
    ∃ r ∈ environments.actives, r.cloudResourceId = c.1 ∧ charged costModels r.id = some c.2 := by
  simp only [List.mem_filterMap, costOf, Option.bind_eq_some_iff, Option.map_eq_some_iff]
  constructor
  · rintro ⟨item, -, r, hr, cost, hcost, rfl⟩
    exact ⟨r, List.mem_of_find?_eq_some hr, rfl, hcost⟩
  · rintro ⟨r, hr, hid, hcost⟩
    have hlookup := (charged_eq_some.mp hcost).1
    have hfind : environments.actives.find? (fun r' => r'.id = r.id) = some r := by
      rcases hf : environments.actives.find? (fun r' => r'.id = r.id) with _ | r'
      · exact absurd (decide_eq_true rfl) (List.find?_eq_none.mp hf r hr)
      · have hsame := eq_of_id (List.mem_of_find?_eq_some hf) hr (by simpa using List.find?_some hf)
        rw [hf, hsame]
    exact ⟨⟨r.id, some c.2⟩, List.of_mem_dlookup hlookup, r, hfind, c.2, hcost, Prod.ext hid rfl⟩

/-- **The costs by cloud resource** are those of the active environments that cost something. -/
theorem lookup_cloudResourceCostMap {cloudResourceId : String} {cost : ℚ} :
    (cloudResourceCostMap environments costModels).lookup cloudResourceId = some cost ↔
      ∃ r ∈ environments.actives, r.cloudResourceId = cloudResourceId ∧
        charged costModels r.id = some cost := by
  rw [cloudResourceCostMap, lookup_setAll, Option.map_eq_some_iff]
  constructor
  · rintro ⟨c, hc, rfl⟩
    obtain ⟨hmem, hkey⟩ := List.mem_filter.mp (List.mem_of_getLast? hc)
    obtain ⟨r, hr, hid, hcost⟩ := mem_costs.mp hmem
    exact ⟨r, hr, hid.trans (of_decide_eq_true hkey), hcost⟩
  · rintro ⟨r, hr, rfl, hcost⟩
    have hmem : (r.cloudResourceId, cost) ∈
        (costModels.entries.filterMap (costOf environments costModels)).filter
          (fun c => c.1 = r.cloudResourceId) :=
      List.mem_filter.mpr ⟨mem_costs.mpr ⟨r, hr, rfl, hcost⟩, decide_eq_true rfl⟩
    obtain ⟨c, hc⟩ := Option.isSome_iff_exists.mp
      (List.getLast?_isSome.mpr (List.ne_nil_of_mem hmem))
    obtain ⟨hc', hkey⟩ := List.mem_filter.mp (List.mem_of_getLast? hc)
    obtain ⟨r', hr', hid, hcost'⟩ := mem_costs.mp hc'
    obtain rfl := eq_of_cloudResourceId hr' hr (hid.trans (of_decide_eq_true hkey))
    exact ⟨c, hc, Option.some.inj (hcost'.symm.trans hcost)⟩

/-- **What a recalculation makes of the expenses**: each stays where it is, with the cost of now where it has
one. -/
theorem rows_recalculateRawExpenses (raw : Raw) :
    (recalculateRawExpenses cloudAccId environments costModels raw).rows = raw.rows.map fun e =>
      (recalculated cloudAccId environments costModels e).getD e := by
  have hkey : ∀ e e', recalculated cloudAccId environments costModels e = some e' →
      fields.unique e' = fields.unique e ∧ e' = { e with cost := e'.cost } := by
    intro e e' h
    unfold recalculated at h
    split at h
    · obtain ⟨cost, -, h⟩ := Option.bind_eq_some_iff.mp h
      split at h
      · obtain rfl := Option.some.inj h
        exact ⟨rfl, rfl⟩
      · exact nomatch h
    · exact nomatch h
  rw [recalculateRawExpenses, foldl_updateRawRecords, Chunks.flatten_toChunks,
    rows_updateRawRecords_filterMap fun e e' h => (hkey e e' h).1]
  refine List.map_congr_left fun e _ => ?_
  cases h : recalculated cloudAccId environments costModels e with
  | none => rfl
  | some e' =>
    rw [Option.elim_some, Option.getD_some, (hkey e e' h).2]
    rfl

end EnvironmentReportImporter
