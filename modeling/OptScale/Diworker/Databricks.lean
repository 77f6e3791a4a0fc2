import OptScale.Foundations.Dict
import OptScale.Diworker.Kubernetes

/-!
# Diworker/Databricks — raw expenses of Databricks usage

A usage costs its DBUs by the price of its SKU.  The prices are the default ones and those of the account's cost
model; an unknown SKU costs nothing.
-/

open Dict BaseReportImporter

namespace DatabricksReportImporter

/-- A row of the usage that is downloaded. -/
structure UsageLine where
  sku : String
  clusterId : String
  timestamp : Micros
  dbus : Option ℚ
  machineHours : Option ℚ
  tags : Option String
  clusterCustomTags : Option String
  clusterOwnerUserId : Option String
  /-- The other columns. -/
  columns : List (String × String) := []
  deriving DecidableEq

/-- A raw expense. -/
structure DatabricksExpense where
  endDate : Micros
  resourceId : String
  cloudAccountId : String
  sku : String
  startDate : Micros
  cost : ℚ
  dbus : Option ℚ
  machineHours : Option ℚ
  tags : Option String
  clusterCustomTags : Option String
  clusterOwnerUserId : Option String
  columns : List (String × String)
  deriving DecidableEq

/-- `get_unique_field_list` and `get_update_fields`: a field that is missing is not set. -/
def fields : RawFields DatabricksExpense (Micros × String × String × String) where
  unique e := (e.endDate, e.resourceId, e.cloudAccountId, e.sku)
  update new old :=
    { old with
      startDate := new.startDate
      cost := new.cost
      dbus := new.dbus.or old.dbus
      machineHours := new.machineHours.or old.machineHours
      tags := new.tags.or old.tags
      clusterCustomTags := new.clusterCustomTags.or old.clusterCustomTags
      clusterOwnerUserId := new.clusterOwnerUserId.or old.clusterOwnerUserId }
  unique_update _ _ := rfl

/-- The raw expenses. -/
abbrev Raw := Table fields.unique

/-- An account: the default prices, and its cost model. -/
structure Account where
  cloudAccId : String
  defaultSkuPrices : Dict String ℚ
  costModel : Dict String ℚ

variable (A : Account)

/-- `sku_prices` -/
def Account.skuPrices : Dict String ℚ := Dict.update A.defaultSkuPrices A.costModel

/-- The price of a SKU: nothing where it is unknown. -/
def Account.price (sku : String) : ℚ := (A.skuPrices.lookup sku).getD 0

/-- `CHUNK_SIZE` -/
def chunkSize : ℕ := 200

/-- `timedelta(hours=...)`, to the microsecond. -/
def interval (hours : ℚ) : Micros := round (hours * Micros.hour)

/-- `_fill_custom_fields` -/
def fillCustomFields (u : UsageLine) : DatabricksExpense :=
  { endDate := u.timestamp
    resourceId := u.clusterId
    cloudAccountId := A.cloudAccId
    sku := u.sku
    startDate := u.timestamp - interval (u.machineHours.getD 0)
    cost := u.dbus.getD 0 * A.price u.sku
    dbus := u.dbus
    machineHours := u.machineHours
    tags := u.tags
    clusterCustomTags := u.clusterCustomTags
    clusterOwnerUserId := u.clusterOwnerUserId
    columns := u.columns }

/-- `load_raw_data` -/
def loadRawData (periodStart : Micros) (usages : List UsageLine) (raw : Raw) : Raw :=
  (((usages.map (fillCustomFields A)).filter fun e => periodStart ≤ e.startDate).toChunks chunkSize).foldl
    (fun raw chunk => updateRawRecords fields chunk raw) raw

/-- The expense with the cost of now, if that is another one. -/
def recalculated (e : DatabricksExpense) : Option DatabricksExpense :=
  if e.cloudAccountId = A.cloudAccId then
    let cost := A.price e.sku * e.dbus.getD 0
    if cost ≠ e.cost then some { e with cost := cost } else none
  else none

/-- `recalculate_raw_expenses` -/
def recalculateRawExpenses (raw : Raw) : Raw :=
  ((raw.rows.filterMap (recalculated A)).toChunks chunkSize).foldl
    (fun raw chunk => updateRawRecords fields chunk raw) raw

variable {A}

/-- **What a recalculation makes of the expenses**: each stays where it is, with the cost of now. -/
theorem rows_recalculateRawExpenses (raw : Raw) : (recalculateRawExpenses A raw).rows = raw.rows.map fun e =>
    if e.cloudAccountId = A.cloudAccId then { e with cost := A.price e.sku * e.dbus.getD 0 } else e := by
  have hkey : ∀ e e', recalculated A e = some e' → fields.unique e' = fields.unique e := by
    intro e e' h
    unfold recalculated at h
    split at h
    · dsimp only at h
      split at h
      · obtain rfl := Option.some.inj h
        rfl
      · exact nomatch h
    · exact nomatch h
  rw [recalculateRawExpenses, foldl_updateRawRecords, Chunks.flatten_toChunks,
    rows_updateRawRecords_filterMap hkey]
  refine List.map_congr_left fun e _ => ?_
  unfold recalculated
  split
  · dsimp only
    split
    · simp only [Option.elim_some, fields, Option.or_self]
    next hcost =>
      rw [Option.elim_none, not_not.mp hcost]
  · rfl

end DatabricksReportImporter
