import OptScale.Foundations.Chunks
import OptScale.Foundations.Queries
import OptScale.Diworker.RawRecords
import OptScale.Rest.Failure

/-!
# Diworker/GcpImporter — raw expenses of a Google Cloud account

A billing export may split an expense into several rows of a day.  A row becomes a record, records with the same
unique fields are put together field by field, and what is left is written to the raw expenses.
-/

open Fallible Queries Dict BaseReportImporter

namespace GcpReportImporter

/-! ## Rows of the billing export -/

/-- `location` -/
structure Location where
  location : Option String := none
  country : Option String := none
  region : Option String := none
  zone : Option String := none
  deriving DecidableEq, Repr

/-- A credit. -/
structure Credit where
  name : String
  amount : ℚ
  deriving DecidableEq, Repr

/-- A row. -/
structure BillingRow where
  service : Option String
  sku : Option String
  startDate : ℤ
  endDate : ℤ
  cost : ℚ
  location : Option Location := none
  /-- The labels, as keys and values. -/
  tags : List (String × String) := []
  systemTags : List (String × String) := []
  usageAmount : Option ℚ
  usageAmountInPricingUnits : Option ℚ
  credits : List Credit := []
  /-- The other columns. -/
  columns : List (String × String) := []

/-- What a record is found by. -/
structure RecordKey where
  startDate : ℤ
  resourceId : Option String
  resourceHash : Option String
  cloudAccountId : String
  sku : Option String
  service : Option String
  deriving DecidableEq, Repr

/-- A record. -/
structure GcpRecord where
  key : RecordKey
  cost : ℚ
  usageAmount : Option ℚ
  usageAmountInPricingUnits : Option ℚ
  credits : List Credit
  originalCost : ℚ
  region : Option String
  endDate : ℤ
  tags : Dict String String
  systemTags : Dict String String
  columns : List (String × String)

/-- `get_unique_field_list` and `get_update_fields` -/
def fields : RawFields GcpRecord RecordKey where
  unique := GcpRecord.key
  update new old :=
    { old with
      cost := new.cost
      usageAmount := new.usageAmount
      usageAmountInPricingUnits := new.usageAmountInPricingUnits
      credits := new.credits }
  unique_update _ _ := rfl

/-- An import: the account, the zones that are known, and SHA-1 of the sorted tags. -/
structure GcpImport where
  cloudAccId : String
  zoneToRegion : Dict String String
  sha1 : List (String × String) → String

variable (I : GcpImport)

/-- A value that is there. -/
def given (value : Option String) : Option String := value.filter fun s => s ≠ ""

/-- `_get_resource_region` -/
def getResourceRegion (regionData : Option Location) : Except Failure (Option String) :=
  match regionData with
  | none => .ok none
  | some data =>
    match given data.region with
    | some region => .ok (some region)
    | none =>
      match given data.zone with
      | some zone => (orFail (I.zoneToRegion.lookup zone) (.python "KeyError")).map some
      | none => .ok ((given ((given data.location).or data.country)).map String.toLower)

/-- `_convert_tags_list_to_dict` -/
def convertTagsListToDict (tags : List (String × String)) : Dict String String := setAll Prod.fst Prod.snd tags

/-- The items of the tags, sorted. -/
def sortedItems (tags : Dict String String) : List (String × String) :=
  (tags.entries.map fun e => (e.1, e.2)).mergeSort fun e e' => e.1 ≤ e'.1

/-- `str` of a value that may be missing. -/
def str (value : Option String) : String := value.getD "None"

/-- `_generate_resource_id` -/
def generateResourceId (sku region : Option String) (tags : Dict String String) : String :=
  str sku ++ " " ++ str region ++ " " ++ I.sha1 (sortedItems tags)

/-- `OPTSCALE_RESOURCE_ID_TAG` -/
def optscaleResourceIdTag : String := "optscale_tracking_id"

/-- The hash of the resource, if the tag has one. -/
def resourceHashOf (tags : Dict String String) : Option String :=
  (tags.lookup optscaleResourceIdTag).filter fun hash => hash.length = 40

/-- The cost with the credits. -/
def BillingRow.billed (row : BillingRow) : ℚ := row.cost + (row.credits.map Credit.amount).sum

/-- The record of a row whose region is known. -/
def recordOf (row : BillingRow) (region : Option String) : GcpRecord :=
  let tags := convertTagsListToDict row.tags
  { key :=
      { startDate := row.startDate
        resourceId :=
          if (resourceHashOf tags).isSome then none else some (generateResourceId I row.sku region tags)
        resourceHash := resourceHashOf tags
        cloudAccountId := I.cloudAccId
        sku := row.sku
        service := row.service }
    cost := row.billed
    usageAmount := row.usageAmount
    usageAmountInPricingUnits := row.usageAmountInPricingUnits
    credits := row.credits
    originalCost := row.cost
    region := region
    endDate := row.endDate
    tags := tags
    systemTags := convertTagsListToDict row.systemTags
    columns := row.columns }

/-- `_row_to_dict` -/
def rowToDict (row : BillingRow) : Except Failure GcpRecord :=
  (getResourceRegion I row.location).map (recordOf I row)

/-! ## Rows of one expense -/

/-- `common_item[field] += value`, for a value that is neither missing nor zero. -/
def addAmount (common value : Option ℚ) : Except Failure (Option ℚ) :=
  match value with
  | none => .ok common
  | some v =>
    if v = 0 then .ok common
    else (orFail common (.python "TypeError")).map fun c => some (c + v)

/-- Put an item into the first one of its key. -/
def mergeItem (commonItem item : GcpRecord) : Except Failure GcpRecord := do
  let usageAmount ← addAmount commonItem.usageAmount item.usageAmount
  let usageAmountInPricingUnits ← addAmount commonItem.usageAmountInPricingUnits item.usageAmountInPricingUnits
  return { commonItem with
    cost := commonItem.cost + item.cost
    usageAmount := usageAmount
    usageAmountInPricingUnits := usageAmountInPricingUnits
    credits := commonItem.credits ++ item.credits }

/-- The items of one key. -/
def mergeGroup : List GcpRecord → Except Failure GcpRecord
  | [] => .error (.python "IndexError")
  | first :: rest => rest.foldlM mergeItem first

/-- `_merge_same_billing_items` -/
def mergeSameBillingItems (items : List GcpRecord) : Except Failure (List GcpRecord) :=
  (groupBy GcpRecord.key items).mapM fun g => mergeGroup g.2

/-- `WRITE_CHUNK_SIZE` -/
def writeChunkSize : ℕ := 200

/-- `load_raw_data`, for one day. -/
def loadDay (usageRows : List BillingRow) (raw : Table fields.unique) : Except Failure (Table fields.unique) := do
  let usageRows ← usageRows.mapM (rowToDict I)
  let usageRows ← mergeSameBillingItems usageRows
  return (usageRows.toChunks writeChunkSize).foldl (fun raw chunk => updateRawRecords fields chunk raw) raw

end GcpReportImporter
