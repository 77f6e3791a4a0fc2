import OptScale.Diworker.Generate

/-!
# Diworker/AwsImporter — `AWSReportImporter`

Raw expenses of one item that begin on one day and end on one day are put together, and their cost
is spread evenly over the days from the first to the last.  Clean records are generated for one
account and one billing period at a time, from the expenses that begin in the import window.
-/

open Fallible Ledger

/-- A raw expense of AWS. -/
structure AwsRawExpense where
  cloudAccountId : Uuid
  resourceId : Option String
  /-- `bill/BillingPeriodStartDate` -/
  billingPeriod : Option String
  /-- The values of the other fields of `get_unique_field_list`. -/
  item : List (Option String)
  startDate : ℤ
  endDate : ℤ
  cost : ℚ
  deriving DecidableEq

namespace AwsReportImporter

open BaseReportImporter

/-! ## Expenses are put together -/

/-- The `_id` of `_get_group_by_day_pipeline`. -/
structure DayGroup where
  item : List (Option String)
  cloudAccountId : Uuid
  resourceId : Option String
  startDay : ℤ
  endDay : ℤ
  deriving DecidableEq

/-- The group of a raw expense. -/
def dayGroup (e : AwsRawExpense) : DayGroup :=
  ⟨e.item, e.cloudAccountId, e.resourceId, e.startDate / 86400, e.endDate / 86400⟩

/-- The expense of a group: the first one's, but for the last end and the total. -/
def groupExpense (rows : List AwsRawExpense) (g : DayGroup) : Option AwsRawExpense :=
  match rows.filter fun e => dayGroup e = g with
  | [] => none
  | first :: rest => some { first with
      endDate := rest.foldl (fun t e => max t e.endDate) first.endDate
      cost := ((first :: rest).map AwsRawExpense.cost).sum }

/-- The groups of `_get_group_by_day_pipeline`. -/
def groupByDay (rows : List AwsRawExpense) : List AwsRawExpense :=
  (rows.map dayGroup).dedup.filterMap (groupExpense rows)

/-! ## Clean expenses -/

/-- The number of days; an expense that ends where it begins has none. -/
def daysOf (e : AwsRawExpense) : ℕ := ((e.endDate - 1 - e.startDate) / 86400 + 1).toNat

/-- What an expense gives to each of its days. -/
def sharesOf (e : AwsRawExpense) : List RawExpense :=
  (List.range (daysOf e)).map fun d =>
    ⟨e.startDate + d * 86400, e.cost / daysOf e, e.cloudAccountId⟩

/-- `clean_expenses_for_resource` -/
def cleanExpensesForResource (resourceId : Uuid) (expenses : List AwsRawExpense) :
    Table CleanExpense.date :=
  expenses.foldl (fun cleanExpenses e =>
    (sharesOf e).foldl (fun cleanExpenses share =>
      cleanExpenses.upsert ⟨share.usageDate, share.cost, resourceId, share.cloudAccountId⟩
        (fun x => { x with cost := x.cost + share.cost }) fun x => Eq.refl x.date) cleanExpenses) .empty

/-- The clean expenses are those of the shares. -/
theorem cleanExpensesForResource_eq (resourceId : Uuid) (expenses : List AwsRawExpense) :
    cleanExpensesForResource resourceId expenses =
      cleanExpensesByDay resourceId (expenses.flatMap sharesOf) := by
  rw [cleanExpensesByDay, List.foldl_flatMap]
  rfl

/-- The class. -/
def aws : BaseReportImporter AwsRawExpense where
  cloudAccountId := AwsRawExpense.cloudAccountId
  cleanExpensesForResource := cleanExpensesForResource
  resourceId_eq id es e he := by
    rw [cleanExpensesForResource_eq] at he
    exact (cleanExpense_spec he).1
  cloudAccountId_mem id es e he := by
    rw [cleanExpensesForResource_eq] at he
    obtain ⟨-, ⟨share, hshare, haccount⟩, -⟩ := cleanExpense_spec he
    obtain ⟨raw, hraw, hshare⟩ := List.mem_flatMap.mp hshare
    obtain ⟨d, -, rfl⟩ := List.mem_map.mp hshare
    exact ⟨raw, hraw, haccount⟩

/-! ## Generating -/

/-- The raw expenses of an account and a billing period. -/
def inPeriod (cloudAccountId : Uuid) (billingPeriod : Option String) (raw : List AwsRawExpense) :
    List AwsRawExpense :=
  raw.filter fun e => e.cloudAccountId = cloudAccountId ∧ e.billingPeriod = billingPeriod

/-- `get_resource_ids` -/
def getResourceIds (cloudAccountId : Uuid) (billingPeriod : Option String) (threshold : ℤ)
    (raw : List AwsRawExpense) : List String :=
  ((raw.filter fun e => e.cloudAccountId = cloudAccountId ∧ threshold ≤ e.startDate ∧
    (billingPeriod = none ∨ e.billingPeriod = billingPeriod)).filterMap
      AwsRawExpense.resourceId).dedup

/-- `get_raw_expenses_by_filters`, of one resource. -/
def getRawExpenses (cloudAccountId : Uuid) (billingPeriod : Option String) (threshold : ℤ)
    (raw : List AwsRawExpense) (id : String) : List AwsRawExpense :=
  (groupByDay ((inPeriod cloudAccountId billingPeriod raw).filter fun e =>
    threshold ≤ e.startDate)).filter fun e => e.resourceId = some id

/-- `_generate_clean_records` -/
def generatePeriod (S : ResourceService) (threshold : ℤ) (raw : List AwsRawExpense)
    (cloudAccountId : Uuid) (billingPeriod : Option String) (table : Multiset Expense) :
    Except Failure (Multiset Expense) :=
  generateChunks aws S cloudAccountId (getRawExpenses cloudAccountId billingPeriod threshold raw)
    ((getResourceIds cloudAccountId billingPeriod threshold raw).toChunks chunkSize) table

/-- The loop over the billing periods, the latest one first. -/
def generatePeriods (S : ResourceService) (threshold : ℤ) (raw : List AwsRawExpense)
    (cloudAccountId : Uuid) :
    List (Option String) → Multiset Expense → Except Failure (Multiset Expense)
  | [], table => .ok table
  | billingPeriod :: periods, table => do
    let table ← generatePeriod S threshold raw cloudAccountId billingPeriod table
    generatePeriods S threshold raw cloudAccountId periods table

/-- `generate_clean_records`, for the detected accounts and billing periods. -/
def generateCleanRecords (S : ResourceService) (threshold : ℤ) (raw : List AwsRawExpense)
    (periods : List (Option String)) :
    List Uuid → Multiset Expense → Except Failure (Multiset Expense)
  | [], table => .ok table
  | cloudAccountId :: accounts, table => do
    let table ← generatePeriods S threshold raw cloudAccountId periods table
    generateCleanRecords S threshold raw periods accounts table

end AwsReportImporter
