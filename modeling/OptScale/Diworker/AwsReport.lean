import OptScale.Rest.Text

/-!
# Diworker/AwsReport — the loaders of a cost report

A cost report comes as a CSV file or as a Parquet file.  `load_csv_report` makes an expense of one row after the
other.  `load_parquet_report` takes the rows in slices and fills the expenses of a slice column by column, in
the order of the columns.

The two forms differ in what stands for an empty cell: an empty text in CSV, and in Parquet `None` in a column
of texts and `NaN` in a column of numbers.  An amount is written out in CSV and a number in Parquet, a date is
written out in CSV and a timestamp in Parquet.
-/

namespace AwsReport

/-! ## Reports -/

/-- The columns of a report, under their legacy names. -/
inductive Column
  /-- `bill/BillingPeriodStartDate` -/
  | billingPeriodStartDate
  /-- `lineItem/UsageAccountId` -/
  | usageAccountId
  /-- `lineItem/ResourceId` -/
  | resourceId
  /-- `lineItem/UsageStartDate` -/
  | usageStartDate
  /-- `lineItem/UsageEndDate` -/
  | usageEndDate
  /-- `lineItem/LineItemType` -/
  | lineItemType
  /-- `lineItem/BlendedCost` -/
  | blendedCost
  /-- `lineItem/UsageType` -/
  | usageType
  /-- `lineItem/LineItemDescription` -/
  | lineItemDescription
  /-- `lineItem/TaxType` -/
  | taxType
  /-- `lineItem/ProductCode` -/
  | productCode
  /-- `lineItem/Operation` -/
  | operation
  /-- `discount/EdpDiscount` -/
  | edpDiscount
  /-- `discount/PrivateRateDiscount` -/
  | privateRateDiscount
  /-- `product/servicecode` -/
  | servicecode
  /-- `product/ProductName` -/
  | productName
  /-- `product/region` -/
  | region
  /-- `savingsPlan/SavingsPlanARN` -/
  | savingsPlanARN
  /-- `reservation/ReservationARN` -/
  | reservationARN
  /-- `resourceTags/` and the tag. -/
  | resourceTags (tag : Text)
  | other (name : Text)
  deriving DecidableEq

/-- What the cells of a column are. -/
inductive Kind
  | text
  | number
  | date
  deriving DecidableEq

/-- The kind of a column; `numbers` are the other columns with numbers. -/
def Column.kind (numbers : Text → Bool) : Column → Kind
  | blendedCost | edpDiscount | privateRateDiscount => .number
  | usageStartDate | usageEndDate => .date
  | other name => if numbers name then .number else .text
  | _ => .text

def EDP_DISCOUNTS : List Column := [.edpDiscount, .privateRateDiscount]

/-- A line item of a report: its cells, of which those with a date and the item type are never empty. -/
structure LineItem where
  usageStartDate : ℤ
  usageEndDate : ℤ
  lineItemType : Text
  /-- The cells of the other columns of texts. -/
  text : Column → Option Text
  /-- The cells of the columns of numbers. -/
  number : Column → Option ℚ
  lineItemType_ne : lineItemType ≠ []

/-- The text in a cell of a line item. -/
def LineItem.cell (x : LineItem) : Column → Option Text
  | .lineItemType => some x.lineItemType
  | c => x.text c

/-- The date in a cell of a line item. -/
def LineItem.date (x : LineItem) : Column → ℤ
  | .usageEndDate => x.usageEndDate
  | _ => x.usageStartDate

/-- The columns both loaders read without asking whether they are there. -/
def REQUIRED : List Column :=
  [.billingPeriodStartDate, .usageAccountId, .usageStartDate, .usageEndDate, .lineItemType, .blendedCost]

/-- A cost report. -/
structure Report where
  columns : List Column
  numbers : Text → Bool
  rows : List LineItem
  nodup : columns.Nodup
  required : ∀ c ∈ REQUIRED, c ∈ columns

/-! ## Values -/

/-- A value of a row or an expense. -/
inductive Value
  | missing
  | text (s : Text)
  /-- The text of a number. -/
  | numeral (q : ℚ)
  | number (q : ℚ)
  | nan
  /-- The text of a date. -/
  | date (t : ℤ)
  | timestamp (t : ℤ)
  deriving DecidableEq

/-- A `float`. -/
inductive Float64
  | nan
  | val (q : ℚ)
  deriving DecidableEq

namespace Float64

def add : Float64 → Float64 → Float64
  | val p, val q => val (p + q)
  | _, _ => nan

instance : Add Float64 := ⟨add⟩

instance : Zero Float64 := ⟨val 0⟩

end Float64

namespace Value

/-- What `if` goes by. -/
def truthy : Value → Bool
  | missing => false
  | text s => s ≠ []
  | number q => q ≠ 0
  | _ => true

/-- `float`, of a value in a column of numbers. -/
def float : Value → Float64
  | numeral q => .val q
  | number q => .val q
  | _ => .nan

/-- `value or 0`, as a `float`. -/
def floatOrZero (v : Value) : Float64 := if v.truthy then v.float else 0

/-- The text of a value in a column of texts, or `None`. -/
def text? : Value → Option Text
  | text s => some s
  | _ => none

/-- `_datetime_from_value` -/
def datetime : Value → Option ℤ
  | date t => some t
  | _ => none

/-- A value with a `timestamp` becomes its text. -/
def strftime : Value → Value
  | timestamp t => date t
  | v => v

end Value

namespace Report

variable (R : Report) (x : LineItem) (c : Column)

/-- A cell in CSV. -/
def csvValue : Value :=
  match c.kind R.numbers with
  | .text => .text ((x.cell c).getD [])
  | .number => ((x.number c).map Value.numeral).getD (.text [])
  | .date => .date (x.date c)

/-- A cell in Parquet. -/
def parquetValue : Value :=
  match c.kind R.numbers with
  | .text => ((x.cell c).map Value.text).getD .missing
  | .number => ((x.number c).map Value.number).getD .nan
  | .date => .timestamp (x.date c)

/-- A row of the CSV form. -/
def csvRow : List (Column × Value) := R.columns.map fun c => (c, R.csvValue x c)

end Report

/-! ## Expenses -/

/-- An expense, as it is passed to `update_raw_records`. -/
@[ext] structure Expense where
  recN : Option ℕ
  cloudAccountId : Option Uuid
  resourceId : Option Text
  startDate : Option ℤ
  endDate : Option ℤ
  cost : Float64
  boxUsage : Bool
  fields : List (Column × Value)
  deriving DecidableEq

/-- `expense.get`, of a text. -/
def get (fields : List (Column × Value)) (c : Column) : Option Text := (fields.lookup c).bind Value.text?

/-- `expense.get(c, '')` -/
def getText (fields : List (Column × Value)) (c : Column) : Text := (get fields c).getD []

/-- `short_resource_id` -/
def shortResourceId (resourceId : Text) : Text :=
  if '/' ∈ resourceId then (resourceId.dropWhile (· ≠ '/')).tail else resourceId

/-- `_is_flavor_usage` -/
def isFlavorUsage (fields : List (Column × Value)) : Bool :=
  let usageType := getText fields .usageType
  let serviceCode := getText fields .servicecode
  let description := getText fields .lineItemDescription
  let itemType := getText fields .lineItemType
  (serviceCode = "AmazonECS".toList && usageType.contains "Fargate") ||
    (serviceCode = "AmazonSageMaker".toList &&
      (description.contains "ml." || itemType = "SavingsPlanNegation".toList)) ||
    (serviceCode = "AWSLambda".toList && usageType.contains "Lambda-GB-Second") ||
    usageType.contains "BoxUsage"

/-- `ITEM_TYPE_ID_FIELDS` -/
def ITEM_TYPE_ID_FIELDS (itemType : Text) : Option (List Column) :=
  if itemType = "Tax".toList then some [.taxType, .productName]
  else if itemType = "Usage".toList then some [.productCode, .operation, .region]
  else none

/-- `compose_resource_id` -/
def composeResourceId (fields : List (Column × Value)) : Option Text :=
  let itemType := getText fields .lineItemType
  let spId := getText fields .savingsPlanARN
  let riId := getText fields .reservationARN
  if itemType = "Credit".toList then none
  else if itemType.contains "SavingsPlan" ∧ spId ≠ [] then some (shortResourceId spId)
  else if riId ≠ [] then some (shortResourceId riId)
  else match ITEM_TYPE_ID_FIELDS itemType with
    | some parts => some (List.intercalate [' '] (parts.filterMap (get fields)))
    | none => get fields .lineItemDescription

/-- The expense is moved to its savings plan. -/
def movesToPlan (fields : List (Column × Value)) : Bool :=
  getText fields .lineItemType = "SavingsPlanCoveredUsage".toList && getText fields .savingsPlanARN ≠ []

/-- `_set_resource_id`, of the fields of an expense and its resource id. -/
def setResourceId (fields : List (Column × Value)) (resourceId : Option Text) : Option Text :=
  let itemResId := getText fields .resourceId
  if resourceId.isNone ∨ movesToPlan fields then
    match composeResourceId fields with
    | some resId => if resId ≠ [] then some resId else resourceId
    | none => resourceId
  else if itemResId.contains "elasticloadbalancing:" then some itemResId
  else resourceId

/-- The time of a date is set to midnight. -/
def midnight (t : ℤ) : ℤ := t - t % 86400

/-! ## The loaders -/

/-- What an import is made with. -/
structure Settings where
  /-- `account_id_ca_id_map` -/
  accounts : Text → Option Uuid
  minDateImportThreshold : ℤ
  useEdpDiscount : Bool
  stripEdp : Bool

/-- What a loader has done: the calls of `update_raw_records`, the billing period and the skipped accounts. -/
structure Loaded where
  updates : List (List Expense)
  billingPeriod : Option Text
  skippedAccounts : Finset (Option Text)

variable (S : Settings)

/-- The expense starts late enough, or is updated every day. -/
def imported (startDate : Option ℤ) (itemType : Text) : Bool :=
  startDate.any (S.minDateImportThreshold ≤ ·) || itemType = "RIFee".toList

/-- What the loop of `load_csv_report` makes of a row. -/
def csvExpense (row : List (Column × Value)) (recordNumber : ℕ) (cloudAccountId : Uuid) : Option Expense :=
  let resourceId := (get row .resourceId).map shortResourceId
  let startDate := ((row.lookup .usageStartDate).bind Value.datetime).map midnight
  if ¬ imported S startDate (getText row .lineItemType) then none
  else
    let endDate := (row.lookup .usageEndDate).bind Value.datetime
    let blended := ((row.lookup .blendedCost).map Value.floatOrZero).getD 0
    let cost := if S.useEdpDiscount then
        EDP_DISCOUNTS.foldl (fun cost field => cost + ((row.lookup field).map Value.floatOrZero).getD 0) blended
      else blended
    let row := if ¬ S.useEdpDiscount ∧ S.stripEdp then row.filter fun f => f.1 ∉ EDP_DISCOUNTS else row
    let boxUsage := isFlavorUsage row
    let fields := row.filter fun f => f.2 ≠ .text []
    let resourceId := resourceId.filter (· ≠ [])
    some ⟨some recordNumber, some cloudAccountId, setResourceId fields resourceId, startDate, endDate, cost,
      boxUsage, fields⟩

/-- The state of the loop of `load_csv_report`. -/
structure CsvState where
  updates : List (List Expense)
  chunk : List Expense
  recordNumber : ℕ
  billingPeriod : Option Text
  skippedAccounts : Finset (Option Text)

def CHUNK_SIZE : ℕ := 200

/-- A row of the loop of `load_csv_report`. -/
def csvStep (s : CsvState) (row : List (Column × Value)) : CsvState :=
  let s := if s.billingPeriod.isNone then { s with billingPeriod := some (getText row .billingPeriodStartDate) } else s
  let s := if s.chunk.length = CHUNK_SIZE then { s with updates := s.updates ++ [s.chunk], chunk := [] } else s
  let accountId := getText row .usageAccountId
  match S.accounts accountId with
  | none => { s with skippedAccounts := insert (some accountId) s.skippedAccounts }
  | some cloudAccountId =>
    let s := { s with recordNumber := s.recordNumber + 1 }
    match csvExpense S row s.recordNumber cloudAccountId with
    | none => s
    | some e => { s with chunk := s.chunk ++ [e] }

/-- `load_csv_report`, as `load_report` calls it. -/
def loadCsvReport (R : Report) : Loaded :=
  let s := (R.rows.map R.csvRow).foldl (csvStep S) ⟨[], [], 0, none, ∅⟩
  ⟨if s.chunk ≠ [] then s.updates ++ [s.chunk] else s.updates, s.billingPeriod, s.skippedAccounts⟩

/-- What a cell sets in its expense, but for the account. -/
def setCell (c : Column) (v : Value) (e : Expense) : Expense :=
  let e := match c with
    | .resourceId => if v.truthy then { e with resourceId := v.text?.map shortResourceId } else e
    | .usageStartDate => { e with startDate := v.datetime.map midnight }
    | .usageEndDate => { e with endDate := v.datetime }
    | .blendedCost => { e with cost := v.floatOrZero }
    | .edpDiscount | .privateRateDiscount =>
      if S.useEdpDiscount then { e with cost := e.cost + v.floatOrZero } else e
    | .usageType => if (v.text?.getD []).contains "BoxUsage" then { e with boxUsage := true } else e
    | _ => e
  if c ∈ EDP_DISCOUNTS ∧ ¬ S.useEdpDiscount ∧ S.stripEdp then e
  else
    let v := if v = .nan then .number 0 else v
    if v.truthy then { e with fields := e.fields ++ [(c, v)] } else e

/-- The state of the loop of `load_parquet_report` over a slice. -/
structure ParquetState where
  chunk : List Expense
  skippedRows : List ℕ
  billingPeriod : Option Text
  skippedAccounts : Finset (Option Text)

/-- A cell of a slice that begins at row `i`. -/
def cellStep (i : ℕ) (c : Column) (s : ParquetState) (cell : Value × ℕ) : ParquetState :=
  let expenseNum := cell.2
  if expenseNum ∈ s.skippedRows then s
  else
    let chunk := s.chunk.modify expenseNum fun e => { e with recN := some (i + expenseNum) }
    let value := cell.1.strftime
    if c = .billingPeriodStartDate ∧ s.billingPeriod = none then
      { s with chunk := chunk.modify expenseNum (setCell S c value), billingPeriod := value.text? }
    else if c = .usageAccountId then
      match value.text?.bind S.accounts with
      | none => { s with
          chunk := chunk
          skippedAccounts := insert value.text? s.skippedAccounts
          skippedRows := expenseNum :: s.skippedRows }
      | some cloudAccountId =>
        let chunk := chunk.modify expenseNum fun e => { e with cloudAccountId := some cloudAccountId }
        { s with chunk := chunk.modify expenseNum (setCell S c value) }
    else { s with chunk := chunk.modify expenseNum (setCell S c value) }

/-- A slice of `load_parquet_report`, column by column. -/
def loadSlice (R : Report) (i : ℕ) (rows : List LineItem) (s : ParquetState) : ParquetState :=
  R.columns.foldl (fun s c => (rows.map fun x => R.parquetValue x c).zipIdx.foldl (cellStep S i c) s) s

/-- An expense before any of its cells. -/
def blank : Expense := ⟨none, none, none, none, none, 0, false, []⟩

/-- The expenses of a slice that are imported. -/
def sliceExpenses (s : ParquetState) : List Expense :=
  (s.chunk.filter fun e => s.chunk.idxOf e ∉ s.skippedRows ∧ e.cloudAccountId.isSome ∧
      imported S e.startDate (getText e.fields .lineItemType)).map fun e =>
    { e with
      boxUsage := e.boxUsage || isFlavorUsage e.fields
      resourceId := setResourceId e.fields e.resourceId }

/-- The loop of `load_parquet_report` over the slices. -/
def sliceStep (R : Report) (l : Loaded) (slice : List LineItem × ℕ) : Loaded :=
  let s := loadSlice S R (slice.2 * CHUNK_SIZE) slice.1
    ⟨List.replicate CHUNK_SIZE blank, [], l.billingPeriod, l.skippedAccounts⟩
  let expenses := sliceExpenses S s
  ⟨if expenses ≠ [] then l.updates ++ [expenses] else l.updates, s.billingPeriod, s.skippedAccounts⟩

/-- `load_parquet_report`, as `load_report` calls it. -/
def loadParquetReport (R : Report) : Loaded :=
  (R.rows.toChunks CHUNK_SIZE).zipIdx.foldl (sliceStep S R) ⟨[], none, ∅⟩

end AwsReport
