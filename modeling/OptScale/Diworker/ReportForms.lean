import OptScale.Diworker.AwsReport

/-!
# Diworker/ReportForms — what is kept of a report, and its CSV form

An import passes on one record for each line item that is imported.  Whether it comes as CSV or as Parquet, an
expense keeps the same texts (`get_csvField`, `get_parquetField`), and what is read of its fields is read of
their texts.  The records of the CSV form are those of its rows (`loadCsvReport_spec`).
-/

namespace AwsReport

/-! ## Folds over the columns -/

section Folds

variable {α β : Type*}

variable [DecidableEq α]

theorem lookup_filterMap_pair (f : α → Option β) (l : List α) (a : α) :
    (l.filterMap fun a => (f a).map (a, ·)).lookup a = if a ∈ l then f a else none := by
  induction l with
  | nil => rfl
  | cons b l ih =>
    rw [List.filterMap_cons]
    by_cases h : a = b
    · subst h
      cases hf : f a with
      | none =>
        simp only [Option.map_none, ih, List.mem_cons, true_or, if_true]
        rw [hf]
        split <;> rfl
      | some v => simp
    · cases f b with
      | none => simp [ih, h]
      | some v => simp [ih, h, List.lookup_cons, beq_eq_false_iff_ne.mpr h]

/-- A fold that acts at one column. -/
theorem foldl_once (k : α) (f : β → β) : ∀ {l : List α} (b : β), l.Nodup →
    l.foldl (fun b a => if a = k then f b else b) b = if k ∈ l then f b else b
  | [], b, _ => by simp
  | a :: l, b, h => by
    obtain ⟨ha, hl⟩ := List.nodup_cons.mp h
    rw [List.foldl_cons]
    by_cases hk : a = k
    · subst hk
      rw [if_pos rfl, foldl_once a f (f b) hl, if_neg ha, if_pos List.mem_cons_self]
    · rw [if_neg hk, foldl_once k f b hl]
      simp [List.mem_cons, Ne.symm hk]

end Folds

/-! ## Records -/

/-- The column is a tag. -/
def Column.isTag : Column → Bool
  | .resourceTags _ => true
  | _ => false

/-- What an expense is, up to its number in the report and the fields nothing else is made of. -/
structure Record where
  cloudAccountId : Option Uuid
  resourceId : Option Text
  startDate : Option ℤ
  endDate : Option ℤ
  cost : Float64
  boxUsage : Bool
  tags : List (Column × Value)
  deriving DecidableEq

def Expense.record (e : Expense) : Record :=
  ⟨e.cloudAccountId, e.resourceId, e.startDate, e.endDate, e.cost, e.boxUsage, e.fields.filter (·.1.isTag)⟩

/-- **Two imports agree**: they pass the same records on, and report the same period and skipped accounts. -/
structure Agree (l l' : Loaded) : Prop where
  records : l.updates.flatten.map Expense.record = l'.updates.flatten.map Expense.record
  billingPeriod : l.billingPeriod = l'.billingPeriod
  skippedAccounts : l.skippedAccounts = l'.skippedAccounts

/-! ## What is kept of a cell -/

section Cells

variable (S : Settings) (R : Report) (x : LineItem) (c : Column)

/-- The column is stripped. -/
def Stripped : Prop := c ∈ EDP_DISCOUNTS ∧ ¬ S.useEdpDiscount ∧ S.stripEdp

instance : Decidable (Stripped S c) := inferInstanceAs (Decidable (_ ∧ _))

/-- What an expense keeps of a cell in CSV. -/
def csvField : Option Value :=
  if Stripped S c ∨ R.csvValue x c = .text [] then none else some (R.csvValue x c)

/-- What an expense keeps of a value in Parquet. -/
def keptValue (v : Value) : Option Value :=
  if Stripped S c then none
  else if (if v = .nan then Value.number 0 else v).truthy then some (if v = .nan then .number 0 else v) else none

/-- What an expense keeps of a cell in Parquet. -/
def parquetField : Option Value := keptValue S c (R.parquetValue x c).strftime

/-- The text an item has in a column of texts. -/
def itemText : Option Text :=
  if c ∈ R.columns ∧ c.kind R.numbers = .text then (x.cell c).filter (· ≠ []) else none

/-- The fields of an expense. -/
def fieldsOf (f : Column → Option Value) : List (Column × Value) :=
  R.columns.filterMap fun c => (f c).map (c, ·)

variable {S R x c}

theorem get_fieldsOf (f : Column → Option Value) :
    get (fieldsOf R f) c = if c ∈ R.columns then (f c).bind Value.text? else none := by
  unfold get fieldsOf
  rw [lookup_filterMap_pair]
  split <;> rfl

theorem Stripped.kind (h : Stripped S c) : c.kind R.numbers = .number := by
  obtain ⟨hc, -⟩ := h
  simp only [EDP_DISCOUNTS, List.mem_cons, List.not_mem_nil, or_false] at hc
  obtain rfl | rfl := hc
  · rfl
  · rfl

theorem text_csvField : (csvField S R x c).bind Value.text? =
    if c.kind R.numbers = .text then (x.cell c).filter (· ≠ []) else none := by
  unfold csvField Report.csvValue
  cases hkind : c.kind R.numbers with
  | text =>
    have hstripped : ¬ Stripped S c := fun h => by
      rw [h.kind] at hkind
      cases hkind
    cases hcell : x.cell c with
    | none => simp
    | some s => by_cases hs : s = [] <;> simp [hstripped, hs, Value.text?, Option.filter]
  | number => cases x.number c <;> by_cases h : Stripped S c <;> simp [h, Value.text?]
  | date => by_cases h : Stripped S c <;> simp [h, Value.text?]

theorem text_parquetField : (parquetField S R x c).bind Value.text? =
    if c.kind R.numbers = .text then (x.cell c).filter (· ≠ []) else none := by
  unfold parquetField keptValue Report.parquetValue
  cases hkind : c.kind R.numbers with
  | text =>
    have hstripped : ¬ Stripped S c := fun h => by
      rw [h.kind] at hkind
      cases hkind
    cases hcell : x.cell c with
    | none => simp [Value.strftime, Value.truthy]
    | some s => by_cases hs : s = [] <;> simp [hstripped, hs, Value.strftime, Value.truthy, Value.text?, Option.filter]
  | number =>
    cases x.number c with
    | none => simp [Value.strftime, Value.truthy]
    | some q => by_cases h : Stripped S c <;> by_cases hq : q = 0 <;>
        simp [h, hq, Value.strftime, Value.truthy, Value.text?]
  | date => by_cases h : Stripped S c <;> simp [h, Value.strftime, Value.truthy, Value.text?]

/-- **Both keep the same texts.** -/
theorem get_csvField : get (fieldsOf R (csvField S R x)) = itemText R x := by
  funext c
  rw [get_fieldsOf, text_csvField, itemText, ite_and]

theorem get_parquetField : get (fieldsOf R (parquetField S R x)) = itemText R x := by
  funext c
  rw [get_fieldsOf, text_parquetField, itemText, ite_and]

/-! ## What is read of the fields -/

/-- What is read of the fields is read of their texts. -/
theorem isFlavorUsage_congr {l l' : List (Column × Value)} (h : getText l = getText l') :
    isFlavorUsage l = isFlavorUsage l' := by
  unfold isFlavorUsage
  rw [h]

theorem getText_congr {l l' : List (Column × Value)} (h : get l = get l') : getText l = getText l' := by
  funext c
  rw [getText, getText, h]

theorem composeResourceId_congr {l l' : List (Column × Value)} (h : get l = get l') :
    composeResourceId l = composeResourceId l' := by
  unfold composeResourceId
  rw [getText_congr h, h]

theorem setResourceId_congr {l l' : List (Column × Value)} (h : get l = get l') (r : Option Text) :
    setResourceId l r = setResourceId l' r := by
  unfold setResourceId movesToPlan
  rw [getText_congr h, composeResourceId_congr h]

/-! ## An expense from CSV -/

variable (S R x) in
/-- The cost of an item in CSV. -/
def csvCost : Float64 :=
  if S.useEdpDiscount then
    EDP_DISCOUNTS.foldl (fun cost c => cost + if c ∈ R.columns then .val ((x.number c).getD 0) else 0)
      (.val ((x.number .blendedCost).getD 0))
  else .val ((x.number .blendedCost).getD 0)

variable (S x) in
/-- The item is imported, as far as its date goes. -/
def Recent : Prop := imported S (some (midnight x.usageStartDate)) x.lineItemType = true

instance : Decidable (Recent S x) := inferInstanceAs (Decidable (_ = _))

theorem lookup_csvRow : (R.csvRow x).lookup c = if c ∈ R.columns then some (R.csvValue x c) else none := by
  have hrow : R.csvRow x = R.columns.filterMap fun c => (some (R.csvValue x c)).map (c, ·) := by
    rw [Report.csvRow, ← List.filterMap_eq_map]
    rfl
  rw [hrow, lookup_filterMap_pair]

theorem floatOrZero_csvValue (hc : c.kind R.numbers = .number) :
    (R.csvValue x c).floatOrZero = .val ((x.number c).getD 0) := by
  unfold Report.csvValue
  rw [hc]
  cases x.number c <;> rfl

theorem csvRow_number (hc : c.kind R.numbers = .number) :
    (((R.csvRow x).lookup c).map Value.floatOrZero).getD 0 =
      if c ∈ R.columns then .val ((x.number c).getD 0) else 0 := by
  rw [lookup_csvRow]
  split
  · exact floatOrZero_csvValue hc
  · rfl

theorem getText_csvRow (hc : c.kind R.numbers = .text) :
    getText (R.csvRow x) c = if c ∈ R.columns then (x.cell c).getD [] else [] := by
  unfold getText get
  rw [lookup_csvRow, Report.csvValue, hc]
  split <;> rfl

theorem stripped_csvRow :
    (if ¬ S.useEdpDiscount ∧ S.stripEdp then (R.csvRow x).filter fun f => f.1 ∉ EDP_DISCOUNTS
      else R.csvRow x) = fieldsOf R fun c => if Stripped S c then none else some (R.csvValue x c) := by
  split
  · rename_i hstrip
    rw [Report.csvRow, fieldsOf, ← List.filterMap_eq_filter, List.filterMap_map]
    refine List.filterMap_congr fun c _ => ?_
    by_cases hc : c ∈ EDP_DISCOUNTS
    · have hstripped : Stripped S c := ⟨hc, hstrip⟩
      simp [hstripped, hc, Option.guard]
    · have hstripped : ¬ Stripped S c := fun h => hc h.1
      simp [hstripped, hc, Option.guard]
  · rename_i hstrip
    rw [Report.csvRow, fieldsOf, ← List.filterMap_eq_map]
    refine List.filterMap_congr fun c _ => ?_
    have hstripped : ¬ Stripped S c := fun h => hstrip h.2
    rw [if_neg hstripped]
    rfl

theorem getText_stripped : getText (fieldsOf R fun c => if Stripped S c then none else some (R.csvValue x c)) =
    fun c => (itemText R x c).getD [] := by
  funext c
  rw [getText, get_fieldsOf, itemText]
  by_cases hmem : c ∈ R.columns
  · simp only [hmem, if_true, true_and]
    unfold Report.csvValue
    cases hkind : c.kind R.numbers with
    | text =>
      have hstripped : ¬ Stripped S c := fun h => by
        rw [h.kind] at hkind
        cases hkind
      cases hcell : x.cell c with
      | none => simp [hstripped, Value.text?]
      | some s => by_cases hs : s = [] <;> simp [hstripped, hs, Value.text?, Option.filter]
    | number => cases x.number c <;> by_cases h : Stripped S c <;> simp [h, Value.text?]
    | date => by_cases h : Stripped S c <;> simp [h, Value.text?]
  · simp [hmem]

theorem cleaned_csvRow : (fieldsOf R fun c => if Stripped S c then none else some (R.csvValue x c)).filter
      (fun f => f.2 ≠ .text []) = fieldsOf R (csvField S R x) := by
  unfold fieldsOf
  rw [List.filter_filterMap]
  refine List.filterMap_congr fun c _ => ?_
  unfold csvField
  by_cases hstrip : Stripped S c
  · simp [hstrip]
  · by_cases hv : R.csvValue x c = .text [] <;> simp [hstrip, hv, Option.filter]

theorem shortResourceId_nil : shortResourceId [] = [] := rfl

/-- **The expense of a row in CSV.** -/
theorem csvExpense_eq (recordNumber : ℕ) (cloudAccountId : Uuid) :
    csvExpense S (R.csvRow x) recordNumber cloudAccountId =
      if Recent S x then
        some ⟨some recordNumber, some cloudAccountId,
          setResourceId (fieldsOf R (csvField S R x))
            (((itemText R x .resourceId).map shortResourceId).filter (· ≠ [])),
          some (midnight x.usageStartDate), some x.usageEndDate, csvCost S R x,
          isFlavorUsage (fieldsOf R (csvField S R x)), fieldsOf R (csvField S R x)⟩
      else none := by
  have htype : getText (R.csvRow x) .lineItemType = x.lineItemType := by
    rw [getText_csvRow rfl, if_pos (R.required _ (by decide))]
    rfl
  have hstart : ((R.csvRow x).lookup .usageStartDate).bind Value.datetime = some x.usageStartDate := by
    rw [lookup_csvRow, if_pos (R.required _ (by decide))]
    rfl
  have hend : ((R.csvRow x).lookup .usageEndDate).bind Value.datetime = some x.usageEndDate := by
    rw [lookup_csvRow, if_pos (R.required _ (by decide))]
    rfl
  have hblended : (((R.csvRow x).lookup .blendedCost).map Value.floatOrZero).getD 0 =
      .val ((x.number .blendedCost).getD 0) := by
    rw [csvRow_number rfl, if_pos (R.required _ (by decide))]
  have hcost : (if S.useEdpDiscount then
        EDP_DISCOUNTS.foldl (fun cost c => cost + (((R.csvRow x).lookup c).map Value.floatOrZero).getD 0)
          (.val ((x.number .blendedCost).getD 0))
      else .val ((x.number .blendedCost).getD 0)) = csvCost S R x := by
    simp only [csvCost, EDP_DISCOUNTS, List.foldl_cons, List.foldl_nil]
    rw [csvRow_number rfl, csvRow_number rfl]
  have hresource : ((get (R.csvRow x) .resourceId).map shortResourceId).filter (· ≠ []) =
      ((itemText R x .resourceId).map shortResourceId).filter (· ≠ []) := by
    rw [get, lookup_csvRow, itemText]
    by_cases hmem : Column.resourceId ∈ R.columns
    · have hkind : Column.resourceId.kind R.numbers = .text := rfl
      rw [if_pos hmem, if_pos ⟨hmem, hkind⟩, Report.csvValue, hkind]
      cases x.cell .resourceId with
      | none => rfl
      | some s => by_cases hs : s = [] <;> simp [hs, Value.text?, Option.filter, shortResourceId_nil]
    · simp [hmem]
  have hbox : isFlavorUsage (fieldsOf R fun c => if Stripped S c then none else some (R.csvValue x c)) =
      isFlavorUsage (fieldsOf R (csvField S R x)) := by
    refine isFlavorUsage_congr (getText_stripped.trans ?_)
    funext c
    rw [getText, get_csvField]
  unfold csvExpense
  simp only [htype, hstart, hend, hblended, hresource, stripped_csvRow, cleaned_csvRow, hbox, Option.map_some]
  rw [hcost]
  split
  · rename_i h
    rw [if_neg (show ¬ Recent S x from h)]
  · rename_i h
    rw [if_pos (show Recent S x from not_not.mp h)]

/-! ## A report from CSV -/

variable (S R x) in
/-- The record of an item in CSV. -/
def csvRecord : Option Record :=
  (S.accounts ((x.cell .usageAccountId).getD [])).bind fun cloudAccountId =>
    if Recent S x then
      some ⟨some cloudAccountId,
        setResourceId (fieldsOf R (csvField S R x))
          (((itemText R x .resourceId).map shortResourceId).filter (· ≠ [])),
        some (midnight x.usageStartDate), some x.usageEndDate, csvCost S R x,
        isFlavorUsage (fieldsOf R (csvField S R x)), (fieldsOf R (csvField S R x)).filter (·.1.isTag)⟩
    else none

theorem record_csvExpense (recordNumber : ℕ) (cloudAccountId : Uuid)
    (h : S.accounts ((x.cell .usageAccountId).getD []) = some cloudAccountId) :
    (csvExpense S (R.csvRow x) recordNumber cloudAccountId).map Expense.record = csvRecord S R x := by
  rw [csvExpense_eq, csvRecord, h, Option.bind_some]
  split <;> rfl

theorem getText_account : getText (R.csvRow x) .usageAccountId = (x.cell .usageAccountId).getD [] := by
  rw [getText_csvRow rfl, if_pos (R.required _ (by decide))]

theorem getText_period :
    getText (R.csvRow x) .billingPeriodStartDate = (x.cell .billingPeriodStartDate).getD [] := by
  rw [getText_csvRow rfl, if_pos (R.required _ (by decide))]

/-- The records of a state of the loop. -/
def CsvState.records (s : CsvState) : List Record := (s.updates.flatten ++ s.chunk).map Expense.record

variable (S) in
/-- The account CSV skips an item for. -/
def csvSkipped (x : LineItem) : Option (Option Text) :=
  if (S.accounts ((x.cell .usageAccountId).getD [])).isNone then some (some ((x.cell .usageAccountId).getD []))
  else none

/-- **A row in CSV.** -/
theorem csvStep_spec (s : CsvState) :
    (csvStep S s (R.csvRow x)).records = s.records ++ (csvRecord S R x).toList ∧
      (csvStep S s (R.csvRow x)).billingPeriod =
        s.billingPeriod.or (some ((x.cell .billingPeriodStartDate).getD [])) ∧
      (csvStep S s (R.csvRow x)).skippedAccounts = s.skippedAccounts ∪ (csvSkipped S x).toFinset := by
  unfold csvStep
  simp only [getText_account, getText_period]
  have hperiod : ∃ s₁ : CsvState, (if s.billingPeriod.isNone then
        { s with billingPeriod := some ((x.cell .billingPeriodStartDate).getD []) } else s) = s₁ ∧
      s₁.records = s.records ∧ s₁.skippedAccounts = s.skippedAccounts ∧
        s₁.billingPeriod = s.billingPeriod.or (some ((x.cell .billingPeriodStartDate).getD [])) := by
    refine ⟨_, rfl, ?_⟩
    cases hs : s.billingPeriod <;> simp [hs, CsvState.records]
  obtain ⟨s₁, hs₁, hrecords₁, hskipped₁, hperiod₁⟩ := hperiod
  rw [hs₁, ← hrecords₁, ← hskipped₁, ← hperiod₁]
  have hflush : ∃ s₂ : CsvState, (if s₁.chunk.length = CHUNK_SIZE then
        { s₁ with updates := s₁.updates ++ [s₁.chunk], chunk := [] } else s₁) = s₂ ∧
      s₂.records = s₁.records ∧ s₂.skippedAccounts = s₁.skippedAccounts ∧
        s₂.billingPeriod = s₁.billingPeriod := by
    refine ⟨_, rfl, ?_⟩
    split <;> simp [CsvState.records]
  obtain ⟨s₂, hs₂, hrecords₂, hskipped₂, hperiod₂⟩ := hflush
  rw [hs₂, ← hrecords₂, ← hskipped₂, ← hperiod₂]
  cases haccount : S.accounts ((x.cell .usageAccountId).getD []) with
  | none => simp [csvRecord, csvSkipped, haccount, CsvState.records]
  | some cloudAccountId =>
    rw [csvSkipped, haccount, ← record_csvExpense (s₂.recordNumber + 1) cloudAccountId haccount]
    cases hexpense : csvExpense S (R.csvRow x) (s₂.recordNumber + 1) cloudAccountId with
    | none => simp [CsvState.records, hexpense]
    | some e => simp [CsvState.records, hexpense]

theorem foldl_csvStep : ∀ (rows : List LineItem) (s : CsvState),
    ((rows.map R.csvRow).foldl (csvStep S) s).records = s.records ++ rows.filterMap (csvRecord S R) ∧
      ((rows.map R.csvRow).foldl (csvStep S) s).billingPeriod =
        s.billingPeriod.or (rows.head?.map fun x => (x.cell .billingPeriodStartDate).getD []) ∧
      ((rows.map R.csvRow).foldl (csvStep S) s).skippedAccounts =
        s.skippedAccounts ∪ (rows.filterMap (csvSkipped S)).toFinset
  | [], s => by simp
  | x :: rows, s => by
    obtain ⟨hrecords, hperiod, hskipped⟩ := foldl_csvStep rows (csvStep S s (R.csvRow x))
    obtain ⟨hrecords', hperiod', hskipped'⟩ := csvStep_spec (S := S) (R := R) (x := x) s
    rw [List.map_cons, List.foldl_cons, hrecords, hperiod, hskipped, hrecords', hperiod', hskipped']
    refine ⟨?_, ?_, ?_⟩
    · rw [List.append_assoc, List.filterMap_cons]
      cases csvRecord S R x <;> rfl
    · rw [Option.or_assoc]
      rfl
    · rw [Finset.union_assoc, List.filterMap_cons]
      cases csvSkipped S x with
      | none => simp
      | some a =>
        simp only [Option.toFinset_some, List.toFinset_cons]
        rw [Finset.insert_eq]

variable (S R) in
/-- **The CSV form of a report.** -/
theorem loadCsvReport_spec :
    (loadCsvReport S R).updates.flatten.map Expense.record = R.rows.filterMap (csvRecord S R) ∧
      (loadCsvReport S R).billingPeriod =
        R.rows.head?.map (fun x => (x.cell .billingPeriodStartDate).getD []) ∧
      (loadCsvReport S R).skippedAccounts = (R.rows.filterMap (csvSkipped S)).toFinset := by
  obtain ⟨hrecords, hperiod, hskipped⟩ := foldl_csvStep (S := S) (R := R) R.rows ⟨[], [], 0, none, ∅⟩
  refine ⟨?_, by rw [loadCsvReport, hperiod]; rfl, by rw [loadCsvReport, hskipped, Finset.empty_union]⟩
  rw [CsvState.records, CsvState.records] at hrecords
  rw [← List.nil_append (R.rows.filterMap _)]
  refine Eq.trans (congrArg _ ?_) hrecords
  simp only [loadCsvReport]
  split
  · simp
  · rename_i hchunk
    simp [not_not.mp hchunk]

end Cells

end AwsReport
