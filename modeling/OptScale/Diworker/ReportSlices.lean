import OptScale.Diworker.ReportForms
import OptScale.Foundations.Chunks

/-!
# Diworker/ReportSlices — the Parquet form of a report

The Parquet loader fills the expenses of a slice column by column.  A cell changes its own row only
(`cellStep_slot`), so a column changes every row by its own cell, and column by column comes to row by row
(`foldl_columns_slot`).  Whatever the order of the columns, a row that has an account ends as one expense
(`filled_eq`), in which only the cost depends on the order.  What is passed on of a slice are the records of its
rows (`sliceStep_spec`), and of the report those of all rows (`loadParquetReport_spec`).
-/

namespace AwsReport

section Cells

variable {S : Settings} {R : Report} {x : LineItem} {c : Column}

/-! ## A slice from Parquet, row by row -/

variable (S R x) in
/-- What a column does to the expense of an item, and to whether it is skipped. -/
def rowStep (recN : ℕ) (r : Expense × Bool) (c : Column) : Expense × Bool :=
  if r.2 then r
  else
    let e := { r.1 with recN := some recN }
    let value := (R.parquetValue x c).strftime
    if c = .usageAccountId then
      match value.text?.bind S.accounts with
      | none => (e, true)
      | some cloudAccountId => (setCell S c value { e with cloudAccountId := some cloudAccountId }, false)
    else (setCell S c value e, false)

/-- The expense of a row, and whether it is skipped. -/
def ParquetState.slot (s : ParquetState) (j : ℕ) : Option (Expense × Bool) :=
  s.chunk[j]?.map fun e => (e, decide (j ∈ s.skippedRows))

/-- **A cell changes its own row.** -/
theorem cellStep_slot (i n : ℕ) (s : ParquetState) (j : ℕ) :
    (cellStep S i c s (R.parquetValue x c, n)).slot j =
      if j = n then (s.slot n).map (fun r => rowStep S R x (i + n) r c) else s.slot j := by
  unfold cellStep ParquetState.slot rowStep
  by_cases hskip : n ∈ s.skippedRows
  · rw [if_pos hskip]
    split
    · rename_i hj
      subst hj
      cases s.chunk[j]? <;> simp [hskip]
    · rfl
  · simp only [if_neg hskip]
    by_cases hj : j = n
    · subst hj
      simp only [if_true]
      split
      · rename_i hc
        simp only [List.getElem?_modify_eq, Option.map_eq_map, Option.map_map]
        refine congrArg (fun f => Option.map f s.chunk[j]?) (funext fun e => ?_)
        simp [hskip, hc.1]
      · split
        · rename_i hc
          subst hc
          cases (R.parquetValue x .usageAccountId).strftime.text?.bind S.accounts with
          | none =>
            simp only [List.getElem?_modify_eq, Option.map_eq_map, Option.map_map]
            refine congrArg (fun f => Option.map f s.chunk[j]?) (funext fun e => ?_)
            simp [hskip]
          | some cloudAccountId =>
            simp only [List.getElem?_modify_eq, Option.map_eq_map, Option.map_map]
            refine congrArg (fun f => Option.map f s.chunk[j]?) (funext fun e => ?_)
            simp [hskip]
        · simp only [List.getElem?_modify_eq, Option.map_eq_map, Option.map_map]
          refine congrArg (fun f => Option.map f s.chunk[j]?) (funext fun e => ?_)
          simp [hskip]
    · rw [if_neg hj]
      have hne : n ≠ j := fun h => hj h.symm
      split
      · simp only [List.getElem?_modify_ne _ _ hne]
      · split
        · cases (R.parquetValue x c).strftime.text?.bind S.accounts with
          | none => simp only [List.getElem?_modify_ne _ _ hne, List.mem_cons, hj, false_or]
          | some cloudAccountId => simp only [List.getElem?_modify_ne _ _ hne]
        · simp only [List.getElem?_modify_ne _ _ hne]

/-- The row at an index, where the rows begin at another. -/
def rowAt (rows : List LineItem) (k j : ℕ) : Option LineItem := if k ≤ j then rows[j - k]? else none

/-- **A column changes each row by its own cell.** -/
theorem foldl_cellStep_slot (i j : ℕ) : ∀ (rows : List LineItem) (k : ℕ) (s : ParquetState),
    (((rows.map fun x => R.parquetValue x c).zipIdx k).foldl (cellStep S i c) s).slot j =
      (rowAt rows k j).elim (s.slot j) fun x => (s.slot j).map fun r => rowStep S R x (i + j) r c
  | [], k, s => by simp [rowAt]
  | x :: rows, k, s => by
    rw [List.map_cons, List.zipIdx_cons, List.foldl_cons, foldl_cellStep_slot i j rows, cellStep_slot]
    obtain hlt | rfl | hlt := lt_trichotomy j k
    · have hne : j ≠ k := by omega
      have hout : ¬ k ≤ j := by omega
      have hout' : ¬ k + 1 ≤ j := by omega
      simp [rowAt, hne, hout, hout']
    · have hout : ¬ j + 1 ≤ j := by omega
      simp [rowAt, hout]
    · have hne : j ≠ k := by omega
      have hin : k ≤ j := by omega
      have hin' : k + 1 ≤ j := by omega
      have hsub : j - k = j - (k + 1) + 1 := by omega
      simp [rowAt, hne, hin, hin', hsub]

/-- **Column by column comes to row by row.** -/
theorem foldl_columns_slot (i j : ℕ) (rows : List LineItem) : ∀ (columns : List Column) (s : ParquetState),
    (columns.foldl (fun s c => (rows.map fun x => R.parquetValue x c).zipIdx.foldl (cellStep S i c) s) s).slot j =
      rows[j]?.elim (s.slot j) fun x => (s.slot j).map fun r => columns.foldl (rowStep S R x (i + j)) r
  | [], s => by cases rows[j]? <;> simp
  | c :: columns, s => by
    rw [List.foldl_cons, foldl_columns_slot i j rows columns, foldl_cellStep_slot]
    have hrow : rowAt rows 0 j = rows[j]? := by simp [rowAt]
    rw [hrow]
    cases rows[j]? with
    | none => rfl
    | some x => simp only [Option.elim_some, Option.map_map, List.foldl_cons, Function.comp_def]

/-! ## An expense from Parquet -/

variable (S R x) in
/-- The account of an item, as Parquet reads it. -/
def accountOf : Option Uuid := (x.cell .usageAccountId).bind S.accounts

variable (R x) in
/-- An amount of an item in Parquet. -/
def parquetAmount (c : Column) : Float64 :=
  match x.number c with
  | some q => .val q
  | none => .nan

variable (S R x) in
/-- What a column does to the cost. -/
def costStep (cost : Float64) (c : Column) : Float64 :=
  if c = .blendedCost then parquetAmount x c
  else if c ∈ EDP_DISCOUNTS ∧ S.useEdpDiscount then cost + parquetAmount x c
  else cost

variable (S R x) in
/-- The cost of an item in Parquet. -/
def parquetCost : Float64 := R.columns.foldl (costStep S x) 0

variable (S R x) in
/-- The expense of an item in Parquet, after all its columns. -/
def parquetExpense (recN : ℕ) (cloudAccountId : Uuid) : Expense where
  recN := some recN
  cloudAccountId := some cloudAccountId
  resourceId := (itemText R x .resourceId).map shortResourceId
  startDate := some (midnight x.usageStartDate)
  endDate := some x.usageEndDate
  cost := parquetCost S R x
  boxUsage := decide (.usageType ∈ R.columns) && ((x.cell .usageType).getD []).contains "BoxUsage"
  fields := fieldsOf R (parquetField S R x)

theorem text_parquetValue (hc : c.kind R.numbers = .text) :
    (R.parquetValue x c).strftime.text? = x.cell c := by
  rw [Report.parquetValue, hc]
  cases x.cell c <;> rfl

theorem floatOrZero_parquetValue (hc : c.kind R.numbers = .number) :
    (R.parquetValue x c).strftime.floatOrZero = parquetAmount x c := by
  rw [Report.parquetValue, hc, parquetAmount]
  cases x.number c with
  | none => rfl
  | some q =>
    by_cases hq : q = 0
    · subst hq
      rfl
    · simp [Value.strftime, Value.floatOrZero, Value.truthy, hq, Value.float]

variable (S c) in
/-- What a cell sets in its expense, but for what is kept of it. -/
def setFields (v : Value) (e : Expense) : Expense where
  recN := e.recN
  cloudAccountId := e.cloudAccountId
  resourceId := if c = .resourceId ∧ v.truthy then v.text?.map shortResourceId else e.resourceId
  startDate := if c = .usageStartDate then v.datetime.map midnight else e.startDate
  endDate := if c = .usageEndDate then v.datetime else e.endDate
  cost := if c = .blendedCost then v.floatOrZero
    else if c ∈ EDP_DISCOUNTS ∧ S.useEdpDiscount then e.cost + v.floatOrZero else e.cost
  boxUsage := if c = .usageType ∧ (v.text?.getD []).contains "BoxUsage" then true else e.boxUsage
  fields := e.fields

/-- **A cell, field by field.** -/
theorem setCell_eq (v : Value) (e : Expense) : setCell S c v e =
    { setFields S c v e with fields := e.fields ++ ((keptValue S c v).map (c, ·)).toList } := by
  have hkeep : ∀ e' : Expense, (if Stripped S c then e'
      else if (if v = .nan then Value.number 0 else v).truthy then
        { e' with fields := e'.fields ++ [(c, if v = .nan then Value.number 0 else v)] } else e') =
      { e' with fields := e'.fields ++ ((keptValue S c v).map (c, ·)).toList } := by
    intro e'
    unfold keptValue
    generalize (if v = .nan then Value.number 0 else v) = w
    split
    · simp
    · split <;> simp
  have hset : ∀ e' : Expense, e' = setFields S c v e →
      { e' with fields := e'.fields ++ ((keptValue S c v).map (c, ·)).toList } =
        { setFields S c v e with fields := e.fields ++ ((keptValue S c v).map (c, ·)).toList } := by
    rintro _ rfl
    rfl
  refine (hkeep _).trans (hset _ ?_)
  cases c with
  | resourceId => by_cases h : v.truthy <;> simp [setFields, h, EDP_DISCOUNTS]
  | usageType => by_cases h : (v.text?.getD []).contains "BoxUsage" <;> simp [setFields, h, EDP_DISCOUNTS]
  | edpDiscount => by_cases h : S.useEdpDiscount <;> simp [setFields, h, EDP_DISCOUNTS]
  | privateRateDiscount => by_cases h : S.useEdpDiscount <;> simp [setFields, h, EDP_DISCOUNTS]
  | _ => simp [setFields, EDP_DISCOUNTS]

/-- Skipped is what has no account, once its column has been read. -/
theorem foldl_rowStep_skipped (haccount : accountOf S x = none) (recN : ℕ) :
    ∀ (columns : List Column) (e : Expense), e.cloudAccountId = none →
      (columns.foldl (rowStep S R x recN) (e, false)).2 = decide (.usageAccountId ∈ columns) ∧
        (columns.foldl (rowStep S R x recN) (e, false)).1.cloudAccountId = none
  | [], e, he => ⟨rfl, he⟩
  | c :: columns, e, he => by
    rw [List.foldl_cons]
    by_cases hc : c = .usageAccountId
    · subst hc
      have hstep : rowStep S R x recN (e, false) .usageAccountId = ({ e with recN := some recN }, true) := by
        have hnone : (R.parquetValue x .usageAccountId).strftime.text?.bind S.accounts = none := by
          rw [text_parquetValue rfl]
          exact haccount
        simp [rowStep, hnone]
      have hkeep : ∀ (l : List Column) (e : Expense), l.foldl (rowStep S R x recN) (e, true) = (e, true) := by
        intro l e
        induction l with
        | nil => rfl
        | cons c l ih =>
          rw [List.foldl_cons]
          exact ih
      rw [hstep, hkeep]
      exact ⟨by simp, he⟩
    · have hstep : rowStep S R x recN (e, false) c =
          (setCell S c (R.parquetValue x c).strftime { e with recN := some recN }, false) := by
        simp [rowStep, hc]
      rw [hstep]
      have hset : (setCell S c (R.parquetValue x c).strftime { e with recN := some recN }).cloudAccountId = none := by
        rw [setCell_eq]
        exact he
      obtain ⟨hskip, hnone⟩ := foldl_rowStep_skipped haccount recN columns _ hset
      exact ⟨by simp [hskip, Ne.symm hc], hnone⟩

variable (S R x) in
/-- What a column does to the expense of an item that has an account. -/
def knownStep (recN : ℕ) (cloudAccountId : Uuid) (e : Expense) (c : Column) : Expense :=
  setCell S c (R.parquetValue x c).strftime { e with
    recN := some recN
    cloudAccountId := if c = .usageAccountId then some cloudAccountId else e.cloudAccountId }

theorem foldl_rowStep_known {cloudAccountId : Uuid} (haccount : accountOf S x = some cloudAccountId) (recN : ℕ) :
    ∀ (columns : List Column) (e : Expense), columns.foldl (rowStep S R x recN) (e, false) =
      (columns.foldl (knownStep S R x recN cloudAccountId) e, false)
  | [], e => rfl
  | c :: columns, e => by
    have hstep : rowStep S R x recN (e, false) c = (knownStep S R x recN cloudAccountId e c, false) := by
      by_cases hc : c = .usageAccountId
      · subst hc
        have hsome : (R.parquetValue x .usageAccountId).strftime.text?.bind S.accounts = some cloudAccountId := by
          rw [text_parquetValue rfl]
          exact haccount
        simp [rowStep, knownStep, hsome]
      · simp [rowStep, knownStep, hc]
    rw [List.foldl_cons, List.foldl_cons, hstep, foldl_rowStep_known haccount recN columns]

section Filled

variable (S R x) (recN : ℕ) (cloudAccountId : Uuid)

/-- The expense of an item that has an account, with all its cells. -/
def filled : Expense := R.columns.foldl (knownStep S R x recN cloudAccountId) blank

variable {S R x recN cloudAccountId}

theorem knownStep_eq (e : Expense) (c : Column) : knownStep S R x recN cloudAccountId e c =
    { setFields S c (R.parquetValue x c).strftime { e with
        recN := some recN
        cloudAccountId := if c = .usageAccountId then some cloudAccountId else e.cloudAccountId } with
      fields := e.fields ++ ((parquetField S R x c).map (c, ·)).toList } := setCell_eq _ _

/-- A part of the expense that only one column sets. -/
theorem filled_of_once {β : Type} (part : Expense → β) (k : Column) (f : β → β)
    (h : ∀ e c, part (knownStep S R x recN cloudAccountId e c) = if c = k then f (part e) else part e) :
    part (filled S R x recN cloudAccountId) = if k ∈ R.columns then f (part blank) else part blank := by
  rw [← foldl_once k f (part blank) R.nodup]
  exact (List.foldl_hom part fun e c => (h e c).symm).symm

theorem filled_recN : (filled S R x recN cloudAccountId).recN = some recN := by
  obtain ⟨c, l, hl⟩ := List.exists_cons_of_ne_nil (List.ne_nil_of_mem (R.required .lineItemType (by decide)))
  have hfold : (filled S R x recN cloudAccountId).recN = R.columns.foldl (fun _ _ => some recN) none :=
    (List.foldl_hom Expense.recN fun e c => by rw [knownStep_eq]; rfl).symm
  rw [hfold, hl, List.foldl_cons]
  exact List.foldl_fixed' (fun _ => rfl) l

theorem filled_cloudAccountId : (filled S R x recN cloudAccountId).cloudAccountId = some cloudAccountId := by
  rw [filled_of_once Expense.cloudAccountId .usageAccountId (fun _ => some cloudAccountId) fun e c => by
    rw [knownStep_eq]; rfl, if_pos (R.required _ (by decide))]

theorem filled_resourceId : (filled S R x recN cloudAccountId).resourceId =
    (itemText R x .resourceId).map shortResourceId := by
  have hkind : Column.resourceId.kind R.numbers = .text := rfl
  have hvalue : (if (R.parquetValue x .resourceId).strftime.truthy then
      (R.parquetValue x .resourceId).strftime.text?.map shortResourceId else none) =
        ((x.cell .resourceId).filter (· ≠ [])).map shortResourceId := by
    rw [Report.parquetValue, hkind]
    cases x.cell .resourceId with
    | none => rfl
    | some s =>
      by_cases hs : s = []
      · simp [hs, Value.strftime, Value.truthy, Option.filter]
      · simp [hs, Value.strftime, Value.truthy, Value.text?, Option.filter]
  rw [filled_of_once Expense.resourceId .resourceId (fun r => if (R.parquetValue x .resourceId).strftime.truthy then
    (R.parquetValue x .resourceId).strftime.text?.map shortResourceId else r)]
  · by_cases hin : Column.resourceId ∈ R.columns
    · have hitem : itemText R x .resourceId = (x.cell .resourceId).filter (· ≠ []) := if_pos ⟨hin, hkind⟩
      rw [hitem]
      exact (if_pos hin).trans hvalue
    · have hitem : itemText R x .resourceId = none := if_neg fun h => hin h.1
      rw [hitem]
      exact if_neg hin
  · intro e c
    rw [knownStep_eq]
    by_cases hc : c = .resourceId
    · subst hc
      simp [setFields]
    · simp [setFields, hc]

theorem filled_startDate :
    (filled S R x recN cloudAccountId).startDate = some (midnight x.usageStartDate) := by
  rw [filled_of_once Expense.startDate .usageStartDate fun _ => some (midnight x.usageStartDate)]
  · exact if_pos (R.required _ (by decide))
  · intro e c
    rw [knownStep_eq]
    by_cases hc : c = .usageStartDate
    · subst hc
      rfl
    · simp [setFields, hc]

theorem filled_endDate : (filled S R x recN cloudAccountId).endDate = some x.usageEndDate := by
  rw [filled_of_once Expense.endDate .usageEndDate fun _ => some x.usageEndDate]
  · exact if_pos (R.required _ (by decide))
  · intro e c
    rw [knownStep_eq]
    by_cases hc : c = .usageEndDate
    · subst hc
      rfl
    · simp [setFields, hc]

theorem kind_of_discount (hc : c ∈ EDP_DISCOUNTS) : c.kind R.numbers = .number := by
  simp only [EDP_DISCOUNTS, List.mem_cons, List.not_mem_nil, or_false] at hc
  obtain rfl | rfl := hc
  · rfl
  · rfl

theorem filled_cost : (filled S R x recN cloudAccountId).cost = parquetCost S R x := by
  refine (List.foldl_hom Expense.cost fun e c => ?_).symm
  rw [knownStep_eq]
  simp only [costStep, setFields]
  by_cases hc : c = .blendedCost
  · subst hc
    rw [if_pos rfl, if_pos rfl, floatOrZero_parquetValue rfl]
  · rw [if_neg hc, if_neg hc]
    by_cases hdiscount : c ∈ EDP_DISCOUNTS ∧ S.useEdpDiscount
    · rw [if_pos hdiscount, if_pos hdiscount, floatOrZero_parquetValue (kind_of_discount hdiscount.1)]
    · rw [if_neg hdiscount, if_neg hdiscount]

theorem filled_boxUsage : (filled S R x recN cloudAccountId).boxUsage =
    (decide (.usageType ∈ R.columns) && ((x.cell .usageType).getD []).contains "BoxUsage") := by
  rw [filled_of_once Expense.boxUsage .usageType fun b => b || ((x.cell .usageType).getD []).contains "BoxUsage"]
  · by_cases hin : Column.usageType ∈ R.columns <;> simp [hin, blank]
  · intro e c
    rw [knownStep_eq]
    by_cases hc : c = .usageType
    · subst hc
      rw [setFields, text_parquetValue rfl]
      cases ((x.cell .usageType).getD []).contains "BoxUsage" <;> simp
    · simp [setFields, hc]

theorem filled_fields : (filled S R x recN cloudAccountId).fields = fieldsOf R (parquetField S R x) := by
  have hfold : (filled S R x recN cloudAccountId).fields = R.columns.foldl (fun fields c =>
      fields ++ ((parquetField S R x c).map (c, ·)).toList) [] :=
    (List.foldl_hom Expense.fields fun e c => by rw [knownStep_eq]).symm
  rw [hfold, List.foldl_append_eq_append, List.nil_append, fieldsOf, List.filterMap_eq_flatMap_toList,
    List.flatMap_def]

/-- **The expense of an item in Parquet**, whatever the order of the columns. -/
theorem filled_eq : filled S R x recN cloudAccountId = parquetExpense S R x recN cloudAccountId :=
  Expense.ext filled_recN filled_cloudAccountId filled_resourceId filled_startDate filled_endDate filled_cost
    filled_boxUsage filled_fields

end Filled

/-! ## The expenses of a slice -/

variable (S R x) in
/-- The record of an item in Parquet. -/
def parquetRecord : Option Record :=
  (accountOf S x).bind fun cloudAccountId =>
    if Recent S x then
      some ⟨some cloudAccountId,
        setResourceId (fieldsOf R (parquetField S R x)) ((itemText R x .resourceId).map shortResourceId),
        some (midnight x.usageStartDate), some x.usageEndDate, parquetCost S R x,
        isFlavorUsage (fieldsOf R (parquetField S R x)), (fieldsOf R (parquetField S R x)).filter (·.1.isTag)⟩
    else none

variable (S) in
/-- The expense is imported, as far as its own fields go. -/
def Kept (e : Expense) : Prop :=
  e.cloudAccountId.isSome ∧ imported S e.startDate (getText e.fields .lineItemType)

instance (e : Expense) : Decidable (Kept S e) := inferInstanceAs (Decidable (_ ∧ _))

/-- An expense that is imported is finished. -/
def finish (e : Expense) : Expense :=
  { e with
    boxUsage := e.boxUsage || isFlavorUsage e.fields
    resourceId := setResourceId e.fields e.resourceId }

theorem itemText_lineItemType : itemText R x .lineItemType = some x.lineItemType := by
  have hkind : Column.lineItemType.kind R.numbers = .text := rfl
  rw [itemText, if_pos ⟨R.required _ (by decide), hkind⟩]
  exact Option.filter_eq_some_iff.mpr ⟨rfl, decide_eq_true x.lineItemType_ne⟩

/-- A box is used by the type of the usage alone. -/
theorem boxUsage_or : ((decide (.usageType ∈ R.columns) && ((x.cell .usageType).getD []).contains "BoxUsage") ||
    isFlavorUsage (fieldsOf R (parquetField S R x))) = isFlavorUsage (fieldsOf R (parquetField S R x)) := by
  rw [Bool.or_eq_right_iff_imp, Bool.and_eq_true, decide_eq_true_eq]
  rintro ⟨hin, hbox⟩
  have hkind : Column.usageType.kind R.numbers = .text := rfl
  have hitem : itemText R x .usageType = (x.cell .usageType).filter (· ≠ []) := if_pos ⟨hin, hkind⟩
  have htext : getText (fieldsOf R (parquetField S R x)) .usageType = (x.cell .usageType).getD [] := by
    rw [getText, get_parquetField, hitem]
    cases x.cell .usageType with
    | none => rfl
    | some s => by_cases hs : s = [] <;> simp [hs, Option.filter]
  unfold isFlavorUsage
  simp only [htext, hbox, Bool.or_true]

/-- The record of an expense that is filled. -/
theorem record_parquetExpense {recN : ℕ} {cloudAccountId : Uuid} (haccount : accountOf S x = some cloudAccountId) :
    (if Kept S (parquetExpense S R x recN cloudAccountId) then
      some (finish (parquetExpense S R x recN cloudAccountId)).record else none) = parquetRecord S R x := by
  have hkept : Kept S (parquetExpense S R x recN cloudAccountId) ↔ Recent S x := by
    unfold Kept Recent
    rw [show (parquetExpense S R x recN cloudAccountId).fields = fieldsOf R (parquetField S R x) from rfl,
      getText, get_parquetField, itemText_lineItemType]
    exact and_iff_right rfl
  rw [parquetRecord, haccount, Option.bind_some]
  refine if_congr hkept ?_ rfl
  refine congrArg some ?_
  rw [Expense.record, Record.mk.injEq]
  exact ⟨rfl, rfl, rfl, rfl, rfl, boxUsage_or, rfl⟩

variable (S R) in
/-- The expense of a row of a slice after all columns, and whether the row is skipped. -/
def rowEnd (x : LineItem) (recN : ℕ) : Expense × Bool := R.columns.foldl (rowStep S R x recN) (blank, false)

theorem rowEnd_known {cloudAccountId : Uuid} (haccount : accountOf S x = some cloudAccountId) (recN : ℕ) :
    rowEnd S R x recN = (parquetExpense S R x recN cloudAccountId, false) := by
  rw [rowEnd, foldl_rowStep_known haccount, ← filled_eq]
  rfl

/-- An expense with an account is not skipped. -/
theorem rowEnd_not_skipped {recN : ℕ} (h : (rowEnd S R x recN).1.cloudAccountId.isSome) :
    (rowEnd S R x recN).2 = false := by
  cases haccount : accountOf S x with
  | none =>
    rw [rowEnd, (foldl_rowStep_skipped haccount recN R.columns blank rfl).2] at h
    cases h
  | some cloudAccountId => rw [rowEnd_known haccount]

theorem record_rowEnd (recN : ℕ) : (if Kept S (rowEnd S R x recN).1 then
    some (finish (rowEnd S R x recN).1).record else none) = parquetRecord S R x := by
  cases haccount : accountOf S x with
  | none =>
    have hnone : (rowEnd S R x recN).1.cloudAccountId = none :=
      (foldl_rowStep_skipped haccount recN R.columns blank rfl).2
    rw [parquetRecord, haccount, Option.bind_none, if_neg]
    rintro ⟨h, -⟩
    rw [hnone] at h
    cases h
  | some cloudAccountId =>
    rw [rowEnd_known haccount]
    exact record_parquetExpense haccount

section Slice

variable {rows : List LineItem} {period : Option Text} {skipped : Finset (Option Text)}

variable (S R rows period skipped) in
/-- A slice after all its columns. -/
def sliceEnd (i : ℕ) : ParquetState :=
  loadSlice S R i rows ⟨List.replicate CHUNK_SIZE blank, [], period, skipped⟩

theorem sliceEnd_slot (hrows : rows.length ≤ CHUNK_SIZE) (i j : ℕ) :
    (sliceEnd S R rows period skipped i).slot j =
      rows[j]?.elim (if j < CHUNK_SIZE then some (blank, false) else none) fun x => some (rowEnd S R x (i + j)) := by
  have hstart : (ParquetState.slot ⟨List.replicate CHUNK_SIZE blank, [], period, skipped⟩ j) =
      if j < CHUNK_SIZE then some (blank, false) else none := by
    unfold ParquetState.slot
    rw [List.getElem?_replicate]
    split <;> simp
  rw [sliceEnd, loadSlice, foldl_columns_slot, hstart]
  cases hrow : rows[j]? with
  | none => rfl
  | some x =>
    have hlt : j < rows.length := (List.getElem?_eq_some_iff.mp hrow).1
    rw [if_pos (by omega)]
    rfl

theorem slot_fst (s : ParquetState) (j : ℕ) : (s.slot j).map Prod.fst = s.chunk[j]? := by
  unfold ParquetState.slot
  rw [Option.map_map]
  exact Option.map_id'

theorem sliceEnd_chunk (hrows : rows.length ≤ CHUNK_SIZE) (i : ℕ) :
    (sliceEnd S R rows period skipped i).chunk =
      (rows.zipIdx.map fun p => (rowEnd S R p.1 (i + p.2)).1) ++
        List.replicate (CHUNK_SIZE - rows.length) blank := by
  refine List.ext_getElem? fun j => ?_
  rw [← slot_fst, sliceEnd_slot hrows]
  by_cases hj : j < rows.length
  · rw [List.getElem?_append_left (by simpa using hj)]
    simp [List.getElem?_eq_getElem hj]
  · have hnone : rows[j]? = none := List.getElem?_eq_none (by omega)
    rw [List.getElem?_append_right (by simpa using hj), List.getElem?_replicate, hnone]
    simp only [Option.elim_none, List.length_map, List.length_zipIdx]
    by_cases hroom : j < CHUNK_SIZE
    · have hroom' : j - rows.length < CHUNK_SIZE - rows.length := by omega
      rw [if_pos hroom, if_pos hroom']
      rfl
    · have hroom' : ¬ j - rows.length < CHUNK_SIZE - rows.length := by omega
      rw [if_neg hroom, if_neg hroom']
      rfl

/-- An expense of the slice that has an account is not skipped. -/
theorem sliceEnd_not_skipped (hrows : rows.length ≤ CHUNK_SIZE) (i : ℕ) {j : ℕ} {e : Expense}
    (hj : (sliceEnd S R rows period skipped i).chunk[j]? = some e) (haccount : e.cloudAccountId.isSome) :
    j ∉ (sliceEnd S R rows period skipped i).skippedRows := by
  have hslot : (sliceEnd S R rows period skipped i).slot j =
      some (e, decide (j ∈ (sliceEnd S R rows period skipped i).skippedRows)) := by
    rw [ParquetState.slot, hj]
    rfl
  rw [sliceEnd_slot hrows] at hslot
  cases hrow : rows[j]? with
  | none =>
    rw [hrow, Option.elim_none] at hslot
    split at hslot
    · have hexpense : blank = e := (Prod.ext_iff.mp (Option.some.inj hslot)).1
      rw [← hexpense] at haccount
      cases haccount
    · cases hslot
  | some x =>
    rw [hrow, Option.elim_some] at hslot
    obtain ⟨hexpense, hskip⟩ := Prod.ext_iff.mp (Option.some.inj hslot)
    simp only at hexpense hskip
    rw [rowEnd_not_skipped (by rw [hexpense]; exact haccount)] at hskip
    exact of_decide_eq_false hskip.symm

/-- The expenses of a slice that are imported go by their own fields. -/
theorem sliceExpenses_eq (hrows : rows.length ≤ CHUNK_SIZE) (i : ℕ) :
    sliceExpenses S (sliceEnd S R rows period skipped i) =
      ((sliceEnd S R rows period skipped i).chunk.filter (Kept S ·)).map finish := by
  unfold sliceExpenses
  refine congrArg (List.map finish) (List.filter_congr fun e he => ?_)
  rw [decide_eq_decide]
  exact ⟨And.right, fun h => ⟨sliceEnd_not_skipped hrows i (List.getElem?_idxOf he) h.1, h⟩⟩

/-- **The records of a slice are those of its rows.** -/
theorem record_sliceExpenses (hrows : rows.length ≤ CHUNK_SIZE) (i : ℕ) :
    (sliceExpenses S (sliceEnd S R rows period skipped i)).map Expense.record =
      rows.filterMap (parquetRecord S R) := by
  have hblank : ∀ k : ℕ, ((List.replicate k blank).filterMap fun e =>
      if Kept S e then some (finish e).record else none) = [] := by
    intro k
    refine List.filterMap_replicate_of_none (if_neg ?_)
    rintro ⟨h, -⟩
    cases h
  have hfilterMap : ∀ l : List Expense, ((l.filter (Kept S ·)).map finish).map Expense.record =
      l.filterMap fun e => if Kept S e then some (finish e).record else none := by
    intro l
    induction l with
    | nil => rfl
    | cons e l ih => by_cases he : Kept S e <;> simp [he, ih]
  have hrows' : rows.zipIdx.filterMap (fun p => parquetRecord S R p.1) = rows.filterMap (parquetRecord S R) := by
    conv_rhs => rw [← List.zipIdx_map_fst 0 rows]
    rw [List.filterMap_map]
    rfl
  rw [sliceExpenses_eq hrows, hfilterMap, sliceEnd_chunk hrows, List.filterMap_append, List.filterMap_map,
    hblank, List.append_nil, ← hrows']
  exact List.filterMap_congr fun p _ => record_rowEnd (i + p.2)

end Slice

/-! ## What a slice does to the period and the skipped accounts -/

section Columns

variable (S R) in
/-- Some columns of a slice. -/
def loadColumns (i : ℕ) (rows : List LineItem) (columns : List Column) (s : ParquetState) : ParquetState :=
  columns.foldl (fun s c => (rows.map fun x => R.parquetValue x c).zipIdx.foldl (cellStep S i c) s) s

theorem foldl_keep {α β γ : Type*} (part : β → γ) (f : β → α → β) :
    ∀ (l : List α), (∀ a ∈ l, ∀ b, part (f b a) = part b) → ∀ b, part (l.foldl f b) = part b
  | [], _, _ => rfl
  | a :: l, h, b => by
    rw [List.foldl_cons, foldl_keep part f l fun a' ha' => h a' (List.mem_cons_of_mem a ha'),
      h a List.mem_cons_self]

/-- Another column does not set the period. -/
theorem cellStep_period (i : ℕ) (hc : c ≠ .billingPeriodStartDate) (s : ParquetState) (cell : Value × ℕ) :
    (cellStep S i c s cell).billingPeriod = s.billingPeriod := by
  unfold cellStep
  by_cases hskip : cell.2 ∈ s.skippedRows
  · simp only [hskip, if_true]
  · simp only [hskip, hc, false_and, if_false]
    split
    · split <;> rfl
    · rfl

/-- Another column skips nothing. -/
theorem cellStep_skipped (i : ℕ) (hc : c ≠ .usageAccountId) (s : ParquetState) (cell : Value × ℕ) :
    (cellStep S i c s cell).skippedRows = s.skippedRows ∧
      (cellStep S i c s cell).skippedAccounts = s.skippedAccounts := by
  unfold cellStep
  by_cases hskip : cell.2 ∈ s.skippedRows
  · simp only [hskip, if_true, and_self]
  · simp only [hskip, hc, if_false]
    split <;> exact ⟨rfl, rfl⟩

theorem loadColumns_period (i : ℕ) (rows : List LineItem) {columns : List Column}
    (h : .billingPeriodStartDate ∉ columns) (s : ParquetState) :
    (loadColumns S R i rows columns s).billingPeriod = s.billingPeriod :=
  foldl_keep _ _ columns (fun _ hc => foldl_keep _ _ _ fun cell _ b =>
    cellStep_period i (fun hperiod => h (hperiod ▸ hc)) b cell) s

theorem loadColumns_skipped (i : ℕ) (rows : List LineItem) {columns : List Column}
    (h : .usageAccountId ∉ columns) (s : ParquetState) :
    (loadColumns S R i rows columns s).skippedRows = s.skippedRows ∧
      (loadColumns S R i rows columns s).skippedAccounts = s.skippedAccounts := by
  have hother : ∀ c ∈ columns, c ≠ .usageAccountId := fun c hc haccount => h (haccount ▸ hc)
  exact ⟨foldl_keep _ _ columns (fun c hc => foldl_keep _ _ _ fun cell _ b =>
      (cellStep_skipped i (hother c hc) b cell).1) s,
    foldl_keep _ _ columns (fun c hc => foldl_keep _ _ _ fun cell _ b =>
      (cellStep_skipped i (hother c hc) b cell).2) s⟩

/-- The period is the first one in a row that is not skipped. -/
theorem foldl_cellStep_period (i : ℕ) : ∀ (rows : List LineItem) (k : ℕ) (s : ParquetState),
    (((rows.map fun x => R.parquetValue x .billingPeriodStartDate).zipIdx k).foldl
        (cellStep S i .billingPeriodStartDate) s).billingPeriod =
      s.billingPeriod.or ((rows.zipIdx k).findSome? fun p =>
        if p.2 ∈ s.skippedRows then none else p.1.cell .billingPeriodStartDate)
  | [], k, s => by simp
  | x :: rows, k, s => by
    have hskipped : (cellStep S i .billingPeriodStartDate s
        (R.parquetValue x .billingPeriodStartDate, k)).skippedRows = s.skippedRows :=
      (cellStep_skipped i (by decide) s _).1
    have hvalue : (R.parquetValue x .billingPeriodStartDate).strftime.text? = x.cell .billingPeriodStartDate :=
      text_parquetValue rfl
    have hperiod : (cellStep S i .billingPeriodStartDate s
        (R.parquetValue x .billingPeriodStartDate, k)).billingPeriod =
          s.billingPeriod.or (if k ∈ s.skippedRows then none else x.cell .billingPeriodStartDate) := by
      unfold cellStep
      by_cases hk : k ∈ s.skippedRows
      · simp [hk]
      · simp only [hk, if_false, true_and]
        cases hs : s.billingPeriod with
        | none => simp [hvalue]
        | some period => simp
    rw [List.map_cons, List.zipIdx_cons, List.foldl_cons, foldl_cellStep_period i rows, hskipped, hperiod,
      List.zipIdx_cons, List.findSome?_cons, Option.or_assoc]
    cases (if k ∈ s.skippedRows then none else x.cell .billingPeriodStartDate) <;> rfl

variable (S) in
/-- The account Parquet skips an item for. -/
def parquetSkipped (x : LineItem) : Option (Option Text) :=
  if (accountOf S x).isNone then some (x.cell .usageAccountId) else none

/-- Every row without an account is skipped. -/
theorem foldl_cellStep_accounts (i : ℕ) : ∀ (rows : List LineItem) (k : ℕ) (s : ParquetState),
    (∀ j ∈ s.skippedRows, j < k) →
      (((rows.map fun x => R.parquetValue x .usageAccountId).zipIdx k).foldl
          (cellStep S i .usageAccountId) s).skippedAccounts =
        s.skippedAccounts ∪ (rows.filterMap (parquetSkipped S)).toFinset
  | [], k, s, _ => by simp
  | x :: rows, k, s, hs => by
    have hk : k ∉ s.skippedRows := fun h => (hs k h).ne rfl
    have hvalue : (R.parquetValue x .usageAccountId).strftime.text? = x.cell .usageAccountId :=
      text_parquetValue rfl
    have hne : Column.usageAccountId ≠ .billingPeriodStartDate := by decide
    have hstep : ∃ s' : ParquetState,
        cellStep S i .usageAccountId s (R.parquetValue x .usageAccountId, k) = s' ∧
          (∀ j ∈ s'.skippedRows, j < k + 1) ∧
            s'.skippedAccounts = s.skippedAccounts ∪ (parquetSkipped S x).toFinset := by
      refine ⟨_, rfl, ?_⟩
      unfold cellStep parquetSkipped accountOf
      simp only [hk, hne, false_and, if_false, if_true, hvalue]
      cases haccount : (x.cell .usageAccountId).bind S.accounts with
      | none =>
        refine ⟨fun j hj => ?_, ?_⟩
        · obtain rfl | hj := List.mem_cons.mp (by simpa using hj)
          · omega
          · exact (hs j hj).trans (by omega)
        · simp only [Option.isNone_none, if_true, Option.toFinset_some]
          rw [Finset.insert_eq, Finset.union_comm]
      | some cloudAccountId => exact ⟨fun j hj => (hs j (by simpa using hj)).trans (by omega), by simp⟩
    obtain ⟨s', hs', hlt, haccounts⟩ := hstep
    rw [List.map_cons, List.zipIdx_cons, List.foldl_cons, hs', foldl_cellStep_accounts i rows (k + 1) s' hlt,
      haccounts, Finset.union_assoc, List.filterMap_cons]
    cases parquetSkipped S x with
    | none => simp
    | some a =>
      simp only [Option.toFinset_some, List.toFinset_cons]
      rw [Finset.insert_eq]

/-- The columns before a column. -/
def Report.before (R : Report) (c : Column) : List Column := R.columns.takeWhile (· ≠ c)

/-- The columns after a column. -/
def Report.after (R : Report) (c : Column) : List Column := (R.columns.dropWhile (· ≠ c)).tail

theorem Report.columns_eq (hc : c ∈ R.columns) : R.columns = R.before c ++ c :: R.after c := by
  have hsplit : ∀ l : List Column, c ∈ l → l = l.takeWhile (· ≠ c) ++ c :: (l.dropWhile (· ≠ c)).tail := by
    intro l
    induction l with
    | nil => intro h; cases h
    | cons a l ih =>
      intro h
      by_cases ha : a = c
      · simp [ha]
      · simpa [ha] using ih (List.mem_of_ne_of_mem (Ne.symm ha) h)
  exact hsplit R.columns hc

theorem Report.not_mem_before : c ∉ R.before c := fun h => by
  simpa using List.mem_takeWhile_imp h

theorem Report.not_mem_after : c ∉ R.after c := by
  by_cases hc : c ∈ R.columns
  · have hnodup := R.nodup
    rw [Report.columns_eq hc] at hnodup
    exact (List.nodup_cons.mp (List.nodup_append.mp hnodup).2.1).1
  · exact fun h => hc ((List.dropWhile_sublist _).subset (List.mem_of_mem_tail h))

variable (S R) in
/-- What the loader sees of the period of an item: nothing, when the item has been skipped by then. -/
def seenPeriod (x : LineItem) : Option Text :=
  if .usageAccountId ∈ R.before .billingPeriodStartDate ∧ accountOf S x = none then none
  else x.cell .billingPeriodStartDate

variable {rows : List LineItem} {period : Option Text} {skipped : Finset (Option Text)}

/-- Before a column, the items without an account are skipped if their accounts have been read. -/
theorem loadColumns_skippedRows (hrows : rows.length ≤ CHUNK_SIZE) (i : ℕ) (columns : List Column) {j : ℕ}
    (hrow : rows[j]? = some x) :
    j ∈ (loadColumns S R i rows columns ⟨List.replicate CHUNK_SIZE blank, [], period, skipped⟩).skippedRows ↔
      .usageAccountId ∈ columns ∧ accountOf S x = none := by
  have hlt : j < CHUNK_SIZE := by
    have := (List.getElem?_eq_some_iff.mp hrow).1
    omega
  have hstart : ParquetState.slot ⟨List.replicate CHUNK_SIZE blank, [], period, skipped⟩ j = some (blank, false) := by
    unfold ParquetState.slot
    rw [List.getElem?_replicate, if_pos hlt]
    rfl
  have hslot := foldl_columns_slot (S := S) (R := R) i j rows columns
    ⟨List.replicate CHUNK_SIZE blank, [], period, skipped⟩
  rw [hrow, hstart] at hslot
  obtain ⟨e, -, he⟩ := Option.map_eq_some_iff.mp hslot
  obtain ⟨-, hskip⟩ := Prod.ext_iff.mp he
  simp only at hskip
  have hmem : j ∈ (loadColumns S R i rows columns
      ⟨List.replicate CHUNK_SIZE blank, [], period, skipped⟩).skippedRows ↔
        (columns.foldl (rowStep S R x (i + j)) (blank, false)).2 = true := by
    rw [← hskip]
    exact decide_eq_true_iff.symm
  rw [hmem]
  cases haccount : accountOf S x with
  | none => simp [(foldl_rowStep_skipped haccount (i + j) columns blank rfl).1]
  | some cloudAccountId => simp [foldl_rowStep_known haccount]

theorem loadSlice_split (i : ℕ) (hc : c ∈ R.columns) (s : ParquetState) :
    loadSlice S R i rows s = loadColumns S R i rows (R.after c)
      ((rows.map fun x => R.parquetValue x c).zipIdx.foldl (cellStep S i c) (loadColumns S R i rows (R.before c) s)) := by
  unfold loadSlice
  conv_lhs => rw [Report.columns_eq hc, List.foldl_append, List.foldl_cons]
  rfl

theorem findSome?_zipIdx {α β : Type*} (f : α × ℕ → Option β) (g : α → Option β) : ∀ (l : List α) (k : ℕ),
    (∀ j a, l[j]? = some a → f (a, k + j) = g a) → (l.zipIdx k).findSome? f = l.findSome? g
  | [], _, _ => rfl
  | a :: l, k, h => by
    have hhead : f (a, k) = g a := h 0 a rfl
    have htail : (l.zipIdx (k + 1)).findSome? f = l.findSome? g :=
      findSome?_zipIdx f g l (k + 1) fun j b hb => by
        rw [Nat.add_right_comm]
        exact h (j + 1) b hb
    rw [List.zipIdx_cons, List.findSome?_cons, List.findSome?_cons, hhead, htail]

/-- **The period after a slice.** -/
theorem sliceEnd_period (hrows : rows.length ≤ CHUNK_SIZE) (i : ℕ) :
    (sliceEnd S R rows period skipped i).billingPeriod = period.or (rows.findSome? (seenPeriod S R)) := by
  have hbefore : (loadColumns S R i rows (R.before .billingPeriodStartDate)
      ⟨List.replicate CHUNK_SIZE blank, [], period, skipped⟩).billingPeriod = period :=
    loadColumns_period i rows Report.not_mem_before _
  rw [sliceEnd, loadSlice_split i (R.required .billingPeriodStartDate (by decide)),
    loadColumns_period i rows Report.not_mem_after, foldl_cellStep_period, hbefore]
  refine congrArg period.or (findSome?_zipIdx _ _ rows 0 fun j x hrow => ?_)
  rw [Nat.zero_add, seenPeriod]
  exact if_congr (loadColumns_skippedRows hrows i _ hrow) rfl rfl

/-- **The skipped accounts after a slice.** -/
theorem sliceEnd_accounts (i : ℕ) : (sliceEnd S R rows period skipped i).skippedAccounts =
    skipped ∪ (rows.filterMap (parquetSkipped S)).toFinset := by
  obtain ⟨hrows, haccounts⟩ := loadColumns_skipped (S := S) (R := R) i rows
    (Report.not_mem_before (R := R)) ⟨List.replicate CHUNK_SIZE blank, [], period, skipped⟩
  rw [sliceEnd, loadSlice_split i (R.required .usageAccountId (by decide)),
    (loadColumns_skipped i rows Report.not_mem_after _).2]
  refine (foldl_cellStep_accounts i rows 0 _ fun j hj => ?_).trans (congrArg (· ∪ _) haccounts)
  rw [hrows] at hj
  cases hj

end Columns

/-! ## A report from Parquet -/

/-- The records of what has been loaded. -/
def Loaded.records (l : Loaded) : List Record := l.updates.flatten.map Expense.record

/-- **A slice in Parquet.** -/
theorem sliceStep_spec (l : Loaded) {rows : List LineItem} (hrows : rows.length ≤ CHUNK_SIZE) (k : ℕ) :
    (sliceStep S R l (rows, k)).records = l.records ++ rows.filterMap (parquetRecord S R) ∧
      (sliceStep S R l (rows, k)).billingPeriod = l.billingPeriod.or (rows.findSome? (seenPeriod S R)) ∧
      (sliceStep S R l (rows, k)).skippedAccounts =
        l.skippedAccounts ∪ (rows.filterMap (parquetSkipped S)).toFinset := by
  refine ⟨?_, sliceEnd_period hrows _, sliceEnd_accounts _⟩
  have hrecords : (sliceExpenses S (sliceEnd S R rows l.billingPeriod l.skippedAccounts (k * CHUNK_SIZE))).map
      Expense.record = rows.filterMap (parquetRecord S R) := record_sliceExpenses hrows _
  have hupdates : (sliceStep S R l (rows, k)).updates.flatten = l.updates.flatten ++
      sliceExpenses S (sliceEnd S R rows l.billingPeriod l.skippedAccounts (k * CHUNK_SIZE)) := by
    simp only [sliceStep, sliceEnd]
    split
    · simp
    · rename_i hempty
      simp [not_not.mp hempty]
  rw [Loaded.records, hupdates, List.map_append, hrecords, Loaded.records]

theorem foldl_sliceStep : ∀ (slices : List (List LineItem)) (k : ℕ) (l : Loaded),
    (∀ rows ∈ slices, rows.length ≤ CHUNK_SIZE) →
      ((slices.zipIdx k).foldl (sliceStep S R) l).records =
          l.records ++ slices.flatten.filterMap (parquetRecord S R) ∧
        ((slices.zipIdx k).foldl (sliceStep S R) l).billingPeriod =
          l.billingPeriod.or (slices.flatten.findSome? (seenPeriod S R)) ∧
        ((slices.zipIdx k).foldl (sliceStep S R) l).skippedAccounts =
          l.skippedAccounts ∪ (slices.flatten.filterMap (parquetSkipped S)).toFinset
  | [], k, l, _ => by simp
  | rows :: slices, k, l, h => by
    obtain ⟨hrecords, hperiod, hskipped⟩ := foldl_sliceStep slices (k + 1) (sliceStep S R l (rows, k))
      fun rows' hrows' => h rows' (List.mem_cons_of_mem rows hrows')
    obtain ⟨hrecords', hperiod', hskipped'⟩ := sliceStep_spec (S := S) (R := R) l (h rows List.mem_cons_self) k
    rw [List.zipIdx_cons, List.foldl_cons, hrecords, hperiod, hskipped, hrecords', hperiod', hskipped',
      List.flatten_cons, List.filterMap_append, List.findSome?_append, List.filterMap_append, List.toFinset_append]
    exact ⟨List.append_assoc _ _ _, Option.or_assoc, Finset.union_assoc _ _ _⟩

variable (S R) in
/-- **The Parquet form of a report.** -/
theorem loadParquetReport_spec :
    (loadParquetReport S R).records = R.rows.filterMap (parquetRecord S R) ∧
      (loadParquetReport S R).billingPeriod = R.rows.findSome? (seenPeriod S R) ∧
      (loadParquetReport S R).skippedAccounts = (R.rows.filterMap (parquetSkipped S)).toFinset := by
  obtain ⟨hrecords, hperiod, hskipped⟩ := foldl_sliceStep (S := S) (R := R) (R.rows.toChunks CHUNK_SIZE) 0
    ⟨[], none, ∅⟩ fun rows hrows => Chunks.length_le_of_mem_toChunks (by decide) hrows
  rw [Chunks.flatten_toChunks] at hrecords hperiod hskipped
  exact ⟨hrecords, hperiod, hskipped.trans (Finset.empty_union _)⟩

end Cells

end AwsReport
