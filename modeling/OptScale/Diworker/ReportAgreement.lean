import OptScale.Diworker.ReportSlices

/-!
# Diworker/ReportAgreement — CSV and Parquet imports of one report

Both forms pass on a record for the same line items, alike but for the cost and the resource id.  In Parquet an
empty amount is no number, a discount that is read before the cost is overwritten by it, and an id that is short
of nothing counts as one.  The imports agree just when they do on each of these items, no account is empty, and
the first period the Parquet loader gets to see is that of the first row (`agree_iff`).
-/

namespace AwsReport

section Items

variable {S : Settings} {R : Report} {x : LineItem} {c : Column}

/-! ## Costs -/

/-- The discounts of an item in some columns. -/
def discounts (x : LineItem) (columns : List Column) : ℚ :=
  ((columns.filter (· ∈ EDP_DISCOUNTS)).map fun c => (x.number c).getD 0).sum

variable (S R x) in
/-- The cost is not made of empty amounts, and no discount is overwritten by it. -/
structure CostAgrees : Prop where
  blendedCost : (x.number .blendedCost).isSome
  after : S.useEdpDiscount → ∀ c ∈ R.after .blendedCost, c ∈ EDP_DISCOUNTS → (x.number c).isSome
  before : S.useEdpDiscount → discounts x (R.before .blendedCost) = 0

namespace Float64

@[simp] theorem val_add (p q : ℚ) : val p + val q = val (p + q) := rfl

@[simp] theorem nan_add (p : Float64) : nan + p = nan := rfl

@[simp] theorem add_nan (p : Float64) : p + nan = nan := by
  cases p <;> rfl

@[simp] theorem zero_eq : (0 : Float64) = val 0 := rfl

end Float64

theorem discounts_cons (columns : List Column) : discounts x (c :: columns) =
    (if c ∈ EDP_DISCOUNTS then (x.number c).getD 0 else 0) + discounts x columns := by
  unfold discounts
  by_cases hc : c ∈ EDP_DISCOUNTS <;> simp [hc]

theorem discounts_append (l l' : List Column) : discounts x (l ++ l') = discounts x l + discounts x l' := by
  unfold discounts
  rw [List.filter_append, List.map_append, List.sum_append]

/-- What is no number stays so. -/
theorem foldl_costStep_nan : ∀ {columns : List Column}, .blendedCost ∉ columns →
    columns.foldl (costStep S x) .nan = .nan
  | [], _ => rfl
  | c :: columns, h => by
    obtain ⟨hc, hcolumns⟩ := List.ne_and_not_mem_of_not_mem_cons h
    have hstep : costStep S x .nan c = .nan := by
      rw [costStep, if_neg (Ne.symm hc)]
      split <;> rfl
    rw [List.foldl_cons, hstep, foldl_costStep_nan hcolumns]

/-- Discounts are left alone. -/
theorem foldl_costStep_plain (hedp : ¬ S.useEdpDiscount) (cost : Float64) : ∀ {columns : List Column},
    .blendedCost ∉ columns → columns.foldl (costStep S x) cost = cost
  | [], _ => rfl
  | c :: columns, h => by
    obtain ⟨hc, hcolumns⟩ := List.ne_and_not_mem_of_not_mem_cons h
    have hstep : costStep S x cost c = cost := by
      rw [costStep, if_neg (Ne.symm hc), if_neg fun hdiscount => hedp hdiscount.2]
    rw [List.foldl_cons, hstep, foldl_costStep_plain hedp cost hcolumns]

/-- Discounts are added, unless one of them is empty. -/
theorem foldl_costStep_edp (hedp : S.useEdpDiscount) : ∀ {columns : List Column} (q : ℚ), .blendedCost ∉ columns →
    columns.foldl (costStep S x) (.val q) =
      if ∀ c ∈ columns, c ∈ EDP_DISCOUNTS → (x.number c).isSome then .val (q + discounts x columns) else .nan
  | [], q, _ => by simp [discounts]
  | c :: columns, q, h => by
    obtain ⟨hc, hcolumns⟩ := List.ne_and_not_mem_of_not_mem_cons h
    rw [List.foldl_cons, costStep, if_neg (Ne.symm hc), discounts_cons]
    simp only [hedp, and_true, List.forall_mem_cons]
    by_cases hdiscount : c ∈ EDP_DISCOUNTS
    · simp only [hdiscount, if_true, forall_const]
      cases hnumber : x.number c with
      | none => simp [parquetAmount, hnumber, foldl_costStep_nan hcolumns]
      | some d =>
        simp only [parquetAmount, hnumber, Float64.val_add, foldl_costStep_edp hedp (q + d) hcolumns]
        simp [add_assoc]
    · simp only [hdiscount, if_false, false_implies, true_and, zero_add]
      exact foldl_costStep_edp hedp q hcolumns

theorem parquetCost_eq : parquetCost S R x = (R.after .blendedCost).foldl (costStep S x)
    (parquetAmount x .blendedCost) := by
  unfold parquetCost
  conv_lhs => rw [Report.columns_eq (R.required .blendedCost (by decide)), List.foldl_append, List.foldl_cons]
  exact congrArg (fun cost => List.foldl (costStep S x) cost _) (if_pos rfl)

/-- The discounts CSV adds are those of the report. -/
theorem csvCost_edp (hedp : S.useEdpDiscount) : csvCost S R x =
    .val ((x.number .blendedCost).getD 0 + discounts x R.columns) := by
  have hperm : (EDP_DISCOUNTS.filter (· ∈ R.columns)).Perm (R.columns.filter (· ∈ EDP_DISCOUNTS)) := by
    refine (List.perm_ext_iff_of_nodup (List.Nodup.filter _ (by decide)) (R.nodup.filter _)).mpr fun c => ?_
    simp [and_comm]
  have hsum : discounts x R.columns = ((EDP_DISCOUNTS.filter (· ∈ R.columns)).map fun c => (x.number c).getD 0).sum :=
    ((hperm.map _).sum_eq).symm
  rw [csvCost, if_pos hedp, hsum]
  simp only [EDP_DISCOUNTS, List.foldl_cons, List.foldl_nil]
  by_cases hdiscount : Column.edpDiscount ∈ R.columns <;>
    by_cases hrate : Column.privateRateDiscount ∈ R.columns <;> simp [hdiscount, hrate, add_assoc]

/-- **When the costs agree.** -/
theorem csvCost_eq_parquetCost_iff : csvCost S R x = parquetCost S R x ↔ CostAgrees S R x := by
  rw [parquetCost_eq]
  cases hblended : x.number .blendedCost with
  | none =>
    have hnan : parquetAmount x .blendedCost = .nan := by rw [parquetAmount, hblended]
    rw [hnan, foldl_costStep_nan Report.not_mem_after]
    refine ⟨fun h => ?_, fun h => ?_⟩
    · by_cases hedp : S.useEdpDiscount
      · rw [csvCost_edp hedp] at h
        cases h
      · rw [csvCost, if_neg hedp] at h
        cases h
    · have hsome := h.blendedCost
      rw [hblended] at hsome
      cases hsome
  | some b =>
    have hval : parquetAmount x .blendedCost = .val b := by rw [parquetAmount, hblended]
    rw [hval]
    by_cases hedp : S.useEdpDiscount
    · have hsplit : discounts x R.columns =
          discounts x (R.before .blendedCost) + discounts x (R.after .blendedCost) := by
        conv_lhs => rw [Report.columns_eq (R.required .blendedCost (by decide)), discounts_append, discounts_cons]
        simp [EDP_DISCOUNTS]
      rw [csvCost_edp hedp, foldl_costStep_edp hedp b Report.not_mem_after, hblended, Option.getD_some, hsplit]
      refine ⟨fun h => ?_, fun h => ?_⟩
      · split at h
        · rename_i hafter
          have hsum : b + (discounts x (R.before .blendedCost) + discounts x (R.after .blendedCost)) =
              b + discounts x (R.after .blendedCost) := Float64.val.inj h
          exact ⟨by rw [hblended]; rfl, fun _ => hafter, fun _ => by linarith⟩
        · cases h
      · rw [if_pos (h.after hedp), h.before hedp, zero_add]
    · rw [foldl_costStep_plain hedp _ Report.not_mem_after, csvCost, if_neg hedp, hblended]
      exact ⟨fun _ => ⟨by rw [hblended]; rfl, fun h => absurd h hedp, fun h => absurd h hedp⟩, fun _ => rfl⟩

/-! ## Resource ids -/

/-- Where an item has an id that is short of nothing, it gets another one in both forms. -/
def IdAgrees (fields : List (Column × Value)) (resourceId : Option Text) : Prop :=
  resourceId = some [] →
    if movesToPlan fields then shortResourceId (getText fields .savingsPlanARN) ≠ []
    else (getText fields .resourceId).contains "elasticloadbalancing:" ∧
      composeResourceId fields = some (getText fields .resourceId)

theorem composeResourceId_plan {fields : List (Column × Value)} (h : movesToPlan fields) :
    composeResourceId fields = some (shortResourceId (getText fields .savingsPlanARN)) := by
  unfold movesToPlan at h
  rw [Bool.and_eq_true, decide_eq_true_eq, decide_eq_true_eq] at h
  obtain ⟨htype, hplan⟩ := h
  have hcredit : "SavingsPlanCoveredUsage".toList ≠ "Credit".toList := by decide
  have hcontains : Text.contains "SavingsPlanCoveredUsage".toList "SavingsPlan" = true := by decide +kernel
  unfold composeResourceId
  simp only [htype, hcredit, if_false, hcontains, true_and, hplan, ne_eq, not_false_eq_true, if_true]

/-- **When the resource ids agree.** -/
theorem setResourceId_filter_iff (fields : List (Column × Value)) (resourceId : Option Text) :
    setResourceId fields (resourceId.filter (· ≠ [])) = setResourceId fields resourceId ↔
      IdAgrees fields resourceId := by
  by_cases hempty : resourceId = some []
  · subst hempty
    have hfilter : (some ([] : Text)).filter (· ≠ []) = none := rfl
    rw [hfilter, IdAgrees]
    simp only [forall_const]
    by_cases hmoves : movesToPlan fields
    · simp only [setResourceId, hmoves, composeResourceId_plan hmoves, or_true, if_true]
      by_cases hplan : shortResourceId (getText fields .savingsPlanARN) = [] <;> simp [hplan]
    · have hitem : (getText fields .resourceId).contains "elasticloadbalancing:" →
          getText fields .resourceId ≠ [] := by
        intro h hnil
        rw [hnil] at h
        exact absurd h (by decide +kernel)
      simp only [setResourceId, hmoves, Option.isNone_none, Option.isNone_some, Bool.false_eq_true, or_false,
        if_true, if_false]
      cases hcompose : composeResourceId fields with
      | none => by_cases helb : (getText fields .resourceId).contains "elasticloadbalancing:" <;> simp [helb]
      | some r =>
        by_cases helb : (getText fields .resourceId).contains "elasticloadbalancing:"
        · have hne := hitem helb
          by_cases hr : r = []
          · simp [helb, hr, Ne.symm hne]
          · simp [helb, hr]
        · by_cases hr : r = [] <;> simp [helb, hr]
  · have hfilter : resourceId.filter (· ≠ []) = resourceId := by
      cases resourceId with
      | none => rfl
      | some r => exact Option.filter_eq_some_iff.mpr ⟨rfl, decide_eq_true fun h => hempty (congrArg some h)⟩
    rw [hfilter]
    exact ⟨fun _ h => absurd h hempty, fun _ => rfl⟩

variable (S R x) in
/-- The resource ids agree. -/
def ResourceAgrees : Prop := IdAgrees (fieldsOf R (csvField S R x)) ((itemText R x .resourceId).map shortResourceId)

/-! ## Records -/

/-- **Both keep the same tags.** -/
theorem tags_eq : (fieldsOf R (csvField S R x)).filter (·.1.isTag) =
    (fieldsOf R (parquetField S R x)).filter (·.1.isTag) := by
  unfold fieldsOf
  rw [List.filter_filterMap, List.filter_filterMap]
  refine List.filterMap_congr fun c _ => ?_
  cases c with
  | resourceTags tag =>
    have hkind : (Column.resourceTags tag).kind R.numbers = .text := rfl
    have hstripped : ¬ Stripped S (.resourceTags tag) := fun h => by
      rw [h.kind] at hkind
      cases hkind
    rw [csvField, parquetField, keptValue, Report.csvValue, Report.parquetValue, hkind]
    cases x.cell (.resourceTags tag) with
    | none => simp [Value.strftime, Value.truthy]
    | some s => by_cases hs : s = [] <;> simp [hstripped, hs, Value.strftime, Value.truthy]
  | _ =>
    rw [Option.filter_eq_none_iff.mpr, Option.filter_eq_none_iff.mpr]
    · intro f hf
      obtain ⟨v, -, rfl⟩ := Option.map_eq_some_iff.mp hf
      simp [Column.isTag]
    · intro f hf
      obtain ⟨v, -, rfl⟩ := Option.map_eq_some_iff.mp hf
      simp [Column.isTag]

/-- **When the records of an item agree.** -/
theorem csvRecord_eq_parquetRecord_iff (haccount : (x.cell .usageAccountId).isSome) :
    csvRecord S R x = parquetRecord S R x ↔
      ((accountOf S x).isSome → Recent S x → CostAgrees S R x ∧ ResourceAgrees S R x) := by
  obtain ⟨account, hcell⟩ := Option.isSome_iff_exists.mp haccount
  have hresource : setResourceId (fieldsOf R (parquetField S R x)) ((itemText R x .resourceId).map shortResourceId) =
      setResourceId (fieldsOf R (csvField S R x)) ((itemText R x .resourceId).map shortResourceId) :=
    setResourceId_congr (get_parquetField.trans get_csvField.symm) _
  have hbox : isFlavorUsage (fieldsOf R (parquetField S R x)) = isFlavorUsage (fieldsOf R (csvField S R x)) :=
    isFlavorUsage_congr (getText_congr (get_parquetField.trans get_csvField.symm))
  rw [csvRecord, parquetRecord, accountOf, hcell, Option.getD_some, Option.bind_some, hresource, hbox, tags_eq,
    ← csvCost_eq_parquetCost_iff, ResourceAgrees, ← setResourceId_filter_iff]
  cases S.accounts account with
  | none => simp
  | some cloudAccountId =>
    by_cases hrecent : Recent S x
    · simp only [Option.bind_some, hrecent, if_true, Option.some.injEq, Record.mk.injEq, Option.isSome_some,
        forall_const, true_and, and_true]
      exact and_comm
    · simp [hrecent]

/-! ## Reports -/

/-- Filtered maps with the same domain are one only if they are so at every element. -/
theorem filterMap_eq_filterMap_iff {α β : Type*} {f g : α → Option β} : ∀ {l : List α},
    (∀ a ∈ l, (f a).isSome = (g a).isSome) → (l.filterMap f = l.filterMap g ↔ ∀ a ∈ l, f a = g a)
  | [], _ => by simp
  | a :: l, h => by
    have ih := filterMap_eq_filterMap_iff (l := l) fun b hb => h b (List.mem_cons_of_mem a hb)
    have ha := h a List.mem_cons_self
    rw [List.filterMap_cons, List.filterMap_cons, List.forall_mem_cons]
    cases hf : f a with
    | none =>
      cases hg : g a with
      | none => simpa using ih
      | some b => simp [hf, hg] at ha
    | some b =>
      cases hg : g a with
      | none => simp [hf, hg] at ha
      | some b' => simp [ih]

theorem isSome_csvRecord (haccount : (x.cell .usageAccountId).isSome) :
    (csvRecord S R x).isSome = (parquetRecord S R x).isSome := by
  obtain ⟨account, hcell⟩ := Option.isSome_iff_exists.mp haccount
  rw [csvRecord, parquetRecord, accountOf, hcell, Option.getD_some, Option.bind_some]
  cases S.accounts account with
  | none => rfl
  | some cloudAccountId => by_cases hrecent : Recent S x <;> simp [hrecent]

/-- An empty account is another one in Parquet. -/
theorem skipped_eq_iff : ((R.rows.filterMap (csvSkipped S)).toFinset = (R.rows.filterMap (parquetSkipped S)).toFinset) ↔
    ∀ x ∈ R.rows, (x.cell .usageAccountId).isSome := by
  refine ⟨fun h x hx => ?_, fun h => congrArg List.toFinset (List.filterMap_congr fun x hx => ?_)⟩
  · by_contra hnone
    rw [Option.not_isSome_iff_eq_none] at hnone
    have hskip : none ∈ (R.rows.filterMap (parquetSkipped S)).toFinset := by
      rw [List.mem_toFinset, List.mem_filterMap]
      refine ⟨x, hx, ?_⟩
      simp [parquetSkipped, accountOf, hnone]
    rw [← h, List.mem_toFinset, List.mem_filterMap] at hskip
    obtain ⟨y, -, hy⟩ := hskip
    unfold csvSkipped at hy
    split at hy
    · cases hy
    · cases hy
  · obtain ⟨account, hcell⟩ := Option.isSome_iff_exists.mp (h x hx)
    simp [csvSkipped, parquetSkipped, accountOf, hcell]

variable (S R) in
/-- The first period the Parquet loader sees is that of the first row. -/
def PeriodAgrees : Prop :=
  R.rows.head?.map (fun x => (x.cell .billingPeriodStartDate).getD []) = R.rows.findSome? (seenPeriod S R)

end Items

/-- A discounted item of account `a`. -/
def discountedItem : LineItem where
  usageStartDate := 0
  usageEndDate := 3600
  lineItemType := "Usage".toList
  text := fun c => match c with
    | .usageAccountId => some "a".toList
    | .billingPeriodStartDate => some "2024-03".toList
    | _ => none
  number := fun c => match c with
    | .blendedCost => some 10
    | .edpDiscount => some (-3)
    | _ => none
  lineItemType_ne := by decide

/-- A report in which the discount comes before the cost. -/
def discountFirst : Report where
  columns := [.billingPeriodStartDate, .edpDiscount, .usageAccountId, .usageStartDate, .usageEndDate, .lineItemType,
    .blendedCost]
  numbers := fun _ => false
  rows := [discountedItem]
  nodup := by decide
  required := by decide

/-- Discounts are used. -/
def useDiscounts : Settings := ⟨fun account => if account = "a".toList then some 1 else none, 0, true, false⟩

end AwsReport
