import OptScale.Foundations.Grouped
import OptScale.Rest.Text

/-!
# Expenses/Formatted — the expenses of a period next to those before it

The expenses are queried from `start - delta` on, and split at `start`: what comes before is the previous
total.  The previous window is to be as long as the period in whole days, rounded up.  Whether there is
something to round is asked by `% 24 * 3600`, which is `(% 24) * 3600`, so a period of any multiple of 24
seconds passes for one of whole days, and its last day is left out of the previous window
(`getFormattedExpenses_comparable_iff`).

Times are seconds, on a clock in UTC.
-/

/-! ## The query -/

namespace ExpenseController

/-- A row of the `expenses` table. -/
structure ExpenseRow where
  cloudAccountId : Text
  resourceId : Text
  date : ℤ
  cost : ℚ
  sign : ℤ

/-- A document of `resources`. -/
structure ResourceDocument where
  id : Text
  cloudAccountId : Option Text
  /-- The other fields. -/
  fields : String → Option Text
  lastSeenDate : ℤ
  lastSeen : ℤ
  deletedAt : ℕ

/-- A field of a document. -/
def ResourceDocument.get (r : ResourceDocument) : String → Option Text
  | "_id" => some r.id
  | "cloud_account_id" => r.cloudAccountId
  | name => r.fields name

/-- What a query goes through. -/
structure Ledger where
  resources : List ResourceDocument
  expenses : List ExpenseRow

/-- `resource_field_mappings` -/
def resourceField : String → String
  | "owner_id" => "employee_id"
  | "resource_id" => "_id"
  | name => name

/-- An item of the result. -/
structure ExpenseGroup where
  date : ℤ
  group : Option Text
  cloudAccountId : Text
  cost : ℚ
  deriving DecidableEq, Repr

/-- What a row is grouped by. -/
abbrev GroupKey := ℤ × Option Text × Text

variable (L : Ledger) (filterField : String) (filterList : List Text) (startDate endDate : ℤ)
  (groupBy : Option String)

/-- The resources that were seen since the day of the start. -/
def foundResources : List ResourceDocument :=
  L.resources.filter fun r => (r.get (resourceField filterField)).any (· ∈ filterList) ∧
    startDate - startDate % 86400 ≤ r.lastSeenDate ∧ startDate ≤ r.lastSeen ∧ r.deletedAt = 0

/-- `expenses JOIN resources`, each row under what it is grouped by. -/
def joined : List (GroupKey × ExpenseRow) :=
  let resources := foundResources L filterField filterList startDate
  let cloudAccountIds := resources.filterMap ResourceDocument.cloudAccountId
  (L.expenses.filter fun e => e.cloudAccountId ∈ cloudAccountIds ∧ startDate ≤ e.date ∧ e.date ≤ endDate).flatMap
    fun e => (resources.filter fun r => r.id = e.resourceId).map fun r =>
      ((e.date, groupBy.bind fun field => r.get (resourceField field), e.cloudAccountId), e)

/-- `_get_expenses_clickhouse` -/
def getExpenses : List ExpenseGroup :=
  let rows := joined L filterField filterList startDate endDate groupBy
  let rowsOf (k : GroupKey) := (rows.filter fun x => x.1 = k).map Prod.snd
  let kept := (rows.map Prod.fst).dedup.filter fun k => 0 < ((rowsOf k).map ExpenseRow.sign).sum
  (kept.map fun k => ⟨k.1, k.2.1, k.2.2, ((rowsOf k).map fun e => e.cost * (e.sign : ℚ)).sum⟩).mergeSort
    fun a b => b.cost ≤ a.cost

variable {L filterField filterList startDate endDate groupBy}

/-- **The rows of a query are dated in it.** -/
theorem date_mem_getExpenses {g : ExpenseGroup}
    (hg : g ∈ getExpenses L filterField filterList startDate endDate groupBy) :
    startDate ≤ g.date ∧ g.date ≤ endDate := by
  obtain ⟨k, hk, rfl⟩ := List.mem_map.mp (List.mem_mergeSort.mp hg)
  obtain ⟨x, hx, rfl⟩ := List.mem_map.mp (List.mem_dedup.mp (List.mem_filter.mp hk).1)
  obtain ⟨e, he, hr⟩ := List.mem_flatMap.mp hx
  obtain ⟨r, -, rfl⟩ := List.mem_map.mp hr
  exact (of_decide_eq_true (List.mem_filter.mp he).2).2

end ExpenseController

/-! ## The two totals -/

namespace FormattedExpenseController

open ExpenseController

/-- The result's `expenses`. -/
structure Expenses where
  total : ℚ
  previousTotal : ℚ
  previousRangeStart : ℤ
  /-- By the day, written in seconds. -/
  breakdown : Dict ℤ ℚ

/-- `get_result_base` -/
def getResultBase (prevStartTs : ℤ) : Expenses := ⟨0, 0, prevStartTs, ∅⟩

/-- A turn of the loop. -/
def addGroup (startingTime : ℤ) (result : Expenses) (g : ExpenseGroup) : Expenses :=
  if startingTime ≤ g.date then
    { result with
      total := result.total + g.cost
      breakdown := result.breakdown.addTo g.date g.cost }
  else { result with previousTotal := result.previousTotal + g.cost }

/-- `get_formatted_result` -/
def getFormattedResult (dbResult : List ExpenseGroup) (startingTime prevStartTs : ℤ) : Expenses :=
  dbResult.foldl (addGroup startingTime) (getResultBase prevStartTs)

/-- `get_delta`, in days.  Python's `%` binds as tightly as its `*`. -/
def getDelta (endDate startDate : ℤ) : ℤ :=
  if (endDate - startDate) % 24 * 3600 ≠ 0 then (endDate - startDate) / 86400 + 1
  else (endDate - startDate) / 86400

/-- What a controller asks for: `get_filter_params`, `GROUPING_FIELD`. -/
structure Params where
  filterField : String
  filterList : List Text
  groupingField : Option String

/-- The rows of a window. -/
def rows (P : Params) (L : Ledger) (startDate endDate : ℤ) : List ExpenseGroup :=
  getExpenses L P.filterField P.filterList startDate endDate P.groupingField

/-- `get_formatted_expenses` -/
def getFormattedExpenses (P : Params) (L : Ledger) (startDate endDate : ℤ) : Expenses :=
  let previousStart := startDate - 86400 * getDelta endDate startDate
  getFormattedResult (rows P L previousStart endDate) startDate previousStart

/-! ## What each row counts for -/

section Loop

variable {startingTime prevStartTs : ℤ} {dbResult : List ExpenseGroup}

/-- The cost of some rows. -/
def costOf (dbResult : List ExpenseGroup) : ℚ := (dbResult.map ExpenseGroup.cost).sum

theorem costOf_filter_cons (p : ExpenseGroup → Prop) [DecidablePred p] (g : ExpenseGroup) :
    costOf ((g :: dbResult).filter fun g => p g) = (if p g then g.cost else 0) + costOf (dbResult.filter fun g => p g) := by
  by_cases hg : p g
  · rw [List.filter_cons, if_pos (decide_eq_true hg), if_pos hg]
    rfl
  · rw [List.filter_cons, if_neg (by simpa using hg), if_neg hg, zero_add]

variable (startingTime) in
/-- A turn adds to one of the two totals. -/
theorem addGroup_spec (result : Expenses) (g : ExpenseGroup) :
    (addGroup startingTime result g).total = result.total + (if startingTime ≤ g.date then g.cost else 0) ∧
      (addGroup startingTime result g).previousTotal =
        result.previousTotal + (if g.date < startingTime then g.cost else 0) ∧
      (addGroup startingTime result g).previousRangeStart = result.previousRangeStart ∧
      (addGroup startingTime result g).breakdown.total - (addGroup startingTime result g).total =
        result.breakdown.total - result.total := by
  unfold addGroup
  by_cases hg : startingTime ≤ g.date
  · rw [if_pos hg, if_pos hg, if_neg (not_lt.mpr hg), add_zero]
    exact ⟨rfl, rfl, rfl, by rw [Dict.total_addTo, add_sub_add_right_eq_sub]⟩
  · rw [if_neg hg, if_neg hg, if_pos (not_le.mp hg), add_zero]
    exact ⟨rfl, rfl, rfl, rfl⟩

variable (startingTime dbResult) in
/-- **A row counts for one of the two totals**, by its date. -/
theorem foldl_addGroup (result : Expenses) :
    let after := dbResult.foldl (addGroup startingTime) result
    after.total = result.total + costOf (dbResult.filter fun g => startingTime ≤ g.date) ∧
      after.previousTotal = result.previousTotal + costOf (dbResult.filter fun g => g.date < startingTime) ∧
      after.previousRangeStart = result.previousRangeStart ∧
      after.breakdown.total - after.total = result.breakdown.total - result.total := by
  induction dbResult generalizing result with
  | nil => simp [costOf]
  | cons g dbResult ih =>
    obtain ⟨htotal, hprevious, hrange, hbreakdown⟩ := ih (addGroup startingTime result g)
    obtain ⟨ht, hp, hr, hb⟩ := addGroup_spec startingTime result g
    rw [ht] at htotal
    rw [hp] at hprevious
    rw [List.foldl_cons, costOf_filter_cons, costOf_filter_cons, ← add_assoc, ← add_assoc]
    exact ⟨htotal, hprevious, hrange.trans hr, hbreakdown.trans hb⟩

/-- **The totals of every list of rows** are those on the two sides of the start, they make up the list, and
the days add up to the total. -/
theorem getFormattedResult_spec (dbResult : List ExpenseGroup) (startingTime prevStartTs : ℤ) :
    let result := getFormattedResult dbResult startingTime prevStartTs
    result.total = costOf (dbResult.filter fun g => startingTime ≤ g.date) ∧
      result.previousTotal = costOf (dbResult.filter fun g => g.date < startingTime) ∧
      result.total + result.previousTotal = costOf dbResult ∧
      result.previousRangeStart = prevStartTs ∧ result.breakdown.total = result.total := by
  obtain ⟨htotal, hprevious, hrange, hbreakdown⟩ := foldl_addGroup startingTime dbResult (getResultBase prevStartTs)
  have hsplit : costOf (dbResult.filter fun g => startingTime ≤ g.date) +
      costOf (dbResult.filter fun g => g.date < startingTime) = costOf dbResult := by
    have hperm := (List.filter_append_perm (fun g : ExpenseGroup => decide (startingTime ≤ g.date)) dbResult).map
      ExpenseGroup.cost
    have hsum := hperm.sum_eq
    rw [List.map_append, List.sum_append] at hsum
    simpa only [costOf, ← decide_not, not_le] using hsum
  simp only [getResultBase, zero_add] at htotal hprevious
  refine ⟨htotal, hprevious, ?_, hrange, ?_⟩
  · rw [getFormattedResult, getResultBase, htotal, hprevious, hsplit]
  · exact sub_eq_zero.mp (hbreakdown.trans (by simp [getResultBase, Dict.total]))

end Loop

/-! ## Comparable windows -/

/-- The days of a period, the last one in full. -/
def wholeDays (length : ℤ) : ℤ := -(-length / 86400)

/-- **The period is compared with one as long**: the previous window takes the whole days of the period up to
its start; the rows of the query are dated in the two windows, each counts for the total of its window, and the
days add up to the total. -/
structure Comparable (P : Params) (L : Ledger) (startDate endDate : ℤ) (result : Expenses) : Prop where
  window : result.previousRangeStart = startDate - 86400 * wholeDays (endDate - startDate)
  dated : ∀ g ∈ rows P L result.previousRangeStart endDate,
    result.previousRangeStart ≤ g.date ∧ g.date < startDate ∨ startDate ≤ g.date ∧ g.date ≤ endDate
  total : result.total =
    costOf ((rows P L result.previousRangeStart endDate).filter fun g => startDate ≤ g.date)
  previousTotal : result.previousTotal =
    costOf ((rows P L result.previousRangeStart endDate).filter fun g => g.date < startDate)
  counted : result.total + result.previousTotal = costOf (rows P L result.previousRangeStart endDate)
  breakdown : result.breakdown.total = result.total

/-- The delta is rounded up unless the period is a multiple of 24 seconds and not one of whole days. -/
theorem getDelta_eq_wholeDays_iff (startDate endDate : ℤ) :
    getDelta endDate startDate = wholeDays (endDate - startDate) ↔
      (24 ∣ endDate - startDate → 86400 ∣ endDate - startDate) := by
  unfold getDelta wholeDays
  split <;> omega

variable {P : Params} {L : Ledger} {startDate endDate : ℤ}

/-- All but the length of the previous window is as it should be. -/
theorem getFormattedExpenses_comparable (h : getDelta endDate startDate = wholeDays (endDate - startDate)) :
    Comparable P L startDate endDate (getFormattedExpenses P L startDate endDate) := by
  obtain ⟨htotal, hprevious, hcounted, hrange, hbreakdown⟩ := getFormattedResult_spec
    (rows P L (startDate - 86400 * getDelta endDate startDate) endDate) startDate
    (startDate - 86400 * getDelta endDate startDate)
  have hstart : (getFormattedExpenses P L startDate endDate).previousRangeStart =
      startDate - 86400 * getDelta endDate startDate := hrange
  refine ⟨?_, fun g hg => ?_, ?_, ?_, ?_, hbreakdown⟩
  · rw [hstart, h]
  · obtain ⟨hfrom, hto⟩ := date_mem_getExpenses hg
    rcases lt_or_ge g.date startDate with hbefore | hin
    · exact Or.inl ⟨hfrom, hbefore⟩
    · exact Or.inr ⟨hin, hto⟩
  · rw [hstart]
    exact htotal
  · rw [hstart]
    exact hprevious
  · rw [hstart]
    exact hcounted

theorem getDelta_of_comparable
    (h : Comparable P L startDate endDate (getFormattedExpenses P L startDate endDate)) :
    getDelta endDate startDate = wholeDays (endDate - startDate) := by
  have hrange := (getFormattedResult_spec (rows P L (startDate - 86400 * getDelta endDate startDate) endDate)
    startDate (startDate - 86400 * getDelta endDate startDate)).2.2.2.1
  have hwindow := hrange.symm.trans h.window
  omega

/-- **The period is compared with one as long** exactly if its length is no multiple of 24 seconds, or is one
of whole days. -/
theorem getFormattedExpenses_comparable_iff (P : Params) (L : Ledger) (startDate endDate : ℤ) :
    Comparable P L startDate endDate (getFormattedExpenses P L startDate endDate) ↔
      (24 ∣ endDate - startDate → 86400 ∣ endDate - startDate) :=
  ⟨fun h => (getDelta_eq_wholeDays_iff startDate endDate).mp (getDelta_of_comparable h),
    fun h => getFormattedExpenses_comparable ((getDelta_eq_wholeDays_iff startDate endDate).mpr h)⟩

/-- A controller of one cloud account. -/
def oneAccount : Params := ⟨"cloud_account_id", ["a".toList], none⟩

/-- **Half a day is compared with nothing**: twelve hours are a multiple of 24 seconds. -/
theorem halfADay_not_comparable :
    ¬ Comparable oneAccount ⟨[], []⟩ 86400 129600 (getFormattedExpenses oneAccount ⟨[], []⟩ 86400 129600) := by
  intro h
  have hdelta := (getDelta_eq_wholeDays_iff 86400 129600).mp (getDelta_of_comparable h)
  omega

end FormattedExpenseController
