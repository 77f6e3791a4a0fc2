import OptScale.Expenses.Breakdown
import OptScale.Violations.Constraint

/-!
# Violations/ExpiringBudget — the expenses of a budget since it began

The report takes no more than 365 days, so the life of a budget is cut into slices of so many.  A slice ends a
day before the next one begins, at the same time of the day; the report widens both ends to whole days, so
what is between them is counted with the slice that ends (`slices_flatMap`).  The last slice goes on to the end
of the day that is evaluated, which is not more than 365 days either, because a slice that began later in its
day would have been followed by another one (`slicesFrom`).
-/

open Fallible BreakdownExpenseController ExpenseController

namespace OrganizationViolationsWorker

/-! ## The slices -/

/-- `timedelta(days=DAYS_IN_YEAR)` -/
def aYear : ℤ := 365 * 86400

/-- The loop of `_slice_time_period_by_years`. -/
def slicesFrom (currentDate endDate : ℤ) : List (ℤ × ℤ) :=
  if currentDate ≤ endDate then
    let nextDate := currentDate + aYear
    if nextDate > endDate then [(currentDate, endDate)]
    else (currentDate, nextDate - 86400) :: slicesFrom nextDate endDate
  else []
termination_by (endDate + 1 - currentDate).toNat
decreasing_by
  unfold aYear
  omega

theorem sliceTimePeriodByYears_of_le {startDate endDate : ℤ} (h : startDate ≤ endDate) {years : ℕ}
    (hyears : ((endDate - startDate) / aYear).toNat = years) :
    sliceTimePeriodByYears startDate endDate = (List.range (years + 1)).map fun k : ℕ =>
      (startDate + k * aYear, if k = years then endDate else startDate + k * aYear + aYear - 86400) := by
  unfold aYear at hyears ⊢
  unfold sliceTimePeriodByYears
  rw [if_pos h, hyears]
  simp only [List.bind_eq_flatMap, List.pure_def, List.map_flatMap, List.map_singleton, Nat.cast_inj]
  exact List.map_eq_flatMap.symm

/-- A period of more than a year begins with a slice. -/
theorem sliceTimePeriodByYears_cons {startDate endDate : ℤ} (h : startDate + aYear ≤ endDate) :
    sliceTimePeriodByYears startDate endDate =
      (startDate, startDate + aYear - 86400) :: sliceTimePeriodByYears (startDate + aYear) endDate := by
  have hyears : ((endDate - startDate) / aYear).toNat = ((endDate - (startDate + aYear)) / aYear).toNat + 1 := by
    unfold aYear at h ⊢
    omega
  rw [sliceTimePeriodByYears_of_le (by unfold aYear at h; omega) hyears, sliceTimePeriodByYears_of_le h rfl,
    List.range_succ_eq_map, List.map_cons, List.map_map]
  refine congrArg₂ List.cons ?_ (List.map_congr_left fun k _ => ?_)
  · simp
  · simp only [Function.comp_apply, Nat.succ_eq_add_one, Nat.cast_add, Nat.cast_one, Nat.add_right_cancel_iff]
    rw [add_mul, one_mul, add_comm _ aYear, ← add_assoc]

/-- **The slices are those of the loop.** -/
theorem sliceTimePeriodByYears_eq (startDate endDate : ℤ) :
    sliceTimePeriodByYears startDate endDate = slicesFrom startDate endDate := by
  fun_induction slicesFrom startDate endDate with
  | case1 current hle next hlast =>
    have hyears : ((endDate - current) / aYear).toNat = 0 := by
      have hlast : current + aYear > endDate := hlast
      unfold aYear at hlast ⊢
      omega
    rw [sliceTimePeriodByYears_of_le hle hyears]
    simp
  | case2 current hle next hmore ih => rw [sliceTimePeriodByYears_cons (not_lt.mp hmore), ih]
  | case3 current hlt =>
    unfold sliceTimePeriodByYears
    rw [if_neg hlt]

/-! ## The windows of the report -/

section Windows

variable {startDate endDate date : ℤ}

/-- What the report makes of the slices. -/
def windows (startDate endDate : ℤ) : List (ℤ × ℤ) :=
  (slicesFrom startDate endDate).map fun slice => updateParams slice.1 slice.2

/-- The days of a window that is followed by another one. -/
theorem getBreakdownDates_append {a b c : ℤ} (ha : a % 86400 = 0) (hb : b % 86400 = 0) (hab : a ≤ b)
    (hbc : b ≤ c + 1) : getBreakdownDates a (b - 1) ++ getBreakdownDates b c = getBreakdownDates a c := by
  have hlength : ((c - c % 86400 - (a - a % 86400)) / 86400 + 1).toNat =
      ((b - 1 - (b - 1) % 86400 - (a - a % 86400)) / 86400 + 1).toNat +
        ((c - c % 86400 - (b - b % 86400)) / 86400 + 1).toNat := by omega
  have hcast : ((((b - 1 - (b - 1) % 86400 - (a - a % 86400)) / 86400 + 1).toNat : ℕ) : ℤ) = (b - a) / 86400 := by omega
  simp only [getBreakdownDates]
  rw [hlength, List.range_add, List.map_append, List.map_map]
  refine congrArg _ (List.map_congr_left fun n _ => ?_)
  simp only [Function.comp_apply, Nat.cast_add, hcast]
  omega

theorem getBreakdownDates_updateParams (a b : ℤ) :
    getBreakdownDates (updateParams a b).1 (updateParams a b).2 = getBreakdownDates a b := by
  have hfirst : (updateParams a b).1 - (updateParams a b).1 % 86400 = a - a % 86400 := by
    unfold updateParams
    omega
  have hlast : (updateParams a b).2 - (updateParams a b).2 % 86400 = b - b % 86400 := by
    unfold updateParams
    omega
  simp only [getBreakdownDates, hfirst, hlast]

/-- The windows are in the days of the period. -/
theorem mem_windows (hend : endDate % 86400 = 86399) {w : ℤ × ℤ} (hw : w ∈ windows startDate endDate) :
    startDate - startDate % 86400 ≤ w.1 ∧ w.1 % 86400 = 0 ∧ w.2 % 86400 = 86399 ∧ w.1 ≤ w.2 ∧
      w.2 - w.1 ≤ 365 * 86400 - 1 := by
  unfold windows at hw
  fun_induction slicesFrom startDate endDate with
  | case1 current hle next hlast =>
    have hlast : current + aYear > endDate := hlast
    rw [List.map_singleton, List.mem_singleton] at hw
    subst hw
    unfold aYear at hlast
    unfold updateParams
    omega
  | case2 current hle next hmore ih =>
    have hmore : current + aYear ≤ endDate := not_lt.mp hmore
    rw [List.map_cons, List.mem_cons] at hw
    rcases hw with rfl | hw
    · have hnext : next = current + aYear := rfl
      unfold aYear at hnext
      unfold updateParams
      simp only
      omega
    · obtain ⟨hfrom, hrest⟩ := ih hw
      have hnext : next = current + aYear := rfl
      unfold aYear at hnext
      exact ⟨by omega, hrest⟩
  | case3 current hlt => exact absurd hw List.not_mem_nil

/-- **The days of the slices are the days of the period**, each once. -/
theorem slices_flatMap (hend : endDate % 86400 = 86399) (h : startDate ≤ endDate) :
    (windows startDate endDate).flatMap (fun w => getBreakdownDates w.1 w.2) = getBreakdownDates startDate endDate := by
  unfold windows
  fun_induction slicesFrom startDate endDate with
  | case1 current hle next hlast =>
    rw [List.map_singleton, List.flatMap_singleton, getBreakdownDates_updateParams]
  | case2 current hle next hmore ih =>
    have hmore : next ≤ endDate := not_lt.mp hmore
    have hnext : next = current + 365 * 86400 := rfl
    rw [List.map_cons, List.flatMap_cons, ih hmore, getBreakdownDates_updateParams]
    have hdays := getBreakdownDates_append (a := current - current % 86400) (b := next - next % 86400) (c := endDate)
      (by omega) (by omega) (by omega) (by omega)
    simp only [getBreakdownDates] at hdays ⊢
    rw [show current - current % 86400 - (current - current % 86400) % 86400 = current - current % 86400 by omega,
      show next - next % 86400 - (next - next % 86400) % 86400 = next - next % 86400 by omega] at hdays
    rw [← hdays, show next - next % 86400 - 1 - (next - next % 86400 - 1) % 86400 =
      next - 86400 - (next - 86400) % 86400 by omega]
  | case3 current hlt => exact absurd h hlt

/-- **The windows come one after the other.** -/
theorem windows_pairwise (hend : endDate % 86400 = 86399) :
    (windows startDate endDate).Pairwise fun a b => a.2 < b.1 := by
  unfold windows
  fun_induction slicesFrom startDate endDate with
  | case1 current hle next hlast => exact List.pairwise_singleton _ _
  | case2 current hle next hmore ih =>
    rw [List.map_cons]
    refine List.pairwise_cons.mpr ⟨fun w hw => ?_, ih⟩
    have hfrom : next - next % 86400 ≤ w.1 := (mem_windows hend hw).1
    have hnext : next = current + 365 * 86400 := rfl
    unfold updateParams
    simp only
    omega
  | case3 current hlt => exact List.Pairwise.nil

end Windows

/-! ## The expenses -/

section Expenses

variable {src : Source} {startDate endDate date : ℤ}

/-- What the resources cost on a day. -/
def dailyCost (src : Source) (day : ℤ) : ℚ := ledgerSum src day (day + 86400)

/-- `total_expenses`: the totals of the reports, or the first refusal. -/
def totalExpenses (src : Source) (timePeriods : List (ℤ × ℤ)) : Except Failure ℚ :=
  timePeriods.foldlM (fun total period => do
    let resp ← get src period.1 period.2
    pure (total + resp.total)) 0

/-- What the ledger has on a time is what it has on its two parts. -/
theorem ledgerSum_append {a b c : ℤ} (hab : a ≤ b) (hbc : b ≤ c) :
    ledgerSum src a c = ledgerSum src a b + ledgerSum src b c := by
  unfold ledgerSum
  rw [Grouped.sum_filter, Grouped.sum_filter, Grouped.sum_filter, ← List.sum_map_add]
  refine congrArg List.sum (List.map_congr_left fun e _ => ?_)
  rcases lt_or_ge e.date b with hbefore | hafter
  · have hnot : ¬ b ≤ e.date := not_le.mpr hbefore
    have hc : e.date < c := hbefore.trans_le hbc
    simp only [hbefore, hnot, hc, and_false, and_true, if_false, add_zero]
  · have hnot : ¬ e.date < b := not_lt.mpr hafter
    have ha : a ≤ e.date := hab.trans hafter
    simp only [hafter, hnot, ha, true_and, and_false, if_false, zero_add]

/-- **Some days on end** cost what the ledger has on them. -/
theorem ledgerSum_days (src : Source) (a : ℤ) (n : ℕ) :
    ledgerSum src a (a + 86400 * n) = ((List.range n).map fun i : ℕ => dailyCost src (a + 86400 * i)).sum := by
  induction n with
  | zero =>
    unfold ledgerSum
    rw [List.filter_eq_nil_iff.mpr fun e _ h => ?_]
    · rfl
    · have hin := (of_decide_eq_true h).2.2
      simp only [Nat.cast_zero, mul_zero, add_zero] at hin
      omega
  | succ n ih =>
    rw [List.range_succ, List.map_append, List.sum_append, ← ih, List.map_singleton, List.sum_singleton,
      ledgerSum_append (b := a + 86400 * n) (by omega) (by push_cast; omega), dailyCost]
    rw [show a + 86400 * ((n + 1 : ℕ) : ℤ) = a + 86400 * n + 86400 by push_cast; ring]

/-- The days of a window cost what the ledger has on it. -/
theorem ledgerSum_window {a b : ℤ} (ha : a % 86400 = 0) (hb : b % 86400 = 86399) (hab : a ≤ b) :
    ledgerSum src a (b + 1) = ((getBreakdownDates a b).map (dailyCost src)).sum := by
  have hlength : ((((b - b % 86400 - (a - a % 86400)) / 86400 + 1).toNat : ℕ) : ℤ) = (b + 1 - a) / 86400 := by omega
  have hdays := ledgerSum_days src a ((b - b % 86400 - (a - a % 86400)) / 86400 + 1).toNat
  rw [hlength, show a + 86400 * ((b + 1 - a) / 86400) = b + 1 by omega] at hdays
  rw [hdays]
  simp only [getBreakdownDates, List.map_map, Function.comp_def, ha, sub_zero]

/-- **The totals of the slices** are the costs of their days. -/
theorem foldlM_totals {l : List (ℤ × ℤ)} (total : ℚ)
    (hl : ∀ slice ∈ l, ∃ report, get src slice.1 slice.2 = .ok report ∧
      report.total = ((getBreakdownDates slice.1 slice.2).map (dailyCost src)).sum) :
    l.foldlM (fun total period => do
      let resp ← get src period.1 period.2
      pure (total + resp.total)) total =
      (.ok (total + ((l.flatMap fun s => getBreakdownDates s.1 s.2).map (dailyCost src)).sum) : Except Failure ℚ) := by
  induction l generalizing total with
  | nil => simp [pure, Except.pure]
  | cons slice l ih =>
    obtain ⟨⟨report, hget, hreport⟩, hrest⟩ := List.forall_mem_cons.mp hl
    rw [List.foldlM_cons, hget, ok_bind]
    simp only [pure_bind]
    rw [ih _ hrest, List.flatMap_cons, List.map_append, List.sum_append, hreport, add_assoc]

/-- **Every day of the budget counts once**: the windows of the slices come one after the other, have the days
from the start to the day that is evaluated, are not refused, and their totals are what the days cost. -/
structure EachDayOnce (startDate date : ℤ) : Prop where
  disjoint : (windows startDate (todayEnd date)).Pairwise fun a b => a.2 < b.1
  days : (windows startDate (todayEnd date)).flatMap (fun w => getBreakdownDates w.1 w.2) =
    getBreakdownDates startDate (todayEnd date)
  short : ∀ w ∈ windows startDate (todayEnd date), (getBreakdownDates w.1 w.2).length ≤ 365
  accepted : ∀ w ∈ windows startDate (todayEnd date), checkFilters w.1 w.2 = .ok ()
  total : ∀ src, totalExpenses src (sliceTimePeriodByYears startDate (todayEnd date)) =
    .ok ((getBreakdownDates startDate (todayEnd date)).map (dailyCost src)).sum

theorem todayEnd_mod (date : ℤ) : todayEnd date % 86400 = 86399 := by
  unfold todayEnd todayStart
  omega

theorem checkFilters_of_mem_windows {w : ℤ × ℤ} (hw : w ∈ windows startDate (todayEnd date)) :
    checkFilters w.1 w.2 = .ok () := by
  obtain ⟨-, -, -, -, hlength⟩ := mem_windows (todayEnd_mod date) hw
  exact require_of (by omega)

/-- **The expenses of the budget** are what its days cost. -/
theorem totalExpenses_eq (src : Source) (hstart : 0 ≤ startDate) (h : startDate ≤ todayEnd date) :
    totalExpenses src (sliceTimePeriodByYears startDate (todayEnd date)) =
      .ok ((getBreakdownDates startDate (todayEnd date)).map (dailyCost src)).sum := by
  have hend := todayEnd_mod date
  rw [sliceTimePeriodByYears_eq, totalExpenses, foldlM_totals 0 fun slice hslice => ?_, zero_add]
  · rw [← slices_flatMap hend h, windows, List.flatMap_map]
    simp only [getBreakdownDates_updateParams]
  · have hw : updateParams slice.1 slice.2 ∈ windows startDate (todayEnd date) := List.mem_map_of_mem hslice
    obtain ⟨hfrom, hfirst, hlast, hle, -⟩ := mem_windows hend hw
    refine ⟨processData src (updateParams slice.1 slice.2).1 (updateParams slice.1 slice.2).2, ?_, ?_⟩
    · simp only [BreakdownExpenseController.get, checkFilters_of_mem_windows hw, ok_bind]
      rfl
    · rw [(processData_total src (by omega) (by omega)).1, ledgerSum_window hfirst hlast hle,
        getBreakdownDates_updateParams]

/-- **Every day of an expiring budget counts once**, from whatever second of its first day on. -/
theorem eachDayOnce (hstart : 0 ≤ startDate) (h : startDate ≤ todayEnd date) : EachDayOnce startDate date := by
  have hend := todayEnd_mod date
  refine ⟨windows_pairwise hend, slices_flatMap hend h, fun w hw => ?_, fun w hw => checkFilters_of_mem_windows hw,
    fun src => totalExpenses_eq src hstart h⟩
  obtain ⟨-, hfirst, hlast, hle, hlength⟩ := mem_windows hend hw
  rw [getBreakdownDates, List.length_map, List.length_range]
  omega

/-- A budget of more than two years, since the last second of a day. -/
theorem twoYears_eachDayOnce : EachDayOnce 86399 (800 * 86400) := eachDayOnce (by decide) (by decide)

/-- The totals that were added up are those of the answers. -/
theorem eq_sum_of_totalExpenses {t : Turn} {c : Constraint}
    (hanswers : ∀ a b report, get src a b = .ok report → t.expensesTotal c.id a b = report.total) {l : List (ℤ × ℤ)}
    {total r : ℚ}
    (h : l.foldlM (fun total period => do
      let resp ← get src period.1 period.2
      pure (total + resp.total)) total = (.ok r : Except Failure ℚ)) :
    r = total + (l.map fun period => t.expensesTotal c.id period.1 period.2).sum := by
  induction l generalizing total with
  | nil =>
    rw [List.foldlM_nil, pure_eq_ok] at h
    rw [List.map_nil, List.sum_nil, add_zero, h]
  | cons period l ih =>
    rw [List.foldlM_cons, bind_eq_ok] at h
    obtain ⟨sum, hsum, hrest⟩ := h
    obtain ⟨report, hget, hreport⟩ := bind_eq_ok.mp hsum
    rw [ih hrest, ← pure_eq_ok.mp hreport, List.map_cons, List.sum_cons, hanswers _ _ _ hget, add_assoc]

/-- **`process_expiring_budget`** compares the costs of the days of the budget with its limit. -/
theorem processExpiringBudget_runResult {t : Turn} {c : Constraint} {limitHits : List LimitHit} {totalBudget : ℚ}
    (hanswers : ∀ a b report, get src a b = .ok report → t.expensesTotal c.id a b = report.total)
    (hstart : 0 ≤ startDate) (h : startDate ≤ todayEnd t.date) (hrun : c.lastRun ≤ t.maxLastImportAt) :
    (processExpiringBudget t c limitHits totalBudget startDate).runResult = some (.limited totalBudget
      ((getBreakdownDates startDate (todayEnd t.date)).map (dailyCost src)).sum) := by
  have hsum := eq_sum_of_totalExpenses hanswers (totalExpenses_eq src hstart h)
  unfold processExpiringBudget
  rw [if_neg (not_lt.mpr hrun), hsum, zero_add]

end Expenses

end OrganizationViolationsWorker
