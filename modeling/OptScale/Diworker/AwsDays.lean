import OptScale.Foundations.Grouped
import OptScale.Diworker.AwsImporter

/-!
# Diworker/AwsDays — the days a raw AWS expense is spread over

The raw rows of one resource, in the milliseconds of the raw store.  Rows that begin on one day and
end on one day are put together under the latest end, a second is taken off that end, and the cost is
spread over the days that remain.  A row gives each day its share (`shareOf`), and the clean expense
of a day has what the rows give it (`cost_eq_sum_shareOf`).

A group that ends within a second of its begin has no day at all, so its cost is lost; and since the
end's day is taken before the second is, a row that ends at midnight may be put together with one
that goes on, and is then spread over the next day as well.  Nothing else goes wrong
(`cleanExpensesOf_faithful_iff`).
-/

open BaseReportImporter

namespace AwsReportImporter

/-- `timedelta(seconds=1)` -/
def aSecond : ℤ := 1000

/-- `timedelta(days=1)` -/
def aDay : ℤ := 86400 * aSecond

/-- A raw row of the resource.  It begins with a day, and ends no sooner. -/
structure RawRow where
  /-- The values of the other fields of `get_unique_field_list`. -/
  item : List (Option String)
  cloudAccountId : Uuid
  startDate : ℤ
  endDate : ℤ
  cost : ℚ
  begins : startDate % aDay = 0
  ordered : startDate ≤ endDate
  deriving DecidableEq

/-! ## The model -/

/-- The `_id` of `_get_group_by_day_pipeline`, of one resource. -/
structure RowGroup where
  item : List (Option String)
  cloudAccountId : Uuid
  startDay : ℤ
  endDay : ℤ
  deriving DecidableEq

/-- The group of a row. -/
def RawRow.group (r : RawRow) : RowGroup :=
  ⟨r.item, r.cloudAccountId, r.startDate / aDay, r.endDate / aDay⟩

/-- The expense of a group. -/
structure DayExpense where
  cloudAccountId : Uuid
  startDate : ℤ
  /-- `lineItem/UsageEndDate` -/
  usageEndDate : ℤ
  /-- `lineItem/BlendedCost` -/
  blendedCost : ℚ
  deriving DecidableEq

/-- The rows of a group, put together. -/
def putTogether (rows : List RawRow) (g : RowGroup) : Option DayExpense :=
  match rows.filter fun r => r.group = g with
  | [] => none
  | first :: rest => some {
      cloudAccountId := first.cloudAccountId
      startDate := first.startDate
      usageEndDate := (rest.map RawRow.endDate).foldl max first.endDate
      blendedCost := ((first :: rest).map RawRow.cost).sum }

/-- `get_raw_expenses_by_filters` -/
def rawExpensesByFilters (rows : List RawRow) : List DayExpense :=
  (rows.map RawRow.group).dedup.filterMap (putTogether rows)

namespace DayExpense

/-- `days` -/
def days (e : DayExpense) : ℕ := ((e.usageEndDate - aSecond - e.startDate) / aDay + 1).toNat

/-- The days of an expense, by the second they begin at. -/
def dates (e : DayExpense) : List ℤ :=
  (List.range e.days).map fun d : ℕ => e.startDate / aSecond + d * 86400

/-- What the expense gives to its days. -/
def shares (e : DayExpense) : List RawExpense :=
  e.dates.map fun date => ⟨date, e.blendedCost / e.days, e.cloudAccountId⟩

end DayExpense

/-- A share of the day is added. -/
def addShare (share : RawExpense) (x : CleanExpense) : CleanExpense := { x with cost := x.cost + share.cost }

theorem addShare_date (share : RawExpense) (x : CleanExpense) : (addShare share x).date = x.date := rfl

/-- `clean_expenses_for_resource`, of the raw expenses put together. -/
def cleanExpensesOf (resourceId : Uuid) (rows : List RawRow) : Table CleanExpense.date :=
  (rawExpensesByFilters rows).foldl (fun cleanExpenses e =>
    e.shares.foldl (fun cleanExpenses share =>
      cleanExpenses.upsert ⟨share.usageDate, share.cost, resourceId, share.cloudAccountId⟩
        (addShare share) (addShare_date share)) cleanExpenses) .empty

/-- The clean expenses are those of the shares. -/
theorem cleanExpensesOf_eq (resourceId : Uuid) (rows : List RawRow) :
    cleanExpensesOf resourceId rows =
      cleanExpensesByDay resourceId ((rawExpensesByFilters rows).flatMap DayExpense.shares) := by
  rw [cleanExpensesByDay, List.foldl_flatMap]
  rfl

/-- What a row gives to a day: its part of what its group does. -/
def shareOf (rows : List RawRow) (r : RawRow) (date : ℤ) : ℚ :=
  match putTogether rows r.group with
  | none => 0
  | some e => if date ∈ e.dates then r.cost / e.days else 0

/-! ## What the days should be -/

/-- **Nothing is lost**: the days have what the rows have. -/
def Conserved (resourceId : Uuid) (rows : List RawRow) : Prop :=
  ((cleanExpensesOf resourceId rows).rows.map CleanExpense.cost).sum = (rows.map RawRow.cost).sum

/-- Every day is a day of some row. -/
def Inside (resourceId : Uuid) (rows : List RawRow) : Prop :=
  ∀ c ∈ (cleanExpensesOf resourceId rows).rows,
    ∃ r ∈ rows, r.startDate ≤ c.date * aSecond ∧ c.date * aSecond < r.endDate

/-- A row that ends at midnight gives nothing to the day that begins. -/
def StopsAtMidnight (rows : List RawRow) : Prop :=
  ∀ r ∈ rows, r.endDate % aDay = 0 → shareOf rows r (r.endDate / aSecond) = 0

/-- A row whose group ends within a second of its begin. -/
def Brief (rows : List RawRow) (r : RawRow) : Prop :=
  ∀ s ∈ rows, s.group = r.group → s.endDate < s.startDate + aSecond

instance (rows : List RawRow) : DecidablePred (Brief rows) := fun r =>
  inferInstanceAs (Decidable (∀ s ∈ rows, s.group = r.group → s.endDate < s.startDate + aSecond))

/-- A row that ends at midnight costs nothing, or is put together with such rows only as end within
a second of that midnight. -/
def Unmixed (rows : List RawRow) : Prop :=
  ∀ r ∈ rows, r.endDate % aDay = 0 → r.cost ≠ 0 →
    ∀ s ∈ rows, s.group = r.group → s.endDate < r.endDate + aSecond

/-! ## Days -/

section Days

variable {e : DayExpense} {a b : ℤ}

/-- An expense has no day if it ends within a second of its begin. -/
theorem days_eq_zero : e.days = 0 ↔ e.usageEndDate < e.startDate + aSecond := by
  simp only [DayExpense.days, aDay, aSecond]
  omega

/-- **The days of an expense** are those from its begin to the end less a second. -/
theorem mem_dates (hstart : e.startDate = a * aDay) :
    b * 86400 ∈ e.dates ↔ a ≤ b ∧ b * aDay + aSecond ≤ e.usageEndDate := by
  simp only [DayExpense.dates, DayExpense.days, List.mem_map, List.mem_range, aDay,
    aSecond] at hstart ⊢
  constructor
  · rintro ⟨d, hd, hdate⟩
    omega
  · rintro ⟨hab, hend⟩
    exact ⟨(b - a).toNat, by omega, by omega⟩

/-- The days are the begins of days. -/
theorem exists_of_mem_dates (hstart : e.startDate = a * aDay) {date : ℤ} (h : date ∈ e.dates) :
    ∃ b, date = b * 86400 := by
  obtain ⟨d, -, rfl⟩ := List.mem_map.mp h
  refine ⟨a + d, ?_⟩
  simp only [aDay, aSecond] at hstart ⊢
  omega

/-- The shares are the expense, unless it has no day. -/
theorem sum_shares : (e.shares.map RawExpense.cost).sum =
    (if e.days = 0 then 0 else 1) * e.blendedCost := by
  have hconst : e.shares.map RawExpense.cost = List.replicate e.days (e.blendedCost / e.days) := by
    simp [DayExpense.shares, DayExpense.dates, Function.comp_def]
  rw [hconst, List.sum_replicate, nsmul_eq_mul]
  split_ifs with hdays
  · rw [hdays, Nat.cast_zero, zero_mul, zero_mul]
  · rw [one_mul, mul_div_cancel₀ _ (Nat.cast_ne_zero.mpr hdays)]

end Days

/-! ## Groups -/

section Groups

variable {rows : List RawRow} {g : RowGroup} {e : DayExpense} {r s : RawRow}

/-- The day a row begins. -/
theorem RawRow.startDate_eq (r : RawRow) : r.startDate = r.group.startDay * aDay := by
  have hbegins := r.begins
  simp only [RawRow.group, aDay, aSecond] at hbegins ⊢
  omega

theorem startDate_eq_of_group (h : s.group = r.group) : s.startDate = r.startDate := by
  rw [s.startDate_eq, r.startDate_eq, h]

/-- **The expense of a group** begins with its rows, ends with the last of them and has their
costs. -/
theorem putTogether_spec (h : putTogether rows g = some e) :
    e.startDate = g.startDay * aDay ∧
      (∃ r ∈ rows, r.group = g ∧ r.endDate = e.usageEndDate) ∧
      (∀ r ∈ rows, r.group = g → r.endDate ≤ e.usageEndDate) ∧
      e.blendedCost = ((rows.filter fun r => r.group = g).map RawRow.cost).sum := by
  have hmem : ∀ r, r ∈ rows.filter (fun r => r.group = g) ↔ r ∈ rows ∧ r.group = g := by
    simp only [List.mem_filter, decide_eq_true_eq, implies_true]
  unfold putTogether at h
  split at h
  · exact nomatch h
  · rename_i first rest hrows
    obtain rfl := Option.some.inj h
    rw [hrows] at hmem
    have hmax : ((first :: rest).map RawRow.endDate).max? =
        some ((rest.map RawRow.endDate).foldl max first.endDate) := List.max?_cons'
    obtain ⟨hlast, hle⟩ := List.max?_eq_some_iff.mp hmax
    obtain ⟨last, hin, hend⟩ := List.mem_map.mp hlast
    refine ⟨?_, ⟨last, ((hmem last).mp hin).1, ((hmem last).mp hin).2, hend⟩, fun r hr hg => ?_,
      by rw [hrows]⟩
    · rw [← ((hmem first).mp List.mem_cons_self).2]
      exact first.startDate_eq
    · exact hle _ (List.mem_map_of_mem ((hmem r).mpr ⟨hr, hg⟩))

theorem putTogether_eq_none : putTogether rows g = none ↔ ∀ r ∈ rows, r.group ≠ g := by
  unfold putTogether
  split
  · rename_i hrows
    simpa using hrows
  · rename_i first rest hrows
    have hfirst : first ∈ rows.filter fun r => r.group = g := by
      rw [hrows]
      exact List.mem_cons_self
    obtain ⟨hin, hgroup⟩ := List.mem_filter.mp hfirst
    exact ⟨nofun, fun hnone => absurd (of_decide_eq_true hgroup) (hnone first hin)⟩

/-- A row has a group. -/
theorem exists_putTogether (hr : r ∈ rows) : ∃ e, putTogether rows r.group = some e := by
  cases h : putTogether rows r.group with
  | none => exact absurd rfl (putTogether_eq_none.mp h r hr)
  | some e => exact ⟨e, rfl⟩

/-- A group has no day if all its rows are brief. -/
theorem days_eq_zero_iff_brief (h : putTogether rows r.group = some e) :
    e.days = 0 ↔ Brief rows r := by
  obtain ⟨hstart, ⟨last, hlast, hgroup, hend⟩, hle, -⟩ := putTogether_spec h
  have hbegin : ∀ s : RawRow, s.group = r.group → s.startDate = e.startDate := fun s hs => by
    rw [s.startDate_eq, hs, hstart]
  rw [days_eq_zero]
  constructor
  · intro hshort s hs hg
    rw [hbegin s hg]
    exact (hle s hs hg).trans_lt hshort
  · intro hbrief
    have hlate := hbrief last hlast hgroup
    rwa [hend, hbegin last hgroup] at hlate

/-- **Amounts in the groups are amounts in the rows.** -/
theorem sum_rawExpensesByFilters (q : DayExpense → ℚ) (rows : List RawRow) :
    ((rawExpensesByFilters rows).map fun e => q e * e.blendedCost).sum =
      (rows.map fun r => ((putTogether rows r.group).map q).getD 0 * r.cost).sum := by
  rw [rawExpensesByFilters, Grouped.sum_filterMap,
    ← Grouped.sum_groups RawRow.group (fun r => ((putTogether rows r.group).map q).getD 0 * r.cost)]
  refine congrArg List.sum (List.map_congr_left fun g _ => ?_)
  have hrow : ∀ r ∈ rows.filter (fun r => r.group = g),
      ((putTogether rows r.group).map q).getD 0 * r.cost =
        ((putTogether rows g).map q).getD 0 * r.cost := fun r hr => by
    rw [of_decide_eq_true (List.mem_filter.mp hr).2]
  rw [List.map_congr_left hrow, List.sum_map_mul_left]
  cases h : putTogether rows g with
  | none => simp
  | some e => simp [(putTogether_spec h).2.2.2]

end Groups

/-! ## The clean expenses -/

section Clean

variable {resourceId : Uuid} {rows : List RawRow}

/-- The clean expenses have the cost of the groups that have a day. -/
theorem sum_cleanExpensesByDay (expenses : List RawExpense) :
    ((cleanExpensesByDay resourceId expenses).rows.map CleanExpense.cost).sum =
      (expenses.map RawExpense.cost).sum := by
  induction expenses using List.reverseRecOn with
  | nil => rfl
  | append_singleton expenses last ih =>
    rw [cleanExpensesByDay_concat, Table.sum_upsert CleanExpense.cost fun _ _ => rfl, ih,
      List.map_append, List.sum_append, List.map_singleton, List.sum_singleton]

/-- **What the days have** is what the rows have that are not brief. -/
theorem sum_cleanExpensesOf :
    ((cleanExpensesOf resourceId rows).rows.map CleanExpense.cost).sum =
      ((rows.filter fun r => ¬ Brief rows r).map RawRow.cost).sum := by
  have hrow : ∀ r ∈ rows,
      ((putTogether rows r.group).map fun e => if e.days = 0 then 0 else 1).getD 0 * r.cost =
        if Brief rows r then 0 else r.cost := by
    intro r hr
    obtain ⟨e, he⟩ := exists_putTogether hr
    rw [he]
    simp only [Option.map_some, Option.getD_some, days_eq_zero_iff_brief he, ite_mul, zero_mul,
      one_mul]
  calc ((cleanExpensesOf resourceId rows).rows.map CleanExpense.cost).sum
    _ = ((rawExpensesByFilters rows).map fun e => (e.shares.map RawExpense.cost).sum).sum := by
        rw [cleanExpensesOf_eq, sum_cleanExpensesByDay, List.flatMap_def, List.map_flatten,
          List.sum_flatten, List.map_map, List.map_map]
        rfl
    _ = (rows.map fun r => if Brief rows r then 0 else r.cost).sum := by
        simp only [sum_shares]
        rw [sum_rawExpensesByFilters fun e => if e.days = 0 then 0 else 1, List.map_congr_left hrow]
    _ = ((rows.filter fun r => ¬ Brief rows r).map RawRow.cost).sum := by
        rw [List.sum_map_ite]
        simp

/-- The cost is conserved if what is brief costs nothing. -/
theorem conserved_iff :
    Conserved resourceId rows ↔ ((rows.filter (Brief rows ·)).map RawRow.cost).sum = 0 := by
  rw [Conserved, sum_cleanExpensesOf, eq_comm,
    ← List.sum_map_filter_add_sum_map_filter_not (Brief rows) RawRow.cost rows]
  exact add_eq_right

/-- An expense of a group, in whose rows it lies. -/
theorem exists_of_mem_rawExpensesByFilters {e : DayExpense} (he : e ∈ rawExpensesByFilters rows) :
    ∃ g, putTogether rows g = some e := by
  obtain ⟨g, -, hg⟩ := List.mem_filterMap.mp he
  exact ⟨g, hg⟩

/-- A share of a group is on the day it begins. -/
theorem usageDate_of_mem_shares {g : RowGroup} {e : DayExpense} (he : putTogether rows g = some e)
    {share : RawExpense} (h : share ∈ e.shares) :
    share.usageDate ∈ e.dates ∧ share.usageDate = share.startDate := by
  obtain ⟨date, hdate, rfl⟩ := List.mem_map.mp h
  obtain ⟨b, rfl⟩ := exists_of_mem_dates (putTogether_spec he).1 hdate
  have hday : b * 86400 / 86400 * 86400 = b * 86400 := by omega
  refine ⟨?_, hday⟩
  rwa [RawExpense.usageDate, hday]

/-- **Every day is a day of some row**: the last row of its group. -/
theorem inside (resourceId : Uuid) (rows : List RawRow) : Inside resourceId rows := by
  intro c hc
  rw [cleanExpensesOf_eq] at hc
  obtain ⟨share, hshare, hdate⟩ := exists_rawExpense hc
  obtain ⟨e, he, hshare⟩ := List.mem_flatMap.mp hshare
  obtain ⟨g, hg⟩ := exists_of_mem_rawExpensesByFilters he
  obtain ⟨hstart, ⟨last, hlast, rfl, hend⟩, -, -⟩ := putTogether_spec hg
  obtain ⟨hin, -⟩ := usageDate_of_mem_shares hg hshare
  obtain ⟨b, hb⟩ := exists_of_mem_dates hstart hin
  rw [hb, mem_dates hstart] at hin
  refine ⟨last, hlast, ?_⟩
  rw [← hdate, hb, hend, last.startDate_eq]
  simp only [aDay, aSecond] at hin ⊢
  omega

/-- A row gives nothing to a day it has, only if it costs nothing. -/
theorem shareOf_eq_zero {r : RawRow} {e : DayExpense} (he : putTogether rows r.group = some e)
    {date : ℤ} : shareOf rows r date = 0 ↔ r.cost = 0 ∨ date ∉ e.dates := by
  rw [shareOf, he]
  dsimp only
  split_ifs with hdate
  · have hdays : (e.days : ℚ) ≠ 0 := by
      rintro hzero
      rw [DayExpense.dates, Nat.cast_eq_zero.mp hzero] at hdate
      exact absurd hdate List.not_mem_nil
    simp [div_eq_zero_iff, hdays, hdate]
  · simp [hdate]

/-- Rows stop at midnight if they are put together with nothing that goes on. -/
theorem stopsAtMidnight_iff : StopsAtMidnight rows ↔ Unmixed rows := by
  refine forall₃_congr fun r hr hmidnight => ?_
  obtain ⟨e, he⟩ := exists_putTogether hr
  obtain ⟨hstart, ⟨last, hlast, hgroup, hend⟩, hle, -⟩ := putTogether_spec he
  have hday : r.endDate = r.endDate / aDay * aDay := by
    simp only [aDay, aSecond] at hmidnight ⊢
    omega
  have hsecond : r.endDate / aSecond = r.endDate / aDay * 86400 := by
    simp only [aDay, aSecond] at hmidnight ⊢
    omega
  have hfrom : r.group.startDay ≤ r.endDate / aDay :=
    Int.ediv_le_ediv (by decide) r.ordered
  rw [shareOf_eq_zero he, hsecond, mem_dates hstart, ← hday, ← or_iff_not_imp_left,
    not_and, not_le]
  refine or_congr_right ⟨fun hstop s hs hg => (hle s hs hg).trans_lt (hstop hfrom), ?_⟩
  intro hall _
  rw [← hend]
  exact hall last hlast hgroup

/-- What an expense gives to a day. -/
theorem sum_shares_on {g : RowGroup} {e : DayExpense} (he : putTogether rows g = some e) (date : ℤ) :
    ((e.shares.filter fun share => share.usageDate = date).map RawExpense.cost).sum =
      (if date ∈ e.dates then 1 / (e.days : ℚ) else 0) * e.blendedCost := by
  have hnodup : e.dates.Nodup := by
    refine List.nodup_range.map fun i j hij => ?_
    omega
  have hon : (e.shares.filter fun share => share.usageDate = date).map RawExpense.cost =
      (e.dates.filter (date = ·)).map fun _ => e.blendedCost / e.days := by
    rw [DayExpense.shares, List.filter_map, List.map_map]
    refine congrArg (List.map _) (List.filter_congr fun x hx => decide_eq_decide.mpr ?_)
    exact (usageDate_of_mem_shares he (List.mem_map_of_mem hx)).2 ▸ eq_comm
  have hsplit := List.sum_map_ite (date = ·) (fun _ => e.blendedCost / e.days) (fun _ => 0) e.dates
  have hzero : ((e.dates.filter fun x => ¬ date = x).map fun _ => (0 : ℚ)).sum = 0 := by simp
  rw [hzero, add_zero] at hsplit
  rw [hon, ← hsplit]
  split_ifs with hdate
  · rw [Grouped.sum_map_single hnodup hdate, one_div_mul_eq_div]
  · rw [zero_mul]
    refine List.sum_eq_zero fun x hx => ?_
    obtain ⟨d, hd, rfl⟩ := List.mem_map.mp hx
    exact if_neg (ne_of_mem_of_not_mem hd hdate).symm

/-- **The clean expense of a day is what the rows give it.** -/
theorem cost_eq_sum_shareOf {c : CleanExpense} (hc : c ∈ (cleanExpensesOf resourceId rows).rows) :
    c.cost = (rows.map fun r => shareOf rows r c.date).sum := by
  rw [cleanExpensesOf_eq] at hc
  obtain ⟨-, -, hcost⟩ := cleanExpense_spec hc
  have hexpense : ∀ e ∈ rawExpensesByFilters rows,
      ((e.shares.filter fun share => share.usageDate = c.date).map RawExpense.cost).sum =
        (if c.date ∈ e.dates then 1 / (e.days : ℚ) else 0) * e.blendedCost := fun e he => by
    obtain ⟨g, hg⟩ := exists_of_mem_rawExpensesByFilters he
    exact sum_shares_on hg c.date
  have hrow : ∀ r ∈ rows, ((putTogether rows r.group).map fun e =>
      if c.date ∈ e.dates then 1 / (e.days : ℚ) else 0).getD 0 * r.cost =
        shareOf rows r c.date := by
    intro r hr
    obtain ⟨e, he⟩ := exists_putTogether hr
    rw [shareOf, he]
    simp only [Option.map_some, Option.getD_some, ite_mul, zero_mul, one_div_mul_eq_div]
  rw [hcost, List.flatMap_def, List.filter_flatten, List.map_flatten, List.sum_flatten]
  simp only [List.map_map, Function.comp_def]
  rw [List.map_congr_left hexpense, sum_rawExpensesByFilters fun e =>
    if c.date ∈ e.dates then 1 / (e.days : ℚ) else 0, List.map_congr_left hrow]

end Clean

/-- **The days are faithful to the rows** exactly if the rows of groups within a second cost nothing
altogether, and a row that ends at midnight costs nothing or is put together with no row that ends a
second later. -/
theorem cleanExpensesOf_faithful_iff (resourceId : Uuid) (rows : List RawRow) :
    (Conserved resourceId rows ∧ Inside resourceId rows ∧ StopsAtMidnight rows) ↔
      ((rows.filter (Brief rows ·)).map RawRow.cost).sum = 0 ∧ Unmixed rows := by
  rw [conserved_iff, stopsAtMidnight_iff]
  exact and_congr_right fun _ => and_iff_right (inside resourceId rows)

/-! ## Rows that go wrong -/

/-- A row of no length. -/
def momentary : RawRow := ⟨[], 0, 0, 0, 1, rfl, le_refl 0⟩

/-- A row that ends at midnight. -/
def midnight : RawRow := ⟨[], 0, 0, aDay, 1, rfl, by decide⟩

/-- A row of the same item that ends at five the next morning. -/
def morning : RawRow := ⟨[], 0, 0, aDay + 5 * 3600 * aSecond, 1, rfl, by decide⟩

/-- **The cost of a momentary row is lost, and a row that ends at midnight goes on.** -/
theorem momentary_midnight_not_faithful :
    ¬ Conserved 0 [momentary] ∧ ¬ StopsAtMidnight [midnight, morning] := by
  rw [conserved_iff, stopsAtMidnight_iff]
  refine ⟨by decide +kernel, fun hunmixed => ?_⟩
  have hlate := hunmixed midnight List.mem_cons_self rfl one_ne_zero morning
    (List.mem_cons_of_mem _ List.mem_cons_self) rfl
  exact absurd hlate (by decide)

end AwsReportImporter
