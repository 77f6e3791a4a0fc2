import OptScale.Foundations.Fallible
import OptScale.Foundations.Table
import OptScale.Rest.Failure
import OptScale.Foundations.Latest

/-!
# Violations/Constraint — `OrganizationViolationsWorker`

One run of the worker evaluates every constraint of an organization.  Where the evaluation exceeds
the constraint's bound, `_update_limit_hit` overwrites the latest hit of a window `(min, max]`, or
creates one at `max` when the window has none; the six kinds of constraints pass it six windows.
Instants are seconds, and the day is the clock's.
-/

open Fallible

namespace OrganizationViolationsWorker

/-! ## Days and months -/

/-- `SECONDS_IN_DAY` -/
def secondsInDay : ℤ := 86400

/-- `today_start_ts` -/
def todayStart (date : ℤ) : ℤ := date / 86400 * 86400

/-- `today_end_ts` -/
def todayEnd (date : ℤ) : ℤ := todayStart date - 1 + 86400

/-- `yesterday_end_ts` -/
def yesterdayEnd (date : ℤ) : ℤ := todayStart date - 1

/-- `date.day`: the day of the month, in the Gregorian calendar. -/
def dayOfMonth (date : ℤ) : ℤ :=
  -- days since 1 March of year 0, in the 400-year era they are in
  let doe := (date / 86400 + 719468) % 146097
  let yoe := (doe - doe / 1460 + doe / 36524 - doe / 146096) / 365
  let doy := doe - (365 * yoe + yoe / 4 - yoe / 100)
  let mp := (5 * doy + 2) / 153
  doy - (153 * mp + 2) / 5 + 1

/-- `month_start_ts` -/
def monthStart (date : ℤ) : ℤ := (date / 86400 - (dayOfMonth date - 1)) * 86400

-- 15 March 2024 and 1 March 2024
example : monthStart 1710500000 = 1709251200 := by decide

/-! ## Constraints and their hits -/

/-- A constraint's type with its `definition`. -/
inductive Definition
  | expenseAnomaly (threshold : ℚ) (thresholdDays : ℤ)
  | expiringBudget (totalBudget : ℚ) (startDate : ℤ)
  | recurringBudget (monthlyBudget : ℚ)
  | resourceCountAnomaly (threshold : ℚ) (thresholdDays : ℤ)
  | resourceQuota (maxValue : ℚ)
  | taggingPolicy (startDate : ℤ)
  deriving DecidableEq

/-- `last_run_result` and `run_result`. -/
inductive RunResult
  | limited (limit current : ℚ)
  | tagging (value : ℕ)
  | anomaly (average today : ℚ) (breakdown : List (ℤ × ℚ))
  deriving DecidableEq

/-- What a run writes into a hit. -/
structure HitParams where
  constraintLimit : ℚ
  value : ℚ
  runResult : RunResult
  deriving DecidableEq

/-- A row of `organization_limit_hit`, of a constraint. -/
structure LimitHit where
  createdAt : ℤ
  params : HitParams
  deriving DecidableEq

/-- A row of `organization_constraint` with its live hits; no two have one `created_at`. -/
structure Constraint where
  id : Uuid
  definition : Definition
  lastRun : ℤ := 0
  lastRunResult : Option RunResult := none
  limitHits : Table LimitHit.createdAt

/-- A notification task. -/
structure NotifTask where
  organizationId : Uuid
  objectId : Uuid
  deriving DecidableEq

/-- A task, and what the worker finds when it processes it. -/
structure Turn where
  organizationId : Uuid
  date : ℤ
  force : Bool := false
  notifications : Bool := false
  /-- The clock. -/
  start : ℤ
  disabled : Bool := false
  /-- `get_max_last_import_at` -/
  maxLastImportAt : ℤ := 0
  /-- `resources_count_get`, for a constraint's filters and a period. -/
  resourcesCount : Uuid → ℤ → ℤ → ℚ := fun _ _ _ => 0
  /-- `breakdown_expenses_get`, its `total`. -/
  expensesTotal : Uuid → ℤ → ℤ → ℚ := fun _ _ _ => 0
  /-- `clean_expenses_get`, the resources that pass `_filter_resources_by_tags`. -/
  filteredResources : Uuid → ℤ → ℤ → ℕ := fun _ _ _ => 0
  /-- `_get_expense_info` and `_get_resource_count_info`: today, average and breakdown at a date. -/
  info : Uuid → ℤ → ℤ → ℚ × ℚ × List (ℤ × ℚ) := fun _ _ _ => (0, 0, [])

/-! ## Hits -/

/-- What `_update_limit_hit` asks the rest service for. -/
inductive HitWrite
  | update (createdAt : ℤ) (params : HitParams)
  | create (createdAt : ℤ) (params : HitParams)

/-- `_update_limit_hit`: the hit it writes, and the notification. -/
def updateLimitHit (organizationId constraintId : Uuid) (limitHits : List LimitHit)
    (notifications : Bool) (minCreatedAt maxCreatedAt : ℤ) (params : HitParams) :
    HitWrite × Option NotifTask :=
  match latest? LimitHit.createdAt (limitHits.filter fun x =>
      minCreatedAt < x.createdAt ∧ x.createdAt ≤ maxCreatedAt) with
  | some hit => (.update hit.createdAt params, none)
  | none =>
    (.create maxCreatedAt params,
      if notifications then some ⟨organizationId, constraintId⟩ else none)

/-- `organization_limit_hit_update` and `organization_limit_hit_create`. -/
def HitWrite.apply (limitHits : Table LimitHit.createdAt) :
    HitWrite → Except Failure (Table LimitHit.createdAt)
  | update createdAt params =>
    pure (limitHits.updateWhere (fun x => x.createdAt = createdAt) (fun x => { x with params })
      fun _ => rfl)
  | create createdAt params =>
    orFail (limitHits.insert? ⟨createdAt, params⟩) (.conflict .OE0516 [])

/-! ## The six kinds -/

/-- The result of a constraint's function: what it says of the run, and the write it made. -/
structure Processed where
  runResult : Option RunResult := none
  write : Option (HitWrite × Option NotifTask) := none

/-- The hits once the write is made. -/
def Processed.apply (processed : Processed) (limitHits : Table LimitHit.createdAt) :
    Except Failure (Table LimitHit.createdAt) :=
  match processed.write with
  | some (write, _) => write.apply limitHits
  | none => pure limitHits

section Kinds

variable (t : Turn) (c : Constraint) (limitHits : List LimitHit)

/-- `process_resource_quota` -/
def processResourceQuota (maxValue : ℚ) : Processed :=
  let todaysValue := t.resourcesCount c.id (todayStart t.date) (todayEnd t.date)
  let runResult := RunResult.limited maxValue todaysValue
  { runResult := some runResult
    write :=
      if todaysValue > maxValue then
        some (updateLimitHit t.organizationId c.id limitHits t.notifications (todayStart t.date)
          t.start ⟨maxValue, todaysValue, runResult⟩)
      else none }

/-- `process_recurring_budget` -/
def processRecurringBudget (monthlyBudget : ℚ) : Processed :=
  if c.lastRun > t.maxLastImportAt then {}
  else
    let total := t.expensesTotal c.id (monthStart t.date) (todayEnd t.date)
    let runResult := RunResult.limited monthlyBudget total
    { runResult := some runResult
      write :=
        if total > monthlyBudget then
          some (updateLimitHit t.organizationId c.id limitHits t.notifications (monthStart t.date)
            t.date ⟨monthlyBudget, total, runResult⟩)
        else none }

/-- `_slice_time_period_by_years` -/
def sliceTimePeriodByYears (startDate endDate : ℤ) : List (ℤ × ℤ) :=
  if startDate ≤ endDate then
    let years := ((endDate - startDate) / (365 * 86400)).toNat
    (List.range (years + 1)).map fun k =>
      let current := startDate + k * (365 * 86400)
      (current, if k = years then endDate else current + 365 * 86400 - 86400)
  else []

/-- `process_expiring_budget` -/
def processExpiringBudget (totalBudget : ℚ) (startDate : ℤ) : Processed :=
  if c.lastRun > t.maxLastImportAt then {}
  else
    let totalExpenses := ((sliceTimePeriodByYears startDate (todayEnd t.date)).map fun period =>
      t.expensesTotal c.id period.1 period.2).sum
    let runResult := RunResult.limited totalBudget totalExpenses
    { runResult := some runResult
      write :=
        if totalExpenses > totalBudget then
          let limitHits := if limitHits = [] then c.limitHits.rows else limitHits
          some (updateLimitHit t.organizationId c.id limitHits t.notifications 0 t.start
            ⟨totalBudget, totalExpenses, runResult⟩)
        else none }

/-- `process_tagging_policy` -/
def processTaggingPolicy (startDate : ℤ) : Processed :=
  if startDate > t.start then {}
  else
    let filteredResources :=
      t.filteredResources c.id (todayStart t.start) (todayEnd t.start)
    let runResult := RunResult.tagging filteredResources
    { runResult := some runResult
      write :=
        if filteredResources ≠ 0 then
          some (updateLimitHit t.organizationId c.id limitHits t.notifications (todayStart t.start)
            t.start ⟨0, filteredResources, runResult⟩)
        else none }

/-- `_process_anomaly`: nothing where the day is no anomaly. -/
def anomalyAt (threshold : ℚ) (thresholdDays : ℤ) (date : ℤ) : Option HitParams :=
  let (todays, average, breakdown) := t.info c.id date thresholdDays
  if todays > average + average * threshold / 100 then
    some ⟨average, todays, .anomaly average todays (if average = 0 then [] else breakdown)⟩
  else none

/-- What `process_anomaly` does with an anomaly at a date. -/
def hitAt (date : ℤ) (params : HitParams) : Processed where
  runResult := some params.runResult
  write := some (updateLimitHit t.organizationId c.id limitHits t.notifications (date - 86400) date
    params)

/-- `process_anomaly` for resource counts. -/
def processResourceCountAnomaly (threshold : ℚ) (thresholdDays : ℤ) : Processed :=
  match anomalyAt t c threshold thresholdDays t.date with
  | some params => hitAt t c limitHits t.date params
  | none => {}

/-- `process_anomaly` for expenses: where the day is no anomaly, the day before is looked at again,
as its expenses may have come late. -/
def processExpenseAnomaly (threshold : ℚ) (thresholdDays : ℤ) : Processed :=
  if c.lastRun > t.maxLastImportAt then {}
  else
    match anomalyAt t c threshold thresholdDays t.date with
    | some params => hitAt t c limitHits t.date params
    | none =>
      match anomalyAt t c threshold thresholdDays (t.date - 86400) with
      | some params => hitAt t c limitHits (t.date - 86400) params
      | none => {}

end Kinds

/-- The function of a constraint's type: `process_func_map`. -/
def processFunc (t : Turn) (c : Constraint) (limitHits : List LimitHit) : Processed :=
  match c.definition with
  | .expenseAnomaly threshold days => processExpenseAnomaly t c limitHits threshold days
  | .expiringBudget total startDate => processExpiringBudget t c limitHits total startDate
  | .recurringBudget monthly => processRecurringBudget t c limitHits monthly
  | .resourceCountAnomaly threshold days =>
    processResourceCountAnomaly t c limitHits threshold days
  | .resourceQuota maxValue => processResourceQuota t c limitHits maxValue
  | .taggingPolicy startDate => processTaggingPolicy t c limitHits startDate

/-- The seconds that must pass between two runs: `process_func_map`. -/
def Definition.thresholdSeconds : Definition → ℤ
  | expenseAnomaly .. => 6 * 3600
  | expiringBudget .. => 6 * 3600
  | recurringBudget .. => 6 * 3600
  | resourceCountAnomaly .. => 4 * 3600
  | resourceQuota .. => 2 * 3600
  | taggingPolicy .. => 1800

/-! ## A run -/

/-- The larger of `hit_days`: back to the month's start, and to the day before the date. -/
def hitDays (start date : ℤ) : ℤ :=
  max (start / 86400 - monthStart date / 86400 + 1) (start / 86400 - (date - 86400) / 86400 + 1)

/-- The hits `organization_constraint_list` returns with a constraint. -/
def listedHits (c : Constraint) (start days : ℤ) : List LimitHit :=
  c.limitHits.rows.filter fun x => x.createdAt > (start / 86400 + 1 - days) * 86400 - 1

/-- `process_organization_constraint` -/
def processOrganizationConstraint (t : Turn) (c : Constraint) :
    Except Failure (Constraint × Option NotifTask) :=
  if ¬ t.force ∧ c.definition.thresholdSeconds + c.lastRun > t.date then pure (c, none)
  else do
    let processed := processFunc t c (listedHits c t.start (hitDays t.start t.date))
    let limitHits ← processed.apply c.limitHits
    pure ({ c with
            limitHits := limitHits
            lastRun := t.start
            lastRunResult := processed.runResult <|> c.lastRunResult },
      processed.write.bind Prod.snd)

/-- A constraint after the run: as it was, where its processing failed. -/
def afterRun (t : Turn) (c : Constraint) : Constraint :=
  match processOrganizationConstraint t c with
  | .ok (c', _) => c'
  | .error _ => c

/-- The notification a run has for a constraint. -/
def notifTask (t : Turn) (c : Constraint) : Option NotifTask :=
  match processOrganizationConstraint t c with
  | .ok (_, task) => task
  | .error _ => none

/-- A run writes no more of a constraint than its hits and the results of the run. -/
theorem afterRun_keeps (t : Turn) (c : Constraint) :
    (afterRun t c).id = c.id ∧ (afterRun t c).definition = c.definition := by
  unfold afterRun processOrganizationConstraint
  split_ifs
  · exact ⟨rfl, rfl⟩
  · dsimp only
    split
    · rename_i h
      obtain ⟨limitHits, -, h⟩ := bind_eq_ok.mp h
      obtain ⟨rfl, -⟩ := Prod.mk.inj (pure_eq_ok.mp h)
      exact ⟨rfl, rfl⟩
    · exact ⟨rfl, rfl⟩

@[simp] theorem afterRun_id (t : Turn) (c : Constraint) : (afterRun t c).id = c.id :=
  (afterRun_keeps t c).1

@[simp] theorem afterRun_definition (t : Turn) (c : Constraint) :
    (afterRun t c).definition = c.definition :=
  (afterRun_keeps t c).2

/-- `process_organization_constraints`: the constraints it leaves, and the notifications. -/
def processOrganizationConstraints (constraints : Table Constraint.id) (t : Turn) :
    Except Failure (Table Constraint.id × List NotifTask) := do
  require (t.date ≠ 0) (.python "Exception")
  if t.disabled then pure (constraints, [])
  else
    pure (constraints.updateWhere (fun _ => true) (afterRun t) (afterRun_id t),
      constraints.rows.filterMap (notifTask t))

end OrganizationViolationsWorker
