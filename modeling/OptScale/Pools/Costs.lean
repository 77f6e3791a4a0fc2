import OptScale.Foundations.Descent
import OptScale.Foundations.Session
import OptScale.Pools.Tree

/-!
# Pools/Costs — what the pools of a tree cost

The expenses of the pools of a subtree are gathered by pool, and then summed up from the leaves: each pool gets
what is spent in it directly and what its children come to.  The report lists the pools of the subtree from the
root down, children by name.
-/

open Fallible

namespace PoolTree

/-! ## Expenses by pool -/

/-- An expense of a pool on a day. -/
structure PoolExpense where
  date : ℤ
  poolId : Uuid
  cost : ℚ

/-- What is gathered for a pool, and the date of its first expense. -/
structure MonthExpense where
  poolId : Uuid
  cost : ℚ := 0
  monthCost : ℚ := 0
  forecastCost : ℚ := 0
  firstExpense : ℤ
  forecast : Option ℚ := none

/-- What the costs are made from: the calendar and the expenses. -/
structure Books where
  today : ℤ
  monthStart : ℤ
  lastMonthStart : ℤ
  /-- `get_expenses_for_pools` -/
  expensesForPools : ℤ → ℤ → List Uuid → List PoolExpense
  /-- `get_monthly_forecast` -/
  monthlyForecast : ℚ → ℚ → ℤ → ℚ

variable (B : Books)

/-- An expense is added where its date is. -/
def gain (periodDay endDate : ℤ) (e : PoolExpense) (m : MonthExpense) : MonthExpense :=
  { m with
    cost := m.cost + if periodDay ≤ e.date ∧ e.date ≤ endDate then e.cost else 0
    forecastCost := m.forecastCost + if B.lastMonthStart ≤ e.date then e.cost else 0
    monthCost := m.monthCost + if B.monthStart ≤ e.date then e.cost else 0
    firstExpense := if e.date < m.firstExpense then e.date else m.firstExpense }

/-- A turn of the loop of `get_pool_expenses`. -/
def addExpense (periodDay endDate : ℤ) (result : Table MonthExpense.poolId) (e : PoolExpense) :
    Table MonthExpense.poolId :=
  result.upsert (gain B periodDay endDate e { poolId := e.poolId, firstExpense := e.date })
    (gain B periodDay endDate e) fun _ => rfl

/-- The expenses `get_pool_expenses` goes through. -/
def fetchedExpenses (poolIds : List Uuid) (periodDay endDate : ℤ) (forecast : Bool) : List PoolExpense :=
  if forecast then B.expensesForPools (min B.lastMonthStart periodDay) B.today poolIds
  else B.expensesForPools periodDay endDate poolIds

/-- `get_pool_expenses` -/
def getPoolExpenses (poolIds : List Uuid) (periodDay endDate : Option ℤ) (forecast : Bool) :
    Table MonthExpense.poolId :=
  let endDate := endDate.getD B.today
  let periodDay := periodDay.getD B.monthStart
  let result := (fetchedExpenses B poolIds periodDay endDate forecast).foldl (addExpense B periodDay endDate) .empty
  if forecast then
    result.updateWhere (fun _ => true)
      (fun m => { m with forecast := some (B.monthlyForecast m.forecastCost m.monthCost m.firstExpense) }) fun _ => rfl
  else result

/-! ## Costs -/

/-- An entry of `pool_map`. -/
structure PoolEntry where
  pool : Pool
  children : List Uuid
  directCost : ℚ := 0
  cost : ℚ := 0
  forecast : ℚ := 0

/-- `pool_map` -/
abbrev PoolMap := Table fun e : PoolEntry => e.pool.id

/-- `pool_map` before any costs. -/
def startMap (t : Table Pool.id) (rootPoolId : Uuid) : PoolMap where
  rows := (getItemHierarchy t rootPoolId).map fun p =>
    ⟨p, ((getItemHierarchy t rootPoolId).filter fun b => b.parentId = some p.id).map Pool.id, 0, 0, 0⟩
  nodup := by
    rw [List.map_map]
    exact t.nodup.sublist ((List.filter_sublist.trans List.filter_sublist).map Pool.id)

/-- What a call gives for each child, one after the other. -/
def forChildren {β : Type} (call : Uuid → Session PoolMap Failure β) : List Uuid → Session PoolMap Failure (List β)
  | [] => pure []
  | childId :: childIds => do
    let result ← call childId
    let results ← forChildren call childIds
    pure (result :: results)

/-- `calculate_costs`, for as many levels. -/
def calculateCosts (monthExpenses : Table MonthExpense.poolId) : ℕ → Uuid → Session PoolMap Failure (ℚ × ℚ)
  | 0, _ => Session.read fun _ => .error (.python "RecursionError")
  | n + 1, poolId => do
    let selfCost := ((monthExpenses.get? poolId).map MonthExpense.cost).getD 0
    let selfForecast := ((monthExpenses.get? poolId).bind MonthExpense.forecast).getD 0
    let children ← Session.read fun m => orFail ((m.get? poolId).map PoolEntry.children) (.python "KeyError")
    let childrenCosts ← forChildren (calculateCosts monthExpenses n) children
    let cost := selfCost + (childrenCosts.map Prod.fst).sum
    let forecast := selfForecast + (childrenCosts.map Prod.snd).sum
    Session.change fun m => m.updateWhere (fun e => e.pool.id = poolId)
      (fun e => { e with directCost := selfCost, cost, forecast }) fun _ => rfl
    pure (cost, forecast)

/-- `get_pool_hierarchy_costs`.  There are no more levels than live pools. -/
def getPoolHierarchyCosts (t : Table Pool.id) (rootPoolId : Uuid) (forecast : Bool) (startDate endDate : Option ℤ) :
    Except Failure PoolMap :=
  let poolMap := startMap t rootPoolId
  let monthExpenses := getPoolExpenses B (poolMap.rows.map fun e => e.pool.id) startDate endDate forecast
  let run := calculateCosts monthExpenses (live t).length rootPoolId poolMap
  run.1.map fun _ => run.2

/-! ## The report -/

/-- `round(x, 2)`, of an exact number: to the nearest hundredth, a half to the even one. -/
def round2 (x : ℚ) : ℚ :=
  let hundredths := ⌊x * 100⌋
  let rest := x * 100 - hundredths
  (if rest < 1 / 2 ∨ rest = 1 / 2 ∧ hundredths % 2 = 0 then hundredths else hundredths + 1 : ℤ) / 100

/-- A row of `rows`. -/
structure Visit where
  entry : PoolEntry
  path : List Text

/-- The children of an entry by name. -/
def sortedChildren (poolMap : PoolMap) (e : PoolEntry) : List Uuid :=
  let name (c : Uuid) : Text := ((poolMap.get? c).map fun e => e.pool.name).getD []
  e.children.mergeSort fun a b => name a ≤ name b

/-- `dfs`, for as many levels: the rows it appends. -/
def dfs (poolMap : PoolMap) : ℕ → Uuid → List Text → Except Failure (List Visit)
  | 0, _, _ => .error (.python "RecursionError")
  | n + 1, poolId, ancestors => do
    let e ← orFail (poolMap.get? poolId) (.python "KeyError")
    let path := ancestors ++ [e.pool.name]
    let rows ← (sortedChildren poolMap e).mapM fun childId => dfs poolMap n childId path
    pure (⟨e, path⟩ :: rows.flatten)

/-- A row of the report. -/
structure ReportRow where
  periodStart : ℤ
  periodEnd : ℤ
  currency : String
  poolId : Uuid
  /-- The columns `Level 1`, `Level 2` and so on. -/
  levels : List Text
  directExpense : ℚ
  subtreeExpense : ℚ

/-- An organization, as the report reads it. -/
structure ReportOrganization where
  currency : String
  poolId : Option Uuid

/-- The rows of `get_pool_expenses_report`, before they are written out. -/
def reportVisits (t : Table Pool.id) (rootPoolId : Uuid) (startDt endDt : ℤ) : Except Failure (List Visit) := do
  let poolMap ← getPoolHierarchyCosts B t rootPoolId false (some startDt) (some endDt)
  dfs poolMap (live t).length rootPoolId []

/-- `timestamp_to_day_start` -/
def timestampToDayStart (t : ℤ) : ℤ := t - t % 86400

/-- `get_pool_expenses_report` -/
def getPoolExpensesReport (t : Table Pool.id) (organizationId : Uuid) (org : Option ReportOrganization)
    (startDate endDate : ℤ) : Except Failure (List ReportRow) := do
  let org ← orFail org (.notFound .OE0002 ["Organization", toString organizationId])
  match org.poolId with
  | none => pure []
  | some rootPoolId =>
    let startDt := timestampToDayStart startDate
    let endDt := timestampToDayStart endDate
    let rows ← reportVisits B t rootPoolId startDt endDt
    let maxDepth := (rows.map fun r => r.path.length).foldl max 0
    pure (rows.map fun r =>
      { periodStart := startDt
        periodEnd := endDt
        currency := org.currency
        poolId := r.entry.pool.id
        levels := r.path ++ List.replicate (maxDepth - r.path.length) []
        directExpense := round2 r.entry.directCost
        subtreeExpense := round2 r.entry.cost })

end PoolTree
