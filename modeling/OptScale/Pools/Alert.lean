import OptScale.Foundations.Fallible
import OptScale.Foundations.Table
import OptScale.Rest.Failure

/-!
# Pools/Alert — `PoolAlertController.process_alerts`

A run looks at every cost and forecast alert of an organization, re-arms those that are below their
threshold and notifies for those above it.  It works on rows of its own session, so a re-armed alert
is stored only where the run gets to `commit`.
-/

open Fallible

/-! ## Pools and what they cost -/

/-- The live pools of an organization, each with its children and the pools after it.  `delete`
refuses a pool with live children, so every live pool hangs below the root. -/
inductive PoolForest
  | nil
  | cons (id : Uuid) (limit : ℤ) (children rest : PoolForest)

/-- What a pool cost this month and what it is expected to cost. -/
structure PoolExpense where
  cost : ℚ := 0
  forecast : ℚ := 0
  deriving DecidableEq

/-- An entry of `get_pool_hierarchy_costs`. -/
structure PoolInfo where
  id : Uuid
  limit : ℤ
  cost : ℚ
  forecast : ℚ
  children : List Uuid
  deriving DecidableEq

namespace PoolForest

/-- The ids of the top pools. -/
def roots : PoolForest → List Uuid
  | nil => []
  | cons id _ _ rest => id :: roots rest

/-- All ids. -/
def ids : PoolForest → List Uuid
  | nil => []
  | cons id _ children rest => id :: (ids children ++ ids rest)

/-- `get_pools_children_ids`: all that is below a pool. -/
def childrenIds (poolId : Uuid) : PoolForest → List Uuid
  | nil => []
  | cons id _ children rest =>
    if id = poolId then ids children else childrenIds poolId children ++ childrenIds poolId rest

/-- `calculate_costs`, summed over the top pools. -/
def calculateCosts (expenses : Uuid → PoolExpense) : PoolForest → PoolExpense
  | nil => {}
  | cons id _ children rest =>
    let below := calculateCosts expenses children
    let after := calculateCosts expenses rest
    { cost := (expenses id).cost + below.cost + after.cost
      forecast := (expenses id).forecast + below.forecast + after.forecast }

/-- `get_pool_hierarchy_costs`: a pool costs what it and all its children cost. -/
def poolHierarchyCosts (expenses : Uuid → PoolExpense) : PoolForest → List PoolInfo
  | nil => []
  | cons id limit children rest =>
    let below := calculateCosts expenses children
    { id := id
      limit := limit
      cost := (expenses id).cost + below.cost
      forecast := (expenses id).forecast + below.forecast
      children := roots children } ::
      (poolHierarchyCosts expenses children ++ poolHierarchyCosts expenses rest)

end PoolForest

/-! ## Alerts -/

/-- `ThresholdTypes` -/
inductive ThresholdTypes
  | absolute
  | percentage
  deriving DecidableEq, Repr

/-- `ThresholdBasedTypes` -/
inductive ThresholdBasedTypes
  | cost
  | forecast
  | constraint
  | envChange
  deriving DecidableEq, Repr

/-- A row of `pool_alert`, without `last_shoot_at`: no call but `process_alerts` writes that, so it
is what a run leaves to the next, while everything else may change in between. -/
structure PoolAlert where
  id : Uuid
  poolId : Uuid
  threshold : ℤ
  thresholdType : ThresholdTypes := .absolute
  based : ThresholdBasedTypes := .cost
  includeChildren : Bool := false
  deletedAt : ℕ := 0
  deriving DecidableEq, Repr

namespace PoolAlert

/-- `deleted` -/
abbrev Deleted (a : PoolAlert) : Prop := a.deletedAt ≠ 0

/-- `pool_info.get(alert.based.value)` -/
def value (a : PoolAlert) (info : PoolInfo) : ℚ :=
  match a.based with
  | .forecast => info.forecast
  | _ => info.cost

/-- The pool is above the alert's threshold. -/
def Above (a : PoolAlert) (info : PoolInfo) : Prop :=
  match a.thresholdType with
  | .absolute => a.value info > a.threshold
  | .percentage =>
    info.limit > 0 ∧ a.value info * 100 / info.limit > a.threshold ∨
      info.limit = 0 ∧ a.value info > 0

instance (a : PoolAlert) (info : PoolInfo) : Decidable (a.Above info) := by
  unfold Above
  split <;> infer_instance

end PoolAlert

namespace PoolAlertController

/-- `NOTIFICATION_INTERVAL`: 12 hours. -/
def notificationInterval : ℕ := 43200

/-- What a run finds, but for the stored `last_shoot_at`. -/
structure Turn where
  organizationId : Uuid
  /-- The organization is there and not deleted. -/
  organizationFound : Bool := true
  pools : PoolForest
  alerts : Table PoolAlert.id
  expenses : Uuid → PoolExpense
  /-- The clock when the loop comes to the alert. -/
  now : Uuid → ℕ

/-- A task of a notification. -/
structure AlertTask where
  organizationId : Uuid
  poolId : Uuid
  alertId : Uuid
  cost : ℚ
  limit : ℤ
  deriving DecidableEq

/-- The stored `last_shoot_at` of every alert; `0` for one that was never written. -/
abbrev LastShootAt := Uuid → ℕ

/-- What a run leaves behind. -/
structure Outcome where
  lastShootAt : LastShootAt
  tasks : List AlertTask
  result : List PoolAlert

namespace Turn

variable (t : Turn)

/-- `affected_alerts` -/
def affectedAlerts : List PoolAlert :=
  t.alerts.rows.filter fun a => ¬ a.Deleted ∧ a.poolId ∈ t.pools.ids ∧
    a.based ∉ [ThresholdBasedTypes.constraint, .envChange]

/-- The pools an alert watches. -/
def poolIds (a : PoolAlert) : List Uuid :=
  a.poolId :: if a.includeChildren then t.pools.childrenIds a.poolId else []

/-- `alert_pools`: the watched pools above the threshold. -/
def alertPools (a : PoolAlert) : List PoolInfo :=
  ((t.poolIds a).filterMap fun id =>
    (t.pools.poolHierarchyCosts t.expenses).find? fun info => info.id = id).filter fun info =>
      a.Above info

/-- Some watched pool exceeds the alert's threshold. -/
abbrev Exceeds (a : PoolAlert) : Prop := t.alertPools a ≠ []

end Turn

/-- The alert was notified for less than `NOTIFICATION_INTERVAL` ago. -/
abbrev Recent (lastShoot now : ℕ) : Prop :=
  lastShoot ≠ 0 ∧ lastShoot + notificationInterval > now

/-- `process_alerts` -/
def processAlerts (lastShootAt : LastShootAt) (t : Turn) : Except Failure Outcome := do
  require t.organizationFound (.notFound .OE0002 ["Organization", toString t.organizationId])
  -- the rows as the session has them: what is below its threshold is re-armed
  let session : LastShootAt := fun id =>
    if ∃ a ∈ t.affectedAlerts, a.id = id ∧ ¬ t.Exceeds a then 0 else lastShootAt id
  let exceeding := t.affectedAlerts.filter fun a => t.Exceeds a
  if exceeding = [] then
    -- no commit
    pure ⟨lastShootAt, [], []⟩
  else
    let result := exceeding.filter fun a => ¬ Recent (session a.id) (t.now a.id)
    let tasks := result.flatMap fun a => (t.alertPools a).map fun info =>
      ⟨t.organizationId, info.id, a.id, a.value info, info.limit⟩
    pure ⟨fun id => if ∃ a ∈ result, a.id = id then t.now id else session id, tasks, result⟩

end PoolAlertController
