import OptScale.Foundations.Latest
import OptScale.Resources.Store

/-!
# Violations/ResourceHits — `LimitHitsController.process_resources`

Resources, and clusters in the place of their members, are evaluated against the policies of their pools
and against constraints of their own; a violation by a constraint takes the place of one by a policy.  A
violation that the latest hit does not record already is recorded as a red hit, and the end of a recorded
one as a green hit.  Costs are rational numbers, days those of UTC.
-/

open Fallible

namespace LimitHitsController

/-! ## Resources -/

/-- A document of the collection, as `process_violated_resources` finds it. -/
structure Found where
  /-- `_id` -/
  id : Uuid
  clusterId : Option Uuid := none
  poolId : Option Uuid := none
  firstSeen : ℤ := 0
  totalCost : ℚ := 0
  lastExpenseCost : ℚ := 0
  lastExpenseDate : ℤ := 0
  deriving DecidableEq

/-- What is evaluated: a resource, or a cluster. -/
structure ResourceData where
  resourceId : Uuid
  poolId : Option Uuid
  totalCost : ℚ
  mindate : ℤ
  lastExpenseCost : ℚ
  lastExpenseDate : ℤ
  deriving DecidableEq

/-- The data of a document, under its own id or that of its cluster. -/
def Found.data (r : Found) (id : Uuid) : ResourceData where
  resourceId := id
  poolId := r.poolId
  totalCost := r.totalCost
  mindate := r.firstSeen
  lastExpenseCost := r.lastExpenseCost
  lastExpenseDate := r.lastExpenseDate

/-- Another member of the cluster. -/
def ResourceData.join (r : Found) (d : ResourceData) : ResourceData :=
  { d with
    totalCost := d.totalCost + r.totalCost
    mindate := min d.mindate r.firstSeen }

/-- One turn of `collect_processing_data`. -/
def collect (res : Table ResourceData.resourceId) (r : Found) : Table ResourceData.resourceId :=
  match r.clusterId with
  | some clusterId => res.upsert (r.data clusterId) (ResourceData.join r) fun _ => rfl
  | none => res.upsert (r.data r.id) (fun d => r.data d.resourceId) fun _ => rfl

/-- `collect_processing_data` -/
def collectProcessingData (resources : List Found) : Table ResourceData.resourceId :=
  resources.foldl collect .empty

/-! ## Violations -/

/-- A row of `pool_policy`. -/
structure PoolPolicy where
  type : ConstraintType
  limit : ℤ
  active : Bool := true
  poolId : Uuid
  deletedAt : ℕ := 0
  deriving DecidableEq

/-- `ConstraintLimitStates` -/
inductive ConstraintLimitState
  | RED
  | GREEN
  deriving DecidableEq, Repr

/-- A row of `constraint_limit_hit`. -/
structure ConstraintLimitHit where
  resourceId : Uuid
  type : ConstraintType
  poolId : Option Uuid
  constraintLimit : ℤ
  ttlValue : Option ℤ
  expenseValue : Option ℚ
  createdAt : ℤ
  state : ConstraintLimitState
  deletedAt : ℕ := 0
  deriving DecidableEq

/-- What a run finds around it. -/
structure Surroundings where
  organizationId : Uuid
  /-- `opttime.utcnow_timestamp()` -/
  now : ℤ
  policies : List PoolPolicy
  constraints : Table ResourceConstraint.id
  supportedConstraintTypes : List ConstraintType
  /-- `send_alerts`, of the hits. -/
  sendAlerts : List ConstraintLimitHit → Except Failure Unit

/-- What `handle_resource` returns. -/
structure Violation where
  poolId : Option Uuid
  constraintLimit : ℤ
  ttlValue : Option ℤ
  expenseValue : Option ℚ
  deriving DecidableEq

/-- The start of the day of an instant. -/
def dayStart (t : ℤ) : ℤ := t / 86400 * 86400

/-- `get_resource_hit_value`, of the expense limits. -/
def expenseHitValue (d : ResourceData) : ConstraintType → ℚ
  | .DAILY_EXPENSE_LIMIT => d.lastExpenseCost
  | _ => d.totalCost

variable (S : Surroundings)

/-- `handle_resource`; `ttl_limit` is when the time to live is over. -/
def handleResource (d : ResourceData) (poolId : Option Uuid) (limit ttlLimit : ℤ) :
    ConstraintType → Option Violation
  | .TTL => if ttlLimit < S.now then some ⟨poolId, ttlLimit, some S.now, none⟩ else none
  | .TOTAL_EXPENSE_LIMIT =>
    if limit < d.totalCost then some ⟨poolId, limit, none, some d.totalCost⟩ else none
  | .DAILY_EXPENSE_LIMIT =>
    -- the last expense was today or yesterday
    if d.lastExpenseDate < dayStart S.now - 86400 then none
    else if limit < d.lastExpenseCost then some ⟨poolId, limit, none, some d.lastExpenseCost⟩
    else none

/-- `get_exclusions_by_type`: any constraint of the resource, for the types it is asked for. -/
def Excluded (d : ResourceData) (type : ConstraintType) : Prop :=
  type ∈ [.TTL, .DAILY_EXPENSE_LIMIT] ∧ ∃ c ∈ S.constraints.rows, c.deletedAt = 0 ∧
    c.organizationId = S.organizationId ∧ c.type = type ∧ c.resourceId = d.resourceId

instance (d : ResourceData) (type : ConstraintType) : Decidable (Excluded S d type) :=
  inferInstanceAs (Decidable (_ ∧ _))

/-- `PoolPolicyController.get_violations`, of a resource and a type; of two policies the last counts. -/
def policyViolation (d : ResourceData) (type : ConstraintType) : Option Violation :=
  if Excluded S d type then none
  else
    (S.policies.filter fun p => p.deletedAt = 0 ∧ p.active ∧ 0 < p.limit ∧
      p.type ∈ S.supportedConstraintTypes ∧ p.type = type ∧ d.poolId = some p.poolId).reverse.findSome?
        fun p => handleResource S d d.poolId p.limit (d.mindate + p.limit * 3600) type

/-- `ResourceConstraintController.get_by_ids`, of a resource and a type. -/
def constraintsOf (d : ResourceData) (type : ConstraintType) : List ResourceConstraint :=
  S.constraints.rows.filter fun c => c.deletedAt = 0 ∧ 0 < c.limit ∧
    c.type ∈ S.supportedConstraintTypes ∧ c.type = type ∧ c.resourceId = d.resourceId

/-- `ResourceConstraintController.get_violations`, of a resource and a type. -/
def constraintViolation (d : ResourceData) (type : ConstraintType) : Option Violation :=
  (constraintsOf S d type).reverse.findSome? fun c => handleResource S d none c.limit c.limit type

/-- `violations`, of a resource and a type. -/
def violation (d : ResourceData) (type : ConstraintType) : Option Violation :=
  (constraintViolation S d type).or (policyViolation S d type)

/-- The types of `ConstraintTypes`. -/
def constraintTypes : List ConstraintType := [.TTL, .TOTAL_EXPENSE_LIMIT, .DAILY_EXPENSE_LIMIT]

/-- Something for every resource and type. -/
def forEach {β : Type} (data : Table ResourceData.resourceId)
    (f : ResourceData → ConstraintType → Option β) : List β :=
  data.rows.flatMap fun d => constraintTypes.filterMap (f d)

/-! ## Hits -/

/-- The live hits of a resource and a type, in the order they were recorded. -/
def hitsOf (hits : List ConstraintLimitHit) (resourceId : Uuid) (type : ConstraintType) :
    List ConstraintLimitHit :=
  hits.filter fun h => h.deletedAt = 0 ∧ h.resourceId = resourceId ∧ h.type = type

/-- `_get_resources_hits`, of a resource and a type. -/
def latestHit (hits : List ConstraintLimitHit) (resourceId : Uuid) (type : ConstraintType) :
    Option ConstraintLimitHit :=
  latest? ConstraintLimitHit.createdAt (hitsOf hits resourceId type)

/-- `set_limits_in_green_state`, for a resource and a type. -/
def greenHit (hits : List ConstraintLimitHit) (d : ResourceData) (type : ConstraintType) :
    Option ConstraintLimitHit :=
  match violation S d type, latestHit hits d.resourceId type with
  | none, some limit =>
    if limit.state = .RED ∧ (type = .DAILY_EXPENSE_LIMIT → expenseHitValue d type ≠ 0) then
      some {
        resourceId := d.resourceId
        type
        poolId := limit.poolId
        constraintLimit := limit.constraintLimit
        ttlValue := if type = .TTL then some S.now else none
        expenseValue := if type = .TTL then none else some (expenseHitValue d type)
        createdAt := S.now
        state := .GREEN }
    else none
  | _, _ => none

/-- The latest hit records the violation: it is red, of the same pool and limit, and for a daily limit
of the same day. -/
def Records (v : Violation) (hit : ConstraintLimitHit) : Prop :=
  v.poolId = hit.poolId ∧ v.constraintLimit = hit.constraintLimit ∧ hit.state = .RED ∧
    (hit.type = .DAILY_EXPENSE_LIMIT → dayStart S.now = dayStart hit.createdAt)

instance (v : Violation) (hit : ConstraintLimitHit) : Decidable (Records S v hit) :=
  inferInstanceAs (Decidable (_ ∧ _))

/-- The new hit of a violation. -/
def redHit (hits : List ConstraintLimitHit) (d : ResourceData) (type : ConstraintType) :
    Option ConstraintLimitHit :=
  match violation S d type with
  | none => none
  | some v =>
    if ∃ hit ∈ latestHit hits d.resourceId type, Records S v hit then none
    else some {
      resourceId := d.resourceId
      type
      poolId := v.poolId
      constraintLimit := v.constraintLimit
      ttlValue := v.ttlValue
      expenseValue := v.expenseValue
      createdAt := S.now
      state := .RED }

/-- A value within the bounds of `Int` and `NullableFloat`. -/
def checkColumn (key : String) (value : Option ℚ) : Except Failure Unit :=
  require (∀ v ∈ value, 0 ≤ v ∧ v ≤ maxInt32)
    (.wrongArguments .OE0224 [key, "0", toString maxInt32])

/-- The validators of `ConstraintLimitHit`. -/
def validateHit (h : ConstraintLimitHit) : Except Failure Unit := do
  checkColumn "constraint_limit" (some h.constraintLimit)
  checkColumn "ttl_value" (h.ttlValue.map fun v => (v : ℚ))
  checkColumn "expense_value" h.expenseValue

/-- The resources to mark: those with a violation of a constraint, or of a policy that no constraint
stands beside. -/
def marked (d : ResourceData) (type : ConstraintType) : Option Uuid :=
  match violation S d type with
  | none => none
  | some v => if v.poolId = none ∨ constraintsOf S d type = [] then some d.resourceId else none

/-- `process_resources`: the ids to mark, and the hits recorded. -/
def processResources (resources : List Found) :
    Session (List ConstraintLimitHit) Failure (List Uuid) := do
  if resources = [] then pure []
  else
    let data := collectProcessingData resources
    let hits ← Session.read fun hits => .ok hits
    let green := forEach data (greenHit S hits)
    Session.read fun _ => green.forM validateHit
    Session.commit fun hits => .ok ((), hits ++ green)
    let red := forEach data (redHit S hits)
    Session.read fun _ => red.forM validateHit
    Session.commit fun hits => .ok ((), hits ++ red)
    Session.read fun _ => S.sendAlerts red
    pure (forEach data (marked S))

end LimitHitsController
