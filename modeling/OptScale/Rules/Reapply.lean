import OptScale.Resources.Store
import OptScale.Rules.Assignment

/-!
# Rules/Reapply — `RuleApplyController.reapply_rules`

The resources and clusters of a pool are assigned afresh by the rules.  A cluster takes its members
along; a member itself is left to its cluster.
-/

open Fallible

namespace RuleApplyController

variable (O : OrganizationContext) (R : RuleContext)

/-- What `reapply_rules` finds around it. -/
structure Surroundings where
  /-- `get_employee_by_user_and_organization` -/
  employee : Except Failure Unit
  /-- The live pool of an id. -/
  getPool : Uuid → Option Pool
  /-- `get_item_hierarchy`: the pool, and all below it. -/
  hierarchy : Uuid → List Uuid
  /-- `publish_activities_task`, by its action. -/
  publish : String → Except Failure Unit

/-- `resource_filter` -/
def filterResources (poolIds : List Uuid) (t : Resources) : List Resource :=
  t.rows.filter fun r =>
    ((∃ a ∈ O.cloudAccounts, r.cloudAccountId = some a) ∨
      r.organizationId = some O.organizationId) ∧
    r.clusterId = none ∧ ∃ p ∈ poolIds, r.poolId = some p

/-- The fresh assignment of a resource, and the documents it is for: the resource, and its members
if it is a cluster. -/
structure Reassigned where
  resource : Resource
  assigned : Resource
  ids : List Uuid

/-- One turn of the loop. -/
def reassign (t : Resources) (resource : Resource) : Except Failure Reassigned := do
  let subResources := if resource.clusterTypeId.isSome then
    (t.rows.filter fun r => r.clusterId = some resource.id).map Resource.id else []
  let assigned ← handleAssignmentData R R.allowedPools
    { resource with
      tags := Tags.decoded O.encoding resource.tags, poolId := none, employeeId := none }
  pure ⟨resource, assigned, resource.id :: subResources⟩

/-- The assignment is another one. -/
abbrev Reassigned.Changes (c : Reassigned) : Prop :=
  c.assigned.poolId ≠ c.resource.poolId ∨ c.assigned.employeeId ≠ c.resource.employeeId

/-- `$set` of an assignment; the applied rules only where there are some. -/
def setAssigned (assigned r : Resource) : Resource :=
  { r with
    poolId := assigned.poolId
    employeeId := assigned.employeeId
    appliedRules := assigned.appliedRules.or r.appliedRules }

/-- The writes of `resource_update_chunk`. -/
def writeAssigned (changes : List Reassigned) (t : Resources) : Resources :=
  changes.foldl (fun t c => c.ids.foldl (fun t id =>
    t.updateWhere (fun r => r.id = id) (setAssigned c.assigned) fun _ => rfl) t) t

theorem setAssigned_idem (assigned r : Resource) :
    setAssigned assigned (setAssigned assigned r) = setAssigned assigned r := by
  cases h : assigned.appliedRules <;> simp [setAssigned, h]

/-- The documents of some ids are given one assignment. -/
def assignIds (assigned : Resource) (ids : List Uuid) (t : Resources) : Resources :=
  ids.foldl (fun t id =>
    t.updateWhere (fun r => r.id = id) (setAssigned assigned) fun _ => rfl) t

theorem assignIds_rows (assigned : Resource) (ids : List Uuid) (t : Resources) :
    (assignIds assigned ids t).rows =
      t.rows.map fun r => if r.id ∈ ids then setAssigned assigned r else r := by
  induction ids generalizing t with
  | nil => simp [assignIds]
  | cons id ids ih =>
    rw [assignIds, List.foldl_cons, ← assignIds, ih]
    simp only [Table.updateWhere, List.map_map]
    refine List.map_congr_left fun r _ => ?_
    by_cases hid : r.id = id
    · simp [hid, setAssigned_idem, show (setAssigned assigned r).id = r.id from rfl]
    · simp [hid]

/-- `applied_rules_map`, the ids. -/
def appliedRules (results : List Reassigned) : List Uuid :=
  ((results.flatMap fun c => c.assigned.appliedRules.getD []).map AppliedRule.id).dedup

/-- What the call returns. -/
structure Response where
  processed : ℕ
  updatedAssignments : ℕ
  deriving DecidableEq, Repr

/-- `reapply_rules` -/
def reapplyRules (E : Surroundings) (poolId : Uuid) (includeChildren : Bool) :
    Session Store Failure Response := do
  Session.read fun _ => E.employee
  let _ ← Session.read fun _ => orFail (E.getPool poolId) (.notFound .OE0002 ["Pool", toString poolId])
  Session.read fun _ => E.publish "rules_processing_started"
  let poolIds := if includeChildren then E.hierarchy poolId else [poolId]
  let results ← Session.read fun s =>
    (filterResources O poolIds s.resources).mapM (reassign O R s.resources)
  let changes := results.filter fun c => c.Changes
  Session.read fun _ => (appliedRules results).forM fun _ => E.publish "rule_applied"
  Session.commit fun s => .ok ((), { s with resources := writeAssigned changes s.resources })
  Session.read fun _ => E.publish "rules_processing_completed"
  pure ⟨results.length, changes.length⟩

end RuleApplyController
