import OptScale.Foundations.Fallible
import OptScale.Resources.Resource
import OptScale.Rest.Database

/-!
# Rules/Assignment — `RuleApplyController.apply_rules`, `handle_assignment_data`

Which pool and which owner a resource gets: the pair it comes with if that is permitted, else the
first rule that matches it, else the root pool and its owner.
-/

open Fallible

/-- What conditions look at in a resource. -/
structure MatchInfo where
  name : Option String
  cloudResourceId : Option String
  resourceType : String
  cloudAccountId : Option Uuid
  region : Option String
  tags : List (String × String)

/-- What the assignment of a resource is decided by. -/
structure RuleContext where
  /-- `get_valid_rules`, by priority. -/
  rules : List Rule
  /-- `RuleWrapper.match`, on a resource with plain tags. -/
  ruleMatches : Rule → MatchInfo → Bool
  /-- `employee_allowed_pools` -/
  allowedPools : Uuid → List Uuid
  /-- The live pool of the organization without a parent. -/
  rootPool : Option Pool

namespace RuleApplyController

/-- A resource, as conditions look at it. -/
def matchInfo (r : Resource) : MatchInfo :=
  { r with }

/-- `apply_rules` -/
def applyRules (R : RuleContext) (resInfo : Resource) : Option Rule :=
  R.rules.find? fun rule => R.ruleMatches rule (matchInfo resInfo)

/-- `short_rules_info` -/
def shortRulesInfo (rule : Rule) : List AppliedRule := [⟨rule.id, rule.name, rule.poolId⟩]

/-- The pair the resource comes with may be kept. -/
def keepsGiven (allowedPools : Uuid → List Uuid) (r : Resource) : Bool :=
  match r.employeeId, r.poolId with
  | some employeeId, some poolId => poolId ∈ allowedPools employeeId
  | _, _ => false

/-- `handle_assignment_data`, for the permissions of the call. -/
def handleAssignmentData (R : RuleContext) (allowedPools : Uuid → List Uuid) (r : Resource) :
    Except Failure Resource :=
  if keepsGiven allowedPools r then .ok r
  else
    let r := { r with employeeId := none, poolId := none }
    match applyRules R r with
    | some rule =>
      .ok { r with
        employeeId := some rule.ownerId
        poolId := some rule.poolId
        appliedRules := some (shortRulesInfo rule) }
    | none => do
      let rootPool ← orFail R.rootPool (.python "AttributeError")
      pure { r with
        employeeId := rootPool.defaultOwnerId
        poolId := some rootPool.id
        appliedRules := none }

/-- **An assignment writes pool, owner and applied rules only.** -/
theorem handleAssignmentData_eq_ok {R : RuleContext} {allowedPools : Uuid → List Uuid}
    {r r' : Resource} (h : handleAssignmentData R allowedPools r = .ok r') :
    r' = { r with
      poolId := r'.poolId, employeeId := r'.employeeId, appliedRules := r'.appliedRules } := by
  unfold handleAssignmentData at h
  split at h
  · obtain rfl := Except.ok.inj h
    rfl
  · dsimp only at h
    split at h
    · obtain rfl := Except.ok.inj h
      rfl
    · obtain ⟨root, -, h⟩ := bind_eq_ok.mp h
      obtain rfl := pure_eq_ok.mp h
      rfl

end RuleApplyController
