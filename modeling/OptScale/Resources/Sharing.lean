import OptScale.Resources.Assignment
import OptScale.Resources.SaveBulk

/-!
# Resources/Sharing — what a resource can be used for on its own

A resource is shared and unshared, an environment is born shared, and a constraint is put on a
resource.  Each of these looks at `cluster_id` by itself; for an environment that is left to the
code that saves resources.
-/

open Fallible

/-! ## Sharing -/

namespace ShareableBookingController

/-- `contains_shareable_resource` -/
def containsShareableResource (O : OrganizationContext) (t : Resources) : Bool :=
  t.rows.any fun r => ((∃ a ∈ O.cloudAccounts, r.cloudAccountId = some a) ∨
    r.organizationId = some O.organizationId) ∧ r.shareable ∧ r.Live

end ShareableBookingController

open ShareableBookingController

namespace ShareableResourceBulkController

variable (O : OrganizationContext)

/-- The message of a resource that is not shared: its code, and what the text is filled with. -/
structure Failed where
  id : Uuid
  code : Err
  name : Option String
  deriving DecidableEq, Repr

/-- What `bulk_share` returns. -/
structure Response where
  succeeded : List Uuid
  failed : List Failed
  deriving DecidableEq, Repr

/-- `res.get('cloud_resource_id') or res.get('cloud_resource_hash')` -/
def nameOf (r : Resource) : Option String := (truthy r.cloudResourceId).or r.cloudResourceHash

/-- What `_check_resources` makes of a resource: the code it fails with, or none. -/
def checkResources (r : Resource) : Option Err :=
  if ¬ r.Live ∨ ∃ a ∈ r.cloudAccountId, a ∉ O.cloudAccounts then some .OE0412
  else if r.shareable then none
  else if ¬ r.active then some .OE0443
  else if r.resourceType = instanceType ∧ r.clusterId.isSome then some .OE0481
  else none

/-- `split_resources_by_shareability`: the resource can be made shareable. -/
def canBeShared (r : Resource) : Bool :=
  !r.shareable && (r.resourceType = instanceType && r.clusterId.isNone || r.clusterTypeId.isSome)

/-- The resources that `bulk_share` makes shareable. -/
def toShare (t : Resources) (resourceIds : List Uuid) : List Resource :=
  t.rows.filter fun r => r.id ∈ resourceIds ∧ checkResources O r = none ∧ canBeShared r

/-- `make_resources_shareable` -/
def makeResourcesShareable (ids : List Uuid) (t : Resources) : Resources :=
  t.updateWhere (fun r => r.id ∈ ids) (fun r => { r with shareable := true }) fun _ => rfl

/-- The answer of `bulk_share`. -/
def response (t : Resources) (resourceIds : List Uuid) : Response :=
  let found := t.rows.filter fun r => r.id ∈ resourceIds
  let checked := found.filter fun r => checkResources O r = none
  let missing := resourceIds.filter fun id => id ∉ found.map Resource.id
  let failing (code : Err) : List Failed :=
    (found.filter fun r => checkResources O r = some code).map fun r => ⟨r.id, code, nameOf r⟩
  { succeeded := (toShare O t resourceIds).map Resource.id ++
      (checked.filter fun r => r.shareable).map Resource.id
    failed :=
      (checked.filter fun r => !r.shareable && !canBeShared r).map
          (fun r => ⟨r.id, .OE0478, nameOf r⟩) ++
        failing .OE0412 ++ missing.map (fun id => ⟨id, .OE0412, some (toString id)⟩) ++
        failing .OE0443 ++ failing .OE0481 }

/-- `bulk_share` -/
def bulkShare (resourceIds : List Uuid) (sendFirstShareableEmail : Except Failure Unit) :
    Session Store Failure Response := do
  let answer ← Session.read fun s => .ok (response O s.resources resourceIds)
  let shareIds ← Session.read fun s =>
    .ok ((toShare O s.resources resourceIds).map Resource.id)
  let first ← Session.read fun s => .ok !containsShareableResource O s.resources
  Session.commit fun s =>
    .ok ((), { s with resources := makeResourcesShareable shareIds s.resources })
  Session.read fun _ => if first ∧ shareIds ≠ [] then sendFirstShareableEmail else .ok ()
  pure answer

end ShareableResourceBulkController

namespace CloudResourceController

/-- `delete_bookings` -/
def deleteBookings (itemId : Uuid) (now : Timestamp) (bookings : Bookings) :
    Except Failure Bookings := do
  let live := bookings.rows.filter fun b => b.deletedAt = 0 ∧ b.resourceId = itemId
  require (∀ b ∈ live, ∀ c ∈ live, b.organizationId = c.organizationId)
    (.wrongArguments .OE0177 [])
  pure (bookings.updateWhere (fun b => b.deletedAt = 0 ∧ b.resourceId = itemId)
    (fun b => { b with deletedAt := now }) fun b => Eq.refl b.id)

/-- `edit`, of `shareable` alone; `check_restrictions` lets only `False` through. -/
def editShareable (itemId : Uuid) (shareable : Bool) (now : Timestamp) :
    Session Store Failure Unit := do
  Session.read fun _ => require (shareable = false) (.wrongArguments .OE0479 ["shareable"])
  let resource ← Session.read fun s => orFail (AssignmentController.getResource s.resources itemId)
    (.notFound .OE0002 ["Resource", toString itemId])
  Session.read fun _ => require (¬ resource.isEnvironment)
    (.wrongArguments .OE0488 [toString itemId])
  Session.commit fun s => do
    let bookings ← deleteBookings itemId now s.bookings
    pure ((), { s with bookings := bookings })
  Session.commit fun s => .ok ((), { s with
    resources := s.resources.updateWhere (fun r => r.id = itemId ∧ r.Live)
      (fun r => { r with shareable := shareable }) fun _ => rfl })

end CloudResourceController

/-! ## Environments -/

namespace EnvironmentResourceController

open CloudResourceController

variable (O : OrganizationContext) (R : RuleContext)

/-- What `create` finds around it. -/
structure Surroundings where
  /-- `check_entity_exists`, of the organization. -/
  organization : Except Failure Unit
  /-- `get_environment_account`: the data source of the environments, created if need be. -/
  environmentAccount : Except Failure Uuid
  /-- The digest of `gen_cloud_resource_ids`, of name and type. -/
  genCloudResourceId : Option String → String → String
  /-- What follows once the environment is saved: its cost model, alerts and mails. -/
  announce : Except Failure Unit
  now : ℕ

variable (E : Surroundings)

/-- `EnvironmentResourceController`, as `save_bulk` sees it. -/
def kind : Kind := ⟨some E.genCloudResourceId⟩

/-- The environment is there already. -/
def checkExisting (t : Resources) (accountId : Uuid) (p : Payload) : Except Failure Unit := do
  if containsShareableResource O t then
    let resources ← genCloudResourceIds (kind E) [p]
    require (∀ q ∈ resources, ¬ ∃ r ∈ t.rows, r.cloudAccountId = some accountId ∧
      r.cloudResourceId = q.cloudResourceId ∧ r.Live)
      (.conflict .OE0558 [p.name.getD "None", p.resourceType])
  else pure ()

/-- What `save_bulk` is given for an environment. -/
def saveBulkArgs (accountId : Uuid) (p : Payload) : SaveBulkArgs where
  cloudAccountId := accountId
  resources := [p]
  behavior := .error_existing
  now := E.now

/-- `create` -/
def create (types : List ClusterType) (p : Payload) : Session Resources Failure Unit := do
  Session.read fun _ => E.organization
  let accountId ← Session.read fun _ => E.environmentAccount
  Session.read fun t => checkExisting O E t accountId p
  saveBulk O R (kind E) types (saveBulkArgs E accountId p)
  Session.read fun _ => E.announce

end EnvironmentResourceController

/-! ## Constraints -/

/-- `str` of a type. -/
def ConstraintType.text : ConstraintType → String
  | .TTL => "ConstraintTypes.TTL"
  | .TOTAL_EXPENSE_LIMIT => "ConstraintTypes.TOTAL_EXPENSE_LIMIT"
  | .DAILY_EXPENSE_LIMIT => "ConstraintTypes.DAILY_EXPENSE_LIMIT"

namespace ResourceConstraintController

variable (O : OrganizationContext)

/-- What a constraint is created from. -/
structure Params where
  /-- The id the row is generated with. -/
  id : Uuid
  resourceId : Uuid
  /-- Missing, or not one of `ConstraintTypes`. -/
  type : Except Failure ConstraintType
  limit : Option ℤ

/-- `get_entity` -/
def getEntity (t : Resources) (itemId : Uuid) : Except Failure Resource := do
  let resource ← orFail (AssignmentController.getResource t itemId)
    (.notFound .OE0002 ["Resource", toString itemId])
  require resource.active (.failedDependency .OE0443 [toString itemId])
  require (resource.clusterId = none) (.failedDependency .OE0464 [toString itemId])
  pure resource

/-- `check_limit` -/
def checkLimit (type : ConstraintType) (limit : Option ℤ) (now : ℕ) : Except Failure ℕ := do
  let value ← checkIntAttribute "limit" limit
  require (type = .TTL → value ≠ 0 → now ≤ value) (.wrongArguments .OE0461 ["Limit"])
  pure value

/-- `get_organization_id_from_entity` -/
def getOrganizationIdFromEntity (resource : Resource) : Except Failure Uuid :=
  if resource.clusterTypeId.isSome then
    orFail resource.organizationId (.python "KeyError")
  else do
    require (∃ a ∈ O.cloudAccounts, resource.cloudAccountId = some a)
      (.notFound .OE0002 ["Resource", toString resource.id])
    pure O.organizationId

/-- `ConstraintBaseController.create` -/
def create (p : Params) (now : ℕ) (publish : String → Except Failure Unit) :
    Session Store Failure Unit := do
  let resource ← Session.read fun s => getEntity s.resources p.resourceId
  let type ← Session.read fun _ => p.type
  Session.read fun s => require
    (¬ ∃ c ∈ s.constraints.rows, c.resourceId = p.resourceId ∧ c.type = type ∧ c.deletedAt = 0)
    (.conflict .OE0441 [type.text, toString p.resourceId])
  let limit ← Session.read fun _ => checkLimit type p.limit now
  let organizationId ← Session.read fun _ => getOrganizationIdFromEntity O resource
  Session.commit fun s => do
    let constraints ← orFail (s.constraints.insert?
      { id := p.id, resourceId := p.resourceId, organizationId, type, limit })
      (.wrongArguments .OE0003 [])
    pure ((), { s with constraints := constraints })
  Session.read fun _ => publish "constraint_created"

end ResourceConstraintController
