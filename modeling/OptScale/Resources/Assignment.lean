import OptScale.Resources.Store

/-!
# Resources/Assignment — `AssignmentController`, `AssignmentRequestController`

A resource is given to a pool and an owner, directly or because a request is accepted; if it is a
cluster its members go with it.  A member itself cannot be given away, and nobody is asked to take it.
-/

open Fallible

namespace AssignmentController

/-- What an assignment finds around it. -/
structure Surroundings where
  /-- `get_employee_by_user_and_organization` -/
  employee : Except Failure Employee
  /-- The live employee of an id. -/
  getEmployee : Uuid → Option Employee
  getEmployee_id : ∀ id, ∀ e ∈ getEmployee id, e.id = id
  /-- The live pool of an id. -/
  getPool : Uuid → Option Pool
  getPool_id : ∀ id, ∀ p ∈ getPool id, p.id = id
  /-- `_authorize_current_user`, for an action on a pool. -/
  authorizeCurrentUser : String → Option Uuid → Bool
  /-- `_authorize_another_user`, for an action of a user on a pool. -/
  authorizeAnotherUser : String → Uuid → Uuid → Except Failure Bool
  /-- `publish_activities_task`, by its action. -/
  publish : String → Except Failure Unit
  now : Timestamp

/-- What an assignment is given. -/
structure Params where
  resourceId : Option Uuid
  poolId : Option Uuid
  ownerId : Option Uuid

variable (E : Surroundings)

/-- The live resource of an id. -/
def getResource (t : Resources) (id : Uuid) : Option Resource :=
  t.rows.find? fun r => r.id = id ∧ r.Live

/-- The resource that is named, if it is not part of a cluster. -/
def freeResource (t : Resources) (resourceId : Option Uuid) : Except Failure Resource := do
  let id ← orFail resourceId (notProvided "resource_id")
  let resource ← orFail (getResource t id) (.wrongArguments .OE0005 ["resource_id", toString id])
  require (resource.clusterId = none) (.failedDependency .OE0464 [toString id])
  pure resource

/-- `_prepare_assign_data` -/
def prepareAssignData (t : Resources) (employee : Employee) (p : Params) :
    Except Failure (Resource × Pool × Employee) := do
  let resource ← freeResource t p.resourceId
  let owner ← (match p.ownerId with
    | some id => orFail (E.getEmployee id) (.wrongArguments .OE0005 ["owner_id", toString id])
    | none => pure employee : Except Failure Employee)
  let poolId ← orFail p.poolId (notProvided "pool_id")
  let pool ← orFail (E.getPool poolId) (.wrongArguments .OE0005 ["pool_id", toString poolId])
  pure (resource, pool, owner)

/-- `validate_resource` -/
def validateResource (resource : Resource) (employee : Employee) : Bool :=
  resource.employeeId = some employee.id ||
    E.authorizeCurrentUser "MANAGE_RESOURCES" resource.poolId

/-- `validate_assignment` -/
def validateAssignment (byRequest : Bool) (employee : Employee)
    (data : Resource × Pool × Employee) : Except Failure Unit := do
  let (resource, pool, owner) := data
  require (byRequest || validateResource E resource employee)
    (.forbidden .OE0381 [resource.cloudResourceId.getD "None"])
  let action := if owner.id = employee.id then "MANAGE_OWN_RESOURCES" else "MANAGE_RESOURCES"
  require (E.authorizeCurrentUser action (some pool.id)) (.forbidden .OE0380 [])
  let allowed ← E.authorizeAnotherUser "MANAGE_OWN_RESOURCES" pool.id owner.authUserId
  require allowed (.forbidden .OE0379 [owner.name])

/-- `uc_resource_id_deleted_at`: no other request of the resource went at that time. -/
abbrev SlotFree (requests : Table AssignmentRequest.id) (q : AssignmentRequest) (deletedAt : ℕ) : Prop :=
  ∀ x ∈ requests.rows, x.id ≠ q.id → ¬ (x.resourceId = q.resourceId ∧ x.deletedAt = deletedAt)

/-- `invalidate_requests`, of one resource: the last of its live requests. -/
def invalidateRequests (resourceId : Uuid) (requests : Table AssignmentRequest.id) :
    Except Failure (Table AssignmentRequest.id) :=
  match (requests.rows.filter fun q => q.resourceId = resourceId ∧ q.deletedAt = 0).getLast? with
  | none => .ok requests
  | some last => do
    require (SlotFree requests last E.now) (.python "IntegrityError")
    pure (requests.updateWhere (fun q => q.id = last.id)
      (fun q => { q with status := .CANCELED, deletedAt := E.now }) fun _ => rfl)

/-- The resource, and what is in it if it is a cluster: the filter of `create`. -/
abbrev Concerns (resourceId : Uuid) (r : Resource) : Prop :=
  (r.id = resourceId ∨ r.clusterId = some resourceId) ∧ r.Live

/-- `AssignmentController.create` -/
def create (resourceId poolId ownerId : Uuid) (t : Resources) : Except Failure (Unit × Resources) := do
  require (∃ r ∈ t.rows, Concerns resourceId r) (.notFound .OE0002 ["Resource", toString resourceId])
  pure ((), t.updateWhere (fun r => Concerns resourceId r)
    (fun r => { r with poolId := some poolId, employeeId := some ownerId }) fun _ => rfl)

/-- `create_assignment` -/
def createAssignment (byRequest : Bool) (p : Params) : Session Store Failure Unit := do
  let employee ← Session.read fun _ => E.employee
  let data ← Session.read fun s => prepareAssignData E s.resources employee p
  Session.read fun _ => validateAssignment E byRequest employee data
  Session.commit fun s => do
    let requests ← (if byRequest then .ok s.requests else invalidateRequests E data.1.id s.requests :
      Except Failure (Table AssignmentRequest.id))
    pure ((), { s with requests := requests })
  Session.commit fun s => do
    let (_, t) ← create data.1.id data.2.1.id data.2.2.id s.resources
    pure ((), { s with resources := t })
  Session.read fun _ => E.publish "resource_assigned"

end AssignmentController

namespace AssignmentRequestController

open AssignmentController

variable (E : AssignmentController.Surroundings)

/-- `_finish_request` -/
def finishRequest (request : AssignmentRequest) (status : AssignmentRequestStatus)
    (requests : Table AssignmentRequest.id) : Except Failure (Table AssignmentRequest.id) := do
  require (SlotFree requests request E.now) (.wrongArguments .OE0003 [])
  pure (requests.updateWhere (fun q => q.id = request.id)
    (fun q => { q with status := status, deletedAt := E.now }) fun _ => rfl)

/-- `_get_assignment_request_by_id` -/
def getRequest (s : Store) (requestId : Uuid) : Except Failure AssignmentRequest :=
  orFail (s.requests.rows.find? fun q => q.id = requestId ∧ q.deletedAt = 0)
    (.notFound .OE0002 ["AssignmentRequest", toString requestId])

/-- `accept_assignment_request` -/
def acceptAssignmentRequest (requestId : Uuid) (poolId ownerId : Option Uuid) :
    Session Store Failure Unit := do
  let request ← Session.read fun s => getRequest s requestId
  -- the organization is found by the resource, even if that is deleted
  Session.read fun s => require (∃ r ∈ s.resources.rows, r.id = request.resourceId)
    (.notFound .OE0002 ["Resource", toString request.resourceId])
  let employee ← Session.read fun _ => E.employee
  Session.read fun _ => require (request.approverId = employee.id) (.forbidden .OE0391 [])
  createAssignment E true
    { resourceId := some request.resourceId, poolId, ownerId := ownerId.or (some request.approverId) }
  Session.commit fun s => do
    let requests ← finishRequest E request .APPROVED s.requests
    pure ((), { s with requests := requests })
  Session.read fun _ => E.publish "assignment_request_accepted"

/-- `decline_assignment_request` -/
def declineAssignmentRequest (requestId : Uuid) : Session Store Failure Unit := do
  let request ← Session.read fun s => getRequest s requestId
  Session.read fun s => require (∃ r ∈ s.resources.rows, r.id = request.resourceId)
    (.notFound .OE0002 ["Resource", toString request.resourceId])
  let employee ← Session.read fun _ => E.employee
  Session.read fun _ => require (request.approverId = employee.id) (.forbidden .OE0391 [])
  Session.commit fun s => do
    let requests ← finishRequest E request .DECLINED s.requests
    pure ((), { s with requests := requests })
  Session.read fun _ => E.publish "assignment_request_declined"

/-- `cancel_assignment_request` -/
def cancelAssignmentRequest (requestId : Uuid) : Session Store Failure Unit := do
  let request ← Session.read fun s => getRequest s requestId
  Session.read fun s => require (∃ r ∈ s.resources.rows, r.id = request.resourceId)
    (.notFound .OE0002 ["Resource", toString request.resourceId])
  let employee ← Session.read fun _ => E.employee
  Session.read fun _ => require (request.requesterId = employee.id) (.forbidden .OE0419 [])
  Session.commit fun s => do
    let requests ← finishRequest E request .CANCELED s.requests
    pure ((), { s with requests := requests })

/-- What a request is created from. -/
structure RequestParams where
  /-- The id the row is generated with. -/
  id : Uuid
  resourceId : Option Uuid
  approverId : Option Uuid

/-- `_prepare_assign_req_data` -/
def prepareAssignReqData (t : Resources) (p : RequestParams) :
    Except Failure (Resource × Employee) := do
  let resource ← freeResource t p.resourceId
  let approverId ← orFail p.approverId (notProvided "approver_id")
  let approver ← orFail (E.getEmployee approverId)
    (.wrongArguments .OE0005 ["approver_id", toString approverId])
  pure (resource, approver)

/-- `validate_assign_request` -/
def validateAssignRequest (resource : Resource) (currentEmployee approver : Employee) :
    Except Failure Unit := do
  require (approver.id ≠ currentEmployee.id) (.forbidden .OE0424 [])
  require (validateResource E resource currentEmployee)
    (.forbidden .OE0381 [resource.cloudResourceId.getD "None"])

/-- `create_assignment_request` -/
def createAssignmentRequest (p : RequestParams) : Session Store Failure Unit := do
  let employee ← Session.read fun _ => E.employee
  let data ← Session.read fun s => prepareAssignReqData E s.resources p
  Session.read fun _ => validateAssignRequest E data.1 employee data.2
  Session.commit fun s => do
    let requests ← invalidateRequests E data.1.id s.requests
    let request : AssignmentRequest :=
      { id := p.id
        resourceId := data.1.id
        sourcePoolId := data.1.poolId
        approverId := data.2.id
        requesterId := employee.id }
    require (SlotFree requests request 0) (.wrongArguments .OE0003 [])
    let requests ← orFail (requests.insert? request) (.wrongArguments .OE0003 [])
    pure ((), { s with requests := requests })

end AssignmentRequestController
