import OptScale.Resources.Store
import OptScale.Rules.Validity

/-!
# Employees/Deletion — `EmployeeController.delete`

What an employee owned goes to somebody else: to the employee that is named, to the user who deletes, or
to another manager of the organization.  The references lie in six tables and in the collection of the
resources; the limits of the organization that ask for the employee are deleted with their hits.
-/

open Fallible
open RuleValidity (EmployeeRow)

/-! ## Tables -/

/-- A row of `layout`. -/
structure Layout where
  id : Uuid
  ownerId : Uuid
  deriving DecidableEq, Repr

/-- A row of `employee_email`. -/
structure EmployeeEmail where
  id : Uuid
  employeeId : Uuid
  deletedAt : ℕ := 0
  deriving DecidableEq, Repr

/-- A row of `organization_constraint`. -/
structure OrganizationConstraint where
  id : Uuid
  organizationId : Uuid
  /-- `loaded_filters.get('owner_id', [])` -/
  ownerFilter : List (Option Uuid)
  deletedAt : ℕ := 0
  deriving DecidableEq, Repr

/-- A row of `organization_limit_hit`. -/
structure OrganizationLimitHit where
  id : Uuid
  constraintId : Uuid
  deletedAt : ℕ := 0
  deriving DecidableEq, Repr

namespace EmployeeController

/-- What is stored. -/
structure State where
  employees : Table EmployeeRow.id
  organizations : Table Organization.id
  pools : Table Pool.id
  rules : Table Rule.id
  layouts : Table Layout.id
  emails : Table EmployeeEmail.id
  constraints : Table OrganizationConstraint.id
  limitHits : Table OrganizationLimitHit.id
  store : Store

/-- A role the auth service says a user has on a resource. -/
structure Assignment where
  assignmentId : Uuid
  assignmentResource : Uuid
  roleName : String
  deriving DecidableEq, Repr

/-- What a deletion finds around it. -/
structure Surroundings where
  /-- `assignment_list`, of a user. -/
  assignmentList : Option Uuid → Except Failure (List Assignment)
  /-- The users `user_roles_get` lists as managers of the organization. -/
  orgManagers : Uuid → Except Failure (List Uuid)
  /-- `assignment_delete`, by its id. -/
  assignmentDelete : Uuid → Except Failure Unit
  /-- What the database answers to the commits of the call, in their order. -/
  commit : ℕ → Except Failure Unit
  now : Timestamp

variable (E : Surroundings)

/-! ## What is looked up -/

/-- `get`: the live employee of an id. -/
def get (s : State) (id : Uuid) : Option EmployeeRow :=
  s.employees.rows.find? fun e => e.id = id ∧ e.deletedAt = 0

/-- The ids of `get_org_and_pool_summary_map`. -/
def orgAndPools (s : State) (organizationId : Uuid) : List Uuid :=
  (s.pools.rows.filter fun p => ¬ p.Deleted ∧ p.organizationId = organizationId).map Pool.id ++
    (s.organizations.rows.filter fun o => ¬ o.Deleted ∧ o.id = organizationId).map Organization.id

/-- The live employees of a user in the organization. -/
def employeesOf (s : State) (organizationId userId : Uuid) : List EmployeeRow :=
  s.employees.rows.filter fun e =>
    e.organizationId = organizationId ∧ e.authUserId = some userId ∧ e.deletedAt = 0

/-- `get_employee_by_user_and_organization` -/
def getEmployeeByUserAndOrganization (s : State) (userId organizationId : Uuid) :
    Except Failure EmployeeRow := do
  require (∃ o ∈ s.organizations.rows, o.id = organizationId ∧ ¬ o.Deleted)
    (.notFound .OE0002 ["Organization", toString organizationId])
  orFail (employeesOf s organizationId userId).head? (.forbidden .OE0378 [])

/-- `is_org_manager` -/
abbrev IsOrgManager (assignments : List Assignment) (organizationId : Uuid) : Prop :=
  ∃ a ∈ assignments, a.assignmentResource = organizationId ∧ a.roleName = "Manager"

/-- `get_org_manager_user` -/
def getOrgManagerUser (s : State) (organizationId : Uuid) (userNotEqual : Option Uuid) :
    Except Failure (Option Uuid) := do
  let managers ← E.orgManagers organizationId
  pure (managers.find? fun user => some user ≠ userNotEqual ∧ employeesOf s organizationId user ≠ [])

/-! ## The new owner -/

/-- The new owner is the employee that is named. -/
def namedOwner (s : State) (employee : EmployeeRow) (newOwnerId : Uuid) : Except Failure Uuid := do
  let owner ← orFail (get s newOwnerId) (.wrongArguments .OE0217 ["new_owner_id"])
  require (newOwnerId ≠ employee.id) (.wrongArguments .OE0217 ["new_owner_id"])
  let assignments ← E.assignmentList owner.authUserId
  require (IsOrgManager assignments employee.organizationId)
    (.wrongArguments .OE0217 ["new_owner_id"])
  pure newOwnerId

/-- The new owner is the user who deletes. -/
def deletingOwner (s : State) (employee : EmployeeRow) (userId : Uuid) : Except Failure Uuid := do
  let owner ← getEmployeeByUserAndOrganization s userId employee.organizationId
  let _ ← E.assignmentList (some userId)
  pure owner.id

/-- The new owner is another manager. -/
def managingOwner (s : State) (employee : EmployeeRow) : Except Failure Uuid := do
  let user ← getOrgManagerUser E s employee.organizationId employee.authUserId
  let user ← orFail user (.forbidden .OE0497 [])
  let owner ← getEmployeeByUserAndOrganization s user employee.organizationId
  pure owner.id

/-- The new owner `delete` settles on. -/
def newOwner (s : State) (employee : EmployeeRow) (newOwnerId userId : Option Uuid) :
    Except Failure Uuid :=
  match newOwnerId, userId with
  | some id, _ => namedOwner E s employee id
  | none, none => managingOwner E s employee
  | none, some user =>
    if some user = employee.authUserId then managingOwner E s employee
    else deletingOwner E s employee user

/-! ## References -/

/-- The pool's default owner is the employee. -/
abbrev OwnsPool (employee : EmployeeRow) (p : Pool) : Prop :=
  ¬ p.Deleted ∧ p.organizationId = employee.organizationId ∧ p.defaultOwnerId = some employee.id

/-- `_get_rules` -/
abbrev OwnsRule (employee : EmployeeRow) (r : Rule) : Prop :=
  r.deletedAt = 0 ∧ r.organizationId = employee.organizationId ∧ r.ownerId = employee.id

/-- `_get_assignment_requests` -/
abbrev TakesPart (employeeId : Uuid) (q : AssignmentRequest) : Prop :=
  q.deletedAt = 0 ∧ (q.approverId = employeeId ∨ q.requesterId = employeeId)

/-- `_get_shareable_bookings` -/
abbrev Books (employeeId : Uuid) (b : ShareableBooking) : Prop :=
  b.deletedAt = 0 ∧ b.acquiredById = employeeId

/-- The resource is the employee's. -/
abbrev OwnsResource (employeeId : Uuid) (r : Resource) : Prop :=
  r.employeeId = some employeeId ∧ r.Live

/-- The request with one of its parts passed on. -/
def passOn (employeeId newOwnerId : Uuid) (q : AssignmentRequest) : AssignmentRequest :=
  if q.approverId = employeeId then { q with approverId := newOwnerId }
  else { q with requesterId := newOwnerId }

@[simp] theorem passOn_id (e o : Uuid) (q : AssignmentRequest) : (passOn e o q).id = q.id := by
  unfold passOn
  split <;> rfl

@[simp] theorem passOn_resourceId (e o : Uuid) (q : AssignmentRequest) :
    (passOn e o q).resourceId = q.resourceId := by
  unfold passOn
  split <;> rfl

@[simp] theorem passOn_deletedAt (e o : Uuid) (q : AssignmentRequest) :
    (passOn e o q).deletedAt = q.deletedAt := by
  unfold passOn
  split <;> rfl

/-- `_reassign_resources_to_new_owner`, of the resources. -/
def reassignResources (newOwnerId : Uuid) (employee : EmployeeRow) (s : State) : State :=
  { s with store := { s.store with
      resources := s.store.resources.updateWhere (fun r => OwnsResource employee.id r)
        (fun r => { r with employeeId := some newOwnerId }) fun _ => rfl } }

/-- `_reassign_resources_to_new_owner`, of the tables. -/
def reassignTables (newOwnerId : Uuid) (employee : EmployeeRow) (s : State) : State :=
  { s with
    pools := s.pools.updateWhere (fun p => OwnsPool employee p)
      (fun p => { p with defaultOwnerId := some newOwnerId }) fun _ => rfl
    rules := s.rules.updateWhere (fun r => OwnsRule employee r)
      (fun r => { r with ownerId := newOwnerId }) fun _ => rfl
    layouts := s.layouts.updateWhere (fun l => l.ownerId = employee.id)
      (fun l => { l with ownerId := newOwnerId }) fun _ => rfl
    store := { s.store with
      requests := s.store.requests.updateWhere (fun q => TakesPart employee.id q)
        (passOn employee.id newOwnerId) (passOn_id employee.id newOwnerId)
      bookings := s.store.bookings.updateWhere (fun b => Books employee.id b)
        (fun b => { b with acquiredById := newOwnerId }) fun _ => rfl } }

/-- `_delete_employee_emails` -/
def deleteEmployeeEmails (now : Timestamp) (employeeId : Uuid) (s : State) : State :=
  { s with
    emails := s.emails.updateWhere (fun m => m.employeeId = employeeId ∧ m.deletedAt = 0)
      (fun m => { m with deletedAt := now }) fun _ => rfl }

/-- Ids that may be missing are compared by `==`. -/
local instance lawfulBEq_id : LawfulBEq (Option Uuid) := inferInstance

/-- The constraint is live and asks for the owner. -/
abbrev AsksFor (organizationId employeeId : Uuid) (c : OrganizationConstraint) : Prop :=
  c.deletedAt = 0 ∧ c.organizationId = organizationId ∧ some employeeId ∈ c.ownerFilter

/-- `constraints_to_delete` -/
def constraintsToDelete (organizationId employeeId : Uuid) (s : State) : List Uuid :=
  (s.constraints.rows.filter fun c => AsksFor organizationId employeeId c).map
    OrganizationConstraint.id

/-- `delete_constraints_with_hits`, by the owner. -/
def deleteConstraintsWithHits (now : Timestamp) (organizationId employeeId : Uuid) (s : State) :
    State :=
  let ids := constraintsToDelete organizationId employeeId s
  { s with
    limitHits := s.limitHits.updateWhere (fun h => h.constraintId ∈ ids ∧ h.deletedAt = 0)
      (fun h => { h with deletedAt := now }) fun _ => rfl
    constraints := s.constraints.updateWhere (fun c => c.id ∈ ids ∧ c.deletedAt = 0)
      (fun c => { c with deletedAt := now }) fun _ => rfl }

/-- `delete` of the base controller. -/
def deleteRow (now : Timestamp) (employeeId : Uuid) (s : State) : State :=
  { s with
    employees := s.employees.updateWhere (fun e => e.id = employeeId)
      (fun e => { e with deletedAt := now }) fun _ => rfl }

/-! ## `delete` -/

/-- What a deletion knows before it writes. -/
structure Prepared where
  employee : EmployeeRow
  scopes : List Uuid
  assignments : List Assignment
  /-- None if nothing is reassigned. -/
  newOwnerId : Option Uuid

/-- The roles of the employee, as `delete` asks for them. -/
def assignmentsOf (employee : EmployeeRow) : Except Failure (List Assignment) :=
  match E.assignmentList employee.authUserId with
  | .error (.http 401) => .error (.unauthorized .OE0235 [])
  | answer => answer

/-- What `delete` does before anything is committed. -/
def prepare (itemId : Uuid) (reassignResources : Bool) (newOwnerId userId : Option Uuid) (s : State) :
    Except Failure Prepared := do
  let employee ← orFail (get s itemId) (.python "AttributeError")
  let assignments ← assignmentsOf E employee
  let owner ← (if reassignResources then (newOwner E s employee newOwnerId userId).map some
    else .ok none : Except Failure (Option Uuid))
  pure ⟨employee, orgAndPools s employee.organizationId, assignments, owner⟩

/-- Change the tables, unless the database refuses the commit. -/
def commitTables (n : ℕ) (f : State → State) : Session State Failure Unit :=
  Session.commit fun s => do
    E.commit n
    pure ((), f s)

/-- `_reassign_resources_to_new_owner`, if there is one: the deletion of the e-mails waits for its
commit. -/
def reassign (employee : EmployeeRow) : Option Uuid → Session State Failure Unit
  | none => pure ()
  | some newOwnerId => do
    Session.change (reassignResources newOwnerId employee)
    commitTables E 0 fun s =>
      deleteEmployeeEmails E.now employee.id (reassignTables newOwnerId employee s)

/-- `delete` -/
def delete (itemId : Uuid) (reassignResources : Bool) (newOwnerId userId : Option Uuid) :
    Session State Failure Unit := do
  let p ← Session.read (prepare E itemId reassignResources newOwnerId userId)
  reassign E p.employee p.newOwnerId
  Session.read fun _ => (p.assignments.filter fun a => a.assignmentResource ∈ p.scopes).forM fun a =>
    E.assignmentDelete a.assignmentId
  -- with nobody to reassign to, the e-mails are still to be deleted
  commitTables E 1 fun s => deleteConstraintsWithHits E.now p.employee.organizationId itemId
    (deleteEmployeeEmails E.now itemId s)
  commitTables E 2 (deleteRow E.now itemId)

end EmployeeController
