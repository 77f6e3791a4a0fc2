import OptScale.Rest.Database

/-!
# Rest/Services — what the controllers find around the tables

Ids, the clock, the database's collation, organizations and employees, and the answers of the other
services, as one call meets them.
-/

/-- The surroundings of a call. -/
structure Services where
  genId : IdSource
  /-- `opttime.utcnow_timestamp()` -/
  now : ℕ
  collation : Collation
  /-- The organization is live. -/
  organization : Uuid → Bool
  /-- The id of `organization.pool`. -/
  organizationPool : Uuid → Option Uuid
  /-- `get_employee_by_user_and_organization`, before it refuses. -/
  employeeByUser : Option Uuid → Uuid → Option Employee
  /-- `EmployeeController.get(id, organization_id=…)` -/
  employee : Uuid → Uuid → Option Employee
  /-- The employee is live. -/
  liveEmployee : Uuid → Bool
  /-- `pool.default_owner`, deleted or not. -/
  defaultOwner : Uuid → Option Employee
  /-- `get_user_id` -/
  userId : Except Failure (Option Uuid)
  /-- `MANAGE_OWN_RESOURCES` of a user on a pool. -/
  authorizeUserList : Uuid → Uuid → Except Failure Bool
  /-- `publish_activities_task`, by the action. -/
  publish : String → Except Failure Unit
