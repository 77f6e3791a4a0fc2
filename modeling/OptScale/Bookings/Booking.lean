import OptScale.Foundations.Table
import OptScale.Resources.Resource
import OptScale.Rest.Database

/-!
# Bookings/Booking — `ShareableBookingController`

The table of shareable bookings and the three calls that write it: `create`, `release` and
`delete`.  A call reads the rest of the service through `Surroundings`; each is an `Except`, and
what it stores is the table it returns.
-/

open Fallible

/-- A row of `shareable_booking`. -/
structure ShareableBooking where
  id : Uuid
  resourceId : Uuid
  acquiredById : Uuid
  organizationId : Uuid
  acquiredSince : ℕ
  /-- `0` while nobody has said when the booking ends. -/
  releasedAt : ℕ
  deletedAt : ℕ := 0
  deriving DecidableEq, Repr

namespace ShareableBooking

/-- `deleted` -/
abbrev Deleted (b : ShareableBooking) : Prop := b.deletedAt ≠ 0

/-- `is_active`: the booking holds its resource at `comparedTs`. -/
abbrev IsActive (b : ShareableBooking) (comparedTs : ℕ) : Prop :=
  b.acquiredSince ≤ comparedTs ∧ (b.releasedAt = 0 ∨ comparedTs < b.releasedAt)

end ShareableBooking

/-- The table `shareable_booking`. -/
abbrev Bookings := Table ShareableBooking.id

/-! ## What a call reads of the rest of the service -/

/-- A row of `ssh_key`. -/
structure SshKey where
  employeeId : Uuid
  default : Bool
  deriving DecidableEq, Repr

/-- The other controllers, as one call finds them. -/
structure Surroundings where
  /-- `OrganizationController.get` finds the organization. -/
  organization : Uuid → Bool
  /-- `EmployeeController.get(id, organization_id=…)`. -/
  employee : Uuid → Uuid → Option Employee
  /-- The document of the `resources` collection, deleted ones included. -/
  resource : Uuid → Option Resource
  /-- The organization of `CloudAccountController.get`. -/
  accountOrganization : Uuid → Option Uuid
  sshKey : Uuid → Option SshKey
  /-- The user of the call's token. -/
  userId : Option Uuid
  /-- `BOOK_ENVIRONMENTS` on the resource, for a user; `none` when the auth service fails. -/
  authorizeUserList : Uuid → Uuid → Option Bool
  /-- What the calendar service answers. -/
  calendar : Except Failure Unit

namespace ShareableBookingController

/-- `get_organization` -/
def getOrganization (env : Surroundings) (organizationId : Uuid) : Except Failure Unit :=
  require (env.organization organizationId)
    (.notFound .OE0002 ["Organization", toString organizationId])

/-- `_check_employee` -/
def checkEmployee (env : Surroundings) (acquiredById : Option Uuid) (organizationId : Uuid) :
    Except Failure Employee := do
  let employeeId ← orFail acquiredById (notProvided "acquired_by_id")
  orFail (env.employee employeeId organizationId)
    (.notFound .OE0002 ["Employee", toString employeeId])

/-- `check_employee_permission` -/
def checkEmployeePermission (env : Surroundings) (employee : Employee) (resourceId : Uuid) :
    Except Failure Unit :=
  if env.userId = some employee.authUserId then pure ()
  else do
    let allowed ← orFail (env.authorizeUserList employee.authUserId resourceId)
      (.wrongArguments .OE0435 [])
    require allowed (.forbidden .OE0505 [employee.name, toString employee.id])

/-- `CloudResourceController.get`: the live document. -/
def getResource (env : Surroundings) (itemId : Uuid) : Except Failure Resource := do
  let r ← orFail (env.resource itemId) (.notFound .OE0002 ["Resource", toString itemId])
  require r.Live (.notFound .OE0002 ["Resource", toString itemId])
  pure r

/-- `_check_cluster` -/
def checkCluster (organizationId : Uuid) (cluster : Resource) : Except Failure Unit := do
  require (cluster.organizationId = some organizationId)
    (.wrongArguments .OE0454 ["Cluster", toString cluster.id])
  require cluster.shareable (.wrongArguments .OE0480 ["Cluster", toString cluster.id])

/-- `_check_resource` -/
def checkResource (env : Surroundings) (resource : Resource) (organizationId : Uuid) :
    Except Failure Unit := do
  let accountId ← orFail resource.cloudAccountId (.python "AttributeError")
  let owner ← orFail (env.accountOrganization accountId) (.python "AttributeError")
  require (owner = organizationId) (.wrongArguments .OE0454 ["Resource", toString resource.id])
  require (resource.isEnvironment ∨ resource.resourceType = instanceType ∨
      resource.clusterTypeId.isSome)
    (.wrongArguments .OE0384 [resource.resourceType])
  require resource.shareable (.wrongArguments .OE0480 ["Resource", toString resource.id])
  require (resource.clusterId = none) (.wrongArguments .OE0481 [toString resource.id])
  require resource.active (.wrongArguments .OE0443 [toString resource.id])

/-- `_check_resource_param` -/
def checkResourceParam (env : Surroundings) (organizationId resourceId : Uuid) :
    Except Failure Resource := do
  let resource ← getResource env resourceId
  if resource.clusterTypeId.isSome then checkCluster organizationId resource
  else checkResource env resource organizationId
  pure resource

/-- `_check_ssh_key` -/
def checkSshKey (env : Surroundings) (sshKeyId : Option Uuid) (employee : Employee)
    (resource : Resource) : Except Failure Unit :=
  match sshKeyId with
  | none => require (¬ resource.sshOnly) (notProvided "ssh_key_id")
  | some keyId => do
    let key ← orFail (env.sshKey keyId) (.notFound .OE0002 ["ssh_key", toString keyId])
    require (key.employeeId = employee.id)
      (.wrongArguments .OE0510 [toString keyId, toString employee.id])
    require (env.userId = some employee.authUserId ∨ key.default) (.wrongArguments .OE0511 [])

/-! ## The checks on the slot -/

/-- `_check_dates`: a booking that ends does not end before it starts. -/
def checkDates (acquiredSince releasedAt : Option ℕ) : Except Failure Unit :=
  match releasedAt, acquiredSince with
  | some r, some s =>
    require (¬ (s > r ∧ r ≠ 0)) (.wrongArguments .OE0446 ["released_at", "acquired_since"])
  | _, _ => pure ()

/-- The slot `[acquiredSince, releasedAt)` runs into the booking. -/
abbrev Clashes (b : ShareableBooking) (acquiredSince releasedAt : ℕ) : Prop :=
  b.IsActive acquiredSince ∨
    acquiredSince < b.acquiredSince ∧ (releasedAt = 0 ∨ releasedAt > b.acquiredSince)

/-- `_check_slots_with_existing`.  A start that is missing *or zero* is read as `nowTs`. -/
def checkSlotsWithExisting (db : Bookings) (nowTs : ℕ) (resourceId : Uuid)
    (acquiredSince releasedAt : Option ℕ) : Except Failure Unit :=
  let released := releasedAt.getD 0
  let since := if acquiredSince.getD 0 = 0 then nowTs else acquiredSince.getD 0
  require (∀ b ∈ db.rows, b.resourceId = resourceId → ¬ b.Deleted → ¬ Clashes b since released)
    (.wrongArguments .OE0482 [])

/-! ## The calls -/

/-- The clock, as `create` reads it: for the slot, for the past and for the default start. -/
structure Clock where
  slot : ℕ
  past : ℕ
  flush : ℕ
  slot_le : slot ≤ past
  past_le : past ≤ flush

/-- What `create` is given. -/
structure CreateArgs where
  /-- The id the row is generated with. -/
  id : Uuid
  organizationId : Uuid
  acquiredById : Option Uuid
  resourceId : Uuid
  acquiredSince : Option ℤ
  releasedAt : Option ℤ
  sshKeyId : Option Uuid := none
  isAdminPermission : Bool := false

/-- The checks `create` makes before it looks at the slot. -/
def checkCreate (env : Surroundings) (a : CreateArgs) : Except Failure Employee := do
  getOrganization env a.organizationId
  let employee ← checkEmployee env a.acquiredById a.organizationId
  checkEmployeePermission env employee a.resourceId
  let resource ← checkResourceParam env a.organizationId a.resourceId
  checkSshKey env a.sshKeyId employee resource
  pure employee

/-- `ShareableBookingController.create` -/
def create (env : Surroundings) (clock : Clock) (db : Bookings) (a : CreateArgs) :
    Except Failure Bookings := do
  let employee ← checkCreate env a
  let acquiredSince ← nullableInt "acquired_since" a.acquiredSince
  let releasedAt ← nullableInt "released_at" a.releasedAt
  checkDates acquiredSince releasedAt
  checkSlotsWithExisting db clock.slot a.resourceId acquiredSince releasedAt
  require (¬ (a.isAdminPermission = false ∧ ∃ s ∈ acquiredSince, s < clock.past))
    (.forbidden .OE0495 [])
  env.calendar
  orFail
    (db.insert?
      { id := a.id
        resourceId := a.resourceId
        acquiredById := employee.id
        organizationId := a.organizationId
        acquiredSince := acquiredSince.getD clock.flush
        releasedAt := releasedAt.getD 0 })
    (.wrongArguments .OE0003 [])

/-- `BaseController.get`: the live row. -/
def getBooking (db : Bookings) (itemId : Uuid) : Except Failure ShareableBooking := do
  let item ← orFail (db.get? itemId) (.notFound .OE0002 ["ShareableBooking", toString itemId])
  require (¬ item.Deleted) (.notFound .OE0002 ["ShareableBooking", toString itemId])
  pure item

/-- `resources_collection.find({'_id': …}).limit(1)`, its first document. -/
def nextResource (env : Surroundings) (resourceId : Uuid) : Except Failure Resource :=
  orFail (env.resource resourceId) (.python "StopIteration")

/-- What `release` is given. -/
structure ReleaseArgs where
  itemId : Uuid
  isAdminPermission : Bool
  releasedAt : Option ℤ
  /-- The other keyword arguments, by name. -/
  unexpected : List String := []

/-- Give the booking its end. -/
def setReleasedAt (db : Bookings) (itemId : Uuid) (releasedAt : ℕ) : Bookings :=
  db.updateWhere (fun b => b.id = itemId) (fun b => { b with releasedAt }) fun _ => rfl

/-- `ShareableBookingController.release` -/
def release (env : Surroundings) (nowTs : ℕ) (db : Bookings) (a : ReleaseArgs) :
    Except Failure Bookings := do
  let item ← getBooking db a.itemId
  let resource ← nextResource env item.resourceId
  require resource.shareable (.wrongArguments .OE0480 ["Resource", toString resource.id])
  let releasedAt ← checkIntAttribute "released_at" a.releasedAt
  require (a.unexpected = []) (.wrongArguments .OE0212 a.unexpected)
  checkDates (some item.acquiredSince) (some releasedAt)
  -- only the bookings that start strictly later are looked at
  require (∀ b ∈ db.rows, b.id ≠ item.id → b.resourceId = item.resourceId →
      b.acquiredSince > item.acquiredSince → ¬ b.Deleted →
      ¬ (b.acquiredSince < releasedAt ∨ releasedAt = 0))
    (.wrongArguments .OE0482 [])
  require (releasedAt ≤ nowTs ∨ a.isAdminPermission) (.forbidden .OE0498 [toString a.itemId])
  env.calendar
  pure (setReleasedAt db a.itemId releasedAt)

/-- Mark the row deleted. -/
def setDeletedAt (db : Bookings) (itemId : Uuid) (deletedAt : ℕ) : Bookings :=
  db.updateWhere (fun b => b.id = itemId) (fun b => { b with deletedAt }) fun _ => rfl

/-- `ShareableBookingController.delete` -/
def delete (env : Surroundings) (nowTs : ℕ) (db : Bookings) (itemId : Uuid)
    (isAdminPermission : Bool) : Except Failure Bookings := do
  let item ← getBooking db itemId
  let _ ← nextResource env item.resourceId
  require
    (isAdminPermission ∨ ¬ (item.IsActive nowTs ∨ nowTs > item.releasedAt ∧ item.releasedAt ≠ 0))
    (.forbidden .OE0484 [toString itemId])
  env.calendar
  pure (setDeletedAt db itemId nowTs)

end ShareableBookingController
