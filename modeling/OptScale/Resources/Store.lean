import OptScale.Bookings.Booking
import OptScale.Clusters.ClusterType
import OptScale.Foundations.Session

/-!
# Resources/Store — resources, and what hangs on them

The collection `resources`, the cluster types, and the tables whose rows are about one resource:
bookings, assignment requests and constraints.
-/

open Fallible

/-- `AssignmentRequestStatuses` -/
inductive AssignmentRequestStatus
  | PENDING
  | APPROVED
  | DECLINED
  | CANCELED
  deriving DecidableEq, Repr

/-- A row of `assignment_request`. -/
structure AssignmentRequest where
  id : Uuid
  resourceId : Uuid
  sourcePoolId : Option Uuid
  approverId : Uuid
  requesterId : Uuid
  status : AssignmentRequestStatus := .PENDING
  deletedAt : ℕ := 0
  deriving DecidableEq, Repr

/-- `ConstraintTypes` -/
inductive ConstraintType
  | TTL
  | TOTAL_EXPENSE_LIMIT
  | DAILY_EXPENSE_LIMIT
  deriving DecidableEq, Repr

/-- A row of `resource_constraint`. -/
structure ResourceConstraint where
  id : Uuid
  resourceId : Uuid
  organizationId : Uuid
  type : ConstraintType
  limit : ℕ
  deletedAt : ℕ := 0
  deriving DecidableEq, Repr

/-- The documents of the collection `resources`, by `_id`. -/
abbrev Resources := Table Resource.id

/-- The stored state. -/
structure Store where
  resources : Resources
  clusterTypes : Table ClusterType.id
  bookings : Bookings
  requests : Table AssignmentRequest.id
  constraints : Table ResourceConstraint.id

/-- An organization, as all of its calls find it. -/
structure OrganizationContext where
  organizationId : Uuid
  /-- The ids of its live data sources. -/
  cloudAccounts : List Uuid
  encoding : Encoding
  genId : IdSource

/-- A time of the clock. -/
abbrev Timestamp := { t : ℕ // 0 < t }

/-! ## The collection -/

namespace Resources

/-- Add a document; two documents may not agree on the unique index. -/
def insert (t : Resources) (d : Resource) : Except Failure Resources := do
  require (∀ r ∈ t.rows, r.uniqueKey ≠ d.uniqueKey) (.python "DuplicateKeyError")
  orFail (t.insert? d) (.python "DuplicateKeyError")

/-- `delete_many`, by `_id`. -/
def deleteMany (t : Resources) (ids : List Uuid) : Resources where
  rows := t.rows.filter fun r => r.id ∉ ids
  nodup := t.nodup.sublist (List.filter_sublist.map _)

theorem insert_eq_ok {t t' : Resources} {d : Resource} :
    t.insert d = .ok t' ↔ (∀ r ∈ t.rows, r.uniqueKey ≠ d.uniqueKey) ∧
      d.id ∉ t.rows.map Resource.id ∧ t'.rows = t.rows ++ [d] := by
  simp only [insert, bind_eq_ok, require_eq_ok, orFail_eq_ok, Table.insert?_eq_some]
  constructor
  · rintro ⟨_, hkey, h⟩
    exact ⟨hkey, h⟩
  · rintro ⟨hkey, h⟩
    exact ⟨(), hkey, h⟩

end Resources
