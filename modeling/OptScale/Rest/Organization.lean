import OptScale.Foundations.Table
import OptScale.Rest.Text

/-!
# Rest/Organization — organizations and their pools

The two tables the rest of the service hangs on.  Rows are deleted by `deleted_at`, so a table
holds everything that ever was; an id is given out once over both tables.
-/

/-- A row of `organization`. -/
structure Organization where
  id : Uuid
  disabled : Bool := false
  deletedAt : ℕ := 0
  deriving DecidableEq, Repr

/-- A row of `pool`. -/
structure Pool where
  id : Uuid
  organizationId : Uuid
  parentId : Option Uuid := none
  name : Text := []
  limit : ℤ := 0
  defaultOwnerId : Option Uuid := none
  createdAt : ℕ := 0
  deletedAt : ℕ := 0
  deriving DecidableEq, Repr

namespace Organization

/-- `deleted` -/
abbrev Deleted (o : Organization) : Prop := o.deletedAt ≠ 0

end Organization

namespace Pool

/-- `deleted` -/
abbrev Deleted (p : Pool) : Prop := p.deletedAt ≠ 0

end Pool

/-- The tables `organization` and `pool`. -/
structure Scopes where
  organizations : Table Organization.id
  pools : Table Pool.id
  ids_disjoint : ∀ o ∈ organizations.rows, ∀ p ∈ pools.rows, o.id ≠ p.id
