import OptScale.Rest.Text

/-!
# Resources/Resource — the documents of the `resources` collection

One document type covers plain resources, environments and clusters, as in the source: a cluster
carries the `cluster_type_id` it was made for, a member the `cluster_id` it was bound to.  A field
that may be missing is an `Option`; a flag that is read through its truth value is a `Bool`.
-/

/-- `short_rules_info` of a rule. -/
structure AppliedRule where
  id : Uuid
  name : Text
  poolId : Uuid
  deriving DecidableEq, Repr

/-- A document of the `resources` collection: the fields the modelled controllers read or write. -/
structure Resource where
  /-- `_id` -/
  id : Uuid
  cloudResourceId : Option String := none
  cloudResourceHash : Option String := none
  cloudAccountId : Option Uuid := none
  organizationId : Option Uuid := none
  name : Option String := none
  region : Option String := none
  resourceType : String := ""
  tags : List (String × String) := []
  active : Bool := false
  shareable : Bool := false
  isEnvironment : Bool := false
  sshOnly : Bool := false
  clusterId : Option Uuid := none
  clusterTypeId : Option Uuid := none
  poolId : Option Uuid := none
  employeeId : Option Uuid := none
  /-- The rules that gave pool and employee. -/
  appliedRules : Option (List AppliedRule) := none
  firstSeen : Option ℕ := none
  lastSeen : Option ℕ := none
  deletedAt : ℕ := 0
  deriving DecidableEq, Repr

/-- An incoming resource: the fields it may come with.  Its `cloud_account_id` is that of the call. -/
structure Payload where
  cloudResourceId : Option String := none
  cloudResourceHash : Option String := none
  resourceType : String
  name : Option String := none
  region : Option String := none
  tags : Option (List (String × String)) := none
  poolId : Option Uuid := none
  employeeId : Option Uuid := none
  active : Option Bool := none
  shareable : Option Bool := none
  sshOnly : Option Bool := none
  firstSeen : Option ℕ := none
  lastSeen : Option ℕ := none
  deriving DecidableEq, Repr

/-- `ResourceTypes.instance.value` -/
def instanceType : String := "Instance"

namespace Resource

/-- The document is live: `deleted_at == 0`. -/
abbrev Live (r : Resource) : Prop := r.deletedAt = 0

/-- The fields of the unique index of the collection. -/
def uniqueKey (r : Resource) : Option String × Option String × Option Uuid × Option Uuid × ℕ :=
  (r.cloudResourceId, r.cloudResourceHash, r.cloudAccountId, r.organizationId, r.deletedAt)

end Resource

/-- The fields a resource is looked up by. -/
inductive IdField
  | cloudResourceId
  | cloudResourceHash
  deriving DecidableEq, Repr

/-- The value of a field that counts as true. -/
def truthy (s : Option String) : Option String := s.filter (· ≠ "")

/-- `resource.get(unique_field)` -/
def Resource.idField (r : Resource) : IdField → Option String
  | .cloudResourceId => r.cloudResourceId
  | .cloudResourceHash => r.cloudResourceHash

/-- `resource.get('cloud_resource_id') or resource.get('cloud_resource_hash')` -/
def Payload.uniqueId (p : Payload) : Option String :=
  (truthy p.cloudResourceId).or (truthy p.cloudResourceHash)
