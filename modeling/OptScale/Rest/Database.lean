import OptScale.Rest.Organization

/-!
# Rest/Database — the tables a data source is connected through

Rows of the service's relational database that `CloudAccountController.create` and the controllers
it calls read or write, and the ids they are given.
-/

/-- `gen_id`: ids that are not in use. -/
structure IdSource where
  next : List Uuid → Uuid
  next_not_mem : ∀ used, next used ∉ used

/-- Every id is above the sum of those in use. -/
def IdSource.successor : IdSource where
  next used := used.sum + 1
  next_not_mem _ h := absurd (List.le_sum_of_mem h) (Nat.not_succ_le_self _)

/-- `CloudTypes` -/
inductive CloudType
  | AWS_CNR
  | ALIBABA_CNR
  | AZURE_CNR
  | AZURE_TENANT
  | KUBERNETES_CNR
  | ENVIRONMENT
  | GCP_CNR
  | GCP_TENANT
  | NEBIUS
  | DATABRICKS
  deriving DecidableEq, Repr

/-- A row of `cloudaccount`. -/
structure CloudAccount where
  id : Uuid
  name : Text
  type : CloudType
  organizationId : Uuid
  accountId : Option Text := none
  parentId : Option Uuid := none
  autoImport : Bool := true
  costModelId : Option Uuid := none
  deletedAt : ℕ := 0
  deriving DecidableEq, Repr

/-- `CostModelTypes` -/
inductive CostModelType
  | CLOUD_ACCOUNT
  | RESOURCE
  | SKU
  deriving DecidableEq, Repr

/-- A row of `cost_model`; a cloud account's bears the account's id. -/
structure CostModel where
  id : Uuid
  organizationId : Uuid
  type : CostModelType
  deletedAt : ℕ := 0
  deriving DecidableEq, Repr

/-- A row of `discovery_info`. -/
structure DiscoveryInfo where
  cloudAccountId : Uuid
  resourceType : String
  deletedAt : ℕ := 0
  deriving DecidableEq, Repr

/-- `ConditionTypes` -/
inductive ConditionType
  | NAME_IS
  | NAME_STARTS_WITH
  | NAME_ENDS_WITH
  | NAME_CONTAINS
  | RESOURCE_TYPE_IS
  | CLOUD_IS
  | TAG_IS
  | REGION_IS
  | TAG_EXISTS
  | TAG_VALUE_STARTS_WITH
  deriving DecidableEq, Repr

/-- A row of `condition`, under its rule. -/
structure Condition where
  type : ConditionType
  metaInfo : Option Text
  deletedAt : ℕ := 0
  deriving DecidableEq, Repr

/-- `RuleOperators` -/
inductive RuleOperator
  | OR
  | AND
  deriving DecidableEq, Repr

/-- A row of `rule`. -/
structure Rule where
  id : Uuid
  name : Text
  priority : ℕ
  creatorId : Uuid
  organizationId : Uuid
  poolId : Uuid
  ownerId : Uuid
  conditions : List Condition
  active : Bool := true
  operator : RuleOperator := .AND
  deletedAt : ℕ := 0
  deriving DecidableEq, Repr

/-- The tables. -/
structure Database where
  cloudAccounts : Table CloudAccount.id
  costModels : Table CostModel.id
  discoveryInfos : List DiscoveryInfo
  pools : Table Pool.id
  rules : Table Rule.id

/-- A row of `employee`. -/
structure Employee where
  id : Uuid
  name : String
  authUserId : Uuid
  deriving DecidableEq, Repr
