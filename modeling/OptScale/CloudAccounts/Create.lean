import OptScale.Pools.Pool
import OptScale.Rules.Rule

/-!
# CloudAccounts/Create — `CloudAccountController.create`

A data source is checked, stored with its cost model and its discovery infos, and then given a pool
and a rule of its own.  Every one of these is committed by itself.
-/

open Fallible

/-- A value of a JSON object, as far as a cost model's check tells values apart. -/
inductive Json
  | null
  | number
  | other
  deriving DecidableEq, Repr

/-- The `cost_model` of a configuration. -/
inductive CostModelValue
  | null
  | object (entries : List (String × Json))
  /-- Anything else; `falsy` if it counts as false. -/
  | other (falsy : Bool)
  deriving DecidableEq, Repr

namespace CostModelController

/-- The check of one value, under its name. -/
def checkValue (param : String) : Json → Except Failure Unit
  | .null => .error (.wrongArguments .OE0216 ["value." ++ param])
  | .other => .error (.wrongArguments .OE0466 ["value." ++ param])
  | .number => .ok ()

/-- `CloudBasedCostModelController._get_validation_map`, whose values are numbers. -/
def cloudParams : List String := ["cpu_hourly_cost", "memory_hourly_cost"]

/-- `CostModelController._validate_model` -/
def validateModel (params : List String) : CostModelValue → Except Failure Unit
  | .null => .error (.wrongArguments .OE0216 ["value"])
  | .other _ => .error (.wrongArguments .OE0344 ["value"])
  | .object entries => do
    require (params.length = entries.length)
      (.wrongArguments .OE0212 ((entries.filter (·.1 ∉ params)).map ("value." ++ ·.1)))
    params.forM fun param => checkValue param ((entries.lookup param).getD .null)

/-- `CloudBasedCostModelController.create`, its check: nothing is replaced by the default. -/
def checkCloudBased : CostModelValue → Except Failure Unit
  | .null | .object [] | .other true => .ok ()
  | value => validateModel cloudParams value

/-- `SkuBasedCostModelController._validate_model` -/
def checkSkuBased : CostModelValue → Except Failure Unit
  | .null => .error (.wrongArguments .OE0216 ["value"])
  | .other _ => .error (.wrongArguments .OE0344 ["value"])
  | .object entries => entries.forM fun entry => checkValue entry.1 entry.2

end CostModelController

namespace CloudAccountController

/-- What `create` is given, and what the adapter of the type makes of the configuration. -/
structure CreateArgs where
  organizationId : Uuid
  name : Text
  type : CloudType
  parentId : Option Uuid := none
  autoImport : Bool := true
  /-- Given, and true. -/
  processRecommendations : Bool := false
  costModel : CostModelValue := .object []
  /-- `handle_config`: the account id and the warnings. -/
  handleConfig : Except Failure (Option Text × List String)
  /-- `_configure_report`: its warnings. -/
  configureReport : Except Failure (List String)
  /-- The resource types of `initialize_discovery_infos`. -/
  discoveryTypes : List String := []
  /-- `_schedule_report_import` -/
  scheduleReportImport : Except Failure Unit := .ok ()
  /-- `send_cloud_account_email` -/
  sendEmail : Except Failure Unit := .ok ()

variable (S : Services)

/-! ## The input checks -/

/-- `account_id == account_id`, in the database: no id is `NULL`. -/
def sameAccountId : Option Text → Option Text → Bool
  | none, none => true
  | some x, some y => S.collation.equal x y
  | _, _ => false

/-- `check_cloud_account_exists`: the account the credentials belong to is not connected yet. -/
def checkCloudAccountExists (db : Database) (a : CreateArgs) (accountId : Option Text) :
    Except Failure Unit :=
  require (∀ c ∈ db.cloudAccounts.rows, c.deletedAt = 0 → c.type = a.type →
      c.organizationId = a.organizationId → sameAccountId S c.accountId accountId = false)
    (.conflict .OE0402 [])

/-- `_validate`, for a new account. -/
def validate (db : Database) (a : CreateArgs) : Except Failure Unit := do
  require (∀ c ∈ db.cloudAccounts.rows, c.deletedAt = 0 → c.organizationId = a.organizationId →
      S.collation.equal c.name a.name = false)
    (.conflict .OE0404 [String.ofList a.name, toString a.organizationId])
  require (¬ (a.type = .ENVIRONMENT ∧ a.processRecommendations)) (.failedDependency .OE0476 [])
  require (∀ parentId ∈ a.parentId, ∃ c ∈ db.cloudAccounts.rows, c.id = parentId ∧ c.deletedAt = 0)
    (.notFound .OE0005 ["CloudAccount", toString (a.parentId.getD 0)])

/-- All that `create` checks before it stores anything; the account to store and the warnings. -/
def checkCreate (a : CreateArgs) (db : Database) : Except Failure (CloudAccount × List String) := do
  require (S.organization a.organizationId)
    (.notFound .OE0005 ["Organization", toString a.organizationId])
  let (accountId, warnings) ← a.handleConfig
  checkCloudAccountExists S db a accountId
  Text.notWhiteSpaceString "name" a.name
  validate S db a
  let more ← a.configureReport
  pure (
    { id := S.genId.next
        (db.cloudAccounts.rows.map CloudAccount.id ++ db.costModels.rows.map CostModel.id)
      name := a.name
      type := a.type
      organizationId := a.organizationId
      accountId := accountId
      parentId := a.parentId
      autoImport := a.autoImport && a.type ≠ .AZURE_TENANT && a.type ≠ .GCP_TENANT },
    warnings ++ more)

/-! ## The account, its cost model and its discovery infos -/

/-- `c_type_ctrl_map`: the type of the account's cost model and the check of its value. -/
def costModelCtrl : CloudType → Option (CostModelType × (CostModelValue → Except Failure Unit))
  | .KUBERNETES_CNR => some (.CLOUD_ACCOUNT, CostModelController.checkCloudBased)
  | .DATABRICKS => some (.SKU, CostModelController.checkSkuBased)
  | _ => none

/-- Store a row under an id that is not in use. -/
def insert {α : Type*} {key : α → Uuid} (t : Table key) (row : α) : Except Failure (Table key) :=
  orFail (t.insert? row) (.wrongArguments .OE0003 [])

/-- The first commit: the account, with its cost model where its type has one. -/
def storeAccount (a : CreateArgs) (ca : CloudAccount) (db : Database) :
    Except Failure (CloudAccount × Database) :=
  match costModelCtrl ca.type with
  | none => do
    let cloudAccounts ← insert db.cloudAccounts ca
    pure (ca, { db with cloudAccounts })
  | some (type, check) => do
    check a.costModel
    let stored := { ca with costModelId := some ca.id }
    let cloudAccounts ← insert db.cloudAccounts stored
    let costModels ← insert db.costModels { id := ca.id, organizationId := ca.organizationId, type }
    pure (stored, { db with cloudAccounts, costModels })

/-- The second commit: `initialize_discovery_infos`. -/
def storeDiscoveryInfos (a : CreateArgs) (ca : CloudAccount) (db : Database) :
    Except Failure (Unit × Database) :=
  if ca.type = .ENVIRONMENT then .ok ((), db)
  else .ok ((), { db with
    discoveryInfos := db.discoveryInfos ++ a.discoveryTypes.map fun t =>
      { cloudAccountId := ca.id, resourceType := t } })

/-! ## The pool's name -/

/-- The live pools of the organization whose name starts with the account's, the latest first. -/
def poolsForCloud (pools : Table Pool.id) (ca : CloudAccount) : List Pool :=
  (pools.rows.filter fun p => ¬ p.Deleted ∧ S.collation.startsWith ca.name p.name ∧
    p.organizationId = ca.organizationId).insertionSort fun p q => q.createdAt ≤ p.createdAt

/-- The name after `name`: the number at its end raised, or ` 1` put there. -/
def nextName (name : Text) : Except Failure Text := do
  let last ← orFail (Text.words name).getLast? (.python "IndexError")
  if last.isDigit then
    pure (name.take (name.length - last.length) ++ Text.ofNat (last.toNat + 1))
  else pure (name ++ [' ', '1'])

/-- `_generate_pool_name` -/
def generatePoolName (pools : Table Pool.id) (ca : CloudAccount) : Except Failure Text :=
  match (poolsForCloud S pools ca).head? with
  | none => pure ca.name
  | some pool => nextName pool.name

/-! ## The pool and the rule -/

/-- The pool the account's own pool goes under. -/
def parentPool (pools : Table Pool.id) (ca : CloudAccount) : Option Pool :=
  S.organizationPool ca.organizationId >>= pools.get?

/-- The user the rule is created for and the owner of the pool: the parent pool's owner for a child
account, the caller otherwise. -/
def defaultEmployee (ca : CloudAccount) (parent : Option Pool) :
    Except Failure (Option Uuid × Employee) :=
  if ca.parentId.isSome then do
    let parent ← orFail parent (.python "AttributeError")
    let owner ← orFail (parent.defaultOwnerId >>= S.defaultOwner) (.python "AttributeError")
    pure (some owner.authUserId, owner)
  else do
    let userId ← S.userId
    let employee ← orFail (S.employeeByUser userId ca.organizationId) (.forbidden .OE0378 [])
    pure (userId, employee)

/-- The name of the account's rule. -/
def ruleName (ca : CloudAccount) : Text :=
  "Rule for ".toList ++ ca.name ++ ['_'] ++ Text.ofNat S.now

/-- What is asked of `create_rule`. -/
def ruleArgs (ca : CloudAccount) (userId : Option Uuid) (pool : Pool) (owner : Employee) :
    RuleController.CreateArgs where
  userId := userId
  organizationId := pool.organizationId
  name := ruleName S ca
  ownerId := owner.id
  poolId := pool.id
  metaInfo := Text.ofNat ca.id

/-- What is left of `create` when pool and rule are stored. -/
def announce (a : CreateArgs) (ca : CloudAccount) (warnings : List String) :
    Except Failure Unit := do
  if ca.autoImport then a.scheduleReportImport
  warnings.forM fun _ => S.publish "cloud_account_warning"
  S.publish "cloud_account_created"
  a.sendEmail

/-- The account and what belongs to it are stored before anything else. -/
def storeRows (a : CreateArgs) (ca : CloudAccount) : Session Database Failure CloudAccount := do
  let ca ← Session.commit (storeAccount a ca)
  Session.commit (storeDiscoveryInfos a ca)
  pure ca

/-- The part of `create` that runs when the account is stored. -/
def connect (a : CreateArgs) (ca : CloudAccount) (warnings : List String) :
    Session Database Failure CloudAccount := do
  let (userId, owner) ← Session.read fun db => defaultEmployee S ca (parentPool S db.pools ca)
  let name ← Session.read fun db => generatePoolName S db.pools ca
  let parent ← Session.read fun db =>
    orFail (parentPool S db.pools ca) (.python "AttributeError")
  let pool ← PoolController.create S ca.organizationId parent.id name owner.id
  let _ ← RuleController.createRule S (ruleArgs S ca userId pool owner)
  Session.read fun _ => announce S a ca warnings
  pure ca

/-- `CloudAccountController.create` -/
def create (a : CreateArgs) : Session Database Failure CloudAccount := do
  let (ca, warnings) ← Session.read (checkCreate S a)
  let ca ← storeRows a ca
  connect S a ca warnings

end CloudAccountController
