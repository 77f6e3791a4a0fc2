import OptScale.Clusters.Bind
import OptScale.Rest.Text

/-!
# Resources/SaveBulk — `CloudResourceController.save_bulk`

Incoming resources are looked up by id and by hash, bound to clusters, assigned, and then written in
bulk: with `skip_existing` and `update_existing` by upserts that leave a stored resource its
assignment and its cluster, with `error_existing` by insertion.  An environment is saved by the same
code with `error_existing`; it is shareable from the start.
-/

open Fallible ClusterTypeController

/-- `behavior` -/
inductive Behavior
  | error_existing
  | skip_existing
  | update_existing
  deriving DecidableEq, Repr

namespace CloudResourceController

variable (O : OrganizationContext) (R : RuleContext)

/-! ## Looking up -/

/-- The keys `_get_resources_by_hash_or_id` puts a stored resource under. -/
def keysOf (unique : Bool) (r : Resource) : Found :=
  match truthy r.cloudResourceId, truthy r.cloudResourceHash with
  | some id, some hash =>
    (id, r, .cloudResourceId) :: if unique then [] else [(hash, r, .cloudResourceHash)]
  | some id, none => [(id, r, .cloudResourceId)]
  | none, some hash => [(hash, r, .cloudResourceHash)]
  | none, none => []

/-- `get_resources_by_hash_or_id`: what is found by hash, then what is found by id. -/
def getResourcesByHashOrId (t : Resources) (cloudAccountId : Uuid) (resources : List Payload)
    (includeDeleted unique : Bool) : Found :=
  let rows := t.rows.filter fun r => r.cloudAccountId = some cloudAccountId ∧
    (includeDeleted = false → r.Live)
  let hashes := resources.filterMap fun p => truthy p.cloudResourceHash
  let ids := resources.filterMap fun p => truthy p.cloudResourceId
  (rows.filter fun r => ∃ hash ∈ r.cloudResourceHash, hash ∈ hashes).flatMap (keysOf unique) ++
    (rows.filter fun r => ∃ id ∈ r.cloudResourceId, id ∈ ids).flatMap (keysOf unique)

/-! ## The payload -/

/-- `check_string_attribute`, of a field that may be missing. -/
def checkString (field : String) (maxLen : ℕ) (value : Option String) : Except Failure Unit :=
  match value with
  | none => pure ()
  | some v => do
    require (¬ Text.isSpace v.toList) (.wrongArguments .OE0416 [field])
    require (1 ≤ v.length ∧ v.length ≤ maxLen)
      (.wrongArguments .OE0215 [field, "1-" ++ toString maxLen])

/-- What `save_bulk` differs in for environments. -/
structure Kind where
  /-- `EnvironmentResourceController`, with its `gen_cloud_resource_ids`: from name and type. -/
  environment : Option (Option String → String → String) := none

/-- `check_restrictions` -/
def checkRestrictions (K : Kind) (p : Payload) : Except Failure Unit := do
  checkString "resource_type" 255 (some p.resourceType)
  checkString "cloud_resource_id" 512 p.cloudResourceId
  checkString "cloud_resource_hash" 255 p.cloudResourceHash
  checkString "name" 512 p.name
  checkString "region" 255 p.region
  if K.environment.isSome then
    require p.name.isSome (.wrongArguments .OE0216 ["name"])
    require (p.shareable = none) (.wrongArguments .OE0211 ["shareable"])
    require (p.cloudResourceHash = none ∧ p.region = none)
      (.wrongArguments .OE0212 ["cloud_resource_hash", "region"])
  else
    require (p.shareable ≠ some true) (.wrongArguments .OE0479 ["shareable"])
    require (p.sshOnly = none) (.wrongArguments .OE0212 ["ssh_only"])

/-- `gen_cloud_resource_ids` -/
def genCloudResourceIds (K : Kind) (resources : List Payload) : Except Failure (List Payload) :=
  match K.environment with
  | none => .ok resources
  | some genId => resources.mapM fun p => do
    require (truthy p.cloudResourceId = none) (.wrongArguments .OE0211 ["cloud_resource_id"])
    pure { p with cloudResourceId := some (genId p.name p.resourceType) }

/-- The document of a payload, with the fields of `extend_payload`. -/
def extendPayload (K : Kind) (cloudAccountId id : Uuid) (p : Payload) : Resource where
  id := id
  cloudResourceId := p.cloudResourceId
  cloudResourceHash := p.cloudResourceHash
  cloudAccountId := some cloudAccountId
  name := p.name
  region := p.region
  resourceType := p.resourceType
  tags := p.tags.getD []
  active := p.active.getD K.environment.isSome
  shareable := K.environment.isSome || p.shareable.getD false
  isEnvironment := K.environment.isSome
  sshOnly := p.sshOnly.getD false
  poolId := p.poolId
  employeeId := p.employeeId
  firstSeen := p.firstSeen
  lastSeen := p.lastSeen

/-- The document in its cluster, with the cluster's assignment, or with an assignment of its own. -/
def assign (cluster : Option Resource) (r : Resource) : Except Failure Resource :=
  match cluster with
  | some c =>
    .ok { r with
      clusterId := some c.id
      poolId := c.poolId
      employeeId := c.employeeId
      appliedRules := some (c.appliedRules.getD []) }
  | none => RuleApplyController.handleAssignmentData R R.allowedPools r

/-! ## What is written -/

/-- An update of a stored document: `$min`, `$max` and `$set`. -/
structure Update where
  firstSeen : Option ℕ
  lastSeen : Option ℕ
  tags : Option Tags := none
  resourceType : Option String := none
  name : Option String := none
  region : Option String := none
  active : Option Bool := none
  shareable : Option Bool := none
  sshOnly : Option Bool := none
  cloudResourceId : Option String := none
  cloudResourceHash : Option String := none

/-- A date under `$min` or `$max`. -/
def mergeDate (f : ℕ → ℕ → ℕ) (old new : Option ℕ) : Option ℕ :=
  match old, new with
  | some o, some n => some (f o n)
  | old, new => new.or old

/-- The stored document after the update. -/
def Update.apply (u : Update) (r : Resource) : Resource :=
  { r with
    firstSeen := mergeDate min r.firstSeen u.firstSeen
    lastSeen := mergeDate max r.lastSeen u.lastSeen
    tags := u.tags.getD r.tags
    resourceType := u.resourceType.getD r.resourceType
    name := u.name.or r.name
    region := u.region.or r.region
    active := u.active.getD r.active
    shareable := u.shareable.getD r.shareable
    sshOnly := u.sshOnly.getD r.sshOnly
    cloudResourceId := u.cloudResourceId.or r.cloudResourceId
    cloudResourceHash := u.cloudResourceHash.or r.cloudResourceHash }

/-- A write: the documents it looks for, what becomes of the first of them, and the document that is
put where there is none. -/
structure Write where
  cloudAccountId : Uuid
  /-- The ids looked for, where there are some. -/
  cloudResourceId : Option String
  cloudResourceHash : Option String
  update : Update
  insertion : Resource

/-- The filter of the upsert. -/
def Write.matches (w : Write) (r : Resource) : Bool :=
  r.cloudAccountId = some w.cloudAccountId &&
    (∀ id ∈ truthy w.cloudResourceId, r.cloudResourceId = some id) &&
    (∀ hash ∈ truthy w.cloudResourceHash, r.cloudResourceHash = some hash)

/-- A date that comes in: `0` is no date, and one that is stored already is left alone. -/
def incomingDate (now : ℕ) (incoming stored : Option ℕ) : Option ℕ :=
  (incoming.or (stored.or (some now))).filter fun v => v ≠ 0 ∧ stored ≠ some v

/-- The ids an update of a stored resource looks for, and those it sets. -/
def splitIds (p : Payload) (db : Option Resource) :
    (Option String × Option String) × (Option String × Option String) :=
  match db with
  | none => ((truthy p.cloudResourceId, truthy p.cloudResourceHash), (none, none))
  | some r =>
    if truthy r.cloudResourceId = none ∧ truthy r.cloudResourceHash = none ∨
        p.cloudResourceId = r.cloudResourceId ∧ p.cloudResourceHash = r.cloudResourceHash then
      ((truthy p.cloudResourceId, truthy p.cloudResourceHash), (none, none))
    else if p.cloudResourceId = r.cloudResourceId then
      ((p.cloudResourceId, none), (none, truthy p.cloudResourceHash))
    else if p.cloudResourceHash = r.cloudResourceHash then
      ((none, p.cloudResourceHash), (truthy p.cloudResourceId, none))
    else ((none, none), (none, none))

/-- `split_changes`, and the filter that `_save_bulk` makes of what does not change. -/
def splitChanges (behavior : Behavior) (isReportImport : Bool) (now cloudAccountId : ℕ) (p : Payload)
    (doc : Resource) (db : Option Resource) : Write :=
  let firstSeen := incomingDate now p.firstSeen (db.bind Resource.firstSeen)
  let lastSeen := incomingDate now p.lastSeen (db.bind Resource.lastSeen)
  let tags := Tags.updateEncodedTags O.encoding ((db.map Resource.tags).getD []) doc.tags
    isReportImport
  let dated := { doc with firstSeen, lastSeen, tags := if db.isSome then [] else tags }
  let seen : Update := { firstSeen, lastSeen, tags := db.map fun _ => tags }
  match behavior with
  | .update_existing =>
    let ids := splitIds p db
    { cloudAccountId
      cloudResourceId := ids.1.1
      cloudResourceHash := ids.1.2
      update := { seen with
        resourceType := some p.resourceType
        name := p.name
        region := p.region
        active := p.active
        shareable := p.shareable
        cloudResourceId := ids.2.1
        cloudResourceHash := ids.2.2 }
      -- what is put for a stored resource has the stored `_id`, cluster and assignment
      insertion := match db with
        | none => dated
        | some r => { dated with
            id := r.id, clusterId := r.clusterId, poolId := r.poolId, employeeId := r.employeeId,
            appliedRules := r.appliedRules, deletedAt := r.deletedAt } }
  | _ =>
    { cloudAccountId
      cloudResourceId := p.cloudResourceId
      cloudResourceHash := p.cloudResourceHash
      update := seen
      insertion := dated }

/-- One upsert. -/
def Write.upsert (w : Write) (t : Resources) : Except Failure (Unit × Resources) :=
  match t.rows.find? w.matches with
  | some found => do
    require (∀ r ∈ t.rows, r.id ≠ found.id → r.uniqueKey ≠ (w.update.apply found).uniqueKey)
      (.python "BulkWriteError")
    pure ((), t.updateWhere (fun r => r.id = found.id) w.update.apply fun _ => rfl)
  | none => do
    let t' ← t.insert w.insertion
    pure ((), t')

/-- One insertion. -/
def Write.insertOne (w : Write) (t : Resources) : Except Failure (Unit × Resources) := do
  let t' ← t.insert w.insertion
  pure ((), t')

/-! ## `save_bulk` -/

/-- The `_id`s of `n` new documents. -/
def freshIds (genId : IdSource) : ℕ → List Uuid → List Uuid
  | 0, _ => []
  | n + 1, used => genId.next used :: freshIds genId n (genId.next used :: used)

/-- The stored counterpart of a payload. -/
def counterpart (found : Found) (p : Payload) : Option Resource :=
  ((p.cloudResourceHash.bind found.get).or (p.cloudResourceId.bind found.get)).map (·.1)

/-- The document and the write of one incoming resource. -/
def prepare (K : Kind) (behavior : Behavior) (isReportImport : Bool) (now cloudAccountId : ℕ)
    (found : Found) (clusterOf : String → Option Resource) (p : Payload × Uuid) :
    Except Failure Write := do
  checkRestrictions K p.1
  let doc ← assign R (p.1.uniqueId.bind clusterOf) (extendPayload K cloudAccountId p.2 p.1)
  let doc := { doc with tags := Tags.encoded O.encoding doc.tags }
  pure (splitChanges O behavior isReportImport now cloudAccountId p.1 doc (counterpart found p.1))

/-- The bulk write.  What is refused is tried again; at last the new documents are taken back. -/
def write (behavior : Behavior) (newIds allIds : List Uuid) (writes : List Write) :
    Session Resources Failure Unit :=
  match behavior with
  | .error_existing =>
    Session.onRefusal (writes.forM fun w => Session.commit w.insertOne) (·.deleteMany allIds)
  | _ =>
    Session.onRefusal (Session.retry (writes.forM fun w => Session.commit w.upsert) 9)
      (·.deleteMany newIds)

/-- What `save_bulk` is given. -/
structure SaveBulkArgs where
  cloudAccountId : Uuid
  resources : List Payload
  behavior : Behavior
  isReportImport : Bool := false
  now : ℕ

/-- `_save_bulk` -/
def saveBulkRows (K : Kind) (types : List ClusterType) (a : SaveBulkArgs)
    (resources : List Payload) : Session Resources Failure Unit := do
  let includeDeleted : Bool := a.behavior ≠ .error_existing
  let lookup unique := Session.read fun t =>
    .ok (getResourcesByHashOrId t a.cloudAccountId resources includeDeleted unique)
  let found ← lookup false
  let uniqueFound ← lookup true
  let bound ← ClusterTypeController.bindClusters O R types resources uniqueFound a.isReportImport
    a.now
  let ids ← Session.read fun t =>
    .ok (freshIds O.genId resources.length (t.rows.map Resource.id))
  let incoming := bound.resources.zip ids
  let writes ← Session.read fun _ => incoming.mapM
    (prepare O R K a.behavior a.isReportImport a.now a.cloudAccountId found bound.clusterOf)
  let newIds := (incoming.filter fun p => (counterpart found p.1).isNone).map (·.2)
  write a.behavior newIds ids writes

/-- `save_bulk` -/
def saveBulk (K : Kind) (types : List ClusterType) (a : SaveBulkArgs) :
    Session Resources Failure Unit := do
  let resources ← Session.read fun _ => genCloudResourceIds K a.resources
  Session.read fun _ => require (a.cloudAccountId ∈ O.cloudAccounts) (.python "KeyError")
  Session.read fun _ => require
    (∀ p ∈ resources, ¬ (p.cloudResourceId = none ∧ p.cloudResourceHash = none))
    (.wrongArguments .OE0517 ["cloud_resource_id", "cloud_resource_hash"])
  if resources = [] then pure ()
  else saveBulkRows O R K types a resources

end CloudResourceController
