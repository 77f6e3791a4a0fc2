import OptScale.Clusters.Bind

/-!
# Clusters/Apply — `reapply_clusters`, and the deletion of a cluster type

All live resources that carry the tag key of a cluster type are put into the clusters their tags
name: clusters are brought up to date or created, resources that change their cluster get its
assignment and lose what was theirs alone, everybody else leaves, and clusters that are left empty
are deleted.
-/

open Fallible

/-! ## `reapply_clusters` -/

namespace ClusterTypeApplyController

open ClusterTypeController

variable (O : OrganizationContext) (R : RuleContext)

/-- A cluster of `clusters_map`, with what the maps beside it have under its `cloud_resource_id`. -/
structure Entry where
  cid : Option String
  cluster : Resource
  start : Inherited := {}
  changes : List (Inherited × ℕ) := []
  resources : List Resource := []
  clusterType : Option ClusterType := none

/-- `clusters_map[c['cloud_resource_id']] = c` -/
def putCluster (entries : List Entry) (c : Resource) : List Entry :=
  if entries.any (·.cid = c.cloudResourceId) then
    entries.map fun e => if e.cid = c.cloudResourceId then { e with cluster := c } else e
  else entries ++ [{ cid := c.cloudResourceId, cluster := c }]

/-- `get_tag_cluster_type_map`, by encoded keys. -/
def tagClusterTypeMap (types : List ClusterType) : String → Option ClusterType :=
  getTagClusterTypeMap types fun t => O.encoding.encode t.tagKey

/-- The clusters that are there already. -/
def existingClusters (types : List ClusterType) (t : Resources) : List Entry :=
  let mapped := types.filter fun c =>
    tagClusterTypeMap O types (O.encoding.encode c.tagKey) = some c
  let clusters := t.rows.filter fun r =>
    (∃ c ∈ mapped, r.clusterTypeId = some c.id) ∧ r.Live
  (clusters.map resetInherited).foldl putCluster []

/-- The resources to be clustered. -/
def taggedResources (types : List ClusterType) (t : Resources) : List Resource :=
  t.rows.filter fun r => (∃ a ∈ O.cloudAccounts, r.cloudAccountId = some a) ∧ r.Live ∧
    r.clusterTypeId = none ∧ r.tags.any fun tag => (tagClusterTypeMap O types tag.1).isSome

/-- One turn of the loop over the resources. -/
def addResource (types : List ClusterType) (entries : List Entry) (resource : Resource × ℕ) :
    List Entry :=
  let (r, number) := resource
  match getResourceClusterType r.tags (tagClusterTypeMap O types) with
  | none => entries
  | some cType =>
    let name := (r.tags.lookup (O.encoding.encode cType.tagKey)).getD ""
    let cid := some (getClusterCloudResourceId cType.name name)
    let add (e : Entry) : Entry := { e with
      changes := e.changes ++ [(inheritedOf r, number)]
      resources := e.resources ++ [r]
      clusterType := some cType }
    if entries.any (·.cid = cid) then entries.map fun e => if e.cid = cid then add e else e
    else entries ++ [add
      { cid, cluster := fillCluster O cType name, start := { active := some false } }]

/-- The maps after the loop. -/
def entries (types : List ClusterType) (t : Resources) : List Entry :=
  (taggedResources O types t).zipIdx.foldl (addResource O types) (existingClusters O types t)

/-- The upsert of a cluster. -/
def Entry.store (e : Entry) (t : Resources) : Except Failure (Resource × Resources) :=
  let inherited := (setClusterLifetimeFields e.start e.changes).cluster
  storeCluster O R e.cluster { inherited with tags := Tags.decoded O.encoding inherited.tags } t

/-- The loop over `clusters_map`. -/
def storeEntries : List Entry → Session Resources Failure (List (Entry × Resource))
  | [] => pure []
  | e :: es => do
    let cluster ← Session.commit (e.store O R)
    let stored ← storeEntries es
    pure ((e, cluster) :: stored)

/-- `clustered_resource_ids` -/
def clusteredResourceIds (stored : List (Entry × Resource)) : List Uuid :=
  stored.flatMap fun p => p.1.resources.map Resource.id

/-- The resources that change their cluster, each with the new one. -/
def newClustered (stored : List (Entry × Resource)) : List (Resource × Resource) :=
  stored.flatMap fun p =>
    (p.1.resources.filter fun r => r.clusterId ≠ some p.2.id).map fun r => (r, p.2)

/-- A resource enters a cluster; one that was read as shareable is no longer so. -/
def enter (read cluster r : Resource) : Resource :=
  { r with
    poolId := cluster.poolId
    employeeId := cluster.employeeId
    clusterId := some cluster.id
    appliedRules := some (cluster.appliedRules.getD [])
    shareable := if read.shareable then false else r.shareable }

/-- The writes of `resource_update_chunk`. -/
def enterClusters (updates : List (Resource × Resource)) (t : Resources) : Resources :=
  updates.foldl (fun t u => t.updateWhere (fun r => r.id = u.1.id) (enter u.1 u.2) fun _ => rfl) t

/-- The resources of the data sources that are in no cluster any more leave theirs. -/
def leaveClusters (clusteredIds : List Uuid) (t : Resources) : Resources :=
  t.updateWhere (fun r => (∃ a ∈ O.cloudAccounts, r.cloudAccountId = some a) ∧
    r.id ∉ clusteredIds ∧ r.clusterId.isSome) (fun r => { r with clusterId := none }) fun _ => rfl

/-- `delete_empty_clusters` -/
def deleteEmptyClusters (now : Timestamp) (t : Resources) : Resources :=
  let clusterIds := (t.rows.filter fun r =>
    ∃ a ∈ O.cloudAccounts, r.cloudAccountId = some a).filterMap Resource.clusterId
  t.updateWhere (fun r => r.id ∉ clusterIds ∧ r.organizationId = some O.organizationId ∧
    r.clusterTypeId.isSome ∧ r.Live) (fun r => { r with deletedAt := now }) fun _ => rfl

/-- `invalidate_assignment_requests` -/
def invalidateAssignmentRequests (ids : List Uuid) (now : Timestamp)
    (requests : Table AssignmentRequest.id) : Table AssignmentRequest.id :=
  requests.updateWhere (fun q => q.deletedAt = 0 ∧ q.status = .PENDING ∧ q.resourceId ∈ ids)
    (fun q => { q with status := .CANCELED, deletedAt := now }) fun _ => rfl

/-- `delete_resources_constraints` -/
def deleteResourcesConstraints (ids : List Uuid) (constraints : Table ResourceConstraint.id) :
    Table ResourceConstraint.id :=
  constraints.deleteWhere fun c =>
    c.deletedAt = 0 ∧ c.organizationId = O.organizationId ∧ c.resourceId ∈ ids

/-- `delete_shareable_booking` -/
def deleteShareableBooking (ids : List Uuid) (now : Timestamp) (bookings : Bookings) : Bookings :=
  bookings.updateWhere (fun b => b.deletedAt = 0 ∧ b.resourceId ∈ ids)
    (fun b => { b with deletedAt := now }) fun _ => rfl

/-- What follows once the clusters are stored. -/
def settle (stored : List (Entry × Resource)) (now : Timestamp) (s : Store) : Store :=
  let new := newClustered stored
  let ids := new.map (·.1.id)
  let entered := enterClusters new s.resources
  let left := leaveClusters O (clusteredResourceIds stored) entered
  { s with
    resources := deleteEmptyClusters O now left
    requests := invalidateAssignmentRequests ids now s.requests
    constraints := deleteResourcesConstraints O ids s.constraints
    bookings := deleteShareableBooking ids now s.bookings }

/-- An entry of `cluster_types_apply_stat`. -/
structure ClusterTypeStat where
  id : Uuid
  name : String
  clusteredResourcesCount : ℕ
  clustersCount : ℕ
  deriving DecidableEq, Repr

/-- `cluster_types_apply_stat` -/
def applyStat (stored : List (Entry × Resource)) : List ClusterTypeStat :=
  stored.foldl (fun stats p =>
    match p.1.clusterType with
    | none => stats
    | some c =>
      let count := p.1.resources.length
      if stats.any (·.id = c.id) then
        stats.map fun s => if s.id = c.id then
          { s with
            clusteredResourcesCount := s.clusteredResourcesCount + count
            clustersCount := s.clustersCount + 1 } else s
      else stats ++ [⟨c.id, c.name, count, 1⟩]) []

/-- `fill_response` -/
structure Response where
  processedResources : ℕ
  processedClusterTypes : List ClusterTypeStat
  deriving DecidableEq, Repr

/-- What `reapply_clusters` finds around it. -/
structure Surroundings where
  /-- `get_employee_by_user_and_organization` -/
  employee : Except Failure Unit
  /-- `publish_activities_task`, by its action. -/
  publish : String → Except Failure Unit
  now : Timestamp

/-- `reapply_clusters` -/
def reapplyClusters (E : Surroundings) : Session Store Failure Response := do
  let types ← Session.read fun s => .ok (listTypes s.clusterTypes O.organizationId)
  if O.cloudAccounts = [] ∨ types = [] then pure ⟨0, []⟩
  else
    Session.read fun _ => E.employee
    Session.read fun _ => E.publish "cluster_types_processing_started"
    let entries ← Session.read fun s => .ok (entries O types s.resources)
    let total ← Session.read fun s => .ok (taggedResources O types s.resources).length
    let stored ← Session.within Store.resources (fun t s => { s with resources := t })
      (storeEntries O R entries)
    Session.read fun _ => (applyStat stored).forM fun _ => E.publish "cluster_type_applied"
    Session.commit fun s => .ok ((), settle O stored E.now s)
    Session.read fun _ => E.publish "cluster_types_processing_done"
    pure ⟨total, applyStat stored⟩

end ClusterTypeApplyController

/-! ## A cluster type is deleted -/

namespace ClusterTypeController

/-- `set_priority` -/
def setPriority (types : Table ClusterType.id) (all : List ClusterType) (item : ClusterType)
    (priority : ℕ) : Except Failure (Table ClusterType.id) := do
  let maxPriority := (all.map ClusterType.priority).foldl max 0
  require (1 ≤ priority ∧ priority ≤ maxPriority) (.wrongArguments .OE0217 ["priority"])
  if item.priority = priority then pure types
  else
    let ids := ((all.map ClusterType.id).erase item.id).insertIdx (priority - 1) item.id
    pure (types.updateWhere (fun t => t.id ∈ ids)
      (fun t => { t with priority := ids.idxOf t.id + 1 }) fun _ => rfl)

/-- `delete_clusters` -/
def deleteClusters (clusterTypeId : Uuid) (now : Timestamp) (t : Resources) : Resources :=
  let clusterIds :=
    (t.rows.filter fun r => r.clusterTypeId = some clusterTypeId).map Resource.id
  let left := t.updateWhere (fun r => ∃ c ∈ r.clusterId, c ∈ clusterIds)
    (fun r => { r with clusterId := none }) fun _ => rfl
  left.updateWhere (fun r => r.id ∈ clusterIds)
    (fun r => { r with active := false, deletedAt := now }) fun _ => rfl

/-- `delete`, of a cluster type. -/
def delete (publish : String → Except Failure Unit) (itemId : Uuid) (now : Timestamp) :
    Session Store Failure Unit := do
  Session.commit fun s => do
    let item ← orFail (s.clusterTypes.rows.find? fun t => t.id = itemId ∧ t.deletedAt = 0)
      (.python "AttributeError")
    let all := (listTypes s.clusterTypes item.organizationId).mergeSort
      fun t u => t.priority ≤ u.priority
    let types ← (if item.priority ≠ all.length then setPriority s.clusterTypes all item all.length
      else pure s.clusterTypes : Except Failure (Table ClusterType.id))
    let types := types.updateWhere (fun t => t.id = itemId) (fun t => { t with deletedAt := now })
      fun _ => rfl
    pure ((), { s with clusterTypes := types })
  let modified ← Session.read fun s =>
    .ok (s.resources.rows.any fun r =>
      ∃ k ∈ s.resources.rows, k.clusterTypeId = some itemId ∧ r.clusterId = some k.id)
  Session.commit fun s => .ok ((), { s with resources := deleteClusters itemId now s.resources })
  Session.read fun _ => if modified then publish "cluster_resources_deleted" else .ok ()

end ClusterTypeController
