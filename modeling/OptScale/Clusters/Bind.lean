import OptScale.Resources.Store
import OptScale.Rules.Assignment

/-!
# Clusters/Bind — `ClusterTypeController.bind_clusters`

Incoming resources are put into clusters: a known one stays in the cluster it is stored with, a new
one goes by its tags.  The clusters are brought up to date or created, each with the assignment the
rules give it; a cluster that is there already keeps its own.
-/

open Fallible

namespace ClusterTypeController

variable (O : OrganizationContext) (R : RuleContext)

/-! ## One cluster -/

/-- `get_or_create`.  `$setOnInsert` leaves a cluster that is there its assignment; the id of a new
one is generated with it. -/
def getOrCreate (cluster : Resource) (inherited : Inherited) (t : Resources) :
    Except Failure (Resource × Resources) :=
  match t.rows.find? fun r => r.clusterTypeId = cluster.clusterTypeId ∧
      r.cloudResourceId = cluster.cloudResourceId ∧ r.deletedAt = cluster.deletedAt with
  | some found =>
    pure (setInherited inherited found,
      t.updateWhere (fun r => r.id = found.id) (setInherited inherited) fun _ => rfl)
  | none => do
    let new := setInherited inherited
      { cluster with id := O.genId.next (t.rows.map Resource.id) }
    let t' ← t.insert new
    pure (new, t')

/-- `_fill_cluster`; the id comes with the document. -/
def fillCluster (clusterType : ClusterType) (name : String) : Resource where
  id := 0
  organizationId := some O.organizationId
  clusterTypeId := some clusterType.id
  resourceType := clusterType.name
  active := false
  cloudResourceId := some (getClusterCloudResourceId clusterType.name name)

/-- The cluster with the fields its members give it taken out. -/
def resetInherited (cluster : Resource) : Resource :=
  { cluster with active := false, firstSeen := none, lastSeen := none, tags := [] }

/-- A cluster to be brought up to date, with the changes its resources bring; a change is numbered
by its resource. -/
structure Definition where
  cid : String
  cluster : Resource
  /-- What the cluster starts from: a new one is not active. -/
  start : Inherited
  changes : List (Inherited × ℕ)

/-- The cluster as the rules see it: with what its changes give it. -/
def Definition.merging (d : Definition) : Merging := setClusterLifetimeFields d.start d.changes

/-- The assignment of a cluster by the rules, and its upsert. -/
def storeCluster (cluster : Resource) (inherited : Inherited) (t : Resources) :
    Except Failure (Resource × Resources) := do
  let assigned ← RuleApplyController.handleAssignmentData R (fun _ => [])
    (setInherited inherited cluster)
  getOrCreate O assigned { inherited with tags := Tags.encoded O.encoding inherited.tags } t

/-- The cluster with what its changes give it. -/
def Definition.store (d : Definition) (t : Resources) : Except Failure (Resource × Resources) :=
  storeCluster O R d.cluster d.merging.cluster t

/-! ## The definitions -/

/-- Stored resources, each with the field it was found by, under the value of that field. -/
abbrev Found := List (String × Resource × IdField)

/-- The resource under a value: the last one put there. -/
def Found.get (found : Found) (key : String) : Option (Resource × IdField) :=
  ((found.filter (·.1 = key)).getLast?).map (·.2)

/-- What the pass over the incoming resources gathers. -/
structure Gathered where
  definitions : List Definition := []
  /-- `rss_cluster_requirement_map` -/
  requirements : List (String × String) := []
  exclusions : List String := []
  /-- The tags of the incoming resources, as the pass leaves them. -/
  tags : List (Option Tags) := []

/-- Put a change to the definition of a cluster, made afresh if there is none. -/
def addChange (definitions : List Definition) (fresh : Definition) (change : Inherited × ℕ) :
    List Definition :=
  if definitions.any (·.cid = fresh.cid) then
    definitions.map fun d =>
      if d.cid = fresh.cid then { d with changes := d.changes ++ [change] } else d
  else definitions ++ [{ fresh with changes := [change] }]

/-- The cluster of one incoming resource: that of the stored resource, under the field it was found
by, or the one its tags name. -/
def clusterOf (types : List ClusterType) (clusters : List Resource) (p : Payload)
    (found : Option (Resource × IdField)) : Option Definition :=
  match found with
  | some (dbResource, uniqueField) => do
    let clusterId ← dbResource.clusterId
    let cluster ← clusters.find? (·.id = clusterId)
    let cid ← truthy (cluster.idField uniqueField)
    pure ⟨cid, resetInherited cluster, {}, []⟩
  | none => do
    let tags := p.tags.getD []
    let clusterType ← getResourceClusterType tags (getTagClusterTypeMap types ClusterType.tagKey)
    let cluster := fillCluster O clusterType ((tags.lookup clusterType.tagKey).getD "")
    let cid ← cluster.cloudResourceId
    pure ⟨cid, cluster, { active := some false }, []⟩

/-- What a resource brings to its cluster. -/
def changeOf (now : ℕ) (p : Payload) (tags : Tags) (found : Option (Resource × IdField)) :
    Inherited where
  active := some (p.active.getD false)
  firstSeen := (p.firstSeen.filter (· ≠ 0)).or
    (((found.map (·.1)).bind Resource.firstSeen).or (some now))
  -- a missing date is looked up in the stored resource, but not taken over
  lastSeen := p.lastSeen
  tags := tags

/-- One turn of the pass over the incoming resources. -/
def gather (types : List ClusterType) (clusters : List Resource) (found : Found)
    (isReportImport : Bool) (now : ℕ) (g : Gathered) (p : Payload × ℕ) : Gathered :=
  match p.1.uniqueId with
  | none => { g with tags := g.tags ++ [p.1.tags] }
  | some uniqueId =>
    let db := found.get uniqueId
    match clusterOf O types clusters p.1 db with
    | none => { g with tags := g.tags ++ [p.1.tags] }
    | some fresh =>
      let dbTags := (db.map fun f => Tags.decoded O.encoding f.1.tags).getD []
      let tags := Tags.updateTags dbTags (p.1.tags.getD []) isReportImport
      { definitions := addChange g.definitions fresh (changeOf now p.1 tags db, p.2)
        requirements := g.requirements ++ [(uniqueId, fresh.cid)]
        exclusions := if db.isSome then g.exclusions ++ [uniqueId] else g.exclusions
        tags := g.tags ++ [p.1.tags.map fun _ => tags] }

/-- The live clusters of the stored resources. -/
def dbClusters (found : Found) (t : Resources) : List Resource :=
  let ids := found.filterMap fun entry => (found.get entry.1).bind fun f => f.1.clusterId
  t.rows.filter fun r => r.id ∈ ids ∧ r.Live

/-- What the changes of its cluster leave of the tags of a resource. -/
def tagsLeft (definitions : List Definition) (number : ℕ) (tags : Option Tags) : Option Tags :=
  tags.map fun own =>
    definitions.foldl (fun tags d => d.merging.tagsOf number tags) own

/-! ## The clusters' other members -/

/-- What the members that do not come in give a cluster. -/
def memberChanges (t : Resources) (exclusions : List String) (clusterId : Uuid) :
    List (Inherited × ℕ) :=
  ((t.rows.filter fun r => r.clusterId = some clusterId ∧ r.Live ∧
      (∀ id ∈ r.cloudResourceId, id ∉ exclusions) ∧
      ∀ hash ∈ r.cloudResourceHash, hash ∉ exclusions).map inheritedOf).zipIdx

/-- The update of a cluster by `sync_clusters`. -/
def syncCluster (t : Resources) (exclusions : List String) (cluster : Resource) : Resource :=
  match memberChanges t exclusions cluster.id with
  | [] => cluster
  | changes =>
    setInherited (setClusterLifetimeFields (inheritedOf cluster) changes).cluster cluster

theorem syncCluster_id (t : Resources) (exclusions : List String) (cluster : Resource) :
    (syncCluster t exclusions cluster).id = cluster.id := by
  unfold syncCluster
  split <;> rfl

/-- `sync_clusters`: the collection after it. -/
def syncClusters (clusterIds : List Uuid) (exclusions : List String) (t : Resources) : Resources :=
  t.updateWhere (fun r => r.id ∈ clusterIds) (syncCluster t exclusions)
    (syncCluster_id t exclusions)

/-! ## `bind_clusters` -/

/-- What `bind_clusters` hands to `_save_bulk`. -/
structure Bound where
  /-- `resource_cluster_map` -/
  clusterOf : String → Option Resource
  /-- The incoming resources: their tags have been through the clusters. -/
  resources : List Payload

/-- Store the clusters one after the other. -/
def storeDefinitions : List Definition → Session Resources Failure (List Uuid)
  | [] => pure []
  | d :: definitions => do
    let cluster ← Session.commit (d.store O R)
    let ids ← storeDefinitions definitions
    pure (cluster.id :: ids)

/-- `ClusterTypeController.bind_clusters` -/
def bindClusters (types : List ClusterType) (resources : List Payload) (found : Found)
    (isReportImport : Bool) (now : ℕ) : Session Resources Failure Bound := do
  let clusters ← Session.read fun t => .ok (dbClusters found t)
  let g := resources.zipIdx.foldl (gather O types clusters found isReportImport now) {}
  let ids ← storeDefinitions O R g.definitions
  let clusterIds := clusters.map Resource.id ++ ids
  Session.commit fun t => .ok ((), syncClusters clusterIds g.exclusions t)
  Session.read fun t =>
    let docs := t.rows.filter fun r => r.id ∈ clusterIds ∧ r.Live
    .ok {
      clusterOf := fun uniqueId => do
        let requirement ← (g.requirements.filter (·.1 = uniqueId)).getLast?
        (docs.filter (·.cloudResourceId = some requirement.2)).getLast?
      resources := (resources.zip g.tags.zipIdx).map fun p =>
        { p.1 with tags := tagsLeft g.definitions p.2.2 p.2.1 } }

end ClusterTypeController
