import OptScale.Resources.Tags
import OptScale.Rest.Database

/-!
# Clusters/ClusterType — cluster types, and what a cluster has from its members

A cluster type names a tag key; resources that carry the key belong to the cluster of the key's
value.  Where a resource carries several keys the type of the smallest priority number decides.
A cluster's tags, its activity and its dates are those of its members.
-/

/-- A row of `cluster_type`. -/
structure ClusterType where
  id : Uuid
  name : String
  tagKey : String
  priority : ℕ
  organizationId : Uuid
  deletedAt : ℕ := 0
  deriving DecidableEq, Repr

namespace ClusterTypeController

/-! ## The type of a resource -/

/-- The live cluster types of the organization. -/
def listTypes (types : Table ClusterType.id) (organizationId : Uuid) : List ClusterType :=
  types.rows.filter fun t => t.deletedAt = 0 ∧ t.organizationId = organizationId

/-- `get_tag_cluster_type_map`, at a key; `tagKey` is the key of a type in its plain or its encoded
form. -/
def getTagClusterTypeMap (types : List ClusterType) (tagKey : ClusterType → String) (key : String) :
    Option ClusterType :=
  types.foldl (fun current t =>
    if tagKey t = key then
      match current with
      | none => some t
      | some c => if c.priority > t.priority then some t else some c
    else current) none

/-- `get_resource_cluster_type` -/
def getResourceClusterType (tags : Tags) (typeMap : String → Option ClusterType) :
    Option ClusterType :=
  tags.foldl (fun clusterType tag =>
    match typeMap tag.1, clusterType with
    | none, current => current
    | some candidate, none => some candidate
    | some candidate, some c => if c.priority > candidate.priority then some candidate else some c)
    none

/-- `get_cluster_cloud_resource_id` -/
def getClusterCloudResourceId (clusterTypeName clusterName : String) : String :=
  clusterTypeName ++ "/" ++ clusterName

/-! ## What a cluster has from its members -/

/-- `_cluster_inherited_fields`, but for the days of the dates. -/
structure Inherited where
  active : Option Bool := none
  firstSeen : Option ℕ := none
  lastSeen : Option ℕ := none
  tags : Tags := []
  deriving DecidableEq, Repr

/-- One tag of a change: taken over, or dropped for good where it contradicts the cluster's. -/
def mergeTag (state : Tags × List String) (tag : String × String) : Tags × List String :=
  let (tags, exclusions) := state
  if tag.1 ∈ exclusions then state
  else
    match tags.lookup tag.1 with
    | none => (tags.set tag.1 tag.2, exclusions)
    | some value =>
      if value = tag.2 then state else (tags.pop tag.1, tag.1 :: exclusions)

/-- A date of the cluster with that of a change; `0` is no date. -/
def mergeDate (f : ℕ → ℕ → ℕ) (date change : Option ℕ) : Option ℕ :=
  match change.filter (· ≠ 0), date.filter (· ≠ 0) with
  | none, _ => date
  | some d, none => some d
  | some d, some c => some (f c d)

/-- The cluster while its changes are gone through. -/
structure Merging where
  cluster : Inherited
  exclusions : List String := []
  /-- The changes whose tags were made the cluster's own, the latest first. -/
  owners : List ℕ := []

/-- One turn of `_set_cluster_lifetime_fields`.  Where the cluster has no tags yet, those of the
change are made its own and change with it from then on. -/
def mergeChange (m : Merging) (change : Inherited × ℕ) : Merging :=
  let merged := if m.cluster.tags = [] then (change.1.tags, m.exclusions)
    else change.1.tags.foldl mergeTag (m.cluster.tags, m.exclusions)
  { cluster :=
      { active := some (m.cluster.active.getD false || change.1.active.getD false)
        firstSeen := mergeDate min m.cluster.firstSeen change.1.firstSeen
        lastSeen := mergeDate max m.cluster.lastSeen change.1.lastSeen
        tags := merged.1 }
    exclusions := merged.2
    owners := if m.cluster.tags = [] then change.2 :: m.owners else m.owners }

/-- `_set_cluster_lifetime_fields`; the changes are numbered. -/
def setClusterLifetimeFields (cluster : Inherited) (changes : List (Inherited × ℕ)) : Merging :=
  changes.foldl mergeChange { cluster }

/-- What is left of the tags of a change. -/
def Merging.tagsOf (m : Merging) (change : ℕ) (tags : Tags) : Tags :=
  if m.owners.head? = some change then m.cluster.tags
  else if change ∈ m.owners then [] else tags

/-- The inherited fields as a document has them. -/
def inheritedOf (r : Resource) : Inherited :=
  ⟨some r.active, r.firstSeen, r.lastSeen, r.tags⟩

/-- `$set` of the inherited fields that there are. -/
def setInherited (i : Inherited) (r : Resource) : Resource :=
  { r with
    active := i.active.getD r.active
    firstSeen := i.firstSeen.or r.firstSeen
    lastSeen := i.lastSeen.or r.lastSeen
    tags := i.tags }

end ClusterTypeController
