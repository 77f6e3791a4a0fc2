import OptScale.Clusters.Apply
import OptScale.Clusters.Priorities

/-!
# Clusters/Choice — the cluster of a resource

A resource belongs to the type of the smallest priority number whose tag key it carries.  Types have distinct
priorities, so neither the order of its tags nor the order of the types matters, and it is the same whether the tags
are read as they come in or as they are stored: a resource is put into the cluster it was discovered in again
(`ClusterTypes.clusters_agree`).
-/

open Fallible PriorityMixin ClusterTypeController

namespace ClusterTypes

/-! ## The type of a resource -/

section Choice

variable {types : List ClusterType} {tagKey : ClusterType → String} {tags : Tags} {c : ClusterType} {t : Types}

/-- The type of a tag key is the first one of the smallest priority number. -/
theorem getTagClusterTypeMap_eq_argmin (types : List ClusterType) (tagKey : ClusterType → String) (key : String) :
    getTagClusterTypeMap types tagKey key = (types.filter fun t => tagKey t = key).argmin ClusterType.priority := by
  rw [getTagClusterTypeMap, List.argmin, List.foldl_filter]
  refine congrArg (fun f => List.foldl f none types) (funext fun current => funext fun t => ?_)
  simp only [decide_eq_true_eq]
  split
  · cases current with
    | none => rfl
    | some b => rfl
  · rfl

/-- The type of a resource is the first one of the smallest priority number among those of its tags. -/
theorem getResourceClusterType_eq_argmin (tags : Tags) (typeMap : String → Option ClusterType) :
    getResourceClusterType tags typeMap =
      (tags.filterMap fun tag => typeMap tag.1).argmin ClusterType.priority := by
  rw [getResourceClusterType, List.argmin, List.foldl_filterMap]
  refine congrArg (fun f => List.foldl f none tags) (funext fun current => funext fun tag => ?_)
  cases typeMap tag.1 with
  | none => rfl
  | some candidate =>
    cases current with
    | none => rfl
    | some b => rfl

/-- The type of a resource is one of the types whose key it carries, and none of them has a smaller priority number. -/
theorem le_of_getResourceClusterType (h : getResourceClusterType tags (getTagClusterTypeMap types tagKey) = some c) :
    (c ∈ types ∧ tagKey c ∈ tags.map Prod.fst) ∧
      ∀ d ∈ types, tagKey d ∈ tags.map Prod.fst → c.priority ≤ d.priority := by
  rw [getResourceClusterType_eq_argmin] at h
  have hmem := List.argmin_mem h
  obtain ⟨tag, htag, hc⟩ := List.mem_filterMap.mp hmem
  rw [getTagClusterTypeMap_eq_argmin] at hc
  obtain ⟨hct, hkey⟩ := List.mem_filter.mp (List.argmin_mem hc)
  refine ⟨⟨hct, of_decide_eq_true hkey ▸ List.mem_map_of_mem htag⟩, fun d hd hdkey => ?_⟩
  obtain ⟨tag', htag', heq⟩ := List.mem_map.mp hdkey
  have hd' : d ∈ types.filter fun t => tagKey t = tag'.1 := List.mem_filter.mpr ⟨hd, decide_eq_true heq.symm⟩
  obtain ⟨e, he⟩ : ∃ e, (types.filter fun t => tagKey t = tag'.1).argmin ClusterType.priority = some e :=
    Option.ne_none_iff_exists'.mp fun hnone => List.ne_nil_of_mem hd' (List.argmin_eq_none.mp hnone)
  have hcandidate : e ∈ tags.filterMap fun tag => getTagClusterTypeMap types tagKey tag.1 :=
    List.mem_filterMap.mpr ⟨tag', htag', by rw [getTagClusterTypeMap_eq_argmin, he]⟩
  exact (List.le_of_mem_argmin hcandidate h).trans (List.le_of_mem_argmin hd' he)

/-- A resource that carries the key of a type has a type. -/
theorem exists_getResourceClusterType (hc : c ∈ types) (hkey : tagKey c ∈ tags.map Prod.fst) :
    ∃ d, getResourceClusterType tags (getTagClusterTypeMap types tagKey) = some d := by
  obtain ⟨tag, htag, heq⟩ := List.mem_map.mp hkey
  have hc' : c ∈ types.filter fun t => tagKey t = tag.1 := List.mem_filter.mpr ⟨hc, decide_eq_true heq.symm⟩
  obtain ⟨e, he⟩ : ∃ e, (types.filter fun t => tagKey t = tag.1).argmin ClusterType.priority = some e :=
    Option.ne_none_iff_exists'.mp fun hnone => List.ne_nil_of_mem hc' (List.argmin_eq_none.mp hnone)
  have hcandidate : e ∈ tags.filterMap fun tag => getTagClusterTypeMap types tagKey tag.1 :=
    List.mem_filterMap.mpr ⟨tag, htag, by rw [getTagClusterTypeMap_eq_argmin, he]⟩
  rw [getResourceClusterType_eq_argmin]
  exact Option.ne_none_iff_exists'.mp fun hnone => List.ne_nil_of_mem hcandidate (List.argmin_eq_none.mp hnone)

/-- The types' priorities are pairwise distinct. -/
def Distinct (types : List ClusterType) : Prop := ∀ a ∈ types, ∀ b ∈ types, a.priority = b.priority → a = b

/-- **The type of a resource** is the one of the smallest priority number among the types whose key it carries. -/
theorem getResourceClusterType_eq_some (hdistinct : Distinct types) :
    getResourceClusterType tags (getTagClusterTypeMap types tagKey) = some c ↔
      (c ∈ types ∧ tagKey c ∈ tags.map Prod.fst) ∧
        ∀ d ∈ types, tagKey d ∈ tags.map Prod.fst → c.priority ≤ d.priority := by
  refine ⟨le_of_getResourceClusterType, fun ⟨⟨hc, hkey⟩, hleast⟩ => ?_⟩
  obtain ⟨d, hd⟩ := exists_getResourceClusterType hc hkey
  obtain ⟨⟨hdt, hdkey⟩, hdleast⟩ := le_of_getResourceClusterType hd
  rw [hd, hdistinct d hdt c hc (le_antisymm (hdleast c hc hkey) (hleast d hdt hdkey))]

/-- **A ranked table has distinct priorities.** -/
theorem distinct_of_ranked {o : Uuid} (h : Ranked clusterTypeModel t o) : Distinct (listTypes t o) := by
  intro a ha b hb hab
  obtain ⟨hat, ha'⟩ := List.mem_filter.mp ha
  obtain ⟨hbt, hb'⟩ := List.mem_filter.mp hb
  have hitem : ∀ c ∈ listTypes t o, placed clusterTypeModel c ∈ enumerate (order clusterTypeModel t o) :=
    fun c hc => h.allItems_eq ▸ mem_allItems.mpr ⟨c, hc, rfl⟩
  obtain ⟨j, hj, hpriority⟩ := mem_enumerate.mp (hitem a ha)
  obtain ⟨j', hj', hpriority'⟩ := mem_enumerate.mp (hitem b hb)
  have hpa : a.priority = 1 + j := hpriority
  have hpb : b.priority = 1 + j' := hpriority'
  obtain rfl : j = j' := by omega
  exact t.eq_of_key hat hbt (Option.some.inj (hj.symm.trans hj'))

end Choice

/-! ## Tags as they are stored -/

section Stored

variable {types : List ClusterType} {tags : Tags} {c : ClusterType} (O : OrganizationContext)

theorem encoded_eq_map (h : (tags.map Prod.fst).Nodup) :
    Tags.encoded O.encoding tags = tags.map fun t => (O.encoding.encode t.1, t.2) := by
  refine (Tags.foldl_set O.encoding.encode tags ?_).trans (List.nil_append _)
  have hmap := h.map (Tags.encode_injective O.encoding)
  rwa [List.map_map] at hmap

theorem mem_keys_encoded (h : (tags.map Prod.fst).Nodup) {k : String} :
    O.encoding.encode k ∈ (Tags.encoded O.encoding tags).map Prod.fst ↔ k ∈ tags.map Prod.fst := by
  have hmap : (Tags.encoded O.encoding tags).map Prod.fst = (tags.map Prod.fst).map O.encoding.encode := by
    rw [encoded_eq_map O h, List.map_map, List.map_map]
    rfl
  rw [hmap, List.mem_map_of_injective (Tags.encode_injective O.encoding)]

theorem lookup_encoded (h : (tags.map Prod.fst).Nodup) (k : String) :
    (Tags.encoded O.encoding tags).lookup (O.encoding.encode k) = tags.lookup k := by
  rw [encoded_eq_map O h]
  clear h
  induction tags with
  | nil => rfl
  | cons t tags ih =>
    rw [List.map_cons, List.lookup_cons, List.lookup_cons, ih]
    have hsame : (O.encoding.encode k == O.encoding.encode t.1) = (k == t.1) := by
      rw [Bool.eq_iff_iff, beq_iff_eq, beq_iff_eq, (Tags.encode_injective O.encoding).eq_iff]
    rw [hsame]

/-- **Encoded or not, the tags name one type.** -/
theorem getResourceClusterType_encoded (hdistinct : Distinct types) (h : (tags.map Prod.fst).Nodup) :
    getResourceClusterType (Tags.encoded O.encoding tags) (ClusterTypeApplyController.tagClusterTypeMap O types) =
      getResourceClusterType tags (getTagClusterTypeMap types ClusterType.tagKey) := by
  refine Option.ext fun c => ?_
  rw [ClusterTypeApplyController.tagClusterTypeMap, getResourceClusterType_eq_some hdistinct,
    getResourceClusterType_eq_some hdistinct]
  simp only [mem_keys_encoded O h]

end Stored

/-! ## Discovery and re-application -/

section Agree

open ClusterTypeApplyController (addResource)

variable (O : OrganizationContext) (types : List ClusterType) (p : Payload) (r : Resource)

/-- The type is the one of the smallest priority number among those whose tag key is there. -/
def Decides (types : List ClusterType) (tags : Tags) (c : ClusterType) : Prop :=
  (c ∈ types ∧ c.tagKey ∈ tags.map Prod.fst) ∧
    ∀ d ∈ types, d.tagKey ∈ tags.map Prod.fst → c.priority ≤ d.priority

/-- **`bind_clusters` of a new resource and `reapply_clusters` of what is stored of it agree**: on no cluster, where
the resource has no tag key of a type; or else on the cluster of the type that decides, named by the tag's value. -/
structure Agree : Prop where
  unclustered : (¬ ∃ c, Decides types (p.tags.getD []) c) →
    (∀ clusters, clusterOf O types clusters p none = none) ∧
      ∀ entries number, addResource O types entries (r, number) = entries
  clustered : ∀ c, Decides types (p.tags.getD []) c → ∃ name, (p.tags.getD []).lookup c.tagKey = some name ∧
    (∀ clusters, ∃ d, clusterOf O types clusters p none = some d ∧ d.cluster = fillCluster O c name ∧
      d.cid = getClusterCloudResourceId c.name name) ∧
    ∀ entries number, ∃ e ∈ addResource O types entries (r, number), r ∈ e.resources ∧
      e.cid = some (getClusterCloudResourceId c.name name) ∧ e.clusterType = some c

variable {O types p r}

/-- A key that is there has a value. -/
theorem exists_lookup {tags : Tags} {k : String} (h : k ∈ tags.map Prod.fst) : ∃ v, tags.lookup k = some v := by
  refine Option.isSome_iff_exists.mp ?_
  rw [Tags.lookup_isSome, List.any_eq_true]
  obtain ⟨tag, htag, rfl⟩ := List.mem_map.mp h
  exact ⟨tag, htag, decide_eq_true rfl⟩

/-- A resource without a type changes nothing. -/
theorem addResource_of_none {entries : List ClusterTypeApplyController.Entry} {number : ℕ}
    (h : getResourceClusterType r.tags (ClusterTypeApplyController.tagClusterTypeMap O types) = none) :
    addResource O types entries (r, number) = entries := by
  simp only [addResource, h]

/-- A resource with a type is among those of its cluster. -/
theorem exists_entry {entries : List ClusterTypeApplyController.Entry} {number : ℕ} {c : ClusterType} {name : String}
    (h : getResourceClusterType r.tags (ClusterTypeApplyController.tagClusterTypeMap O types) = some c)
    (hname : r.tags.lookup (O.encoding.encode c.tagKey) = some name) :
    ∃ e ∈ addResource O types entries (r, number), r ∈ e.resources ∧
      e.cid = some (getClusterCloudResourceId c.name name) ∧ e.clusterType = some c := by
  simp only [addResource, h, hname, Option.getD_some]
  split
  · rename_i hany
    obtain ⟨e, he, hcid⟩ := List.any_eq_true.mp hany
    refine ⟨_, List.mem_map_of_mem he, ?_⟩
    rw [if_pos (of_decide_eq_true hcid)]
    exact ⟨List.mem_append_right _ (List.mem_singleton_self r), of_decide_eq_true hcid, rfl⟩
  · exact ⟨_, List.mem_append_right _ (List.mem_singleton_self _), List.mem_append_right _ (List.mem_singleton_self r),
      rfl, rfl⟩

/-- **Where the types have distinct priorities, the two agree.** -/
theorem agree_of_distinct (hdistinct : Distinct types) (hkeys : ((p.tags.getD []).map Prod.fst).Nodup)
    (hr : r.tags = Tags.encoded O.encoding (p.tags.getD [])) : Agree O types p r where
  unclustered hnone := by
    have htype : getResourceClusterType (p.tags.getD []) (getTagClusterTypeMap types ClusterType.tagKey) = none := by
      refine Option.eq_none_iff_forall_ne_some.mpr fun c hc => hnone ⟨c, ?_⟩
      exact (getResourceClusterType_eq_some hdistinct).mp hc
    refine ⟨fun clusters => ?_, fun entries number => addResource_of_none ?_⟩
    · simp only [clusterOf, htype]
      rfl
    · rw [hr, getResourceClusterType_encoded O hdistinct hkeys, htype]
  clustered c hc := by
    have htype : getResourceClusterType (p.tags.getD []) (getTagClusterTypeMap types ClusterType.tagKey) = some c :=
      (getResourceClusterType_eq_some hdistinct).mpr hc
    obtain ⟨name, hname⟩ := exists_lookup hc.1.2
    refine ⟨name, hname, fun clusters => ?_, fun entries number => exists_entry ?_ ?_⟩
    · refine ⟨⟨getClusterCloudResourceId c.name name, fillCluster O c name, { active := some false }, []⟩, ?_, rfl, rfl⟩
      simp only [clusterOf, htype, Option.bind_eq_bind, Option.bind_some, hname, Option.getD_some]
      rfl
    · rw [hr, getResourceClusterType_encoded O hdistinct hkeys, htype]
    · rw [hr, lookup_encoded O hkeys, hname]

end Agree

end ClusterTypes
