import OptScale.Clusters.Bind
import OptScale.Clusters.Change

/-!
# Clusters/Binding — what `bind_clusters` does to the collection

Every document `bind_clusters` writes is a cluster of the organization, and what it hands back for
an incoming resource is a live cluster (`bindClusters_triple`).
-/

open Fallible Resource

namespace ClusterTypeController

variable {O : OrganizationContext} {R : RuleContext} {types : List ClusterType} {S : Saving}
  {t t' : Resources}

/-! ## Clusters that are made -/

theorem getTagClusterTypeMap_mem {tagKey : ClusterType → String} {key : String} {c : ClusterType}
    (h : getTagClusterTypeMap types tagKey key = some c) : c ∈ types := by
  refine List.foldlRecOn types _ (motive := fun current => ∀ c, current = some c → c ∈ types)
    (fun _ h => absurd h.symm (Option.some_ne_none _)) (fun current ih a ha c hc => ?_) c h
  split_ifs at hc
  · cases current with
    | none =>
      obtain rfl := Option.some.inj hc
      exact ha
    | some b =>
      dsimp only at hc
      split_ifs at hc
      · obtain rfl := Option.some.inj hc
        exact ha
      · exact ih c hc
  · exact ih c hc

/-- **The type of a resource** is one of the map's. -/
theorem getResourceClusterType_eq_some {tags : Tags} {typeMap : String → Option ClusterType}
    {c : ClusterType} (h : getResourceClusterType tags typeMap = some c) :
    ∃ tag ∈ tags, typeMap tag.1 = some c := by
  refine List.foldlRecOn tags _
    (motive := fun current => ∀ c, current = some c → ∃ tag ∈ tags, typeMap tag.1 = some c)
    (fun _ h => absurd h.symm (Option.some_ne_none _)) (fun current ih tag htag c hc => ?_) c h
  cases htype : typeMap tag.1 with
  | none =>
    rw [htype] at hc
    exact ih c hc
  | some candidate =>
    rw [htype] at hc
    cases current with
    | none =>
      obtain rfl := Option.some.inj hc
      exact ⟨tag, htag, htype⟩
    | some b =>
      dsimp only at hc
      split_ifs at hc
      · obtain rfl := Option.some.inj hc
        exact ⟨tag, htag, htype⟩
      · exact ih c hc

/-- The definition is that of a cluster of the organization. -/
structure Definition.Proper (O : OrganizationContext) (types : List ClusterType) (d : Definition) :
    Prop where
  isCluster : d.cluster.IsCluster
  sound : Sound O types d.cluster

theorem fillCluster_sound {clusterType : ClusterType} {name : String} (htype : clusterType ∈ types)
    (hsource : O.cloudAccounts ≠ []) : Sound O types (fillCluster O clusterType name) where
  typed _ _ ht := ⟨clusterType, htype, Option.some.inj ht⟩
  plain _ := rfl
  owned _ := rfl
  sourced _ := hsource
  placed h := absurd rfl h

theorem retains_setInherited (i : Inherited) (r : Resource) : Retains r (setInherited i r) :=
  ⟨rfl, rfl, rfl, rfl, rfl, rfl, rfl, rfl, fun h => h⟩

theorem retains_syncCluster (t : Resources) (exclusions : List String) (cluster : Resource) :
    Retains cluster (syncCluster t exclusions cluster) := by
  unfold syncCluster
  split
  · exact .refl cluster
  · exact retains_setInherited _ cluster

theorem syncClusters_change {clusterIds : List Uuid} {exclusions : List String} :
    Change O types S t (syncClusters clusterIds exclusions t) := by
  refine .update _ rfl fun r _ => ?_
  split
  · exact retains_syncCluster t exclusions r
  · exact .refl r

/-- **The cluster of an incoming resource** is a stored one or of a live type. -/
theorem clusterOf_proper {clusters : List Resource} {p : Payload}
    {found : Option (Resource × IdField)} {d : Definition} (hsource : O.cloudAccounts ≠ [])
    (hclusters : ∀ c ∈ clusters, c.IsCluster ∧ Sound O types c)
    (h : clusterOf O types clusters p found = some d) : d.Proper O types := by
  cases found with
  | some f =>
    simp only [clusterOf, Option.bind_eq_bind, Option.bind_eq_some_iff, Option.pure_def,
      Option.some.injEq] at h
    obtain ⟨clusterId, -, c, hc, cid, -, rfl⟩ := h
    obtain ⟨hcluster, hsound⟩ := hclusters c (List.mem_of_find?_eq_some hc)
    exact ⟨hcluster, hsound.of_same rfl rfl rfl (fun h => h) fun _ h => h⟩
  | none =>
    simp only [clusterOf, Option.bind_eq_bind, Option.bind_eq_some_iff, Option.pure_def,
      Option.some.injEq] at h
    obtain ⟨clusterType, htype, cid, -, rfl⟩ := h
    obtain ⟨tag, -, htag⟩ := getResourceClusterType_eq_some htype
    exact ⟨rfl, fillCluster_sound (getTagClusterTypeMap_mem htag) hsource⟩

/-! ## The pass over the incoming resources -/

/-- The resource is put into a cluster. -/
def Binds (O : OrganizationContext) (types : List ClusterType) (clusters : List Resource)
    (found : Found) (p : Payload) (uniqueId : String) : Prop :=
  p.uniqueId = some uniqueId ∧ (clusterOf O types clusters p (found.get uniqueId)).isSome

/-- What the pass has gathered: proper definitions, for resources that are put into clusters. -/
structure Gathered.Proper (O : OrganizationContext) (types : List ClusterType)
    (clusters : List Resource) (found : Found) (resources : List Payload) (g : Gathered) :
    Prop where
  definitions : ∀ d ∈ g.definitions, d.Proper O types
  requirements : ∀ q ∈ g.requirements, ∃ p ∈ resources, Binds O types clusters found p q.1

theorem addChange_proper {definitions : List Definition} {fresh : Definition}
    {change : Inherited × ℕ} (hdefinitions : ∀ d ∈ definitions, d.Proper O types)
    (hfresh : fresh.Proper O types) :
    ∀ d ∈ addChange definitions fresh change, d.Proper O types := by
  unfold addChange
  split
  · refine List.forall_mem_map.mpr fun d hd => ?_
    obtain ⟨hcluster, hsound⟩ := hdefinitions d hd
    split
    · exact ⟨hcluster, hsound⟩
    · exact ⟨hcluster, hsound⟩
  · exact List.forall_mem_append.mpr
      ⟨hdefinitions, List.forall_mem_singleton.mpr ⟨hfresh.isCluster, hfresh.sound⟩⟩

/-- **One turn of the pass.** -/
theorem gather_proper {clusters : List Resource} {found : Found} {isReportImport : Bool} {now : ℕ}
    {resources : List Payload} {g : Gathered} {p : Payload × ℕ} (hp : p.1 ∈ resources)
    (hsource : O.cloudAccounts ≠ []) (hclusters : ∀ c ∈ clusters, c.IsCluster ∧ Sound O types c)
    (hg : g.Proper O types clusters found resources) :
    (gather O types clusters found isReportImport now g p).Proper O types clusters found
      resources := by
  unfold gather
  split
  · exact ⟨hg.definitions, hg.requirements⟩
  · rename_i uniqueId hid
    dsimp only
    split
    · exact ⟨hg.definitions, hg.requirements⟩
    · rename_i fresh hfresh
      constructor
      · exact addChange_proper hg.definitions (clusterOf_proper hsource hclusters hfresh)
      · refine List.forall_mem_append.mpr ⟨hg.requirements, List.forall_mem_singleton.mpr ?_⟩
        exact ⟨p.1, hp, hid, by rw [hfresh]; rfl⟩

theorem gathered_proper {clusters : List Resource} {found : Found} (isReportImport : Bool) (now : ℕ)
    (resources : List Payload) (hsource : O.cloudAccounts ≠ [])
    (hclusters : ∀ c ∈ clusters, c.IsCluster ∧ Sound O types c) :
    (resources.zipIdx.foldl (gather O types clusters found isReportImport now) {}).Proper O types
      clusters found resources := by
  refine List.foldlRecOn resources.zipIdx _
    (motive := fun g => Gathered.Proper O types clusters found resources g) ⟨?_, ?_⟩ ?_
  · exact fun d hd => absurd hd List.not_mem_nil
  · exact fun q hq => absurd hq List.not_mem_nil
  · intro g hg p hp
    exact gather_proper (List.fst_mem_of_mem_zipIdx hp) hsource hclusters hg

/-! ## The clusters are stored -/

/-- There is a cluster with the id. -/
def HasCluster (t : Resources) (id : Uuid) : Prop := ∃ k ∈ t.rows, k.id = id ∧ k.IsCluster

theorem HasCluster.change {id : Uuid} (h : Change O types S t t') (hid : HasCluster t id) :
    HasCluster t' id := by
  obtain ⟨k, hk, rfl, hcluster⟩ := hid
  obtain ⟨k', hk', hret⟩ := h.persists hk (Or.inl hcluster)
  exact ⟨k', hk', hret.id, by rwa [IsCluster, hret.clusterTypeId]⟩

/-- **One cluster**: it is brought up to date, or added. -/
theorem storeCluster_change {cluster : Resource} {inherited : Inherited} {c : Resource}
    (hcluster : cluster.IsCluster) (hsound : Sound O types cluster) (ht : Changed O types S t)
    (h : storeCluster O R cluster inherited t = .ok (c, t')) :
    Change O types S t t' ∧ c ∈ t'.rows ∧ c.IsCluster ∧ c.deletedAt = cluster.deletedAt := by
  obtain ⟨assigned, hassigned, hstore⟩ := bind_eq_ok.mp h
  have hsame := RuleApplyController.handleAssignmentData_eq_ok hassigned
  have hsameDeleted : assigned.deletedAt = cluster.deletedAt :=
    (congrArg Resource.deletedAt hsame : assigned.deletedAt = _)
  have hcluster : assigned.IsCluster := by rw [hsame]; exact hcluster
  have hsound : Sound O types assigned := by
    rw [hsame]
    exact hsound.of_same rfl rfl rfl (fun h => h) fun _ h => h
  unfold getOrCreate at hstore
  split at hstore
  · rename_i found hfind
    obtain ⟨rfl, rfl⟩ := Prod.mk.inj (pure_eq_ok.mp hstore)
    have hfound : found ∈ t.rows := List.mem_of_find?_eq_some hfind
    have hmatch := List.find?_some hfind
    obtain ⟨hkey, -, hdeleted⟩ := of_decide_eq_true hmatch
    refine ⟨.update _ rfl fun r _ => ?_, Table.mem_updateWhere.mpr ⟨found, hfound, ?_⟩, ?_, ?_⟩
    · split
      · exact retains_setInherited _ r
      · exact .refl r
    · exact if_pos (decide_eq_true rfl)
    · show found.clusterTypeId.isSome
      rw [hkey]
      exact hcluster
    · exact hdeleted.trans hsameDeleted
  · obtain ⟨t₁, hinsert, hrest⟩ := bind_eq_ok.mp hstore
    obtain ⟨rfl, rfl⟩ := Prod.mk.inj (pure_eq_ok.mp hrest)
    obtain ⟨-, hfresh, hrows⟩ := Resources.insert_eq_ok.mp hinsert
    refine ⟨.cluster _ hrows (fun hold => hfresh (ht.id_mem hold)) hcluster ?_, ?_, hcluster, ?_⟩
    · exact hsound.of_same rfl rfl rfl (fun h => h) fun _ h => h
    · exact hrows ▸ List.mem_append_right _ (List.mem_singleton.mpr rfl)
    · exact hsameDeleted

theorem storeDefinitions_triple {definitions : List Definition} :
    ∀ {known : List Uuid}, (∀ d ∈ definitions, d.Proper O types) →
    Session.Triple (fun t => Changed O types S t ∧ ∀ id ∈ known, HasCluster t id)
      (storeDefinitions O R definitions)
      (fun ids t => Changed O types S t ∧ ∀ id ∈ known ++ ids, HasCluster t id)
      (Changed O types S) := by
  induction definitions with
  | nil =>
    exact fun _ => .pure fun t h => ⟨h.1, by rw [List.append_nil]; exact h.2⟩
  | cons d definitions ih =>
    intro known hproper
    obtain ⟨hd, hdefinitions⟩ := List.forall_mem_cons.mp hproper
    refine .bind (Q := fun c t => Changed O types S t ∧ ∀ id ∈ known ++ [c.id], HasCluster t id)
      (.commit ?_ fun t h => h.1) fun c => ?_
    · intro t c t' ⟨ht, hknown⟩ hstore
      obtain ⟨hchange, hmem, hcluster, -⟩ := storeCluster_change hd.isCluster hd.sound ht hstore
      have hc : HasCluster t' c.id := ⟨c, hmem, rfl, hcluster⟩
      exact ⟨ht.tail hchange, List.forall_mem_append.mpr
        ⟨fun id hid => (hknown id hid).change hchange, List.forall_mem_singleton.mpr hc⟩⟩
    · refine .bind (ih hdefinitions) fun ids => .pure fun t h => ⟨h.1, ?_⟩
      rw [List.append_cons]
      exact h.2

/-! ## `bind_clusters` -/

/-- The stored resources an incoming one may be found as. -/
def Found.In (found : Found) (t : Resources) : Prop := ∀ entry ∈ found, entry.2.1 ∈ t.rows

theorem Found.get_mem {found : Found} {key : String} {f : Resource × IdField}
    (h : found.get key = some f) : ∃ entry ∈ found, entry.1 = key ∧ entry.2 = f := by
  obtain ⟨entry, hentry, hf⟩ := Option.map_eq_some_iff.mp h
  have hmem := List.mem_of_getLast? hentry
  exact ⟨entry, List.mem_of_mem_filter hmem, of_decide_eq_true (List.mem_filter.mp hmem).2, hf⟩

theorem dbClusters_proper {found : Found} (hcons : Consistent O types t) (hfound : found.In t) :
    ∀ c ∈ dbClusters found t, c ∈ t.rows ∧ c.IsCluster ∧ Sound O types c := by
  intro c hc
  obtain ⟨hmem, hids⟩ := List.mem_filter.mp hc
  obtain ⟨hids, -⟩ := of_decide_eq_true hids
  obtain ⟨entry, -, hentry⟩ := List.mem_filterMap.mp hids
  obtain ⟨f, hf, href⟩ := Option.bind_eq_some_iff.mp hentry
  obtain ⟨e, he, -, rfl⟩ := Found.get_mem hf
  exact ⟨hmem, Resources.isCluster_of_refersTo hcons (hfound e he) hmem href, hcons.sound c hmem⟩

/-- **What `bind_clusters` hands back**: for a resource, a live cluster, and only where one of the
resources is put into a cluster. -/
def Bound.Proper (binds : Prop) (t : Resources) (b : Bound) : Prop :=
  ∀ uniqueId c, b.clusterOf uniqueId = some c → binds ∧ c ∈ t.rows ∧ c.IsCluster ∧ c.Live

/-- **`bind_clusters`** changes clusters only. -/
theorem bindClusters_triple {resources : List Payload} {found : Found} {isReportImport : Bool}
    {now : ℕ} (hplace : S.cloudAccountId ∈ O.cloudAccounts) (hold : Consistent O types S.old)
    (hfound : found.In S.old)
    (hbinds : ∀ p ∈ resources, ∀ uniqueId,
      Binds O types (dbClusters found S.old) found p uniqueId → S.binds) :
    Session.Triple (fun t => t = S.old)
      (bindClusters O R types resources found isReportImport now)
      (fun b t => Changed O types S t ∧ b.Proper S.binds t)
      (Changed O types S) := by
  have hsource : O.cloudAccounts ≠ [] := List.ne_nil_of_mem hplace
  have hdb := dbClusters_proper hold hfound
  unfold bindClusters
  refine .bind (Q := fun clusters t => clusters = dbClusters found S.old ∧ t = S.old)
    (.read ?_ ?_) fun clusters => ?_
  · rintro t clusters rfl hclusters
    exact ⟨(Except.ok.inj hclusters).symm, rfl⟩
  · rintro t rfl
    exact .refl
  refine .fact fun hclusters => ?_
  subst hclusters
  have hg : Gathered.Proper O types (dbClusters found S.old) found resources _ :=
    gathered_proper isReportImport now resources hsource fun c hc => (hdb c hc).2
  refine .bind (Q := fun ids t => Changed O types S t ∧
      ∀ id ∈ (dbClusters found S.old).map Resource.id ++ ids, HasCluster t id)
    ((storeDefinitions_triple hg.definitions).mono ?_ (fun _ _ h => h) fun _ h => h) fun ids => ?_
  · rintro t rfl
    refine ⟨.refl, List.forall_mem_map.mpr fun c hc => ?_⟩
    exact ⟨c, (hdb c hc).1, rfl, (hdb c hc).2.1⟩
  refine .bind (Q := fun _ t => Changed O types S t ∧
      ∀ id ∈ (dbClusters found S.old).map Resource.id ++ ids, HasCluster t id)
    (.commit ?_ fun t h => h.1) fun _ => .read ?_ fun t h => h.1
  · rintro t _ t' ⟨ht, hids⟩ hsync
    obtain ⟨-, rfl⟩ := Prod.mk.inj (Except.ok.inj hsync)
    refine ⟨ht.tail syncClusters_change, fun id hid => ?_⟩
    exact (hids id hid).change (syncClusters_change : Change O types S t _)
  · rintro t b ⟨ht, hids⟩ hb
    obtain rfl := Except.ok.inj hb
    refine ⟨ht, fun uniqueId c hc => ?_⟩
    obtain ⟨requirement, hrequirement, hdocs⟩ := Option.bind_eq_some_iff.mp hc
    obtain ⟨hmem, hid⟩ := List.mem_filter.mp (List.mem_of_getLast? hrequirement)
    obtain ⟨p, hp, hbound⟩ := hg.requirements requirement hmem
    obtain ⟨hdoc, hlive⟩ := List.mem_filter.mp (List.mem_of_mem_filter (List.mem_of_getLast? hdocs))
    obtain ⟨hcluster, hlive⟩ := of_decide_eq_true hlive
    obtain ⟨k, hk, hkid, hkcluster⟩ := hids c.id hcluster
    obtain rfl := t.eq_of_key hk hdoc hkid
    exact ⟨hbinds p hp _ hbound, hdoc, hkcluster, hlive⟩

end ClusterTypeController
