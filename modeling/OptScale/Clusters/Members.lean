import OptScale.Clusters.Applied
import OptScale.Foundations.Run
import OptScale.Pools.Reassign
import OptScale.Resources.Assignment
import OptScale.Resources.Saved
import OptScale.Rules.Reapply

/-!
# Clusters/Members — members follow their cluster, whatever is called

Assignments are written by six calls in five controllers.  Each of them treats a cluster and its
members alike: by the ids of the members, by their `cluster_id`, by the pool both are in, or by a
copy of the cluster's assignment.  So in every run, refused calls included, the members of a cluster
have its pool and its owner (`members_follow`).
-/

open Fallible Resource Run

/-- **Members follow their clusters**: the collection is consistent with the cluster types. -/
def Members (O : OrganizationContext) (s : Store) : Prop :=
  Consistent O (ClusterTypeController.listTypes s.clusterTypes O.organizationId) s.resources

variable {O : OrganizationContext} {types types' : List ClusterType} {t t' : Resources} {s : Store}

/-- Types that are added do no harm. -/
theorem Consistent.of_types (h : Consistent O types t)
    (htypes : ∀ c ∈ types, ∃ c' ∈ types', c'.id = c.id) : Consistent O types' t where
  sound r hr := { h.sound r hr with
    typed := fun hlive c hc => by
      obtain ⟨clusterType, hmem, rfl⟩ := (h.sound r hr).typed hlive c hc
      exact htypes clusterType hmem }
  follows := h.follows

/-! ## Documents are changed by id -/

/-- A cluster is among the ids exactly when its members are. -/
def Together (ids : List Uuid) (t : Resources) : Prop :=
  ∀ r ∈ t.rows, ∀ k ∈ t.rows, r.RefersTo k.id → k.IsCluster → (k.id ∈ ids ↔ r.id ∈ ids)

theorem Together.stays {ids : List Uuid} (h : Together ids t) {f : Resource → Resource}
    (hrows : t'.rows = t.rows.map f) (hf : ∀ r ∈ t.rows, Stays r (f r)) : Together ids t' := by
  rw [Together, hrows]
  refine List.forall_mem_map.mpr fun r hr => List.forall_mem_map.mpr fun k hk href hcluster => ?_
  have hrs := hf r hr
  have hks := hf k hk
  rw [hks.id, hrs.id]
  refine h r hr k hk (hrs.clusterId.symm.trans (href.trans (congrArg some hks.id))) ?_
  rwa [IsCluster, hks.clusterTypeId] at hcluster

/-! ## `save_bulk` -/

namespace CloudResourceController

/-- `save_bulk`, on the store. -/
def saveBulkStored (O : OrganizationContext) (R : RuleContext) (K : Kind) (a : SaveBulkArgs) :
    Session Store Failure Unit := do
  let types ← Session.read fun s =>
    .ok (ClusterTypeController.listTypes s.clusterTypes O.organizationId)
  Session.within Store.resources (fun t s => { s with resources := t }) (saveBulk O R K types a)

theorem saveBulkStored_apply (R : RuleContext) (K : Kind) (a : SaveBulkArgs) (s : Store) :
    (saveBulkStored O R K a s).2 = { s with resources :=
      (saveBulk O R K (ClusterTypeController.listTypes s.clusterTypes O.organizationId) a
        s.resources).2 } := rfl

/-- **Saving resources keeps the members with their clusters.** -/
theorem saveBulkStored_members (R : RuleContext) (K : Kind) (a : SaveBulkArgs) (hs : Members O s) :
    Members O (saveBulkStored O R K a s).2 := by
  rw [saveBulkStored_apply]
  rcases saveBulk_changed R K a hs with hsame | ⟨hplace, hchanged⟩
  · rw [hsame]
    exact hs
  · exact hchanged.consistent hplace hs

end CloudResourceController

/-! ## Assignments -/

namespace AssignmentController

variable (E : Surroundings)

/-- The resource is there, and in no cluster. -/
def IsFree (id : Uuid) (t : Resources) : Prop := ∃ r ∈ t.rows, r.id = id ∧ r.clusterId = none

theorem freeResource_eq_ok {id : Option Uuid} {r : Resource} (h : freeResource t id = .ok r) :
    r ∈ t.rows ∧ r.Live ∧ r.clusterId = none := by
  obtain ⟨i, -, h⟩ := bind_eq_ok.mp h
  obtain ⟨found, hfound, h⟩ := bind_eq_ok.mp h
  obtain ⟨_, hfree, h⟩ := bind_eq_ok.mp h
  obtain rfl := pure_eq_ok.mp h
  have hget : getResource t i = some found := orFail_eq_ok.mp hfound
  rw [getResource] at hget
  have hlive : found.id = i ∧ found.Live := by simpa using List.find?_some hget
  exact ⟨List.mem_of_find?_eq_some hget, hlive.2, require_eq_ok.mp hfree⟩

theorem prepareAssignData_eq_ok {employee : Employee} {p : Params}
    {data : Resource × Pool × Employee} (h : prepareAssignData E t employee p = .ok data) :
    IsFree data.1.id t := by
  obtain ⟨resource, hresource, h⟩ := bind_eq_ok.mp h
  obtain ⟨owner, -, h⟩ := bind_eq_ok.mp h
  obtain ⟨poolId, -, h⟩ := bind_eq_ok.mp h
  obtain ⟨pool, -, h⟩ := bind_eq_ok.mp h
  obtain rfl := pure_eq_ok.mp h
  obtain ⟨hmem, -, hfree⟩ := freeResource_eq_ok hresource
  exact ⟨resource, hmem, rfl, hfree⟩

/-- **A free resource takes its members along**: they are given what it is given. -/
theorem create_consistent {id poolId ownerId : Uuid} {u : Unit} (hfree : IsFree id t)
    (ht : Consistent O types t) (h : create id poolId ownerId t = .ok (u, t')) :
    Consistent O types t' := by
  obtain ⟨_, -, h⟩ := bind_eq_ok.mp h
  obtain ⟨-, rfl⟩ := Prod.mk.inj (pure_eq_ok.mp h)
  refine ht.reassign rfl (fun r _ => ?_) fun r hr k hk href hcluster hrlive hklive hpool howner => ?_
  · split
    · exact ⟨rfl, rfl, rfl, rfl, rfl, rfl, rfl⟩
    · exact .refl r
  · -- a cluster is in no cluster, and a member is not the free resource
    have hk' : Concerns id k ↔ k.id = id := by
      rw [Concerns, (ht.sound k hk).plain hcluster]
      exact ⟨fun h => h.1.resolve_right (by simp), fun h => ⟨Or.inl h, hklive⟩⟩
    have hr' : Concerns id r ↔ k.id = id := by
      constructor
      · rintro ⟨hid | hmember, -⟩
        · obtain ⟨r₀, hr₀, hid₀, hnone⟩ := hfree
          rw [t.eq_of_key hr hr₀ (hid.trans hid₀.symm), RefersTo, hnone] at href
          cases href
        · exact Option.some.inj (href.symm.trans hmember)
      · rintro rfl
        exact ⟨Or.inr href, hrlive⟩
    simp only [hk', hr']
    split
    · exact ⟨rfl, rfl⟩
    · exact ⟨hpool, howner⟩

/-- **An assignment keeps the members with their clusters.** -/
theorem createAssignment_keeps (byRequest : Bool) (p : Params) :
    (createAssignment E byRequest p).Keeps (Members O) := by
  unfold createAssignment
  refine Session.Triple.bind (Q := fun _ => Members O) (.read (fun _ _ hs _ => hs) fun _ hs => hs) fun employee =>
    ?_
  refine .bind (Q := fun data s => Members O s ∧ IsFree data.1.id s.resources)
    (.read (fun s data hs hok => ⟨hs, prepareAssignData_eq_ok E hok⟩) fun _ hs => hs) fun data => ?_
  refine .bind (Q := fun _ s => Members O s ∧ IsFree data.1.id s.resources)
    (.read (fun _ _ hs _ => hs) fun _ hs => hs.1) fun _ => ?_
  refine .bind (Q := fun _ s => Members O s ∧ IsFree data.1.id s.resources)
    (.commit ?_ fun _ hs => hs.1) fun _ => ?_
  · intro s _ s' hs hok
    obtain ⟨requests, -, hok⟩ := bind_eq_ok.mp hok
    obtain ⟨-, rfl⟩ := Prod.mk.inj (pure_eq_ok.mp hok)
    exact hs
  refine .bind (Q := fun _ => Members O) (.commit ?_ fun _ hs => hs.1) fun _ =>
    .read (fun _ _ hs _ => hs) fun _ hs => hs
  rintro s _ s' ⟨hs, hfree⟩ hok
  obtain ⟨⟨_, t'⟩, hcreate, hpure⟩ := bind_eq_ok.mp hok
  obtain ⟨-, rfl⟩ := Prod.mk.inj (pure_eq_ok.mp hpure)
  exact create_consistent hfree hs hcreate

end AssignmentController

namespace AssignmentRequestController

/-- **So does a request that is accepted.** -/
theorem acceptAssignmentRequest_keeps (E : AssignmentController.Surroundings) (requestId : Uuid)
    (poolId ownerId : Option Uuid) :
    (acceptAssignmentRequest E requestId poolId ownerId).Keeps (Members O) := by
  unfold acceptAssignmentRequest
  refine .bind (.read _) fun request => .bind (.read _) fun _ => .bind (.read _) fun employee =>
    .bind (.read _) fun _ => .bind (AssignmentController.createAssignment_keeps E true _) fun _ =>
    .bind (.commit ?_) fun _ => .read _
  intro s _ s' hs hok
  obtain ⟨requests, -, hok⟩ := bind_eq_ok.mp hok
  obtain ⟨-, rfl⟩ := Prod.mk.inj (pure_eq_ok.mp hok)
  exact hs

end AssignmentRequestController

/-! ## `reapply_rules` -/

namespace RuleApplyController

variable {R : RuleContext}

theorem setAssigned_stays (assigned r : Resource) : Stays r (setAssigned assigned r) :=
  ⟨rfl, rfl, rfl, rfl, rfl, rfl, rfl⟩

/-- **Members of the ids' clusters are given what these are given.** -/
theorem assignIds_consistent {assigned : Resource} {ids : List Uuid} (htogether : Together ids t)
    (ht : Consistent O types t) : Consistent O types (assignIds assigned ids t) := by
  refine ht.reassign (assignIds_rows assigned ids t) (fun r _ => ?_)
    fun r hr k hk href hcluster _ _ hpool howner => ?_
  · split
    · exact setAssigned_stays assigned r
    · exact .refl r
  · simp only [htogether r hr k hk href hcluster]
    split
    · exact ⟨rfl, rfl⟩
    · exact ⟨hpool, howner⟩

theorem writeAssigned_consistent {changes : List Reassigned}
    (hchanges : ∀ c ∈ changes, Together c.ids t) (ht : Consistent O types t) :
    Consistent O types (writeAssigned changes t) := by
  induction changes generalizing t with
  | nil => exact ht
  | cons c changes ih =>
    obtain ⟨hc, hrest⟩ := List.forall_mem_cons.mp hchanges
    refine ih (fun c' hc' => ?_) (assignIds_consistent hc ht)
    refine (hrest c' hc').stays (assignIds_rows c.assigned c.ids t) fun r _ => ?_
    split
    · exact setAssigned_stays c.assigned r
    · exact .refl r

/-- **The ids of one turn are those of a resource and its members.** -/
theorem reassign_together {r₀ : Resource} {c : Reassigned} (ht : Consistent O types t)
    (hr₀ : r₀ ∈ t.rows) (hfree : r₀.clusterId = none) (h : reassign O R t r₀ = .ok c) :
    Together c.ids t := by
  obtain ⟨assigned, -, h⟩ := bind_eq_ok.mp h
  obtain rfl := pure_eq_ok.mp h
  intro r hr k hk href hcluster
  have hr₀' : r.id ≠ r₀.id := fun hid => by
    rw [t.eq_of_key hr hr₀ hid, RefersTo, hfree] at href
    cases href
  have hsub : ∀ x ∈ t.rows, x.id ∈ (t.rows.filter fun y => y.clusterId = some r₀.id).map Resource.id ↔
      x.clusterId = some r₀.id := by
    intro x hx
    simp only [List.mem_map, List.mem_filter, decide_eq_true_eq]
    constructor
    · rintro ⟨y, ⟨hy, hyc⟩, hid⟩
      rwa [← t.eq_of_key hy hx hid]
    · exact fun hc => ⟨x, ⟨hx, hc⟩, rfl⟩
  have hk' : k.clusterId ≠ some r₀.id := fun hc => by
    cases ((ht.sound k hk).plain hcluster).symm.trans hc
  have hr' : r.clusterId = some r₀.id ↔ k.id = r₀.id := by
    rw [show r.clusterId = some k.id from href, Option.some.injEq]
  by_cases hkind : r₀.clusterTypeId.isSome
  · simp only [hkind, if_true, List.mem_cons, hsub r hr, hsub k hk, hk', hr', hr₀', or_false,
      false_or]
  · have hne : k.id ≠ r₀.id := fun hid => hkind (t.eq_of_key hk hr₀ hid ▸ hcluster)
    simp [hkind, hr₀', hne]

/-- **Reapplying rules keeps the members with their clusters.** -/
theorem reapplyRules_keeps (E : Surroundings) (poolId : Uuid) (includeChildren : Bool) :
    (reapplyRules O R E poolId includeChildren).Keeps (Members O) := by
  unfold reapplyRules
  refine .bind (.read _) fun _ => .bind (.read _) fun _ => .bind (.read _) fun _ => ?_
  refine Session.Triple.bind (Q := fun results s => Members O s ∧
    ∀ c ∈ results, Together c.ids s.resources) (.read (fun s results hs hok => ⟨hs, ?_⟩)
      fun _ hs => hs) fun results => ?_
  · intro c hc
    obtain ⟨r, hr, hreassign⟩ := (mem_of_mapM_eq_ok hok c).mp hc
    obtain ⟨hmem, hfilter⟩ := List.mem_filter.mp hr
    exact reassign_together hs hmem (of_decide_eq_true hfilter).2.1 hreassign
  refine .bind (Q := fun _ s => Members O s ∧ ∀ c ∈ results, Together c.ids s.resources)
    (.read (fun _ _ hs _ => hs) fun _ hs => hs.1) fun _ => ?_
  refine .bind (Q := fun _ => Members O) (.commit ?_ fun _ hs => hs.1) fun _ =>
    Session.Keeps.bind (.read _) fun _ => .pure _
  rintro s _ s' ⟨hs, htogether⟩ hok
  obtain ⟨-, rfl⟩ := Prod.mk.inj (Except.ok.inj hok)
  exact writeAssigned_consistent (fun c hc => htogether c (List.mem_of_mem_filter hc)) hs

end RuleApplyController

/-! ## `reapply_clusters` -/

namespace ClusterTypeApplyController

variable {R : RuleContext} {s₀ : Store}

/-- Every live cluster has a live member. -/
def Inhabited (t : Resources) : Prop :=
  ∀ k ∈ t.rows, k.Live → k.IsCluster → ∃ r ∈ t.rows, r.Live ∧ r.RefersTo k.id

theorem Stored.members (h : Stored O s₀ s) (hs₀ : Members O s₀) : Members O s := by
  obtain ⟨a, ha, t, rfl, hchanged⟩ := h
  exact hchanged.consistent ha hs₀

theorem Settled.members {now : Timestamp} (h : Settled O now s₀ s) (hs₀ : Members O s₀) :
    Members O s ∧ Inhabited s.resources := by
  obtain ⟨a, ha, stored, t, rfl, hstoring⟩ := h
  have ht := hstoring.changed.consistent ha hs₀
  exact ⟨settle_consistent hstoring ht now rfl, settle_member hstoring ht now rfl⟩

/-- Where there is no type, or no data source, there is no live cluster. -/
theorem Idle.inhabited (h : Idle O s) (hs : Members O s) : Inhabited s.resources := by
  intro k hk hlive hcluster
  rcases h with hnone | hnone
  · exact absurd hnone ((hs.sound k hk).sourced hcluster)
  · obtain ⟨c, hc⟩ := Option.isSome_iff_exists.mp hcluster
    obtain ⟨clusterType, hmem, -⟩ := (hs.sound k hk).typed hlive c hc
    rw [hnone] at hmem
    exact absurd hmem List.not_mem_nil

/-- **`reapply_clusters` keeps the members with their clusters**, and where it goes through every
live cluster has a live member. -/
theorem reapplyClusters_members (E : Surroundings) (hs : Members O s) :
    Members O (reapplyClusters O R E s).2 ∧
      ((reapplyClusters O R E).Succeeds s → Inhabited (reapplyClusters O R E s).2.resources) := by
  have h := reapplyClusters_triple (R := R) E hs
  cases hrun : reapplyClusters O R E s with
  | mk r s' =>
    cases r with
    | ok a =>
      rcases h.ok rfl hrun with ⟨hidle, rfl⟩ | hsettled
      · exact ⟨hs, fun _ => hidle.inhabited hs⟩
      · exact ⟨(hsettled.members hs).1, fun _ => (hsettled.members hs).2⟩
    | error e =>
      refine ⟨?_, fun hok => absurd hok (Session.not_succeeds_iff.mpr ⟨e, s', hrun⟩)⟩
      rcases h.error rfl hrun with rfl | hstored | hsettled
      · exact hs
      · exact hstored.members hs
      · exact (hsettled.members hs).1

end ClusterTypeApplyController

/-! ## A pool is deleted -/

namespace PoolController

variable (E : Surroundings)

/-- **A pool's resources are moved together**: what has one pool and one owner goes one way. -/
theorem reassignResources_consistent (oldPoolId newPoolId : Uuid) (oldOwnerIds : List Uuid)
    (newOwnerId : Option Uuid) (ht : Consistent O types t) :
    Consistent O types (reassignResources oldPoolId newPoolId oldOwnerIds newOwnerId t) := by
  have howned : Consistent O types (if oldOwnerIds = [] then t else
      t.updateWhere (fun r => r.poolId = some oldPoolId ∧ ∃ e ∈ oldOwnerIds, r.employeeId = some e)
        (fun r => { r with employeeId := newOwnerId }) fun _ => rfl) := by
    split
    · exact ht
    · refine ht.reassign rfl (fun r _ => ?_) fun r _ k _ _ _ _ _ hpool howner => ?_
      · split
        · exact ⟨rfl, rfl, rfl, rfl, rfl, rfl, rfl⟩
        · exact .refl r
      · simp only [hpool, howner]
        split
        · exact ⟨rfl, rfl⟩
        · exact ⟨hpool, howner⟩
  refine howned.reassign rfl (fun r _ => ?_) fun r _ k _ _ _ _ _ hpool howner => ?_
  · split
    · exact ⟨rfl, rfl, rfl, rfl, rfl, rfl, rfl⟩
    · exact .refl r
  · simp only [hpool]
    split
    · exact ⟨rfl, howner⟩
    · exact ⟨hpool, howner⟩

/-- **The deletion of a pool keeps the members with their clusters.** -/
theorem deleteForResources_keeps (itemId : Uuid) (allowRootDeletion : Bool) :
    (deleteForResources E itemId allowRootDeletion).Keeps (Members O) := by
  unfold deleteForResources
  refine .bind (.read _) fun item => .bind (.read _) fun _ => .bind (.read _) fun _ => ?_
  split
  · exact .pure _
  · refine .bind (.commit fun s _ s' hs hok => ?_) fun _ => .bind (.read _) fun parent =>
      .bind (.read _) fun owners => .bind (.commit fun s _ s' hs hok => ?_) fun _ => .read _
    · obtain ⟨requests, -, hok⟩ := bind_eq_ok.mp hok
      obtain ⟨-, rfl⟩ := Prod.mk.inj (pure_eq_ok.mp hok)
      exact hs
    obtain ⟨-, rfl⟩ := Prod.mk.inj (Except.ok.inj hok)
    exact reassignResources_consistent _ _ _ _ hs

end PoolController

/-! ## A cluster type is deleted -/

namespace ClusterTypeController

theorem mem_listTypes {table : Table ClusterType.id} {organizationId : Uuid} {c : ClusterType} :
    c ∈ listTypes table organizationId ↔
      c ∈ table.rows ∧ c.deletedAt = 0 ∧ c.organizationId = organizationId := by
  simp only [listTypes, List.mem_filter, decide_eq_true_eq]

/-- Another priority is all that a type is given. -/
theorem setPriority_eq_ok {table table' : Table ClusterType.id} {all : List ClusterType}
    {item : ClusterType} {priority : ℕ} (h : setPriority table all item priority = .ok table')
    {c : ClusterType} (hc : c ∈ table.rows) : ∃ priority, { c with priority } ∈ table'.rows := by
  obtain ⟨_, -, h⟩ := bind_eq_ok.mp h
  split at h
  · obtain rfl := pure_eq_ok.mp h
    exact ⟨c.priority, hc⟩
  · obtain rfl := pure_eq_ok.mp h
    by_cases hids : c.id ∈ ((all.map ClusterType.id).erase item.id).insertIdx (priority - 1) item.id
    · exact ⟨_, Table.mem_updateWhere.mpr ⟨c, hc, if_pos (decide_eq_true hids)⟩⟩
    · exact ⟨c.priority, Table.mem_updateWhere.mpr ⟨c, hc, if_neg (by simpa using hids)⟩⟩

/-- **Members leave the clusters of a type, and the clusters go.** -/
theorem deleteClusters_consistent {itemId : Uuid} (now : Timestamp)
    (htypes : ∀ c ∈ types, c.id ≠ itemId → ∃ c' ∈ types', c'.id = c.id)
    (ht : Consistent O types t) : Consistent O types' (deleteClusters itemId now t) := by
  set clusterIds := (t.rows.filter fun r => r.clusterTypeId = some itemId).map Resource.id with hids
  set left := t.updateWhere (fun r => ∃ c ∈ r.clusterId, c ∈ clusterIds)
    (fun r => { r with clusterId := none }) fun _ => rfl with hleft
  have hkind : ∀ r ∈ left.rows, r.clusterTypeId = some itemId → r.id ∈ clusterIds := by
    intro r hr htype
    obtain ⟨r₀, hr₀, rfl⟩ := Table.mem_updateWhere.mp hr
    refine List.mem_map.mpr ⟨r₀, List.mem_filter.mpr ⟨hr₀, decide_eq_true ?_⟩, ?_⟩
    · split at htype <;> exact htype
    · split <;> rfl
  have hempty : ∀ r ∈ left.rows, ∀ c ∈ clusterIds, ¬ r.RefersTo c := by
    intro r hr c hc href
    obtain ⟨r₀, -, rfl⟩ := Table.mem_updateWhere.mp hr
    split at href
    · exact nomatch href
    · rename_i hstays
      exact hstays (decide_eq_true ⟨c, href, hc⟩)
  have hlive : ∀ r : Resource, (if decide (r.id ∈ clusterIds) then
      { r with active := false, deletedAt := (now : ℕ) } else r).Live → r.id ∉ clusterIds ∧ r.Live := by
    intro r h
    split at h
    · exact absurd h now.2.ne'
    · rename_i hout
      exact ⟨fun hin => hout (decide_eq_true hin), h⟩
  have hconsistent : Consistent O types left := by
    refine ht.leave rfl (fun r _ => ?_) (fun r _ => ?_) (fun r _ => ?_) (fun r hr hl => ?_)
      fun r _ k _ _ _ hl => ?_
    · split <;> rfl
    · split <;> exact ⟨rfl, rfl, rfl, rfl, rfl⟩
    · split
      · exact Or.inr rfl
      · exact Or.inl rfl
    · have hl : r.Live := by
        split at hl <;> exact hl
      exact ⟨hl, (ht.sound r hr).typed hl⟩
    · split <;> exact hl
  refine hconsistent.leave rfl (fun r _ => ?_) (fun r _ => ?_) (fun r _ => ?_) (fun r hr hl => ?_)
    fun r hr k hk href _ hl => ?_
  · split <;> rfl
  · split <;> exact ⟨rfl, rfl, rfl, rfl, rfl⟩
  · exact Or.inl (by split <;> rfl)
  · obtain ⟨hout, hl⟩ := hlive r hl
    refine ⟨hl, fun c hc => ?_⟩
    obtain ⟨clusterType, hmem, rfl⟩ := (hconsistent.sound r hr).typed hl c hc
    refine htypes clusterType hmem fun hid => hout (hkind r hr ?_)
    rw [hc, hid]
  · have href : r.RefersTo k.id := by
      split at href <;> exact href
    split
    · rename_i hin
      exact absurd href (hempty r hr k.id (of_decide_eq_true hin))
    · exact hl

/-- **The deletion of a cluster type keeps the members with their clusters.** -/
theorem delete_keeps (publish : String → Except Failure Unit) (itemId : Uuid) (now : Timestamp) :
    (delete publish itemId now).Keeps (Members O) := by
  unfold delete
  -- the type goes before its clusters do
  refine Session.Triple.bind (Q := fun _ s => ∃ types, Consistent O types s.resources ∧
    ∀ c ∈ types, c.id ≠ itemId → ∃ c' ∈ listTypes s.clusterTypes O.organizationId, c'.id = c.id)
    (.commit (fun s _ s' hs hok => ?_) fun _ hs => hs) fun _ => ?_
  · obtain ⟨item, -, hok⟩ := bind_eq_ok.mp hok
    obtain ⟨table, htable, hok⟩ := bind_eq_ok.mp hok
    obtain ⟨-, rfl⟩ := Prod.mk.inj (pure_eq_ok.mp hok)
    refine ⟨_, hs, fun c hc hne => ?_⟩
    obtain ⟨hmem, hlive, horg⟩ := mem_listTypes.mp hc
    have hkept : ∃ priority, { c with priority } ∈ table.rows := by
      split at htable
      · exact setPriority_eq_ok htable hmem
      · obtain rfl := pure_eq_ok.mp htable
        exact ⟨c.priority, hmem⟩
    obtain ⟨priority, hkept⟩ := hkept
    have hout : ¬ decide (({ c with priority } : ClusterType).id = itemId) := by simpa using hne
    exact ⟨{ c with priority }, mem_listTypes.mpr
      ⟨List.mem_map.mpr ⟨{ c with priority }, hkept, if_neg hout⟩, hlive, horg⟩, rfl⟩
  · refine Session.Triple.bind (Q := fun _ s => ∃ types, Consistent O types s.resources ∧
      ∀ c ∈ types, c.id ≠ itemId → ∃ c' ∈ listTypes s.clusterTypes O.organizationId, c'.id = c.id)
      (fun s hs => ?_) fun modified => ?_
    · exact ⟨fun _ _ hok => (Session.read_eq_ok.mp hok).2 ▸ hs,
        fun _ _ herror => nomatch (Session.read_eq_error.mp herror).1⟩
    refine Session.Triple.bind (Q := fun _ => Members O) (fun s hs => ?_) fun _ =>
      .read (fun _ _ hs _ => hs) fun _ hs => hs
    refine ⟨fun _ s' hok => ?_, fun _ _ herror => nomatch (Session.commit_eq_error.mp herror).1⟩
    obtain ⟨types, ht, htypes⟩ := hs
    obtain ⟨-, rfl⟩ := Prod.mk.inj (Except.ok.inj (Session.commit_eq_ok.mp hok))
    exact deleteClusters_consistent now htypes ht

end ClusterTypeController

/-! ## Runs -/

namespace ClusterTypeController

/-- A call, with what it finds around it. -/
inductive AssigningCall
  | saveBulk (R : RuleContext) (K : CloudResourceController.Kind)
      (a : CloudResourceController.SaveBulkArgs)
  | createAssignment (E : AssignmentController.Surroundings) (p : AssignmentController.Params)
  | acceptAssignmentRequest (E : AssignmentController.Surroundings) (requestId : Uuid)
      (poolId ownerId : Option Uuid)
  | reapplyRules (R : RuleContext) (E : RuleApplyController.Surroundings) (poolId : Uuid)
      (includeChildren : Bool)
  | reapplyClusters (R : RuleContext) (E : ClusterTypeApplyController.Surroundings)
  | deletePool (E : PoolController.Surroundings) (itemId : Uuid) (allowRootDeletion : Bool)
  | deleteClusterType (publish : String → Except Failure Unit) (itemId : Uuid) (now : Timestamp)

/-- The store after a call, whether or not it is refused. -/
def AssigningCall.after (O : OrganizationContext) (s : Store) : AssigningCall → Store
  | saveBulk R K a => (CloudResourceController.saveBulkStored O R K a s).2
  | createAssignment E p => (AssignmentController.createAssignment E false p s).2
  | acceptAssignmentRequest E requestId poolId ownerId =>
    (AssignmentRequestController.acceptAssignmentRequest E requestId poolId ownerId s).2
  | reapplyRules R E poolId includeChildren =>
    (RuleApplyController.reapplyRules O R E poolId includeChildren s).2
  | reapplyClusters R E => (ClusterTypeApplyController.reapplyClusters O R E s).2
  | deletePool E itemId allowRootDeletion =>
    (PoolController.deleteForResources E itemId allowRootDeletion s).2
  | deleteClusterType publish itemId now => (delete publish itemId now s).2

/-- The step of a run. -/
def assigningStep (O : OrganizationContext) (s : Store) (c : AssigningCall) : Option Store :=
  some (c.after O s)

/-- **Every call keeps the members with their clusters.** -/
theorem AssigningCall.members (c : AssigningCall) (hs : Members O s) : Members O (c.after O s) := by
  cases c with
  | saveBulk R K a => exact CloudResourceController.saveBulkStored_members R K a hs
  | createAssignment E p => exact (AssignmentController.createAssignment_keeps E false p).apply hs
  | acceptAssignmentRequest E requestId poolId ownerId =>
    exact (AssignmentRequestController.acceptAssignmentRequest_keeps E requestId poolId
      ownerId).apply hs
  | reapplyRules R E poolId includeChildren =>
    exact (RuleApplyController.reapplyRules_keeps E poolId includeChildren).apply hs
  | reapplyClusters R E =>
    exact (ClusterTypeApplyController.reapplyClusters_members E hs).1
  | deletePool E itemId allowRootDeletion =>
    exact (PoolController.deleteForResources_keeps E itemId allowRootDeletion).apply hs
  | deleteClusterType publish itemId now => exact (delete_keeps publish itemId now).apply hs

/-- A live resource that is in a cluster is in a live one that has its pool and its owner. -/
def MembersFollow (t : Resources) : Prop :=
  ∀ r ∈ t.rows, r.Live → ∀ c, r.clusterId = some c →
    ∃ k ∈ t.rows, k.id = c ∧ k.Live ∧ k.IsCluster ∧ k.poolId = r.poolId ∧
      k.employeeId = r.employeeId

theorem membersFollow_of_members (hs : Members O s) : MembersFollow s.resources := by
  intro r hr hlive c hc
  obtain ⟨k, hk, hcluster, rfl, hagrees⟩ := hs.follows r hr c hc
  obtain ⟨hklive, hpool, howner⟩ := hagrees hlive
  exact ⟨k, hk, rfl, hklive, hcluster, hpool, howner⟩

/-- After a `reapply_clusters` that goes through, no live cluster is without a live member. -/
def NoneEmpty (O : OrganizationContext) (s : Store) (c : AssigningCall) (s' : Store) : Prop :=
  match c with
  | .reapplyClusters R E => (ClusterTypeApplyController.reapplyClusters O R E).Succeeds s →
      ClusterTypeApplyController.Inhabited s'.resources
  | _ => True

end ClusterTypeController
